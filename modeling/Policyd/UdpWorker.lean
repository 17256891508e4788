import Policyd.ActionRun
import Policyd.WorkerMetrics

namespace Policyd.Udp

open ByteOrder

/-!
# The UDP worker

A worker receives a batch of datagrams, decides each one of the right length,
stages the replies in order and hands them to the kernel in one call.  Slots
are reused from batch to batch.  A `Pass` is what the kernel and the rest of
the server do meanwhile; the kernel copies at most one slot of a datagram and
reports the number of bytes it copied.
-/

/-- Reasons for a failed call. -/
inductive Errno where
  | eintr
  | eagain
  | ewouldblock
  | enobufs
  | other
  deriving Repr, DecidableEq

/-- The failures of a receive call that mean that nothing is there yet. -/
def Errno.nothingYet : Errno → Bool
  | eagain | ewouldblock | eintr => true
  | enobufs | other => false

/-- The failures of a send call that drop the rest of the batch. -/
def Errno.transient : Errno → Bool
  | eagain | ewouldblock | enobufs => true
  | eintr | other => false

/-- A datagram on the wire. -/
structure Datagram where
  payload : List UInt8
  source : SockAddr
  deriving Repr, DecidableEq

/-- A reply in a send slot. -/
structure Reply where
  payload : List UInt8 := []
  destination : SockAddr := {}
  deriving Repr, DecidableEq

/-- Bytes of a slot. -/
def kSlotSize : Nat :=
  kWireMsgSize

/-- A receive slot. -/
structure RecvSlot where
  buffer : List UInt8
  length : Nat
  address : SockAddr
  bufferFits : buffer.length = kSlotSize

/-- A slot before anything was received. -/
def RecvSlot.empty : RecvSlot :=
  { buffer := List.replicate kSlotSize 0
    length := 0
    address := {}
    bufferFits := List.length_replicate }

/-- The number of bytes the kernel reports for a datagram. -/
def Datagram.reported (datagram : Datagram) : Nat :=
  min datagram.payload.length kSlotSize

/-- The kernel writes a datagram to a slot. -/
def RecvSlot.fill (slot : RecvSlot) (datagram : Datagram) : RecvSlot where
  buffer :=
    datagram.payload.take kSlotSize ++
      slot.buffer.drop datagram.payload.length
  length := datagram.reported
  address := datagram.source
  bufferFits := by
    have fits := slot.bufferFits
    rw [List.length_append, List.length_take, List.length_drop, fits]
    omega

/-- The kernel writes datagrams to consecutive slots. -/
def fillSlots : List RecvSlot → List Datagram → List RecvSlot
  | slot :: slots, datagram :: datagrams =>
    slot.fill datagram :: fillSlots slots datagrams
  | slots, _ => slots

@[simp] theorem length_fillSlots (slots : List RecvSlot)
    (datagrams : List Datagram) :
    (fillSlots slots datagrams).length = slots.length := by
  induction slots generalizing datagrams with
  | nil =>
    cases datagrams <;> rfl
  | cons slot slots inductionHypothesis =>
    cases datagrams with
    | nil =>
      rfl
    | cons datagram datagrams =>
      rw [fillSlots, List.length_cons, inductionHypothesis,
        List.length_cons]

/-- The slots of a worker. -/
structure BatchIo where
  batch : Nat
  recvSlots : List RecvSlot
  sendSlots : List Reply
  batchFits : batch < 2 ^ 32
  recvFits : recvSlots.length = batch
  sendFits : sendSlots.length = batch

namespace BatchIo

/-- Fresh slots; a batch of zero counts as one. -/
def create (batch : UInt32) : BatchIo :=
  let size := if batch = 0 then 1 else batch.toNat
  { batch := size
    recvSlots := List.replicate size RecvSlot.empty
    sendSlots := List.replicate size {}
    batchFits := by
      have bound := batch.toNat_lt
      dsimp only [size]
      split <;> omega
    recvFits := List.length_replicate
    sendFits := List.length_replicate }

/-- What the receive calls of one batch return. -/
inductive RecvCalls where
  | mmsg (outcome : Except Errno (List Datagram))
  | portable (calls : List (Except Errno Datagram))

/-- Store datagrams in the receive slots. -/
def store (io : BatchIo) (datagrams : List Datagram) : BatchIo :=
  { io with
    recvSlots := fillSlots io.recvSlots datagrams
    recvFits := by
      rw [length_fillSlots]
      exact io.recvFits }

/--
The loop of single receive calls: the datagrams it stores and what it returns.
It ends when the slots are used up; calls beyond those listed find nothing.
-/
def recvfromLoop :
    Nat → Nat → List (Except Errno Datagram) → List Datagram × Int
  | received, room + 1, .ok datagram :: calls =>
    let (later, result) := recvfromLoop (received + 1) room calls
    (datagram :: later, result)
  | received, _ + 1, .error problem :: _ =>
    if problem.nothingYet then
      ([], received)
    else
      ([], if 0 < received then received else -1)
  | received, _, _ => ([], received)

/-- Receive a batch; a negative result is an error. -/
def recvBatch (io : BatchIo) : RecvCalls → BatchIo × Int
  | .mmsg (.ok datagrams) =>
    let received := datagrams.take io.batch
    (io.store received, received.length)
  | .mmsg (.error problem) => (io, if problem.nothingYet then 0 else -1)
  | .portable calls =>
    let (received, result) := recvfromLoop 0 io.batch calls
    (io.store received, result)

/-- The reported length of a received payload. -/
def payloadLen (io : BatchIo) (index : Nat) : Nat :=
  (io.recvSlots[index]?.map (·.length)).getD 0

/-- The bytes of a receive slot. -/
def payload (io : BatchIo) (index : Nat) : List UInt8 :=
  (io.recvSlots[index]?.map (·.buffer)).getD []

/-- The peer of a receive slot. -/
def peer (io : BatchIo) (index : Nat) : SockAddr :=
  (io.recvSlots[index]?.map (·.address)).getD {}

/-- Put a reply to a received datagram into a send slot. -/
def stageReply (io : BatchIo) (out src : Nat) (reply : List UInt8) : BatchIo :=
  { io with
    sendSlots :=
      io.sendSlots.set out { payload := reply, destination := io.peer src }
    sendFits := by
      rw [List.length_set]
      exact io.sendFits }

/-- What a send call returns: an error, or how much the kernel took. -/
abbrev SendCall := Except Errno Nat

/-- Whether replies are sent in batches or one by one. -/
inductive Platform where
  | mmsg
  | portable
  deriving Repr, DecidableEq

/--
The replies a successful call takes.  A batch call takes at most the replies it
was given; a single call takes one.
-/
def Platform.taken (platform : Platform) (asked offered : Nat) : Nat :=
  match platform with
  | .mmsg => min offered asked
  | .portable => 1

/-- What sending a batch returns, and the replies that went out. -/
structure Sent where
  result : Int
  errno : Option Errno
  wire : List Reply
  deriving Repr, DecidableEq

/-- Send replies until all are sent or a call fails; `none` while it runs. -/
def sendLoop (platform : Platform) (replies : List Reply) :
    Nat → List Reply → List SendCall → Option Sent
  | sent, wire, [] =>
    if sent < replies.length then
      none
    else
      some { result := sent, errno := none, wire := wire }
  | sent, wire, call :: later =>
    if sent < replies.length then
      match call with
      | .ok offered =>
        let taken := platform.taken (replies.length - sent) offered
        sendLoop platform replies (sent + taken)
          (wire ++ (replies.drop sent).take taken) later
      | .error problem =>
        if problem = .eintr then
          sendLoop platform replies sent wire later
        else if problem.transient then
          some { result := sent, errno := some problem, wire := wire }
        else
          some
            { result := if 0 < sent then sent else -1
              errno := some problem
              wire := wire }
    else
      some { result := sent, errno := none, wire := wire }

/-- Send the first slots. -/
def sendBatch
    (io : BatchIo) (platform : Platform) (count : Nat)
    (calls : List SendCall) : Option Sent :=
  sendLoop platform (io.sendSlots.take count) 0 [] calls

end BatchIo

/-- What happens around a worker during one pass of its loop. -/
structure Pass where
  received : BatchIo.RecvCalls
  /-- The spin budget is used up when nothing was received. -/
  parks : Bool
  current : Option RuleSet
  /-- The circumstances in which each datagram of the batch is decided. -/
  moments : Nat → Moment
  sends : List BatchIo.SendCall

/-- A batch while its datagrams are served. -/
structure Serving where
  io : BatchIo
  metrics : WorkerMetrics
  /-- Next send slot. -/
  out : Nat := 0
  /-- Receive slots that were answered, in the order of their replies. -/
  answered : List Nat := []

/-- Serve the datagram in one receive slot. -/
def serveSlot
    (host : Endian) (ruleSet : RuleSet) (moments : Nat → Moment)
    (serving : Serving)
    (index : Nat) : Serving :=
  if serving.io.payloadLen index ≠ kWireMsgSize then
    { serving with
      metrics :=
        { serving.metrics with
          shortDatagrams := serving.metrics.shortDatagrams + 1 } }
  else
    let (decision, metrics) :=
      decideDatagram host ruleSet (moments index)
        (serving.io.payload index) serving.metrics
    { io := serving.io.stageReply serving.out index (encode host decision)
      metrics := metrics.note decision
      out := serving.out + 1
      answered := serving.answered ++ [index] }

/-- Serve the first datagrams of a batch. -/
def serveBatch
    (host : Endian) (ruleSet : RuleSet) (moments : Nat → Moment) (io : BatchIo)
    (metrics : WorkerMetrics)
    (received : Nat) : Serving :=
  (List.range received).foldl (serveSlot host ruleSet moments)
    { io := io, metrics := metrics }

/-- Count the replies the kernel did not take, by the reason it gave. -/
def countDropped
    (m : WorkerMetrics) (errno : Option Errno)
    (dropped : Nat) : WorkerMetrics :=
  let failed :=
    { m with sendFailures := m.sendFailures + UInt64.ofNat dropped }
  match errno with
  | some .enobufs =>
    { failed with sendNobufs := m.sendNobufs + UInt64.ofNat dropped }
  | some .eagain | some .ewouldblock =>
    { failed with
      sendWouldblock := m.sendWouldblock + UInt64.ofNat dropped }
  | _ => { failed with sendErrors := m.sendErrors + UInt64.ofNat dropped }

/-- Count what became of the staged replies. -/
def countSent
    (m : WorkerMetrics) (out : Nat)
    (sent : BatchIo.Sent) : WorkerMetrics :=
  let delivered := if sent.result < 0 then 0 else sent.result.toNat
  let m := { m with repliesSent := m.repliesSent + UInt64.ofNat delivered }
  if delivered < out then
    countDropped m sent.errno (out - delivered)
  else
    m

/-- A worker between two passes of its loop. -/
structure Worker where
  io : BatchIo
  metrics : WorkerMetrics := {}
  /-- Replies staged by the last pass. -/
  out : Nat := 0
  /-- Receive slots answered by the last pass. -/
  answered : List Nat := []
  /-- Replies the kernel has taken so far. -/
  wire : List Reply := []

/-- A worker that has not run. -/
def Worker.start (batch : UInt32) : Worker :=
  { io := BatchIo.create batch }

/-- The replies staged by the last pass. -/
def Worker.staged (worker : Worker) : List Reply :=
  worker.io.sendSlots.take worker.out

/-- Count a batch that was received. -/
def countBatch (m : WorkerMetrics) (batch received : Nat) : WorkerMetrics :=
  { m with
    batches := m.batches + 1
    batchDatagrams := m.batchDatagrams + UInt64.ofNat received
    fullBatches :=
      if received = batch then m.fullBatches + 1 else m.fullBatches }

/-- Serve a received batch and send the replies. -/
def serveAndSend
    (host : Endian) (platform : BatchIo.Platform) (worker : Worker)
    (ruleSet : RuleSet) (pass : Pass)
    (received : Nat) : Option Worker :=
  let served :=
    serveBatch host ruleSet pass.moments worker.io worker.metrics received
  let worker :=
    { worker with
      io := served.io
      metrics := served.metrics
      out := served.out
      answered := served.answered }
  if served.out = 0 then
    some worker
  else
    (served.io.sendBatch platform served.out pass.sends).map fun sent =>
      { worker with
        metrics := countSent served.metrics served.out sent
        wire := worker.wire ++ sent.wire }

/-- One pass of the worker loop; `none` while it is still sending. -/
def workerLoop
    (host : Endian) (platform : BatchIo.Platform) (worker : Worker)
    (pass : Pass) : Option Worker :=
  let (io, received) := worker.io.recvBatch pass.received
  let m := worker.metrics
  let worker := { worker with io := io, out := 0, answered := [] }
  if received < 0 then
    some { worker with metrics := { m with recvErrors := m.recvErrors + 1 } }
  else if received = 0 then
    some
      { worker with
        metrics :=
          { m with
            idleSpins := m.idleSpins + 1
            blockingWaits :=
              if pass.parks then m.blockingWaits + 1 else m.blockingWaits } }
  else
    let worker :=
      { worker with metrics := countBatch m io.batch received.toNat }
    match pass.current with
    | none => some worker
    | some ruleSet =>
      serveAndSend host platform worker ruleSet pass received.toNat

end Policyd.Udp
