import Policyd.UdpWorker

namespace Policyd.IoUring

open ByteOrder
open Udp (Datagram Errno)

/-!
# The io_uring worker

The worker keeps one receive operation armed for every receive slot, and sends
through a pool of send slots with a free list.  Operations are queued,
submitted all at once, completed in any order and reaped in the order of
completion.  The kernel may take any front part of the queue, and may complete
any submitted operation between two steps of the worker.
-/

/-- An operation, as its user data names it. -/
inductive Op where
  | recv (slot : Nat)
  | send (slot : Nat)
  deriving Repr, DecidableEq

/-- Whether an operation is a send. -/
def Op.isSend : Op → Bool
  | recv _ => false
  | send _ => true

/-- The buffer and the address of a slot. -/
structure IoSlot where
  buf : List UInt8
  addr : SockAddr
  bufFits : buf.length = kWireMsgSize

/-- A slot with zeros. -/
def IoSlot.init : IoSlot :=
  { buf := List.replicate kWireMsgSize 0
    addr := {}
    bufFits := List.length_replicate }

/-- The kernel writes a datagram to a slot and discards what does not fit. -/
def IoSlot.fill (slot : IoSlot) (datagram : Datagram) : IoSlot where
  buf :=
    datagram.payload.take kWireMsgSize ++
      slot.buf.drop datagram.payload.length
  addr := datagram.source
  bufFits := by
    rw [List.length_append, List.length_take, List.length_drop, slot.bufFits]
    omega

/-- The worker writes a reply to a slot. -/
def IoSlot.write
    (host : Endian) (decision : PolicyDecision)
    (addr : SockAddr) : IoSlot :=
  { buf := encode host decision
    addr := addr
    bufFits := length_encode host decision }

/-- A completion: its operation and its result. -/
structure Cqe where
  op : Op
  res : Except Errno Nat

/-- The rings shared with the kernel. -/
structure Ring where
  /-- How many operations the submission ring can hold. -/
  capacity : Nat
  queued : List Op := []
  inFlight : List Op := []
  completed : List Cqe := []

/-- Queue an operation, unless the submission ring is full. -/
def Ring.getSqe (ring : Ring) (op : Op) : Option Ring :=
  if ring.queued.length < ring.capacity then
    some { ring with queued := ring.queued ++ [op] }
  else
    none

/-- Where the worker is in its loop. -/
inductive Phase where
  | top
  /-- Reaping completions with the rule set of this round. -/
  | reaping (current : Option RuleSet) (processed : Nat)

/-- A worker and its rings. -/
structure Worker where
  batch : Nat
  ring : Ring
  recvSlots : List IoSlot
  sendSlots : List IoSlot
  /-- Free send slots, the one used next first. -/
  freeSend : List Nat
  metrics : WorkerMetrics := {}
  phase : Phase := .top
  /-- How often the submission ring was found full. -/
  nullSqes : Nat := 0

namespace Worker

/-- Arm the receive operation of a slot. -/
def armRecv (worker : Worker) (slot : Nat) : Worker :=
  match worker.ring.getSqe (.recv slot) with
  | some ring => { worker with ring := ring }
  | none => { worker with nullSqes := worker.nullSqes + 1 }

/--
A worker with fresh slots and nothing armed.  The sizes are 32-bit products.
-/
def unarmed (batch capacity : Nat) : Worker :=
  { batch := batch
    ring := { capacity := capacity }
    recvSlots := List.replicate batch IoSlot.init
    sendSlots := List.replicate (batch * 2 % 2 ^ 32) IoSlot.init
    freeSend := List.range (batch * 2 % 2 ^ 32) }

/-- Arm the receive slots in order and stop at the first failure. -/
def armAll : List Nat → Worker → Worker
  | [], worker => worker
  | slot :: later, worker =>
    let armed := worker.armRecv slot
    if armed.nullSqes = worker.nullSqes then
      armAll later armed
    else
      armed

/-- A worker about to enter its loop. -/
def start (batch capacity : Nat) : Worker :=
  armAll (List.range batch) (unarmed batch capacity)

/-- Operations asked for when the ring is created. -/
def entries (batch : Nat) : Nat :=
  nextPow2 (batch * 4 % 2 ^ 32)

/-- Count a reply that was dropped because there was no room for it. -/
def dropReply (m : WorkerMetrics) : WorkerMetrics :=
  { m with
    sendFailures := m.sendFailures + 1
    sendWouldblock := m.sendWouldblock + 1 }

/-- Queue a reply in a free send slot, or drop it. -/
def queueReply
    (host : Endian) (decision : PolicyDecision) (addr : SockAddr)
    (worker : Worker) : Worker :=
  match worker.freeSend with
  | [] => { worker with metrics := dropReply worker.metrics }
  | slot :: rest =>
    let written :=
      { worker with
        sendSlots :=
          worker.sendSlots.set slot (IoSlot.write host decision addr) }
    match worker.ring.getSqe (.send slot) with
    | some ring => { written with ring := ring, freeSend := rest }
    | none =>
      { written with
        metrics := dropReply worker.metrics
        nullSqes := worker.nullSqes + 1 }

/-- Count the result of a send. -/
def countSend (m : WorkerMetrics) : Except Errno Nat → WorkerMetrics
  | .ok _ => { m with repliesSent := m.repliesSent + 1 }
  | .error problem =>
    let failed := { m with sendFailures := m.sendFailures + 1 }
    match problem with
    | .enobufs => { failed with sendNobufs := m.sendNobufs + 1 }
    | .eagain | .ewouldblock =>
      { failed with sendWouldblock := m.sendWouldblock + 1 }
    | .eintr | .other => { failed with sendErrors := m.sendErrors + 1 }

/-- Count the error of a receive. -/
def countRecvError (m : WorkerMetrics) : Errno → WorkerMetrics
  | .eagain | .ewouldblock | .eintr => m
  | .enobufs | .other => { m with recvErrors := m.recvErrors + 1 }

/-- The content of a receive slot. -/
def recvSlot (worker : Worker) (slot : Nat) : IoSlot :=
  worker.recvSlots.getD slot IoSlot.init

/-- Decide the message in a receive slot and queue the reply. -/
def answer
    (host : Endian) (ruleSet : RuleSet) (moment : Moment) (slot : Nat)
    (worker : Worker) : Worker :=
  let input := worker.recvSlot slot
  let (decision, metrics) :=
    decideDatagram host ruleSet moment input.buf worker.metrics
  let queued :=
    queueReply host decision input.addr { worker with metrics := metrics }
  { queued with metrics := queued.metrics.note decision }

/-- Handle one completion. -/
def reap
    (host : Endian) (moment : Moment) (current : Option RuleSet)
    (processed : Nat) (cqe : Cqe)
    (worker : Worker) : Worker :=
  match cqe.op, cqe.res with
  | .send slot, res =>
    { worker with
      metrics := countSend worker.metrics res
      freeSend := slot :: worker.freeSend }
  | .recv slot, .error problem =>
    { worker with
      metrics := countRecvError worker.metrics problem }.armRecv slot
  | .recv slot, .ok length =>
    if length ≠ kWireMsgSize then
      { worker with
        metrics :=
          { worker.metrics with
            shortDatagrams := worker.metrics.shortDatagrams + 1 } }.armRecv
        slot
    else
      match current with
      | none => worker.armRecv slot
      | some ruleSet =>
        { worker.answer host ruleSet moment slot with
          phase := .reaping current (processed + 1) }.armRecv slot

/-- Count a round of the loop. -/
def countRound (m : WorkerMetrics) (batch processed : Nat) : WorkerMetrics :=
  if 0 < processed then
    { m with
      batches := m.batches + 1
      batchDatagrams := m.batchDatagrams + UInt64.ofNat processed
      fullBatches :=
        if batch ≤ processed then m.fullBatches + 1 else m.fullBatches }
  else
    { m with
      idleSpins := m.idleSpins + 1
      blockingWaits := m.blockingWaits + 1 }

end Worker

/-- What a submit call returns; the last is any other error. -/
inductive SubmitResult where
  | done
  | etime
  | eintr
  | eagain
  | failed
  deriving Repr, DecidableEq

/-- How the kernel completes an operation. -/
inductive Outcome where
  | received (datagram : Datagram)
  | sent (bytes : Nat)
  | failed (problem : Errno)

/-- A step of the worker or of the kernel. -/
inductive Action where
  /-- The worker submits, and the kernel takes some of the queue. -/
  | submit (taken : Nat) (result : SubmitResult) (current : Option RuleSet)
  /-- The kernel completes a submitted operation. -/
  | complete (op : Op) (outcome : Outcome)
  /-- The worker handles the oldest completion. -/
  | reap (moment : Moment)
  /-- The worker finds no more completions and ends the round. -/
  | finish

/-- The kernel completes an operation: its result and what it writes. -/
def Worker.completed (worker : Worker) : Op → Outcome → Option Worker
  | .recv slot, .received datagram =>
    some
      { worker with
        recvSlots :=
          worker.recvSlots.set slot
            ((worker.recvSlot slot).fill datagram)
        ring :=
          { worker.ring with
            inFlight := worker.ring.inFlight.erase (.recv slot)
            completed :=
              worker.ring.completed ++
                [⟨.recv slot, .ok datagram.reported⟩] } }
  | .send slot, .sent bytes =>
    some
      { worker with
        ring :=
          { worker.ring with
            inFlight := worker.ring.inFlight.erase (.send slot)
            completed :=
              worker.ring.completed ++ [⟨.send slot, .ok bytes⟩] } }
  | op, .failed problem =>
    some
      { worker with
        ring :=
          { worker.ring with
            inFlight := worker.ring.inFlight.erase op
            completed :=
              worker.ring.completed ++ [⟨op, .error problem⟩] } }
  | _, _ => none

/-- One step. -/
def step (host : Endian) (worker : Worker) : Action → Option Worker
  | .submit taken result current =>
    match worker.phase with
    | .reaping _ _ => none
    | .top =>
      if taken ≤ worker.ring.queued.length then
        some
          { worker with
            ring :=
              { worker.ring with
                queued := worker.ring.queued.drop taken
                inFlight :=
                  worker.ring.inFlight ++
                    worker.ring.queued.take taken }
            phase :=
              if result = .failed then .top else .reaping current 0 }
      else
        none
  | .complete op outcome =>
    if op ∈ worker.ring.inFlight then
      worker.completed op outcome
    else
      none
  | .reap moment =>
    match worker.phase, worker.ring.completed with
    | .reaping current processed, cqe :: later =>
      some
        ({ worker with
            ring := { worker.ring with completed := later } }.reap host
          moment current processed cqe)
    | _, _ => none
  | .finish =>
    match worker.phase, worker.ring.completed with
    | .reaping _ processed, [] =>
      some
        { worker with
          metrics :=
            Worker.countRound worker.metrics worker.batch processed
          phase := .top }
    | _, _ => none

end Policyd.IoUring
