import Policyd.Loadgen

namespace Policyd.Loadgen

open ByteOrder (Endian)

/-!
# The open-loop generator over UDP

`Sender::run_open_loop` sends requests at scheduled times, reads replies and
retires requests that are too old; `drain_tail` closes the run.  An outstanding
request lives in the slot of its low sequence bits.  The clock, the socket and
the network are the environment.  The schedule is the list of the times still
owed; an issue that fails leaves it where it is.
-/

/-- One outstanding request. -/
structure InFlight where
  scheduledNs : UInt64 := 0
  sentNs : UInt64 := 0
  live : Bool := false
deriving Repr, DecidableEq

/-- A sender thread with a table of `2 ^ k` slots. -/
structure UdpSender (k : Fin 32) where
  inflight : Vector InFlight (2 ^ k.val) := Vector.replicate (2 ^ k.val) {}
  schedule : List UInt64
  seq : UInt32 := 0
  sweepAtNs : UInt64 := 0
  result : ThreadResult := {}
deriving Repr, DecidableEq

/-- One call of `send` that the schedule makes due. -/
structure SendCall where
  issueAt : UInt64
  taken : Bool
deriving Repr, DecidableEq

/-- A datagram and the time at which it is read. -/
structure Arrival where
  recvNs : UInt64
  payload : List UInt8
deriving Repr, DecidableEq

/-- What the environment does during one iteration of the loop. -/
structure Turn where
  now : UInt64
  calls : List SendCall
  arrivals : List Arrival
  sweepNow : UInt64
deriving Repr, DecidableEq

variable {k : Fin 32}

/-- The mask of the table. -/
def mask (k : Fin 32) : UInt32 :=
  UInt32.ofNat (2 ^ k.val) - 1

theorem toNat_mask (k : Fin 32) : (mask k).toNat = 2 ^ k.val - 1 := by
  have sized : ∀ k : Fin 32, (mask k).toNat = 2 ^ k.val - 1 := by
    decide
  exact sized k

/-- The slot of a sequence number. -/
def slotOf (k : Fin 32) (seq : UInt32) : Fin (2 ^ k.val) :=
  ⟨(seq &&& mask k).toNat, by
    have bounded : (seq &&& mask k).toNat ≤ (mask k).toNat := by
      rw [UInt32.toNat_and]
      exact Nat.and_le_right
    have positive : 0 < 2 ^ k.val := Nat.two_pow_pos _
    rw [toNat_mask] at bounded
    omega⟩

/-- The datagram as `recv` hands it over: longer ones are cut. -/
def readDecision (host : Endian) (payload : List UInt8) :
    Option PolicyDecision :=
  decode host (payload.take kWireMsgSize)

namespace UdpSender

/-- The body of the send loop once the datagram is on its way. -/
def sendOne
    (sender : UdpSender k) (scheduled issueAt : UInt64) (owed : List UInt64)
    (measuring : Bool) :
    UdpSender k :=
  let slot := slotOf k sender.seq
  let result :=
    if sender.inflight[slot].live then
      { sender.result with lost := sender.result.lost + 1 }
    else
      sender.result
  { sender with
    inflight := sender.inflight.set slot
      { scheduledNs := scheduled, sentNs := issueAt, live := true }
    result := result.noteSent scheduled issueAt measuring
    seq := sender.seq + 1
    schedule := owed }

/-- One attempt of the send loop; the request carries its scheduled time. -/
def attempt
    (opt : Options) (now : UInt64) (sender : UdpSender k) (call : SendCall) :
    Bool × UdpSender k :=
  match sender.schedule with
  | [] => (false, sender)
  | scheduled :: owed =>
    let noted :=
      { sender with
        result := sender.result.noteSlip opt.intervalNs (now - scheduled) }
    if call.taken then
      (true,
        noted.sendOne scheduled call.issueAt owed (opt.warmupEndNs ≤ now))
    else
      (false,
        { noted with
          result :=
            { noted.result with
              sendErrors := noted.result.sendErrors + 1 } })

/-- Read one datagram. -/
def receive
    (host : Endian) (measuring : Bool) (sender : UdpSender k)
    (arrival : Arrival) :
    UdpSender k :=
  match readDecision host arrival.payload with
  | none =>
    { sender with
      result :=
        { sender.result with badReplies := sender.result.badReplies + 1 } }
  | some dec =>
    let index := slotOf k dec.seq
    let slot := sender.inflight[index]
    if !slot.live || slot.scheduledNs ≠ dec.clientTsNs then
      { sender with
        result :=
          { sender.result with
            staleReplies := sender.result.staleReplies + 1 } }
    else
      { sender with
        inflight := sender.inflight.set index { slot with live := false }
        result := (sender.result.noteVerdict dec.verdict).complete
          slot.scheduledNs arrival.recvNs measuring }

/-- The sweep at one slot. -/
def sweepSlot
    (timeoutNs sweepNow : UInt64) (sender : UdpSender k)
    (index : Fin (2 ^ k.val)) :
    UdpSender k :=
  let slot := sender.inflight[index]
  if slot.live && slot.sentNs < sweepNow &&
      timeoutNs < sweepNow - slot.sentNs then
    { sender with
      inflight := sender.inflight.set index { slot with live := false }
      result := { sender.result with lost := sender.result.lost + 1 } }
  else
    sender

/-- Retire the requests that are past the timeout. -/
def sweep (timeoutNs sweepNow : UInt64) (sender : UdpSender k) :
    UdpSender k :=
  (List.finRange (2 ^ k.val)).foldl (sweepSlot timeoutNs sweepNow) sender

/-- One iteration of the loop. -/
def turn (host : Endian) (opt : Options) (sender : UdpSender k) (env : Turn) :
    UdpSender k :=
  let sent := sendDue (attempt opt env.now) 0 sender env.calls
  let drained := (env.arrivals.take opt.batchRecv).foldl
    (receive host (opt.warmupEndNs ≤ env.now)) sent
  if drained.sweepAtNs ≤ env.now then
    { drained.sweep opt.timeoutNs env.sweepNow with
      sweepAtNs := env.sweepNow + opt.timeoutNs }
  else
    drained

/-- The loop while the window is open. -/
def runLoop
    (host : Endian) (opt : Options) (sender : UdpSender k)
    (turns : List Turn) :
    UdpSender k :=
  runTurns Turn.now (turn host opt) opt.endNs sender turns

/-- Requests still waiting for a reply. -/
def outstanding (sender : UdpSender k) : Nat :=
  sender.inflight.toList.countP InFlight.live

/-- Read one datagram after the window has closed. -/
def drainOne (host : Endian) (sender : UdpSender k) (payload : List UInt8) :
    UdpSender k :=
  match readDecision host payload with
  | none => sender
  | some dec =>
    let index := slotOf k dec.seq
    let slot := sender.inflight[index]
    if slot.live then
      { sender with
        inflight := sender.inflight.set index { slot with live := false }
        result :=
          { sender.result with
            received := sender.result.received + 1 }.noteVerdict
              dec.verdict }
    else
      sender

/-- The loop of `drain_tail`: before the deadline a read may find nothing. -/
def drainLoop (host : Endian) :
    UdpSender k → List (Option (List UInt8)) → UdpSender k
  | sender, [] => sender
  | sender, read :: later =>
    if sender.outstanding = 0 then
      sender
    else
      drainLoop host (read.elim sender (sender.drainOne host)) later

/-- The last loop of `drain_tail` at one slot; the slot itself stays. -/
def closeSlot (sender : UdpSender k) (index : Fin (2 ^ k.val)) :
    UdpSender k :=
  if sender.inflight[index].live then
    { sender with
      result := { sender.result with lost := sender.result.lost + 1 } }
  else
    sender

/-- Close the run. -/
def drainTail
    (host : Endian) (sender : UdpSender k)
    (reads : List (Option (List UInt8))) :
    UdpSender k :=
  (List.finRange (2 ^ k.val)).foldl closeSlot (drainLoop host sender reads)

/-- A whole run. -/
def runOpenLoop
    (host : Endian) (opt : Options) (sender : UdpSender k) (turns : List Turn)
    (reads : List (Option (List UInt8))) :
    UdpSender k :=
  (sender.runLoop host opt turns).drainTail host reads

end UdpSender

end Policyd.Loadgen
