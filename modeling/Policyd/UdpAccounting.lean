import Policyd.UdpWorker

namespace Policyd.Udp

open ByteOrder

/-!
# Accounting of the UDP worker

Datagrams that are not answered make the receive and send positions drift
apart, and a batch may be sent in part.  Over every run the replies staged by a
pass are those to the datagrams reported with the length of a message, in their
order, and the counters account for every datagram and every reply.
-/

/-- The datagrams that one receive stores. -/
def BatchIo.RecvCalls.arrived (batch : Nat) :
    BatchIo.RecvCalls → List Datagram
  | .mmsg (.ok datagrams) => datagrams.take batch
  | .mmsg (.error _) => []
  | .portable calls => (BatchIo.recvfromLoop 0 batch calls).1

/-- The loop of receive calls returns how many datagrams there are now. -/
theorem recvfromLoop_spec
    (received room : Nat) (calls : List (Except Errno Datagram)) :
    (BatchIo.recvfromLoop received room calls).1.length ≤ room ∧
      ((BatchIo.recvfromLoop received room calls).2 =
          received + (BatchIo.recvfromLoop received room calls).1.length ∨
        received = 0 ∧
          BatchIo.recvfromLoop received room calls = ([], -1)) := by
  induction calls generalizing received room with
  | nil => cases room <;> simp [BatchIo.recvfromLoop]
  | cons call calls inductionHypothesis =>
    cases room with
    | zero => simp [BatchIo.recvfromLoop]
    | succ room =>
      cases call with
      | ok datagram =>
        obtain ⟨bounded, counted⟩ := inductionHypothesis (received + 1) room
        rcases counted with counted | ⟨isZero, _⟩
        · simp only [BatchIo.recvfromLoop, List.length_cons, counted]
          refine ⟨by omega, .inl ?_⟩
          push_cast
          omega
        · omega
      | error problem =>
        rw [BatchIo.recvfromLoop]
        split
        · simp
        · by_cases any : 0 < received
          · simp [any]
          · have isZero : received = 0 := by omega
            simp [isZero]

theorem store_nil (io : BatchIo) : io.store [] = io := by
  have unchanged : fillSlots io.recvSlots [] = io.recvSlots := by
    cases io.recvSlots <;> rfl
  unfold BatchIo.store
  simp only [unchanged]

/-- A receive stores what arrived and returns how much it was. -/
theorem recvBatch_spec (io : BatchIo) (calls : BatchIo.RecvCalls) :
    (io.recvBatch calls).1 = io.store (calls.arrived io.batch) ∧
      (calls.arrived io.batch).length ≤ io.batch ∧
      ((io.recvBatch calls).2 = (calls.arrived io.batch).length ∨
        calls.arrived io.batch = [] ∧ (io.recvBatch calls).2 = -1) := by
  cases calls with
  | mmsg outcome =>
    cases outcome with
    | ok datagrams =>
      refine ⟨rfl, ?_, .inl rfl⟩
      simp [BatchIo.RecvCalls.arrived]
    | error problem =>
      refine ⟨(store_nil io).symm, Nat.zero_le _, ?_⟩
      cases problem <;>
        simp [BatchIo.recvBatch, BatchIo.RecvCalls.arrived, Errno.nothingYet]
  | portable calls =>
    obtain ⟨bounded, counted⟩ := recvfromLoop_spec 0 io.batch calls
    refine ⟨rfl, bounded, ?_⟩
    rcases counted with counted | ⟨_, failed⟩
    · left
      simpa [BatchIo.recvBatch, BatchIo.RecvCalls.arrived] using counted
    · right
      simp [BatchIo.recvBatch, BatchIo.RecvCalls.arrived, failed]

variable {index : Nat} {host : Endian} {ruleSet : RuleSet}
  {platform : BatchIo.Platform} {worker next : Worker} {pass : Pass}

/-- Each datagram goes to the slot of its position. -/
theorem getElem?_fillSlots
    {slots : List RecvSlot} {datagrams : List Datagram} {slot : RecvSlot}
    {datagram : Datagram}
    (atSlot : slots[index]? = some slot)
    (atDatagram : datagrams[index]? = some datagram) :
    (fillSlots slots datagrams)[index]? = some (slot.fill datagram) := by
  induction slots generalizing datagrams index with
  | nil => cases atSlot
  | cons first slots inductionHypothesis =>
    cases datagrams with
    | nil => cases atDatagram
    | cons head datagrams =>
      cases index with
      | zero =>
        cases atSlot
        cases atDatagram
        rfl
      | succ index => exact inductionHypothesis atSlot atDatagram

section Stored

variable {io : BatchIo}
variable {datagrams : List Datagram}
variable {index : Nat}
variable {datagram : Datagram}

section

variable (fits : datagrams.length ≤ io.batch)

include fits

private theorem store_slot (arrived : datagrams[index]? = some datagram) :
    ∃ slot,
      (io.store datagrams).recvSlots[index]? =
        some (RecvSlot.fill slot datagram) := by
  obtain ⟨bound, _⟩ := List.getElem?_eq_some_iff.mp arrived
  have inSlots : index < io.recvSlots.length := by
    rw [io.recvFits]
    omega
  exact ⟨io.recvSlots[index],
    getElem?_fillSlots (List.getElem?_eq_getElem inSlots) arrived⟩

theorem payloadLen_store (arrived : datagrams[index]? = some datagram) :
    (io.store datagrams).payloadLen index = datagram.reported := by
  obtain ⟨slot, stored⟩ := store_slot fits arrived
  rw [BatchIo.payloadLen, stored]
  rfl

theorem peer_store (arrived : datagrams[index]? = some datagram) :
    (io.store datagrams).peer index = datagram.source := by
  obtain ⟨slot, stored⟩ := store_slot fits arrived
  rw [BatchIo.peer, stored]
  rfl

/-- A datagram that fills its slot leaves nothing of an earlier one. -/
theorem payload_store (arrived : datagrams[index]? = some datagram)
    (full : datagram.reported = kWireMsgSize) :
    (io.store datagrams).payload index =
      datagram.payload.take kWireMsgSize := by
  obtain ⟨slot, stored⟩ := store_slot fits arrived
  have long : kSlotSize ≤ datagram.payload.length := by
    unfold Datagram.reported at full
    exact min_eq_right_iff.mp full
  rw [BatchIo.payload, stored]
  show datagram.payload.take kSlotSize ++ slot.buffer.drop _ = _
  rw [List.drop_eq_nil_of_le (slot.bufferFits.le.trans long), List.append_nil]
  rfl

end

end Stored

/-- The reply to the datagram in a receive slot. -/
def replyTo
    (host : Endian) (ruleSet : RuleSet) (moments : Nat → Moment) (io : BatchIo)
    (index : Nat) : Reply :=
  { payload :=
      encode host
        (decisionOn host ruleSet (moments index) (io.payload index))
    destination := io.peer index }

private theorem take_succ_set
    {Value : Type} {values : List Value} {position : Nat}
    (inside : position < values.length) (value : Value) :
    (values.set position value).take (position + 1) =
      values.take position ++ [value] := by
  rw [List.take_add_one, List.take_set_of_le (Nat.le_refl position),
    List.getElem?_set_self inside]
  rfl

theorem serveSlot_short {moments : Nat → Moment} {serving : Serving}
    (short : serving.io.payloadLen index ≠ kWireMsgSize) :
    serveSlot host ruleSet moments serving index =
      { serving with
        metrics :=
          { serving.metrics with
            shortDatagrams := serving.metrics.shortDatagrams + 1 } } :=
  if_pos short

/-- A slot with a message is answered. -/
theorem serveSlot_full {moments : Nat → Moment} {serving : Serving}
    (full : serving.io.payloadLen index = kWireMsgSize) :
    serveSlot host ruleSet moments serving index =
      let payload := serving.io.payload index
      let decided :=
        decideDatagram host ruleSet (moments index) payload serving.metrics
      { io :=
          serving.io.stageReply serving.out index
            (encode host (decisionOn host ruleSet (moments index) payload))
        metrics := decided.2.note decided.1
        out := serving.out + 1
        answered := serving.answered ++ [index] } := by
  unfold serveSlot
  rw [if_neg (not_not.mpr full)]
  dsimp only
  rw [decideDatagram_fst]

/-- A batch of which the first slots have been served. -/
structure Progress
    (host : Endian)
    (ruleSet : RuleSet)
    (moments : Nat → Moment)
    (io : BatchIo)
    (before : WorkerMetrics)
    (count : Nat)
    (serving : Serving) : Prop where
  batch : serving.io.batch = io.batch
  recvSlots : serving.io.recvSlots = io.recvSlots
  answered :
    serving.answered =
      (List.range count).filter fun index =>
        io.payloadLen index = kWireMsgSize
  out : serving.out = serving.answered.length
  staged :
    serving.io.sendSlots.take serving.out =
      serving.answered.map (replyTo host ruleSet moments io)
  shortDatagrams :
    serving.metrics.shortDatagrams =
      before.shortDatagrams + UInt64.ofNat (count - serving.out)

section Serve

variable {host : Endian}
variable {ruleSet : RuleSet}
variable {moments : Nat → Moment}
variable {io : BatchIo}
variable {before : WorkerMetrics}
variable {count : Nat}
variable {serving : Serving}

theorem Progress.out_le
    (progress : Progress host ruleSet moments io before count serving) :
    serving.out ≤ count := by
  rw [progress.out, progress.answered]
  exact (List.length_filter_le _ _).trans_eq List.length_range

/-- Serving one more slot. -/
theorem Progress.step
    (progress : Progress host ruleSet moments io before count serving)
    (inBatch : count < io.batch) :
    Progress host ruleSet moments io before (count + 1)
      (serveSlot host ruleSet moments serving count) := by
  have bounded := progress.out_le
  have sameLength : serving.io.payloadLen count = io.payloadLen count := by
    rw [BatchIo.payloadLen, progress.recvSlots, BatchIo.payloadLen]
  by_cases full : io.payloadLen count = kWireMsgSize
  · have samePayload : serving.io.payload count = io.payload count := by
      rw [BatchIo.payload, progress.recvSlots, BatchIo.payload]
    have samePeer : serving.io.peer count = io.peer count := by
      rw [BatchIo.peer, progress.recvSlots, BatchIo.peer]
    have roomLeft : serving.out < serving.io.sendSlots.length := by
      rw [serving.io.sendFits, progress.batch]
      omega
    have decided :=
      decided_decideDatagram host ruleSet (moments count)
        (serving.io.payload count) serving.metrics
    rw [serveSlot_full (sameLength.trans full)]
    refine
      { progress with
        answered := ?_
        out := ?_
        staged := ?_
        shortDatagrams := ?_ }
    · dsimp only
      rw [List.range_succ, List.filter_append, ← progress.answered]
      simp [full]
    · dsimp only
      rw [List.length_append, progress.out]
      rfl
    · dsimp only [BatchIo.stageReply]
      rw [take_succ_set roomLeft, progress.staged, List.map_append,
        samePayload, samePeer]
      rfl
    · dsimp only
      rw [(decided.note _).shortDatagrams, progress.shortDatagrams,
        Nat.succ_sub_succ]
  · rw [serveSlot_short (sameLength.trans_ne full)]
    refine
      { progress with
        answered := ?_
        shortDatagrams := ?_ }
    · rw [List.range_succ, List.filter_append, ← progress.answered]
      simp [full]
    · dsimp only
      rw [progress.shortDatagrams, Nat.sub_add_comm bounded, UInt64.ofNat_add]
      exact UInt64.add_assoc _ _ _

section

variable (host ruleSet moments io before)

theorem Progress.start :
    Progress host ruleSet moments io before 0 { io := io, metrics := before } :=
  { batch := rfl
    recvSlots := rfl
    answered := rfl
    out := rfl
    staged := rfl
    shortDatagrams := (UInt64.add_zero _).symm }

theorem serveBatch_succ (count : Nat) :
    serveBatch host ruleSet moments io before (count + 1) =
      serveSlot host ruleSet moments
        (serveBatch host ruleSet moments io before count) count := by
  unfold serveBatch
  rw [List.range_succ, List.foldl_append]
  rfl

/-- A served batch has answered its messages in order. -/
theorem progress_serveBatch {count : Nat} (inBatch : count ≤ io.batch) :
    Progress host ruleSet moments io before count
      (serveBatch host ruleSet moments io before count) := by
  induction count with
  | zero => exact Progress.start host ruleSet moments io before
  | succ count inductionHypothesis =>
    rw [serveBatch_succ]
    exact (inductionHypothesis (Nat.le_of_succ_le inBatch)).step inBatch

end

/-- What serving a batch adds to the counters, for the replies staged. -/
structure Counted (before after : WorkerMetrics) (out : Nat) : Prop where
  decided :
    after.requests + after.badMagic =
      before.requests + before.badMagic + UInt64.ofNat out
  verdicts :
    after.verdicts.total = before.verdicts.total + UInt64.ofNat out
  reasons :
    after.reasons.total = before.reasons.total + UInt64.ofNat out
  batchDatagrams : after.batchDatagrams = before.batchDatagrams
  repliesSent : after.repliesSent = before.repliesSent
  sendFailures : after.sendFailures = before.sendFailures
  sendWouldblock : after.sendWouldblock = before.sendWouldblock
  sendNobufs : after.sendNobufs = before.sendNobufs
  sendErrors : after.sendErrors = before.sendErrors

/-- One more payload is served. -/
theorem Counted.step {before middle after : WorkerMetrics} {out : Nat}
    (counted : Counted before middle out) (served : middle.Served after) :
    Counted before after (out + 1) := by
  have oneMore : UInt64.ofNat (out + 1) = UInt64.ofNat out + 1 :=
    UInt64.ofNat_add ..
  exact
    { decided := by
        rw [served.decided, counted.decided, oneMore, UInt64.add_assoc]
      verdicts := by
        rw [served.verdicts, counted.verdicts, oneMore, UInt64.add_assoc]
      reasons := by
        rw [served.reasons, counted.reasons, oneMore, UInt64.add_assoc]
      batchDatagrams := served.batchDatagrams.trans counted.batchDatagrams
      repliesSent := served.repliesSent.trans counted.repliesSent
      sendFailures := served.sendFailures.trans counted.sendFailures
      sendWouldblock := served.sendWouldblock.trans counted.sendWouldblock
      sendNobufs := served.sendNobufs.trans counted.sendNobufs
      sendErrors := served.sendErrors.trans counted.sendErrors }

/-- A served batch has counted a decision for every reply it staged. -/
theorem counted_serveBatch (host : Endian) {ruleSet : RuleSet}
    (inRange : ruleSet.InRange) (moments : Nat → Moment) (io : BatchIo)
    (before : WorkerMetrics) (count : Nat) :
    Counted before
      (serveBatch host ruleSet moments io before count).metrics
      (serveBatch host ruleSet moments io before count).out := by
  induction count with
  | zero =>
    constructor <;> first | rfl | exact (UInt64.add_zero _).symm
  | succ count inductionHypothesis =>
    rw [serveBatch_succ]
    generalize serveBatch host ruleSet moments io before count = serving
      at inductionHypothesis
    by_cases full : serving.io.payloadLen count = kWireMsgSize
    · rw [serveSlot_full full]
      exact inductionHypothesis.step
        (served_note_decideDatagram host inRange _ _ _)
    · rw [serveSlot_short full]
      exact { inductionHypothesis with }

end Serve

/-- How many replies a send result stands for. -/
def BatchIo.Sent.delivered (sent : BatchIo.Sent) : Nat :=
  if sent.result < 0 then 0 else sent.result.toNat

private theorem delivered_exit {sent : Nat} {value : Int}
    (returned : value = sent ∨ (sent = 0 ∧ value = -1)) (errno : Option Errno)
    (wire : List Reply) :
    (BatchIo.Sent.mk value errno wire).delivered = sent := by
  unfold BatchIo.Sent.delivered
  rcases returned with rfl | ⟨rfl, rfl⟩
  · simp
  · simp

/-- Sending takes a front part of the replies, whatever the calls return. -/
theorem sendLoop_spec
    {replies wire : List Reply} {sent : Nat} {calls : List BatchIo.SendCall}
    {result : BatchIo.Sent}
    (bounded : sent ≤ replies.length) (soFar : wire = replies.take sent)
    (ended : BatchIo.sendLoop platform replies sent wire calls = some result) :
    result.delivered ≤ replies.length ∧
      result.wire = replies.take result.delivered := by
  induction calls generalizing sent wire with
  | nil =>
    unfold BatchIo.sendLoop at ended
    split_ifs at ended
    cases ended
    rw [delivered_exit (.inl rfl)]
    exact ⟨bounded, soFar⟩
  | cons call later inductionHypothesis =>
    unfold BatchIo.sendLoop at ended
    by_cases remaining : sent < replies.length
    · rw [if_pos remaining] at ended
      cases call with
      | ok offered =>
        refine inductionHypothesis ?_ ?_ ended
        · cases platform with
          | mmsg =>
            dsimp only [BatchIo.Platform.taken]
            omega
          | portable => exact remaining
        · rw [soFar, List.take_add]
      | error problem =>
        dsimp only at ended
        by_cases interrupted : problem = .eintr
        · rw [if_pos interrupted] at ended
          exact inductionHypothesis bounded soFar ended
        · rw [if_neg interrupted] at ended
          by_cases transient : problem.transient = true
          · rw [if_pos transient] at ended
            cases ended
            rw [delivered_exit (.inl rfl)]
            exact ⟨bounded, soFar⟩
          · rw [if_neg transient] at ended
            have returned :
                (if 0 < sent then (sent : Int) else -1) = sent ∨
                  (sent = 0 ∧
                    (if 0 < sent then (sent : Int) else -1) = -1) := by
              split <;> omega
            cases ended
            rw [delivered_exit returned]
            exact ⟨bounded, soFar⟩
    · rw [if_neg remaining] at ended
      cases ended
      rw [delivered_exit (.inl rfl)]
      exact ⟨bounded, soFar⟩

/-- The counters account for every datagram and every reply. -/
structure Balanced (m : WorkerMetrics) : Prop where
  datagrams :
    m.batchDatagrams = m.requests + m.badMagic + m.shortDatagrams
  verdicts : m.verdicts.total = m.requests + m.badMagic
  reasons : m.reasons.total = m.requests + m.badMagic
  replies : m.requests + m.badMagic = m.repliesSent + m.sendFailures
  failures :
    m.sendFailures = m.sendWouldblock + m.sendNobufs + m.sendErrors

/-- Counters that balance once the staged replies have been sent. -/
structure Owing (m : WorkerMetrics) (out : Nat) : Prop where
  datagrams :
    m.batchDatagrams = m.requests + m.badMagic + m.shortDatagrams
  verdicts : m.verdicts.total = m.requests + m.badMagic
  reasons : m.reasons.total = m.requests + m.badMagic
  pending :
    m.requests + m.badMagic =
      m.repliesSent + m.sendFailures + UInt64.ofNat out
  failures :
    m.sendFailures = m.sendWouldblock + m.sendNobufs + m.sendErrors

theorem Owing.balanced {m : WorkerMetrics} (owing : Owing m 0) :
    Balanced m :=
  { owing with replies := owing.pending.trans (UInt64.add_zero _) }

/-- Counting dropped replies changes the failures and nothing else. -/
theorem countDropped_spec
    (m : WorkerMetrics) (errno : Option Errno) (dropped : Nat) :
    ∃ wouldblock nobufs errors,
      countDropped m errno dropped =
          { m with
            sendFailures := m.sendFailures + UInt64.ofNat dropped
            sendWouldblock := wouldblock
            sendNobufs := nobufs
            sendErrors := errors } ∧
        wouldblock + nobufs + errors =
          m.sendWouldblock + m.sendNobufs + m.sendErrors +
            UInt64.ofNat dropped := by
  unfold countDropped
  split
  · refine ⟨_, _, _, rfl, ?_⟩
    ac_rfl
  · refine ⟨_, _, _, rfl, ?_⟩
    ac_rfl
  · refine ⟨_, _, _, rfl, ?_⟩
    ac_rfl
  · refine ⟨_, _, _, rfl, ?_⟩
    ac_rfl

/-- Sending settles the replies that were staged. -/
theorem balanced_countSent {m : WorkerMetrics} {out : Nat} {sent : BatchIo.Sent}
    (owing : Owing m out) (bounded : sent.delivered ≤ out) :
    Balanced (countSent m out sent) := by
  unfold countSent
  rw [show (if sent.result < 0 then 0 else sent.result.toNat) =
    sent.delivered from rfl]
  generalize sent.delivered = delivered at bounded
  dsimp only
  split
  case isTrue dropsSome =>
    obtain ⟨wouldblock, nobufs, errors, changed, sorted⟩ :=
      countDropped_spec
        { m with repliesSent := m.repliesSent + UInt64.ofNat delivered }
        sent.errno (out - delivered)
    rw [changed]
    have whole :
        UInt64.ofNat out =
          UInt64.ofNat delivered + UInt64.ofNat (out - delivered) := by
      rw [← UInt64.ofNat_add, Nat.add_sub_cancel' bounded]
    refine ⟨owing.datagrams, owing.verdicts, owing.reasons, ?_, ?_⟩
    · dsimp only
      rw [owing.pending, whole]
      ac_rfl
    · dsimp only at sorted ⊢
      rw [sorted, owing.failures]
  case isFalse dropsNone =>
    have whole : delivered = out := by
      omega
    refine ⟨owing.datagrams, owing.verdicts, owing.reasons, ?_, owing.failures⟩
    dsimp only
    rw [owing.pending, whole]
    ac_rfl

/-- The datagrams a worker receives in a pass. -/
def Pass.arrived (pass : Pass) (worker : Worker) : List Datagram :=
  pass.received.arrived worker.io.batch

theorem Pass.length_arrived_le (pass : Pass) (worker : Worker) :
    (pass.arrived worker).length ≤ worker.io.batch :=
  (recvBatch_spec worker.io pass.received).2.1

/-- A worker that has stored the datagrams of a pass. -/
def Worker.stored
    (worker : Worker) (pass : Pass)
    (metrics : WorkerMetrics) : Worker :=
  { worker with
    io := worker.io.store (pass.arrived worker)
    metrics := metrics
    out := 0
    answered := [] }

/-- A rule set is loaded during a pass. -/
def Pass.Loaded (pass : Pass) : Prop :=
  ∃ files text version ruleSet,
    (compileRules files text version).ruleSet = some ruleSet ∧
      pass.current = some ruleSet

/-- The replies owed to the datagrams of a batch. -/
def owedReplies
    (host : Endian) (ruleSet : RuleSet) (moments : Nat → Moment)
    (arrived : List Datagram) : List Reply :=
  (arrived.zipIdx.filter fun entry =>
      entry.1.reported = kWireMsgSize).map fun entry =>
    { payload :=
        encode host
          (decisionOn host ruleSet (moments entry.2)
            (entry.1.payload.take kWireMsgSize))
      destination := entry.1.source }

/-- The replies staged for a stored batch are those owed to it. -/
theorem map_replyTo_store
    (host : Endian) (ruleSet : RuleSet) (moments : Nat → Moment)
    {io : BatchIo} {arrived : List Datagram}
    (fits : arrived.length ≤ io.batch) :
    ((List.range arrived.length).filter fun index =>
          (io.store arrived).payloadLen index = kWireMsgSize).map
        (replyTo host ruleSet moments (io.store arrived)) =
      owedReplies host ruleSet moments arrived := by
  have positions : List.range arrived.length = arrived.zipIdx.map Prod.snd := by
    rw [List.zipIdx_map_snd, List.range_eq_range']
  have placed : ∀ entry ∈ arrived.zipIdx, arrived[entry.2]? = some entry.1 :=
    fun entry member => List.mem_zipIdx_iff_getElem?.mp member
  have sameEntries :
      arrived.zipIdx.filter (fun entry =>
          decide ((io.store arrived).payloadLen entry.2 = kWireMsgSize)) =
        arrived.zipIdx.filter fun entry =>
          decide (entry.1.reported = kWireMsgSize) := by
    refine List.filter_congr ?_
    intro entry member
    rw [payloadLen_store fits (placed entry member)]
  rw [positions, List.filter_map, List.map_map]
  show List.map _ (arrived.zipIdx.filter fun entry =>
    decide ((io.store arrived).payloadLen entry.2 = kWireMsgSize)) = _
  rw [sameEntries, owedReplies]
  refine List.map_congr_left ?_
  intro entry member
  obtain ⟨inBatch, full⟩ := List.mem_filter.mp member
  have atPosition := placed entry inBatch
  show replyTo host ruleSet moments (io.store arrived) entry.2 = _
  rw [replyTo, peer_store fits atPosition,
    payload_store fits atPosition (of_decide_eq_true full)]

/-- What one pass of the loop achieves. -/
structure PassDone
    (host : Endian)
    (ruleSet : RuleSet)
    (worker : Worker)
    (pass : Pass)
    (next : Worker) : Prop where
  staged :
    next.staged =
      owedReplies host ruleSet pass.moments (pass.arrived worker)
  answered : next.answered.Nodup
  wire :
    ∃ delivered, next.wire = worker.wire ++ next.staged.take delivered
  balanced : Balanced next.metrics

/-- Serving a batch of a balanced worker owes the staged replies. -/
theorem owing_of_served {before after : WorkerMetrics} {batch count out : Nat}
    (balanced : Balanced before)
    (counted : Counted (countBatch before batch count) after out)
    (short :
      after.shortDatagrams =
        (countBatch before batch count).shortDatagrams +
          UInt64.ofNat (count - out))
    (bounded : out ≤ count) :
    Owing after out := by
  constructor
  case datagrams =>
    have whole :
        UInt64.ofNat count =
          UInt64.ofNat out + UInt64.ofNat (count - out) := by
      rw [← UInt64.ofNat_add, Nat.add_sub_cancel' bounded]
    rw [counted.batchDatagrams, counted.decided, short]
    dsimp only [countBatch]
    rw [balanced.datagrams, whole]
    ac_rfl
  case verdicts =>
    rw [counted.verdicts, counted.decided]
    dsimp only [countBatch]
    rw [balanced.verdicts]
  case reasons =>
    rw [counted.reasons, counted.decided]
    dsimp only [countBatch]
    rw [balanced.reasons]
  case pending =>
    rw [counted.decided, counted.repliesSent, counted.sendFailures]
    dsimp only [countBatch]
    rw [balanced.replies]
  case failures =>
    rw [counted.sendFailures, counted.sendWouldblock, counted.sendNobufs,
      counted.sendErrors]
    exact balanced.failures

/-- Serving and sending a received batch. -/
theorem serveAndSend_spec
    (inRange : ruleSet.InRange) (balanced : Balanced worker.metrics)
    (ended :
      serveAndSend host platform
        (worker.stored pass
          (countBatch worker.metrics worker.io.batch
            (pass.arrived worker).length))
        ruleSet pass (pass.arrived worker).length = some next) :
    PassDone host ruleSet worker pass next := by
  have fits := pass.length_arrived_le worker
  unfold serveAndSend Worker.stored at ended
  generalize shape : pass.arrived worker = arrived at fits ended
  have progress :=
    progress_serveBatch host ruleSet pass.moments (worker.io.store arrived)
      (countBatch worker.metrics worker.io.batch arrived.length) fits
  have counted :=
    counted_serveBatch host inRange pass.moments (worker.io.store arrived)
      (countBatch worker.metrics worker.io.batch arrived.length)
      arrived.length
  dsimp only at ended
  generalize serveBatch host ruleSet pass.moments
    (worker.io.store arrived)
    (countBatch worker.metrics worker.io.batch arrived.length)
    arrived.length = served at progress counted ended
  have staged :
      served.io.sendSlots.take served.out =
        owedReplies host ruleSet pass.moments arrived := by
    rw [progress.staged, progress.answered, map_replyTo_store _ _ _ fits]
  have answered : served.answered.Nodup := by
    rw [progress.answered]
    exact List.nodup_range.filter _
  have bounded := progress.out_le
  have owing : Owing served.metrics served.out :=
    owing_of_served balanced counted progress.shortDatagrams bounded
  by_cases nothing : served.out = 0
  · rw [if_pos nothing] at ended
    cases ended
    rw [nothing] at owing
    exact
      { staged := by rw [shape]; exact staged
        answered := answered
        wire := ⟨0, (List.append_nil _).symm⟩
        balanced := owing.balanced }
  · rw [if_neg nothing, Option.map_eq_some_iff] at ended
    obtain ⟨sent, loopEnded, rfl⟩ := ended
    have stagedLength :
        (served.io.sendSlots.take served.out).length = served.out := by
      rw [List.length_take, served.io.sendFits, progress.batch]
      exact Nat.min_eq_left (bounded.trans fits)
    obtain ⟨delivered, wire⟩ := sendLoop_spec (Nat.zero_le _) rfl loopEnded
    rw [stagedLength] at delivered
    exact
      { staged := by rw [shape]; exact staged
        answered := answered
        wire := ⟨sent.delivered, congrArg (worker.wire ++ ·) wire⟩
        balanced := balanced_countSent owing delivered }

/--
What a pass can do: receive nothing, receive a batch while no rule set is
loaded, or serve a batch.
-/
theorem workerLoop_cases
    (ended : workerLoop host platform worker pass = some next) :
    (pass.arrived worker = [] ∧
        ∃ recvErrors idleSpins blockingWaits,
          next =
            worker.stored pass
              { worker.metrics with
                recvErrors := recvErrors
                idleSpins := idleSpins
                blockingWaits := blockingWaits }) ∨
      (pass.current = none ∧
        next =
          worker.stored pass
            (countBatch worker.metrics worker.io.batch
              (pass.arrived worker).length)) ∨
      ∃ ruleSet, pass.current = some ruleSet ∧
        serveAndSend host platform
          (worker.stored pass
            (countBatch worker.metrics worker.io.batch
              (pass.arrived worker).length))
          ruleSet pass (pass.arrived worker).length = some next := by
  obtain ⟨stored, _, counted⟩ := recvBatch_spec worker.io pass.received
  unfold workerLoop at ended
  generalize worker.io.recvBatch pass.received = outcome at stored counted ended
  obtain ⟨io, received⟩ := outcome
  dsimp only at stored counted ended
  subst stored
  rcases counted with counted | ⟨nothing, failed⟩
  · by_cases nothing : received = 0
    · have noneArrived : pass.received.arrived worker.io.batch = [] :=
        List.length_eq_zero_iff.mp (by omega)
      rw [if_neg (by omega), if_pos nothing] at ended
      cases ended
      exact .inl ⟨noneArrived, _, _, _, rfl⟩
    · rw [if_neg (by omega), if_neg nothing, counted,
        Int.toNat_natCast] at ended
      cases current : pass.current with
      | none =>
        rw [current] at ended
        exact .inr (.inl ⟨rfl, (Option.some.inj ended).symm⟩)
      | some ruleSet =>
        rw [current] at ended
        exact .inr (.inr ⟨ruleSet, rfl, ended⟩)
  · rw [if_pos (by omega)] at ended
    cases ended
    exact .inl ⟨nothing, _, _, _, rfl⟩

/-- One pass with a rule set loaded. -/
theorem workerLoop_spec
    (inRange : ruleSet.InRange) (balanced : Balanced worker.metrics)
    (loaded : pass.current = some ruleSet)
    (ended : workerLoop host platform worker pass = some next) :
    PassDone host ruleSet worker pass next := by
  rcases workerLoop_cases ended with
    ⟨nothing, _, _, _, rfl⟩ | ⟨unloaded, _⟩ | ⟨current, isCurrent, served⟩
  · exact
      { staged := by
          rw [nothing]
          rfl
        answered := List.nodup_nil
        wire := ⟨0, (List.append_nil _).symm⟩
        balanced := { balanced with } }
  · cases loaded.symm.trans unloaded
  · cases loaded.symm.trans isCurrent
    exact serveAndSend_spec inRange balanced served

theorem balanced_start : Balanced {} :=
  { datagrams := by decide
    verdicts := by decide
    reasons := by decide
    replies := by decide
    failures := by decide }

theorem Pass.Loaded.inRange (loaded : pass.Loaded) :
    ∃ ruleSet : RuleSet, pass.current = some ruleSet ∧ ruleSet.InRange := by
  obtain ⟨files, text, version, ruleSet, accepted, current⟩ := loaded
  obtain ⟨root, _, rootAccepted⟩ := compileRules_ruleSet_iff.mp accepted
  exact ⟨ruleSet, current, compileRoot_inRange rootAccepted⟩

theorem balanced_of_run {batch : UInt32} {passes : List Pass}
    (loaded : ∀ pass ∈ passes, pass.Loaded)
    (ran :
      runActions (workerLoop host platform) (Worker.start batch) passes =
        some worker) :
    Balanced worker.metrics := by
  refine invariant_of_run (fun worker => Balanced worker.metrics) ?_ loaded
    balanced_start ran
  intro state next pass passLoaded balanced stepped
  obtain ⟨ruleSet, current, inRange⟩ := passLoaded.inRange
  exact (workerLoop_spec inRange balanced current stepped).balanced

/--
In every run with a rule set loaded, each pass stages one reply for every
datagram reported with the length of a message, in order and to its source, the
kernel takes a front part of them, and the counters balance.
-/
theorem udp_worker_accounts_for_every_datagram
    {host : Endian}
    {platform : BatchIo.Platform}
    {batch : UInt32}
    {passes : List Pass}
    {pass : Pass}
    {worker next : Worker}
    (loaded : ∀ other ∈ passes ++ [pass], other.Loaded)
    (ran :
      runActions (workerLoop host platform) (Worker.start batch) passes =
        some worker)
    (stepped : workerLoop host platform worker pass = some next) :
    (∃ ruleSet,
      pass.current = some ruleSet ∧
        next.staged =
          owedReplies host ruleSet pass.moments (pass.arrived worker)) ∧
      next.answered.Nodup ∧
      (∃ delivered,
        next.wire = worker.wire ++ next.staged.take delivered) ∧
      Balanced next.metrics := by
  rw [List.forall_mem_append, List.forall_mem_singleton] at loaded
  have balanced := balanced_of_run loaded.1 ran
  obtain ⟨ruleSet, current, inRange⟩ := loaded.2.inRange
  have done := workerLoop_spec inRange balanced current stepped
  exact ⟨⟨ruleSet, current, done.staged⟩, done.answered, done.wire,
    done.balanced⟩

/-- A message without the magic between two datagrams of other lengths. -/
def mixedBatch : List Datagram :=
  [{ payload := [1, 2, 3], source := { port := 1 } },
    { payload := List.replicate 64 0, source := { port := 2 } },
    { payload := [], source := { port := 3 } }]

/-- A pass that receives the mixed batch and is interrupted while sending. -/
def mixedPass (ruleSet : RuleSet) : Pass :=
  { received := .mmsg (.ok mixedBatch)
    parks := false
    current := some ruleSet
    moments := fun _ => { lookup := fun _ => none, now := 0, serverTsNs := 0 }
    sends := [.error .eintr, .ok 1] }

/-- One of three datagrams is answered, to its own source. -/
theorem udp_worker_accounts_for_mixed_batch :
    ∃ ruleSet next,
      (mixedPass ruleSet).Loaded ∧
        workerLoop .little .mmsg (Worker.start 4) (mixedPass ruleSet) =
          some next ∧
        next.staged.map Reply.destination = [{ port := 2 }] ∧
        Balanced next.metrics := by
  obtain ⟨ruleSet, _, _, accepted, _⟩ := exists_listedRat
  have ends :
      (workerLoop .little .mmsg (Worker.start 4)
        (mixedPass ruleSet)).isSome = true := rfl
  obtain ⟨next, stepped⟩ := Option.isSome_iff_exists.mp ends
  have loaded : (mixedPass ruleSet).Loaded :=
    ⟨_, _, _, ruleSet, accepted, rfl⟩
  have notRun :
      runActions (workerLoop .little .mmsg) (Worker.start 4) [] =
        some (Worker.start 4) := rfl
  obtain ⟨⟨_, current, staged⟩, _, _, balanced⟩ :=
    udp_worker_accounts_for_every_datagram (by simpa using loaded) notRun
      stepped
  cases current
  exact ⟨ruleSet, next, loaded, stepped, by rw [staged]; rfl, balanced⟩

theorem Balanced.add {s w : WorkerMetrics} (sum : Balanced s)
    (block : Balanced w) : Balanced (s.add w) where
  datagrams := by
    simp only [WorkerMetrics.add, sum.datagrams, block.datagrams]
    ac_rfl
  verdicts := by
    simp only [WorkerMetrics.add, Tally.total_add, sum.verdicts,
      block.verdicts]
    ac_rfl
  reasons := by
    simp only [WorkerMetrics.add, Tally.total_add, sum.reasons, block.reasons]
    ac_rfl
  replies := by
    have both := congrArg₂ (· + ·) sum.replies block.replies
    dsimp only [WorkerMetrics.add] at both ⊢
    calc
      _ = s.requests + s.badMagic + (w.requests + w.badMagic) := by ac_rfl
      _ = _ := by rw [both]; ac_rfl
  failures := by
    simp only [WorkerMetrics.add, sum.failures, block.failures]
    ac_rfl

/-- The worker has run some passes, each with a rule set loaded. -/
def Ran (host : Endian) (platform : BatchIo.Platform) (worker : Worker) :
    Prop :=
  ∃ batch passes,
    (∀ pass ∈ passes, pass.Loaded) ∧
      runActions (workerLoop host platform) (Worker.start batch) passes =
        some worker

/-- Between passes, the snapshot over all workers balances as each does. -/
theorem snapshot_balanced {host : Endian} {platform : BatchIo.Platform}
    {workers : List Worker}
    (ran : ∀ worker ∈ workers, Ran host platform worker) :
    Balanced (WorkerMetrics.snapshot (workers.map Worker.metrics)) := by
  unfold WorkerMetrics.snapshot
  generalize sumIs : ({} : WorkerMetrics) = sum
  have balanced : Balanced sum := sumIs ▸ balanced_start
  clear sumIs
  induction workers generalizing sum with
  | nil => exact balanced
  | cons worker later inductionHypothesis =>
    rw [List.forall_mem_cons] at ran
    obtain ⟨⟨batch, passes, loaded, ended⟩, others⟩ := ran
    exact inductionHypothesis others _
      (balanced.add (balanced_of_run loaded ended))

/-- One worker served a mixed batch, the other none. -/
theorem snapshot_balanced_mixed_batch :
    ∃ worker : Worker,
      worker.metrics.badMagic = 1 ∧
        Balanced
          (WorkerMetrics.snapshot
            [worker.metrics, (Worker.start 1).metrics]) := by
  obtain ⟨ruleSet, _, _, accepted, _⟩ := exists_listedRat
  have ends :
      ((runActions (workerLoop .little .mmsg) (Worker.start 4)
        [mixedPass ruleSet]).map (·.metrics.badMagic)) = some 1 := rfl
  obtain ⟨worker, ran, counted⟩ := Option.map_eq_some_iff.mp ends
  have loaded : (mixedPass ruleSet).Loaded :=
    ⟨_, _, _, ruleSet, accepted, rfl⟩
  have both :
      ∀ other ∈ [worker, Worker.start 1], Ran .little .mmsg other := by
    rw [List.forall_mem_cons, List.forall_mem_singleton]
    exact ⟨⟨4, _, by simpa using loaded, ran⟩, 1, [], by simp, rfl⟩
  exact ⟨worker, counted, snapshot_balanced both⟩

end Policyd.Udp
