import Policyd.DecisionRanges
import Policyd.WireFormat

namespace Policyd

open ByteOrder

/-!
# Deciding a datagram

What every ingest worker does with a payload of the right length, and the
counters it keeps.  A payload with an unknown magic is answered as malformed;
any other one is looked up and evaluated.  The histogram of service times is
not part of the counters here.
-/

/-- Counters of fixed number, one for each code of an enumeration. -/
def Tally (size : Nat) : Type :=
  { counts : List UInt64 // counts.length = size }

namespace Tally

variable {size : Nat}

/-- No counts. -/
def zero (size : Nat) : Tally size :=
  ⟨List.replicate size 0, List.length_replicate⟩

/-- Count one code. -/
def bump (tally : Tally size) (code : Nat) : Tally size :=
  ⟨tally.1.modify code (· + 1), by
    rw [List.length_modify]
    exact tally.2⟩

/-- The sum of all counts. -/
def total (tally : Tally size) : UInt64 :=
  tally.1.sum

/-- Counting a code raises the sum by one. -/
theorem total_bump (tally : Tally size) {code : Nat} (known : code < size) :
    (tally.bump code).total = tally.total + 1 := by
  obtain ⟨counts, rfl⟩ := tally
  unfold total bump
  dsimp only
  induction counts generalizing code with
  | nil => cases known
  | cons count later inductionHypothesis =>
    cases code with
    | zero =>
      rw [List.modify_zero_cons, List.sum_cons, List.sum_cons]
      ac_rfl
    | succ code =>
      rw [List.modify_succ_cons, List.sum_cons, List.sum_cons,
        inductionHypothesis (Nat.lt_of_succ_lt_succ known)]
      ac_rfl

/-- Add the counts of each code. -/
def add (tally other : Tally size) : Tally size :=
  ⟨tally.1.zipWith (· + ·) other.1, by
    rw [List.length_zipWith, tally.2, other.2, Nat.min_self]⟩

theorem total_add (tally other : Tally size) :
    (tally.add other).total = tally.total + other.total := by
  obtain ⟨counts, rfl⟩ := tally
  obtain ⟨others, sameLength⟩ := other
  unfold total add
  dsimp only
  induction counts generalizing others with
  | nil =>
    cases List.eq_nil_of_length_eq_zero sameLength
    rfl
  | cons count later inductionHypothesis =>
    obtain ⟨other, others, rfl⟩ :=
      List.exists_cons_of_length_eq_add_one sameLength
    rw [List.zipWith_cons_cons, List.sum_cons, List.sum_cons, List.sum_cons,
      inductionHypothesis others (Nat.succ.inj sameLength)]
    ac_rfl

end Tally

/-- The counters of a worker. -/
structure WorkerMetrics where
  requests : UInt64 := 0
  repliesSent : UInt64 := 0
  shortDatagrams : UInt64 := 0
  badMagic : UInt64 := 0
  unknownSubscriber : UInt64 := 0
  sendFailures : UInt64 := 0
  sendWouldblock : UInt64 := 0
  sendNobufs : UInt64 := 0
  sendErrors : UInt64 := 0
  recvErrors : UInt64 := 0
  batches : UInt64 := 0
  batchDatagrams : UInt64 := 0
  fullBatches : UInt64 := 0
  idleSpins : UInt64 := 0
  blockingWaits : UInt64 := 0
  verdicts : Tally 3 := .zero 3
  reasons : Tally Reason.kCount := .zero Reason.kCount

namespace WorkerMetrics

/-- Count the verdict and the reason of a decision. -/
def note (m : WorkerMetrics) (d : PolicyDecision) : WorkerMetrics :=
  { m with
    verdicts :=
      if d.verdict < 3 then m.verdicts.bump d.verdict.toNat else m.verdicts
    reasons :=
      if d.reason.toNat < Reason.kCount then
        m.reasons.bump d.reason.toNat
      else
        m.reasons }

/-- Add the counters of a block to a snapshot. -/
def add (s w : WorkerMetrics) : WorkerMetrics where
  requests := s.requests + w.requests
  repliesSent := s.repliesSent + w.repliesSent
  shortDatagrams := s.shortDatagrams + w.shortDatagrams
  badMagic := s.badMagic + w.badMagic
  unknownSubscriber := s.unknownSubscriber + w.unknownSubscriber
  sendFailures := s.sendFailures + w.sendFailures
  sendWouldblock := s.sendWouldblock + w.sendWouldblock
  sendNobufs := s.sendNobufs + w.sendNobufs
  sendErrors := s.sendErrors + w.sendErrors
  recvErrors := s.recvErrors + w.recvErrors
  batches := s.batches + w.batches
  batchDatagrams := s.batchDatagrams + w.batchDatagrams
  fullBatches := s.fullBatches + w.fullBatches
  idleSpins := s.idleSpins + w.idleSpins
  blockingWaits := s.blockingWaits + w.blockingWaits
  verdicts := s.verdicts.add w.verdicts
  reasons := s.reasons.add w.reasons

/-- `MetricsRegistry::snapshot`: the sum of every block. -/
def snapshot (blocks : List WorkerMetrics) : WorkerMetrics :=
  blocks.foldl add {}

/-- A well-formed decision is counted under one verdict and one reason. -/
theorem total_note {ruleSet : RuleSet} {d : PolicyDecision}
    (wellFormed : d.WellFormed ruleSet) (m : WorkerMetrics) :
    (m.note d).verdicts.total = m.verdicts.total + 1 ∧
      (m.note d).reasons.total = m.reasons.total + 1 := by
  have verdictKnown : d.verdict < 3 := by
    have bound := wellFormed.verdict
    rw [UInt8.le_iff_toNat_le] at bound
    rw [UInt8.lt_iff_toNat_lt]
    exact Nat.lt_succ_of_le bound
  unfold note
  rw [if_pos verdictKnown, if_pos wellFormed.reason]
  exact ⟨Tally.total_bump _ (UInt8.lt_iff_toNat_lt.mp verdictKnown),
    Tally.total_bump _ wellFormed.reason⟩

end WorkerMetrics

/-- The address of a peer. -/
structure SockAddr where
  ip : UInt32 := 0
  port : UInt16 := 0
  deriving Repr, DecidableEq

/-- What a decision depends on besides the rule set and the payload. -/
structure Moment where
  lookup : UInt64 → Option SubscriberRecord
  now : UInt64
  serverTsNs : UInt64

/-- Decide a payload of the right length and count what it was. -/
def decideDatagram
    (host : Endian) (ruleSet : RuleSet) (moment : Moment)
    (payload : List UInt8) (m : WorkerMetrics) :
    PolicyDecision × WorkerMetrics :=
  match (decode host payload : Option PolicyRequest) with
  | none =>
    -- The fields are taken from the raw bytes, without the swap.
    let request : PolicyRequest := ofImage host payload
    let decision :=
      malformedDecision request.seq request.clientTsNs ruleSet.version
    ({ decision with serverTsNs := moment.serverTsNs },
      { m with badMagic := m.badMagic + 1 })
  | some request =>
    let record := moment.lookup request.imsi
    let decision := evaluate ruleSet request record moment.now
    ({ decision with serverTsNs := moment.serverTsNs },
      { m with
        unknownSubscriber :=
          if record.isNone then
            m.unknownSubscriber + 1
          else
            m.unknownSubscriber
        requests := m.requests + 1 })

/-- The decision for a payload. -/
def decisionOn
    (host : Endian) (ruleSet : RuleSet) (moment : Moment)
    (payload : List UInt8) : PolicyDecision :=
  (decideDatagram host ruleSet moment payload {}).1

theorem decideDatagram_fst (host : Endian) (ruleSet : RuleSet) (moment : Moment)
    (payload : List UInt8) (m : WorkerMetrics) :
    (decideDatagram host ruleSet moment payload m).1 =
      decisionOn host ruleSet moment payload := by
  unfold decisionOn decideDatagram
  cases (decode host payload : Option PolicyRequest) <;> rfl

theorem PolicyDecision.WellFormed.stamped
    {ruleSet : RuleSet} {decision : PolicyDecision}
    (wellFormed : decision.WellFormed ruleSet) (serverTsNs : UInt64) :
    { decision with serverTsNs := serverTsNs }.WellFormed ruleSet :=
  { wellFormed with }

theorem decisionOn_wellFormed (host : Endian) {ruleSet : RuleSet}
    (inRange : ruleSet.InRange) (moment : Moment) (payload : List UInt8) :
    (decisionOn host ruleSet moment payload).WellFormed ruleSet := by
  unfold decisionOn decideDatagram
  cases (decode host payload : Option PolicyRequest) with
  | none => exact (malformedDecision_wellFormed ruleSet _ _ _).stamped _
  | some request =>
    exact (evaluate_wellFormed inRange request _ _).stamped _

/-- What deciding one payload adds to the counters, and what it leaves. -/
structure WorkerMetrics.Decided (before after : WorkerMetrics) : Prop where
  decided :
    after.requests + after.badMagic =
      before.requests + before.badMagic + 1
  shortDatagrams : after.shortDatagrams = before.shortDatagrams
  batchDatagrams : after.batchDatagrams = before.batchDatagrams
  repliesSent : after.repliesSent = before.repliesSent
  sendFailures : after.sendFailures = before.sendFailures
  sendWouldblock : after.sendWouldblock = before.sendWouldblock
  sendNobufs : after.sendNobufs = before.sendNobufs
  sendErrors : after.sendErrors = before.sendErrors

/-- Deciding a payload counts it once. -/
theorem decided_decideDatagram
    (host : Endian) (ruleSet : RuleSet) (moment : Moment)
    (payload : List UInt8) (m : WorkerMetrics) :
    m.Decided (decideDatagram host ruleSet moment payload m).2 := by
  unfold decideDatagram
  cases (decode host payload : Option PolicyRequest) with
  | none =>
    refine ⟨?_, rfl, rfl, rfl, rfl, rfl, rfl, rfl⟩
    show m.requests + (m.badMagic + 1) = m.requests + m.badMagic + 1
    ac_rfl
  | some request =>
    refine ⟨?_, rfl, rfl, rfl, rfl, rfl, rfl, rfl⟩
    show m.requests + 1 + m.badMagic = m.requests + m.badMagic + 1
    ac_rfl

theorem WorkerMetrics.Decided.note {before after : WorkerMetrics}
    (decided : before.Decided after) (decision : PolicyDecision) :
    before.Decided (after.note decision) :=
  { decided with }

/-- A decided payload that was counted under a verdict and a reason. -/
structure WorkerMetrics.Served (before after : WorkerMetrics) : Prop
    extends before.Decided after where
  verdicts : after.verdicts.total = before.verdicts.total + 1
  reasons : after.reasons.total = before.reasons.total + 1

/-- With a rule set in range, a payload is counted under its verdict. -/
theorem served_note_decideDatagram (host : Endian) {ruleSet : RuleSet}
    (inRange : ruleSet.InRange) (moment : Moment) (payload : List UInt8)
    (m : WorkerMetrics) :
    m.Served
      ((decideDatagram host ruleSet moment payload m).2.note
        (decideDatagram host ruleSet moment payload m).1) := by
  have wellFormed := decisionOn_wellFormed host inRange moment payload
  rw [← decideDatagram_fst host ruleSet moment payload m] at wellFormed
  have noted :=
    WorkerMetrics.total_note wellFormed
      (decideDatagram host ruleSet moment payload m).2
  have sameTallies :
      (decideDatagram host ruleSet moment payload m).2.verdicts =
          m.verdicts ∧
        (decideDatagram host ruleSet moment payload m).2.reasons =
          m.reasons := by
    unfold decideDatagram
    cases (decode host payload : Option PolicyRequest) <;> exact ⟨rfl, rfl⟩
  rw [sameTallies.1, sameTallies.2] at noted
  exact
    { (decided_decideDatagram host ruleSet moment payload m).note _ with
      verdicts := noted.1
      reasons := noted.2 }

end Policyd
