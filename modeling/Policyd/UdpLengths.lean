import Policyd.UdpAccounting

namespace Policyd.Udp

open ByteOrder

/-!
# Datagrams of other lengths

The worker drops every datagram whose reported length is not that of a message.
A receive slot is exactly as long as a message, so the kernel reports a longer
datagram with the length of a message, and the worker answers it.
-/

/-- Sending does not change the count of dropped datagrams. -/
theorem shortDatagrams_countSent
    (m : WorkerMetrics) (out : Nat) (sent : BatchIo.Sent) :
    (countSent m out sent).shortDatagrams = m.shortDatagrams := by
  unfold countSent
  generalize (if sent.result < 0 then 0 else sent.result.toNat) = delivered
  dsimp only
  split
  · obtain ⟨_, _, _, changed, _⟩ :=
      countDropped_spec
        { m with repliesSent := m.repliesSent + UInt64.ofNat delivered }
        sent.errno (out - delivered)
    rw [changed]
  · rfl

/-- The datagrams of a pass that are reported as messages. -/
def Pass.reportedAsMessages (pass : Pass) (worker : Worker) : List Nat :=
  ((pass.arrived worker).zipIdx.filter fun entry =>
    entry.1.reported = kWireMsgSize).map Prod.snd

variable {worker next : Worker} {pass : Pass}

/-- Serving a batch answers what is reported as a message and counts the rest. -/
theorem serveAndSend_answered
    {host : Endian} {platform : BatchIo.Platform} {ruleSet : RuleSet}
    (ended :
      serveAndSend host platform
        (worker.stored pass
          (countBatch worker.metrics worker.io.batch
            (pass.arrived worker).length))
        ruleSet pass (pass.arrived worker).length = some next) :
    next.answered = pass.reportedAsMessages worker ∧
      next.metrics.shortDatagrams =
        worker.metrics.shortDatagrams +
          UInt64.ofNat
            ((pass.arrived worker).length - next.answered.length) := by
  have fits := pass.length_arrived_le worker
  have progress :=
    progress_serveBatch host ruleSet pass.moments
      (worker.io.store (pass.arrived worker))
      (countBatch worker.metrics worker.io.batch
        (pass.arrived worker).length) fits
  have reported :
      (List.range (pass.arrived worker).length).filter (fun index =>
          decide
            ((worker.io.store (pass.arrived worker)).payloadLen index =
              kWireMsgSize)) =
        pass.reportedAsMessages worker := by
    rw [List.range_eq_range', ← List.zipIdx_map_snd 0, List.filter_map]
    refine congrArg (List.map Prod.snd) (List.filter_congr ?_)
    intro entry member
    have arrived := List.mem_zipIdx_iff_getElem?.mp member
    rw [Function.comp_apply, payloadLen_store fits arrived]
  rw [← reported]
  unfold serveAndSend Worker.stored at ended
  dsimp only at ended
  generalize serveBatch host ruleSet pass.moments
    (worker.io.store (pass.arrived worker))
    (countBatch worker.metrics worker.io.batch (pass.arrived worker).length)
    (pass.arrived worker).length = served at progress ended
  have short := progress.shortDatagrams
  rw [progress.out] at short
  by_cases nothing : served.out = 0
  · rw [if_pos nothing] at ended
    cases ended
    exact ⟨progress.answered, short⟩
  · rw [if_neg nothing, Option.map_eq_some_iff] at ended
    obtain ⟨sent, _, rfl⟩ := ended
    exact ⟨progress.answered, (shortDatagrams_countSent _ _ _).trans short⟩

/-- What a pass answers and how many datagrams it counts as dropped. -/
theorem workerLoop_answered {host : Endian} {platform : BatchIo.Platform}
    (ended : workerLoop host platform worker pass = some next) :
    (pass.current = none ∧ next.answered = [] ∧
        next.metrics.shortDatagrams = worker.metrics.shortDatagrams) ∨
      (pass.current.isSome ∧
        next.answered = pass.reportedAsMessages worker ∧
        next.metrics.shortDatagrams =
          worker.metrics.shortDatagrams +
            UInt64.ofNat
              ((pass.arrived worker).length - next.answered.length)) := by
  rcases workerLoop_cases ended with
    ⟨nothing, _, _, _, rfl⟩ | ⟨unloaded, rfl⟩ | ⟨ruleSet, loaded, served⟩
  · cases current : pass.current with
    | none => exact .inl ⟨rfl, rfl, rfl⟩
    | some ruleSet =>
      refine .inr ⟨rfl, ?_, ?_⟩
      · simp [Pass.reportedAsMessages, nothing, Worker.stored]
      · simp [nothing, Worker.stored]
  · exact .inl ⟨unloaded, rfl, rfl⟩
  · refine .inr ⟨?_, serveAndSend_answered served⟩
    rw [loaded]
    rfl

/--
A pass treats exactly the messages of its batch as messages: it answers no
datagram of another length, and it counts every such datagram.
-/
def OnlyMessagesAnswered
    (worker : Worker) (pass : Pass)
    (next : Worker) : Prop :=
  (∀ index ∈ next.answered, ∀ datagram,
      (pass.arrived worker)[index]? = some datagram →
        datagram.payload.length = kWireMsgSize) ∧
    next.metrics.shortDatagrams =
      worker.metrics.shortDatagrams +
        UInt64.ofNat
          ((pass.arrived worker).countP fun datagram =>
            decide (datagram.payload.length ≠ kWireMsgSize))

theorem Datagram.reported_eq_iff (datagram : Datagram) :
    datagram.reported = kWireMsgSize ↔ kWireMsgSize ≤ datagram.payload.length :=
  min_eq_right_iff

theorem Pass.mem_reportedAsMessages
    (pass : Pass) (worker : Worker) (index : Nat) :
    index ∈ pass.reportedAsMessages worker ↔
      ∃ datagram, (pass.arrived worker)[index]? = some datagram ∧
        kWireMsgSize ≤ datagram.payload.length := by
  simp only [reportedAsMessages, List.mem_map, List.mem_filter,
    List.mem_zipIdx_iff_getElem?, decide_eq_true_iff,
    Datagram.reported_eq_iff, Prod.exists, exists_eq_right]

theorem Pass.length_reportedAsMessages (pass : Pass) (worker : Worker) :
    (pass.reportedAsMessages worker).length =
      (pass.arrived worker).countP fun datagram =>
        decide (kWireMsgSize ≤ datagram.payload.length) := by
  have elements :
      (pass.arrived worker).zipIdx.map Prod.fst = pass.arrived worker :=
    List.zipIdx_map_fst 0 _
  rw [reportedAsMessages, List.length_map, ← List.countP_eq_length_filter]
  nth_rewrite 2 [← elements]
  rw [List.countP_map]
  refine List.countP_congr ?_
  intro entry _
  simp [Datagram.reported_eq_iff]

private theorem eq_zero_of_ofNat_eq_zero
    {count : Nat} (small : count < 2 ^ 64) (vanishes : UInt64.ofNat count = 0) :
    count = 0 := by
  have value := UInt64.toNat_ofNat_of_lt' small
  rw [vanishes] at value
  exact value.symm

/-- Without a rule set the counter is right when only messages arrive. -/
theorem onlyMessagesAnswered_unloaded_iff (answered : next.answered = [])
    (short : next.metrics.shortDatagrams = worker.metrics.shortDatagrams) :
    OnlyMessagesAnswered worker pass next ↔
      ∀ datagram ∈ pass.arrived worker,
        datagram.payload.length = kWireMsgSize := by
  unfold OnlyMessagesAnswered
  rw [answered, short]
  constructor
  · rintro ⟨_, unchanged⟩
    have bounded :
        (pass.arrived worker).countP (fun datagram =>
          decide (datagram.payload.length ≠ kWireMsgSize)) < 2 ^ 64 :=
      (List.countP_le_length.trans
        (pass.length_arrived_le worker)).trans_lt
          (worker.io.batchFits.trans (by decide))
    have none :=
      eq_zero_of_ofNat_eq_zero bounded (by simpa using unchanged.symm)
    simpa [List.countP_eq_zero] using none
  · intro messages
    have none :
        (pass.arrived worker).countP (fun datagram =>
          decide (datagram.payload.length ≠ kWireMsgSize)) = 0 := by
      simpa [List.countP_eq_zero] using messages
    refine ⟨fun index member => ?_, ?_⟩
    · cases member
    · rw [none]
      exact (UInt64.add_zero _).symm

theorem Pass.length_sub_reportedAsMessages
    (bounded : ∀ datagram ∈ pass.arrived worker,
      datagram.payload.length ≤ kWireMsgSize) :
    (pass.arrived worker).length - (pass.reportedAsMessages worker).length =
      (pass.arrived worker).countP fun datagram =>
        decide (datagram.payload.length ≠ kWireMsgSize) := by
  have sameCount :
      (pass.arrived worker).countP (fun datagram =>
          decide (kWireMsgSize ≤ datagram.payload.length)) =
        (pass.arrived worker).countP fun datagram =>
          decide (datagram.payload.length = kWireMsgSize) := by
    refine List.countP_congr ?_
    intro datagram member
    have atMost := bounded datagram member
    simp only [decide_eq_true_iff]
    omega
  have whole :
      (pass.arrived worker).length =
        (pass.arrived worker).countP (fun datagram =>
            decide (datagram.payload.length = kWireMsgSize)) +
          (pass.arrived worker).countP fun datagram =>
            decide (datagram.payload.length ≠ kWireMsgSize) := by
    simpa using
      List.length_eq_countP_add_countP
        (fun datagram : Datagram =>
          decide (datagram.payload.length = kWireMsgSize))
  rw [pass.length_reportedAsMessages, sameCount]
  nth_rewrite 1 [whole]
  rw [Nat.add_sub_cancel_left]

/-- With a rule set, a pass is right when nothing longer arrives. -/
theorem onlyMessagesAnswered_loaded_iff
    (answered : next.answered = pass.reportedAsMessages worker)
    (short :
      next.metrics.shortDatagrams =
        worker.metrics.shortDatagrams +
          UInt64.ofNat ((pass.arrived worker).length - next.answered.length)) :
    OnlyMessagesAnswered worker pass next ↔
      ∀ datagram ∈ pass.arrived worker,
        datagram.payload.length ≤ kWireMsgSize := by
  unfold OnlyMessagesAnswered
  rw [short, answered]
  constructor
  · rintro ⟨onlyMessages, _⟩ datagram member
    by_contra longer
    obtain ⟨index, found⟩ := List.mem_iff_getElem?.mp member
    have long : kWireMsgSize ≤ datagram.payload.length := by
      omega
    have isMessage :=
      onlyMessages index
        ((pass.mem_reportedAsMessages worker index).mpr ⟨datagram, found, long⟩)
        datagram found
    omega
  · intro bounded
    refine ⟨?_, by rw [Pass.length_sub_reportedAsMessages bounded]⟩
    intro index member datagram found
    obtain ⟨other, otherFound, long⟩ :=
      (pass.mem_reportedAsMessages worker index).mp member
    cases found.symm.trans otherFound
    exact le_antisymm (bounded datagram (List.mem_of_getElem? found)) long

/--
A pass answers exactly the messages of its batch, and counts exactly the
others, when no datagram is longer than a message and, as long as no rule set is
loaded, none is of another length at all.
-/
theorem only_messages_answered_iff
    {host : Endian}
    {platform : BatchIo.Platform}
    {worker next : Worker}
    {pass : Pass}
    (ended : workerLoop host platform worker pass = some next) :
    OnlyMessagesAnswered worker pass next ↔
      (∀ datagram ∈ pass.arrived worker,
          datagram.payload.length ≤ kWireMsgSize) ∧
        (pass.current = none →
          ∀ datagram ∈ pass.arrived worker,
            datagram.payload.length = kWireMsgSize) := by
  rcases workerLoop_answered ended with
    ⟨unloaded, answered, short⟩ | ⟨loaded, answered, short⟩
  · -- Without a rule set nothing is answered and nothing is counted.
    rw [onlyMessagesAnswered_unloaded_iff answered short]
    constructor
    · intro messages
      exact ⟨fun datagram member => (messages datagram member).le,
        fun _ => messages⟩
    · rintro ⟨_, messages⟩
      exact messages unloaded
  · have isLoaded : pass.current ≠ none := by
      intro unloaded
      rw [unloaded] at loaded
      cases loaded
    rw [onlyMessagesAnswered_loaded_iff answered short]
    constructor
    · intro bounded
      exact ⟨bounded, fun unloaded => (isLoaded unloaded).elim⟩
    · rintro ⟨bounded, _⟩
      exact bounded

/-- Among datagrams of at most a message only the message is answered. -/
theorem only_messages_answered_mixed_batch :
    ∃ next,
      workerLoop .little .mmsg (Worker.start 4) (mixedPass {}) = some next ∧
        OnlyMessagesAnswered (Worker.start 4) (mixedPass {}) next := by
  have ends :
      (workerLoop .little .mmsg (Worker.start 4)
        (mixedPass {})).isSome = true := rfl
  obtain ⟨next, stepped⟩ := Option.isSome_iff_exists.mp ends
  have arrived :
      (mixedPass {}).arrived (Worker.start 4) = mixedBatch := rfl
  refine ⟨next, stepped, (only_messages_answered_iff stepped).mpr ⟨?_, ?_⟩⟩
  · rw [arrived]
    decide
  · intro unloaded
    cases unloaded

/-- A request with one byte behind it. -/
def overlongDatagram : Datagram :=
  { payload :=
      encode .little ({ magicVersion := kMagicVersion } : PolicyRequest) ++
        [0]
    source := { port := 1 } }

/-- A pass that receives the overlong datagram. -/
def overlongPass (ruleSet : RuleSet) : Pass :=
  { received := .mmsg (.ok [overlongDatagram])
    parks := false
    current := some ruleSet
    moments := fun _ => { lookup := fun _ => none, now := 0, serverTsNs := 0 }
    sends := [.ok 1] }

/-- A datagram of 65 bytes is answered, and not counted as dropped. -/
theorem overlong_datagram_answered :
    overlongDatagram.payload.length = 65 ∧
      ∃ ruleSet next,
        (overlongPass ruleSet).Loaded ∧
          workerLoop .little .mmsg (Worker.start 1)
              (overlongPass ruleSet) = some next ∧
          next.answered = [0] ∧ next.metrics.shortDatagrams = 0 ∧
          ¬ OnlyMessagesAnswered (Worker.start 1) (overlongPass ruleSet)
              next := by
  have length : overlongDatagram.payload.length = 65 := by
    decide +kernel
  obtain ⟨ruleSet, _, _, accepted, _⟩ := exists_listedRat
  have ends :
      (workerLoop .little .mmsg (Worker.start 1)
        (overlongPass ruleSet)).isSome = true := rfl
  obtain ⟨next, stepped⟩ := Option.isSome_iff_exists.mp ends
  have answered :
      next.answered = [0] ∧ next.metrics.shortDatagrams = 0 := by
    rcases workerLoop_answered stepped with ⟨unloaded, _⟩ | ⟨_, answered, short⟩
    · cases unloaded
    · have onlyOne :
          (overlongPass ruleSet).reportedAsMessages (Worker.start 1) =
            [0] := by
        rfl
      rw [onlyOne] at answered
      rw [answered] at short
      exact ⟨answered, short⟩
  refine ⟨length, ruleSet, next, ⟨_, _, _, ruleSet, accepted, rfl⟩, stepped,
    answered.1, answered.2, ?_⟩
  rintro ⟨onlyMessages, _⟩
  have isMessage :=
    onlyMessages 0 (by rw [answered.1]; exact List.mem_singleton_self 0)
      overlongDatagram rfl
  rw [length] at isMessage
  cases isMessage

end Policyd.Udp
