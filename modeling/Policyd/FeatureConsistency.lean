import Policyd.RuleScan

namespace Policyd

open MaskedWords

/-!
# The structure of the feature word

The compiler expands a list of access types into one alternative each and turns
a negated list into several clear bits.  Both rest on what the word of a
request can look like: which of its bits exclude each other, which imply each
other and which stay clear.
-/

/-- The bits that describe the subscriber rather than the request. -/
def SubscriberPlace (place : Nat) : Prop :=
  (Feat.kStatusActive ≤ place ∧ place ≤ Feat.kStatusUnknown) ∨
    (Feat.kHomePlmn ≤ place ∧ place ≤ Feat.kRoamingAllowed) ∨
    place = Feat.kTetheringAllowed ∨
    place = Feat.kQuotaExhausted ∨
    place = Feat.kPeriodExpired ∨
    (Feat.kUsageThresholdBase ≤ place ∧
      place < Feat.kUsageThresholdBase + kMaxUsageThresholds)

/-- How the bits of a feature word depend on each other. -/
structure FeatureWord.Consistent
    (word : FeatureWord)
    (ruleSet : RuleSet)
    (record : Option SubscriberRecord) : Prop where
  oneStatus :
    ∃ place,
      (Feat.kStatusActive ≤ place ∧ place ≤ Feat.kStatusUnknown) ∧
        ∀ other,
          Feat.kStatusActive ≤ other → other ≤ Feat.kStatusUnknown →
            (word.getLsbD other = true ↔ other = place)
  oneRat :
    ∀ place other,
      place < Feat.kRatBase + Feat.kRatBits →
      other < Feat.kRatBase + Feat.kRatBits →
      word.getLsbD place = true →
      word.getLsbD other = true →
      place = other
  oneDnn :
    ∀ place other,
      (Feat.kDnnBase ≤ place ∧ place < Feat.kDnnBase + Feat.kDnnBits) →
      (Feat.kDnnBase ≤ other ∧ other < Feat.kDnnBase + Feat.kDnnBits) →
      word.getLsbD place = true →
      word.getLsbD other = true →
      place = other
  homeOrRoaming :
    word.getLsbD Feat.kHomePlmn = true ↔
      ¬ word.getLsbD Feat.kRoaming = true
  partner :
    word.getLsbD Feat.kRoamingPartner = true →
      word.getLsbD Feat.kRoaming = true
  blocked :
    word.getLsbD Feat.kImeiBlocked = true →
      word.getLsbD Feat.kImeiKnown = true
  windows :
    ∀ place,
      Feat.kTimeWindowBase + ruleSet.timeWindows.length ≤ place →
      place < Feat.kUsageThresholdBase →
      word.getLsbD place = false
  thresholds :
    ∀ place,
      Feat.kUsageThresholdBase + ruleSet.usageThresholdsPermille.length ≤
        place →
      word.getLsbD place = false
  reserved :
    ∀ place,
      Feat.kUsageThresholdBase + kMaxUsageThresholds ≤ place →
      word.getLsbD place = false
  unknown :
    record = none →
      ∀ place,
        SubscriberPlace place →
        (word.getLsbD place = true ↔
          place = Feat.kStatusUnknown ∨ place = Feat.kRoaming)

section Word

variable {ruleSet : RuleSet} {request : PolicyRequest}
variable {record : Option SubscriberRecord} {now : UInt64}

/-- Where a set bit of a feature word can be. -/
theorem getLsbD_buildFeatures_cases (fits : ruleSet.toPredicateTables.Within)
    {place : Nat}
    (isSet : (buildFeatures ruleSet request record now).getLsbD place = true) :
    (place < 8 ∧ place = request.ratType.toNat) ∨
      (8 ≤ place ∧ place < 24 ∧ place = 8 + request.dnnId.toNat) ∨
      place = statusPosition (statusOf record) ∨
      (28 ≤ place ∧ place < 40) ∨
      (40 ≤ place ∧ place < 48 ∧ place < 40 + ruleSet.timeWindows.length) ∨
      (48 ≤ place ∧ place < 56 ∧
        place < 48 + ruleSet.usageThresholdsPermille.length ∧
        record ≠ none) := by
  have inside : place < 64 := BitVec.lt_of_getLsbD isSet
  rw [buildFeatures, getLsbD_assemble inside, decide_eq_true_iff] at isSet
  have grouped :
      (place, true) ∈
          Situation.featureBits ⟨ruleSet, request, record, now⟩ ↔ _ :=
    Situation.mem_featureBits place
  rcases grouped.mp isSet with access | device | window | subscriber
  · rw [mem_accessBits] at access
    simp only [Feat.kRatBase, Feat.kRatBits, Feat.kDnnBase,
      Feat.kDnnBits] at access
    omega
  · have := mem_deviceBits_range device
    omega
  · have range := mem_windowBits_range fits.1 window
    obtain ⟨index, _, entry, placed, _⟩ :=
      (mem_indexedBits Feat.kTimeWindowBase
        (fun window : TimeWindow => window.contains (minuteOfDay request))
        ruleSet.timeWindows place).mp window
    have listed := (List.getElem?_eq_some_iff.mp entry).1
    simp only [Feat.kTimeWindowBase] at placed
    omega
  · rcases mem_subscriberBits_cases subscriber with
      isStatus | fixed | ⟨known, isKnown, threshold⟩
    · exact .inr (.inr (.inl isStatus))
    · omega
    · obtain ⟨index, _, entry, placed, _⟩ :=
        (mem_indexedBits Feat.kUsageThresholdBase
          (usageAtLeastPermille (effectiveUsage request known).toNat
            (quotaOf ruleSet known).toNat)
          ruleSet.usageThresholdsPermille place).mp threshold
      have listed := (List.getElem?_eq_some_iff.mp entry).1
      have capacity := fits.2
      have present : record ≠ none :=
        fun absent => Option.some_ne_none known (isKnown.symm.trans absent)
      simp only [Feat.kUsageThresholdBase, kMaxUsageThresholds] at placed capacity
      refine .inr (.inr (.inr (.inr (.inr ⟨?_, ?_, ?_, present⟩)))) <;> omega

/-- The bit of the subscriber's state is set. -/
theorem getLsbD_status (ruleSet : RuleSet) (request : PolicyRequest)
    (record : Option SubscriberRecord) (now : UInt64) :
    (buildFeatures ruleSet request record now).getLsbD
      (statusPosition (statusOf record)) = true := by
  have range := statusPosition_range (statusOf record)
  have grouped :
      (statusPosition (statusOf record), true) ∈
          Situation.featureBits ⟨ruleSet, request, record, now⟩ ↔ _ :=
    Situation.mem_featureBits _
  rw [buildFeatures, getLsbD_assemble (by omega), decide_eq_true_iff]
  exact grouped.mpr
    (.inr (.inr (.inr (status_mem_subscriberBits ruleSet request record now))))

/-- The fixed bits that depend on each other. -/
private theorem getLsbD_dependent (ruleSet : RuleSet) (request : PolicyRequest)
    (record : Option SubscriberRecord) (now : UInt64) :
    ((buildFeatures ruleSet request record now).getLsbD
          Feat.kHomePlmn = true ↔
        ∃ known, record = some known ∧ request.plmn = known.homePlmn) ∧
      ((buildFeatures ruleSet request record now).getLsbD
          Feat.kRoaming = true ↔
        ¬ ∃ known, record = some known ∧ request.plmn = known.homePlmn) ∧
      ((buildFeatures ruleSet request record now).getLsbD
          Feat.kRoamingPartner = true →
        ¬ ∃ known, record = some known ∧ request.plmn = known.homePlmn) ∧
      ((buildFeatures ruleSet request record now).getLsbD
          Feat.kImeiKnown = true ↔ request.imei ≠ 0) ∧
      ((buildFeatures ruleSet request record now).getLsbD
          Feat.kImeiBlocked = true → request.imei ≠ 0) := by
  simp only [getLsbD_fixedSubscriber (by decide : 28 ≤ Feat.kHomePlmn)
    (by decide), getLsbD_fixedSubscriber (by decide : 28 ≤ Feat.kRoaming)
    (by decide), getLsbD_fixedSubscriber
    (by decide : 28 ≤ Feat.kRoamingPartner) (by decide),
    getLsbD_fixedSubscriber (by decide : 28 ≤ Feat.kImeiKnown) (by decide),
    getLsbD_fixedSubscriber (by decide : 28 ≤ Feat.kImeiBlocked) (by decide)]
  cases record <;>
    simp +contextual [deviceBits, fixedSubscriberBits, fixedRecordBits,
      Feat.kImeiKnown, Feat.kImeiBlocked, Feat.kTetheringDetected,
      Feat.kEmergency, Feat.kRequestedGbr, Feat.kHomePlmn, Feat.kRoaming,
      Feat.kRoamingPartner, Feat.kRoamingAllowed, Feat.kTetheringAllowed,
      Feat.kQuotaExhausted, Feat.kPeriodExpired]

theorem buildFeatures_consistent (fits : ruleSet.toPredicateTables.Within) :
    (buildFeatures ruleSet request record now).Consistent ruleSet record where
  oneStatus := by
    have range := statusPosition_range (statusOf record)
    refine ⟨statusPosition (statusOf record), ?_, ?_⟩
    · simp only [Feat.kStatusActive, Feat.kStatusUnknown]
      omega
    · intro other low high
      simp only [Feat.kStatusActive, Feat.kStatusUnknown] at low high
      constructor
      · intro isSet
        rcases getLsbD_buildFeatures_cases fits isSet with
          access | dnn | status | fixed | window | threshold <;> omega
      · intro same
        rw [same]
        exact getLsbD_status ruleSet request record now
  oneRat := by
    intro place other low otherLow isSet otherSet
    simp only [Feat.kRatBase, Feat.kRatBits] at low otherLow
    have range := statusPosition_range (statusOf record)
    have first := getLsbD_buildFeatures_cases fits isSet
    have second := getLsbD_buildFeatures_cases fits otherSet
    omega
  oneDnn := by
    intro place other inside otherInside isSet otherSet
    simp only [Feat.kDnnBase, Feat.kDnnBits] at inside otherInside
    have range := statusPosition_range (statusOf record)
    have first := getLsbD_buildFeatures_cases fits isSet
    have second := getLsbD_buildFeatures_cases fits otherSet
    omega
  homeOrRoaming := by
    obtain ⟨home, roaming, _⟩ := getLsbD_dependent ruleSet request record now
    rw [home, roaming, not_not]
  partner := by
    obtain ⟨_, roaming, partner, _⟩ :=
      getLsbD_dependent ruleSet request record now
    exact fun isPartner => roaming.mpr (partner isPartner)
  blocked := by
    obtain ⟨_, _, _, imeiKnown, blocked⟩ :=
      getLsbD_dependent ruleSet request record now
    exact fun isBlocked => imeiKnown.mpr (blocked isBlocked)
  windows := by
    intro place beyond below
    rw [Bool.eq_false_iff]
    intro isSet
    simp only [Feat.kTimeWindowBase, Feat.kUsageThresholdBase] at beyond below
    have range := statusPosition_range (statusOf record)
    have cases := getLsbD_buildFeatures_cases fits isSet
    omega
  thresholds := by
    intro place beyond
    rw [Bool.eq_false_iff]
    intro isSet
    simp only [Feat.kUsageThresholdBase] at beyond
    have range := statusPosition_range (statusOf record)
    have cases := getLsbD_buildFeatures_cases fits isSet
    omega
  reserved := by
    intro place beyond
    rw [Bool.eq_false_iff]
    intro isSet
    simp only [Feat.kUsageThresholdBase, kMaxUsageThresholds] at beyond
    have range := statusPosition_range (statusOf record)
    have cases := getLsbD_buildFeatures_cases fits isSet
    omega
  unknown := by
    rintro rfl place ofSubscriber
    constructor
    · intro isSet
      simp only [SubscriberPlace, Feat.kStatusActive, Feat.kStatusUnknown,
        Feat.kHomePlmn, Feat.kRoamingAllowed, Feat.kTetheringAllowed,
        Feat.kQuotaExhausted, Feat.kPeriodExpired,
        Feat.kUsageThresholdBase] at ofSubscriber
      rcases getLsbD_buildFeatures_cases fits isSet with
        access | dnn | status | fixed | window | threshold
      · omega
      · omega
      · exact .inl status
      · -- of the fixed bits only those of the device and roaming are left
        rw [getLsbD_fixedSubscriber fixed.1 fixed.2] at isSet
        simp [deviceBits, fixedSubscriberBits, Feat.kImeiKnown,
          Feat.kImeiBlocked, Feat.kTetheringDetected, Feat.kEmergency,
          Feat.kRequestedGbr, Feat.kRoaming] at isSet ⊢
        omega
      · omega
      · exact absurd rfl threshold.2.2.2
    · rintro (rfl | rfl)
      · exact getLsbD_status ruleSet request none now
      · refine (getLsbD_dependent ruleSet request none now).2.1.mpr ?_
        rintro ⟨known, absent, _⟩
        cases absent

end Word

/--
Under every accepted policy the feature word of every request, with or without
a record and at any time, is consistent.
-/
theorem feature_word_consistent
    {files : Str → Option Str}
    {text : Str}
    {version : UInt32}
    {ruleSet : RuleSet}
    (accepted : (compileRules files text version).ruleSet = some ruleSet)
    (request : PolicyRequest)
    (record : Option SubscriberRecord)
    (now : UInt64) :
    (buildFeatures ruleSet request record now).Consistent ruleSet
      record := by
  obtain ⟨root, _, rootAccepted⟩ := compileRules_ruleSet_iff.mp accepted
  obtain ⟨_, _, compiledFrom⟩ := compileRoot_compiledFrom rootAccepted
  exact buildFeatures_consistent compiledFrom.tablesFit

/-- A document with one window and one threshold. -/
def meteredNightFile : Str :=
  "dnns: [internet]\nplans: [\x7bname: basic\x7d]\nrules:\n".toList ++
    "  - id: 1\n    priority: 1\n    when:\n".toList ++
    "      time_between: \x7bstart: \"22:00\", end: \"06:00\"\x7d\n".toList ++
    "      usage_above: 80%\n    action: \x7bverdict: DENY\x7d\n".toList

/-- Of an unknown subscriber only the unknown state and roaming are known. -/
theorem feature_word_consistent_without_record :
    ∃ ruleSet,
      (compileRules (fun _ => none) meteredNightFile 1).ruleSet =
          some ruleSet ∧
        (buildFeatures ruleSet {} none 0).Consistent ruleSet none := by
  obtain ⟨ruleSet, _, accepted, _⟩ :=
    exists_of_testDocument meteredNightFile
      (fun ruleSet _ =>
        ruleSet.timeWindows.length == 1 &&
          ruleSet.usageThresholdsPermille.length == 1) (by decide +kernel)
  exact ⟨ruleSet, accepted, feature_word_consistent accepted {} none 0⟩

end Policyd
