import Policyd.ConditionCompiler

namespace Policyd

open MaskedWords

/-!
# Usage features and quota grants

Two parts of the engine compare usage with the quota of a plan: the feature word
has a bit for exhausted quota and one for each interned threshold, and the
decision grants what is left.  For a metered subscriber both read the same
usage, so they agree, and both are monotone in it.
-/

/-- A record is on a metered plan of a rule set. -/
structure Metered
    (ruleSet : RuleSet)
    (plan : PlanConfig)
    (record : SubscriberRecord) : Prop where
  onPlan : ruleSet.plan record.planId = some plan
  quota : plan.quotaBytes ≠ 0

/-- The action a request ends with: of the rule that fired, or the default. -/
def firedAction
    (ruleSet : RuleSet) (request : PolicyRequest)
    (record : Option SubscriberRecord)
    (now : UInt64) : Action :=
  ((firstHit ruleSet request record now).map (·.action)).getD
    ruleSet.defaultAction

/-- The action grants what is left of the plan's quota. -/
def GrantsRemainder
    (ruleSet : RuleSet) (request : PolicyRequest) (record : SubscriberRecord)
    (now : UInt64) : Prop :=
  hasFlag (firedAction ruleSet request (some record) now).inheritMask
      kInheritQuota = true ∧
    (firedAction ruleSet request (some record) now).verdict ≠
      Verdict.deny.code

instance
    (ruleSet : RuleSet)
    (request : PolicyRequest)
    (record : SubscriberRecord)
    (now : UInt64) :
    Decidable (GrantsRemainder ruleSet request record now) :=
  inferInstanceAs (Decidable (_ ∧ _))

section Metered

variable {ruleSet : RuleSet} {plan : PlanConfig}
variable {request : PolicyRequest} {record : SubscriberRecord}
variable {now : UInt64}

variable (metered : Metered ruleSet plan record)

include metered

theorem Metered.quotaOf_eq :
    quotaOf ruleSet record = plan.quotaBytes := by
  rw [quotaOf, metered.onPlan]

theorem Metered.usageAtLeastPermille_iff (usage permille : Nat) :
    usageAtLeastPermille usage plan.quotaBytes.toNat permille = true ↔
      plan.quotaBytes.toNat * permille ≤ 1000 * usage := by
  have nonzero : plan.quotaBytes.toNat ≠ 0 :=
    fun zero => metered.quota (UInt64.toNat_inj.mp zero)
  rw [usageAtLeastPermille, Bool.and_eq_true, decide_eq_true_iff,
    Nat.mul_comm usage]
  exact and_iff_right (bne_iff_ne.mpr nonzero)

theorem Metered.getLsbD_threshold (fits : ruleSet.toPredicateTables.Within)
    {place : Nat}
    (low : Feat.kUsageThresholdBase ≤ place) (high : place < 64) :
    (buildFeatures ruleSet request (some record) now).getLsbD place = true ↔
      ∃ index permille,
        ruleSet.usageThresholdsPermille[index]? = some permille ∧
          place = Feat.kUsageThresholdBase + index ∧
          plan.quotaBytes.toNat * permille ≤
            1000 * (effectiveUsage request record).toNat := by
  have listed :
      (place, true) ∈
          Situation.featureBits ⟨ruleSet, request, some record, now⟩ ↔ _ :=
    Situation.mem_featureBits_threshold fits.1 low
  rw [buildFeatures, getLsbD_assemble high, decide_eq_true_iff]
  refine listed.trans ?_
  constructor
  · rintro ⟨known, same, member⟩
    cases same
    rw [metered.quotaOf_eq] at member
    obtain ⟨index, permille, entry, position, reached⟩ :=
      (mem_indexedBits Feat.kUsageThresholdBase _ _ place).mp member
    exact ⟨index, permille, entry, position,
      (metered.usageAtLeastPermille_iff _ _).mp reached⟩
  · rintro ⟨index, permille, entry, position, reached⟩
    refine ⟨record, rfl, ?_⟩
    rw [metered.quotaOf_eq]
    exact (mem_indexedBits Feat.kUsageThresholdBase _ _ place).mpr
      ⟨index, permille, entry, position,
        (metered.usageAtLeastPermille_iff _ _).mpr reached⟩

/-- The bit of one interned threshold. -/
theorem Metered.getLsbD_interned (fits : ruleSet.toPredicateTables.Within)
    {index permille : Nat}
    (interned : ruleSet.usageThresholdsPermille[index]? = some permille) :
    (buildFeatures ruleSet request (some record) now).getLsbD
          (Feat.kUsageThresholdBase + index) = true ↔
      plan.quotaBytes.toNat * permille ≤
        1000 * (effectiveUsage request record).toNat := by
  have inside := (List.getElem?_eq_some_iff.mp interned).1
  have high : Feat.kUsageThresholdBase + index < 64 := by
    have capacity := fits.2
    simp only [Feat.kUsageThresholdBase, kMaxUsageThresholds] at capacity ⊢
    omega
  rw [metered.getLsbD_threshold fits (Nat.le_add_right _ _) high]
  constructor
  · rintro ⟨other, otherPermille, entry, same, reached⟩
    cases Nat.add_left_cancel same
    cases entry.symm.trans interned
    exact reached
  · intro reached
    exact ⟨index, permille, interned, rfl, reached⟩

theorem Metered.getLsbD_quotaExhausted :
    (buildFeatures ruleSet request (some record) now).getLsbD
          Feat.kQuotaExhausted = true ↔
      plan.quotaBytes ≤ effectiveUsage request record := by
  rw [getLsbD_fixed (by decide) (by decide)]
  simp [deviceBits, fixedRecordBits, Feat.kQuotaExhausted, Feat.kImeiKnown,
    Feat.kImeiBlocked, Feat.kTetheringDetected, Feat.kEmergency,
    Feat.kRequestedGbr, Feat.kHomePlmn, Feat.kRoaming, Feat.kRoamingPartner,
    Feat.kRoamingAllowed, Feat.kTetheringAllowed, Feat.kPeriodExpired,
    metered.quotaOf_eq, metered.quota]

omit metered in
/-- What is left of a quota is its difference to the usage, if any. -/
theorem toNat_remainingQuota
    (request : PolicyRequest) (record : SubscriberRecord) (plan : PlanConfig) :
    (remainingQuota request (some record) plan).toNat =
      plan.quotaBytes.toNat - (effectiveUsage request record).toNat := by
  have sameUsage :
      remainingQuota request (some record) plan =
        if effectiveUsage request record < plan.quotaBytes then
          plan.quotaBytes - effectiveUsage request record
        else
          0 := rfl
  rw [sameUsage]
  by_cases left : effectiveUsage request record < plan.quotaBytes
  · rw [if_pos left, UInt64.toNat_sub_of_le _ _ (UInt64.le_of_lt left)]
  · rw [if_neg left]
    have used := UInt64.le_iff_toNat_le.mp (UInt64.not_lt.mp left)
    exact (Nat.sub_eq_zero_of_le used).symm

/-- An action that grants the remainder grants what is left of the plan. -/
theorem Metered.quotaBytes_evaluate
    (grants : GrantsRemainder ruleSet request record now) :
    (evaluate ruleSet request (some record) now).quotaBytes.toNat =
      plan.quotaBytes.toNat - (effectiveUsage request record).toNat := by
  obtain ⟨inherits, notDeny⟩ := grants
  have sameAction :
      ((((firstHit ruleSet request (some record) now).map fun rule =>
          (rule.id, rule.action)).map Prod.snd).getD
          ruleSet.defaultAction) =
        firedAction ruleSet request (some record) now := by
    rw [firedAction, Option.map_map]
    rfl
  have onPlan : planOf ruleSet (some record) = some plan := metered.onPlan
  rw [← toNat_remainingQuota, evaluate, decisionFor]
  simp only [sameAction, inherits, if_neg notDeny, if_true, onPlan,
    Option.map_some, Option.getD_some]

end Metered

/-- The usage bits and the grant of one request of a metered subscriber agree. -/
structure UsageCoherent
    (ruleSet : RuleSet)
    (plan : PlanConfig)
    (request : PolicyRequest)
    (record : SubscriberRecord)
    (now : UInt64) : Prop where
  /-- The set threshold bits are those of the shares that usage has reached. -/
  thresholds :
    ∀ place, Feat.kUsageThresholdBase ≤ place → place < 64 →
      ((buildFeatures ruleSet request (some record) now).getLsbD place =
          true ↔
        ∃ index permille,
          ruleSet.usageThresholdsPermille[index]? = some permille ∧
            place = Feat.kUsageThresholdBase + index ∧
            plan.quotaBytes.toNat * permille ≤
              1000 * (effectiveUsage request record).toNat)
  /-- With the bit of a share the bits of all smaller shares are set. -/
  downward :
    ∀ index permille other smaller,
      ruleSet.usageThresholdsPermille[index]? = some permille →
      ruleSet.usageThresholdsPermille[other]? = some smaller →
      smaller ≤ permille →
      (buildFeatures ruleSet request (some record) now).getLsbD
          (Feat.kUsageThresholdBase + index) = true →
        (buildFeatures ruleSet request (some record) now).getLsbD
          (Feat.kUsageThresholdBase + other) = true
  /-- A threshold at the whole quota is the bit for exhausted quota. -/
  wholeQuota :
    ∀ index, ruleSet.usageThresholdsPermille[index]? = some 1000 →
      (buildFeatures ruleSet request (some record) now).getLsbD
          (Feat.kUsageThresholdBase + index) =
        (buildFeatures ruleSet request (some record) now).getLsbD
          Feat.kQuotaExhausted
  /-- Nothing is granted exactly when quota is exhausted. -/
  grantZero :
    GrantsRemainder ruleSet request record now →
      ((evaluate ruleSet request (some record) now).quotaBytes = 0 ↔
        (buildFeatures ruleSet request (some record) now).getLsbD
          Feat.kQuotaExhausted = true)
  /-- Otherwise usage and grant make up the quota. -/
  grantRest :
    GrantsRemainder ruleSet request record now →
      (buildFeatures ruleSet request (some record) now).getLsbD
          Feat.kQuotaExhausted = false →
        (effectiveUsage request record).toNat +
            (evaluate ruleSet request (some record) now).quotaBytes.toNat =
          plan.quotaBytes.toNat

/-- More usage of the same plan sets more bits and grants less. -/
structure UsageMonotone
    (ruleSet : RuleSet)
    (request : PolicyRequest)
    (record : SubscriberRecord)
    (now : UInt64)
    (laterRequest : PolicyRequest)
    (laterRecord : SubscriberRecord)
    (laterNow : UInt64) : Prop where
  bits :
    ∀ place,
      place = Feat.kQuotaExhausted ∨
          (Feat.kUsageThresholdBase ≤ place ∧ place < 64) →
        (buildFeatures ruleSet request (some record) now).getLsbD place =
            true →
          (buildFeatures ruleSet laterRequest (some laterRecord)
            laterNow).getLsbD place = true
  grant :
    GrantsRemainder ruleSet request record now →
      GrantsRemainder ruleSet laterRequest laterRecord laterNow →
        (evaluate ruleSet laterRequest (some laterRecord)
            laterNow).quotaBytes ≤
          (evaluate ruleSet request (some record) now).quotaBytes

section Results

variable {ruleSet : RuleSet} {plan : PlanConfig}
variable {request laterRequest : PolicyRequest}
variable {record laterRecord : SubscriberRecord}
variable {now laterNow : UInt64}

/-- The bits and the grant of a metered subscriber agree. -/
theorem Metered.usageCoherent (metered : Metered ruleSet plan record)
    (fits : ruleSet.toPredicateTables.Within) :
    UsageCoherent ruleSet plan request record now where
  thresholds := fun _ low high => metered.getLsbD_threshold fits low high
  downward := by
    intro index permille other smaller interned otherInterned below isSet
    rw [metered.getLsbD_interned fits interned] at isSet
    rw [metered.getLsbD_interned fits otherInterned]
    exact Nat.le_trans (Nat.mul_le_mul_left _ below) isSet
  wholeQuota := by
    intro index interned
    rw [Bool.eq_iff_iff, metered.getLsbD_interned fits interned,
      metered.getLsbD_quotaExhausted, UInt64.le_iff_toNat_le]
    omega
  grantZero := by
    intro grants
    have granted := metered.quotaBytes_evaluate grants
    rw [metered.getLsbD_quotaExhausted, UInt64.le_iff_toNat_le,
      ← UInt64.toNat_inj, granted, UInt64.toNat_zero, Nat.sub_eq_zero_iff_le]
  grantRest := by
    intro grants left
    have granted := metered.quotaBytes_evaluate grants
    have notReached :
        ¬ plan.quotaBytes.toNat ≤ (effectiveUsage request record).toNat := by
      rw [← UInt64.le_iff_toNat_le, ← metered.getLsbD_quotaExhausted, left]
      exact Bool.false_ne_true
    omega

/-- More usage of a metered plan sets more bits and grants less. -/
theorem Metered.usageMonotone (metered : Metered ruleSet plan record)
    (laterMetered : Metered ruleSet plan laterRecord)
    (fits : ruleSet.toPredicateTables.Within)
    (more :
      effectiveUsage request record ≤ effectiveUsage laterRequest laterRecord) :
    UsageMonotone ruleSet request record now laterRequest laterRecord
      laterNow where
  bits := by
    intro place kind isSet
    rcases kind with rfl | ⟨low, high⟩
    · rw [metered.getLsbD_quotaExhausted] at isSet
      rw [laterMetered.getLsbD_quotaExhausted]
      exact UInt64.le_trans isSet more
    · rw [metered.getLsbD_threshold fits low high] at isSet
      rw [laterMetered.getLsbD_threshold fits low high]
      obtain ⟨index, permille, interned, position, reached⟩ := isSet
      have moreBytes := UInt64.le_iff_toNat_le.mp more
      exact ⟨index, permille, interned, position,
        Nat.le_trans reached (Nat.mul_le_mul_left 1000 moreBytes)⟩
  grant := by
    intro grants laterGrants
    rw [UInt64.le_iff_toNat_le, metered.quotaBytes_evaluate grants,
      laterMetered.quotaBytes_evaluate laterGrants]
    exact Nat.sub_le_sub_left (UInt64.le_iff_toNat_le.mp more) _

/--
For every rule set within its table sizes and every subscriber on a metered
plan, usage bits and quota grant agree, and both are monotone in the usage.
-/
theorem usage_bits_and_grants_coherent
    (metered : Metered ruleSet plan record)
    (fits : ruleSet.toPredicateTables.Within) :
    UsageCoherent ruleSet plan request record now ∧
      ∀ laterRequest laterRecord laterNow,
        Metered ruleSet plan laterRecord →
          effectiveUsage request record ≤
              effectiveUsage laterRequest laterRecord →
            UsageMonotone ruleSet request record now laterRequest
              laterRecord laterNow :=
  ⟨metered.usageCoherent fits, fun _ _ _ laterMetered more =>
    metered.usageMonotone laterMetered fits more⟩

end Results

/-- A rule set with one metered plan and two thresholds. -/
def meteredRules : RuleSet :=
  { plans := [{ quotaBytes := 1000 }]
    usageThresholdsPermille := [500, 1000]
    defaultAction := { inheritMask := kInheritAll } }

/-- A request that reports six hundred of a thousand bytes. -/
theorem usage_bits_and_grants_coherent_six_hundred :
    (buildFeatures meteredRules
        { flags := kReqFlagUsageValid, bytesUsedPeriod := 600 }
        (some {}) 0).getLsbD 48 = true ∧
      (evaluate meteredRules
        { flags := kReqFlagUsageValid, bytesUsedPeriod := 600 }
        (some {}) 0).quotaBytes.toNat = 400 := by
  have metered :
      Metered meteredRules { quotaBytes := 1000 } ({} : SubscriberRecord) :=
    ⟨rfl, by decide⟩
  have coherent :
      UsageCoherent meteredRules { quotaBytes := 1000 }
        { flags := kReqFlagUsageValid, bytesUsedPeriod := 600 } {} 0 :=
    (usage_bits_and_grants_coherent metered (by decide)).1
  refine ⟨?_, ?_⟩
  · exact (coherent.thresholds 48 (by decide) (by decide)).mpr
      ⟨0, 500, rfl, rfl, by decide⟩
  · have rest := coherent.grantRest (by decide +kernel) (by decide +kernel)
    exact Nat.add_left_cancel rest

end Policyd
