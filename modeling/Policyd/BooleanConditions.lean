import Policyd.DecisionRanges
import Policyd.ListedSets
import Policyd.RuleScan

namespace Policyd

/-!
# The truth-valued conditions

The authoring guide lists twelve conditions that are true or false of a request
and a subscriber, each with a bit of its own.  `Documented` says what the guide
says.  Eleven bits are set exactly when the guide says so; the bit for roaming
partners is only looked at while roaming, and its set cannot hold the network
zero.
-/

/-- The truth-valued conditions. -/
inductive BoolCond where
  | roaming
  | homePlmn
  | roamingPartner
  | roamingAllowed
  | imeiKnown
  | imeiBlocked
  | tetheringDetected
  | tetheringAllowed
  | emergency
  | quotaExhausted
  | periodExpired
  | requestedGbr
  deriving Repr, DecidableEq

/-- The item of a plan in the document. -/
def planItem (root : Node) (planId : UInt32) : Option Node :=
  match root.find "plans".toList with
  | some (.seq _ items) => items[planId.toNat]?
  | _ => none

/-- A field of a plan in the document, or its default. -/
def planValue
    {Value : Type}
    (root : Node) (planId : UInt32) (key : String) (read : Node → Option Value)
    (default : Value) : Value :=
  (((planItem root planId).bind (·.find key.toList)).bind read).getD default

/-- What a condition is about. -/
structure CondContext where
  files : Str → Option Str
  root : Node
  request : PolicyRequest
  record : SubscriberRecord
  now : UInt64

namespace CondContext

/-- The quota the document grants the subscriber's plan. -/
def quota (context : CondContext) : UInt64 :=
  planValue context.root context.record.planId "quota" Node.asBytes 0

/-- Whether the document permits tethering on the subscriber's plan. -/
def planPermitsTethering (context : CondContext) : Bool :=
  planValue context.root context.record.planId "tethering" Node.asBool false

end CondContext

namespace BoolCond

/-- The key of a condition. -/
def name : BoolCond → Str
  | roaming => "roaming".toList
  | homePlmn => "home_plmn".toList
  | roamingPartner => "roaming_partner".toList
  | roamingAllowed => "roaming_allowed".toList
  | imeiKnown => "imei_known".toList
  | imeiBlocked => "imei_blocked".toList
  | tetheringDetected => "tethering_detected".toList
  | tetheringAllowed => "tethering_allowed".toList
  | emergency => "emergency".toList
  | quotaExhausted => "quota_exhausted".toList
  | periodExpired => "period_expired".toList
  | requestedGbr => "requested_gbr".toList

/-- When a condition is true, as the authoring guide has it. -/
def Documented (context : CondContext) : BoolCond → Prop
  | roaming => context.request.plmn ≠ context.record.homePlmn
  | homePlmn => context.request.plmn = context.record.homePlmn
  | roamingPartner => context.request.plmn ∈ listedPartners context.root
  | roamingAllowed => context.record.flags &&& kSubRoamingAllowed ≠ 0
  | imeiKnown => context.request.imei ≠ 0
  | imeiBlocked =>
    context.request.imei ∈ listedImeis context.files context.root
  | tetheringDetected =>
    hasFlag context.request.flags kReqFlagTetheringDetected = true
  | tetheringAllowed =>
    context.planPermitsTethering = true ∨
      context.record.flags &&& kSubTetheringAllowed ≠ 0
  | emergency => hasFlag context.request.flags kReqFlagEmergency = true
  | quotaExhausted =>
    context.quota ≠ 0 ∧
      context.quota ≤ effectiveUsage context.request context.record
  | periodExpired =>
    context.now ≠ 0 ∧ context.record.periodResetTs ≠ 0 ∧
      context.record.periodResetTs ≤ context.now
  | requestedGbr => context.request.requested5qi.toNat ∈ gbr5qiValues

/-- The bit of a condition is set exactly when the guide says so. -/
def MatchesGuide
    (ruleSet : RuleSet) (context : CondContext)
    (condition : BoolCond) : Prop :=
  ∃ position,
    boolBit condition.name = some position ∧
      ((buildFeatures ruleSet context.request (some context.record)
            context.now).getLsbD position = true ↔
        condition.Documented context)

end BoolCond

theorem FieldRead.getD_eq
    {Value : Type} {plan : Node} {key : String} {read : Node → Option Value}
    {default value : Value}
    (fieldRead : FieldRead plan key read default value) :
    ((plan.find key.toList).bind read).getD default = value := by
  rcases fieldRead with ⟨missing, rfl⟩ | ⟨field, found, readField⟩
  · rw [missing]
    rfl
  · rw [found, Option.bind_some, readField]
    rfl

section Accepted

variable {files : Str → Option Str}
variable {root : Node}
variable {version : UInt32}
variable {ruleSet : RuleSet}

section

variable (accepted : (compileRoot files root version).ruleSet = some ruleSet)

include accepted

/-- The plan of an index was read from the item of that index. -/
theorem planItem_cases (planId : UInt32) :
    (planItem root planId = none ∧ ruleSet.plan planId = none) ∨
      ∃ item plan,
        planItem root planId = some item ∧
          ruleSet.plan planId = some plan ∧ PlanRead item plan := by
  obtain ⟨_, unsorted, sections, shape⟩ := compileRoot_ruleSet_iff.mp accepted
  obtain ⟨_, _, plans, _, _, _, _, _, _, plansRead, _, _, _, _,
    sectionsShape⟩ := compileSections_result_iff.mp sections
  obtain ⟨line, items, found, read⟩ := loadPlans_planRead plansRead
  have plansShape : ruleSet.plan planId = plans.plans[planId.toNat]? := by
    rw [RuleSet.plan, shape, sectionsShape]
  have itemShape : planItem root planId = items[planId.toNat]? := by
    rw [planItem, found]
  rw [plansShape, itemShape]
  by_cases inside : planId.toNat < items.length
  · have insidePlans : planId.toNat < plans.plans.length :=
      read.length_eq ▸ inside
    exact .inr ⟨_, _, List.getElem?_eq_getElem inside,
      List.getElem?_eq_getElem insidePlans,
      (List.forall₂_iff_get.mp read).2 _ inside insidePlans⟩
  · refine .inl ⟨List.getElem?_eq_none (Nat.le_of_not_lt inside),
      List.getElem?_eq_none ?_⟩
    rw [← read.length_eq]
    exact Nat.le_of_not_lt inside

/-- The quota and the tethering permission of a plan are the document's. -/
theorem planValues_eq (record : SubscriberRecord) :
    quotaOf ruleSet record =
        planValue root record.planId "quota" Node.asBytes 0 ∧
      planTethering ruleSet record =
        planValue root record.planId "tethering" Node.asBool false := by
  rw [quotaOf, planTethering, planValue, planValue]
  rcases planItem_cases accepted record.planId with
    ⟨noItem, noPlan⟩ | ⟨item, plan, isItem, isPlan, read⟩
  · rw [noItem, noPlan]
    exact ⟨rfl, rfl⟩
  · rw [isItem, isPlan, Option.bind_some, Option.bind_some,
      read.quotaBytes.getD_eq, read.tethering.getD_eq]
    exact ⟨rfl, rfl⟩

theorem contains_roamingPartners_iff (plmn : UInt32) :
    ruleSet.roamingPartners.contains plmn.toUInt64 = true ↔
      plmn ≠ 0 ∧ plmn ∈ listedPartners root := by
  have injective : Function.Injective UInt32.toUInt64 := by
    intro first second same
    rw [← UInt32.toNat_inj, ← UInt32.toNat_toUInt64, same,
      UInt32.toNat_toUInt64]
  have zero : plmn.toUInt64 = 0 ↔ plmn = 0 :=
    ⟨fun isZero => injective isZero, fun isZero => by rw [isZero]; rfl⟩
  rw [roamingPartners_eq accepted, FlatSet64.contains_rebuild, ne_eq, zero,
    List.mem_map_of_injective injective]

/-- A device is blocked exactly when it is listed. -/
theorem contains_imeiBlocklist_iff (imei : UInt64) :
    imei ≠ 0 ∧ ruleSet.imeiBlocklist.contains imei = true ↔
      imei ∈ listedImeis files root := by
  obtain ⟨blocklist, nonzero⟩ := imeiBlocklist_eq accepted
  rw [blocklist, FlatSet64.contains_rebuild]
  constructor
  · rintro ⟨_, _, listed⟩
    exact listed
  · intro listed
    have known : imei ≠ 0 := by
      rintro rfl
      exact nonzero listed
    exact ⟨known, known, listed⟩

end

end Accepted

/-- The engine's test behind the bit of a condition. -/
def BoolCond.test (ruleSet : RuleSet) (context : CondContext) : BoolCond → Bool
  | roaming => context.request.plmn != context.record.homePlmn
  | homePlmn => context.request.plmn == context.record.homePlmn
  | roamingPartner =>
    context.request.plmn != context.record.homePlmn &&
      ruleSet.roamingPartners.contains context.request.plmn.toUInt64
  | roamingAllowed => context.record.flags &&& kSubRoamingAllowed != 0
  | imeiKnown => context.request.imei != 0
  | imeiBlocked =>
    context.request.imei != 0 &&
      ruleSet.imeiBlocklist.contains context.request.imei
  | tetheringDetected =>
    hasFlag context.request.flags kReqFlagTetheringDetected
  | tetheringAllowed =>
    planTethering ruleSet context.record ||
      context.record.flags &&& kSubTetheringAllowed != 0
  | emergency => hasFlag context.request.flags kReqFlagEmergency
  | quotaExhausted =>
    quotaOf ruleSet context.record != 0 &&
      decide (quotaOf ruleSet context.record ≤
        effectiveUsage context.request context.record)
  | periodExpired =>
    context.now != 0 && context.record.periodResetTs != 0 &&
      decide (context.record.periodResetTs ≤ context.now)
  | requestedGbr => isGbr5qi context.request.requested5qi

/-- Each condition has a bit of its own, which the engine's test sets. -/
theorem BoolCond.exists_bit
    (ruleSet : RuleSet) (context : CondContext) (condition : BoolCond) :
    ∃ position,
      boolBit condition.name = some position ∧
        (buildFeatures ruleSet context.request (some context.record)
          context.now).getLsbD position = condition.test ruleSet context := by
  have bit (position : Nat) (low : 28 ≤ position) (high : position < 40)
      (set : Bool)
      (listed :
        (position, true) ∈
            deviceBits ruleSet context.request ++
              fixedRecordBits ruleSet context.request context.record
                context.now ↔
          set = true) :
      (buildFeatures ruleSet context.request (some context.record)
        context.now).getLsbD position = set := by
    rw [Bool.eq_iff_iff, getLsbD_fixed low high]
    exact listed
  cases condition <;>
    refine ⟨_, rfl, bit _ (by decide) (by decide) _ ?_⟩ <;>
    simp [deviceBits, fixedRecordBits, test, Feat.kImeiKnown,
      Feat.kImeiBlocked, Feat.kTetheringDetected, Feat.kEmergency,
      Feat.kRequestedGbr, Feat.kHomePlmn, Feat.kRoaming,
      Feat.kRoamingPartner, Feat.kRoamingAllowed, Feat.kTetheringAllowed,
      Feat.kQuotaExhausted, Feat.kPeriodExpired]

/-- A bit matches the guide when the engine's test does. -/
theorem BoolCond.matchesGuide_iff
    {ruleSet : RuleSet} {context : CondContext} {condition : BoolCond} :
    condition.MatchesGuide ruleSet context ↔
      (condition.test ruleSet context = true ↔
        condition.Documented context) := by
  obtain ⟨position, known, bit⟩ := exists_bit ruleSet context condition
  constructor
  · rintro ⟨other, otherKnown, documented⟩
    cases known.symm.trans otherKnown
    rw [← bit]
    exact documented
  · intro documented
    refine ⟨position, known, ?_⟩
    rw [bit]
    exact documented

/-- A listed network that the engine does not take for a partner. -/
def UnseenPartner (context : CondContext) : Prop :=
  context.request.plmn ∈ listedPartners context.root ∧
    (context.request.plmn = context.record.homePlmn ∨
      context.request.plmn = 0)

section Accepted

variable {version : UInt32}
variable {ruleSet : RuleSet}
variable {context : CondContext}

/-- Every condition but one means what the guide says. -/
theorem BoolCond.matchesGuide_of_ne
    (accepted :
      (compileRoot context.files context.root version).ruleSet = some ruleSet)
    {condition : BoolCond}
    (notPartner : condition ≠ .roamingPartner) :
    condition.MatchesGuide ruleSet context := by
  obtain ⟨quota, tethering⟩ := planValues_eq accepted context.record
  have blocked := contains_imeiBlocklist_iff accepted context.request.imei
  rw [matchesGuide_iff]
  cases condition with
  | roamingPartner => exact (notPartner rfl).elim
  | imeiBlocked =>
    rw [test, Bool.and_eq_true, bne_iff_ne]
    exact blocked
  | tetheringAllowed =>
    rw [test, tethering, Bool.or_eq_true, bne_iff_ne]
    exact Iff.rfl
  | quotaExhausted =>
    rw [test, quota, Bool.and_eq_true, bne_iff_ne, decide_eq_true_iff]
    exact Iff.rfl
  | periodExpired =>
    rw [test, Bool.and_eq_true, Bool.and_eq_true, bne_iff_ne, bne_iff_ne,
      decide_eq_true_iff, and_assoc]
    exact Iff.rfl
  | requestedGbr => exact List.contains_iff_mem
  | homePlmn => exact beq_iff_eq
  | roaming | roamingAllowed | imeiKnown => exact bne_iff_ne
  | tetheringDetected | emergency => exact Iff.rfl

/-- The partner bit means what the guide says while its network is seen. -/
theorem BoolCond.matchesGuide_partner_iff
    (accepted :
      (compileRoot context.files context.root version).ruleSet = some ruleSet) :
    BoolCond.roamingPartner.MatchesGuide ruleSet context ↔
      ¬ UnseenPartner context := by
  have listed := contains_roamingPartners_iff accepted context.request.plmn
  rw [matchesGuide_iff, test, Bool.and_eq_true, bne_iff_ne, listed]
  constructor
  · rintro documented ⟨isListed, unseen⟩
    obtain ⟨away, nonzero, _⟩ := documented.mpr isListed
    exact unseen.elim away nonzero
  · intro seen
    constructor
    · rintro ⟨_, _, isListed⟩
      exact isListed
    · intro isListed
      exact ⟨fun atHome => seen ⟨isListed, .inl atHome⟩,
        fun isZero => seen ⟨isListed, .inr isZero⟩, isListed⟩

end Accepted

/--
For an accepted policy, a request and a known subscriber, all twelve bits mean
what the guide says, exactly when the serving network is not a listed partner
that is the subscriber's own network or zero.
-/
theorem conditions_match_guide_iff
    {files : Str → Option Str}
    {text : Str}
    {version : UInt32}
    {ruleSet : RuleSet}
    (accepted : (compileRules files text version).ruleSet = some ruleSet) :
    ∃ root,
      Yaml.parse text = .ok root ∧
        ∀ request record now,
          (∀ condition : BoolCond,
            condition.MatchesGuide ruleSet
              ⟨files, root, request, record, now⟩) ↔
            ¬ UnseenPartner ⟨files, root, request, record, now⟩ := by
  obtain ⟨root, parsed, rootAccepted⟩ := compileRules_ruleSet_iff.mp accepted
  refine ⟨root, parsed, ?_⟩
  intro request record now
  have partner :
      BoolCond.roamingPartner.MatchesGuide ruleSet
          ⟨files, root, request, record, now⟩ ↔ _ :=
    BoolCond.matchesGuide_partner_iff rootAccepted
  constructor
  · intro documented
    exact partner.mp (documented .roamingPartner)
  · intro seen condition
    by_cases isPartner : condition = .roamingPartner
    · rw [isPartner]
      exact partner.mpr seen
    · exact BoolCond.matchesGuide_of_ne rootAccepted isPartner

/-- A document whose only partner is the network 310-260. -/
def partnerFile : Str :=
  ("dnns: [internet]\nplans: [\x7bname: basic\x7d]\n" ++
    "roaming_partners: [310-260]\nrules: []\n").toList

/-- A subscriber of another network is flagged as the guide says. -/
theorem visitor_conditions_match_guide :
    ∃ ruleSet root,
      (compileRules (fun _ => none) partnerFile 1).ruleSet = some ruleSet ∧
        Yaml.parse partnerFile = .ok root ∧
        ∀ condition : BoolCond,
          condition.MatchesGuide ruleSet
            ⟨fun _ => none, root, { plmn := 310260 },
              { imsi := 1, homePlmn := 1001 }, 0⟩ := by
  obtain ⟨ruleSet, root, accepted, parsed, _⟩ :=
    exists_of_testDocument partnerFile (fun _ _ => true) (by decide +kernel)
  obtain ⟨other, otherParsed, documented⟩ :=
    conditions_match_guide_iff accepted
  cases parsed.symm.trans otherParsed
  refine ⟨ruleSet, root, accepted, parsed, (documented _ _ _).mpr ?_⟩
  have away : (310260 : UInt32) ≠ 1001 ∧ (310260 : UInt32) ≠ 0 := by
    decide
  rintro ⟨_, atHome | isZero⟩
  · exact away.1 atHome
  · exact away.2 isZero

/-- At home on a listed network the partner bit is clear. -/
theorem partner_at_home_not_flagged :
    ∃ ruleSet root,
      (compileRules (fun _ => none) partnerFile 1).ruleSet = some ruleSet ∧
        Yaml.parse partnerFile = .ok root ∧
        (310260 : UInt32) ∈ listedPartners root ∧
        (buildFeatures ruleSet { plmn := 310260 }
          (some { imsi := 1, homePlmn := 310260 }) 0).getLsbD
            Feat.kRoamingPartner = false ∧
        ¬ BoolCond.roamingPartner.MatchesGuide ruleSet
          ⟨fun _ => none, root, { plmn := 310260 },
            { imsi := 1, homePlmn := 310260 }, 0⟩ := by
  obtain ⟨ruleSet, root, accepted, parsed, passed⟩ :=
    exists_of_testDocument partnerFile
      (fun _ root => decide ((310260 : UInt32) ∈ listedPartners root))
      (by decide +kernel)
  have listed := of_decide_eq_true passed
  obtain ⟨other, otherParsed, rootAccepted⟩ :=
    compileRules_ruleSet_iff.mp accepted
  cases parsed.symm.trans otherParsed
  refine ⟨ruleSet, root, accepted, parsed, listed, ?_, ?_⟩
  · obtain ⟨position, known, bit⟩ :=
      BoolCond.exists_bit ruleSet
        ⟨fun _ => none, root, { plmn := 310260 },
          { imsi := 1, homePlmn := 310260 }, 0⟩ .roamingPartner
    cases known
    exact bit
  · have partner :
        BoolCond.roamingPartner.MatchesGuide ruleSet
            ⟨fun _ => none, root, { plmn := 310260 },
              { imsi := 1, homePlmn := 310260 }, 0⟩ ↔ _ :=
      BoolCond.matchesGuide_partner_iff rootAccepted
    intro documented
    exact partner.mp documented ⟨listed, .inl rfl⟩

end Policyd
