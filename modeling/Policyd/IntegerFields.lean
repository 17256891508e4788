import Policyd.Inheritance

namespace Policyd

/-!
# The integers of a policy

Identifiers, priorities, 5QIs, retention priorities and rating groups are read
by one saturating reader, and each site checks its range before it narrows the
number.  `IntegersStored` says that every such field written as a plain numeral
is stored with its value, so a numeral past the range is refused.  The rating
group of a plan is the one field that is narrowed unchecked.
-/

/-- A field that, when it is written as a plain numeral, holds its value. -/
def HoldsWritten (field : Option Node) (stored : Nat) : Prop :=
  ∀ line text,
    field = some (.scalar line text) →
      PlainNumeral text → stored = numeralValue text

/-- The integers of an action are stored as they are written. -/
structure ActionStored (node : Node) (action : Action) : Prop where
  qos5qi : HoldsWritten (node.find "qos_5qi".toList) action.qos5qi.toNat
  arp : HoldsWritten (node.find "arp".toList) action.arp.toNat
  ratingGroup :
    HoldsWritten (node.find "rating_group".toList) action.ratingGroup.toNat

/-- The integers of a plan are stored as they are written. -/
structure PlanStored (item : Node) (plan : PlanConfig) : Prop where
  qos5qi : HoldsWritten (item.find "qos_5qi".toList) plan.qos5qi.toNat
  arp : HoldsWritten (item.find "arp".toList) plan.arp.toNat
  ratingGroup :
    HoldsWritten (item.find "rating_group".toList) plan.ratingGroup.toNat

/-- The integers of a rule are stored as they are written. -/
structure RuleStored (item : Node) (rule : CompiledRule) : Prop where
  id : HoldsWritten (item.find "id".toList) rule.id.toNat
  priority : HoldsWritten (item.find "priority".toList) rule.priority.toNat
  action :
    ∃ node,
      item.find "action".toList = some node ∧ ActionStored node rule.action

/-- The integers of a document are stored as they are written. -/
structure IntegersStored (root : Node) (ruleSet : RuleSet) : Prop where
  /-- A rule may be compiled into several; all of them have its identifier. -/
  rules :
    ∃ line items,
      root.find "rules".toList = some (.seq line items) ∧
        ∀ item ∈ items,
          ∃ id,
            (∃ rule ∈ ruleSet.rules, rule.id = id) ∧
              ∀ rule ∈ ruleSet.rules, rule.id = id → RuleStored item rule
  defaultAction :
    ∀ node,
      root.find "default_action".toList = some node →
        ActionStored node ruleSet.defaultAction
  plans :
    ∃ line items,
      root.find "plans".toList = some (.seq line items) ∧
        List.Forall₂ PlanStored items ruleSet.plans

/-- Every rating group a plan writes as a plain numeral fits its field. -/
def PlanRatingGroupsFit (root : Node) : Prop :=
  ∀ line items,
    root.find "plans".toList = some (.seq line items) →
      ∀ item ∈ items, ∀ fieldLine text,
        item.find "rating_group".toList = some (.scalar fieldLine text) →
          PlainNumeral text → numeralValue text < 2 ^ 32

variable {text : Str} {Value : Type} {toNat : Value → Nat}
  {read : Node → Option Value} {item node : Node}

theorem despace_digits (digits : text.all Char.isDigit = true) :
    despace text = text := by
  rw [despace, List.filter_eq_self]
  intro char member
  have digit := List.all_eq_true.mp digits char member
  rw [Bool.and_eq_true, bne_iff_ne, bne_iff_ne]
  constructor <;> rintro rfl <;> exact absurd digit (by decide)

/-- A plain numeral is read exactly, up to the largest signed value. -/
theorem Node.asUint_plainNumeral {line : Nat} (plain : PlainNumeral text) :
    (Node.scalar line text).asUint =
      some (UInt64.ofNat (min (numeralValue text) (2 ^ 63 - 1))) := by
  have int :
      intOfText text =
        some (min (numeralValue text : Int) (2 ^ 63 - 1)) := by
    rw [intOfText]
    simp only [despace_digits plain.digits, if_neg plain.nonempty,
      cString_digits plain.digits, strtoll_plainNumeral plain]
  have notNegative : ¬ min (numeralValue text : Int) (2 ^ 63 - 1) < 0 := by
    omega
  have truncated :
      (min (numeralValue text : Int) (2 ^ 63 - 1)).toNat =
        min (numeralValue text) (2 ^ 63 - 1) := by
    omega
  show uintOfText text = _
  rw [uintOfText, int, Option.bind_some, if_neg notNegative, truncated]

theorem toNat_of_asUint {line : Nat} {number : UInt64}
    (plain : PlainNumeral text)
    (read : (Node.scalar line text).asUint = some number)
    (small : number.toNat < 2 ^ 32) :
    number.toNat = numeralValue text := by
  rw [Node.asUint_plainNumeral plain] at read
  cases read
  have bound : min (numeralValue text) (2 ^ 63 - 1) < 2 ^ 64 := by
    omega
  rw [UInt64.toNat_ofNat_of_lt' bound] at small ⊢
  omega

/-- A reader that checks the range of its field before it narrows. -/
def ChecksRange
    {Value : Type}
    (read : Node → Option Value)
    (toNat : Value → Nat) : Prop :=
  ∀ field value,
    read field = some value →
      ∃ number,
        field.asUint = some number ∧ number.toNat < 2 ^ 32 ∧
          toNat value = number.toNat

/-- A reader that refuses every number past its field. -/
theorem checksRange_of_narrow {refused : UInt64 → Prop} [DecidablePred refused]
    {narrow : UInt64 → Value}
    (fits : ∀ number,
      ¬ refused number →
        number.toNat < 2 ^ 32 ∧ toNat (narrow number) = number.toNat) :
    ChecksRange
      (fun field => field.asUint.bind fun number =>
        if refused number then none else some (narrow number))
      toNat := by
  intro field value read
  obtain ⟨number, numberRead, checked⟩ := Option.bind_eq_some_iff.mp read
  by_cases isRefused : refused number
  · rw [if_pos isRefused] at checked
    cases checked
  · rw [if_neg isRefused] at checked
    cases checked
    exact ⟨number, numberRead, fits number isRefused⟩

theorem checksRange_as5qi : ChecksRange Node.as5qi UInt8.toNat := by
  refine checksRange_of_narrow fun number accepted => ?_
  have small : number.toNat ≤ 255 := by
    rw [not_or, UInt64.not_lt, UInt64.le_iff_toNat_le] at accepted
    exact accepted.2
  rw [UInt64.toNat_toUInt8]
  omega

theorem checksRange_asArp : ChecksRange Node.asArp UInt8.toNat := by
  refine checksRange_of_narrow fun number accepted => ?_
  have small : number.toNat ≤ 15 := by
    rw [not_or, UInt64.not_lt, UInt64.not_lt, UInt64.le_iff_toNat_le,
      UInt64.le_iff_toNat_le] at accepted
    exact accepted.2
  rw [UInt64.toNat_toUInt8]
  omega

private theorem toNat_toUInt32_of_not_lt
    {number : UInt64} (accepted : ¬ 0xFFFFFFFF < number) :
    number.toNat < 2 ^ 32 ∧ number.toUInt32.toNat = number.toNat := by
  have small : number.toNat ≤ 4294967295 := by
    rw [UInt64.not_lt, UInt64.le_iff_toNat_le] at accepted
    exact accepted
  rw [UInt64.toNat_toUInt32]
  omega

theorem checksRange_asRatingGroup :
    ChecksRange Node.asRatingGroup UInt32.toNat :=
  checksRange_of_narrow fun _ => toNat_toUInt32_of_not_lt

theorem ChecksRange.holdsWritten (checks : ChecksRange read toNat)
    {field : Option Node} {value : Value}
    (readField : field.bind read = some value) :
    HoldsWritten field (toNat value) := by
  intro line text written plain
  rw [written, Option.bind_some] at readField
  obtain ⟨number, numberRead, small, same⟩ := checks _ value readField
  rw [same]
  exact toNat_of_asUint plain numberRead small

theorem ruleIdOf_holdsWritten {id : UInt32} (read : ruleIdOf item = some id) :
    HoldsWritten (item.find "id".toList) id.toNat := by
  rw [ruleIdOf, Option.bind_assoc] at read
  refine ChecksRange.holdsWritten (checksRange_of_narrow ?_) read
  intro number accepted
  exact toNat_toUInt32_of_not_lt (not_or.mp accepted).2

theorem rulePriorityOf_holdsWritten
    {priority : UInt32} (read : rulePriorityOf item = some priority) :
    HoldsWritten (item.find "priority".toList) priority.toNat := by
  rw [rulePriorityOf, Option.bind_assoc] at read
  exact ChecksRange.holdsWritten
    (checksRange_of_narrow fun _ => toNat_toUInt32_of_not_lt) read

theorem FieldRead.holdsWritten
    {plan : Node} {key : String} {default value : Value}
    (checks : ChecksRange read toNat)
    (fieldRead : FieldRead plan key read default value) :
    HoldsWritten (plan.find key.toList) (toNat value) := by
  rcases fieldRead with ⟨missing, _⟩ | ⟨field, found, readField⟩
  · intro line text written _
    rw [missing] at written
    cases written
  · refine checks.holdsWritten ?_
    rw [found, Option.bind_some, readField]

private theorem writtenField_holdsWritten {key : String}
    (checks : ChecksRange read toNat)
    (accepted : node.has key.toList = (writtenField node key read).isSome)
    {stored : Value}
    (stores :
      ∀ value, writtenField node key read = some value → stored = value) :
    HoldsWritten (node.find key.toList) (toNat stored) := by
  cases found : node.find key.toList with
  | none =>
    intro line text written
    cases written
  | some field =>
    rw [Node.has, found, Option.isSome_some] at accepted
    obtain ⟨value, valueRead⟩ := Option.isSome_iff_exists.mp accepted.symm
    rw [stores value valueRead]
    rw [writtenField, found] at valueRead
    exact checks.holdsWritten valueRead

/-- The integers of an accepted action are stored as they are written. -/
theorem actionStored_of_result {redirects : Redirects} {action final : Action}
    (accepted : (parseAction redirects node action).result = some final) :
    ActionStored node final := by
  obtain ⟨judged, classed, rated, granted, aimed, _, qos, ambr, quota,
    redirect, flags⟩ := parseAction_result accepted
  obtain ⟨hasQos, hasArp, classedEq⟩ := parseQos_eq qos
  obtain ⟨_, ratedEq⟩ := parseAmbr_eq ambr
  obtain ⟨hasRating, grantedEq⟩ := parseQuota_eq quota
  rw [parseFlags_eq flags, parseRedirect_eq redirect, grantedEq, ratedEq,
    classedEq]
  refine ⟨?_, ?_, ?_⟩
  · refine writtenField_holdsWritten checksRange_as5qi hasQos ?_
    intro value written
    simp [WrittenFields.setsQos, Node.writtenFields, written]
  · refine writtenField_holdsWritten checksRange_asArp hasArp ?_
    intro value written
    simp [WrittenFields.setsQos, Node.writtenFields, written]
  · refine writtenField_holdsWritten checksRange_asRatingGroup hasRating ?_
    intro value written
    simp [Node.writtenFields, written]

/-- The integers of a plan are stored exactly when its rating group fits. -/
theorem PlanRead.planStored {plan : PlanConfig} (planRead : PlanRead item plan)
    (fits :
      ∀ line text,
        item.find "rating_group".toList = some (.scalar line text) →
          PlainNumeral text → numeralValue text < 2 ^ 32) :
    PlanStored item plan where
  qos5qi := planRead.qos5qi.holdsWritten checksRange_as5qi
  arp := planRead.arp.holdsWritten checksRange_asArp
  ratingGroup := by
    intro line text written plain
    have small := fits line text written plain
    obtain ⟨number, numberRead, narrowed⟩ := planRead.ratingGroup
    rcases numberRead with ⟨missing, _⟩ | ⟨field, found, readField⟩
    · rw [missing] at written
      cases written
    · cases found.symm.trans written
      rw [Node.asUint_plainNumeral plain] at readField
      cases readField
      have bound : min (numeralValue text) (2 ^ 63 - 1) < 2 ^ 64 := by
        omega
      rw [narrowed, UInt64.toNat_toUInt32, UInt64.toNat_ofNat_of_lt' bound]
      omega

theorem rulesStored_of_compiledFrom
    {root : Node} {ruleSet : RuleSet} {sources : List SourceRule}
    (read : sourceRules root = some sources)
    (compiledFrom : CompiledFrom ruleSet sources) :
    ∃ line items,
      root.find "rules".toList = some (.seq line items) ∧
        ∀ item ∈ items,
          ∃ id,
            (∃ rule ∈ ruleSet.rules, rule.id = id) ∧
              ∀ rule ∈ ruleSet.rules, rule.id = id → RuleStored item rule := by
  obtain ⟨line, items, found, itemsRead⟩ := exists_items_of_sourceRules read
  refine ⟨line, items, found, ?_⟩
  intro item itemMember
  obtain ⟨source, member, itemRead⟩ :=
    exists_mem_right_of_forall₂ (mapM_eq_some_iff.mp itemsRead) itemMember
  refine ⟨source.id, compiledFrom.exists_rule_of_mem member, ?_⟩
  intro rule ruleMember sameId
  obtain ⟨other, otherMember, otherId, priority, action⟩ :=
    compiledFrom.exists_source_of_mem ruleMember
  cases compiledFrom.eq_of_id otherMember member (otherId.symm.trans sameId)
  obtain ⟨_, idRead, priorityRead, _⟩ := readRule_eq_some_iff.mp itemRead
  obtain ⟨node, nodeFound, actionRead⟩ := parseAction_of_readRule itemRead
  rw [← otherId] at idRead
  rw [← priority] at priorityRead
  rw [← action] at actionRead
  exact ⟨ruleIdOf_holdsWritten idRead,
    rulePriorityOf_holdsWritten priorityRead, node, nodeFound,
    actionStored_of_result actionRead⟩

theorem defaultActionStored_of_result {redirects : Redirects} {action : Action}
    (loaded : (loadDefaultAction redirects (some node)).result = some action) :
    ActionStored node action := by
  simp only [loadDefaultAction, Report.result_bind, Attempt.result_toReport,
    Option.bind_eq_some_iff, Option.map_eq_some_iff] at loaded
  obtain ⟨_, ⟨parsed, accepted, rfl⟩, chosen⟩ := loaded
  cases chosen
  exact actionStored_of_result accepted

/--
In an accepted document every rule id, priority, 5QI, retention priority and
rating group that is written as a plain numeral is stored with its value,
exactly when the rating groups of the plans fit 32 bits.
-/
theorem integers_stored_iff_rating_groups_fit
    {files : Str → Option Str}
    {text : Str}
    {version : UInt32}
    {ruleSet : RuleSet}
    (accepted : (compileRules files text version).ruleSet = some ruleSet) :
    ∃ root,
      Yaml.parse text = .ok root ∧
        (IntegersStored root ruleSet ↔ PlanRatingGroupsFit root) := by
  obtain ⟨root, parsed, rootAccepted⟩ := compileRules_ruleSet_iff.mp accepted
  obtain ⟨sources, read, compiledFrom⟩ :=
    compileRoot_compiledFrom rootAccepted
  refine ⟨root, parsed, ?_⟩
  constructor
  · intro stored line items found item member fieldLine fieldText written plain
    obtain ⟨_, _, otherFound, plansStored⟩ := stored.plans
    cases found.symm.trans otherFound
    obtain ⟨plan, _, planStored⟩ :=
      exists_mem_right_of_forall₂ plansStored member
    rw [← planStored.ratingGroup fieldLine fieldText written plain]
    exact plan.ratingGroup.toNat_lt
  · intro fit
    obtain ⟨_, unsorted, sections, shape⟩ :=
      compileRoot_ruleSet_iff.mp rootAccepted
    obtain ⟨_, redirects, plans, _, _, defaultAction, _, _, _, plansRead, _, _,
      defaultRead, _, sectionsShape⟩ :=
      compileSections_result_iff.mp sections
    have samePlans : ruleSet.plans = plans.plans := by
      rw [shape, sectionsShape]
    have sameDefault : ruleSet.defaultAction = defaultAction := by
      rw [shape, sectionsShape]
    refine
      { rules := rulesStored_of_compiledFrom read compiledFrom
        defaultAction := ?_
        plans := ?_ }
    · intro node found
      rw [found] at defaultRead
      rw [sameDefault]
      exact defaultActionStored_of_result defaultRead
    · obtain ⟨line, items, found, plansOf⟩ := loadPlans_planRead plansRead
      refine ⟨line, items, found, ?_⟩
      rw [samePlans]
      refine List.forall₂_iff_get.mpr ⟨plansOf.length_eq, ?_⟩
      intro index inItems inPlans
      exact ((List.forall₂_iff_get.mp plansOf).2 index inItems
        inPlans).planStored (fit line items found _ (List.get_mem _ _))

/-- A document with one plan of a given rating group. -/
def ratingGroupFile (written rules : String) : Str :=
  ("dnns: [internet]\nplans:\n  - name: basic\n    rating_group: " ++
    written ++ "\nrules: " ++ rules ++ "\n").toList

/-- The rating group the only plan of a document writes. -/
def onlyPlanRatingGroup (root : Node) : Option Node :=
  match root.find "plans".toList with
  | some (.seq _ [item]) => item.find "rating_group".toList
  | _ => none

theorem exists_onlyPlan
    {root field : Node} (only : onlyPlanRatingGroup root = some field) :
    ∃ line item,
      root.find "plans".toList = some (.seq line [item]) ∧
        item.find "rating_group".toList = some field := by
  unfold onlyPlanRatingGroup at only
  split at only
  next line item found => exact ⟨line, item, found, only⟩
  · cases only

/-- A small rating group and the integers of a rule are stored. -/
theorem small_rating_group_stored :
    ∃ ruleSet root,
      (compileRules (fun _ => none)
          (ratingGroupFile "7"
            "[\x7bid: 4294967295, priority: 0, action: \x7barp: 15\x7d\x7d]")
          1).ruleSet = some ruleSet ∧
        Yaml.parse
            (ratingGroupFile "7"
              "[\x7bid: 4294967295, priority: 0, action: \x7barp: 15\x7d\x7d]") =
          .ok root ∧
        PlanRatingGroupsFit root ∧ IntegersStored root ruleSet := by
  obtain ⟨ruleSet, root, accepted, parsed, passed⟩ :=
    exists_of_testDocument
      (ratingGroupFile "7"
        "[\x7bid: 4294967295, priority: 0, action: \x7barp: 15\x7d\x7d]")
      (fun _ root =>
        onlyPlanRatingGroup root == some (.scalar 4 "7".toList))
      (by decide +kernel)
  obtain ⟨line, item, found, written⟩ :=
    exists_onlyPlan (eq_of_beq passed)
  have fit : PlanRatingGroupsFit root := by
    intro otherLine items otherFound other member fieldLine text field _
    cases found.symm.trans otherFound
    cases List.mem_singleton.mp member
    cases written.symm.trans field
    decide +kernel
  obtain ⟨other, otherParsed, stored⟩ :=
    integers_stored_iff_rating_groups_fit accepted
  cases parsed.symm.trans otherParsed
  exact ⟨ruleSet, root, accepted, parsed, fit, stored.mpr fit⟩

/-- A rating group past 32 bits is accepted and stored as zero. -/
theorem large_rating_group_truncated :
    ∃ ruleSet root,
      (compileRules (fun _ => none) (ratingGroupFile "4294967296" "[]")
          1).ruleSet = some ruleSet ∧
        Yaml.parse (ratingGroupFile "4294967296" "[]") = .ok root ∧
        onlyPlanRatingGroup root =
          some (.scalar 4 "4294967296".toList) ∧
        ruleSet.plans.map (·.ratingGroup) = [0] ∧
        ¬ IntegersStored root ruleSet := by
  obtain ⟨ruleSet, root, accepted, parsed, passed⟩ :=
    exists_of_testDocument (ratingGroupFile "4294967296" "[]")
      (fun ruleSet root =>
        onlyPlanRatingGroup root ==
            some (.scalar 4 "4294967296".toList) &&
          ruleSet.plans.map (·.ratingGroup) == [0])
      (by decide +kernel)
  obtain ⟨writes, stores⟩ := Bool.and_eq_true_iff.mp passed
  have only := eq_of_beq writes
  have zero := eq_of_beq stores
  refine ⟨ruleSet, root, accepted, parsed, only, zero, ?_⟩
  intro stored
  obtain ⟨line, item, found, written⟩ := exists_onlyPlan only
  obtain ⟨_, _, otherFound, plansStored⟩ := stored.plans
  cases found.symm.trans otherFound
  obtain ⟨plan, planMember, planStored⟩ :=
    exists_mem_right_of_forall₂ plansStored List.mem_cons_self
  have isZero : plan.ratingGroup = 0 := by
    have amongZeros : plan.ratingGroup ∈ ruleSet.plans.map (·.ratingGroup) :=
      List.mem_map.mpr ⟨plan, planMember, rfl⟩
    rw [zero] at amongZeros
    exact List.mem_singleton.mp amongZeros
  have value :=
    planStored.ratingGroup 4 _ written ⟨by decide, by decide, by decide⟩
  rw [isZero] at value
  exact absurd value (by decide +kernel)

end Policyd
