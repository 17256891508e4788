import Policyd.RuleScan

namespace Policyd

/-!
# Ranges of decisions

The compiler checks verdicts, reasons, flags, redirect targets and bearer
parameters where it reads them.  Together these checks keep every decision of
an accepted file within what the protocol allows.
-/

/-- Bearer parameters: none at all, or a 5QI and a retention priority. -/
def LegalQos (qos5qi arp : UInt8) : Prop :=
  (qos5qi = 0 ∧ arp = 0) ∨ (1 ≤ qos5qi ∧ 1 ≤ arp ∧ arp ≤ 15)

/-- The flag bits a rules file can name. -/
def actionFlagBits : UInt8 :=
  kFlagThrottled ||| kFlagRoamingRestricted ||| kFlagTetheringBlocked |||
    kFlagQuotaWarning ||| kFlagOffPeakBonus

/-- The flag bits a decision can carry. -/
def decisionFlagBits : UInt8 :=
  actionFlagBits ||| kFlagUsageFromRequest

/-- The fields of an action that the compiler checks one by one. -/
structure Action.InRange (targets : List Str) (action : Action) : Prop where
  verdict : action.verdict ≤ 2
  reason : action.reason.toNat < Reason.kCount
  flags : hasFlag action.setFlags (~~~actionFlagBits) = false
  redirect :
    action.redirectId = 0 ∨ action.redirectId.toNat < targets.length
  qos : LegalQos action.qos5qi action.arp

/-- An action the compiler accepts; a redirect names a target. -/
structure Action.Legal (targets : List Str) (action : Action) : Prop
    extends action.InRange targets where
  redirected :
    action.verdict = Verdict.redirect.code → action.redirectId ≠ 0

variable {node plan item : Node} {value : UInt8} {Value : Type} {key : String}
  {read : Node → Option Value} {action : Action} {redirects : Redirects}
  {name : Str} {ruleSet : RuleSet}

theorem Node.as5qi_pos (read : node.as5qi = some value) :
    1 ≤ value := by
  obtain ⟨number, _, checked⟩ := Option.bind_eq_some_iff.mp read
  split at checked
  case isTrue =>
    cases checked
  case isFalse inRange =>
    cases checked
    rw [not_or, UInt64.not_lt, UInt64.le_iff_toNat_le, ← UInt64.toNat_inj]
      at inRange
    rw [UInt8.le_iff_toNat_le, UInt64.toNat_toUInt8]
    simp at inRange ⊢
    omega

theorem Node.asArp_range (read : node.asArp = some value) :
    1 ≤ value ∧ value ≤ 15 := by
  obtain ⟨number, _, checked⟩ := Option.bind_eq_some_iff.mp read
  split at checked
  case isTrue =>
    cases checked
  case isFalse inRange =>
    cases checked
    rw [not_or, UInt64.not_lt, UInt64.not_lt, UInt64.le_iff_toNat_le,
      UInt64.le_iff_toNat_le] at inRange
    rw [UInt8.le_iff_toNat_le, UInt8.le_iff_toNat_le, UInt64.toNat_toUInt8]
    simp at inRange ⊢
    omega

/-- An action field is left alone or set to what its node reads as. -/
theorem actionField_result
    {complaint : Node → Str} {set : Value → Action → Action} {final : Action}
    (accepted :
      (actionField node key read complaint set action).result = some final) :
    (node.find key.toList = none ∧ final = action) ∨
      ∃ field value, node.find key.toList = some field ∧
        read field = some value ∧ final = set value action := by
  unfold actionField at accepted
  cases found : node.find key.toList with
  | none =>
    rw [found] at accepted
    cases accepted
    exact .inl ⟨rfl, rfl⟩
  | some field =>
    rw [found] at accepted
    dsimp only at accepted
    cases readField : read field with
    | none =>
      rw [readField] at accepted
      cases accepted
    | some value =>
      rw [readField] at accepted
      cases accepted
      exact .inr ⟨field, value, rfl, readField, rfl⟩

/-- What holds of an action and of every value read holds behind a field. -/
theorem actionField_keeps
    {complaint : Node → Str} {set : Value → Action → Action} {final : Action}
    (property : Action → Prop)
    (sets : ∀ field value, read field = some value →
      property (set value action))
    (keeps : property action)
    (accepted :
      (actionField node key read complaint set action).result = some final) :
    property final := by
  rcases actionField_result accepted with
    ⟨_, rfl⟩ | ⟨field, value, _, readValue, rfl⟩
  · exact keeps
  · exact sets field value readValue

/-- A mask of names consists of the bits the names stand for. -/
theorem readMask_bits
    {parse : Str → Option UInt8} {what : String} {allowed : UInt8}
    (named : ∀ text mask, parse text = some mask →
      hasFlag mask (~~~allowed) = false)
    {nodes : List Node} {final : UInt8}
    (accepted : (readMask parse what nodes).result = some final) :
    hasFlag final (~~~allowed) = false := by
  induction nodes generalizing final with
  | nil =>
    cases accepted
    simp [hasFlag]
  | cons node later inductionHypothesis =>
    rw [readMask] at accepted
    cases read : node.scalar?.bind parse with
    | none =>
      rw [read] at accepted
      cases accepted
    | some mask =>
      rw [read] at accepted
      obtain ⟨rest, restRead, joined⟩ : ∃ rest,
          (readMask parse what later).result = some rest ∧
            some (mask ||| rest) = some final := by
        simpa [Option.bind_eq_some_iff] using accepted
      cases joined
      obtain ⟨text, _, parsed⟩ := Option.bind_eq_some_iff.mp read
      rw [hasFlag_or, named text mask parsed,
        inductionHypothesis restRead, Bool.or_false]

section Parse

variable {targets : List Str}
variable {node : Node}
variable {action final : Action}

section

variable (inRange : action.InRange targets)

include inRange

/-- The verdict and the reason of an action come from the enumerations. -/
theorem parseOutcome_inRange
    (accepted : (parseOutcome node action).result = some final) :
    final.InRange targets := by
  unfold parseOutcome at accepted
  simp only [Attempt.result_bind, Option.bind_eq_some_iff] at accepted
  obtain ⟨judged, verdictRead, reasoned, reasonRead, rest⟩ := accepted
  have judgedInRange : judged.InRange targets := by
    refine actionField_keeps (Action.InRange targets) ?_ inRange verdictRead
    intro _ verdict _
    exact { inRange with verdict := verdict.code_le }
  have reasonedInRange : reasoned.InRange targets := by
    refine actionField_keeps (Action.InRange targets) ?_ judgedInRange
      reasonRead
    intro _ reason _
    exact { judgedInRange with reason := reason.code_lt }
  cases found : node.find "inherit".toList with
  | none =>
    rw [found] at rest
    cases rest
    exact reasonedInRange
  | some field =>
    rw [found] at rest
    simp only [Attempt.result_bind, Option.bind_eq_some_iff] at rest
    obtain ⟨mask, _, changed⟩ := rest
    cases changed
    exact { reasonedInRange with }

/-- A 5QI and a retention priority are set together. -/
theorem parseQos_inRange
    (accepted : (parseQos node action).result = some final) :
    final.InRange targets := by
  unfold parseQos at accepted
  simp only [Attempt.result_bind, Attempt.result_ite, Attempt.result_warn,
    Option.bind_some, ite_self, Option.bind_eq_some_iff] at accepted
  obtain ⟨classed, qosRead, prioritized, arpRead, rest⟩ := accepted
  rcases actionField_result qosRead with
    ⟨noQos, rfl⟩ | ⟨_, qos, hasQos, qosValue, rfl⟩
  · rcases actionField_result arpRead with
      ⟨noArp, rfl⟩ | ⟨_, arp, hasArp, arpValue, rfl⟩
    · simp only [Node.has, noQos, noArp] at rest
      cases rest
      exact inRange
    · simp only [Node.has, noQos, hasArp] at rest
      cases rest
      have legal : LegalQos 9 arp := .inr ⟨by decide, Node.asArp_range arpValue⟩
      exact { inRange with qos := legal }
  · rcases actionField_result arpRead with
      ⟨noArp, rfl⟩ | ⟨_, arp, hasArp, arpValue, rfl⟩
    · simp only [Node.has, hasQos, noArp] at rest
      cases rest
      have legal : LegalQos qos 8 :=
        .inr ⟨Node.as5qi_pos qosValue, by decide, by decide⟩
      exact { inRange with qos := legal }
    · simp only [Node.has, hasQos, hasArp] at rest
      cases rest
      exact { inRange with
        qos := .inr ⟨Node.as5qi_pos qosValue, Node.asArp_range arpValue⟩ }

/-- Bit rates are not restricted. -/
theorem parseAmbr_inRange
    (accepted : (parseAmbr node action).result = some final) :
    final.InRange targets := by
  unfold parseAmbr at accepted
  simp only [Attempt.result_bind, Attempt.result_ite, Attempt.result_fail,
    Option.bind_eq_some_iff] at accepted
  obtain ⟨uplink, uplinkRead, downlink, downlinkRead, rest⟩ := accepted
  have uplinkInRange : uplink.InRange targets :=
    actionField_keeps (Action.InRange targets)
      (fun _ _ _ => { inRange with }) inRange uplinkRead
  have downlinkInRange : downlink.InRange targets :=
    actionField_keeps (Action.InRange targets)
      (fun _ _ _ => { uplinkInRange with }) uplinkInRange downlinkRead
  split_ifs at rest
  · cases rest
    exact { downlinkInRange with }
  · cases rest
    exact downlinkInRange

/-- Quota, validity and rating group are not restricted. -/
theorem parseQuota_inRange
    (accepted : (parseQuota node action).result = some final) :
    final.InRange targets := by
  unfold parseQuota at accepted
  simp only [Attempt.result_bind, Option.bind_eq_some_iff] at accepted
  obtain ⟨granted, quotaRead, limited, validityRead, ratingRead⟩ := accepted
  have grantedInRange : granted.InRange targets :=
    actionField_keeps (Action.InRange targets)
      (fun _ _ _ => { inRange with }) inRange quotaRead
  have limitedInRange : limited.InRange targets :=
    actionField_keeps (Action.InRange targets)
      (fun _ _ _ => { grantedInRange with }) grantedInRange validityRead
  exact actionField_keeps (Action.InRange targets)
    (fun _ _ _ => { limitedInRange with }) limitedInRange ratingRead

end

variable {redirects : Redirects}

/-- A redirect names a target of the table. -/
theorem parseRedirect_legal
    (placed : ∀ name id, redirects.idOf name = some id →
      id.toNat < targets.length)
    (inRange : action.InRange targets)
    (accepted : (parseRedirect redirects node action).result = some final) :
    final.Legal targets := by
  unfold parseRedirect at accepted
  simp only [Attempt.result_bind, Attempt.result_ite, Attempt.result_fail,
    Option.bind_eq_some_iff] at accepted
  obtain ⟨aimed, redirectRead, rest⟩ := accepted
  have aimedInRange : aimed.InRange targets := by
    refine actionField_keeps (Action.InRange targets) ?_ inRange redirectRead
    intro field id read
    obtain ⟨name, _, known⟩ := Option.bind_eq_some_iff.mp read
    exact { inRange with redirect := .inr (placed name id known) }
  split_ifs at rest with aimless
  cases rest
  exact { aimedInRange with
    redirected := fun redirected isZero => aimless ⟨redirected, isZero⟩ }

theorem parseDecisionFlag_bits
    {text : Str} {mask : UInt8} (parsed : parseDecisionFlag text = some mask) :
    hasFlag mask (~~~actionFlagBits) = false := by
  unfold parseDecisionFlag at parsed
  dsimp only at parsed
  split_ifs at parsed <;> cases parsed <;> decide

theorem parseFlags_legal (legal : action.Legal targets)
    (accepted : (parseFlags node action).result = some final) :
    final.Legal targets := by
  unfold parseFlags at accepted
  cases found : node.find "flags".toList with
  | none =>
    rw [found] at accepted
    cases accepted
    exact legal
  | some field =>
    rw [found] at accepted
    simp only [Attempt.result_bind, Option.bind_eq_some_iff] at accepted
    obtain ⟨mask, maskRead, changed⟩ := accepted
    cases changed
    have bits := readMask_bits (fun _ _ => parseDecisionFlag_bits) maskRead
    exact { legal with
      flags := by rw [hasFlag_or, legal.flags, bits, Bool.or_false] }

/-- An accepted action was read group by group. -/
theorem parseAction_result
    (accepted : (parseAction redirects node action).result = some final) :
    ∃ judged classed rated granted aimed,
      (parseOutcome node action).result = some judged ∧
        (parseQos node judged).result = some classed ∧
        (parseAmbr node classed).result = some rated ∧
        (parseQuota node rated).result = some granted ∧
        (parseRedirect redirects node granted).result = some aimed ∧
        (parseFlags node aimed).result = some final := by
  unfold parseAction at accepted
  have warned : (warnUnknownKeys node actionKeys).result = some () := rfl
  simp only [Attempt.result_bind, Attempt.result_ite, Attempt.result_fail,
    warned, Option.bind_some] at accepted
  split_ifs at accepted
  simp only [Option.bind_eq_some_iff] at accepted
  obtain ⟨judged, outcome, classed, qos, rated, ambr, granted, quota, aimed,
    redirect, flags⟩ := accepted
  exact ⟨judged, classed, rated, granted, aimed, outcome, qos, ambr, quota,
    redirect, flags⟩

theorem parseAction_legal
    (placed : ∀ name id, redirects.idOf name = some id →
      id.toNat < targets.length)
    (inRange : action.InRange targets)
    (accepted : (parseAction redirects node action).result = some final) :
    final.Legal targets := by
  obtain ⟨judged, classed, rated, granted, aimed, outcome, qos, ambr, quota,
    redirect, flags⟩ := parseAction_result accepted
  have grantedInRange : granted.InRange targets :=
    parseQuota_inRange
      (parseAmbr_inRange
        (parseQos_inRange (parseOutcome_inRange inRange outcome) qos) ambr)
      quota
  exact parseFlags_legal (parseRedirect_legal placed grantedInRange redirect)
    flags

end Parse

/-- The identifiers of a redirect table are positions of its targets. -/
def Redirects.Placed (redirects : Redirects) : Prop :=
  ∀ entry ∈ redirects.ids, entry.2.toNat < redirects.targets.length

theorem Redirects.Placed.idOf (placed : redirects.Placed) {id : UInt8}
    (known : redirects.idOf name = some id) :
    id.toNat < redirects.targets.length := by
  obtain ⟨entry, found, rfl⟩ := Option.map_eq_some_iff.mp known
  exact placed entry (List.mem_of_find?_eq_some found)

/-- Each redirect name gets the position of its target. -/
theorem loadRedirectFields_placed
    {fields : List (Str × Node)} {final : Redirects}
    (placed : redirects.Placed)
    (loaded : (loadRedirectFields fields redirects).result = some final) :
    final.Placed := by
  induction fields generalizing redirects with
  | nil =>
    cases loaded
    exact placed
  | cons field later inductionHypothesis =>
    obtain ⟨name, target⟩ := field
    rw [loadRedirectFields] at loaded
    split_ifs at loaded with full notScalar
    · simp at loaded
    · simp at loaded
    · refine inductionHypothesis ?_ loaded
      have roomLeft : redirects.targets.length < 256 :=
        (Nat.lt_of_not_le full).trans (by decide)
      intro entry member
      rw [List.length_append, List.length_singleton]
      rcases List.mem_cons.mp member with rfl | earlier
      · rw [UInt8.toNat_ofNat_of_lt' roomLeft]
        exact Nat.lt_succ_self _
      · exact (placed entry earlier).trans (Nat.lt_succ_self _)

theorem loadRedirects_placed {node : Option Node}
    (loaded : (loadRedirects node).result = some redirects) :
    redirects.Placed := by
  have emptyPlaced : ∀ targets, Redirects.Placed { targets := targets } :=
    fun _ _ member => nomatch member
  unfold loadRedirects at loaded
  split at loaded
  · cases loaded
    exact emptyPlaced []
  · exact loadRedirectFields_placed (emptyPlaced _) loaded
  · simp at loaded

/-- A plan at a position of the plan table. -/
structure PlanConfig.InRange (plan : PlanConfig) (index : Nat) : Prop where
  id : plan.id.toNat = index
  qos : 1 ≤ plan.qos5qi
  arp : 1 ≤ plan.arp ∧ plan.arp ≤ 15

/-- A plan field holds its default or what its node reads as. -/
def FieldRead
    {Value : Type}
    (plan : Node) (key : String) (read : Node → Option Value)
    (default value : Value) : Prop :=
  (plan.find key.toList = none ∧ value = default) ∨
    ∃ field, plan.find key.toList = some field ∧ read field = some value

/-- A field that was accepted. -/
theorem fieldRead_of_planField {complaint : String} {default value : Value}
    (accepted :
      (planField plan key read complaint default).result = some value) :
    FieldRead plan key read default value := by
  unfold planField at accepted
  cases found : plan.find key.toList with
  | none =>
    rw [found] at accepted
    cases accepted
    exact .inl ⟨found, rfl⟩
  | some field =>
    rw [found] at accepted
    dsimp only at accepted
    cases readField : read field with
    | none =>
      rw [readField] at accepted
      cases accepted
    | some content =>
      rw [readField] at accepted
      cases accepted
      exact .inr ⟨field, found, readField⟩

theorem FieldRead.keeps {default value : Value}
    (fieldRead : FieldRead plan key read default value)
    (property : Value → Prop)
    (reads : ∀ field content, read field = some content → property content)
    (keeps : property default) :
    property value := by
  rcases fieldRead with ⟨_, rfl⟩ | ⟨field, _, readField⟩
  · exact keeps
  · exact reads field value readField

theorem fieldRead_of_req5qi {default : UInt8}
    (accepted : (req5qi plan key default).result = some value) :
    FieldRead plan key Node.as5qi default value := by
  unfold req5qi at accepted
  rw [Report.result_bind, Option.bind_eq_some_iff] at accepted
  obtain ⟨content, contentRead, rest⟩ := accepted
  have unchanged : content = value := by
    dsimp only at rest
    split at rest
    · simpa using rest
    · simpa using rest
  rw [← unchanged]
  exact fieldRead_of_planField contentRead

/-- What the fields of a plan were read from. -/
structure PlanRead (item : Node) (plan : PlanConfig) : Prop where
  qos5qi : FieldRead item "qos_5qi" Node.as5qi 9 plan.qos5qi
  arp : FieldRead item "arp" Node.asArp 8 plan.arp
  quotaBytes : FieldRead item "quota" Node.asBytes 0 plan.quotaBytes
  ratingGroup :
    ∃ number,
      FieldRead item "rating_group" Node.asUint 0 number ∧
        plan.ratingGroup = number.toUInt32
  tethering :
    FieldRead item "tethering" Node.asBool false
      (plan.flags &&& kPlanTetheringAllowed != 0)

/-- A plan that was accepted was read field by field. -/
theorem planRead_of_result {id : Nat} {plan : PlanConfig}
    (accepted : (readPlan item name id).result = some plan) :
    plan.id = UInt32.ofNat id ∧ PlanRead item plan := by
  unfold readPlan at accepted
  simp only [Report.result_bind, Option.bind_eq_some_iff] at accepted
  obtain ⟨qos5qi, qosRead, arp, arpRead, _, _, _, _, quotaBytes, quotaRead, _,
    _, ratingGroup, ratingRead, tethering, tetheringRead, roaming, _,
    built⟩ := accepted
  have flag :
      (((if tethering then kPlanTetheringAllowed else 0) |||
          (if roaming then kPlanRoamingAllowed else 0)) &&&
          kPlanTetheringAllowed != 0) =
        tethering := by
    cases tethering <;> cases roaming <;> rfl
  have planShape :
      plan =
        { plan with
          id := UInt32.ofNat id
          qos5qi := qos5qi
          arp := arp
          quotaBytes := quotaBytes
          ratingGroup := ratingGroup.toUInt32
          flags :=
            (if tethering then kPlanTetheringAllowed else 0) |||
              (if roaming then kPlanRoamingAllowed else 0) } := by
    split at built <;> cases built <;> rfl
  rw [planShape]
  exact ⟨rfl,
    { qos5qi := fieldRead_of_req5qi qosRead
      arp := fieldRead_of_planField arpRead
      quotaBytes := fieldRead_of_planField quotaRead
      ratingGroup := ⟨ratingGroup, fieldRead_of_planField ratingRead, rfl⟩
      tethering := by
        rw [flag]
        exact fieldRead_of_planField tetheringRead }⟩

theorem readPlan_inRange {id : Nat} {plan : PlanConfig}
    (inTable : id < kMaxPlans)
    (accepted : (readPlan item name id).result = some plan) :
    plan.InRange id := by
  obtain ⟨idShape, planRead⟩ := planRead_of_result accepted
  refine ⟨?_, ?_, ?_⟩
  · rw [idShape, UInt32.toNat_ofNat_of_lt' (inTable.trans (by decide))]
  · exact planRead.qos5qi.keeps (1 ≤ ·) (fun _ _ => Node.as5qi_pos) (by decide)
  · exact planRead.arp.keeps (fun value => 1 ≤ value ∧ value ≤ 15)
      (fun _ _ => Node.asArp_range) (by decide)

theorem loadPlanItems_planRead {items : List Node} {table final : PlanTable}
    (loaded : (loadPlanItems items table).result = some final) :
    ∃ added,
      final.plans = table.plans ++ added ∧
        List.Forall₂ PlanRead items added := by
  induction items generalizing table with
  | nil =>
    cases loaded
    exact ⟨[], (List.append_nil _).symm, .nil⟩
  | cons item later inductionHypothesis =>
    obtain ⟨name, plan, _, _, planAccepted, rest⟩ :=
      loadPlanItems_cons_result loaded
    obtain ⟨added, shape, addedRead⟩ := inductionHypothesis rest
    refine ⟨plan :: added, ?_,
      .cons (planRead_of_result planAccepted).2 addedRead⟩
    rw [shape, List.append_assoc, List.singleton_append]

/-- The plans of an accepted file are read from the items of its section. -/
theorem loadPlans_planRead {node : Option Node} {plans : PlanTable}
    (loaded : (loadPlans node).result = some plans) :
    ∃ line items,
      node = some (.seq line items) ∧
        List.Forall₂ PlanRead items plans.plans := by
  unfold loadPlans at loaded
  split at loaded
  · next line item later =>
      obtain ⟨added, shape, addedRead⟩ := loadPlanItems_planRead loaded
      refine ⟨line, item :: later, rfl, ?_⟩
      rw [shape]
      exact addedRead
  · simp at loaded

/-- Every plan of a table is in range at its position. -/
def PlanTable.InRange (table : PlanTable) : Prop :=
  ∀ (index : Nat) (plan : PlanConfig),
    table.plans[index]? = some plan → plan.InRange index

/-- Plans are read into consecutive positions. -/
theorem loadPlanItems_inRange {items : List Node} {table final : PlanTable}
    (sameLength : table.plans.length = table.names.length)
    (inRange : table.InRange)
    (loaded : (loadPlanItems items table).result = some final) :
    final.InRange := by
  induction items generalizing table with
  | nil =>
    cases loaded
    exact inRange
  | cons item later inductionHypothesis =>
    obtain ⟨name, plan, _, roomLeft, planRead, rest⟩ :=
      loadPlanItems_cons_result loaded
    have lastInRange := readPlan_inRange roomLeft planRead
    refine inductionHypothesis ?_ ?_ rest
    · rw [List.length_append, List.length_append, sameLength]
      rfl
    · intro index other found
      by_cases earlier : index < table.plans.length
      · rw [List.getElem?_append_left earlier] at found
        exact inRange index other found
      · rw [List.getElem?_append_right (Nat.le_of_not_lt earlier),
          List.getElem?_singleton] at found
        split_ifs at found with atEnd
        cases found
        have position : index = table.names.length := by
          omega
        rw [position]
        exact lastInRange

theorem loadPlans_inRange {node : Option Node} {plans : PlanTable}
    (loaded : (loadPlans node).result = some plans) :
    plans.InRange := by
  unfold loadPlans at loaded
  split at loaded
  · refine loadPlanItems_inRange rfl ?_ loaded
    intro index plan found
    cases found
  · simp at loaded

/-- A rule set whose actions and plans are in range. -/
structure RuleSet.InRange (ruleSet : RuleSet) : Prop where
  rules : ∀ rule ∈ ruleSet.rules,
    rule.id ≠ 0 ∧ rule.action.Legal ruleSet.redirectTargets
  defaultAction : ruleSet.defaultAction.Legal ruleSet.redirectTargets
  plans : ∀ (index : Nat) (plan : PlanConfig),
    ruleSet.plans[index]? = some plan → plan.InRange index

theorem ruleActionDefaults_inRange (targets : List Str) :
    ruleActionDefaults.InRange targets :=
  { verdict := by decide
    reason := by decide
    flags := by decide
    redirect := .inl rfl
    qos := .inl ⟨rfl, rfl⟩ }

theorem defaultDenyAction_legal (targets : List Str) :
    defaultDenyAction.Legal targets :=
  { verdict := by decide
    reason := by decide
    flags := by decide
    redirect := .inl rfl
    qos := .inl ⟨rfl, rfl⟩
    redirected := by decide }

theorem loadDefaultAction_legal (placed : redirects.Placed) {node : Option Node}
    (loaded : (loadDefaultAction redirects node).result = some action) :
    action.Legal redirects.targets := by
  cases node with
  | none =>
    cases loaded
    exact defaultDenyAction_legal _
  | some node =>
    simp only [loadDefaultAction, Report.result_bind,
      Attempt.result_toReport, Option.bind_eq_some_iff,
      Option.map_eq_some_iff] at loaded
    obtain ⟨_, ⟨parsed, accepted, rfl⟩, chosen⟩ := loaded
    cases chosen
    exact parseAction_legal (fun _ _ => placed.idOf)
      (defaultDenyAction_legal _).toInRange accepted

theorem readRule_action_legal (placed : redirects.Placed) {source : SourceRule}
    (read : readRule redirects item = some source) :
    source.action.Legal redirects.targets := by
  obtain ⟨node, _, accepted⟩ := parseAction_of_readRule read
  exact parseAction_legal (fun _ _ => placed.idOf)
    (ruleActionDefaults_inRange _) accepted

/-- The rule set of an accepted file is in range. -/
theorem compileRoot_inRange
    {files : Str → Option Str} {root : Node} {version : UInt32}
    (accepted : (compileRoot files root version).ruleSet = some ruleSet) :
    ruleSet.InRange := by
  obtain ⟨sources, sourcesRead, compiledFrom⟩ :=
    compileRoot_compiledFrom accepted
  obtain ⟨_, unsorted, sections, rfl⟩ := compileRoot_ruleSet_iff.mp accepted
  obtain ⟨dnnNames, redirects, plans, partners, blocklist, defaultAction,
    load, _, redirectsRead, plansRead, _, _, defaultRead, _, rfl⟩ :=
    compileSections_result_iff.mp sections
  have placed := loadRedirects_placed redirectsRead
  refine
    { rules := ?_
      defaultAction := loadDefaultAction_legal placed defaultRead
      plans := loadPlans_inRange plansRead }
  intro rule member
  obtain ⟨source, sourceMember, sameId, _, sameAction⟩ :=
    compiledFrom.exists_source_of_mem member
  rw [sameId, sameAction]
  refine ⟨compiledFrom.idsNonzero source sourceMember, ?_⟩
  obtain ⟨_, items, _, itemsRead⟩ := exists_items_of_sourceRules sourcesRead
  obtain ⟨item, _, itemRead⟩ := exists_mem_of_mem_mapM itemsRead sourceMember
  rw [(Report.result_eq_some_iff.mp redirectsRead).2] at itemRead
  exact readRule_action_legal placed itemRead

/-- What a decision may carry. -/
structure PolicyDecision.WellFormed
    (ruleSet : RuleSet)
    (decision : PolicyDecision) : Prop where
  verdict : decision.verdict ≤ 2
  reason : decision.reason.toNat < Reason.kCount
  flags : hasFlag decision.flags (~~~decisionFlagBits) = false
  redirect :
    decision.redirectId = 0 ∨
      decision.redirectId.toNat < ruleSet.redirectTargets.length
  redirected :
    decision.verdict = Verdict.redirect.code → decision.redirectId ≠ 0
  denied :
    decision.verdict = Verdict.deny.code →
      decision.qos5qi = 0 ∧ decision.arp = 0 ∧ decision.ambrUlKbps = 0 ∧
        decision.ambrDlKbps = 0 ∧ decision.quotaBytes = 0 ∧
        decision.quotaValidityS = 0
  granted :
    decision.verdict ≠ Verdict.deny.code →
      LegalQos decision.qos5qi decision.arp

private theorem decisionFlags_within {flags : UInt8}
    (within : hasFlag flags (~~~actionFlagBits) = false)
    (usageFromRequest : Bool) :
    hasFlag
        (if usageFromRequest then flags ||| kFlagUsageFromRequest else flags)
        (~~~decisionFlagBits) = false := by
  have parted :
      hasFlag flags (~~~decisionFlagBits ||| kFlagUsageFromRequest) =
        false :=
    within
  have swapped : ∀ first second, hasFlag first second = hasFlag second first :=
    fun first second => by rw [hasFlag, hasFlag, UInt8.and_comm]
  rw [swapped, hasFlag_or, Bool.or_eq_false_iff] at parted
  have without : hasFlag flags (~~~decisionFlagBits) = false := by
    rw [swapped]
    exact parted.1
  cases usageFromRequest with
  | false => exact without
  | true =>
    rw [if_pos rfl, hasFlag_or, without]
    decide

/-- Bearer parameters come from a plan or from a legal action. -/
private theorem legalQos_inherited
    (inRange : ruleSet.InRange) (record : Option SubscriberRecord)
    (legal : LegalQos action.qos5qi action.arp) (inherits : Bool) :
    let plan := if inherits then planOf ruleSet record else none
    LegalQos ((plan.map (·.qos5qi)).getD action.qos5qi)
      ((plan.map (·.arp)).getD action.arp) := by
  dsimp only
  cases shape : (if inherits then planOf ruleSet record else none) with
  | none => exact legal
  | some plan =>
    split_ifs at shape
    obtain ⟨subscriber, _, found⟩ := Option.bind_eq_some_iff.mp shape
    have planInRange := inRange.plans _ plan found
    exact .inr ⟨planInRange.qos, planInRange.arp⟩

theorem decisionFor_wellFormed
    (inRange : ruleSet.InRange) (request : PolicyRequest)
    (record : Option SubscriberRecord)
    {fired : Option (UInt32 × Action)}
    (legal : ∀ rule ∈ fired, rule.2.Legal ruleSet.redirectTargets) :
    (decisionFor ruleSet request record fired).WellFormed ruleSet := by
  have actionLegal :
      ((fired.map Prod.snd).getD ruleSet.defaultAction).Legal
        ruleSet.redirectTargets := by
    cases fired with
    | none => exact inRange.defaultAction
    | some rule => exact legal rule rfl
  unfold decisionFor
  generalize (fired.map Prod.snd).getD ruleSet.defaultAction = action
    at actionLegal
  have reasonInRange :
      (if fired.isSome then action.reason
        else Reason.noMatchingRule.code).toNat < Reason.kCount := by
    split
    · exact actionLegal.reason
    · decide
  have flagsWithin :=
    decisionFlags_within actionLegal.flags
      (hasFlag request.flags kReqFlagUsageValid)
  have qos :=
    legalQos_inherited inRange record actionLegal.qos
      (hasFlag action.inheritMask kInheritQos)
  dsimp only at qos ⊢
  split
  case isTrue denies =>
    exact
      { actionLegal with
        reason := reasonInRange
        flags := flagsWithin
        denied := fun _ => ⟨rfl, rfl, rfl, rfl, rfl, rfl⟩
        granted := fun grants => (grants denies).elim }
  case isFalse grants =>
    exact
      { actionLegal with
        reason := reasonInRange
        flags := flagsWithin
        denied := fun denies => (grants denies).elim
        granted := fun _ => qos }

theorem evaluate_wellFormed
    (inRange : ruleSet.InRange) (request : PolicyRequest)
    (record : Option SubscriberRecord) (now : UInt64) :
    (evaluate ruleSet request record now).WellFormed ruleSet := by
  refine decisionFor_wellFormed inRange request record ?_
  intro rule fired
  obtain ⟨hit, found, rfl⟩ := Option.map_eq_some_iff.mp fired
  exact (inRange.rules hit (List.mem_of_find?_eq_some found)).2

theorem malformedDecision_wellFormed
    (ruleSet : RuleSet) (seq : UInt32) (clientTsNs : UInt64)
    (policyVersion : UInt32) :
    (malformedDecision seq clientTsNs policyVersion).WellFormed ruleSet :=
  { verdict := Verdict.deny.code_le
    reason := Reason.malformedRequest.code_lt
    flags := (by decide : hasFlag 0 (~~~decisionFlagBits) = false)
    redirect := .inl rfl
    redirected := fun redirects =>
      absurd redirects (by decide : Verdict.deny.code ≠ Verdict.redirect.code)
    denied := fun _ => ⟨rfl, rfl, rfl, rfl, rfl, rfl⟩
    granted := fun _ => .inl ⟨rfl, rfl⟩ }

theorem evaluate_of_no_hit
    {request : PolicyRequest} {record : Option SubscriberRecord} {now : UInt64}
    (noHit : firstHit ruleSet request record now = none) :
    (evaluate ruleSet request record now).reason =
        Reason.noMatchingRule.code ∧
      (evaluate ruleSet request record now).verdict =
        ruleSet.defaultAction.verdict := by
  unfold evaluate decisionFor
  rw [noHit]
  dsimp only [Option.map_none, Option.getD_none]
  split <;> exact ⟨rfl, rfl⟩

theorem compileRoot_defaultAction
    {files : Str → Option Str} {root : Node} {version : UInt32}
    (accepted : (compileRoot files root version).ruleSet = some ruleSet)
    (silent : root.find "default_action".toList = none) :
    ruleSet.defaultAction = defaultDenyAction := by
  obtain ⟨_, unsorted, sections, rfl⟩ := compileRoot_ruleSet_iff.mp accepted
  obtain ⟨_, _, _, _, _, defaultAction, _, _, _, _, _, _, defaultRead, _,
    rfl⟩ := compileSections_result_iff.mp sections
  rw [silent] at defaultRead
  exact (Option.some.inj defaultRead).symm

/--
Every decision of an accepted document is well formed.  It names no rule
exactly when no compiled rule matches; it then says so, and denies unless the
document has a default action.
-/
theorem decisions_well_formed
    {files : Str → Option Str}
    {text : Str}
    {version : UInt32}
    {ruleSet : RuleSet}
    (accepted :
      (compileRules files text version).ruleSet = some ruleSet)
    (request : PolicyRequest)
    (record : Option SubscriberRecord)
    (now : UInt64) :
    (evaluate ruleSet request record now).WellFormed ruleSet ∧
      ((evaluate ruleSet request record now).ruleId = 0 ↔
        ∀ rule ∈ ruleSet.rules,
          rule.matches (buildFeatures ruleSet request record now)
            (planBitFor record) = false) ∧
      ((evaluate ruleSet request record now).ruleId = 0 →
        (evaluate ruleSet request record now).reason =
            Reason.noMatchingRule.code ∧
          ∀ root, Yaml.parse text = .ok root →
            root.find "default_action".toList = none →
              (evaluate ruleSet request record now).verdict =
                Verdict.deny.code) := by
  obtain ⟨root, parsed, rootAccepted⟩ := compileRules_ruleSet_iff.mp accepted
  have inRange := compileRoot_inRange rootAccepted
  have noRule_iff :
      (evaluate ruleSet request record now).ruleId = 0 ↔
        firstHit ruleSet request record now = none := by
    rw [ruleId_evaluate]
    cases found : firstHit ruleSet request record now with
    | none =>
      simp
    | some hit =>
      have nonzero :=
        (inRange.rules hit (List.mem_of_find?_eq_some found)).1
      simpa using nonzero
  refine ⟨evaluate_wellFormed inRange request record now, ?_, ?_⟩
  · rw [noRule_iff, firstHit, List.find?_eq_none]
    simp only [Bool.not_eq_true]
  · intro noRule
    obtain ⟨reason, verdict⟩ := evaluate_of_no_hit (noRule_iff.mp noRule)
    refine ⟨reason, ?_⟩
    intro document documentParsed silent
    rw [parsed] at documentParsed
    cases documentParsed
    rw [verdict, compileRoot_defaultAction rootAccepted silent]
    rfl

/-- The denial of the only rule of a file is well formed. -/
theorem decisions_well_formed_listed_rat :
    ∃ ruleSet,
      (compileRules (fun _ => none) listedRatFile 1).ruleSet =
          some ruleSet ∧
        (evaluate ruleSet nrRequest (some basicRecord) 0).WellFormed
          ruleSet := by
  obtain ⟨ruleSet, _, _, accepted, _⟩ := exists_listedRat
  exact ⟨ruleSet, accepted,
    (decisions_well_formed accepted nrRequest (some basicRecord) 0).1⟩

end Policyd
