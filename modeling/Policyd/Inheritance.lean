import Policyd.TableInvariant

namespace Policyd

/-!
# Inheritance from the plan

An action that inherits everything takes from the subscriber's plan what it
does not write itself.  The parser keeps one inherit bit for each group of
fields and clears it as soon as one field of the group is written.  The bit
rates come in pairs or not at all, and half a QoS pair is completed by
defaults; of half a quota pair the field left out is sent as zero.
-/

/-- The value an action writes for a field. -/
def writtenField
    {Value : Type}
    (node : Node) (key : String) (read : Node → Option Value) :
    Option Value :=
  (node.find key.toList).bind read

/-- The authorization fields an action writes. -/
structure WrittenFields where
  qos5qi : Option UInt8
  arp : Option UInt8
  ambrUl : Option UInt32
  ambrDl : Option UInt32
  quota : Option UInt64
  quotaValidity : Option UInt32
  ratingGroup : Option UInt32
  deriving Repr, DecidableEq

/-- The authorization fields of an action node. -/
def Node.writtenFields (node : Node) : WrittenFields :=
  { qos5qi := writtenField node "qos_5qi" Node.as5qi
    arp := writtenField node "arp" Node.asArp
    ambrUl := writtenField node "ambr_ul" Node.asKbps
    ambrDl := writtenField node "ambr_dl" Node.asKbps
    quota := writtenField node "quota" Node.asBytes
    quotaValidity := writtenField node "quota_validity" Node.asSeconds
    ratingGroup := writtenField node "rating_group" Node.asRatingGroup }

/-- The fields an action node names as inherited; without the key all. -/
def Node.inheritedFields (node : Node) : Option UInt8 :=
  match node.find "inherit".toList with
  | none => some kInheritAll
  | some field =>
    (readMask parseInherit "unknown inherit field" field.asList).result

/-- The inherited fields left once a group has been written. -/
def stillInherited (mask : UInt8) (written : Bool) (group : UInt8) :
    UInt8 :=
  if written then mask &&& ~~~group else mask

namespace WrittenFields

/-- The action writes at least one half of the QoS pair. -/
def setsQos (fields : WrittenFields) : Bool :=
  fields.qos5qi.isSome || fields.arp.isSome

/-- The action writes at least one half of the quota pair. -/
def setsQuota (fields : WrittenFields) : Bool :=
  fields.quota.isSome || fields.quotaValidity.isSome

/-- The inherit mask of an action that inherits what it does not write. -/
def inheritMask (fields : WrittenFields) (mask : UInt8) : UInt8 :=
  stillInherited
    (stillInherited
      (stillInherited
        (stillInherited mask fields.setsQos kInheritQos)
        fields.ambrUl.isSome kInheritAmbr)
      fields.setsQuota kInheritQuota)
    fields.ratingGroup.isSome kInheritRatingGroup

theorem hasFlag_inheritMask (fields : WrittenFields) :
    hasFlag (fields.inheritMask kInheritAll) kInheritQos =
        !fields.setsQos ∧
      hasFlag (fields.inheritMask kInheritAll) kInheritAmbr =
        !fields.ambrUl.isSome ∧
      hasFlag (fields.inheritMask kInheritAll) kInheritQuota =
        !fields.setsQuota ∧
      hasFlag (fields.inheritMask kInheritAll) kInheritRatingGroup =
        !fields.ratingGroup.isSome := by
  unfold inheritMask
  cases fields.setsQos <;> cases fields.ambrUl.isSome <;>
    cases fields.setsQuota <;> cases fields.ratingGroup.isSome <;> decide

end WrittenFields

/-- An action with the authorization fields of its node. -/
structure Action.Carries
    (action : Action)
    (mask : UInt8)
    (fields : WrittenFields) : Prop where
  inheritMask : action.inheritMask = fields.inheritMask mask
  qos :
    fields.setsQos = true →
      action.qos5qi = fields.qos5qi.getD 9 ∧ action.arp = fields.arp.getD 8
  ambrTogether : fields.ambrUl.isSome = fields.ambrDl.isSome
  ambr :
    action.ambrUlKbps = fields.ambrUl.getD 0 ∧
      action.ambrDlKbps = fields.ambrDl.getD 0
  quota :
    action.quotaBytes = fields.quota.getD 0 ∧
      action.quotaValidityS = fields.quotaValidity.getD 0
  ratingGroup : action.ratingGroup = fields.ratingGroup.getD 0

/-- An optional field that was accepted. -/
theorem actionField_eq
    {Value : Type} {node : Node} {key : String} {read : Node → Option Value}
    {complaint : Node → Str} {set : Value → Action → Action}
    {action final : Action}
    (accepted :
      (actionField node key read complaint set action).result = some final) :
    final = (writtenField node key read).elim action (set · action) ∧
      node.has key.toList = (writtenField node key read).isSome := by
  rcases actionField_result accepted with
    ⟨missing, rfl⟩ | ⟨field, value, found, readValue, rfl⟩
  · simp [writtenField, Node.has, missing]
  · simp [writtenField, Node.has, found, readValue]

section Parse

variable {node : Node}
variable {action final : Action}

/-- The outcome sets the inherited fields and no other authorization. -/
theorem parseOutcome_eq
    (accepted : (parseOutcome node action).result = some final)
    (inheritsAll : action.inheritMask = kInheritAll) :
    node.inheritedFields = some final.inheritMask ∧
      final =
        { action with
          verdict := final.verdict
          reason := final.reason
          inheritMask := final.inheritMask } := by
  unfold parseOutcome at accepted
  simp only [Attempt.result_bind, Option.bind_eq_some_iff] at accepted
  obtain ⟨judged, verdictRead, reasoned, reasonRead, rest⟩ := accepted
  have reasonedEq :
      reasoned =
        { action with
          verdict := reasoned.verdict, reason := reasoned.reason } := by
    rcases actionField_result verdictRead with
      ⟨_, rfl⟩ | ⟨_, _, _, _, rfl⟩ <;>
      rcases actionField_result reasonRead with
        ⟨_, rfl⟩ | ⟨_, _, _, _, rfl⟩ <;> rfl
  have sameMask : reasoned.inheritMask = kInheritAll := by
    rw [reasonedEq]
    exact inheritsAll
  unfold Node.inheritedFields
  cases found : node.find "inherit".toList with
  | none =>
    rw [found] at rest
    cases rest
    refine ⟨by rw [sameMask], ?_⟩
    rw [reasonedEq]
  | some field =>
    rw [found] at rest
    simp only [Attempt.result_bind, Option.bind_eq_some_iff] at rest
    obtain ⟨mask, maskRead, changed⟩ := rest
    cases changed
    refine ⟨maskRead, ?_⟩
    rw [reasonedEq]

theorem and_not_twice (mask group : UInt8) :
    mask &&& ~~~group &&& ~~~group = mask &&& ~~~group := by
  rw [UInt8.and_assoc, UInt8.and_self]

/-- The QoS pair as it is written, completed by defaults. -/
theorem parseQos_eq (accepted : (parseQos node action).result = some final) :
    node.has "qos_5qi".toList = node.writtenFields.qos5qi.isSome ∧
      node.has "arp".toList = node.writtenFields.arp.isSome ∧
      final =
        { action with
          inheritMask :=
            stillInherited action.inheritMask node.writtenFields.setsQos
              kInheritQos
          qos5qi :=
            if node.writtenFields.setsQos then
              node.writtenFields.qos5qi.getD 9
            else
              action.qos5qi
          arp :=
            if node.writtenFields.setsQos then
              node.writtenFields.arp.getD 8
            else
              action.arp } := by
  unfold parseQos at accepted
  simp only [Attempt.result_bind, Attempt.result_ite, Attempt.result_warn,
    Option.bind_some, ite_self, Option.bind_eq_some_iff] at accepted
  obtain ⟨classed, qosRead, prioritized, arpRead, rest⟩ := accepted
  obtain ⟨rfl, hasQos⟩ := actionField_eq qosRead
  obtain ⟨rfl, hasArp⟩ := actionField_eq arpRead
  refine ⟨hasQos, hasArp, ?_⟩
  rw [hasQos, hasArp] at rest
  unfold WrittenFields.setsQos Node.writtenFields
  dsimp only
  cases qos : writtenField node "qos_5qi" Node.as5qi <;>
    cases arp : writtenField node "arp" Node.asArp <;>
    rw [qos, arp] at rest <;> cases rest
  · rfl
  · rfl
  · rfl
  · simp only [Option.elim_some, Action.override, and_not_twice]
    rfl

/-- The bit rates as they are written, both or none. -/
theorem parseAmbr_eq (accepted : (parseAmbr node action).result = some final) :
    node.writtenFields.ambrUl.isSome = node.writtenFields.ambrDl.isSome ∧
      final =
        { action with
          inheritMask :=
            stillInherited action.inheritMask
              node.writtenFields.ambrUl.isSome kInheritAmbr
          ambrUlKbps :=
            node.writtenFields.ambrUl.getD action.ambrUlKbps
          ambrDlKbps :=
            node.writtenFields.ambrDl.getD action.ambrDlKbps } := by
  unfold parseAmbr at accepted
  simp only [Attempt.result_bind, Attempt.result_ite, Attempt.result_fail,
    Option.bind_eq_some_iff] at accepted
  obtain ⟨uplink, uplinkRead, downlink, downlinkRead, rest⟩ := accepted
  obtain ⟨rfl, hasUplink⟩ := actionField_eq uplinkRead
  obtain ⟨rfl, hasDownlink⟩ := actionField_eq downlinkRead
  rw [hasUplink, hasDownlink] at rest
  unfold Node.writtenFields
  dsimp only
  cases uplink : writtenField node "ambr_ul" Node.asKbps <;>
    cases downlink : writtenField node "ambr_dl" Node.asKbps <;>
    rw [uplink, downlink] at rest <;> cases rest <;>
    exact ⟨rfl, rfl⟩

/-- The quota pair and the rating group as they are written. -/
theorem parseQuota_eq
    (accepted : (parseQuota node action).result = some final) :
    node.has "rating_group".toList =
        node.writtenFields.ratingGroup.isSome ∧
      final =
        { action with
          inheritMask :=
            stillInherited
              (stillInherited action.inheritMask
                node.writtenFields.setsQuota kInheritQuota)
              node.writtenFields.ratingGroup.isSome kInheritRatingGroup
          quotaBytes := node.writtenFields.quota.getD action.quotaBytes
          quotaValidityS :=
            node.writtenFields.quotaValidity.getD action.quotaValidityS
          ratingGroup :=
            node.writtenFields.ratingGroup.getD action.ratingGroup } := by
  unfold parseQuota at accepted
  simp only [Attempt.result_bind, Option.bind_eq_some_iff] at accepted
  obtain ⟨granted, quotaRead, limited, validityRead, ratingRead⟩ := accepted
  obtain ⟨rfl, _⟩ := actionField_eq quotaRead
  obtain ⟨rfl, _⟩ := actionField_eq validityRead
  obtain ⟨rfl, hasRating⟩ := actionField_eq ratingRead
  refine ⟨hasRating, ?_⟩
  unfold WrittenFields.setsQuota Node.writtenFields stillInherited
  dsimp only
  cases writtenField node "quota" Node.asBytes <;>
    cases writtenField node "quota_validity" Node.asSeconds <;>
    cases writtenField node "rating_group" Node.asRatingGroup <;>
    simp [Action.override, and_not_twice]

theorem parseRedirect_eq {redirects : Redirects}
    (accepted : (parseRedirect redirects node action).result = some final) :
    final = { action with redirectId := final.redirectId } := by
  unfold parseRedirect at accepted
  simp only [Attempt.result_bind, Attempt.result_ite, Attempt.result_fail,
    Option.bind_eq_some_iff] at accepted
  obtain ⟨aimed, redirectRead, rest⟩ := accepted
  split_ifs at rest
  cases rest
  rcases actionField_result redirectRead with
    ⟨_, rfl⟩ | ⟨_, _, _, _, rfl⟩ <;> rfl

/-- The decision flags are not authorization fields. -/
theorem parseFlags_eq
    (accepted : (parseFlags node action).result = some final) :
    final = { action with setFlags := final.setFlags } := by
  unfold parseFlags at accepted
  cases found : node.find "flags".toList with
  | none =>
    rw [found] at accepted
    cases accepted
    rfl
  | some field =>
    rw [found] at accepted
    simp only [Attempt.result_bind, Option.bind_eq_some_iff] at accepted
    obtain ⟨mask, _, changed⟩ := accepted
    cases changed
    rfl

theorem parseAction_carries {redirects : Redirects}
    (accepted :
      (parseAction redirects node ruleActionDefaults).result = some final) :
    ∃ mask, node.inheritedFields = some mask ∧
      final.Carries mask node.writtenFields := by
  obtain ⟨judged, classed, rated, granted, aimed, outcome, qos, ambr, quota,
    redirect, flags⟩ := parseAction_result accepted
  obtain ⟨inherited, judgedEq⟩ := parseOutcome_eq outcome rfl
  obtain ⟨together, ratedEq⟩ := parseAmbr_eq ambr
  refine ⟨judged.inheritMask, inherited, ?_⟩
  rw [parseFlags_eq flags, parseRedirect_eq redirect, (parseQuota_eq quota).2,
    ratedEq, (parseQos_eq qos).2.2, judgedEq]
  exact
    { inheritMask := rfl
      qos := fun sets => ⟨if_pos sets, if_pos sets⟩
      ambrTogether := together
      ambr := ⟨rfl, rfl⟩
      quota := ⟨rfl, rfl⟩
      ratingGroup := rfl }

end Parse

/-- A decision that carries what an action writes and the plan's rest. -/
structure PolicyDecision.FillsUnset
    (decision : PolicyDecision)
    (fields : WrittenFields)
    (plan : PlanConfig)
    (remaining : UInt64) : Prop where
  /-- The QoS pair is overridden as soon as one half is written. -/
  qos :
    if fields.setsQos then
      decision.qos5qi = fields.qos5qi.getD 9 ∧
        decision.arp = fields.arp.getD 8
    else
      decision.qos5qi = plan.qos5qi ∧ decision.arp = plan.arp
  ambrUl : decision.ambrUlKbps = fields.ambrUl.getD plan.ambrUlKbps
  ambrDl : decision.ambrDlKbps = fields.ambrDl.getD plan.ambrDlKbps
  quota : decision.quotaBytes = fields.quota.getD remaining
  quotaValidity :
    decision.quotaValidityS =
      fields.quotaValidity.getD plan.quotaValidityS
  ratingGroup :
    decision.ratingGroup = fields.ratingGroup.getD plan.ratingGroup

/-- What a half-written quota pair leaves out is zero in the plan as well. -/
def WrittenFields.QuotaComplete
    (fields : WrittenFields) (plan : PlanConfig)
    (remaining : UInt64) : Prop :=
  (fields.quota = none → fields.quotaValidity ≠ none → remaining = 0) ∧
    (fields.quotaValidity = none → fields.quota ≠ none →
      plan.quotaValidityS = 0)

theorem WrittenFields.quotaComplete_iff
    (fields : WrittenFields) (plan : PlanConfig) (remaining : UInt64) :
    fields.QuotaComplete plan remaining ↔
      (if fields.setsQuota then fields.quota.getD 0 else remaining) =
          fields.quota.getD remaining ∧
        (if fields.setsQuota then fields.quotaValidity.getD 0
            else plan.quotaValidityS) =
          fields.quotaValidity.getD plan.quotaValidityS := by
  unfold QuotaComplete setsQuota
  cases fields.quota <;> cases fields.quotaValidity <;> simp [eq_comm]

theorem verdict_decisionFor (ruleSet : RuleSet) (request : PolicyRequest)
    (record : Option SubscriberRecord) (fired : Option (UInt32 × Action)) :
    (decisionFor ruleSet request record fired).verdict =
      ((fired.map Prod.snd).getD ruleSet.defaultAction).verdict := by
  unfold decisionFor
  dsimp only
  split <;> rfl

theorem inherited_getD {Value : Type}
    (written : Bool) (plan : PlanConfig) (ofPlan : PlanConfig → Value)
    (own : Value) :
    (((if (!written) = true then some plan else none).map ofPlan).getD own) =
      if written then own else ofPlan plan := by
  cases written <;> rfl

section Decide

variable {action : Action}
variable {fields : WrittenFields}
variable {ruleSet : RuleSet}
variable {record : SubscriberRecord}
variable {plan : PlanConfig}

section

variable (carries : action.Carries kInheritAll fields)
    (notDeny : action.verdict ≠ Verdict.deny.code)
    (onPlan : ruleSet.plan record.planId = some plan)
    (request : PolicyRequest) (id : UInt32)

include carries notDeny onPlan request id

theorem Action.Carries.decision {decision : PolicyDecision}
    (decides :
      decisionFor ruleSet request (some record) (some (id, action)) =
        decision) :
    decision.qos5qi =
        (if fields.setsQos then action.qos5qi else plan.qos5qi) ∧
      decision.arp = (if fields.setsQos then action.arp else plan.arp) ∧
      decision.ambrUlKbps =
        (if fields.ambrUl.isSome then action.ambrUlKbps
          else plan.ambrUlKbps) ∧
      decision.ambrDlKbps =
        (if fields.ambrUl.isSome then action.ambrDlKbps
          else plan.ambrDlKbps) ∧
      decision.quotaBytes =
        (if fields.setsQuota then action.quotaBytes
          else remainingQuota request (some record) plan) ∧
      decision.quotaValidityS =
        (if fields.setsQuota then action.quotaValidityS
          else plan.quotaValidityS) ∧
      decision.ratingGroup =
        (if fields.ratingGroup.isSome then action.ratingGroup
          else plan.ratingGroup) := by
  obtain ⟨qosBit, ambrBit, quotaBit, ratingBit⟩ := fields.hasFlag_inheritMask
  rw [← carries.inheritMask] at qosBit ambrBit quotaBit ratingBit
  have planKnown : planOf ruleSet (some record) = some plan := onPlan
  unfold decisionFor at decides
  simp only [Option.map_some, Option.getD_some, if_neg notDeny, qosBit,
    ambrBit, quotaBit, ratingBit, planKnown, inherited_getD] at decides
  subst decides
  exact ⟨rfl, rfl, rfl, rfl, rfl, rfl, rfl⟩

/--
An action that carries its written fields fills the others from the plan, the
half-written quota pair apart.
-/
theorem Action.Carries.fillsUnset_iff :
    (decisionFor ruleSet request (some record)
        (some (id, action))).FillsUnset fields plan
        (remainingQuota request (some record) plan) ↔
      fields.QuotaComplete plan
        (remainingQuota request (some record) plan) := by
  obtain ⟨qos5qi, arp, ambrUl, ambrDl, quota, validity, rating⟩ :=
    carries.decision notDeny onPlan request id rfl
  generalize decisionFor ruleSet request (some record) (some (id, action)) =
    decision at *
  rw [carries.quota.1] at quota
  rw [carries.quota.2] at validity
  rw [fields.quotaComplete_iff, ← quota, ← validity]
  constructor
  · intro fills
    exact ⟨fills.quota, fills.quotaValidity⟩
  · rintro ⟨quotaFilled, validityFilled⟩
    refine
      { qos := ?_
        ambrUl := ?_
        ambrDl := ?_
        quota := quotaFilled
        quotaValidity := validityFilled
        ratingGroup := ?_ }
    · by_cases sets : fields.setsQos = true
      · rw [if_pos sets] at qos5qi arp ⊢
        exact ⟨qos5qi.trans (carries.qos sets).1,
          arp.trans (carries.qos sets).2⟩
      · rw [if_neg sets] at qos5qi arp ⊢
        exact ⟨qos5qi, arp⟩
    · rw [ambrUl, carries.ambr.1]
      cases fields.ambrUl <;> rfl
    · rw [ambrDl, carries.ambrTogether, carries.ambr.2]
      cases fields.ambrDl <;> rfl
    · rw [rating, carries.ratingGroup]
      cases fields.ratingGroup <;> rfl

end

end Decide

theorem readRule_carries
    {redirects : Redirects} {item node : Node} {source : SourceRule}
    (read : readRule redirects item = some source)
    (found : item.find "action".toList = some node) :
    ∃ mask, node.inheritedFields = some mask ∧
      source.action.Carries mask node.writtenFields := by
  obtain ⟨other, otherFound, accepted⟩ := parseAction_of_readRule read
  cases found.symm.trans otherFound
  exact parseAction_carries accepted

theorem CompiledFrom.decision_of_ruleId
    {situation : Situation} {sources : List SourceRule}
    (compiledFrom : CompiledFrom situation.ruleSet sources)
    {source : SourceRule}
    (member : source ∈ sources)
    (named :
      (evaluate situation.ruleSet situation.request situation.record
        situation.now).ruleId = source.id) :
    evaluate situation.ruleSet situation.request situation.record
        situation.now =
      decisionFor situation.ruleSet situation.request situation.record
        (some (source.id, source.action)) := by
  have decision := compiledFrom.evaluate_eq
  rw [decision, ruleId_decisionFor] at named
  cases search : (scanOrder sources).find? (·.fires situation) with
  | none =>
    rw [search] at named
    exact absurd named.symm (compiledFrom.idsNonzero source member)
  | some hit =>
    rw [search] at named decision
    have hitMember : hit ∈ sources :=
      (sortByRank_perm sources).mem_iff.mp (List.mem_of_find?_eq_some search)
    have same : hit = source := compiledFrom.eq_of_id hitMember member named
    rw [decision, same]
    rfl

/--
A rule of an accepted document that inherits everything, fires and does not
deny: the decision carries what its action writes and otherwise what the plan
says, exactly when the action does not write half of a quota pair whose other
half the plan sets.
-/
theorem unset_fields_inherited_iff
    {files : Str → Option Str}
    {text : Str}
    {version : UInt32}
    {ruleSet : RuleSet}
    (accepted : (compileRules files text version).ruleSet = some ruleSet) :
    ∃ root line items,
      Yaml.parse text = .ok root ∧
        root.find "rules".toList = some (.seq line items) ∧
        ∀ item ∈ items, ∀ node,
          item.find "action".toList = some node →
          node.inheritedFields = some kInheritAll →
          ∀ (request : PolicyRequest) (record : SubscriberRecord)
            (now : UInt64) (plan : PlanConfig),
            ruleSet.plan record.planId = some plan →
            ruleIdOf item =
              some (evaluate ruleSet request (some record) now).ruleId →
            (evaluate ruleSet request (some record) now).verdict ≠
              Verdict.deny.code →
            ((evaluate ruleSet request (some record) now).FillsUnset
                node.writtenFields plan
                (remainingQuota request (some record) plan) ↔
              node.writtenFields.QuotaComplete plan
                (remainingQuota request (some record) plan)) := by
  obtain ⟨root, sources, parsed, read, compiledFrom⟩ :=
    compileRules_compiledFrom accepted
  obtain ⟨line, items, found, itemsRead⟩ := exists_items_of_sourceRules read
  refine ⟨root, line, items, parsed, found, ?_⟩
  intro item itemMember node actionFound inheritsAll request record now plan
    onPlan named notDeny
  obtain ⟨source, member, itemRead⟩ :=
    exists_mem_right_of_forall₂ (mapM_eq_some_iff.mp itemsRead) itemMember
  obtain ⟨_, readId, _, _⟩ := readRule_eq_some_iff.mp itemRead
  obtain ⟨mask, inherited, carries⟩ := readRule_carries itemRead actionFound
  cases inheritsAll.symm.trans inherited
  have decision :
      evaluate ruleSet request (some record) now =
        decisionFor ruleSet request (some record)
          (some (source.id, source.action)) := by
    let situation : Situation := ⟨ruleSet, request, some record, now⟩
    have ofSituation : CompiledFrom situation.ruleSet sources := compiledFrom
    exact ofSituation.decision_of_ruleId member
      (Option.some.inj (named.symm.trans readId))
  rw [decision, verdict_decisionFor] at notDeny
  rw [decision]
  exact carries.fillsUnset_iff notDeny onPlan request source.id

/-- Test the table, the only rule and its action of an accepted text. -/
def testOnlyRule (text : Str) (test : RuleSet → Node → Node → Bool) : Bool :=
  match (compileRules (fun _ => none) text 1).ruleSet, Yaml.parse text with
  | some ruleSet, .ok root =>
    match root.find "rules".toList with
    | some (.seq _ [item]) =>
      (item.find "action".toList).any (test ruleSet item)
    | _ => false
  | _, _ => false

/-- A passed test speaks of an accepted text with one rule. -/
theorem exists_of_testOnlyRule
    (text : Str) (test : RuleSet → Node → Node → Bool)
    (passed : testOnlyRule text test = true) :
    ∃ ruleSet root line item node,
      (compileRules (fun _ => none) text 1).ruleSet = some ruleSet ∧
        Yaml.parse text = .ok root ∧
        root.find "rules".toList = some (.seq line [item]) ∧
        item.find "action".toList = some node ∧
        test ruleSet item node = true := by
  obtain ⟨ruleSet, root, accepted, parsed, tested⟩ :=
    exists_of_testDocument text
      (fun ruleSet root =>
        match root.find "rules".toList with
        | some (.seq _ [item]) =>
          (item.find "action".toList).any (test ruleSet item)
        | _ => false)
      passed
  split at tested
  next line item rules =>
    obtain ⟨node, found, nodePasses⟩ := (Option.any_eq_true _ _).mp tested
    exact ⟨ruleSet, root, line, item, node, accepted, parsed, rules,
      found, nodePasses⟩
  next =>
    cases tested

/-- A plan with a day's quota, and a rule that writes the given fields. -/
def quotaFile (written : String) : Str :=
  ("dnns: [internet]\nplans:\n  - name: basic\n    quota: 5GB\n" ++
    "    quota_validity: 1d\nrules:\n  - id: 1\n    priority: 1\n" ++
    "    action:\n      verdict: ALLOW\n      inherit: all\n" ++
    written).toList

/-- The rule of a file inherits everything and allows its subscriber. -/
def AllowsInheriting (ruleSet : RuleSet) (item node : Node) : Prop :=
  node.inheritedFields = some kInheritAll ∧
    ruleIdOf item =
      some (evaluate ruleSet nrRequest (some basicRecord) 0).ruleId ∧
    (evaluate ruleSet nrRequest (some basicRecord) 0).verdict ≠
      Verdict.deny.code

instance
    (ruleSet : RuleSet)
    (item node : Node) :
    Decidable (AllowsInheriting ruleSet item node) :=
  inferInstanceAs (Decidable (_ ∧ _ ∧ _))

/-- An action with its own quota and validity inherits the rest. -/
theorem whole_quota_pair_fills :
    ∃ ruleSet root line item node plan,
      (compileRules (fun _ => none)
          (quotaFile "      quota: 1GB\n      quota_validity: 2h\n")
          1).ruleSet = some ruleSet ∧
        Yaml.parse
            (quotaFile "      quota: 1GB\n      quota_validity: 2h\n") =
          .ok root ∧
        root.find "rules".toList = some (.seq line [item]) ∧
        item.find "action".toList = some node ∧
        ruleSet.plan basicRecord.planId = some plan ∧
        (evaluate ruleSet nrRequest (some basicRecord) 0).FillsUnset
          node.writtenFields plan
          (remainingQuota nrRequest (some basicRecord) plan) := by
  obtain ⟨ruleSet, root, line, item, node, accepted, parsed, rules, found,
    passed⟩ :=
    exists_of_testOnlyRule
      (quotaFile "      quota: 1GB\n      quota_validity: 2h\n")
      (fun ruleSet item node =>
        decide
          (AllowsInheriting ruleSet item node ∧
            ruleSet.plan basicRecord.planId ≠ none ∧
            node.writtenFields.quota ≠ none ∧
            node.writtenFields.quotaValidity ≠ none))
      (by decide +kernel)
  obtain ⟨⟨inheritsAll, named, notDeny⟩, known, hasQuota, hasValidity⟩ :=
    of_decide_eq_true passed
  obtain ⟨plan, onPlan⟩ := Option.ne_none_iff_exists'.mp known
  obtain ⟨root', line', items, parsed', rules', filled⟩ :=
    unset_fields_inherited_iff accepted
  cases parsed.symm.trans parsed'
  cases rules.symm.trans rules'
  refine ⟨ruleSet, root, line, item, node, plan, accepted, parsed, rules,
    found, onPlan, ?_⟩
  refine (filled item List.mem_cons_self node found inheritsAll nrRequest
    basicRecord 0 plan onPlan named notDeny).mpr ⟨?_, ?_⟩
  · intro noQuota
    exact absurd noQuota hasQuota
  · intro noValidity
    exact absurd noValidity hasValidity

/--
An action that inherits everything and writes only a quota sends a validity of
zero, though its subscriber's plan has one.
-/
theorem half_written_quota_not_inherited :
    ∃ ruleSet root line item node plan,
      (compileRules (fun _ => none) (quotaFile "      quota: 1GB\n")
          1).ruleSet = some ruleSet ∧
        Yaml.parse (quotaFile "      quota: 1GB\n") = .ok root ∧
        root.find "rules".toList = some (.seq line [item]) ∧
        item.find "action".toList = some node ∧
        AllowsInheriting ruleSet item node ∧
        ruleSet.plan basicRecord.planId = some plan ∧
        node.writtenFields.quotaValidity = none ∧
        plan.quotaValidityS = 86400 ∧
        (evaluate ruleSet nrRequest (some basicRecord) 0).quotaValidityS =
          0 ∧
        ¬ (evaluate ruleSet nrRequest (some basicRecord) 0).FillsUnset
          node.writtenFields plan
          (remainingQuota nrRequest (some basicRecord) plan) := by
  obtain ⟨ruleSet, root, line, item, node, accepted, parsed, rules, found,
    passed⟩ :=
    exists_of_testOnlyRule (quotaFile "      quota: 1GB\n")
      (fun ruleSet item node =>
        decide
          (AllowsInheriting ruleSet item node ∧
            (ruleSet.plan basicRecord.planId).map (·.quotaValidityS) =
              some 86400 ∧
            node.writtenFields.quotaValidity = none ∧
            (evaluate ruleSet nrRequest (some basicRecord)
              0).quotaValidityS = 0))
      (by decide +kernel)
  obtain ⟨allows, validity, noValidity, zero⟩ := of_decide_eq_true passed
  obtain ⟨plan, onPlan, planValidity⟩ := Option.map_eq_some_iff.mp validity
  refine ⟨ruleSet, root, line, item, node, plan, accepted, parsed, rules,
    found, allows, onPlan, noValidity, planValidity, zero, ?_⟩
  intro fills
  have filled := fills.quotaValidity
  rw [noValidity, zero, Option.getD_none, planValidity] at filled
  exact absurd filled (by decide)

end Policyd
