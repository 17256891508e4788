import Policyd.ConditionCompiler

namespace Policyd

open MaskedWords

/-!
# Loading rules

The rule section is a loop that carries the predicate tables, the identifiers
seen so far and the compiled rules.  It is accepted exactly when every item
reads as a rule and the rules together respect names and capacities, and then
the table holds one block of compiled rules for each source rule, in order.
-/

/-- Add listed plans to a mask. -/
def addPlans (planNames : List Str) (mask : PlanMask) (listed : List Str) :
    PlanMask :=
  listed.foldl
    (fun mask name => mask ||| oneBit 32 (planNames.idxOf name)) mask

theorem readPlanReference_toOption (plans : PlanTable) (node : Node) :
    (readPlanReference plans node).toOption =
      node.scalar?.bind fun name =>
        if name ∈ plans.names then
          some (plans.names.idxOf name)
        else
          none := by
  cases node with
  | scalar line name =>
    simp only [readPlanReference, Node.isScalar, Node.text,
      Bool.true_eq_false, if_false, PlanTable.idOf, findIdx?_beq,
      Node.scalar?, Option.bind_some]
    by_cases member : name ∈ plans.names
    · simp [member, Except.toOption]
    · simp [member, Except.toOption]
  | null line => rfl
  | seq line items => rfl
  | map line fields => rfl

theorem addPlanReferences_result
    (plans : PlanTable) (nodes : List Node) (mask : PlanMask) :
    (addPlanReferences plans nodes mask).result =
      (nodes.mapM Node.scalar?).bind fun listed =>
        if listed.all (plans.names.contains ·) then
          some (some (addPlans plans.names mask listed))
        else
          none := by
  induction nodes generalizing mask with
  | nil => simp [addPlanReferences, addPlans]
  | cons node later inductionHypothesis =>
    have reference := readPlanReference_toOption plans node
    rw [addPlanReferences, List.mapM_cons]
    cases read : readPlanReference plans node with
    | error failure =>
      rw [read] at reference
      simp only [Report.result_bind, Report.result_problem, Option.bind_none]
      cases named : node.scalar? with
      | none => rfl
      | some name =>
        have unknown : name ∉ plans.names := by
          intro member
          simp [named, member, Except.toOption] at reference
        cases later.mapM Node.scalar? with
        | none => rfl
        | some names => simp [unknown]
    | ok id =>
      rw [read] at reference
      obtain ⟨name, named, found⟩ := Option.bind_eq_some_iff.mp reference.symm
      by_cases member : name ∈ plans.names
      · rw [if_pos member] at found
        cases found
        rw [named]
        dsimp only
        rw [inductionHypothesis]
        cases later.mapM Node.scalar? with
        | none => rfl
        | some names => simp [member, addPlans]
      · rw [if_neg member] at found
        cases found

namespace SourceRule

/-- Every plan a rule lists is in the plan table. -/
def plansKnown (planNames : List Str) (rule : SourceRule) : Bool :=
  match rule.plans with
  | none => true
  | some listed => listed.all (planNames.contains ·)

/-- The plan mask of a rule; `0` applies to every plan. -/
def planMask (planNames : List Str) (rule : SourceRule) : PlanMask :=
  match rule.plans with
  | none => 0
  | some listed => addPlans planNames 0 listed

/-- The compiled rules of a source rule. -/
def compiled (bits : BitTables) (planNames : List Str) (rule : SourceRule) :
    List CompiledRule :=
  compiledRules (expandAll bits [(0, 0)] rule.conditions)
    (rule.planMask planNames) rule.id rule.priority rule.action

end SourceRule

/-- The plans of a rule are accepted when they are known. -/
theorem resolvePlanMask_result (plans : PlanTable) (item : Node) :
    (resolvePlanMask plans (item.find "plans".toList)).result =
      (readPlanNames item).bind fun listed =>
        if (listed.map (·.all (plans.names.contains ·))).getD true then
          some (some ((listed.map (addPlans plans.names 0)).getD 0))
        else
          none := by
  unfold readPlanNames
  cases item.find "plans".toList with
  | none => rfl
  | some node =>
    cases node with
    | scalar line name =>
      simp only [resolvePlanMask, addPlanReferences_result,
        List.mapM_cons, List.mapM_nil, Node.scalar?]
      rfl
    | seq line items =>
      simp only [resolvePlanMask, addPlanReferences_result]
      cases items.mapM Node.scalar? <;> rfl
    | null line => rfl
    | map line fields => rfl

namespace RuleLoad

/-- A rule that names, identifiers and capacities admit. -/
structure Accepts (context : RuleContext) (load : RuleLoad)
    (rule : SourceRule) : Prop where
  fresh : rule.id ∉ load.seenRuleIds
  plans : rule.plansKnown context.plans.names = true
  conditions :
    Admissible context.dnnNames load.tables 1 rule.conditions
  room :
    load.rules.length + totalWidth rule.conditions ≤ kMaxRules

/-- Add the block of one rule. -/
def add (context : RuleContext) (load : RuleLoad) (rule : SourceRule) :
    RuleLoad :=
  { tables := internAll load.tables rule.conditions
    seenRuleIds := rule.id :: load.seenRuleIds
    rules :=
      load.rules ++
        rule.compiled
          ⟨internAll load.tables rule.conditions, context.dnnNames⟩
          context.plans.names }

end RuleLoad

/-- The `when` mapping of a rule compiles to its cubes. -/
theorem compileWhen_eq_ok_iff {tables : PredicateTables}
    (within : tables.Within) (dnnNames : List Str) (ruleId : UInt32)
    (item : Node) (final : PredicateTables × Matches) :
    compileWhen dnnNames ruleId (item.find "when".toList) tables =
        (final.1, .ok final.2) ↔
      ∃ conditions,
        (whenFields item).bind readConditions = some conditions ∧
          Admissible dnnNames tables 1 conditions ∧
          final =
            (internAll tables conditions,
              expandAll ⟨internAll tables conditions, dnnNames⟩ [(0, 0)]
                conditions) := by
  have small : [((0 : FeatureWord), (0 : FeatureWord))].length ≤
      kMaxExpansionPerRule := by
    decide
  unfold whenFields
  cases item.find "when".toList with
  | none => exact compileFields_eq_ok_iff within small ruleId [] final
  | some node =>
    cases node with
    | map line fields =>
      exact compileFields_eq_ok_iff within small ruleId fields final
    | null line => simp [compileWhen]
    | scalar line text => simp [compileWhen]
    | seq line items => simp [compileWhen]

/-- The plans, conditions and action of a rule that was read. -/
structure ReadsBody (redirects : Redirects) (item : Node)
    (rule : SourceRule) : Prop where
  plans : readPlanNames item = some rule.plans
  conditions :
    (whenFields item).bind readConditions = some rule.conditions
  action : (ruleAction redirects rule.id item).result = some rule.action

theorem resolvePlanMask_eq_some_iff
    (plans : PlanTable) (item : Node) (mask : Option PlanMask) :
    (resolvePlanMask plans (item.find "plans".toList)).result =
        some mask ↔
      ∃ listed,
        readPlanNames item = some listed ∧
          (listed.map (·.all (plans.names.contains ·))).getD true = true ∧
          mask = some ((listed.map (addPlans plans.names 0)).getD 0) := by
  rw [resolvePlanMask_result, Option.bind_eq_some_iff]
  constructor
  · rintro ⟨listed, read, found⟩
    split at found
    case isTrue known =>
      exact ⟨listed, read, known, (Option.some.inj found).symm⟩
    case isFalse =>
      cases found
  · rintro ⟨listed, read, known, rfl⟩
    exact ⟨listed, read, if_pos known⟩

theorem SourceRule.length_compiled
    (bits : BitTables) (planNames : List Str) (rule : SourceRule) :
    (rule.compiled bits planNames).length = totalWidth rule.conditions := by
  rw [compiled, compiledRules, List.length_map, length_expandAll]
  simp

variable {context : RuleContext} {load : RuleLoad} {redirects : Redirects}
  {item : Node} {rule : SourceRule}

theorem loadRuleBody_result_iff
    (within : load.tables.Within) (item : Node) (id priority : UInt32)
    (outcome : RuleLoad × Bool) :
    (loadRuleBody context item id priority load).result = some outcome ↔
      ∃ rule : SourceRule,
        rule.id = id ∧ rule.priority = priority ∧
          ReadsBody context.redirects item rule ∧
          rule.plansKnown context.plans.names = true ∧
          Admissible context.dnnNames load.tables 1 rule.conditions ∧
          load.rules.length + totalWidth rule.conditions ≤ kMaxRules ∧
          outcome =
            ({ load.add context rule with
                seenRuleIds := load.seenRuleIds }, false) := by
  unfold loadRuleBody
  rw [Report.result_bind, Option.bind_eq_some_iff]
  constructor
  · rintro ⟨mask, resolved, rest⟩
    obtain ⟨listed, readPlans, known, rfl⟩ :=
      (resolvePlanMask_eq_some_iff _ _ _).mp resolved
    dsimp only at rest
    cases compiled :
        compileWhen context.dnnNames id (item.find "when".toList)
          load.tables with
    | mk tables pairs =>
      rw [compiled] at rest
      cases pairs with
      | error failure => cases rest
      | ok pairs =>
        dsimp only at rest
        obtain ⟨conditions, readWhen, admissible, shape⟩ :=
          (compileWhen_eq_ok_iff within context.dnnNames id item
            (tables, pairs)).mp compiled
        cases shape
        rw [Report.result_bind, Attempt.result_toReport] at rest
        cases acted : (ruleAction context.redirects id item).result with
        | none =>
          rw [acted] at rest
          cases rest
        | some action =>
          rw [acted] at rest
          simp only [Option.map_some, Option.bind_some,
            length_expandAll, List.length_singleton,
            Nat.one_mul] at rest
          split at rest
          case isTrue =>
            cases rest
          case isFalse room =>
            refine ⟨⟨id, priority, listed, conditions, action⟩,
              rfl, rfl, ⟨readPlans, readWhen, acted⟩, ?_,
              admissible, Nat.le_of_not_lt room, ?_⟩
            · cases listed <;> exact known
            · cases rest
              cases listed <;> rfl
  · rintro ⟨rule, rfl, rfl, body, known, admissible, room, rfl⟩
    refine ⟨some (rule.planMask context.plans.names),
      (resolvePlanMask_eq_some_iff _ _ _).mpr
        ⟨rule.plans, body.plans, ?_, ?_⟩, ?_⟩
    · rw [SourceRule.plansKnown] at known
      cases shape : rule.plans with
      | none => rfl
      | some listed => rwa [shape] at known
    · unfold SourceRule.planMask
      cases rule.plans <;> rfl
    · have compiled :=
        (compileWhen_eq_ok_iff within context.dnnNames rule.id item
          (_, _)).mpr
          ⟨rule.conditions, body.conditions, admissible, rfl⟩
      dsimp only at compiled ⊢
      rw [compiled]
      dsimp only
      rw [Report.result_bind, Attempt.result_toReport, body.action]
      simp only [Option.map_some, Option.bind_some, length_expandAll,
        List.length_singleton, Nat.one_mul]
      rw [if_neg (Nat.not_lt.mpr room)]
      rfl

theorem readRule_eq_some_iff :
    readRule redirects item = some rule ↔
      item.isMap = true ∧ ruleIdOf item = some rule.id ∧
        rulePriorityOf item = some rule.priority ∧
        ReadsBody redirects item rule := by
  unfold readRule
  constructor
  · intro read
    simp only [Option.bind_eq_bind, Option.bind_eq_some_iff] at read
    obtain ⟨_, isMap, id, readId, priority, readPriority, plans, readPlans,
      fields, readFields, conditions, readWhen, action, readAction,
      shape⟩ := read
    cases shape
    refine ⟨?_, readId, readPriority, readPlans, ?_, readAction⟩
    · by_contra notMap
      simp [guard, notMap] at isMap
    · exact Option.bind_eq_some_iff.mpr ⟨fields, readFields, readWhen⟩
  · rintro ⟨isMap, readId, readPriority, readPlans, readWhen, readAction⟩
    obtain ⟨fields, readFields, readConditions⟩ :=
      Option.bind_eq_some_iff.mp readWhen
    simp [guard, isMap, readId, readPriority, readPlans, readFields,
      readConditions, readAction]

theorem parseAction_of_readRule (read : readRule redirects item = some rule) :
    ∃ node, item.find "action".toList = some node ∧
      (parseAction redirects node ruleActionDefaults).result =
        some rule.action := by
  obtain ⟨_, _, _, body⟩ := readRule_eq_some_iff.mp read
  have accepted := body.action
  unfold ruleAction at accepted
  cases found : item.find "action".toList with
  | none =>
    rw [found] at accepted
    cases accepted
  | some node =>
    rw [found] at accepted
    exact ⟨node, rfl, accepted⟩

theorem exists_items_of_sourceRules {root : Node} {sources : List SourceRule}
    (read : sourceRules root = some sources) :
    ∃ line items,
      root.find "rules".toList = some (.seq line items) ∧
        items.mapM
            (readRule (loadRedirects (root.find "redirects".toList)).value) =
          some sources := by
  unfold sourceRules at read
  split at read
  · next line items found =>
    exact ⟨line, items, found, read⟩
  · cases read

/-- What one round of the rule section does. -/
theorem loadRule_result_iff
    (within : load.tables.Within) (item : Node) (outcome : RuleLoad × Bool) :
    (loadRule context item load).result = some outcome ↔
      ∃ rule,
        readRule context.redirects item = some rule ∧
          load.Accepts context rule ∧
          outcome = (load.add context rule, false) := by
  simp only [readRule_eq_some_iff]
  unfold loadRule
  by_cases isMap : item.isMap = true
  case neg =>
    have notMap : item.isMap = false := by simpa using isMap
    simp [notMap]
  case pos =>
    rw [if_neg (by simp [isMap]), Report.result_bind]
    have warned :
        (warnAll (checkUnknownKeys item ruleKeys)).result = some () := rfl
    rw [warned, Option.bind_some]
    cases readId : ruleIdOf item with
    | none => simp
    | some id =>
      dsimp only
      by_cases seen : load.seenRuleIds.contains id = true
      · rw [if_pos seen]
        constructor
        · intro impossible
          cases impossible
        · rintro ⟨rule, ⟨_, sameId, _⟩, accepts, _⟩
          cases sameId
          exact absurd (List.contains_iff_mem.mp seen) accepts.fresh
      · rw [if_neg seen]
        cases readPriority : rulePriorityOf item with
        | none => simp
        | some priority =>
          have nextWithin :
              ({ load with seenRuleIds := id :: load.seenRuleIds } :
                RuleLoad).tables.Within :=
            within
          dsimp only
          rw [loadRuleBody_result_iff nextWithin]
          constructor
          · rintro ⟨rule, rfl, rfl, body, plans, admissible, room, rfl⟩
            exact ⟨rule, ⟨isMap, rfl, rfl, body⟩,
              ⟨fun member => seen (List.contains_iff_mem.mpr member),
                plans, admissible, room⟩, rfl⟩
          · rintro ⟨rule, ⟨_, sameId, samePriority, body⟩, accepts, rfl⟩
            cases sameId
            cases samePriority
            exact ⟨rule, rfl, rfl, body, accepts.plans,
              accepts.conditions, accepts.room, rfl⟩

namespace RuleLoad

/-- Rules that are accepted one after the other. -/
def AcceptsAll (context : RuleContext) : RuleLoad → List SourceRule → Prop
  | _, [] => True
  | load, rule :: later =>
    load.Accepts context rule ∧
      (load.add context rule).AcceptsAll context later

/-- Add the blocks of several rules. -/
def addAll (context : RuleContext) (load : RuleLoad)
    (rules : List SourceRule) : RuleLoad :=
  rules.foldl (add context) load

end RuleLoad

/-- What the rule section does. -/
theorem loadRuleItems_result_iff
    (within : load.tables.Within) (items : List Node) (final : RuleLoad) :
    (loadRuleItems context items load).result = some final ↔
      ∃ rules,
        items.mapM (readRule context.redirects) = some rules ∧
          load.AcceptsAll context rules ∧
          final = load.addAll context rules := by
  induction items generalizing load with
  | nil =>
    constructor
    · intro loaded
      cases loaded
      exact ⟨[], rfl, trivial, rfl⟩
    · rintro ⟨rules, read, _, rfl⟩
      cases read
      rfl
  | cons item later inductionHypothesis =>
    rw [loadRuleItems, Report.result_bind, Option.bind_eq_some_iff]
    simp only [loadRule_result_iff within]
    constructor
    · rintro ⟨_, ⟨rule, read, accepts, rfl⟩, loaded⟩
      have nextWithin : (load.add context rule).tables.Within :=
        accepts.conditions.2.1
      obtain ⟨rules, laterRead, acceptsLater, rfl⟩ :=
        (inductionHypothesis nextWithin).mp loaded
      exact ⟨rule :: rules,
        mapM_cons_eq_some_iff.mpr ⟨rule, rules, read, laterRead, rfl⟩,
        ⟨accepts, acceptsLater⟩, rfl⟩
    · rintro ⟨rules, read, acceptsAll, rfl⟩
      obtain ⟨rule, rules, itemRead, laterRead, rfl⟩ :=
        mapM_cons_eq_some_iff.mp read
      have nextWithin : (load.add context rule).tables.Within :=
        acceptsAll.1.conditions.2.1
      exact ⟨_, ⟨rule, itemRead, acceptsAll.1, rfl⟩,
        (inductionHypothesis nextWithin).mpr
          ⟨rules, laterRead, acceptsAll.2, rfl⟩⟩

/-- All conditions of a list of rules, in order. -/
def allConditions (rules : List SourceRule) : List Condition :=
  rules.flatMap SourceRule.conditions

/-- Compiled rules needed for a list of source rules. -/
def tableSize (rules : List SourceRule) : Nat :=
  (rules.map fun rule => totalWidth rule.conditions).sum

/--
A list of rules that can be added to a load.  Only the tables depend on the
order of the rules, and only through the order of their entries.
-/
structure Acceptable (context : RuleContext) (load : RuleLoad)
    (rules : List SourceRule) : Prop where
  fresh : ∀ rule ∈ rules, rule.id ∉ load.seenRuleIds
  distinct : (rules.map SourceRule.id).Nodup
  plans :
    ∀ rule ∈ rules, rule.plansKnown context.plans.names = true
  names :
    ∀ condition ∈ allConditions rules,
      condition.namesKnown context.dnnNames = true
  widths :
    ∀ rule ∈ rules, totalWidth rule.conditions ≤ kMaxExpansionPerRule
  tables : (internAll load.tables (allConditions rules)).Within
  room : load.rules.length + tableSize rules ≤ kMaxRules

theorem internAll_append
    (tables : PredicateTables) (first second : List Condition) :
    internAll tables (first ++ second) =
      internAll (internAll tables first) second :=
  List.foldl_append

/-- A list of rules is acceptable when its first rule and the rest are. -/
theorem acceptable_cons_iff {later : List SourceRule} :
    Acceptable context load (rule :: later) ↔
      load.Accepts context rule ∧
        Acceptable context (load.add context rule) later := by
  have tablesShape :
      internAll load.tables (allConditions (rule :: later)) =
        internAll (load.add context rule).tables (allConditions later) := by
    rw [allConditions, List.flatMap_cons, internAll_append]
    rfl
  have lengthShape :
      (load.add context rule).rules.length + tableSize later =
        load.rules.length + tableSize (rule :: later) := by
    simp only [RuleLoad.add, List.length_append,
      SourceRule.length_compiled, tableSize, List.map_cons, List.sum_cons]
    omega
  constructor
  · rintro ⟨fresh, distinct, plans, names, widths, tables, size⟩
    rw [tablesShape] at tables
    rw [← lengthShape] at size
    rw [List.map_cons, List.nodup_cons] at distinct
    have nextRoom : (load.add context rule).rules.length ≤ kMaxRules :=
      (Nat.le_add_right _ _).trans size
    refine ⟨⟨fresh rule List.mem_cons_self, plans rule List.mem_cons_self,
      ⟨?_, (PredicateTables.Extends.internAll _ _).within tables, ?_⟩, ?_⟩,
      { fresh := ?_
        distinct := distinct.2
        plans := fun other member =>
          plans other (List.mem_cons_of_mem _ member)
        names := ?_
        widths := fun other member =>
          widths other (List.mem_cons_of_mem _ member)
        tables := tables
        room := size }⟩
    · rw [List.all_eq_true]
      intro condition member
      refine names condition ?_
      rw [allConditions, List.flatMap_cons]
      exact List.mem_append_left _ member
    · rw [Nat.one_mul]
      exact widths rule List.mem_cons_self
    · simpa [RuleLoad.add, SourceRule.length_compiled] using nextRoom
    · intro other member seen
      rcases List.mem_cons.mp seen with sameId | seenBefore
      · exact distinct.1 (List.mem_map.mpr ⟨other, member, sameId⟩)
      · exact fresh other (List.mem_cons_of_mem _ member) seenBefore
    · intro condition member
      refine names condition ?_
      rw [allConditions, List.flatMap_cons]
      exact List.mem_append_right _ member
  · rintro ⟨accepts, fresh, distinct, plans, names, widths, tables, size⟩
    have width := accepts.conditions.2.2
    rw [Nat.one_mul] at width
    refine
      { fresh := ?_
        distinct := ?_
        plans := List.forall_mem_cons.mpr ⟨accepts.plans, plans⟩
        names := ?_
        widths := List.forall_mem_cons.mpr ⟨width, widths⟩
        tables := by rwa [tablesShape]
        room := by rwa [← lengthShape] }
    · refine List.forall_mem_cons.mpr ⟨accepts.fresh, ?_⟩
      intro other member seen
      exact fresh other member (List.mem_cons_of_mem _ seen)
    · rw [List.map_cons, List.nodup_cons]
      refine ⟨?_, distinct⟩
      rw [List.mem_map]
      rintro ⟨other, member, sameId⟩
      exact fresh other member (by simp [RuleLoad.add, sameId])
    · intro condition member
      rw [allConditions, List.flatMap_cons, List.mem_append] at member
      rcases member with own | others
      · exact List.all_eq_true.mp accepts.conditions.1 condition own
      · exact names condition others

theorem RuleLoad.Accepts.room_add (accepts : load.Accepts context rule) :
    (load.add context rule).rules.length ≤ kMaxRules := by
  simpa [RuleLoad.add, SourceRule.length_compiled] using accepts.room

/-- Rules are accepted one after the other when they are acceptable. -/
theorem acceptsAll_iff
    (within : load.tables.Within) (room : load.rules.length ≤ kMaxRules)
    (rules : List SourceRule) :
    load.AcceptsAll context rules ↔ Acceptable context load rules := by
  induction rules generalizing load with
  | nil =>
    simp only [RuleLoad.AcceptsAll, true_iff]
    exact
      { fresh := by simp
        distinct := by simp
        plans := by simp
        names := by simp [allConditions]
        widths := by simp
        tables := within
        room := by simpa [tableSize] using room }
  | cons rule later inductionHypothesis =>
    rw [acceptable_cons_iff, RuleLoad.AcceptsAll]
    refine and_congr_right ?_
    intro accepts
    exact inductionHypothesis accepts.conditions.2.1 accepts.room_add

/-- The conditions of a rule can be written. -/
def SourceRule.Writable (rule : SourceRule) : Prop :=
  ∀ condition ∈ rule.conditions, condition.Writable

theorem readRule_writable (read : readRule redirects item = some rule) :
    rule.Writable := by
  intro condition member
  obtain ⟨_, _, _, body⟩ := readRule_eq_some_iff.mp read
  obtain ⟨fields, _, readFields⟩ := Option.bind_eq_some_iff.mp body.conditions
  exact readConditions_writable readFields member

/-- Growing the tables does not change what conditions expand to. -/
theorem expandAll_eq_of_extends {conditions : List Condition}
    (writable : ∀ condition ∈ conditions, condition.Writable)
    {earlier later : PredicateTables}
    (extends_ : earlier.Extends later)
    (interned : ∀ condition ∈ conditions, condition.Interned earlier)
    (dnnNames : List Str) (pairs : Matches) :
    expandAll ⟨earlier, dnnNames⟩ pairs conditions =
      expandAll ⟨later, dnnNames⟩ pairs conditions := by
  induction conditions generalizing pairs with
  | nil => rfl
  | cons condition rest inductionHypothesis =>
    obtain ⟨headWritable, restWritable⟩ := List.forall_mem_cons.mp writable
    obtain ⟨headInterned, restInterned⟩ := List.forall_mem_cons.mp interned
    rw [expandAll, List.foldl_cons, expandAll, List.foldl_cons,
      headWritable.expand_eq_of_extends extends_ headInterned]
    exact inductionHypothesis restWritable restInterned _

/-- The section leaves one block for each rule, with the final bits. -/
theorem addAll_eq (context : RuleContext) (load : RuleLoad)
    {rules : List SourceRule}
    (writable : ∀ rule ∈ rules, rule.Writable) :
    (load.addAll context rules).tables =
        internAll load.tables (allConditions rules) ∧
      (load.addAll context rules).rules =
        load.rules ++
          rules.flatMap
            (SourceRule.compiled
              ⟨internAll load.tables (allConditions rules), context.dnnNames⟩
              context.plans.names) := by
  induction rules generalizing load with
  | nil => simp [RuleLoad.addAll, allConditions, internAll]
  | cons rule later inductionHypothesis =>
    obtain ⟨ruleWritable, laterWritable⟩ := List.forall_mem_cons.mp writable
    obtain ⟨tables, rules⟩ :=
      inductionHypothesis (load.add context rule) laterWritable
    have tablesShape :
        internAll load.tables (allConditions (rule :: later)) =
          internAll (load.add context rule).tables
            (allConditions later) := by
      rw [allConditions, List.flatMap_cons, internAll_append]
      rfl
    have stable :
        rule.compiled
            ⟨internAll load.tables rule.conditions, context.dnnNames⟩
            context.plans.names =
          rule.compiled
            ⟨internAll (load.add context rule).tables
              (allConditions later), context.dnnNames⟩
            context.plans.names := by
      rw [SourceRule.compiled, SourceRule.compiled,
        expandAll_eq_of_extends ruleWritable
          (PredicateTables.Extends.internAll _ (allConditions later))
          (fun condition member => interned_internAll _ member)]
      rfl
    rw [tablesShape]
    refine ⟨tables, rules.trans ?_⟩
    rw [List.flatMap_cons, ← stable, ← List.append_assoc]
    rfl

/-- The rule section of a file is accepted when its rules are acceptable. -/
theorem loadRules_result_iff {node : Option Node} :
    (loadRules context node).result = some load ↔
      ∃ line items sources,
        node = some (.seq line items) ∧
          items.mapM (readRule context.redirects) = some sources ∧
          Acceptable context {} sources ∧
          load = ({} : RuleLoad).addAll context sources := by
  have emptyWithin : ({} : RuleLoad).tables.Within := by decide
  unfold loadRules
  split
  case h_1 line items =>
    rw [loadRuleItems_result_iff emptyWithin]
    simp only [acceptsAll_iff emptyWithin (Nat.zero_le _)]
    constructor
    · rintro ⟨sources, read, acceptable, rfl⟩
      exact ⟨line, items, sources, rfl, read, acceptable, rfl⟩
    · rintro ⟨_, _, sources, shape, read, acceptable, rfl⟩
      cases shape
      exact ⟨sources, read, acceptable, rfl⟩
  case h_2 other =>
    simp only [Report.result_problem, reduceCtorEq, false_iff, not_exists]
    rintro line items sources ⟨rfl, _⟩
    exact other line items rfl

end Policyd
