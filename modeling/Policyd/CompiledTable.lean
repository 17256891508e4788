import Policyd.RuleLoading

namespace Policyd

open MaskedWords

/-!
# The compiled table

The table of an accepted file holds the blocks of its rules, sorted by
priority.  The scan of the engine finds a compiled rule of a block exactly when
the source rule fires, so a decision is the decision of the first source rule,
in order of priority and then of position, that fires.
-/

variable {bits : BitTables} {literal : Literal} {conditions : List Condition}
  {files : Str → Option Str} {root : Node} {version : UInt32}
  {ruleSet : RuleSet}

/-- A literal of a condition stands for one of its features. -/
theorem exists_feature_of_alternative
    {condition : Condition} {part : List Literal}
    (partMember : part ∈ condition.alternatives bits)
    (literalMember : literal ∈ part) :
    ∃ feature ∈ condition.features, literal.1 = feature.position bits := by
  cases condition with
  | require feature want =>
    cases List.mem_singleton.mp partMember
    cases List.mem_singleton.mp literalMember
    exact ⟨feature, List.mem_singleton_self _, rfl⟩
  | oneOf features =>
    cases features with
    | nil =>
      cases List.mem_singleton.mp partMember
      cases literalMember
    | cons first later =>
      obtain ⟨feature, featureMember, rfl⟩ := List.mem_map.mp partMember
      cases List.mem_singleton.mp literalMember
      exact ⟨feature, featureMember, rfl⟩
  | noneOf features =>
    cases List.mem_singleton.mp partMember
    obtain ⟨feature, featureMember, rfl⟩ := List.mem_map.mp literalMember
    exact ⟨feature, featureMember, rfl⟩

theorem exists_feature_of_cube {cube : List Literal}
    (member :
      cube ∈ crossProduct (conditions.map (Condition.alternatives bits)))
    (inCube : literal ∈ cube) :
    ∃ condition ∈ conditions, ∃ feature ∈ condition.features,
      literal.1 = feature.position bits := by
  obtain ⟨parts, chosen, rfl⟩ := (mem_crossProduct _ _).mp member
  obtain ⟨part, partMember, literalMember⟩ := List.mem_flatten.mp inCube
  rw [List.forall₂_map_right_iff] at chosen
  obtain ⟨condition, conditionMember, partOf⟩ :=
    exists_mem_right_of_forall₂ chosen partMember
  exact ⟨condition, conditionMember,
    exists_feature_of_alternative partOf literalMember⟩

/-- Literals of a rule's cubes lie in the feature word. -/
theorem cube_inside
    (fit : bits.Fit) (known : ∀ condition ∈ conditions, condition.Known bits)
    {cube : List Literal}
    (member :
      cube ∈ crossProduct (conditions.map (Condition.alternatives bits)))
    (inCube : literal ∈ cube) :
    literal.1 < 64 := by
  obtain ⟨condition, conditionMember, feature, featureMember, position⟩ :=
    exists_feature_of_cube member inCube
  have range :=
    Feature.position_range fit (known condition conditionMember feature
      featureMember)
  rw [position]
  refine lt_of_lt_of_le range.2 ?_
  cases feature <;> simp [Feature.group, Feature.groupStart]

/-- Some pair of a rule matches exactly when all its conditions pass. -/
theorem any_pair_matches {situation : Situation} (fit : situation.bits.Fit)
    (known : ∀ condition ∈ conditions, condition.Known situation.bits)
    (wellFormed : ∀ condition ∈ conditions, condition.WellFormed) :
    (∃ pair ∈ expandAll situation.bits [(0, 0)] conditions,
        situation.features &&& pair.1 = pair.2) ↔
      ∀ condition ∈ conditions,
        condition.passes conditions situation = true := by
  rw [← exists_meets_iff fit known wellFormed, expandAll_eq_crossProduct]
  constructor
  · rintro ⟨pair, member, passes⟩
    obtain ⟨cube, cubeMember, rfl⟩ := List.mem_map.mp member
    refine ⟨cube, cubeMember, ?_⟩
    exact (and_mask_eq_value_iff _ fun _ inCube =>
      cube_inside fit known cubeMember inCube).mp passes
  · rintro ⟨cube, cubeMember, meets⟩
    refine ⟨cubePair cube, List.mem_map_of_mem cubeMember, ?_⟩
    exact (and_mask_eq_value_iff _ fun _ inCube =>
      cube_inside fit known cubeMember inCube).mpr meets

theorem getLsbD_addPlans
    (planNames listed : List Str) {index : Nat} (inside : index < 32) :
    (addPlans planNames 0 listed).getLsbD index =
      decide (∃ name ∈ listed, planNames.idxOf name = index) := by
  have asCube :
      addPlans planNames 0 listed =
        cubeMask
          (listed.map fun name => (planNames.idxOf name, true)) := by
    rw [addPlans, cubeMask, List.foldl_map]
  rw [asCube, getLsbD_cubeMask inside]
  simp [List.mem_map]

/-- The plan test of a rule asks for a listed plan, or for nothing. -/
theorem planMask_admits {situation : Situation}
    (distinct : situation.ruleSet.planNames.Nodup)
    (fits : situation.ruleSet.planNames.length ≤ kMaxPlans)
    {rule : SourceRule}
    (known : rule.plansKnown situation.ruleSet.planNames = true) :
    (rule.planMask situation.ruleSet.planNames == 0 ||
        rule.planMask situation.ruleSet.planNames &&&
          planBitFor situation.record != 0) =
      (rule.plans == some [] || rule.namesPlan situation) := by
  unfold SourceRule.plansKnown at known
  unfold SourceRule.planMask SourceRule.namesPlan
  cases shape : rule.plans with
  | none => simp
  | some listed =>
    rw [shape] at known
    dsimp only at known ⊢
    rw [List.all_eq_true] at known
    cases listed with
    | nil => simp [addPlans]
    | cons first later =>
      have nonzero :
          addPlans situation.ruleSet.planNames 0 (first :: later) ≠
            0 := by
        intro vanishes
        have firstKnown :=
          List.contains_iff_mem.mp (known first List.mem_cons_self)
        have inside := (List.idxOf_lt_length_of_mem firstKnown).trans_le fits
        have firstBit :=
          getLsbD_addPlans situation.ruleSet.planNames (first :: later) inside
        rw [vanishes] at firstBit
        simp at firstBit
      have notZero :
          (addPlans situation.ruleSet.planNames 0 (first :: later) ==
            0) = false := by
        simpa using nonzero
      rw [notZero, Bool.false_or, Bool.eq_iff_iff, bne_iff_ne]
      simp only [reduceCtorEq, beq_iff_eq, Option.some.injEq,
        Bool.or_eq_true, false_or, List.any_eq_true,
        Situation.planName]
      cases situation.record with
      | none => simp [planBitFor]
      | some record =>
        simp only [planBitFor, Option.bind_some]
        by_cases large : kMaxPlans ≤ record.planId.toNat
        · rw [if_pos large, List.getElem?_eq_none (fits.trans large)]
          simp
        · have inside : record.planId.toNat < 32 := Nat.lt_of_not_le large
          rw [if_neg large]
          refine (and_oneBit_ne_zero_iff inside _).trans ?_
          rw [getLsbD_addPlans _ _ inside, decide_eq_true_iff]
          constructor
          · rintro ⟨name, member, position⟩
            refine ⟨name, member, ?_⟩
            rw [← position]
            exact List.getElem?_idxOf
              (List.contains_iff_mem.mp (known name member))
          · rintro ⟨name, member, placed⟩
            refine ⟨name, member, ?_⟩
            obtain ⟨bound, atPlace⟩ := List.getElem?_eq_some_iff.mp placed
            rw [← atPlace]
            exact distinct.idxOf_getElem _ bound

/-- A rule set whose table comes from a list of source rules. -/
structure CompiledFrom (ruleSet : RuleSet) (sources : List SourceRule) :
    Prop where
  dnnsDistinct : ruleSet.dnnNames.Nodup
  dnnsFit : ruleSet.dnnNames.length ≤ kMaxDnns
  plansDistinct : ruleSet.planNames.Nodup
  plansFit : ruleSet.planNames.length ≤ kMaxPlans
  tables :
    ruleSet.toPredicateTables = internAll {} (allConditions sources)
  tablesFit : ruleSet.toPredicateTables.Within
  rules :
    ruleSet.rules =
      sortRules
        (sources.flatMap
          (SourceRule.compiled
            ⟨ruleSet.toPredicateTables, ruleSet.dnnNames⟩
            ruleSet.planNames))
  writable : ∀ source ∈ sources, source.Writable
  namesKnown :
    ∀ condition ∈ allConditions sources,
      condition.namesKnown ruleSet.dnnNames = true
  plansKnown :
    ∀ source ∈ sources, source.plansKnown ruleSet.planNames = true
  idsDistinct : (sources.map SourceRule.id).Nodup
  idsNonzero : ∀ source ∈ sources, source.id ≠ 0

/-- Source rules in the order the engine scans them. -/
def scanOrder (sources : List SourceRule) : List SourceRule :=
  sortByRank (fun source => source.priority.toNat) sources

namespace CompiledFrom

variable {ruleSet : RuleSet} {sources : List SourceRule}

variable (compiledFrom : CompiledFrom ruleSet sources)

include compiledFrom

theorem fit :
    BitTables.Fit ⟨ruleSet.toPredicateTables, ruleSet.dnnNames⟩ :=
  { dnnsDistinct := compiledFrom.dnnsDistinct
    dnns := compiledFrom.dnnsFit
    windows := compiledFrom.tablesFit.1
    thresholds := compiledFrom.tablesFit.2 }

variable {source : SourceRule} {rule : CompiledRule}

theorem known (member : source ∈ sources) {condition : Condition}
    (ofSource : condition ∈ source.conditions) :
    condition.Known ⟨ruleSet.toPredicateTables, ruleSet.dnnNames⟩ := by
  have amongAll : condition ∈ allConditions sources :=
    List.mem_flatMap.mpr ⟨source, member, ofSource⟩
  refine (compiledFrom.writable source member condition ofSource).known
    ?_ (compiledFrom.namesKnown condition amongAll)
  show condition.Interned ruleSet.toPredicateTables
  rw [compiledFrom.tables]
  exact interned_internAll {} amongAll

/-- The scan order of the table is the scan order of the source rules. -/
theorem rules_eq :
    ruleSet.rules =
      (scanOrder sources).flatMap
        (SourceRule.compiled
          ⟨ruleSet.toPredicateTables, ruleSet.dnnNames⟩
          ruleSet.planNames) := by
  rw [compiledFrom.rules]
  refine sortByRank_flatMap ?_ ?_ sources
  · intro source
    rw [← List.length_pos_iff, SourceRule.length_compiled]
    exact totalWidth_pos _
  · intro source rule member
    obtain ⟨pair, _, rfl⟩ := List.mem_map.mp member
    rfl

theorem eq_of_id {first second : SourceRule}
    (firstMember : first ∈ sources) (secondMember : second ∈ sources)
    (sameId : first.id = second.id) :
    first = second :=
  List.inj_on_of_nodup_map compiledFrom.idsDistinct firstMember
    secondMember sameId

theorem exists_block_of_mem (member : rule ∈ ruleSet.rules) :
    ∃ source ∈ sources,
      rule ∈ source.compiled
        ⟨ruleSet.toPredicateTables, ruleSet.dnnNames⟩
        ruleSet.planNames := by
  rw [compiledFrom.rules] at member
  exact List.mem_flatMap.mp ((sortByRank_perm _).mem_iff.mp member)

theorem exists_source_of_mem (member : rule ∈ ruleSet.rules) :
    ∃ source ∈ sources,
      rule.id = source.id ∧ rule.priority = source.priority ∧
        rule.action = source.action := by
  obtain ⟨source, sourceMember, ruleMember⟩ :=
    compiledFrom.exists_block_of_mem member
  obtain ⟨pair, _, rfl⟩ := List.mem_map.mp ruleMember
  exact ⟨source, sourceMember, rfl, rfl, rfl⟩

/-- Every rule of a block tests the bit of a feature its rule requires. -/
theorem matchMask_of_require (member : source ∈ sources)
    {feature : Feature} {want : Bool}
    (required : Condition.require feature want ∈ source.conditions)
    (ruleMember : rule ∈ ruleSet.rules) (sameId : rule.id = source.id) :
    rule.matchMask.getLsbD
        (feature.position
          ⟨ruleSet.toPredicateTables, ruleSet.dnnNames⟩) = true := by
  obtain ⟨other, otherMember, inBlock⟩ :=
    compiledFrom.exists_block_of_mem ruleMember
  obtain ⟨pair, pairMember, rfl⟩ := List.mem_map.mp inBlock
  cases compiledFrom.eq_of_id otherMember member sameId
  rw [expandAll_eq_crossProduct] at pairMember
  obtain ⟨cube, cubeMember, rfl⟩ := List.mem_map.mp pairMember
  obtain ⟨parts, chosen, rfl⟩ := (mem_crossProduct _ _).mp cubeMember
  rw [List.forall₂_map_right_iff] at chosen
  obtain ⟨part, partMember, partOf⟩ :=
    exists_mem_right_of_forall₂ chosen.flip required
  cases List.mem_singleton.mp partOf
  have inCube :
      (feature.position ⟨ruleSet.toPredicateTables, ruleSet.dnnNames⟩,
        want) ∈ parts.flatten :=
    List.mem_flatten.mpr ⟨_, partMember, List.mem_singleton_self _⟩
  have inside :=
    cube_inside compiledFrom.fit
      (fun _ ofSource => compiledFrom.known otherMember ofSource)
      cubeMember inCube
  show (cubeMask parts.flatten).getLsbD _ = true
  rw [getLsbD_cubeMask inside, decide_eq_true_iff]
  exact List.mem_map.mpr ⟨_, inCube, rfl⟩

theorem exists_rule_of_mem (member : source ∈ sources) :
    ∃ rule ∈ ruleSet.rules, rule.id = source.id := by
  have nonempty :
      0 < (source.compiled
        ⟨ruleSet.toPredicateTables, ruleSet.dnnNames⟩
        ruleSet.planNames).length := by
    rw [SourceRule.length_compiled]
    exact totalWidth_pos _
  obtain ⟨rule, ruleMember⟩ := List.exists_mem_of_length_pos nonempty
  refine ⟨rule, ?_, ?_⟩
  · rw [compiledFrom.rules]
    exact (sortByRank_perm _).mem_iff.mpr
      (List.mem_flatMap.mpr ⟨source, member, ruleMember⟩)
  · obtain ⟨pair, _, rfl⟩ := List.mem_map.mp ruleMember
    rfl

omit compiledFrom

variable {situation : Situation}

/-- The scan of a block finds a rule exactly when its source rule fires. -/
theorem find?_compiled (compiledFrom : CompiledFrom situation.ruleSet sources)
    (member : source ∈ sources) :
    ((source.compiled situation.bits situation.ruleSet.planNames).find?
        (·.matches situation.features (planBitFor situation.record))).map
        (fun rule => (rule.id, rule.action)) =
      if source.fires situation then
        some (source.id, source.action)
      else
        none := by
  have conditionsPass :=
    any_pair_matches compiledFrom.fit
      (fun condition ofSource => compiledFrom.known member ofSource)
      (fun condition ofSource =>
        (compiledFrom.writable source member condition ofSource).wellFormed)
  have plansPass :=
    planMask_admits compiledFrom.plansDistinct compiledFrom.plansFit
      (compiledFrom.plansKnown source member)
  have fires_iff :
      source.fires situation = true ↔
        ∃ rule ∈
          source.compiled situation.bits situation.ruleSet.planNames,
          rule.matches situation.features
            (planBitFor situation.record) = true := by
    rw [SourceRule.fires, Bool.and_eq_true, ← plansPass,
      List.all_eq_true, ← conditionsPass]
    simp only [SourceRule.compiled, compiledRules, List.mem_map,
      exists_exists_and_eq_and, CompiledRule.matches, Bool.and_eq_true,
      beq_iff_eq]
    constructor
    · rintro ⟨plan, pair, pairMember, passes⟩
      exact ⟨pair, pairMember, passes, plan⟩
    · rintro ⟨pair, pairMember, passes, plan⟩
      exact ⟨plan, pair, pairMember, passes⟩
  cases search :
      (source.compiled situation.bits
        situation.ruleSet.planNames).find?
        (·.matches situation.features
          (planBitFor situation.record)) with
  | none =>
    have silent : ¬ source.fires situation = true := by
      rw [fires_iff]
      rintro ⟨rule, ruleMember, passes⟩
      exact List.find?_eq_none.mp search rule ruleMember passes
    rw [if_neg silent]
    rfl
  | some rule =>
    have ruleMember := List.mem_of_find?_eq_some search
    have ruleMatches :
        rule.matches situation.features
          (planBitFor situation.record) = true := by
      simpa using List.find?_some search
    rw [if_pos (fires_iff.mpr ⟨rule, ruleMember, ruleMatches⟩)]
    obtain ⟨pair, _, rfl⟩ := List.mem_map.mp ruleMember
    rfl

/-- The engine decides by the first source rule that fires. -/
theorem evaluate_eq (compiledFrom : CompiledFrom situation.ruleSet sources) :
    evaluate situation.ruleSet situation.request situation.record
        situation.now =
      decisionFor situation.ruleSet situation.request situation.record
        (((scanOrder sources).find? (·.fires situation)).map
          fun source => (source.id, source.action)) := by
  have sortedMember : ∀ source ∈ scanOrder sources, source ∈ sources :=
    fun source member => (sortByRank_perm sources).mem_iff.mp member
  rw [evaluate, firstHit, compiledFrom.rules_eq, List.find?_flatMap]
  congr 1
  generalize scanOrder sources = order at sortedMember
  induction order with
  | nil => rfl
  | cons source later inductionHypothesis =>
    obtain ⟨member, laterMember⟩ := List.forall_mem_cons.mp sortedMember
    have block := compiledFrom.find?_compiled member
    rw [List.findSome?_cons]
    by_cases fires : source.fires situation = true
    · rw [if_pos fires] at block
      obtain ⟨rule, search, identity⟩ := Option.map_eq_some_iff.mp block
      rw [Situation.features, Situation.bits] at search
      rw [search, List.find?_cons_of_pos (by exact fires)]
      exact congrArg some identity
    · rw [if_neg fires, Option.map_eq_none_iff, Situation.features,
        Situation.bits] at block
      rw [block, List.find?_cons_of_neg (by exact fires)]
      exact inductionHypothesis laterMember

end CompiledFrom

/-- Identifiers of rules are nonzero. -/
theorem ruleIdOf_ne_zero
    {item : Node} {id : UInt32} (read : ruleIdOf item = some id) :
    id ≠ 0 := by
  obtain ⟨value, _, checked⟩ := Option.bind_eq_some_iff.mp read
  split at checked
  case isTrue =>
    cases checked
  case isFalse inRange =>
    cases checked
    rw [not_or, UInt64.not_lt] at inRange
    intro isZero
    refine inRange.1 (UInt64.toNat_inj.mp ?_)
    have small : value.toNat ≤ 0xFFFFFFFF := UInt64.le_iff_toNat_le.mp inRange.2
    have zeroNat := congrArg UInt32.toNat isZero
    rw [UInt64.toNat_toUInt32] at zeroNat
    simp at zeroNat ⊢
    omega

/-- The DNN table has distinct names within its capacity. -/
theorem loadDnnItems_result {items : List Node} {names final : List Str}
    (distinct : names.Nodup) (fits : names.length ≤ kMaxDnns)
    (loaded : (loadDnnItems items names).result = some final) :
    final.Nodup ∧ final.length ≤ kMaxDnns := by
  induction items generalizing names with
  | nil =>
    cases loaded
    exact ⟨distinct, fits⟩
  | cons item later inductionHypothesis =>
    rw [loadDnnItems] at loaded
    split_ifs at loaded with notScalar full repeated
    · simp at loaded
    · simp at loaded
    · simp at loaded
    · refine inductionHypothesis ?_ ?_ loaded
      · have fresh : item.text ∉ names := fun member =>
          repeated (List.contains_iff_mem.mpr member)
        exact List.nodup_append.mpr ⟨distinct, by simp, by
          rintro name member _ hit rfl
          cases List.mem_singleton.mp hit
          exact fresh member⟩
      · rw [List.length_append, List.length_singleton]
        omega

/-- A plan table with distinct names within its capacity. -/
structure PlanTable.Fit (table : PlanTable) : Prop where
  distinct : table.names.Nodup
  fits : table.names.length ≤ kMaxPlans
  sameLength : table.plans.length = table.names.length

/-- A plan that is read has a fresh name and a place in the table. -/
theorem loadPlanItems_cons_result
    {item : Node} {later : List Node} {table final : PlanTable}
    (loaded : (loadPlanItems (item :: later) table).result = some final) :
    ∃ name plan,
      name ∉ table.names ∧ table.names.length < kMaxPlans ∧
        (readPlan item name table.names.length).result = some plan ∧
        (loadPlanItems later
          { names := table.names ++ [name]
            plans := table.plans ++ [plan] }).result = some final := by
  rw [loadPlanItems] at loaded
  by_cases notMap : item.isMap = false
  · rw [if_pos notMap] at loaded
    simp at loaded
  · rw [if_neg notMap, Report.result_bind] at loaded
    have warned : (warnAll (checkUnknownKeys item planKeys)).result = some () :=
      rfl
    rw [warned, Option.bind_some] at loaded
    cases named : planName item with
    | none =>
      rw [named] at loaded
      simp at loaded
    | some name =>
      rw [named] at loaded
      dsimp only at loaded
      split_ifs at loaded with full repeated
      · simp at loaded
      · simp at loaded
      · rw [Report.result_bind, Option.bind_eq_some_iff] at loaded
        obtain ⟨plan, planRead, rest⟩ := loaded
        have fresh : name.text ∉ table.names := fun member =>
          repeated (List.contains_iff_mem.mpr member)
        exact ⟨name.text, plan, fresh, Nat.lt_of_not_le full, planRead, rest⟩

/-- The plan table has distinct names within its capacity. -/
theorem loadPlanItems_result {items : List Node} {table final : PlanTable}
    (fit : table.Fit)
    (loaded : (loadPlanItems items table).result = some final) :
    final.Fit := by
  induction items generalizing table with
  | nil =>
    cases loaded
    exact fit
  | cons item later inductionHypothesis =>
    obtain ⟨name, plan, fresh, roomLeft, _, rest⟩ :=
      loadPlanItems_cons_result loaded
    refine inductionHypothesis ⟨?_, ?_, ?_⟩ rest
    · exact List.nodup_append.mpr ⟨fit.distinct, by simp, by
        rintro other member _ hit rfl
        cases List.mem_singleton.mp hit
        exact fresh member⟩
    · rw [List.length_append, List.length_singleton]
      omega
    · rw [List.length_append, List.length_append,
        fit.sameLength, List.length_singleton,
        List.length_singleton]

theorem loadPlans_result {node : Option Node} {plans : PlanTable}
    (loaded : (loadPlans node).result = some plans) :
    plans.Fit := by
  unfold loadPlans at loaded
  split at loaded
  · exact loadPlanItems_result ⟨List.nodup_nil, Nat.zero_le _, rfl⟩ loaded
  · simp at loaded

/-- What the sections of an accepted file produce. -/
theorem compileSections_result_iff :
    (compileSections files root version).result = some ruleSet ↔
      ∃ dnnNames redirects plans partners blocklist defaultAction load,
        (loadDnns (root.find "dnns".toList)).result = some dnnNames ∧
          (loadRedirects (root.find "redirects".toList)).result =
            some redirects ∧
          (loadPlans (root.find "plans".toList)).result = some plans ∧
          (loadRoamingPartners
              (root.find "roaming_partners".toList)).result =
            some partners ∧
          (loadImeiBlocklist files
              (root.find "imei_blocklist".toList)).result =
            some blocklist ∧
          (loadDefaultAction redirects
              (root.find "default_action".toList)).result =
            some defaultAction ∧
          (loadRules
              { dnnNames := dnnNames
                redirects := redirects
                plans := plans }
              (root.find "rules".toList)).result =
            some load ∧
          ruleSet =
            { toPredicateTables := load.tables
              version := version
              rules := load.rules
              plans := plans.plans
              roamingPartners := partners
              imeiBlocklist := blocklist
              planNames := plans.names
              dnnNames := dnnNames
              redirectTargets := redirects.targets
              defaultAction := defaultAction } := by
  have warned :
      (warnAll (checkUnknownKeys root fileKeys)).result = some () := rfl
  simp only [compileSections, Report.result_bind, warned,
    Option.bind_some, Option.bind_eq_some_iff, Report.result_pure,
    Option.some.injEq]
  constructor
  · rintro ⟨dnnNames, dnnsRead, redirects, redirectsRead, plans, plansRead,
      partners, partnersRead, blocklist, blocklistRead, defaultAction,
      defaultRead, load, rulesRead, rfl⟩
    exact ⟨dnnNames, redirects, plans, partners, blocklist, defaultAction,
      load, dnnsRead, redirectsRead, plansRead, partnersRead,
      blocklistRead, defaultRead, rulesRead, rfl⟩
  · rintro ⟨dnnNames, redirects, plans, partners, blocklist, defaultAction,
      load, dnnsRead, redirectsRead, plansRead, partnersRead,
      blocklistRead, defaultRead, rulesRead, rfl⟩
    exact ⟨dnnNames, dnnsRead, redirects, redirectsRead, plans, plansRead,
      partners, partnersRead, blocklist, blocklistRead, defaultAction,
      defaultRead, load, rulesRead, rfl⟩

/-- A parsed file is accepted when its sections are; its rules are sorted. -/
theorem compileRoot_ruleSet_iff :
    (compileRoot files root version).ruleSet = some ruleSet ↔
      root.isMap = true ∧
        ∃ unsorted,
          (compileSections files root version).result = some unsorted ∧
            ruleSet =
              { unsorted with rules := sortRules unsorted.rules } := by
  unfold compileRoot
  by_cases isMap : root.isMap = true
  · rw [if_neg (by simp [isMap])]
    simp only [Report.result_eq_some_iff]
    split
    case isTrue clean =>
      simp only [Option.some.injEq]
      constructor
      · rintro rfl
        exact ⟨isMap, _, ⟨clean, rfl⟩, rfl⟩
      · rintro ⟨_, unsorted, ⟨_, rfl⟩, rfl⟩
        rfl
    case isFalse dirty =>
      simp [dirty]
  · have notMap : root.isMap = false := by simpa using isMap
    simp [notMap]

theorem compileRules_ruleSet_iff {text : Str} :
    (compileRules files text version).ruleSet = some ruleSet ↔
      ∃ root,
        Yaml.parse text = .ok root ∧
          (compileRoot files root version).ruleSet = some ruleSet := by
  unfold compileRules
  cases Yaml.parse text with
  | ok root => simp
  | error failure => cases failure <;> simp

/-- The rules of an accepted document and the table they compile to. -/
theorem compileRoot_compiledFrom
    (accepted : (compileRoot files root version).ruleSet = some ruleSet) :
    ∃ sources,
      sourceRules root = some sources ∧ CompiledFrom ruleSet sources := by
  obtain ⟨_, unsorted, sections, rfl⟩ := compileRoot_ruleSet_iff.mp accepted
  obtain ⟨dnnNames, redirects, plans, partners, blocklist, defaultAction,
    load, dnnsRead, redirectsRead, plansRead, _, _, _, rulesRead, rfl⟩ :=
    compileSections_result_iff.mp sections
  have dnnsFit : dnnNames.Nodup ∧ dnnNames.length ≤ kMaxDnns := by
    unfold loadDnns at dnnsRead
    split at dnnsRead
    · exact loadDnnItems_result List.nodup_nil (Nat.zero_le _) dnnsRead
    · simp at dnnsRead
  have plansFit := loadPlans_result plansRead
  obtain ⟨line, items, sources, found, read, acceptable, rfl⟩ :=
    loadRules_result_iff.mp rulesRead
  have writable : ∀ source ∈ sources, source.Writable := by
    intro source member
    obtain ⟨item, _, itemRead⟩ := exists_mem_of_mem_mapM read member
    exact readRule_writable itemRead
  obtain ⟨tables, rules⟩ :=
    addAll_eq
      { dnnNames := dnnNames, redirects := redirects, plans := plans }
      {} writable
  unfold sourceRules
  rw [(Report.result_eq_some_iff.mp redirectsRead).2, found]
  refine ⟨sources, read,
    { dnnsDistinct := dnnsFit.1
      dnnsFit := dnnsFit.2
      plansDistinct := plansFit.distinct
      plansFit := plansFit.fits
      tables := tables
      tablesFit := ?_
      rules := ?_
      writable := writable
      namesKnown := acceptable.names
      plansKnown := acceptable.plans
      idsDistinct := acceptable.distinct
      idsNonzero := ?_ }⟩
  · show PredicateTables.Within _
    rw [tables]
    exact acceptable.tables
  · dsimp only
    rw [rules, tables]
    rfl
  · intro source member isZero
    obtain ⟨item, _, itemRead⟩ := exists_mem_of_mem_mapM read member
    obtain ⟨_, readId, _, _⟩ := readRule_eq_some_iff.mp itemRead
    rw [isZero] at readId
    exact ruleIdOf_ne_zero readId rfl

theorem compileRulesFromFile_plans {path : Str}
    (accepted :
      (compileRulesFromFile files path version).ruleSet = some ruleSet) :
    ruleSet.version = version ∧
      ruleSet.planCount = ruleSet.planNames.length ∧
      ruleSet.planNames.length ≤ kMaxPlans := by
  rw [compileRulesFromFile] at accepted
  split at accepted
  · cases accepted
  · obtain ⟨root, _, rootAccepted⟩ := compileRules_ruleSet_iff.mp accepted
    obtain ⟨_, unsorted, sections, rfl⟩ :=
      compileRoot_ruleSet_iff.mp rootAccepted
    obtain ⟨_, _, plans, _, _, _, _, _, _, plansRead, _, _, _, _, rfl⟩ :=
      compileSections_result_iff.mp sections
    have fit := loadPlans_result plansRead
    exact ⟨rfl, fit.sameLength, fit.fits⟩

end Policyd
