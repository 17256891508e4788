import Policyd.DecisionRanges
import Policyd.YamlErrorFlag

namespace Policyd

open MaskedWords

/-!
# The invariant of a compiled table

The engine reads a rule set without checking it.  It indexes the plans by their
identifier, and takes every bit of a mask to stand for a predicate.
`WellFormedTable` is what it relies on, and every accepted document has it:
the table is a list of blocks, one for each source rule, in scan order.
-/

/-- No predicate has two entries. -/
structure PredicateTables.Distinct (tables : PredicateTables) : Prop where
  timeWindows : tables.timeWindows.Nodup
  usageThresholds : tables.usageThresholdsPermille.Nodup

namespace PredicateTables.Distinct

/-- A table gets an entry for a predicate that had none. -/
theorem intern_feature {tables : PredicateTables}
    (distinct : tables.Distinct) (feature : Feature) :
    (feature.intern tables).Distinct := by
  cases feature with
  | usage permille =>
    rw [Feature.intern]
    by_cases present : permille ∈ tables.usageThresholdsPermille
    · rw [if_pos present]
      exact distinct
    · rw [if_neg present]
      exact
        { distinct with
          usageThresholds :=
            List.concat_eq_append ▸
              distinct.usageThresholds.concat present }
  | window span =>
    rw [Feature.intern]
    by_cases present : span ∈ tables.timeWindows
    · rw [if_pos present]
      exact distinct
    · rw [if_neg present]
      exact
        { distinct with
          timeWindows :=
            List.concat_eq_append ▸ distinct.timeWindows.concat present }
  | fixed _ => exact distinct
  | status _ => exact distinct
  | rat _ => exact distinct
  | dnn _ => exact distinct

/-- Interning conditions keeps the tables free of repetitions. -/
theorem internAll {tables : PredicateTables}
    (distinct : tables.Distinct) (conditions : List Condition) :
    (internAll tables conditions).Distinct := by
  induction conditions generalizing tables with
  | nil => exact distinct
  | cons condition later inductionHypothesis =>
    rw [Policyd.internAll, List.foldl_cons]
    apply inductionHypothesis
    cases condition with
    | require feature _ => exact distinct.intern_feature feature
    | oneOf _ => exact distinct
    | noneOf _ => exact distinct

end PredicateTables.Distinct

/-- A bit of the feature word with a predicate behind it. -/
def RuleSet.DefinesBit (ruleSet : RuleSet) (index : Nat) : Prop :=
  (∃ access : RatType, index = Feat.kRatBase + access.code) ∨
    (Feat.kDnnBase ≤ index ∧
      index < Feat.kDnnBase + ruleSet.dnnNames.length) ∨
    (Feat.kStatusActive ≤ index ∧ index < Feat.kTimeWindowBase) ∨
    (Feat.kTimeWindowBase ≤ index ∧
      index < Feat.kTimeWindowBase + ruleSet.timeWindows.length) ∨
    (Feat.kUsageThresholdBase ≤ index ∧
      index <
        Feat.kUsageThresholdBase + ruleSet.usageThresholdsPermille.length)

variable {ruleSet : RuleSet}

theorem RuleSet.definesBit_position {feature : Feature}
    (known : feature.Known ⟨ruleSet.toPredicateTables, ruleSet.dnnNames⟩) :
    ruleSet.DefinesBit
      (feature.position ⟨ruleSet.toPredicateTables, ruleSet.dnnNames⟩) := by
  cases feature with
  | rat access => exact .inl ⟨access, rfl⟩
  | dnn name =>
    refine .inr (.inl ⟨Nat.le_add_right _ _, ?_⟩)
    exact Nat.add_lt_add_left (List.idxOf_lt_length_of_mem known) _
  | fixed position =>
    refine .inr (.inr (.inl ⟨?_, known.2⟩))
    exact Nat.le_trans (by decide) known.1
  | status state =>
    refine .inr (.inr (.inl ?_))
    have range := statusPosition_range state
    exact ⟨range.1, range.2.trans_le (by decide)⟩
  | window span =>
    refine .inr (.inr (.inr (.inl ⟨Nat.le_add_right _ _, ?_⟩)))
    exact Nat.add_lt_add_left (List.idxOf_lt_length_of_mem known) _
  | usage permille =>
    refine .inr (.inr (.inr (.inr ⟨Nat.le_add_right _ _, ?_⟩)))
    exact Nat.add_lt_add_left (List.idxOf_lt_length_of_mem known) _

theorem SourceRule.lt_of_planMask {planNames : List Str} {rule : SourceRule}
    (known : rule.plansKnown planNames = true)
    {index : Nat}
    (isSet : (rule.planMask planNames).getLsbD index = true) :
    index < planNames.length := by
  have inside := BitVec.lt_of_getLsbD isSet
  unfold SourceRule.plansKnown at known
  unfold SourceRule.planMask at isSet
  cases shape : rule.plans with
  | none =>
    rw [shape] at isSet
    simp at isSet
  | some listed =>
    rw [shape] at known isSet
    dsimp only at known isSet
    rw [getLsbD_addPlans _ _ inside, decide_eq_true_iff] at isSet
    obtain ⟨name, member, rfl⟩ := isSet
    rw [List.all_eq_true] at known
    exact List.idxOf_lt_length_of_mem
      (List.contains_iff_mem.mp (known name member))

/-- What the engine relies on when it reads a rule set. -/
structure RuleSet.WellFormedTable
    (ruleSet : RuleSet)
    (sources : List SourceRule) : Prop where
  sorted :
    ruleSet.rules.Pairwise fun earlier later =>
      earlier.priority ≤ later.priority
  contiguous : Contiguous CompiledRule.id ruleSet.rules
  blockSize :
    ∀ id : UInt32,
      ruleSet.rules.countP (fun rule => rule.id = id) ≤
        kMaxExpansionPerRule
  shared :
    ∀ first ∈ ruleSet.rules, ∀ second ∈ ruleSet.rules,
      first.id = second.id →
        first.priority = second.priority ∧
          first.planMask = second.planMask ∧
          first.action = second.action
  oneSource :
    ∀ first ∈ ruleSet.rules, ∃ source ∈ sources,
      ∀ rule ∈ ruleSet.rules,
        rule.id = first.id ↔
          rule ∈
            source.compiled
              ⟨ruleSet.toPredicateTables, ruleSet.dnnNames⟩
              ruleSet.planNames
  idsNonzero : ∀ rule ∈ ruleSet.rules, rule.id ≠ 0
  size : ruleSet.rules.length ≤ kMaxRules
  valueInMask :
    ∀ rule ∈ ruleSet.rules,
      rule.matchValue &&& rule.matchMask = rule.matchValue
  maskDefined :
    ∀ rule ∈ ruleSet.rules, ∀ index,
      rule.matchMask.getLsbD index = true → ruleSet.DefinesBit index
  planMaskDefined :
    ∀ rule ∈ ruleSet.rules, ∀ index,
      rule.planMask.getLsbD index = true → index < ruleSet.planCount
  predicatesDistinct : ruleSet.toPredicateTables.Distinct
  windowsFit : ruleSet.timeWindows.length ≤ kMaxTimeWindows
  thresholdsFit :
    ruleSet.usageThresholdsPermille.length ≤ kMaxUsageThresholds
  planNames : ruleSet.planNames.length = ruleSet.planCount
  plansFit : ruleSet.planCount ≤ kMaxPlans
  planIds :
    ∀ (index : Nat) (plan : PlanConfig),
      ruleSet.plans[index]? = some plan → plan.id.toNat = index

/-- The size limits of an accepted document. -/
structure RuleSet.Sized
    (ruleSet : RuleSet)
    (sources : List SourceRule) : Prop where
  widths :
    ∀ source ∈ sources, totalWidth source.conditions ≤ kMaxExpansionPerRule
  room : tableSize sources ≤ kMaxRules
  planNames : ruleSet.planNames.length = ruleSet.planCount

/-- The rules of an accepted document keep to the size limits. -/
theorem compileRoot_sized
    {files : Str → Option Str} {root : Node} {version : UInt32}
    (accepted : (compileRoot files root version).ruleSet = some ruleSet)
    {sources : List SourceRule}
    (sourcesRead : sourceRules root = some sources) :
    ruleSet.Sized sources := by
  obtain ⟨_, unsorted, sections, rfl⟩ := compileRoot_ruleSet_iff.mp accepted
  obtain ⟨dnnNames, redirects, plans, partners, blocklist, defaultAction,
    load, _, redirectsRead, plansRead, _, _, _, rulesRead, rfl⟩ :=
    compileSections_result_iff.mp sections
  obtain ⟨line, items, loaded, found, read, acceptable, rfl⟩ :=
    loadRules_result_iff.mp rulesRead
  unfold sourceRules at sourcesRead
  rw [(Report.result_eq_some_iff.mp redirectsRead).2, found] at sourcesRead
  cases read.symm.trans sourcesRead
  have room := acceptable.room
  rw [List.length_nil, Nat.zero_add] at room
  exact
    { widths := acceptable.widths
      room := room
      planNames := (loadPlans_result plansRead).sameLength.symm }

namespace CompiledFrom

variable {ruleSet : RuleSet} {sources : List SourceRule}

variable (compiledFrom : CompiledFrom ruleSet sources)

include compiledFrom

theorem scanOrder_distinct :
    ((scanOrder sources).map SourceRule.id).Nodup :=
  ((sortByRank_perm sources).map SourceRule.id).nodup_iff.mpr
    compiledFrom.idsDistinct

theorem length_rules :
    ruleSet.rules.length = tableSize sources := by
  rw [compiledFrom.rules, sortRules, (sortByRank_perm _).length_eq,
    List.length_flatMap, tableSize]
  simp only [SourceRule.length_compiled]

end CompiledFrom

theorem SourceRule.of_mem_compiled
    {bits : BitTables} {planNames : List Str} {source : SourceRule}
    {rule : CompiledRule}
    (member : rule ∈ source.compiled bits planNames) :
    rule.id = source.id ∧
      rule.priority = source.priority ∧
      rule.planMask = source.planMask planNames ∧
      rule.action = source.action ∧
      ∃ cube ∈ crossProduct
          (source.conditions.map (Condition.alternatives bits)),
        (rule.matchMask, rule.matchValue) = cubePair cube := by
  obtain ⟨pair, pairMember, rfl⟩ := List.mem_map.mp member
  rw [expandAll_eq_crossProduct] at pairMember
  obtain ⟨cube, cubeMember, rfl⟩ := List.mem_map.mp pairMember
  exact ⟨rfl, rfl, rfl, rfl, cube, cubeMember, rfl⟩

namespace CompiledFrom

variable {ruleSet : RuleSet} {sources : List SourceRule}

theorem mem_scanOrder {source : SourceRule} :
    source ∈ scanOrder sources ↔ source ∈ sources :=
  (sortByRank_perm sources).mem_iff

variable (compiledFrom : CompiledFrom ruleSet sources)

include compiledFrom

/-- The rules with one identifier are the block of one source rule. -/
theorem exists_block
    {first : CompiledRule} (firstMember : first ∈ ruleSet.rules) :
    ∃ source ∈ sources,
      ∀ rule ∈ ruleSet.rules,
        rule.id = first.id ↔
          rule ∈ source.compiled
            ⟨ruleSet.toPredicateTables, ruleSet.dnnNames⟩
            ruleSet.planNames := by
  obtain ⟨source, sourceMember, fromSource⟩ :=
    compiledFrom.exists_block_of_mem firstMember
  refine ⟨source, sourceMember, ?_⟩
  intro rule ruleMember
  rw [compiledFrom.rules_eq] at ruleMember
  rw [mem_block_iff (fun _ _ member => (SourceRule.of_mem_compiled member).1)
    compiledFrom.scanOrder_distinct (mem_scanOrder.mpr sourceMember)
    ruleMember, (SourceRule.of_mem_compiled fromSource).1]

/-- The rules with one identifier share the fields of their source rule. -/
theorem shared_of_id {first second : CompiledRule}
    (firstMember : first ∈ ruleSet.rules)
    (secondMember : second ∈ ruleSet.rules) (sameId : first.id = second.id) :
    first.priority = second.priority ∧
      first.planMask = second.planMask ∧
      first.action = second.action := by
  obtain ⟨source, _, block⟩ := compiledFrom.exists_block firstMember
  obtain ⟨_, firstPriority, firstPlans, firstAction, _⟩ :=
    SourceRule.of_mem_compiled ((block first firstMember).mp rfl)
  obtain ⟨_, secondPriority, secondPlans, secondAction, _⟩ :=
    SourceRule.of_mem_compiled ((block second secondMember).mp sameId.symm)
  exact ⟨firstPriority.trans secondPriority.symm,
    firstPlans.trans secondPlans.symm,
    firstAction.trans secondAction.symm⟩

theorem countP_id_le (sized : ruleSet.Sized sources) (id : UInt32) :
    ruleSet.rules.countP (fun rule => rule.id = id) ≤
      kMaxExpansionPerRule := by
  rw [compiledFrom.rules_eq]
  refine countP_flatMap_le
    (fun _ _ member => (SourceRule.of_mem_compiled member).1)
    compiledFrom.scanOrder_distinct ?_ id
  intro source member
  rw [SourceRule.length_compiled]
  exact sized.widths source (mem_scanOrder.mp member)

variable {rule : CompiledRule}

theorem value_in_mask (member : rule ∈ ruleSet.rules) :
    rule.matchValue &&& rule.matchMask = rule.matchValue := by
  obtain ⟨source, _, fromSource⟩ := compiledFrom.exists_block_of_mem member
  obtain ⟨_, _, _, _, cube, _, pair⟩ := SourceRule.of_mem_compiled fromSource
  obtain ⟨mask, value⟩ := Prod.mk.inj pair
  rw [mask, value]
  exact cubeValue_and_cubeMask cube

theorem definesBit_of_mask (member : rule ∈ ruleSet.rules) {index : Nat}
    (isSet : rule.matchMask.getLsbD index = true) :
    ruleSet.DefinesBit index := by
  obtain ⟨source, sourceMember, fromSource⟩ :=
    compiledFrom.exists_block_of_mem member
  obtain ⟨_, _, _, _, cube, cubeMember, pair⟩ :=
    SourceRule.of_mem_compiled fromSource
  have inside := BitVec.lt_of_getLsbD isSet
  rw [(Prod.mk.inj pair).1, getLsbD_cubeMask inside,
    decide_eq_true_iff] at isSet
  obtain ⟨literal, inCube, rfl⟩ := List.mem_map.mp isSet
  obtain ⟨condition, conditionMember, feature, featureMember, position⟩ :=
    exists_feature_of_cube cubeMember inCube
  rw [position]
  exact RuleSet.definesBit_position
    (compiledFrom.known sourceMember conditionMember feature featureMember)

theorem lt_planCount_of_planMask
    (sized : ruleSet.Sized sources) (member : rule ∈ ruleSet.rules)
    {index : Nat}
    (isSet : rule.planMask.getLsbD index = true) :
    index < ruleSet.planCount := by
  obtain ⟨source, sourceMember, fromSource⟩ :=
    compiledFrom.exists_block_of_mem member
  obtain ⟨_, _, planMask, _⟩ := SourceRule.of_mem_compiled fromSource
  rw [planMask] at isSet
  rw [← sized.planNames]
  exact SourceRule.lt_of_planMask
    (compiledFrom.plansKnown source sourceMember) isSet

theorem wellFormedTable
    (sized : ruleSet.Sized sources) (inRange : ruleSet.InRange) :
    ruleSet.WellFormedTable sources := by
  refine
    { sorted := ?_
      contiguous := ?_
      blockSize := compiledFrom.countP_id_le sized
      shared := fun _ firstMember _ secondMember =>
        compiledFrom.shared_of_id firstMember secondMember
      oneSource := fun _ member => compiledFrom.exists_block member
      idsNonzero := fun rule member => (inRange.rules rule member).1
      size := ?_
      valueInMask := fun _ member => compiledFrom.value_in_mask member
      maskDefined := fun _ member _ =>
        compiledFrom.definesBit_of_mask member
      planMaskDefined := fun _ member _ =>
        compiledFrom.lt_planCount_of_planMask sized member
      predicatesDistinct := ?_
      windowsFit := compiledFrom.tablesFit.1
      thresholdsFit := compiledFrom.tablesFit.2
      planNames := sized.planNames
      plansFit := sized.planNames ▸ compiledFrom.plansFit
      planIds := fun index plan found => (inRange.plans index plan found).id }
  · rw [compiledFrom.rules, sortRules]
    refine (sortByRank_pairwise _).imp ?_
    intro earlier later ordered
    exact UInt32.le_iff_toNat_le.mpr ordered
  · rw [compiledFrom.rules_eq]
    exact contiguous_flatMap
      (fun _ _ member => (SourceRule.of_mem_compiled member).1)
      compiledFrom.scanOrder_distinct
  · rw [compiledFrom.length_rules]
    exact sized.room
  · rw [compiledFrom.tables]
    exact PredicateTables.Distinct.internAll ⟨List.nodup_nil, List.nodup_nil⟩ _

end CompiledFrom

theorem compileRules_wellFormedTable
    {files : Str → Option Str} {text : Str} {version : UInt32}
    (accepted : (compileRules files text version).ruleSet = some ruleSet) :
    ∃ root sources,
      Yaml.parse text = .ok root ∧ sourceRules root = some sources ∧
        ruleSet.WellFormedTable sources := by
  obtain ⟨root, parsed, rootAccepted⟩ := compileRules_ruleSet_iff.mp accepted
  obtain ⟨sources, sourcesRead, compiledFrom⟩ :=
    compileRoot_compiledFrom rootAccepted
  exact ⟨root, sources, parsed, sourcesRead,
    compiledFrom.wellFormedTable
      (compileRoot_sized rootAccepted sourcesRead)
      (compileRoot_inRange rootAccepted)⟩

/-- A document gives a rule set exactly when it has no errors. -/
theorem compileRules_ruleSet_isSome_iff
    (files : Str → Option Str) (text : Str) (version : UInt32) :
    (compileRules files text version).ruleSet.isSome = true ↔
      (compileRules files text version).errors = [] := by
  have ended := Yaml.Parser.parse_ended text
  unfold compileRules
  cases parsed : Yaml.parse text with
  | error failure =>
    cases failure with
    | failed message line => simp
    | outOfFuel => exact absurd parsed ended
  | ok root =>
    dsimp only
    unfold compileRoot
    by_cases isMap : root.isMap = false
    · rw [if_pos isMap]
      simp
    · rw [if_neg isMap]
      dsimp only
      by_cases clean : (compileSections files root version).problems = []
      · rw [if_pos clean]
        simp
      · rw [if_neg clean]
        simp [clean]

/--
Compiling any text gives a rule set exactly when it reports no errors, and the
rule set is then a well-formed table of the rules of the document.
-/
theorem compiled_tables_well_formed
    (files : Str → Option Str)
    (text : Str)
    (version : UInt32) :
    ((compileRules files text version).ruleSet.isSome = true ↔
        (compileRules files text version).errors = []) ∧
      ∀ ruleSet, (compileRules files text version).ruleSet = some ruleSet →
        ∃ root sources,
          Yaml.parse text = .ok root ∧
            sourceRules root = some sources ∧
            ruleSet.WellFormedTable sources := by
  refine ⟨compileRules_ruleSet_isSome_iff files text version, ?_⟩
  intro ruleSet accepted
  exact compileRules_wellFormedTable accepted

/-- The table of a file with one rule is well formed. -/
theorem compiled_tables_well_formed_listed_rat :
    ∃ ruleSet root sources,
      (compileRules (fun _ => none) listedRatFile 1).ruleSet =
          some ruleSet ∧
        Yaml.parse listedRatFile = .ok root ∧
        sourceRules root = some sources ∧
        ruleSet.WellFormedTable sources := by
  obtain ⟨ruleSet, _, _, accepted, _⟩ := exists_listedRat
  obtain ⟨root, sources, parsed, read, wellFormed⟩ :=
    (compiled_tables_well_formed (fun _ => none) listedRatFile 1).2
      ruleSet accepted
  exact ⟨ruleSet, root, sources, accepted, parsed, read, wellFormed⟩

end Policyd
