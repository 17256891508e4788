import Policyd.Layout

namespace Policyd

/-!
# Order that does not matter

Moving the conditions of a rule around, or the rules of a file whose priorities
are distinct, changes which bits thresholds and windows get, the order of the
compiled rules and every line number, but neither whether the file is accepted
nor any decision.
-/

/-- The conditions of a rule, in another order and layout. -/
inductive ReorderedWhen : Node → Node → Prop
  | alike {node other : Node} : Alike node other → ReorderedWhen node other
  | fields (line other : Nat) {fields moved others : List (Str × Node)} :
      (fields.map Prod.fst).Nodup → fields.Perm moved →
        List.Forall₂ AlikeField moved others →
          ReorderedWhen (.map line fields) (.map other others)

/-- A rule whose conditions may have been moved. -/
structure ReorderedRule (item other : Node) : Prop where
  isMap : item.isMap = other.isMap
  fields :
    ∀ key, key ≠ "when".toList →
      Option.Rel Alike (item.find key) (other.find key)
  conditions :
    Option.Rel ReorderedWhen (item.find "when".toList)
      (other.find "when".toList)

/-- The rules of a file, moved only if their priorities are distinct. -/
inductive ReorderedRules : Node → Node → Prop
  | alike {node other : Node} : Alike node other → ReorderedRules node other
  | conditions (line other : Nat) {items others : List Node} :
      List.Forall₂ ReorderedRule items others →
        ReorderedRules (.seq line items) (.seq other others)
  | rules (line other : Nat) {items moved others : List Node} :
      (items.filterMap rulePriorityOf).Nodup →
        items.Perm moved → List.Forall₂ ReorderedRule moved others →
          ReorderedRules (.seq line items) (.seq other others)

/-- A document whose conditions and rules may have been moved. -/
structure Reordered (root other : Node) : Prop where
  isMap : root.isMap = other.isMap
  sections :
    ∀ key, key ≠ "rules".toList →
      Option.Rel Alike (root.find key) (other.find key)
  rules :
    Option.Rel ReorderedRules (root.find "rules".toList)
      (other.find "rules".toList)

variable {other item root : Node} {sources others : List SourceRule}
  {items : List Node}

theorem readCondition_alike
    (key : Str) {node : Node} (alike : Alike node other) :
    readCondition key node = readCondition key other := by
  have features : ∀ parse, readFeatures parse node = readFeatures parse other :=
    fun parse => (layoutless_scalar parse).mapM alike.asList
  have span : windowOf node = windowOf other := by
    have starts :
        (node.find "start".toList).bind Node.asTimeOfDay =
          (other.find "start".toList).bind Node.asTimeOfDay :=
      layoutless_asTimeOfDay.optional (alike.find _)
    have ends :
        (node.find "end".toList).bind Node.asTimeOfDay =
          (other.find "end".toList).bind Node.asTimeOfDay :=
      layoutless_asTimeOfDay.optional (alike.find _)
    simp only [windowOf, Option.bind_eq_bind, ← Option.bind_assoc, starts, ends]
  unfold readCondition
  rw [layoutless_asBool _ _ alike, layoutless_asPermille _ _ alike, span]
  simp only [features]

theorem readConditions_reordered (reordered : ReorderedRule item other) :
    Option.Rel List.Perm
      ((whenFields item).bind readConditions)
      ((whenFields other).bind readConditions) := by
  have alikeFields :
      ∀ {fields others : List (Str × Node)},
        List.Forall₂ AlikeField fields others →
          readConditions fields = readConditions others := by
    intro fields others alike
    unfold readConditions
    induction alike with
    | nil => rfl
    | @cons field another _ _ alikeField _ inductionHypothesis =>
      obtain ⟨key, node⟩ := field
      obtain ⟨otherKey, otherNode⟩ := another
      obtain ⟨sameKey, alikeNode⟩ := alikeField
      dsimp only at sameKey alikeNode
      subst sameKey
      rw [List.mapM_cons, List.mapM_cons, inductionHypothesis]
      dsimp only
      rw [readCondition_alike key alikeNode]
  have relOfEq :
      ∀ {first second : Option (List Condition)},
        first = second → Option.Rel List.Perm first second := by
    rintro first _ rfl
    cases first with
    | none => exact .none
    | some conditions => exact .some (.refl conditions)
  have conditions := reordered.conditions
  unfold whenFields
  generalize item.find "when".toList = node at conditions ⊢
  generalize other.find "when".toList = another at conditions ⊢
  cases conditions with
  | none => exact .some .nil
  | some moved =>
    cases moved with
    | alike alikeNode =>
      cases alikeNode with
      | map line another keys values =>
        exact relOfEq (alikeFields (forall₂_alikeField keys values))
      | null line another => exact .none
      | scalar line another text => exact .none
      | seq line another items => exact .none
    | fields line another distinct permuted alike =>
      simp only [Option.bind_some, ← alikeFields alike]
      exact mapM_perm _ permuted

/-- The same rule with its conditions in another order. -/
structure SameRule (rule other : SourceRule) : Prop where
  id : rule.id = other.id
  priority : rule.priority = other.priority
  plans : rule.plans = other.plans
  action : rule.action = other.action
  conditions : rule.conditions.Perm other.conditions

theorem readPlanNames_alike
    (alike :
      Option.Rel Alike (item.find "plans".toList) (other.find "plans".toList)) :
    readPlanNames item = readPlanNames other := by
  unfold readPlanNames
  generalize item.find "plans".toList = node at alike ⊢
  generalize other.find "plans".toList = another at alike ⊢
  cases alike with
  | none => rfl
  | some alikeNode =>
    cases alikeNode with
    | seq line another items =>
      have names := Layoutless.mapM
        (fun _ _ alikeItem => Alike.scalar?_eq alikeItem) items
      exact congrArg (Option.map some) names
    | null line another => rfl
    | scalar line another text => rfl
    | map line another keys values => rfl

theorem readRule_reordered
    (redirects : Redirects) (reordered : ReorderedRule item other) :
    Option.Rel SameRule (readRule redirects item)
      (readRule redirects other) := by
  have sameId : ruleIdOf item = ruleIdOf other := by
    unfold ruleIdOf
    rw [layoutless_asUint.optional (reordered.fields _ (by decide))]
  have samePriority : rulePriorityOf item = rulePriorityOf other := by
    unfold rulePriorityOf
    rw [layoutless_asUint.optional (reordered.fields _ (by decide))]
  have samePlans : readPlanNames item = readPlanNames other :=
    readPlanNames_alike (reordered.fields _ (by decide))
  have sameAction :
      ∀ id,
        (ruleAction redirects id item).result =
          (ruleAction redirects id other).result := by
    intro id
    have alike := reordered.fields "action".toList (by decide)
    unfold ruleAction
    generalize item.find "action".toList = node at alike ⊢
    generalize other.find "action".toList = another at alike ⊢
    cases alike with
    | none => rfl
    | some alikeNode => exact parseAction_alike redirects alikeNode _
  have conditions := readConditions_reordered reordered
  refine rel_of_exists ?_ ?_
  · intro rule read
    obtain ⟨isMap, id, priority, body⟩ := readRule_eq_some_iff.mp read
    obtain ⟨others, readOthers, permuted⟩ :=
      exists_right_of_rel conditions body.conditions
    refine ⟨{ rule with conditions := others }, ?_,
      ⟨rfl, rfl, rfl, rfl, permuted⟩⟩
    refine readRule_eq_some_iff.mpr ⟨?_, ?_, ?_, ?_, readOthers, ?_⟩
    · rw [← reordered.isMap, isMap]
    · rw [← sameId, id]
    · rw [← samePriority, priority]
    · rw [← samePlans, body.plans]
    · rw [← sameAction, body.action]
  · intro rule read
    obtain ⟨isMap, id, priority, body⟩ := readRule_eq_some_iff.mp read
    obtain ⟨others, readOthers, _⟩ :=
      exists_left_of_rel conditions body.conditions
    refine ⟨{ rule with conditions := others }, ?_⟩
    refine readRule_eq_some_iff.mpr ⟨?_, ?_, ?_, ?_, readOthers, ?_⟩
    · rw [reordered.isMap, isMap]
    · rw [sameId, id]
    · rw [samePriority, priority]
    · rw [samePlans, body.plans]
    · rw [sameAction, body.action]

/-- The same rules, moved only if their priorities are distinct. -/
def MovedRules (sources others : List SourceRule) : Prop :=
  ∃ moved,
    (moved = sources ∨
        sources.Perm moved ∧
          (sources.map SourceRule.priority).Nodup) ∧
      List.Forall₂ SameRule moved others

/-- The same rules in any order. -/
def SameRules (sources others : List SourceRule) : Prop :=
  ∃ moved, sources.Perm moved ∧ List.Forall₂ SameRule moved others

theorem MovedRules.same (moved : MovedRules sources others) :
    SameRules sources others := by
  obtain ⟨middle, rfl | ⟨permuted, _⟩, same⟩ := moved
  · exact ⟨_, .refl _, same⟩
  · exact ⟨middle, permuted, same⟩

theorem SameRule.symm {rule other : SourceRule} (same : SameRule rule other) :
    SameRule other rule :=
  ⟨same.id.symm, same.priority.symm, same.plans.symm, same.action.symm,
    same.conditions.symm⟩

theorem SameRules.symm (same : SameRules sources others) :
    SameRules others sources := by
  obtain ⟨moved, permuted, sameEach⟩ := same
  obtain ⟨otherMoved, sameOthers, otherPermuted⟩ :=
    List.perm_comp_forall₂ permuted sameEach
  refine ⟨otherMoved, otherPermuted.symm, ?_⟩
  exact (sameOthers.imp fun _ _ sameRule => sameRule.symm).flip

/-- Related lists have equal images. -/
theorem map_eq_of_forall₂
    {Item Other Value : Type} {Related : Item → Other → Prop}
    {image : Item → Value} {otherImage : Other → Value}
    (agree : ∀ item other, Related item other → image item = otherImage other)
    {items : List Item} {others : List Other}
    (related : List.Forall₂ Related items others) :
    items.map image = others.map otherImage := by
  induction related with
  | nil => rfl
  | cons headRelated _ inductionHypothesis =>
    rw [List.map_cons, List.map_cons, agree _ _ headRelated,
      inductionHypothesis]

section Rearranged

variable {sources others : List SourceRule}

theorem SameRules.map_perm (same : SameRules sources others)
    {Value : Type} {image : SourceRule → Value}
    (invariant : ∀ rule other, SameRule rule other → image rule = image other) :
    (sources.map image).Perm (others.map image) := by
  obtain ⟨moved, permuted, sameEach⟩ := same
  rw [← map_eq_of_forall₂ invariant sameEach]
  exact permuted.map image

theorem SameRules.allConditions_perm (same : SameRules sources others) :
    (allConditions sources).Perm (allConditions others) := by
  obtain ⟨moved, permuted, sameEach⟩ := same
  refine (permuted.flatMap_right _).trans ?_
  clear permuted
  induction sameEach with
  | nil => exact .refl _
  | cons sameHead _ inductionHypothesis =>
    simp only [List.flatMap_cons, allConditions] at inductionHypothesis ⊢
    exact sameHead.conditions.append inductionHypothesis

theorem totalWidth_perm
    {conditions moved : List Condition} (permuted : conditions.Perm moved) :
    totalWidth conditions = totalWidth moved :=
  (permuted.map Condition.width).prod_eq

theorem SameRules.exists_mem (same : SameRules sources others)
    {other : SourceRule}
    (member : other ∈ others) :
    ∃ rule ∈ sources, SameRule rule other := by
  obtain ⟨moved, permuted, sameEach⟩ := same
  obtain ⟨rule, ruleMember, sameRule⟩ :=
    exists_mem_right_of_forall₂ sameEach.flip member
  exact ⟨rule, permuted.mem_iff.mpr ruleMember, sameRule⟩

end Rearranged

section Interning

variable {Entry : Type} [DecidableEq Entry]

/-- Add an entry unless it is there. -/
def addNew (entries : List Entry) (entry : Entry) : List Entry :=
  if entry ∈ entries then entries else entries ++ [entry]

/-- Adding entries keeps a table free of repetitions. -/
theorem nodup_foldl_addNew
    {entries : List Entry} (distinct : entries.Nodup) (added : List Entry) :
    (added.foldl addNew entries).Nodup := by
  induction added generalizing entries with
  | nil => exact distinct
  | cons entry later inductionHypothesis =>
    refine inductionHypothesis ?_
    unfold addNew
    split
    case isTrue =>
      exact distinct
    case isFalse fresh =>
      rw [← List.concat_eq_append]
      exact distinct.concat fresh

/-- A table holds what it held and what was added. -/
theorem mem_foldl_addNew (entries added : List Entry) (entry : Entry) :
    entry ∈ added.foldl addNew entries ↔ entry ∈ entries ∨ entry ∈ added := by
  induction added generalizing entries with
  | nil => simp
  | cons first later inductionHypothesis =>
    rw [List.foldl_cons, inductionHypothesis, addNew]
    split
    case isTrue present =>
      constructor
      · rintro (old | new)
        · exact .inl old
        · exact .inr (List.mem_cons_of_mem _ new)
      · rintro (old | new)
        · exact .inl old
        · rcases List.mem_cons.mp new with rfl | isLater
          · exact .inl present
          · exact .inr isLater
    case isFalse =>
      simp [or_assoc]

theorem length_foldl_addNew_perm
    {added moved : List Entry} (permuted : added.Perm moved) :
    (added.foldl addNew []).length = (moved.foldl addNew []).length := by
  refine ((List.perm_ext_iff_of_nodup
    (nodup_foldl_addNew List.nodup_nil added)
    (nodup_foldl_addNew List.nodup_nil moved)).mpr ?_).length_eq
  intro entry
  rw [mem_foldl_addNew, mem_foldl_addNew, permuted.mem_iff]

end Interning

/-- The window a condition needs a bit for. -/
def Condition.span? : Condition → Option TimeWindow
  | require (.window span) _ => some span
  | _ => none

/-- The threshold a condition needs a bit for. -/
def Condition.permille? : Condition → Option Nat
  | require (.usage permille) _ => some permille
  | _ => none

/-- Interning adds the windows and the thresholds of the conditions. -/
theorem internAll_eq (tables : PredicateTables) (conditions : List Condition) :
    internAll tables conditions =
      { timeWindows :=
          (conditions.filterMap Condition.span?).foldl addNew
            tables.timeWindows
        usageThresholdsPermille :=
          (conditions.filterMap Condition.permille?).foldl addNew
            tables.usageThresholdsPermille } := by
  induction conditions generalizing tables with
  | nil => rfl
  | cons condition later inductionHypothesis =>
    rw [internAll, List.foldl_cons]
    refine (inductionHypothesis _).trans ?_
    cases condition with
    | require feature want =>
      cases feature with
      | window span =>
        simp only [Condition.intern, Feature.intern,
          List.filterMap_cons, Condition.span?,
          Condition.permille?, List.foldl_cons, addNew]
        split <;> rfl
      | usage permille =>
        simp only [Condition.intern, Feature.intern,
          List.filterMap_cons, Condition.span?,
          Condition.permille?, List.foldl_cons, addNew]
        split <;> rfl
      | fixed _ => rfl
      | status _ => rfl
      | rat _ => rfl
      | dnn _ => rfl
    | oneOf _ => rfl
    | noneOf _ => rfl

theorem internAll_within_perm {conditions moved : List Condition}
    (permuted : conditions.Perm moved)
    (within : (internAll {} conditions).Within) :
    (internAll {} moved).Within := by
  rw [internAll_eq] at within ⊢
  unfold PredicateTables.Within at within ⊢
  dsimp only at within ⊢
  rw [length_foldl_addNew_perm (permuted.filterMap _),
    length_foldl_addNew_perm (permuted.filterMap _)] at within
  exact within

/-- Acceptable rules stay acceptable in another order. -/
theorem Acceptable.of_same {context : RuleContext}
    (same : SameRules sources others)
    (acceptable : Acceptable context {} sources) :
    Acceptable context {} others := by
  have sizes :
      (sources.map fun rule => totalWidth rule.conditions).Perm
        (others.map fun rule => totalWidth rule.conditions) :=
    same.map_perm fun _ _ sameRule => totalWidth_perm sameRule.conditions
  have ids : (sources.map SourceRule.id).Perm (others.map SourceRule.id) :=
    same.map_perm fun _ _ sameRule => sameRule.id
  refine
    { fresh := fun _ _ => List.not_mem_nil
      distinct := ids.nodup_iff.mp acceptable.distinct
      plans := ?_
      names := ?_
      widths := ?_
      tables := internAll_within_perm same.allConditions_perm
        acceptable.tables
      room := ?_ }
  · intro other member
    obtain ⟨rule, ruleMember, sameRule⟩ := same.exists_mem member
    have known := acceptable.plans rule ruleMember
    unfold SourceRule.plansKnown at known ⊢
    rwa [← sameRule.plans]
  · intro condition member
    exact acceptable.names condition
      (same.allConditions_perm.mem_iff.mpr member)
  · intro other member
    obtain ⟨rule, ruleMember, sameRule⟩ := same.exists_mem member
    rw [← totalWidth_perm sameRule.conditions]
    exact acceptable.widths rule ruleMember
  · have room := acceptable.room
    rw [tableSize, sizes.sum_eq] at room
    exact room

theorem Condition.Writable.placed {condition : Condition}
    (writable : condition.Writable)
    {feature : Feature}
    (member : feature ∈ condition.features) :
    feature.Placed := by
  have ofOneHot : feature.oneHot = true → feature.Placed := by
    cases feature <;> simp [Feature.oneHot, Feature.Placed]
  cases condition with
  | require _ _ =>
    cases List.mem_singleton.mp member
    exact writable
  | oneOf _ => exact ofOneHot (writable feature member feature member).1
  | noneOf _ => exact ofOneHot (writable feature member)

/-- Rule sets that differ in their compiled table only. -/
structure SameOutsideTable (first second : RuleSet) : Prop where
  version : first.version = second.version
  plans : first.plans = second.plans
  roamingPartners : first.roamingPartners = second.roamingPartners
  imeiBlocklist : first.imeiBlocklist = second.imeiBlocklist
  planNames : first.planNames = second.planNames
  dnnNames : first.dnnNames = second.dnnNames
  defaultAction : first.defaultAction = second.defaultAction

/-- The situation of a request under another rule set. -/
def Situation.under (situation : Situation) (ruleSet : RuleSet) :
    Situation :=
  { situation with ruleSet := ruleSet }

namespace SameOutsideTable

variable {situation : Situation} {ruleSet : RuleSet}

theorem quotaOf_eq (same : SameOutsideTable situation.ruleSet ruleSet)
    (record : SubscriberRecord) :
    quotaOf situation.ruleSet record = quotaOf ruleSet record := by
  unfold quotaOf RuleSet.plan
  rw [same.plans]

/-- Fixed bits of the subscriber do not depend on the table. -/
theorem mem_subscriberBits_iff
    (same : SameOutsideTable situation.ruleSet ruleSet)
    {place : Nat}
    (low : place < 48) :
    (place, true) ∈
        subscriberBits situation.ruleSet situation.request
          situation.record situation.now ↔
      (place, true) ∈
        subscriberBits ruleSet situation.request situation.record
          situation.now := by
  cases situation.record with
  | none => exact Iff.rfl
  | some record =>
    have noThreshold :
        ∀ tables usage quota,
          (place, true) ∉ thresholdBits tables usage quota := by
      intro tables usage quota member
      have high := mem_thresholdBits_range member
      omega
    have tethering :
        planTethering situation.ruleSet record =
          planTethering ruleSet record := by
      unfold planTethering RuleSet.plan
      rw [same.plans]
    simp only [subscriberBits, recordBits, List.mem_append, noThreshold,
      or_false, same.quotaOf_eq, same.roamingPartners, tethering]

/-- Fixed bits do not depend on the table. -/
theorem getLsbD_features (same : SameOutsideTable situation.ruleSet ruleSet)
    {position : Nat}
    (placed : (Feature.fixed position).Placed) :
    situation.features.getLsbD position =
      (situation.under ruleSet).features.getLsbD position := by
  have range : 28 ≤ position ∧ position < 40 := placed
  have inside : position < 64 := by omega
  have noWindow :
      ∀ tables minute, (position, true) ∉ windowBits tables minute := by
    intro tables minute member
    have high := mem_windowBits_low member
    omega
  have blocked :
      deviceBits situation.ruleSet situation.request =
        deviceBits ruleSet situation.request := by
    unfold deviceBits
    rw [same.imeiBlocklist]
  unfold Situation.features buildFeatures
  rw [MaskedWords.getLsbD_assemble inside,
    MaskedWords.getLsbD_assemble inside, decide_eq_decide]
  simp only [List.mem_append, noWindow, or_false, Situation.under, blocked,
    same.mem_subscriberBits_iff (by omega : position < 48)]

theorem holds_eq (same : SameOutsideTable situation.ruleSet ruleSet)
    {feature : Feature}
    (placed : feature.Placed) :
    feature.holds situation = feature.holds (situation.under ruleSet) := by
  cases feature with
  | fixed position => exact same.getLsbD_features placed
  | status state => rfl
  | rat access => rfl
  | dnn name =>
    simp only [Feature.holds, Situation.under, same.dnnNames]
  | usage permille =>
    simp only [Feature.holds, Situation.under, same.quotaOf_eq]
  | window span => rfl

/-- Conditions pass independently of the table and of their order. -/
theorem passes_eq (same : SameOutsideTable situation.ruleSet ruleSet)
    {conditions moved : List Condition}
    (permuted : conditions.Perm moved)
    {condition : Condition}
    (writable : condition.Writable) :
    condition.passes conditions situation =
      condition.passes moved (situation.under ruleSet) := by
  have asserted_eq :
      ∀ feature,
        Condition.asserted conditions feature =
          Condition.asserted moved feature := by
    intro feature
    rw [Condition.asserted, Condition.asserted, permuted.any_eq]
  have holds_eq :
      ∀ feature ∈ condition.features,
        feature.holds situation =
          feature.holds (situation.under ruleSet) :=
    fun feature member => same.holds_eq (writable.placed member)
  cases condition with
  | require feature want =>
    have sameFeature := holds_eq feature (List.mem_singleton_self _)
    cases want <;> simp only [Condition.passes, asserted_eq, sameFeature]
  | oneOf features =>
    have sameAny :
        features.any (·.holds situation) =
          features.any (·.holds (situation.under ruleSet)) := by
      rw [Bool.eq_iff_iff, List.any_eq_true, List.any_eq_true]
      exact exists_congr fun feature =>
        and_congr_right fun member => by rw [holds_eq feature member]
    simp only [Condition.passes, sameAny]
  | noneOf features =>
    rw [Bool.eq_iff_iff]
    simp only [Condition.passes, List.all_eq_true, asserted_eq]
    exact forall₂_congr fun feature member => by
      rw [holds_eq feature member]

/-- Rules fire independently of the table and of their conditions' order. -/
theorem fires_eq (same : SameOutsideTable situation.ruleSet ruleSet)
    {rule other : SourceRule}
    (sameRule : SameRule rule other) (writable : rule.Writable) :
    rule.fires situation = other.fires (situation.under ruleSet) := by
  have plans_eq :
      rule.namesPlan situation =
        other.namesPlan (situation.under ruleSet) := by
    simp only [SourceRule.namesPlan, sameRule.plans, Situation.planName,
      Situation.under, same.planNames]
  have conditions_eq :
      rule.conditions.all (Condition.passes rule.conditions situation) =
        other.conditions.all
          (Condition.passes other.conditions
            (situation.under ruleSet)) := by
    rw [← sameRule.conditions.all_eq, Bool.eq_iff_iff, List.all_eq_true,
      List.all_eq_true]
    exact forall₂_congr fun condition member => by
      rw [same.passes_eq sameRule.conditions (writable condition member)]
  rw [SourceRule.fires, SourceRule.fires, plans_eq, conditions_eq,
    sameRule.plans]

theorem decisionFor_eq (same : SameOutsideTable situation.ruleSet ruleSet)
    (fired : Option (UInt32 × Action)) :
    decisionFor situation.ruleSet situation.request situation.record
        fired =
      decisionFor ruleSet situation.request situation.record fired := by
  have plan_eq :
      planOf situation.ruleSet situation.record =
        planOf ruleSet situation.record := by
    unfold planOf RuleSet.plan
    rw [same.plans]
  unfold decisionFor
  rw [plan_eq, same.version, same.defaultAction]

/-- Moved rules decide alike. -/
theorem evaluate_eq (same : SameOutsideTable situation.ruleSet ruleSet)
    {sources others : List SourceRule}
    (moved : MovedRules sources others)
    (compiledFrom : CompiledFrom situation.ruleSet sources)
    (otherCompiled : CompiledFrom ruleSet others) :
    evaluate situation.ruleSet situation.request situation.record
        situation.now =
      evaluate ruleSet situation.request situation.record
        situation.now := by
  have otherHere : CompiledFrom (situation.under ruleSet).ruleSet others :=
    otherCompiled
  have orders :
      List.Forall₂ SameRule (scanOrder sources) (scanOrder others) := by
    have sameRank :
        ∀ rule other, SameRule rule other →
          rule.priority.toNat = other.priority.toNat :=
      fun rule other sameRule => by rw [sameRule.priority]
    obtain ⟨middle, rfl | ⟨permuted, distinct⟩, sameEach⟩ := moved
    · exact sortByRank_forall₂ sameRank sameEach
    · have sameOrder : scanOrder sources = scanOrder middle := by
        refine sortByRank_eq_of_perm ?_ permuted
        have ranks :
            sources.map (fun source => source.priority.toNat) =
              (sources.map SourceRule.priority).map UInt32.toNat := by
          rw [List.map_map]
          rfl
        rw [ranks]
        exact distinct.map fun _ _ => UInt32.toNat_inj.mp
      rw [sameOrder]
      exact sortByRank_forall₂ sameRank sameEach
  have writable :
      ∀ rule ∈ scanOrder sources, rule.Writable := fun rule member =>
    compiledFrom.writable rule ((sortByRank_perm sources).mem_iff.mp member)
  have searches :
      ((scanOrder sources).find? (·.fires situation)).map
          (fun source => (source.id, source.action)) =
        ((scanOrder others).find?
          (·.fires (situation.under ruleSet))).map
          fun source => (source.id, source.action) := by
    generalize scanOrder sources = order at orders writable
    generalize scanOrder others = otherOrder at orders
    induction orders with
    | nil => rfl
    | @cons rule other _ _ sameRule _ inductionHypothesis =>
      obtain ⟨headWritable, laterWritable⟩ := List.forall_mem_cons.mp writable
      rw [List.find?_cons, List.find?_cons, same.fires_eq sameRule headWritable]
      cases other.fires (situation.under ruleSet) with
      | true =>
        simp only [Option.map_some, sameRule.id, sameRule.action]
      | false => exact inductionHypothesis laterWritable
  rw [compiledFrom.evaluate_eq, searches, same.decisionFor_eq]
  exact otherHere.evaluate_eq.symm

end SameOutsideTable

theorem Alike.reorderedRule (alike : Alike item other) :
    ReorderedRule item other := by
  refine ⟨alike.isMap_eq, fun key _ => alike.find key, ?_⟩
  rcases alike.find_cases "when".toList with ⟨first, second⟩ |
    ⟨value, another, first, second, alikeValue⟩
  · rw [first, second]
    exact .none
  · rw [first, second]
    exact .some (.alike alikeValue)

theorem mapM_readRule_reordered (redirects : Redirects) {others : List Node}
    (reordered : List.Forall₂ ReorderedRule items others) :
    Option.Rel (List.Forall₂ SameRule)
      (items.mapM (readRule redirects))
      (others.mapM (readRule redirects)) := by
  induction reordered with
  | nil => exact .some .nil
  | @cons item other later otherLater headReordered _ inductionHypothesis =>
    have head := readRule_reordered redirects headReordered
    rw [List.mapM_cons, List.mapM_cons]
    generalize readRule redirects item = rule at head ⊢
    generalize readRule redirects other = otherRule at head ⊢
    generalize later.mapM (readRule redirects) = rules at inductionHypothesis ⊢
    generalize otherLater.mapM (readRule redirects) = otherRules
      at inductionHypothesis ⊢
    cases head with
    | none => exact .none
    | some sameRule =>
      cases inductionHypothesis with
      | none => exact .none
      | some sameLater => exact .some (.cons sameRule sameLater)

theorem filterMap_rulePriorityOf {redirects : Redirects}
    (read : items.mapM (readRule redirects) = some sources) :
    items.filterMap rulePriorityOf = sources.map SourceRule.priority := by
  have related := mapM_eq_some_iff.mp read
  clear read
  induction related with
  | nil => rfl
  | cons itemRead _ inductionHypothesis =>
    obtain ⟨_, _, priority, _⟩ := readRule_eq_some_iff.mp itemRead
    rw [List.filterMap_cons, priority, List.map_cons, inductionHypothesis]

theorem readRules_reordered (redirects : Redirects)
    {line other : Nat} {others : List Node}
    (reordered : ReorderedRules (.seq line items) (.seq other others)) :
    Option.Rel MovedRules
      (items.mapM (readRule redirects))
      (others.mapM (readRule redirects)) := by
  have inPlace :
      List.Forall₂ ReorderedRule items others →
        Option.Rel MovedRules
          (items.mapM (readRule redirects))
          (others.mapM (readRule redirects)) := by
    intro each
    have read := mapM_readRule_reordered redirects each
    generalize items.mapM (readRule redirects) = sources at read ⊢
    generalize others.mapM (readRule redirects) = otherSources at read ⊢
    cases read with
    | none => exact .none
    | some same => exact .some ⟨_, .inl rfl, same⟩
  cases reordered with
  | alike alike =>
    cases alike with
    | seq _ _ alikeItems =>
      exact inPlace
        (alikeItems.imp fun _ _ alikeItem => alikeItem.reorderedRule)
  | conditions _ _ each => exact inPlace each
  | @rules _ _ _ moved _ distinct permuted each =>
    have movedRead := mapM_perm (readRule redirects) permuted
    have othersRead := mapM_readRule_reordered redirects each
    refine rel_of_exists ?_ ?_
    · intro sources read
      obtain ⟨middle, middleRead, middlePermuted⟩ :=
        exists_right_of_rel movedRead read
      obtain ⟨otherSources, otherRead, same⟩ :=
        exists_right_of_rel othersRead middleRead
      rw [filterMap_rulePriorityOf read] at distinct
      exact ⟨otherSources, otherRead, middle,
        .inr ⟨middlePermuted, distinct⟩, same⟩
    · intro otherSources read
      obtain ⟨middle, middleRead, _⟩ := exists_left_of_rel othersRead read
      obtain ⟨sources, sourcesRead, _⟩ :=
        exists_left_of_rel movedRead middleRead
      exact ⟨sources, sourcesRead⟩

/-- Reordered sections are sequences together. -/
theorem ReorderedRules.seq_cases
    {node : Node} (reordered : ReorderedRules node other) :
    (∃ line another items others,
        node = .seq line items ∧ other = .seq another others) ∨
      (∀ line items, node ≠ .seq line items) ∧
        ∀ line items, other ≠ .seq line items := by
  cases reordered with
  | alike alike =>
    cases alike with
    | seq line another _ => exact .inl ⟨_, _, _, _, rfl, rfl⟩
    | null line another => exact .inr ⟨nofun, nofun⟩
    | scalar line another text => exact .inr ⟨nofun, nofun⟩
    | map line another keys values => exact .inr ⟨nofun, nofun⟩
  | conditions line another _ => exact .inl ⟨_, _, _, _, rfl, rfl⟩
  | rules line another _ _ _ => exact .inl ⟨_, _, _, _, rfl, rfl⟩

/-- Reordered rule sections are accepted together. -/
theorem loadRules_reordered (context : RuleContext) {node other : Option Node}
    (reordered : Option.Rel ReorderedRules node other) :
    Option.Rel (fun _ _ => True) (loadRules context node).result
      (loadRules context other).result := by
  cases reordered with
  | none => exact .none
  | some reorderedNode =>
    rcases reorderedNode.seq_cases with
      ⟨line, another, items, others, rfl, rfl⟩ | ⟨notSeq, otherNotSeq⟩
    · have read := readRules_reordered context.redirects reorderedNode
      refine rel_of_exists ?_ ?_
      · intro load loaded
        obtain ⟨_, _, sources, shape, sourcesRead, acceptable, _⟩ :=
          loadRules_result_iff.mp loaded
        cases shape
        obtain ⟨otherSources, otherRead, moved⟩ :=
          exists_right_of_rel read sourcesRead
        exact ⟨_, loadRules_result_iff.mpr ⟨another, others,
          otherSources, rfl, otherRead, acceptable.of_same moved.same,
          rfl⟩, trivial⟩
      · intro load loaded
        obtain ⟨_, _, otherSources, shape, otherRead, acceptable, _⟩ :=
          loadRules_result_iff.mp loaded
        cases shape
        obtain ⟨sources, sourcesRead, moved⟩ :=
          exists_left_of_rel read otherRead
        exact ⟨_, loadRules_result_iff.mpr ⟨line, items, sources, rfl,
          sourcesRead, acceptable.of_same moved.same.symm, rfl⟩⟩
    · have refused :
          ∀ {node : Node},
            (∀ line items, node ≠ .seq line items) →
              (loadRules context (some node)).result = none := by
        intro node notSeq
        rw [Option.eq_none_iff_forall_ne_some]
        intro load loaded
        obtain ⟨line, items, _, shape, _⟩ := loadRules_result_iff.mp loaded
        exact notSeq line items (Option.some.inj shape)
      rw [refused notSeq, refused otherNotSeq]
      exact .none

/-- Reordered documents have the same sections outside their rules. -/
theorem compileSections_reordered (files : Str → Option Str) (version : UInt32)
    (reordered : Reordered root other) :
    Option.Rel SameOutsideTable
      (compileSections files root version).result
      (compileSections files other version).result := by
  have warned :
      ∀ node, (warnAll (checkUnknownKeys node fileKeys)).result =
        some () :=
    fun _ => rfl
  have alike :=
    fun key (distinct : key ≠ "rules".toList) =>
      reordered.sections key distinct
  simp only [compileSections, Report.result_bind, warned,
    Option.bind_some, Report.result_pure,
    loadDnns_alike (alike "dnns".toList (by decide)),
    loadRedirects_alike (alike "redirects".toList (by decide)),
    loadPlans_alike (alike "plans".toList (by decide)),
    loadRoamingPartners_alike (alike "roaming_partners".toList (by decide)),
    loadImeiBlocklist_alike files (alike "imei_blocklist".toList (by decide)),
    loadDefaultAction_alike _
      (alike "default_action".toList (by decide))]
  refine rel_bind _ fun dnnNames => rel_bind _ fun redirects =>
    rel_bind _ fun plans => rel_bind _ fun partners =>
      rel_bind _ fun blocklist => rel_bind _ fun defaultAction => ?_
  have rules := loadRules_reordered
    { dnnNames := dnnNames, redirects := redirects, plans := plans }
    reordered.rules
  revert rules
  generalize (loadRules _ (root.find "rules".toList)).result = first
  generalize (loadRules _ (other.find "rules".toList)).result = second
  intro rules
  cases rules with
  | none => exact .none
  | some _ => exact .some ⟨rfl, rfl, rfl, rfl, rfl, rfl, rfl⟩

/-- Reordered documents are accepted together, with the same outer sections. -/
theorem compileRoot_reordered (files : Str → Option Str) (version : UInt32)
    (reordered : Reordered root other) :
    Option.Rel SameOutsideTable
      (compileRoot files root version).ruleSet
      (compileRoot files other version).ruleSet := by
  have sections := compileSections_reordered files version reordered
  refine rel_of_exists ?_ ?_
  · intro ruleSet accepted
    obtain ⟨isMap, unsorted, compiled, rfl⟩ :=
      compileRoot_ruleSet_iff.mp accepted
    obtain ⟨otherUnsorted, otherCompiled, same⟩ :=
      exists_right_of_rel sections compiled
    refine ⟨_, compileRoot_ruleSet_iff.mpr
      ⟨reordered.isMap ▸ isMap, otherUnsorted, otherCompiled, rfl⟩, ?_⟩
    exact ⟨same.version, same.plans, same.roamingPartners,
      same.imeiBlocklist, same.planNames, same.dnnNames,
      same.defaultAction⟩
  · intro ruleSet accepted
    obtain ⟨isMap, unsorted, compiled, rfl⟩ :=
      compileRoot_ruleSet_iff.mp accepted
    obtain ⟨otherUnsorted, otherCompiled, _⟩ :=
      exists_left_of_rel sections compiled
    exact ⟨_, compileRoot_ruleSet_iff.mpr
      ⟨reordered.isMap ▸ isMap, otherUnsorted, otherCompiled, rfl⟩⟩

theorem sourceRules_reordered (reordered : Reordered root other)
    (sameRedirects :
      (loadRedirects (root.find "redirects".toList)).value =
        (loadRedirects (other.find "redirects".toList)).value)
    (read : sourceRules root = some sources)
    (otherRead : sourceRules other = some others) :
    MovedRules sources others := by
  have rules := reordered.rules
  unfold sourceRules at read otherRead
  rw [sameRedirects] at read
  generalize root.find "rules".toList = node at rules read
  generalize other.find "rules".toList = another at rules otherRead
  cases rules with
  | none => cases read
  | some reorderedNode =>
    rcases reorderedNode.seq_cases with
      ⟨line, otherLine, items, otherItems, rfl, rfl⟩ | ⟨notSeq, _⟩
    · obtain ⟨moved, movedRead, isMoved⟩ :=
        exists_right_of_rel (readRules_reordered _ reorderedNode) read
      cases movedRead.symm.trans otherRead
      exact isMoved
    · split at read
      case h_1 line items shape =>
        exact absurd (Option.some.inj shape) (notSeq line items)
      case h_2 =>
        cases read

theorem redirects_of_accepted
    {files : Str → Option Str} {version : UInt32} {ruleSet : RuleSet}
    (accepted : (compileRoot files root version).ruleSet = some ruleSet) :
    (loadRedirects (root.find "redirects".toList)).result =
      some (loadRedirects (root.find "redirects".toList)).value := by
  obtain ⟨_, _, compiled, _⟩ := compileRoot_ruleSet_iff.mp accepted
  obtain ⟨_, _, _, _, _, _, _, _, redirectsRead, _⟩ :=
    compileSections_result_iff.mp compiled
  rw [redirectsRead, (Report.result_eq_some_iff.mp redirectsRead).2]

/-- Reordered accepted documents decide alike. -/
theorem evaluate_reordered {files : Str → Option Str} {version : UInt32}
    (reordered : Reordered root other)
    {ruleSet otherSet : RuleSet}
    (accepted : (compileRoot files root version).ruleSet = some ruleSet)
    (otherAccepted : (compileRoot files other version).ruleSet = some otherSet)
    (request : PolicyRequest) (record : Option SubscriberRecord)
    (now : UInt64) :
    evaluate ruleSet request record now =
      evaluate otherSet request record now := by
  obtain ⟨_, otherShape, same⟩ :=
    exists_right_of_rel (compileRoot_reordered files version reordered) accepted
  cases otherShape.symm.trans otherAccepted
  obtain ⟨sources, read, compiledFrom⟩ := compileRoot_compiledFrom accepted
  obtain ⟨others, otherRead, otherCompiled⟩ :=
    compileRoot_compiledFrom otherAccepted
  have sameRedirects :
      (loadRedirects (root.find "redirects".toList)).value =
        (loadRedirects (other.find "redirects".toList)).value := by
    have results :=
      loadRedirects_alike (reordered.sections "redirects".toList (by decide))
    rw [redirects_of_accepted accepted,
      redirects_of_accepted otherAccepted] at results
    exact Option.some.inj results
  have moved := sourceRules_reordered reordered sameRedirects read otherRead
  have sameHere :
      SameOutsideTable
        (Situation.mk ruleSet request record now).ruleSet otherSet :=
    same
  exact sameHere.evaluate_eq moved compiledFrom otherCompiled

/-- A file is accepted when it yields a rule set. -/
theorem compileRules_ok
    (files : Str → Option Str) (text : Str) (version : UInt32) :
    (compileRules files text version).ok =
      (compileRules files text version).ruleSet.isSome := by
  unfold compileRules RuleCompileResult.ok
  split
  · rfl
  · rfl
  · unfold compileRoot
    split
    · rfl
    · dsimp only
      split <;> simp

/--
Moving the conditions of rules around, and the rules of a file whose priorities
are distinct, changes neither whether the file is accepted nor any decision.
-/
theorem order_does_not_matter
    {text otherText : Str}
    {root other : Node}
    (parsed : Yaml.parse text = .ok root)
    (otherParsed : Yaml.parse otherText = .ok other)
    (reordered : Reordered root other)
    (files : Str → Option Str)
    (version : UInt32) :
    ((compileRules files text version).ok = true ↔
        (compileRules files otherText version).ok = true) ∧
      ∀ ruleSet otherSet,
        (compileRules files text version).ruleSet = some ruleSet →
        (compileRules files otherText version).ruleSet = some otherSet →
          ∀ request record now,
            evaluate ruleSet request record now =
              evaluate otherSet request record now := by
  have compiled :
      (compileRules files text version) =
        compileRoot files root version := by
    unfold compileRules
    rw [parsed]
  have otherCompiled :
      (compileRules files otherText version) =
        compileRoot files other version := by
    unfold compileRules
    rw [otherParsed]
  refine ⟨?_, ?_⟩
  · rw [compileRules_ok, compileRules_ok, compiled, otherCompiled]
    have together := compileRoot_reordered files version reordered
    generalize (compileRoot files root version).ruleSet = first at together ⊢
    generalize (compileRoot files other version).ruleSet = second
      at together ⊢
    cases together <;> simp
  · rw [compiled, otherCompiled]
    intro ruleSet otherSet accepted otherAccepted request record now
    exact evaluate_reordered reordered accepted otherAccepted request record
      now

/-- Two rules on two lines; the first has two conditions. -/
def roamingFirstFile : Str :=
  ("dnns: [ims]\nplans: [\x7bname: a\x7d]\nrules:\n" ++
    "  - \x7bid: 1, priority: 1, when: \x7broaming: true, rat: NR\x7d, " ++
    "action: \x7b\x7d\x7d\n" ++
    "  - \x7bid: 2, priority: 2, action: \x7b\x7d\x7d").toList

/-- The same rules and conditions in the opposite order. -/
def ratFirstFile : Str :=
  ("dnns: [ims]\nplans: [\x7bname: a\x7d]\nrules:\n" ++
    "  - \x7bid: 2, priority: 2, action: \x7b\x7d\x7d\n" ++
    "  - \x7bid: 1, priority: 1, when: \x7brat: NR, roaming: true\x7d, " ++
    "action: \x7b\x7d\x7d").toList

/-- The document of both files, with its rules. -/
def twoRuleDocument (rules : List Node) : Node :=
  .map 1
    [("dnns".toList, .seq 1 [.scalar 1 "ims".toList]),
      ("plans".toList,
        .seq 2 [.map 2 [("name".toList, .scalar 2 "a".toList)]]),
      ("rules".toList, .seq 4 rules)]

/-- The rule with two conditions, on a line. -/
def gatedRule (line : Nat) (conditions : List (Str × Node)) : Node :=
  .map line
    [("id".toList, .scalar line "1".toList),
      ("priority".toList, .scalar line "1".toList),
      ("when".toList, .map line conditions),
      ("action".toList, .map line [])]

/-- The rule without conditions, on a line. -/
def openRule (line : Nat) : Node :=
  .map line
    [("id".toList, .scalar line "2".toList),
      ("priority".toList, .scalar line "2".toList),
      ("action".toList, .map line [])]

/-- The conditions of the first rule, on a line. -/
def roamingCondition (line : Nat) : Str × Node :=
  ("roaming".toList, .scalar line "true".toList)

@[inherit_doc roamingCondition]
def ratCondition (line : Nat) : Str × Node :=
  ("rat".toList, .scalar line "NR".toList)

theorem find_cons
    (line : Nat) (name : Str) (value : Node) (later : List (Str × Node))
    (key : Str) :
    (Node.map line ((name, value) :: later)).find key =
      if name = key then some value else (Node.map line later).find key := by
  by_cases hit : name = key <;> simp [Node.find, Node.fields, hit]

theorem gatedRule_reordered :
    ReorderedRule
      (gatedRule 4 [roamingCondition 4, ratCondition 4])
      (gatedRule 5 [ratCondition 5, roamingCondition 5]) := by
  refine ⟨rfl, ?_, ?_⟩
  · intro key notWhen
    simp only [gatedRule, find_cons, Ne.symm notWhen, if_false]
    split_ifs
    · exact .some (.scalar _ _ _)
    · exact .some (.scalar _ _ _)
    · exact .some (.map _ _ rfl .nil)
    · exact .none
  · refine .some (.fields 4 5 (by decide) (.swap _ _ _) ?_)
    exact .cons ⟨rfl, .scalar _ _ _⟩ (.cons ⟨rfl, .scalar _ _ _⟩ .nil)

theorem twoRuleDocument_reordered :
    Reordered
      (twoRuleDocument
        [gatedRule 4 [roamingCondition 4, ratCondition 4], openRule 5])
      (twoRuleDocument
        [openRule 4, gatedRule 5 [ratCondition 5, roamingCondition 5]]) := by
  have openAlike : Alike (openRule 5) (openRule 4) :=
    .map _ _ rfl (.cons (.scalar _ _ _) (.cons (.scalar _ _ _)
      (.cons (.map _ _ rfl .nil) .nil)))
  refine ⟨rfl, ?_, ?_⟩
  · intro key notRules
    simp only [twoRuleDocument, find_cons, Ne.symm notRules, if_false]
    split_ifs
    · exact .some (.seq _ _ (.cons (.scalar _ _ _) .nil))
    · exact .some (.seq _ _
        (.cons (.map _ _ rfl (.cons (.scalar _ _ _) .nil)) .nil))
    · exact .none
  · refine .some (.rules 4 4 (by decide) (.swap _ _ _) ?_)
    exact .cons openAlike.reorderedRule (.cons gatedRule_reordered .nil)

/-- Both files are accepted and decide alike. -/
theorem order_does_not_matter_two_rules :
    (compileRules (fun _ => none) roamingFirstFile 1).ok = true ∧
      (compileRules (fun _ => none) ratFirstFile 1).ok = true ∧
      ∀ ruleSet otherSet,
        (compileRules (fun _ => none) roamingFirstFile 1).ruleSet =
            some ruleSet →
        (compileRules (fun _ => none) ratFirstFile 1).ruleSet =
            some otherSet →
          ∀ request record now,
            evaluate ruleSet request record now =
              evaluate otherSet request record now := by
  have parsed :
      Yaml.parse roamingFirstFile =
        .ok
          (twoRuleDocument
            [gatedRule 4 [roamingCondition 4, ratCondition 4],
              openRule 5]) := by
    decide +kernel
  have otherParsed :
      Yaml.parse ratFirstFile =
        .ok
          (twoRuleDocument
            [openRule 4,
              gatedRule 5 [ratCondition 5, roamingCondition 5]]) := by
    decide +kernel
  have accepted :
      (compileRules (fun _ => none) roamingFirstFile 1).ok = true := by
    decide +kernel
  obtain ⟨together, decisions⟩ :=
    order_does_not_matter parsed otherParsed twoRuleDocument_reordered
      (fun _ => none) 1
  exact ⟨accepted, together.mp accepted, decisions⟩

end Policyd
