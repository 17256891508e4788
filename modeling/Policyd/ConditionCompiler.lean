import Policyd.Readers
import Policyd.RuleCubes

namespace Policyd

open MaskedWords

/-!
# Compiling conditions

The compiler turns a `when` mapping into mask and value pairs, bits and tables
in one pass.  Whatever it accepts is what `readConditions` reads, subject to
three capacity limits, and the pairs are the cubes of those conditions.  The
statements are equations between optional results; they forget only the texts
of errors, so they also say exactly when compiling succeeds.
-/

/-- The tables respect their capacities. -/
def PredicateTables.Within (tables : PredicateTables) : Prop :=
  tables.timeWindows.length ≤ kMaxTimeWindows ∧
    tables.usageThresholdsPermille.length ≤ kMaxUsageThresholds

instance (tables : PredicateTables) : Decidable tables.Within :=
  inferInstanceAs (Decidable (_ ∧ _))

/-- Later tables keep the entries of earlier ones in place. -/
structure PredicateTables.Extends (earlier later : PredicateTables) : Prop where
  timeWindows : earlier.timeWindows <+: later.timeWindows
  usageThresholds :
    earlier.usageThresholdsPermille <+: later.usageThresholdsPermille

/-- Add the table entry of a feature, if it needs one. -/
def Feature.intern (tables : PredicateTables) : Feature → PredicateTables
  | usage permille =>
    if permille ∈ tables.usageThresholdsPermille then
      tables
    else
      { tables with
        usageThresholdsPermille :=
          tables.usageThresholdsPermille ++ [permille] }
  | window span =>
    if span ∈ tables.timeWindows then
      tables
    else
      { tables with timeWindows := tables.timeWindows ++ [span] }
  | _ => tables

/-- Add the table entry of a condition. -/
def Condition.intern (tables : PredicateTables) :
    Condition → PredicateTables
  | require feature _ => feature.intern tables
  | _ => tables

/-- Add the table entries of several conditions. -/
def internAll (tables : PredicateTables) (conditions : List Condition) :
    PredicateTables :=
  conditions.foldl Condition.intern tables

namespace PredicateTables.Extends

variable (tables : PredicateTables)

theorem refl :
    tables.Extends tables :=
  ⟨List.prefix_rfl, List.prefix_rfl⟩

theorem trans {first second third : PredicateTables}
    (firstStep : first.Extends second) (secondStep : second.Extends third) :
    first.Extends third :=
  ⟨firstStep.timeWindows.trans secondStep.timeWindows,
    firstStep.usageThresholds.trans secondStep.usageThresholds⟩

theorem within {earlier later : PredicateTables}
    (extends_ : earlier.Extends later) (laterWithin : later.Within) :
    earlier.Within :=
  ⟨extends_.timeWindows.length_le.trans laterWithin.1,
    extends_.usageThresholds.length_le.trans laterWithin.2⟩

theorem intern_feature (feature : Feature) :
    tables.Extends (feature.intern tables) := by
  cases feature with
  | usage permille =>
    simp only [Feature.intern]
    split
    · exact refl tables
    · exact ⟨List.prefix_rfl, List.prefix_append _ _⟩
  | window span =>
    simp only [Feature.intern]
    split
    · exact refl tables
    · exact ⟨List.prefix_append _ _, List.prefix_rfl⟩
  | fixed _ => exact refl tables
  | status _ => exact refl tables
  | rat _ => exact refl tables
  | dnn _ => exact refl tables

theorem intern (condition : Condition) :
    tables.Extends (condition.intern tables) := by
  cases condition with
  | require feature _ => exact intern_feature tables feature
  | oneOf _ => exact refl tables
  | noneOf _ => exact refl tables

theorem internAll (conditions : List Condition) :
    tables.Extends (Policyd.internAll tables conditions) := by
  induction conditions generalizing tables with
  | nil => exact refl tables
  | cons condition later inductionHypothesis =>
    exact (intern tables condition).trans (inductionHypothesis _)

end PredicateTables.Extends

/-- The table entry of a feature is in the tables. -/
def Feature.Interned (tables : PredicateTables) : Feature → Prop
  | usage permille => permille ∈ tables.usageThresholdsPermille
  | window span => span ∈ tables.timeWindows
  | _ => True

variable {earlier later tables : PredicateTables} {feature : Feature}
  {condition : Condition} {pairs : Matches} {node : Node}
  {dnnNames : List Str}

theorem Feature.Interned.mono
    (interned : feature.Interned earlier) (extends_ : earlier.Extends later) :
    feature.Interned later := by
  cases feature with
  | usage permille => exact extends_.usageThresholds.subset interned
  | window span => exact extends_.timeWindows.subset interned
  | fixed _ => trivial
  | status _ => trivial
  | rat _ => trivial
  | dnn _ => trivial

theorem Feature.interned_intern (tables : PredicateTables) (feature : Feature) :
    feature.Interned (feature.intern tables) := by
  cases feature with
  | usage permille =>
    simp only [Feature.intern]
    split
    · assumption
    · simp [Feature.Interned]
  | window span =>
    simp only [Feature.intern]
    split
    · assumption
    · simp [Feature.Interned]
  | fixed _ => trivial
  | status _ => trivial
  | rat _ => trivial
  | dnn _ => trivial

/-- Bits of interned features do not move when the tables grow. -/
theorem Feature.position_eq_of_extends
    (extends_ : earlier.Extends later) (dnnNames : List Str)
    (interned : feature.Interned earlier) :
    feature.position ⟨earlier, dnnNames⟩ =
      feature.position ⟨later, dnnNames⟩ := by
  cases feature with
  | usage permille =>
    obtain ⟨added, shape⟩ := extends_.usageThresholds
    simp only [Feature.position]
    rw [← shape, List.idxOf_append_of_mem interned]
  | window span =>
    obtain ⟨added, shape⟩ := extends_.timeWindows
    simp only [Feature.position]
    rw [← shape, List.idxOf_append_of_mem interned]
  | fixed _ => rfl
  | status _ => rfl
  | rat _ => rfl
  | dnn _ => rfl

/-- The table entry of a condition is in the tables. -/
def Condition.Interned (tables : PredicateTables) : Condition → Prop
  | require feature _ => feature.Interned tables
  | _ => True

theorem Condition.interned_intern
    (tables : PredicateTables) (condition : Condition) :
    condition.Interned (condition.intern tables) := by
  cases condition with
  | require feature _ => exact Feature.interned_intern tables feature
  | oneOf _ => trivial
  | noneOf _ => trivial

theorem Condition.Interned.mono
    (interned : condition.Interned earlier) (extends_ : earlier.Extends later) :
    condition.Interned later := by
  cases condition with
  | require feature _ => exact Feature.Interned.mono interned extends_
  | oneOf _ => trivial
  | noneOf _ => trivial

theorem interned_internAll (tables : PredicateTables)
    {conditions : List Condition}
    (member : condition ∈ conditions) :
    condition.Interned (internAll tables conditions) := by
  induction conditions generalizing tables with
  | nil => cases member
  | cons first later inductionHypothesis =>
    rcases List.mem_cons.mp member with rfl | isLater
    · exact (Condition.interned_intern tables condition).mono
        (PredicateTables.Extends.internAll _ later)
    · exact inductionHypothesis _ isLater

namespace Condition

/-- How many alternatives a condition multiplies a rule by. -/
def width : Condition → Nat
  | oneOf features => max 1 features.length
  | _ => 1

/-- Add a condition to the pairs of a rule. -/
def expand (bits : BitTables) (pairs : Matches) : Condition → Matches
  | require feature want => addBit pairs (feature.position bits) want
  | oneOf [] => pairs
  | oneOf (first :: later) =>
    pairs.flatMap fun (mask, value) =>
      ((first :: later).map (Feature.position bits)).map fun position =>
        (mask ||| Feat.bit position, value ||| Feat.bit position)
  | noneOf features =>
    addNoneOf pairs (features.map (Feature.position bits))

theorem width_pos (condition : Condition) :
    0 < condition.width := by
  cases condition <;> simp [width]

/-- Adding a condition multiplies the pairs by its alternatives. -/
theorem length_expand
    (bits : BitTables) (pairs : Matches) (condition : Condition) :
    (condition.expand bits pairs).length =
      pairs.length * condition.width := by
  cases condition with
  | require feature want => simp [expand, addBit, width]
  | oneOf features =>
    cases features with
    | nil => simp [expand, width]
    | cons first later => simp [expand, width, List.length_flatMap]
  | noneOf features => simp [expand, addNoneOf, width]

/-- Adding a condition to cubes extends them by its alternatives. -/
theorem expand_cubes
    (bits : BitTables) (cubes : List (List Literal)) (condition : Condition) :
    condition.expand bits (cubes.map cubePair) =
      (extendBy cubes (condition.alternatives bits)).map cubePair := by
  cases condition with
  | require feature want =>
    rw [alternatives, extendBy_singleton, List.map_map, expand, addBit,
      List.map_map]
    apply List.map_congr_left
    intro cube _
    exact (cubePair_append_singleton cube (feature.position bits, want)).symm
  | oneOf features =>
    cases features with
    | nil =>
      rw [alternatives, extendBy_singleton]
      simp [expand]
    | cons first later =>
      simp only [expand, extendBy, alternatives, List.flatMap_map,
        List.map_flatMap, List.map_map]
      apply List.flatMap_congr
      intro cube _
      apply List.map_congr_left
      intro feature _
      exact (cubePair_append_singleton cube (feature.position bits, true)).symm
  | noneOf features =>
    rw [alternatives, extendBy_singleton, List.map_map, expand,
      addNoneOf, List.map_map]
    apply List.map_congr_left
    intro cube _
    have clear :
        (cubePair
          (cube ++
            (features.map (Feature.position bits)).map
              fun position => (position, false)) :
            FeatureWord × FeatureWord) = _ :=
      cubePair_append_clear cube _
    rw [List.map_map] at clear
    exact clear.symm

/-- Adding a condition depends only on the bits of its features. -/
theorem expand_congr {first second : BitTables} {condition : Condition}
    (same :
      ∀ feature ∈ condition.features,
        feature.position first = feature.position second)
    (pairs : Matches) :
    condition.expand first pairs = condition.expand second pairs := by
  cases condition with
  | require feature want =>
    simp only [expand]
    rw [same feature (by simp [features])]
  | oneOf listed =>
    cases listed with
    | nil => rfl
    | cons head later =>
      have sameMap :
          (head :: later).map (Feature.position first) =
            (head :: later).map (Feature.position second) :=
        List.map_congr_left same
      simp only [expand, sameMap]
  | noneOf listed =>
    have sameMap :
        listed.map (Feature.position first) =
          listed.map (Feature.position second) :=
      List.map_congr_left same
    simp only [expand, sameMap]

end Condition

/-- Add several conditions to the pairs of a rule. -/
def expandAll (bits : BitTables) (pairs : Matches)
    (conditions : List Condition) : Matches :=
  conditions.foldl (fun pairs condition => condition.expand bits pairs) pairs

/-- The alternatives of several conditions together. -/
def totalWidth (conditions : List Condition) : Nat :=
  (conditions.map Condition.width).prod

theorem totalWidth_pos (conditions : List Condition) :
    0 < totalWidth conditions := by
  induction conditions with
  | nil => simp [totalWidth]
  | cons condition later inductionHypothesis =>
    rw [totalWidth, List.map_cons, List.prod_cons]
    exact Nat.mul_pos condition.width_pos inductionHypothesis

variable (bits : BitTables) (item : Node)

/-- Adding several conditions multiplies the pairs by their combinations. -/
theorem length_expandAll (pairs : Matches) (conditions : List Condition) :
    (expandAll bits pairs conditions).length =
      pairs.length * totalWidth conditions := by
  induction conditions generalizing pairs with
  | nil => simp [expandAll, totalWidth]
  | cons condition later inductionHypothesis =>
    have laterLength := inductionHypothesis (condition.expand bits pairs)
    rw [expandAll, totalWidth] at laterLength
    rw [expandAll, List.foldl_cons, laterLength,
      Condition.length_expand, totalWidth, List.map_cons,
      List.prod_cons, Nat.mul_assoc]

theorem expandAll_cubes
    (cubes : List (List Literal)) (conditions : List Condition) :
    expandAll bits (cubes.map cubePair) conditions =
      ((conditions.map (Condition.alternatives bits)).foldl extendBy
        cubes).map cubePair := by
  induction conditions generalizing cubes with
  | nil => rfl
  | cons condition later inductionHypothesis =>
    rw [expandAll, List.foldl_cons, Condition.expand_cubes]
    exact inductionHypothesis _

theorem expandAll_eq_crossProduct (conditions : List Condition) :
    expandAll bits [(0, 0)] conditions =
      (crossProduct
        (conditions.map (Condition.alternatives bits))).map cubePair :=
  expandAll_cubes bits [[]] conditions

/-- A listed DNN must be in the DNN table. -/
def Feature.nameKnown (dnnNames : List Str) : Feature → Bool
  | dnn name => dnnNames.contains name
  | _ => true

/-- Every DNN a condition lists is in the DNN table. -/
def Condition.namesKnown (dnnNames : List Str) (condition : Condition) :
    Bool :=
  condition.features.all (Feature.nameKnown dnnNames)

/-- A checked value of a one-hot list and its bit. -/
def checkedPosition
    (bits : BitTables) (parse : Str → Option Feature) (item : Node) :
    Option Nat :=
  (item.scalar?.bind parse).bind fun feature =>
    if feature.nameKnown bits.dnnNames then
      some (feature.position bits)
    else
      none

theorem statusNameBit_eq (text : Str) :
    statusNameBit text = (parseStatusName text).map statusPosition := by
  unfold statusNameBit parseStatusName
  dsimp only
  split_ifs <;> rfl

theorem readStatus_toOption :
    (readStatus item).toOption =
      checkedPosition bits statusFeature item := by
  cases item with
  | scalar line text =>
    simp only [readStatus, Node.isScalar, Node.text, Bool.true_eq_false,
      if_false, statusNameBit_eq, checkedPosition, Node.scalar?,
      Option.bind_some, statusFeature]
    cases parseStatusName text <;> rfl
  | null line => rfl
  | seq line items => rfl
  | map line fields => rfl

/-- An access type reads as its feature. -/
theorem readRat_toOption :
    (readRat item).toOption =
      checkedPosition bits ratFeature item := by
  unfold readRat checkedPosition ratFeature
  cases item.scalar? with
  | none => rfl
  | some text =>
    cases parsed : parseRat text with
    | none => simp [parsed, Except.toOption]
    | some access =>
      simp [parsed, Except.toOption, Feature.nameKnown, Feature.position]

theorem readDnn_toOption :
    (readDnn bits.dnnNames item).toOption =
      checkedPosition bits dnnFeature item := by
  cases item with
  | scalar line text =>
    simp only [readDnn, Node.isScalar, Node.text, Bool.true_eq_false,
      if_false, findIdx?_beq, checkedPosition, Node.scalar?,
      Option.bind_some, dnnFeature, Feature.nameKnown,
      Feature.position]
    by_cases member : text ∈ bits.dnnNames
    · simp [member, Except.toOption]
    · simp [member, Except.toOption]
  | null line => rfl
  | seq line items => rfl
  | map line fields => rfl

theorem mapM_checkedPosition (parse : Str → Option Feature) (node : Node) :
    node.asList.mapM (checkedPosition bits parse) =
      (readFeatures parse node).bind fun features =>
        if features.all (Feature.nameKnown bits.dnnNames) then
          some (features.map (Feature.position bits))
        else
          none :=
  mapM_bind_guard _ _ _ _

/-- Requiring one of several bits succeeds within the expansion limit. -/
theorem addOneOf_toOption
    (small : pairs.length ≤ kMaxExpansionPerRule) (features : List Feature)
    (ruleId : UInt32) (line : Nat) :
    (addOneOf pairs (features.map (Feature.position bits)) ruleId
        line).toOption =
      if pairs.length * (Condition.oneOf features).width ≤
          kMaxExpansionPerRule then
        some ((Condition.oneOf features).expand bits pairs)
      else
        none := by
  cases features with
  | nil =>
    simp [addOneOf, Condition.width, Condition.expand, small, Except.toOption]
  | cons first later =>
    have widthShape :
        (Condition.oneOf (first :: later)).width =
          (first :: later).length := by
      simp [Condition.width]
    rw [widthShape]
    unfold addOneOf
    rw [if_neg (by simp), List.length_map]
    by_cases fits :
        pairs.length * (first :: later).length ≤ kMaxExpansionPerRule
    · rw [if_neg (Nat.not_lt.mpr fits), if_pos fits]
      rfl
    · rw [if_pos (Nat.lt_of_not_le fits), if_neg fits]
      rfl

theorem internUsageThreshold_toOption
    (within : tables.Within) (dnnNames : List Str) (permille line : Nat) :
    (internUsageThreshold tables permille line).toOption =
      if ((Feature.usage permille).intern tables).Within then
        some ((Feature.usage permille).intern tables,
          (Feature.usage permille).position
            ⟨(Feature.usage permille).intern tables, dnnNames⟩)
      else
        none := by
  unfold internUsageThreshold
  rw [findIdx?_beq]
  by_cases member : permille ∈ tables.usageThresholdsPermille
  · simp [Feature.intern, Feature.position, member, within, Except.toOption]
  · by_cases full : kMaxUsageThresholds ≤ tables.usageThresholdsPermille.length
    · have above : ¬ tables.usageThresholdsPermille.length + 1 ≤
          kMaxUsageThresholds := by
        omega
      simp [Feature.intern, member, full, above, PredicateTables.Within,
        Except.toOption]
    · have below : tables.usageThresholdsPermille.length + 1 ≤
          kMaxUsageThresholds := by
        omega
      simp [Feature.intern, Feature.position, member, full, below,
        PredicateTables.Within, within.1, Except.toOption,
        List.idxOf_append]

theorem internTimeWindow_toOption
    (within : tables.Within) (dnnNames : List Str) (span : TimeWindow)
    (line : Nat) :
    (internTimeWindow tables span line).toOption =
      if ((Feature.window span).intern tables).Within then
        some ((Feature.window span).intern tables,
          (Feature.window span).position
            ⟨(Feature.window span).intern tables, dnnNames⟩)
      else
        none := by
  unfold internTimeWindow
  rw [findIdx?_beq]
  by_cases member : span ∈ tables.timeWindows
  · simp [Feature.intern, Feature.position, member, within, Except.toOption]
  · by_cases full : kMaxTimeWindows ≤ tables.timeWindows.length
    · have above : ¬ tables.timeWindows.length + 1 ≤ kMaxTimeWindows := by
        omega
      simp [Feature.intern, member, full, above, PredicateTables.Within,
        Except.toOption]
    · have below : tables.timeWindows.length + 1 ≤ kMaxTimeWindows := by
        omega
      simp [Feature.intern, Feature.position, member, full, below,
        PredicateTables.Within, within.2, Except.toOption,
        List.idxOf_append]

/-- Reading a window forgets only the text of its errors. -/
theorem readWindow_toOption (key : Str) (node : Node) :
    (readWindow key node).toOption = windowOf node := by
  unfold readWindow windowOf
  cases node.find "start".toList with
  | none => rfl
  | some startNode =>
    cases node.find "end".toList with
    | none => simp [Except.toOption]
    | some endNode =>
      cases startShape : startNode.asTimeOfDay <;>
        cases endShape : endNode.asTimeOfDay <;>
        simp [startShape, endShape, Except.toOption]

/-- A condition that the name table and the capacity limits allow. -/
def Condition.Admitted
    (condition : Condition) (dnnNames : List Str) (tables : PredicateTables)
    (count : Nat) : Prop :=
  condition.namesKnown dnnNames = true ∧
    (condition.intern tables).Within ∧
    count * condition.width ≤ kMaxExpansionPerRule

instance
    (condition : Condition)
    (dnnNames : List Str)
    (tables : PredicateTables)
    (count : Nat) :
    Decidable (condition.Admitted dnnNames tables count) :=
  inferInstanceAs (Decidable (_ ∧ _ ∧ _))

/-- Add an admitted condition to the pairs of a rule. -/
def tryAdd
    (dnnNames : List Str) (tables : PredicateTables) (pairs : Matches)
    (condition : Condition) :
    Option (PredicateTables × Matches) :=
  if condition.Admitted dnnNames tables pairs.length then
    some (condition.intern tables,
      condition.expand ⟨condition.intern tables, dnnNames⟩ pairs)
  else
    none

section Specification

variable
  {dnnNames : List Str}
  {tables : PredicateTables}
  {pairs : Matches}

theorem tryAdd_of_admitted {condition : Condition}
    (admitted : condition.Admitted dnnNames tables pairs.length) :
    tryAdd dnnNames tables pairs condition =
      some (condition.intern tables,
        condition.expand ⟨condition.intern tables, dnnNames⟩ pairs) :=
  if_pos admitted

theorem tryAdd_of_not_admitted {condition : Condition}
    (refused : ¬ condition.Admitted dnnNames tables pairs.length) :
    tryAdd dnnNames tables pairs condition = none :=
  if_neg refused

section Lists

variable (within : tables.Within) (small : pairs.length ≤ kMaxExpansionPerRule)
  {read : Node → Except RuleCompileError Nat} {parse : Str → Option Feature}
  (reads :
    ∀ item,
      (read item).toOption = checkedPosition ⟨tables, dnnNames⟩ parse item)

include reads

/-- Reading a list and adding a condition with the features it names. -/
theorem tryAdd_list
    {add : List Nat → Except RuleCompileError (PredicateTables × Matches)}
    {condition : List Feature → Condition}
    (names : ∀ features, (condition features).features = features)
    (adds :
      ∀ features,
        (condition features).namesKnown dnnNames = true →
        (add (features.map (Feature.position ⟨tables, dnnNames⟩))).toOption =
          tryAdd dnnNames tables pairs (condition features))
    (node : Node) :
    (node.asList.mapM read >>= add).toOption =
      ((readFeatures parse node).map condition).bind
        (tryAdd dnnNames tables pairs) := by
  rw [toOption_bind, toOption_mapM, funext reads, mapM_checkedPosition]
  cases readFeatures parse node with
  | none => rfl
  | some features =>
    have sameNames :
        (condition features).namesKnown dnnNames =
          features.all (Feature.nameKnown dnnNames) := by
      rw [Condition.namesKnown, names]
    simp only [Option.bind_some, Option.map_some, ← sameNames]
    by_cases known : (condition features).namesKnown dnnNames = true
    · rw [if_pos known, Option.bind_some, adds features known]
    · rw [if_neg known, tryAdd_of_not_admitted fun admitted => known admitted.1]
      rfl

include within small

/-- Reading a positive list and requiring one of its bits. -/
theorem tryAdd_oneOf (ruleId : UInt32) (node : Node) :
    (node.asList.mapM read >>= fun positions =>
        addOneOf pairs positions ruleId node.line >>= fun expanded =>
          pure (tables, expanded)).toOption =
      ((readFeatures parse node).map Condition.oneOf).bind
        (tryAdd dnnNames tables pairs) := by
  refine tryAdd_list reads (fun _ => rfl) (fun features known => ?_) node
  rw [toOption_bind, addOneOf_toOption ⟨tables, dnnNames⟩ small]
  by_cases fits :
      pairs.length * (Condition.oneOf features).width ≤ kMaxExpansionPerRule
  · rw [if_pos fits, tryAdd_of_admitted ⟨known, within, fits⟩]
    rfl
  · rw [if_neg fits, tryAdd_of_not_admitted fun admitted => fits admitted.2.2]
    rfl

/-- Reading a negative list and requiring every bit of it to be clear. -/
theorem tryAdd_noneOf (node : Node) :
    (node.asList.mapM read >>= fun positions =>
        pure (tables, addNoneOf pairs positions)).toOption =
      ((readFeatures parse node).map Condition.noneOf).bind
        (tryAdd dnnNames tables pairs) := by
  refine tryAdd_list reads (fun _ => rfl) (fun features known => ?_) node
  have fits :
      pairs.length * (Condition.noneOf features).width ≤
        kMaxExpansionPerRule := by
    simpa [Condition.width] using small
  rw [tryAdd_of_admitted ⟨known, within, fits⟩]
  rfl

end Lists

/-- A required feature is admitted when its table has room. -/
theorem tryAdd_require (small : pairs.length ≤ kMaxExpansionPerRule)
    {feature : Feature}
    (known : feature.nameKnown dnnNames = true) (want : Bool) :
    tryAdd dnnNames tables pairs (.require feature want) =
      (if (feature.intern tables).Within then
        some (feature.intern tables,
          feature.position ⟨feature.intern tables, dnnNames⟩)
      else
        none).bind fun (tables, position) =>
          some (tables, addBit pairs position want) := by
  have namesKnown :
      (Condition.require feature want).namesKnown dnnNames = true := by
    simp [Condition.namesKnown, Condition.features, known]
  have fits :
      pairs.length * (Condition.require feature want).width ≤
        kMaxExpansionPerRule := by
    simpa [Condition.width] using small
  by_cases within : (feature.intern tables).Within
  · rw [if_pos within, tryAdd_of_admitted ⟨namesKnown, within, fits⟩]
    rfl
  · have refused :
        ¬ (Condition.require feature want).Admitted dnnNames tables
          pairs.length :=
      fun admitted => within admitted.2.1
    rw [if_neg within, tryAdd_of_not_admitted refused]
    rfl

theorem compileCondition_toOption
    (within : tables.Within) (small : pairs.length ≤ kMaxExpansionPerRule)
    (ruleId : UInt32) (key : Str) (node : Node) :
    (compileCondition dnnNames ruleId tables pairs key node).toOption =
      (readCondition key node).bind (tryAdd dnnNames tables pairs) := by
  unfold compileCondition readCondition
  cases boolBit key with
  | some position =>
    cases node.asBool with
    | none => rfl
    | some want =>
      have known : (Feature.fixed position).nameKnown dnnNames = true := rfl
      have room : ((Feature.fixed position).intern tables).Within := within
      simp only [Option.map_some, Option.bind_some]
      rw [tryAdd_require small known want, if_pos room]
      rfl
  | none =>
    dsimp only
    by_cases isStatus : key = "status".toList
    · rw [if_pos isStatus, if_pos isStatus]
      exact tryAdd_oneOf within small (readStatus_toOption _) ruleId node
    rw [if_neg isStatus, if_neg isStatus]
    by_cases isRat : key = "rat".toList
    · rw [if_pos isRat, if_pos isRat]
      exact tryAdd_oneOf within small (readRat_toOption _) ruleId node
    rw [if_neg isRat, if_neg isRat]
    by_cases isNotRat : key = "not_rat".toList
    · rw [if_pos isNotRat, if_pos isNotRat]
      exact tryAdd_noneOf within small (readRat_toOption _) node
    rw [if_neg isNotRat, if_neg isNotRat]
    by_cases isDnn : key = "dnn".toList
    · rw [if_pos isDnn, if_pos isDnn]
      exact tryAdd_oneOf within small (readDnn_toOption ⟨tables, dnnNames⟩)
        ruleId node
    rw [if_neg isDnn, if_neg isDnn]
    by_cases isNotDnn : key = "not_dnn".toList
    · rw [if_pos isNotDnn, if_pos isNotDnn]
      exact tryAdd_noneOf within small (readDnn_toOption ⟨tables, dnnNames⟩)
        node
    rw [if_neg isNotDnn, if_neg isNotDnn]
    by_cases isUsage : key = "usage_above".toList ∨ key = "usage_below".toList
    · rw [if_pos isUsage]
      cases node.asPermille with
      | none =>
        rcases isUsage with rfl | rfl <;> rfl
      | some permille =>
        have known : (Feature.usage permille).nameKnown dnnNames = true := rfl
        dsimp only
        rw [toOption_bind, internUsageThreshold_toOption within dnnNames]
        rcases isUsage with rfl | rfl
        · exact (tryAdd_require small known true).symm
        · exact (tryAdd_require small known false).symm
    rw [if_neg isUsage, if_neg fun isAbove => isUsage (.inl isAbove),
      if_neg fun isBelow => isUsage (.inr isBelow)]
    by_cases isTime :
        key = "time_between".toList ∨ key = "not_time_between".toList
    · rw [if_pos isTime, toOption_bind, readWindow_toOption]
      cases windowOf node with
      | none =>
        rcases isTime with rfl | rfl <;> rfl
      | some span =>
        have known : (Feature.window span).nameKnown dnnNames = true := rfl
        rw [Option.bind_some, toOption_bind,
          internTimeWindow_toOption within dnnNames]
        rcases isTime with rfl | rfl
        · exact (tryAdd_require small known true).symm
        · exact (tryAdd_require small known false).symm
    rw [if_neg isTime, if_neg fun isBetween => isTime (.inl isBetween),
      if_neg fun isOutside => isTime (.inr isOutside)]
    rfl

end Specification

/-- A fixed feature has a bit among the fixed ones. -/
def Feature.Placed : Feature → Prop
  | fixed position =>
    Feat.kHomePlmn ≤ position ∧ position < Feat.kTimeWindowBase
  | _ => True

/-- A condition of the shape a `when` mapping can write. -/
def Condition.Writable : Condition → Prop
  | require feature _ => feature.Placed
  | oneOf features =>
    ∀ first ∈ features, ∀ second ∈ features,
      first.oneHot = true ∧ first.group = second.group
  | noneOf features => ∀ feature ∈ features, feature.oneHot = true

theorem exists_text_of_mem_readFeatures
    {parse : Str → Option Feature} {features : List Feature}
    (read : readFeatures parse node = some features)
    (member : feature ∈ features) :
    ∃ text, parse text = some feature := by
  obtain ⟨item, _, itemRead⟩ := exists_mem_of_mem_mapM read member
  obtain ⟨text, _, parsed⟩ := Option.bind_eq_some_iff.mp itemRead
  exact ⟨text, parsed⟩

/-- A list of one kind of one-hot values is writable. -/
theorem writable_of_readFeatures
    {parse : Str → Option Feature} {features : List Feature}
    (read : readFeatures parse node = some features)
    {group : Nat}
    (parsed :
      ∀ text feature, parse text = some feature →
        feature.oneHot = true ∧ feature.group = group) :
    (Condition.oneOf features).Writable ∧
      (Condition.noneOf features).Writable := by
  have listed :
      ∀ feature ∈ features,
        feature.oneHot = true ∧ feature.group = group := by
    intro feature member
    obtain ⟨text, textParsed⟩ := exists_text_of_mem_readFeatures read member
    exact parsed text feature textParsed
  refine ⟨fun first firstMember second secondMember => ?_,
    fun feature member => (listed feature member).1⟩
  exact ⟨(listed first firstMember).1,
    (listed first firstMember).2.trans (listed second secondMember).2.symm⟩

theorem boolBit_placed
    {key : Str} {position : Nat} (found : boolBit key = some position) :
    (Feature.fixed position).Placed := by
  have allPlaced :
      ∀ entry ∈ boolConds,
        Feat.kHomePlmn ≤ entry.2 ∧ entry.2 < Feat.kTimeWindowBase := by
    decide
  obtain ⟨entry, search, rfl⟩ := Option.map_eq_some_iff.mp found
  exact allPlaced entry (List.mem_of_find?_eq_some search)

theorem readCondition_writable
    {key : Str} (read : readCondition key node = some condition) :
    condition.Writable := by
  have statusKind :
      ∀ text feature, statusFeature text = some feature →
        feature.oneHot = true ∧ feature.group = 2 := by
    intro text feature parsed
    obtain ⟨_, _, rfl⟩ := Option.map_eq_some_iff.mp parsed
    exact ⟨rfl, rfl⟩
  have ratKind :
      ∀ text feature, ratFeature text = some feature →
        feature.oneHot = true ∧ feature.group = 0 := by
    intro text feature parsed
    obtain ⟨_, _, rfl⟩ := Option.map_eq_some_iff.mp parsed
    exact ⟨rfl, rfl⟩
  have dnnKind :
      ∀ text feature, dnnFeature text = some feature →
        feature.oneHot = true ∧ feature.group = 1 := by
    intro text feature parsed
    cases parsed
    exact ⟨rfl, rfl⟩
  unfold readCondition at read
  split at read
  case h_1 position found =>
    obtain ⟨want, _, rfl⟩ := Option.map_eq_some_iff.mp read
    exact boolBit_placed found
  case h_2 =>
    split_ifs at read
    · obtain ⟨_, listed, rfl⟩ := Option.map_eq_some_iff.mp read
      exact (writable_of_readFeatures listed statusKind).1
    · obtain ⟨_, listed, rfl⟩ := Option.map_eq_some_iff.mp read
      exact (writable_of_readFeatures listed ratKind).1
    · obtain ⟨_, listed, rfl⟩ := Option.map_eq_some_iff.mp read
      exact (writable_of_readFeatures listed ratKind).2
    · obtain ⟨_, listed, rfl⟩ := Option.map_eq_some_iff.mp read
      exact (writable_of_readFeatures listed dnnKind).1
    · obtain ⟨_, listed, rfl⟩ := Option.map_eq_some_iff.mp read
      exact (writable_of_readFeatures listed dnnKind).2
    · obtain ⟨_, _, rfl⟩ := Option.map_eq_some_iff.mp read
      trivial
    · obtain ⟨_, _, rfl⟩ := Option.map_eq_some_iff.mp read
      trivial
    · obtain ⟨_, _, rfl⟩ := Option.map_eq_some_iff.mp read
      trivial
    · obtain ⟨_, _, rfl⟩ := Option.map_eq_some_iff.mp read
      trivial

theorem readConditions_writable
    {fields : List (Str × Node)} {conditions : List Condition}
    (read : readConditions fields = some conditions)
    (member : condition ∈ conditions) :
    condition.Writable := by
  obtain ⟨field, _, fieldRead⟩ := exists_mem_of_mem_mapM read member
  exact readCondition_writable fieldRead

namespace Condition.Writable

variable {condition : Condition}

theorem wellFormed (writable : condition.Writable) :
    condition.WellFormed := by
  cases condition with
  | require _ _ => trivial
  | oneOf _ => exact writable
  | noneOf _ => trivial

theorem interned (writable : condition.Writable) {tables : PredicateTables}
    (interned : condition.Interned tables)
    {feature : Feature}
    (member : feature ∈ condition.features) :
    feature.Interned tables := by
  have ofOneHot : feature.oneHot = true → feature.Interned tables := by
    cases feature <;> simp [Feature.oneHot, Feature.Interned]
  cases condition with
  | require _ _ =>
    cases List.mem_singleton.mp member
    exact interned
  | oneOf _ => exact ofOneHot (writable feature member feature member).1
  | noneOf _ => exact ofOneHot (writable feature member)

/-- An interned writable condition with known names has a bit everywhere. -/
theorem known (writable : condition.Writable) {bits : BitTables}
    (interned : condition.Interned bits.tables)
    (names : condition.namesKnown bits.dnnNames = true) :
    condition.Known bits := by
  intro feature member
  have featureInterned := writable.interned interned member
  have nameKnown := List.all_eq_true.mp names feature member
  cases feature with
  | fixed position =>
    cases condition with
    | require _ _ =>
      cases List.mem_singleton.mp member
      exact writable
    | oneOf _ => cases (writable _ member _ member).1
    | noneOf _ => cases writable _ member
  | status _ => trivial
  | rat _ => trivial
  | dnn name => exact List.contains_iff_mem.mp nameKnown
  | usage _ => exact featureInterned
  | window _ => exact featureInterned

theorem expand_eq_of_extends (writable : condition.Writable)
    {earlier later : PredicateTables}
    (extends_ : earlier.Extends later) (interned : condition.Interned earlier)
    (dnnNames : List Str) (pairs : Matches) :
    condition.expand ⟨earlier, dnnNames⟩ pairs =
      condition.expand ⟨later, dnnNames⟩ pairs :=
  Condition.expand_congr
    (fun _ member =>
      Feature.position_eq_of_extends extends_ dnnNames
        (writable.interned interned member))
    pairs

end Condition.Writable

/-- The conditions of a rule that the names and the limits allow. -/
def Admissible
    (dnnNames : List Str) (tables : PredicateTables) (count : Nat)
    (conditions : List Condition) : Prop :=
  conditions.all (Condition.namesKnown dnnNames) = true ∧
    (internAll tables conditions).Within ∧
    count * totalWidth conditions ≤ kMaxExpansionPerRule

/-- Admitting a list is admitting its head and then the rest of it. -/
theorem admissible_cons_iff {count : Nat} {later : List Condition} :
    Admissible dnnNames tables count (condition :: later) ↔
      condition.Admitted dnnNames tables count ∧
        Admissible dnnNames (condition.intern tables)
          (count * condition.width) later := by
  have widthShape :
      count * totalWidth (condition :: later) =
        count * condition.width * totalWidth later := by
    rw [totalWidth, List.map_cons, List.prod_cons, ← Nat.mul_assoc]
    rfl
  constructor
  · rintro ⟨names, within, fits⟩
    rw [List.all_cons, Bool.and_eq_true] at names
    rw [widthShape] at fits
    refine ⟨⟨names.1, ?_, ?_⟩, names.2, within, fits⟩
    · exact (PredicateTables.Extends.internAll _ later).within within
    · exact (Nat.le_mul_of_pos_right _ (totalWidth_pos later)).trans fits
  · rintro ⟨⟨name, _, _⟩, names, within, fits⟩
    refine ⟨?_, within, widthShape.trans_le fits⟩
    rw [List.all_cons, Bool.and_eq_true]
    exact ⟨name, names⟩

/-- The first condition of a rule is expanded with the bits it had then. -/
theorem expandAll_cons
    (writable : condition.Writable) (tables : PredicateTables)
    (dnnNames : List Str) (pairs : Matches) (later : List Condition) :
    expandAll ⟨internAll tables (condition :: later), dnnNames⟩ pairs
        (condition :: later) =
      expandAll ⟨internAll (condition.intern tables) later, dnnNames⟩
        (condition.expand ⟨condition.intern tables, dnnNames⟩ pairs)
        later := by
  rw [writable.expand_eq_of_extends
    (PredicateTables.Extends.internAll (condition.intern tables) later)
    (Condition.interned_intern tables condition)]
  rfl

theorem compileFields_cons_iff
    (within : tables.Within) (small : pairs.length ≤ kMaxExpansionPerRule)
    (ruleId : UInt32) (key : Str) (node : Node) (later : List (Str × Node))
    (final : PredicateTables × Matches) :
    compileFields dnnNames ruleId ((key, node) :: later) tables pairs =
        (final.1, .ok final.2) ↔
      ∃ condition,
        readCondition key node = some condition ∧
          condition.Admitted dnnNames tables pairs.length ∧
          compileFields dnnNames ruleId later (condition.intern tables)
              (condition.expand ⟨condition.intern tables, dnnNames⟩ pairs) =
            (final.1, .ok final.2) := by
  have spec :
      (compileCondition dnnNames ruleId tables pairs key node).toOption =
        (readCondition key node).bind (tryAdd dnnNames tables pairs) :=
    compileCondition_toOption within small ruleId key node
  constructor
  · intro compiled
    rw [compileFields] at compiled
    cases first :
        compileCondition dnnNames ruleId tables pairs key node with
    | error failure =>
      rw [first] at compiled
      cases compiled
    | ok next =>
      rw [first] at spec compiled
      obtain ⟨condition, read, added⟩ := Option.bind_eq_some_iff.mp spec.symm
      rw [tryAdd] at added
      split at added
      case isTrue admitted =>
        cases added
        exact ⟨condition, read, admitted, compiled⟩
      case isFalse =>
        cases added
  · rintro ⟨condition, read, admitted, compiled⟩
    rw [read, Option.bind_some, tryAdd_of_admitted admitted] at spec
    rw [compileFields, toOption_eq_some_iff.mp spec]
    exact compiled

theorem compileFields_eq_ok_iff
    (within : tables.Within) (small : pairs.length ≤ kMaxExpansionPerRule)
    (ruleId : UInt32) (fields : List (Str × Node))
    (final : PredicateTables × Matches) :
    compileFields dnnNames ruleId fields tables pairs =
        (final.1, .ok final.2) ↔
      ∃ conditions,
        readConditions fields = some conditions ∧
          Admissible dnnNames tables pairs.length conditions ∧
          final =
            (internAll tables conditions,
              expandAll ⟨internAll tables conditions, dnnNames⟩ pairs
                conditions) := by
  induction fields generalizing tables pairs with
  | nil =>
    have admissible : Admissible dnnNames tables pairs.length [] :=
      ⟨rfl, within, by simpa [totalWidth] using small⟩
    constructor
    · intro compiled
      obtain ⟨finalTables, finalPairs⟩ := final
      cases compiled
      exact ⟨[], rfl, admissible, rfl⟩
    · rintro ⟨conditions, read, _, rfl⟩
      cases read
      rfl
  | cons field later inductionHypothesis =>
    obtain ⟨key, node⟩ := field
    rw [compileFields_cons_iff within small]
    constructor
    · rintro ⟨condition, read, admitted, compiled⟩
      have laterSmall :
          (condition.expand ⟨condition.intern tables, dnnNames⟩
            pairs).length ≤ kMaxExpansionPerRule := by
        rw [Condition.length_expand]
        exact admitted.2.2
      rw [inductionHypothesis admitted.2.1 laterSmall] at compiled
      obtain ⟨conditions, laterRead, admissible, rfl⟩ := compiled
      rw [Condition.length_expand] at admissible
      refine ⟨condition :: conditions, ?_,
        admissible_cons_iff.mpr ⟨admitted, admissible⟩, ?_⟩
      · exact mapM_cons_eq_some_iff.mpr
          ⟨condition, conditions, read, laterRead, rfl⟩
      · rw [expandAll_cons (readCondition_writable read)]
        rfl
    · rintro ⟨conditions, read, admissible, rfl⟩
      obtain ⟨condition, conditions, fieldRead, laterRead, rfl⟩ :=
        mapM_cons_eq_some_iff.mp read
      obtain ⟨admitted, laterAdmissible⟩ := admissible_cons_iff.mp admissible
      have laterSmall :
          (condition.expand ⟨condition.intern tables, dnnNames⟩
            pairs).length ≤ kMaxExpansionPerRule := by
        rw [Condition.length_expand]
        exact admitted.2.2
      refine ⟨condition, fieldRead, admitted, ?_⟩
      rw [inductionHypothesis admitted.2.1 laterSmall]
      rw [← Condition.length_expand ⟨condition.intern tables, dnnNames⟩]
        at laterAdmissible
      refine ⟨conditions, laterRead, laterAdmissible, ?_⟩
      rw [expandAll_cons (readCondition_writable fieldRead)]
      rfl

end Policyd
