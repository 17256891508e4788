import Policyd.FeatureBits

namespace Policyd

open MaskedWords

/-!
# The cubes of a rule

A rule compiles to the cross product of the alternatives of its conditions, one
cube of literals for each combination.  Some cube of a rule meets the feature
word of a situation exactly when every condition of the rule passes there.
-/

namespace Condition

/-- The features a condition mentions. -/
def features : Condition → List Feature
  | require feature _ => [feature]
  | oneOf features => features
  | noneOf features => features

/-- The alternatives of a condition, as literals over feature bits. -/
def alternatives (bits : BitTables) : Condition → List (List Literal)
  | require feature want => [[(feature.position bits, want)]]
  | oneOf [] => [[]]
  | oneOf (first :: later) =>
    (first :: later).map fun feature => [(feature.position bits, true)]
  | noneOf features =>
    [features.map fun feature => (feature.position bits, false)]

/-- The features of a condition all have bits. -/
def Known (bits : BitTables) (condition : Condition) : Prop :=
  ∀ feature ∈ condition.features, feature.Known bits

end Condition

/-- Whether at most one feature of a group holds at a time. -/
def Feature.oneHot : Feature → Bool
  | rat _ => true
  | dnn _ => true
  | status _ => true
  | _ => false

/-- Listed alternatives are values of one one-hot group. -/
def Condition.WellFormed : Condition → Prop
  | oneOf features =>
    ∀ first ∈ features, ∀ second ∈ features,
      first.oneHot = true ∧ first.group = second.group
  | _ => True

/-- Two values of one one-hot group that both hold are the same. -/
theorem Feature.eq_of_holds {situation : Situation} {first second : Feature}
    (oneHot : first.oneHot = true) (sameGroup : first.group = second.group)
    (firstHolds : first.holds situation = true)
    (secondHolds : second.holds situation = true) :
    first = second := by
  cases first <;> cases second <;> simp [group] at sameGroup <;>
    simp [Feature.oneHot] at oneHot
  case status.status =>
    simp only [holds, beq_iff_eq] at firstHolds secondHolds
    rw [← firstHolds, ← secondHolds]
  case rat.rat access other =>
    simp only [holds, beq_iff_eq] at firstHolds secondHolds
    revert firstHolds secondHolds
    cases access <;> cases other <;> simp [RatType.code] <;> omega
  case dnn.dnn =>
    simp only [holds, beq_iff_eq] at firstHolds secondHolds
    rw [firstHolds] at secondHolds
    rw [Option.some.inj secondHolds]

section Cubes

variable {conditions : List Condition} {situation : Situation}

variable {condition : Condition}

/-- A positive literal of an alternative belongs to an asserted feature. -/
private theorem asserted_of_mem_alternatives {bits : BitTables}
    (member : condition ∈ conditions)
    {part : List Literal}
    (chosen : part ∈ condition.alternatives bits)
    {place : Nat}
    (literal : (place, true) ∈ part) :
    ∃ feature ∈ condition.features,
      feature.position bits = place ∧
        Condition.asserted conditions feature = true := by
  cases condition with
  | require feature want =>
    simp only [Condition.alternatives, List.mem_singleton] at chosen
    subst part
    simp only [List.mem_singleton, Prod.mk.injEq] at literal
    obtain ⟨samePlace, rfl⟩ := literal
    refine ⟨feature, by simp [Condition.features], samePlace.symm, ?_⟩
    rw [Condition.asserted, List.any_eq_true]
    exact ⟨_, member, by simp⟩
  | oneOf features =>
    cases features with
    | nil =>
      simp only [Condition.alternatives, List.mem_singleton] at chosen
      subst part
      cases literal
    | cons first later =>
      simp only [Condition.alternatives, List.mem_map] at chosen
      obtain ⟨feature, featureMember, rfl⟩ := chosen
      simp only [List.mem_singleton, Prod.mk.injEq, and_true] at literal
      refine ⟨feature, featureMember, literal.symm, ?_⟩
      rw [Condition.asserted, List.any_eq_true]
      exact ⟨_, member, by simpa using featureMember⟩
  | noneOf features =>
    simp only [Condition.alternatives, List.mem_singleton] at chosen
    subst part
    simp at literal

/-- Every part of a chosen cube comes from one condition, and vice versa. -/
private theorem forall₂_map_right
    {bits : BitTables} {parts : List (List Literal)}
    (chosen :
      List.Forall₂ (· ∈ ·) parts
        (conditions.map (Condition.alternatives bits))) :
    (∀ part ∈ parts,
        ∃ condition ∈ conditions, part ∈ condition.alternatives bits) ∧
      ∀ condition ∈ conditions,
        ∃ part ∈ parts, part ∈ condition.alternatives bits := by
  induction conditions generalizing parts with
  | nil =>
    cases chosen
    simp
  | cons condition later inductionHypothesis =>
    cases chosen with
    | cons chosenHead chosenLater =>
      obtain ⟨fromParts, fromConditions⟩ := inductionHypothesis chosenLater
      constructor
      · intro part member
        rcases List.mem_cons.mp member with rfl | isLater
        · exact ⟨condition, List.mem_cons_self, chosenHead⟩
        · obtain ⟨other, otherMember, otherChosen⟩ := fromParts part isLater
          exact ⟨other, List.mem_cons_of_mem _ otherMember, otherChosen⟩
      · intro other member
        rcases List.mem_cons.mp member with rfl | isLater
        · exact ⟨_, List.mem_cons_self, chosenHead⟩
        · obtain ⟨part, partMember, partChosen⟩ := fromConditions other isLater
          exact ⟨part, List.mem_cons_of_mem _ partMember, partChosen⟩

/-- A cube that meets the word of a situation lets every condition pass. -/
private theorem passes_of_meets (fit : situation.bits.Fit)
    (known : ∀ condition ∈ conditions, condition.Known situation.bits)
    {parts : List (List Literal)}
    (chosen :
      List.Forall₂ (· ∈ ·) parts
        (conditions.map (Condition.alternatives situation.bits)))
    (meets : Meets situation.features parts.flatten)
    (member : condition ∈ conditions) :
    condition.passes conditions situation = true := by
  obtain ⟨fromParts, fromConditions⟩ := forall₂_map_right chosen
  -- A positive literal of the cube makes its feature hold, a negative one
  -- makes it absent unless the cube also asks for it.
  have positive
      {feature : Feature}
      (featureKnown : feature.Known situation.bits)
      (literal : (feature.position situation.bits, true) ∈ parts.flatten) :
      feature.holds situation = true := by
    have atPlace := meets _ literal
    rw [situation.getLsbD_features fit featureKnown] at atPlace
    simpa [literal] using atPlace
  have negative
      {feature : Feature}
      (featureKnown : feature.Known situation.bits)
      (literal : (feature.position situation.bits, false) ∈ parts.flatten) :
      (!feature.holds situation ||
        Condition.asserted conditions feature) = true := by
    have atPlace := meets _ literal
    rw [situation.getLsbD_features fit featureKnown] at atPlace
    by_cases asked : (feature.position situation.bits, true) ∈ parts.flatten
    · obtain ⟨part, partMember, literalMember⟩ := List.mem_flatten.mp asked
      obtain ⟨other, otherMember, otherChosen⟩ := fromParts part partMember
      obtain ⟨found, foundMember, samePlace, asserted⟩ :=
        asserted_of_mem_alternatives otherMember otherChosen literalMember
      have same :=
        Feature.position_injective fit
          (known other otherMember found foundMember) featureKnown
          samePlace
      subst found
      simp [asserted]
    · simp only [asked, decide_false] at atPlace
      simp [atPlace]
  obtain ⟨part, partMember, partChosen⟩ := fromConditions condition member
  have conditionKnown := known condition member
  cases condition with
  | require feature want =>
    simp only [Condition.alternatives, List.mem_singleton] at partChosen
    have featureKnown := conditionKnown feature (by simp [Condition.features])
    have literal : (feature.position situation.bits, want) ∈ parts.flatten :=
      List.mem_flatten.mpr ⟨part, partMember, by simp [partChosen]⟩
    cases want with
    | true => exact positive featureKnown literal
    | false => exact negative featureKnown literal
  | oneOf features =>
    cases features with
    | nil => simp [Condition.passes]
    | cons first later =>
      simp only [Condition.alternatives, List.mem_map] at partChosen
      obtain ⟨feature, featureMember, rfl⟩ := partChosen
      have literal : (feature.position situation.bits, true) ∈ parts.flatten :=
        List.mem_flatten.mpr ⟨_, partMember, by simp⟩
      have holds := positive (conditionKnown feature featureMember) literal
      rw [Condition.passes, Bool.or_eq_true, List.any_eq_true]
      exact Or.inr ⟨feature, featureMember, holds⟩
  | noneOf features =>
    simp only [Condition.alternatives, List.mem_singleton] at partChosen
    rw [Condition.passes, List.all_eq_true]
    intro feature featureMember
    refine negative (conditionKnown feature featureMember) ?_
    refine List.mem_flatten.mpr ⟨part, partMember, ?_⟩
    rw [partChosen]
    exact List.mem_map_of_mem featureMember

/-- The alternative of a passing condition that a situation satisfies. -/
private def satisfied (situation : Situation) : Condition → List Literal
  | .require feature want => [(feature.position situation.bits, want)]
  | .oneOf features =>
    match features.find? (·.holds situation) with
    | some feature => [(feature.position situation.bits, true)]
    | none => []
  | .noneOf features =>
    features.map fun feature => (feature.position situation.bits, false)

private theorem satisfied_mem_alternatives
    (passes : condition.passes conditions situation = true) :
    satisfied situation condition ∈ condition.alternatives situation.bits := by
  cases condition with
  | require feature want => simp [satisfied, Condition.alternatives]
  | oneOf features =>
    cases features with
    | nil => simp [satisfied, Condition.alternatives]
    | cons first later =>
      rw [Condition.passes, Bool.or_eq_true] at passes
      have someHolds := passes.resolve_left (by simp)
      rw [List.any_eq_true] at someHolds
      obtain ⟨feature, featureMember, holds⟩ := someHolds
      cases found : (first :: later).find? (·.holds situation) with
      | none =>
        rw [List.find?_eq_none] at found
        exact (found feature featureMember holds).elim
      | some chosen =>
        simp only [satisfied, found, Condition.alternatives, List.mem_map]
        exact ⟨chosen, List.mem_of_find?_eq_some found, rfl⟩
  | noneOf features => simp [satisfied, Condition.alternatives]

private theorem satisfied_literal
    (passes : condition.passes conditions situation = true)
    {place : Nat} {want : Bool}
    (literal : (place, want) ∈ satisfied situation condition) :
    ∃ feature ∈ condition.features,
      feature.position situation.bits = place ∧
        (want = true → feature.holds situation = true) ∧
        (want = false →
          feature.holds situation = false ∨
            Condition.asserted conditions feature = true) := by
  cases condition with
  | require feature written =>
    simp only [satisfied, List.mem_singleton, Prod.mk.injEq] at literal
    obtain ⟨rfl, rfl⟩ := literal
    refine ⟨feature, by simp [Condition.features], rfl, ?_, ?_⟩
    · rintro rfl
      exact passes
    · rintro rfl
      simpa [Condition.passes] using passes
  | oneOf features =>
    cases found : features.find? (·.holds situation) with
    | none => simp [satisfied, found] at literal
    | some chosen =>
      simp only [satisfied, found, List.mem_singleton, Prod.mk.injEq] at literal
      obtain ⟨rfl, rfl⟩ := literal
      refine ⟨chosen, List.mem_of_find?_eq_some found, rfl, ?_, ?_⟩
      · intro _
        simpa using List.find?_some found
      · intro impossible
        cases impossible
  | noneOf features =>
    simp only [satisfied, List.mem_map, Prod.mk.injEq] at literal
    obtain ⟨feature, featureMember, rfl, rfl⟩ := literal
    refine ⟨feature, featureMember, rfl, ?_, ?_⟩
    · intro impossible
      cases impossible
    · intro _
      rw [Condition.passes, List.all_eq_true] at passes
      simpa using passes feature featureMember

/-- An asserted feature that holds is among the satisfied literals. -/
private theorem asserted_mem_satisfied
    (wellFormed : ∀ condition ∈ conditions, condition.WellFormed)
    {feature : Feature}
    (asserted : Condition.asserted conditions feature = true)
    (holds : feature.holds situation = true) :
    (feature.position situation.bits, true) ∈
      (conditions.map (satisfied situation)).flatten := by
  rw [Condition.asserted, List.any_eq_true] at asserted
  obtain ⟨condition, member, asserts⟩ := asserted
  refine List.mem_flatten.mpr ⟨_, List.mem_map_of_mem member, ?_⟩
  cases condition with
  | require other want =>
    simp only [Bool.and_eq_true, beq_iff_eq] at asserts
    obtain ⟨rfl, rfl⟩ := asserts
    simp [satisfied]
  | oneOf features =>
    have featureMember : feature ∈ features := by simpa using asserts
    cases found : features.find? (·.holds situation) with
    | none =>
      rw [List.find?_eq_none] at found
      exact (found feature featureMember holds).elim
    | some chosen =>
      have group :=
        wellFormed _ member chosen
          (List.mem_of_find?_eq_some found) feature featureMember
      have same : chosen = feature :=
        Feature.eq_of_holds group.1 group.2
          (by simpa using List.find?_some found) holds
      simp [satisfied, found, same]
  | noneOf features => cases asserts

section

variable (fit : situation.bits.Fit)
    (known : ∀ condition ∈ conditions, condition.Known situation.bits)
    (wellFormed : ∀ condition ∈ conditions, condition.WellFormed)

include fit known wellFormed

/-- When every condition passes, the satisfied literals meet the word. -/
private theorem meets_of_passes
    (passes :
      ∀ condition ∈ conditions, condition.passes conditions situation = true) :
    Meets situation.features
      (conditions.map (satisfied situation)).flatten := by
  have literalFeature
      {place : Nat}
      {want : Bool}
      (literal :
        (place, want) ∈ (conditions.map (satisfied situation)).flatten) :
      ∃ feature,
        feature.Known situation.bits ∧
          feature.position situation.bits = place ∧
          (want = true → feature.holds situation = true) ∧
          (want = false →
            feature.holds situation = false ∨
              Condition.asserted conditions feature = true) := by
    obtain ⟨part, partMember, literalMember⟩ := List.mem_flatten.mp literal
    obtain ⟨condition, member, rfl⟩ := List.mem_map.mp partMember
    obtain ⟨feature, featureMember, samePlace, positive, negative⟩ :=
      satisfied_literal (passes condition member) literalMember
    exact ⟨feature, known condition member feature featureMember,
      samePlace, positive, negative⟩
  rintro ⟨place, want⟩ literal
  obtain ⟨feature, featureKnown, rfl, positive, negative⟩ :=
    literalFeature literal
  rw [situation.getLsbD_features fit featureKnown]
  have asked :
      (feature.position situation.bits, true) ∈
          (conditions.map (satisfied situation)).flatten →
        feature.holds situation = true := by
    intro askedFor
    obtain ⟨other, otherKnown, samePlace, otherPositive, _⟩ :=
      literalFeature askedFor
    have same :=
      Feature.position_injective fit otherKnown featureKnown samePlace
    rw [← same]
    exact otherPositive rfl
  cases holds : feature.holds situation with
  | true =>
    symm
    rw [decide_eq_true_iff]
    cases want with
    | true => exact literal
    | false =>
      have asserted : Condition.asserted conditions feature = true := by
        rcases negative rfl with absent | asserted
        · rw [holds] at absent
          cases absent
        · exact asserted
      exact asserted_mem_satisfied wellFormed asserted holds
  | false =>
    symm
    rw [decide_eq_false_iff_not]
    intro askedFor
    rw [asked askedFor] at holds
    cases holds

/--
Some cube of a rule meets the word of a situation exactly when every condition
of the rule passes.
-/
theorem exists_meets_iff :
    (∃ cube ∈
        crossProduct (conditions.map (Condition.alternatives situation.bits)),
        Meets situation.features cube) ↔
      ∀ condition ∈ conditions,
        condition.passes conditions situation = true := by
  constructor
  · rintro ⟨cube, cubeMember, meets⟩ condition member
    obtain ⟨parts, chosen, rfl⟩ := (mem_crossProduct _ _).mp cubeMember
    exact passes_of_meets fit known chosen meets member
  · intro passes
    refine ⟨(conditions.map (satisfied situation)).flatten, ?_,
      meets_of_passes fit known wellFormed passes⟩
    rw [mem_crossProduct]
    refine ⟨_, ?_, rfl⟩
    rw [List.forall₂_map_left_iff, List.forall₂_map_right_iff,
      List.forall₂_same]
    exact fun condition member =>
      satisfied_mem_alternatives (passes condition member)

end

end Cubes

end Policyd
