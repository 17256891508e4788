import Mathlib.Data.List.Forall2
import Mathlib.Data.Option.Defs

namespace Policyd

/-!
# Reading lists

Readers return an optional value, or a value or a problem.  The lemmas say what
reading a whole list does: which elements it reads, when it succeeds, and that
forgetting the texts of problems commutes with it.
-/

section Readers

variable {Problem First Second : Type}

theorem toOption_eq_some_iff {result : Except Problem First} {value : First} :
    result.toOption = some value ↔ result = .ok value := by
  cases result <;> simp [Except.toOption]

theorem toOption_bind
    (first : Except Problem First) (next : First → Except Problem Second) :
    (first >>= next).toOption =
      first.toOption.bind fun value => (next value).toOption := by
  cases first <;> rfl

/-- Forgetting problems commutes with reading a list. -/
theorem toOption_mapM
    (read : First → Except Problem Second) (items : List First) :
    (items.mapM read).toOption =
      items.mapM fun item => (read item).toOption := by
  induction items with
  | nil => rfl
  | cons item later inductionHypothesis =>
    rw [List.mapM_cons, List.mapM_cons, toOption_bind]
    cases (read item).toOption with
    | none => rfl
    | some value =>
      simp only [Option.bind_some, toOption_bind, inductionHypothesis]
      cases later.mapM fun item => (read item).toOption <;> rfl

/-- Reading a list and checking and converting every element of it. -/
theorem mapM_bind_guard {Item Source Target : Type}
    (read : Item → Option Source) (check : Source → Bool)
    (convert : Source → Target) (items : List Item) :
    (items.mapM fun item =>
        (read item).bind fun source =>
          if check source then some (convert source) else none) =
      (items.mapM read).bind fun sources =>
        if sources.all check then some (sources.map convert) else none := by
  induction items with
  | nil => simp
  | cons item later inductionHypothesis =>
    rw [List.mapM_cons, List.mapM_cons, inductionHypothesis]
    cases read item with
    | none => rfl
    | some source =>
      cases later.mapM read with
      | none =>
        by_cases checked : check source = true <;> simp [checked]
      | some sources =>
        by_cases checked : check source = true <;>
          by_cases laterChecked : sources.all check = true <;>
          simp [checked, laterChecked, -List.all_eq_true]

variable {read : First → Option Second} {items : List First}
  {values : List Second} {Related : First → Second → Prop}
  {first : Option First} {second : Option Second}

/-- A list is read exactly when each of its elements is. -/
theorem mapM_eq_some_iff :
    items.mapM read = some values ↔
      List.Forall₂ (fun item value => read item = some value)
        items values := by
  induction items generalizing values with
  | nil => cases values <;> simp
  | cons item later inductionHypothesis =>
    rw [List.mapM_cons, List.forall₂_cons_left_iff]
    constructor
    · intro whole
      obtain ⟨value, itemRead, rest⟩ := Option.bind_eq_some_iff.mp whole
      obtain ⟨laterValues, laterRead, shape⟩ := Option.bind_eq_some_iff.mp rest
      exact ⟨value, laterValues, itemRead,
        inductionHypothesis.mp laterRead, (Option.some.inj shape).symm⟩
    · rintro ⟨value, laterValues, itemRead, laterRead, rfl⟩
      rw [itemRead, inductionHypothesis.mpr laterRead]
      rfl

theorem mapM_cons_eq_some_iff {item : First} {later : List First} :
    (item :: later).mapM read = some values ↔
      ∃ value laterValues,
        read item = some value ∧ later.mapM read = some laterValues ∧
          values = value :: laterValues := by
  rw [mapM_eq_some_iff, List.forall₂_cons_left_iff]
  simp only [mapM_eq_some_iff]

theorem exists_mem_right_of_forall₂
    (related : List.Forall₂ Related items values)
    {item : First}
    (member : item ∈ items) :
    ∃ value ∈ values, Related item value := by
  induction related with
  | nil => cases member
  | cons headRelated _ inductionHypothesis =>
    rcases List.mem_cons.mp member with rfl | isLater
    · exact ⟨_, List.mem_cons_self, headRelated⟩
    · obtain ⟨value, valueMember, isRelated⟩ := inductionHypothesis isLater
      exact ⟨value, List.mem_cons_of_mem _ valueMember, isRelated⟩

theorem exists_mem_of_mem_mapM (whole : items.mapM read = some values)
    {value : Second}
    (member : value ∈ values) :
    ∃ item ∈ items, read item = some value :=
  exists_mem_right_of_forall₂ (mapM_eq_some_iff.mp whole).flip member

/-- Reading a rearranged list. -/
theorem mapM_perm (read : First → Option Second) {others : List First}
    (rearranged : items.Perm others) :
    Option.Rel List.Perm (items.mapM read) (others.mapM read) := by
  induction rearranged with
  | nil => exact .some .nil
  | @cons item first second _ inductionHypothesis =>
    rw [List.mapM_cons, List.mapM_cons]
    generalize first.mapM read = firstValues at inductionHypothesis ⊢
    generalize second.mapM read = secondValues at inductionHypothesis ⊢
    cases read item with
    | none => exact .none
    | some value =>
      cases inductionHypothesis with
      | none => exact .none
      | some permuted => exact .some (permuted.cons value)
  | swap first second later =>
    simp only [List.mapM_cons]
    cases read first with
    | none => cases read second <;> exact .none
    | some firstValue =>
      cases read second with
      | none => exact .none
      | some secondValue =>
        cases later.mapM read with
        | none => exact .none
        | some values => exact .some (.swap _ _ _)
  | @trans first second third _ _ firstHypothesis secondHypothesis =>
    generalize first.mapM read = firstValues at firstHypothesis ⊢
    generalize second.mapM read = secondValues at *
    generalize third.mapM read = thirdValues at secondHypothesis ⊢
    cases firstHypothesis with
    | none =>
      cases secondHypothesis
      exact .none
    | some permuted =>
      cases secondHypothesis with
      | some permutedAgain => exact .some (permuted.trans permutedAgain)

theorem exists_right_of_rel (related : Option.Rel Related first second)
    {value : First}
    (isSome : first = some value) :
    ∃ other, second = some other ∧ Related value other := by
  cases related with
  | none => cases isSome
  | some isRelated =>
    cases isSome
    exact ⟨_, rfl, isRelated⟩

theorem exists_left_of_rel (related : Option.Rel Related first second)
    {value : Second}
    (isSome : second = some value) :
    ∃ other, first = some other ∧ Related other value := by
  cases related with
  | none => cases isSome
  | some isRelated =>
    cases isSome
    exact ⟨_, rfl, isRelated⟩

/-- Options are related when each value of one has a related one. -/
theorem rel_of_exists
    (forward :
      ∀ value, first = some value →
        ∃ other, second = some other ∧ Related value other)
    (backward : ∀ other, second = some other → ∃ value, first = some value) :
    Option.Rel Related first second := by
  cases shape : first with
  | some value =>
    obtain ⟨other, otherShape, related⟩ := forward value shape
    rw [otherShape]
    exact .some related
  | none =>
    cases otherShape : second with
    | none => exact .none
    | some other =>
      obtain ⟨value, impossible⟩ := backward other otherShape
      rw [shape] at impossible
      cases impossible

theorem rel_bind {Value : Type} (shared : Option Value)
    {next : Value → Option First} {other : Value → Option Second}
    (related : ∀ value, Option.Rel Related (next value) (other value)) :
    Option.Rel Related (shared.bind next) (shared.bind other) := by
  cases shared with
  | none => exact .none
  | some value => exact related value

end Readers

/-- Searching a table for an entry finds its first position. -/
theorem findIdx?_beq {Entry : Type} [BEq Entry] [LawfulBEq Entry]
    (entries : List Entry) (wanted : Entry) :
    entries.findIdx? (· == wanted) =
      if wanted ∈ entries then some (entries.idxOf wanted) else none := by
  rw [List.findIdx?_eq_guard_findIdx_lt]
  by_cases member : wanted ∈ entries
  · have inside : entries.findIdx (· == wanted) < entries.length :=
      List.idxOf_lt_length_of_mem member
    simp only [member, if_true, Option.guard, inside, decide_true]
    rfl
  · have outside : ¬ entries.findIdx (· == wanted) < entries.length := by
      intro inside
      exact member (List.idxOf_lt_length_iff.mp inside)
    simp only [member, if_false, Option.guard, outside, decide_false]
    rfl

end Policyd
