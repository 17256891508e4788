import Mathlib.Data.List.TakeWhile

namespace Policyd.LabelledText

/-!
# Texts of labelled values

A text is written from a fixed list of labels with a value behind each.  Values
are made of plain symbols and every label starts with another one, so the text
determines the values.  Symbols are arbitrary.
-/

section Texts

variable {Symbol : Type}

/-- Each label with its value behind it, and a fixed ending. -/
def render (ending : List Symbol) :
    List (List Symbol) → List (List Symbol) → List Symbol
  | label :: labels, value :: values =>
    label ++ (value ++ render ending labels values)
  | _, _ => ending

/-- Labels and values in turn. -/
def interleave :
    List (List Symbol) → List (List Symbol) → List (List Symbol)
  | label :: labels, value :: values =>
    label :: value :: interleave labels values
  | _, _ => []

theorem flatten_interleave
    (ending : List Symbol) (labels values : List (List Symbol)) :
    (interleave labels values ++ [ending]).flatten =
      render ending labels values := by
  induction labels, values using interleave.induct with
  | case1 label labels value values inductionHypothesis =>
    rw [interleave, List.cons_append, List.cons_append, List.flatten_cons,
      List.flatten_cons, inductionHypothesis, render]
  | case2 labels values notBoth =>
    rw [interleave, render]
    · simp
    · exact notBoth
    · exact notBoth

variable (plain : Symbol → Bool)

/-- A text that starts with a symbol that is not plain. -/
def Breaks (text : List Symbol) : Prop :=
  ∃ first rest, text = first :: rest ∧ plain first = false

variable {plain}

theorem Breaks.append
    {text : List Symbol} (breaks : Breaks plain text) (rest : List Symbol) :
    Breaks plain (text ++ rest) := by
  obtain ⟨first, later, rfl, notPlain⟩ := breaks
  exact ⟨first, later ++ rest, rfl, notPlain⟩

theorem takeWhile_append_of_breaks {value rest : List Symbol}
    (allPlain : value.all plain = true) (breaks : Breaks plain rest) :
    (value ++ rest).takeWhile plain = value := by
  obtain ⟨first, later, rfl, notPlain⟩ := breaks
  rw [List.takeWhile_append_of_pos (List.all_eq_true.mp allPlain),
    List.takeWhile_cons_of_neg (by simp [notPlain]), List.append_nil]

section

variable {ending : List Symbol} {labels : List (List Symbol)}
    (endingBreaks : Breaks plain ending)
    (labelsBreak : ∀ label ∈ labels, Breaks plain label)

include endingBreaks labelsBreak

/-- A rendered text breaks when its labels and its ending do. -/
theorem breaks_render (values : List (List Symbol)) :
    Breaks plain (render ending labels values) := by
  cases labels with
  | nil => exact endingBreaks
  | cons label labels =>
    cases values with
    | nil => exact endingBreaks
    | cons value values =>
      exact (labelsBreak label List.mem_cons_self).append _

/-- A text determines the values behind its labels. -/
theorem render_injective {values others : List (List Symbol)}
    (valuesPlain : ∀ value ∈ values, value.all plain = true)
    (othersPlain : ∀ value ∈ others, value.all plain = true)
    (valuesLength : values.length = labels.length)
    (othersLength : others.length = labels.length)
    (same : render ending labels values = render ending labels others) :
    values = others := by
  induction labels generalizing values others with
  | nil =>
    rw [List.length_eq_zero_iff.mp valuesLength,
      List.length_eq_zero_iff.mp othersLength]
  | cons label labels inductionHypothesis =>
    obtain ⟨value, values, rfl⟩ := List.exists_cons_of_length_eq_add_one
      valuesLength
    obtain ⟨other, others, rfl⟩ := List.exists_cons_of_length_eq_add_one
      othersLength
    rw [List.forall_mem_cons] at labelsBreak valuesPlain othersPlain
    have behindLabel := List.append_cancel_left same
    have firstSame : value = other := by
      rw [← takeWhile_append_of_breaks valuesPlain.1
          (breaks_render endingBreaks labelsBreak.2 values),
        behindLabel,
        takeWhile_append_of_breaks othersPlain.1
          (breaks_render endingBreaks labelsBreak.2 others)]
    rw [firstSame] at behindLabel ⊢
    have laterSame := inductionHypothesis labelsBreak.2 valuesPlain.2
      othersPlain.2 (Nat.succ.inj valuesLength) (Nat.succ.inj othersLength)
      (List.append_cancel_left behindLabel)
    rw [laterSame]

end

end Texts

end Policyd.LabelledText
