import Policyd.CNumbers
import Mathlib.Data.List.DropRight

namespace Policyd

/-!
# Rows of numerals

Numbers printed in decimal and joined by commas, one row on each line.  A row
can be cut back into its numerals, begins and ends with a digit, and its length
is bounded by the number of its columns.
-/

/-- Numbers in decimal, joined by commas. -/
def numeralRow (values : List Nat) : Str :=
  [','].intercalate (values.map decimal)

/-- Lines, each with its line feed. -/
def linesText (lines : List Str) : Str :=
  lines.flatMap fun line => line ++ ['\n']

@[simp] theorem numeralRow_singleton (value : Nat) :
    numeralRow [value] = decimal value := by
  simp [numeralRow, List.intercalate]

theorem numeralRow_cons_cons (value next : Nat) (later : List Nat) :
    numeralRow (value :: next :: later) =
      decimal value ++ ',' :: numeralRow (next :: later) := by
  simp [numeralRow, List.intercalate]

variable {char : Char} {values : List Nat}

theorem isDigit_of_mem_decimal {number : Nat} (member : char ∈ decimal number) :
    char.isDigit = true :=
  List.all_eq_true.mp (decimal_all_digits number) char member

/-- A row consists of digits and commas. -/
theorem mem_numeralRow (member : char ∈ numeralRow values) :
    char.isDigit = true ∨ char = ',' := by
  induction values with
  | nil => cases member
  | cons value later inductionHypothesis =>
    cases later with
    | nil =>
      rw [numeralRow_singleton] at member
      exact .inl (isDigit_of_mem_decimal member)
    | cons next rest =>
      rw [numeralRow_cons_cons, List.mem_append, List.mem_cons] at member
      rcases member with inFirst | isComma | inLater
      · exact .inl (isDigit_of_mem_decimal inFirst)
      · exact .inr isComma
      · exact inductionHypothesis inLater

theorem splitOn_numeralRow (nonempty : values ≠ []) :
    (numeralRow values).splitOn ',' = values.map decimal := by
  refine List.splitOn_intercalate ',' ?_ (by simpa using nonempty)
  intro numeral member isComma
  obtain ⟨value, _, rfl⟩ := List.mem_map.mp member
  exact absurd (isDigit_of_mem_decimal isComma) (by decide)

/-- Every column takes at most its width and a comma. -/
theorem length_numeralRow_le {width : Nat}
    (positive : 0 < width) (fit : ∀ value ∈ values, value < 10 ^ width) :
    (numeralRow values).length ≤ values.length * (width + 1) := by
  induction values with
  | nil => exact Nat.zero_le _
  | cons value later inductionHypothesis =>
    obtain ⟨firstFits, laterFit⟩ := List.forall_mem_cons.mp fit
    have firstLength := length_decimal_le positive firstFits
    have laterLength := inductionHypothesis laterFit
    cases later with
    | nil =>
      rw [numeralRow_singleton, List.length_singleton]
      omega
    | cons next rest =>
      rw [numeralRow_cons_cons, List.length_append, List.length_cons,
        List.length_cons, Nat.succ_mul]
      omega

theorem numeralRow_ne_nil (nonempty : values ≠ []) :
    numeralRow values ≠ [] := by
  cases values with
  | nil => exact (nonempty rfl).elim
  | cons value later =>
    cases later with
    | nil =>
      rw [numeralRow_singleton]
      exact decimal_ne_nil value
    | cons next rest =>
      rw [numeralRow_cons_cons]
      simp

theorem isDigit_of_head?_numeralRow
    (isHead : (numeralRow values).head? = some char) :
    char.isDigit = true := by
  cases values with
  | nil => cases isHead
  | cons value later =>
    cases later with
    | nil =>
      rw [numeralRow_singleton] at isHead
      exact isDigit_of_mem_decimal (List.mem_of_head? isHead)
    | cons next rest =>
      rw [numeralRow_cons_cons,
        List.head?_append_of_ne_nil _ (decimal_ne_nil value)] at isHead
      exact isDigit_of_mem_decimal (List.mem_of_head? isHead)

theorem isDigit_of_getLast?_numeralRow
    (isLast : (numeralRow values).getLast? = some char) :
    char.isDigit = true := by
  induction values with
  | nil => cases isLast
  | cons value later inductionHypothesis =>
    cases later with
    | nil =>
      rw [numeralRow_singleton] at isLast
      exact isDigit_of_mem_decimal (List.mem_of_getLast? isLast)
    | cons next rest =>
      have nonempty : numeralRow (next :: rest) ≠ [] :=
        numeralRow_ne_nil (List.cons_ne_nil next rest)
      rw [numeralRow_cons_cons, List.append_cons,
        List.getLast?_append_of_ne_nil _ nonempty] at isLast
      exact inductionHypothesis isLast

theorem trimRight_numeralRow {blanks : Str}
    (noDigits : ∀ char ∈ blanks, char.isDigit = false) (values : List Nat) :
    Str.trimRight blanks (numeralRow values) = numeralRow values := by
  rw [Str.trimRight, List.rdropWhile_eq_self_iff]
  intro nonempty isBlank
  have isDigit :=
    isDigit_of_getLast?_numeralRow (List.getLast?_eq_some_getLast nonempty)
  rw [noDigits _ (List.contains_iff_mem.mp isBlank)] at isDigit
  cases isDigit

/-- Lines without line feeds are cut apart again, with an empty rest. -/
theorem splitOn_linesText
    {lines : List Str} (plain : ∀ line ∈ lines, '\n' ∉ line) :
    (linesText lines).splitOn '\n' = lines ++ [[]] := by
  have joined : linesText lines = ['\n'].intercalate (lines ++ [[]]) := by
    induction lines with
    | nil => rfl
    | cons line later inductionHypothesis =>
      obtain ⟨next, rest, shape⟩ :=
        List.exists_cons_of_ne_nil
          (List.append_ne_nil_of_right_ne_nil later
            (List.cons_ne_nil ([] : Str) []))
      have laterJoined :=
        inductionHypothesis fun other member =>
          plain other (List.mem_cons_of_mem line member)
      rw [shape] at laterJoined
      rw [linesText, List.flatMap_cons, ← linesText, laterJoined,
        List.cons_append, shape]
      simp [List.intercalate]
  rw [joined]
  refine List.splitOn_intercalate '\n' ?_ (by simp)
  intro line member
  rcases List.mem_append.mp member with isLine | isRest
  · exact plain line isLine
  · rw [List.mem_singleton.mp isRest]
    exact List.not_mem_nil

end Policyd
