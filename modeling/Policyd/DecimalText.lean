import Policyd.ByteText

namespace Policyd

/-!
# Decimal numerals in byte strings

Printing follows `%u` and the zero-padded `%0Nllu` of the C library.  Reading
follows the usual accumulation loop over 64-bit words, which wraps silently
past `2 ^ 64`, and is related to the mathematical value of the numeral.
-/

/-- The decimal numeral of a number, without leading zeros. -/
def decimal (number : Nat) : Str :=
  Nat.toDigits 10 number

/-- The decimal numeral of a number, zero-padded on the left to a width. -/
def paddedDecimal (width number : Nat) : Str :=
  List.replicate (width - (decimal number).length) '0' ++
    decimal number

/-- The mathematical value of a string of decimal digits. -/
def numeralValue (text : Str) : Nat :=
  Nat.ofDigitChars 10 text 0

/-- The 64-bit accumulation loop over decimal digits. -/
def digitLoop : UInt64 → Str → Option UInt64
  | value, [] => some value
  | value, char :: rest =>
    if char < '0' ∨ '9' < char then
      none
    else
      digitLoop
        (value * 10 + UInt64.ofNat (char.toNat - '0'.toNat)) rest

/-- A byte outside `0`..`9` is exactly one that is not a digit. -/
theorem not_digit_iff (char : Char) :
    (char < '0' ∨ '9' < char) ↔ char.isDigit = false := by
  rw [← Bool.not_eq_true, Char.isDigit, Bool.and_eq_true,
    decide_eq_true_iff, decide_eq_true_iff, Char.lt_def, Char.lt_def]
  constructor
  · rintro (below | above) ⟨lower, upper⟩
    · exact absurd lower (UInt32.not_le.mpr below)
    · exact absurd upper (UInt32.not_le.mpr above)
  · intro outside
    by_contra inside
    rw [not_or, UInt32.not_lt, UInt32.not_lt] at inside
    exact outside inside

/-- Reading digits from a starting value only looks at it modulo `2 ^ 64`. -/
private theorem ofDigitChars_modEq
    {first second : Nat} (same : first ≡ second [MOD 2 ^ 64]) (text : Str) :
    UInt64.ofNat (Nat.ofDigitChars 10 text first) =
      UInt64.ofNat (Nat.ofDigitChars 10 text second) := by
  have fromStart (start : Nat) :
      Nat.ofDigitChars 10 text start =
        10 ^ text.length * start + Nat.ofDigitChars 10 text 0 :=
    Nat.ofDigitChars_eq_ofDigitChars_zero
  rw [fromStart first, fromStart second]
  apply UInt64.toNat.inj
  simp only [UInt64.toNat_ofNat']
  exact (same.mul_left _).add_right _

/--
The loop accepts exactly the strings of digits and computes their value from
the starting value, modulo `2 ^ 64`.
-/
theorem digitLoop_eq (value : UInt64) (text : Str) :
    digitLoop value text =
      if text.all Char.isDigit then
        some (UInt64.ofNat (Nat.ofDigitChars 10 text value.toNat))
      else
        none := by
  induction text generalizing value with
  | nil => simp [digitLoop]
  | cons char rest inductionHypothesis =>
    by_cases digit : char.isDigit = true
    · have inRange : ¬ (char < '0' ∨ '9' < char) := by
        rw [not_digit_iff, digit]
        simp
      have stepSame :
          (value * 10 +
              UInt64.ofNat (char.toNat - '0'.toNat)).toNat ≡
            10 * value.toNat + (char.toNat - '0'.toNat)
              [MOD 2 ^ 64] := by
        simp only [Nat.ModEq, UInt64.toNat_add, UInt64.toNat_mul,
          UInt64.toNat_ofNat']
        have ten : (10 : UInt64).toNat = 10 := rfl
        rw [ten]
        omega
      rw [digitLoop, if_neg inRange, inductionHypothesis,
        ofDigitChars_modEq stepSame]
      simp [digit, Nat.ofDigitChars_cons]
    · have outOfRange : char < '0' ∨ '9' < char := by
        rw [not_digit_iff]
        simpa using digit
      rw [digitLoop, if_pos outOfRange]
      simp [digit]

/-- From zero, the loop computes the value of the numeral modulo `2 ^ 64`. -/
theorem digitLoop_zero_eq (text : Str) :
    digitLoop 0 text =
      if text.all Char.isDigit then
        some (UInt64.ofNat (numeralValue text))
      else
        none := by
  simpa [numeralValue] using digitLoop_eq 0 text

theorem digit_lt_ten {char : Char} (digit : char.isDigit = true) :
    char.toNat - '0'.toNat < 10 := by
  simp only [Char.isDigit, Bool.and_eq_true, decide_eq_true_iff] at digit
  have bound : char.toNat ≤ 57 := digit.2
  have zero : '0'.toNat = 48 := rfl
  omega

theorem numeralValue_concat (earlier : Str) (last : Char) :
    numeralValue (earlier ++ [last]) =
      10 * numeralValue earlier + (last.toNat - '0'.toNat) := by
  simp only [numeralValue, Nat.ofDigitChars_append, Nat.ofDigitChars_cons,
    Nat.ofDigitChars_nil]

/-- A numeral of `length` digits has a value below `10 ^ length`. -/
theorem numeralValue_lt {text : Str} (digits : text.all Char.isDigit = true) :
    numeralValue text < 10 ^ text.length := by
  induction text using List.reverseRecOn with
  | nil => simp [numeralValue]
  | append_singleton earlier last inductionHypothesis =>
    simp only [List.all_append, List.all_cons, List.all_nil,
      Bool.and_true, Bool.and_eq_true] at digits
    have earlierBound := inductionHypothesis digits.1
    have lastBound := digit_lt_ten digits.2
    rw [numeralValue_concat, List.length_append, List.length_singleton,
      pow_succ]
    omega

theorem numeralValue_append (first second : Str) :
    numeralValue (first ++ second) =
      numeralValue first * 10 ^ second.length + numeralValue second := by
  induction second using List.reverseRecOn with
  | nil => simp [numeralValue]
  | append_singleton earlier last inductionHypothesis =>
    rw [← List.append_assoc, numeralValue_concat, inductionHypothesis,
      numeralValue_concat, List.length_append, List.length_singleton,
      pow_succ]
    ring

theorem decimal_all_digits (number : Nat) :
    (decimal number).all Char.isDigit = true := by
  rw [List.all_eq_true]
  intro char member
  exact Nat.isDigit_of_mem_toDigits (by decide) (by decide) member

theorem decimal_ne_nil (number : Nat) :
    decimal number ≠ [] :=
  Nat.toDigits_ne_nil

/-- Reading back a printed numeral gives the number. -/
@[simp] theorem numeralValue_decimal (number : Nat) :
    numeralValue (decimal number) = number :=
  Nat.ofDigitChars_ten_toDigits

/-- A number below `10 ^ width` prints in at most `width` digits. -/
theorem length_decimal_le
    {number width : Nat} (positive : 0 < width) (bound : number < 10 ^ width) :
    (decimal number).length ≤ width :=
  (Nat.length_toDigits_le_iff (by decide) positive).mpr bound

theorem paddedDecimal_all_digits (width number : Nat) :
    (paddedDecimal width number).all Char.isDigit = true := by
  simp only [paddedDecimal, List.all_append, Bool.and_eq_true]
  refine ⟨?_, decimal_all_digits number⟩
  rw [List.all_eq_true]
  intro char member
  rw [List.eq_of_mem_replicate member]
  rfl

@[simp] theorem numeralValue_paddedDecimal (width number : Nat) :
    numeralValue (paddedDecimal width number) = number := by
  simp only [numeralValue, paddedDecimal, Nat.ofDigitChars_append,
    Nat.ofDigitChars_replicate_zero, Nat.mul_zero]
  exact numeralValue_decimal number

theorem length_paddedDecimal
    {number width : Nat} (positive : 0 < width) (bound : number < 10 ^ width) :
    (paddedDecimal width number).length = width := by
  have fits := length_decimal_le positive bound
  simp only [paddedDecimal, List.length_append, List.length_replicate]
  omega

end Policyd
