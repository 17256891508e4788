import Policyd.DecimalText

namespace Policyd

/-!
# Number readers of the C library

`strtoll`, `strtoull` and `strtod` as ISO C17 specifies them in the "C" locale
of an LP64 platform.  Integers are read exactly and clamped; floating-point
numbers are read exactly and rounded once to binary64, ties to even.  A finite
binary64 value is the rational number it denotes, and rounding returns `none`
when the magnitude reaches `2 ^ 1024`.
-/

namespace Binary64

/-- An integral power of two. -/
def powerOfTwo (exponent : Int) : Rat :=
  if 0 ≤ exponent then
    ((2 ^ exponent.toNat : Nat) : Rat)
  else
    1 / ((2 ^ (-exponent).toNat : Nat) : Rat)

/-- The exponent of the largest power of two not above a positive number. -/
def floorLog2 (positive : Rat) : Int :=
  let estimate : Int :=
    (positive.num.toNat.log2 : Int) - (positive.den.log2 : Int)
  if powerOfTwo estimate ≤ positive then
    estimate
  else
    estimate - 1

/-- Spacing of the binary64 values around a positive number. -/
def spacing (positive : Rat) : Rat :=
  powerOfTwo (max (floorLog2 positive - 52) (-1074))

/-- The nearest integer, ties to even. -/
def roundHalfEven (number : Rat) : Int :=
  let below := number.floor
  let excess := number - below
  if excess < 1 / 2 then
    below
  else if 1 / 2 < excess then
    below + 1
  else if below % 2 = 0 then
    below
  else
    below + 1

/-- Round a number to binary64; `none` is an overflow to infinity. -/
def round (number : Rat) : Option Rat :=
  if number = 0 then
    some 0
  else
    let step := spacing |number|
    let rounded := (roundHalfEven (number / step) : Rat) * step
    if |rounded| < powerOfTwo 1024 then
      some rounded
    else
      none

end Binary64

/-- `isspace` in the "C" locale. -/
def isSpace (char : Char) : Bool :=
  char == ' ' || char == '\t' || char == '\n' || char == '\x0b' ||
    char == '\x0c' || char == '\r'

/-- The value of a digit in bases up to sixteen. -/
def digitValue (char : Char) : Option Nat :=
  if '0' ≤ char ∧ char ≤ '9' then
    some (char.toNat - '0'.toNat)
  else if 'a' ≤ char ∧ char ≤ 'f' then
    some (char.toNat - 'a'.toNat + 10)
  else if 'A' ≤ char ∧ char ≤ 'F' then
    some (char.toNat - 'A'.toNat + 10)
  else
    none

/-- Whether a byte is a digit of a base. -/
def isDigitOf (base : Nat) (char : Char) : Bool :=
  match digitValue char with
  | some value => value < base
  | none => false

/-- The number a string of digits denotes in a base. -/
def valueIn (base : Nat) (digits : Str) : Nat :=
  digits.foldl
    (fun value char => value * base + (digitValue char).getD 0) 0

/-- Read an optional sign; the first component says whether it is a minus. -/
def readSign : Str → Bool × Str
  | '-' :: rest => (true, rest)
  | '+' :: rest => (false, rest)
  | text => (false, text)

/-- A hexadecimal introducer followed by a hexadecimal digit. -/
def hexDigitsAhead : Str → Bool
  | '0' :: marker :: digit :: _ =>
    (marker == 'x' || marker == 'X') && isDigitOf 16 digit
  | _ => false

/-- The base and the digits of an integer whose base is given or detected. -/
def detectBase (base : Nat) (text : Str) : Nat × Str :=
  if (base = 0 ∨ base = 16) ∧ hexDigitsAhead text then
    (16, text.drop 2)
  else if base = 0 then
    (if text.head? = some '0' then 8 else 10, text)
  else
    (base, text)

/--
Read an integer: its sign, its magnitude and the unread rest.  `none` means
that no conversion was possible.
-/
def readInteger (base : Nat) (text : Str) :
    Option (Bool × Nat × Str) :=
  let (negative, unsigned) := readSign (text.dropWhile isSpace)
  let (radix, numeral) := detectBase base unsigned
  let (digits, rest) := numeral.span (isDigitOf radix)
  if digits = [] then
    none
  else
    some (negative, valueIn radix digits, rest)

/-- `strtoll`, and `strtol` where `long` has 64 bits. -/
def strtoll (base : Nat) (text : Str) : Option (Int × Str) :=
  (readInteger base text).map fun (negative, magnitude, rest) =>
    (if negative then
        max (-(magnitude : Int)) (-(2 ^ 63 : Int))
      else
        min (magnitude : Int) (2 ^ 63 - 1), rest)

/-- `strtoull`: too large magnitudes saturate, a minus sign wraps. -/
def strtoull (base : Nat) (text : Str) : Option (UInt64 × Str) :=
  (readInteger base text).map fun (negative, magnitude, rest) =>
    (if 2 ^ 64 ≤ magnitude then
        UInt64.ofNat (2 ^ 64 - 1)
      else if negative then
        0 - UInt64.ofNat magnitude
      else
        UInt64.ofNat magnitude, rest)

/-- What `strtod` reads. -/
inductive Strtod where
  | noConversion
  | notFinite
  | finite (value : Rat) (rest : Str)
  deriving Repr, DecidableEq

/-- A power of a base with an integral exponent. -/
def integralPower (base : Nat) (exponent : Int) : Rat :=
  if 0 ≤ exponent then
    ((base ^ exponent.toNat : Nat) : Rat)
  else
    1 / ((base ^ (-exponent).toNat : Nat) : Rat)

/-- Read an exponent part; a marker without digits is not one. -/
def readExponent (marker : Char) (text : Str) : Int × Str :=
  match text with
  | [] => (0, text)
  | char :: afterMarker =>
    if char.toLower = marker then
      let (negative, unsigned) := readSign afterMarker
      let (digits, rest) := unsigned.span (isDigitOf 10)
      if digits = [] then
        (0, text)
      else if negative then
        (-(valueIn 10 digits : Int), rest)
      else
        ((valueIn 10 digits : Int), rest)
    else
      (0, text)

/--
Read digits with an optional fraction and exponent: the exact value and the
unread rest.
-/
def readFraction
    (base : Nat) (marker : Char) (exponentBase : Nat) (text : Str) :
    Option (Rat × Str) :=
  let (whole, afterWhole) := text.span (isDigitOf base)
  let (fraction, afterFraction) :=
    match afterWhole with
    | '.' :: rest =>
      let (digits, unread) := rest.span (isDigitOf base)
      if whole = [] ∧ digits = [] then
        ([], afterWhole)
      else
        (digits, unread)
    | _ => ([], afterWhole)
  if whole = [] ∧ fraction = [] then
    none
  else
    let (exponent, rest) := readExponent marker afterFraction
    some
      ((valueIn base (whole ++ fraction) : Rat) *
          integralPower base (-(fraction.length : Int)) *
          integralPower exponentBase exponent,
        rest)

/-- A hexadecimal introducer followed by a digit, maybe after a point. -/
def hexFractionAhead : Str → Bool
  | '0' :: marker :: rest =>
    (marker == 'x' || marker == 'X') &&
      match rest with
      | '.' :: digit :: _ => isDigitOf 16 digit
      | digit :: _ => isDigitOf 16 digit
      | [] => false
  | _ => false

/-- The spellings of infinity and of not-a-number. -/
def notFiniteAhead (text : Str) : Bool :=
  Str.toLower (text.take 3) == "inf".toList ||
    Str.toLower (text.take 3) == "nan".toList

/-- `strtod`: the nearest binary64 value of the longest numeral. -/
def strtod (text : Str) : Strtod :=
  let (negative, unsigned) := readSign (text.dropWhile isSpace)
  if notFiniteAhead unsigned then
    .notFinite
  else
    let numeral :=
      if hexFractionAhead unsigned then
        readFraction 16 'p' 2 (unsigned.drop 2)
      else
        readFraction 10 'e' 10 unsigned
    match numeral with
    | none => .noConversion
    | some (magnitude, rest) =>
      match Binary64.round magnitude with
      | none => .notFinite
      | some value => .finite (if negative then -value else value) rest

example :
    strtod "1.5Gbps".toList = .finite (3 / 2) "Gbps".toList := by
  decide +kernel

theorem digitValue_of_isDigit {char : Char} (digit : char.isDigit = true) :
    digitValue char = some (char.toNat - '0'.toNat) ∧
      char.toNat - '0'.toNat < 10 := by
  simp only [Char.isDigit, Bool.and_eq_true, decide_eq_true_iff] at digit
  have inRange : '0' ≤ char ∧ char ≤ '9' := digit
  refine ⟨by rw [digitValue, if_pos inRange], ?_⟩
  have bound : char.toNat ≤ 57 := digit.2
  have zero : '0'.toNat = 48 := rfl
  omega

theorem isDigitOf_ten {char : Char} (digit : char.isDigit = true) :
    isDigitOf 10 char = true := by
  obtain ⟨value, bound⟩ := digitValue_of_isDigit digit
  rw [isDigitOf, value]
  simpa using bound

variable {text : Str}

/-- Base ten gives a string of decimal digits its usual value. -/
theorem valueIn_ten (digits : text.all Char.isDigit = true) :
    valueIn 10 text = numeralValue text := by
  induction text using List.reverseRecOn with
  | nil => rfl
  | append_singleton earlier last inductionHypothesis =>
    simp only [List.all_append, List.all_cons, List.all_nil,
      Bool.and_true, Bool.and_eq_true] at digits
    have earlierValue := inductionHypothesis digits.1
    simp only [valueIn] at earlierValue
    simp only [valueIn, numeralValue, List.foldl_append,
      List.foldl_cons, List.foldl_nil, Nat.ofDigitChars_append,
      Nat.ofDigitChars_cons, Nat.ofDigitChars_nil, earlierValue,
      (digitValue_of_isDigit digits.2).1, Option.getD_some]
    rw [Nat.mul_comm]

theorem cString_digits (digits : text.all Char.isDigit = true) :
    Str.cString text = text := by
  rw [Str.cString, List.takeWhile_eq_self_iff]
  intro char member
  have digit := List.all_eq_true.mp digits char member
  simp only [bne_iff_ne, ne_eq]
  rintro rfl
  exact absurd digit (by decide)

/-- Decimal digits read in base ten are read to their end. -/
theorem readInteger_digits {base : Nat}
    (nonempty : text ≠ []) (digits : text.all Char.isDigit = true)
    (based : detectBase base text = (10, text)) :
    readInteger base text = some (false, numeralValue text, []) := by
  cases text with
  | nil => exact (nonempty rfl).elim
  | cons first later =>
    have firstDigit : first.isDigit = true := by
      rw [List.all_cons, Bool.and_eq_true] at digits
      exact digits.1
    have bounds : 48 ≤ first.toNat ∧ first.toNat ≤ 57 := by
      simp only [Char.isDigit, Bool.and_eq_true, decide_eq_true_iff]
        at firstDigit
      exact firstDigit
    have notSpace : isSpace first = false := by
      unfold isSpace
      simp only [Bool.or_eq_false_iff, beq_eq_false_iff_ne, ne_eq]
      refine ⟨⟨⟨⟨⟨?_, ?_⟩, ?_⟩, ?_⟩, ?_⟩, ?_⟩ <;>
        rintro rfl <;> exact absurd bounds (by decide)
    have unsigned : readSign (first :: later) = (false, first :: later) := by
      unfold readSign
      split
      case h_1 rest shape =>
        cases shape
        exact absurd bounds (by decide)
      case h_2 rest shape =>
        cases shape
        exact absurd bounds (by decide)
      case h_3 =>
        rfl
    have spanned :
        (first :: later).span (isDigitOf 10) = (first :: later, []) := by
      rw [List.span_eq_takeWhile_dropWhile]
      have all : ∀ char ∈ first :: later, isDigitOf 10 char = true := by
        intro char member
        exact isDigitOf_ten (List.all_eq_true.mp digits char member)
      rw [List.takeWhile_eq_self_iff.mpr all, List.dropWhile_eq_nil_iff.mpr all]
    rw [readInteger, List.dropWhile_cons_of_neg (by simp [notSpace]), unsigned]
    dsimp only
    rw [based]
    dsimp only
    rw [spanned]
    dsimp only
    rw [if_neg nonempty, valueIn_ten digits]

theorem detectBase_ten (text : Str) :
    detectBase 10 text = (10, text) := by
  simp [detectBase]

theorem detectBase_zero (noZero : text.head? ≠ some '0') :
    detectBase 0 text = (10, text) := by
  have noHex : hexDigitsAhead text = false := by
    unfold hexDigitsAhead
    split
    · exact (noZero rfl).elim
    · rfl
  simp [detectBase, noHex, noZero]

theorem strtoull_digits
    (nonempty : text ≠ []) (digits : text.all Char.isDigit = true) :
    strtoull 10 text =
      some
        (if 2 ^ 64 ≤ numeralValue text then
          UInt64.ofNat (2 ^ 64 - 1)
        else
          UInt64.ofNat (numeralValue text), []) := by
  rw [strtoull, readInteger_digits nonempty digits (detectBase_ten text)]
  simp

theorem strtoll_digits {base : Nat}
    (nonempty : text ≠ []) (digits : text.all Char.isDigit = true)
    (based : detectBase base text = (10, text)) :
    strtoll base text =
      some (min (numeralValue text : Int) (2 ^ 63 - 1), []) := by
  rw [strtoll, readInteger_digits nonempty digits based]
  simp

/-- A decimal numeral without a leading zero. -/
structure PlainNumeral (text : Str) : Prop where
  nonempty : text ≠ []
  digits : text.all Char.isDigit = true
  noLeadingZero : text.head? = some '0' → text = ['0']

theorem strtoll_plainNumeral (plain : PlainNumeral text) :
    strtoll 0 text = some (min (numeralValue text : Int) (2 ^ 63 - 1), []) := by
  by_cases leadingZero : text.head? = some '0'
  · rw [plain.noLeadingZero leadingZero]
    decide +kernel
  · exact strtoll_digits plain.nonempty plain.digits
      (detectBase_zero leadingZero)

theorem strtoull_decimal {number : Nat} (fits : number < 2 ^ 64) :
    strtoull 10 (Str.cString (decimal number)) =
      some (UInt64.ofNat number, []) := by
  rw [cString_digits (decimal_all_digits number),
    strtoull_digits (decimal_ne_nil number) (decimal_all_digits number),
    numeralValue_decimal, if_neg (Nat.not_le.mpr fits)]

end Policyd
