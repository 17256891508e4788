import Policyd.DecimalText

namespace Policyd

/-!
# Subscriber, device and network identities

IMSIs and IMEIs are at most fifteen decimal digits packed into one 64-bit
word.  A PLMN packs its country and network codes as `MCC * 1000 + MNC`; its
text form is `310-260`, `310/260`, `310 260`, or five or six bare digits.
-/

/-- Digits in a printed IMSI. -/
def kImsiDigits : Nat := 15

/-- Digits in a printed IMEI. -/
def kImeiDigits : Nat := 15

/-- Read one to `maxDigits` decimal digits. -/
def parseDigits (text : Str) (maxDigits : Nat) : Option UInt64 :=
  if text = [] ∨ text.length > maxDigits then
    none
  else
    digitLoop 0 text

/-- Read an IMSI. -/
def parseImsi (text : Str) : Option UInt64 :=
  parseDigits text kImsiDigits

/-- Read an IMEI; the empty text means "not reported". -/
def parseImei (text : Str) : Option UInt64 :=
  if text = [] then
    some 0
  else
    parseDigits text kImeiDigits

/-- Pack a country and a network code. -/
def makePlmn (mcc mnc : UInt32) : UInt32 :=
  mcc * 1000 + mnc

/-- Pack the two halves of a PLMN text. -/
def packPlmn (mccText mncText : Str) : Option UInt32 :=
  match parseDigits mccText 3, parseDigits mncText 3 with
  | some mcc, some mnc => some (makePlmn mcc.toUInt32 mnc.toUInt32)
  | _, _ => none

/-- Read a PLMN, with or without a separator between its two codes. -/
def parsePlmn (text : Str) : Option UInt32 :=
  match Str.findFirstOf "-/ ".toList text with
  | none =>
    if text.length ≠ 5 ∧ text.length ≠ 6 then
      none
    else
      packPlmn (text.take 3) (text.drop 3)
  | some separator =>
    let mccText := text.take separator
    let mncText := text.drop (separator + 1)
    if mccText.length ≠ 3 ∨ mncText.length < 2 ∨ mncText.length > 3 then
      none
    else
      packPlmn mccText mncText

variable {text mccText mncText : Str} {plmn : UInt32}

/-- Accepted digits are the value of the numeral, modulo the word size. -/
theorem parseDigits_eq_some_iff {maxDigits : Nat} {value : UInt64} :
    parseDigits text maxDigits = some value ↔
      text ≠ [] ∧ text.length ≤ maxDigits ∧
        text.all Char.isDigit = true ∧
        value = UInt64.ofNat (numeralValue text) := by
  unfold parseDigits
  rw [digitLoop_zero_eq]
  by_cases rejected : text = [] ∨ text.length > maxDigits
  · rw [if_pos rejected]
    constructor
    · intro impossible
      cases impossible
    · rintro ⟨nonempty, short, _⟩
      rcases rejected with isEmpty | tooLong
      · exact (nonempty isEmpty).elim
      · omega
  · rw [if_neg rejected]
    rw [not_or, Nat.not_lt] at rejected
    by_cases digits : text.all Char.isDigit = true
    · simp [digits, rejected, eq_comm]
    · simp [digits]

theorem parseDigits_toNat {maxDigits : Nat} {value : UInt64}
    (small : maxDigits ≤ 15)
    (parsed : parseDigits text maxDigits = some value) :
    value.toNat = numeralValue text := by
  obtain ⟨_, short, digits, shape⟩ := parseDigits_eq_some_iff.mp parsed
  have bound := numeralValue_lt digits
  have fits : numeralValue text < 10 ^ 15 :=
    lt_of_lt_of_le bound
      (Nat.pow_le_pow_right (by decide) (le_trans short small))
  rw [shape, UInt64.toNat_ofNat', Nat.mod_eq_of_lt]
  omega

theorem parseDigits_paddedDecimal
    {width number : Nat} (positive : 0 < width) (bound : number < 10 ^ width) :
    parseDigits (paddedDecimal width number) width =
      some (UInt64.ofNat number) := by
  have lengthShape := length_paddedDecimal positive bound
  rw [parseDigits_eq_some_iff]
  refine ⟨?_, lengthShape.le, paddedDecimal_all_digits width number, by simp⟩
  intro isEmpty
  rw [isEmpty] at lengthShape
  simp at lengthShape
  omega

theorem parseDigits_decimal
    {width number : Nat} (positive : 0 < width) (bound : number < 10 ^ width) :
    parseDigits (decimal number) width = some (UInt64.ofNat number) := by
  rw [parseDigits_eq_some_iff]
  exact ⟨decimal_ne_nil number, length_decimal_le positive bound,
    decimal_all_digits number, by simp⟩

/-- Two accepted codes of three digits are packed below `1000000`. -/
theorem packPlmn_toNat (packed : packPlmn mccText mncText = some plmn) :
    plmn.toNat = numeralValue mccText * 1000 + numeralValue mncText ∧
      plmn.toNat < 1000000 := by
  unfold packPlmn at packed
  split at packed
  case h_1 mcc mnc mccRead mncRead =>
    cases packed
    have mccShape := parseDigits_toNat (by decide) mccRead
    have mncShape := parseDigits_toNat (by decide) mncRead
    have mccBound : mcc.toNat < 1000 := by
      obtain ⟨_, short, digits, _⟩ := parseDigits_eq_some_iff.mp mccRead
      rw [mccShape]
      exact lt_of_lt_of_le (numeralValue_lt digits)
        (Nat.pow_le_pow_right (by decide) short)
    have mncBound : mnc.toNat < 1000 := by
      obtain ⟨_, short, digits, _⟩ := parseDigits_eq_some_iff.mp mncRead
      rw [mncShape]
      exact lt_of_lt_of_le (numeralValue_lt digits)
        (Nat.pow_le_pow_right (by decide) short)
    rw [← mccShape, ← mncShape]
    simp only [makePlmn, UInt32.toNat_add, UInt32.toNat_mul,
      UInt64.toNat_toUInt32, UInt32.reduceToNat]
    rw [Nat.mod_eq_of_lt (by omega : mcc.toNat < 2 ^ 32),
      Nat.mod_eq_of_lt (by omega : mnc.toNat < 2 ^ 32),
      Nat.mod_eq_of_lt (by omega : mcc.toNat * 1000 < 2 ^ 32),
      Nat.mod_eq_of_lt (by omega)]
    omega
  case h_2 =>
    cases packed

/-- An accepted PLMN is packed below `1000000`. -/
theorem parsePlmn_lt (parsed : parsePlmn text = some plmn) :
    plmn.toNat < 1000000 := by
  unfold parsePlmn at parsed
  split at parsed
  · split_ifs at parsed
    exact (packPlmn_toNat parsed).2
  · dsimp only at parsed
    split_ifs at parsed
    exact (packPlmn_toNat parsed).2

/-- Two halves of at most three digits are packed. -/
theorem packPlmn_digits (mccDigits : mccText.all Char.isDigit = true)
    (mncDigits : mncText.all Char.isDigit = true)
    (mccLength : 0 < mccText.length ∧ mccText.length ≤ 3)
    (mncLength : 0 < mncText.length ∧ mncText.length ≤ 3) :
    packPlmn mccText mncText =
      some (UInt32.ofNat
        (numeralValue mccText * 1000 + numeralValue mncText)) := by
  have read {text : Str}
      (digits : text.all Char.isDigit = true)
      (length : 0 < text.length ∧ text.length ≤ 3) :
      parseDigits text 3 = some (UInt64.ofNat (numeralValue text)) :=
    parseDigits_eq_some_iff.mpr
      ⟨List.length_pos_iff.mp length.1, length.2, digits, rfl⟩
  cases packed : packPlmn mccText mncText with
  | none =>
    rw [packPlmn, read mccDigits mccLength, read mncDigits mncLength] at packed
    cases packed
  | some plmn =>
    rw [← (packPlmn_toNat packed).1, UInt32.ofNat_toNat]

theorem findFirstOf_digits (digits : text.all Char.isDigit = true) :
    Str.findFirstOf "-/ ".toList text = none := by
  rw [Str.findFirstOf, List.findIdx?_eq_none_iff]
  intro char member
  have digit := List.all_eq_true.mp digits char member
  by_contra separator
  simp only [Bool.not_eq_false] at separator
  have cases : char = '-' ∨ char = '/' ∨ char = ' ' := by
    simpa using separator
  rcases cases with rfl | rfl | rfl <;> exact absurd digit (by decide)

/-- Six bare digits are read as the number they print. -/
theorem parsePlmn_decimal
    (sixDigits : 100000 ≤ plmn.toNat) (bound : plmn.toNat < 1000000) :
    parsePlmn (decimal plmn.toNat) = some plmn := by
  have digits := decimal_all_digits plmn.toNat
  have lengthShape : (decimal plmn.toNat).length = 6 := by
    have atMost := length_decimal_le (by decide : 0 < 6) bound
    have atLeast : ¬ (decimal plmn.toNat).length ≤ 5 := by
      rw [decimal, Nat.length_toDigits_le_iff (by decide) (by decide)]
      omega
    omega
  have noSeparator := findFirstOf_digits digits
  have halves :
      decimal plmn.toNat =
        (decimal plmn.toNat).take 3 ++ (decimal plmn.toNat).drop 3 :=
    (List.take_append_drop 3 _).symm
  generalize takeShape : (decimal plmn.toNat).take 3 = mccText at halves
  generalize dropShape : (decimal plmn.toNat).drop 3 = mncText at halves
  have mccLength : mccText.length = 3 := by
    rw [← takeShape, List.length_take, lengthShape]
    rfl
  have mncLength : mncText.length = 3 := by
    rw [← dropShape, List.length_drop, lengthShape]
  have bothDigits :
      mccText.all Char.isDigit = true ∧ mncText.all Char.isDigit = true := by
    rw [halves, List.all_append, Bool.and_eq_true] at digits
    exact digits
  have value :
      numeralValue mccText * 1000 + numeralValue mncText = plmn.toNat := by
    have whole := numeralValue_decimal plmn.toNat
    rw [halves, numeralValue_append, mncLength] at whole
    exact whole
  rw [parsePlmn, noSeparator]
  dsimp only
  rw [if_neg (by omega), takeShape, dropShape,
    packPlmn_digits bothDigits.1 bothDigits.2 (by omega) (by omega), value,
    UInt32.ofNat_toNat]

/-!
## Printed IMSIs

`format_imsi` fills a text of fixed width from its last digit on, so what a
parse folded from the left is taken apart from the right.
-/

/-- The digit character of a number below ten. -/
def digitChar (digit : UInt64) : Char :=
  Char.ofNat ('0'.toNat + digit.toNat)

/-- The loop of `format_imsi`: fill the text from its last digit on. -/
def formatLoop : Nat → UInt64 → Str → Str
  | 0, _, out => out
  | i + 1, imsi, out => formatLoop i (imsi / 10) (digitChar (imsi % 10) :: out)

/-- Print an IMSI in a fixed number of digits. -/
def formatImsi (imsi : UInt64) (digits : Nat := kImsiDigits) : Str :=
  formatLoop digits imsi []

theorem digitChar_of_isDigit {char : Char} (digit : char.isDigit = true) :
    digitChar (UInt64.ofNat (char.toNat - '0'.toNat)) = char := by
  have small : char.toNat - '0'.toNat < 2 ^ 64 :=
    (digit_lt_ten digit).trans (by decide)
  have atLeast : '0'.toNat ≤ char.toNat := by
    simp only [Char.isDigit, Bool.and_eq_true, decide_eq_true_iff] at digit
    exact digit.1
  rw [digitChar, UInt64.toNat_ofNat', Nat.mod_eq_of_lt small,
    Nat.add_sub_cancel' atLeast, Char.ofNat_toNat]

/--
The loop prints the digits it is asked for.  Digits are read from the left and
printed from the right, so the induction takes the last digit off.
-/
theorem formatLoop_numeralValue
    (digits : text.all Char.isDigit = true) (fits : numeralValue text < 2 ^ 64)
    (out : Str) :
    formatLoop text.length (UInt64.ofNat (numeralValue text)) out =
      text ++ out := by
  induction text using List.reverseRecOn generalizing out with
  | nil => rfl
  | append_singleton earlier last inductionHypothesis =>
    simp only [List.all_append, List.all_cons, List.all_nil,
      Bool.and_true, Bool.and_eq_true] at digits
    have lastBound := digit_lt_ten digits.2
    rw [numeralValue_concat] at fits ⊢
    have quotient :
        UInt64.ofNat
            (10 * numeralValue earlier + (last.toNat - '0'.toNat)) / 10 =
          UInt64.ofNat (numeralValue earlier) := by
      apply UInt64.toNat.inj
      rw [UInt64.toNat_div, UInt64.toNat_ofNat', UInt64.toNat_ofNat',
        Nat.mod_eq_of_lt fits, Nat.mod_eq_of_lt (by omega)]
      exact Nat.mul_add_div (by decide) _ _ |>.trans
        (by rw [Nat.div_eq_of_lt lastBound, Nat.add_zero])
    have remainder :
        UInt64.ofNat
            (10 * numeralValue earlier + (last.toNat - '0'.toNat)) % 10 =
          UInt64.ofNat (last.toNat - '0'.toNat) := by
      apply UInt64.toNat.inj
      have small : last.toNat - '0'.toNat < 2 ^ 64 :=
        lastBound.trans (by decide)
      rw [UInt64.toNat_mod, UInt64.toNat_ofNat', UInt64.toNat_ofNat',
        Nat.mod_eq_of_lt fits, Nat.mod_eq_of_lt small]
      exact (Nat.mul_add_mod _ _ _).trans (Nat.mod_eq_of_lt lastBound)
    rw [List.length_append, List.length_singleton, formatLoop, quotient,
      remainder, digitChar_of_isDigit digits.2,
      inductionHypothesis digits.1 (by omega), List.append_assoc,
      List.singleton_append]

theorem formatImsi_numeralValue (whole : text.length = kImsiDigits)
    (digits : text.all Char.isDigit = true) :
    formatImsi (UInt64.ofNat (numeralValue text)) = text := by
  have bound := numeralValue_lt digits
  rw [whole] at bound
  have fits : numeralValue text < 2 ^ 64 := bound.trans (by decide)
  rw [formatImsi, ← whole, formatLoop_numeralValue digits fits, List.append_nil]

theorem formatImsi_eq_paddedDecimal
    {key : UInt64} (bound : key.toNat < 10 ^ kImsiDigits) :
    formatImsi key = paddedDecimal kImsiDigits key.toNat := by
  have printed :=
    formatImsi_numeralValue (length_paddedDecimal (by decide) bound)
      (paddedDecimal_all_digits kImsiDigits key.toNat)
  rwa [numeralValue_paddedDecimal, UInt64.ofNat_toNat] at printed

/--
IMSI texts and store keys correspond.  A text is read exactly when it has one
to fifteen bytes that are all digits, and its key is the decimal value, below
`10 ^ 15`.  Fifteen digits are printed back with their leading zeros, every key
below `10 ^ 15` is read back, and so two texts of fifteen digits with one key
are one text.
-/
theorem imsi_text_and_key_inverse :
    (∀ text : Str,
      (parseImsi text).isSome = true ↔
        1 ≤ text.length ∧ text.length ≤ 15 ∧
          text.all Char.isDigit = true) ∧
      (∀ (text : Str) (key : UInt64),
        parseImsi text = some key →
          key.toNat < 10 ^ 15 ∧ key.toNat = numeralValue text) ∧
      (∀ text : Str,
        text.length = 15 → text.all Char.isDigit = true →
          (parseImsi text).map formatImsi = some text) ∧
      (∀ key : UInt64,
        key.toNat < 10 ^ 15 → parseImsi (formatImsi key) = some key) ∧
      ∀ first second : Str,
        first.length = 15 → first.all Char.isDigit = true →
        second.length = 15 → second.all Char.isDigit = true →
          first ≠ second → parseImsi first ≠ parseImsi second := by
  have printed : ∀ text : Str,
      text.length = 15 → text.all Char.isDigit = true →
        (parseImsi text).map formatImsi = some text := by
    intro text whole digits
    have nonempty : text ≠ [] := by
      rintro rfl
      cases whole
    have parsed :
        parseImsi text = some (UInt64.ofNat (numeralValue text)) :=
      parseDigits_eq_some_iff.mpr ⟨nonempty, whole.le, digits, rfl⟩
    rw [parsed, Option.map_some, formatImsi_numeralValue whole digits]
  refine ⟨?_, ?_, printed, ?_, ?_⟩
  · intro text
    rw [Option.isSome_iff_exists, Nat.one_le_iff_ne_zero, ne_eq,
      List.length_eq_zero_iff]
    constructor
    · rintro ⟨key, parsed⟩
      obtain ⟨nonempty, short, digits, _⟩ := parseDigits_eq_some_iff.mp parsed
      exact ⟨nonempty, short, digits⟩
    · rintro ⟨nonempty, short, digits⟩
      exact ⟨_, parseDigits_eq_some_iff.mpr ⟨nonempty, short, digits, rfl⟩⟩
  · intro text key parsed
    have value := parseDigits_toNat le_rfl parsed
    obtain ⟨_, short, digits, _⟩ := parseDigits_eq_some_iff.mp parsed
    have bound : numeralValue text < 10 ^ 15 :=
      (numeralValue_lt digits).trans_le
        (Nat.pow_le_pow_right (by decide) short)
    exact ⟨value ▸ bound, value⟩
  · intro key bound
    rw [formatImsi_eq_paddedDecimal bound]
    exact (parseDigits_paddedDecimal (by decide) bound).trans
      (congrArg some UInt64.ofNat_toNat)
  · intro first second firstWhole firstDigits secondWhole secondDigits
      distinct shared
    have same := printed first firstWhole firstDigits
    rw [shared, printed second secondWhole secondDigits] at same
    exact distinct (Option.some.inj same).symm

/-- An IMSI of a country code with a leading zero keeps its zero. -/
theorem imsi_text_and_key_inverse_leading_zero :
    (parseImsi "020801234567890".toList).map formatImsi =
        some "020801234567890".toList ∧
      parseImsi (formatImsi 20801234567890) = some 20801234567890 :=
  ⟨imsi_text_and_key_inverse.2.2.1 _ (by decide) (by decide),
    imsi_text_and_key_inverse.2.2.2.1 _ (by decide)⟩

/-- The country code of a packed PLMN. -/
def plmnMcc (plmn : UInt32) : UInt32 :=
  plmn / 1000

/-- The network code of a packed PLMN. -/
def plmnMnc (plmn : UInt32) : UInt32 :=
  plmn % 1000

/-- Print a PLMN; the codes are not padded. -/
def formatPlmn (plmn : UInt32) : Str :=
  decimal (plmnMcc plmn).toNat ++ "-".toList ++ decimal (plmnMnc plmn).toNat

/-- Two strings of digits around a dash are read by their lengths. -/
theorem parsePlmn_separated (mccDigits : mccText.all Char.isDigit = true)
    (mncDigits : mncText.all Char.isDigit = true) :
    parsePlmn (mccText ++ '-' :: mncText) =
      if mccText.length ≠ 3 ∨ mncText.length < 2 ∨ mncText.length > 3 then
        none
      else
        some (UInt32.ofNat
          (numeralValue mccText * 1000 + numeralValue mncText)) := by
  have separator :
      Str.findFirstOf "-/ ".toList (mccText ++ '-' :: mncText) =
        some mccText.length := by
    have noSeparator := findFirstOf_digits mccDigits
    rw [Str.findFirstOf] at noSeparator ⊢
    rw [List.findIdx?_append, noSeparator]
    simp [List.findIdx?_cons]
  have behind :
      (mccText ++ '-' :: mncText).drop (mccText.length + 1) = mncText := by
    rw [List.drop_length_add_append]
    rfl
  rw [parsePlmn, separator]
  simp only [List.take_left', behind]
  by_cases refused :
      mccText.length ≠ 3 ∨ mncText.length < 2 ∨ mncText.length > 3
  · rw [if_pos refused, if_pos refused]
  · rw [if_neg refused, if_neg refused,
      packPlmn_digits mccDigits mncDigits (by omega) (by omega)]

/--
A printed PLMN is read back when its country code has three digits and its
network code at least two; otherwise it is refused.
-/
theorem parsePlmn_formatPlmn (bound : plmn.toNat < 1000000) :
    parsePlmn (formatPlmn plmn) =
      if 100 ≤ plmnMcc plmn ∧ 10 ≤ plmnMnc plmn then
        some plmn
      else
        none := by
  have mccShape : (plmnMcc plmn).toNat = plmn.toNat / 1000 := rfl
  have mncShape : (plmnMnc plmn).toNat = plmn.toNat % 1000 := rfl
  have refused :
      ((decimal (plmnMcc plmn).toNat).length ≠ 3 ∨
          (decimal (plmnMnc plmn).toNat).length < 2 ∨
          (decimal (plmnMnc plmn).toNat).length > 3) ↔
        ¬ (100 ≤ plmnMcc plmn ∧ 10 ≤ plmnMnc plmn) := by
    have mccAtMost := length_decimal_le (by decide : 0 < 3)
      (by omega : (plmnMcc plmn).toNat < 10 ^ 3)
    have mncAtMost := length_decimal_le (by decide : 0 < 3)
      (by omega : (plmnMnc plmn).toNat < 10 ^ 3)
    have mccShort :
        (decimal (plmnMcc plmn).toNat).length ≤ 2 ↔
          (plmnMcc plmn).toNat < 10 ^ 2 :=
      Nat.length_toDigits_le_iff (by decide) (by decide)
    have mncShort :
        (decimal (plmnMnc plmn).toNat).length ≤ 1 ↔
          (plmnMnc plmn).toNat < 10 ^ 1 :=
      Nat.length_toDigits_le_iff (by decide) (by decide)
    simp only [UInt32.le_iff_toNat_le, UInt32.reduceToNat]
    omega
  have packed :
      (plmnMcc plmn).toNat * 1000 + (plmnMnc plmn).toNat = plmn.toNat := by
    omega
  have printed :
      formatPlmn plmn =
        decimal (plmnMcc plmn).toNat ++
          '-' :: decimal (plmnMnc plmn).toNat :=
    List.append_assoc ..
  rw [printed, parsePlmn_separated (decimal_all_digits _)
    (decimal_all_digits _), numeralValue_decimal, numeralValue_decimal,
    packed, UInt32.ofNat_toNat]
  simp only [refused, ite_not]

/--
The network a text names is read back from its printed form exactly when its
country code starts with a nonzero digit and its network code is at least ten.
-/
theorem printed_plmn_reads_back_iff
    {text : Str}
    {plmn : UInt32}
    (parsed : parsePlmn text = some plmn) :
    parsePlmn (formatPlmn plmn) = some plmn ↔
      100 ≤ plmnMcc plmn ∧ 10 ≤ plmnMnc plmn := by
  rw [parsePlmn_formatPlmn (parsePlmn_lt parsed)]
  by_cases readable : 100 ≤ plmnMcc plmn ∧ 10 ≤ plmnMnc plmn
  · simp [readable]
  · simp [readable]

/-- A network with three digits in both codes. -/
theorem printed_plmn_reads_back :
    parsePlmn "310260".toList = some 310260 ∧
      parsePlmn (formatPlmn 310260) = some 310260 := by
  have parsed : parsePlmn "310260".toList = some 310260 := by
    decide +kernel
  exact ⟨parsed,
    (printed_plmn_reads_back_iff parsed).mpr (by decide)⟩

/-- The zero of a network code is not printed, and one digit is refused. -/
theorem printed_plmn_refused :
    parsePlmn "204-08".toList = some 204008 ∧
      formatPlmn 204008 = "204-8".toList ∧
      parsePlmn (formatPlmn 204008) = none := by
  decide +kernel

end Policyd
