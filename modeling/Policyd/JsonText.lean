import Policyd.CNumbers

namespace Policyd.Json

/-!
# JSON strings and objects of one member

A scanner reads one byte at a time: characters in well-formed UTF-8, of which
quotes, backslashes and control characters have to be escaped.  A text is
string content when the scanner is between two characters at its end.  Written
around a text without escaping it, an object with a single string member is
valid exactly when the text is string content.
-/

/-- A byte that continues a character. -/
def isContinuation (char : Char) : Bool :=
  0x80 ≤ char.toNat && char.toNat < 0xC0

/-- The ranges of the bytes that a leading byte announces. -/
def leadRanges (code : Nat) : Option (List (Nat × Nat)) :=
  if 0xC2 ≤ code && code ≤ 0xDF then
    some [(0x80, 0xBF)]
  else if code = 0xE0 then
    some [(0xA0, 0xBF), (0x80, 0xBF)]
  else if code = 0xED then
    some [(0x80, 0x9F), (0x80, 0xBF)]
  else if 0xE1 ≤ code && code ≤ 0xEF then
    some [(0x80, 0xBF), (0x80, 0xBF)]
  else if code = 0xF0 then
    some [(0x90, 0xBF), (0x80, 0xBF), (0x80, 0xBF)]
  else if 0xF1 ≤ code && code ≤ 0xF3 then
    some [(0x80, 0xBF), (0x80, 0xBF), (0x80, 0xBF)]
  else if code = 0xF4 then
    some [(0x80, 0x8F), (0x80, 0xBF), (0x80, 0xBF)]
  else
    none

/-- Read one byte; the state lists the continuation bytes still expected. -/
def utf8Step : List (Nat × Nat) → Char → Option (List (Nat × Nat))
  | [], char =>
    if char.toNat < 0x80 then some [] else leadRanges char.toNat
  | (low, high) :: later, char =>
    if isContinuation char && low ≤ char.toNat && char.toNat ≤ high then
      some later
    else
      none

/-- A text is well-formed UTF-8. -/
def Utf8 (text : Str) : Prop :=
  text.foldlM utf8Step [] = some []

instance (text : Str) : Decidable (Utf8 text) :=
  inferInstanceAs (Decidable (_ = _))

/-- Where the scanner of string content stands. -/
inductive Scan where
  | content (expected : List (Nat × Nat))
  | escape
  | hex (later : Nat)
  deriving DecidableEq, Repr

/-- Read one byte of string content. -/
def Scan.step : Scan → Char → Option Scan
  | content [], char =>
    if char = '\\' then
      some escape
    else if char = '"' || char.toNat < 0x20 then
      none
    else
      (utf8Step [] char).map content
  | content expected, char => (utf8Step expected char).map content
  | escape, char =>
    if "\"\\/bfnrt".toList.contains char then
      some (content [])
    else if char = 'u' then
      some (hex 3)
    else
      none
  | hex 0, char => if isDigitOf 16 char then some (content []) else none
  | hex (later + 1), char =>
    if isDigitOf 16 char then some (hex later) else none

/-- Read a text. -/
def scan (state : Scan) (text : Str) : Option Scan :=
  text.foldlM Scan.step state

/-- A text may stand between the quotes of a string. -/
def StringContent (text : Str) : Prop :=
  scan (.content []) text = some (.content [])

instance (text : Str) : Decidable (StringContent text) :=
  inferInstanceAs (Decidable (_ = _))

/-- A character that stands for itself and is one byte. -/
def isPlain (char : Char) : Bool :=
  0x20 ≤ char.toNat && char.toNat < 0x80 && char != '"' && char != '\\'

theorem scan_append (state : Scan) (first rest : Str) :
    scan state (first ++ rest) =
      (scan state first).bind fun middle => scan middle rest :=
  List.foldlM_append

theorem step_plain {char : Char} (plain : isPlain char = true) :
    Scan.step (.content []) char = some (.content []) := by
  simp only [isPlain, Bool.and_eq_true, decide_eq_true_eq, bne_iff_ne] at plain
  obtain ⟨⟨⟨printable, ascii⟩, notQuote⟩, notBackslash⟩ := plain
  have notControl : ¬ char.toNat < 0x20 := by omega
  simp [Scan.step, notBackslash, notQuote, notControl, utf8Step, ascii]

theorem stringContent_append_iff
    {first : Str} (plain : first.all isPlain = true) (rest : Str) :
    StringContent (first ++ rest) ↔ StringContent rest := by
  induction first with
  | nil => rfl
  | cons char later inductionHypothesis =>
    rw [List.all_cons, Bool.and_eq_true] at plain
    rw [← inductionHypothesis plain.2]
    simp only [StringContent, scan, List.cons_append, List.foldlM_cons,
      step_plain plain.1]
    rfl

/-- An apostrophe never completes an escape or a character. -/
theorem step_apostrophe_iff {state : Scan} :
    state.step '\'' = some (.content []) ↔ state = .content [] := by
  constructor
  · intro stepped
    cases state with
    | content expected =>
      cases expected with
      | nil => rfl
      | cons range later => simp [Scan.step, utf8Step, isContinuation] at stepped
    | escape => simp [Scan.step] at stepped
    | hex later =>
      have notDigit : isDigitOf 16 '\'' = false := by decide
      cases later <;> simp [Scan.step, notDigit] at stepped
  · rintro rfl
    decide

theorem stringContent_apostrophe_iff (text : Str) :
    StringContent (text ++ ['\'']) ↔ StringContent text := by
  unfold StringContent
  rw [scan_append]
  cases scan (.content []) text with
  | none => simp
  | some state =>
    have single : scan state ['\''] = state.step '\'' := by
      simp [scan]
    rw [Option.bind_some, single, step_apostrophe_iff, Option.some.injEq]

/-- White space between tokens. -/
def isBlank (char : Char) : Bool :=
  char == ' ' || char == '\t' || char == '\n' || char == '\r'

/-- The text of an object whose only member is a string with a plain name. -/
def IsObjectOf (name body : Str) : Prop :=
  ∃ before afterBrace afterName beforeValue value afterValue behind : Str,
    (∀ blanks ∈
        [before, afterBrace, afterName, beforeValue, afterValue, behind],
      blanks.all isBlank = true) ∧
      StringContent value ∧
      body =
        before ++ '\x7b' ::
          (afterBrace ++ '"' ::
            (name ++ '"' ::
              (afterName ++ ':' ::
                (beforeValue ++ '"' ::
                  (value ++ '"' :: (afterValue ++ '\x7d' :: behind))))))

private theorem eq_nil_of_blank
    {blanks rest otherRest : Str} {token other : Char}
    (allBlank : blanks.all isBlank = true) (notBlank : isBlank token = false)
    (same : token :: rest = blanks ++ other :: otherRest) :
    rest = otherRest := by
  cases blanks with
  | nil => exact (List.cons.inj same).2
  | cons blank later =>
    rw [List.all_cons, Bool.and_eq_true] at allBlank
    rw [(List.cons.inj same).1, allBlank.1] at notBlank
    cases notBlank

/-- Behind a value only its own closing quote can end the string. -/
private theorem value_eq_of_close {text value afterValue behind : Str}
    (blankAfter : afterValue.all isBlank = true)
    (blankBehind : behind.all isBlank = true)
    (same :
      text ++ ['"', '\x7d', '\n'] =
        value ++ '"' :: (afterValue ++ '\x7d' :: behind)) :
    text = value := by
  have quoteNotBlank {blanks : Str} (allBlank : blanks.all isBlank = true) :
      '"' ∉ blanks :=
    fun member =>
      absurd (List.all_eq_true.mp allBlank '"' member) (by decide)
  rcases List.append_eq_append_iff.mp same with
    ⟨longer, rfl, ending⟩ | ⟨longer, rfl, ending⟩
  · cases longer with
    | nil => exact (List.append_nil text).symm
    | cons char later =>
      have inRest : '"' ∈ ['\x7d', '\n'] := by
        rw [(List.cons.inj ending).2]
        exact List.mem_append_right _ List.mem_cons_self
      exact absurd inRest (by decide)
  · cases longer with
    | nil => exact List.append_nil value
    | cons char later =>
      have inRest : '"' ∈ afterValue ++ '\x7d' :: behind := by
        rw [(List.cons.inj ending).2]
        exact List.mem_append_right _ List.mem_cons_self
      simp [quoteNotBlank blankAfter, quoteNotBlank blankBehind] at inRest

/--
An object written around a text is valid exactly when the text is string
content.
-/
theorem isObjectOf_iff (name text : Str) :
    IsObjectOf name
        ("\x7b\"".toList ++ name ++ "\":\"".toList ++ text ++
          "\"\x7d\n".toList) ↔
      StringContent text := by
  have shape :
      "\x7b\"".toList ++ name ++ "\":\"".toList ++ text ++
          "\"\x7d\n".toList =
        '\x7b' :: '"' :: (name ++ '"' :: ':' :: '"' ::
          (text ++ ['"', '\x7d', '\n'])) := by
    simp
  rw [shape]
  constructor
  · rintro ⟨before, afterBrace, afterName, beforeValue, value, afterValue,
      behind, blank, content, same⟩
    simp only [List.forall_mem_cons] at blank
    obtain ⟨beforeBlank, braceBlank, nameBlank, valueBlank, afterBlank,
      behindBlank, _⟩ := blank
    have afterOpen := eq_nil_of_blank beforeBlank (by decide) same
    have inName := eq_nil_of_blank braceBlank (by decide) afterOpen
    have behindName := List.append_cancel_left inName
    have atColon := (List.cons.inj behindName).2
    have atValue := eq_nil_of_blank nameBlank (by decide) atColon
    have inValue := eq_nil_of_blank valueBlank (by decide) atValue
    rw [value_eq_of_close afterBlank behindBlank inValue]
    exact content
  · intro content
    exact ⟨[], [], [], [], text, [], ['\n'], by decide, content, rfl⟩

end Policyd.Json
