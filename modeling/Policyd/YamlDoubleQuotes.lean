import Policyd.YamlRoundTrip
import Policyd.YamlReading

namespace Policyd

namespace Yaml

/-!
# Double-quoted scalars

A text is written between double quotes with its backslashes and double quotes
escaped.  Only `unquote` knows about escapes.  The scanners that look for
comments, colons and commas take every double quote for an end or a beginning,
so what stands between two of them may be exposed.  A text is read back when
nothing it exposes means anything to a scanner.
-/

/-- A text with its backslashes and double quotes escaped. -/
def escaped (text : Str) : Str :=
  text.flatMap fun char =>
    if char = '\\' ∨ char = '"' then ['\\', char] else [char]

/-- A double-quoted scalar. -/
def doubleQuoted (text : Str) : Str :=
  '"' :: (escaped text ++ ['"'])

/-- Whether a byte means something to a scanner outside double quotes. -/
def isTelling (char : Char) : Bool :=
  char == '\'' || char == '#' || char == ':' || char == ',' ||
    char == ']' || char == '\x7d'

/--
Whether a text ends inside quotes and has no telling byte outside, when each of
its double quotes opens or closes a quoted part.
-/
def sheltered : Bool → Str → Bool
  | inDouble, [] => inDouble
  | inDouble, char :: rest =>
    if char = '"' then
      sheltered (!inDouble) rest
    else
      (inDouble || !isTelling char) && sheltered inDouble rest

/-- Escapes hide nothing from the scanners. -/
theorem sheltered_escaped (inDouble : Bool) (text : Str) :
    sheltered inDouble (escaped text) = sheltered inDouble text := by
  induction text generalizing inDouble with
  | nil => rfl
  | cons char later inductionHypothesis =>
    rw [escaped, List.flatMap_cons, ← escaped]
    by_cases isEscaped : char = '\\' ∨ char = '"'
    · rw [if_pos isEscaped]
      rcases isEscaped with rfl | rfl
      · simp [sheltered, isTelling, inductionHypothesis]
      · simp [sheltered, isTelling, inductionHypothesis]
    · rw [if_neg isEscaped]
      simp [sheltered, inductionHypothesis]

theorem newline_mem_doubleQuoted
    {text : Str} (member : '\n' ∈ doubleQuoted text) :
    '\n' ∈ text := by
  simp only [doubleQuoted, escaped, List.mem_cons, List.mem_append,
    List.mem_flatMap, List.not_mem_nil, or_false] at member
  rcases member with isQuote | ⟨char, inText, here⟩ | isQuote
  · cases isQuote
  · split at here
    · rcases List.mem_cons.mp here with isBackslash | isChar
      · cases isBackslash
      · rwa [List.mem_singleton.mp isChar]
    · rwa [List.mem_singleton.mp here]
  · cases isQuote

theorem solid_doubleQuoted (text : Str) :
    Solid (doubleQuoted text) := by
  have quote : Solid ['"'] :=
    solid_singleton (by decide) (by decide) (by decide)
  exact quote.append quote (escaped text)

variable {inDouble : Bool} {texts : List Str}

theorem sheltered_cons {char : Char} {later : Str}
    (isSheltered : sheltered inDouble (char :: later) = true)
    (notQuote : char ≠ '"') :
    (inDouble = true ∨ isTelling char = false) ∧
      sheltered inDouble later = true := by
  rw [sheltered, if_neg notQuote] at isSheltered
  simpa using isSheltered

/-- The comment scanner passes over a sheltered text. -/
theorem stripCommentFrom_sheltered (previous : Option Char) {text : Str}
    (isSheltered : sheltered inDouble text = true) (rest : Str) :
    ∃ last,
      stripCommentFrom previous false inDouble (text ++ rest) =
        text ++ stripCommentFrom last false true rest := by
  induction text generalizing previous inDouble with
  | nil =>
    rw [sheltered] at isSheltered
    exact ⟨previous, by rw [isSheltered]; rfl⟩
  | cons char later inductionHypothesis =>
    by_cases isQuote : char = '"'
    · rw [sheltered, if_pos isQuote] at isSheltered
      obtain ⟨last, scanned⟩ := inductionHypothesis (some char) isSheltered
      refine ⟨last, ?_⟩
      rw [List.cons_append, stripCommentFrom,
        if_neg (fun single => absurd (isQuote.symm.trans single.1)
          (by decide)),
        if_pos ⟨isQuote, rfl⟩, scanned]
      rfl
    · obtain ⟨notTelling, laterSheltered⟩ := sheltered_cons isSheltered isQuote
      obtain ⟨last, scanned⟩ := inductionHypothesis (some char) laterSheltered
      refine ⟨last, ?_⟩
      have notSingle : ¬ (char = '\'' ∧ inDouble = false) := by
        rintro ⟨rfl, rfl⟩
        simp [isTelling] at notTelling
      have notComment : ¬ (char = '#' ∧ inDouble = false) := by
        rintro ⟨rfl, rfl⟩
        simp [isTelling] at notTelling
      rw [List.cons_append, stripCommentFrom, if_neg notSingle,
        if_neg (fun double => isQuote double.1),
        if_neg (fun comment => notComment ⟨comment.1, comment.2.2.1⟩),
        scanned]
      rfl

/-- The key scanner finds nothing in a sheltered text. -/
theorem keySplitFrom_sheltered (depth : Int) (position : Nat) {text : Str}
    (isSheltered : sheltered inDouble text = true) :
    keySplitFrom false inDouble depth position (text ++ ['"']) = none := by
  induction text generalizing depth position inDouble with
  | nil =>
    rw [sheltered] at isSheltered
    rw [isSheltered]
    rfl
  | cons char later inductionHypothesis =>
    by_cases isQuote : char = '"'
    · rw [sheltered, if_pos isQuote] at isSheltered
      rw [List.cons_append, keySplitFrom,
        if_neg (fun single => absurd (isQuote.symm.trans single.1)
          (by decide)),
        if_pos ⟨isQuote, rfl⟩]
      exact inductionHypothesis depth (position + 1) isSheltered
    · obtain ⟨notTelling, laterSheltered⟩ := sheltered_cons isSheltered isQuote
      have passed := fun depth =>
        inductionHypothesis depth (position + 1) laterSheltered
      rw [List.cons_append, keySplitFrom]
      rcases notTelling with rfl | notTelling
      · simp [isQuote, passed]
      · simp only [isTelling, Bool.or_eq_false_iff, beq_eq_false_iff_ne,
          ne_eq] at notTelling
        simp [isQuote, notTelling, passed]

theorem quiet_doubleQuoted
    {text : Str} (isSheltered : sheltered true text = true) :
    Quiet (doubleQuoted text) := by
  intro previous rest
  rw [← sheltered_escaped] at isSheltered
  obtain ⟨last, scanned⟩ :=
    stripCommentFrom_sheltered (some '"') isSheltered ('"' :: rest)
  refine ⟨some '"', ?_⟩
  simp [doubleQuoted, stripCommentFrom, scanned]

theorem keySplit_doubleQuoted
    {text : Str} (isSheltered : sheltered true text = true) :
    keySplit (doubleQuoted text) = none := by
  rw [← sheltered_escaped] at isSheltered
  exact keySplitFrom_sheltered 0 1 isSheltered

/-- Double-quoted scalars with commas between them. -/
def joined : List Str → Str
  | [] => []
  | [text] => doubleQuoted text
  | text :: next :: later =>
    doubleQuoted text ++ ',' :: ' ' :: joined (next :: later)

/-- A flow sequence of double-quoted scalars. -/
def flowSequence (texts : List Str) : Str :=
  '[' :: (joined texts ++ [']'])

/-- A flow sequence of double-quoted scalars has no comment. -/
theorem quiet_joined
    (allSheltered : ∀ text ∈ texts, sheltered true text = true) :
    Quiet (joined texts) := by
  induction texts with
  | nil => exact fun previous rest => ⟨previous, rfl⟩
  | cons text later inductionHypothesis =>
    rw [List.forall_mem_cons] at allSheltered
    have first := quiet_doubleQuoted allSheltered.1
    cases later with
    | nil => exact first
    | cons next others =>
      have comma : Quiet [','] :=
        Quiet.singleton (by decide) (by decide) (by decide)
      have blank : Quiet [' '] :=
        Quiet.singleton (by decide) (by decide) (by decide)
      exact first.append
        (comma.append (blank.append (inductionHypothesis allSheltered.2)))

/-- A line feed in a flow sequence is one of its scalars'. -/
theorem newline_mem_joined (member : '\n' ∈ joined texts) :
    ∃ text ∈ texts, '\n' ∈ text := by
  induction texts with
  | nil => cases member
  | cons text later inductionHypothesis =>
    cases later with
    | nil =>
      exact ⟨text, List.mem_cons_self, newline_mem_doubleQuoted member⟩
    | cons next others =>
      simp only [joined, List.mem_append, List.mem_cons] at member
      rcases member with inFirst | isComma | isBlank | inOthers
      · exact ⟨text, List.mem_cons_self, newline_mem_doubleQuoted inFirst⟩
      · cases isComma
      · cases isBlank
      · obtain ⟨other, isOther, inOther⟩ := inductionHypothesis inOthers
        exact ⟨other, List.mem_cons_of_mem _ isOther, inOther⟩

/-- A value made of double-quoted scalars. -/
inductive Written where
  | scalar (text : Str)
  | flow (texts : List Str)
  deriving Repr, DecidableEq

namespace Written

/-- The scalars of a value. -/
def scalars : Written → List Str
  | scalar text => [text]
  | flow texts => texts

/-- How a value is written. -/
def text : Written → Str
  | scalar text => doubleQuoted text
  | flow texts => flowSequence texts

/-- What a value stands for. -/
def tree : Written → Tree
  | scalar text => .scalar text
  | flow texts => .seq (texts.map .scalar)

/-- A value whose scalars fit on a line and expose nothing telling. -/
structure Legible (value : Written) : Prop where
  oneLine : ∀ text ∈ value.scalars, '\n' ∉ text
  sheltered : ∀ text ∈ value.scalars, sheltered true text = true

theorem solid (value : Written) :
    Solid value.text := by
  cases value with
  | scalar text => exact solid_doubleQuoted text
  | flow texts =>
    have opening : Solid ['['] :=
      solid_singleton (by decide) (by decide) (by decide)
    have closing : Solid [']'] :=
      solid_singleton (by decide) (by decide) (by decide)
    exact opening.append closing (joined texts)

namespace Legible

variable {value : Written}

theorem quiet (legible : value.Legible) :
    Quiet value.text := by
  cases value with
  | scalar text =>
    exact quiet_doubleQuoted (legible.sheltered text List.mem_cons_self)
  | flow texts =>
    have opening : Quiet ['['] :=
      Quiet.singleton (by decide) (by decide) (by decide)
    have closing : Quiet [']'] :=
      Quiet.singleton (by decide) (by decide) (by decide)
    exact opening.append ((quiet_joined legible.sheltered).append closing)

/-- Values take one line. -/
theorem newline_not_mem (legible : value.Legible) :
    '\n' ∉ value.text := by
  intro member
  cases value with
  | scalar text =>
    exact legible.oneLine text List.mem_cons_self
      (newline_mem_doubleQuoted member)
  | flow texts =>
    simp only [Written.text, flowSequence, List.mem_cons,
      List.mem_append, List.not_mem_nil, or_false] at member
    rcases member with isBracket | inTexts | isBracket
    · cases isBracket
    · obtain ⟨text, isText, inText⟩ := newline_mem_joined inTexts
      exact legible.oneLine text isText inText
    · cases isBracket

theorem noField (legible : value.Legible) :
    ¬ (startsFlow value.text = false ∧
      (keySplit value.text).isSome = true) := by
  cases value with
  | scalar text =>
    have none :=
      keySplit_doubleQuoted (legible.sheltered text List.mem_cons_self)
    simp [Written.text, none]
  | flow texts => simp [Written.text, flowSequence, startsFlow]

end Legible

end Written

/-- A document of such values: the fields of a mapping, or items. -/
inductive Listing where
  | map (fields : List (Str × Written))
  | seq (items : List Written)
  deriving Repr, DecidableEq

namespace Listing

/-- The keys of a document. -/
def keys : Listing → List Str
  | map fields => fields.map Prod.fst
  | seq _ => []

/-- The values of a document. -/
def values : Listing → List Written
  | map fields => fields.map Prod.snd
  | seq items => items

/-- The line of a field. -/
def fieldLine (field : Str × Written) : Rendered :=
  { indent := 0, text := quoted field.1 ++ ':' :: ' ' :: field.2.text }

/-- The line of an item. -/
def itemLine (item : Written) : Rendered :=
  { indent := 0, text := '-' :: ' ' :: item.text }

/-- The lines of a document. -/
def lines : Listing → List Rendered
  | map fields => fields.map fieldLine
  | seq items => items.map itemLine

/-- How a document is written. -/
def text (document : Listing) : Str :=
  linesText (document.lines.map Rendered.raw)

/-- What a document stands for. -/
def tree : Listing → Tree
  | map fields => .map (fields.map fun field => (field.1, field.2.tree))
  | seq items => .seq (items.map Written.tree)

/-- A document with something in it, and with keys the parser allows. -/
structure WellFormed (document : Listing) : Prop where
  nonempty : document.values ≠ []
  keys : ∀ key ∈ document.keys, key ≠ [] ∧ '\n' ∉ key
  oneLine :
    ∀ value ∈ document.values, ∀ text ∈ value.scalars, '\n' ∉ text

variable {fuel : Nat} {document : Listing}

/-- The lines of a document come through the line splitter. -/
theorem readable (wellFormed : document.WellFormed)
    (legible : ∀ value ∈ document.values, value.Legible) :
    ∀ line ∈ document.lines, Readable line.text := by
  intro line member
  cases document with
  | map fields =>
    obtain ⟨field, isField, rfl⟩ := List.mem_map.mp member
    have fieldLegible := legible field.2 (List.mem_map_of_mem isField)
    have keyLine := (wellFormed.keys field.1 (List.mem_map_of_mem isField)).2
    exact readable_field keyLine field.2.solid fieldLegible.quiet
      fieldLegible.newline_not_mem
  | seq items =>
    obtain ⟨item, isItem, rfl⟩ := List.mem_map.mp member
    have itemLegible := legible item isItem
    exact readable_dashed item.solid itemLegible.quiet
      itemLegible.newline_not_mem

end Listing

end Yaml

end Policyd
