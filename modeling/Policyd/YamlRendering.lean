import Policyd.NumeralRows
import Policyd.YamlParser

namespace Policyd

namespace Yaml

/-!
# Canonical block style

`render` writes a tree in block style: two blanks for each level, keys and
scalars in single quotes, nulls as `~`, empty collections in flow style, the
first field of a mapping behind the dash of its item, and a nested sequence
below a bare dash.  Outside quotes a rendered line has no comment, and a colon
only behind its key, so the scanners of the parser find what was written.
-/

/-- The content of a document. -/
inductive Tree where
  | null
  | scalar (text : Str)
  | seq (items : List Tree)
  | map (fields : List (Str × Tree))
  deriving Repr

namespace Tree

/-- Whether a tree is written on lines of its own. -/
def isBlock : Tree → Bool
  | seq items => !items.isEmpty
  | map fields => !fields.isEmpty
  | _ => false

mutual

/-- Whether texts are free of line feeds and keys are not empty. -/
def renderable : Tree → Bool
  | null => true
  | scalar text => !text.contains '\n'
  | seq items => renderableItems items
  | map fields => renderableFields fields

/-- Whether all items are renderable. -/
def renderableItems : List Tree → Bool
  | [] => true
  | item :: later => item.renderable && renderableItems later

/-- Whether all fields are renderable. -/
def renderableFields : List (Str × Tree) → Bool
  | [] => true
  | (key, value) :: later =>
    key != [] && !key.contains '\n' && value.renderable &&
      renderableFields later

end

end Tree

/-- A text with its quotes doubled. -/
def doubled (text : Str) : Str :=
  text.flatMap fun char => if char = '\'' then ['\'', '\''] else [char]

/-- A single-quoted scalar. -/
def quoted (text : Str) : Str :=
  '\'' :: (doubled text ++ ['\''])

/-- A value that is written behind its key or its dash. -/
def inline : Tree → Str
  | .null => ['~']
  | .scalar text => quoted text
  | .seq _ => ['[', ']']
  | .map _ => ['\x7b', '\x7d']

/-- A line of a rendered document. -/
structure Rendered where
  indent : Nat
  text : Str
  deriving Repr, DecidableEq

/-- The lines of an item, given those of its block. -/
def underDash (indent : Nat) (item : Tree) (block : List Rendered) :
    List Rendered :=
  match item, block with
  | .map _, first :: later =>
    { indent := indent, text := '-' :: ' ' :: first.text } :: later
  | .seq _, first :: later =>
    { indent := indent, text := ['-'] } :: first :: later
  | _, _ => [{ indent := indent, text := '-' :: ' ' :: inline item }]

/-- The lines of a field, given those of the block of its value. -/
def underKey (indent : Nat) (key : Str) (value : Tree)
    (block : List Rendered) : List Rendered :=
  match block with
  | [] =>
    [{ indent := indent
       text := quoted key ++ ':' :: ' ' :: inline value }]
  | first :: later =>
    { indent := indent, text := quoted key ++ [':'] } :: first :: later

mutual

/-- The lines of a block; there are none for a value written inline. -/
def blockLines : Nat → Tree → List Rendered
  | indent, .seq items => itemLines indent items
  | indent, .map fields => fieldLines indent fields
  | _, _ => []

/-- The lines of the items of a sequence. -/
def itemLines : Nat → List Tree → List Rendered
  | _, [] => []
  | indent, item :: later =>
    underDash indent item (blockLines (indent + 2) item) ++
      itemLines indent later

/-- The lines of the fields of a mapping. -/
def fieldLines : Nat → List (Str × Tree) → List Rendered
  | _, [] => []
  | indent, (key, value) :: later =>
    underKey indent key value (blockLines (indent + 2) value) ++
      fieldLines indent later

end

/-- A rendered line with its indentation. -/
def Rendered.raw (line : Rendered) : Str :=
  List.replicate line.indent ' ' ++ line.text

/-- A tree in canonical block style. -/
def render (tree : Tree) : Str :=
  linesText ((blockLines 0 tree).map Rendered.raw)

/-- Undoubling the quotes gives the text back. -/
theorem unquoteSingle_doubled (text : Str) :
    unquoteSingle (doubled text) = text := by
  induction text with
  | nil => rfl
  | cons char later inductionHypothesis =>
    rw [doubled, List.flatMap_cons, ← doubled]
    by_cases isQuote : char = '\''
    · rw [if_pos isQuote, isQuote]
      simp [unquoteSingle, inductionHypothesis]
    · rw [if_neg isQuote, List.singleton_append, unquoteSingle]
      · rw [inductionHypothesis]
      · intro rest isPair
        exact absurd isPair isQuote

theorem newline_mem_quoted {text : Str} (member : '\n' ∈ quoted text) :
    '\n' ∈ text := by
  simp only [quoted, doubled, List.mem_cons, List.mem_append,
    List.mem_flatMap, List.not_mem_nil, or_false] at member
  rcases member with isQuote | ⟨char, inText, here⟩ | isQuote
  · cases isQuote
  · split at here
    · simp at here
    · rw [List.mem_singleton.mp here]
      exact inText
  · cases isQuote

/-- The comment scanner passes over the inside of quotes. -/
theorem stripCommentFrom_doubled (previous : Option Char) (text rest : Str) :
    ∃ last,
      stripCommentFrom previous true false (doubled text ++ rest) =
        doubled text ++ stripCommentFrom last true false rest := by
  induction text generalizing previous with
  | nil => exact ⟨previous, rfl⟩
  | cons char later inductionHypothesis =>
    rw [doubled, List.flatMap_cons, ← doubled]
    by_cases isQuote : char = '\''
    · obtain ⟨last, scanned⟩ := inductionHypothesis (some '\'')
      refine ⟨last, ?_⟩
      rw [if_pos isQuote]
      simp [stripCommentFrom, scanned]
    · obtain ⟨last, scanned⟩ := inductionHypothesis (some char)
      refine ⟨last, ?_⟩
      rw [if_neg isQuote]
      simp [stripCommentFrom, scanned, isQuote]

/-- The key scanner passes over the inside of quotes. -/
theorem keySplitFrom_doubled (position : Nat) (text rest : Str) :
    keySplitFrom true false 0 position (doubled text ++ rest) =
      keySplitFrom true false 0 (position + (doubled text).length)
        rest := by
  induction text generalizing position with
  | nil => rfl
  | cons char later inductionHypothesis =>
    rw [doubled, List.flatMap_cons, ← doubled]
    by_cases isQuote : char = '\''
    · rw [if_pos isQuote]
      simp [keySplitFrom, inductionHypothesis]
      congr 1
      omega
    · rw [if_neg isQuote]
      simp [keySplitFrom, inductionHypothesis, isQuote]
      congr 1
      omega

theorem keySplitFrom_quoted (position : Nat) (text rest : Str) :
    keySplitFrom false false 0 position (quoted text ++ rest) =
      keySplitFrom false false 0 (position + (quoted text).length)
        rest := by
  simp [quoted, keySplitFrom, keySplitFrom_doubled]
  congr 1
  omega

/-- A text without blanks at its ends. -/
structure Solid (text : Str) : Prop where
  head : ∃ char ∈ text.head?, char ≠ ' ' ∧ char ≠ '\t'
  last : ∃ char ∈ text.getLast?, char ≠ ' ' ∧ char ≠ '\t' ∧ char ≠ '\r'

/-- A text that ends outside quotes and has no comment. -/
def Quiet (text : Str) : Prop :=
  ∀ previous rest, ∃ last,
    stripCommentFrom previous false false (text ++ rest) =
      text ++ stripCommentFrom last false false rest

namespace Solid

variable {text : Str}

theorem ne_nil (solid : Solid text) :
    text ≠ [] := by
  rintro rfl
  obtain ⟨_, isHead, _⟩ := solid.head
  cases isHead

/-- The ends of a text are those of its outer parts. -/
theorem append {first last : Str}
    (firstSolid : Solid first) (lastSolid : Solid last) (middle : Str) :
    Solid (first ++ middle ++ last) := by
  obtain ⟨head, isHead, headSolid⟩ := firstSolid.head
  obtain ⟨tail, isTail, tailSolid⟩ := lastSolid.last
  refine ⟨⟨head, ?_, headSolid⟩, ⟨tail, ?_, tailSolid⟩⟩
  · rw [Option.mem_def] at isHead ⊢
    rw [List.append_assoc, List.head?_append, isHead]
    rfl
  · rw [Option.mem_def] at isTail ⊢
    rw [List.getLast?_append, isTail]
    rfl

theorem rtrim_eq (solid : Solid text) :
    rtrim text = text := by
  obtain ⟨char, isLast, notSpace, notTab, notReturn⟩ := solid.last
  rw [rtrim, Str.trimRight, List.rdropWhile_eq_self_iff]
  intro nonempty isBlank
  rw [Option.mem_def, List.getLast?_eq_some_getLast nonempty,
    Option.some.injEq] at isLast
  rw [isLast] at isBlank
  simp [notSpace, notTab, notReturn] at isBlank

theorem trim_eq (solid : Solid text) :
    trim text = text := by
  obtain ⟨char, isHead, notSpace, notTab⟩ := solid.head
  have untouched : Str.trimLeft [' ', '\t'] text = text := by
    cases text with
    | nil => cases isHead
    | cons first later =>
      cases isHead
      simp [Str.trimLeft, notSpace, notTab]
  rw [trim, untouched, solid.rtrim_eq]

theorem trim_space (solid : Solid text) :
    trim (' ' :: text) = text := by
  have blank : trim (' ' :: text) = trim text := by
    simp [trim, Str.trimLeft]
  rw [blank, solid.trim_eq]

end Solid

namespace Quiet

theorem append {first second : Str}
    (firstQuiet : Quiet first) (secondQuiet : Quiet second) :
    Quiet (first ++ second) := by
  intro previous rest
  obtain ⟨middle, scannedFirst⟩ := firstQuiet previous (second ++ rest)
  obtain ⟨last, scannedSecond⟩ := secondQuiet middle rest
  refine ⟨last, ?_⟩
  rw [List.append_assoc, scannedFirst, scannedSecond, List.append_assoc]

theorem singleton {char : Char}
    (notSingle : char ≠ '\'') (notDouble : char ≠ '"') (notHash : char ≠ '#') :
    Quiet [char] := by
  intro previous rest
  exact ⟨some char, by simp [stripCommentFrom, notSingle, notDouble, notHash]⟩

theorem quoted (text : Str) :
    Quiet (quoted text) := by
  intro previous rest
  obtain ⟨last, scanned⟩ :=
    stripCommentFrom_doubled (some '\'') text ('\'' :: rest)
  refine ⟨some '\'', ?_⟩
  simp [Yaml.quoted, stripCommentFrom, scanned]

theorem stripComment_eq {text : Str} (quiet : Quiet text) :
    stripComment text = text := by
  obtain ⟨last, scanned⟩ := quiet none []
  simpa [stripComment, stripCommentFrom] using scanned

end Quiet

/-- A text that comes through the line splitter as it is. -/
structure Readable (text : Str) : Prop where
  solid : Solid text
  quiet : Quiet text
  oneLine : '\n' ∉ text
  notMarker : text ≠ "---".toList ∧ text ≠ "...".toList

theorem solid_quoted (text : Str) :
    Solid (quoted text) :=
  { head := ⟨'\'', rfl, by decide, by decide⟩
    last := by
      refine ⟨'\'', ?_, by decide, by decide, by decide⟩
      rw [Option.mem_def, quoted, ← List.cons_append,
        List.getLast?_concat] }

theorem solid_singleton {char : Char}
    (notSpace : char ≠ ' ') (notTab : char ≠ '\t') (notReturn : char ≠ '\r') :
    Solid [char] :=
  { head := ⟨char, rfl, notSpace, notTab⟩
    last := ⟨char, rfl, notSpace, notTab, notReturn⟩ }

theorem solid_inline (tree : Tree) :
    Solid (inline tree) := by
  cases tree with
  | null => exact solid_singleton (by decide) (by decide) (by decide)
  | scalar text => exact solid_quoted text
  | seq items =>
    exact ⟨⟨'[', rfl, by decide, by decide⟩,
      ⟨']', rfl, by decide, by decide, by decide⟩⟩
  | map fields =>
    exact ⟨⟨'\x7b', rfl, by decide, by decide⟩,
      ⟨'\x7d', rfl, by decide, by decide, by decide⟩⟩

theorem quiet_inline (tree : Tree) :
    Quiet (inline tree) := by
  cases tree with
  | null => exact Quiet.singleton (by decide) (by decide) (by decide)
  | scalar text => exact Quiet.quoted text
  | seq items =>
    exact (Quiet.singleton (by decide) (by decide) (by decide)).append
      (Quiet.singleton (by decide) (by decide) (by decide))
  | map fields =>
    exact (Quiet.singleton (by decide) (by decide) (by decide)).append
      (Quiet.singleton (by decide) (by decide) (by decide))

theorem oneLine_inline {tree : Tree} (renderable : tree.renderable = true) :
    '\n' ∉ inline tree := by
  cases tree with
  | null => decide
  | scalar text =>
    intro member
    simp only [Tree.renderable, Bool.not_eq_true', List.contains_eq_mem,
      decide_eq_false_iff_not] at renderable
    exact renderable (newline_mem_quoted member)
  | seq items => exact (by decide : '\n' ∉ ['[', ']'])
  | map fields => exact (by decide : '\n' ∉ ['\x7b', '\x7d'])

variable {key : Str}

/-- The text of a field whose value follows on the same line. -/
theorem readable_field {body : Str}
    (keyLine : '\n' ∉ key) (solid : Solid body) (quiet : Quiet body)
    (oneLine : '\n' ∉ body) :
    Readable (quoted key ++ ':' :: ' ' :: body) := by
  have shape :
      quoted key ++ ':' :: ' ' :: body =
        quoted key ++ [':', ' '] ++ body := by
    simp
  rw [shape]
  refine
    { solid := (solid_quoted key).append solid _
      quiet :=
        ((Quiet.quoted key).append
          ((Quiet.singleton (by decide) (by decide) (by decide)).append
            (Quiet.singleton (by decide) (by decide) (by decide)))).append
          quiet
      oneLine := ?_
      notMarker := ⟨nofun, nofun⟩ }
  simp only [List.mem_append, not_or]
  exact ⟨⟨fun member => keyLine (newline_mem_quoted member), by decide⟩,
    oneLine⟩

/-- The text of a field whose value follows on the next lines. -/
theorem readable_key (keyLine : '\n' ∉ key) :
    Readable (quoted key ++ [':']) := by
  have solid :=
    (solid_quoted key).append
      (solid_singleton (by decide : ':' ≠ ' ') (by decide) (by decide)) []
  rw [List.append_nil] at solid
  refine
    { solid := solid
      quiet :=
        (Quiet.quoted key).append
          (Quiet.singleton (by decide) (by decide) (by decide))
      oneLine := ?_
      notMarker := ⟨nofun, nofun⟩ }
  simp only [List.mem_append, not_or]
  exact ⟨fun member => keyLine (newline_mem_quoted member), by decide⟩

theorem readable_dash :
    Readable ['-'] :=
  { solid := solid_singleton (by decide) (by decide) (by decide)
    quiet := Quiet.singleton (by decide) (by decide) (by decide)
    oneLine := by decide
    notMarker := by decide }

/-- A text behind a dash. -/
theorem readable_dashed {text : Str}
    (solid : Solid text) (quiet : Quiet text) (oneLine : '\n' ∉ text) :
    Readable ('-' :: ' ' :: text) :=
  { solid :=
      (solid_singleton (by decide : '-' ≠ ' ') (by decide)
        (by decide)).append solid [' ']
    quiet :=
      (Quiet.singleton (by decide : '-' ≠ '\'') (by decide)
        (by decide)).append
        ((Quiet.singleton (by decide : ' ' ≠ '\'') (by decide)
          (by decide)).append quiet)
    oneLine := by
      simp only [List.mem_cons, not_or]
      exact ⟨by decide, by decide, oneLine⟩
    notMarker := ⟨nofun, nofun⟩ }

/-- The lines of an item are readable when those of its block are. -/
theorem readable_underDash {indent : Nat} {item : Tree}
    (renderable : item.renderable = true)
    {block : List Rendered}
    (readable : ∀ line ∈ block, Readable line.text) :
    ∀ line ∈ underDash indent item block, Readable line.text := by
  unfold underDash
  split
  next fields first later =>
    rw [List.forall_mem_cons] at readable ⊢
    exact ⟨readable_dashed readable.1.solid readable.1.quiet
      readable.1.oneLine, readable.2⟩
  next items first later =>
    rw [List.forall_mem_cons]
    exact ⟨readable_dash, readable⟩
  next =>
    rw [List.forall_mem_singleton]
    exact readable_dashed (solid_inline item) (quiet_inline item)
      (oneLine_inline renderable)

/-- The lines of a field are readable when those of its block are. -/
theorem readable_underKey {indent : Nat} (keyLine : '\n' ∉ key) {value : Tree}
    (renderable : value.renderable = true)
    {block : List Rendered}
    (readable : ∀ line ∈ block, Readable line.text) :
    ∀ line ∈ underKey indent key value block, Readable line.text := by
  unfold underKey
  split
  next =>
    rw [List.forall_mem_singleton]
    exact readable_field keyLine (solid_inline value) (quiet_inline value)
      (oneLine_inline renderable)
  next first later =>
    rw [List.forall_mem_cons]
    exact ⟨readable_key keyLine, readable⟩

theorem renderableFields_cons {value : Tree} {later : List (Str × Tree)}
    (renderable : Tree.renderableFields ((key, value) :: later) = true) :
    key ≠ [] ∧ '\n' ∉ key ∧ value.renderable = true ∧
      Tree.renderableFields later = true := by
  simp only [Tree.renderableFields, Bool.and_eq_true, bne_iff_ne,
    Bool.not_eq_true', List.contains_eq_mem,
    decide_eq_false_iff_not] at renderable
  exact ⟨renderable.1.1.1, renderable.1.1.2, renderable.1.2, renderable.2⟩

mutual

theorem readable_blockLines (indent : Nat) :
    ∀ tree : Tree, tree.renderable = true →
      ∀ line ∈ blockLines indent tree, Readable line.text
  | .null, _ => by simp [blockLines]
  | .scalar _, _ => by simp [blockLines]
  | .seq items, renderable => by
    rw [blockLines]
    exact readable_itemLines indent items renderable
  | .map fields, renderable => by
    rw [blockLines]
    exact readable_fieldLines indent fields renderable

theorem readable_itemLines (indent : Nat) :
    ∀ items : List Tree, Tree.renderableItems items = true →
      ∀ line ∈ itemLines indent items, Readable line.text
  | [], _ => by simp [itemLines]
  | item :: later, renderable => by
    simp only [Tree.renderableItems, Bool.and_eq_true] at renderable
    rw [itemLines, List.forall_mem_append]
    exact ⟨readable_underDash renderable.1
        (readable_blockLines (indent + 2) item renderable.1),
      readable_itemLines indent later renderable.2⟩

theorem readable_fieldLines (indent : Nat) :
    ∀ fields : List (Str × Tree), Tree.renderableFields fields = true →
      ∀ line ∈ fieldLines indent fields, Readable line.text
  | [], _ => by simp [fieldLines]
  | (key, value) :: later, renderable => by
    obtain ⟨_, keyLine, valueRenderable, laterRenderable⟩ :=
      renderableFields_cons renderable
    rw [fieldLines, List.forall_mem_append]
    exact ⟨readable_underKey keyLine valueRenderable
        (readable_blockLines (indent + 2) value valueRenderable),
      readable_fieldLines indent later laterRenderable⟩

end

/-- A line of the parser without its number. -/
def Line.rendered (line : Line) : Rendered :=
  { indent := line.indent, text := line.text }

/-- A readable line keeps its indentation and its text. -/
theorem splitLinesFrom_raw {line : Rendered}
    (readable : Readable line.text) (number : Nat) (later : List Str) :
    splitLinesFrom number (line.raw :: later) =
      ({ indent := line.indent
         number := number
         text := line.text } :: (splitLinesFrom (number + 1) later).1,
        (splitLinesFrom (number + 1) later).2) := by
  obtain ⟨char, isHead, notSpace, notTab⟩ := readable.solid.head
  have unindented : line.raw.dropWhile (· == ' ') = line.text := by
    rw [Rendered.raw, List.dropWhile_append_of_pos (by simp)]
    cases shape : line.text with
    | nil => rfl
    | cons first rest =>
      rw [shape] at isHead
      cases isHead
      simp [notSpace]
  have body : rtrim (stripComment line.text) = line.text := by
    rw [readable.quiet.stripComment_eq, readable.solid.rtrim_eq]
  have nonempty : line.text ≠ [] := by
    intro isEmpty
    rw [isEmpty] at isHead
    cases isHead
  have kept :
      ¬ (line.text = [] ∨ line.text = "---".toList ∨
        line.text = "...".toList) := by
    rintro (isEmpty | isDashes | isDots)
    · exact nonempty isEmpty
    · exact readable.notMarker.1 isDashes
    · exact readable.notMarker.2 isDots
  have noTab : ¬ line.text.head? = some '\t' := by
    intro isTab
    rw [Option.mem_def, isTab] at isHead
    exact notTab (Option.some.inj isHead).symm
  have width : line.raw.length - line.text.length = line.indent := by
    simp [Rendered.raw]
  rw [splitLinesFrom]
  dsimp only
  rw [unindented, if_neg noTab, body, if_neg kept, width]

theorem splitLinesFrom_rendered {lines : List Rendered}
    (readable : ∀ line ∈ lines, Readable line.text) (number : Nat) :
    ∃ parsed,
      splitLinesFrom number (lines.map Rendered.raw ++ [[]]) =
          (parsed, none) ∧
        parsed.map Line.rendered = lines := by
  induction lines generalizing number with
  | nil => exact ⟨[], rfl, rfl⟩
  | cons line later inductionHypothesis =>
    obtain ⟨lineReadable, laterReadable⟩ := List.forall_mem_cons.mp readable
    obtain ⟨parsed, split, shape⟩ :=
      inductionHypothesis laterReadable (number + 1)
    refine ⟨{ indent := line.indent
              number := number
              text := line.text } :: parsed, ?_, ?_⟩
    · rw [List.map_cons, List.cons_append,
        splitLinesFrom_raw lineReadable, split]
    · rw [List.map_cons, shape]
      rfl

end Yaml

end Policyd
