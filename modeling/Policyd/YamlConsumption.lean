import Policyd.YamlErrorFlag
import Policyd.YamlReading

namespace Policyd

namespace Yaml

/-!
# Nothing is dropped

A line has content unless it is blank, a comment or a document marker.  When no
line is indented with tabs the line splitter keeps exactly the lines with
content, and a text that is accepted has a reading of all of them.
-/

/-- Whether the indentation of a line has a tab. -/
def tabIndented (raw : Str) : Bool :=
  (raw.takeWhile fun char => char == ' ' || char == '\t').contains '\t'

/-- A line without its indentation, its comment and its trailing blanks. -/
def bodyOf (raw : Str) : Str :=
  rtrim (stripComment (raw.dropWhile (· == ' ')))

/-- Whether a line is neither blank, nor a comment, nor a document marker. -/
def hasContent (raw : Str) : Bool :=
  bodyOf raw != [] && bodyOf raw != "---".toList &&
    bodyOf raw != "...".toList

/-- The line of the parser for a line of a text. -/
def lineOf (number : Nat) (raw : Str) : Line :=
  { indent := (raw.takeWhile (· == ' ')).length
    number := number
    text := bodyOf raw }

/-- The lines with content, numbered from some start. -/
def contentLinesFrom (number : Nat) (raws : List Str) : List Line :=
  ((raws.zipIdx number).filter (hasContent ·.1)).map fun (raw, index) =>
    lineOf index raw

/-- The lines of a text that have content. -/
def contentLines (text : Str) : List Line :=
  contentLinesFrom 1 (text.splitOn '\n')

/-- The reading of a whole document; one without lines is null. -/
def DocumentReads (lines : List Line) (root : Node) : Prop :=
  match lines with
  | [] => root = .null 1
  | first :: later =>
    BlockReads first.indent (first :: later) (.node root)

/-- The splitter looks for a tab behind the blanks of the indentation. -/
theorem head?_dropWhile_eq_tab_iff (raw : Str) :
    (raw.dropWhile (· == ' ')).head? = some '\t' ↔
      tabIndented raw = true := by
  induction raw with
  | nil =>
    decide
  | cons char rest inductionHypothesis =>
    by_cases isSpace : char = ' '
    · subst isSpace
      rw [List.dropWhile_cons_of_pos (by decide), inductionHypothesis]
      simp [tabIndented]
    · rw [List.dropWhile_cons_of_neg (by simpa using isSpace)]
      by_cases isTab : char = '\t'
      · subst isTab
        simp [tabIndented]
      · simp [tabIndented, isSpace, isTab]

theorem splitLinesFrom_cons {raw : Str}
    (noTab : tabIndented raw = false) (number : Nat) (later : List Str) :
    splitLinesFrom number (raw :: later) =
      (contentLinesFrom number [raw] ++
        (splitLinesFrom (number + 1) later).1,
        (splitLinesFrom (number + 1) later).2) := by
  have notTab : ¬ (raw.dropWhile (· == ' ')).head? = some '\t' := by
    rw [head?_dropWhile_eq_tab_iff, noTab]
    decide
  have width :
      raw.length - (raw.dropWhile (· == ' ')).length =
        (raw.takeWhile (· == ' ')).length := by
    have whole :=
      congrArg List.length
        (List.takeWhile_append_dropWhile (p := (· == ' ')) (l := raw))
    rw [List.length_append] at whole
    omega
  rw [splitLinesFrom]
  dsimp only
  rw [if_neg notTab, width]
  by_cases skipped :
      bodyOf raw = [] ∨ bodyOf raw = "---".toList ∨
        bodyOf raw = "...".toList
  · have empty : hasContent raw = false := by
      rcases skipped with isBody | isBody | isBody <;>
        rw [hasContent, isBody] <;> rfl
    rw [bodyOf] at skipped
    rw [if_pos skipped]
    simp [contentLinesFrom, empty]
  · have full : hasContent raw = true := by
      rw [not_or, not_or] at skipped
      simp only [hasContent, Bool.and_eq_true, bne_iff_ne]
      exact ⟨⟨skipped.1, skipped.2.1⟩, skipped.2.2⟩
    rw [bodyOf] at skipped
    rw [if_neg skipped]
    simp [contentLinesFrom, full, lineOf, bodyOf]

theorem contentLinesFrom_cons (number : Nat) (raw : Str) (later : List Str) :
    contentLinesFrom number (raw :: later) =
      contentLinesFrom number [raw] ++
        contentLinesFrom (number + 1) later := by
  simp [contentLinesFrom, List.filter_cons]
  split <;> simp

theorem splitLinesFrom_eq {raws : List Str}
    (noTabs : ∀ raw ∈ raws, tabIndented raw = false) (number : Nat) :
    splitLinesFrom number raws = (contentLinesFrom number raws, none) := by
  induction raws generalizing number with
  | nil => rfl
  | cons raw later inductionHypothesis =>
    obtain ⟨noTab, noTabsLater⟩ := List.forall_mem_cons.mp noTabs
    rw [splitLinesFrom_cons noTab, inductionHypothesis noTabsLater,
      contentLinesFrom_cons number raw later]

/-- A text that is accepted has a reading of its lines. -/
theorem documentReads_of_parse {text : Str}
    (noTabs : ∀ raw ∈ text.splitOn '\n', tabIndented raw = false)
    {root : Node}
    (parsed : parse text = .ok root) :
    DocumentReads (contentLines text) root := by
  have split : splitLines text = (contentLines text, none) :=
    splitLinesFrom_eq noTabs 1
  rw [parse, split] at parsed
  cases lines : contentLines text with
  | nil =>
    rw [lines] at parsed
    cases parsed
    rfl
  | cons first later =>
    rw [lines] at parsed
    obtain ⟨⟨node, unread⟩, block, returned⟩ := bind_eq_ok parsed
    cases unread with
    | cons line rest => cases returned
    | nil =>
      cases returned
      rcases (block_sound _).block block with stuck | reading
      · obtain ⟨_, _, impossible, _⟩ := stuck
        cases impossible
      · obtain ⟨inside, joined, reads⟩ := reading
        rw [List.append_nil] at joined
        rw [joined]
        exact reads

/--
The parser ends on every text.  When no line is indented with tabs and the text
is accepted, the tree has a reading that uses every line with content exactly
once and in order, and every flow collection to the end of its line.
-/
theorem parse_ends_and_drops_nothing
    (text : Str) :
    Parser.run text = some (parse text) ∧
      ((∀ raw ∈ text.splitOn '\n', tabIndented raw = false) →
        ∀ root,
          Parser.run text = some (.ok root) →
            DocumentReads (contentLines text) root) := by
  refine ⟨Parser.run_eq_parse text, ?_⟩
  intro noTabs root accepted
  rw [Parser.run_eq_parse text] at accepted
  exact documentReads_of_parse noTabs (Option.some.inj accepted)

/-- A document with a comment, a marker, a flow collection and a bare dash. -/
def mixedDocument : Str :=
  "a:\n- b: [1, \x7bc: 2\x7d]  # x\n---\n-\n  - d\ne: ~\n".toList

/-- A document with several kinds of values is read as a whole. -/
theorem mixedDocument_reads :
    ∃ root,
      Parser.run mixedDocument = some (.ok root) ∧
        (contentLines mixedDocument).map Line.number = [1, 2, 4, 5, 6] ∧
        DocumentReads (contentLines mixedDocument) root := by
  obtain ⟨ended, reads⟩ := parse_ends_and_drops_nothing mixedDocument
  have accepted : (parse mixedDocument).isOk = true := by
    decide +kernel
  cases parsed : parse mixedDocument with
  | error failure =>
    rw [parsed] at accepted
    cases accepted
  | ok root =>
    rw [parsed] at ended
    refine ⟨root, ended, by decide +kernel, ?_⟩
    exact reads (by decide +kernel) root ended

end Yaml

end Policyd
