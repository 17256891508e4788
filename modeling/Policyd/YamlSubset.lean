import Policyd.YamlConsumption

namespace Policyd

namespace Yaml

/-!
# Constructs outside the subset

The parser refuses a tab-indented line when a line with content stands before
it, and every value and item that begins with an indicator of an anchor, alias,
tag or block scalar.  It does not refuse the rest: a tab-indented line in front
of all content hides the text, a document marker is skipped wherever it stands,
and keys are not looked at.
-/

/-- A byte that begins an anchor, an alias, a tag or a block scalar. -/
def isIndicator (char : Char) : Bool :=
  char == '&' || char == '*' || char == '!' || char == '|' || char == '>'

/-- Whether a text begins with an indicator. -/
def beginsUnsupported (text : Str) : Bool :=
  (trim text).head?.any isIndicator

/-- The text behind the key of a field. -/
def fieldValue (text : Str) : Option Str :=
  (keySplit text).map fun colon => trim (text.drop (colon + 1))

/-- The value or the item that a line writes. -/
def inlineText (line : Line) : Option Str :=
  match fieldOf line with
  | some (_, text) => fieldValue text
  | none => some (trim (line.text.drop 1))

/-- A byte that is not part of the scalars of a flow collection. -/
def isSeparator (char : Char) : Bool :=
  char == ' ' || char == '\t' || char == '[' || char == ']' ||
    char == '\x7b' || char == '\x7d' || char == ',' || char == ':'

/--
The scalars of a flow collection other than keys.  A round skips one byte or
cuts off one scalar, so fuel for each byte suffices.
-/
def flowScalars : Nat → Str → List Str
  | 0, _ => []
  | _ + 1, [] => []
  | fuel + 1, char :: rest =>
    if isSeparator char then
      flowScalars fuel rest
    else
      let (scalar, unread) := readFlowScalar (char :: rest)
      if unread.head? = some ':' then
        flowScalars fuel unread
      else
        scalar :: flowScalars fuel unread

/-- The values and items that a line writes in block style or in flow style. -/
def writtenValues (line : Line) : List Str :=
  match inlineText line with
  | none => []
  | some text =>
    if startsFlow text then
      flowScalars text.length text
    else
      [text]

/-- Every tab-indented line has a line with content before it. -/
def ContentBeforeTabs (raws : List Str) : Prop :=
  ∀ before raw after,
    raws = before ++ raw :: after →
      tabIndented raw = true →
        ∃ earlier ∈ before, hasContent earlier = true

variable {text pad rest behind : Str} {line : Line} {node : Node}
  {char : Char} {indent : Nat}

theorem beginsUnsupported_of_makeScalar
    {line : Nat} (made : makeScalar text line = .ok node) :
    beginsUnsupported text = false := by
  rw [makeScalar] at made
  rw [beginsUnsupported]
  split at made
  next isNull =>
    rcases isNull with shape | shape | shape | shape | shape <;>
      rw [shape] <;> decide
  next =>
    split at made
    · cases made
    next notBlock =>
      split at made
      · cases made
      next notAnchor =>
        cases first : (trim text).head? with
        | none => rfl
        | some char =>
          rw [first] at notBlock notAnchor
          simp only [Option.some.injEq, not_or] at notBlock notAnchor
          simp [isIndicator, notBlock, notAnchor]

/-- Blanks at the end are trimmed. -/
theorem rtrim_append_blanks (blanks : Blanks pad) (text : Str) :
    rtrim (text ++ pad) = rtrim text := by
  induction pad using List.reverseRecOn with
  | nil =>
    rw [List.append_nil]
  | append_singleton earlier last inductionHypothesis =>
    have isBlank : last = ' ' ∨ last = '\t' := blanks last (by simp)
    have earlierBlanks : Blanks earlier :=
      fun char member => blanks char (List.mem_append_left _ member)
    rw [← inductionHypothesis earlierBlanks, ← List.append_assoc, rtrim,
      rtrim, Str.trimRight, Str.trimRight, List.rdropWhile_concat_pos]
    rcases isBlank with rfl | rfl <;> rfl

/-- No scalar of a text begins with an indicator. -/
def FlowSupported (text : Str) : Prop :=
  ∀ fuel, ∀ scalar ∈ flowScalars fuel text,
    beginsUnsupported scalar = false

theorem flowSupported_nil : FlowSupported [] := by
  intro fuel scalar member
  cases fuel <;> cases member

/-- A separator is skipped. -/
theorem flowSupported_cons_iff (separator : isSeparator char = true) :
    FlowSupported (char :: rest) ↔ FlowSupported rest := by
  constructor
  · intro supported fuel scalar member
    refine supported (fuel + 1) scalar ?_
    rw [flowScalars, if_pos separator]
    exact member
  · intro supported fuel scalar member
    cases fuel with
    | zero => cases member
    | succ fuel =>
      rw [flowScalars, if_pos separator] at member
      exact supported fuel scalar member

theorem flowSupported_blanks_iff (blanks : Blanks pad) :
    FlowSupported (pad ++ rest) ↔ FlowSupported rest := by
  induction pad with
  | nil => rfl
  | cons char later inductionHypothesis =>
    obtain ⟨isBlank, laterBlanks⟩ := List.forall_mem_cons.mp blanks
    have separator : isSeparator char = true := by
      rcases isBlank with rfl | rfl <;> rfl
    rw [List.cons_append, flowSupported_cons_iff separator]
    exact inductionHypothesis laterBlanks

theorem Closed.not_structural {later : Str} (closed : Closed (char :: later)) :
    ¬ Structural char := by
  intro structural
  have cut := congrArg Prod.fst (closed [])
  rcases structural with rfl | rfl | rfl | rfl <;> simp [cutFlowScalar] at cut

/-- A closed text stays closed behind a separator. -/
theorem Closed.tail {later : Str}
    (closed : Closed (char :: later)) (separator : isSeparator char = true) :
    Closed later := by
  intro rest
  have notStructural := closed.not_structural
  have notSingle : ¬ (char = '\'' ∧ false = false) := by
    rintro ⟨rfl, _⟩
    cases separator
  have notDouble : ¬ (char = '"' ∧ false = false) := by
    rintro ⟨rfl, _⟩
    cases separator
  have cut := closed rest
  rw [List.cons_append, cutFlowScalar, if_neg notSingle, if_neg notDouble,
    if_neg fun isStructural => notStructural isStructural.2.2] at cut
  obtain ⟨scalar, unread⟩ := Prod.mk.inj cut
  exact Prod.ext (List.cons.inj scalar).2 unread

theorem flowSupported_key
    {key : Str} (closed : Closed key) (supported : FlowSupported behind) :
    FlowSupported (key ++ ':' :: behind) := by
  have colon : FlowSupported (':' :: behind) :=
    (flowSupported_cons_iff rfl).mpr supported
  induction key with
  | nil => exact colon
  | cons char later inductionHypothesis =>
    by_cases separator : isSeparator char = true
    · rw [List.cons_append, flowSupported_cons_iff separator]
      exact inductionHypothesis (closed.tail separator)
    · intro fuel scalar member
      cases fuel with
      | zero => cases member
      | succ fuel =>
        have read :
            (readFlowScalar (char :: later ++ ':' :: behind)).2 =
              ':' :: behind := by
          rw [readFlowScalar, closed]
          rfl
        rw [List.cons_append] at read member
        rw [flowScalars, if_neg separator] at member
        dsimp only at member
        rw [read, if_pos List.head?_cons] at member
        exact colon fuel scalar member

/-- What may stand behind a value: blanks, and then a structural byte. -/
def EndsValue (rest : Str) : Prop :=
  ∃ pad behind,
    rest = pad ++ behind ∧ Blanks pad ∧
      (behind = [] ∨ ∃ char ∈ behind.head?, Structural char)

/-- The scalar scanner stops behind the blanks that end a value. -/
theorem cutFlowScalar_ends (blanks : Blanks pad)
    (ends : behind = [] ∨ ∃ char ∈ behind.head?, Structural char) :
    cutFlowScalar false false (pad ++ behind) = (pad, behind) := by
  induction pad with
  | nil =>
    rcases ends with rfl | ⟨char, isHead, structural⟩
    · rfl
    · cases behind with
      | nil => cases isHead
      | cons first later =>
        cases isHead
        rcases structural with rfl | rfl | rfl | rfl <;> rfl
  | cons char later inductionHypothesis =>
    obtain ⟨isBlank, laterBlanks⟩ := List.forall_mem_cons.mp blanks
    have scanned := inductionHypothesis laterBlanks
    rcases isBlank with rfl | rfl <;> simp [cutFlowScalar, scanned]

theorem flowSupported_scalar
    (begins : ∀ char ∈ text.head?, char ≠ ' ' ∧ char ≠ '\t')
    (plain : startsFlow text = false) (closed : Closed text)
    (supportedText : beginsUnsupported (rtrim text) = false)
    (ends : EndsValue rest) (supported : FlowSupported rest) :
    FlowSupported (text ++ rest) := by
  obtain ⟨pad, behind, rfl, blanks, stops⟩ := ends
  rw [flowSupported_blanks_iff blanks] at supported
  cases text with
  | nil => exact (flowSupported_blanks_iff blanks).mpr supported
  | cons char later =>
    have notStructural := closed.not_structural
    have notSeparator : ¬ isSeparator char = true := by
      obtain ⟨notSpace, notTab⟩ := begins char rfl
      simp only [startsFlow, List.head?_cons, Bool.or_eq_false_iff,
        beq_eq_false_iff_ne, ne_eq, Option.some.injEq] at plain
      simp only [Structural, not_or] at notStructural
      simp [isSeparator, notSpace, notTab, plain, notStructural]
    have read :
        readFlowScalar (char :: later ++ (pad ++ behind)) =
          (rtrim (char :: later), behind) := by
      rw [readFlowScalar, closed, cutFlowScalar_ends blanks stops]
      dsimp only
      rw [rtrim_append_blanks blanks]
    intro fuel scalar member
    cases fuel with
    | zero => cases member
    | succ fuel =>
      rw [List.cons_append] at read member
      rw [flowScalars, if_neg notSeparator, read] at member
      dsimp only at member
      split at member
      · exact supported fuel scalar member
      · rcases List.mem_cons.mp member with rfl | later
        · exact supportedText
        · exact supported fuel scalar later

theorem endsValue_blanks (blanks : Blanks pad) (structural : Structural char) :
    EndsValue (pad ++ char :: behind) :=
  ⟨pad, char :: behind, rfl, blanks, .inr ⟨char, rfl, structural⟩⟩

/-- What may stand behind a part of a flow collection. -/
def Part.EndedBy (part : Part) (rest : Str) : Prop :=
  match part with
  | .node _ => EndsValue rest
  | _ => True

/-- A flow collection that was read has no unsupported scalar. -/
theorem FlowReads.supported
    {line : Nat} {part : Part} (reads : FlowReads line text part) :
    ∀ {rest},
      part.EndedBy rest →
        FlowSupported rest → FlowSupported (text ++ rest) := by
  induction reads with
  | seq blanks reads inductionHypothesis =>
    intro rest _ supported
    rw [List.append_assoc, flowSupported_blanks_iff blanks]
    exact (flowSupported_cons_iff rfl).mpr
      (inductionHypothesis trivial supported)
  | map blanks reads inductionHypothesis =>
    intro rest _ supported
    rw [List.append_assoc, flowSupported_blanks_iff blanks]
    exact (flowSupported_cons_iff rfl).mpr
      (inductionHypothesis trivial supported)
  | scalar blanks begins plain closed made =>
    intro rest ends supported
    rw [List.append_assoc, flowSupported_blanks_iff blanks]
    exact flowSupported_scalar begins plain closed
      (beginsUnsupported_of_makeScalar made) ends supported
  | closeItems blanks =>
    intro rest _ supported
    rw [List.append_assoc, flowSupported_blanks_iff blanks]
    exact (flowSupported_cons_iff rfl).mpr supported
  | lastItem reads blanks inductionHypothesis =>
    intro rest _ supported
    rw [List.append_assoc, List.append_assoc]
    refine inductionHypothesis (endsValue_blanks blanks (.inr (.inl rfl))) ?_
    rw [flowSupported_blanks_iff blanks]
    exact (flowSupported_cons_iff rfl).mpr supported
  | nextItem reads blanks others inductionHypothesis othersHypothesis =>
    intro rest _ supported
    rw [List.append_assoc, List.append_assoc]
    refine inductionHypothesis (endsValue_blanks blanks (.inl rfl)) ?_
    rw [flowSupported_blanks_iff blanks]
    exact (flowSupported_cons_iff rfl).mpr (othersHypothesis trivial supported)
  | closeFields blanks =>
    intro rest _ supported
    rw [List.append_assoc, flowSupported_blanks_iff blanks]
    exact (flowSupported_cons_iff rfl).mpr supported
  | lastField blanks closed reads closes inductionHypothesis =>
    intro rest _ supported
    simp only [List.append_assoc, List.cons_append]
    rw [flowSupported_blanks_iff blanks]
    refine flowSupported_key closed ?_
    refine inductionHypothesis
      (endsValue_blanks closes (.inr (.inr (.inl rfl)))) ?_
    rw [flowSupported_blanks_iff closes]
    exact (flowSupported_cons_iff rfl).mpr supported
  | nextField blanks closed reads closes others inductionHypothesis
      othersHypothesis =>
      intro rest _ supported
      simp only [List.append_assoc, List.cons_append]
      rw [flowSupported_blanks_iff blanks]
      refine flowSupported_key closed ?_
      refine inductionHypothesis (endsValue_blanks closes (.inl rfl)) ?_
      rw [flowSupported_blanks_iff closes]
      exact (flowSupported_cons_iff rfl).mpr
        (othersHypothesis trivial supported)

/-- A value that was read has no unsupported scalar. -/
theorem InlineReads.supported
    {line : Nat} (reads : InlineReads line text node) :
    ∀ value ∈
        (if startsFlow text then flowScalars text.length text else [text]),
      beginsUnsupported value = false := by
  rw [InlineReads] at reads
  by_cases isFlow : startsFlow text = true
  · rw [if_pos isFlow] at reads ⊢
    obtain ⟨collection, pad, rfl, blanks, flowReads⟩ := reads
    have ends : EndsValue pad :=
      ⟨pad, [], (List.append_nil pad).symm, blanks, .inl rfl⟩
    have nothing : FlowSupported pad := by
      rw [← List.append_nil pad, flowSupported_blanks_iff blanks]
      exact flowSupported_nil
    exact flowReads.supported ends nothing _
  · rw [if_neg isFlow] at reads ⊢
    rw [List.forall_mem_singleton]
    exact beginsUnsupported_of_makeScalar reads

theorem Field.inlineText_eq
    {key value : Str} (field : Field indent line key value) :
    inlineText line = some value := by
  obtain ⟨colon, found, _, behind⟩ := field.split
  simp only [inlineText, field.fieldOf_eq, fieldValue, found,
    Option.map_some, behind]

theorem Dash.inlineText_eq
    (dash : Dash indent line rest) (inline : ¬ OpensMapping rest) :
    inlineText line = some rest := by
  rw [inlineText, dash.fieldOf_eq_none inline, dash.behind]

theorem Dash.inlineText_rewritten
    (dash : Dash indent line rest) (opens : OpensMapping rest)
    (notItem : isSeqItem (line.rewritten indent).text = false) :
    inlineText (line.rewritten indent) = inlineText line := by
  rw [inlineText, inlineText, dash.fieldOf_rewritten opens notItem,
    dash.fieldOf_eq opens]

/-- A line writes nothing, or something that was read. -/
def LineRead (line : Line) : Prop :=
  ∀ text,
    inlineText line = some text →
      text = [] ∨ ∃ node, InlineReads line.number text node

theorem lineRead_of_nil (nothing : inlineText line = some []) :
    LineRead line := by
  intro text written
  rw [nothing] at written
  exact .inl (Option.some.inj written).symm

theorem lineRead_of_reads {value : Str} (isValue : inlineText line = some value)
    (reads : InlineReads line.number value node) :
    LineRead line := by
  intro text written
  cases isValue.symm.trans written
  exact .inr ⟨node, reads⟩

theorem BlockReads.lineRead
    {lines : List Line} {part : Part} (reads : BlockReads indent lines part) :
    ∀ line ∈ lines, LineRead line := by
  have bare : ¬ OpensMapping [] := by
    rintro ⟨_, found⟩
    cases found
  induction reads with
  | seq _ _ inductionHypothesis => exact inductionHypothesis
  | map _ _ inductionHypothesis => exact inductionHypothesis
  | noItems => exact nofun
  | noFields => exact nofun
  | nestedItem dash _ _ _ block others =>
    rw [List.forall_mem_cons, List.forall_mem_append]
    exact ⟨lineRead_of_nil (dash.inlineText_eq bare), block, others⟩
  | emptyItem dash _ others =>
    rw [List.forall_mem_cons]
    exact ⟨lineRead_of_nil (dash.inlineText_eq bare), others⟩
  | @mappingItem _ line _ _ _ _ _ dash opens fieldsRead _ block others =>
    obtain ⟨first, inside⟩ := List.forall_mem_cons.mp block
    rw [LineRead, dash.inlineText_rewritten opens
      fieldsRead.notItem_of_fields] at first
    rw [List.forall_mem_cons, List.forall_mem_append]
    exact ⟨first, inside, others⟩
  | inlineItem dash _ inline value _ others =>
    rw [List.forall_mem_cons]
    exact ⟨lineRead_of_reads (dash.inlineText_eq inline) value, others⟩
  | inlineField field _ value _ others =>
    rw [List.forall_mem_cons]
    exact ⟨lineRead_of_reads field.inlineText_eq value, others⟩
  | nestedField field _ _ _ block others =>
    rw [List.forall_mem_cons, List.forall_mem_append]
    exact ⟨lineRead_of_nil field.inlineText_eq, block, others⟩
  | sequenceField field _ _ _ block others =>
    rw [List.forall_mem_cons, List.forall_mem_append]
    exact ⟨lineRead_of_nil field.inlineText_eq, block, others⟩
  | nullField field _ others =>
    rw [List.forall_mem_cons]
    exact ⟨lineRead_of_nil field.inlineText_eq, others⟩

/-- In a reading no value begins with an indicator. -/
theorem DocumentReads.supported
    {lines : List Line} {root : Node} (reads : DocumentReads lines root) :
    ∀ line ∈ lines, ∀ value ∈ writtenValues line,
      beginsUnsupported value = false := by
  intro line member value written
  cases lines with
  | nil => cases member
  | cons first later =>
    have lineRead := BlockReads.lineRead reads line member
    rw [writtenValues] at written
    split at written
    · cases written
    next text isText =>
      rcases lineRead text isText with rfl | ⟨node, valueReads⟩
      · cases List.mem_singleton.mp written
        rfl
      · exact valueReads.supported value written

theorem ContentBeforeTabs.tail {raw : Str} {later : List Str}
    (content : ContentBeforeTabs (raw :: later))
    (empty : hasContent raw = false) :
    ContentBeforeTabs later := by
  rintro before other after rfl isTab
  obtain ⟨earlier, member, full⟩ :=
    content (raw :: before) other after rfl isTab
  rcases List.mem_cons.mp member with rfl | inBefore
  · rw [empty] at full
    cases full
  · exact ⟨earlier, inBefore, full⟩

end Yaml

end Policyd
