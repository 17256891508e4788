import Policyd.YamlParser

namespace Policyd

namespace Yaml

/-!
# How a document is read

A reading says which part of a text makes which part of the tree.  Its parts
are put together by concatenation, so every line of a block and every byte of a
flow collection is used exactly once, in order.  The parser gives a tree only
with a reading of everything it consumed, except that an item such as
`- - a: 1` is rewritten and left over, so that the text is refused.
-/

/-- A part of a tree. -/
inductive Part where
  | node (node : Node)
  | items (items : List Node)
  | fields (fields : List (Str × Node))

/-- Blanks between the parts of a flow collection. -/
def Blanks (text : Str) : Prop :=
  ∀ char ∈ text, char = ' ' ∨ char = '\t'

/-- A text that has no structural byte outside quotes and no open quote. -/
def Closed (text : Str) : Prop :=
  ∀ rest,
    cutFlowScalar false false (text ++ rest) =
      (text ++ (cutFlowScalar false false rest).1,
        (cutFlowScalar false false rest).2)

/-- The reading of a flow collection, and of the inside of one. -/
inductive FlowReads (line : Nat) : Str → Part → Prop
  | seq {pad body : Str} {items : List Node}
      (blanks : Blanks pad)
      (reads : FlowReads line body (.items items)) :
      FlowReads line (pad ++ '[' :: body) (.node (.seq line items))
  | map {pad body : Str} {fields : List (Str × Node)}
      (blanks : Blanks pad)
      (reads : FlowReads line body (.fields fields)) :
      FlowReads line (pad ++ '\x7b' :: body) (.node (.map line fields))
  | scalar {pad text : Str} {node : Node}
      (blanks : Blanks pad)
      (begins : ∀ char ∈ text.head?, char ≠ ' ' ∧ char ≠ '\t')
      (plain : startsFlow text = false)
      (closed : Closed text)
      (made : makeScalar (rtrim text) line = .ok node) :
      FlowReads line (pad ++ text) (.node node)
  | closeItems {pad : Str}
      (blanks : Blanks pad) :
      FlowReads line (pad ++ [']']) (.items [])
  | lastItem {value pad : Str} {node : Node}
      (reads : FlowReads line value (.node node))
      (blanks : Blanks pad) :
      FlowReads line (value ++ (pad ++ [']'])) (.items [node])
  | nextItem {value pad rest : Str} {node : Node} {items : List Node}
      (reads : FlowReads line value (.node node))
      (blanks : Blanks pad)
      (others : FlowReads line rest (.items items)) :
      FlowReads line (value ++ (pad ++ ',' :: rest))
        (.items (node :: items))
  | closeFields {pad : Str}
      (blanks : Blanks pad) :
      FlowReads line (pad ++ ['\x7d']) (.fields [])
  | lastField {pad key value closing : Str} {node : Node}
      (blanks : Blanks pad)
      (closed : Closed key)
      (reads : FlowReads line value (.node node))
      (closes : Blanks closing) :
      FlowReads line
        (pad ++ (key ++ ':' :: (value ++ (closing ++ ['\x7d']))))
        (.fields [(unquote (rtrim key), node)])
  | nextField {pad key value closing rest : Str} {node : Node}
      {fields : List (Str × Node)}
      (blanks : Blanks pad)
      (closed : Closed key)
      (reads : FlowReads line value (.node node))
      (closes : Blanks closing)
      (others : FlowReads line rest (.fields fields)) :
      FlowReads line
        (pad ++ (key ++ ':' :: (value ++ (closing ++ ',' :: rest))))
        (.fields ((unquote (rtrim key), node) :: fields))

/-- The reading of a value that stands behind its key or its dash. -/
def InlineReads (line : Nat) (text : Str) (node : Node) : Prop :=
  if startsFlow text then
    ∃ collection pad,
      text = collection ++ pad ∧ Blanks pad ∧
        FlowReads line collection (.node node)
  else
    makeScalar text line = .ok node

theorem bind_eq_ok
    {Value Result : Type} {first : Parse Value} {next : Value → Parse Result}
    {result : Result}
    (returned : (first >>= next) = .ok result) :
    ∃ value, first = .ok value ∧ next value = .ok result := by
  cases first with
  | error failure => cases returned
  | ok value => exact ⟨value, rfl, returned⟩

theorem exists_blanks (text : Str) :
    ∃ pad, Blanks pad ∧ text = pad ++ skipBlanks text := by
  refine ⟨text.takeWhile fun char => char == ' ' || char == '\t', ?_, ?_⟩
  · intro char member
    simpa using List.mem_takeWhile_imp member
  · exact List.takeWhile_append_dropWhile.symm

variable {text rest : Str} {fuel indent : Nat} {line : Line}
  {later unread : List Line} {fields : List (Str × Node)}

theorem not_blank_of_skipBlanks
    {char : Char} (skipped : skipBlanks text = char :: rest) :
    char ≠ ' ' ∧ char ≠ '\t' := by
  rw [skipBlanks] at skipped
  have notBlank :=
    List.head_dropWhile_not (fun char => char == ' ' || char == '\t')
      (skipped ▸ List.cons_ne_nil char rest)
  simpa [skipped] using notBlank

theorem Blanks.append {first second : Str}
    (firstBlanks : Blanks first) (secondBlanks : Blanks second) :
    Blanks (first ++ second) := by
  intro char member
  rcases List.mem_append.mp member with inFirst | inSecond
  · exact firstBlanks char inFirst
  · exact secondBlanks char inSecond

/-- Blanks may stand in front of a value. -/
theorem FlowReads.padded {line : Nat} {pad : Str} {node : Node}
    (blanks : Blanks pad) (reads : FlowReads line text (.node node)) :
    FlowReads line (pad ++ text) (.node node) := by
  cases reads with
  | seq inner items =>
    rw [← List.append_assoc]
    exact .seq (blanks.append inner) items
  | map inner fields =>
    rw [← List.append_assoc]
    exact .map (blanks.append inner) fields
  | scalar inner begins plain closed made =>
    rw [← List.append_assoc]
    exact .scalar (blanks.append inner) begins plain closed made

/-- A byte that ends a flow scalar. -/
def Structural (char : Char) : Prop :=
  char = ',' ∨ char = ']' ∨ char = '\x7d' ∨ char = ':'

/-- A scalar is cut off at a structural byte outside quotes. -/
theorem cutFlowScalar_spec (inSingle inDouble : Bool) (text : Str) :
    text =
        (cutFlowScalar inSingle inDouble text).1 ++
          (cutFlowScalar inSingle inDouble text).2 ∧
      ((cutFlowScalar inSingle inDouble text).2 = [] ∨
        (∃ char ∈ (cutFlowScalar inSingle inDouble text).2.head?,
          Structural char) ∧
        ∀ rest,
          cutFlowScalar inSingle inDouble
              ((cutFlowScalar inSingle inDouble text).1 ++ rest) =
            ((cutFlowScalar inSingle inDouble text).1 ++
                (cutFlowScalar false false rest).1,
              (cutFlowScalar false false rest).2)) := by
  induction text generalizing inSingle inDouble with
  | nil => exact ⟨rfl, .inl rfl⟩
  | cons char later inductionHypothesis =>
    rw [cutFlowScalar]
    by_cases single : char = '\'' ∧ inDouble = false
    · obtain ⟨joined, ends⟩ := inductionHypothesis (!inSingle) inDouble
      rw [if_pos single]
      refine ⟨congrArg (char :: ·) joined, ends.imp_right ?_⟩
      rintro ⟨stops, closed⟩
      refine ⟨stops, fun rest => ?_⟩
      rw [List.cons_append, cutFlowScalar, if_pos single, closed rest]
      rfl
    rw [if_neg single]
    by_cases double : char = '"' ∧ inSingle = false
    · obtain ⟨joined, ends⟩ := inductionHypothesis inSingle (!inDouble)
      rw [if_pos double]
      refine ⟨congrArg (char :: ·) joined, ends.imp_right ?_⟩
      rintro ⟨stops, closed⟩
      refine ⟨stops, fun rest => ?_⟩
      rw [List.cons_append, cutFlowScalar, if_neg single,
        if_pos double, closed rest]
      rfl
    rw [if_neg double]
    by_cases structural :
        inSingle = false ∧ inDouble = false ∧
          (char = ',' ∨ char = ']' ∨ char = '\x7d' ∨ char = ':')
    · rw [if_pos structural]
      obtain ⟨rfl, rfl, stops⟩ := structural
      exact ⟨rfl, .inr ⟨⟨char, rfl, stops⟩, fun rest => rfl⟩⟩
    rw [if_neg structural]
    obtain ⟨joined, ends⟩ := inductionHypothesis inSingle inDouble
    refine ⟨congrArg (char :: ·) joined, ends.imp_right ?_⟩
    rintro ⟨stops, closed⟩
    refine ⟨stops, fun rest => ?_⟩
    rw [List.cons_append, cutFlowScalar, if_neg single, if_neg double,
      if_neg structural, closed rest]
    rfl

theorem readFlowScalar_spec (text : Str) :
    ∃ cut,
      text = cut ++ (readFlowScalar text).2 ∧
        (readFlowScalar text).1 = rtrim cut ∧
        ((readFlowScalar text).2 = [] ∨
          (∃ char ∈ (readFlowScalar text).2.head?, Structural char) ∧
            Closed cut) := by
  obtain ⟨joined, ends⟩ := cutFlowScalar_spec false false text
  exact ⟨_, joined, rfl, ends⟩

theorem skipBlanks_structural (stops : ∃ char ∈ text.head?, Structural char) :
    skipBlanks text = text := by
  obtain ⟨char, isHead, structural⟩ := stops
  cases text with
  | nil => cases isHead
  | cons first rest =>
    cases isHead
    rcases structural with rfl | rfl | rfl | rfl <;> rfl

/-- A part of a text that was read, in front of what is unread. -/
def FlowConsumes (line : Nat) (text : Str) (part : Part) (unread : Str) :
    Prop :=
  ∃ consumed, text = consumed ++ unread ∧ FlowReads line consumed part

/--
What the flow parser returns with a given amount of fuel is a reading, unless a
scalar goes on to the end of the text.
-/
structure FlowSound (fuel : Nat) : Prop where
  value :
    ∀ {line text node unread},
      parseFlowValue fuel line text = .ok (node, unread) →
        unread = [] ∧ startsFlow (skipBlanks text) = false ∨
          FlowConsumes line text (.node node) unread
  items :
    ∀ {line text items unread},
      parseFlowItems fuel line text = .ok (items, unread) →
        FlowConsumes line text (.items items) unread
  fields :
    ∀ {line text fields unread},
      parseFlowFields fuel line text = .ok (fields, unread) →
        FlowConsumes line text (.fields fields) unread

namespace FlowSound

variable {fuel line : Nat} {text unread : Str}

/-- A flow value is read when its parts are. -/
private theorem value_succ (smaller : FlowSound fuel) {node : Node}
    (parsed : parseFlowValue (fuel + 1) line text = .ok (node, unread)) :
    unread = [] ∧ startsFlow (skipBlanks text) = false ∨
      FlowConsumes line text (.node node) unread := by
  obtain ⟨pad, blanks, padded⟩ := exists_blanks text
  unfold parseFlowValue at parsed
  cases shape : skipBlanks text with
  | nil =>
    rw [shape] at parsed
    cases parsed
  | cons char rest =>
    rw [shape] at parsed padded
    dsimp only at parsed
    by_cases isSeq : char = '['
    · rw [if_pos isSeq] at parsed
      obtain ⟨⟨items, behind⟩, inner, returned⟩ := bind_eq_ok parsed
      cases returned
      obtain ⟨consumed, rfl, reads⟩ := smaller.items inner
      exact .inr ⟨pad ++ '[' :: consumed, by simp [padded, isSeq],
        .seq blanks reads⟩
    rw [if_neg isSeq] at parsed
    by_cases isMap : char = '\x7b'
    · rw [if_pos isMap] at parsed
      obtain ⟨⟨fields, behind⟩, inner, returned⟩ := bind_eq_ok parsed
      cases returned
      obtain ⟨consumed, rfl, reads⟩ := smaller.fields inner
      exact .inr ⟨pad ++ '\x7b' :: consumed, by simp [padded, isMap],
        .map blanks reads⟩
    rw [if_neg isMap] at parsed
    obtain ⟨made, isMade, returned⟩ := bind_eq_ok parsed
    cases returned
    have plain : startsFlow (char :: rest) = false := by
      simp [startsFlow, isSeq, isMap]
    obtain ⟨cut, joined, scalar, ends⟩ := readFlowScalar_spec (char :: rest)
    rcases ends with atEnd | ⟨_, closed⟩
    · exact .inl ⟨atEnd, plain⟩
    refine .inr ⟨pad ++ cut, ?_, ?_⟩
    · rw [padded, List.append_assoc, ← joined]
    · rw [scalar] at isMade
      cases cut with
      | nil => exact .scalar blanks nofun rfl closed isMade
      | cons first later =>
        obtain ⟨rfl, _⟩ := List.cons.inj joined
        refine .scalar blanks ?_ plain closed isMade
        intro other isHead
        cases isHead
        exact not_blank_of_skipBlanks shape

/-- The items of a flow sequence are read when their parts are. -/
private theorem items_succ (smaller : FlowSound fuel) {items : List Node}
    (parsed : parseFlowItems (fuel + 1) line text = .ok (items, unread)) :
    FlowConsumes line text (.items items) unread := by
  obtain ⟨pad, blanks, padded⟩ := exists_blanks text
  unfold parseFlowItems at parsed
  cases shape : skipBlanks text with
  | nil =>
    rw [shape] at parsed
    cases parsed
  | cons char rest =>
    rw [shape] at parsed padded
    dsimp only at parsed
    by_cases isClose : char = ']'
    · rw [if_pos isClose] at parsed
      cases parsed
      exact ⟨pad ++ [']'], by simp [padded, isClose], .closeItems blanks⟩
    rw [if_neg isClose] at parsed
    obtain ⟨⟨node, behind⟩, first, next⟩ := bind_eq_ok parsed
    rcases smaller.value first with ⟨rfl, _⟩ | ⟨value, joined, reads⟩
    · cases next
    obtain ⟨closing, closes, closed⟩ := exists_blanks behind
    have reads := reads.padded blanks
    dsimp only at next
    split at next
    next later laterShape =>
      obtain ⟨⟨others, last⟩, inner, returned⟩ := bind_eq_ok next
      cases returned
      obtain ⟨consumed, rfl, othersRead⟩ := smaller.items inner
      refine ⟨_, ?_, .nextItem reads closes othersRead⟩
      rw [padded, joined, closed, laterShape]
      simp
    next later laterShape =>
      cases next
      refine ⟨_, ?_, .lastItem reads closes⟩
      rw [padded, joined, closed, laterShape]
      simp
    next =>
      cases next

/-- The fields of a flow mapping are read when their parts are. -/
private theorem fields_succ (smaller : FlowSound fuel)
    {fields : List (Str × Node)}
    (parsed : parseFlowFields (fuel + 1) line text = .ok (fields, unread)) :
    FlowConsumes line text (.fields fields) unread := by
  obtain ⟨pad, blanks, padded⟩ := exists_blanks text
  unfold parseFlowFields at parsed
  cases shape : skipBlanks text with
  | nil =>
    rw [shape] at parsed
    cases parsed
  | cons char rest =>
    rw [shape] at parsed padded
    dsimp only at parsed
    by_cases isClose : char = '\x7d'
    · rw [if_pos isClose] at parsed
      cases parsed
      exact ⟨pad ++ ['\x7d'], by simp [padded, isClose], .closeFields blanks⟩
    rw [if_neg isClose] at parsed
    obtain ⟨key, joined, isKey, ends⟩ := readFlowScalar_spec (char :: rest)
    rcases ends with atEnd | ⟨stops, keyClosed⟩
    · rw [atEnd] at parsed
      cases parsed
    rw [skipBlanks_structural stops, isKey] at parsed
    split at parsed
    next behind behindShape =>
      rw [behindShape] at joined
      obtain ⟨⟨node, behindValue⟩, first, next⟩ := bind_eq_ok parsed
      rcases smaller.value first with
        ⟨rfl, _⟩ | ⟨value, valueJoined, reads⟩
      · cases next
      obtain ⟨closing, closes, closed⟩ := exists_blanks behindValue
      dsimp only at next
      split at next
      next later laterShape =>
        obtain ⟨⟨others, last⟩, inner, returned⟩ := bind_eq_ok next
        cases returned
        obtain ⟨consumed, rfl, othersRead⟩ := smaller.fields inner
        refine ⟨_, ?_, .nextField blanks keyClosed reads closes othersRead⟩
        rw [padded, joined, valueJoined, closed, laterShape]
        simp
      next later laterShape =>
        cases next
        refine ⟨_, ?_, .lastField blanks keyClosed reads closes⟩
        rw [padded, joined, valueJoined, closed, laterShape]
        simp
      next =>
        cases next
    next =>
      cases parsed

end FlowSound

/-- What the flow parser returns is a reading. -/
theorem flow_sound (fuel : Nat) :
    FlowSound fuel := by
  induction fuel with
  | zero =>
    exact {
      value := nofun
      items := nofun
      fields := nofun
    }
  | succ fuel inductionHypothesis =>
    exact {
      value := inductionHypothesis.value_succ
      items := inductionHypothesis.items_succ
      fields := inductionHypothesis.fields_succ
    }

/-- A value that was parsed is read to the end of its text. -/
theorem parseInline_sound
    {line : Nat} {node : Node} (parsed : parseInline text line = .ok node) :
    InlineReads line text node := by
  unfold parseInline at parsed
  unfold InlineReads
  by_cases isFlow : startsFlow text = true
  · rw [if_pos isFlow, parseFlow] at parsed
    rw [if_pos isFlow]
    obtain ⟨⟨value, unread⟩, inner, returned⟩ := bind_eq_ok parsed
    dsimp only at returned
    have noBlanks : skipBlanks text = text := by
      cases text with
      | nil => rfl
      | cons char rest =>
        have opens : char = '[' ∨ char = '\x7b' := by
          simpa [startsFlow] using isFlow
        rcases opens with rfl | rfl <;> rfl
    obtain ⟨pad, blanks, padded⟩ := exists_blanks unread
    rcases (flow_sound _).value inner with
      ⟨_, plain⟩ | ⟨collection, joined, reads⟩
    · rw [noBlanks, isFlow] at plain
      cases plain
    by_cases ends : skipBlanks unread = []
    · rw [if_pos ends] at returned
      cases returned
      rw [ends, List.append_nil] at padded
      exact ⟨collection, unread, joined, padded ▸ blanks, reads⟩
    · rw [if_neg ends] at returned
      cases returned
  · rw [if_neg isFlow] at parsed ⊢
    exact parsed

/-- A line that starts an item, and the text behind its dash. -/
structure Dash (indent : Nat) (line : Line) (rest : Str) : Prop where
  atIndent : line.indent = indent
  isItem : isSeqItem line.text = true
  behind : trim (line.text.drop 1) = rest

/-- A line that starts a field, its key and the text behind its colon. -/
structure Field (indent : Nat) (line : Line) (key value : Str) : Prop where
  atIndent : line.indent = indent
  notItem : isSeqItem line.text = false
  keyed : key ≠ []
  split :
    ∃ colon,
      keySplit line.text = some colon ∧
        unquote (line.text.take colon) = key ∧
        trim (line.text.drop (colon + 1)) = value

/-- An item that is rewritten as the first line of a mapping. -/
def OpensMapping (rest : Str) : Prop :=
  startsFlow rest = false ∧ (keySplit rest).isSome = true

/-- The line of an item, rewritten as the first line of a mapping. -/
def Line.rewritten (indent : Nat) (line : Line) : Line :=
  { line with indent := indent + 2, text := trim (line.text.drop 1) }

/-- The reading of lines as a block, as items or as fields. -/
inductive BlockReads : Nat → List Line → Part → Prop
  | seq {line : Line} {later : List Line} {items : List Node}
      (isItem : isSeqItem line.text = true)
      (reads : BlockReads line.indent (line :: later) (.items items)) :
      BlockReads line.indent (line :: later)
        (.node (.seq line.number items))
  | map {line : Line} {later : List Line} {fields : List (Str × Node)}
      (notItem : isSeqItem line.text = false)
      (reads : BlockReads line.indent (line :: later) (.fields fields)) :
      BlockReads line.indent (line :: later)
        (.node (.map line.number fields))
  | noItems {indent : Nat} :
      BlockReads indent [] (.items [])
  | nestedItem {indent inner : Nat} {line : Line} {block rest : List Line}
      {node : Node} {items : List Node}
      (dash : Dash indent line [])
      (deeper : indent < inner)
      (reads : BlockReads inner block (.node node))
      (others : BlockReads indent rest (.items items)) :
      BlockReads indent (line :: (block ++ rest)) (.items (node :: items))
  | emptyItem {indent : Nat} {line : Line} {rest : List Line}
      {items : List Node}
      (dash : Dash indent line [])
      (others : BlockReads indent rest (.items items)) :
      BlockReads indent (line :: rest) (.items (.null line.number :: items))
  | mappingItem {indent : Nat} {line : Line} {text : Str}
      {block rest : List Line} {fields : List (Str × Node)}
      {items : List Node}
      (dash : Dash indent line text)
      (opens : OpensMapping text)
      (reads :
        BlockReads (indent + 2) (line.rewritten indent :: block)
          (.fields fields))
      (others : BlockReads indent rest (.items items)) :
      BlockReads indent (line :: (block ++ rest))
        (.items (.map line.number fields :: items))
  | inlineItem {indent : Nat} {line : Line} {text : Str}
      {rest : List Line} {node : Node} {items : List Node}
      (dash : Dash indent line text)
      (nonempty : text ≠ [])
      (inline : ¬ OpensMapping text)
      (reads : InlineReads line.number text node)
      (others : BlockReads indent rest (.items items)) :
      BlockReads indent (line :: rest) (.items (node :: items))
  | noFields {indent : Nat} :
      BlockReads indent [] (.fields [])
  | inlineField {indent : Nat} {line : Line} {key value : Str}
      {rest : List Line} {node : Node} {fields : List (Str × Node)}
      (field : Field indent line key value)
      (nonempty : value ≠ [])
      (reads : InlineReads line.number value node)
      (others : BlockReads indent rest (.fields fields)) :
      BlockReads indent (line :: rest) (.fields ((key, node) :: fields))
  | nestedField {indent inner : Nat} {line : Line} {key : Str}
      {block rest : List Line} {node : Node} {fields : List (Str × Node)}
      (field : Field indent line key [])
      (deeper : indent < inner)
      (reads : BlockReads inner block (.node node))
      (others : BlockReads indent rest (.fields fields)) :
      BlockReads indent (line :: (block ++ rest))
        (.fields ((key, node) :: fields))
  | sequenceField {indent : Nat} {line first : Line} {key : Str}
      {block rest : List Line} {items : List Node}
      {fields : List (Str × Node)}
      (field : Field indent line key [])
      (isItem : isSeqItem first.text = true)
      (reads : BlockReads indent (first :: block) (.items items))
      (others : BlockReads indent rest (.fields fields)) :
      BlockReads indent (line :: (first :: block ++ rest))
        (.fields ((key, .seq first.number items) :: fields))
  | nullField {indent : Nat} {line : Line} {key : Str}
      {rest : List Line} {fields : List (Str × Node)}
      (field : Field indent line key [])
      (others : BlockReads indent rest (.fields fields)) :
      BlockReads indent (line :: rest)
        (.fields ((key, .null line.number) :: fields))

/-- What one round over the items of a sequence can do. -/
inductive ItemsStep (fuel : Nat) (line : Line) (later : List Line)
    (indent : Nat) : List Node → List Line → Prop
  | ends
      (elsewhere : line.indent ≠ indent ∨ isSeqItem line.text = false) :
      ItemsStep fuel line later indent [] (line :: later)
  | nested {next : Line} {rest unread last : List Line} {node : Node}
      {items : List Node}
      (dash : Dash indent line [])
      (follows : later = next :: rest)
      (deeper : indent < next.indent)
      (block : parseBlock fuel later next.indent = .ok (node, unread))
      (others : parseSeqItems fuel unread indent = .ok (items, last)) :
      ItemsStep fuel line later indent (node :: items) last
  | empty {last : List Line} {items : List Node}
      (dash : Dash indent line [])
      (others :
        later = [] ∧ items = [] ∧ last = [] ∨
          parseSeqItems fuel later indent = .ok (items, last)) :
      ItemsStep fuel line later indent (.null line.number :: items) last
  | mapping {text : Str} {unread last : List Line}
      {fields : List (Str × Node)} {items : List Node}
      (dash : Dash indent line text)
      (opens : OpensMapping text)
      (block :
        parseMapFields fuel (line.rewritten indent :: later) (indent + 2) =
          .ok (fields, unread))
      (others : parseSeqItems fuel unread indent = .ok (items, last)) :
      ItemsStep fuel line later indent (.map line.number fields :: items)
        last
  | inline {text : Str} {last : List Line} {node : Node}
      {items : List Node}
      (dash : Dash indent line text)
      (nonempty : text ≠ [])
      (inline : ¬ OpensMapping text)
      (value : parseInline text line.number = .ok node)
      (others : parseSeqItems fuel later indent = .ok (items, last)) :
      ItemsStep fuel line later indent (node :: items) last

/-- A round over the items of a sequence that succeeds. -/
theorem itemsStep_of_ok {items : List Node}
    (parsed :
      parseSeqItems (fuel + 1) (line :: later) indent = .ok (items, unread)) :
    ItemsStep fuel line later indent items unread := by
  unfold parseSeqItems at parsed
  by_cases elsewhere : line.indent ≠ indent ∨ isSeqItem line.text = false
  · rw [if_pos elsewhere] at parsed
    cases parsed
    exact .ends elsewhere
  rw [if_neg elsewhere] at parsed
  obtain ⟨atIndent, isItem⟩ :
      line.indent = indent ∧ isSeqItem line.text = true := by
    simpa [not_or] using elsewhere
  dsimp only at parsed
  by_cases bare : trim (line.text.drop 1) = []
  · rw [if_pos bare] at parsed
    have dash : Dash indent line [] := ⟨atIndent, isItem, bare⟩
    split at parsed
    next next rest =>
      by_cases deeper : indent < next.indent
      · rw [if_pos deeper] at parsed
        obtain ⟨⟨node, behind⟩, block, parsed⟩ := bind_eq_ok parsed
        obtain ⟨⟨others, last⟩, step, returned⟩ := bind_eq_ok parsed
        cases returned
        exact .nested dash rfl deeper block step
      · rw [if_neg deeper] at parsed
        obtain ⟨⟨others, last⟩, step, returned⟩ := bind_eq_ok parsed
        cases returned
        exact .empty dash (.inr step)
    next =>
      cases parsed
      exact .empty dash (.inl ⟨rfl, rfl, rfl⟩)
  rw [if_neg bare] at parsed
  have dash : Dash indent line (trim (line.text.drop 1)) :=
    ⟨atIndent, isItem, rfl⟩
  split at parsed
  next opens =>
    obtain ⟨⟨fields, behind⟩, block, parsed⟩ := bind_eq_ok parsed
    obtain ⟨⟨others, last⟩, step, returned⟩ := bind_eq_ok parsed
    cases returned
    exact .mapping dash opens block step
  next opens =>
    obtain ⟨node, value, parsed⟩ := bind_eq_ok parsed
    obtain ⟨⟨others, last⟩, step, returned⟩ := bind_eq_ok parsed
    cases returned
    exact .inline dash bare opens value step

/-- What one round over the fields of a mapping can do. -/
inductive FieldsStep (fuel : Nat) (line : Line) (later : List Line)
    (indent : Nat) : List (Str × Node) → List Line → Prop
  | ends
      (elsewhere :
        line.indent < indent ∨
          line.indent = indent ∧ isSeqItem line.text = true) :
      FieldsStep fuel line later indent [] (line :: later)
  | inline {key value : Str} {last : List Line} {node : Node}
      {fields : List (Str × Node)}
      (field : Field indent line key value)
      (nonempty : value ≠ [])
      (reads : parseInline value line.number = .ok node)
      (others : parseMapFields fuel later indent = .ok (fields, last)) :
      FieldsStep fuel line later indent ((key, node) :: fields) last
  | nested {key : Str} {next : Line} {rest unread last : List Line}
      {node : Node} {fields : List (Str × Node)}
      (field : Field indent line key [])
      (follows : later = next :: rest)
      (deeper : indent < next.indent)
      (block : parseBlock fuel later next.indent = .ok (node, unread))
      (others : parseMapFields fuel unread indent = .ok (fields, last)) :
      FieldsStep fuel line later indent ((key, node) :: fields) last
  | sequence {key : Str} {next : Line} {rest unread last : List Line}
      {items : List Node} {fields : List (Str × Node)}
      (field : Field indent line key [])
      (follows : later = next :: rest)
      (atIndent : next.indent = indent)
      (isItem : isSeqItem next.text = true)
      (block : parseSeqItems fuel later indent = .ok (items, unread))
      (others : parseMapFields fuel unread indent = .ok (fields, last)) :
      FieldsStep fuel line later indent
        ((key, .seq next.number items) :: fields) last
  | null {key : Str} {last : List Line} {fields : List (Str × Node)}
      (field : Field indent line key [])
      (others :
        later = [] ∧ fields = [] ∧ last = [] ∨
          parseMapFields fuel later indent = .ok (fields, last)) :
      FieldsStep fuel line later indent
        ((key, .null line.number) :: fields) last

/-- A round over the fields of a mapping that succeeds. -/
theorem fieldsStep_of_ok
    (parsed :
      parseMapFields (fuel + 1) (line :: later) indent = .ok (fields, unread)) :
    FieldsStep fuel line later indent fields unread := by
  unfold parseMapFields at parsed
  by_cases shallower : line.indent < indent
  · rw [if_pos shallower] at parsed
    cases parsed
    exact .ends (.inl shallower)
  rw [if_neg shallower] at parsed
  by_cases deeper : indent < line.indent
  · rw [if_pos deeper] at parsed
    cases parsed
  rw [if_neg deeper] at parsed
  have atIndent : line.indent = indent := by
    omega
  by_cases isItem : isSeqItem line.text = true
  · rw [if_pos isItem] at parsed
    cases parsed
    exact .ends (.inr ⟨atIndent, isItem⟩)
  rw [if_neg isItem] at parsed
  split at parsed
  next =>
    cases parsed
  next colon isColon =>
    dsimp only at parsed
    by_cases noKey : unquote (line.text.take colon) = []
    · rw [if_pos noKey] at parsed
      cases parsed
    rw [if_neg noKey] at parsed
    have field :
        Field indent line (unquote (line.text.take colon))
          (trim (line.text.drop (colon + 1))) :=
      ⟨atIndent, Bool.not_eq_true _ ▸ isItem, noKey, colon, isColon, rfl, rfl⟩
    by_cases inline : trim (line.text.drop (colon + 1)) ≠ []
    · rw [if_pos inline] at parsed
      obtain ⟨node, reads, parsed⟩ := bind_eq_ok parsed
      obtain ⟨⟨others, last⟩, step, returned⟩ := bind_eq_ok parsed
      cases returned
      exact .inline field inline reads step
    rw [if_neg inline] at parsed
    rw [not_not.mp inline] at field
    split at parsed
    next next rest =>
      by_cases below : indent < next.indent
      · rw [if_pos below] at parsed
        obtain ⟨⟨node, behind⟩, block, parsed⟩ := bind_eq_ok parsed
        obtain ⟨⟨others, last⟩, step, returned⟩ := bind_eq_ok parsed
        cases returned
        exact .nested field rfl below block step
      rw [if_neg below] at parsed
      split at parsed
      next isSequence =>
        obtain ⟨⟨items, behind⟩, block, parsed⟩ := bind_eq_ok parsed
        obtain ⟨⟨others, last⟩, step, returned⟩ := bind_eq_ok parsed
        cases returned
        exact .sequence field rfl isSequence.1 isSequence.2 block step
      next =>
        obtain ⟨⟨others, last⟩, step, returned⟩ := bind_eq_ok parsed
        cases returned
        exact .null field (.inr step)
    next =>
      cases parsed
      exact .null field (.inl ⟨rfl, rfl, rfl⟩)

/-- The next line stands deeper than the block that left it. -/
def Stuck (indent : Nat) (unread : List Line) : Prop :=
  ∃ line rest, unread = line :: rest ∧ indent < line.indent

/-- A sequence leaves a deeper line where it is. -/
theorem Stuck.items {last : List Line} {items : List Node}
    (stuck : Stuck indent unread)
    (parsed : parseSeqItems fuel unread indent = .ok (items, last)) :
    Stuck indent last := by
  obtain ⟨line, rest, rfl, deeper⟩ := stuck
  cases fuel with
  | zero => cases parsed
  | succ fuel =>
    have notHere {text : Str} (dash : Dash indent line text) : False :=
      deeper.ne dash.atIndent.symm
    cases itemsStep_of_ok parsed with
    | ends elsewhere => exact ⟨line, rest, rfl, deeper⟩
    | nested dash => exact (notHere dash).elim
    | empty dash => exact (notHere dash).elim
    | mapping dash => exact (notHere dash).elim
    | inline dash => exact (notHere dash).elim

/-- A mapping refuses a deeper line. -/
theorem not_stuck_of_fields {last : List Line}
    (parsed : parseMapFields fuel unread indent = .ok (fields, last)) :
    ¬ Stuck indent unread := by
  rintro ⟨line, rest, rfl, deeper⟩
  cases fuel with
  | zero => cases parsed
  | succ fuel =>
    have notHere {key value : Str} (field : Field indent line key value) :
        False :=
      deeper.ne field.atIndent.symm
    cases fieldsStep_of_ok parsed with
    | ends elsewhere => omega
    | inline field => exact notHere field
    | nested field => exact notHere field
    | sequence field => exact notHere field
    | null field => exact notHere field

/--
What the block parser returns with a given amount of fuel is a reading of the
lines it consumed, unless it left a line that is stuck.
-/
structure BlockSound (fuel : Nat) : Prop where
  block :
    ∀ {line later node unread},
      parseBlock fuel (line :: later) line.indent = .ok (node, unread) →
        Stuck line.indent unread ∨
          ∃ block,
            later = block ++ unread ∧
              BlockReads line.indent (line :: block) (.node node)
  items :
    ∀ {lines indent items unread},
      parseSeqItems fuel lines indent = .ok (items, unread) →
        Stuck indent unread ∨
          ∃ consumed,
            lines = consumed ++ unread ∧
              BlockReads indent consumed (.items items)
  fields :
    ∀ {lines indent fields unread},
      parseMapFields fuel lines indent = .ok (fields, unread) →
        ∃ consumed,
          lines = consumed ++ unread ∧
            BlockReads indent consumed (.fields fields)

namespace BlockSound

variable {fuel indent : Nat} {line : Line} {later unread : List Line}

/-- A sequence consumes the line it starts at. -/
theorem items_cons (sound : BlockSound fuel) {items : List Node}
    (atIndent : line.indent = indent) (isItem : isSeqItem line.text = true)
    (parsed : parseSeqItems fuel (line :: later) indent = .ok (items, unread)) :
    Stuck indent unread ∨
      ∃ block,
        later = block ++ unread ∧
          BlockReads indent (line :: block) (.items items) := by
  rcases sound.items parsed with stuck | ⟨consumed, joined, reads⟩
  · exact .inl stuck
  · cases consumed with
    | nil =>
      cases reads
      cases fuel with
      | zero => cases parsed
      | succ fuel =>
        cases itemsStep_of_ok parsed with
        | ends elsewhere => simp [atIndent, isItem] at elsewhere
    | cons first block =>
      obtain ⟨rfl, rfl⟩ := List.cons.inj joined
      exact .inr ⟨block, rfl, reads⟩

/-- A mapping consumes the line it starts at. -/
theorem fields_cons (sound : BlockSound fuel) {fields : List (Str × Node)}
    (atIndent : line.indent = indent) (notItem : isSeqItem line.text = false)
    (parsed :
      parseMapFields fuel (line :: later) indent = .ok (fields, unread)) :
    ∃ block,
      later = block ++ unread ∧
        BlockReads indent (line :: block) (.fields fields) := by
  obtain ⟨consumed, joined, reads⟩ := sound.fields parsed
  cases consumed with
  | nil =>
    cases reads
    cases fuel with
    | zero => cases parsed
    | succ fuel =>
      cases fieldsStep_of_ok parsed with
      | ends elsewhere => simp [atIndent, notItem] at elsewhere
  | cons first block =>
    obtain ⟨rfl, rfl⟩ := List.cons.inj joined
    exact ⟨block, rfl, reads⟩

/-- A block is read when its content is. -/
private theorem block_succ (smaller : BlockSound fuel) {node : Node}
    (parsed :
      parseBlock (fuel + 1) (line :: later) line.indent = .ok (node, unread)) :
    Stuck line.indent unread ∨
      ∃ block,
        later = block ++ unread ∧
          BlockReads line.indent (line :: block) (.node node) := by
  rw [parseBlock] at parsed
  by_cases isItem : isSeqItem line.text = true
  · rw [if_pos isItem] at parsed
    obtain ⟨⟨items, last⟩, content, returned⟩ := bind_eq_ok parsed
    cases returned
    rcases smaller.items_cons rfl isItem content with
      stuck | ⟨block, joined, reads⟩
    · exact .inl stuck
    · exact .inr ⟨block, joined, .seq isItem reads⟩
  · rw [if_neg isItem] at parsed
    obtain ⟨⟨fields, last⟩, content, returned⟩ := bind_eq_ok parsed
    cases returned
    rw [Bool.not_eq_true] at isItem
    obtain ⟨block, joined, reads⟩ := smaller.fields_cons rfl isItem content
    exact .inr ⟨block, joined, .map isItem reads⟩

/-- The items of a sequence are read when their parts are. -/
private theorem items_succ (smaller : BlockSound fuel)
    {lines : List Line} {items : List Node}
    (parsed : parseSeqItems (fuel + 1) lines indent = .ok (items, unread)) :
    Stuck indent unread ∨
      ∃ consumed,
        lines = consumed ++ unread ∧
          BlockReads indent consumed (.items items) := by
  cases lines with
  | nil =>
    rw [parseSeqItems] at parsed
    cases parsed
    exact .inr ⟨[], rfl, .noItems⟩
  | cons line later =>
    cases itemsStep_of_ok parsed with
    | ends _ => exact .inr ⟨[], rfl, .noItems⟩
    | nested dash follows deeper block others =>
      subst follows
      rcases smaller.block block with stuck | ⟨inside, rfl, reads⟩
      · obtain ⟨left, rest, rfl, leftDeeper⟩ := stuck
        exact .inl (Stuck.items
          ⟨left, rest, rfl, deeper.trans leftDeeper⟩ others)
      rcases smaller.items others with stuck | ⟨rest, rfl, othersRead⟩
      · exact .inl stuck
      · exact .inr ⟨_, by simp, .nestedItem dash deeper reads othersRead⟩
    | empty dash others =>
      rcases others with ⟨rfl, rfl, rfl⟩ | others
      · exact .inr ⟨[line], rfl, .emptyItem dash .noItems⟩
      rcases smaller.items others with stuck | ⟨rest, rfl, othersRead⟩
      · exact .inl stuck
      · exact .inr ⟨_, rfl, .emptyItem dash othersRead⟩
    | mapping dash opens block others =>
      obtain ⟨consumed, joined, reads⟩ := smaller.fields block
      cases consumed with
      | nil =>
        -- Nothing fits the rewritten line: it is stuck.
        rw [List.nil_append] at joined
        refine .inl (Stuck.items ⟨_, _, joined.symm, ?_⟩ others)
        exact Nat.lt_add_of_pos_right (by decide)
      | cons first inside =>
        obtain ⟨rfl, rfl⟩ := List.cons.inj joined
        rcases smaller.items others with
          stuck | ⟨rest, rfl, othersRead⟩
        · exact .inl stuck
        · exact .inr ⟨_, by simp, .mappingItem dash opens reads othersRead⟩
    | inline dash nonempty inline value others =>
      rcases smaller.items others with stuck | ⟨rest, rfl, othersRead⟩
      · exact .inl stuck
      · exact .inr ⟨_, rfl, .inlineItem dash nonempty inline
          (parseInline_sound value) othersRead⟩

/-- The fields of a mapping are read when their parts are. -/
private theorem fields_succ (smaller : BlockSound fuel)
    {lines : List Line} {fields : List (Str × Node)}
    (parsed : parseMapFields (fuel + 1) lines indent = .ok (fields, unread)) :
    ∃ consumed,
      lines = consumed ++ unread ∧
        BlockReads indent consumed (.fields fields) := by
  cases lines with
  | nil =>
    rw [parseMapFields] at parsed
    cases parsed
    exact ⟨[], rfl, .noFields⟩
  | cons line later =>
    cases fieldsStep_of_ok parsed with
    | ends _ => exact ⟨[], rfl, .noFields⟩
    | inline field nonempty reads others =>
      obtain ⟨rest, rfl, othersRead⟩ := smaller.fields others
      exact ⟨_, rfl, .inlineField field nonempty
        (parseInline_sound reads) othersRead⟩
    | nested field follows deeper block others =>
      subst follows
      rcases smaller.block block with stuck | ⟨inside, rfl, reads⟩
      · obtain ⟨left, rest, rfl, leftDeeper⟩ := stuck
        exact (not_stuck_of_fields others
          ⟨left, rest, rfl, deeper.trans leftDeeper⟩).elim
      obtain ⟨rest, rfl, othersRead⟩ := smaller.fields others
      exact ⟨_, by simp, .nestedField field deeper reads othersRead⟩
    | sequence field follows atIndent isItem block others =>
      subst follows
      rcases smaller.items_cons atIndent isItem block with
        stuck | ⟨inside, rfl, reads⟩
      · exact (not_stuck_of_fields others stuck).elim
      obtain ⟨rest, rfl, othersRead⟩ := smaller.fields others
      exact ⟨_, by simp, .sequenceField field isItem reads othersRead⟩
    | null field others =>
      rcases others with ⟨rfl, rfl, rfl⟩ | others
      · exact ⟨[line], rfl, .nullField field .noFields⟩
      obtain ⟨rest, rfl, othersRead⟩ := smaller.fields others
      exact ⟨_, rfl, .nullField field othersRead⟩

end BlockSound

/-- What the block parser returns is a reading, or it left a stuck line. -/
theorem block_sound (fuel : Nat) :
    BlockSound fuel := by
  induction fuel with
  | zero =>
    exact {
      block := nofun
      items := nofun
      fields := nofun
    }
  | succ fuel inductionHypothesis =>
    exact {
      block := inductionHypothesis.block_succ
      items := inductionHypothesis.items_succ
      fields := inductionHypothesis.fields_succ
    }

/-- The column and the text of the field that a line writes. -/
def fieldOf (line : Line) : Option (Nat × Str) :=
  if isSeqItem line.text then
    let rest := trim (line.text.drop 1)
    if startsFlow rest = false ∧ (keySplit rest).isSome then
      some (line.indent + 2, rest)
    else
      none
  else
    some (line.indent, line.text)

theorem BlockReads.notItem_of_fields
    (reads : BlockReads indent (line :: later) (.fields fields)) :
    isSeqItem line.text = false := by
  cases reads with
  | inlineField field => exact field.notItem
  | nestedField field => exact field.notItem
  | sequenceField field => exact field.notItem
  | nullField field => exact field.notItem

theorem Field.fieldOf_eq
    {key value : Str} (field : Field indent line key value) :
    fieldOf line = some (indent, line.text) := by
  simp only [fieldOf, field.notItem, Bool.false_eq_true, if_false,
    field.atIndent]

theorem Dash.fieldOf_eq_none
    (dash : Dash indent line rest) (inline : ¬ OpensMapping rest) :
    fieldOf line = none := by
  rw [fieldOf, if_pos dash.isItem, dash.behind]
  exact if_neg inline

theorem Dash.fieldOf_eq
    (dash : Dash indent line rest) (opens : OpensMapping rest) :
    fieldOf line = some (indent + 2, rest) := by
  rw [fieldOf, if_pos dash.isItem, dash.behind, dash.atIndent]
  exact if_pos opens

theorem Dash.fieldOf_rewritten
    (dash : Dash indent line rest) (opens : OpensMapping rest)
    (notItem : isSeqItem (line.rewritten indent).text = false) :
    fieldOf (line.rewritten indent) = fieldOf line := by
  have shape : (line.rewritten indent).text = rest := dash.behind
  rw [dash.fieldOf_eq opens, fieldOf, notItem, shape]
  rfl

end Yaml

end Policyd
