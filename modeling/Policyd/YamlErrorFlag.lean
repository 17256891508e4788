import Policyd.FirstError
import Policyd.YamlParser

namespace Policyd

namespace Yaml

namespace Parser

open FirstError

/-!
# The parser with its error flag

The source parser keeps its first error in a flag and goes on; the loops over
sequences and flow collections look at the flag, the loop over mappings does
not, and the tree is discarded at the end.  Run that way, it gives the same
answer as the parser that stops, so it ends on every text, also behind an
error.  Every error stands at a line of the text.
-/

/-- A run of the parser. -/
abbrev Run (Value : Type) := Flagged ParseFailure Value

/-- Keep a message unless an earlier one was kept. -/
def fail (message : String) (line : Nat) : Run Unit :=
  raise (.failed message.toList line)

/-- A scalar node, or the null it spells. -/
def makeScalar (text : Str) (line : Nat) : Run Node :=
  let trimmed := trim text
  if trimmed = [] ∨ trimmed = "~".toList ∨ trimmed = "null".toList ∨
      trimmed = "Null".toList ∨ trimmed = "NULL".toList then
    return .null line
  else if trimmed.head? = some '|' ∨ trimmed.head? = some '>' then do
    fail "block scalars (| and >) are not supported" line
    return .null line
  else if trimmed.head? = some '&' ∨ trimmed.head? = some '*' ∨
      trimmed.head? = some '!' then do
    fail "anchors, aliases and tags are not supported" line
    return .null line
  else
    return .scalar line (unquote trimmed)

mutual

/-- Parse one value of a flow collection. -/
def parseFlowValue : Nat → Nat → Str → Run (Node × Str)
  | 0, _, _ => exhausted
  | fuel + 1, line, text =>
    match skipBlanks text with
    | [] => do
      fail "unexpected end of flow collection" line
      return (.null line, [])
    | char :: rest =>
      if char = '[' then do
        let (items, unread) ← parseFlowSeq fuel line rest
        return (.seq line items, unread)
      else if char = '\x7b' then do
        let (fields, unread) ← parseFlowMap fuel line rest
        return (.map line fields, unread)
      else do
        let (scalar, unread) := readFlowScalar (char :: rest)
        let node ← makeScalar scalar line
        return (node, unread)

/-- One round of the loop over the items of a flow sequence. -/
def parseFlowSeq : Nat → Nat → Str → Run (List Node × Str)
  | 0, _, _ => exhausted
  | fuel + 1, line, text =>
    match skipBlanks text with
    | [] => do
      fail "unterminated flow sequence" line
      return ([], [])
    | char :: rest =>
      if char = ']' then
        return ([], rest)
      else do
        let (node, unread) ← parseFlowValue fuel line (char :: rest)
        if ← raised then
          return ([node], unread)
        else
          match skipBlanks unread with
          | ',' :: behind => do
            let (items, unread) ← parseFlowSeq fuel line behind
            return (node :: items, unread)
          | ']' :: behind => return ([node], behind)
          | other => do
            fail "expected ',' or ']' in flow sequence" line
            return ([node], other)

/-- One round of the loop over the fields of a flow mapping. -/
def parseFlowMap : Nat → Nat → Str → Run (List (Str × Node) × Str)
  | 0, _, _ => exhausted
  | fuel + 1, line, text =>
    match skipBlanks text with
    | [] => do
      fail "unterminated flow mapping" line
      return ([], [])
    | char :: rest =>
      if char = '\x7d' then
        return ([], rest)
      else
        let (scalar, unread) := readFlowScalar (char :: rest)
        match skipBlanks unread with
        | ':' :: behind => do
          let (node, unread) ← parseFlowValue fuel line behind
          if ← raised then
            return ([(unquote scalar, node)], unread)
          else
            match skipBlanks unread with
            | ',' :: behind => do
              let (fields, unread) ← parseFlowMap fuel line behind
              return ((unquote scalar, node) :: fields, unread)
            | '\x7d' :: behind =>
              return ([(unquote scalar, node)], behind)
            | other => do
              fail "expected ',' or '\x7d' in flow mapping" line
              return ([(unquote scalar, node)], other)
        | other => do
          fail "expected ':' in flow mapping" line
          return ([], other)

end

/-- Parse a whole flow collection. -/
def parseFlow (text : Str) (line : Nat) : Run Node := do
  let (node, unread) ← parseFlowValue (2 * text.length + 1) line text
  if skipBlanks unread = [] then
    return node
  else do
    fail "trailing characters after flow collection" line
    return node

/-- A value written on the line of its key or item. -/
def parseInline (text : Str) (line : Nat) : Run Node :=
  if startsFlow text then
    parseFlow text line
  else
    makeScalar text line

mutual

/-- Parse the block that starts at the first remaining line. -/
def parseBlock : Nat → List Line → Nat → Run (Node × List Line)
  | 0, _, _ => exhausted
  | _ + 1, [], _ => return (.null 0, [])
  | fuel + 1, line :: later, indent =>
    if isSeqItem line.text then do
      let (items, unread) ← parseSeq fuel (line :: later) indent
      return (.seq line.number items, unread)
    else do
      let (fields, unread) ← parseMap fuel (line :: later) indent
      return (.map line.number fields, unread)

/-- One round of the loop over the items of a block sequence. -/
def parseSeq : Nat → List Line → Nat → Run (List Node × List Line)
  | 0, _, _ => exhausted
  | _ + 1, [], _ => return ([], [])
  | fuel + 1, line :: later, indent => do
    if ← raised then
      return ([], line :: later)
    else if line.indent ≠ indent ∨ isSeqItem line.text = false then
      return ([], line :: later)
    else
      let rest := trim (line.text.drop 1)
      if rest = [] then
        match later with
        | next :: _ =>
          if indent < next.indent then do
            let (node, unread) ← parseBlock fuel later next.indent
            let (items, unread) ← parseSeq fuel unread indent
            return (node :: items, unread)
          else do
            let (items, unread) ← parseSeq fuel later indent
            return (.null line.number :: items, unread)
        | [] => return ([.null line.number], [])
      else if startsFlow rest = false ∧ (keySplit rest).isSome then do
        -- The line is rewritten in place as the first line of a mapping.
        let rewritten :=
          { line with indent := indent + 2, text := rest }
        let (fields, unread) ←
          parseMap fuel (rewritten :: later) (indent + 2)
        let (items, unread) ← parseSeq fuel unread indent
        return (.map line.number fields :: items, unread)
      else do
        let node ← parseInline rest line.number
        let (items, unread) ← parseSeq fuel later indent
        return (node :: items, unread)

/-- One round of the loop over the fields of a block mapping. -/
def parseMap :
    Nat → List Line → Nat → Run (List (Str × Node) × List Line)
  | 0, _, _ => exhausted
  | _ + 1, [], _ => return ([], [])
  | fuel + 1, line :: later, indent =>
    if line.indent < indent then
      return ([], line :: later)
    else if indent < line.indent then do
      fail "unexpected indentation" line.number
      return ([], line :: later)
    else if isSeqItem line.text then
      return ([], line :: later)
    else
      match keySplit line.text with
      | none => do
        fail "expected 'key: value'" line.number
        return ([], line :: later)
      | some colon =>
        let key := unquote (line.text.take colon)
        let value := trim (line.text.drop (colon + 1))
        if key = [] then do
          fail "empty key" line.number
          return ([], line :: later)
        else if value ≠ [] then do
          let node ← parseInline value line.number
          let (fields, unread) ← parseMap fuel later indent
          return ((key, node) :: fields, unread)
        else
          match later with
          | next :: _ =>
            if indent < next.indent then do
              let (node, unread) ← parseBlock fuel later next.indent
              let (fields, unread) ← parseMap fuel unread indent
              return ((key, node) :: fields, unread)
            else if next.indent = indent ∧
                isSeqItem next.text then do
              -- A sequence may sit at the indentation of its key.
              let (items, unread) ← parseSeq fuel later indent
              let (fields, unread) ← parseMap fuel unread indent
              return ((key, .seq next.number items) :: fields,
                unread)
            else do
              let (fields, unread) ← parseMap fuel later indent
              return ((key, .null line.number) :: fields, unread)
          | [] => return ([(key, .null line.number)], [])

end

/--
Run the parser on a text.  An error of the line splitter is in the flag from
the start; it is never looked at when there are no lines.  `none` means that
the run did not end within its fuel.
-/
def run (text : Str) : Option (Parse Node) :=
  match splitLines text with
  | ([], _) => some (.ok (.null 1))
  | (first :: later, flag) =>
    match
      parseBlock (3 * (first :: later).length + 3) (first :: later)
        first.indent flag with
    | none => none
    | some (_, some failure) => some (.error failure)
    | some ((root, []), none) => some (.ok root)
    | some ((_, line :: _), none) =>
      some (Yaml.fail "unexpected content (check indentation)"
        line.number)

/-- A message at a line of some kind. -/
def FailedAt (At : Nat → Prop) : ParseFailure → Prop
  | .failed _ line => At line
  | .outOfFuel => False

variable {At : Nat → Prop}

theorem follows_fail
    {Value : Type} {Post : Value → Prop} {message : String} {line : Nat}
    {value : Value}
    (atLine : At line) (post : Post value) :
    Follows (FailedAt At) Post
      (do
        fail message line
        return value)
      (Yaml.fail message line) :=
  Follows.raise atLine post

theorem follows_makeScalar (text : Str) {line : Nat} (atLine : At line) :
    Follows (FailedAt At) (fun _ => True) (makeScalar text line)
      (Yaml.makeScalar text line) := by
  unfold makeScalar Yaml.makeScalar
  dsimp only
  split
  · exact Follows.pure trivial
  · split
    · exact follows_fail atLine trivial
    · split
      · exact follows_fail atLine trivial
      · exact Follows.pure trivial

/-- A step that leaves at most `size` elements unread. -/
def LeavesWithin
    {Value Input : Type}
    (size : Nat)
    (result : Value × List Input) : Prop :=
  result.2.length ≤ size

/-- What the flow parsers have in common with a given amount of fuel. -/
structure FlowFollows (At : Nat → Prop) (fuel : Nat) : Prop where
  value :
    ∀ line text,
      At line →
      2 * text.length + 1 ≤ fuel →
      Follows (FailedAt At) (LeavesWithin text.length)
        (parseFlowValue fuel line text) (Yaml.parseFlowValue fuel line text)
  items :
    ∀ line text,
      At line →
      2 * text.length + 2 ≤ fuel →
      Follows (FailedAt At) (LeavesWithin text.length)
        (parseFlowSeq fuel line text) (Yaml.parseFlowItems fuel line text)
  fields :
    ∀ line text,
      At line →
      2 * text.length + 2 ≤ fuel →
      Follows (FailedAt At) (LeavesWithin text.length)
        (parseFlowMap fuel line text) (Yaml.parseFlowFields fuel line text)

namespace FlowFollows

variable {fuel : Nat}

variable (smaller : FlowFollows At fuel) (line : Nat) (text : Str)

include smaller

/-- One more unit of fuel serves a flow value. -/
private theorem value_succ
    (atLine : At line) (enough : 2 * text.length + 1 ≤ fuel + 1) :
    Follows (FailedAt At) (LeavesWithin text.length)
      (parseFlowValue (fuel + 1) line text)
      (Yaml.parseFlowValue (fuel + 1) line text) := by
  have skipped := length_skipBlanks_le text
  unfold parseFlowValue Yaml.parseFlowValue
  cases shape : skipBlanks text with
  | nil => exact follows_fail atLine (Nat.zero_le _)
  | cons char rest =>
    rw [shape, List.length_cons] at skipped
    dsimp only
    by_cases isSeq : char = '['
    · rw [if_pos isSeq, if_pos isSeq]
      refine (smaller.items line rest atLine (by omega)).bind ?_
      rintro ⟨items, unread⟩ bound
      exact Follows.pure (bound.trans (by omega))
    · rw [if_neg isSeq, if_neg isSeq]
      by_cases isMap : char = '\x7b'
      · rw [if_pos isMap, if_pos isMap]
        refine (smaller.fields line rest atLine (by omega)).bind ?_
        rintro ⟨fields, unread⟩ bound
        exact Follows.pure (bound.trans (by omega))
      · rw [if_neg isMap, if_neg isMap]
        refine (follows_makeScalar _ atLine).bind ?_
        intro node _
        refine Follows.pure ?_
        exact (length_readFlowScalar_le (char :: rest)).trans skipped

/-- One more unit of fuel serves a round over a flow sequence. -/
private theorem items_succ
    (atLine : At line) (enough : 2 * text.length + 2 ≤ fuel + 1) :
    Follows (FailedAt At) (LeavesWithin text.length)
      (parseFlowSeq (fuel + 1) line text)
      (Yaml.parseFlowItems (fuel + 1) line text) := by
  have skipped := length_skipBlanks_le text
  unfold parseFlowSeq Yaml.parseFlowItems
  cases shape : skipBlanks text with
  | nil => exact follows_fail atLine (Nat.zero_le _)
  | cons char rest =>
    rw [shape, List.length_cons] at skipped
    dsimp only
    by_cases isClose : char = ']'
    · rw [if_pos isClose, if_pos isClose]
      exact Follows.pure (show rest.length ≤ text.length by omega)
    · rw [if_neg isClose, if_neg isClose]
      refine (smaller.value line (char :: rest) atLine
        (by rw [List.length_cons]; omega)).bind ?_
      rintro ⟨node, unread⟩ bound
      have within : unread.length ≤ text.length := bound.trans skipped
      have unreadSkipped := length_skipBlanks_le unread
      refine Follows.unlessRaised ?_ within
      dsimp only
      by_cases comma : ∃ behind, skipBlanks unread = ',' :: behind
      · obtain ⟨behind, behindShape⟩ := comma
        rw [behindShape, List.length_cons] at unreadSkipped
        rw [behindShape]
        refine (smaller.items line behind atLine (by omega)).bind ?_
        rintro ⟨items, last⟩ lastBound
        exact Follows.pure (lastBound.trans (by omega))
      by_cases close : ∃ behind, skipBlanks unread = ']' :: behind
      · obtain ⟨behind, behindShape⟩ := close
        rw [behindShape, List.length_cons] at unreadSkipped
        rw [behindShape]
        exact Follows.pure (show behind.length ≤ text.length by omega)
      -- Neither byte stands there, so both parsers take their last branch.
      rw [not_exists] at comma close
      simp only
      exact follows_fail atLine (unreadSkipped.trans within)

/-- One more unit of fuel serves a round over a flow mapping. -/
private theorem fields_succ
    (atLine : At line) (enough : 2 * text.length + 2 ≤ fuel + 1) :
    Follows (FailedAt At) (LeavesWithin text.length)
      (parseFlowMap (fuel + 1) line text)
      (Yaml.parseFlowFields (fuel + 1) line text) := by
  have skipped := length_skipBlanks_le text
  unfold parseFlowMap Yaml.parseFlowFields
  cases shape : skipBlanks text with
  | nil => exact follows_fail atLine (Nat.zero_le _)
  | cons char rest =>
    rw [shape, List.length_cons] at skipped
    dsimp only
    by_cases isClose : char = '\x7d'
    · rw [if_pos isClose, if_pos isClose]
      exact Follows.pure (show rest.length ≤ text.length by omega)
    · rw [if_neg isClose, if_neg isClose]
      have scalarBound := length_readFlowScalar_le (char :: rest)
      have behindScalar :=
        length_skipBlanks_le (readFlowScalar (char :: rest)).2
      rw [List.length_cons] at scalarBound
      by_cases colon :
          ∃ behind, skipBlanks (readFlowScalar (char :: rest)).2 = ':' :: behind
      · obtain ⟨behind, behindShape⟩ := colon
        rw [behindShape, List.length_cons] at behindScalar
        rw [behindShape]
        refine (smaller.value line behind atLine (by omega)).bind ?_
        rintro ⟨node, unread⟩ bound
        have within : unread.length ≤ text.length := bound.trans (by omega)
        have unreadBound : unread.length ≤ behind.length := bound
        have unreadSkipped := length_skipBlanks_le unread
        refine Follows.unlessRaised ?_ within
        dsimp only
        by_cases comma : ∃ later, skipBlanks unread = ',' :: later
        · obtain ⟨later, laterShape⟩ := comma
          rw [laterShape, List.length_cons] at unreadSkipped
          rw [laterShape]
          refine (smaller.fields line later atLine (by omega)).bind ?_
          rintro ⟨fields, last⟩ lastBound
          exact Follows.pure (lastBound.trans (by omega))
        by_cases close : ∃ later, skipBlanks unread = '\x7d' :: later
        · obtain ⟨later, laterShape⟩ := close
          rw [laterShape, List.length_cons] at unreadSkipped
          rw [laterShape]
          exact Follows.pure (show later.length ≤ text.length by omega)
        rw [not_exists] at comma close
        simp only
        exact follows_fail atLine (unreadSkipped.trans within)
      · rw [not_exists] at colon
        simp only
        exact follows_fail atLine
          (behindScalar.trans (scalarBound.trans skipped))

end FlowFollows

/-- The flow parsers agree with fuel linear in the text. -/
theorem flow_follows (At : Nat → Prop) (fuel : Nat) :
    FlowFollows At fuel := by
  induction fuel with
  | zero =>
    exact {
      value := fun _ _ _ impossible => by omega
      items := fun _ _ _ impossible => by omega
      fields := fun _ _ _ impossible => by omega
    }
  | succ fuel inductionHypothesis =>
    exact {
      value := inductionHypothesis.value_succ
      items := inductionHypothesis.items_succ
      fields := inductionHypothesis.fields_succ
    }

/-- Parsing a value written on one line. -/
theorem follows_parseInline (text : Str) {line : Nat} (atLine : At line) :
    Follows (FailedAt At) (fun _ => True) (parseInline text line)
      (Yaml.parseInline text line) := by
  unfold parseInline Yaml.parseInline
  by_cases isFlow : startsFlow text = true
  · rw [if_pos isFlow, if_pos isFlow, parseFlow, Yaml.parseFlow]
    refine ((flow_follows At _).value line text atLine le_rfl).bind ?_
    rintro ⟨node, unread⟩ _
    dsimp only
    by_cases ends : skipBlanks unread = []
    · rw [if_pos ends, if_pos ends]
      exact Follows.pure trivial
    · rw [if_neg ends, if_neg ends]
      exact follows_fail atLine trivial
  · rw [if_neg isFlow, if_neg isFlow]
    exact follows_makeScalar text atLine

/-- A step that leaves at most `size` lines of some kind. -/
structure Leaves
    {Value : Type}
    (At : Nat → Prop)
    (size : Nat)
    (result : Value × List Line) : Prop where
  within : result.2.length ≤ size
  atLines : ∀ line ∈ result.2, At line.number

/--
What the block parsers have in common with a given amount of fuel.  A mapping
either consumes its first line or leaves all lines as they were.
-/
structure BlockFollows (At : Nat → Prop) (fuel : Nat) : Prop where
  block :
    ∀ lines indent,
      (∀ line ∈ lines, At line.number) →
      3 * lines.length + 3 ≤ fuel →
      Follows (FailedAt At) (Leaves At lines.length)
        (parseBlock fuel lines indent) (Yaml.parseBlock fuel lines indent)
  items :
    ∀ lines indent,
      (∀ line ∈ lines, At line.number) →
      3 * lines.length + 2 ≤ fuel →
      Follows (FailedAt At) (Leaves At lines.length)
        (parseSeq fuel lines indent) (Yaml.parseSeqItems fuel lines indent)
  noFields :
    ∀ indent,
      1 ≤ fuel →
      Follows (FailedAt At) (Leaves At 0) (parseMap fuel [] indent)
        (Yaml.parseMapFields fuel [] indent)
  fields :
    ∀ line later indent,
      (∀ other ∈ line :: later, At other.number) →
      3 * later.length + 4 ≤ fuel →
      Follows (FailedAt At)
        (fun result =>
          result.2 = line :: later ∨ Leaves At later.length result)
        (parseMap fuel (line :: later) indent)
        (Yaml.parseMapFields fuel (line :: later) indent)

namespace BlockFollows

variable {fuel : Nat}

/-- A mapping leaves at most the lines it was given. -/
theorem fieldsWithin
    (follows : BlockFollows At fuel) (lines : List Line) (indent : Nat)
    (atLines : ∀ line ∈ lines, At line.number)
    (enough : 3 * lines.length + 1 ≤ fuel) :
    Follows (FailedAt At) (Leaves At lines.length)
      (parseMap fuel lines indent)
      (Yaml.parseMapFields fuel lines indent) := by
  cases lines with
  | nil => exact follows.noFields indent (by omega)
  | cons line later =>
    rw [List.length_cons] at enough
    refine (follows.fields line later indent atLines (by omega)).weaken ?_
    rintro ⟨fields, unread⟩ (rfl | consumed)
    · exact ⟨le_rfl, atLines⟩
    · exact ⟨Nat.le_succ_of_le consumed.within, consumed.atLines⟩

variable (smaller : BlockFollows At fuel)

include smaller

/-- One more unit of fuel serves a block. -/
private theorem block_succ (lines : List Line) (indent : Nat)
    (atLines : ∀ line ∈ lines, At line.number)
    (enough : 3 * lines.length + 3 ≤ fuel + 1) :
    Follows (FailedAt At) (Leaves At lines.length)
      (parseBlock (fuel + 1) lines indent)
      (Yaml.parseBlock (fuel + 1) lines indent) := by
  cases lines with
  | nil =>
    rw [parseBlock, Yaml.parseBlock]
    exact Follows.pure ⟨le_rfl, nofun⟩
  | cons line later =>
    rw [parseBlock, Yaml.parseBlock]
    by_cases isItem : isSeqItem line.text = true
    · rw [if_pos isItem, if_pos isItem]
      refine (smaller.items _ indent atLines (by omega)).bind ?_
      rintro ⟨items, unread⟩ leaves
      exact Follows.pure ⟨leaves.within, leaves.atLines⟩
    · rw [if_neg isItem, if_neg isItem]
      refine (smaller.fieldsWithin _ indent atLines (by omega)).bind ?_
      rintro ⟨fields, unread⟩ leaves
      exact Follows.pure ⟨leaves.within, leaves.atLines⟩

private theorem items_after {unread : List Line} {size : Nat}
    (bound : unread.length ≤ size) (atLines : ∀ line ∈ unread, At line.number)
    (enough : 3 * size + 2 ≤ fuel) (node : Node) (indent : Nat) :
    Follows (FailedAt At) (Leaves At (size + 1))
      (do
        let (items, unread) ← parseSeq fuel unread indent
        return (node :: items, unread))
      (do
        let (items, unread) ← Yaml.parseSeqItems fuel unread indent
        return (node :: items, unread)) := by
  refine (smaller.items unread indent atLines (by omega)).bind ?_
  rintro ⟨items, last⟩ leaves
  exact Follows.pure
    ⟨leaves.within.trans (bound.trans (Nat.le_succ size)), leaves.atLines⟩

omit smaller in
/-- A line rewritten to another indentation ends the items at once. -/
private theorem items_of_rewritten
    {line : Line} {later : List Line} {indent : Nat}
    (positive : 1 ≤ fuel) (atLines : ∀ other ∈ line :: later, At other.number)
    (rewritten : line.indent ≠ indent) :
    Follows (FailedAt At) (Leaves At (later.length + 1))
      (parseSeq fuel (line :: later) indent)
      (Yaml.parseSeqItems fuel (line :: later) indent) := by
  obtain ⟨smaller, rfl⟩ : ∃ smaller, fuel = smaller + 1 := ⟨fuel - 1, by omega⟩
  have unchanged :
      Leaves At (later.length + 1) (([] : List Node), line :: later) :=
    ⟨le_rfl, atLines⟩
  unfold parseSeq Yaml.parseSeqItems
  refine Follows.unlessRaised ?_ unchanged
  rw [if_pos (Or.inl rewritten), if_pos (Or.inl rewritten)]
  exact Follows.pure unchanged

/-- One more unit of fuel serves a round over a sequence. -/
private theorem items_succ (lines : List Line) (indent : Nat)
    (atLines : ∀ line ∈ lines, At line.number)
    (enough : 3 * lines.length + 2 ≤ fuel + 1) :
    Follows (FailedAt At) (Leaves At lines.length)
      (parseSeq (fuel + 1) lines indent)
      (Yaml.parseSeqItems (fuel + 1) lines indent) := by
  cases lines with
  | nil =>
    rw [parseSeq, Yaml.parseSeqItems]
    exact Follows.pure ⟨le_rfl, nofun⟩
  | cons line later =>
    rw [List.length_cons] at enough ⊢
    obtain ⟨atLine, atLater⟩ := List.forall_mem_cons.mp atLines
    unfold parseSeq Yaml.parseSeqItems
    refine Follows.unlessRaised ?_ ⟨le_rfl, atLines⟩
    by_cases ends : line.indent ≠ indent ∨ isSeqItem line.text = false
    · rw [if_pos ends, if_pos ends]
      exact Follows.pure ⟨le_rfl, atLines⟩
    · rw [if_neg ends, if_neg ends]
      dsimp only
      by_cases bare : trim (line.text.drop 1) = []
      · rw [if_pos bare, if_pos bare]
        cases later with
        | nil => exact Follows.pure ⟨Nat.zero_le _, nofun⟩
        | cons next rest =>
          dsimp only
          by_cases nested : indent < next.indent
          · rw [if_pos nested, if_pos nested]
            refine (smaller.block _ _ atLater (by omega)).bind ?_
            rintro ⟨node, unread⟩ leaves
            exact smaller.items_after leaves.within leaves.atLines
              (by omega) node indent
          · rw [if_neg nested, if_neg nested]
            exact smaller.items_after le_rfl atLater (by omega) _ indent
      · rw [if_neg bare, if_neg bare]
        split
        · -- A mapping that consumes nothing leaves the rewritten line.
          have atRewritten :
              ∀ other ∈
                { line with
                  indent := indent + 2
                  text := trim (line.text.drop 1) } :: later,
                At other.number :=
            List.forall_mem_cons.mpr ⟨atLine, atLater⟩
          refine (smaller.fields _ later (indent + 2) atRewritten
            (by omega)).bind ?_
          rintro ⟨fields, unread⟩ (rfl | leaves)
          · refine (items_of_rewritten (by omega) atRewritten (by simp)).bind ?_
            rintro ⟨items, last⟩ leaves
            exact Follows.pure ⟨leaves.within, leaves.atLines⟩
          · exact smaller.items_after leaves.within leaves.atLines
              (by omega) _ indent
        · refine (follows_parseInline _ atLine).bind ?_
          intro node _
          exact smaller.items_after le_rfl atLater (by omega) node indent

private theorem fields_after {unread : List Line} {size : Nat}
    (bound : unread.length ≤ size) (atLines : ∀ line ∈ unread, At line.number)
    (enough : 3 * size + 1 ≤ fuel) (key : Str) (node : Node) (indent : Nat) :
    Follows (FailedAt At) (Leaves At size)
      (do
        let (fields, unread) ← parseMap fuel unread indent
        return ((key, node) :: fields, unread))
      (do
        let (fields, unread) ← Yaml.parseMapFields fuel unread indent
        return ((key, node) :: fields, unread)) := by
  refine (smaller.fieldsWithin unread indent atLines (by omega)).bind ?_
  rintro ⟨fields, last⟩ leaves
  exact Follows.pure ⟨leaves.within.trans bound, leaves.atLines⟩

/-- One more unit of fuel serves a round over a mapping. -/
private theorem fields_succ (line : Line) (later : List Line) (indent : Nat)
    (atLines : ∀ other ∈ line :: later, At other.number)
    (enough : 3 * later.length + 4 ≤ fuel + 1) :
    Follows (FailedAt At)
      (fun result =>
        result.2 = line :: later ∨ Leaves At later.length result)
      (parseMap (fuel + 1) (line :: later) indent)
      (Yaml.parseMapFields (fuel + 1) (line :: later) indent) := by
  obtain ⟨atLine, atLater⟩ := List.forall_mem_cons.mp atLines
  unfold parseMap Yaml.parseMapFields
  by_cases ends : line.indent < indent
  · rw [if_pos ends, if_pos ends]
    exact Follows.pure (Or.inl rfl)
  rw [if_neg ends, if_neg ends]
  by_cases deeper : indent < line.indent
  · rw [if_pos deeper, if_pos deeper]
    exact follows_fail atLine (Or.inl rfl)
  rw [if_neg deeper, if_neg deeper]
  by_cases isItem : isSeqItem line.text = true
  · rw [if_pos isItem, if_pos isItem]
    exact Follows.pure (Or.inl rfl)
  rw [if_neg isItem, if_neg isItem]
  cases keySplit line.text with
  | none => exact follows_fail atLine (Or.inl rfl)
  | some colon =>
    dsimp only
    by_cases noKey : unquote (line.text.take colon) = []
    · rw [if_pos noKey, if_pos noKey]
      exact follows_fail atLine (Or.inl rfl)
    rw [if_neg noKey, if_neg noKey]
    -- From here on the line is consumed.
    refine Follows.weaken ?_ fun _ leaves => Or.inr leaves
    by_cases inline : trim (line.text.drop (colon + 1)) ≠ []
    · rw [if_pos inline, if_pos inline]
      refine (follows_parseInline _ atLine).bind ?_
      intro node _
      exact smaller.fields_after le_rfl atLater (by omega) _ node indent
    rw [if_neg inline, if_neg inline]
    cases later with
    | nil => exact Follows.pure ⟨le_rfl, nofun⟩
    | cons next rest =>
      dsimp only
      by_cases nested : indent < next.indent
      · rw [if_pos nested, if_pos nested]
        refine (smaller.block _ _ atLater (by omega)).bind ?_
        rintro ⟨node, unread⟩ leaves
        exact smaller.fields_after leaves.within leaves.atLines
          (by omega) _ node indent
      rw [if_neg nested, if_neg nested]
      split
      · refine (smaller.items _ _ atLater (by omega)).bind ?_
        rintro ⟨items, unread⟩ leaves
        exact smaller.fields_after leaves.within leaves.atLines
          (by omega) _ _ indent
      · exact smaller.fields_after le_rfl atLater (by omega) _ _ indent

end BlockFollows

/-- The block parsers agree with fuel linear in the number of lines. -/
theorem block_follows (At : Nat → Prop) (fuel : Nat) :
    BlockFollows At fuel := by
  induction fuel with
  | zero =>
    exact {
      block := fun _ _ _ impossible => by omega
      items := fun _ _ _ impossible => by omega
      noFields := fun _ impossible => by omega
      fields := fun _ _ _ _ impossible => by omega
    }
  | succ fuel inductionHypothesis =>
    exact {
      block := inductionHypothesis.block_succ
      items := inductionHypothesis.items_succ
      noFields := by
        intro indent _
        rw [parseMap, Yaml.parseMapFields]
        exact Follows.pure ⟨le_rfl, nofun⟩
      fields := inductionHypothesis.fields_succ
    }

/-- The lines and the failure of the line splitter count from its start. -/
theorem splitLinesFrom_numbers (number : Nat) (raws : List Str) :
    (∀ line ∈ (splitLinesFrom number raws).1, number ≤ line.number) ∧
      ∀ failure,
        (splitLinesFrom number raws).2 = some failure →
          FailedAt (number ≤ ·) failure := by
  induction raws generalizing number with
  | nil => exact ⟨nofun, nofun⟩
  | cons raw later inductionHypothesis =>
    obtain ⟨atLines, failed⟩ := inductionHypothesis (number + 1)
    have linesFrom :
        ∀ line ∈ (splitLinesFrom (number + 1) later).1,
          number ≤ line.number :=
      fun line member => Nat.le_of_succ_le (atLines line member)
    have failsFrom :
        ∀ failure,
          (splitLinesFrom (number + 1) later).2 = some failure →
            FailedAt (number ≤ ·) failure := by
      intro failure isFailure
      have later := failed failure isFailure
      cases failure with
      | failed message line => exact Nat.le_of_succ_le later
      | outOfFuel => exact later
    rw [splitLinesFrom]
    dsimp only
    split
    · refine ⟨nofun, ?_⟩
      intro failure isTab
      cases isTab
      exact le_rfl
    · split
      · exact ⟨linesFrom, failsFrom⟩
      · exact ⟨List.forall_mem_cons.mpr ⟨le_rfl, linesFrom⟩, failsFrom⟩

/--
The parser with its error flag ends on every text, and its answer is that of
the parser that stops at its first error.
-/
theorem run_eq_parse (text : Str) :
    run text = some (parse text) := by
  unfold run parse
  obtain ⟨lines, flag⟩ := splitLines text
  cases lines with
  | nil => rfl
  | cons first later =>
    have follows :=
      (block_follows (fun _ => True)
        (3 * (first :: later).length + 3)).block (first :: later)
        first.indent (fun _ _ => trivial) le_rfl
    cases flag with
    | some failure =>
      obtain ⟨value, ran, _⟩ := follows.flagged failure
      dsimp only
      rw [ran]
    | none =>
      dsimp only
      cases stopped :
          Yaml.parseBlock (3 * (first :: later).length + 3)
            (first :: later) first.indent with
      | error failure =>
        obtain ⟨_, value, ran, _⟩ := follows.fails failure stopped
        rw [ran]
        rfl
      | ok result =>
        obtain ⟨ran, _⟩ := follows.returns result stopped
        rw [ran]
        obtain ⟨root, unread⟩ := result
        cases unread <;> rfl

/-- Every error is a message at a line of the text. -/
theorem parse_failedAt {text : Str} {failure : ParseFailure}
    (failed : parse text = .error failure) :
    FailedAt (1 ≤ ·) failure := by
  obtain ⟨atLines, splitFailed⟩ := splitLinesFrom_numbers 1 (text.splitOn '\n')
  unfold parse splitLines at failed
  generalize splitLinesFrom 1 (text.splitOn '\n') = split at *
  obtain ⟨lines, flag⟩ := split
  cases lines with
  | nil => cases failed
  | cons first later =>
    cases flag with
    | some early =>
      cases failed
      exact splitFailed failure rfl
    | none =>
      have follows :=
        (block_follows (1 ≤ ·)
          (3 * (first :: later).length + 3)).block (first :: later)
          first.indent atLines le_rfl
      dsimp only at failed
      cases stopped :
          Yaml.parseBlock (3 * (first :: later).length + 3)
            (first :: later) first.indent with
      | error early =>
        rw [stopped] at failed
        cases failed
        exact (follows.fails failure stopped).1
      | ok result =>
        rw [stopped] at failed
        obtain ⟨_, leaves⟩ := follows.returns result stopped
        obtain ⟨root, unread⟩ := result
        cases unread with
        | nil => cases failed
        | cons line rest =>
          cases failed
          exact leaves.atLines line List.mem_cons_self

theorem parse_ended (text : Str) :
    parse text ≠ .error .outOfFuel :=
  parse_failedAt

end Parser

end Yaml

end Policyd
