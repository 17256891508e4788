import Policyd.YamlNode

namespace Policyd

/-!
# The YAML subset parser

The rules file is cut into comment-free lines with their indentation, and a
recursive descent over those lines builds the tree; flow collections are parsed
by a second descent over the bytes of one line.  The source keeps only its
first error and discards the tree then, so the model stops there, except that
an error raised while cutting lines is forgotten when no line precedes it.
Both descents run on fuel, and the fuel `parse` provides always suffices.
-/

namespace Yaml

/-- Why a text is not parsed. -/
inductive ParseFailure where
  | failed (message : Str) (line : Nat)
  | outOfFuel
  deriving Repr, DecidableEq

/-- A parser step. -/
abbrev Parse (Value : Type) := Except ParseFailure Value

/-- Fail with a message at a line. -/
def fail {Value : Type} (message : String) (line : Nat) : Parse Value :=
  .error (.failed message.toList line)

/-- A line without its comment, its indentation and its trailing blanks. -/
structure Line where
  indent : Nat
  number : Nat
  text : Str
  deriving Repr, DecidableEq

/-- Drop trailing blanks. -/
def rtrim (text : Str) : Str :=
  Str.trimRight [' ', '\t', '\r'] text

/-- Drop blanks on both sides. -/
def trim (text : Str) : Str :=
  rtrim (Str.trimLeft [' ', '\t'] text)

/-- Strip a comment, given the previous byte and the open quotes. -/
def stripCommentFrom :
    Option Char → Bool → Bool → Str → Str
  | _, _, _, [] => []
  | previous, inSingle, inDouble, char :: rest =>
    if char = '\'' ∧ inDouble = false then
      char :: stripCommentFrom (some char) (!inSingle) inDouble rest
    else if char = '"' ∧ inSingle = false then
      char :: stripCommentFrom (some char) inSingle (!inDouble) rest
    else if char = '#' ∧ inSingle = false ∧ inDouble = false ∧
        (previous = none ∨ previous = some ' ' ∨
          previous = some '\t') then
      []
    else
      char :: stripCommentFrom (some char) inSingle inDouble rest

/-- Strip a trailing comment that is not inside quotes. -/
def stripComment (text : Str) : Str :=
  stripCommentFrom none false false text

/-- The inside of a single-quoted scalar: doubled quotes stand for one. -/
def unquoteSingle : Str → Str
  | '\'' :: '\'' :: rest => '\'' :: unquoteSingle rest
  | char :: rest => char :: unquoteSingle rest
  | [] => []

/-- The byte an escape sequence stands for. -/
def unescape : Char → Char
  | 'n' => '\n'
  | 't' => '\t'
  | 'r' => '\r'
  | '0' => '\x00'
  | char => char

/-- The inside of a double-quoted scalar. -/
def unquoteDouble : Str → Str
  | '\\' :: char :: rest => unescape char :: unquoteDouble rest
  | char :: rest => char :: unquoteDouble rest
  | [] => []

/-- Whether a text is enclosed in one kind of quotes. -/
def enclosedIn (quote : Char) (text : Str) : Bool :=
  2 ≤ text.length && text.head? == some quote &&
    text.getLast? == some quote

/-- Unquote and unescape a scalar. -/
def unquote (text : Str) : Str :=
  let trimmed := trim text
  if enclosedIn '\'' trimmed then
    unquoteSingle (trimmed.drop 1).dropLast
  else if enclosedIn '"' trimmed then
    unquoteDouble (trimmed.drop 1).dropLast
  else
    trimmed

/-- A scalar node, or the null it spells. -/
def makeScalar (text : Str) (line : Nat) : Parse Node :=
  let trimmed := trim text
  if trimmed = [] ∨ trimmed = "~".toList ∨ trimmed = "null".toList ∨
      trimmed = "Null".toList ∨ trimmed = "NULL".toList then
    .ok (.null line)
  else if trimmed.head? = some '|' ∨ trimmed.head? = some '>' then
    fail "block scalars (| and >) are not supported" line
  else if trimmed.head? = some '&' ∨ trimmed.head? = some '*' ∨
      trimmed.head? = some '!' then
    fail "anchors, aliases and tags are not supported" line
  else
    .ok (.scalar line (unquote trimmed))

/--
Cut raw lines into lines with text.  A tab in the indentation stops the cut and
keeps the lines before it.
-/
def splitLinesFrom : Nat → List Str → List Line × Option ParseFailure
  | _, [] => ([], none)
  | number, raw :: later =>
    let indented := raw.dropWhile (· == ' ')
    if indented.head? = some '\t' then
      ([], some (.failed
        "tab used for indentation; YAML requires spaces".toList number))
    else
      let body := rtrim (stripComment indented)
      let (lines, failure) := splitLinesFrom (number + 1) later
      if body = [] ∨ body = "---".toList ∨ body = "...".toList then
        (lines, failure)
      else
        ({ indent := raw.length - indented.length
           number := number
           text := body } :: lines, failure)

/-- The lines of a text. -/
def splitLines (text : Str) : List Line × Option ParseFailure :=
  splitLinesFrom 1 (text.splitOn '\n')

/-- Whether a line starts a sequence item. -/
def isSeqItem (text : Str) : Bool :=
  match text with
  | ['-'] => true
  | '-' :: next :: _ => next == ' ' || next == '\t'
  | _ => false

/-- Whether a text starts a flow collection. -/
def startsFlow (text : Str) : Bool :=
  text.head? == some '[' || text.head? == some '\x7b'

/-- Find the separating colon, given the open quotes and brackets. -/
def keySplitFrom : Bool → Bool → Int → Nat → Str → Option Nat
  | _, _, _, _, [] => none
  | inSingle, inDouble, depth, position, char :: rest =>
    if char = '\'' ∧ inDouble = false then
      keySplitFrom (!inSingle) inDouble depth (position + 1) rest
    else if char = '"' ∧ inSingle = false then
      keySplitFrom inSingle (!inDouble) depth (position + 1) rest
    else if inSingle ∨ inDouble then
      keySplitFrom inSingle inDouble depth (position + 1) rest
    else if char = '[' ∨ char = '\x7b' then
      keySplitFrom inSingle inDouble (depth + 1) (position + 1) rest
    else if char = ']' ∨ char = '\x7d' then
      keySplitFrom inSingle inDouble (depth - 1) (position + 1) rest
    else if char = ':' ∧ depth = 0 ∧
        (rest = [] ∨ rest.head? = some ' ') then
      some position
    else
      keySplitFrom inSingle inDouble depth (position + 1) rest

/-- Position of the colon between a key and its value. -/
def keySplit (text : Str) : Option Nat :=
  keySplitFrom false false 0 0 text

/-- Skip blanks inside a flow collection. -/
def skipBlanks (text : Str) : Str :=
  text.dropWhile fun char => char == ' ' || char == '\t'

/-- Cut a flow scalar off at the first structural byte outside quotes. -/
def cutFlowScalar : Bool → Bool → Str → Str × Str
  | _, _, [] => ([], [])
  | inSingle, inDouble, char :: rest =>
    if char = '\'' ∧ inDouble = false then
      let (scalar, unread) := cutFlowScalar (!inSingle) inDouble rest
      (char :: scalar, unread)
    else if char = '"' ∧ inSingle = false then
      let (scalar, unread) := cutFlowScalar inSingle (!inDouble) rest
      (char :: scalar, unread)
    else if inSingle = false ∧ inDouble = false ∧
        (char = ',' ∨ char = ']' ∨ char = '\x7d' ∨ char = ':') then
      ([], char :: rest)
    else
      let (scalar, unread) := cutFlowScalar inSingle inDouble rest
      (char :: scalar, unread)

/-- Read a flow scalar and the unread rest. -/
def readFlowScalar (text : Str) : Str × Str :=
  let (scalar, unread) := cutFlowScalar false false text
  (rtrim scalar, unread)

mutual

/-- Parse one value of a flow collection. -/
def parseFlowValue : Nat → Nat → Str → Parse (Node × Str)
  | 0, _, _ => .error .outOfFuel
  | fuel + 1, line, text =>
    match skipBlanks text with
    | [] => fail "unexpected end of flow collection" line
    | char :: rest =>
      if char = '[' then do
        let (items, unread) ← parseFlowItems fuel line rest
        return (.seq line items, unread)
      else if char = '\x7b' then do
        let (fields, unread) ← parseFlowFields fuel line rest
        return (.map line fields, unread)
      else do
        let (scalar, unread) := readFlowScalar (char :: rest)
        let node ← makeScalar scalar line
        return (node, unread)

/-- Parse the items of a flow sequence behind its opening bracket. -/
def parseFlowItems : Nat → Nat → Str → Parse (List Node × Str)
  | 0, _, _ => .error .outOfFuel
  | fuel + 1, line, text =>
    match skipBlanks text with
    | [] => fail "unterminated flow sequence" line
    | char :: rest =>
      if char = ']' then
        .ok ([], rest)
      else do
        let (node, unread) ← parseFlowValue fuel line (char :: rest)
        match skipBlanks unread with
        | ',' :: behind => do
          let (items, unread) ← parseFlowItems fuel line behind
          return (node :: items, unread)
        | ']' :: behind => return ([node], behind)
        | _ => fail "expected ',' or ']' in flow sequence" line

/-- Parse the fields of a flow mapping behind its opening brace. -/
def parseFlowFields : Nat → Nat → Str → Parse (List (Str × Node) × Str)
  | 0, _, _ => .error .outOfFuel
  | fuel + 1, line, text =>
    match skipBlanks text with
    | [] => fail "unterminated flow mapping" line
    | char :: rest =>
      if char = '\x7d' then
        .ok ([], rest)
      else
        let (scalar, unread) := readFlowScalar (char :: rest)
        match skipBlanks unread with
        | ':' :: behind => do
          let (node, unread) ← parseFlowValue fuel line behind
          match skipBlanks unread with
          | ',' :: behind => do
            let (fields, unread) ← parseFlowFields fuel line behind
            return ((unquote scalar, node) :: fields, unread)
          | '\x7d' :: behind =>
            return ([(unquote scalar, node)], behind)
          | _ => fail "expected ',' or '\x7d' in flow mapping" line
        | _ => fail "expected ':' in flow mapping" line

end

/-- Parse a whole flow collection. -/
def parseFlow (text : Str) (line : Nat) : Parse Node := do
  let (node, unread) ← parseFlowValue (2 * text.length + 1) line text
  if skipBlanks unread = [] then
    return node
  else
    fail "trailing characters after flow collection" line

/-- A value written on the line of its key or item. -/
def parseInline (text : Str) (line : Nat) : Parse Node :=
  if startsFlow text then
    parseFlow text line
  else
    makeScalar text line

mutual

/-- Parse the block that starts at the first remaining line. -/
def parseBlock : Nat → List Line → Nat → Parse (Node × List Line)
  | 0, _, _ => .error .outOfFuel
  | _ + 1, [], _ => .ok (.null 0, [])
  | fuel + 1, line :: later, indent =>
    if isSeqItem line.text then do
      let (items, unread) ← parseSeqItems fuel (line :: later) indent
      return (.seq line.number items, unread)
    else do
      let (fields, unread) ← parseMapFields fuel (line :: later) indent
      return (.map line.number fields, unread)

/-- Parse the items of a block sequence. -/
def parseSeqItems : Nat → List Line → Nat → Parse (List Node × List Line)
  | 0, _, _ => .error .outOfFuel
  | _ + 1, [], _ => .ok ([], [])
  | fuel + 1, line :: later, indent =>
    if line.indent ≠ indent ∨ isSeqItem line.text = false then
      .ok ([], line :: later)
    else
      let rest := trim (line.text.drop 1)
      if rest = [] then
        match later with
        | next :: _ =>
          if indent < next.indent then do
            let (node, unread) ← parseBlock fuel later next.indent
            let (items, unread) ← parseSeqItems fuel unread indent
            return (node :: items, unread)
          else do
            let (items, unread) ← parseSeqItems fuel later indent
            return (.null line.number :: items, unread)
        | [] => return ([.null line.number], [])
      else if startsFlow rest = false ∧ (keySplit rest).isSome then do
        -- The line is rewritten in place as the first line of a mapping.
        let rewritten :=
          { line with indent := indent + 2, text := rest }
        let (fields, unread) ←
          parseMapFields fuel (rewritten :: later) (indent + 2)
        let (items, unread) ← parseSeqItems fuel unread indent
        return (.map line.number fields :: items, unread)
      else do
        let node ← parseInline rest line.number
        let (items, unread) ← parseSeqItems fuel later indent
        return (node :: items, unread)

/-- Parse the fields of a block mapping. -/
def parseMapFields :
    Nat → List Line → Nat → Parse (List (Str × Node) × List Line)
  | 0, _, _ => .error .outOfFuel
  | _ + 1, [], _ => .ok ([], [])
  | fuel + 1, line :: later, indent =>
    if line.indent < indent then
      .ok ([], line :: later)
    else if indent < line.indent then
      fail "unexpected indentation" line.number
    else if isSeqItem line.text then
      .ok ([], line :: later)
    else
      match keySplit line.text with
      | none => fail "expected 'key: value'" line.number
      | some colon =>
        let key := unquote (line.text.take colon)
        let value := trim (line.text.drop (colon + 1))
        if key = [] then
          fail "empty key" line.number
        else if value ≠ [] then do
          let node ← parseInline value line.number
          let (fields, unread) ← parseMapFields fuel later indent
          return ((key, node) :: fields, unread)
        else
          match later with
          | next :: _ =>
            if indent < next.indent then do
              let (node, unread) ← parseBlock fuel later next.indent
              let (fields, unread) ←
                parseMapFields fuel unread indent
              return ((key, node) :: fields, unread)
            else if next.indent = indent ∧
                isSeqItem next.text then do
              -- A sequence may sit at the indentation of its key.
              let (items, unread) ← parseSeqItems fuel later indent
              let (fields, unread) ←
                parseMapFields fuel unread indent
              return ((key, .seq next.number items) :: fields,
                unread)
            else do
              let (fields, unread) ←
                parseMapFields fuel later indent
              return ((key, .null line.number) :: fields, unread)
          | [] => return ([(key, .null line.number)], [])

end

/-- Parse a text into its tree. -/
def parse (text : Str) : Parse Node :=
  match splitLines text with
  | ([], _) => .ok (.null 1)
  | (_ :: _, some failure) => .error failure
  | (first :: later, none) => do
    let lines := first :: later
    let (root, unread) ←
      parseBlock (3 * lines.length + 3) lines first.indent
    match unread with
    | [] => return root
    | line :: _ =>
      fail "unexpected content (check indentation)" line.number

theorem length_skipBlanks_le (text : Str) :
    (skipBlanks text).length ≤ text.length :=
  (List.dropWhile_suffix _).length_le

/-- Cutting a scalar off leaves no more than there was. -/
theorem length_cutFlowScalar_le (inSingle inDouble : Bool) (text : Str) :
    (cutFlowScalar inSingle inDouble text).2.length ≤ text.length := by
  induction text generalizing inSingle inDouble with
  | nil => simp [cutFlowScalar]
  | cons char rest inductionHypothesis =>
    have shorter (openSingle openDouble : Bool) :
        (cutFlowScalar openSingle openDouble rest).2.length ≤
          (char :: rest).length :=
      (inductionHypothesis openSingle openDouble).trans (by simp)
    unfold cutFlowScalar
    split
    · exact shorter _ _
    · split
      · exact shorter _ _
      · split
        · simp
        · exact shorter _ _

theorem length_readFlowScalar_le (text : Str) :
    (readFlowScalar text).2.length ≤ text.length :=
  length_cutFlowScalar_le false false text

end Yaml

end Policyd
