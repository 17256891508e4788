import Policyd.YamlRendering

namespace Policyd

/-!
# Canonical block style is read back

Parsing the canonical rendering of a tree gives the tree.  The parser works on
the lines that remain, so the statements below are about lines followed by a
rest, where the rest is less indented than the block and ends it.
-/

namespace Node

mutual

/-- The content of a node, without its lines. -/
def tree : Node → Yaml.Tree
  | null _ => .null
  | scalar _ text => .scalar text
  | seq _ items => .seq (treeItems items)
  | map _ fields => .map (treeFields fields)

/-- The content of items. -/
def treeItems : List Node → List Yaml.Tree
  | [] => []
  | item :: later => item.tree :: treeItems later

/-- The content of fields. -/
def treeFields : List (Str × Node) → List (Str × Yaml.Tree)
  | [] => []
  | (key, value) :: later => (key, value.tree) :: treeFields later

end

end Node

namespace Yaml

theorem unquote_quoted (text : Str) :
    unquote (quoted text) = text := by
  have enclosed : enclosedIn '\'' (quoted text) = true := by
    have last : (quoted text).getLast? = some '\'' := by
      rw [quoted, ← List.cons_append, List.getLast?_concat]
    simp [enclosedIn, last]
    simp [quoted]
  have inside : ((quoted text).drop 1).dropLast = doubled text := by
    simp [quoted]
  rw [unquote, (solid_quoted text).trim_eq, if_pos enclosed, inside,
    unquoteSingle_doubled]

/-- A value written inline is read as its node. -/
theorem parseInline_inline
    {tree : Tree} (isInline : tree.isBlock = false) (line : Nat) :
    ∃ node, parseInline (inline tree) line = .ok node ∧ node.tree = tree := by
  cases tree with
  | null => exact ⟨.null line, rfl, rfl⟩
  | scalar text =>
    refine ⟨.scalar line text, ?_, rfl⟩
    have noFlow : startsFlow (quoted text) = false := rfl
    have notNull :
        ¬ (quoted text = [] ∨ quoted text = "~".toList ∨
          quoted text = "null".toList ∨ quoted text = "Null".toList ∨
          quoted text = "NULL".toList) := by
      simp [quoted]
    have head : (quoted text).head? = some '\'' := rfl
    rw [inline, parseInline, noFlow, if_neg (by decide), makeScalar,
      (solid_quoted text).trim_eq, if_neg notNull, head,
      if_neg (by decide), if_neg (by decide), unquote_quoted]
  | seq items =>
    cases items with
    | nil => exact ⟨.seq line [], rfl, rfl⟩
    | cons _ _ => cases isInline
  | map fields =>
    cases fields with
    | nil => exact ⟨.map line [], rfl, rfl⟩
    | cons _ _ => cases isInline

theorem keySplit_quoted_colon
    (key : Str) {tail : Str} (ends : tail = [] ∨ tail.head? = some ' ') :
    keySplit (quoted key ++ ':' :: tail) = some (quoted key).length := by
  rw [keySplit, keySplitFrom_quoted, Nat.zero_add]
  rcases ends with isEmpty | isBlank
  · simp [keySplitFrom, isEmpty]
  · simp [keySplitFrom, isBlank]

theorem keySplit_inline (tree : Tree) :
    ¬ (startsFlow (inline tree) = false ∧
      (keySplit (inline tree)).isSome = true) := by
  cases tree with
  | null => decide
  | scalar text =>
    have none : keySplit (quoted text) = .none := by
      have scanned := keySplitFrom_quoted 0 text []
      rw [List.append_nil] at scanned
      rw [keySplit, scanned, keySplitFrom]
    simp [inline, none]
  | seq items => simp [inline, startsFlow]
  | map fields => simp [inline, startsFlow]

theorem take_key (key tail : Str) :
    (quoted key ++ ':' :: tail).take (quoted key).length = quoted key :=
  List.take_left' rfl

theorem drop_key (key tail : Str) :
    (quoted key ++ ':' :: tail).drop ((quoted key).length + 1) = tail := by
  rw [List.drop_append]
  simp

theorem isSeqItem_quoted (key tail : Str) :
    isSeqItem (quoted key ++ tail) = false := rfl

/-- The lines behind a block are less indented. -/
def Below (indent : Nat) (rest : List Line) : Prop :=
  ∀ line ∈ rest.head?, line.indent < indent

section Steps

variable {indent fuel : Nat} {line next : Line}
variable {later unread rest : List Line}

theorem parseMapFields_below (below : Below indent rest) :
    parseMapFields (fuel + 1) rest indent = .ok ([], rest) := by
  cases rest with
  | nil =>
    rw [parseMapFields]
  | cons line later =>
    rw [parseMapFields, if_pos (below line rfl)]

theorem parseSeqItems_below (below : Below indent rest) :
    parseSeqItems (fuel + 1) rest indent = .ok ([], rest) := by
  cases rest with
  | nil =>
    rw [parseSeqItems]
  | cons line later =>
    rw [parseSeqItems.eq_def]
    exact if_pos (.inl (below line rfl).ne)

variable {body : Str} {node : Node} {fields : List (Str × Node)}
  {nodes : List Node}

/-- What is read in front of the others comes before them. -/
theorem ok_cons
    {Problem Item Rest : Type} {others : Except Problem (List Item × Rest)}
    {found : List Item} {left : Rest}
    (othersRead : others = .ok (found, left)) (item : Item) :
    (others >>= fun behind => pure (item :: behind.1, behind.2)) =
      .ok (item :: found, left) := by
  rw [othersRead]
  rfl

section

variable (atIndent : line.indent = indent)

include atIndent

/-- A field whose value is written behind its key. -/
theorem parseMapFields_inline {key : Str}
    (text : line.text = quoted key ++ ':' :: ' ' :: body) (solid : Solid body)
    (nonempty : key ≠ []) (read : parseInline body line.number = .ok node)
    (laterRead : parseMapFields fuel later indent = .ok (fields, rest)) :
    parseMapFields (fuel + 1) (line :: later) indent =
      .ok ((key, node) :: fields, rest) := by
  have found :
      keySplit (quoted key ++ ':' :: ' ' :: body) =
        some (quoted key).length :=
    keySplit_quoted_colon key (.inr rfl)
  have behind : trim (' ' :: body) = body := solid.trim_space
  rw [parseMapFields.eq_def]
  simp only [atIndent, Nat.lt_irrefl, if_false, text, isSeqItem_quoted,
    found, take_key, drop_key, unquote_quoted, if_neg nonempty, behind,
    ne_eq, solid.ne_nil, not_false_eq_true, if_true, read, laterRead,
    Bool.false_eq_true]
  rfl

theorem parseMapFields_block {key : Str}
    (text : line.text = quoted key ++ [':']) (nonempty : key ≠ [])
    (deeper : indent < next.indent)
    (read : parseBlock fuel (next :: later) next.indent = .ok (node, unread))
    (laterRead : parseMapFields fuel unread indent = .ok (fields, rest)) :
    parseMapFields (fuel + 1) (line :: next :: later) indent =
      .ok ((key, node) :: fields, rest) := by
  have found : keySplit (quoted key ++ [':']) = some (quoted key).length :=
    keySplit_quoted_colon key (.inl rfl)
  have behind : trim [] = [] := rfl
  rw [parseMapFields.eq_def]
  simp only [atIndent, Nat.lt_irrefl, if_false, text, isSeqItem_quoted,
    found, take_key, drop_key, unquote_quoted, if_neg nonempty, behind,
    ne_eq, not_true_eq_false, deeper, if_true, read, Bool.false_eq_true]
  exact ok_cons laterRead _

/-- An item whose value is written behind its dash. -/
theorem parseSeqItems_inline
    (text : line.text = '-' :: ' ' :: body) (solid : Solid body)
    (noField : ¬ (startsFlow body = false ∧ (keySplit body).isSome = true))
    (read : parseInline body line.number = .ok node)
    (laterRead : parseSeqItems fuel later indent = .ok (nodes, rest)) :
    parseSeqItems (fuel + 1) (line :: later) indent =
      .ok (node :: nodes, rest) := by
  have behind : trim (' ' :: body) = body := solid.trim_space
  have isItem : isSeqItem ('-' :: ' ' :: body) = true := by
    simp [isSeqItem]
  rw [parseSeqItems.eq_def]
  simp only [atIndent, text, isItem, ne_eq, not_true_eq_false,
    Bool.true_eq_false, or_self, if_false, List.drop_succ_cons,
    List.drop_zero, behind, solid.ne_nil, if_neg noField, read]
  exact ok_cons laterRead _

/-- An item whose value is the block below its dash. -/
theorem parseSeqItems_block
    (text : line.text = ['-']) (deeper : indent < next.indent)
    (read : parseBlock fuel (next :: later) next.indent = .ok (node, unread))
    (laterRead : parseSeqItems fuel unread indent = .ok (nodes, rest)) :
    parseSeqItems (fuel + 1) (line :: next :: later) indent =
      .ok (node :: nodes, rest) := by
  have isItem : isSeqItem ['-'] = true := rfl
  have behind : trim [] = [] := rfl
  rw [parseSeqItems.eq_def]
  simp only [atIndent, text, isItem, ne_eq, not_true_eq_false,
    Bool.true_eq_false, or_self, if_false, List.drop_succ_cons,
    List.drop_zero, behind, if_true, deeper, read]
  exact ok_cons laterRead _

/-- An item that is a mapping; its first field stands behind the dash. -/
theorem parseSeqItems_map
    (text : line.text = '-' :: ' ' :: body) (solid : Solid body)
    (noFlow : startsFlow body = false) (hasKey : (keySplit body).isSome = true)
    (read :
      parseMapFields fuel
          ({ line with indent := indent + 2, text := body } :: later)
          (indent + 2) =
        .ok (fields, unread))
    (laterRead : parseSeqItems fuel unread indent = .ok (nodes, rest)) :
    parseSeqItems (fuel + 1) (line :: later) indent =
      .ok (.map line.number fields :: nodes, rest) := by
  have behind : trim (' ' :: body) = body := solid.trim_space
  have isItem : isSeqItem ('-' :: ' ' :: body) = true := by
    simp [isSeqItem]
  rw [parseSeqItems.eq_def]
  simp only [atIndent, text, isItem, ne_eq, not_true_eq_false,
    Bool.true_eq_false, or_self, if_false, List.drop_succ_cons,
    List.drop_zero, behind, solid.ne_nil, noFlow, hasKey, and_self,
    if_true]
  rw [read]
  exact ok_cons laterRead _

end

end Steps

theorem underDash_cons (indent : Nat) (item : Tree) (block : List Rendered) :
    ∃ first later,
      underDash indent item block = first :: later ∧
        first.indent = indent ∧
        isSeqItem first.text = true := by
  unfold underDash
  split
  next => exact ⟨_, _, rfl, rfl, rfl⟩
  next => exact ⟨_, _, rfl, rfl, rfl⟩
  next => exact ⟨_, _, rfl, rfl, rfl⟩

theorem underKey_cons
    (indent : Nat) (key : Str) (value : Tree) (block : List Rendered) :
    ∃ first later tail,
      underKey indent key value block = first :: later ∧
        first.indent = indent ∧
        first.text = quoted key ++ ':' :: tail ∧
        (tail = [] ∨ tail.head? = some ' ') := by
  unfold underKey
  split
  next => exact ⟨_, _, _, rfl, rfl, rfl, .inr rfl⟩
  next => exact ⟨_, _, _, rfl, rfl, rfl, .inl rfl⟩

variable {indent fuel : Nat} {lines rest itemPart unread : List Line}
  {nodes : List Node}

theorem Below.append (atIndent : ∀ line ∈ lines.head?, line.indent = indent)
    (below : Below indent rest) :
    Below (indent + 2) (lines ++ rest) := by
  intro line isHead
  cases lines with
  | nil => exact (below line isHead).trans (by omega)
  | cons first later =>
    cases isHead
    rw [atIndent line rfl]
    omega

theorem indent_of_itemLines {items : List Tree}
    (shape : lines.map Line.rendered = itemLines indent items) :
    ∀ line ∈ lines.head?, line.indent = indent := by
  intro line isHead
  cases items with
  | nil =>
    rw [itemLines, List.map_eq_nil_iff] at shape
    rw [shape] at isHead
    cases isHead
  | cons item later =>
    obtain ⟨first, others, isFirst, atIndent, _⟩ :=
      underDash_cons indent item (blockLines (indent + 2) item)
    rw [itemLines, isFirst, List.cons_append] at shape
    obtain ⟨head, tail, rfl, isRendered, _⟩ := List.map_eq_cons_iff.mp shape
    cases isHead
    exact (congrArg Rendered.indent isRendered).trans atIndent

theorem indent_of_fieldLines {fields : List (Str × Tree)}
    (shape : lines.map Line.rendered = fieldLines indent fields) :
    ∀ line ∈ lines.head?, line.indent = indent := by
  intro line isHead
  cases fields with
  | nil =>
    rw [fieldLines, List.map_eq_nil_iff] at shape
    rw [shape] at isHead
    cases isHead
  | cons field later =>
    obtain ⟨first, others, _, isFirst, atIndent, _⟩ :=
      underKey_cons indent field.1 field.2 (blockLines (indent + 2) field.2)
    rw [fieldLines, isFirst, List.cons_append] at shape
    obtain ⟨head, tail, rfl, isRendered, _⟩ := List.map_eq_cons_iff.mp shape
    cases isHead
    exact (congrArg Rendered.indent isRendered).trans atIndent

/-- Rendered items are read back, and the rest is left. -/
def ItemsReadBack (items : List Tree) : Prop :=
  ∀ (indent fuel : Nat) (lines rest : List Line),
    lines.map Line.rendered = itemLines indent items →
    3 * lines.length + 2 ≤ fuel →
    Below indent rest →
      ∃ nodes,
        parseSeqItems fuel (lines ++ rest) indent = .ok (nodes, rest) ∧
          Node.treeItems nodes = items

/-- Rendered fields are read back, and the rest is left. -/
def FieldsReadBack (fields : List (Str × Tree)) : Prop :=
  ∀ (indent fuel : Nat) (lines rest : List Line),
    lines.map Line.rendered = fieldLines indent fields →
    3 * lines.length + 1 ≤ fuel →
    Below indent rest →
      ∃ nodes,
        parseMapFields fuel (lines ++ rest) indent = .ok (nodes, rest) ∧
          Node.treeFields nodes = fields

/-- The content of a collection is read back. -/
def ReadBack : Tree → Prop
  | .seq items => ItemsReadBack items
  | .map fields => FieldsReadBack fields
  | _ => True

theorem parseBlock_of_readBack {tree : Tree}
    (isBlock : tree.isBlock = true) (readBack : ReadBack tree)
    (shape : lines.map Line.rendered = blockLines indent tree)
    (enough : 3 * lines.length + 3 ≤ fuel) (below : Below indent rest) :
    ∃ node,
      parseBlock fuel (lines ++ rest) indent = .ok (node, rest) ∧
        node.tree = tree := by
  obtain ⟨fuel, rfl⟩ : ∃ smaller, fuel = smaller + 1 := ⟨fuel - 1, by omega⟩
  cases tree with
  | null => cases isBlock
  | scalar text => cases isBlock
  | seq items =>
    rw [blockLines] at shape
    obtain ⟨nodes, read, same⟩ :=
      readBack indent fuel lines rest shape (by omega) below
    cases items with
    | nil => cases isBlock
    | cons item later =>
      obtain ⟨first, others, isFirst, _, isItem⟩ :=
        underDash_cons indent item (blockLines (indent + 2) item)
      rw [itemLines, isFirst, List.cons_append] at shape
      obtain ⟨head, tail, rfl, isRendered, _⟩ := List.map_eq_cons_iff.mp shape
      have headItem : isSeqItem head.text = true := by
        rw [← isItem, ← isRendered]
        rfl
      refine ⟨.seq head.number nodes, ?_, ?_⟩
      · rw [List.cons_append, parseBlock, if_pos headItem,
          ← List.cons_append, read]
        rfl
      · rw [Node.tree, same]
  | map fields =>
    rw [blockLines] at shape
    obtain ⟨nodes, read, same⟩ :=
      readBack indent fuel lines rest shape (by omega) below
    cases fields with
    | nil => cases isBlock
    | cons field later =>
      obtain ⟨first, others, tail, isFirst, _, isKey, _⟩ :=
        underKey_cons indent field.1 field.2 (blockLines (indent + 2) field.2)
      rw [fieldLines, isFirst, List.cons_append] at shape
      obtain ⟨head, tail, rfl, isRendered, _⟩ := List.map_eq_cons_iff.mp shape
      have headKey : ¬ isSeqItem head.text = true := by
        have text : head.text = first.text := congrArg Rendered.text isRendered
        rw [text, isKey, isSeqItem_quoted]
        decide
      refine ⟨.map head.number nodes, ?_, ?_⟩
      · rw [List.cons_append, parseBlock, if_neg headKey,
          ← List.cons_append, read]
        rfl
      · rw [Node.tree, same]

/-- Only empty collections and single values have no lines of their own. -/
theorem blockLines_eq_nil_iff (indent : Nat) (tree : Tree) :
    blockLines indent tree = [] ↔ tree.isBlock = false := by
  cases tree with
  | null => simp [blockLines, Tree.isBlock]
  | scalar text => simp [blockLines, Tree.isBlock]
  | seq items =>
    cases items with
    | nil => simp [blockLines, itemLines, Tree.isBlock]
    | cons item later =>
      obtain ⟨first, others, isFirst, _⟩ :=
        underDash_cons indent item (blockLines (indent + 2) item)
      simp [blockLines, itemLines, isFirst, Tree.isBlock]
  | map fields =>
    cases fields with
    | nil => simp [blockLines, fieldLines, Tree.isBlock]
    | cons field later =>
      obtain ⟨first, others, _, isFirst, _⟩ :=
        underKey_cons indent field.1 field.2 (blockLines (indent + 2) field.2)
      simp [blockLines, fieldLines, isFirst, Tree.isBlock]

theorem indent_of_blockLines
    {tree : Tree} (shape : lines.map Line.rendered = blockLines indent tree) :
    ∀ line ∈ lines.head?, line.indent = indent := by
  cases tree with
  | null =>
    rw [List.map_eq_nil_iff.mp shape]
    exact nofun
  | scalar text =>
    rw [List.map_eq_nil_iff.mp shape]
    exact nofun
  | seq items =>
    rw [blockLines] at shape
    exact indent_of_itemLines shape
  | map fields =>
    rw [blockLines] at shape
    exact indent_of_fieldLines shape

theorem FieldsReadBack.cons {key : Str} (nonempty : key ≠ []) {value : Tree}
    (valueBack : ReadBack value)
    {later : List (Str × Tree)}
    (laterBack : FieldsReadBack later) :
    FieldsReadBack ((key, value) :: later) := by
  intro indent fuel lines rest shape enough below
  obtain ⟨fuel, rfl⟩ : ∃ smaller, fuel = smaller + 1 := ⟨fuel - 1, by omega⟩
  rw [fieldLines] at shape
  obtain ⟨fieldPart, laterPart, rfl, fieldShape, laterShape⟩ :=
    List.map_eq_append_iff.mp shape
  have restBelow : Below (indent + 2) (laterPart ++ rest) :=
    below.append (indent_of_fieldLines laterShape)
  rw [List.length_append] at enough
  cases blockShape : blockLines (indent + 2) value with
  | nil =>
    rw [blockShape, underKey] at fieldShape
    obtain ⟨line, none, rfl, isRendered, noneShape⟩ :=
      List.map_eq_cons_iff.mp fieldShape
    cases List.map_eq_nil_iff.mp noneShape
    rw [List.length_singleton] at enough
    obtain ⟨nodes, laterRead, sameLater⟩ :=
      laterBack indent fuel laterPart rest laterShape (by omega) below
    obtain ⟨node, read, same⟩ :=
      parseInline_inline ((blockLines_eq_nil_iff _ _).mp blockShape) line.number
    refine ⟨(key, node) :: nodes, ?_, ?_⟩
    · exact parseMapFields_inline (congrArg Rendered.indent isRendered)
        (congrArg Rendered.text isRendered) (solid_inline value) nonempty
        read laterRead
    · rw [Node.treeFields, same, sameLater]
  | cons first others =>
    rw [blockShape, underKey] at fieldShape
    obtain ⟨line, blockPart, rfl, isRendered, partShape⟩ :=
      List.map_eq_cons_iff.mp fieldShape
    have isBlock : value.isBlock = true := by
      by_contra notBlock
      have noLines :=
        (blockLines_eq_nil_iff (indent + 2) value).mpr
          (Bool.eq_false_iff.mpr notBlock)
      rw [noLines] at blockShape
      cases blockShape
    rw [← blockShape] at partShape
    rw [List.length_cons] at enough
    obtain ⟨node, read, same⟩ :=
      parseBlock_of_readBack isBlock valueBack partShape
        (by omega : _ ≤ fuel) restBelow
    obtain ⟨nodes, laterRead, sameLater⟩ :=
      laterBack indent fuel laterPart rest laterShape (by omega) below
    obtain ⟨next, blockRest, rfl, _⟩ :=
      List.map_eq_cons_iff.mp (partShape.trans blockShape)
    have nextIndent : next.indent = indent + 2 :=
      indent_of_blockLines partShape next rfl
    refine ⟨(key, node) :: nodes, ?_, ?_⟩
    · rw [← nextIndent] at read
      rw [List.append_assoc]
      exact parseMapFields_block (congrArg Rendered.indent isRendered)
        (congrArg Rendered.text isRendered) nonempty
        (nextIndent ▸ Nat.lt_add_of_pos_right (by decide)) read laterRead
    · rw [Node.treeFields, same, sameLater]

/-- A mapping behind a dash is read back. -/
theorem parseSeqItems_of_map {fields : List (Str × Tree)}
    (isBlock : (Tree.map fields).isBlock = true)
    (renderable : (Tree.map fields).renderable = true)
    (fieldsBack : FieldsReadBack fields)
    (itemShape :
      itemPart.map Line.rendered =
        underDash indent (.map fields) (blockLines (indent + 2) (.map fields)))
    (enough : 3 * itemPart.length + 1 ≤ fuel)
    (restBelow : Below (indent + 2) unread)
    (laterRead : parseSeqItems fuel unread indent = .ok (nodes, rest)) :
    ∃ node,
      parseSeqItems (fuel + 1) (itemPart ++ unread) indent =
          .ok (node :: nodes, rest) ∧
        node.tree = .map fields := by
  cases fields with
  | nil => cases isBlock
  | cons field others =>
    obtain ⟨first, block, tail, isFirst, firstIndent, isKey, ends⟩ :=
      underKey_cons (indent + 2) field.1 field.2
        (blockLines (indent + 2 + 2) field.2)
    have blockShape :
        fieldLines (indent + 2) (field :: others) =
          first :: (block ++ fieldLines (indent + 2) others) := by
      rw [fieldLines, isFirst, List.cons_append]
    have readable : Readable first.text := by
      refine readable_fieldLines (indent + 2) (field :: others)
        renderable first ?_
      rw [blockShape]
      exact List.mem_cons_self
    rw [blockLines, blockShape, underDash] at itemShape
    obtain ⟨line, blockPart, rfl, isRendered, partShape⟩ :=
      List.map_eq_cons_iff.mp itemShape
    -- The line with its dash taken off is the first line of the mapping.
    have rewritten :
        ({ line with indent := indent + 2, text := first.text } ::
            blockPart).map Line.rendered =
          fieldLines (indent + 2) (field :: others) := by
      rw [blockShape, List.map_cons, partShape, ← firstIndent]
      rfl
    obtain ⟨fieldNodes, read, same⟩ :=
      fieldsBack (indent + 2) fuel _ unread rewritten
        (by simpa using enough) restBelow
    refine ⟨.map line.number fieldNodes, ?_, ?_⟩
    · refine parseSeqItems_map (congrArg Rendered.indent isRendered)
        (congrArg Rendered.text isRendered) readable.solid ?_ ?_ read
        laterRead
      · rw [isKey]
        rfl
      · rw [isKey, keySplit_quoted_colon field.1 ends]
        rfl
    · rw [Node.tree, same]

/-- A sequence below a bare dash is read back. -/
theorem parseSeqItems_of_seq {items : List Tree}
    (isBlock : (Tree.seq items).isBlock = true)
    (itemsBack : ItemsReadBack items)
    (itemShape :
      itemPart.map Line.rendered =
        underDash indent (.seq items) (blockLines (indent + 2) (.seq items)))
    (enough : 3 * itemPart.length ≤ fuel)
    (restBelow : Below (indent + 2) unread)
    (laterRead : parseSeqItems fuel unread indent = .ok (nodes, rest)) :
    ∃ node,
      parseSeqItems (fuel + 1) (itemPart ++ unread) indent =
          .ok (node :: nodes, rest) ∧
        node.tree = .seq items := by
  cases blockShape : blockLines (indent + 2) (.seq items) with
  | nil =>
    rw [blockLines_eq_nil_iff, isBlock] at blockShape
    cases blockShape
  | cons first others =>
    rw [blockShape, underDash] at itemShape
    obtain ⟨line, blockPart, rfl, isRendered, partShape⟩ :=
      List.map_eq_cons_iff.mp itemShape
    rw [← blockShape] at partShape
    rw [List.length_cons] at enough
    obtain ⟨node, read, same⟩ :=
      parseBlock_of_readBack isBlock itemsBack partShape
        (by omega : _ ≤ fuel) restBelow
    obtain ⟨next, blockRest, rfl, _⟩ :=
      List.map_eq_cons_iff.mp (partShape.trans blockShape)
    have nextIndent : next.indent = indent + 2 :=
      indent_of_blockLines partShape next rfl
    rw [← nextIndent] at read
    exact ⟨node,
      parseSeqItems_block (congrArg Rendered.indent isRendered)
        (congrArg Rendered.text isRendered)
        (nextIndent ▸ Nat.lt_add_of_pos_right (by decide)) read
        laterRead,
      same⟩

/-- A value behind a dash is read back. -/
theorem parseSeqItems_of_inline {item : Tree} (isInline : item.isBlock = false)
    (itemShape :
      itemPart.map Line.rendered =
        underDash indent item (blockLines (indent + 2) item))
    (laterRead : parseSeqItems fuel unread indent = .ok (nodes, rest)) :
    ∃ node,
      parseSeqItems (fuel + 1) (itemPart ++ unread) indent =
          .ok (node :: nodes, rest) ∧
        node.tree = item := by
  have noBlock := (blockLines_eq_nil_iff (indent + 2) item).mpr isInline
  have oneLine :
      underDash indent item [] =
        [{ indent := indent, text := '-' :: ' ' :: inline item }] := by
    cases item <;> rfl
  rw [noBlock, oneLine] at itemShape
  obtain ⟨line, none, rfl, isRendered, noneShape⟩ :=
    List.map_eq_cons_iff.mp itemShape
  cases List.map_eq_nil_iff.mp noneShape
  obtain ⟨node, read, same⟩ := parseInline_inline isInline line.number
  exact ⟨node,
    parseSeqItems_inline (congrArg Rendered.indent isRendered)
      (congrArg Rendered.text isRendered) (solid_inline item)
      (keySplit_inline item) read laterRead,
    same⟩

theorem ItemsReadBack.cons {item : Tree}
    (renderable : item.renderable = true) (itemBack : ReadBack item)
    {later : List Tree}
    (laterBack : ItemsReadBack later) :
    ItemsReadBack (item :: later) := by
  intro indent fuel lines rest shape enough below
  obtain ⟨fuel, rfl⟩ : ∃ smaller, fuel = smaller + 1 := ⟨fuel - 1, by omega⟩
  rw [itemLines] at shape
  obtain ⟨itemPart, laterPart, rfl, itemShape, laterShape⟩ :=
    List.map_eq_append_iff.mp shape
  have restBelow : Below (indent + 2) (laterPart ++ rest) :=
    below.append (indent_of_itemLines laterShape)
  rw [List.length_append] at enough
  have itemNonempty : 0 < itemPart.length := by
    obtain ⟨first, others, isFirst, _⟩ :=
      underDash_cons indent item (blockLines (indent + 2) item)
    rw [isFirst] at itemShape
    have sameLength := congrArg List.length itemShape
    rw [List.length_map, List.length_cons] at sameLength
    omega
  obtain ⟨nodes, laterRead, sameLater⟩ :=
    laterBack indent fuel laterPart rest laterShape (by omega) below
  have itemRead :
      ∃ node,
        parseSeqItems (fuel + 1) (itemPart ++ (laterPart ++ rest)) indent =
            .ok (node :: nodes, rest) ∧
          node.tree = item := by
    by_cases isBlock : item.isBlock = true
    · cases item with
      | null => cases isBlock
      | scalar text => cases isBlock
      | map fields =>
        exact parseSeqItems_of_map isBlock renderable itemBack itemShape
          (by omega) restBelow laterRead
      | seq items =>
        exact parseSeqItems_of_seq isBlock itemBack itemShape (by omega)
          restBelow laterRead
    · exact parseSeqItems_of_inline (Bool.eq_false_iff.mpr isBlock)
        itemShape laterRead
  obtain ⟨node, read, same⟩ := itemRead
  refine ⟨node :: nodes, ?_, ?_⟩
  · rw [List.append_assoc, read]
  · rw [Node.treeItems, same, sameLater]

mutual

theorem readBack :
    ∀ tree : Tree, tree.renderable = true → ReadBack tree
  | .null, _ => trivial
  | .scalar _, _ => trivial
  | .seq items, renderable => itemsReadBack items renderable
  | .map fields, renderable => fieldsReadBack fields renderable

theorem itemsReadBack :
    ∀ items : List Tree, Tree.renderableItems items = true → ItemsReadBack items
  | [], _ => by
    intro indent fuel lines rest shape enough below
    cases List.map_eq_nil_iff.mp (shape.trans (by rw [itemLines]))
    obtain ⟨fuel, rfl⟩ : ∃ smaller, fuel = smaller + 1 := ⟨fuel - 1, by omega⟩
    exact ⟨[], parseSeqItems_below below, rfl⟩
  | item :: later, renderable => by
    simp only [Tree.renderableItems, Bool.and_eq_true] at renderable
    exact ItemsReadBack.cons renderable.1 (readBack item renderable.1)
      (itemsReadBack later renderable.2)

theorem fieldsReadBack :
    ∀ fields : List (Str × Tree), Tree.renderableFields fields = true →
      FieldsReadBack fields
  | [], _ => by
    intro indent fuel lines rest shape enough below
    cases List.map_eq_nil_iff.mp (shape.trans (by rw [fieldLines]))
    obtain ⟨fuel, rfl⟩ : ∃ smaller, fuel = smaller + 1 := ⟨fuel - 1, by omega⟩
    exact ⟨[], parseMapFields_below below, rfl⟩
  | (key, value) :: later, renderable => by
    obtain ⟨nonempty, _, valueRenderable, laterRenderable⟩ :=
      renderableFields_cons renderable
    exact FieldsReadBack.cons nonempty
      (readBack value valueRenderable)
      (fieldsReadBack later laterRenderable)

end

theorem splitLines_linesText
    {lines : List Rendered} (readable : ∀ line ∈ lines, Readable line.text) :
    ∃ parsed,
      splitLines (linesText (lines.map Rendered.raw)) = (parsed, none) ∧
        parsed.map Line.rendered = lines := by
  have plain : ∀ line ∈ lines.map Rendered.raw, '\n' ∉ line := by
    intro raw member
    obtain ⟨line, lineMember, rfl⟩ := List.mem_map.mp member
    simp only [Rendered.raw, List.mem_append, not_or]
    exact ⟨by simp, (readable line lineMember).oneLine⟩
  obtain ⟨parsed, split, shape⟩ := splitLinesFrom_rendered readable 1
  refine ⟨parsed, ?_, shape⟩
  rw [splitLines, splitOn_linesText plain, split]

/-- A document is the block of all its lines. -/
theorem parse_of_parseBlock
    {text : Str} {first : Line} {later : List Line} {root : Node}
    (lines : splitLines text = (first :: later, none))
    (read :
      parseBlock (3 * (first :: later).length + 3) (first :: later)
          first.indent =
        .ok (root, [])) :
    parse text = .ok root := by
  rw [parse, lines]
  dsimp only
  rw [read]
  rfl

/-- Parsing the canonical rendering of a collection gives the collection. -/
theorem parse_render
    (tree : Tree)
    (renderable : tree.renderable = true)
    (isBlock : tree.isBlock = true) :
    ∃ root, parse (render tree) = .ok root ∧ root.tree = tree := by
  have readable := readable_blockLines 0 tree renderable
  obtain ⟨parsed, lines, shape⟩ := splitLines_linesText readable
  cases parsed with
  | nil =>
    rw [List.map_nil, eq_comm, blockLines_eq_nil_iff, isBlock] at shape
    cases shape
  | cons first later =>
    have firstIndent : first.indent = 0 :=
      indent_of_blockLines shape first rfl
    obtain ⟨root, read, same⟩ :=
      parseBlock_of_readBack isBlock (readBack tree renderable) shape
        (Nat.le_refl (3 * (first :: later).length + 3))
        (nofun : Below 0 [])
    refine ⟨root, parse_of_parseBlock lines ?_, same⟩
    rw [firstIndent]
    rwa [List.append_nil] at read

/-- A document with nested collections and quotes is read back. -/
theorem parse_render_nested :
    ∃ root,
      parse
          (render
            (.map
              [("a".toList,
                  .seq [.map [("b: #".toList, .null)], .seq [.null]]),
                ("it's".toList, .seq [])])) =
          .ok root ∧
        root.tree =
          .map
            [("a".toList,
                .seq [.map [("b: #".toList, .null)], .seq [.null]]),
              ("it's".toList, .seq [])] :=
  parse_render _ (by decide) (by decide)

end Yaml

end Policyd
