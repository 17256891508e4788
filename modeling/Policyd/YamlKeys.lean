import Policyd.YamlConsumption

namespace Policyd

namespace Yaml

/-!
# Keys that are written twice

A mapping of the tree has the keys its lines or its flow text write, in order.
The parser does not compare them.  When no mapping of the text writes a key
twice, every mapping of the tree has each key once, and the lookup of a key
finds the same entries as a loop over the fields.

In block style two lines write into the same mapping when their keys stand in
the same column and no line between them stands further to the left.
-/

/-- The key of a field. -/
def fieldKey (text : Str) : Option Str :=
  (keySplit text).map fun colon => unquote (text.take colon)

/-- The column and the key of the field that a line writes. -/
def entryOf (line : Line) : Option (Nat × Str) :=
  (fieldOf line).bind fun (column, text) =>
    (fieldKey text).map (column, ·)

/-- No line writes a key again before its mapping ends. -/
def keyApart (column : Nat) (key : Str) : List Line → Bool
  | [] => true
  | line :: later =>
    line.indent < column ||
      entryOf line != some (column, key) && keyApart column key later

/-- No two lines write the same key into the same mapping. -/
def keysApart : List Line → Bool
  | [] => true
  | line :: later =>
    (entryOf line).all (fun (column, key) => keyApart column key later) &&
      keysApart later

/-- No flow mapping inside a text writes a key twice. -/
def FlowKeysApart (text : Str) : Prop :=
  ∀ before body after,
    text = before ++ '\x7b' :: (body ++ after) →
      ∀ line fields,
        FlowReads line body (.fields fields) →
          (fields.map Prod.fst).Nodup

/-- No mapping of some lines writes a key twice. -/
structure WritesKeysOnce (lines : List Line) : Prop where
  blocks : keysApart lines = true
  flows : ∀ line ∈ lines, FlowKeysApart line.text

/-- A node that stands somewhere in a tree. -/
inductive Contains : Node → Node → Prop
  | self {node : Node} :
      Contains node node
  | item {line : Nat} {items : List Node} {item inner : Node}
      (member : item ∈ items)
      (inside : Contains item inner) :
      Contains (.seq line items) inner
  | field {line : Nat} {fields : List (Str × Node)} {key : Str}
      {value inner : Node}
      (member : (key, value) ∈ fields)
      (inside : Contains value inner) :
      Contains (.map line fields) inner

/-- Every mapping of a tree has each key once. -/
def KeysOnce (root : Node) : Prop :=
  ∀ line fields,
    Contains root (.map line fields) → (fields.map Prod.fst).Nodup

/-- Every mapping in a part of a tree has each key once. -/
def Part.KeysOnce : Part → Prop
  | .node root => Yaml.KeysOnce root
  | .items list => ∀ item ∈ list, Yaml.KeysOnce item
  | .fields list => ∀ field ∈ list, Yaml.KeysOnce field.2

variable {node : Node} {line indent : Nat} {text key value : Str}
  {part : Part} {lines : List Line}

theorem keysOnce_of_leaf
    (notSeq : node.isSeq = false) (notMap : node.isMap = false) :
    KeysOnce node := by
  intro line fields inside
  cases inside with
  | self => cases notMap
  | item => cases notSeq
  | field => cases notMap

theorem keysOnce_seq
    {items : List Node} (once : ∀ item ∈ items, KeysOnce item) :
    KeysOnce (.seq line items) := by
  intro innerLine fields inside
  cases inside with
  | item member deeper => exact once _ member innerLine fields deeper

theorem keysOnce_map {fields : List (Str × Node)}
    (nodup : (fields.map Prod.fst).Nodup)
    (once : ∀ field ∈ fields, KeysOnce field.2) :
    KeysOnce (.map line fields) := by
  intro innerLine innerFields inside
  cases inside with
  | self => exact nodup
  | field member deeper => exact once _ member innerLine innerFields deeper

theorem keysOnce_of_makeScalar (made : makeScalar text line = .ok node) :
    KeysOnce node := by
  rw [makeScalar] at made
  split at made
  · cases made
    exact keysOnce_of_leaf rfl rfl
  split at made
  · cases made
  split at made
  · cases made
  · cases made
    exact keysOnce_of_leaf rfl rfl

theorem FlowKeysApart.of_infix
    {part : Str} (apart : FlowKeysApart text) (inside : part <:+: text) :
    FlowKeysApart part := by
  obtain ⟨pre, post, rfl⟩ := inside
  rintro before body after rfl
  exact apart (pre ++ before) body (after ++ post) (by simp)

theorem FlowReads.keysOnce
    (reads : FlowReads line text part) (apart : FlowKeysApart text) :
    part.KeysOnce := by
  induction reads with
  | @seq pad _ _ blanks reads inductionHypothesis =>
    exact keysOnce_seq
      (inductionHypothesis (apart.of_infix ⟨pad ++ ['['], [], by simp⟩))
  | @map pad body fields blanks reads inductionHypothesis =>
    refine keysOnce_map (apart pad body [] (by simp) line fields reads) ?_
    exact inductionHypothesis (apart.of_infix ⟨pad ++ ['\x7b'], [], by simp⟩)
  | scalar blanks begins plain closed made =>
    exact keysOnce_of_makeScalar made
  | closeItems blanks => exact nofun
  | lastItem reads blanks inductionHypothesis =>
    exact List.forall_mem_singleton.mpr
      (inductionHypothesis (apart.of_infix ⟨[], _, rfl⟩))
  | @nextItem value pad rest _ _ reads blanks others inductionHypothesis
      othersHypothesis =>
      refine List.forall_mem_cons.mpr
        ⟨inductionHypothesis ?_, othersHypothesis ?_⟩
      · exact apart.of_infix ⟨[], _, rfl⟩
      · exact apart.of_infix ⟨value ++ (pad ++ [',']), [], by simp⟩
  | closeFields blanks => exact nofun
  | @lastField pad key value closing _ blanks closed reads closes
      inductionHypothesis =>
      refine List.forall_mem_singleton.mpr (inductionHypothesis ?_)
      exact apart.of_infix ⟨pad ++ (key ++ [':']), closing ++ ['\x7d'], by simp⟩
  | @nextField pad key value closing rest _ _ blanks closed reads closes
      others inductionHypothesis othersHypothesis =>
      refine List.forall_mem_cons.mpr
        ⟨inductionHypothesis ?_, othersHypothesis ?_⟩
      · exact apart.of_infix
          ⟨pad ++ (key ++ [':']), closing ++ ',' :: rest, by simp⟩
      · exact apart.of_infix
          ⟨pad ++ (key ++ ':' :: (value ++ (closing ++ [',']))), [], by simp⟩

theorem trim_isInfix (text : Str) :
    trim text <:+: text :=
  ((List.rdropWhile_prefix _ _).isInfix).trans (List.dropWhile_suffix _).isInfix

theorem InlineReads.keysOnce
    (reads : InlineReads line text node) (apart : FlowKeysApart text) :
    KeysOnce node := by
  rw [InlineReads] at reads
  split at reads
  · obtain ⟨collection, pad, rfl, _, flowReads⟩ := reads
    exact flowReads.keysOnce (apart.of_infix ⟨[], pad, by simp⟩)
  · exact keysOnce_of_makeScalar reads

theorem keyApart_of_append {column : Nat} (others : List Line)
    (apart : keyApart column key (lines ++ others) = true) :
    keyApart column key lines = true := by
  induction lines with
  | nil => rfl
  | cons line later inductionHypothesis =>
    rw [List.cons_append, keyApart, Bool.or_eq_true, Bool.and_eq_true] at apart
    rw [keyApart, Bool.or_eq_true, Bool.and_eq_true]
    exact apart.imp_right fun both =>
      ⟨both.1, inductionHypothesis both.2⟩

theorem keysApart_of_append
    {others : List Line} (apart : keysApart (lines ++ others) = true) :
    keysApart lines = true ∧ keysApart others = true := by
  induction lines with
  | nil => exact ⟨rfl, apart⟩
  | cons line later inductionHypothesis =>
    rw [List.cons_append, keysApart, Bool.and_eq_true] at apart
    obtain ⟨laterApart, othersApart⟩ := inductionHypothesis apart.2
    refine ⟨?_, othersApart⟩
    rw [keysApart, Bool.and_eq_true]
    refine ⟨?_, laterApart⟩
    rw [Option.all_eq_true] at apart ⊢
    exact fun entry isEntry =>
      keyApart_of_append others (apart.1 entry isEntry)

/-- Within its mapping a key is not written again. -/
theorem not_entry_of_keyApart
    {column : Nat} {front after : List Line} {line : Line}
    (apart : keyApart column key (front ++ line :: after) = true)
    (deeper : ∀ other ∈ front, column ≤ other.indent)
    (lineDeeper : column ≤ line.indent) :
    entryOf line ≠ some (column, key) := by
  induction front with
  | nil =>
    rw [List.nil_append, keyApart, Bool.or_eq_true, Bool.and_eq_true,
      bne_iff_ne, decide_eq_true_iff] at apart
    exact (apart.resolve_left (Nat.not_lt.mpr lineDeeper)).1
  | cons other later inductionHypothesis =>
    obtain ⟨otherDeeper, laterDeeper⟩ := List.forall_mem_cons.mp deeper
    rw [List.cons_append, keyApart, Bool.or_eq_true, Bool.and_eq_true,
      decide_eq_true_iff] at apart
    exact inductionHypothesis
      (apart.resolve_left (Nat.not_lt.mpr otherDeeper)).2 laterDeeper

theorem Field.entryOf_eq {line : Line} (field : Field indent line key value) :
    entryOf line = some (indent, key) := by
  obtain ⟨colon, found, isKey, _⟩ := field.split
  simp only [entryOf, field.fieldOf_eq, Option.bind_some, fieldKey, found,
    Option.map_some, isKey]

theorem BlockReads.indent_le (reads : BlockReads indent lines part) :
    ∀ line ∈ lines, indent ≤ line.indent := by
  induction reads with
  | seq _ _ inductionHypothesis => exact inductionHypothesis
  | map _ _ inductionHypothesis => exact inductionHypothesis
  | noItems => exact nofun
  | noFields => exact nofun
  | nestedItem dash deeper _ _ block others =>
    rw [List.forall_mem_cons, List.forall_mem_append]
    exact ⟨dash.atIndent.ge,
      fun line member => deeper.le.trans (block line member), others⟩
  | emptyItem dash _ others =>
    rw [List.forall_mem_cons]
    exact ⟨dash.atIndent.ge, others⟩
  | mappingItem dash _ _ _ block others =>
    obtain ⟨_, inside⟩ := List.forall_mem_cons.mp block
    rw [List.forall_mem_cons, List.forall_mem_append]
    exact ⟨dash.atIndent.ge,
      fun line member => Nat.le_of_add_right_le (inside line member),
      others⟩
  | inlineItem dash _ _ _ _ others =>
    rw [List.forall_mem_cons]
    exact ⟨dash.atIndent.ge, others⟩
  | inlineField field _ _ _ others =>
    rw [List.forall_mem_cons]
    exact ⟨field.atIndent.ge, others⟩
  | nestedField field deeper _ _ block others =>
    rw [List.forall_mem_cons, List.forall_mem_append]
    exact ⟨field.atIndent.ge,
      fun line member => deeper.le.trans (block line member), others⟩
  | sequenceField field _ _ _ block others =>
    rw [List.forall_mem_cons, List.forall_mem_append]
    exact ⟨field.atIndent.ge, block, others⟩
  | nullField field _ others =>
    rw [List.forall_mem_cons]
    exact ⟨field.atIndent.ge, others⟩

/-- The keys of a part that is a list of fields. -/
def Part.keys : Part → List Str
  | .fields list => list.map Prod.fst
  | _ => []

theorem BlockReads.keys_written (reads : BlockReads indent lines part) :
    ∀ key ∈ part.keys, ∃ before line after,
      lines = before ++ line :: after ∧
        entryOf line = some (indent, key) := by
  have extend
      {indent : Nat}
      {line : Line}
      {key value : Str}
      (block : List Line)
      {rest : List Line}
      {keys : List Str}
      (field : Field indent line key value)
      (others :
        ∀ other ∈ keys, ∃ before second after,
          rest = before ++ second :: after ∧
            entryOf second = some (indent, other)) :
      ∀ other ∈ key :: keys, ∃ before second after,
        line :: (block ++ rest) = before ++ second :: after ∧
          entryOf second = some (indent, other) := by
    intro other member
    rcases List.mem_cons.mp member with rfl | later
    · exact ⟨[], line, block ++ rest, rfl, field.entryOf_eq⟩
    · obtain ⟨before, second, after, rfl, isSecond⟩ := others other later
      exact ⟨line :: (block ++ before), second, after, by simp, isSecond⟩
  induction reads with
  | inlineField field _ _ _ others => exact extend [] field others
  | nestedField field _ _ _ _ others => exact extend _ field others
  | sequenceField field _ _ _ _ others => exact extend _ field others
  | nullField field _ others => exact extend [] field others
  | _ => exact nofun

/-- A key is not written again in the rest of its mapping. -/
theorem not_mem_keys {line : Line} {block rest : List Line}
    (apart : keysApart (line :: (block ++ rest)) = true)
    (field : Field indent line key value)
    (deeper : ∀ other ∈ block, indent ≤ other.indent)
    (others : BlockReads indent rest part) :
    key ∉ part.keys := by
  intro again
  obtain ⟨before, second, after, rfl, isSecond⟩ := others.keys_written key again
  rw [keysApart, field.entryOf_eq, Option.all_some, ← List.append_assoc,
    Bool.and_eq_true] at apart
  refine not_entry_of_keyApart apart.1 ?_ ?_ isSecond
  · rw [List.forall_mem_append]
    exact ⟨deeper, fun other member =>
      others.indent_le other (List.mem_append_left _ member)⟩
  · exact others.indent_le second (by simp)

namespace WritesKeysOnce

variable {line : Line} {block rest : List Line}

theorem of_infix {lines part : List Line}
    (once : WritesKeysOnce lines) (inside : part <:+: lines) :
    WritesKeysOnce part :=
  { blocks := by
      obtain ⟨pre, post, rfl⟩ := inside
      exact (keysApart_of_append
        (keysApart_of_append once.blocks).1).2
    flows := fun line member => once.flows line (inside.subset member) }

theorem inBlock (once : WritesKeysOnce (line :: (block ++ rest))) :
    WritesKeysOnce block :=
  once.of_infix ⟨[line], rest, by simp⟩

theorem behindBlock (once : WritesKeysOnce (line :: (block ++ rest))) :
    WritesKeysOnce rest :=
  once.of_infix ⟨line :: block, [], by simp⟩

theorem tail (once : WritesKeysOnce (line :: rest)) :
    WritesKeysOnce rest :=
  once.of_infix (List.suffix_cons line rest).isInfix

/-- The first line of a mapping may be the rewritten line of its item. -/
theorem rewritten {indent : Nat} {text : Str}
    (once : WritesKeysOnce (line :: (block ++ rest)))
    (dash : Dash indent line text) (opens : OpensMapping text)
    (notItem : isSeqItem (line.rewritten indent).text = false) :
    WritesKeysOnce (line.rewritten indent :: block) := by
  have inside : WritesKeysOnce (line :: block) :=
    once.of_infix ⟨[], rest, by simp⟩
  obtain ⟨ofLine, ofBlock⟩ := List.forall_mem_cons.mp inside.flows
  refine
    { blocks := ?_
      flows := List.forall_mem_cons.mpr ⟨ofLine.of_infix ?_, ofBlock⟩ }
  · rw [keysApart, entryOf, dash.fieldOf_rewritten opens notItem]
    exact inside.blocks
  · exact (trim_isInfix _).trans (List.drop_suffix _ _).isInfix

end WritesKeysOnce

theorem BlockReads.keys_nodup (reads : BlockReads indent lines part) :
    WritesKeysOnce lines → part.keys.Nodup := by
  induction reads with
  | @inlineField _ line _ _ rest _ _ field _ _ others inductionHypothesis =>
    intro once
    have apart : keysApart (line :: ([] ++ rest)) = true := once.blocks
    exact List.nodup_cons.mpr
      ⟨not_mem_keys apart field nofun others, inductionHypothesis once.tail⟩
  | nestedField field deeper reads others _ inductionHypothesis =>
    intro once
    refine List.nodup_cons.mpr
      ⟨not_mem_keys once.blocks field ?_ others,
        inductionHypothesis once.behindBlock⟩
    exact fun other member =>
      deeper.le.trans (reads.indent_le other member)
  | sequenceField field _ reads others _ inductionHypothesis =>
    intro once
    exact List.nodup_cons.mpr
      ⟨not_mem_keys once.blocks field reads.indent_le others,
        inductionHypothesis once.behindBlock⟩
  | @nullField _ line _ rest _ field others inductionHypothesis =>
    intro once
    have apart : keysApart (line :: ([] ++ rest)) = true := once.blocks
    exact List.nodup_cons.mpr
      ⟨not_mem_keys apart field nofun others, inductionHypothesis once.tail⟩
  | _ => exact fun _ => List.nodup_nil

theorem Dash.rest_isInfix
    {line : Line} {rest : Str} (dash : Dash indent line rest) :
    rest <:+: line.text := by
  rw [← dash.behind]
  exact (trim_isInfix _).trans (List.drop_suffix _ _).isInfix

theorem Field.value_isInfix
    {line : Line} (field : Field indent line key value) :
    value <:+: line.text := by
  obtain ⟨colon, _, _, rfl⟩ := field.split
  exact (trim_isInfix _).trans (List.drop_suffix _ _).isInfix

theorem BlockReads.keysOnce (reads : BlockReads indent lines part) :
    WritesKeysOnce lines → part.KeysOnce := by
  induction reads with
  | seq _ _ inductionHypothesis =>
    intro once
    exact keysOnce_seq (inductionHypothesis once)
  | map _ reads inductionHypothesis =>
    intro once
    exact keysOnce_map (reads.keys_nodup once) (inductionHypothesis once)
  | noItems => exact fun _ => nofun
  | noFields => exact fun _ => nofun
  | nestedItem _ _ _ _ block others =>
    intro once
    exact List.forall_mem_cons.mpr ⟨block once.inBlock, others once.behindBlock⟩
  | emptyItem _ _ others =>
    intro once
    exact List.forall_mem_cons.mpr ⟨keysOnce_of_leaf rfl rfl, others once.tail⟩
  | mappingItem dash opens fieldsRead _ block others =>
    intro once
    have inside := once.rewritten dash opens fieldsRead.notItem_of_fields
    exact List.forall_mem_cons.mpr
      ⟨keysOnce_map (fieldsRead.keys_nodup inside) (block inside),
        others once.behindBlock⟩
  | inlineItem dash _ _ value _ others =>
    intro once
    have ofLine := once.flows _ List.mem_cons_self
    exact List.forall_mem_cons.mpr
      ⟨value.keysOnce (ofLine.of_infix dash.rest_isInfix), others once.tail⟩
  | inlineField field _ value _ others =>
    intro once
    have ofLine := once.flows _ List.mem_cons_self
    exact List.forall_mem_cons.mpr
      ⟨value.keysOnce (ofLine.of_infix field.value_isInfix), others once.tail⟩
  | nestedField _ _ _ _ block others =>
    intro once
    exact List.forall_mem_cons.mpr ⟨block once.inBlock, others once.behindBlock⟩
  | sequenceField _ _ _ _ block others =>
    intro once
    exact List.forall_mem_cons.mpr
      ⟨keysOnce_seq (block once.inBlock), others once.behindBlock⟩
  | nullField _ _ others =>
    intro once
    exact List.forall_mem_cons.mpr ⟨keysOnce_of_leaf rfl rfl, others once.tail⟩

end Yaml

end Policyd
