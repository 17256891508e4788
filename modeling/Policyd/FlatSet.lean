import Policyd.LinearProbing

namespace Policyd

/-!
# Sets of 64-bit keys

`FlatSet64` holds the roaming-partner networks and the blocked devices of a
rule set.  It is an open-addressing table of keys in which key `0` marks a
vacant slot.  A set is either the empty array or a valid probed table, which
makes every membership probe stop; the invariant is a field of the set.
-/

open LinearProbing

/-- The splitmix64 finalizer that spreads dense decimal keys. -/
def splitmix64 (key : UInt64) : UInt64 :=
  let mixed := key + 0x9E3779B97F4A7C15
  let mixed := (mixed ^^^ (mixed >>> 30)) * 0xBF58476D1CE4E5B9
  let mixed := (mixed ^^^ (mixed >>> 27)) * 0x94D049BB133111EB
  mixed ^^^ (mixed >>> 31)

/-- The hash of a key, before it is masked to a table index. -/
def splitmixIndex (key : UInt64) : Nat :=
  (splitmix64 key).toNat

/-- A set of nonzero 64-bit keys. -/
structure FlatSet64 extends Table UInt64 where
  probes : slots = [] ∨ Table.Valid id 0 splitmixIndex toTable

namespace FlatSet64

/-- The set without slots. -/
def empty : FlatSet64 where
  slots := []
  mask := 0
  size := 0
  probes := Or.inl rfl

/-- Insert a key; duplicates and the key `0` change nothing. -/
def insert (table : Table UInt64) (key : UInt64) :
    Option (Table UInt64) :=
  if key = 0 then
    some table
  else
    Table.put id 0 splitmixIndex table key

/-- Capacity for a number of keys: a power of two of at least twice as many. -/
def capacityFor (count : Nat) : Nat :=
  doubleTo (count * 2) (count * 2) 8

/-- Insert a list of keys into a table large enough for all of them. -/
def insertAll (keys : List UInt64) : Option (Table UInt64) :=
  keys.foldlM insert (Table.blank 0 (capacityFor keys.length))

/-- A key the table can look up is stored, apart from the vacant key. -/
def Stores (table : Table UInt64) (key : UInt64) : Prop :=
  (Table.contents id 0 table key).isSome = true

/-- What a table of inserted keys satisfies. -/
structure Built (table : Table UInt64) (inserted : List UInt64) : Prop where
  valid : Table.Valid id 0 splitmixIndex table
  stores : ∀ key, Stores table key ↔ key ≠ 0 ∧ key ∈ inserted
  bounded : table.size ≤ inserted.length

/-- Inserting one key into a table with room extends the built set by it. -/
private theorem insert_built {table : Table UInt64} {inserted : List UInt64}
    (built : Built table inserted)
    (room : inserted.length + 1 < table.slots.length) (key : UInt64) :
    ∃ next,
      insert table key = some next ∧
        Built next (inserted ++ [key]) ∧
        next.slots.length = table.slots.length := by
  by_cases isZero : key = 0
  · subst key
    refine ⟨table, rfl, ?_, rfl⟩
    exact {
      valid := built.valid
      stores := by
        intro wanted
        rw [built.stores]
        simp only [List.mem_append, List.mem_singleton]
        tauto
      bounded := by
        have := built.bounded
        simp only [List.length_append, List.length_singleton]
        omega
    }
  · have bounded := built.bounded
    obtain ⟨next, putShape, valid, contentsShape, lengthShape, _, sizeShape⟩ :=
      built.valid.put_spec key isZero (fun _ => by omega)
    refine ⟨next, by rw [insert, if_neg isZero, putShape], ?_, lengthShape⟩
    exact {
      valid := valid
      stores := by
        intro wanted
        rw [Stores, contentsShape]
        by_cases same : wanted = key
        · subst wanted
          simp [isZero]
        · have before := built.stores wanted
          rw [Stores] at before
          rw [Function.update_of_ne (by simpa using same), before]
          simp [same]
      bounded := by
        rw [sizeShape]
        simp only [List.length_append, List.length_singleton]
        split <;> omega
    }

/-- Inserting further keys into a table with room for all of them. -/
private theorem insertMany_built {table : Table UInt64} {inserted : List UInt64}
    (built : Built table inserted) (keys : List UInt64)
    (room : inserted.length + keys.length < table.slots.length) :
    ∃ next,
      keys.foldlM insert table = some next ∧
        Built next (inserted ++ keys) := by
  induction keys generalizing table inserted with
  | nil => exact ⟨table, rfl, by simpa using built⟩
  | cons key later inductionHypothesis =>
    simp only [List.length_cons] at room
    obtain ⟨middle, insertShape, middleBuilt, lengthShape⟩ :=
      insert_built built (by omega) key
    have middleRoom :
        (inserted ++ [key]).length + later.length <
          middle.slots.length := by
      simp only [List.length_append, List.length_singleton]
      omega
    obtain ⟨next, foldShape, nextBuilt⟩ :=
      inductionHypothesis middleBuilt middleRoom
    refine ⟨next, ?_, by simpa using nextBuilt⟩
    simp [List.foldlM_cons, insertShape, foldShape]

/-- A blank table of the chosen capacity is built from no keys. -/
private theorem blank_built (count : Nat) :
    Built (Table.blank 0 (capacityFor count)) [] := by
  obtain ⟨exponent, shape, _⟩ := doubleTo_two_pow (count * 2) (count * 2) 3
  have capacityShape : capacityFor count = 2 ^ exponent := shape
  rw [capacityShape]
  exact {
    valid := Table.Valid.blank rfl exponent
    stores := by
      intro key
      have noContents :
          Table.contents id 0 (Table.blank 0 (2 ^ exponent)) key =
            none :=
        Table.contents_blank rfl _ key
      simp [Stores, noContents]
    bounded := by
      simp [Table.blank]
  }

theorem insertAll_built {keys : List UInt64} (nonempty : keys ≠ []) :
    ∃ table, insertAll keys = some table ∧ Built table keys := by
  have positive : 0 < keys.length := List.length_pos_iff.mpr nonempty
  have large : keys.length * 2 ≤ capacityFor keys.length :=
    le_doubleTo (by decide) (by omega)
  have room :
      ([] : List UInt64).length + keys.length <
        (Table.blank (0 : UInt64)
          (capacityFor keys.length)).slots.length := by
    simp only [Table.blank, List.length_nil, List.length_replicate]
    omega
  simpa [insertAll] using insertMany_built (blank_built _) keys room

theorem insertAll_isSome {keys : List UInt64} (nonempty : keys ≠ []) :
    (insertAll keys).isSome = true := by
  obtain ⟨table, shape, _⟩ := insertAll_built nonempty
  rw [shape]
  rfl

theorem insertAll_get_built {keys : List UInt64} (nonempty : keys ≠ []) :
    Built ((insertAll keys).get (insertAll_isSome nonempty)) keys := by
  obtain ⟨table, shape, built⟩ := insertAll_built nonempty
  simpa [shape] using built

/-- Build a set from a list of keys. -/
def rebuild (keys : List UInt64) : FlatSet64 :=
  if isEmpty : keys = [] then
    empty
  else
    { toTable := (insertAll keys).get (insertAll_isSome isEmpty)
      probes := Or.inr (insertAll_get_built isEmpty).valid }

theorem position_isSome
    (set : FlatSet64) {key : UInt64} (present : ¬ (set.slots = [] ∨ key = 0)) :
    (Table.position id 0 splitmixIndex set.toTable key).isSome := by
  rw [not_or] at present
  have valid := set.probes.resolve_left present.1
  obtain ⟨found, shape, _⟩ := valid.position_spec present.2
  rw [shape]
  rfl

/-- Whether a key is in the set. -/
def contains (set : FlatSet64) (key : UInt64) : Bool :=
  if absent : set.slots = [] ∨ key = 0 then
    false
  else
    ((Table.position id 0 splitmixIndex set.toTable key).get
      (set.position_isSome absent)).isSome

/-- The live keys of the set, in slot order. -/
def elements (set : FlatSet64) : List UInt64 :=
  set.slots.filter (· != 0)

/-- Membership is storage in the underlying table. -/
theorem contains_iff_stores
    (set : FlatSet64) {key : UInt64} (present : ¬ (set.slots = [] ∨ key = 0)) :
    set.contains key = true ↔ Stores set.toTable key := by
  have parts := not_or.mp present
  have valid := set.probes.resolve_left parts.1
  obtain ⟨found, shape, derefShape⟩ := valid.position_spec parts.2
  have inBounds :
      found.isSome = true ↔
        (found.bind fun index => set.slots[index]?).isSome = true := by
    cases found with
    | none => simp
    | some index =>
      have located :
          Table.position id 0 splitmixIndex set.toTable key =
            some (some index) := shape
      simp only [Table.position, Option.map_eq_some_iff] at located
      obtain ⟨place, _, placeShape⟩ := located
      split at placeShape
      · rename_i keyShape
        cases placeShape
        cases slotShape : set.slots[index]? with
        | none => simp [slotShape] at keyShape
        | some slot => simp [slotShape]
      · cases placeShape
  have containsShape : set.contains key = found.isSome := by
    simp [contains, present, shape]
  rw [containsShape, Stores, ← derefShape, inBounds]

/-- A rebuilt set contains exactly the nonzero keys it was built from. -/
theorem contains_rebuild (keys : List UInt64) (key : UInt64) :
    (rebuild keys).contains key = true ↔ key ≠ 0 ∧ key ∈ keys := by
  by_cases isEmpty : keys = []
  · subst keys
    simp [rebuild, contains, empty]
  · have built := insertAll_get_built isEmpty
    have tableShape :
        (rebuild keys).toTable =
          (insertAll keys).get (insertAll_isSome isEmpty) := by
      simp [rebuild, isEmpty]
    by_cases isZero : key = 0
    · subst key
      simp [contains]
    · have hasSlots : (rebuild keys).slots ≠ [] := by
        have positive := built.valid.sized.length_pos
        rw [← tableShape] at positive
        exact List.length_pos_iff.mp positive
      rw [contains_iff_stores _ (not_or.mpr ⟨hasSlots, isZero⟩),
        tableShape, built.stores]

/-!
## Rebuilding in place

The source rebuilds a set in place and its loops have no bound.  Here both run
on a raw table in any state; no result means that a probe would not stop.
-/

/-- Replace whatever a table holds by a list of keys. -/
def rebuildFrom (old : Table UInt64) (keys : List UInt64) :
    Option (Table UInt64) :=
  let cleared := { old with size := 0 }
  if keys = [] then
    some { cleared with slots := [], mask := 0 }
  else
    let cap := capacityFor keys.length
    keys.foldlM insert
      { cleared with slots := List.replicate cap 0, mask := cap - 1 }

/-- Whether a table holds a key. -/
def containsIn (table : Table UInt64) (key : UInt64) : Option Bool :=
  if table.slots = [] ∨ key = 0 then
    some false
  else
    (Table.position id 0 splitmixIndex table key).map Option.isSome

/-- Pass every live key of a table to a function that updates some state. -/
def forEach {State : Type} (fn : State → UInt64 → State)
    (table : Table UInt64) (state : State) : State :=
  table.slots.foldl (fun state s => if s ≠ 0 then fn state s else state) state

theorem rebuildFrom_eq (old : Table UInt64) (keys : List UInt64) :
    rebuildFrom old keys = some (rebuild keys).toTable := by
  by_cases isEmpty : keys = []
  · simp [rebuildFrom, rebuild, isEmpty, empty]
  · have shape : rebuildFrom old keys = insertAll keys := by
      rw [rebuildFrom, if_neg isEmpty, insertAll, Table.blank]
    rw [shape, rebuild, dif_neg isEmpty, Option.some_get]

theorem containsIn_toTable (set : FlatSet64) (key : UInt64) :
    containsIn set.toTable key = some (set.contains key) := by
  by_cases absent : set.slots = [] ∨ key = 0
  · rw [containsIn, if_pos absent, contains, dif_pos absent]
  · rw [containsIn, if_neg absent, contains, dif_neg absent]
    rw [← Option.map_some, Option.some_get]

theorem forEach_eq_foldl {State : Type}
    (fn : State → UInt64 → State) (set : FlatSet64) (state : State) :
    forEach fn set.toTable state = set.elements.foldl fn state := by
  rw [forEach, elements, List.foldl_filter]
  simp only [bne_iff_ne]

/-- The live keys of a rebuilt set are its distinct nonzero keys. -/
theorem elements_rebuild_perm (keys : List UInt64) :
    (rebuild keys).elements.Perm (keys.filter (· ≠ 0)).dedup ∧
      (rebuild keys).size = (keys.filter (· ≠ 0)).dedup.length := by
  by_cases isEmpty : keys = []
  · simp [rebuild, isEmpty, empty, elements]
  · have built := insertAll_get_built isEmpty
    have tableShape :
        (rebuild keys).toTable =
          (insertAll keys).get (insertAll_isSome isEmpty) := by
      simp [rebuild, isEmpty]
    rw [← tableShape] at built
    have stored :
        Table.keys id 0 (rebuild keys).toTable = (rebuild keys).elements := by
      rw [Table.keys, List.map_id]
      rfl
    have distinct := built.valid.nodup_keys
    have counted := built.valid.size_eq_length_keys
    rw [stored] at distinct counted
    have visitedOnce :
        (rebuild keys).elements.Perm (keys.filter (· ≠ 0)).dedup := by
      rw [List.perm_ext_iff_of_nodup distinct (List.nodup_dedup _)]
      intro key
      rw [← stored, Table.mem_keys_iff]
      exact (built.stores key).trans (by simp [and_comm])
    exact ⟨visitedOnce, counted.trans visitedOnce.length_eq⟩

/--
A rebuilt set is the set of its nonzero keys, whatever the table held before:
rebuilding and every membership probe end, the size is the number of distinct
nonzero keys, and iterating visits each of them once.
-/
theorem flat_set_is_set_of_nonzero_keys
    (old : Table UInt64)
    (keys : List UInt64) :
    ∃ table,
      rebuildFrom old keys = some table ∧
        (∀ key,
          containsIn table key = some (decide (key ≠ 0 ∧ key ∈ keys))) ∧
        table.size = (keys.filter (· ≠ 0)).dedup.length ∧
        ∃ visited : List UInt64,
          visited.Perm (keys.filter (· ≠ 0)).dedup ∧
            ∀ {State : Type} (fn : State → UInt64 → State) (state : State),
              forEach fn table state = visited.foldl fn state := by
  obtain ⟨visitedOnce, size⟩ := elements_rebuild_perm keys
  refine ⟨_, rebuildFrom_eq old keys, ?_, size, _, visitedOnce, ?_⟩
  · intro key
    rw [containsIn_toTable, Option.some.injEq, Bool.eq_iff_iff,
      contains_rebuild, decide_eq_true_iff]
  · intro State fn state
    exact forEach_eq_foldl fn (rebuild keys) state

end FlatSet64

end Policyd
