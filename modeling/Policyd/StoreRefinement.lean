import Policyd.SubscriberStore

namespace Policyd

open LinearProbing

/-!
# The subscriber store refines a finite map

`StoreInvariant` collects what holds after every call of the concrete store;
each operation preserves it and has the effect of a map update.  Growing the
table replays the live records into a blank table with room for all of them, so
it neither rehashes again nor loses a record.
-/

/-- The calls that change a store. -/
inductive StoreOp where
  | upsert (record : SubscriberRecord)
  | addUsage (imsi bytes : UInt64)
  | resetPeriod (imsi newResetTs : UInt64)
  deriving Repr, DecidableEq

namespace SubscriberStore

/-- Run one call, keeping only the store. -/
def apply (store : SubscriberStore) : StoreOp → Option SubscriberStore
  | .upsert record => (store.upsert record).map Prod.fst
  | .addUsage imsi bytes => store.addUsage imsi bytes
  | .resetPeriod imsi newResetTs =>
    (store.resetPeriod imsi newResetTs).map Prod.fst

/-- Run a sequence of calls. -/
def run (store : SubscriberStore) (ops : List StoreOp) :
    Option SubscriberStore :=
  ops.foldlM apply store

/-- The home slot of a subscriber. -/
def home (store : SubscriberStore) (imsi : UInt64) : Nat :=
  splitmixIndex imsi &&& store.mask

/-- The record a store holds for a subscriber. -/
def records (store : SubscriberStore) :
    UInt64 → Option SubscriberRecord :=
  Table.contents SubscriberRecord.imsi 0 store.toTable

end SubscriberStore

/-- What holds of a store after every call. -/
structure StoreInvariant (store : SubscriberStore) : Prop where
  valid :
    Table.Valid SubscriberRecord.imsi 0 splitmixIndex store.toTable
  factorLower : 1 / 4 ≤ store.maxLoadFactor
  factorUpper : store.maxLoadFactor ≤ 9 / 10
  large : 8 ≤ store.capacity
  loaded :
    (store.size : Rat) ≤ store.capacity * store.maxLoadFactor

namespace StoreInvariant

variable {store : SubscriberStore}

theorem limit_lt_capacity (invariant : StoreInvariant store) :
    (store.capacity : Rat) * store.maxLoadFactor < store.capacity := by
  have large : (8 : Rat) ≤ store.capacity := by
    exact_mod_cast invariant.large
  have upper := invariant.factorUpper
  nlinarith

theorem room (invariant : StoreInvariant store) (fits : ¬ store.Overloaded) :
    store.size + 1 < store.slots.length := by
  rw [SubscriberStore.Overloaded, not_lt] at fits
  have below := lt_of_le_of_lt fits invariant.limit_lt_capacity
  exact_mod_cast below

theorem find_eq (invariant : StoreInvariant store) (imsi : UInt64) :
    store.find imsi = some (store.records imsi) := by
  by_cases isZero : imsi = 0
  · subst imsi
    simp [SubscriberStore.find, SubscriberStore.findMutable,
      SubscriberStore.records]
  · obtain ⟨found, positionShape, derefShape⟩ :=
      invariant.valid.position_spec isZero
    rw [SubscriberStore.find, SubscriberStore.findMutable,
      if_neg isZero, positionShape]
    exact congrArg some derefShape

end StoreInvariant

/-- What an operation guarantees about the store it returns. -/
structure StoreEffect
    (before after : SubscriberStore)
    (records : UInt64 → Option SubscriberRecord) : Prop where
  invariant : StoreInvariant after
  records : after.records = records
  factor : after.maxLoadFactor = before.maxLoadFactor

/-- The map update of an `upsert`. -/
def upsertRecords
    (records : UInt64 → Option SubscriberRecord) (record : SubscriberRecord) :
    UInt64 → Option SubscriberRecord :=
  if record.imsi = 0 then
    records
  else
    Function.update records record.imsi (some record)

namespace SubscriberStore

variable {store : SubscriberStore}

/-- Placing a record in a store with room updates the map. -/
theorem place_spec
    (invariant : StoreInvariant store) (fits : ¬ store.Overloaded)
    {record : SubscriberRecord}
    (provisioned : record.imsi ≠ 0) :
    ∃ next,
      store.place record = some next ∧
        StoreEffect store next
          (Function.update store.records record.imsi (some record)) ∧
        next.capacity = store.capacity ∧
        next.size ≤ store.size + 1 := by
  obtain ⟨table, putShape, valid, contentsShape, lengthShape, _, sizeShape⟩ :=
    invariant.valid.put_spec record provisioned (fun _ => invariant.room fits)
  have grown : table.size ≤ store.size + 1 := by
    rw [sizeShape]
    split <;> omega
  have capacitySame : table.slots.length = store.capacity := lengthShape
  refine ⟨{ store with toTable := table },
    by rw [place, putShape]; rfl, ⟨?_, contentsShape, rfl⟩,
    capacitySame, grown⟩
  exact {
    valid := valid
    factorLower := invariant.factorLower
    factorUpper := invariant.factorUpper
    large := by
      rw [capacity, capacitySame]
      exact invariant.large
    loaded := by
      rw [Overloaded, not_lt] at fits
      have grownCast : (table.size : Rat) ≤ ((store.size + 1 : Nat) : Rat) :=
        by exact_mod_cast grown
      simp only [capacity, capacitySame]
      exact le_trans grownCast fits
  }

/-- An `upsert` that does not grow the table places the record. -/
theorem upsertWithin_of_fits (depth : Nat) (fits : ¬ store.Overloaded)
    {record : SubscriberRecord}
    (provisioned : record.imsi ≠ 0) :
    upsertWithin (depth + 1) store record =
      (store.place record).map fun placed => (placed, true) := by
  rw [upsertWithin, if_neg provisioned, if_neg fits]
  cases placed : store.place record <;> simp [placed]

/-- Re-inserting records into a table with room for all of them. -/
theorem reinsert_spec (depth : Nat) (records : List SubscriberRecord)
    (provisioned : ∀ record ∈ records, record.imsi ≠ 0)
    (invariant : StoreInvariant store)
    (room :
      ((store.size + records.length : Nat) : Rat) ≤
        store.capacity * store.maxLoadFactor) :
    ∃ next,
      records.foldlM
          (fun grown record =>
            (upsertWithin (depth + 1) grown record).map Prod.fst)
          store = some next ∧
        StoreEffect store next
          (Table.replay SubscriberRecord.imsi store.records records) ∧
        next.capacity = store.capacity ∧
        next.size ≤ store.size + records.length := by
  induction records generalizing store with
  | nil => exact ⟨store, rfl, ⟨invariant, rfl, rfl⟩, rfl, by simp⟩
  | cons record later inductionHypothesis =>
    have headProvisioned : record.imsi ≠ 0 :=
      provisioned record List.mem_cons_self
    have fits : ¬ store.Overloaded := by
      rw [Overloaded, not_lt]
      refine le_trans ?_ room
      exact_mod_cast (by simp : store.size + 1 ≤
        store.size + (record :: later).length)
    obtain ⟨middle, placeShape, effect, capacitySame, sizeBound⟩ :=
      place_spec invariant fits headProvisioned
    have middleRoom :
        ((middle.size + later.length : Nat) : Rat) ≤
          middle.capacity * middle.maxLoadFactor := by
      rw [capacitySame, effect.factor]
      refine le_trans ?_ room
      have bound :
          middle.size + later.length ≤
            store.size + (record :: later).length := by
        rw [List.length_cons]
        omega
      exact_mod_cast bound
    obtain ⟨next, foldShape, nextEffect, nextCapacity, nextSize⟩ :=
      inductionHypothesis
        (fun other member =>
          provisioned other (List.mem_cons_of_mem _ member))
        effect.invariant middleRoom
    refine ⟨next, ?_, ⟨nextEffect.invariant, ?_, ?_⟩, ?_, ?_⟩
    · rw [List.foldlM_cons,
        upsertWithin_of_fits depth fits headProvisioned, placeShape]
      exact foldShape
    · rw [nextEffect.records, effect.records]
      rfl
    · exact nextEffect.factor.trans effect.factor
    · exact nextCapacity.trans capacitySame
    · rw [List.length_cons]
      omega

/-- A blank store has as many slots as it was given. -/
@[simp] theorem capacity_assignBlank (store : SubscriberStore)
    (newCapacity : Nat) :
    (store.assignBlank newCapacity).capacity = newCapacity := by
  simp [capacity, assignBlank, Table.blank]

theorem records_assignBlank (store : SubscriberStore) (newCapacity : Nat) :
    (store.assignBlank newCapacity).records = fun _ => none := by
  funext imsi
  have isVacant : ({} : SubscriberRecord).imsi = 0 := rfl
  exact Table.contents_blank isVacant newCapacity imsi

/-- A blank array of a power of two, at least eight, satisfies the invariant. -/
theorem assignBlank_invariant (lower : 1 / 4 ≤ store.maxLoadFactor)
    (upper : store.maxLoadFactor ≤ 9 / 10)
    {exponent : Nat}
    (large : 3 ≤ exponent) :
    StoreInvariant (store.assignBlank (2 ^ exponent)) where
  valid := by
    have isVacant : ({} : SubscriberRecord).imsi = 0 := rfl
    exact Table.Valid.blank isVacant exponent
  factorLower := lower
  factorUpper := upper
  large := by
    rw [capacity_assignBlank]
    calc
      8 = 2 ^ 3 := rfl
      _ ≤ 2 ^ exponent := Nat.pow_le_pow_right (by decide) large
  loaded := by
    have positive : (0 : Rat) ≤ store.maxLoadFactor := by linarith
    have sizeZero : (store.assignBlank (2 ^ exponent)).size = 0 := rfl
    rw [sizeZero, Nat.cast_zero]
    exact mul_nonneg (Nat.cast_nonneg _) positive

private theorem doubled_capacity (invariant : StoreInvariant store) :
    ∃ exponent, store.capacity * 2 = 2 ^ exponent ∧ 3 ≤ exponent := by
  obtain ⟨exponent, lengthShape, _⟩ := invariant.valid.sized
  have large := invariant.large
  rw [capacity, lengthShape] at large
  refine ⟨exponent + 1, by rw [capacity, lengthShape, pow_succ], ?_⟩
  by_contra small
  have bound : 2 ^ exponent ≤ 2 ^ 2 :=
    Nat.pow_le_pow_right (by decide) (by omega)
  omega

/-- Growing keeps every record and leaves room for one more. -/
theorem growWith_spec (depth : Nat) (invariant : StoreInvariant store) :
    ∃ next,
      growWith (upsertWithin (depth + 1)) store (store.capacity * 2) =
          some next ∧
        StoreEffect store next store.records ∧
        ¬ next.Overloaded ∧
        next.capacity = store.capacity * 2 := by
  have lower := invariant.factorLower
  have live : (store.slots.filter (·.imsi != 0)).length = store.size := by
    rw [← List.countP_eq_length_filter]
    exact invariant.valid.counted.symm
  have large : (8 : Rat) ≤ store.capacity := by
    exact_mod_cast invariant.large
  have loaded := invariant.loaded
  have blankInvariant :
      StoreInvariant (store.assignBlank (store.capacity * 2)) := by
    obtain ⟨exponent, capacityShape, atLeast⟩ := doubled_capacity invariant
    rw [capacityShape]
    exact assignBlank_invariant lower invariant.factorUpper atLeast
  have room :
      (((store.assignBlank (store.capacity * 2)).size +
          (store.slots.filter (·.imsi != 0)).length : Nat) : Rat) ≤
        (store.assignBlank (store.capacity * 2)).capacity *
          (store.assignBlank (store.capacity * 2)).maxLoadFactor := by
    have blankSize : (store.assignBlank (store.capacity * 2)).size = 0 := rfl
    have sameFactor :
        (store.assignBlank (store.capacity * 2)).maxLoadFactor =
          store.maxLoadFactor := rfl
    rw [live, capacity_assignBlank, blankSize, sameFactor]
    push_cast
    nlinarith
  obtain ⟨next, foldShape, effect, nextCapacity, nextSize⟩ :=
    reinsert_spec depth (store.slots.filter (·.imsi != 0))
      (fun record member => by simpa using (List.mem_filter.mp member).2)
      blankInvariant room
  refine ⟨next, foldShape, ⟨effect.invariant, ?_, effect.factor⟩, ?_,
    nextCapacity.trans (capacity_assignBlank _ _)⟩
  · rw [effect.records, records_assignBlank]
    exact invariant.valid.replay_slots
  · have sizeBound : next.size ≤ store.size := by
      rw [live] at nextSize
      simpa [assignBlank, Table.blank] using nextSize
    have sizeCast : (next.size : Rat) ≤ store.size := by
      exact_mod_cast sizeBound
    have sameFactor : next.maxLoadFactor = store.maxLoadFactor := effect.factor
    rw [Overloaded, not_lt, nextCapacity, sameFactor, capacity_assignBlank]
    push_cast
    nlinarith

/-- An `upsert` always returns and updates the map at its own key. -/
theorem upsert_spec
    (invariant : StoreInvariant store) (record : SubscriberRecord) :
    ∃ next,
      store.upsert record = some (next, record.imsi != 0) ∧
        StoreEffect store next (upsertRecords store.records record) := by
  by_cases isZero : record.imsi = 0
  · refine ⟨store, ?_, invariant, ?_, rfl⟩
    · simp [upsert, upsertWithin, isZero]
    · simp [upsertRecords, isZero]
  · have flagShape : (record.imsi != 0) = true := by
      simpa using isZero
    rw [upsertRecords, if_neg isZero, flagShape]
    by_cases overloaded : store.Overloaded
    · obtain ⟨roomy, growShape, growEffect, fits, _⟩ :=
        growWith_spec 0 invariant
      obtain ⟨next, placeShape, effect, _, _⟩ :=
        place_spec growEffect.invariant fits isZero
      refine ⟨next, ?_, effect.invariant, ?_, ?_⟩
      · rw [upsert, upsertWithin, if_neg isZero, if_pos overloaded, growShape]
        simp [placeShape]
      · rw [effect.records, growEffect.records]
      · exact effect.factor.trans growEffect.factor
    · obtain ⟨next, placeShape, effect, _, _⟩ :=
        place_spec invariant overloaded isZero
      refine ⟨next, ?_, effect⟩
      rw [upsert, upsertWithin_of_fits 1 overloaded isZero, placeShape]
      rfl

/-- Update the record of one subscriber in a map, if there is one. -/
def modifyRecords
    (records : UInt64 → Option SubscriberRecord) (imsi : UInt64)
    (change : SubscriberRecord → SubscriberRecord) :
    UInt64 → Option SubscriberRecord :=
  Function.update records imsi ((records imsi).map change)

/-- A found position holds the record of the wanted subscriber. -/
theorem findMutable_spec (invariant : StoreInvariant store) (imsi : UInt64) :
    (store.findMutable imsi = some none ∧ store.records imsi = none) ∨
      ∃ index record,
        store.findMutable imsi = some (some index) ∧
          store.slots[index]? = some record ∧
          store.records imsi = some record := by
  have findShape := invariant.find_eq imsi
  rw [find] at findShape
  cases located : store.findMutable imsi with
  | none =>
    rw [located] at findShape
    cases findShape
  | some found =>
    rw [located, Option.map_some, Option.some.injEq] at findShape
    cases found with
    | none => exact Or.inl ⟨rfl, findShape.symm⟩
    | some index =>
      rw [Option.bind_some] at findShape
      by_cases isZero : imsi = 0
      · subst imsi
        simp [findMutable] at located
      · rw [findMutable, if_neg isZero, Table.position,
          Option.map_eq_some_iff] at located
        obtain ⟨place, _, placeShape⟩ := located
        split at placeShape
        · rename_i keyShape
          cases placeShape
          obtain ⟨record, recordShape, _⟩ := Option.map_eq_some_iff.mp keyShape
          exact Or.inr ⟨index, record, rfl, recordShape,
            by rw [← findShape, recordShape]⟩
        · cases placeShape

/-- Changing a found record in place changes the map at its key only. -/
theorem modifyAt_spec (invariant : StoreInvariant store)
    {imsi : UInt64} {index : Nat} {record : SubscriberRecord}
    (recordShape : store.slots[index]? = some record)
    (held : store.records imsi = some record)
    {change : SubscriberRecord → SubscriberRecord}
    (keepsImsi : (change record).imsi = record.imsi) :
    StoreEffect store (store.modifyAt index change)
      (modifyRecords store.records imsi change) := by
  obtain ⟨provisioned, _, sameImsi⟩ := Table.holds_of_contents held
  have recordProvisioned : record.imsi ≠ 0 := by
    rw [sameImsi]
    exact provisioned
  have changedProvisioned : (change record).imsi ≠ 0 := by
    rw [keepsImsi]
    exact recordProvisioned
  have present : store.records (change record).imsi ≠ none := by
    rw [keepsImsi, sameImsi, held]
    simp
  obtain ⟨table, putShape, valid, contentsShape, lengthShape, _, sizeShape⟩ :=
    invariant.valid.put_spec (change record) changedProvisioned
      (fun absent => (present absent).elim)
  rw [invariant.valid.put_eq_set recordShape keepsImsi
    recordProvisioned, Option.some.injEq] at putShape
  subst table
  have modifiedShape :
      store.modifyAt index change =
        { store with
          slots := store.slots.set index (change record) } := by
    simp [modifyAt, recordShape]
  rw [modifiedShape]
  refine ⟨?_, ?_, rfl⟩
  · exact {
      valid := valid
      factorLower := invariant.factorLower
      factorUpper := invariant.factorUpper
      large := by
        simpa [capacity] using invariant.large
      loaded := by
        simpa [capacity] using invariant.loaded
    }
  · rw [modifyRecords, held, Option.map_some, ← sameImsi, ← keepsImsi]
    exact contentsShape

theorem modifyRecords_of_none
    {records : UInt64 → Option SubscriberRecord} {imsi : UInt64}
    (absent : records imsi = none)
    (change : SubscriberRecord → SubscriberRecord) :
    modifyRecords records imsi change = records := by
  rw [modifyRecords, absent, Option.map_none]
  exact Function.update_eq_self_iff.mpr absent.symm

/-- Accumulate bytes in a record. -/
def addBytes (bytes : UInt64) (record : SubscriberRecord) :
    SubscriberRecord :=
  { record with bytesUsedPeriod := record.bytesUsedPeriod + bytes }

/-- Start a new metering period in a record. -/
def startPeriod (newResetTs : UInt64) (record : SubscriberRecord) :
    SubscriberRecord :=
  { record with bytesUsedPeriod := 0, periodResetTs := newResetTs }

/-- Accumulating usage always returns and changes one record. -/
theorem addUsage_spec (invariant : StoreInvariant store) (imsi bytes : UInt64) :
    ∃ next,
      store.addUsage imsi bytes = some next ∧
        StoreEffect store next
          (modifyRecords store.records imsi (addBytes bytes)) := by
  rcases findMutable_spec invariant imsi with
    ⟨located, absent⟩ | ⟨index, record, located, recordShape, held⟩
  · refine ⟨store, by rw [addUsage, located]; rfl, ?_⟩
    rw [modifyRecords_of_none absent]
    exact ⟨invariant, rfl, rfl⟩
  · exact ⟨store.modifyAt index (addBytes bytes),
      by rw [addUsage, located]; rfl,
      modifyAt_spec invariant recordShape held rfl⟩

/-- Resetting a period always returns and changes one record. -/
theorem resetPeriod_spec
    (invariant : StoreInvariant store) (imsi newResetTs : UInt64) :
    ∃ next,
      store.resetPeriod imsi newResetTs =
          some (next, (store.records imsi).isSome) ∧
        StoreEffect store next
          (modifyRecords store.records imsi (startPeriod newResetTs)) := by
  rcases findMutable_spec invariant imsi with
    ⟨located, absent⟩ | ⟨index, record, located, recordShape, held⟩
  · refine ⟨store, by rw [resetPeriod, located, absent]; rfl, ?_⟩
    rw [modifyRecords_of_none absent]
    exact ⟨invariant, rfl, rfl⟩
  · exact ⟨store.modifyAt index (startPeriod newResetTs),
      by rw [resetPeriod, located, held]; rfl,
      modifyAt_spec invariant recordShape held rfl⟩

/-- The abstract effect of one call. -/
def applyRecords (records : UInt64 → Option SubscriberRecord) :
    StoreOp → UInt64 → Option SubscriberRecord
  | .upsert record => upsertRecords records record
  | .addUsage imsi bytes => modifyRecords records imsi (addBytes bytes)
  | .resetPeriod imsi newResetTs =>
    modifyRecords records imsi (startPeriod newResetTs)

/-- One call always returns, keeps the invariant and refines the map call. -/
theorem apply_spec (invariant : StoreInvariant store) (op : StoreOp) :
    ∃ next,
      store.apply op = some next ∧
        StoreEffect store next (applyRecords store.records op) := by
  cases op with
  | upsert record =>
    obtain ⟨next, shape, effect⟩ := upsert_spec invariant record
    exact ⟨next, by rw [apply, shape]; rfl, effect⟩
  | addUsage imsi bytes => exact addUsage_spec invariant imsi bytes
  | resetPeriod imsi newResetTs =>
    obtain ⟨next, shape, effect⟩ := resetPeriod_spec invariant imsi newResetTs
    exact ⟨next, by rw [apply, shape]; rfl, effect⟩

/-- Every sequence of calls returns and refines the sequence of map calls. -/
theorem run_spec (invariant : StoreInvariant store) (ops : List StoreOp) :
    ∃ next,
      store.run ops = some next ∧
        StoreEffect store next (ops.foldl applyRecords store.records) := by
  induction ops generalizing store with
  | nil => exact ⟨store, rfl, invariant, rfl, rfl⟩
  | cons op later inductionHypothesis =>
    obtain ⟨middle, applyShape, effect⟩ := apply_spec invariant op
    obtain ⟨next, runShape, nextEffect⟩ := inductionHypothesis effect.invariant
    refine ⟨next, ?_, nextEffect.invariant, ?_, ?_⟩
    · rw [run, List.foldlM_cons, applyShape]
      exact runShape
    · rw [nextEffect.records, effect.records, List.foldl_cons]
    · exact nextEffect.factor.trans effect.factor

theorem clampLoadFactor_bounds (loadFactor : Rat) :
    1 / 4 ≤ clampLoadFactor loadFactor ∧
      clampLoadFactor loadFactor ≤ 9 / 10 := by
  unfold clampLoadFactor
  split
  · norm_num
  · split
    · norm_num
    · constructor <;> linarith

/-- A new store satisfies the invariant and has no records. -/
theorem create_invariant (expectedSubscribers : Nat) (maxLoadFactor : Rat) :
    StoreInvariant (create expectedSubscribers maxLoadFactor) ∧
      (create expectedSubscribers maxLoadFactor).records =
        fun _ => none := by
  have bounds := clampLoadFactor_bounds maxLoadFactor
  obtain ⟨exponent, shape, large⟩ :
      ∃ exponent,
        slotsFor expectedSubscribers (clampLoadFactor maxLoadFactor) =
            2 ^ exponent ∧
          3 ≤ exponent :=
    doubleTo_two_pow _ _ 3
  have createShape :
      create expectedSubscribers maxLoadFactor =
        (create expectedSubscribers maxLoadFactor).assignBlank
          (2 ^ exponent) := by
    simp only [create, assignBlank, shape]
  have factor :
      (create expectedSubscribers maxLoadFactor).maxLoadFactor =
        clampLoadFactor maxLoadFactor := rfl
  rw [← factor] at bounds
  rw [createShape]
  exact ⟨assignBlank_invariant bounds.1 bounds.2 large, records_assignBlank _ _⟩

end SubscriberStore

/-- The last call a reader recognises, with the calls after it. -/
def splitLast {Found : Type} (recognise : StoreOp → Option Found) :
    List StoreOp → Option (Found × List StoreOp)
  | [] => none
  | op :: later =>
    match splitLast recognise later with
    | some found => some found
    | none => (recognise op).map fun found => (found, later)

/-- The record an `upsert` call stores for a subscriber. -/
def StoreOp.upserted (imsi : UInt64) : StoreOp → Option SubscriberRecord
  | .upsert record =>
    if imsi ≠ 0 ∧ record.imsi = imsi then some record else none
  | _ => none

/-- The new reset time of a `reset_period` call for a subscriber. -/
def StoreOp.reset (imsi : UInt64) : StoreOp → Option UInt64
  | .resetPeriod key newResetTs =>
    if key = imsi then some newResetTs else none
  | _ => none

/-- The amount an `add_usage` call adds for a subscriber. -/
def StoreOp.used (imsi : UInt64) : StoreOp → Option UInt64
  | .addUsage key bytes => if key = imsi then some bytes else none
  | _ => none

/-- The sum of the usage amounts of a subscriber, modulo `2 ^ 64`. -/
def summedUsage (imsi : UInt64) (ops : List StoreOp) : UInt64 :=
  UInt64.ofNat
    ((ops.filterMap (StoreOp.used imsi)).map UInt64.toNat).sum

/--
The record a history prescribes: the one last upserted, with the usage since
that call or since the last reset after it.
-/
def prescribedRecord (ops : List StoreOp) (imsi : UInt64) :
    Option SubscriberRecord :=
  (splitLast (StoreOp.upserted imsi) ops).map fun (record, later) =>
    match splitLast (StoreOp.reset imsi) later with
    | none =>
      { record with
        bytesUsedPeriod :=
          record.bytesUsedPeriod + summedUsage imsi later }
    | some (newResetTs, sinceReset) =>
      { record with
        bytesUsedPeriod := summedUsage imsi sinceReset
        periodResetTs := newResetTs }

/-- The distinct subscribers a history upserts. -/
def upsertedKeys (ops : List StoreOp) : Finset UInt64 :=
  (ops.filterMap fun op =>
    match op with
    | .upsert record => if record.imsi = 0 then none else some record.imsi
    | _ => none).toFinset

/-- The last recognised call after one more call. -/
theorem splitLast_append_singleton {Found : Type}
    (recognise : StoreOp → Option Found) (ops : List StoreOp) (op : StoreOp) :
    splitLast recognise (ops ++ [op]) =
      match recognise op with
      | some found => some (found, [])
      | none =>
        (splitLast recognise ops).map fun (found, later) =>
          (found, later ++ [op]) := by
  induction ops with
  | nil =>
    cases recognised : recognise op <;> simp [splitLast, recognised]
  | cons first later inductionHypothesis =>
    rw [List.cons_append, splitLast, inductionHypothesis, splitLast]
    cases recognised : recognise op with
    | some found => rfl
    | none =>
      cases splitLast recognise later with
      | some found => rfl
      | none => cases recognise first <;> rfl

theorem summedUsage_append_singleton
    (imsi : UInt64) (ops : List StoreOp) (op : StoreOp) :
    summedUsage imsi (ops ++ [op]) =
      summedUsage imsi ops + (StoreOp.used imsi op).getD 0 := by
  unfold summedUsage
  rw [List.filterMap_append, List.map_append, List.sum_append]
  cases usedShape : StoreOp.used imsi op with
  | none => simp [usedShape]
  | some bytes => simp [usedShape]

/-- A call that is no `upsert` of a subscriber extends the calls after it. -/
private theorem prescribedRecord_of_not_upserted {imsi : UInt64} {op : StoreOp}
    (notUpserted : op.upserted imsi = none) (ops : List StoreOp) :
    prescribedRecord (ops ++ [op]) imsi =
      (prescribedRecord ops imsi).map fun record =>
        match op.reset imsi with
        | some newResetTs => SubscriberStore.startPeriod newResetTs record
        | none =>
          SubscriberStore.addBytes ((op.used imsi).getD 0) record := by
  unfold prescribedRecord
  rw [splitLast_append_singleton, notUpserted]
  cases splitLast (StoreOp.upserted imsi) ops with
  | none => rfl
  | some found =>
    obtain ⟨record, later⟩ := found
    simp only [Option.map_some]
    rw [splitLast_append_singleton]
    cases op.reset imsi with
    | some newResetTs =>
      cases splitLast (StoreOp.reset imsi) later <;>
        simp [SubscriberStore.startPeriod, summedUsage]
    | none =>
      cases splitLast (StoreOp.reset imsi) later <;>
        simp [SubscriberStore.addBytes, summedUsage_append_singleton,
          UInt64.add_assoc]

theorem prescribedRecord_append_singleton (ops : List StoreOp) (op : StoreOp) :
    prescribedRecord (ops ++ [op]) =
      SubscriberStore.applyRecords (prescribedRecord ops) op := by
  funext imsi
  cases op with
  | upsert record =>
    simp only [SubscriberStore.applyRecords, upsertRecords]
    by_cases stores : imsi ≠ 0 ∧ record.imsi = imsi
    · obtain ⟨provisioned, rfl⟩ := stores
      rw [if_neg provisioned, Function.update_self, prescribedRecord,
        splitLast_append_singleton]
      simp [StoreOp.upserted, provisioned, splitLast, summedUsage]
    · rw [prescribedRecord_of_not_upserted (by simp [StoreOp.upserted, stores])]
      have unchanged (held : SubscriberRecord) :
          SubscriberStore.addBytes 0 held = held := by
        simp [SubscriberStore.addBytes]
      simp only [StoreOp.reset, StoreOp.used, Option.getD_none,
        unchanged, Option.map_id_fun', id_eq]
      split
      · rfl
      · rename_i provisioned
        rw [Function.update_of_ne]
        rintro rfl
        exact stores ⟨provisioned, rfl⟩
  | addUsage key bytes =>
    rw [prescribedRecord_of_not_upserted rfl]
    simp only [SubscriberStore.applyRecords,
      SubscriberStore.modifyRecords, StoreOp.reset, StoreOp.used]
    by_cases same : key = imsi
    · subst key
      simp
    · have differs : imsi ≠ key := Ne.symm same
      simp [same, differs, SubscriberStore.addBytes]
  | resetPeriod key newResetTs =>
    rw [prescribedRecord_of_not_upserted rfl]
    simp only [SubscriberStore.applyRecords,
      SubscriberStore.modifyRecords, StoreOp.reset, StoreOp.used]
    by_cases same : key = imsi
    · subst key
      simp
    · have differs : imsi ≠ key := Ne.symm same
      simp [same, differs, SubscriberStore.addBytes]

theorem foldl_applyRecords_eq_prescribedRecord (ops : List StoreOp) :
    ops.foldl SubscriberStore.applyRecords (fun _ => none) =
      prescribedRecord ops := by
  induction ops using List.reverseRecOn with
  | nil => rfl
  | append_singleton earlier op inductionHypothesis =>
    rw [List.foldl_append, inductionHypothesis,
      prescribedRecord_append_singleton]
    rfl

/-- A history prescribes a record for exactly the subscribers it upserts. -/
theorem prescribedRecord_isSome_iff (ops : List StoreOp) (imsi : UInt64) :
    (prescribedRecord ops imsi).isSome = true ↔
      imsi ∈ upsertedKeys ops := by
  induction ops using List.reverseRecOn with
  | nil => simp [prescribedRecord, splitLast, upsertedKeys]
  | append_singleton earlier op inductionHypothesis =>
    have keysShape :
        imsi ∈ upsertedKeys (earlier ++ [op]) ↔
          imsi ∈ upsertedKeys earlier ∨ imsi ∈ upsertedKeys [op] := by
      simp only [upsertedKeys, List.mem_toFinset,
        List.filterMap_append, List.mem_append]
    rw [prescribedRecord_append_singleton, keysShape, ← inductionHypothesis]
    cases op with
    | upsert record =>
      by_cases isZero : record.imsi = 0
      · simp [SubscriberStore.applyRecords, upsertRecords, upsertedKeys, isZero]
      · by_cases same : imsi = record.imsi
        · subst imsi
          simp [SubscriberStore.applyRecords, upsertRecords,
            upsertedKeys, isZero]
        · simp [SubscriberStore.applyRecords, upsertRecords,
            upsertedKeys, isZero, same]
    | addUsage key bytes =>
      by_cases same : imsi = key
      · subst imsi
        simp [SubscriberStore.applyRecords,
          SubscriberStore.modifyRecords, upsertedKeys]
      · simp [SubscriberStore.applyRecords,
          SubscriberStore.modifyRecords, upsertedKeys, same]
    | resetPeriod key newResetTs =>
      by_cases same : imsi = key
      · subst imsi
        simp [SubscriberStore.applyRecords,
          SubscriberStore.modifyRecords, upsertedKeys]
      · simp [SubscriberStore.applyRecords,
          SubscriberStore.modifyRecords, upsertedKeys, same]

theorem StoreInvariant.size_eq_card {store : SubscriberStore}
    (invariant : StoreInvariant store)
    {keys : Finset UInt64}
    (recorded : ∀ imsi, (store.records imsi).isSome = true ↔ imsi ∈ keys) :
    store.size = keys.card := by
  rw [invariant.valid.size_eq_length_keys,
    ← List.toFinset_card_of_nodup invariant.valid.nodup_keys]
  congr 1
  ext imsi
  rw [List.mem_toFinset, Table.mem_keys_iff]
  exact recorded imsi

/-- A history of a new store returns and leaves the prescribed records. -/
theorem SubscriberStore.run_create
    (expectedSubscribers : Nat) (maxLoadFactor : Rat) (ops : List StoreOp) :
    ∃ store,
      (create expectedSubscribers maxLoadFactor).run ops = some store ∧
        StoreInvariant store ∧
        store.records = prescribedRecord ops ∧
        store.size = (upsertedKeys ops).card ∧
        store.maxLoadFactor = clampLoadFactor maxLoadFactor := by
  obtain ⟨createInvariant, createRecords⟩ :=
    create_invariant expectedSubscribers maxLoadFactor
  obtain ⟨store, runShape, effect⟩ := run_spec createInvariant ops
  have recordsShape : store.records = prescribedRecord ops := by
    rw [effect.records, createRecords, foldl_applyRecords_eq_prescribedRecord]
  refine ⟨store, runShape, effect.invariant, recordsShape, ?_, effect.factor⟩
  apply effect.invariant.size_eq_card
  intro imsi
  rw [recordsShape]
  exact prescribedRecord_isSome_iff ops imsi

/-- The table layout that a store promises after every call. -/
structure StoreLayout (store : SubscriberStore) : Prop where
  powerOfTwo : ∃ exponent, store.capacity = 2 ^ exponent
  withinLimit :
    (store.size : Rat) ≤ store.capacity * store.maxLoadFactor
  limitBelow :
    (store.capacity : Rat) * store.maxLoadFactor < store.capacity
  chained :
    Chained SubscriberRecord.imsi 0 store.home store.slots

/--
The subscriber store refines a finite map: from any initial size and load
factor, every sequence of calls returns, every lookup then returns the record
its history prescribes, the size is the number of distinct subscribers, and the
table layout holds.
-/
theorem store_refines_map
    (expectedSubscribers : Nat)
    (maxLoadFactor : Rat)
    (ops : List StoreOp) :
    ∃ store,
      (SubscriberStore.create expectedSubscribers maxLoadFactor).run ops =
          some store ∧
        (∀ imsi, store.find imsi = some (prescribedRecord ops imsi)) ∧
        (∀ imsi, ∃ found, store.findMutable imsi = some found) ∧
        store.size = (upsertedKeys ops).card ∧
        store.maxLoadFactor = clampLoadFactor maxLoadFactor ∧
        StoreLayout store := by
  obtain ⟨store, runShape, invariant, recordsShape, sizeShape, factor⟩ :=
    SubscriberStore.run_create expectedSubscribers maxLoadFactor ops
  refine ⟨store, runShape, ?_, ?_, sizeShape, factor, ?_⟩
  · intro imsi
    rw [invariant.find_eq, recordsShape]
  · intro imsi
    rcases SubscriberStore.findMutable_spec invariant imsi with
      ⟨located, _⟩ | ⟨index, _, located, _⟩
    · exact ⟨none, located⟩
    · exact ⟨some index, located⟩
  · obtain ⟨exponent, lengthShape, _⟩ := invariant.valid.sized
    exact {
      powerOfTwo := ⟨exponent, lengthShape⟩
      withinLimit := invariant.loaded
      limitBelow := invariant.limit_lt_capacity
      chained := invariant.valid.chained
    }

example :
    ((SubscriberStore.create 4 (1 / 2)).run
        [.upsert { imsi := 7, bytesUsedPeriod := 5 }, .addUsage 7 3,
          .resetPeriod 7 99, .addUsage 7 4]).bind (·.find 7) =
      some (some
        { imsi := 7, bytesUsedPeriod := 4, periodResetTs := 99 }) := by
  decide +kernel

end Policyd
