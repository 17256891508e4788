import Mathlib

namespace Policyd

/-!
# Linear probing over a power-of-two table

A probe starts at the home position of the wanted key and steps cyclically
until it meets that key or a vacant slot.  `Chained` is the invariant that
makes probes correct: no key is stored twice, and no vacant slot lies between
the home of a stored key and its slot.  A probe of a chained table with a
vacant slot stops, finds every stored key, and writing where it stopped keeps
the table chained.  Slots, keys and the home function are arbitrary.
-/

namespace LinearProbing

section Invariant

variable {Slot Key : Type}

/-- The slot at a position stops a probe for the wanted key. -/
def Stops
    (key : Slot → Key) (vacant wanted : Key) (slots : List Slot)
    (index : Nat) : Prop :=
  ∃ slot,
    slots[index]? = some slot ∧
      (key slot = wanted ∨ key slot = vacant)

/-- A key is stored at a position. -/
def StoredAt
    (key : Slot → Key) (slots : List Slot) (wanted : Key)
    (index : Nat) : Prop :=
  ∃ slot, slots[index]? = some slot ∧ key slot = wanted

/-- A slot with the wanted key is somewhere in the table. -/
def Holds
    (key : Slot → Key) (slots : List Slot) (wanted : Key)
    (slot : Slot) : Prop :=
  slot ∈ slots ∧ key slot = wanted

/-- The table has a power-of-two capacity and a matching index mask. -/
def Sized (slots : List Slot) (mask : Nat) : Prop :=
  ∃ exponent,
    slots.length = 2 ^ exponent ∧ mask = 2 ^ exponent - 1

/--
The probing invariant: stored keys are distinct, and every slot between the
home of a stored key and its own slot is occupied.
-/
structure Chained
    (key : Slot → Key)
    (vacant : Key)
    (home : Key → Nat)
    (slots : List Slot) : Prop where
  distinct :
    ∀ {wanted first second},
      wanted ≠ vacant →
      StoredAt key slots wanted first →
      StoredAt key slots wanted second →
      first = second
  reached :
    ∀ {wanted index},
      wanted ≠ vacant →
      StoredAt key slots wanted index →
      ∃ distance,
        distance < slots.length ∧
          index = (home wanted + distance) % slots.length ∧
          ∀ earlier,
            earlier < distance →
            ¬ StoredAt key slots vacant
              ((home wanted + earlier) % slots.length)

namespace Sized

variable {slots : List Slot} {mask : Nat}

variable (sized : Sized slots mask)

include sized

theorem length_pos :
    0 < slots.length := by
  obtain ⟨exponent, lengthShape, _⟩ := sized
  rw [lengthShape]
  exact Nat.two_pow_pos exponent

theorem and_mask (index : Nat) :
    index &&& mask = index % slots.length := by
  obtain ⟨exponent, lengthShape, maskShape⟩ := sized
  rw [lengthShape, maskShape]
  exact Nat.and_two_pow_sub_one_eq_mod index exponent

theorem set (index : Nat) (slot : Slot) :
    Sized (slots.set index slot) mask := by
  obtain ⟨exponent, lengthShape, maskShape⟩ := sized
  exact ⟨exponent, by simpa using lengthShape, maskShape⟩

end Sized

theorem StoredAt.lt_length
    {key : Slot → Key} {slots : List Slot} {wanted : Key} {index : Nat}
    (stored : StoredAt key slots wanted index) :
    index < slots.length := by
  obtain ⟨slot, slotShape, _⟩ := stored
  exact (List.getElem?_eq_some_iff.mp slotShape).1

/-- What is stored at each position after one slot is written. -/
theorem storedAt_set
    {key : Slot → Key} {slots : List Slot} {written : Slot} {wanted : Key}
    {target index : Nat}
    (inBounds : target < slots.length) :
    StoredAt key (slots.set target written) wanted index ↔
      if index = target then
        key written = wanted
      else
        StoredAt key slots wanted index := by
  unfold StoredAt
  rw [List.getElem?_set]
  by_cases same : index = target
  · subst index
    simp [inBounds]
  · simp [same, Ne.symm same]

namespace Chained

variable {key : Slot → Key} {vacant : Key} {home : Key → Nat}
variable {slots : List Slot} {mask : Nat} {wanted : Key}

private theorem distance_unique {capacity start first second : Nat}
    (firstBound : first < capacity) (secondBound : second < capacity)
    (same : (start + first) % capacity = (start + second) % capacity) :
    first = second := by
  have congruent : first ≡ second [MOD capacity] :=
    Nat.ModEq.add_left_cancel' start same
  exact Nat.ModEq.eq_of_lt_of_lt congruent firstBound secondBound

variable (chained : Chained key vacant home slots)

include chained

/-- Two slots with one stored key are the same slot. -/
theorem holds_unique (occupied : wanted ≠ vacant) {first second : Slot}
    (firstHolds : Holds key slots wanted first)
    (secondHolds : Holds key slots wanted second) :
    first = second := by
  obtain ⟨firstIndex, firstShape⟩ := List.mem_iff_getElem?.mp firstHolds.1
  obtain ⟨secondIndex, secondShape⟩ := List.mem_iff_getElem?.mp secondHolds.1
  have sameIndex :=
    chained.distinct occupied
      ⟨first, firstShape, firstHolds.2⟩
      ⟨second, secondShape, secondHolds.2⟩
  subst secondIndex
  rw [firstShape] at secondShape
  exact Option.some.inj secondShape

omit chained in
/-- A table without stored keys is chained. -/
theorem replicate
    {empty : Slot} (isVacant : key empty = vacant) (capacity : Nat) :
    Chained key vacant home (List.replicate capacity empty) := by
  have noneStored
      {wanted : Key}
      {index : Nat}
      (occupied : wanted ≠ vacant) :
      ¬ StoredAt key (List.replicate capacity empty) wanted index := by
    rintro ⟨slot, slotShape, keyShape⟩
    have slotIsEmpty := List.eq_of_mem_replicate
      (List.mem_of_getElem? slotShape)
    rw [slotIsEmpty, isVacant] at keyShape
    exact occupied keyShape.symm
  exact {
    distinct := fun occupied stored _ =>
      (noneStored occupied stored).elim
    reached := fun occupied stored =>
      (noneStored occupied stored).elim
  }

variable {written : Slot} {target : Nat}

/-- Overwriting the slot of a key keeps the table chained. -/
private theorem set_stored (stored : StoredAt key slots (key written) target) :
    Chained key vacant home (slots.set target written) := by
  have sameStored
      {wanted : Key}
      {index : Nat} :
      StoredAt key (slots.set target written) wanted index ↔
        StoredAt key slots wanted index := by
    rw [storedAt_set stored.lt_length]
    split
    · rename_i samePlace
      subst index
      obtain ⟨slot, slotShape, keyShape⟩ := stored
      simp [StoredAt, slotShape, keyShape]
    · rfl
  exact {
    distinct := by
      intro wanted first second occupied firstStored secondStored
      rw [sameStored] at firstStored secondStored
      exact chained.distinct occupied firstStored secondStored
    reached := by
      intro wanted index occupied indexStored
      rw [sameStored] at indexStored
      simpa only [sameStored, List.length_set] using
        chained.reached occupied indexStored
  }

/-- Filling the first vacant slot of a probe keeps the table chained. -/
private theorem set_vacant
    (occupied : key written ≠ vacant) (free : StoredAt key slots vacant target)
    (absent : ∀ index, ¬ StoredAt key slots (key written) index)
    {distance : Nat}
    (short : distance < slots.length)
    (targetShape : target = (home (key written) + distance) % slots.length)
    (noVacancy :
      ∀ earlier,
        earlier < distance →
        ¬ StoredAt key slots vacant
          ((home (key written) + earlier) % slots.length)) :
    Chained key vacant home (slots.set target written) := by
  have staysOccupied
      {index : Nat}
      (wasOccupied : ¬ StoredAt key slots vacant index) :
      ¬ StoredAt key (slots.set target written) vacant index := by
    rw [storedAt_set free.lt_length]
    split
    · exact occupied
    · exact wasOccupied
  refine ⟨?_, ?_⟩
  · intro wanted first second wantedOccupied firstStored secondStored
    rw [storedAt_set free.lt_length] at firstStored secondStored
    split at firstStored <;> split at secondStored
    · omega
    · subst wanted
      exact (absent second secondStored).elim
    · subst wanted
      exact (absent first firstStored).elim
    · exact chained.distinct wantedOccupied firstStored secondStored
  · intro wanted index wantedOccupied stored
    rw [storedAt_set free.lt_length] at stored
    rw [List.length_set]
    split at stored
    · rename_i samePlace
      subst wanted
      subst index
      exact ⟨distance, short, targetShape,
        fun earlier below => staysOccupied (noVacancy earlier below)⟩
    · obtain ⟨indexDistance, indexShort, indexShape, indexPath⟩ :=
        chained.reached wantedOccupied stored
      exact ⟨indexDistance, indexShort, indexShape,
        fun earlier below => staysOccupied (indexPath earlier below)⟩

end Chained

end Invariant

section

variable {Slot Key : Type} [DecidableEq Key]

/--
Follow a probe sequence for at most `fuel` slots.

The result is the position at which the probe stops; `none` means that no
visited slot stopped it.
-/
def probe
    (key : Slot → Key) (vacant wanted : Key) (slots : List Slot) (mask : Nat) :
    Nat → Nat → Option Nat
  | 0, _ => none
  | fuel + 1, index =>
    match slots[index]? with
    | none => none
    | some slot =>
      if key slot = wanted then
        some index
      else if key slot = vacant then
        some index
      else
        probe key vacant wanted slots mask
          fuel ((index + 1) &&& mask)

section Probe

variable {key : Slot → Key} {vacant wanted : Key}
variable {slots : List Slot} {mask : Nat}

private theorem advance_mod (index distance capacity : Nat) :
    ((index + 1) % capacity + distance) % capacity =
      (index + (distance + 1)) % capacity := by
  rw [Nat.mod_add_mod]
  congr 1
  omega

/-- A probe stops at the first stopping slot within its fuel. -/
theorem probe_eq_some_iff (sized : Sized slots mask) (fuel index result : Nat)
    (inBounds : index < slots.length) :
    probe key vacant wanted slots mask fuel index = some result ↔
      ∃ distance,
        distance < fuel ∧
          result = (index + distance) % slots.length ∧
          Stops key vacant wanted slots result ∧
          ∀ earlier,
            earlier < distance →
            ¬ Stops key vacant wanted slots
              ((index + earlier) % slots.length) := by
  induction fuel generalizing index with
  | zero => simp [probe]
  | succ fuel inductionHypothesis =>
    have present : slots[index]? = some slots[index] :=
      List.getElem?_eq_getElem inBounds
    have here : index % slots.length = index := Nat.mod_eq_of_lt inBounds
    by_cases stops : Stops key vacant wanted slots index
    · have probeShape :
          probe key vacant wanted slots mask (fuel + 1) index =
            some index := by
        obtain ⟨slot, slotShape, stopping⟩ := stops
        rw [probe, slotShape]
        rcases stopping with isWanted | isVacant
        · simp [isWanted]
        · simp [isVacant]
      rw [probeShape]
      constructor
      · intro same
        cases same
        exact ⟨0, by omega, by simp [here], stops,
          fun earlier impossible => by omega⟩
      · rintro ⟨distance, _, resultShape, _, noEarlier⟩
        cases distance with
        | zero => simp [resultShape, here]
        | succ distance =>
          have notHere := noEarlier 0 (by omega)
          simp only [Nat.add_zero, here] at notHere
          exact (notHere stops).elim
    · have notWanted : key slots[index] ≠ wanted :=
        fun same => stops ⟨_, present, Or.inl same⟩
      have notVacant : key slots[index] ≠ vacant :=
        fun same => stops ⟨_, present, Or.inr same⟩
      have nextBounds : (index + 1) % slots.length < slots.length :=
        Nat.mod_lt _ sized.length_pos
      have probeShape :
          probe key vacant wanted slots mask (fuel + 1) index =
            probe key vacant wanted slots mask fuel
              ((index + 1) % slots.length) := by
        rw [probe, present]
        simp [notWanted, notVacant, sized.and_mask]
      rw [probeShape, inductionHypothesis _ nextBounds]
      constructor
      · rintro ⟨distance, short, resultShape, stopping, noEarlier⟩
        refine ⟨distance + 1, by omega, ?_, stopping, ?_⟩
        · rw [resultShape, advance_mod]
        · intro earlier below
          cases earlier with
          | zero =>
            simpa only [Nat.add_zero, here] using stops
          | succ earlier =>
            rw [← advance_mod]
            exact noEarlier earlier (by omega)
      · rintro ⟨distance, short, resultShape, stopping, noEarlier⟩
        cases distance with
        | zero =>
          rw [Nat.add_zero, here] at resultShape
          rw [resultShape] at stopping
          exact (stops stopping).elim
        | succ distance =>
          refine ⟨distance, by omega, ?_, stopping, ?_⟩
          · rw [resultShape, advance_mod]
          · intro earlier below
            rw [advance_mod]
            exact noEarlier (earlier + 1) (by omega)

/-- Every position is some distance ahead of every other position. -/
theorem exists_distance {capacity start target : Nat}
    (targetBounds : target < capacity) (startBounds : start < capacity) :
    ∃ distance,
      distance < capacity ∧
        target = (start + distance) % capacity := by
  by_cases ahead : start ≤ target
  · refine ⟨target - start, by omega, ?_⟩
    rw [Nat.add_sub_cancel' ahead, Nat.mod_eq_of_lt targetBounds]
  · refine ⟨target + capacity - start, by omega, ?_⟩
    have sum : start + (target + capacity - start) = target + capacity := by
      omega
    rw [sum, Nat.add_mod_right, Nat.mod_eq_of_lt targetBounds]

/-- A probe with enough fuel stops as soon as some slot is vacant. -/
theorem probe_stops (sized : Sized slots mask) {index vacancy : Nat}
    (inBounds : index < slots.length)
    (free : StoredAt key slots vacant vacancy) :
    ∃ result,
      probe key vacant wanted slots mask slots.length index =
        some result := by
  classical
  obtain ⟨slot, slotShape, isVacant⟩ := free
  have vacancyBounds : vacancy < slots.length := by
    by_contra outside
    rw [List.getElem?_eq_none (by omega)] at slotShape
    cases slotShape
  obtain ⟨distance, short, reaches⟩ := exists_distance vacancyBounds inBounds
  have someStop :
      ∃ distance,
        Stops key vacant wanted slots
          ((index + distance) % slots.length) :=
    ⟨distance, slot, by rw [← reaches]; exact slotShape, Or.inr isVacant⟩
  refine ⟨(index + Nat.find someStop) % slots.length, ?_⟩
  rw [probe_eq_some_iff sized _ _ _ inBounds]
  refine ⟨Nat.find someStop, ?_, rfl, Nat.find_spec someStop,
    fun earlier below => Nat.find_min someStop below⟩
  refine lt_of_le_of_lt (Nat.find_min' someStop ?_) short
  exact ⟨slot, by rw [← reaches]; exact slotShape, Or.inr isVacant⟩

end Probe

namespace Chained

variable {key : Slot → Key} {vacant : Key} {home : Key → Nat}
variable {slots : List Slot} {mask : Nat} {wanted : Key}

variable (chained : Chained key vacant home slots) (sized : Sized slots mask)

include chained sized

theorem probe_stored
    (occupied : wanted ≠ vacant) (homeBounds : home wanted < slots.length)
    {index : Nat}
    (stored : StoredAt key slots wanted index) :
    probe key vacant wanted slots mask slots.length (home wanted) =
      some index := by
  obtain ⟨distance, short, indexShape, noVacancy⟩ :=
    chained.reached occupied stored
  rw [probe_eq_some_iff sized _ _ _ homeBounds]
  refine ⟨distance, short, indexShape, ?_, ?_⟩
  · obtain ⟨slot, slotShape, keyShape⟩ := stored
    exact ⟨slot, slotShape, Or.inl keyShape⟩
  · rintro earlier below ⟨slot, slotShape, isWanted | isVacant⟩
    · have samePlace :=
        chained.distinct occupied ⟨slot, slotShape, isWanted⟩ stored
      rw [indexShape] at samePlace
      have sameDistance := distance_unique (by omega) short samePlace
      omega
    · exact noVacancy earlier below ⟨slot, slotShape, isVacant⟩

/--
A probe stops at the wanted key, or at a vacant slot when the key is not
stored anywhere.
-/
theorem probe_cases
    (occupied : wanted ≠ vacant) (homeBounds : home wanted < slots.length)
    {result : Nat}
    (stopped :
      probe key vacant wanted slots mask slots.length (home wanted) =
        some result) :
    StoredAt key slots wanted result ∨
      StoredAt key slots vacant result ∧
        ∀ index, ¬ StoredAt key slots wanted index := by
  obtain ⟨_, _, _, ⟨slot, slotShape, isWanted | isVacant⟩, _⟩ :=
    (probe_eq_some_iff sized _ _ _ homeBounds).mp stopped
  · exact Or.inl ⟨slot, slotShape, isWanted⟩
  · refine Or.inr ⟨⟨slot, slotShape, isVacant⟩, ?_⟩
    intro index stored
    have found := chained.probe_stored sized occupied homeBounds stored
    rw [stopped] at found
    cases found
    obtain ⟨other, otherShape, otherKey⟩ := stored
    rw [slotShape] at otherShape
    cases otherShape
    exact occupied (otherKey.symm.trans isVacant)

variable {written : Slot} {target : Nat}

/-- Writing a slot where the probe for its key stopped keeps the invariant. -/
theorem set (occupied : key written ≠ vacant)
    (homeBounds : home (key written) < slots.length)
    (stopped :
      probe key vacant (key written) slots mask slots.length
          (home (key written)) =
        some target) :
    Chained key vacant home (slots.set target written) := by
  rcases chained.probe_cases sized occupied homeBounds stopped with
    stored | ⟨free, absent⟩
  · exact chained.set_stored stored
  · obtain ⟨distance, short, targetShape, _, noStop⟩ :=
      (probe_eq_some_iff sized _ _ _ homeBounds).mp stopped
    refine chained.set_vacant occupied free absent short targetShape ?_
    rintro earlier below ⟨slot, slotShape, isVacant⟩
    exact noStop earlier below ⟨slot, slotShape, Or.inr isVacant⟩

/--
After a write at the stopping slot, the written key holds the written slot and
every other key holds what it held before.
-/
theorem holds_set (occupied : key written ≠ vacant)
    (homeBounds : home (key written) < slots.length)
    (stopped :
      probe key vacant (key written) slots mask slots.length
          (home (key written)) =
        some target)
    (wantedOccupied : wanted ≠ vacant)
    {slot : Slot} :
    Holds key (slots.set target written) wanted slot ↔
      if wanted = key written then
        slot = written
      else
        Holds key slots wanted slot := by
  have stoppedCases := chained.probe_cases sized occupied homeBounds stopped
  have targetBounds : target < slots.length := by
    rcases stoppedCases with stored | ⟨free, _⟩
    · exact stored.lt_length
    · exact free.lt_length
  have writtenHolds :
      Holds key (slots.set target written) (key written) written :=
    ⟨List.mem_set targetBounds written, rfl⟩
  by_cases same : wanted = key written
  · subst wanted
    rw [if_pos rfl]
    constructor
    · intro holds
      exact (chained.set sized occupied homeBounds stopped).holds_unique
        occupied holds writtenHolds
    · rintro rfl
      exact writtenHolds
  · rw [if_neg same]
    constructor
    · rintro ⟨member, keyShape⟩
      rcases List.mem_or_eq_of_mem_set member with before | isWritten
      · exact ⟨before, keyShape⟩
      · subst slot
        exact (same keyShape.symm).elim
    · rintro ⟨member, keyShape⟩
      refine ⟨?_, keyShape⟩
      obtain ⟨index, indexShape⟩ := List.mem_iff_getElem?.mp member
      have otherPlace : target ≠ index := by
        intro samePlace
        subst index
        rcases stoppedCases with
          ⟨old, oldShape, oldKey⟩ | ⟨⟨old, oldShape, oldKey⟩, _⟩
        · rw [oldShape] at indexShape
          cases indexShape
          exact same (keyShape.symm.trans oldKey)
        · rw [oldShape] at indexShape
          cases indexShape
          exact wantedOccupied (keyShape.symm.trans oldKey)
      apply List.mem_iff_getElem?.mpr
      refine ⟨index, ?_⟩
      rw [List.getElem?_set_ne otherPlace]
      exact indexShape

end Chained

/-- Whether a slot is in use. -/
def occupied (key : Slot → Key) (vacant : Key) (slot : Slot) : Bool :=
  key slot != vacant

theorem exists_vacant {key : Slot → Key} {vacant : Key} {slots : List Slot}
    (spare : slots.countP (occupied key vacant) < slots.length) :
    ∃ vacancy, StoredAt key slots vacant vacancy := by
  by_contra noVacancy
  apply Nat.ne_of_lt spare
  rw [List.countP_eq_length]
  intro slot member
  obtain ⟨index, slotShape⟩ := List.mem_iff_getElem?.mp member
  have isOccupied : key slot ≠ vacant := fun isVacant =>
    noVacancy ⟨index, slot, slotShape, isVacant⟩
  simpa [occupied] using isOccupied

/-- A probed table: its slots, its index mask and its element count. -/
structure Table (Slot : Type) where
  slots : List Slot
  mask : Nat
  size : Nat
  deriving Repr, DecidableEq

namespace Table

/-- A table of vacant slots. -/
def blank (empty : Slot) (capacity : Nat) : Table Slot :=
  { slots := List.replicate capacity empty
    mask := capacity - 1
    size := 0 }

section Operations

variable (key : Slot → Key) (vacant : Key) (hash : Key → Nat)

/-- The position at which the probe for a key stops. -/
def locate (table : Table Slot) (wanted : Key) : Option Nat :=
  probe key vacant wanted table.slots table.mask
    table.slots.length (hash wanted &&& table.mask)

/--
The position of a stored key.

The outer `none` means that the probe visited every slot without stopping, so
that an unbounded probe loop would run forever.
-/
def position (table : Table Slot) (wanted : Key) : Option (Option Nat) :=
  (locate key vacant hash table wanted).map fun index =>
    if (table.slots[index]?).map key = some wanted then
      some index
    else
      none

/-- Write a slot where the probe for its key stops, and count a new key. -/
def put (table : Table Slot) (written : Slot) : Option (Table Slot) :=
  (locate key vacant hash table (key written)).map fun index =>
    { table with
      slots := table.slots.set index written
      size :=
        if (table.slots[index]?).map key = some (key written) then
          table.size
        else
          table.size + 1 }

/-- The slot that a table stores for a key. -/
def contents (table : Table Slot) (wanted : Key) : Option Slot :=
  if wanted = vacant then
    none
  else
    table.slots.find? (key · == wanted)

/-- The keys a table stores. -/
def keys (table : Table Slot) : List Key :=
  (table.slots.filter (occupied key vacant)).map key

/-- The invariant of a probed table with at least one vacant slot. -/
structure Valid (table : Table Slot) : Prop where
  sized : Sized table.slots table.mask
  chained :
    Chained key vacant (fun wanted => hash wanted &&& table.mask)
      table.slots
  counted : table.size = table.slots.countP (occupied key vacant)
  spare : table.size < table.slots.length

end Operations

section Contents

variable {key : Slot → Key} {vacant : Key} {table : Table Slot}
variable {wanted : Key}

@[simp] theorem contents_vacant :
    contents key vacant table vacant = none := by
  simp [contents]

theorem contents_eq_none_iff (stored : wanted ≠ vacant) :
    contents key vacant table wanted = none ↔
      ∀ slot ∈ table.slots, key slot ≠ wanted := by
  simp [contents, stored]

theorem holds_of_contents
    {slot : Slot} (found : contents key vacant table wanted = some slot) :
    wanted ≠ vacant ∧ Holds key table.slots wanted slot := by
  unfold contents at found
  split at found
  · cases found
  · rename_i stored
    exact ⟨stored, List.mem_of_find?_eq_some found,
      by simpa using List.find?_some found⟩

theorem mem_keys_iff :
    wanted ∈ keys key vacant table ↔
      (contents key vacant table wanted).isSome := by
  by_cases isVacant : wanted = vacant
  · subst wanted
    simp [keys, occupied]
  · simp only [keys, List.mem_map, List.mem_filter, contents, isVacant,
      if_false, List.find?_isSome, beq_iff_eq, occupied]
    constructor
    · rintro ⟨slot, ⟨member, _⟩, keyShape⟩
      exact ⟨slot, member, keyShape⟩
    · rintro ⟨slot, member, keyShape⟩
      exact ⟨slot, ⟨member, by simpa [keyShape] using isVacant⟩, keyShape⟩

theorem contents_blank {empty : Slot}
    (isVacant : key empty = vacant) (capacity : Nat) (wanted : Key) :
    contents key vacant (blank empty capacity) wanted = none := by
  by_cases stored : wanted = vacant
  · subst wanted
    exact contents_vacant
  · rw [contents_eq_none_iff stored]
    intro slot member
    rw [List.eq_of_mem_replicate member, isVacant]
    exact Ne.symm stored

end Contents

namespace Valid

variable {key : Slot → Key} {vacant : Key} {hash : Key → Nat}
variable {table : Table Slot} {wanted : Key}

theorem blank {empty : Slot} (isVacant : key empty = vacant) (exponent : Nat) :
    Valid key vacant hash (Table.blank empty (2 ^ exponent)) where
  sized := ⟨exponent, by simp [Table.blank], rfl⟩
  chained := Chained.replicate isVacant _
  counted := by
    simp [Table.blank, List.countP_replicate, occupied, isVacant]
  spare := by
    simp [Table.blank]

variable (valid : Valid key vacant hash table)

include valid

theorem home_lt (wanted : Key) :
    hash wanted &&& table.mask < table.slots.length := by
  rw [valid.sized.and_mask]
  exact Nat.mod_lt _ valid.sized.length_pos

theorem locate_isSome (wanted : Key) :
    ∃ index, locate key vacant hash table wanted = some index := by
  have spare :
      table.slots.countP (occupied key vacant) <
        table.slots.length := by
    rw [← valid.counted]
    exact valid.spare
  obtain ⟨vacancy, free⟩ := exists_vacant spare
  exact probe_stops valid.sized (valid.home_lt wanted) free

/-- In a valid table the contents of a key is the only slot with that key. -/
theorem contents_eq_some_iff (stored : wanted ≠ vacant) {slot : Slot} :
    contents key vacant table wanted = some slot ↔
      Holds key table.slots wanted slot := by
  constructor
  · exact fun found => (holds_of_contents found).2
  · intro holds
    cases found : contents key vacant table wanted with
    | none =>
      rw [contents_eq_none_iff stored] at found
      exact (found slot holds.1 holds.2).elim
    | some other =>
      rw [valid.chained.holds_unique stored (holds_of_contents found).2 holds]

theorem locate_of_storedAt (stored : wanted ≠ vacant) {index : Nat}
    (at_index : StoredAt key table.slots wanted index) :
    locate key vacant hash table wanted = some index :=
  valid.chained.probe_stored valid.sized stored (valid.home_lt wanted) at_index

/--
Finding a position in a valid table always stops, and dereferencing it gives
the contents of the key.
-/
theorem position_spec {wanted : Key} (stored : wanted ≠ vacant) :
    ∃ found,
      position key vacant hash table wanted = some found ∧
        (found.bind fun index => table.slots[index]?) =
          contents key vacant table wanted := by
  obtain ⟨index, located⟩ := valid.locate_isSome wanted
  refine ⟨_, by rw [position, located]; rfl, ?_⟩
  rcases valid.chained.probe_cases valid.sized stored
      (valid.home_lt wanted) located with
    ⟨slot, slotShape, keyShape⟩ | ⟨⟨slot, slotShape, keyShape⟩, absent⟩
  · have found : contents key vacant table wanted = some slot :=
      (valid.contents_eq_some_iff stored).mpr
        ⟨List.mem_of_getElem? slotShape, keyShape⟩
    simp [slotShape, keyShape, found]
  · have notFound : contents key vacant table wanted = none := by
      rw [contents_eq_none_iff stored]
      intro other member same
      obtain ⟨place, placeShape⟩ := List.mem_iff_getElem?.mp member
      exact absent place ⟨other, placeShape, same⟩
    have differs : vacant ≠ wanted := Ne.symm stored
    simp [slotShape, keyShape, notFound, differs]

theorem size_eq_length_keys :
    table.size = (keys key vacant table).length := by
  rw [valid.counted, keys, List.length_map, List.countP_eq_length_filter]

/-- The stored keys of a valid table are distinct. -/
theorem nodup_keys :
    (keys key vacant table).Nodup := by
  have distinct :
      table.slots.Pairwise fun first second =>
        key first ≠ vacant → key first ≠ key second := by
    rw [List.pairwise_iff_getElem]
    intro first second firstBound secondBound below stored same
    have samePlace :=
      valid.chained.distinct stored
        ⟨_, List.getElem?_eq_getElem firstBound, rfl⟩
        ⟨_, List.getElem?_eq_getElem secondBound, same.symm⟩
    omega
  unfold keys
  rw [List.Nodup, List.pairwise_map, List.pairwise_filter]
  refine distinct.imp ?_
  intro first second different firstStored _
  exact different (by simpa [occupied] using firstStored)

omit valid in
/-- Used slots after writing one slot. -/
private theorem countP_set
    {slots : List Slot} {index : Nat} {old written : Slot}
    (oldShape : slots[index]? = some old) (stored : key written ≠ vacant) :
    (slots.set index written).countP (occupied key vacant) =
      if key old = vacant then
        slots.countP (occupied key vacant) + 1
      else
        slots.countP (occupied key vacant) := by
  obtain ⟨inBounds, rfl⟩ := List.getElem?_eq_some_iff.mp oldShape
  rw [List.countP_set inBounds]
  by_cases isVacant : key slots[index] = vacant
  · simp [occupied, stored, isVacant]
  · have positive : 0 < slots.countP (occupied key vacant) :=
      List.countP_pos_iff.mpr
        ⟨slots[index], List.getElem_mem inBounds, by
          simpa [occupied] using isVacant⟩
    simp only [occupied, bne_iff_ne, ne_eq, isVacant, stored,
      not_false_eq_true, if_true, if_false] at positive ⊢
    omega

/-- The search for a key stops at its slot, or at a vacant one without it. -/
theorem exists_stopped {wanted : Key} (stored : wanted ≠ vacant) {index : Nat}
    (located : locate key vacant hash table wanted = some index) :
    ∃ old,
      table.slots[index]? = some old ∧
        (key old = wanted ↔ (contents key vacant table wanted).isSome = true) ∧
        (key old = wanted ∨ key old = vacant) := by
  rcases valid.chained.probe_cases valid.sized stored
      (valid.home_lt wanted) located with
    ⟨old, oldShape, oldKey⟩ | ⟨⟨old, oldShape, oldKey⟩, absent⟩
  · have found :=
      (valid.contents_eq_some_iff stored).mpr
        ⟨List.mem_of_getElem? oldShape, oldKey⟩
    exact ⟨old, oldShape, by simp [found, oldKey], Or.inl oldKey⟩
  · have notFound : contents key vacant table wanted = none := by
      rw [contents_eq_none_iff stored]
      intro other member same
      obtain ⟨place, placeShape⟩ := List.mem_iff_getElem?.mp member
      exact absent place ⟨other, placeShape, same⟩
    have differs : vacant ≠ wanted := Ne.symm stored
    exact ⟨old, oldShape, by simp [notFound, oldKey, differs], Or.inr oldKey⟩

/--
Writing a slot into a valid table with room for its key succeeds, keeps the
table valid, and updates the contents at exactly the written key.
-/
theorem put_spec (written : Slot) (stored : key written ≠ vacant)
    (room :
      contents key vacant table (key written) = none →
      table.size + 1 < table.slots.length) :
    ∃ next,
      put key vacant hash table written = some next ∧
        Valid key vacant hash next ∧
        contents key vacant next =
          Function.update (contents key vacant table)
            (key written) (some written) ∧
        next.slots.length = table.slots.length ∧
        next.mask = table.mask ∧
        next.size =
          if (contents key vacant table (key written)).isSome then
            table.size
          else
            table.size + 1 := by
  obtain ⟨index, located⟩ := valid.locate_isSome (key written)
  have chainedNext :
      Chained key vacant (fun wanted => hash wanted &&& table.mask)
        (table.slots.set index written) :=
    valid.chained.set valid.sized stored (valid.home_lt (key written)) located
  obtain ⟨old, oldShape, oldPresent, oldKey⟩ :=
    valid.exists_stopped stored located
  have sizeShape :
      (if (table.slots[index]?).map key = some (key written) then
          table.size
        else
          table.size + 1) =
        (table.slots.set index written).countP
          (occupied key vacant) := by
    rw [countP_set oldShape stored, valid.counted, oldShape]
    rcases oldKey with isWritten | isVacant
    · simp [isWritten, stored]
    · have differs : vacant ≠ key written := Ne.symm stored
      simp [isVacant, differs]
  have nextValid :
      Valid key vacant hash
        { table with
          slots := table.slots.set index written
          size :=
            if (table.slots[index]?).map key = some (key written) then
              table.size
            else
              table.size + 1 } := {
    sized := valid.sized.set index written
    chained := chainedNext
    counted := sizeShape
    spare := by
      simp only [List.length_set, oldShape, Option.map_some,
        Option.some.injEq, oldPresent]
      split
      · exact valid.spare
      · rename_i notFound
        exact room (by simpa using notFound)
  }
  refine ⟨_, by rw [put, located]; rfl, nextValid, ?_, by simp, rfl, ?_⟩
  · funext wanted
    by_cases isVacant : wanted = vacant
    · subst wanted
      rw [contents_vacant,
        Function.update_of_ne (Ne.symm stored), contents_vacant]
    · apply Option.ext
      intro slot
      rw [nextValid.contents_eq_some_iff isVacant,
        valid.chained.holds_set valid.sized stored
          (valid.home_lt (key written)) located isVacant]
      by_cases same : wanted = key written
      · subst wanted
        simp [eq_comm]
      · rw [if_neg same, Function.update_of_ne same,
          valid.contents_eq_some_iff isVacant]
  · simp only [oldShape, Option.map_some, Option.some.injEq, oldPresent]

/-- Overwriting the slot of a stored key in place is writing that key. -/
theorem put_eq_set {old written : Slot} {index : Nat}
    (oldShape : table.slots[index]? = some old)
    (sameKey : key written = key old) (stored : key old ≠ vacant) :
    put key vacant hash table written =
      some { table with slots := table.slots.set index written } := by
  have located : locate key vacant hash table (key written) = some index := by
    rw [sameKey]
    exact valid.locate_of_storedAt stored ⟨old, oldShape, rfl⟩
  rw [put, located]
  simp [oldShape, sameKey]

end Valid

/-- Update a map with a list of records, one after the other. -/
def replay
    (key : Slot → Key) (start : Key → Option Slot) (records : List Slot) :
    Key → Option Slot :=
  records.foldl
    (fun map record =>
      Function.update map (key record) (some record)) start

/-- Replaying records with distinct keys stores exactly those records. -/
theorem replay_eq_some_iff {key : Slot → Key} {records : List Slot}
    (distinct : (records.map key).Nodup) (start : Key → Option Slot)
    (wanted : Key) (slot : Slot) :
    replay key start records wanted = some slot ↔
      (slot ∈ records ∧ key slot = wanted) ∨
        (start wanted = some slot ∧
          ∀ record ∈ records, key record ≠ wanted) := by
  induction records generalizing start with
  | nil => simp [replay]
  | cons head later inductionHypothesis =>
    rw [List.map_cons, List.nodup_cons] at distinct
    have laterShape :=
      inductionHypothesis distinct.2
        (Function.update start (key head) (some head))
    have headFresh : ∀ record ∈ later, key record ≠ key head := by
      intro record member same
      exact distinct.1 (List.mem_map.mpr ⟨record, member, same⟩)
    have unfolded :
        replay key start (head :: later) wanted =
          replay key
            (Function.update start (key head) (some head))
            later wanted := rfl
    rw [unfolded, laterShape]
    by_cases same : wanted = key head
    · subst wanted
      rw [Function.update_self]
      constructor
      · rintro (⟨member, sameKey⟩ | ⟨isHead, _⟩)
        · exact Or.inl ⟨List.mem_cons_of_mem _ member, sameKey⟩
        · cases isHead
          exact Or.inl ⟨List.mem_cons_self, rfl⟩
      · rintro (⟨member, sameKey⟩ | ⟨_, absent⟩)
        · rcases List.mem_cons.mp member with isHead | isLater
          · exact Or.inr ⟨by rw [isHead], headFresh⟩
          · exact Or.inl ⟨isLater, sameKey⟩
        · exact (absent head List.mem_cons_self rfl).elim
    · rw [Function.update_of_ne same]
      have headDiffers : key head ≠ wanted := Ne.symm same
      constructor
      · rintro (⟨member, sameKey⟩ | ⟨started, absent⟩)
        · exact Or.inl ⟨List.mem_cons_of_mem _ member, sameKey⟩
        · refine Or.inr ⟨started, ?_⟩
          intro record member
          rcases List.mem_cons.mp member with isHead | isLater
          · rw [isHead]
            exact headDiffers
          · exact absent record isLater
      · rintro (⟨member, sameKey⟩ | ⟨started, absent⟩)
        · rcases List.mem_cons.mp member with isHead | isLater
          · rw [isHead] at sameKey
            exact (headDiffers sameKey).elim
          · exact Or.inl ⟨isLater, sameKey⟩
        · exact Or.inr ⟨started, fun record member =>
            absent record (List.mem_cons_of_mem _ member)⟩

theorem Valid.replay_slots
    {key : Slot → Key} {vacant : Key} {hash : Key → Nat} {table : Table Slot}
    (valid : Valid key vacant hash table) :
    replay key (fun _ => none)
        (table.slots.filter (occupied key vacant)) =
      contents key vacant table := by
  funext wanted
  apply Option.ext
  intro slot
  rw [replay_eq_some_iff valid.nodup_keys]
  by_cases isVacant : wanted = vacant
  · subst wanted
    simp only [contents_vacant, List.mem_filter, occupied]
    constructor
    · rintro (⟨⟨_, stored⟩, isVacant⟩ | ⟨impossible, _⟩)
      · simp [isVacant] at stored
      · cases impossible
    · intro impossible
      cases impossible
  · rw [valid.contents_eq_some_iff isVacant]
    simp only [List.mem_filter, occupied, Holds]
    constructor
    · rintro (⟨⟨member, _⟩, keyShape⟩ | ⟨impossible, _⟩)
      · exact ⟨member, keyShape⟩
      · cases impossible
    · rintro ⟨member, keyShape⟩
      exact Or.inl ⟨⟨member, by simpa [keyShape] using isVacant⟩, keyShape⟩

end Table

end

section Capacity

/-- Double a capacity until it reaches a bound, at most `fuel` times. -/
def doubleTo (needed : Nat) : Nat → Nat → Nat
  | 0, capacity => capacity
  | fuel + 1, capacity =>
    if capacity < needed then
      doubleTo needed fuel (2 * capacity)
    else
      capacity

theorem doubleTo_two_pow (needed fuel exponent : Nat) :
    ∃ larger, doubleTo needed fuel (2 ^ exponent) = 2 ^ larger ∧
      exponent ≤ larger := by
  induction fuel generalizing exponent with
  | zero => exact ⟨exponent, rfl, le_rfl⟩
  | succ fuel inductionHypothesis =>
    unfold doubleTo
    split
    · rw [← pow_succ']
      obtain ⟨larger, shape, above⟩ := inductionHypothesis (exponent + 1)
      exact ⟨larger, shape, by omega⟩
    · exact ⟨exponent, rfl, le_rfl⟩

theorem le_doubleTo {needed fuel capacity : Nat}
    (positive : 0 < capacity) (enough : needed ≤ capacity + fuel) :
    needed ≤ doubleTo needed fuel capacity := by
  induction fuel generalizing capacity with
  | zero =>
    simpa [doubleTo] using enough
  | succ fuel inductionHypothesis =>
    unfold doubleTo
    split
    · exact inductionHypothesis (by omega) (by omega)
    · omega

end Capacity

end LinearProbing

end Policyd
