import Policyd.StoreRefinement

namespace Policyd

open LinearProbing

/-!
# Sizing a store

A store is created with room for an expected number of subscribers below its
load limit.  `upsert` compares the limit with one record more than it holds
before it knows whether the record is new.  A table that is exactly at its
limit therefore doubles when one of its records is replaced.
-/

namespace SubscriberStore

theorem clampLoadFactor_idem (loadFactor : Rat) :
    clampLoadFactor (clampLoadFactor loadFactor) =
      clampLoadFactor loadFactor := by
  obtain ⟨lower, upper⟩ := clampLoadFactor_bounds loadFactor
  generalize clampLoadFactor loadFactor = clamped at lower upper ⊢
  rw [clampLoadFactor, if_neg (not_lt.mpr lower), if_neg (not_lt.mpr upper)]

theorem capacity_create (expectedSubscribers : Nat) (maxLoadFactor : Rat) :
    (create expectedSubscribers maxLoadFactor).capacity =
      slotsFor expectedSubscribers (clampLoadFactor maxLoadFactor) := by
  simp [capacity, create, Table.blank]

/-- The expected subscribers fit below the load limit of a new store. -/
theorem expected_le_limit (expectedSubscribers : Nat) (maxLoadFactor : Rat) :
    ((max expectedSubscribers 4 : Nat) : Rat) ≤
      (create expectedSubscribers maxLoadFactor).capacity *
        clampLoadFactor maxLoadFactor := by
  obtain ⟨lower, _⟩ := clampLoadFactor_bounds (clampLoadFactor maxLoadFactor)
  have same :
      clampLoadFactor (clampLoadFactor maxLoadFactor) =
        clampLoadFactor maxLoadFactor :=
    clampLoadFactor_idem maxLoadFactor
  rw [same] at lower
  have positive : 0 < clampLoadFactor maxLoadFactor :=
    lt_of_lt_of_le (by norm_num) lower
  rw [capacity_create, slotsFor, same, ← div_le_iff₀ positive]
  generalize ((max expectedSubscribers 4 : Nat) : Rat) /
    clampLoadFactor maxLoadFactor = needed
  have rounded : needed ≤ (needed.ceil.toNat : Rat) :=
    calc
      needed ≤ (needed.ceil : Rat) := Rat.le_ceil
      _ ≤ (needed.ceil.toNat : Rat) := by
        exact_mod_cast Int.self_le_toNat needed.ceil
  have doubled : needed.ceil.toNat ≤ nextPow2 needed.ceil.toNat :=
    le_doubleTo (by decide) (Nat.le_add_left _ _)
  exact rounded.trans (by exact_mod_cast doubled)

end SubscriberStore

/-- The subscribers a sequence of upserts mentions. -/
def mentionedImsis (records : List SubscriberRecord) : Finset UInt64 :=
  upsertedKeys (records.map .upsert)

/-- One more upsert mentions one more subscriber, if it has an IMSI. -/
theorem mem_mentionedImsis {records : List SubscriberRecord} {imsi : UInt64} :
    imsi ∈ mentionedImsis records ↔
      imsi ≠ 0 ∧ ∃ record ∈ records, record.imsi = imsi := by
  rw [mentionedImsis, upsertedKeys, List.mem_toFinset]
  simp only [List.mem_filterMap, List.mem_map]
  constructor
  · rintro ⟨_, ⟨record, member, rfl⟩, key⟩
    dsimp only at key
    split at key
    · cases key
    · next provisioned =>
      cases key
      exact ⟨provisioned, record, member, rfl⟩
  · rintro ⟨provisioned, record, member, rfl⟩
    exact ⟨_, ⟨record, member, rfl⟩, if_neg provisioned⟩

/-- There are fewer subscribers than 64-bit numbers. -/
theorem card_mentionedImsis_lt (records : List SubscriberRecord) :
    (mentionedImsis records).card < 2 ^ 64 := by
  have bounded :
      (mentionedImsis records).card ≤ (Finset.Ico 1 (2 ^ 64)).card := by
    refine Finset.card_le_card_of_injOn UInt64.toNat ?_ ?_
    · intro imsi member
      have provisioned := (mem_mentionedImsis.mp member).1
      have positive : imsi.toNat ≠ 0 :=
        fun zero => provisioned (UInt64.toNat_inj.mp zero)
      exact Finset.mem_coe.mpr (Finset.mem_Ico.mpr
        ⟨Nat.one_le_iff_ne_zero.mpr positive, imsi.toNat_lt⟩)
    · intro first _ second _ same
      exact UInt64.toNat_inj.mp same
  rw [Nat.card_Ico] at bounded
  omega

theorem card_mentionedImsis_append_le (earlier later : List SubscriberRecord) :
    (mentionedImsis earlier).card ≤
      (mentionedImsis (earlier ++ later)).card := by
  apply Finset.card_le_card
  intro imsi member
  obtain ⟨provisioned, record, inEarlier, same⟩ := mem_mentionedImsis.mp member
  exact mem_mentionedImsis.mpr
    ⟨provisioned, record, List.mem_append_left _ inEarlier, same⟩

namespace SubscriberStore

/-- Run a sequence of upserts. -/
def upsertAll (store : SubscriberStore) (records : List SubscriberRecord) :
    Option SubscriberStore :=
  store.run (records.map .upsert)

/-- Replacing a record writes its slot and leaves the others. -/
def ReplacesInPlace (store : SubscriberStore) (record : SubscriberRecord) :
    Prop :=
  ∃ index held,
    store.slots[index]? = some held ∧ held.imsi = record.imsi ∧
      store.upsert record =
        some ({ store with slots := store.slots.set index record }, true)

variable {store : SubscriberStore}

variable (invariant : StoreInvariant store)

include invariant

theorem replacesInPlace_of_fits (fits : ¬ store.Overloaded)
    {record : SubscriberRecord}
    (held : (store.records record.imsi).isSome = true) :
    store.ReplacesInPlace record := by
  obtain ⟨old, isHeld⟩ := Option.isSome_iff_exists.mp held
  obtain ⟨provisioned, member, sameImsi⟩ := Table.holds_of_contents isHeld
  obtain ⟨index, atIndex⟩ := List.mem_iff_getElem?.mp member
  have oldProvisioned : old.imsi ≠ 0 := by
    rw [sameImsi]
    exact provisioned
  refine ⟨index, old, atIndex, sameImsi, ?_⟩
  rw [upsert, upsertWithin_of_fits 1 fits provisioned, place,
    invariant.valid.put_eq_set atIndex sameImsi.symm oldProvisioned]
  rfl

/-- An overloaded store doubles, whatever record comes. -/
theorem upsert_of_overloaded (overloaded : store.Overloaded)
    {record : SubscriberRecord}
    (provisioned : record.imsi ≠ 0) :
    ∃ next,
      store.upsert record = some (next, true) ∧
        next.capacity = store.capacity * 2 := by
  obtain ⟨roomy, growShape, growEffect, fits, doubled⟩ :=
    growWith_spec 0 invariant
  obtain ⟨next, placeShape, _, sameCapacity, _⟩ :=
    place_spec growEffect.invariant fits provisioned
  refine ⟨next, ?_, sameCapacity.trans doubled⟩
  rw [upsert, upsertWithin, if_neg provisioned, if_pos overloaded, growShape]
  simp [placeShape]

/-- A store that is not overloaded keeps its capacity. -/
theorem upsert_of_fits (fits : ¬ store.Overloaded) (record : SubscriberRecord) :
    ∃ next,
      store.apply (.upsert record) = some next ∧
        next.capacity = store.capacity := by
  by_cases isZero : record.imsi = 0
  · refine ⟨store, ?_, rfl⟩
    simp [apply, upsert, upsertWithin, isZero]
  · obtain ⟨next, placeShape, _, sameCapacity, _⟩ :=
      place_spec invariant fits isZero
    refine ⟨next, ?_, sameCapacity⟩
    rw [apply, upsert, upsertWithin_of_fits 1 fits isZero, placeShape]
    rfl

end SubscriberStore

/--
A store for a number of subscribers keeps its table while it is told of at most
that many, and replaces records in place.
-/
def NeverRehashes (expectedSubscribers : Nat) (maxLoadFactor : Rat) : Prop :=
  ∀ records : List SubscriberRecord,
    (mentionedImsis records).card ≤ expectedSubscribers →
      ∃ store,
        (SubscriberStore.create expectedSubscribers
            maxLoadFactor).upsertAll records = some store ∧
          store.capacity =
            (SubscriberStore.create expectedSubscribers
              maxLoadFactor).capacity ∧
          ∀ record : SubscriberRecord,
            record.imsi ∈ mentionedImsis records →
              store.ReplacesInPlace record

/-- The table stays below its load limit with the expected subscribers. -/
def HasSlack (expectedSubscribers : Nat) (maxLoadFactor : Rat) : Prop :=
  expectedSubscribers < 2 ^ 64 →
    ((expectedSubscribers + 1 : Nat) : Rat) ≤
      (SubscriberStore.create expectedSubscribers maxLoadFactor).capacity *
        clampLoadFactor maxLoadFactor

section Sizing

variable {expectedSubscribers : Nat}
variable {maxLoadFactor : Rat}

variable (slack : HasSlack expectedSubscribers maxLoadFactor)

include slack

/-- With slack, no number of expected subscribers overloads the table. -/
theorem HasSlack.fits {records : List SubscriberRecord}
    (few : (mentionedImsis records).card ≤ expectedSubscribers)
    {store : SubscriberStore}
    (size : store.size = (mentionedImsis records).card)
    (factor : store.maxLoadFactor = clampLoadFactor maxLoadFactor)
    (capacity :
      store.capacity =
        (SubscriberStore.create expectedSubscribers maxLoadFactor).capacity) :
    ¬ store.Overloaded := by
  rw [SubscriberStore.Overloaded, not_lt, size, factor, capacity]
  by_cases small : expectedSubscribers < 2 ^ 64
  · refine le_trans ?_ (slack small)
    exact_mod_cast Nat.succ_le_succ few
  · refine le_trans ?_
      (SubscriberStore.expected_le_limit expectedSubscribers maxLoadFactor)
    have bounded := card_mentionedImsis_lt records
    exact_mod_cast le_max_of_le_left (by omega)

theorem HasSlack.keeps_capacity (records : List SubscriberRecord)
    (few : (mentionedImsis records).card ≤ expectedSubscribers)
    {store : SubscriberStore}
    (returned :
      (SubscriberStore.create expectedSubscribers
        maxLoadFactor).upsertAll records = some store) :
    store.capacity =
      (SubscriberStore.create expectedSubscribers
        maxLoadFactor).capacity := by
  induction records using List.reverseRecOn generalizing store with
  | nil =>
    cases returned
    rfl
  | append_singleton earlier record inductionHypothesis =>
    obtain ⟨middle, middleRun, invariant, _, size, factor⟩ :=
      SubscriberStore.run_create expectedSubscribers maxLoadFactor
        (earlier.map .upsert)
    have fewEarlier :=
      (card_mentionedImsis_append_le earlier [record]).trans few
    have sameCapacity := inductionHypothesis fewEarlier middleRun
    have fits := slack.fits fewEarlier size factor sameCapacity
    obtain ⟨next, applied, nextCapacity⟩ :=
      SubscriberStore.upsert_of_fits invariant fits record
    rw [SubscriberStore.upsertAll, SubscriberStore.run, List.map_append,
      List.foldlM_append] at returned
    rw [SubscriberStore.run] at middleRun
    rw [middleRun] at returned
    have last : middle.apply (.upsert record) = some store := by
      simpa using returned
    cases applied.symm.trans last
    exact nextCapacity.trans sameCapacity

theorem HasSlack.neverRehashes :
    NeverRehashes expectedSubscribers maxLoadFactor := by
  intro records few
  obtain ⟨store, returned, invariant, held, size, factor⟩ :=
    SubscriberStore.run_create expectedSubscribers maxLoadFactor
      (records.map .upsert)
  have sameCapacity := slack.keeps_capacity records few returned
  refine ⟨store, returned, sameCapacity, ?_⟩
  intro record mentioned
  apply SubscriberStore.replacesInPlace_of_fits invariant
    (slack.fits few size factor sameCapacity)
  rw [held]
  exact (prescribedRecord_isSome_iff _ _).mpr mentioned

end Sizing

/-- Records of the first so many subscribers. -/
def firstRecords (count : Nat) : List SubscriberRecord :=
  (List.range count).map fun index => { imsi := UInt64.ofNat (index + 1) }

theorem toNat_firstImsi
    {count index : Nat} (small : count < 2 ^ 64) (below : index < count) :
    (UInt64.ofNat (index + 1)).toNat = index + 1 :=
  UInt64.toNat_ofNat_of_lt' (Nat.lt_of_le_of_lt below small)

theorem card_mentionedImsis_firstRecords
    {count : Nat} (small : count < 2 ^ 64) :
    (mentionedImsis (firstRecords count)).card = count := by
  have distinct :
      Set.InjOn (fun index => UInt64.ofNat (index + 1))
        (Finset.range count) := by
    intro first firstMember second secondMember same
    have firstBelow := Finset.mem_range.mp (Finset.mem_coe.mp firstMember)
    have secondBelow := Finset.mem_range.mp (Finset.mem_coe.mp secondMember)
    have sameNat := UInt64.toNat_inj.mpr same
    dsimp only at sameNat
    rw [toNat_firstImsi small firstBelow,
      toNat_firstImsi small secondBelow] at sameNat
    exact Nat.succ.inj sameNat
  have image :
      mentionedImsis (firstRecords count) =
        (Finset.range count).image
          fun index => UInt64.ofNat (index + 1) := by
    ext imsi
    rw [mem_mentionedImsis, Finset.mem_image, firstRecords]
    simp only [List.mem_map, List.mem_range, Finset.mem_range]
    constructor
    · rintro ⟨_, _, ⟨index, below, rfl⟩, same⟩
      exact ⟨index, below, same⟩
    · rintro ⟨index, below, rfl⟩
      refine ⟨?_, _, ⟨index, below, rfl⟩, rfl⟩
      intro zero
      have zeroNat := UInt64.toNat_inj.mpr zero
      rw [toNat_firstImsi small below] at zeroNat
      exact absurd zeroNat (Nat.succ_ne_zero index)
  rw [image, Finset.card_image_of_injOn distinct, Finset.card_range]

/--
A store for a number of subscribers keeps its table and replaces records in
place, as long as it is told of at most that many, exactly when its load limit
leaves room for one more than expected.
-/
theorem never_rehashes_iff_slack
    (expectedSubscribers : Nat)
    (maxLoadFactor : Rat) :
    NeverRehashes expectedSubscribers maxLoadFactor ↔
      HasSlack expectedSubscribers maxLoadFactor := by
  refine ⟨?_, HasSlack.neverRehashes⟩
  intro never small
  by_contra tight
  rw [not_le] at tight
  have limit :=
    SubscriberStore.expected_le_limit expectedSubscribers maxLoadFactor
  have many : 0 < expectedSubscribers := by
    have atLeast : 4 < expectedSubscribers + 1 := by
      exact_mod_cast (Nat.cast_le.mpr (le_max_right _ 4)).trans_lt
        (limit.trans_lt tight)
    omega
  have card := card_mentionedImsis_firstRecords small
  obtain ⟨store, returned, sameCapacity, inPlace⟩ :=
    never (firstRecords expectedSubscribers) card.le
  obtain ⟨same, sameRun, invariant, _, size, factor⟩ :=
    SubscriberStore.run_create expectedSubscribers maxLoadFactor
      ((firstRecords expectedSubscribers).map .upsert)
  cases returned.symm.trans sameRun
  have overloaded : store.Overloaded := by
    have sizeCard : store.size = expectedSubscribers := size.trans card
    rw [SubscriberStore.Overloaded, sameCapacity, factor, sizeCard]
    exact tight
  -- The table is full to its limit, and the first subscriber comes again.
  have mentioned :
      (1 : UInt64) ∈ mentionedImsis (firstRecords expectedSubscribers) :=
    mem_mentionedImsis.mpr ⟨by decide, { imsi := 1 },
      List.mem_map.mpr ⟨0, List.mem_range.mpr many, rfl⟩, rfl⟩
  obtain ⟨index, held, _, _, replaced⟩ :=
    inPlace { imsi := 1 } mentioned
  obtain ⟨next, grown, doubled⟩ :=
    SubscriberStore.upsert_of_overloaded invariant overloaded
      (by decide : ({ imsi := 1 } : SubscriberRecord).imsi ≠ 0)
  cases grown.symm.trans replaced
  have large := invariant.large
  simp only [SubscriberStore.capacity, List.length_set] at doubled large
  omega

/--
A store for four subscribers at a load factor of one half has eight slots and
is at its limit with four.  Replacing one of them doubles it.
-/
theorem replacing_upsert_rehashes :
    (mentionedImsis (firstRecords 4 ++ firstRecords 1)).card ≤ 4 ∧
      ((SubscriberStore.create 4 (1 / 2)).upsertAll (firstRecords 4)).map
          SubscriberStore.capacity = some 8 ∧
      ((SubscriberStore.create 4 (1 / 2)).upsertAll
          (firstRecords 4 ++ firstRecords 1)).map
        SubscriberStore.capacity = some 16 := by
  decide +kernel

end Policyd
