import Mathlib.Algebra.Group.Nat.Defs
import Mathlib.Data.List.Nodup
import Policyd.Rcu

namespace Policyd

/-!
# Reclamation in the RCU domain

A thread that holds snapshot number `n` stored an epoch of at most `n + 2`, and
a grace period that covers the snapshot has a larger target and therefore waits
for the slot.  The argument needs that nobody else stores to the slot and that
the global epoch does not wrap around to the quiescent value.
-/

namespace Rcu

/-- The number of publications that bring the global epoch back to zero. -/
def kEpochWrap : Nat := 2 ^ 64 - 1

/-- The writer has exchanged the pointer but not counted the epoch yet. -/
def WriterPhase.pendingBump : WriterPhase → Nat
  | .exchanged _ _ => 1
  | _ => 0

/-- The number of slots the current grace period has seen pass. -/
def WriterPhase.scanned (maxReaders : Nat) : WriterPhase → Nat
  | .scanning _ _ next => next
  | .quiesced _ | .draining _ => maxReaders
  | .idle _ | .exchanged _ _ | .bumped _ => 0

/-- A read by a thread is a read of its own slot. -/
def Action.AtOwnSlot
    {Reader : Type}
    {maxReaders : Nat}
    (ownSlot : Reader → Fin maxReaders) (action : Action Reader maxReaders) :
    Prop :=
  ∀ reader slot,
    action = .loadEpoch reader slot →
    slot = ownSlot reader

namespace ReaderPhase

variable {maxReaders : Nat}

/-- What the epochs say about a thread in each phase. -/
def Ok
    (globalEpoch : UInt64) (slots : Fin maxReaders → ReaderSlot)
    (deleted : List Nat) :
    ReaderPhase maxReaders → Prop
  | idle => True
  | loaded _ epoch =>
    0 < epoch.toNat ∧ epoch.toNat ≤ globalEpoch.toNat
  | entered slot =>
    0 < (slots slot).epoch.toNat ∧
      (slots slot).epoch.toNat ≤ globalEpoch.toNat
  | holding _ none => True
  | holding slot (some snapshot) =>
    0 < (slots slot).epoch.toNat ∧
      (slots slot).epoch.toNat ≤ snapshot + 2 ∧
      snapshot ∉ deleted

variable {deleted : List Nat} {phase : ReaderPhase maxReaders}

/-- A larger global epoch changes nothing for a thread. -/
theorem Ok.of_epoch_le
    {before after : UInt64} {slots : Fin maxReaders → ReaderSlot}
    (ok : phase.Ok before slots deleted) (grows : before.toNat ≤ after.toNat) :
    phase.Ok after slots deleted := by
  cases phase with
  | idle =>
    trivial
  | loaded slot epoch => exact ⟨ok.1, Nat.le_trans ok.2 grows⟩
  | entered slot => exact ⟨ok.1, Nat.le_trans ok.2 grows⟩
  | holding slot snapshot => cases snapshot <;> exact ok

/-- Stores to slots a thread does not work on change nothing for it. -/
theorem Ok.of_slot_eq
    {globalEpoch : UInt64} {before after : Fin maxReaders → ReaderSlot}
    (ok : phase.Ok globalEpoch before deleted)
    (same :
      ∀ slot,
        phase = .entered slot ∨ (∃ held, phase = .holding slot held) →
        (after slot).epoch = (before slot).epoch) :
    phase.Ok globalEpoch after deleted := by
  cases phase with
  | idle =>
    trivial
  | loaded slot epoch => exact ok
  | entered slot =>
    rw [Ok, same slot (.inl rfl)]
    exact ok
  | holding slot snapshot =>
    cases snapshot with
    | none =>
      trivial
    | some snapshot =>
      rw [Ok, same slot (.inr ⟨some snapshot, rfl⟩)]
      exact ok

/-- Deleting snapshots a thread does not hold changes nothing for it. -/
theorem Ok.of_delete
    {globalEpoch : UInt64} {slots : Fin maxReaders → ReaderSlot}
    {more : List Nat}
    (ok : phase.Ok globalEpoch slots deleted)
    (free :
      ∀ slot snapshot,
        phase = .holding slot (some snapshot) →
        snapshot ∉ more) :
    phase.Ok globalEpoch slots (more ++ deleted) := by
  cases phase with
  | idle =>
    trivial
  | loaded slot epoch => exact ok
  | entered slot => exact ok
  | holding slot snapshot =>
    cases snapshot with
    | none =>
      trivial
    | some snapshot =>
      refine ⟨ok.1, ok.2.1, fun member => ?_⟩
      rcases List.mem_append.mp member with inMore | inDeleted
      · exact free slot snapshot rfl inMore
      · exact ok.2.2 inDeleted

end ReaderPhase

namespace Domain

variable {Reader : Type} {maxReaders : Nat}

/-- A live guard of the thread points to the snapshot. -/
def Holds
    (domain : Domain Reader maxReaders) (reader : Reader)
    (slot : Fin maxReaders) (snapshot : Nat) :
    Prop :=
  domain.readers reader = .holding slot (some snapshot)

/-- No two threads work on one slot. -/
def Exclusive (domain : Domain Reader maxReaders) : Prop :=
  ∀ first second slot,
    (domain.readers first).slot? = some slot →
    (domain.readers second).slot? = some slot →
    first = second

/--
Where the snapshots are: the current one, the one only the writer still knows,
the parked ones and the deleted ones.
-/
def accounts (domain : Domain Reader maxReaders) : List Nat :=
  domain.current.toList ++ domain.writer.old?.toList ++
    domain.parked ++ domain.deleted

/-- The invariant of a domain whose epoch has not wrapped around. -/
structure Sound (domain : Domain Reader maxReaders) : Prop where
  epochPositive : 0 < domain.globalEpoch.toNat
  epochCounts :
    domain.globalEpoch.toNat + domain.writer.pendingBump =
      domain.published + 1
  currentIsLast :
    ∀ snapshot,
      domain.current = some snapshot ↔
        domain.published = snapshot + 1
  heldIsPublished :
    ∀ reader slot snapshot,
      domain.Holds reader slot snapshot →
      snapshot < domain.published
  readersOk :
    ∀ reader,
      (domain.readers reader).Ok
        domain.globalEpoch domain.slots domain.deleted
  targetIsEpoch :
    ∀ old target next,
      domain.writer = .scanning old target next →
      target = domain.globalEpoch
  scannedHoldCurrent :
    ∀ reader slot snapshot,
      domain.Holds reader slot snapshot →
      slot.val < domain.writer.scanned maxReaders →
      domain.current = some snapshot
  accountedOnce :
    ∀ snapshot,
      domain.accounts.count snapshot =
        if snapshot < domain.published then 1 else 0
  bareHasNoOld :
    ∀ old, domain.writer = .exchanged false old → old = none
  reclaimedIsEmpty :
    domain.writer = .idle (some true) → domain.retired = []

namespace Sound

theorem start : (Domain.Sound ({} : Domain Reader maxReaders)) where
  epochPositive := (by decide : 0 < (1 : UInt64).toNat)
  epochCounts := rfl
  currentIsLast := fun _ => ⟨nofun, nofun⟩
  heldIsPublished := nofun
  readersOk := fun _ => trivial
  targetIsEpoch := fun _ _ _ isScanning => nomatch isScanning
  scannedHoldCurrent := fun _ _ _ holds => nomatch holds
  accountedOnce := fun _ => rfl
  bareHasNoOld := fun _ isExchanged => nomatch isExchanged
  reclaimedIsEmpty := fun _ => rfl

variable {domain : Domain Reader maxReaders}

theorem accounts_nodup (sound : domain.Sound) : domain.accounts.Nodup := by
  rw [List.nodup_iff_count_le_one]
  intro snapshot
  rw [sound.accountedOnce]
  split <;> decide

variable {snapshot next : Nat} {slot : Fin maxReaders} {reader : Reader}
  {old : Option Nat} {target : UInt64}

theorem epoch_le
    (sound : domain.Sound) (isCurrent : domain.current = some snapshot) :
    domain.globalEpoch.toNat ≤ snapshot + 2 := by
  have counts := sound.epochCounts
  have last := (sound.currentIsLast snapshot).mp isCurrent
  omega

theorem not_mem_of_current
    (sound : domain.Sound) (isCurrent : domain.current = some snapshot) :
    snapshot ∉ domain.writer.old?.toList ∧
      snapshot ∉ domain.parked ∧
      snapshot ∉ domain.deleted := by
  have nodup := sound.accounts_nodup
  rw [accounts, isCurrent, List.append_assoc, List.append_assoc,
    Option.toList_some, List.singleton_append, List.nodup_cons] at nodup
  simpa only [List.mem_append, not_or] using nodup.1

/-- A store to a slot that no thread has entered. -/
theorem setEpoch (sound : domain.Sound) (epoch : UInt64)
    (free :
      ∀ reader,
        (domain.readers reader).slot? = some slot →
        ∃ epoch, domain.readers reader = .loaded slot epoch) :
    (domain.setEpoch slot epoch).Sound where
  __ := sound
  readersOk := by
    intro reader
    refine (sound.readersOk reader).of_slot_eq fun other works => ?_
    rw [setEpoch_epoch, if_neg]
    rintro rfl
    have onSlot : (domain.readers reader).slot? = some other := by
      rcases works with entered | ⟨held, holding⟩
      · rw [entered, ReaderPhase.slot?]
      · rw [holding, ReaderPhase.slot?]
    rcases free reader onSlot with ⟨stored, loaded⟩
    rw [loaded] at works
    rcases works with entered | ⟨held, holding⟩
    · cases entered
    · cases holding

/-- Claiming or giving back a slot. -/
theorem setInUse (sound : domain.Sound) (slot : Fin maxReaders) (inUse : Bool) :
    (domain.setInUse slot inUse).Sound where
  __ := sound
  readersOk := fun reader =>
    (sound.readersOk reader).of_slot_eq fun other _ =>
      domain.setInUse_epoch slot other inUse

variable [DecidableEq Reader]

section

variable (sound : domain.Sound)

include sound

/-- A thread moves to a phase in which it holds at most what is current. -/
theorem setReader (reader : Reader) {phase : ReaderPhase maxReaders}
    (ok : phase.Ok domain.globalEpoch domain.slots domain.deleted)
    (current :
      ∀ slot snapshot,
        phase = .holding slot (some snapshot) →
        domain.current = some snapshot) :
    (domain.setReader reader phase).Sound where
  __ := sound
  heldIsPublished := by
    intro other slot snapshot holds
    rw [Holds, setReader_readers] at holds
    by_cases same : other = reader
    · rw [if_pos same] at holds
      have last :=
        (sound.currentIsLast snapshot).mp (current slot snapshot holds)
      exact Nat.lt_of_succ_le (Nat.le_of_eq last.symm)
    · rw [if_neg same] at holds
      exact sound.heldIsPublished other slot snapshot holds
  readersOk := by
    intro other
    rw [setReader_readers]
    by_cases same : other = reader
    · rw [if_pos same]
      exact ok
    · rw [if_neg same]
      exact sound.readersOk other
  scannedHoldCurrent := by
    intro other slot snapshot holds scanned
    rw [Holds, setReader_readers] at holds
    by_cases same : other = reader
    · rw [if_pos same] at holds
      exact current slot snapshot holds
    · rw [if_neg same] at holds
      exact sound.scannedHoldCurrent other slot snapshot holds scanned

theorem loadEpoch (reader : Reader) (slot : Fin maxReaders) :
    (domain.setReader reader (.loaded slot domain.globalEpoch)).Sound := by
  apply sound.setReader
  · exact ⟨sound.epochPositive, Nat.le_refl _⟩
  · exact fun _ _ isHolding => nomatch isHolding

/-- `read` has stored the epoch in the slot. -/
theorem storeEpoch (exclusive : domain.Exclusive) {epoch : UInt64}
    (phase : domain.readers reader = .loaded slot epoch) :
    ((domain.setEpoch slot epoch).setReader reader (.entered slot)).Sound := by
  have stored : (domain.setEpoch slot epoch).Sound := by
    apply sound.setEpoch
    intro other onSlot
    have onOwn : (domain.readers reader).slot? = some slot := by
      rw [phase, ReaderPhase.slot?]
    rcases exclusive other reader slot onSlot onOwn with rfl
    exact ⟨epoch, phase⟩
  have loaded := sound.readersOk reader
  rw [phase] at loaded
  apply stored.setReader
  · rw [ReaderPhase.Ok, setEpoch_epoch, if_pos rfl]
    exact loaded
  · exact fun _ _ isHolding => nomatch isHolding

/-- `read` has loaded the pointer: the guard is live. -/
theorem loadCurrent (phase : domain.readers reader = .entered slot) :
    (domain.setReader reader (.holding slot domain.current)).Sound := by
  have entered := sound.readersOk reader
  rw [phase] at entered
  apply sound.setReader
  · cases isCurrent : domain.current with
    | none =>
      trivial
    | some snapshot =>
      exact ⟨entered.1, Nat.le_trans entered.2 (sound.epoch_le isCurrent),
        (sound.not_mem_of_current isCurrent).2.2⟩
  · intro other snapshot isHolding
    exact (ReaderPhase.holding.inj isHolding).2

/-- The guard has gone out of scope. -/
theorem release (exclusive : domain.Exclusive) {held : Option Nat}
    (phase : domain.readers reader = .holding slot held) :
    ((domain.setEpoch slot kQuiescent).setReader reader .idle).Sound := by
  have left : (domain.setReader reader .idle).Sound := by
    apply sound.setReader
    · trivial
    · exact fun _ _ isHolding => nomatch isHolding
  apply left.setEpoch
  intro other onSlot
  rw [setReader_readers] at onSlot
  by_cases same : other = reader
  · rw [if_pos same] at onSlot
    cases onSlot
  · rw [if_neg same] at onSlot
    have onOwn : (domain.readers reader).slot? = some slot := by
      rw [phase, ReaderPhase.slot?]
    exact absurd (exclusive other reader slot onSlot onOwn) same

end

omit [DecidableEq Reader]

section

variable (sound : domain.Sound)

include sound

/-- `publish` has exchanged the pointer. -/
theorem exchange {reclaimed : Option Bool}
    (phase : domain.writer = .idle reclaimed) (reclaim : Bool)
    (allowed : (reclaim || domain.current.isNone) = true) :
    Sound
      { domain with
        current := some domain.published
        published := domain.published + 1
        writer := .exchanged reclaim domain.current } where
  epochPositive := sound.epochPositive
  epochCounts := by
    have counts := sound.epochCounts
    rw [phase] at counts
    exact congrArg (· + 1) counts
  currentIsLast := fun snapshot => by simp
  heldIsPublished := fun reader slot snapshot holds =>
    Nat.lt_succ_of_lt (sound.heldIsPublished reader slot snapshot holds)
  readersOk := sound.readersOk
  targetIsEpoch := fun _ _ _ isScanning => nomatch isScanning
  scannedHoldCurrent := fun _ _ _ _ scanned => nomatch scanned
  accountedOnce := by
    intro snapshot
    have once := sound.accountedOnce snapshot
    simp only [accounts, parked, phase, WriterPhase.old?, Option.toList_none,
      Option.toList_some, List.count_append, List.count_nil,
      List.count_singleton] at once ⊢
    by_cases fresh : domain.published = snapshot
    · simp [fresh] at once ⊢
      omega
    · simp [fresh] at once ⊢
      split at once <;> split <;> omega
  bareHasNoOld := by
    intro old isExchanged
    rcases WriterPhase.exchanged.inj isExchanged with ⟨rfl, rfl⟩
    exact Option.isNone_iff_eq_none.mp allowed
  reclaimedIsEmpty := fun isIdle => nomatch isIdle

/--
The writer goes on inside `synchronize` or `swap_and_reclaim`.  It may delete
snapshots that no live guard points to.
-/
theorem ofWriter (counted : domain.writer.pendingBump = 0)
    {writer : WriterPhase} {retired : List Nat}
    (more : List Nat) (stillCounted : writer.pendingBump = 0)
    (target :
      ∀ old target next,
        writer = .scanning old target next →
        target = domain.globalEpoch)
    (scanned :
      ∀ reader slot snapshot,
        domain.Holds reader slot snapshot →
        slot.val < writer.scanned maxReaders →
        domain.current = some snapshot)
    (free :
      ∀ reader slot snapshot,
        domain.Holds reader slot snapshot →
        snapshot ∉ more)
    (accounted :
      ∀ snapshot,
        (accounts
            { domain with
              writer := writer
              retired := retired
              deleted := more ++ domain.deleted }).count snapshot =
          domain.accounts.count snapshot)
    (reclaimed : writer = .idle (some true) → retired = []) :
    Sound
      { domain with
        writer := writer
        retired := retired
        deleted := more ++ domain.deleted } where
  epochPositive := sound.epochPositive
  epochCounts := by
    rw [← sound.epochCounts, counted, stillCounted]
  currentIsLast := sound.currentIsLast
  heldIsPublished := sound.heldIsPublished
  readersOk := fun reader =>
    (sound.readersOk reader).of_delete (free reader)
  targetIsEpoch := target
  scannedHoldCurrent := scanned
  accountedOnce := fun snapshot =>
    (accounted snapshot).trans (sound.accountedOnce snapshot)
  bareHasNoOld := by
    intro old isExchanged
    have isExchanged : writer = .exchanged false old := isExchanged
    rw [isExchanged] at stillCounted
    cases stillCounted
  reclaimedIsEmpty := reclaimed

/-- `publish` has counted the epoch, which does not wrap around. -/
theorem countEpoch {reclaim : Bool}
    (phase : domain.writer = .exchanged reclaim old)
    (few : domain.published < kEpochWrap) :
    Sound
      { domain with
        globalEpoch := domain.globalEpoch + 1
        writer := .bumped old } := by
  have counts := sound.epochCounts
  rw [phase, WriterPhase.pendingBump] at counts
  have bumped :
      (domain.globalEpoch + 1).toNat = domain.globalEpoch.toNat + 1 := by
    rw [kEpochWrap] at few
    rw [UInt64.toNat_add]
    exact Nat.mod_eq_of_lt (by change _ + 1 < _; omega)
  exact
    { epochPositive := by rw [bumped]; exact Nat.succ_pos _
      epochCounts := bumped.trans counts
      currentIsLast := sound.currentIsLast
      heldIsPublished := sound.heldIsPublished
      readersOk := fun reader =>
        (sound.readersOk reader).of_epoch_le
          (by rw [bumped]; exact Nat.le_succ _)
      targetIsEpoch := fun _ _ _ isScanning => nomatch isScanning
      scannedHoldCurrent := fun _ _ _ _ scanned => nomatch scanned
      accountedOnce := by
        have accounted := sound.accountedOnce
        simp only [accounts, parked, phase, WriterPhase.old?] at accounted
        exact accounted
      bareHasNoOld := fun _ isExchanged => nomatch isExchanged
      reclaimedIsEmpty := fun isIdle => nomatch isIdle }

/-- `publish` returns, to `swap_and_reclaim` or to its own caller. -/
theorem bumpEpoch {reclaim : Bool}
    (phase : domain.writer = .exchanged reclaim old)
    (few : domain.published < kEpochWrap) :
    Sound
      { domain with
        globalEpoch := domain.globalEpoch + 1
        writer := if reclaim then .bumped old else .idle none } := by
  have counted := sound.countEpoch phase few
  cases reclaim with
  | true => exact counted
  | false =>
    rcases sound.bareHasNoOld old phase with rfl
    apply counted.ofWriter rfl [] rfl
    · exact fun _ _ _ isScanning => nomatch isScanning
    · exact fun _ _ _ _ scanned => nomatch scanned
    · exact fun _ _ _ _ => List.not_mem_nil
    · exact fun _ => rfl
    · exact fun isReclaimed => nomatch isReclaimed

theorem loadTarget (phase : domain.writer = .bumped old) :
    Sound { domain with writer := .scanning old domain.globalEpoch 0 } := by
  apply sound.ofWriter (by rw [phase]; rfl) [] rfl
  · rintro _ target _ ⟨⟩
    rfl
  · exact fun _ _ _ _ scanned => nomatch scanned
  · exact fun _ _ _ _ => List.not_mem_nil
  · intro snapshot
    simp only [accounts, parked, phase, WriterPhase.old?]
    rfl
  · exact fun isReclaimed => nomatch isReclaimed

section

variable (phase : domain.writer = .scanning old target next)

include phase

/--
A slot that passes has no thread with an older snapshot.  Its epoch is not zero
while a thread holds a snapshot, so it is at least the target.
-/
theorem current_of_passes (passes : domain.passes target slot = true)
    (holds : domain.Holds reader slot snapshot) :
    domain.current = some snapshot := by
  have held := sound.readersOk reader
  rw [holds] at held
  rcases held with ⟨positive, bounded, notDeleted⟩
  have published := sound.heldIsPublished reader slot snapshot holds
  have counts : target.toNat = domain.published + 1 := by
    rw [sound.targetIsEpoch old target next phase, ← sound.epochCounts, phase]
    rfl
  rw [Domain.passes, Bool.or_eq_true, beq_iff_eq, decide_eq_true_iff] at passes
  rcases passes with quiescent | reached
  · rw [quiescent] at positive
    cases positive
  · have reached := UInt64.le_iff_toNat_le.mp reached
    apply (sound.currentIsLast snapshot).mpr
    omega

/-- `synchronize` has seen a slot pass. -/
theorem scanSlot (inside : next < maxReaders)
    (passes : domain.passes target ⟨next, inside⟩ = true) :
    Sound { domain with writer := .scanning old target (next + 1) } := by
  apply sound.ofWriter (by rw [phase]; rfl) [] rfl
  · rintro _ _ _ ⟨⟩
    exact sound.targetIsEpoch old target next phase
  · intro reader slot snapshot holds scanned
    by_cases isNext : slot = ⟨next, inside⟩
    · subst isNext
      exact sound.current_of_passes phase passes holds
    · apply sound.scannedHoldCurrent reader slot snapshot holds
      rw [phase]
      have notNext : slot.val ≠ next := fun same => isNext (Fin.ext same)
      exact Nat.lt_of_le_of_ne (Nat.le_of_lt_succ scanned) notNext
  · exact fun _ _ _ _ => List.not_mem_nil
  · intro snapshot
    simp only [accounts, parked, phase, WriterPhase.old?]
    rfl
  · exact fun isReclaimed => nomatch isReclaimed

/-- `synchronize` has seen every slot pass. -/
theorem scanEnd (outside : ¬ next < maxReaders) :
    Sound { domain with writer := .quiesced old } := by
  apply sound.ofWriter (by rw [phase]; rfl) [] rfl
  · exact fun _ _ _ isScanning => nomatch isScanning
  · intro reader slot snapshot holds _
    apply sound.scannedHoldCurrent reader slot snapshot holds
    rw [phase]
    exact Nat.lt_of_lt_of_le slot.isLt (Nat.le_of_not_lt outside)
  · exact fun _ _ _ _ => List.not_mem_nil
  · intro snapshot
    simp only [accounts, parked, phase, WriterPhase.old?]
    rfl
  · exact fun isReclaimed => nomatch isReclaimed

/-- `synchronize` has timed out and the old snapshot is parked. -/
theorem timeout :
    Sound
      { domain with
        retired := domain.retired ++ old.toList
        writer := .idle (some false) } := by
  apply sound.ofWriter (by rw [phase]; rfl) [] rfl
  · exact fun _ _ _ isScanning => nomatch isScanning
  · exact fun _ _ _ _ scanned => nomatch scanned
  · exact fun _ _ _ _ => List.not_mem_nil
  · intro snapshot
    simp only [accounts, parked, phase, WriterPhase.old?, List.count_append,
      Option.toList_none, List.count_nil, List.nil_append]
    omega
  · exact fun isReclaimed => nomatch isReclaimed

end

theorem current_of_scanned
    (scanned : domain.writer.scanned maxReaders = maxReaders)
    (holds : domain.Holds reader slot snapshot) :
    domain.current = some snapshot :=
  sound.scannedHoldCurrent reader slot snapshot holds
    (by rw [scanned]; exact slot.isLt)

theorem deleteOld (phase : domain.writer = .quiesced old) :
    Sound
      { domain with
        deleted := old.toList ++ domain.deleted
        writer := .draining domain.retired } := by
  have current :
      ∀ reader slot snapshot,
        domain.Holds reader slot snapshot →
        domain.current = some snapshot := fun _ _ _ holds =>
    sound.current_of_scanned (by rw [phase]; rfl) holds
  apply sound.ofWriter (by rw [phase]; rfl) old.toList rfl
  · exact fun _ _ _ isScanning => nomatch isScanning
  · exact fun reader slot snapshot holds _ =>
      current reader slot snapshot holds
  · intro reader slot snapshot holds
    have elsewhere :=
      sound.not_mem_of_current (current reader slot snapshot holds)
    rw [phase] at elsewhere
    exact elsewhere.1
  · intro snapshot
    simp only [accounts, parked, phase, WriterPhase.old?, List.count_append,
      Option.toList_none, List.count_nil]
    omega
  · exact fun isReclaimed => nomatch isReclaimed

theorem deleteParked {parked : Nat} {rest : List Nat}
    (phase : domain.writer = .draining (parked :: rest)) :
    Sound
      { domain with
        deleted := parked :: domain.deleted
        writer := .draining rest } := by
  have current :
      ∀ reader slot snapshot,
        domain.Holds reader slot snapshot →
        domain.current = some snapshot := fun _ _ _ holds =>
    sound.current_of_scanned (by rw [phase]; rfl) holds
  apply sound.ofWriter (by rw [phase]; rfl) [parked] rfl
  · exact fun _ _ _ isScanning => nomatch isScanning
  · exact fun reader slot snapshot holds _ =>
      current reader slot snapshot holds
  · intro reader slot snapshot holds isParked
    have elsewhere :=
      sound.not_mem_of_current (current reader slot snapshot holds)
    simp only [Domain.parked, phase, List.mem_cons, not_or] at elsewhere
    exact elsewhere.2.1.1 (List.mem_singleton.mp isParked)
  · intro snapshot
    simp only [accounts, Domain.parked, phase, WriterPhase.old?,
      List.count_append, Option.toList_none, List.count_nil,
      List.count_cons]
    omega
  · exact fun isReclaimed => nomatch isReclaimed

/-- `swap_and_reclaim` has cleared the parked snapshots and returns true. -/
theorem finish (phase : domain.writer = .draining []) :
    Sound { domain with retired := [], writer := .idle (some true) } := by
  apply sound.ofWriter (by rw [phase]; rfl) [] rfl
  · exact fun _ _ _ isScanning => nomatch isScanning
  · exact fun _ _ _ _ scanned => nomatch scanned
  · exact fun _ _ _ _ => List.not_mem_nil
  · intro snapshot
    simp only [accounts, parked, phase, WriterPhase.old?]
    rfl
  · exact fun _ => rfl

theorem held_not_deleted (holds : domain.Holds reader slot snapshot) :
    snapshot ∉ domain.deleted := by
  have held := sound.readersOk reader
  rw [holds] at held
  exact held.2.2

end

variable [DecidableEq Reader]

/-- Every action keeps the invariant. -/
theorem step
    {next : Domain Reader maxReaders} {action : Action Reader maxReaders}
    (sound : domain.Sound) (exclusive : domain.Exclusive)
    (few : domain.published < kEpochWrap)
    (stepped : domain.step action = some next) :
    next.Sound := by
  cases moves_of_step stepped with
  | loadEpoch slot phase => exact sound.loadEpoch _ slot
  | storeEpoch phase => exact sound.storeEpoch exclusive phase
  | loadCurrent phase => exact sound.loadCurrent phase
  | release phase => exact sound.release exclusive phase
  | exchange reclaim phase allowed =>
    exact sound.exchange phase reclaim allowed
  | bumpEpoch phase => exact sound.bumpEpoch phase few
  | loadTarget phase => exact sound.loadTarget phase
  | scanSlot phase inside passes =>
    exact sound.scanSlot phase inside passes
  | scanWait phase => exact sound
  | scanEnd phase outside => exact sound.scanEnd phase outside
  | timeout phase => exact sound.timeout phase
  | deleteOld phase => exact sound.deleteOld phase
  | deleteParked phase => exact sound.deleteParked phase
  | finish phase => exact sound.finish phase

end Sound

variable [DecidableEq Reader]

/-- The actions of all threads on a new domain, in some order. -/
def run (actions : List (Action Reader maxReaders)) :
    Option (Domain Reader maxReaders) :=
  runActions step {} actions

/-- Every thread works on the slot it owns. -/
def AtOwnSlots
    (domain : Domain Reader maxReaders) (ownSlot : Reader → Fin maxReaders) :
    Prop :=
  ∀ reader slot,
    (domain.readers reader).slot? = some slot →
    slot = ownSlot reader

variable {domain : Domain Reader maxReaders}
  {ownSlot : Reader → Fin maxReaders}

omit [DecidableEq Reader] in
theorem AtOwnSlots.exclusive (atOwn : domain.AtOwnSlots ownSlot)
    (distinct : Function.Injective ownSlot) :
    domain.Exclusive := by
  intro first second slot firstWorks secondWorks
  apply distinct
  rw [← atOwn first slot firstWorks, ← atOwn second slot secondWorks]

theorem AtOwnSlots.step
    {next : Domain Reader maxReaders} {action : Action Reader maxReaders}
    (atOwn : domain.AtOwnSlots ownSlot) (owned : action.AtOwnSlot ownSlot)
    (stepped : domain.step action = some next) :
    next.AtOwnSlots ownSlot := by
  intro reader slot works
  rcases (moves_of_step stepped).slot_cases works with before | loads
  · exact atOwn reader slot before
  · exact owned reader slot loads

/-- The invariant holds along runs in which the epoch does not wrap around. -/
theorem sound_of_run (distinct : Function.Injective ownSlot)
    {actions : List (Action Reader maxReaders)}
    (owned : ∀ action ∈ actions, action.AtOwnSlot ownSlot)
    (ran : run actions = some domain) (few : domain.published < kEpochWrap) :
    domain.Sound := by
  have start :
      AtOwnSlots ({} : Domain Reader maxReaders) ownSlot ∧
        (0 < kEpochWrap → Sound ({} : Domain Reader maxReaders)) :=
    ⟨nofun, fun _ => .start⟩
  have invariant :
      domain.AtOwnSlots ownSlot ∧
        (domain.published < kEpochWrap → domain.Sound) := by
    refine invariant_of_run
      (fun state =>
        state.AtOwnSlots ownSlot ∧ (state.published < kEpochWrap → state.Sound))
      ?_ owned start ran
    intro state next action ownedAction holds stepped
    refine ⟨holds.1.step ownedAction stepped, fun fewNext => ?_⟩
    have fewState : state.published < kEpochWrap :=
      Nat.lt_of_le_of_lt (moves_of_step stepped).published_le fewNext
    exact (holds.2 fewState).step (holds.1.exclusive distinct) fewState stepped
  exact invariant.2 few

/-- One `swap_and_reclaim` on a domain with one slot, without waiting. -/
def swap : List (Action Unit 1) :=
  [.exchange true, .bumpEpoch, .loadTarget, .scan, .scan, .deleteOld, .finish]

/-- The domain with snapshot `last` current and all earlier ones deleted. -/
def settled (last : Nat) (epoch : UInt64) : Domain Unit 1 :=
  { current := some last
    globalEpoch := epoch
    writer := .idle (some true)
    published := last + 1
    deleted := (List.range last).reverse }

end Domain

end Rcu

end Policyd
