import Mathlib.Logic.Function.Basic
import Mathlib.Data.List.Basic
import Policyd.ActionRun

namespace Policyd

/-!
# The RCU domain

Readers and one writer at a time share a domain.  Every load and store of a
shared variable is one action.  Snapshots are numbered in the order in which
they are published; no pointer is `none`.  `published` and `deleted` are the
history of a run.
-/

namespace Rcu

/-- The epoch of a slot without a reader. -/
def kQuiescent : UInt64 := 0

/-- One slot per reader thread. -/
structure ReaderSlot where
  epoch : UInt64 := kQuiescent
  inUse : Bool := false
  deriving Repr, DecidableEq

/-- What a thread has done of `read` and of the life of its guard. -/
inductive ReaderPhase (maxReaders : Nat) where
  | idle
  | loaded (slot : Fin maxReaders) (epoch : UInt64)
  | entered (slot : Fin maxReaders)
  | holding (slot : Fin maxReaders) (snapshot : Option Nat)
  deriving Repr, DecidableEq

/-- The slot a thread works on. -/
def ReaderPhase.slot? {maxReaders : Nat} :
    ReaderPhase maxReaders → Option (Fin maxReaders)
  | .idle => none
  | .loaded slot _ | .entered slot | .holding slot _ => some slot

/--
What the writer has done of `publish`, `synchronize` and `swap_and_reclaim`.

`idle` remembers what the last `swap_and_reclaim` returned.  `exchanged` tells
whether the exchange belongs to `swap_and_reclaim` or to a bare `publish`.
`draining` holds the parked snapshots that are still to be deleted.
-/
inductive WriterPhase where
  | idle (reclaimed : Option Bool)
  | exchanged (reclaim : Bool) (old : Option Nat)
  | bumped (old : Option Nat)
  | scanning (old : Option Nat) (target : UInt64) (next : Nat)
  | quiesced (old : Option Nat)
  | draining (rest : List Nat)
  deriving Repr, DecidableEq

/-- The pointer that only the writer still knows. -/
def WriterPhase.old? : WriterPhase → Option Nat
  | .exchanged _ old | .bumped old | .scanning old _ _ | .quiesced old => old
  | .idle _ | .draining _ => none

/-- One atomic action of a reader or of the writer. -/
inductive Action (Reader : Type) (maxReaders : Nat) where
  | loadEpoch (reader : Reader) (slot : Fin maxReaders)
  | storeEpoch (reader : Reader)
  | loadCurrent (reader : Reader)
  | release (reader : Reader)
  | exchange (reclaim : Bool)
  | bumpEpoch
  | loadTarget
  | scan
  | timeout
  | deleteOld
  | deleteParked
  | finish
  deriving Repr, DecidableEq

/-- The shared state of a domain and what each party has done. -/
structure Domain (Reader : Type) (maxReaders : Nat) where
  current : Option Nat := none
  globalEpoch : UInt64 := 1
  slots : Fin maxReaders → ReaderSlot := fun _ => {}
  retired : List Nat := []
  readers : Reader → ReaderPhase maxReaders := fun _ => .idle
  writer : WriterPhase := .idle none
  published : Nat := 0
  deleted : List Nat := []

namespace Domain

variable {Reader : Type} {maxReaders : Nat}

/-- Store an epoch in a slot. -/
def setEpoch
    (domain : Domain Reader maxReaders) (slot : Fin maxReaders)
    (epoch : UInt64) :
    Domain Reader maxReaders :=
  { domain with
    slots :=
      Function.update domain.slots slot
        { domain.slots slot with epoch := epoch } }

/-- Set whether a slot is in use. -/
def setInUse
    (domain : Domain Reader maxReaders) (slot : Fin maxReaders)
    (inUse : Bool) :
    Domain Reader maxReaders :=
  { domain with
    slots :=
      Function.update domain.slots slot
        { domain.slots slot with inUse := inUse } }

/-- The slot lets `synchronize` go on: quiescent, or entered at the target. -/
def passes
    (domain : Domain Reader maxReaders) (target : UInt64)
    (slot : Fin maxReaders) :
    Bool :=
  (domain.slots slot).epoch == kQuiescent ||
    decide (target ≤ (domain.slots slot).epoch)

/-- The snapshots that wait in `retired_` for a later grace period. -/
def parked (domain : Domain Reader maxReaders) : List Nat :=
  match domain.writer with
  | .draining rest => rest
  | _ => domain.retired

section

variable (domain : Domain Reader maxReaders) (slot other : Fin maxReaders)

theorem setEpoch_epoch (epoch : UInt64) :
    ((domain.setEpoch slot epoch).slots other).epoch =
      if other = slot then epoch else (domain.slots other).epoch := by
  by_cases same : other = slot
  · subst same
    simp [setEpoch]
  · simp [setEpoch, same]

@[simp]
theorem setInUse_epoch (inUse : Bool) :
    ((domain.setInUse slot inUse).slots other).epoch =
      (domain.slots other).epoch := by
  by_cases same : other = slot
  · subst same
    simp [setInUse]
  · simp [setInUse, same]

@[simp]
theorem setEpoch_inUse (epoch : UInt64) :
    ((domain.setEpoch slot epoch).slots other).inUse =
      (domain.slots other).inUse := by
  by_cases same : other = slot
  · subst same
    simp [setEpoch]
  · simp [setEpoch, same]

theorem setInUse_inUse (inUse : Bool) :
    ((domain.setInUse slot inUse).slots other).inUse =
      if other = slot then inUse else (domain.slots other).inUse := by
  by_cases same : other = slot
  · subst same
    simp [setInUse]
  · simp [setInUse, same]

end

variable [DecidableEq Reader]

/-- Let a thread be in another phase. -/
def setReader
    (domain : Domain Reader maxReaders) (reader : Reader)
    (phase : ReaderPhase maxReaders) :
    Domain Reader maxReaders :=
  { domain with readers := Function.update domain.readers reader phase }

theorem setReader_readers
    (domain : Domain Reader maxReaders) (reader other : Reader)
    (phase : ReaderPhase maxReaders) :
    (domain.setReader reader phase).readers other =
      if other = reader then phase else domain.readers other := by
  simp only [setReader, Function.update_apply]

/--
One action, if it is enabled.  A bare `publish` hands the old pointer to its
caller; the server calls it once, on the empty domain, where there is none.
-/
def step (domain : Domain Reader maxReaders) :
    Action Reader maxReaders → Option (Domain Reader maxReaders)
  | .loadEpoch reader slot =>
    match domain.readers reader with
    | .idle =>
      some (domain.setReader reader (.loaded slot domain.globalEpoch))
    | _ => none
  | .storeEpoch reader =>
    match domain.readers reader with
    | .loaded slot epoch =>
      some ((domain.setEpoch slot epoch).setReader reader (.entered slot))
    | _ => none
  | .loadCurrent reader =>
    match domain.readers reader with
    | .entered slot =>
      some (domain.setReader reader (.holding slot domain.current))
    | _ => none
  | .release reader =>
    match domain.readers reader with
    | .holding slot _ =>
      some ((domain.setEpoch slot kQuiescent).setReader reader .idle)
    | _ => none
  | .exchange reclaim =>
    match domain.writer with
    | .idle _ =>
      if reclaim || domain.current.isNone then
        some
          { domain with
            current := some domain.published
            published := domain.published + 1
            writer := .exchanged reclaim domain.current }
      else
        none
    | _ => none
  | .bumpEpoch =>
    match domain.writer with
    | .exchanged reclaim old =>
      some
        { domain with
          globalEpoch := domain.globalEpoch + 1
          writer := if reclaim then .bumped old else .idle none }
    | _ => none
  | .loadTarget =>
    match domain.writer with
    | .bumped old =>
      some { domain with writer := .scanning old domain.globalEpoch 0 }
    | _ => none
  | .scan =>
    match domain.writer with
    | .scanning old target next =>
      if inside : next < maxReaders then
        if domain.passes target ⟨next, inside⟩ then
          some { domain with writer := .scanning old target (next + 1) }
        else
          some domain
      else
        some { domain with writer := .quiesced old }
    | _ => none
  | .timeout =>
    match domain.writer with
    | .scanning old _ _ =>
      some
        { domain with
          retired := domain.retired ++ old.toList
          writer := .idle (some false) }
    | _ => none
  | .deleteOld =>
    match domain.writer with
    | .quiesced old =>
      some
        { domain with
          deleted := old.toList ++ domain.deleted
          writer := .draining domain.retired }
    | _ => none
  | .deleteParked =>
    match domain.writer with
    | .draining (snapshot :: rest) =>
      some
        { domain with
          deleted := snapshot :: domain.deleted
          writer := .draining rest }
    | _ => none
  | .finish =>
    match domain.writer with
    | .draining [] =>
      some
        { domain with
          retired := []
          writer := .idle (some true) }
    | _ => none

/-- What each action can do, with the phase it starts from. -/
inductive Moves (domain : Domain Reader maxReaders) :
    Action Reader maxReaders → Domain Reader maxReaders → Prop
  | loadEpoch {reader} (slot)
      (phase : domain.readers reader = .idle) :
      Moves domain (.loadEpoch reader slot)
        (domain.setReader reader (.loaded slot domain.globalEpoch))
  | storeEpoch {reader slot epoch}
      (phase : domain.readers reader = .loaded slot epoch) :
      Moves domain (.storeEpoch reader)
        ((domain.setEpoch slot epoch).setReader reader (.entered slot))
  | loadCurrent {reader slot}
      (phase : domain.readers reader = .entered slot) :
      Moves domain (.loadCurrent reader)
        (domain.setReader reader (.holding slot domain.current))
  | release {reader slot held}
      (phase : domain.readers reader = .holding slot held) :
      Moves domain (.release reader)
        ((domain.setEpoch slot kQuiescent).setReader reader .idle)
  | exchange {reclaimed} (reclaim)
      (phase : domain.writer = .idle reclaimed)
      (allowed : (reclaim || domain.current.isNone) = true) :
      Moves domain (.exchange reclaim)
        { domain with
          current := some domain.published
          published := domain.published + 1
          writer := .exchanged reclaim domain.current }
  | bumpEpoch {reclaim old}
      (phase : domain.writer = .exchanged reclaim old) :
      Moves domain .bumpEpoch
        { domain with
          globalEpoch := domain.globalEpoch + 1
          writer := if reclaim then .bumped old else .idle none }
  | loadTarget {old}
      (phase : domain.writer = .bumped old) :
      Moves domain .loadTarget
        { domain with writer := .scanning old domain.globalEpoch 0 }
  | scanSlot {old target next}
      (phase : domain.writer = .scanning old target next)
      (inside : next < maxReaders)
      (passes : domain.passes target ⟨next, inside⟩ = true) :
      Moves domain .scan
        { domain with writer := .scanning old target (next + 1) }
  | scanWait {old target next}
      (phase : domain.writer = .scanning old target next) :
      Moves domain .scan domain
  | scanEnd {old target next}
      (phase : domain.writer = .scanning old target next)
      (outside : ¬ next < maxReaders) :
      Moves domain .scan { domain with writer := .quiesced old }
  | timeout {old target next}
      (phase : domain.writer = .scanning old target next) :
      Moves domain .timeout
        { domain with
          retired := domain.retired ++ old.toList
          writer := .idle (some false) }
  | deleteOld {old}
      (phase : domain.writer = .quiesced old) :
      Moves domain .deleteOld
        { domain with
          deleted := old.toList ++ domain.deleted
          writer := .draining domain.retired }
  | deleteParked {snapshot rest}
      (phase : domain.writer = .draining (snapshot :: rest)) :
      Moves domain .deleteParked
        { domain with
          deleted := snapshot :: domain.deleted
          writer := .draining rest }
  | finish
      (phase : domain.writer = .draining []) :
      Moves domain .finish
        { domain with
          retired := []
          writer := .idle (some true) }

variable {domain next : Domain Reader maxReaders}
  {action : Action Reader maxReaders}

/-- Every action does one of these. -/
theorem moves_of_step (stepped : domain.step action = some next) :
    domain.Moves action next := by
  cases action with
  | loadEpoch reader slot =>
    rw [step] at stepped
    split at stepped
    next phase =>
      rcases Option.some.inj stepped with rfl
      exact .loadEpoch slot phase
    next =>
      cases stepped
  | storeEpoch reader =>
    rw [step] at stepped
    split at stepped
    next slot epoch phase =>
      rcases Option.some.inj stepped with rfl
      exact .storeEpoch phase
    next =>
      cases stepped
  | loadCurrent reader =>
    rw [step] at stepped
    split at stepped
    next slot phase =>
      rcases Option.some.inj stepped with rfl
      exact .loadCurrent phase
    next =>
      cases stepped
  | release reader =>
    rw [step] at stepped
    split at stepped
    next slot held phase =>
      rcases Option.some.inj stepped with rfl
      exact .release phase
    next =>
      cases stepped
  | exchange reclaim =>
    rw [step] at stepped
    split at stepped
    next reclaimed phase =>
      by_cases allowed : (reclaim || domain.current.isNone) = true
      · rw [if_pos allowed] at stepped
        rcases Option.some.inj stepped with rfl
        exact .exchange reclaim phase allowed
      · rw [if_neg allowed] at stepped
        cases stepped
    next =>
      cases stepped
  | bumpEpoch =>
    rw [step] at stepped
    split at stepped
    next reclaim old phase =>
      rcases Option.some.inj stepped with rfl
      exact .bumpEpoch phase
    next =>
      cases stepped
  | loadTarget =>
    rw [step] at stepped
    split at stepped
    next old phase =>
      rcases Option.some.inj stepped with rfl
      exact .loadTarget phase
    next =>
      cases stepped
  | scan =>
    rw [step] at stepped
    split at stepped
    next old target next phase =>
      by_cases inside : next < maxReaders
      · rw [dif_pos inside] at stepped
        by_cases passes : domain.passes target ⟨next, inside⟩ = true
        · rw [if_pos passes] at stepped
          rcases Option.some.inj stepped with rfl
          exact .scanSlot phase inside passes
        · rw [if_neg passes] at stepped
          rcases Option.some.inj stepped with rfl
          exact .scanWait phase
      · rw [dif_neg inside] at stepped
        rcases Option.some.inj stepped with rfl
        exact .scanEnd phase inside
    next =>
      cases stepped
  | timeout =>
    rw [step] at stepped
    split at stepped
    next old target next phase =>
      rcases Option.some.inj stepped with rfl
      exact .timeout phase
    next =>
      cases stepped
  | deleteOld =>
    rw [step] at stepped
    split at stepped
    next old phase =>
      rcases Option.some.inj stepped with rfl
      exact .deleteOld phase
    next =>
      cases stepped
  | deleteParked =>
    rw [step] at stepped
    split at stepped
    next snapshot rest phase =>
      rcases Option.some.inj stepped with rfl
      exact .deleteParked phase
    next =>
      cases stepped
  | finish =>
    rw [step] at stepped
    split at stepped
    next phase =>
      rcases Option.some.inj stepped with rfl
      exact .finish phase
    next =>
      cases stepped

theorem slot_of_setReader
    {reader other : Reader} {phase : ReaderPhase maxReaders}
    {slot : Fin maxReaders}
    (worksOn :
      ((domain.setReader reader phase).readers other).slot? = some slot) :
    (domain.readers other).slot? = some slot ∨
      other = reader ∧ phase.slot? = some slot := by
  rw [setReader_readers] at worksOn
  by_cases same : other = reader
  · rw [if_pos same] at worksOn
    exact .inr ⟨same, worksOn⟩
  · rw [if_neg same] at worksOn
    exact .inl worksOn

/-- A thread comes to work on a slot only by loading the epoch for it. -/
theorem Moves.slot_cases (moves : domain.Moves action next)
    {reader : Reader} {slot : Fin maxReaders}
    (worksOn : (next.readers reader).slot? = some slot) :
    (domain.readers reader).slot? = some slot ∨
      action = .loadEpoch reader slot := by
  cases moves with
  | loadEpoch loadedSlot phase =>
    rcases slot_of_setReader worksOn with before | ⟨rfl, now⟩
    · exact .inl before
    · rcases Option.some.inj now with rfl
      exact .inr rfl
  | storeEpoch phase =>
    rcases slot_of_setReader worksOn with before | ⟨rfl, now⟩
    · exact .inl before
    · rw [phase]
      exact .inl now
  | loadCurrent phase =>
    rcases slot_of_setReader worksOn with before | ⟨rfl, now⟩
    · exact .inl before
    · rw [phase]
      exact .inl now
  | release phase =>
    rcases slot_of_setReader worksOn with before | ⟨rfl, now⟩
    · exact .inl before
    · cases now
  | _ => exact .inl worksOn

theorem Moves.published_le (moves : domain.Moves action next) :
    domain.published ≤ next.published := by
  cases moves with
  | exchange reclaim phase allowed => exact Nat.le_succ domain.published
  | _ => exact Nat.le_refl _

theorem Moves.inUse_eq
    (moves : domain.Moves action next) (slot : Fin maxReaders) :
    (next.slots slot).inUse = (domain.slots slot).inUse := by
  cases moves with
  | storeEpoch phase => exact domain.setEpoch_inUse _ slot _
  | release phase => exact domain.setEpoch_inUse _ slot _
  | _ => rfl

theorem Moves.current_eq (moves : domain.Moves action next)
    (quiet : ∀ reclaim, action ≠ .exchange reclaim) :
    next.current = domain.current ∧ next.published = domain.published := by
  cases moves with
  | exchange reclaim phase allowed => exact absurd rfl (quiet reclaim)
  | _ => exact ⟨rfl, rfl⟩

theorem Moves.exchange_current
    {reclaim : Bool} (moves : domain.Moves (.exchange reclaim) next) :
    next.current = some domain.published ∧
      next.published = domain.published + 1 := by
  cases moves with
  | exchange reclaim phase allowed => exact ⟨rfl, rfl⟩

end Domain

end Rcu

end Policyd
