import Policyd.ServerSlots

namespace Policyd

/-!
# Who gets which slot

A worker that looks at a slot during registration finds it free and takes it,
or finds it in use by a worker that took it earlier.  Every worker takes at
most one slot in its life, so a worker passes over fewer slots than there are
other workers, and the slots of workers lie below the number of workers.  The
fixed slots of the control plane are out of reach exactly when there is at most
one worker more than configured worker threads.
-/

namespace Server

open Rcu

namespace State

variable {config : Config}

/-- The invariant of registration. -/
structure Assigned (state : State config) : Prop where
  gotBelow :
    ∀ index slot,
      (state.workers index).got? = some slot →
      slot.val < config.workers
  ownedInUse :
    ∀ index slot,
      (state.workers index).owns? = some slot →
      (state.domain.slots slot).inUse = true
  ownedOnce :
    ∀ first second slot,
      (state.workers first).owns? = some slot →
      (state.workers second).owns? = some slot →
      first = second
  inUseOwned :
    ∀ slot,
      (state.domain.slots slot).inUse = true →
      ∃ index, (state.workers index).owns? = some slot
  triedTaken :
    ∀ index next,
      state.workers index = .registering next →
      ∀ earlier, earlier < next →
      ∃ other slot,
        (state.workers other).got? = some slot ∧ slot.val = earlier
  refusedFull :
    ∀ index,
      state.workers index = .refused →
      config.maxReaders < config.workers
  readersAtSlots :
    ∀ thread slot,
      (state.domain.readers thread).slot? = some slot →
      state.slotOf thread = some slot

theorem got_of_owns
    {maxReaders : Nat} {phase : WorkerPhase maxReaders} {slot : Fin maxReaders}
    (owns : phase.owns? = some slot) :
    phase.got? = some slot := by
  cases phase with
  | registered own => exact owns
  | leaving own => exact owns
  | registering next => cases owns
  | refused => cases owns
  | stopped own => cases owns

namespace Assigned

theorem start : (State.start config).Assigned where
  gotBelow := nofun
  ownedInUse := nofun
  ownedOnce := nofun
  inUseOwned := nofun
  triedTaken := by
    intro index next phase earlier isEarlier
    rcases WorkerPhase.registering.inj phase with rfl
    cases isEarlier
  refusedFull := nofun
  readersAtSlots := nofun

variable {state : State config}

variable {index : Fin config.workers} {next : Nat}
  {phase : WorkerPhase config.maxReaders} {slot : Fin config.maxReaders}

/--
A worker passes over fewer slots than there are workers.  Each slot it passed
was taken by another worker, and no worker takes two.
-/
theorem attempts_lt (assigned : state.Assigned)
    (phase : state.workers index = .registering next) :
    next < config.workers := by
  choose taker slot got value using
    fun earlier : Fin next =>
      assigned.triedTaken index next phase earlier.val earlier.isLt
  have injective : Function.Injective taker := by
    intro first second same
    have firstGot := got first
    rw [same, got second] at firstGot
    apply Fin.ext
    rw [← value first, ← value second, Option.some.inj firstGot]
  have notIndex : index ∉ Set.range taker := by
    rintro ⟨earlier, same⟩
    have gotSlot := got earlier
    rw [same, phase] at gotSlot
    cases gotSlot
  have count := Fintype.card_lt_of_injective_of_notMem taker injective notIndex
  simpa only [Fintype.card_fin] using count

/-- A step after which every worker has and had the same slots as before. -/
theorem of_same_slots (assigned : state.Assigned) {next : State config}
    (got : ∀ index, (next.workers index).got? = (state.workers index).got?)
    (owns : ∀ index, (next.workers index).owns? = (state.workers index).owns?)
    (inUse :
      ∀ slot, (next.domain.slots slot).inUse = (state.domain.slots slot).inUse)
    (tried :
      ∀ index attempt,
        next.workers index = .registering attempt →
        ∀ earlier, earlier < attempt →
        ∃ other slot,
          (state.workers other).got? = some slot ∧ slot.val = earlier)
    (refused :
      ∀ index,
        next.workers index = .refused →
        config.maxReaders < config.workers)
    (readers :
      ∀ thread slot,
        (next.domain.readers thread).slot? = some slot →
        next.slotOf thread = some slot) :
    next.Assigned where
  gotBelow := by
    intro index slot gotSlot
    rw [got] at gotSlot
    exact assigned.gotBelow index slot gotSlot
  ownedInUse := by
    intro index slot ownsSlot
    rw [owns] at ownsSlot
    rw [inUse]
    exact assigned.ownedInUse index slot ownsSlot
  ownedOnce := by
    intro first second slot firstOwns secondOwns
    rw [owns] at firstOwns secondOwns
    exact assigned.ownedOnce first second slot firstOwns secondOwns
  inUseOwned := by
    intro slot used
    rw [inUse] at used
    rcases assigned.inUseOwned slot used with ⟨index, ownsSlot⟩
    exact ⟨index, (owns index).trans ownsSlot⟩
  triedTaken := by
    intro index attempt phase earlier isEarlier
    rcases tried index attempt phase earlier isEarlier with
      ⟨other, slot, gotSlot, value⟩
    exact ⟨other, slot, (got other).trans gotSlot, value⟩
  refusedFull := refused
  readersAtSlots := readers

private theorem view_setWorker {View : Type}
    (view : WorkerPhase config.maxReaders → View)
    (same : view phase = view (state.workers index))
    (other : Fin config.workers) :
    view ((state.setWorker index phase).workers other) =
      view (state.workers other) := by
  rw [setWorker_workers]
  by_cases isIndex : other = index
  · rw [if_pos isIndex, isIndex, same]
  · rw [if_neg isIndex]

section

variable (assigned : state.Assigned)

include assigned

/--
Threads stay at their slots when a worker moves that does not read, before or
after.
-/
private theorem slotOf_setWorker
    (idle : (state.domain.readers (.worker index)).slot? = none)
    (thread : Thread config.workers) (slot : Fin config.maxReaders)
    (worksOn : (state.domain.readers thread).slot? = some slot) :
    (state.setWorker index phase).slotOf thread = some slot := by
  have before := assigned.readersAtSlots thread slot worksOn
  cases thread with
  | worker other =>
    have different : other ≠ index := by
      rintro rfl
      rw [idle] at worksOn
      cases worksOn
    rw [slotOf, setWorker_workers, if_neg different]
    exact before
  | reload => exact before
  | describe => exact before
  | admin => exact before

private theorem slot_eq_none
    (notRegistered : state.slotOf (.worker index) = none) :
    (state.domain.readers (.worker index)).slot? = none := by
  cases works : (state.domain.readers (.worker index)).slot? with
  | none => rfl
  | some slot =>
    have atSlot := assigned.readersAtSlots (.worker index) slot works
    rw [notRegistered] at atSlot
    cases atSlot

/-- A worker passed over a slot in use. -/
theorem claimNext (phase : state.workers index = .registering next)
    (inside : next < config.maxReaders)
    (taken : (state.domain.slots ⟨next, inside⟩).inUse = true) :
    (state.setWorker index (.registering (next + 1))).Assigned := by
  apply assigned.of_same_slots
  · exact view_setWorker WorkerPhase.got? (by rw [phase]; rfl)
  · exact view_setWorker WorkerPhase.owns? (by rw [phase]; rfl)
  · exact fun _ => rfl
  · intro other attempt attempting earlier isEarlier
    rcases setWorker_cases attempting with ⟨rfl, now⟩ | before
    · rcases WorkerPhase.registering.inj now with rfl
      by_cases isNext : earlier = next
      · rcases assigned.inUseOwned ⟨next, inside⟩ taken with ⟨owner, owns⟩
        exact ⟨owner, ⟨next, inside⟩, got_of_owns owns, isNext.symm⟩
      · apply assigned.triedTaken other next phase earlier
        omega
    · exact assigned.triedTaken other attempt before earlier isEarlier
  · intro other isRefused
    rcases setWorker_cases isRefused with ⟨_, now⟩ | before
    · cases now
    · exact assigned.refusedFull other before
  · apply assigned.slotOf_setWorker
    exact assigned.slot_eq_none (by rw [slotOf, phase])

/-- A worker found no free slot, so there are more workers than slots. -/
theorem claimNone (phase : state.workers index = .registering next)
    (outside : ¬ next < config.maxReaders) :
    (state.setWorker index .refused).Assigned := by
  have attempts := assigned.attempts_lt phase
  apply assigned.of_same_slots
  · exact view_setWorker WorkerPhase.got? (by rw [phase]; rfl)
  · exact view_setWorker WorkerPhase.owns? (by rw [phase]; rfl)
  · exact fun _ => rfl
  · intro other attempt attempting
    rcases setWorker_cases attempting with ⟨_, now⟩ | before
    · cases now
    · exact assigned.triedTaken other attempt before
  · exact fun _ _ => Nat.lt_of_le_of_lt (Nat.le_of_not_lt outside) attempts
  · apply assigned.slotOf_setWorker
    exact assigned.slot_eq_none (by rw [slotOf, phase])

/-- A worker that holds no guard has made its slot quiescent. -/
theorem unregister (phase : state.workers index = .registered slot)
    (idle : state.domain.readers (.worker index) = .idle) :
    ((state.setWorker index (.leaving slot)).setDomain
      (state.domain.setEpoch slot kQuiescent)).Assigned := by
  apply assigned.of_same_slots
  · exact view_setWorker WorkerPhase.got? (by rw [phase]; rfl)
  · exact view_setWorker WorkerPhase.owns? (by rw [phase]; rfl)
  · exact fun other => state.domain.setEpoch_inUse slot other kQuiescent
  · intro other attempt attempting
    rcases setWorker_cases attempting with ⟨_, now⟩ | before
    · cases now
    · exact assigned.triedTaken other attempt before
  · intro other isRefused
    rcases setWorker_cases isRefused with ⟨_, now⟩ | before
    · cases now
    · exact assigned.refusedFull other before
  · exact assigned.slotOf_setWorker (by rw [idle]; rfl)

end

private theorem got_setWorker {other : Fin config.workers}
    (kept :
      ∀ slot,
        (state.workers index).got? = some slot →
        phase.got? = some slot)
    (got : (state.workers other).got? = some slot) :
    ((state.setWorker index phase).workers other).got? = some slot := by
  rw [setWorker_workers]
  by_cases same : other = index
  · rw [if_pos same]
    rw [same] at got
    exact kept slot got
  · rw [if_neg same]
    exact got

/-- A worker took the first slot it found free. -/
theorem claimSlot (assigned : state.Assigned)
    (phase : state.workers index = .registering next)
    (inside : next < config.maxReaders)
    (free : (state.domain.slots ⟨next, inside⟩).inUse = false) :
    ((state.setWorker index (.registered ⟨next, inside⟩)).setDomain
      (state.domain.setInUse ⟨next, inside⟩ true)).Assigned where
  gotBelow := by
    intro other slot got
    rcases view_setWorker_cases WorkerPhase.got? got with
      ⟨rfl, now⟩ | ⟨_, before⟩
    · rcases Option.some.inj now with rfl
      exact assigned.attempts_lt phase
    · exact assigned.gotBelow other slot before
  ownedInUse := by
    intro other slot owns
    rw [setDomain_domain, Domain.setInUse_inUse]
    by_cases isSlot : slot = ⟨next, inside⟩
    · rw [if_pos isSlot]
    · rw [if_neg isSlot]
      rcases view_setWorker_cases WorkerPhase.owns? owns with
        ⟨rfl, now⟩ | ⟨_, before⟩
      · exact absurd (Option.some.inj now).symm isSlot
      · exact assigned.ownedInUse other slot before
  ownedOnce := by
    -- Nobody owned the slot before, because it was not in use.
    have notOwned :
        ∀ other,
          (state.workers other).owns? ≠ some ⟨next, inside⟩ := by
      intro other owns
      have used := assigned.ownedInUse other _ owns
      rw [free] at used
      cases used
    intro first second slot firstOwns secondOwns
    rcases view_setWorker_cases WorkerPhase.owns? firstOwns with
      ⟨firstIs, now⟩ | ⟨_, firstBefore⟩ <;>
    rcases view_setWorker_cases WorkerPhase.owns? secondOwns with
      ⟨secondIs, alsoNow⟩ | ⟨_, secondBefore⟩
    · rw [firstIs, secondIs]
    · rcases Option.some.inj now with rfl
      exact absurd secondBefore (notOwned second)
    · rcases Option.some.inj alsoNow with rfl
      exact absurd firstBefore (notOwned first)
    · exact assigned.ownedOnce first second slot firstBefore secondBefore
  inUseOwned := by
    intro slot used
    by_cases isSlot : slot = ⟨next, inside⟩
    · refine ⟨index, ?_⟩
      rw [setDomain_workers, setWorker_workers, if_pos rfl, isSlot,
        WorkerPhase.owns?]
    · rw [setDomain_domain, Domain.setInUse_inUse, if_neg isSlot] at used
      rcases assigned.inUseOwned slot used with ⟨owner, owns⟩
      refine ⟨owner, ?_⟩
      rw [setDomain_workers, setWorker_workers, if_neg]
      · exact owns
      · rintro rfl
        rw [phase] at owns
        cases owns
  triedTaken := by
    intro other attempt attempting earlier isEarlier
    rcases setWorker_cases attempting with ⟨_, now⟩ | before
    · cases now
    · rcases assigned.triedTaken other attempt before earlier isEarlier with
        ⟨taker, slot, got, value⟩
      refine ⟨taker, slot, got_setWorker ?_ got, value⟩
      intro slot impossible
      rw [phase] at impossible
      cases impossible
  refusedFull := by
    intro other isRefused
    rcases setWorker_cases isRefused with ⟨_, now⟩ | before
    · cases now
    · exact assigned.refusedFull other before
  readersAtSlots :=
    assigned.slotOf_setWorker (assigned.slot_eq_none (by rw [slotOf, phase]))

/-- A worker gave its slot back. -/
theorem giveBack
    (assigned : state.Assigned) (phase : state.workers index = .leaving slot) :
    ((state.setWorker index (.stopped slot)).setDomain
      (state.domain.setInUse slot false)).Assigned where
  gotBelow := by
    intro other got gotSlot
    rcases view_setWorker_cases WorkerPhase.got? gotSlot with
      ⟨rfl, now⟩ | ⟨_, before⟩
    · apply assigned.gotBelow other got
      rw [phase]
      exact now
    · exact assigned.gotBelow other got before
  ownedInUse := by
    intro other owned owns
    rcases view_setWorker_cases WorkerPhase.owns? owns with
      ⟨_, now⟩ | ⟨different, before⟩
    · cases now
    · rw [setDomain_domain, Domain.setInUse_inUse, if_neg]
      · exact assigned.ownedInUse other owned before
      · rintro rfl
        apply different
        apply assigned.ownedOnce other index owned before
        rw [phase, WorkerPhase.owns?]
  ownedOnce := by
    intro first second owned firstOwns secondOwns
    rcases view_setWorker_cases WorkerPhase.owns? firstOwns with
      ⟨_, now⟩ | ⟨_, firstBefore⟩
    · cases now
    · rcases view_setWorker_cases WorkerPhase.owns? secondOwns with
        ⟨_, now⟩ | ⟨_, secondBefore⟩
      · cases now
      · exact assigned.ownedOnce first second owned firstBefore secondBefore
  inUseOwned := by
    intro other used
    rw [setDomain_domain, Domain.setInUse_inUse] at used
    by_cases isSlot : other = slot
    · rw [if_pos isSlot] at used
      cases used
    · rw [if_neg isSlot] at used
      rcases assigned.inUseOwned other used with ⟨owner, owns⟩
      refine ⟨owner, ?_⟩
      rw [setDomain_workers, setWorker_workers, if_neg]
      · exact owns
      · rintro rfl
        rw [phase] at owns
        exact isSlot (Option.some.inj owns).symm
  triedTaken := by
    intro other attempt attempting earlier isEarlier
    rcases setWorker_cases attempting with ⟨_, now⟩ | before
    · cases now
    · rcases assigned.triedTaken other attempt before earlier isEarlier with
        ⟨taker, got, gotSlot, value⟩
      refine ⟨taker, got, got_setWorker ?_ gotSlot, value⟩
      intro same had
      rw [phase] at had
      exact had
  refusedFull := by
    intro other isRefused
    rcases setWorker_cases isRefused with ⟨_, now⟩ | before
    · cases now
    · exact assigned.refusedFull other before
  readersAtSlots :=
    assigned.slotOf_setWorker (assigned.slot_eq_none (by rw [slotOf, phase]))

/-- A thread did something on the domain. -/
theorem rcu (assigned : state.Assigned)
    {action : Rcu.Action (Thread config.workers) config.maxReaders}
    {domain : Domain (Thread config.workers) config.maxReaders}
    (permitted : state.permits action = true)
    (stepped : state.domain.step action = some domain) :
    (state.setDomain domain).Assigned := by
  have moves := Domain.moves_of_step stepped
  apply assigned.of_same_slots
  · exact fun _ => rfl
  · exact fun _ => rfl
  · exact moves.inUse_eq
  · exact assigned.triedTaken
  · exact assigned.refusedFull
  · intro thread slot worksOn
    rcases moves.slot_cases worksOn with before | rfl
    · exact assigned.readersAtSlots thread slot before
    · rw [permits, Bool.and_eq_true, beq_iff_eq] at permitted
      exact permitted.1

/-- Every action keeps the invariant. -/
theorem step (assigned : state.Assigned)
    {next : State config} {action : Action config}
    (stepped : state.step action = some next) :
    next.Assigned := by
  cases moves_of_step stepped with
  | claimNext phase inside taken =>
    exact assigned.claimNext phase inside taken
  | claimSlot phase inside free =>
    exact assigned.claimSlot phase inside free
  | claimNone phase outside => exact assigned.claimNone phase outside
  | unregister phase idle => exact assigned.unregister phase idle
  | giveBack phase => exact assigned.giveBack phase
  | rcu permitted moved => exact assigned.rcu permitted moved

private theorem owns_of_slotOf
    (isSlot : state.slotOf (.worker index) = some slot) :
    (state.workers index).owns? = some slot := by
  rw [slotOf] at isSlot
  split at isSlot
  next own phase =>
    rw [phase]
    exact isSlot
  next =>
    cases isSlot

/-- The fixed slots lie above those of the workers. -/
private theorem fixed_above (fits : config.workers ≤ config.workerThreads + 1)
    (assigned : state.Assigned)
    {thread : Thread config.workers}
    (isSlot : state.slotOf thread = some slot) :
    match thread with
    | .worker _ => slot.val ≤ config.workerThreads
    | .admin => slot.val = config.workerThreads + 1
    | .describe => slot.val = config.workerThreads + 2
    | .reload => slot.val = config.workerThreads + 3 := by
  cases thread with
  | worker index =>
    have below :=
      assigned.gotBelow index slot (got_of_owns (owns_of_slotOf isSlot))
    exact Nat.le_of_lt_succ (Nat.lt_of_lt_of_le below fits)
  | admin =>
    rcases Option.some.inj isSlot with rfl
    rfl
  | describe =>
    rcases Option.some.inj isSlot with rfl
    rfl
  | reload =>
    rcases Option.some.inj isSlot with rfl
    rfl

section

variable (assigned : state.Assigned)
    (fits : config.workers ≤ config.workerThreads + 1)

include assigned fits

/-- With at most one worker more than worker threads no slot is shared. -/
theorem slotOf_inj {first second : Thread config.workers}
    (firstSlot : state.slotOf first = some slot)
    (secondSlot : state.slotOf second = some slot) :
    first = second := by
  have firstAbove := assigned.fixed_above fits firstSlot
  have secondAbove := assigned.fixed_above fits secondSlot
  cases first <;> cases second
  case worker.worker first second =>
    have same :=
      assigned.ownedOnce first second slot
        (owns_of_slotOf firstSlot) (owns_of_slotOf secondSlot)
    rw [same]
  all_goals first | rfl | (simp only at firstAbove secondAbove; omega)

theorem exclusive :
    state.domain.Exclusive := by
  intro first second slot firstWorks secondWorks
  exact assigned.slotOf_inj fits
    (assigned.readersAtSlots first slot firstWorks)
    (assigned.readersAtSlots second slot secondWorks)

/-- Every action of such a server keeps the domain sound. -/
theorem sound_step
    (sound : state.domain.Sound) (few : state.domain.published < kEpochWrap)
    {next : State config} {action : Action config}
    (stepped : state.step action = some next) :
    next.domain.Sound := by
  cases moves_of_step stepped with
  | claimNext phase inside taken => exact sound
  | claimSlot phase inside free => exact sound.setInUse _ true
  | claimNone phase outside => exact sound
  | unregister phase idle =>
    -- The worker that leaves is the only one at its slot and is idle.
    apply sound.setEpoch
    intro thread worksOn
    have same :=
      assigned.slotOf_inj fits
        (assigned.readersAtSlots thread _ worksOn)
        (by rw [slotOf, phase])
    rw [same, idle] at worksOn
    cases worksOn
  | giveBack phase => exact sound.setInUse _ false
  | rcu permitted moved =>
    exact sound.step (assigned.exclusive fits) few moved

end

end Assigned

variable {state : State config} {actions : List (Action config)}
  {index : Fin config.workers} {attempt : Nat}

theorem published_le_of_step {next : State config} {action : Action config}
    (stepped : state.step action = some next) :
    state.domain.published ≤ next.domain.published := by
  cases moves_of_step stepped with
  | rcu permitted moved => exact (Domain.moves_of_step moved).published_le
  | _ => exact Nat.le_refl _

/-- `initialize` leaves the domain sound. -/
theorem start_sound : (start config).domain.Sound := by
  have empty :
      Domain.Sound
        ({} : Domain (Thread config.workers) config.maxReaders) := .start
  exact (empty.exchange rfl false rfl).bumpEpoch rfl
    (by decide : 1 < kEpochWrap)

theorem assigned_of_run (ran : run actions = some state) :
    state.Assigned :=
  invariant_of_run State.Assigned
    (fun _ assigned stepped => assigned.step stepped)
    (fun _ _ => trivial) Assigned.start ran

/-- The domain of such a server stays sound while the epoch does not wrap. -/
theorem sound_of_run (fits : config.workers ≤ config.workerThreads + 1)
    (ran : run actions = some state)
    (few : state.domain.published < kEpochWrap) :
    state.domain.Sound := by
  have invariant :
      state.Assigned ∧
        (state.domain.published < kEpochWrap → state.domain.Sound) := by
    refine invariant_of_run
      (fun state =>
        state.Assigned ∧
          (state.domain.published < kEpochWrap → state.domain.Sound))
      ?_ (fun _ _ => trivial) ⟨Assigned.start, fun _ => start_sound⟩ ran
    intro state next action _ holds stepped
    refine ⟨holds.1.step stepped, fun fewNext => ?_⟩
    have fewState : state.domain.published < kEpochWrap :=
      Nat.lt_of_le_of_lt (published_le_of_step stepped) fewNext
    exact holds.1.sound_step fits (holds.2 fewState) fewState stepped
  exact invariant.2 few

/-- A worker that still registers has done nothing but pass over slots. -/
theorem registering_of_step {next : State config} {action : Action config}
    (stepped : state.step action = some next)
    (phase : next.workers index = .registering attempt) :
    action ≠ .claim index ∧ state.workers index = .registering attempt ∨
      action = .claim index ∧
        ∃ before,
          attempt = before + 1 ∧
            state.workers index = .registering before := by
  cases moves_of_step stepped with
  | claimNext before inside taken =>
    rcases view_setWorker_cases id phase with
      ⟨rfl, now⟩ | ⟨different, same⟩
    · rcases WorkerPhase.registering.inj now with rfl
      exact .inr ⟨rfl, _, rfl, before⟩
    · exact .inl ⟨fun isClaim => different (Action.claim.inj isClaim).symm,
        same⟩
  | claimSlot before inside free =>
    rcases view_setWorker_cases id phase with
      ⟨_, now⟩ | ⟨different, same⟩
    · cases now
    · exact .inl ⟨fun isClaim => different (Action.claim.inj isClaim).symm,
        same⟩
  | claimNone before outside =>
    rcases view_setWorker_cases id phase with
      ⟨_, now⟩ | ⟨different, same⟩
    · cases now
    · exact .inl ⟨fun isClaim => different (Action.claim.inj isClaim).symm,
        same⟩
  | unregister before idle =>
    rcases setWorker_cases phase with ⟨_, now⟩ | same
    · cases now
    · exact .inl ⟨nofun, same⟩
  | giveBack before =>
    rcases setWorker_cases phase with ⟨_, now⟩ | same
    · cases now
    · exact .inl ⟨nofun, same⟩
  | rcu permitted moved => exact .inl ⟨nofun, phase⟩

/-- A worker that still registers has passed over a slot with every claim. -/
theorem attempts_eq_claims {last : State config}
    (ran : runActions step state actions = some last)
    (phase : last.workers index = .registering attempt) :
    ∃ before,
      state.workers index = .registering before ∧
        attempt = before + actions.count (.claim index) := by
  induction actions generalizing state with
  | nil =>
    rcases Option.some.inj ran with rfl
    exact ⟨attempt, phase, rfl⟩
  | cons action later inductionHypothesis =>
    rw [runActions_cons, Option.bind_eq_some_iff] at ran
    rcases ran with ⟨next, stepped, ran⟩
    rcases inductionHypothesis ran with ⟨middle, atMiddle, counted⟩
    rcases registering_of_step stepped atMiddle with
      ⟨notClaim, atStart⟩ | ⟨rfl, before, rfl, atStart⟩
    · refine ⟨middle, atStart, ?_⟩
      rw [List.count_cons_of_ne notClaim, counted]
    · refine ⟨before, atStart, ?_⟩
      rw [List.count_cons_self, counted]
      omega

/--
Once a worker has made as many claims as there are workers, it has got a slot,
unless it was refused.
-/
theorem got_of_claims
    (ran : run actions = some state) (served : state.workers index ≠ .refused)
    (claims : config.workers ≤ actions.count (.claim index)) :
    ∃ slot, (state.workers index).got? = some slot := by
  cases phase : state.workers index with
  | registering attempt =>
    have attempts := (assigned_of_run ran).attempts_lt phase
    rcases attempts_eq_claims ran phase with ⟨before, _, counted⟩
    omega
  | refused => exact absurd phase served
  | registered slot => exact ⟨slot, rfl⟩
  | leaving slot => exact ⟨slot, rfl⟩
  | stopped slot => exact ⟨slot, rfl⟩

theorem not_refused (fits : config.workers ≤ config.maxReaders)
    (ran : run actions = some state) (index : Fin config.workers) :
    state.workers index ≠ .refused := fun refused =>
  Nat.not_lt_of_le fits ((assigned_of_run ran).refusedFull index refused)

/-!
## A shared slot

The workers of the HTTP front register behind the ingest workers.  From two
worker threads on, one of them takes the slot of the admin handlers.
-/

private theorem setWorker_setWorker
    (state : State config) (index : Fin config.workers)
    (first second : WorkerPhase config.maxReaders) :
    (state.setWorker index first).setWorker index second =
      state.setWorker index second := by
  simp only [setWorker, Function.update_idem]

/-- A worker passes over the slots in use and takes the next one. -/
private theorem exists_run_claim {gap : Nat}
    (phase : state.workers index = .registering attempt)
    (inside : attempt + gap < config.maxReaders)
    (taken :
      ∀ slot : Fin config.maxReaders,
        slot.val < attempt + gap →
        (state.domain.slots slot).inUse = true)
    (free : (state.domain.slots ⟨attempt + gap, inside⟩).inUse = false) :
    ∃ actions,
      runActions step state actions =
        some
          ((state.setWorker index
              (.registered ⟨attempt + gap, inside⟩)).setDomain
            (state.domain.setInUse ⟨attempt + gap, inside⟩ true)) := by
  induction gap generalizing state attempt with
  | zero =>
    refine ⟨[.claim index], ?_⟩
    have insideNow : attempt < config.maxReaders := inside
    have isFree : ¬ (state.domain.slots ⟨attempt, insideNow⟩).inUse = true :=
      Bool.eq_false_iff.mp free
    simp only [runActions_cons, runActions_nil, step, phase,
      dif_pos insideNow, if_neg isFree, Option.bind_some, Nat.add_zero]
  | succ gap inductionHypothesis =>
    have insideNow : attempt < config.maxReaders := by omega
    have isTaken : (state.domain.slots ⟨attempt, insideNow⟩).inUse = true :=
      taken ⟨attempt, insideNow⟩ (by simp)
    have stepped :
        state.step (.claim index) =
          some (state.setWorker index (.registering (attempt + 1))) := by
      simp only [step, phase, dif_pos insideNow, if_pos isTaken]
    have shift : attempt + (gap + 1) = attempt + 1 + gap := by omega
    simp only [shift] at inside taken free ⊢
    have phaseNext :
        (state.setWorker index (.registering (attempt + 1))).workers
            index =
          .registering (attempt + 1) := by
      rw [setWorker_workers, if_pos rfl]
    rcases inductionHypothesis phaseNext inside taken free with
      ⟨actions, ran⟩
    refine ⟨.claim index :: actions, ?_⟩
    rw [runActions_cons, stepped, Option.bind_some, ran,
      setWorker_setWorker, setWorker_domain]

/-- The first workers of a server have registered in order. -/
private structure RegisteredBelow (state : State config) (count : Nat) :
    Prop where
  registered :
    ∀ (index : Fin config.workers) (inside : index.val < config.maxReaders),
      index.val < count →
      state.workers index = .registered ⟨index.val, inside⟩
  waiting :
    ∀ index : Fin config.workers,
      count ≤ index.val →
      state.workers index = .registering 0
  inUse :
    ∀ slot : Fin config.maxReaders,
      (state.domain.slots slot).inUse = decide (slot.val < count)
  idle : ∀ thread, state.domain.readers thread = .idle
  published : state.domain.published = 1

/-- One more worker has registered. -/
private theorem RegisteredBelow.register {count : Nat}
    (below : state.RegisteredBelow count) (isWorker : count < config.workers)
    (inside : count < config.maxReaders) :
    RegisteredBelow
      ((state.setWorker ⟨count, isWorker⟩
          (.registered ⟨count, inside⟩)).setDomain
        (state.domain.setInUse ⟨count, inside⟩ true))
      (count + 1) where
  registered := by
    intro index indexInside isBelow
    rw [setDomain_workers, setWorker_workers]
    by_cases same : index = ⟨count, isWorker⟩
    · subst same
      rw [if_pos rfl]
    · rw [if_neg same]
      apply below.registered index indexInside
      have different : index.val ≠ count := fun isCount =>
        same (Fin.ext isCount)
      omega
  waiting := by
    intro index notBelow
    have different : index ≠ ⟨count, isWorker⟩ := by
      rintro rfl
      exact Nat.not_succ_le_self count notBelow
    rw [setDomain_workers, setWorker_workers, if_neg different]
    exact below.waiting index (Nat.le_of_succ_le notBelow)
  inUse := by
    intro slot
    rw [setDomain_domain, Domain.setInUse_inUse]
    by_cases same : slot = ⟨count, inside⟩
    · subst same
      simp
    · have different : slot.val ≠ count := fun isCount =>
        same (Fin.ext isCount)
      rw [if_neg same, below.inUse, decide_eq_decide]
      omega
  idle := below.idle
  published := below.published

/-- The workers of a server can register one after the other. -/
private theorem exists_run_registeredBelow
    (count : Nat) (enoughWorkers : count ≤ config.workers)
    (enoughSlots : count ≤ config.maxReaders) :
    ∃ (actions : List (Action config)) (state : State config),
      run actions = some state ∧ state.RegisteredBelow count := by
  induction count with
  | zero =>
    refine ⟨[], start config, rfl, ?_⟩
    exact
      { registered := fun _ _ below => nomatch below
        waiting := fun _ _ => rfl
        inUse := fun _ => rfl
        idle := fun _ => rfl
        published := rfl }
  | succ count inductionHypothesis =>
    rcases inductionHypothesis (by omega) (by omega) with
      ⟨actions, state, ran, below⟩
    have inside : 0 + count < config.maxReaders := by omega
    have phase := below.waiting ⟨count, enoughWorkers⟩ (Nat.le_refl count)
    rcases exists_run_claim phase inside
        (fun slot isBelow => by
          rw [below.inUse, decide_eq_true_iff]
          omega)
        (by rw [below.inUse, decide_eq_false_iff_not]; simp) with
      ⟨later, ranLater⟩
    simp only [Nat.zero_add] at ranLater
    exact ⟨actions ++ later, _, runActions_trans ran ranLater,
      below.register enoughWorkers _⟩

/-- The three actions of `read`. -/
def readActions
    (thread : Thread config.workers) (slot : Fin config.maxReaders) :
    List (Action config) :=
  [.rcu (.loadEpoch thread slot), .rcu (.storeEpoch thread),
    .rcu (.loadCurrent thread)]

/-- An idle thread of the server can take a guard with its slot. -/
private theorem exists_run_read
    {thread : Thread config.workers} {slot : Fin config.maxReaders}
    (isSlot : state.slotOf thread = some slot) (notReload : thread ≠ .reload)
    (idle : state.domain.readers thread = .idle) :
    ∃ next,
      runActions step state (readActions thread slot) = some next ∧
        next.domain.readers thread = .holding slot state.domain.current ∧
        (∀ other,
          other ≠ thread →
          next.domain.readers other = state.domain.readers other) ∧
        next.workers = state.workers ∧
        next.domain.published = state.domain.published := by
  have permitted : state.permits (.loadEpoch thread slot) = true := by
    simp [permits, isSlot, notReload]
  have loads :
      state.step (.rcu (.loadEpoch thread slot)) =
        some
          (state.setDomain
            (state.domain.setReader thread
              (.loaded slot state.domain.globalEpoch))) := by
    simp only [step, permitted, if_true, Domain.step, idle, Option.map_some]
  generalize loadedIs :
    state.domain.setReader thread
      (.loaded slot state.domain.globalEpoch) = loaded at loads
  have loadedPhase :
      loaded.readers thread = .loaded slot state.domain.globalEpoch := by
    rw [← loadedIs, Domain.setReader_readers, if_pos rfl]
  have stores :
      (state.setDomain loaded).step (.rcu (.storeEpoch thread)) =
        some
          (state.setDomain
            ((loaded.setEpoch slot state.domain.globalEpoch).setReader
              thread (.entered slot))) := by
    simp only [step, permits, if_true, setDomain_domain, Domain.step,
      loadedPhase, Option.map_some]
    rfl
  generalize enteredIs :
    (loaded.setEpoch slot state.domain.globalEpoch).setReader
      thread (.entered slot) = entered at stores
  have enteredPhase : entered.readers thread = .entered slot := by
    rw [← enteredIs, Domain.setReader_readers, if_pos rfl]
  have holds :
      (state.setDomain entered).step (.rcu (.loadCurrent thread)) =
        some
          (state.setDomain
            (entered.setReader thread
              (.holding slot state.domain.current))) := by
    simp only [step, permits, if_true, setDomain_domain, Domain.step,
      enteredPhase, Option.map_some]
    rw [← enteredIs, ← loadedIs]
    rfl
  have ran :
      runActions step state (readActions thread slot) =
        some
          (state.setDomain
            (entered.setReader thread
              (.holding slot state.domain.current))) := by
    rw [readActions, runActions_cons, loads, Option.bind_some,
      runActions_cons, stores, Option.bind_some, runActions_cons, holds,
      Option.bind_some, runActions_nil]
  refine ⟨_, ran, ?_, ?_, ?_, ?_⟩
  · rw [setDomain_domain, Domain.setReader_readers, if_pos rfl]
  · intro other different
    rw [setDomain_domain, Domain.setReader_readers, if_neg different,
      ← enteredIs, Domain.setReader_readers, if_neg different, ← loadedIs]
    exact (Domain.setReader_readers ..).trans (if_neg different)
  · rw [setDomain_workers]
  · rw [setDomain_domain, ← enteredIs, ← loadedIs]
    rfl

/-- With room for an overlap, a worker and an admin handler share a slot. -/
private theorem exists_run_shared
    (overlaps : config.workerThreads + 2 ≤ config.workers) :
    ∃ (actions : List (Action config)) (state : State config),
      run actions = some state ∧
        state.domain.published = 1 ∧
        ∃ index workerHeld adminHeld,
          state.domain.readers (.worker index) =
              .holding config.adminSlot workerHeld ∧
            state.domain.readers .admin =
              .holding config.adminSlot adminHeld := by
  rcases exists_run_registeredBelow (config.workerThreads + 2) overlaps
      (by rw [Config.maxReaders]; omega) with
    ⟨actions, state, ran, below⟩
  have workerSlot :
      state.slotOf (.worker ⟨config.workerThreads + 1, overlaps⟩) =
        some config.adminSlot := by
    rw [slotOf, below.registered _ config.adminSlot.isLt (Nat.lt_succ_self _)]
    rfl
  rcases exists_run_read workerSlot nofun (below.idle _) with
    ⟨middle, ranWorker, workerHolds, others, _, middlePublished⟩
  have adminSlot : middle.slotOf .admin = some config.adminSlot := rfl
  have adminIdle : middle.domain.readers .admin = .idle :=
    (others .admin nofun).trans (below.idle .admin)
  rcases exists_run_read adminSlot nofun adminIdle with
    ⟨last, ranAdmin, adminHolds, othersLast, _, lastPublished⟩
  have stillHolds := (othersLast (.worker _) nofun).trans workerHolds
  refine ⟨_, last, runActions_trans (runActions_trans ran ranWorker) ranAdmin,
    ?_, _, _, _, stillHolds, adminHolds⟩
  rw [lastPublished, middlePublished, below.published]

end State

/--
The slots of a server are exclusive.  In every state of every run in which the
epoch does not wrap around: no worker is refused a slot, and a worker has got
one with as many claims as there are workers; two live guards never share a
slot; and no live guard points to a deleted rule set.
-/
def SlotsExclusive (config : Config) : Prop :=
  ∀ (actions : List (Action config)) (state : State config),
    State.run actions = some state →
    state.domain.published < kEpochWrap →
    (∀ index,
        state.workers index ≠ .refused ∧
          (config.workers ≤ actions.count (.claim index) →
            ∃ slot, (state.workers index).got? = some slot)) ∧
      (∀ first second slot firstHeld secondHeld,
        state.domain.readers first = .holding slot firstHeld →
        state.domain.readers second = .holding slot secondHeld →
        first = second) ∧
      (∀ thread slot snapshot,
        state.domain.Holds thread slot snapshot →
        snapshot ∉ state.domain.deleted)

/-- The slots are exclusive while the workers end below the admin slot. -/
theorem slotsExclusive_of_fits
    {config : Config} (fits : config.workers ≤ config.workerThreads + 1) :
    SlotsExclusive config := by
  intro actions state ran few
  have enough : config.workers ≤ config.maxReaders := by
    rw [Config.maxReaders]
    omega
  refine ⟨?_, ?_, ?_⟩
  · intro index
    have served := State.not_refused enough ran index
    exact ⟨served, State.got_of_claims ran served⟩
  · intro first second slot firstHeld secondHeld firstHolds secondHolds
    apply (State.assigned_of_run ran).exclusive fits first second slot
    · rw [firstHolds, ReaderPhase.slot?]
    · rw [secondHolds, ReaderPhase.slot?]
  · exact fun thread slot snapshot holds =>
      (State.sound_of_run fits ran few).held_not_deleted holds

theorem not_slotsExclusive_of_overlaps
    {config : Config} (overlaps : config.workerThreads + 2 ≤ config.workers) :
    ¬ SlotsExclusive config := by
  intro exclusive
  rcases State.exists_run_shared overlaps with
    ⟨actions, state, ran, published, index, workerHeld, adminHeld,
      workerHolds, adminHolds⟩
  have few : state.domain.published < kEpochWrap := by
    rw [published]
    decide
  have same :=
    (exclusive actions state ran few).2.1 _ _ _ _ _ workerHolds adminHolds
  cases same

/--
The slots are exclusive exactly for servers without an HTTP front and for
servers with a single worker thread.
-/
theorem slotsExclusive_iff
    {config : Config}
    (positive : 1 ≤ config.workerThreads) :
    SlotsExclusive config ↔
      config.httpPort = 0 ∨ config.workerThreads = 1 := by
  have count :
      config.workers ≤ config.workerThreads + 1 ↔
        config.httpPort = 0 ∨ config.workerThreads = 1 := by
    rw [Config.workers]
    by_cases noFront : config.httpPort = 0
    · simp [noFront]
    · simp only [noFront, if_false, false_or]
      omega
  rw [← count]
  constructor
  · intro exclusive
    by_contra tooMany
    exact not_slotsExclusive_of_overlaps (by omega) exclusive
  · exact slotsExclusive_of_fits

/-- A server with an HTTP front and one worker thread. -/
theorem slotsExclusive_single_worker :
    SlotsExclusive { workerThreads := 1, httpPort := 8080 } :=
  (slotsExclusive_iff (Nat.le_refl 1)).mpr (.inr rfl)

/-- A server with an HTTP front and two worker threads. -/
def twoWorkers : Config :=
  { workerThreads := 2, httpPort := 8080 }

/-- The second worker of the HTTP front. -/
def lastWorker : Fin twoWorkers.workers := ⟨3, by decide⟩

/--
All four workers register and the last one gets the slot of the admin
handlers.  It takes a guard, an admin handler comes and goes, and a reload sees
the slot quiescent.
-/
def adminHandlerDuringRequest : List (Action twoWorkers) :=
  [.claim ⟨0, by decide⟩,
    .claim ⟨1, by decide⟩, .claim ⟨1, by decide⟩,
    .claim ⟨2, by decide⟩, .claim ⟨2, by decide⟩, .claim ⟨2, by decide⟩,
    .claim lastWorker, .claim lastWorker, .claim lastWorker,
    .claim lastWorker,
    .rcu (.loadEpoch (.worker lastWorker) twoWorkers.adminSlot),
    .rcu (.storeEpoch (.worker lastWorker)),
    .rcu (.loadCurrent (.worker lastWorker)),
    .rcu (.loadEpoch .admin twoWorkers.adminSlot),
    .rcu (.storeEpoch .admin), .rcu (.loadCurrent .admin),
    .rcu (.release .admin),
    .rcu (.exchange true), .rcu .bumpEpoch, .rcu .loadTarget,
    .rcu .scan, .rcu .scan, .rcu .scan, .rcu .scan, .rcu .scan,
    .rcu .scan, .rcu .scan, .rcu .deleteOld]

/-- A reload deletes the rule set a worker decides with. -/
theorem rule_set_deleted_under_worker :
    ∃ state,
      State.run adminHandlerDuringRequest = some state ∧
        state.domain.Holds (.worker lastWorker) twoWorkers.adminSlot 0 ∧
        0 ∈ state.domain.deleted :=
  ⟨_, rfl, rfl, List.mem_cons_self⟩

end Server

end Policyd
