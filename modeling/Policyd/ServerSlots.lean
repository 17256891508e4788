import Mathlib.Data.Fintype.Card
import Policyd.RcuSafety

namespace Policyd

/-!
# Reader slots of the assembled server

Every ingest worker and every worker of the HTTP front claims a slot of the
control plane's domain with `register_reader`.  The control plane reads with
fixed slots at the end: for reloads, for `describe` and for the handlers of the
admin server.  The domain has four slots more than there are ingest workers.
The source adds in 32 bits; the model is about counts for which that is exact.
-/

namespace Server

open Rcu

/-- The part of the configuration that decides who reads. -/
structure Config where
  workerThreads : Nat
  httpPort : UInt16
  deriving Repr, DecidableEq

namespace Config

/-- The number of threads that register as readers. -/
def workers (config : Config) : Nat :=
  if config.httpPort = 0 then
    config.workerThreads
  else
    config.workerThreads + config.workerThreads

/-- The number of slots of the domain. -/
def maxReaders (config : Config) : Nat :=
  config.workerThreads + 4

/-- The slot `max_readers() - back` of the control plane. -/
def fixedSlot (config : Config) (back : Nat) (positive : 0 < back) :
    Fin config.maxReaders :=
  ⟨config.maxReaders - back, by rw [maxReaders]; omega⟩

/-- The slot of `reload_rules`. -/
def reloadSlot (config : Config) : Fin config.maxReaders :=
  config.fixedSlot 1 (by decide)

/-- The slot of `describe`. -/
def describeSlot (config : Config) : Fin config.maxReaders :=
  config.fixedSlot 2 (by decide)

/-- The slot of the handlers of the admin server. -/
def adminSlot (config : Config) : Fin config.maxReaders :=
  config.fixedSlot 3 (by decide)

end Config

/-- The threads that take guards. -/
inductive Thread (workers : Nat) where
  | worker (index : Fin workers)
  | reload
  | describe
  | admin
  deriving Repr, DecidableEq

/-- What a worker has done of its life with a slot. -/
inductive WorkerPhase (maxReaders : Nat) where
  | registering (next : Nat)
  | registered (slot : Fin maxReaders)
  | refused
  | leaving (slot : Fin maxReaders)
  | stopped (slot : Fin maxReaders)
  deriving Repr, DecidableEq

/-- The slot a worker has or had. -/
def WorkerPhase.got? {maxReaders : Nat} :
    WorkerPhase maxReaders → Option (Fin maxReaders)
  | .registering _ | .refused => none
  | .registered slot | .leaving slot | .stopped slot => some slot

/-- The slot a worker has. -/
def WorkerPhase.owns? {maxReaders : Nat} :
    WorkerPhase maxReaders → Option (Fin maxReaders)
  | .registering _ | .refused | .stopped _ => none
  | .registered slot | .leaving slot => some slot

/-- The domain and the phases of the workers. -/
structure State (config : Config) where
  domain : Domain (Thread config.workers) config.maxReaders
  workers : Fin config.workers → WorkerPhase config.maxReaders

/-- One atomic action of the server. -/
inductive Action (config : Config) where
  | claim (index : Fin config.workers)
  | unregister (index : Fin config.workers)
  | giveBack (index : Fin config.workers)
  | rcu (action : Rcu.Action (Thread config.workers) config.maxReaders)
  deriving DecidableEq

namespace State

variable {config : Config}

/-- `initialize` has published the first rule set; no thread runs yet. -/
def start (config : Config) : State config where
  domain := { current := some 0, globalEpoch := 2, published := 1 }
  workers := fun _ => .registering 0

/-- The slot a thread reads with. -/
def slotOf (state : State config) :
    Thread config.workers → Option (Fin config.maxReaders)
  | .worker index =>
    match state.workers index with
    | .registered slot => some slot
    | _ => none
  | .reload => some config.reloadSlot
  | .describe => some config.describeSlot
  | .admin => some config.adminSlot

/-- Let a worker be in another phase. -/
def setWorker
    (state : State config) (index : Fin config.workers)
    (phase : WorkerPhase config.maxReaders) :
    State config :=
  { state with workers := Function.update state.workers index phase }

/-- Let the domain be in another state. -/
def setDomain
    (state : State config)
    (domain : Domain (Thread config.workers) config.maxReaders) :
    State config :=
  { state with domain := domain }

@[simp]
theorem setDomain_domain (state : State config)
    (domain : Domain (Thread config.workers) config.maxReaders) :
    (state.setDomain domain).domain = domain := rfl

@[simp]
theorem setDomain_workers (state : State config)
    (domain : Domain (Thread config.workers) config.maxReaders) :
    (state.setDomain domain).workers = state.workers := rfl

@[simp]
theorem setWorker_domain (state : State config) (index : Fin config.workers)
    (phase : WorkerPhase config.maxReaders) :
    (state.setWorker index phase).domain = state.domain := rfl

/--
Whether the code can perform an action on the domain.  Threads read with their
slots, and `reload_mutex_` keeps the read of a reload and the swaps apart.
-/
def permits (state : State config) :
    Rcu.Action (Thread config.workers) config.maxReaders → Bool
  | .loadEpoch thread slot =>
    state.slotOf thread == some slot &&
      (thread != .reload ||
        match state.domain.writer with
        | .idle _ => true
        | _ => false)
  | .exchange _ => state.domain.readers .reload == .idle
  | _ => true

/-- One action, if it is enabled. -/
def step (state : State config) : Action config → Option (State config)
  | .claim index =>
    match state.workers index with
    | .registering next =>
      if inside : next < config.maxReaders then
        if (state.domain.slots ⟨next, inside⟩).inUse then
          some (state.setWorker index (.registering (next + 1)))
        else
          some
            ((state.setWorker index (.registered ⟨next, inside⟩)).setDomain
              (state.domain.setInUse ⟨next, inside⟩ true))
      else
        some (state.setWorker index .refused)
    | _ => none
  | .unregister index =>
    match state.workers index with
    | .registered slot =>
      if state.domain.readers (.worker index) = .idle then
        some
          ((state.setWorker index (.leaving slot)).setDomain
            (state.domain.setEpoch slot kQuiescent))
      else
        none
    | _ => none
  | .giveBack index =>
    match state.workers index with
    | .leaving slot =>
      some
        ((state.setWorker index (.stopped slot)).setDomain
          (state.domain.setInUse slot false))
    | _ => none
  | .rcu action =>
    if state.permits action then
      (state.domain.step action).map state.setDomain
    else
      none

/-- The actions of all threads of a started server, in some order. -/
def run (actions : List (Action config)) : Option (State config) :=
  runActions step (start config) actions

/-- What each action can do, with the phase it starts from. -/
inductive Moves (state : State config) : Action config → State config → Prop
  | claimNext {index next}
      (phase : state.workers index = .registering next)
      (inside : next < config.maxReaders)
      (taken : (state.domain.slots ⟨next, inside⟩).inUse = true) :
      Moves state (.claim index)
        (state.setWorker index (.registering (next + 1)))
  | claimSlot {index next}
      (phase : state.workers index = .registering next)
      (inside : next < config.maxReaders)
      (free : (state.domain.slots ⟨next, inside⟩).inUse = false) :
      Moves state (.claim index)
        ((state.setWorker index (.registered ⟨next, inside⟩)).setDomain
          (state.domain.setInUse ⟨next, inside⟩ true))
  | claimNone {index next}
      (phase : state.workers index = .registering next)
      (outside : ¬ next < config.maxReaders) :
      Moves state (.claim index) (state.setWorker index .refused)
  | unregister {index slot}
      (phase : state.workers index = .registered slot)
      (idle : state.domain.readers (.worker index) = .idle) :
      Moves state (.unregister index)
        ((state.setWorker index (.leaving slot)).setDomain
          (state.domain.setEpoch slot kQuiescent))
  | giveBack {index slot}
      (phase : state.workers index = .leaving slot) :
      Moves state (.giveBack index)
        ((state.setWorker index (.stopped slot)).setDomain
          (state.domain.setInUse slot false))
  | rcu {action domain}
      (permitted : state.permits action = true)
      (stepped : state.domain.step action = some domain) :
      Moves state (.rcu action) (state.setDomain domain)

/-- Every action does one of these. -/
theorem moves_of_step {state next : State config} {action : Action config}
    (stepped : state.step action = some next) :
    state.Moves action next := by
  cases action with
  | claim index =>
    rw [step] at stepped
    split at stepped
    next attempt phase =>
      by_cases inside : attempt < config.maxReaders
      · rw [dif_pos inside] at stepped
        by_cases taken : (state.domain.slots ⟨attempt, inside⟩).inUse = true
        · rw [if_pos taken] at stepped
          rcases Option.some.inj stepped with rfl
          exact .claimNext phase inside taken
        · rw [if_neg taken] at stepped
          rcases Option.some.inj stepped with rfl
          exact .claimSlot phase inside (Bool.eq_false_iff.mpr taken)
      · rw [dif_neg inside] at stepped
        rcases Option.some.inj stepped with rfl
        exact .claimNone phase inside
    next =>
      cases stepped
  | unregister index =>
    rw [step] at stepped
    split at stepped
    next slot phase =>
      by_cases idle : state.domain.readers (.worker index) = .idle
      · rw [if_pos idle] at stepped
        rcases Option.some.inj stepped with rfl
        exact .unregister phase idle
      · rw [if_neg idle] at stepped
        cases stepped
    next =>
      cases stepped
  | giveBack index =>
    rw [step] at stepped
    split at stepped
    next slot phase =>
      rcases Option.some.inj stepped with rfl
      exact .giveBack phase
    next =>
      cases stepped
  | rcu action =>
    rw [step] at stepped
    by_cases permitted : state.permits action = true
    · rw [if_pos permitted] at stepped
      rcases Option.map_eq_some_iff.mp stepped with ⟨domain, moved, rfl⟩
      exact .rcu permitted moved
    · rw [if_neg permitted] at stepped
      cases stepped

theorem setWorker_workers
    (state : State config) (index other : Fin config.workers)
    (phase : WorkerPhase config.maxReaders) :
    (state.setWorker index phase).workers other =
      if other = index then phase else state.workers other := by
  simp only [setWorker, Function.update_apply]

theorem view_setWorker_cases {View : Type}
    (view : WorkerPhase config.maxReaders → View)
    {state : State config} {index other : Fin config.workers}
    {phase : WorkerPhase config.maxReaders} {seen : View}
    (isSeen : view ((state.setWorker index phase).workers other) = seen) :
    other = index ∧ view phase = seen ∨
      other ≠ index ∧ view (state.workers other) = seen := by
  rw [setWorker_workers] at isSeen
  by_cases same : other = index
  · rw [if_pos same] at isSeen
    exact .inl ⟨same, isSeen⟩
  · rw [if_neg same] at isSeen
    exact .inr ⟨same, isSeen⟩

theorem setWorker_cases
    {state : State config} {index other : Fin config.workers}
    {phase seen : WorkerPhase config.maxReaders}
    (isSeen : (state.setWorker index phase).workers other = seen) :
    other = index ∧ phase = seen ∨ state.workers other = seen := by
  rcases view_setWorker_cases id isSeen with now | before
  · exact .inl now
  · exact .inr before.2

end State

end Server

end Policyd
