import Policyd.Roster
import Policyd.RuleCompiler
import Policyd.RcuSafety

namespace Policyd

/-!
# The control plane

`initialize` compiles the rules, publishes them and loads the roster.
`reload_rules` runs under a mutex; between its steps workers and handlers go on
reading, so the steps of a call are separate actions here.

The history of a run, which the code does not use: `snapshots` lists the
published rule sets by number, `calls` counts the calls, `atCall` is what was
live when the last call began, and `seen` lists the versions each thread read.
-/

/-- What the control plane records about reloads. -/
structure ReloadStats where
  attempts : UInt64 := 0
  successes : UInt64 := 0
  failures : UInt64 := 0
  currentVersion : UInt32 := 0
  lastError : Str := []
  deriving Repr, DecidableEq

/-- Where a call of `reload_rules` stands. -/
inductive ReloadPhase where
  | returned (result : Option Bool)
  | compiled (ruleSet : RuleSet)
  | checked (ruleSet : RuleSet)
  | swapping (version : UInt32)

/-- What was live when a call began. -/
structure CallStart where
  live : Option RuleSet
  currentVersion : UInt32

/-- The control plane and its threads. -/
structure ControlPlane (Reader : Type) (maxReaders : Nat) where
  rules : Rcu.Domain Reader maxReaders
  store : SubscriberStore
  nextVersion : UInt32
  stats : ReloadStats
  reload : ReloadPhase
  snapshots : List RuleSet
  calls : Nat
  atCall : CallStart
  seen : Reader → List UInt32

/-- The paths and sizes the control plane is configured with. -/
structure ControlConfig where
  rulesPath : Str
  subscribersPath : Str
  expectedSubscribers : Nat

/-- The load factor of the subscriber store. -/
def kDefaultLoadFactor : Rat := 1 / 2

namespace ControlPlane

variable {Reader : Type} {maxReaders : Nat}

/-- The rule set readers get. -/
def live (control : ControlPlane Reader maxReaders) : Option RuleSet :=
  control.rules.current.bind fun snapshot => control.snapshots[snapshot]?

/-- The control plane after the first rule set is published. -/
def published (ruleSet : RuleSet) (store : SubscriberStore) :
    ControlPlane Reader maxReaders where
  rules := { current := some 0, globalEpoch := 2, published := 1 }
  store := store
  nextVersion := 2
  stats :=
    { attempts := 1
      successes := 1
      currentVersion := ruleSet.version }
  reload := .returned none
  snapshots := [ruleSet]
  calls := 1
  atCall := { live := none, currentVersion := 0 }
  seen := fun _ => []

/--
Start the control plane or say why it does not start.  The outer `none` would
mean that loading the roster does not return.
-/
def initializeFrom (config : ControlConfig) (files : Str → Option Str) :
    Option (Except Str (ControlPlane Reader maxReaders)) :=
  let compiled := compileRulesFromFile files config.rulesPath 1
  let store :=
    SubscriberStore.create
      (if config.expectedSubscribers ≠ 0 then
        config.expectedSubscribers
      else
        1024)
      kDefaultLoadFactor
  match compiled.ok, compiled.ruleSet with
  | true, some ruleSet =>
    if config.subscribersPath = [] then
      some (.ok (published ruleSet store))
    else
      (store.loadCsv config.subscribersPath
          (files config.subscribersPath) ruleSet.planNames).map
        fun (store, result) =>
          if result.ok then
            .ok (published ruleSet store)
          else
            .error
              ("subscriber file has ".toList ++ decimal result.skipped ++
                " bad row(s)".toList)
  | _, _ =>
    some
      (.error
        ("cannot compile ".toList ++ config.rulesPath ++ ": ".toList ++
          compiled.errorSummary))

end ControlPlane

/-- The first plan of the old list that the new one does not have in place. -/
def changedPlan (oldNames newNames : List Str) : Option (Str × Nat) :=
  oldNames.zipIdx.find? fun (name, slot) =>
    newNames[slot]? != some name

/-- Why a file that changes a plan is refused. -/
def changedPlanError (name : Str) (slot : Nat) : Str :=
  "plan '".toList ++ name ++
    "' changed position or was removed (slot ".toList ++ decimal slot ++
    ("); subscriber records hold plan ids, so this needs a restart, " ++
      "not a reload").toList

/-- One atomic action of the running server. -/
inductive ControlAction (Reader : Type) (maxReaders : Nat) where
  | compile (files : Str → Option Str)
  | compareNames
  | exchange
  | rcu (action : Rcu.Action Reader maxReaders)
  | finish

namespace ControlPlane

variable {Reader : Type} {maxReaders : Nat}

/-- A call gives up: it counts a failure and keeps the error. -/
def fail (control : ControlPlane Reader maxReaders) (error : Str) :
    ControlPlane Reader maxReaders :=
  { control with
    stats :=
      { control.stats with
        failures := control.stats.failures + 1
        lastError := error }
    reload := .returned (some false) }

/-- A call begins: it counts the attempt and draws a version. -/
def beginCall (control : ControlPlane Reader maxReaders) :
    ControlPlane Reader maxReaders :=
  { control with
    stats :=
      { control.stats with attempts := control.stats.attempts + 1 }
    nextVersion := control.nextVersion + 1
    calls := control.calls + 1
    atCall :=
      { live := control.live
        currentVersion := control.stats.currentVersion } }

/-- The first step of `reload_rules`: compile the file with a new version. -/
def compile
    (control : ControlPlane Reader maxReaders) (rulesPath : Str)
    (files : Str → Option Str) :
    ControlPlane Reader maxReaders :=
  let compiled :=
    compileRulesFromFile files rulesPath control.nextVersion
  match compiled.ok, compiled.ruleSet with
  | true, some ruleSet =>
    { control.beginCall with reload := .compiled ruleSet }
  | _, _ => control.beginCall.fail compiled.errorSummary

/-- Refuse a rule set that renames, moves or removes a plan of the live one. -/
def compareNames
    (control : ControlPlane Reader maxReaders) (ruleSet : RuleSet) :
    ControlPlane Reader maxReaders :=
  match control.live with
  | none => { control with reload := .checked ruleSet }
  | some old =>
    match changedPlan old.planNames ruleSet.planNames with
    | none => { control with reload := .checked ruleSet }
    | some (name, slot) => control.fail (changedPlanError name slot)

/-- `swap_and_reclaim` has returned; record the success. -/
def finish (control : ControlPlane Reader maxReaders) (version : UInt32) :
    ControlPlane Reader maxReaders :=
  { control with
    stats :=
      { control.stats with
        currentVersion := version
        successes := control.stats.successes + 1
        lastError := [] }
    reload := .returned (some true) }

variable [DecidableEq Reader]

/-- A thread remembers the version it reads. -/
def note (control : ControlPlane Reader maxReaders) :
    Rcu.Action Reader maxReaders → Reader → List UInt32
  | .loadCurrent reader =>
    Function.update control.seen reader
      ((control.live.map RuleSet.version).toList ++ control.seen reader)
  | _ => control.seen

/--
One action, if it is enabled.  A new call waits for the end of the last one,
and only a call exchanges the pointer.
-/
def step (rulesPath : Str) (control : ControlPlane Reader maxReaders) :
    ControlAction Reader maxReaders →
      Option (ControlPlane Reader maxReaders)
  | .compile files =>
    match control.reload with
    | .returned _ => some (control.compile rulesPath files)
    | _ => none
  | .compareNames =>
    match control.reload with
    | .compiled ruleSet => some (control.compareNames ruleSet)
    | _ => none
  | .exchange =>
    match control.reload with
    | .checked ruleSet =>
      (control.rules.step (.exchange true)).map fun rules =>
        { control with
          rules := rules
          snapshots := control.snapshots ++ [ruleSet]
          reload := .swapping ruleSet.version }
    | _ => none
  | .rcu (.exchange _) => none
  | .rcu action =>
    (control.rules.step action).map fun rules =>
      { control with
        rules := rules
        seen := control.note action }
  | .finish =>
    match control.reload, control.rules.writer with
    | .swapping version, .idle (some _) => some (control.finish version)
    | _, _ => none

/-- What each action can do, with the phase it starts from. -/
inductive Moves (rulesPath : Str) (control : ControlPlane Reader maxReaders) :
    ControlAction Reader maxReaders →
      ControlPlane Reader maxReaders → Prop
  | compile {result} (files)
      (phase : control.reload = .returned result) :
      Moves rulesPath control (.compile files)
        (control.compile rulesPath files)
  | compareNames {ruleSet}
      (phase : control.reload = .compiled ruleSet) :
      Moves rulesPath control .compareNames (control.compareNames ruleSet)
  | exchange {ruleSet rules}
      (phase : control.reload = .checked ruleSet)
      (stepped : control.rules.step (.exchange true) = some rules) :
      Moves rulesPath control .exchange
        { control with
          rules := rules
          snapshots := control.snapshots ++ [ruleSet]
          reload := .swapping ruleSet.version }
  | rcu {action rules}
      (quiet : ∀ reclaim, action ≠ .exchange reclaim)
      (stepped : control.rules.step action = some rules) :
      Moves rulesPath control (.rcu action)
        { control with
          rules := rules
          seen := control.note action }
  | finish {version}
      (phase : control.reload = .swapping version) :
      Moves rulesPath control .finish (control.finish version)

/-- Every action does one of these. -/
theorem moves_of_step
    {rulesPath : Str} {control next : ControlPlane Reader maxReaders}
    {action : ControlAction Reader maxReaders}
    (stepped : control.step rulesPath action = some next) :
    control.Moves rulesPath action next := by
  cases action with
  | compile files =>
    rw [step] at stepped
    split at stepped
    next result phase =>
      rcases Option.some.inj stepped with rfl
      exact .compile files phase
    next =>
      cases stepped
  | compareNames =>
    rw [step] at stepped
    split at stepped
    next ruleSet phase =>
      rcases Option.some.inj stepped with rfl
      exact .compareNames phase
    next =>
      cases stepped
  | exchange =>
    rw [step] at stepped
    split at stepped
    next ruleSet phase =>
      rcases Option.map_eq_some_iff.mp stepped with ⟨rules, moved, rfl⟩
      exact .exchange phase moved
    next =>
      cases stepped
  | rcu action =>
    by_cases quiet : ∀ reclaim, action ≠ .exchange reclaim
    · rw [step] at stepped
      · rcases Option.map_eq_some_iff.mp stepped with ⟨rules, moved, rfl⟩
        exact .rcu quiet moved
      · exact quiet
    · simp only [not_forall, not_not] at quiet
      rcases quiet with ⟨reclaim, rfl⟩
      cases stepped
  | finish =>
    rw [step] at stepped
    split at stepped
    next version reclaimed phase writer =>
      rcases Option.some.inj stepped with rfl
      exact .finish phase
    next =>
      cases stepped

end ControlPlane

end Policyd
