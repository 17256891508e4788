import Policyd.ControlPlane
import Policyd.CompiledTable

namespace Policyd

/-!
# Reloads are atomic and keep plan ids

One invariant covers the three ways a call can end.  Versions are drawn before
the outcome is known, so every drawn version is larger than every live one; the
comparison of plan names with the live rule set alone is enough, because being
an initial part is transitive.
-/

/-- The number of calls after which version numbers repeat. -/
def kVersionWrap : Nat := 2 ^ 32

theorem changedPlan_eq_none_iff {oldNames newNames : List Str} :
    changedPlan oldNames newNames = none ↔ oldNames <+: newNames := by
  rw [changedPlan, List.find?_eq_none, List.prefix_iff_getElem?]
  constructor
  · intro unchanged slot inside
    have member : (oldNames[slot], slot) ∈ oldNames.zipIdx := by
      rw [List.mk_mem_zipIdx_iff_getElem?]
      exact List.getElem?_eq_getElem inside
    simpa using unchanged _ member
  · rintro initial ⟨name, slot⟩ member
    rw [List.mk_mem_zipIdx_iff_getElem?, List.getElem?_eq_some_iff] at member
    rcases member with ⟨inside, rfl⟩
    simp [initial slot inside]

/-- All calls have been counted, and the recorded version is the live one. -/
def ReloadStats.Settled (stats : ReloadStats) (live : RuleSet) : Prop :=
  stats.attempts = stats.successes + stats.failures ∧
    stats.currentVersion = live.version

/-- A call is counted as an attempt but its outcome is not counted yet. -/
def ReloadStats.Counting (stats : ReloadStats) : Prop :=
  stats.attempts = stats.successes + stats.failures + 1

/-- What was live when the call began still is. -/
def CallStart.Kept (atCall : CallStart) (stats : ReloadStats) (live : RuleSet) :
    Prop :=
  atCall.live = some live ∧ atCall.currentVersion = stats.currentVersion

/-- What was live when the call began had a smaller version. -/
def CallStart.Advanced (atCall : CallStart) (live : RuleSet) : Prop :=
  ∃ before, atCall.live = some before ∧ before.version < live.version

/-- A rule set that may become live: its version was drawn by this call. -/
structure Candidate
    (stats : ReloadStats)
    (atCall : CallStart)
    (calls : Nat)
    (live ruleSet : RuleSet) :
    Prop where
  counting : stats.Counting
  recorded : stats.currentVersion = live.version
  kept : atCall.Kept stats live
  drawn : ruleSet.version.toNat = calls
  newer : live.version < ruleSet.version
  plansCounted : ruleSet.planCount = ruleSet.planNames.length

namespace ControlPlane

variable {Reader : Type} {maxReaders : Nat}

/-- What holds in each phase of a call. -/
def PhaseOk (control : ControlPlane Reader maxReaders) (live : RuleSet) :
    Prop :=
  match control.reload with
  | .returned none => control.stats.Settled live
  | .returned (some false) =>
    control.stats.Settled live ∧ control.atCall.Kept control.stats live
  | .returned (some true) =>
    control.stats.Settled live ∧ control.atCall.Advanced live
  | .compiled ruleSet =>
    Candidate control.stats control.atCall control.calls live ruleSet
  | .checked ruleSet =>
    Candidate control.stats control.atCall control.calls live ruleSet ∧
      live.planNames <+: ruleSet.planNames
  | .swapping version =>
    control.stats.Counting ∧
      version = live.version ∧
      control.atCall.Advanced live

/-- What holds in every phase, for the rule set that is live. -/
structure Coherent
    (first live : RuleSet)
    (control : ControlPlane Reader maxReaders) :
    Prop where
  isLive : control.live = some live
  numbered : control.rules.published = control.snapshots.length
  drawn : control.nextVersion = UInt32.ofNat (control.calls + 1)
  bounded : live.version.toNat ≤ control.calls
  plansKept : first.planNames <+: live.planNames
  plansCounted : live.planCount = live.planNames.length
  seenOrdered :
    ∀ reader,
      (control.seen reader).Pairwise fun later earlier => earlier ≤ later
  seenBelow :
    ∀ reader, ∀ version ∈ control.seen reader, version ≤ live.version

/-- The invariant of the control plane. -/
structure Consistent
    (first live : RuleSet)
    (control : ControlPlane Reader maxReaders) :
    Prop extends Coherent first live control where
  phaseOk : control.PhaseOk live

variable
  {first live : RuleSet}
  {control : ControlPlane Reader maxReaders}

theorem calls_compile (rulesPath : Str) (files : Str → Option Str) :
    (control.compile rulesPath files).calls = control.calls + 1 := by
  rw [compile]
  split <;> rfl

theorem calls_compareNames (ruleSet : RuleSet) :
    (control.compareNames ruleSet).calls = control.calls := by
  rw [compareNames]
  split
  · rfl
  · split <;> rfl

variable (coherent : Coherent first live control)

include coherent

theorem Coherent.version_drawn (few : control.calls + 1 < kVersionWrap) :
    control.nextVersion.toNat = control.calls + 1 := by
  rw [coherent.drawn]
  exact UInt32.toNat_ofNat_of_lt' few

theorem Coherent.beginCall :
    Coherent first live control.beginCall where
  __ := coherent
  drawn := by
    change control.nextVersion + 1 = _
    rw [coherent.drawn, ← UInt32.ofNat_one, ← UInt32.ofNat_add]
    rfl
  bounded := Nat.le_succ_of_le coherent.bounded

theorem Coherent.setReload (reload : ReloadPhase) :
    Coherent first live { control with reload := reload } :=
  { coherent with }

theorem Coherent.fail (counting : control.stats.Counting)
    (recorded : control.stats.currentVersion = live.version)
    (kept : control.atCall.Kept control.stats live) (error : Str) :
    Consistent first live (control.fail error) where
  toCoherent := { coherent with }
  phaseOk := by
    refine ⟨⟨?_, recorded⟩, kept⟩
    rw [ReloadStats.Counting] at counting
    exact counting.trans (UInt64.add_assoc _ _ 1)

omit coherent

namespace Consistent

variable (consistent : Consistent first live control)

include consistent

theorem settled
    {result : Option Bool} (phase : control.reload = .returned result) :
    control.stats.Settled live := by
  have ok := consistent.phaseOk
  rw [PhaseOk, phase] at ok
  cases result with
  | none => exact ok
  | some result => cases result <;> exact ok.1

/-- The file of a call has been compiled, or the call has failed. -/
theorem compile {result : Option Bool}
    (phase : control.reload = .returned result)
    (few : control.calls + 1 < kVersionWrap) (rulesPath : Str)
    (files : Str → Option Str) :
    Consistent first live (control.compile rulesPath files) := by
  have settled := consistent.settled phase
  have counting : control.beginCall.stats.Counting := congrArg (· + 1) settled.1
  have kept : control.beginCall.atCall.Kept control.beginCall.stats live :=
    ⟨consistent.isLive, rfl⟩
  rw [ControlPlane.compile]
  split
  next ruleSet accepted isRuleSet =>
    rcases compileRulesFromFile_plans isRuleSet with
      ⟨version, plansCounted, _⟩
    have drawn := consistent.version_drawn few
    exact
      { toCoherent := consistent.beginCall.setReload (.compiled ruleSet)
        phaseOk :=
          { counting := counting
            recorded := settled.2
            kept := kept
            drawn := by
              rw [version]
              exact drawn
            newer := by
              rw [UInt32.lt_iff_toNat_lt, version, drawn]
              exact Nat.lt_succ_of_le consistent.bounded
            plansCounted := plansCounted } }
  next =>
    exact consistent.beginCall.fail counting settled.2 kept _

/-- The plan names have been compared, or the call has failed. -/
theorem compareNames
    {ruleSet : RuleSet} (phase : control.reload = .compiled ruleSet) :
    Consistent first live (control.compareNames ruleSet) := by
  have candidate := consistent.phaseOk
  rw [PhaseOk, phase] at candidate
  rw [ControlPlane.compareNames, consistent.isLive]
  dsimp only
  split
  next unchanged =>
    exact
      { toCoherent := consistent.toCoherent.setReload (.checked ruleSet)
        phaseOk :=
          ⟨candidate, changedPlan_eq_none_iff.mp unchanged⟩ }
  next =>
    exact consistent.toCoherent.fail candidate.counting
      candidate.recorded candidate.kept _

theorem finish {version : UInt32} (phase : control.reload = .swapping version) :
    Consistent first live (control.finish version) := by
  have ok := consistent.phaseOk
  rw [PhaseOk, phase] at ok
  rcases ok with ⟨counting, isVersion, advanced⟩
  refine ⟨{ consistent.toCoherent with }, ⟨?_, isVersion⟩, advanced⟩
  change control.stats.attempts =
    control.stats.successes + 1 + control.stats.failures
  rw [counting]
  ac_rfl

variable [DecidableEq Reader]

/-- The candidate has become live. -/
theorem exchange {ruleSet : RuleSet} (phase : control.reload = .checked ruleSet)
    {rules : Rcu.Domain Reader maxReaders}
    (stepped : control.rules.step (.exchange true) = some rules) :
    Consistent first ruleSet
      { control with
        rules := rules
        snapshots := control.snapshots ++ [ruleSet]
        reload := .swapping ruleSet.version } := by
  have ok := consistent.phaseOk
  rw [PhaseOk, phase] at ok
  rcases ok with ⟨candidate, plansKept⟩
  rcases (Rcu.Domain.moves_of_step stepped).exchange_current with
    ⟨current, published⟩
  exact
    { isLive := by
        rw [ControlPlane.live, current, consistent.numbered]
        exact List.getElem?_concat_length
      numbered := by
        rw [published, consistent.numbered, List.length_append,
          List.length_singleton]
      drawn := consistent.drawn
      bounded := Nat.le_of_eq candidate.drawn
      plansKept := consistent.plansKept.trans plansKept
      plansCounted := candidate.plansCounted
      seenOrdered := consistent.seenOrdered
      seenBelow := fun reader version member =>
        UInt32.le_of_lt
          (UInt32.lt_of_le_of_lt
            (consistent.seenBelow reader version member) candidate.newer)
      phaseOk :=
        ⟨candidate.counting, rfl, live, candidate.kept.1, candidate.newer⟩ }

/-- A thread has read the live version or nothing. -/
theorem note_cases (action : Rcu.Action Reader maxReaders) (reader : Reader) :
    control.note action reader = control.seen reader ∨
      control.note action reader = live.version :: control.seen reader := by
  cases action with
  | loadCurrent other =>
    rw [note, Function.update_apply, consistent.isLive]
    by_cases same : reader = other
    · rw [if_pos same, same]
      exact .inr rfl
    · rw [if_neg same]
      exact .inl rfl
  | _ => exact .inl rfl

/-- A thread has done something other than to publish. -/
theorem rcu {action : Rcu.Action Reader maxReaders}
    {rules : Rcu.Domain Reader maxReaders}
    (quiet : ∀ reclaim, action ≠ .exchange reclaim)
    (stepped : control.rules.step action = some rules) :
    Consistent first live
      { control with rules := rules, seen := control.note action } := by
  rcases (Rcu.Domain.moves_of_step stepped).current_eq quiet with
    ⟨current, published⟩
  have isLive :
      ControlPlane.live
          { control with rules := rules, seen := control.note action } =
        some live := by
    rw [← consistent.isLive, ControlPlane.live, ControlPlane.live, current]
  exact
    { consistent with
      isLive := isLive
      numbered := published.trans consistent.numbered
      seenOrdered := by
        intro reader
        change (control.note action reader).Pairwise _
        rcases consistent.note_cases action reader with same | grown
        · rw [same]
          exact consistent.seenOrdered reader
        · rw [grown, List.pairwise_cons]
          exact ⟨consistent.seenBelow reader, consistent.seenOrdered reader⟩
      seenBelow := by
        intro reader version member
        change version ∈ control.note action reader at member
        rcases consistent.note_cases action reader with same | grown
        · rw [same] at member
          exact consistent.seenBelow reader version member
        · rw [grown] at member
          rcases List.mem_cons.mp member with rfl | earlier
          · exact UInt32.le_refl _
          · exact consistent.seenBelow reader version earlier
      phaseOk := consistent.phaseOk }

/-- Every action keeps the invariant, possibly for another live rule set. -/
theorem step {rulesPath : Str} {next : ControlPlane Reader maxReaders}
    {action : ControlAction Reader maxReaders}
    (stepped : control.step rulesPath action = some next)
    (few : next.calls < kVersionWrap) :
    ∃ nextLive, Consistent first nextLive next := by
  cases moves_of_step stepped with
  | compile files phase =>
    have oneMore : control.calls + 1 < kVersionWrap := by
      rw [calls_compile] at few
      exact few
    exact ⟨live, consistent.compile phase oneMore rulesPath files⟩
  | compareNames phase => exact ⟨live, consistent.compareNames phase⟩
  | exchange phase exchanged =>
    exact ⟨_, consistent.exchange phase exchanged⟩
  | rcu quiet moved => exact ⟨live, consistent.rcu quiet moved⟩
  | finish phase => exact ⟨live, consistent.finish phase⟩

end Consistent

/-- The first rule set is live and nothing has been reloaded. -/
theorem published_consistent {ruleSet : RuleSet} (version : ruleSet.version = 1)
    (plansCounted : ruleSet.planCount = ruleSet.planNames.length)
    (store : SubscriberStore) :
    Consistent ruleSet ruleSet
      (published ruleSet store : ControlPlane Reader maxReaders) where
  isLive := rfl
  numbered := rfl
  drawn := rfl
  bounded := by
    rw [version]
    exact Nat.le_refl 1
  plansKept := List.prefix_rfl
  plansCounted := plansCounted
  seenOrdered := fun _ => List.Pairwise.nil
  seenBelow := nofun
  phaseOk := ⟨rfl, rfl⟩

/-- What a successful start leaves. -/
theorem initializeFrom_ok {config : ControlConfig} {files : Str → Option Str}
    {initial : ControlPlane Reader maxReaders}
    (started : initializeFrom config files = some (.ok initial)) :
    ∃ ruleSet store,
      initial = published ruleSet store ∧
        ruleSet.version = 1 ∧
        ruleSet.planCount = ruleSet.planNames.length ∧
        StoreInvariant store ∧
        PlansListed ruleSet.planNames store := by
  rw [initializeFrom] at started
  dsimp only at started
  split at started
  next ruleSet accepted isRuleSet =>
    rcases compileRulesFromFile_plans isRuleSet with
      ⟨version, plansCounted, few⟩
    split at started
    next noRoster =>
      rcases Except.ok.inj (Option.some.inj started) with rfl
      rcases SubscriberStore.create_invariant _ kDefaultLoadFactor with
        ⟨invariant, empty⟩
      refine ⟨ruleSet, _, rfl, version, plansCounted, invariant, ?_⟩
      intro imsi record found
      rw [empty] at found
      cases found
    next roster =>
      rcases loadCsv_create_spec few _ kDefaultLoadFactor
          config.subscribersPath (files config.subscribersPath) with
        ⟨store, result, loaded, invariant, listed⟩
      rw [loaded, Option.map_some] at started
      dsimp only at started
      split at started
      · rcases Except.ok.inj (Option.some.inj started) with rfl
        exact ⟨ruleSet, store, rfl, version, plansCounted, invariant, listed⟩
      · cases Option.some.inj started
  next =>
    cases Option.some.inj started

/-- A plan id of the roster names the same plan in every live rule set. -/
theorem Consistent.plan_kept
    {first live : RuleSet} {control : ControlPlane Reader maxReaders}
    (consistent : Consistent first live control)
    {store : SubscriberStore}
    (invariant : StoreInvariant store)
    (listed : PlansListed first.planNames store)
    {imsi : UInt64} {record : SubscriberRecord}
    (found : store.find imsi = some (some record)) :
    record.planId.toNat < live.planCount ∧
      ∃ name,
        first.planNames[record.planId.toNat]? = some name ∧
          live.planNames[record.planId.toNat]? = some name := by
  rw [invariant.find_eq] at found
  have inside := listed imsi record (Option.some.inj found)
  have kept := List.prefix_iff_getElem?.mp consistent.plansKept _ inside
  refine ⟨?_, _, List.getElem?_eq_getElem inside, kept⟩
  rw [consistent.plansCounted]
  exact (List.getElem?_eq_some_iff.mp kept).1

variable [DecidableEq Reader]

/-- What no action changes, and what none takes back. -/
theorem frame_of_step
    {rulesPath : Str} {control next : ControlPlane Reader maxReaders}
    {action : ControlAction Reader maxReaders}
    (stepped : control.step rulesPath action = some next) :
    next.store = control.store ∧ control.calls ≤ next.calls := by
  cases moves_of_step stepped with
  | compile files phase =>
    refine ⟨?_, ?_⟩
    · rw [compile]
      split <;> rfl
    · rw [calls_compile]
      exact Nat.le_succ _
  | compareNames phase =>
    refine ⟨?_, ?_⟩
    · rw [compareNames]
      split
      · rfl
      · split <;> rfl
    · rw [calls_compareNames]
  | exchange phase exchanged => exact ⟨rfl, Nat.le_refl _⟩
  | rcu quiet moved => exact ⟨rfl, Nat.le_refl _⟩
  | finish phase => exact ⟨rfl, Nat.le_refl _⟩

/-- The invariant along every run in which versions do not repeat. -/
theorem consistent_of_run {rulesPath : Str} {first : RuleSet}
    {initial control : ControlPlane Reader maxReaders}
    (start : Consistent first first initial)
    {actions : List (ControlAction Reader maxReaders)}
    (ran : runActions (step rulesPath) initial actions = some control)
    (few : control.calls < kVersionWrap) :
    control.store = initial.store ∧ ∃ live, Consistent first live control := by
  have invariant :
      control.store = initial.store ∧
        (control.calls < kVersionWrap →
          ∃ live, Consistent first live control) := by
    refine invariant_of_run
      (fun state =>
        state.store = initial.store ∧
          (state.calls < kVersionWrap → ∃ live, Consistent first live state))
      ?_ (fun _ _ => trivial) ⟨rfl, fun _ => ⟨first, start⟩⟩ ran
    intro state next action _ holds stepped
    rcases frame_of_step stepped with ⟨sameStore, callsGrow⟩
    refine ⟨sameStore.trans holds.1, fun fewNext => ?_⟩
    rcases holds.2 (Nat.lt_of_le_of_lt callsGrow fewNext) with
      ⟨live, consistent⟩
    exact consistent.step stepped fewNext
  exact ⟨invariant.1, invariant.2 few⟩

/--
Reloads are atomic and never change the plan of a subscriber.  After a
successful start and any interleaving of calls and readers, with fewer calls
than there are versions:
a call that returned false left what was live and the recorded version as they
were; a call that returned true made a rule set with a larger version live;
between calls the counters add up and the recorded version is the live one; the
plan names of the start begin the live ones, and every subscriber of the roster
keeps a plan id below the plan count that names the same plan; and the versions
that a thread read never decreased.
-/
theorem reload_atomic_and_plans_kept
    {config : ControlConfig}
    {files : Str → Option Str}
    {initial control : ControlPlane Reader maxReaders}
    (started : initializeFrom config files = some (.ok initial))
    {actions : List (ControlAction Reader maxReaders)}
    (ran :
      runActions (step config.rulesPath) initial actions = some control)
    (few : control.calls < kVersionWrap) :
    ∃ first live,
      initial.live = some first ∧
        control.live = some live ∧
        (control.reload = .returned (some false) →
          control.atCall.live = some live ∧
            control.atCall.currentVersion = control.stats.currentVersion) ∧
        (control.reload = .returned (some true) →
          ∃ before,
            control.atCall.live = some before ∧
              before.version < live.version) ∧
        (∀ result,
          control.reload = .returned result →
          control.stats.attempts =
              control.stats.successes + control.stats.failures ∧
            control.stats.currentVersion = live.version) ∧
        first.planNames <+: live.planNames ∧
        (∀ imsi record,
          control.store.find imsi = some (some record) →
          record.planId.toNat < live.planCount ∧
            ∃ name,
              first.planNames[record.planId.toNat]? = some name ∧
                live.planNames[record.planId.toNat]? = some name) ∧
        ∀ reader,
          (control.seen reader).Pairwise
            fun later earlier => earlier ≤ later := by
  rcases initializeFrom_ok started with
    ⟨first, store, rfl, version, plansCounted, invariant, listed⟩
  rcases consistent_of_run
      (published_consistent version plansCounted store) ran few with
    ⟨sameStore, live, consistent⟩
  refine ⟨first, live, rfl, consistent.isLive, ?_, ?_, ?_,
    consistent.plansKept, ?_, consistent.seenOrdered⟩
  · intro phase
    have ok := consistent.phaseOk
    rw [PhaseOk, phase] at ok
    exact ok.2
  · intro phase
    have ok := consistent.phaseOk
    rw [PhaseOk, phase] at ok
    exact ok.2
  · exact fun result phase => consistent.settled phase
  · intro imsi record found
    rw [sameStore] at found
    exact consistent.plan_kept invariant listed found

/-- A rules file with one plan. -/
def onePlanFile : Str :=
  ("dnns: []\nplans:\n  - name: a\nrules:\n  - id: 1\n" ++
    "    priority: 1\n    action:\n      verdict: DENY\n").toList

/-- The file with another plan behind the first one. -/
def twoPlansFile : Str :=
  ("dnns: []\nplans:\n  - name: a\n  - name: b\nrules:\n  - id: 1\n" ++
    "    priority: 1\n    action:\n      verdict: DENY\n").toList

/-- A server without a roster. -/
def ruleConfig : ControlConfig :=
  { rulesPath := "rules".toList
    subscribersPath := []
    expectedSubscribers := 4 }

/--
A reader reads, a second plan is added, the reader reads again, and going back
to one plan is refused.
-/
def addPlanThenRemoveIt : List (ControlAction (Fin 1) 1) :=
  [.rcu (.loadEpoch (Fin.last 0) (Fin.last 0)),
    .rcu (.storeEpoch (Fin.last 0)), .rcu (.loadCurrent (Fin.last 0)),
    .compile fun _ => some twoPlansFile, .compareNames, .exchange,
    .rcu .bumpEpoch, .rcu .loadTarget, .rcu (.release (Fin.last 0)),
    .rcu .scan, .rcu .scan, .rcu .deleteOld, .rcu .finish, .finish,
    .rcu (.loadEpoch (Fin.last 0) (Fin.last 0)),
    .rcu (.storeEpoch (Fin.last 0)), .rcu (.loadCurrent (Fin.last 0)),
    .compile fun _ => some onePlanFile, .compareNames]

/-- Whether the last call was refused. -/
def isRefused : ReloadPhase → Bool
  | .returned (some false) => true
  | _ => false

/-- Whether a server starts and comes through a run with a property. -/
def comesThrough
    (started : Option (Except Str (ControlPlane Reader maxReaders)))
    (actions : List (ControlAction Reader maxReaders))
    (test : ControlPlane Reader maxReaders → Bool) :
    Bool :=
  match started with
  | some (.ok initial) =>
    (runActions (step ruleConfig.rulesPath) initial actions).any test
  | _ => false

/-- The start and the end of such a run. -/
theorem exists_of_comesThrough
    {started : Option (Except Str (ControlPlane Reader maxReaders))}
    {actions : List (ControlAction Reader maxReaders)}
    {test : ControlPlane Reader maxReaders → Bool}
    (passed : comesThrough started actions test = true) :
    ∃ initial control,
      started = some (.ok initial) ∧
        runActions (step ruleConfig.rulesPath) initial actions = some control ∧
        test control = true := by
  unfold comesThrough at passed
  split at passed
  next initial =>
    rcases (Option.any_eq_true _ _).mp passed with ⟨control, ran, tested⟩
    exact ⟨initial, control, rfl, ran, tested⟩
  next => cases passed

/-- The refused call left version 2 live. -/
theorem reload_atomic_and_plans_kept_refused_removal :
    ∃ (initial control : ControlPlane (Fin 1) 1) (live : RuleSet),
      initializeFrom ruleConfig (fun _ => some onePlanFile) =
          some (.ok initial) ∧
        runActions (step ruleConfig.rulesPath) initial
            addPlanThenRemoveIt =
          some control ∧
        control.seen 0 = [2, 1] ∧
        control.live = some live ∧
        live.version = 2 := by
  have passed :
      comesThrough
        (initializeFrom ruleConfig fun _ => some onePlanFile)
        addPlanThenRemoveIt
        (fun control =>
          control.seen 0 == [2, 1] && control.calls == 3 &&
            control.stats.currentVersion == 2 &&
            isRefused control.reload) = true := by
    decide +kernel
  rcases exists_of_comesThrough passed with
    ⟨initial, control, started, ran, tested⟩
  simp only [Bool.and_eq_true, beq_iff_eq] at tested
  rcases tested with ⟨⟨⟨seen, calls⟩, version⟩, returned⟩
  rcases reload_atomic_and_plans_kept started ran
      (by rw [calls]; decide) with
    ⟨first, live, _, isLive, _, _, settled, _⟩
  unfold isRefused at returned
  split at returned
  next phase =>
    exact ⟨initial, control, live, started, ran, seen, isLive,
      (settled _ phase).2.symm.trans version⟩
  next => cases returned

end ControlPlane

end Policyd
