import Policyd.ReloadSafety

namespace Policyd

/-!
# The rules watcher

`watch_loop` polls the modification time of the rules file and reloads when it
differs from the watermark.  The file may be edited between any two steps of
`initialize`, of the watcher and of a posted reload; an edit gives it a later
modification time.  `reads` lists the texts that were read, as history.
-/

/-- The rules file: its text and the time of its last edit. -/
structure RulesFile where
  content : Str
  mtime : UInt64
  deriving Repr, DecidableEq

/-- Where `initialize` stands; it keeps the plan names until it returns. -/
inductive StartPhase where
  | entered
  | compiled (planNames : List Str)
  | stamped (planNames : List Str)
  | returned (error : Option Str)
  deriving Repr, DecidableEq

/-- Where a pass of `watch_loop` stands, with the time it polled. -/
inductive WatcherPhase where
  | sleeping
  | noticed (mtime : UInt64)
  | reloading (mtime : UInt64)
  | reloaded (mtime : UInt64)
  deriving Repr, DecidableEq

/-- The control plane with its rules file and its watcher. -/
structure Watched (Reader : Type) (maxReaders : Nat) where
  file : RulesFile
  start : StartPhase := .entered
  control : Option (ControlPlane Reader maxReaders) := none
  lastSeenMtime : UInt64 := 0
  watcher : WatcherPhase := .sleeping
  reads : List Str := []

/-- One atomic action of the machine. -/
inductive WatchAction (Reader : Type) (maxReaders : Nat) where
  | edit (content : Str) (mtime : UInt64)
  | compileFirst
  | stampFirst
  | loadRoster
  | pollMtime
  | compileNoticed
  | compilePosted
  | reload (action : ControlAction Reader maxReaders)
  | updateWatermark

/-- The subscriber store the control plane is constructed with. -/
def ControlConfig.freshStore (config : ControlConfig) : SubscriberStore :=
  SubscriberStore.create
    (if config.expectedSubscribers ≠ 0 then
      config.expectedSubscribers
    else
      1024)
    kDefaultLoadFactor

namespace Watched

variable {Reader : Type} {maxReaders : Nat}

section Steps

variable (config : ControlConfig) (files : Str → Option Str)

/-- The files of the machine, with the rules file as it is now. -/
def filesNow (watched : Watched Reader maxReaders) (path : Str) :
    Option Str :=
  if path = config.rulesPath then
    some watched.file.content
  else
    files path

/-- A compile attempt has read the file. -/
def recordRead (watched : Watched Reader maxReaders) :
    Watched Reader maxReaders :=
  { watched with reads := watched.file.content :: watched.reads }

/-- The first part of `initialize`: compile the rules and publish them. -/
def compileFirst (watched : Watched Reader maxReaders) :
    Watched Reader maxReaders :=
  let compiled :=
    compileRulesFromFile (watched.filesNow config files) config.rulesPath 1
  match compiled.ok, compiled.ruleSet with
  | true, some ruleSet =>
    { watched.recordRead with
      start := .compiled ruleSet.planNames
      control :=
        some (ControlPlane.published ruleSet config.freshStore) }
  | _, _ =>
    { watched.recordRead with
      start :=
        .returned
          (some
            ("cannot compile ".toList ++ config.rulesPath ++
              ": ".toList ++ compiled.errorSummary)) }

/-- The second part of `initialize`: sample the modification time. -/
def stampFirst (watched : Watched Reader maxReaders) (planNames : List Str) :
    Watched Reader maxReaders :=
  { watched with
    start := .stamped planNames
    lastSeenMtime := watched.file.mtime }

/-- The last part of `initialize`: load the roster, if there is one. -/
def loadRoster
    (watched : Watched Reader maxReaders)
    (control : ControlPlane Reader maxReaders) (planNames : List Str) :
    Option (Watched Reader maxReaders) :=
  if config.subscribersPath = [] then
    some { watched with start := .returned none }
  else
    (control.store.loadCsv config.subscribersPath
        (watched.filesNow config files config.subscribersPath)
        planNames).map
      fun (store, result) =>
        { watched with
          control := some { control with store := store }
          start :=
            .returned
              (if result.ok then
                none
              else
                some
                  ("subscriber file has ".toList ++
                    decimal result.skipped ++ " bad row(s)".toList)) }

/-- The control plane once `initialize` has returned without an error. -/
def running (watched : Watched Reader maxReaders) :
    Option (ControlPlane Reader maxReaders) :=
  match watched.start with
  | .returned none => watched.control
  | _ => none

/-- The control plane moved on; the watcher's call may have returned. -/
def moveControl
    (watched : Watched Reader maxReaders)
    (control : ControlPlane Reader maxReaders) :
    Watched Reader maxReaders :=
  { watched with
    control := some control
    watcher :=
      match watched.watcher, control.reload with
      | .reloading mtime, .returned _ => .reloaded mtime
      | phase, _ => phase }

/-- The watcher reads the modification time; `0` means there is no file. -/
def pollMtime (watched : Watched Reader maxReaders) :
    Watched Reader maxReaders :=
  if watched.file.mtime = 0 ∨
      watched.file.mtime = watched.lastSeenMtime then
    watched
  else
    { watched with watcher := .noticed watched.file.mtime }

/-- The watermark is what the watcher polled, whatever the reload said. -/
def updateWatermark (watched : Watched Reader maxReaders) (mtime : UInt64) :
    Watched Reader maxReaders :=
  { watched with
    lastSeenMtime := mtime
    watcher := .sleeping }

variable [DecidableEq Reader]

/-- One action, if it is enabled. -/
def step (watched : Watched Reader maxReaders) :
    WatchAction Reader maxReaders → Option (Watched Reader maxReaders)
  | .edit content mtime =>
    if watched.file.mtime < mtime then
      some { watched with file := { content := content, mtime := mtime } }
    else
      none
  | .compileFirst =>
    match watched.start with
    | .entered => some (watched.compileFirst config files)
    | _ => none
  | .stampFirst =>
    match watched.start with
    | .compiled planNames => some (watched.stampFirst planNames)
    | _ => none
  | .loadRoster =>
    match watched.start, watched.control with
    | .stamped planNames, some control =>
      watched.loadRoster config files control planNames
    | _, _ => none
  | .pollMtime =>
    match watched.running, watched.watcher with
    | some _, .sleeping => some watched.pollMtime
    | _, _ => none
  | .compileNoticed =>
    match watched.running, watched.watcher with
    | some control, .noticed mtime =>
      (control.step config.rulesPath
          (.compile (watched.filesNow config files))).map fun next =>
        { watched.recordRead with
          watcher := .reloading mtime }.moveControl next
    | _, _ => none
  | .compilePosted =>
    watched.running.bind fun control =>
      (control.step config.rulesPath
          (.compile (watched.filesNow config files))).map
        watched.recordRead.moveControl
  | .reload (.compile _) => none
  | .reload action =>
    watched.running.bind fun control =>
      (control.step config.rulesPath action).map watched.moveControl
  | .updateWatermark =>
    match watched.watcher with
    | .reloaded mtime => some (watched.updateWatermark mtime)
    | _ => none

end Steps

/-- What each action can do, with the phases it starts from. -/
inductive Moves
    (config : ControlConfig)
    (files : Str → Option Str)
    (watched : Watched Reader maxReaders) :
    WatchAction Reader maxReaders → Watched Reader maxReaders → Prop
  | edit {content mtime}
      (later : watched.file.mtime < mtime) :
      Moves config files watched (.edit content mtime)
        { watched with file := { content := content, mtime := mtime } }
  | compileFirst
      (entered : watched.start = .entered) :
      Moves config files watched .compileFirst
        (watched.compileFirst config files)
  | stampFirst {planNames}
      (compiled : watched.start = .compiled planNames) :
      Moves config files watched .stampFirst (watched.stampFirst planNames)
  | loadRoster {planNames control error}
      (stamped : watched.start = .stamped planNames) :
      Moves config files watched .loadRoster
        { watched with control := control, start := .returned error }
  | pollMtime {control}
      (isRunning : watched.running = some control)
      (asleep : watched.watcher = .sleeping) :
      Moves config files watched .pollMtime watched.pollMtime
  | compileNoticed {control mtime next}
      (isRunning : watched.running = some control)
      (noticed : watched.watcher = .noticed mtime) :
      Moves config files watched .compileNoticed
        ({ watched.recordRead with
            watcher := .reloading mtime }.moveControl next)
  | compilePosted {control next}
      (isRunning : watched.running = some control) :
      Moves config files watched .compilePosted
        (watched.recordRead.moveControl next)
  | reload {action control next}
      (isRunning : watched.running = some control) :
      Moves config files watched (.reload action) (watched.moveControl next)
  | updateWatermark {mtime}
      (reloaded : watched.watcher = .reloaded mtime) :
      Moves config files watched .updateWatermark
        (watched.updateWatermark mtime)

section Runs

variable {config : ControlConfig} {files : Str → Option Str}
variable {watched next : Watched Reader maxReaders}

variable {control : ControlPlane Reader maxReaders} {planNames : List Str}
  {action : WatchAction Reader maxReaders} {file : RulesFile}

/-- Loading the roster ends `initialize` and touches nothing else here. -/
theorem moves_of_loadRoster (stamped : watched.start = .stamped planNames)
    (loaded : watched.loadRoster config files control planNames = some next) :
    watched.Moves config files .loadRoster next := by
  unfold loadRoster at loaded
  by_cases noRoster : config.subscribersPath = []
  · rw [if_pos noRoster] at loaded
    rcases Option.some.inj loaded with rfl
    exact .loadRoster stamped
  · rw [if_neg noRoster] at loaded
    rcases Option.map_eq_some_iff.mp loaded with ⟨outcome, _, rfl⟩
    exact .loadRoster stamped

/-- Every action does one of these. -/
theorem moves_of_step [DecidableEq Reader]
    (stepped : watched.step config files action = some next) :
    watched.Moves config files action next := by
  cases action with
  | edit content mtime =>
    rw [step] at stepped
    by_cases later : watched.file.mtime < mtime
    · rw [if_pos later] at stepped
      rcases Option.some.inj stepped with rfl
      exact .edit later
    · rw [if_neg later] at stepped
      cases stepped
  | compileFirst =>
    rw [step] at stepped
    split at stepped
    next entered =>
      rcases Option.some.inj stepped with rfl
      exact .compileFirst entered
    next => cases stepped
  | stampFirst =>
    rw [step] at stepped
    split at stepped
    next planNames compiled =>
      rcases Option.some.inj stepped with rfl
      exact .stampFirst compiled
    next => cases stepped
  | loadRoster =>
    rw [step] at stepped
    split at stepped
    next planNames control stamped _ =>
      exact moves_of_loadRoster stamped stepped
    next => cases stepped
  | pollMtime =>
    rw [step] at stepped
    split at stepped
    next control isRunning asleep =>
      rcases Option.some.inj stepped with rfl
      exact .pollMtime isRunning asleep
    next => cases stepped
  | compileNoticed =>
    rw [step] at stepped
    split at stepped
    next control mtime isRunning noticed =>
      rcases Option.map_eq_some_iff.mp stepped with ⟨_, _, rfl⟩
      exact .compileNoticed isRunning noticed
    next => cases stepped
  | compilePosted =>
    rcases Option.bind_eq_some_iff.mp stepped with
      ⟨control, isRunning, moved⟩
    rcases Option.map_eq_some_iff.mp moved with ⟨_, _, rfl⟩
    exact .compilePosted isRunning
  | reload action =>
    by_cases goesOn : ∀ files, action ≠ .compile files
    · rw [step] at stepped
      · rcases Option.bind_eq_some_iff.mp stepped with
          ⟨control, isRunning, moved⟩
        rcases Option.map_eq_some_iff.mp moved with ⟨_, _, rfl⟩
        exact .reload isRunning
      · exact goesOn
    · simp only [not_forall, not_not] at goesOn
      rcases goesOn with ⟨_, rfl⟩
      cases stepped
  | updateWatermark =>
    rw [step] at stepped
    split at stepped
    next mtime reloaded =>
      rcases Option.some.inj stepped with rfl
      exact .updateWatermark reloaded
    next => cases stepped

/--
The text was read unless an edit came after a time.  Edits have later times, so
a time that is no longer current never becomes current again.
-/
def Covers (watched : Watched Reader maxReaders) (mtime : UInt64) : Prop :=
  mtime ≤ watched.file.mtime ∧
    (mtime = watched.file.mtime → watched.file.content ∈ watched.reads)

theorem Covers.edit {mtime : UInt64}
    (covers : watched.Covers mtime) (later : watched.file.mtime < file.mtime) :
    Covers { watched with file := file } mtime := by
  have before : mtime < file.mtime := UInt64.lt_of_le_of_lt covers.1 later
  exact ⟨UInt64.le_of_lt before,
    fun same => absurd same (UInt64.ne_of_lt before)⟩

theorem Covers.recordRead {mtime : UInt64} (covers : watched.Covers mtime) :
    watched.recordRead.Covers mtime :=
  ⟨covers.1, fun _ => List.mem_cons_self⟩

/-- What was polled is not later than the file, and covered once read. -/
def PendingOk (watched : Watched Reader maxReaders) : Prop :=
  match watched.watcher with
  | .sleeping => True
  | .noticed mtime => mtime ≤ watched.file.mtime
  | .reloading mtime => watched.Covers mtime
  | .reloaded mtime => watched.Covers mtime

/-- The watermark is covered as soon as `initialize` has sampled it. -/
def MarkOk (watched : Watched Reader maxReaders) : Prop :=
  match watched.start with
  | .entered => watched.lastSeenMtime ≤ watched.file.mtime
  | .compiled _ => watched.lastSeenMtime ≤ watched.file.mtime
  | .stamped _ => watched.Covers watched.lastSeenMtime
  | .returned _ => watched.Covers watched.lastSeenMtime

/-- The watermark and the watcher are right about the file. -/
structure Tracking (watched : Watched Reader maxReaders) : Prop where
  mark : watched.MarkOk
  pending : watched.PendingOk

/-- Steps of the control plane leave the watcher right about the file. -/
theorem PendingOk.moveControl
    (pending : watched.PendingOk) (control : ControlPlane Reader maxReaders) :
    (watched.moveControl control).PendingOk := by
  unfold PendingOk at pending ⊢
  unfold Watched.moveControl
  cases phase : watched.watcher with
  | reloading mtime =>
    rw [phase] at pending
    cases control.reload <;> exact pending
  | sleeping =>
    trivial
  | noticed mtime =>
    rw [phase] at pending
    exact pending
  | reloaded mtime =>
    rw [phase] at pending
    exact pending

/-- Reading the file leaves the watcher right about it. -/
theorem PendingOk.recordRead (pending : watched.PendingOk) :
    watched.recordRead.PendingOk := by
  unfold PendingOk at pending ⊢
  unfold Watched.recordRead
  cases phase : watched.watcher with
  | sleeping => trivial
  | noticed mtime =>
    rw [phase] at pending
    exact pending
  | reloading mtime =>
    rw [phase] at pending
    exact Covers.recordRead pending
  | reloaded mtime =>
    rw [phase] at pending
    exact Covers.recordRead pending

/-- Reading the file leaves the watermark right about it. -/
theorem MarkOk.recordRead (mark : watched.MarkOk) :
    watched.recordRead.MarkOk := by
  unfold MarkOk at mark ⊢
  unfold Watched.recordRead
  cases phase : watched.start with
  | entered =>
    rw [phase] at mark
    exact mark
  | compiled _ =>
    rw [phase] at mark
    exact mark
  | stamped _ =>
    rw [phase] at mark
    exact Covers.recordRead mark
  | returned _ =>
    rw [phase] at mark
    exact Covers.recordRead mark

/-- An edit leaves the watermark and the watcher right about the file. -/
theorem Tracking.edit
    (tracking : watched.Tracking) (later : watched.file.mtime < file.mtime) :
    Tracking { watched with file := file } := by
  obtain ⟨mark, pending⟩ := tracking
  refine ⟨?_, ?_⟩
  · unfold MarkOk at mark ⊢
    cases phase : watched.start <;> rw [phase] at mark <;> dsimp only at mark ⊢
    · exact UInt64.le_of_lt (UInt64.lt_of_le_of_lt mark later)
    · exact UInt64.le_of_lt (UInt64.lt_of_le_of_lt mark later)
    · exact mark.edit later
    · exact mark.edit later
  · unfold PendingOk at pending ⊢
    cases phase : watched.watcher <;> rw [phase] at pending <;>
      dsimp only at pending ⊢
    · exact UInt64.le_of_lt (UInt64.lt_of_le_of_lt pending later)
    · exact Covers.edit pending later
    · exact Covers.edit pending later

/-- The first compile is published, or `initialize` returns its errors. -/
theorem compileFirst_cases (config : ControlConfig) (files : Str → Option Str)
    (watched : Watched Reader maxReaders) :
    (∃ ruleSet,
      (compileRulesFromFile (watched.filesNow config files)
          config.rulesPath 1).ruleSet = some ruleSet ∧
        watched.compileFirst config files =
          { watched.recordRead with
            start := .compiled ruleSet.planNames
            control :=
              some
                (ControlPlane.published ruleSet config.freshStore) }) ∨
      ∃ error,
        watched.compileFirst config files =
          { watched.recordRead with start := .returned (some error) } := by
  unfold compileFirst
  dsimp only
  split
  next ruleSet _ accepted =>
    exact .inl ⟨ruleSet, accepted, rfl⟩
  next =>
    exact .inr ⟨_, rfl⟩

/--
Every action keeps the watermark and the watcher right about the file, provided
that `initialize` samples the time of a text that was read.
-/
theorem Tracking.moves (tracking : watched.Tracking)
    (unedited : action = .stampFirst → watched.file.content ∈ watched.reads)
    (moved : watched.Moves config files action next) :
    next.Tracking := by
  cases moved with
  | edit later => exact tracking.edit later
  | compileFirst entered =>
    have mark := tracking.mark
    rw [MarkOk, entered] at mark
    rcases compileFirst_cases config files watched with
      ⟨ruleSet, _, shape⟩ | ⟨error, shape⟩
    · rw [shape]
      exact ⟨mark, tracking.pending.recordRead⟩
    · rw [shape]
      exact ⟨⟨mark, fun _ => List.mem_cons_self⟩, tracking.pending.recordRead⟩
  | stampFirst compiled =>
    exact ⟨⟨UInt64.le_refl _, fun _ => unedited rfl⟩, tracking.pending⟩
  | loadRoster stamped =>
    have mark := tracking.mark
    rw [MarkOk, stamped] at mark
    exact ⟨mark, tracking.pending⟩
  | pollMtime isRunning asleep =>
    unfold Watched.pollMtime
    split
    · exact tracking
    · exact ⟨tracking.mark, UInt64.le_refl _⟩
  | @compileNoticed _ mtime control isRunning noticed =>
    have polled := tracking.pending
    rw [PendingOk, noticed] at polled
    have covered :
        PendingOk
          { watched.recordRead with watcher := .reloading mtime } :=
      ⟨polled, fun _ => List.mem_cons_self⟩
    exact ⟨tracking.mark.recordRead, covered.moveControl control⟩
  | compilePosted isRunning =>
    exact ⟨tracking.mark.recordRead, tracking.pending.recordRead.moveControl _⟩
  | reload isRunning =>
    exact ⟨tracking.mark, tracking.pending.moveControl _⟩
  | updateWatermark reloaded =>
    have covered := tracking.pending
    rw [PendingOk, reloaded] at covered
    refine ⟨?_, trivial⟩
    unfold MarkOk Watched.updateWatermark
    cases watched.start with
    | entered => exact covered.1
    | compiled _ => exact covered.1
    | stamped _ => exact covered
    | returned _ => exact covered

/-- The machine before `initialize` is called. -/
def entered (file : RulesFile) : Watched Reader maxReaders :=
  { file := file }

/-- `initialize` has sampled the modification time, or has failed. -/
def Stamped (watched : Watched Reader maxReaders) : Prop :=
  match watched.start with
  | .entered => False
  | .compiled _ => False
  | .stamped _ => True
  | .returned _ => True

/-- `initialize` has returned. -/
def Returned (watched : Watched Reader maxReaders) : Prop :=
  ∃ error, watched.start = .returned error

/--
The property of the watcher: when it sleeps with the time of the file as its
watermark, some compile attempt has read the text of the file.
-/
def NoEditMissed (watched : Watched Reader maxReaders) : Prop :=
  watched.Returned →
    watched.watcher = .sleeping →
    watched.lastSeenMtime = watched.file.mtime →
      watched.file.content ∈ watched.reads

theorem Tracking.noEditMissed (tracking : watched.Tracking) :
    watched.NoEditMissed := by
  rintro ⟨error, returned⟩ _ current
  have mark := tracking.mark
  rw [MarkOk, returned] at mark
  exact mark.2 current

/-- A control plane runs once `initialize` has returned. -/
theorem start_of_running (isRunning : watched.running = some control) :
    watched.start = .returned none := by
  unfold running at isRunning
  split at isRunning
  next returned => exact returned
  next => cases isRunning

/-- The modification time is sampled once. -/
theorem Stamped.moves (stamped : watched.Stamped)
    (moved : watched.Moves config files action next) :
    action ≠ .stampFirst ∧ next.Stamped := by
  cases moved with
  | edit later => exact ⟨nofun, stamped⟩
  | compileFirst entered =>
    rw [Stamped, entered] at stamped
    exact stamped.elim
  | stampFirst compiled =>
    rw [Stamped, compiled] at stamped
    exact stamped.elim
  | loadRoster _ => exact ⟨nofun, trivial⟩
  | pollMtime isRunning asleep =>
    refine ⟨nofun, ?_⟩
    unfold Watched.pollMtime
    split <;> exact stamped
  | compileNoticed isRunning noticed => exact ⟨nofun, stamped⟩
  | compilePosted isRunning => exact ⟨nofun, stamped⟩
  | reload isRunning => exact ⟨nofun, stamped⟩
  | updateWatermark reloaded => exact ⟨nofun, stamped⟩

/-- What `initialize` holds between its parts. -/
structure Loading
    (config : ControlConfig)
    (watched : Watched Reader maxReaders)
    (planNames : List Str) : Prop where
  asleep : watched.watcher = .sleeping
  fewPlans : planNames.length ≤ kMaxPlans
  control :
    ∃ control, watched.control = some control ∧
      control.store = config.freshStore

/-- The watcher sleeps and the store is empty until the roster is loaded. -/
def StartOk
    (config : ControlConfig)
    (watched : Watched Reader maxReaders) : Prop :=
  match watched.start with
  | .entered => watched.watcher = .sleeping
  | .compiled planNames => watched.Loading config planNames
  | .stamped planNames => watched.Loading config planNames
  | .returned _ => True

/-- The watcher sleeps until `initialize` has returned. -/
theorem StartOk.moves (startOk : watched.StartOk config)
    (moved : watched.Moves config files action next) :
    next.StartOk config := by
  have ofReturned :
      ∀ {other : Watched Reader maxReaders} {error},
        other.start = .returned error → other.StartOk config := by
    intro other error returned
    rw [StartOk, returned]
    trivial
  have ofRunning :
      ∀ {other : Watched Reader maxReaders} {control},
        watched.running = some control →
        other.start = watched.start →
        other.StartOk config :=
    fun isRunning same =>
      ofReturned (same.trans (start_of_running isRunning))
  cases moved with
  | edit later =>
    unfold StartOk at startOk ⊢
    dsimp only
    cases phase : watched.start <;> rw [phase] at startOk
    · exact startOk
    · exact ⟨startOk.asleep, startOk.fewPlans, startOk.control⟩
    · exact ⟨startOk.asleep, startOk.fewPlans, startOk.control⟩
    · trivial
  | compileFirst entered =>
    rw [StartOk, entered] at startOk
    rcases compileFirst_cases config files watched with
      ⟨ruleSet, accepted, shape⟩ | ⟨error, shape⟩
    · rw [shape]
      exact ⟨startOk, (compileRulesFromFile_plans accepted).2.2, _, rfl, rfl⟩
    · exact ofReturned (congrArg Watched.start shape)
  | stampFirst compiled =>
    rw [StartOk, compiled] at startOk
    exact ⟨startOk.asleep, startOk.fewPlans, startOk.control⟩
  | loadRoster _ => exact ofReturned rfl
  | pollMtime isRunning asleep =>
    refine ofRunning isRunning ?_
    unfold Watched.pollMtime
    split <;> rfl
  | compileNoticed isRunning noticed => exact ofRunning isRunning rfl
  | compilePosted isRunning => exact ofRunning isRunning rfl
  | reload isRunning => exact ofRunning isRunning rfl
  | updateWatermark reloaded =>
    cases phase : watched.start with
    | returned _ => exact ofReturned phase
    | entered =>
      rw [StartOk, phase] at startOk
      cases reloaded.symm.trans startOk
    | compiled _ =>
      rw [StartOk, phase] at startOk
      cases reloaded.symm.trans startOk.asleep
    | stamped _ =>
      rw [StartOk, phase] at startOk
      cases reloaded.symm.trans startOk.asleep

/-- `initialize` always gets to its end. -/
theorem exists_loadRoster (loading : watched.Loading config planNames)
    (control : ControlPlane Reader maxReaders)
    (isFresh : control.store = config.freshStore) :
    ∃ error loaded,
      watched.loadRoster config files control planNames =
        some { watched with control := loaded, start := .returned error } := by
  unfold Watched.loadRoster
  by_cases noRoster : config.subscribersPath = []
  · rw [if_pos noRoster]
    exact ⟨none, watched.control, rfl⟩
  · rw [if_neg noRoster, isFresh]
    obtain ⟨store, result, loaded, _⟩ :=
      loadCsv_create_spec loading.fewPlans
        (if config.expectedSubscribers ≠ 0 then
          config.expectedSubscribers
        else
          1024)
        kDefaultLoadFactor config.subscribersPath
        (watched.filesNow config files config.subscribersPath)
    rw [ControlConfig.freshStore, loaded]
    exact ⟨_, _, rfl⟩

variable [DecidableEq Reader]

theorem exists_return_of_stampFirst
    (loading : watched.Loading config planNames) :
    ∃ error loaded,
      runActions (step config files) (watched.stampFirst planNames)
          [.loadRoster] =
        some
          { watched.stampFirst planNames with
            control := loaded
            start := .returned error } := by
  obtain ⟨control, isControl, isFresh⟩ := loading.control
  have stillLoading : (watched.stampFirst planNames).Loading config planNames :=
    ⟨loading.asleep, loading.fewPlans, loading.control⟩
  obtain ⟨error, loaded, ends⟩ := exists_loadRoster stillLoading control isFresh
  have stepsToEnd :
      (watched.stampFirst planNames).step config files .loadRoster =
        (watched.stampFirst planNames).loadRoster config files control
          planNames := by
    simp only [step, Watched.stampFirst, isControl]
  refine ⟨error, loaded, ?_⟩
  rw [runActions_cons, stepsToEnd, ends]
  rfl

/-- Without an edit the parts of `initialize` are the function as a whole. -/
theorem runs_as_initializeFrom
    (started :
      ControlPlane.initializeFrom config
          ((entered file : Watched Reader maxReaders).filesNow config files) =
        some (.ok control)) :
    runActions (step config files) (entered file)
        [.compileFirst, .stampFirst, .loadRoster] =
      some
        { file := file
          start := .returned none
          control := some control
          lastSeenMtime := file.mtime
          reads := [file.content] } := by
  unfold ControlPlane.initializeFrom at started
  dsimp only at started
  split at started
  next ruleSet isOk accepted =>
    have compiles :
        (entered file : Watched Reader maxReaders).compileFirst config
            files =
          { file := file
            start := .compiled ruleSet.planNames
            control :=
              some (ControlPlane.published ruleSet config.freshStore)
            reads := [file.content] } := by
      unfold Watched.compileFirst
      dsimp only
      rw [isOk, accepted]
      rfl
    have first :
        (entered file : Watched Reader maxReaders).step config files
            .compileFirst =
          some ((entered file).compileFirst config files) := rfl
    rw [runActions_cons, first, Option.bind_some, compiles]
    simp only [runActions_cons, runActions_nil, step, Watched.stampFirst,
      Option.bind_some, Watched.loadRoster, ControlPlane.published]
    by_cases noRoster : config.subscribersPath = []
    · rw [if_pos noRoster] at started ⊢
      rcases Except.ok.inj (Option.some.inj started) with rfl
      rfl
    · rw [if_neg noRoster] at started ⊢
      obtain ⟨⟨store, result⟩, loaded, outcome⟩ :=
        Option.map_eq_some_iff.mp started
      dsimp only at outcome
      split at outcome
      next ok =>
        rcases Except.ok.inj outcome with rfl
        simp only [filesNow, entered] at loaded ⊢
        rw [ControlConfig.freshStore, loaded, Option.map_some, if_pos ok]
        rfl
      next =>
        cases outcome
  next =>
    cases Option.some.inj started

/-- Runs from the sampling on keep what the sampling established. -/
theorem noEditMissed_of_stamped
    (stamped : watched.Stamped) (tracking : watched.Tracking)
    {actions : List (WatchAction Reader maxReaders)}
    (ran : runActions (step config files) watched actions = some next) :
    next.NoEditMissed := by
  have kept : next.Stamped ∧ next.Tracking := by
    refine invariant_of_run (fun state => state.Stamped ∧ state.Tracking)
      ?_ (fun _ _ => True.intro) ⟨stamped, tracking⟩ ran
    rintro state after action - ⟨stateStamped, stateTracking⟩ stepped
    have moved := moves_of_step stepped
    obtain ⟨notAgain, afterStamped⟩ := stateStamped.moves moved
    exact ⟨afterStamped,
      stateTracking.moves (fun again => absurd again notAgain) moved⟩
  exact kept.2.noEditMissed

/--
No edit is missed while `initialize` has not sampled the modification time, and
none is missed from then on exactly when the text of the file at that moment is
one that was compiled.
-/
theorem watcher_misses_no_edit_iff
    (config : ControlConfig)
    (files : Str → Option Str)
    (file : RulesFile) :
    (∀ (actions : List (WatchAction Reader maxReaders)) last,
      .stampFirst ∉ actions →
      runActions (step config files) (entered file) actions = some last →
        last.NoEditMissed) ∧
      ∀ (before : List (WatchAction Reader maxReaders)) atStamp stamped,
        runActions (step config files) (entered file) before =
          some atStamp →
        atStamp.step config files .stampFirst = some stamped →
        ((∀ later last,
            runActions (step config files) stamped later = some last →
              last.NoEditMissed) ↔
          atStamp.file.content ∈ atStamp.reads) := by
  have startTracking :
      (entered file : Watched Reader maxReaders).Tracking :=
    ⟨UInt64.zero_le, trivial⟩
  refine ⟨?_, ?_⟩
  · intro actions last noStamp ran
    have allowed : ∀ action ∈ actions, action ≠ .stampFirst :=
      fun action member isStamp => noStamp (isStamp ▸ member)
    refine Tracking.noEditMissed
      (invariant_of_run Tracking ?_ allowed startTracking ran)
    intro state after action notStamp tracking stepped
    exact tracking.moves (fun isStamp => absurd isStamp notStamp)
      (moves_of_step stepped)
  · intro before atStamp stamped ran stepped
    have startOk : atStamp.StartOk config := by
      refine invariant_of_run (StartOk config) ?_
        (fun _ _ => True.intro) (by exact rfl) ran
      intro state after action _ stateOk moved
      exact stateOk.moves (moves_of_step moved)
    obtain ⟨planNames, compiled, rfl⟩ :
        ∃ planNames, atStamp.start = .compiled planNames ∧
          stamped = atStamp.stampFirst planNames := by
      cases moves_of_step stepped with
      | stampFirst compiled => exact ⟨_, compiled, rfl⟩
    rw [StartOk, compiled] at startOk
    constructor
    · intro neverMissed
      obtain ⟨error, loaded, ranToEnd⟩ :=
        exists_return_of_stampFirst startOk
      have noneMissed := neverMissed _ _ ranToEnd
      exact noneMissed ⟨error, rfl⟩ startOk.asleep rfl
    · intro unedited
      have tracking : (atStamp.stampFirst planNames).Tracking := by
        refine ⟨⟨UInt64.le_refl _, fun _ => unedited⟩, ?_⟩
        simp [PendingOk, Watched.stampFirst, startOk.asleep]
      have isStamped : (atStamp.stampFirst planNames).Stamped := trivial
      intro later last ranLater
      exact noEditMissed_of_stamped isStamped tracking ranLater

open ControlPlane (ruleConfig onePlanFile twoPlansFile)

/-- Whether a run from a file ends in a state with a property. -/
def endsIn
    (file : RulesFile) (actions : List (WatchAction Reader maxReaders))
    (test : Watched Reader maxReaders → Bool) :
    Bool :=
  (runActions (step ruleConfig fun _ => none) (entered file) actions).any
    test

/-- The start of a server during an edit of the rules file. -/
def editDuringStart : List (WatchAction (Fin 1) 1) :=
  [.compileFirst, .edit twoPlansFile 2, .stampFirst, .loadRoster, .pollMtime]

/--
The edit lies between the compile and the sampling.  The watcher sees nothing
to do, and the server goes on with the rules of the file before the edit.
-/
theorem edit_during_start_missed :
    ∃ last : Watched (Fin 1) 1,
      runActions (step ruleConfig fun _ => none)
          (entered ⟨onePlanFile, 1⟩) editDuringStart =
        some last ∧
        last.start = .returned none ∧
        last.watcher = .sleeping ∧
        last.lastSeenMtime = last.file.mtime ∧
        last.file.content ∉ last.reads ∧
        ¬ last.NoEditMissed := by
  have ended :
      endsIn ⟨onePlanFile, 1⟩ editDuringStart
        (fun last =>
          last.start == .returned none && last.watcher == .sleeping &&
            last.lastSeenMtime == last.file.mtime &&
            !last.reads.contains last.file.content) = true := by
    decide +kernel
  obtain ⟨last, ran, tested⟩ := (Option.any_eq_true _ _).mp ended
  simp only [Bool.and_eq_true, beq_iff_eq, Bool.not_eq_true',
    List.contains_eq_mem, decide_eq_false_iff_not] at tested
  obtain ⟨⟨⟨returned, asleep⟩, current⟩, unread⟩ := tested
  exact ⟨last, ran, returned, asleep, current, unread, fun noneMissed =>
    unread (noneMissed ⟨none, returned⟩ asleep current)⟩

/-- What happens once the first compile is done; an edit comes later. -/
def editAfterStart : List (WatchAction (Fin 1) 1) :=
  [.loadRoster, .edit twoPlansFile 2, .pollMtime, .compileNoticed,
    .reload .compareNames, .reload .exchange, .reload (.rcu .bumpEpoch),
    .reload (.rcu .loadTarget), .reload (.rcu .scan), .reload (.rcu .scan),
    .reload (.rcu .deleteOld), .reload (.rcu .finish), .reload .finish,
    .updateWatermark]

/-- The edit is noticed and its text is read. -/
theorem edit_after_start_noticed :
    ∃ last : Watched (Fin 1) 1,
      runActions (step ruleConfig fun _ => none)
          (entered ⟨onePlanFile, 1⟩)
          ([.compileFirst] ++ .stampFirst :: editAfterStart) =
        some last ∧
        last.lastSeenMtime = 2 ∧
        last.lastSeenMtime = last.file.mtime ∧
        last.file.content ∈ last.reads := by
  have started :
      ∀ atStamp : Watched (Fin 1) 1,
        runActions (step ruleConfig fun _ => none)
            (entered ⟨onePlanFile, 1⟩) [.compileFirst] =
          some atStamp →
        atStamp.file.content ∈ atStamp.reads := by
    intro atStamp ran
    rcases Option.some.inj ran with rfl
    decide +kernel
  have ended :
      endsIn ⟨onePlanFile, 1⟩
        ([.compileFirst] ++ .stampFirst :: editAfterStart)
        (fun last =>
          last.start == .returned none && last.watcher == .sleeping &&
            last.lastSeenMtime == 2 &&
            last.lastSeenMtime == last.file.mtime) = true := by
    decide +kernel
  obtain ⟨last, ran, tested⟩ := (Option.any_eq_true _ _).mp ended
  simp only [Bool.and_eq_true, beq_iff_eq] at tested
  obtain ⟨⟨⟨returned, asleep⟩, isTwo⟩, current⟩ := tested
  have ranInParts := ran
  rw [runActions_append, Option.bind_eq_some_iff] at ranInParts
  obtain ⟨atStamp, ranFirst, ranLater⟩ := ranInParts
  rw [runActions_cons, Option.bind_eq_some_iff] at ranLater
  obtain ⟨stamped, stepped, ranLater⟩ := ranLater
  have noneMissed :=
    ((watcher_misses_no_edit_iff ruleConfig (fun _ => none)
      ⟨onePlanFile, 1⟩).2 _ atStamp stamped ranFirst stepped).mpr
      (started atStamp ranFirst) editAfterStart last ranLater
  exact ⟨last, ran, isTwo, current,
    noneMissed ⟨none, returned⟩ asleep current⟩

end Runs

end Watched

end Policyd
