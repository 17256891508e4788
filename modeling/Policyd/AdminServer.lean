import Policyd.ControlPlane
import Policyd.Explain
import Policyd.HttpConnection
import Policyd.JsonText

namespace Policyd.AdminServer

open HttpFront ControlPlane

/-!
# The admin server

The admin server decodes the path of a request and passes it to the handler
registered for its method and path, else to the one with the longest matching
prefix.  A handler succeeds or refuses the request with a status and a message,
which becomes the body of an error response.  The bodies of successful
responses are not part of the model.
-/

/-- A request; the query is still encoded. -/
structure HttpRequest where
  method : Str
  path : Str
  query : Str
  deriving Repr, DecidableEq

/-- Read a request line. -/
def readRequest (line : Str) : Option HttpRequest :=
  (splitRequestLine line).map fun (method, target) =>
    { method := method
      path := urlDecode (splitTarget target).1
      query := (splitTarget target).2 }

/-- The body of an error response; the message is not escaped. -/
def errorResponseBody (problem : HttpError) : Str :=
  "\x7b\"error\":\"".toList ++ problem.message ++ "\"\x7d\n".toList

/-- Escape one byte for a JSON string. -/
def jsonEscapeChar (char : Char) : Str :=
  if char = '"' then
    "\\\"".toList
  else if char = '\\' then
    "\\\\".toList
  else if char = '\n' then
    "\\n".toList
  else if char = '\r' then
    "\\r".toList
  else if char = '\t' then
    "\\t".toList
  else if char.toNat < 0x20 then
    "\\u00".toList ++
      [Nat.digitChar (char.toNat / 16), Nat.digitChar (char.toNat % 16)]
  else
    [char]

/-- Escape a text for a JSON string. -/
def jsonEscape (text : Str) : Str :=
  text.flatMap jsonEscapeChar

/-- What the handlers read: the live rules, the store, the clock, the files. -/
structure AdminState where
  current : Option RuleSet
  store : SubscriberStore
  now : UInt64
  files : Str → Option Str
  rulesPath : Str
  nextVersion : UInt32

namespace AdminState

variable (state : AdminState)

/-- Why a reload is refused, if it is. -/
def reloadError : Option Str :=
  let compiled :=
    compileRulesFromFile state.files state.rulesPath state.nextVersion
  match compiled.ok, compiled.ruleSet with
  | true, some ruleSet =>
    (state.current.bind fun old =>
        changedPlan old.planNames ruleSet.planNames).map
      fun (name, slot) => changedPlanError name slot
  | _, _ => some compiled.errorSummary

/-- Handlers that need nothing but a loaded policy. -/
def handleLoaded : Except HttpError Unit :=
  match state.current with
  | none => .error { status := 503, message := "no policy loaded".toList }
  | some _ => .ok ()

/-- Reload the rules. -/
def handleReload : Except HttpError Unit :=
  match state.reloadError with
  | some error => .error { status := 422, message := jsonEscape error }
  | none => .ok ()

/-- The path in front of an IMSI. -/
def kPrefix : Str :=
  "/subscriber/".toList

/-- Show a subscriber; the outer `none` would be a lookup that never ends. -/
def handleSubscriber (request : HttpRequest) :
    Option (Except HttpError Unit) :=
  if request.path.length ≤ kPrefix.length then
    some (.error { status := 400, message := "missing IMSI".toList })
  else
    let imsiText := request.path.drop kPrefix.length
    match (parseImsi imsiText).filter (· != 0) with
    | none =>
      some
        (.error
          { status := 400
            message := "invalid IMSI '".toList ++ imsiText ++ "'".toList })
    | some imsi =>
      (state.store.find imsi).map fun record =>
        match record with
        | none =>
          .error
            { status := 404, message := "IMSI not provisioned".toList }
        | some _ => .ok ()

end AdminState

/-- The registered handlers. -/
inductive Route where
  | healthz
  | metrics
  | stats
  | rules
  | reload
  | explain
  | subscriber
  deriving DecidableEq, Repr

/-- The handlers of whole paths, in the order of their keys. -/
def routes : List (Str × Route) :=
  [("GET /explain".toList, .explain), ("GET /healthz".toList, .healthz),
    ("GET /metrics".toList, .metrics), ("GET /rules".toList, .rules),
    ("GET /stats".toList, .stats), ("POST /rules/reload".toList, .reload)]

/-- The handlers of path prefixes. -/
def prefixRoutes : List (Str × Route) :=
  [("GET /subscriber/".toList, .subscriber)]

/-- Run a handler. -/
def handle (state : AdminState) (request : HttpRequest) :
    Route → Option (Except HttpError Unit)
  | .healthz => some state.handleLoaded
  | .metrics => some (.ok ())
  | .stats => some (.ok ())
  | .rules => some state.handleLoaded
  | .reload => some state.handleReload
  | .explain =>
    (handleExplain state.current state.store state.now
      request.query).map fun answer => answer.map fun _ => ()
  | .subscriber => state.handleSubscriber request

/-- The longest registered prefix of a key. -/
def longestPrefix (key : Str) : Option Route :=
  (prefixRoutes.foldl
    (fun (best : Option Route × Nat) entry =>
      if entry.1.isPrefixOf key && best.2 < entry.1.length then
        (some entry.2, entry.1.length)
      else
        best)
    (none, 0)).1

/-- A registered key that ends in a path and has a method in front of it. -/
def endsRoute (path : Str) : Bool :=
  routes.any fun entry =>
    path.length < entry.1.length && path.isSuffixOf entry.1

/-- Answer a request. -/
def dispatch (state : AdminState) (request : HttpRequest) :
    Option (Except HttpError Unit) :=
  let key := request.method ++ " ".toList ++ request.path
  match routes.lookup key with
  | some route => handle state request route
  | none =>
    match longestPrefix key with
    | some route => handle state request route
    | none =>
      some
        (.error
          (if endsRoute request.path then
            { status := 405
              message :=
                "method not allowed for ".toList ++ request.path }
          else
            { status := 404
              message := "no such endpoint: ".toList ++ request.path }))

/-!
## Reloads

The handler runs the steps of a reload one after the other.
-/

section Reloads

variable {Reader : Type} {maxReaders : Nat}

/-- What a handler reads of the control plane. -/
def stateOf
    (control : ControlPlane Reader maxReaders) (now : UInt64)
    (files : Str → Option Str)
    (rulesPath : Str) : AdminState where
  current := control.live
  store := control.store
  now := now
  files := files
  rulesPath := rulesPath
  nextVersion := control.nextVersion

/-- A call ended without success and left its error. -/
def FailedWith
    (control : ControlPlane Reader maxReaders)
    (error : Str) : Prop :=
  control.reload = .returned (some false) ∧ control.stats.lastError = error

/-- A refused reload is a call that fails while compiling or comparing. -/
theorem failedWith_of_reloadError
    {control : ControlPlane Reader maxReaders} {now : UInt64}
    {files : Str → Option Str} {rulesPath error : Str}
    (refused : (stateOf control now files rulesPath).reloadError = some error) :
    FailedWith (control.compile rulesPath files) error ∨
      ∃ ruleSet,
        (control.compile rulesPath files).reload = .compiled ruleSet ∧
          FailedWith
            ((control.compile rulesPath files).compareNames ruleSet)
            error := by
  unfold AdminState.reloadError at refused
  unfold ControlPlane.compile
  dsimp only [stateOf] at refused ⊢
  generalize compileRulesFromFile files rulesPath control.nextVersion =
    compiled at refused ⊢
  cases accepted : compiled.ok with
  | false =>
    rw [accepted] at refused
    cases refused
    exact .inl ⟨rfl, rfl⟩
  | true =>
    cases built : compiled.ruleSet with
    | none =>
      rw [accepted, built] at refused
      cases refused
      exact .inl ⟨rfl, rfl⟩
    | some ruleSet =>
      rw [accepted, built] at refused
      simp only [Option.map_eq_some_iff, Option.bind_eq_some_iff] at refused
      obtain ⟨⟨name, slot⟩, ⟨old, live, changed⟩, rfl⟩ := refused
      refine .inr ⟨ruleSet, rfl, ?_⟩
      unfold ControlPlane.compareNames
      have sameLive :
          ControlPlane.live
              { control.beginCall with reload := .compiled ruleSet } =
            some old := live
      rw [sameLive]
      dsimp only
      rw [changed]
      exact ⟨rfl, rfl⟩

end Reloads

end Policyd.AdminServer
