import Policyd.AdminServer
import Policyd.HttpPipelining

namespace Policyd.AdminServer

open HttpFront ControlPlane

/-!
# Which error bodies are valid JSON

An error body is an object with the single member `error`, written around a
message.  Only the message of a failed reload is escaped.  The others repeat a
path, an IMSI, a DNN or a parameter name as the client sent it, and the body is
valid exactly when what they repeat is string content.
-/

/-- An escaped byte is itself or a complete escape sequence. -/
theorem jsonEscapeChar_cases (char : Char) :
    (jsonEscapeChar char = [char] ∧ char ≠ '"' ∧ char ≠ '\\' ∧
        ¬ char.toNat < 0x20) ∨
      (char.toNat < 0x80 ∧
        Json.scan (.content []) (jsonEscapeChar char) = some (.content []) ∧
        ∃ rest, jsonEscapeChar char = '\\' :: rest) := by
  unfold jsonEscapeChar
  split_ifs with quote backslash newline carriage tab control
  · exact .inr ⟨by rw [quote]; decide, by decide, _, rfl⟩
  · exact .inr ⟨by rw [backslash]; decide, by decide, _, rfl⟩
  · exact .inr ⟨by rw [newline]; decide, by decide, _, rfl⟩
  · exact .inr ⟨by rw [carriage]; decide, by decide, _, rfl⟩
  · exact .inr ⟨by rw [tab]; decide, by decide, _, rfl⟩
  · have complete :
        ∀ code < 0x20,
          Json.scan (.content [])
              ("\\u00".toList ++
                [Nat.digitChar (code / 16), Nat.digitChar (code % 16)]) =
            some (.content []) := by
      decide
    exact .inr ⟨by omega, complete _ control, _, rfl⟩
  · exact .inl ⟨rfl, quote, backslash, control⟩

/-- The scanner reads an escaped byte as UTF-8 reads the byte. -/
theorem scan_jsonEscapeChar (expected : List (Nat × Nat)) (char : Char) :
    Json.scan (.content expected) (jsonEscapeChar char) =
      (Json.utf8Step expected char).map .content := by
  rcases jsonEscapeChar_cases char with
    ⟨itself, notQuote, notBackslash, notControl⟩ |
      ⟨ascii, complete, rest, escaped⟩
  · rw [itself]
    cases expected <;>
      simp [Json.scan, Json.Scan.step, notQuote, notBackslash, notControl]
  · cases expected with
    | nil =>
      rw [complete, Json.utf8Step, if_pos ascii]
      rfl
    | cons range later =>
      -- in the middle of a character both want a continuation byte
      have notContinuation : Json.isContinuation char = false := by
        simp only [Json.isContinuation, Bool.and_eq_false_iff,
          decide_eq_false_iff_not]
        exact .inl (by omega)
      rw [escaped]
      simp [Json.scan, Json.Scan.step, Json.utf8Step, notContinuation,
        (by decide : Json.isContinuation '\\' = false)]

/-- An escaped text is string content when the text is UTF-8. -/
theorem stringContent_jsonEscape_iff (text : Str) :
    Json.StringContent (jsonEscape text) ↔ Json.Utf8 text := by
  have scanned :
      ∀ expected,
        Json.scan (.content expected) (jsonEscape text) =
          (text.foldlM Json.utf8Step expected).map .content := by
    induction text with
    | nil =>
      intro expected
      rfl
    | cons char later inductionHypothesis =>
      intro expected
      rw [jsonEscape, List.flatMap_cons, Json.scan_append,
        scan_jsonEscapeChar, List.foldlM_cons]
      cases Json.utf8Step expected char with
      | none => rfl
      | some next => exact inductionHypothesis next
  unfold Json.StringContent Json.Utf8
  rw [scanned]
  cases text.foldlM Json.utf8Step [] <;> simp

/-- The messages that repeat nothing of a request. -/
def fixedMessages : List Str :=
  ["no policy loaded".toList, "missing IMSI".toList,
    "IMSI not provisioned".toList, "imsi parameter is required".toList,
    "invalid IMSI".toList]

/-- The text that the message of an error repeats. -/
inductive Repeats (state : AdminState) (request : HttpRequest) :
    HttpError → Str → Prop
  | wrongMethod :
      Repeats state request
        { status := 405
          message := "method not allowed for ".toList ++ request.path }
        request.path
  | noEndpoint :
      Repeats state request
        { status := 404
          message := "no such endpoint: ".toList ++ request.path }
        request.path
  | badImsi :
      Repeats state request
        { status := 400
          message :=
            "invalid IMSI '".toList ++
              request.path.drop AdminState.kPrefix.length ++ "'".toList }
        (request.path.drop AdminState.kPrefix.length)
  | unknownDnn {name : Str}
      (asked : lastParam (decodedParams request.query) .dnn = some name) :
      Repeats state request
        { status := 400
          message := "unknown DNN '".toList ++ name ++ "'".toList }
        name
  | failedReload {error : Str}
      (failed : state.reloadError = some error) :
      Repeats state request
        { status := 422, message := jsonEscape error }
        (jsonEscape error)

/-- What an error can say. -/
def Explained
    (state : AdminState) (request : HttpRequest)
    (problem : HttpError) : Prop :=
  problem.message ∈ fixedMessages ∨
    ∃ text, Repeats state request problem text

section Handlers

variable {state : AdminState} {request : HttpRequest} {problem : HttpError}

theorem explained_of_handleLoaded
    (refused : state.handleLoaded = .error problem) :
    Explained state request problem := by
  unfold AdminState.handleLoaded at refused
  cases loaded : state.current with
  | none =>
    rw [loaded] at refused
    cases refused
    exact .inl (by decide)
  | some ruleSet =>
    rw [loaded] at refused
    cases refused

theorem explained_of_handleReload
    (refused : state.handleReload = .error problem) :
    Explained state request problem := by
  unfold AdminState.handleReload at refused
  cases failed : state.reloadError with
  | none =>
    rw [failed] at refused
    cases refused
  | some error =>
    rw [failed] at refused
    cases refused
    exact .inr ⟨_, .failedReload failed⟩

/-- An unknown DNN is repeated. -/
theorem explained_of_explainRequest {dnnNames : List Str}
    (refused :
      explainRequest dnnNames (decodedParams request.query) = .error problem) :
    Explained state request problem := by
  unfold explainRequest at refused
  dsimp only at refused
  cases given : lastParam (decodedParams request.query) .imsi with
  | none =>
    rw [given] at refused
    cases refused
    exact .inl (by decide)
  | some imsiText =>
    rw [given] at refused
    dsimp only at refused
    cases read : parseImsi imsiText with
    | none =>
      rw [read] at refused
      cases refused
      exact .inl (by decide)
    | some imsi =>
      rw [read] at refused
      dsimp only at refused
      unfold explainDnn at refused
      cases asked : lastParam (decodedParams request.query) .dnn with
      | none =>
        rw [asked] at refused
        cases refused
      | some name =>
        rw [asked] at refused
        dsimp only at refused
        cases found : dnnNames.findIdx? (· == name) with
        | some index =>
          rw [found] at refused
          cases refused
        | none =>
          rw [found] at refused
          cases refused
          exact .inr ⟨_, .unknownDnn asked⟩

theorem explained_of_handleExplain
    (refused :
      handleExplain state.current state.store state.now request.query =
        some (.error problem)) :
    Explained state request problem := by
  unfold handleExplain at refused
  cases loaded : state.current with
  | none =>
    rw [loaded] at refused
    cases refused
    exact .inl (by decide)
  | some ruleSet =>
    rw [loaded] at refused
    dsimp only at refused
    cases read :
        explainRequest ruleSet.dnnNames (decodedParams request.query) with
    | error other =>
      rw [read] at refused
      cases refused
      exact explained_of_explainRequest read
    | ok asked =>
      rw [read, Option.map_eq_some_iff] at refused
      obtain ⟨record, _, decided⟩ := refused
      cases decided

/-- A bad IMSI is repeated. -/
theorem explained_of_handleSubscriber
    (refused : state.handleSubscriber request = some (.error problem)) :
    Explained state request problem := by
  unfold AdminState.handleSubscriber at refused
  split_ifs at refused with missing
  · cases refused
    exact .inl (by decide)
  · dsimp only at refused
    cases read :
        (parseImsi (request.path.drop AdminState.kPrefix.length)).filter
          (· != 0) with
    | none =>
      rw [read] at refused
      cases refused
      exact .inr ⟨_, .badImsi⟩
    | some imsi =>
      rw [read, Option.map_eq_some_iff] at refused
      obtain ⟨record, _, answer⟩ := refused
      cases record with
      | none =>
        cases answer
        exact .inl (by decide)
      | some known => cases answer

theorem explained_of_handle {route : Route}
    (refused : handle state request route = some (.error problem)) :
    Explained state request problem := by
  cases route with
  | healthz => exact explained_of_handleLoaded (Option.some.inj refused)
  | metrics => cases refused
  | stats => cases refused
  | rules => exact explained_of_handleLoaded (Option.some.inj refused)
  | reload => exact explained_of_handleReload (Option.some.inj refused)
  | explain =>
    rw [handle, Option.map_eq_some_iff] at refused
    obtain ⟨answer, answered, mapped⟩ := refused
    cases answer with
    | ok decision => cases mapped
    | error other =>
      cases mapped
      exact explained_of_handleExplain answered
  | subscriber => exact explained_of_handleSubscriber refused

theorem explained_of_dispatch
    (refused : dispatch state request = some (.error problem)) :
    Explained state request problem := by
  unfold dispatch at refused
  dsimp only at refused
  cases routed :
      routes.lookup (request.method ++ " ".toList ++ request.path) with
  | some route =>
    rw [routed] at refused
    exact explained_of_handle refused
  | none =>
    rw [routed] at refused
    dsimp only at refused
    cases longest :
        longestPrefix (request.method ++ " ".toList ++ request.path) with
    | some route =>
      rw [longest] at refused
      exact explained_of_handle refused
    | none =>
      rw [longest] at refused
      cases refused
      split_ifs
      · exact .inr ⟨_, .wrongMethod⟩
      · exact .inr ⟨_, .noEndpoint⟩

end Handlers

theorem Repeats.stringContent_iff
    {state : AdminState} {request : HttpRequest} {problem : HttpError}
    {text : Str}
    (repeated : Repeats state request problem text) :
    Json.StringContent problem.message ↔ Json.StringContent text := by
  cases repeated with
  | wrongMethod => exact Json.stringContent_append_iff (by decide) _
  | noEndpoint => exact Json.stringContent_append_iff (by decide) _
  | badImsi =>
    rw [List.append_assoc, Json.stringContent_append_iff (by decide)]
    exact Json.stringContent_apostrophe_iff _
  | unknownDnn asked =>
    rw [List.append_assoc, Json.stringContent_append_iff (by decide)]
    exact Json.stringContent_apostrophe_iff text
  | failedReload failed => rfl

theorem stringContent_of_fixed :
    ∀ message ∈ fixedMessages, Json.StringContent message := by
  decide

theorem errorResponseBody_iff (problem : HttpError) :
    Json.IsObjectOf "error".toList (errorResponseBody problem) ↔
      Json.StringContent problem.message := by
  have written := Json.isObjectOf_iff "error".toList problem.message
  exact written

/-- The message that rejects a parameter. -/
def badParameter (key : Str) : Str :=
  "invalid or unknown parameter '".toList ++ key ++ "'".toList

theorem parseDecideQuery_error {ruleSet : RuleSet} {query message : Str}
    (rejected : parseDecideQuery ruleSet query = .error message) :
    message = "imsi is required".toList ∨
      ∃ key, message = badParameter key := by
  unfold parseDecideQuery at rejected
  split at rejected
  · cases rejected
    exact .inr ⟨_, rfl⟩
  · split_ifs at rejected
    cases rejected
    exact .inl rfl

/-- A quoted text alone decides about the C string around it. -/
theorem stringContent_cString_quoted_iff
    {before : Str} (plain : before.all Json.isPlain = true) (text : Str) :
    Json.StringContent (Str.cString (before ++ text ++ ['\''])) ↔
      Json.StringContent (Str.cString text) := by
  have kept : ∀ char ∈ before, (char != '\x00') = true := by
    intro char member
    have isPlain := List.all_eq_true.mp plain char member
    by_contra isNul
    rw [bne_iff_ne, not_not] at isNul
    rw [isNul] at isPlain
    exact absurd isPlain (by decide)
  rw [List.append_assoc, Str.cString, List.takeWhile_append_of_pos kept,
    Json.stringContent_append_iff plain, List.takeWhile_append]
  split_ifs with whole
  · -- without a NUL in the text the apostrophe is still written
    have unbroken : Str.cString text = text :=
      (List.takeWhile_prefix _).eq_of_length whole
    rw [unbroken]
    exact Json.stringContent_apostrophe_iff text
  · rfl

theorem stringContent_badParameter_iff (key : Str) :
    Json.StringContent (Str.cString (badParameter key)) ↔
      Json.StringContent (Str.cString key) :=
  stringContent_cString_quoted_iff (by decide) key

theorem errorBody_iff (message : Str) :
    Json.IsObjectOf "error".toList (errorBody message) ↔
      Json.StringContent message := by
  have joined (first second third : Str) :
      [first, second, third].flatten = first ++ second ++ third := by
    simp
  have same :
      errorBody message =
        errorResponseBody { status := 400, message := message } :=
    joined _ _ _
  rw [same]
  exact errorResponseBody_iff _

theorem fixedReplies_valid :
    ∀ reply ∈ fixedReplies, Json.IsObjectOf "error".toList reply.body := by
  simp only [fixedReplies, List.forall_mem_cons, errorBody_iff]
  exact ⟨by decide, by decide, by decide, by decide, by simp⟩

theorem front_error_body_iff {service : Service} {head : Str}
    (refused : (replyTo service head).status ≠ 200) :
    Json.IsObjectOf "error".toList (replyTo service head).body ↔
      ∀ key,
        rejection service head = some (badParameter key) →
          Json.StringContent (Str.cString key) := by
  rcases replyTo_cases service head with
    ⟨accepted, fixed⟩ | ⟨message, rejected, reply, ruleSet, query, parsed⟩ |
      ⟨_, decision, reply⟩
  · rw [accepted]
    simp only [reduceCtorEq, false_implies, implies_true, iff_true]
    exact fixedReplies_valid _ fixed
  · rw [rejected, reply, rejectionReply, errorBody_iff]
    simp only [Option.some.injEq]
    constructor
    · rintro content key rfl
      exact (stringContent_badParameter_iff key).mp content
    · intro keyContent
      rcases parseDecideQuery_error parsed with rfl | ⟨key, rfl⟩
      · decide
      · exact (stringContent_badParameter_iff key).mpr (keyContent key rfl)
  · rw [reply] at refused
    exact absurd rfl refused

/--
The body of an error response is a JSON object with the single string member
`error` exactly when the text its message repeats is string content: for the
admin server a path, an IMSI, a DNN or an escaped reload error, for the HTTP
front the name of a bad parameter up to its first NUL.
-/
theorem error_bodies_valid_iff
    (state : AdminState)
    (request : HttpRequest)
    (service : Service)
    (head : Str) :
    (∀ problem,
      dispatch state request = some (.error problem) →
        (Json.IsObjectOf "error".toList (errorResponseBody problem) ↔
          ∀ text,
            Repeats state request problem text →
              Json.StringContent text)) ∧
      ((replyTo service head).status ≠ 200 →
        (Json.IsObjectOf "error".toList (replyTo service head).body ↔
          ∀ key,
            rejection service head = some (badParameter key) →
              Json.StringContent (Str.cString key))) := by
  refine ⟨?_, front_error_body_iff⟩
  intro problem refused
  rw [errorResponseBody_iff]
  constructor
  · intro content text repeated
    exact repeated.stringContent_iff.mp content
  · intro repeatedContent
    rcases explained_of_dispatch refused with fixed | ⟨text, repeated⟩
    · exact stringContent_of_fixed _ fixed
    · exact repeated.stringContent_iff.mpr (repeatedContent text repeated)

/-- A server without rules and subscribers. -/
def blankState : AdminState where
  current := none
  store := SubscriberStore.create 8 kDefaultLoadFactor
  now := 0
  files := fun _ => none
  rulesPath := "rules.yaml".toList
  nextVersion := 1

/-- A plain unknown path is reported in valid JSON. -/
theorem error_bodies_valid_plain_path :
    dispatch blankState ⟨"GET".toList, "/rule".toList, []⟩ =
        some (.error ⟨404, "no such endpoint: /rule".toList⟩) ∧
      Json.IsObjectOf "error".toList
        (errorResponseBody ⟨404, "no such endpoint: /rule".toList⟩) := by
  have refused :
      dispatch blankState ⟨"GET".toList, "/rule".toList, []⟩ =
        some (.error ⟨404, "no such endpoint: /rule".toList⟩) := by
    decide +kernel
  refine ⟨refused,
    ((error_bodies_valid_iff _ _ ⟨none, fun _ => none, 0⟩ []).1 _
      refused).mpr ?_⟩
  intro text repeated
  exact repeated.stringContent_iff.mp (by decide)

/--
An encoded quote in a path and a quote in a parameter name both end the string
of the body too early.
-/
theorem quote_breaks_error_bodies :
    readRequest "GET /%22 HTTP/1.1".toList =
        some ⟨"GET".toList, "/\"".toList, []⟩ ∧
      dispatch blankState ⟨"GET".toList, "/\"".toList, []⟩ =
        some (.error ⟨404, "no such endpoint: /\"".toList⟩) ∧
      errorResponseBody ⟨404, "no such endpoint: /\"".toList⟩ =
        "\x7b\"error\":\"no such endpoint: /\"\"\x7d\n".toList ∧
      ¬ Json.IsObjectOf "error".toList
        (errorResponseBody ⟨404, "no such endpoint: /\"".toList⟩) ∧
      (replyTo ⟨some {}, fun _ => none, 0⟩
        "GET /v1/decide?\"=1 HTTP/1.1".toList).body =
        errorBody "invalid or unknown parameter '\"'".toList ∧
      ¬ Json.IsObjectOf "error".toList
        (errorBody "invalid or unknown parameter '\"'".toList) := by
  refine ⟨by decide +kernel, by decide +kernel, by decide +kernel, ?_,
    by decide +kernel, ?_⟩
  · rw [errorResponseBody_iff]
    decide
  · rw [errorBody_iff]
    decide

end Policyd.AdminServer
