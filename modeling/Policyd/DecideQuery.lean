import Policyd.Engine
import Policyd.Imsi
import Policyd.QueryText

namespace Policyd.HttpFront

/-!
# The query of `/v1/decide`

The HTTP front reads a request from the parameters of a query string.  Each
parameter is checked as it is met; the first one that is unknown or malformed
ends the reading with an error that names its key.
-/

/-- Read one to twenty digits; a value past `2 ^ 64` wraps. -/
def parseU64Sv (text : Str) : Option UInt64 :=
  parseDigits text 20

/-- The parameters of a query, without percent-decoding. -/
def forEachParam (query : Str) : List (Str × Str) :=
  Query.params query

/-- The parameters the endpoint knows. -/
inductive ParamKey where
  | imsi
  | imei
  | plmn
  | dnn
  | rat
  | qos5qi
  | tac
  | minute
  | usage
  | tethering
  | emergency
  | seq
  deriving Repr, DecidableEq

namespace ParamKey

/-- The key of a parameter in a query. -/
def name : ParamKey → Str
  | imsi => "imsi".toList
  | imei => "imei".toList
  | plmn => "plmn".toList
  | dnn => "dnn".toList
  | rat => "rat".toList
  | qos5qi => "qos_5qi".toList
  | tac => "tac".toList
  | minute => "minute".toList
  | usage => "usage".toList
  | tethering => "tethering".toList
  | emergency => "emergency".toList
  | seq => "seq".toList

/-- All parameters, in the order in which a key is compared with them. -/
def all : List ParamKey :=
  [imsi, imei, plmn, dnn, rat, qos5qi, tac, minute, usage, tethering,
    emergency, seq]

/-- The parameter with a key. -/
def ofName (key : Str) : Option ParamKey :=
  all.find? (·.name == key)

theorem name_of_ofName
    {key : Str} {param : ParamKey} (known : ofName key = some param) :
    param.name = key := by
  simpa using List.find?_some known

/-- Every parameter is known by its key. -/
@[simp] theorem ofName_name (param : ParamKey) :
    ofName param.name = some param := by
  cases param <;> rfl

end ParamKey

/-- A request under construction. -/
structure DecideState where
  request : PolicyRequest
  haveImsi : Bool
  deriving Repr, DecidableEq

/-- The request before any parameter is read. -/
def DecideState.initial : DecideState where
  request :=
    { magicVersion := kMagicVersion
      requested5qi := 9
      localMinute := 720 }
  haveImsi := false

/-- Read an IMSI other than zero. -/
def imsiParam (value : Str) : Option UInt64 :=
  (parseImsi value).filter (· != 0)

/-- Read the name or the index of a DNN; names come first. -/
def dnnParam (dnnNames : List Str) (value : Str) : Option UInt8 :=
  match dnnNames.findIdx? (· == value) with
  | some index => some (UInt8.ofNat index)
  | none =>
    ((parseU64Sv value).filter (·.toNat < dnnNames.length)).map
      (·.toUInt8)

/-- Read the name or the number of an access type. -/
def ratParam (value : Str) : Option UInt8 :=
  if ["LTE".toList, "lte".toList, "4G".toList].contains value then
    some 0
  else if ["NR".toList, "nr".toList, "5G".toList].contains value then
    some 1
  else if
      ["WLAN".toList, "wlan".toList, "wifi".toList].contains value then
    some 2
  else
    ((parseU64Sv value).filter (· < 3)).map (·.toUInt8)

/-- Read a number within bounds. -/
def numberParam (low high : UInt64) (value : Str) : Option UInt64 :=
  (parseU64Sv value).filter fun number => low ≤ number && number ≤ high

/-- Whether the value of a flag parameter raises the flag. -/
def raisesFlag (value : Str) : Bool :=
  value != "0".toList && value != "false".toList

/-- Write into the request under construction. -/
def DecideState.write
    (state : DecideState) (change : PolicyRequest → PolicyRequest) :
    DecideState :=
  { state with request := change state.request }

/-- Set request flags. -/
def raise (mask : UInt8) (request : PolicyRequest) : PolicyRequest :=
  { request with flags := request.flags ||| mask }

/-- Read the value of a parameter. -/
def readParam (dnnNames : List Str) (state : DecideState) (value : Str) :
    ParamKey → Option DecideState
  | .imsi =>
    (imsiParam value).map fun imsi =>
      { request := { state.request with imsi := imsi }
        haveImsi := true }
  | .imei =>
    (parseImei value).map fun imei =>
      state.write ({ · with imei := imei })
  | .plmn =>
    (parsePlmn value).map fun plmn =>
      state.write ({ · with plmn := plmn })
  | .dnn =>
    (dnnParam dnnNames value).map fun dnnId =>
      state.write ({ · with dnnId := dnnId })
  | .rat =>
    (ratParam value).map fun ratType =>
      state.write ({ · with ratType := ratType })
  | .qos5qi =>
    (numberParam 1 255 value).map fun number =>
      state.write ({ · with requested5qi := number.toUInt8 })
  | .tac =>
    (numberParam 0 65535 value).map fun number =>
      state.write ({ · with tac := number.toUInt16 })
  | .minute =>
    (numberParam 0 1439 value).map fun number =>
      state.write ({ · with localMinute := number.toUInt16 })
  | .usage =>
    (parseU64Sv value).map fun number =>
      state.write fun request =>
        raise kReqFlagUsageValid { request with bytesUsedPeriod := number }
  | .tethering =>
    some (state.write fun request =>
      if raisesFlag value then
        raise kReqFlagTetheringDetected request
      else
        request)
  | .emergency =>
    some (state.write fun request =>
      if raisesFlag value then
        raise kReqFlagEmergency request
      else
        request)
  | .seq =>
    -- A malformed sequence number is ignored.
    some (state.write fun request =>
      match parseU64Sv value with
      | some number => { request with seq := number.toUInt32 }
      | none => request)

/-- Read one parameter; the error is its key. -/
def decideParam
    (dnnNames : List Str) (state : DecideState) (param : Str × Str) :
    Except Str DecideState :=
  match (ParamKey.ofName param.1).bind (readParam dnnNames state param.2) with
  | some next => .ok next
  | none => .error param.1

/-- Read the query of a decision request. -/
def parseDecideQuery (ruleSet : RuleSet) (query : Str) :
    Except Str PolicyRequest :=
  match
    (forEachParam query).foldlM (decideParam ruleSet.dnnNames)
      DecideState.initial
  with
  | .error badKey =>
    .error
      ("invalid or unknown parameter '".toList ++ badKey ++ "'".toList)
  | .ok state =>
    if state.haveImsi then
      .ok state.request
    else
      .error "imsi is required".toList

/-- A request without a network is taken to come from the home network. -/
def withHomePlmn (request : PolicyRequest) (record : Option SubscriberRecord) :
    PolicyRequest :=
  if request.plmn = 0 then
    { request with plmn := (record.map (·.homePlmn)).getD 0 }
  else
    request

theorem exists_withHomePlmn
    (request : PolicyRequest) (record : Option SubscriberRecord) :
    ∃ plmn, withHomePlmn request record = { request with plmn := plmn } := by
  unfold withHomePlmn
  split
  · exact ⟨_, rfl⟩
  · exact ⟨request.plmn, rfl⟩

/-- The decision for a parsed request. -/
def decideRequest
    (ruleSet : RuleSet) (store : SubscriberStore) (now : UInt64)
    (request : PolicyRequest) :
    Option PolicyDecision :=
  (store.find request.imsi).map fun record =>
    evaluate ruleSet (withHomePlmn request record) record now

/-- The answer of the endpoint to a query. -/
def answerQuery
    (ruleSet : RuleSet) (store : SubscriberStore) (now : UInt64)
    (query : Str) :
    Option (Except Str PolicyDecision) :=
  match parseDecideQuery ruleSet query with
  | .error message => some (.error message)
  | .ok request => (decideRequest ruleSet store now request).map .ok

section OneParameter

variable {dnnNames : List Str}
variable {state next : DecideState}
variable {value : Str}

theorem decideParam_eq_ok_iff {param : ParamKey} :
    decideParam dnnNames state (param.name, value) = .ok next ↔
      readParam dnnNames state value param = some next := by
  rw [decideParam, ParamKey.ofName_name, Option.bind_some]
  cases readParam dnnNames state value param <;> simp

theorem readParam_of_ok {key : Str}
    (accepted : decideParam dnnNames state (key, value) = .ok next) :
    ∃ param, param.name = key ∧
      readParam dnnNames state value param = some next := by
  cases known : ParamKey.ofName key with
  | none =>
    rw [decideParam, known] at accepted
    cases accepted
  | some param =>
    have sameKey := ParamKey.name_of_ofName known
    rw [← sameKey, decideParam_eq_ok_iff] at accepted
    exact ⟨param, sameKey, accepted⟩

/-- What a parameter leaves unchanged. -/
structure Frame (param : ParamKey) (state next : DecideState) : Prop where
  haveImsi : param ≠ .imsi → next.haveImsi = state.haveImsi
  imsi : param ≠ .imsi → next.request.imsi = state.request.imsi
  imei : param ≠ .imei → next.request.imei = state.request.imei
  plmn : param ≠ .plmn → next.request.plmn = state.request.plmn
  dnnId : param ≠ .dnn → next.request.dnnId = state.request.dnnId
  ratType : param ≠ .rat → next.request.ratType = state.request.ratType
  requested5qi :
    param ≠ .qos5qi →
      next.request.requested5qi = state.request.requested5qi
  localMinute :
    param ≠ .minute → next.request.localMinute = state.request.localMinute
  bytesUsedPeriod :
    param ≠ .usage →
      next.request.bytesUsedPeriod = state.request.bytesUsedPeriod
  usageValid :
    param ≠ .usage →
      hasFlag next.request.flags kReqFlagUsageValid =
        hasFlag state.request.flags kReqFlagUsageValid
  tethering :
    param ≠ .tethering →
      hasFlag next.request.flags kReqFlagTetheringDetected =
        hasFlag state.request.flags kReqFlagTetheringDetected
  emergency :
    param ≠ .emergency →
      hasFlag next.request.flags kReqFlagEmergency =
        hasFlag state.request.flags kReqFlagEmergency

/-- A parameter changes only what belongs to it. -/
theorem readParam_frame {param : ParamKey}
    (read : readParam dnnNames state value param = some next) :
    Frame param state next := by
  have disjoint :
      hasFlag kReqFlagTetheringDetected kReqFlagEmergency = false ∧
        hasFlag kReqFlagTetheringDetected kReqFlagUsageValid = false ∧
        hasFlag kReqFlagEmergency kReqFlagTetheringDetected = false ∧
        hasFlag kReqFlagEmergency kReqFlagUsageValid = false ∧
        hasFlag kReqFlagUsageValid kReqFlagTetheringDetected = false ∧
        hasFlag kReqFlagUsageValid kReqFlagEmergency = false := by
    decide
  cases param with
  | imsi | imei | plmn | dnn | rat | qos5qi | tac | minute =>
    obtain ⟨_, _, rfl⟩ := Option.map_eq_some_iff.mp read
    constructor <;> simp [DecideState.write]
  | usage =>
    obtain ⟨_, _, rfl⟩ := Option.map_eq_some_iff.mp read
    constructor <;> simp [DecideState.write, raise, hasFlag_or, disjoint]
  | tethering | emergency =>
    cases read
    cases raised : raisesFlag value <;> constructor <;>
      simp [DecideState.write, raise, hasFlag_or, disjoint]
  | seq =>
    cases read
    cases parseU64Sv value <;> constructor <;> simp [DecideState.write]

end OneParameter

section WholeQuery

variable {dnnNames : List Str}
variable {params : List (Str × Str)}
variable {start final : DecideState}

/-- Parameters with another key leave a field alone. -/
private theorem keeps_of_frame
    {Field : Type} {field : DecideState → Field} {key : ParamKey}
    (frame : ∀ param state next,
      Frame param state next → param ≠ key → field next = field state) :
    ∀ state other value next,
      other ≠ key.name →
        decideParam dnnNames state (other, value) = .ok next →
          field next = field state := by
  intro state other value next different accepted
  obtain ⟨param, sameKey, read⟩ := readParam_of_ok accepted
  refine frame param state next (readParam_frame read) ?_
  rintro rfl
  exact different sameKey.symm

theorem lastRead_of_params {Field : Type}
    (field : DecideState → Field) (key : ParamKey) (Reads : Str → Field → Prop)
    (writes : ∀ state value next,
      readParam dnnNames state value key = some next → Reads value (field next))
    (frame : ∀ param state next,
      Frame param state next → param ≠ key → field next = field state)
    (ran : params.foldlM (decideParam dnnNames) start = .ok final) :
    Query.LastRead Reads (field start)
      (Query.lastValue key.name params) (field final) := by
  refine Query.lastRead_of_foldlM ?_ (keeps_of_frame frame) ran
  intro state value next accepted
  exact writes state value next (decideParam_eq_ok_iff.mp accepted)

/-- A field that holds what a reader of one parameter returns. -/
theorem lastRead_of_reader {Field : Type}
    (field : DecideState → Field) (key : ParamKey)
    {reader : Str → Option Field} {write : DecideState → Field → DecideState}
    (shape : ∀ state value,
      readParam dnnNames state value key = (reader value).map (write state))
    (written : ∀ state read, field (write state read) = read)
    (frame : ∀ param state next,
      Frame param state next → param ≠ key → field next = field state)
    (ran : params.foldlM (decideParam dnnNames) start = .ok final) :
    Query.LastRead (fun value read => reader value = some read)
      (field start) (Query.lastValue key.name params) (field final) := by
  refine lastRead_of_params field key _ ?_ frame ran
  intro state value next read
  rw [shape] at read
  obtain ⟨content, contentRead, rfl⟩ := Option.map_eq_some_iff.mp read
  rw [written]
  exact contentRead

theorem flag_of_params
    (flag : DecideState → Bool) (key : ParamKey) (raises : Str → Bool)
    (writes : ∀ state value next,
      readParam dnnNames state value key = some next →
        flag next = (flag state || raises value))
    (frame : ∀ param state next,
      Frame param state next → param ≠ key → flag next = flag state)
    (ran : params.foldlM (decideParam dnnNames) start = .ok final) :
    flag final =
      (flag start ||
        params.any fun param =>
          decide (param.1 = key.name) && raises param.2) := by
  refine Query.flag_of_foldlM ?_ (keeps_of_frame frame) ran
  intro state value next accepted
  exact writes state value next (decideParam_eq_ok_iff.mp accepted)

end WholeQuery

/-- The last value of a parameter. -/
def lastParam (params : List (Str × Str)) (key : ParamKey) : Option Str :=
  Query.lastValue key.name params

/-- Whether some value of a parameter passes a test. -/
def anyParam
    (params : List (Str × Str)) (key : ParamKey)
    (test : Str → Bool) : Bool :=
  params.any fun param => decide (param.1 = key.name) && test param.2

/-- How the fields of an accepted request come from its parameters. -/
structure DecideRead
    (dnnNames : List Str)
    (params : List (Str × Str))
    (request : PolicyRequest) : Prop where
  imsi :
    ∃ value,
      lastParam params .imsi = some value ∧
        imsiParam value = some request.imsi
  imei :
    Query.LastRead (fun value imei => parseImei value = some imei) 0
      (lastParam params .imei) request.imei
  plmn :
    Query.LastRead (fun value plmn => parsePlmn value = some plmn) 0
      (lastParam params .plmn) request.plmn
  dnnId :
    Query.LastRead (fun value dnnId => dnnParam dnnNames value = some dnnId)
      0 (lastParam params .dnn) request.dnnId
  ratType :
    Query.LastRead (fun value ratType => ratParam value = some ratType) 0
      (lastParam params .rat) request.ratType
  requested5qi :
    Query.LastRead
      (fun value requested =>
        (numberParam 1 255 value).map (·.toUInt8) = some requested)
      9 (lastParam params .qos5qi) request.requested5qi
  localMinute :
    Query.LastRead
      (fun value minute =>
        (numberParam 0 1439 value).map (·.toUInt16) = some minute)
      720 (lastParam params .minute) request.localMinute
  bytesUsedPeriod :
    Query.LastRead (fun value usage => parseU64Sv value = some usage) 0
      (lastParam params .usage) request.bytesUsedPeriod
  usageValid :
    hasFlag request.flags kReqFlagUsageValid =
      anyParam params .usage fun _ => true
  tethering :
    hasFlag request.flags kReqFlagTetheringDetected =
      anyParam params .tethering raisesFlag
  emergency :
    hasFlag request.flags kReqFlagEmergency =
      anyParam params .emergency raisesFlag

theorem hasFlag_raise_if (request : PolicyRequest) {mask : UInt8}
    (nonzero : hasFlag mask mask = true) (raised : Bool) :
    hasFlag (if raised then raise mask request else request).flags mask =
      (hasFlag request.flags mask || raised) := by
  cases raised with
  | false => exact (Bool.or_false _).symm
  | true =>
    rw [if_pos rfl, raise, hasFlag_or, nonzero]

/-- An accepted request comes from the last values of its parameters. -/
theorem decideRead_of_ok
    {ruleSet : RuleSet} {query : Str} {request : PolicyRequest}
    (parsed : parseDecideQuery ruleSet query = .ok request) :
    DecideRead ruleSet.dnnNames (forEachParam query) request := by
  unfold parseDecideQuery at parsed
  split at parsed
  case h_1 =>
    cases parsed
  case h_2 final ran =>
    split_ifs at parsed with haveImsi
    cases parsed
    have imsiRead :=
      lastRead_of_params
        (fun state => (state.haveImsi, state.request.imsi)) .imsi
        (fun value read => imsiParam value = some read.2)
        (by
          intro _ _ _ read
          obtain ⟨_, imsiRead, rfl⟩ := Option.map_eq_some_iff.mp read
          exact imsiRead)
        (by
          intro _ _ _ frame different
          rw [frame.haveImsi different, frame.imsi different])
        ran
    constructor
    case imsi =>
      cases last : Query.lastValue ParamKey.imsi.name (forEachParam query) with
      | none =>
        rw [last] at imsiRead
        have unread := congrArg Prod.fst imsiRead
        dsimp only at unread
        rw [haveImsi] at unread
        cases unread
      | some value =>
        rw [last] at imsiRead
        exact ⟨value, last, imsiRead⟩
    case imei =>
      exact lastRead_of_reader (·.request.imei) .imei
        (fun _ _ => rfl) (fun _ _ => rfl)
        (fun _ _ _ frame => frame.imei) ran
    case plmn =>
      exact lastRead_of_reader (·.request.plmn) .plmn
        (fun _ _ => rfl) (fun _ _ => rfl)
        (fun _ _ _ frame => frame.plmn) ran
    case dnnId =>
      exact lastRead_of_reader (·.request.dnnId) .dnn
        (fun _ _ => rfl) (fun _ _ => rfl)
        (fun _ _ _ frame => frame.dnnId) ran
    case ratType =>
      exact lastRead_of_reader (·.request.ratType) .rat
        (fun _ _ => rfl) (fun _ _ => rfl)
        (fun _ _ _ frame => frame.ratType) ran
    case requested5qi =>
      refine lastRead_of_params (·.request.requested5qi) .qos5qi _ ?_
        (fun _ _ _ frame => frame.requested5qi) ran
      intro _ _ _ read
      obtain ⟨number, numberRead, rfl⟩ := Option.map_eq_some_iff.mp read
      exact Option.map_eq_some_iff.mpr ⟨number, numberRead, rfl⟩
    case localMinute =>
      refine lastRead_of_params (·.request.localMinute) .minute _ ?_
        (fun _ _ _ frame => frame.localMinute) ran
      intro _ _ _ read
      obtain ⟨number, numberRead, rfl⟩ := Option.map_eq_some_iff.mp read
      exact Option.map_eq_some_iff.mpr ⟨number, numberRead, rfl⟩
    case bytesUsedPeriod =>
      exact lastRead_of_reader (·.request.bytesUsedPeriod) .usage
        (fun _ _ => rfl) (fun _ _ => rfl)
        (fun _ _ _ frame => frame.bytesUsedPeriod) ran
    case usageValid =>
      refine flag_of_params
        (fun state => hasFlag state.request.flags kReqFlagUsageValid)
        .usage (fun _ => true) ?_ (fun _ _ _ frame => frame.usageValid) ran
      intro _ _ _ read
      obtain ⟨_, _, rfl⟩ := Option.map_eq_some_iff.mp read
      exact hasFlag_or _ _ _
    case tethering =>
      refine flag_of_params
        (fun state => hasFlag state.request.flags kReqFlagTetheringDetected)
        .tethering raisesFlag ?_ (fun _ _ _ frame => frame.tethering) ran
      intro state value _ read
      cases read
      exact hasFlag_raise_if _ rfl _
    case emergency =>
      refine flag_of_params
        (fun state => hasFlag state.request.flags kReqFlagEmergency)
        .emergency raisesFlag ?_ (fun _ _ _ frame => frame.emergency) ran
      intro state value _ read
      cases read
      exact hasFlag_raise_if _ rfl _

end Policyd.HttpFront
