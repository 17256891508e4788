import Policyd.DecideQuery
import Policyd.ListedSets
import Policyd.RequestAgreement

namespace Policyd.Loadgen

open HttpFront

/-!
# Requests of the load generator over HTTP

`HttpPool::issue` prints a binary request as the query of a `GET`, and the HTTP
front reads the text back with its own conventions.  They agree for a PLMN that
prints in six digits and for a DNN whose number is not the name of another DNN;
the timestamp of the request is not printed at all.
-/

/-- An optional piece of the query. -/
def optional (present : Bool) (piece : Str) : Str :=
  if present then piece else []

/-- The query text of a request. -/
def issueQuery (request : PolicyRequest) (seq : UInt32) : Str :=
  List.flatten
    ["imsi=".toList, paddedDecimal 15 request.imsi.toNat,
      "&imei=".toList, paddedDecimal 15 request.imei.toNat,
      "&plmn=".toList, decimal request.plmn.toNat,
      "&dnn=".toList, decimal request.dnnId.toNat,
      "&rat=".toList, decimal request.ratType.toNat,
      "&qos_5qi=".toList, decimal request.requested5qi.toNat,
      "&tac=".toList, decimal request.tac.toNat,
      "&minute=".toList, decimal request.localMinute.toNat,
      "&seq=".toList, decimal seq.toNat,
      optional (hasFlag request.flags kReqFlagTetheringDetected)
        "&tethering=1".toList,
      optional (hasFlag request.flags kReqFlagEmergency)
        "&emergency=1".toList,
      optional (hasFlag request.flags kReqFlagUsageValid)
        ("&usage=".toList ++ decimal request.bytesUsedPeriod.toNat)]

/-- A network the load generator can visit. -/
def Visited (plmn : UInt32) : Prop :=
  plmn = 46000 ∨ plmn = 310260 ∨
    ∃ files text version ruleSet,
      (compileRules files text version).ruleSet = some ruleSet ∧
        ruleSet.roamingPartners.contains plmn.toUInt64 = true

/-- A request the load generator can issue against a rule set. -/
structure Issuable (ruleSet : RuleSet) (request : PolicyRequest) : Prop where
  imsiPositive : 1 ≤ request.imsi.toNat
  imsiBound : request.imsi.toNat < 10 ^ 15
  imeiBound : request.imei.toNat < 10 ^ 15
  dnnListed : request.dnnId.toNat < ruleSet.dnnNames.length
  ratListed : request.ratType.toNat < 3
  qosPositive : 1 ≤ request.requested5qi.toNat
  minuteBound : request.localMinute.toNat ≤ 1439
  visited : Visited request.plmn

/-- A parameter that is printed only when it is present. -/
def optionalParam (present : Bool) (param : ParamKey) (value : Str) :
    List (ParamKey × Str) :=
  if present then [(param, value)] else []

/-- The parameters of the query, in order. -/
def issuedParams (request : PolicyRequest) (seq : UInt32) :
    List (ParamKey × Str) :=
  (.imsi, paddedDecimal 15 request.imsi.toNat) ::
    (.imei, paddedDecimal 15 request.imei.toNat) ::
    (.plmn, decimal request.plmn.toNat) ::
    (.dnn, decimal request.dnnId.toNat) ::
    (.rat, decimal request.ratType.toNat) ::
    (.qos5qi, decimal request.requested5qi.toNat) ::
    (.tac, decimal request.tac.toNat) ::
    (.minute, decimal request.localMinute.toNat) ::
    (.seq, decimal seq.toNat) ::
    (optionalParam (hasFlag request.flags kReqFlagTetheringDetected)
        .tethering "1".toList ++
      optionalParam (hasFlag request.flags kReqFlagEmergency)
        .emergency "1".toList ++
      optionalParam (hasFlag request.flags kReqFlagUsageValid)
        .usage (decimal request.bytesUsedPeriod.toNat))

/-- A parameter as a pair of texts. -/
def named (param : ParamKey × Str) : Str × Str :=
  (param.1.name, param.2)

/-- The text between two values of the query. -/
private def between (param : ParamKey) : Str :=
  '&' :: (param.name ++ ['='])

variable (param : ParamKey) (request : PolicyRequest) (seq : UInt32)

private theorem ampersand_printPair (value : Str) :
    '&' :: Query.printPair (named (param, value)) = between param ++ value := by
  simp [Query.printPair, named, between]

/-- The format joins parameters, whatever their values are. -/
private theorem format_eq_print
    (imsi imei plmn dnn rat qos5qi tac minute seq usage : Str)
    (tethering emergency usageValid : Bool) :
    List.flatten
        [ParamKey.imsi.name ++ '=' :: imsi,
          between .imei, imei, between .plmn, plmn, between .dnn, dnn,
          between .rat, rat, between .qos5qi, qos5qi, between .tac, tac,
          between .minute, minute, between .seq, seq,
          optional tethering (between .tethering ++ "1".toList),
          optional emergency (between .emergency ++ "1".toList),
          optional usageValid (between .usage ++ usage)] =
      Query.print
        (((.imsi, imsi) :: (.imei, imei) :: (.plmn, plmn) :: (.dnn, dnn) ::
          (.rat, rat) :: (.qos5qi, qos5qi) :: (.tac, tac) ::
          (.minute, minute) :: (.seq, seq) ::
          (optionalParam tethering .tethering "1".toList ++
            optionalParam emergency .emergency "1".toList ++
            optionalParam usageValid .usage usage)).map named) := by
  cases tethering <;> cases emergency <;> cases usageValid <;>
    simp only [optional, optionalParam, if_true, if_false,
      Bool.false_eq_true, List.map_cons, List.map_nil, List.cons_append,
      List.nil_append, List.append_nil, Query.print_cons,
      List.flatMap_cons, List.flatMap_nil, ampersand_printPair,
      List.append_assoc, List.flatten_cons, List.flatten_nil] <;>
    rfl

theorem issueQuery_eq_print :
    issueQuery request seq =
      Query.print ((issuedParams request seq).map named) := by
  rw [issuedParams, ← format_eq_print, issueQuery]
  rfl

private theorem ampersand_not_mem_digits
    {text : Str} (digits : text.all Char.isDigit = true) :
    '&' ∉ text := by
  intro member
  exact absurd (List.all_eq_true.mp digits '&' member) (by decide)

private theorem equals_not_mem_name :
    '=' ∉ param.name := by
  cases param <;> decide

private theorem ampersand_not_mem_name :
    '&' ∉ param.name := by
  cases param <;> decide

private theorem optionalParam_digits {value : Str}
    (digits : value.all Char.isDigit = true) (present : Bool)
    (key : ParamKey) :
    ∀ param ∈ optionalParam present key value,
      param.2.all Char.isDigit = true := by
  cases present <;> simp [optionalParam, digits, -List.all_eq_true]

private theorem issuedParams_digits :
    ∀ param ∈ issuedParams request seq, param.2.all Char.isDigit = true := by
  simp only [issuedParams, List.forall_mem_cons, List.forall_mem_append,
    paddedDecimal_all_digits, decimal_all_digits, true_and]
  exact ⟨⟨optionalParam_digits (by decide) _ _,
    optionalParam_digits (by decide) _ _⟩,
    optionalParam_digits (decimal_all_digits _) _ _⟩

theorem forEachParam_issueQuery :
    forEachParam (issueQuery request seq) =
      (issuedParams request seq).map named := by
  rw [forEachParam, issueQuery_eq_print]
  refine Query.params_print ?_ ?_
  · simp [issuedParams]
  · intro pair member
    obtain ⟨param, paramMember, rfl⟩ := List.mem_map.mp member
    exact {
      keyWithoutEquals := equals_not_mem_name param.1
      keyWithoutAmpersand := ampersand_not_mem_name param.1
      valueWithoutAmpersand :=
        ampersand_not_mem_digits
          (issuedParams_digits request seq param paramMember)
    }

/-- A list of known parameters is accepted when every value can be read. -/
theorem foldlM_named {dnnNames : List Str} {params : List (ParamKey × Str)}
    {start final : DecideState}
    (read :
      params.foldlM
          (fun state param => readParam dnnNames state param.2 param.1)
          start =
        some final) :
    (params.map named).foldlM (decideParam dnnNames) start = .ok final := by
  induction params generalizing start with
  | nil =>
    cases read
    rfl
  | cons param later inductionHypothesis =>
    rw [List.foldlM_cons] at read
    obtain ⟨middle, first, rest⟩ := Option.bind_eq_some_iff.mp read
    have accepted : decideParam dnnNames start (named param) = .ok middle :=
      decideParam_eq_ok_iff.mpr first
    rw [List.map_cons, List.foldlM_cons, accepted]
    exact inductionHypothesis rest

theorem parseU64Sv_decimal (number : UInt64) :
    parseU64Sv (decimal number.toNat) = some number := by
  have bound := number.toNat_lt
  rw [parseU64Sv, parseDigits_decimal (by decide) (by omega),
    UInt64.ofNat_toNat]

theorem numberParam_decimal
    {low high number : UInt64} (above : low ≤ number) (below : number ≤ high) :
    numberParam low high (decimal number.toNat) = some number := by
  rw [numberParam, parseU64Sv_decimal]
  simp [above, below]

theorem imsiParam_paddedDecimal
    {imsi : UInt64} (positive : 1 ≤ imsi.toNat) (bound : imsi.toNat < 10 ^ 15) :
    imsiParam (paddedDecimal 15 imsi.toNat) = some imsi := by
  have nonzero : imsi ≠ 0 := by
    rintro rfl
    exact absurd positive (by decide)
  have read : parseImsi (paddedDecimal 15 imsi.toNat) = some imsi := by
    have padded := parseDigits_paddedDecimal (by decide) bound
    rw [UInt64.ofNat_toNat] at padded
    exact padded
  rw [imsiParam, read]
  simp [nonzero]

theorem parseImei_paddedDecimal {imei : UInt64} (bound : imei.toNat < 10 ^ 15) :
    parseImei (paddedDecimal 15 imei.toNat) = some imei := by
  have nonempty : paddedDecimal 15 imei.toNat ≠ [] := by
    have length := length_paddedDecimal (by decide : 0 < 15) bound
    exact List.length_pos_iff.mp (by omega)
  have padded := parseDigits_paddedDecimal (by decide) bound
  rw [UInt64.ofNat_toNat] at padded
  rw [parseImei, if_neg nonempty]
  exact padded

/-- The number of a DNN is read back when it does not name another DNN. -/
theorem dnnParam_decimal {dnnNames : List Str} {dnnId : UInt8}
    (listed : dnnId.toNat < dnnNames.length)
    (ownName : ∀ index,
      dnnNames.findIdx? (· == decimal dnnId.toNat) = some index →
        index = dnnId.toNat) :
    dnnParam dnnNames (decimal dnnId.toNat) = some dnnId := by
  rw [dnnParam]
  cases found : dnnNames.findIdx? (· == decimal dnnId.toNat) with
  | some index =>
    dsimp only
    rw [ownName index found, UInt8.ofNat_toNat]
  | none =>
    have read : parseU64Sv (decimal dnnId.toNat) = some dnnId.toUInt64 := by
      rw [← UInt8.toNat_toUInt64]
      exact parseU64Sv_decimal _
    dsimp only
    rw [read]
    simp [listed]

theorem ratParam_decimal {ratType : UInt8} (listed : ratType.toNat < 3) :
    ratParam (decimal ratType.toNat) = some ratType := by
  have cases : ratType = 0 ∨ ratType = 1 ∨ ratType = 2 := by
    simp only [← UInt8.toNat_inj, UInt8.reduceToNat]
    omega
  rcases cases with rfl | rfl | rfl <;> decide

/-- What the query of a request carries. -/
def received (request : PolicyRequest) : PolicyRequest where
  magicVersion := kMagicVersion
  seq := request.seq
  imsi := request.imsi
  imei := request.imei
  plmn := request.plmn
  tac := request.tac
  ratType := request.ratType
  dnnId := request.dnnId
  requested5qi := request.requested5qi
  localMinute := request.localMinute
  flags :=
    requestFlags
      (hasFlag request.flags kReqFlagTetheringDetected)
      (hasFlag request.flags kReqFlagEmergency)
      (hasFlag request.flags kReqFlagUsageValid)
  bytesUsedPeriod :=
    if hasFlag request.flags kReqFlagUsageValid then
      request.bytesUsedPeriod
    else
      0

/-- What a query carries is what a policy looks at. -/
theorem received_alike :
    (received request).Alike request where
  imei := rfl
  plmn := rfl
  dnnId := rfl
  ratType := rfl
  gbr := rfl
  minute := rfl
  tethering := (hasFlag_requestFlags _ _ _).1
  emergency := (hasFlag_requestFlags _ _ _).2.1
  usageValid := (hasFlag_requestFlags _ _ _).2.2
  usage := by
    intro valid
    have valid : hasFlag request.flags kReqFlagUsageValid = true := by
      rw [← valid]
      exact (hasFlag_requestFlags _ _ _).2.2.symm
    simp [received, valid]

/-- A roaming partner of a compiled rule set has at most six digits. -/
theorem partner_lt {files : Str → Option Str} {text : Str} {version : UInt32}
    {ruleSet : RuleSet} {key : UInt64}
    (compiled : (compileRules files text version).ruleSet = some ruleSet)
    (partner : ruleSet.roamingPartners.contains key = true) :
    key.toNat < 1000000 := by
  obtain ⟨root, _, accepted⟩ := compileRules_ruleSet_iff.mp compiled
  rw [roamingPartners_eq accepted, FlatSet64.contains_rebuild] at partner
  obtain ⟨plmn, listed, rfl⟩ := List.mem_map.mp partner.2
  rw [UInt32.toNat_toUInt64]
  unfold listedPartners at listed
  split at listed
  · obtain ⟨item, _, parsed⟩ := List.mem_filterMap.mp listed
    exact parsePlmn_lt parsed
  · cases listed

theorem Visited.lt {plmn : UInt32} (visited : Visited plmn) :
    plmn.toNat < 1000000 := by
  rcases visited with rfl | rfl | ⟨_, _, _, _, compiled, partner⟩
  · decide
  · decide
  · simpa using partner_lt compiled partner

section

variable {ruleSet : RuleSet} {request : PolicyRequest}
    (issuable : Issuable ruleSet request)
    (sixDigits : 100000 ≤ request.plmn.toNat)
    (ownName : ∀ index,
      ruleSet.dnnNames.findIdx? (· == decimal request.dnnId.toNat) =
          some index →
        index = request.dnnId.toNat)

include issuable sixDigits ownName

/-- Every parameter of the query is read back. -/
theorem foldlM_issuedParams :
    (issuedParams request request.seq).foldlM
        (fun state param =>
          readParam ruleSet.dnnNames state param.2 param.1)
        DecideState.initial =
      some { request := received request, haveImsi := true } := by
  have plmnRead : parsePlmn (decimal request.plmn.toNat) = _ :=
    parsePlmn_decimal sixDigits issuable.visited.lt
  have qosRead :
      numberParam 1 255 (decimal request.requested5qi.toNat) =
        some request.requested5qi.toUInt64 := by
    have bound := request.requested5qi.toNat_lt
    have positive := issuable.qosPositive
    rw [← UInt8.toNat_toUInt64]
    apply numberParam_decimal
    · rw [UInt64.le_iff_toNat_le, UInt8.toNat_toUInt64]
      exact positive
    · rw [UInt64.le_iff_toNat_le, UInt8.toNat_toUInt64]
      exact Nat.le_of_lt_succ bound
  have tacRead :
      numberParam 0 65535 (decimal request.tac.toNat) =
        some request.tac.toUInt64 := by
    have bound := request.tac.toNat_lt
    rw [← UInt16.toNat_toUInt64]
    apply numberParam_decimal
    · rw [UInt64.le_iff_toNat_le]
      exact Nat.zero_le _
    · rw [UInt64.le_iff_toNat_le, UInt16.toNat_toUInt64]
      exact Nat.le_of_lt_succ bound
  have minuteRead :
      numberParam 0 1439 (decimal request.localMinute.toNat) =
        some request.localMinute.toUInt64 := by
    rw [← UInt16.toNat_toUInt64]
    apply numberParam_decimal
    · rw [UInt64.le_iff_toNat_le]
      exact Nat.zero_le _
    · rw [UInt64.le_iff_toNat_le, UInt16.toNat_toUInt64]
      exact issuable.minuteBound
  have seqRead :
      parseU64Sv (decimal request.seq.toNat) =
        some request.seq.toUInt64 := by
    rw [← UInt32.toNat_toUInt64]
    exact parseU64Sv_decimal _
  have raised : raisesFlag ['1'] = true := by decide
  simp only [issuedParams, List.foldlM_cons, List.foldlM_append,
    readParam, imsiParam_paddedDecimal issuable.imsiPositive issuable.imsiBound,
    parseImei_paddedDecimal issuable.imeiBound, plmnRead,
    dnnParam_decimal issuable.dnnListed ownName,
    ratParam_decimal issuable.ratListed, qosRead, tacRead, minuteRead,
    seqRead, Option.map_some, Option.bind_eq_bind, Option.bind_some]
  unfold received
  cases hasFlag request.flags kReqFlagTetheringDetected <;>
    cases hasFlag request.flags kReqFlagEmergency <;>
    cases hasFlag request.flags kReqFlagUsageValid <;>
    simp [optionalParam, raised, parseU64Sv_decimal, DecideState.write,
      DecideState.initial, raise, requestFlags]

/-- The query of a request is read as what it carries. -/
theorem parseDecideQuery_issueQuery :
    parseDecideQuery ruleSet (issueQuery request request.seq) =
      .ok (received request) := by
  have read := foldlM_named (foldlM_issuedParams issuable sixDigits ownName)
  rw [parseDecideQuery, forEachParam_issueQuery, read]
  rfl

end

/--
A request whose PLMN prints in six digits and whose DNN number names no other
DNN is read back in every field a decision depends on, and the two paths decide
it alike.  The client's timestamp does not travel over HTTP.
-/
theorem http_path_agrees_with_binary_path
    {ruleSet : RuleSet}
    {request : PolicyRequest}
    (issuable : Issuable ruleSet request)
    (sixDigits : 100000 ≤ request.plmn.toNat)
    (ownName : ∀ index,
      ruleSet.dnnNames.findIdx? (· == decimal request.dnnId.toNat) =
          some index →
        index = request.dnnId.toNat) :
    ∃ parsed,
      parseDecideQuery ruleSet (issueQuery request request.seq) =
          .ok parsed ∧
        parsed.seq = request.seq ∧
        parsed.imsi = request.imsi ∧
        parsed.requested5qi = request.requested5qi ∧
        parsed.localMinute = request.localMinute ∧
        parsed.Alike request ∧
        ∀ store now,
          decideRequest ruleSet store now parsed =
            (evaluateWithStore ruleSet store request now).map
              fun decision => { decision with clientTsNs := 0 } := by
  refine ⟨received request,
    parseDecideQuery_issueQuery issuable sixDigits ownName,
    rfl, rfl, rfl, rfl, received_alike request, ?_⟩
  intro store now
  have hasNetwork : (received request).plmn ≠ 0 := by
    intro isZero
    have zeroNat := congrArg UInt32.toNat isZero
    have positive : 100000 ≤ (received request).plmn.toNat := sixDigits
    rw [zeroNat] at positive
    exact absurd positive (by decide)
  rw [decideRequest, evaluateWithStore, Option.map_map]
  refine congrArg (Option.map · _) ?_
  funext record
  rw [withHomePlmn, if_neg hasNetwork]
  exact evaluate_eq_of_alike (received_alike request) rfl ruleSet record now

/-- A rule set that allows subscribers in their home network. -/
def homeRules : RuleSet where
  rules :=
    [{ matchMask := Feat.bit Feat.kHomePlmn
       matchValue := Feat.bit Feat.kHomePlmn
       id := 1 }]
  dnnNames := ["internet".toList]
  defaultAction := { verdict := Verdict.deny.code }

/-- A request in the second fixed network of the load generator. -/
def homeRequest : PolicyRequest where
  magicVersion := kMagicVersion
  seq := 7
  imsi := 310260000000001
  plmn := 310260
  requested5qi := 9
  localMinute := 720
  clientTsNs := 5

theorem homeRequest_issuable :
    Issuable homeRules homeRequest where
  imsiPositive := by decide
  imsiBound := by decide
  imeiBound := by decide
  dnnListed := by decide
  ratListed := by decide
  qosPositive := by decide
  minuteBound := by decide
  visited := .inr (.inl rfl)

/-- The two paths agree on the request in the network `310260`. -/
theorem http_path_agrees_with_binary_path_homeRequest :
    ∃ parsed,
      parseDecideQuery homeRules (issueQuery homeRequest homeRequest.seq) =
          .ok parsed ∧
        parsed.plmn = 310260 := by
  obtain ⟨parsed, read, _, _, _, _, alike, _⟩ :=
    http_path_agrees_with_binary_path homeRequest_issuable (by decide)
      (by decide)
  exact ⟨parsed, read, alike.plmn⟩

/-- The decisions of the HTTP path and of the binary path. -/
def bothPaths
    (ruleSet : RuleSet) (record : SubscriberRecord) (request : PolicyRequest) :
    Option (PolicyDecision × PolicyDecision) := do
  let (store, _) ← (SubscriberStore.create 4 (1 / 2)).upsert record
  let parsed ←
    (parseDecideQuery ruleSet (issueQuery request request.seq)).toOption
  let overHttp ← decideRequest ruleSet store 0 parsed
  let overUdp ← evaluateWithStore ruleSet store request 0
  return (overHttp, overUdp)

/-- A request in the first fixed network of the load generator. -/
def visitedRequest : PolicyRequest :=
  { homeRequest with plmn := 46000 }

/-- A rule set whose DNNs are named by each other's number. -/
def swappedRules : RuleSet where
  rules :=
    [{ matchMask := Feat.bit Feat.kDnnBase
       matchValue := Feat.bit Feat.kDnnBase
       id := 1 }]
  dnnNames := ["1".toList, "0".toList]
  defaultAction := { verdict := Verdict.deny.code }

/--
The packed network `46000` is read as `460000`, so a subscriber at home there
is allowed over UDP and denied over HTTP; a DNN number that names another DNN
is read as that one; and the echoed timestamp is missing over HTTP.
-/
theorem issued_requests_answered_differently :
    Issuable homeRules visitedRequest ∧
      (bothPaths homeRules { imsi := 310260000000001, homePlmn := 46000 }
          visitedRequest).map
          (fun decisions => (decisions.1.verdict, decisions.2.verdict)) =
        some (Verdict.deny.code, Verdict.allow.code) ∧
      Issuable swappedRules homeRequest ∧
      (bothPaths swappedRules { imsi := 1 } homeRequest).map
          (fun decisions => (decisions.1.verdict, decisions.2.verdict)) =
        some (Verdict.deny.code, Verdict.allow.code) ∧
      Issuable homeRules homeRequest ∧
      (bothPaths homeRules { imsi := 1 } homeRequest).map
          (fun decisions =>
            (decisions.1.clientTsNs, decisions.2.clientTsNs)) =
        some (0, 5) := by
  refine ⟨?_, by decide +kernel, ?_, by decide +kernel,
    homeRequest_issuable, by decide +kernel⟩
  · exact { homeRequest_issuable with visited := .inl rfl }
  · exact { homeRequest_issuable with dnnListed := by decide }

end Policyd.Loadgen
