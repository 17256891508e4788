import Policyd.CNumbers
import Policyd.DecideQuery
import Policyd.RequestAgreement

namespace Policyd.ControlPlane

open HttpFront

/-!
# The query of `/explain`

The control plane reads the parameters of a decision with code of its own: the
admin server decodes the query into a map in which the last pair of a key wins,
numbers are read by `strtoull` and cast, and a flag is set by its presence.
-/

/-- Undo percent-encoding; malformed escapes stay as they are. -/
def urlDecode : Str → Str
  | [] => []
  | '+' :: rest => ' ' :: urlDecode rest
  | '%' :: high :: low :: rest =>
    if isDigitOf 16 high && isDigitOf 16 low then
      Char.ofNat (valueIn 16 [high, low]) :: urlDecode rest
    else
      '%' :: urlDecode (high :: low :: rest)
  | char :: rest => char :: urlDecode rest

/-- The decoded pairs of a query, in order. -/
def decodedParams (query : Str) : List (Str × Str) :=
  (Query.params query).map fun pair => (urlDecode pair.1, urlDecode pair.2)

/-- A refused request: the status and the message of the response. -/
structure HttpError where
  status : Nat
  message : Str
  deriving Repr, DecidableEq

/-- A numeric parameter with its default. -/
def uintParam (value : Option Str) (default : UInt64) : UInt64 :=
  match value with
  | none => default
  | some text =>
    ((strtoull 10 (Str.cString text)).map Prod.fst).getD 0

/-- The DNN parameter, which must be a name. -/
def explainDnn (dnnNames : List Str) (value : Option Str) :
    Except HttpError UInt8 :=
  match value with
  | none => .ok 0
  | some name =>
    match dnnNames.findIdx? (· == name) with
    | some index => .ok (UInt8.ofNat index)
    | none =>
      .error
        { status := 400
          message := "unknown DNN '".toList ++ name ++ "'".toList }

/-- The request that the parameters describe. -/
def explainRequest (dnnNames : List Str) (params : List (Str × Str)) :
    Except HttpError PolicyRequest :=
  let param := lastParam params
  match param .imsi with
  | none =>
    .error
      { status := 400, message := "imsi parameter is required".toList }
  | some imsiText =>
    match parseImsi imsiText with
    | none => .error { status := 400, message := "invalid IMSI".toList }
    | some imsi =>
      (explainDnn dnnNames (param .dnn)).map fun dnnId =>
        { magicVersion := kMagicVersion
          imsi := imsi
          imei := ((param .imei).bind parseImei).getD 0
          plmn :=
            ((param .plmn).bind parsePlmn).getD
              (uintParam (param .plmn) 0).toUInt32
          ratType := (uintParam (param .rat) 0).toUInt8
          requested5qi := (uintParam (param .qos5qi) 9).toUInt8
          localMinute := (uintParam (param .minute) 720).toUInt16
          dnnId := dnnId
          bytesUsedPeriod := uintParam (param .usage) 0
          flags :=
            requestFlags (param .tethering).isSome
              (param .emergency).isSome (param .usage).isSome }

/-- The decision that `/explain` reports. -/
def handleExplain
    (current : Option RuleSet) (store : SubscriberStore) (now : UInt64)
    (query : Str) :
    Option (Except HttpError PolicyDecision) :=
  match current with
  | none =>
    some (.error { status := 503, message := "no policy loaded".toList })
  | some ruleSet =>
    match explainRequest ruleSet.dnnNames (decodedParams query) with
    | .error problem => some (.error problem)
    | .ok request =>
      (store.find request.imsi).map fun record =>
        .ok (evaluate ruleSet (withHomePlmn request record) record now)

/-- A text without escapes is its own decoding. -/
theorem urlDecode_of_plain
    {text : Str} (noPercent : '%' ∉ text) (noPlus : '+' ∉ text) :
    urlDecode text = text := by
  induction text with
  | nil => rfl
  | cons char rest inductionHypothesis =>
    simp only [List.mem_cons, not_or] at noPercent noPlus
    have restDecoded := inductionHypothesis noPercent.2 noPlus.2
    unfold urlDecode
    split
    case h_1 shape => cases shape
    case h_2 shape =>
      cases shape
      exact (noPlus.1 rfl).elim
    case h_3 shape =>
      cases shape
      exact (noPercent.1 rfl).elim
    case h_4 shape =>
      cases shape
      rw [restDecoded]

/-- Without escapes both handlers see the same pairs. -/
theorem decodedParams_of_plain
    {query : Str} (noPercent : '%' ∉ query) (noPlus : '+' ∉ query) :
    decodedParams query = forEachParam query := by
  have unchanged :
      ∀ pair ∈ Query.params query,
        (urlDecode pair.1, urlDecode pair.2) = id pair := by
    intro pair member
    obtain ⟨inKey, inValue⟩ := Query.mem_of_mem_params member
    rw [urlDecode_of_plain (fun char => noPercent (inKey '%' char))
        (fun char => noPlus (inKey '+' char)),
      urlDecode_of_plain (fun char => noPercent (inValue '%' char))
        (fun char => noPlus (inValue '+' char))]
    rfl
  rw [decodedParams, List.map_congr_left unchanged, List.map_id, forEachParam]

/-- What `strtoull` makes of a numeral. -/
theorem uintParam_digits {value : Str}
    (nonempty : value ≠ []) (digits : value.all Char.isDigit = true)
    (default : UInt64) :
    uintParam (some value) default =
      if 2 ^ 64 ≤ numeralValue value then
        UInt64.ofNat (2 ^ 64 - 1)
      else
        UInt64.ofNat (numeralValue value) := by
  rw [uintParam, cString_digits digits, strtoull_digits nonempty digits]
  rfl

end Policyd.ControlPlane
