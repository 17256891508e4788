import Policyd.Explain
import Policyd.FeatureBits
import Policyd.RuleCompiler
import Policyd.StoreRefinement

namespace Policyd.ControlPlane

open HttpFront

/-!
# When `/explain` explains the decision of `/v1/decide`

For a query that both handlers accept, the two requests agree in every
parameter except six.  `ReadAlike` says which values of these six both handlers
read alike.  A query that meets it is explained as it is decided, under every
policy; for any other some policy and store decide it in one way and explain it
in another.
-/

/-- The values that both handlers read alike. -/
structure ReadAlike (params : List (Str × Str)) : Prop where
  rat :
    ∀ value, lastParam params .rat = some value →
      value = "LTE".toList ∨ value = "lte".toList ∨
        value.all Char.isDigit = true ∧ numeralValue value < 2 ^ 64
  qos5qi :
    ∀ value, lastParam params .qos5qi = some value →
      numeralValue value < 2 ^ 64 ∨
        isGbr5qi (UInt8.ofNat (numeralValue value)) = false
  minute :
    ∀ value, lastParam params .minute = some value →
      numeralValue value < 2 ^ 64 ∨ numeralValue value % 2 ^ 64 = 735
  usage :
    ∀ value, lastParam params .usage = some value →
      numeralValue value < 2 ^ 64 ∨
        numeralValue value % 2 ^ 64 = 2 ^ 64 - 1
  tethering :
    (lastParam params .tethering).isSome = true →
      anyParam params .tethering raisesFlag = true
  emergency :
    (lastParam params .emergency).isSome = true →
      anyParam params .emergency raisesFlag = true

variable {value : Str} {number : UInt64} {last : Option Str} {position : Nat}

theorem parseU64Sv_eq_some (parsed : parseU64Sv value = some number) :
    value ≠ [] ∧ value.all Char.isDigit = true ∧
      number = UInt64.ofNat (numeralValue value) := by
  obtain ⟨nonempty, _, digits, shape⟩ := parseDigits_eq_some_iff.mp parsed
  exact ⟨nonempty, digits, shape⟩

theorem numberParam_eq_some
    {low high : UInt64} (parsed : numberParam low high value = some number) :
    parseU64Sv value = some number ∧ low ≤ number ∧ number ≤ high := by
  obtain ⟨read, bounds⟩ := Option.filter_eq_some_iff.mp parsed
  simp only [Bool.and_eq_true, decide_eq_true_iff] at bounds
  exact ⟨read, bounds⟩

/-- `strtoull` reads an accepted number without wrapping it. -/
theorem uintParam_of_parseU64Sv
    (parsed : parseU64Sv value = some number) (default : UInt64) :
    (numeralValue value < 2 ^ 64 ∧ uintParam (some value) default = number ∧
        number.toNat = numeralValue value) ∨
      (2 ^ 64 ≤ numeralValue value ∧
        uintParam (some value) default = UInt64.ofNat (2 ^ 64 - 1) ∧
        number.toNat = numeralValue value % 2 ^ 64) := by
  obtain ⟨nonempty, digits, rfl⟩ := parseU64Sv_eq_some parsed
  rw [uintParam_digits nonempty digits]
  by_cases small : numeralValue value < 2 ^ 64
  · left
    refine ⟨small, if_neg (by omega), ?_⟩
    rw [UInt64.toNat_ofNat', Nat.mod_eq_of_lt small]
  · right
    exact ⟨by omega, if_pos (by omega), UInt64.toNat_ofNat'⟩

/-- The access types agree. -/
theorem rat_agrees_iff {ratType : UInt8}
    (read :
      Query.LastRead (fun value ratType => ratParam value = some ratType) 0
        last ratType) :
    (uintParam last 0).toUInt8 = ratType ↔
      ∀ value, last = some value →
        value = "LTE".toList ∨ value = "lte".toList ∨
          value.all Char.isDigit = true ∧ numeralValue value < 2 ^ 64 := by
  cases last with
  | none =>
    have unread : ratType = 0 := read
    simp [uintParam, unread]
  | some value =>
    have valueRead : ratParam value = some ratType := read
    simp only [Option.some.injEq, forall_eq']
    unfold ratParam at valueRead
    split_ifs at valueRead with isLte isNr isWlan
    · simp only [List.contains_cons, List.contains_nil, Bool.or_false,
        Bool.or_eq_true, beq_iff_eq] at isLte
      cases valueRead
      rcases isLte with rfl | rfl | rfl <;> decide
    · simp only [List.contains_cons, List.contains_nil, Bool.or_false,
        Bool.or_eq_true, beq_iff_eq] at isNr
      cases valueRead
      rcases isNr with rfl | rfl | rfl <;> decide
    · simp only [List.contains_cons, List.contains_nil, Bool.or_false,
        Bool.or_eq_true, beq_iff_eq] at isWlan
      cases valueRead
      rcases isWlan with rfl | rfl | rfl <;> decide
    · obtain ⟨number, numberRead, rfl⟩ := Option.map_eq_some_iff.mp valueRead
      obtain ⟨parsed, small⟩ := Option.filter_eq_some_iff.mp numberRead
      have notLte : value ≠ "LTE".toList ∧ value ≠ "lte".toList := by
        constructor <;> rintro rfl <;> exact isLte (by decide)
      have digits := (parseU64Sv_eq_some parsed).2.1
      simp only [notLte.1, notLte.2, digits, false_or, true_and]
      rcases uintParam_of_parseU64Sv parsed 0 with
        ⟨below, same, _⟩ | ⟨above, saturated, _⟩
      · exact iff_of_true (by rw [same]) below
      · have small : number.toNat < 3 := by
          simpa [UInt64.lt_iff_toNat_lt] using small
        refine iff_of_false ?_ (by omega)
        rw [saturated]
        intro same
        have sameNat := congrArg UInt8.toNat same
        rw [UInt64.toNat_toUInt8, UInt64.toNat_toUInt8] at sameNat
        have saturatedNat :
            (UInt64.ofNat (2 ^ 64 - 1)).toNat % 2 ^ 8 = 255 := by decide
        omega

/-- The guaranteed-bit-rate classes agree. -/
theorem qos5qi_agrees_iff {requested : UInt8}
    (read :
      Query.LastRead
        (fun value requested =>
          (numberParam 1 255 value).map (·.toUInt8) = some requested)
        9 last requested) :
    isGbr5qi (uintParam last 9).toUInt8 = isGbr5qi requested ↔
      ∀ value, last = some value →
        numeralValue value < 2 ^ 64 ∨
          isGbr5qi (UInt8.ofNat (numeralValue value)) = false := by
  cases last with
  | none =>
    have unread : requested = 9 := read
    simp [uintParam, unread]
  | some value =>
    simp only [Option.some.injEq, forall_eq']
    obtain ⟨number, numberRead, rfl⟩ := Option.map_eq_some_iff.mp read
    obtain ⟨parsed, _, _⟩ := numberParam_eq_some numberRead
    have wrapped : UInt8.ofNat (numeralValue value) = number.toUInt8 := by
      rw [(parseU64Sv_eq_some parsed).2.2]
      apply UInt8.toNat_inj.mp
      simp only [UInt8.toNat_ofNat', UInt64.toNat_toUInt8, UInt64.toNat_ofNat']
      omega
    rw [wrapped]
    rcases uintParam_of_parseU64Sv parsed 9 with
      ⟨below, same, _⟩ | ⟨above, saturated, _⟩
    · exact iff_of_true (by rw [same]) (.inl below)
    · have notGbr : isGbr5qi (UInt64.ofNat (2 ^ 64 - 1)).toUInt8 = false := by
        decide
      rw [saturated, notGbr, eq_comm]
      simp only [or_iff_right (by omega : ¬ numeralValue value < 2 ^ 64)]

/-- The minutes of the day agree. -/
theorem minute_agrees_iff {minute : UInt16}
    (read :
      Query.LastRead
        (fun value minute =>
          (numberParam 0 1439 value).map (·.toUInt16) = some minute)
        720 last minute) :
    (uintParam last 720).toUInt16.toNat % 1440 = minute.toNat % 1440 ↔
      ∀ value, last = some value →
        numeralValue value < 2 ^ 64 ∨ numeralValue value % 2 ^ 64 = 735 := by
  cases last with
  | none =>
    have unread : minute = 720 := read
    simp [uintParam, unread]
  | some value =>
    simp only [Option.some.injEq, forall_eq']
    obtain ⟨number, numberRead, rfl⟩ := Option.map_eq_some_iff.mp read
    obtain ⟨parsed, _, upper⟩ := numberParam_eq_some numberRead
    have small : number.toNat ≤ 1439 := by
      simpa [UInt64.le_iff_toNat_le] using upper
    rcases uintParam_of_parseU64Sv parsed 720 with
      ⟨below, same, _⟩ | ⟨above, saturated, wrapped⟩
    · exact iff_of_true (by rw [same]) (.inl below)
    · have saturatedNat :
          (UInt64.ofNat (2 ^ 64 - 1)).toUInt16.toNat % 1440 = 735 := by
        decide
      rw [saturated, saturatedNat, UInt64.toNat_toUInt16, ← wrapped,
        Nat.mod_eq_of_lt (by omega : number.toNat < 2 ^ 16),
        Nat.mod_eq_of_lt (by omega : number.toNat < 1440)]
      omega

/-- The reported usages agree. -/
theorem usage_agrees_iff {usage : UInt64}
    (read :
      Query.LastRead (fun value usage => parseU64Sv value = some usage) 0
        last usage) :
    uintParam last 0 = usage ↔
      ∀ value, last = some value →
        numeralValue value < 2 ^ 64 ∨
          numeralValue value % 2 ^ 64 = 2 ^ 64 - 1 := by
  cases last with
  | none =>
    have unread : usage = 0 := read
    simp [uintParam, unread]
  | some value =>
    have parsed : parseU64Sv value = some usage := read
    simp only [Option.some.injEq, forall_eq']
    rcases uintParam_of_parseU64Sv parsed 0 with
      ⟨below, same, _⟩ | ⟨above, saturated, wrapped⟩
    · exact iff_of_true (by rw [same]) (.inl below)
    · have saturatedNat :
          (UInt64.ofNat (2 ^ 64 - 1)).toNat = 2 ^ 64 - 1 := by decide
      rw [saturated, ← UInt64.toNat_inj, saturatedNat, wrapped]
      omega

theorem usage_saturated {usage : UInt64}
    (read :
      Query.LastRead (fun value usage => parseU64Sv value = some usage) 0
        last usage) :
    uintParam last 0 = usage ∨
      uintParam last 0 = UInt64.ofNat (2 ^ 64 - 1) := by
  cases last with
  | none => exact .inl (Eq.symm read)
  | some value =>
    rcases uintParam_of_parseU64Sv read 0 with
      ⟨_, same, _⟩ | ⟨_, saturated, _⟩
    · exact .inl same
    · exact .inr saturated

/-- An accepted access type is one of three. -/
theorem rat_listed {ratType : UInt8}
    (read :
      Query.LastRead (fun value ratType => ratParam value = some ratType) 0
        last ratType) :
    ratType.toNat < 3 := by
  cases last with
  | none =>
    have unread : ratType = 0 := read
    rw [unread]
    decide
  | some value =>
    have valueRead : ratParam value = some ratType := read
    unfold ratParam at valueRead
    split_ifs at valueRead
    · cases valueRead
      decide
    · cases valueRead
      decide
    · cases valueRead
      decide
    · obtain ⟨number, numberRead, rfl⟩ := Option.map_eq_some_iff.mp valueRead
      obtain ⟨_, small⟩ := Option.filter_eq_some_iff.mp numberRead
      have small : number.toNat < 3 := by
        simpa [UInt64.lt_iff_toNat_lt] using small
      rw [UInt64.toNat_toUInt8]
      omega

/-- How the fields of an explained request come from its parameters. -/
structure ExplainRead
    (dnnNames : List Str)
    (params : List (Str × Str))
    (request : PolicyRequest) : Prop where
  imsi :
    ∃ value,
      lastParam params .imsi = some value ∧
        parseImsi value = some request.imsi
  imei : request.imei = ((lastParam params .imei).bind parseImei).getD 0
  plmn :
    request.plmn =
      ((lastParam params .plmn).bind parsePlmn).getD
        (uintParam (lastParam params .plmn) 0).toUInt32
  dnnId : explainDnn dnnNames (lastParam params .dnn) = .ok request.dnnId
  ratType : request.ratType = (uintParam (lastParam params .rat) 0).toUInt8
  requested5qi :
    request.requested5qi =
      (uintParam (lastParam params .qos5qi) 9).toUInt8
  localMinute :
    request.localMinute =
      (uintParam (lastParam params .minute) 720).toUInt16
  bytesUsedPeriod :
    request.bytesUsedPeriod = uintParam (lastParam params .usage) 0
  flags :
    request.flags =
      requestFlags (lastParam params .tethering).isSome
        (lastParam params .emergency).isSome
        (lastParam params .usage).isSome

/-- An accepted request is read as described. -/
theorem explainRead_of_ok
    {dnnNames : List Str} {params : List (Str × Str)} {request : PolicyRequest}
    (accepted : explainRequest dnnNames params = .ok request) :
    ExplainRead dnnNames params request := by
  unfold explainRequest at accepted
  dsimp only at accepted
  split at accepted
  · cases accepted
  case h_2 imsiText imsiFound =>
    split at accepted
    · cases accepted
    case h_2 imsi imsiRead =>
      cases dnnRead : explainDnn dnnNames (lastParam params .dnn) with
      | error problem =>
        rw [dnnRead] at accepted
        cases accepted
      | ok dnnId =>
        rw [dnnRead] at accepted
        cases accepted
        exact
          { imsi := ⟨imsiText, imsiFound, imsiRead⟩
            imei := rfl
            plmn := rfl
            dnnId := dnnRead
            ratType := rfl
            requested5qi := rfl
            localMinute := rfl
            bytesUsedPeriod := rfl
            flags := rfl }

section Requests

variable {dnnNames : List Str}
variable {params : List (Str × Str)}
variable {decided explained : PolicyRequest}

/-- The handlers agree about everything else. -/
structure AgreeElsewhere (decided explained : PolicyRequest) : Prop where
  imsi : explained.imsi = decided.imsi
  imei : explained.imei = decided.imei
  plmn : explained.plmn = decided.plmn
  dnnId : explained.dnnId = decided.dnnId
  usageValid :
    hasFlag explained.flags kReqFlagUsageValid =
      hasFlag decided.flags kReqFlagUsageValid

theorem lastParam_isSome (params : List (Str × Str)) (key : ParamKey) :
    (lastParam params key).isSome = anyParam params key fun _ => true := by
  rw [lastParam, Query.lastValue_isSome, anyParam]
  simp

/-- Identity, device, network, DNN and the presence of usage agree. -/
theorem agreeElsewhere (decideRead : DecideRead dnnNames params decided)
    (explainRead : ExplainRead dnnNames params explained) :
    AgreeElsewhere decided explained where
  imsi := by
    obtain ⟨value, found, read⟩ := decideRead.imsi
    obtain ⟨other, otherFound, otherRead⟩ := explainRead.imsi
    obtain ⟨parsed, _⟩ := Option.filter_eq_some_iff.mp read
    cases found.symm.trans otherFound
    exact Option.some.inj (otherRead.symm.trans parsed)
  imei := by
    have read := decideRead.imei
    rw [explainRead.imei]
    cases last : lastParam params .imei with
    | none =>
      rw [last] at read
      exact read.symm
    | some value =>
      rw [last] at read
      have parsed : parseImei value = some decided.imei := read
      simp [parsed]
  plmn := by
    have read := decideRead.plmn
    rw [explainRead.plmn]
    cases last : lastParam params .plmn with
    | none =>
      rw [last] at read
      exact read.symm
    | some value =>
      rw [last] at read
      have parsed : parsePlmn value = some decided.plmn := read
      simp [parsed]
  dnnId := by
    have read := decideRead.dnnId
    have named := explainRead.dnnId
    cases last : lastParam params .dnn with
    | none =>
      rw [last] at read named
      exact (Except.ok.inj named).symm.trans read.symm
    | some value =>
      rw [last] at read named
      have parsed : dnnParam dnnNames value = some decided.dnnId := read
      unfold explainDnn at named
      unfold dnnParam at parsed
      dsimp only at named
      cases found : dnnNames.findIdx? (· == value) with
      | none =>
        rw [found] at named
        cases named
      | some index =>
        rw [found] at named parsed
        exact (Except.ok.inj named).symm.trans (Option.some.inj parsed)
  usageValid := by
    rw [explainRead.flags, (hasFlag_requestFlags _ _ _).2.2,
      lastParam_isSome, decideRead.usageValid]

/-- A flag that is set by presence agrees with one that is set by value. -/
private theorem presence_agrees_iff
    (params : List (Str × Str)) (key : ParamKey) :
    (lastParam params key).isSome = anyParam params key raisesFlag ↔
      ((lastParam params key).isSome = true →
        anyParam params key raisesFlag = true) := by
  have raisedOccurs :
      anyParam params key raisesFlag = true →
        (lastParam params key).isSome = true := by
    rw [lastParam_isSome]
    simp only [anyParam, List.any_eq_true, Bool.and_eq_true]
    rintro ⟨param, member, sameKey, _⟩
    exact ⟨param, member, sameKey, trivial⟩
  constructor
  · intro same present
    exact same ▸ present
  · intro raised
    exact Bool.eq_iff_iff.mpr ⟨raised, raisedOccurs⟩

theorem alike_iff_readAlike (decideRead : DecideRead dnnNames params decided)
    (explainRead : ExplainRead dnnNames params explained) :
    explained.Alike decided ↔ ReadAlike params := by
  have elsewhere := agreeElsewhere decideRead explainRead
  have flags := hasFlag_requestFlags
    (lastParam params .tethering).isSome
    (lastParam params .emergency).isSome
    (lastParam params .usage).isSome
  rw [← explainRead.flags] at flags
  constructor
  · intro alike
    exact
      { rat := by
          apply (rat_agrees_iff decideRead.ratType).mp
          rw [← explainRead.ratType, alike.ratType]
        qos5qi := by
          apply (qos5qi_agrees_iff decideRead.requested5qi).mp
          rw [← explainRead.requested5qi, alike.gbr]
        minute := by
          apply (minute_agrees_iff decideRead.localMinute).mp
          rw [← explainRead.localMinute]
          exact alike.minute
        usage := by
          intro value found
          refine (usage_agrees_iff decideRead.bytesUsedPeriod).mp ?_ value
            found
          rw [← explainRead.bytesUsedPeriod]
          apply alike.usage
          rw [flags.2.2, found]
          rfl
        tethering := by
          apply (presence_agrees_iff params .tethering).mp
          rw [← flags.1, alike.tethering, decideRead.tethering]
        emergency := by
          apply (presence_agrees_iff params .emergency).mp
          rw [← flags.2.1, alike.emergency, decideRead.emergency] }
  · intro readAlike
    exact
      { imei := elsewhere.imei
        plmn := elsewhere.plmn
        dnnId := elsewhere.dnnId
        ratType := by
          rw [explainRead.ratType]
          exact (rat_agrees_iff decideRead.ratType).mpr readAlike.rat
        gbr := by
          rw [explainRead.requested5qi]
          exact (qos5qi_agrees_iff decideRead.requested5qi).mpr
            readAlike.qos5qi
        minute := by
          rw [minuteOfDay, explainRead.localMinute]
          exact (minute_agrees_iff decideRead.localMinute).mpr
            readAlike.minute
        tethering := by
          rw [flags.1, decideRead.tethering]
          exact (presence_agrees_iff params .tethering).mpr
            readAlike.tethering
        emergency := by
          rw [flags.2.1, decideRead.emergency]
          exact (presence_agrees_iff params .emergency).mpr
            readAlike.emergency
        usageValid := elsewhere.usageValid
        usage := by
          intro _
          rw [explainRead.bytesUsedPeriod]
          exact (usage_agrees_iff decideRead.bytesUsedPeriod).mpr
            readAlike.usage }

end Requests

/-- A rule set that allows exactly the requests with one feature. -/
def bitRules
    (dnnNames : List Str) (tables : PredicateTables) (plans : List PlanConfig)
    (position : Nat) : RuleSet where
  toPredicateTables := tables
  rules :=
    [{ matchMask := Feat.bit position
       matchValue := Feat.bit position
       id := 1 }]
  plans := plans
  dnnNames := dnnNames
  defaultAction := { verdict := Verdict.deny.code }

private theorem and_bit_eq_iff (inside : position < 64) (word : FeatureWord) :
    word &&& Feat.bit position = Feat.bit position ↔
      word.getLsbD position = true := by
  have own : (Feat.bit position).getLsbD position = true := by
    rw [Feat.bit, MaskedWords.getLsbD_oneBit inside]
    simp
  constructor
  · intro covers
    have atPosition := congrArg (·.getLsbD position) covers
    simpa [own] using atPosition
  · intro isSet
    apply BitVec.eq_of_getLsbD_eq
    intro index indexInside
    rw [BitVec.getLsbD_and, Feat.bit, MaskedWords.getLsbD_oneBit indexInside]
    by_cases same : index = position
    · simp [same, isSet]
    · simp [same]

/-- Whether the rules of a feature see it in a request. -/
def seesBit
    (dnnNames : List Str) (tables : PredicateTables) (plans : List PlanConfig)
    (position : Nat) (request : PolicyRequest)
    (record : Option SubscriberRecord)
    (now : UInt64) : Bool :=
  (buildFeatures (bitRules dnnNames tables plans position) request record
    now).getLsbD position

section Seen

variable (dnnNames : List Str) (tables : PredicateTables)
  (plans : List PlanConfig)

/-- The verdict shows whether the feature is set. -/
theorem verdict_bitRules (inside : position < 64) (request : PolicyRequest)
    (record : Option SubscriberRecord) (now : UInt64) :
    (evaluate (bitRules dnnNames tables plans position) request record
        now).verdict =
      if seesBit dnnNames tables plans position request record now then
        Verdict.allow.code
      else
        Verdict.deny.code := by
  rw [evaluate, firstHit, seesBit]
  generalize
    buildFeatures (bitRules dnnNames tables plans position) request record
      now = features
  have covers := and_bit_eq_iff inside features
  by_cases isSet : features.getLsbD position = true
  · have found :
        (bitRules dnnNames tables plans position).rules.find?
            (·.matches features (planBitFor record)) =
          some
            { matchMask := Feat.bit position
              matchValue := Feat.bit position
              id := 1 } := by
      simp [bitRules, CompiledRule.matches, covers.mpr isSet]
    rw [found, if_pos isSet]
    rfl
  · have missed :
        (bitRules dnnNames tables plans position).rules.find?
            (·.matches features (planBitFor record)) = none := by
      have differs := mt covers.mp isSet
      simp [bitRules, CompiledRule.matches, differs]
    rw [missed, if_neg isSet]
    rfl

/-- Decisions that agree under the rules agree about the feature. -/
theorem seesBit_eq_of_decided_alike (inside : position < 64)
    {first second : PolicyRequest} {record : Option SubscriberRecord}
    {now : UInt64}
    (same :
      (evaluate (bitRules dnnNames tables plans position) first record
          now).policyFields =
        (evaluate (bitRules dnnNames tables plans position) second record
          now).policyFields) :
    seesBit dnnNames tables plans position first record now =
      seesBit dnnNames tables plans position second record now := by
  have sameVerdict := congrArg PolicyDecision.verdict same
  dsimp only [PolicyDecision.policyFields] at sameVerdict
  rw [verdict_bitRules _ _ _ inside, verdict_bitRules _ _ _ inside]
    at sameVerdict
  revert sameVerdict
  cases seesBit dnnNames tables plans position first record now <;>
    cases seesBit dnnNames tables plans position second record now <;>
    decide

variable (request : PolicyRequest) (now : UInt64)

/-- The features of an unknown subscriber. -/
private theorem seesBit_unknown (inside : position < 64) :
    seesBit dnnNames tables [] position request none now = true ↔
      (position, true) ∈ accessBits request ∨
        (position, true) ∈
          deviceBits (bitRules dnnNames tables [] position) request ∨
        (position, true) ∈ windowBits tables (minuteOfDay request) ∨
        position = Feat.kStatusUnknown ∨ position = Feat.kRoaming := by
  rw [seesBit, buildFeatures, MaskedWords.getLsbD_assemble inside,
    decide_eq_true_iff]
  simp [subscriberBits, bitRules]

/-- The bit of an access type. -/
theorem ratBit_iff {code : Nat} (listed : code < 3) :
    seesBit dnnNames {} [] code request none now = true ↔
      code = request.ratType.toNat := by
  rw [seesBit_unknown _ _ _ _ (by omega), mem_accessBits]
  simp only [Feat.kRatBase, Feat.kRatBits, Feat.kDnnBase, Feat.kDnnBits,
    Feat.kStatusUnknown, Feat.kRoaming]
  constructor
  · rintro (access | device | window | unknown)
    · omega
    · have := mem_deviceBits_range device
      omega
    · have := mem_windowBits_low window
      omega
    · omega
  · intro same
    left
    omega

private theorem deviceBit_iff (range : 32 ≤ position ∧ position < 40) :
    seesBit dnnNames {} [] position request none now = true ↔
      (position, true) ∈
        deviceBits (bitRules dnnNames {} [] position) request := by
  rw [seesBit_unknown _ _ _ _ (by omega)]
  constructor
  · rintro (access | device | window | unknown)
    · have := Situation.mem_accessBits_range access
      omega
    · exact device
    · have := mem_windowBits_low window
      omega
    · simp only [Feat.kStatusUnknown, Feat.kRoaming] at unknown
      omega
  · intro device
    exact .inr (.inl device)

/-- The device bits that a request shows by its flags and its class. -/
theorem deviceBits_seen :
    seesBit dnnNames {} [] Feat.kTetheringDetected request none now =
        hasFlag request.flags kReqFlagTetheringDetected ∧
      seesBit dnnNames {} [] Feat.kEmergency request none now =
        hasFlag request.flags kReqFlagEmergency ∧
      seesBit dnnNames {} [] Feat.kRequestedGbr request none now =
        isGbr5qi request.requested5qi := by
  refine ⟨?_, ?_, ?_⟩
  all_goals
    rw [Bool.eq_iff_iff, deviceBit_iff _ _ _ (by decide)]
    simp [deviceBits, Feat.kImeiKnown, Feat.kImeiBlocked,
      Feat.kTetheringDetected, Feat.kEmergency, Feat.kRequestedGbr]

theorem minuteBit_iff (minute : Nat) :
    seesBit dnnNames
          { timeWindows :=
              [{ startMinute := minute, endMinute := minute + 1 }] }
          [] Feat.kTimeWindowBase request none now = true ↔
      minuteOfDay request = minute := by
  rw [seesBit_unknown _ _ _ _ (by decide)]
  constructor
  · rintro (access | device | window | unknown)
    · exact absurd (Situation.mem_accessBits_range access) (by decide)
    · exact absurd (mem_deviceBits_range device).2 (by decide)
    · have inside : minute ≤ minuteOfDay request ∧
          minuteOfDay request < minute + 1 := by
        simpa [windowBits, TimeWindow.contains] using window
      omega
    · exact absurd unknown (by decide)
  · rintro rfl
    right
    right
    left
    simp [windowBits, TimeWindow.contains]

end Seen

/-- A plan with the largest quota. -/
def largestPlan : PlanConfig where
  quotaBytes := UInt64.ofNat (2 ^ 64 - 1)

/-- The bit of an exhausted quota, for a subscriber of the largest plan. -/
theorem quotaBit_iff (dnnNames : List Str) {request : PolicyRequest}
    (reported : hasFlag request.flags kReqFlagUsageValid = true)
    (imsi now : UInt64) :
    seesBit dnnNames {} [largestPlan] Feat.kQuotaExhausted request
          (some { imsi := imsi }) now = true ↔
      request.bytesUsedPeriod = UInt64.ofNat (2 ^ 64 - 1) := by
  have plan :
      quotaOf (bitRules dnnNames {} [largestPlan] Feat.kQuotaExhausted)
          { imsi := imsi } =
        UInt64.ofNat (2 ^ 64 - 1) := rfl
  have usage :
      effectiveUsage request { imsi := imsi } = request.bytesUsedPeriod := by
    rw [effectiveUsage, if_pos reported]
  have largest :
      UInt64.ofNat (2 ^ 64 - 1) ≤ request.bytesUsedPeriod ↔
        request.bytesUsedPeriod = UInt64.ofNat (2 ^ 64 - 1) := by
    have bound := request.bytesUsedPeriod.toNat_lt
    have saturatedNat :
        (UInt64.ofNat (2 ^ 64 - 1)).toNat = 2 ^ 64 - 1 := by decide
    rw [UInt64.le_iff_toNat_le, ← UInt64.toNat_inj, saturatedNat]
    omega
  have nonzero : (UInt64.ofNat (2 ^ 64 - 1) != 0) = true := by decide
  rw [seesBit, buildFeatures, MaskedWords.getLsbD_assemble (by decide),
    decide_eq_true_iff]
  simp only [List.mem_append, subscriberBits, recordBits, plan, usage,
    nonzero, Bool.true_and]
  rw [← largest]
  constructor
  · rintro (((access | device) | window) | (fixed | threshold))
    · exact absurd (Situation.mem_accessBits_range access) (by decide)
    · simp [deviceBits, Feat.kQuotaExhausted, Feat.kImeiKnown,
        Feat.kImeiBlocked, Feat.kTetheringDetected, Feat.kEmergency,
        Feat.kRequestedGbr] at device
    · exact absurd (mem_windowBits_low window) (by decide)
    · simpa [statusBit, Feat.kQuotaExhausted, Feat.kStatusActive,
        Feat.kHomePlmn, Feat.kRoaming, Feat.kRoamingPartner,
        Feat.kRoamingAllowed, Feat.kTetheringAllowed,
        Feat.kPeriodExpired, SubscriberStatus.code] using fixed
    · exact absurd (mem_thresholdBits_range threshold) (by decide)
  · intro exhausted
    right
    left
    rw [decide_eq_true exhausted]
    simp

/-- Both handlers read a request from a query. -/
structure ReadByBoth
    (ruleSet : RuleSet)
    (query : Str)
    (decided explained : PolicyRequest) : Prop where
  decided : parseDecideQuery ruleSet query = .ok decided
  explained :
    explainRequest ruleSet.dnnNames (decodedParams query) = .ok explained

/-- `/explain` reports what `/v1/decide` decides, under every policy. -/
def ExplainedAsDecided (query : Str) : Prop :=
  ∀ ruleSet store now decided explained,
    answerQuery ruleSet store now query = some (.ok decided) →
      handleExplain (some ruleSet) store now query =
          some (.ok explained) →
        explained.policyFields = decided.policyFields

section Agreement

variable {ruleSet : RuleSet}
variable {query : Str}
variable {decided explained : PolicyRequest}

section

variable (read : ReadByBoth ruleSet query decided explained)

include read

theorem ReadByBoth.of_sameDnns
    {other : RuleSet} (same : other.dnnNames = ruleSet.dnnNames) :
    ReadByBoth other query decided explained where
  decided := by
    have parsed := read.decided
    rw [parseDecideQuery] at parsed ⊢
    rw [same]
    exact parsed
  explained := by
    rw [same]
    exact read.explained

theorem ReadByBoth.agreeElsewhere
    (noPercent : '%' ∉ query) (noPlus : '+' ∉ query) :
    AgreeElsewhere decided explained := by
  have explainedRead := read.explained
  rw [decodedParams_of_plain noPercent noPlus] at explainedRead
  exact ControlPlane.agreeElsewhere (decideRead_of_ok read.decided)
    (explainRead_of_ok explainedRead)

theorem ReadByBoth.alike_iff (noPercent : '%' ∉ query) (noPlus : '+' ∉ query) :
    explained.Alike decided ↔ ReadAlike (forEachParam query) := by
  have explainedRead := read.explained
  rw [decodedParams_of_plain noPercent noPlus] at explainedRead
  exact alike_iff_readAlike (decideRead_of_ok read.decided)
    (explainRead_of_ok explainedRead)

end

theorem withHomePlmn_alike
    (alike : explained.Alike decided) (record : Option SubscriberRecord) :
    (withHomePlmn explained record).Alike
      (withHomePlmn decided record) := by
  unfold withHomePlmn
  rw [alike.plmn]
  by_cases isZero : decided.plmn = 0
  · rw [if_pos isZero, if_pos isZero]
    exact { alike with plmn := rfl }
  · rw [if_neg isZero, if_neg isZero]
    exact alike

theorem ReadByBoth.answers (read : ReadByBoth ruleSet query decided explained)
    (sameImsi : explained.imsi = decided.imsi)
    {store : SubscriberStore} {record : Option SubscriberRecord}
    (found : store.find decided.imsi = some record) (now : UInt64) :
    answerQuery ruleSet store now query =
        some (.ok (evaluate ruleSet (withHomePlmn decided record) record now)) ∧
      handleExplain (some ruleSet) store now query =
        some (.ok
          (evaluate ruleSet (withHomePlmn explained record) record now)) := by
  constructor
  · rw [answerQuery, read.decided]
    simp [decideRequest, found]
  · rw [handleExplain, read.explained]
    simp [sameImsi, found]

theorem explainedAsDecided_of_readAlike
    (noPercent : '%' ∉ query) (noPlus : '+' ∉ query)
    (readAlike : ReadAlike (forEachParam query)) :
    ExplainedAsDecided query := by
  intro ruleSet store now decision reported answered reportedBy
  cases parsed : parseDecideQuery ruleSet query with
  | error message =>
    rw [answerQuery, parsed] at answered
    cases answered
  | ok decided =>
    cases explainedRead :
        explainRequest ruleSet.dnnNames (decodedParams query) with
    | error problem =>
      rw [handleExplain, explainedRead] at reportedBy
      cases reportedBy
    | ok explained =>
      have read : ReadByBoth ruleSet query decided explained :=
        ⟨parsed, explainedRead⟩
      have sameImsi := (read.agreeElsewhere noPercent noPlus).imsi
      have alike := (read.alike_iff noPercent noPlus).mpr readAlike
      cases found : store.find decided.imsi with
      | none =>
        rw [answerQuery, parsed] at answered
        simp [decideRequest, found] at answered
      | some record =>
        obtain ⟨answer, report⟩ := read.answers sameImsi found now
        cases answered.symm.trans answer
        cases reportedBy.symm.trans report
        exact evaluate_of_alike (withHomePlmn_alike alike record)
          ruleSet record now

theorem find_empty (imsi : UInt64) :
    (SubscriberStore.create 4 (1 / 2)).find imsi = some none := by
  obtain ⟨invariant, noRecords⟩ := SubscriberStore.create_invariant 4 (1 / 2)
  rw [invariant.find_eq, noRecords]

theorem exists_store_with {imsi : UInt64} (nonzero : imsi ≠ 0) :
    ∃ store : SubscriberStore,
      store.find imsi = some (some { imsi := imsi }) := by
  obtain ⟨invariant, noRecords⟩ := SubscriberStore.create_invariant 4 (1 / 2)
  obtain ⟨store, _, effect⟩ :=
    SubscriberStore.upsert_spec invariant { imsi := imsi }
  refine ⟨store, ?_⟩
  rw [effect.invariant.find_eq, effect.records]
  simp [upsertRecords, nonzero]

section Separation

variable
    (read : ReadByBoth ruleSet query decided explained)
    (noPercent : '%' ∉ query)
    (noPlus : '+' ∉ query)
    (asDecided : ExplainedAsDecided query)

include read noPercent noPlus asDecided

theorem feature_explained_as_decided
    (tables : PredicateTables) (plans : List PlanConfig)
    {position : Nat}
    (inside : position < 64)
    {store : SubscriberStore} {record : Option SubscriberRecord}
    (found : store.find decided.imsi = some record) :
    seesBit ruleSet.dnnNames tables plans position
        (withHomePlmn explained record) record 0 =
      seesBit ruleSet.dnnNames tables plans position
        (withHomePlmn decided record) record 0 := by
  have readHere :
      ReadByBoth (bitRules ruleSet.dnnNames tables plans position) query
        decided explained :=
    read.of_sameDnns rfl
  obtain ⟨answer, report⟩ :=
    readHere.answers (read.agreeElsewhere noPercent noPlus).imsi found 0
  exact seesBit_eq_of_decided_alike _ _ _ inside
    (asDecided _ _ _ _ _ answer report)

/-- Both handlers read the largest usage, or neither does. -/
theorem saturated_iff
    (decideRead : DecideRead ruleSet.dnnNames (forEachParam query) decided)
    (reported : hasFlag explained.flags kReqFlagUsageValid = true) :
    explained.bytesUsedPeriod = UInt64.ofNat (2 ^ 64 - 1) ↔
      decided.bytesUsedPeriod = UInt64.ofNat (2 ^ 64 - 1) := by
  have elsewhere := read.agreeElsewhere noPercent noPlus
  have nonzero : decided.imsi ≠ 0 := by
    obtain ⟨value, _, imsiRead⟩ := decideRead.imsi
    simpa using (Option.filter_eq_some_iff.mp imsiRead).2
  obtain ⟨store, found⟩ := exists_store_with nonzero
  have same :=
    Bool.eq_iff_iff.mp
      (feature_explained_as_decided read noPercent noPlus asDecided {}
        [largestPlan] (by decide : Feat.kQuotaExhausted < 64) found)
  have alsoReported : hasFlag decided.flags kReqFlagUsageValid = true :=
    elsewhere.usageValid.symm.trans reported
  obtain ⟨plmn, explainedHome⟩ :=
    exists_withHomePlmn explained (some { imsi := decided.imsi })
  obtain ⟨other, decidedHome⟩ :=
    exists_withHomePlmn decided (some { imsi := decided.imsi })
  have explainedBit :=
    quotaBit_iff ruleSet.dnnNames
      (show hasFlag { explained with plmn := plmn }.flags
        kReqFlagUsageValid = true from reported) decided.imsi 0
  have decidedBit :=
    quotaBit_iff ruleSet.dnnNames
      (show hasFlag { decided with plmn := other }.flags
        kReqFlagUsageValid = true from alsoReported) decided.imsi 0
  rw [explainedHome, decidedHome] at same
  exact explainedBit.symm.trans (same.trans decidedBit)

theorem alike_of_explainedAsDecided :
    explained.Alike decided := by
  have elsewhere := read.agreeElsewhere noPercent noPlus
  have decideRead := decideRead_of_ok read.decided
  have explainRead :
      ExplainRead ruleSet.dnnNames (forEachParam query) explained := by
    rw [← decodedParams_of_plain noPercent noPlus]
    exact explainRead_of_ok read.explained
  obtain ⟨_, explainedHome⟩ := exists_withHomePlmn explained none
  obtain ⟨_, decidedHome⟩ := exists_withHomePlmn decided none
  have unknown (tables : PredicateTables) {position : Nat}
      (inside : position < 64) :=
    feature_explained_as_decided read noPercent noPlus asDecided tables []
      inside (find_empty decided.imsi)
  rw [explainedHome, decidedHome] at unknown
  constructor
  case imei => exact elsewhere.imei
  case plmn => exact elsewhere.plmn
  case dnnId => exact elsewhere.dnnId
  case usageValid => exact elsewhere.usageValid
  case ratType =>
    have listed := rat_listed decideRead.ratType
    have same := unknown {} (by omega : decided.ratType.toNat < 64)
    rw [Bool.eq_iff_iff, ratBit_iff _ _ _ listed,
      ratBit_iff _ _ _ listed] at same
    exact UInt8.toNat_inj.mp (same.mpr rfl).symm
  case gbr =>
    have same := unknown {} (by decide : Feat.kRequestedGbr < 64)
    rwa [(deviceBits_seen ..).2.2, (deviceBits_seen ..).2.2] at same
  case minute =>
    have same :=
      unknown
        { timeWindows :=
            [{ startMinute := minuteOfDay decided
               endMinute := minuteOfDay decided + 1 }] }
        (by decide : Feat.kTimeWindowBase < 64)
    rw [Bool.eq_iff_iff, minuteBit_iff, minuteBit_iff] at same
    exact same.mpr rfl
  case tethering =>
    have same := unknown {} (by decide : Feat.kTetheringDetected < 64)
    rwa [(deviceBits_seen ..).1, (deviceBits_seen ..).1] at same
  case emergency =>
    have same := unknown {} (by decide : Feat.kEmergency < 64)
    rwa [(deviceBits_seen ..).2.1, (deviceBits_seen ..).2.1] at same
  case usage =>
    intro reported
    have same :=
      saturated_iff read noPercent noPlus asDecided decideRead reported
    rcases usage_saturated decideRead.bytesUsedPeriod with
      equal | saturated
    · rw [explainRead.bytesUsedPeriod, equal]
    · rw [← explainRead.bytesUsedPeriod] at saturated
      rw [saturated, same.mp saturated]

end Separation

/--
A query that some rule set lets both handlers accept is explained as it is
decided, under every rule set and store, exactly when both handlers read its
values alike.
-/
theorem explained_as_decided_iff
    {query : Str}
    (noPercent : '%' ∉ query)
    (noPlus : '+' ∉ query)
    (accepted :
      ∃ ruleSet decided explained,
        ReadByBoth ruleSet query decided explained) :
    ExplainedAsDecided query ↔ ReadAlike (forEachParam query) := by
  obtain ⟨ruleSet, decided, explained, read⟩ := accepted
  constructor
  · intro asDecided
    exact (read.alike_iff noPercent noPlus).mp
      (alike_of_explainedAsDecided read noPercent noPlus asDecided)
  · exact explainedAsDecided_of_readAlike noPercent noPlus

end Agreement

/-- A query whose values both handlers read alike. -/
def plainQuery : Str :=
  "imsi=310260000000001&rat=2&minute=90&tethering=true".toList

/-- The plain query is explained as it is decided. -/
theorem explained_as_decided_plainQuery :
    ExplainedAsDecided plainQuery := by
  refine (explained_as_decided_iff (by decide) (by decide) ?_).mpr ?_
  · exact ⟨{}, _, _, ⟨rfl, rfl⟩⟩
  · have rat :
        lastParam (forEachParam plainQuery) .rat = some "2".toList := by
      decide
    have minute :
        lastParam (forEachParam plainQuery) .minute = some "90".toList := by
      decide
    exact
      { rat := by
          intro value found
          cases rat.symm.trans found
          decide
        qos5qi := by
          intro value found
          have absent :
              lastParam (forEachParam plainQuery) .qos5qi = none := by
            decide
          cases absent.symm.trans found
        minute := by
          intro value found
          cases minute.symm.trans found
          decide
        usage := by
          intro value found
          have absent :
              lastParam (forEachParam plainQuery) .usage = none := by
            decide
          cases absent.symm.trans found
        tethering := by decide
        emergency := by decide }

/-- A rules file that allows the access type `NR` only. -/
def nrRules : Str :=
  ("dnns:\n  - internet\nplans:\n  - name: basic\nrules:\n" ++
    "  - id: 7\n    priority: 10\n    when:\n      rat: NR\n" ++
    "    action:\n      verdict: ALLOW\n").toList

/-- The verdicts of `/v1/decide` and `/explain` for a query. -/
def bothVerdicts (rules query : Str) : Option (UInt8 × UInt8) := do
  let ruleSet ← (compileRules (fun _ => none) rules 1).ruleSet
  let store := SubscriberStore.create 4 (1 / 2)
  let decided ← answerQuery ruleSet store 0 query
  let explained ← handleExplain (some ruleSet) store 0 query
  return ((← decided.toOption).verdict, (← explained.toOption).verdict)

/-- The access type `NR` is decided as `NR` and explained as `LTE`. -/
theorem nr_decided_and_explained_apart :
    '%' ∉ "imsi=1&rat=NR".toList ∧ '+' ∉ "imsi=1&rat=NR".toList ∧
      bothVerdicts nrRules "imsi=1&rat=NR".toList =
        some (Verdict.allow.code, Verdict.deny.code) := by
  refine ⟨by decide, by decide, by decide +kernel⟩

end Policyd.ControlPlane
