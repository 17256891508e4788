import Policyd.DecideQuery

namespace Policyd.HttpFront

/-!
# The order of query parameters

A parameter is read without looking at the request under construction, and
what it writes is its own: the fields of different parameters are different,
and the flags they share are only ever raised.  Two parameters therefore
commute, and a query with distinct keys may list them in any order.
-/

/-- What a parameter writes into the request under construction. -/
structure Writes where
  imsi : Option UInt64 := none
  imei : Option UInt64 := none
  plmn : Option UInt32 := none
  dnnId : Option UInt8 := none
  ratType : Option UInt8 := none
  requested5qi : Option UInt8 := none
  tac : Option UInt16 := none
  localMinute : Option UInt16 := none
  bytesUsedPeriod : Option UInt64 := none
  seq : Option UInt32 := none
  flags : UInt8 := 0

namespace Writes

/-- Carry out the writes. -/
def apply (writes : Writes) (state : DecideState) : DecideState where
  request :=
    { state.request with
      imsi := writes.imsi.getD state.request.imsi
      imei := writes.imei.getD state.request.imei
      plmn := writes.plmn.getD state.request.plmn
      dnnId := writes.dnnId.getD state.request.dnnId
      ratType := writes.ratType.getD state.request.ratType
      requested5qi := writes.requested5qi.getD state.request.requested5qi
      tac := writes.tac.getD state.request.tac
      localMinute := writes.localMinute.getD state.request.localMinute
      bytesUsedPeriod :=
        writes.bytesUsedPeriod.getD state.request.bytesUsedPeriod
      seq := writes.seq.getD state.request.seq
      flags := state.request.flags ||| writes.flags }
  haveImsi := writes.imsi.isSome || state.haveImsi

/-- The writes of a value under a parameter, if the value can be read. -/
def ofParam (dnnNames : List Str) (value : Str) : ParamKey → Option Writes
  | .imsi => (imsiParam value).map fun imsi => { imsi := some imsi }
  | .imei => (parseImei value).map fun imei => { imei := some imei }
  | .plmn => (parsePlmn value).map fun plmn => { plmn := some plmn }
  | .dnn => (dnnParam dnnNames value).map fun dnnId => { dnnId := some dnnId }
  | .rat => (ratParam value).map fun ratType => { ratType := some ratType }
  | .qos5qi =>
    (numberParam 1 255 value).map fun number =>
      { requested5qi := some number.toUInt8 }
  | .tac =>
    (numberParam 0 65535 value).map fun number =>
      { tac := some number.toUInt16 }
  | .minute =>
    (numberParam 0 1439 value).map fun number =>
      { localMinute := some number.toUInt16 }
  | .usage =>
    (parseU64Sv value).map fun number =>
      { bytesUsedPeriod := some number, flags := kReqFlagUsageValid }
  | .tethering =>
    some
      { flags :=
          if raisesFlag value then kReqFlagTetheringDetected else 0 }
  | .emergency =>
    some { flags := if raisesFlag value then kReqFlagEmergency else 0 }
  | .seq => some { seq := (parseU64Sv value).map (·.toUInt32) }

theorem readParam_eq (dnnNames : List Str) (state : DecideState) (value : Str)
    (param : ParamKey) :
    readParam dnnNames state value param =
      (ofParam dnnNames value param).map (·.apply state) := by
  cases param with
  | imsi | imei | plmn | dnn | rat | qos5qi | tac | minute | usage =>
    simp [readParam, ofParam, apply, DecideState.write, raise,
      Function.comp_def]
  | tethering | emergency =>
    cases raised : raisesFlag value <;>
      simp [readParam, ofParam, apply, DecideState.write, raise, raised]
  | seq =>
    cases read : parseU64Sv value <;>
      simp [readParam, ofParam, apply, DecideState.write, read]

/-- Writes that touch only the fields of one parameter. -/
structure OnlyOf (param : ParamKey) (writes : Writes) : Prop where
  imsi : param ≠ .imsi → writes.imsi = none
  imei : param ≠ .imei → writes.imei = none
  plmn : param ≠ .plmn → writes.plmn = none
  dnnId : param ≠ .dnn → writes.dnnId = none
  ratType : param ≠ .rat → writes.ratType = none
  requested5qi : param ≠ .qos5qi → writes.requested5qi = none
  tac : param ≠ .tac → writes.tac = none
  localMinute : param ≠ .minute → writes.localMinute = none
  bytesUsedPeriod : param ≠ .usage → writes.bytesUsedPeriod = none
  seq : param ≠ .seq → writes.seq = none

theorem onlyOf_ofParam
    {dnnNames : List Str} {value : Str} {param : ParamKey} {writes : Writes}
    (read : ofParam dnnNames value param = some writes) :
    OnlyOf param writes := by
  cases param with
  | imsi | imei | plmn | dnn | rat | qos5qi | tac | minute | usage =>
    obtain ⟨_, _, rfl⟩ := Option.map_eq_some_iff.mp read
    constructor <;> simp
  | tethering | emergency | seq =>
    cases read
    constructor <;> simp

private theorem getD_comm {Field : Type} {owner first second : ParamKey}
    {firstWrite secondWrite : Option Field}
    (different : first ≠ second)
    (firstOnly : first ≠ owner → firstWrite = none)
    (secondOnly : second ≠ owner → secondWrite = none) (before : Field) :
    secondWrite.getD (firstWrite.getD before) =
      firstWrite.getD (secondWrite.getD before) := by
  by_cases isOwner : first = owner
  · rw [secondOnly fun same => different (isOwner.trans same.symm),
      Option.getD_none, Option.getD_none]
  · rw [firstOnly isOwner, Option.getD_none, Option.getD_none]

/-- The writes of different parameters commute. -/
theorem apply_comm {first second : ParamKey} {firstWrites secondWrites : Writes}
    (different : first ≠ second) (firstOnly : OnlyOf first firstWrites)
    (secondOnly : OnlyOf second secondWrites) (state : DecideState) :
    secondWrites.apply (firstWrites.apply state) =
      firstWrites.apply (secondWrites.apply state) := by
  have raised :
      state.request.flags ||| firstWrites.flags ||| secondWrites.flags =
        state.request.flags ||| secondWrites.flags ||| firstWrites.flags := by
    rw [UInt8.or_assoc, UInt8.or_comm firstWrites.flags, UInt8.or_assoc]
  simp only [apply, DecideState.mk.injEq, PolicyRequest.mk.injEq, true_and,
    and_true]
  exact ⟨⟨getD_comm different firstOnly.seq secondOnly.seq _,
      getD_comm different firstOnly.imsi secondOnly.imsi _,
      getD_comm different firstOnly.imei secondOnly.imei _,
      getD_comm different firstOnly.bytesUsedPeriod
        secondOnly.bytesUsedPeriod _,
      getD_comm different firstOnly.plmn secondOnly.plmn _,
      getD_comm different firstOnly.tac secondOnly.tac _,
      getD_comm different firstOnly.ratType secondOnly.ratType _,
      getD_comm different firstOnly.dnnId secondOnly.dnnId _,
      getD_comm different firstOnly.requested5qi secondOnly.requested5qi _,
      raised,
      getD_comm different firstOnly.localMinute secondOnly.localMinute _⟩,
    Bool.or_left_comm _ _ _⟩

end Writes

theorem toOption_decideParam
    (dnnNames : List Str) (state : DecideState) (param : Str × Str) :
    (decideParam dnnNames state param).toOption =
      (ParamKey.ofName param.1).bind (readParam dnnNames state param.2) := by
  rw [decideParam]
  cases (ParamKey.ofName param.1).bind (readParam dnnNames state param.2) <;>
    rfl

/-- Parameters with different keys commute. -/
theorem decideParam_comm
    (dnnNames : List Str) (state : DecideState) (first second : Str × Str)
    (different : first.1 ≠ second.1) :
    ((decideParam dnnNames state first).toOption.bind fun middle =>
        (decideParam dnnNames middle second).toOption) =
      (decideParam dnnNames state second).toOption.bind fun middle =>
        (decideParam dnnNames middle first).toOption := by
  simp only [toOption_decideParam]
  cases firstKnown : ParamKey.ofName first.1 with
  | none => simp
  | some firstParam =>
    cases secondKnown : ParamKey.ofName second.1 with
    | none => simp
    | some secondParam =>
      simp only [Option.bind_some, Writes.readParam_eq]
      cases firstRead : Writes.ofParam dnnNames first.2 firstParam with
      | none => simp
      | some firstWrites =>
        cases secondRead :
            Writes.ofParam dnnNames second.2 secondParam with
        | none => simp
        | some secondWrites =>
          have paramsDiffer : firstParam ≠ secondParam := by
            rintro rfl
            exact different
              ((ParamKey.name_of_ofName firstKnown).symm.trans
                (ParamKey.name_of_ofName secondKnown))
          exact congrArg some
            (Writes.apply_comm paramsDiffer
              (Writes.onlyOf_ofParam firstRead)
              (Writes.onlyOf_ofParam secondRead) state)

/-- The parameters between the ampersands that are not empty. -/
def nonEmptyParams (query : Str) : List Str :=
  (query.splitOn '&').filter (· ≠ [])

/--
One query lists the parameters of another in some order, with empty parameters
anywhere.
-/
def Rearranges (other query : Str) : Prop :=
  (nonEmptyParams other).Perm (nonEmptyParams query)

/--
The order of the parameters of a query with distinct keys does not matter, and
neither do empty parameters: the same queries are accepted, as the same
requests.
-/
theorem parseDecideQuery_rearranged
    (ruleSet : RuleSet)
    {query other : Str}
    (distinct : ((forEachParam query).map Prod.fst).Nodup)
    (rearranges : Rearranges other query) :
    (parseDecideQuery ruleSet other).toOption =
      (parseDecideQuery ruleSet query).toOption := by
  have sameFold :
      ((forEachParam other).foldlM (decideParam ruleSet.dnnNames)
          DecideState.initial).toOption =
        ((forEachParam query).foldlM (decideParam ruleSet.dnnNames)
          DecideState.initial).toOption :=
    Query.toOption_foldlM_perm (decideParam_comm ruleSet.dnnNames) distinct
      (rearranges.map Query.splitPair)
  have parsed (text : Str) :
      (parseDecideQuery ruleSet text).toOption =
        (((forEachParam text).foldlM (decideParam ruleSet.dnnNames)
          DecideState.initial).toOption.filter (·.haveImsi)).map
            (·.request) := by
    rw [parseDecideQuery]
    cases (forEachParam text).foldlM (decideParam ruleSet.dnnNames)
        DecideState.initial with
    | error badKey =>
      rfl
    | ok state =>
      cases present : state.haveImsi <;>
        simp [Except.toOption, Option.filter, present]
  rw [parsed other, parsed query, sameFold]

/-- Parameters in one order, without empty ones. -/
def orderedQuery : Str :=
  "imsi=310260100000001&usage=5&tethering=1&emergency".toList

/-- The same parameters in another order, with empty ones between them. -/
def scatteredQuery : Str :=
  "&tethering=1&&emergency&imsi=310260100000001&usage=5&".toList

/-- Both queries are the same request. -/
theorem scattered_query_rearranged :
    ((forEachParam orderedQuery).map Prod.fst).Nodup ∧
      Rearranges scatteredQuery orderedQuery ∧
      (parseDecideQuery {} orderedQuery).toOption.isSome = true ∧
      (parseDecideQuery {} scatteredQuery).toOption =
        (parseDecideQuery {} orderedQuery).toOption := by
  have distinct : ((forEachParam orderedQuery).map Prod.fst).Nodup := by
    decide +kernel
  have rearranges : Rearranges scatteredQuery orderedQuery := by
    unfold Rearranges
    decide +kernel
  exact ⟨distinct, rearranges, by decide +kernel,
    parseDecideQuery_rearranged {} distinct rearranges⟩

end Policyd.HttpFront
