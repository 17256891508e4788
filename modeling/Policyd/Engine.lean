import Policyd.RuleSet
import Policyd.SubscriberStore

namespace Policyd

/-!
# The decision path

`buildFeatures` turns a request and an optional record into a feature word, and
`evaluate` scans the compiled rules for the first one that matches it.  The
coarse clock is a parameter, in seconds; `0` means that it has not been set.
The conditional ORs of the source are listed as pairs of a position and its
condition, in the same order.
-/

/-- The standardized guaranteed-bit-rate 5QI values. -/
def gbr5qiValues : List Nat :=
  [1, 2, 3, 4, 65, 66, 67, 71, 72, 73, 74, 75, 76]

/-- Whether a 5QI is a guaranteed-bit-rate class. -/
def isGbr5qi (value : UInt8) : Bool :=
  gbr5qiValues.contains value.toNat

/-- Usage has reached a share of the quota; an unmetered plan never does. -/
def usageAtLeastPermille (usage quota permille : Nat) : Bool :=
  quota != 0 && decide (quota * permille ≤ usage * 1000)

/-- The bit of a subscriber's plan; none for unknown subscribers. -/
def planBitFor (record : Option SubscriberRecord) : PlanMask :=
  match record with
  | none => 0
  | some record =>
    if kMaxPlans ≤ record.planId.toNat then
      0
    else
      MaskedWords.oneBit 32 record.planId.toNat

/-- The usage a decision counts: the serving node's report wins. -/
def effectiveUsage (request : PolicyRequest) (record : SubscriberRecord) :
    UInt64 :=
  if hasFlag request.flags kReqFlagUsageValid then
    request.bytesUsedPeriod
  else
    record.bytesUsedPeriod

/-- Access type and DNN. -/
def accessBits (request : PolicyRequest) : List (Nat × Bool) :=
  [(Feat.kRatBase + request.ratType.toNat,
      request.ratType.toNat < Feat.kRatBits),
    (Feat.kDnnBase + request.dnnId.toNat,
      request.dnnId.toNat < Feat.kDnnBits)]

/-- Device and session hints. -/
def deviceBits (ruleSet : RuleSet) (request : PolicyRequest) :
    List (Nat × Bool) :=
  [(Feat.kImeiKnown, request.imei != 0),
    (Feat.kImeiBlocked,
      request.imei != 0 && ruleSet.imeiBlocklist.contains request.imei),
    (Feat.kTetheringDetected,
      hasFlag request.flags kReqFlagTetheringDetected),
    (Feat.kEmergency, hasFlag request.flags kReqFlagEmergency),
    (Feat.kRequestedGbr, isGbr5qi request.requested5qi)]

/-- The local minute of a request within its day. -/
def minuteOfDay (request : PolicyRequest) : Nat :=
  request.localMinute.toNat % 1440

/-- One bit for each time window. -/
def windowBits (tables : PredicateTables) (minute : Nat) :
    List (Nat × Bool) :=
  tables.timeWindows.zipIdx.map fun (window, index) =>
    (Feat.kTimeWindowBase + index, window.contains minute)

/-- One bit for each usage threshold. -/
def thresholdBits (tables : PredicateTables) (usage quota : Nat) :
    List (Nat × Bool) :=
  tables.usageThresholdsPermille.zipIdx.map fun (permille, index) =>
    (Feat.kUsageThresholdBase + index,
      usageAtLeastPermille usage quota permille)

/-- The one status bit of a record; unnamed states count as unknown. -/
def statusBit (record : SubscriberRecord) : Nat :=
  if record.status = SubscriberStatus.active.code then
    Feat.kStatusActive
  else if record.status = SubscriberStatus.suspended.code then
    Feat.kStatusSuspended
  else if record.status = SubscriberStatus.barred.code then
    Feat.kStatusBarred
  else
    Feat.kStatusUnknown

/-- The quota a record's plan grants; `0` without a plan. -/
def quotaOf (ruleSet : RuleSet) (record : SubscriberRecord) : UInt64 :=
  match ruleSet.plan record.planId with
  | some plan => plan.quotaBytes
  | none => 0

/-- Whether a record's plan allows tethering. -/
def planTethering (ruleSet : RuleSet) (record : SubscriberRecord) : Bool :=
  match ruleSet.plan record.planId with
  | some plan => plan.flags &&& kPlanTetheringAllowed != 0
  | none => false

/-- The bits that depend on a known subscriber. -/
def recordBits
    (ruleSet : RuleSet) (request : PolicyRequest) (record : SubscriberRecord)
    (now : UInt64) :
    List (Nat × Bool) :=
  let usage := effectiveUsage request record
  let quota := quotaOf ruleSet record
  [(statusBit record, true),
    (Feat.kHomePlmn, request.plmn == record.homePlmn),
    (Feat.kRoaming, request.plmn != record.homePlmn),
    (Feat.kRoamingPartner,
      request.plmn != record.homePlmn &&
        ruleSet.roamingPartners.contains request.plmn.toUInt64),
    (Feat.kRoamingAllowed, record.flags &&& kSubRoamingAllowed != 0),
    (Feat.kTetheringAllowed,
      planTethering ruleSet record ||
        record.flags &&& kSubTetheringAllowed != 0),
    (Feat.kQuotaExhausted, quota != 0 && decide (quota ≤ usage)),
    (Feat.kPeriodExpired,
      now != 0 && record.periodResetTs != 0 &&
        decide (record.periodResetTs ≤ now))] ++
    thresholdBits ruleSet.toPredicateTables usage.toNat quota.toNat

/-- The bits of the subscriber, known or not. -/
def subscriberBits
    (ruleSet : RuleSet) (request : PolicyRequest)
    (record : Option SubscriberRecord) (now : UInt64) :
    List (Nat × Bool) :=
  match record with
  | none => [(Feat.kStatusUnknown, true), (Feat.kRoaming, true)]
  | some record => recordBits ruleSet request record now

/-- The feature word of a request. -/
def buildFeatures
    (ruleSet : RuleSet) (request : PolicyRequest)
    (record : Option SubscriberRecord) (now : UInt64) :
    FeatureWord :=
  MaskedWords.assemble
    (accessBits request ++ deviceBits ruleSet request ++
      windowBits ruleSet.toPredicateTables (minuteOfDay request) ++
      subscriberBits ruleSet request record now)

/-- Whether a compiled rule matches a feature word and a plan. -/
def CompiledRule.matches
    (rule : CompiledRule) (features : FeatureWord)
    (planBit : PlanMask) : Bool :=
  features &&& rule.matchMask == rule.matchValue &&
    (rule.planMask == 0 || rule.planMask &&& planBit != 0)

/-- The first rule that matches a request. -/
def firstHit
    (ruleSet : RuleSet) (request : PolicyRequest)
    (record : Option SubscriberRecord) (now : UInt64) :
    Option CompiledRule :=
  ruleSet.rules.find?
    (·.matches (buildFeatures ruleSet request record now)
      (planBitFor record))

/-- The plan of a known subscriber. -/
def planOf (ruleSet : RuleSet) (record : Option SubscriberRecord) :
    Option PlanConfig :=
  record.bind fun record => ruleSet.plan record.planId

/-- What is left of a plan's quota. -/
def remainingQuota
    (request : PolicyRequest) (record : Option SubscriberRecord)
    (plan : PlanConfig) : UInt64 :=
  let usage :=
    if hasFlag request.flags kReqFlagUsageValid then
      request.bytesUsedPeriod
    else
      match record with
      | some record => record.bytesUsedPeriod
      | none => 0
  if usage < plan.quotaBytes then
    plan.quotaBytes - usage
  else
    0

/-- A deny carries no authorization. -/
def withoutAuthorization (decision : PolicyDecision) : PolicyDecision :=
  { decision with
    ambrUlKbps := 0
    ambrDlKbps := 0
    quotaBytes := 0
    quotaValidityS := 0
    qos5qi := 0
    arp := 0 }

/-- The decision for the action and identity of the rule that fired, if any. -/
def decisionFor
    (ruleSet : RuleSet) (request : PolicyRequest)
    (record : Option SubscriberRecord) (fired : Option (UInt32 × Action)) :
    PolicyDecision :=
  let action := (fired.map Prod.snd).getD ruleSet.defaultAction
  let plan := planOf ruleSet record
  let inherited := fun (mask : UInt8) =>
    if hasFlag action.inheritMask mask then plan else none
  let decision : PolicyDecision :=
    { magicVersion := kMagicVersion
      seq := request.seq
      clientTsNs := request.clientTsNs
      policyVersion := ruleSet.version
      ruleId := (fired.map Prod.fst).getD 0
      verdict := action.verdict
      reason :=
        if fired.isSome then action.reason else Reason.noMatchingRule.code
      redirectId := action.redirectId
      flags :=
        if hasFlag request.flags kReqFlagUsageValid then
          action.setFlags ||| kFlagUsageFromRequest
        else
          action.setFlags
      qos5qi :=
        ((inherited kInheritQos).map (·.qos5qi)).getD action.qos5qi
      arp := ((inherited kInheritQos).map (·.arp)).getD action.arp
      ambrUlKbps :=
        ((inherited kInheritAmbr).map (·.ambrUlKbps)).getD
          action.ambrUlKbps
      ambrDlKbps :=
        ((inherited kInheritAmbr).map (·.ambrDlKbps)).getD
          action.ambrDlKbps
      ratingGroup :=
        ((inherited kInheritRatingGroup).map (·.ratingGroup)).getD
          action.ratingGroup
      quotaBytes :=
        ((inherited kInheritQuota).map
          (remainingQuota request record)).getD action.quotaBytes
      quotaValidityS :=
        ((inherited kInheritQuota).map (·.quotaValidityS)).getD
          action.quotaValidityS }
  if decision.verdict = Verdict.deny.code then
    withoutAuthorization decision
  else
    decision

/-- The decision for a request. -/
def evaluate
    (ruleSet : RuleSet) (request : PolicyRequest)
    (record : Option SubscriberRecord) (now : UInt64) :
    PolicyDecision :=
  decisionFor ruleSet request record
    ((firstHit ruleSet request record now).map fun rule =>
      (rule.id, rule.action))

/-- Look the subscriber up and evaluate, as the servers do. -/
def evaluateWithStore
    (ruleSet : RuleSet) (store : SubscriberStore) (request : PolicyRequest)
    (now : UInt64) :
    Option PolicyDecision :=
  (store.find request.imsi).map fun record =>
    evaluate ruleSet request record now

/-- The well-formed answer to a malformed request. -/
def malformedDecision (seq : UInt32) (clientTsNs : UInt64)
    (policyVersion : UInt32) : PolicyDecision :=
  { magicVersion := kMagicVersion
    seq := seq
    clientTsNs := clientTsNs
    policyVersion := policyVersion
    verdict := Verdict.deny.code
    reason := Reason.malformedRequest.code }

theorem ruleId_evaluate (ruleSet : RuleSet) (request : PolicyRequest)
    (record : Option SubscriberRecord) (now : UInt64) :
    (evaluate ruleSet request record now).ruleId =
      ((firstHit ruleSet request record now).map (·.id)).getD 0 := by
  unfold evaluate decisionFor
  dsimp only
  cases firstHit ruleSet request record now <;> split <;> rfl

end Policyd
