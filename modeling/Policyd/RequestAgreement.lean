import Policyd.Engine

namespace Policyd

/-!
# Requests that no policy can tell apart

A decision echoes the sequence number and the timestamp of its request; apart
from the echo it depends on the request only through the fields compared here.
-/

/-- Two requests agree in everything a policy can look at. -/
structure PolicyRequest.Alike (first second : PolicyRequest) : Prop where
  imei : first.imei = second.imei
  plmn : first.plmn = second.plmn
  dnnId : first.dnnId = second.dnnId
  ratType : first.ratType = second.ratType
  gbr : isGbr5qi first.requested5qi = isGbr5qi second.requested5qi
  minute : minuteOfDay first = minuteOfDay second
  tethering :
    hasFlag first.flags kReqFlagTetheringDetected =
      hasFlag second.flags kReqFlagTetheringDetected
  emergency :
    hasFlag first.flags kReqFlagEmergency =
      hasFlag second.flags kReqFlagEmergency
  usageValid :
    hasFlag first.flags kReqFlagUsageValid =
      hasFlag second.flags kReqFlagUsageValid
  usage :
    hasFlag first.flags kReqFlagUsageValid = true →
      first.bytesUsedPeriod = second.bytesUsedPeriod

/-- A decision without its echo of the request and its send time. -/
def PolicyDecision.policyFields (decision : PolicyDecision) :
    PolicyDecision :=
  { decision with seq := 0, clientTsNs := 0, serverTsNs := 0 }

section

variable {first second : PolicyRequest}

theorem effectiveUsage_of_alike
    (alike : first.Alike second) (record : SubscriberRecord) :
    effectiveUsage first record = effectiveUsage second record := by
  simp only [effectiveUsage, ← alike.usageValid]
  by_cases valid : hasFlag first.flags kReqFlagUsageValid = true
  · rw [if_pos valid, if_pos valid, alike.usage valid]
  · rw [if_neg valid, if_neg valid]

theorem remainingQuota_of_alike
    (alike : first.Alike second) (record : Option SubscriberRecord) :
    remainingQuota first record = remainingQuota second record := by
  funext plan
  simp only [remainingQuota, ← alike.usageValid]
  by_cases valid : hasFlag first.flags kReqFlagUsageValid = true
  · rw [if_pos valid, if_pos valid, alike.usage valid]
  · rw [if_neg valid, if_neg valid]

section

variable (alike : first.Alike second) (ruleSet : RuleSet)
    (record : Option SubscriberRecord)

include alike ruleSet record

theorem buildFeatures_of_alike (now : UInt64) :
    buildFeatures ruleSet first record now =
      buildFeatures ruleSet second record now := by
  have access : accessBits first = accessBits second := by
    rw [accessBits, alike.ratType, alike.dnnId, accessBits]
  have device : deviceBits ruleSet first = deviceBits ruleSet second := by
    rw [deviceBits, alike.imei, alike.tethering, alike.emergency, alike.gbr,
      deviceBits]
  have subscriber :
      subscriberBits ruleSet first record now =
        subscriberBits ruleSet second record now := by
    cases record with
    | none => rfl
    | some known =>
      simp only [subscriberBits, recordBits, alike.plmn,
        effectiveUsage_of_alike alike]
  rw [buildFeatures, access, device, alike.minute, subscriber, buildFeatures]

theorem decisionFor_of_alike (fired : Option (UInt32 × Action)) :
    (decisionFor ruleSet first record fired).policyFields =
      (decisionFor ruleSet second record fired).policyFields := by
  unfold decisionFor
  rw [remainingQuota_of_alike alike record, alike.usageValid]
  dsimp only
  split <;> rfl

theorem evaluate_of_alike (now : UInt64) :
    (evaluate ruleSet first record now).policyFields =
      (evaluate ruleSet second record now).policyFields := by
  have sameHit :
      firstHit ruleSet first record now =
        firstHit ruleSet second record now := by
    rw [firstHit, buildFeatures_of_alike alike, firstHit]
  rw [evaluate, evaluate, sameHit]
  exact decisionFor_of_alike alike ruleSet record _

end

end

theorem evaluate_echo (ruleSet : RuleSet) (request : PolicyRequest)
    (record : Option SubscriberRecord) (now : UInt64) :
    (evaluate ruleSet request record now).seq = request.seq ∧
      (evaluate ruleSet request record now).clientTsNs = request.clientTsNs ∧
      (evaluate ruleSet request record now).serverTsNs = 0 := by
  unfold evaluate decisionFor
  dsimp only
  split <;> exact ⟨rfl, rfl, rfl⟩

/-- Alike requests with one sequence number differ in the timestamp only. -/
theorem evaluate_eq_of_alike {first second : PolicyRequest}
    (alike : first.Alike second) (sameSeq : first.seq = second.seq)
    (ruleSet : RuleSet) (record : Option SubscriberRecord) (now : UInt64) :
    evaluate ruleSet first record now =
      { evaluate ruleSet second record now with
        clientTsNs := first.clientTsNs } := by
  have policy := evaluate_of_alike alike ruleSet record now
  have firstEcho := evaluate_echo ruleSet first record now
  have secondEcho := evaluate_echo ruleSet second record now
  generalize evaluate ruleSet first record now = decided at policy firstEcho ⊢
  generalize evaluate ruleSet second record now = other at policy secondEcho ⊢
  cases decided
  cases other
  simp_all [PolicyDecision.policyFields]

/-- The flag byte of a request, flag by flag. -/
def requestFlags (tethering emergency usageValid : Bool) : UInt8 :=
  (if tethering then kReqFlagTetheringDetected else 0) |||
    (if emergency then kReqFlagEmergency else 0) |||
    (if usageValid then kReqFlagUsageValid else 0)

theorem hasFlag_requestFlags (tethering emergency usageValid : Bool) :
    hasFlag (requestFlags tethering emergency usageValid)
        kReqFlagTetheringDetected = tethering ∧
      hasFlag (requestFlags tethering emergency usageValid)
        kReqFlagEmergency = emergency ∧
      hasFlag (requestFlags tethering emergency usageValid)
        kReqFlagUsageValid = usageValid := by
  cases tethering <;> cases emergency <;> cases usageValid <;> decide

end Policyd
