import Policyd.ByteText

namespace Policyd

/-!
# Messages of the decision path

The two fixed-size messages and the enumerations they carry.  Message fields
keep the widths they have on the wire.  Enumerated fields are stored as bytes,
as in the source structures, because a decoded message may hold a byte that no
enumerator names.
-/

/-- Wire magic `PLC` with the protocol version in the low byte. -/
def kMagicVersion : UInt32 :=
  0x504C4300 ||| 1

/-- Radio access types that policy can name. -/
inductive RatType where
  | lte
  | nr
  | wlan
  deriving Repr, DecidableEq

/-- Position of an access type in its one-hot feature group. -/
def RatType.code : RatType → Nat
  | .lte => 0
  | .nr => 1
  | .wlan => 2

/-- The verdict of a decision. -/
inductive Verdict where
  | allow
  | deny
  | redirect
  deriving Repr, DecidableEq

/-- The byte that carries a verdict. -/
def Verdict.code : Verdict → UInt8
  | .allow => 0
  | .deny => 1
  | .redirect => 2

theorem Verdict.code_le (verdict : Verdict) : verdict.code ≤ 2 := by
  cases verdict <;> decide

/-- Reason codes, in their stable numbering. -/
inductive Reason where
  | ok
  | unknownSubscriber
  | subscriberSuspended
  | subscriberBarred
  | imeiBlocked
  | roamingNotAllowed
  | plmnNotPartner
  | dnnNotAllowed
  | ratNotAllowed
  | quotaExhausted
  | quotaExhaustedThrottled
  | tetheringBlocked
  | noMatchingRule
  | policyDefaultDeny
  | offPeakBonus
  | planDefault
  | malformedRequest
  deriving Repr, DecidableEq

namespace Reason

/-- All reasons, ordered by code. -/
def all : List Reason :=
  [.ok, .unknownSubscriber, .subscriberSuspended, .subscriberBarred,
    .imeiBlocked, .roamingNotAllowed, .plmnNotPartner, .dnnNotAllowed,
    .ratNotAllowed, .quotaExhausted, .quotaExhaustedThrottled,
    .tetheringBlocked, .noMatchingRule, .policyDefaultDeny, .offPeakBonus,
    .planDefault, .malformedRequest]

/-- The byte that carries a reason. -/
def code : Reason → UInt8
  | .ok => 0
  | .unknownSubscriber => 1
  | .subscriberSuspended => 2
  | .subscriberBarred => 3
  | .imeiBlocked => 4
  | .roamingNotAllowed => 5
  | .plmnNotPartner => 6
  | .dnnNotAllowed => 7
  | .ratNotAllowed => 8
  | .quotaExhausted => 9
  | .quotaExhaustedThrottled => 10
  | .tetheringBlocked => 11
  | .noMatchingRule => 12
  | .policyDefaultDeny => 13
  | .offPeakBonus => 14
  | .planDefault => 15
  | .malformedRequest => 16

/-- Number of reasons. -/
def kCount : Nat := 17

theorem code_lt (reason : Reason) : reason.code.toNat < kCount := by
  cases reason <;> decide

/-- The name of a reason, as written in rules files and decisions. -/
def name : Reason → Str
  | .ok => "OK".toList
  | .unknownSubscriber => "UNKNOWN_SUBSCRIBER".toList
  | .subscriberSuspended => "SUBSCRIBER_SUSPENDED".toList
  | .subscriberBarred => "SUBSCRIBER_BARRED".toList
  | .imeiBlocked => "IMEI_BLOCKED".toList
  | .roamingNotAllowed => "ROAMING_NOT_ALLOWED".toList
  | .plmnNotPartner => "PLMN_NOT_PARTNER".toList
  | .dnnNotAllowed => "DNN_NOT_ALLOWED".toList
  | .ratNotAllowed => "RAT_NOT_ALLOWED".toList
  | .quotaExhausted => "QUOTA_EXHAUSTED".toList
  | .quotaExhaustedThrottled => "QUOTA_EXHAUSTED_THROTTLED".toList
  | .tetheringBlocked => "TETHERING_BLOCKED".toList
  | .noMatchingRule => "NO_MATCHING_RULE".toList
  | .policyDefaultDeny => "POLICY_DEFAULT_DENY".toList
  | .offPeakBonus => "OFF_PEAK_BONUS".toList
  | .planDefault => "PLAN_DEFAULT".toList
  | .malformedRequest => "MALFORMED_REQUEST".toList

end Reason

/-- The text of a verdict byte; bytes without an enumerator read `INVALID`. -/
def verdictName (verdict : UInt8) : Str :=
  if verdict = Verdict.allow.code then
    "ALLOW".toList
  else if verdict = Verdict.deny.code then
    "DENY".toList
  else if verdict = Verdict.redirect.code then
    "REDIRECT".toList
  else
    "INVALID".toList

/-- The text of a reason byte; bytes without an enumerator read `INVALID`. -/
def reasonName (reason : UInt8) : Str :=
  match Reason.all.find? (·.code == reason) with
  | some known => known.name
  | none => "INVALID".toList

/-- Decision flag bits. -/
def kFlagThrottled : UInt8 := 1

@[inherit_doc kFlagThrottled]
def kFlagRoamingRestricted : UInt8 := 2

@[inherit_doc kFlagThrottled]
def kFlagTetheringBlocked : UInt8 := 4

@[inherit_doc kFlagThrottled]
def kFlagQuotaWarning : UInt8 := 8

@[inherit_doc kFlagThrottled]
def kFlagOffPeakBonus : UInt8 := 16

@[inherit_doc kFlagThrottled]
def kFlagUsageFromRequest : UInt8 := 32

/-- Request flag bits. -/
def kReqFlagTetheringDetected : UInt8 := 1

@[inherit_doc kReqFlagTetheringDetected]
def kReqFlagEmergency : UInt8 := 2

@[inherit_doc kReqFlagTetheringDetected]
def kReqFlagUsageValid : UInt8 := 4

/-- The 64-byte request. -/
structure PolicyRequest where
  magicVersion : UInt32 := 0
  seq : UInt32 := 0
  imsi : UInt64 := 0
  imei : UInt64 := 0
  clientTsNs : UInt64 := 0
  bytesUsedPeriod : UInt64 := 0
  plmn : UInt32 := 0
  tac : UInt16 := 0
  ratType : UInt8 := 0
  dnnId : UInt8 := 0
  requested5qi : UInt8 := 0
  flags : UInt8 := 0
  localMinute : UInt16 := 0
  reqAmbrUlKbps : UInt32 := 0
  reqAmbrDlKbps : UInt32 := 0
  reserved : UInt32 := 0
  deriving Repr, DecidableEq

/-- The 64-byte decision. -/
structure PolicyDecision where
  magicVersion : UInt32 := 0
  seq : UInt32 := 0
  clientTsNs : UInt64 := 0
  quotaBytes : UInt64 := 0
  ambrUlKbps : UInt32 := 0
  ambrDlKbps : UInt32 := 0
  ratingGroup : UInt32 := 0
  quotaValidityS : UInt32 := 0
  ruleId : UInt32 := 0
  policyVersion : UInt32 := 0
  verdict : UInt8 := 0
  reason : UInt8 := 0
  qos5qi : UInt8 := 0
  arp : UInt8 := 0
  flags : UInt8 := 0
  redirectId : UInt8 := 0
  reserved : UInt16 := 0
  serverTsNs : UInt64 := 0
  deriving Repr, DecidableEq

/-- Whether a flag byte has one of the bits of a mask set. -/
def hasFlag (flags mask : UInt8) : Bool :=
  flags &&& mask != 0

theorem hasFlag_or (first second mask : UInt8) :
    hasFlag (first ||| second) mask =
      (hasFlag first mask || hasFlag second mask) := by
  have distributed :
      (first ||| second) &&& mask =
        (first &&& mask) ||| (second &&& mask) := by
    apply UInt8.eq_of_toBitVec_eq
    apply BitVec.eq_of_getLsbD_eq
    intro position _
    simp [Bool.and_or_distrib_right]
  rw [Bool.eq_iff_iff]
  simp only [hasFlag, distributed, bne_iff_ne, ne_eq,
    UInt8.or_eq_zero_iff, Bool.or_eq_true, not_and_or]

end Policyd
