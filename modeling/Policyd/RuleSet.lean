import Policyd.FlatSet
import Policyd.MaskedWords
import Policyd.Wire

namespace Policyd

/-!
# Compiled rule sets

The immutable snapshot that workers read: compiled rules over a 64-bit feature
word, plans, time windows, thresholds, the listed sets and the name tables.
The fixed-capacity arrays of the source are lists of the stored count.  The
path, digest and load time are left out; no decision reads them.
-/

/-- Capacity of the plan table; plan masks have one bit for each plan. -/
def kMaxPlans : Nat := 32

/-- Capacity of the DNN table. -/
def kMaxDnns : Nat := 16

/-- Capacity of the time-window table. -/
def kMaxTimeWindows : Nat := 8

/-- Capacity of the usage-threshold table. -/
def kMaxUsageThresholds : Nat := 8

/-- Capacity of the redirect table, including the reserved entry. -/
def kMaxRedirects : Nat := 16

/-- Capacity of the compiled rule table. -/
def kMaxRules : Nat := 4096

/-- The conditions of a request, one bit each. -/
abbrev FeatureWord := BitVec 64

/-- A set of plans, one bit each. -/
abbrev PlanMask := BitVec 32

namespace Feat

/-- First bit of the one-hot access type. -/
def kRatBase : Nat := 0

/-- Bits reserved for the access type. -/
def kRatBits : Nat := 8

/-- First bit of the one-hot DNN. -/
def kDnnBase : Nat := 8

/-- Bits reserved for the DNN. -/
def kDnnBits : Nat := 16

/-- Position of a fixed feature in the word. -/
def kStatusActive : Nat := 24

@[inherit_doc kStatusActive]
def kStatusSuspended : Nat := 25

@[inherit_doc kStatusActive]
def kStatusBarred : Nat := 26

@[inherit_doc kStatusActive]
def kStatusUnknown : Nat := 27

@[inherit_doc kStatusActive]
def kHomePlmn : Nat := 28

@[inherit_doc kStatusActive]
def kRoaming : Nat := 29

@[inherit_doc kStatusActive]
def kRoamingPartner : Nat := 30

@[inherit_doc kStatusActive]
def kRoamingAllowed : Nat := 31

@[inherit_doc kStatusActive]
def kImeiKnown : Nat := 32

@[inherit_doc kStatusActive]
def kImeiBlocked : Nat := 33

@[inherit_doc kStatusActive]
def kTetheringDetected : Nat := 34

@[inherit_doc kStatusActive]
def kTetheringAllowed : Nat := 35

@[inherit_doc kStatusActive]
def kEmergency : Nat := 36

@[inherit_doc kStatusActive]
def kQuotaExhausted : Nat := 37

@[inherit_doc kStatusActive]
def kPeriodExpired : Nat := 38

@[inherit_doc kStatusActive]
def kRequestedGbr : Nat := 39

/-- First bit of the compiler-assigned time windows. -/
def kTimeWindowBase : Nat := 40

/-- First bit of the compiler-assigned usage thresholds. -/
def kUsageThresholdBase : Nat := 48

/-- The word of one feature. -/
def bit (position : Nat) : FeatureWord :=
  MaskedWords.oneBit 64 position

end Feat

/-- Fields an action leaves to the plan. -/
def kInheritQos : UInt8 := 1

@[inherit_doc kInheritQos]
def kInheritAmbr : UInt8 := 2

@[inherit_doc kInheritQos]
def kInheritQuota : UInt8 := 4

@[inherit_doc kInheritQos]
def kInheritRatingGroup : UInt8 := 8

@[inherit_doc kInheritQos]
def kInheritAll : UInt8 := 0x0F

/-- What a rule does once it fires. -/
structure Action where
  quotaBytes : UInt64 := 0
  ambrUlKbps : UInt32 := 0
  ambrDlKbps : UInt32 := 0
  ratingGroup : UInt32 := 0
  quotaValidityS : UInt32 := 0
  verdict : UInt8 := 0
  reason : UInt8 := 0
  qos5qi : UInt8 := 0
  arp : UInt8 := 0
  setFlags : UInt8 := 0
  redirectId : UInt8 := 0
  inheritMask : UInt8 := 0
  deriving Repr, DecidableEq

/-- One compiled rule; plan mask `0` applies to every plan. -/
structure CompiledRule where
  matchMask : FeatureWord := 0
  matchValue : FeatureWord := 0
  planMask : PlanMask := 0
  id : UInt32 := 0
  priority : UInt32 := 0
  action : Action := {}
  deriving Repr, DecidableEq

/-- Plan flag bits. -/
def kPlanTetheringAllowed : UInt16 := 1

@[inherit_doc kPlanTetheringAllowed]
def kPlanRoamingAllowed : UInt16 := 2

/-- A subscriber plan; quota `0` means unmetered. -/
structure PlanConfig where
  quotaBytes : UInt64 := 0
  quotaValidityS : UInt32 := 0
  ratingGroup : UInt32 := 0
  ambrUlKbps : UInt32 := 0
  ambrDlKbps : UInt32 := 0
  id : UInt32 := 0
  qos5qi : UInt8 := 9
  arp : UInt8 := 8
  flags : UInt16 := 0
  deriving Repr, DecidableEq

/-- A local-time window in minutes since midnight. -/
structure TimeWindow where
  startMinute : Nat := 0
  endMinute : Nat := 0
  deriving Repr, DecidableEq

/-- Half-open membership; a window whose start exceeds its end wraps midnight. -/
def TimeWindow.contains (window : TimeWindow) (minute : Nat) : Bool :=
  if window.startMinute ≤ window.endMinute then
    window.startMinute ≤ minute && minute < window.endMinute
  else
    window.startMinute ≤ minute || minute < window.endMinute

/-- The predicates the compiler assigned bits to, in bit order. -/
structure PredicateTables where
  timeWindows : List TimeWindow := []
  usageThresholdsPermille : List Nat := []
  deriving Repr, DecidableEq

/-- The snapshot of one compiled rules file. -/
structure RuleSet extends PredicateTables where
  version : UInt32 := 0
  rules : List CompiledRule := []
  plans : List PlanConfig := []
  roamingPartners : FlatSet64 := FlatSet64.empty
  imeiBlocklist : FlatSet64 := FlatSet64.empty
  planNames : List Str := []
  dnnNames : List Str := []
  redirectTargets : List Str := []
  defaultAction : Action := {}

/-- Number of plans. -/
def RuleSet.planCount (ruleSet : RuleSet) : Nat :=
  ruleSet.plans.length

/-- The plan with an index, if there is one. -/
def RuleSet.plan (ruleSet : RuleSet) (planId : UInt32) :
    Option PlanConfig :=
  ruleSet.plans[planId.toNat]?

end Policyd
