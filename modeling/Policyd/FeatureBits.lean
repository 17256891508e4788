import Policyd.RuleMeaning

namespace Policyd

open MaskedWords

/-!
# Feature bits

Every feature a compiled rule refers to has its own bit: fixed features have a
fixed position, listed values their place in a one-hot group, thresholds and
windows the place at which they were interned.  The bit of a feature in the
word of a situation says whether the feature holds there, and the cubes of a
rule match that word exactly when all conditions of the rule pass.
-/

/-- The bit of a subscriber state. -/
def statusPosition : Option SubscriberStatus → Nat
  | some .active => Feat.kStatusActive
  | some .suspended => Feat.kStatusSuspended
  | some .barred => Feat.kStatusBarred
  | none => Feat.kStatusUnknown

theorem statusPosition_injective :
    Function.Injective statusPosition := by
  intro first second same
  revert same
  rcases first with _ | first <;> rcases second with _ | second
  · simp
  · cases second <;> simp [statusPosition, Feat.kStatusActive,
      Feat.kStatusSuspended, Feat.kStatusBarred, Feat.kStatusUnknown]
  · cases first <;> simp [statusPosition, Feat.kStatusActive,
      Feat.kStatusSuspended, Feat.kStatusBarred, Feat.kStatusUnknown]
  · cases first <;> cases second <;> simp [statusPosition,
      Feat.kStatusActive, Feat.kStatusSuspended, Feat.kStatusBarred]

/-- The tables that give features their bits. -/
structure BitTables where
  tables : PredicateTables
  dnnNames : List Str

/-- The tables respect the capacities of the feature word. -/
structure BitTables.Fit (bits : BitTables) : Prop where
  dnnsDistinct : bits.dnnNames.Nodup
  dnns : bits.dnnNames.length ≤ kMaxDnns
  windows : bits.tables.timeWindows.length ≤ kMaxTimeWindows
  thresholds :
    bits.tables.usageThresholdsPermille.length ≤ kMaxUsageThresholds

namespace Feature

/-- The bit of a feature. -/
def position (bits : BitTables) : Feature → Nat
  | fixed position => position
  | status state => statusPosition state
  | rat access => Feat.kRatBase + access.code
  | dnn name => Feat.kDnnBase + bits.dnnNames.idxOf name
  | usage permille =>
    Feat.kUsageThresholdBase +
      bits.tables.usageThresholdsPermille.idxOf permille
  | window span =>
    Feat.kTimeWindowBase + bits.tables.timeWindows.idxOf span

/-- A feature that has a bit of its own. -/
def Known (bits : BitTables) : Feature → Prop
  | fixed position =>
    Feat.kHomePlmn ≤ position ∧ position < Feat.kTimeWindowBase
  | status _ => True
  | rat _ => True
  | dnn name => name ∈ bits.dnnNames
  | usage permille => permille ∈ bits.tables.usageThresholdsPermille
  | window span => span ∈ bits.tables.timeWindows

/-- The group of bits a feature belongs to. -/
def group : Feature → Nat
  | rat _ => 0
  | dnn _ => 1
  | status _ => 2
  | fixed _ => 3
  | window _ => 4
  | usage _ => 5

/-- First bit of a group. -/
def groupStart : Nat → Nat
  | 0 => 0
  | 1 => 8
  | 2 => 24
  | 3 => 28
  | 4 => 40
  | 5 => 48
  | _ => 56

variable {bits : BitTables}

/-- The bit of a known feature lies in the range of its group. -/
theorem position_range
    (fit : bits.Fit) {feature : Feature} (known : feature.Known bits) :
    groupStart feature.group ≤ feature.position bits ∧
      feature.position bits < groupStart (feature.group + 1) := by
  cases feature with
  | fixed position => exact known
  | status state =>
    rcases state with _ | state
    · simp [position, statusPosition, group, groupStart, Feat.kStatusUnknown]
    · cases state <;>
        simp [position, statusPosition, group, groupStart,
          Feat.kStatusActive, Feat.kStatusSuspended,
          Feat.kStatusBarred]
  | rat access =>
    cases access <;>
      simp [position, RatType.code, group, groupStart, Feat.kRatBase]
  | dnn name =>
    have inside := List.idxOf_lt_length_of_mem known
    have capacity := fit.dnns
    simp only [position, group, groupStart, Feat.kDnnBase,
      kMaxDnns] at capacity ⊢
    omega
  | usage permille =>
    have inside := List.idxOf_lt_length_of_mem known
    have capacity := fit.thresholds
    simp only [position, group, groupStart, Feat.kUsageThresholdBase,
      kMaxUsageThresholds] at capacity ⊢
    omega
  | window span =>
    have inside := List.idxOf_lt_length_of_mem known
    have capacity := fit.windows
    simp only [position, group, groupStart, Feat.kTimeWindowBase,
      kMaxTimeWindows] at capacity ⊢
    omega

private theorem group_eq_of_range {first second place : Nat}
    (firstGroup : first ≤ 5) (secondGroup : second ≤ 5)
    (inFirst : groupStart first ≤ place ∧ place < groupStart (first + 1))
    (inSecond : groupStart second ≤ place ∧ place < groupStart (second + 1)) :
    first = second := by
  interval_cases first <;> interval_cases second <;>
    simp only [groupStart] at inFirst inSecond <;> omega

private theorem group_le (feature : Feature) :
    feature.group ≤ 5 := by
  cases feature <;> simp [group]

/-- Different known features have different bits. -/
theorem position_injective (fit : bits.Fit) {first second : Feature}
    (firstKnown : first.Known bits) (secondKnown : second.Known bits)
    (same : first.position bits = second.position bits) :
    first = second := by
  have firstRange := position_range fit firstKnown
  have secondRange := position_range fit secondKnown
  rw [← same] at secondRange
  have sameGroup :=
    group_eq_of_range (group_le first) (group_le second) firstRange secondRange
  cases first <;> cases second <;> simp [group] at sameGroup
  case fixed.fixed =>
    exact congrArg fixed same
  case status.status state other =>
    exact congrArg status (statusPosition_injective same)
  case rat.rat access other =>
    revert same
    cases access <;> cases other <;> simp [position, RatType.code]
  case dnn.dnn =>
    simp only [position, Nat.add_left_cancel_iff] at same
    rw [(List.idxOf_inj firstKnown).mp same]
  case usage.usage =>
    simp only [position, Nat.add_left_cancel_iff] at same
    rw [(List.idxOf_inj firstKnown).mp same]
  case window.window =>
    simp only [position, Nat.add_left_cancel_iff] at same
    rw [(List.idxOf_inj firstKnown).mp same]

end Feature

theorem mem_accessBits (request : PolicyRequest) (place : Nat) :
    (place, true) ∈ accessBits request ↔
      (place = Feat.kRatBase + request.ratType.toNat ∧
          request.ratType.toNat < Feat.kRatBits) ∨
        (place = Feat.kDnnBase + request.dnnId.toNat ∧
          request.dnnId.toNat < Feat.kDnnBits) := by
  simp [accessBits]

variable {ruleSet : RuleSet} {request : PolicyRequest} {place : Nat}
  {tables : PredicateTables} {now : UInt64}

theorem mem_deviceBits_range
    {value : Bool} (member : (place, value) ∈ deviceBits ruleSet request) :
    32 ≤ place ∧ place < 40 := by
  simp only [deviceBits, Feat.kImeiKnown, Feat.kImeiBlocked,
    Feat.kTetheringDetected, Feat.kEmergency, Feat.kRequestedGbr,
    List.mem_cons, Prod.mk.injEq, List.not_mem_nil, or_false] at member
  omega

theorem mem_indexedBits {Entry : Type}
    (base : Nat) (test : Entry → Bool) (entries : List Entry) (place : Nat) :
    (place, true) ∈
        (entries.zipIdx.map fun (entry, index) =>
          (base + index, test entry)) ↔
      ∃ index entry,
        entries[index]? = some entry ∧
          place = base + index ∧ test entry = true := by
  simp only [List.mem_map, Prod.mk.injEq, Prod.exists,
    List.mem_zipIdx_iff_getElem?]
  constructor
  · rintro ⟨entry, index, entryShape, rfl, holds⟩
    exact ⟨index, entry, entryShape, rfl, holds⟩
  · rintro ⟨index, entry, entryShape, rfl, holds⟩
    exact ⟨entry, index, entryShape, rfl, holds⟩

/-- The bit of a table entry says whether its test holds. -/
theorem mem_indexedBits_idxOf {Entry : Type} [BEq Entry] [LawfulBEq Entry]
    (base : Nat) (test : Entry → Bool)
    {entries : List Entry} {entry : Entry}
    (member : entry ∈ entries) :
    (base + entries.idxOf entry, true) ∈
        (entries.zipIdx.map fun (entry, index) =>
          (base + index, test entry)) ↔
      test entry = true := by
  have inside := List.idxOf_lt_length_of_mem member
  have atIndex : entries[entries.idxOf entry]? = some entry := by
    rw [List.getElem?_eq_getElem inside, List.getElem_idxOf inside]
  rw [mem_indexedBits]
  constructor
  · rintro ⟨index, other, otherShape, samePlace, holds⟩
    have sameIndex : entries.idxOf entry = index :=
      Nat.add_left_cancel samePlace
    rw [← sameIndex, atIndex] at otherShape
    cases otherShape
    exact holds
  · intro holds
    exact ⟨_, entry, atIndex, rfl, holds⟩

theorem mem_windowBits_low
    {minute : Nat} (member : (place, true) ∈ windowBits tables minute) :
    40 ≤ place := by
  obtain ⟨index, window, _, placeShape, _⟩ :=
    (mem_indexedBits Feat.kTimeWindowBase
      (fun window : TimeWindow => window.contains minute)
      tables.timeWindows place).mp member
  simp only [Feat.kTimeWindowBase] at placeShape
  omega

theorem mem_windowBits_range {minute : Nat}
    (fits : tables.timeWindows.length ≤ kMaxTimeWindows)
    (member : (place, true) ∈ windowBits tables minute) :
    40 ≤ place ∧ place < 48 := by
  obtain ⟨index, window, windowShape, placeShape, _⟩ :=
    (mem_indexedBits Feat.kTimeWindowBase
      (fun window : TimeWindow => window.contains minute)
      tables.timeWindows place).mp member
  have inside := (List.getElem?_eq_some_iff.mp windowShape).1
  simp only [Feat.kTimeWindowBase, kMaxTimeWindows] at placeShape fits
  omega

theorem mem_thresholdBits_range {usage quota : Nat}
    (member : (place, true) ∈ thresholdBits tables usage quota) :
    48 ≤ place := by
  obtain ⟨index, permille, _, placeShape, _⟩ :=
    (mem_indexedBits Feat.kUsageThresholdBase
      (usageAtLeastPermille usage quota)
      tables.usageThresholdsPermille place).mp member
  simp only [Feat.kUsageThresholdBase] at placeShape
  omega

theorem statusBit_eq (record : SubscriberRecord) :
    statusBit record = statusPosition (statusOf (some record)) := by
  simp only [statusBit, statusOf, Option.bind_some, List.find?_cons,
    List.find?_nil, SubscriberStatus.code]
  by_cases active : record.status = 0
  · simp [active, statusPosition]
  · by_cases suspended : record.status = 1
    · simp [suspended, statusPosition]
    · by_cases barred : record.status = 2
      · simp [barred, statusPosition]
      · have notActive : ((0 : UInt32) == record.status) = false := by
          simpa using Ne.symm active
        have notSuspended : ((1 : UInt32) == record.status) = false := by
          simpa using Ne.symm suspended
        have notBarred : ((2 : UInt32) == record.status) = false := by
          simpa using Ne.symm barred
        simp [active, suspended, barred, notActive, notSuspended,
          notBarred, statusPosition]

theorem statusPosition_range (state : Option SubscriberStatus) :
    24 ≤ statusPosition state ∧ statusPosition state < 28 := by
  rcases state with _ | state
  · simp [statusPosition, Feat.kStatusUnknown]
  · cases state <;> simp [statusPosition, Feat.kStatusActive,
      Feat.kStatusSuspended, Feat.kStatusBarred]

/-- The subscriber bits outside the status group and the thresholds. -/
theorem mem_subscriberBits_cases {record : Option SubscriberRecord}
    (member : (place, true) ∈ subscriberBits ruleSet request record now) :
    place = statusPosition (statusOf record) ∨
      (28 ≤ place ∧ place < 40) ∨
      ∃ known,
        record = some known ∧
          (place, true) ∈
            thresholdBits ruleSet.toPredicateTables
              (effectiveUsage request known).toNat
              (quotaOf ruleSet known).toNat := by
  cases record with
  | none =>
    simp only [subscriberBits, List.mem_cons, Prod.mk.injEq,
      and_true, List.not_mem_nil, or_false] at member
    rcases member with isStatus | isRoaming
    · exact Or.inl isStatus
    · right
      left
      rw [isRoaming]
      decide
  | some known =>
    simp only [subscriberBits, recordBits, List.mem_append,
      List.mem_cons, Prod.mk.injEq, List.not_mem_nil,
      or_false] at member
    rcases member with fixed | threshold
    · rcases fixed with ⟨isStatus, _⟩ | fixed
      · left
        rw [isStatus, statusBit_eq]
      · right
        left
        simp only [Feat.kHomePlmn, Feat.kRoaming,
          Feat.kRoamingPartner, Feat.kRoamingAllowed,
          Feat.kTetheringAllowed, Feat.kQuotaExhausted,
          Feat.kPeriodExpired] at fixed
        omega
    · exact Or.inr (Or.inr ⟨known, rfl, threshold⟩)

theorem status_mem_subscriberBits (ruleSet : RuleSet) (request : PolicyRequest)
    (record : Option SubscriberRecord) (now : UInt64) :
    (statusPosition (statusOf record), true) ∈
      subscriberBits ruleSet request record now := by
  cases record with
  | none => exact List.mem_cons_self
  | some known =>
    rw [← statusBit_eq]
    exact List.mem_append_left _ List.mem_cons_self

namespace Situation

/-- The tables that give the features of a situation their bits. -/
def bits (situation : Situation) : BitTables :=
  { tables := situation.ruleSet.toPredicateTables
    dnnNames := situation.ruleSet.dnnNames }

/-- The listed bits of a situation. -/
def featureBits (situation : Situation) : List (Nat × Bool) :=
  accessBits situation.request ++
    deviceBits situation.ruleSet situation.request ++
    windowBits situation.ruleSet.toPredicateTables
      (minuteOfDay situation.request) ++
    subscriberBits situation.ruleSet situation.request situation.record
      situation.now

variable {situation : Situation}

theorem mem_featureBits (place : Nat) :
    (place, true) ∈ situation.featureBits ↔
      (place, true) ∈ accessBits situation.request ∨
        (place, true) ∈ deviceBits situation.ruleSet situation.request ∨
        (place, true) ∈
          windowBits situation.ruleSet.toPredicateTables
            (minuteOfDay situation.request) ∨
        (place, true) ∈
          subscriberBits situation.ruleSet situation.request
            situation.record situation.now := by
  simp only [featureBits, List.mem_append, or_assoc]

variable {place : Nat}

/-- Below the status group only the access bits are set. -/
private theorem mem_featureBits_low
    (fit : situation.bits.Fit) (low : place < 24) :
    (place, true) ∈ situation.featureBits ↔
      (place, true) ∈ accessBits situation.request := by
  rw [mem_featureBits]
  constructor
  · rintro (access | device | window | subscriber)
    · exact access
    · have := mem_deviceBits_range device
      omega
    · have := mem_windowBits_range fit.windows window
      omega
    · rcases mem_subscriberBits_cases subscriber with
        isStatus | fixed | ⟨_, _, threshold⟩
      · have := statusPosition_range (statusOf situation.record)
        omega
      · omega
      · have := mem_thresholdBits_range threshold
        omega
  · exact Or.inl

theorem mem_accessBits_range
    {request : PolicyRequest} (member : (place, true) ∈ accessBits request) :
    place < 24 := by
  rw [mem_accessBits] at member
  simp only [Feat.kRatBase, Feat.kRatBits, Feat.kDnnBase,
    Feat.kDnnBits] at member
  omega

/-- In the status group only the bit of the subscriber's state is set. -/
private theorem mem_featureBits_status
    (fit : situation.bits.Fit) (state : Option SubscriberStatus) :
    (statusPosition state, true) ∈ situation.featureBits ↔
      statusOf situation.record = state := by
  have range := statusPosition_range state
  rw [mem_featureBits]
  constructor
  · rintro (access | device | window | subscriber)
    · have := mem_accessBits_range access
      omega
    · have := mem_deviceBits_range device
      omega
    · have := mem_windowBits_range fit.windows window
      omega
    · rcases mem_subscriberBits_cases subscriber with
        isStatus | fixed | ⟨_, _, threshold⟩
      · exact (statusPosition_injective isStatus).symm
      · omega
      · have := mem_thresholdBits_range threshold
        omega
  · rintro rfl
    exact Or.inr (Or.inr (Or.inr (status_mem_subscriberBits _ _ _ _)))

private theorem mem_featureBits_window (range : 40 ≤ place ∧ place < 48) :
    (place, true) ∈ situation.featureBits ↔
      (place, true) ∈
        windowBits situation.ruleSet.toPredicateTables
          (minuteOfDay situation.request) := by
  rw [mem_featureBits]
  constructor
  · rintro (access | device | window | subscriber)
    · have := mem_accessBits_range access
      omega
    · have := mem_deviceBits_range device
      omega
    · exact window
    · rcases mem_subscriberBits_cases subscriber with
        isStatus | fixed | ⟨_, _, threshold⟩
      · have := statusPosition_range (statusOf situation.record)
        omega
      · omega
      · have := mem_thresholdBits_range threshold
        omega
  · exact fun window => Or.inr (Or.inr (Or.inl window))

/-- Above the window range only the thresholds of a known subscriber are set. -/
theorem mem_featureBits_threshold
    (windowsFit : situation.ruleSet.timeWindows.length ≤ kMaxTimeWindows)
    (high : 48 ≤ place) :
    (place, true) ∈ situation.featureBits ↔
      ∃ known,
        situation.record = some known ∧
          (place, true) ∈
            thresholdBits situation.ruleSet.toPredicateTables
              (effectiveUsage situation.request known).toNat
              (quotaOf situation.ruleSet known).toNat := by
  rw [mem_featureBits]
  constructor
  · rintro (access | device | window | subscriber)
    · have := mem_accessBits_range access
      omega
    · have := mem_deviceBits_range device
      omega
    · have := mem_windowBits_range windowsFit window
      omega
    · rcases mem_subscriberBits_cases subscriber with
        isStatus | fixed | threshold
      · have := statusPosition_range (statusOf situation.record)
        omega
      · omega
      · exact threshold
  · rintro ⟨known, recordShape, threshold⟩
    refine Or.inr (Or.inr (Or.inr ?_))
    rw [recordShape]
    exact List.mem_append_right _ threshold

/-- The bit of a listed network is set exactly when it was asked for. -/
theorem mem_featureBits_dnn (fit : situation.bits.Fit) {name : Str}
    (known : name ∈ situation.ruleSet.dnnNames) :
    (Feat.kDnnBase + situation.ruleSet.dnnNames.idxOf name, true) ∈
        situation.featureBits ↔
      situation.ruleSet.dnnNames[situation.request.dnnId.toNat]? =
        some name := by
  have inside : situation.ruleSet.dnnNames.idxOf name <
      situation.ruleSet.dnnNames.length :=
    List.idxOf_lt_length_of_mem known
  have capacity : situation.ruleSet.dnnNames.length ≤ 16 := fit.dnns
  have atIndex :
      situation.ruleSet.dnnNames[
          situation.ruleSet.dnnNames.idxOf name]? =
        some name := by
    rw [List.getElem?_eq_getElem inside, List.getElem_idxOf inside]
  rw [mem_featureBits_low fit (by simp only [Feat.kDnnBase]; omega),
    mem_accessBits]
  simp only [Feat.kRatBase, Feat.kRatBits, Feat.kDnnBase, Feat.kDnnBits]
  constructor
  · intro either
    have samePlace :
        situation.ruleSet.dnnNames.idxOf name =
          situation.request.dnnId.toNat := by
      omega
    rw [← samePlace, atIndex]
  · intro named
    have samePlace :
        situation.ruleSet.dnnNames.idxOf name =
          situation.request.dnnId.toNat :=
      (List.getElem?_inj inside fit.dnnsDistinct).mp (atIndex.trans named.symm)
    omega

/-- The bit of a listed threshold is set exactly when usage reached it. -/
theorem mem_featureBits_usage (fit : situation.bits.Fit) {permille : Nat}
    (known : permille ∈ situation.ruleSet.usageThresholdsPermille)
    (high : 48 ≤ (Feature.usage permille).position situation.bits) :
    ((Feature.usage permille).position situation.bits, true) ∈
        situation.featureBits ↔
      (Feature.usage permille).holds situation = true := by
  rw [mem_featureBits_threshold fit.windows high]
  cases recordShape : situation.record with
  | none => simp [Feature.holds, recordShape]
  | some record =>
    have bitShape :=
      mem_indexedBits_idxOf Feat.kUsageThresholdBase
        (usageAtLeastPermille
          (effectiveUsage situation.request record).toNat
          (quotaOf situation.ruleSet record).toNat)
        known
    constructor
    · rintro ⟨other, otherShape, member⟩
      cases otherShape
      simpa [Feature.holds, recordShape] using bitShape.mp member
    · intro holds
      refine ⟨record, rfl, bitShape.mpr ?_⟩
      simpa [Feature.holds, recordShape] using holds

theorem mem_featureBits_position (fit : situation.bits.Fit) {feature : Feature}
    (known : feature.Known situation.bits) :
    (feature.position situation.bits, true) ∈ situation.featureBits ↔
      feature.holds situation = true := by
  have range := Feature.position_range fit known
  cases feature with
  | fixed position =>
    have inside : position < 64 := by
      simp only [Feature.position, Feature.group, Feature.groupStart] at range
      omega
    simp only [Feature.position, Feature.holds, features, buildFeatures]
    rw [getLsbD_assemble inside, decide_eq_true_iff]
    rfl
  | status state =>
    rw [Feature.position, mem_featureBits_status fit]
    simp [Feature.holds]
  | rat access =>
    have small : access.code < 3 := by
      cases access <;> decide
    rw [Feature.position, mem_featureBits_low fit
      (by simp only [Feat.kRatBase]; omega), mem_accessBits]
    simp only [Feature.holds, beq_iff_eq, Feat.kRatBase, Feat.kRatBits,
      Feat.kDnnBase, Feat.kDnnBits]
    omega
  | dnn name =>
    rw [Feature.holds, beq_iff_eq]
    exact mem_featureBits_dnn fit known
  | usage permille => exact mem_featureBits_usage fit known range.1
  | window span =>
    simp only [Feature.group, Feature.groupStart] at range
    rw [mem_featureBits_window range]
    exact mem_indexedBits_idxOf Feat.kTimeWindowBase
      (fun window : TimeWindow =>
        window.contains (minuteOfDay situation.request)) known

theorem getLsbD_features (fit : situation.bits.Fit) {feature : Feature}
    (known : feature.Known situation.bits) :
    situation.features.getLsbD (feature.position situation.bits) =
      feature.holds situation := by
  have range := Feature.position_range fit known
  have inside : feature.position situation.bits < 64 := by
    refine lt_of_lt_of_le range.2 ?_
    cases feature <;> simp [Feature.group, Feature.groupStart]
  have bitShape := mem_featureBits_position fit known
  rw [features, buildFeatures, getLsbD_assemble inside,
    Bool.eq_iff_iff, decide_eq_true_iff]
  exact bitShape

end Situation

/-- The bits of a known subscriber outside its state and its thresholds. -/
def fixedRecordBits
    (ruleSet : RuleSet) (request : PolicyRequest) (record : SubscriberRecord)
    (now : UInt64) :
    List (Nat × Bool) :=
  [(Feat.kHomePlmn, request.plmn == record.homePlmn),
    (Feat.kRoaming, request.plmn != record.homePlmn),
    (Feat.kRoamingPartner,
      request.plmn != record.homePlmn &&
        ruleSet.roamingPartners.contains request.plmn.toUInt64),
    (Feat.kRoamingAllowed, record.flags &&& kSubRoamingAllowed != 0),
    (Feat.kTetheringAllowed,
      planTethering ruleSet record ||
        record.flags &&& kSubTetheringAllowed != 0),
    (Feat.kQuotaExhausted,
      quotaOf ruleSet record != 0 &&
        decide (quotaOf ruleSet record ≤ effectiveUsage request record)),
    (Feat.kPeriodExpired,
      now != 0 && record.periodResetTs != 0 &&
        decide (record.periodResetTs ≤ now))]

theorem recordBits_eq
    (ruleSet : RuleSet) (request : PolicyRequest) (record : SubscriberRecord)
    (now : UInt64) :
    recordBits ruleSet request record now =
      (statusBit record, true) ::
        (fixedRecordBits ruleSet request record now ++
          thresholdBits ruleSet.toPredicateTables
            (effectiveUsage request record).toNat
            (quotaOf ruleSet record).toNat) :=
  rfl

/-- The fixed bits of a subscriber, known or not. -/
def fixedSubscriberBits
    (ruleSet : RuleSet) (request : PolicyRequest)
    (record : Option SubscriberRecord) (now : UInt64) :
    List (Nat × Bool) :=
  match record with
  | none => [(Feat.kRoaming, true)]
  | some record => fixedRecordBits ruleSet request record now

theorem getLsbD_fixedSubscriber
    {record : Option SubscriberRecord} (low : 28 ≤ place) (high : place < 40) :
    (buildFeatures ruleSet request record now).getLsbD place = true ↔
      (place, true) ∈
        deviceBits ruleSet request ++
          fixedSubscriberBits ruleSet request record now := by
  have grouped :
      (place, true) ∈
          Situation.featureBits ⟨ruleSet, request, record, now⟩ ↔ _ :=
    Situation.mem_featureBits place
  have subscriber :
      (place, true) ∈ subscriberBits ruleSet request record now ↔
        (place, true) ∈ fixedSubscriberBits ruleSet request record now := by
    have range := statusPosition_range (statusOf record)
    cases record with
    | none =>
      simp only [subscriberBits, fixedSubscriberBits, List.mem_cons,
        Prod.mk.injEq, and_true, Feat.kStatusUnknown]
      constructor
      · rintro (status | roaming)
        · omega
        · exact roaming
      · exact .inr
    | some known =>
      simp only [subscriberBits, recordBits_eq, fixedSubscriberBits,
        List.mem_cons, List.mem_append]
      constructor
      · rintro (status | fixed | threshold)
        · rw [← statusBit_eq, ← (Prod.mk.inj status).1] at range
          omega
        · exact fixed
        · have := mem_thresholdBits_range threshold
          omega
      · exact fun fixed => .inr (.inl fixed)
  rw [buildFeatures, getLsbD_assemble (by omega), decide_eq_true_iff]
  refine grouped.trans ?_
  rw [subscriber, List.mem_append]
  constructor
  · rintro (access | device | window | fixed)
    · have := Situation.mem_accessBits_range access
      omega
    · exact .inl device
    · have := mem_windowBits_low window
      omega
    · exact .inr fixed
  · rintro (device | fixed)
    · exact .inr (.inl device)
    · exact .inr (.inr (.inr fixed))

theorem getLsbD_fixed
    {record : SubscriberRecord} (low : 28 ≤ place) (high : place < 40) :
    (buildFeatures ruleSet request (some record) now).getLsbD place = true ↔
      (place, true) ∈
        deviceBits ruleSet request ++
          fixedRecordBits ruleSet request record now :=
  getLsbD_fixedSubscriber low high

end Policyd
