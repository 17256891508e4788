import Policyd.HdrBuckets

namespace Policyd

/-!
# Which counts the histogram touches

Recording a value and asking for the count of one both compute an index with
signed integers, and nothing checks it.  The buckets end at the power of two
behind the highest value, or at `2 ^ 62` when the next doubling would overflow,
so the index is inside the counts as long as the highest value is below that.
-/

namespace HdrShape

section Signed

variable (shape : HdrShape)

/-- The bucket of a value, as the source computes it. -/
def signedBucketIndex (value : Nat) : Int :=
  let pow2ceiling : Int := Nat.log2 (value ||| shape.subBucketMask) + 1
  pow2ceiling - shape.unitMagnitude -
    (shape.subBucketHalfCountMagnitude + 1)

/-- Where a value is counted, as the source computes it. -/
def signedCountsIndexFor (value : Nat) : Int :=
  let b := shape.signedBucketIndex value
  let s : Int := shape.subBucketIndex value b.toNat
  let bucketBase := (b + 1) * 2 ^ shape.subBucketHalfCountMagnitude
  bucketBase + (s - shape.subBucketHalfCount)

end Signed

variable {shape : HdrShape}

theorem Aligned.signedBucketIndex_eq (aligned : shape.Aligned) (value : Nat) :
    shape.signedBucketIndex value = (shape.bucketIndex value : Int) := by
  have leadingBit := aligned.log2_or_mask value
  rw [signedBucketIndex, bucketIndex, leadingBit]
  push_cast
  omega

/-- Indices are not negative. -/
theorem Aligned.signedCountsIndexFor_eq
    (aligned : shape.Aligned) (value : Nat) :
    shape.signedCountsIndexFor value = (shape.countsIndexFor value : Int) := by
  have enough :
      shape.subBucketHalfCount ≤
        (shape.bucketIndex value + 1) <<<
            shape.subBucketHalfCountMagnitude +
          shape.subBucketIndex value (shape.bucketIndex value) := by
    rw [aligned.half, Nat.shiftLeft_eq, Nat.succ_mul]
    omega
  simp only [signedCountsIndexFor, countsIndexFor,
    aligned.signedBucketIndex_eq, Int.toNat_natCast]
  rw [Int.ofNat_sub enough, Nat.shiftLeft_eq]
  push_cast
  ring

/-- The bucket loop never doubles beyond `2 ^ 62`. -/
theorem countBuckets_le (highest rounds : Nat) {exponent : Nat}
    (below : exponent ≤ 62) (buckets : Nat) :
    countBuckets highest rounds (2 ^ exponent) buckets ≤
      buckets + (62 - exponent) := by
  induction rounds generalizing exponent buckets with
  | zero => exact Nat.le_add_right _ _
  | succ rounds inductionHypothesis =>
    rw [countBuckets]
    by_cases untracked : 2 ^ exponent ≤ highest
    · rw [if_pos untracked]
      by_cases guarded : kInt64Max / 2 < 2 ^ exponent
      · rw [if_pos guarded]
        exact Nat.le_add_right _ _
      · have room : exponent < 62 := by
          by_contra full
          exact guarded
            (Nat.lt_of_lt_of_le (by decide : kInt64Max / 2 < 2 ^ 62)
              (Nat.pow_le_pow_right (by decide) (Nat.not_lt.mp full)))
        have later :
            countBuckets highest rounds (2 ^ (exponent + 1))
                (buckets + 1) ≤
              buckets + 1 + (62 - (exponent + 1)) :=
          inductionHypothesis room (buckets + 1)
        rw [if_neg guarded, Nat.shiftLeft_eq, ← Nat.pow_add]
        omega
    · rw [if_neg untracked]
      exact Nat.le_add_right _ _

/-- A highest value from `2 ^ 62` on stops the loop at its guard. -/
theorem countBuckets_of_guard {highest : Nat} (large : 2 ^ 62 ≤ highest)
    {rounds exponent : Nat}
    (below : exponent ≤ 62) (enough : 62 - exponent < rounds) (buckets : Nat) :
    countBuckets highest rounds (2 ^ exponent) buckets =
      buckets + (62 - exponent) := by
  induction rounds generalizing exponent buckets with
  | zero => omega
  | succ rounds inductionHypothesis =>
    have untracked : 2 ^ exponent ≤ highest :=
      Nat.le_trans (Nat.pow_le_pow_right (by decide) below) large
    rw [countBuckets, if_pos untracked]
    rcases Nat.eq_or_lt_of_le below with full | room
    · rw [full, if_pos (by decide), Nat.sub_self, Nat.add_zero]
    · have unguarded : ¬ kInt64Max / 2 < 2 ^ exponent := by
        rw [Nat.not_lt]
        exact Nat.le_trans
          (Nat.pow_le_pow_right (by decide) (Nat.le_of_lt_succ room))
          (by decide : 2 ^ 61 ≤ kInt64Max / 2)
      rw [if_neg unguarded, Nat.shiftLeft_eq, ← Nat.pow_add,
        inductionHypothesis room (by omega) (buckets + 1)]
      omega

/-- The magnitudes of a histogram whose units leave room for its precision. -/
theorem exists_magnitudes_lt {lowest highest : Int}
    (positive : 1 ≤ lowest) (wide : 2 * lowest ≤ highest)
    (lowestSmall : lowest * 2 ^ 18 < 2 ^ 62) (significantFigures : Int) :
    ∃ unitMagnitude half,
      create lowest highest significantFigures =
          ofMagnitudes highest.toNat unitMagnitude half ∧
        unitMagnitude + half + 1 < 62 := by
  obtain ⟨unitMagnitude, half, built, unitSmall, halfSmall⟩ :=
    exists_create_eq_ofMagnitudes lowest highest significantFigures
  rw [max_eq_right positive] at built unitSmall
  rw [max_eq_right (by omega)] at built
  have room : 2 ^ (unitMagnitude + 18) < 2 ^ 62 := by
    calc
      2 ^ (unitMagnitude + 18) ≤ lowest.toNat * 2 ^ 18 := by
        rw [Nat.pow_add]
        exact Nat.mul_le_mul_right _ unitSmall
      _ < 2 ^ 62 := by
        omega
  rw [Nat.pow_lt_pow_iff_right (by decide)] at room
  exact ⟨unitMagnitude, half, built, by omega⟩

variable {unitMagnitude half : Nat}

/-- The buckets end at `2 ^ 62` or before. -/
theorem capacity_ofMagnitudes_le
    (room : unitMagnitude + half + 1 < 62) (highest : Nat) :
    unitMagnitude + half +
        (ofMagnitudes highest unitMagnitude half).bucketCount ≤ 62 := by
  have counted := countBuckets_le highest 64 (Nat.le_of_lt room) 1
  simp only [ofMagnitudes]
  omega

/-- From `2 ^ 62` on the highest value is behind the last bucket. -/
theorem capacity_ofMagnitudes_of_guard {highest : Nat}
    (room : unitMagnitude + half + 1 < 62) (large : 2 ^ 62 ≤ highest) :
    unitMagnitude + half +
        (ofMagnitudes highest unitMagnitude half).bucketCount = 62 := by
  have counted :=
    countBuckets_of_guard large (Nat.le_of_lt room) (by omega : _ < 64) 1
  simp only [ofMagnitudes]
  omega

/--
The highest value is counted inside the counts exactly when it is below
`2 ^ 62`.
-/
theorem countsIndexFor_highest_lt_iff
    (room : unitMagnitude + half + 1 < 62) (highest : Nat) :
    (ofMagnitudes highest unitMagnitude half).countsIndexFor highest <
        ((ofMagnitudes highest unitMagnitude half).bucketCount + 1) * 2 ^ half ↔
      highest < 2 ^ 62 := by
  constructor
  · intro inside
    by_contra large
    have capacity := capacity_ofMagnitudes_of_guard room (Nat.not_lt.mp large)
    have behind :
        2 ^ (unitMagnitude + half +
          (ofMagnitudes highest unitMagnitude half).bucketCount) ≤
            highest := by
      rw [capacity]
      exact Nat.not_lt.mp large
    have beyond := LogLinear.le_index unitMagnitude half behind (by omega)
    rw [(aligned_ofMagnitudes _ _ _).countsIndexFor_eq] at inside
    exact Nat.not_lt.mpr beyond inside
  · intro small
    have guarded : highest ≤ kInt64Max / 2 := Nat.le_of_lt_succ small
    exact (regular_ofMagnitudes unitMagnitude half
      guarded).countsIndexFor_lt (Nat.le_refl highest)

end HdrShape

namespace HdrHistogram

/-- How often the values that fall together with a value were recorded. -/
def countAtValue (histogram : HdrHistogram) (value : Int) : Nat :=
  if value < 0 then
    0
  else
    let tracked := Min.min value histogram.shape.highest
    histogram.counts.getD (histogram.shape.countsIndexFor tracked.toNat) 0

end HdrHistogram

/-- The calls that compute an index into the counts. -/
inductive HdrCall where
  | record (value : Int)
  | recordN (value count : Int)
  | countAtValue (value : Int)
  deriving DecidableEq, Repr

namespace HdrCall

/-- The arguments of a call are signed 64-bit integers. -/
def InRange : HdrCall → Prop
  | record value => -2 ^ 63 ≤ value ∧ value < 2 ^ 63
  | recordN value count =>
    (-2 ^ 63 ≤ value ∧ value < 2 ^ 63) ∧ -2 ^ 63 ≤ count ∧ count < 2 ^ 63
  | countAtValue value => -2 ^ 63 ≤ value ∧ value < 2 ^ 63

/-- The value whose index a call computes, when it does not return before. -/
def tracked (highest : Nat) : HdrCall → Option Nat
  | record value => if value < 0 then none else some (min value highest).toNat
  | recordN value count =>
    if count ≤ 0 then
      none
    else if value < 0 then
      none
    else
      some (min value highest).toNat
  | countAtValue value =>
    if value < 0 then none else some (min value highest).toNat

/-- The index a call computes. -/
def countsIndex (shape : HdrShape) (call : HdrCall) : Option Int :=
  (call.tracked shape.highest).map shape.signedCountsIndexFor

/-- How much a call adds to the count at its index. -/
def added : HdrCall → Nat
  | record _ => 1
  | recordN _ count => count.toNat
  | countAtValue _ => 0

variable {shape : HdrShape}

theorem exists_countsIndex (aligned : shape.Aligned)
    {made : HdrCall} {index : Int}
    (computed : made.countsIndex shape = some index) :
    ∃ value, value ≤ shape.highest ∧
      index = (shape.countsIndexFor value : Int) := by
  rw [countsIndex, Option.map_eq_some_iff] at computed
  obtain ⟨value, trackedValue, rfl⟩ := computed
  refine ⟨value, ?_, aligned.signedCountsIndexFor_eq value⟩
  cases made <;> simp only [tracked] at trackedValue <;>
    split_ifs at trackedValue <;>
    simp only [Option.some.injEq] at trackedValue <;> omega

theorem countsIndex_record_highest (aligned : shape.Aligned) :
    (record shape.highest).countsIndex shape =
      some (shape.countsIndexFor shape.highest : Int) := by
  rw [countsIndex, tracked, if_neg (by omega), min_self, Option.map_some,
    aligned.signedCountsIndexFor_eq, Int.toNat_natCast]

end HdrCall

namespace HdrHistogram

/-- What a call leaves of a histogram. -/
def call (histogram : HdrHistogram) : HdrCall → HdrHistogram
  | .record value => histogram.record value
  | .recordN value count => histogram.recordN value count
  | .countAtValue _ => histogram

/-- A call changes the count at its index and no other. -/
theorem call_spec {histogram : HdrHistogram}
    (aligned : histogram.shape.Aligned) (made : HdrCall) :
    (histogram.call made).shape = histogram.shape ∧
      (histogram.call made).counts =
        match made.countsIndex histogram.shape with
        | none => histogram.counts
        | some index =>
          histogram.counts.modify index.toNat (· + made.added) := by
  cases made with
  | record value =>
    rw [call, record, HdrCall.countsIndex, HdrCall.tracked]
    split_ifs with negative above
    · exact ⟨rfl, rfl⟩
    · simp [recordTracked, HdrCall.added, aligned.signedCountsIndexFor_eq,
        min_eq_right (Int.le_of_lt above)]
    · simp [recordTracked, HdrCall.added, aligned.signedCountsIndexFor_eq,
        min_eq_left (Int.not_lt.mp above)]
  | recordN value count =>
    rw [call, recordN, HdrCall.countsIndex, HdrCall.tracked]
    split_ifs with nothing negative above
    · exact ⟨rfl, rfl⟩
    · exact ⟨rfl, rfl⟩
    · simp [recordTrackedN, HdrCall.added, aligned.signedCountsIndexFor_eq,
        min_eq_right (Int.le_of_lt above)]
    · simp [recordTrackedN, HdrCall.added, aligned.signedCountsIndexFor_eq,
        min_eq_left (Int.not_lt.mp above)]
  | countAtValue value =>
    rw [call, HdrCall.countsIndex, HdrCall.tracked]
    split_ifs with negative
    · exact ⟨rfl, rfl⟩
    · refine ⟨rfl, ?_⟩
      exact (List.modify_id _ _).symm

/-- Calls keep the shape and the number of counts. -/
theorem foldl_call_spec {histogram : HdrHistogram}
    (aligned : histogram.shape.Aligned) (calls : List HdrCall) :
    (calls.foldl call histogram).shape = histogram.shape ∧
      (calls.foldl call histogram).counts.length =
        histogram.counts.length := by
  induction calls generalizing histogram with
  | nil => exact ⟨rfl, rfl⟩
  | cons made calls inductionHypothesis =>
    obtain ⟨sameShape, counts⟩ := call_spec aligned made
    have sameLength :
        (histogram.call made).counts.length = histogram.counts.length := by
      rw [counts]
      cases made.countsIndex histogram.shape with
      | none => rfl
      | some index => exact List.length_modify ..
    obtain ⟨laterShape, laterLength⟩ :=
      inductionHypothesis (sameShape ▸ aligned)
    exact ⟨laterShape.trans sameShape, laterLength.trans sameLength⟩

/--
Whatever was recorded before, the index of every call is inside the counts,
exactly for the histograms whose highest value is below `2 ^ 62`.
-/
theorem counts_index_in_bounds_iff
    {lowest highest : Int}
    (positive : 1 ≤ lowest)
    (wide : 2 * lowest ≤ highest)
    (word : highest < 2 ^ 63)
    (lowestSmall : lowest * 2 ^ 18 < 2 ^ 62)
    (significantFigures : Int) :
    (∀ (earlier : List HdrCall) (histogram : HdrHistogram),
        (∀ made ∈ earlier, made.InRange) →
        earlier.foldl call (create lowest highest significantFigures) =
          histogram →
        ∀ (made : HdrCall) (index : Int),
          made.InRange →
          made.countsIndex histogram.shape = some index →
          0 ≤ index ∧ index < histogram.counts.length) ↔
      highest < 2 ^ 62 := by
  obtain ⟨unitMagnitude, half, built, room⟩ :=
    HdrShape.exists_magnitudes_lt positive wide lowestSmall significantFigures
  have aligned :=
    HdrShape.aligned_ofMagnitudes highest.toNat unitMagnitude half
  have shape :
      (create lowest highest significantFigures).shape =
        HdrShape.ofMagnitudes highest.toNat unitMagnitude half :=
    built
  have length :
      (create lowest highest significantFigures).counts.length =
        ((HdrShape.ofMagnitudes highest.toNat unitMagnitude
            half).bucketCount + 1) * 2 ^ half := by
    simp [create, built, HdrShape.ofMagnitudes]
  have top := HdrShape.countsIndexFor_highest_lt_iff room highest.toNat
  rw [← length] at top
  constructor
  · intro inBounds
    have nonnegative : ((highest.toNat : Nat) : Int) = highest := by omega
    have recorded :
        (HdrCall.record (highest.toNat : Int)).countsIndex
            (create lowest highest significantFigures).shape =
          some ((HdrShape.ofMagnitudes highest.toNat unitMagnitude
            half).countsIndexFor highest.toNat : Int) := by
      rw [shape]
      exact HdrCall.countsIndex_record_highest aligned
    have inside := inBounds [] _ (by simp) rfl
      (.record (highest.toNat : Int)) _ ⟨by omega, by omega⟩ recorded
    have small := top.mp (by exact_mod_cast inside.2)
    omega
  · intro small earlier histogram _ run made index _ computed
    obtain ⟨sameShape, sameLength⟩ :=
      foldl_call_spec (shape ▸ aligned) earlier
    rw [run] at sameShape sameLength
    rw [sameShape, shape] at computed
    obtain ⟨value, inRange, rfl⟩ :=
      HdrCall.exists_countsIndex aligned computed
    have inside := Nat.lt_of_le_of_lt
      (aligned.countsIndexFor_mono inRange) (top.mpr (by omega))
    rw [sameLength]
    exact ⟨by omega, by exact_mod_cast inside⟩

/-- The default histogram counts its highest value, a minute, inside. -/
theorem counts_index_in_bounds_default :
    (HdrCall.record 60000000000).countsIndex
          (create 1 60000000000 3).shape = some 27388 ∧
      (0 : Int) ≤ 27388 ∧
      (27388 : Int) < (create 1 60000000000 3).counts.length := by
  have computed :
      (HdrCall.record 60000000000).countsIndex
          (create 1 60000000000 3).shape = some 27388 := by
    decide +kernel
  exact ⟨computed,
    (counts_index_in_bounds_iff (by decide) (by decide) (by decide)
      (by decide) 3).mpr (by decide : (60000000000 : Int) < 2 ^ 62) []
      _ (by simp) rfl (.record 60000000000) 27388 ⟨by decide, by decide⟩
      computed⟩

/--
A histogram up to `2 ^ 62` with one significant figure has 944 counts, and
recording its highest value writes behind the last one.
-/
theorem counts_index_of_two_pow_62 :
    (create 1 (2 ^ 62) 1).counts.length = 944 ∧
      (HdrCall.record (2 ^ 62)).InRange ∧
      (HdrCall.record (2 ^ 62)).countsIndex (create 1 (2 ^ 62) 1).shape =
        some 944 := by
  exact ⟨by decide +kernel, ⟨by decide, by decide⟩, by decide +kernel⟩

end HdrHistogram

namespace HdrShape

variable {shape : HdrShape}

theorem Regular.nextNonEquivalentValue_eq
    (regular : shape.Regular) (value : Nat) :
    shape.nextNonEquivalentValue value =
      LogLinear.bottom shape.unitMagnitude shape.subBucketHalfCountMagnitude
          value +
        2 ^ (LogLinear.level shape.unitMagnitude
          shape.subBucketHalfCountMagnitude value + shape.unitMagnitude) := by
  rw [nextNonEquivalentValue, regular.lowestEquivalentValue_eq,
    regular.sizeOfEquivalentValueRange_eq, Nat.add_comm shape.unitMagnitude]

theorem Regular.countsIndexFor_nextNonEquivalentValue
    (regular : shape.Regular) (value : Nat) :
    shape.countsIndexFor (shape.nextNonEquivalentValue value) =
      shape.countsIndexFor value + 1 := by
  rw [regular.nextNonEquivalentValue_eq, regular.aligned.countsIndexFor_eq,
    regular.aligned.countsIndexFor_eq, LogLinear.index_bottom_add_width]

variable {value : Nat}

section

variable (regular : shape.Regular)

include regular

theorem Regular.countsIndexFor_le_iff {other : Nat} :
    shape.countsIndexFor other ≤ shape.countsIndexFor value ↔
      other < shape.nextNonEquivalentValue value := by
  rw [regular.nextNonEquivalentValue_eq, regular.aligned.countsIndexFor_eq,
    regular.aligned.countsIndexFor_eq,
    LogLinear.index_le_iff_lt_bottom_add_width]

theorem Regular.countsIndexFor_eq_iff {other : Nat} :
    shape.countsIndexFor value = shape.countsIndexFor other ↔
      shape.lowestEquivalentValue value =
        shape.lowestEquivalentValue other := by
  rw [regular.aligned.countsIndexFor_eq, regular.aligned.countsIndexFor_eq,
    regular.lowestEquivalentValue_eq, regular.lowestEquivalentValue_eq,
    LogLinear.index_eq_iff_bottom_eq]

theorem Regular.le_countsIndexFor_capacity
    (behind :
      2 ^ (shape.unitMagnitude + shape.subBucketHalfCountMagnitude +
        shape.bucketCount) ≤ value) :
    (shape.bucketCount + 1) * shape.subBucketHalfCount ≤
      shape.countsIndexFor value := by
  rw [regular.aligned.countsIndexFor_eq, regular.half]
  exact LogLinear.le_index _ _ behind regular.nonempty

theorem Regular.nextNonEquivalentValue_le (inRange : value ≤ shape.highest) :
    shape.nextNonEquivalentValue value ≤
      2 ^ (shape.unitMagnitude + shape.subBucketHalfCountMagnitude +
        shape.bucketCount) := by
  rw [← Nat.not_lt, ← regular.countsIndexFor_le_iff, Nat.not_le]
  exact Nat.lt_of_lt_of_le (regular.countsIndexFor_lt inRange)
    (regular.le_countsIndexFor_capacity (Nat.le_refl _))

theorem Regular.valueFromIndex_lt {index : Nat}
    (inside : index < (shape.bucketCount + 1) * shape.subBucketHalfCount) :
    shape.valueFromIndex index <
      2 ^ (shape.unitMagnitude + shape.subBucketHalfCountMagnitude +
        shape.bucketCount) := by
  by_contra behind
  have beyond := regular.le_countsIndexFor_capacity (Nat.not_lt.mp behind)
  rw [regular.aligned.countsIndexFor_valueFromIndex] at beyond
  exact Nat.not_lt.mpr beyond inside

end

end HdrShape

/--
The buckets of a histogram partition its range: indices grow with the values,
an index is read back as the least value counted there and that value is
counted at it, values share an index exactly when they cannot be told apart,
and the next index starts at the next value that can.  No value involved
reaches the sign bit.
-/
theorem HdrHistogram.buckets_partition_range
    {lowest highest : Int}
    (positive : 1 ≤ lowest)
    (lowestSmall : lowest * 2 ^ 18 < 2 ^ 62)
    (wide : 2 * lowest ≤ highest)
    (bounded : highest < 2 ^ 62)
    (significantFigures : Int)
    {histogram : HdrHistogram}
    (built : create lowest highest significantFigures = histogram) :
    (∀ value other, value ≤ other → other ≤ histogram.shape.highest →
        histogram.shape.countsIndexFor value ≤
          histogram.shape.countsIndexFor other) ∧
      (∀ value, value ≤ histogram.shape.highest →
        histogram.shape.valueFromIndex
            (histogram.shape.countsIndexFor value) =
          histogram.shape.lowestEquivalentValue value) ∧
      (∀ index, index < histogram.counts.length →
        histogram.shape.countsIndexFor
              (histogram.shape.valueFromIndex index) = index ∧
          histogram.shape.valueFromIndex index < 2 ^ 62) ∧
      (∀ value other, value ≤ histogram.shape.highest →
        other ≤ histogram.shape.highest →
        (histogram.shape.countsIndexFor value =
            histogram.shape.countsIndexFor other ↔
          histogram.shape.lowestEquivalentValue value =
            histogram.shape.lowestEquivalentValue other)) ∧
      ∀ value, value ≤ histogram.shape.highest →
        histogram.shape.countsIndexFor
            (histogram.shape.nextNonEquivalentValue value) =
          histogram.shape.countsIndexFor value + 1 ∧
        (∀ other,
          histogram.shape.countsIndexFor other ≤
              histogram.shape.countsIndexFor value ↔
            other < histogram.shape.nextNonEquivalentValue value) ∧
        histogram.shape.nextNonEquivalentValue value ≤ 2 ^ 62 := by
  have regular : histogram.shape.Regular := by
    rw [← built]
    refine HdrShape.regular_create significantFigures ?_ ?_
    · simp only [kInt64Max]
      omega
    · simp only [kInt64Max]
      omega
  have capacity :
      2 ^ (histogram.shape.unitMagnitude +
          histogram.shape.subBucketHalfCountMagnitude +
          histogram.shape.bucketCount) ≤ 2 ^ 62 := by
    obtain ⟨unitMagnitude, half, magnitudes, room⟩ :=
      HdrShape.exists_magnitudes_lt positive wide lowestSmall
        significantFigures
    rw [← built, create, magnitudes]
    exact Nat.pow_le_pow_right (by decide)
      (HdrShape.capacity_ofMagnitudes_le room highest.toNat)
  refine ⟨?_, ?_, ?_, ?_, ?_⟩
  · intro value other ordered _
    exact regular.aligned.countsIndexFor_mono ordered
  · intro value _
    exact regular.valueFromIndex_countsIndexFor value
  · intro index inside
    refine ⟨regular.aligned.countsIndexFor_valueFromIndex index, ?_⟩
    rw [← built, create, List.length_replicate] at inside
    exact Nat.lt_of_lt_of_le
      (regular.valueFromIndex_lt (built ▸ inside)) capacity
  · intro value other _ _
    exact regular.countsIndexFor_eq_iff
  · intro value inRange
    refine ⟨regular.countsIndexFor_nextNonEquivalentValue value, ?_, ?_⟩
    · intro other
      exact regular.countsIndexFor_le_iff
    · exact Nat.le_trans (regular.nextNonEquivalentValue_le inRange) capacity

/-- The first seam of the default histogram, where buckets get two wide. -/
theorem HdrHistogram.buckets_partition_range_default :
    (create 1 60000000000 3).shape.nextNonEquivalentValue 2047 = 2048 ∧
      (create 1 60000000000 3).shape.nextNonEquivalentValue 2048 = 2050 ∧
      (create 1 60000000000 3).shape.countsIndexFor 2050 =
        (create 1 60000000000 3).shape.countsIndexFor 2048 + 1 := by
  have unitWide :
      (create 1 60000000000 3).shape.nextNonEquivalentValue 2047 = 2048 := by
    decide +kernel
  have twoWide :
      (create 1 60000000000 3).shape.nextNonEquivalentValue 2048 = 2050 := by
    decide +kernel
  have next :=
    ((buckets_partition_range (by decide) (by decide) (by decide)
      (by decide) 3 (Eq.refl (create 1 60000000000 3))).2.2.2.2 2048
      (by decide +kernel)).1
  rw [twoWide] at next
  exact ⟨unitWide, twoWide, next⟩

end Policyd
