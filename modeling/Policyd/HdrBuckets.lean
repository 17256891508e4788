import Policyd.HdrHistogram

namespace Policyd.HdrShape

/-!
# The bucket arithmetic of the histogram

The shapes the constructor builds are *regular*: the half count, the count and
the mask are those of one power of two, and the highest value fits the buckets.
On a regular shape the index arithmetic of the source is the numbering of
log-linear buckets.
-/

/-- The constants of a shape belong together. -/
structure Aligned (shape : HdrShape) : Prop where
  half : shape.subBucketHalfCount = 2 ^ shape.subBucketHalfCountMagnitude
  mask :
    shape.subBucketMask =
      (2 ^ (shape.subBucketHalfCountMagnitude + 1) - 1) * 2 ^ shape.unitMagnitude

/-- The constants of a shape belong together and the highest value fits. -/
structure Regular (shape : HdrShape) : Prop where
  half : shape.subBucketHalfCount = 2 ^ shape.subBucketHalfCountMagnitude
  count : shape.subBucketCount = 2 ^ (shape.subBucketHalfCountMagnitude + 1)
  mask :
    shape.subBucketMask =
      (2 ^ (shape.subBucketHalfCountMagnitude + 1) - 1) * 2 ^ shape.unitMagnitude
  top :
    shape.highest <
      2 ^ (shape.unitMagnitude + shape.subBucketHalfCountMagnitude +
        shape.bucketCount)
  nonempty : 0 < shape.bucketCount

theorem Regular.aligned {shape : HdrShape} (regular : shape.Regular) :
    shape.Aligned where
  half := regular.half
  mask := regular.mask

/-- Below the overflow guard the bucket loop ends with the value inside. -/
theorem exists_countBuckets {highest rounds smallestUntrackable : Nat}
    (guarded : highest ≤ kInt64Max / 2)
    (enough : highest < smallestUntrackable * 2 ^ rounds) (buckets : Nat) :
    ∃ added,
      countBuckets highest rounds smallestUntrackable buckets =
          buckets + added ∧
        highest < smallestUntrackable * 2 ^ added := by
  induction rounds generalizing smallestUntrackable buckets with
  | zero => exact ⟨0, rfl, enough⟩
  | succ rounds inductionHypothesis =>
    rw [countBuckets]
    by_cases untracked : smallestUntrackable ≤ highest
    · rw [if_pos untracked,
        if_neg (Nat.not_lt.mpr (Nat.le_trans untracked guarded))]
      have doubled : highest < smallestUntrackable <<< 1 * 2 ^ rounds := by
        rwa [Nat.shiftLeft_eq, Nat.mul_assoc, ← Nat.pow_add, Nat.add_comm 1]
      obtain ⟨added, counted, fits⟩ := inductionHypothesis doubled (buckets + 1)
      refine ⟨added + 1, by rw [counted]; ring, ?_⟩
      rwa [Nat.shiftLeft_eq, Nat.mul_assoc, ← Nat.pow_add,
        Nat.add_comm 1] at fits
    · rw [if_neg untracked]
      exact ⟨0, rfl, by simpa using untracked⟩

/-- The shape with two magnitudes. -/
def ofMagnitudes (highest unitMagnitude half : Nat) : HdrShape where
  highest := highest
  unitMagnitude := unitMagnitude
  subBucketHalfCountMagnitude := half
  subBucketCount := 2 ^ (half + 1)
  subBucketHalfCount := 2 ^ half
  subBucketMask := (2 ^ (half + 1) - 1) * 2 ^ unitMagnitude
  bucketCount := countBuckets highest 64 (2 ^ (unitMagnitude + half + 1)) 1

/-- The constructor derives two magnitudes from a range and its precision. -/
theorem exists_create_eq_ofMagnitudes
    (lowest highest significantFigures : Int) :
    ∃ unitMagnitude half,
      create lowest highest significantFigures =
          ofMagnitudes (max (max 1 lowest * 2) highest).toNat unitMagnitude
            half ∧
        2 ^ unitMagnitude ≤ (max 1 lowest).toNat ∧
        half < 18 := by
  have lowestKept : (if lowest < 1 then 1 else lowest) = max 1 lowest := by
    split_ifs <;> omega
  have highestKept :
      (if highest < max 1 lowest * 2 then max 1 lowest * 2 else highest) =
        max (max 1 lowest * 2) highest := by
    split_ifs <;> omega
  obtain ⟨figures, figuresKept, atMostFive⟩ :
      ∃ figures,
        (if (if significantFigures < 1 then 1 else significantFigures) > 5
          then 5
          else if significantFigures < 1 then 1
            else significantFigures).toNat = figures ∧
          figures ≤ 5 := by
    refine ⟨_, rfl, ?_⟩
    split_ifs <;> omega
  have positive : 0 < Nat.clog 2 (2 * 10 ^ figures) :=
    Nat.clog_pos (by decide)
      (Nat.le_mul_of_pos_right 2 (Nat.pow_pos (by decide)))
  have small : Nat.clog 2 (2 * 10 ^ figures) ≤ 18 :=
    Nat.clog_le_of_le_pow
      (Nat.le_trans
        (Nat.mul_le_mul_left 2 (Nat.pow_le_pow_right (by decide) atMostFive))
        (by decide : 2 * 10 ^ 5 ≤ 2 ^ 18))
  obtain ⟨half, magnitude⟩ : ∃ half, Nat.clog 2 (2 * 10 ^ figures) = half + 1 :=
    ⟨_, (Nat.sub_add_cancel positive).symm⟩
  refine ⟨Nat.log 2 (max 1 lowest).toNat, half, ?_, ?_, by omega⟩
  · simp only [create, lowestKept, highestKept, figuresKept, magnitude,
      Nat.shiftLeft_eq, Nat.one_mul, Nat.add_sub_cancel, ofMagnitudes]
    congr 1
    · rw [Nat.pow_succ, Nat.mul_div_cancel _ (by decide)]
    · rw [← Nat.pow_add]
      congr 2
      omega
  · exact Nat.pow_log_le_self 2 (by omega)

theorem aligned_ofMagnitudes (highest unitMagnitude half : Nat) :
    (ofMagnitudes highest unitMagnitude half).Aligned where
  half := rfl
  mask := rfl

/-- Below the overflow guard a shape with two magnitudes is regular. -/
theorem regular_ofMagnitudes {highest : Nat}
    (unitMagnitude half : Nat) (guarded : highest ≤ kInt64Max / 2) :
    (ofMagnitudes highest unitMagnitude half).Regular := by
  have enough : highest < 2 ^ (unitMagnitude + half + 1) * 2 ^ 64 := by
    have small : highest < 2 ^ 64 := Nat.lt_of_le_of_lt guarded (by decide)
    exact Nat.lt_of_lt_of_le small
      (Nat.le_mul_of_pos_left _ (Nat.two_pow_pos _))
  obtain ⟨added, counted, fits⟩ := exists_countBuckets guarded enough 1
  have bucketCount :
      (ofMagnitudes highest unitMagnitude half).bucketCount = 1 + added :=
    counted
  refine ⟨rfl, rfl, rfl, ?_, ?_⟩
  · rw [← Nat.pow_add] at fits
    rw [bucketCount, ← Nat.add_assoc]
    exact fits
  · rw [bucketCount]
    omega

/--
The constructor builds a regular shape when the range stays below the overflow
guard.
-/
theorem regular_create {lowest highest : Int}
    (significantFigures : Int) (lowestSmall : lowest ≤ (kInt64Max / 4 : Nat))
    (highestSmall : highest ≤ (kInt64Max / 2 : Nat)) :
    (create lowest highest significantFigures).Regular := by
  obtain ⟨unitMagnitude, half, built, _⟩ :=
    exists_create_eq_ofMagnitudes lowest highest significantFigures
  rw [built]
  refine regular_ofMagnitudes unitMagnitude half ?_
  simp only [kInt64Max] at lowestSmall highestSmall ⊢
  omega

section Regular

variable {shape : HdrShape}

/-- The mask supplies the leading bit of a value that does not have it. -/
theorem Aligned.log2_or_mask (aligned : shape.Aligned) (value : Nat) :
    Nat.log2 (value ||| shape.subBucketMask) =
      shape.unitMagnitude + shape.subBucketHalfCountMagnitude +
        LogLinear.level shape.unitMagnitude
          shape.subBucketHalfCountMagnitude value := by
  have maskLow :
      2 ^ (shape.unitMagnitude + shape.subBucketHalfCountMagnitude) ≤
        shape.subBucketMask := by
    rw [aligned.mask, Nat.add_comm, Nat.pow_add]
    refine Nat.mul_le_mul_right _ ?_
    have := Nat.two_pow_pos shape.subBucketHalfCountMagnitude
    omega
  have maskHigh :
      shape.subBucketMask <
        2 ^ (shape.unitMagnitude + shape.subBucketHalfCountMagnitude + 1) := by
    rw [aligned.mask, Nat.add_assoc, Nat.add_comm shape.unitMagnitude,
      Nat.pow_add 2 _ shape.unitMagnitude]
    refine Nat.mul_lt_mul_of_pos_right ?_ (Nat.two_pow_pos _)
    exact Nat.sub_lt (Nat.two_pow_pos _) (by decide)
  have masked :
      2 ^ (shape.unitMagnitude + shape.subBucketHalfCountMagnitude) ≤
        value ||| shape.subBucketMask :=
    Nat.le_trans maskLow Nat.right_le_or
  have positive : value ||| shape.subBucketMask ≠ 0 :=
    Nat.ne_of_gt (Nat.lt_of_lt_of_le (Nat.two_pow_pos _) masked)
  refine (Nat.log2_eq_iff positive).mpr ⟨?_, ?_⟩
  · rcases Nat.eq_zero_or_pos
      (LogLinear.level shape.unitMagnitude
        shape.subBucketHalfCountMagnitude value) with lowest | raised
    · rwa [lowest]
    · exact Nat.le_trans
        (LogLinear.pow_level_le _ _ (Nat.ne_of_gt raised)) Nat.left_le_or
  · refine Nat.or_lt_two_pow (LogLinear.lt_pow_level _ _ value) ?_
    exact Nat.lt_of_lt_of_le maskHigh
      (Nat.pow_le_pow_right (by decide) (by omega))

theorem Aligned.bucketIndex_eq (aligned : shape.Aligned) (value : Nat) :
    shape.bucketIndex value =
      LogLinear.level shape.unitMagnitude shape.subBucketHalfCountMagnitude
        value := by
  rw [bucketIndex, aligned.log2_or_mask]
  omega

theorem Aligned.subBucketIndex_eq (aligned : shape.Aligned) (value : Nat) :
    shape.subBucketIndex value (shape.bucketIndex value) =
      LogLinear.slot shape.unitMagnitude shape.subBucketHalfCountMagnitude
        value := by
  rw [subBucketIndex, Nat.shiftRight_eq_div_pow, aligned.bucketIndex_eq]
  rfl

theorem Aligned.countsIndexFor_eq (aligned : shape.Aligned) (value : Nat) :
    shape.countsIndexFor value =
      LogLinear.index shape.unitMagnitude shape.subBucketHalfCountMagnitude
        value := by
  rw [countsIndexFor, aligned.subBucketIndex_eq, aligned.bucketIndex_eq,
    aligned.half, Nat.shiftLeft_eq, Nat.add_mul, LogLinear.index]
  omega

theorem Aligned.countsIndexFor_mono
    (aligned : shape.Aligned) {value other : Nat} (ordered : value ≤ other) :
    shape.countsIndexFor value ≤ shape.countsIndexFor other := by
  rw [aligned.countsIndexFor_eq, aligned.countsIndexFor_eq]
  exact LogLinear.index_mono _ _ ordered

theorem Regular.countsIndexFor_lt
    (regular : shape.Regular) {value : Nat} (inRange : value ≤ shape.highest) :
    shape.countsIndexFor value <
      (shape.bucketCount + 1) * shape.subBucketHalfCount := by
  rw [regular.aligned.countsIndexFor_eq, regular.half]
  exact LogLinear.index_lt _ _ (Nat.lt_of_le_of_lt inRange regular.top)
    regular.nonempty

theorem Regular.lowestEquivalentValue_eq
    (regular : shape.Regular) (value : Nat) :
    shape.lowestEquivalentValue value =
      LogLinear.bottom shape.unitMagnitude shape.subBucketHalfCountMagnitude
        value := by
  rw [lowestEquivalentValue, regular.aligned.subBucketIndex_eq, regular.aligned.bucketIndex_eq,
    Nat.shiftLeft_eq]
  rfl

/-- An index is read back as the least value of the bucket it numbers. -/
theorem Aligned.exists_valueFromIndex (aligned : shape.Aligned) (index : Nat) :
    ∃ level slot,
      LogLinear.IsBucket shape.subBucketHalfCountMagnitude level slot ∧
        shape.valueFromIndex index = slot * 2 ^ (level + shape.unitMagnitude) ∧
        level * 2 ^ shape.subBucketHalfCountMagnitude + slot = index := by
  have rest :=
    Nat.mod_lt index (Nat.two_pow_pos shape.subBucketHalfCountMagnitude)
  have parts := Nat.div_add_mod' index (2 ^ shape.subBucketHalfCountMagnitude)
  have half : 2 ^ shape.subBucketHalfCountMagnitude <
      2 ^ (shape.subBucketHalfCountMagnitude + 1) :=
    Nat.pow_lt_pow_succ (by decide)
  simp only [valueFromIndex, aligned.half, Nat.shiftRight_eq_div_pow,
    Nat.and_two_pow_sub_one_eq_mod, Nat.shiftLeft_eq, Nat.add_sub_cancel]
  generalize index / 2 ^ shape.subBucketHalfCountMagnitude = quotient at *
  cases quotient with
  | zero =>
    -- the first half of the lowest bucket
    rw [if_pos (by decide)]
    refine ⟨0, _, ⟨Nat.lt_trans rest half, fun raised => ?_⟩, rfl, ?_⟩
    · exact absurd rfl raised
    · omega
  | succ level =>
    rw [if_neg (by omega)]
    refine ⟨level, index % 2 ^ shape.subBucketHalfCountMagnitude +
      2 ^ shape.subBucketHalfCountMagnitude,
      ⟨?_, fun _ => Nat.le_add_left _ _⟩, ?_, ?_⟩
    · rw [Nat.pow_succ]
      omega
    · congr 2
      omega
    · rw [Nat.succ_mul] at parts
      omega

theorem Aligned.countsIndexFor_valueFromIndex
    (aligned : shape.Aligned) (index : Nat) :
    shape.countsIndexFor (shape.valueFromIndex index) = index := by
  obtain ⟨level, slot, bucket, readBack, number⟩ :=
    aligned.exists_valueFromIndex index
  rw [aligned.countsIndexFor_eq, readBack, bucket.index_eq, number]

section

variable (regular : shape.Regular) (value : Nat)

include regular value

theorem Regular.valueFromIndex_countsIndexFor :
    shape.valueFromIndex (shape.countsIndexFor value) =
      shape.lowestEquivalentValue value := by
  obtain ⟨level, slot, bucket, readBack, _⟩ :=
    regular.aligned.exists_valueFromIndex (shape.countsIndexFor value)
  have number :=
    regular.aligned.countsIndexFor_valueFromIndex (shape.countsIndexFor value)
  rw [readBack, regular.aligned.countsIndexFor_eq,
    regular.aligned.countsIndexFor_eq,
    LogLinear.index_eq_iff_bottom_eq] at number
  rw [regular.lowestEquivalentValue_eq, ← number, readBack, bucket.bottom_eq]

theorem Regular.sizeOfEquivalentValueRange_eq :
    shape.sizeOfEquivalentValueRange value =
      2 ^ (shape.unitMagnitude +
        LogLinear.level shape.unitMagnitude
          shape.subBucketHalfCountMagnitude value) := by
  have inside := LogLinear.slot_lt shape.unitMagnitude
    shape.subBucketHalfCountMagnitude value
  rw [sizeOfEquivalentValueRange, regular.aligned.subBucketIndex_eq,
    regular.aligned.bucketIndex_eq, regular.count, if_neg (Nat.not_le.mpr inside),
    Nat.shiftLeft_eq, Nat.one_mul]

theorem Regular.highestEquivalentValue_lowest :
    shape.highestEquivalentValue (shape.lowestEquivalentValue value) =
      shape.highestEquivalentValue value := by
  simp only [highestEquivalentValue, nextNonEquivalentValue,
    regular.lowestEquivalentValue_eq, regular.sizeOfEquivalentValueRange_eq,
    LogLinear.level_bottom]
  rw [LogLinear.bottom, LogLinear.slot_bottom, LogLinear.level_bottom,
    LogLinear.bottom]

theorem Regular.equivalent_bounds :
    shape.lowestEquivalentValue value ≤ value ∧
      value ≤ shape.highestEquivalentValue value := by
  have upper := LogLinear.lt_bottom_add_width shape.unitMagnitude
    shape.subBucketHalfCountMagnitude value
  rw [highestEquivalentValue, nextNonEquivalentValue,
    regular.lowestEquivalentValue_eq, regular.sizeOfEquivalentValueRange_eq,
    Nat.add_comm shape.unitMagnitude]
  exact ⟨LogLinear.bottom_le _ _ value, Nat.le_sub_one_of_lt upper⟩

end

/--
With unit width at the bottom, any part of a range of equivalent values is at
most one part in `2 ^ half` of each of its values.
-/
theorem Regular.mul_distance_le
    (regular : shape.Regular) (unit : shape.unitMagnitude = 0)
    {value distance : Nat}
    (inside : distance < shape.sizeOfEquivalentValueRange value) :
    2 ^ shape.subBucketHalfCountMagnitude * distance ≤ value := by
  rw [regular.sizeOfEquivalentValueRange_eq, Nat.add_comm] at inside
  rcases Nat.eq_zero_or_pos
    (LogLinear.level shape.unitMagnitude shape.subBucketHalfCountMagnitude
      value) with lowest | raised
  · -- the buckets of the lowest level hold one value each
    rw [lowest, unit, Nat.zero_add, Nat.pow_zero, Nat.lt_one_iff] at inside
    rw [inside, Nat.mul_zero]
    exact Nat.zero_le value
  · exact Nat.le_trans
      (Nat.mul_le_mul_left _ (Nat.le_of_lt inside))
      (LogLinear.pow_half_mul_width_le _ _ (Nat.ne_of_gt raised))

end Regular

/-- Half of the sub-buckets are enough for the significant figures. -/
theorem ten_pow_le_half (highest : Int) {significantFigures : Int}
    (atLeastOne : 1 ≤ significantFigures)
    (atMostFive : significantFigures ≤ 5) :
    10 ^ significantFigures.toNat ≤
      2 ^ (create 1 highest
        significantFigures).subBucketHalfCountMagnitude := by
  have enough :
      2 * 10 ^ significantFigures.toNat ≤
        2 ^ Nat.clog 2 (2 * 10 ^ significantFigures.toNat) :=
    Nat.le_pow_clog (by decide) _
  have positive : 0 < Nat.clog 2 (2 * 10 ^ significantFigures.toNat) :=
    Nat.clog_pos (by decide)
      (Nat.le_mul_of_pos_right 2 (Nat.pow_pos (by decide)))
  obtain ⟨half, shape⟩ := Nat.exists_eq_add_of_lt positive
  have lowKept : ¬ significantFigures < 1 := Int.not_lt.mpr atLeastOne
  have highKept : ¬ significantFigures > 5 := Int.not_lt.mpr atMostFive
  simp only [create, if_neg lowKept, if_neg highKept]
  rw [shape, Nat.zero_add, Nat.pow_succ] at enough
  rw [shape, Nat.zero_add, Nat.add_sub_cancel]
  omega

/--
Every value, those of the range included, is within one part in
`10 ^ significantFigures` of both ends of its range of equivalent values.
-/
theorem relative_error_within_significant_figures
    {highest significantFigures : Int}
    (atLeastOne : 1 ≤ significantFigures)
    (atMostFive : significantFigures ≤ 5)
    (bounded : highest ≤ 60000000000)
    {shape : HdrShape}
    (built : create 1 highest significantFigures = shape)
    (value : Nat) :
    shape.lowestEquivalentValue value ≤ value ∧
      value ≤ shape.highestEquivalentValue value ∧
      10 ^ significantFigures.toNat *
          (shape.highestEquivalentValue value - value) ≤ value ∧
      10 ^ significantFigures.toNat *
          (value - shape.lowestEquivalentValue value) ≤ value := by
  have figures := ten_pow_le_half highest atLeastOne atMostFive
  have regular : (create 1 highest significantFigures).Regular :=
    regular_create significantFigures (by decide)
      (Int.le_trans bounded (by decide))
  have unit : (create 1 highest significantFigures).unitMagnitude = 0 := rfl
  rw [built] at figures regular unit
  obtain ⟨lower, upper⟩ := regular.equivalent_bounds value
  have within {distance : Nat}
      (inside : distance < shape.sizeOfEquivalentValueRange value) :
      10 ^ significantFigures.toNat * distance ≤ value :=
    Nat.le_trans (Nat.mul_le_mul_right _ figures)
      (regular.mul_distance_le unit inside)
  have range :
      shape.highestEquivalentValue value =
        shape.lowestEquivalentValue value +
          shape.sizeOfEquivalentValueRange value - 1 := rfl
  have nonempty : 0 < shape.sizeOfEquivalentValueRange value := by
    rw [regular.sizeOfEquivalentValueRange_eq]
    exact Nat.two_pow_pos _
  refine ⟨lower, upper, within ?_, within ?_⟩
  · omega
  · omega

/-- Three figures at a value two levels up, where four values fall together. -/
theorem relative_error_within_significant_figures_five_thousand :
    (create 1 60000000000 3).lowestEquivalentValue 5001 = 5000 ∧
      (create 1 60000000000 3).highestEquivalentValue 5001 = 5003 ∧
      10 ^ 3 * (5003 - 5001) ≤ 5001 := by
  have lowest :
      (create 1 60000000000 3).lowestEquivalentValue 5001 = 5000 := by
    decide +kernel
  have highest :
      (create 1 60000000000 3).highestEquivalentValue 5001 = 5003 := by
    decide +kernel
  have error :=
    (relative_error_within_significant_figures (by decide) (by decide)
      (by decide) (Eq.refl (create 1 60000000000 3)) 5001).2.2.1
  rw [highest] at error
  exact ⟨lowest, highest, error⟩

end Policyd.HdrShape
