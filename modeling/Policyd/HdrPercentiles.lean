import Policyd.HdrBuckets
import Mathlib.Data.List.Pairwise

namespace Policyd

/-!
# Percentiles of recorded values

What a histogram knows after recording is a function of the values it tracked:
the nonnegative ones, each clamped to the highest trackable value.  The counts
are their bucket counts, the extremes are their extremes, and a percentile is
the top of the bucket of the tracked value of that rank.
-/

/-- The values a histogram tracks: the nonnegative ones, clamped. -/
def trackedValues (highest : Nat) (values : List Int) : List Nat :=
  (values.filter fun value => 0 ≤ value).map fun value =>
    min value.toNat highest

/-- The tracked values in order. -/
def sortedValues (highest : Nat) (values : List Int) : List Nat :=
  (trackedValues highest values).insertionSort (· ≤ ·)

/-- The rank of a percentile among a number of values, taken exactly. -/
def percentileRank (percentile : Rat) (count : Nat) : Nat :=
  max 1 (min count (Rat.ceil (percentile * count / 100)).toNat)

theorem le_of_mem_trackedValues {highest tracked : Nat} {values : List Int}
    (member : tracked ∈ trackedValues highest values) :
    tracked ≤ highest := by
  obtain ⟨value, _, rfl⟩ := List.mem_map.mp member
  exact Nat.min_le_right _ _

/-- The least and the greatest of some values, whatever they are for none. -/
structure Spans (least greatest : Nat) (tracked : List Nat) : Prop where
  between : ∀ value ∈ tracked, least ≤ value ∧ value ≤ greatest
  attained : tracked ≠ [] → least ∈ tracked ∧ greatest ∈ tracked

theorem Spans.singleton (value : Nat) :
    Spans value value [value] :=
  ⟨by simp, by simp⟩

/-- The extremes of values put together are the extremes of the extremes. -/
theorem Spans.append
    {least greatest otherLeast otherGreatest : Nat} {tracked others : List Nat}
    (spans : Spans least greatest tracked)
    (otherSpans : Spans otherLeast otherGreatest others)
    (nonempty : tracked ≠ []) (otherNonempty : others ≠ []) :
    Spans (Nat.min least otherLeast) (Nat.max greatest otherGreatest)
      (tracked ++ others) where
  between := by
    intro value member
    rcases List.mem_append.mp member with here | there
    · obtain ⟨above, below⟩ := spans.between value here
      exact ⟨Nat.le_trans (Nat.min_le_left _ _) above,
        Nat.le_trans below (Nat.le_max_left _ _)⟩
    · obtain ⟨above, below⟩ := otherSpans.between value there
      exact ⟨Nat.le_trans (Nat.min_le_right _ _) above,
        Nat.le_trans below (Nat.le_max_right _ _)⟩
  attained := by
    intro _
    obtain ⟨leastHeld, greatestHeld⟩ := spans.attained nonempty
    obtain ⟨otherLeastHeld, otherGreatestHeld⟩ :=
      otherSpans.attained otherNonempty
    constructor
    · rcases Nat.le_total least otherLeast with below | above
      · simp [Nat.min_eq_left below, leastHeld]
      · simp [Nat.min_eq_right above, otherLeastHeld]
    · rcases Nat.le_total greatest otherGreatest with below | above
      · simp [Nat.max_eq_right below, otherGreatestHeld]
      · simp [Nat.max_eq_left above, greatestHeld]

namespace HdrHistogram

/-- A histogram of a shape holds exactly the given values of the range. -/
structure Tracks
    (shape : HdrShape)
    (histogram : HdrHistogram)
    (tracked : List Nat) : Prop where
  sameShape : histogram.shape = shape
  counts :
    histogram.counts =
      bucketCounts shape.countsIndexFor
        ((shape.bucketCount + 1) * shape.subBucketHalfCount) tracked
  totalCount : histogram.totalCount = tracked.length
  between : ∀ value ∈ tracked, histogram.min_ ≤ value ∧ value ≤ histogram.max_
  attained :
    tracked ≠ [] → histogram.min_ ∈ tracked ∧ histogram.max_ ∈ tracked

variable {shape : HdrShape} {histogram : HdrHistogram} {tracked : List Nat}

theorem Tracks.spans (tracks : Tracks shape histogram tracked) :
    Spans histogram.min_ histogram.max_ tracked :=
  ⟨tracks.between, tracks.attained⟩

theorem Tracks.totalCount_eq_zero_iff
    (tracks : Tracks shape histogram tracked) :
    histogram.totalCount = 0 ↔ tracked = [] := by
  rw [tracks.totalCount, List.length_eq_zero_iff]

theorem tracks_create (lowest highest significantFigures : Int) :
    Tracks (HdrShape.create lowest highest significantFigures)
      (create lowest highest significantFigures) [] where
  sameShape := rfl
  counts := (bucketCounts_nil _ _).symm
  totalCount := rfl
  between := by simp
  attained := by simp

theorem recordTracked_extremes_first
    (empty : histogram.totalCount = 0) (value : Nat) :
    (histogram.recordTracked value).min_ = value ∧
      (histogram.recordTracked value).max_ = value := by
  simp [recordTracked, empty]

/-- A later value moves an extreme when it lies outside. -/
theorem recordTracked_extremes_later
    (nonempty : histogram.totalCount ≠ 0) (value : Nat) :
    (histogram.recordTracked value).min_ = Nat.min histogram.min_ value ∧
      (histogram.recordTracked value).max_ = Nat.max histogram.max_ value := by
  have notFirst : histogram.totalCount + 1 ≠ 1 := by
    omega
  simp only [recordTracked, notFirst, or_false]
  constructor
  · split_ifs with below
    · exact (Nat.min_eq_right (Nat.le_of_lt below)).symm
    · exact (Nat.min_eq_left (Nat.not_lt.mp below)).symm
  · split_ifs with above
    · exact (Nat.max_eq_right (Nat.le_of_lt above)).symm
    · exact (Nat.max_eq_left (Nat.not_lt.mp above)).symm

/-- Counting a value adds it to the values held. -/
theorem Tracks.recordTracked
    (tracks : Tracks shape histogram tracked) (value : Nat) :
    Tracks shape (histogram.recordTracked value) (tracked ++ [value]) := by
  have counted :
      (histogram.recordTracked value).counts =
        bucketCounts shape.countsIndexFor
          ((shape.bucketCount + 1) * shape.subBucketHalfCount)
          (tracked ++ [value]) := by
    rw [bucketCounts_concat, ← tracks.counts, ← tracks.sameShape]
    rfl
  have total :
      (histogram.recordTracked value).totalCount =
        (tracked ++ [value]).length := by
    rw [List.length_append, ← tracks.totalCount]
    rfl
  have spans :
      Spans (histogram.recordTracked value).min_
        (histogram.recordTracked value).max_ (tracked ++ [value]) := by
    by_cases empty : tracked = []
    · obtain ⟨least, greatest⟩ :=
        recordTracked_extremes_first
          (tracks.totalCount_eq_zero_iff.mpr empty) value
      rw [least, greatest, empty, List.nil_append]
      exact .singleton value
    · obtain ⟨least, greatest⟩ :=
        recordTracked_extremes_later
          (mt tracks.totalCount_eq_zero_iff.mp empty) value
      rw [least, greatest]
      exact tracks.spans.append (.singleton value) empty
        (List.cons_ne_nil value [])
  exact ⟨tracks.sameShape, counted, total, spans.between, spans.attained⟩

theorem Tracks.setCounters (tracks : Tracks shape histogram tracked)
    (overflowCount negativeCount : Nat) :
    Tracks shape
      { histogram with
        overflowCount := overflowCount
        negativeCount := negativeCount }
      tracked :=
  ⟨tracks.sameShape, tracks.counts, tracks.totalCount, tracks.between,
    tracks.attained⟩

/-- What a histogram of a shape holds after recording some values. -/
structure Recorded
    (shape : HdrShape)
    (histogram : HdrHistogram)
    (values : List Int) : Prop where
  tracks : Tracks shape histogram (trackedValues shape.highest values)
  overflowCount :
    histogram.overflowCount =
      values.countP fun value => (shape.highest : Int) < value
  negativeCount :
    histogram.negativeCount = values.countP fun value => value < 0

theorem Recorded.record {values : List Int}
    (recorded : Recorded shape histogram values) (value : Int) :
    Recorded shape (histogram.record value) (values ++ [value]) := by
  obtain ⟨tracks, overflow, negative⟩ := recorded
  have sameShape := tracks.sameShape
  subst sameShape
  unfold HdrHistogram.record
  by_cases below : value < 0
  · have notAbove : ¬ (histogram.shape.highest : Int) < value := by
      omega
    have same :
        trackedValues histogram.shape.highest (values ++ [value]) =
          trackedValues histogram.shape.highest values := by
      simp [trackedValues, below]
    rw [if_pos below]
    refine ⟨?_, ?_, ?_⟩
    · rw [same]
      exact tracks.setCounters _ _
    · simpa [notAbove] using overflow
    · simpa [below] using negative
  · have more :
        trackedValues histogram.shape.highest (values ++ [value]) =
          trackedValues histogram.shape.highest values ++
            [Nat.min value.toNat histogram.shape.highest] := by
      simp [trackedValues, Int.not_lt.mp below]
    rw [if_neg below]
    by_cases above : (histogram.shape.highest : Int) < value
    · have clamped :
          Nat.min value.toNat histogram.shape.highest =
            histogram.shape.highest :=
        Nat.min_eq_right (by omega)
      rw [if_pos above]
      refine ⟨?_, ?_, ?_⟩
      · rw [more, clamped]
        exact (tracks.setCounters _ _).recordTracked _
      · simpa [HdrHistogram.recordTracked, above] using overflow
      · simpa [HdrHistogram.recordTracked, below] using negative
    · have kept : Nat.min value.toNat histogram.shape.highest = value.toNat :=
        Nat.min_eq_left (by omega)
      rw [if_neg above]
      refine ⟨?_, ?_, ?_⟩
      · rw [more, kept]
        exact tracks.recordTracked _
      · simpa [HdrHistogram.recordTracked, above] using overflow
      · simpa [HdrHistogram.recordTracked, below] using negative

theorem Recorded.recordAll {earlier : List Int}
    (recorded : Recorded shape histogram earlier) (values : List Int) :
    Recorded shape (histogram.recordAll values) (earlier ++ values) := by
  induction values generalizing histogram earlier with
  | nil =>
    rwa [List.append_nil]
  | cons value later inductionHypothesis =>
    have extended := inductionHypothesis (recorded.record value)
    rwa [List.append_assoc] at extended

theorem recorded_recordAll
    (lowest highest significantFigures : Int) (values : List Int) :
    Recorded (HdrShape.create lowest highest significantFigures)
      ((create lowest highest significantFigures).recordAll values) values := by
  have nothing :
      Recorded (HdrShape.create lowest highest significantFigures)
        (create lowest highest significantFigures) [] :=
    ⟨tracks_create lowest highest significantFigures, rfl, rfl⟩
  exact nothing.recordAll values

section Reading

variable {shape : HdrShape}
variable {histogram : HdrHistogram}
variable {tracked sorted : List Nat}

/-- The extremes of a histogram are the ends of its values in order. -/
theorem Tracks.min_max
    (tracks : Tracks shape histogram tracked) (reordered : sorted.Perm tracked)
    (ordered : sorted.Pairwise (· ≤ ·)) (nonempty : sorted ≠ []) :
    sorted.head? = some histogram.min ∧
      sorted.getLast? = some histogram.max := by
  have someHeld : tracked ≠ [] := by
    intro empty
    exact nonempty (List.Perm.eq_nil (empty ▸ reordered))
  have counted : histogram.totalCount ≠ 0 := by
    rw [tracks.totalCount]
    exact mt List.length_eq_zero_iff.mp someHeld
  obtain ⟨minHeld, maxHeld⟩ := tracks.attained someHeld
  have headHeld := reordered.mem_iff.mp (List.head_mem nonempty)
  have lastHeld := reordered.mem_iff.mp (List.getLast_mem nonempty)
  rw [List.head?_eq_some_head nonempty, List.getLast?_eq_some_getLast nonempty,
    min, max, if_pos counted, if_pos counted]
  constructor
  · exact congrArg some (Nat.le_antisymm
      (ordered.rel_head (reordered.mem_iff.mpr minHeld))
      (tracks.between _ headHeld).1)
  · exact congrArg some (Nat.le_antisymm
      (tracks.between _ lastHeld).2
      (ordered.rel_getLast (reordered.mem_iff.mpr maxHeld)))

/-- A rank is looked up as the top of the bucket of the value of that rank. -/
theorem Tracks.lookup
    (tracks : Tracks shape histogram tracked) (regular : shape.Regular)
    (inRange : ∀ value ∈ tracked, value ≤ shape.highest)
    (reordered : sorted.Perm tracked) (ordered : sorted.Pairwise (· ≤ ·))
    {position : Nat}
    (inside : position < sorted.length) :
    (firstReaching (position + 1) 0 histogram.counts).map
        (fun index =>
          shape.highestEquivalentValue (shape.valueFromIndex index)) =
      some (shape.highestEquivalentValue sorted[position]) := by
  have counted :
      histogram.counts =
        bucketCounts shape.countsIndexFor
          ((shape.bucketCount + 1) * shape.subBucketHalfCount) sorted := by
    rw [tracks.counts, bucketCounts_perm _ _ reordered]
  have fits :
      shape.countsIndexFor sorted[position] <
        (shape.bucketCount + 1) * shape.subBucketHalfCount :=
    regular.countsIndexFor_lt
      (inRange _ (reordered.mem_iff.mp (List.getElem_mem inside)))
  have found :=
    firstReaching_bucketCounts
      (fun _ _ => regular.aligned.countsIndexFor_mono) ordered inside fits
  rw [counted, found, Option.map_some, regular.valueFromIndex_countsIndexFor,
    regular.highestEquivalentValue_lowest]

theorem targetCount_bounds (round : Rat → Rat) (percentile : Rat) {count : Nat}
    (nonempty : 0 < count) :
    1 ≤ targetCount round percentile count ∧
      targetCount round percentile count ≤ count := by
  unfold targetCount clamp
  extract_lets percentile target
  split_ifs <;> omega

/--
However percentiles are rounded, the value at a percentile is the top of the
bucket of the value whose rank is the target.
-/
theorem Tracks.valueAtPercentile
    (tracks : Tracks shape histogram tracked) (regular : shape.Regular)
    (inRange : ∀ value ∈ tracked, value ≤ shape.highest)
    (reordered : sorted.Perm tracked) (ordered : sorted.Pairwise (· ≤ ·))
    (nonempty : sorted ≠ []) (round : Rat → Rat) (percentile : Rat) :
    sorted[targetCount round percentile sorted.length - 1]?.map
        shape.highestEquivalentValue =
      some (histogram.valueAtPercentile round percentile) := by
  have counted : histogram.totalCount = sorted.length := by
    rw [tracks.totalCount, reordered.length_eq]
  have positive : 0 < sorted.length := List.length_pos_iff.mpr nonempty
  obtain ⟨low, high⟩ := targetCount_bounds round percentile positive
  obtain ⟨position, targetShape⟩ :
      ∃ position,
        targetCount round percentile sorted.length = position + 1 :=
    ⟨_, (Nat.sub_add_cancel low).symm⟩
  have inside : position < sorted.length := by
    omega
  obtain ⟨index, found, value⟩ :=
    Option.map_eq_some_iff.mp
      (tracks.lookup regular inRange reordered ordered inside)
  rw [HdrHistogram.valueAtPercentile, if_neg (by omega), counted, targetShape,
    Nat.add_sub_cancel, List.getElem?_eq_getElem inside, Option.map_some,
    ← value, ← tracks.sameShape]
  simp only [found]

/-- Without rounding the target is the rank of the percentile. -/
theorem targetCount_exact {percentile : Rat}
    (nonnegative : 0 ≤ percentile) (atMost : percentile ≤ 100)
    {count : Nat}
    (nonempty : 0 < count) :
    targetCount id percentile count = percentileRank percentile count := by
  have kept : clamp percentile 0 100 = percentile := by
    rw [clamp, if_neg (not_lt.mpr nonnegative), if_neg (not_lt.mpr atMost)]
  have product : percentile / 100 * count = percentile * count / 100 := by
    ring
  simp only [targetCount, percentileRank, kept, id_eq, product]
  generalize (percentile * count / 100).ceil = target
  unfold clamp
  split_ifs <;> omega

end Reading

end HdrHistogram

theorem HdrShape.highest_create (highest significantFigures : Int) :
    (HdrShape.create 1 highest significantFigures).highest =
      (max highest 2).toNat := by
  simp only [HdrShape.create]
  split_ifs <;> omega

/--
What a histogram reports about recorded values: its counters are exact, its
extremes are the ends of the tracked values in order, and a percentile is the
top of the bucket of the tracked value of that rank.
-/
structure HdrHistogram.ReportsOn
    (histogram : HdrHistogram)
    (highest : Nat)
    (values : List Int) : Prop where
  totalCount : histogram.totalCount = (sortedValues highest values).length
  sumOfCounts : histogram.counts.sum = (sortedValues highest values).length
  overflowCount :
    histogram.overflowCount =
      values.countP fun value => (highest : Int) < value
  negativeCount :
    histogram.negativeCount = values.countP fun value => value < 0
  least :
    sortedValues highest values ≠ [] →
      (sortedValues highest values).head? = some histogram.min
  greatest :
    sortedValues highest values ≠ [] →
      (sortedValues highest values).getLast? = some histogram.max
  percentiles :
    sortedValues highest values ≠ [] →
      ∀ percentile : Rat, 0 ≤ percentile → percentile ≤ 100 →
        (sortedValues highest values)[percentileRank percentile
            (sortedValues highest values).length - 1]?.map
            histogram.shape.highestEquivalentValue =
          some (histogram.valueAtPercentile id percentile)

/--
For every range up to a minute of nanoseconds, every precision and every
sequence of recorded values, a histogram reports exactly, with percentiles
rounded up to bucket tops.
-/
theorem percentiles_are_order_statistics
    (highest significantFigures : Int)
    (bounded : highest ≤ 60000000000)
    (values : List Int) :
    ((HdrHistogram.create 1 highest significantFigures).recordAll
      values).ReportsOn (max highest 2).toNat values := by
  have regular : (HdrShape.create 1 highest significantFigures).Regular :=
    HdrShape.regular_create significantFigures (by decide)
      (Int.le_trans bounded (by decide))
  have recorded :=
    HdrHistogram.recorded_recordAll 1 highest significantFigures values
  have tracks := recorded.tracks
  rw [← HdrShape.highest_create highest significantFigures]
  generalize HdrShape.create 1 highest significantFigures = shape at *
  have inRange :
      ∀ value ∈ trackedValues shape.highest values, value ≤ shape.highest :=
    fun _ member => le_of_mem_trackedValues member
  have reordered :
      (sortedValues shape.highest values).Perm
        (trackedValues shape.highest values) :=
    List.perm_insertionSort _ _
  have ordered : (sortedValues shape.highest values).Pairwise (· ≤ ·) :=
    List.pairwise_insertionSort _ _
  refine ⟨?_, ?_, recorded.overflowCount, recorded.negativeCount, ?_, ?_, ?_⟩
  · rw [tracks.totalCount, reordered.length_eq]
  · rw [tracks.counts, sum_bucketCounts, reordered.length_eq]
    exact fun value member => regular.countsIndexFor_lt (inRange value member)
  · exact fun nonempty => (tracks.min_max reordered ordered nonempty).1
  · exact fun nonempty => (tracks.min_max reordered ordered nonempty).2
  · intro nonempty percentile nonnegative atMost
    rw [← HdrHistogram.targetCount_exact nonnegative atMost
      (List.length_pos_iff.mpr nonempty), tracks.sameShape]
    exact tracks.valueAtPercentile regular inRange reordered ordered nonempty
      id percentile

/-- Of four tracked values the third is at the sixtieth percentile. -/
theorem sixtieth_percentile_of_four :
    (1000 : Int) ≤ 60000000000 ∧
      sortedValues 1000 [300, -1, 7, 2000000, 5] = [5, 7, 300, 1000] ∧
      ((HdrHistogram.create 1 1000 1).recordAll
        [300, -1, 7, 2000000, 5]).valueAtPercentile id 60 = 303 := by
  have reported :=
    percentiles_are_order_statistics 1000 1 (by decide)
      [300, -1, 7, 2000000, 5]
  have atSixty :=
    reported.percentiles (by decide +kernel) 60 (by norm_num) (by norm_num)
  refine ⟨by decide, by decide +kernel, ?_⟩
  refine Option.some.inj (atSixty.symm.trans ?_)
  decide +kernel

end Policyd
