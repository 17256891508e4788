import Policyd.HdrPercentiles

namespace Policyd.HdrHistogram

/-!
# Merging histograms

The state of a histogram is determined by the values recorded in it, up to their
order.  Merging puts the recorded values together, so a merged histogram is the
one that recorded everything itself, in whatever order and grouping the parts
were merged.
-/

/--
A histogram holds what it recorded, and its extremes are still zero when it
tracked nothing.
-/
structure Determined
    (shape : HdrShape)
    (histogram : HdrHistogram)
    (values : List Int) : Prop extends Recorded shape histogram values where
  untouched :
    trackedValues shape.highest values = [] →
      histogram.min_ = 0 ∧ histogram.max_ = 0

variable {shape : HdrShape}
variable {histogram other : HdrHistogram}
variable {values others : List Int}

theorem trackedValues_append (highest : Nat) (values others : List Int) :
    trackedValues highest (values ++ others) =
      trackedValues highest values ++ trackedValues highest others := by
  simp [trackedValues]

theorem trackedValues_perm (highest : Nat) (reordered : values.Perm others) :
    (trackedValues highest values).Perm (trackedValues highest others) :=
  (reordered.filter _).map _

variable {tracked otherTracked : List Nat}

/-- The extremes of a histogram are determined by the values it holds. -/
theorem Tracks.extremes_unique (tracks : Tracks shape histogram tracked)
    (otherTracks : Tracks shape other otherTracked)
    (reordered : tracked.Perm otherTracked) (nonempty : tracked ≠ []) :
    histogram.min_ = other.min_ ∧ histogram.max_ = other.max_ := by
  have otherNonempty : otherTracked ≠ [] := by
    intro empty
    exact nonempty (List.Perm.eq_nil (empty ▸ reordered))
  obtain ⟨minHeld, maxHeld⟩ := tracks.attained nonempty
  obtain ⟨otherMinHeld, otherMaxHeld⟩ := otherTracks.attained otherNonempty
  have here := tracks.between
  have there := otherTracks.between
  constructor
  · exact Nat.le_antisymm
      (here _ (reordered.mem_iff.mpr otherMinHeld)).1
      (there _ (reordered.mem_iff.mp minHeld)).1
  · exact Nat.le_antisymm
      (there _ (reordered.mem_iff.mp maxHeld)).2
      (here _ (reordered.mem_iff.mpr otherMaxHeld)).2

/-- Histograms of one shape that recorded the same values are the same. -/
theorem Determined.unique (determined : Determined shape histogram values)
    (otherDetermined : Determined shape other others)
    (reordered : values.Perm others) :
    histogram = other := by
  have tracked := trackedValues_perm shape.highest reordered
  have extremes :
      histogram.min_ = other.min_ ∧ histogram.max_ = other.max_ := by
    by_cases empty : trackedValues shape.highest values = []
    · have otherEmpty : trackedValues shape.highest others = [] :=
        List.Perm.eq_nil (empty ▸ tracked.symm)
      obtain ⟨least, greatest⟩ := determined.untouched empty
      obtain ⟨otherLeast, otherGreatest⟩ := otherDetermined.untouched otherEmpty
      exact ⟨least.trans otherLeast.symm, greatest.trans otherGreatest.symm⟩
    · exact determined.tracks.extremes_unique otherDetermined.tracks
        tracked empty
  have sameShape :=
    determined.tracks.sameShape.trans otherDetermined.tracks.sameShape.symm
  have counts : histogram.counts = other.counts := by
    rw [determined.tracks.counts, otherDetermined.tracks.counts,
      bucketCounts_perm _ _ tracked]
  have total : histogram.totalCount = other.totalCount := by
    rw [determined.tracks.totalCount, otherDetermined.tracks.totalCount,
      tracked.length_eq]
  have overflow : histogram.overflowCount = other.overflowCount := by
    rw [determined.overflowCount, otherDetermined.overflowCount,
      reordered.countP_eq]
  have negative : histogram.negativeCount = other.negativeCount := by
    rw [determined.negativeCount, otherDetermined.negativeCount,
      reordered.countP_eq]
  cases histogram
  cases other
  simp only [mk.injEq]
  exact ⟨sameShape, counts, total, overflow, negative, extremes.1, extremes.2⟩

theorem determined_create (lowest highest significantFigures : Int) :
    Determined (HdrShape.create lowest highest significantFigures)
      (create lowest highest significantFigures) [] where
  tracks := tracks_create lowest highest significantFigures
  overflowCount := rfl
  negativeCount := rfl
  untouched := fun _ => ⟨rfl, rfl⟩

theorem record_extremes_of_neg
    (histogram : HdrHistogram) {value : Int} (negative : value < 0) :
    (histogram.record value).min_ = histogram.min_ ∧
      (histogram.record value).max_ = histogram.max_ := by
  rw [record, if_pos negative]
  exact ⟨rfl, rfl⟩

theorem Determined.record
    (determined : Determined shape histogram values) (value : Int) :
    Determined shape (histogram.record value) (values ++ [value]) where
  toRecorded := determined.toRecorded.record value
  untouched := by
    rw [trackedValues_append]
    intro empty
    obtain ⟨earlier, last⟩ := List.append_eq_nil_iff.mp empty
    have negative : value < 0 := by
      by_contra nonnegative
      simp [trackedValues, Int.not_lt.mp nonnegative] at last
    obtain ⟨least, greatest⟩ := record_extremes_of_neg histogram negative
    rw [least, greatest]
    exact determined.untouched earlier

theorem Determined.recordAll
    (determined : Determined shape histogram values) (later : List Int) :
    Determined shape (histogram.recordAll later) (values ++ later) := by
  induction later generalizing histogram values with
  | nil =>
    rwa [List.append_nil]
  | cons value rest inductionHypothesis =>
    have extended := inductionHypothesis (determined.record value)
    rwa [List.append_assoc] at extended

theorem Tracks.add_accepts (tracks : Tracks shape histogram tracked)
    (otherTracks : Tracks shape other otherTracked) :
    ¬ (histogram.counts.length ≠ other.counts.length ∨
      histogram.shape.unitMagnitude ≠ other.shape.unitMagnitude ∨
      histogram.shape.subBucketCount ≠ other.shape.subBucketCount) := by
  simp [tracks.counts, otherTracks.counts, tracks.sameShape,
    otherTracks.sameShape]

/-- A merged histogram holds the values of both parts. -/
theorem Tracks.add (tracks : Tracks shape histogram tracked)
    (otherTracks : Tracks shape other otherTracked) :
    Tracks shape (histogram.add other).1 (tracked ++ otherTracked) := by
  have accepted := tracks.add_accepts otherTracks
  rw [HdrHistogram.add, if_neg accepted]
  have counts :
      List.zipWith (· + ·) histogram.counts other.counts =
        bucketCounts shape.countsIndexFor
          ((shape.bucketCount + 1) * shape.subBucketHalfCount)
          (tracked ++ otherTracked) := by
    rw [bucketCounts_append, tracks.counts, otherTracks.counts]
  have total :
      histogram.totalCount + other.totalCount =
        (tracked ++ otherTracked).length := by
    rw [List.length_append, tracks.totalCount, otherTracks.totalCount]
  have spans :
      Spans
        (if other.totalCount = 0 then
            histogram.min_
          else if histogram.totalCount = 0 then
            other.min_
          else
            Nat.min histogram.min_ other.min_)
        (if other.totalCount = 0 then
            histogram.max_
          else if histogram.totalCount = 0 then
            other.max_
          else
            Nat.max histogram.max_ other.max_)
        (tracked ++ otherTracked) := by
    by_cases otherEmpty : otherTracked = []
    · have otherZero := otherTracks.totalCount_eq_zero_iff.mpr otherEmpty
      rw [if_pos otherZero, if_pos otherZero, otherEmpty, List.append_nil]
      exact tracks.spans
    · have otherCounted := mt otherTracks.totalCount_eq_zero_iff.mp otherEmpty
      rw [if_neg otherCounted, if_neg otherCounted]
      by_cases empty : tracked = []
      · have zero := tracks.totalCount_eq_zero_iff.mpr empty
        rw [if_pos zero, if_pos zero, empty, List.nil_append]
        exact otherTracks.spans
      · have counted := mt tracks.totalCount_eq_zero_iff.mp empty
        rw [if_neg counted, if_neg counted]
        exact tracks.spans.append otherTracks.spans empty otherEmpty
  exact ⟨tracks.sameShape, counts, total, spans.between, spans.attained⟩

/-- A merged histogram is determined by the values of both parts. -/
theorem Determined.add (determined : Determined shape histogram values)
    (otherDetermined : Determined shape other others) :
    (histogram.add other).2 = true ∧
      Determined shape (histogram.add other).1 (values ++ others) := by
  have accepted := determined.tracks.add_accepts otherDetermined.tracks
  have tracks := determined.tracks.add otherDetermined.tracks
  rw [← trackedValues_append] at tracks
  rw [HdrHistogram.add, if_neg accepted] at tracks ⊢
  refine ⟨rfl, ⟨tracks, ?_, ?_⟩, ?_⟩
  · rw [List.countP_append, ← determined.overflowCount,
      ← otherDetermined.overflowCount]
  · rw [List.countP_append, ← determined.negativeCount,
      ← otherDetermined.negativeCount]
  · rw [trackedValues_append]
    intro empty
    obtain ⟨here, there⟩ := List.append_eq_nil_iff.mp empty
    have otherZero := otherDetermined.tracks.totalCount_eq_zero_iff.mpr there
    simp only [otherZero, if_true]
    exact determined.untouched here

theorem Determined.addAll (determined : Determined shape histogram values)
    {parts : List HdrHistogram} {runs : List (List Int)}
    (recorded : List.Forall₂ (Determined shape) parts runs) :
    Determined shape (histogram.addAll parts) (values ++ runs.flatten) := by
  induction recorded generalizing histogram values with
  | nil =>
    rwa [List.flatten_nil, List.append_nil]
  | cons part _ inductionHypothesis =>
    have merged := inductionHypothesis (determined.add part).2
    rwa [List.append_assoc] at merged

@[simp]
theorem recordTrackedN_shape (histogram : HdrHistogram) (value count : Nat) :
    (histogram.recordTrackedN value count).shape = histogram.shape :=
  rfl

/-- A value that was counted does not move the extremes again. -/
theorem recordTracked_recordTrackedN (histogram : HdrHistogram) (value : Nat)
    {count : Nat}
    (positive : 0 < count) :
    (histogram.recordTrackedN value count).recordTracked value =
      histogram.recordTrackedN value (count + 1) := by
  simp only [recordTracked, recordTrackedN, List.modify_modify_eq, mk.injEq,
    true_and]
  refine ⟨rfl, Nat.add_assoc _ _ _, ?_, ?_⟩
  · by_cases empty : histogram.totalCount = 0
    · simp [empty]
    · split_ifs <;> omega
  · by_cases empty : histogram.totalCount = 0
    · simp [empty]
    · split_ifs <;> omega

/-- Recording a value once more after several times. -/
theorem recordN_succ (histogram : HdrHistogram) (value : Int) (count : Nat) :
    histogram.recordN value (count + 1 : Nat) =
      (histogram.recordN value count).record value := by
  have counted : ¬ ((count + 1 : Nat) : Int) ≤ 0 := by
    omega
  rcases Nat.eq_zero_or_pos count with rfl | positive
  · have nothing : histogram.recordN value (0 : Nat) = histogram := rfl
    rw [nothing, recordN, if_neg counted]
    rfl
  · have earlier : ¬ (count : Int) ≤ 0 := by
      omega
    rw [recordN, recordN, if_neg counted, if_neg earlier, Int.toNat_natCast,
      Int.toNat_natCast]
    by_cases negative : value < 0
    · simp only [record, if_pos negative]
      rfl
    · simp only [if_neg negative]
      by_cases above : value > histogram.shape.highest
      · simp only [record, recordTrackedN_shape, if_neg negative, if_pos above]
        exact (recordTracked_recordTrackedN
          { histogram with
            overflowCount := histogram.overflowCount + (count + 1) }
          histogram.shape.highest positive).symm
      · simp only [record, recordTrackedN_shape, if_neg negative, if_neg above]
        exact (recordTracked_recordTrackedN histogram value.toNat positive).symm

theorem recordN_eq_recordAll
    (histogram : HdrHistogram) (value : Int) (count : Nat) :
    histogram.recordN value count =
      histogram.recordAll (List.replicate count value) := by
  induction count with
  | zero => rfl
  | succ count inductionHypothesis =>
    rw [recordN_succ, inductionHypothesis, List.replicate_succ', recordAll,
      recordAll, List.foldl_append]
    rfl

/-- The histogram of some values. -/
def ofValues (lowest highest significantFigures : Int) (values : List Int) :
    HdrHistogram :=
  (create lowest highest significantFigures).recordAll values

theorem ofValues_nil (lowest highest significantFigures : Int) :
    ofValues lowest highest significantFigures [] =
      create lowest highest significantFigures :=
  rfl

theorem determined_ofValues
    (lowest highest significantFigures : Int) (values : List Int) :
    Determined (HdrShape.create lowest highest significantFigures)
      (ofValues lowest highest significantFigures values) values :=
  (determined_create lowest highest significantFigures).recordAll values

theorem reset_ofValues
    (lowest highest significantFigures : Int) (values : List Int) :
    (ofValues lowest highest significantFigures values).reset =
      create lowest highest significantFigures := by
  have tracks :=
    (determined_ofValues lowest highest significantFigures values).tracks
  rw [reset, tracks.sameShape, tracks.counts]
  simp [create]

/--
Merging histograms with the same parameters gives the histogram that recorded
all values itself, in either order and for any number of parts in any order; and
recording a value with a count is recording it that often, in any state.
-/
theorem merging_is_recording_everything
    (lowest highest significantFigures : Int) :
    (∀ xs ys : List Int,
      (ofValues lowest highest significantFigures xs).add
            (ofValues lowest highest significantFigures ys) =
          (ofValues lowest highest significantFigures (xs ++ ys), true) ∧
        (ofValues lowest highest significantFigures ys).add
            (ofValues lowest highest significantFigures xs) =
          (ofValues lowest highest significantFigures (xs ++ ys), true)) ∧
    (∀ (start : List Int) (runs order : List (List Int)), order.Perm runs →
      (ofValues lowest highest significantFigures start).addAll
          (order.map (ofValues lowest highest significantFigures)) =
        ofValues lowest highest significantFigures
          (start ++ runs.flatten)) ∧
    ∀ (histogram : HdrHistogram) (value : Int) (count : Nat),
      histogram.recordN value count =
        histogram.recordAll (List.replicate count value) := by
  have build := determined_ofValues lowest highest significantFigures
  have merge (xs ys whole : List Int) (same : (xs ++ ys).Perm whole) :
      (ofValues lowest highest significantFigures xs).add
          (ofValues lowest highest significantFigures ys) =
        (ofValues lowest highest significantFigures whole, true) := by
    obtain ⟨accepted, merged⟩ := (build xs).add (build ys)
    exact Prod.ext (merged.unique (build whole) same) accepted
  refine ⟨?_, ?_, recordN_eq_recordAll⟩
  · intro xs ys
    exact ⟨merge xs ys _ (.refl _), merge ys xs _ List.perm_append_comm⟩
  · intro start runs order reordered
    have recorded :
        List.Forall₂
          (Determined (HdrShape.create lowest highest significantFigures))
          (order.map (ofValues lowest highest significantFigures)) order := by
      rw [List.forall₂_map_left_iff, List.forall₂_same]
      exact fun run _ => build run
    refine ((build start).addAll recorded).unique (build _) ?_
    exact reordered.flatten.append_left start

/-- A snapshot over three workers, one idle and one with only bad samples. -/
theorem merging_is_recording_everything_three_workers :
    [[-5], [], [700, 20000000]].Perm [[700, 20000000], [], [-5]] ∧
      snapshotServiceNs
          ([[-5], [], [700, 20000000]].map (ofValues 1 10000000 3)) =
        ofValues 1 10000000 3 [700, 20000000, -5] := by
  have reordered :
      [[-5], [], [700, 20000000]].Perm
        [[700, 20000000], [], ([-5] : List Int)] :=
    List.reverse_perm [[700, 20000000], [], [-5]]
  have together :
      [] ++ [[700, 20000000], [], ([-5] : List Int)].flatten =
        [700, 20000000, -5] := rfl
  have merged :=
    (merging_is_recording_everything 1 10000000 3).2.1 [] _ _ reordered
  rw [ofValues_nil, together] at merged
  exact ⟨reordered, merged⟩

end Policyd.HdrHistogram
