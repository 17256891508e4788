import Mathlib.Data.Nat.Log
import Mathlib.Tactic.Ring

namespace Policyd.LogLinear

/-!
# Log-linear buckets

The values from `2 ^ n` up to `2 ^ (n + 1)` are cut into `2 ^ half` buckets of
equal width, for every `n` from `unit + half` on; below that the buckets all
have width `2 ^ unit`.  The *level* of a value says how often the width has
doubled, its *slot* counts widths, and both together number the buckets.
-/

variable (unit half : Nat)

/-- How often the width has doubled at a value. -/
def level (value : Nat) : Nat :=
  Nat.log 2 (value / 2 ^ (unit + half))

/-- How many widths of its level a value holds. -/
def slot (value : Nat) : Nat :=
  value / 2 ^ (level unit half value + unit)

/-- The number of the bucket of a value. -/
def index (value : Nat) : Nat :=
  level unit half value * 2 ^ half + slot unit half value

/-- The least value of the bucket of a value. -/
def bottom (value : Nat) : Nat :=
  slot unit half value * 2 ^ (level unit half value + unit)

theorem lt_pow_level (value : Nat) :
    value < 2 ^ (unit + half + level unit half value + 1) := by
  have below : value / 2 ^ (unit + half) < 2 ^ (level unit half value + 1) :=
    Nat.lt_pow_succ_log_self (by decide) _
  rw [Nat.div_lt_iff_lt_mul (Nat.two_pow_pos _), ← Nat.pow_add] at below
  convert below using 2
  ring

variable {value other bucketLevel bucketSlot : Nat}

theorem pow_level_le (raised : level unit half value ≠ 0) :
    2 ^ (unit + half + level unit half value) ≤ value := by
  have reached : value / 2 ^ (unit + half) ≠ 0 := by
    intro zero
    exact raised (by rw [level, zero, Nat.log_zero_right])
  have below : 2 ^ level unit half value ≤ value / 2 ^ (unit + half) :=
    Nat.pow_log_le_self 2 reached
  rw [Nat.le_div_iff_mul_le (Nat.two_pow_pos _), ← Nat.pow_add] at below
  rwa [Nat.add_comm (unit + half)]

theorem le_level {bound : Nat} (reached : 2 ^ (unit + half + bound) ≤ value) :
    bound ≤ level unit half value := by
  refine Nat.le_log_of_pow_le (by decide) ?_
  rw [Nat.le_div_iff_mul_le (Nat.two_pow_pos _), ← Nat.pow_add,
    Nat.add_comm bound]
  exact reached

theorem level_mono (ordered : value ≤ other) :
    level unit half value ≤ level unit half other :=
  Nat.log_mono_right (Nat.div_le_div_right ordered)

/-- A level has at most `2 ^ (half + 1)` slots. -/
theorem slot_lt (value : Nat) :
    slot unit half value < 2 ^ (half + 1) := by
  rw [slot, Nat.div_lt_iff_lt_mul (Nat.two_pow_pos _), ← Nat.pow_add]
  convert lt_pow_level unit half value using 2
  ring

/-- The slots of a level above the lowest start at `2 ^ half`. -/
theorem pow_half_le_slot (raised : level unit half value ≠ 0) :
    2 ^ half ≤ slot unit half value := by
  rw [slot, Nat.le_div_iff_mul_le (Nat.two_pow_pos _), ← Nat.pow_add]
  convert pow_level_le unit half raised using 2
  ring

theorem index_lt_of_level_lt
    (below : level unit half value < level unit half other) :
    index unit half value < index unit half other := by
  have lastSlot := slot_lt unit half value
  have firstSlot : 2 ^ half ≤ slot unit half other :=
    pow_half_le_slot unit half (Nat.ne_zero_of_lt below)
  have nextLevel :
      (level unit half value + 1) * 2 ^ half ≤
        level unit half other * 2 ^ half :=
    Nat.mul_le_mul_right _ below
  rw [Nat.pow_succ] at lastSlot
  rw [Nat.succ_mul] at nextLevel
  unfold index
  omega

theorem index_mono (ordered : value ≤ other) :
    index unit half value ≤ index unit half other := by
  have levels := level_mono unit half ordered
  rcases Nat.eq_or_lt_of_le levels with same | below
  · rw [index, index, slot, slot, same]
    exact Nat.add_le_add_left (Nat.div_le_div_right ordered) _
  · exact Nat.le_of_lt (index_lt_of_level_lt unit half below)

/-- Values below a power of two use the buckets of the levels below it. -/
theorem index_lt {levels : Nat}
    (below : value < 2 ^ (unit + half + levels)) (nonempty : 0 < levels) :
    index unit half value < (levels + 1) * 2 ^ half := by
  have levelBelow : level unit half value < levels := by
    rcases Nat.eq_zero_or_pos (level unit half value) with zero | raised
    · rwa [zero]
    · have reached := pow_level_le unit half (Nat.ne_of_gt raised)
      have powers := Nat.lt_of_le_of_lt reached below
      rw [Nat.pow_lt_pow_iff_right (by decide)] at powers
      omega
  have lastSlot := slot_lt unit half value
  have counted :
      (level unit half value + 2) * 2 ^ half ≤ (levels + 1) * 2 ^ half :=
    Nat.mul_le_mul_right _ (by omega)
  rw [Nat.pow_succ] at lastSlot
  rw [Nat.add_mul] at counted
  unfold index
  omega

theorem bottom_le (value : Nat) :
    bottom unit half value ≤ value :=
  Nat.div_mul_le_self value _

theorem lt_bottom_add_width (value : Nat) :
    value < bottom unit half value + 2 ^ (level unit half value + unit) := by
  have positive := Nat.two_pow_pos (level unit half value + unit)
  exact Nat.lt_div_mul_add positive

/--
Above the lowest level the width of a bucket is a small share of its values;
on the lowest level it is a unit.
-/
theorem pow_half_mul_width_le (raised : level unit half value ≠ 0) :
    2 ^ half * 2 ^ (level unit half value + unit) ≤ value := by
  rw [← Nat.pow_add]
  convert pow_level_le unit half raised using 2
  ring

/-- The least value of a bucket is on the level of the bucket. -/
theorem level_bottom (value : Nat) :
    level unit half (bottom unit half value) = level unit half value := by
  refine Nat.le_antisymm (level_mono unit half (bottom_le unit half value)) ?_
  rcases Nat.eq_zero_or_pos (level unit half value) with zero | raised
  · rw [zero]
    exact Nat.zero_le _
  · refine le_level unit half ?_
    have firstSlot := pow_half_le_slot unit half (Nat.ne_of_gt raised)
    calc
      2 ^ (unit + half + level unit half value) =
          2 ^ half * 2 ^ (level unit half value + unit) := by
        rw [← Nat.pow_add]
        congr 1
        ring
      _ ≤ bottom unit half value := Nat.mul_le_mul_right _ firstSlot

theorem slot_bottom (value : Nat) :
    slot unit half (bottom unit half value) = slot unit half value := by
  rw [slot, level_bottom, bottom, Nat.mul_div_cancel _ (Nat.two_pow_pos _)]

theorem le_index {levels : Nat}
    (reached : 2 ^ (unit + half + levels) ≤ value) (nonempty : 0 < levels) :
    (levels + 1) * 2 ^ half ≤ index unit half value := by
  have levelReached := le_level unit half reached
  have firstSlot : 2 ^ half ≤ slot unit half value :=
    pow_half_le_slot unit half (by omega)
  have counted : levels * 2 ^ half ≤ level unit half value * 2 ^ half :=
    Nat.mul_le_mul_right _ levelReached
  rw [Nat.succ_mul]
  exact Nat.add_le_add counted firstSlot

/-- The numbers of a level and a slot that a bucket can have. -/
structure IsBucket (level slot : Nat) : Prop where
  slotBelow : slot < 2 ^ (half + 1)
  slotRaised : level ≠ 0 → 2 ^ half ≤ slot

theorem isBucket (value : Nat) :
    IsBucket half (level unit half value) (slot unit half value) where
  slotBelow := slot_lt unit half value
  slotRaised := pow_half_le_slot unit half

theorem IsBucket.level_eq (bucket : IsBucket half bucketLevel bucketSlot) :
    level unit half (bucketSlot * 2 ^ (bucketLevel + unit)) =
      bucketLevel := by
  refine Nat.le_antisymm ?_ ?_
  · -- a higher level would start above the value
    by_contra above
    have raised :
        level unit half (bucketSlot * 2 ^ (bucketLevel + unit)) ≠ 0 := by
      omega
    have reached := pow_level_le unit half raised
    have start :
        2 ^ (half + 1) * 2 ^ (bucketLevel + unit) ≤
          bucketSlot * 2 ^ (bucketLevel + unit) := by
      refine Nat.le_trans ?_ reached
      rw [← Nat.pow_add]
      exact Nat.pow_le_pow_right (by decide) (by omega)
    have slotReached := Nat.le_of_mul_le_mul_right start (Nat.two_pow_pos _)
    exact Nat.not_lt.mpr slotReached bucket.slotBelow
  · rcases Nat.eq_zero_or_pos bucketLevel with zero | raised
    · rw [zero]
      exact Nat.zero_le _
    · refine le_level unit half ?_
      calc
        2 ^ (unit + half + bucketLevel) =
            2 ^ half * 2 ^ (bucketLevel + unit) := by
          rw [← Nat.pow_add]
          congr 1
          ring
        _ ≤ bucketSlot * 2 ^ (bucketLevel + unit) :=
          Nat.mul_le_mul_right _ (bucket.slotRaised (Nat.ne_of_gt raised))

theorem IsBucket.index_eq (bucket : IsBucket half bucketLevel bucketSlot) :
    index unit half (bucketSlot * 2 ^ (bucketLevel + unit)) =
      bucketLevel * 2 ^ half + bucketSlot := by
  rw [index, slot, bucket.level_eq, Nat.mul_div_cancel _ (Nat.two_pow_pos _)]

theorem index_bottom (value : Nat) :
    index unit half (bottom unit half value) = index unit half value :=
  IsBucket.index_eq unit half (isBucket unit half value)

theorem IsBucket.bottom_eq (bucket : IsBucket half bucketLevel bucketSlot) :
    bottom unit half (bucketSlot * 2 ^ (bucketLevel + unit)) =
      bucketSlot * 2 ^ (bucketLevel + unit) := by
  rw [bottom, slot, bucket.level_eq, Nat.mul_div_cancel _ (Nat.two_pow_pos _)]

theorem exists_next_bucket (value : Nat) :
    ∃ nextLevel nextSlot,
      IsBucket half nextLevel nextSlot ∧
        bottom unit half value + 2 ^ (level unit half value + unit) =
          nextSlot * 2 ^ (nextLevel + unit) ∧
        nextLevel * 2 ^ half + nextSlot = index unit half value + 1 := by
  have bucket := isBucket unit half value
  have ending :
      bottom unit half value + 2 ^ (level unit half value + unit) =
        (slot unit half value + 1) * 2 ^ (level unit half value + unit) := by
    rw [bottom, Nat.succ_mul]
  by_cases inside : slot unit half value + 1 < 2 ^ (half + 1)
  · refine ⟨level unit half value, slot unit half value + 1, ⟨inside, ?_⟩,
      ending, ?_⟩
    · intro raised
      exact Nat.le_succ_of_le (bucket.slotRaised raised)
    · rw [index, Nat.add_assoc]
  · -- the slots of the level are used up, so the next level starts
    have last : slot unit half value + 1 = 2 ^ half * 2 := by
      have below := bucket.slotBelow
      rw [Nat.pow_succ] at below inside
      omega
    refine ⟨level unit half value + 1, 2 ^ half, ⟨?_, ?_⟩, ?_, ?_⟩
    · exact Nat.pow_lt_pow_right (by decide) (Nat.lt_succ_self half)
    · intro _
      exact Nat.le_refl _
    · rw [ending, last]
      ring
    · rw [index, Nat.succ_mul]
      omega

theorem index_bottom_add_width (value : Nat) :
    index unit half
        (bottom unit half value + 2 ^ (level unit half value + unit)) =
      index unit half value + 1 := by
  obtain ⟨nextLevel, nextSlot, next, ending, number⟩ :=
    exists_next_bucket unit half value
  rw [ending, next.index_eq, number]

/-- Two values have one bucket when its least value is the same. -/
theorem index_eq_iff_bottom_eq :
    index unit half value = index unit half other ↔
      bottom unit half value = bottom unit half other := by
  constructor
  · intro same
    have levels : level unit half value = level unit half other := by
      refine Nat.le_antisymm ?_ ?_
      · by_contra below
        have := index_lt_of_level_lt unit half (Nat.not_le.mp below)
        omega
      · by_contra below
        have := index_lt_of_level_lt unit half (Nat.not_le.mp below)
        omega
    have slots : slot unit half value = slot unit half other := by
      rw [index, index, levels] at same
      omega
    rw [bottom, bottom, levels, slots]
  · intro same
    rw [← index_bottom unit half value, same, index_bottom]

/-- The values with larger numbers are those from the end of a bucket on. -/
theorem index_le_iff_lt_bottom_add_width :
    index unit half other ≤ index unit half value ↔
      other <
        bottom unit half value + 2 ^ (level unit half value + unit) := by
  obtain ⟨nextLevel, nextSlot, next, ending, _⟩ :=
    exists_next_bucket unit half value
  have number := index_bottom_add_width unit half value
  constructor
  · intro counted
    by_contra behind
    have := index_mono unit half (Nat.not_lt.mp behind)
    omega
  · intro before
    by_contra counted
    -- a smaller value with the next number would have the next bottom
    have same :
        index unit half other =
          index unit half
            (bottom unit half value + 2 ^ (level unit half value + unit)) := by
      have := index_mono unit half (Nat.le_of_lt before)
      omega
    rw [index_eq_iff_bottom_eq, ending, next.bottom_eq, ← ending] at same
    have := bottom_le unit half other
    omega

end Policyd.LogLinear
