import Policyd.LogLinear
import Policyd.OrderStatistics
import Mathlib.Data.Rat.Floor

namespace Policyd

/-!
# The latency histogram

The constructor derives the shape of the buckets from the range and the number
of significant figures; recording is one bit count, one shift and one
increment; percentiles are read off the counts.  The magnitudes, which the
source computes in floating point, are exact integer logarithms here, and
counters are natural numbers.
-/

/-- The largest value of a signed 64-bit integer. -/
def kInt64Max : Nat :=
  2 ^ 63 - 1

/-- What the constructor fixes: the range and the shape of the buckets. -/
structure HdrShape where
  highest : Nat
  unitMagnitude : Nat
  subBucketHalfCountMagnitude : Nat
  subBucketCount : Nat
  subBucketHalfCount : Nat
  subBucketMask : Nat
  bucketCount : Nat
  deriving DecidableEq, Repr

namespace HdrShape

/--
Add buckets, doubling the first value that does not fit, until the highest value
fits or the next doubling would overflow.  Each round doubles a positive 64-bit
value, so `64` rounds are enough.
-/
def countBuckets (highest : Nat) : Nat → Nat → Nat → Nat
  | 0, _, buckets => buckets
  | rounds + 1, smallestUntrackable, buckets =>
    if smallestUntrackable ≤ highest then
      if kInt64Max / 2 < smallestUntrackable then
        buckets
      else
        countBuckets highest rounds (smallestUntrackable <<< 1) (buckets + 1)
    else
      buckets

/-- The shape for a range and a number of significant figures, both clamped. -/
def create (lowest highest significantFigures : Int) : HdrShape :=
  let lowest := if lowest < 1 then 1 else lowest
  let significantFigures :=
    if significantFigures < 1 then 1 else significantFigures
  let significantFigures :=
    if significantFigures > 5 then 5 else significantFigures
  let highest := if highest < lowest * 2 then lowest * 2 else highest
  let unitMagnitude := Nat.log 2 lowest.toNat
  let largestSingleBucket := 2 * 10 ^ significantFigures.toNat
  let subBucketCountMagnitude := Nat.clog 2 largestSingleBucket
  let subBucketCount := 1 <<< subBucketCountMagnitude
  { highest := highest.toNat
    unitMagnitude := unitMagnitude
    subBucketHalfCountMagnitude := subBucketCountMagnitude - 1
    subBucketCount := subBucketCount
    subBucketHalfCount := subBucketCount / 2
    subBucketMask := (subBucketCount - 1) <<< unitMagnitude
    bucketCount :=
      countBuckets highest.toNat 64 (subBucketCount <<< unitMagnitude) 1 }

variable (shape : HdrShape)

/--
The bucket of a value.  For a nonzero word `64 - clz` is one more than its
binary logarithm.
-/
def bucketIndex (value : Nat) : Nat :=
  let pow2ceiling := Nat.log2 (value ||| shape.subBucketMask) + 1
  pow2ceiling - shape.unitMagnitude - (shape.subBucketHalfCountMagnitude + 1)

/-- The sub-bucket of a value in its bucket. -/
def subBucketIndex (value bucket : Nat) : Nat :=
  value >>> (bucket + shape.unitMagnitude)

/-- Where a value is counted. -/
def countsIndexFor (value : Nat) : Nat :=
  let b := shape.bucketIndex value
  let s := shape.subBucketIndex value b
  let bucketBase := (b + 1) <<< shape.subBucketHalfCountMagnitude
  -- the base is added first: in the lowest bucket `s` can be below the half
  bucketBase + s - shape.subBucketHalfCount

/-- The least value counted at an index. -/
def valueFromIndex (index : Nat) : Nat :=
  let bucket : Int := ((index >>> shape.subBucketHalfCountMagnitude : Nat) : Int) - 1
  let sub := (index &&& (shape.subBucketHalfCount - 1)) + shape.subBucketHalfCount
  if bucket < 0 then
    (sub - shape.subBucketHalfCount) <<< (0 + shape.unitMagnitude)
  else
    sub <<< (bucket.toNat + shape.unitMagnitude)

/-- The least value that cannot be told apart from a value. -/
def lowestEquivalentValue (value : Nat) : Nat :=
  let b := shape.bucketIndex value
  let s := shape.subBucketIndex value b
  s <<< (b + shape.unitMagnitude)

/-- How many values cannot be told apart from a value. -/
def sizeOfEquivalentValueRange (value : Nat) : Nat :=
  let b := shape.bucketIndex value
  let s := shape.subBucketIndex value b
  let adjusted := if s ≥ shape.subBucketCount then b + 1 else b
  1 <<< (shape.unitMagnitude + adjusted)

/-- The least larger value that can be told apart from a value. -/
def nextNonEquivalentValue (value : Nat) : Nat :=
  shape.lowestEquivalentValue value + shape.sizeOfEquivalentValueRange value

/-- The largest value that cannot be told apart from a value. -/
def highestEquivalentValue (value : Nat) : Nat :=
  shape.nextNonEquivalentValue value - 1

end HdrShape

/-- A histogram: its shape, a count for each sub-bucket and the running totals. -/
structure HdrHistogram where
  shape : HdrShape
  counts : List Nat
  totalCount : Nat := 0
  overflowCount : Nat := 0
  negativeCount : Nat := 0
  min_ : Nat := 0
  max_ : Nat := 0
  deriving DecidableEq, Repr

namespace HdrHistogram

/-- An empty histogram. -/
def create (lowest highest significantFigures : Int) : HdrHistogram :=
  let shape := HdrShape.create lowest highest significantFigures
  { shape := shape
    counts :=
      List.replicate ((shape.bucketCount + 1) * shape.subBucketHalfCount) 0 }

/-- Count one value that lies in the range. -/
def recordTracked (histogram : HdrHistogram) (value : Nat) : HdrHistogram :=
  let totalCount := histogram.totalCount + 1
  { histogram with
    counts :=
      histogram.counts.modify (histogram.shape.countsIndexFor value) (· + 1)
    totalCount := totalCount
    max_ :=
      if value > histogram.max_ ∨ totalCount = 1 then value else histogram.max_
    min_ :=
      if value < histogram.min_ ∨ totalCount = 1 then value else histogram.min_ }

/-- Record one value. -/
def record (histogram : HdrHistogram) (value : Int) : HdrHistogram :=
  if value < 0 then
    { histogram with negativeCount := histogram.negativeCount + 1 }
  else if value > histogram.shape.highest then
    -- clamped into the top bucket rather than dropped
    recordTracked
      { histogram with overflowCount := histogram.overflowCount + 1 }
      histogram.shape.highest
  else
    recordTracked histogram value.toNat

/-- Record values in turn. -/
def recordAll (histogram : HdrHistogram) (values : List Int) : HdrHistogram :=
  values.foldl record histogram

/-- Count one value of the range several times. -/
def recordTrackedN (histogram : HdrHistogram) (value count : Nat) :
    HdrHistogram :=
  let totalCount := histogram.totalCount + count
  { histogram with
    counts :=
      histogram.counts.modify (histogram.shape.countsIndexFor value)
        (· + count)
    totalCount := totalCount
    max_ :=
      if value > histogram.max_ ∨ totalCount = count then
        value
      else
        histogram.max_
    min_ :=
      if value < histogram.min_ ∨ totalCount = count then
        value
      else
        histogram.min_ }

/-- Record one value that stands for several occurrences. -/
def recordN (histogram : HdrHistogram) (value count : Int) : HdrHistogram :=
  if count ≤ 0 then
    histogram
  else if value < 0 then
    { histogram with
      negativeCount := histogram.negativeCount + count.toNat }
  else if value > histogram.shape.highest then
    recordTrackedN
      { histogram with
        overflowCount := histogram.overflowCount + count.toNat }
      histogram.shape.highest count.toNat
  else
    recordTrackedN histogram value.toNat count.toNat

/-- Forget everything recorded. -/
def reset (histogram : HdrHistogram) : HdrHistogram :=
  { shape := histogram.shape
    counts := histogram.counts.map fun _ => 0 }

/--
Merge another histogram into this one.  Histograms of another shape are refused;
the flag says whether the merge took place.
-/
def add (histogram other : HdrHistogram) : HdrHistogram × Bool :=
  if histogram.counts.length ≠ other.counts.length ∨
      histogram.shape.unitMagnitude ≠ other.shape.unitMagnitude ∨
      histogram.shape.subBucketCount ≠ other.shape.subBucketCount then
    (histogram, false)
  else
    ({ histogram with
        counts := List.zipWith (· + ·) histogram.counts other.counts
        min_ :=
          if other.totalCount = 0 then
            histogram.min_
          else if histogram.totalCount = 0 then
            other.min_
          else
            Nat.min histogram.min_ other.min_
        max_ :=
          if other.totalCount = 0 then
            histogram.max_
          else if histogram.totalCount = 0 then
            other.max_
          else
            Nat.max histogram.max_ other.max_
        totalCount := histogram.totalCount + other.totalCount
        overflowCount := histogram.overflowCount + other.overflowCount
        negativeCount := histogram.negativeCount + other.negativeCount },
      true)

/-- Merge histograms into one, in turn. -/
def addAll (histogram : HdrHistogram) (others : List HdrHistogram) :
    HdrHistogram :=
  others.foldl (fun merged other => (merged.add other).1) histogram

/-- The histogram of service times of one worker. -/
def serviceNs : HdrHistogram :=
  create 1 10000000 3

/-- The service times of all workers, as a metrics snapshot merges them. -/
def snapshotServiceNs (workers : List HdrHistogram) : HdrHistogram :=
  serviceNs.addAll workers

/-- The least value recorded, `0` when there is none. -/
def min (histogram : HdrHistogram) : Nat :=
  if histogram.totalCount ≠ 0 then histogram.min_ else 0

/-- The largest value recorded, `0` when there is none. -/
def max (histogram : HdrHistogram) : Nat :=
  if histogram.totalCount ≠ 0 then histogram.max_ else 0

/-- `std::clamp`. -/
def clamp {Number : Type} [LT Number] [DecidableLT Number]
    (value low high : Number) : Number :=
  if value < low then low else if high < value then high else value

/--
How many values a percentile has to cover.  Every arithmetic operation on a
percentile is followed by `round`: the rounding of the floating-point format, or
the identity when ranks are taken exactly.
-/
def targetCount
    (round : Rat → Rat) (percentile : Rat)
    (totalCount : Nat) : Nat :=
  let percentile := clamp percentile 0 100
  let target := Rat.ceil (round (round (percentile / 100) * round totalCount))
  (clamp target 1 totalCount).toNat

/-- The value at a percentile. -/
def valueAtPercentile
    (round : Rat → Rat) (histogram : HdrHistogram)
    (percentile : Rat) : Nat :=
  if histogram.totalCount = 0 then
    0
  else
    let target := targetCount round percentile histogram.totalCount
    match firstReaching target 0 histogram.counts with
    | some index =>
      histogram.shape.highestEquivalentValue
        (histogram.shape.valueFromIndex index)
    | none => histogram.max_

end HdrHistogram

end Policyd
