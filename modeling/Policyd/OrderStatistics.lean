import Mathlib.Data.List.Sort
import Mathlib.Algebra.BigOperators.Group.List.Basic
import Mathlib.Algebra.GroupWithZero.Nat

namespace Policyd

/-!
# Order statistics from bucket counts

Only the number of items in each bucket is kept.  When the bucket of an item
grows with the item, the counts determine the bucket of every order statistic:
adding them up, the sum first reaches `rank` in the bucket of that item.
-/

/-- The first position at which the running sum of the counts reaches a target. -/
def firstReaching (target : Nat) : Nat → List Nat → Option Nat
  | _, [] => none
  | running, count :: later =>
    if target ≤ running + count then
      some 0
    else
      (firstReaching target (running + count) later).map (· + 1)

/-- The walk stops where the sum before is short and the sum behind is not. -/
theorem firstReaching_eq_some
    {target running position : Nat} {counts : List Nat}
    (inside : position < counts.length)
    (before : running + (counts.take position).sum < target)
    (reached : target ≤ running + (counts.take (position + 1)).sum) :
    firstReaching target running counts = some position := by
  induction counts generalizing running position with
  | nil => cases inside
  | cons count later inductionHypothesis =>
    cases position with
    | zero =>
      have enough : target ≤ running + count := by
        simpa using reached
      rw [firstReaching, if_pos enough]
    | succ earlier =>
      rw [List.take_succ_cons, List.sum_cons, ← Nat.add_assoc] at before
      rw [List.take_succ_cons, List.sum_cons, ← Nat.add_assoc] at reached
      have short : ¬ target ≤ running + count := by
        omega
      have found :=
        inductionHypothesis (Nat.lt_of_succ_lt_succ inside) before reached
      rw [firstReaching, if_neg short, found, Option.map_some]

section Counts

variable {Item : Type}

/-- How many items each bucket holds. -/
def bucketCounts
    (bucket : Item → Nat) (size : Nat)
    (items : List Item) : List Nat :=
  (List.range size).map fun position =>
    items.countP fun item => bucket item = position

variable (bucket : Item → Nat) (size : Nat) (items : List Item)

@[simp]
theorem length_bucketCounts :
    (bucketCounts bucket size items).length = size := by
  simp [bucketCounts]

theorem bucketCounts_nil :
    bucketCounts bucket size [] = List.replicate size 0 := by
  refine List.ext_getElem (by simp) ?_
  intro position _ _
  simp [bucketCounts]

theorem bucketCounts_concat (item : Item) :
    bucketCounts bucket size (items ++ [item]) =
      (bucketCounts bucket size items).modify (bucket item) (· + 1) := by
  refine List.ext_getElem (by simp) ?_
  intro position _ _
  by_cases same : bucket item = position
  · simp [bucketCounts, same]
  · simp [bucketCounts, same]

theorem bucketCounts_append (items others : List Item) :
    bucketCounts bucket size (items ++ others) =
      List.zipWith (· + ·) (bucketCounts bucket size items)
        (bucketCounts bucket size others) := by
  refine List.ext_getElem (by simp) ?_
  intro position _ _
  simp [bucketCounts]

theorem bucketCounts_perm
    {items others : List Item} (reordered : items.Perm others) :
    bucketCounts bucket size items = bucketCounts bucket size others := by
  refine List.map_congr_left ?_
  intro position _
  exact reordered.countP_eq _

private theorem countP_lt_succ (position : Nat) :
    items.countP (fun item => bucket item < position + 1) =
      items.countP (fun item => bucket item < position) +
        items.countP (fun item => bucket item = position) := by
  induction items with
  | nil => rfl
  | cons item later inductionHypothesis =>
    simp only [List.countP_cons, decide_eq_true_eq, inductionHypothesis]
    split_ifs <;> omega

/-- The counts before a bucket add up to the number of items below it. -/
theorem sum_take_bucketCounts {size position : Nat} (inside : position ≤ size) :
    ((bucketCounts bucket size items).take position).sum =
      items.countP fun item => bucket item < position := by
  induction position with
  | zero => simp
  | succ earlier inductionHypothesis =>
    have earlierInside : earlier < (bucketCounts bucket size items).length := by
      rwa [length_bucketCounts]
    have last :
        (bucketCounts bucket size items)[earlier] =
          items.countP fun item => bucket item = earlier := by
      simp [bucketCounts]
    rw [List.take_add_one, List.getElem?_eq_getElem earlierInside,
      List.sum_append, inductionHypothesis (Nat.le_of_succ_le inside),
      countP_lt_succ, last]
    simp

theorem sum_bucketCounts {bucket : Item → Nat} {size : Nat} {items : List Item}
    (inside : ∀ item ∈ items, bucket item < size) :
    (bucketCounts bucket size items).sum = items.length := by
  have whole := sum_take_bucketCounts bucket items (Nat.le_refl size)
  rw [List.take_of_length_le (by simp)] at whole
  rw [whole, List.countP_eq_length]
  intro item member
  exact decide_eq_true (inside item member)

end Counts

section Sorted

variable {Item : Type} [Preorder Item]

/--
In a sorted list the items with a property that goes down are an initial
segment: the item at a position has it exactly when more items than the position
have it.
-/
theorem lt_countP_iff_of_sorted {items : List Item}
    (sorted : items.Pairwise (· ≤ ·))
    {low : Item → Bool}
    (closed : ∀ first second, first ≤ second →
      low second = true → low first = true)
    {position : Nat}
    (inside : position < items.length) :
    position < items.countP low ↔ low items[position] = true := by
  induction items generalizing position with
  | nil => cases inside
  | cons item later inductionHypothesis =>
    obtain ⟨least, laterSorted⟩ := List.pairwise_cons.mp sorted
    by_cases itemLow : low item = true
    · rw [List.countP_cons_of_pos itemLow]
      cases position with
      | zero => simp [itemLow]
      | succ earlier =>
        simpa using
          inductionHypothesis laterSorted (Nat.lt_of_succ_lt_succ inside)
    · -- nothing behind a high item is low
      have noneLow : ∀ other ∈ item :: later, ¬ low other = true := by
        intro other member otherLow
        rcases List.mem_cons.mp member with same | behind
        · exact itemLow (same ▸ otherLow)
        · exact itemLow (closed item other (least other behind) otherLow)
      rw [List.countP_eq_zero.mpr noneLow]
      exact iff_of_false (Nat.not_lt_zero position)
        (noneLow _ (List.getElem_mem inside))

/--
The running sum of the counts first reaches a rank in the bucket of the item of
that rank.
-/
theorem firstReaching_bucketCounts {bucket : Item → Nat}
    (monotone : ∀ first second, first ≤ second → bucket first ≤ bucket second)
    {size : Nat} {items : List Item}
    (sorted : items.Pairwise (· ≤ ·))
    {position : Nat}
    (inside : position < items.length) (fits : bucket items[position] < size) :
    firstReaching (position + 1) 0 (bucketCounts bucket size items) =
      some (bucket items[position]) := by
  have counted (bound : Nat) :
      position < items.countP (fun item => bucket item < bound) ↔
        bucket items[position] < bound := by
    have closed :
        ∀ first second : Item, first ≤ second →
          decide (bucket second < bound) = true →
            decide (bucket first < bound) = true := by
      intro first second ordered secondLow
      simp only [decide_eq_true_eq] at secondLow ⊢
      exact Nat.lt_of_le_of_lt (monotone first second ordered) secondLow
    exact (lt_countP_iff_of_sorted sorted closed inside).trans
      decide_eq_true_iff
  refine firstReaching_eq_some (by simpa using fits) ?_ ?_
  · rw [sum_take_bucketCounts bucket items (Nat.le_of_lt fits), Nat.zero_add]
    have notBelow := mt (counted (bucket items[position])).mp (Nat.lt_irrefl _)
    omega
  · rw [sum_take_bucketCounts bucket items fits, Nat.zero_add]
    exact (counted (bucket items[position] + 1)).mpr (Nat.lt_succ_self _)

end Sorted

end Policyd
