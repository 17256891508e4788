import Mathlib.Algebra.Order.Group.Multiset
import Mathlib.Data.Multiset.Filter

namespace Policyd.HeldSlots

/-!
# Slots that hold items

A table of slots, each of which may hold an item.  Writing one slot changes the
items held by what that slot held before and holds afterwards; everything else
stays.  Slots and items are arbitrary.
-/

section HeldSlots

variable {Slot Item : Type} (held : Slot → Option Item)

/-- The items held by the slots. -/
def items (slots : List Slot) : Multiset Item :=
  (slots.filterMap held : List Item)

variable {held}

theorem items_cons (slot : Slot) (later : List Slot) :
    items held (slot :: later) = (held slot).toList + items held later := by
  rw [items, List.filterMap_cons]
  cases held slot <;> rfl

theorem items_perm {slots others : List Slot} (moved : slots.Perm others) :
    items held slots = items held others :=
  Multiset.coe_eq_coe.mpr (moved.filterMap held)

theorem items_middle (earlier later : List Slot) (slot : Slot) :
    items held (earlier ++ [slot] ++ later) =
      (held slot).toList + items held (earlier ++ later) := by
  rw [List.append_assoc, ← items_cons]
  exact items_perm List.perm_middle

/-- Slots that hold the same hold the same items. -/
theorem items_congr {others : Slot → Option Item} {slots : List Slot}
    (same : ∀ slot ∈ slots, held slot = others slot) :
    items held slots = items others slots := by
  rw [items, List.filterMap_congr same]
  rfl

theorem card_items (slots : List Slot) :
    (items held slots).card = slots.countP fun slot => (held slot).isSome := by
  rw [items, Multiset.coe_card, List.length_filterMap_eq_countP]

variable {slots : List Slot} {index : Nat} {old new : Slot}

section

variable (stored : slots[index]? = some old)

include stored

/-- The old item of a written slot is exchanged for the new one. -/
theorem items_set (new : Slot) :
    (held old).toList + items held (slots.set index new) =
      (held new).toList + items held slots := by
  induction slots generalizing index with
  | nil => cases stored
  | cons slot later inductionHypothesis =>
    cases index with
    | zero =>
      obtain rfl : slot = old := Option.some.inj stored
      rw [List.set_cons_zero, items_cons, items_cons]
      exact add_left_comm _ _ _
    | succ index =>
      rw [List.set_cons_succ, items_cons, items_cons, add_left_comm,
        inductionHypothesis stored, add_left_comm]

theorem items_vacate
    {item : Item} (holds : held old = some item) (empty : held new = none) :
    items held slots = {item} + items held (slots.set index new) := by
  have exchanged :
      (held old).toList + items held (slots.set index new) =
        (held new).toList + items held slots :=
    items_set stored new
  rw [holds, empty] at exchanged
  exact (exchanged.trans (zero_add _)).symm

theorem items_occupy
    {item : Item} (empty : held old = none) (holds : held new = some item) :
    items held (slots.set index new) = {item} + items held slots := by
  have exchanged :
      (held old).toList + items held (slots.set index new) =
        (held new).toList + items held slots :=
    items_set stored new
  rw [holds, empty] at exchanged
  exact (zero_add _).symm.trans exchanged

theorem items_keep (kept : held new = held old) :
    items held (slots.set index new) = items held slots := by
  have exchanged :
      (held old).toList + items held (slots.set index new) =
        (held new).toList + items held slots :=
    items_set stored new
  rw [kept] at exchanged
  exact add_left_cancel exchanged

end

end HeldSlots

end Policyd.HeldSlots
