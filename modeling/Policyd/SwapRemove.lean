import Mathlib.Data.List.Induction

namespace Policyd.SwapRemove

/-!
# Sweeps that remove by swapping

A list is swept from its last slot to its first.  A slot is rewritten, or it is
removed by moving the last item of the list into it.  An item that is moved has
been passed, so no item is missed and none is met again.
-/

section SwapRemove

variable {Item : Type}

/-- Remove a slot: the last item moves into it. -/
def swapRemove (items : List Item) (index : Nat) : List Item :=
  match items.getLast? with
  | some last => (items.set index last).dropLast
  | none => []

/-- What stands before a removed slot stays, what stands behind is moved. -/
theorem swapRemove_append
    (ahead : List Item) (item : Item) (behind : List Item) :
    ∃ moved,
      swapRemove (ahead ++ item :: behind) ahead.length = ahead ++ moved ∧
        moved.Perm behind := by
  cases behind using List.reverseRecOn with
  | nil =>
    refine ⟨[], ?_, List.Perm.nil⟩
    simp [swapRemove]
  | append_singleton inner last =>
    refine ⟨last :: inner, ?_, (List.perm_append_singleton last inner).symm⟩
    have shape :
        (ahead ++ item :: (inner ++ [last])).set ahead.length last =
          (ahead ++ last :: inner) ++ [last] := by
      simp
    have lastItem :
        (ahead ++ item :: (inner ++ [last])).getLast? = some last := by
      rw [← List.cons_append, ← List.append_assoc]
      exact List.getLast?_concat
    rw [swapRemove, lastItem]
    dsimp only
    rw [shape, List.dropLast_concat]

/--
The state of a sweep: the slots ahead of it are untouched, those behind it hold
the items that were passed.
-/
def Swept (ahead passed items : List Item) : Prop :=
  ∃ behind, items = ahead ++ behind ∧ behind.Perm passed

theorem Swept.start (ahead fresh : List Item) :
    Swept ahead fresh (ahead ++ fresh) :=
  ⟨fresh, rfl, List.Perm.refl fresh⟩

variable {ahead passed items : List Item} {item : Item}

theorem Swept.current (swept : Swept (ahead ++ [item]) passed items) :
    items[ahead.length]? = some item := by
  obtain ⟨behind, rfl, _⟩ := swept
  simp

theorem Swept.rewrite
    (swept : Swept (ahead ++ [item]) passed items) (new : Item) :
    Swept ahead (new :: passed) (items.set ahead.length new) := by
  obtain ⟨behind, rfl, same⟩ := swept
  refine ⟨new :: behind, ?_, same.cons new⟩
  simp

theorem Swept.remove (swept : Swept (ahead ++ [item]) passed items) :
    Swept ahead passed (swapRemove items ahead.length) := by
  obtain ⟨behind, rfl, same⟩ := swept
  obtain ⟨moved, removed, movedSame⟩ := swapRemove_append ahead item behind
  refine ⟨moved, ?_, movedSame.trans same⟩
  rw [List.append_assoc, List.singleton_append, removed]

theorem Swept.finish (swept : Swept [] passed items) :
    items.Perm passed := by
  obtain ⟨behind, rfl, same⟩ := swept
  exact same

theorem Swept.length_eq (swept : Swept ahead passed items) :
    items.length = ahead.length + passed.length := by
  obtain ⟨behind, rfl, same⟩ := swept
  rw [List.length_append, same.length_eq]

end SwapRemove

end Policyd.SwapRemove
