import Mathlib.Data.List.Basic

namespace Policyd.BlockHash

/-!
# Hashing block by block

A hash is computed by folding a compression function over blocks of one size.
Absorbing bytes one at a time says what every way of buffering has to compute,
and on whole blocks it is the fold over the blocks.  Bytes, chaining values and
the compression function are arbitrary.
-/

section Absorbing

variable {Byte Chain : Type}

/-- A chaining value and the bytes of an incomplete block. -/
structure Absorbed (Byte Chain : Type) where
  chain : Chain
  pending : List Byte

/-- Cut a text into blocks. -/
def blocks (size : Nat) : Nat → List Byte → List (List Byte)
  | 0, _ => []
  | count + 1, bytes =>
    bytes.take size :: blocks size count (bytes.drop size)

variable {bytes : List Byte} {state : Absorbed Byte Chain}

/-- Cutting whole blocks leaves none of another size. -/
theorem length_of_mem_blocks {size count : Nat} {block : List Byte}
    (whole : bytes.length = size * count)
    (cut : block ∈ blocks size count bytes) :
    block.length = size := by
  induction count generalizing bytes with
  | zero => cases cut
  | succ count inductionHypothesis =>
    rw [Nat.mul_succ] at whole
    rcases List.mem_cons.mp cut with rfl | later
    · rw [List.length_take]
      omega
    · refine inductionHypothesis ?_ later
      rw [List.length_drop]
      omega

variable (size : Nat) (compress : Chain → List Byte → Chain)

/-- Absorb one byte. -/
def push (state : Absorbed Byte Chain) (byte : Byte) : Absorbed Byte Chain :=
  if state.pending.length + 1 = size then
    ⟨compress state.chain (state.pending ++ [byte]), []⟩
  else
    ⟨state.chain, state.pending ++ [byte]⟩

/-- Absorb bytes one at a time. -/
def absorb (state : Absorbed Byte Chain) (bytes : List Byte) :
    Absorbed Byte Chain :=
  bytes.foldl (push size compress) state

variable {size compress}

theorem absorb_append (state : Absorbed Byte Chain) (first rest : List Byte) :
    absorb size compress state (first ++ rest) =
      absorb size compress (absorb size compress state first) rest :=
  List.foldl_append

/-- Bytes that do not complete a block are kept. -/
theorem absorb_of_lt (room : state.pending.length + bytes.length < size) :
    absorb size compress state bytes =
      ⟨state.chain, state.pending ++ bytes⟩ := by
  induction bytes generalizing state with
  | nil =>
    rw [List.append_nil]
    rfl
  | cons byte later inductionHypothesis =>
    rw [List.length_cons] at room
    have kept :
        push size compress state byte =
          ⟨state.chain, state.pending ++ [byte]⟩ :=
      if_neg (by omega)
    have laterRoom :
        (state.pending ++ [byte]).length + later.length < size := by
      rw [List.length_append, List.length_singleton]
      omega
    rw [absorb, List.foldl_cons, kept]
    refine (inductionHypothesis laterRoom).trans ?_
    rw [List.append_assoc, List.singleton_append]

/-- Bytes that complete a block are compressed with those kept before. -/
theorem absorb_of_eq (full : state.pending.length + bytes.length = size)
    (nonempty : bytes ≠ []) :
    absorb size compress state bytes =
      ⟨compress state.chain (state.pending ++ bytes), []⟩ := by
  obtain ⟨early, last, rfl⟩ :=
    (List.eq_nil_or_concat' bytes).resolve_left nonempty
  rw [List.length_append, List.length_singleton] at full
  have kept :
      absorb size compress state early =
        ⟨state.chain, state.pending ++ early⟩ :=
    absorb_of_lt (by omega)
  rw [absorb_append, kept]
  refine (if_pos ?_).trans ?_
  · rw [List.length_append]
    omega
  · rw [List.append_assoc]

/-- How many bytes are kept depends on how many were absorbed. -/
theorem length_pending_absorb
    (short : state.pending.length < size) (bytes : List Byte) :
    (absorb size compress state bytes).pending.length =
      (state.pending.length + bytes.length) % size := by
  induction bytes generalizing state with
  | nil => exact (Nat.mod_eq_of_lt short).symm
  | cons byte later inductionHypothesis =>
    rw [absorb, List.foldl_cons, List.length_cons]
    by_cases full : state.pending.length + 1 = size
    · have emptied : (push size compress state byte).pending = [] := by
        rw [push, if_pos full]
      refine (inductionHypothesis ?_).trans ?_
      · rw [emptied]
        exact Nat.zero_lt_of_lt short
      rw [emptied, List.length_nil, Nat.zero_add,
        show state.pending.length + (later.length + 1) =
          later.length + size by omega, Nat.add_mod_right]
    · have kept :
          (push size compress state byte).pending.length =
            state.pending.length + 1 := by
        rw [push, if_neg full, List.length_append, List.length_singleton]
      refine (inductionHypothesis ?_).trans ?_
      · rw [kept]
        omega
      rw [kept, Nat.add_right_comm, Nat.add_assoc]

/-- Whole blocks are compressed one after the other. -/
theorem absorb_blocks (positive : 0 < size) {count : Nat}
    (whole : bytes.length = size * count) (chain : Chain) :
    absorb size compress ⟨chain, []⟩ bytes =
      ⟨(blocks size count bytes).foldl compress chain, []⟩ := by
  induction count generalizing bytes chain with
  | zero =>
    rw [List.length_eq_zero_iff.mp whole]
    rfl
  | succ count inductionHypothesis =>
    rw [Nat.mul_succ] at whole
    have firstLength : (bytes.take size).length = size := by
      rw [List.length_take]
      omega
    have restLength : (bytes.drop size).length = size * count := by
      rw [List.length_drop]
      omega
    have first :
        absorb size compress ⟨chain, []⟩ (bytes.take size) =
          ⟨compress chain (bytes.take size), []⟩ := by
      refine absorb_of_eq ?_ ?_
      · rw [List.length_nil, Nat.zero_add, firstLength]
      · exact List.length_pos_iff.mp
          (Nat.lt_of_lt_of_eq positive firstLength.symm)
    calc
      absorb size compress ⟨chain, []⟩ bytes =
          absorb size compress ⟨chain, []⟩
            (bytes.take size ++ bytes.drop size) := by
        rw [List.take_append_drop]
      _ = absorb size compress ⟨compress chain (bytes.take size), []⟩
            (bytes.drop size) := by
        rw [absorb_append, first]
      _ = _ := inductionHypothesis restLength _

end Absorbing

end Policyd.BlockHash
