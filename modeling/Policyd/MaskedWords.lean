import Mathlib

namespace Policyd

/-!
# Bit words, masks and cubes

A word is assembled from positions and the conditions under which they are set.
A cube is a list of literals, each asking for one position to be set or clear.
It is tested with one mask and one value, which reads it less strictly than its
literals do: a position that some literal asks to be set must be set, whatever
other literals say about it.  `and_mask_eq_value_iff` states this exactly.
-/

namespace MaskedWords

section Words

variable {width : Nat}

/-- The word with one set position. -/
def oneBit (width position : Nat) : BitVec width :=
  BitVec.ofNat width 1 <<< position

variable {index : Nat}

theorem getLsbD_oneBit (inside : index < width) (position : Nat) :
    (oneBit width position).getLsbD index = decide (index = position) := by
  rw [oneBit, ← BitVec.twoPow_eq, BitVec.getLsbD_twoPow]
  by_cases same : index = position
  · subst position
    simp [inside]
  · have differs : position ≠ index := Ne.symm same
    simp [same, differs]

/-- Testing one position with a mask. -/
theorem and_oneBit_ne_zero_iff
    {position : Nat} (inside : position < width) (word : BitVec width) :
    word &&& oneBit width position ≠ 0 ↔ word.getLsbD position = true := by
  constructor
  · intro nonzero
    by_contra isClear
    have notSet : word.getLsbD position = false := by
      simpa using isClear
    refine nonzero (BitVec.eq_of_getLsbD_eq fun index indexInside => ?_)
    rw [BitVec.getLsbD_and, getLsbD_oneBit indexInside]
    by_cases same : index = position
    · simp [same, notSet]
    · simp [same]
  · intro isSet vanishes
    have atPosition := congrArg (·.getLsbD position) vanishes
    simp [getLsbD_oneBit inside, isSet] at atPosition

/-- The word of all positions whose condition holds. -/
def assemble (bits : List (Nat × Bool)) : BitVec width :=
  bits.foldl
    (fun word bit =>
      if bit.2 then word ||| oneBit width bit.1 else word) 0

/-- Adding bits to a word sets exactly the positions whose condition holds. -/
private theorem getLsbD_foldl_bits
    (inside : index < width) (bits : List (Nat × Bool)) (start : BitVec width) :
    (bits.foldl
        (fun word bit =>
          if bit.2 then word ||| oneBit width bit.1 else word)
        start).getLsbD index =
      (start.getLsbD index || decide ((index, true) ∈ bits)) := by
  induction bits generalizing start with
  | nil => simp
  | cons bit later inductionHypothesis =>
    obtain ⟨position, holds⟩ := bit
    rw [List.foldl_cons, inductionHypothesis]
    cases holds with
    | false => simp
    | true =>
      simp only [if_true, BitVec.getLsbD_or, getLsbD_oneBit inside,
        List.mem_cons, Prod.mk.injEq, and_true, Bool.or_assoc,
        Bool.decide_or]

theorem getLsbD_assemble (inside : index < width) (bits : List (Nat × Bool)) :
    (assemble bits : BitVec width).getLsbD index =
      decide ((index, true) ∈ bits) := by
  simp [assemble, getLsbD_foldl_bits inside]

end Words

/-- One position and whether it must be set. -/
abbrev Literal := Nat × Bool

section Cubes

variable {width : Nat}

/-- The positions a cube mentions. -/
def cubeMask (cube : List Literal) : BitVec width :=
  cube.foldl (fun mask literal => mask ||| oneBit width literal.1) 0

/-- The positions a cube asks to be set. -/
def cubeValue (cube : List Literal) : BitVec width :=
  cube.foldl
    (fun value literal =>
      if literal.2 then value ||| oneBit width literal.1 else value)
    0

/-- The mask and the value of a cube. -/
def cubePair (cube : List Literal) : BitVec width × BitVec width :=
  (cubeMask cube, cubeValue cube)

theorem cubePair_append_singleton (cube : List Literal) (literal : Literal) :
    (cubePair (cube ++ [literal]) : BitVec width × BitVec width) =
      (cubeMask cube ||| oneBit width literal.1,
        if literal.2 then
          cubeValue cube ||| oneBit width literal.1
        else
          cubeValue cube) := by
  simp [cubePair, cubeMask, cubeValue]

/-- Further positions a cube asks to be clear only enter its mask. -/
theorem cubePair_append_clear (cube : List Literal) (positions : List Nat) :
    (cubePair (cube ++ positions.map fun position => (position, false)) :
        BitVec width × BitVec width) =
      (positions.foldl (fun mask position => mask ||| oneBit width position)
          (cubeMask cube),
        cubeValue cube) := by
  induction positions generalizing cube with
  | nil => simp [cubePair]
  | cons position later inductionHypothesis =>
    have oneMore :
        (cubePair (cube ++ [(position, false)]) :
            BitVec width × BitVec width) = _ :=
      cubePair_append_singleton cube (position, false)
    simp only [cubePair, Prod.mk.injEq] at oneMore
    rw [List.map_cons, List.append_cons, inductionHypothesis,
      List.foldl_cons, oneMore.1, oneMore.2]
    simp

variable {index : Nat}

/-- Adding literals to a mask sets exactly their positions. -/
private theorem getLsbD_foldl_mask
    (inside : index < width) (cube : List Literal) (start : BitVec width) :
    (cube.foldl
        (fun mask literal => mask ||| oneBit width literal.1)
        start).getLsbD index =
      (start.getLsbD index || decide (index ∈ cube.map Prod.fst)) := by
  induction cube generalizing start with
  | nil => simp
  | cons literal later inductionHypothesis =>
    rw [List.foldl_cons, inductionHypothesis]
    simp only [BitVec.getLsbD_or, getLsbD_oneBit inside,
      List.map_cons, List.mem_cons, Bool.or_assoc, Bool.decide_or]

theorem getLsbD_cubeMask (inside : index < width) (cube : List Literal) :
    (cubeMask cube : BitVec width).getLsbD index =
      decide (index ∈ cube.map Prod.fst) := by
  simp [cubeMask, getLsbD_foldl_mask inside]

theorem getLsbD_cubeValue (inside : index < width) (cube : List Literal) :
    (cubeValue cube : BitVec width).getLsbD index =
      decide ((index, true) ∈ cube) :=
  getLsbD_assemble inside cube

theorem cubeValue_and_cubeMask (cube : List Literal) :
    (cubeValue cube : BitVec width) &&& cubeMask cube = cubeValue cube := by
  apply BitVec.eq_of_getLsbD_eq
  intro index inside
  rw [BitVec.getLsbD_and, getLsbD_cubeMask inside,
    getLsbD_cubeValue inside, Bool.and_eq_left_iff_imp]
  simp only [decide_eq_true_eq]
  exact List.mem_map_of_mem

/-- Every mentioned position has the state its positive literals ask for. -/
def Meets (word : BitVec width) (cube : List Literal) : Prop :=
  ∀ literal ∈ cube,
    word.getLsbD literal.1 = decide ((literal.1, true) ∈ cube)

/-- The mask test of a cube is `Meets`. -/
theorem and_mask_eq_value_iff (word : BitVec width) {cube : List Literal}
    (inside : ∀ literal ∈ cube, literal.1 < width) :
    word &&& cubeMask cube = cubeValue cube ↔ Meets word cube := by
  constructor
  · intro passes literal member
    have atPosition := congrArg (·.getLsbD literal.1) passes
    have mentioned : literal.1 ∈ cube.map Prod.fst := List.mem_map_of_mem member
    simpa only [BitVec.getLsbD_and,
      getLsbD_cubeMask (inside literal member),
      getLsbD_cubeValue (inside literal member), mentioned,
      decide_true, Bool.and_true] using atPosition
  · intro meets
    apply BitVec.eq_of_getLsbD_eq
    intro index indexInside
    rw [BitVec.getLsbD_and, getLsbD_cubeMask indexInside,
      getLsbD_cubeValue indexInside]
    by_cases mentioned : index ∈ cube.map Prod.fst
    · obtain ⟨literal, member, sameIndex⟩ := List.mem_map.mp mentioned
      subst index
      simp [meets literal member, mentioned]
    · have notSet : (index, true) ∉ cube := fun member =>
        mentioned (List.mem_map_of_mem member)
      simp [mentioned, notSet]

end Cubes

section Alternatives

variable {Item : Type}

/-- Extend every partial choice by every alternative. -/
def extendBy (choices : List (List Item)) (alternatives : List (List Item)) :
    List (List Item) :=
  choices.flatMap fun choice => alternatives.map (choice ++ ·)

theorem extendBy_singleton
    (choices : List (List Item)) (alternative : List Item) :
    extendBy choices [alternative] = choices.map (· ++ alternative) := by
  rw [extendBy, List.map_eq_flatMap]
  rfl

/-- All concatenations that choose one alternative for each requirement. -/
def crossProduct (requirements : List (List (List Item))) :
    List (List Item) :=
  requirements.foldl extendBy [[]]

/-- Choosing further alternatives behind given partial choices. -/
private theorem mem_foldl_extendBy
    (requirements : List (List (List Item))) (choices : List (List Item))
    (whole : List Item) :
    whole ∈ requirements.foldl extendBy choices ↔
      ∃ choice ∈ choices, ∃ parts,
        List.Forall₂ (· ∈ ·) parts requirements ∧
          whole = choice ++ parts.flatten := by
  induction requirements generalizing choices with
  | nil => simp
  | cons alternatives later inductionHypothesis =>
    rw [List.foldl_cons, inductionHypothesis]
    simp only [extendBy, List.mem_flatMap, List.mem_map]
    constructor
    · rintro ⟨_, ⟨choice, member, part, partMember, rfl⟩, parts,
        partsMember, rfl⟩
      exact ⟨choice, member, part :: parts,
        .cons partMember partsMember, by simp⟩
    · rintro ⟨choice, member, parts, partsMember, rfl⟩
      cases partsMember with
      | cons partMember laterMember =>
        rename_i part laterParts
        exact ⟨choice ++ part,
          ⟨choice, member, part, partMember, rfl⟩,
          laterParts, laterMember, by simp⟩

theorem mem_crossProduct
    (requirements : List (List (List Item))) (whole : List Item) :
    whole ∈ crossProduct requirements ↔
      ∃ parts,
        List.Forall₂ (· ∈ ·) parts requirements ∧
          whole = parts.flatten := by
  simp [crossProduct, mem_foldl_extendBy]

end Alternatives

end MaskedWords

end Policyd
