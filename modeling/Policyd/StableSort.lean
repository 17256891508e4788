import Mathlib.Data.List.Sort

namespace Policyd

/-!
# Stable sorting by rank

`sortByRank` orders a list by a numeric rank and keeps the order of elements of
equal rank.  A search over the sorted list finds the matching element of least
rank, and among those the first.  Sorting blocks whose elements share their
rank sorts the blocks; blocks with a key of their own keep equal keys together.
-/

/-- Order a list by rank, keeping the order among equals. -/
def sortByRank {Item : Type} (rank : Item → Nat) (items : List Item) :
    List Item :=
  items.insertionSort fun first second => rank first ≤ rank second

section Sorting

variable {Item Source : Type} {rank : Item → Nat}

/-- Insert an element before the elements of at least its rank. -/
def insertByRank (rank : Item → Nat) (item : Item) (items : List Item) :
    List Item :=
  items.orderedInsert (fun first second => rank first ≤ rank second) item

theorem sortByRank_cons (item : Item) (later : List Item) :
    sortByRank rank (item :: later) =
      insertByRank rank item (sortByRank rank later) :=
  rfl

theorem sortByRank_perm (items : List Item) :
    (sortByRank rank items).Perm items :=
  List.perm_insertionSort _ _

theorem sortByRank_pairwise (items : List Item) :
    (sortByRank rank items).Pairwise
      fun first second => rank first ≤ rank second := by
  have : Std.Total fun first second : Item => rank first ≤ rank second :=
    ⟨fun first second => Nat.le_total _ _⟩
  have : IsTrans Item fun first second => rank first ≤ rank second :=
    ⟨fun _ _ _ => Nat.le_trans⟩
  exact List.pairwise_insertionSort _ _

variable {items : List Item}

theorem sortByRank_eq_of_perm {others : List Item}
    (distinct : (items.map rank).Nodup) (rearranged : items.Perm others) :
    sortByRank rank items = sortByRank rank others := by
  have samePermutation :
      (sortByRank rank items).Perm (sortByRank rank others) :=
    (sortByRank_perm items).trans
      (rearranged.trans (sortByRank_perm others).symm)
  refine samePermutation.eq_of_pairwise ?_ (sortByRank_pairwise items)
    (sortByRank_pairwise others)
  intro first second firstMember secondMember firstLe secondLe
  have firstIn := (sortByRank_perm items).mem_iff.mp firstMember
  have secondIn :=
    rearranged.mem_iff.mpr ((sortByRank_perm others).mem_iff.mp secondMember)
  exact List.inj_on_of_nodup_map distinct firstIn secondIn
    (Nat.le_antisymm firstLe secondLe)

/-- Related lists of equal ranks are sorted alike. -/
theorem sortByRank_forall₂
    {otherRank : Source → Nat} {Related : Item → Source → Prop}
    (sameRank : ∀ item other, Related item other → rank item = otherRank other)
    {others : List Source}
    (related : List.Forall₂ Related items others) :
    List.Forall₂ Related (sortByRank rank items)
      (sortByRank otherRank others) := by
  have inserted :
      ∀ {item : Item} {other : Source} {first : List Item}
        {second : List Source},
        Related item other → List.Forall₂ Related first second →
          List.Forall₂ Related (insertByRank rank item first)
            (insertByRank otherRank other second) := by
    intro item other first second isRelated relatedLists
    induction relatedLists with
    | nil => exact .cons isRelated .nil
    | cons headRelated laterRelated inductionHypothesis =>
      rw [insertByRank, insertByRank, List.orderedInsert_cons,
        List.orderedInsert_cons, sameRank _ _ isRelated,
        sameRank _ _ headRelated]
      split
      · exact .cons isRelated (.cons headRelated laterRelated)
      · exact .cons headRelated inductionHypothesis
  induction related with
  | nil => exact .nil
  | cons headRelated _ inductionHypothesis =>
    exact inserted headRelated inductionHypothesis

/-- A search over an insertion prefers the inserted element among equals. -/
theorem find?_insertByRank (wanted : Item → Bool) (item : Item)
    (sorted : items.Pairwise fun first second => rank first ≤ rank second) :
    (insertByRank rank item items).find? wanted =
      if wanted item then
        match items.find? wanted with
        | none => some item
        | some found =>
          if rank item ≤ rank found then some item else some found
      else
        items.find? wanted := by
  induction items with
  | nil => cases hit : wanted item <;> simp [insertByRank, hit]
  | cons head later inductionHypothesis =>
    obtain ⟨headLe, laterSorted⟩ := List.pairwise_cons.mp sorted
    rw [insertByRank, List.orderedInsert_cons]
    by_cases before : rank item ≤ rank head
    · rw [if_pos before]
      by_cases hit : wanted item = true
      · rw [List.find?_cons_of_pos hit, if_pos hit]
        cases search : (head :: later).find? wanted with
        | none => rfl
        | some found =>
          have headLeFound : rank head ≤ rank found := by
            rcases List.mem_cons.mp
              (List.mem_of_find?_eq_some search) with rfl | isLater
            · exact Nat.le_refl _
            · exact headLe found isLater
          exact (if_pos (before.trans headLeFound)).symm
      · rw [List.find?_cons_of_neg hit, if_neg hit]
    · rw [if_neg before]
      by_cases headHit : wanted head = true
      · rw [List.find?_cons_of_pos headHit, List.find?_cons_of_pos headHit]
        dsimp only
        rw [if_neg before]
        split <;> rfl
      · rw [List.find?_cons_of_neg headHit, List.find?_cons_of_neg headHit]
        exact inductionHypothesis laterSorted

/--
A search over the sorted list finds something for every matching element, of
smaller rank or of the same rank and not behind it.
-/
theorem find?_sortByRank_of_match
    {wanted : Item → Bool} {position : Nat} {item : Item}
    (placed : items[position]? = some item) (hit : wanted item = true) :
    ∃ (earlier : Nat) (first : Item),
      items[earlier]? = some first ∧
        (sortByRank rank items).find? wanted = some first ∧
        (rank first < rank item ∨
          rank first = rank item ∧ earlier ≤ position) := by
  induction items generalizing position with
  | nil => simp at placed
  | cons head later inductionHypothesis =>
    rw [sortByRank_cons,
      find?_insertByRank wanted head (sortByRank_pairwise later)]
    cases position with
    | zero =>
      obtain rfl : head = item := by simpa using placed
      rw [if_pos hit]
      cases search : (sortByRank rank later).find? wanted with
      | none => exact ⟨0, head, rfl, rfl, .inr ⟨rfl, Nat.le_refl 0⟩⟩
      | some found =>
        dsimp only
        by_cases before : rank head ≤ rank found
        · rw [if_pos before]
          exact ⟨0, head, rfl, rfl, .inr ⟨rfl, Nat.le_refl 0⟩⟩
        · have foundIn : found ∈ later :=
            (sortByRank_perm later).mem_iff.mp
              (List.mem_of_find?_eq_some search)
          obtain ⟨index, indexed⟩ := List.mem_iff_getElem?.mp foundIn
          rw [if_neg before]
          exact ⟨index + 1, found, indexed, rfl, .inl (Nat.lt_of_not_le before)⟩
    | succ position =>
      obtain ⟨earlier, first, firstPlaced, search, order⟩ :=
        inductionHypothesis placed
      rw [search]
      by_cases headHit : wanted head = true
      · rw [if_pos headHit]
        dsimp only
        by_cases before : rank head ≤ rank first
        · rw [if_pos before]
          exact ⟨0, head, rfl, rfl, by omega⟩
        · rw [if_neg before]
          exact ⟨earlier + 1, first, firstPlaced, rfl, by omega⟩
      · rw [if_neg headHit]
        exact ⟨earlier + 1, first, firstPlaced, rfl, by omega⟩

/-- Inserting behind a block of smaller rank leaves the block in front. -/
theorem insertByRank_append {item : Item} {front : List Item}
    (smaller : ∀ other ∈ front, rank other < rank item) :
    insertByRank rank item (front ++ items) =
      front ++ insertByRank rank item items := by
  induction front with
  | nil => rfl
  | cons head later inductionHypothesis =>
    have headSmaller := smaller head List.mem_cons_self
    rw [List.cons_append, insertByRank, List.orderedInsert_cons,
      if_neg (Nat.not_le.mpr headSmaller)]
    exact congrArg (head :: ·)
      (inductionHypothesis fun other member =>
        smaller other (List.mem_cons_of_mem _ member))

/-- Insert the elements of a block, last one first. -/
def insertBlock (rank : Item → Nat) (block items : List Item) :
    List Item :=
  block.foldr (insertByRank rank) items

/-- A block goes behind a block of smaller rank. -/
theorem insertBlock_append {block front : List Item}
    (smaller : ∀ item ∈ block, ∀ other ∈ front, rank other < rank item) :
    insertBlock rank block (front ++ items) =
      front ++ insertBlock rank block items := by
  induction block with
  | nil => rfl
  | cons head later inductionHypothesis =>
    have laterInserted := inductionHypothesis fun item member =>
      smaller item (List.mem_cons_of_mem _ member)
    rw [insertBlock] at laterInserted ⊢
    rw [List.foldr_cons, laterInserted,
      insertByRank_append (smaller head List.mem_cons_self)]
    rfl

/-- A block of one rank goes before a head of at least that rank. -/
theorem insertBlock_before {block : List Item} {level : Nat}
    (sameRank : ∀ item ∈ block, rank item = level)
    (before : ∀ head ∈ items.head?, level ≤ rank head) :
    insertBlock rank block items = block ++ items := by
  induction block with
  | nil => rfl
  | cons head later inductionHypothesis =>
    have laterInserted := inductionHypothesis fun item member =>
      sameRank item (List.mem_cons_of_mem _ member)
    have headRank := sameRank head List.mem_cons_self
    rw [insertBlock] at laterInserted ⊢
    rw [List.foldr_cons, laterInserted, List.cons_append]
    have nextLe : ∀ next ∈ (later ++ items).head?, rank head ≤ rank next := by
      intro next isHead
      cases later with
      | nil =>
        rw [headRank]
        exact before next isHead
      | cons _ _ =>
        cases isHead
        rw [headRank, sameRank next (by simp)]
    cases shape : later ++ items with
    | nil => rfl
    | cons next rest =>
      rw [insertByRank, List.orderedInsert_cons, if_pos]
      exact nextLe next (by rw [shape]; rfl)

theorem sortByRank_flatMap
    {blockRank : Source → Nat} {block : Source → List Item}
    (nonempty : ∀ source, block source ≠ [])
    (sameRank : ∀ source, ∀ item ∈ block source, rank item = blockRank source)
    (sources : List Source) :
    sortByRank rank (sources.flatMap block) =
      (sortByRank blockRank sources).flatMap block := by
  induction sources with
  | nil => rfl
  | cons source later inductionHypothesis =>
    have sortAppend :
        sortByRank rank (block source ++ later.flatMap block) =
          insertBlock rank (block source)
            (sortByRank rank (later.flatMap block)) :=
      List.foldr_append
    rw [List.flatMap_cons, sortAppend, inductionHypothesis, sortByRank_cons]
    generalize sortByRank blockRank later = sorted
    induction sorted with
    | nil =>
      rw [insertBlock_before (sameRank source) (by simp)]
      simp [insertByRank]
    | cons head rest restHypothesis =>
      rw [insertByRank, List.orderedInsert_cons]
      by_cases before : blockRank source ≤ blockRank head
      · rw [if_pos before, insertBlock_before (sameRank source)]
        · rfl
        · intro next isHead
          have nextIn : next ∈ block head := by
            obtain ⟨first, others, shape⟩ :=
              List.exists_cons_of_ne_nil (nonempty head)
            rw [List.flatMap_cons, shape, List.cons_append] at isHead
            cases isHead
            rw [shape]
            exact List.mem_cons_self
          rw [sameRank head next nextIn]
          exact before
      · rw [if_neg before, List.flatMap_cons, List.flatMap_cons,
          insertBlock_append, restHypothesis]
        · rfl
        · intro item member other otherMember
          rw [sameRank source item member, sameRank head other otherMember]
          exact Nat.lt_of_not_le before

end Sorting

/-- Elements between two elements of one key have that key. -/
def Contiguous
    {Item Key : Type}
    (key : Item → Key)
    (items : List Item) : Prop :=
  ∀ first middle last,
    [first, middle, last].Sublist items →
      key first = key last → key middle = key first

section Blocks

variable {Item Source Key : Type}
variable {itemKey : Item → Key} {sourceKey : Source → Key}
variable {block : Source → List Item} {sources : List Source}

/-- The elements of one key are those of one block. -/
theorem mem_block_iff
    (sameKey : ∀ source, ∀ item ∈ block source, itemKey item = sourceKey source)
    (distinct : (sources.map sourceKey).Nodup)
    {source : Source}
    (sourceMember : source ∈ sources)
    {item : Item}
    (itemMember : item ∈ sources.flatMap block) :
    item ∈ block source ↔ itemKey item = sourceKey source := by
  refine ⟨sameKey source item, ?_⟩
  intro isKey
  obtain ⟨other, otherMember, inBlock⟩ := List.mem_flatMap.mp itemMember
  have same : other = source := by
    refine List.inj_on_of_nodup_map distinct otherMember sourceMember ?_
    rw [← sameKey other item inBlock, isKey]
  exact same ▸ inBlock

private theorem key_ne_of_mem_later
    (sameKey : ∀ source, ∀ item ∈ block source, itemKey item = sourceKey source)
    {source : Source} {later : List Source}
    (fresh : sourceKey source ∉ later.map sourceKey)
    {item : Item}
    (member : item ∈ later.flatMap block) :
    itemKey item ≠ sourceKey source := by
  obtain ⟨other, otherMember, inBlock⟩ := List.mem_flatMap.mp member
  rw [sameKey other item inBlock]
  intro same
  exact fresh (same ▸ List.mem_map_of_mem otherMember)

/-- Blocks with different keys keep equal keys together. -/
theorem contiguous_flatMap
    (sameKey : ∀ source, ∀ item ∈ block source, itemKey item = sourceKey source)
    (distinct : (sources.map sourceKey).Nodup) :
    Contiguous itemKey (sources.flatMap block) := by
  induction sources with
  | nil =>
    intro first middle last inside _
    cases inside
  | cons source later inductionHypothesis =>
    rw [List.map_cons, List.nodup_cons] at distinct
    intro first middle last inside sameEnds
    rw [List.flatMap_cons, List.sublist_append_iff] at inside
    obtain ⟨front, back, shape, frontIn, backIn⟩ := inside
    -- How many of the three lie in the first block.
    rcases front with _ | ⟨_, _ | ⟨_, _ | ⟨_, rest⟩⟩⟩
    · cases shape
      exact inductionHypothesis distinct.2 first middle last backIn sameEnds
    · cases shape
      have lastKey :=
        key_ne_of_mem_later sameKey distinct.1
          (backIn.subset (by simp : last ∈ [middle, last]))
      exact absurd
        (sameEnds.symm.trans (sameKey source first (frontIn.subset
          List.mem_cons_self)))
        lastKey
    · cases shape
      have lastKey :=
        key_ne_of_mem_later sameKey distinct.1
          (backIn.subset (by simp : last ∈ [last]))
      exact absurd
        (sameEnds.symm.trans (sameKey source first (frontIn.subset
          List.mem_cons_self)))
        lastKey
    · simp only [List.cons_append, List.cons.injEq] at shape
      obtain ⟨rfl, rfl, _, _⟩ := shape
      rw [sameKey source middle (frontIn.subset (by simp)),
        sameKey source first (frontIn.subset (by simp))]

/-- A key occurs at most as often as the longest block is long. -/
theorem countP_flatMap_le [DecidableEq Key]
    (sameKey : ∀ source, ∀ item ∈ block source, itemKey item = sourceKey source)
    (distinct : (sources.map sourceKey).Nodup)
    {bound : Nat}
    (sizes : ∀ source ∈ sources, (block source).length ≤ bound) (key : Key) :
    (sources.flatMap block).countP (fun item => itemKey item = key) ≤
      bound := by
  induction sources with
  | nil => exact Nat.zero_le bound
  | cons source later inductionHypothesis =>
    rw [List.map_cons, List.nodup_cons] at distinct
    rw [List.forall_mem_cons] at sizes
    rw [List.flatMap_cons, List.countP_append]
    by_cases isKey : sourceKey source = key
    · have noneLater :
          (later.flatMap block).countP (fun item => itemKey item = key) =
            0 := by
        rw [List.countP_eq_zero]
        intro item member
        simpa [← isKey] using key_ne_of_mem_later sameKey distinct.1 member
      rw [noneLater]
      exact List.countP_le_length.trans sizes.1
    · have noneHere :
          (block source).countP (fun item => itemKey item = key) = 0 := by
        rw [List.countP_eq_zero]
        intro item member
        simpa [sameKey source item member] using isKey
      rw [noneHere, Nat.zero_add]
      exact inductionHypothesis distinct.2 sizes.2

end Blocks

end Policyd
