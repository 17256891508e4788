import Mathlib.Algebra.Order.Group.Multiset
import Mathlib.Data.List.Induction
import Mathlib.Data.Multiset.Filter

namespace Policyd.RequestJournal

/-!
# A journal of requests

A client issues requests and closes each of them in one of four ways.  The
journal lists what happened in order.  It is kept properly when the requests
issued are those closed together with those still waiting; every way of
counting is read off it.  Requests and samples are arbitrary.
-/

section Journal

variable {Request Sample : Type}

/-- What can happen to a request. -/
inductive Entry (Request Sample : Type) where
  | issued (request : Request)
  | answered (request : Request) (sample : Option Sample)
  | refused (request : Request)
  | writtenOff (request : Request)
  | forgotten (request : Request)
deriving Repr, DecidableEq

namespace Entry

/-- The request that an entry issues. -/
def issues : Entry Request Sample → Option Request
  | issued request => some request
  | _ => none

/-- The request that an entry closes. -/
def closes : Entry Request Sample → Option Request
  | issued _ => none
  | answered request _ => some request
  | refused request => some request
  | writtenOff request => some request
  | forgotten request => some request

/-- The sample that an entry takes, with its request. -/
def sampled : Entry Request Sample → Option (Request × Sample)
  | answered request (some sample) => some (request, sample)
  | _ => none

end Entry

/-- How many requests were issued and how many were closed in each way. -/
structure Counts where
  issued : Nat := 0
  answered : Nat := 0
  refused : Nat := 0
  writtenOff : Nat := 0
  forgotten : Nat := 0
deriving Repr, DecidableEq

/-- Count one more entry. -/
def Counts.post (counts : Counts) : Entry Request Sample → Counts
  | .issued _ => { counts with issued := counts.issued + 1 }
  | .answered _ _ => { counts with answered := counts.answered + 1 }
  | .refused _ => { counts with refused := counts.refused + 1 }
  | .writtenOff _ => { counts with writtenOff := counts.writtenOff + 1 }
  | .forgotten _ => { counts with forgotten := counts.forgotten + 1 }

/-- The counts of a journal. -/
def counts (journal : List (Entry Request Sample)) : Counts :=
  journal.foldl Counts.post {}

/-- The requests issued, in order. -/
def issued (journal : List (Entry Request Sample)) : List Request :=
  journal.filterMap Entry.issues

/-- The requests closed, in order. -/
def closed (journal : List (Entry Request Sample)) : List Request :=
  journal.filterMap Entry.closes

/-- The samples taken, in order. -/
def samples (journal : List (Entry Request Sample)) :
    List (Request × Sample) :=
  journal.filterMap Entry.sampled

section

variable (journal : List (Entry Request Sample))
    (entry : Entry Request Sample)

theorem issued_concat :
    issued (journal ++ [entry]) = issued journal ++ entry.issues.toList := by
  rw [issued, List.filterMap_append, List.filterMap_cons]
  cases entry.issues <;> rfl

theorem closed_concat :
    closed (journal ++ [entry]) = closed journal ++ entry.closes.toList := by
  rw [closed, List.filterMap_append, List.filterMap_cons]
  cases entry.closes <;> rfl

theorem samples_concat :
    samples (journal ++ [entry]) = samples journal ++ entry.sampled.toList := by
  rw [samples, List.filterMap_append, List.filterMap_cons]
  cases entry.sampled <;> rfl

theorem counts_concat :
    counts (journal ++ [entry]) = (counts journal).post entry :=
  List.foldl_append

end

theorem issued_counts (journal : List (Entry Request Sample)) :
    (counts journal).issued = (issued journal).length := by
  induction journal using List.reverseRecOn with
  | nil => rfl
  | append_singleton earlier entry inductionHypothesis =>
    rw [counts_concat, issued_concat, List.length_append, ← inductionHypothesis]
    cases entry <;> rfl

theorem closed_counts (journal : List (Entry Request Sample)) :
    (counts journal).answered + (counts journal).refused +
        (counts journal).writtenOff + (counts journal).forgotten =
      (closed journal).length := by
  induction journal using List.reverseRecOn with
  | nil => rfl
  | append_singleton earlier entry inductionHypothesis =>
    rw [counts_concat, closed_concat, List.length_append, ← inductionHypothesis]
    cases entry <;>
      simp only [Counts.post, Entry.closes, Option.toList_none,
        Option.toList_some, List.length_nil, List.length_singleton] <;>
      omega

theorem samples_sublist_closed (journal : List (Entry Request Sample)) :
    ((samples journal).map Prod.fst).Sublist (closed journal) := by
  induction journal with
  | nil => exact List.Sublist.refl []
  | cons entry later inductionHypothesis =>
    cases entry with
    | issued request => exact inductionHypothesis
    | answered request sample =>
      cases sample with
      | none => exact inductionHypothesis.cons request
      | some sample => exact inductionHypothesis.cons_cons request
    | refused request => exact inductionHypothesis.cons request
    | writtenOff request => exact inductionHypothesis.cons request
    | forgotten request => exact inductionHypothesis.cons request

/-- The requests issued are those closed and those waiting. -/
def Keeps (journal : List (Entry Request Sample)) (waiting : Multiset Request) :
    Prop :=
  (issued journal : Multiset Request) = closed journal + waiting

variable
  {journal : List (Entry Request Sample)}
  {waiting : Multiset Request}
  {request : Request}

theorem keeps_nil : Keeps ([] : List (Entry Request Sample)) 0 :=
  rfl

theorem Keeps.issue (kept : Keeps journal waiting) (request : Request) :
    Keeps (journal ++ [.issued request]) ({request} + waiting) := by
  have others : closed (journal ++ [.issued request]) = closed journal := by
    rw [closed_concat]
    exact List.append_nil _
  rw [Keeps, issued_concat, others, ← Multiset.coe_add, kept, add_assoc,
    add_comm waiting]
  rfl

theorem Keeps.close {entry : Entry Request Sample}
    (kept : Keeps journal ({request} + waiting))
    (closes : entry.closes = some request) :
    Keeps (journal ++ [entry]) waiting := by
  have others : issued (journal ++ [entry]) = issued journal := by
    rw [issued_concat]
    cases entry with
    | issued => cases closes
    | _ => exact List.append_nil _
  rw [Keeps, others, kept, closed_concat, closes, ← Multiset.coe_add, add_assoc]
  rfl

theorem Keeps.issued_eq (kept : Keeps journal waiting) :
    (counts journal).issued =
      (counts journal).answered + (counts journal).refused +
        (counts journal).writtenOff + (counts journal).forgotten +
        waiting.card := by
  have cards := congrArg Multiset.card kept
  rw [Multiset.card_add, Multiset.coe_card, Multiset.coe_card,
    ← issued_counts, ← closed_counts] at cards
  exact cards

theorem Keeps.nodup_closed
    (kept : Keeps journal waiting) (distinct : (issued journal).Nodup) :
    (closed journal).Nodup := by
  have all : (closed journal + waiting : Multiset Request).Nodup := by
    rw [← kept]
    exact Multiset.coe_nodup.mpr distinct
  exact Multiset.coe_nodup.mp
    (Multiset.nodup_of_le (Multiset.le_add_right _ _) all)

theorem Keeps.mem_issued
    (kept : Keeps journal waiting) (member : request ∈ closed journal) :
    request ∈ issued journal := by
  rw [← Multiset.mem_coe, kept]
  exact Multiset.mem_add.mpr (Or.inl (Multiset.mem_coe.mpr member))

end Journal

end Policyd.RequestJournal
