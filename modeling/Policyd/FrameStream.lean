import Policyd.ByteText

namespace Policyd

/-!
# Frames in a byte stream

A stream is a sequence of frames written one behind the other.  Some bytes of
the stream have been received; `completed` counts the frames they contain
wholly.  A terminator is found in received bytes exactly when the frame it
ends has been received wholly.
-/

namespace Str

/-- A found text lies inside. -/
theorem findText_le {needle text : Str} {position : Nat}
    (found : findText needle text = some position) :
    position + needle.length ≤ text.length := by
  induction text generalizing position with
  | nil =>
    rw [findText] at found
    split_ifs at found with isEmpty
    cases found
    simp [isEmpty]
  | cons char rest inductionHypothesis =>
    rw [findText] at found
    split_ifs at found with here
    · cases found
      have shorter := (List.isPrefixOf_iff_prefix.mp here).length_le
      omega
    · obtain ⟨later, laterFound, rfl⟩ := Option.map_eq_some_iff.mp found
      have bound := inductionHypothesis laterFound
      rw [List.length_cons]
      omega

/-- What is found first stays first when the text goes on. -/
theorem findText_append {needle text : Str} {position : Nat}
    (found : findText needle text = some position) (more : Str) :
    findText needle (text ++ more) = some position := by
  induction text generalizing position with
  | nil =>
    rw [findText] at found
    split_ifs at found with isEmpty
    cases found
    subst isEmpty
    cases more <;> rfl
  | cons char rest inductionHypothesis =>
    have inside := findText_le found
    rw [findText] at found
    rw [List.cons_append, findText]
    split_ifs at found with here
    · cases found
      have longer : needle.isPrefixOf (char :: (rest ++ more)) = true := by
        rw [List.isPrefixOf_iff_prefix] at here ⊢
        exact here.trans (List.prefix_append (char :: rest) more)
      rw [if_pos longer]
    · obtain ⟨later, laterFound, rfl⟩ := Option.map_eq_some_iff.mp found
      have laterInside := findText_le laterFound
      have shorter : ¬ needle.isPrefixOf (char :: (rest ++ more)) := by
        intro longer
        apply here
        rw [List.isPrefixOf_iff_prefix] at longer ⊢
        exact List.prefix_of_prefix_length_le longer
          (List.prefix_append (char :: rest) more)
          (by rw [List.length_cons]; omega)
      rw [if_neg shorter, inductionHypothesis laterFound]
      rfl

/-- A text is not found before its end has been reached. -/
theorem findText_eq_none_of_short {needle first second : Str} {position : Nat}
    (found : findText needle (first ++ second) = some position)
    (short : first.length < position + needle.length) :
    findText needle first = none := by
  cases early : findText needle first with
  | none => rfl
  | some other =>
    have inside := findText_le early
    have same := findText_append early second
    rw [found] at same
    cases same
    omega

end Str

namespace Frames

variable {Item : Type}

/-- The number of frames wholly inside the first items of their stream. -/
def completed : List (List Item) → Nat → Nat
  | [], _ => 0
  | frame :: later, length =>
    if frame.length ≤ length then
      completed later (length - frame.length) + 1
    else
      0

/-- Received items begin with a whole frame or are part of one. -/
theorem received_cases
    {frame buffer later : List Item} {frames : List (List Item)}
    (stream : buffer ++ later = (frame :: frames).flatten) :
    (∃ kept, buffer = frame ++ kept ∧ kept ++ later = frames.flatten) ∨
      (buffer.length < frame.length ∧
        ∃ missing, frame = buffer ++ missing) := by
  rw [List.flatten_cons] at stream
  rcases List.append_eq_append_iff.mp stream with
    ⟨missing, frameShape, _⟩ | ⟨kept, bufferShape, rest⟩
  · by_cases whole : missing = []
    · left
      refine ⟨[], ?_, ?_⟩
      · simp [frameShape, whole]
      · subst whole
        rw [List.append_nil] at frameShape
        subst frameShape
        simpa using stream
    · right
      have positive := List.length_pos_iff.mpr whole
      refine ⟨?_, missing, frameShape⟩
      rw [frameShape, List.length_append]
      omega
  · left
    exact ⟨kept, bufferShape, rest.symm⟩

/-- Frames that lie before the received items are completed. -/
theorem completed_take_add (frames : List (List Item)) {count : Nat}
    (inside : count ≤ frames.length) (length : Nat) :
    completed frames ((frames.take count).flatten.length + length) =
      count + completed (frames.drop count) length := by
  induction frames generalizing count with
  | nil =>
    have isZero : count = 0 := by simpa using inside
    subst isZero
    simp
  | cons frame later inductionHypothesis =>
    cases count with
    | zero => simp
    | succ count =>
      have laterInside : count ≤ later.length := by
        simpa using inside
      have laterCount := inductionHypothesis laterInside
      rw [List.take_succ_cons, List.flatten_cons, List.length_append,
        List.drop_succ_cons, completed, if_pos (by omega)]
      have rest :
          frame.length + (later.take count).flatten.length + length -
              frame.length =
            (later.take count).flatten.length + length := by
        omega
      rw [rest, laterCount]
      omega

theorem completed_flatten (frames : List (List Item)) :
    completed frames frames.flatten.length = frames.length := by
  have all := completed_take_add frames (Nat.le_refl frames.length) 0
  simpa [completed] using all

end Frames

end Policyd
