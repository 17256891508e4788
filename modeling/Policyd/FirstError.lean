import Mathlib.Tactic.Common

namespace FirstError

/-!
# Keeping the first error

A program that keeps its first error in a flag and goes on runs with values it
will discard.  `Flagged` is such a program on fuel.  `Follows` relates it to a
program that stops: without an error both give the same value, with one the
flag ends as the error of the program that stopped, and once the flag is set
the run still ends and keeps it.
-/

/-- A run on fuel that carries a flag with the first error. -/
abbrev Flagged (Failure Value : Type) :=
  StateT (Option Failure) Option Value

variable {Failure Value Result : Type}

/-- The run that has no fuel left. -/
def exhausted : Flagged Failure Value :=
  fun _ => none

/-- Set the flag unless it is set. -/
def raise (failure : Failure) : Flagged Failure Unit :=
  modify fun flag => flag.or (some failure)

/-- Whether the flag is set. -/
def raised : Flagged Failure Bool :=
  return (← get).isSome

/--
A run with a flag follows a program that stops at its first error.  All values
it returns satisfy `Post`, and every error it raises satisfies `Failed`.
-/
structure Follows
    (Failed : Failure → Prop)
    (Post : Value → Prop)
    (run : Flagged Failure Value)
    (stop : Except Failure Value) : Prop where
  flagged :
    ∀ failure, ∃ value,
      run (some failure) = some (value, some failure) ∧ Post value
  returns :
    ∀ value, stop = .ok value → run none = some (value, none) ∧ Post value
  fails :
    ∀ failure,
      stop = .error failure →
        Failed failure ∧
          ∃ value, run none = some (value, some failure) ∧ Post value

namespace Follows

variable {Failed : Failure → Prop} {Post : Value → Prop}

variable {value : Value} {run : Flagged Failure Value}
  {stop : Except Failure Value}

theorem pure (post : Post value) :
    Follows Failed Post (Pure.pure value) (.ok value) where
  flagged := fun _ => ⟨value, rfl, post⟩
  returns := by
    intro returned same
    cases same
    exact ⟨rfl, post⟩
  fails := nofun

/-- Raising an error and going on with some value. -/
theorem raise
    {failure : Failure} (failed : Failed failure) (post : Post value) :
    Follows Failed Post
      (do
        FirstError.raise failure
        return value)
      (.error failure) where
  flagged := fun _ => ⟨value, rfl, post⟩
  returns := nofun
  fails := by
    intro other same
    cases same
    exact ⟨failed, value, rfl, post⟩

/-- One step after another. -/
theorem bind (first : Follows Failed Post run stop)
    {Final : Result → Prop} {next : Value → Flagged Failure Result}
    {stopNext : Value → Except Failure Result}
    (second :
      ∀ value, Post value →
        Follows Failed Final (next value) (stopNext value)) :
    Follows Failed Final (run >>= next) (stop >>= stopNext) where
  flagged := by
    intro failure
    obtain ⟨value, ran, post⟩ := first.flagged failure
    obtain ⟨result, ranNext, final⟩ := (second value post).flagged failure
    refine ⟨result, ?_, final⟩
    show (run (some failure)).bind (fun pair => next pair.1 pair.2) = _
    rw [ran]
    exact ranNext
  returns := by
    intro result returned
    cases shape : stop with
    | error failure =>
      rw [shape] at returned
      cases returned
    | ok value =>
      rw [shape] at returned
      obtain ⟨ran, post⟩ := first.returns value shape
      obtain ⟨ranNext, final⟩ := (second value post).returns result returned
      refine ⟨?_, final⟩
      show (run none).bind (fun pair => next pair.1 pair.2) = _
      rw [ran]
      exact ranNext
  fails := by
    intro failure stopped
    have composed :
        (run >>= next) none =
          (run none).bind fun pair => next pair.1 pair.2 := rfl
    rw [composed]
    cases shape : stop with
    | error earlier =>
      rw [shape] at stopped
      cases stopped
      -- The run goes on behind the error and keeps it.
      obtain ⟨failed, value, ran, post⟩ := first.fails failure shape
      obtain ⟨result, ranNext, final⟩ := (second value post).flagged failure
      rw [ran]
      exact ⟨failed, result, ranNext, final⟩
    | ok value =>
      rw [shape] at stopped
      obtain ⟨ran, post⟩ := first.returns value shape
      rw [ran]
      exact (second value post).fails failure stopped

theorem unlessRaised
    (follows : Follows Failed Post run stop) (post : Post value) :
    Follows Failed Post
      (do
        if ← raised then
          return value
        else
          run)
      stop where
  flagged := fun _ => ⟨value, rfl, post⟩
  returns := follows.returns
  fails := follows.fails

/-- Weaker facts about the values. -/
theorem weaken (follows : Follows Failed Post run stop) {Weaker : Value → Prop}
    (weaker : ∀ value, Post value → Weaker value) :
    Follows Failed Weaker run stop where
  flagged := by
    intro failure
    obtain ⟨value, ran, post⟩ := follows.flagged failure
    exact ⟨value, ran, weaker value post⟩
  returns := by
    intro value returned
    obtain ⟨ran, post⟩ := follows.returns value returned
    exact ⟨ran, weaker value post⟩
  fails := by
    intro failure stopped
    obtain ⟨failed, value, ran, post⟩ := follows.fails failure stopped
    exact ⟨failed, value, ran, weaker value post⟩

end Follows

end FirstError
