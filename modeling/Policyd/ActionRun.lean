import Mathlib.Init

namespace Policyd

/-!
# Runs of actions

A system is given by what one action does to a state; an action that is not
enabled in a state has no result.  An interleaving of several parties is a list
of actions.
-/

section ActionRun

variable {State Action : Type}

/-- Perform actions one after another. -/
def runActions
    (step : State → Action → Option State) (state : State)
    (actions : List Action) :
    Option State :=
  actions.foldlM step state

variable {step : State → Action → Option State}

@[simp]
theorem runActions_nil (state : State) :
    runActions step state [] = some state := rfl

@[simp]
theorem runActions_cons
    (state : State) (action : Action) (later : List Action) :
    runActions step state (action :: later) =
      (step state action).bind fun next => runActions step next later := rfl

theorem runActions_append (state : State) (earlier later : List Action) :
    runActions step state (earlier ++ later) =
      (runActions step state earlier).bind fun middle =>
        runActions step middle later := by
  rw [runActions, List.foldlM_append]
  rfl

theorem runActions_trans
    {state middle last : State} {earlier later : List Action}
    (ranEarlier : runActions step state earlier = some middle)
    (ranLater : runActions step middle later = some last) :
    runActions step state (earlier ++ later) = some last := by
  rw [runActions_append, ranEarlier, Option.bind_some, ranLater]

/--
What holds at the start and is kept by every allowed action holds at the end of
every run of allowed actions.
-/
theorem invariant_of_run {Allowed : Action → Prop} (Invariant : State → Prop)
    (kept :
      ∀ {state next : State} {action : Action},
        Allowed action →
        Invariant state →
        step state action = some next →
        Invariant next)
    {state last : State} {actions : List Action}
    (allowed : ∀ action ∈ actions, Allowed action) (start : Invariant state)
    (ran : runActions step state actions = some last) :
    Invariant last := by
  induction actions generalizing state with
  | nil =>
    rcases Option.some.inj ran with rfl
    exact start
  | cons action later inductionHypothesis =>
    rw [runActions_cons, Option.bind_eq_some_iff] at ran
    rcases ran with ⟨next, stepped, ran⟩
    apply inductionHypothesis
    · exact fun other member =>
        allowed other (List.mem_cons_of_mem action member)
    · exact kept (allowed action List.mem_cons_self) start stepped
    · exact ran

end ActionRun

end Policyd
