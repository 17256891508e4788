import Policyd.ByteText

namespace Policyd

/-!
# Computations that report

A `Report` is a value together with the problems and warnings found while it
was computed; an `Attempt` stops at its first problem and keeps its warnings.
`result` forgets the texts: it is the value of a computation without problems,
and it commutes with sequencing.
-/

/-- A value with the problems and warnings found on the way. -/
structure Report (Problem Value : Type) where
  value : Value
  problems : List Problem := []
  warnings : List Str := []

namespace Report

variable {Problem First Second : Type}

/-- Continue with a value, keeping both reports in order. -/
def andThen
    (first : Report Problem First) (next : First → Report Problem Second) :
    Report Problem Second :=
  let second := next first.value
  { value := second.value
    problems := first.problems ++ second.problems
    warnings := first.warnings ++ second.warnings }

instance : Monad (Report Problem) where
  pure value := { value := value }
  bind := andThen

/-- Report a problem and continue with a value. -/
def problem (found : Problem) (value : First) : Report Problem First :=
  { value := value, problems := [found] }

/-- Report a warning. -/
def warn (text : Str) : Report Problem Unit :=
  { value := (), warnings := [text] }

/-- The value of a report without problems. -/
def result (report : Report Problem First) : Option First :=
  match report.problems with
  | [] => some report.value
  | _ => none

theorem result_eq_some_iff {report : Report Problem First} {value : First} :
    report.result = some value ↔
      report.problems = [] ∧ report.value = value := by
  unfold result
  split <;> simp_all

@[simp] theorem result_pure (value : First) :
    (pure value : Report Problem First).result = some value :=
  rfl

@[simp] theorem result_problem (found : Problem) (value : First) :
    (problem found value).result = none :=
  rfl

@[simp] theorem result_warn (text : Str) :
    (warn text : Report Problem Unit).result = some () :=
  rfl

@[simp] theorem result_bind (first : Report Problem First)
    (next : First → Report Problem Second) :
    (first >>= next).result =
      first.result.bind fun value => (next value).result := by
  have problems_bind :
      (first >>= next).problems =
        first.problems ++ (next first.value).problems := rfl
  cases firstShape : first.problems with
  | nil =>
    have firstResult : first.result = some first.value :=
      result_eq_some_iff.mpr ⟨firstShape, rfl⟩
    rw [firstResult, Option.bind_some]
    unfold result
    rw [problems_bind, firstShape]
    rfl
  | cons problem later =>
    have firstResult : first.result = none := by
      unfold result
      rw [firstShape]
    rw [firstResult, Option.bind_none]
    unfold result
    rw [problems_bind, firstShape]
    rfl

end Report

/-- An outcome with the warnings found on the way. -/
structure Attempt (Problem Value : Type) where
  outcome : Except Problem Value
  warnings : List Str := []

namespace Attempt

variable {Problem First Second : Type}

/-- Continue with a successful outcome. -/
def andThen
    (first : Attempt Problem First) (next : First → Attempt Problem Second) :
    Attempt Problem Second :=
  match first.outcome with
  | .error problem =>
    { outcome := .error problem, warnings := first.warnings }
  | .ok value =>
    let second := next value
    { outcome := second.outcome
      warnings := first.warnings ++ second.warnings }

instance : Monad (Attempt Problem) where
  pure value := { outcome := .ok value }
  bind := andThen

/-- Stop with a problem. -/
def fail (problem : Problem) : Attempt Problem First :=
  { outcome := .error problem }

/-- Report a warning and continue. -/
def warn (text : Str) : Attempt Problem Unit :=
  { outcome := .ok (), warnings := [text] }

/-- Report the outcome of an attempt and continue either way. -/
def toReport (attempt : Attempt Problem First) :
    Report Problem (Option First) :=
  match attempt.outcome with
  | .ok value => { value := some value, warnings := attempt.warnings }
  | .error problem =>
    { value := none
      problems := [problem]
      warnings := attempt.warnings }

/-- The value of a successful attempt. -/
def result (attempt : Attempt Problem First) : Option First :=
  attempt.outcome.toOption

@[simp] theorem result_pure (value : First) :
    (pure value : Attempt Problem First).result = some value :=
  rfl

@[simp] theorem result_fail (problem : Problem) :
    (fail problem : Attempt Problem First).result = none :=
  rfl

@[simp] theorem result_warn (text : Str) :
    (warn text : Attempt Problem Unit).result = some () :=
  rfl

@[simp] theorem result_bind (first : Attempt Problem First)
    (next : First → Attempt Problem Second) :
    (first >>= next).result =
      first.result.bind fun value => (next value).result := by
  simp only [Bind.bind, andThen, result]
  cases first.outcome <;> rfl

@[simp] theorem result_ite (condition : Prop) [Decidable condition]
    (first second : Attempt Problem First) :
    (if condition then first else second).result =
      if condition then first.result else second.result :=
  apply_ite _ _ _ _

@[simp] theorem result_toReport (attempt : Attempt Problem First) :
    attempt.toReport.result = attempt.result.map some := by
  unfold toReport result
  cases attempt.outcome <;> rfl

end Attempt

end Policyd
