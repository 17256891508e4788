import Policyd.HeldSlots
import Policyd.WireFormat

namespace Policyd.Loadgen

/-!
# What the load generator reports

Every sender thread of `loadgen.cpp` fills one `ThreadResult`.  A histogram is
the list of values recorded in it; the timeline is not modelled, and counters
are natural numbers.  The loops of `run_open_loop` are given over what one
attempt to send and one iteration do, for both protocols.
-/

/-- The counters and samples of one thread. -/
structure ThreadResult where
  latency : List Int64 := []
  sendLateness : List Int64 := []
  sent : Nat := 0
  received : Nat := 0
  measuredReceived : Nat := 0
  lost : Nat := 0
  sendErrors : Nat := 0
  badReplies : Nat := 0
  staleReplies : Nat := 0
  denied : Nat := 0
  allowed : Nat := 0
  redirected : Nat := 0
  scheduleSlips : Nat := 0
  maxSlipNs : UInt64 := 0
  connectionStarved : Nat := 0
  reconnects : Nat := 0
deriving Repr, DecidableEq

/-- The options of a run, the times in nanoseconds. -/
structure Options where
  warmupEndNs : UInt64
  endNs : UInt64
  timeoutNs : UInt64
  intervalNs : UInt64
  batchRecv : Nat
deriving Repr, DecidableEq

namespace ThreadResult

/-- A reply has come back. -/
def complete
    (result : ThreadResult) (scheduledNs recvNs : UInt64) (inWindow : Bool) :
    ThreadResult :=
  let received := { result with received := result.received + 1 }
  if inWindow then
    { received with
      measuredReceived := received.measuredReceived + 1
      latency := received.latency ++ [(recvNs - scheduledNs).toInt64] }
  else
    received

/-- Count the verdict of a reply; an unknown one is not counted. -/
def noteVerdict (result : ThreadResult) (verdict : UInt8) : ThreadResult :=
  if verdict = Verdict.allow.code then
    { result with allowed := result.allowed + 1 }
  else if verdict = Verdict.deny.code then
    { result with denied := result.denied + 1 }
  else if verdict = Verdict.redirect.code then
    { result with redirected := result.redirected + 1 }
  else
    result

/-- Note that a send is more than one interval late. -/
def noteSlip (result : ThreadResult) (intervalNs slip : UInt64) :
    ThreadResult :=
  if intervalNs < slip then
    { result with
      scheduleSlips := result.scheduleSlips + 1
      maxSlipNs := max result.maxSlipNs slip }
  else
    result

/-- Note that a request has been sent. -/
def noteSent
    (result : ThreadResult) (scheduledNs issueAt : UInt64) (measuring : Bool) :
    ThreadResult :=
  let sent := { result with sent := result.sent + 1 }
  if measuring then
    { sent with
      sendLateness := sent.sendLateness ++ [(issueAt - scheduledNs).toInt64] }
  else
    sent

/-- The counters that account for the requests, and the samples. -/
structure Balance where
  sent : Nat
  received : Nat
  lost : Nat
  latency : List Int64
deriving Repr, DecidableEq

/-- What a result says about the requests. -/
def balance (result : ThreadResult) : Balance where
  sent := result.sent
  received := result.received
  lost := result.lost
  latency := result.latency

@[simp]
theorem balance_noteVerdict (result : ThreadResult) (verdict : UInt8) :
    (result.noteVerdict verdict).balance = result.balance := by
  simp only [noteVerdict, apply_ite balance]
  simp only [balance, ite_self]

@[simp]
theorem balance_noteSlip (result : ThreadResult) (intervalNs slip : UInt64) :
    (result.noteSlip intervalNs slip).balance = result.balance := by
  simp only [noteSlip, apply_ite balance]
  simp only [balance, ite_self]

@[simp]
theorem balance_noteSent
    (result : ThreadResult) (scheduledNs issueAt : UInt64) (measuring : Bool) :
    (result.noteSent scheduledNs issueAt measuring).balance =
      { result.balance with sent := result.balance.sent + 1 } := by
  cases measuring <;> rfl

@[simp]
theorem balance_complete
    (result : ThreadResult) (scheduledNs recvNs : UInt64) (inWindow : Bool) :
    (result.complete scheduledNs recvNs inWindow).balance =
      { result.balance with
        received := result.balance.received + 1
        latency := result.balance.latency ++
          if inWindow then [(recvNs - scheduledNs).toInt64] else [] } := by
  cases inWindow with
  | false => simp [complete, balance]
  | true => rfl

end ThreadResult

section Loops

variable {Sender Call Turn Input : Type}

/-- Send what is due: at most 256 requests, and none after a failure. -/
def sendDue (attempt : Sender → Call → Bool × Sender) :
    Nat → Sender → List Call → Sender
  | _, sender, [] => sender
  | burst, sender, call :: later =>
    if burst < 256 then
      if (attempt sender call).1 then
        sendDue attempt (burst + 1) (attempt sender call).2 later
      else
        (attempt sender call).2
    else
      sender

/-- Iterate until the window closes or the run is stopped. -/
def runTurns
    (now : Turn → UInt64) (turn : Sender → Turn → Sender) (endNs : UInt64) :
    Sender → List Turn → Sender
  | sender, [] => sender
  | sender, env :: later =>
    if endNs ≤ now env then
      sender
    else
      runTurns now turn endNs (turn sender env) later

variable {Action : Type}

/-- The code passes from one state to another by actions. -/
def Reaches (act : Sender → Action → Sender) (sender next : Sender) :
    Prop :=
  ∃ actions : List Action, next = actions.foldl act sender

variable {act : Sender → Action → Sender} {sender middle next : Sender}

theorem Reaches.refl (sender : Sender) : Reaches act sender sender :=
  ⟨[], rfl⟩

theorem Reaches.trans
    (first : Reaches act sender middle) (second : Reaches act middle next) :
    Reaches act sender next := by
  obtain ⟨early, rfl⟩ := first
  obtain ⟨late, rfl⟩ := second
  exact ⟨early ++ late, List.foldl_append.symm⟩

theorem reaches_act (sender : Sender) (action : Action) :
    Reaches act sender (act sender action) :=
  ⟨[action], rfl⟩

theorem reaches_foldl {body : Sender → Input → Sender}
    (each : ∀ sender input, Reaches act sender (body sender input))
    (sender : Sender) (inputs : List Input) :
    Reaches act sender (inputs.foldl body sender) := by
  induction inputs generalizing sender with
  | nil => exact Reaches.refl sender
  | cons input later inductionHypothesis =>
    exact (each sender input).trans (inductionHypothesis _)

theorem reaches_sendDue {attempt : Sender → Call → Bool × Sender}
    (each : ∀ sender call, Reaches act sender (attempt sender call).2)
    (burst : Nat) (sender : Sender) (calls : List Call) :
    Reaches act sender (sendDue attempt burst sender calls) := by
  induction calls generalizing burst sender with
  | nil => exact Reaches.refl sender
  | cons call later inductionHypothesis =>
    rw [sendDue]
    by_cases room : burst < 256
    · rw [if_pos room]
      by_cases taken : (attempt sender call).1 = true
      · rw [if_pos taken]
        exact (each sender call).trans (inductionHypothesis _ _)
      · rw [if_neg taken]
        exact each sender call
    · rw [if_neg room]
      exact Reaches.refl sender

theorem reaches_runTurns {now : Turn → UInt64} {turn : Sender → Turn → Sender}
    (each : ∀ sender env, Reaches act sender (turn sender env))
    (endNs : UInt64) (sender : Sender) (turns : List Turn) :
    Reaches act sender (runTurns now turn endNs sender turns) := by
  induction turns generalizing sender with
  | nil => exact Reaches.refl sender
  | cons env later inductionHypothesis =>
    rw [runTurns]
    by_cases closed : endNs ≤ now env
    · rw [if_pos closed]
      exact Reaches.refl sender
    · rw [if_neg closed]
      exact (each sender env).trans (inductionHypothesis _)

end Loops

end Policyd.Loadgen
