import Policyd.HeldSlots
import Policyd.IoUringSlots

namespace Policyd.IoUring

open ByteOrder HeldSlots
open Udp (Datagram Reply)

/-!
# Replies of the io_uring worker

The worker and the kernel share the buffers of the slots, and completions are
reaped long after the kernel has written or read a buffer.  The worker is
observed together with what the kernel delivers to it and sends for it.  The
discipline of the slots keeps every buffer as it is while an operation needs
it, so what is sent are answers to different messages.
-/

/-- What the kernel delivers of a datagram that fills a slot. -/
def delivery (datagram : Datagram) : Option Datagram :=
  if datagram.reported = kWireMsgSize then
    some { datagram with payload := datagram.payload.take kWireMsgSize }
  else
    none

/-- The reply in the buffer of an operation. -/
def replyIn (sendSlots : List IoSlot) : Op → Option Reply
  | .recv _ => none
  | .send slot =>
    sendSlots[slot]?.map fun io =>
      { payload := io.buf, destination := io.addr }

/-- The message in a buffer. -/
def IoSlot.message (io : IoSlot) : Datagram :=
  { payload := io.buf, source := io.addr }

/-- The message in the buffer of a completed operation. -/
def messageIn (recvSlots : List IoSlot) : Cqe → Option Datagram
  | ⟨.recv slot, .ok length⟩ =>
    if length = kWireMsgSize then
      some (recvSlots.getD slot IoSlot.init).message
    else
      none
  | _ => none

/-- Replies whose sending is not completed. -/
def Worker.pending (worker : Worker) : Multiset Reply :=
  items (replyIn worker.sendSlots) (worker.ring.queued ++ worker.ring.inFlight)

/-- Messages that were delivered and not reaped. -/
def Worker.unread (worker : Worker) : Multiset Datagram :=
  items (messageIn worker.recvSlots) worker.ring.completed

/-- A worker with the messages delivered to it and the replies sent for it. -/
structure Observed where
  worker : Worker
  arrived : Multiset Datagram := 0
  wire : Multiset Reply := 0

/-- What the kernel delivers with an action. -/
def Action.delivers : Action → Option Datagram
  | .complete _ (.received datagram) => delivery datagram
  | _ => none

/-- What the kernel sends with an action. -/
def Action.sends (sendSlots : List IoSlot) : Action → Option Reply
  | .complete op (.sent _) => replyIn sendSlots op
  | _ => none

/-- What is observed after an action. -/
def Observed.after
    (observed : Observed) (action : Action)
    (next : Worker) : Observed :=
  { worker := next
    arrived := action.delivers.toList + observed.arrived
    wire := (action.sends observed.worker.sendSlots).toList + observed.wire }

/-- One observed step. -/
def Observed.step
    (host : Endian) (observed : Observed)
    (action : Action) : Option Observed :=
  (IoUring.step host observed.worker action).map (observed.after action)

/-- A message with the rule set and the moment it is decided with. -/
structure Answer where
  message : Datagram
  ruleSet : RuleSet
  moment : Moment

/-- The reply of an answer, addressed to where the message came from. -/
def Answer.reply (host : Endian) (answer : Answer) : Reply :=
  { payload :=
      encode host
        (decisionOn host answer.ruleSet answer.moment answer.message.payload)
    destination := answer.message.source }

/-- A rule set that the worker loads in some round. -/
def LoadedIn (actions : List Action) (ruleSet : RuleSet) : Prop :=
  ∃ taken result, Action.submit taken result (some ruleSet) ∈ actions

/-- An answer with a rule set and at a moment of a run. -/
def Answer.GivenIn (actions : List Action) (answer : Answer) : Prop :=
  LoadedIn actions answer.ruleSet ∧ Action.reap answer.moment ∈ actions

/-- A worker that is not reaping with a rule set from elsewhere. -/
def Worker.CurrentIn (actions : List Action) (worker : Worker) : Prop :=
  ∀ ruleSet processed,
    worker.phase = .reaping (some ruleSet) processed → LoadedIn actions ruleSet

/--
What a worker has done between two states in which the kernel delivered some
messages and sent some replies: it gave answers to messages delivered or unread
before, and nothing else was sent or is pending now.
-/
structure Advance
    (host : Endian)
    (actions : List Action)
    (arrived : Multiset Datagram)
    (wire : Multiset Reply)
    (worker next : Worker) : Prop where
  recvLength : next.recvSlots.length = worker.recvSlots.length
  current : next.CurrentIn actions
  answers :
    ∃ answered : Multiset Answer,
      (∀ answer ∈ answered, answer.GivenIn actions) ∧
        answered.map Answer.message + next.unread ≤
          arrived + worker.unread ∧
        wire + next.pending ≤
          answered.map (Answer.reply host) + worker.pending

/-- Workers whose operations need the same of the same buffers. -/
structure SameBuffers (worker next : Worker) : Prop where
  pending : next.pending = worker.pending
  unread : next.unread = worker.unread
  recvLength : next.recvSlots.length = worker.recvSlots.length
  phase : next.phase = worker.phase

variable {host : Endian} {actions : List Action} {batch : Nat}
  {arrived : Multiset Datagram} {wire : Multiset Reply}
  {worker middle next : Worker} {idle : List Nat}

theorem sameBuffers_armRecv (worker : Worker) (slot : Nat) :
    SameBuffers worker (worker.armRecv slot) := by
  unfold Worker.armRecv Ring.getSqe
  split
  next ring queued =>
    split at queued <;> cases queued
    exact ⟨(items_middle _ _ _).trans (zero_add _), rfl, rfl, rfl⟩
  next =>
    exact ⟨rfl, rfl, rfl, rfl⟩

/-- Queueing a reply adds at most that reply to what is pending. -/
theorem Disciplined.pending_queueReply
    (disciplined : Disciplined batch worker idle) (host : Endian)
    (decision : PolicyDecision) (addr : SockAddr) (metrics : WorkerMetrics) :
    let queued :=
      Worker.queueReply host decision addr { worker with metrics := metrics }
    queued.pending ≤
        {{ payload := encode host decision, destination := addr }} +
          worker.pending ∧
      queued.unread = worker.unread ∧ queued.recvSlots = worker.recvSlots := by
  dsimp only
  unfold Worker.queueReply
  cases free : worker.freeSend with
  | nil => exact ⟨Multiset.le_add_left _ _, rfl, rfl⟩
  | cons slot rest =>
    have notBusy : Op.send slot ∉ worker.ops := by
      have once := disciplined.owned.sends slot
      rw [free, List.count_cons_self] at once
      refine List.count_eq_zero.mp ?_
      split at once <;> omega
    let sendSlots :=
      worker.sendSlots.set slot (IoSlot.write host decision addr)
    have others :
        items (replyIn sendSlots)
            (worker.ring.queued ++ worker.ring.inFlight) =
          worker.pending := by
      refine items_congr ?_
      intro op member
      cases op with
      | recv other => rfl
      | send other =>
        have apart : slot ≠ other := fun same =>
          notBusy (same ▸ List.mem_append_left _ member)
        rw [replyIn, List.getElem?_set_ne apart, replyIn]
    have written :
        ((replyIn sendSlots (.send slot)).toList : Multiset Reply) ≤
          {{ payload := encode host decision, destination := addr }} := by
      rw [replyIn, List.getElem?_set_self']
      cases worker.sendSlots[slot]? with
      | none => exact Multiset.zero_le _
      | some old => exact le_rfl
    dsimp only
    rw [disciplined.getSqe]
    refine ⟨(items_middle _ _ _).trans_le ?_, rfl, rfl⟩
    exact (congrArg _ others).trans_le (add_le_add_left written _)

/-- A buffer that the kernel has filled holds what it delivered. -/
theorem messageIn_fill {recvSlots : List IoSlot} {slot : Nat}
    (inside : slot < recvSlots.length) (io : IoSlot) (datagram : Datagram) :
    messageIn (recvSlots.set slot (io.fill datagram))
        ⟨.recv slot, .ok datagram.reported⟩ =
      delivery datagram := by
  unfold messageIn delivery
  dsimp only
  rw [List.getD_eq_getElem?_getD, List.getElem?_set_self inside]
  by_cases full : datagram.reported = kWireMsgSize
  · have nothingLeft : io.buf.drop datagram.payload.length = [] := by
      rw [List.drop_eq_nil_iff, io.bufFits, ← full]
      exact Nat.min_le_left _ _
    have filled :
        (io.fill datagram).buf = datagram.payload.take kWireMsgSize := by
      rw [IoSlot.fill]
      exact (congrArg _ nothingLeft).trans (List.append_nil _)
    rw [if_pos full, if_pos full, Option.getD_some, IoSlot.message, filled]
    rfl
  · rw [if_neg full, if_neg full]

namespace Advance

/-- What was done first and what was done then. -/
theorem trans {arrivedThen : Multiset Datagram} {wireThen : Multiset Reply}
    (first : Advance host actions arrived wire worker middle)
    (second : Advance host actions arrivedThen wireThen middle next) :
    Advance host actions (arrivedThen + arrived) (wireThen + wire)
      worker next := by
  obtain ⟨earlier, given, messages, replies⟩ := first.answers
  obtain ⟨later, laterGiven, laterMessages, laterReplies⟩ := second.answers
  refine
    { recvLength := second.recvLength.trans first.recvLength
      current := second.current
      answers := ⟨later + earlier, ?_, ?_, ?_⟩ }
  · intro answer member
    rcases Multiset.mem_add.mp member with isLater | isEarlier
    · exact laterGiven answer isLater
    · exact given answer isEarlier
  · calc
      _ = earlier.map Answer.message +
          (later.map Answer.message + next.unread) := by
        rw [Multiset.map_add, add_comm (later.map _), add_assoc]
      _ ≤ earlier.map Answer.message + (arrivedThen + middle.unread) :=
        add_le_add_right laterMessages _
      _ ≤ _ := by
        rw [add_left_comm, add_assoc]
        exact add_le_add_right messages _
  · calc
      _ = wire + (wireThen + next.pending) := by
        rw [← add_assoc, add_comm wire]
      _ ≤ wire + (later.map (Answer.reply host) + middle.pending) :=
        add_le_add_right laterReplies _
      _ ≤ _ := by
        rw [add_left_comm, Multiset.map_add, add_assoc]
        exact add_le_add_right replies _

/-- Nothing is answered by an action that only moves operations. -/
theorem quiet (recvLength : next.recvSlots.length = worker.recvSlots.length)
    (current : next.CurrentIn actions)
    (unread : next.unread ≤ arrived + worker.unread)
    (pending : wire + next.pending ≤ worker.pending) :
    Advance host actions arrived wire worker next :=
  { recvLength := recvLength
    current := current
    answers :=
      ⟨0, by simp, (zero_add _).trans_le unread,
        pending.trans_eq (zero_add _).symm⟩ }

theorem keep (advance : Advance host actions arrived wire worker middle)
    (same : SameBuffers middle next) :
    Advance host actions arrived wire worker next where
  recvLength := same.recvLength.trans advance.recvLength
  current := by
    unfold Worker.CurrentIn
    rw [same.phase]
    exact advance.current
  answers := by
    rw [same.unread, same.pending]
    exact advance.answers

end Advance

section Step

variable (disciplined : Disciplined batch worker [])
  (current : worker.CurrentIn actions)

include disciplined current

theorem advance_complete (recvLength : worker.recvSlots.length = batch)
    {op : Op} {outcome : Outcome}
    (submitted : op ∈ worker.ring.inFlight)
    (completes : worker.completed op outcome = some next) :
    Advance host actions (Action.complete op outcome).delivers.toList
      ((Action.complete op outcome).sends worker.sendSlots).toList worker
      next := by
  have released :
      worker.pending =
        (replyIn worker.sendSlots op).toList +
          items (replyIn worker.sendSlots)
            (worker.ring.queued ++ worker.ring.inFlight.erase op) := by
    rw [← items_cons]
    refine items_perm (.trans ?_ List.perm_middle)
    exact (List.perm_cons_erase submitted).append_left _
  have reapedLast (recvSlots : List IoSlot) (cqe : Cqe) :
      items (messageIn recvSlots) (worker.ring.completed ++ [cqe]) =
        (messageIn recvSlots cqe).toList +
          items (messageIn recvSlots) worker.ring.completed :=
    (items_perm (List.perm_append_singleton _ _)).trans (items_cons _ _)
  unfold Worker.completed at completes
  split at completes <;> cases completes
  case h_1 slot datagram =>
    have once := disciplined.owned.recvs slot
    have flying := List.count_pos_iff.mpr submitted
    rw [Worker.ops, List.count_append, List.count_append] at once
    have inside : slot < worker.recvSlots.length := by
      rw [recvLength]
      split at once <;> omega
    have notCompleted : Op.recv slot ∉ worker.ring.completed.map Cqe.op := by
      refine List.count_eq_zero.mp ?_
      split at once <;> omega
    refine .quiet (List.length_set ..) current (le_of_eq ?_) released.ge
    rw [Worker.unread, reapedLast, messageIn_fill inside]
    refine congrArg _ (items_congr ?_)
    intro cqe member
    unfold messageIn
    split
    next other length =>
      have apart : slot ≠ other := fun same =>
        notCompleted (List.mem_map.mpr ⟨_, member, congrArg _ same.symm⟩)
      rw [List.getD_eq_getElem?_getD, List.getElem?_set_ne apart,
        List.getD_eq_getElem?_getD]
    next =>
      rfl
  case h_2 slot bytes =>
    exact .quiet rfl current (reapedLast _ _).le released.ge
  case h_3 problem =>
    refine .quiet rfl current ?_ ?_
    · cases op <;> exact (reapedLast _ _).le
    · rw [released]
      exact add_le_add_left (Multiset.zero_le _) _

/-- Reaping a message in front of a rule set answers it. -/
theorem advance_answer
    {slot processed : Nat} {later : List Cqe} {ruleSet : RuleSet}
    {moment : Moment}
    (phase : worker.phase = .reaping (some ruleSet) processed)
    (oldest : worker.ring.completed = ⟨.recv slot, .ok kWireMsgSize⟩ :: later)
    (reaped : Action.reap moment ∈ actions) (count : Nat) :
    Advance host actions 0 0 worker
      { (worker.taken later).answer host ruleSet moment slot with
        phase := .reaping (some ruleSet) count } := by
  have loaded := current ruleSet processed phase
  have idle := disciplined.taken_recv oldest
  have unread :
      worker.unread =
        {((worker.taken later).recvSlot slot).message} +
          (worker.taken later).unread := by
    rw [Worker.unread, oldest, items_cons, messageIn, if_pos rfl]
    rfl
  have sameLength :
      (worker.taken later).recvSlots.length = worker.recvSlots.length := rfl
  have samePending : (worker.taken later).pending = worker.pending := rfl
  generalize worker.taken later = taken at *
  have decision :=
    decideDatagram_fst host ruleSet moment (taken.recvSlot slot).buf
      taken.metrics
  unfold Worker.answer
  dsimp only
  generalize decideDatagram host ruleSet moment (taken.recvSlot slot).buf
    taken.metrics = decided at decision ⊢
  obtain ⟨pending, unreadKept, recvSlots⟩ :=
    idle.pending_queueReply host decided.1 (taken.recvSlot slot).addr decided.2
  let answer : Answer :=
    { message := (taken.recvSlot slot).message
      ruleSet := ruleSet
      moment := moment }
  refine
    { recvLength := (congrArg List.length recvSlots).trans sameLength
      current := ?_
      answers := ⟨{answer}, ?_, ?_, ?_⟩ }
  · rintro _ _ ⟨⟩
    exact loaded
  · intro other member
    rw [Multiset.mem_singleton.mp member]
    exact ⟨loaded, reaped⟩
  · rw [zero_add, unread, Multiset.map_singleton]
    exact (congrArg _ unreadKept).le
  · have reply :
        answer.reply host =
          { payload := encode host decided.1
            destination := (taken.recvSlot slot).addr } := by
      rw [decision]
      rfl
    rw [zero_add, Multiset.map_singleton, reply, ← samePending]
    exact pending

/-- Reaping a message answers it; the other completions need no answer. -/
theorem advance_reap
    {cqe : Cqe} {later : List Cqe} {ruleSet : Option RuleSet} {processed : Nat}
    {moment : Moment}
    (phase : worker.phase = .reaping ruleSet processed)
    (oldest : worker.ring.completed = cqe :: later)
    (reaped : Action.reap moment ∈ actions) :
    Advance host actions 0 0 worker
      ((worker.taken later).reap host moment ruleSet processed cqe) := by
  have dropped (metrics : WorkerMetrics) :
      Advance host actions 0 0 worker
        { worker.taken later with metrics := metrics } := by
    refine .quiet rfl current ?_ (zero_add _).le
    rw [zero_add, Worker.unread, Worker.unread, oldest, items_cons]
    exact Multiset.le_add_left _ _
  obtain ⟨op, res⟩ := cqe
  cases op with
  | send slot =>
    exact (dropped (Worker.countSend worker.metrics res)).keep
      ⟨rfl, rfl, rfl, rfl⟩
  | recv slot =>
    have rearmed := fun metrics =>
      (dropped metrics).keep (sameBuffers_armRecv _ slot)
    cases res with
    | error problem =>
      exact rearmed (Worker.countRecvError worker.metrics problem)
    | ok length =>
      unfold Worker.reap
      dsimp only
      by_cases full : length = kWireMsgSize
      · rw [if_neg (not_not.mpr full)]
        cases ruleSet with
        | none => exact rearmed worker.metrics
        | some ruleSet =>
          subst full
          exact (advance_answer disciplined current phase oldest reaped _).keep
            (sameBuffers_armRecv _ slot)
      · rw [if_pos full]
        exact rearmed _

theorem advance_step (recvLength : worker.recvSlots.length = batch)
    {action : Action}
    (member : action ∈ actions)
    (stepped : step host worker action = some next) :
    Advance host actions action.delivers.toList
      (action.sends worker.sendSlots).toList worker next := by
  unfold IoUring.step at stepped
  cases action with
  | submit taken result ruleSet =>
    dsimp only at stepped
    split at stepped
    · cases stepped
    · split at stepped <;> cases stepped
      refine .quiet rfl ?_ (zero_add _).ge ((zero_add _).trans ?_).le
      · intro other processed
        dsimp only
        split
        · rintro ⟨⟩
        · rintro ⟨⟩
          exact ⟨taken, result, member⟩
      · refine items_perm ?_
        rw [← List.append_assoc]
        refine List.perm_append_comm.trans (List.Perm.of_eq ?_)
        rw [← List.append_assoc, List.take_append_drop]
  | complete op outcome =>
    dsimp only at stepped
    split at stepped
    case isTrue submitted =>
      exact advance_complete disciplined current recvLength submitted stepped
    case isFalse =>
      cases stepped
  | reap moment =>
    dsimp only at stepped
    split at stepped <;> cases stepped
    case h_1 ruleSet processed cqe later phase oldest =>
      exact advance_reap disciplined current phase oldest member
  | finish =>
    dsimp only at stepped
    split at stepped <;> cases stepped
    refine .quiet rfl ?_ (zero_add _).ge (zero_add _).le
    rintro _ _ ⟨⟩

end Step

theorem sameBuffers_armAll (slots : List Nat) (worker : Worker) :
    SameBuffers worker (worker.armAll slots) := by
  induction slots generalizing worker with
  | nil => exact ⟨rfl, rfl, rfl, rfl⟩
  | cons slot later inductionHypothesis =>
    have armed := sameBuffers_armRecv worker slot
    rw [Worker.armAll]
    split
    · have rest := inductionHypothesis (worker.armRecv slot)
      exact ⟨rest.pending.trans armed.pending, rest.unread.trans armed.unread,
        rest.recvLength.trans armed.recvLength, rest.phase.trans armed.phase⟩
    · exact armed

/--
In every run the replies that were sent answer different messages among those
that were delivered.  A reply goes to where its message came from and carries
the decision on that message, with a rule set and at a moment of the run.
-/
theorem replies_answer_different_messages {capacity : Nat}
    (positive : 1 ≤ batch) (bounded : batch ≤ 1024)
    (roomy : Worker.entries batch ≤ capacity)
    {observed : Observed}
    (ran :
      runActions (Observed.step host)
          { worker := Worker.start batch capacity } actions =
        some observed) :
    ∃ answered : Multiset Answer,
      (∀ answer ∈ answered, answer.GivenIn actions) ∧
        answered.map Answer.message ≤ observed.arrived ∧
        observed.wire ≤ answered.map (Answer.reply host) := by
  have fits : batch * 4 ≤ capacity := by
    rw [Worker.entries, Nat.mod_eq_of_lt (by omega)] at roomy
    exact (LinearProbing.le_doubleTo (by decide) (by omega)).trans roomy
  have same :=
    sameBuffers_armAll (List.range batch) (Worker.unarmed batch capacity)
  have advanced :
      Disciplined batch observed.worker [] ∧
        Advance host actions observed.arrived observed.wire
          (Worker.unarmed batch capacity) observed.worker := by
    refine
      invariant_of_run
        (fun state : Observed =>
          Disciplined batch state.worker [] ∧
            Advance host actions state.arrived state.wire
              (Worker.unarmed batch capacity) state.worker)
        ?_ (fun _ member => member) ?_ ran
    · rintro state next action member ⟨disciplined, advance⟩ stepped
      obtain ⟨worker, moved, rfl⟩ := Option.map_eq_some_iff.mp stepped
      exact ⟨disciplined.step moved,
        advance.trans
          (advance_step disciplined advance.current
            (advance.recvLength.trans List.length_replicate) member moved)⟩
    · refine
        ⟨disciplined_armAll (disciplined_unarmed positive bounded fits), ?_⟩
      refine .keep (.quiet rfl ?_ (zero_add _).ge (zero_add _).le) same
      rintro _ _ ⟨⟩
  obtain ⟨answered, given, messages, replies⟩ := advanced.2.answers
  have messages := messages.trans_eq (add_zero _)
  have replies := replies.trans_eq (add_zero _)
  exact ⟨answered, given, (Multiset.le_add_right _ _).trans messages,
    (Multiset.le_add_right _ _).trans replies⟩

/-- A message is received and answered. -/
def answeredOnce : List Action :=
  [.submit 1 .done (some {}),
    .complete (.recv 0)
      (.received { payload := List.replicate 64 0, source := {} }),
    .reap { lookup := fun _ => none, now := 0, serverTsNs := 0 },
    .finish,
    .submit 2 .done (some {}),
    .complete (.send 0) (.sent 64)]

/-- The reply of a worker of one answers the one message. -/
theorem replies_answer_different_messages_once :
    ∃ observed,
      runActions (Observed.step .little) { worker := Worker.start 1 8 }
          answeredOnce =
        some observed ∧
        observed.wire.card = 1 ∧
        ∃ answered : Multiset Answer,
          answered.map Answer.message ≤ observed.arrived ∧
            observed.wire ≤ answered.map (Answer.reply .little) := by
  have runs :
      (runActions (Observed.step .little) { worker := Worker.start 1 8 }
        answeredOnce).map (·.wire.card) = some 1 := rfl
  obtain ⟨observed, ran, one⟩ := Option.map_eq_some_iff.mp runs
  obtain ⟨answered, _, messages, replies⟩ :=
    replies_answer_different_messages (by decide) (by decide) (by decide) ran
  exact ⟨observed, ran, one, answered, messages, replies⟩

end Policyd.IoUring
