import Policyd.IoUringWorker

namespace Policyd.IoUring

open ByteOrder

/-!
# Slot discipline of the io_uring worker

Every receive slot has exactly one operation, and every send slot is either
free or has exactly one.  So there are never more than three operations for
each receive slot, the submission ring never fills up, and no operation is
lost.
-/

/-- The operations of a worker: queued, in flight, or waiting to be reaped. -/
def Worker.ops (worker : Worker) : List Op :=
  worker.ring.queued ++ worker.ring.inFlight ++
    worker.ring.completed.map Cqe.op

/--
Who owns which slot: a receive slot is idle or has one operation, a send slot
is free or has one operation.
-/
structure Owned
    (batch : Nat)
    (ops : List Op)
    (free idle : List Nat) : Prop where
  recvs : ∀ slot,
    ops.count (.recv slot) + idle.count slot = if slot < batch then 1 else 0
  sends : ∀ slot,
    ops.count (.send slot) + free.count slot =
      if slot < batch * 2 then 1 else 0

namespace Owned

variable {batch : Nat}
variable {ops others : List Op}
variable {free idle : List Nat}
variable {slot : Nat}

theorem perm (owned : Owned batch ops free idle) (moved : ops.Perm others) :
    Owned batch others free idle :=
  { recvs := fun slot => by rw [← moved.count_eq, owned.recvs]
    sends := fun slot => by rw [← moved.count_eq, owned.sends] }

theorem count_given {kind : Nat → Op}
    (injective : Function.Injective kind) (waiting : List Nat) (other : Nat) :
    (kind slot :: ops).count (kind other) + waiting.count other =
      ops.count (kind other) + (slot :: waiting).count other := by
  by_cases same : slot = other
  · subst same
    rw [List.count_cons_self, List.count_cons_self]
    omega
  · rw [List.count_cons_of_ne (injective.ne same), List.count_cons_of_ne same]

/-- Reaping a receive leaves its slot idle, and arming it again ends that. -/
theorem recv_iff :
    Owned batch (.recv slot :: ops) free idle ↔
      Owned batch ops free (slot :: idle) := by
  have moves : ∀ other,
      (Op.recv slot :: ops).count (.recv other) + idle.count other =
        ops.count (.recv other) + (slot :: idle).count other :=
    count_given (fun _ _ => Op.recv.inj) idle
  have stays : ∀ other,
      (Op.recv slot :: ops).count (.send other) = ops.count (.send other) :=
    fun other => List.count_cons_of_ne (by simp)
  constructor
  · intro owned
    exact
      { recvs := fun other => by rw [← moves, owned.recvs]
        sends := fun other => by rw [← stays, owned.sends] }
  · intro owned
    exact
      { recvs := fun other => by rw [moves, owned.recvs]
        sends := fun other => by rw [stays, owned.sends] }

/-- Queueing a send takes its slot, and reaping it frees the slot. -/
theorem send_iff :
    Owned batch (.send slot :: ops) free idle ↔
      Owned batch ops (slot :: free) idle := by
  have moves : ∀ other,
      (Op.send slot :: ops).count (.send other) + free.count other =
        ops.count (.send other) + (slot :: free).count other :=
    count_given (fun _ _ => Op.send.inj) free
  have stays : ∀ other,
      (Op.send slot :: ops).count (.recv other) = ops.count (.recv other) :=
    fun other => List.count_cons_of_ne (by simp)
  constructor
  · intro owned
    exact
      { recvs := fun other => by rw [← stays, owned.recvs]
        sends := fun other => by rw [← moves, owned.sends] }
  · intro owned
    exact
      { recvs := fun other => by rw [stays, owned.recvs]
        sends := fun other => by rw [moves, owned.sends] }

theorem nodup (owned : Owned batch ops free idle) : ops.Nodup := by
  rw [List.nodup_iff_count_le_one]
  intro op
  cases op with
  | recv slot =>
    have once := owned.recvs slot
    split at once <;> omega
  | send slot =>
    have once := owned.sends slot
    split at once <;> omega

/-- There are at most three operations for each receive slot. -/
theorem length_le (owned : Owned batch ops free idle) :
    ops.length ≤ batch * 3 := by
  have known :
      ops ⊆ (List.range batch).map Op.recv ++
        (List.range (batch * 2)).map Op.send := by
    intro op member
    have present := List.count_pos_iff.mpr member
    rw [List.mem_append]
    cases op with
    | recv slot =>
      have once := owned.recvs slot
      refine .inl (List.mem_map_of_mem (List.mem_range.mpr ?_))
      split at once <;> omega
    | send slot =>
      have once := owned.sends slot
      refine .inr (List.mem_map_of_mem (List.mem_range.mpr ?_))
      split at once <;> omega
  have bounded := (owned.nodup.subperm known).length_le
  simp only [List.length_append, List.length_map, List.length_range] at bounded
  omega

end Owned

/-- Every decision was sent, has failed, or has a send outstanding. -/
def Settled (m : WorkerMetrics) (outstanding : Nat) : Prop :=
  m.requests + m.badMagic =
    m.repliesSent + m.sendFailures + UInt64.ofNat outstanding

/-- The sends of a worker that have not been reaped. -/
def Worker.outstanding (worker : Worker) : Nat :=
  worker.ops.countP Op.isSend

/-- The discipline of a worker with some receive slots idle. -/
structure Disciplined
    (batch : Nat)
    (worker : Worker)
    (idle : List Nat) : Prop where
  positive : 0 < batch
  roomy : batch * 4 ≤ worker.ring.capacity
  owned : Owned batch worker.ops worker.freeSend idle
  neverFull : worker.nullSqes = 0
  settled : Settled worker.metrics worker.outstanding

private theorem ops_queued (worker : Worker) (op : Op) :
    (op :: worker.ops).Perm
      (worker.ring.queued ++ [op] ++ worker.ring.inFlight ++
        worker.ring.completed.map Cqe.op) := by
  unfold Worker.ops
  rw [List.append_assoc _ [op], List.append_assoc, List.append_assoc]
  exact List.perm_middle.symm

variable {batch : Nat} {worker next : Worker} {idle : List Nat}
  {later : List Cqe}

theorem Disciplined.getSqe
    (disciplined : Disciplined batch worker idle) (op : Op) :
    worker.ring.getSqe op =
      some { worker.ring with queued := worker.ring.queued ++ [op] } := by
  have bounded := disciplined.owned.length_le
  have positive := disciplined.positive
  have roomy := disciplined.roomy
  unfold Worker.ops at bounded
  rw [List.length_append, List.length_append] at bounded
  unfold Ring.getSqe
  rw [if_pos]
  omega

/-- An idle receive slot is armed. -/
theorem Disciplined.armRecv
    {slot : Nat} (disciplined : Disciplined batch worker (slot :: idle)) :
    Disciplined batch (worker.armRecv slot) idle := by
  have moved := ops_queued worker (.recv slot)
  unfold Worker.armRecv
  rw [disciplined.getSqe]
  refine
    { disciplined with
      owned := (Owned.recv_iff.mpr disciplined.owned).perm moved
      settled := ?_ }
  have sameSends :
      (Op.recv slot :: worker.ops).countP Op.isSend =
        worker.ops.countP Op.isSend :=
    List.countP_cons_of_neg (by simp [Op.isSend])
  rw [Worker.outstanding, Worker.ops, ← moved.countP_eq, sameSends]
  exact disciplined.settled

/-- A reply is queued or dropped, and either way settled. -/
theorem Disciplined.queueReply
    (disciplined : Disciplined batch worker idle) (host : Endian)
    (decision : PolicyDecision) (addr : SockAddr)
    {metrics : WorkerMetrics}
    (decided : worker.metrics.Decided metrics) :
    Disciplined batch
      (Worker.queueReply host decision addr
        { worker with metrics := metrics }) idle := by
  have settled := disciplined.settled
  have owned := disciplined.owned
  unfold Settled at settled
  unfold Worker.queueReply
  cases free : worker.freeSend with
  | nil =>
    rw [free] at owned
    refine
      { disciplined with
        owned := owned
        settled := ?_ }
    show metrics.requests + metrics.badMagic =
      metrics.repliesSent + (metrics.sendFailures + 1) +
        UInt64.ofNat worker.outstanding
    rw [decided.decided, decided.repliesSent, decided.sendFailures, settled]
    ac_rfl
  | cons slot rest =>
    have moved := ops_queued worker (.send slot)
    rw [free] at owned
    dsimp only
    rw [disciplined.getSqe]
    refine
      { disciplined with
        owned := (Owned.send_iff.mpr owned).perm moved
        settled := ?_ }
    have oneMore :
        (Op.send slot :: worker.ops).countP Op.isSend =
          worker.outstanding + 1 :=
      List.countP_cons_of_pos rfl
    have outstandingNat :
        UInt64.ofNat (worker.outstanding + 1) =
          UInt64.ofNat worker.outstanding + 1 :=
      UInt64.ofNat_add ..
    rw [Worker.outstanding, Worker.ops, ← moved.countP_eq, oneMore,
      Settled, outstandingNat]
    dsimp only
    rw [decided.decided, decided.repliesSent, decided.sendFailures, settled]
    ac_rfl

theorem settled_countSend {m : WorkerMetrics} {outstanding : Nat}
    (settled : Settled m (outstanding + 1)) (res : Except Udp.Errno Nat) :
    Settled (Worker.countSend m res) outstanding := by
  have oneLess :
      UInt64.ofNat (outstanding + 1) = UInt64.ofNat outstanding + 1 :=
    UInt64.ofNat_add ..
  unfold Settled at settled ⊢
  rw [oneLess] at settled
  cases res with
  | ok bytes =>
    show m.requests + m.badMagic =
      m.repliesSent + 1 + m.sendFailures + UInt64.ofNat outstanding
    rw [settled]
    ac_rfl
  | error problem =>
    have failed :
        m.requests + m.badMagic =
          m.repliesSent + (m.sendFailures + 1) +
            UInt64.ofNat outstanding := by
      rw [settled]
      ac_rfl
    cases problem <;> exact failed

theorem Disciplined.withMetrics (disciplined : Disciplined batch worker idle)
    {metrics : WorkerMetrics}
    (settled : Settled metrics worker.outstanding) :
    Disciplined batch { worker with metrics := metrics } idle :=
  { disciplined with settled := settled }

/-- A completion is taken off its queue. -/
def Worker.taken (worker : Worker) (later : List Cqe) : Worker :=
  { worker with ring := { worker.ring with completed := later } }

private theorem ops_taken
    {cqe : Cqe} (oldest : worker.ring.completed = cqe :: later) :
    worker.ops.Perm (cqe.op :: (worker.taken later).ops) := by
  unfold Worker.ops Worker.taken
  rw [oldest, List.map_cons]
  exact List.perm_middle

/-- A reaped receive leaves its slot idle. -/
theorem Disciplined.taken_recv {slot : Nat} {res : Except Udp.Errno Nat}
    (disciplined : Disciplined batch worker [])
    (oldest : worker.ring.completed = ⟨.recv slot, res⟩ :: later) :
    Disciplined batch (worker.taken later) [slot] := by
  have moved := ops_taken oldest
  refine
    { disciplined with
      owned := Owned.recv_iff.mp (disciplined.owned.perm moved)
      settled := ?_ }
  have sameSends : worker.outstanding = (worker.taken later).outstanding := by
    rw [Worker.outstanding, moved.countP_eq]
    exact List.countP_cons_of_neg (by simp [Op.isSend])
  rw [← sameSends]
  exact disciplined.settled

/-- Deciding a message and queueing the reply keeps the discipline. -/
theorem Disciplined.answer
    (disciplined : Disciplined batch worker idle) (host : Endian)
    (ruleSet : RuleSet) (moment : Moment) (slot : Nat) :
    Disciplined batch (worker.answer host ruleSet moment slot) idle := by
  have queued :=
    disciplined.queueReply host
      (decideDatagram host ruleSet moment (worker.recvSlot slot).buf
        worker.metrics).1
      (worker.recvSlot slot).addr
      (decided_decideDatagram host ruleSet moment (worker.recvSlot slot).buf
        worker.metrics)
  exact queued.withMetrics queued.settled

theorem Disciplined.reap {cqe : Cqe} (disciplined : Disciplined batch worker [])
    (oldest : worker.ring.completed = cqe :: later) (host : Endian)
    (moment : Moment) (current : Option RuleSet) (processed : Nat) :
    Disciplined batch
      ((worker.taken later).reap host moment current processed cqe) [] := by
  obtain ⟨op, res⟩ := cqe
  cases op with
  | send slot =>
    have moved := ops_taken oldest
    have oneLess :
        worker.outstanding = (worker.taken later).outstanding + 1 := by
      rw [Worker.outstanding, moved.countP_eq]
      exact List.countP_cons_of_pos rfl
    have settled := disciplined.settled
    rw [oneLess] at settled
    exact
      { disciplined with
        owned := Owned.send_iff.mp (disciplined.owned.perm moved)
        settled := settled_countSend settled res }
  | recv slot =>
    have idle := disciplined.taken_recv oldest
    cases res with
    | error problem =>
      refine Disciplined.armRecv (idle.withMetrics ?_)
      cases problem <;> exact idle.settled
    | ok length =>
      unfold Worker.reap
      dsimp only
      by_cases full : length = kWireMsgSize
      · rw [if_neg (not_not.mpr full)]
        cases current with
        | none => exact idle.armRecv
        | some ruleSet =>
          have answered := idle.answer host ruleSet moment slot
          exact Disciplined.armRecv { answered with }
      · rw [if_pos full]
        exact Disciplined.armRecv (idle.withMetrics idle.settled)

/-- The kernel completes an operation and writes nothing but its slot. -/
theorem completed_spec {op : Op} {outcome : Outcome}
    (completes : worker.completed op outcome = some next) :
    ∃ recvSlots res,
      next =
        { worker with
          recvSlots := recvSlots
          ring :=
            { worker.ring with
              inFlight := worker.ring.inFlight.erase op
              completed := worker.ring.completed ++ [⟨op, res⟩] } } := by
  unfold Worker.completed at completes
  split at completes <;> cases completes
  · exact ⟨_, _, rfl⟩
  · exact ⟨worker.recvSlots, _, rfl⟩
  · exact ⟨worker.recvSlots, _, rfl⟩

/-- Operations that only move keep the discipline. -/
theorem Disciplined.moved (disciplined : Disciplined batch worker [])
    (sameCapacity : next.ring.capacity = worker.ring.capacity)
    (sameFree : next.freeSend = worker.freeSend)
    (sameNulls : next.nullSqes = worker.nullSqes)
    (settles :
      Settled worker.metrics worker.outstanding →
        Settled next.metrics worker.outstanding)
    (moved : worker.ops.Perm next.ops) :
    Disciplined batch next [] :=
  { positive := disciplined.positive
    roomy := by rw [sameCapacity]; exact disciplined.roomy
    owned := by
      rw [sameFree]
      exact disciplined.owned.perm moved
    neverFull := by rw [sameNulls]; exact disciplined.neverFull
    settled := by
      rw [Worker.outstanding, ← moved.countP_eq]
      exact settles disciplined.settled }

/-- Submitting moves operations from the queue to the kernel. -/
private theorem ops_submitted (worker : Worker) (taken : Nat) :
    worker.ops.Perm
      (worker.ring.queued.drop taken ++
          (worker.ring.inFlight ++ worker.ring.queued.take taken) ++
        worker.ring.completed.map Cqe.op) := by
  refine List.Perm.append_right _ ?_
  calc worker.ring.queued ++ worker.ring.inFlight
      = worker.ring.queued.take taken ++
          (worker.ring.queued.drop taken ++ worker.ring.inFlight) := by
        rw [← List.append_assoc, List.take_append_drop]
    _ |>.Perm
        (worker.ring.queued.drop taken ++ worker.ring.inFlight ++
          worker.ring.queued.take taken) := List.perm_append_comm
    _ = worker.ring.queued.drop taken ++
          (worker.ring.inFlight ++ worker.ring.queued.take taken) :=
        List.append_assoc ..

private theorem ops_completed {op : Op}
    (submitted : op ∈ worker.ring.inFlight) (res : Except Udp.Errno Nat) :
    worker.ops.Perm
      (worker.ring.queued ++ worker.ring.inFlight.erase op ++
        (worker.ring.completed ++ [Cqe.mk op res]).map Cqe.op) := by
  unfold Worker.ops
  rw [List.append_assoc, List.append_assoc, List.map_append]
  refine List.Perm.append_left _ ?_
  refine ((List.perm_cons_erase submitted).append_right _).trans ?_
  exact (List.perm_append_singleton op _).symm.trans
    (List.Perm.of_eq (List.append_assoc ..))

theorem Disciplined.step {host : Endian} {action : Action}
    (disciplined : Disciplined batch worker [])
    (stepped : step host worker action = some next) :
    Disciplined batch next [] := by
  cases action with
  | submit taken result current =>
    unfold IoUring.step at stepped
    dsimp only at stepped
    split at stepped
    · cases stepped
    · split at stepped
      · cases stepped
        exact disciplined.moved rfl rfl rfl id (ops_submitted worker taken)
      · cases stepped
  | complete op outcome =>
    unfold IoUring.step at stepped
    dsimp only at stepped
    split at stepped
    case isTrue submitted =>
      obtain ⟨_, _, rfl⟩ := completed_spec stepped
      refine disciplined.moved rfl rfl rfl id ?_
      exact ops_completed submitted _
    case isFalse =>
      cases stepped
  | reap moment =>
    unfold IoUring.step at stepped
    dsimp only at stepped
    split at stepped
    case h_1 current processed cqe later _ oldest =>
      cases stepped
      exact disciplined.reap oldest host moment current processed
    case h_2 =>
      cases stepped
  | finish =>
    unfold IoUring.step at stepped
    dsimp only at stepped
    split at stepped
    case h_1 =>
      cases stepped
      refine disciplined.moved rfl rfl rfl ?_ (List.Perm.refl _)
      intro settled
      unfold Worker.countRound
      split <;> exact settled
    case h_2 =>
      cases stepped

/-- Before anything is armed all receive slots are idle. -/
theorem disciplined_unarmed {capacity : Nat}
    (positive : 0 < batch) (bounded : batch ≤ 1024)
    (roomy : batch * 4 ≤ capacity) :
    Disciplined batch (Worker.unarmed batch capacity) (List.range batch) := by
  have once : ∀ size slot,
      (List.range size).count slot = if slot < size then 1 else 0 := by
    intro size slot
    rw [List.nodup_range.count]
    simp only [List.mem_range]
  have poolSize : batch * 2 % 2 ^ 32 = batch * 2 := by
    omega
  exact
    { positive := positive
      roomy := roomy
      owned :=
        { recvs := fun slot => (Nat.zero_add _).trans (once _ _)
          sends := fun slot => by
            rw [Worker.unarmed, poolSize]
            exact (Nat.zero_add _).trans (once _ _) }
      neverFull := rfl
      settled := rfl }

theorem disciplined_armAll (disciplined : Disciplined batch worker idle) :
    Disciplined batch (Worker.armAll idle worker) [] := by
  induction idle generalizing worker with
  | nil => exact disciplined
  | cons slot later inductionHypothesis =>
    have armed := disciplined.armRecv
    rw [Worker.armAll, if_pos (armed.neverFull.trans disciplined.neverFull.symm)]
    exact inductionHypothesis armed

/--
The slot discipline, in every state of every run: each receive slot has exactly
one operation, each send slot is free or has exactly one, the submission ring
was never full, and every decision was sent, has failed, or is outstanding.
-/
theorem slots_never_lost_or_shared
    {host : Endian}
    {batch capacity : Nat}
    (positive : 1 ≤ batch)
    (bounded : batch ≤ 1024)
    (roomy : Worker.entries batch ≤ capacity)
    {actions : List Action}
    {worker : Worker}
    (ran :
      runActions (step host) (Worker.start batch capacity) actions =
        some worker) :
    (∀ slot, slot < batch → worker.ops.count (.recv slot) = 1) ∧
      (∀ slot, slot < batch * 2 →
        (worker.freeSend.count slot = 1 ∧
            worker.ops.count (.send slot) = 0) ∨
          (worker.freeSend.count slot = 0 ∧
            worker.ops.count (.send slot) = 1)) ∧
      worker.nullSqes = 0 ∧
      worker.metrics.requests + worker.metrics.badMagic =
        worker.metrics.repliesSent + worker.metrics.sendFailures +
          UInt64.ofNat worker.outstanding := by
  have fits : batch * 4 ≤ capacity := by
    have noWrap : batch * 4 % 2 ^ 32 = batch * 4 := by
      omega
    rw [Worker.entries, noWrap] at roomy
    exact (LinearProbing.le_doubleTo (by decide) (by omega)).trans roomy
  have disciplined : Disciplined batch worker [] :=
    invariant_of_run (Disciplined batch · [])
      (fun _ kept stepped => kept.step stepped)
      (fun _ _ => trivial)
      (disciplined_armAll (disciplined_unarmed positive bounded fits)) ran
  refine ⟨?_, ?_, disciplined.neverFull, disciplined.settled⟩
  · intro slot inBatch
    have once := disciplined.owned.recvs slot
    rw [if_pos inBatch] at once
    simpa using once
  · intro slot inPool
    have once := disciplined.owned.sends slot
    rw [if_pos inPool] at once
    omega

/-- A round that answers a message, and a submit that takes only a part. -/
def partialSubmit : List Action :=
  [.submit 1 .done (some {}),
    .complete (.recv 0)
      (.received { payload := List.replicate 64 0, source := {} }),
    .reap { lookup := fun _ => none, now := 0, serverTsNs := 0 },
    .finish,
    .submit 1 .eagain (some {}),
    .complete (.send 0) (.failed .enobufs)]

/-- The slots of a worker of one after a partial submit. -/
theorem slots_never_lost_or_shared_partial_submit :
    ∃ worker,
      runActions (step .little) (Worker.start 1 8) partialSubmit =
          some worker ∧
        worker.ops.count (.recv 0) = 1 ∧ worker.nullSqes = 0 := by
  have runs :
      (runActions (step .little) (Worker.start 1 8)
        partialSubmit).isSome = true := rfl
  obtain ⟨worker, ran⟩ := Option.isSome_iff_exists.mp runs
  obtain ⟨recvs, _, neverFull, _⟩ :=
    slots_never_lost_or_shared (by decide) (by decide) (by decide) ran
  exact ⟨worker, ran, recvs 0 (by decide), neverFull⟩

end Policyd.IoUring
