import Policyd.HttpWorkerPass

namespace Policyd.HttpFront

/-!
# Runs of a worker

A worker starts without connections and goes through rounds.  A visit of a
connection is one step of the connection alone, so every connection of a worker
is in a state the connection reaches by itself.  An accepted connection has a
descriptor that is not in use, so the descriptors of a worker stay distinct.
-/

namespace Connection

variable {connection : Connection}

theorem step_unchanged (isOpen : connection.isOpen = true) (service : Service) :
    connection.step service (.writable .again) = some connection := by
  rw [step, if_neg (by rw [isOpen]; decide)]
  split_ifs <;> rfl

theorem step_hangUp (isOpen : connection.isOpen = true) (service : Service) :
    connection.step service .hangUp = some connection.close := by
  rw [step, if_neg (by rw [isOpen]; decide)]

/-- A send of some bytes finishes the response or leaves a rest. -/
theorem sendOutput_outcome
    (left : connection.outSent < connection.output.length)
    (answer : SendAnswer) :
    connection.sendOutput
        (answer.outcome (connection.output.length - connection.outSent)) =
      some (connection.deliver answer) := by
  cases answer with
  | sent more =>
    rw [SendAnswer.outcome, deliver]
    by_cases whole : connection.output.length ≤ connection.outSent + (more + 1)
    · rw [if_pos whole, if_pos (by omega)]
      rfl
    · rw [if_neg whole, if_neg (by omega)]
      exact if_pos ⟨Nat.succ_pos more, Nat.lt_of_not_le whole⟩
  | again => rfl
  | failed => rfl

theorem step_flush
    (isOpen : connection.isOpen = true) (pending : connection.pending = true)
    (service : Service) (answer : SendAnswer) :
    ∃ event,
      connection.step service event = some (connection.deliver answer) := by
  have left := of_decide_eq_true pending
  refine ⟨.writable
    (answer.outcome (connection.output.length - connection.outSent)), ?_⟩
  rw [step, if_neg (by rw [isOpen]; decide), if_pos left,
    sendOutput_outcome left]

/-- A buffer is handled the same with the outcome of its send. -/
theorem handleInput_consume
    (service : Service) (connection : Connection) (buffer : Str)
    (answer : SendAnswer) :
    ∃ send,
      connection.handleInput service buffer send =
        some (connection.consume service buffer answer) := by
  cases found : Str.findText terminator buffer with
  | none =>
    refine ⟨.again, ?_⟩
    rw [handleInput, consume, found]
  | some headEnd =>
    by_cases empty : (connection.respond service buffer headEnd).output = []
    · refine ⟨.again, ?_⟩
      rw [handleInput, consume, found]
      dsimp only
      rw [if_pos empty]
      exact if_pos empty
    · have left := List.length_pos_iff.mpr empty
      refine ⟨answer.outcome
        (connection.respond service buffer headEnd).output.length, ?_⟩
      rw [handleInput, consume, found]
      dsimp only
      rw [if_neg empty]
      exact (if_neg empty).trans (sendOutput_outcome left answer)

theorem step_consume
    (isOpen : connection.isOpen = true) (sent : ¬connection.pending = true)
    {chunk : Str}
    (received : chunk ≠ [])
    (fits : chunk.length ≤ kRequestBufferBytes - connection.input.length)
    (service : Service) (answer : SendAnswer) :
    ∃ event,
      connection.step service event =
        some
          (connection.consume service (connection.input ++ chunk) answer) := by
  obtain ⟨send, handled⟩ :=
    handleInput_consume service connection (connection.input ++ chunk) answer
  refine ⟨.readable (.bytes chunk) send, ?_⟩
  rw [step, if_neg (by rw [isOpen]; decide),
    if_neg (fun left => sent (decide_eq_true left)),
    if_neg (not_or.mpr ⟨received, Nat.not_lt.mpr fits⟩), handled]

end Connection

/-- What a receive delivers is not empty and fits. -/
theorem Recv.within_bytes {recv : Recv} {room : Nat} {chunk : Str}
    (delivered : recv.within room = .bytes chunk) :
    chunk ≠ [] ∧ chunk.length ≤ room := by
  cases recv with
  | bytes available =>
    rw [Recv.within] at delivered
    by_cases empty : available.take room = []
    · rw [if_pos empty] at delivered
      cases delivered
    · rw [if_neg empty] at delivered
      obtain rfl := Recv.bytes.inj delivered
      exact ⟨empty, List.length_take_le room available⟩
  | again => cases delivered
  | ended => cases delivered

variable {client : Client} {worker : Worker}

/-- A visit is a step of its connection. -/
theorem serve_step
    (isOpen : client.connection.isOpen = true) (round : Round) (calls : Calls)
    (revents : Revents) (stats : Stats) :
    ∃ event,
      client.connection.step round.service event =
        some (serve round calls revents client stats).client.connection := by
  have hungUp := Connection.step_hangUp isOpen round.service
  have unchanged := Connection.step_unchanged isOpen round.service
  have expired :
      ∃ event,
        client.connection.step round.service event =
          some (client.expire round.nowNs).connection := by
    rw [Client.expire]
    split_ifs
    · exact ⟨_, hungUp⟩
    · exact ⟨_, unchanged⟩
  rw [serve]
  split_ifs with failed pending writable readable
  · exact ⟨_, hungUp⟩
  · have flushed :=
      Connection.step_flush isOpen pending round.service calls.send
    cases answered : calls.send <;> rw [answered] at flushed <;> exact flushed
  · exact expired
  · rw [Client.read]
    dsimp only
    cases delivered : calls.recv.within
        (kRequestBufferBytes - client.connection.input.length) with
    | again => exact ⟨_, unchanged⟩
    | ended => exact ⟨_, hungUp⟩
    | bytes chunk =>
      obtain ⟨received, fits⟩ := Recv.within_bytes delivered
      exact Connection.step_consume isOpen pending received fits _ _
  · exact expired

/-- One step of a connection, under the rules and records of its moment. -/
def stepWith (connection : Connection) (action : Service × Event) :
    Option Connection :=
  connection.step action.1 action.2

/-- The connection reaches this state by itself. -/
def Connection.Reached (connection : Connection) : Prop :=
  ∃ actions, runActions stepWith {} actions = some connection

theorem Connection.Reached.serve (reached : client.connection.Reached)
    (isOpen : client.connection.isOpen = true) (round : Round) (calls : Calls)
    (revents : Revents) (stats : Stats) :
    (serve round calls revents client stats).client.connection.Reached := by
  obtain ⟨actions, ran⟩ := reached
  obtain ⟨event, stepped⟩ := serve_step isOpen round calls revents stats
  refine ⟨actions ++ [(round.service, event)], runActions_trans ran ?_⟩
  rw [runActions_cons, stepWith, stepped]
  rfl

/-- What holds of a worker in every round. -/
structure Worker.Sound (worker : Worker) : Prop where
  balanced : worker.Balanced
  distinct : (worker.conns.map Client.fd).Nodup
  bounded : worker.conns.length ≤ kMaxConnectionsPerWorker
  isOpen : ∀ client ∈ worker.conns, client.connection.isOpen = true
  reached : ∀ client ∈ worker.conns, client.connection.Reached

theorem Worker.sound_start : Worker.Sound {} where
  balanced := rfl
  distinct := List.nodup_nil
  bounded := Nat.zero_le _
  isOpen := fun _ member => absurd member List.not_mem_nil
  reached := fun _ member => absurd member List.not_mem_nil

/-- The descriptors of arrivals are not in use. -/
def Round.Fresh (round : Round) (worker : Worker) : Prop :=
  (worker.conns.map Client.fd ++ round.arrivals.map Arrival.fd).Nodup

theorem acceptLoop_bounded (budget : Nat) (arrivals : List Arrival)
    (bounded : worker.conns.length ≤ kMaxConnectionsPerWorker) :
    (worker.acceptLoop budget arrivals).conns.length ≤
      kMaxConnectionsPerWorker := by
  induction budget generalizing arrivals worker with
  | zero => exact bounded
  | succ budget inductionHypothesis =>
    cases arrivals with
    | nil => exact bounded
    | cons arrival later =>
      rw [Worker.acceptLoop]
      by_cases room : worker.conns.length < kMaxConnectionsPerWorker
      · rw [if_pos room]
        apply inductionHypothesis
        rw [Worker.accept, List.length_append, List.length_singleton]
        exact room
      · rw [if_neg room]
        exact bounded

theorem acceptPending_bounded
    (round : Round) (bounded : worker.conns.length ≤ kMaxConnectionsPerWorker) :
    (worker.acceptPending round).conns.length ≤ kMaxConnectionsPerWorker := by
  rw [Worker.acceptPending]
  by_cases readable : round.rc > 0 ∧ (round.revents 0).pollIn = true
  · rw [if_pos readable]
    exact acceptLoop_bounded _ _ bounded
  · rw [if_neg readable]
    exact bounded

/-- A connection that remains was kept by its visit or just accepted. -/
theorem InPass.remaining
    {round : Round} {start : Worker} {accepted : List Client} {pass : Pass}
    (inPass : InPass round start [] (polledSlots round worker) accepted pass)
    (member : client ∈ pass.worker.conns) :
    (∃ visit : Visit,
      visit.client ∈ worker.conns ∧
        visit.ServedIn round ∧
        visit.kept = true ∧
        client = visit.after) ∨
      client ∈ accepted := by
  rcases List.mem_append.mp (inPass.swept.finish.mem_iff.mp member) with
    kept | isAccepted
  · obtain ⟨visit, visited, rfl⟩ := List.mem_map.mp kept
    obtain ⟨visited, kept⟩ := List.mem_filter.mp visited
    refine Or.inl ⟨visit, ?_, inPass.served visit visited, kept, rfl⟩
    rw [← polledSlots_clients round worker, ← inPass.seen, List.map_map]
    exact List.mem_map_of_mem visited
  · exact Or.inr isAccepted

theorem Worker.Sound.runRound
    (sound : worker.Sound) {round : Round} (fresh : round.Fresh worker) :
    (worker.runRound round).Sound := by
  rw [Worker.runRound]
  by_cases failed : round.rc < 0
  · rw [if_pos failed]
    exact sound
  rw [if_neg failed]
  obtain ⟨accepted, accepts⟩ := acceptPending_accepts round worker
  have inPass := serveConnections_inPass accepts
  have account := inPass.remainingFds
  have bounded := acceptPending_bounded round sound.bounded
  rw [accepts.conns] at bounded
  refine ⟨inPass.balanced (accepts.balanced sound.balanced), ?_, ?_, ?_, ?_⟩
  · have together : ((worker.conns ++ accepted).map Client.fd).Nodup := by
      rw [List.map_append]
      exact fresh.sublist (accepts.arrived.append_left _)
    exact (account.nodup_iff.mpr together).of_append_left
  · have lengths := account.length_eq
    rw [List.length_append, List.length_map, List.length_map,
      List.length_map] at lengths
    exact (Nat.le_add_right _ _).trans (lengths.le.trans bounded)
  · intro client member
    rcases inPass.remaining member with ⟨visit, _, _, kept, rfl⟩ | isAccepted
    · exact kept
    · rw [accepts.unused client isAccepted]
  · intro client member
    rcases inPass.remaining member with
      ⟨visit, polled, ⟨calls, stats, after⟩, _, rfl⟩ | isAccepted
    · rw [after]
      exact (sound.reached _ polled).serve (sound.isOpen _ polled) _ _ _ _
    · rw [accepts.unused client isAccepted]
      exact ⟨[], rfl⟩

/-- Every round of a run meets unused descriptors only. -/
def FreshRounds : Worker → List Round → Prop
  | _, [] => True
  | worker, round :: later =>
    round.Fresh worker ∧ FreshRounds (worker.runRound round) later

/--
In every run of a worker its counters account for its connections, their
descriptors are distinct and within the limit, and each of them is open and in
a state that a connection reaches by itself.
-/
theorem Worker.sound_after_rounds (sound : worker.Sound) {rounds : List Round}
    (fresh : FreshRounds worker rounds) :
    (worker.run rounds).Sound := by
  induction rounds generalizing worker with
  | nil => exact sound
  | cons round later inductionHypothesis =>
    exact inductionHypothesis (sound.runRound fresh.1) fresh.2

/-- One connection is accepted and hangs up while the next one arrives. -/
def oneAfterAnother : List Round :=
  [twoHangUps, { twoHangUps with arrivals := [{ fd := 11, acceptedNs := 0 }] }]

/-- The second connection is left. -/
theorem Worker.sound_after_rounds_hang_up :
    (Worker.run {} oneAfterAnother).conns.map Client.fd = [11] ∧
      (Worker.run {} oneAfterAnother).Sound := by
  refine ⟨by decide +kernel, Worker.sound_after_rounds sound_start ?_⟩
  exact ⟨by unfold Round.Fresh; decide, by unfold Round.Fresh; decide +kernel,
    trivial⟩

end Policyd.HttpFront
