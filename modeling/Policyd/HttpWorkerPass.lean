import Policyd.HttpWorker

namespace Policyd.HttpFront

open SwapRemove

/-!
# A pass over the connections of a worker

The connections that were there when the poll was made are ahead of the pass,
in the slots of their poll results.  Behind it are the ones it has kept and the
ones accepted in this round.  Closing a connection moves one of the latter, so
every connection is found in its own slot.
-/

/-- The worker has taken new connections among the arrivals. -/
structure Accepts
    (arrivals : List Arrival)
    (worker next : Worker)
    (fresh : List Client) :
    Prop where
  conns : next.conns = worker.conns ++ fresh
  arrived :
    (fresh.map Client.fd).Sublist (arrivals.map Arrival.fd)
  counted :
    next.stats.connectionsAccepted =
      worker.stats.connectionsAccepted + UInt64.ofNat fresh.length
  closed :
    next.stats.connectionsClosed = worker.stats.connectionsClosed
  unused : ∀ client ∈ fresh, client.connection = {}

theorem Accepts.none (arrivals : List Arrival) (worker : Worker) :
    Accepts arrivals worker worker [] where
  conns := (List.append_nil worker.conns).symm
  arrived := List.nil_sublist _
  counted := (UInt64.add_zero _).symm
  closed := rfl
  unused := fun _ member => absurd member List.not_mem_nil

variable {worker start : Worker} {visit : Visit} {round : Round}
  {polled : List PollFd} {index : Nat} {pass : Pass} {stats : Stats}
  {ahead visited : List (Client × PollFd)} {accepted : List Client}

/-- One more connection is taken before the others. -/
theorem Accepts.cons
    {next : Worker} {arrival : Arrival} {arrivals : List Arrival}
    {fresh : List Client}
    (later : Accepts arrivals (worker.accept arrival) next fresh) :
    Accepts (arrival :: arrivals) worker next
      ({ fd := arrival.fd, lastActiveNs := arrival.acceptedNs } :: fresh) where
  conns := by
    rw [later.conns, Worker.accept, List.append_assoc, List.singleton_append]
  arrived := later.arrived.cons_cons arrival.fd
  counted := by
    rw [later.counted, Worker.accept, List.length_cons, UInt64.ofNat_add,
      UInt64.add_assoc, UInt64.add_comm 1]
    rfl
  closed := later.closed
  unused := by
    intro client member
    rcases List.mem_cons.mp member with rfl | member
    · rfl
    · exact later.unused client member

/-- The accept loop takes connections, and nothing else. -/
theorem acceptLoop_accepts
    (budget : Nat) (arrivals : List Arrival) (worker : Worker) :
    ∃ fresh,
      Accepts arrivals worker (worker.acceptLoop budget arrivals) fresh := by
  induction budget generalizing arrivals worker with
  | zero => exact ⟨[], Accepts.none arrivals worker⟩
  | succ budget inductionHypothesis =>
    cases arrivals with
    | nil => exact ⟨[], Accepts.none [] worker⟩
    | cons arrival later =>
      rw [Worker.acceptLoop]
      by_cases room : worker.conns.length < kMaxConnectionsPerWorker
      · rw [if_pos room]
        obtain ⟨fresh, accepts⟩ :=
          inductionHypothesis later (worker.accept arrival)
        exact ⟨_, accepts.cons⟩
      · rw [if_neg room]
        exact ⟨[], Accepts.none (arrival :: later) worker⟩

theorem acceptPending_accepts (round : Round) (worker : Worker) :
    ∃ fresh,
      Accepts round.arrivals worker (worker.acceptPending round) fresh := by
  rw [Worker.acceptPending]
  by_cases readable : round.rc > 0 ∧ (round.revents 0).pollIn = true
  · rw [if_pos readable]
    exact acceptLoop_accepts _ _ worker
  · rw [if_neg readable]
    exact ⟨[], Accepts.none round.arrivals worker⟩

/-- The counters of accepted and closed connections are the same. -/
def Stats.SameConnections (before after : Stats) : Prop :=
  after.connectionsAccepted = before.connectionsAccepted ∧
    after.connectionsClosed = before.connectionsClosed

theorem Stats.SameConnections.refl (stats : Stats) :
    stats.SameConnections stats :=
  ⟨rfl, rfl⟩

theorem Stats.countReply_sameConnections (stats : Stats) (reply : Reply) :
    stats.SameConnections (stats.countReply reply) := by
  rw [Stats.countReply]
  split_ifs <;> exact ⟨rfl, rfl⟩

theorem Stats.countInput_sameConnections
    (service : Service) (stats : Stats) (buffer : Str) :
    stats.SameConnections (stats.countInput service buffer) := by
  rw [Stats.countInput]
  cases Str.findText Connection.terminator buffer with
  | none =>
    dsimp only
    split_ifs <;> exact ⟨rfl, rfl⟩
  | some headEnd => exact stats.countReply_sameConnections _

/-- What a visit leaves alone: the descriptor and the connection counters. -/
structure Served.Frames (served : Served) (client : Client) (stats : Stats) :
    Prop where
  fd : served.client.fd = client.fd
  counters : stats.SameConnections served.stats

theorem Client.fd_expire (client : Client) (nowNs : UInt64) :
    (client.expire nowNs).fd = client.fd := by
  rw [Client.expire]
  split_ifs <;> rfl

theorem Client.fd_flush
    (client : Client) (nowNs : UInt64) (answer : SendAnswer) :
    (client.flush nowNs answer).fd = client.fd := by
  cases answer <;> rfl

theorem Client.read_frames
    (client : Client) (round : Round) (calls : Calls) (stats : Stats) :
    (client.read round calls stats).Frames client stats := by
  rw [Client.read]
  dsimp only
  cases calls.recv.within
      (kRequestBufferBytes - client.connection.input.length) with
  | again => exact ⟨rfl, Stats.SameConnections.refl stats⟩
  | ended => exact ⟨rfl, Stats.SameConnections.refl stats⟩
  | bytes chunk =>
    exact ⟨rfl, Stats.countInput_sameConnections _ stats _⟩

/-- A visit changes neither the descriptor nor the connection counters. -/
theorem serve_frames
    (round : Round) (calls : Calls) (revents : Revents) (client : Client)
    (stats : Stats) :
    (serve round calls revents client stats).Frames client stats := by
  have same := Stats.SameConnections.refl stats
  rw [serve]
  split_ifs
  · exact ⟨rfl, same⟩
  · exact ⟨client.fd_flush _ _, same⟩
  · exact ⟨client.fd_expire _, same⟩
  · exact client.read_frames round calls stats
  · exact ⟨client.fd_expire _, same⟩

/-- The connection and the poll result a visit was made with. -/
def Visit.seen (visit : Visit) : Client × PollFd :=
  (visit.client, visit.polled)

/-- The visit served its connection with its poll result. -/
def Visit.ServedIn (round : Round) (visit : Visit) : Prop :=
  ∃ calls stats,
    visit.after =
      (serve round calls visit.polled.revents visit.client stats).client

/-- Whether a visit left the connection open. -/
def Visit.kept (visit : Visit) : Bool :=
  visit.after.connection.isOpen

/-- The connections that were kept, as the visits left them. -/
def keptClients (visits : List Visit) : List Client :=
  (visits.filter Visit.kept).map Visit.after

/-- The connections that were closed, as the visits found them. -/
def closedClients (visits : List Visit) : List Client :=
  (visits.filter fun visit => !visit.kept).map Visit.client

theorem keptClients_cons_of_kept
    (kept : visit.kept = true) (visits : List Visit) :
    keptClients (visit :: visits) = visit.after :: keptClients visits := by
  rw [keptClients, List.filter_cons_of_pos kept]
  rfl

theorem keptClients_cons_of_not_kept
    (closed : ¬visit.kept = true) (visits : List Visit) :
    keptClients (visit :: visits) = keptClients visits := by
  rw [keptClients, List.filter_cons_of_neg closed]
  rfl

/-- Open connections are counted by what was accepted and what was closed. -/
def Worker.Balanced (worker : Worker) : Prop :=
  worker.stats.connectionsAccepted - worker.stats.connectionsClosed =
    UInt64.ofNat worker.conns.length

/--
The state of a pass that began with `start`: the slots ahead of it with their
poll results, the ones it has visited, and the connections that were accepted
in this round.
-/
structure InPass
    (round : Round)
    (start : Worker)
    (ahead visited : List (Client × PollFd))
    (accepted : List Client)
    (pass : Pass) :
    Prop where
  swept :
    Swept (ahead.map Prod.fst) (keptClients pass.visits ++ accepted)
      pass.worker.conns
  seen : pass.visits.map Visit.seen = visited
  served : ∀ visit ∈ pass.visits, visit.ServedIn round
  balanced : start.Balanced → pass.worker.Balanced

theorem visitSlot_of_not_polled
    (notPolled : polled.length ≤ index + 1) (pass : Pass) :
    visitSlot round polled index pass = pass := by
  rw [visitSlot, List.getElem?_eq_none notPolled]
  cases pass.worker.conns[index]? <;> rfl

theorem visitSlot_of_polled {client : Client} {entry : PollFd}
    (found : pass.worker.conns[index]? = some client)
    (result : polled[index + 1]? = some entry) (own : entry.fd = client.fd) :
    visitSlot round polled index pass =
      { worker :=
          pass.worker.store index
            (serve round (round.calls index) entry.revents client
              pass.worker.stats)
        visits :=
          { client := client
            polled := entry
            after :=
              (serve round (round.calls index) entry.revents client
                pass.worker.stats).client } ::
            pass.visits } := by
  rw [visitSlot, found, result]
  exact if_neg (not_not_intro own)

theorem visitSlots_of_not_polled
    (notPolled : polled.length ≤ index + 1) (accepted : Nat) (pass : Pass) :
    visitSlots round polled (index + accepted) pass =
      visitSlots round polled index pass := by
  induction accepted with
  | zero => rfl
  | succ accepted inductionHypothesis =>
    rw [← Nat.add_assoc, visitSlots,
      visitSlot_of_not_polled
        (notPolled.trans (Nat.add_le_add_right (Nat.le_add_right _ _) 1)),
      inductionHypothesis]

theorem Worker.Balanced.put (balanced : worker.Balanced)
    (counters : worker.stats.SameConnections stats) (index : Nat)
    (client : Client) :
    Worker.Balanced
      { stats := stats, conns := worker.conns.set index client } := by
  rw [Worker.Balanced] at balanced ⊢
  rw [counters.1, counters.2, List.length_set]
  exact balanced

theorem Worker.Balanced.closeConn (balanced : worker.Balanced)
    (counters : worker.stats.SameConnections stats)
    (shorter :
      worker.conns.length = (swapRemove worker.conns index).length + 1) :
    (Worker.closeConn { worker with stats := stats } index).Balanced := by
  rw [Worker.Balanced, shorter, UInt64.ofNat_add] at balanced
  have oneMore :
      worker.stats.connectionsAccepted - (worker.stats.connectionsClosed + 1) =
        UInt64.ofNat (swapRemove worker.conns index).length := by
    grind
  rw [← counters.1, ← counters.2] at oneMore
  exact oneMore

/-- A connection that stays open is put back behind the pass. -/
theorem InPass.keep (visit : Visit)
    (inPass : InPass round start (ahead ++ [visit.seen]) visited accepted pass)
    (kept : visit.kept = true) (served : visit.ServedIn round)
    (counters : pass.worker.stats.SameConnections stats) :
    InPass round start ahead (visit.seen :: visited) accepted
      { worker :=
          { stats := stats
            conns := pass.worker.conns.set ahead.length visit.after }
        visits := visit :: pass.visits } where
  swept := by
    have swept := inPass.swept
    rw [List.map_append, List.map_singleton] at swept
    have rewritten := swept.rewrite visit.after
    rw [List.length_map] at rewritten
    rw [keptClients_cons_of_kept kept]
    exact rewritten
  seen := by
    rw [List.map_cons, inPass.seen]
  served := List.forall_mem_cons.mpr ⟨served, inPass.served⟩
  balanced := fun balanced =>
    (inPass.balanced balanced).put counters _ _

/-- A connection that is closed is replaced by one from behind the pass. -/
theorem InPass.close (visit : Visit)
    (inPass : InPass round start (ahead ++ [visit.seen]) visited accepted pass)
    (closed : ¬visit.kept = true) (served : visit.ServedIn round)
    (counters : pass.worker.stats.SameConnections stats) :
    InPass round start ahead (visit.seen :: visited) accepted
      { worker :=
          Worker.closeConn { pass.worker with stats := stats } ahead.length
        visits := visit :: pass.visits } := by
  have swept := inPass.swept
  rw [List.map_append, List.map_singleton] at swept
  have removed := swept.remove
  rw [List.length_map] at removed
  have shorter :
      pass.worker.conns.length =
        (swapRemove pass.worker.conns ahead.length).length + 1 := by
    rw [swept.length_eq, removed.length_eq, List.length_append,
      List.length_singleton, Nat.add_right_comm]
  refine ⟨?_, ?_, ?_, ?_⟩
  · rw [keptClients_cons_of_not_kept closed]
    exact removed
  · rw [List.map_cons, inPass.seen]
  · exact List.forall_mem_cons.mpr ⟨served, inPass.served⟩
  · intro balanced
    exact (inPass.balanced balanced).closeConn counters shorter

/-- One visit: the slot the pass comes to holds its own connection. -/
theorem InPass.step {client : Client} {entry : PollFd}
    (inPass :
      InPass round start (ahead ++ [(client, entry)]) visited accepted pass)
    (result : polled[ahead.length + 1]? = some entry)
    (own : entry.fd = client.fd) :
    InPass round start ahead ((client, entry) :: visited) accepted
      (visitSlot round polled ahead.length pass) := by
  have found : pass.worker.conns[ahead.length]? = some client := by
    have swept := inPass.swept
    rw [List.map_append, List.map_singleton] at swept
    have current := swept.current
    rwa [List.length_map] at current
  have frames := serve_frames round (round.calls ahead.length) entry.revents
    client pass.worker.stats
  rw [visitSlot_of_polled found result own, Worker.store]
  by_cases stays :
      (serve round (round.calls ahead.length) entry.revents client
        pass.worker.stats).client.connection.isOpen = true
  · rw [if_pos stays]
    exact InPass.keep ⟨client, entry, _⟩ inPass stays
      ⟨_, _, rfl⟩ frames.counters
  · rw [if_neg stays]
    exact InPass.close ⟨client, entry, _⟩ inPass stays
      ⟨_, _, rfl⟩ frames.counters

/-- All visits: the induction takes the last slot off what is ahead. -/
theorem InPass.visitAll
    (inPass : InPass round start ahead visited accepted pass)
    (results : polled.tail = (ahead ++ visited).map Prod.snd)
    (own : ∀ slot ∈ ahead, slot.2.fd = slot.1.fd) :
    InPass round start [] (ahead ++ visited) accepted
      (visitSlots round polled ahead.length pass) := by
  induction ahead using List.reverseRecOn generalizing visited pass with
  | nil => exact inPass
  | append_singleton ahead slot inductionHypothesis =>
    rw [List.append_assoc, List.singleton_append] at results ⊢
    have result : polled[ahead.length + 1]? = some slot.2 := by
      rw [← List.getElem?_tail, results]
      simp
    rw [List.length_append, List.length_singleton, visitSlots]
    apply inductionHypothesis
    · exact inPass.step result
        (own slot (List.mem_append_right _ List.mem_cons_self))
    · exact results
    · exact fun other member => own other (List.mem_append_left _ member)

/-- The connections that were polled, each with the result for its slot. -/
def polledSlots (round : Round) (worker : Worker) : List (Client × PollFd) :=
  worker.conns.zip (pollFds round worker).tail

theorem length_pollFds_tail (round : Round) (worker : Worker) :
    (pollFds round worker).tail.length = worker.conns.length :=
  List.length_mapIdx

theorem polledSlots_clients (round : Round) (worker : Worker) :
    (polledSlots round worker).map Prod.fst = worker.conns :=
  List.map_fst_zip (length_pollFds_tail round worker).ge

theorem polledSlots_results (round : Round) (worker : Worker) :
    (polledSlots round worker).map Prod.snd = (pollFds round worker).tail :=
  List.map_snd_zip (length_pollFds_tail round worker).le

theorem polledSlots_own
    {slot : Client × PollFd} (member : slot ∈ polledSlots round worker) :
    slot.2.fd = slot.1.fd := by
  obtain ⟨index, found⟩ := List.mem_iff_getElem?.mp member
  obtain ⟨client, entry⟩ := List.getElem?_zip_eq_some.mp found
  rw [pollFds, List.tail_cons, List.getElem?_mapIdx, client,
    Option.map_some] at entry
  rw [← Option.some.inj entry]
  rfl

theorem Accepts.balanced
    {arrivals : List Arrival} {next : Worker} {fresh : List Client}
    (accepts : Accepts arrivals worker next fresh)
    (balanced : worker.Balanced) :
    next.Balanced := by
  rw [Worker.Balanced] at balanced ⊢
  rw [accepts.conns, accepts.counted, accepts.closed, List.length_append,
    UInt64.ofNat_add, ← balanced]
  grind

/-- A pass visits every polled slot and takes nothing else along. -/
theorem serveConnections_inPass
    (accepts :
      Accepts round.arrivals worker (worker.acceptPending round) accepted) :
    InPass round (worker.acceptPending round) [] (polledSlots round worker)
      accepted (serveConnections round worker) := by
  have polledLength : (pollFds round worker).length = worker.conns.length + 1 :=
    congrArg (· + 1) (length_pollFds_tail round worker)
  have slotsLength :
      (polledSlots round worker).length = worker.conns.length := by
    rw [← List.length_map, polledSlots_clients]
  have atStart :
      InPass round (worker.acceptPending round) (polledSlots round worker) []
        accepted { worker := worker.acceptPending round } := by
    refine ⟨?_, rfl, ?_, id⟩
    · rw [polledSlots_clients, accepts.conns]
      exact Swept.start _ _
    · exact fun _ member => absurd member List.not_mem_nil
  have atEnd :=
    atStart.visitAll
      (by rw [List.append_nil, polledSlots_results])
      fun _ member => polledSlots_own member
  rw [List.append_nil, slotsLength] at atEnd
  rw [serveConnections, accepts.conns, List.length_append,
    visitSlots_of_not_polled polledLength.le]
  exact atEnd

/-- The descriptor of the connection that was visited. -/
def Visit.fd (visit : Visit) : Int :=
  visit.client.fd

theorem Visit.ServedIn.fd_after (served : visit.ServedIn round) :
    visit.after.fd = visit.fd := by
  obtain ⟨calls, stats, after⟩ := served
  rw [after]
  exact (serve_frames round calls visit.polled.revents visit.client stats).fd

theorem descriptors_of_visits
    {visits : List Visit} (served : ∀ visit ∈ visits, visit.ServedIn round) :
    ((keptClients visits).map Client.fd ++
        (closedClients visits).map Client.fd).Perm
      (visits.map Visit.fd) := by
  have keptFds :
      (keptClients visits).map Client.fd =
        (visits.filter Visit.kept).map Visit.fd := by
    rw [keptClients, List.map_map]
    apply List.map_congr_left
    intro visit member
    exact (served visit (List.mem_of_mem_filter member)).fd_after
  have closedFds :
      (closedClients visits).map Client.fd =
        (visits.filter fun visit => !visit.kept).map Visit.fd := by
    rw [closedClients, List.map_map]
    rfl
  rw [keptFds, closedFds, ← List.map_append]
  exact (List.filter_append_perm Visit.kept visits).map Visit.fd

theorem InPass.visitedFds
    (inPass : InPass round start [] (polledSlots round worker) accepted pass) :
    pass.visits.map Visit.fd = worker.conns.map Client.fd := by
  rw [← polledSlots_clients round worker, ← inPass.seen, List.map_map,
    List.map_map]
  rfl

/-- What remains and what was closed are the polled and the accepted ones. -/
theorem InPass.remainingFds
    (inPass : InPass round start [] (polledSlots round worker) accepted pass) :
    (pass.worker.conns.map Client.fd ++
        (closedClients pass.visits).map Client.fd).Perm
      ((worker.conns ++ accepted).map Client.fd) := by
  have remaining := inPass.swept.finish.map Client.fd
  have parted := descriptors_of_visits inPass.served
  rw [inPass.visitedFds] at parted
  rw [List.map_append] at remaining ⊢
  refine (remaining.append_right _).trans ?_
  rw [List.append_assoc]
  refine (List.perm_append_comm.append_left _).trans ?_
  rw [← List.append_assoc]
  exact parted.append_right _

/--
One pass of the connection loop, for any poll results, any pending connections
and any outcomes of the calls.  Every connection that was polled is visited
once, with the result of its own slot, and served with it; no accepted
connection is visited.  What remains is what was there and what was accepted,
without what was closed, and the counters stay in step with it.
-/
theorem connections_served_once
    (round : Round)
    (worker : Worker)
    (distinct : (worker.conns.map Client.fd).Nodup) :
    ∃ accepted,
      (worker.acceptPending round).conns = worker.conns ++ accepted ∧
      (serveConnections round worker).visits.map Visit.seen =
        worker.conns.zip (pollFds round worker).tail ∧
      (∀ visit ∈ (serveConnections round worker).visits,
        visit.polled.fd = visit.client.fd ∧ visit.ServedIn round) ∧
      (∀ client ∈ worker.conns,
        ((serveConnections round worker).visits.map Visit.fd).count
          client.fd = 1) ∧
      (∀ client ∈ accepted,
        client.fd ∉ worker.conns.map Client.fd →
          client.fd ∉ (serveConnections round worker).visits.map Visit.fd) ∧
      (serveConnections round worker).worker.conns.Perm
        (keptClients (serveConnections round worker).visits ++ accepted) ∧
      ((serveConnections round worker).worker.conns.map Client.fd ++
          (closedClients (serveConnections round worker).visits).map
            Client.fd).Perm
        ((worker.conns ++ accepted).map Client.fd) ∧
      (worker.Balanced →
        (serveConnections round worker).worker.Balanced) := by
  obtain ⟨accepted, accepts⟩ := acceptPending_accepts round worker
  have inPass := serveConnections_inPass accepts
  have visitedFds := inPass.visitedFds
  have remaining := inPass.swept.finish
  refine ⟨accepted, accepts.conns, inPass.seen, ?_, ?_, ?_, remaining, ?_, ?_⟩
  · intro visit member
    refine ⟨?_, inPass.served visit member⟩
    have polled : visit.seen ∈ polledSlots round worker := by
      rw [← inPass.seen]
      exact List.mem_map_of_mem member
    exact polledSlots_own polled
  · intro client member
    rw [visitedFds]
    exact List.count_eq_one_of_mem distinct (List.mem_map_of_mem member)
  · intro client _ fresh
    rwa [visitedFds]
  · exact inPass.remainingFds
  · intro balanced
    exact inPass.balanced (accepts.balanced balanced)

/-- A worker with three connections. -/
def threeConnections : Worker where
  stats := { connectionsAccepted := 5, connectionsClosed := 2 }
  conns := [{ fd := 7 }, { fd := 8 }, { fd := 9 }]

/-- The first and the last of three hang up while a fourth arrives. -/
def twoHangUps : Round where
  rc := 3
  listenFd := 3
  revents := fun position =>
    { pollIn := position == 0
      pollHup := position == 1 || position == 3 }
  arrivals := [{ fd := 10, acceptedNs := 0 }]
  service := { current := none, lookup := fun _ => none, now := 0 }
  nowNs := 0
  calls := fun _ => {}

/-- The accepted connection is moved twice and stays unvisited. -/
theorem connections_served_once_two_hang_ups :
    (serveConnections twoHangUps threeConnections).worker.conns.map Client.fd =
        [10, 8] ∧
      (∀ client ∈ threeConnections.conns,
        ((serveConnections twoHangUps threeConnections).visits.map
          Visit.fd).count client.fd = 1) ∧
      (serveConnections twoHangUps threeConnections).worker.Balanced := by
  obtain ⟨_, _, _, _, once, _, _, _, balanced⟩ :=
    connections_served_once twoHangUps threeConnections (by decide)
  exact ⟨by decide +kernel, once, balanced (by rw [Worker.Balanced]; rfl)⟩

end Policyd.HttpFront
