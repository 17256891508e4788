import Policyd.LoadgenUdp
import Policyd.RequestJournal

namespace Policyd.Loadgen

open ByteOrder (Endian)
open RequestJournal

/-!
# The UDP generator loses no request and counts none twice

A request is known by its scheduled time, which the schedule does not repeat.
Beside every run there is a journal of what became of each request; the
counters and the latency samples of the sender are what the journal says.
-/

/-- A reply as the sender reads it. -/
structure Reply where
  recvNs : UInt64
  decision : PolicyDecision
deriving Repr, DecidableEq

/-- The latency of a request: the time of its reply minus its own. -/
def latencyNs (sample : UInt64 × Reply) : Int64 :=
  (sample.2.recvNs - sample.1).toInt64

theorem toInt_latencyNs (sample : UInt64 × Reply) :
    (latencyNs sample).toInt =
      ((sample.2.recvNs.toNat : Int) - sample.1.toNat).bmod (2 ^ 64) := by
  have wrapped :
      (latencyNs sample).toInt =
        (sample.2.recvNs.toBitVec - sample.1.toBitVec).toInt := rfl
  rw [wrapped, BitVec.toInt_sub, BitVec.toInt_eq_toNat_bmod,
    BitVec.toInt_eq_toNat_bmod, Int.bmod_sub_bmod, Int.sub_bmod_bmod]
  rfl

section Journal

/-- The counts of a journal without refused and forgotten requests. -/
def countsOf (balance : ThreadResult.Balance) : Counts where
  issued := balance.sent
  answered := balance.received
  writtenOff := balance.lost

/-- The sender's books agree with a journal and the replies heard so far. -/
structure Recorded
    (schedule : List UInt64)
    (replies : List Reply)
    (owed : List UInt64)
    (waiting : Multiset UInt64)
    (balance : ThreadResult.Balance)
    (journal : List (Entry UInt64 Reply)) :
    Prop where
  owed : schedule = issued journal ++ owed
  keeps : Keeps journal waiting
  counted : counts journal = countsOf balance
  latency : balance.latency = (samples journal).map latencyNs
  echoed : ∀ sample ∈ samples journal, sample.2.decision.clientTsNs = sample.1
  heard : ((samples journal).map Prod.snd).Sublist replies

namespace Recorded

variable
  {schedule owed : List UInt64}
  {replies more : List Reply}
  {waiting : Multiset UInt64}
  {balance after : ThreadResult.Balance}
  {journal : List (Entry UInt64 Reply)}
  {entry : Entry UInt64 Reply}
  {request : UInt64}

theorem start (schedule : List UInt64) :
    Recorded schedule [] schedule 0 ({} : ThreadResult).balance [] where
  owed := rfl
  keeps := keeps_nil
  counted := rfl
  latency := rfl
  echoed := fun _ member => absurd member List.not_mem_nil
  heard := List.Sublist.refl []

theorem hear (recorded : Recorded schedule replies owed waiting balance journal)
    (more : List Reply) :
    Recorded schedule (replies ++ more) owed waiting balance journal :=
  { recorded with heard := recorded.heard.trans (List.sublist_append_left _ _) }

/-- The sender counts an entry as the journal does. -/
theorem post {waitingAfter : Multiset UInt64}
    (recorded :
      Recorded schedule replies (entry.issues.toList ++ owed) waiting balance
        journal)
    (keeps : Keeps (journal ++ [entry]) waitingAfter)
    (counted : (countsOf balance).post entry = countsOf after)
    (latency :
      after.latency = balance.latency ++ entry.sampled.toList.map latencyNs)
    (echoes : ∀ sample ∈ entry.sampled, sample.2.decision.clientTsNs = sample.1)
    (hears : (entry.sampled.toList.map Prod.snd).Sublist more) :
    Recorded schedule (replies ++ more) owed waitingAfter after
      (journal ++ [entry]) where
  owed := by
    rw [issued_concat, List.append_assoc]
    exact recorded.owed
  keeps := keeps
  counted := by
    rw [counts_concat, recorded.counted, counted]
  latency := by
    rw [latency, samples_concat, List.map_append, recorded.latency]
  echoed := by
    intro sample member
    rw [samples_concat, List.mem_append, Option.mem_toList] at member
    rcases member with earlier | now
    · exact recorded.echoed sample earlier
    · exact echoes sample now
  heard := by
    rw [samples_concat, List.map_append]
    exact recorded.heard.append hears

theorem issue
    (recorded :
      Recorded schedule replies (request :: owed) waiting balance journal) :
    Recorded schedule replies owed ({request} + waiting)
      { balance with sent := balance.sent + 1 }
      (journal ++ [.issued request]) := by
  rw [← List.append_nil replies]
  exact post recorded (recorded.keeps.issue request) rfl
    (List.append_nil _).symm (fun _ none => nomatch none)
    (List.Sublist.refl [])

section

variable
    (recorded :
      Recorded schedule replies owed ({request} + waiting) balance journal)

include recorded

/-- A request is closed by a reply or written off. -/
theorem close (closes : entry.closes = some request)
    (counted : (countsOf balance).post entry = countsOf after)
    (latency :
      after.latency = balance.latency ++ entry.sampled.toList.map latencyNs)
    (echoes : ∀ sample ∈ entry.sampled, sample.2.decision.clientTsNs = sample.1)
    (hears : (entry.sampled.toList.map Prod.snd).Sublist more) :
    Recorded schedule (replies ++ more) owed waiting after
      (journal ++ [entry]) := by
  have notIssued : entry.issues = none := by
    cases entry with
    | issued => cases closes
    | _ => rfl
  have recordedBefore :
      Recorded schedule replies (entry.issues.toList ++ owed)
        ({request} + waiting) balance journal := by
    rw [notIssued]
    exact recorded
  exact post recordedBefore (recorded.keeps.close closes) counted latency
    echoes hears

theorem writeOff :
    Recorded schedule replies owed waiting
      { balance with lost := balance.lost + 1 }
      (journal ++ [.writtenOff request]) := by
  rw [← List.append_nil replies]
  exact recorded.close rfl rfl (List.append_nil _).symm
    (fun _ none => nomatch none) (List.Sublist.refl [])

/-- A reply closes the request that it echoes. -/
theorem answer {reply : Reply}
    (echoes : reply.decision.clientTsNs = request) (measuring : Bool) :
    Recorded schedule (replies ++ [reply]) owed waiting
      { balance with
        received := balance.received + 1
        latency := balance.latency ++
          if measuring then [(reply.recvNs - request).toInt64] else [] }
      (journal ++
        [.answered request (if measuring then some reply else none)]) := by
  cases measuring with
  | false =>
    exact recorded.close rfl rfl rfl (fun _ none => nomatch none)
      (List.nil_sublist _)
  | true =>
    refine recorded.close rfl rfl rfl ?_ (List.Sublist.refl [reply])
    rintro sample sampled
    obtain rfl := Option.some.inj sampled
    exact echoes

theorem drain :
    Recorded schedule replies owed waiting
      { balance with received := balance.received + 1 }
      (journal ++ [.answered request none]) := by
  rw [← List.append_nil replies]
  exact recorded.close rfl rfl (List.append_nil _).symm
    (fun _ none => nomatch none) (List.Sublist.refl [])

end

end Recorded

end Journal

section Sender

variable {k : Fin 32}

/-- The request that a slot waits for. -/
def InFlight.held (slot : InFlight) : Option UInt64 :=
  if slot.live then some slot.scheduledNs else none

namespace UdpSender

/-- The requests that wait for a reply. -/
def waiting (sender : UdpSender k) : Multiset UInt64 :=
  HeldSlots.items InFlight.held sender.inflight.toList

theorem card_waiting (sender : UdpSender k) :
    sender.waiting.card = sender.outstanding := by
  rw [waiting, HeldSlots.card_items, outstanding]
  refine List.countP_congr fun slot _ => ?_
  cases live : slot.live <;> simp [InFlight.held, live]

theorem stored
    (inflight : Vector InFlight (2 ^ k.val)) (index : Fin (2 ^ k.val)) :
    inflight.toList[index.val]? = some (inflight.get index) := by
  simp [Vector.get]

theorem items_retire {inflight : Vector InFlight (2 ^ k.val)}
    (index : Fin (2 ^ k.val)) (live : (inflight.get index).live = true) :
    HeldSlots.items InFlight.held inflight.toList =
      {(inflight.get index).scheduledNs} +
        HeldSlots.items InFlight.held
          (inflight.toList.set index
            { inflight.get index with live := false }) := by
  refine HeldSlots.items_vacate (stored inflight index) ?_ rfl
  rw [InFlight.held, if_pos live]

theorem items_take {inflight : Vector InFlight (2 ^ k.val)}
    (index : Fin (2 ^ k.val)) (vacant : (inflight.get index).live = false)
    (scheduledNs sentNs : UInt64) :
    HeldSlots.items InFlight.held
        (inflight.toList.set index ⟨scheduledNs, sentNs, true⟩) =
      {scheduledNs} + HeldSlots.items InFlight.held inflight.toList := by
  have empty : (inflight.get index).held = none := by
    rw [InFlight.held, vacant]
    rfl
  exact HeldSlots.items_occupy (stored inflight index) empty rfl

/-- The books of a sender agree with a journal. -/
def Recorded
    (schedule : List UInt64) (replies : List Reply) (sender : UdpSender k)
    (journal : List (Entry UInt64 Reply)) :
    Prop :=
  Loadgen.Recorded schedule replies sender.schedule sender.waiting
    sender.result.balance journal

variable
  {schedule owed : List UInt64}
  {replies : List Reply}
  {sender : UdpSender k}
  {journal : List (Entry UInt64 Reply)}

section

variable (recorded : sender.Recorded schedule replies journal)

include recorded

/-- Sending writes off the request whose slot is reused, if it still waits. -/
theorem recorded_sendOne {scheduled : UInt64}
    (due : sender.schedule = scheduled :: owed) (issueAt : UInt64)
    (measuring : Bool) :
    ∃ later,
      (sender.sendOne scheduled issueAt owed measuring).Recorded schedule
        replies later := by
  rw [Recorded, due] at recorded
  cases live : sender.inflight[slotOf k sender.seq].live with
  | false =>
    refine ⟨journal ++ [.issued scheduled], ?_⟩
    have issuedNow := recorded.issue
    rw [waiting, ← items_take (slotOf k sender.seq) live scheduled issueAt]
      at issuedNow
    rw [Recorded, sendOne]
    simp only [live, Bool.false_eq_true, if_false,
      ThreadResult.balance_noteSent]
    exact issuedNow
  | true =>
    rw [waiting, items_retire (slotOf k sender.seq) live,
      ← Vector.toList_set (slotOf k sender.seq).isLt] at recorded
    have retired :
        ((sender.inflight.set (slotOf k sender.seq)
          { sender.inflight.get (slotOf k sender.seq) with
            live := false }).get (slotOf k sender.seq)).live = false :=
      congrArg InFlight.live
        (Vector.getElem_set_self (slotOf k sender.seq).isLt)
    have issuedNow := recorded.writeOff.issue
    rw [← items_take (slotOf k sender.seq) retired scheduled issueAt,
      Vector.toList_set, List.set_set] at issuedNow
    refine ⟨journal ++
      [.writtenOff sender.inflight[slotOf k sender.seq].scheduledNs] ++
      [.issued scheduled], ?_⟩
    rw [Recorded, sendOne]
    simp only [live, if_true, ThreadResult.balance_noteSent]
    exact issuedNow

/-- An attempt either issues the next request or leaves the books alone. -/
theorem recorded_attempt (opt : Options) (now : UInt64) (call : SendCall) :
    ∃ later,
      (sender.attempt opt now call).2.Recorded schedule replies later := by
  rw [attempt]
  cases due : sender.schedule with
  | nil => exact ⟨journal, recorded⟩
  | cons scheduled owed =>
    rw [Recorded, due] at recorded
    have noted :
        UdpSender.Recorded schedule replies
          { sender with
            schedule := scheduled :: owed
            result := sender.result.noteSlip opt.intervalNs
              (now - scheduled) }
          journal := by
      rw [Recorded, ThreadResult.balance_noteSlip]
      exact recorded
    cases taken : call.taken with
    | false => exact ⟨journal, noted⟩
    | true => exact recorded_sendOne noted rfl _ _

/-- A datagram closes the request it echoes, or leaves the books alone. -/
theorem recorded_receive
    (host : Endian) (measuring : Bool) (arrival : Arrival) :
    ∃ later,
      (sender.receive host measuring arrival).Recorded schedule
        (replies ++ (readDecision host arrival.payload).toList.map
          (Reply.mk arrival.recvNs)) later := by
  rw [receive]
  cases read : readDecision host arrival.payload with
  | none => exact ⟨journal, recorded.hear []⟩
  | some dec =>
    by_cases stale :
        (!sender.inflight[slotOf k dec.seq].live ||
          sender.inflight[slotOf k dec.seq].scheduledNs ≠ dec.clientTsNs) = true
    · refine ⟨journal, ?_⟩
      simp only [stale, if_true]
      exact recorded.hear [⟨arrival.recvNs, dec⟩]
    · have fresh := stale
      simp only [Bool.or_eq_true, Bool.not_eq_true', decide_eq_true_eq,
        not_or, Bool.not_eq_false, ne_eq, not_not] at fresh
      obtain ⟨live, echoes⟩ := fresh
      rw [Recorded, waiting, items_retire (slotOf k dec.seq) live] at recorded
      refine ⟨journal ++
        [.answered sender.inflight[slotOf k dec.seq].scheduledNs
          (if measuring then some ⟨arrival.recvNs, dec⟩ else none)], ?_⟩
      simp only [stale, if_false, Bool.false_eq_true]
      rw [Recorded, ThreadResult.balance_complete,
        ThreadResult.balance_noteVerdict]
      exact recorded.answer echoes.symm measuring

/-- The sweep writes off a request or leaves the books alone. -/
theorem recorded_sweepSlot
    (timeoutNs sweepNow : UInt64) (index : Fin (2 ^ k.val)) :
    ∃ later,
      (sender.sweepSlot timeoutNs sweepNow index).Recorded schedule replies
        later := by
  rw [sweepSlot]
  by_cases expired :
      (sender.inflight[index].live &&
        sender.inflight[index].sentNs < sweepNow &&
        timeoutNs < sweepNow - sender.inflight[index].sentNs) = true
  · have live : sender.inflight[index].live = true := by
      simp only [Bool.and_eq_true] at expired
      exact expired.1.1
    rw [Recorded, waiting, items_retire index live] at recorded
    simp only [expired, if_true]
    exact ⟨_, recorded.writeOff⟩
  · simp only [expired, if_false, Bool.false_eq_true]
    exact ⟨journal, recorded⟩

/-- A datagram after the window closes the request of its slot, if any. -/
theorem recorded_drainOne (host : Endian) (payload : List UInt8) :
    ∃ later,
      (sender.drainOne host payload).Recorded schedule replies later := by
  rw [drainOne]
  cases readDecision host payload with
  | none => exact ⟨journal, recorded⟩
  | some dec =>
    cases live : sender.inflight[slotOf k dec.seq].live with
    | false =>
      simp only [live, Bool.false_eq_true, if_false]
      exact ⟨journal, recorded⟩
    | true =>
      rw [Recorded, waiting, items_retire (slotOf k dec.seq) live] at recorded
      simp only [live, if_true]
      refine ⟨journal ++ [.answered
        sender.inflight[slotOf k dec.seq].scheduledNs none], ?_⟩
      rw [Recorded, ThreadResult.balance_noteVerdict]
      exact recorded.drain

end

end UdpSender

/-- What a sender does at one point of a run. -/
inductive Action (k : Fin 32) where
  | attempt (now : UInt64) (call : SendCall)
  | receive (measuring : Bool) (arrival : Arrival)
  | sweepSlot (sweepNow : UInt64) (index : Fin (2 ^ k.val))
  | rearm (sweepAtNs : UInt64)
  | drain (payload : List UInt8)
deriving Repr, DecidableEq

/-- The replies that the sender reads while the window is open. -/
def Action.replies (host : Endian) : Action k → List Reply
  | receive _ arrival =>
    (readDecision host arrival.payload).toList.map (Reply.mk arrival.recvNs)
  | _ => []

namespace UdpSender

/-- One action of a sender. -/
def act (host : Endian) (opt : Options) (sender : UdpSender k) :
    Action k → UdpSender k
  | .attempt now call => (sender.attempt opt now call).2
  | .receive measuring arrival => sender.receive host measuring arrival
  | .sweepSlot sweepNow index => sender.sweepSlot opt.timeoutNs sweepNow index
  | .rearm sweepAtNs => { sender with sweepAtNs := sweepAtNs }
  | .drain payload => sender.drainOne host payload

/-- Any interleaving of actions. -/
def actAll
    (host : Endian) (opt : Options) (sender : UdpSender k)
    (actions : List (Action k)) :
    UdpSender k :=
  actions.foldl (act host opt) sender

variable
  {schedule : List UInt64}
  {replies : List Reply}
  {sender : UdpSender k}
  {journal : List (Entry UInt64 Reply)}

/-- Every action keeps the books. -/
theorem recorded_act
    (recorded : sender.Recorded schedule replies journal) (host : Endian)
    (opt : Options) (action : Action k) :
    ∃ later,
      (sender.act host opt action).Recorded schedule
        (replies ++ action.replies host) later := by
  cases action with
  | attempt now call =>
    obtain ⟨later, kept⟩ := recorded_attempt recorded opt now call
    exact ⟨later, kept.hear []⟩
  | receive measuring arrival =>
    exact recorded_receive recorded host measuring arrival
  | sweepSlot sweepNow index =>
    obtain ⟨later, kept⟩ :=
      recorded_sweepSlot recorded opt.timeoutNs sweepNow index
    exact ⟨later, kept.hear []⟩
  | rearm sweepAtNs => exact ⟨journal, recorded.hear []⟩
  | drain payload =>
    obtain ⟨later, kept⟩ := recorded_drainOne recorded host payload
    exact ⟨later, kept.hear []⟩

/-- Every run keeps the books. -/
theorem recorded_actAll
    (recorded : sender.Recorded schedule replies journal) (host : Endian)
    (opt : Options) (actions : List (Action k)) :
    ∃ later,
      (sender.actAll host opt actions).Recorded schedule
        (replies ++ actions.flatMap (Action.replies host)) later := by
  induction actions generalizing sender replies journal with
  | nil => exact ⟨journal, recorded.hear []⟩
  | cons action later inductionHypothesis =>
    obtain ⟨middle, kept⟩ := recorded_act recorded host opt action
    obtain ⟨last, keptLater⟩ := inductionHypothesis kept
    refine ⟨last, ?_⟩
    rw [List.flatMap_cons, ← List.append_assoc]
    exact keptLater

/-- A sender before its first request. -/
def start (k : Fin 32) (schedule : List UInt64) (sweepAtNs : UInt64) :
    UdpSender k where
  schedule := schedule
  sweepAtNs := sweepAtNs

theorem recorded_start (schedule : List UInt64) (sweepAtNs : UInt64) :
    (start k schedule sweepAtNs).Recorded schedule [] [] := by
  have idle : (start k schedule sweepAtNs).waiting = 0 := by
    rw [waiting, start, HeldSlots.items, Vector.toList_replicate,
      List.filterMap_replicate]
    rfl
  rw [Recorded, idle]
  exact Recorded.start schedule

section Reaches

variable {host : Endian} {opt : Options}

theorem reaches_turn (sender : UdpSender k) (env : Turn) :
    Reaches (act host opt) sender (sender.turn host opt env) := by
  have attempted : ∀ (sender : UdpSender k) call,
      Reaches (act host opt) sender (attempt opt env.now sender call).2 :=
    fun sender call => reaches_act sender (Action.attempt env.now call)
  have sent := reaches_sendDue attempted 0 sender env.calls
  rw [turn]
  generalize sendDue (attempt opt env.now) 0 sender env.calls = middle at sent
  have received : ∀ (sender : UdpSender k) arrival,
      Reaches (act host opt) sender
        (sender.receive host (opt.warmupEndNs ≤ env.now) arrival) :=
    fun sender arrival => reaches_act sender (Action.receive _ arrival)
  have drained :=
    reaches_foldl received middle (env.arrivals.take opt.batchRecv)
  generalize (env.arrivals.take opt.batchRecv).foldl
    (receive host (opt.warmupEndNs ≤ env.now)) middle = next at drained
  by_cases sweeping : next.sweepAtNs ≤ env.now
  · have sweptSlot : ∀ (sender : UdpSender k) index,
        Reaches (act host opt) sender
          (sender.sweepSlot opt.timeoutNs env.sweepNow index) :=
      fun sender index =>
        reaches_act sender (Action.sweepSlot env.sweepNow index)
    have swept := reaches_foldl sweptSlot next (List.finRange (2 ^ k.val))
    rw [if_pos sweeping]
    exact ((sent.trans drained).trans swept).trans
      (reaches_act _ (Action.rearm _))
  · rw [if_neg sweeping]
    exact sent.trans drained

theorem reaches_runLoop (sender : UdpSender k) (turns : List Turn) :
    Reaches (act host opt) sender (sender.runLoop host opt turns) :=
  reaches_runTurns reaches_turn _ _ _

theorem reaches_drainLoop
    (sender : UdpSender k) (reads : List (Option (List UInt8))) :
    Reaches (act host opt) sender (sender.drainLoop host reads) := by
  induction reads generalizing sender with
  | nil => exact Reaches.refl sender
  | cons read later inductionHypothesis =>
    rw [drainLoop]
    by_cases done : sender.outstanding = 0
    · rw [if_pos done]
      exact Reaches.refl sender
    · rw [if_neg done]
      cases read with
      | none => exact inductionHypothesis sender
      | some payload =>
        exact (reaches_act sender (.drain payload)).trans
          (inductionHypothesis _)

end Reaches

/-- The last loop of `drain_tail` counts the live slots it visits. -/
theorem foldl_closeSlot
    (sender : UdpSender k) (visited : List (Fin (2 ^ k.val))) :
    visited.foldl closeSlot sender =
      { sender with
        result :=
          { sender.result with
            lost := sender.result.lost +
              visited.countP fun index =>
                (sender.inflight.get index).live } } := by
  induction visited generalizing sender with
  | nil => rfl
  | cons index later inductionHypothesis =>
    have sameSlot : sender.inflight.get index = sender.inflight[index] := rfl
    rw [List.foldl_cons, inductionHypothesis, List.countP_cons, closeSlot,
      sameSlot]
    cases live : sender.inflight[index].live with
    | false => simp
    | true => simp [Nat.add_assoc, Nat.add_comm 1]

theorem countP_finRange (sender : UdpSender k) :
    (List.finRange (2 ^ k.val)).countP
        (fun index => (sender.inflight.get index).live) =
      sender.outstanding := by
  have listed :
      sender.inflight.toList =
        (List.finRange (2 ^ k.val)).map sender.inflight.get :=
    List.ext_getElem (by simp) (by simp [Vector.get])
  rw [outstanding, listed, List.countP_map]
  rfl

/-- Every request sent has been received, is lost or still waits. -/
def Balanced (sender : UdpSender k) : Prop :=
  sender.result.sent =
    sender.result.received + sender.result.lost + sender.outstanding

theorem Balanced.foldl_closeSlot {visited ahead : List (Fin (2 ^ k.val))}
    (balanced : sender.Balanced)
    (all : visited ++ ahead = List.finRange (2 ^ k.val)) :
    (visited.foldl closeSlot sender).result.sent =
      (visited.foldl closeSlot sender).result.received +
        (visited.foldl closeSlot sender).result.lost +
        ahead.countP fun index =>
          ((visited.foldl closeSlot sender).inflight.get index).live := by
  have counted := sender.countP_finRange
  rw [← all, List.countP_append] at counted
  rw [Balanced] at balanced
  simp only [UdpSender.foldl_closeSlot]
  omega

theorem Recorded.balanced
    (recorded : sender.Recorded schedule replies journal) :
    sender.Balanced := by
  have accounted := recorded.keeps.issued_eq
  rw [recorded.counted, card_waiting] at accounted
  exact accounted

/--
Every latency sample is, as a signed number of 64 bits, the time of a reply
minus the scheduled time of the request that the reply echoes, and no request
has two samples.
-/
def SampledOnce
    (schedule : List UInt64) (replies : List Reply) (sender : UdpSender k) :
    Prop :=
  ∃ samples : List (UInt64 × Reply),
    sender.result.latency.map Int64.toInt =
        samples.map (fun sample =>
          ((sample.2.recvNs.toNat : Int) - sample.1.toNat).bmod (2 ^ 64)) ∧
      (samples.map Prod.fst).Nodup ∧
      (∀ sample ∈ samples,
        sample.1 ∈ schedule.take sender.result.sent ∧
          sample.2.decision.clientTsNs = sample.1) ∧
      (samples.map Prod.snd).Sublist replies

/-- The books of a sender with distinct requests prove its samples. -/
theorem Recorded.sampledOnce
    (recorded : sender.Recorded schedule replies journal)
    (increasing : schedule.Pairwise (· < ·)) :
    sender.SampledOnce schedule replies := by
  have sent : sender.result.sent = (issued journal).length := by
    rw [← issued_counts, recorded.counted]
    rfl
  have latency : sender.result.latency = _ := recorded.latency
  have issuedFirst : schedule.take sender.result.sent = issued journal := by
    rw [recorded.owed, sent, List.take_left]
  have distinct : (issued journal).Nodup := by
    rw [← issuedFirst]
    exact (increasing.imp UInt64.ne_of_lt).sublist (List.take_sublist _ _)
  refine ⟨samples journal, ?_, ?_, ?_, recorded.heard⟩
  · rw [latency, List.map_map]
    exact List.map_congr_left fun sample _ => toInt_latencyNs sample
  · exact (recorded.keeps.nodup_closed distinct).sublist
      (samples_sublist_closed journal)
  · intro sample member
    have closedOnce : sample.1 ∈ closed journal :=
      (samples_sublist_closed journal).subset (List.mem_map_of_mem member)
    rw [issuedFirst]
    exact ⟨recorded.keeps.mem_issued closedOnce, recorded.echoed sample member⟩

end UdpSender

end Sender

/--
The open-loop UDP generator loses no request and counts none twice.  Take any
table of `2 ^ k` slots, any strictly increasing schedule and any interleaving
of sends, arrivals, sweeps and late reads: at every point the requests sent are
those received, those lost and the live slots, and every request has at most
one sample, its own latency.

The code runs through such points until the last loop of `drain_tail`.  That
loop keeps the balance with the slots it has yet to visit, and it ends with
every request received or lost and with no further sample.
-/
theorem udp_generator_loses_nothing
    (k : Fin 32)
    (host : Endian)
    (opt : Options)
    (schedule : List UInt64)
    (increasing : schedule.Pairwise (· < ·))
    (sweepAtNs : UInt64) :
    (∀ actions : List (Action k),
      ((UdpSender.start k schedule sweepAtNs).actAll host opt
          actions).Balanced ∧
        ((UdpSender.start k schedule sweepAtNs).actAll host opt
          actions).SampledOnce schedule
            (actions.flatMap (Action.replies host))) ∧
      ∀ (turns : List Turn) (reads : List (Option (List UInt8)))
        (drained final : UdpSender k),
        drained = ((UdpSender.start k schedule sweepAtNs).runLoop host opt
            turns).drainLoop host reads →
        final = (UdpSender.start k schedule sweepAtNs).runOpenLoop host opt
            turns reads →
          (∃ actions : List (Action k),
            drained = (UdpSender.start k schedule sweepAtNs).actAll host opt
              actions) ∧
            (∀ (visited ahead : List (Fin (2 ^ k.val))) (closing : UdpSender k),
              visited ++ ahead = List.finRange (2 ^ k.val) →
              closing = visited.foldl UdpSender.closeSlot drained →
                closing.result.sent =
                  closing.result.received + closing.result.lost +
                    ahead.countP fun index =>
                      (closing.inflight.get index).live) ∧
            final.result.sent = final.result.received + final.result.lost ∧
            final.result.latency = drained.result.latency := by
  have points : ∀ actions : List (Action k), ∃ journal,
      ((UdpSender.start k schedule sweepAtNs).actAll host opt
        actions).Recorded schedule (actions.flatMap (Action.replies host))
          journal := fun actions =>
    UdpSender.recorded_actAll
      (UdpSender.recorded_start schedule sweepAtNs) host opt actions
  refine ⟨fun actions => ?_, ?_⟩
  · obtain ⟨journal, recorded⟩ := points actions
    exact ⟨recorded.balanced, recorded.sampledOnce increasing⟩
  rintro turns reads drained final drainedBy finalBy
  have reached : Reaches (UdpSender.act host opt)
      (UdpSender.start k schedule sweepAtNs) drained := by
    rw [drainedBy]
    exact (UdpSender.reaches_runLoop _ turns).trans
      (UdpSender.reaches_drainLoop _ reads)
  have balanced : drained.Balanced := by
    obtain ⟨actions, rfl⟩ := reached
    obtain ⟨journal, recorded⟩ := points actions
    exact recorded.balanced
  have closed :
      final =
        (List.finRange (2 ^ k.val)).foldl UdpSender.closeSlot drained := by
    rw [finalBy, drainedBy]
    rfl
  refine ⟨reached, ?_, ?_, ?_⟩
  · rintro visited ahead closing all rfl
    exact balanced.foldl_closeSlot all
  · rw [closed]
    exact balanced.foldl_closeSlot (List.append_nil _)
  · rw [closed, UdpSender.foldl_closeSlot]

/-- A run that sends two requests and hears nothing. -/
def silentRun : Options where
  warmupEndNs := 0
  endNs := 1000
  timeoutNs := 100
  intervalNs := 10
  batchRecv := 32

def silentTurn : Turn where
  now := 30
  calls := [⟨31, true⟩, ⟨32, true⟩]
  arrivals := []
  sweepNow := 40

/-- The two requests share a table of one slot, and both are lost. -/
theorem udp_generator_loses_nothing_silent :
    ([10, 20] : List UInt64).Pairwise (· < ·) ∧
      ((UdpSender.start 0 [10, 20] 500).actAll .little silentRun
        [.attempt 30 ⟨31, true⟩, .attempt 30 ⟨32, true⟩]).Balanced ∧
      ((UdpSender.start 0 [10, 20] 500).runOpenLoop .little silentRun
          [silentTurn] [none]).result.sent =
        ((UdpSender.start 0 [10, 20] 500).runOpenLoop .little silentRun
            [silentTurn] [none]).result.received +
          ((UdpSender.start 0 [10, 20] 500).runOpenLoop .little silentRun
            [silentTurn] [none]).result.lost ∧
      ((UdpSender.start 0 [10, 20] 500).runOpenLoop .little silentRun
        [silentTurn] [none]).result.lost = 2 :=
  have increasing : ([10, 20] : List UInt64).Pairwise (· < ·) := by decide
  have accounted :=
    udp_generator_loses_nothing 0 .little silentRun [10, 20] increasing 500
  ⟨increasing,
    (accounted.1 [.attempt 30 ⟨31, true⟩, .attempt 30 ⟨32, true⟩]).1,
    (accounted.2 [silentTurn] [none] _ _ rfl rfl).2.2.1,
    by decide +kernel⟩

end Policyd.Loadgen
