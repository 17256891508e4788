import Policyd.HttpPool
import Policyd.RequestJournal

namespace Policyd.Loadgen

open RequestJournal

/-!
# The HTTP generator forgets the requests of dropped connections

A busy connection is freed by a complete response, by the sweep, by the peer
closing it and by a response that fills its buffer.  The last two count nothing
anywhere.  Beside every run there is a journal of what became of each request,
where such a request is forgotten.
-/

section Books

/-- The request that a connection waits for. -/
def Conn.held (c : Conn) : Option UInt64 :=
  if c.busy then some c.scheduledNs else none

/-- The requests that wait for a response. -/
def HttpPool.waiting (pool : HttpPool) : Multiset UInt64 :=
  HeldSlots.items Conn.held pool.conns

theorem HttpPool.card_waiting (pool : HttpPool) :
    pool.waiting.card = pool.busyCount := by
  rw [waiting, HeldSlots.card_items, busyCount]
  refine List.countP_congr fun c _ => ?_
  cases busy : c.busy <;> simp [Conn.held, busy]

/-- The counters of a result, with the requests that nobody counts. -/
def ThreadResult.counts (result : ThreadResult) (forgotten : Nat) : Counts where
  issued := result.sent
  answered := result.received
  refused := result.badReplies
  writtenOff := result.lost
  forgotten := forgotten

/-- The books of a pool and a result agree with a journal. -/
structure PoolRecorded
    (pool : HttpPool)
    (counted : Counts)
    (journal : List (Entry UInt64 Unit)) :
    Prop where
  busyOpen : ∀ c ∈ pool.conns, c.busy = true → c.isOpen = true
  keeps : Keeps journal pool.waiting
  counted : RequestJournal.counts journal = counted

namespace PoolRecorded

variable
  {pool : HttpPool}
  {counted : Counts}
  {journal : List (Entry UInt64 Unit)}
  {index cursor : Nat}
  {old new : Conn}

theorem of_conns {next : HttpPool}
    (recorded : PoolRecorded pool counted journal)
    (same : next.conns = pool.conns) :
    PoolRecorded next counted journal where
  busyOpen := by
    rw [same]
    exact recorded.busyOpen
  keeps := by
    rw [HttpPool.waiting, same]
    exact recorded.keeps
  counted := recorded.counted

theorem busyOpen_set (recorded : PoolRecorded pool counted journal)
    (newOpen : new.busy = true → new.isOpen = true) :
    ∀ c ∈ pool.conns.set index new, c.busy = true → c.isOpen = true := by
  intro c member busy
  rcases List.mem_or_eq_of_mem_set member with earlier | rfl
  · exact recorded.busyOpen c earlier busy
  · exact newOpen busy

theorem keep (recorded : PoolRecorded pool counted journal)
    (stored : pool.conns[index]? = some old)
    (newOpen : new.busy = true → new.isOpen = true)
    (kept : new.held = old.held) :
    PoolRecorded { pool with conns := pool.conns.set index new } counted
      journal where
  busyOpen := recorded.busyOpen_set newOpen
  keeps := by
    rw [HttpPool.waiting, HeldSlots.items_keep stored kept]
    exact recorded.keeps
  counted := recorded.counted

/-- A connection is freed, and an entry says how. -/
theorem close
    (entry : Entry UInt64 Unit) (recorded : PoolRecorded pool counted journal)
    (stored : pool.conns[index]? = some old) (busy : old.busy = true)
    (freed : new.busy = false) (closes : entry.closes = some old.scheduledNs) :
    PoolRecorded { pool with conns := pool.conns.set index new }
      (counted.post entry) (journal ++ [entry]) where
  busyOpen := recorded.busyOpen_set fun stillBusy => by
    rw [freed] at stillBusy
    cases stillBusy
  keeps := by
    have holds : old.held = some old.scheduledNs := if_pos busy
    have empty : new.held = none := by
      rw [Conn.held, freed]
      rfl
    have waited := recorded.keeps
    rw [HttpPool.waiting, HeldSlots.items_vacate stored holds empty] at waited
    exact waited.close closes
  counted := by
    rw [counts_concat, recorded.counted]

/-- A free connection is claimed. -/
theorem claim (recorded : PoolRecorded pool counted journal)
    (stored : pool.conns[index]? = some old) (vacant : old.busy = false)
    (isOpen : old.isOpen = true) (seq : UInt32) (scheduledNs nowNs : UInt64) :
    PoolRecorded
      { conns := pool.conns.set index (old.claim seq scheduledNs nowNs)
        cursor := cursor }
      (counted.post (.issued scheduledNs : Entry UInt64 Unit))
      (journal ++ [.issued scheduledNs]) where
  busyOpen := recorded.busyOpen_set fun _ => isOpen
  keeps := by
    have empty : old.held = none := by
      rw [Conn.held, vacant]
      rfl
    have holds :
        (old.claim seq scheduledNs nowNs).held = some scheduledNs := rfl
    rw [HttpPool.waiting, HeldSlots.items_occupy stored empty holds]
    exact recorded.keeps.issue scheduledNs
  counted := by
    rw [counts_concat, recorded.counted]

end PoolRecorded

/-- Either no connection has changed, or a free one has been claimed. -/
def HttpPool.Issued
    (pool : HttpPool) (seq : UInt32) (scheduledNs nowNs : UInt64)
    (outcome : Bool × HttpPool) :
    Prop :=
  outcome.1 = false ∧ outcome.2.conns = pool.conns ∨
    outcome.1 = true ∧
      ∃ index c cursor,
        pool.conns[index]? = some c ∧ c.busy = false ∧ c.isOpen = true ∧
          outcome.2 =
            { conns := pool.conns.set index (c.claim seq scheduledNs nowNs)
              cursor := cursor }

theorem HttpPool.issued_issueLoop
    (text : Str) (seq : UInt32) (scheduledNs nowNs : UInt64) (sent : Int)
    (tries : Nat) (pool : HttpPool) :
    pool.Issued seq scheduledNs nowNs
      (issueLoop text seq scheduledNs nowNs sent tries pool) := by
  induction tries generalizing pool with
  | zero => exact Or.inl ⟨rfl, rfl⟩
  | succ tries inductionHypothesis =>
    rw [issueLoop]
    cases stored : pool.conns[pool.cursor]? with
    | none => exact Or.inl ⟨rfl, rfl⟩
    | some c =>
      by_cases occupied : (c.busy || !c.isOpen) = true
      · simp only [occupied, if_true]
        exact inductionHypothesis
          { pool with cursor := (pool.cursor + 1) % pool.conns.length }
      · by_cases long : 512 ≤ text.length
        · simp only [occupied, long, if_true, if_false, Bool.false_eq_true]
          exact Or.inl ⟨rfl, rfl⟩
        · by_cases whole : sent = text.length
          · simp only [occupied, long, whole, ne_eq, not_true_eq_false,
              if_false, Bool.false_eq_true]
            simp only [Bool.or_eq_true, Bool.not_eq_true', not_or,
              Bool.not_eq_true, Bool.not_eq_false] at occupied
            exact Or.inr ⟨rfl, _, c, _, stored, occupied.1, occupied.2, rfl⟩
          · simp only [occupied, long, whole, ne_eq, not_false_eq_true,
              if_true, if_false, Bool.false_eq_true]
            exact Or.inl ⟨rfl, rfl⟩

end Books

section Counting

variable (result : ThreadResult) (forgotten : Nat)

theorem ThreadResult.counts_noteSlip (intervalNs slip : UInt64) :
    (result.noteSlip intervalNs slip).counts forgotten =
      result.counts forgotten := by
  by_cases late : intervalNs < slip <;> simp [noteSlip, counts, late]

theorem ThreadResult.counts_noteSent
    (scheduledNs issueAt : UInt64) (measuring : Bool) :
    (result.noteSent scheduledNs issueAt measuring).counts forgotten =
      (result.counts forgotten).post
        (.issued scheduledNs : Entry UInt64 Unit) := by
  cases measuring <;> rfl

theorem ThreadResult.counts_complete
    (scheduledNs recvNs : UInt64) (inWindow : Bool) :
    (result.complete scheduledNs recvNs inWindow).counts forgotten =
      (result.counts forgotten).post
        (.answered scheduledNs none : Entry UInt64 Unit) := by
  cases inWindow <;> rfl

/-- What is done with a complete response closes its request. -/
def Closes (onComplete : ThreadResult → Conn → UInt64 → ThreadResult) : Prop :=
  ∀ (result : ThreadResult) (c : Conn) (recvNs : UInt64) (forgotten : Nat),
    ∃ entry : Entry UInt64 Unit,
      entry.closes = some c.scheduledNs ∧
        (onComplete result c recvNs).counts forgotten =
          (result.counts forgotten).post entry

/-- In the window a response is received or a bad reply. -/
theorem closes_noteResponse (measuring : Bool) :
    Closes fun result c recvNs =>
      HttpSender.noteResponse result c recvNs measuring := by
  intro result c recvNs forgotten
  have received : ∀ result : ThreadResult,
      ∃ entry : Entry UInt64 Unit,
        entry.closes = some c.scheduledNs ∧
          (result.complete c.scheduledNs recvNs measuring).counts forgotten =
            (result.counts forgotten).post entry := fun result =>
    ⟨.answered c.scheduledNs none, rfl, result.counts_complete _ _ _ _⟩
  simp only [HttpSender.noteResponse]
  generalize (c.input.drop c.headerEnd).take c.contentLen = body
  by_cases allow :
      (Str.findText "\"verdict\":\"ALLOW\"".toList body).isSome = true
  · rw [if_pos allow]
    exact received { result with allowed := result.allowed + 1 }
  by_cases deny :
      (Str.findText "\"verdict\":\"DENY\"".toList body).isSome = true
  · rw [if_neg allow, if_pos deny]
    exact received { result with denied := result.denied + 1 }
  by_cases redirect :
      (Str.findText "\"verdict\":\"REDIRECT\"".toList body).isSome = true
  · rw [if_neg allow, if_neg deny, if_pos redirect]
    exact received { result with redirected := result.redirected + 1 }
  · rw [if_neg allow, if_neg deny, if_neg redirect]
    exact ⟨.refused c.scheduledNs, rfl, rfl⟩

theorem closes_noteLate : Closes HttpSender.noteLate :=
  fun _ c _ _ => ⟨.answered c.scheduledNs none, rfl, rfl⟩

/-- The exits that leave a request to nobody. -/
def Outcome.dropped : Outcome → Bool
  | .waiting => false
  | .complete => false
  | .closed => true
  | .overrun => true

/-- A connection that waits for the same request as another. -/
structure Conn.Same (c next : Conn) : Prop where
  busy : next.busy = c.busy
  isOpen : next.isOpen = c.isOpen
  scheduledNs : next.scheduledNs = c.scheduledNs

theorem Conn.same_scanHeader (c : Conn) : c.Same c.scanHeader := by
  rw [scanHeader]
  by_cases unseen : c.headerEnd = 0
  · rw [if_pos unseen]
    cases Str.findText "\r\n\r\n".toList (c.input.take c.inLen) <;>
      exact ⟨rfl, rfl, rfl⟩
  · rw [if_neg unseen]
    exact ⟨rfl, rfl, rfl⟩

/-- A dropped connection is free; another one keeps its request. -/
def Conn.ReadTo (c : Conn) (after : Outcome × Conn) : Prop :=
  after.1.dropped = true ∧ after.2.busy = false ∨
    after.1.dropped = false ∧ c.Same after.2

theorem Conn.readTo_read (c : Conn) (recv : Recv) :
    c.ReadTo (c.read recv) := by
  cases recv with
  | error again =>
    cases again with
    | false => exact Or.inl ⟨rfl, rfl⟩
    | true => exact Or.inr ⟨rfl, rfl, rfl, rfl⟩
  | bytes data =>
    rw [read]
    generalize data.take (kConnBuffer - c.inLen) = got
    by_cases none : got = []
    · rw [if_pos none]
      exact Or.inl ⟨rfl, rfl⟩
    · rw [if_neg none]
      have same := Conn.same_scanHeader
        { c with
          input := c.input.take c.inLen ++ got ++
            c.input.drop (c.inLen + got.length)
          inLen := c.inLen + got.length }
      revert same
      generalize Conn.scanHeader
        { c with
          input := c.input.take c.inLen ++ got ++
            c.input.drop (c.inLen + got.length)
          inLen := c.inLen + got.length } = filled
      intro same
      by_cases done : filled.responseComplete = true
      · rw [if_pos done]
        exact Or.inr ⟨rfl, same.busy, same.isOpen, same.scheduledNs⟩
      · rw [if_neg done]
        by_cases full : kConnBuffer ≤ filled.inLen
        · rw [if_pos full]
          exact Or.inl ⟨rfl, rfl⟩
        · rw [if_neg full]
          exact Or.inr ⟨rfl, same.busy, same.isOpen, same.scheduledNs⟩

end Counting

namespace HttpSender

/-- The books of a sender agree with a journal. -/
def Recorded
    (forgotten : Nat) (sender : HttpSender)
    (journal : List (Entry UInt64 Unit)) :
    Prop :=
  PoolRecorded sender.pool (sender.result.counts forgotten) journal

section Steps

variable
  {forgotten : Nat}
  {sender : HttpSender}
  {journal : List (Entry UInt64 Unit)}

/-- An attempt issues the next request or leaves the books alone. -/
theorem recorded_attempt
    (recorded : sender.Recorded forgotten journal) (host : Str) (opt : Options)
    (now : UInt64) (call : IssueCall) :
    ∃ later, (sender.attempt host opt now call).2.Recorded forgotten later := by
  cases due : sender.schedule with
  | nil =>
    rw [attempt, due]
    exact ⟨journal, recorded⟩
  | cons scheduled owed =>
    have outcome := HttpPool.issued_issueLoop
      (requestText host call.request sender.seq) sender.seq scheduled
      call.issueAt call.sent sender.pool.conns.length sender.pool
    rw [← HttpPool.issue] at outcome
    simp only [attempt, due]
    revert outcome
    generalize sender.pool.issue
      (requestText host call.request sender.seq) sender.seq scheduled
      call.issueAt call.sent = issued
    rintro (⟨refused, unchanged⟩ | ⟨taken, claimed⟩)
    · refine ⟨journal, ?_⟩
      rw [if_neg (ne_true_of_eq_false refused)]
      have noted :
          PoolRecorded issued.2
            ((sender.result.noteSlip opt.intervalNs
              (now - scheduled)).counts forgotten) journal := by
        rw [ThreadResult.counts_noteSlip]
        exact PoolRecorded.of_conns recorded unchanged
      exact noted
    · obtain ⟨index, c, cursor, stored, vacant, isOpen, after⟩ := claimed
      refine ⟨journal ++ [.issued scheduled], ?_⟩
      rw [if_pos taken, after, Recorded, ThreadResult.counts_noteSent,
        ThreadResult.counts_noteSlip]
      exact PoolRecorded.claim recorded stored vacant isOpen _ _ _

/-- Whether reading a connection leaves its request to nobody. -/
def forgets
    (ready : Nat → Option Readiness) (sender : HttpSender) (index : Nat) :
    Nat :=
  match sender.pool.conns[index]?, ready index with
  | some c, some readiness =>
    if c.busy && c.isOpen && (c.read readiness.recv).1.dropped then 1 else 0
  | _, _ => 0

section

variable {onComplete : ThreadResult → Conn → UInt64 → ThreadResult}
    (closes : Closes onComplete)
    (recorded : sender.Recorded forgotten journal)

include closes recorded

theorem recorded_afterRead {index : Nat} {c : Conn} {after : Outcome × Conn}
    (stored : sender.pool.conns[index]? = some c) (busy : c.busy = true)
    (isOpen : c.isOpen = true) (readTo : c.ReadTo after) (recvNs : UInt64) :
    ∃ later,
      (sender.afterRead onComplete index recvNs after).Recorded
        (forgotten + if after.1.dropped then 1 else 0) later := by
  obtain ⟨outcome, next⟩ := after
  rcases readTo with ⟨dropped, freed⟩ | ⟨kept, same⟩
  · refine ⟨journal ++ [.forgotten c.scheduledNs], ?_⟩
    rw [if_pos dropped]
    cases outcome with
    | waiting => cases dropped
    | complete => cases dropped
    | closed =>
      exact PoolRecorded.close (.forgotten c.scheduledNs) recorded stored
        busy freed rfl
    | overrun =>
      exact PoolRecorded.close (.forgotten c.scheduledNs) recorded stored
        busy freed rfl
  · rw [if_neg (ne_true_of_eq_false kept)]
    cases outcome with
    | closed => cases kept
    | overrun => cases kept
    | waiting =>
      have sameRequest : next.held = c.held := by
        rw [Conn.held, Conn.held, same.busy, same.scheduledNs]
      have nextOpen : next.busy = true → next.isOpen = true :=
        fun _ => same.isOpen.trans isOpen
      exact ⟨journal, PoolRecorded.keep recorded stored nextOpen sameRequest⟩
    | complete =>
      obtain ⟨entry, closesOwn, counted⟩ :=
        closes sender.result next recvNs forgotten
      rw [same.scheduledNs] at closesOwn
      refine ⟨journal ++ [entry], ?_⟩
      rw [Recorded, afterRead, Nat.add_zero, counted]
      exact PoolRecorded.close entry recorded stored busy rfl closesOwn

/-- Reading a connection keeps its request, closes it or forgets it. -/
theorem recorded_drainConn (ready : Nat → Option Readiness) (index : Nat) :
    ∃ later,
      (sender.drainConn onComplete ready index).Recorded
        (forgotten + sender.forgets ready index) later := by
  rw [drainConn, forgets]
  cases stored : sender.pool.conns[index]? with
  | none => exact ⟨journal, recorded⟩
  | some c =>
    cases ready index with
    | none => exact ⟨journal, recorded⟩
    | some readiness =>
      by_cases polled : (c.busy && c.isOpen) = true
      · simp only [polled, if_true, Bool.true_and]
        rw [Bool.and_eq_true] at polled
        exact recorded_afterRead closes recorded stored polled.1 polled.2
          (c.readTo_read readiness.recv) readiness.recvNs
      · simp only [polled, Bool.false_and, Bool.false_eq_true, if_false]
        exact ⟨journal, recorded⟩

end

/-- The sweep writes off a request or leaves the books alone. -/
theorem recorded_sweepConn (recorded : sender.Recorded forgotten journal)
    (timeoutNs sweepNow : UInt64) (connected : Nat → Bool) (index : Nat) :
    ∃ later,
      (sender.sweepConn timeoutNs sweepNow connected index).Recorded forgotten
        later := by
  rw [sweepConn]
  cases stored : sender.pool.conns[index]? with
  | none => exact ⟨journal, recorded⟩
  | some c =>
    simp only
    cases isOpen : c.isOpen with
    | false =>
      -- A closed connection is idle, so that no request is lost here.
      have idle : c.busy = false := by
        by_contra busy
        have opened := recorded.busyOpen c
          (List.mem_of_getElem? stored) (Bool.not_eq_false _ ▸ busy)
        rw [isOpen] at opened
        cases opened
      have sameRequest : (c.recycle (connected index)).held = c.held := by
        rw [Conn.held, Conn.held, idle]
        rfl
      exact ⟨journal, PoolRecorded.keep recorded stored
        (fun busy => by cases busy) sameRequest⟩
    | true =>
      by_cases expired :
          (c.busy && c.issuedNs < sweepNow &&
            timeoutNs < sweepNow - c.issuedNs) = true
      · have busy : c.busy = true := by
          simp only [Bool.and_eq_true] at expired
          exact expired.1.1
        rw [Bool.not_true, if_neg Bool.false_ne_true, if_pos expired]
        exact ⟨_, PoolRecorded.close (.writtenOff c.scheduledNs) recorded
          stored busy rfl rfl⟩
      · rw [Bool.not_true, if_neg Bool.false_ne_true, if_neg expired]
        exact ⟨journal, recorded⟩

end Steps

end HttpSender

/-- What a sender does at one point of a run. -/
inductive HttpAction where
  | attempt (now : UInt64) (call : IssueCall)
  | read (measuring : Bool) (ready : Nat → Option Readiness) (index : Nat)
  | sweepConn (sweepNow : UInt64) (connected : Nat → Bool) (index : Nat)
  | rearm (sweepAtNs : UInt64)
  | readLate (ready : Nat → Option Readiness) (index : Nat)

namespace HttpSender

/-- One action of a sender. -/
def act (host : Str) (opt : Options) (sender : HttpSender) :
    HttpAction → HttpSender
  | .attempt now call => (sender.attempt host opt now call).2
  | .read measuring ready index =>
    sender.drainConn
      (fun result c recvNs => noteResponse result c recvNs measuring) ready
      index
  | .sweepConn sweepNow connected index =>
    sender.sweepConn opt.timeoutNs sweepNow connected index
  | .rearm sweepAtNs => { sender with sweepAtNs := sweepAtNs }
  | .readLate ready index => sender.drainConn noteLate ready index

/-- The requests that an action leaves to nobody. -/
def forgetsAt (sender : HttpSender) : HttpAction → Nat
  | .read _ ready index => sender.forgets ready index
  | .readLate ready index => sender.forgets ready index
  | _ => 0

/-- Any interleaving of actions. -/
def actAll
    (host : Str) (opt : Options) (sender : HttpSender)
    (actions : List HttpAction) :
    HttpSender :=
  actions.foldl (act host opt) sender

/-- The requests that an interleaving leaves to nobody. -/
def forgottenBy (host : Str) (opt : Options) :
    HttpSender → List HttpAction → Nat
  | _, [] => 0
  | sender, action :: later =>
    sender.forgetsAt action +
      forgottenBy host opt (sender.act host opt action) later

section Runs

variable
  {host : Str}
  {opt : Options}
  {forgotten : Nat}
  {sender middle next : HttpSender}
  {journal : List (Entry UInt64 Unit)}

/-- Every action keeps the books. -/
theorem recorded_act
    (recorded : sender.Recorded forgotten journal) (action : HttpAction) :
    ∃ later,
      (sender.act host opt action).Recorded
        (forgotten + sender.forgetsAt action) later := by
  cases action with
  | attempt now call =>
    exact recorded_attempt recorded host opt now call
  | read measuring ready index =>
    exact recorded_drainConn (closes_noteResponse measuring) recorded ready
      index
  | sweepConn sweepNow connected index =>
    exact recorded_sweepConn recorded opt.timeoutNs sweepNow connected index
  | rearm sweepAtNs => exact ⟨journal, recorded⟩
  | readLate ready index =>
    exact recorded_drainConn closes_noteLate recorded ready index

theorem recorded_actAll
    (recorded : sender.Recorded forgotten journal) (actions : List HttpAction) :
    ∃ later,
      (sender.actAll host opt actions).Recorded
        (forgotten + sender.forgottenBy host opt actions) later := by
  induction actions generalizing sender forgotten journal with
  | nil => exact ⟨journal, recorded⟩
  | cons action later inductionHypothesis =>
    obtain ⟨after, kept⟩ := recorded_act recorded action
    rw [forgottenBy, ← Nat.add_assoc]
    exact inductionHypothesis kept

theorem recorded_start
    (connections : Nat) (schedule : List UInt64) (sweepAtNs : UInt64) :
    (start connections schedule sweepAtNs).Recorded 0 [] where
  busyOpen := by
    intro c member busy
    rw [List.eq_of_mem_replicate member] at busy
    cases busy
  keeps := by
    rw [HttpPool.waiting, start, HeldSlots.items, List.filterMap_replicate]
    exact keeps_nil
  counted := rfl

theorem Recorded.sent_eq (recorded : sender.Recorded forgotten journal) :
    sender.result.sent =
      sender.result.received + sender.result.badReplies +
        sender.result.lost + forgotten + sender.pool.busyCount := by
  have accounted := recorded.keeps.issued_eq
  rw [recorded.counted, HttpPool.card_waiting] at accounted
  exact accounted

theorem reaches_turn (sender : HttpSender) (env : HttpTurn) :
    Reaches (act host opt) sender (sender.turn host opt env) := by
  have attempted : ∀ sender call,
      Reaches (act host opt) sender (attempt host opt env.now sender call).2 :=
    fun sender call => reaches_act sender (HttpAction.attempt env.now call)
  have sent := reaches_sendDue attempted 0 sender env.calls
  rw [turn]
  generalize sendDue (attempt host opt env.now) 0 sender env.calls = middle
    at sent
  have readConn : ∀ (sender : HttpSender) index,
      Reaches (act host opt) sender
        (sender.drainConn
          (fun result c recvNs =>
            noteResponse result c recvNs (opt.warmupEndNs ≤ env.now))
          env.ready index) :=
    fun sender index =>
      reaches_act sender (HttpAction.read _ env.ready index)
  have drained :=
    reaches_foldl readConn middle (List.range middle.pool.conns.length)
  rw [← drain] at drained
  generalize middle.drain
    (fun result c recvNs =>
      noteResponse result c recvNs (opt.warmupEndNs ≤ env.now))
    env.ready = next at drained
  by_cases sweeping : next.sweepAtNs ≤ env.now
  · have sweptConn : ∀ (sender : HttpSender) index,
        Reaches (act host opt) sender
          (sender.sweepConn opt.timeoutNs env.sweepNow env.connected index) :=
      fun sender index => reaches_act sender
        (HttpAction.sweepConn env.sweepNow env.connected index)
    have swept :=
      reaches_foldl sweptConn next (List.range next.pool.conns.length)
    rw [if_pos sweeping]
    exact ((sent.trans drained).trans swept).trans
      (reaches_act _ (HttpAction.rearm _))
  · rw [if_neg sweeping]
    exact sent.trans drained

theorem reaches_runLoop (sender : HttpSender) (turns : List HttpTurn) :
    Reaches (act host opt) sender (sender.runLoop host opt turns) :=
  reaches_runTurns reaches_turn _ _ _

theorem reaches_drainLoop
    (sender : HttpSender) (polls : List (Nat → Option Readiness)) :
    Reaches (act host opt) sender (sender.drainLoop polls) := by
  induction polls generalizing sender with
  | nil => exact Reaches.refl sender
  | cons ready later inductionHypothesis =>
    rw [drainLoop]
    by_cases done : sender.pool.busyCount = 0
    · rw [if_pos done]
      exact Reaches.refl sender
    · have readLate : ∀ (sender : HttpSender) index,
          Reaches (act host opt) sender
            (sender.drainConn noteLate ready index) :=
        fun sender index =>
          reaches_act sender (HttpAction.readLate ready index)
      have drained :=
        reaches_foldl readLate sender (List.range sender.pool.conns.length)
      rw [if_neg done]
      exact drained.trans (inductionHypothesis _)

end Runs

end HttpSender

/--
The HTTP generator accounts for its requests at a point exactly when no
connection has been dropped before it.  Take any number of connections and any
interleaving of issues, reads of any outcome, sweeps and reconnects.

The code runs through such points until the last loop of `drain_tail`, after
which the requests without an account are those of the dropped connections.
-/
theorem http_generator_accounts_iff
    (host : Str)
    (opt : Options)
    (connections : Nat)
    (schedule : List UInt64)
    (sweepAtNs : UInt64) :
    (∀ actions : List HttpAction,
      ((HttpSender.start connections schedule sweepAtNs).actAll host opt
            actions).result.sent =
          ((HttpSender.start connections schedule sweepAtNs).actAll host opt
              actions).result.received +
            ((HttpSender.start connections schedule sweepAtNs).actAll host opt
              actions).result.badReplies +
            ((HttpSender.start connections schedule sweepAtNs).actAll host opt
              actions).result.lost +
            ((HttpSender.start connections schedule sweepAtNs).actAll host opt
              actions).pool.busyCount ↔
        (HttpSender.start connections schedule sweepAtNs).forgottenBy host opt
          actions = 0) ∧
      ∀ (turns : List HttpTurn) (polls : List (Nat → Option Readiness)),
        ∃ actions : List HttpAction,
          ((HttpSender.start connections schedule sweepAtNs).runLoop host opt
              turns).drainLoop polls =
            (HttpSender.start connections schedule sweepAtNs).actAll host opt
              actions ∧
          ((HttpSender.start connections schedule sweepAtNs).runOpenLoop host
              opt turns polls).result.sent =
            ((HttpSender.start connections schedule sweepAtNs).runOpenLoop host
                opt turns polls).result.received +
              ((HttpSender.start connections schedule sweepAtNs).runOpenLoop
                host opt turns polls).result.badReplies +
              ((HttpSender.start connections schedule sweepAtNs).runOpenLoop
                host opt turns polls).result.lost +
              (HttpSender.start connections schedule sweepAtNs).forgottenBy
                host opt actions := by
  generalize started : HttpSender.start connections schedule sweepAtNs = first
  have points : ∀ actions : List HttpAction,
      (first.actAll host opt actions).result.sent =
        (first.actAll host opt actions).result.received +
          (first.actAll host opt actions).result.badReplies +
          (first.actAll host opt actions).result.lost +
          first.forgottenBy host opt actions +
          (first.actAll host opt actions).pool.busyCount := by
    intro actions
    have recordedFirst : first.Recorded 0 [] := by
      rw [← started]
      exact HttpSender.recorded_start connections schedule sweepAtNs
    obtain ⟨journal, recorded⟩ :=
      HttpSender.recorded_actAll recordedFirst actions
    rw [Nat.zero_add] at recorded
    exact recorded.sent_eq
  refine ⟨fun actions => ?_, fun turns polls => ?_⟩
  · have accounted := points actions
    omega
  · obtain ⟨actions, reached⟩ :
        Reaches (HttpSender.act host opt) first
          ((first.runLoop host opt turns).drainLoop polls) :=
      (HttpSender.reaches_runLoop first turns).trans
        (HttpSender.reaches_drainLoop _ polls)
    refine ⟨actions, reached, ?_⟩
    have accounted := points actions
    rw [HttpSender.actAll, ← reached] at accounted
    simp only [HttpSender.runOpenLoop, HttpSender.drainTail]
    omega

/-- One request is issued, and the peer closes the connection. -/
def hangUpTurn : HttpTurn where
  now := 30
  calls := [⟨{}, 31, 139⟩]
  ready := fun _ => some ⟨.bytes [], 35⟩
  sweepNow := 40
  connected := fun _ => true

def shortWindow : Options where
  warmupEndNs := 0
  endNs := 1000
  timeoutNs := 100
  intervalNs := 10
  batchRecv := 32

/-- The request of a connection that the peer closes is never accounted for. -/
theorem closed_connection_forgotten :
    ((HttpSender.start 1 [10] 500).runOpenLoop "policyd:9501".toList
        shortWindow [hangUpTurn] []).result.sent = 1 ∧
      ((HttpSender.start 1 [10] 500).runOpenLoop "policyd:9501".toList
        shortWindow [hangUpTurn] []).result.received = 0 ∧
      ((HttpSender.start 1 [10] 500).runOpenLoop "policyd:9501".toList
        shortWindow [hangUpTurn] []).result.badReplies = 0 ∧
      ((HttpSender.start 1 [10] 500).runOpenLoop "policyd:9501".toList
        shortWindow [hangUpTurn] []).result.lost = 0 ∧
      ((HttpSender.start 1 [10] 500).runOpenLoop "policyd:9501".toList
        shortWindow [hangUpTurn] []).pool.busyCount = 0 := by
  decide +kernel

end Policyd.Loadgen
