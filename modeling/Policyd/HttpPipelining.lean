import Policyd.FrameStream
import Policyd.HttpConnection
import Policyd.StoreRefinement

namespace Policyd.HttpFront

/-!
# Requests on one connection, however the bytes arrive

A client writes complete request heads one behind the other and the bytes
arrive in chunks.  The worker looks for a request only when bytes arrive and
answers at most one for each chunk, so the heads are answered one by one, in
order and without waiting, exactly when no chunk completes two heads and every
response fits its buffer.
-/

open Connection

/-- The message with which the query of a request is rejected. -/
def rejection (service : Service) (head : Str) : Option Str :=
  match splitRequestLine (requestLine head) with
  | none => none
  | some (method, target) =>
    let (path, query) := splitTarget target
    if path ≠ kEndpoint ∨ method ≠ "GET".toList then
      none
    else
      match service.current with
      | none => none
      | some ruleSet =>
        match parseDecideQuery ruleSet query with
        | .error message => some message
        | .ok _ => none

/-- The reply that rejects a query; the message ends at its first NUL. -/
def rejectionReply (message : Str) : Reply where
  status := 400
  statusText := "Bad Request".toList
  body := errorBody (Str.cString message)

/-- The reply that carries a decision. -/
def decisionReply (decision : PolicyDecision) : Reply where
  status := 200
  statusText := "OK".toList
  body := decisionToJson decision

/-- The replies that repeat nothing of a request. -/
def fixedReplies : List Reply :=
  [{ status := 400
     statusText := "Bad Request".toList
     body := errorBody "malformed request line".toList },
    { status := 404
      statusText := "Not Found".toList
      body := errorBody "no such endpoint".toList },
    { status := 405
      statusText := "Method Not Allowed".toList
      body := errorBody "use GET".toList },
    { status := 503
      statusText := "Service Unavailable".toList
      body := errorBody "no policy loaded".toList }]

/-- A reply is a fixed one, rejects a query or carries a decision. -/
theorem replyTo_cases (service : Service) (head : Str) :
    (rejection service head = none ∧
        replyTo service head ∈ fixedReplies) ∨
      (∃ message,
        rejection service head = some message ∧
          replyTo service head = rejectionReply message ∧
          ∃ ruleSet query, parseDecideQuery ruleSet query = .error message) ∨
      (rejection service head = none ∧
        ∃ decision, replyTo service head = decisionReply decision) := by
  unfold rejection replyTo
  cases splitRequestLine (requestLine head) with
  | none => exact .inl ⟨rfl, List.mem_cons_self⟩
  | some parts =>
    obtain ⟨method, target⟩ := parts
    dsimp only
    by_cases wrongPath : (splitTarget target).1 ≠ kEndpoint
    · rw [if_pos wrongPath, if_pos (.inl wrongPath)]
      exact .inl ⟨rfl, .tail _ List.mem_cons_self⟩
    · by_cases wrongMethod : method ≠ "GET".toList
      · rw [if_neg wrongPath, if_pos wrongMethod, if_pos (.inr wrongMethod)]
        exact .inl ⟨rfl, .tail _ (.tail _ List.mem_cons_self)⟩
      · rw [if_neg wrongPath, if_neg wrongMethod,
          if_neg (not_or.mpr ⟨wrongPath, wrongMethod⟩)]
        cases service.current with
        | none =>
          exact .inl ⟨rfl, .tail _ (.tail _ (.tail _ List.mem_cons_self))⟩
        | some ruleSet =>
          dsimp only
          unfold replyToQuery
          cases parsed :
              parseDecideQuery ruleSet (splitTarget target).2 with
          | error message =>
            exact .inr (.inl ⟨message, rfl, rfl, ruleSet, _, parsed⟩)
          | ok request => exact .inr (.inr ⟨rfl, _, rfl⟩)

/-- A rejection is short enough for the response buffer. -/
def RejectionFits (service : Service) (head : Str) : Prop :=
  ∀ message, rejection service head = some message →
    (Str.cString message).length ≤ 905

private theorem length_verdictName (verdict : UInt8) :
    (verdictName verdict).length ≤ 8 := by
  unfold verdictName
  split_ifs <;> decide

private theorem length_reasonName (reason : UInt8) :
    (reasonName reason).length ≤ 25 := by
  unfold reasonName
  split
  case h_1 known _ => cases known <;> decide
  case h_2 => decide

private theorem length_decimal_uint8 (number : UInt8) :
    (decimal number.toNat).length ≤ 3 :=
  length_decimal_le (by decide) (by have := number.toNat_lt; omega)

private theorem length_decimal_uint32 (number : UInt32) :
    (decimal number.toNat).length ≤ 10 :=
  length_decimal_le (by decide) (by have := number.toNat_lt; omega)

private theorem length_decimal_uint64 (number : UInt64) :
    (decimal number.toNat).length ≤ 20 :=
  length_decimal_le (by decide) (by have := number.toNat_lt; omega)

private theorem length_flatten_le {pieces : List Str} {bounds : List Nat}
    (bounded :
      List.Forall₂ (fun piece bound => piece.length ≤ bound) pieces bounds) :
    pieces.flatten.length ≤ bounds.sum := by
  induction bounded with
  | nil => simp
  | cons first _ inductionHypothesis =>
    rw [List.flatten_cons, List.length_append, List.sum_cons]
    exact Nat.add_le_add first inductionHypothesis

theorem length_decisionText (decision : PolicyDecision) :
    (decisionText decision).length ≤ 306 := by
  have bounded :
      (decisionText decision).length ≤
        [12, 8, 12, 25, 12, 10, 18, 10, 11, 3, 7, 3, 16, 10, 16, 10, 16,
          10, 15, 20, 20, 10, 9, 3, 15, 3, 2].sum := by
    refine length_flatten_le ?_
    exact
      .cons (by decide) <| .cons (length_verdictName _) <|
      .cons (by decide) <| .cons (length_reasonName _) <|
      .cons (by decide) <| .cons (length_decimal_uint32 _) <|
      .cons (by decide) <| .cons (length_decimal_uint32 _) <|
      .cons (by decide) <| .cons (length_decimal_uint8 _) <|
      .cons (by decide) <| .cons (length_decimal_uint8 _) <|
      .cons (by decide) <| .cons (length_decimal_uint32 _) <|
      .cons (by decide) <| .cons (length_decimal_uint32 _) <|
      .cons (by decide) <| .cons (length_decimal_uint32 _) <|
      .cons (by decide) <| .cons (length_decimal_uint64 _) <|
      .cons (by decide) <| .cons (length_decimal_uint32 _) <|
      .cons (by decide) <| .cons (length_decimal_uint8 _) <|
      .cons (by decide) <| .cons (length_decimal_uint8 _) <|
      .cons (by decide) .nil
  exact bounded.trans (by decide)

private theorem length_flatten_eq {pieces : List Str} {lengths : List Nat}
    (measured :
      List.Forall₂ (fun piece length => piece.length = length) pieces lengths) :
    pieces.flatten.length = lengths.sum := by
  induction measured with
  | nil => simp
  | cons first _ inductionHypothesis =>
    rw [List.flatten_cons, List.length_append, List.sum_cons, first,
      inductionHypothesis]

theorem length_headerText (reply : Reply) (keep : Bool) :
    (headerText reply keep).length =
      (decimal reply.status).length + reply.statusText.length +
        (decimal reply.body.length).length +
        (if keep then 88 else 83) := by
  have connection :
      (if keep then "keep-alive".toList else "close".toList).length =
        if keep then 10 else 5 := by
    cases keep <;> decide
  have measured :
      (headerText reply keep).length =
        [9, (decimal reply.status).length, 1, reply.statusText.length, 50,
          (decimal reply.body.length).length, 14, if keep then 10 else 5,
          4].sum :=
    length_flatten_eq <|
      .cons (by decide) <| .cons rfl <| .cons (by decide) <| .cons rfl <|
      .cons (by decide) <| .cons rfl <| .cons (by decide) <|
      .cons connection <| .cons (by decide) .nil
  rw [measured]
  simp only [List.sum_cons, List.sum_nil]
  split_ifs <;> omega

theorem length_errorBody (message : Str) :
    (errorBody message).length = message.length + 13 := by
  have measured : (errorBody message).length = [10, message.length, 3].sum :=
    length_flatten_eq <|
      .cons (by decide) <| .cons rfl <| .cons (by decide) .nil
  rw [measured]
  simp only [List.sum_cons, List.sum_nil]
  omega

theorem response_fits_of_short {reply : Reply}
    (status : reply.status < 1000) (statusText : reply.statusText.length ≤ 19)
    (body : reply.body.length ≤ 800) (keep : Bool) :
    (headerText reply keep ++ reply.body).length < kResponseBufferBytes := by
  have statusDigits :=
    length_decimal_le (by decide : 0 < 3) (by omega : reply.status < 10 ^ 3)
  have lengthDigits :=
    length_decimal_le (by decide : 0 < 3)
      (by omega : reply.body.length < 10 ^ 3)
  have headerBound := length_headerText reply keep
  rw [List.length_append, headerBound, kResponseBufferBytes]
  split_ifs <;> omega

theorem fixedReplies_short :
    ∀ reply ∈ fixedReplies,
      reply.status < 1000 ∧
        reply.statusText.length ≤ 19 ∧ reply.body.length ≤ 800 := by
  decide

theorem decisionToJson_eq (decision : PolicyDecision) :
    decisionToJson decision = decisionText decision :=
  if_pos (Nat.lt_of_le_of_lt (length_decisionText decision) (by decide))

theorem decisionReply_fits (decision : PolicyDecision) (keep : Bool) :
    (headerText (decisionReply decision) keep ++
        decisionToJson decision).length < kResponseBufferBytes := by
  refine response_fits_of_short (by decide : (200 : Nat) < 1000)
    (by decide : "OK".toList.length ≤ 19) ?_ keep
  show (decisionToJson decision).length ≤ 800
  rw [decisionToJson_eq]
  exact (length_decisionText decision).trans (by decide)

theorem rejection_fits_iff (message : Str) :
    (headerText
          { status := 400
            statusText := "Bad Request".toList
            body := errorBody message } true ++
        errorBody message).length < kResponseBufferBytes ↔
      message.length ≤ 905 := by
  have header :=
    length_headerText
      { status := 400
        statusText := "Bad Request".toList
        body := errorBody message } true
  have status : (decimal 400).length = 3 := by decide
  have statusText : "Bad Request".toList.length = 11 := by decide
  dsimp only at header
  rw [status, statusText, if_pos rfl, length_errorBody] at header
  rw [List.length_append, header, length_errorBody, kResponseBufferBytes]
  have threeDigits :
      (decimal (message.length + 13)).length ≤ 3 ↔
        message.length + 13 < 10 ^ 3 :=
    Nat.length_toDigits_le_iff (by decide) (by decide)
  have twoDigits :
      (decimal (message.length + 13)).length ≤ 2 ↔
        message.length + 13 < 10 ^ 2 :=
    Nat.length_toDigits_le_iff (by decide) (by decide)
  constructor
  · intro fits
    by_contra long
    have atLeastThree : ¬ (decimal (message.length + 13)).length ≤ 2 := by
      rw [twoDigits]
      omega
    omega
  · intro short
    have atMostThree := threeDigits.mpr (by omega)
    omega

variable {service : Service} {head : Str} {connection : Connection}

/-- A response fits unless it is a rejection with a long message. -/
theorem response_fits_iff (keep : keepAlive head = true) :
    (responseText service head).length < kResponseBufferBytes ↔
      RejectionFits service head := by
  unfold responseText RejectionFits
  rw [keep]
  rcases replyTo_cases service head with
    ⟨accepted, fixed⟩ | ⟨message, rejected, reply, _⟩ |
      ⟨accepted, decision, reply⟩
  · have short := fixedReplies_short _ fixed
    rw [accepted]
    simp only [reduceCtorEq, false_implies, implies_true, iff_true]
    exact response_fits_of_short short.1 short.2.1 short.2.2 true
  · rw [rejected, reply]
    simp only [Option.some.injEq, forall_eq']
    exact rejection_fits_iff (Str.cString message)
  · rw [accepted, reply]
    simp only [reduceCtorEq, false_implies, implies_true, iff_true]
    exact decisionReply_fits decision true

/-- A complete request head that keeps its connection open. -/
structure CompleteHead (head : Str) : Prop where
  ends : Str.findText terminator (head ++ terminator) = some head.length
  fits : head.length + terminator.length ≤ kRequestBufferBytes
  keepsAlive : keepAlive head = true

/-- The bytes of request heads, each with its terminator. -/
def frames (heads : List Str) : List Str :=
  heads.map (· ++ terminator)

/-- A chunk arrives and the response, if there is one, is sent. -/
def arrival (chunk : Str) : Event :=
  .readable (.bytes chunk) .all

/-- The response to a head, if it is sent. -/
def sentFor (service : Service) (head : Str) : Option Str :=
  if (responseText service head).length < kResponseBufferBytes then
    some (responseText service head)
  else
    none

/-- How far a connection is in the stream of some heads. -/
structure Progress
    (service : Service)
    (heads : List Str)
    (received later : Str)
    (consumed : Nat)
    (connection : Connection) : Prop where
  inside : consumed ≤ heads.length
  isOpen : connection.isOpen = true
  flushed : connection.output = []
  stream :
    connection.input ++ later = (frames (heads.drop consumed)).flatten
  position :
    (frames (heads.take consumed)).flatten.length +
        connection.input.length =
      received.length
  answered :
    connection.answered = (heads.take consumed).filterMap (sentFor service)

private theorem responseText_ne_nil (service : Service) (head : Str) :
    responseText service head ≠ [] := by
  intro isEmpty
  have lengthZero := congrArg List.length isEmpty
  rw [responseText, List.length_append, length_headerText] at lengthZero
  split_ifs at lengthZero <;> simp at lengthZero

/-- A wholly received head is answered and its bytes are dropped. -/
theorem handleInput_whole (complete : CompleteHead head) (kept : Str) :
    connection.handleInput service ((head ++ terminator) ++ kept) .all =
      some
        { connection with
          input := kept
          output := []
          outSent := 0
          closeAfterWrite := false
          answered :=
            connection.answered ++ (sentFor service head).toList } := by
  have found := Str.findText_append complete.ends kept
  have headShape : ((head ++ terminator) ++ kept).take head.length = head := by
    simp
  have keptShape :
      ((head ++ terminator) ++ kept).drop
          (head.length + terminator.length) =
        kept := by
    rw [← List.length_append, List.drop_left]
  rw [handleInput, found]
  dsimp only
  rw [headShape, keptShape, complete.keepsAlive]
  by_cases fits : (responseText service head).length < kResponseBufferBytes
  · have output : outputFor service head = responseText service head := by
      rw [outputFor, if_pos fits]
    rw [output, if_neg (responseText_ne_nil service head), sentFor, if_pos fits]
    simp [sendOutput, finishOutput]
  · have output : outputFor service head = [] := by
      rw [outputFor, if_neg fits]
    rw [output, if_pos rfl, sentFor, if_neg fits]
    simp

/-- A head that is not wholly received is waited for. -/
theorem handleInput_part {buffer missing : Str} (complete : CompleteHead head)
    (shape : head ++ terminator = buffer ++ missing)
    (short : buffer.length < (head ++ terminator).length) (send : Send) :
    connection.handleInput service buffer send =
      some { connection with input := buffer } := by
  have ends := complete.ends
  have fits := complete.fits
  rw [List.length_append] at short
  rw [shape] at ends
  have notFound := Str.findText_eq_none_of_short ends short
  rw [handleInput, notFound]
  dsimp only
  rw [if_neg (by omega)]

theorem handleInput_of_arrival {next : Connection} {chunk : Str}
    (flushed : connection.output = [])
    (ran : connection.step service (arrival chunk) = some next) :
    chunk ≠ [] ∧
      connection.handleInput service (connection.input ++ chunk) .all =
        some next := by
  unfold Connection.step arrival at ran
  split_ifs at ran with isClosed pending
  · rw [flushed] at pending
    exact absurd pending (Nat.not_lt_zero _)
  · dsimp only at ran
    split_ifs at ran with impossible
    exact ⟨(not_or.mp impossible).1, ran⟩

/-- A chunk answers one head, if it leaves one complete. -/
theorem Progress.step
    {heads : List Str} {received later chunk : Str} {consumed : Nat}
    {next : Connection}
    (complete : ∀ head ∈ heads, CompleteHead head)
    (progress :
      Progress service heads received (chunk ++ later) consumed connection)
    (ran : connection.step service (arrival chunk) = some next) :
    Progress service heads (received ++ chunk) later
      (consumed +
        min 1
          (Frames.completed (frames (heads.drop consumed))
            (connection.input.length + chunk.length)))
      next := by
  obtain ⟨nonempty, handled⟩ := handleInput_of_arrival progress.flushed ran
  have stream := progress.stream
  have position := progress.position
  rw [← List.append_assoc] at stream
  cases remaining : heads.drop consumed with
  | nil =>
    rw [remaining] at stream
    simp only [frames, List.map_nil, List.flatten_nil,
      List.append_eq_nil_iff] at stream
    exact (nonempty stream.1.2).elim
  | cons head rest =>
    have headComplete : CompleteHead head :=
      complete head (List.mem_of_mem_drop (remaining ▸ List.mem_cons_self))
    have inside : consumed < heads.length := by
      by_contra outside
      rw [List.drop_eq_nil_of_le (by omega)] at remaining
      cases remaining
    have dropNext : heads.drop (consumed + 1) = rest := by
      rw [← List.drop_drop, remaining]
      rfl
    have takeNext :
        heads.take (consumed + 1) = heads.take consumed ++ [head] := by
      rw [List.take_add, remaining]
      rfl
    rw [remaining] at stream
    have framesShape :
        frames (head :: rest) = (head ++ terminator) :: frames rest := rfl
    rw [framesShape] at stream ⊢
    rcases Frames.received_cases stream with
      ⟨kept, bufferShape, keptStream⟩ | ⟨short, missing, shape⟩
    · have received := congrArg List.length bufferShape
      rw [List.length_append, List.length_append] at received
      rw [bufferShape, handleInput_whole headComplete] at handled
      cases handled
      rw [Frames.completed, if_pos (by omega), Nat.min_eq_left (by omega)]
      exact
        { inside := inside
          isOpen := progress.isOpen
          flushed := rfl
          stream := by rw [dropNext]; exact keptStream
          position := by
            rw [takeNext, frames, List.map_append, List.flatten_append,
              List.length_append, List.length_append, ← position, frames]
            simp only [List.map_cons, List.map_nil, List.flatten_cons,
              List.flatten_nil, List.append_nil] at received ⊢
            omega
          answered := by
            rw [takeNext, List.filterMap_append, ← progress.answered]
            cases sent : sentFor service head <;> simp [sent] }
    · rw [handleInput_part headComplete shape short] at handled
      cases handled
      rw [List.length_append] at short
      rw [Frames.completed, if_neg (by omega), Nat.min_zero]
      exact
        { progress with
          stream := by
            rw [Nat.add_zero, remaining]
            exact stream
          position := by
            rw [Nat.add_zero, List.length_append, List.length_append]
            omega }

/-- Receive chunks on a new connection. -/
def receiveAll (service : Service) (chunks : List Str) : Option Connection :=
  runActions (Connection.step service) {} (chunks.map arrival)

/-- The number of heads that the first bytes of a stream complete. -/
def headsWithin (heads : List Str) (length : Nat) : Nat :=
  Frames.completed (frames heads) length

section Runs

variable {service : Service}
variable {heads : List Str}

variable {final connection : Connection} {chunks : List Str} {later : Str}

theorem receiveAll_append {earlier later : List Str}
    (ran : receiveAll service (earlier ++ later) = some final) :
    ∃ middle, receiveAll service earlier = some middle := by
  rw [receiveAll, List.map_append, runActions_append,
    Option.bind_eq_some_iff] at ran
  obtain ⟨middle, earlierRan, _⟩ := ran
  exact ⟨middle, earlierRan⟩

theorem receiveAll_concat {earlier : List Str} {chunk : Str}
    (ran : receiveAll service (earlier ++ [chunk]) = some final) :
    ∃ middle,
      receiveAll service earlier = some middle ∧
        middle.step service (arrival chunk) = some final := by
  rw [receiveAll, List.map_append, runActions_append,
    Option.bind_eq_some_iff] at ran
  obtain ⟨middle, earlierRan, lastRan⟩ := ran
  simp only [List.map_cons, List.map_nil, runActions_cons,
    runActions_nil] at lastRan
  exact ⟨middle, earlierRan, by simpa using lastRan⟩

theorem progress_of_run (complete : ∀ head ∈ heads, CompleteHead head)
    (stream : chunks.flatten ++ later = (frames heads).flatten)
    (ran : receiveAll service chunks = some connection) :
    ∃ consumed,
      Progress service heads chunks.flatten later consumed connection := by
  induction chunks using List.reverseRecOn generalizing later connection with
  | nil =>
    cases ran
    exact ⟨0,
      { inside := Nat.zero_le _
        isOpen := rfl
        flushed := rfl
        stream := stream
        position := rfl
        answered := rfl }⟩
  | append_singleton earlier chunk inductionHypothesis =>
    obtain ⟨middle, earlierRan, lastRan⟩ := receiveAll_concat ran
    have flat : (earlier ++ [chunk]).flatten = earlier.flatten ++ chunk := by
      simp
    rw [flat] at stream ⊢
    rw [List.append_assoc] at stream
    obtain ⟨consumed, progress⟩ := inductionHypothesis stream earlierRan
    exact ⟨_, progress.step complete lastRan⟩

/-- The heads completed so far are those consumed and those waiting. -/
theorem Progress.headsWithin_eq {received : Str} {consumed : Nat}
    (progress : Progress service heads received later consumed connection)
    (more : Nat) :
    headsWithin heads (received.length + more) =
      consumed +
        Frames.completed (frames (heads.drop consumed))
          (connection.input.length + more) := by
  have inside : consumed ≤ (frames heads).length := by
    rw [frames, List.length_map]
    exact progress.inside
  have counted :=
    Frames.completed_take_add (frames heads) inside
      (connection.input.length + more)
  have takeShape :
      (frames heads).take consumed = frames (heads.take consumed) := by
    rw [frames, frames, List.map_take]
  have dropShape :
      (frames heads).drop consumed = frames (heads.drop consumed) := by
    rw [frames, frames, List.map_drop]
  rw [takeShape, dropShape, ← Nat.add_assoc, progress.position] at counted
  exact counted

/-- No complete head is waiting when all completed heads were consumed. -/
theorem Progress.nothing_waiting_iff
    (complete : ∀ head ∈ heads, CompleteHead head)
    {received : Str} {consumed : Nat}
    (progress : Progress service heads received later consumed connection) :
    Str.findText terminator connection.input = none ↔
      consumed = headsWithin heads received.length := by
  have counted := progress.headsWithin_eq 0
  have stream := progress.stream
  rw [Nat.add_zero, Nat.add_zero] at counted
  rw [counted]
  cases remaining : heads.drop consumed with
  | nil =>
    rw [remaining] at stream
    have isEmpty : connection.input = [] := by
      simp only [frames, List.map_nil, List.flatten_nil,
        List.append_eq_nil_iff] at stream
      exact stream.1
    rw [isEmpty]
    exact iff_of_true (by decide) (by simp [frames, Frames.completed])
  | cons head rest =>
    have headComplete : CompleteHead head :=
      complete head (List.mem_of_mem_drop (remaining ▸ List.mem_cons_self))
    have framesShape :
        frames (head :: rest) = (head ++ terminator) :: frames rest := rfl
    rw [remaining, framesShape] at stream
    rw [framesShape]
    rcases Frames.received_cases stream with
      ⟨kept, inputShape, _⟩ | ⟨short, missing, shape⟩
    · have found := Str.findText_append headComplete.ends kept
      rw [← inputShape] at found
      have received := congrArg List.length inputShape
      rw [List.length_append] at received
      rw [found, Frames.completed, if_pos (by omega)]
      exact iff_of_false (by simp) (by omega)
    · have ends := headComplete.ends
      rw [shape] at ends
      have shortEnd := short
      rw [List.length_append] at shortEnd
      rw [Str.findText_eq_none_of_short ends shortEnd, Frames.completed,
        if_neg (by omega)]
      simp

/-- After some chunks every completed head is answered and none is waiting. -/
structure AnsweredSoFar
    (service : Service)
    (heads : List Str)
    (received : Str)
    (connection : Connection) : Prop where
  isOpen : connection.isOpen = true
  nothingWaiting : Str.findText terminator connection.input = none
  answered :
    connection.answered =
      (heads.take (headsWithin heads received.length)).map
        (responseText service)

/-- Behind every chunk, every completed head is answered, in order. -/
def AnswersInOrder (service : Service) (heads chunks : List Str) : Prop :=
  ∀ earlier later connection,
    chunks = earlier ++ later →
      receiveAll service earlier = some connection →
        AnsweredSoFar service heads earlier.flatten connection

/-- No chunk completes two heads. -/
def OneHeadPerChunk (heads chunks : List Str) : Prop :=
  ∀ earlier chunk later,
    chunks = earlier ++ chunk :: later →
      headsWithin heads (earlier.flatten.length + chunk.length) ≤
        headsWithin heads earlier.flatten.length + 1

theorem consumed_of_oneHeadPerChunk
    (complete : ∀ head ∈ heads, CompleteHead head)
    (stream : chunks.flatten ++ later = (frames heads).flatten)
    (onePerChunk : OneHeadPerChunk heads chunks)
    (ran : receiveAll service chunks = some connection) :
    Progress service heads chunks.flatten later
      (headsWithin heads chunks.flatten.length) connection := by
  induction chunks using List.reverseRecOn generalizing later connection with
  | nil =>
    obtain ⟨consumed, progress⟩ := progress_of_run complete stream ran
    cases ran
    have counted := (progress.nothing_waiting_iff complete).mp (by decide)
    rw [← counted]
    exact progress
  | append_singleton earlier chunk inductionHypothesis =>
    obtain ⟨middle, earlierRan, lastRan⟩ := receiveAll_concat ran
    have flat : (earlier ++ [chunk]).flatten = earlier.flatten ++ chunk := by
      simp
    rw [flat] at stream ⊢
    rw [List.append_assoc] at stream
    have earlierOne : OneHeadPerChunk heads earlier := by
      intro first middleChunk rest shape
      refine onePerChunk first middleChunk (rest ++ [chunk]) ?_
      rw [shape, List.append_assoc, List.cons_append]
    have progress := inductionHypothesis stream earlierOne earlierRan
    have counted := progress.headsWithin_eq chunk.length
    have bound := onePerChunk earlier chunk [] rfl
    have next := progress.step complete lastRan
    rw [Nat.min_eq_right (by omega), ← counted] at next
    rw [List.length_append]
    exact next

theorem filterMap_sentFor {answered : List Str}
    (fits : ∀ head ∈ answered,
      (responseText service head).length < kResponseBufferBytes) :
    answered.filterMap (sentFor service) =
      answered.map (responseText service) := by
  rw [← List.filterMap_eq_map]
  refine List.filterMap_congr ?_
  intro head member
  simp [sentFor, fits head member]

section

variable (complete : ∀ head ∈ heads, CompleteHead head)
    (stream : chunks.flatten = (frames heads).flatten)
    (ran : receiveAll service chunks = some final)

include complete stream ran

/-- Where every answer comes in time, no chunk completes two heads. -/
theorem oneHeadPerChunk_of_answersInOrder
    (inOrder : AnswersInOrder service heads chunks) :
    OneHeadPerChunk heads chunks := by
  intro earlier chunk later shape
  have cut :
      earlier.flatten ++ (chunk ++ later.flatten) =
        (frames heads).flatten := by
    rw [← stream, shape]
    simp
  have concat : chunks = (earlier ++ [chunk]) ++ later := by
    rw [shape, List.append_assoc]
    rfl
  obtain ⟨afterChunk, chunkRan⟩ := receiveAll_append (concat ▸ ran)
  obtain ⟨before, beforeRan, lastRan⟩ := receiveAll_concat chunkRan
  obtain ⟨consumed, progress⟩ := progress_of_run complete cut beforeRan
  have caughtUp :=
    (progress.nothing_waiting_iff complete).mp
      (inOrder earlier (chunk :: later) before shape beforeRan).nothingWaiting
  have next := progress.step complete lastRan
  have flat : (earlier ++ [chunk]).flatten = earlier.flatten ++ chunk := by
    simp
  have nextWaiting :=
    (inOrder (earlier ++ [chunk]) later afterChunk concat
      chunkRan).nothingWaiting
  have nextCaughtUp := (next.nothing_waiting_iff complete).mp nextWaiting
  rw [List.length_append] at nextCaughtUp
  omega

/-- Where every head was answered, every response fitted. -/
theorem rejectionFits_of_answersInOrder
    (inOrder : AnswersInOrder service heads chunks) :
    ∀ head ∈ heads, RejectionFits service head := by
  intro head member
  have streamNil : chunks.flatten ++ [] = (frames heads).flatten := by
    rw [List.append_nil, stream]
  have allWithin : headsWithin heads chunks.flatten.length = heads.length := by
    rw [stream, headsWithin, Frames.completed_flatten, frames, List.length_map]
  have finalAnswered :=
    (inOrder chunks [] final (List.append_nil chunks).symm ran).answered
  obtain ⟨consumed, progress⟩ := progress_of_run complete streamNil ran
  rw [allWithin, List.take_length, progress.answered] at finalAnswered
  -- As many responses as heads, so every head was consumed and answered.
  have lengths := congrArg List.length finalAnswered
  rw [List.length_map] at lengths
  have short := List.length_filterMap_le (sentFor service) (heads.take consumed)
  have inside := progress.inside
  rw [List.length_take] at short
  have whole : consumed = heads.length := by omega
  rw [whole, List.take_length, List.filterMap_length_eq_length] at lengths
  have sent := lengths head member
  rw [← response_fits_iff (complete head member).keepsAlive]
  by_contra tooLong
  simp [sentFor, tooLong] at sent

/-- Behind every chunk some heads are waiting or answered; the condition. -/
theorem answersInOrder_iff :
    AnswersInOrder service heads chunks ↔
      OneHeadPerChunk heads chunks ∧
        ∀ head ∈ heads, RejectionFits service head := by
  constructor
  · intro inOrder
    exact ⟨oneHeadPerChunk_of_answersInOrder complete stream ran inOrder,
      rejectionFits_of_answersInOrder complete stream ran inOrder⟩
  · rintro ⟨onePerChunk, fits⟩ earlier later connection shape earlierRan
    have cut : earlier.flatten ++ later.flatten = (frames heads).flatten := by
      rw [← stream, shape, List.flatten_append]
    have earlierOne : OneHeadPerChunk heads earlier := by
      intro first chunk rest earlierShape
      refine onePerChunk first chunk (rest ++ later) ?_
      rw [shape, earlierShape, List.append_assoc, List.cons_append]
    have progress :=
      consumed_of_oneHeadPerChunk complete cut earlierOne earlierRan
    refine ⟨progress.isOpen,
      (progress.nothing_waiting_iff complete).mpr rfl, ?_⟩
    rw [progress.answered]
    refine filterMap_sentFor ?_
    intro head member
    have headMember := List.mem_of_mem_take member
    exact (response_fits_iff (complete head headMember).keepsAlive).mpr
      (fits head headMember)

end

end Runs

/--
Two ways of cutting the bytes of some heads give the same answers, one for each
head, in order and without a complete head waiting, exactly when neither cut
has a chunk that completes two heads and every rejection fits its buffer.
-/
theorem answers_independent_of_cuts_iff
    {service : Service}
    {heads first second : List Str}
    {firstFinal secondFinal : Connection}
    (complete : ∀ head ∈ heads, CompleteHead head)
    (firstStream : first.flatten = (frames heads).flatten)
    (secondStream : second.flatten = (frames heads).flatten)
    (firstRan : receiveAll service first = some firstFinal)
    (secondRan : receiveAll service second = some secondFinal) :
    AnswersInOrder service heads first ∧
        AnswersInOrder service heads second ∧
        firstFinal.answered = secondFinal.answered ↔
      OneHeadPerChunk heads first ∧ OneHeadPerChunk heads second ∧
        ∀ head ∈ heads, RejectionFits service head := by
  rw [answersInOrder_iff complete firstStream firstRan,
    answersInOrder_iff complete secondStream secondRan]
  constructor
  · rintro ⟨⟨firstOne, fits⟩, ⟨secondOne, _⟩, _⟩
    exact ⟨firstOne, secondOne, fits⟩
  · rintro ⟨firstOne, secondOne, fits⟩
    refine ⟨⟨firstOne, fits⟩, ⟨secondOne, fits⟩, ?_⟩
    have firstOrder :=
      (answersInOrder_iff complete firstStream firstRan).mpr
        ⟨firstOne, fits⟩
    have secondOrder :=
      (answersInOrder_iff complete secondStream secondRan).mpr
        ⟨secondOne, fits⟩
    rw [(firstOrder first [] firstFinal (List.append_nil first).symm
        firstRan).answered,
      (secondOrder second [] secondFinal (List.append_nil second).symm
        secondRan).answered, firstStream, secondStream]

/-- A service with an empty rule set and no subscribers. -/
def emptyService : Service where
  current := some {}
  lookup := fun _ => none
  now := 0

/-- A request for another path. -/
def otherHead : Str :=
  "GET / HTTP/1.1".toList

/-- A request for the decision endpoint. -/
def decideHead : Str :=
  "GET /v1/decide?imsi=1 HTTP/1.1".toList

/-- Two requests in a chunk each, and the first one cut in two. -/
theorem answers_independent_of_cuts_two_requests :
    AnswersInOrder emptyService [otherHead, decideHead]
        [otherHead ++ terminator, decideHead ++ terminator] ∧
      AnswersInOrder emptyService [otherHead, decideHead]
        ["GET ".toList, "/ HTTP/1.1".toList ++ terminator,
          decideHead ++ terminator] := by
  have complete : ∀ head ∈ [otherHead, decideHead], CompleteHead head := by
    intro head member
    simp only [List.mem_cons, List.not_mem_nil, or_false] at member
    rcases member with rfl | rfl
    · exact ⟨by decide, by decide, by decide⟩
    · exact ⟨by decide, by decide, by decide⟩
  have fits :
      ∀ head ∈ [otherHead, decideHead], RejectionFits emptyService head := by
    intro head member message rejected
    simp only [List.mem_cons, List.not_mem_nil, or_false] at member
    have accepted : rejection emptyService head = none := by
      rcases member with rfl | rfl <;> decide +kernel
    rw [accepted] at rejected
    cases rejected
  obtain ⟨first, firstRan⟩ := Option.isSome_iff_exists.mp
    (by decide +kernel :
      (receiveAll emptyService
        [otherHead ++ terminator, decideHead ++ terminator]).isSome = true)
  obtain ⟨second, secondRan⟩ := Option.isSome_iff_exists.mp
    (by decide +kernel :
      (receiveAll emptyService
        ["GET ".toList, "/ HTTP/1.1".toList ++ terminator,
          decideHead ++ terminator]).isSome = true)
  have answered :=
    (answers_independent_of_cuts_iff complete (by decide) (by decide)
      firstRan secondRan).mpr ⟨?_, ?_, fits⟩
  · exact ⟨answered.1, answered.2.1⟩
  · intro earlier chunk later shape
    rcases earlier with _ | ⟨one, _ | ⟨two, rest⟩⟩
    · cases shape
      decide
    · cases shape
      decide
    · simp at shape
  · intro earlier chunk later shape
    rcases earlier with _ | ⟨one, _ | ⟨two, _ | ⟨three, rest⟩⟩⟩
    · cases shape
      decide
    · cases shape
      decide
    · cases shape
      decide
    · simp at shape

/-- A request with an unknown parameter of nine hundred bytes. -/
def longHead : Str :=
  "GET /v1/decide?".toList ++ List.replicate 900 'a' ++ " HTTP/1.1".toList

/--
Two complete requests in one chunk: one is answered and the other waits in the
buffer.  A rejection that does not fit: no answer at all.
-/
theorem request_left_waiting_and_request_not_answered :
    (receiveAll emptyService
          [otherHead ++ terminator ++ decideHead ++ terminator]).map
        (fun connection =>
          (connection.answered.length,
            Str.findText terminator connection.input)) =
      some (1, some decideHead.length) ∧
      (receiveAll emptyService
            [otherHead ++ terminator, decideHead ++ terminator]).map
          (fun connection => connection.answered.length) =
        some 2 ∧
      CompleteHead longHead ∧
      (receiveAll emptyService [longHead ++ terminator]).map
          (fun connection =>
            (connection.answered, connection.isOpen, connection.input)) =
        some ([], true, []) := by
  refine ⟨by decide +kernel, by decide +kernel, ⟨?_, ?_, ?_⟩,
    by decide +kernel⟩
  · decide +kernel
  · decide +kernel
  · decide +kernel

end Policyd.HttpFront
