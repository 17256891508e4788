import Policyd.CNumbers
import Policyd.Loadgen
import Policyd.LoadgenQuery

namespace Policyd.Loadgen

/-!
# The open-loop generator over HTTP

`HttpPool` keeps a number of connections with one outstanding request each;
`Sender` drives it with the same loop as over UDP.  The clock, the sockets and
the peer are the environment: what `send`, `recv`, `poll` and `connect` return.
-/

/-- Bytes of a connection's input buffer. -/
def kConnBuffer : Nat :=
  4096

/-- A persistent connection. -/
structure Conn where
  isOpen : Bool := false
  busy : Bool := false
  seq : UInt32 := 0
  scheduledNs : UInt64 := 0
  issuedNs : UInt64 := 0
  input : Str := List.replicate kConnBuffer (Char.ofNat 0)
  inLen : Nat := 0
  headerEnd : Nat := 0
  contentLen : Nat := 0
deriving Repr, DecidableEq

/-- What `recv` returns: bytes, none when the peer has closed, or an error. -/
inductive Recv where
  | bytes (data : Str)
  | error (again : Bool)
deriving Repr, DecidableEq

/-- What became of a connection that was read. -/
inductive Outcome where
  | waiting
  | complete
  | closed
  | overrun
deriving Repr, DecidableEq

namespace Conn

/-- Scan the header once it is complete. -/
def scanHeader (c : Conn) : Conn :=
  let buf := c.input.take c.inLen
  if c.headerEnd = 0 then
    match Str.findText "\r\n\r\n".toList buf with
    | none => c
    | some headEnd =>
      { c with
        headerEnd := headEnd + 4
        contentLen :=
          match Str.findText "Content-Length: ".toList buf with
          | none => 0
          | some position =>
            match strtoull 10 (c.input.drop (position + 16)) with
            | none => 0
            | some (value, _) => value.toNat }
  else
    c

/-- Whether a whole response has arrived; the sum is one of `size_t`. -/
def responseComplete (c : Conn) : Bool :=
  c.headerEnd ≠ 0 && (c.headerEnd + c.contentLen) % 2 ^ 64 ≤ c.inLen

/-- Close a connection. -/
def drop (c : Conn) : Conn :=
  { c with isOpen := false, busy := false }

/-- Read from a connection that `poll` reports. -/
def read (c : Conn) : Recv → Outcome × Conn
  | .error true => (.waiting, c)
  | .error false => (.closed, c.drop)
  | .bytes data =>
    let got := data.take (kConnBuffer - c.inLen)
    if got = [] then
      (.closed, c.drop)
    else
      let filled :=
        { c with
          input := c.input.take c.inLen ++ got ++
            c.input.drop (c.inLen + got.length)
          inLen := c.inLen + got.length }.scanHeader
      if filled.responseComplete then
        (.complete, filled)
      else if kConnBuffer ≤ filled.inLen then
        (.overrun, { filled.drop with inLen := 0 })
      else
        (.waiting, filled)

/-- Free a connection whose response is complete. -/
def release (c : Conn) : Conn :=
  { c with busy := false, inLen := 0 }

/-- Close a connection and open it again, which may fail. -/
def recycle (c : Conn) (connected : Bool) : Conn :=
  { c with isOpen := connected, busy := false, inLen := 0 }

/-- Put a request on a connection. -/
def claim (c : Conn) (seq : UInt32) (scheduledNs nowNs : UInt64) :
    Conn :=
  { c with
    busy := true
    seq := seq
    scheduledNs := scheduledNs
    issuedNs := nowNs
    inLen := 0
    headerEnd := 0
    contentLen := 0 }

end Conn

/-- The connections and the one to try next. -/
structure HttpPool where
  conns : List Conn
  cursor : Nat := 0
deriving Repr, DecidableEq

/-- The request as it is printed. -/
def requestText (host : Str) (request : PolicyRequest) (seq : UInt32) : Str :=
  List.flatten
    ["GET /v1/decide?".toList, issueQuery request seq,
      " HTTP/1.1\r\nHost: ".toList, host, "\r\n\r\n".toList]

namespace HttpPool

/-- The loop of `issue`: try the connections in turn, each at most once. -/
def issueLoop
    (text : Str) (seq : UInt32) (scheduledNs nowNs : UInt64) (sent : Int) :
    Nat → HttpPool → Bool × HttpPool
  | 0, pool => (false, pool)
  | tries + 1, pool =>
    match pool.conns[pool.cursor]? with
    | none => (false, pool)
    | some c =>
      let advanced :=
        { pool with cursor := (pool.cursor + 1) % pool.conns.length }
      if c.busy || !c.isOpen then
        issueLoop text seq scheduledNs nowNs sent tries advanced
      else if 512 ≤ text.length then
        (false, advanced)
      else if sent ≠ text.length then
        (false, advanced)
      else
        (true,
          { advanced with
            conns := pool.conns.set pool.cursor
              (c.claim seq scheduledNs nowNs) })

/-- Claim a free connection and issue a request on it. -/
def issue
    (pool : HttpPool) (text : Str) (seq : UInt32) (scheduledNs nowNs : UInt64)
    (sent : Int) :
    Bool × HttpPool :=
  issueLoop text seq scheduledNs nowNs sent pool.conns.length pool

/-- Connections with an outstanding request. -/
def busyCount (pool : HttpPool) : Nat :=
  pool.conns.countP Conn.busy

end HttpPool

/-- A sender thread that speaks HTTP. -/
structure HttpSender where
  pool : HttpPool
  schedule : List UInt64
  seq : UInt32 := 0
  sweepAtNs : UInt64 := 0
  result : ThreadResult := {}
deriving Repr, DecidableEq

/-- One issue that the schedule makes due: the request and what `send` says. -/
structure IssueCall where
  request : PolicyRequest
  issueAt : UInt64
  sent : Int
deriving Repr, DecidableEq

/-- What a connection reports to one `poll`, and when it is read. -/
structure Readiness where
  recv : Recv
  recvNs : UInt64
deriving Repr, DecidableEq

/-- What the environment does during one iteration of the loop. -/
structure HttpTurn where
  now : UInt64
  calls : List IssueCall
  ready : Nat → Option Readiness
  sweepNow : UInt64
  connected : Nat → Bool

namespace HttpSender

/-- One attempt of the send loop. -/
def attempt
    (host : Str) (opt : Options) (now : UInt64) (sender : HttpSender)
    (call : IssueCall) :
    Bool × HttpSender :=
  match sender.schedule with
  | [] => (false, sender)
  | scheduled :: owed =>
    let result := sender.result.noteSlip opt.intervalNs (now - scheduled)
    let issued := sender.pool.issue
      (requestText host call.request sender.seq) sender.seq scheduled
      call.issueAt call.sent
    if issued.1 then
      (true,
        { sender with
          pool := issued.2
          result :=
            result.noteSent scheduled call.issueAt (opt.warmupEndNs ≤ now)
          seq := sender.seq + 1
          schedule := owed })
    else
      (false,
        { sender with
          pool := issued.2
          result :=
            { result with
              connectionStarved := result.connectionStarved + 1 } })

/-- Count a complete response by its verdict. -/
def noteResponse
    (result : ThreadResult) (c : Conn) (recvNs : UInt64) (measuring : Bool) :
    ThreadResult :=
  let body := (c.input.drop c.headerEnd).take c.contentLen
  if (Str.findText "\"verdict\":\"ALLOW\"".toList body).isSome then
    { result with allowed := result.allowed + 1 }.complete c.scheduledNs
      recvNs measuring
  else if (Str.findText "\"verdict\":\"DENY\"".toList body).isSome then
    { result with denied := result.denied + 1 }.complete c.scheduledNs
      recvNs measuring
  else if (Str.findText "\"verdict\":\"REDIRECT\"".toList body).isSome then
    { result with redirected := result.redirected + 1 }.complete c.scheduledNs
      recvNs measuring
  else
    { result with badReplies := result.badReplies + 1 }

/-- Put a connection back into the pool. -/
def setConn (sender : HttpSender) (index : Nat) (c : Conn) : HttpSender :=
  { sender with
    pool := { sender.pool with conns := sender.pool.conns.set index c } }

/-- What `drain` does with a connection it has read. -/
def afterRead
    (onComplete : ThreadResult → Conn → UInt64 → ThreadResult)
    (sender : HttpSender) (index : Nat) (recvNs : UInt64) :
    Outcome × Conn → HttpSender
  | (.complete, filled) =>
    { sender.setConn index filled.release with
      result := onComplete sender.result filled recvNs }
  | (_, next) => sender.setConn index next

/-- `drain` at one connection: only a busy one is polled. -/
def drainConn
    (onComplete : ThreadResult → Conn → UInt64 → ThreadResult)
    (ready : Nat → Option Readiness) (sender : HttpSender) (index : Nat) :
    HttpSender :=
  match sender.pool.conns[index]?, ready index with
  | some c, some readiness =>
    if c.busy && c.isOpen then
      sender.afterRead onComplete index readiness.recvNs
        (c.read readiness.recv)
    else
      sender
  | _, _ => sender

/-- Poll every busy connection and read those that report. -/
def drain
    (onComplete : ThreadResult → Conn → UInt64 → ThreadResult)
    (ready : Nat → Option Readiness) (sender : HttpSender) :
    HttpSender :=
  (List.range sender.pool.conns.length).foldl (drainConn onComplete ready)
    sender

/-- Reopen a connection and count the loss and the reconnect. -/
def recycleConn
    (sender : HttpSender) (index : Nat) (c : Conn) (connected : Bool)
    (lost : Nat) :
    HttpSender :=
  { sender.setConn index (c.recycle connected) with
    result :=
      { sender.result with
        lost := sender.result.lost + lost
        reconnects :=
          if connected then
            sender.result.reconnects + 1
          else
            sender.result.reconnects } }

/-- The sweep at one connection. -/
def sweepConn
    (timeoutNs sweepNow : UInt64) (connected : Nat → Bool)
    (sender : HttpSender) (index : Nat) :
    HttpSender :=
  match sender.pool.conns[index]? with
  | none => sender
  | some c =>
    if !c.isOpen then
      sender.recycleConn index c (connected index) 0
    else if c.busy && c.issuedNs < sweepNow &&
        timeoutNs < sweepNow - c.issuedNs then
      sender.recycleConn index c (connected index) 1
    else
      sender

/-- Reopen closed connections and retire requests past the timeout. -/
def sweep
    (timeoutNs sweepNow : UInt64) (connected : Nat → Bool)
    (sender : HttpSender) :
    HttpSender :=
  (List.range sender.pool.conns.length).foldl
    (sweepConn timeoutNs sweepNow connected) sender

/-- One iteration of the loop. -/
def turn (host : Str) (opt : Options) (sender : HttpSender) (env : HttpTurn) :
    HttpSender :=
  let sent := sendDue (attempt host opt env.now) 0 sender env.calls
  let drained := sent.drain
    (fun result c recvNs =>
      noteResponse result c recvNs (opt.warmupEndNs ≤ env.now))
    env.ready
  if drained.sweepAtNs ≤ env.now then
    { drained.sweep opt.timeoutNs env.sweepNow env.connected with
      sweepAtNs := env.sweepNow + opt.timeoutNs }
  else
    drained

/-- The loop while the window is open. -/
def runLoop
    (host : Str) (opt : Options) (sender : HttpSender)
    (turns : List HttpTurn) :
    HttpSender :=
  runTurns HttpTurn.now (turn host opt) opt.endNs sender turns

/-- After the window every complete response counts as received. -/
def noteLate (result : ThreadResult) (_ : Conn) (_ : UInt64) : ThreadResult :=
  { result with received := result.received + 1 }

/-- The loop of `drain_tail`, until nothing is busy or the deadline. -/
def drainLoop :
    HttpSender → List (Nat → Option Readiness) → HttpSender
  | sender, [] => sender
  | sender, ready :: later =>
    if sender.pool.busyCount = 0 then
      sender
    else
      drainLoop (sender.drain noteLate ready) later

/-- The last loop of `drain_tail`; the connections themselves stay. -/
def drainTail (sender : HttpSender) (polls : List (Nat → Option Readiness)) :
    HttpSender :=
  let drained := sender.drainLoop polls
  { drained with
    result :=
      { drained.result with
        lost := drained.result.lost + drained.pool.busyCount } }

/-- A whole run. -/
def runOpenLoop
    (host : Str) (opt : Options) (sender : HttpSender) (turns : List HttpTurn)
    (polls : List (Nat → Option Readiness)) :
    HttpSender :=
  (sender.runLoop host opt turns).drainTail polls

/-- A sender whose connections have all been opened. -/
def start (connections : Nat) (schedule : List UInt64) (sweepAtNs : UInt64) :
    HttpSender where
  pool := { conns := List.replicate (max 1 connections) { isOpen := true } }
  schedule := schedule
  sweepAtNs := sweepAtNs

end HttpSender

end Policyd.Loadgen
