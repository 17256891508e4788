import Policyd.HttpConnection
import Policyd.SwapRemove

namespace Policyd.HttpFront

/-!
# A worker of the HTTP front

A worker polls its listener together with its connections, accepts what is
pending and then walks its connections from the last to the first.  A closed
connection is removed by moving the last one into its slot, while the poll
results stay in their order.  A round is what the outside does meanwhile: the
poll results, the pending connections, the clock and the outcomes of the calls.
-/

/-- Connections a worker takes at most. -/
def kMaxConnectionsPerWorker : Nat := 4096

/-- Connections a worker accepts in one round at most. -/
def kAcceptsPerRound : Nat := 64

/-- How long a connection may be idle, in milliseconds. -/
def kIdleTimeoutMs : UInt64 := 30000

/-- What a send takes: one byte and up to `more` further ones, or nothing. -/
inductive SendAnswer where
  | sent (more : Nat)
  | again
  | failed
  deriving Repr, DecidableEq

/-- The outcome of a send when `left` bytes are offered. -/
def SendAnswer.outcome (left : Nat) : SendAnswer → Send
  | .sent more => if left ≤ more + 1 then .all else .part (more + 1)
  | .again => .again
  | .failed => .failed

/-- A receive delivers what there is room for; no byte means the end. -/
def Recv.within (room : Nat) : Recv → Recv
  | .bytes chunk =>
    if chunk.take room = [] then .ended else .bytes (chunk.take room)
  | .again => .again
  | .ended => .ended

/-- The outcomes of the calls of one visit: one receive and one send at most. -/
structure Calls where
  recv : Recv := .again
  send : SendAnswer := .again
  deriving Repr, DecidableEq

namespace Connection

/-- Whether a response is not sent completely. -/
def pending (connection : Connection) : Bool :=
  decide (connection.outSent < connection.output.length)

/-- Send what is left of the response. -/
def deliver (connection : Connection) : SendAnswer → Connection
  | .sent more =>
    if connection.output.length ≤ connection.outSent + (more + 1) then
      connection.finishOutput
    else
      { connection with outSent := connection.outSent + (more + 1) }
  | .again => connection
  | .failed => connection.close

/-- Take the first request off the buffer and put its response up. -/
def respond
    (service : Service) (connection : Connection) (buffer : Str)
    (headEnd : Nat) :
    Connection :=
  { connection with
    input := buffer.drop (headEnd + terminator.length)
    output := outputFor service (buffer.take headEnd)
    outSent := 0
    closeAfterWrite := !keepAlive (buffer.take headEnd) }

/-- Handle a buffer that grew: wait, give up, or answer one request. -/
def consume
    (service : Service) (connection : Connection) (buffer : Str)
    (send : SendAnswer) :
    Connection :=
  match Str.findText terminator buffer with
  | none =>
    if kRequestBufferBytes ≤ buffer.length then
      { connection with input := buffer }.close
    else
      { connection with input := buffer }
  | some headEnd =>
    let next := connection.respond service buffer headEnd
    if next.output = [] then next else next.deliver send

end Connection

/-- The counters of a worker. -/
structure Stats where
  connectionsAccepted : UInt64 := 0
  requests : UInt64 := 0
  badRequests : UInt64 := 0
  notFound : UInt64 := 0
  connectionsClosed : UInt64 := 0
  deriving Repr, DecidableEq

namespace Stats

/-- Count a reply; each status is set together with its counter. -/
def countReply (stats : Stats) (reply : Reply) : Stats :=
  if reply.status = 200 then
    { stats with requests := stats.requests + 1 }
  else if reply.status = 404 then
    { stats with notFound := stats.notFound + 1 }
  else if reply.status = 503 then
    stats
  else
    { stats with badRequests := stats.badRequests + 1 }

/-- Count what handling a buffer comes to. -/
def countInput (service : Service) (stats : Stats) (buffer : Str) : Stats :=
  match Str.findText Connection.terminator buffer with
  | none =>
    if kRequestBufferBytes ≤ buffer.length then
      { stats with badRequests := stats.badRequests + 1 }
    else
      stats
  | some headEnd => stats.countReply (replyTo service (buffer.take headEnd))

end Stats

/-- A connection of a worker: its descriptor, its buffers and its clock. -/
structure Client where
  fd : Int := -1
  connection : Connection := {}
  lastActiveNs : UInt64 := 0
  deriving Repr, DecidableEq

/-- A worker: its counters and its connections. -/
structure Worker where
  stats : Stats := {}
  conns : List Client := []
  deriving Repr, DecidableEq

/-- What a poll is asked to wait for. -/
inductive Interest where
  | pollIn
  | pollOut
  deriving Repr, DecidableEq

/-- What a poll reports for a descriptor. -/
structure Revents where
  pollIn : Bool := false
  pollOut : Bool := false
  pollErr : Bool := false
  pollHup : Bool := false
  pollNval : Bool := false
  deriving Repr, DecidableEq

/-- An entry of the array that is polled. -/
structure PollFd where
  fd : Int
  events : Interest
  revents : Revents
  deriving Repr, DecidableEq

/-- A connection that waits to be accepted, and when it is. -/
structure Arrival where
  fd : Int
  acceptedNs : UInt64
  deriving Repr, DecidableEq

/-- What the outside does in one round of a worker. -/
structure Round where
  rc : Int
  listenFd : Int
  -- Poll results by position in the polled array, the listener at zero.
  revents : Nat → Revents
  arrivals : List Arrival
  service : Service
  nowNs : UInt64
  -- The outcomes of the calls by the slot that is visited.
  calls : Nat → Calls

namespace Client

/-- What a connection waits for. -/
def interest (client : Client) : Interest :=
  if client.connection.pending then .pollOut else .pollIn

/-- Close the connection. -/
def close (client : Client) : Client :=
  { client with connection := client.connection.close }

/-- Close the connection when it was idle for too long. -/
def expire (client : Client) (nowNs : UInt64) : Client :=
  if nowNs - client.lastActiveNs > kIdleTimeoutMs * 1000000 then
    client.close
  else
    client

/-- Flush a pending response. -/
def flush (client : Client) (nowNs : UInt64) : SendAnswer → Client
  | .sent more =>
    { client with
      connection := client.connection.deliver (.sent more)
      lastActiveNs := nowNs }
  | answer => { client with connection := client.connection.deliver answer }

end Client

/-- A visited connection together with the counters. -/
structure Served where
  client : Client
  stats : Stats
  deriving Repr, DecidableEq

/-- Receive from a readable connection. -/
def Client.read
    (client : Client) (round : Round) (calls : Calls) (stats : Stats) :
    Served :=
  let room := kRequestBufferBytes - client.connection.input.length
  match calls.recv.within room with
  | .again => { client := client, stats := stats }
  | .ended => { client := client.close, stats := stats }
  | .bytes chunk =>
    let buffer := client.connection.input ++ chunk
    { client :=
        { client with
          connection :=
            client.connection.consume round.service buffer calls.send
          lastActiveNs := round.nowNs }
      stats := stats.countInput round.service buffer }

/-- Visit a connection with its poll result. -/
def serve
    (round : Round) (calls : Calls) (revents : Revents) (client : Client)
    (stats : Stats) :
    Served :=
  if revents.pollErr || revents.pollHup || revents.pollNval then
    { client := client.close, stats := stats }
  else if client.connection.pending then
    if revents.pollOut then
      { client := client.flush round.nowNs calls.send, stats := stats }
    else
      { client := client.expire round.nowNs, stats := stats }
  else if revents.pollIn then
    client.read round calls stats
  else
    { client := client.expire round.nowNs, stats := stats }

/-- The entry of a connection with its poll result. -/
def pollEntry (round : Round) (index : Nat) (client : Client) : PollFd :=
  { fd := client.fd
    events := client.interest
    revents := round.revents (index + 1) }

/-- The array that is polled: the listener and one entry for a connection. -/
def pollFds (round : Round) (worker : Worker) : List PollFd :=
  { fd := round.listenFd, events := .pollIn, revents := round.revents 0 } ::
    worker.conns.mapIdx (pollEntry round)

namespace Worker

/-- Take a new connection. -/
def accept (worker : Worker) (arrival : Arrival) : Worker :=
  { stats :=
      { worker.stats with
        connectionsAccepted := worker.stats.connectionsAccepted + 1 }
    conns :=
      worker.conns ++
        [{ fd := arrival.fd, lastActiveNs := arrival.acceptedNs }] }

/-- The accept loop, with what is left of its budget. -/
def acceptLoop : Nat → List Arrival → Worker → Worker
  | 0, _, worker => worker
  | _ + 1, [], worker => worker
  | budget + 1, arrival :: later, worker =>
    if worker.conns.length < kMaxConnectionsPerWorker then
      acceptLoop budget later (worker.accept arrival)
    else
      worker

/-- Accept what is pending when the listener is readable. -/
def acceptPending (worker : Worker) (round : Round) : Worker :=
  if round.rc > 0 ∧ (round.revents 0).pollIn = true then
    acceptLoop kAcceptsPerRound round.arrivals worker
  else
    worker

/-- Close the connection in a slot; the last one moves into it. -/
def closeConn (worker : Worker) (index : Nat) : Worker :=
  { stats :=
      { worker.stats with
        connectionsClosed := worker.stats.connectionsClosed + 1 }
    conns := SwapRemove.swapRemove worker.conns index }

/-- Put a visited connection back, or close it. -/
def store (worker : Worker) (index : Nat) (served : Served) : Worker :=
  let counted := { worker with stats := served.stats }
  if served.client.connection.isOpen then
    { counted with conns := worker.conns.set index served.client }
  else
    counted.closeConn index

end Worker

/-- One visit: what was found, its poll result, and what became of it. -/
structure Visit where
  client : Client
  polled : PollFd
  after : Client
  deriving Repr, DecidableEq

/-- A pass over the connections: the worker and the visits, newest first. -/
structure Pass where
  worker : Worker
  visits : List Visit := []
  deriving Repr, DecidableEq

/-- The body of the connection loop. -/
def visitSlot
    (round : Round) (polled : List PollFd) (index : Nat) (pass : Pass) :
    Pass :=
  match pass.worker.conns[index]?, polled[index + 1]? with
  | some client, some entry =>
    if entry.fd ≠ client.fd then
      pass
    else
      let served :=
        serve round (round.calls index) entry.revents client
          pass.worker.stats
      { worker := pass.worker.store index served
        visits :=
          { client := client, polled := entry, after := served.client } ::
            pass.visits }
  | _, _ => pass

/-- The connection loop: from the last slot down to the first. -/
def visitSlots (round : Round) (polled : List PollFd) : Nat → Pass → Pass
  | 0, pass => pass
  | index + 1, pass =>
    visitSlots round polled index (visitSlot round polled index pass)

/-- What a round does after a successful poll. -/
def serveConnections (round : Round) (worker : Worker) : Pass :=
  let accepting := worker.acceptPending round
  visitSlots round (pollFds round worker) accepting.conns.length
    { worker := accepting }

/-- One round of the worker loop. -/
def Worker.runRound (worker : Worker) (round : Round) : Worker :=
  if round.rc < 0 then
    worker
  else
    (serveConnections round worker).worker

/-- The rounds of a worker, one after another. -/
def Worker.run (worker : Worker) (rounds : List Round) : Worker :=
  rounds.foldl Worker.runRound worker

end Policyd.HttpFront
