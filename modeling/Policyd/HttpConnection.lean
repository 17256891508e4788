import Policyd.ActionRun
import Policyd.DecideQuery

namespace Policyd.HttpFront

/-!
# One connection of the HTTP front

A readable connection receives into a fixed buffer; once the buffer holds a
complete request head, one request is answered and the bytes behind it are
kept.  What a send leaves is flushed when the socket becomes writable again,
and nothing is received in the meantime.  The rule set, the records and the
clock are fixed while a connection is observed.
-/

/-- Bytes of a request buffer. -/
def kRequestBufferBytes : Nat := 4096

/-- Bytes of a response buffer. -/
def kResponseBufferBytes : Nat := 1024

/-- The path of the decision endpoint. -/
def kEndpoint : Str :=
  "/v1/decide".toList

/-- A decision as JSON text. -/
def decisionText (decision : PolicyDecision) : Str :=
  List.flatten
    ["\x7b\"verdict\":\"".toList, verdictName decision.verdict,
      "\",\"reason\":\"".toList, reasonName decision.reason,
      "\",\"rule_id\":".toList, decimal decision.ruleId.toNat,
      ",\"policy_version\":".toList, decimal decision.policyVersion.toNat,
      ",\"qos_5qi\":".toList, decimal decision.qos5qi.toNat,
      ",\"arp\":".toList, decimal decision.arp.toNat,
      ",\"ambr_ul_kbps\":".toList, decimal decision.ambrUlKbps.toNat,
      ",\"ambr_dl_kbps\":".toList, decimal decision.ambrDlKbps.toNat,
      ",\"rating_group\":".toList, decimal decision.ratingGroup.toNat,
      ",\"quota_bytes\":".toList, decimal decision.quotaBytes.toNat,
      ",\"quota_validity_s\":".toList,
      decimal decision.quotaValidityS.toNat,
      ",\"flags\":".toList, decimal decision.flags.toNat,
      ",\"redirect_id\":".toList, decimal decision.redirectId.toNat,
      "\x7d\n".toList]

/-- The JSON body of a decision, or nothing when it does not fit. -/
def decisionToJson (decision : PolicyDecision) : Str :=
  if (decisionText decision).length < kResponseBufferBytes then
    decisionText decision
  else
    []

/-- An error as JSON text. -/
def errorBody (message : Str) : Str :=
  List.flatten
    ["\x7b\"error\":\"".toList, message, "\"\x7d\n".toList]

/-- The status line and the body of a response. -/
structure Reply where
  status : Nat
  statusText : Str
  body : Str
  deriving Repr, DecidableEq

/-- What a response depends on besides the request. -/
structure Service where
  current : Option RuleSet
  lookup : UInt64 → Option SubscriberRecord
  now : UInt64

/-- The request line of a head. -/
def requestLine (head : Str) : Str :=
  match Str.findText "\r\n".toList head with
  | some lineEnd => head.take lineEnd
  | none => head

/-- The method and the target of a request line. -/
def splitRequestLine (line : Str) : Option (Str × Str) := do
  let first ← Str.findChar ' ' line
  let rest := line.drop (first + 1)
  let second ← Str.findChar ' ' rest
  return (line.take first, rest.take second)

/-- The path and the query of a target. -/
def splitTarget (target : Str) : Str × Str :=
  match Str.findChar '?' target with
  | some mark => (target.take mark, target.drop (mark + 1))
  | none => (target, [])

/-- The reply to a query of the decision endpoint. -/
def replyToQuery
    (service : Service) (ruleSet : RuleSet)
    (query : Str) : Reply :=
  match parseDecideQuery ruleSet query with
  | .error message =>
    -- The message passes through a C string and ends at its first NUL.
    { status := 400
      statusText := "Bad Request".toList
      body := errorBody (Str.cString message) }
  | .ok request =>
    let record := service.lookup request.imsi
    { status := 200
      statusText := "OK".toList
      body :=
        decisionToJson
          (evaluate ruleSet (withHomePlmn request record) record
            service.now) }

/-- The reply to a request head. -/
def replyTo (service : Service) (head : Str) : Reply :=
  match splitRequestLine (requestLine head) with
  | none =>
    { status := 400
      statusText := "Bad Request".toList
      body := errorBody "malformed request line".toList }
  | some (method, target) =>
    let (path, query) := splitTarget target
    if path ≠ kEndpoint then
      { status := 404
        statusText := "Not Found".toList
        body := errorBody "no such endpoint".toList }
    else if method ≠ "GET".toList then
      { status := 405
        statusText := "Method Not Allowed".toList
        body := errorBody "use GET".toList }
    else
      match service.current with
      | none =>
        { status := 503
          statusText := "Service Unavailable".toList
          body := errorBody "no policy loaded".toList }
      | some ruleSet => replyToQuery service ruleSet query

/-- Whether a request keeps its connection open. -/
def keepAlive (head : Str) : Bool :=
  (Str.findText "close".toList head).isNone

/-- The header of a response. -/
def headerText (reply : Reply) (keep : Bool) : Str :=
  List.flatten
    ["HTTP/1.1 ".toList, decimal reply.status, " ".toList,
      reply.statusText,
      "\r\nContent-Type: application/json\r\nContent-Length: ".toList,
      decimal reply.body.length,
      "\r\nConnection: ".toList,
      if keep then "keep-alive".toList else "close".toList,
      "\r\n\r\n".toList]

/-- The whole response to a request head. -/
def responseText (service : Service) (head : Str) : Str :=
  let reply := replyTo service head
  headerText reply (keepAlive head) ++ reply.body

/-- What is put into the response buffer: nothing when it does not fit. -/
def outputFor (service : Service) (head : Str) : Str :=
  if (responseText service head).length < kResponseBufferBytes then
    responseText service head
  else
    []

/-- The outcome of a send. -/
inductive Send where
  | all
  | part (count : Nat)
  | again
  | failed
  deriving Repr, DecidableEq

/-- The outcome of a receive. -/
inductive Recv where
  | bytes (chunk : Str)
  | again
  | ended
  deriving Repr, DecidableEq

/-- What a poll reports for a connection. -/
inductive Event where
  | readable (recv : Recv) (send : Send)
  | writable (send : Send)
  | hangUp
  deriving Repr, DecidableEq

/-- The state of a connection and the responses that were sent on it. -/
structure Connection where
  input : Str := []
  output : Str := []
  outSent : Nat := 0
  closeAfterWrite : Bool := false
  isOpen : Bool := true
  answered : List Str := []
  deriving Repr, DecidableEq

namespace Connection

/-- Close the connection. -/
def close (connection : Connection) : Connection :=
  { connection with isOpen := false }

/-- The response was sent completely. -/
def finishOutput (connection : Connection) : Connection :=
  { connection with
    output := []
    outSent := 0
    answered := connection.answered ++ [connection.output]
    isOpen := connection.isOpen && !connection.closeAfterWrite }

/-- Send what is left of the response; `none` is an impossible outcome. -/
def sendOutput (connection : Connection) : Send → Option Connection
  | .all => some connection.finishOutput
  | .part count =>
    if 0 < count ∧ connection.outSent + count < connection.output.length then
      some { connection with outSent := connection.outSent + count }
    else
      none
  | .again => some connection
  | .failed => some connection.close

/-- The terminator of a request head. -/
def terminator : Str :=
  "\r\n\r\n".toList

/-- Handle received bytes; at most one request is answered. -/
def handleInput
    (service : Service) (connection : Connection) (buffer : Str)
    (send : Send) :
    Option Connection :=
  match Str.findText terminator buffer with
  | none =>
    some
      (if kRequestBufferBytes ≤ buffer.length then
        { connection with input := buffer }.close
      else
        { connection with input := buffer })
  | some headEnd =>
    let head := buffer.take headEnd
    let next :=
      { connection with
        input := buffer.drop (headEnd + terminator.length)
        output := outputFor service head
        outSent := 0
        closeAfterWrite := !keepAlive head }
    if next.output = [] then
      some next
    else
      next.sendOutput send

/-- One poll of the connection; `none` is an impossible event. -/
def step (service : Service) (connection : Connection) (event : Event) :
    Option Connection :=
  if connection.isOpen = false then
    none
  else
    match event with
    | .hangUp => some connection.close
    | .writable send =>
      if connection.outSent < connection.output.length then
        connection.sendOutput send
      else
        some connection
    | .readable recv send =>
      if connection.outSent < connection.output.length then
        -- A pending response is flushed before anything is received.
        some connection
      else
        match recv with
        | .again => some connection
        | .ended => some connection.close
        | .bytes chunk =>
          if chunk = [] ∨
              kRequestBufferBytes - connection.input.length <
                chunk.length then
            none
          else
            connection.handleInput service (connection.input ++ chunk)
              send

end Connection

end Policyd.HttpFront
