import Policyd.AdminServer
import Policyd.FrameStream

namespace Policyd.AdminServer

open HttpFront
open HttpFront.Connection (terminator)

/-!
# A connection of the admin server

`handle_connection` appends what arrives to one buffer until the head is
complete, and then until the body is.  It looks at the size of the buffer only
between two reads, so the limit on heads holds up to the size of one read.
What is read depends on the bytes and not on how they arrive, unless the buffer
passes the limit with the head still incomplete.
-/

/-- Bytes a buffer without a complete head may have. -/
def kMaxHeaderBytes : Nat := 64 * 1024

/-- Bytes of the largest read. -/
def kChunkBytes : Nat := 4096

/-- Bytes a body may have. -/
def kMaxBodyBytes : Nat := 8 * 1024 * 1024

/-- What a connection brings. -/
inductive Received where
  /-- No complete head, or an oversized one. -/
  | malformed
  | noRequestLine
  | tooLarge
  | request (request : HttpRequest) (body : Str)
  deriving Repr, DecidableEq

/-- Read until the head ends: where, in which buffer, and what is unread. -/
def readHead (buf : Str) : List Str → Option (Nat × Str × List Str)
  | [] => (Str.findText terminator buf).map (·, buf, [])
  | chunk :: later =>
    match Str.findText terminator buf with
    | some headerEnd => some (headerEnd, buf, chunk :: later)
    | none =>
      if kMaxHeaderBytes < buf.length then
        none
      else
        readHead (buf ++ chunk) later

/-- Cut a head into lines; every line is shorter than the fuel. -/
def headerLines : Nat → Str → List Str
  | 0, _ => []
  | fuel + 1, text =>
    match Str.findText "\r\n".toList text with
    | none => [text]
    | some position =>
      text.take position :: headerLines fuel (text.drop (position + 2))

/-- The name of a header in lower case, and its value. -/
def readHeader (line : Str) : Option (Str × Str) :=
  (Str.findChar ':' line).map fun colon =>
    ((line.take colon).map Char.toLower,
      Str.trimLeft " \t".toList (line.drop (colon + 1)))

/-- The length of the body: the last header that gives one counts. -/
def contentLength (head : Str) : Nat :=
  let lines := (headerLines (head.length + 1) head).drop 1
  match (lines.filterMap readHeader).reverse.lookup "content-length".toList with
  | none => 0
  | some value =>
    ((strtoull 10 (Str.cString value)).map (·.1.toNat)).getD 0

/-- Read until the body is complete or nothing more comes. -/
def readBody (bodyStart wanted : Nat) (buf : Str) : List Str → Str
  | [] => buf
  | chunk :: later =>
    if buf.length - bodyStart < wanted then
      readBody bodyStart wanted (buf ++ chunk) later
    else
      buf

/-- Read the request behind a complete head. -/
def readRest (headerEnd : Nat) (buf : Str) (later : List Str) : Received :=
  let head := buf.take headerEnd
  match readRequest (requestLine head) with
  | none => .noRequestLine
  | some request =>
    let wanted := contentLength head
    if kMaxBodyBytes < wanted then
      .tooLarge
    else
      let bodyStart := headerEnd + terminator.length
      .request request
        (((readBody bodyStart wanted buf later).drop bodyStart).take wanted)

/-- Read a request with some bytes in the buffer. -/
def readFrom (buf : Str) (chunks : List Str) : Received :=
  match readHead buf chunks with
  | none => .malformed
  | some (headerEnd, buf, later) => readRest headerEnd buf later

/-- Read the request of a connection from what its reads return. -/
def handleConnection (chunks : List Str) : Received :=
  readFrom [] chunks

/-- Read the request of a connection from all its bytes at once. -/
def readBytes (bytes : Str) : Received :=
  match Str.findText terminator bytes with
  | none => .malformed
  | some headerEnd => readRest headerEnd bytes []

theorem body_readBody {bodyStart : Nat} {buf : Str}
    (inside : bodyStart ≤ buf.length)
    (wanted : Nat) (later : List Str) :
    ((readBody bodyStart wanted buf later).drop bodyStart).take wanted =
      ((buf ++ later.flatten).drop bodyStart).take wanted := by
  induction later generalizing buf with
  | nil => rw [readBody, List.flatten_nil, List.append_nil]
  | cons chunk later inductionHypothesis =>
    rw [readBody, List.flatten_cons, ← List.append_assoc]
    split
    · refine inductionHypothesis ?_
      rw [List.length_append]
      exact Nat.le_add_right_of_le inside
    next enough =>
      have whole : wanted ≤ (buf.drop bodyStart).length := by
        rw [List.length_drop]
        exact Nat.le_of_not_lt enough
      rw [List.append_assoc, List.drop_append_of_le_length inside,
        List.take_append_of_le_length whole]

/-- Behind a complete head the cut does not matter. -/
theorem readRest_cut {headerEnd : Nat} {buf : Str}
    (found : Str.findText terminator buf = some headerEnd)
    (later : List Str) :
    readRest headerEnd buf later = readBytes (buf ++ later.flatten) := by
  have inside := Str.findText_le found
  have sameHead : (buf ++ later.flatten).take headerEnd = buf.take headerEnd :=
    List.take_append_of_le_length (Nat.le_of_add_right_le inside)
  rw [readBytes, Str.findText_append found]
  simp only [readRest, sameHead, body_readBody inside, readBody]

/-- With a complete head in the buffer nothing more is read for it. -/
theorem readFrom_of_found {headerEnd : Nat} {buf : Str}
    (found : Str.findText terminator buf = some headerEnd)
    (chunks : List Str) :
    readFrom buf chunks = readBytes (buf ++ chunks.flatten) := by
  have read : readHead buf chunks = some (headerEnd, buf, chunks) := by
    cases chunks <;> simp [readHead, found]
  rw [readFrom, read]
  exact readRest_cut found chunks

/-- Without one the next chunk is read, or the connection refused. -/
theorem readFrom_of_missing {buf : Str}
    (missing : Str.findText terminator buf = none) :
    readFrom buf [] = .malformed ∧
      ∀ chunk later,
        readFrom buf (chunk :: later) =
          if kMaxHeaderBytes < buf.length then
            .malformed
          else
            readFrom (buf ++ chunk) later := by
  refine ⟨by rw [readFrom, readHead, missing]; rfl, ?_⟩
  intro chunk later
  rw [readFrom, readHead, missing]
  by_cases past : kMaxHeaderBytes < buf.length <;> simp [past, readFrom]

/-- A head within the limit is read from any buffer that begins it. -/
theorem readFrom_of_complete {head rest : Str}
    (complete : Str.findText terminator (head ++ terminator) = some head.length)
    (fits : head.length + 3 ≤ kMaxHeaderBytes)
    {buf : Str} {chunks : List Str}
    (stream : buf ++ chunks.flatten = head ++ terminator ++ rest) :
    readFrom buf chunks = readBytes (head ++ terminator ++ rest) := by
  have found := Str.findText_append complete rest
  induction chunks generalizing buf with
  | nil =>
    rw [List.flatten_nil, List.append_nil] at stream
    subst stream
    rw [readFrom_of_found found, List.flatten_nil, List.append_nil]
  | cons chunk later inductionHypothesis =>
    cases received : Str.findText terminator buf with
    | some headerEnd => rw [readFrom_of_found received, stream]
    | none =>
      have short : buf.length < head.length + terminator.length := by
        by_contra long
        obtain ⟨kept, rfl⟩ : head ++ terminator <+: buf :=
          List.prefix_of_prefix_length_le
            (stream ▸ List.prefix_append _ rest) (List.prefix_append _ _)
            (by rw [List.length_append]; exact Nat.le_of_not_lt long)
        rw [Str.findText_append complete] at received
        cases received
      have within : ¬ kMaxHeaderBytes < buf.length :=
        Nat.not_lt.mpr ((Nat.le_of_lt_succ short).trans fits)
      rw [(readFrom_of_missing received).2, if_neg within]
      refine inductionHypothesis ?_
      rwa [List.append_assoc, ← List.flatten_cons]

theorem none_of_take {buf more : Str} {limit : Nat}
    (buffered : buf.length ≤ limit)
    (late : Str.findText terminator ((buf ++ more).take limit) = none) :
    Str.findText terminator buf = none := by
  cases received : Str.findText terminator buf with
  | none => rfl
  | some headerEnd =>
    rw [List.take_append, List.take_of_length_le buffered,
      Str.findText_append received] at late
    cases late

/-- Without a head in what may be buffered the connection is refused. -/
theorem readFrom_of_late {buf : Str} {chunks : List Str}
    (small : ∀ chunk ∈ chunks, chunk.length ≤ kChunkBytes)
    (buffered : buf.length ≤ kMaxHeaderBytes + kChunkBytes)
    (late :
      Str.findText terminator
          ((buf ++ chunks.flatten).take (kMaxHeaderBytes + kChunkBytes)) =
        none) :
    readFrom buf chunks = .malformed := by
  induction chunks generalizing buf with
  | nil => exact (readFrom_of_missing (none_of_take buffered late)).1
  | cons chunk later inductionHypothesis =>
    rw [(readFrom_of_missing (none_of_take buffered late)).2]
    split
    next => rfl
    next within =>
      have smallChunk := small chunk List.mem_cons_self
      refine inductionHypothesis
        (fun other member => small other (List.mem_cons_of_mem _ member))
        ?_ ?_
      · rw [List.length_append]
        exact Nat.add_le_add (Nat.le_of_not_lt within) smallChunk
      · rwa [List.append_assoc, ← List.flatten_cons]

/--
What is read of a connection depends on its bytes and not on how they arrive,
when the head ends within the limit.  When no head ends within the limit and one
read more, the connection is refused.
-/
theorem connection_read_from_bytes {chunks : List Str}
    (small : ∀ chunk ∈ chunks, chunk.length ≤ kChunkBytes) :
    (∀ head rest,
      chunks.flatten = head ++ terminator ++ rest →
        Str.findText terminator (head ++ terminator) = some head.length →
        head.length + 3 ≤ kMaxHeaderBytes →
        handleConnection chunks = readBytes chunks.flatten) ∧
      (Str.findText terminator
            (chunks.flatten.take (kMaxHeaderBytes + kChunkBytes)) =
          none →
        handleConnection chunks = .malformed) := by
  refine ⟨?_, fun late => readFrom_of_late small (Nat.zero_le _) late⟩
  intro head rest stream complete fits
  rw [stream]
  exact readFrom_of_complete complete fits stream

/-- A request with a body, cut inside the terminator and inside the body. -/
def cutRequest : List Str :=
  ["POST /rules/reload HTTP/1.1\r\nContent-LENGTH: 4\r".toList,
    "\n\r\nab".toList, "cdef".toList]

/-- Four bytes of the body are read, and the path is decoded. -/
theorem connection_read_from_bytes_cut :
    handleConnection cutRequest = readBytes cutRequest.flatten ∧
      readBytes cutRequest.flatten =
        .request
          { method := "POST".toList, path := "/rules/reload".toList, query := [] }
          "abcd".toList := by
  refine ⟨?_, by decide +kernel⟩
  exact (connection_read_from_bytes (by decide)).1
    (cutRequest.flatten.take 46) "abcdef".toList (by decide +kernel)
    (by decide +kernel) (by decide +kernel)

end Policyd.AdminServer
