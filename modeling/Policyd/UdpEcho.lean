import Policyd.UdpAccounting

namespace Policyd.Udp

open ByteOrder

/-!
# Echoed fields

A reply carries the sequence number and the time stamp of the datagram it
answers.  On the regular path both are converted twice, in and out.  A datagram
with the wrong magic is answered from its raw bytes, which are converted only on
the way out: on a big-endian host its fields come back in reverse.
-/

/-- The bytes of the sequence number, in both messages. -/
def seqBytes (message : List UInt8) : List UInt8 :=
  (message.drop 4).take 4

/-- The bytes of the client time stamp in a request. -/
def requestTsBytes (message : List UInt8) : List UInt8 :=
  (message.drop 24).take 8

/-- The bytes of the client time stamp in a reply. -/
def replyTsBytes (message : List UInt8) : List UInt8 :=
  (message.drop 8).take 8

/-- A reply repeats the sequence number and the time stamp of a request. -/
def Echoes (request reply : List UInt8) : Prop :=
  seqBytes reply = seqBytes request ∧
    replyTsBytes reply = requestTsBytes request

theorem echoed_encode (host : Endian) (decision : PolicyDecision) :
    seqBytes (encode host decision) = littleBytes 4 decision.seq.toNat ∧
      replyTsBytes (encode host decision) =
        littleBytes 8 decision.clientTsNs.toNat := by
  rw [encode_eq]
  constructor
  · rfl
  · rfl

theorem evaluate_echo (ruleSet : RuleSet) (request : PolicyRequest)
    (record : Option SubscriberRecord) (now : UInt64) :
    (evaluate ruleSet request record now).seq = request.seq ∧
      (evaluate ruleSet request record now).clientTsNs =
        request.clientTsNs := by
  unfold evaluate decisionFor
  dsimp only
  split
  · exact ⟨rfl, rfl⟩
  · exact ⟨rfl, rfl⟩

section Payload

variable {payload : List UInt8}

theorem length_seqBytes (length : payload.length = kWireMsgSize) :
    (seqBytes payload).length = 4 := by
  simp [seqBytes, length, kWireMsgSize]

theorem length_requestTsBytes (length : payload.length = kWireMsgSize) :
    (requestTsBytes payload).length = 8 := by
  simp [requestTsBytes, length, kWireMsgSize]

/-- The echoed fields of a request as memory holds them. -/
theorem echoed_ofImage
    (host : Endian) (length : payload.length = kWireMsgSize) :
    (ofImage host payload : PolicyRequest).seq.toNat =
        wordValue host (seqBytes payload) ∧
      (ofImage host payload : PolicyRequest).clientTsNs.toNat =
        wordValue host (requestTsBytes payload) := by
  have seqFits := fits_wordValue host (seqBytes payload)
  have tsFits := fits_wordValue host (requestTsBytes payload)
  rw [length_seqBytes length] at seqFits
  rw [length_requestTsBytes length] at tsFits
  have seqRead :
      (ofImage host payload : PolicyRequest).seq =
        UInt32.ofNat (wordValue host (seqBytes payload)) := rfl
  have tsRead :
      (ofImage host payload : PolicyRequest).clientTsNs =
        UInt64.ofNat (wordValue host ((payload.drop 4 |>.drop 4 |>.drop 8
          |>.drop 8).take 8)) := rfl
  rw [List.drop_drop, List.drop_drop, List.drop_drop] at tsRead
  rw [seqRead, tsRead]
  exact ⟨UInt32.toNat_ofNat_of_lt' seqFits, UInt64.toNat_ofNat_of_lt' tsFits⟩

/--
A decision with the fields that one byte order reads from a request echoes them,
unless that order is the wrong one and the bytes read differently backwards.
-/
theorem echoes_encode_iff (host : Endian) {reader : Endian}
    (length : payload.length = kWireMsgSize)
    {decision : PolicyDecision}
    (seq : decision.seq = (ofImage reader payload : PolicyRequest).seq)
    (clientTsNs :
      decision.clientTsNs =
        (ofImage reader payload : PolicyRequest).clientTsNs) :
    Echoes payload (encode host decision) ↔
      reader = .little ∨
        (seqBytes payload).reverse = seqBytes payload ∧
          (requestTsBytes payload).reverse = requestTsBytes payload := by
  obtain ⟨seqWritten, tsWritten⟩ := echoed_encode host decision
  obtain ⟨seqRead, tsRead⟩ := echoed_ofImage reader length
  rw [Echoes, seqWritten, tsWritten, seq, clientTsNs, seqRead, tsRead]
  cases reader with
  | little =>
    have seqBack := littleBytes_littleValue (seqBytes payload)
    have tsBack := littleBytes_littleValue (requestTsBytes payload)
    rw [length_seqBytes length] at seqBack
    rw [length_requestTsBytes length] at tsBack
    simp [wordValue, seqBack, tsBack]
  | big =>
    have seqBack := littleBytes_littleValue (seqBytes payload).reverse
    have tsBack := littleBytes_littleValue (requestTsBytes payload).reverse
    rw [List.length_reverse, length_seqBytes length] at seqBack
    rw [List.length_reverse, length_requestTsBytes length] at tsBack
    simp [wordValue, seqBack, tsBack]

/-- Which reply to a message echoes its fields. -/
theorem echoes_decisionOn_iff
    (host : Endian) (ruleSet : RuleSet) (moment : Moment)
    (length : payload.length = kWireMsgSize) :
    Echoes payload (encode host (decisionOn host ruleSet moment payload)) ↔
      host = .little ∨ payload.take 4 = magicBytes ∨
        (seqBytes payload).reverse = seqBytes payload ∧
          (requestTsBytes payload).reverse = requestTsBytes payload := by
  unfold decisionOn decideDatagram
  cases decoded : (decode host payload : Option PolicyRequest) with
  | none =>
    -- the raw bytes are read in the order of the host
    have wrongMagic : payload.take 4 ≠ magicBytes := by
      intro magic
      have accepted :=
        (decode_eq_some_iff host payload
          (received host payload : PolicyRequest)).mpr ⟨length, magic, rfl⟩
      rw [decoded] at accepted
      cases accepted
    simp only [wrongMagic, false_or]
    exact echoes_encode_iff host length rfl rfl
  | some request =>
    obtain ⟨_, magic, carried⟩ := (decode_eq_some_iff ..).mp decoded
    have readAsLittle : request = ofImage .little payload := by
      rw [← carried, received_eq host length]
      rfl
    simp only [magic, true_or, or_true, iff_true]
    refine (echoes_encode_iff host length ?_ ?_).mpr (.inl rfl)
    · rw [← readAsLittle]
      exact (evaluate_echo ruleSet request _ _).1
    · rw [← readAsLittle]
      exact (evaluate_echo ruleSet request _ _).2

end Payload

theorem length_payload
    {io : BatchIo} {index : Nat} (full : io.payloadLen index = kWireMsgSize) :
    (io.payload index).length = kWireMsgSize := by
  unfold BatchIo.payloadLen at full
  unfold BatchIo.payload
  cases slot : io.recvSlots[index]? with
  | none =>
    rw [slot] at full
    cases full
  | some received => exact received.bufferFits

/--
The reply staged for a full slot echoes the sequence number and the time stamp
exactly when the host is little-endian, the magic is right, or the bytes of both
fields read the same backwards.
-/
theorem staged_reply_echoes_iff
    (host : Endian)
    (ruleSet : RuleSet)
    (moments : Nat → Moment)
    {serving : Serving}
    {index : Nat}
    (full : serving.io.payloadLen index = kWireMsgSize)
    (room : serving.out < serving.io.batch) :
    (∃ reply,
        (serveSlot host ruleSet moments serving index).io.sendSlots[
            serving.out]? = some reply ∧
          Echoes (serving.io.payload index) reply.payload) ↔
      host = .little ∨
        (serving.io.payload index).take 4 = magicBytes ∨
        (seqBytes (serving.io.payload index)).reverse =
            seqBytes (serving.io.payload index) ∧
          (requestTsBytes (serving.io.payload index)).reverse =
            requestTsBytes (serving.io.payload index) := by
  have length := length_payload full
  have slots : serving.out < serving.io.sendSlots.length := by
    rwa [serving.io.sendFits]
  have staged :
      (serveSlot host ruleSet moments serving index).io.sendSlots[
          serving.out]? =
        some (replyTo host ruleSet moments serving.io index) := by
    rw [serveSlot_full full]
    exact List.getElem?_set_self slots
  rw [staged, ← echoes_decisionOn_iff host ruleSet (moments index) length]
  constructor
  · rintro ⟨reply, found, echoes⟩
    cases found
    exact echoes
  · intro echoes
    exact ⟨_, rfl, echoes⟩

/-- A batch of one message: the given first four bytes, then 4, 5, 6 and on. -/
def countingBatch (front : List UInt8) : Serving :=
  { io :=
      (BatchIo.create 1).store
        [{ payload := front ++ (List.range 60).map (UInt8.ofNat <| · + 4)
           source := {} }]
    metrics := {} }

/-- Circumstances in which nothing is known about subscribers. -/
def quietMoment : Moment :=
  { lookup := fun _ => none
    now := 0
    serverTsNs := 0 }

/-- A big-endian host answers a wrong magic with reversed fields. -/
theorem wrong_magic_answered_reversed :
    (countingBatch [0, 1, 2, 3]).io.payloadLen 0 = kWireMsgSize ∧
      seqBytes ((countingBatch [0, 1, 2, 3]).io.payload 0) = [4, 5, 6, 7] ∧
      ((serveSlot .big {} (fun _ => quietMoment)
          (countingBatch [0, 1, 2, 3]) 0).io.sendSlots[0]?.map
          fun reply => seqBytes reply.payload) = some [7, 6, 5, 4] ∧
      ((serveSlot .big {} (fun _ => quietMoment)
          (countingBatch [0, 1, 2, 3]) 0).io.sendSlots[0]?.map
          fun reply => replyTsBytes reply.payload) =
        some [31, 30, 29, 28, 27, 26, 25, 24] := by
  decide +kernel

/-- A big-endian host echoes the fields of a message with the right magic. -/
theorem right_magic_echoed_on_big_endian_host :
    (countingBatch magicBytes).io.payloadLen 0 = kWireMsgSize ∧
      ∃ reply,
        (serveSlot .big {} (fun _ => quietMoment)
            (countingBatch magicBytes) 0).io.sendSlots[0]? = some reply ∧
          Echoes ((countingBatch magicBytes).io.payload 0) reply.payload := by
  have full :
      (countingBatch magicBytes).io.payloadLen 0 = kWireMsgSize := by
    decide +kernel
  have room :
      (countingBatch magicBytes).out < (countingBatch magicBytes).io.batch := by
    decide
  exact ⟨full,
    (staged_reply_echoes_iff .big {} (fun _ => quietMoment) full room).mpr
      (.inr (.inl (by decide +kernel)))⟩

end Policyd.Udp
