import Policyd.Wire
import Policyd.ByteOrder

namespace Policyd

open ByteOrder

/-!
# The wire format

Both messages are packed structures of 64 bytes.  Their image in memory follows
the byte order of the host; on the wire every field is little-endian, so a
big-endian host swaps each multi-byte field before it copies a message out and
after it copied one in.
-/

/-- Bytes of a message on the wire. -/
def kWireMsgSize : Nat :=
  64

/-- A 16-bit word with its two bytes exchanged. -/
def bswap16 (v : UInt16) : UInt16 :=
  v <<< 8 ||| v >>> 8

/-- A 32-bit word with its bytes in reverse order. -/
def bswap32 (v : UInt32) : UInt32 :=
  UInt32.ofNat (swapWord 4 v.toNat)

/-- A 64-bit word with its bytes in reverse order. -/
def bswap64 (v : UInt64) : UInt64 :=
  UInt64.ofNat (swapWord 8 v.toNat)

/-- The word whose image on the host is the little-endian image of the word. -/
def toLe16 (host : Endian) (v : UInt16) : UInt16 :=
  match host with
  | .little => v
  | .big => bswap16 v

@[inherit_doc toLe16]
def toLe32 (host : Endian) (v : UInt32) : UInt32 :=
  match host with
  | .little => v
  | .big => bswap32 v

@[inherit_doc toLe16]
def toLe64 (host : Endian) (v : UInt64) : UInt64 :=
  match host with
  | .little => v
  | .big => bswap64 v

theorem fits_uint8 (v : UInt8) : Fits 1 v.toNat :=
  v.toNat_lt

theorem fits_uint16 (v : UInt16) : Fits 2 v.toNat :=
  v.toNat_lt

theorem fits_uint32 (v : UInt32) : Fits 4 v.toNat :=
  v.toNat_lt

theorem fits_uint64 (v : UInt64) : Fits 8 v.toNat :=
  v.toNat_lt

private theorem fits_swapWord (width value : Nat) :
    Fits width (swapWord width value) := by
  simpa [swapWord] using fits_littleValue (littleBytes width value).reverse

theorem toNat_bswap16 (v : UInt16) :
    (bswap16 v).toNat = swapWord 2 v.toNat := by
  have bound := v.toNat_lt
  have lowByte : v.toNat / 256 < 2 ^ 8 := by
    omega
  have highByte : v.toNat * 2 ^ 8 % 2 ^ 16 = (v.toNat % 256) <<< 8 := by
    rw [Nat.shiftLeft_eq]
    omega
  have joined :
      (bswap16 v).toNat = v.toNat * 2 ^ 8 % 2 ^ 16 ||| v.toNat / 256 := by
    simp [bswap16, Nat.shiftLeft_eq, Nat.shiftRight_eq_div_pow]
  rw [joined, highByte, ← Nat.shiftLeft_add_eq_or_of_lt lowByte,
    Nat.shiftLeft_eq]
  simp [swapWord, littleBytes, littleValue]
  omega

theorem toNat_bswap32 (v : UInt32) :
    (bswap32 v).toNat = swapWord 4 v.toNat :=
  UInt32.toNat_ofNat_of_lt' (fits_swapWord 4 v.toNat)

theorem toNat_bswap64 (v : UInt64) :
    (bswap64 v).toNat = swapWord 8 v.toNat :=
  UInt64.toNat_ofNat_of_lt' (fits_swapWord 8 v.toNat)

/--
A message type of the protocol: the widths of its fields in memory order, the
fields themselves, and the routine that swaps them.  The laws say that the
fields determine the message and that the routine swaps every one of them.
-/
class WireMessage (Msg : Type) where
  /-- Field widths behind the leading magic. -/
  widths : List Nat
  /-- Field values, the magic first. -/
  fields : Msg → List Nat
  /-- The message with the given field values. -/
  ofFields : List Nat → Msg
  magicVersion : Msg → UInt32
  swapEndianness : Endian → Msg → Msg
  size : (4 :: widths).sum = kWireMsgSize
  fits : ∀ message, List.Forall₂ Fits (4 :: widths) (fields message)
  ofFields_fields : ∀ message, ofFields (fields message) = message
  fields_ofFields : ∀ values, List.Forall₂ Fits (4 :: widths) values →
    fields (ofFields values) = values
  head_fields : ∀ message,
    (fields message).head? = some (magicVersion message).toNat
  fields_swap : ∀ message,
    fields (swapEndianness .big message) =
      List.zipWith swapWord (4 :: widths) (fields message)

open WireMessage

section Codec

variable {Msg : Type} [WireMessage Msg]

/-- The bytes of a message in the memory of the host. -/
def image (host : Endian) (message : Msg) : List UInt8 :=
  writeWords host (4 :: widths Msg) (fields message)

/-- The message that bytes in the memory of the host hold. -/
def ofImage (host : Endian) (bytes : List UInt8) : Msg :=
  ofFields (readWords host (4 :: widths Msg) bytes)

/-- Write a message as it goes on the wire. -/
def encode (host : Endian) (message : Msg) : List UInt8 :=
  match host with
  | .little => image .little message
  | .big => image .big (swapEndianness .big message)

/-- The message that a buffer of the right length carries. -/
def received (host : Endian) (bytes : List UInt8) : Msg :=
  match host with
  | .little => ofImage .little bytes
  | .big => swapEndianness .big (ofImage .big bytes)

/-- Read a datagram; a wrong length or a wrong magic is refused. -/
def decode (host : Endian) (bytes : List UInt8) : Option Msg :=
  if bytes.length ≠ kWireMsgSize then
    none
  else
    let out : Msg := received host bytes
    if magicVersion out = kMagicVersion then some out else none

theorem encode_eq (host : Endian) (message : Msg) :
    encode host message =
      writeWords .little (4 :: widths Msg) (fields message) := by
  cases host with
  | little => rfl
  | big =>
    rw [encode, image, fields_swap, writeWords_big_swap]

variable {bytes : List UInt8}

theorem received_eq (host : Endian) (length : bytes.length = kWireMsgSize) :
    (received host bytes : Msg) =
      ofFields (readWords .little (4 :: widths Msg) bytes) := by
  cases host with
  | little => rfl
  | big =>
    have packed : bytes.length = (4 :: widths Msg).sum := by
      rw [length, size]
    rw [received, ← ofFields_fields (swapEndianness .big _), fields_swap,
      ofImage, fields_ofFields _ (fits_readWords .big packed),
      swap_readWords_big packed]

theorem magicVersion_received
    (host : Endian) (length : bytes.length = kWireMsgSize) :
    (magicVersion (received host bytes : Msg)).toNat =
      littleValue (bytes.take 4) := by
  have packed : bytes.length = (4 :: widths Msg).sum := by
    rw [length, size]
  have head := head_fields (received host bytes : Msg)
  rw [received_eq host length,
    fields_ofFields _ (fits_readWords .little packed)] at head
  rw [received_eq host length]
  exact (Option.some.inj head).symm

/-- The first four bytes of every accepted buffer. -/
def magicBytes : List UInt8 :=
  littleBytes 4 kMagicVersion.toNat

/-- A buffer carries the magic when its first four bytes spell it. -/
theorem magicVersion_received_iff (Msg : Type) [WireMessage Msg]
    (host : Endian) (length : bytes.length = kWireMsgSize) :
    magicVersion (received host bytes : Msg) = kMagicVersion ↔
      bytes.take 4 = magicBytes := by
  have firstLength : (bytes.take 4).length = 4 := by
    rw [List.length_take, length]
    rfl
  rw [← UInt32.toNat_inj, magicVersion_received host length, magicBytes]
  constructor
  · intro spelled
    have ownBytes := littleBytes_littleValue (bytes.take 4)
    rw [firstLength, spelled] at ownBytes
    exact ownBytes.symm
  · intro same
    rw [same, littleValue_littleBytes (fits_uint32 kMagicVersion)]

/-- A buffer is decoded to what it carries, when it is accepted at all. -/
theorem decode_eq_some_iff
    (host : Endian) (bytes : List UInt8) (message : Msg) :
    decode host bytes = some message ↔
      bytes.length = kWireMsgSize ∧ bytes.take 4 = magicBytes ∧
        received host bytes = message := by
  unfold decode
  by_cases length : bytes.length = kWireMsgSize
  · rw [if_neg (not_not.mpr length)]
    simp only [length, true_and]
    rw [← magicVersion_received_iff Msg host length]
    split_ifs with magic
    · simp [magic]
    · simp [magic]
  · simp [length]

/--
What the protocol promises of a message type: the bytes are the same on every
host, the buffers accepted are the same on every host, and the two directions
are inverse to each other.
-/
structure HostIndependent (Msg : Type) [WireMessage Msg] : Prop where
  encodeAlike : ∀ message : Msg,
    encode .big message = encode .little message
  encodeLength : ∀ (host : Endian) (message : Msg),
    (encode host message).length = kWireMsgSize
  accepts : ∀ (host : Endian) (bytes : List UInt8),
    (decode host bytes : Option Msg).isSome ↔
      bytes.length = kWireMsgSize ∧
        bytes.take 4 = littleBytes 4 kMagicVersion.toNat
  decodeEncode : ∀ (host : Endian) (message : Msg),
    magicVersion message = kMagicVersion →
      decode host (encode host message) = some message
  encodeDecode : ∀ (host : Endian) (bytes : List UInt8) (message : Msg),
    decode host bytes = some message → encode host message = bytes

theorem length_encode (host : Endian) (message : Msg) :
    (encode host message).length = kWireMsgSize := by
  rw [encode_eq, length_writeWords .little (fits message).length_eq, size]

theorem received_encode (host : Endian) (message : Msg) :
    received host (encode host message) = message := by
  rw [received_eq host (length_encode host message), encode_eq,
    readWords_writeWords .little (fits message), ofFields_fields]

theorem encode_received (host : Endian) (length : bytes.length = kWireMsgSize) :
    encode host (received host bytes : Msg) = bytes := by
  have packed : bytes.length = (4 :: widths Msg).sum := by
    rw [length, size]
  rw [encode_eq, received_eq host length,
    fields_ofFields _ (fits_readWords .little packed),
    writeWords_readWords .little packed]

/-- Every message type of the protocol keeps the promises. -/
theorem hostIndependent : HostIndependent Msg where
  encodeAlike message := by
    rw [encode_eq, encode_eq]
  encodeLength := length_encode
  accepts host bytes := by
    rw [Option.isSome_iff_exists]
    simp only [decode_eq_some_iff, exists_and_left, exists_eq', and_true]
    rfl
  decodeEncode host message magic := by
    have length := length_encode host message
    have carried :
        magicVersion (received host (encode host message) : Msg) =
          kMagicVersion := by
      rw [received_encode, magic]
    rw [decode_eq_some_iff, ← magicVersion_received_iff Msg host length]
    exact ⟨length, carried, received_encode host message⟩
  encodeDecode host bytes message decoded := by
    obtain ⟨length, _, carried⟩ := (decode_eq_some_iff ..).mp decoded
    rw [← carried, encode_received host length]

end Codec

/-- Swap every multi-byte field of a request. -/
def PolicyRequest.swapEndianness
    (host : Endian)
    (r : PolicyRequest) : PolicyRequest :=
  { r with
    magicVersion := toLe32 host r.magicVersion
    seq := toLe32 host r.seq
    imsi := toLe64 host r.imsi
    imei := toLe64 host r.imei
    clientTsNs := toLe64 host r.clientTsNs
    bytesUsedPeriod := toLe64 host r.bytesUsedPeriod
    plmn := toLe32 host r.plmn
    tac := toLe16 host r.tac
    localMinute := toLe16 host r.localMinute
    reqAmbrUlKbps := toLe32 host r.reqAmbrUlKbps
    reqAmbrDlKbps := toLe32 host r.reqAmbrDlKbps
    reserved := toLe32 host r.reserved }

/-- Swap every multi-byte field of a decision. -/
def PolicyDecision.swapEndianness
    (host : Endian)
    (d : PolicyDecision) : PolicyDecision :=
  { d with
    magicVersion := toLe32 host d.magicVersion
    seq := toLe32 host d.seq
    clientTsNs := toLe64 host d.clientTsNs
    quotaBytes := toLe64 host d.quotaBytes
    ambrUlKbps := toLe32 host d.ambrUlKbps
    ambrDlKbps := toLe32 host d.ambrDlKbps
    ratingGroup := toLe32 host d.ratingGroup
    quotaValidityS := toLe32 host d.quotaValidityS
    ruleId := toLe32 host d.ruleId
    policyVersion := toLe32 host d.policyVersion
    reserved := toLe16 host d.reserved
    serverTsNs := toLe64 host d.serverTsNs }

/-- Fields of a request in memory order. -/
def PolicyRequest.fields (r : PolicyRequest) : List Nat :=
  [r.magicVersion.toNat, r.seq.toNat, r.imsi.toNat, r.imei.toNat,
    r.clientTsNs.toNat, r.bytesUsedPeriod.toNat, r.plmn.toNat, r.tac.toNat,
    r.ratType.toNat, r.dnnId.toNat, r.requested5qi.toNat, r.flags.toNat,
    r.localMinute.toNat, r.reqAmbrUlKbps.toNat, r.reqAmbrDlKbps.toNat,
    r.reserved.toNat]

/-- The request with the given fields in memory order. -/
def PolicyRequest.ofFields (values : List Nat) : PolicyRequest where
  magicVersion := UInt32.ofNat (values.getD 0 0)
  seq := UInt32.ofNat (values.getD 1 0)
  imsi := UInt64.ofNat (values.getD 2 0)
  imei := UInt64.ofNat (values.getD 3 0)
  clientTsNs := UInt64.ofNat (values.getD 4 0)
  bytesUsedPeriod := UInt64.ofNat (values.getD 5 0)
  plmn := UInt32.ofNat (values.getD 6 0)
  tac := UInt16.ofNat (values.getD 7 0)
  ratType := UInt8.ofNat (values.getD 8 0)
  dnnId := UInt8.ofNat (values.getD 9 0)
  requested5qi := UInt8.ofNat (values.getD 10 0)
  flags := UInt8.ofNat (values.getD 11 0)
  localMinute := UInt16.ofNat (values.getD 12 0)
  reqAmbrUlKbps := UInt32.ofNat (values.getD 13 0)
  reqAmbrDlKbps := UInt32.ofNat (values.getD 14 0)
  reserved := UInt32.ofNat (values.getD 15 0)

/-- Fields of a decision in memory order. -/
def PolicyDecision.fields (d : PolicyDecision) : List Nat :=
  [d.magicVersion.toNat, d.seq.toNat, d.clientTsNs.toNat, d.quotaBytes.toNat,
    d.ambrUlKbps.toNat, d.ambrDlKbps.toNat, d.ratingGroup.toNat,
    d.quotaValidityS.toNat, d.ruleId.toNat, d.policyVersion.toNat,
    d.verdict.toNat, d.reason.toNat, d.qos5qi.toNat, d.arp.toNat,
    d.flags.toNat, d.redirectId.toNat, d.reserved.toNat, d.serverTsNs.toNat]

/-- The decision with the given fields in memory order. -/
def PolicyDecision.ofFields (values : List Nat) : PolicyDecision where
  magicVersion := UInt32.ofNat (values.getD 0 0)
  seq := UInt32.ofNat (values.getD 1 0)
  clientTsNs := UInt64.ofNat (values.getD 2 0)
  quotaBytes := UInt64.ofNat (values.getD 3 0)
  ambrUlKbps := UInt32.ofNat (values.getD 4 0)
  ambrDlKbps := UInt32.ofNat (values.getD 5 0)
  ratingGroup := UInt32.ofNat (values.getD 6 0)
  quotaValidityS := UInt32.ofNat (values.getD 7 0)
  ruleId := UInt32.ofNat (values.getD 8 0)
  policyVersion := UInt32.ofNat (values.getD 9 0)
  verdict := UInt8.ofNat (values.getD 10 0)
  reason := UInt8.ofNat (values.getD 11 0)
  qos5qi := UInt8.ofNat (values.getD 12 0)
  arp := UInt8.ofNat (values.getD 13 0)
  flags := UInt8.ofNat (values.getD 14 0)
  redirectId := UInt8.ofNat (values.getD 15 0)
  reserved := UInt16.ofNat (values.getD 16 0)
  serverTsNs := UInt64.ofNat (values.getD 17 0)

theorem PolicyRequest.fits_fields (r : PolicyRequest) :
    List.Forall₂ Fits
      [4, 4, 8, 8, 8, 8, 4, 2, 1, 1, 1, 1, 2, 4, 4, 4] r.fields :=
  .cons (fits_uint32 _) <| .cons (fits_uint32 _) <|
    .cons (fits_uint64 _) <| .cons (fits_uint64 _) <|
    .cons (fits_uint64 _) <| .cons (fits_uint64 _) <|
    .cons (fits_uint32 _) <| .cons (fits_uint16 _) <|
    .cons (fits_uint8 _) <| .cons (fits_uint8 _) <|
    .cons (fits_uint8 _) <| .cons (fits_uint8 _) <|
    .cons (fits_uint16 _) <| .cons (fits_uint32 _) <|
    .cons (fits_uint32 _) <| .cons (fits_uint32 _) .nil

theorem PolicyDecision.fits_fields (d : PolicyDecision) :
    List.Forall₂ Fits
      [4, 4, 8, 8, 4, 4, 4, 4, 4, 4, 1, 1, 1, 1, 1, 1, 2, 8] d.fields :=
  .cons (fits_uint32 _) <| .cons (fits_uint32 _) <|
    .cons (fits_uint64 _) <| .cons (fits_uint64 _) <|
    .cons (fits_uint32 _) <| .cons (fits_uint32 _) <|
    .cons (fits_uint32 _) <| .cons (fits_uint32 _) <|
    .cons (fits_uint32 _) <| .cons (fits_uint32 _) <|
    .cons (fits_uint8 _) <| .cons (fits_uint8 _) <|
    .cons (fits_uint8 _) <| .cons (fits_uint8 _) <|
    .cons (fits_uint8 _) <| .cons (fits_uint8 _) <|
    .cons (fits_uint16 _) <| .cons (fits_uint64 _) .nil

instance : WireMessage PolicyRequest where
  widths := [4, 8, 8, 8, 8, 4, 2, 1, 1, 1, 1, 2, 4, 4, 4]
  fields := PolicyRequest.fields
  ofFields := PolicyRequest.ofFields
  magicVersion := PolicyRequest.magicVersion
  swapEndianness := PolicyRequest.swapEndianness
  size := rfl
  fits := PolicyRequest.fits_fields
  ofFields_fields r := by
    simp [PolicyRequest.ofFields, PolicyRequest.fields]
  fields_ofFields values fits := by
    refine Eq.trans ?_ (mapIdx_mod_of_fits fits)
    simp [PolicyRequest.fields, PolicyRequest.ofFields]
  head_fields _ := rfl
  fields_swap r := by
    simp only [PolicyRequest.fields, PolicyRequest.swapEndianness, toLe16,
      toLe32, toLe64, toNat_bswap16, toNat_bswap32, toNat_bswap64,
      List.zipWith_cons_cons, List.zipWith_nil_left, fits_uint8, swapWord_one]

instance : WireMessage PolicyDecision where
  widths := [4, 8, 8, 4, 4, 4, 4, 4, 4, 1, 1, 1, 1, 1, 1, 2, 8]
  fields := PolicyDecision.fields
  ofFields := PolicyDecision.ofFields
  magicVersion := PolicyDecision.magicVersion
  swapEndianness := PolicyDecision.swapEndianness
  size := rfl
  fits := PolicyDecision.fits_fields
  ofFields_fields d := by
    simp [PolicyDecision.ofFields, PolicyDecision.fields]
  fields_ofFields values fits := by
    refine Eq.trans ?_ (mapIdx_mod_of_fits fits)
    simp [PolicyDecision.fields, PolicyDecision.ofFields]
  head_fields _ := rfl
  fields_swap d := by
    simp only [PolicyDecision.fields, PolicyDecision.swapEndianness, toLe16,
      toLe32, toLe64, toNat_bswap16, toNat_bswap32, toNat_bswap64,
      List.zipWith_cons_cons, List.zipWith_nil_left, fits_uint8, swapWord_one]

/-- The wire format is the same on every host, for both messages. -/
theorem wire_format_same_on_every_host :
    HostIndependent PolicyRequest ∧ HostIndependent PolicyDecision :=
  ⟨hostIndependent, hostIndependent⟩

end Policyd
