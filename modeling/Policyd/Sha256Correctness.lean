import Policyd.Sha256

namespace Policyd.Sha256

/-!
# The policy fingerprint is SHA-256

The compression function of the source is the standard's on the bits of a
block, the buffer of `update` absorbs bytes one at a time, and the padding the
source feeds to itself is the padding of the standard.
-/

open Fips180

section Transform

theorem rotr_eq (x : BitVec 32) {n : Nat} (small : n < 32) :
    rotr x n = x.rotateRight n := by
  rw [BitVec.rotateRight_def, Nat.mod_eq_of_lt small, rotr]

variable {t i : Nat} {block : List UInt8}

theorem k_eq_roundConstant (inTable : t < 64) :
    k.getD t 0 = roundConstant t := by
  have betweenCubes : ∀ t < 64, BetweenPowers 3 t (k.getD t 0) := by
    decide +kernel
  exact (rootFraction_eq inTable (betweenCubes t inTable)).symm

theorem h_eq_initialHash : ({} : Sha256).h = initialHash := by
  have betweenSquares :
      ∀ t < 8, BetweenPowers 2 t (({} : Sha256).h.toList.getD t 0) := by
    decide +kernel
  have word : ∀ t < 8,
      rootFraction 2 t = ({} : Sha256).h.toList.getD t 0 := fun t small =>
    rootFraction_eq (small.trans (by decide)) (betweenSquares t small)
  rw [initialHash, word 0 (by decide), word 1 (by decide), word 2 (by decide),
    word 3 (by decide), word 4 (by decide), word 5 (by decide),
    word 6 (by decide), word 7 (by decide)]
  rfl

theorem toNat_blockByte (block : List UInt8) (i : Nat) :
    (blockByte block i).toNat = (block.getD i 0).toNat := by
  rw [blockByte, BitVec.toNat_ofNat]
  exact Nat.mod_eq_of_lt ((block.getD i 0).toNat_lt.trans (by decide))

theorem toNat_shiftLeft_or {x y : BitVec 32} {n : Nat}
    (fits : x.toNat * 2 ^ n < 2 ^ 32) (lower : y.toNat < 2 ^ n) :
    (x <<< n ||| y).toNat = x.toNat * 2 ^ n + y.toNat := by
  rw [BitVec.toNat_or, BitVec.toNat_shiftLeft, Nat.shiftLeft_eq,
    Nat.mod_eq_of_lt fits, ← Nat.shiftLeft_eq,
    ← Nat.shiftLeft_add_eq_or_of_lt lower]

/-- Four bytes make the number that their bits denote. -/
theorem toNat_loadWord (block : List UInt8) (i : Nat) :
    (loadWord block i).toNat =
      natOfBits (bitsOfBytes
        [block.getD (i * 4) 0, block.getD (i * 4 + 1) 0,
          block.getD (i * 4 + 2) 0, block.getD (i * 4 + 3) 0]) := by
  have byteBound : ∀ j, (blockByte block j).toNat < 2 ^ 8 := fun j => by
    rw [toNat_blockByte]
    exact (block.getD j 0).toNat_lt
  have bound0 := byteBound (i * 4)
  have bound1 := byteBound (i * 4 + 1)
  have bound2 := byteBound (i * 4 + 2)
  have bound3 := byteBound (i * 4 + 3)
  have low := toNat_shiftLeft_or (n := 8) (by omega) bound3
    (x := blockByte block (i * 4 + 2))
  have middle := toNat_shiftLeft_or (n := 16)
    (x := blockByte block (i * 4 + 1)) (by omega) (by rw [low]; omega)
  have high := toNat_shiftLeft_or (n := 24)
    (x := blockByte block (i * 4)) (by omega) (by rw [middle, low]; omega)
  rw [loadWord, BitVec.or_assoc, BitVec.or_assoc, high, middle, low]
  simp only [natOfBits_bitsOfBytes_cons, toNat_blockByte]
  simp [bitsOfBytes, natOfBits]

theorem take_four (inside : i + 4 ≤ block.length) :
    (block.drop i).take 4 =
      [block.getD i 0, block.getD (i + 1) 0, block.getD (i + 2) 0,
        block.getD (i + 3) 0] := by
  rw [List.drop_eq_getElem_cons (by omega : i < block.length),
    List.drop_eq_getElem_cons (by omega : i + 1 < block.length),
    List.drop_eq_getElem_cons (by omega : i + 1 + 1 < block.length),
    List.drop_eq_getElem_cons (by omega : i + 1 + 1 + 1 < block.length),
    List.getD_eq_getElem _ _ (by omega : i < block.length),
    List.getD_eq_getElem _ _ (by omega : i + 1 < block.length),
    List.getD_eq_getElem _ _ (by omega : i + 2 < block.length),
    List.getD_eq_getElem _ _ (by omega : i + 3 < block.length)]
  rfl

/-- The first loop of `transform` loads the words of the block. -/
theorem loadWord_eq_messageWord (whole : block.length = 64) (early : t < 16) :
    loadWord block t = messageWord (bitsOfBytes block) t := by
  have loaded :
      ((bitsOfBytes block).drop (32 * t)).take 32 =
        bitsOfBytes ((block.drop (t * 4)).take 4) := by
    rw [show 32 * t = 8 * (t * 4) by omega, (cut_bitsOfBytes (by omega)).2]
    have enough : 4 ≤ (block.drop (t * 4)).length := by
      rw [List.length_drop]
      omega
    exact (cut_bitsOfBytes enough).1
  refine BitVec.eq_of_toNat_eq ?_
  rw [messageWord, loaded, take_four (by omega), ← toNat_loadWord,
    BitVec.ofNat_toNat, BitVec.setWidth_eq]

/-- The second loop of `transform` follows the recurrence. -/
theorem extendSchedule_eq {bits : List Bool} {w : List (BitVec 32)}
    (late : 16 ≤ i) (earlier : ∀ t < i, w.getD t 0 = schedule bits t) :
    extendSchedule w i = w ++ [schedule bits i] := by
  rw [extendSchedule, schedule, if_neg (Nat.not_lt_of_le late)]
  simp only [earlier (i - 15) (by omega), earlier (i - 2) (by omega),
    earlier (i - 16) (by omega), earlier (i - 7) (by omega),
    rotr_eq _ (by decide : 7 < 32), rotr_eq _ (by decide : 18 < 32),
    rotr_eq _ (by decide : 17 < 32), rotr_eq _ (by decide : 19 < 32)]
  refine congrArg (w ++ [·]) ?_
  rw [smallSigma0, smallSigma1]
  ac_rfl

theorem getD_map_range (f : Nat → BitVec 32) {count : Nat} (below : t < count) :
    ((List.range count).map f).getD t 0 = f t := by
  rw [List.getD_eq_getElem _ _ (by simpa using below), List.getElem_map,
    List.getElem_range]

theorem fillSchedule_eq (whole : block.length = 64) (count : Nat) :
    fillSchedule block count =
      (List.range (16 + count)).map (schedule (bitsOfBytes block)) := by
  induction count with
  | zero =>
    refine List.map_congr_left fun t listed => ?_
    have early : t < 16 := List.mem_range.mp listed
    rw [loadWord_eq_messageWord whole early, schedule, if_pos early]
  | succ count inductionHypothesis =>
    rw [fillSchedule, List.range'_concat, List.foldl_append,
      ← fillSchedule, inductionHypothesis, List.foldl_cons, List.foldl_nil,
      Nat.one_mul,
      extendSchedule_eq (by omega) fun t below => getD_map_range _ below,
      ← Nat.add_assoc, List.range_succ, List.map_append]
    rfl

/-- The third loop of `transform` makes the rounds of the standard. -/
theorem mixRound_eq_round
    {w : List (BitVec 32)} (inTable : i < 64) (v : EightWords) :
    mixRound w v i = round (roundConstant i) (w.getD i 0) v := by
  simp only [mixRound, k_eq_roundConstant inTable,
    rotr_eq _ (by decide : 6 < 32), rotr_eq _ (by decide : 11 < 32),
    rotr_eq _ (by decide : 25 < 32), rotr_eq _ (by decide : 2 < 32),
    rotr_eq _ (by decide : 13 < 32), rotr_eq _ (by decide : 22 < 32)]
  rfl

theorem transform_eq_compress (whole : block.length = 64) (h : EightWords) :
    transform h block = compress h (bitsOfBytes block) := by
  rw [transform, compress, fillSchedule_eq whole]
  refine congrArg h.add (List.foldl_ext _ _ _ fun v t listed => ?_)
  have inTable : t < 64 := List.mem_range.mp listed
  rw [mixRound_eq_round inTable, getD_map_range _ inTable]

end Transform

section Digits

theorem kHex_getD : ∀ n < 16, kHex.getD n '0' = Nat.digitChar n := by
  decide

/-- The two digits of a byte are two digits of its word. -/
theorem hexByte_eq (word : BitVec 32) {b : Nat} (inWord : b < 4) :
    hexByte word b =
      [Nat.digitChar (word.toNat / 16 ^ (7 - 2 * b) % 16),
        Nat.digitChar (word.toNat / 16 ^ (7 - (2 * b + 1)) % 16)] := by
  have shifted :
      ((word >>> (24 - 8 * b)).setWidth 8).toNat =
        word.toNat / 2 ^ (24 - 8 * b) % 256 := by
    rw [BitVec.toNat_setWidth, BitVec.toNat_ushiftRight,
      Nat.shiftRight_eq_div_pow]
  have high :
      ((word >>> (24 - 8 * b)).setWidth 8 >>> 4).toNat =
        word.toNat / 16 ^ (7 - 2 * b) % 16 := by
    rw [BitVec.toNat_ushiftRight, shifted, Nat.shiftRight_eq_div_pow]
    interval_cases b <;> omega
  have low :
      ((word >>> (24 - 8 * b)).setWidth 8 &&& (0x0F : BitVec 8)).toNat =
        word.toNat / 16 ^ (7 - (2 * b + 1)) % 16 := by
    rw [BitVec.toNat_and, shifted]
    refine (Nat.and_two_pow_sub_one_eq_mod _ 4).trans ?_
    interval_cases b <;> omega
  rw [hexByte]
  simp only [high, low]
  rw [kHex_getD _ (Nat.mod_lt _ (by decide)),
    kHex_getD _ (Nat.mod_lt _ (by decide))]

theorem hexDigits_eq (h : EightWords) : hexDigits h = hexOfHash h := by
  refine congrArg (h.toList.flatMap ·) (funext fun word => ?_)
  have bytes : (List.range 4).flatMap (hexByte word) =
      hexByte word 0 ++ (hexByte word 1 ++
        (hexByte word 2 ++ (hexByte word 3 ++ []))) := rfl
  rw [bytes, hexByte_eq word (by decide), hexByte_eq word (by decide),
    hexByte_eq word (by decide), hexByte_eq word (by decide)]
  rfl

end Digits

section Buffering

/-- An object with given state words, buffer and byte count. -/
def ofAbsorbed (state : BlockHash.Absorbed UInt8 EightWords) (total : UInt64) :
    Sha256 where
  h := state.chain
  buf := state.pending
  total := total

theorem buf_ofAbsorbed
    (state : BlockHash.Absorbed UInt8 EightWords) (total : UInt64) :
    (ofAbsorbed state total).buf = state.pending :=
  rfl

/-- The object that has absorbed bytes one at a time. -/
def absorbed (state : Sha256) (data : List UInt8) : Sha256 :=
  ofAbsorbed (BlockHash.absorb 64 transform ⟨state.h, state.buf⟩ data)
    (state.total + UInt64.ofNat data.length)

theorem absorbed_nil (state : Sha256) : state.absorbed [] = state := by
  simp [absorbed, ofAbsorbed, BlockHash.absorb]

theorem absorbed_append (state : Sha256) (first rest : List UInt8) :
    (state.absorbed first).absorbed rest = state.absorbed (first ++ rest) := by
  simp only [absorbed, ofAbsorbed, BlockHash.absorb_append, List.length_append,
    UInt64.ofNat_add, UInt64.add_assoc]

variable {state : Sha256}

theorem length_buf_absorbed (room : state.buf.length < 64) (data : List UInt8) :
    (state.absorbed data).buf.length =
      (state.buf.length + data.length) % 64 := by
  have pendingRoom :
      (BlockHash.Absorbed.mk state.h state.buf).pending.length < 64 := room
  exact BlockHash.length_pending_absorb pendingRoom data

theorem room_absorbed (room : state.buf.length < 64) (data : List UInt8) :
    (state.absorbed data).buf.length < 64 := by
  rw [length_buf_absorbed room]
  exact Nat.mod_lt _ (by decide)

/-- One round of `update` absorbs the bytes it copies. -/
theorem fillBuffer_eq
    {state : BlockHash.Absorbed UInt8 EightWords} {portion : List UInt8}
    (fits : state.pending.length + portion.length ≤ 64)
    (nonempty : portion ≠ []) (total : UInt64) :
    (ofAbsorbed state total).fillBuffer portion =
      ofAbsorbed (BlockHash.absorb 64 transform state portion) total := by
  rcases Nat.lt_or_eq_of_le fits with short | full
  · rw [BlockHash.absorb_of_lt short]
    refine if_neg ?_
    rw [List.length_append]
    exact short.ne
  · rw [BlockHash.absorb_of_eq full nonempty]
    refine if_pos ?_
    rw [List.length_append]
    exact full

/-- The loop of `update` computes what absorbing single bytes computes. -/
theorem updateLoop_eq {fuel : Nat} {state : BlockHash.Absorbed UInt8 EightWords}
    {data : List UInt8}
    (room : state.pending.length < 64) (enough : data.length ≤ fuel)
    (total : UInt64) :
    updateLoop fuel (ofAbsorbed state total) data =
      some (ofAbsorbed (BlockHash.absorb 64 transform state data) total) := by
  induction fuel generalizing state data with
  | zero =>
    rw [List.length_eq_zero_iff.mp (Nat.le_zero.mp enough)]
    rfl
  | succ fuel inductionHypothesis =>
    cases data with
    | nil => rfl
    | cons byte later =>
      rw [List.length_cons] at enough
      rw [updateLoop, buf_ofAbsorbed, fillBuffer_eq, inductionHypothesis,
        ← BlockHash.absorb_append, List.take_append_drop]
      · rw [BlockHash.length_pending_absorb room]
        exact Nat.mod_lt _ (by decide)
      · rw [List.length_drop, List.length_cons]
        omega
      · rw [List.length_take, List.length_cons]
        omega
      · rw [← List.length_pos_iff, List.length_take, List.length_cons]
        omega

/-- `update` absorbs the bytes it is given. -/
theorem update_eq (room : state.buf.length < 64) (data : List UInt8) :
    state.update data = some (state.absorbed data) := by
  have pendingRoom :
      (BlockHash.Absorbed.mk state.h state.buf).pending.length < 64 := room
  exact updateLoop_eq pendingRoom le_rfl _

theorem updates_eq (room : state.buf.length < 64) (chunks : List (List UInt8)) :
    state.updates chunks = some (state.absorbed chunks.flatten) := by
  induction chunks generalizing state with
  | nil =>
    rw [List.flatten_nil, absorbed_nil]
    rfl
  | cons chunk later inductionHypothesis =>
    rw [updates, List.foldlM_cons, update_eq room, List.flatten_cons,
      ← absorbed_append]
    exact inductionHypothesis (room_absorbed room chunk)

end Buffering

section Padding

/-- How many zeros bring the buffer to fifty-six bytes. -/
def zeroBytes (length : Nat) : Nat :=
  (56 + 64 - length) % 64

/-- The loop of `hex` ends with fifty-six bytes in the buffer. -/
theorem padZeros_eq {fuel : Nat} {state : Sha256} (room : state.buf.length < 64)
    (enough : zeroBytes state.buf.length < fuel) :
    padZeros fuel state =
      some (state.absorbed
        (List.replicate (zeroBytes state.buf.length) 0)) := by
  induction fuel generalizing state with
  | zero => exact absurd enough (Nat.not_lt_zero _)
  | succ fuel inductionHypothesis =>
    rw [padZeros]
    by_cases reached : state.buf.length = 56
    · rw [if_neg (not_not_intro reached), reached]
      exact congrArg some (absorbed_nil state).symm
    · have length : (state.absorbed [0]).buf.length =
          (state.buf.length + 1) % 64 :=
        length_buf_absorbed room [0]
      have oneLess :
          zeroBytes state.buf.length =
            zeroBytes (state.absorbed [0]).buf.length + 1 := by
        rw [length, zeroBytes, zeroBytes]
        omega
      rw [if_pos reached, update_eq room, Option.bind_some,
        inductionHypothesis (by omega) (by omega), oneLess,
        List.replicate_succ, absorbed_append, List.singleton_append]

/-- The bytes that `hex` feeds to the object. -/
def padBytes (state : Sha256) : List UInt8 :=
  0x80 :: (List.replicate (zeroBytes ((state.buf.length + 1) % 64)) 0 ++
    lenBe (state.total * 8))

/-- `hex` absorbs the padding and prints the state words. -/
theorem hex_eq {state : Sha256} (room : state.buf.length < 64) :
    state.hex = some (hexDigits (state.absorbed state.padBytes).h) := by
  have markedRoom := room_absorbed room [0x80]
  have fewZeros : zeroBytes (state.absorbed [0x80]).buf.length < 64 :=
    Nat.mod_lt _ (by decide)
  rw [hex, update_eq room]
  simp only [Option.bind_eq_bind, Option.bind_some]
  rw [padZeros_eq markedRoom fewZeros, Option.bind_some,
    update_eq (room_absorbed markedRoom _), absorbed_append, absorbed_append,
    Option.bind_some, length_buf_absorbed room]
  rfl

theorem bitsOfNat_shiftRight
    (bits : UInt64) {shift : Nat} (small : shift < 64) :
    bitsOfNat 8 (bits >>> UInt64.ofNat shift).toUInt8.toNat =
      bitsOfNat 8 (bits.toNat / 2 ^ shift) := by
  rw [UInt64.toNat_toUInt8, bitsOfNat_mod le_rfl, UInt64.toNat_shiftRight,
    UInt64.toNat_ofNat_of_lt' (small.trans (by decide)),
    Nat.mod_eq_of_lt small, Nat.shiftRight_eq_div_pow]

/-- The eight length bytes are the sixty-four bits of the count. -/
theorem bitsOfBytes_lenBe (bits : UInt64) :
    bitsOfBytes (lenBe bits) = bitsOfNat 64 bits.toNat := by
  have listed : bitsOfBytes (lenBe bits) =
      bitsOfNat 8 (bits >>> UInt64.ofNat 56).toUInt8.toNat ++
      (bitsOfNat 8 (bits >>> UInt64.ofNat 48).toUInt8.toNat ++
      (bitsOfNat 8 (bits >>> UInt64.ofNat 40).toUInt8.toNat ++
      (bitsOfNat 8 (bits >>> UInt64.ofNat 32).toUInt8.toNat ++
      (bitsOfNat 8 (bits >>> UInt64.ofNat 24).toUInt8.toNat ++
      (bitsOfNat 8 (bits >>> UInt64.ofNat 16).toUInt8.toNat ++
      (bitsOfNat 8 (bits >>> UInt64.ofNat 8).toUInt8.toNat ++
      (bitsOfNat 8 (bits >>> UInt64.ofNat 0).toUInt8.toNat ++ []))))))) := rfl
  rw [listed, bitsOfNat_add 8 56, bitsOfNat_add 8 48, bitsOfNat_add 8 40,
    bitsOfNat_add 8 32, bitsOfNat_add 8 24, bitsOfNat_add 8 16,
    bitsOfNat_add 8 8, bitsOfNat_shiftRight bits (by decide),
    bitsOfNat_shiftRight bits (by decide),
    bitsOfNat_shiftRight bits (by decide),
    bitsOfNat_shiftRight bits (by decide),
    bitsOfNat_shiftRight bits (by decide),
    bitsOfNat_shiftRight bits (by decide),
    bitsOfNat_shiftRight bits (by decide),
    bitsOfNat_shiftRight bits (by decide), pow_zero, Nat.div_one,
    List.append_nil]

/-- The bytes that `hex` feeds are the padding of the standard. -/
theorem bitsOfBytes_padBytes
    {message : List UInt8} (short : message.length < 2 ^ 61) :
    bitsOfBytes (({} : Sha256).absorbed message).padBytes =
      padding (8 * message.length) := by
  have buffered :
      (({} : Sha256).absorbed message).buf.length = message.length % 64 := by
    rw [length_buf_absorbed (by decide)]
    exact congrArg (· % 64) (Nat.zero_add _)
  have counted :
      ((({} : Sha256).absorbed message).total * 8).toNat =
        8 * message.length := by
    have total :
        (({} : Sha256).absorbed message).total =
          0 + UInt64.ofNat message.length := rfl
    rw [total, UInt64.zero_add, UInt64.toNat_mul,
      UInt64.toNat_ofNat_of_lt' (short.trans (by decide)), Nat.mul_comm]
    have fits : 8 * message.length < 2 ^ 64 := by
      omega
    exact Nat.mod_eq_of_lt fits
  have zeros :
      zeroBits (8 * message.length) =
        7 + 8 * zeroBytes ((message.length % 64 + 1) % 64) := by
    rw [zeroBits, zeroBytes]
    omega
  rw [padBytes, buffered, ← List.singleton_append, bitsOfBytes_append,
    bitsOfBytes_append, bitsOfBytes_replicate_zero, bitsOfBytes_lenBe, counted,
    padding, zeros, List.replicate_add]
  rfl

/-- Absorbing a padded message computes the hash value of the standard. -/
theorem h_absorbed_padded {message pad : List UInt8}
    (isPadding : bitsOfBytes (message ++ pad) = padded (bitsOfBytes message)) :
    (({} : Sha256).absorbed (message ++ pad)).h =
      sha256 (bitsOfBytes message) := by
  have bitLength := length_padded (bitsOfBytes message)
  rw [← isPadding, length_bitsOfBytes] at bitLength
  generalize ((bitsOfBytes message).length + 64) / 512 + 1 = count at bitLength
  have whole : (message ++ pad).length = 64 * count := by
    omega
  have blockCount : (bitsOfBytes (message ++ pad)).length / 512 = count := by
    rw [length_bitsOfBytes]
    omega
  have blocksCut :
      BlockHash.blocks 512 count (bitsOfBytes (message ++ pad)) =
        (BlockHash.blocks 64 count (message ++ pad)).map bitsOfBytes :=
    blocks_bitsOfBytes whole
  rw [sha256, ← isPadding, blockCount, blocksCut, List.foldl_map,
    ← h_eq_initialHash, absorbed, BlockHash.absorb_blocks (by decide) whole]
  refine List.foldl_ext _ _ _ fun h block cut => ?_
  exact transform_eq_compress (BlockHash.length_of_mem_blocks whole cut) h

end Padding

theorem hex_absorbed {message : List UInt8} (short : message.length < 2 ^ 61) :
    (({} : Sha256).absorbed message).hex =
      some (hexOfHash (sha256 (bitsOfBytes message))) := by
  have isPadding :
      bitsOfBytes
          (message ++ (({} : Sha256).absorbed message).padBytes) =
        padded (bitsOfBytes message) := by
    rw [bitsOfBytes_append, bitsOfBytes_padBytes short, padded,
      length_bitsOfBytes]
  rw [hex_eq (room_absorbed (by decide) _), absorbed_append, hexDigits_eq,
    h_absorbed_padded isPadding]

/--
`hash_hex` returns the lower-case digits of the SHA-256 digest of every text
shorter than `2 ^ 61` bytes, and so does every sequence of calls of `update`
on portions of the text, empty ones included, followed by `hex`.
-/
theorem hash_hex_is_sha256
    (message : List UInt8)
    (short : message.length < 2 ^ 61) :
    hashHex message = some (hexOfHash (sha256 (bitsOfBytes message))) ∧
      ∀ chunks : List (List UInt8),
        chunks.flatten = message →
          (({} : Sha256).updates chunks).bind hex = hashHex message := by
  have atOnce :
      hashHex message = some (hexOfHash (sha256 (bitsOfBytes message))) := by
    rw [hashHex, update_eq (by decide)]
    exact hex_absorbed short
  refine ⟨atOnce, ?_⟩
  rintro chunks rfl
  rw [atOnce, updates_eq (by decide)]
  exact hex_absorbed short

/-- The three bytes of `abc`, at once and in three portions. -/
theorem hash_hex_is_sha256_abc :
    hashHex [0x61, 0x62, 0x63] =
        some (hexOfHash (sha256 (bitsOfBytes [0x61, 0x62, 0x63]))) ∧
      (({} : Sha256).updates [[0x61], [], [0x62, 0x63]]).bind hex =
        hashHex [0x61, 0x62, 0x63] :=
  have abc := hash_hex_is_sha256 [0x61, 0x62, 0x63] (by decide)
  ⟨abc.1, abc.2 [[0x61], [], [0x62, 0x63]] rfl⟩

-- The digest that the standard's example computation gives for `abc`.
example :
    hashHex [0x61, 0x62, 0x63] =
      some ("ba7816bf8f01cfea414140de5dae2223".toList ++
        "b00361a396177a9cb410ff61f20015ad".toList) := by
  decide +kernel

end Policyd.Sha256
