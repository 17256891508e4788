import Policyd.ByteText
import Policyd.Fips180

namespace Policyd

/-!
# The policy fingerprint

`sha256.hpp` hashes the bytes of the rules file: an object collects bytes in a
buffer of one block, compresses it whenever it is full, and pads by feeding its
own buffer.  The buffer is the list of its `buf_len_` bytes.  The loops of
`update` and `hex` run on a bound of steps.
-/

open Fips180 (EightWords)

/-- A hash in progress: the state words, the buffered bytes, the byte count. -/
structure Sha256 where
  h : EightWords :=
    { a := 0x6a09e667, b := 0xbb67ae85, c := 0x3c6ef372, d := 0xa54ff53a
      e := 0x510e527f, f := 0x9b05688c, g := 0x1f83d9ab, h := 0x5be0cd19 }
  buf : List UInt8 := []
  total : UInt64 := 0
deriving Repr, DecidableEq

namespace Sha256

def rotr (x : BitVec 32) (n : Nat) : BitVec 32 :=
  (x >>> n) ||| (x <<< (32 - n))

/-- The constants of the rounds. -/
def k : List (BitVec 32) :=
  [0x428a2f98, 0x71374491, 0xb5c0fbcf, 0xe9b5dba5, 0x3956c25b, 0x59f111f1,
    0x923f82a4, 0xab1c5ed5, 0xd807aa98, 0x12835b01, 0x243185be, 0x550c7dc3,
    0x72be5d74, 0x80deb1fe, 0x9bdc06a7, 0xc19bf174, 0xe49b69c1, 0xefbe4786,
    0x0fc19dc6, 0x240ca1cc, 0x2de92c6f, 0x4a7484aa, 0x5cb0a9dc, 0x76f988da,
    0x983e5152, 0xa831c66d, 0xb00327c8, 0xbf597fc7, 0xc6e00bf3, 0xd5a79147,
    0x06ca6351, 0x14292967, 0x27b70a85, 0x2e1b2138, 0x4d2c6dfc, 0x53380d13,
    0x650a7354, 0x766a0abb, 0x81c2c92e, 0x92722c85, 0xa2bfe8a1, 0xa81a664b,
    0xc24b8b70, 0xc76c51a3, 0xd192e819, 0xd6990624, 0xf40e3585, 0x106aa070,
    0x19a4c116, 0x1e376c08, 0x2748774c, 0x34b0bcb5, 0x391c0cb3, 0x4ed8aa4a,
    0x5b9cca4f, 0x682e6ff3, 0x748f82ee, 0x78a5636f, 0x84c87814, 0x8cc70208,
    0x90befffa, 0xa4506ceb, 0xbef9a3f7, 0xc67178f2]

/-- The byte of a block as a word. -/
def blockByte (block : List UInt8) (i : Nat) : BitVec 32 :=
  BitVec.ofNat 32 (block.getD i 0).toNat

/-- The first loop of `transform`: four bytes make one word. -/
def loadWord (block : List UInt8) (i : Nat) : BitVec 32 :=
  blockByte block (i * 4) <<< 24 ||| blockByte block (i * 4 + 1) <<< 16 |||
    blockByte block (i * 4 + 2) <<< 8 ||| blockByte block (i * 4 + 3)

/-- The second loop of `transform`: one more word of the schedule. -/
def extendSchedule (w : List (BitVec 32)) (i : Nat) : List (BitVec 32) :=
  let s0 := rotr (w.getD (i - 15) 0) 7 ^^^ rotr (w.getD (i - 15) 0) 18 ^^^
    (w.getD (i - 15) 0 >>> 3)
  let s1 := rotr (w.getD (i - 2) 0) 17 ^^^ rotr (w.getD (i - 2) 0) 19 ^^^
    (w.getD (i - 2) 0 >>> 10)
  w ++ [w.getD (i - 16) 0 + s0 + w.getD (i - 7) 0 + s1]

/-- The schedule after the two loops: `w` up to the given length. -/
def fillSchedule (block : List UInt8) (count : Nat) : List (BitVec 32) :=
  (List.range' 16 count).foldl extendSchedule
    ((List.range 16).map (loadWord block))

/-- The third loop of `transform`: one round. -/
def mixRound (w : List (BitVec 32)) (v : EightWords) (i : Nat) :
    EightWords :=
  let S1 := rotr v.e 6 ^^^ rotr v.e 11 ^^^ rotr v.e 25
  let ch := (v.e &&& v.f) ^^^ (~~~v.e &&& v.g)
  let t1 := v.h + S1 + ch + k.getD i 0 + w.getD i 0
  let S0 := rotr v.a 2 ^^^ rotr v.a 13 ^^^ rotr v.a 22
  let maj := (v.a &&& v.b) ^^^ (v.a &&& v.c) ^^^ (v.b &&& v.c)
  let t2 := S0 + maj
  { a := t1 + t2, b := v.a, c := v.b, d := v.c
    e := v.d + t1, f := v.e, g := v.f, h := v.g }

/-- Compress one block into the state words. -/
def transform (h : EightWords) (block : List UInt8) : EightWords :=
  h.add ((List.range 64).foldl (mixRound (fillSchedule block 48)) h)

/-- Copy bytes into the buffer and compress it when it is full. -/
def fillBuffer (state : Sha256) (portion : List UInt8) : Sha256 :=
  if (state.buf ++ portion).length = 64 then
    { state with h := transform state.h (state.buf ++ portion), buf := [] }
  else
    { state with buf := state.buf ++ portion }

/-- The loop of `update`, for at most a number of rounds. -/
def updateLoop : Nat → Sha256 → List UInt8 → Option Sha256
  | _, state, [] => some state
  | 0, _, _ :: _ => none
  | fuel + 1, state, byte :: later =>
    let data := byte :: later
    let take := min data.length (64 - state.buf.length)
    updateLoop fuel (state.fillBuffer (data.take take)) (data.drop take)

/-- Hash more bytes. -/
def update (state : Sha256) (data : List UInt8) : Option Sha256 :=
  updateLoop data.length
    { state with total := state.total + UInt64.ofNat data.length } data

/-- Feed zeros until eight bytes are left of the block. -/
def padZeros : Nat → Sha256 → Option Sha256
  | 0, _ => none
  | fuel + 1, state =>
    if state.buf.length ≠ 56 then
      (state.update [0]).bind (padZeros fuel)
    else
      some state

/-- The bit count, its most significant byte first. -/
def lenBe (bits : UInt64) : List UInt8 :=
  (List.range 8).map fun i => (bits >>> UInt64.ofNat (56 - 8 * i)).toUInt8

def kHex : Str :=
  "0123456789abcdef".toList

/-- The two digits of one byte of a state word. -/
def hexByte (word : BitVec 32) (b : Nat) : Str :=
  let byte : BitVec 8 := (word >>> (24 - 8 * b)).setWidth 8
  [kHex.getD (byte >>> 4).toNat '0', kHex.getD (byte &&& 0x0F).toNat '0']

/-- The digits of the state words. -/
def hexDigits (h : EightWords) : Str :=
  h.toList.flatMap fun word => (List.range 4).flatMap (hexByte word)

/-- Pad, hash the padding and print the state words. -/
def hex (state : Sha256) : Option Str := do
  let bits := state.total * 8
  let marked ← state.update [0x80]
  let filled ← padZeros 64 marked
  let finished ← filled.update (lenBe bits)
  return hexDigits finished.h

def hashHex (s : List UInt8) : Option Str := do
  let h ← ({} : Sha256).update s
  h.hex

/-- Feed a text in portions. -/
def updates (state : Sha256) (chunks : List (List UInt8)) : Option Sha256 :=
  chunks.foldlM update state

end Sha256

end Policyd
