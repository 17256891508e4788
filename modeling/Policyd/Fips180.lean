import Mathlib.Analysis.SpecialFunctions.Pow.NthRootLemmas
import Mathlib.Data.Nat.Prime.Nth
import Mathlib.Tactic.Ring
import Policyd.BlockHash

namespace Policyd.Fips180

/-!
# The secure hash standard, SHA-256

FIPS 180-4 describes SHA-256 on strings of bits.  The constants are the first
bits of fractional parts of roots of primes, as sections 4.2.2 and 5.3.3 give
them, and the message schedule is a recurrence.  Nothing here is about a
program.
-/

section Bits

/-- The bits of a number, the most significant one first. -/
def bitsOfNat : Nat → Nat → List Bool
  | 0, _ => []
  | width + 1, value => value.testBit width :: bitsOfNat width value

/-- The number that bits denote, the most significant one first. -/
def natOfBits (bits : List Bool) : Nat :=
  bits.foldl (fun value bit => 2 * value + bit.toNat) 0

/-- The bits of a string of bytes. -/
def bitsOfBytes (bytes : List UInt8) : List Bool :=
  bytes.flatMap fun byte => bitsOfNat 8 byte.toNat

@[simp]
theorem length_bitsOfNat (width value : Nat) :
    (bitsOfNat width value).length = width := by
  induction width with
  | zero => rfl
  | succ width inductionHypothesis =>
    rw [bitsOfNat, List.length_cons, inductionHypothesis]

theorem foldl_bits (start : Nat) (bits : List Bool) :
    bits.foldl (fun value bit => 2 * value + bit.toNat) start =
      start * 2 ^ bits.length + natOfBits bits := by
  induction bits generalizing start with
  | nil =>
    rw [List.foldl_nil, List.length_nil, pow_zero, mul_one]
    rfl
  | cons bit later inductionHypothesis =>
    rw [natOfBits, List.foldl_cons, List.foldl_cons, inductionHypothesis,
      inductionHypothesis (2 * 0 + bit.toNat), List.length_cons, pow_succ]
    ring

theorem natOfBits_append (first later : List Bool) :
    natOfBits (first ++ later) =
      natOfBits first * 2 ^ later.length + natOfBits later := by
  rw [natOfBits, List.foldl_append, foldl_bits]
  rfl

theorem natOfBits_bitsOfNat (width value : Nat) :
    natOfBits (bitsOfNat width value) = value % 2 ^ width := by
  induction width with
  | zero =>
    rw [pow_zero, Nat.mod_one]
    rfl
  | succ width inductionHypothesis =>
    rw [bitsOfNat, ← List.singleton_append, natOfBits_append,
      inductionHypothesis, length_bitsOfNat, Nat.mod_pow_succ,
      ← Nat.toNat_testBit, Nat.add_comm, Nat.mul_comm]
    exact congrArg (_ + 2 ^ width * ·) (Nat.zero_add _)

theorem bitsOfNat_add (upper lower value : Nat) :
    bitsOfNat (upper + lower) value =
      bitsOfNat upper (value / 2 ^ lower) ++ bitsOfNat lower value := by
  induction upper with
  | zero =>
    rw [Nat.zero_add]
    rfl
  | succ upper inductionHypothesis =>
    rw [Nat.succ_add, bitsOfNat, inductionHypothesis, bitsOfNat,
      Nat.testBit_div_two_pow, List.cons_append]

theorem bitsOfNat_mod
    {width limit : Nat} (inside : width ≤ limit) (value : Nat) :
    bitsOfNat width (value % 2 ^ limit) = bitsOfNat width value := by
  induction width with
  | zero => rfl
  | succ width inductionHypothesis =>
    rw [bitsOfNat, bitsOfNat, inductionHypothesis (by omega),
      Nat.testBit_mod_two_pow, decide_eq_true (by omega : width < limit),
      Bool.true_and]

@[simp]
theorem length_bitsOfBytes (bytes : List UInt8) :
    (bitsOfBytes bytes).length = 8 * bytes.length := by
  induction bytes with
  | nil => rfl
  | cons byte later inductionHypothesis =>
    rw [bitsOfBytes, List.flatMap_cons, List.length_append,
      length_bitsOfNat, List.length_cons, Nat.mul_succ, Nat.add_comm]
    exact congrArg (· + 8) inductionHypothesis

theorem bitsOfBytes_append (first later : List UInt8) :
    bitsOfBytes (first ++ later) = bitsOfBytes first ++ bitsOfBytes later :=
  List.flatMap_append

theorem natOfBits_bitsOfBytes_cons (byte : UInt8) (later : List UInt8) :
    natOfBits (bitsOfBytes (byte :: later)) =
      byte.toNat * 2 ^ (8 * later.length) + natOfBits (bitsOfBytes later) := by
  rw [bitsOfBytes, List.flatMap_cons, natOfBits_append, natOfBits_bitsOfNat,
    Nat.mod_eq_of_lt byte.toNat_lt]
  exact congrArg (byte.toNat * 2 ^ · + _) (length_bitsOfBytes later)

theorem bitsOfBytes_replicate_zero (count : Nat) :
    bitsOfBytes (List.replicate count 0) =
      List.replicate (8 * count) false := by
  induction count with
  | zero => rfl
  | succ count inductionHypothesis =>
    rw [List.replicate_succ, bitsOfBytes, List.flatMap_cons, ← bitsOfBytes,
      inductionHypothesis, Nat.mul_succ, Nat.add_comm, List.replicate_add]
    rfl

variable {count : Nat} {bytes : List UInt8}

theorem cut_bitsOfBytes (enough : count ≤ bytes.length) :
    (bitsOfBytes bytes).take (8 * count) = bitsOfBytes (bytes.take count) ∧
      (bitsOfBytes bytes).drop (8 * count) =
        bitsOfBytes (bytes.drop count) := by
  have width : (bitsOfBytes (bytes.take count)).length = 8 * count := by
    rw [length_bitsOfBytes, List.length_take, Nat.min_eq_left enough]
  have parts :
      bitsOfBytes bytes =
        bitsOfBytes (bytes.take count) ++ bitsOfBytes (bytes.drop count) := by
    rw [← bitsOfBytes_append, List.take_append_drop]
  rw [parts]
  exact ⟨List.take_left' width, List.drop_left' width⟩

theorem blocks_bitsOfBytes {size : Nat} (whole : bytes.length = size * count) :
    BlockHash.blocks (8 * size) count (bitsOfBytes bytes) =
      (BlockHash.blocks size count bytes).map bitsOfBytes := by
  induction count generalizing bytes with
  | zero => rfl
  | succ count inductionHypothesis =>
    rw [Nat.mul_succ] at whole
    have restLength : (bytes.drop size).length = size * count := by
      rw [List.length_drop]
      omega
    rw [BlockHash.blocks, BlockHash.blocks, List.map_cons,
      (cut_bitsOfBytes (by omega)).1, (cut_bitsOfBytes (by omega)).2,
      inductionHypothesis restLength]

end Bits

section Primes

/-- The first numbers with a property are those a search below a limit meets. -/
theorem nth_eq_of_filter_range {p : Nat → Prop} [DecidablePred p]
    {limit t value : Nat}
    (found : ((List.range limit).filter p)[t]? = some value) :
    Nat.nth p t = value := by
  induction limit with
  | zero => cases found
  | succ limit inductionHypothesis =>
    rw [List.range_succ, List.filter_append, List.getElem?_append] at found
    by_cases early : t < ((List.range limit).filter p).length
    · rw [if_pos early] at found
      exact inductionHypothesis found
    · rw [if_neg early] at found
      rw [List.filter_singleton] at found
      by_cases holds : p limit
      · rw [decide_eq_true holds, cond_true] at found
        obtain ⟨atEnd, rfl⟩ :
            t - ((List.range limit).filter p).length = 0 ∧
              limit = value := by
          simpa [List.getElem?_singleton] using found
        have counted : Nat.count p limit = t := by
          rw [Nat.count, List.countP_eq_length_filter]
          omega
        rw [← counted]
        exact Nat.nth_count holds
      · rw [decide_eq_false holds, cond_false] at found
        cases found

/-- Trial division by the numbers below a bound. -/
def survivesDivision (bound n : Nat) : Bool :=
  decide (2 ≤ n) &&
    (List.range bound).all fun m => m < 2 || n < m * m || n % m ≠ 0

/-- Trial division finds the primes below the square of its bound. -/
theorem survivesDivision_iff {bound n : Nat} (small : n < bound * bound) :
    survivesDivision bound n = true ↔ Nat.Prime n := by
  rw [survivesDivision, Bool.and_eq_true, decide_eq_true_iff,
    List.all_eq_true, Nat.prime_def_le_sqrt]
  refine and_congr_right fun _ => ⟨?_, ?_⟩
  · intro survives m large withinRoot divides
    have square : m * m ≤ n := Nat.le_sqrt.mp withinRoot
    have below : m < bound := by
      by_contra above
      have : bound * bound ≤ m * m := Nat.mul_self_le_mul_self (by omega)
      omega
    have tested := survives m (List.mem_range.mpr below)
    have remainder : n % m = 0 := Nat.mod_eq_zero_of_dvd divides
    simp only [remainder, ne_eq, not_true_eq_false, decide_false,
      Bool.or_false, Bool.or_eq_true, decide_eq_true_iff] at tested
    omega
  · intro undivided m _
    by_cases large : 2 ≤ m
    · by_cases square : m * m ≤ n
      · have remains : n % m ≠ 0 := fun remainder =>
          undivided m large (Nat.le_sqrt.mpr square)
            (Nat.dvd_of_mod_eq_zero remainder)
        simp [remains]
      · simp [Nat.lt_of_not_le square]
    · simp [Nat.lt_of_not_le large]

/-- The first sixty-four primes. -/
def firstPrimes : List Nat :=
  [2, 3, 5, 7, 11, 13, 17, 19, 23, 29, 31, 37, 41, 43, 47, 53, 59, 61, 67, 71,
    73, 79, 83, 89, 97, 101, 103, 107, 109, 113, 127, 131, 137, 139, 149, 151,
    157, 163, 167, 173, 179, 181, 191, 193, 197, 199, 211, 223, 227, 229, 233,
    239, 241, 251, 257, 263, 269, 271, 277, 281, 283, 293, 307, 311]

theorem filter_survivesDivision :
    (List.range 312).filter (survivesDivision 18) = firstPrimes := by
  decide +kernel

theorem nth_prime_of_firstPrimes
    {t prime : Nat} (found : firstPrimes[t]? = some prime) :
    Nat.nth Nat.Prime t = prime := by
  have searched : (List.range 312).filter Nat.Prime = firstPrimes := by
    rw [← filter_survivesDivision]
    refine List.filter_congr fun n listed => ?_
    have below : n < 18 * 18 := by
      have := List.mem_range.mp listed
      omega
    rw [Bool.eq_iff_iff, decide_eq_true_iff, survivesDivision_iff below]
  rw [← searched] at found
  exact nth_eq_of_filter_range found

end Primes

section Standard

/-- The eight words of a hash value, or the eight working variables. -/
structure EightWords where
  a : BitVec 32
  b : BitVec 32
  c : BitVec 32
  d : BitVec 32
  e : BitVec 32
  f : BitVec 32
  g : BitVec 32
  h : BitVec 32
deriving Repr, DecidableEq

/-- Add the words, each modulo `2 ^ 32`. -/
def EightWords.add (x y : EightWords) : EightWords where
  a := x.a + y.a
  b := x.b + y.b
  c := x.c + y.c
  d := x.d + y.d
  e := x.e + y.e
  f := x.f + y.f
  g := x.g + y.g
  h := x.h + y.h

def EightWords.toList (x : EightWords) : List (BitVec 32) :=
  [x.a, x.b, x.c, x.d, x.e, x.f, x.g, x.h]

/-- Section 4.1.2: choice. -/
def ch (x y z : BitVec 32) : BitVec 32 :=
  (x &&& y) ^^^ (~~~x &&& z)

/-- Section 4.1.2: majority. -/
def maj (x y z : BitVec 32) : BitVec 32 :=
  (x &&& y) ^^^ (x &&& z) ^^^ (y &&& z)

/-- Section 4.1.2: the first capital sigma. -/
def bigSigma0 (x : BitVec 32) : BitVec 32 :=
  x.rotateRight 2 ^^^ x.rotateRight 13 ^^^ x.rotateRight 22

/-- Section 4.1.2: the second capital sigma. -/
def bigSigma1 (x : BitVec 32) : BitVec 32 :=
  x.rotateRight 6 ^^^ x.rotateRight 11 ^^^ x.rotateRight 25

/-- Section 4.1.2: the first small sigma. -/
def smallSigma0 (x : BitVec 32) : BitVec 32 :=
  x.rotateRight 7 ^^^ x.rotateRight 18 ^^^ x >>> 3

/-- Section 4.1.2: the second small sigma. -/
def smallSigma1 (x : BitVec 32) : BitVec 32 :=
  x.rotateRight 17 ^^^ x.rotateRight 19 ^^^ x >>> 10

/-- The first thirty-two bits of the fractional part of a root of a prime. -/
noncomputable def rootFraction (degree t : Nat) : BitVec 32 :=
  BitVec.ofNat 32
    (Nat.nthRoot degree (Nat.nth Nat.Prime t * 2 ^ (32 * degree)))

/-- A word, behind some whole part, is the root cut after thirty-two bits. -/
def BetweenPowers (degree t : Nat) (word : BitVec 32) : Prop :=
  ∃ whole < 18,
    (2 ^ 32 * whole + word.toNat) ^ degree ≤
        firstPrimes.getD t 0 * 2 ^ (32 * degree) ∧
      firstPrimes.getD t 0 * 2 ^ (32 * degree) <
        (2 ^ 32 * whole + word.toNat + 1) ^ degree

instance (degree t : Nat) (word : BitVec 32) :
    Decidable (BetweenPowers degree t word) :=
  inferInstanceAs (Decidable (∃ whole < 18, _ ∧ _))

theorem rootFraction_eq {degree t : Nat} {word : BitVec 32}
    (listed : t < 64) (between : BetweenPowers degree t word) :
    rootFraction degree t = word := by
  obtain ⟨whole, _, below, above⟩ := between
  have isPrime : firstPrimes[t]? = some (firstPrimes.getD t 0) := by
    rw [List.getD_eq_getElem firstPrimes 0 listed]
    exact List.getElem?_eq_getElem listed
  rw [rootFraction, nth_prime_of_firstPrimes isPrime,
    Nat.nthRoot_eq_of_le_of_lt below above]
  refine BitVec.eq_of_toNat_eq ?_
  rw [BitVec.toNat_ofNat, Nat.mul_add_mod, Nat.mod_eq_of_lt word.isLt]

/-- Section 4.2.2: the constants come from cube roots of the first primes. -/
noncomputable def roundConstant (t : Nat) : BitVec 32 :=
  rootFraction 3 t

/-- Section 5.3.3: the initial value comes from square roots. -/
noncomputable def initialHash : EightWords where
  a := rootFraction 2 0
  b := rootFraction 2 1
  c := rootFraction 2 2
  d := rootFraction 2 3
  e := rootFraction 2 4
  f := rootFraction 2 5
  g := rootFraction 2 6
  h := rootFraction 2 7

/-- Section 5.1.1: the least number of zeros that leaves room for the length. -/
def zeroBits (length : Nat) : Nat :=
  (448 + 512 - (length + 1) % 512) % 512

/-- Section 5.1.1: a one, zeros and the length of the message. -/
def padding (length : Nat) : List Bool :=
  true :: (List.replicate (zeroBits length) false ++ bitsOfNat 64 length)

def padded (message : List Bool) : List Bool :=
  message ++ padding message.length

theorem length_padded (message : List Bool) :
    (padded message).length =
      512 * ((message.length + 64) / 512 + 1) := by
  rw [padded, padding, List.length_append, List.length_cons,
    List.length_append, List.length_replicate, length_bitsOfNat, zeroBits]
  omega

/-- Section 5.2.1: the words of a block. -/
def messageWord (block : List Bool) (t : Nat) : BitVec 32 :=
  BitVec.ofNat 32 (natOfBits ((block.drop (32 * t)).take 32))

/-- Section 6.2.2, step 1: the message schedule. -/
def schedule (block : List Bool) (t : Nat) : BitVec 32 :=
  if t < 16 then
    messageWord block t
  else
    smallSigma1 (schedule block (t - 2)) + schedule block (t - 7) +
      smallSigma0 (schedule block (t - 15)) + schedule block (t - 16)

/-- Section 6.2.2, step 3: one round on the working variables. -/
def round (constant word : BitVec 32) (v : EightWords) : EightWords :=
  let t1 := v.h + bigSigma1 v.e + ch v.e v.f v.g + constant + word
  let t2 := bigSigma0 v.a + maj v.a v.b v.c
  { a := t1 + t2, b := v.a, c := v.b, d := v.c
    e := v.d + t1, f := v.e, g := v.f, h := v.g }

/-- Section 6.2.2: the next hash value. -/
noncomputable def compress (hash : EightWords) (block : List Bool) :
    EightWords :=
  hash.add
    ((List.range 64).foldl
      (fun v t => round (roundConstant t) (schedule block t) v) hash)

/-- Section 6.2: the hash value of a message. -/
noncomputable def sha256 (message : List Bool) : EightWords :=
  (BlockHash.blocks 512 ((padded message).length / 512)
    (padded message)).foldl compress initialHash

/-- The lower-case hexadecimal digits of a word. -/
def hexOfWord (word : BitVec 32) : List Char :=
  (List.range 8).map fun i =>
    Nat.digitChar (word.toNat / 16 ^ (7 - i) % 16)

/-- The message digest in lower-case hexadecimal digits. -/
def hexOfHash (hash : EightWords) : List Char :=
  hash.toList.flatMap hexOfWord

end Standard

end Policyd.Fips180
