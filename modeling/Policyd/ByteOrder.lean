import Mathlib.Data.List.Forall2
import Mathlib.Data.List.GetD
import Mathlib.Data.UInt

namespace Policyd.ByteOrder

/-!
# Words as bytes

A word is laid out in memory with its least significant byte first on a
little-endian host and last on a big-endian one; a packed structure is a
sequence of words.  Swapping the bytes of every word turns the image on one
kind of host into the image on the other.
-/

/-- The byte order of a host. -/
inductive Endian where
  | little
  | big
  deriving Repr, DecidableEq

/-- The low bytes of a number, least significant first. -/
def littleBytes : Nat → Nat → List UInt8
  | 0, _ => []
  | width + 1, value =>
    UInt8.ofNat value :: littleBytes width (value / 256)

/-- The number that bytes spell, least significant first. -/
def littleValue : List UInt8 → Nat
  | [] => 0
  | byte :: later => byte.toNat + 256 * littleValue later

@[simp] theorem length_littleBytes (width value : Nat) :
    (littleBytes width value).length = width := by
  induction width generalizing value with
  | zero =>
    rfl
  | succ width inductionHypothesis =>
    rw [littleBytes, List.length_cons, inductionHypothesis]

/-- A value fits a width when the bytes of the width can spell it. -/
def Fits (width value : Nat) : Prop :=
  value < 256 ^ width

theorem fits_littleValue (bytes : List UInt8) :
    Fits bytes.length (littleValue bytes) := by
  induction bytes with
  | nil => exact Nat.one_pos
  | cons byte later inductionHypothesis =>
    have byteBound := byte.toNat_lt
    unfold Fits at inductionHypothesis ⊢
    rw [List.length_cons, littleValue, Nat.pow_succ]
    omega

variable {width value : Nat} {widths values : List Nat} {bytes : List UInt8}

theorem littleValue_littleBytes (fits : Fits width value) :
    littleValue (littleBytes width value) = value := by
  induction width generalizing value with
  | zero =>
    have isZero : value = 0 := by
      simpa [Fits] using fits
    rw [isZero]
    rfl
  | succ width inductionHypothesis =>
    have quotientFits : Fits width (value / 256) := by
      unfold Fits at fits ⊢
      rw [Nat.pow_succ] at fits
      exact Nat.div_lt_of_lt_mul (by omega)
    rw [littleBytes, littleValue, inductionHypothesis quotientFits,
      UInt8.toNat_ofNat']
    exact Nat.mod_add_div value 256

theorem littleBytes_littleValue (bytes : List UInt8) :
    littleBytes bytes.length (littleValue bytes) = bytes := by
  induction bytes with
  | nil => rfl
  | cons byte later inductionHypothesis =>
    have byteBound := byte.toNat_lt
    have lowByte :
        UInt8.ofNat (byte.toNat + 256 * littleValue later) = byte := by
      apply UInt8.toNat_inj.mp
      rw [UInt8.toNat_ofNat']
      omega
    have rest :
        (byte.toNat + 256 * littleValue later) / 256 =
          littleValue later := by
      omega
    rw [List.length_cons, littleValue, littleBytes, lowByte, rest,
      inductionHypothesis]

/-- The bytes of a word in memory. -/
def wordBytes (host : Endian) (width value : Nat) : List UInt8 :=
  match host with
  | .little => littleBytes width value
  | .big => (littleBytes width value).reverse

/-- The word that bytes in memory hold. -/
def wordValue (host : Endian) (bytes : List UInt8) : Nat :=
  match host with
  | .little => littleValue bytes
  | .big => littleValue bytes.reverse

@[simp] theorem length_wordBytes (host : Endian) (width value : Nat) :
    (wordBytes host width value).length = width := by
  cases host <;> simp [wordBytes]

theorem wordValue_wordBytes (host : Endian) (fits : Fits width value) :
    wordValue host (wordBytes host width value) = value := by
  cases host <;> simp [wordValue, wordBytes, littleValue_littleBytes fits]

theorem wordBytes_wordValue (host : Endian) (bytes : List UInt8) :
    wordBytes host bytes.length (wordValue host bytes) = bytes := by
  cases host with
  | little => exact littleBytes_littleValue bytes
  | big =>
    have spelled := littleBytes_littleValue bytes.reverse
    rw [List.length_reverse] at spelled
    rw [wordBytes, wordValue, spelled, List.reverse_reverse]

theorem fits_wordValue (host : Endian) (bytes : List UInt8) :
    Fits bytes.length (wordValue host bytes) := by
  cases host with
  | little => exact fits_littleValue bytes
  | big =>
    simpa [wordValue] using fits_littleValue bytes.reverse

/-- The word with its bytes in reverse order. -/
def swapWord (width value : Nat) : Nat :=
  littleValue (littleBytes width value).reverse

theorem swapWord_one (fits : Fits 1 value) :
    swapWord 1 value = value := by
  have spelled := littleValue_littleBytes fits
  simpa [swapWord, littleBytes] using spelled

theorem wordBytes_big_swapWord (width value : Nat) :
    wordBytes .big width (swapWord width value) =
      wordBytes .little width value := by
  have spelled := littleBytes_littleValue (littleBytes width value).reverse
  rw [List.length_reverse, length_littleBytes] at spelled
  have reversed := congrArg List.reverse spelled
  rwa [List.reverse_reverse] at reversed

theorem swapWord_wordValue_big (bytes : List UInt8) :
    swapWord bytes.length (wordValue .big bytes) = wordValue .little bytes := by
  have spelled := wordBytes_wordValue .big bytes
  have reversed :
      (littleBytes bytes.length (wordValue .big bytes)).reverse = bytes :=
    spelled
  rw [swapWord, reversed]
  rfl

/-- The bytes of packed words. -/
def writeWords (host : Endian) : List Nat → List Nat → List UInt8
  | width :: widths, value :: values =>
    wordBytes host width value ++ writeWords host widths values
  | _, _ => []

/-- The words that packed bytes hold. -/
def readWords (host : Endian) : List Nat → List UInt8 → List Nat
  | [], _ => []
  | width :: widths, bytes =>
    wordValue host (bytes.take width) ::
      readWords host widths (bytes.drop width)

theorem length_writeWords
    (host : Endian) (sameLength : widths.length = values.length) :
    (writeWords host widths values).length = widths.sum := by
  induction widths generalizing values with
  | nil => cases values <;> rfl
  | cons width widths inductionHypothesis =>
    cases values with
    | nil => cases sameLength
    | cons value values =>
      rw [writeWords, List.length_append, length_wordBytes,
        inductionHypothesis (Nat.succ.inj sameLength), List.sum_cons]

theorem readWords_writeWords
    (host : Endian) (fits : List.Forall₂ Fits widths values) :
    readWords host widths (writeWords host widths values) = values := by
  induction fits with
  | nil => rfl
  | cons first _ inductionHypothesis =>
    rw [writeWords, readWords, List.take_left' (length_wordBytes ..),
      List.drop_left' (length_wordBytes ..), wordValue_wordBytes host first,
      inductionHypothesis]

private theorem length_take_of_sum
    (length : bytes.length = (width :: widths).sum) :
    (bytes.take width).length = width ∧
      (bytes.drop width).length = widths.sum := by
  rw [List.sum_cons] at length
  rw [List.length_take, List.length_drop]
  omega

theorem writeWords_readWords
    (host : Endian) (length : bytes.length = widths.sum) :
    writeWords host widths (readWords host widths bytes) = bytes := by
  induction widths generalizing bytes with
  | nil => exact (List.eq_nil_of_length_eq_zero length).symm
  | cons width widths inductionHypothesis =>
    obtain ⟨firstLength, restLength⟩ := length_take_of_sum length
    have first := wordBytes_wordValue host (bytes.take width)
    rw [firstLength] at first
    rw [readWords, writeWords, first, inductionHypothesis restLength,
      List.take_append_drop]

theorem fits_readWords (host : Endian) (length : bytes.length = widths.sum) :
    List.Forall₂ Fits widths (readWords host widths bytes) := by
  induction widths generalizing bytes with
  | nil => exact .nil
  | cons width widths inductionHypothesis =>
    obtain ⟨firstLength, restLength⟩ := length_take_of_sum length
    have first := fits_wordValue host (bytes.take width)
    rw [firstLength] at first
    exact .cons first (inductionHypothesis restLength)

theorem mapIdx_mod_of_fits (fits : List.Forall₂ Fits widths values) :
    (widths.mapIdx fun index width => values.getD index 0 % 256 ^ width) =
      values := by
  obtain ⟨sameLength, within⟩ := List.forall₂_iff_get.mp fits
  refine List.ext_getElem (by simpa using sameLength) ?_
  intro index inWidths inValues
  have inBounds : index < widths.length := by
    simpa using inWidths
  have fit := within index inBounds inValues
  rw [List.getElem_mapIdx, List.getD_eq_getElem values 0 inValues]
  exact Nat.mod_eq_of_lt fit

theorem writeWords_big_swap (widths values : List Nat) :
    writeWords .big widths (List.zipWith swapWord widths values) =
      writeWords .little widths values := by
  induction widths generalizing values with
  | nil => cases values <;> rfl
  | cons width widths inductionHypothesis =>
    cases values with
    | nil => rfl
    | cons value values =>
      rw [List.zipWith_cons_cons, writeWords, writeWords,
        wordBytes_big_swapWord, inductionHypothesis]

theorem swap_readWords_big (length : bytes.length = widths.sum) :
    List.zipWith swapWord widths (readWords .big widths bytes) =
      readWords .little widths bytes := by
  induction widths generalizing bytes with
  | nil => rfl
  | cons width widths inductionHypothesis =>
    obtain ⟨firstLength, restLength⟩ := length_take_of_sum length
    have first := swapWord_wordValue_big (bytes.take width)
    rw [firstLength] at first
    rw [readWords, readWords, List.zipWith_cons_cons, first,
      inductionHypothesis restLength]

end Policyd.ByteOrder
