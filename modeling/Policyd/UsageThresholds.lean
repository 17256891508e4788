import Policyd.Engine

namespace Policyd

/-!
# Two builds of the usage threshold

With a 128-bit integer type the test whether usage has reached a share of the
quota compares exact products.  Without one it compares usage with the whole
part of the share, computed in wrapping 64-bit arithmetic.
-/

/-- The form that multiplies in 128 bits. -/
def usageAtLeastPermilleWide (usage quota : UInt64) (permille : UInt32) :
    Bool :=
  if quota = 0 then
    false
  else
    let lhs := usage.toBitVec.setWidth 128 * 1000#128
    let rhs := quota.toBitVec.setWidth 128 * permille.toBitVec.setWidth 128
    rhs ≤ lhs

/-- The form for compilers without a 128-bit type. -/
def usageAtLeastPermilleFallback (usage quota : UInt64) (permille : UInt32) :
    Bool :=
  if quota = 0 then
    false
  else
    let whole := quota / 1000 * permille.toUInt64
    let remainder := quota % 1000 * permille.toUInt64 / 1000
    whole + remainder ≤ usage

/-- The largest share the rules can ask for, in permille. -/
def kMaxPermille : Nat :=
  100000

private theorem natMetered {quota : UInt64} (metered : quota ≠ 0) :
    (quota.toNat != 0) = true :=
  bne_iff_ne.mpr fun zero => metered (UInt64.toNat_inj.mp zero)

/-- Products of 128 bits are exact. -/
theorem usageAtLeastPermilleWide_eq (usage quota : UInt64) (permille : UInt32) :
    usageAtLeastPermilleWide usage quota permille =
      usageAtLeastPermille usage.toNat quota.toNat permille.toNat := by
  have usageBound := usage.toNat_lt
  have quotaBound := quota.toNat_lt
  have permilleBound := permille.toNat_lt
  have product : quota.toNat * permille.toNat < 2 ^ 128 :=
    calc
      quota.toNat * permille.toNat ≤ 2 ^ 64 * 2 ^ 32 :=
        Nat.mul_le_mul (Nat.le_of_lt quotaBound) (Nat.le_of_lt permilleBound)
      _ < 2 ^ 128 := by decide
  unfold usageAtLeastPermilleWide usageAtLeastPermille
  by_cases unmetered : quota = 0
  · simp [unmetered]
  · have metered := natMetered unmetered
    rw [if_neg unmetered, metered, Bool.true_and]
    refine decide_eq_decide.mpr ?_
    rw [BitVec.le_def]
    simp only [BitVec.toNat_mul, BitVec.toNat_setWidth, UInt64.toNat_toBitVec,
      UInt32.toNat_toBitVec, BitVec.toNat_ofNat]
    rw [Nat.mod_eq_of_lt (by omega : quota.toNat < 2 ^ 128),
      Nat.mod_eq_of_lt (by omega : usage.toNat < 2 ^ 128),
      Nat.mod_eq_of_lt (by omega : permille.toNat < 2 ^ 128),
      Nat.mod_eq_of_lt product]
    rw [Nat.mod_eq_of_lt (by omega)]

theorem whole_add_remainder (quota permille : Nat) :
    quota / 1000 * permille + quota % 1000 * permille / 1000 =
      quota * permille / 1000 := by
  have split :
      quota * permille =
        quota % 1000 * permille + 1000 * (quota / 1000 * permille) := by
    calc
      quota * permille = (quota % 1000 + 1000 * (quota / 1000)) * permille := by
        rw [Nat.mod_add_div]
      _ = quota % 1000 * permille + 1000 * (quota / 1000 * permille) := by
        ring
  rw [split, Nat.add_mul_div_left _ _ (by decide : 0 < 1000), Nat.add_comm]

/-- The fallback compares with the whole part of the share, wrapped. -/
theorem usageAtLeastPermilleFallback_eq (usage quota : UInt64)
    {permille : UInt32}
    (bounded : permille.toNat ≤ kMaxPermille) :
    usageAtLeastPermilleFallback usage quota permille =
      (quota != 0 &&
        decide (quota.toNat * permille.toNat / 1000 % 2 ^ 64 ≤
          usage.toNat)) := by
  have exactRemainder :
      quota.toNat % 1000 * permille.toNat % 2 ^ 64 =
        quota.toNat % 1000 * permille.toNat := by
    refine Nat.mod_eq_of_lt ?_
    calc
      quota.toNat % 1000 * permille.toNat ≤ 1000 * kMaxPermille :=
        Nat.mul_le_mul (Nat.le_of_lt (Nat.mod_lt _ (by decide))) bounded
      _ < 2 ^ 64 := by decide
  unfold usageAtLeastPermilleFallback
  by_cases unmetered : quota = 0
  · simp [unmetered]
  · have metered : (quota != 0) = true := bne_iff_ne.mpr unmetered
    rw [if_neg unmetered, metered, Bool.true_and]
    refine decide_eq_decide.mpr ?_
    have thousand : (1000 : UInt64).toNat = 1000 := rfl
    rw [UInt64.le_iff_toNat_le, UInt64.toNat_add, UInt64.toNat_mul,
      UInt64.toNat_div, UInt64.toNat_div, UInt64.toNat_mul, UInt64.toNat_mod,
      UInt32.toNat_toUInt64, thousand, exactRemainder, Nat.mod_add_mod,
      whole_add_remainder]

/--
The two builds agree exactly when the plan is unmetered, or the share fits in 64
bits and is a whole number of bytes or not the usage itself, or the share does
not fit and what is left of it after wrapping still exceeds the usage.
-/
theorem threshold_builds_agree_iff
    (usage quota : UInt64)
    {permille : UInt32}
    (bounded : permille.toNat ≤ kMaxPermille) :
    usageAtLeastPermilleFallback usage quota permille =
        usageAtLeastPermilleWide usage quota permille ↔
      quota = 0 ∨
        (quota.toNat * permille.toNat / 1000 < 2 ^ 64 ∧
          (1000 ∣ quota.toNat * permille.toNat ∨
            usage.toNat ≠ quota.toNat * permille.toNat / 1000)) ∨
        (2 ^ 64 ≤ quota.toNat * permille.toNat / 1000 ∧
          usage.toNat < quota.toNat * permille.toNat / 1000 % 2 ^ 64) := by
  have usageBound := usage.toNat_lt
  rw [usageAtLeastPermilleFallback_eq usage quota bounded,
    usageAtLeastPermilleWide_eq, usageAtLeastPermille]
  by_cases unmetered : quota = 0
  · simp [unmetered]
  · have metered : (quota != 0) = true := bne_iff_ne.mpr unmetered
    rw [metered, natMetered unmetered, Bool.true_and, Bool.true_and, decide_eq_decide]
    simp only [unmetered, false_or]
    generalize quota.toNat * permille.toNat = share
    omega

/-- Half of a one-byte quota: the fallback is satisfied by no usage at all. -/
theorem threshold_builds_disagree :
    (500 : UInt32).toNat ≤ kMaxPermille ∧
      usageAtLeastPermilleFallback 0 1 500 = true ∧
      usageAtLeastPermilleWide 0 1 500 = false := by
  decide

/-- A tenth of a quota of a hundred bytes. -/
theorem threshold_builds_agree_at_ten_bytes :
    (100 : UInt32).toNat ≤ kMaxPermille ∧
      usageAtLeastPermilleFallback 10 100 100 =
        usageAtLeastPermilleWide 10 100 100 := by
  have bounded : (100 : UInt32).toNat ≤ kMaxPermille := by
    decide
  exact ⟨bounded,
    (threshold_builds_agree_iff 10 100 bounded).mpr (by decide)⟩

end Policyd
