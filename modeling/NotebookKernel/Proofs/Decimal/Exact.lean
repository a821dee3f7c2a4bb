import NotebookKernel.Decimal.Binary64

/-!
# Whole numbers as doubles

Every whole number up to `2 ^ 53` is a double: its nearest magnitude is finite and rounds back to
the number.
-/

set_option autoImplicit false

namespace NotebookKernel.Binary64

theorem floorLog2_one {n : Nat} (positive : 0 < n) : floorLog2 n 1 = n.log2 := by
  have low : 2 ^ n.log2 ≤ n := Nat.log2_self_le (Nat.ne_of_gt positive)
  have one : Nat.log2 1 = 0 := by decide
  have back : (-((n.log2 : Int) - (0 : Nat))).toNat = 0 := by omega
  have forth : ((n.log2 : Int) - (0 : Nat)).toNat = n.log2 := by omega
  have above : ¬ n * Nat.pow 2 0 < 1 * Nat.pow 2 n.log2 := by
    rw [Nat.one_mul]
    show ¬ n * 1 < 2 ^ n.log2
    omega
  rw [floorLog2, one, back, forth, if_neg above]
  omega

private theorem roundQuotient_one (n : Nat) : roundQuotient n 1 = n := by
  have exact : ¬ (1 < 2 * (n % 1) ∨ 2 * (n % 1) = 1 ∧ n / 1 % 2 = 1) := by omega
  rw [roundQuotient, if_neg exact, Nat.div_one]

theorem pow_52 : Nat.pow 2 52 = 4503599627370496 := rfl

private theorem pow_53 : Nat.pow 2 53 = 9007199254740992 := rfl

private theorem significand_bounds {n : Nat} (positive : 0 < n) (small : n.log2 ≤ 52) :
    Nat.pow 2 52 ≤ n * Nat.pow 2 (52 - n.log2) ∧ n * Nat.pow 2 (52 - n.log2) < Nat.pow 2 53 := by
  have low : 2 ^ n.log2 ≤ n := Nat.log2_self_le (Nat.ne_of_gt positive)
  have high : n < 2 ^ (n.log2 + 1) := Nat.lt_log2_self
  have unit : 0 < 2 ^ (52 - n.log2) := Nat.pow_pos (by decide)
  constructor
  · calc (2 : Nat) ^ 52 = 2 ^ n.log2 * 2 ^ (52 - n.log2) := by rw [← Nat.pow_add]; congr 1; omega
      _ ≤ n * 2 ^ (52 - n.log2) := Nat.mul_le_mul_right _ low
  · calc n * 2 ^ (52 - n.log2)
        < 2 ^ (n.log2 + 1) * 2 ^ (52 - n.log2) := Nat.mul_lt_mul_of_pos_right high unit
      _ = 2 ^ 53 := by rw [← Nat.pow_add]; congr 1; omega

theorem rankOfNat_eq {n : Nat} (positive : 0 < n) (small : n.log2 ≤ 52) :
    rankOfNat n = (n.log2 + 1022) * Nat.pow 2 52 + n * Nat.pow 2 (52 - n.log2) := by
  obtain ⟨-, high⟩ := significand_bounds positive small
  have power : max ((n.log2 : Int) - 52) (-1074) = (n.log2 : Int) - 52 := by omega
  have back : (-((n.log2 : Int) - 52)).toNat = 52 - n.log2 := by omega
  have forth : ((n.log2 : Int) - 52).toNat = 0 := by omega
  have exponent : ((n.log2 : Int) - 52 + 1074).toNat = n.log2 + 1022 := by omega
  have unit : 1 * Nat.pow 2 0 = 1 := rfl
  rw [rankOfNat, rankOfRatio, if_neg (Nat.ne_of_gt positive), floorLog2_one positive]
  dsimp only
  rw [power, back, forth, exponent, unit, roundQuotient_one]
  refine Nat.min_eq_right ?_
  rw [pow_53] at high
  rw [infiniteRank, pow_52]
  omega

private theorem roundHalfUp_of_log2 {n : Nat} (positive : 0 < n) (small : n.log2 ≤ 52) :
    roundHalfUp (rankOfNat n) = n := by
  obtain ⟨low, high⟩ := significand_bounds positive small
  have parted : parts (rankOfNat n) = (n * Nat.pow 2 (52 - n.log2), (n.log2 : Int) - 52) := by
    rw [pow_52] at low
    rw [pow_53] at high
    rw [rankOfNat_eq positive small, parts, pow_52, if_neg (by omega), Prod.mk.injEq]
    constructor <;> omega
  have back : (-((n.log2 : Int) - 52)).toNat = 52 - n.log2 := by omega
  have forth : ((n.log2 : Int) - 52).toNat = 0 := by omega
  have unit : 0 < Nat.pow 2 (52 - n.log2) := Nat.pow_pos (by decide)
  rw [roundHalfUp, ratio, parted]
  dsimp only [scale]
  rw [back, forth]
  generalize Nat.pow 2 (52 - n.log2) = d at unit ⊢
  calc (2 * (n * d * Nat.pow 2 0) + d) / (2 * d) = (d + 2 * d * n) / (2 * d) := by
        congr 1
        show 2 * (n * d * 1) + d = d + 2 * d * n
        rw [Nat.mul_one, Nat.mul_comm n d, Nat.mul_assoc, Nat.add_comm]
    _ = n := by rw [Nat.add_mul_div_left _ _ (by omega), Nat.div_eq_of_lt (by omega), Nat.zero_add]

theorem exact_of_le {n : Nat} (small : n ≤ Nat.pow 2 53) :
    rankOfNat n < infiniteRank ∧ (rankOfNat n = 0 ↔ n = 0) ∧ roundHalfUp (rankOfNat n) = n := by
  rcases Nat.eq_zero_or_pos n with rfl | positive
  · decide +kernel
  by_cases top : n.log2 ≤ 52
  · obtain ⟨low, high⟩ := significand_bounds positive top
    have rank := rankOfNat_eq positive top
    rw [pow_52] at low rank
    rw [pow_53] at high
    refine ⟨?_, by omega, roundHalfUp_of_log2 positive top⟩
    rw [infiniteRank, pow_52]
    omega
  · have last : n = Nat.pow 2 53 := by
      have low : 2 ^ 53 ≤ n := (Nat.le_log2 (Nat.ne_of_gt positive)).mp (by omega)
      exact Nat.le_antisymm small low
    rw [last]
    decide +kernel

end NotebookKernel.Binary64
