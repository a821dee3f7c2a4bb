import Mathlib.Data.Nat.Log
import NotebookKernel.Decimal.Shortest
import NotebookKernel.Proofs.Decimal.Nearest

/-!
# The numbers that shortest numerals stand for

The interval of a rank holds the numbers that are rounded to it. Seventeen digits always reach it:
a grid of so many digits is finer than the interval is wide. The shortest numeral of a rank
therefore stands for a number that is rounded to the rank.
-/

set_option autoImplicit false

namespace NotebookKernel.Decimal

open Binary64 (magnitude parts scale)

def Numeral.value (n : Numeral) : ℚ :=
  n.digits * 10 ^ n.exponent

private theorem pow_toNat {base : ℚ} (nonzero : base ≠ 0) (e : Int) :
    base ^ e.toNat = base ^ e * base ^ (-e).toNat := by
  rcases Int.le_total 0 e with positive | negative
  · have none : (-e).toNat = 0 := by omega
    rw [none, pow_zero, mul_one, ← zpow_natCast, Int.toNat_of_nonneg positive]
  · have none : e.toNat = 0 := by omega
    rw [none, pow_zero, ← zpow_natCast, Int.toNat_of_nonneg (by omega), ← zpow_add₀ nonzero]
    simp

theorem tenPower_eq (e : Int) : ((tenPower e).1 : ℚ) = 10 ^ e * (tenPower e).2 := by
  simp only [tenPower, Nat.pow_eq, Nat.cast_pow, Nat.cast_ofNat]
  exact pow_toNat (by norm_num) e

theorem tenPower_pos (e : Int) : (0 : ℚ) < (tenPower e).2 := by
  simp only [tenPower, Nat.pow_eq, Nat.cast_pow, Nat.cast_ofNat]
  positivity

private theorem scale_eq (n : Nat) (e : Int) :
    ((scale n e).1 : ℚ) = n * 2 ^ e * (scale 1 e).2 := by
  simp only [scale, Nat.pow_eq, Nat.cast_mul, Nat.cast_pow, Nat.cast_ofNat]
  rw [pow_toNat (by norm_num) e, mul_assoc]

private theorem scale_pos (e : Int) : (0 : ℚ) < (scale 1 e).2 := by
  simp only [scale, Nat.pow_eq, Nat.cast_pow, Nat.cast_ofNat]
  positivity

/-- The interval of a rank reaches from the middle below its magnitude to the middle above it. -/
structure Interval.Reaches (i : Interval) (rank : Nat) : Prop where
  den : (0 : ℚ) < i.den
  low : 2 * (i.low : ℚ) = (magnitude rank + magnitude (rank + 1)) * i.den
  value : (i.value : ℚ) = magnitude (rank + 1) * i.den
  high : 2 * (i.high : ℚ) = (magnitude (rank + 1) + magnitude (rank + 2)) * i.den
  closed : i.closed = true ↔ (rank + 1) % 2 = 0

private theorem parts_cases (rank : Nat) :
    0 < (parts (rank + 1)).1 ∧ (parts (rank + 1)).1 < 9007199254740992 ∧
      (parts (rank + 1)).1 % 2 = (rank + 1) % 2 ∧
      if (parts (rank + 1)).1 = Nat.pow 2 52 ∧ -1074 < (parts (rank + 1)).2 then
        (parts rank).2 = (parts (rank + 1)).2 - 1
      else (parts rank).2 = (parts (rank + 1)).2 := by
  rw [Binary64.pow_52]
  by_cases small : rank + 1 < 4503599627370496
  · have before : parts rank = (rank, -1074) := by rw [parts, Binary64.pow_52, if_pos (by omega)]
    have own : parts (rank + 1) = (rank + 1, -1074) := by rw [parts, Binary64.pow_52, if_pos small]
    rw [before, own]
    refine ⟨by omega, by dsimp only; omega, rfl, ?_⟩
    rw [if_neg (by omega)]
  · have own : parts (rank + 1) = (4503599627370496 + (rank + 1) % 4503599627370496,
        (((rank + 1) / 4503599627370496 : Nat) : Int) - 1075) := by
      rw [parts, Binary64.pow_52, if_neg small]
    rw [own]
    refine ⟨by omega, by dsimp only; omega, by dsimp only; omega, ?_⟩
    by_cases first : rank < 4503599627370496
    · have before : parts rank = (rank, -1074) := by rw [parts, Binary64.pow_52, if_pos first]
      rw [before]
      dsimp only
      rw [if_neg (by omega)]
      omega
    · have before : parts rank = (4503599627370496 + rank % 4503599627370496,
          ((rank / 4503599627370496 : Nat) : Int) - 1075) := by
        rw [parts, Binary64.pow_52, if_neg first]
      rw [before]
      dsimp only
      split <;> omega

theorem reaches_ofRank (rank : Nat) : (Interval.ofRank (rank + 1)).Reaches rank := by
  obtain ⟨positive, -, parity, units⟩ := parts_cases rank
  have before := Binary64.magnitude_succ rank
  have behind := Binary64.magnitude_succ (rank + 1)
  have quarter : (2 : ℚ) ^ (parts (rank + 1)).2 = 4 * 2 ^ ((parts (rank + 1)).2 - 2) := by
    rw [zpow_sub₀ (by norm_num)]
    norm_num
    ring
  have own : magnitude (rank + 1) =
      4 * (parts (rank + 1)).1 * 2 ^ ((parts (rank + 1)).2 - 2) := by
    rw [Binary64.magnitude, quarter]
    ring
  rw [quarter] at behind
  have ends : Interval.ofRank (rank + 1) =
      ⟨(scale (4 * (parts (rank + 1)).1 -
          if (parts (rank + 1)).1 = Nat.pow 2 52 ∧ -1074 < (parts (rank + 1)).2 then 1 else 2)
          ((parts (rank + 1)).2 - 2)).1,
        (scale (4 * (parts (rank + 1)).1) ((parts (rank + 1)).2 - 2)).1,
        (scale (4 * (parts (rank + 1)).1 + 2) ((parts (rank + 1)).2 - 2)).1,
        (scale 1 ((parts (rank + 1)).2 - 2)).2, (parts (rank + 1)).1 % 2 = 0⟩ := rfl
  rw [ends]
  generalize (parts (rank + 1)).1 = m at *
  generalize (parts (rank + 1)).2 = q at *
  have den := scale_pos (q - 2)
  refine ⟨den, ?_, ?_, ?_, ?_⟩
  · dsimp only
    rw [scale_eq]
    split
    · next power =>
      rw [if_pos power] at units
      have half : (2 : ℚ) ^ (parts rank).2 = 2 * 2 ^ (q - 2) := by
        rw [units, show q - 1 = q - 2 + 1 by omega, zpow_add_one₀ (by norm_num)]
        ring
      rw [half] at before
      rw [Nat.cast_sub (by omega)]
      push_cast
      have sum : magnitude rank + magnitude (rank + 1) = (8 * (m : ℚ) - 2) * 2 ^ (q - 2) := by
        linarith
      rw [sum]
      ring
    · next power =>
      rw [if_neg power] at units
      rw [units, quarter] at before
      rw [Nat.cast_sub (by omega)]
      push_cast
      have sum : magnitude rank + magnitude (rank + 1) = (8 * (m : ℚ) - 4) * 2 ^ (q - 2) := by
        linarith
      rw [sum]
      ring
  · dsimp only
    rw [scale_eq, own]
    push_cast
    ring
  · dsimp only
    rw [scale_eq, behind, own]
    push_cast
    ring
  · dsimp only
    rw [decide_eq_true_eq, parity]

/-- The middles around a magnitude are further apart than the sixteenth digit of the magnitude
counts. -/
private theorem spread (rank : Nat) :
    2 * magnitude (rank + 1) < (magnitude (rank + 2) - magnitude rank) * 10 ^ 16 := by
  obtain ⟨-, small, -, units⟩ := parts_cases rank
  have before := Binary64.magnitude_succ rank
  have behind := Binary64.magnitude_succ (rank + 1)
  have own : magnitude (rank + 1) = (parts (rank + 1)).1 * 2 ^ (parts (rank + 1)).2 := rfl
  have unit : (0 : ℚ) < 2 ^ (parts (rank + 1)).2 := by positivity
  rw [own] at before behind ⊢
  split at units
  · next power =>
    have half : (2 : ℚ) ^ (parts rank).2 = 2 ^ (parts (rank + 1)).2 / 2 := by
      rw [units, zpow_sub_one₀ (by norm_num)]
      ring
    rw [half, power.1, Binary64.pow_52] at before
    rw [power.1, Binary64.pow_52] at behind ⊢
    push_cast at before behind ⊢
    linarith
  · have fits : ((parts (rank + 1)).1 : ℚ) < 9007199254740992 := by exact_mod_cast small
    rw [units] at before
    generalize (2 : ℚ) ^ (parts (rank + 1)).2 = u at *
    have bound : ((parts (rank + 1)).1 : ℚ) * u < 9007199254740992 * u :=
      mul_lt_mul_of_pos_right fits unit
    linarith

theorem Interval.nearest?_of_holds {i : Interval} {e : Int} {tie : Tie}
    (one : i.holds (i.value * (tenPower e).2 / (i.den * (tenPower e).1)) e = true ∨
      i.holds (i.value * (tenPower e).2 / (i.den * (tenPower e).1) + 1) e = true) :
    ∃ n, i.nearest? tie e = some n := by
  simp only [Interval.nearest?]
  split
  · exact ⟨_, rfl⟩
  · exact ⟨_, rfl⟩
  · exact ⟨_, rfl⟩
  · next below above => simp [below, above] at one

theorem Interval.holds_of_nearest? {i : Interval} {e : Int} {tie : Tie} {n : Numeral}
    (found : i.nearest? tie e = some n) : i.holds n.digits n.exponent = true := by
  simp only [Interval.nearest?] at found
  split at found
  · next below above =>
    cases found
    dsimp only
    split
    · exact above
    · exact below
  · next below _ => cases found; exact below
  · next _ above => cases found; exact above
  · cases found

section Reaches

variable {i : Interval} {rank : Nat} (reaches : i.Reaches rank)

include reaches

theorem Interval.Reaches.holds_iff (digits : Nat) (e : Int) : i.holds digits e = true ↔
    if (rank + 1) % 2 = 0 then
      magnitude rank + magnitude (rank + 1) ≤ 2 * (digits * 10 ^ e) ∧
        2 * (digits * 10 ^ e) ≤ magnitude (rank + 1) + magnitude (rank + 2)
    else
      magnitude rank + magnitude (rank + 1) < 2 * (digits * 10 ^ e) ∧
        2 * (digits * 10 ^ e) < magnitude (rank + 1) + magnitude (rank + 2) := by
  obtain ⟨den, low, -, high, closed⟩ := reaches
  have ten := tenPower_pos e
  have scaled : ((digits * (tenPower e).1 * i.den : Nat) : ℚ) =
      digits * 10 ^ e * ((tenPower e).2 * i.den) := by
    push_cast
    rw [tenPower_eq]
    ring
  have lower : 2 * ((i.low * (tenPower e).2 : Nat) : ℚ) =
      (magnitude rank + magnitude (rank + 1)) * ((tenPower e).2 * i.den) := by
    push_cast
    rw [← mul_assoc, low]
    ring
  have upper : 2 * ((i.high * (tenPower e).2 : Nat) : ℚ) =
      (magnitude (rank + 1) + magnitude (rank + 2)) * ((tenPower e).2 * i.den) := by
    push_cast
    rw [← mul_assoc, high]
    ring
  have common : (0 : ℚ) < (tenPower e).2 * i.den := mul_pos ten den
  rw [Interval.holds]
  generalize digits * (tenPower e).1 * i.den = x at scaled ⊢
  generalize i.low * (tenPower e).2 = a at lower ⊢
  generalize i.high * (tenPower e).2 = b at upper ⊢
  have le_iff : ∀ m n : Nat, ∀ p q : ℚ, 2 * (m : ℚ) = p * ((tenPower e).2 * i.den) →
      2 * (n : ℚ) = q * ((tenPower e).2 * i.den) → (m ≤ n ↔ p ≤ q) ∧ (m < n ↔ p < q) := by
    intro m n p q left right
    have le := mul_le_mul_iff_left₀ (b := p) (c := q) common
    have lt := mul_lt_mul_iff_left₀ (b := p) (c := q) common
    rw [← left, ← right] at le lt
    rw [← le, ← lt, ← Nat.cast_le (α := ℚ), ← Nat.cast_lt (α := ℚ)]
    constructor <;> constructor <;> intro h <;> linarith
  have middle : 2 * (x : ℚ) = 2 * (digits * 10 ^ e) * ((tenPower e).2 * i.den) := by
    rw [scaled]
    ring
  have first := le_iff a x _ _ lower middle
  have second := le_iff x b _ _ middle upper
  by_cases even : (rank + 1) % 2 = 0
  · rw [if_pos even, if_pos (closed.mpr even), Bool.and_eq_true, decide_eq_true_eq,
      decide_eq_true_eq, first.1, second.1]
  · rw [if_neg even, if_neg (fun both => even (closed.mp both)), Bool.and_eq_true,
      decide_eq_true_eq, decide_eq_true_eq, first.2, second.2]

theorem Interval.Reaches.holds_of_between {digits : Nat} {e : Int}
    (low : magnitude rank + magnitude (rank + 1) < 2 * (digits * 10 ^ e))
    (high : 2 * (digits * 10 ^ e) < magnitude (rank + 1) + magnitude (rank + 2)) :
    i.holds digits e = true := by
  rw [reaches.holds_iff]
  split
  · exact ⟨low.le, high.le⟩
  · exact ⟨low, high⟩

theorem Interval.Reaches.nearest (finite : rank + 1 < Binary64.infiniteRank) {digits : Nat} {e : Int}
    (holds : i.holds digits e = true) : Binary64.Nearest (digits * 10 ^ e) (rank + 1) := by
  rw [reaches.holds_iff] at holds
  split at holds
  · next even => exact Binary64.nearest_of_between finite holds.1 holds.2 (Or.inl even)
  · exact Binary64.nearest_of_between finite holds.1.le holds.2.le (Or.inr holds)

theorem Interval.Reaches.exists_nearest? {e : Int}
    (fine : 2 * 10 ^ e < magnitude (rank + 2) - magnitude rank) (tie : Tie) :
    ∃ n, i.nearest? tie e = some n := by
  have ten := tenPower_pos e
  have below := Binary64.magnitude_lt_succ rank
  have above := Binary64.magnitude_lt_succ (rank + 1)
  have common : (0 : ℚ) < (tenPower e).2 * i.den := mul_pos ten reaches.den
  have unit : (0 : ℚ) < 10 ^ e := by positivity
  have whole : ((i.den * (tenPower e).1 : Nat) : ℚ) = 10 ^ e * ((tenPower e).2 * i.den) := by
    push_cast
    rw [tenPower_eq]
    ring
  have value : ((i.value * (tenPower e).2 : Nat) : ℚ) =
      magnitude (rank + 1) * ((tenPower e).2 * i.den) := by
    push_cast
    rw [reaches.value]
    ring
  have positive : 0 < i.den * (tenPower e).1 := by
    have : (0 : ℚ) < (i.den * (tenPower e).1 : Nat) := by
      rw [whole]
      positivity
    exact_mod_cast this
  -- The value lies between two neighbours on the grid, which are less apart than the ends.
  have floor := Nat.div_mul_le_self (i.value * (tenPower e).2) (i.den * (tenPower e).1)
  have ceiling := Nat.lt_div_mul_add (a := i.value * (tenPower e).2) positive
  apply Interval.nearest?_of_holds
  generalize i.value * (tenPower e).2 / (i.den * (tenPower e).1) = n at floor ceiling ⊢
  have lower : (n : ℚ) * 10 ^ e ≤ magnitude (rank + 1) := by
    have cast : ((n * (i.den * (tenPower e).1) : Nat) : ℚ) ≤ (i.value * (tenPower e).2 : Nat) :=
      Nat.cast_le.mpr floor
    rw [Nat.cast_mul, whole, value, ← mul_assoc] at cast
    exact le_of_mul_le_mul_right cast common
  have upper : magnitude (rank + 1) < ((n + 1 : Nat) : ℚ) * 10 ^ e := by
    have cast : ((i.value * (tenPower e).2 : Nat) : ℚ) <
        (n * (i.den * (tenPower e).1) + i.den * (tenPower e).1 : Nat) := Nat.cast_lt.mpr ceiling
    have right : ((n * (i.den * (tenPower e).1) + i.den * (tenPower e).1 : Nat) : ℚ) =
        ((n + 1 : Nat) : ℚ) * 10 ^ e * ((tenPower e).2 * i.den) := by
      rw [Nat.cast_add, Nat.cast_mul n, whole]
      push_cast
      ring
    rw [right, value] at cast
    exact lt_of_mul_lt_mul_right cast common.le
  by_cases inside : magnitude rank + magnitude (rank + 1) < 2 * (n * 10 ^ e)
  · refine Or.inl (reaches.holds_of_between inside ?_)
    linarith
  · refine Or.inr (reaches.holds_of_between ?_ ?_)
    · linarith
    · push_cast at upper ⊢
      linarith

end Reaches

theorem two_pow_le {num den : Nat} (positive : 0 < num) :
    (2 : ℚ) ^ Binary64.floorLog2 num den * den ≤ num := by
  have low : 2 ^ num.log2 ≤ num := Nat.log2_self_le (Nat.ne_of_gt positive)
  have high : den < 2 ^ (den.log2 + 1) := Nat.lt_log2_self
  have low' : (2 : ℚ) ^ (num.log2 : Int) ≤ num := by
    rw [zpow_natCast]
    exact_mod_cast low
  have high' : (den : ℚ) ≤ 2 ^ ((den.log2 : Int) + 1) := by
    rw [← Nat.cast_succ, zpow_natCast]
    exact_mod_cast high.le
  rw [Binary64.floorLog2]
  split
  · calc (2 : ℚ) ^ ((num.log2 : Int) - den.log2 - 1) * den
        ≤ 2 ^ ((num.log2 : Int) - den.log2 - 1) * 2 ^ ((den.log2 : Int) + 1) :=
          mul_le_mul_of_nonneg_left high' (by positivity)
      _ = 2 ^ (num.log2 : Int) := by
          rw [← zpow_add₀ (by norm_num)]
          congr 1
          omega
      _ ≤ num := low'
  · next enough =>
    have enough' : ((den * Nat.pow 2 ((num.log2 : Int) - den.log2).toNat : Nat) : ℚ) ≤
        (num * Nat.pow 2 (-((num.log2 : Int) - den.log2)).toNat : Nat) :=
      Nat.cast_le.mpr (Nat.not_lt.mp enough)
    simp only [Nat.pow_eq, Nat.cast_mul, Nat.cast_pow, Nat.cast_ofNat] at enough'
    rw [pow_toNat (by norm_num), ← mul_assoc] at enough'
    rw [mul_comm]
    exact le_of_mul_le_mul_right enough' (by positivity)

private theorem ten_le_two {l : Int} (above : -4096 ≤ l) :
    (10 : ℚ) ^ (l * 1233 / 4096 - 1) ≤ 2 ^ l := by
  obtain ⟨less, more⟩ : (10 : ℚ) ^ 1233 ≤ 2 ^ 4096 ∧ (2 : ℚ) ^ 4096 ≤ 10 ^ 1234 := by
    have powers : 10 ^ 1233 ≤ 2 ^ 4096 ∧ 2 ^ 4096 ≤ 10 ^ 1234 := by decide +kernel
    exact_mod_cast powers
  refine le_of_pow_le_pow_left₀ (show (4096 : Nat) ≠ 0 by decide) (by positivity) ?_
  rw [← zpow_natCast, ← zpow_mul, ← zpow_natCast ((2 : ℚ) ^ l), ← zpow_mul]
  rcases Int.le_total 0 l with positive | negative
  · obtain ⟨n, rfl⟩ := Int.eq_ofNat_of_zero_le positive
    calc (10 : ℚ) ^ (((n : Int) * 1233 / 4096 - 1) * (4096 : Nat))
        ≤ 10 ^ ((1233 * n : Nat) : Int) := zpow_le_zpow_right₀ (by norm_num) (by omega)
      _ = (10 ^ 1233) ^ n := by rw [zpow_natCast, pow_mul]
      _ ≤ (2 ^ 4096) ^ n := pow_le_pow_left₀ (by positivity) less n
      _ = 2 ^ ((n : Int) * (4096 : Nat)) := by
          rw [← pow_mul, ← zpow_natCast, Nat.mul_comm, Nat.cast_mul]
  · obtain ⟨n, hn⟩ := Int.eq_ofNat_of_zero_le (Int.neg_nonneg.mpr negative)
    obtain rfl : l = -(n : Int) := by omega
    calc (10 : ℚ) ^ ((-(n : Int) * 1233 / 4096 - 1) * (4096 : Nat))
        ≤ 10 ^ (-((1234 * n : Nat) : Int)) := zpow_le_zpow_right₀ (by norm_num) (by omega)
      _ = ((10 ^ 1234) ^ n)⁻¹ := by rw [zpow_neg, zpow_natCast, pow_mul]
      _ ≤ ((2 ^ 4096) ^ n)⁻¹ :=
          inv_anti₀ (by positivity) (pow_le_pow_left₀ (by positivity) more n)
      _ = 2 ^ (-(n : Int) * (4096 : Nat)) := by
          rw [← pow_mul, Int.neg_mul, zpow_neg, ← Nat.cast_mul, Nat.mul_comm, zpow_natCast]

private theorem le_floorLog2 (num den : Nat) : -(den.log2 : Int) - 1 ≤ Binary64.floorLog2 num den := by
  rw [Binary64.floorLog2]
  split <;> omega

private theorem tenPowerLe_iff {e : Int} {num den : Nat} :
    tenPowerLe e num den = true ↔ (10 : ℚ) ^ e * den ≤ num := by
  rw [tenPowerLe, decide_eq_true_eq, ← Nat.cast_le (α := ℚ), Nat.cast_mul, Nat.cast_mul, tenPower_eq,
    mul_right_comm, mul_le_mul_iff_left₀ (tenPower_pos e)]

theorem ten_pow_le {num den : Nat} (positive : 0 < num) (bounded : den.log2 < 4096) :
    (10 : ℚ) ^ floorLog10 num den * den ≤ num := by
  have low := le_floorLog2 num den
  have first : (10 : ℚ) ^ (Binary64.floorLog2 num den * 1233 / 4096 - 1) * den ≤ num :=
    (mul_le_mul_of_nonneg_right (ten_le_two (by omega)) (Nat.cast_nonneg den)).trans
      (two_pow_le positive)
  rw [floorLog10]
  split
  · next above => exact tenPowerLe_iff.mp above
  split
  · next guessed => exact tenPowerLe_iff.mp guessed
  · exact first

theorem Numeral.strip_value (fuel : Nat) (n : Numeral) : (n.strip fuel).value = n.value := by
  induction fuel generalizing n with
  | zero => rfl
  | succ fuel ih =>
    rw [Numeral.strip]
    split
    · next zero =>
      have whole : (n.digits : ℚ) = ((n.digits / 10 : Nat) : ℚ) * 10 := by
        have : n.digits = n.digits / 10 * 10 := by omega
        exact_mod_cast this
      rw [ih, Numeral.value, Numeral.value, whole, zpow_add_one₀ (by norm_num)]
      ring
    · rfl

private theorem log2_den (rank : Nat) : (Interval.ofRank rank).den.log2 < 4096 := by
  have low : -1074 ≤ (parts rank).2 := by
    rw [parts, Binary64.pow_52]
    split <;> dsimp only <;> omega
  have den : (Interval.ofRank rank).den = 2 ^ (-((parts rank).2 - 2)).toNat := rfl
  rw [den, Nat.log2_two_pow]
  omega

theorem shortest_nearest (tie : Tie) {rank : Nat} (positive : 0 < rank)
    (finite : rank < Binary64.infiniteRank) :
    Binary64.Nearest (shortest tie rank).value rank := by
  obtain ⟨rank, rfl⟩ : ∃ r, rank = r + 1 := ⟨rank - 1, by omega⟩
  have reaches := reaches_ofRank rank
  have above : (0 : ℚ) < magnitude (rank + 1) := by
    have := Binary64.magnitude_strictMono.monotone (Nat.zero_le rank)
    rw [Binary64.magnitude_zero] at this
    exact this.trans_lt (Binary64.magnitude_lt_succ rank)
  have value : 0 < (Interval.ofRank (rank + 1)).value := by
    have : (0 : ℚ) < (Interval.ofRank (rank + 1)).value := by
      rw [reaches.value]
      exact mul_pos above reaches.den
    exact_mod_cast this
  rw [shortest, Numeral.strip_value]
  generalize top_def : floorLog10 (Interval.ofRank (rank + 1)).value
    (Interval.ofRank (rank + 1)).den = top
  have top_le : (10 : ℚ) ^ top ≤ magnitude (rank + 1) := by
    have := ten_pow_le value (log2_den (rank + 1))
    rw [top_def, reaches.value] at this
    exact le_of_mul_le_mul_right this reaches.den
  have fine : 2 * (10 : ℚ) ^ (top - 16) < magnitude (rank + 2) - magnitude rank := by
    have grid : (10 : ℚ) ^ top = 10 ^ (top - 16) * 10 ^ 16 := by
      rw [← zpow_natCast, ← zpow_add₀ (by norm_num)]
      congr 1
      omega
    have := spread rank
    rw [grid] at top_le
    linarith
  obtain ⟨last, found⟩ := reaches.exists_nearest? fine tie
  cases search : (List.range 17).findSome? fun n : Nat =>
      (Interval.ofRank (rank + 1)).nearest? tie (top - n) with
  | none =>
    have missing := List.findSome?_eq_none_iff.mp search 16 (by decide)
    rw [show top - (16 : Nat) = top - 16 from rfl, found] at missing
    cases missing
  | some n =>
    obtain ⟨_, _, found⟩ := List.exists_of_findSome?_eq_some search
    exact reaches.nearest finite (Interval.holds_of_nearest? found)

theorem shortest_digits (tie : Tie) {rank : Nat} (positive : 0 < rank)
    (finite : rank < Binary64.infiniteRank) : (shortest tie rank).digits ≠ 0 := by
  intro none
  have nearest := shortest_nearest tie positive finite
  rw [Numeral.value, none, Nat.cast_zero, zero_mul, ← Binary64.magnitude_zero] at nearest
  have := nearest.unique (Binary64.nearest_magnitude (by decide))
  omega

end NotebookKernel.Decimal
