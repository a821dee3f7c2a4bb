import Mathlib.Algebra.Order.Field.Power
import Mathlib.Algebra.Order.Ring.Abs
import Mathlib.Data.Rat.Cast.Order
import Mathlib.Order.Monotone.Basic
import Mathlib.Tactic.FieldSimp
import Mathlib.Tactic.Linarith
import Mathlib.Tactic.NormNum
import Mathlib.Tactic.Positivity
import Mathlib.Tactic.Ring
import NotebookKernel.Proofs.Decimal.Exact

/-!
# The double nearest to a number

A rank is the place of a magnitude, which is a whole number times a power of two. A number belongs
to the magnitude that is nearest to it, and half way between two to the one of even rank; so the
numbers of a magnitude reach from the middle below it to the middle above it.
-/

set_option autoImplicit false

namespace NotebookKernel.Binary64

/-- The magnitude of a rank. That of infinity is where the next magnitude would be. -/
def magnitude (rank : Nat) : ℚ :=
  (parts rank).1 * 2 ^ (parts rank).2

/-- A number is rounded to a magnitude: no other is nearer to it, and none is as near unless this
one has an even rank. -/
structure Nearest (number : ℚ) (rank : Nat) : Prop where
  finite : rank < infiniteRank
  least : ∀ other ≤ infiniteRank, other ≠ rank →
    |number - magnitude rank| < |number - magnitude other| ∨
      |number - magnitude rank| = |number - magnitude other| ∧ rank % 2 = 0

private theorem parts_of_lt {rank : Nat} (small : rank < 4503599627370496) :
    parts rank = (rank, -1074) := by
  rw [parts, pow_52, if_pos small]

private theorem parts_of_ge {rank : Nat} (large : 4503599627370496 ≤ rank) :
    parts rank = (4503599627370496 + rank % 4503599627370496,
      ((rank / 4503599627370496 : Nat) : Int) - 1075) := by
  rw [parts, pow_52, if_neg (Nat.not_lt.mpr large)]

theorem magnitude_succ (rank : Nat) :
    magnitude (rank + 1) = magnitude rank + 2 ^ (parts rank).2 := by
  by_cases small : rank + 1 < 4503599627370496
  · rw [magnitude, magnitude, parts_of_lt small, parts_of_lt (by omega)]
    dsimp only
    rw [Nat.cast_add, Nat.cast_one, add_mul, one_mul]
  by_cases first : rank < 4503599627370496
  · obtain rfl : rank = 4503599627370495 := by omega
    rw [magnitude, magnitude, parts_of_ge (by omega), parts_of_lt (by omega)]
    dsimp only
    have same : (((4503599627370495 + 1) / 4503599627370496 : Nat) : Int) - 1075 = -1074 := by omega
    rw [same, ← add_one_mul]
    congr 1
    norm_num
  rw [magnitude, magnitude, parts_of_ge (by omega), parts_of_ge (by omega)]
  dsimp only
  by_cases last : rank % 4503599627370496 = 4503599627370495
  · -- The significand is used up, and the next unit is twice as large.
    have wraps : (rank + 1) % 4503599627370496 = 0 := by omega
    have grows : (((rank + 1) / 4503599627370496 : Nat) : Int) - 1075 =
        ((rank / 4503599627370496 : Nat) : Int) - 1075 + 1 := by omega
    rw [wraps, grows, last, zpow_add_one₀ (by norm_num)]
    push_cast
    ring
  · have next : (rank + 1) % 4503599627370496 = rank % 4503599627370496 + 1 := by omega
    have same : (rank + 1) / 4503599627370496 = rank / 4503599627370496 := by omega
    rw [next, same]
    push_cast
    ring

theorem magnitude_lt_succ (rank : Nat) : magnitude rank < magnitude (rank + 1) := by
  have unit : (0 : ℚ) < 2 ^ (parts rank).2 := by positivity
  rw [magnitude_succ]
  linarith

theorem magnitude_strictMono : StrictMono magnitude :=
  strictMono_nat_of_lt_succ magnitude_lt_succ

theorem magnitude_zero : magnitude 0 = 0 := by
  rw [magnitude, parts_of_lt (by omega)]
  simp

/-- Between the middles below and above a magnitude a number is rounded to it; on a middle only if
its rank is even. -/
theorem nearest_of_between {number : ℚ} {rank : Nat} (finite : rank + 1 < infiniteRank)
    (low : magnitude rank + magnitude (rank + 1) ≤ 2 * number)
    (high : 2 * number ≤ magnitude (rank + 1) + magnitude (rank + 2))
    (open_ends : (rank + 1) % 2 = 0 ∨
      magnitude rank + magnitude (rank + 1) < 2 * number ∧
        2 * number < magnitude (rank + 1) + magnitude (rank + 2)) :
    Nearest number (rank + 1) := by
  refine ⟨finite, ?_⟩
  intro other _ different
  have below := magnitude_lt_succ rank
  have above := magnitude_lt_succ (rank + 1)
  rcases Nat.lt_or_gt_of_ne different with less | more
  -- A lower magnitude is at most the one before, a higher one at least the one behind.
  · have at_most : magnitude other ≤ magnitude rank :=
      magnitude_strictMono.monotone (by omega)
    have distance : |number - magnitude other| = number - magnitude other :=
      abs_of_nonneg (by linarith)
    have within : |number - magnitude (rank + 1)| ≤ number - magnitude other :=
      abs_le.mpr ⟨by linarith, by linarith⟩
    rw [distance]
    rcases within.lt_or_eq with nearer | equal
    · exact Or.inl nearer
    · rcases open_ends with even | ⟨inside, -⟩
      · exact Or.inr ⟨equal, even⟩
      · refine Or.inl (abs_lt.mpr ⟨by linarith, by linarith⟩)
  · have at_least : magnitude (rank + 2) ≤ magnitude other :=
      magnitude_strictMono.monotone (by omega)
    have distance : |number - magnitude other| = magnitude other - number := by
      rw [abs_sub_comm]
      exact abs_of_nonneg (by linarith)
    have within : |number - magnitude (rank + 1)| ≤ magnitude other - number :=
      abs_le.mpr ⟨by linarith, by linarith⟩
    rw [distance]
    rcases within.lt_or_eq with nearer | equal
    · exact Or.inl nearer
    · rcases open_ends with even | ⟨-, inside⟩
      · exact Or.inr ⟨equal, even⟩
      · refine Or.inl (abs_lt.mpr ⟨by linarith, by linarith⟩)

theorem nearest_magnitude {rank : Nat} (finite : rank < infiniteRank) :
    Nearest (magnitude rank) rank := by
  refine ⟨finite, ?_⟩
  intro other _ different
  left
  rw [sub_self, abs_zero, abs_pos, sub_ne_zero]
  exact magnitude_strictMono.injective.ne different.symm

theorem Nearest.unique {number : ℚ} {rank other : Nat} (h : Nearest number rank)
    (h' : Nearest number other) : rank = other := by
  by_contra different
  wlog less : rank < other generalizing rank other
  · exact this h' h (Ne.symm different) (by omega)
  have onward := h.least other h'.finite.le (Ne.symm different)
  have back := h'.least rank h.finite.le different
  obtain ⟨equal, even⟩ : |number - magnitude rank| = |number - magnitude other| ∧ rank % 2 = 0 := by
    rcases onward with nearer | tie
    · rcases back with further | ⟨tie, -⟩ <;> linarith
    · exact tie
  have even' : other % 2 = 0 := by
    rcases back with further | ⟨-, even'⟩
    · linarith
    · exact even'
  have between : rank + 1 < other := by omega
  have first := magnitude_lt_succ rank
  have second := magnitude_strictMono between
  have middle := h.least (rank + 1) (by have := h'.finite; omega) (by omega)
  have nearer : |number - magnitude (rank + 1)| < |number - magnitude rank| := by
    rcases abs_cases (number - magnitude rank) with ⟨a, _⟩ | ⟨a, _⟩ <;>
      rcases abs_cases (number - magnitude other) with ⟨b, _⟩ | ⟨b, _⟩ <;>
      rw [a, b] at equal <;> rw [a] <;> refine abs_lt.mpr ⟨?_, ?_⟩ <;> linarith
  rcases middle with closer | ⟨tie, -⟩ <;> linarith

end NotebookKernel.Binary64
