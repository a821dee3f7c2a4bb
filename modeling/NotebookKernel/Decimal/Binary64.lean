/-!
# Double-precision numbers

A double-precision number is kept as its sign and its rank, the place of its magnitude in the
increasing list of all magnitudes. The rank of zero is zero, consecutive magnitudes have
consecutive ranks, and infinity has the rank after the greatest finite one. All arithmetic is exact
on ratios of natural numbers, followed by one rounding to the nearest magnitude, ties to the even
rank.
-/

set_option autoImplicit false

namespace NotebookKernel

/-- A double-precision number that is not a NaN. -/
structure Binary64 where
  negative : Bool
  rank : Nat
deriving DecidableEq, Repr, Inhabited

namespace Binary64

/-- The rank of infinity. -/
def infiniteRank : Nat := 0x7FF * Nat.pow 2 52

/-- A rank as a whole number times a power of two: the whole number and the exponent. -/
def parts (rank : Nat) : Nat × Int :=
  if rank < Nat.pow 2 52 then (rank, -1074)
  else (Nat.pow 2 52 + rank % Nat.pow 2 52, ((rank / Nat.pow 2 52 : Nat) : Int) - 1075)

/-- A whole number times a power of two, as a numerator and a denominator. -/
def scale (n : Nat) (exponent : Int) : Nat × Nat :=
  (n * Nat.pow 2 exponent.toNat, Nat.pow 2 (-exponent).toNat)

def ratio (rank : Nat) : Nat × Nat :=
  scale (parts rank).1 (parts rank).2

/-- The quotient of two natural numbers rounded to the nearest one, ties to even. -/
def roundQuotient (num den : Nat) : Nat :=
  let whole := num / den
  let twice := 2 * (num % den)
  if den < twice ∨ (twice = den ∧ whole % 2 = 1) then whole + 1 else whole

def floorLog2 (num den : Nat) : Int :=
  let e : Int := (Nat.log2 num : Int) - Nat.log2 den
  if num * Nat.pow 2 (-e).toNat < den * Nat.pow 2 e.toNat then e - 1 else e

/-- The rank nearest to a ratio. -/
def rankOfRatio (num den : Nat) : Nat :=
  if num = 0 then 0
  else
    let q : Int := max (floorLog2 num den - 52) (-1074)
    let m := roundQuotient (num * Nat.pow 2 (-q).toNat) (den * Nat.pow 2 q.toNat)
    min infiniteRank ((q + 1074).toNat * Nat.pow 2 52 + m)

def rankOfNat (n : Nat) : Nat :=
  rankOfRatio n 1

def mulRank (a b : Nat) : Nat :=
  rankOfRatio ((ratio a).1 * (ratio b).1) ((ratio a).2 * (ratio b).2)

def divRank (a b : Nat) : Nat :=
  rankOfRatio ((ratio a).1 * (ratio b).2) ((ratio a).2 * (ratio b).1)

def addRank (a b : Nat) : Nat :=
  rankOfRatio ((ratio a).1 * (ratio b).2 + (ratio b).1 * (ratio a).2) ((ratio a).2 * (ratio b).2)

def ofInt (i : Int) : Binary64 :=
  ⟨i < 0, rankOfNat i.natAbs⟩

def roundHalfUp (rank : Nat) : Nat :=
  let r := ratio rank
  (2 * r.1 + r.2) / (2 * r.2)

end Binary64

end NotebookKernel
