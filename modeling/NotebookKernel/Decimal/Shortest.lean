import NotebookKernel.Decimal.Binary64

/-!
# Shortest decimal numerals

The shortest numeral of a double is the one with the fewest digits that reads back as that double,
and of several such numerals the nearest. For each count of digits only the two neighbours of the
value among the decimals with that many digits can qualify. Where both are equally near, the format
that is written decides.
-/

set_option autoImplicit false

namespace NotebookKernel.Decimal

/-- The digits of a numeral, its last one counting units of `10 ^ exponent`. -/
structure Numeral where
  digits : Nat
  exponent : Int
deriving DecidableEq, Repr, Inhabited

def tenPower (e : Int) : Nat × Nat :=
  (Nat.pow 10 e.toNat, Nat.pow 10 (-e).toNat)

def tenPowerLe (e : Int) (num den : Nat) : Bool :=
  (tenPower e).1 * den ≤ num * (tenPower e).2

def floorLog10 (num den : Nat) : Int :=
  let guess : Int := Binary64.floorLog2 num den * 1233 / 4096
  if tenPowerLe (guess + 1) num den then guess + 1
  else if tenPowerLe guess num den then guess
  else guess - 1

/-- The decimals that read back as a given double: all between `low / den` and `high / den`, with
the ends when `closed`. -/
structure Interval where
  low : Nat
  value : Nat
  high : Nat
  den : Nat
  closed : Bool

/-- The interval of a positive finite rank. It reaches half way to the neighbours, and the
neighbour below a power of two is only half as far. -/
def Interval.ofRank (rank : Nat) : Interval :=
  let (m, q) := Binary64.parts rank
  let below := if m = Nat.pow 2 52 ∧ -1074 < q then 1 else 2
  let at2 (n : Nat) := (Binary64.scale n (q - 2)).1
  ⟨at2 (4 * m - below), at2 (4 * m), at2 (4 * m + 2), (Binary64.scale 1 (q - 2)).2, m % 2 = 0⟩

/-- Whether `digits · 10 ^ e` lies in the interval. -/
def Interval.holds (i : Interval) (digits : Nat) (e : Int) : Bool :=
  let x := digits * (tenPower e).1 * i.den
  let low := i.low * (tenPower e).2
  let high := i.high * (tenPower e).2
  if i.closed then low ≤ x && x ≤ high else low < x && x < high

/-- Which of two equally near decimals is taken. -/
inductive Tie where
  /-- The one whose last digit is even. -/
  | toEven
  | upward
deriving DecidableEq, Repr

/-- Whether a tie above a decimal with these digits goes to the next one. -/
def Tie.goesUp (tie : Tie) (digits : Nat) : Bool :=
  match tie with
  | .toEven => digits % 2 == 1
  | .upward => true

/-- The nearest decimal to the value among those in the interval that are multiples of `10 ^ e`. -/
def Interval.nearest? (i : Interval) (tie : Tie) (e : Int) : Option Numeral :=
  let t := tenPower e
  let unit := i.den * t.1
  let below := i.value * t.2 / unit
  let twice := 2 * (i.value * t.2 % unit)
  match i.holds below e, i.holds (below + 1) e with
  | true, true =>
    some ⟨if unit < twice ∨ (twice = unit ∧ tie.goesUp below) then below + 1 else below, e⟩
  | true, false => some ⟨below, e⟩
  | false, true => some ⟨below + 1, e⟩
  | false, false => none

/-- A numeral without trailing zeros, looking at no more than `fuel` of them. -/
def Numeral.strip : Nat → Numeral → Numeral
  | 0, n => n
  | fuel + 1, n =>
    if n.digits ≠ 0 ∧ n.digits % 10 = 0 then strip fuel ⟨n.digits / 10, n.exponent + 1⟩ else n

def shortest (tie : Tie) (rank : Nat) : Numeral :=
  let i := Interval.ofRank rank
  let top := floorLog10 i.value i.den
  let found := (List.range 17).findSome? fun (n : Nat) => i.nearest? tie (top - n)
  (found.getD ⟨0, 0⟩).strip 20

def Numeral.text (n : Numeral) : String :=
  toString n.digits

def zeros (count : Nat) : String :=
  String.ofList (List.replicate count '0')

/-- The digits with a point after the first `places` of them, filled with zeros where there are
too few. A whole number ends in `whole`. -/
def positional (digits : String) (places : Int) (whole : String) : String :=
  if places ≤ 0 then "0." ++ zeros (-places).toNat ++ digits
  else if digits.length ≤ places.toNat then
    digits ++ zeros (places.toNat - digits.length) ++ whole
  else
    String.ofList (digits.toList.take places.toNat) ++ "." ++
      String.ofList (digits.toList.drop places.toNat)

def Numeral.places (n : Numeral) : Int :=
  n.text.length + n.exponent

/-- A magnitude written without an exponent and, when whole, without a point. A tie goes up. -/
def plainText (rank : Nat) : String :=
  if rank = 0 then "0"
  else
    let n := shortest .upward rank
    positional n.text n.places ""

/-- A magnitude written with a point or an exponent: in place from `10 ^ -5` up to below
`10 ^ 16`, else with one digit before the point and a signed exponent. A tie goes to the even
digit. -/
def floatText (rank : Nat) : String :=
  if rank = 0 then "0.0"
  else
    let n := shortest .toEven rank
    let places := n.places
    if -5 < places ∧ places ≤ 16 then positional n.text places ".0"
    else
      let mantissa := if n.text.length = 1 then n.text else positional n.text 1 ""
      let e := places - 1
      mantissa ++ (if e < 0 then "e-" else "e+") ++ toString e.natAbs

end NotebookKernel.Decimal
