/-!
# Decimal numerals

Whole numbers as other programs write them in headers, identifiers and arguments: an optional plus
sign and at least one ASCII digit, with a value below a bound.
-/

set_option autoImplicit false

namespace NotebookKernel.Text

def digitValue? (c : Char) : Option Nat :=
  if '0' ≤ c ∧ c ≤ '9' then some (c.toNat - '0'.toNat) else none

/-- A numeral continued by one character, as long as it stays below `bound`. -/
def extendNumeral (bound : Nat) (value : Option Nat) (c : Char) : Option Nat :=
  match value, digitValue? c with
  | some n, some d => if n * 10 + d < bound then some (n * 10 + d) else none
  | _, _ => none

def readDigits? (bound : Nat) (digits : List Char) : Option Nat :=
  if digits.isEmpty then none else digits.foldl (extendNumeral bound) (some 0)

/-- The value of a numeral with at most one leading plus sign, when it is below `bound`. -/
def readNumeral? (bound : Nat) (numeral : List Char) : Option Nat :=
  match numeral with
  | '+' :: digits => readDigits? bound digits
  | digits => readDigits? bound digits

/-- One more than the greatest number that a machine word holds. -/
def wordBound : Nat := Nat.pow 2 64

def signedBound : Nat := Nat.pow 2 63

end NotebookKernel.Text
