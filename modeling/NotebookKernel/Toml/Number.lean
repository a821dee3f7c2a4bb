import NotebookKernel.Toml.Quoted
import NotebookKernel.Toml.Value

/-!
# Numbers in TOML

Whole numbers in four bases and decimal fractions. Underscores may stand between digits. A whole
number has to fit 64 bits; a fraction must not be beyond the greatest double, while one below the
least is taken.
-/

set_option autoImplicit false

namespace NotebookKernel.Toml

def splitSign : List Char → Bool × List Char
  | '-' :: rest => (true, rest)
  | '+' :: rest => (false, rest)
  | cs => (false, cs)

/-- Whether these are digits below a base, at least one, with single underscores between some. -/
def isRun (base : Nat) (cs : List Char) : Bool :=
  (cs.splitOnP (· == '_')).all fun part =>
    !part.isEmpty && part.all fun c => ((hexValue? c).map fun d => decide (d < base)).getD false

/-- Whether these are the digits of a decimal whole number, without a leading zero. -/
def isWhole (cs : List Char) : Bool :=
  isRun 10 cs && (cs.head? != some '0' || cs.length == 1)

def numberIn? (base : Nat) (cs : List Char) : Option Nat :=
  (cs.filter (· != '_')).foldl (fun value c =>
    match value, hexValue? c with
    | some n, some d => if n * base + d ≤ Nat.pow 2 63 then some (n * base + d) else none
    | _, _ => none) (some 0)

def signed? (negative : Bool) (n : Nat) : Option Value :=
  if negative then some (.integer (-n)) else if n < Nat.pow 2 63 then some (.integer n) else none

def integer? (word : List Char) : Option Value :=
  match word with
  | '0' :: 'x' :: digits => if isRun 16 digits then (numberIn? 16 digits).bind (signed? false) else none
  | '0' :: 'o' :: digits => if isRun 8 digits then (numberIn? 8 digits).bind (signed? false) else none
  | '0' :: 'b' :: digits => if isRun 2 digits then (numberIn? 2 digits).bind (signed? false) else none
  | _ =>
    let (negative, digits) := splitSign word
    if isWhole digits then (numberIn? 10 digits).bind (signed? negative) else none

/-- What stands before the first character that satisfies `p`, and what stands behind it. -/
def cutAt (p : Char → Bool) (cs : List Char) : List Char × Option (List Char) :=
  (cs.takeWhile fun c => !p c, (cs.dropWhile fun c => !p c).tail?)

def cappedNumber (cap : Nat) (digits : List Char) : Nat :=
  digits.foldl (fun n c => min cap (n * 10 + (c.toNat - 48))) 0

def firstTooGreat : Nat := Nat.pow 2 1024 - Nat.pow 2 970

/-- Whether a magnitude with these digits before and behind its point, and this exponent of ten,
rounds beyond the greatest double, which has 309 digits before its point. -/
def isTooGreat (whole fraction : List Char) (exponent : Int) : Bool :=
  let digits := whole ++ fraction
  let leading := (digits.takeWhile (· == '0')).length
  let significant := digits.drop leading
  let point : Int := whole.length - leading + exponent
  if significant.isEmpty then false
  else if point != 309 then decide (309 < point)
  else
    let kept := significant.take 309
    let number := kept.foldl (fun n c => n * 10 + (c.toNat - 48)) 0
    decide (firstTooGreat ≤ number * Nat.pow 10 (309 - kept.length))

/-- The exponent that digits with a sign give; a great one is cut down to a bound, which no text
has digits enough to outweigh. -/
def exponentOf (cs : List Char) : Int :=
  let (negative, digits) := splitSign cs
  let n := cappedNumber (Nat.pow 10 12) (digits.filter (· != '_'))
  if negative then -n else n

def float? (word : List Char) : Option Value :=
  let (negative, body) := splitSign word
  if body = "inf".toList ∨ body = "nan".toList then some (.float (String.ofList word))
  else
    let (mantissa, exponent) := cutAt (fun c => c == 'e' || c == 'E') body
    let (whole, fraction) := cutAt (· == '.') mantissa
    let shaped := isWhole whole && (fraction.all (isRun 10)) &&
      (exponent.all fun e => isRun 10 (splitSign e).2) && (fraction.isSome || exponent.isSome)
    let bare (cs : List Char) : List Char := cs.filter (· != '_')
    if shaped && (negative ||
        !isTooGreat (bare whole) (bare (fraction.getD [])) (exponentOf (exponent.getD []))) then
      some (.float (String.ofList word))
    else none

end NotebookKernel.Toml
