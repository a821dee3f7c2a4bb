import NotebookKernel.Text.Numeral

/-!
# Dates and times in TOML

A moment is a date, a time, or both with or without an offset. It is kept in one written form: a
capital `T` between the parts, at most nine places of a second and none that are zero at the end.
-/

set_option autoImplicit false

namespace NotebookKernel.Toml

/-- A number of exactly `count` digits at the front that lies within bounds, and what follows. -/
def fixedNumber? (count low high : Nat) (cs : List Char) : Option (Nat × List Char) :=
  match Text.readDigits? (Nat.pow 10 count) (cs.take count) with
  | none => none
  | some n => if count ≤ cs.length ∧ low ≤ n ∧ n ≤ high then some (n, cs.drop count) else none

def after? (c : Char) : List Char → Option (List Char)
  | [] => none
  | d :: rest => if d = c then some rest else none

def daysIn (year month : Nat) : Nat :=
  if month = 2 then
    if year % 4 = 0 ∧ (year % 100 ≠ 0 ∨ year % 400 = 0) then 29 else 28
  else if month = 4 ∨ month = 6 ∨ month = 9 ∨ month = 11 then 30
  else 31

def front (count : Nat) (cs : List Char) : String :=
  String.ofList (cs.take count)

def date? (cs : List Char) : Option (String × List Char) := do
  let (year, rest) ← fixedNumber? 4 0 9999 cs
  let (month, rest) ← fixedNumber? 2 1 12 (← after? '-' rest)
  let (_, rest) ← fixedNumber? 2 1 (daysIn year month) (← after? '-' rest)
  return (front 10 cs, rest)

def dropZeros (digits : List Char) : List Char :=
  (digits.reverse.dropWhile (· == '0')).reverse

/-- The places of a second behind its point, as they are kept, and what follows. -/
def places? : List Char → Option (String × List Char)
  | '.' :: rest =>
    let digits := rest.takeWhile Char.isDigit
    if digits.isEmpty then none
    else
      let kept := dropZeros (digits.take 9)
      some (if kept.isEmpty then "" else "." ++ String.ofList kept, rest.drop digits.length)
  | cs => some ("", cs)

/-- A time at the front, and what follows. A minute may have a second more. -/
def time? (cs : List Char) : Option (String × List Char) := do
  let (_, rest) ← fixedNumber? 2 0 23 cs
  let (_, rest) ← fixedNumber? 2 0 59 (← after? ':' rest)
  let (_, rest) ← fixedNumber? 2 0 60 (← after? ':' rest)
  let (places, rest) ← places? rest
  return (front 8 cs ++ places, rest)

/-- An offset that is all there is; the one of nothing is written with a plus sign. -/
def offset? : List Char → Option String
  | [] => some ""
  | ['Z'] | ['z'] => some "Z"
  | sign :: cs => do
    if sign = '+' ∨ sign = '-' then
      let (hours, rest) ← fixedNumber? 2 0 23 cs
      let (minutes, rest) ← fixedNumber? 2 0 59 (← after? ':' rest)
      if rest.isEmpty then
        let sign := if hours = 0 ∧ minutes = 0 then '+' else sign
        return String.singleton sign ++ front 5 cs
      else none
    else none

def moment? (word : List Char) : Option String :=
  match date? word with
  | some (date, []) => some date
  | some (date, mark :: rest) =>
    if mark = 'T' ∨ mark = 't' ∨ mark = ' ' then do
      let (time, rest) ← time? rest
      let offset ← offset? rest
      return date ++ "T" ++ time ++ offset
    else none
  | none =>
    match time? word with
    | some (time, []) => some time
    | _ => none

/-- Whether a word is a date and the text behind it goes on with a time of that day. -/
def continuesWithTime (word rest : List Char) : Bool :=
  (date? word).any (·.2.isEmpty) &&
    match rest with
    | ' ' :: a :: b :: ':' :: _ => a.isDigit && b.isDigit
    | _ => false

end NotebookKernel.Toml
