import NotebookKernel.Decimal.Binary64
import NotebookKernel.Json.Basic
import NotebookKernel.Json.Tree
import NotebookKernel.Text.Utf8

/-!
# Reading JSON

A syntax tree means a value when its strings are Unicode texts, its numbers are in the range of
doubles and its arrays and objects are not nested too deeply. A number with a fraction or an
exponent, and a whole number beyond 64 bits, is a double: its leading digits are read as a 64-bit
whole number, which is then scaled by a power of ten with one rounding for each step.
-/

set_option autoImplicit false

namespace NotebookKernel.Json

/-- Decoding of code units in progress: the bytes read, the last one first, and a leading
surrogate that waits for its trailing one. -/
structure Surrogates where
  bytes : Bytes
  leading : Option Nat

def Surrogates.push (state : Option Surrogates) (unit : StringUnit) : Option Surrogates :=
  match state, unit with
  | none, _ => none
  | some ⟨bytes, none⟩, .byte b => some ⟨b :: bytes, none⟩
  | some ⟨bytes, none⟩, .code n =>
    if 0xDC00 ≤ n ∧ n ≤ 0xDFFF then none
    else if 0xD800 ≤ n ∧ n ≤ 0xDBFF then some ⟨bytes, some n⟩
    else some ⟨(Utf8.encodeChar (Char.ofNat n)).reverseAux bytes, none⟩
  | some ⟨_, some _⟩, .byte _ => none
  | some ⟨bytes, some high⟩, .code n =>
    if 0xDC00 ≤ n ∧ n ≤ 0xDFFF then
      let scalar := 0x10000 + (high - 0xD800) * 0x400 + (n - 0xDC00)
      some ⟨(Utf8.encodeChar (Char.ofNat scalar)).reverseAux bytes, none⟩
    else none

/-- The text of a string literal: surrogates come in pairs and the bytes are UTF-8. -/
def text? (content : List StringUnit) : Option String :=
  match content.foldl Surrogates.push (some ⟨[], none⟩) with
  | some ⟨bytes, none⟩ => (Utf8.decode? bytes.reverse).map String.ofList
  | _ => none

/-- Digits read into a 64-bit whole number: its value and how many digits did not fit. Once one
does not fit, none of those after it is read. -/
structure Significand where
  value : Nat
  taken : Nat
  full : Bool

def Significand.push (s : Significand) (digit : Nat) : Significand :=
  if s.full then s
  else if Nat.pow 2 64 ≤ s.value * 10 + digit then { s with full := true }
  else ⟨s.value * 10 + digit, s.taken + 1, false⟩

/-- A significand with the power of ten that scales it. -/
structure Scaled where
  significand : Nat
  exponent : Int

/-- The digits before the point that do not fit raise the exponent, the digits after it that do
fit lower it. -/
def NumberText.scaled (text : NumberText) : Scaled :=
  let whole := text.whole.foldl Significand.push ⟨0, 0, false⟩
  let raised : Int := text.whole.length - whole.taken
  let all := (text.fraction.getD []).foldl Significand.push ⟨whole.value, 0, false⟩
  ⟨all.value, raised - all.taken⟩

def tenRank (e : Nat) : Nat :=
  Binary64.rankOfNat (Nat.pow 10 e)

/-- The greatest power of ten that is a double. -/
def topPower : Nat := 308

/-- Scales a magnitude by a power of ten, dividing by the greatest one as often as needed; `none`
when the result is beyond the greatest double. The fuel bounds the divisions, after which the
magnitude is zero. -/
def scaleRank (fuel : Nat) (rank : Nat) (exponent : Int) : Option Nat :=
  if exponent.natAbs ≤ topPower then
    if 0 ≤ exponent then
      let scaled := Binary64.mulRank rank (tenRank exponent.toNat)
      if Binary64.infiniteRank ≤ scaled then none else some scaled
    else some (Binary64.divRank rank (tenRank exponent.natAbs))
  else if rank = 0 then some 0
  else if 0 ≤ exponent then none
  else
    match fuel with
    | 0 => some 0
    | fuel + 1 => scaleRank fuel (Binary64.divRank rank (tenRank topPower)) (exponent + topPower)

/-- The value of exponent digits; `none` from `2 ^ 31` on. -/
def exponentValue? (digits : List Nat) : Option Nat :=
  digits.foldl
    (fun value d => value.bind fun n => if n * 10 + d < Nat.pow 2 31 then some (n * 10 + d) else none)
    (some 0)

def NumberText.rank? (text : NumberText) : Option Nat :=
  let s := text.scaled
  match text.exponent with
  | none => scaleRank 8 (Binary64.rankOfNat s.significand) s.exponent
  | some (negative, digits) =>
    match exponentValue? digits with
    | some e =>
      scaleRank 8 (Binary64.rankOfNat s.significand) (s.exponent + (if negative then -(e : Int) else e))
    | none => if s.significand = 0 ∨ negative then some 0 else none

/-- The integer of a number without fraction and exponent that fits 64 bits. The negative zero is
no integer. -/
def NumberText.int? (text : NumberText) : Option Int :=
  match text.fraction, text.exponent with
  | none, none =>
    let s := text.whole.foldl Significand.push ⟨0, 0, false⟩
    if s.full then none
    else if text.negative then
      if s.value = 0 ∨ Nat.pow 2 63 < s.value then none else some (-s.value)
    else some s.value
  | _, _ => none

/-- The value of a number; `none` when it is beyond the greatest double. -/
def NumberText.value? (text : NumberText) : Option Json :=
  match text.int? with
  | some i => some (.int i)
  | none => text.rank?.map fun rank => .real ⟨text.negative, rank⟩

/-- Arrays and objects may be nested in each other this often. -/
def depthLimit : Nat := 127

mutual

/-- The value that a tree means, with at most `depth` arrays and objects inside each other. -/
def ofTree? (depth : Nat) : Tree → Option Json
  | .null => some .null
  | .bool b => some (.bool b)
  | .number text => text.value?
  | .string content => (text? content).map .string
  | .array items =>
    match depth with
    | 0 => none
    | depth + 1 => (itemsOfTree? depth [] items).map .array
  | .object members =>
    match depth with
    | 0 => none
    | depth + 1 => (membersOfTree? depth [] members).map fun ms => .object (sortMembers ms)

def itemsOfTree? (depth : Nat) (done : List Json) : List Tree → Option (List Json)
  | [] => some done.reverse
  | item :: items =>
    match ofTree? depth item with
    | some value => itemsOfTree? depth (value :: done) items
    | none => none

def membersOfTree? (depth : Nat) (done : List (String × Json)) :
    List (List StringUnit × Tree) → Option (List (String × Json))
  | [] => some done.reverse
  | (key, item) :: members =>
    match text? key, ofTree? depth item with
    | some key, some value => membersOfTree? depth ((key, value) :: done) members
    | _, _ => none

end

def ofBytes? (bytes : Bytes) : Option Json :=
  (Tree.ofBytes? bytes).bind (ofTree? depthLimit)

def parse? (text : String) : Option Json :=
  ofBytes? (Utf8.ofString text)

end NotebookKernel.Json
