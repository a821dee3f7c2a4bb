/-!
# UTF-8

Texts as bytes and back. Decoding reads a byte at a time and keeps the character it is in the
middle of; each well-formed character gives that character, and each longest run of bytes that
begins no character gives a gap. A strict reader wants no gap, a lenient one shows U+FFFD for each.
-/

set_option autoImplicit false

namespace NotebookKernel

abbrev Bytes := List UInt8

namespace Utf8

def encodeChar (c : Char) : Bytes :=
  let n := c.toNat
  if n < 0x80 then [n.toUInt8]
  else if n < 0x800 then [(0xC0 + n / 0x40).toUInt8, (0x80 + n % 0x40).toUInt8]
  else if n < 0x10000 then
    [(0xE0 + n / 0x1000).toUInt8, (0x80 + n / 0x40 % 0x40).toUInt8, (0x80 + n % 0x40).toUInt8]
  else
    [(0xF0 + n / 0x40000).toUInt8, (0x80 + n / 0x1000 % 0x40).toUInt8,
      (0x80 + n / 0x40 % 0x40).toUInt8, (0x80 + n % 0x40).toUInt8]

def encode (text : List Char) : Bytes :=
  text.flatMap encodeChar

def ofString (text : String) : Bytes :=
  encode text.toList

/-- A character whose first bytes have been read: how many bytes it still owes, the bounds of the
next one, and the scalar value read so far. -/
structure Partial where
  owed : Nat
  low : Nat
  high : Nat
  value : Nat

/-- Decoding in progress: the items read, the last one first, and the unfinished character. A gap
is `none`. -/
structure Progress where
  items : List (Option Char)
  pending : Option Partial

/-- A byte that does not continue a character: it is one, begins one, or is a gap. -/
def Progress.start (items : List (Option Char)) (byte : UInt8) : Progress :=
  let b := byte.toNat
  if b < 0x80 then ⟨some (Char.ofNat b) :: items, none⟩
  else if b < 0xC2 then ⟨none :: items, none⟩
  else if b < 0xE0 then ⟨items, some ⟨1, 0x80, 0xBF, b - 0xC0⟩⟩
  else if b < 0xF0 then
    ⟨items, some ⟨2, if b = 0xE0 then 0xA0 else 0x80, if b = 0xED then 0x9F else 0xBF, b - 0xE0⟩⟩
  else if b < 0xF5 then
    ⟨items, some ⟨3, if b = 0xF0 then 0x90 else 0x80, if b = 0xF4 then 0x8F else 0xBF, b - 0xF0⟩⟩
  else ⟨none :: items, none⟩

/-- Reads one byte. A byte outside the bounds leaves a gap and is read afresh. -/
def Progress.push (state : Progress) (byte : UInt8) : Progress :=
  match state.pending with
  | none => Progress.start state.items byte
  | some p =>
    if p.low ≤ byte.toNat ∧ byte.toNat ≤ p.high then
      let value := p.value * 0x40 + (byte.toNat - 0x80)
      if p.owed ≤ 1 then ⟨some (Char.ofNat value) :: state.items, none⟩
      else ⟨state.items, some ⟨p.owed - 1, 0x80, 0xBF, value⟩⟩
    else Progress.start (none :: state.items) byte

def scan (bytes : Bytes) : List (Option Char) :=
  let final := bytes.foldl Progress.push ⟨[], none⟩
  ((if final.pending.isSome then none :: final.items else final.items)).reverse

/-- The text of well-formed bytes, and nothing for others. -/
def decode? (bytes : Bytes) : Option (List Char) :=
  let items := scan bytes
  if items.all Option.isSome then some (items.filterMap id) else none

/-- The text of any bytes, with U+FFFD for each gap. -/
def decodeLossy (bytes : Bytes) : List Char :=
  (scan bytes).map (·.getD '\uFFFD')

end Utf8

end NotebookKernel
