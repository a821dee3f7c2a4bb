import NotebookKernel.Decimal.Shortest
import NotebookKernel.Json.Basic

/-!
# Writing JSON

The compact form has no blank space; the indented form puts each item and member on a line of its
own, two spaces deeper than what holds it. Strings escape the quotation mark, the backslash and the
control characters below the space, and nothing else.
-/

set_option autoImplicit false

namespace NotebookKernel.Json

def hexDigit (n : Nat) : Char :=
  if n < 10 then Char.ofNat (48 + n) else Char.ofNat (87 + n)

def escapeChar (c : Char) : List Char :=
  if c = '"' then ['\\', '"']
  else if c = '\\' then ['\\', '\\']
  else if c = '\n' then ['\\', 'n']
  else if c = '\r' then ['\\', 'r']
  else if c = '\t' then ['\\', 't']
  else if c.toNat = 8 then ['\\', 'b']
  else if c.toNat = 12 then ['\\', 'f']
  else if c.toNat < 0x20 then
    ['\\', 'u', '0', '0', hexDigit (c.toNat / 16), hexDigit (c.toNat % 16)]
  else [c]

def quoteChars (text : List Char) : List Char :=
  '"' :: text.flatMap escapeChar ++ ['"']

def quote (text : String) : String :=
  String.ofList (quoteChars text.toList)

/-- A double as a number. Infinities, which no text can give, are written as null. -/
def realText (x : Binary64) : String :=
  if Binary64.infiniteRank ≤ x.rank then "null"
  else (if x.negative then "-" else "") ++ Decimal.floatText x.rank

def newline (depth : Nat) : String :=
  "\n" ++ String.ofList (List.replicate (2 * depth) ' ')

/-- What separates and surrounds items: nothing, or line feeds with indentation. -/
structure Layout where
  indented : Bool

def Layout.gap (layout : Layout) (depth : Nat) : String :=
  if layout.indented then newline depth else ""

def Layout.colon (layout : Layout) : String :=
  if layout.indented then ": " else ":"

mutual

def append (layout : Layout) (depth : Nat) (done : String) : Json → String
  | .null => done ++ "null"
  | .bool b => done ++ (if b then "true" else "false")
  | .int i => done ++ toString i
  | .real x => done ++ realText x
  | .string s => done ++ quote s
  | .array [] => done ++ "[]"
  | .array (item :: items) =>
    appendItems layout depth
      (append layout (depth + 1) (done ++ "[" ++ layout.gap (depth + 1)) item) items
  | .object [] => done ++ "\x7b\x7d"
  | .object ((key, value) :: members) =>
    appendMembers layout depth
      (append layout (depth + 1)
        (done ++ "\x7b" ++ layout.gap (depth + 1) ++ quote key ++ layout.colon) value) members

/-- The text so far, followed by the further items of an array and its end. -/
def appendItems (layout : Layout) (depth : Nat) (done : String) : List Json → String
  | [] => done ++ layout.gap depth ++ "]"
  | item :: items =>
    appendItems layout depth
      (append layout (depth + 1) (done ++ "," ++ layout.gap (depth + 1)) item) items

/-- The text so far, followed by the further members of an object and its end. -/
def appendMembers (layout : Layout) (depth : Nat) (done : String) : List (String × Json) → String
  | [] => done ++ layout.gap depth ++ "\x7d"
  | (key, value) :: members =>
    appendMembers layout depth
      (append layout (depth + 1)
        (done ++ "," ++ layout.gap (depth + 1) ++ quote key ++ layout.colon) value) members

end

def render (value : Json) : String :=
  append ⟨false⟩ 0 "" value

def renderIndented (value : Json) : String :=
  append ⟨true⟩ 0 "" value

end NotebookKernel.Json
