/-!
# JSON syntax trees

A JSON text is read in two passes. A character machine turns its bytes into tokens, and a stack
machine turns the tokens into a syntax tree. The tree records what the text says without judging
it: strings keep their escapes, numbers keep their digits, objects keep repeated keys, and nesting
has no limit. Every value that a program skips needs no more than this; `Json.ofTree?` judges
the values that it uses.
-/

set_option autoImplicit false

namespace NotebookKernel.Json

/-- One element of a string literal: a byte, or a code unit written as an escape. -/
inductive StringUnit where
  | byte (b : UInt8)
  | code (n : Nat)
deriving DecidableEq, Repr

/-- A number as written: its sign, the digits before the point, those after it, and the sign and
digits of the exponent. -/
structure NumberText where
  negative : Bool
  whole : List Nat
  fraction : Option (List Nat)
  exponent : Option (Bool × List Nat)
deriving DecidableEq, Repr

/-- The lexical elements of a text. -/
inductive Token where
  | null
  | bool (value : Bool)
  | number (text : NumberText)
  | string (content : List StringUnit)
  | openArray
  | closeArray
  | openObject
  | closeObject
  | colon
  | comma
deriving DecidableEq, Repr

inductive Tree where
  | null
  | bool (value : Bool)
  | number (text : NumberText)
  | string (content : List StringUnit)
  | array (items : List Tree)
  | object (members : List (List StringUnit × Tree))
deriving Inhabited

/-- Where the character machine stands. The lists hold what has been read of the current token,
last element first. -/
inductive Mode where
  | between
  | word (letters : List UInt8)
  | number (marks : List UInt8)
  | string (content : List StringUnit)
  | escape (content : List StringUnit)
  | code (content : List StringUnit) (digits : Nat) (value : Nat)
  | failed

/-- The character machine: the tokens read, the last one first, and where it stands. -/
structure Lexer where
  tokens : List Token
  mode : Mode

def hexValue? (byte : UInt8) : Option Nat :=
  let b := byte.toNat
  if 0x30 ≤ b ∧ b ≤ 0x39 then some (b - 0x30)
  else if 0x41 ≤ b ∧ b ≤ 0x46 then some (b - 0x37)
  else if 0x61 ≤ b ∧ b ≤ 0x66 then some (b - 0x57)
  else none

def isDigitByte (b : UInt8) : Bool :=
  0x30 ≤ b && b ≤ 0x39

def isNumberByte (b : UInt8) : Bool :=
  isDigitByte b || b == 0x2B || b == 0x2D || b == 0x2E || b == 0x45 || b == 0x65

def wordToken? (letters : List UInt8) : Option Token :=
  if letters = [0x6E, 0x75, 0x6C, 0x6C] then some .null
  else if letters = [0x74, 0x72, 0x75, 0x65] then some (.bool true)
  else if letters = [0x66, 0x61, 0x6C, 0x73, 0x65] then some (.bool false)
  else none

def takeDigits (marks : List UInt8) : List Nat × List UInt8 :=
  ((marks.takeWhile isDigitByte).map fun b => b.toNat - 0x30, marks.dropWhile isDigitByte)

/-- The exponent that ends a number: nothing, or a mark, an optional sign and digits. -/
def exponentText? (marks : List UInt8) : Option (Option (Bool × List Nat)) :=
  match marks with
  | [] => some none
  | mark :: rest =>
    if mark == 0x45 || mark == 0x65 then
      let (negative, rest) :=
        match rest with
        | sign :: after =>
          if sign == 0x2D then (true, after) else if sign == 0x2B then (false, after)
          else (false, rest)
        | [] => (false, rest)
      let (digits, after) := takeDigits rest
      if digits.isEmpty || !after.isEmpty then none else some (some (negative, digits))
    else none

/-- A number is an optional minus sign, digits without a leading zero, and then at most one
fraction and one exponent, both with at least one digit. -/
def numberText? (marks : List UInt8) : Option NumberText :=
  let negative := marks.head? == some 0x2D
  let (whole, rest) := takeDigits (if negative then marks.tail else marks)
  if whole.isEmpty || (whole.head? == some 0 && 1 < whole.length) then none
  else
    match rest with
    | [] => some ⟨negative, whole, none, none⟩
    | point :: after =>
      if point == 0x2E then
        let (fraction, rest) := takeDigits after
        if fraction.isEmpty then none
        else (exponentText? rest).map fun e => ⟨negative, whole, some fraction, e⟩
      else (exponentText? rest).map fun e => ⟨negative, whole, none, e⟩

def escapedByte? (byte : UInt8) : Option UInt8 :=
  if byte = 0x22 ∨ byte = 0x5C ∨ byte = 0x2F then some byte
  else if byte = 0x62 then some 8
  else if byte = 0x66 then some 12
  else if byte = 0x6E then some 10
  else if byte = 0x72 then some 13
  else if byte = 0x74 then some 9
  else none

def Lexer.start (tokens : List Token) (b : UInt8) : Lexer :=
  if b = 0x20 ∨ b = 0x0A ∨ b = 0x0D ∨ b = 0x09 then ⟨tokens, .between⟩
  else if b = 0x5B then ⟨.openArray :: tokens, .between⟩
  else if b = 0x5D then ⟨.closeArray :: tokens, .between⟩
  else if b = 0x7B then ⟨.openObject :: tokens, .between⟩
  else if b = 0x7D then ⟨.closeObject :: tokens, .between⟩
  else if b = 0x3A then ⟨.colon :: tokens, .between⟩
  else if b = 0x2C then ⟨.comma :: tokens, .between⟩
  else if b = 0x22 then ⟨tokens, .string []⟩
  else if isDigitByte b || b == 0x2D then ⟨tokens, .number [b]⟩
  else if 0x61 ≤ b ∧ b ≤ 0x7A then ⟨tokens, .word [b]⟩
  else ⟨tokens, .failed⟩

/-- The end of a word or a number, and of nothing else, completes a token. -/
def Lexer.settle (state : Lexer) : Lexer :=
  let complete (token : Option Token) : Lexer :=
    match token with
    | some t => ⟨t :: state.tokens, .between⟩
    | none => ⟨[], .failed⟩
  match state.mode with
  | .word letters => complete (wordToken? letters.reverse)
  | .number marks => complete ((numberText? marks.reverse).map .number)
  | _ => state

def Mode.continues (mode : Mode) (b : UInt8) : Bool :=
  match mode with
  | .word _ => 0x61 ≤ b && b ≤ 0x7A
  | .number _ => isNumberByte b
  | _ => false

/-- Reads one byte. -/
def Lexer.push (state : Lexer) (b : UInt8) : Lexer :=
  match state.mode with
  | .between => Lexer.start state.tokens b
  | .word letters =>
    if state.mode.continues b then ⟨state.tokens, .word (b :: letters)⟩
    else
      match state.settle with
      | ⟨tokens, .between⟩ => Lexer.start tokens b
      | failed => failed
  | .number marks =>
    if state.mode.continues b then ⟨state.tokens, .number (b :: marks)⟩
    else
      match state.settle with
      | ⟨tokens, .between⟩ => Lexer.start tokens b
      | failed => failed
  | .string content =>
    if b = 0x22 then ⟨.string content.reverse :: state.tokens, .between⟩
    else if b = 0x5C then ⟨state.tokens, .escape content⟩
    else if b < 0x20 then ⟨[], .failed⟩
    else ⟨state.tokens, .string (.byte b :: content)⟩
  | .escape content =>
    if b = 0x75 then ⟨state.tokens, .code content 4 0⟩
    else
      match escapedByte? b with
      | some byte => ⟨state.tokens, .string (.byte byte :: content)⟩
      | none => ⟨[], .failed⟩
  | .code content digits value =>
    match hexValue? b with
    | some v =>
      if digits ≤ 1 then ⟨state.tokens, .string (.code (value * 16 + v) :: content)⟩
      else ⟨state.tokens, .code content (digits - 1) (value * 16 + v)⟩
    | none => ⟨[], .failed⟩
  | .failed => state

def tokens? (bytes : List UInt8) : Option (List Token) :=
  let final := (bytes.foldl Lexer.push ⟨[], .between⟩).settle
  match final.mode with
  | .between => some final.tokens.reverse
  | _ => none

/-- An array or object whose end has not been read, with its parts so far, the last one first. -/
inductive Frame where
  | items (done : List Tree)
  | members (done : List (List StringUnit × Tree)) (key : List StringUnit)

/-- What the stack machine can read next. -/
inductive Expected where
  | value
  | itemOrClose
  | key (done : List (List StringUnit × Tree))
  | keyOrClose
  | colon
  | separator
  | nothing (result : Tree)
  | failed

/-- The stack machine: the open arrays and objects, the innermost first, and what comes next. -/
structure Builder where
  frames : List Frame
  expected : Expected

/-- A value is complete: it is a part of the innermost open value, or the whole text. -/
def Builder.deliver (frames : List Frame) (value : Tree) : Builder :=
  match frames with
  | [] => ⟨[], .nothing value⟩
  | .items done :: outer => ⟨.items (value :: done) :: outer, .separator⟩
  | .members done key :: outer => ⟨.members ((key, value) :: done) key :: outer, .separator⟩

def Builder.value (frames : List Frame) : Token → Builder
  | .null => .deliver frames .null
  | .bool b => .deliver frames (.bool b)
  | .number text => .deliver frames (.number text)
  | .string content => .deliver frames (.string content)
  | .openArray => ⟨.items [] :: frames, .itemOrClose⟩
  | .openObject => ⟨frames, .keyOrClose⟩
  | _ => ⟨[], .failed⟩

/-- Reads one token. -/
def Builder.push (state : Builder) (token : Token) : Builder :=
  match state.expected, token, state.frames with
  | .value, token, frames => .value frames token
  | .itemOrClose, .closeArray, .items _ :: outer => .deliver outer (.array [])
  | .itemOrClose, token, frames => .value frames token
  | .keyOrClose, .closeObject, frames => .deliver frames (.object [])
  | .keyOrClose, .string key, frames => ⟨.members [] key :: frames, .colon⟩
  | .key done, .string key, frames => ⟨.members done key :: frames, .colon⟩
  | .colon, .colon, frames => ⟨frames, .value⟩
  | .separator, .comma, .items done :: outer => ⟨.items done :: outer, .value⟩
  | .separator, .comma, .members done _ :: outer => ⟨outer, .key done⟩
  | .separator, .closeArray, .items done :: outer => .deliver outer (.array done.reverse)
  | .separator, .closeObject, .members done _ :: outer => .deliver outer (.object done.reverse)
  | _, _, _ => ⟨[], .failed⟩

def Tree.ofTokens? (tokens : List Token) : Option Tree :=
  match (tokens.foldl Builder.push ⟨[], .value⟩).expected with
  | .nothing result => some result
  | _ => none

def Tree.ofBytes? (bytes : List UInt8) : Option Tree :=
  (tokens? bytes).bind Tree.ofTokens?

end NotebookKernel.Json
