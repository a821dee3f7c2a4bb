/-!
# Quoted texts in TOML

Texts stand in double quotes, with escapes, or in single quotes, without. Tripled quotes hold
several lines: a line break right behind the opening is dropped, a carriage return counts only as
part of a line break, and up to two quotes may stand right before the closing ones.
-/

set_option autoImplicit false

namespace NotebookKernel.Toml

def isSpace (c : Char) : Bool :=
  c == ' ' || c == '\t'

/-- Whether a character may stand in a text or a comment: all but controls. -/
def isPlain (c : Char) : Bool :=
  c == '\t' || (0x20 ≤ c.toNat && c.toNat != 0x7F)

def hexValue? (c : Char) : Option Nat :=
  if '0' ≤ c ∧ c ≤ '9' then some (c.toNat - 48)
  else if 'a' ≤ c ∧ c ≤ 'f' then some (c.toNat - 87)
  else if 'A' ≤ c ∧ c ≤ 'F' then some (c.toNat - 55)
  else none

def scalar? (n : Nat) : Option Char :=
  if n < 0xD800 ∨ (0xE000 ≤ n ∧ n < 0x110000) then some (Char.ofNat n) else none

/-- Inside an escape: behind the backslash, or with digits of a number still owed. -/
inductive Escape where
  | start
  | digits (owed value : Nat)

/-- An escape that goes on, or the character that it stands for. -/
inductive Escaped where
  | more (escape : Escape)
  | char (c : Char)

def Escape.push : Escape → Char → Option Escaped
  | .start, c =>
    match c with
    | 'b' => some (.char '\x08')
    | 't' => some (.char '\t')
    | 'n' => some (.char '\n')
    | 'f' => some (.char '\x0c')
    | 'r' => some (.char '\r')
    | '"' => some (.char '"')
    | '\\' => some (.char '\\')
    | 'u' => some (.more (.digits 4 0))
    | 'U' => some (.more (.digits 8 0))
    | _ => none
  | .digits owed value, c =>
    match hexValue? c with
    | none => none
    | some digit =>
      if owed ≤ 1 then (scalar? (value * 16 + digit)).map .char
      else some (.more (.digits (owed - 1) (value * 16 + digit)))

/-- A text up to its closing double quote, and what follows; `done` is read already, the last
character first. -/
def basicText (pending : Option Escape) (done : List Char) :
    List Char → Option (String × List Char)
  | [] => none
  | c :: rest =>
    match pending with
    | some escape =>
      match escape.push c with
      | none => none
      | some (.more escape) => basicText (some escape) done rest
      | some (.char d) => basicText none (d :: done) rest
    | none =>
      if c = '"' then some (String.ofList done.reverse, rest)
      else if c = '\\' then basicText (some .start) done rest
      else if isPlain c then basicText none (c :: done) rest
      else none

def literalText (done : List Char) : List Char → Option (String × List Char)
  | [] => none
  | c :: rest =>
    if c = '\x27' then some (String.ofList done.reverse, rest)
    else if isPlain c then literalText (c :: done) rest
    else none

def afterBreak? : List Char → Option (List Char)
  | '\n' :: rest => some rest
  | '\r' :: '\n' :: rest => some rest
  | _ => none

/-- The end of a text at the third of its closing quotes: the quotes behind them, up to two, belong
to the text. -/
def closeTripled (quote : Char) (done rest : List Char) : String × List Char :=
  let extra := (rest.take 2).takeWhile (· == quote)
  (String.ofList (extra.reverseAux done).reverse, rest.drop extra.length)

def startsWithTwo (quote : Char) (cs : List Char) : Bool :=
  [quote, quote].isPrefixOf cs

/-- Inside a text of several lines: in its plain characters, in an escape, or in the blank space
that a backslash at the end of a line removes. -/
inductive Fold where
  | plain
  | escape (escape : Escape)
  | folding

/-- Whether blank space that is being removed goes on with `c`. -/
def foldsOver (c : Char) (rest : List Char) : Bool :=
  isSpace c || c == '\n' || (c == '\r' && rest.head? == some '\n')

def basicLines (mode : Fold) (done : List Char) : List Char → Option (String × List Char)
  | [] => none
  | c :: rest =>
    match mode with
    | .escape escape =>
      match escape.push c with
      | none => none
      | some (.more escape) => basicLines (.escape escape) done rest
      | some (.char d) => basicLines .plain (d :: done) rest
    | mode =>
      if mode matches .folding && foldsOver c rest then basicLines .folding done rest
      else if c = '"' then
        if startsWithTwo '"' rest then some (closeTripled '"' done (rest.drop 2))
        else basicLines .plain (c :: done) rest
      else if c = '\\' then
        if (afterBreak? (rest.dropWhile isSpace)).isSome then basicLines .folding done rest
        else basicLines (.escape .start) done rest
      else if c = '\r' ∧ rest.head? = some '\n' then basicLines .plain done rest
      else if c = '\n' ∨ isPlain c then basicLines .plain (c :: done) rest
      else none

def literalLines (done : List Char) : List Char → Option (String × List Char)
  | [] => none
  | c :: rest =>
    if c = '\x27' then
      if startsWithTwo '\x27' rest then some (closeTripled '\x27' done (rest.drop 2))
      else literalLines (c :: done) rest
    else if c = '\r' ∧ rest.head? = some '\n' then literalLines done rest
    else if c = '\n' ∨ isPlain c then literalLines (c :: done) rest
    else none

def quotedText? : List Char → Option (String × List Char)
  | '"' :: rest =>
    if startsWithTwo '"' rest then
      let body := rest.drop 2
      basicLines .plain [] ((afterBreak? body).getD body)
    else basicText none [] rest
  | '\x27' :: rest =>
    if startsWithTwo '\x27' rest then
      let body := rest.drop 2
      literalLines [] ((afterBreak? body).getD body)
    else literalText [] rest
  | _ => none

end NotebookKernel.Toml
