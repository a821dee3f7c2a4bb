import NotebookKernel.Toml.Moment
import NotebookKernel.Toml.Number

/-!
# Settings texts

A text is a sequence of lines: assignments, table headers, headers of rows, comments and blank
lines. Reading gives the entries of the whole text, or nothing when it breaks a rule. Brackets and
braces nest, and keys are dotted, up to a bound.
-/

set_option autoImplicit false

namespace NotebookKernel.Toml

/-- The greatest depth of brackets and braces, and of parts of a key. -/
def depthLimit : Nat := 79

def isBare (c : Char) : Bool :=
  c.isAlphanum || c == '-' || c == '_'

def keyPart? (cs : List Char) : Option (String × List Char) :=
  match cs with
  | '"' :: rest => basicText none [] rest
  | '\x27' :: rest => literalText [] rest
  | _ =>
    let name := cs.takeWhile isBare
    if name.isEmpty then none else some (String.ofList name, cs.drop name.length)

/-- The parts of a key, at most `limit` more, and what follows; `done` holds the parts read, the
last one first. -/
def keyParts (limit : Nat) (done : List String) (cs : List Char) :
    Option (List String × List Char) :=
  match limit with
  | 0 => none
  | limit + 1 =>
    match keyPart? (cs.dropWhile isSpace) with
    | none => none
    | some (part, rest) =>
      match rest.dropWhile isSpace with
      | '.' :: rest => keyParts limit (part :: done) rest
      | rest => some (part :: done, rest)

/-- A key at the front, as the path to its table and its last part, and what follows. -/
def key? (cs : List Char) : Option (List String × String × List Char) :=
  match keyParts depthLimit [] cs with
  | some (last :: path, rest) => some (path.reverse, last, rest)
  | _ => none

def skipFiller (inComment : Bool) : List Char → List Char
  | [] => []
  | c :: rest =>
    if inComment && isPlain c then skipFiller true rest
    else if foldsOver c rest then skipFiller false rest
    else if c = '#' then skipFiller true rest
    else c :: rest

def isWordChar (c : Char) : Bool :=
  c.isAlphanum || c == '_' || c == '+' || c == '-' || c == '.' || c == ':'

def wordValue? (word : List Char) : Option Value :=
  if word = "true".toList then some (.boolean true)
  else if word = "false".toList then some (.boolean false)
  else ((moment? word).map .moment).or ((float? word).or (integer? word))

def plainValue (cs : List Char) : Option (Value × List Char) :=
  match quotedText? cs with
  | some (text, rest) => some (.string text, rest)
  | none =>
    let word := cs.takeWhile isWordChar
    let rest := cs.drop word.length
    if continuesWithTime word rest then
      let time := (rest.drop 1).takeWhile isWordChar
      (moment? (word ++ ' ' :: time)).map fun text => (.moment text, rest.drop (time.length + 1))
    else (wordValue? word).map fun value => (value, rest)

abbrev Reader (α : Type) := List Char → Option (α × List Char)

def items (item : Reader Value) : Nat → List Value → Reader Value
  | 0, _, _ => none
  | fuel + 1, done, cs =>
    match skipFiller false cs with
    | ']' :: rest => some (.array done.reverse, rest)
    | cs =>
      match item cs with
      | none => none
      | some (value, rest) =>
        match skipFiller false rest with
        | ',' :: rest => items item fuel (value :: done) rest
        | ']' :: rest => some (.array (value :: done).reverse, rest)
        | _ => none

/-- An assignment at the front, up to the end of its value, and what follows. -/
def assignment? (value : Reader Value) (cs : List Char) :
    Option ((List String × String × Value) × List Char) :=
  match key? cs with
  | some (path, key, '=' :: rest) =>
    (value (rest.dropWhile isSpace)).map fun (value, rest) => ((path, key, value), rest)
  | _ => none

/-- The entries of an inline table up to its closing brace, at least one more. -/
def pairs (value : Reader Value) : Nat → Entries → Reader Value
  | 0, _, _ => none
  | fuel + 1, entries, cs =>
    match assignment? value cs with
    | none => none
    | some ((path, key, value'), rest) =>
      match entries.assign path key value' with
      | none => none
      | some entries =>
        match rest.dropWhile isSpace with
        | ',' :: rest => pairs value fuel entries rest
        | '\x7d' :: rest => some (.table .inline entries, rest)
        | _ => none

/-- A value at the front with brackets and braces up to a depth, and what follows. No array or
table has more than `size` parts. -/
def value (size : Nat) : Nat → Reader Value
  | 0, cs => plainValue cs
  | depth + 1, cs =>
    match cs with
    | '[' :: rest => items (value size depth) size [] rest
    | '\x7b' :: rest =>
      match rest.dropWhile isSpace with
      | '\x7d' :: rest => some (.table .inline [], rest)
      | rest => pairs (value size depth) size [] rest
    | cs => plainValue cs

/-- The entries read so far and the path of the header that lines belong to. -/
structure Reading where
  entries : Entries
  header : List String

def lineEnd? (cs : List Char) : Option (List Char) :=
  let cs := cs.dropWhile isSpace
  let cs := match cs with
    | '#' :: rest => rest.dropWhile isPlain
    | cs => cs
  if cs.isEmpty then some [] else afterBreak? cs

def header? (entries : Entries) (close : List Char)
    (apply : List String → String → Entries → Option Entries) (cs : List Char) :
    Option (Reading × List Char) :=
  match key? cs with
  | none => none
  | some (path, key, rest) =>
    if close.isPrefixOf rest then
      (apply path key entries).map fun entries =>
        (⟨entries, path ++ [key]⟩, rest.drop close.length)
    else none

def statement? (size : Nat) (reading : Reading) (cs : List Char) : Option (Reading × List Char) :=
  match cs with
  | '[' :: '[' :: rest => header? reading.entries [']', ']'] Entries.addRow rest
  | '[' :: rest => header? reading.entries [']'] Entries.declare rest
  | _ =>
    match assignment? (value size depthLimit) cs with
    | none => none
    | some ((path, key, value), rest) =>
      (Entries.within false (fun _ inner => inner.assign path key value) reading.header .declared
        reading.entries).map fun entries => ({ reading with entries }, rest)

def lines (size : Nat) : Nat → Reading → List Char → Option Entries
  | 0, _, _ => none
  | fuel + 1, reading, cs =>
    let cs := cs.dropWhile isSpace
    if cs.isEmpty then some reading.entries
    else
      match lineEnd? cs with
      | some rest => lines size fuel reading rest
      | none =>
        match statement? size reading cs with
        | none => none
        | some (reading, rest) =>
          match lineEnd? rest with
          | some rest => lines size fuel reading rest
          | none => none

def withoutMark : List Char → List Char
  | '\uFEFF' :: rest => rest
  | cs => cs

def parse? (text : String) : Option Entries :=
  let cs := withoutMark text.toList
  lines (cs.length + 1) (cs.length + 1) ⟨[], []⟩ cs

end NotebookKernel.Toml
