import NotebookKernel.Digest.Sha256
import NotebookKernel.Position
import NotebookKernel.Text.Lines
import NotebookKernel.Text.Search
import NotebookKernel.Text.Word

/-!
# Chunks

A chunk is a fenced block of code in a document. It starts at a line of three backticks and the
language name and ends at the next line that begins with three backticks. Lines of its header can
set options; they are left out of the code and stay in the full text, whose lines are therefore
those of the document.
-/

set_option autoImplicit false

namespace NotebookKernel

/-- A fenced block of code: the lines of its two fences, its code without option lines, its full
text, and its options, each key once. -/
structure Chunk where
  startLine : Nat
  endLine : Nat
  code : String
  fullText : String
  options : List (String × String)
deriving DecidableEq, Repr

namespace Chunk

def fence : List Char :=
  "```".toList

def isFence (line : List Char) : Bool :=
  fence.isPrefixOf line

def atWordEnd : List Char → Bool
  | [] => true
  | c :: _ => !Text.isWord c

def namesLanguage : List Char → Bool
  | 'r' :: rest => atWordEnd rest
  | _ => false

def afterBrace : List Char → List Char
  | '{' :: rest => rest
  | text => text

/-- Whether a line starts a chunk: a fence, at most one opening brace, and the language name. -/
def isStart (line : List Char) : Bool :=
  let text := Text.trim line
  isFence text && namesLanguage (afterBrace (text.drop 3))

def optionMark : List Char :=
  ['#', '|']

def isOptionLine (line : List Char) : Bool :=
  optionMark.isPrefixOf (Text.trim line)

/-- A value less one quotation mark at each end. -/
def unquote (value : List Char) : List Char :=
  let isQuote (c : Char) := c == '"' || c == '\''
  let value :=
    match value with
    | c :: rest => if isQuote c then rest else value
    | [] => []
  match value.getLast? with
  | some c => if isQuote c then value.dropLast else value
  | none => value

/-- The key and value of an option line, where it has both. -/
def option? (line : List Char) : Option (String × String) :=
  let text := Text.trim line
  if !optionMark.isPrefixOf text then none
  else
    let text := Text.trimStart (text.drop 2)
    let key := text.takeWhile Text.isWord
    match Text.trimStart (text.dropWhile Text.isWord) with
    | ':' :: value =>
      if key.isEmpty then none
      else some (String.ofList key, String.ofList (unquote (Text.trim value)))
    | _ => none

def setOption (options : List (String × String)) (key value : String) : List (String × String) :=
  options.filter (fun o => o.1 != key) ++ [(key, value)]

def overrideOptions (options further : List (String × String)) : List (String × String) :=
  further.foldl (fun options o => setOption options o.1 o.2) options

def isHeaderLine (line : List Char) : Bool :=
  match Text.trim line with
  | [] => true
  | c :: _ => c == '#'

/-- The options of a body: those of the option lines before its first line of code. -/
def headerOptions (body : List (List Char)) : List (String × String) :=
  overrideOptions [] ((body.takeWhile isHeaderLine).filterMap option?)

def lookup? (options : List (String × String)) (key : String) : Option String :=
  (options.find? fun o => o.1 == key).map Prod.snd

def ofLines (startLine endLine : Nat) (body : List (List Char)) : Chunk where
  startLine := startLine
  endLine := endLine
  code := String.ofList (Text.joinLines (body.filter fun line => !isOptionLine line))
  fullText := String.ofList (Text.joinLines body)
  options := headerOptions body

def ofBody (body : String) : Chunk :=
  let lines := Text.lines body.toList
  ofLines 0 (lines.length + 1) lines

/-- A search through the lines of a document: the next line's number, the chunk being read with
the number of its first fence and its lines, last one first, and the chunks found, last one
first. -/
structure Search where
  next : Nat
  opened : Option (Nat × List (List Char))
  found : List Chunk

def Search.push (s : Search) (line : List Char) : Search :=
  match s.opened with
  | none => ⟨s.next + 1, if isStart line then some (s.next, []) else none, s.found⟩
  | some (start, body) =>
    if isFence line then ⟨s.next + 1, none, ofLines start s.next body.reverse :: s.found⟩
    else ⟨s.next + 1, some (start, line :: body), s.found⟩

/-- The chunks of a document's lines, in order. One that no fence ends is none. -/
def allOfLines (lines : List (List Char)) : List Chunk :=
  (lines.foldl Search.push ⟨0, none, []⟩).found.reverse

/-- The chunks of a document, in order. -/
def all (document : String) : List Chunk :=
  allOfLines (Text.lines document.toList)

/-- The number of the last line among the given ones that starts a chunk. -/
def lastStart? (lines : List (List Char)) : Option Nat :=
  (lines.zipIdx.filter fun entry => isStart entry.1).getLast?.map Prod.snd

/-- The chunk around a line of a document's lines, its fences included. A line past the end counts
as the last one. -/
def atLineOf? (lines : List (List Char)) (cursor : Nat) : Option Chunk :=
  let cursor := min cursor (lines.length - 1)
  match lastStart? (lines.take (cursor + 1)) with
  | none => none
  | some start =>
    let after := lines.drop (start + 1)
    let body := after.takeWhile fun line => !isFence line
    let stop := start + 1 + body.length
    if body.length < after.length ∧ cursor ≤ stop then some (ofLines start stop body) else none

/-- The chunk around a line of a document. -/
def atLine? (document : String) (cursor : Nat) : Option Chunk :=
  atLineOf? (Text.lines document.toList) cursor

/-- The label of a chunk without one: the first eight digits of the digest of its line number. -/
def generateLabel (startLine : Nat) : String :=
  let bytes := (Sha256.digest (Utf8.ofString (toString startLine))).take 4
  String.ofList
    (bytes.flatMap fun b => [Json.hexDigit (b.toNat / 16), Json.hexDigit (b.toNat % 16)])

def label? (chunk : Chunk) : Option String :=
  lookup? chunk.options "label"

def label (chunk : Chunk) : String :=
  chunk.label?.getD (generateLabel chunk.startLine)

def isFileSafe (c : Char) : Bool :=
  c.isAlphanum || c == '_' || c == '-'

/-- A label as part of a file name: every other character becomes an underscore, and an empty
label is replaced. -/
def fileSafeLabel (label : String) : String :=
  if label.isEmpty then "chunk"
  else String.ofList (label.toList.map fun c => if isFileSafe c then c else '_')

/-- A position in the document as a position in the full text, for lines between the fences. -/
def relativePosition? (chunk : Chunk) (line character : Nat) : Option Position :=
  if line ≤ chunk.startLine ∨ chunk.endLine ≤ line then none
  else
    let relative := line - (chunk.startLine + 1)
    if relative < Position.bound ∧ character < Position.bound then some ⟨relative, character⟩
    else none

end Chunk

/-- What of an evaluation is shown. -/
structure ChunkOptions where
  echo : Bool
  warning : Bool
  error : Bool
  included : Bool
  output : Bool
deriving DecidableEq, Repr

namespace ChunkOptions

def flag (options : List (String × String)) (key : String) : Bool :=
  Chunk.lookup? options key != some "false"

def ofOptions (options : List (String × String)) : ChunkOptions where
  echo := flag options "echo"
  warning := flag options "warning"
  error := flag options "error"
  included := flag options "include"
  output := flag options "output"

def default : ChunkOptions :=
  ⟨true, true, true, true, true⟩

end ChunkOptions

end NotebookKernel
