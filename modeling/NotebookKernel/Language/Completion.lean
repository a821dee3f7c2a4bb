import NotebookKernel.Fault
import NotebookKernel.Json.Printer
import NotebookKernel.Json.Record

/-!
# Completions

A server answers a completion request with null, a list of items, or an object that holds such a
list. Each item becomes a candidate; the text to insert is that of its edit, else its insertion
text, else its label.
-/

set_option autoImplicit false

namespace NotebookKernel.Language

/-- A completion as it is offered. -/
structure Candidate where
  label : String
  insertText : String
  detail : String
  documentation : Option String
deriving DecidableEq, Repr

def documentation? : Json → Option String
  | .string s => some s
  | .object members =>
    (Json.partsOfMembers? [["value"]] members).bind fun record => record.required 0 Json.string?
  | _ => none

def editText? (value : Json) : Option String :=
  (value.parts? [["newText"]]).bind fun record => record.required 0 Json.string?

namespace Candidate

def fields : List (List String) :=
  [["label"], ["detail"], ["documentation"], ["insertText"], ["textEdit"]]

def ofItem? (item : Json) : Option Candidate := do
  let record ← item.parts? fields
  let label ← record.required 0 Json.string?
  let detail ← record.optional 1 (Json.orNull Json.string?)
  let documentation ← record.optional 2 (Json.orNull documentation?)
  let insertText ← record.optional 3 (Json.orNull Json.string?)
  let edit ← record.optional 4 (Json.orNull editText?)
  return ⟨label, (edit.or insertText).getD label, detail.getD "", documentation⟩

def ofItems? : Json → Option (List Candidate)
  | .array items => items.mapM ofItem?
  | _ => none

def ofResult? : Json → Option (List Candidate)
  | .null => some []
  | .object members =>
    (Json.partsOfMembers? [["items"]] members).bind fun record => record.required 0 ofItems?
  | value => ofItems? value

/-- The candidates of a server's answer, or the fault of an answer in no known shape. -/
def ofResult (value : Json) : Except Fault (List Candidate) :=
  match ofResult? value with
  | some candidates => .ok candidates
  | none => .error (.protocolParse .completionShape)

def toJson (c : Candidate) : Json :=
  .object [("label", .string c.label), ("insertText", .string c.insertText),
    ("detail", .string c.detail), ("documentation", .ofOption .string c.documentation)]

def ofTree? (depth : Nat) (tree : Json.Tree) : Option Candidate := do
  let (inner, record) ← tree.record? depth [["label"], ["insertText"], ["detail"], ["documentation"]]
  let label ← record.required 0 (Json.Tree.within inner Json.string?)
  let insertText ← record.required 1 (Json.Tree.within inner Json.string?)
  let detail ← record.required 2 (Json.Tree.within inner Json.string?)
  let documentation ← record.nullable 3 (Json.Tree.within inner (Json.orNull Json.string?))
  return ⟨label, insertText, detail, documentation⟩

end Candidate

end NotebookKernel.Language
