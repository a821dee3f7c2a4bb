import NotebookKernel.Fault
import NotebookKernel.Json.Printer
import NotebookKernel.Json.Record
import NotebookKernel.Text.Blank

/-!
# Environment variables

The snapshot that an evaluation reports lists the variables of the session's environment. The
interpreter writes one-element vectors as plain values and sizes as doubles; both are brought to
one form here.
-/

set_option autoImplicit false

namespace NotebookKernel

/-- A variable of the environment: its name, its classes, its size in bytes and the beginning of
its value. -/
structure Variable where
  name : String
  typeTags : List String
  size : Nat
  preview : String
deriving DecidableEq, Repr

namespace Variable

def typeName (v : Variable) : String :=
  v.typeTags.headD ""

/-- A magnitude as a number of bytes: rounded, within 64 bits, and nothing below zero. -/
def byteSize (size : Binary64) : Nat :=
  if size.negative || size.rank == 0 || Binary64.infiniteRank ≤ size.rank then 0
  else min (Binary64.roundHalfUp size.rank) (Nat.pow 2 64 - 1)

/-- The size in a snapshot. Every number is a double there. -/
def size? : Json → Option Nat
  | .int i => some (byteSize (.ofInt i))
  | .real x => some (byteSize x)
  | _ => none

def fields : List (List String) :=
  [["name"], ["type"], ["size"], ["valuePreview", "value"]]

/-- The variable at a place of a tree, with the nesting that the place leaves. -/
def ofTree? (depth : Nat) (tree : Json.Tree) : Option Variable := do
  let (inner, record) ← tree.record? depth fields
  let name ← record.required 0 (Json.Tree.within inner Json.string?)
  let typeTags ← record.required 1 (Json.Tree.within inner Json.oneOrMany?)
  let size ← record.required 2 (Json.Tree.within inner size?)
  let preview ← record.required 3 (Json.Tree.within inner Json.oneOrMany?)
  return ⟨name, typeTags, size, " ".intercalate preview⟩

def toJson (v : Variable) : Json :=
  .object [("name", .string v.name), ("type", .strings v.typeTags), ("size", .nat v.size),
    ("valuePreview", .string v.preview)]

def listOfTree? (depth : Nat) : Json.Tree → Option (List Variable)
  | .array items =>
    match depth with
    | 0 => none
    | depth + 1 => items.mapM (ofTree? depth)
  | _ => none

end Variable

def parseEnvironment (raw : List Char) : Except Fault (List Variable) :=
  match (Json.Tree.ofBytes? (Utf8.encode (Text.trim raw))).bind
      (Variable.listOfTree? Json.depthLimit) with
  | some list => .ok list
  | none => .error .environmentParse

end NotebookKernel
