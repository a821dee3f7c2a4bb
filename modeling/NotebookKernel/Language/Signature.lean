import NotebookKernel.Language.Completion

/-!
# Signatures

A server answers a request for signature help with null or an object that lists signatures.
-/

set_option autoImplicit false

namespace NotebookKernel.Language

structure Signature where
  label : String
  documentation : Option String
deriving DecidableEq, Repr

namespace Signature

def ofItem? (item : Json) : Option Signature := do
  let record ← item.parts? [["label"], ["documentation"]]
  let label ← record.required 0 Json.string?
  let documentation ← record.optional 1 (Json.orNull documentation?)
  return ⟨label, documentation⟩

def ofItems? : Json → Option (List Signature)
  | .array items => items.mapM ofItem?
  | _ => none

/-- The signatures of a server's answer; an answer that lists none has none. -/
def ofResult? : Json → Option (List Signature)
  | .null => some []
  | value => do
    let record ← value.parts? [["signatures"]]
    let signatures ← record.optional 0 fun items => (ofItems? items).map some
    return signatures.getD []

/-- The signatures of a server's answer, or the fault of an answer in no known shape. -/
def ofResult (value : Json) : Except Fault (List Signature) :=
  match ofResult? value with
  | some signatures => .ok signatures
  | none => .error (.protocolParse .signatureShape)

def toJson (s : Signature) : Json :=
  .object [("label", .string s.label), ("documentation", .ofOption .string s.documentation)]

def ofTree? (depth : Nat) (tree : Json.Tree) : Option Signature := do
  let (inner, record) ← tree.record? depth [["label"], ["documentation"]]
  let label ← record.required 0 (Json.Tree.within inner Json.string?)
  let documentation ← record.nullable 1 (Json.Tree.within inner (Json.orNull Json.string?))
  return ⟨label, documentation⟩

end Signature

end NotebookKernel.Language
