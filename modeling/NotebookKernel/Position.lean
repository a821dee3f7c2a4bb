import NotebookKernel.Json.Printer
import NotebookKernel.Json.Record

/-!
# Positions

A position in a text, as a language server wants it.
-/

set_option autoImplicit false

namespace NotebookKernel

/-- A position in a text: a line and a character of it, both counted from zero. -/
structure Position where
  line : Nat
  character : Nat
deriving DecidableEq, Repr

namespace Position

/-- One more than the greatest line or character number that a position can hold. -/
def bound : Nat := Nat.pow 2 32

def toJson (p : Position) : Json :=
  .object [("line", .nat p.line), ("character", .nat p.character)]

/-- The position at a place of a tree, with the nesting that the place leaves. -/
def ofTree? (depth : Nat) (tree : Json.Tree) : Option Position := do
  let (inner, record) ← tree.record? depth [["line"], ["character"]]
  let line ← record.required 0 (Json.Tree.within inner (Json.natBelow? bound))
  let character ← record.required 1 (Json.Tree.within inner (Json.natBelow? bound))
  return ⟨line, character⟩

end Position

end NotebookKernel
