import NotebookKernel.Fault
import NotebookKernel.FileTree
import NotebookKernel.Uri

/-!
# Virtual documents

The language server sees a chunk as a document of its own: a file whose name holds the number of
the process and a running number. The file goes away with the document. A number is used up even
when the file cannot be written.
-/

set_option autoImplicit false

namespace NotebookKernel

structure VirtualDocument where
  path : String
  uri : String
deriving DecidableEq, Repr

/-- The files that documents are written among, and the next running number. -/
structure DocumentDesk where
  tree : FileTree
  cwd : Place
  next : Nat

namespace DocumentDesk

def fileName (process : String) (number : Nat) : String :=
  "ridian-virtual-document-" ++ process ++ "-" ++ toString number ++ ".r"

/-- Writes a document into a directory. -/
def create (desk : DocumentDesk) (process dir text : String) :
    Except Fault VirtualDocument × DocumentDesk :=
  let path := Path.join dir (fileName process desk.next)
  match desk.tree.write? desk.cwd path (Utf8.ofString text) with
  | none => (.error (.artifactIo path .refusedByHost), { desk with next := desk.next + 1 })
  | some tree =>
    (.ok ⟨path, Uri.ofPath (Path.ofParts desk.cwd) path⟩, { desk with tree, next := desk.next + 1 })

def drop (desk : DocumentDesk) (document : VirtualDocument) : DocumentDesk :=
  { desk with tree := desk.tree.remove desk.cwd document.path }

end DocumentDesk

end NotebookKernel
