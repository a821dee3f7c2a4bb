import NotebookKernel.Fault
import NotebookKernel.FileTree

/-!
# Artifacts

Evaluations leave images and widgets behind. A store keeps the contents of each under its kind and
name and gives back a reference; the directory store keeps them in files, one directory for each
kind. A later artifact of the same kind and name replaces an earlier one.
-/

set_option autoImplicit false

namespace NotebookKernel

inductive ArtifactKind where
  | image
  | widget
deriving DecidableEq, Repr

def ArtifactKind.category : ArtifactKind → String
  | .image => "plots"
  | .widget => "widgets"

/-- A stored artifact: what callers refer to it by, and its file. -/
structure StoredArtifact where
  reference : String
  path : String
deriving DecidableEq, Repr

/-- Where artifacts are read and stored: contents of files by path, and a store. Each call of the
store may succeed or fail, and leaves the world as it will. -/
structure Depot (World : Type) where
  read? : World → String → Option Bytes
  store : World → ArtifactKind → String → Bytes → Except Fault StoredArtifact × World

structure DirectoryStore where
  root : String

/-- Stores an artifact. The name has to be that of a plain file; else nothing is changed. -/
def DirectoryStore.store (store : DirectoryStore) (tree : FileTree) (cwd : Place)
    (kind : ArtifactKind) (name : String) (contents : Bytes) :
    Except Fault StoredArtifact × FileTree :=
  let dir := Path.join store.root kind.category
  if !Path.isPlainName name then
    (.error (.artifactIo (Path.join dir name) .nameNotPlain), tree)
  else
    match tree.makeDirectories cwd dir with
    | (false, tree) => (.error (.artifactIo dir .refusedByHost), tree)
    | (true, tree) =>
      let path := Path.join dir name
      match tree.write? cwd path contents with
      | none => (.error (.artifactIo path .refusedByHost), tree)
      | some tree => (.ok ⟨kind.category ++ "/" ++ name, path⟩, tree)

def DirectoryStore.depot (store : DirectoryStore) (cwd : Place) : Depot FileTree where
  read? tree path := tree.read? cwd path
  store tree kind name contents := store.store tree cwd kind name contents

end NotebookKernel
