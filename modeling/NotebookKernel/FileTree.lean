import NotebookKernel.Path

/-!
# File trees

The files and directories that a program sees, as data. Each entry is known by the names that lead
to it from the root; the root is always a directory. A path is followed step by step, and every
step but the last has to be an existing directory. A path that is too long as it stands leads
nowhere, wherever its steps would have led.
-/

set_option autoImplicit false

namespace NotebookKernel

abbrev Place := List String

/-- The files with their contents, and the directories other than the root. -/
structure FileTree where
  files : List (Place × Bytes)
  directories : List Place
deriving Inhabited

namespace FileTree

def empty : FileTree :=
  ⟨[], []⟩

def isDirectory (tree : FileTree) (place : Place) : Bool :=
  place.isEmpty || tree.directories.contains place

def file? (tree : FileTree) (place : Place) : Option Bytes :=
  (tree.files.find? fun entry => entry.1 == place).map Prod.snd

def contains (tree : FileTree) (place : Place) : Bool :=
  tree.isDirectory place || (tree.file? place).isSome

/-- The greatest length of a name, in bytes. -/
def maxName : Nat := 255

/-- The greatest length of a path, in bytes. -/
def maxPath : Nat := 4095

def isUsableName (name : String) : Bool :=
  (Utf8.ofString name).length ≤ maxName

/-- Whether a host accepts a path: one of a length that it can hold, without a null character. -/
def isUsablePath (path : String) : Bool :=
  (Utf8.ofString path).length ≤ maxPath && !path.toList.contains '\x00'

def step (tree : FileTree) (place : Option Place) (segment : String) : Option Place :=
  match place with
  | none => none
  | some place =>
    if !tree.isDirectory place then none
    else if segment = "" ∨ segment = "." then some place
    else if segment = ".." then some place.dropLast
    else if isUsableName segment then some (place ++ [segment])
    else none

/-- The place that a path leads to from a directory. Its last name need not exist. -/
def locate? (tree : FileTree) (cwd : Place) (path : String) : Option Place :=
  let start := if Path.isAbsolute path then [] else cwd
  let steps := if Path.isAbsolute path then (Path.segments path).tail else Path.segments path
  if path.isEmpty || !isUsablePath path then none else steps.foldl tree.step (some start)

def read? (tree : FileTree) (cwd : Place) (path : String) : Option Bytes :=
  (tree.locate? cwd path).bind tree.file?

/-- The path from the root of what a path leads to, when there is something, else the path. -/
def canonicalPath (tree : FileTree) (cwd : Place) (path : String) : String :=
  match (tree.locate? cwd path).filter tree.contains with
  | some place => Path.ofParts place
  | none => path

def reaches (tree : FileTree) (cwd : Place) (path : String) : Bool :=
  ((tree.locate? cwd path).map tree.contains).getD false

def addDirectory (tree : FileTree) (place : Place) : FileTree :=
  if tree.isDirectory place then tree
  else { tree with directories := tree.directories ++ [place] }

/-- Makes one new directory; `none` when something is there already or nothing can be. -/
def makeNewDirectory? (tree : FileTree) (cwd : Place) (path : String) : Option FileTree :=
  match tree.locate? cwd path with
  | none => none
  | some place => if tree.contains place then none else some (tree.addDirectory place)

/-- Makes the directories on the way along some segments; whether all could be made. -/
def makeWay (tree : FileTree) (place : Place) : List String → Bool × FileTree
  | [] => (true, tree)
  | segment :: rest =>
    match tree.step (some place) segment with
    | none => (false, tree)
    | some next =>
      if (tree.file? next).isSome then (false, tree)
      else makeWay (tree.addDirectory next) next rest

/-- Makes the directory that a path leads to and those on the way; whether all could be made. -/
def makeDirectories (tree : FileTree) (cwd : Place) (path : String) : Bool × FileTree :=
  if !isUsablePath path then (false, tree)
  else if Path.isAbsolute path then tree.makeWay [] (Path.segments path)
  else tree.makeWay cwd (Path.segments path)

def putFile (tree : FileTree) (place : Place) (contents : Bytes) : FileTree :=
  { tree with files := tree.files.filter (fun entry => entry.1 != place) ++ [(place, contents)] }

/-- Writes the file that a path leads to, whole; `none` when it cannot be written. -/
def write? (tree : FileTree) (cwd : Place) (path : String) (contents : Bytes) : Option FileTree :=
  match tree.locate? cwd path with
  | none => none
  | some place => if tree.isDirectory place then none else some (tree.putFile place contents)

def remove (tree : FileTree) (cwd : Place) (path : String) : FileTree :=
  match tree.locate? cwd path with
  | none => tree
  | some place => { tree with files := tree.files.filter fun entry => entry.1 != place }

def removeTree (tree : FileTree) (place : Place) : FileTree where
  files := tree.files.filter fun entry => !place.isPrefixOf entry.1
  directories := tree.directories.filter fun entry => !place.isPrefixOf entry

def below (tree : FileTree) (place : Place) : List (Place × Bytes) :=
  (tree.files.filter fun entry => place.isPrefixOf entry.1).map fun entry =>
    (entry.1.drop place.length, entry.2)

end FileTree

end NotebookKernel
