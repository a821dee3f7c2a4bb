import NotebookKernel.Text.Utf8

/-!
# Paths

Paths are texts whose parts are separated by slashes. Joining and naming look at the text alone;
what a path leads to is for the file tree to say.
-/

set_option autoImplicit false

namespace NotebookKernel.Path

def segments (path : String) : List String :=
  (path.toList.splitOnP (· == '/')).map String.ofList

/-- The parts of a path: what stands between slashes, less what names no step. -/
def components (path : String) : List String :=
  (segments path).filter fun s => s != "" && s != "."

def isAbsolute (path : String) : Bool :=
  path.toList.head? == some '/'

def join (base path : String) : String :=
  if isAbsolute path || base.isEmpty then path
  else if base.toList.getLast? == some '/' then base ++ path
  else base ++ "/" ++ path

/-- Whether a name is that of an entry of a directory: not empty, neither the directory itself nor
the one above it, and without a slash. -/
def isPlainName (name : String) : Bool :=
  name != "" && name != "." && name != ".." && !name.toList.contains '/'

def ofParts (parts : List String) : String :=
  "/" ++ "/".intercalate parts

end NotebookKernel.Path
