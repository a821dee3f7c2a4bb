import NotebookKernel.Session
import NotebookKernel.Settings

/-!
# Children

A child is a program that is to be started, an interpreter or a language server. It is started by
the path of its executable, and is handed words: its arguments and its variables. A host takes no
word that is too long, and none with a null character inside, because that character ends it.
-/

set_option autoImplicit false

namespace NotebookKernel

/-- A program to start, with its arguments and the variables that are set for it. -/
structure Child where
  executable : String
  arguments : List String
  env : Environment

namespace Child

/-- The words that a program is handed: its arguments, and its variables with their values. -/
def words (child : Child) : List String :=
  child.arguments ++ child.env.map fun entry => entry.1 ++ "=" ++ entry.2

/-- The greatest length of a word, in bytes. -/
def maxWord : Nat := 131071

def isGarbled (child : Child) : Bool :=
  child.words.any fun word => word.toList.contains '\x00'

def fits (child : Child) : Bool :=
  child.words.all fun word => (Utf8.ofString word).length ≤ maxWord

def usualPath : String := "/bin:/usr/bin"

/-- The paths at which a program is looked for, in order. A name without a slash is looked up in the
directories of the search path, that of the child before that of its host; an empty directory is
the current one. -/
def candidates (child : Child) (env : Environment) : List String :=
  if child.executable.toList.contains '/' then [child.executable]
  else
    let searched := ((child.env ++ env).get? "PATH").getD usualPath
    (searched.toList.splitOnP (· == ':')).map fun dir =>
      Path.join (String.ofList dir) child.executable

/-- The place of the program that is found for a child, where some places hold programs. -/
def program? (child : Child) (tree : FileTree) (cwd : Place) (env : Environment)
    (isProgram : Place → Bool) : Option Place :=
  (child.candidates env).findSome? fun path => (tree.locate? cwd path).filter isProgram

/-- What comes of starting a child. Its executable has to be there by the path as it stands, even
where the search leads elsewhere. -/
def launch (child : Child) (tree : FileTree) (cwd : Place) (env : Environment)
    (isProgram : Place → Bool) : Session.Launch :=
  if !tree.reaches cwd child.executable then .missing
  else if child.isGarbled then .garbled
  else if child.fits && (child.program? tree cwd env isProgram).isSome then .running
  else .refused

end Child

end NotebookKernel
