import NotebookKernel.CommandLine.Commands

/-!
# The program

Reads what a command line needs of the host it runs on, and prints how the command ends. The
program itself starts nothing: an executable that is there counts as refused by the host.
-/

set_option autoImplicit false

namespace NotebookKernel.CommandLine

def knownVariables : List String :=
  ["HOME", "PATH", "TMPDIR", "XDG_CONFIG_HOME", "XDG_DATA_HOME", "RIDIAN_R_PATH",
    "RIDIAN_PANDOC_PATH"]

def readEnvironment : IO Environment :=
  knownVariables.filterMapM fun name => do
    return (← IO.getEnv name).map (name, ·)

/-- Enters a file, and the directories on its way, where there is a file. -/
def enterFile (cwd : Place) (tree : FileTree) (path : String) : IO FileTree := do
  let parts := Path.segments path
  let way := "/".intercalate parts.dropLast
  try
    let contents ← IO.FS.readBinFile path
    let tree := if parts.length < 2 then tree else (tree.makeDirectories cwd (way ++ "/")).2
    return (tree.write? cwd path contents.toList).getD tree
  catch
    | .noFileOrDirectory .. => return tree
    | _ => return (tree.makeDirectories cwd path).2

def enterExecutable (cwd : Place) (tree : FileTree) (path : String) : IO FileTree := do
  try
    let _ ← IO.FS.realPath path
    return (tree.makeDirectories cwd path).2
  catch _ => return tree

partial def readAll (stream : IO.FS.Stream) (done : ByteArray) : IO ByteArray := do
  let chunk ← stream.read 65536
  if chunk.isEmpty then return done else readAll stream (done ++ chunk)

def Command.readsInput : Command → Bool
  | .eval snippet => snippet.file.isNone
  | _ => false

/-- Enters the files that an invocation reads, and the executable of its settings. -/
def enterAll (env : Environment) (cwd : Place) (invocation : Invocation) : IO FileTree := do
  let tree := [Path.ofParts cwd, env.scratchDir].foldl
    (fun tree dir => (tree.makeDirectories cwd dir).2) FileTree.empty
  let tree ← (invocation.paths env).foldlM (enterFile cwd) tree
  match Settings.load env tree cwd invocation.config with
  | .ok settings => enterExecutable cwd tree settings.executable
  | .error _ => return tree

def idleHost (env : Environment) (cwd : Place) (now : Int) : Host Unit where
  env := env
  cwd := cwd
  process := 0
  now := fun _ => now
  scratchSuffix := fun _ number => toString number
  launch tree child := (child.launch tree cwd env fun _ => false, ())
  react mind tree _ := ([], tree, mind)

partial def waitForever : IO UInt32 := do
  IO.sleep 1000
  waitForever

def runHere (words : List String) : IO UInt32 := do
  let env ← readEnvironment
  let cwd := Path.components (← IO.currentDir).toString
  let (tree, input) ← match read words with
    | .error _ => pure (FileTree.empty, [])
    | .ok invocation =>
      let tree ← enterAll env cwd invocation
      if invocation.command.readsInput then
        pure (tree, (← readAll (← IO.getStdin) .empty).toList)
      else pure (tree, [])
  match (execute (idleHost env cwd (← IO.monoMsNow)) tree input words).1 with
  | none => waitForever
  | some ending =>
    IO.print ending.output
    IO.eprint ending.complaint
    return ending.status.toUInt32

end NotebookKernel.CommandLine

def main (words : List String) : IO UInt32 :=
  NotebookKernel.CommandLine.runHere words
