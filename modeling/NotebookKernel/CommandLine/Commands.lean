import NotebookKernel.CommandLine.Failure
import NotebookKernel.CommandLine.Usage
import NotebookKernel.Evaluation.Run

/-!
# Commands

What the program does with its command line on a host. A command answers with a value, which is
printed, or with a failure, which is reported; a run of a document can have both. A command that
waits forever has no answer. Settings are read first, then the document, and only then anything is
started.
-/

set_option autoImplicit false

namespace NotebookKernel.CommandLine

structure Answer where
  value : Option Json
  failure : Option Failure

def Answer.ofValue (value : Json) : Answer :=
  ⟨some value, none⟩

def Answer.ofFailure (failure : Failure) : Answer :=
  ⟨none, some failure⟩

def Answer.ofOutcome : Except Fault Json → Answer
  | .ok value => .ofValue value
  | .error fault => .ofFailure (.operation fault)

def readText (tree : FileTree) (cwd : Place) (path : String) : Except Failure String :=
  match tree.read? cwd path with
  | none => .error (.unreadable path hostDetail)
  | some contents =>
    match Utf8.decode? contents with
    | none => .error (.unreadable path notTextDetail)
    | some text => .ok (String.ofList text)

def readCode (tree : FileTree) (cwd : Place) (input : Bytes) :
    Option String → Except Failure String
  | some path => readText tree cwd path
  | none =>
    match Utf8.decode? input with
    | none => .error .inputNotText
    | some text => .ok (String.ofList text)

def chunkAt (tree : FileTree) (cwd : Place) (path : String) (line : Nat) : Except Failure Chunk :=
  match readText tree cwd path with
  | .error failure => .error failure
  | .ok text =>
    match Chunk.atLine? text line with
    | none => .error (.noChunkAt line path)
    | some chunk => .ok chunk

def allChunks (tree : FileTree) (cwd : Place) (path : String) : Except Failure (List Chunk) :=
  match readText tree cwd path with
  | .error failure => .error failure
  | .ok text =>
    let chunks := Chunk.all text
    if chunks.isEmpty then .error (.noChunks path) else .ok chunks

/-- The chunk around a position of a document, and the position in its full text. -/
def chunkAtPosition (tree : FileTree) (cwd : Place) (path : String) (line character : Nat) :
    Except Failure (Chunk × Position) :=
  match chunkAt tree cwd path line with
  | .error failure => .error failure
  | .ok chunk =>
    match chunk.relativePosition? line character with
    | none => .error (.chunkFence line)
    | some position => .ok (chunk, position)

variable {Mind : Type}

def Snippet.request (snippet : Snippet) (code : String) : EvaluationRequest :=
  let chunk := Chunk.ofBody code
  { EvaluationRequest.ofCode chunk.code snippet.label with
    options := .ofOptions (Chunk.overrideOptions chunk.options snippet.options) }

def evaluateOnce (host : Host Mind) (settings : Settings) (tree : FileTree) (key : String)
    (request : EvaluationRequest) : Option Answer × Kernel Mind :=
  match (Kernel.new tree).evaluate host settings key request with
  | (none, kernel) => (none, kernel)
  | (some outcome, kernel) =>
    (some (.ofOutcome (outcome.map EvaluationResult.toJson)), kernel.killAll)

def runAnswer (report : RunReport) : Answer where
  value := some (.array (report.runs.map ChunkRun.toJson))
  failure := report.failure.map fun failed => .chunkFailed failed.1 failed.2

def runDocument (host : Host Mind) (settings : Settings) (tree : FileTree) (path : String) :
    Option Answer × Kernel Mind :=
  match allChunks tree host.cwd path with
  | .error failure => (some (.ofFailure failure), .new tree)
  | .ok chunks =>
    let key := tree.canonicalPath host.cwd path
    match (Kernel.new tree).runChunks host settings key chunks with
    | (none, kernel) => (none, kernel)
    | (some report, kernel) => (some (runAnswer report), kernel.killAll)

def evaluateChunk (host : Host Mind) (settings : Settings) (tree : FileTree) (path : String)
    (line : Nat) : Option Answer × FileTree :=
  match chunkAt tree host.cwd path line with
  | .error failure => (some (.ofFailure failure), tree)
  | .ok chunk =>
    let key := tree.canonicalPath host.cwd path
    let (answer, kernel) := evaluateOnce host settings tree key (.ofChunk chunk)
    (answer, kernel.tree)

def evaluateSnippet (host : Host Mind) (settings : Settings) (tree : FileTree) (input : Bytes)
    (snippet : Snippet) : Option Answer × FileTree :=
  match readCode tree host.cwd input snippet.file with
  | .error failure => (some (.ofFailure failure), tree)
  | .ok code =>
    let (answer, kernel) :=
      evaluateOnce host settings tree snippet.session (snippet.request code)
    (answer, kernel.tree)

def inquire (host : Host Mind) (settings : Settings) (tree : FileTree)
    (question : Language.Question) (path : String) (line character : Nat) :
    Option Answer × FileTree :=
  match chunkAtPosition tree host.cwd path line character with
  | .error failure => (some (.ofFailure failure), tree)
  | .ok (chunk, position) =>
    let (outcome?, tree) :=
      Language.inquireText host settings tree chunk.fullText question position
    (outcome?.map fun outcome => .ofOutcome (outcome.map Language.Reply.toJson), tree)

def Command.document? : Command → Option String
  | .eval snippet => snippet.file
  | .chunk path _ | .run path | .inquire _ path _ _ => some path

def Invocation.paths (invocation : Invocation) (env : Environment) : List String :=
  invocation.config.getD (Settings.defaultPath env) :: invocation.command.document?.toList

def perform (host : Host Mind) (tree : FileTree) (input : Bytes) (invocation : Invocation) :
    Option Answer × FileTree :=
  match Settings.load host.env tree host.cwd invocation.config with
  | .error fault => (some (.ofFailure (.settings fault)), tree)
  | .ok settings =>
    match invocation.command with
    | .eval snippet => evaluateSnippet host settings tree input snippet
    | .chunk path line => evaluateChunk host settings tree path line
    | .run path =>
      let (answer, kernel) := runDocument host settings tree path
      (answer, kernel.tree)
    | .inquire question path line character =>
      inquire host settings tree question path line character

/-- How a run of the program ends: its status, what it printed, and what it complained of. -/
structure Ending where
  status : Nat
  output : String
  complaint : String

def asLine (text : String) : String :=
  text ++ "\n"

def Answer.ending (answer : Answer) : Ending where
  status := if answer.failure.isSome then 1 else 0
  output := ((answer.value.map fun value => asLine value.renderIndented)).getD ""
  complaint := ((answer.failure.map fun failure => asLine failure.report)).getD ""

def Stop.ending : Stop → Ending
  | .refused => ⟨2, "", asLine Topic.program.usage⟩
  | .help topic => ⟨0, asLine topic.helpText, ""⟩
  | .version => ⟨0, asLine versionText, ""⟩

/-- A whole run of the program, which has no ending when it waits forever. -/
def execute (host : Host Mind) (tree : FileTree) (input : Bytes) (words : List String) :
    Option Ending × FileTree :=
  match read words with
  | .error stop => (some stop.ending, tree)
  | .ok invocation =>
    let (answer?, tree) := perform host tree input invocation
    (answer?.map Answer.ending, tree)

end NotebookKernel.CommandLine
