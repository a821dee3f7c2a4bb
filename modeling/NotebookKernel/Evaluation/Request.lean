import NotebookKernel.Chunk
import NotebookKernel.HelpRequest
import NotebookKernel.Path
import NotebookKernel.Program
import NotebookKernel.Session.Turns

/-!
# Evaluation requests

What is to be evaluated and how to present it, and the program that a request becomes once it has a
scratch directory and markers of its own.
-/

set_option autoImplicit false

namespace NotebookKernel

/-- Code to evaluate, a label for the names of its artifacts, how to present it, and whether help
pages are wanted. -/
structure EvaluationRequest where
  code : String
  label : String
  options : ChunkOptions
  help : Bool

namespace EvaluationRequest

/-- A request for code with default options. Help pages are wanted where the code asks for one. -/
def ofCode (code label : String) : EvaluationRequest :=
  ⟨code, label, .default, isHelpRequest code.toList⟩

/-- A request for the code of a chunk, with the label and the options of the chunk. -/
def ofChunk (chunk : Chunk) : EvaluationRequest :=
  { ofCode chunk.code chunk.label with options := .ofOptions chunk.options }

end EvaluationRequest

/-- A request under evaluation: its scratch directory and its markers. -/
structure Evaluation where
  request : EvaluationRequest
  scratchDir : String
  sentinels : Sentinels

namespace Evaluation

def helpFile (e : Evaluation) : String :=
  Path.join e.scratchDir ("help_" ++ Chunk.fileSafeLabel e.request.label ++ ".html")

def program (e : Evaluation) (previewChars : Nat) : String :=
  Program.compose {
    code := e.request.code
    label := e.request.label
    options := e.request.options
    help := e.request.help
    scratchDir := e.scratchDir
    helpFile := e.helpFile
    sentinels := e.sentinels
    previewChars }

def submission (e : Evaluation) (previewChars : Nat) (limit : Option Duration) : Submission :=
  ⟨e.program previewChars, e.sentinels.completion, limit⟩

end Evaluation

end NotebookKernel
