import NotebookKernel.Evaluation.Kernel

/-!
# Runs

The chunks of a document are evaluated in order, in one session, up to the first one that fails.
What came of those before it is kept.
-/

set_option autoImplicit false

namespace NotebookKernel

structure ChunkRun where
  label : String
  startLine : Nat
  result : EvaluationResult

/-- What came of a run: the chunks that were evaluated, and the first line and the fault of the one
that failed. -/
structure RunReport where
  runs : List ChunkRun
  failure : Option (Nat × Fault)

def RunReport.cons (run : ChunkRun) (report : RunReport) : RunReport :=
  { report with runs := run :: report.runs }

def ChunkRun.toJson (run : ChunkRun) : Json :=
  .object
    ([("label", .string run.label), ("startLine", .nat run.startLine)] ++ run.result.members)

namespace Kernel

variable {Mind : Type}

/-- Evaluates chunks in the session of a key, up to the first one that fails. There is no report
when one of them is waited for forever. -/
def runChunks (host : Host Mind) (settings : Settings) (key : String) (kernel : Kernel Mind) :
    List Chunk → Option RunReport × Kernel Mind
  | [] => (some ⟨[], none⟩, kernel)
  | chunk :: rest =>
    let request := EvaluationRequest.ofChunk chunk
    match kernel.evaluate host settings key request with
    | (none, kernel) => (none, kernel)
    | (some (.error fault), kernel) => (some ⟨[], some (chunk.startLine, fault)⟩, kernel)
    | (some (.ok result), kernel) =>
      let (report?, kernel) := kernel.runChunks host settings key rest
      (report?.map (RunReport.cons ⟨request.label, chunk.startLine, result⟩), kernel)

end Kernel

end NotebookKernel
