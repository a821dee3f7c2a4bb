import NotebookKernel.CommandLine.Commands
import NotebookKernel.Proofs.Evaluation.Answering
import NotebookKernel.Proofs.Json.Denotation

/-!
# Runs of documents

The chunks of a document are evaluated in order under the document's key, each in what the one
before has left, up to the first that fails. The answer has what came of those before it, and names
it. No program is sent for a chunk behind it, and no session is left. Where no limit is set, a chunk
can be waited for forever; then nothing is sent for those behind it either.
-/

set_option autoImplicit false

namespace NotebookKernel

namespace Registry

end Registry

namespace Kernel

variable {Mind : Type}

/-- Chunks are evaluated one after another under a key, and each has a result. -/
inductive Ran (host : Host Mind) (settings : Settings) (key : String) :
    Kernel Mind → List (Chunk × EvaluationResult) → Kernel Mind → Prop where
  | nil (kernel : Kernel Mind) : Ran host settings key kernel [] kernel
  | cons {kernel mid later : Kernel Mind} {chunk : Chunk} {result : EvaluationResult}
      {done : List (Chunk × EvaluationResult)}
      (first : kernel.evaluate host settings key (.ofChunk chunk) = (some (.ok result), mid))
      (others : Ran host settings key mid done later) :
      Ran host settings key kernel ((chunk, result) :: done) later

/-- What is written for chunks, the first of which has the evaluation of this number: one program
for each, in order. -/
inductive Sendings (host : Host Mind) (settings : Settings) : Nat → List Chunk → List Bytes → Prop
  | nil (number : Nat) : Sendings host settings number [] []
  | cons {number : Nat} {chunk : Chunk} {chunks : List Chunk} {programs : List Bytes}
      (files : FileTree) (others : Sendings host settings (number + 1) chunks programs) :
    Sendings host settings number (chunk :: chunks)
      (sending host settings files number (.ofChunk chunk) :: programs)

variable {host : Host Mind} {settings : Settings} {key : String} {kernel later : Kernel Mind}

theorem Sendings.append {number : Nat} {chunks more : List Chunk} {programs further : List Bytes}
    (first : Sendings host settings number chunks programs)
    (second : Sendings host settings (number + chunks.length) more further) :
    Sendings host settings number (chunks ++ more) (programs ++ further) := by
  induction first with
  | nil => exact second
  | @cons number chunk chunks programs files _ ih =>
    refine .cons files (ih ?_)
    rwa [Nat.add_assoc, Nat.add_comm 1, ← List.length_cons]

def reported (done : List (Chunk × EvaluationResult)) : List ChunkRun :=
  done.map fun (chunk, result) =>
    ⟨(EvaluationRequest.ofChunk chunk).label, chunk.startLine, result⟩

/-- A run goes on to the last chunk, to the first one that fails, or to one that never ends. -/
inductive Goes (host : Host Mind) (settings : Settings) (key : String) (kernel : Kernel Mind) :
    List Chunk → Option RunReport × Kernel Mind → Prop
  | all {done : List (Chunk × EvaluationResult)} {later : Kernel Mind}
      (ran : Ran host settings key kernel done later) :
    Goes host settings key kernel (done.map Prod.fst) (some ⟨reported done, none⟩, later)
  | failed {done : List (Chunk × EvaluationResult)} {chunk : Chunk} {mid later : Kernel Mind}
      {fault : Fault} (rest : List Chunk) (ran : Ran host settings key kernel done mid)
      (failed : mid.evaluate host settings key (.ofChunk chunk) = (some (.error fault), later)) :
    Goes host settings key kernel (done.map Prod.fst ++ chunk :: rest)
      (some ⟨reported done, some (chunk.startLine, fault)⟩, later)
  | endless {done : List (Chunk × EvaluationResult)} {chunk : Chunk} {mid later : Kernel Mind}
      (rest : List Chunk) (ran : Ran host settings key kernel done mid)
      (silent : mid.evaluate host settings key (.ofChunk chunk) = (none, later)) :
    Goes host settings key kernel (done.map Prod.fst ++ chunk :: rest) (none, later)

private theorem Goes.cons {mid : Kernel Mind} {chunk : Chunk} {result : EvaluationResult}
    {chunks : List Chunk} {outcome : Option RunReport × Kernel Mind}
    (first : kernel.evaluate host settings key (.ofChunk chunk) = (some (.ok result), mid))
    (goes : Goes host settings key mid chunks outcome) :
    Goes host settings key kernel (chunk :: chunks)
      (outcome.1.map (RunReport.cons ⟨(EvaluationRequest.ofChunk chunk).label, chunk.startLine,
        result⟩), outcome.2) := by
  cases goes with
  | all ran => exact .all (.cons first ran)
  | failed rest ran failed => exact .failed rest (.cons first ran) failed
  | endless rest ran silent => exact .endless rest (.cons first ran) silent

theorem Ran.sent {done : List (Chunk × EvaluationResult)}
    (h : Ran host settings key kernel done later) (standing : kernel.registry.Standing key) :
    later.registry.Standing key ∧ later.begun = kernel.begun + done.length ∧
      ∃ programs, Sendings host settings kernel.begun (done.map Prod.fst) programs ∧
        later.registry.programs = kernel.registry.programs ++ programs := by
  induction h with
  | nil => exact ⟨standing, rfl, [], .nil _, (List.append_nil _).symm⟩
  | @cons kernel mid later chunk result done first _ ih =>
    have evaluates := evaluate_standing standing host settings (.ofChunk chunk)
    rw [first] at evaluates
    cases evaluates with
    | ended files _ sent counted between =>
      obtain ⟨stands, begun, programs, sendings, written⟩ := ih between
      rw [counted] at begun sendings
      refine ⟨stands, ?_, _, .cons files sendings, ?_⟩
      · rw [begun, List.length_cons]
        omega
      · rw [written, sent, List.append_assoc]
        rfl

end Kernel

namespace CommandLine

variable {Mind : Type}

open Kernel

/-- The run of a document that waits for a chunk forever, behind those that have results: its
interpreter has neither printed the sentinel of the chunk nor closed its output. -/
structure Waits (host : Host Mind) (settings : Settings) (tree : FileTree) (key : String)
    (done : List (Chunk × EvaluationResult)) (chunk : Chunk) (kernel : Kernel Mind) : Prop where
  patient : settings.evalLimit = none
  ran : ∃ mid, Ran host settings key (.new tree) done mid ∧
    mid.evaluate host settings key (.ofChunk chunk) = (none, kernel)
  sent : Sendings host settings 0 (done.map Prod.fst ++ [chunk]) kernel.registry.programs
  sessions : ∀ turns ∈ kernel.registry.sessions, turns.session.key = key ∧
    turns.session.written.head? = some Service.preambleBytes
  stalled : ∃ turns, kernel.registry.sessions.getLast? = some turns ∧
    turns.Stalled (completion host done.length)

end CommandLine

end NotebookKernel
