import NotebookKernel.Evaluation.Collection
import NotebookKernel.Host
import NotebookKernel.Session.Registry

/-!
# Kernels

A kernel evaluates requests in the sessions of a registry, each with an interpreter of the host.
Sessions are started when they are first needed. An interpreter acts only when something is written
to it; when it has done all it will and its turn is not over, the turn runs out of time, or, where
no limit is set, it is waited for forever: what comes of such a call is `none`.
-/

set_option autoImplicit false

namespace NotebookKernel

def Host.evaluation {Mind : Type} (host : Host Mind) (tree : FileTree) (number : Nat)
    (request : EvaluationRequest) : Evaluation :=
  ⟨request, Path.join host.env.scratchDir ("rplots-" ++ host.scratchSuffix tree number),
    Sentinels.generate (host.now number) number⟩

/-- The sessions, the state of the interpreter of each session by number, the files, and how many
evaluations were begun. -/
structure Kernel (Mind : Type) where
  registry : Registry
  minds : List Mind
  tree : FileTree
  begun : Nat

namespace Kernel

variable {Mind : Type}

def new (tree : FileTree) : Kernel Mind :=
  ⟨.empty, [], tree, 0⟩

def written (kernel : Kernel Mind) (number : Nat) : List Bytes :=
  match kernel.registry.turns? number with
  | some turns => turns.session.written
  | none => []

/-- The interpreter of a session acts; each act is noticed before the next one. -/
def play (kernel : Kernel Mind) (number : Nat) (acts : List Act) : Kernel Mind :=
  { kernel with
    registry := kernel.registry.update number fun turns =>
      acts.foldl (fun turns act => (turns.observe act).settle) turns }

/-- Hands a chunk to the interpreter of a session, which reacts. -/
def hand (host : Host Mind) (number : Nat) (kernel : Kernel Mind) (chunk : Bytes) : Kernel Mind :=
  match kernel.minds[number]? with
  | none => kernel
  | some mind =>
    let (acts, tree, mind) := host.react mind kernel.tree chunk
    { kernel with tree, minds := kernel.minds.set number mind }.play number acts

/-- Hands over what was written to a session after the first `count` chunks. -/
def handSince (kernel : Kernel Mind) (host : Host Mind) (number count : Nat) : Kernel Mind :=
  ((kernel.written number).drop count).foldl (hand host number) kernel

/-- The session of a key. An interpreter that is started for it reads the preamble. -/
def resolve (kernel : Kernel Mind) (host : Host Mind) (settings : Settings) (key : String) :
    Except Fault Nat × Kernel Mind :=
  let child := host.interpreter settings
  let (launch, mind) := host.launch kernel.tree child
  match kernel.registry.resolve key child.executable launch with
  | (.error fault, registry) => (.error fault, { kernel with registry })
  | (.ok number, registry) =>
    if number < kernel.registry.sessions.length then (.ok number, { kernel with registry })
    else
      let kernel := { kernel with registry, minds := kernel.minds ++ [mind] }
      (.ok number, kernel.handSince host number 0)

def outcome? (kernel : Kernel Mind) (number ticket : Nat) : Option (Except Fault String) :=
  (kernel.registry.turns? number).bind fun turns => turns.outcome? ticket

def await (kernel : Kernel Mind) (number ticket : Nat) :
    Option (Except Fault String) × Kernel Mind :=
  let kernel := { kernel with registry := kernel.registry.update number Turns.expire }
  (kernel.outcome? number ticket, kernel)

/-- Puts a program in line and lets its turn begin. A limit of no time is over at once. -/
def begin (submission : Submission) (turns : Turns) : Turns :=
  let turns := (turns.submit submission).2.settle
  if submission.limit = some ⟨0, 0⟩ then turns.expire else turns

def runProgram (kernel : Kernel Mind) (host : Host Mind) (number : Nat) (submission : Submission) :
    Option (Except Fault String) × Kernel Mind :=
  match kernel.registry.turns? number with
  | none => (none, kernel)
  | some turns =>
    let registry := kernel.registry.update number (begin submission)
    let kernel := { kernel with registry }.handSince host number turns.session.written.length
    kernel.await number turns.nextTicket

/-- A request as the next evaluation, with markers of its own and a new scratch directory. -/
def prepare (kernel : Kernel Mind) (host : Host Mind) (request : EvaluationRequest) : Evaluation :=
  host.evaluation kernel.tree kernel.begun request

/-- Evaluates a request in the session of a key. -/
def evaluate (kernel : Kernel Mind) (host : Host Mind) (settings : Settings) (key : String)
    (request : EvaluationRequest) : Option (Except Fault EvaluationResult) × Kernel Mind :=
  match kernel.resolve host settings key with
  | (.error fault, kernel) => (some (.error fault), kernel)
  | (.ok number, kernel) =>
    let evaluation := kernel.prepare host request
    match kernel.tree.makeNewDirectory? host.cwd evaluation.scratchDir with
    | none => (some (.error (.io hostDetail)), kernel)
    | some tree =>
      let submission := evaluation.submission settings.previewChars settings.evalLimit
      match { kernel with tree, begun := kernel.begun + 1 }.runProgram host number submission with
      | (none, kernel) => (none, kernel)
      | (some value, kernel) =>
        let (outcome, tree) :=
          evaluation.finish ⟨host.artifactDir settings⟩ host.cwd kernel.tree value
        (some outcome, { kernel with tree })

def killAll (kernel : Kernel Mind) : Kernel Mind :=
  { kernel with registry := kernel.registry.killAll.2 }

end Kernel

end NotebookKernel
