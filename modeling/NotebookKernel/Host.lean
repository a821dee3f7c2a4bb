import NotebookKernel.Child

/-!
# Hosts

What a run of the program finds around it, and the programs that it can start there. A started
program is known by what it does: whenever something is written to it, it acts, may change files,
and goes on in a state of its own. Nothing else is asked of it, so whatever holds of every host
holds of every interpreter and every language server.
-/

set_option autoImplicit false

namespace NotebookKernel

/-- A host: its variables, the current directory, the number of the process that runs, the time in
milliseconds when an evaluation begins, what it adds to the name of a new scratch directory, what
comes of starting a program and the state that the program starts in, and what a program does when
it is written to. Evaluations are known by number. -/
structure Host (Mind : Type) where
  env : Environment
  cwd : Place
  process : Nat
  now : Nat → Int
  scratchSuffix : FileTree → Nat → String
  launch : FileTree → Child → Session.Launch × Mind
  react : Mind → FileTree → Bytes → List Act × FileTree × Mind

namespace Host

variable {Mind : Type}

def interpreter (host : Host Mind) (settings : Settings) : Child :=
  ⟨settings.executable, settings.interpreterArgs, settings.childEnv host.env⟩

def languageServer (host : Host Mind) (settings : Settings) : Child :=
  ⟨settings.executable, settings.languageServerArgs, settings.childEnv host.env⟩

def artifactDir (host : Host Mind) (settings : Settings) : String :=
  settings.artifactDir host.env

end Host

end NotebookKernel
