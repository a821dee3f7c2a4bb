import NotebookKernel.Proofs.Evaluation.Sending

/-!
# Interpreters that answer at once

Where an interpreter complains and then prints as soon as a program is written to it, and prints the
sentinel of the program, the program has the outcome of the call that gathers both.
-/

set_option autoImplicit false

namespace NotebookKernel

namespace Turns

/-- A session that nobody uses, with all streams open and empty. -/
def idle (key : String) (written : List Bytes) (outcomes : List Outcome) (ticket : Nat) : Turns :=
  ⟨⟨key, true, true, written, .new, .new⟩, none, [], outcomes, ticket⟩

variable {key : String} {written : List Bytes} {outcomes : List Outcome} {ticket : Nat}
  {submission : Submission} {complaint out : Bytes}

def answer (submission : Submission) (complaint out : Bytes) : Call :=
  ((Call.new submission.sentinel).markSent.onStderr complaint).onStdout out

end Turns

namespace Kernel

variable {Mind : Type}

/-- A kernel with one session, which nobody uses. -/
def single (key : String) (written : List Bytes) (outcomes : List Outcome) (ticket : Nat)
    (mind : Mind) (tree : FileTree) (begun : Nat) : Kernel Mind :=
  ⟨⟨[.idle key written outcomes ticket], [(key, 0)]⟩, [mind], tree, begun⟩

variable {host : Host Mind} {settings : Settings} {key : String} {mind mind' : Mind}
  {tree tree' : FileTree} {written : List Bytes} {outcomes : List Outcome} {ticket begun : Nat}

end Kernel

end NotebookKernel
