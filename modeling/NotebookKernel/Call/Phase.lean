/-!
# Phases of a call

A call to the interpreter is written, answered and read, in this order.
-/

set_option autoImplicit false

namespace NotebookKernel

inductive Phase where
  /-- Nothing has been written yet. -/
  | idle
  /-- The program is written and its output is being gathered. -/
  | accumulating
  /-- The completion sentinel has arrived. -/
  | sentinelFound
  /-- The outcome has been taken. -/
  | parsed
deriving DecidableEq, Repr, Inhabited

namespace Phase

def name : Phase → String
  | idle => "Idle"
  | accumulating => "Accumulating"
  | sentinelFound => "SentinelFound"
  | parsed => "Parsed"

def rank : Phase → Nat
  | idle => 0
  | accumulating => 1
  | sentinelFound => 2
  | parsed => 3

end Phase

end NotebookKernel
