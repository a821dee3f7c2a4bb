/-!
# Sentinels

Every evaluation marks the parts of its output with lines that begin with markers of its own. The
markers share a stamp, made of the clock and a running number, so that those of different
evaluations differ.
-/

set_option autoImplicit false

namespace NotebookKernel

/-- The stamp of an evaluation and its four markers. -/
structure Sentinels where
  stamp : String
  /-- Ends the output. -/
  completion : String
  /-- Precedes the name of an image file. -/
  image : String
  /-- Precedes the snapshot of the environment. -/
  environment : String
  /-- Precedes the name of a widget file. -/
  widget : String
deriving DecidableEq, Repr

namespace Sentinels

/-- The markers of a stamp. -/
def ofStamp (stamp : String) : Sentinels where
  stamp := stamp
  completion := "__END_OF_OUTPUT__" ++ stamp ++ "__"
  image := "__PLOT_PATH__" ++ stamp ++ "__"
  environment := "__ENVIRONMENT_DATA__" ++ stamp ++ "__"
  widget := "__WIDGET_PATH__" ++ stamp ++ "__"

/-- The stamp of the evaluation with a running number, begun at a time in milliseconds. -/
def stampOf (millis : Int) (number : Nat) : String :=
  toString millis ++ "_" ++ toString number

/-- The markers of the evaluation with a running number, begun at a time in milliseconds. -/
def generate (millis : Int) (number : Nat) : Sentinels :=
  ofStamp (stampOf millis number)

end Sentinels

end NotebookKernel
