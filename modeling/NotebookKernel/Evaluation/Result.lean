import NotebookKernel.Variable

/-!
# Evaluation results

What a caller gets back from an evaluation.
-/

set_option autoImplicit false

namespace NotebookKernel

/-- The visible output of an evaluation, references to its images and widgets, the help page it
asked for, and the variables that it left. -/
structure EvaluationResult where
  result : String
  imagePaths : List String
  widgetPaths : List String
  helpContent : String
  environment : List Variable
deriving DecidableEq, Repr

namespace EvaluationResult

def members (r : EvaluationResult) : List (String × Json) :=
  [("result", .string r.result), ("imagePaths", .strings r.imagePaths),
    ("widgetPaths", .strings r.widgetPaths), ("helpContent", .string r.helpContent),
    ("environment", .array (r.environment.map Variable.toJson))]

def toJson (r : EvaluationResult) : Json :=
  .object r.members

def ofTree? (depth : Nat) (tree : Json.Tree) : Option EvaluationResult := do
  let (inner, record) ← tree.record? depth
    [["result"], ["imagePaths"], ["widgetPaths"], ["helpContent"], ["environment"]]
  let result ← record.required 0 (Json.Tree.within inner Json.string?)
  let imagePaths ← record.required 1 (Json.Tree.within inner Json.strings?)
  let widgetPaths ← record.required 2 (Json.Tree.within inner Json.strings?)
  let helpContent ← record.required 3 (Json.Tree.within inner Json.string?)
  let environment ← record.required 4 (Variable.listOfTree? inner)
  return ⟨result, imagePaths, widgetPaths, helpContent, environment⟩

end EvaluationResult

end NotebookKernel
