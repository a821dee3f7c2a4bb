import NotebookKernel.Artifact
import NotebookKernel.Evaluation.Request
import NotebookKernel.Evaluation.Result
import NotebookKernel.Output
import NotebookKernel.Uri

/-!
# Collection of results

When the program of an evaluation has run, the artifacts that its output announces are copied out
of the scratch directory, which then goes away. An artifact that cannot be read or stored is kept
by its announced name; nothing of this makes the evaluation fail.
-/

set_option autoImplicit false

namespace NotebookKernel.Evaluation

/-- Stands for a help page that cannot be read. -/
def helpPlaceholder : String := "Failed to retrieve help content."

def textOf? (contents : Bytes) : Option String :=
  (Utf8.decode? contents).map String.ofList

variable {World : Type}

def helpContent (e : Evaluation) (depot : Depot World) (world : World) : String :=
  if e.request.help then ((depot.read? world e.helpFile).bind textOf?).getD helpPlaceholder else ""

/-- Stores an announced image: the reference of the store, else the announced name. -/
def storeImage (e : Evaluation) (depot : Depot World) (world : World) (name : String) :
    String × World :=
  match depot.read? world (Path.join e.scratchDir name) with
  | none => (name, world)
  | some contents =>
    match depot.store world .image name contents with
    | (.ok stored, world) => (stored.reference, world)
    | (.error _, world) => (name, world)

/-- What a stored widget is referred to by: the URI of its file, or the reference of the store
where the file has no absolute path. -/
def widgetReference (stored : StoredArtifact) : String :=
  if Path.isAbsolute stored.path then Uri.ofAbsolute stored.path else stored.reference

/-- Stores an announced widget, which has to be a text. -/
def storeWidget (e : Evaluation) (depot : Depot World) (world : World) (name : String) :
    String × World :=
  match (depot.read? world (Path.join e.scratchDir name)).bind textOf? with
  | none => (name, world)
  | some contents =>
    match depot.store world .widget name (Utf8.ofString contents) with
    | (.ok stored, world) => (widgetReference stored, world)
    | (.error _, world) => (name, world)

/-- Stores announced artifacts one after another; their references, in order. -/
def storeAll (store : World → String → String × World) (world : World) (names : List String) :
    List String × World :=
  let done := names.foldl (fun (done : List String × World) name =>
    let (reference, world) := store done.2 name
    (reference :: done.1, world)) ([], world)
  (done.1.reverse, done.2)

def collect (e : Evaluation) (depot : Depot World) (world : World) (output : String) :
    EvaluationResult × World :=
  let helpContent := e.helpContent depot world
  let parts := Output.demultiplex output e.sentinels
  let (imagePaths, world) := storeAll (e.storeImage depot) world parts.imageFiles
  let (widgetPaths, world) := storeAll (e.storeWidget depot) world parts.widgetFiles
  (⟨parts.result, imagePaths, widgetPaths, helpContent, parts.environment⟩, world)

def conclude (e : Evaluation) (depot : Depot World) (world : World) :
    Except Fault String → Except Fault EvaluationResult × World
  | .error fault => (.error fault, world)
  | .ok output =>
    let (result, world) := e.collect depot world output
    (.ok result, world)

def finish (e : Evaluation) (store : DirectoryStore) (cwd : Place) (tree : FileTree)
    (outcome : Except Fault String) : Except Fault EvaluationResult × FileTree :=
  let (outcome, tree) := e.conclude (store.depot cwd) tree outcome
  (outcome, ((tree.locate? cwd e.scratchDir).map tree.removeTree).getD tree)

end NotebookKernel.Evaluation
