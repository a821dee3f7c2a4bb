import NotebookKernel.Sentinels
import NotebookKernel.Text.Lines
import NotebookKernel.Text.Search
import NotebookKernel.Variable

/-!
# Output

What the interpreter printed before the completion sentinel is the visible output with marked
lines among it, then the environment sentinel, then the snapshot. It is taken apart here: marked
lines are removed and their file names collected, in order.
-/

set_option autoImplicit false

namespace NotebookKernel

structure Output where
  result : String
  imageFiles : List String
  widgetFiles : List String
  environment : List Variable
deriving DecidableEq, Repr

namespace Output

/-- What follows the tag on a marked line, without blank space at its ends; `none` for a line that
does not begin with the tag. -/
def payload? (tag : List Char) (piece : List Char) : Option (List Char) :=
  let content := Text.dropLastIf '\r' (Text.dropLastIf '\n' piece)
  if tag.isPrefixOf content then some (Text.trim (content.drop tag.length)) else none

def kept (tag : List Char) (text : List Char) : List Char :=
  ((Text.pieces text).filter fun piece => (payload? tag piece).isNone).flatten

def payloads (tag : List Char) (text : List Char) : List (List Char) :=
  ((Text.pieces text).filterMap (payload? tag)).filter fun payload => !payload.isEmpty

/-- The text before the environment sentinel, and what follows the sentinel. -/
def splitEnvironment (sentinels : Sentinels) (text : List Char) :
    List Char × Option (List Char) :=
  match Search.splitFirst sentinels.environment.toList text with
  | some (before, after) => (before, some after)
  | none => (text, none)

/-- The variables of a snapshot. A snapshot that does not parse is dropped. -/
def environmentOf (snapshot : Option (List Char)) : List Variable :=
  match snapshot with
  | some raw =>
    match parseEnvironment raw with
    | .ok list => list
    | .error _ => []
  | none => []

/-- Takes an output apart. -/
def demultiplex (text : String) (sentinels : Sentinels) : Output :=
  let (visible, snapshot) := splitEnvironment sentinels text.toList
  let withoutImages := kept sentinels.image.toList visible
  let plain := kept sentinels.widget.toList withoutImages
  { result := String.ofList (Text.trim plain)
    imageFiles := (payloads sentinels.image.toList visible).map String.ofList
    widgetFiles := (payloads sentinels.widget.toList withoutImages).map String.ofList
    environment := environmentOf snapshot }

end Output

end NotebookKernel
