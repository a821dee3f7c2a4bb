import NotebookKernel.Text.Blank

/-!
# Lines

A text is cut after each line feed. A piece keeps its ending, so the pieces join to the text; a
line has its ending removed, which is a line feed with at most one carriage return before it.
-/

set_option autoImplicit false

namespace NotebookKernel.Text

def pieces (text : List Char) : List (List Char) :=
  text.splitBy fun a _ => a != '\n'

def dropLastIf (c : Char) (text : List Char) : List Char :=
  if text.getLast? == some c then text.dropLast else text

/-- A piece less its line ending; a carriage return that no line feed follows stays. -/
def lineOfPiece (piece : List Char) : List Char :=
  if piece.getLast? == some '\n' then dropLastIf '\r' piece.dropLast else piece

/-- The lines of a text, without their endings. A final line feed opens no further line. -/
def lines (text : List Char) : List (List Char) :=
  (pieces text).map lineOfPiece

def joinLines (texts : List (List Char)) : List Char :=
  ['\n'].intercalate texts

end NotebookKernel.Text
