import NotebookKernel.Text.Blank
import NotebookKernel.Text.Word

/-!
# Help requests

Code asks for help when it contains, anywhere, a question mark before a word, or the word `help`
before a word in parentheses. Blank space may stand between the parts.
-/

set_option autoImplicit false

namespace NotebookKernel.HelpRequest

/-- Whether a text begins, after blank space, with a word; what follows that word. -/
def afterWord? (text : List Char) : Option (List Char) :=
  let text := Text.trimStart text
  if text.takeWhile Text.isWord |>.isEmpty then none else some (text.dropWhile Text.isWord)

def afterChar? (c : Char) (text : List Char) : Option (List Char) :=
  match Text.trimStart text with
  | d :: rest => if d = c then some rest else none
  | [] => none

def beginsQuestion : List Char → Bool
  | '?' :: rest => (afterWord? rest).isSome
  | _ => false

def beginsCall : List Char → Bool
  | 'h' :: 'e' :: 'l' :: 'p' :: rest =>
    (((afterChar? '(' rest).bind afterWord?).bind (afterChar? ')')).isSome
  | _ => false

end HelpRequest

def isHelpRequest : List Char → Bool
  | [] => false
  | c :: rest =>
    if HelpRequest.beginsQuestion (c :: rest) || HelpRequest.beginsCall (c :: rest) then true
    else isHelpRequest rest

end NotebookKernel
