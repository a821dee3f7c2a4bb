/-!
# Blank characters

The characters that count as blank space in documents, program output and header lines are the
members of the Unicode property `White_Space`. Trimming removes them from the ends of a text and
from nowhere else.
-/

set_option autoImplicit false

namespace NotebookKernel.Text

def isBlank (c : Char) : Bool :=
  let n := c.toNat
  (9 ≤ n && n ≤ 13) || n == 0x20 || n == 0x85 || n == 0xA0 || n == 0x1680 ||
    (0x2000 ≤ n && n ≤ 0x200A) || n == 0x2028 || n == 0x2029 || n == 0x202F ||
    n == 0x205F || n == 0x3000

def trimStart (text : List Char) : List Char :=
  text.dropWhile isBlank

def trimEnd (text : List Char) : List Char :=
  (text.reverse.dropWhile isBlank).reverse

/-- The text between its first and its last character that is not blank. -/
def trim (text : List Char) : List Char :=
  trimEnd (trimStart text)

def trimmed (text : String) : String :=
  String.ofList (trim text.toList)

@[simp]
theorem trim_nil : trim [] = [] := rfl

end NotebookKernel.Text
