/-!
# Searching lists

First occurrences of one list inside another, and the replacement of every occurrence. They serve
both texts, which are lists of characters, and byte streams.
-/

set_option autoImplicit false

namespace NotebookKernel.Search

variable {α : Type} [BEq α]

/-- The position of the first occurrence of `needle`, counting the head of the list as `offset`. -/
def firstIndexFrom (needle : List α) (offset : Nat) : List α → Option Nat
  | [] => if needle.isEmpty then some offset else none
  | a :: rest =>
    if needle.isPrefixOf (a :: rest) then some offset
    else firstIndexFrom needle (offset + 1) rest

/-- The position of the first occurrence of `needle` in `hay`. -/
def firstIndex (needle hay : List α) : Option Nat :=
  firstIndexFrom needle 0 hay

def splitFirst (needle hay : List α) : Option (List α × List α) :=
  (firstIndex needle hay).map fun index => (hay.take index, hay.drop (index + needle.length))

/-- Replacement in progress: `skip` elements still belong to an occurrence already replaced, and
`done` holds the result so far, last element first. -/
def replaceFrom (needle replacement : List α) (skip : Nat) (done : List α) : List α → List α
  | [] => done.reverse
  | a :: rest =>
    if 0 < skip then replaceFrom needle replacement (skip - 1) done rest
    else if needle.isPrefixOf (a :: rest) then
      replaceFrom needle replacement (needle.length - 1) (replacement.reverseAux done) rest
    else replaceFrom needle replacement 0 (a :: done) rest

/-- Every occurrence of the non-empty `needle`, from the left and without overlap, replaced. -/
def replaceAll (needle replacement hay : List α) : List α :=
  replaceFrom needle replacement 0 [] hay

end NotebookKernel.Search
