import NotebookKernel.Json.Reader

/-!
# Records

A record with named fields is read from an object, by key, or from an array, by position. An
object may hold further members, which are skipped whatever they are, but no field twice; an array
may end before fields that have a default, and holds nothing after the last one.
-/

set_option autoImplicit false

namespace NotebookKernel.Json

variable {α : Type}

/-- The parts of a record as found: one for each field, in order, and whether they stood in an
array. -/
structure Parts (α : Type) where
  positional : Bool
  parts : List (Option α)

/-- The members that belong to a field known under any of `names`, or `none` if there are
several. -/
def fieldOf? (names : List String) (members : List (String × α)) : Option (Option α) :=
  match members.filter fun m => names.contains m.1 with
  | [] => some none
  | [m] => some (some m.2)
  | _ => none

def partsOfMembers? (fields : List (List String)) (members : List (String × α)) :
    Option (Parts α) :=
  (fields.mapM fun names => fieldOf? names members).map (⟨false, ·⟩)

def partsOfItems? (fields : List (List String)) (items : List α) : Option (Parts α) :=
  if fields.length < items.length then none
  else some ⟨true, items.map some ++ List.replicate (fields.length - items.length) none⟩

def decodeKeys? (members : List (List StringUnit × Tree)) : Option (List (String × Tree)) :=
  let decoded := members.map fun m => (text? m.1, m.2)
  if decoded.all fun m => m.1.isSome then
    some (decoded.map fun m => (m.1.getD "", m.2))
  else none

def Tree.parts? (fields : List (List String)) : Tree → Option (Parts Tree)
  | .object members => (decodeKeys? members).bind (partsOfMembers? fields)
  | .array items => partsOfItems? fields items
  | _ => none

def parts? (fields : List (List String)) : Json → Option (Parts Json)
  | .object members => partsOfMembers? fields members
  | .array items => partsOfItems? fields items
  | _ => none

/-- The parts of a record at a place of a tree, with the nesting that the place leaves, and the
nesting that is left inside the record. -/
def Tree.record? (depth : Nat) (fields : List (List String)) (tree : Tree) :
    Option (Nat × Parts Tree) :=
  match depth with
  | 0 => none
  | depth + 1 => (tree.parts? fields).map (depth, ·)

def Parts.at (record : Parts α) (index : Nat) : Option α :=
  (record.parts[index]?).join

def Parts.required {β : Type} (record : Parts α) (index : Nat) (read : α → Option β) : Option β :=
  (record.at index).bind read

def Parts.optional {β : Type} (record : Parts α) (index : Nat)
    (read : α → Option (Option β)) : Option (Option β) :=
  match record.at index with
  | none => some none
  | some part => read part

/-- A field that may be absent from an object, but has its place in an array. -/
def Parts.nullable {β : Type} (record : Parts α) (index : Nat)
    (read : α → Option (Option β)) : Option (Option β) :=
  match record.at index with
  | none => if record.positional then none else some none
  | some part => read part

def orNull {β : Type} (read : Json → Option β) : Json → Option (Option β)
  | .null => some none
  | value => (read value).map some

def Tree.within {β : Type} (depth : Nat) (read : Json → Option β) (part : Tree) : Option β :=
  (ofTree? depth part).bind read

def intWithin? (low high : Int) : Json → Option Int
  | .int i => if low ≤ i ∧ i ≤ high then some i else none
  | _ => none

def natBelow? (bound : Nat) : Json → Option Nat
  | .int i => if 0 ≤ i ∧ i.toNat < bound then some i.toNat else none
  | _ => none

def strings? : Json → Option (List String)
  | .array items => items.mapM string?
  | _ => none

def oneOrMany? : Json → Option (List String)
  | .string s => some [s]
  | value => strings? value

end NotebookKernel.Json
