import NotebookKernel.Decimal.Binary64

/-!
# JSON values

The values that programs exchange. An object is the list of its members in the order in which they
are written: records keep the order of their fields, and values read from a text are put in the
order of their keys, the last member of a repeated key standing.
-/

set_option autoImplicit false

namespace NotebookKernel

/-- A JSON value. Whole numbers between `-2 ^ 63` and `2 ^ 64 - 1` are integers, all others are
doubles. -/
inductive Json where
  | null
  | bool (value : Bool)
  | int (value : Int)
  | real (value : Binary64)
  | string (value : String)
  | array (items : List Json)
  | object (members : List (String × Json))
deriving Inhabited

namespace Json

def nat (n : Nat) : Json :=
  .int n

def ofOption {α : Type} (f : α → Json) : Option α → Json
  | none => .null
  | some a => f a

def strings (texts : List String) : Json :=
  .array (texts.map .string)

def string? : Json → Option String
  | .string s => some s
  | _ => none

def nat? : Json → Option Nat
  | .int i => if 0 ≤ i then some i.toNat else none
  | _ => none

def member? (key : String) : Json → Option Json
  | .object members => (members.find? fun m => m.1 == key).map Prod.snd
  | _ => none

/-- The later of two neighbours with one key stands for both. -/
def keepLast : List (String × Json) → List (String × Json) → List (String × Json)
  | done, [] => done.reverse
  | [], m :: rest => keepLast [m] rest
  | d :: done, m :: rest =>
    if d.1 == m.1 then keepLast (m :: done) rest else keepLast (m :: d :: done) rest

/-- The members of an object by increasing key, the last one of each key. -/
def sortMembers (members : List (String × Json)) : List (String × Json) :=
  keepLast [] (members.mergeSort fun a b => decide (a.1 ≤ b.1))

end Json

end NotebookKernel
