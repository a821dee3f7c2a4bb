/-!
# TOML values

The values of a settings text. A table remembers how it came about, because that decides whether
it may be declared or extended later: a table that only stands on the way to another one may still
be declared, one that dotted keys made may be extended by dotted keys alone, and any other is
finished once it is there.
-/

set_option autoImplicit false

namespace NotebookKernel.Toml

inductive Origin where
  /-- It has a header of its own, or is the whole text. -/
  | declared
  /-- It stands on the way to a declared table. -/
  | implied
  /-- Dotted keys made it. -/
  | dotted
  /-- It is written in braces. -/
  | inline
deriving DecidableEq, Repr

/-- A value. An array of tables keeps its last row apart, which is the one that later lines
extend; the earlier rows follow, the latest first. Floats and dates are kept as texts. -/
inductive Value where
  | string (text : String)
  | integer (value : Int)
  | float (literal : String)
  | boolean (value : Bool)
  | moment (text : String)
  | array (items : List Value)
  | table (origin : Origin) (entries : List (String × Value))
  | rows (last : List (String × Value)) (earlier : List (List (String × Value)))

abbrev Entries := List (String × Value)

namespace Entries

def find? (entries : Entries) (key : String) : Option Value :=
  (List.find? (fun entry => entry.1 == key) entries).map Prod.snd

def put (entries : Entries) (key : String) (value : Value) : Entries :=
  entries.map fun entry => if entry.1 == key then (key, value) else entry

/-- Changes the table that a path leads to. Tables that are missing on the way are made. The way
leads through no table in braces, with dotted keys only through tables that are implied or dotted,
and through the last row of an array of tables. -/
def within (dotted : Bool) (change : Origin → Entries → Option Entries) :
    List String → Origin → Entries → Option Entries
  | [], origin, entries => change origin entries
  | key :: path, _, entries =>
    match entries.find? key with
    | none =>
      let origin := if dotted then .dotted else .implied
      (within dotted change path origin []).map fun inner => (key, .table origin inner) :: entries
    | some (.table origin inner) =>
      if origin == .inline || (dotted && origin == .declared) then none
      else (within dotted change path origin inner).map fun inner =>
        entries.put key (.table origin inner)
    | some (.rows last earlier) =>
      (within dotted change path .declared last).map fun last => entries.put key (.rows last earlier)
    | some _ => none

/-- Assigns a value to a dotted key. The table that takes it is the one at hand or a dotted one,
and has no such key yet. -/
def assign (path : List String) (key : String) (value : Value) (entries : Entries) :
    Option Entries :=
  within true (fun origin inner =>
    if (origin == .dotted) == path.isEmpty || (inner.find? key).isSome then none
    else some ((key, value) :: inner)) path .declared entries

def declare (path : List String) (key : String) (entries : Entries) : Option Entries :=
  within false (fun _ inner =>
    match inner.find? key with
    | none => some ((key, .table .declared []) :: inner)
    | some (.table .implied old) => some (inner.put key (.table .declared old))
    | some _ => none) path .declared entries

def addRow (path : List String) (key : String) (entries : Entries) : Option Entries :=
  within false (fun _ inner =>
    match inner.find? key with
    | none => some ((key, .rows [] []) :: inner)
    | some (.rows last earlier) => some (inner.put key (.rows [] (last :: earlier)))
    | some _ => none) path .declared entries

end Entries

end NotebookKernel.Toml
