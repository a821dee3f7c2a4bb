import NotebookKernel.Session.Turns

/-!
# Registries

A registry keeps one session for each document key. A session that is over is replaced when its key
is next resolved; one that is not is never replaced but on request. Sessions are numbered in the
order in which they came to be, and a number stays good after its key has moved on, because callers
may still hold the session.
-/

set_option autoImplicit false

namespace NotebookKernel

/-- All sessions there ever were, each with its turns, and the number that each key stands for. -/
structure Registry where
  sessions : List Turns
  table : List (String × Nat)

namespace Registry

def empty : Registry :=
  ⟨[], []⟩

def get? (registry : Registry) (key : String) : Option Nat :=
  (registry.table.find? fun entry => entry.1 == key).map Prod.snd

def turns? (registry : Registry) (number : Nat) : Option Turns :=
  registry.sessions[number]?

def keys (registry : Registry) : List String :=
  (registry.table.map Prod.fst).mergeSort fun a b => decide (a ≤ b)

def size (registry : Registry) : Nat :=
  registry.table.length

def update (registry : Registry) (number : Nat) (change : Turns → Turns) : Registry :=
  { registry with sessions := registry.sessions.modify number change }

def forget (registry : Registry) (key : String) : Registry :=
  { registry with table := registry.table.filter fun entry => entry.1 != key }

def enter (registry : Registry) (session : Session) : Nat × Registry :=
  let number := registry.sessions.length
  (number,
    { sessions := registry.sessions ++ [.new session]
      table := (registry.forget session.key).table ++ [(session.key, number)] })

def isClosed (registry : Registry) (number : Nat) : Bool :=
  match registry.turns? number with
  | some turns => turns.session.isClosed
  | none => true

def killSession (registry : Registry) (number : Nat) : Registry :=
  registry.update number fun turns => { turns with session := turns.session.kill.2 }

/-- A session for a key that stands for none: an interpreter is started, and on failure nothing is
entered. -/
def launch (registry : Registry) (key executable : String) (attempt : Session.Launch) :
    Except Fault Nat × Registry :=
  match Session.start key executable attempt with
  | .error fault => (.error fault, registry)
  | .ok session =>
    let (number, registry) := registry.enter session
    (.ok number, registry)

/-- The session of a key: the one that it stands for, unless that is over, else a new one. A
session that is over loses its key even when no new one can be started. -/
def resolve (registry : Registry) (key executable : String) (attempt : Session.Launch) :
    Except Fault Nat × Registry :=
  match registry.get? key with
  | some number =>
    if registry.isClosed number then (registry.forget key).launch key executable attempt
    else (.ok number, registry)
  | none => registry.launch key executable attempt

/-- A session made elsewhere takes its key; the session that had the key is killed. -/
def insert (registry : Registry) (session : Session) : Nat × Registry :=
  let previous := registry.get? session.key
  let (number, registry) := registry.enter session
  (number, (previous.map registry.killSession).getD registry)

def kill (registry : Registry) (key : String) : Bool × Registry :=
  match registry.get? key with
  | some number => (true, (registry.forget key).killSession number)
  | none => (false, registry)

/-- Kills the sessions of all keys and forgets them; how many there were. -/
def killAll (registry : Registry) : Nat × Registry :=
  (registry.size,
    { registry.table.foldl (fun registry entry => registry.killSession entry.2) registry with
      table := [] })

end Registry

end NotebookKernel
