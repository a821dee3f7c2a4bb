import Mathlib.Data.List.Basic

/-!
# Runs

A run of a state machine is a fold over the events that it is given. What an observer notes at each
event, before the machine moves, adds up along a run.
-/

set_option autoImplicit false

namespace NotebookKernel.Run

variable {State Event Note : Type} (next : State → Event → State)

def noted (note : State → Event → List Note) : State → List Event → List Note
  | _, [] => []
  | state, event :: events => note state event ++ noted note (next state event) events

theorem noted_append (note : State → Event → List Note) (state : State)
    (first second : List Event) :
    noted next note state (first ++ second) =
      noted next note state first ++ noted next note (first.foldl next state) second := by
  induction first generalizing state with
  | nil => rfl
  | cons event first ih =>
    simp only [List.cons_append, noted, ih, List.foldl_cons, List.append_assoc]

theorem noted_singleton (note : State → Event → List Note) (state : State) (event : Event) :
    noted next note state [event] = note state event := by
  simp [noted]

end NotebookKernel.Run
