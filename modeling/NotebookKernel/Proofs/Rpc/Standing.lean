import Mathlib.Data.List.Nodup
import NotebookKernel.Rpc.Correlator

/-!
# Where a request stands

A request with a caller waits, or it was settled: its answer was delivered, it was cancelled, or it
was rejected. Its receiver shows which, and every operation of the correlator moves it in the one
way that depends on the operation alone. The table of a correlator lists the waiting ones.
-/

set_option autoImplicit false

namespace NotebookKernel.Rpc

/-- The state of a request with a caller. -/
inductive Standing where
  | waiting
  | delivered (answer : Message)
  | cancelled
  | rejected (reason : String)

namespace Standing

def after : Standing → Option Standing → Standing
  | .waiting, some s => s
  | s, _ => s

def answers : Standing → List Message
  | .delivered m => [m]
  | _ => []

def isWaiting : Standing → Bool
  | .waiting => true
  | _ => false

@[simp] theorem after_none (s : Standing) : s.after none = s := by
  cases s <;> rfl

@[simp] theorem waiting_after (event : Option Standing) :
    Standing.waiting.after event = event.getD .waiting := by
  cases event <;> rfl

theorem after_of_settled {s : Standing} (h : s ≠ .waiting) (event : Option Standing) :
    s.after event = s := by
  cases s with
  | waiting => exact absurd rfl h
  | delivered m => rfl
  | cancelled => rfl
  | rejected reason => rfl

theorem after_after {event : Option Standing} (h : event ≠ some .waiting) (s : Standing)
    (later : Option Standing) : (s.after event).after later = s.after (event.or later) := by
  cases event with
  | none => rw [after_none, Option.none_or]
  | some e =>
    cases s with
    | waiting =>
      have settled : e ≠ .waiting := fun he => h (congrArg some he)
      exact after_of_settled settled later
    | _ => rfl

end Standing

/-- What a receiver shows of its request, for receivers as the correlator leaves them. -/
def Receiver.standing? : Receiver → Option Standing
  | .waiting => some .waiting
  | .holding (.ok m) => some (.delivered m)
  | .holding (.error (.abandoned reason)) => some (.rejected reason)
  | .closed => some .cancelled
  | _ => none

theorem Receiver.eq_waiting_of_standing? {r : Receiver} (h : r.standing? = some .waiting) :
    r = .waiting := by
  unfold Receiver.standing? at h
  split at h <;> first | rfl | simp at h

theorem Receiver.fill_comp_fill (answer : Except Fault Message) :
    Receiver.fill answer ∘ Receiver.fill answer = Receiver.fill answer := by
  funext r
  cases r <;> rfl

namespace Correlator

/-- Where a request stands, if the correlator has made it and its caller got a receiver. -/
def standing? (c : Correlator) (id : Nat) : Option Standing :=
  (c.receiver? id).bind Receiver.standing?

theorem receiver?_updateReceiver (c : Correlator) (i : Nat) (change : Receiver → Receiver)
    (id : Nat) :
    (c.updateReceiver i change).receiver? id =
      if id = i then (c.receiver? id).map change else c.receiver? id := by
  have key : ((fun r : Nat × Receiver => r.1 == id) ∘
      fun r => if r.1 == i then (r.1, change r.2) else r) = fun r => r.1 == id := by
    funext r
    by_cases h : r.1 == i <;> simp [Function.comp, h]
  simp only [receiver?, updateReceiver, List.find?_map, key]
  cases found : c.receivers.find? fun r => r.1 == id with
  | none => simp
  | some r =>
    have hr : r.1 = id := by simpa using List.find?_some found
    by_cases h : id = i
    · simp [hr, h]
    · simp [hr, h]

theorem receiver?_fillAll (answer : Except Fault Message) (ids : List Nat) (c : Correlator)
    (id : Nat) :
    (ids.foldl (fun c i => c.updateReceiver i (Receiver.fill answer)) c).receiver? id =
      if id ∈ ids then (c.receiver? id).map (Receiver.fill answer) else c.receiver? id := by
  induction ids generalizing c with
  | nil => simp
  | cons i ids ih =>
    rw [List.foldl_cons, ih, receiver?_updateReceiver]
    by_cases hi : id = i
    · simp [hi, Receiver.fill_comp_fill]
    · simp [hi]

private theorem nextId_fillAll (answer : Except Fault Message) (ids : List Nat) (c : Correlator) :
    (ids.foldl (fun c i => c.updateReceiver i (Receiver.fill answer)) c).nextId = c.nextId := by
  induction ids generalizing c with
  | nil => rfl
  | cons i ids ih => rw [List.foldl_cons, ih]; rfl

@[simp] theorem receiver?_rejectAll (c : Correlator) (reason : String) (id : Nat) :
    (c.rejectAll reason).2.receiver? id =
      if id ∈ c.waiting then (c.receiver? id).map (Receiver.fill (.error (.abandoned reason)))
      else c.receiver? id :=
  receiver?_fillAll _ c.waiting c id

@[simp] theorem nextId_rejectAll (c : Correlator) (reason : String) :
    (c.rejectAll reason).2.nextId = c.nextId :=
  nextId_fillAll _ c.waiting c

@[simp] theorem waiting_rejectAll (c : Correlator) (reason : String) :
    (c.rejectAll reason).2.waiting = [] :=
  rfl

/-- The table in order: no request has an id that is still to be taken, the table lists every
waiting request once and no other, and every receiver shows where its request stands. -/
structure Sound (c : Correlator) : Prop where
  fresh : ∀ id, c.nextId ≤ id → c.receiver? id = none
  nodup : c.waiting.Nodup
  listed : ∀ id, id ∈ c.waiting ↔ c.receiver? id = some .waiting
  shown : ∀ id r, c.receiver? id = some r → r.standing?.isSome

theorem sound_new : new.Sound := by
  refine ⟨?_, List.nodup_nil, ?_, ?_⟩
  · intro id _
    rfl
  · intro id
    simp [new, receiver?]
  · intro id r h
    simp [new, receiver?] at h

namespace Sound

variable {c : Correlator}

theorem mem_waiting (h : c.Sound) (id : Nat) :
    id ∈ c.waiting ↔ c.standing? id = some .waiting := by
  rw [h.listed id, standing?]
  constructor
  · intro hw
    rw [hw]
    rfl
  · intro hs
    obtain ⟨r, hr, hs⟩ := Option.bind_eq_some_iff.mp hs
    rw [hr, Receiver.eq_waiting_of_standing? hs]

end Sound

end Correlator

end NotebookKernel.Rpc
