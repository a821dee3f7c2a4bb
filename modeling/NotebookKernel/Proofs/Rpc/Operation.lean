import Mathlib.Data.List.Nodup
import NotebookKernel.Proofs.Rpc.Standing

/-!
# Operations of a correlator

What one operation does to the counter, to the table and to the receivers. A sound correlator stays
sound, and where a request stands after an operation follows from where it stood and from the
operation alone.
-/

set_option autoImplicit false

namespace NotebookKernel.Rpc

inductive Operation where
  | request (method : String) (params : Json)
  | requestWithoutHandler (method : String) (params : Json)
  | nextId
  | dispatch (m : Message)
  | dispatchPayload (payload : Bytes)
  | cancel (id : Nat)
  | rejectAll (reason : String)

/-- The standing of a request after its response: what has a method is no response. -/
def Message.settles? (id : Nat) (m : Message) : Option Standing :=
  if m.method = none ∧ m.numericId? = some id then some (.delivered m) else none

namespace Operation

def run (c : Correlator) : Operation → Correlator
  | request method params => (c.request method params).2
  | requestWithoutHandler method params => (c.requestWithoutHandler method params).2
  | nextId => c.takeId.2
  | dispatch m => (c.dispatch m).2
  | dispatchPayload payload => (c.dispatchPayload payload).2
  | cancel id => (c.cancel id).2
  | rejectAll reason => (c.rejectAll reason).2

def handed (c : Correlator) : Operation → List Nat
  | request method params => ((c.request method params).1.toOption.map Request.id).toList
  | _ => []

def taken (c : Correlator) : Operation → List Nat
  | request method params => (request method params).handed c
  | requestWithoutHandler method params => [(c.requestWithoutHandler method params).1.id]
  | nextId => [c.takeId.1]
  | _ => []

def message? : Operation → Option Message
  | dispatch m => some m
  | dispatchPayload payload => Message.ofBytes? payload
  | _ => none

def reply? (c : Correlator) : Operation → Option Dispatch
  | dispatch m => some (c.dispatch m).1
  | dispatchPayload payload => (c.dispatchPayload payload).1.toOption
  | _ => none

def delivered (id : Nat) (c : Correlator) (op : Operation) : List Message :=
  if op.reply? c = some (.delivered id) then op.message?.toList else []

/-- The standing that an operation gives to a request if that still waits. -/
def settles? (id : Nat) : Operation → Option Standing
  | dispatch m => m.settles? id
  | dispatchPayload payload => (Message.ofBytes? payload).bind (Message.settles? id)
  | cancel i => if i = id then some .cancelled else none
  | rejectAll reason => some (.rejected reason)
  | _ => none

theorem settles?_ne_waiting (id : Nat) (op : Operation) : op.settles? id ≠ some .waiting := by
  have answer : ∀ m : Message, m.settles? id ≠ some .waiting := by
    intro m
    unfold Message.settles?
    split <;> simp
  cases op with
  | dispatch m => exact answer m
  | dispatchPayload payload =>
    intro h
    obtain ⟨m, -, hm⟩ := Option.bind_eq_some_iff.mp h
    exact answer m hm
  | cancel i => by_cases hi : i = id <;> simp [settles?, hi]
  | _ => simp [settles?]

private theorem eq_of_message_settles? {m m' : Message} {id : Nat}
    (h : m'.settles? id = some (.delivered m)) :
    m' = m ∧ m.method = none ∧ m.numericId? = some id := by
  unfold Message.settles? at h
  split at h
  · next response =>
    obtain rfl : m' = m := by simpa using h
    exact ⟨rfl, response⟩
  · simp at h

theorem routed_of_settles? {op : Operation} {id : Nat} {m : Message}
    (h : op.settles? id = some (.delivered m)) :
    op.message? = some m ∧ m.method = none ∧ m.numericId? = some id := by
  cases op with
  | dispatch m' =>
    obtain ⟨rfl, response⟩ := eq_of_message_settles? h
    exact ⟨rfl, response⟩
  | dispatchPayload payload =>
    obtain ⟨m', parsed, hm⟩ := Option.bind_eq_some_iff.mp h
    obtain ⟨rfl, response⟩ := eq_of_message_settles? hm
    exact ⟨parsed, response⟩
  | cancel i => by_cases hi : i = id <;> simp [settles?, hi] at h
  | _ => simp [settles?] at h

end Operation

def Standing.receiver : Standing → Receiver
  | .waiting => .waiting
  | .delivered m => .holding (.ok m)
  | .cancelled => .closed
  | .rejected reason => .holding (.error (.abandoned reason))

@[simp] theorem Standing.standing?_receiver (s : Standing) :
    s.receiver.standing? = some s := by
  cases s <;> rfl

def Receiver.settle : Option Standing → Receiver → Receiver
  | some s, .waiting => s.receiver
  | _, r => r

@[simp] theorem Receiver.settle_none (r : Receiver) : r.settle none = r :=
  rfl

theorem Receiver.standing?_settle {r : Receiver} {s : Standing} (h : r.standing? = some s)
    (event : Option Standing) : (r.settle event).standing? = some (s.after event) := by
  cases event with
  | none => rw [settle_none, Standing.after_none, h]
  | some e =>
    cases r with
    | waiting =>
      obtain rfl : Standing.waiting = s := by simpa [standing?] using h
      simp [settle]
    | holding answer =>
      have settled : s ≠ .waiting := by
        rintro rfl
        exact absurd (eq_waiting_of_standing? h) (by simp)
      rw [Standing.after_of_settled settled]
      exact h
    | closed =>
      obtain rfl : Standing.cancelled = s := by simpa [standing?] using h
      rfl
    | dropped => simp [standing?] at h

theorem Receiver.settle_eq_waiting {event : Option Standing} (h : event ≠ some .waiting)
    (r : Receiver) : r.settle event = .waiting ↔ r = .waiting ∧ event = none := by
  cases event with
  | none => simp
  | some s =>
    cases r with
    | waiting => cases s <;> simp_all [settle, Standing.receiver]
    | _ => simp [settle]

namespace Correlator

/-- The correlator after a waiting request has been settled. -/
def settle (c : Correlator) (id : Nat) (s : Standing) : Correlator :=
  if c.waiting.contains id then (c.release id).updateReceiver id (Receiver.settle (some s)) else c

theorem cancel_eq_settle (c : Correlator) (id : Nat) :
    (c.cancel id).2 = c.settle id .cancelled := by
  have change : Receiver.close = Receiver.settle (some .cancelled) := by
    funext r
    cases r <;> rfl
  unfold cancel settle
  rw [change]
  split <;> rfl

theorem dispatch_eq_settle (c : Correlator) {m : Message} {id : Nat} (hm : m.method = none)
    (hid : m.numericId? = some id) : (c.dispatch m).2 = c.settle id (.delivered m) := by
  have change : Receiver.fill (.ok m) = Receiver.settle (some (.delivered m)) := by
    funext r
    cases r <;> rfl
  unfold dispatch settle
  simp only [hm, hid, change]
  split <;> rfl

theorem dispatch_unaddressed (c : Correlator) {m : Message}
    (h : m.method ≠ none ∨ m.numericId? = none) : (c.dispatch m).2 = c := by
  unfold dispatch
  cases hm : m.method with
  | some method => rfl
  | none =>
    have hid : m.numericId? = none := by simpa [hm] using h
    simp only [hid]

theorem dispatch_fst_eq_delivered (c : Correlator) (m : Message) (id : Nat) :
    (c.dispatch m).1 = .delivered id ↔
      m.method = none ∧ m.numericId? = some id ∧ id ∈ c.waiting := by
  unfold dispatch
  cases hm : m.method with
  | some method =>
    by_cases hid : m.id.isSome <;> simp [hid]
  | none =>
    cases hid : m.numericId? with
    | none => simp
    | some i =>
      by_cases hw : i ∈ c.waiting
      · simp only [List.contains_iff_mem, hw, if_true, Dispatch.delivered.injEq, true_and,
          Option.some.injEq]
        constructor
        · rintro rfl
          exact ⟨rfl, hw⟩
        · exact And.left
      · simp only [List.contains_iff_mem, hw, if_false, reduceCtorEq, true_and, Option.some.injEq,
          false_iff, not_and]
        rintro rfl
        exact hw

theorem waiting_settle (c : Correlator) (id : Nat) (s : Standing) :
    (c.settle id s).waiting = c.waiting.filter (· != id) := by
  unfold settle
  by_cases h : id ∈ c.waiting
  · rw [if_pos (List.contains_iff_mem.mpr h)]
    rfl
  · rw [if_neg (fun hc => h (List.contains_iff_mem.mp hc))]
    refine (List.filter_eq_self.mpr ?_).symm
    intro i hi
    exact bne_iff_ne.mpr fun e => h (e ▸ hi)

theorem closedWith_settle (c : Correlator) (id : Nat) (s : Standing) :
    (c.settle id s).closedWith = c.closedWith := by
  unfold settle
  split <;> rfl

theorem nextId_settle (c : Correlator) (id : Nat) (s : Standing) :
    (c.settle id s).nextId = c.nextId := by
  unfold settle
  split <;> rfl

theorem receiver?_request {c : Correlator} (opened : c.closedWith = none) (method : String)
    (params : Json) (id : Nat) :
    (c.request method params).2.receiver? id =
      (c.receiver? id).or (if c.nextId = id then some .waiting else none) := by
  simp only [request, opened, takeId, receiver?, List.find?_append, List.find?_singleton,
    beq_iff_eq]
  cases c.receivers.find? fun r => r.1 == id with
  | some r => rfl
  | none => by_cases h : c.nextId = id <;> simp [h]

theorem Sound.map_settle_of_notMem {c : Correlator} (h : c.Sound) {id : Nat} (hw : id ∉ c.waiting)
    (event : Option Standing) :
    (c.receiver? id).map (Receiver.settle event) = c.receiver? id := by
  cases hr : c.receiver? id with
  | none => rfl
  | some r =>
    cases r with
    | waiting => exact absurd ((h.listed id).mpr hr) hw
    | holding answer => cases event <;> rfl
    | closed => cases event <;> rfl
    | dropped => cases event <;> rfl

theorem receiver?_settle (c : Correlator) (i : Nat) (s : Standing) (id : Nat) :
    (c.settle i s).receiver? id =
      if id = i ∧ i ∈ c.waiting then (c.receiver? id).map (Receiver.settle (some s))
      else c.receiver? id := by
  unfold settle
  by_cases hw : i ∈ c.waiting
  · rw [if_pos (List.contains_iff_mem.mpr hw), receiver?_updateReceiver]
    simp only [hw, and_true]
    rfl
  · rw [if_neg (fun hc => hw (List.contains_iff_mem.mp hc)), if_neg (fun h => hw h.2)]

theorem Sound.receiver?_settle {c : Correlator} (h : c.Sound) (i : Nat) (s : Standing) (id : Nat) :
    (c.settle i s).receiver? id =
      if id = i then (c.receiver? id).map (Receiver.settle (some s)) else c.receiver? id := by
  rw [Correlator.receiver?_settle]
  by_cases hi : id = i
  · by_cases hw : i ∈ c.waiting
    · rw [if_pos ⟨hi, hw⟩, if_pos hi]
    · rw [if_neg (fun both => hw both.2), if_pos hi, hi, h.map_settle_of_notMem hw]
  · rw [if_neg (fun both => hi both.1), if_neg hi]

theorem dispatch_cases (c : Correlator) (m : Message) :
    (∃ id, (∀ i, m.settles? i = if i = id then some (.delivered m) else none) ∧
      (c.dispatch m).2 = c.settle id (.delivered m)) ∨
    ((∀ i, m.settles? i = none) ∧ (c.dispatch m).2 = c) := by
  by_cases h : m.method ≠ none ∨ m.numericId? = none
  · refine Or.inr ⟨?_, c.dispatch_unaddressed h⟩
    intro i
    rcases h with h | h <;> simp [Message.settles?, h]
  · rw [not_or, not_not] at h
    obtain ⟨id, hid⟩ := Option.ne_none_iff_exists'.mp h.2
    refine Or.inl ⟨id, ?_, c.dispatch_eq_settle h.1 hid⟩
    intro i
    simp [Message.settles?, h.1, hid, eq_comm]

end Correlator

namespace Operation

open Correlator

variable (c : Correlator)

/-- What an operation does to a correlator: it takes an id without a caller or with one, settles
one request, settles all of them, or does nothing. -/
theorem run_cases (op : Operation) :
    (op.handed c = [] ∧ op.taken c = [c.nextId] ∧ (∀ i, op.settles? i = none) ∧
      op.run c = c.takeId.2) ∨
    (op.handed c = [c.nextId] ∧ op.taken c = [c.nextId] ∧ (∀ i, op.settles? i = none) ∧
      ∃ method params, c.closedWith = none ∧ op.run c = (c.request method params).2) ∨
    (op.handed c = [] ∧ op.taken c = [] ∧ ∃ id s,
      (∀ i, op.settles? i = if i = id then some s else none) ∧ op.run c = c.settle id s) ∨
    (op.handed c = [] ∧ op.taken c = [] ∧ ∃ reason, op = .rejectAll reason ∧
      (∀ i, op.settles? i = some (.rejected reason)) ∧ op.run c = (c.rejectAll reason).2) ∨
    (op.handed c = [] ∧ op.taken c = [] ∧ (∀ i, op.settles? i = none) ∧ op.run c = c) := by
  cases op with
  | request method params =>
    cases closed : c.closedWith with
    | none =>
      refine Or.inr (Or.inl ⟨?_, ?_, fun i => rfl, method, params, rfl, rfl⟩) <;>
        simp [taken, handed, Correlator.request, closed, takeId, Except.toOption]
    | some reason =>
      refine Or.inr (Or.inr (Or.inr (Or.inr ⟨?_, ?_, fun i => rfl, ?_⟩))) <;>
        simp [run, taken, handed, Correlator.request, closed, Except.toOption]
  | requestWithoutHandler method params => exact Or.inl ⟨rfl, rfl, fun i => rfl, rfl⟩
  | nextId => exact Or.inl ⟨rfl, rfl, fun i => rfl, rfl⟩
  | dispatch m =>
    rcases c.dispatch_cases m with ⟨id, answers, effect⟩ | ⟨answers, effect⟩
    · exact Or.inr (Or.inr (Or.inl ⟨rfl, rfl, id, _, answers, effect⟩))
    · exact Or.inr (Or.inr (Or.inr (Or.inr ⟨rfl, rfl, answers, effect⟩)))
  | dispatchPayload payload =>
    cases parsed : Message.ofBytes? payload with
    | none =>
      refine Or.inr (Or.inr (Or.inr (Or.inr ⟨rfl, rfl, ?_, ?_⟩)))
      · intro i
        simp [settles?, parsed]
      · simp [run, Correlator.dispatchPayload, parsed]
    | some m =>
      have effect : run c (dispatchPayload payload) = (c.dispatch m).2 := by
        simp [run, Correlator.dispatchPayload, parsed]
      have event : ∀ i, (dispatchPayload payload).settles? i = m.settles? i := by
        intro i
        simp [settles?, parsed]
      simp only [effect, event]
      rcases c.dispatch_cases m with ⟨id, answers, settled⟩ | ⟨answers, same⟩
      · exact Or.inr (Or.inr (Or.inl ⟨rfl, rfl, id, _, answers, settled⟩))
      · exact Or.inr (Or.inr (Or.inr (Or.inr ⟨rfl, rfl, answers, same⟩)))
  | cancel id =>
    refine Or.inr (Or.inr (Or.inl ⟨rfl, rfl, id, .cancelled, ?_, c.cancel_eq_settle id⟩))
    intro i
    simp [settles?, eq_comm]
  | rejectAll reason =>
    exact Or.inr (Or.inr (Or.inr (Or.inl ⟨rfl, rfl, reason, rfl, fun i => rfl, rfl⟩)))

theorem handed_sublist (op : Operation) : (op.handed c).Sublist (op.taken c) := by
  rcases op.run_cases c with ⟨handed, -⟩ | ⟨handed, taken, -⟩ | ⟨handed, -⟩ | ⟨handed, -⟩ |
    ⟨handed, -⟩
  · simp [handed]
  · simp [handed, taken]
  · simp [handed]
  · simp [handed]
  · simp [handed]

theorem taken_eq_range (op : Operation) :
    op.taken c = List.range' c.nextId (op.taken c).length := by
  rcases op.run_cases c with ⟨-, taken, -⟩ | ⟨-, taken, -⟩ | ⟨-, taken, -⟩ | ⟨-, taken, -⟩ |
    ⟨-, taken, -⟩ <;> rw [taken] <;> rfl

theorem nextId_run (op : Operation) :
    (op.run c).nextId = c.nextId + (op.taken c).length := by
  rcases op.run_cases c with ⟨-, taken, -, effect⟩ | ⟨-, taken, -, method, params, opened, effect⟩ |
    ⟨-, taken, id, s, -, effect⟩ | ⟨-, taken, reason, -, -, effect⟩ | ⟨-, taken, -, effect⟩
  · rw [taken, effect]
    rfl
  · rw [taken, effect]
    simp [Correlator.request, opened, takeId]
  · rw [taken, effect, nextId_settle]
    rfl
  · rw [taken, effect, nextId_rejectAll]
    rfl
  · rw [taken, effect]
    rfl

theorem closedWith_run (op : Operation) (h : ∀ reason, op ≠ .rejectAll reason) :
    (op.run c).closedWith = c.closedWith := by
  rcases op.run_cases c with ⟨-, -, -, effect⟩ | ⟨-, -, -, method, params, opened, effect⟩ |
    ⟨-, -, id, s, -, effect⟩ | ⟨-, -, reason, same, -, -⟩ | ⟨-, -, -, effect⟩
  · rw [effect]
    rfl
  · rw [effect]
    simp [Correlator.request, opened, takeId]
  · rw [effect, closedWith_settle]
  · exact absurd same (h reason)
  · rw [effect]

theorem waiting_run (op : Operation) :
    (op.run c).waiting =
      c.waiting.filter (fun id => (op.settles? id).isNone) ++ op.handed c := by
  rcases op.run_cases c with ⟨handed, -, event, effect⟩ |
    ⟨handed, -, event, method, params, opened, effect⟩ | ⟨handed, -, id, s, event, effect⟩ |
    ⟨handed, -, reason, -, event, effect⟩ | ⟨handed, -, event, effect⟩
  · simp [handed, event, effect, takeId]
  · simp [handed, event, effect, Correlator.request, opened, takeId]
  · rw [effect, waiting_settle, handed, List.append_nil]
    refine List.filter_congr ?_
    intro i _
    by_cases h : i = id <;> simp [event, h]
  · simp [handed, event, effect]
  · simp [handed, event, effect]

variable {c}

theorem receiver?_run (h : c.Sound) (op : Operation) (id : Nat) :
    (op.run c).receiver? id =
      if id ∈ op.handed c then some .waiting
      else (c.receiver? id).map (Receiver.settle (op.settles? id)) := by
  have same : (c.receiver? id).map (Receiver.settle none) = c.receiver? id := by
    cases c.receiver? id <;> rfl
  rcases op.run_cases c with ⟨handed, -, event, effect⟩ |
    ⟨handed, -, event, method, params, opened, effect⟩ | ⟨handed, -, i, s, event, effect⟩ |
    ⟨handed, -, reason, -, event, effect⟩ | ⟨handed, -, event, effect⟩
  · rw [effect, handed, event, same, if_neg List.not_mem_nil]
    rfl
  · rw [effect, handed, event, same, receiver?_request opened]
    by_cases hid : id = c.nextId
    · simp [hid, h.fresh c.nextId (Nat.le_refl _)]
    · simp [hid, Ne.symm hid]
  · rw [effect, handed, event, h.receiver?_settle]
    by_cases hid : id = i
    · simp [hid]
    · simp [hid, same]
  · rw [effect, handed, event, receiver?_rejectAll]
    by_cases hw : id ∈ c.waiting
    · rw [if_pos hw, (h.listed id).mp hw]
      rfl
    · rw [if_neg hw, if_neg List.not_mem_nil, h.map_settle_of_notMem hw]
  · rw [effect, handed, event, same, if_neg List.not_mem_nil]

end Operation

end NotebookKernel.Rpc
