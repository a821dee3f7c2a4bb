import NotebookKernel.Proofs.Rpc.Teardown

/-!
# The table while a correlator is used

An id is in the table only if it was there before or has just been handed to a caller, so that what
has left the table does not come back. A receiver that is still listed stays empty until its id
leaves the table or its caller goes away.
-/

set_option autoImplicit false

namespace NotebookKernel.Rpc

open Correlator

variable {c : Correlator} {id : Nat}

namespace Happening

/-- Nobody is handed an id by it. -/
def IsQuiet (happening : Happening) : Prop :=
  ∀ c, happening.handed c = []

theorem nextId_le_run (c : Correlator) (happening : Happening) :
    c.nextId ≤ (happening.run c).nextId := by
  cases happening with
  | used op =>
    show c.nextId ≤ (op.run c).nextId
    rw [op.nextId_run]
    exact Nat.le_add_right _ _
  | looked id =>
    show c.nextId ≤ (c.receive id).2.nextId
    rw [Correlator.receive]
    split <;> exact Nat.le_refl _
  | left id =>
    show c.nextId ≤ (c.dropReceiver id).2.nextId
    rw [Correlator.dropReceiver]
    split <;> exact Nat.le_refl _

theorem bounds_of_mem_handed {happening : Happening} (handed : id ∈ happening.handed c) :
    c.nextId ≤ id ∧ id < (happening.run c).nextId := by
  cases happening with
  | used op =>
    have taken := (op.handed_sublist c).subset handed
    rw [op.taken_eq_range c, List.mem_range'_1] at taken
    show c.nextId ≤ id ∧ id < (op.run c).nextId
    rw [op.nextId_run]
    exact taken
  | looked id => cases handed
  | left id => cases handed

theorem mem_waiting_run {happening : Happening} (waits : id ∈ (happening.run c).waiting) :
    id ∈ c.waiting ∨ id ∈ happening.handed c := by
  cases happening with
  | used op =>
    have listed : id ∈ (op.run c).waiting := waits
    rw [op.waiting_run, List.mem_append] at listed
    exact listed.imp_left fun old => (List.mem_filter.mp old).1
  | looked other =>
    have same : (c.receive other).2.waiting = c.waiting := by
      rw [receive]
      split <;> rfl
    exact Or.inl (same ▸ waits)
  | left other =>
    have same : (c.dropReceiver other).2.waiting = c.waiting := by
      rw [dropReceiver]
      split <;> rfl
    exact Or.inl (same ▸ waits)

theorem fresh_run (fresh : ∀ id, c.nextId ≤ id → c.receiver? id = none) (happening : Happening)
    (above : (happening.run c).nextId ≤ id) : (happening.run c).receiver? id = none := by
  rw [← Option.not_isSome_iff_eq_none, isSome_receiver?_run]
  rintro (old | handed)
  · rw [fresh id (Nat.le_trans (nextId_le_run c happening) above)] at old
    cases old
  · exact Nat.not_le.mpr (bounds_of_mem_handed handed).2 above

private theorem receiver?_used (awaits : id ∈ c.waiting → c.receiver? id = some .waiting)
    (taken : id < c.nextId) (op : Operation) (waits : id ∈ (op.run c).waiting) :
    (op.run c).receiver? id = some .waiting := by
  rcases op.run_cases c with ⟨-, -, -, effect⟩ | ⟨handed, -, -, method, params, opened, effect⟩ |
    ⟨-, -, i, s, -, effect⟩ | ⟨-, -, reason, -, -, effect⟩ | ⟨-, -, -, effect⟩
  · rw [effect] at waits ⊢
    exact awaits waits
  · rcases @mem_waiting_run c id (.used op) waits with old | new
    · rw [effect, receiver?_request opened, awaits old, Option.some_or]
    · exact absurd (bounds_of_mem_handed new).1 (Nat.not_le.mpr taken)
  · rw [effect, waiting_settle, List.mem_filter, bne_iff_ne] at waits
    rw [effect, receiver?_settle, if_neg fun both => waits.2 both.1]
    exact awaits waits.1
  · rw [effect, waiting_rejectAll] at waits
    cases waits
  · rw [effect] at waits ⊢
    exact awaits waits

theorem receiver?_run_of_listed (awaits : id ∈ c.waiting → c.receiver? id = some .waiting)
    (taken : id < c.nextId) {happening : Happening} (stays : happening ≠ .left id)
    (waits : id ∈ (happening.run c).waiting) :
    (happening.run c).receiver? id = some .waiting := by
  rcases mem_waiting_run waits with old | new
  · have shown := awaits old
    cases happening with
    | used op => exact receiver?_used awaits taken op waits
    | looked other =>
      show (c.receive other).2.receiver? id = _
      rw [receive]
      split
      case h_5 holding =>
        rw [receiver?_updateReceiver, if_neg, shown]
        rintro rfl
        cases shown.symm.trans holding
      all_goals exact shown
    | left other =>
      show (c.dropReceiver other).2.receiver? id = _
      rw [dropReceiver]
      split
      case h_3 =>
        rw [receiver?_updateReceiver, if_neg, shown]
        rintro rfl
        exact stays rfl
      all_goals exact shown
  · exact absurd (bounds_of_mem_handed new).1 (Nat.not_le.mpr taken)

end Happening

namespace Correlator

theorem nextId_le_through (c : Correlator) (history : List Happening) :
    c.nextId ≤ (c.through history).nextId := by
  induction history generalizing c with
  | nil => exact Nat.le_refl _
  | cons happening history ih => exact Nat.le_trans (happening.nextId_le_run c) (ih _)

theorem fresh_through (fresh : ∀ id, c.nextId ≤ id → c.receiver? id = none)
    (history : List Happening) (above : (c.through history).nextId ≤ id) :
    (c.through history).receiver? id = none := by
  induction history generalizing c with
  | nil => exact fresh id above
  | cons happening history ih => exact ih (fun _ => happening.fresh_run fresh) above

theorem mem_waiting_of_through {history : List Happening} (taken : id < c.nextId)
    (waits : id ∈ (c.through history).waiting) : id ∈ c.waiting := by
  induction history generalizing c with
  | nil => exact waits
  | cons happening history ih =>
    have listed := ih (Nat.lt_of_lt_of_le taken (happening.nextId_le_run c)) waits
    rcases Happening.mem_waiting_run listed with old | new
    · exact old
    · exact absurd (Happening.bounds_of_mem_handed new).1 (Nat.not_le.mpr taken)

theorem mem_waiting_of_quiet {history : List Happening}
    (quiet : ∀ happening ∈ history, happening.IsQuiet)
    (waits : id ∈ (c.through history).waiting) : id ∈ c.waiting := by
  induction history generalizing c with
  | nil => exact waits
  | cons happening history ih =>
    have listed := ih (fun later member => quiet later (List.mem_cons_of_mem _ member)) waits
    rcases Happening.mem_waiting_run listed with old | new
    · exact old
    · rw [quiet happening List.mem_cons_self c] at new
      cases new

theorem receiver?_through_of_listed {history : List Happening}
    (awaits : id ∈ c.waiting → c.receiver? id = some .waiting) (taken : id < c.nextId)
    (stays : .left id ∉ history) (waits : id ∈ (c.through history).waiting) :
    (c.through history).receiver? id = some .waiting := by
  induction history generalizing c with
  | nil => exact awaits waits
  | cons happening history ih =>
    rw [List.mem_cons, not_or] at stays
    exact ih (happening.receiver?_run_of_listed awaits taken (Ne.symm stays.1))
      (Nat.lt_of_lt_of_le taken (happening.nextId_le_run c)) stays.2 waits

end Correlator

end NotebookKernel.Rpc
