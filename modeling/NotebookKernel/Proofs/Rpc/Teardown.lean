import NotebookKernel.Proofs.Rpc.Correlation

/-!
# Teardown

A correlator is used while the callers of its requests look at their receivers or go away. After
the first teardown nobody waits any more and nobody can begin to: the table is empty, requests are
refused, and every fault that a caller has seen names the reason of that first teardown. The
invariant behind this ties what receivers show to the table and to the stored reason.
-/

set_option autoImplicit false

namespace NotebookKernel.Rpc

open Correlator

/-- A correlator is used, or the caller of a request looks at its receiver or goes away. -/
inductive Happening where
  | used (op : Operation)
  | looked (id : Nat)
  | left (id : Nat)

namespace Happening

def run (c : Correlator) : Happening → Correlator
  | used op => op.run c
  | looked id => (c.receive id).2
  | left id => (c.dropReceiver id).2

def handed (c : Correlator) : Happening → List Nat
  | used op => op.handed c
  | _ => []

def teardown? : Happening → Option String
  | used (.rejectAll reason) => some reason
  | _ => none

/-- The faults that a caller sees: that of its refused request, and one that its receiver held. -/
def faults (c : Correlator) : Happening → List Fault
  | used (.request method params) =>
    match (c.request method params).1 with
    | .error fault => [fault]
    | .ok _ => []
  | looked id =>
    match (c.receive id).1 with
    | .answer (.error fault) => [fault]
    | _ => []
  | _ => []

end Happening

namespace Correlator

def through (c : Correlator) (history : List Happening) : Correlator :=
  history.foldl Happening.run c

theorem through_append (c : Correlator) (first second : List Happening) :
    c.through (first ++ second) = (c.through first).through second :=
  List.foldl_append

theorem through_used (c : Correlator) (ops : List Operation) :
    c.through (ops.map .used) = runFrom c ops :=
  List.foldl_map

/-- Whoever waits is in the table, the table of a closed correlator is empty, and whoever holds a
fault was told the reason for which the correlator is closed. -/
structure Attended (c : Correlator) : Prop where
  listed : ∀ id, c.receiver? id = some .waiting → id ∈ c.waiting
  emptied : ∀ reason, c.closedWith = some reason → c.waiting = []
  told : ∀ id fault, c.receiver? id = some (.holding (.error fault)) →
    ∃ reason, c.closedWith = some reason ∧ fault = .abandoned reason

theorem attended_new : new.Attended := by
  refine ⟨?_, ?_, ?_⟩
  · intro id h
    simp [new, receiver?] at h
  · intro reason _
    rfl
  · intro id fault h
    simp [new, receiver?] at h

variable {c : Correlator}

private theorem attended_updateReceiver (h : c.Attended) (i : Nat) {r : Receiver}
    (quiet : r = .closed ∨ r = .dropped) : (c.updateReceiver i fun _ => r).Attended := by
  have shown : ∀ id r', (c.updateReceiver i fun _ => r).receiver? id = some r' →
      r' = r ∨ c.receiver? id = some r' := by
    intro id r' hr
    rw [receiver?_updateReceiver] at hr
    by_cases hi : id = i
    · rw [if_pos hi] at hr
      obtain ⟨-, -, same⟩ := Option.map_eq_some_iff.mp hr
      exact Or.inl same.symm
    · rw [if_neg hi] at hr
      exact Or.inr hr
  refine ⟨?_, h.emptied, ?_⟩
  · intro id hr
    rcases shown id _ hr with rfl | old
    · simp at quiet
    · exact h.listed id old
  · intro id fault hr
    rcases shown id _ hr with rfl | old
    · simp at quiet
    · exact h.told id fault old

private theorem attended_request (h : c.Attended) (opened : c.closedWith = none) (method : String)
    (params : Json) : (c.request method params).2.Attended := by
  have shown : ∀ id r, (c.request method params).2.receiver? id = some r →
      c.receiver? id = some r ∨ (c.nextId = id ∧ r = .waiting) := by
    intro id r hr
    rw [receiver?_request opened, Option.or_eq_some_iff] at hr
    rcases hr with old | ⟨-, new⟩
    · exact Or.inl old
    · have own : c.nextId = id ∧ Receiver.waiting = r := by simpa using new
      exact Or.inr ⟨own.1, own.2.symm⟩
  have waiting : (c.request method params).2.waiting = c.waiting ++ [c.nextId] := by
    simp [request, opened, takeId]
  have still : (c.request method params).2.closedWith = none := by
    simp [request, opened, takeId]
  refine ⟨?_, ?_, ?_⟩
  · intro id hr
    rw [waiting, List.mem_append, List.mem_singleton]
    rcases shown id _ hr with old | ⟨own, -⟩
    · exact Or.inl (h.listed id old)
    · exact Or.inr own.symm
  · intro reason closed
    rw [still] at closed
    exact absurd closed (by simp)
  · intro id fault hr
    rcases shown id _ hr with old | ⟨-, new⟩
    · obtain ⟨reason, closed, -⟩ := h.told id fault old
      rw [opened] at closed
      exact absurd closed (by simp)
    · exact absurd new (by simp)

/-- An answer or a cancellation moves one waiting request out of the table and tells no fault. -/
private theorem attended_settle (h : c.Attended) (i : Nat) {s : Standing} (moved : s ≠ .waiting)
    (kind : ∀ reason, s ≠ .rejected reason) : (c.settle i s).Attended := by
  have shown : ∀ id r, (c.settle i s).receiver? id = some r →
      (id = i ∧ i ∈ c.waiting ∧ r = s.receiver) ∨
        (c.receiver? id = some r ∧ (id = i → i ∈ c.waiting → r ≠ .waiting)) := by
    intro id r hr
    rw [receiver?_settle] at hr
    by_cases here : id = i ∧ i ∈ c.waiting
    · rw [if_pos here] at hr
      obtain ⟨old, hold, rfl⟩ := Option.map_eq_some_iff.mp hr
      cases old with
      | waiting => exact Or.inl ⟨here.1, here.2, rfl⟩
      | _ => exact Or.inr ⟨hold, by simp [Receiver.settle]⟩
    · rw [if_neg here] at hr
      exact Or.inr ⟨hr, fun hid hi => absurd ⟨hid, hi⟩ here⟩
  refine ⟨?_, ?_, ?_⟩
  · intro id hr
    rw [waiting_settle, List.mem_filter, bne_iff_ne]
    rcases shown id _ hr with ⟨-, -, settled⟩ | ⟨old, other⟩
    · cases s <;> simp [Standing.receiver] at settled moved
    · have waits := h.listed id old
      exact ⟨waits, fun hid => other hid (hid ▸ waits) rfl⟩
  · intro reason closed
    rw [closedWith_settle] at closed
    rw [waiting_settle, h.emptied reason closed]
    rfl
  · intro id fault hr
    rw [closedWith_settle]
    rcases shown id _ hr with ⟨-, -, settled⟩ | ⟨old, -⟩
    · cases s with
      | rejected reason => exact absurd rfl (kind reason)
      | _ => simp [Standing.receiver] at settled
    · exact h.told id fault old

/-- A teardown tells its own reason only where it is the first one: a later one finds nobody. -/
private theorem attended_rejectAll (h : c.Attended) (reason : String) :
    (c.rejectAll reason).2.Attended := by
  have closed : (c.rejectAll reason).2.closedWith = some (c.closedWith.getD reason) := rfl
  refine ⟨?_, ?_, ?_⟩
  · intro id hr
    rw [receiver?_rejectAll] at hr
    by_cases hw : id ∈ c.waiting
    · rw [if_pos hw] at hr
      obtain ⟨old, -, filled⟩ := Option.map_eq_some_iff.mp hr
      cases old <;> simp [Receiver.fill] at filled
    · rw [if_neg hw] at hr
      exact absurd (h.listed id hr) hw
  · intro _ _
    rfl
  · -- A receiver that is told the new reason was waiting, so that there was no reason before.
    intro id fault hr
    have kept : c.receiver? id = some (.holding (.error fault)) →
        ∃ first, some (c.closedWith.getD reason) = some first ∧ fault = .abandoned first := by
      intro old
      obtain ⟨first, stored, rfl⟩ := h.told id fault old
      exact ⟨first, by rw [stored, Option.getD_some], rfl⟩
    rw [closed]
    rw [receiver?_rejectAll] at hr
    by_cases hw : id ∈ c.waiting
    · rw [if_pos hw] at hr
      have opened : c.closedWith = none := by
        cases stored : c.closedWith with
        | none => rfl
        | some first =>
          rw [h.emptied first stored] at hw
          exact absurd hw List.not_mem_nil
      obtain ⟨old, hold, filled⟩ := Option.map_eq_some_iff.mp hr
      cases old with
      | waiting =>
        have same : Fault.abandoned reason = fault := by simpa [Receiver.fill] using filled
        exact ⟨reason, by rw [opened, Option.getD_none], same.symm⟩
      | holding answer =>
        have same : Receiver.holding answer = .holding (.error fault) := filled
        exact kept (hold.trans (congrArg some same))
      | _ => simp [Receiver.fill] at filled
    · rw [if_neg hw] at hr
      exact kept hr

end Correlator

namespace Operation

private theorem eq_rejectAll_of_settles? {op : Operation} {id : Nat} {reason : String}
    (h : op.settles? id = some (.rejected reason)) : op = .rejectAll reason := by
  have answer : ∀ m : Message, m.settles? id ≠ some (.rejected reason) := by
    intro m
    unfold Message.settles?
    split <;> simp
  cases op with
  | dispatch m => exact absurd h (answer m)
  | dispatchPayload payload =>
    obtain ⟨m, -, hm⟩ := Option.bind_eq_some_iff.mp h
    exact absurd hm (answer m)
  | cancel i => by_cases hi : i = id <;> simp [settles?, hi] at h
  | rejectAll r =>
    have same : r = reason := by simpa [settles?] using h
    rw [same]
  | _ => simp [settles?] at h

theorem attended_run {c : Correlator} (h : c.Attended) (op : Operation) : (op.run c).Attended := by
  rcases op.run_cases c with ⟨-, -, -, effect⟩ | ⟨-, -, -, method, params, opened, effect⟩ |
    ⟨-, -, id, s, event, effect⟩ | ⟨-, -, reason, -, -, effect⟩ | ⟨-, -, -, effect⟩
  · rw [effect]
    exact ⟨h.listed, h.emptied, h.told⟩
  · rw [effect]
    exact attended_request h opened method params
  · rw [effect]
    have here : op.settles? id = some s := by rw [event, if_pos rfl]
    have elsewhere : op.settles? (id + 1) = none := by rw [event, if_neg (Nat.succ_ne_self id)]
    refine attended_settle h id ?_ ?_
    · rintro rfl
      exact op.settles?_ne_waiting id here
    · rintro reason rfl
      rw [eq_rejectAll_of_settles? here] at elsewhere
      simp [settles?] at elsewhere
  · rw [effect]
    exact attended_rejectAll h reason
  · rw [effect]
    exact h

theorem isSome_receiver?_run (c : Correlator) (op : Operation) (id : Nat) :
    ((op.run c).receiver? id).isSome ↔ (c.receiver? id).isSome ∨ id ∈ op.handed c := by
  rcases op.run_cases c with ⟨handed, -, -, effect⟩ |
    ⟨handed, -, -, method, params, opened, effect⟩ | ⟨handed, -, i, s, -, effect⟩ |
    ⟨handed, -, reason, -, -, effect⟩ | ⟨handed, -, -, effect⟩
  · rw [effect, handed, or_iff_left List.not_mem_nil]
    rfl
  · rw [effect, handed, receiver?_request opened, List.mem_singleton]
    by_cases own : c.nextId = id
    · simp [own]
    · simp [own, Ne.symm own]
  · rw [effect, handed, receiver?_settle, or_iff_left List.not_mem_nil]
    split <;> simp
  · rw [effect, handed, receiver?_rejectAll, or_iff_left List.not_mem_nil]
    split <;> simp
  · rw [effect, handed, or_iff_left List.not_mem_nil]

end Operation

namespace Happening

variable {c : Correlator}

private theorem run_aside (c : Correlator) (h : Happening) (aside : ∀ op, h ≠ used op) :
    h.run c = c ∨
      ∃ id r, (r = .closed ∨ r = .dropped) ∧ h.run c = c.updateReceiver id fun _ => r := by
  cases h with
  | used op => exact absurd rfl (aside op)
  | looked id =>
    have effect : (looked id).run c = (c.receive id).2 := rfl
    rw [effect]
    unfold receive
    split
    case h_5 => exact Or.inr ⟨id, .closed, Or.inl rfl, rfl⟩
    all_goals exact Or.inl rfl
  | left id =>
    have effect : (left id).run c = (c.dropReceiver id).2 := rfl
    rw [effect]
    unfold dropReceiver
    split
    case h_3 => exact Or.inr ⟨id, .dropped, Or.inr rfl, rfl⟩
    all_goals exact Or.inl rfl

private theorem used_or_aside (h : Happening) : (∃ op, h = used op) ∨ ∀ op, h ≠ used op := by
  cases h with
  | used op => exact Or.inl ⟨op, rfl⟩
  | _ => exact Or.inr (by simp)

theorem attended_run (h : c.Attended) (happening : Happening) : (happening.run c).Attended := by
  rcases used_or_aside happening with ⟨op, rfl⟩ | aside
  · exact Operation.attended_run h op
  · rcases run_aside c happening aside with same | ⟨id, r, quiet, change⟩
    · rw [same]
      exact h
    · rw [change]
      exact attended_updateReceiver h id quiet

theorem closedWith_run (c : Correlator) (happening : Happening) :
    (happening.run c).closedWith = c.closedWith.or happening.teardown? := by
  rcases used_or_aside happening with ⟨op, rfl⟩ | aside
  · by_cases teardown : ∃ reason, op = .rejectAll reason
    · obtain ⟨reason, rfl⟩ := teardown
      show some (c.closedWith.getD reason) = c.closedWith.or (some reason)
      cases c.closedWith <;> rfl
    · have other : ∀ reason, op ≠ .rejectAll reason := fun reason same => teardown ⟨reason, same⟩
      have silent : (used op).teardown? = none := by
        cases op with
        | rejectAll reason => exact absurd rfl (other reason)
        | _ => rfl
      rw [silent, Option.or_none]
      exact op.closedWith_run c other
  · have silent : happening.teardown? = none := by
      cases happening with
      | used op => exact absurd rfl (aside op)
      | _ => rfl
    rw [silent, Option.or_none]
    rcases run_aside c happening aside with same | ⟨id, r, -, change⟩
    · rw [same]
    · rw [change]
      rfl

theorem isSome_receiver?_run (c : Correlator) (happening : Happening) (id : Nat) :
    ((happening.run c).receiver? id).isSome ↔
      (c.receiver? id).isSome ∨ id ∈ happening.handed c := by
  rcases used_or_aside happening with ⟨op, rfl⟩ | aside
  · exact op.isSome_receiver?_run c id
  · have nobody : happening.handed c = [] := by
      cases happening with
      | used op => exact absurd rfl (aside op)
      | _ => rfl
    rw [nobody, or_iff_left List.not_mem_nil]
    rcases run_aside c happening aside with same | ⟨i, r, -, change⟩
    · rw [same]
    · rw [change, receiver?_updateReceiver]
      split <;> simp

theorem abandoned_of_mem_faults (h : c.Attended) {happening : Happening} {fault : Fault}
    (seen : fault ∈ happening.faults c) :
    ∃ reason, (happening.run c).closedWith = some reason ∧ fault = .abandoned reason := by
  have stored : ∀ reason, c.closedWith = some reason →
      (happening.run c).closedWith = some reason := by
    intro reason closed
    rw [closedWith_run, closed, Option.some_or]
  cases happening with
  | used op =>
    cases op with
    | request method params =>
      cases closed : c.closedWith with
      | none => simp [faults, request, closed] at seen
      | some reason =>
        have same : fault = .abandoned reason := by simpa [faults, request, closed] using seen
        exact ⟨reason, stored reason closed, same⟩
    | _ => exact absurd seen List.not_mem_nil
  | looked id =>
    have held : c.receiver? id = some (.holding (.error fault)) := by
      unfold faults receive at seen
      cases hr : c.receiver? id with
      | none => simp [hr] at seen
      | some r =>
        cases r with
        | holding answer =>
          cases answer with
          | ok m => simp [hr] at seen
          | error other =>
            have same : fault = other := by simpa [hr] using seen
            rw [same]
        | _ => simp [hr] at seen
    obtain ⟨reason, closed, rfl⟩ := h.told id fault held
    exact ⟨reason, stored reason closed, rfl⟩
  | left id => exact absurd seen List.not_mem_nil

end Happening

namespace Correlator

variable {c : Correlator}

theorem attended_through (h : c.Attended) (history : List Happening) :
    (c.through history).Attended := by
  induction history generalizing c with
  | nil => exact h
  | cons happening history ih => exact ih (Happening.attended_run h happening)

theorem closedWith_through (c : Correlator) (history : List Happening) :
    (c.through history).closedWith = c.closedWith.or (history.findSome? Happening.teardown?) := by
  induction history generalizing c with
  | nil => rw [List.findSome?_nil, Option.or_none]; rfl
  | cons happening history ih =>
    have rest := ih (happening.run c)
    rw [Happening.closedWith_run, Option.or_assoc] at rest
    rw [List.findSome?_cons]
    refine rest.trans ?_
    cases happening.teardown? <;> rfl

theorem isSome_receiver?_through (c : Correlator) (history : List Happening) (id : Nat) :
    ((c.through history).receiver? id).isSome ↔
      (c.receiver? id).isSome ∨ id ∈ Run.noted Happening.run Happening.handed c history := by
  induction history generalizing c with
  | nil => simp [through, Run.noted]
  | cons happening history ih =>
    have rest := ih (happening.run c)
    rw [Happening.isSome_receiver?_run, or_assoc] at rest
    rw [Run.noted, List.mem_append]
    exact rest

theorem abandoned_of_mem_noted (h : c.Attended) (history : List Happening) {fault : Fault}
    (seen : fault ∈ Run.noted Happening.run Happening.faults c history) :
    ∃ reason, (c.through history).closedWith = some reason ∧ fault = .abandoned reason := by
  induction history generalizing c with
  | nil => exact absurd seen List.not_mem_nil
  | cons happening history ih =>
    rw [Run.noted, List.mem_append] at seen
    rcases seen with now | later
    · obtain ⟨reason, closed, rfl⟩ := Happening.abandoned_of_mem_faults h now
      refine ⟨reason, ?_, rfl⟩
      show ((happening.run c).through history).closedWith = some reason
      rw [closedWith_through, closed, Option.some_or]
    · exact ih (Happening.attended_run h happening) later

end Correlator

/-- A receiver after a teardown: it holds a response, or the reason of the teardown, or its request
was cancelled or its answer taken, or its caller has gone away. -/
def Receiver.Settled (reason : String) : Receiver → Prop
  | .waiting => False
  | .holding (.error fault) => fault = .abandoned reason
  | .holding (.ok _) | .closed | .dropped => True

def Standing.Ended (reason : String) : Standing → Prop
  | .waiting => False
  | .delivered _ | .cancelled => True
  | .rejected told => told = reason

private theorem Receiver.Settled.ended {reason : String} {r : Receiver} {s : Standing}
    (h : r.Settled reason) (shown : r.standing? = some s) : s.Ended reason := by
  cases s with
  | waiting =>
    rw [Receiver.eq_waiting_of_standing? shown] at h
    exact h.elim
  | delivered m => trivial
  | cancelled => trivial
  | rejected told =>
    unfold Receiver.standing? at shown
    split at shown
    case h_3 other =>
      have same : other = told := by simpa using shown
      have first : Fault.abandoned other = .abandoned reason := h
      rw [same] at first
      exact Fault.abandoned.inj first
    all_goals simp at shown

private theorem settled_of_attended {c : Correlator} (h : c.Attended) {reason : String}
    (closed : c.closedWith = some reason) {id : Nat} {r : Receiver}
    (hr : c.receiver? id = some r) : r.Settled reason := by
  cases r with
  | waiting =>
    have waits := h.listed id hr
    rw [h.emptied reason closed] at waits
    exact absurd waits List.not_mem_nil
  | holding answer =>
    cases answer with
    | ok m => trivial
    | error fault =>
      obtain ⟨told, stored, same⟩ := h.told id fault hr
      rw [closed, Option.some.injEq] at stored
      show fault = .abandoned reason
      rw [same, stored]
  | closed => trivial
  | dropped => trivial

def withTeardown (before : List Happening) (reason : String) (later : List Happening) :
    List Happening :=
  before ++ .used (.rejectAll reason) :: later

/-- A correlator that was torn down for a reason, whatever has happened since. -/
structure TornDown (before : List Happening) (reason : String) (later : List Happening) : Prop where
  emptied : (new.through (withTeardown before reason later)).waiting = []
  closed : (new.through (withTeardown before reason later)).closedWith = some reason
  /-- A request is refused for that reason, takes no id and changes nothing. -/
  refused : ∀ method params,
    (new.through (withTeardown before reason later)).request method params =
      (.error (.abandoned reason), new.through (withTeardown before reason later))
  /-- Everybody who waited when it was torn down got its reason. -/
  rejected : ∀ id, (new.through before).receiver? id = some .waiting →
    (new.through (before ++ [.used (.rejectAll reason)])).receiver? id =
      some (.holding (.error (.abandoned reason)))
  /-- No receiver that was ever handed out waits any more. -/
  settled : ∀ id ∈ Run.noted Happening.run Happening.handed new (withTeardown before reason later),
    ∃ r, (new.through (withTeardown before reason later)).receiver? id = some r ∧ r.Settled reason
  /-- Where callers leave their receivers alone these show what became of the requests: each was
  answered, cancelled, or rejected for that reason. -/
  ended : ∀ ops, withTeardown before reason later = ops.map .used →
    ∀ id ∈ handedIds ops, ∃ s, (after ops).standing? id = some s ∧ s.Ended reason
  /-- Every fault that a caller has ever seen names that reason. -/
  told : ∀ fault ∈ Run.noted Happening.run Happening.faults new (withTeardown before reason later),
    fault = .abandoned reason

/-- The first teardown of a correlator strands nobody, and its reason is the only one ever told. -/
theorem tornDown_of_first (before : List Happening) (reason : String) (later : List Happening)
    (first : ∀ other, Happening.used (.rejectAll other) ∉ before) :
    TornDown before reason later := by
  have attended := attended_through attended_new (withTeardown before reason later)
  have never : before.findSome? Happening.teardown? = none := by
    rw [List.findSome?_eq_none_iff]
    intro happening member
    unfold Happening.teardown?
    split
    · next other => exact absurd member (first other)
    · rfl
  have closed : (new.through (withTeardown before reason later)).closedWith = some reason := by
    rw [closedWith_through, withTeardown, List.findSome?_append, never]
    rfl
  have settled : ∀ id ∈
      Run.noted Happening.run Happening.handed new (withTeardown before reason later),
      ∃ r, (new.through (withTeardown before reason later)).receiver? id = some r ∧
        r.Settled reason := by
    intro id handed
    have kept := (isSome_receiver?_through new _ id).mpr (Or.inr handed)
    obtain ⟨r, hr⟩ := Option.isSome_iff_exists.mp kept
    exact ⟨r, hr, settled_of_attended attended closed hr⟩
  refine ⟨attended.emptied reason closed, closed, ?_, ?_, settled, ?_, ?_⟩
  · intro method params
    rw [request, closed]
  · intro id waits
    have listed := (attended_through attended_new before).listed id waits
    rw [through_append]
    show ((new.through before).rejectAll reason).2.receiver? id = _
    rw [receiver?_rejectAll, if_pos listed, waits]
    rfl
  · intro ops all id handed
    obtain ⟨s, hs⟩ := Option.isSome_iff_exists.mp ((mem_handedIds ops id).mp handed)
    have same : new.through (withTeardown before reason later) = after ops := by
      rw [all, through_used]
      rfl
    rw [same] at attended closed
    refine ⟨s, hs, ?_⟩
    obtain ⟨r, hr, shown⟩ := Option.bind_eq_some_iff.mp hs
    exact (settled_of_attended attended closed hr).ended shown
  · intro fault seen
    obtain ⟨told, stored, rfl⟩ := abandoned_of_mem_noted attended_new _ seen
    rw [closed, Option.some.injEq] at stored
    rw [stored]

/-- Two requests wait at the first teardown; then one caller looks, another comes too late, and a
second teardown gives another reason. -/
theorem tornDown_twice :
    (∀ other, Happening.used (.rejectAll other) ∉
      [Happening.used (.request "a" .null), .used (.request "b" .null), .used (.cancel 7)]) ∧
    TornDown
      [.used (.request "a" .null), .used (.request "b" .null), .used (.cancel 7)] "output closed"
      [.looked 1, .used (.request "late" .null), .used (.rejectAll "stopped"), .looked 2,
        .used (.request "later" .null)] ∧
    Run.noted Happening.run Happening.faults new (withTeardown
      [.used (.request "a" .null), .used (.request "b" .null), .used (.cancel 7)] "output closed"
      [.looked 1, .used (.request "late" .null), .used (.rejectAll "stopped"), .looked 2,
        .used (.request "later" .null)]) = List.replicate 4 (.abandoned "output closed") := by
  have first : ∀ other, Happening.used (.rejectAll other) ∉
      [Happening.used (.request "a" .null), .used (.request "b" .null), .used (.cancel 7)] := by
    intro other
    simp
  exact ⟨first, tornDown_of_first _ _ _ first, rfl⟩

/-- A happening that leaves the receiver of a request alone, unless it rejects everybody. -/
inductive Happening.Spares (id : Nat) : Happening → Prop
  | request (method : String) (params : Json) : Spares id (.used (.request method params))
  | requestWithoutHandler (method : String) (params : Json) :
      Spares id (.used (.requestWithoutHandler method params))
  | cancel {other : Nat} (apart : id ≠ other) : Spares id (.used (.cancel other))
  | rejectAll (reason : String) : Spares id (.used (.rejectAll reason))
  | looked {other : Nat} (apart : id ≠ other) : Spares id (.looked other)
  | left {other : Nat} (apart : id ≠ other) : Spares id (.left other)

section Receivers

variable {c : Correlator} {id : Nat} {r : Receiver}

theorem Happening.Spares.receiver? {happening : Happening} (spares : happening.Spares id)
    (shown : c.receiver? id = some r) :
    (happening.run c).receiver? id = some r ∨
      ∃ fault, (happening.run c).receiver? id = some (r.fill (.error fault)) := by
  cases spares with
  | request method params =>
    left
    show (c.request method params).2.receiver? id = _
    cases closed : c.closedWith with
    | none => rw [receiver?_request closed, shown, Option.some_or]
    | some reason =>
      rw [Correlator.request, closed]
      exact shown
  | requestWithoutHandler method params => exact Or.inl shown
  | cancel apart =>
    left
    show (c.cancel _).2.receiver? id = _
    rw [cancel_eq_settle, receiver?_settle, if_neg fun both => apart both.1, shown]
  | rejectAll reason =>
    have effect := receiver?_rejectAll c reason id
    rw [shown] at effect
    by_cases hw : id ∈ c.waiting
    · rw [if_pos hw] at effect
      exact Or.inr ⟨_, effect⟩
    · rw [if_neg hw] at effect
      exact Or.inl effect
  | looked apart =>
    left
    show (c.receive _).2.receiver? id = _
    rw [receive]
    split
    case h_5 => rw [receiver?_updateReceiver, if_neg apart, shown]
    all_goals exact shown
  | left apart =>
    left
    show (c.dropReceiver _).2.receiver? id = _
    rw [dropReceiver]
    split
    case h_3 => rw [receiver?_updateReceiver, if_neg apart, shown]
    all_goals exact shown

private theorem receiver?_dispatch (shown : c.receiver? id = some r) (m : Message) :
    (c.dispatch m).2.receiver? id = some r ∨
      (c.dispatch m).1 = .delivered id ∧
        (c.dispatch m).2.receiver? id = some (r.fill (.ok m)) := by
  by_cases delivered : (c.dispatch m).1 = .delivered id
  · obtain ⟨response, own, waits⟩ := (c.dispatch_fst_eq_delivered m id).mp delivered
    refine Or.inr ⟨delivered, ?_⟩
    rw [c.dispatch_eq_settle response own, receiver?_settle, if_pos ⟨rfl, waits⟩, shown]
    cases r <;> rfl
  · left
    by_cases unaddressed : m.method ≠ none ∨ m.numericId? = none
    · rw [c.dispatch_unaddressed unaddressed, shown]
    · rw [not_or, not_not] at unaddressed
      obtain ⟨other, own⟩ := Option.ne_none_iff_exists'.mp unaddressed.2
      rw [c.dispatch_eq_settle unaddressed.1 own, receiver?_settle, if_neg, shown]
      rintro ⟨rfl, waits⟩
      exact delivered ((c.dispatch_fst_eq_delivered m id).mpr ⟨unaddressed.1, own, waits⟩)

theorem receiver?_dispatchPayload (shown : c.receiver? id = some r) (payload : Bytes) :
    (c.dispatchPayload payload).2.receiver? id = some r ∨
      ∃ m, Message.ofBytes? payload = some m ∧ (c.dispatch m).1 = .delivered id ∧
        (c.dispatchPayload payload).2.receiver? id = some (r.fill (.ok m)) := by
  rw [dispatchPayload]
  cases Message.ofBytes? payload with
  | none => exact Or.inl shown
  | some m =>
    rcases receiver?_dispatch shown m with same | ⟨delivered, filled⟩
    · exact Or.inl same
    · exact Or.inr ⟨m, rfl, delivered, filled⟩

end Receivers

end NotebookKernel.Rpc
