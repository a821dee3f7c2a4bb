import NotebookKernel.Proofs.Rpc.Operation
import NotebookKernel.Proofs.Run

/-!
# Exactly one outcome for every request

Whatever is done with a correlator and in whatever order, ids are taken one after another, every
request with a caller waits until the first operation that settles it, and stays settled so.
-/

set_option autoImplicit false

namespace NotebookKernel.Rpc

open Correlator

namespace Operation

variable {c : Correlator}

private theorem lt_of_mem_waiting (h : c.Sound) {id : Nat} (hw : id ∈ c.waiting) :
    id < c.nextId := by
  by_contra hle
  have waits := (h.listed id).mp hw
  rw [h.fresh id (Nat.le_of_not_lt hle)] at waits
  exact absurd waits (by simp)

private theorem mem_handed_bounds {op : Operation} {id : Nat} (hid : id ∈ op.handed c) :
    c.nextId ≤ id ∧ id < (op.run c).nextId := by
  have taken := (op.handed_sublist c).subset hid
  rw [op.taken_eq_range c, List.mem_range'_1] at taken
  rw [op.nextId_run c]
  exact taken

private theorem nodup_handed (op : Operation) : (op.handed c).Nodup := by
  have range : (op.taken c).Nodup := by
    rw [op.taken_eq_range c]
    exact List.nodup_range'
  exact (op.handed_sublist c).nodup range

theorem sound_run (h : c.Sound) (op : Operation) : (op.run c).Sound := by
  have old : ∀ id, id ∈ op.handed c → c.receiver? id = none := by
    intro id hid
    exact h.fresh id (mem_handed_bounds hid).1
  refine ⟨?_, ?_, ?_, ?_⟩
  · intro id hle
    have later : c.nextId ≤ id := by
      rw [op.nextId_run c] at hle
      omega
    have new : id ∉ op.handed c := by
      intro hid
      have below := (mem_handed_bounds hid).2
      omega
    rw [receiver?_run h, if_neg new, h.fresh id later]
    rfl
  · rw [op.waiting_run c]
    refine List.Nodup.append (h.nodup.filter _) (nodup_handed op) ?_
    intro id hw hid
    have below := lt_of_mem_waiting h (List.mem_of_mem_filter hw)
    have above := (mem_handed_bounds hid).1
    omega
  · intro id
    rw [op.waiting_run c, receiver?_run h, List.mem_append, List.mem_filter]
    by_cases hid : id ∈ op.handed c
    · simp [hid]
    · rw [if_neg hid, h.listed id]
      cases hr : c.receiver? id with
      | none => simp [hid]
      | some r =>
        have waits := Receiver.settle_eq_waiting (op.settles?_ne_waiting id) r
        simp [hid, waits]
  · intro id r hr
    rw [receiver?_run h] at hr
    by_cases hid : id ∈ op.handed c
    · rw [if_pos hid, Option.some.injEq] at hr
      subst hr
      rfl
    · rw [if_neg hid] at hr
      obtain ⟨r', hr', rfl⟩ := Option.map_eq_some_iff.mp hr
      obtain ⟨s, hs⟩ := Option.isSome_iff_exists.mp (h.shown id r' hr')
      rw [Receiver.standing?_settle hs]
      rfl

theorem standing?_run (h : c.Sound) (op : Operation) (id : Nat) :
    (op.run c).standing? id =
      if id ∈ op.handed c then some .waiting
      else (c.standing? id).map fun s => s.after (op.settles? id) := by
  rw [standing?, standing?, receiver?_run h]
  by_cases hid : id ∈ op.handed c
  · rw [if_pos hid, if_pos hid]
    rfl
  · rw [if_neg hid, if_neg hid]
    cases hr : c.receiver? id with
    | none => rfl
    | some r =>
      obtain ⟨s, hs⟩ := Option.isSome_iff_exists.mp (h.shown id r hr)
      rw [Option.map_some, Option.bind_some, Option.bind_some, Receiver.standing?_settle hs, hs,
        Option.map_some]

theorem standing?_eq_none_of_handed (h : c.Sound) {op : Operation} {id : Nat}
    (hid : id ∈ op.handed c) : c.standing? id = none := by
  rw [standing?, h.fresh id (mem_handed_bounds hid).1]
  rfl

theorem reply?_eq_delivered (c : Correlator) (op : Operation) (id : Nat) :
    op.reply? c = some (.delivered id) ↔
      id ∈ c.waiting ∧ ∃ m, op.message? = some m ∧ op.settles? id = some (.delivered m) := by
  have routed : ∀ m : Message, (c.dispatch m).1 = .delivered id ↔
      id ∈ c.waiting ∧ m.settles? id = some (.delivered m) := by
    intro m
    rw [dispatch_fst_eq_delivered]
    by_cases hm : m.method = none ∧ m.numericId? = some id
    · simp [Message.settles?, hm.1, hm.2]
    · simp only [Message.settles?, hm, if_false, reduceCtorEq, and_false, iff_false]
      exact fun h => hm ⟨h.1, h.2.1⟩
  cases op with
  | dispatch m => simp [reply?, message?, settles?, routed]
  | dispatchPayload payload =>
    cases parsed : Message.ofBytes? payload with
    | none =>
      simp [reply?, message?, Correlator.dispatchPayload, parsed, Except.toOption]
    | some m =>
      simp [reply?, message?, settles?, Correlator.dispatchPayload, parsed, Except.toOption, routed]
  | _ => simp [reply?, message?]

/-- What an operation says it has delivered to a request is what its receiver has got since. -/
theorem answers_run (h : c.Sound) (op : Operation) (id : Nat) :
    ((op.run c).standing? id).elim [] Standing.answers =
      (c.standing? id).elim [] Standing.answers ++ op.delivered id c := by
  have said := op.reply?_eq_delivered c id
  rw [standing?_run h, delivered]
  by_cases hid : id ∈ op.handed c
  · have unlisted : id ∉ c.waiting := by
      intro hw
      have below := lt_of_mem_waiting h hw
      have above := (mem_handed_bounds hid).1
      omega
    have silent : op.reply? c ≠ some (.delivered id) := fun hr => unlisted (said.mp hr).1
    rw [if_pos hid, if_neg silent, standing?_eq_none_of_handed h hid]
    rfl
  · rw [if_neg hid]
    by_cases hw : id ∈ c.waiting
    · rw [(h.mem_waiting id).mp hw]
      by_cases hr : op.reply? c = some (.delivered id)
      · obtain ⟨-, m, hm, event⟩ := said.mp hr
        rw [if_pos hr, hm, event]
        rfl
      · rw [if_neg hr]
        cases event : op.settles? id with
        | none => rfl
        | some s =>
          cases s with
          | delivered m =>
            exact absurd (said.mpr ⟨hw, m, (routed_of_settles? event).1, event⟩) hr
          | _ => rfl
    · have silent : op.reply? c ≠ some (.delivered id) := fun hr => hw (said.mp hr).1
      rw [if_neg silent]
      cases hs : c.standing? id with
      | none => rfl
      | some s =>
        have settled : s ≠ .waiting := by
          rintro rfl
          exact hw ((h.mem_waiting id).mpr hs)
        rw [Option.map_some, Standing.after_of_settled settled]
        simp

end Operation

def runFrom (c : Correlator) (ops : List Operation) : Correlator :=
  ops.foldl Operation.run c

section Runs

variable {c : Correlator}

theorem sound_runFrom (h : c.Sound) (ops : List Operation) : (runFrom c ops).Sound := by
  induction ops generalizing c with
  | nil => exact h
  | cons op ops ih => exact ih (Operation.sound_run h op)

theorem standing?_runFrom (h : c.Sound) {id : Nat} {s : Standing} (hs : c.standing? id = some s)
    (ops : List Operation) :
    (runFrom c ops).standing? id = some (s.after (ops.findSome? (Operation.settles? id))) := by
  induction ops generalizing c s with
  | nil => rw [List.findSome?_nil, Standing.after_none]; exact hs
  | cons op ops ih =>
    have old : id ∉ op.handed c := by
      intro hid
      rw [Operation.standing?_eq_none_of_handed h hid] at hs
      exact absurd hs (by simp)
    have next : (op.run c).standing? id = some (s.after (op.settles? id)) := by
      rw [Operation.standing?_run h, if_neg old, hs, Option.map_some]
    have rest := ih (Operation.sound_run h op) next
    rw [Standing.after_after (op.settles?_ne_waiting id)] at rest
    have first : (op :: ops).findSome? (Operation.settles? id) =
        (op.settles? id).or (ops.findSome? (Operation.settles? id)) := by
      rw [List.findSome?_cons]
      cases op.settles? id <;> rfl
    rw [first]
    exact rest

theorem taken_eq_range_runFrom (c : Correlator) (ops : List Operation) :
    Run.noted Operation.run Operation.taken c ops =
      List.range' c.nextId (Run.noted Operation.run Operation.taken c ops).length := by
  induction ops generalizing c with
  | nil => rfl
  | cons op ops ih =>
    rw [Run.noted, List.length_append, ← List.range'_append_1, ← op.nextId_run c, ← ih (op.run c),
      ← op.taken_eq_range c]

theorem handed_sublist_runFrom (c : Correlator) (ops : List Operation) :
    (Run.noted Operation.run Operation.handed c ops).Sublist
      (Run.noted Operation.run Operation.taken c ops) := by
  induction ops generalizing c with
  | nil => exact List.Sublist.refl _
  | cons op ops ih => exact (op.handed_sublist c).append (ih (op.run c))

theorem isSome_standing?_runFrom (h : c.Sound) (ops : List Operation) (id : Nat) :
    ((runFrom c ops).standing? id).isSome ↔
      (c.standing? id).isSome ∨ id ∈ Run.noted Operation.run Operation.handed c ops := by
  induction ops generalizing c with
  | nil => simp [runFrom, Run.noted]
  | cons op ops ih =>
    have step : ((op.run c).standing? id).isSome ↔
        (c.standing? id).isSome ∨ id ∈ op.handed c := by
      rw [Operation.standing?_run h]
      by_cases hid : id ∈ op.handed c <;> simp [hid]
    have rest := ih (Operation.sound_run h op)
    rw [step, or_assoc] at rest
    rw [Run.noted, List.mem_append]
    exact rest

theorem answers_runFrom (h : c.Sound) (ops : List Operation) (id : Nat) :
    ((runFrom c ops).standing? id).elim [] Standing.answers =
      (c.standing? id).elim [] Standing.answers ++
        Run.noted Operation.run (Operation.delivered id) c ops := by
  induction ops generalizing c with
  | nil => simp [runFrom, Run.noted]
  | cons op ops ih =>
    have rest := ih (Operation.sound_run h op)
    rw [Operation.answers_run h, List.append_assoc] at rest
    exact rest

end Runs

theorem closedWith_runFrom (c : Correlator) {ops : List Operation}
    (h : ∀ reason, Operation.rejectAll reason ∉ ops) :
    (runFrom c ops).closedWith = c.closedWith := by
  induction ops generalizing c with
  | nil => rfl
  | cons op ops ih =>
    have rest : ∀ reason, Operation.rejectAll reason ∉ ops := by
      intro reason member
      exact h reason (List.mem_cons_of_mem _ member)
    have one : ∀ reason, op ≠ .rejectAll reason := by
      rintro reason rfl
      exact h reason List.mem_cons_self
    exact (ih (op.run c) rest).trans (op.closedWith_run c one)

def after (ops : List Operation) : Correlator :=
  runFrom new ops

def takenIds (ops : List Operation) : List Nat :=
  Run.noted Operation.run Operation.taken new ops

def handedIds (ops : List Operation) : List Nat :=
  Run.noted Operation.run Operation.handed new ops

/-- The messages that some operations say they have delivered to a request. -/
def deliveries (id : Nat) (ops : List Operation) : List Message :=
  Run.noted Operation.run (Operation.delivered id) new ops

theorem sound_after (ops : List Operation) : (after ops).Sound :=
  sound_runFrom sound_new ops

theorem after_append (ops more : List Operation) : after (ops ++ more) = runFrom (after ops) more :=
  List.foldl_append

theorem mem_handedIds (ops : List Operation) (id : Nat) :
    id ∈ handedIds ops ↔ ((after ops).standing? id).isSome := by
  rw [after, isSome_standing?_runFrom sound_new]
  have none_yet : new.standing? id = none := rfl
  simp [handedIds, none_yet]

theorem pendingCount_after (ops : List Operation) :
    (after ops).pendingCount =
      (handedIds ops).countP fun id => ((after ops).standing? id).any Standing.isWaiting := by
  have nodup : (handedIds ops).Nodup := by
    have range : (takenIds ops).Nodup := by
      rw [takenIds, taken_eq_range_runFrom]
      exact List.nodup_range'
    exact (handed_sublist_runFrom new ops).nodup range
  rw [List.countP_eq_length_filter]
  refine List.Perm.length_eq ?_
  refine (List.perm_ext_iff_of_nodup (sound_after ops).nodup (nodup.filter _)).mpr ?_
  intro id
  rw [(sound_after ops).mem_waiting id, List.mem_filter, mem_handedIds]
  cases hs : (after ops).standing? id with
  | none => simp
  | some s => cases s <;> simp [Standing.isWaiting]

/-- Exactly-once correlation, for a correlator that some operations have been applied to. -/
structure ExactlyOnce (ops : List Operation) : Prop where
  /-- Ids start at one, go up by one, and none is taken twice. -/
  ids : takenIds ops = List.range' 1 (takenIds ops).length
  /-- They fit a machine word as long as fewer of them are taken than there are words. -/
  words : (takenIds ops).length < Text.wordBound → ∀ id ∈ takenIds ops, id < Text.wordBound
  /-- As long as nothing has rejected everything, no request is refused. -/
  accepted : (∀ reason, Operation.rejectAll reason ∉ ops) →
    ∀ method params, ∃ request, ((after ops).request method params).1 = .ok request
  /-- A refused request takes no id and changes nothing else. -/
  refused : ∀ method params fault, ((after ops).request method params).1 = .error fault →
    ((after ops).request method params).2 = after ops
  /-- Every id that was handed out has a standing, and no other id has one. -/
  standing : ∀ id, id ∈ handedIds ops ↔ ((after ops).standing? id).isSome
  /-- A request stands where the first later operation that settles it has put it. -/
  history : ∀ before method params later request,
    ops = before ++ .request method params :: later →
    ((after before).request method params).1 = .ok request →
    (after ops).standing? request.id =
      some ((later.findSome? (Operation.settles? request.id)).getD .waiting)
  /-- A request that does not wait any more keeps its standing. -/
  settled : ∀ id s more, (after ops).standing? id = some s → s ≠ .waiting →
    (after (ops ++ more)).standing? id = some s
  /-- The table lists the waiting requests. -/
  waiting : ∀ id, id ∈ (after ops).waiting ↔ (after ops).standing? id = some .waiting
  pending : (after ops).pendingCount =
    (handedIds ops).countP fun id => ((after ops).standing? id).any Standing.isWaiting
  /-- A receiver has got what was said to be delivered to it, and that is one message at most. -/
  delivered : ∀ id, deliveries id ops = ((after ops).standing? id).elim [] Standing.answers ∧
    (deliveries id ops).length ≤ 1
  /-- The message in a receiver has no method and the number of the request. -/
  answered : ∀ id m, (after ops).receiver? id = some (.holding (.ok m)) →
    m.method = none ∧ m.numericId? = some id ∧ m ∈ deliveries id ops
  dispatched : ∀ m id, ((after ops).dispatch m).1 = .delivered id ↔
    m.method = none ∧ m.numericId? = some id ∧ id ∈ (after ops).waiting
  dispatchedPayload : ∀ payload id,
    ((after ops).dispatchPayload payload).1.toOption = some (.delivered id) ↔
      ∃ m, Message.ofBytes? payload = some m ∧
        m.method = none ∧ m.numericId? = some id ∧ id ∈ (after ops).waiting
  /-- What is no response with a number changes nothing, and neither does what is no message. -/
  unaddressed : ∀ m, m.method ≠ none ∨ m.numericId? = none →
    ((after ops).dispatch m).2 = after ops ∧
      ∀ payload, Message.ofBytes? payload = some m →
        ((after ops).dispatchPayload payload).2 = after ops
  unparsed : ∀ payload, Message.ofBytes? payload = none →
    (after ops).dispatchPayload payload = (.error (.protocolParse .payloadNotMessage), after ops)

private theorem standing?_accepted (before : List Operation) {method : String} {params : Json}
    {request : Request} (accepted : ((after before).request method params).1 = .ok request) :
    (after (before ++ [.request method params])).standing? request.id = some .waiting := by
  have handed : request.id ∈ (Operation.request method params).handed (after before) := by
    simp [Operation.handed, accepted, Except.toOption]
  rw [after_append]
  exact (Operation.standing?_run (sound_after before) _ _).trans (if_pos handed)

private theorem length_answers_le (s? : Option Standing) :
    (s?.elim [] Standing.answers).length ≤ 1 := by
  cases s? with
  | none => exact Nat.zero_le _
  | some s => cases s <;> simp [Standing.answers]

private theorem settles?_of_delivered {id : Nat} {m : Message} (c : Correlator)
    (ops : List Operation) (hm : m ∈ Run.noted Operation.run (Operation.delivered id) c ops) :
    ∃ op ∈ ops, op.settles? id = some (.delivered m) := by
  induction ops generalizing c with
  | nil => exact absurd hm List.not_mem_nil
  | cons op ops ih =>
    rw [Run.noted, List.mem_append] at hm
    rcases hm with now | later
    · unfold Operation.delivered at now
      split at now
      · next said =>
        obtain ⟨-, m', routed, event⟩ := (op.reply?_eq_delivered c id).mp said
        rw [routed, Option.toList_some, List.mem_singleton] at now
        subst now
        exact ⟨op, List.mem_cons_self, event⟩
      · exact absurd now List.not_mem_nil
    · obtain ⟨op', hop, event⟩ := ih _ later
      exact ⟨op', List.mem_cons_of_mem _ hop, event⟩

/-- Exactly-once correlation holds of every correlator. -/
theorem exactlyOnce (ops : List Operation) : ExactlyOnce ops where
  ids := taken_eq_range_runFrom new ops
  words := by
    intro few id hid
    rw [takenIds, taken_eq_range_runFrom, List.mem_range'_1] at hid
    have below : id < 1 + (takenIds ops).length := hid.2
    omega
  accepted := by
    intro never method params
    have opened : (after ops).closedWith = none := closedWith_runFrom new never
    unfold request
    rw [opened]
    exact ⟨_, rfl⟩
  refused := by
    intro method params fault refused
    unfold request at refused ⊢
    cases closed : (after ops).closedWith with
    | none => simp [closed] at refused
    | some reason => rfl
  standing := mem_handedIds ops
  history := by
    intro before method params later request split accepted
    have waits := standing?_accepted before accepted
    have rest := standing?_runFrom (sound_after _) waits later
    rw [← after_append, List.append_assoc, List.singleton_append, ← split,
      Standing.waiting_after] at rest
    exact rest
  settled := by
    intro id s more hs ended
    rw [after_append, standing?_runFrom (sound_after ops) hs, Standing.after_of_settled ended]
  waiting := (sound_after ops).mem_waiting
  pending := pendingCount_after ops
  delivered := by
    intro id
    have got := answers_runFrom sound_new ops id
    have same : deliveries id ops = ((after ops).standing? id).elim [] Standing.answers := got.symm
    exact ⟨same, same ▸ length_answers_le _⟩
  answered := by
    intro id m holds
    have shown : (after ops).standing? id = some (.delivered m) := by
      rw [standing?, holds]
      rfl
    have got : m ∈ deliveries id ops := by
      have same := answers_runFrom sound_new ops id
      have mem : m ∈ ((after ops).standing? id).elim [] Standing.answers := by
        rw [shown]
        exact List.mem_singleton_self m
      rw [after, same] at mem
      exact mem
    obtain ⟨op, -, event⟩ := settles?_of_delivered new ops got
    obtain ⟨-, unnamed, numbered⟩ := Operation.routed_of_settles? event
    exact ⟨unnamed, numbered, got⟩
  dispatched := (after ops).dispatch_fst_eq_delivered
  dispatchedPayload := by
    intro payload id
    rw [dispatchPayload]
    cases parsed : Message.ofBytes? payload with
    | none => simp [Except.toOption]
    | some m => simp [Except.toOption, dispatch_fst_eq_delivered]
  unaddressed := by
    intro m h
    refine ⟨dispatch_unaddressed _ h, ?_⟩
    intro payload parsed
    rw [dispatchPayload, parsed]
    exact dispatch_unaddressed _ h
  unparsed := by
    intro payload unparsed
    rw [dispatchPayload, unparsed]

end NotebookKernel.Rpc
