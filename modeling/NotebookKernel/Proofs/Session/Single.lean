import NotebookKernel.Proofs.Session.Registration

/-!
# A program by itself

A program is submitted to a session that nobody uses, and nothing else is submitted until it has an
outcome. It is written at once, or it fails because the interpreter has closed its input. Nothing
else is written then, and in the end nobody uses the session.
-/

set_option autoImplicit false

namespace NotebookKernel.Turns

/-- Later turns that nothing was submitted to in between. -/
inductive Reaches (turns : Turns) : Turns → Prop where
  | refl : turns.Reaches turns
  | next {later : Turns} {event : Happening} : turns.Reaches later →
      (∀ submission, event ≠ .submit submission) → turns.Reaches (later.next event)

theorem Reaches.trans {turns mid later : Turns} (first : turns.Reaches mid)
    (second : mid.Reaches later) : turns.Reaches later := by
  induction second with
  | refl => exact first
  | next _ quiet ih => exact ih.next quiet

theorem reaches_steps (turns : Turns) (n : Nat) :
    turns.Reaches ((List.replicate n Happening.step).foldl next turns) := by
  induction n generalizing turns with
  | zero => exact .refl
  | succ n ih =>
    have first : turns.Reaches (turns.next .step) := .next .refl nofun
    exact first.trans (ih (turns.next .step))

theorem reaches_settle (turns : Turns) : turns.Reaches turns.settle := by
  rw [← foldl_replicate_step (Nat.le_refl turns.load)]
  exact turns.reaches_steps turns.load

theorem reaches_settle_of_step (turns : Turns) : (turns.next .step).Reaches turns.settle := by
  rw [← foldl_replicate_step (Nat.le_succ turns.load), List.replicate_succ, List.foldl_cons]
  exact reaches_steps _ turns.load

theorem reaches_expire (turns : Turns) : turns.Reaches turns.expire :=
  show turns.Reaches (turns.next .expire) from .next .refl nofun

/-- The turns after an interpreter has acted, each act being noticed before the next one. -/
def react (acts : List Act) (turns : Turns) : Turns :=
  acts.foldl (fun turns act => (turns.observe act).settle) turns

theorem reaches_react (acts : List Act) (turns : Turns) : turns.Reaches (turns.react acts) := by
  induction acts generalizing turns with
  | nil => exact .refl
  | cons act acts ih =>
    have noticed : turns.Reaches (turns.next (.act act)) := .next .refl nofun
    exact (noticed.trans (reaches_settle _)).trans (ih _)

theorem outcome?_eq_none_iff {turns : Turns} {ticket : Nat} :
    turns.outcome? ticket = none ↔ ∀ o ∈ turns.outcomes, o.ticket ≠ ticket := by
  simp [outcome?]

theorem outcome?_of_isPrefix {turns later : Turns} {ticket : Nat} {value : Except Fault String}
    (grown : turns.outcomes <+: later.outcomes) (found : turns.outcome? ticket = some value) :
    later.outcome? ticket = some value := by
  obtain ⟨more, same⟩ := grown
  rw [outcome?, Option.map_eq_some_iff] at found ⊢
  obtain ⟨o, first, said⟩ := found
  refine ⟨o, ?_, said⟩
  rw [← same, List.find?_append, first, Option.some_or]

theorem outcome?_concat {turns later : Turns} {ticket : Nat} {value : Except Fault String}
    (fresh : turns.outcome? ticket = none)
    (outcomes : later.outcomes = turns.outcomes ++ [⟨ticket, value⟩]) :
    later.outcome? ticket = some value := by
  rw [outcome?, Option.map_eq_none_iff] at fresh
  rw [outcome?, outcomes, List.find?_append, fresh]
  simp

theorem Reaches.outcomes {turns later : Turns} (h : turns.Reaches later) :
    turns.outcomes <+: later.outcomes := by
  induction h with
  | refl => exact List.prefix_refl _
  | @next mid event _ _ ih => exact ih.trans (mid.outcomes_next event)

/-- Nobody has the session, nobody is in line for it, and no ticket to come has an outcome. -/
structure Resting (turns : Turns) : Prop where
  idle : turns.current = none
  line : turns.line = []
  tickets : ∀ o ∈ turns.outcomes, o.ticket < turns.nextTicket

theorem resting_new (session : Session) : (new session).Resting :=
  ⟨rfl, rfl, fun _ member => absurd member List.not_mem_nil⟩

private theorem kept_next {turns : Turns} (empty : turns.line = []) {event : Happening}
    (quiet : ∀ submission, event ≠ .submit submission) :
    (turns.next event).line = [] ∧ (turns.next event).nextTicket = turns.nextTicket ∧
      (turns.next event).session.key = turns.session.key ∧
      (turns.next event).session.written = turns.session.written := by
  have none : turns.enters event = [] := by
    cases event with
    | submit submission => exact absurd rfl (quiet submission)
    | act | step | expire => rfl
  have unsent : turns.sent event = [] := by
    cases event with
    | step => simp [sent, handed, empty]
    | submit | act | expire => rfl
  obtain ⟨line, next⟩ := turns.line_next event
  have written := (turns.carries_next event).written
  rw [empty, none] at line
  rw [none] at next
  rw [unsent, List.append_nil] at written
  exact ⟨List.sublist_nil.mp line, next, (turns.carries_next event).key, written⟩

theorem Resting.reaches {turns later : Turns} (h : turns.Resting) (reached : turns.Reaches later) :
    later.Resting ∧ later.session.key = turns.session.key ∧
      later.session.written = turns.session.written := by
  induction reached with
  | refl => exact ⟨h, rfl, rfl⟩
  | @next mid event _ quiet ih =>
    obtain ⟨⟨idle, line, tickets⟩, key, written⟩ := ih
    obtain ⟨empty, next, sameKey, sameWritten⟩ := kept_next line quiet
    refine ⟨?_, sameKey.trans key, sameWritten.trans written⟩
    rcases next_idle idle event with ⟨still, outcomes⟩ | ⟨-, _, _, _, first⟩
    · refine ⟨still, empty, ?_⟩
      rw [outcomes, next]
      exact tickets
    · rw [line] at first
      cases first

/-- A turn without a limit has the session, and nothing is left that could end it: the output is
open, all of it is read, and the sentinel has not arrived. -/
structure Stalled (turns : Turns) (sentinel : Bytes) : Prop where
  turn : ∃ turn, turns.current = some turn ∧ turn.limit = none ∧
    ¬ sentinel <:+: turn.call.stdout.buffer.toList
  read : turns.session.output.queue = []
  opened : turns.session.isClosed = false

theorem Attends.stalled {turns : Turns} {turn : Turn} {sentinel out err : Bytes}
    (h : turns.Attends turn sentinel out err) (nonempty : sentinel ≠ [])
    (patient : turn.limit = none) (stuck : turns.step = none) : turns.Stalled sentinel := by
  obtain ⟨current, early, heardOut, heardErr, heard, -, -⟩ := h
  obtain ⟨empty, opened⟩ := queue_nil_of_stuck current stuck
  refine ⟨⟨turn, current, patient, ?_⟩, empty, opened⟩
  rw [heard.stdout.gathered, ← heard.stdout.isFound_iff nonempty, early]
  exact Bool.false_ne_true

theorem step_react {turns : Turns} (stuck : turns.step = none) (acts : List Act) :
    (turns.react acts).step = none := by
  induction acts generalizing turns with
  | nil => exact stuck
  | cons act acts ih => exact ih (step_settle (turns.observe act))

theorem step_expire {turns : Turns} (stuck : turns.step = none) (line : turns.line = []) :
    turns.expire.step = none := by
  rw [expire]
  split
  · split
    · simp [step, conclude, line]
    · exact stuck
  · exact stuck

/-- The last submission is served: nobody is in line behind it, and it has the turn with its limit,
or it has an outcome and nobody has the turn. -/
structure Serves (turns : Turns) (ticket : Nat) (submission : Submission) : Prop where
  line : turns.line = []
  next : turns.nextTicket = ticket + 1
  tickets : ∀ o ∈ turns.outcomes, o.ticket < turns.nextTicket
  served :
    (∃ turn out err, turns.Attends turn (Utf8.ofString submission.sentinel) out err ∧
        turn.ticket = ticket ∧ turn.limit = submission.limit ∧ turns.outcome? ticket = none) ∨
      (turns.current = none ∧ ∃ value, turns.outcome? ticket = some value)

private theorem serves_concluded {turns : Turns} {ticket : Nat} {submission : Submission}
    {before : Turns} {value : Except Fault String} (line : turns.line = [])
    (next : turns.nextTicket = ticket + 1)
    (fresh : before.outcome? ticket = none) (tickets : ∀ o ∈ before.outcomes, o.ticket < ticket + 1)
    (idle : turns.current = none) (outcomes : turns.outcomes = before.outcomes ++ [⟨ticket, value⟩]) :
    turns.Serves ticket submission := by
  refine ⟨line, next, ?_, Or.inr ⟨idle, value, outcome?_concat fresh outcomes⟩⟩
  intro o member
  rw [outcomes] at member
  rw [next]
  rcases List.mem_append.mp member with old | last
  · exact tickets o old
  · rw [List.mem_singleton.mp last]
    exact Nat.lt_succ_self ticket

private theorem serves_next {turns : Turns} {ticket : Nat} {submission : Submission}
    (h : turns.Serves ticket submission) {event : Happening}
    (quiet : ∀ submission, event ≠ .submit submission) :
    (turns.next event).Serves ticket submission := by
  obtain ⟨line, next, tickets, served⟩ := h
  obtain ⟨empty, same, -, -⟩ := kept_next line quiet
  rcases served with ⟨turn, out, err, attends, rfl, patience, fresh⟩ | ⟨idle, value, found⟩
  · rcases pursues_next attends.current event with ⟨again, goes, own, limit, outcomes⟩ |
      ⟨gone, value, outcomes⟩
    · have attending : (turns.next event).Attends again (Utf8.ofString submission.sentinel)
          (out ++ turns.printed event) (err ++ turns.complained event) := by
        rcases attends.next event with ⟨other, -, later, -⟩ | ⟨gone, -⟩
        · obtain rfl : again = other := Option.some.inj (goes.symm.trans later.current)
          exact later
        · rw [gone] at goes
          cases goes
      refine ⟨empty, same.trans next, ?_,
        Or.inl ⟨again, _, _, attending, own, limit.trans patience, ?_⟩⟩
      · rw [outcomes, same]
        exact tickets
      · rw [outcome?, outcomes]
        exact fresh
    · rw [next] at tickets
      exact serves_concluded empty (same.trans next) fresh tickets gone outcomes
  · rcases next_idle idle event with ⟨still, outcomes⟩ | ⟨-, _, _, _, first⟩
    · refine ⟨empty, same.trans next, ?_, Or.inr ⟨still, value, ?_⟩⟩
      · rw [outcomes, same]
        exact tickets
      · rw [outcome?, outcomes]
        exact found
    · rw [line] at first
      cases first

theorem Serves.reaches {turns later : Turns} {ticket : Nat} {submission : Submission}
    (h : turns.Serves ticket submission) (reached : turns.Reaches later) :
    later.Serves ticket submission ∧ later.session.key = turns.session.key ∧
      later.session.written = turns.session.written := by
  induction reached with
  | refl => exact ⟨h, rfl, rfl⟩
  | next _ quiet ih =>
    obtain ⟨serves, key, written⟩ := ih
    obtain ⟨-, -, sameKey, sameWritten⟩ := kept_next serves.line quiet
    exact ⟨serves_next serves quiet, sameKey.trans key, sameWritten.trans written⟩

theorem Serves.resting {turns : Turns} {ticket : Nat} {submission : Submission}
    (h : turns.Serves ticket submission) (free : turns.current = none) : turns.Resting :=
  ⟨free, h.line, h.tickets⟩

/-- A program that is submitted to a session at rest is written at once, and nothing else is; or it
fails, because the interpreter has closed its input. -/
theorem serves_begun {turns : Turns} (h : turns.Resting) (submission : Submission) :
    ((turns.submit submission).2.next .step).Serves turns.nextTicket submission ∧
      ((turns.submit submission).2.next .step).session.key = turns.session.key ∧
      (((turns.submit submission).2.next .step).session.written =
          turns.session.written ++ [payload submission.program] ∨
        (((turns.submit submission).2.next .step).session.written = turns.session.written ∧
          ((turns.submit submission).2.next .step).outcome? turns.nextTicket =
            some (.error .processExited))) := by
  have idle : (turns.submit submission).2.current = none := h.idle
  have first : (turns.submit submission).2.line = (turns.nextTicket, submission) :: [] := by
    rw [submit, h.line]
    rfl
  have next : (turns.submit submission).2.nextTicket = turns.nextTicket + 1 := rfl
  have fresh : (turns.submit submission).2.outcome? turns.nextTicket = none :=
    outcome?_eq_none_iff.mpr fun o member => Nat.ne_of_lt (h.tickets o member)
  have tickets : ∀ o ∈ (turns.submit submission).2.outcomes, o.ticket < turns.nextTicket + 1 :=
    fun o member => Nat.lt_succ_of_lt (h.tickets o member)
  have carried := (turns.submit submission).2.carries_next .step
  obtain ⟨line, began⟩ := next_begin idle first
  have same := (turns.submit submission).2.onward_step.nextTicket.trans next
  refine ⟨?_, carried.key, ?_⟩
  · rcases began with ⟨turn, own, limit, attends, outcomes⟩ | ⟨-, gone, outcomes⟩
    · refine ⟨line, same, ?_, Or.inl ⟨turn, [], [], attends, own, limit, ?_⟩⟩
      · rw [outcomes, same]
        exact tickets
      · rw [outcome?, outcomes]
        exact fresh
    · exact serves_concluded line same fresh tickets gone outcomes
  · rcases began with ⟨turn, own, -, attends, -⟩ | ⟨-, gone, outcomes⟩
    · have sent : (turns.submit submission).2.sent .step = [payload submission.program] := by
        simp [sent, handed, idle, attends.current, first]
      rw [carried.written, sent]
      exact Or.inl rfl
    · have sent : (turns.submit submission).2.sent .step = [] := by
        simp [sent, handed, gone]
      rw [carried.written, sent, List.append_nil]
      exact Or.inr ⟨rfl, outcome?_concat fresh outcomes⟩

theorem Serves.expire {turns : Turns} {ticket : Nat} {submission : Submission}
    (h : turns.Serves ticket submission) :
    turns.expire.current = none ∧ (∃ value, turns.expire.outcome? ticket = some value) ∨
      submission.limit = none ∧ turns.expire.outcome? ticket = none := by
  rcases (h.reaches (reaches_expire turns)).1.served with
    ⟨turn, out, err, attends, -, own, fresh⟩ | ended
  · cases limited : submission.limit with
    | none => exact Or.inr ⟨rfl, fresh⟩
    | some most =>
      have current := attends.current
      rcases h.served with ⟨before, _, _, held, -, own, -⟩ | ⟨idle, -⟩
      · have ends : turns.expire.current = none := by
          rw [Turns.expire, held.current]
          dsimp only
          rw [own, limited]
          rfl
        rw [current] at ends
        cases ends
      · rw [Turns.expire, idle] at current
        dsimp only at current
        rw [idle] at current
        cases current
  · exact Or.inl ended

/-- A submission without an outcome is waited for when nothing is left to be done. -/
theorem Serves.stalled {turns : Turns} {ticket : Nat} {submission : Submission}
    (h : turns.Serves ticket submission) (named : submission.sentinel ≠ "")
    (patient : submission.limit = none) (fresh : turns.outcome? ticket = none)
    (stuck : turns.step = none) : turns.Stalled (Utf8.ofString submission.sentinel) := by
  rcases h.served with ⟨turn, out, err, attends, -, own, -⟩ | ⟨-, value, found⟩
  · exact attends.stalled (Utf8.ofString_ne_nil named) (own.trans patient) stuck
  · rw [found] at fresh
    cases fresh

end NotebookKernel.Turns
