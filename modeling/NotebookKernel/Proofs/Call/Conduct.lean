import NotebookKernel.Proofs.Call
import NotebookKernel.Proofs.Run

/-!
# The conduct of a call

A call is told that its program was sent, hears chunks of the two streams and is finished, in any
order and any number of times. Whatever the order, its phase goes forward, what it does not listen
to leaves no trace, and it gives one outcome at most. That outcome is the verdict on the bytes that
the call accepted, so that neither their cutting nor the order of the two streams counts.
-/

set_option autoImplicit false

namespace NotebookKernel.Call

inductive Operation where
  | markSent
  | onStdout (chunk : Bytes)
  | onStderr (chunk : Bytes)
  | finish
deriving DecidableEq, Repr

/-- What can be seen of a call: its phase, and what it was finished with. -/
structure Answer where
  phase : Phase
  result : Option (Except Fault String)

/-- A text or complaints, and no refusal. -/
def isOutcome : Except Fault String → Bool
  | .ok _ => true
  | .error (.evaluation _) => true
  | .error _ => false

namespace Operation

def run (call : Call) : Operation → Call
  | markSent => call.markSent
  | onStdout chunk => call.onStdout chunk
  | onStderr chunk => call.onStderr chunk
  | finish => call.finish.2

def answer (call : Call) (op : Operation) : Answer where
  phase := (op.run call).phase
  result := if op = .finish then some call.finish.1 else none

def output (call : Call) : Operation → Bytes
  | onStdout chunk => if call.phase = .accumulating then chunk else []
  | _ => []

def complaints (call : Call) : Operation → Bytes
  | onStderr chunk =>
    if call.phase = .accumulating ∨ call.phase = .sentinelFound then chunk else []
  | _ => []

def outcomes (call : Call) : Operation → List (Except Fault String)
  | finish => [call.finish.1].filter isOutcome
  | _ => []

/-- A chunk that a call in some phase does not listen to. -/
def Ignored (phase : Phase) : Operation → Prop
  | onStdout _ => phase ≠ .accumulating
  | onStderr _ => phase ≠ .accumulating ∧ phase ≠ .sentinelFound
  | _ => False

theorem run_of_ignored {call : Call} {op : Operation} (h : op.Ignored call.phase) :
    op.run call = call := by
  obtain ⟨phase, stdout, stderr⟩ := call
  cases op with
  | onStdout chunk =>
    cases phase with
    | accumulating => exact absurd rfl h
    | _ => rfl
  | onStderr chunk =>
    cases phase with
    | accumulating => exact absurd rfl h.1
    | sentinelFound => exact absurd rfl h.2
    | _ => rfl
  | _ => exact h.elim

theorem accepts_of_ignored {call : Call} {op : Operation} (h : op.Ignored call.phase) :
    op.output call = [] ∧ op.complaints call = [] ∧ op.outcomes call = [] := by
  cases op with
  | onStdout chunk => exact ⟨if_neg h, rfl, rfl⟩
  | onStderr chunk => exact ⟨rfl, if_neg (not_or.mpr h), rfl⟩
  | _ => exact h.elim

end Operation

def after (sentinel : String) (ops : List Operation) : Call :=
  ops.foldl Operation.run (new sentinel)

def answers (call : Call) (ops : List Operation) : List Answer :=
  Run.noted Operation.run (fun call op => [op.answer call]) call ops

def acceptedOutput (sentinel : String) (ops : List Operation) : Bytes :=
  Run.noted Operation.run Operation.output (new sentinel) ops

def acceptedComplaints (sentinel : String) (ops : List Operation) : Bytes :=
  Run.noted Operation.run Operation.complaints (new sentinel) ops

def outcomes (sentinel : String) (ops : List Operation) : List (Except Fault String) :=
  Run.noted Operation.run Operation.outcomes (new sentinel) ops

/-- A call that has not been sent, one in progress, and one whose outcome was taken, each with the
bytes that it has accepted and the outcomes that it has given. -/
inductive Stands (sentinel : String) : Call → Bytes → Bytes → List (Except Fault String) → Prop
  | unsent : Stands sentinel (new sentinel) [] [] []
  | underway {call : Call} {out err : Bytes} (heard : call.Heard (Utf8.ofString sentinel) out err) :
      Stands sentinel call out err []
  | taken {call : Call} {out err : Bytes} {value : Except Fault String}
      (done : call.phase = .parsed) (verdict : Verdict (Utf8.ofString sentinel) out err value) :
      Stands sentinel call out err [value]

theorem Verdict.isOutcome {sentinel out err : Bytes} {value : Except Fault String}
    (h : Verdict sentinel out err value) : Call.isOutcome value = true := by
  obtain ⟨i, -, rfl⟩ := h
  by_cases silent : (complaintText err).isEmpty = true
  · rw [if_pos silent]
    rfl
  · rw [if_neg silent]
    rfl

theorem Verdict.unique {sentinel out err : Bytes} {value other : Except Fault String}
    (h : Verdict sentinel out err value) (h' : Verdict sentinel out err other) : value = other := by
  obtain ⟨i, first, rfl⟩ := h
  obtain ⟨j, found, rfl⟩ := h'
  rw [first.unique found]

theorem finish_refused {call : Call} (early : call.phase ≠ .sentinelFound) :
    call.finish = (.error (.protocolParse (.notFinishable call.phase)), call) := by
  rw [finish, if_pos early]

theorem phase_finish {call : Call} (ended : call.phase = .sentinelFound) :
    call.finish.2.phase = .parsed := by
  rw [finish, if_neg (not_not.mpr ended)]
  dsimp only
  split
  · split <;> rfl
  · rfl

theorem markSent_of_ne {call : Call} (sent : call.phase ≠ .idle) : call.markSent = call := by
  rw [markSent, if_neg sent]

namespace Heard

variable {call : Call} {sentinel out err : Bytes}

theorem ended_iff (h : call.Heard sentinel out err) :
    call.phase = .sentinelFound ↔ call.stdout.isFound = true := by
  rw [h.phase]
  cases call.stdout.isFound <;> simp

theorem running_iff (h : call.Heard sentinel out err) :
    call.phase = .accumulating ↔ call.stdout.isFound = false := by
  rw [h.phase]
  cases call.stdout.isFound <;> simp

theorem listens (h : call.Heard sentinel out err) :
    call.phase = .accumulating ∨ call.phase = .sentinelFound := by
  cases found : call.stdout.isFound with
  | true => exact Or.inr (h.ended_iff.mpr found)
  | false => exact Or.inl (h.running_iff.mpr found)

end Heard

namespace Stands

variable {sentinel : String} {call : Call} {out err : Bytes} {values : List (Except Fault String)}

private theorem of_same (h : Stands sentinel call out err values) {op : Operation}
    (same : op.run call = call)
    (nothing : op.output call = [] ∧ op.complaints call = [] ∧ op.outcomes call = []) :
    Stands sentinel (op.run call) (out ++ op.output call) (err ++ op.complaints call)
      (values ++ op.outcomes call) := by
  rw [same, nothing.1, nothing.2.1, nothing.2.2, List.append_nil, List.append_nil, List.append_nil]
  exact h

private theorem of_ignored (h : Stands sentinel call out err values) {op : Operation}
    (ignored : op.Ignored call.phase) :
    Stands sentinel (op.run call) (out ++ op.output call) (err ++ op.complaints call)
      (values ++ op.outcomes call) :=
  h.of_same (Operation.run_of_ignored ignored) (Operation.accepts_of_ignored ignored)

private theorem of_refused (h : Stands sentinel call out err values)
    (early : call.phase ≠ .sentinelFound) :
    Stands sentinel (Operation.finish.run call) (out ++ Operation.finish.output call)
      (err ++ Operation.finish.complaints call) (values ++ Operation.finish.outcomes call) := by
  have refused := finish_refused early
  refine h.of_same (congrArg Prod.snd refused) ⟨rfl, rfl, ?_⟩
  rw [Operation.outcomes, refused]
  rfl

private theorem run_markSent (h : Stands sentinel call out err values) :
    Stands sentinel call.markSent (out ++ []) (err ++ []) (values ++ []) := by
  rw [List.append_nil, List.append_nil, List.append_nil]
  cases h with
  | unsent => exact .underway (heard_markSent sentinel)
  | underway heard =>
    rw [markSent_of_ne (by rcases heard.listens with on | on <;> simp [on])]
    exact .underway heard
  | taken done verdict =>
    rw [markSent_of_ne (by simp [done])]
    exact .taken done verdict

private theorem run_onStdout (h : Stands sentinel call out err values) (chunk : Bytes) :
    Stands sentinel ((Operation.onStdout chunk).run call)
      (out ++ (Operation.onStdout chunk).output call) (err ++ []) (values ++ []) := by
  by_cases on : call.phase = .accumulating
  · cases h with
    | unsent => cases on
    | underway heard =>
      rw [Operation.output, if_pos on, List.append_nil, List.append_nil]
      exact .underway (heard.onStdout (heard.running_iff.mp on) chunk)
    | taken done => exact absurd (done.symm.trans on) (by simp)
  · have ignored : (Operation.onStdout chunk).Ignored call.phase := on
    exact h.of_ignored ignored

private theorem run_onStderr (h : Stands sentinel call out err values) (chunk : Bytes) :
    Stands sentinel ((Operation.onStderr chunk).run call) (out ++ [])
      (err ++ (Operation.onStderr chunk).complaints call) (values ++ []) := by
  by_cases on : call.phase = .accumulating ∨ call.phase = .sentinelFound
  · cases h with
    | unsent => rcases on with on | on <;> cases on
    | underway heard =>
      rw [Operation.complaints, if_pos on, List.append_nil, List.append_nil]
      exact .underway (heard.onStderr chunk).1
    | taken done => rcases on with on | on <;> exact absurd (done.symm.trans on) (by simp)
  · have ignored : (Operation.onStderr chunk).Ignored call.phase := not_or.mp on
    exact h.of_ignored ignored

private theorem run_finish (h : Stands sentinel call out err values) :
    Stands sentinel (Operation.finish.run call) (out ++ []) (err ++ [])
      (values ++ Operation.finish.outcomes call) := by
  by_cases ended : call.phase = .sentinelFound
  · cases h with
    | unsent => cases ended
    | underway heard =>
      have verdict := heard.finish (heard.ended_iff.mp ended)
      have given : Operation.finish.outcomes call = [call.finish.1] := by
        rw [Operation.outcomes, List.filter_cons_of_pos verdict.isOutcome, List.filter_nil]
      rw [given, List.append_nil, List.append_nil]
      exact .taken (phase_finish ended) verdict
    | taken done => exact absurd (done.symm.trans ended) (by simp)
  · exact h.of_refused ended

theorem run (h : Stands sentinel call out err values) (op : Operation) :
    Stands sentinel (op.run call) (out ++ op.output call) (err ++ op.complaints call)
      (values ++ op.outcomes call) := by
  cases op with
  | markSent => exact h.run_markSent
  | onStdout chunk => exact h.run_onStdout chunk
  | onStderr chunk => exact h.run_onStderr chunk
  | finish => exact h.run_finish

theorem length_le_one (h : Stands sentinel call out err values) : values.length ≤ 1 := by
  cases h <;> simp

theorem verdict_of_mem (h : Stands sentinel call out err values) {value : Except Fault String}
    (member : value ∈ values) : Verdict (Utf8.ofString sentinel) out err value := by
  cases h with
  | taken done verdict =>
    rw [List.mem_singleton.mp member]
    exact verdict
  | _ => exact absurd member List.not_mem_nil

/-- Whether a call that is finished now has ever given an outcome depends on the output alone. -/
theorem finished (h : Stands sentinel call out err values) (nonempty : sentinel ≠ "") :
    (∃ value, values ++ Operation.finish.outcomes call = [value]) ↔
      Utf8.ofString sentinel <:+: out := by
  have next := h.run_finish
  rw [List.append_nil, List.append_nil] at next
  constructor
  · rintro ⟨value, given⟩
    obtain ⟨i, first, -⟩ := next.verdict_of_mem (by rw [given]; exact List.mem_singleton_self value)
    exact (Search.infix_iff_exists_firstAt _ _).mpr ⟨i, first⟩
  · intro inside
    cases h with
    | unsent => exact absurd (List.eq_nil_of_infix_nil inside) (Utf8.ofString_ne_nil nonempty)
    | underway heard =>
      have found := (heard.stdout.isFound_iff (Utf8.ofString_ne_nil nonempty)).mpr inside
      have verdict := heard.finish found
      refine ⟨call.finish.1, ?_⟩
      rw [Operation.outcomes, List.filter_cons_of_pos verdict.isOutcome]
      rfl
    | @taken call out err value done verdict =>
      have late : call.phase ≠ .sentinelFound := by simp [done]
      refine ⟨value, ?_⟩
      rw [Operation.outcomes, finish_refused late]
      rfl

theorem eq_of_accepted {other : Call} {values' : List (Except Fault String)}
    (h : Stands sentinel call out err values) (h' : Stands sentinel other out err values')
    (nonempty : sentinel ≠ "") :
    values ++ Operation.finish.outcomes call = values' ++ Operation.finish.outcomes other := by
  have next := h.run_finish
  have next' := h'.run_finish
  rw [List.append_nil, List.append_nil] at next next'
  by_cases inside : Utf8.ofString sentinel <:+: out
  · obtain ⟨value, given⟩ := (h.finished nonempty).mpr inside
    obtain ⟨value', given'⟩ := (h'.finished nonempty).mpr inside
    rw [given] at next ⊢
    rw [given'] at next' ⊢
    have verdict := next.verdict_of_mem (List.mem_singleton_self value)
    have verdict' := next'.verdict_of_mem (List.mem_singleton_self value')
    rw [verdict.unique verdict']
  · have none : ∀ {c : Call} {list : List (Except Fault String)}, Stands sentinel c out err list →
        list ++ Operation.finish.outcomes c = [] := by
      intro c list standing
      have few := standing.run_finish.length_le_one
      have never := (not_congr (standing.finished nonempty)).mpr inside
      match given : list ++ Operation.finish.outcomes c with
      | [] => rfl
      | [value] => exact absurd ⟨value, given⟩ never
      | _ :: _ :: _ => rw [given] at few; simp at few
    rw [none h, none h']

theorem finish_cases (h : Stands sentinel call out err values) :
    isOutcome call.finish.1 = true ∨
      call.finish = (.error (.protocolParse (.notFinishable call.phase)), call) := by
  by_cases ended : call.phase = .sentinelFound
  · cases h with
    | unsent => cases ended
    | underway heard => exact Or.inl (heard.finish (heard.ended_iff.mp ended)).isOutcome
    | taken done => exact absurd (done.symm.trans ended) (by simp)
  · exact Or.inr (finish_refused ended)

end Stands

theorem after_snoc (sentinel : String) (ops : List Operation) (op : Operation) :
    after sentinel (ops ++ [op]) = op.run (after sentinel ops) :=
  List.foldl_append

theorem stands_after (sentinel : String) (ops : List Operation) :
    Stands sentinel (after sentinel ops) (acceptedOutput sentinel ops)
      (acceptedComplaints sentinel ops) (outcomes sentinel ops) := by
  induction ops using List.reverseRecOn with
  | nil => exact .unsent
  | append_singleton ops op ih =>
    rw [after_snoc, acceptedOutput, acceptedComplaints, outcomes]
    simp only [Run.noted_append, Run.noted_singleton]
    exact ih.run op

theorem phase_run (call : Call) (op : Operation) :
    (op.run call).phase = call.phase ∨ (op.run call).phase.rank = call.phase.rank + 1 := by
  obtain ⟨phase, stdout, stderr⟩ := call
  cases op with
  | markSent => cases phase <;> simp [Operation.run, markSent, Phase.rank]
  | onStdout chunk =>
    cases phase with
    | accumulating =>
      show (if (stdout.push chunk).isFound then Phase.sentinelFound else .accumulating) = _ ∨ _
      by_cases found : (stdout.push chunk).isFound = true
      · exact Or.inr (by simp [Operation.run, onStdout, found, Phase.rank])
      · exact Or.inl (by simp [found])
    | _ => exact Or.inl rfl
  | onStderr chunk => cases phase <;> exact Or.inl rfl
  | finish =>
    by_cases ended : phase = .sentinelFound
    · subst ended
      exact Or.inr (congrArg Phase.rank (phase_finish rfl))
    · refine Or.inl ?_
      rw [Operation.run, finish_refused ended]

/-- How a call behaves that some operations have been applied to. -/
structure WellConducted (sentinel : String) (ops : List Operation) : Prop where
  /-- The phase goes forward only, from one to the next. -/
  forward : ∀ op, (after sentinel (ops ++ [op])).phase = (after sentinel ops).phase ∨
    (after sentinel (ops ++ [op])).phase.rank = (after sentinel ops).phase.rank + 1
  /-- A chunk that comes too early or too late shows in no later answer. -/
  ignored : ∀ op, op.Ignored (after sentinel ops).phase → ∀ later,
    answers (after sentinel (ops ++ [op])) later = answers (after sentinel ops) later
  /-- A call gives one outcome at most. -/
  once : (outcomes sentinel ops).length ≤ 1
  /-- What gives no outcome is refused for the phase, and changes nothing. -/
  refused : isOutcome (after sentinel ops).finish.1 = false →
    (after sentinel ops).finish =
      (.error (.protocolParse (.notFinishable (after sentinel ops).phase)), after sentinel ops)
  /-- The output of a call that may be finished is there. -/
  present : (after sentinel ops).finish.1 ≠ .error (.protocolParse .outputMissing)
  /-- The outcome is the verdict on what the call has accepted. -/
  decided : ∀ value ∈ outcomes sentinel ops,
    Verdict (Utf8.ofString sentinel) (acceptedOutput sentinel ops)
      (acceptedComplaints sentinel ops) value
  /-- A call that is finished has given its outcome if the sentinel is in what it has accepted. -/
  finished : (∃ value, outcomes sentinel (ops ++ [.finish]) = [value]) ↔
    Utf8.ofString sentinel <:+: acceptedOutput sentinel ops
  /-- Calls that have accepted the same bytes, cut and interleaved in any way, give the same. -/
  same : ∀ other, acceptedOutput sentinel other = acceptedOutput sentinel ops →
    acceptedComplaints sentinel other = acceptedComplaints sentinel ops →
    outcomes sentinel (other ++ [.finish]) = outcomes sentinel (ops ++ [.finish])

private theorem outcomes_snoc (sentinel : String) (ops : List Operation) (op : Operation) :
    outcomes sentinel (ops ++ [op]) = outcomes sentinel ops ++ op.outcomes (after sentinel ops) := by
  rw [outcomes, Run.noted_append, Run.noted_singleton]
  rfl

theorem wellConducted {sentinel : String} (nonempty : sentinel ≠ "") (ops : List Operation) :
    WellConducted sentinel ops where
  forward := by
    intro op
    rw [after_snoc]
    exact phase_run _ op
  ignored := by
    intro op early later
    rw [after_snoc, Operation.run_of_ignored early]
  once := (stands_after sentinel ops).length_le_one
  refused := by
    intro fails
    rcases (stands_after sentinel ops).finish_cases with given | refused
    · rw [fails] at given
      cases given
    · exact refused
  present := by
    intro missing
    rcases (stands_after sentinel ops).finish_cases with given | refused
    · rw [missing] at given
      cases given
    · rw [refused] at missing
      simp at missing
  decided := by
    intro value member
    exact (stands_after sentinel ops).verdict_of_mem member
  finished := by
    rw [outcomes_snoc]
    exact (stands_after sentinel ops).finished nonempty
  same := by
    intro other sameOutput sameComplaints
    have standing := stands_after sentinel other
    rw [sameOutput, sameComplaints] at standing
    rw [outcomes_snoc, outcomes_snoc]
    exact standing.eq_of_accepted (stands_after sentinel ops) nonempty

/-- A call that hears output too early, a sentinel in two pieces, and a complaint after it. -/
def unrulyCall : List Operation :=
  [.onStdout (Utf8.ofString "__END__"), .finish, .markSent, .onStdout (Utf8.ofString "1\n__E"),
    .onStderr (Utf8.ofString " oops"), .onStdout (Utf8.ofString "ND__"), .markSent,
    .onStdout (Utf8.ofString "late"), .onStderr (Utf8.ofString "\n"), .finish,
    .onStderr (Utf8.ofString "later"), .finish]

theorem wellConducted_unrulyCall :
    outcomes "__END__" unrulyCall = [.error (.evaluation "oops")] ∧
      WellConducted "__END__" unrulyCall := by
  refine ⟨by decide +kernel, wellConducted ?_ unrulyCall⟩
  decide

end NotebookKernel.Call
