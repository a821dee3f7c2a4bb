import NotebookKernel.Proofs.Run
import NotebookKernel.Proofs.Session.Attention

/-!
# Tenures

In a run of a session each completed call has had the session for a stretch of it. Its outcome is
the verdict on what arrived in that stretch, whatever arrived before or was left when it began.
-/

set_option autoImplicit false

namespace NotebookKernel

/-- What an interpreter writes to its two streams. -/
@[ext]
structure Writing where
  stdout : Bytes
  stderr : Bytes
deriving DecidableEq, Repr

namespace Turns

def after (session : Session) (events : List Happening) : Turns :=
  events.foldl next (new session)

def submissions : List Happening → List Submission
  | [] => []
  | .submit submission :: events => submission :: submissions events
  | _ :: events => submissions events

/-- The program that is handed to the interpreter, with its ticket: the one whose turn begins. -/
def handed (turns : Turns) : Happening → List (Nat × Submission)
  | .step =>
    if turns.current.isNone && (turns.next .step).current.isSome then turns.line.take 1 else []
  | _ => []

def programs (session : Session) (events : List Happening) : List (Nat × Submission) :=
  Run.noted next handed (new session) events

/-- What arrives in a run that goes on from some point. -/
def arrivals (turns : Turns) (events : List Happening) : Writing :=
  ⟨Run.noted next printed turns events, Run.noted next complained turns events⟩

/-- The part of a run in which a call has the session: it begins with the step that hands over the
program, and ends before the step that concludes the call. -/
structure Tenure (session : Session) (events : List Happening) (o : Outcome)
    (submission : Submission) where
  before : List Happening
  during : List Happening
  later : List Happening
  split : events = before ++ .step :: during ++ .step :: later
  handed : (after session before).handed .step = [(o.ticket, submission)]
  begins : programs session (before ++ .step :: during) =
    programs session before ++ [(o.ticket, submission)]
  holds : (after session (before ++ .step :: during)).current.map Turn.ticket = some o.ticket
  concludes : (after session (before ++ .step :: during ++ [.step])).outcomes =
    (after session (before ++ .step :: during)).outcomes ++ [o]

def Tenure.heard {session : Session} {events : List Happening} {o : Outcome}
    {submission : Submission} (t : Tenure session events o submission) : Writing :=
  arrivals (after session t.before) (.step :: t.during)

def Tenure.missed {session : Session} {events : List Happening} {o : Outcome}
    {submission : Submission} (t : Tenure session events o submission) : Writing :=
  arrivals (new session) t.before

theorem after_append (session : Session) (first second : List Happening) :
    after session (first ++ second) = second.foldl next (after session first) :=
  List.foldl_append

theorem after_snoc (session : Session) (events : List Happening) (event : Happening) :
    after session (events ++ [event]) = (after session events).next event :=
  after_append session events [event]

theorem programs_snoc (session : Session) (events : List Happening) (event : Happening) :
    programs session (events ++ [event]) =
      programs session events ++ (after session events).handed event := by
  rw [programs, Run.noted_append, Run.noted_singleton]
  rfl

theorem submissions_append (first second : List Happening) :
    submissions (first ++ second) = submissions first ++ submissions second := by
  induction first with
  | nil => rfl
  | cons event first ih => cases event <;> simp [submissions, ih]

theorem arrivals_append (turns : Turns) (first second : List Happening) :
    arrivals turns (first ++ second) =
      ⟨(arrivals turns first).stdout ++ (arrivals (first.foldl next turns) second).stdout,
        (arrivals turns first).stderr ++ (arrivals (first.foldl next turns) second).stderr⟩ := by
  simp only [arrivals, Run.noted_append]

theorem arrivals_snoc (turns : Turns) (events : List Happening) (event : Happening) :
    arrivals turns (events ++ [event]) =
      ⟨(arrivals turns events).stdout ++ (events.foldl next turns).printed event,
        (arrivals turns events).stderr ++ (events.foldl next turns).complained event⟩ := by
  rw [arrivals_append]
  simp only [arrivals, Run.noted_singleton]

/-- The turns have gone on: at most the first submission has left the line, and outcomes are only
added. No ticket has been handed out, and the output has not ended. -/
structure Onward (turns later : Turns) : Prop where
  line : later.line <:+ turns.line
  nextTicket : later.nextTicket = turns.nextTicket
  isClosed : later.session.isClosed = turns.session.isClosed
  outcomes : turns.outcomes <+: later.outcomes

private theorem onward_begin {turns : Turns} {ticket : Nat} {submission : Submission}
    {line : List (Nat × Submission)} (first : turns.line = (ticket, submission) :: line) :
    turns.Onward (turns.begin ticket submission line) := by
  have shorter : line <:+ turns.line := by
    rw [first]
    exact List.suffix_cons _ line
  unfold begin
  rcases turns.session.discardStale.2.write_cases (payload submission.program) with
    ⟨written, sent⟩ | ⟨-, refused⟩
  · rw [sent]
    exact ⟨shorter, rfl, rfl, List.prefix_refl _⟩
  · rw [refused]
    exact ⟨shorter, rfl, rfl, List.prefix_append _ _⟩

private theorem onward_hear (turns : Turns) (turn : Turn) (queue : List Bytes) (chunk : Bytes) :
    turns.Onward (turns.hear turn
      { turns.session with output := { turns.session.output with queue } } chunk) := by
  unfold hear
  by_cases found : (turn.call.onStdout chunk).phase = .sentinelFound
  · rw [if_pos found]
    exact ⟨List.suffix_refl _, rfl, rfl, List.prefix_append _ _⟩
  · rw [if_neg found]
    exact ⟨List.suffix_refl _, rfl, rfl, List.prefix_refl _⟩

theorem onward_step (turns : Turns) : turns.Onward (turns.next .step) := by
  have idle : turns.Onward turns := ⟨List.suffix_refl _, rfl, rfl, List.prefix_refl _⟩
  cases current : turns.current with
  | none =>
    rcases step_of_idle current with ⟨-, stuck⟩ | ⟨ticket, submission, line, first, began⟩
    · rw [next_of_stuck stuck]
      exact idle
    · rw [next_of_step began]
      exact onward_begin first
  | some turn =>
    rcases step_of_current current with ⟨chunk, queue, -, read⟩ | ⟨chunk, queue, -, read⟩ |
      ⟨-, -, ended⟩ | ⟨-, -, stuck⟩
    · rw [next_of_step read]
      exact ⟨List.suffix_refl _, rfl, rfl, List.prefix_refl _⟩
    · rw [next_of_step read]
      exact onward_hear turns turn queue chunk
    · rw [next_of_step ended]
      exact ⟨List.suffix_refl _, rfl, rfl, List.prefix_append _ _⟩
    · rw [next_of_stuck stuck]
      exact idle

theorem onward_expire (turns : Turns) : turns.Onward (turns.next .expire) := by
  have idle : turns.Onward turns := ⟨List.suffix_refl _, rfl, rfl, List.prefix_refl _⟩
  cases current : turns.current with
  | none => simpa [Turns.next, expire, current] using idle
  | some turn =>
    cases limited : turn.limit with
    | none => simpa [Turns.next, expire, current, limited] using idle
    | some limit =>
      have late : turns.next .expire =
          turns.conclude turn (.error (.timeout limit)) turns.session := by
        simp [Turns.next, expire, current, limited]
      rw [late]
      exact ⟨List.suffix_refl _, rfl, rfl, List.prefix_append _ _⟩

private theorem mem_line_of_mem_handed {turns : Turns} {event : Happening} {p : Nat × Submission}
    (member : p ∈ turns.handed event) : p ∈ turns.line := by
  cases event with
  | step =>
    rw [handed] at member
    by_cases begun : (turns.current.isNone && (turns.next .step).current.isSome) = true
    · rw [if_pos begun] at member
      exact List.mem_of_mem_take member
    · rw [if_neg begun] at member
      exact absurd member List.not_mem_nil
  | _ => exact absurd member List.not_mem_nil

/-- The tickets in line are the positions of their submissions. -/
structure Ticketed (turns : Turns) (events : List Happening) : Prop where
  next : turns.nextTicket = (submissions events).length
  line : ∀ p ∈ turns.line, (submissions events)[p.1]? = some p.2

theorem getElem?_submissions_append {events : List Happening} {p : Nat × Submission}
    (h : (submissions events)[p.1]? = some p.2) (more : List Happening) :
    (submissions (events ++ more))[p.1]? = some p.2 := by
  obtain ⟨below, -⟩ := List.getElem?_eq_some_iff.mp h
  rw [submissions_append, List.getElem?_append_left below]
  exact h

private theorem Ticketed.snoc {turns : Turns} {events : List Happening}
    (h : turns.Ticketed events) (event : Happening) :
    (turns.next event).Ticketed (events ++ [event]) := by
  have quiet : submissions [event] = [] → (turns.next event).line <:+ turns.line →
      (turns.next event).nextTicket = turns.nextTicket →
      (turns.next event).Ticketed (events ++ [event]) := by
    intro none shorter same
    refine ⟨?_, ?_⟩
    · rw [same, submissions_append, none, List.append_nil]
      exact h.next
    · intro p hp
      exact getElem?_submissions_append (h.line p (shorter.subset hp)) [event]
  cases event with
  | submit submission =>
    refine ⟨?_, ?_⟩
    · rw [submissions_append, List.length_append, ← h.next]
      rfl
    · intro p hp
      rcases List.mem_append.mp hp with old | last
      · exact getElem?_submissions_append (h.line p old) _
      · obtain rfl := List.mem_singleton.mp last
        rw [submissions_append, h.next]
        simp [submissions]
  | act act => exact quiet rfl (List.suffix_refl _) rfl
  | step => exact quiet rfl turns.onward_step.line turns.onward_step.nextTicket
  | expire => exact quiet rfl turns.onward_expire.line turns.onward_expire.nextTicket

theorem ticketed_after (session : Session) (events : List Happening) :
    (after session events).Ticketed events := by
  induction events using List.reverseRecOn with
  | nil =>
    refine ⟨rfl, ?_⟩
    intro p hp
    exact absurd hp List.not_mem_nil
  | append_singleton events event ih =>
    rw [after_snoc]
    exact ih.snoc event

theorem submissions_of_mem_programs {session : Session} {events : List Happening}
    {p : Nat × Submission} (member : p ∈ programs session events) :
    (submissions events)[p.1]? = some p.2 := by
  induction events using List.reverseRecOn with
  | nil => exact absurd member List.not_mem_nil
  | append_singleton events event ih =>
    rw [programs_snoc, List.mem_append] at member
    refine getElem?_submissions_append ?_ [event]
    rcases member with old | new
    · exact ih old
    · exact (ticketed_after session events).line p (mem_line_of_mem_handed new)

/-- The turn that has the session has heard what has arrived since its program was handed over. -/
private def Underway (session : Session) (events : List Happening) (turn : Turn) : Prop :=
  ∃ before during submission, events = before ++ .step :: during ∧
    (after session before).handed .step = [(turn.ticket, submission)] ∧
    programs session events = programs session before ++ [(turn.ticket, submission)] ∧
    (after session events).Attends turn (Utf8.ofString submission.sentinel)
      (arrivals (after session before) (.step :: during)).stdout
      (arrivals (after session before) (.step :: during)).stderr

/-- An outcome is the verdict on what arrived while its call had the session. -/
private def Concluded (session : Session) (events : List Happening) (o : Outcome) : Prop :=
  ∃ (submission : Submission) (t : Tenure session events o submission),
    Call.Verdict (Utf8.ofString submission.sentinel) t.heard.stdout t.heard.stderr o.value

private theorem Concluded.snoc {session : Session} {events : List Happening} {o : Outcome}
    (h : Concluded session events o) (event : Happening) :
    Concluded session (events ++ [event]) o := by
  obtain ⟨submission, t, verdict⟩ := h
  refine ⟨submission, ⟨t.before, t.during, t.later ++ [event], ?_, t.handed, t.begins, t.holds,
    t.concludes⟩, verdict⟩
  conv => lhs; rw [t.split]
  simp

private theorem handed_of_current {turns : Turns} {turn : Turn} (h : turns.current = some turn)
    (event : Happening) : turns.handed event = [] := by
  cases event <;> simp [handed, h]

private theorem underway_next {session : Session} {events : List Happening} {turn : Turn}
    (current : (after session events).current = some turn) (h : Underway session events turn)
    (event : Happening) :
    (∃ turn', Underway session (events ++ [event]) turn' ∧
        (after session (events ++ [event])).outcomes = (after session events).outcomes) ∨
      ((after session (events ++ [event])).current = none ∧ ∃ o,
        (after session (events ++ [event])).outcomes = (after session events).outcomes ++ [o] ∧
        (Completed o.value → Concluded session (events ++ [event]) o)) := by
  obtain ⟨before, during, submission, rfl, handed, began, attends⟩ := h
  rw [after_snoc]
  rcases attends.next event with ⟨turn', same, later, outcomes⟩ | ⟨gone, value, outcomes, verdict⟩
  · rw [← same] at handed
    refine Or.inl ⟨turn', ⟨before, during ++ [event], submission, ?_, handed, ?_, ?_⟩, outcomes⟩
    · simp
    · rw [programs_snoc, handed_of_current current, List.append_nil, same]
      exact began
    · rw [← List.cons_append, arrivals_snoc, ← after_append, after_snoc]
      exact later
  · refine Or.inr ⟨gone, ⟨turn.ticket, value⟩, outcomes, ?_⟩
    intro completed
    obtain ⟨rfl, said⟩ := verdict completed
    refine ⟨submission, ⟨before, during, [], rfl, handed, began, ?_, ?_⟩, said⟩
    · rw [current]
      rfl
    · rw [after_snoc]
      exact outcomes

private theorem idle_next {session : Session} {events : List Happening}
    (idle : (after session events).current = none) (event : Happening) :
    (∃ turn, Underway session (events ++ [event]) turn ∧
        (after session (events ++ [event])).outcomes = (after session events).outcomes) ∨
      ((after session (events ++ [event])).current = none ∧
        ∀ o ∈ (after session (events ++ [event])).outcomes, Completed o.value →
          o ∈ (after session events).outcomes) := by
  rw [after_snoc]
  rcases next_idle idle event with ⟨still, outcomes⟩ | ⟨rfl, ticket, submission, line, first⟩
  · refine Or.inr ⟨still, ?_⟩
    intro o member _
    rw [outcomes] at member
    exact member
  · rcases (next_begin idle first).2 with
      ⟨turn, rfl, -, attends, outcomes⟩ | ⟨-, still, outcomes⟩
    · have hands : (after session events).handed .step = [(turn.ticket, submission)] := by
        simp [handed, idle, attends.current, first]
      refine Or.inl ⟨turn, ⟨events, [], submission, rfl, hands, ?_, ?_⟩, outcomes⟩
      · rw [programs_snoc, hands]
      · rw [after_snoc]
        exact attends
    · refine Or.inr ⟨still, ?_⟩
      intro o member completed
      rw [outcomes] at member
      rcases List.mem_append.mp member with old | new
      · exact old
      · obtain rfl := List.mem_singleton.mp new
        exact absurd completed not_completed_processExited

private theorem underway_and_concluded (session : Session) (events : List Happening) :
    (∀ turn, (after session events).current = some turn → Underway session events turn) ∧
      ∀ o ∈ (after session events).outcomes, Completed o.value → Concluded session events o := by
  induction events using List.reverseRecOn with
  | nil =>
    refine ⟨?_, ?_⟩
    · intro turn current
      exact absurd current (by simp [after, new])
    · intro o member
      exact absurd member List.not_mem_nil
  | append_singleton events event ih =>
    obtain ⟨underway, concluded⟩ := ih
    -- The turn of an attending machine is the only one it has.
    have only : ∀ turn' turn, Underway session (events ++ [event]) turn' →
        (after session (events ++ [event])).current = some turn →
        Underway session (events ++ [event]) turn := by
      intro turn' turn h current
      have attending := h
      obtain ⟨_, _, _, -, -, -, attends⟩ := attending
      rw [attends.current, Option.some.injEq] at current
      exact current ▸ h
    have kept : ∀ o ∈ (after session events).outcomes, Completed o.value →
        Concluded session (events ++ [event]) o :=
      fun o member completed => (concluded o member completed).snoc event
    cases current : (after session events).current with
    | some turn =>
      rcases underway_next current (underway turn current) event with
        ⟨turn', h, outcomes⟩ | ⟨gone, o, outcomes, done⟩
      · refine ⟨fun turn => only turn' turn h, ?_⟩
        rw [outcomes]
        exact kept
      · refine ⟨fun turn now => absurd now (by rw [gone]; simp), ?_⟩
        intro o' member completed
        rw [outcomes] at member
        rcases List.mem_append.mp member with old | last
        · exact kept o' old completed
        · obtain rfl := List.mem_singleton.mp last
          exact done completed
    | none =>
      rcases idle_next current event with ⟨turn', h, outcomes⟩ | ⟨still, old⟩
      · refine ⟨fun turn => only turn' turn h, ?_⟩
        rw [outcomes]
        exact kept
      · refine ⟨fun turn now => absurd now (by rw [still]; simp), ?_⟩
        intro o member completed
        exact kept o (old o member completed) completed

/-- A completed call has had the session, and its outcome is the verdict on what arrived then. -/
theorem exists_tenure {session : Session} {events : List Happening} {o : Outcome}
    (member : o ∈ (after session events).outcomes) (completed : Completed o.value) :
    ∃ (submission : Submission) (t : Tenure session events o submission),
      Call.Verdict (Utf8.ofString submission.sentinel) t.heard.stdout t.heard.stderr o.value :=
  (underway_and_concluded session events).2 o member completed

end Turns

end NotebookKernel
