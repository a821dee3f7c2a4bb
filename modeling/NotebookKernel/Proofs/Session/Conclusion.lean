import NotebookKernel.Proofs.Session.Settling

/-!
# How a call without a time limit ends

A call that has been handed over ends when its sentinel has arrived, or else when the output has
ended. Nothing that arrives from then on is lost on the way, and what waited in the queues before
has no part in it.
-/

set_option autoImplicit false

namespace NotebookKernel.Turns

/-- Nobody has the session, and the first in line has a sentinel, no time limit, and an interpreter
that its program can be written to. -/
structure Ready (turns : Turns) (ticket : Nat) (submission : Submission) : Prop where
  idle : turns.current = none
  first : turns.line.head? = some (ticket, submission)
  listening : turns.session.inputOpen = true
  patient : submission.limit = none
  named : submission.sentinel ≠ ""

def holding (turns : Turns) (output complaints : List Bytes) : Turns :=
  { turns with session := { turns.session with
      output := { turns.session.output with queue := output }
      complaints := { turns.session.complaints with queue := complaints } } }

/-- The step of a run that concludes the call that had the session from its start, and the first
outcome of the run. -/
structure Conclusion (turns : Turns) (ticket : Nat) (events : List Happening) where
  during : List Happening
  later : List Happening
  value : Except Fault String
  split : events = during ++ .step :: later
  holds : (during.foldl next turns).current.map Turn.ticket = some ticket
  early : (during.foldl next turns).outcomes = turns.outcomes
  concludes : ((during.foldl next turns).next .step).outcomes =
    turns.outcomes ++ [⟨ticket, value⟩]

namespace Conclusion

variable {turns : Turns} {ticket : Nat} {events : List Happening}

def heard (c : Conclusion turns ticket events) : Writing :=
  arrivals turns c.during

def snoc (c : Conclusion turns ticket events) (event : Happening) :
    Conclusion turns ticket (events ++ [event]) where
  during := c.during
  later := c.later ++ [event]
  value := c.value
  split := by
    conv => lhs; rw [c.split]
    rw [List.append_assoc, List.cons_append]
  holds := c.holds
  early := c.early
  concludes := c.concludes

theorem foldl_split (c : Conclusion turns ticket events) :
    events.foldl next turns = c.later.foldl next ((c.during.foldl next turns).next .step) := by
  conv => lhs; rw [c.split]
  rw [List.foldl_append, List.foldl_cons]

theorem isPrefix_outcomes (c : Conclusion turns ticket events) :
    turns.outcomes ++ [⟨ticket, c.value⟩] <+: (events.foldl next turns).outcomes := by
  rw [c.foldl_split, ← c.concludes]
  exact outcomes_foldl _ c.later

theorem arrivals_split (c : Conclusion turns ticket events) :
    (arrivals turns events).stdout =
      c.heard.stdout ++ (arrivals (c.during.foldl next turns) (.step :: c.later)).stdout := by
  conv => lhs; rw [c.split, arrivals_append]
  rfl

end Conclusion

theorem printed_of_closed {turns : Turns} (closed : turns.session.isClosed = true)
    (event : Happening) : turns.printed event = [] := by
  have shut : turns.session.output.isOpen = false := by
    simpa [Session.isClosed] using closed
  cases event with
  | act act => cases act <;> simp [printed, Session.printed, shut]
  | _ => rfl

theorem stdout_of_closed {turns : Turns} (closed : turns.session.isClosed = true)
    (events : List Happening) : (arrivals turns events).stdout = [] := by
  induction events generalizing turns with
  | nil => rfl
  | cons event events ih =>
    have first : turns.printed event = [] := printed_of_closed closed event
    have rest := ih (isClosed_next closed event)
    show turns.printed event ++ (arrivals (turns.next event) events).stdout = []
    rw [first, rest, List.append_nil]

/-- A call without a time limit has the session, has heard or can hear all that has arrived, and has
no outcome yet. -/
def Waits (begun : Turns) (ticket : Nat) (sentinel : Bytes) (events : List Happening) : Prop :=
  ∃ turn, turn.ticket = ticket ∧ turn.limit = none ∧
    (events.foldl next begun).Attends turn sentinel
      (arrivals begun events).stdout (arrivals begun events).stderr ∧
    (events.foldl next begun).outcomes = begun.outcomes

/-- A call ends with the verdict on what it has heard, or because the output has ended before the
sentinel has arrived. -/
def Justified (turns : Turns) (sentinel : Bytes) (heard : Writing)
    (value : Except Fault String) : Prop :=
  Call.Verdict sentinel heard.stdout heard.stderr value ∨
    (value = .error .processExited ∧ turns.session.isClosed = true ∧ ¬ sentinel <:+: heard.stdout)

private theorem absent_of_queue_nil {turns : Turns} {turn : Turn} {sentinel out err : Bytes}
    (h : turns.Attends turn sentinel out err) (nonempty : sentinel ≠ [])
    (empty : turns.session.output.queue = []) : ¬ sentinel <:+: out := by
  obtain ⟨-, early, heardOut, heardErr, heard, rfl, rfl⟩ := h
  rw [empty, List.flatten_nil, List.append_nil, ← heard.stdout.isFound_iff nonempty, early]
  exact Bool.false_ne_true

private theorem unlimited_step {turns : Turns} {turn : Turn} {sentinel : Bytes} {heard : Writing}
    (h : turns.Attends turn sentinel heard.stdout heard.stderr) (nonempty : sentinel ≠ []) :
    (∃ call, (turns.next .step).Attends { turn with call } sentinel heard.stdout heard.stderr ∧
      (turns.next .step).outcomes = turns.outcomes) ∨
    ∃ value, (turns.next .step).outcomes = turns.outcomes ++ [⟨turn.ticket, value⟩] ∧
      turns.Justified sentinel heard value := by
  rcases h.step_cases with goes | ⟨value, -, outcomes, verdict⟩ | ⟨empty, closed, ends⟩ |
    ⟨-, -, stuck⟩
  · exact Or.inl goes
  · exact Or.inr ⟨value, outcomes, Or.inl verdict⟩
  · refine Or.inr ⟨.error .processExited, ?_, Or.inr ⟨rfl, closed, ?_⟩⟩
    · rw [ends]
      rfl
    · exact absent_of_queue_nil h nonempty empty
  · rw [next_of_stuck stuck]
    exact Or.inl ⟨turn.call, h, rfl⟩

variable {begun : Turns} {ticket : Nat} {sentinel : Bytes}

private theorem waits_snoc {events : List Happening} {event : Happening} (turn : Turn)
    (named : turn.ticket = ticket) (patient : turn.limit = none)
    (attends : ((events.foldl next begun).next event).Attends turn sentinel
      ((arrivals begun events).stdout ++ (events.foldl next begun).printed event)
      ((arrivals begun events).stderr ++ (events.foldl next begun).complained event))
    (outcomes : ((events.foldl next begun).next event).outcomes = begun.outcomes) :
    Waits begun ticket sentinel (events ++ [event]) := by
  refine ⟨turn, named, patient, ?_, ?_⟩
  · rw [List.foldl_append, List.foldl_cons, List.foldl_nil, arrivals_snoc]
    exact attends
  · rw [List.foldl_append, List.foldl_cons, List.foldl_nil]
    exact outcomes

private theorem Waits.snoc {events : List Happening} (h : Waits begun ticket sentinel events)
    (nonempty : sentinel ≠ []) (event : Happening) :
    Waits begun ticket sentinel (events ++ [event]) ∨
      ∃ c : Conclusion begun ticket (events ++ [event]),
        (c.during.foldl next begun).Justified sentinel c.heard c.value := by
  obtain ⟨turn, named, patient, attends, outcomes⟩ := h
  cases event with
  | submit submission =>
    have later := attends.submit submission
    exact Or.inl (waits_snoc turn named patient (by simpa [printed, complained] using later) outcomes)
  | act act => exact Or.inl (waits_snoc turn named patient (attends.act act) outcomes)
  | expire =>
    have same := next_expire_of_unlimited attends.current patient
    refine Or.inl (waits_snoc turn named patient ?_ ?_)
    · rw [same]
      simpa [printed, complained] using attends
    · rw [same]
      exact outcomes
  | step =>
    rcases unlimited_step attends nonempty with ⟨call, later, kept⟩ | ⟨value, added, justified⟩
    · refine Or.inl (waits_snoc { turn with call } named patient ?_ ?_)
      · simpa [printed, complained] using later
      · rw [kept]
        exact outcomes
    · refine Or.inr ⟨⟨events, [], value, rfl, ?_, outcomes, ?_⟩, justified⟩
      · rw [attends.current, Option.map_some, named]
      · rw [added, outcomes, named]

private theorem waits_or_concluded (nonempty : sentinel ≠ [])
    (start : Waits begun ticket sentinel []) (events : List Happening) :
    Waits begun ticket sentinel events ∨
      ∃ c : Conclusion begun ticket events,
        (c.during.foldl next begun).Justified sentinel c.heard c.value := by
  induction events using List.reverseRecOn with
  | nil => exact Or.inl start
  | append_singleton events event ih =>
    rcases ih with waits | ⟨c, justified⟩
    · exact waits.snoc nonempty event
    · exact Or.inr ⟨c.snoc event, justified⟩

private theorem exists_conclusion (nonempty : sentinel ≠ [])
    (start : Waits begun ticket sentinel []) {events : List Happening}
    (due : sentinel <:+: (arrivals begun events).stdout ∨
      (events.foldl next begun).session.isClosed = true) :
    ∃ c : Conclusion begun ticket (begun.toRest events),
      (c.during.foldl next begun).Justified sentinel c.heard c.value := by
  rcases waits_or_concluded nonempty start (begun.toRest events) with
    ⟨turn, -, -, attends, -⟩ | concluded
  · -- At rest the queue of the output is empty: a call that still waits has heard all that arrived.
    exfalso
    rw [arrivals_toRest, foldl_toRest] at attends
    obtain ⟨empty, opened⟩ := queue_nil_of_stuck attends.current (step_settle _)
    rcases due with arrived | closed
    · exact absent_of_queue_nil attends nonempty empty arrived
    · rw [isClosed_settle, closed] at opened
      cases opened
  · exact concluded

variable {events : List Happening}

private theorem isPrefix_heard (c : Conclusion begun ticket events) :
    c.heard.stdout <+: (arrivals begun events).stdout := by
  rw [c.arrivals_split]
  exact List.prefix_append _ _

private theorem value_of_firstAt {c : Conclusion begun ticket events}
    (justified : (c.during.foldl next begun).Justified sentinel c.heard c.value) {i : Nat}
    (first : Search.FirstAt sentinel (arrivals begun events).stdout i) :
    c.value = if (Call.complaintText c.heard.stderr).isEmpty
      then .ok (Call.outputText ((arrivals begun events).stdout.take i))
      else .error (.evaluation (Call.complaintText c.heard.stderr)) := by
  rcases justified with ⟨j, found, value⟩ | ⟨-, closed, absent⟩
  · obtain ⟨whole, same⟩ := found.of_prefix (isPrefix_heard c)
    obtain rfl := whole.unique first
    rw [value, same]
  · -- The output had ended when the call was concluded, so nothing has arrived since.
    have complete : (arrivals begun events).stdout = c.heard.stdout := by
      rw [c.arrivals_split, stdout_of_closed closed, List.append_nil]
    rw [complete] at first
    exact absurd ((Search.infix_iff_exists_firstAt _ _).mpr ⟨i, first⟩) absent

private theorem exited_of_absent {c : Conclusion begun ticket events}
    (justified : (c.during.foldl next begun).Justified sentinel c.heard c.value)
    (absent : ¬ sentinel <:+: (arrivals begun events).stdout) :
    c.value = .error .processExited ∧ (events.foldl next begun).session.isClosed = true := by
  rcases justified with ⟨i, found, -⟩ | ⟨value, closed, -⟩
  · obtain ⟨whole, -⟩ := found.of_prefix (isPrefix_heard c)
    exact absurd ((Search.infix_iff_exists_firstAt _ _).mpr ⟨i, whole⟩) absent
  · have ended := isClosed_foldl closed (.step :: c.later)
    rw [List.foldl_cons, ← c.foldl_split] at ended
    exact ⟨value, ended⟩

/-- What becomes of a call whose turn has begun, in whatever way the output and the complaints that
arrive are cut, and interleaved with the steps of the turn and with new submissions. -/
structure Resolved (turns begun : Turns) (ticket : Nat) (submission : Submission)
    (events : List Happening) : Prop where
  /-- Whatever waited in the queues, the turn would have begun in the same way. -/
  fresh : ∀ output complaints, (turns.holding output complaints).next .step = begun
  /-- Until the call is concluded it has, or can still read, all that has arrived. -/
  kept : (events.foldl next begun).outcomes = turns.outcomes →
    ∃ turn, (events.foldl next begun).current = some turn ∧ turn.ticket = ticket ∧
      turn.call.stdout.buffer.toList ++ (events.foldl next begun).session.output.queue.flatten =
        (arrivals begun events).stdout ∧
      turn.call.stderr.toList ++ (events.foldl next begun).session.complaints.queue.flatten =
        (arrivals begun events).stderr
  /-- When the sentinel has arrived the call ends with the text before it, or with the complaints
  that have arrived by the time it ends. -/
  answered : ∀ i,
    Search.FirstAt (Utf8.ofString submission.sentinel) (arrivals begun events).stdout i →
      ∃ c : Conclusion begun ticket (begun.toRest events),
        (c.value = if (Call.complaintText c.heard.stderr).isEmpty
          then .ok (Call.outputText ((arrivals begun events).stdout.take i))
          else .error (.evaluation (Call.complaintText c.heard.stderr))) ∧
        turns.outcomes ++ [⟨ticket, c.value⟩] <+: (events.foldl next begun).settle.outcomes
  /-- When the output has ended without the sentinel the call ends with that, whatever the
  complaints are. -/
  exited : ¬ Utf8.ofString submission.sentinel <:+: (arrivals begun events).stdout →
    (events.foldl next begun).session.isClosed = true →
      turns.outcomes ++ [⟨ticket, .error .processExited⟩] <+:
        (events.foldl next begun).settle.outcomes
  /-- Before either has come about the call has no outcome. -/
  pending : ¬ Utf8.ofString submission.sentinel <:+: (arrivals begun events).stdout →
    (events.foldl next begun).session.isClosed = false →
      (events.foldl next begun).settle.outcomes = turns.outcomes

private theorem waits_of_ready {turns : Turns} {submission : Submission}
    (ready : turns.Ready ticket submission) :
    Waits (turns.next .step) ticket (Utf8.ofString submission.sentinel) [] ∧
      (turns.next .step).outcomes = turns.outcomes := by
  obtain ⟨line, first⟩ := List.head?_eq_some_iff.mp ready.first
  rcases (next_begin ready.idle first).2 with ⟨turn, named, limit, attends, outcomes⟩ |
    ⟨deaf, -, -⟩
  · exact ⟨⟨turn, named, limit.trans ready.patient, attends, rfl⟩, outcomes⟩
  · rw [ready.listening] at deaf
    cases deaf

private theorem next_step_holding {turns : Turns} {submission : Submission}
    (ready : turns.Ready ticket submission) (output complaints : List Bytes) :
    (turns.holding output complaints).next .step = turns.next .step := by
  obtain ⟨line, first⟩ := List.head?_eq_some_iff.mp ready.first
  have idle : (turns.holding output complaints).current = none := ready.idle
  have same : (turns.holding output complaints).line = (ticket, submission) :: line := first
  rw [next_of_step (step_of_first ready.idle first), next_of_step (step_of_first idle same)]
  rfl

theorem resolved_of_ready {turns : Turns} {ticket : Nat} {submission : Submission}
    (ready : turns.Ready ticket submission) (events : List Happening) :
    turns.Resolved (turns.next .step) ticket submission events := by
  have nonempty := Utf8.ofString_ne_nil ready.named
  obtain ⟨start, outcomes⟩ := waits_of_ready ready
  have settled : ∀ c : Conclusion (turns.next .step) ticket ((turns.next .step).toRest events),
      turns.outcomes ++ [⟨ticket, c.value⟩] <+:
        (events.foldl next (turns.next .step)).settle.outcomes := by
    intro c
    rw [← outcomes, ← foldl_toRest]
    exact c.isPrefix_outcomes
  refine ⟨next_step_holding ready, ?_, ?_, ?_, ?_⟩
  · intro none
    rcases waits_or_concluded nonempty start events with
      ⟨turn, named, -, ⟨current, -, out, err, heard, stdout, stderr⟩, -⟩ | ⟨c, -⟩
    · refine ⟨turn, current, named, ?_, ?_⟩
      · rw [heard.stdout.gathered, stdout]
      · rw [heard.stderr, stderr]
    · have longer := c.isPrefix_outcomes.length_le
      rw [none, outcomes, List.length_append, List.length_singleton] at longer
      omega
  · intro i first
    have arrived := (Search.infix_iff_exists_firstAt _ _).mpr ⟨i, first⟩
    obtain ⟨c, justified⟩ := exists_conclusion nonempty start (Or.inl arrived)
    refine ⟨c, ?_, settled c⟩
    rw [← arrivals_toRest] at first ⊢
    exact value_of_firstAt justified first
  · intro absent closed
    obtain ⟨c, justified⟩ := exists_conclusion nonempty start (Or.inr closed)
    rw [← arrivals_toRest] at absent
    rw [← (exited_of_absent justified absent).1]
    exact settled c
  · intro absent opened
    rw [← arrivals_toRest] at absent
    rcases waits_or_concluded nonempty start ((turns.next .step).toRest events) with
      ⟨turn, -, -, -, still⟩ | ⟨c, justified⟩
    · rw [← outcomes, ← foldl_toRest]
      exact still
    · have closed := (exited_of_absent justified absent).2
      rw [foldl_toRest, isClosed_settle, opened] at closed
      cases closed

/-- A program in line while a sentinel of its own and a complaint wait from before. -/
def staleTurns : Turns :=
  [Happening.submit ⟨"1", "__END__", none⟩, .act (.print (Utf8.ofString "old\n__END__\n")),
    .act (.complain (Utf8.ofString "old"))].foldl next (new (.attach "" false))

/-- The sentinel arrives in two pieces, with a complaint between them, and the output ends. -/
def brokenRun : List Happening :=
  [.act (.print (Utf8.ofString "one\n__E")), .step, .expire,
    .act (.complain (Utf8.ofString " oops\n")), .act (.print (Utf8.ofString "ND__\ntwo")),
    .act (.close .output)]

theorem resolved_staleTurns :
    staleTurns.Ready 0 ⟨"1", "__END__", none⟩ ∧
      Search.firstIndex (Utf8.ofString "__END__")
        (arrivals (staleTurns.next .step) brokenRun).stdout = some 4 ∧
      staleTurns.Resolved (staleTurns.next .step) 0 ⟨"1", "__END__", none⟩ brokenRun := by
  have ready : staleTurns.Ready 0 ⟨"1", "__END__", none⟩ :=
    ⟨rfl, rfl, rfl, rfl, by decide⟩
  exact ⟨ready, by decide +kernel, resolved_of_ready ready brokenRun⟩

end NotebookKernel.Turns
