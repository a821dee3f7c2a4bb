import NotebookKernel.Proofs.Call
import NotebookKernel.Session.Turns

/-!
# Whom a turn listens to

A session with its turns as a machine, driven by submissions, by what the interpreter does and by
time. From the moment a turn begins, its call together with what waits in the two queues amounts to
what has arrived since then, and to nothing else; that is what its outcome is made from.
-/

set_option autoImplicit false

namespace NotebookKernel

namespace Session

def printed (session : Session) : Act → Bytes
  | .print chunk => if session.output.isOpen then chunk else []
  | _ => []

def complained (session : Session) : Act → Bytes
  | .complain chunk => if session.complaints.isOpen then chunk else []
  | _ => []

private theorem flatten_push (channel : Channel) (chunk : Bytes) :
    (channel.push chunk).queue.flatten =
      channel.queue.flatten ++ if channel.isOpen then chunk else [] := by
  unfold Channel.push
  cases channel.isOpen with
  | false => simp
  | true =>
    cases chunk with
    | nil => simp
    | cons byte chunk => simp

theorem output_observe (session : Session) (act : Act) :
    (session.observe act).output.queue.flatten =
      session.output.queue.flatten ++ session.printed act := by
  cases act with
  | print chunk => exact flatten_push session.output chunk
  | complain chunk => exact (List.append_nil _).symm
  | close stream => cases stream <;> exact (List.append_nil _).symm

theorem complaints_observe (session : Session) (act : Act) :
    (session.observe act).complaints.queue.flatten =
      session.complaints.queue.flatten ++ session.complained act := by
  cases act with
  | print chunk => exact (List.append_nil _).symm
  | complain chunk => exact flatten_push session.complaints chunk
  | close stream => cases stream <;> exact (List.append_nil _).symm

theorem write_cases (session : Session) (chunk : Bytes) :
    (∃ written, session.write chunk = (.ok (), { session with written })) ∨
      (session.inputOpen = false ∧ session.write chunk = (.error .processExited, session)) := by
  unfold write
  split
  · exact Or.inl ⟨session.written, rfl⟩
  · cases listening : session.inputOpen with
    | true => exact Or.inl ⟨_, rfl⟩
    | false => exact Or.inr ⟨rfl, rfl⟩

/-- What a turn sees next is taken off its queue; complaints go first, and the end of the output is
seen behind everything else. -/
theorem nextEvent_cases (session : Session) :
    (∃ chunk queue, session.complaints.queue = chunk :: queue ∧
      session.nextEvent = (some (.complaint chunk),
        { session with complaints := { session.complaints with queue } })) ∨
    (session.complaints.queue = [] ∧ ∃ chunk queue, session.output.queue = chunk :: queue ∧
      session.nextEvent = (some (.output chunk),
        { session with output := { session.output with queue } })) ∨
    (session.output.queue = [] ∧ session.isClosed = true ∧
      session.nextEvent = (some .closed, session)) ∨
    (session.output.queue = [] ∧ session.isClosed = false ∧ session.nextEvent = (none, session)) := by
  unfold nextEvent nextComplaint
  cases complaints : session.complaints.queue with
  | cons chunk queue => exact Or.inl ⟨chunk, queue, rfl, rfl⟩
  | nil =>
    cases output : session.output.queue with
    | cons chunk queue => exact Or.inr (Or.inl ⟨rfl, chunk, queue, rfl, by simp only [output]⟩)
    | nil =>
      cases closed : session.isClosed with
      | true => exact Or.inr (Or.inr (Or.inl ⟨rfl, rfl, by simp [output, closed]⟩))
      | false => exact Or.inr (Or.inr (Or.inr ⟨rfl, rfl, by simp [output, closed]⟩))

end Session

/-- What happens to a session with its turns. -/
inductive Happening where
  | submit (submission : Submission)
  /-- The interpreter acts. -/
  | act (act : Act)
  /-- The next thing that can be done is done. -/
  | step
  /-- Time is up for the current turn. -/
  | expire
deriving DecidableEq, Repr

/-- A call has completed: the sentinel has arrived, and with it a text or complaints. -/
def Completed (value : Except Fault String) : Prop :=
  (∃ text, value = .ok text) ∨ ∃ text, value = .error (.evaluation text)

theorem not_completed_processExited : ¬ Completed (.error .processExited) := by
  rintro (⟨text, done⟩ | ⟨text, done⟩) <;> simp at done

theorem not_completed_timeout (limit : Duration) : ¬ Completed (.error (.timeout limit)) := by
  rintro (⟨text, done⟩ | ⟨text, done⟩) <;> simp at done

namespace Turns

def next (turns : Turns) : Happening → Turns
  | .submit submission => (turns.submit submission).2
  | .act act => turns.observe act
  | .step => turns.step.getD turns
  | .expire => turns.expire

def printed (turns : Turns) : Happening → Bytes
  | .act act => turns.session.printed act
  | _ => []

def complained (turns : Turns) : Happening → Bytes
  | .act act => turns.session.complained act
  | _ => []

theorem next_of_step {turns later : Turns} (done : turns.step = some later) :
    turns.next .step = later := by
  rw [Turns.next, done, Option.getD_some]

theorem next_of_stuck {turns : Turns} (stuck : turns.step = none) : turns.next .step = turns := by
  rw [Turns.next, stuck, Option.getD_none]

theorem step_of_first {turns : Turns} {ticket : Nat} {submission : Submission}
    {line : List (Nat × Submission)} (idle : turns.current = none)
    (first : turns.line = (ticket, submission) :: line) :
    turns.step = some (turns.begin ticket submission line) := by
  simp [step, idle, first]

theorem step_of_idle {turns : Turns} (idle : turns.current = none) :
    (turns.line = [] ∧ turns.step = none) ∨ ∃ ticket submission line,
      turns.line = (ticket, submission) :: line ∧
        turns.step = some (turns.begin ticket submission line) := by
  cases first : turns.line with
  | nil => exact Or.inl ⟨rfl, by simp [step, idle, first]⟩
  | cons entry line => exact Or.inr ⟨entry.1, entry.2, line, rfl, step_of_first idle first⟩

/-- While a turn has the session, a step reads a complaint, or else some output, or else sees the
end of the output, or else there is nothing to do. -/
theorem step_of_current {turns : Turns} {turn : Turn} (current : turns.current = some turn) :
    (∃ chunk queue, turns.session.complaints.queue = chunk :: queue ∧
      turns.step = some { turns with
        session := { turns.session with complaints := { turns.session.complaints with queue } }
        current := some { turn with call := turn.call.onStderr chunk } }) ∨
    (∃ chunk queue, turns.session.output.queue = chunk :: queue ∧
      turns.step = some (turns.hear turn
        { turns.session with output := { turns.session.output with queue } } chunk)) ∨
    (turns.session.output.queue = [] ∧ turns.session.isClosed = true ∧
      turns.step = some (turns.conclude turn (.error .processExited) turns.session)) ∨
    (turns.session.output.queue = [] ∧ turns.session.isClosed = false ∧ turns.step = none) := by
  rcases turns.session.nextEvent_cases with ⟨chunk, queue, waiting, seen⟩ |
    ⟨-, chunk, queue, waiting, seen⟩ | ⟨empty, closed, seen⟩ | ⟨empty, opened, seen⟩
  · exact Or.inl ⟨chunk, queue, waiting, by simp [step, current, seen]⟩
  · exact Or.inr (Or.inl ⟨chunk, queue, waiting, by simp [step, current, seen]⟩)
  · exact Or.inr (Or.inr (Or.inl ⟨empty, closed, by simp [step, current, seen]⟩))
  · exact Or.inr (Or.inr (Or.inr ⟨empty, opened, by simp [step, current, seen]⟩))

theorem queue_nil_of_stuck {turns : Turns} {turn : Turn}
    (current : turns.current = some turn) (stuck : turns.step = none) :
    turns.session.output.queue = [] ∧ turns.session.isClosed = false := by
  rcases step_of_current current with ⟨chunk, queue, -, read⟩ | ⟨chunk, queue, -, read⟩ |
    ⟨-, -, ended⟩ | ⟨empty, opened, -⟩
  · rw [stuck] at read
    cases read
  · rw [stuck] at read
    cases read
  · rw [stuck] at ended
    cases ended
  · exact ⟨empty, opened⟩

/-- A turn has the session, its sentinel has not been seen, and what its call has gathered together
with what waits in the queues is some output and some complaints. -/
structure Attends (turns : Turns) (turn : Turn) (sentinel out err : Bytes) : Prop where
  current : turns.current = some turn
  early : turn.call.stdout.isFound = false
  gathered : ∃ heardOut heardErr, turn.call.Heard sentinel heardOut heardErr ∧
    out = heardOut ++ turns.session.output.queue.flatten ∧
    err = heardErr ++ turns.session.complaints.queue.flatten

/-- A turn begins with nothing: what the queues held is gone. It fails at once when the interpreter
has closed its input. -/
theorem next_begin {turns : Turns} {ticket : Nat} {submission : Submission}
    {line : List (Nat × Submission)} (idle : turns.current = none)
    (first : turns.line = (ticket, submission) :: line) :
    (turns.next .step).line = line ∧
      ((∃ turn, turn.ticket = ticket ∧ turn.limit = submission.limit ∧
          (turns.next .step).Attends turn (Utf8.ofString submission.sentinel) [] [] ∧
          (turns.next .step).outcomes = turns.outcomes) ∨
        (turns.session.inputOpen = false ∧ (turns.next .step).current = none ∧
          (turns.next .step).outcomes = turns.outcomes ++ [⟨ticket, .error .processExited⟩])) := by
  rw [next_of_step (step_of_first idle first), begin]
  rcases turns.session.discardStale.2.write_cases (payload submission.program) with
    ⟨written, sent⟩ | ⟨deaf, refused⟩
  · rw [sent]
    refine ⟨rfl, Or.inl ⟨_, ?_, ?_, ⟨rfl, ?_, [], [], Call.heard_markSent _, ?_, ?_⟩, rfl⟩⟩
    · rfl
    · rfl
    · rfl
    · rfl
    · rfl
  · rw [refused]
    exact ⟨rfl, Or.inr ⟨deaf, rfl, rfl⟩⟩

/-- A chunk of output is heard: the turn goes on, or the sentinel is complete and the turn ends. -/
private theorem hear_cases (turns : Turns) {turn : Turn} {sentinel heardOut heardErr : Bytes}
    (heard : turn.call.Heard sentinel heardOut heardErr) (early : turn.call.stdout.isFound = false)
    (session : Session) (chunk : Bytes) :
    ((turns.hear turn session chunk).Attends { turn with call := turn.call.onStdout chunk } sentinel
          (heardOut ++ chunk ++ session.output.queue.flatten)
          (heardErr ++ session.complaints.queue.flatten) ∧
        (turns.hear turn session chunk).outcomes = turns.outcomes) ∨
      ((turns.hear turn session chunk).current = none ∧ ∃ value,
        (turns.hear turn session chunk).outcomes = turns.outcomes ++ [⟨turn.ticket, value⟩] ∧
        Call.Verdict sentinel (heardOut ++ chunk ++ session.output.queue.flatten)
          (heardErr ++ session.complaints.queue.flatten) value) := by
  have gathered := heard.onStdout early chunk
  unfold hear
  by_cases found : (turn.call.onStdout chunk).stdout.isFound = true
  · have ended : (turn.call.onStdout chunk).phase = .sentinelFound := by
      rw [gathered.phase, if_pos found]
    obtain ⟨late, same⟩ := gathered.foldl_onStderr session.complaints.queue
    have verdict := late.finish (by rw [same]; exact found)
    rw [if_pos ended]
    exact Or.inr ⟨rfl, _, rfl, verdict.append _⟩
  · have running : (turn.call.onStdout chunk).phase ≠ .sentinelFound := by
      rw [gathered.phase, if_neg found]
      simp
    rw [if_neg running]
    refine Or.inl ⟨⟨rfl, ?_, ?_⟩, rfl⟩
    · exact Bool.eq_false_iff.mpr found
    · exact ⟨_, _, gathered, rfl, rfl⟩

/-- The turn goes on after an event, or it ends with an outcome; a completed call's outcome is the
verdict on what the turn has heard by then, and comes with a step. -/
def GoesOn (turns : Turns) (turn : Turn) (sentinel out err : Bytes) (event : Happening) : Prop :=
  (∃ turn', turn'.ticket = turn.ticket ∧
      (turns.next event).Attends turn' sentinel (out ++ turns.printed event)
        (err ++ turns.complained event) ∧
      (turns.next event).outcomes = turns.outcomes) ∨
    ((turns.next event).current = none ∧ ∃ value,
      (turns.next event).outcomes = turns.outcomes ++ [⟨turn.ticket, value⟩] ∧
      (Completed value → event = .step ∧ Call.Verdict sentinel out err value))

section Attending

variable {turns : Turns} {turn : Turn} {sentinel out err : Bytes}

private theorem goesOn_of_same (h : turns.Attends turn sentinel out err) {event : Happening}
    (same : turns.next event = turns) (silent : turns.printed event = [])
    (calm : turns.complained event = []) : turns.GoesOn turn sentinel out err event := by
  refine Or.inl ⟨turn, rfl, ?_, ?_⟩
  · rw [same, silent, calm, List.append_nil, List.append_nil]
    exact h
  · rw [same]

private theorem goesOn_of_conclude {event : Happening} {value : Except Fault String}
    {session : Session} (ends : turns.next event = turns.conclude turn value session)
    (fails : ¬ Completed value) : turns.GoesOn turn sentinel out err event := by
  refine Or.inr ⟨?_, value, ?_, fun done => absurd done fails⟩
  · rw [ends]
    rfl
  · rw [ends]
    rfl

theorem Attends.submit (h : turns.Attends turn sentinel out err) (submission : Submission) :
    (turns.next (.submit submission)).Attends turn sentinel out err :=
  ⟨h.current, h.early, h.gathered⟩

theorem Attends.act (h : turns.Attends turn sentinel out err) (act : Act) :
    (turns.next (.act act)).Attends turn sentinel (out ++ turns.printed (.act act))
      (err ++ turns.complained (.act act)) := by
  obtain ⟨current, early, heardOut, heardErr, heard, rfl, rfl⟩ := h
  refine ⟨current, early, heardOut, heardErr, heard, ?_, ?_⟩
  · rw [List.append_assoc]
    exact congrArg _ (turns.session.output_observe act).symm
  · rw [List.append_assoc]
    exact congrArg _ (turns.session.complaints_observe act).symm

/-- A step of a turn that has the session reads a chunk and goes on, reads the end of the sentinel,
sees the end of the output, or finds nothing to read. -/
theorem Attends.step_cases (h : turns.Attends turn sentinel out err) :
    (∃ call, (turns.next .step).Attends { turn with call } sentinel out err ∧
      (turns.next .step).outcomes = turns.outcomes) ∨
    (∃ value, (turns.next .step).current = none ∧
      (turns.next .step).outcomes = turns.outcomes ++ [⟨turn.ticket, value⟩] ∧
      Call.Verdict sentinel out err value) ∨
    (turns.session.output.queue = [] ∧ turns.session.isClosed = true ∧
      turns.next .step = turns.conclude turn (.error .processExited) turns.session) ∨
    (turns.session.output.queue = [] ∧ turns.session.isClosed = false ∧ turns.step = none) := by
  obtain ⟨current, early, heardOut, heardErr, heard, rfl, rfl⟩ := h
  rcases step_of_current current with ⟨chunk, queue, waiting, read⟩ |
    ⟨chunk, queue, waiting, read⟩ | ⟨empty, closed, ends⟩ | ⟨empty, opened, stuck⟩
  · obtain ⟨gathered, same⟩ := heard.onStderr chunk
    rw [next_of_step read, waiting, List.flatten_cons, ← List.append_assoc]
    refine Or.inl ⟨turn.call.onStderr chunk, ⟨rfl, ?_, ?_⟩, rfl⟩
    · show (turn.call.onStderr chunk).stdout.isFound = false
      rw [same]
      exact early
    · exact ⟨_, _, gathered, rfl, rfl⟩
  · rw [next_of_step read, waiting, List.flatten_cons, ← List.append_assoc]
    rcases hear_cases turns heard early
      { turns.session with output := { turns.session.output with queue } } chunk with
      ⟨attends, outcomes⟩ | ⟨gone, value, outcomes, verdict⟩
    · exact Or.inl ⟨_, attends, outcomes⟩
    · exact Or.inr (Or.inl ⟨value, gone, outcomes, verdict⟩)
  · exact Or.inr (Or.inr (Or.inl ⟨empty, closed, next_of_step ends⟩))
  · exact Or.inr (Or.inr (Or.inr ⟨empty, opened, stuck⟩))

private theorem goesOn_step (h : turns.Attends turn sentinel out err) :
    turns.GoesOn turn sentinel out err .step := by
  rcases h.step_cases with ⟨call, attends, outcomes⟩ | ⟨value, gone, outcomes, verdict⟩ |
    ⟨-, -, ends⟩ | ⟨-, -, stuck⟩
  · refine Or.inl ⟨{ turn with call }, rfl, ?_, outcomes⟩
    have nothing : turns.printed .step = [] ∧ turns.complained .step = [] := ⟨rfl, rfl⟩
    rw [nothing.1, nothing.2, List.append_nil, List.append_nil]
    exact attends
  · exact Or.inr ⟨gone, value, outcomes, fun _ => ⟨rfl, verdict⟩⟩
  · exact goesOn_of_conclude ends not_completed_processExited
  · exact goesOn_of_same h (next_of_stuck stuck) rfl rfl

theorem next_expire_of_unlimited (current : turns.current = some turn)
    (patient : turn.limit = none) : turns.next .expire = turns := by
  simp [Turns.next, expire, current, patient]

private theorem goesOn_expire (h : turns.Attends turn sentinel out err) :
    turns.GoesOn turn sentinel out err .expire := by
  have current := h.current
  cases limited : turn.limit with
  | some limit =>
    have late : turns.next .expire =
        turns.conclude turn (.error (.timeout limit)) turns.session := by
      simp [Turns.next, expire, current, limited]
    exact goesOn_of_conclude late (not_completed_timeout limit)
  | none => exact goesOn_of_same h (next_expire_of_unlimited current limited) rfl rfl

/-- Whatever happens while a turn has the session, it hears what arrives and answers for that. -/
theorem Attends.next (h : turns.Attends turn sentinel out err) (event : Happening) :
    turns.GoesOn turn sentinel out err event := by
  cases event with
  | submit submission =>
    refine Or.inl ⟨turn, rfl, ?_, rfl⟩
    have nothing : turns.printed (.submit submission) = [] ∧
      turns.complained (.submit submission) = [] := ⟨rfl, rfl⟩
    rw [nothing.1, nothing.2, List.append_nil, List.append_nil]
    exact h.submit submission
  | act act => exact Or.inl ⟨turn, rfl, h.act act, rfl⟩
  | step => exact goesOn_step h
  | expire => exact goesOn_expire h

end Attending

theorem next_idle {turns : Turns} (idle : turns.current = none) (event : Happening) :
    ((turns.next event).current = none ∧ (turns.next event).outcomes = turns.outcomes) ∨
      (event = .step ∧ ∃ ticket submission line, turns.line = (ticket, submission) :: line) := by
  cases event with
  | submit submission => exact Or.inl ⟨idle, rfl⟩
  | act act => exact Or.inl ⟨idle, rfl⟩
  | step =>
    rcases step_of_idle idle with ⟨-, stuck⟩ | ⟨ticket, submission, line, first, -⟩
    · rw [next_of_stuck stuck]
      exact Or.inl ⟨idle, rfl⟩
    · exact Or.inr ⟨rfl, ticket, submission, line, first⟩
  | expire =>
    have same : turns.next .expire = turns := by
      simp [Turns.next, expire, idle]
    rw [same]
    exact Or.inl ⟨idle, rfl⟩

end Turns

end NotebookKernel
