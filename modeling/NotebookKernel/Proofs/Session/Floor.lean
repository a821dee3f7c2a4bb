import NotebookKernel.Proofs.Session.Service

/-!
# Having the floor

A program leaves for the interpreter in pieces, between which anything else may happen: more
programs are submitted, the interpreter acts, callers go away. A lock keeps the calls apart. It is
handed to the first in line, who then drops what is left of earlier turns, writes, and reads until
there is an outcome; only then is the lock given back. A write may fail at any point, and a caller
may drop its call at any point. Undisturbed, the pieces of a turn are the step that begins it.
-/

set_option autoImplicit false

namespace NotebookKernel

/-- The part of the interpreter's input that belongs to one call: what has left of its program, and
what is still to leave. -/
structure Share where
  ticket : Nat
  submission : Submission
  sent : Bytes
  rest : Bytes

namespace Share

def payload (share : Share) : Bytes :=
  Turns.payload share.submission.program

def entry (share : Share) : Nat × Submission :=
  (share.ticket, share.submission)

def untouched (ticket : Nat) (submission : Submission) : Share :=
  ⟨ticket, submission, [], Turns.payload submission.program⟩

def push (share : Share) (size : Nat) : Share :=
  { share with sent := share.sent ++ share.rest.take size, rest := share.rest.drop size }

def turn (share : Share) : Turn :=
  ⟨share.ticket, share.submission.limit, .new share.submission.sentinel⟩

end Share

/-- A session with its turns, the ticket of the call that has the lock, the share that is being
written, those that were written before, and all that has left for the interpreter. -/
structure Floor where
  turns : Turns
  lock : Option Nat
  writer : Option Share
  past : List Share
  out : Bytes
  /-- The calls that stopped writing before their programs had left. -/
  broken : List Nat
  /-- The calls that were dropped while they had the lock. -/
  dropped : List Nat

namespace Floor

/-- What happens on the floor. A step of the turns is one of the call that reads. -/
inductive Move where
  | happen (event : Happening)
  /-- The lock is handed to the first in line. -/
  | grant
  /-- Some bytes leave. -/
  | put (size : Nat)
  /-- The whole program has left. -/
  | finish
  /-- The write fails. -/
  | fail (fault : Fault)
  /-- The caller drops its call. -/
  | drop (ticket : Nat)
deriving DecidableEq, Repr

def new (session : Session) : Floor :=
  ⟨.new session, none, none, [], session.written.flatten, [], []⟩

/-- Something happens to the turns. The call that reads has the lock until it has an outcome; what
happens to the others changes no lock. -/
def happen (floor : Floor) (event : Happening) : Floor :=
  match floor.turns.current with
  | some _ =>
    { floor with
      turns := floor.turns.next event
      lock := (floor.turns.next event).current.map Turn.ticket }
  | none => if event = .step then floor else { floor with turns := floor.turns.next event }

def granted (floor : Floor) (ticket : Nat) (submission : Submission)
    (line : List (Nat × Submission)) : Floor :=
  { floor with
    turns := { floor.turns with session := floor.turns.session.discardStale.2, line }
    lock := some ticket
    writer := some (.untouched ticket submission) }

def advanced (floor : Floor) (share : Share) (size : Nat) : Floor :=
  { floor with writer := some (share.push size), out := floor.out ++ share.rest.take size }

def finished (floor : Floor) (share : Share) : Floor :=
  { floor with
    turns := { floor.turns with
      session := { floor.turns.session with
        written := floor.turns.session.written ++ [share.payload] }
      current := some { share.turn with call := share.turn.call.markSent } }
    writer := none
    past := floor.past ++ [share] }

def stopped (floor : Floor) (share : Share) : Floor :=
  { floor with
    lock := none
    writer := none
    past := floor.past ++ [share]
    broken := share.ticket :: floor.broken }

def failed (floor : Floor) (share : Share) (fault : Fault) : Floor :=
  { floor.stopped share with
    turns := floor.turns.conclude share.turn (.error fault) floor.turns.session }

def drop (floor : Floor) (ticket : Nat) : Floor :=
  if floor.lock = some ticket then
    match floor.writer with
    | some share => { floor.stopped share with dropped := ticket :: floor.dropped }
    | none =>
      { floor with
        turns := { floor.turns with current := none }
        lock := none
        dropped := ticket :: floor.dropped }
  else
    { floor with
      turns := { floor.turns with line := floor.turns.line.filter fun entry => entry.1 != ticket } }

/-- The floor after a move. The lock is granted while nobody has it, only the call that writes can
put, finish or fail, and nothing leaves once the interpreter has closed its input. -/
def next (floor : Floor) : Move → Floor
  | .happen event => floor.happen event
  | .grant =>
    match floor.lock, floor.turns.line with
    | none, (ticket, submission) :: line => floor.granted ticket submission line
    | _, _ => floor
  | .put size =>
    match floor.writer with
    | some share => if floor.turns.session.inputOpen then floor.advanced share size else floor
    | none => floor
  | .finish =>
    match floor.writer with
    | some share => if share.rest = [] then floor.finished share else floor
    | none => floor
  | .fail fault =>
    match floor.writer with
    | some share => floor.failed share fault
    | none => floor
  | .drop ticket => floor.drop ticket

def after (session : Session) (moves : List Move) : Floor :=
  moves.foldl next (new session)

def enters (floor : Floor) : Move → List (Nat × Submission)
  | .happen event => floor.turns.enters event
  | _ => []

/-- The submission that gets the lock at a move. -/
def grants (floor : Floor) : Move → List (Nat × Submission)
  | .grant => if floor.lock = none then floor.turns.line.take 1 else []
  | _ => []

/-- The submissions of a run, in the order in which they were put in line. -/
def entered (session : Session) (moves : List Move) : List (Nat × Submission) :=
  Run.noted next enters (new session) moves

def turnsGranted (session : Session) (moves : List Move) : List (Nat × Submission) :=
  Run.noted next grants (new session) moves

def shares (floor : Floor) : List Share :=
  floor.past ++ floor.writer.toList

/-- A call that has had the lock is over: it has an outcome, or its caller has dropped it. -/
def Over (floor : Floor) (ticket : Nat) : Prop :=
  (∃ o ∈ floor.turns.outcomes, o.ticket = ticket) ∨ ticket ∈ floor.dropped

theorem after_snoc (session : Session) (moves : List Move) (move : Move) :
    after session (moves ++ [move]) = (after session moves).next move :=
  List.foldl_append

theorem entered_snoc (session : Session) (moves : List Move) (move : Move) :
    entered session (moves ++ [move]) =
      entered session moves ++ (after session moves).enters move := by
  rw [entered, Run.noted_append, Run.noted_singleton]
  rfl

theorem turnsGranted_snoc (session : Session) (moves : List Move) (move : Move) :
    turnsGranted session (moves ++ [move]) =
      turnsGranted session moves ++ (after session moves).grants move := by
  rw [turnsGranted, Run.noted_append, Run.noted_singleton]
  rfl

inductive Does (floor : Floor) : Move → Floor → Prop where
  | nothing {move : Move} : floor.enters move = [] → floor.grants move = [] →
      Does floor move floor
  | attended {turn : Turn} (event : Happening) : floor.turns.current = some turn →
      Does floor (.happen event)
        { floor with
          turns := floor.turns.next event
          lock := (floor.turns.next event).current.map Turn.ticket }
  | unattended {event : Happening} : floor.turns.current = none → event ≠ .step →
      Does floor (.happen event) { floor with turns := floor.turns.next event }
  | grant {ticket : Nat} {submission : Submission} {line : List (Nat × Submission)} :
      floor.lock = none → floor.turns.line = (ticket, submission) :: line →
      Does floor .grant (floor.granted ticket submission line)
  | put {share : Share} (size : Nat) : floor.writer = some share →
      Does floor (.put size) (floor.advanced share size)
  | finish {share : Share} : floor.writer = some share → share.rest = [] →
      Does floor .finish (floor.finished share)
  | fail {share : Share} (fault : Fault) : floor.writer = some share →
      Does floor (.fail fault) (floor.failed share fault)
  | dropWriter {share : Share} {ticket : Nat} : floor.lock = some ticket →
      floor.writer = some share →
      Does floor (.drop ticket) { floor.stopped share with dropped := ticket :: floor.dropped }
  | dropReader {ticket : Nat} : floor.lock = some ticket → floor.writer = none →
      Does floor (.drop ticket)
        { floor with
          turns := { floor.turns with current := none }
          lock := none
          writer := none
          dropped := ticket :: floor.dropped }
  | dropWaiting {ticket : Nat} : floor.lock ≠ some ticket →
      Does floor (.drop ticket)
        { floor with
          turns := { floor.turns with
            line := floor.turns.line.filter fun entry => entry.1 != ticket } }

private theorem does_happen (floor : Floor) (event : Happening) :
    floor.Does (.happen event) (floor.happen event) := by
  cases current : floor.turns.current with
  | some turn =>
    simp only [happen, current]
    exact .attended event current
  | none =>
    simp only [happen, current]
    by_cases step : event = .step
    · rw [if_pos step, step]
      exact .nothing rfl rfl
    · rw [if_neg step]
      exact .unattended current step

private theorem does_grant (floor : Floor) : floor.Does .grant (floor.next .grant) := by
  cases free : floor.lock with
  | some ticket =>
    simp only [next, free]
    exact .nothing rfl (by simp [grants, free])
  | none =>
    cases first : floor.turns.line with
    | nil =>
      simp only [next, free, first]
      exact .nothing rfl (by simp [grants, first])
    | cons entry line =>
      simp only [next, free, first]
      exact .grant free first

private theorem does_put (floor : Floor) (size : Nat) :
    floor.Does (.put size) (floor.next (.put size)) := by
  cases writing : floor.writer with
  | none =>
    simp only [next, writing]
    exact .nothing rfl rfl
  | some share =>
    simp only [next, writing]
    by_cases listening : floor.turns.session.inputOpen = true
    · rw [if_pos listening]
      exact .put size writing
    · rw [if_neg listening]
      exact .nothing rfl rfl

private theorem does_finish (floor : Floor) : floor.Does .finish (floor.next .finish) := by
  cases writing : floor.writer with
  | none =>
    simp only [next, writing]
    exact .nothing rfl rfl
  | some share =>
    simp only [next, writing]
    by_cases whole : share.rest = []
    · rw [if_pos whole]
      exact .finish writing whole
    · rw [if_neg whole]
      exact .nothing rfl rfl

private theorem does_drop (floor : Floor) (ticket : Nat) :
    floor.Does (.drop ticket) (floor.drop ticket) := by
  by_cases locked : floor.lock = some ticket
  · rw [drop, if_pos locked]
    cases writing : floor.writer with
    | some share => exact .dropWriter locked writing
    | none => exact .dropReader locked writing
  · rw [drop, if_neg locked]
    exact .dropWaiting locked

theorem does_next (floor : Floor) (move : Move) : floor.Does move (floor.next move) := by
  cases move with
  | happen event => exact floor.does_happen event
  | grant => exact floor.does_grant
  | put size => exact floor.does_put size
  | finish => exact floor.does_finish
  | fail fault =>
    cases writing : floor.writer with
    | none =>
      simp only [next, writing]
      exact .nothing rfl rfl
    | some share =>
      simp only [next, writing]
      exact .fail fault writing
  | drop ticket => exact floor.does_drop ticket

def beginning (listening : Bool) (submission : Submission) : List Move :=
  if listening then [.grant, .put (Turns.payload submission.program).length, .finish]
  else [.grant, .fail .processExited]

theorem foldl_beginning {floor : Floor} {ticket : Nat} {submission : Submission}
    {line : List (Nat × Submission)} (free : floor.lock = none)
    (idle : floor.turns.current = none) (first : floor.turns.line = (ticket, submission) :: line) :
    ((beginning floor.turns.session.inputOpen submission).foldl next floor).turns =
      floor.turns.next .step := by
  have written := floor.turns.session.discardStale.2.write_of_ne_nil
    (Turns.payload_ne_nil submission.program)
  have same : floor.turns.session.discardStale.2.inputOpen = floor.turns.session.inputOpen := rfl
  rw [Turns.next_of_step (Turns.step_of_first idle first), Turns.begin, written, same]
  cases listening : floor.turns.session.inputOpen with
  | true =>
    simp [beginning, next, free, first, granted, Share.untouched, Session.discardStale, listening,
      advanced, Share.push, finished, Share.payload, Share.turn]
  | false =>
    simp [beginning, next, free, first, granted, failed, stopped, Turns.conclude, Share.untouched,
      Share.turn]

end Floor

end NotebookKernel
