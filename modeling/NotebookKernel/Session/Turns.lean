import NotebookKernel.Call
import NotebookKernel.Session

/-!
# Turns

Programs are run one at a time in a session, in the order in which they were submitted. A turn
drops what is left of earlier turns, writes its program with a line feed behind it, and reads until
the completion sentinel, the end of the output, or its time limit. `step` is one thing that a turn
does; `settle` goes on until there is nothing left to do, which `load` bounds.
-/

set_option autoImplicit false

namespace NotebookKernel

/-- A program to be run, the sentinel that ends its output, and how long to wait for it. -/
structure Submission where
  program : String
  sentinel : String
  limit : Option Duration
deriving DecidableEq, Repr

/-- The turn that has the session. -/
structure Turn where
  ticket : Nat
  limit : Option Duration
  call : Call

structure Outcome where
  ticket : Nat
  value : Except Fault String

/-- A session, the turn that has it, the submissions in line for it by ticket, the outcomes in the
order in which they came about, and the next ticket. -/
structure Turns where
  session : Session
  current : Option Turn
  line : List (Nat × Submission)
  outcomes : List Outcome
  nextTicket : Nat

namespace Turns

def new (session : Session) : Turns :=
  ⟨session, none, [], [], 0⟩

def submit (turns : Turns) (submission : Submission) : Nat × Turns :=
  (turns.nextTicket,
    { turns with
      line := turns.line ++ [(turns.nextTicket, submission)]
      nextTicket := turns.nextTicket + 1 })

def observe (turns : Turns) (act : Act) : Turns :=
  { turns with session := turns.session.observe act }

def outcome? (turns : Turns) (ticket : Nat) : Option (Except Fault String) :=
  (turns.outcomes.find? fun o => o.ticket == ticket).map Outcome.value

def conclude (turns : Turns) (turn : Turn) (value : Except Fault String) (session : Session) :
    Turns :=
  { turns with session, current := none, outcomes := turns.outcomes ++ [⟨turn.ticket, value⟩] }

def payload (program : String) : Bytes :=
  Utf8.ofString (program ++ "\n")

/-- The first in line gets the session. -/
def begin (turns : Turns) (ticket : Nat) (submission : Submission)
    (line : List (Nat × Submission)) : Turns :=
  let turn : Turn := ⟨ticket, submission.limit, .new submission.sentinel⟩
  match turns.session.discardStale.2.write (payload submission.program) with
  | (.ok (), session) =>
    { turns with session, line, current := some { turn with call := turn.call.markSent } }
  | (.error fault, session) => { turns with line }.conclude turn (.error fault) session

/-- Complaints that wait when the sentinel is seen still belong to the call. -/
def withLateComplaints (call : Call) (session : Session) : Call × Session :=
  (session.complaints.queue.foldl Call.onStderr call,
    { session with complaints := session.complaints.clear })

/-- A chunk of output reaches the current turn. -/
def hear (turns : Turns) (turn : Turn) (session : Session) (chunk : Bytes) : Turns :=
  let call := turn.call.onStdout chunk
  if call.phase = .sentinelFound then
    let (call, session) := withLateComplaints call session
    turns.conclude turn call.finish.1 session
  else { turns with session, current := some { turn with call } }

/-- One thing that can be done now, or `none` when all wait for the interpreter. -/
def step (turns : Turns) : Option Turns :=
  match turns.current with
  | some turn =>
    match turns.session.nextEvent with
    | (none, _) => none
    | (some (.complaint chunk), session) =>
      some { turns with session, current := some { turn with call := turn.call.onStderr chunk } }
    | (some (.output chunk), session) => some (turns.hear turn session chunk)
    | (some .closed, session) => some (turns.conclude turn (.error .processExited) session)
  | none =>
    match turns.line with
    | [] => none
    | (ticket, submission) :: line => some (turns.begin ticket submission line)

/-- Time is up for the current turn, if it has a limit. -/
def expire (turns : Turns) : Turns :=
  match turns.current with
  | some turn =>
    match turn.limit with
    | some limit => turns.conclude turn (.error (.timeout limit)) turns.session
    | none => turns
  | none => turns

/-- A bound on the number of steps that can follow. -/
def load (turns : Turns) : Nat :=
  2 * turns.line.length + (if turns.current.isSome then 1 else 0) + turns.session.pending

theorem pending_withLateComplaints (call : Call) (session : Session) :
    (withLateComplaints call session).2.pending ≤ session.pending := by
  simp [withLateComplaints, Session.pending, Channel.clear]

theorem load_hear_le (turns : Turns) (turn : Turn) (session : Session) (chunk : Bytes) :
    (turns.hear turn session chunk).load ≤ 2 * turns.line.length + 1 + session.pending := by
  unfold hear
  dsimp only
  split
  · have := pending_withLateComplaints (turn.call.onStdout chunk) session
    simp only [conclude, load]
    simp
    omega
  · simp [load]

theorem pending_write (session : Session) (chunk : Bytes) :
    (session.write chunk).2.pending = session.pending := by
  unfold Session.write
  split
  · rfl
  · split <;> rfl

theorem load_begin_le (turns : Turns) (ticket : Nat) (submission : Submission)
    (line : List (Nat × Submission)) :
    (turns.begin ticket submission line).load ≤ 2 * line.length + 1 := by
  have written := pending_write turns.session.discardStale.2 (payload submission.program)
  have dropped : turns.session.discardStale.2.pending = 0 := rfl
  unfold begin
  split
  · rename_i h
    rw [h] at written
    simp_all [load]
  · rename_i h
    rw [h] at written
    simp_all [load, conclude]

theorem pending_nextEvent_complaint {session rest : Session} {chunk : Bytes}
    (h : session.nextEvent = (some (.complaint chunk), rest)) :
    rest.pending + 1 = session.pending := by
  unfold Session.nextEvent Session.nextComplaint at h
  cases hc : session.complaints.queue with
  | nil =>
    cases ho : session.output.queue with
    | nil => simp [hc, ho] at h
    | cons a as => simp [hc, ho] at h
  | cons a as =>
    simp only [hc, Prod.mk.injEq] at h
    rw [← h.2]
    simp [Session.pending, hc]
    omega

theorem pending_nextEvent_output {session rest : Session} {chunk : Bytes}
    (h : session.nextEvent = (some (.output chunk), rest)) :
    rest.pending + 1 = session.pending := by
  unfold Session.nextEvent Session.nextComplaint at h
  cases hc : session.complaints.queue with
  | nil =>
    cases ho : session.output.queue with
    | nil => simp [hc, ho] at h
    | cons a as =>
      simp only [hc, ho, Prod.mk.injEq] at h
      rw [← h.2]
      simp [Session.pending, hc, ho]
  | cons a as => simp [hc] at h

theorem pending_nextEvent_closed {session rest : Session}
    (h : session.nextEvent = (some .closed, rest)) : rest.pending = session.pending := by
  unfold Session.nextEvent Session.nextComplaint at h
  cases hc : session.complaints.queue with
  | nil =>
    cases ho : session.output.queue with
    | nil =>
      simp only [hc, ho, Prod.mk.injEq] at h
      rw [← h.2]
    | cons a as => simp [hc, ho] at h
  | cons a as => simp [hc] at h

theorem load_step_lt {turns next : Turns} (h : turns.step = some next) :
    next.load < turns.load := by
  unfold step at h
  cases hc : turns.current with
  | some turn =>
    simp only [hc] at h
    split at h
    · simp at h
    · rename_i session he
      have hp := pending_nextEvent_complaint he
      rw [← Option.some.inj h]
      simp [load, hc]
      omega
    · rename_i session he
      have hp := pending_nextEvent_output he
      rw [← Option.some.inj h]
      have hl := load_hear_le turns turn session ‹Bytes›
      simp [load, hc] at hl ⊢
      omega
    · rename_i session he
      have hp := pending_nextEvent_closed he
      rw [← Option.some.inj h]
      simp [load, conclude, hc]
      omega
  | none =>
    cases hl : turns.line with
    | nil => simp [hc, hl] at h
    | cons first line =>
      simp only [hc, hl, Option.some.injEq] at h
      have hb := load_begin_le turns first.1 first.2 line
      rw [← h]
      simp [load, hc, hl] at hb ⊢
      omega

/-- Does what can be done until all wait for the interpreter. -/
def settle (turns : Turns) : Turns :=
  match done : turns.step with
  | none => turns
  | some next =>
    have _lighter := load_step_lt done
    settle next
termination_by turns.load

end Turns

end NotebookKernel
