import NotebookKernel.Proofs.Session.Settling
import NotebookKernel.Session.Registry

/-!
# What a registry knows

What a key stands for and what a session has become, after each of the changes that a registry is
made of. Whatever happens to a session, it keeps its key and its child, and the programs that are
handed to its interpreter are written in order behind what was written before.
-/

set_option autoImplicit false

namespace NotebookKernel

namespace Session

theorem write_of_ne_nil (session : Session) {chunk : Bytes} (some : chunk ≠ []) :
    session.write chunk =
      if session.inputOpen then (.ok (), { session with written := session.written ++ [chunk] })
      else (.error .processExited, session) := by
  have full : chunk.isEmpty = false := by simpa using some
  rw [write, full, if_neg Bool.false_ne_true]

end Session

namespace Turns

/-- What happens to a session leaves it its key and its child, and adds to what was written. -/
structure Carries (turns later : Turns) (sent : List Bytes) : Prop where
  key : later.session.key = turns.session.key
  hasChild : later.session.hasChild = turns.session.hasChild
  written : later.session.written = turns.session.written ++ sent

theorem carries_of_same {turns later : Turns} (same : later.session = turns.session) :
    turns.Carries later [] :=
  ⟨by rw [same], by rw [same], by rw [same, List.append_nil]⟩

theorem payload_ne_nil (program : String) : payload program ≠ [] := by
  refine Utf8.ofString_ne_nil ?_
  intro empty
  have length := congrArg String.length empty
  simp at length

def sent (turns : Turns) (event : Happening) : List Bytes :=
  (turns.handed event).map fun entry => payload entry.2.program

private theorem carries_begin {turns : Turns} {ticket : Nat} {submission : Submission}
    {line : List (Nat × Submission)} (idle : turns.current = none)
    (first : turns.line = (ticket, submission) :: line) :
    turns.Carries (turns.next .step) (turns.sent .step) := by
  have begun := next_of_step (step_of_first idle first)
  have cleared := turns.session.discardStale.2.write_of_ne_nil (payload_ne_nil submission.program)
  by_cases listening : turns.session.inputOpen = true
  · have written : turns.session.discardStale.2.write (payload submission.program) = (.ok (),
        { turns.session.discardStale.2 with
          written := turns.session.written ++ [payload submission.program] }) := by
      rw [cleared]
      exact if_pos listening
    have handed : turns.sent .step = [payload submission.program] := by
      simp [sent, Turns.handed, begun, begin, written, idle, first]
    rw [handed, begun, begin, written]
    exact ⟨rfl, rfl, rfl⟩
  · have refused : turns.session.discardStale.2.write (payload submission.program) =
        (.error .processExited, turns.session.discardStale.2) := by
      rw [cleared]
      exact if_neg listening
    have handed : turns.sent .step = [] := by
      simp [sent, Turns.handed, begun, begin, refused, conclude]
    rw [handed, begun, begin, refused]
    exact ⟨rfl, rfl, (List.append_nil _).symm⟩

private theorem carries_hear (turns : Turns) (turn : Turn) (queue : List Bytes) (chunk : Bytes) :
    turns.Carries (turns.hear turn
      { turns.session with output := { turns.session.output with queue } } chunk) [] := by
  unfold hear
  by_cases found : (turn.call.onStdout chunk).phase = .sentinelFound
  · rw [if_pos found]
    exact ⟨rfl, rfl, (List.append_nil _).symm⟩
  · rw [if_neg found]
    exact ⟨rfl, rfl, (List.append_nil _).symm⟩

private theorem carries_step (turns : Turns) :
    turns.Carries (turns.next .step) (turns.sent .step) := by
  cases current : turns.current with
  | none =>
    rcases step_of_idle current with ⟨empty, stuck⟩ | ⟨ticket, submission, line, first, -⟩
    · have handed : turns.sent .step = [] := by
        simp [sent, Turns.handed, empty]
      rw [handed, next_of_stuck stuck]
      exact carries_of_same rfl
    · exact carries_begin current first
  | some turn =>
    have handed : turns.sent .step = [] := by
      simp [sent, Turns.handed, current]
    rw [handed]
    rcases step_of_current current with ⟨chunk, queue, -, read⟩ | ⟨chunk, queue, -, read⟩ |
      ⟨-, -, ends⟩ | ⟨-, -, stuck⟩
    · rw [next_of_step read]
      exact ⟨rfl, rfl, (List.append_nil _).symm⟩
    · rw [next_of_step read]
      exact carries_hear turns turn queue chunk
    · rw [next_of_step ends]
      exact carries_of_same rfl
    · rw [next_of_stuck stuck]
      exact carries_of_same rfl

theorem carries_next (turns : Turns) (event : Happening) :
    turns.Carries (turns.next event) (turns.sent event) := by
  cases event with
  | submit submission => exact carries_of_same rfl
  | act act =>
    have written : ∀ observed : Session, observed.written = turns.session.written →
        observed.written = turns.session.written ++ [] := by
      intro observed same
      rw [same, List.append_nil]
    cases act with
    | print chunk => exact ⟨rfl, rfl, written _ rfl⟩
    | complain chunk => exact ⟨rfl, rfl, written _ rfl⟩
    | close stream => cases stream <;> exact ⟨rfl, rfl, written _ rfl⟩
  | step => exact turns.carries_step
  | expire =>
    have same : (turns.next .expire).session = turns.session := by
      rw [Turns.next, expire]
      cases turns.current with
      | none => rfl
      | some turn =>
        cases limited : turn.limit with
        | none => simp [limited]
        | some limit => simp [limited, conclude]
    exact carries_of_same same

end Turns

namespace Registry

variable (registry : Registry) (key : String)

theorem get?_forget (other : String) :
    (registry.forget key).get? other = if other = key then none else registry.get? other := by
  by_cases same : other = key
  · rw [if_pos same, get?, forget, List.find?_filter]
    simp [same]
  · rw [if_neg same, get?, get?, forget, List.find?_filter]
    refine congrArg (Option.map Prod.snd) (congrFun (congrArg List.find? ?_) _)
    funext entry
    by_cases found : entry.1 = other
    · simp [found, same]
    · simp [found]

theorem get?_enter (session : Session) :
    (registry.enter session).2.get? key =
      if key = session.key then some registry.sessions.length else registry.get? key := by
  have forgotten := registry.get?_forget session.key key
  rw [get?] at forgotten ⊢
  by_cases same : key = session.key
  · rw [if_pos same] at forgotten ⊢
    rw [Option.map_eq_none_iff, same] at forgotten
    simp [enter, List.find?_append, forgotten, same]
  · rw [if_neg same] at forgotten ⊢
    have other : (session.key == key) = false := by simpa using fun h => same h.symm
    simp [enter, List.find?_append, other, ← forgotten]

theorem turns?_enter (session : Session) (number : Nat) :
    (registry.enter session).2.turns? number =
      if number = registry.sessions.length then some (.new session)
      else registry.turns? number := by
  simp only [turns?, enter]
  by_cases last : number = registry.sessions.length
  · rw [if_pos last, last]
    exact List.getElem?_concat_length
  · rw [if_neg last]
    by_cases earlier : number < registry.sessions.length
    · exact List.getElem?_append_left earlier
    · rw [List.getElem?_eq_none (by simp; omega), List.getElem?_eq_none (by omega)]

theorem turns?_update (number other : Nat) (change : Turns → Turns) :
    (registry.update number change).turns? other =
      if other = number then (registry.turns? other).map change else registry.turns? other := by
  simp only [turns?, update, List.getElem?_modify]
  by_cases same : other = number
  · simp [same]
  · have apart : ¬ number = other := fun h => same h.symm
    simp [same, apart]

theorem lt_of_turns? {registry : Registry} {number : Nat} {turns : Turns}
    (known : registry.turns? number = some turns) : number < registry.sessions.length := by
  obtain ⟨within, -⟩ := List.getElem?_eq_some_iff.mp known
  exact within

theorem mem_numbers_of_get? {registry : Registry} {key : String} {number : Nat}
    (stands : registry.get? key = some number) : number ∈ registry.table.map Prod.snd := by
  obtain ⟨entry, found, rfl⟩ := Option.map_eq_some_iff.mp stands
  exact List.mem_map_of_mem (List.mem_of_find?_eq_some found)

end Registry

end NotebookKernel
