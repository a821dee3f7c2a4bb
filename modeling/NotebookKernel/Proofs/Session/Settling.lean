import NotebookKernel.Proofs.Session.Tenure

/-!
# Coming to rest

After some happenings the turns go on by themselves, step by step, until all of them wait for the
interpreter. In these steps nothing arrives; outcomes are only added, and an output that has ended
stays so.
-/

set_option autoImplicit false

namespace NotebookKernel.Turns

theorem settle_of_stuck {turns : Turns} (stuck : turns.step = none) :
    turns.settle = turns := by
  rw [settle]
  split
  · rfl
  · next later done =>
    rw [stuck] at done
    cases done

theorem settle_of_step {turns later : Turns} (done : turns.step = some later) :
    turns.settle = later.settle := by
  rw [settle]
  split
  · next stuck =>
    rw [done] at stuck
    cases stuck
  · next other same =>
    rw [done, Option.some.injEq] at same
    rw [same]

theorem step_settle (turns : Turns) : turns.settle.step = none := by
  induction turns using settle.induct with
  | case1 turns stuck =>
    rw [settle_of_stuck stuck]
    exact stuck
  | case2 turns later done lighter ih =>
    rw [settle_of_step done]
    exact ih

private theorem foldl_replicate_of_stuck {turns : Turns} (stuck : turns.step = none) (n : Nat) :
    (List.replicate n Happening.step).foldl next turns = turns := by
  induction n with
  | zero => rfl
  | succ n ih => rw [List.replicate_succ, List.foldl_cons, next_of_stuck stuck, ih]

theorem foldl_replicate_step {n : Nat} {turns : Turns} (enough : turns.load ≤ n) :
    (List.replicate n Happening.step).foldl next turns = turns.settle := by
  induction n generalizing turns with
  | zero =>
    cases done : turns.step with
    | none => exact (settle_of_stuck done).symm
    | some later =>
      have lighter := load_step_lt done
      omega
  | succ n ih =>
    rw [List.replicate_succ, List.foldl_cons]
    cases done : turns.step with
    | none =>
      rw [next_of_stuck done, foldl_replicate_of_stuck done, settle_of_stuck done]
    | some later =>
      have lighter := load_step_lt done
      rw [next_of_step done, settle_of_step done]
      exact ih (by omega)

def toRest (turns : Turns) (events : List Happening) : List Happening :=
  events ++ List.replicate (events.foldl next turns).load .step

theorem foldl_toRest (turns : Turns) (events : List Happening) :
    (turns.toRest events).foldl next turns = (events.foldl next turns).settle := by
  rw [toRest, List.foldl_append]
  exact foldl_replicate_step (Nat.le_refl _)

theorem arrivals_toRest (turns : Turns) (events : List Happening) :
    arrivals turns (turns.toRest events) = arrivals turns events := by
  have quiet : ∀ (n : Nat) (t : Turns),
      arrivals t (List.replicate n .step) = ⟨[], []⟩ := by
    intro n
    induction n with
    | zero => exact fun _ => rfl
    | succ n ih => exact fun t => ih (t.next .step)
  rw [toRest, arrivals_append, quiet, List.append_nil, List.append_nil]

theorem isClosed_next {turns : Turns} (closed : turns.session.isClosed = true)
    (event : Happening) : (turns.next event).session.isClosed = true := by
  cases event with
  | submit submission => exact closed
  | act act =>
    have shut : turns.session.output.isOpen = false := by
      simpa [Session.isClosed] using closed
    have still : (turns.session.observe act).output.isOpen = false := by
      cases act with
      | print chunk => simp [Session.observe, Channel.push, shut]
      | complain chunk => exact shut
      | close stream => cases stream <;> first | exact shut | rfl
    simpa [Turns.next, observe, Session.isClosed] using still
  | step => exact turns.onward_step.isClosed.trans closed
  | expire => exact turns.onward_expire.isClosed.trans closed

theorem isClosed_settle (turns : Turns) :
    turns.settle.session.isClosed = turns.session.isClosed := by
  induction turns using settle.induct with
  | case1 turns stuck => rw [settle_of_stuck stuck]
  | case2 turns later done lighter ih =>
    have same := turns.onward_step.isClosed
    rw [next_of_step done] at same
    rw [settle_of_step done, ih, same]

theorem outcomes_next (turns : Turns) (event : Happening) :
    turns.outcomes <+: (turns.next event).outcomes := by
  cases event with
  | submit submission => exact List.prefix_refl _
  | act act => exact List.prefix_refl _
  | step => exact turns.onward_step.outcomes
  | expire => exact turns.onward_expire.outcomes

theorem isClosed_foldl {turns : Turns} (closed : turns.session.isClosed = true)
    (events : List Happening) : (events.foldl next turns).session.isClosed = true := by
  induction events generalizing turns with
  | nil => exact closed
  | cons event events ih => exact ih (isClosed_next closed event)

theorem outcomes_foldl (turns : Turns) (events : List Happening) :
    turns.outcomes <+: (events.foldl next turns).outcomes := by
  induction events generalizing turns with
  | nil => exact List.prefix_refl _
  | cons event events ih => exact (turns.outcomes_next event).trans (ih (turns.next event))

def enters (turns : Turns) : Happening → List (Nat × Submission)
  | .submit submission => [(turns.nextTicket, submission)]
  | _ => []

theorem line_next (turns : Turns) (event : Happening) :
    (turns.next event).line.Sublist (turns.line ++ turns.enters event) ∧
      (turns.next event).nextTicket = turns.nextTicket + (turns.enters event).length := by
  have quiet : turns.enters event = [] → (turns.next event).line <:+ turns.line →
      (turns.next event).nextTicket = turns.nextTicket →
      (turns.next event).line.Sublist (turns.line ++ turns.enters event) ∧
        (turns.next event).nextTicket = turns.nextTicket + (turns.enters event).length := by
    intro none shorter same
    rw [none, List.append_nil]
    exact ⟨shorter.sublist, same⟩
  cases event with
  | submit submission => exact ⟨List.Sublist.refl _, rfl⟩
  | act act => exact quiet rfl (List.suffix_refl _) rfl
  | step => exact quiet rfl turns.onward_step.line turns.onward_step.nextTicket
  | expire => exact quiet rfl turns.onward_expire.line turns.onward_expire.nextTicket

/-- A turn goes on, or it ends with an outcome. -/
def Pursues (turns later : Turns) (turn : Turn) : Prop :=
  (∃ again, later.current = some again ∧ again.ticket = turn.ticket ∧ again.limit = turn.limit ∧
      later.outcomes = turns.outcomes) ∨
    (later.current = none ∧ ∃ value, later.outcomes = turns.outcomes ++ [⟨turn.ticket, value⟩])

private theorem pursues_hear (turns : Turns) (turn : Turn) (session : Session) (chunk : Bytes) :
    turns.Pursues (turns.hear turn session chunk) turn := by
  unfold hear
  by_cases found : (turn.call.onStdout chunk).phase = .sentinelFound
  · rw [if_pos found]
    exact Or.inr ⟨rfl, _, rfl⟩
  · rw [if_neg found]
    exact Or.inl ⟨_, rfl, rfl, rfl, rfl⟩

private theorem pursues_step {turns : Turns} {turn : Turn} (current : turns.current = some turn) :
    turns.Pursues (turns.next .step) turn := by
  rcases step_of_current current with ⟨chunk, queue, -, read⟩ | ⟨chunk, queue, -, read⟩ |
    ⟨-, -, ended⟩ | ⟨-, -, stuck⟩
  · rw [next_of_step read]
    exact Or.inl ⟨_, rfl, rfl, rfl, rfl⟩
  · rw [next_of_step read]
    exact turns.pursues_hear turn _ chunk
  · rw [next_of_step ended]
    exact Or.inr ⟨rfl, _, rfl⟩
  · rw [next_of_stuck stuck]
    exact Or.inl ⟨turn, current, rfl, rfl, rfl⟩

private theorem pursues_expire {turns : Turns} {turn : Turn} (current : turns.current = some turn) :
    turns.Pursues (turns.next .expire) turn := by
  cases limited : turn.limit with
  | none =>
    rw [next_expire_of_unlimited current limited]
    exact Or.inl ⟨turn, current, rfl, rfl, rfl⟩
  | some limit =>
    have late : turns.next .expire =
        turns.conclude turn (.error (.timeout limit)) turns.session := by
      simp [Turns.next, expire, current, limited]
    rw [late]
    exact Or.inr ⟨rfl, _, rfl⟩

theorem pursues_next {turns : Turns} {turn : Turn} (current : turns.current = some turn)
    (event : Happening) : turns.Pursues (turns.next event) turn := by
  cases event with
  | submit submission => exact Or.inl ⟨turn, current, rfl, rfl, rfl⟩
  | act act => exact Or.inl ⟨turn, current, rfl, rfl, rfl⟩
  | step => exact pursues_step current
  | expire => exact pursues_expire current

end NotebookKernel.Turns
