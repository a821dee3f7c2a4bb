import NotebookKernel.Proofs.Language.Writing

/-!
# Letters that cannot be written

A write may fail whenever an author has the pen, for any reason and however much of the frame has
left. The author then goes on as it does when the server does not listen any more, but with the
fault that it met. A client in use goes through moves and failed writes in any order.
-/

set_option autoImplicit false

namespace NotebookKernel.Language

open Rpc (Correlator Happening)

def Opening.breakOff (fault : Fault) : Opening → Opening
  | .asking request => .failed (some request) fault
  | opening => opening

def Client.Left (client : Client) (number : Nat) : Prop :=
  ∃ wish, client.tasks[number]? = some ⟨wish, .abandoned⟩

namespace Exchange

/-- What happens to a client whose writes may fail. -/
inductive Event where
  | move (move : Move)
  /-- The letter under way cannot be written. -/
  | fail (fault : Fault)

def breakOff (ex : Exchange) (fault : Fault) (letter : Letter) : Author → Exchange
  | .opening =>
    { ex with client := ex.client.cancel letter.id?, opening := ex.opening.breakOff fault }
  | .greeting => { ex with client := { ex.client with handshake := .failed fault.message } }
  | .task number =>
    { ex with client := (ex.client.cancel letter.id?).setStage number (.settled (.error fault)) }
  | .shutdown number | .exit number =>
    { ex with partings := ex.partings.modify number Parting.giveUp }

def fail (ex : Exchange) (fault : Fault) : Exchange :=
  match ex.pen with
  | some pen => { ex with pen := none }.breakOff fault pen.letter pen.author
  | none => ex

def happen (ex : Exchange) : Event → Exchange
  | .move move => ex.next move
  | .fail fault => ex.fail fault

def following (limit : Option Duration) (inputOpen : Bool) (events : List Event) : Exchange :=
  events.foldl happen (new limit inputOpen)

/-- What can happen to a client, and to its correlator by it. -/
inductive Goes (ex : Exchange) : List Happening → Exchange → Prop
  | step {history : List Happening} {later : Exchange} (step : ex.Step history later) :
      Goes ex history later
  | broken {pen : Pen} (fault : Fault) (writing : ex.pen = some pen) :
      Goes ex (pen.author.cancelled pen.letter)
        ({ ex with pen := none }.breakOff fault pen.letter pen.author)

variable {ex : Exchange}

theorem giveUp_eq_breakOff (ex : Exchange) (letter : Letter) (author : Author) :
    ex.giveUp letter author = ex.breakOff .processExited letter author := by
  cases author with
  | opening =>
    have same : ex.opening.giveUp = ex.opening.breakOff .processExited := by
      cases ex.opening <;> rfl
    rw [giveUp, breakOff, same]
  | _ => rfl

theorem goes_happen (ex : Exchange) (event : Event) :
    ∃ history, ex.Goes history (ex.happen event) := by
  cases event with
  | move move =>
    obtain ⟨history, step⟩ := ex.step_next move
    exact ⟨history, .step step⟩
  | fail fault =>
    show ∃ history, ex.Goes history (ex.fail fault)
    rw [fail]
    split
    · next writing => exact ⟨_, .broken fault writing⟩
    · exact ⟨_, .step .still⟩

private theorem correlator_breakOff (ex : Exchange) (fault : Fault) (letter : Letter)
    (author : Author) : (ex.breakOff fault letter author).client.correlator =
      ex.client.correlator.through (author.cancelled letter) := by
  rw [← correlator_giveUp]
  cases author <;> rfl

theorem sameLetters_breakOff (ex : Exchange) (fault : Fault) (letter : Letter)
    (author : Author) : ex.SameLetters (ex.breakOff fault letter author) := by
  have same := sameLetters_giveUp ex letter author
  cases author with
  | opening =>
    refine ⟨?_, rfl, rfl⟩
    show (ex.opening.breakOff fault).request? = _
    cases ex.opening <;> rfl
  | _ => exact ⟨same.opening, same.calls, same.partings⟩

theorem aside_breakOff (ex : Exchange) (fault : Fault) (letter : Letter) (author : Author) :
    ex.Aside (ex.breakOff fault letter author) := by
  have aside := aside_giveUp ex letter author
  cases author <;> exact ⟨aside.pen, aside.out, aside.written, aside.sent, aside.heard⟩

theorem correlator_goes {history : List Happening} {later : Exchange}
    (goes : ex.Goes history later) :
    later.client.correlator = ex.client.correlator.through history := by
  cases goes with
  | step step => exact correlator_step step
  | broken fault writing => exact correlator_breakOff _ _ _ _

theorem heard_goes {history : List Happening} {later : Exchange} (goes : ex.Goes history later) :
    later.heard = ex.heard ∨ ∃ payload, later = ex.hear payload := by
  cases goes with
  | step step => exact heard_step step
  | broken fault writing => exact Or.inl (aside_breakOff _ _ _ _).heard

theorem held_goes {history : List Happening} {later : Exchange} (held : ex.Held)
    (goes : ex.Goes history later) : later.Held := by
  cases goes with
  | step step => exact held_step held step
  | broken fault writing =>
    intro pen left
    rw [(aside_breakOff _ _ _ _).pen] at left
    cases left

theorem numbered_goes {history : List Happening} {later : Exchange} (numbered : ex.Numbered)
    (goes : ex.Goes history later) : later.Numbered := by
  have grown : ex.client.correlator.nextId ≤ later.client.correlator.nextId := by
    rw [correlator_goes goes]
    exact Correlator.nextId_le_through _ _
  cases goes with
  | step step => exact numbered_step numbered step
  | @broken pen fault writing =>
    have same := sameLetters_breakOff { ex with pen := none } fault pen.letter pen.author
    have before := fun author => (same.letter? author).symm
    refine ⟨?_, ?_⟩
    · intro author letter id own named
      exact Nat.lt_of_lt_of_le (numbered.below author letter id ((before author).trans own) named)
        grown
    · intro author author' letter letter' id own own' named named'
      exact numbered.apart author author' letter letter' id ((before author).trans own)
        ((before author').trans own') named named'

private theorem left_of_setStage {client : Client} {number other : Nat} {stage : Stage}
    (stays : stage ≠ .abandoned) (left : (client.setStage number stage).Left other) :
    client.Left other := by
  obtain ⟨wish, found⟩ := left
  rw [Client.getElem?_setStage] at found
  split at found
  · obtain ⟨task, -, same⟩ := Option.map_eq_some_iff.mp found
    cases same
    exact absurd rfl stays
  · exact ⟨wish, found⟩

private theorem left_of_addTask {client : Client} {number : Nat} {wish : Wish} {stage : Stage}
    (stays : stage ≠ .abandoned) (left : (client.addTask wish stage).2.Left number) :
    client.Left number := by
  obtain ⟨other, found⟩ := left
  rcases getElem?_concat_cases found with old | ⟨-, new⟩
  · exact ⟨other, old⟩
  · cases new
    exact absurd rfl stays

private theorem left_of_cancel {client : Client} {number : Nat} {id? : Option Nat}
    (left : (client.cancel id?).Left number) : client.Left number := by
  cases id? <;> exact left

private theorem left_of_breakOff {fault : Fault} {letter : Letter} {author : Author} {number : Nat}
    (left : (ex.breakOff fault letter author).client.Left number) : ex.client.Left number := by
  cases author with
  | opening => exact left_of_cancel left
  | task other => exact left_of_cancel (left_of_setStage (by simp) left)
  | _ => exact left

private theorem left_of_proceed {letter : Letter} {author : Author} {number : Nat}
    (left : (ex.proceed letter author).client.Left number) : ex.client.Left number := by
  cases author with
  | task other =>
    refine left_of_setStage ?_ left
    cases letter <;> simp [Letter.stage, Letter.id?]
  | _ => exact left

private theorem left_of_ask {wish : Wish} {method : String} {params : Json} {number : Nat}
    (left : (ex.client.ask wish method params).2.Left number) : ex.client.Left number := by
  rw [Client.ask] at left
  split at left
  · exact left_of_addTask (by simp) left
  · exact left_of_addTask (by simp) left

private theorem left_of_advance {number other : Nat}
    (left : (ex.advance number).client.Left other) : ex.client.Left other := by
  rw [advance] at left
  split at left
  · exact left
  · next idle =>
    rw [Client.advance.eq_def] at left
    split at left
    · exact left
    · next task found =>
      split at left
      · next id body writes =>
        exact absurd (found.trans (by rw [← writes])) (idle task.wish id body)
      · dsimp only at left
        split at left
        · exact left
        · exact left_of_setStage (by simp) left
      · split at left
        · exact left
        · exact left_of_setStage (by simp) left
      · exact left
      · exact left

private theorem left_of_abandon {number other : Nat}
    (left : (ex.abandon number).client.Left other) : ex.client.Left other ∨ number = other := by
  by_cases same : number = other
  · exact Or.inr same
  rw [abandon] at left
  split at left
  · exact Or.inl left
  · have elsewhere : ∀ client : Client, client.tasks = ex.client.tasks →
        (client.setStage number .abandoned).Left other → ex.client.Left other := by
      rintro client tasks ⟨wish, found⟩
      rw [Client.getElem?_setStage, if_neg same, tasks] at found
      exact ⟨wish, found⟩
    rw [Client.abandon.eq_def] at left
    split at left
    · exact Or.inl left
    · exact Or.inl left
    all_goals exact Or.inl (elsewhere _ rfl left)

private theorem left_of_next {move : Move} {number : Nat}
    (left : (ex.next move).client.Left number) :
    ex.client.Left number ∨ move = .abandon number := by
  rw [next.eq_def] at left
  split at left
  case h_1 =>
    rw [register] at left
    split at left <;> exact Or.inl left
  case h_2 => exact Or.inl (left_of_ask left)
  case h_3 => exact Or.inl (left_of_addTask (by simp) left)
  case h_4 => exact Or.inl (left_of_addTask (by simp) left)
  case h_6 =>
    rw [greet] at left
    split at left
    · next waits =>
      rw [Client.advanceHandshake.eq_def, waits] at left
      dsimp only at left
      split at left <;> exact Or.inl left
    · exact Or.inl left
  case h_8 =>
    rw [take] at left
    split at left <;> exact Or.inl left
  case h_9 =>
    rw [put] at left
    split at left
    · split at left <;> exact Or.inl left
    · exact Or.inl left
  case h_10 =>
    rw [finish] at left
    split at left
    · split at left
      · exact Or.inl (@left_of_proceed (ex.record _ _) _ _ _ left)
      · exact Or.inl left
    · exact Or.inl left
  case h_11 =>
    rw [refuse] at left
    split at left
    · split at left
      · rw [giveUp_eq_breakOff] at left
        exact Or.inl (@left_of_breakOff { ex with pen := none } _ _ _ _ left)
      · exact Or.inl left
    · exact Or.inl left
  case h_12 => exact Or.inl (left_of_advance left)
  case h_13 =>
    rw [Client.expire.eq_def] at left
    split at left
    · exact Or.inl (left_of_cancel (left_of_setStage (by simp) left))
    · exact Or.inl left
  case h_14 =>
    exact (left_of_abandon left).imp_right fun same => by rw [same]
  case h_15 =>
    rw [forsake] at left
    split at left <;> exact Or.inl left
  case h_16 =>
    rw [halt.eq_def] at left
    split at left <;> exact Or.inl left
  case h_18 =>
    rw [Client.closeOutput] at left
    split at left <;> exact Or.inl left
  all_goals exact Or.inl left

theorem left_of_happen {event : Event} {number : Nat}
    (left : (ex.happen event).client.Left number) :
    ex.client.Left number ∨ event = .move (.abandon number) := by
  cases event with
  | move move => exact (left_of_next left).imp_right (congrArg Event.move)
  | fail fault =>
    rw [happen, fail] at left
    split at left
    · exact Or.inl (@left_of_breakOff { ex with pen := none } _ _ _ _ left)
    · exact Or.inl left

theorem left_of_following {limit : Option Duration} {inputOpen : Bool} {events : List Event}
    {number : Nat} (left : (following limit inputOpen events).client.Left number) :
    .move (.abandon number) ∈ events := by
  have gone : ∀ ex : Exchange, (events.foldl happen ex).client.Left number →
      ex.client.Left number ∨ .move (.abandon number) ∈ events := by
    clear left
    induction events with
    | nil => exact fun _ left => Or.inl left
    | cons event events ih =>
      intro ex left
      rcases ih (ex.happen event) left with before | later
      · exact (left_of_happen before).imp_right fun same => by rw [same]; exact List.mem_cons_self
      · exact Or.inr (List.mem_cons_of_mem _ later)
  rcases gone _ left with ⟨wish, found⟩ | member
  · cases found
  · exact member

end Exchange

end NotebookKernel.Language
