import NotebookKernel.Proofs.Language.Exchange
import NotebookKernel.Proofs.Rpc.Table

/-!
# What a move does

Every move is a step of one of few kinds, and by each the correlator of the client goes through at
most one happening. What is true of a client in use is true because every kind of step keeps it
true.
-/

set_option autoImplicit false

namespace NotebookKernel.Language

open Rpc (Correlator Happening Receipt)

def Stage.id? : Stage → Option Nat
  | .writing id _ => id
  | .waiting id => some id
  | _ => none

/-- How a task goes on beside its letter, and what happens to its request. A task whose letter is
under way is not abandoned. -/
inductive Stage.Onward (correlator : Correlator) (handshake : Handshake) (held : Bool) :
    Stage → List Happening → Stage → Prop
  | answered {id : Nat} {outcome : Except Fault Reply}
      (ended : (correlator.receive id).1 ≠ .waiting) :
      Onward correlator handshake held (.waiting id) [.looked id] (.settled outcome)
  | expired {id : Nat} {outcome : Except Fault Reply} :
      Onward correlator handshake held (.waiting id) [.used (.cancel id)] (.settled outcome)
  | greeted {outcome : Except Fault Reply} (ended : handshake.outcome? = some outcome) :
      Onward correlator handshake held .greeting [] (.settled outcome)
  | left {stage : Stage} (free : held = false) (lasting : ∀ outcome, stage ≠ .settled outcome) :
      Onward correlator handshake held stage (stage.id?.toList.map .left) .abandoned

/-- What the greeting makes of a look at the receiver of its request. -/
inductive Handshake.Sees : Receipt → Handshake → Prop
  | answered {m : Rpc.Message} : Sees (.answer (.ok m)) .answered
  | failed {fault : Fault} : Sees (.answer (.error fault)) (.failed fault.message)
  | dropped {receipt : Receipt} (ended : receipt ≠ .waiting)
      (empty : ∀ answer, receipt ≠ .answer answer) :
      Sees receipt (.failed "initialize response dropped")

/-- What a call and a task are to each other when the task is begun without a request. -/
inductive Call.Begins : Call → Stage → Prop
  | refused {fault : Fault} : Begins .refused (.settled (.error fault))
  | told {notification : Rpc.Notification} :
      Begins (.send (.notification notification))
        (.writing none (Letter.notification notification).text)
  | awaits : Begins .await .greeting

def Author.cancelled (author : Author) (letter : Letter) : List Happening :=
  match author with
  | .opening | .task _ => letter.id?.toList.map fun id => .used (.cancel id)
  | _ => []

namespace Exchange

/-- What a move can do, and what happens to the correlator by it. -/
inductive Step (ex : Exchange) : List Happening → Exchange → Prop
  | still : Step ex [] ex
  | registered (process : Nat) (fresh : ex.opening = .fresh)
      (opened : ex.client.correlator.closedWith = none) :
      Step ex [.used (.request "initialize" (greetingParams process))]
        { ex with
          client := { ex.client with
            correlator := (ex.client.correlator.request "initialize" (greetingParams process)).2
            handshake := .waiting ex.client.correlator.nextId }
          opening := .asking
            ⟨Rpc.version, ex.client.correlator.nextId, "initialize", greetingParams process⟩ }
  | rebuffed (fault : Fault) (fresh : ex.opening = .fresh) :
      Step ex [] { ex with opening := .failed none fault }
  | taken {author : Author} {letter : Letter} (free : ex.pen = none)
      (ready : ex.draft? author = some letter) :
      Step ex [] { ex with pen := some ⟨author, letter, 0⟩ }
  | put {pen : Pen} (count : Nat) (writing : ex.pen = some pen) :
      Step ex []
        { ex with
          out := ex.out ++ (pen.letter.frame.drop pen.count).take count
          pen := some { pen with
            count := pen.count + ((pen.letter.frame.drop pen.count).take count).length } }
  | finished {pen : Pen} (writing : ex.pen = some pen)
      (whole : pen.count = pen.letter.frame.length) :
      Step ex [] ((ex.record pen.author pen.letter).proceed pen.letter pen.author)
  | refused {pen : Pen} (writing : ex.pen = some pen) (unwritten : pen.count = 0) :
      Step ex (pen.author.cancelled pen.letter)
        ({ ex with pen := none }.giveUp pen.letter pen.author)
  | asked {request : Rpc.Request} (wish : Wish) (method : String) (params : Json)
      (connected : ex.opening = .done request)
      (opened : ex.client.correlator.closedWith = none) {asking : Rpc.Request}
      (own : asking = ⟨Rpc.version, ex.client.correlator.nextId, method, params⟩) :
      Step ex [.used (.request method params)]
        { ex with
          client := { ex.client with
            correlator := (ex.client.correlator.request method params).2
            tasks := ex.client.tasks ++
              [⟨wish, .writing (some asking.id) (Letter.request asking).text⟩] }
          calls := ex.calls ++ [.send (.request asking)] }
  | begun {request : Rpc.Request} {call : Call} {task : Task}
      (connected : ex.opening = .done request) (begins : call.Begins task.stage) :
      Step ex []
        { ex with
          client := { ex.client with tasks := ex.client.tasks ++ [task] }
          calls := ex.calls ++ [call] }
  | parted {request : Rpc.Request} (connected : ex.opening = .done request) :
      Step ex [.used (.requestWithoutHandler "shutdown" .null)] ex.part
  | moved {number : Nat} {wish : Wish} {stage further : Stage} {history : List Happening}
      (found : ex.client.tasks[number]? = some ⟨wish, stage⟩)
      (onward : stage.Onward ex.client.correlator ex.client.handshake (ex.holds (.task number))
        history further) :
      Step ex history
        { ex with
          client := { ex.client with
            correlator := ex.client.correlator.through history }.setStage number further }
  | greeted {request : Rpc.Request} {id : Nat} {handshake : Handshake}
      (connected : ex.opening = .done request) (waits : ex.client.handshake = .waiting id)
      (sees : Handshake.Sees (ex.client.correlator.receive id).1 handshake) :
      Step ex [.looked id]
        { ex with
          client := { ex.client with
            correlator := (ex.client.correlator.receive id).2
            handshake } }
  | forsaken (number : Nat) (free : ex.holds (.shutdown number) = false)
      (free' : ex.holds (.exit number) = false) :
      Step ex [] { ex with partings := ex.partings.modify number Parting.forsake }
  | halted {number : Nat} {request : Rpc.Request} (rejected : Nat)
      (stopping : ex.partings[number]? = some ⟨request, .stopping⟩) :
      Step ex [.used (.rejectAll "language server stopped")]
        { ex with
          client := ex.client.stop.2
          partings := ex.partings.modify number (Parting.halt rejected) }
  | tornDown (reason : String) :
      Step ex [.used (.rejectAll reason)] { ex with client := (ex.client.endReading reason).2 }
  | heard (payload : Bytes) : Step ex [.used (.dispatchPayload payload)] (ex.hear payload)
  | deafened : Step ex [] { ex with client := ex.client.closeInput }

variable {ex : Exchange}

private theorem step_register (process : Nat) (fresh : ex.opening = .fresh) :
    ∃ history, ex.Step history (ex.register process) := by
  cases closed : ex.client.correlator.closedWith with
  | none =>
    have made : ex.client.correlator.request "initialize" (greetingParams process) =
        (.ok ⟨Rpc.version, ex.client.correlator.nextId, "initialize", greetingParams process⟩,
          (ex.client.correlator.request "initialize" (greetingParams process)).2) := by
      simp only [Correlator.request, closed]
      rfl
    rw [register, made]
    exact ⟨_, .registered process fresh closed⟩
  | some reason =>
    have made : ex.client.correlator.request "initialize" (greetingParams process) =
        (.error (.abandoned reason), ex.client.correlator) := by
      simp only [Correlator.request, closed]
    rw [register, made]
    exact ⟨_, .rebuffed _ fresh⟩

private theorem step_ask {request : Rpc.Request} (wish : Wish) (method : String) (params : Json)
    (connected : ex.opening = .done request) :
    ∃ history, ex.Step history (ex.ask wish method params) := by
  cases closed : ex.client.correlator.closedWith with
  | none =>
    have made : ex.client.correlator.request method params =
        (.ok ⟨Rpc.version, ex.client.correlator.nextId, method, params⟩,
          (ex.client.correlator.request method params).2) := by
      simp only [Correlator.request, closed]
      rfl
    rw [ask, callOf, Client.ask, made]
    exact ⟨_, .asked wish method params connected closed rfl⟩
  | some reason =>
    have made : ex.client.correlator.request method params =
        (.error (.abandoned reason), ex.client.correlator) := by
      simp only [Correlator.request, closed]
    rw [ask, callOf, Client.ask, made]
    exact ⟨_, .begun connected .refused⟩

private theorem step_take (author : Author) : ∃ history, ex.Step history (ex.take author) := by
  rw [take]
  split
  · next free ready => exact ⟨_, .taken free ready⟩
  · exact ⟨_, .still⟩

private theorem step_put (count : Nat) : ∃ history, ex.Step history (ex.put count) := by
  rw [put]
  split
  · next writing =>
    split
    · exact ⟨_, .put count writing⟩
    · exact ⟨_, .still⟩
  · exact ⟨_, .still⟩

private theorem step_finish : ∃ history, ex.Step history ex.finish := by
  rw [finish]
  split
  · next writing =>
    split
    · next whole => exact ⟨_, .finished writing whole⟩
    · exact ⟨_, .still⟩
  · exact ⟨_, .still⟩

private theorem step_refuse : ∃ history, ex.Step history ex.refuse := by
  rw [refuse]
  split
  · next writing =>
    split
    · next deaf => exact ⟨_, .refused writing deaf.1⟩
    · exact ⟨_, .still⟩
  · exact ⟨_, .still⟩

private theorem step_advance (number : Nat) : ∃ history, ex.Step history (ex.advance number) := by
  rw [advance]
  split
  · exact ⟨_, .still⟩
  · next idle =>
    rw [Client.advance.eq_def]
    cases found : ex.client.tasks[number]? with
    | none => exact ⟨_, .still⟩
    | some task =>
      obtain ⟨wish, stage⟩ := task
      cases stage with
      | writing id body => exact absurd found (idle wish id body)
      | waiting id =>
        dsimp only
        split
        · exact ⟨_, .still⟩
        · next outcome shown =>
          refine ⟨_, .moved found (.answered ?_)⟩
          intro waits
          rw [waits] at shown
          cases shown
      | greeting =>
        dsimp only
        split
        · exact ⟨_, .still⟩
        · next ended => exact ⟨_, .moved found (.greeted ended)⟩
      | settled outcome => exact ⟨_, .still⟩
      | abandoned => exact ⟨_, .still⟩

private theorem step_expire (number : Nat) :
    ∃ history, ex.Step history { ex with client := ex.client.expire number } := by
  rw [Client.expire.eq_def]
  split
  · next found _ => exact ⟨_, .moved found .expired⟩
  · exact ⟨_, .still⟩

private theorem step_abandon (number : Nat) : ∃ history, ex.Step history (ex.abandon number) := by
  rw [abandon]
  split
  · exact ⟨_, .still⟩
  · next held =>
    have free : ex.holds (.task number) = false := Bool.eq_false_iff.mpr held
    rw [Client.abandon.eq_def]
    cases found : ex.client.tasks[number]? with
    | none => exact ⟨_, .still⟩
    | some task =>
      obtain ⟨wish, stage⟩ := task
      cases stage with
      | writing id body =>
        cases id with
        | none => exact ⟨_, .moved found (.left free (by simp))⟩
        | some id => exact ⟨_, .moved found (.left free (by simp))⟩
      | waiting id => exact ⟨_, .moved found (.left free (by simp))⟩
      | greeting => exact ⟨_, .moved found (.left free (by simp))⟩
      | settled outcome => exact ⟨_, .still⟩
      | abandoned => exact ⟨_, .moved found (.left free (by simp))⟩

private theorem step_greet {request : Rpc.Request} (connected : ex.opening = .done request) :
    ∃ history, ex.Step history ex.greet := by
  rw [greet]
  split
  · next id waits =>
    have same : (∀ answer, (ex.client.correlator.receive id).1 ≠ .answer answer) →
        (ex.client.correlator.receive id).2 = ex.client.correlator := by
      rw [Correlator.receive]
      split <;> simp
    rw [Client.advanceHandshake.eq_def, waits]
    dsimp only
    have step := fun handshake => @Step.greeted ex request id handshake connected waits
    cases seen : (ex.client.correlator.receive id).1 with
    | waiting => exact ⟨_, .still⟩
    | answer answer =>
      rw [seen] at step
      cases answer with
      | ok m => exact ⟨_, step _ .answered⟩
      | error fault => exact ⟨_, step _ .failed⟩
    | _ =>
      rw [seen] at step same
      rw [same (by simp)] at step
      exact ⟨_, step _ (.dropped (by simp) (by simp))⟩
  · exact ⟨_, .still⟩

private theorem step_forsake (number : Nat) : ∃ history, ex.Step history (ex.forsake number) := by
  rw [forsake]
  split
  · exact ⟨_, .still⟩
  · next held =>
    simp only [Bool.or_eq_true, not_or, Bool.not_eq_true] at held
    exact ⟨_, .forsaken number held.1 held.2⟩

private theorem step_halt (number : Nat) : ∃ history, ex.Step history (ex.halt number) := by
  rw [halt.eq_def]
  split
  · next stopping => exact ⟨_, .halted _ stopping⟩
  · exact ⟨_, .still⟩

theorem step_next (ex : Exchange) (move : Move) : ∃ history, ex.Step history (ex.next move) := by
  rw [next.eq_def]
  split
  case h_1 fresh => exact step_register _ fresh
  case h_2 connected => exact step_ask _ _ _ connected
  case h_3 connected => exact ⟨_, .begun connected .told⟩
  case h_4 connected => exact ⟨_, .begun connected .awaits⟩
  case h_5 connected => exact ⟨_, .parted connected⟩
  case h_6 connected => exact step_greet connected
  case h_7 => exact ⟨_, .tornDown "language server stopped"⟩
  case h_8 => exact step_take _
  case h_9 => exact step_put _
  case h_10 => exact step_finish
  case h_11 => exact step_refuse
  case h_12 => exact step_advance _
  case h_13 => exact step_expire _
  case h_14 => exact step_abandon _
  case h_15 => exact step_forsake _
  case h_16 => exact step_halt _
  case h_17 => exact ⟨_, .heard _⟩
  case h_18 =>
    rw [Client.closeOutput]
    split
    · exact ⟨_, .tornDown "language server output closed"⟩
    · exact ⟨_, .still⟩
  case h_19 => exact ⟨_, .deafened⟩
  case h_20 => exact ⟨_, .still⟩

theorem foldl_kept {property : Exchange → Prop}
    (kept : ∀ {ex history later}, property ex → ex.Step history later → property later)
    (holds : property ex) (moves : List Move) : property (moves.foldl next ex) := by
  induction moves generalizing ex with
  | nil => exact holds
  | cons move moves ih =>
    obtain ⟨history, step⟩ := ex.step_next move
    exact ih (kept holds step)

/-- Two exchanges that differ in nothing that has to do with the pen, the wire or the server. -/
structure Aside (ex later : Exchange) : Prop where
  pen : later.pen = ex.pen
  out : later.out = ex.out
  written : later.written = ex.written
  sent : later.client.sent = ex.client.sent
  heard : later.heard = ex.heard

theorem aside_proceed (ex : Exchange) (letter : Letter) (author : Author) :
    ex.Aside (ex.proceed letter author) := by
  cases author <;> exact ⟨rfl, rfl, rfl, rfl, rfl⟩

theorem aside_giveUp (ex : Exchange) (letter : Letter) (author : Author) :
    ex.Aside (ex.giveUp letter author) := by
  have sent : (ex.client.cancel letter.id?).sent = ex.client.sent := by
    cases letter.id? <;> rfl
  cases author with
  | opening => exact ⟨rfl, rfl, rfl, sent, rfl⟩
  | task number => exact ⟨rfl, rfl, rfl, sent, rfl⟩
  | _ => exact ⟨rfl, rfl, rfl, rfl, rfl⟩

theorem written_step {history : List Happening} {later : Exchange} (step : ex.Step history later) :
    later.written = ex.written ∨ ∃ pen, ex.pen = some pen ∧
      later = (ex.record pen.author pen.letter).proceed pen.letter pen.author ∧
      later.written = ex.written ++ [⟨pen.author, pen.letter⟩] := by
  cases step with
  | @finished pen writing whole =>
    exact Or.inr ⟨pen, writing, rfl, (aside_proceed _ pen.letter pen.author).written⟩
  | @refused pen writing unwritten =>
    exact Or.inl (aside_giveUp { ex with pen := none } pen.letter pen.author).written
  | _ => exact Or.inl rfl

theorem heard_step {history : List Happening} {later : Exchange} (step : ex.Step history later) :
    later.heard = ex.heard ∨ ∃ payload, later = ex.hear payload := by
  cases step with
  | @finished pen writing whole => exact Or.inl (aside_proceed _ pen.letter pen.author).heard
  | @refused pen writing unwritten =>
    exact Or.inl (aside_giveUp { ex with pen := none } pen.letter pen.author).heard
  | heard payload => exact Or.inr ⟨payload, rfl⟩
  | _ => exact Or.inl rfl

private theorem through_cancelled (client : Client) (id? : Option Nat) :
    (client.cancel id?).correlator =
      client.correlator.through (id?.toList.map fun id => .used (.cancel id)) := by
  cases id? <;> rfl

theorem correlator_giveUp (ex : Exchange) (letter : Letter) (author : Author) :
    (ex.giveUp letter author).client.correlator =
      ex.client.correlator.through (author.cancelled letter) := by
  cases author with
  | opening => exact through_cancelled ex.client letter.id?
  | task number => exact through_cancelled ex.client letter.id?
  | greeting => rfl
  | shutdown number => rfl
  | exit number => rfl

theorem correlator_proceed (ex : Exchange) (letter : Letter) (author : Author) :
    (ex.proceed letter author).client.correlator = ex.client.correlator := by
  cases author <;> rfl

theorem correlator_step {history : List Happening} {later : Exchange}
    (step : ex.Step history later) :
    later.client.correlator = ex.client.correlator.through history := by
  cases step with
  | finished writing whole => exact correlator_proceed _ _ _
  | refused writing unwritten => exact correlator_giveUp _ _ _
  | _ => rfl

end Exchange

end NotebookKernel.Language
