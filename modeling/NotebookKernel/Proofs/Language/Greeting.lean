import NotebookKernel.Proofs.Language.Calls
import NotebookKernel.Proofs.Rpc.Sending

/-!
# The greeting

The greeting waits for the response to the first request, whose receiver nobody else touches. It is
answered when a response was delivered there, and it fails when the correlator was closed before.
From this and from what is written follows what callers can rely on, in whatever order things
happen.
-/

set_option autoImplicit false

namespace NotebookKernel.Language

open Rpc (Correlator Happening)

def Opening.isUp : Opening → Bool
  | .asking _ | .done _ => true
  | _ => false

namespace Exchange

variable {ex : Exchange}

/-- A response to the first request was delivered. -/
def Answered (ex : Exchange) : Prop :=
  ∃ m, (m, Rpc.Dispatch.delivered 1) ∈ ex.heard ∧ m.method = none ∧ m.numericId? = some 1

/-- What the greeting finds at its receiver: nothing yet, a fault, or a response. -/
def Expecting (ex : Exchange) : Prop :=
  ∃ r, ex.client.correlator.receiver? 1 = some r ∧
    (r = .waiting ∨ (∃ fault, r = .holding (.error fault)) ∨
      (∃ m, r = .holding (.ok m)) ∧ ex.Answered)

/-- How far the greeting has come, and why. -/
structure Greeted (ex : Exchange) : Prop where
  attended : ex.client.correlator.Attended
  own : ∀ id, ex.client.handshake = .waiting id → id = 1
  receiver : ex.opening.isUp = true → ex.client.handshake = .waiting 1 → ex.Expecting
  answered : ex.client.handshake = .answered → ex.Answered
  ready : ex.client.handshake = .ready → ex.Answered ∧ ex.Wrote .greeting
  failed : ∀ reason, ex.client.handshake = .failed reason → ex.Answered ∨
    ∃ told, ex.client.correlator.closedWith = some told ∧ reason = (Fault.abandoned told).message

theorem Greeted.of_answered (attended : ex.client.correlator.Attended)
    (seen : ex.client.handshake = .answered) (told : ex.Answered) : ex.Greeted := by
  refine ⟨attended, ?_, ?_, fun _ => told, ?_, ?_⟩ <;> rw [seen]
  · rintro id ⟨⟩
  · rintro up ⟨⟩
  · rintro ⟨⟩
  · rintro reason ⟨⟩

theorem Greeted.of_ready (attended : ex.client.correlator.Attended)
    (done : ex.client.handshake = .ready) (told : ex.Answered) (wrote : ex.Wrote .greeting) :
    ex.Greeted := by
  refine ⟨attended, ?_, ?_, fun _ => told, fun _ => ⟨told, wrote⟩, ?_⟩ <;> rw [done]
  · rintro id ⟨⟩
  · rintro up ⟨⟩
  · rintro reason ⟨⟩

theorem Greeted.of_failed {reason : String} (attended : ex.client.correlator.Attended)
    (failed : ex.client.handshake = .failed reason) (why : ex.Answered ∨
      ∃ told, ex.client.correlator.closedWith = some told ∧
        reason = (Fault.abandoned told).message) : ex.Greeted := by
  refine ⟨attended, ?_, ?_, ?_, ?_, ?_⟩ <;> rw [failed]
  · rintro id ⟨⟩
  · rintro up ⟨⟩
  · rintro ⟨⟩
  · rintro ⟨⟩
  · rintro other ⟨⟩
    exact why

theorem one_ne_of_letter? {number id : Nat} {letter : Letter} (orderly : ex.Orderly)
    (up : ex.opening.isUp = true) (own : ex.letter? (.task number) = some letter)
    (named : letter.id? = some id) : 1 ≠ id := by
  rintro rfl
  have asked : ∃ request, ex.opening.request? = some request := by
    cases opening : ex.opening with
    | asking request => exact ⟨request, rfl⟩
    | done request => exact ⟨request, rfl⟩
    | _ => rw [opening] at up; cases up
  obtain ⟨request, asked⟩ := asked
  obtain ⟨process, same⟩ := orderly.begun.request request asked
  have first : ex.letter? .opening = some (.opening process) := by
    rw [letter?, asked, ← same]
    rfl
  have clash := orderly.numbered.apart _ _ _ _ 1 own first named rfl
  cases clash

theorem answered_step {history : List Happening} {later : Exchange} (answered : ex.Answered)
    (step : ex.Step history later) : later.Answered := by
  obtain ⟨m, delivered, response⟩ := answered
  refine ⟨m, ?_, response⟩
  rcases heard_step step with same | ⟨payload, rfl⟩
  · rw [same]
    exact delivered
  · exact List.mem_append_left _ delivered

private theorem expecting_spared {later : Exchange} {happening : Happening}
    (spares : happening.Spares 1)
    (effect : later.client.correlator = happening.run ex.client.correlator)
    (answered : ex.Answered → later.Answered) (expecting : ex.Expecting) : later.Expecting := by
  obtain ⟨r, shown, kind⟩ := expecting
  rcases spares.receiver? shown with same | ⟨fault, filled⟩
  · rw [← effect] at same
    exact ⟨r, same, kind.imp_right (Or.imp_right (And.imp_right answered))⟩
  · rw [← effect] at filled
    refine ⟨_, filled, ?_⟩
    rcases kind with rfl | ⟨told, rfl⟩ | ⟨⟨m, rfl⟩, told⟩
    · exact Or.inr (Or.inl ⟨fault, rfl⟩)
    · exact Or.inr (Or.inl ⟨told, rfl⟩)
    · exact Or.inr (Or.inr ⟨⟨m, rfl⟩, answered told⟩)

private theorem expecting_same {later : Exchange}
    (effect : later.client.correlator = ex.client.correlator)
    (answered : ex.Answered → later.Answered) (expecting : ex.Expecting) : later.Expecting := by
  obtain ⟨r, shown, kind⟩ := expecting
  rw [← effect] at shown
  exact ⟨r, shown, kind.imp_right (Or.imp_right (And.imp_right answered))⟩

private theorem expecting_heard (payload : Bytes) (expecting : ex.Expecting) :
    (ex.hear payload).Expecting := by
  have answered : ex.Answered → (ex.hear payload).Answered :=
    fun answered => answered_step answered (.heard payload)
  obtain ⟨r, shown, kind⟩ := expecting
  rcases Rpc.receiver?_dispatchPayload shown payload with same | ⟨m, parsed, delivered, filled⟩
  · exact ⟨r, same, kind.imp_right (Or.imp_right (And.imp_right answered))⟩
  · refine ⟨_, filled, ?_⟩
    rcases kind with rfl | ⟨told, rfl⟩ | ⟨⟨m, rfl⟩, told⟩
    · obtain ⟨response, own, -⟩ := (ex.client.correlator.dispatch_fst_eq_delivered m 1).mp delivered
      refine Or.inr (Or.inr ⟨⟨m, rfl⟩, m, ?_, response, own⟩)
      refine List.mem_append_right _ (List.mem_map.mpr ⟨m, ?_, by rw [delivered]⟩)
      rw [parsed]
      exact List.mem_singleton_self m
    · exact Or.inr (Or.inl ⟨told, rfl⟩)
    · exact Or.inr (Or.inr ⟨⟨m, rfl⟩, answered told⟩)

private theorem greeted_aside {history : List Happening} {later : Exchange} (greeted : ex.Greeted)
    (step : ex.Step history later) (same : later.client.handshake = ex.client.handshake)
    (up : later.opening.isUp = true → ex.opening.isUp = true)
    (expecting : later.opening.isUp = true → ex.Expecting → later.Expecting) : later.Greeted := by
  have effect := correlator_step step
  have stored : ∀ told, ex.client.correlator.closedWith = some told →
      later.client.correlator.closedWith = some told := by
    intro told closed
    rw [effect, Correlator.closedWith_through, closed, Option.some_or]
  refine ⟨?_, ?_, ?_, ?_, ?_, ?_⟩
  · rw [effect]
    exact Correlator.attended_through greeted.attended history
  · rw [same]
    exact greeted.own
  · rw [same]
    exact fun ended waits => expecting ended (greeted.receiver (up ended) waits)
  · rw [same]
    exact fun answered => answered_step (greeted.answered answered) step
  · rw [same]
    intro ready
    obtain ⟨answered, wrote⟩ := greeted.ready ready
    exact ⟨answered_step answered step, wrote_step wrote step⟩
  · rw [same]
    intro reason failed
    rcases greeted.failed reason failed with answered | ⟨told, closed, text⟩
    · exact Or.inl (answered_step answered step)
    · exact Or.inr ⟨told, stored told closed, text⟩

private theorem one_ne_of_task {number id : Nat} {task : Task} (orderly : ex.Orderly)
    (matched : ex.Matched) (up : ex.opening.isUp = true)
    (found : ex.client.tasks[number]? = some task) (asks : task.stage.id? = some id) : 1 ≠ id := by
  have inside := (List.getElem?_eq_some_iff.mp found).1
  rw [← matched.length] at inside
  have called := List.getElem?_eq_getElem inside
  obtain ⟨letter, same, named⟩ := (matched.suits number _ task called found).letter asks
  rw [same] at called
  exact one_ne_of_letter? orderly up (by rw [letter?, called]) named

private theorem greeted_register {history : List Happening} {process : Nat} {later : Exchange}
    (orderly : ex.Orderly) (greeted : ex.Greeted) (fresh : ex.opening = .fresh)
    (opened : ex.client.correlator.closedWith = none) (step : ex.Step history later)
    (effect : later.client.correlator =
      (ex.client.correlator.request "initialize" (greetingParams process)).2)
    (waits : later.client.handshake = .waiting ex.client.correlator.nextId) : later.Greeted := by
  obtain ⟨next, nobody⟩ := orderly.begun.unused fresh
  rw [next] at waits
  refine ⟨?_, ?_, ?_, ?_, ?_, ?_⟩
  · rw [correlator_step step]
    exact Correlator.attended_through greeted.attended _
  · rw [waits]
    rintro id ⟨⟩
    rfl
  · intro _ _
    refine ⟨.waiting, ?_, Or.inl rfl⟩
    rw [effect, Rpc.Correlator.receiver?_request opened, nobody, next]
    rfl
  · rw [waits]
    rintro ⟨⟩
  · rw [waits]
    rintro ⟨⟩
  · rw [waits]
    rintro reason ⟨⟩

private theorem greeted_finish {pen : Pen} (orderly : ex.Orderly) (greeted : ex.Greeted)
    (writing : ex.pen = some pen) (whole : pen.count = pen.letter.frame.length) :
    ((ex.record pen.author pen.letter).proceed pen.letter pen.author).Greeted := by
  have step := Step.finished writing whole
  have ready := orderly.held pen writing
  obtain ⟨author, letter, count⟩ := pen
  cases ready with
  | @opening request asks =>
    refine greeted_aside greeted step rfl (fun _ => ?_) fun _ expecting => expecting
    rw [asks]
    rfl
  | greeting connected answered =>
    have told := answered_step (greeted.answered answered) step
    exact .of_ready greeted.attended rfl told
      ⟨_, List.mem_append_right _ (List.mem_singleton_self _), rfl⟩
  | task writes call => exact greeted_aside greeted step rfl id fun _ expecting => expecting
  | shutdown asks => exact greeted_aside greeted step rfl id fun _ expecting => expecting
  | exit leaves => exact greeted_aside greeted step rfl id fun _ expecting => expecting

private theorem greeted_refuse {pen : Pen} (orderly : ex.Orderly) (greeted : ex.Greeted)
    (writing : ex.pen = some pen) (unwritten : pen.count = 0) :
    ({ ex with pen := none }.giveUp pen.letter pen.author).Greeted := by
  have step := Step.refused writing unwritten
  have answered := fun told : ex.Answered => answered_step told step
  have ready := orderly.held pen writing
  obtain ⟨author, letter, count⟩ := pen
  have own := ready.letter?
  cases ready with
  | @opening request asks =>
    have down : ex.opening.giveUp.isUp ≠ true := by
      rw [asks]
      exact Bool.false_ne_true
    exact greeted_aside greeted step rfl (fun up => absurd up down) fun up => absurd up down
  | greeting connected answered' =>
    exact .of_failed greeted.attended rfl (Or.inl (answered (greeted.answered answered')))
  | @task number wish _ body letter writes call =>
    have effect := correlator_step step
    have same : (ex.client.cancel letter.id?).handshake = ex.client.handshake := by
      cases letter.id? <;> rfl
    refine greeted_aside greeted step same id fun up => ?_
    cases named : letter.id? with
    | none =>
      rw [Author.cancelled, named] at effect
      exact expecting_same effect answered
    | some id =>
      rw [Author.cancelled, named] at effect
      exact expecting_spared (.cancel (one_ne_of_letter? orderly up own named)) effect answered
  | shutdown asks => exact greeted_aside greeted step rfl id fun _ expecting => expecting
  | exit leaves => exact greeted_aside greeted step rfl id fun _ expecting => expecting

/-- A look at the receiver of the greeting shows a fault, by which it has failed, or a response. -/
private theorem greeted_see {handshake : Handshake} {request : Rpc.Request} (greeted : ex.Greeted)
    (connected : ex.opening = .done request) (waits : ex.client.handshake = .waiting 1)
    (sees : Handshake.Sees (ex.client.correlator.receive 1).1 handshake) :
    { ex with
      client := { ex.client with
        correlator := (ex.client.correlator.receive 1).2, handshake } }.Greeted := by
  have step := Step.greeted connected waits sees
  have attended := Correlator.attended_through greeted.attended [.looked 1]
  have stored := ex.client.correlator.closedWith_through [.looked 1]
  obtain ⟨r, shown, kind⟩ := greeted.receiver (by rw [connected]; rfl) waits
  -- What was seen follows from the receiver, and what the greeting makes of it from what was seen.
  generalize seen : (ex.client.correlator.receive 1).1 = receipt at sees
  rw [Correlator.receive, shown] at seen
  rcases kind with rfl | ⟨fault, rfl⟩ | ⟨⟨m, rfl⟩, told⟩
  · subst seen
    cases sees with
    | dropped ended empty => exact absurd rfl ended
  · subst seen
    cases sees with
    | failed =>
      obtain ⟨told, closed, rfl⟩ := greeted.attended.told 1 fault shown
      rw [closed] at stored
      exact .of_failed attended rfl (Or.inr ⟨told, stored, rfl⟩)
    | dropped ended empty => exact absurd rfl (empty _)
  · subst seen
    cases sees with
    | answered => exact .of_answered attended rfl (answered_step told step)
    | dropped ended empty => exact absurd rfl (empty _)

theorem greeted_step {history : List Happening} {later : Exchange} (orderly : ex.Orderly)
    (matched : ex.Matched) (greeted : ex.Greeted) (step : ex.Step history later) :
    later.Greeted := by
  have answered : ex.Answered → later.Answered := fun told => answered_step told step
  have step' := step
  cases step with
  | still => exact greeted
  | registered process fresh opened =>
    exact greeted_register orderly greeted fresh opened step' rfl rfl
  | rebuffed fault fresh =>
    exact greeted_aside greeted step' rfl (fun up => nomatch up) fun _ expecting => expecting
  | finished writing whole => exact greeted_finish orderly greeted writing whole
  | refused writing unwritten => exact greeted_refuse orderly greeted writing unwritten
  | asked wish method params connected opened own =>
    exact greeted_aside greeted step' rfl id fun _ =>
      expecting_spared (.request method params) rfl answered
  | parted connected =>
    exact greeted_aside greeted step' rfl id fun _ =>
      expecting_spared (.requestWithoutHandler "shutdown" .null) rfl answered
  | @moved number wish stage further history found onward =>
    refine greeted_aside greeted step' rfl id fun up => ?_
    have apart : ∀ id, stage.id? = some id → 1 ≠ id :=
      fun id asks => one_ne_of_task orderly matched up found asks
    cases onward with
    | answered => exact expecting_spared (.looked (apart _ rfl)) rfl answered
    | expired => exact expecting_spared (.cancel (apart _ rfl)) rfl answered
    | greeted ended => exact fun expecting => expecting
    | left free lasting =>
      cases asks : stage.id? with
      | none => exact fun expecting => expecting
      | some id => exact expecting_spared (.left (apart id asks)) rfl answered
  | greeted connected waits sees =>
    cases greeted.own _ waits
    exact greeted_see greeted connected waits sees
  | halted rejected stopping =>
    exact greeted_aside greeted step' rfl id fun _ =>
      expecting_spared (.rejectAll "language server stopped") rfl answered
  | tornDown reason =>
    exact greeted_aside greeted step' rfl id fun _ =>
      expecting_spared (.rejectAll reason) rfl answered
  | heard payload =>
    exact greeted_aside greeted step' rfl id fun _ => expecting_heard payload
  | _ => exact greeted_aside greeted step' rfl id fun _ expecting => expecting

/-- What is true of a client in use. -/
structure Sound (ex : Exchange) : Prop where
  orderly : ex.Orderly
  matched : ex.Matched
  greeted : ex.Greeted

theorem sound_new (limit : Option Duration) (inputOpen : Bool) : (new limit inputOpen).Sound where
  orderly := orderly_new limit inputOpen
  matched := ⟨rfl, fun _ _ _ called => (nomatch called)⟩
  greeted := by
    refine ⟨Correlator.attended_new, ?_, fun up => (nomatch up), fun answered => (nomatch answered),
      fun ready => (nomatch ready), fun _ failed => (nomatch failed)⟩
    rintro id ⟨⟩
    rfl

theorem sound_step {history : List Happening} {later : Exchange} (sound : ex.Sound)
    (step : ex.Step history later) : later.Sound where
  orderly := orderly_step sound.orderly step
  matched := matched_step sound.orderly sound.matched step
  greeted := greeted_step sound.orderly sound.matched sound.greeted step

theorem sound_after (limit : Option Duration) (inputOpen : Bool) (moves : List Move) :
    (after limit inputOpen moves).Sound :=
  foldl_kept sound_step (sound_new limit inputOpen) moves

/-- The correlator was closed for a reason before the first request was answered. -/
structure Forlorn (reason : String) (ex : Exchange) : Prop where
  closed : ex.client.correlator.closedWith = some reason
  unanswered : ∀ m, (m, Rpc.Dispatch.delivered 1) ∉ ex.heard

theorem forlorn_step {reason : String} {history : List Happening} {later : Exchange}
    (attended : ex.client.correlator.Attended) (forlorn : ex.Forlorn reason)
    (step : ex.Step history later) : later.Forlorn reason := by
  refine ⟨?_, ?_⟩
  · rw [correlator_step step, Correlator.closedWith_through, forlorn.closed, Option.some_or]
  · intro m member
    rcases heard_step step with same | ⟨payload, rfl⟩
    · rw [same] at member
      exact forlorn.unanswered m member
    · rcases List.mem_append.mp member with old | new
      · exact forlorn.unanswered m old
      · obtain ⟨heard, -, same⟩ := List.mem_map.mp new
        obtain ⟨-, -, waits⟩ := (ex.client.correlator.dispatch_fst_eq_delivered heard 1).mp
          (congrArg Prod.snd same)
        rw [attended.emptied reason forlorn.closed] at waits
        cases waits

theorem Forlorn.outcome {reason : String} {outcome : Except Fault Reply} (sound : ex.Sound)
    (forlorn : ex.Forlorn reason) (ended : ex.client.handshake.outcome? = some outcome) :
    outcome = .error (.abandoned (Fault.abandoned reason).message) := by
  have unanswered : ¬ ex.Answered := fun ⟨m, delivered, _⟩ => forlorn.unanswered m delivered
  cases handshake : ex.client.handshake with
  | waiting id =>
    rw [handshake] at ended
    cases ended
  | answered =>
    rw [handshake] at ended
    cases ended
  | ready => exact absurd (sound.greeted.ready handshake).1 unanswered
  | failed text =>
    rcases sound.greeted.failed text handshake with answered | ⟨told, closed, rfl⟩
    · exact absurd answered unanswered
    · rw [handshake] at ended
      cases ended
      cases forlorn.closed.symm.trans closed
      rfl

private theorem Forlorn.greet {reason : String} {request : Rpc.Request} (sound : ex.Sound)
    (forlorn : ex.Forlorn reason) (connected : ex.opening = .done request) :
    ∃ outcome, ex.greet.client.handshake.outcome? = some outcome ∧
      ex.greet.client.tasks = ex.client.tasks := by
  have unanswered : ¬ ex.Answered := fun ⟨m, delivered, _⟩ => forlorn.unanswered m delivered
  have up : ex.opening.isUp = true := by
    rw [connected]
    rfl
  rw [Exchange.greet]
  cases handshake : ex.client.handshake with
  | waiting id =>
    cases sound.greeted.own id handshake
    obtain ⟨r, shown, kind⟩ := sound.greeted.receiver up handshake
    rcases kind with rfl | ⟨fault, rfl⟩ | ⟨-, answered⟩
    · -- Whoever waits is in the table, and that of a closed correlator is empty.
      have listed := sound.greeted.attended.listed 1 shown
      rw [sound.greeted.attended.emptied reason forlorn.closed] at listed
      cases listed
    · have seen : (ex.client.correlator.receive 1).1 = .answer (.error fault) := by
        rw [Correlator.receive, shown]
      have failed : ex.client.advanceHandshake = { ex.client with
          correlator := (ex.client.correlator.receive 1).2
          handshake := .failed fault.message } := by
        simp only [Client.advanceHandshake, handshake, seen]
      dsimp only
      rw [failed]
      exact ⟨_, rfl, rfl⟩
    · exact absurd answered unanswered
  | answered => exact absurd (sound.greeted.answered handshake) unanswered
  | ready => exact absurd (sound.greeted.ready handshake).1 unanswered
  | failed text => exact ⟨_, by rw [handshake]; rfl, rfl⟩

theorem Forlorn.told {reason : String} {request : Rpc.Request} {number : Nat} {wish : Wish}
    (sound : ex.Sound) (forlorn : ex.Forlorn reason) (connected : ex.opening = .done request)
    (waits : ex.client.tasks[number]? = some ⟨wish, .greeting⟩) :
    ([.greet, .advance number].foldl next ex).client.outcome? number =
      some (.error (.abandoned (Fault.abandoned reason).message)) := by
  have greets : ex.next .greet = ex.greet := by simp only [next, connected]
  obtain ⟨outcome, ended, tasks⟩ := forlorn.greet sound connected
  obtain ⟨history, step⟩ := ex.step_next .greet
  rw [greets] at step
  have forlorn' := forlorn_step sound.greeted.attended forlorn step
  have same := forlorn'.outcome (sound_step sound step) ended
  rw [← tasks] at waits
  show ((ex.next .greet).advance number).client.outcome? number = _
  rw [greets, Exchange.advance, waits]
  dsimp only
  rw [Client.advance, waits]
  dsimp only
  rw [ended, ← same]
  dsimp only
  rw [Client.outcome?, Client.getElem?_setStage, if_pos rfl, waits]
  rfl

end Exchange

namespace Exchange

variable {ex : Exchange}

def letters (ex : Exchange) : List Letter :=
  ex.written.map Entry.letter

theorem settled_of_outcome? {number : Nat} {outcome : Except Fault Reply}
    (ended : ex.client.outcome? number = some outcome) :
    ∃ wish, ex.client.tasks[number]? = some ⟨wish, .settled outcome⟩ := by
  rw [Client.outcome?] at ended
  split at ended
  · next wish settled found =>
    cases ended
    exact ⟨wish, found⟩
  · cases ended

private theorem Sound.sent {number : Nat} {letter : Letter} (sound : ex.Sound)
    (called : ex.calls[number]? = some (.send letter))
    (went : (∃ wish id, ex.client.tasks[number]? = some ⟨wish, .waiting id⟩) ∨
      ∃ reply, ex.client.outcome? number = some (.ok reply)) :
    ⟨.task number, letter⟩ ∈ ex.written := by
  have wrote : ex.Wrote (.task number) := by
    rcases went with ⟨wish, id, found⟩ | ⟨reply, ended⟩
    · cases sound.matched.suits number _ _ called found with
      | waiting named written => exact written
    · obtain ⟨wish, found⟩ := settled_of_outcome? ended
      cases sound.matched.suits number _ _ called found with
      | sent written => exact written
  obtain ⟨⟨author, other⟩, member, rfl⟩ := wrote
  have own := sound.orderly.entered.own _ member
  rw [letter?, called] at own
  cases own
  exact member

private theorem Sound.outcome {number : Nat} {outcome : Except Fault Reply} (sound : ex.Sound)
    (called : ex.calls[number]? = some .await)
    (ended : ex.client.outcome? number = some outcome) :
    ex.client.handshake.outcome? = some outcome := by
  obtain ⟨wish, found⟩ := settled_of_outcome? ended
  cases sound.matched.suits number _ _ called found with
  | greeted ended => exact ended

private theorem Sound.first {letter : Letter} (sound : ex.Sound)
    (head : ex.letters.head? = some letter) : ∃ process,
    letter = .request ⟨Rpc.version, 1, "initialize", greetingParams process⟩ := by
  by_cases connected : ∃ request, ex.opening = .done request
  · obtain ⟨request, connected⟩ := connected
    obtain ⟨later, written⟩ := sound.orderly.begun.first request connected
    obtain ⟨process, same⟩ := sound.orderly.begun.request request (by rw [connected]; rfl)
    rw [letters, written] at head
    cases head
    exact ⟨process, same⟩
  · obtain ⟨-, -, -, written⟩ := sound.orderly.begun.idle (not_exists.mp connected)
    rw [letters, written] at head
    cases head

private theorem Sound.connected {number : Nat} (sound : ex.Sound)
    (called : ex.calls[number]? = some .await) : ∃ request, ex.opening = .done request := by
  by_contra unconnected
  obtain ⟨-, calls, -, -⟩ := sound.orderly.begun.idle (not_exists.mp unconnected)
  rw [calls] at called
  cases called

private theorem Sound.forlorn {reason : String} (sound : ex.Sound) (forlorn : ex.Forlorn reason)
    (more : List Move) :
    (more.foldl next ex).Sound ∧ (more.foldl next ex).Forlorn reason :=
  @foldl_kept ex (fun later => later.Sound ∧ later.Forlorn reason)
    (fun both step =>
      ⟨sound_step both.1 step, forlorn_step both.1.greeted.attended both.2 step⟩)
    ⟨sound, forlorn⟩ more

end Exchange

end NotebookKernel.Language
