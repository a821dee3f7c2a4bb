import NotebookKernel.Proofs.Language.Failing
import NotebookKernel.Proofs.Language.Greeting

/-!
# Requests in the table

Whatever ends a call, its request has left the table by then: an answer or the end of the server
takes it out before the caller can see that, and a caller who gives up takes it out itself. What is
in the table therefore belongs to a call that still writes or waits, to one whose caller has gone
away, or to the greeting, which has not been answered.
-/

set_option autoImplicit false

namespace NotebookKernel.Language

open Rpc (Correlator Happening)

/-- The id of the request that is under way or was written by the one who connects. -/
def Opening.id? : Opening → Option Nat
  | .asking request | .done request => some request.id
  | _ => none

def Call.id? : Call → Option Nat
  | .send letter => letter.id?
  | _ => none

def Stage.isOver : Stage → Bool
  | .settled _ | .abandoned => true
  | _ => false

/-- A task writes or waits with the request that it was begun for, or it does nothing any more. -/
def Call.Fits (call : Call) (stage : Stage) : Prop :=
  stage.isOver = true ∨ stage.id? = call.id?

def Call.Released (call : Call) (c : Correlator) (stage : Stage) : Prop :=
  ∀ outcome id, stage = .settled outcome → call.id? = some id → id ∉ c.waiting

/-- The request of a call has just been entered in the table, and nothing else has happened. -/
def Call.Asked (call : Call) (c : Correlator) (history : List Happening) : Prop :=
  ∀ id, call.id? = some id → c.nextId = id ∧ c.closedWith = none ∧
    ∃ method params, history = [.used (.request method params)]

theorem Opening.asked {opening : Opening} {id : Nat} (asked : opening.id? = some id) :
    ∃ request, opening.request? = some request ∧
      (opening = .asking request ∨ opening = .done request) ∧ request.id = id := by
  cases opening with
  | asking request => exact ⟨request, rfl, Or.inl rfl, Option.some.inj asked⟩
  | done request => exact ⟨request, rfl, Or.inr rfl, Option.some.inj asked⟩
  | fresh => cases asked
  | failed request? fault => cases asked

theorem Call.eq_request {call : Call} {id : Nat} (named : call.id? = some id) :
    ∃ request : Rpc.Request, call = .send (.request request) ∧ request.id = id := by
  cases call with
  | send letter =>
    cases letter with
    | request request => exact ⟨request, rfl, Option.some.inj named⟩
    | notification notification => cases named
  | refused => cases named
  | await => cases named

theorem Stage.not_isOver {stage : Stage} {id : Nat} (asks : stage.id? = some id) :
    stage.isOver ≠ true := by
  cases stage with
  | settled outcome => cases asks
  | abandoned => cases asks
  | _ => exact Bool.false_ne_true

namespace Exchange

variable {ex : Exchange}

/-- Calls and the table fit each other: a task that goes on has the request that it was begun for
and finds the receiver empty as long as this is listed, no call that has an outcome is listed, and
whatever is listed was asked by somebody and has not been answered. -/
structure Tended (ex : Exchange) : Prop where
  held : ex.Held
  numbered : ex.Numbered
  attended : ex.client.correlator.Attended
  opened : ∀ request, ex.opening.request? = some request → request.method = "initialize"
  fresh : ∀ id, ex.client.correlator.nextId ≤ id → ex.client.correlator.receiver? id = none
  length : ex.calls.length = ex.client.tasks.length
  fits : ∀ (number : Nat) (call : Call) (task : Task), ex.calls[number]? = some call →
    ex.client.tasks[number]? = some task → call.Fits task.stage
  listens : ∀ (number : Nat) (task : Task) (id : Nat), ex.client.tasks[number]? = some task →
    task.stage.id? = some id → id ∈ ex.client.correlator.waiting →
    ex.client.correlator.receiver? id = some .waiting
  returned : ∀ (number : Nat) (call : Call) (task : Task), ex.calls[number]? = some call →
    ex.client.tasks[number]? = some task → call.Released ex.client.correlator task.stage
  owned : ∀ id ∈ ex.client.correlator.waiting, ex.opening.id? = some id ∨
    ∃ (number : Nat) (call : Call), ex.calls[number]? = some call ∧ call.id? = some id
  heard : ∀ m id, (m, Rpc.Dispatch.delivered id) ∈ ex.heard →
    id < ex.client.correlator.nextId ∧ id ∉ ex.client.correlator.waiting

theorem letter?_of_call {number id : Nat} {call : Call} (called : ex.calls[number]? = some call)
    (named : call.id? = some id) :
    ∃ letter, ex.letter? (.task number) = some letter ∧ letter.id? = some id := by
  obtain ⟨request, rfl, own⟩ := Call.eq_request named
  exact ⟨.request request, by rw [letter?, called], congrArg some own⟩

namespace Tended

theorem taken (tended : ex.Tended) {number id : Nat} {call : Call}
    (called : ex.calls[number]? = some call) (named : call.id? = some id) :
    id < ex.client.correlator.nextId := by
  obtain ⟨letter, own, same⟩ := letter?_of_call called named
  exact tended.numbered.below _ letter id own same

theorem unique (tended : ex.Tended) {number other id : Nat} {call call' : Call}
    (called : ex.calls[number]? = some call) (named : call.id? = some id)
    (called' : ex.calls[other]? = some call') (named' : call'.id? = some id) : number = other := by
  obtain ⟨letter, own, same⟩ := letter?_of_call called named
  obtain ⟨letter', own', same'⟩ := letter?_of_call called' named'
  cases tended.numbered.apart _ _ letter letter' id own own' same same'
  rfl

theorem call (tended : ex.Tended) {number : Nat} {task : Task}
    (found : ex.client.tasks[number]? = some task) : ∃ call, ex.calls[number]? = some call := by
  have inside := (List.getElem?_eq_some_iff.mp found).1
  rw [← tended.length] at inside
  exact ⟨_, List.getElem?_eq_getElem inside⟩

theorem task (tended : ex.Tended) {number : Nat} {call : Call}
    (called : ex.calls[number]? = some call) : ∃ task, ex.client.tasks[number]? = some task := by
  have inside := (List.getElem?_eq_some_iff.mp called).1
  rw [tended.length] at inside
  exact ⟨_, List.getElem?_eq_getElem inside⟩

theorem asks (tended : ex.Tended) {number id : Nat} {call : Call} {task : Task}
    (called : ex.calls[number]? = some call) (found : ex.client.tasks[number]? = some task)
    (goes : task.stage.id? = some id) : call.id? = some id := by
  rcases tended.fits number call task called found with done | same
  · exact absurd done (Stage.not_isOver goes)
  · exact same.symm.trans goes

end Tended

/-- What can happen to tasks: nothing, one is begun, or one goes on. A task that gets its outcome is
not listed any more, and only one that is left loses its receiver. -/
inductive Shift (ex : Exchange) (history : List Happening) (later : Exchange) : Prop
  | aside (calls : later.calls = ex.calls) (tasks : later.client.tasks = ex.client.tasks)
      (stays : ∀ id, .left id ∉ history)
  | begun {call : Call} {task : Task} (calls : later.calls = ex.calls ++ [call])
      (tasks : later.client.tasks = ex.client.tasks ++ [task])
      (same : task.stage.id? = call.id?) (stays : ∀ id, .left id ∉ history)
      (asks : call.Asked ex.client.correlator history)
  | moved {number : Nat} {call : Call} {task : Task} (stage : Stage)
      (called : ex.calls[number]? = some call) (found : ex.client.tasks[number]? = some task)
      (calls : later.calls = ex.calls)
      (tasks : later.client.tasks = (ex.client.setStage number stage).tasks)
      (fits : stage.isOver = true ∨ task.stage.id? = call.id? ∧ stage.id? = call.id?)
      (releases : call.Released later.client.correlator stage)
      (leaves : ∀ id, .left id ∈ history → call.id? = some id ∧ stage = .abandoned)

private theorem notMem_waiting_cancel (c : Correlator) (id : Nat) :
    id ∉ (c.cancel id).2.waiting := by
  rw [Rpc.Correlator.cancel_eq_settle, Rpc.Correlator.waiting_settle, List.mem_filter]
  rintro ⟨-, apart⟩
  exact bne_iff_ne.mp apart rfl

private theorem left_notMem_cancelled (author : Author) (letter : Letter) (id : Nat) :
    .left id ∉ author.cancelled letter := by
  cases author <;> simp [Author.cancelled]

private theorem shift_broken {pen : Pen} (tended : ex.Tended) (fault : Fault)
    (writing : ex.pen = some pen) : ex.Shift (pen.author.cancelled pen.letter)
      ({ ex with pen := none }.breakOff fault pen.letter pen.author) := by
  have stays := left_notMem_cancelled pen.author pen.letter
  have ready := tended.held pen writing
  obtain ⟨author, letter, count⟩ := pen
  have tasks : (ex.client.cancel letter.id?).tasks = ex.client.tasks := by
    cases letter.id? <;> rfl
  cases ready with
  | task writes call =>
    refine .moved (.settled (.error fault)) call writes rfl ?_ (Or.inl rfl) ?_
      fun id left => absurd left (stays id)
    · show ((ex.client.cancel letter.id?).setStage _ _).tasks = _
      rw [Client.setStage, tasks]
      rfl
    · intro outcome id _ named
      have same : letter.id? = some id := named
      show id ∉ (ex.client.cancel letter.id?).correlator.waiting
      rw [same]
      exact notMem_waiting_cancel _ id
  | opening asks => exact .aside rfl tasks stays
  | _ => exact .aside rfl rfl stays

private theorem shift_finished {pen : Pen} (tended : ex.Tended) (writing : ex.pen = some pen) :
    ex.Shift [] ((ex.record pen.author pen.letter).proceed pen.letter pen.author) := by
  have ready := tended.held pen writing
  obtain ⟨author, letter, count⟩ := pen
  cases ready with
  | @task number wish id body letter writes call =>
    have own : id = letter.id? := by
      rcases tended.fits number _ _ call writes with done | same
      · cases done
      · exact same
    refine .moved letter.stage call writes rfl rfl ?_ ?_ fun id left => absurd left List.not_mem_nil
    · cases letter with
      | request request => exact Or.inr ⟨own, rfl⟩
      | notification notification => exact Or.inl rfl
    · intro outcome id settled named
      cases letter with
      | request request => cases settled
      | notification notification => cases named
  | _ => exact .aside rfl rfl fun id => List.not_mem_nil

private theorem shift_moved {number : Nat} {wish : Wish} {stage further : Stage}
    {history : List Happening} (tended : ex.Tended)
    (found : ex.client.tasks[number]? = some ⟨wish, stage⟩)
    (onward : stage.Onward ex.client.correlator ex.client.handshake (ex.holds (.task number))
      history further) : ex.Shift history
      { ex with
        client := { ex.client with
          correlator := ex.client.correlator.through history }.setStage number further } := by
  obtain ⟨call, called⟩ := tended.call found
  cases onward with
  | @answered id outcome ended =>
    refine .moved _ called found rfl rfl (Or.inl rfl) ?_ (by simp)
    intro _ other _ named listed
    cases (tended.asks called found rfl).symm.trans named
    have waits := Correlator.mem_waiting_of_through (tended.taken called named) listed
    have shown := tended.listens number _ id found rfl waits
    rw [Correlator.receive, shown] at ended
    exact ended rfl
  | @expired id outcome =>
    refine .moved _ called found rfl rfl (Or.inl rfl) ?_ (by simp)
    intro _ other _ named
    cases (tended.asks called found rfl).symm.trans named
    exact notMem_waiting_cancel _ id
  | greeted ended =>
    refine .moved _ called found rfl rfl (Or.inl rfl) ?_ (by simp)
    intro _ id _ named
    rcases tended.fits number call _ called found with done | same
    · cases done
    · cases same.trans named
  | left free lasting =>
    refine .moved _ called found rfl rfl (Or.inl rfl) ?_ ?_
    · intro outcome id settled
      cases settled
    · intro id left
      obtain ⟨other, own, same⟩ := List.mem_map.mp left
      cases same
      exact ⟨tended.asks called found (Option.mem_toList.mp own), rfl⟩

theorem shift_goes {history : List Happening} {later : Exchange} (tended : ex.Tended)
    (goes : ex.Goes history later) : ex.Shift history later := by
  cases goes with
  | broken fault writing => exact shift_broken tended fault writing
  | step step =>
    cases step with
    | finished writing whole => exact shift_finished tended writing
    | refused writing unwritten =>
      rw [giveUp_eq_breakOff]
      exact shift_broken tended .processExited writing
    | asked wish method params connected opened own =>
      refine .begun rfl rfl rfl (by simp) ?_
      rintro id ⟨⟩
      rw [own]
      exact ⟨rfl, opened, method, params, rfl⟩
    | @begun request call task connected begins =>
      obtain ⟨wish, stage⟩ := task
      refine .begun rfl rfl ?_ (by simp) ?_
      · cases begins <;> rfl
      · intro id named
        cases begins <;> cases named
    | moved found onward => exact shift_moved tended found onward
    | _ => exact .aside rfl rfl (by simp)

/-- What a task was before: the same, not begun, or at another stage. -/
inductive Origin (ex : Exchange) (history : List Happening) (later : Exchange) (number : Nat)
    (call : Call) (task : Task) : Prop
  | same (called : ex.calls[number]? = some call) (found : ex.client.tasks[number]? = some task)
  | begun (same : task.stage.id? = call.id?) (asks : call.Asked ex.client.correlator history)
  | moved {before : Task} (called : ex.calls[number]? = some call)
      (found : ex.client.tasks[number]? = some before)
      (fits : task.stage.isOver = true ∨
        before.stage.id? = call.id? ∧ task.stage.id? = call.id?)
      (releases : call.Released later.client.correlator task.stage)

private theorem Shift.origin {history : List Happening} {later : Exchange}
    (shift : ex.Shift history later) (length : ex.calls.length = ex.client.tasks.length)
    {number : Nat} {call : Call} {task : Task} (called : later.calls[number]? = some call)
    (found : later.client.tasks[number]? = some task) :
    ex.Origin history later number call task := by
  cases shift with
  | aside calls tasks stays =>
    rw [calls] at called
    rw [tasks] at found
    exact .same called found
  | begun calls tasks same stays asks =>
    rw [calls] at called
    rw [tasks] at found
    rcases getElem?_concat_cases called with old | ⟨last, rfl⟩ <;>
      rcases getElem?_concat_cases found with old' | ⟨last', rfl⟩
    · exact .same old old'
    · have inside := (List.getElem?_eq_some_iff.mp old).1
      omega
    · have inside := (List.getElem?_eq_some_iff.mp old').1
      omega
    · exact .begun same asks
  | @moved other call' before stage called' found' calls tasks fits releases leaves =>
    rw [calls] at called
    rw [tasks, Client.getElem?_setStage] at found
    split at found
    · next same =>
      subst same
      cases called.symm.trans called'
      rw [found'] at found
      cases found
      exact .moved called found' fits releases
    · exact .same called found

private theorem Shift.calls {history : List Happening} {later : Exchange}
    (shift : ex.Shift history later) {number : Nat} {call : Call}
    (called : ex.calls[number]? = some call) : later.calls[number]? = some call := by
  cases shift with
  | aside calls tasks stays => exact calls ▸ called
  | begun calls tasks same stays asks => exact calls ▸ getElem?_append called _
  | moved stage called' found calls tasks fits releases leaves => exact calls ▸ called

section Kept

variable {history : List Happening} {later : Exchange}

private theorem Tended.stays (tended : ex.Tended) (shift : ex.Shift history later) {number id : Nat}
    {call : Call} {task : Task} (called : later.calls[number]? = some call)
    (named : call.id? = some id) (found : later.client.tasks[number]? = some task)
    (goes : task.stage.id? = some id) : .left id ∉ history := by
  intro left
  cases shift with
  | aside calls tasks stays => exact stays id left
  | begun calls tasks same stays asks => exact stays id left
  | moved stage called' found' calls tasks fits releases leaves =>
    obtain ⟨named', rfl⟩ := leaves id left
    rw [calls] at called
    cases tended.unique called named called' named'
    rw [tasks, Client.getElem?_setStage, if_pos rfl, found'] at found
    cases found
    cases goes

theorem Tended.below (tended : ex.Tended) {id : Nat} (listed : id ∈ ex.client.correlator.waiting) :
    id < ex.client.correlator.nextId := by
  rcases tended.owned id listed with asked | ⟨number, call, called, named⟩
  · obtain ⟨request, found, -, rfl⟩ := Opening.asked asked
    exact tended.numbered.below .opening (.request request) _ (by rw [letter?, found]; rfl) rfl
  · exact tended.taken called named

private theorem length_shift (length : ex.calls.length = ex.client.tasks.length)
    (shift : ex.Shift history later) : later.calls.length = later.client.tasks.length := by
  cases shift with
  | aside calls tasks stays => rw [calls, tasks, length]
  | begun calls tasks same stays asks =>
    rw [calls, tasks, List.length_append, List.length_append, length]
    rfl
  | moved stage called found calls tasks fits releases leaves =>
    rw [calls, tasks, Client.setStage, List.length_modify, length]

private theorem fits_shift (tended : ex.Tended) (shift : ex.Shift history later) (number : Nat)
    (call : Call) (task : Task) (called : later.calls[number]? = some call)
    (found : later.client.tasks[number]? = some task) : call.Fits task.stage := by
  cases shift.origin tended.length called found with
  | same called found => exact tended.fits number call task called found
  | begun same asks => exact Or.inr same
  | moved called found fits releases => exact fits.imp_right And.right

private theorem returned_goes (tended : ex.Tended) (goes : ex.Goes history later) (number : Nat)
    (call : Call) (task : Task) (called : later.calls[number]? = some call)
    (found : later.client.tasks[number]? = some task) :
    call.Released later.client.correlator task.stage := by
  intro outcome id settled named
  cases (shift_goes tended goes).origin tended.length called found with
  | same called found =>
    intro listed
    rw [correlator_goes goes] at listed
    exact tended.returned number call task called found outcome id settled named
      (Correlator.mem_waiting_of_through (tended.taken called named) listed)
  | begun same asks =>
    rw [settled, named] at same
    cases same
  | moved called found fits releases => exact releases outcome id settled named

private theorem listens_goes (tended : ex.Tended) (goes : ex.Goes history later) (number : Nat)
    (task : Task) (id : Nat) (found : later.client.tasks[number]? = some task)
    (asks : task.stage.id? = some id) (listed : id ∈ later.client.correlator.waiting) :
    later.client.correlator.receiver? id = some .waiting := by
  have shift := shift_goes tended goes
  have inside := (List.getElem?_eq_some_iff.mp found).1
  rw [← length_shift tended.length shift] at inside
  have called := List.getElem?_eq_getElem inside
  have named : (later.calls[number]).id? = some id := by
    rcases fits_shift tended shift number _ task called found with done | same
    · exact absurd done (Stage.not_isOver asks)
    · exact same.symm.trans asks
  have stays := tended.stays shift called named found asks
  rw [correlator_goes goes] at listed ⊢
  cases shift.origin tended.length called found with
  | same called found =>
    exact Correlator.receiver?_through_of_listed (tended.listens number task id found asks)
      (tended.taken called named) stays listed
  | begun same origin =>
    obtain ⟨next, opened, method, params, rfl⟩ := origin id named
    have nobody := tended.fresh id (Nat.le_of_eq next)
    show (ex.client.correlator.request method params).2.receiver? id = _
    rw [Rpc.Correlator.receiver?_request opened, nobody, if_pos next]
    rfl
  | @moved before called found fits releases =>
    rcases fits with done | ⟨same, -⟩
    · exact absurd done (Stage.not_isOver asks)
    · exact Correlator.receiver?_through_of_listed
        (tended.listens number before id found (same.trans named)) (tended.taken called named)
        stays listed

private theorem cancelled_quiet (author : Author) (letter : Letter) :
    ∀ happening ∈ author.cancelled letter, happening.IsQuiet := by
  have quiet : ∀ happening ∈ letter.id?.toList.map fun id => Happening.used (.cancel id),
      happening.IsQuiet := by
    intro happening member c
    obtain ⟨id, -, rfl⟩ := List.mem_map.mp member
    rfl
  cases author with
  | opening => exact quiet
  | task number => exact quiet
  | _ => exact fun _ member => nomatch member

private theorem onward_quiet {correlator : Correlator} {handshake : Handshake} {held : Bool}
    {stage further : Stage} (onward : stage.Onward correlator handshake held history further) :
    ∀ happening ∈ history, happening.IsQuiet := by
  cases onward with
  | left free lasting =>
    intro happening member c
    obtain ⟨id, -, rfl⟩ := List.mem_map.mp member
    rfl
  | _ => simp [Happening.IsQuiet, Happening.handed, Rpc.Operation.handed]

private theorem entered_goes (goes : ex.Goes history later) {id : Nat}
    (listed : id ∈ later.client.correlator.waiting) : id ∈ ex.client.correlator.waiting ∨
      later.opening.id? = some id ∨
      ∃ (number : Nat) (call : Call), later.calls[number]? = some call ∧ call.id? = some id := by
  have old : (∀ happening ∈ history, happening.IsQuiet) → id ∈ ex.client.correlator.waiting := by
    intro quiet
    rw [correlator_goes goes] at listed
    exact Correlator.mem_waiting_of_quiet quiet listed
  have grown : ∀ method params, ex.client.correlator.closedWith = none →
      (ex.client.correlator.request method params).2.waiting =
        ex.client.correlator.waiting ++ [ex.client.correlator.nextId] := by
    intro method params opened
    simp [Correlator.request, opened, Correlator.takeId]
  cases goes with
  | broken fault writing => exact Or.inl (old (cancelled_quiet _ _))
  | step step =>
    cases step with
    | registered process fresh opened =>
      have waits := grown "initialize" (greetingParams process) opened ▸ listed
      rw [List.mem_append, List.mem_singleton] at waits
      rcases waits with before | rfl
      · exact Or.inl before
      · exact Or.inr (Or.inl rfl)
    | asked wish method params connected opened own =>
      have waits := grown method params opened ▸ listed
      rw [List.mem_append, List.mem_singleton] at waits
      rcases waits with before | rfl
      · exact Or.inl before
      · refine Or.inr (Or.inr ⟨ex.calls.length, _, List.getElem?_concat_length, ?_⟩)
        rw [own]
        rfl
    | refused writing unwritten => exact Or.inl (old (cancelled_quiet _ _))
    | moved found onward => exact Or.inl (old (onward_quiet onward))
    | _ => exact Or.inl (old (by simp [Happening.IsQuiet, Happening.handed, Rpc.Operation.handed]))

private theorem opening_broken {pen : Pen} (held : ex.Held) (fault : Fault)
    (writing : ex.pen = some pen) {id : Nat} (asked : ex.opening.id? = some id)
    (listed : id ∈ ({ ex with pen := none }.breakOff fault pen.letter
      pen.author).client.correlator.waiting) :
    ({ ex with pen := none }.breakOff fault pen.letter pen.author).opening.id? = some id := by
  have ready := held pen writing
  obtain ⟨author, letter, count⟩ := pen
  cases ready with
  | @opening request asks =>
    rw [asks] at asked
    cases asked
    exact absurd listed (notMem_waiting_cancel _ _)
  | _ => exact asked

private theorem opening_goes (held : ex.Held) (goes : ex.Goes history later) {id : Nat}
    (asked : ex.opening.id? = some id) (listed : id ∈ later.client.correlator.waiting) :
    later.opening.id? = some id := by
  cases goes with
  | broken fault writing => exact opening_broken held fault writing asked listed
  | step step =>
    cases step with
    | registered process fresh opened =>
      rw [fresh] at asked
      cases asked
    | rebuffed fault fresh =>
      rw [fresh] at asked
      cases asked
    | @finished pen writing whole =>
      obtain ⟨author, letter, count⟩ := pen
      cases author with
      | opening =>
        show ex.opening.proceed.id? = some id
        cases opening : ex.opening <;> rw [opening] at asked <;> exact asked
      | _ => exact asked
    | refused writing unwritten =>
      rw [giveUp_eq_breakOff] at listed ⊢
      exact opening_broken held .processExited writing asked listed
    | _ => exact asked

private theorem owned_goes (tended : ex.Tended) (goes : ex.Goes history later) (id : Nat)
    (listed : id ∈ later.client.correlator.waiting) : later.opening.id? = some id ∨
      ∃ (number : Nat) (call : Call), later.calls[number]? = some call ∧ call.id? = some id := by
  rcases entered_goes goes listed with before | new
  · rcases tended.owned id before with asked | ⟨number, call, called, named⟩
    · exact Or.inl (opening_goes tended.held goes asked listed)
    · exact Or.inr ⟨number, call, (shift_goes tended goes).calls called, named⟩
  · exact new

private theorem opened_goes (opened : ∀ request, ex.opening.request? = some request →
      request.method = "initialize") (goes : ex.Goes history later) (request : Rpc.Request)
    (found : later.opening.request? = some request) : request.method = "initialize" := by
  cases goes with
  | @broken pen fault writing =>
    rw [(sameLetters_breakOff { ex with pen := none } fault pen.letter pen.author).opening] at found
    exact opened request found
  | step step =>
    cases step with
    | registered process fresh opened =>
      cases found
      rfl
    | rebuffed fault fresh => cases found
    | @finished pen writing whole =>
      rw [(sameLetters_proceed _ pen.letter pen.author).opening] at found
      exact opened request found
    | @refused pen writing unwritten =>
      rw [(sameLetters_giveUp _ pen.letter pen.author).opening] at found
      exact opened request found
    | _ => exact opened request found

private theorem answered_goes (tended : ex.Tended) (goes : ex.Goes history later) (m : Rpc.Message)
    (id : Nat) (delivered : (m, Rpc.Dispatch.delivered id) ∈ later.heard) :
    id < later.client.correlator.nextId ∧ id ∉ later.client.correlator.waiting := by
  have kept : id < ex.client.correlator.nextId → id ∉ ex.client.correlator.waiting →
      id < later.client.correlator.nextId ∧ id ∉ later.client.correlator.waiting := by
    intro taken gone
    rw [correlator_goes goes]
    exact ⟨Nat.lt_of_lt_of_le taken (Correlator.nextId_le_through _ _),
      fun listed => gone (Correlator.mem_waiting_of_through taken listed)⟩
  rcases heard_goes goes with same | ⟨payload, rfl⟩
  · rw [same] at delivered
    obtain ⟨taken, gone⟩ := tended.heard m id delivered
    exact kept taken gone
  · rcases List.mem_append.mp delivered with before | new
    · obtain ⟨taken, gone⟩ := tended.heard m id before
      exact kept taken gone
    · obtain ⟨told, member, same⟩ := List.mem_map.mp new
      obtain ⟨rfl, reply⟩ := Prod.mk.inj same
      obtain ⟨response, own, waits⟩ :=
        (ex.client.correlator.dispatch_fst_eq_delivered told id).mp reply
      have parsed := Option.mem_toList.mp member
      have effect : (ex.hear payload).client.correlator =
          ex.client.correlator.settle id (.delivered told) := by
        show (ex.client.correlator.dispatchPayload payload).2 = _
        rw [Correlator.dispatchPayload, parsed]
        exact ex.client.correlator.dispatch_eq_settle response own
      rw [effect, Correlator.nextId_settle, Correlator.waiting_settle, List.mem_filter]
      refine ⟨tended.below waits, ?_⟩
      rintro ⟨-, apart⟩
      exact bne_iff_ne.mp apart rfl

theorem tended_goes (tended : ex.Tended) (goes : ex.Goes history later) : later.Tended where
  held := held_goes tended.held goes
  numbered := numbered_goes tended.numbered goes
  attended := by
    rw [correlator_goes goes]
    exact Correlator.attended_through tended.attended history
  opened := opened_goes tended.opened goes
  fresh := by
    rw [correlator_goes goes]
    exact fun id above => Correlator.fresh_through tended.fresh history above
  length := length_shift tended.length (shift_goes tended goes)
  fits := fits_shift tended (shift_goes tended goes)
  listens := listens_goes tended goes
  returned := returned_goes tended goes
  owned := owned_goes tended goes
  heard := answered_goes tended goes

end Kept

theorem tended_new (limit : Option Duration) (inputOpen : Bool) :
    (new limit inputOpen).Tended where
  held := (orderly_new limit inputOpen).held
  numbered := (orderly_new limit inputOpen).numbered
  attended := Correlator.attended_new
  opened _ found := nomatch found
  fresh _ _ := rfl
  length := rfl
  fits _ _ _ called := nomatch called
  listens _ _ _ found := nomatch found
  returned _ _ _ called := nomatch called
  owned _ listed := nomatch listed
  heard _ _ delivered := nomatch delivered

theorem tended_following (limit : Option Duration) (inputOpen : Bool) (events : List Event) :
    (following limit inputOpen events).Tended := by
  have kept : ∀ ex : Exchange, ex.Tended → (events.foldl happen ex).Tended := by
    induction events with
    | nil => exact fun _ tended => tended
    | cons event events ih =>
      intro ex tended
      obtain ⟨history, goes⟩ := ex.goes_happen event
      exact ih (ex.happen event) (tended_goes tended goes)
  exact kept _ (tended_new limit inputOpen)

/-- Whose request is listed: that of a call that writes or waits, of a call whose caller went away,
or of the one who connected, to whom no response was delivered. -/
inductive Owner (events : List Event) (ex : Exchange) (id : Nat) : Prop
  | going {number : Nat} {request : Rpc.Request} {wish : Wish} {stage : Stage}
      (called : ex.calls[number]? = some (.send (.request request))) (own : request.id = id)
      (found : ex.client.tasks[number]? = some ⟨wish, stage⟩) (goes : stage.id? = some id)
      (unreturned : ex.client.outcome? number = none)
  | left {number : Nat} {request : Rpc.Request}
      (called : ex.calls[number]? = some (.send (.request request))) (own : request.id = id)
      (left : ex.client.Left number) (gone : .move (.abandon number) ∈ events)
  | opening {request : Rpc.Request}
      (asked : ex.opening = .asking request ∨ ex.opening = .done request) (own : request.id = id)
      (first : request.method = "initialize")
      (unanswered : ∀ m, (m, Rpc.Dispatch.delivered id) ∉ ex.heard)

/-- A call that goes on is listed just as long as it can be answered, a call that has returned is
not listed, and what is listed has an owner. -/
structure Accounted (events : List Event) (ex : Exchange) : Prop where
  listed : ∀ (number : Nat) (task : Task) (id : Nat), ex.client.tasks[number]? = some task →
    task.stage.id? = some id → (id ∈ ex.client.correlator.waiting ↔
      ex.client.correlator.receiver? id = some .waiting)
  returned : ∀ (number : Nat) (request : Rpc.Request) (outcome : Except Fault Reply),
    ex.calls[number]? = some (.send (.request request)) →
    ex.client.outcome? number = some outcome → request.id ∉ ex.client.correlator.waiting
  owned : ∀ id ∈ ex.client.correlator.waiting, ex.Owner events id

private theorem Tended.owner_of_call {events : List Event} {number id : Nat} {call : Call}
    (tended : ex.Tended) (leavers : ∀ number, ex.client.Left number →
      .move (.abandon number) ∈ events) (listed : id ∈ ex.client.correlator.waiting)
    (called : ex.calls[number]? = some call) (named : call.id? = some id) :
    ex.Owner events id := by
  obtain ⟨request, rfl, own⟩ := Call.eq_request named
  obtain ⟨⟨wish, stage⟩, found⟩ := tended.task called
  rcases tended.fits number _ _ called found with done | same
  · cases stage with
    | settled outcome =>
      exact absurd listed (tended.returned number _ _ called found outcome id rfl named)
    | abandoned => exact .left called own ⟨wish, found⟩ (leavers number ⟨wish, found⟩)
    | _ => cases done
  · have goes : stage.id? = some id := same.trans named
    refine .going called own found goes ?_
    cases stage with
    | settled outcome => cases goes
    | _ => rw [Client.outcome?, found]

private theorem Tended.owner_of_opening {events : List Event} {id : Nat} (tended : ex.Tended)
    (listed : id ∈ ex.client.correlator.waiting) (asked : ex.opening.id? = some id) :
    ex.Owner events id := by
  have unanswered : ∀ m, (m, Rpc.Dispatch.delivered id) ∉ ex.heard :=
    fun m delivered => (tended.heard m id delivered).2 listed
  obtain ⟨request, found, under, own⟩ := Opening.asked asked
  exact .opening under own (tended.opened request found) unanswered

/-- Whatever ends a call, its request is not in the table any more, and what is in the table belongs
to a call that has not returned or to the unanswered first request. -/
theorem accounted_following (limit : Option Duration) (inputOpen : Bool) (events : List Event) :
    (following limit inputOpen events).Accounted events := by
  have tended := tended_following limit inputOpen events
  have leavers : ∀ number, (following limit inputOpen events).client.Left number →
      .move (.abandon number) ∈ events := fun _ => left_of_following
  generalize following limit inputOpen events = ex at tended leavers
  refine ⟨?_, ?_, ?_⟩
  · intro number task id found goes
    exact ⟨tended.listens number task id found goes, tended.attended.listed id⟩
  · intro number request outcome called ended
    obtain ⟨wish, found⟩ := settled_of_outcome? ended
    exact tended.returned number _ _ called found outcome request.id rfl rfl
  · intro id listed
    rcases tended.owned id listed with asked | ⟨number, call, called, named⟩
    · exact tended.owner_of_opening listed asked
    · exact tended.owner_of_call leavers listed called named

end Exchange

end NotebookKernel.Language
