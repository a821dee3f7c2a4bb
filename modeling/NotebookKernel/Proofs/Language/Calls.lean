import NotebookKernel.Proofs.Language.Writing

/-!
# Calls

Every task was begun for something: a letter, a request that was refused, or the end of the
greeting. The stages that it goes through suit that. Whoever waits for a response or ends well has
written its letter, and whoever waits for the greeting ends as that does.
-/

set_option autoImplicit false

namespace NotebookKernel.Language

open Rpc (Happening)

/-- The stages that a task can be in, by what it was begun for and whether it wrote. -/
inductive Call.Suits (handshake : Handshake) (wrote : Prop) : Call → Stage → Prop
  | writing {letter : Letter} :
      Suits handshake wrote (.send letter) (.writing letter.id? letter.text)
  | waiting {letter : Letter} {id : Nat} (named : letter.id? = some id) (written : wrote) :
      Suits handshake wrote (.send letter) (.waiting id)
  | sent {letter : Letter} {reply : Reply} (written : wrote) :
      Suits handshake wrote (.send letter) (.settled (.ok reply))
  | failed {letter : Letter} {fault : Fault} :
      Suits handshake wrote (.send letter) (.settled (.error fault))
  | refused {fault : Fault} : Suits handshake wrote .refused (.settled (.error fault))
  | awaits : Suits handshake wrote .await .greeting
  | greeted {outcome : Except Fault Reply} (ended : handshake.outcome? = some outcome) :
      Suits handshake wrote .await (.settled outcome)
  | abandoned {call : Call} : Suits handshake wrote call .abandoned

theorem Call.Suits.mono {handshake further : Handshake} {wrote writes : Prop} {call : Call}
    {stage : Stage} (suits : call.Suits handshake wrote stage)
    (kept : ∀ outcome, handshake.outcome? = some outcome → further.outcome? = some outcome)
    (grown : wrote → writes) : call.Suits further writes stage := by
  cases suits with
  | writing => exact .writing
  | waiting named written => exact .waiting named (grown written)
  | sent written => exact .sent (grown written)
  | failed => exact .failed
  | refused => exact .refused
  | awaits => exact .awaits
  | greeted ended => exact .greeted (kept _ ended)
  | abandoned => exact .abandoned

theorem Call.Begins.suits {call : Call} {stage : Stage} (begins : call.Begins stage)
    (handshake : Handshake) (wrote : Prop) : call.Suits handshake wrote stage := by
  cases begins with
  | refused => exact .refused
  | told => exact .writing
  | awaits => exact .awaits

private theorem Call.Suits.settled {handshake : Handshake} {wrote : Prop} {letter : Letter}
    (written : wrote) (outcome : Except Fault Reply) :
    (Call.send letter).Suits handshake wrote (.settled outcome) := by
  cases outcome with
  | ok reply => exact .sent written
  | error fault => exact .failed

theorem Call.Suits.onward {correlator : Rpc.Correlator} {handshake : Handshake} {wrote : Prop}
    {held : Bool} {call : Call} {stage further : Stage} {history : List Happening}
    (suits : call.Suits handshake wrote stage)
    (onward : stage.Onward correlator handshake held history further) :
    call.Suits handshake wrote further := by
  cases onward with
  | answered =>
    cases suits with
    | waiting named written => exact .settled written _
  | expired =>
    cases suits with
    | waiting named written => exact .settled written _
  | greeted ended =>
    cases suits with
    | awaits => exact .greeted ended
  | left free lasting => exact .abandoned

theorem Call.Suits.letter {handshake : Handshake} {wrote : Prop} {call : Call} {stage : Stage}
    {id : Nat} (suits : call.Suits handshake wrote stage) (asks : stage.id? = some id) :
    ∃ letter, call = .send letter ∧ letter.id? = some id := by
  cases suits with
  | writing => exact ⟨_, rfl, asks⟩
  | waiting named written => exact ⟨_, rfl, named.trans asks⟩
  | _ => cases asks

theorem Letter.suits_stage (letter : Letter) (handshake : Handshake) {wrote : Prop}
    (written : wrote) : (Call.send letter).Suits handshake wrote letter.stage := by
  cases letter with
  | request asked => exact .waiting rfl written
  | notification told => exact .sent written

namespace Exchange

variable {ex : Exchange}

def Wrote (ex : Exchange) (author : Author) : Prop :=
  ∃ entry ∈ ex.written, entry.author = author

/-- Every task was begun for something, and is in a stage that suits it. -/
structure Matched (ex : Exchange) : Prop where
  length : ex.calls.length = ex.client.tasks.length
  suits : ∀ (number : Nat) (call : Call) (task : Task), ex.calls[number]? = some call →
    ex.client.tasks[number]? = some task →
    call.Suits ex.client.handshake (ex.Wrote (.task number)) task.stage

theorem wrote_step {history : List Happening} {later : Exchange} {author : Author}
    (wrote : ex.Wrote author) (step : ex.Step history later) : later.Wrote author := by
  obtain ⟨entry, member, own⟩ := wrote
  refine ⟨entry, ?_, own⟩
  rcases written_step step with same | ⟨pen, -, -, grown⟩
  · rw [same]
    exact member
  · rw [grown]
    exact List.mem_append_left _ member

private theorem matched_begin {later : Exchange} {call : Call} {task : Task} (matched : ex.Matched)
    (handshake : later.client.handshake = ex.client.handshake)
    (tasks : later.client.tasks = ex.client.tasks ++ [task])
    (calls : later.calls = ex.calls ++ [call]) (written : later.written = ex.written)
    (suits : ∀ wrote, call.Suits ex.client.handshake wrote task.stage) : later.Matched := by
  refine ⟨by simp [tasks, calls, matched.length], ?_⟩
  intro number call' task' called found
  rw [calls] at called
  rw [tasks] at found
  rw [handshake, Wrote, written]
  rcases getElem?_concat_cases called with old | ⟨rfl, rfl⟩ <;>
    rcases getElem?_concat_cases found with old' | ⟨last, rfl⟩
  · exact matched.suits number call' task' old old'
  · have inside := (List.getElem?_eq_some_iff.mp old).1
    rw [last, matched.length] at inside
    exact absurd inside (Nat.lt_irrefl _)
  · have inside := (List.getElem?_eq_some_iff.mp old').1
    rw [matched.length] at inside
    exact absurd inside (Nat.lt_irrefl _)
  · exact suits _

private theorem matched_setStage {later : Exchange} {client : Client} {number : Nat} {stage : Stage}
    (matched : ex.Matched) (tasks : client.tasks = ex.client.tasks)
    (kept : ∀ outcome, ex.client.handshake.outcome? = some outcome →
      client.handshake.outcome? = some outcome)
    (moved : later.client = client.setStage number stage) (calls : later.calls = ex.calls)
    (grown : ∀ author, ex.Wrote author → later.Wrote author)
    (suits : ∀ call task, ex.calls[number]? = some call → ex.client.tasks[number]? = some task →
      call.Suits client.handshake (later.Wrote (.task number)) stage) : later.Matched := by
  refine ⟨?_, ?_⟩
  · rw [moved, calls, matched.length, Client.setStage, List.length_modify, tasks]
  · intro other call task called found
    rw [calls] at called
    rw [moved, Client.getElem?_setStage, tasks] at found
    rw [moved]
    split at found
    · next same =>
      subst same
      obtain ⟨before, found', rfl⟩ := Option.map_eq_some_iff.mp found
      exact suits call before called found'
    · exact (matched.suits other call task called found).mono kept (grown _)

private theorem matched_aside {later : Exchange} (matched : ex.Matched)
    (kept : ∀ outcome, ex.client.handshake.outcome? = some outcome →
      later.client.handshake.outcome? = some outcome)
    (tasks : later.client.tasks = ex.client.tasks) (calls : later.calls = ex.calls)
    (grown : ∀ author, ex.Wrote author → later.Wrote author) : later.Matched := by
  refine ⟨by rw [calls, tasks, matched.length], ?_⟩
  intro number call task called found
  rw [calls] at called
  rw [tasks] at found
  exact (matched.suits number call task called found).mono kept (grown _)

private theorem matched_finish {pen : Pen} (held : ex.Held) (matched : ex.Matched)
    (writing : ex.pen = some pen) (whole : pen.count = pen.letter.frame.length) :
    ((ex.record pen.author pen.letter).proceed pen.letter pen.author).Matched := by
  have step := Step.finished writing whole
  have grown := fun author (wrote : ex.Wrote author) => wrote_step wrote step
  have ready := held pen writing
  obtain ⟨author, letter, count⟩ := pen
  cases ready with
  | greeting connected answered =>
    refine matched_aside matched ?_ rfl rfl grown
    intro outcome ended
    rw [answered] at ended
    cases ended
  | @task number wish id body letter writes call =>
    refine @matched_setStage ex _ (ex.record (.task number) letter).client number letter.stage
      matched rfl (fun _ ended => ended) rfl rfl grown ?_
    intro call' task called _
    cases call.symm.trans called
    exact letter.suits_stage _ ⟨_, List.mem_append_right _ (List.mem_singleton_self _), rfl⟩
  | _ => exact matched_aside matched (fun _ ended => ended) rfl rfl grown

private theorem matched_refuse {pen : Pen} (held : ex.Held) (matched : ex.Matched)
    (writing : ex.pen = some pen) (unwritten : pen.count = 0) :
    ({ ex with pen := none }.giveUp pen.letter pen.author).Matched := by
  have step := Step.refused writing unwritten
  have grown := fun author (wrote : ex.Wrote author) => wrote_step wrote step
  have ready := held pen writing
  obtain ⟨author, letter, count⟩ := pen
  have same : (ex.client.cancel letter.id?).handshake = ex.client.handshake ∧
      (ex.client.cancel letter.id?).tasks = ex.client.tasks := by
    cases letter.id? <;> exact ⟨rfl, rfl⟩
  cases ready with
  | greeting connected answered =>
    refine matched_aside matched ?_ rfl rfl grown
    intro outcome ended
    rw [answered] at ended
    cases ended
  | @task number wish id body letter writes call =>
    refine matched_setStage matched same.2 ?_ rfl rfl grown ?_
    · rw [same.1]
      exact fun _ ended => ended
    · intro call' task called _
      cases call.symm.trans called
      exact .failed
  | _ => exact matched_aside matched (fun _ ended => ended) rfl rfl grown

theorem matched_step {history : List Happening} {later : Exchange} (orderly : ex.Orderly)
    (matched : ex.Matched) (step : ex.Step history later) : later.Matched := by
  have grown := fun author (wrote : ex.Wrote author) => wrote_step wrote step
  cases step with
  | still => exact matched
  | registered process fresh opened =>
    obtain ⟨tasks, calls, -, -⟩ :=
      orderly.begun.idle fun request done => nomatch fresh.symm.trans done
    refine ⟨matched.length, ?_⟩
    intro number call task called found
    rw [calls] at called
    cases called
  | finished writing whole => exact matched_finish orderly.held matched writing whole
  | refused writing unwritten => exact matched_refuse orderly.held matched writing unwritten
  | asked wish method params connected opened own =>
    exact matched_begin matched rfl rfl rfl rfl fun _ => .writing
  | begun connected begins =>
    exact matched_begin matched rfl rfl rfl rfl fun wrote => begins.suits _ wrote
  | @moved number wish stage further history found onward =>
    refine @matched_setStage ex _
      { ex.client with correlator := ex.client.correlator.through history } number further matched
      rfl (fun _ ended => ended) rfl rfl grown ?_
    intro call task called found'
    have suits := matched.suits _ call task called found'
    cases found.symm.trans found'
    exact suits.onward onward
  | greeted connected waits sees =>
    refine matched_aside matched ?_ rfl rfl grown
    intro outcome ended
    rw [waits] at ended
    cases ended
  | _ => exact matched_aside matched (fun _ ended => ended) rfl rfl grown

end Exchange

end NotebookKernel.Language
