import NotebookKernel.Proofs.Frame.RoundTrip
import NotebookKernel.Proofs.Language.Authors

/-!
# What a client writes

The bytes that leave a client are whole frames, one for each letter that was written, and at the
end the front of the frame that is under way. Every author has written its letter at most once, the
first letter is that of the one who connects, and no two requests have the same id.
-/

set_option autoImplicit false

namespace NotebookKernel.Language

open Rpc (Correlator Happening)

namespace Exchange

variable {ex : Exchange}

/-- Every id that letters have is below the next one, and belongs to one author only. -/
structure Numbered (ex : Exchange) : Prop where
  below : ∀ author letter id, ex.letter? author = some letter → letter.id? = some id →
    id < ex.client.correlator.nextId
  apart : ∀ author author' letter letter' id, ex.letter? author = some letter →
    ex.letter? author' = some letter' → letter.id? = some id → letter'.id? = some id →
    author = author'

/-- Two exchanges in which everybody has the same letter. -/
structure SameLetters (ex later : Exchange) : Prop where
  opening : later.opening.request? = ex.opening.request?
  calls : later.calls = ex.calls
  partings : later.partings.map Parting.request = ex.partings.map Parting.request

theorem SameLetters.letter? {later : Exchange} (same : ex.SameLetters later) (author : Author) :
    later.letter? author = ex.letter? author := by
  have parting : ∀ number : Nat, later.partings[number]?.map Parting.request =
      ex.partings[number]?.map Parting.request := by
    intro number
    rw [← List.getElem?_map, same.partings, List.getElem?_map]
  cases author with
  | opening => rw [Exchange.letter?, same.opening, Exchange.letter?]
  | greeting => rfl
  | task number => rw [Exchange.letter?, same.calls, Exchange.letter?]
  | shutdown number =>
    have both := congrArg (Option.map Letter.request) (parting number)
    rw [Option.map_map, Option.map_map] at both
    exact both
  | exit number =>
    have both := congrArg (Option.map fun _ => Letter.exit) (parting number)
    rw [Option.map_map, Option.map_map] at both
    exact both

private theorem map_request_modify (partings : List Parting) (number : Nat)
    {change : Parting → Parting} (same : ∀ parting, (change parting).request = parting.request) :
    (partings.modify number change).map Parting.request = partings.map Parting.request := by
  apply List.ext_getElem?
  intro other
  rw [List.getElem?_map, List.getElem?_modify, List.getElem?_map]
  cases partings[other]? with
  | none => split <;> rfl
  | some parting =>
    split
    · exact congrArg some (same parting)
    · rfl

private theorem sameLetters_modify (ex : Exchange) (number : Nat) {change : Parting → Parting}
    (same : ∀ parting, (change parting).request = parting.request) :
    ex.SameLetters { ex with partings := ex.partings.modify number change } :=
  ⟨rfl, rfl, map_request_modify ex.partings number same⟩

theorem sameLetters_proceed (ex : Exchange) (letter : Letter) (author : Author) :
    ex.SameLetters (ex.proceed letter author) := by
  cases author with
  | opening =>
    refine ⟨?_, rfl, rfl⟩
    show ex.opening.proceed.request? = _
    cases ex.opening <;> rfl
  | greeting => exact ⟨rfl, rfl, rfl⟩
  | task number => exact ⟨rfl, rfl, rfl⟩
  | shutdown number => exact sameLetters_modify ex number fun parting => (onward_proceed parting).1
  | exit number => exact sameLetters_modify ex number fun parting => (onward_proceed parting).1

theorem sameLetters_giveUp (ex : Exchange) (letter : Letter) (author : Author) :
    ex.SameLetters (ex.giveUp letter author) := by
  cases author with
  | opening =>
    refine ⟨?_, rfl, rfl⟩
    show ex.opening.giveUp.request? = _
    cases ex.opening <;> rfl
  | greeting => exact ⟨rfl, rfl, rfl⟩
  | task number => exact ⟨rfl, rfl, rfl⟩
  | shutdown number => exact sameLetters_modify ex number fun parting => (onward_giveUp parting).1
  | exit number => exact sameLetters_modify ex number fun parting => (onward_giveUp parting).1

theorem getElem?_concat_cases {α : Type} {list : List α} {item found : α} {index : Nat}
    (shown : (list ++ [item])[index]? = some found) :
    list[index]? = some found ∨ index = list.length ∧ found = item := by
  rcases Nat.lt_trichotomy index list.length with inside | rfl | outside
  · rw [List.getElem?_append_left inside] at shown
    exact Or.inl shown
  · rw [List.getElem?_concat_length, Option.some.injEq] at shown
    exact Or.inr ⟨rfl, shown.symm⟩
  · rw [List.getElem?_eq_none (by rw [List.length_append, List.length_singleton]; exact outside)]
      at shown
    cases shown

private theorem letter?_begin {later : Exchange} {call : Call} {number : Nat} {letter : Letter}
    (calls : later.calls = ex.calls ++ [call]) (own : later.letter? (.task number) = some letter) :
    ex.letter? (.task number) = some letter ∨ number = ex.calls.length ∧ call = .send letter := by
  rw [letter?, calls] at own
  rw [letter?]
  split at own
  · next found =>
    rcases getElem?_concat_cases found with old | ⟨last, rfl⟩
    · rw [old]
      exact Or.inl own
    · cases own
      exact Or.inr ⟨last, rfl⟩
  · cases own

theorem letter?_step {history : List Happening} {later : Exchange} (step : ex.Step history later) :
    (∀ author letter id, later.letter? author = some letter → letter.id? = some id →
      ex.letter? author = some letter) ∨
    ∃ newcomer, ex.client.correlator.nextId < later.client.correlator.nextId ∧
      ∀ author letter id, later.letter? author = some letter → letter.id? = some id →
        ex.letter? author = some letter ∨ author = newcomer ∧ id = ex.client.correlator.nextId := by
  have grown : ∀ method params, ex.client.correlator.closedWith = none →
      ex.client.correlator.nextId <
        (ex.client.correlator.request method params).2.nextId := by
    intro method params opened
    simp [Correlator.request, opened, Correlator.takeId]
  have unchanged : ex.SameLetters later → ∀ author letter id, later.letter? author = some letter →
      letter.id? = some id → ex.letter? author = some letter :=
    fun same author _ _ own _ => (same.letter? author).symm.trans own
  cases step with
  | registered process fresh opened =>
    refine Or.inr ⟨.opening, grown _ _ opened, ?_⟩
    intro author letter id own numbered
    cases author with
    | opening =>
      cases own
      cases numbered
      exact Or.inr ⟨rfl, rfl⟩
    | _ => exact Or.inl own
  | rebuffed fault fresh =>
    exact Or.inl (unchanged ⟨(congrArg Opening.request? fresh).symm, rfl, rfl⟩)
  | @finished pen writing whole =>
    have same := sameLetters_proceed (ex.record pen.author pen.letter) pen.letter pen.author
    exact Or.inl (unchanged ⟨same.opening, same.calls, same.partings⟩)
  | @refused pen writing unwritten =>
    have same := sameLetters_giveUp { ex with pen := none } pen.letter pen.author
    exact Or.inl (unchanged ⟨same.opening, same.calls, same.partings⟩)
  | asked wish method params connected opened own' =>
    refine Or.inr ⟨.task ex.calls.length, grown _ _ opened, ?_⟩
    intro author letter id own numbered
    cases author with
    | task number =>
      rcases letter?_begin rfl own with old | ⟨rfl, new⟩
      · exact Or.inl old
      · cases new
        cases numbered
        rw [own']
        exact Or.inr ⟨rfl, rfl⟩
    | _ => exact Or.inl own
  | @begun request call task connected begins =>
    refine Or.inl fun author letter id own numbered => ?_
    cases author with
    | task number =>
      rcases letter?_begin rfl own with old | ⟨rfl, rfl⟩
      · exact old
      · -- A task that is begun without a request has a notification to write.
        generalize task.stage = stage at begins
        cases begins
        cases numbered
    | _ => exact own
  | parted connected =>
    refine Or.inr ⟨.shutdown ex.partings.length, Nat.lt_succ_self _, ?_⟩
    intro author letter id own numbered
    cases author with
    | shutdown number =>
      obtain ⟨parting, found, rfl⟩ := Option.map_eq_some_iff.mp own
      rcases getElem?_concat_cases found with old | ⟨rfl, rfl⟩
      · rw [letter?, old]
        exact Or.inl rfl
      · cases numbered
        exact Or.inr ⟨rfl, rfl⟩
    | exit number =>
      obtain ⟨parting, found, rfl⟩ := Option.map_eq_some_iff.mp own
      cases numbered
    | _ => exact Or.inl own
  | forsaken number free free' =>
    have same := sameLetters_modify ex number fun parting => (onward_forsake parting).1
    exact Or.inl (unchanged same)
  | @halted number request rejected stopping =>
    have same := sameLetters_modify ex number fun parting => (onward_halt rejected parting).1
    exact Or.inl (unchanged ⟨same.opening, same.calls, same.partings⟩)
  | _ => exact Or.inl (unchanged ⟨rfl, rfl, rfl⟩)

theorem numbered_step {history : List Happening} {later : Exchange} (numbered : ex.Numbered)
    (step : ex.Step history later) : later.Numbered := by
  have grown : ex.client.correlator.nextId ≤ later.client.correlator.nextId := by
    rw [correlator_step step]
    exact Correlator.nextId_le_through _ _
  rcases letter?_step step with old | ⟨newcomer, above, origin⟩
  · refine ⟨?_, ?_⟩
    · intro author letter id own named
      exact Nat.lt_of_lt_of_le (numbered.below author letter id (old _ _ _ own named) named) grown
    · intro author author' letter letter' id own own' named named'
      exact numbered.apart author author' letter letter' id (old _ _ _ own named)
        (old _ _ _ own' named') named named'
  · refine ⟨?_, ?_⟩
    · intro author letter id own named
      rcases origin author letter id own named with before | ⟨-, rfl⟩
      · exact Nat.lt_of_lt_of_le (numbered.below author letter id before named) grown
      · exact above
    · intro author author' letter letter' id own own' named named'
      rcases origin author letter id own named with before | ⟨new, next⟩ <;>
        rcases origin author' letter' id own' named' with before' | ⟨new', next'⟩
      · exact numbered.apart author author' letter letter' id before before' named named'
      · exact absurd (numbered.below author letter id before named) (by omega)
      · exact absurd (numbered.below author' letter' id before' named') (by omega)
      · rw [new, new']

/-- The bytes of the frame under way that have left. -/
def underway (ex : Exchange) : Bytes :=
  match ex.pen with
  | some pen => pen.letter.frame.take pen.count
  | none => []

/-- The bytes that have left are those of the letters, and the client knows these. -/
structure Conveyed (ex : Exchange) : Prop where
  inside : ∀ pen, ex.pen = some pen → pen.count ≤ pen.letter.frame.length
  out : ex.out = (ex.written.flatMap fun entry => entry.letter.frame) ++ ex.underway
  sent : ex.client.sent = ex.written.map fun entry => entry.letter.text

private theorem Conveyed.aside {later : Exchange} (conveyed : ex.Conveyed)
    (aside : ex.Aside later) : later.Conveyed := by
  refine ⟨?_, ?_, ?_⟩
  · rw [aside.pen]
    exact conveyed.inside
  · rw [underway, aside.out, aside.written, aside.pen]
    exact conveyed.out
  · rw [aside.sent, aside.written]
    exact conveyed.sent

theorem conveyed_step {history : List Happening} {later : Exchange} (conveyed : ex.Conveyed)
    (step : ex.Step history later) : later.Conveyed := by
  cases step with
  | taken free ready =>
    refine ⟨?_, ?_, conveyed.sent⟩
    · rintro pen ⟨⟩
      exact Nat.zero_le _
    · have before := conveyed.out
      rw [underway, free] at before
      exact before
  | @put pen count writing =>
    have inside := conveyed.inside pen writing
    have before := conveyed.out
    rw [underway, writing] at before
    refine ⟨?_, ?_, conveyed.sent⟩
    · rintro other ⟨⟩
      simp only [List.length_take, List.length_drop]
      omega
    · have front : ∀ bytes : Bytes, bytes.take (bytes.take count).length = bytes.take count := by
        intro bytes
        rw [List.take_eq_take_iff, List.length_take]
        omega
      show ex.out ++ _ = _ ++ pen.letter.frame.take _
      rw [before, List.append_assoc, List.take_add, front]
  | @finished pen writing whole =>
    refine Conveyed.aside ?_ (aside_proceed _ pen.letter pen.author)
    have before := conveyed.out
    rw [underway, writing] at before
    dsimp only at before
    rw [whole, List.take_length] at before
    refine ⟨by rintro other ⟨⟩, ?_, ?_⟩
    · show ex.out = _
      rw [before]
      simp [record, underway]
    · show ex.client.sent ++ _ = _
      rw [conveyed.sent]
      simp [record]
  | @refused pen writing unwritten =>
    refine Conveyed.aside ?_ (aside_giveUp _ pen.letter pen.author)
    have before := conveyed.out
    rw [underway, writing] at before
    dsimp only at before
    rw [unwritten, List.take_zero] at before
    exact ⟨by rintro other ⟨⟩, before, conveyed.sent⟩
  | heard payload => exact ⟨conveyed.inside, conveyed.out, conveyed.sent⟩
  | _ => exact conveyed.aside ⟨rfl, rfl, rfl, rfl, rfl⟩

/-- Every letter that was written is its author's, who has it behind it and wrote no other. -/
structure Entered (ex : Exchange) : Prop where
  own : ∀ entry ∈ ex.written, ex.letter? entry.author = some entry.letter
  past : ∀ entry ∈ ex.written, ex.Past entry.author
  once : (ex.written.map Entry.author).Nodup

theorem past_proceed {author : Author} {letter : Letter} (ready : ex.Ready author letter) :
    (ex.proceed letter author).Past author := by
  cases ready with
  | @opening request asks =>
    refine ⟨request, ?_⟩
    show ex.opening.proceed = _
    rw [asks]
    rfl
  | greeting connected answered => exact ⟨⟨_, connected⟩, rfl⟩
  | @task number wish id body letter writes call =>
    refine ⟨⟨wish, letter.stage⟩, ?_, letter.isWriting_stage⟩
    show (ex.client.setStage number letter.stage).tasks[number]? = _
    rw [Client.getElem?_setStage, if_pos rfl, writes]
    rfl
  | @shutdown number request asks =>
    refine ⟨⟨request, .leaving⟩, ?_, Nat.le_refl 1⟩
    show (ex.partings.modify number Parting.proceed)[number]? = _
    rw [List.getElem?_modify_eq, asks]
    rfl
  | @exit number request leaves =>
    refine ⟨⟨request, .stopping⟩, ?_, Nat.le_refl 2⟩
    show (ex.partings.modify number Parting.proceed)[number]? = _
    rw [List.getElem?_modify_eq, leaves]
    rfl

theorem entered_step {history : List Happening} {later : Exchange} (held : ex.Held)
    (entered : ex.Entered) (step : ex.Step history later) : later.Entered := by
  have forward := forward_step held step
  have own : ∀ entry ∈ ex.written, later.letter? entry.author = some entry.letter :=
    fun entry member => forward.letter? (entered.own entry member)
  have past : ∀ entry ∈ ex.written, later.Past entry.author :=
    fun entry member => forward.past (entered.past entry member)
  rcases written_step step with same | ⟨pen, writing, rfl, grown⟩
  · refine ⟨?_, ?_, ?_⟩ <;> rw [same]
    · exact own
    · exact past
    · exact entered.once
  · have ready := held pen writing
    refine ⟨?_, ?_, ?_⟩ <;> rw [grown]
    · intro entry member
      rcases List.mem_append.mp member with old | new
      · exact own entry old
      · rw [List.mem_singleton] at new
        subst new
        exact forward.letter? ready.letter?
    · intro entry member
      rcases List.mem_append.mp member with old | new
      · exact past entry old
      · rw [List.mem_singleton] at new
        subst new
        exact past_proceed (ready.congr rfl rfl rfl rfl rfl)
    · rw [List.map_append, List.map_singleton, ← List.concat_eq_append]
      refine entered.once.concat ?_
      intro member
      obtain ⟨entry, old, same⟩ := List.mem_map.mp member
      have behind := entered.past entry old
      rw [same] at behind
      exact ready.not_past behind

/-- Nobody writes before the client is connected but the one who connects. -/
structure Begun (ex : Exchange) : Prop where
  request : ∀ request, ex.opening.request? = some request →
    ∃ process, Letter.request request = .opening process
  idle : (∀ request, ex.opening ≠ .done request) →
    ex.client.tasks = [] ∧ ex.calls = [] ∧ ex.partings = [] ∧ ex.written = []
  first : ∀ request, ex.opening = .done request →
    ∃ later, ex.written = ⟨.opening, .request request⟩ :: later
  unused : ex.opening = .fresh →
    ex.client.correlator.nextId = 1 ∧ ex.client.correlator.receiver? 1 = none

theorem begun_new (limit : Option Duration) (inputOpen : Bool) : (new limit inputOpen).Begun where
  request _ found := nomatch found
  idle _ := ⟨rfl, rfl, rfl, rfl⟩
  first _ done := nomatch done
  unused _ := ⟨rfl, rfl⟩

theorem Begun.ready {author : Author} {letter : Letter} (begun : ex.Begun)
    (ready : ex.Ready author letter) :
    (∃ request, ex.opening = .done request) ∨
      author = .opening ∧ ∃ request, ex.opening = .asking request ∧ letter = .request request := by
  by_cases connected : ∃ request, ex.opening = .done request
  · exact Or.inl connected
  · obtain ⟨tasks, calls, partings, -⟩ := begun.idle (not_exists.mp connected)
    cases ready with
    | opening asks => exact Or.inr ⟨rfl, _, asks, rfl⟩
    | greeting done answered => exact absurd ⟨_, done⟩ connected
    | task writes call =>
      rw [tasks] at writes
      cases writes
    | shutdown asks =>
      rw [partings] at asks
      cases asks
    | exit leaves =>
      rw [partings] at leaves
      cases leaves

private theorem unused_run {c : Correlator} {op : Rpc.Operation} (idle : op.taken c = [])
    (unused : c.nextId = 1 ∧ c.receiver? 1 = none) :
    (op.run c).nextId = 1 ∧ (op.run c).receiver? 1 = none := by
  have nobody : op.handed c = [] := List.sublist_nil.mp (idle ▸ op.handed_sublist c)
  refine ⟨?_, ?_⟩
  · rw [op.nextId_run, idle]
    exact unused.1
  · have same := op.isSome_receiver?_run c 1
    rw [nobody, unused.2] at same
    simpa using same

private theorem begun_step_connected {history : List Happening} {later : Exchange}
    {request : Rpc.Request} (held : ex.Held) (begun : ex.Begun)
    (connected : ex.opening = .done request) (step : ex.Step history later) : later.Begun := by
  have still := (forward_step held step).done request connected
  refine ⟨?_, ?_, ?_, ?_⟩
  · intro other found
    rw [still, ← connected] at found
    exact begun.request other found
  · intro idle
    exact absurd still (idle request)
  · intro other done
    cases done.symm.trans still
    obtain ⟨more, written⟩ := begun.first request connected
    rcases written_step step with same | ⟨pen, -, -, grown⟩
    · exact ⟨more, same.trans written⟩
    · exact ⟨more ++ [_], by rw [grown, written, List.cons_append]⟩
  · intro fresh
    exact nomatch fresh.symm.trans still

theorem begun_step {history : List Happening} {later : Exchange} (held : ex.Held) (begun : ex.Begun)
    (step : ex.Step history later) : later.Begun := by
  by_cases connected : ∃ request, ex.opening = .done request
  · obtain ⟨request, connected⟩ := connected
    exact begun_step_connected held begun connected step
  -- As long as nobody is connected there are no tasks and no shutdowns whose steps these could be.
  have idle := begun.idle (not_exists.mp connected)
  have ⟨tasks, calls, partings, written⟩ := idle
  cases step with
  | still => exact begun
  | registered process fresh opened =>
    obtain ⟨next, -⟩ := begun.unused fresh
    refine ⟨?_, fun _ => idle, fun _ done => (nomatch done), fun fresh => (nomatch fresh)⟩
    rintro request ⟨⟩
    rw [next]
    exact ⟨process, rfl⟩
  | rebuffed fault fresh =>
    exact ⟨fun _ found => (nomatch found), fun _ => idle, fun _ done => (nomatch done),
      fun fresh => (nomatch fresh)⟩
  | @finished pen writing whole =>
    obtain ⟨author, letter, count⟩ := pen
    rcases begun.ready (held _ writing) with done | ⟨rfl, request, asks, rfl⟩
    · exact absurd done connected
    have done : ex.opening.proceed = .done request := by rw [asks]; rfl
    refine ⟨?_, fun idle => absurd done (idle request), ?_,
      fun fresh => (nomatch done.symm.trans fresh)⟩
    · intro other found
      have same : ex.opening.proceed.request? = some other := found
      rw [done] at same
      exact begun.request other (by rw [asks]; exact same)
    · intro other done'
      cases done.symm.trans done'
      refine ⟨[], ?_⟩
      show ex.written ++ _ = _
      rw [written]
      rfl
  | @refused pen writing unwritten =>
    obtain ⟨author, letter, count⟩ := pen
    rcases begun.ready (held _ writing) with done | ⟨rfl, request, asks, rfl⟩
    · exact absurd done connected
    have failed : ex.opening.giveUp = .failed (some request) .processExited := by rw [asks]; rfl
    refine ⟨?_, fun _ => idle, fun _ done => (nomatch failed.symm.trans done),
      fun fresh => (nomatch failed.symm.trans fresh)⟩
    intro other found
    have same : ex.opening.giveUp.request? = some other := found
    rw [failed] at same
    exact begun.request other (by rw [asks]; exact same)
  | asked wish method params done => exact absurd ⟨_, done⟩ connected
  | begun done => exact absurd ⟨_, done⟩ connected
  | parted done => exact absurd ⟨_, done⟩ connected
  | greeted done => exact absurd ⟨_, done⟩ connected
  | moved found onward =>
    rw [tasks] at found
    cases found
  | halted rejected stopping =>
    rw [partings] at stopping
    cases stopping
  | forsaken number free free' =>
    refine ⟨begun.request, fun _ => ⟨tasks, calls, ?_, written⟩, begun.first, begun.unused⟩
    show ex.partings.modify number _ = []
    rw [partings, List.modify_nil]
  | tornDown reason =>
    exact ⟨begun.request, begun.idle, begun.first,
      fun fresh => @unused_run _ (.rejectAll reason) rfl (begun.unused fresh)⟩
  | heard payload =>
    exact ⟨begun.request, begun.idle, begun.first,
      fun fresh => @unused_run _ (.dispatchPayload payload) rfl (begun.unused fresh)⟩
  | _ => exact ⟨begun.request, begun.idle, begun.first, begun.unused⟩

/-- What is true of the letters of a client in use. -/
structure Orderly (ex : Exchange) : Prop where
  held : ex.Held
  numbered : ex.Numbered
  conveyed : ex.Conveyed
  entered : ex.Entered
  begun : ex.Begun

theorem orderly_new (limit : Option Duration) (inputOpen : Bool) :
    (new limit inputOpen).Orderly where
  held _ writing := nomatch writing
  numbered := by
    have nobody : ∀ author letter id, (new limit inputOpen).letter? author = some letter →
        letter.id? ≠ some id := by
      intro author letter id own named
      cases author <;> cases own
      cases named
    exact ⟨fun author letter id own named => absurd named (nobody author letter id own),
      fun author _ letter _ id own _ named => absurd named (nobody author letter id own)⟩
  conveyed := ⟨fun _ writing => (nomatch writing), rfl, rfl⟩
  entered := ⟨fun _ member => (nomatch member), fun _ member => (nomatch member), List.nodup_nil⟩
  begun := begun_new limit inputOpen

theorem orderly_step {history : List Happening} {later : Exchange} (orderly : ex.Orderly)
    (step : ex.Step history later) : later.Orderly where
  held := held_step orderly.held step
  numbered := numbered_step orderly.numbered step
  conveyed := conveyed_step orderly.conveyed step
  entered := entered_step orderly.held orderly.entered step
  begun := begun_step orderly.held orderly.begun step

end Exchange

end NotebookKernel.Language
