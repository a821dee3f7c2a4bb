import NotebookKernel.Proofs.Language.Moves

/-!
# Authors

An author has one letter, and once it is behind the author it stays there: by a step authors only go
on. Nothing but its own step takes a letter away from the author who has the pen.
-/

set_option autoImplicit false

namespace NotebookKernel.Language

open Rpc (Correlator Happening)

def Stage.isWriting : Stage → Bool
  | .writing _ _ => true
  | _ => false

def PartingStage.rank : PartingStage → Nat
  | .asking => 0
  | .leaving => 1
  | .stopping | .ended _ | .forsaken => 2

theorem Letter.isWriting_stage (letter : Letter) : letter.stage.isWriting = false := by
  cases letter <;> rfl

theorem Client.getElem?_setStage (client : Client) (number : Nat) (stage : Stage) (other : Nat) :
    (client.setStage number stage).tasks[other]? =
      if number = other then (client.tasks[other]?).map fun task => { task with stage }
      else client.tasks[other]? := by
  rw [setStage, List.getElem?_modify]
  split
  · rfl
  · simp

namespace Exchange

variable {ex : Exchange}

def letter? (ex : Exchange) : Author → Option Letter
  | .opening => ex.opening.request?.map .request
  | .greeting => some .initialized
  | .task number =>
    match ex.calls[number]? with
    | some (.send letter) => some letter
    | _ => none
  | .shutdown number => ex.partings[number]?.map fun parting => .request parting.request
  | .exit number => ex.partings[number]?.map fun _ => .exit

def Past (ex : Exchange) : Author → Prop
  | .opening => ∃ request, ex.opening = .done request
  | .greeting => (∃ request, ex.opening = .done request) ∧
      ex.client.handshake.outcome? = some (.ok .nothing)
  | .task number => ∃ task, ex.client.tasks[number]? = some task ∧ task.stage.isWriting = false
  | .shutdown number => ∃ parting, ex.partings[number]? = some parting ∧ 1 ≤ parting.stage.rank
  | .exit number => ∃ parting, ex.partings[number]? = some parting ∧ 2 ≤ parting.stage.rank

/-- The letter that an author has to write now, and how far the author has come. -/
inductive Ready (ex : Exchange) : Author → Letter → Prop
  | opening {request : Rpc.Request} (asks : ex.opening = .asking request) :
      Ready ex .opening (.request request)
  | greeting {request : Rpc.Request} (connected : ex.opening = .done request)
      (answered : ex.client.handshake = .answered) : Ready ex .greeting .initialized
  | task {number : Nat} {wish : Wish} {id : Option Nat} {body : String} {letter : Letter}
      (writes : ex.client.tasks[number]? = some ⟨wish, .writing id body⟩)
      (call : ex.calls[number]? = some (.send letter)) : Ready ex (.task number) letter
  | shutdown {number : Nat} {request : Rpc.Request}
      (asks : ex.partings[number]? = some ⟨request, .asking⟩) :
      Ready ex (.shutdown number) (.request request)
  | exit {number : Nat} {request : Rpc.Request}
      (leaves : ex.partings[number]? = some ⟨request, .leaving⟩) : Ready ex (.exit number) .exit

theorem draft?_eq_some_iff {author : Author} {letter : Letter} :
    ex.draft? author = some letter ↔ ex.Ready author letter := by
  constructor
  · intro drafted
    cases author with
    | opening =>
      simp only [draft?] at drafted
      split at drafted <;> cases drafted
      exact .opening ‹_›
    | greeting =>
      simp only [draft?] at drafted
      split at drafted <;> cases drafted
      exact .greeting ‹_› ‹_›
    | task number =>
      simp only [draft?] at drafted
      split at drafted <;> cases drafted
      exact .task ‹_› ‹_›
    | shutdown number =>
      simp only [draft?] at drafted
      split at drafted <;> cases drafted
      exact .shutdown ‹_›
    | exit number =>
      simp only [draft?] at drafted
      split at drafted <;> cases drafted
      exact .exit ‹_›
  · intro ready
    cases ready with
    | opening asks => simp only [draft?, asks]
    | greeting connected answered => simp only [draft?, connected, answered]
    | task writes call => simp only [draft?, writes, call]
    | shutdown asks => simp only [draft?, asks]
    | exit leaves => simp only [draft?, leaves]

theorem Ready.letter? {author : Author} {letter : Letter} (ready : ex.Ready author letter) :
    ex.letter? author = some letter := by
  cases ready with
  | opening asks => rw [Exchange.letter?, asks]; rfl
  | greeting connected answered => rfl
  | task writes call => rw [Exchange.letter?, call]
  | shutdown asks => rw [Exchange.letter?, asks]; rfl
  | exit leaves => rw [Exchange.letter?, leaves]; rfl

theorem Ready.congr {later : Exchange} {author : Author} {letter : Letter}
    (ready : ex.Ready author letter) (opening : later.opening = ex.opening)
    (handshake : later.client.handshake = ex.client.handshake)
    (tasks : later.client.tasks = ex.client.tasks) (calls : later.calls = ex.calls)
    (partings : later.partings = ex.partings) : later.Ready author letter := by
  cases ready with
  | opening asks => exact .opening (opening.trans asks)
  | greeting connected answered =>
    exact .greeting (opening.trans connected) (handshake.trans answered)
  | task writes call => exact .task (tasks ▸ writes) (calls ▸ call)
  | shutdown asks => exact .shutdown (partings ▸ asks)
  | exit leaves => exact .exit (partings ▸ leaves)

theorem Ready.not_past {author : Author} {letter : Letter} (ready : ex.Ready author letter) :
    ¬ ex.Past author := by
  intro behind
  cases ready with
  | opening asks =>
    obtain ⟨request, done⟩ := behind
    rw [asks] at done
    cases done
  | greeting connected answered =>
    obtain ⟨-, ended⟩ := behind
    rw [answered] at ended
    cases ended
  | task writes call =>
    obtain ⟨task, found, idle⟩ := behind
    rw [writes] at found
    cases found
    cases idle
  | shutdown asks =>
    obtain ⟨parting, found, behind⟩ := behind
    rw [asks] at found
    cases found
    simp [PartingStage.rank] at behind
  | exit leaves =>
    obtain ⟨parting, found, behind⟩ := behind
    rw [leaves] at found
    cases found
    simp [PartingStage.rank] at behind

structure Forward (ex later : Exchange) : Prop where
  request : ∀ request, ex.opening.request? = some request → later.opening.request? = some request
  done : ∀ request, ex.opening = .done request → later.opening = .done request
  greeted : ∀ request outcome, ex.opening = .done request →
    ex.client.handshake.outcome? = some outcome → later.client.handshake.outcome? = some outcome
  tasks : ∀ (number : Nat) (task : Task), ex.client.tasks[number]? = some task →
    task.stage.isWriting = false →
    ∃ further : Task, later.client.tasks[number]? = some further ∧ further.stage.isWriting = false
  calls : ∀ (number : Nat) (call : Call), ex.calls[number]? = some call →
    later.calls[number]? = some call
  partings : ∀ (number : Nat) (parting : Parting), ex.partings[number]? = some parting →
    ∃ further : Parting, later.partings[number]? = some further ∧
      further.request = parting.request ∧ parting.stage.rank ≤ further.stage.rank

namespace Forward

variable {ex later : Exchange}

theorem refl (ex : Exchange) : ex.Forward ex where
  request _ found := found
  done _ found := found
  greeted _ _ _ found := found
  tasks _ task found idle := ⟨task, found, idle⟩
  calls _ _ found := found
  partings _ parting found := ⟨parting, found, rfl, Nat.le_refl _⟩

theorem letter? (forward : ex.Forward later) {author : Author} {letter : Letter}
    (own : ex.letter? author = some letter) : later.letter? author = some letter := by
  cases author with
  | opening =>
    obtain ⟨request, found, rfl⟩ := Option.map_eq_some_iff.mp own
    rw [Exchange.letter?, forward.request request found]
    rfl
  | greeting => exact own
  | task number =>
    simp only [Exchange.letter?] at own ⊢
    split at own
    · next found =>
      rw [forward.calls number _ found]
      exact own
    · cases own
  | shutdown number =>
    obtain ⟨parting, found, rfl⟩ := Option.map_eq_some_iff.mp own
    obtain ⟨further, found', same, -⟩ := forward.partings number parting found
    rw [Exchange.letter?, found', Option.map_some, same]
  | exit number =>
    obtain ⟨parting, found, rfl⟩ := Option.map_eq_some_iff.mp own
    obtain ⟨further, found', -, -⟩ := forward.partings number parting found
    rw [Exchange.letter?, found', Option.map_some]

theorem past (forward : ex.Forward later) {author : Author} (behind : ex.Past author) :
    later.Past author := by
  cases author with
  | opening =>
    obtain ⟨request, done⟩ := behind
    exact ⟨request, forward.done request done⟩
  | greeting =>
    obtain ⟨⟨request, done⟩, ended⟩ := behind
    exact ⟨⟨request, forward.done request done⟩, forward.greeted request _ done ended⟩
  | task number =>
    obtain ⟨task, found, idle⟩ := behind
    exact forward.tasks number task found idle
  | shutdown number =>
    obtain ⟨parting, found, behind⟩ := behind
    obtain ⟨further, found', -, onward⟩ := forward.partings number parting found
    exact ⟨further, found', Nat.le_trans behind onward⟩
  | exit number =>
    obtain ⟨parting, found, behind⟩ := behind
    obtain ⟨further, found', -, onward⟩ := forward.partings number parting found
    exact ⟨further, found', Nat.le_trans behind onward⟩

theorem trans {first second third : Exchange} (one : first.Forward second)
    (two : second.Forward third) : first.Forward third where
  request _ found := two.request _ (one.request _ found)
  done _ done := two.done _ (one.done _ done)
  greeted _ outcome done ended :=
    two.greeted _ outcome (one.done _ done) (one.greeted _ outcome done ended)
  tasks number task found idle := by
    obtain ⟨further, found', idle'⟩ := one.tasks number task found idle
    exact two.tasks number further found' idle'
  calls number call found := two.calls number call (one.calls number call found)
  partings number parting found := by
    obtain ⟨further, found', same, onward⟩ := one.partings number parting found
    obtain ⟨last, found'', same', onward'⟩ := two.partings number further found'
    exact ⟨last, found'', same'.trans same, Nat.le_trans onward onward'⟩

end Forward

theorem forward_setStage (ex : Exchange) (correlator : Correlator) (number : Nat) {stage : Stage}
    (idle : stage.isWriting = false) :
    ex.Forward { ex with client := { ex.client with correlator }.setStage number stage } :=
  { Forward.refl ex with
    tasks := by
      intro other task found quiet
      refine ⟨if number = other then { task with stage } else task, ?_, ?_⟩
      · rw [Client.getElem?_setStage, found]
        split <;> rfl
      · split
        · exact idle
        · exact quiet }

theorem forward_modify (ex : Exchange) (number : Nat) {change : Parting → Parting}
    (onward : ∀ parting, (change parting).request = parting.request ∧
      parting.stage.rank ≤ (change parting).stage.rank) :
    ex.Forward { ex with partings := ex.partings.modify number change } :=
  { Forward.refl ex with
    partings := by
      intro other parting found
      refine ⟨if number = other then change parting else parting, ?_, ?_⟩
      · rw [List.getElem?_modify, found]
        split <;> simp_all
      · split
        · exact onward parting
        · exact ⟨rfl, Nat.le_refl _⟩ }

theorem onward_proceed (parting : Parting) : parting.proceed.request = parting.request ∧
    parting.stage.rank ≤ parting.proceed.stage.rank := by
  obtain ⟨request, stage⟩ := parting
  cases stage <;> simp [Parting.proceed, PartingStage.rank]

theorem onward_giveUp (parting : Parting) : parting.giveUp.request = parting.request ∧
    parting.stage.rank ≤ parting.giveUp.stage.rank := by
  obtain ⟨request, stage⟩ := parting
  cases stage <;> simp [Parting.giveUp, PartingStage.rank]

theorem onward_halt (rejected : Nat) (parting : Parting) :
    (parting.halt rejected).request = parting.request ∧
      parting.stage.rank ≤ (parting.halt rejected).stage.rank := by
  obtain ⟨request, stage⟩ := parting
  cases stage <;> simp [Parting.halt, PartingStage.rank]

theorem onward_forsake (parting : Parting) : parting.forsake.request = parting.request ∧
    parting.stage.rank ≤ parting.forsake.stage.rank := by
  obtain ⟨request, stage⟩ := parting
  cases stage <;> simp [Parting.forsake, PartingStage.rank]

theorem forward_proceed {letter : Letter} {author : Author} (ready : ex.Ready author letter) :
    ex.Forward (ex.proceed letter author) := by
  cases ready with
  | opening asks =>
    exact { Forward.refl ex with
      request := by
        intro request found
        rw [asks] at found
        simp only [proceed, Opening.proceed, asks]
        exact found
      done := by
        intro request done
        rw [asks] at done
        cases done }
  | greeting connected answered =>
    exact { Forward.refl ex with
      greeted := by
        intro _ outcome _ ended
        rw [answered] at ended
        cases ended }
  | task writes call =>
    exact forward_setStage ex ex.client.correlator _ (Letter.isWriting_stage letter)
  | shutdown asks => exact forward_modify ex _ onward_proceed
  | exit leaves => exact forward_modify ex _ onward_proceed

theorem forward_giveUp {letter : Letter} {author : Author} (ready : ex.Ready author letter) :
    ex.Forward (ex.giveUp letter author) := by
  have cancelled : ∃ correlator, ex.client.cancel letter.id? = { ex.client with correlator } := by
    cases letter.id? with
    | none => exact ⟨ex.client.correlator, rfl⟩
    | some id => exact ⟨_, rfl⟩
  obtain ⟨correlator, cancelled⟩ := cancelled
  cases ready with
  | opening asks =>
    rw [giveUp, cancelled]
    exact { Forward.refl ex with
      request := by
        intro request found
        rw [asks] at found
        simp only [Opening.giveUp, asks]
        exact found
      done := by
        intro request done
        rw [asks] at done
        cases done }
  | greeting connected answered =>
    exact { Forward.refl ex with
      greeted := by
        intro _ outcome _ ended
        rw [answered] at ended
        cases ended }
  | task writes call =>
    rw [giveUp, cancelled]
    exact forward_setStage ex correlator _ rfl
  | shutdown asks => exact forward_modify ex _ onward_giveUp
  | exit leaves => exact forward_modify ex _ onward_giveUp

def Held (ex : Exchange) : Prop :=
  ∀ pen, ex.pen = some pen → ex.Ready pen.author pen.letter

theorem getElem?_append {α : Type} {list : List α} {index : Nat} {item : α}
    (found : list[index]? = some item) (more : List α) : (list ++ more)[index]? = some item := by
  obtain ⟨inside, -⟩ := List.getElem?_eq_some_iff.mp found
  rw [List.getElem?_append_left inside, found]

private theorem forward_begin (ex : Exchange) (correlator : Correlator) (task : Task)
    (call : Call) : ex.Forward { ex with
      client := { ex.client with correlator, tasks := ex.client.tasks ++ [task] }
      calls := ex.calls ++ [call] } :=
  { Forward.refl ex with
    tasks := fun _ other found idle => ⟨other, getElem?_append found _, idle⟩
    calls := fun _ _ found => getElem?_append found _ }

theorem forward_step {history : List Happening} {later : Exchange} (held : ex.Held)
    (step : ex.Step history later) : ex.Forward later := by
  cases step with
  | registered process fresh opened =>
    exact { Forward.refl ex with
      request := fun _ found => nomatch (congrArg Opening.request? fresh).symm.trans found
      done := fun _ done => nomatch fresh.symm.trans done
      greeted := fun _ _ done => nomatch fresh.symm.trans done }
  | rebuffed fault fresh =>
    exact { Forward.refl ex with
      request := fun _ found => nomatch (congrArg Opening.request? fresh).symm.trans found
      done := fun _ done => nomatch fresh.symm.trans done }
  | @finished pen writing whole =>
    have recorded : ex.Forward (ex.record pen.author pen.letter) := { Forward.refl ex with }
    exact recorded.trans (forward_proceed ((held pen writing).congr rfl rfl rfl rfl rfl))
  | @refused pen writing unwritten =>
    have free : ex.Forward { ex with pen := none } := { Forward.refl ex with }
    exact free.trans (forward_giveUp ((held pen writing).congr rfl rfl rfl rfl rfl))
  | asked wish method params connected opened own => exact forward_begin ex _ _ _
  | begun connected begins => exact forward_begin ex ex.client.correlator _ _
  | parted connected =>
    exact { Forward.refl ex with
      partings := fun _ parting found => ⟨parting, getElem?_append found _, rfl, Nat.le_refl _⟩ }
  | moved found onward => exact forward_setStage ex _ _ (by cases onward <;> rfl)
  | greeted connected waits sees =>
    exact { Forward.refl ex with
      greeted := by
        intro _ outcome _ ended
        rw [waits] at ended
        cases ended }
  | forsaken number free free' => exact forward_modify ex number onward_forsake
  | @halted number request rejected stopping =>
    exact { Forward.refl ex with
      partings := (forward_modify ex number (onward_halt rejected)).partings }
  | still => exact Forward.refl ex
  | taken free ready => exact { Forward.refl ex with }
  | put count writing => exact { Forward.refl ex with }
  | tornDown reason => exact { Forward.refl ex with }
  | heard payload => exact { Forward.refl ex with }
  | deafened => exact { Forward.refl ex with }

/-- What the author who has the pen has to write is left to it. -/
structure Undisturbed (ex later : Exchange) : Prop where
  opening : ∀ request, ex.opening = .asking request → later.opening = .asking request
  greeting : ∀ request, ex.opening = .done request → ex.client.handshake = .answered →
    later.opening = .done request ∧ later.client.handshake = .answered
  tasks : ∀ (number : Nat) (wish : Wish) (id : Option Nat) (body : String),
    ex.holds (.task number) = true →
    ex.client.tasks[number]? = some ⟨wish, .writing id body⟩ →
    later.client.tasks[number]? = some ⟨wish, .writing id body⟩
  partings : ∀ (number : Nat) (parting : Parting),
    ex.holds (.shutdown number) = true ∨ ex.holds (.exit number) = true →
    ex.partings[number]? = some parting → parting.stage.rank < 2 →
    later.partings[number]? = some parting

namespace Undisturbed

variable {later : Exchange}

theorem refl (ex : Exchange) : ex.Undisturbed ex where
  opening _ found := found
  greeting _ connected answered := ⟨connected, answered⟩
  tasks _ _ _ _ _ found := found
  partings _ _ _ found _ := found

theorem ready (undisturbed : ex.Undisturbed later) (forward : ex.Forward later) {author : Author}
    {letter : Letter} (holds : ex.holds author = true) (ready : ex.Ready author letter) :
    later.Ready author letter := by
  cases ready with
  | opening asks => exact .opening (undisturbed.opening _ asks)
  | greeting connected answered =>
    obtain ⟨connected', answered'⟩ := undisturbed.greeting _ connected answered
    exact .greeting connected' answered'
  | task writes call =>
    exact .task (undisturbed.tasks _ _ _ _ holds writes) (forward.calls _ _ call)
  | shutdown asks =>
    exact .shutdown (undisturbed.partings _ _ (Or.inl holds) asks Nat.two_pos)
  | exit leaves =>
    exact .exit (undisturbed.partings _ _ (Or.inr holds) leaves Nat.one_lt_two)

end Undisturbed

theorem Held.undisturbed {later : Exchange} (held : ex.Held) (forward : ex.Forward later)
    (undisturbed : ex.Undisturbed later) (same : later.pen = ex.pen) : later.Held := by
  intro pen writing
  rw [same] at writing
  have holds : ex.holds pen.author = true := by simp [Exchange.holds, writing]
  exact undisturbed.ready forward holds (held pen writing)

theorem held_step {history : List Happening} {later : Exchange} (held : ex.Held)
    (step : ex.Step history later) : later.Held := by
  have forward := forward_step held step
  cases step with
  | still => exact held
  | registered process fresh opened =>
    refine held.undisturbed forward ?_ rfl
    exact { Undisturbed.refl ex with
      opening := fun _ asks => nomatch fresh.symm.trans asks
      greeting := fun _ connected => nomatch fresh.symm.trans connected }
  | rebuffed fault fresh =>
    refine held.undisturbed forward ?_ rfl
    exact { Undisturbed.refl ex with
      opening := fun _ asks => nomatch fresh.symm.trans asks
      greeting := fun _ connected => nomatch fresh.symm.trans connected }
  | taken free ready =>
    rintro pen ⟨⟩
    exact (draft?_eq_some_iff.mp ready).congr rfl rfl rfl rfl rfl
  | put count writing =>
    rintro pen ⟨⟩
    exact (held _ writing).congr rfl rfl rfl rfl rfl
  | finished writing whole =>
    intro pen left
    rw [(aside_proceed _ _ _).pen] at left
    cases left
  | refused writing unwritten =>
    intro pen left
    rw [(aside_giveUp _ _ _).pen] at left
    cases left
  | asked wish method params connected opened own =>
    refine held.undisturbed forward ?_ rfl
    exact { Undisturbed.refl ex with tasks := fun _ _ _ _ _ found => getElem?_append found _ }
  | begun connected begins =>
    refine held.undisturbed forward ?_ rfl
    exact { Undisturbed.refl ex with tasks := fun _ _ _ _ _ found => getElem?_append found _ }
  | parted connected =>
    refine held.undisturbed forward ?_ rfl
    exact { Undisturbed.refl ex with
      partings := fun _ _ _ found _ => getElem?_append found _ }
  | @moved number wish stage further _ found onward =>
    refine held.undisturbed forward ?_ rfl
    exact { Undisturbed.refl ex with
      tasks := by
        intro other wish' id body holds writes
        rw [Client.getElem?_setStage]
        split
        · next same =>
          -- A task with a letter to write goes on by itself only if its caller leaves it.
          subst same
          have same := found.symm.trans writes
          cases onward with
          | left free lasting =>
            rw [holds] at free
            cases free
          | _ => cases same
        · exact writes }
  | greeted connected waits sees =>
    refine held.undisturbed forward ?_ rfl
    exact { Undisturbed.refl ex with
      greeting := by
        intro _ _ answered
        rw [waits] at answered
        cases answered }
  | forsaken number free free' =>
    refine held.undisturbed forward ?_ rfl
    exact { Undisturbed.refl ex with
      partings := by
        intro other parting holds found _
        have apart : number ≠ other := by
          rintro rfl
          rcases holds with holds | holds <;> simp_all
        exact (List.getElem?_modify_ne _ _ apart).trans found }
  | @halted number request rejected stopping =>
    refine held.undisturbed forward ?_ rfl
    exact { Undisturbed.refl ex with
      partings := by
        intro other parting _ found early
        have apart : number ≠ other := by
          rintro rfl
          rw [stopping] at found
          cases found
          simp [PartingStage.rank] at early
        exact (List.getElem?_modify_ne _ _ apart).trans found }
  | tornDown reason => exact held.undisturbed forward { Undisturbed.refl ex with } rfl
  | heard payload => exact held.undisturbed forward { Undisturbed.refl ex with } rfl
  | deafened => exact held.undisturbed forward { Undisturbed.refl ex with } rfl

end Exchange

end NotebookKernel.Language
