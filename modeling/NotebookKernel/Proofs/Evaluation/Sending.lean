import NotebookKernel.Evaluation.Kernel
import NotebookKernel.Proofs.Session.Service
import NotebookKernel.Proofs.Session.Single

/-!
# What an evaluation sends

Requests are evaluated one after another under one key. Between two of them the session of the key,
if there is one, is the last that was started, and nobody uses it. An evaluation writes one program
to it, with the markers of its own number; only when it fails it may have written nothing.
-/

set_option autoImplicit false

namespace NotebookKernel

/-- A session of a key that nobody uses, which has been given the preamble. -/
structure Turns.Spare (turns : Turns) (key : String) : Prop where
  rest : turns.Resting
  key : turns.session.key = key
  seeded : turns.session.written.head? = some Service.preambleBytes

namespace Registry

/-- The programs that were written to the interpreters, one session after another: to each what
follows its preamble. -/
def programs (registry : Registry) : List Bytes :=
  registry.sessions.flatMap fun turns => turns.session.written.tail

/-- All sessions are of one key and nobody uses them; the key stands for the last one, or for none.
-/
structure Standing (registry : Registry) (key : String) : Prop where
  sessions : ∀ turns ∈ registry.sessions, turns.Spare key
  table : registry.table = [] ∨
    ∃ before last, registry = ⟨before ++ [last], [(key, before.length)]⟩

theorem update_last (before : List Turns) (last : Turns) (table : List (String × Nat))
    (change : Turns → Turns) :
    (⟨before ++ [last], table⟩ : Registry).update before.length change =
      ⟨before ++ [change last], table⟩ := by
  simp [update, List.modify_eq_take_drop]

theorem turns?_last (before : List Turns) (last : Turns) (table : List (String × Nat)) :
    (⟨before ++ [last], table⟩ : Registry).turns? before.length = some last :=
  List.getElem?_concat_length

theorem programs_last (before : List Turns) (last : Turns) (table : List (String × Nat)) :
    (⟨before ++ [last], table⟩ : Registry).programs =
      before.flatMap (fun turns => turns.session.written.tail) ++ last.session.written.tail := by
  simp [programs]

theorem Standing.change_last {before : List Turns} {last later : Turns} {key : String}
    {table : List (String × Nat)} (h : Standing ⟨before ++ [last], table⟩ key)
    (stands : table = [] ∨ table = [(key, before.length)]) (spare : later.Spare key) :
    Standing ⟨before ++ [later], table⟩ key := by
  refine ⟨?_, ?_⟩
  · intro turns member
    rcases List.mem_append.mp member with earlier | new
    · exact h.sessions turns (List.mem_append_left _ earlier)
    · rw [List.mem_singleton.mp new]
      exact spare
  · rcases stands with rfl | rfl
    · exact Or.inl rfl
    · exact Or.inr ⟨before, later, rfl⟩

theorem spare_newcomer (key : String) : (Turns.new (Service.newcomer key)).Spare key :=
  ⟨Turns.resting_new _, rfl, rfl⟩

theorem launch_running (sessions : List Turns) (key executable : String) :
    (⟨sessions, []⟩ : Registry).launch key executable .running =
      (.ok sessions.length,
        ⟨sessions ++ [.new (Service.newcomer key)], [(key, sessions.length)]⟩) := by
  rw [launch, Service.start_running]
  rfl

private theorem launch_cases (sessions : List Turns) (key executable : String)
    (attempt : Session.Launch) :
    (∃ fault, (⟨sessions, []⟩ : Registry).launch key executable attempt =
        (.error fault, ⟨sessions, []⟩)) ∨
      (⟨sessions, []⟩ : Registry).launch key executable attempt =
        (.ok sessions.length,
          ⟨sessions ++ [.new (Service.newcomer key)], [(key, sessions.length)]⟩) := by
  cases attempt with
  | running => exact Or.inr (launch_running sessions key executable)
  | missing | garbled | refused | deaf => exact Or.inl ⟨_, rfl⟩

theorem Standing.resolve_cases {registry : Registry} {key : String} (h : registry.Standing key)
    (executable : String) (attempt : Session.Launch) :
    (∃ before last, registry = ⟨before ++ [last], [(key, before.length)]⟩ ∧
        registry.resolve key executable attempt = (.ok before.length, registry)) ∨
      (∃ fault, registry.resolve key executable attempt =
        (.error fault, ⟨registry.sessions, []⟩)) ∨
      registry.resolve key executable attempt =
        (.ok registry.sessions.length,
          ⟨registry.sessions ++ [.new (Service.newcomer key)],
            [(key, registry.sessions.length)]⟩) := by
  rcases h.table with empty | ⟨before, last, rfl⟩
  · obtain ⟨sessions, table⟩ := registry
    obtain rfl : table = [] := empty
    exact Or.inr (launch_cases sessions key executable attempt)
  · have found : (⟨before ++ [last], [(key, before.length)]⟩ : Registry).get? key =
        some before.length := by
      simp [get?]
    have forgotten : (⟨before ++ [last], [(key, before.length)]⟩ : Registry).forget key =
        ⟨before ++ [last], []⟩ := by
      simp [forget]
    simp only [resolve, found, forgotten]
    cases closed : (⟨before ++ [last], [(key, before.length)]⟩ : Registry).isClosed
      before.length with
    | false => exact Or.inl ⟨before, last, rfl, if_neg Bool.false_ne_true⟩
    | true =>
      rw [if_pos rfl]
      exact Or.inr (launch_cases _ key executable attempt)

end Registry

namespace Kernel

variable {Mind : Type}

section Last

variable {kernel : Kernel Mind} {before : List Turns} {last : Turns} {table : List (String × Nat)}

private theorem registry_play (stands : kernel.registry = ⟨before ++ [last], table⟩)
    (acts : List Act) :
    (kernel.play before.length acts).registry = ⟨before ++ [last.react acts], table⟩ := by
  rw [play, stands]
  exact Registry.update_last before last table _

private theorem hand_last (stands : kernel.registry = ⟨before ++ [last], table⟩)
    (host : Host Mind) (chunk : Bytes) :
    ∃ later, (hand host before.length kernel chunk).registry = ⟨before ++ [later], table⟩ ∧
      last.Reaches later ∧ (last.step = none → later.step = none) ∧
      (hand host before.length kernel chunk).begun = kernel.begun := by
  rw [hand]
  cases mind : kernel.minds[before.length]? with
  | none => exact ⟨last, stands, .refl, id, rfl⟩
  | some mind =>
    refine ⟨_, registry_play ?_ _, last.reaches_react _, fun stuck => Turns.step_react stuck _, rfl⟩
    exact stands

private theorem foldl_hand_last (stands : kernel.registry = ⟨before ++ [last], table⟩)
    (host : Host Mind) (chunks : List Bytes) :
    ∃ later,
      (chunks.foldl (hand host before.length) kernel).registry = ⟨before ++ [later], table⟩ ∧
        last.Reaches later ∧ (last.step = none → later.step = none) ∧
        (chunks.foldl (hand host before.length) kernel).begun = kernel.begun := by
  induction chunks generalizing kernel last with
  | nil => exact ⟨last, stands, .refl, id, rfl⟩
  | cons chunk chunks ih =>
    obtain ⟨mid, between, first, calm, same⟩ := hand_last stands host chunk
    obtain ⟨later, reached, others, still, begun⟩ := ih between
    exact ⟨later, reached, first.trans others, still ∘ calm, begun.trans same⟩

private theorem handSince_last (stands : kernel.registry = ⟨before ++ [last], table⟩)
    (host : Host Mind) (count : Nat) :
    ∃ later, (kernel.handSince host before.length count).registry = ⟨before ++ [later], table⟩ ∧
      last.Reaches later ∧ (last.step = none → later.step = none) ∧
      (kernel.handSince host before.length count).begun = kernel.begun :=
  foldl_hand_last stands host _

private theorem outcome?_last (stands : kernel.registry = ⟨before ++ [last], table⟩)
    (ticket : Nat) : kernel.outcome? before.length ticket = last.outcome? ticket := by
  rw [outcome?, stands, Registry.turns?_last, Option.bind_some]

private theorem await_last (stands : kernel.registry = ⟨before ++ [last], table⟩) (ticket : Nat) :
    (kernel.await before.length ticket).2.registry = ⟨before ++ [last.expire], table⟩ ∧
      (kernel.await before.length ticket).1 = last.expire.outcome? ticket ∧
      (kernel.await before.length ticket).2.begun = kernel.begun := by
  have late : (kernel.await before.length ticket).2.registry = ⟨before ++ [last.expire], table⟩ := by
    rw [await, stands]
    exact Registry.update_last before last table Turns.expire
  exact ⟨late, outcome?_last late ticket, rfl⟩

private theorem step_begin (submission : Submission) (turns : Turns)
    (line : (turns.submit submission).2.settle.line = []) :
    (begin submission turns).step = none := by
  have stuck := (turns.submit submission).2.step_settle
  rw [begin]
  split
  · exact Turns.step_expire stuck line
  · exact stuck

/-- A program is run in the last session, which nobody uses. It is written there, or the run fails,
and then nobody uses the session; or it is written, has no limit, and is waited for forever. -/
theorem runProgram_last (stands : kernel.registry = ⟨before ++ [last], table⟩)
    (rest : last.Resting) (host : Host Mind) (submission : Submission)
    (named : submission.sentinel ≠ "") :
    ∃ later,
      (kernel.runProgram host before.length submission).2.registry = ⟨before ++ [later], table⟩ ∧
      later.session.key = last.session.key ∧
      (kernel.runProgram host before.length submission).2.begun = kernel.begun ∧
      (later.session.written = last.session.written ++ [Turns.payload submission.program] ∨
        later.session.written = last.session.written ∧
          ∃ fault, (kernel.runProgram host before.length submission).1 = some (.error fault)) ∧
      (later.Resting ∧ (kernel.runProgram host before.length submission).1.isSome = true ∨
        submission.limit = none ∧ (kernel.runProgram host before.length submission).1 = none ∧
          later.Stalled (Utf8.ofString submission.sentinel)) := by
  obtain ⟨serves, key, written⟩ := Turns.serves_begun rest submission
  have settles := (last.submit submission).2.reaches_settle_of_step
  have begins : ((last.submit submission).2.next .step).Reaches (begin submission last) := by
    rw [begin]
    by_cases instant : submission.limit = some ⟨0, 0⟩
    · rw [if_pos instant]
      exact settles.trans (Turns.reaches_expire _)
    · rw [if_neg instant]
      exact settles
  have begun : { kernel with
      registry := kernel.registry.update before.length (begin submission) }.registry =
        ⟨before ++ [begin submission last], table⟩ := by
    rw [stands]
    exact Registry.update_last before last table (begin submission)
  have known : kernel.registry.turns? before.length = some last := by
    rw [stands, Registry.turns?_last]
  obtain ⟨mid, handed, reacts, calm, same⟩ :=
    handSince_last begun host last.session.written.length
  obtain ⟨reacting, -, -⟩ := serves.reaches (begins.trans reacts)
  have stuck := calm (step_begin submission last (serves.reaches settles).1.line)
  obtain ⟨awaited, said, still⟩ := await_last handed last.nextTicket
  have reached := (begins.trans reacts).trans mid.reaches_expire
  obtain ⟨-, sameKey, sameWritten⟩ := serves.reaches reached
  simp only [runProgram, known]
  refine ⟨mid.expire, awaited, sameKey.trans key, still.trans same, ?_, ?_⟩
  · rcases written with sent | ⟨unsent, failed⟩
    · exact Or.inl (sameWritten.trans sent)
    · have lasting := Turns.outcome?_of_isPrefix reached.outcomes failed
      exact Or.inr ⟨sameWritten.trans unsent, _, said.trans lasting⟩
  · rw [said]
    rcases reacting.expire with ⟨idle, value, found⟩ | ⟨patient, silent⟩
    · exact Or.inl ⟨(reacting.reaches mid.reaches_expire).1.resting idle, by rw [found]; rfl⟩
    · refine Or.inr ⟨patient, silent, ?_⟩
      exact (reacting.reaches mid.reaches_expire).1.stalled named patient silent
        (Turns.step_expire stuck reacting.line)

end Last

/-- What is written for a request, by the number of its evaluation and the files there are then. -/
def sending (host : Host Mind) (settings : Settings) (tree : FileTree) (number : Nat)
    (request : EvaluationRequest) : Bytes :=
  Turns.payload ((host.evaluation tree number request).program settings.previewChars)

/-- The sentinel that ends the output of the evaluation of this number. -/
def completion (host : Host Mind) (number : Nat) : Bytes :=
  Utf8.ofString (Sentinels.generate (host.now number) number).completion

private theorem completion_ne_empty (millis : Int) (number : Nat) :
    (Sentinels.generate millis number).completion ≠ "" := by
  intro empty
  have length := congrArg String.length empty
  simp [Sentinels.generate, Sentinels.ofStamp] at length

section Standing

variable {kernel : Kernel Mind} {key : String}

private theorem spare_reaches {turns later : Turns} (spare : turns.Spare key)
    (reached : turns.Reaches later) :
    later.Spare key ∧ later.session.written = turns.session.written := by
  obtain ⟨rest, own, written⟩ := spare.rest.reaches reached
  refine ⟨⟨rest, own.trans spare.key, ?_⟩, written⟩
  rw [written]
  exact spare.seeded

private theorem standing_resolve (h : kernel.registry.Standing key) (host : Host Mind)
    (settings : Settings) :
    (kernel.resolve host settings key).2.registry.Standing key ∧
      (kernel.resolve host settings key).2.registry.programs = kernel.registry.programs ∧
      (kernel.resolve host settings key).2.begun = kernel.begun ∧
      ∀ number, (kernel.resolve host settings key).1 = .ok number → ∃ before last,
        (kernel.resolve host settings key).2.registry =
          ⟨before ++ [last], [(key, before.length)]⟩ ∧ number = before.length := by
  rcases h.resolve_cases (host.interpreter settings).executable
    (host.launch kernel.tree (host.interpreter settings)).1 with
    ⟨before, last, registry, found⟩ | ⟨fault, failed⟩ | started
  · have known : before.length < kernel.registry.sessions.length := by
      rw [registry]
      simp
    have goes : kernel.resolve host settings key = (.ok before.length, kernel) := by
      simp only [resolve, found, if_pos known]
    rw [goes]
    refine ⟨h, rfl, rfl, ?_⟩
    rintro number ⟨⟩
    exact ⟨before, last, registry, rfl⟩
  · have fails : kernel.resolve host settings key =
        (.error fault, { kernel with registry := ⟨kernel.registry.sessions, []⟩ }) := by
      simp only [resolve, failed]
    rw [fails]
    exact ⟨⟨h.sessions, Or.inl rfl⟩, rfl, rfl, nofun⟩
  -- A new interpreter acts on its preamble before anything is submitted to it.
  · let joined : Kernel Mind :=
      { kernel with
        registry := ⟨kernel.registry.sessions ++ [.new (Service.newcomer key)],
          [(key, kernel.registry.sessions.length)]⟩
        minds := kernel.minds ++ [(host.launch kernel.tree (host.interpreter settings)).2] }
    have starts : kernel.resolve host settings key =
        (.ok kernel.registry.sessions.length,
          joined.handSince host kernel.registry.sessions.length 0) := by
      simp only [resolve, started, if_neg (Nat.lt_irrefl _)]
      rfl
    obtain ⟨later, handed, reached, -, begun⟩ :=
      handSince_last (show joined.registry = ⟨kernel.registry.sessions ++ [_], _⟩ from rfl) host 0
    obtain ⟨spare, written⟩ := spare_reaches (Registry.spare_newcomer key) reached
    rw [starts]
    refine ⟨?_, ?_, begun, ?_⟩
    · rw [handed]
      refine ⟨?_, Or.inr ⟨_, later, rfl⟩⟩
      intro turns member
      rcases List.mem_append.mp member with earlier | new
      · exact h.sessions turns earlier
      · rw [List.mem_singleton.mp new]
        exact spare
    · rw [handed, Registry.programs_last, written]
      exact List.append_nil _
    · rintro number ⟨⟩
      exact ⟨_, later, handed, rfl⟩

private theorem written_sent {turns later : Turns} (spare : turns.Spare key)
    {sent : List Bytes} (written : later.session.written = turns.session.written ++ sent) :
    later.session.written.head? = some Service.preambleBytes ∧
      later.session.written.tail = turns.session.written.tail ++ sent := by
  have some : turns.session.written ≠ [] := by
    intro empty
    have seeded := spare.seeded
    rw [empty] at seeded
    cases seeded
  rw [written, List.head?_append_of_ne_nil _ some, List.tail_append_of_ne_nil some]
  exact ⟨spare.seeded, rfl⟩

/-- The evaluation of a request by its number: it writes the program and has an outcome; or it fails
and has written nothing; or it writes the program, has no limit, and is waited for forever. -/
inductive Evaluates (host : Host Mind) (settings : Settings) (key : String)
    (request : EvaluationRequest) (kernel later : Kernel Mind) :
    Option (Except Fault EvaluationResult) → Prop where
  | ended (tree : FileTree) (outcome : Except Fault EvaluationResult)
      (sent : later.registry.programs =
        kernel.registry.programs ++ [sending host settings tree kernel.begun request])
      (begun : later.begun = kernel.begun + 1) (standing : later.registry.Standing key) :
    Evaluates host settings key request kernel later (some outcome)
  | failed (fault : Fault) (unsent : later.registry.programs = kernel.registry.programs)
      (standing : later.registry.Standing key) :
    Evaluates host settings key request kernel later (some (.error fault))
  | endless (tree : FileTree) (patient : settings.evalLimit = none)
      (sent : later.registry.programs =
        kernel.registry.programs ++ [sending host settings tree kernel.begun request])
      (seeded : ∀ turns ∈ later.registry.sessions, turns.session.key = key ∧
        turns.session.written.head? = some Service.preambleBytes)
      (stalled : ∃ turns, later.registry.sessions.getLast? = some turns ∧
        turns.Stalled (completion host kernel.begun)) :
    Evaluates host settings key request kernel later none

private theorem Evaluates.of_same {host : Host Mind} {settings : Settings}
    {request : EvaluationRequest} {mid later : Kernel Mind}
    {outcome : Option (Except Fault EvaluationResult)}
    (h : Evaluates host settings key request mid later outcome)
    (programs : mid.registry.programs = kernel.registry.programs)
    (begun : mid.begun = kernel.begun) :
    Evaluates host settings key request kernel later outcome := by
  cases h with
  | ended tree outcome sent count standing =>
    rw [programs, begun] at sent
    exact .ended tree outcome sent (begun ▸ count) standing
  | failed fault unsent standing => exact .failed fault (unsent.trans programs) standing
  | endless tree patient sent seeded stalled =>
    rw [programs, begun] at sent
    exact .endless tree patient sent seeded (begun ▸ stalled)

private theorem evaluates_last {mid : Kernel Mind} {before : List Turns} {last : Turns}
    (registry : mid.registry = ⟨before ++ [last], [(key, before.length)]⟩)
    (standing : mid.registry.Standing key) (host : Host Mind) (settings : Settings)
    (request : EvaluationRequest) (tree : FileTree) {later : Kernel Mind}
    {value : Option (Except Fault String)}
    (run : { mid with tree, begun := mid.begun + 1 }.runProgram host before.length
      ((mid.prepare host request).submission settings.previewChars settings.evalLimit) =
        (value, later)) :
    match value with
    | none => Evaluates host settings key request mid later none
    | some value => ∀ kept : FileTree,
      Evaluates host settings key request mid { later with tree := kept }
        (some ((mid.prepare host request).finish ⟨host.artifactDir settings⟩ host.cwd later.tree
          value).1) := by
  have spare : last.Spare key := standing.sessions last (by simp [registry])
  have prepared : { mid with tree, begun := mid.begun + 1 }.registry =
      ⟨before ++ [last], [(key, before.length)]⟩ := registry
  obtain ⟨after, ran, own, begun, written, ended⟩ := runProgram_last prepared spare.rest host
    ((mid.prepare host request).submission settings.previewChars settings.evalLimit)
    (completion_ne_empty _ _)
  rw [run] at ran begun written ended
  dsimp only at ran begun written ended
  have used : ∀ sent, after.session.written = last.session.written ++ sent →
      later.registry.programs = mid.registry.programs ++ sent ∧
        after.session.written.head? = some Service.preambleBytes := by
    intro sent grown
    obtain ⟨seeded, tail⟩ := written_sent spare grown
    rw [ran, registry, Registry.programs_last, Registry.programs_last, tail, List.append_assoc]
    exact ⟨rfl, seeded⟩
  have spared : after.Resting → after.session.written.head? = some Service.preambleBytes →
      later.registry.Standing key := by
    intro rest seeded
    rw [registry] at standing
    rw [ran]
    exact standing.change_last (Or.inr rfl) ⟨rest, own.trans spare.key, seeded⟩
  rcases ended with ⟨rest, done⟩ | ⟨patient, silent, stalled⟩
  · obtain ⟨value, rfl⟩ := Option.isSome_iff_exists.mp done
    intro kept
    rcases written with sent | ⟨unsent, fault, failed⟩
    · obtain ⟨programs, seeded⟩ := used _ sent
      exact .ended mid.tree _ programs begun (spared rest seeded)
    · obtain ⟨programs, seeded⟩ := used [] (by rw [unsent, List.append_nil])
      rw [List.append_nil] at programs
      cases failed
      exact .failed fault programs (spared rest seeded)
  · subst silent
    rcases written with sent | ⟨-, fault, failed⟩
    · obtain ⟨programs, seeded⟩ := used _ sent
      refine .endless mid.tree patient programs ?_ ⟨after, ?_, stalled⟩
      · intro turns member
        rw [ran] at member
        rcases List.mem_append.mp member with earlier | new
        · have kept := standing.sessions turns
            (by rw [registry]; exact List.mem_append_left _ earlier)
          exact ⟨kept.key, kept.seeded⟩
        · rw [List.mem_singleton.mp new]
          exact ⟨own.trans spare.key, seeded⟩
      · rw [ran]
        exact List.getLast?_concat
    · cases failed

/-- An evaluation under a key writes the program of its request, with the markers of its number, and
nothing else. -/
theorem evaluate_standing (h : kernel.registry.Standing key) (host : Host Mind)
    (settings : Settings) (request : EvaluationRequest) :
    Evaluates host settings key request kernel (kernel.evaluate host settings key request).2
      (kernel.evaluate host settings key request).1 := by
  obtain ⟨standing, programs, begun, found⟩ := standing_resolve h host settings
  rcases resolved : kernel.resolve host settings key with ⟨fault | number, mid⟩
  · have fails : kernel.evaluate host settings key request = (some (.error fault), mid) := by
      simp only [evaluate, resolved]
    rw [resolved] at standing programs
    rw [fails]
    exact .failed fault programs standing
  · simp only [resolved] at standing programs begun found
    obtain ⟨before, last, registry, rfl⟩ := found number rfl
    cases made : mid.tree.makeNewDirectory? host.cwd (mid.prepare host request).scratchDir with
    | none =>
      have fails : kernel.evaluate host settings key request =
          (some (.error (.io hostDetail)), mid) := by
        simp only [evaluate, resolved, made]
      rw [fails]
      exact .failed _ programs standing
    | some tree =>
      rcases ran : { mid with tree, begun := mid.begun + 1 }.runProgram host before.length
        ((mid.prepare host request).submission settings.previewChars settings.evalLimit) with
        ⟨_ | value, later⟩
      · have evaluates := evaluates_last registry standing host settings request tree ran
        simp only [evaluate, resolved, made, ran]
        exact evaluates.of_same programs begun
      · have evaluates := evaluates_last registry standing host settings request tree ran
        simp only [evaluate, resolved, made, ran]
        exact (evaluates _).of_same programs begun

end Standing

end Kernel

end NotebookKernel
