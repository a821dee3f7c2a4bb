import NotebookKernel.Proofs.Session.Service

/-!
# What a failed resolve leaves

A resolve that has to start an interpreter keeps the lock from the look-up of its key until the
interpreter has joined or the start has failed. When it fails, the table has lost the entry of its
key, if there was one, and no other entry. What is lost belonged to a session that was over.
-/

set_option autoImplicit false

namespace NotebookKernel

namespace Registry

variable {registry : Registry} {key : String}

/-- A key stands for no session that is not over, so that a resolve of it has to start one. -/
def Lapsed (registry : Registry) (key : String) : Prop :=
  ∀ number, registry.get? key = some number → registry.isClosed number = true

/-- The registry that a failed resolve of a key leaves, beside the one that it found. -/
structure Lost (key : String) (before left : Registry) : Prop where
  table : left.table = before.table.filter fun entry => entry.1 != key
  own : left.get? key = none
  others : ∀ other, other ≠ key → left.get? other = before.get? other
  lapsed : before.Lapsed key

theorem Lost.of_table {before left : Registry} (lapsed : before.Lapsed key)
    (table : left.table = (before.forget key).table) : Lost key before left := by
  have found : ∀ other, left.get? other = (before.forget key).get? other := by
    intro other
    rw [get?, table, ← get?]
  refine ⟨table, ?_, ?_, lapsed⟩
  · rw [found, get?_forget, if_pos rfl]
  · intro other apart
    rw [found, get?_forget, if_neg apart]

theorem forget_of_missing (missing : registry.get? key = none) : registry.forget key = registry := by
  rw [get?, Option.map_eq_none_iff, List.find?_eq_none] at missing
  have kept : (registry.table.filter fun entry => entry.1 != key) = registry.table := by
    rw [List.filter_eq_self]
    intro entry member
    have apart := missing entry member
    simpa using apart
  rw [forget, kept]

private theorem launch_of_failing {attempt : Session.Launch} (failing : attempt ≠ .running)
    (registry : Registry) (key executable : String) :
    ∃ fault, registry.launch key executable attempt = (.error fault, registry) := by
  cases attempt with
  | running => exact absurd rfl failing
  | missing | garbled | refused | deaf => exact ⟨_, rfl⟩

private theorem exists_launched (registry : Registry) (key executable : String) :
    ∃ number, (registry.launch key executable .running).1 = .ok number := by
  rw [launch, Service.start_running]
  exact ⟨_, rfl⟩

theorem resolve_of_lapsed (lapsed : registry.Lapsed key) (executable : String)
    (attempt : Session.Launch) :
    registry.resolve key executable attempt =
      (registry.forget key).launch key executable attempt := by
  rw [resolve]
  cases found : registry.get? key with
  | none => rw [forget_of_missing found]
  | some number => exact if_pos (lapsed number found)

/-- A resolve fails when its key stands for no session that goes on and the interpreter that it
starts does not come to run. -/
theorem resolve_fails_iff (executable : String) (attempt : Session.Launch) :
    (∃ fault, (registry.resolve key executable attempt).1 = .error fault) ↔
      registry.Lapsed key ∧ attempt ≠ .running := by
  constructor
  · rintro ⟨fault, failed⟩
    have lapsed : registry.Lapsed key := by
      intro number found
      by_contra opened
      simp [resolve, found, opened] at failed
    refine ⟨lapsed, ?_⟩
    rintro rfl
    obtain ⟨number, started⟩ := exists_launched (registry.forget key) key executable
    rw [resolve_of_lapsed lapsed, started] at failed
    cases failed
  · rintro ⟨lapsed, failing⟩
    obtain ⟨fault, failed⟩ := launch_of_failing failing (registry.forget key) key executable
    exact ⟨fault, by rw [resolve_of_lapsed lapsed, failed]⟩

theorem lost_of_failing (lapsed : registry.Lapsed key) (executable : String)
    {attempt : Session.Launch} (failing : attempt ≠ .running) :
    Lost key registry (registry.resolve key executable attempt).2 := by
  obtain ⟨fault, failed⟩ := launch_of_failing failing (registry.forget key) key executable
  rw [resolve_of_lapsed lapsed, failed]
  exact .of_table lapsed rfl

end Registry

namespace Service

/-- The moves by which a resolve fails whose key is looked up in front of them: it has the lock
until the last of them, and nobody is given a session. -/
structure Fails (service : Service) (key : String) (moves : List Move) : Prop where
  free : service.launching = none
  locked : ∀ n < moves.length, ((moves.take n).foldl next (service.resolve key)).launching ≠ none
  ended : (moves.foldl next (service.resolve key)).launching = none
  unanswered : Run.noted next answers service (Move.resolve key :: moves) = []

/-- While a resolve has the lock, the table is changed by nothing but the interpreter that joins. -/
private theorem table_next {service : Service} {move : Move} (locked : service.launching ≠ none)
    (unanswered : service.answers move = []) :
    (service.next move).registry.table = service.registry.table := by
  have step := service.does_next move
  generalize service.next move = later at step
  cases step with
  | lend free | replace free | seek free | insert _ free | kill free | killAll free | get _ free =>
    exact absurd free locked
  | @enroll key session under =>
    simp [answers, under] at unanswered
  | _ => rfl

private theorem table_foldl {service : Service} {moves : List Move}
    (locked : ∀ n < moves.length, ((moves.take n).foldl next service).launching ≠ none)
    (unanswered : Run.noted next answers service moves = []) :
    (moves.foldl next service).registry.table = service.registry.table := by
  induction moves generalizing service with
  | nil => rfl
  | cons move moves ih =>
    obtain ⟨now, rest⟩ := List.append_eq_nil_iff.mp unanswered
    have held : service.launching ≠ none := locked 0 (Nat.succ_pos _)
    have later : (moves.foldl next (service.next move)).registry.table =
        (service.next move).registry.table := by
      refine ih ?_ rest
      intro n within
      exact locked (n + 1) (Nat.succ_lt_succ within)
    rw [List.foldl_cons, later, table_next held now]

private theorem Fails.resolve {service : Service} {key : String} {moves : List Move}
    (failed : service.Fails key moves) :
    service.registry.Lapsed key ∧
      (service.resolve key).registry.table = (service.registry.forget key).table := by
  rcases service.resolve_cases key with ⟨number, found, opened, -⟩ |
    ⟨number, found, closed, starts⟩ | ⟨missing, starts⟩
  · -- A session that goes on would have been handed out.
    have answered := failed.unanswered
    simp [Run.noted, answers, failed.free, found, opened] at answered
  · rw [starts]
    refine ⟨?_, rfl⟩
    intro other stands
    obtain rfl := Option.some.inj (found.symm.trans stands)
    exact closed
  · rw [starts, Registry.forget_of_missing missing]
    refine ⟨?_, rfl⟩
    intro other stands
    rw [missing] at stands
    cases stands

/-- Whatever else happens while an interpreter is started, and however its start fails, the table
has lost the entry of the key and is as it was in everything else. It is as it was altogether when
the key stood for no session; the session of an entry that is lost was over. The same is left by
every attempt that fails undisturbed. -/
theorem lost_of_failed {moves later : List Move} {key : String}
    (failed : (after moves).Fails key later) :
    Registry.Lost key (after moves).registry
        (after (moves ++ Move.resolve key :: later)).registry ∧
      ((after moves).registry.get? key = none →
        (after (moves ++ Move.resolve key :: later)).registry.table =
          (after moves).registry.table) ∧
      ∀ executable attempt,
        ((∃ fault, ((after moves).registry.resolve key executable attempt).1 = .error fault) ↔
          attempt ≠ .running) ∧
        (attempt ≠ .running → Registry.Lost key (after moves).registry
          ((after moves).registry.resolve key executable attempt).2) := by
  obtain ⟨lapsed, forgotten⟩ := failed.resolve
  have run : after (moves ++ Move.resolve key :: later) =
      later.foldl next ((after moves).resolve key) := by
    rw [after, List.foldl_append, List.foldl_cons]
    exact congrArg (later.foldl next) (next_resolve failed.free key)
  have rest : Run.noted next answers ((after moves).resolve key) later = [] := by
    have all := failed.unanswered
    rw [Run.noted, next_resolve failed.free] at all
    exact (List.append_eq_nil_iff.mp all).2
  have table : (after (moves ++ Move.resolve key :: later)).registry.table =
      ((after moves).registry.forget key).table := by
    rw [run, table_foldl failed.locked rest, forgotten]
  refine ⟨.of_table lapsed table, ?_, ?_⟩
  · intro missing
    rw [table, Registry.forget_of_missing missing]
  · intro executable attempt
    refine ⟨?_, Registry.lost_of_failing lapsed executable⟩
    rw [Registry.resolve_fails_iff]
    exact and_iff_right lapsed

def lapsedMoves : List Move :=
  [.insert (.attach "a.md" false), .insert (.attach "b.md" false),
    .happen 0 (.act (.close .output))]

/-- The interpreter closes its input before it is given the preamble, and meanwhile the other
session prints something. -/
def deafMoves : List Move :=
  [.spawn, .happen 1 (.act (.print [0x31])), .stir (.close .input), .seed]

theorem lost_of_failed_deaf :
    (after lapsedMoves).Fails "a.md" deafMoves ∧
      (after lapsedMoves).registry.get? "a.md" = some 0 ∧
      Registry.Lost "a.md" (after lapsedMoves).registry
        (after (lapsedMoves ++ Move.resolve "a.md" :: deafMoves)).registry := by
  have failed : (after lapsedMoves).Fails "a.md" deafMoves := by
    have sought : (after lapsedMoves).resolve "a.md" =
        { after lapsedMoves with
          registry := (after lapsedMoves).registry.forget "a.md"
          launching := some ("a.md", .sought) } := rfl
    have free : (after lapsedMoves).launching = none := rfl
    have silent : (after lapsedMoves).answers (.resolve "a.md") = [] := rfl
    refine ⟨free, ?_, ?_, ?_⟩
    · intro n within
      rw [sought]
      match n, within with
      | 0, _ | 1, _ | 2, _ | 3, _ => simp [deafMoves, next]
    · simp [sought, deafMoves, next, seed_eq, Session.observe]
    · rw [Run.noted, silent, next_resolve free, sought]
      simp [Run.noted, deafMoves, answers]
  exact ⟨failed, rfl, (lost_of_failed failed).1⟩

/-- A session that is over loses its key when no other one can be started for it. -/
theorem table_changes_of_failed : ¬ ∀ (moves : List Move) (key executable : String)
    (attempt : Session.Launch) (fault : Fault),
    ((after moves).registry.resolve key executable attempt).1 = .error fault →
      ∀ other, ((after moves).registry.resolve key executable attempt).2.get? other =
        (after moves).registry.get? other := by
  intro unchanged
  have same := unchanged lapsedMoves "a.md" "/nonexistent/R" .missing _ rfl "a.md"
  cases same

end Service

end NotebookKernel
