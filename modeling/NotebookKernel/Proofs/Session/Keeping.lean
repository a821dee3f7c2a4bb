import Mathlib.Data.List.Nodup
import NotebookKernel.Proofs.Session.Service

/-!
# Which children a registry keeps

When no operation is under way, a child that runs and was not killed belongs to the session that its
key stands for, or else to a session that was over when its key was resolved. Such a session was
forgotten, its child was not killed, and whoever still holds the session keeps the child.
-/

set_option autoImplicit false

namespace NotebookKernel

namespace Registry

variable {registry : Registry} {doomed : List Nat}

theorem isClosed_of_turns? {number : Nat} {turns : Turns}
    (known : registry.turns? number = some turns) :
    registry.isClosed number = turns.session.isClosed := by
  rw [isClosed, known]

/-- A key has one entry, and stands for a session of its own. A session whose child was not killed
has its key, or it is to be killed, or it is over. -/
structure Orderly (registry : Registry) (doomed : List Nat) : Prop where
  distinct : (registry.table.map Prod.fst).Nodup
  keyed : ∀ key number, registry.get? key = some number →
    ∃ turns, registry.turns? number = some turns ∧ turns.session.key = key
  kept : ∀ number turns, registry.turns? number = some turns → turns.session.hasChild = true →
    registry.get? turns.session.key = some number ∨ number ∈ doomed ∨
      turns.session.isClosed = true

theorem orderly_empty : Orderly empty doomed where
  distinct := List.nodup_nil
  keyed _ _ stands := by cases stands
  kept _ _ known := by cases known

private theorem distinct_forget (distinct : (registry.table.map Prod.fst).Nodup) (key : String) :
    ((registry.forget key).table.map Prod.fst).Nodup :=
  distinct.sublist (List.filter_sublist.map Prod.fst)

theorem Orderly.get?_of_mem (h : registry.Orderly doomed) {entry : String × Nat}
    (member : entry ∈ registry.table) : registry.get? entry.1 = some entry.2 := by
  cases found : registry.table.find? fun other => other.1 == entry.1 with
  | none => exact absurd (List.find?_eq_none.mp found entry member) (by simp)
  | some other =>
    have same : other.1 = entry.1 := by simpa using List.find?_some found
    have equal := List.inj_on_of_nodup_map h.distinct (List.mem_of_find?_eq_some found) member same
    rw [get?, found, equal]
    rfl

theorem Orderly.forget {more : List Nat} (h : registry.Orderly doomed) (within : doomed ⊆ more)
    {key : String} (given : ∀ number, registry.get? key = some number →
      number ∈ more ∨ registry.isClosed number = true) : (registry.forget key).Orderly more where
  distinct := distinct_forget h.distinct key
  keyed other number stands := by
    rw [get?_forget] at stands
    by_cases same : other = key
    · rw [if_pos same] at stands
      cases stands
    · rw [if_neg same] at stands
      exact h.keyed other number stands
  kept number turns known child := by
    replace known : registry.turns? number = some turns := known
    rw [get?_forget]
    rcases h.kept number turns known child with stands | listed | closed
    · by_cases same : turns.session.key = key
      · rw [same] at stands
        rcases given number stands with listed | closed
        · exact Or.inr (Or.inl listed)
        · rw [isClosed_of_turns? known] at closed
          exact Or.inr (Or.inr closed)
      · rw [if_neg same]
        exact Or.inl stands
    · exact Or.inr (Or.inl (within listed))
    · exact Or.inr (Or.inr closed)

theorem Orderly.enter {more : List Nat} (h : registry.Orderly doomed) (within : doomed ⊆ more)
    {session : Session}
    (given : ∀ number, registry.get? session.key = some number → number ∈ more) :
    (registry.enter session).2.Orderly more where
  distinct := by
    have fresh : session.key ∉ (registry.forget session.key).table.map Prod.fst := by
      intro member
      obtain ⟨entry, found, same⟩ := List.mem_map.mp member
      exact absurd same (bne_iff_ne.mp (List.mem_filter.mp found).2)
    have longer := (distinct_forget h.distinct session.key).concat fresh
    rw [List.concat_eq_append] at longer
    rw [Registry.enter, List.map_append]
    exact longer
  keyed key number stands := by
    rw [get?_enter] at stands
    by_cases same : key = session.key
    · rw [if_pos same, Option.some.injEq] at stands
      exact ⟨.new session, by rw [turns?_enter, if_pos stands.symm], same.symm⟩
    · rw [if_neg same] at stands
      obtain ⟨turns, known, owns⟩ := h.keyed key number stands
      refine ⟨turns, ?_, owns⟩
      rw [turns?_enter, if_neg (Nat.ne_of_lt (lt_of_turns? known))]
      exact known
  kept number turns known child := by
    rw [get?_enter]
    rw [turns?_enter] at known
    by_cases last : number = registry.sessions.length
    · rw [if_pos last, Option.some.injEq] at known
      rw [← known, last]
      exact Or.inl (if_pos rfl)
    · rw [if_neg last] at known
      rcases h.kept number turns known child with stands | listed | closed
      · by_cases same : turns.session.key = session.key
        · rw [same] at stands
          exact Or.inr (Or.inl (given number stands))
        · rw [if_neg same]
          exact Or.inl stands
      · exact Or.inr (Or.inl (within listed))
      · exact Or.inr (Or.inr closed)

theorem Orderly.clear (h : registry.Orderly doomed) :
    Orderly { registry with table := [] } (registry.table.map Prod.snd ++ doomed) where
  distinct := List.nodup_nil
  keyed _ _ stands := by cases stands
  kept number turns known child := by
    rcases h.kept number turns known child with stands | listed | closed
    · exact Or.inr (Or.inl (List.mem_append_left _ (mem_numbers_of_get? stands)))
    · exact Or.inr (Or.inl (List.mem_append_right _ listed))
    · exact Or.inr (Or.inr closed)

theorem Orderly.update (h : registry.Orderly doomed) (number : Nat) {change : Turns → Turns}
    (key : ∀ turns, (change turns).session.key = turns.session.key)
    (child : ∀ turns, (change turns).session.hasChild = true → turns.session.hasChild = true)
    (closed : ∀ turns, turns.session.isClosed = true → (change turns).session.isClosed = true) :
    (registry.update number change).Orderly doomed where
  distinct := h.distinct
  keyed own other stands := by
    obtain ⟨turns, known, owns⟩ := h.keyed own other stands
    rw [turns?_update, known]
    by_cases same : other = number
    · rw [if_pos same]
      exact ⟨_, rfl, (key turns).trans owns⟩
    · rw [if_neg same]
      exact ⟨turns, rfl, owns⟩
  kept other turns known running := by
    rw [turns?_update] at known
    by_cases same : other = number
    · rw [if_pos same] at known
      obtain ⟨before, earlier, rfl⟩ := Option.map_eq_some_iff.mp known
      rw [key]
      rcases h.kept other before earlier (child before running) with stands | listed | closed'
      · exact Or.inl stands
      · exact Or.inr (Or.inl listed)
      · exact Or.inr (Or.inr (closed before closed'))
    · rw [if_neg same] at known
      exact h.kept other turns known running

theorem Orderly.erase (h : registry.Orderly doomed) {number : Nat}
    (killed : ∀ turns, registry.turns? number = some turns → turns.session.hasChild = false) :
    registry.Orderly (doomed.erase number) where
  distinct := h.distinct
  keyed := h.keyed
  kept other turns known child := by
    rcases h.kept other turns known child with stands | listed | closed
    · exact Or.inl stands
    · by_cases same : other = number
      · rw [same] at known
        rw [killed turns known] at child
        cases child
      · exact Or.inr (Or.inl ((List.mem_erase_of_ne same).mpr listed))
    · exact Or.inr (Or.inr closed)

theorem Orderly.strike (h : registry.Orderly doomed) (number : Nat) :
    (registry.killSession number).Orderly (doomed.erase number) := by
  have killed : (registry.killSession number).Orderly doomed :=
    h.update number (fun _ => rfl) (fun _ child => by cases child) fun _ closed => closed
  refine killed.erase ?_
  intro turns known
  rw [killSession, turns?_update, if_pos rfl] at known
  obtain ⟨before, -, rfl⟩ := Option.map_eq_some_iff.mp known
  rfl

theorem Orderly.happen (h : registry.Orderly doomed) (number : Nat) (event : Happening) :
    (registry.update number fun turns => turns.next event).Orderly doomed := by
  refine h.update number ?_ ?_ fun turns closed => Turns.isClosed_next closed event
  · exact fun turns => (turns.carries_next event).key
  · intro turns child
    rwa [(turns.carries_next event).hasChild] at child

end Registry

namespace Stage

/-- What an interpreter is that is being started for a key, and what it has been given. -/
def Fits (key : String) : Stage → Prop
  | sought => True
  | started session => session.key = key ∧ session.written = []
  | seeded session => session.key = key ∧ session.written = [Service.preambleBytes]

end Stage

namespace Service

/-- A service in order: its registry is, and a key for which an interpreter is being started stands
for no session. -/
structure Sound (service : Service) : Prop where
  orderly : service.registry.Orderly service.doomed
  launching : ∀ key stage, service.launching = some (key, stage) →
    service.registry.get? key = none ∧ stage.Fits key

theorem sound_new : Sound new where
  orderly := Registry.orderly_empty
  launching _ _ under := by cases under

private theorem fits_observe {session : Session} {key : String} {written : List Bytes}
    (fits : session.key = key ∧ session.written = written) (act : Act) :
    (session.observe act).key = key ∧ (session.observe act).written = written := by
  cases act with
  | print chunk => exact fits
  | complain chunk => exact fits
  | close stream => cases stream <;> exact fits

section Moves

variable {service : Service}

private theorem Sound.advance (h : service.Sound) {key : String} {stage later : Stage}
    (under : service.launching = some (key, stage)) (fits : later.Fits key) :
    Sound { service with launching := some (key, later) } := by
  refine ⟨h.orderly, ?_⟩
  rintro _ _ ⟨rfl, rfl⟩
  exact ⟨(h.launching _ _ under).1, fits⟩

theorem sound_next (h : service.Sound) (move : Move) : (service.next move).Sound := by
  have step := service.does_next move
  generalize service.next move = later at step
  cases step with
  | nothing => exact h
  | lend | get | release | exit => exact ⟨h.orderly, h.launching⟩
  | @replace key number free found closed =>
    refine ⟨h.orderly.forget (List.Subset.refl _) ?_, ?_⟩
    · intro other stands
      obtain rfl := Option.some.inj (found.symm.trans stands)
      exact Or.inr closed
    · rintro _ _ ⟨rfl, rfl⟩
      refine ⟨?_, trivial⟩
      exact (service.registry.get?_forget key key).trans (if_pos rfl)
  | seek free missing =>
    refine ⟨h.orderly, ?_⟩
    rintro _ _ ⟨rfl, rfl⟩
    exact ⟨missing, trivial⟩
  | spawn under => exact h.advance under ⟨rfl, rfl⟩
  | stir act under => exact h.advance under (fits_observe (h.launching _ _ under).2 act)
  | stirSeeded act under => exact h.advance under (fits_observe (h.launching _ _ under).2 act)
  | @seed key session under listening =>
    obtain ⟨-, owns, nothing⟩ := h.launching _ _ under
    refine h.advance under ⟨owns, ?_⟩
    show session.written ++ [preambleBytes] = [preambleBytes]
    rw [nothing, List.nil_append]
  | deaf | abandon => exact ⟨h.orderly, fun _ _ under => by cases under⟩
  | @enroll key session under =>
    obtain ⟨missing, owns, -⟩ := h.launching _ _ under
    refine ⟨h.orderly.enter (List.Subset.refl _) ?_, fun _ _ under => by cases under⟩
    intro number stands
    rw [owns, missing] at stands
    cases stands
  | insert session free =>
    refine ⟨h.orderly.enter (List.subset_append_right _ _) ?_, ?_⟩
    · intro number stands
      exact List.mem_append_left _ (Option.mem_toList.mpr stands)
    · intro key stage under
      cases free.symm.trans under
  | @kill key number free found =>
    refine ⟨h.orderly.forget (List.subset_cons_self _ _) ?_, ?_⟩
    · intro other stands
      obtain rfl := Option.some.inj (found.symm.trans stands)
      exact Or.inl List.mem_cons_self
    · intro key stage under
      cases free.symm.trans under
  | killAll free =>
    refine ⟨h.orderly.clear, ?_⟩
    intro key stage under
    cases free.symm.trans under
  | strike listed => exact ⟨h.orderly.strike _, h.launching⟩
  | happen number event => exact ⟨h.orderly.happen number event, h.launching⟩

theorem Sound.foldl (h : service.Sound) (moves : List Move) : (moves.foldl next service).Sound := by
  induction moves generalizing service with
  | nil => exact h
  | cons move moves ih => exact ih (sound_next h move)

end Moves

theorem sound_after (moves : List Move) : (after moves).Sound :=
  sound_new.foldl moves

/-- Somebody refers to a session: the table, a caller, or an operation that is to kill its child. -/
def Reached (service : Service) (number : Nat) : Prop :=
  (∃ key, service.registry.get? key = some number) ∨ number ∈ service.held ∨
    number ∈ service.doomed

/-- A session of a key has a child that runs. It was not killed by anyone, nor by being dropped. -/
structure Live (service : Service) (key : String) (number : Nat) : Prop where
  child : ∃ turns, service.registry.turns? number = some turns ∧ turns.session.key = key ∧
    turns.session.hasChild = true
  running : number ∉ service.exited
  reached : service.Reached number

def Idle (service : Service) : Prop :=
  service.launching = none ∧ service.doomed = []

/-- When no operation is under way, a live child is that of the session its key stands for, or that
of a session which is over and which a caller still holds. -/
private theorem Live.cases {service : Service} {key : String} {number : Nat} (h : service.Sound)
    (idle : service.Idle) (live : service.Live key number) :
    service.registry.get? key = some number ∨
      (service.registry.isClosed number = true ∧ number ∈ service.held) := by
  obtain ⟨turns, known, rfl, child⟩ := live.child
  have none : number ∉ service.doomed := by
    rw [idle.2]
    exact List.not_mem_nil
  rcases h.orderly.kept number turns known child with stands | listed | closed
  · exact Or.inl stands
  · exact absurd listed none
  · rcases live.reached with ⟨other, stands⟩ | kept | listed
    · obtain ⟨same, found, rfl⟩ := h.orderly.keyed other number stands
      obtain rfl := Option.some.inj (known.symm.trans found)
      exact Or.inl stands
    · rw [← Registry.isClosed_of_turns? known] at closed
      exact Or.inr ⟨closed, kept⟩
    · exact absurd listed none

section Reaching

variable {service : Service} {number : Nat} (known : number < service.registry.sessions.length)

include known

private theorem stands_of_next {move : Move} {key : String}
    (stands : (service.next move).registry.get? key = some number) :
    service.registry.get? key = some number := by
  have step := service.does_next move
  generalize service.next move = later at step stands
  -- The table only loses entries, but for the session that joins, whose number is new.
  cases step with
  | @replace other | @kill other =>
    rw [Registry.get?_forget] at stands
    by_cases same : key = other
    · rw [if_pos same] at stands
      cases stands
    · rwa [if_neg same] at stands
  | enroll | insert =>
    rw [Registry.get?_enter] at stands
    split at stands
    · exact absurd (Option.some.inj stands).symm (Nat.ne_of_lt known)
    · exact stands
  | killAll => cases stands
  | _ => exact stands

private theorem held_of_next {move : Move} (kept : number ∈ (service.next move).held) :
    service.Reached number := by
  have step := service.does_next move
  generalize service.next move = later at step kept
  cases step with
  | lend free found =>
    rcases List.mem_cons.mp kept with rfl | kept
    · exact Or.inl ⟨_, found⟩
    · exact Or.inr (Or.inl kept)
  | enroll | insert =>
    rcases List.mem_cons.mp kept with last | kept
    · exact absurd last (Nat.ne_of_lt known)
    · exact Or.inr (Or.inl kept)
  | get key =>
    rcases List.mem_append.mp kept with lent | kept
    · exact Or.inl ⟨key, Option.mem_toList.mp lent⟩
    · exact Or.inr (Or.inl kept)
  | release => exact Or.inr (Or.inl (List.mem_of_mem_erase kept))
  | _ => exact Or.inr (Or.inl kept)

omit known in
private theorem doomed_of_next (h : service.Sound) {move : Move}
    (listed : number ∈ (service.next move).doomed) : service.Reached number := by
  have step := service.does_next move
  generalize service.next move = later at step listed
  cases step with
  | insert session =>
    rcases List.mem_append.mp listed with replaced | listed
    · exact Or.inl ⟨session.key, Option.mem_toList.mp replaced⟩
    · exact Or.inr (Or.inr listed)
  | kill free found =>
    rcases List.mem_cons.mp listed with rfl | listed
    · exact Or.inl ⟨_, found⟩
    · exact Or.inr (Or.inr listed)
  | killAll =>
    rcases List.mem_append.mp listed with taken | listed
    · obtain ⟨entry, member, rfl⟩ := List.mem_map.mp taken
      exact Or.inl ⟨entry.1, h.orderly.get?_of_mem member⟩
    · exact Or.inr (Or.inr listed)
  | strike => exact Or.inr (Or.inr (List.mem_of_mem_erase listed))
  | _ => exact Or.inr (Or.inr listed)

omit known in
private theorem mem_exited_next (move : Move) (exited : number ∈ service.exited) :
    number ∈ (service.next move).exited := by
  have step := service.does_next move
  generalize service.next move = later at step
  cases step with
  | exit other => exact List.mem_cons_of_mem other exited
  | _ => exact exited

theorem reached_of_next (h : service.Sound) {move : Move}
    (reached : (service.next move).Reached number) : service.Reached number := by
  rcases reached with ⟨key, stands⟩ | kept | listed
  · exact Or.inl ⟨key, stands_of_next known stands⟩
  · exact held_of_next known kept
  · exact doomed_of_next h listed

theorem live_of_next (h : service.Sound) {move : Move} {key : String}
    (live : (service.next move).Live key number) : service.Live key number := by
  obtain ⟨turns, was⟩ : ∃ turns, service.registry.turns? number = some turns :=
    ⟨_, List.getElem?_eq_getElem known⟩
  obtain ⟨later, becomes, grown⟩ := grown_next was move
  obtain ⟨same, found, owns, child⟩ := live.child
  obtain rfl := Option.some.inj (becomes.symm.trans found)
  refine ⟨⟨turns, was, grown.key.symm.trans owns, grown.child child⟩, ?_,
    reached_of_next known h live.reached⟩
  exact fun exited => live.running (mem_exited_next move exited)

end Reaching

/-- When no operation is under way, a live child is that of the session its key stands for; any
other is that of a session which is over, and which a caller still holds. So of two live children of
a key one at least has closed its output and goes on all the same; where that does not happen, there
are no two. -/
theorem live_children (moves : List Move) (idle : (after moves).Idle) (key : String) :
    (∀ number, (after moves).Live key number →
      (after moves).registry.get? key = some number ∨
        ((after moves).registry.isClosed number = true ∧ number ∈ (after moves).held)) ∧
    (∀ first second, (after moves).Live key first → (after moves).Live key second →
      first = second ∨
        (first ∈ (after moves).held ∧ (after moves).registry.isClosed first = true) ∨
        (second ∈ (after moves).held ∧ (after moves).registry.isClosed second = true)) ∧
    ((∀ number, (after moves).registry.isClosed number = true → number ∈ (after moves).exited) →
      ∀ first second, (after moves).Live key first → (after moves).Live key second →
        first = second) := by
  have sound := sound_after moves
  refine ⟨fun number live => live.cases sound idle, ?_, ?_⟩
  · intro first second live live'
    rcases live.cases sound idle with stands | ⟨closed, kept⟩
    · rcases live'.cases sound idle with stands' | ⟨closed, kept⟩
      · exact Or.inl (Option.some.inj (stands.symm.trans stands'))
      · exact Or.inr (Or.inr ⟨kept, closed⟩)
    · exact Or.inr (Or.inl ⟨kept, closed⟩)
  · intro exits first second live live'
    have stands : ∀ number, (after moves).Live key number →
        (after moves).registry.get? key = some number := by
      intro number alive
      rcases alive.cases sound idle with stands | ⟨closed, -⟩
      · exact stands
      · exact absurd (exits number closed) alive.running
    exact Option.some.inj ((stands first live).symm.trans (stands second live'))

/-- A caller resolves a key, the child closes its output and goes on, and the key is resolved again.
-/
def outlivedMoves : List Move :=
  Move.resolve "a.md" :: launchMoves .running ++ .happen 0 (.act (.close .output)) ::
    Move.resolve "a.md" :: launchMoves .running

private theorem after_outlivedMoves : after outlivedMoves =
    { registry := ⟨[⟨{ newcomer "a.md" with output := ⟨[], false⟩ }, none, [], [], 0⟩,
        .new (newcomer "a.md")], [("a.md", 1)]⟩
      launching := none
      doomed := []
      held := [1, 0]
      exited := []
      launched := [1, 0] } := by
  simp [after, outlivedMoves, launchMoves, next, new, resolve, Registry.get?, Registry.empty,
    seed_eq, enroll, Registry.enter, Registry.forget, Registry.isClosed, Registry.turns?,
    Registry.update, Turns.next, Turns.observe, Session.observe, Session.isClosed, Channel.close,
    Turns.new, newcomer, Session.attach, Channel.new]

private theorem live_outlivedMoves : (after outlivedMoves).Idle ∧
    (after outlivedMoves).Live "a.md" 0 ∧ (after outlivedMoves).Live "a.md" 1 := by
  rw [after_outlivedMoves]
  refine ⟨⟨rfl, rfl⟩, ⟨⟨_, rfl, rfl, rfl⟩, List.not_mem_nil, ?_⟩,
    ⟨⟨_, rfl, rfl, rfl⟩, List.not_mem_nil, ?_⟩⟩
  · exact Or.inr (Or.inl (by decide))
  · exact Or.inl ⟨"a.md", rfl⟩

theorem live_children_outlived : (after outlivedMoves).Idle ∧
    ((0 ∈ (after outlivedMoves).held ∧ (after outlivedMoves).registry.isClosed 0 = true) ∨
      (1 ∈ (after outlivedMoves).held ∧ (after outlivedMoves).registry.isClosed 1 = true)) := by
  obtain ⟨idle, first, second⟩ := live_outlivedMoves
  obtain ⟨-, apart, -⟩ := live_children outlivedMoves idle "a.md"
  rcases apart 0 1 first second with same | outlived
  · cases same
  · exact ⟨idle, outlived⟩

theorem live_twice : ¬ ∀ moves : List Move, (after moves).Idle →
    ∀ key first second, (after moves).Live key first → (after moves).Live key second →
      first = second := by
  intro alone
  obtain ⟨idle, first, second⟩ := live_outlivedMoves
  exact absurd (alone outlivedMoves idle "a.md" 0 1 first second) (by decide)

end Service

end NotebookKernel
