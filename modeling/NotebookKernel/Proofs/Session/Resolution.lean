import NotebookKernel.Proofs.Session.Keeping

/-!
# What callers can rely on when they resolve a key

A session that was handed out for a key is handed out for it again, and no interpreter is started
for the key, as long as nobody displaces the session and its output is open. An interpreter that a
resolve starts is given the preamble before anything else and only once; it joins the registry when
that was written, or not at all.
-/

set_option autoImplicit false

namespace NotebookKernel

namespace Move

/-- Takes the key from its session. -/
def Displaces (key : String) : Move → Prop
  | kill other => other = key
  | killAll => True
  | insert session => session.key = key
  | _ => False

end Move

namespace Service

theorem after_snoc (moves : List Move) (move : Move) :
    after (moves ++ [move]) = (after moves).next move :=
  List.foldl_append

/-- A resolve answers when it finds a session that is not over, or when the one that it has started
joins. -/
theorem answers_cases {service : Service} {move : Move} {key : String} {number : Nat}
    (answered : (key, number) ∈ service.answers move) :
    (move = .resolve key ∧ service.launching = none ∧ service.registry.get? key = some number ∧
      service.registry.isClosed number = false) ∨
    (move = .enroll ∧ number = service.registry.sessions.length ∧
      ∃ session, service.launching = some (key, .seeded session)) := by
  unfold answers at answered
  split at answered
  · next other free =>
    cases found : service.registry.get? other with
    | none => simp [found] at answered
    | some m =>
      cases closed : service.registry.isClosed m with
      | true => simp [found, closed] at answered
      | false =>
        simp only [found, closed, Bool.false_eq_true, if_false, List.mem_singleton,
          Prod.mk.injEq] at answered
        obtain ⟨rfl, rfl⟩ := answered
        exact Or.inl ⟨rfl, free, found, closed⟩
  · next other session under =>
    rw [List.mem_singleton, Prod.mk.injEq] at answered
    obtain ⟨rfl, rfl⟩ := answered
    exact Or.inr ⟨rfl, rfl, session, under⟩
  · cases answered

theorem spawned_cases {service : Service} {move : Move} {key : String}
    (started : key ∈ service.spawned move) :
    move = .spawn ∧ service.launching = some (key, .sought) := by
  unfold spawned at started
  split at started
  · next other under =>
    obtain rfl := List.mem_singleton.mp started
    exact ⟨rfl, under⟩
  · cases started

section Steadiness

variable {service : Service} {key : String} {number : Nat}

theorem isClosed_foldl {turns : Turns} (known : service.registry.turns? number = some turns)
    (closed : service.registry.isClosed number = true) (moves : List Move) :
    (moves.foldl next service).registry.isClosed number = true := by
  induction moves generalizing service turns with
  | nil => exact closed
  | cons move moves ih =>
    obtain ⟨later, becomes, grown⟩ := grown_next known move
    rw [Registry.isClosed_of_turns? known] at closed
    exact ih becomes ((Registry.isClosed_of_turns? becomes).trans (grown.closed closed))

theorem get?_next (found : service.registry.get? key = some number) (h : service.Sound) {move : Move}
    (stays : ¬ move.Displaces key)
    (opened : (service.next move).registry.isClosed number = false) :
    (service.next move).registry.get? key = some number := by
  have step := service.does_next move
  generalize service.next move = later at step opened
  cases step with
  | @replace other gone free stood closed =>
    rw [Registry.get?_forget]
    by_cases same : key = other
    · -- A resolve forgets no session but one that is over.
      rw [same, stood, Option.some.injEq] at found
      rw [← found] at opened
      exact absurd closed (ne_true_of_eq_false opened)
    · rw [if_neg same]
      exact found
  | @enroll other session under =>
    obtain ⟨missing, owns, -⟩ := h.launching _ _ under
    rw [Registry.get?_enter]
    by_cases same : key = session.key
    · rw [same, owns, missing] at found
      cases found
    · rw [if_neg same]
      exact found
  | insert session =>
    rw [Registry.get?_enter, if_neg fun same => stays same.symm]
    exact found
  | @kill other =>
    rw [Registry.get?_forget, if_neg fun same => stays same.symm]
    exact found
  | killAll => exact absurd trivial stays
  | _ => exact found

theorem launching_ne (found : service.registry.get? key = some number) (h : service.Sound)
    (stage : Stage) : service.launching ≠ some (key, stage) := by
  intro under
  rw [(h.launching key stage under).1] at found
  cases found

theorem eq_of_answered (found : service.registry.get? key = some number) (h : service.Sound)
    {move : Move} {other : Nat} (answered : (key, other) ∈ service.answers move) :
    other = number := by
  rcases answers_cases answered with ⟨-, -, stands, -⟩ | ⟨-, -, session, under⟩
  · exact Option.some.inj (stands.symm.trans found)
  · exact absurd under (launching_ne found h _)

theorem notMem_spawned (found : service.registry.get? key = some number) (h : service.Sound)
    (move : Move) : key ∉ service.spawned move := by
  intro started
  exact launching_ne found h .sought (spawned_cases started).2

theorem get?_of_answered (h : service.Sound) {move : Move}
    (answered : (key, number) ∈ service.answers move) :
    (service.next move).registry.get? key = some number := by
  rcases answers_cases answered with ⟨rfl, free, found, opened⟩ | ⟨rfl, rfl, session, under⟩
  · simp [next_resolve free, resolve, found, opened]
  · obtain ⟨-, owns, -⟩ := h.launching _ _ under
    rw [next_enroll under]
    exact (service.registry.get?_enter key session).trans (if_pos owns.symm)

/-- From some point on, a key keeps its session: it is what every resolve of the key returns, and no
interpreter is started for the key. -/
structure Keeps (service : Service) (key : String) (number : Nat) (moves : List Move) : Prop where
  answers : ∀ answer ∈ Run.noted next answers service moves, answer.1 = key → answer.2 = number
  spawned : key ∉ Run.noted next spawned service moves
  found : (moves.foldl next service).registry.get? key = some number

theorem keeps_of_open (found : service.registry.get? key = some number) (h : service.Sound)
    {moves : List Move} (stays : ∀ move ∈ moves, ¬ move.Displaces key)
    (opened : (moves.foldl next service).registry.isClosed number = false) :
    service.Keeps key number moves := by
  induction moves generalizing service with
  | nil => exact ⟨nofun, List.not_mem_nil, found⟩
  | cons move moves ih =>
    -- What is open at the end was open before, for an output that has ended stays so.
    have openedNext : (service.next move).registry.isClosed number = false := by
      obtain ⟨turns, known, -⟩ := h.orderly.keyed key number found
      obtain ⟨later, becomes, -⟩ := grown_next known move
      refine Bool.eq_false_iff.mpr fun closed => ?_
      have ended := isClosed_foldl becomes closed moves
      rw [List.foldl_cons] at opened
      rw [opened] at ended
      cases ended
    have still := get?_next found h (stays move List.mem_cons_self) openedNext
    have rest := ih still (sound_next h move) (fun m hm => stays m (List.mem_cons_of_mem _ hm)) opened
    refine ⟨?_, ?_, rest.found⟩
    · intro answer noted own
      rcases List.mem_append.mp noted with now | later
      · obtain rfl := own
        exact eq_of_answered found h now
      · exact rest.answers answer later own
    · intro noted
      rcases List.mem_append.mp noted with now | later
      · exact notMem_spawned found h move now
      · exact rest.spawned later

end Steadiness

/-- Every interpreter that a resolve starts joins the registry, is given up, or is under way. Those
that have joined were given the preamble and then the programs that were handed to them; the others
were given the preamble or nothing. -/
structure Seeded (moves : List Move) : Prop where
  counted : (Run.noted next spawned new moves).length =
    (after moves).launched.length + (Run.noted next givenUp new moves).length +
      (after moves).underway.length
  launched : ∀ number ∈ (after moves).launched, ∃ turns,
    (after moves).registry.turns? number = some turns ∧
      turns.session.written = preambleBytes :: Run.noted next (sentTo number) new moves
  rest : ∀ session ∈ Run.noted next givenUp new moves ++ (after moves).underway,
    session.written = [] ∨ session.written = [preambleBytes]
  /-- What is to join was given the preamble; until then, its key stands for nothing. -/
  joining : ∀ key session, (after moves).launching = some (key, .seeded session) →
    session.written = [preambleBytes] ∧ (after moves).registry.get? key = none

private theorem counted_next (service : Service) (move : Move) :
    (service.spawned move).length + service.launched.length + service.underway.length =
      (service.next move).launched.length + (service.givenUp move).length +
        (service.next move).underway.length := by
  have step := service.does_next move
  generalize service.next move = later at step
  cases step with
  | nothing quiet =>
    rw [quiet.spawned, quiet.givenUp]
    simp
  | spawn under =>
    simp [spawned, givenUp, underway, under]
    omega
  | seed under listening => simp [spawned, givenUp, underway, under, listening]
  | deaf under deaf => simp [spawned, givenUp, underway, under, deaf]
  | stir act under | stirSeeded act under => simp [spawned, givenUp, underway, under]
  | enroll under => simp [spawned, givenUp, underway, under]
  | abandon under => simp [spawned, givenUp, underway, under]
  | replace free | seek free => simp [spawned, givenUp, underway, free]
  | _ => simp [spawned, givenUp, underway, killAll]

private theorem written_underway {service : Service} (h : service.Sound) {session : Session}
    (member : session ∈ service.underway) :
    session.written = [] ∨ session.written = [preambleBytes] := by
  rcases under : service.launching with - | ⟨key, - | other | other⟩
  · simp [underway, under] at member
  · simp [underway, under] at member
  · obtain rfl : session = other := by simpa [underway, under] using member
    exact Or.inl (h.launching _ _ under).2.2
  · obtain rfl : session = other := by simpa [underway, under] using member
    exact Or.inr (h.launching _ _ under).2.2

private theorem mem_underway_of_givenUp {service : Service} {move : Move} {session : Session}
    (member : session ∈ service.givenUp move) : session ∈ service.underway := by
  unfold givenUp at member
  split at member
  · next key other under =>
    split at member
    · cases member
    · simpa [underway, under] using member
  · exact member
  · cases member

private theorem noted_sentTo_of_unknown {moves : List Move} {number : Nat}
    (unknown : (after moves).registry.turns? number = none) :
    Run.noted next (sentTo number) new moves = [] := by
  induction moves using List.reverseRecOn with
  | nil => rfl
  | append_singleton moves move ih =>
    rw [after_snoc] at unknown
    have before : (after moves).registry.turns? number = none := by
      cases known : (after moves).registry.turns? number with
      | none => rfl
      | some turns =>
        obtain ⟨later, becomes, -⟩ := grown_next known move
        rw [unknown] at becomes
        cases becomes
    have silent : (after moves).sentTo number move = [] := by
      cases move with
      | happen other event => simp [sentTo, before]
      | _ => rfl
    rw [Run.noted_append, ih before, Run.noted_singleton]
    exact silent

private theorem launched_cases {service : Service} {move : Move} {number : Nat}
    (member : number ∈ (service.next move).launched) :
    number ∈ service.launched ∨
      (move = .enroll ∧ number = service.registry.sessions.length ∧
        ∃ key session, service.launching = some (key, .seeded session) ∧
          (service.next move).registry = (service.registry.enter session).2) := by
  have step := service.does_next move
  generalize service.next move = later at step member
  cases step with
  | @enroll key session under =>
    rcases List.mem_cons.mp member with last | earlier
    · exact Or.inr ⟨rfl, last, key, session, under, rfl⟩
    · exact Or.inl earlier
  | _ => exact Or.inl member

/-- A session that was started by a resolve has been given the preamble and then its programs. -/
private theorem written_launched (moves : List Move) :
    ∀ number ∈ (after moves).launched, ∃ turns,
      (after moves).registry.turns? number = some turns ∧
        turns.session.written = preambleBytes :: Run.noted next (sentTo number) new moves := by
  induction moves using List.reverseRecOn with
  | nil => exact nofun
  | append_singleton moves move ih =>
    intro number member
    rw [after_snoc] at member ⊢
    have noted : Run.noted next (sentTo number) new (moves ++ [move]) =
        Run.noted next (sentTo number) new moves ++ (after moves).sentTo number move := by
      rw [Run.noted_append, Run.noted_singleton]
      rfl
    rw [noted]
    -- A session has the preamble when it joins; from then on it gets what is sent to it.
    rcases launched_cases member with earlier | ⟨rfl, rfl, key, session, under, entered⟩
    · obtain ⟨turns, known, written⟩ := ih number earlier
      obtain ⟨later, becomes, grown⟩ := grown_next known move
      exact ⟨later, becomes, by rw [grown.written, written, List.cons_append]⟩
    · have unknown : (after moves).registry.turns? (after moves).registry.sessions.length = none :=
        List.getElem?_eq_none (Nat.le_refl _)
      rw [noted_sentTo_of_unknown unknown, entered]
      refine ⟨.new session, ?_, ((sound_after moves).launching _ _ under).2.2⟩
      exact (Registry.turns?_enter _ session _).trans (if_pos rfl)

private theorem counted_after (moves : List Move) :
    (Run.noted next spawned new moves).length =
      (after moves).launched.length + (Run.noted next givenUp new moves).length +
        (after moves).underway.length := by
  induction moves using List.reverseRecOn with
  | nil => rfl
  | append_singleton moves move ih =>
    have counted := counted_next (after moves) move
    simp only [Run.noted_append, Run.noted_singleton, List.length_append, after_snoc]
    rw [after] at ih counted ⊢
    omega

private theorem written_givenUp (moves : List Move) :
    ∀ session ∈ Run.noted next givenUp new moves,
      session.written = [] ∨ session.written = [preambleBytes] := by
  induction moves using List.reverseRecOn with
  | nil => exact nofun
  | append_singleton moves move ih =>
    intro session member
    rw [Run.noted_append, Run.noted_singleton] at member
    rcases List.mem_append.mp member with earlier | now
    · exact ih session earlier
    · exact written_underway (sound_after moves) (mem_underway_of_givenUp now)

private theorem seeded_after (moves : List Move) : Seeded moves where
  counted := counted_after moves
  launched := written_launched moves
  rest session member := by
    rcases List.mem_append.mp member with given | going
    · exact written_givenUp moves session given
    · exact written_underway (sound_after moves) going
  joining key session under := by
    obtain ⟨missing, -, written⟩ := (sound_after moves).launching key _ under
    exact ⟨written, missing⟩

/-- A resolve of a key returns a session at once; but that its caller holds the session from then
on, nothing changes. -/
structure Again (service : Service) (key : String) (number : Nat) : Prop where
  answers : service.answers (.resolve key) = [(key, number)]
  next : service.next (.resolve key) = { service with held := number :: service.held }

/-- A session that a resolve has returned is what later resolves of the key return, and no
interpreter is started for the key, until the session is displaced or over. -/
def Steady (moves : List Move) : Prop :=
  ∀ before first later, moves = before ++ first :: later →
    ∀ key number, (key, number) ∈ (after before).answers first →
      (∀ move ∈ later, ¬ move.Displaces key) →
      (after moves).registry.isClosed number = false →
      (after (before ++ [first])).Keeps key number later ∧
        ((after moves).launching = none → (after moves).Again key number)

private theorem again_of_open {service : Service} {key : String} {number : Nat}
    (found : service.registry.get? key = some number)
    (opened : service.registry.isClosed number = false) (free : service.launching = none) :
    service.Again key number := by
  refine ⟨?_, ?_⟩
  · simp [answers, free, found, opened]
  · simp [next_resolve free, resolve, found, opened]

/-- Whatever the callers and the children do, and in whatever order, a key keeps its session, and
each interpreter gets the preamble first, once, and before it joins. -/
theorem steady_and_seeded (moves : List Move) : Steady moves ∧ Seeded moves := by
  refine ⟨?_, seeded_after moves⟩
  rintro before first later rfl key number answered stays opened
  have split : after (before ++ first :: later) =
      later.foldl next ((after before).next first) := by
    rw [after, List.foldl_append, List.foldl_cons]
    rfl
  have found := get?_of_answered (sound_after before) answered
  rw [split] at opened ⊢
  rw [after_snoc]
  have keeps := keeps_of_open found (sound_next (sound_after before) first) stays opened
  exact ⟨keeps, again_of_open keeps.found opened⟩

/-- Two keys, the second of which is given up while its interpreter is started. -/
def twoKeys : List Move :=
  Move.resolve "a.md" :: launchMoves .running ++ [.resolve "b.md", .spawn, .abandon]

theorem again_twoKeys : (after twoKeys).Again "a.md" 0 ∧ Seeded twoKeys := by
  have seeding : after [.resolve "a.md", .spawn, .seed] =
      { new with launching := some ("a.md", .seeded (newcomer "a.md")) } := by
    simp [after, new, next, resolve, Registry.get?, Registry.empty, seed_eq, Session.attach,
      newcomer]
  have answered : ("a.md", 0) ∈ (after [.resolve "a.md", .spawn, .seed]).answers .enroll := by
    rw [seeding]
    exact List.mem_singleton.mpr rfl
  have finish : after twoKeys =
      { registry := ⟨[.new (newcomer "a.md")], [("a.md", 0)]⟩
        launching := none
        doomed := []
        held := [0]
        exited := []
        launched := [0] } := by
    simp [after, twoKeys, launchMoves, new, next, resolve, Registry.get?, Registry.empty, seed_eq,
      Session.attach, enroll, Registry.enter, Registry.forget, newcomer]
  obtain ⟨steady, seeded⟩ := steady_and_seeded twoKeys
  obtain ⟨-, again⟩ := steady [.resolve "a.md", .spawn, .seed] .enroll
    [.resolve "b.md", .spawn, .abandon] rfl "a.md" 0 answered (by simp [Move.Displaces])
    (by rw [finish]; rfl)
  exact ⟨again (by rw [finish]), seeded⟩

end Service

end NotebookKernel
