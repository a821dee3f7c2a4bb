import NotebookKernel.Proofs.Session.Registration

/-!
# A registry in service

Any number of callers use one registry. Its lock is held while a table entry is looked up or
changed, and all along while an interpreter is started; a child is killed after the lock was given
back. The operations are therefore taken apart into moves, between which anything else may happen:
other callers' moves, programs that are run, and what the children do. A caller may keep a session
as long as it likes; the child of one that nobody refers to any more is killed.
-/

set_option autoImplicit false

namespace NotebookKernel

/-- How far a resolve has got that starts an interpreter. -/
inductive Stage where
  | sought
  | started (session : Session)
  /-- The preamble has been written. -/
  | seeded (session : Session)
deriving DecidableEq, Repr

/-- A registry with what goes on around it. -/
structure Service where
  registry : Registry
  /-- The resolve that has the lock, by its key. -/
  launching : Option (String × Stage)
  /-- Sessions that were taken out, whose children are still to be killed. -/
  doomed : List Nat
  /-- The sessions that callers hold, each as often as it is held. -/
  held : List Nat
  /-- The sessions whose children have exited. -/
  exited : List Nat
  /-- The sessions that were started by a resolve. -/
  launched : List Nat

/-- What happens to a registry in service. -/
inductive Move where
  /-- A caller resolves a key, up to where an interpreter has to be started. -/
  | resolve (key : String)
  | spawn
  /-- The interpreter that is being started acts. -/
  | stir (act : Act)
  /-- The preamble is written to it. -/
  | seed
  /-- It joins the registry. -/
  | enroll
  /-- The start fails, or its caller gives up. -/
  | abandon
  | insert (session : Session)
  | kill (key : String)
  | killAll
  | get (key : String)
  /-- The child of a session that was taken out is killed. -/
  | strike (number : Nat)
  /-- A caller lets go of a session. -/
  | release (number : Nat)
  /-- Something happens to a session. -/
  | happen (number : Nat) (event : Happening)
  /-- The child of a session exits. -/
  | exit (number : Nat)
deriving DecidableEq, Repr

namespace Service

def new : Service :=
  ⟨.empty, none, [], [], [], []⟩

/-- A key is looked up to be resolved: its session is handed out, or the lock is kept to start one.
-/
def resolve (service : Service) (key : String) : Service :=
  match service.registry.get? key with
  | some number =>
    if service.registry.isClosed number then
      { service with registry := service.registry.forget key, launching := some (key, .sought) }
    else { service with held := number :: service.held }
  | none => { service with launching := some (key, .sought) }

/-- The preamble is written, or the start fails and the interpreter is given up. -/
def seed (service : Service) (key : String) (session : Session) : Service :=
  { service with
    launching :=
      if session.writePreamble.1.isOk then some (key, .seeded session.writePreamble.2) else none }

def enroll (service : Service) (session : Session) : Service :=
  let (number, registry) := service.registry.enter session
  { service with
    registry
    launching := none
    held := number :: service.held
    launched := number :: service.launched }

def insert (service : Service) (session : Session) : Service :=
  let (number, registry) := service.registry.enter session
  { service with
    registry
    doomed := (service.registry.get? session.key).toList ++ service.doomed
    held := number :: service.held }

def kill (service : Service) (key : String) : Service :=
  match service.registry.get? key with
  | some number =>
    { service with
      registry := service.registry.forget key
      doomed := number :: service.doomed }
  | none => service

def killAll (service : Service) : Service :=
  { service with
    registry := { service.registry with table := [] }
    doomed := service.registry.table.map Prod.snd ++ service.doomed }

def strike (service : Service) (number : Nat) : Service :=
  if number ∈ service.doomed then
    { service with
      registry := service.registry.killSession number
      doomed := service.doomed.erase number }
  else service

/-- The service after a move. What needs the lock has to wait while a resolve has it, and the moves
of a start come in their order only. -/
def next (service : Service) (move : Move) : Service :=
  match move, service.launching with
  | .resolve key, none => service.resolve key
  | .spawn, some (key, .sought) =>
    { service with launching := some (key, .started (.attach key true)) }
  | .stir act, some (key, .started session) =>
    { service with launching := some (key, .started (session.observe act)) }
  | .stir act, some (key, .seeded session) =>
    { service with launching := some (key, .seeded (session.observe act)) }
  | .seed, some (key, .started session) => service.seed key session
  | .enroll, some (_, .seeded session) => service.enroll session
  | .abandon, some _ => { service with launching := none }
  | .insert session, none => service.insert session
  | .kill key, none => service.kill key
  | .killAll, none => service.killAll
  | .get key, none =>
    { service with held := (service.registry.get? key).toList ++ service.held }
  | .strike number, _ => service.strike number
  | .release number, _ => { service with held := service.held.erase number }
  | .happen number event, _ =>
    { service with registry := service.registry.update number fun turns => turns.next event }
  | .exit number, _ => { service with exited := number :: service.exited }
  | _, _ => service

def after (moves : List Move) : Service :=
  moves.foldl next new

def answers (service : Service) (move : Move) : List (String × Nat) :=
  match move, service.launching with
  | .resolve key, none =>
    match service.registry.get? key with
    | some number => if service.registry.isClosed number then [] else [(key, number)]
    | none => []
  | .enroll, some (key, .seeded _) => [(key, service.registry.sessions.length)]
  | _, _ => []

def spawned (service : Service) (move : Move) : List String :=
  match move, service.launching with
  | .spawn, some (key, .sought) => [key]
  | _, _ => []

/-- The interpreter that is being started, if it runs already. -/
def underway (service : Service) : List Session :=
  match service.launching with
  | some (_, .started session) | some (_, .seeded session) => [session]
  | _ => []

def givenUp (service : Service) (move : Move) : List Session :=
  match move, service.launching with
  | .seed, some (_, .started session) => if session.inputOpen then [] else [session]
  | .abandon, _ => service.underway
  | _, _ => []

def sentTo (number : Nat) (service : Service) (move : Move) : List Bytes :=
  match move with
  | .happen other event =>
    if other = number then
      ((service.registry.turns? number).map fun turns => turns.sent event).getD []
    else []
  | _ => []

def preambleBytes : Bytes :=
  Utf8.ofString Program.preamble

private theorem preamble_ne_nil : Utf8.ofString Program.preamble ≠ [] := by
  refine Utf8.ofString_ne_nil ?_
  intro empty
  have characters := congrArg String.toList empty
  rw [Program.preamble, String.toList_ofList, Program.textOfLines, Program.preambleLines,
    List.flatMap_cons] at characters
  simp at characters

theorem writePreamble_eq (session : Session) :
    session.writePreamble =
      if session.inputOpen then
        (.ok (), { session with written := session.written ++ [preambleBytes] })
      else (.error .processExited, session) := by
  unfold Session.writePreamble preambleBytes
  rw [session.write_of_ne_nil preamble_ne_nil]

def newcomer (key : String) : Session :=
  { Session.attach key true with written := [preambleBytes] }

theorem writePreamble_attach (key : String) :
    (Session.attach key true).writePreamble = (.ok (), newcomer key) := by
  rw [writePreamble_eq]
  exact if_pos rfl

theorem start_running (key executable : String) :
    Session.start key executable .running = .ok (newcomer key) := by
  have body := Session.start.eq_def key executable .running
  rw [writePreamble_attach] at body
  exact body

theorem seed_eq (service : Service) (key : String) (session : Session) :
    service.seed key session =
      if session.inputOpen then
        { service with
          launching := some (key,
            .seeded { session with written := session.written ++ [preambleBytes] }) }
      else { service with launching := none } := by
  rw [seed, writePreamble_eq]
  by_cases listening : session.inputOpen = true
  · rw [if_pos listening, if_pos listening]
    rfl
  · rw [if_neg listening, if_neg listening]
    rfl

section Moves

variable {service : Service}

theorem next_resolve (free : service.launching = none) (key : String) :
    service.next (.resolve key) = service.resolve key := by
  unfold next
  rw [free]

theorem next_insert (free : service.launching = none) (session : Session) :
    service.next (.insert session) = service.insert session := by
  unfold next
  rw [free]

theorem next_kill (free : service.launching = none) (key : String) :
    service.next (.kill key) = service.kill key := by
  unfold next
  rw [free]

theorem next_killAll (free : service.launching = none) :
    service.next .killAll = service.killAll := by
  unfold next
  rw [free]

theorem next_enroll {key : String} {session : Session}
    (under : service.launching = some (key, .seeded session)) :
    service.next .enroll = service.enroll session := by
  unfold next
  rw [under]

end Moves

def launchMoves : Session.Launch → List Move
  | .running => [.spawn, .seed, .enroll]
  | .deaf => [.spawn, .stir (.close .input), .seed]
  | .missing | .garbled | .refused => [.abandon]

section Operations

variable {service : Service} {key : String}

attribute [local simp] launchMoves next answers

private theorem foldl_launch_running (sought : service.launching = some (key, .sought)) :
    (launchMoves .running).foldl next service =
      { service with
        registry := (service.registry.enter (newcomer key)).2
        launching := none
        held := service.registry.sessions.length :: service.held
        launched := service.registry.sessions.length :: service.launched } := by
  simp [sought, seed_eq, enroll, Registry.enter, Session.attach, newcomer]

private theorem start_failing {attempt : Session.Launch} (failing : attempt ≠ .running)
    (key executable : String) : ∃ fault, Session.start key executable attempt = .error fault := by
  cases attempt with
  | running => exact absurd rfl failing
  | missing | garbled | refused | deaf => exact ⟨_, rfl⟩

private theorem foldl_launch_failing {attempt : Session.Launch} (failing : attempt ≠ .running)
    (sought : service.launching = some (key, .sought)) :
    (launchMoves attempt).foldl next service = { service with launching := none } := by
  cases attempt with
  | running => exact absurd rfl failing
  | deaf =>
    simp [sought, seed_eq, Session.observe]
  | missing | garbled | refused => simp [sought]

/-- A key that is resolved stands for a session that is not over, which is handed out; or for one
that is over, which is forgotten; or for none. -/
theorem resolve_cases (service : Service) (key : String) :
    (∃ number, service.registry.get? key = some number ∧
      service.registry.isClosed number = false ∧
      service.resolve key = { service with held := number :: service.held }) ∨
    (∃ number, service.registry.get? key = some number ∧
      service.registry.isClosed number = true ∧
      service.resolve key =
        { service with
          registry := service.registry.forget key
          launching := some (key, .sought) }) ∨
    (service.registry.get? key = none ∧
      service.resolve key = { service with launching := some (key, .sought) }) := by
  rw [resolve]
  cases found : service.registry.get? key with
  | none => exact Or.inr (Or.inr ⟨rfl, rfl⟩)
  | some number =>
    cases closed : service.registry.isClosed number with
    | false => exact Or.inl ⟨number, rfl, closed, by simp [closed]⟩
    | true => exact Or.inr (Or.inl ⟨number, rfl, closed, by simp [closed]⟩)

def Resolved (key : String) (registry : Registry) (outcome : Except Fault Nat) (service : Service)
    (answers : List (String × Nat)) : Prop :=
  service.registry = registry ∧ service.launching = none ∧
    answers = (outcome.toOption.map fun number => (key, number)).toList

private theorem resolved_launchMoves (sought : service.launching = some (key, .sought))
    (executable : String) (attempt : Session.Launch) :
    Resolved key (service.registry.launch key executable attempt).2
      (service.registry.launch key executable attempt).1
      ((launchMoves attempt).foldl next service)
      (Run.noted next answers service (launchMoves attempt)) := by
  by_cases running : attempt = .running
  · rw [running, foldl_launch_running sought, Registry.launch, start_running]
    refine ⟨rfl, rfl, ?_⟩
    simp [Run.noted, sought, seed_eq, Session.attach, Registry.enter, Except.toOption]
  · obtain ⟨fault, failed⟩ := start_failing running key executable
    rw [foldl_launch_failing running sought, Registry.launch, failed]
    refine ⟨rfl, rfl, ?_⟩
    cases attempt with
    | running => exact absurd rfl running
    | missing | garbled | refused | deaf =>
      simp [Run.noted, Except.toOption]

private theorem launchMoves_of_free (free : service.launching = none) (attempt : Session.Launch) :
    (launchMoves attempt).foldl next service = service ∧
      Run.noted next answers service (launchMoves attempt) = [] := by
  cases attempt <;> simp [Run.noted, free]

theorem resolved_moves (free : service.launching = none) (executable : String)
    (attempt : Session.Launch) :
    Resolved key (service.registry.resolve key executable attempt).2
      (service.registry.resolve key executable attempt).1
      ((Move.resolve key :: launchMoves attempt).foldl next service)
      (Run.noted next answers service (Move.resolve key :: launchMoves attempt)) := by
  rw [List.foldl_cons, Run.noted, next_resolve free, Registry.resolve]
  rcases service.resolve_cases key with ⟨number, found, opened, lent⟩ |
    ⟨number, found, closed, starts⟩ | ⟨missing, starts⟩
  · have answered : service.answers (.resolve key) = [(key, number)] := by
      simp [free, found, opened]
    obtain ⟨same, silent⟩ := @launchMoves_of_free
      { service with held := number :: service.held } free attempt
    rw [answered, lent, same, silent]
    simp only [found, opened]
    exact ⟨rfl, free, rfl⟩
  · have silent : service.answers (.resolve key) = [] := by
      simp [free, found, closed]
    rw [silent, starts]
    simp only [found, closed, if_true]
    exact resolved_launchMoves rfl executable attempt
  · have silent : service.answers (.resolve key) = [] := by
      simp [answers, free, missing]
    rw [silent, starts]
    simp only [missing]
    exact resolved_launchMoves rfl executable attempt

private theorem foldl_strike (numbers rest : List Nat) (doomed : service.doomed = numbers ++ rest) :
    (numbers.map Move.strike).foldl next service =
      { service with
        registry := numbers.foldl Registry.killSession service.registry
        doomed := rest } := by
  induction numbers generalizing service with
  | nil =>
    rw [← doomed.trans (List.nil_append rest)]
    rfl
  | cons number numbers ih =>
    have struck : service.next (.strike number) =
        { service with
          registry := service.registry.killSession number
          doomed := numbers ++ rest } := by
      simp [strike, doomed]
    rw [List.map_cons, List.foldl_cons, struck, ih rfl]
    rfl

theorem insert_moves (free : service.launching = none) (session : Session) :
    (Move.insert session ::
        (service.registry.get? session.key).toList.map Move.strike).foldl next service =
      { service with
        registry := (service.registry.insert session).2
        held := (service.registry.insert session).1 :: service.held } := by
  rw [List.foldl_cons, next_insert free, foldl_strike _ service.doomed rfl, Registry.insert, insert]
  cases service.registry.get? session.key with
  | none => rfl
  | some number => rfl

theorem kill_moves (free : service.launching = none) :
    (Move.kill key :: (service.registry.get? key).toList.map Move.strike).foldl next service =
      { service with registry := (service.registry.kill key).2 } := by
  rw [List.foldl_cons, next_kill free, Registry.kill, kill]
  cases service.registry.get? key with
  | none => rfl
  | some number => exact foldl_strike [number] service.doomed rfl

theorem killAll_moves (free : service.launching = none) :
    (Move.killAll :: (service.registry.table.map Prod.snd).map Move.strike).foldl next service =
      { service with registry := service.registry.killAll.2 } := by
  have commutes : ∀ (numbers : List Nat) (registry : Registry),
      numbers.foldl Registry.killSession { registry with table := [] } =
        { numbers.foldl Registry.killSession registry with table := [] } := by
    intro numbers
    induction numbers with
    | nil => exact fun _ => rfl
    | cons number numbers ih => exact fun registry => ih (registry.killSession number)
  rw [List.foldl_cons, next_killAll free, foldl_strike _ service.doomed rfl, Registry.killAll, killAll,
    commutes, List.foldl_map]

end Operations

/-- No interpreter is started or given up at a move, and nothing happens to a session. -/
structure Quiet (service : Service) (move : Move) : Prop where
  spawned : service.spawned move = []
  givenUp : service.givenUp move = []
  sentTo : ∀ number, service.sentTo number move = []

/-- What a move may do to a service. -/
inductive Does (service : Service) : Move → Service → Prop
  | nothing {move : Move} (quiet : service.Quiet move) : Does service move service
  | lend {key : String} {number : Nat} (free : service.launching = none)
      (found : service.registry.get? key = some number)
      (opened : service.registry.isClosed number = false) :
      Does service (.resolve key) { service with held := number :: service.held }
  | replace {key : String} {number : Nat} (free : service.launching = none)
      (found : service.registry.get? key = some number)
      (closed : service.registry.isClosed number = true) :
      Does service (.resolve key)
        { service with
          registry := service.registry.forget key
          launching := some (key, .sought) }
  | seek {key : String} (free : service.launching = none)
      (missing : service.registry.get? key = none) :
      Does service (.resolve key) { service with launching := some (key, .sought) }
  | spawn {key : String} (under : service.launching = some (key, .sought)) :
      Does service .spawn { service with launching := some (key, .started (.attach key true)) }
  | stir {key : String} {session : Session} (act : Act)
      (under : service.launching = some (key, .started session)) :
      Does service (.stir act)
        { service with launching := some (key, .started (session.observe act)) }
  | stirSeeded {key : String} {session : Session} (act : Act)
      (under : service.launching = some (key, .seeded session)) :
      Does service (.stir act)
        { service with launching := some (key, .seeded (session.observe act)) }
  | seed {key : String} {session : Session}
      (under : service.launching = some (key, .started session))
      (listening : session.inputOpen = true) :
      Does service .seed
        { service with
          launching := some (key,
            .seeded { session with written := session.written ++ [preambleBytes] }) }
  | deaf {key : String} {session : Session}
      (under : service.launching = some (key, .started session))
      (deaf : session.inputOpen = false) :
      Does service .seed { service with launching := none }
  | enroll {key : String} {session : Session}
      (under : service.launching = some (key, .seeded session)) :
      Does service .enroll
        { service with
          registry := (service.registry.enter session).2
          launching := none
          held := service.registry.sessions.length :: service.held
          launched := service.registry.sessions.length :: service.launched }
  | abandon {key : String} {stage : Stage} (under : service.launching = some (key, stage)) :
      Does service .abandon { service with launching := none }
  | insert (session : Session) (free : service.launching = none) :
      Does service (.insert session)
        { service with
          registry := (service.registry.enter session).2
          doomed := (service.registry.get? session.key).toList ++ service.doomed
          held := service.registry.sessions.length :: service.held }
  | kill {key : String} {number : Nat} (free : service.launching = none)
      (found : service.registry.get? key = some number) :
      Does service (.kill key)
        { service with
          registry := service.registry.forget key
          doomed := number :: service.doomed }
  | killAll (free : service.launching = none) : Does service .killAll service.killAll
  | get (key : String) (free : service.launching = none) :
      Does service (.get key)
        { service with held := (service.registry.get? key).toList ++ service.held }
  | strike {number : Nat} (listed : number ∈ service.doomed) :
      Does service (.strike number)
        { service with
          registry := service.registry.killSession number
          doomed := service.doomed.erase number }
  | release (number : Nat) :
      Does service (.release number) { service with held := service.held.erase number }
  | happen (number : Nat) (event : Happening) :
      Does service (.happen number event)
        { service with registry := service.registry.update number fun turns => turns.next event }
  | exit (number : Nat) :
      Does service (.exit number) { service with exited := number :: service.exited }

private theorem does_strike (service : Service) (number : Nat) :
    service.Does (.strike number) (service.next (.strike number)) := by
  by_cases listed : number ∈ service.doomed
  · have moved : service.next (.strike number) =
        { service with
          registry := service.registry.killSession number
          doomed := service.doomed.erase number } := by
      simp only [next, strike, if_pos listed]
    rw [moved]
    exact .strike listed
  · have moved : service.next (.strike number) = service := by
      simp only [next, strike, if_neg listed]
    rw [moved]
    exact .nothing ⟨rfl, rfl, fun _ => rfl⟩

private theorem does_free (service : Service) (move : Move) (free : service.launching = none) :
    service.Does move (service.next move) := by
  cases move with
  | resolve key =>
    rw [next_resolve free]
    rcases service.resolve_cases key with ⟨number, found, opened, lent⟩ |
      ⟨number, found, closed, starts⟩ | ⟨missing, starts⟩
    · rw [lent]
      exact .lend free found opened
    · rw [starts]
      exact .replace free found closed
    · rw [starts]
      exact .seek free missing
  | insert session =>
    rw [next_insert free]
    exact .insert session free
  | kill key =>
    rw [next_kill free, kill]
    cases found : service.registry.get? key with
    | none => exact .nothing ⟨rfl, rfl, fun _ => rfl⟩
    | some number => exact .kill free found
  | killAll =>
    rw [next_killAll free]
    exact .killAll free
  | get key =>
    have moved : service.next (.get key) =
        { service with held := (service.registry.get? key).toList ++ service.held } := by
      simp only [next, free]
    rw [moved]
    exact .get key free
  | strike number => exact service.does_strike number
  | release number => exact .release number
  | happen number event => exact .happen number event
  | exit number => exact .exit number
  | spawn =>
    simp only [next, free]
    exact .nothing ⟨by simp only [spawned, free], rfl, fun _ => rfl⟩
  | seed =>
    simp only [next, free]
    exact .nothing ⟨rfl, by simp only [givenUp, free], fun _ => rfl⟩
  | abandon =>
    simp only [next, free]
    exact .nothing ⟨rfl, by simp only [givenUp, underway, free], fun _ => rfl⟩
  | stir | enroll =>
    simp only [next, free]
    exact .nothing ⟨rfl, rfl, fun _ => rfl⟩

private theorem does_locked (service : Service) (move : Move) {key : String} {stage : Stage}
    (under : service.launching = some (key, stage)) : service.Does move (service.next move) := by
  cases move with
  | resolve | insert | kill | killAll | get =>
    simp only [next, under]
    exact .nothing ⟨rfl, rfl, fun _ => rfl⟩
  | spawn =>
    cases stage with
    | sought =>
      have moved : service.next .spawn =
          { service with launching := some (key, .started (.attach key true)) } := by
        simp only [next, under]
      rw [moved]
      exact .spawn under
    | started | seeded =>
      simp only [next, under]
      exact .nothing ⟨by simp only [spawned, under], rfl, fun _ => rfl⟩
  | stir act =>
    cases stage with
    | sought =>
      simp only [next, under]
      exact .nothing ⟨rfl, rfl, fun _ => rfl⟩
    | started session =>
      have moved : service.next (.stir act) =
          { service with launching := some (key, .started (session.observe act)) } := by
        simp only [next, under]
      rw [moved]
      exact .stir act under
    | seeded session =>
      have moved : service.next (.stir act) =
          { service with launching := some (key, .seeded (session.observe act)) } := by
        simp only [next, under]
      rw [moved]
      exact .stirSeeded act under
  | seed =>
    cases stage with
    | started session =>
      have moved : service.next .seed = service.seed key session := by simp only [next, under]
      rw [moved, seed_eq]
      by_cases listening : session.inputOpen = true
      · rw [if_pos listening]
        exact .seed under listening
      · rw [if_neg listening]
        exact .deaf under (Bool.eq_false_iff.mpr listening)
    | sought | seeded =>
      simp only [next, under]
      exact .nothing ⟨rfl, by simp only [givenUp, under], fun _ => rfl⟩
  | enroll =>
    cases stage with
    | seeded session =>
      rw [next_enroll under]
      exact .enroll under
    | sought | started =>
      simp only [next, under]
      exact .nothing ⟨rfl, rfl, fun _ => rfl⟩
  | abandon =>
    have moved : service.next .abandon = { service with launching := none } := by
      simp only [next, under]
    rw [moved]
    exact .abandon under
  | strike number => exact service.does_strike number
  | release number => exact .release number
  | happen number event => exact .happen number event
  | exit number => exact .exit number

theorem does_next (service : Service) (move : Move) : service.Does move (service.next move) := by
  cases under : service.launching with
  | none => exact service.does_free move under
  | some launch => exact service.does_locked move under

/-- What becomes of a session: it keeps its key, a child that was killed stays so, and so does an
output that has ended. -/
structure Grown (turns later : Turns) (sent : List Bytes) : Prop where
  key : later.session.key = turns.session.key
  child : later.session.hasChild = true → turns.session.hasChild = true
  closed : turns.session.isClosed = true → later.session.isClosed = true
  written : later.session.written = turns.session.written ++ sent

private theorem Grown.refl (turns : Turns) : Grown turns turns [] :=
  ⟨rfl, id, id, (List.append_nil _).symm⟩

theorem grown_next {service : Service} {number : Nat} {turns : Turns}
    (known : service.registry.turns? number = some turns) (move : Move) :
    ∃ later, (service.next move).registry.turns? number = some later ∧
      Grown turns later (service.sentTo number move) := by
  have step := service.does_next move
  generalize service.next move = later at step
  have stays : service.registry.turns? number = some turns ∧ Grown turns turns [] :=
    ⟨known, .refl turns⟩
  have enters : ∀ session : Session,
      (service.registry.enter session).2.turns? number = some turns := by
    intro session
    rw [Registry.turns?_enter, if_neg (Nat.ne_of_lt (Registry.lt_of_turns? known))]
    exact known
  -- Only `strike` and `happen` change a session that is there already.
  cases step with
  | nothing quiet =>
    rw [quiet.sentTo number]
    exact ⟨turns, known, .refl turns⟩
  | enroll | insert => exact ⟨turns, enters _, .refl turns⟩
  | @strike other listed =>
    rw [Registry.killSession, Registry.turns?_update, known]
    by_cases same : number = other
    · rw [if_pos same]
      exact ⟨_, rfl, rfl, nofun, id, (List.append_nil _).symm⟩
    · rw [if_neg same]
      exact ⟨turns, rfl, .refl turns⟩
  | happen other event =>
    rw [Registry.turns?_update, sentTo, known]
    by_cases same : number = other
    · rw [if_pos same, if_pos same.symm]
      have carried := turns.carries_next event
      refine ⟨_, rfl, carried.key, ?_, ?_, carried.written⟩
      · intro child
        rwa [carried.hasChild] at child
      · exact fun closed => Turns.isClosed_next closed event
    · rw [if_neg same, if_neg fun h => same h.symm]
      exact ⟨turns, rfl, .refl turns⟩
  | _ => exact ⟨turns, known, .refl turns⟩

end Service

end NotebookKernel
