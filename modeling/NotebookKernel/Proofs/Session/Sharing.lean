import NotebookKernel.Proofs.Session.Floor

/-!
# Sharing an input

What reaches the interpreter is cut into shares, one for each call that has had the lock, in the
order in which they got it. Only the last of these calls can still be at it: a call gets the lock
when the one before it is over. So no two programs mix, and none begins early.
-/

set_option autoImplicit false

namespace NotebookKernel

namespace Floor

/-- Nobody has the lock and all calls that had it are over; or the call that has it writes, and all
before it are over; or it reads, and all before it are over. -/
inductive Stands (floor : Floor) : Prop where
  | free : floor.lock = none → floor.writer = none → floor.turns.current = none →
      (∀ share ∈ floor.past, floor.Over share.ticket) → floor.Stands
  | writing (share : Share) : floor.lock = some share.ticket → floor.writer = some share →
      floor.turns.current = none → (∀ share ∈ floor.past, floor.Over share.ticket) → floor.Stands
  | reading (turn : Turn) (before : List Share) (share : Share) : floor.lock = some turn.ticket →
      floor.writer = none → floor.turns.current = some turn → floor.past = before ++ [share] →
      share.ticket = turn.ticket → (∀ share ∈ before, floor.Over share.ticket) → floor.Stands

private theorem Over.mono {floor later : Floor} {ticket : Nat} (h : floor.Over ticket)
    (outcomes : floor.turns.outcomes <+: later.turns.outcomes)
    (dropped : floor.dropped ⊆ later.dropped) : later.Over ticket := by
  rcases h with ⟨o, member, rfl⟩ | gone
  · exact Or.inl ⟨o, outcomes.subset member, rfl⟩
  · exact Or.inr (dropped gone)

private theorem over_concat {floor : Floor} (later : Floor) {past : List Share} {share : Share}
    (before : ∀ share ∈ past, floor.Over share.ticket) (last : later.Over share.ticket)
    (outcomes : floor.turns.outcomes <+: later.turns.outcomes)
    (dropped : floor.dropped ⊆ later.dropped) :
    ∀ other ∈ past ++ [share], later.Over other.ticket := by
  intro other member
  rcases List.mem_append.mp member with earlier | new
  · exact (before other earlier).mono outcomes dropped
  · rw [List.mem_singleton.mp new]
    exact last

theorem Stands.writer_over {floor : Floor} {share : Share} (h : floor.Stands)
    (writing : floor.writer = some share) :
    floor.lock = some share.ticket ∧ floor.turns.current = none ∧
      ∀ earlier ∈ floor.past, floor.Over earlier.ticket := by
  cases h with
  | free _ silent => simp [silent] at writing
  | reading _ _ _ _ silent => simp [silent] at writing
  | writing other locked same idle ended =>
    rw [writing, Option.some.injEq] at same
    exact ⟨same ▸ locked, idle, ended⟩

theorem Stands.of_unlocked {floor : Floor} (h : floor.Stands) (free : floor.lock = none) :
    floor.writer = none ∧ floor.turns.current = none ∧
      ∀ share ∈ floor.past, floor.Over share.ticket := by
  cases h with
  | free _ silent idle ended => exact ⟨silent, idle, ended⟩
  | writing _ locked => simp [free] at locked
  | reading _ _ _ locked => simp [free] at locked

theorem Stands.of_silent {floor : Floor} {ticket : Nat} (h : floor.Stands)
    (locked : floor.lock = some ticket) (silent : floor.writer = none) :
    ∃ before share, floor.past = before ++ [share] ∧ share.ticket = ticket ∧
      ∀ share ∈ before, floor.Over share.ticket := by
  cases h with
  | free unlocked => simp [unlocked] at locked
  | writing _ _ writing => simp [silent] at writing
  | reading turn before share same _ _ past own ended =>
    rw [locked, Option.some.injEq] at same
    exact ⟨before, share, past, own.trans same.symm, ended⟩

private theorem stands_attended {floor : Floor} (h : floor.Stands) {turn : Turn}
    (current : floor.turns.current = some turn) (event : Happening) :
    Stands { floor with
      turns := floor.turns.next event
      lock := (floor.turns.next event).current.map Turn.ticket } := by
  cases h with
  | free _ _ idle => simp [idle] at current
  | writing _ _ _ idle => simp [idle] at current
  | reading same before share locked silent holds past own ended =>
    rw [holds, Option.some.injEq] at current
    subst current
    have grown := floor.turns.outcomes_next event
    rcases Turns.pursues_next holds event with ⟨again, goes, ticket, -, outcomes⟩ |
      ⟨gone, value, outcomes⟩
    · refine .reading again before share ?_ silent goes past (own.trans ticket.symm) ?_
      · simp only [goes, Option.map_some]
      · exact fun share member => (ended share member).mono grown (List.Subset.refl _)
    · have last : ∃ o ∈ (floor.turns.next event).outcomes, o.ticket = share.ticket := by
        rw [outcomes]
        exact ⟨_, List.mem_append_right _ (List.mem_singleton_self _), own.symm⟩
      refine .free ?_ silent gone ?_
      · simp only [gone, Option.map_none]
      · simp only [past]
        exact over_concat _ ended (Or.inl last) grown (List.Subset.refl _)

private theorem stands_unattended {floor : Floor} (h : floor.Stands)
    (current : floor.turns.current = none) {event : Happening} (other : event ≠ .step) :
    Stands { floor with turns := floor.turns.next event } := by
  obtain ⟨idle, -⟩ : (floor.turns.next event).current = none ∧
      (floor.turns.next event).outcomes = floor.turns.outcomes := by
    rcases Turns.next_idle current event with still | ⟨step, -⟩
    · exact still
    · exact absurd step other
  have kept : ∀ past : List Share, (∀ share ∈ past, floor.Over share.ticket) →
      ∀ share ∈ past, Over { floor with turns := floor.turns.next event } share.ticket :=
    fun past ended share member =>
      (ended share member).mono (floor.turns.outcomes_next event) (List.Subset.refl _)
  cases h with
  | free unlocked silent _ ended => exact .free unlocked silent idle (kept _ ended)
  | writing share locked writing _ ended =>
    exact .writing share locked writing idle (kept _ ended)
  | reading _ _ _ _ _ holds => simp [holds] at current

theorem stands_next {floor : Floor} (h : floor.Stands) (move : Move) :
    (floor.next move).Stands := by
  have done := floor.does_next move
  generalize floor.next move = later at done
  cases done with
  | nothing => exact h
  | attended event current => exact stands_attended h current event
  | unattended current other => exact stands_unattended h current other
  | @grant ticket submission line free first =>
    obtain ⟨-, idle, ended⟩ := h.of_unlocked free
    exact .writing (.untouched ticket submission) rfl rfl idle ended
  | @put share size writing =>
    obtain ⟨locked, idle, ended⟩ := h.writer_over writing
    exact .writing (share.push size) locked rfl idle ended
  | @finish share writing whole =>
    obtain ⟨locked, -, ended⟩ := h.writer_over writing
    exact .reading { share.turn with call := share.turn.call.markSent } floor.past share locked rfl
      rfl rfl rfl ended
  | @fail share fault writing =>
    obtain ⟨-, -, ended⟩ := h.writer_over writing
    have last : (floor.failed share fault).Over share.ticket :=
      Or.inl ⟨_, List.mem_append_right _ (List.mem_singleton_self _), rfl⟩
    exact .free rfl rfl rfl (over_concat _ ended last (List.prefix_append _ _) (List.Subset.refl _))
  | @dropWriter share ticket locked writing =>
    obtain ⟨own, idle, ended⟩ := h.writer_over writing
    rw [locked, Option.some.injEq] at own
    subst own
    exact .free rfl rfl idle (over_concat { floor.stopped share with
      dropped := share.ticket :: floor.dropped } ended (Or.inr List.mem_cons_self)
      (List.prefix_refl _) (List.subset_cons_self _ _))
  | @dropReader ticket locked silent =>
    obtain ⟨before, share, past, rfl, ended⟩ := h.of_silent locked silent
    refine .free rfl rfl rfl ?_
    simp only [past]
    exact over_concat _ ended (Or.inr List.mem_cons_self) (List.prefix_refl _)
      (List.subset_cons_self _ _)
  | dropWaiting _ =>
    cases h with
    | free unlocked silent idle ended => exact .free unlocked silent idle ended
    | writing share locked writing idle ended => exact .writing share locked writing idle ended
    | reading turn before share locked silent holds past own ended =>
      exact .reading turn before share locked silent holds past own ended

theorem Stands.ended {floor : Floor} (h : floor.Stands) :
    ∀ share ∈ floor.shares.dropLast, floor.Over share.ticket := by
  cases h with
  | free _ silent _ ended =>
    simp only [shares, silent, Option.toList_none, List.append_nil]
    exact fun share member => ended share (List.mem_of_mem_dropLast member)
  | writing share _ writing _ ended =>
    simp only [shares, writing, Option.toList_some, List.dropLast_concat]
    exact ended
  | reading _ before share _ silent _ past _ ended =>
    simp only [shares, silent, past, Option.toList_none, List.append_nil, List.dropLast_concat]
    exact ended

/-- The input holds the shares in their order, each the beginning of its program, and of a program
whose call did not stop early the whole. -/
structure Shared (session : Session) (moves : List Move) (floor : Floor) : Prop where
  out : floor.out = session.written.flatten ++ floor.shares.flatMap Share.sent
  payload : ∀ share ∈ floor.shares, share.sent ++ share.rest = share.payload
  whole : ∀ share ∈ floor.past, share.ticket ∉ floor.broken → share.rest = []
  order : floor.shares.map Share.entry = turnsGranted session moves

theorem shared_new (session : Session) : Shared session [] (new session) := by
  refine ⟨(List.append_nil _).symm, ?_, ?_, rfl⟩
  · exact fun share member => absurd member List.not_mem_nil
  · exact fun share member => absurd member List.not_mem_nil

section Moves

variable {session : Session} {moves : List Move} {floor later : Floor} {move : Move}

private theorem shared_quiet (h : Shared session moves floor)
    (granted : turnsGranted session (moves ++ [move]) = turnsGranted session moves)
    (shares : later.shares = floor.shares) (out : later.out = floor.out)
    (whole : ∀ share ∈ later.past, share.ticket ∉ later.broken → share.rest = []) :
    Shared session (moves ++ [move]) later := by
  refine ⟨?_, ?_, whole, ?_⟩
  · rw [out, shares, h.out]
  · rw [shares]
    exact h.payload
  · rw [shares, granted, h.order]

private theorem shared_grant (h : Shared session moves floor) {ticket : Nat}
    {submission : Submission} {line : List (Nat × Submission)} (silent : floor.writer = none)
    (granted : turnsGranted session (moves ++ [move]) =
      turnsGranted session moves ++ [(ticket, submission)]) :
    Shared session (moves ++ [move]) (floor.granted ticket submission line) := by
  have before : floor.shares = floor.past := by
    simp only [shares, silent, Option.toList_none, List.append_nil]
  have grown : (floor.granted ticket submission line).shares =
      floor.shares ++ [.untouched ticket submission] := by
    rw [before]
    rfl
  refine ⟨?_, ?_, h.whole, ?_⟩
  · rw [grown, List.flatMap_append, ← List.append_assoc, ← h.out]
    exact (List.append_nil _).symm
  · rw [grown]
    intro share member
    rcases List.mem_append.mp member with earlier | new
    · exact h.payload share earlier
    · rw [List.mem_singleton.mp new]
      rfl
  · rw [grown, List.map_append, h.order, granted]
    rfl

private theorem shared_put (h : Shared session moves floor) {share : Share}
    (writing : floor.writer = some share)
    (granted : turnsGranted session (moves ++ [move]) = turnsGranted session moves) (size : Nat) :
    Shared session (moves ++ [move]) (floor.advanced share size) := by
  have before : floor.shares = floor.past ++ [share] := by
    simp only [shares, writing, Option.toList_some]
  have grown : (floor.advanced share size).shares = floor.past ++ [share.push size] := rfl
  obtain ⟨out, payload, whole, order⟩ := h
  rw [before] at out payload order
  refine ⟨?_, ?_, whole, ?_⟩
  · show floor.out ++ share.rest.take size = _
    rw [grown, out]
    simp only [List.flatMap_append, List.flatMap_singleton, List.append_assoc, Share.push]
  · rw [grown]
    intro other member
    rcases List.mem_append.mp member with earlier | new
    · exact payload other (List.mem_append_left _ earlier)
    · rw [List.mem_singleton.mp new]
      have same := payload share (List.mem_append_right _ (List.mem_singleton_self _))
      show share.sent ++ share.rest.take size ++ share.rest.drop size = share.payload
      rw [List.append_assoc, List.take_append_drop, same]
  · rw [grown, granted, ← order]
    simp only [List.map_append]
    rfl

private theorem shares_ended {share : Share} (writing : floor.writer = some share)
    (past : later.past = floor.past ++ [share]) (silent : later.writer = none) :
    later.shares = floor.shares := by
  simp only [shares, writing, past, silent, Option.toList_none, Option.toList_some,
    List.append_nil]

private theorem whole_stopped (h : Shared session moves floor) (share : Share) :
    ∀ other ∈ floor.past ++ [share], other.ticket ∉ share.ticket :: floor.broken →
      other.rest = [] := by
  intro other member kept
  rcases List.mem_append.mp member with earlier | last
  · exact h.whole other earlier fun broken => kept (List.mem_cons_of_mem _ broken)
  · rw [List.mem_singleton.mp last] at kept
    exact absurd List.mem_cons_self kept

private theorem whole_finished (h : Shared session moves floor) {share : Share}
    (done : share.rest = []) :
    ∀ other ∈ floor.past ++ [share], other.ticket ∉ floor.broken → other.rest = [] := by
  intro other member kept
  rcases List.mem_append.mp member with earlier | last
  · exact h.whole other earlier kept
  · rw [List.mem_singleton.mp last]
    exact done

end Moves

theorem shared_snoc {session : Session} {moves : List Move} (stands : (after session moves).Stands)
    (h : Shared session moves (after session moves)) (move : Move) :
    Shared session (moves ++ [move]) (after session (moves ++ [move])) := by
  have granted := turnsGranted_snoc session moves move
  have done := (after session moves).does_next move
  rw [after_snoc]
  generalize after session moves = floor at *
  generalize floor.next move = later at done
  have quiet : floor.grants move = [] →
      turnsGranted session (moves ++ [move]) = turnsGranted session moves := by
    intro none
    rw [granted, none, List.append_nil]
  cases done with
  | nothing _ none => exact shared_quiet h (quiet none) rfl rfl h.whole
  | attended | unattended | dropWaiting => exact shared_quiet h (quiet rfl) rfl rfl h.whole
  | grant free first =>
    refine shared_grant h (stands.of_unlocked free).1 ?_
    rw [granted, grants, if_pos free, first]
    rfl
  | put size writing => exact shared_put h writing (quiet rfl) size
  | @finish share writing done =>
    exact shared_quiet h (quiet rfl) (shares_ended writing rfl rfl) rfl (whole_finished h done)
  | @fail share fault writing =>
    exact shared_quiet h (quiet rfl) (shares_ended writing rfl rfl) rfl (whole_stopped h share)
  | @dropWriter share ticket locked writing =>
    exact shared_quiet h (quiet rfl) (shares_ended writing rfl rfl) rfl (whole_stopped h share)
  | dropReader locked silent =>
    refine shared_quiet h (quiet rfl) ?_ rfl h.whole
    simp only [shares, silent]

/-- Those that got the lock and those in line are, in this order, among those that were put in line,
whose tickets are their positions. -/
structure Queued (session : Session) (moves : List Move) (floor : Floor) : Prop where
  order : (turnsGranted session moves ++ floor.turns.line).Sublist (entered session moves)
  tickets : (entered session moves).map Prod.fst = List.range floor.turns.nextTicket

theorem queued_snoc {session : Session} {moves : List Move}
    (h : Queued session moves (after session moves)) (move : Move) :
    Queued session (moves ++ [move]) (after session (moves ++ [move])) := by
  have granted := turnsGranted_snoc session moves move
  have put := entered_snoc session moves move
  have done := (after session moves).does_next move
  rw [after_snoc]
  generalize after session moves = floor at *
  generalize floor.next move = later at done
  obtain ⟨order, tickets⟩ := h
  -- Only what happens to the turns puts in line, and what else is done takes off the line at most.
  have happened : ∀ event : Happening, move = .happen event →
      later.turns = floor.turns.next event → Queued session (moves ++ [move]) later := by
    rintro event rfl turns
    obtain ⟨line, next⟩ := floor.turns.line_next event
    have same : floor.enters (.happen event) = floor.turns.enters event := rfl
    have none : floor.grants (.happen event) = [] := rfl
    refine ⟨?_, ?_⟩
    · rw [granted, put, none, List.append_nil, same, turns]
      refine (line.append_left _).trans ?_
      rw [← List.append_assoc]
      exact order.append_right _
    · rw [put, same, turns, next, List.map_append, tickets, List.range_add]
      cases event <;> simp [Turns.enters]
  have taken : floor.enters move = [] → later.turns.nextTicket = floor.turns.nextTicket →
      (floor.grants move ++ later.turns.line).Sublist floor.turns.line →
      Queued session (moves ++ [move]) later := by
    intro none same shorter
    refine ⟨?_, ?_⟩
    · rw [granted, put, none, List.append_nil, List.append_assoc]
      exact (shorter.append_left _).trans order
    · rw [put, none, List.append_nil, same, tickets]
  cases done with
  | nothing none idle =>
    refine taken none rfl ?_
    rw [idle]
    exact List.Sublist.refl _
  | attended event => exact happened event rfl rfl
  | unattended => exact happened _ rfl rfl
  | grant free first =>
    refine taken rfl rfl ?_
    rw [grants, if_pos free, first]
    exact List.Sublist.refl _
  | put | finish | fail | dropWriter | dropReader => exact taken rfl rfl (List.Sublist.refl _)
  | dropWaiting => exact taken rfl rfl List.filter_sublist

/-- How the input of an interpreter is shared in a run. -/
structure Orderly (session : Session) (moves : List Move) : Prop where
  stands : (after session moves).Stands
  shared : Shared session moves (after session moves)
  queued : Queued session moves (after session moves)

theorem orderly_after (session : Session) (moves : List Move) : Orderly session moves := by
  induction moves using List.reverseRecOn with
  | nil =>
    refine ⟨?_, shared_new session, List.Sublist.refl _, rfl⟩
    exact .free rfl rfl rfl fun share member => absurd member List.not_mem_nil
  | append_singleton moves move ih =>
    refine ⟨?_, shared_snoc ih.stands ih.shared move, queued_snoc ih.queued move⟩
    rw [after_snoc]
    exact stands_next ih.stands move

/-- What an interpreter has been written after the moves of a run, and by whom. -/
structure InTurn (session : Session) (moves : List Move) : Prop where
  /-- Behind the preamble stand the shares of the calls, one after another. -/
  out : (after session moves).out =
    Service.preambleBytes ++ (after session moves).shares.flatMap Share.sent
  /-- They stand in the order in which the turns were granted. -/
  order : (after session moves).shares.map Share.entry = turnsGranted session moves
  /-- Turns are granted in the order of the submissions. -/
  line : (turnsGranted session moves ++ (after session moves).turns.line).Sublist
    (entered session moves)
  tickets : (entered session moves).map Prod.fst =
    List.range (after session moves).turns.nextTicket
  begun : ∀ share ∈ (after session moves).shares, share.sent <+: share.payload
  /-- Without a broken write all programs are there, the last one as far as it has been written. -/
  whole : (after session moves).broken = [] →
    (after session moves).out =
      Service.preambleBytes ++ (after session moves).past.flatMap Share.payload ++
        (after session moves).writer.toList.flatMap Share.sent
  /-- A call whose turn has passed to another is over. -/
  ended : ∀ share ∈ (after session moves).shares.dropLast,
    (after session moves).Over share.ticket
  /-- What is written next belongs to the call that writes, and all before it are over. -/
  next : ∀ move, ((after session moves).next move).out = (after session moves).out ∨
    ∃ share size, (after session moves).writer = some share ∧ move = .put size ∧
      ((after session moves).next move).out = (after session moves).out ++ share.rest.take size ∧
      ∀ earlier ∈ (after session moves).past, (after session moves).Over earlier.ticket

private theorem Shared.whole_out {session : Session} {moves : List Move} {floor : Floor}
    (h : Shared session moves floor) (unbroken : floor.broken = []) :
    floor.out = session.written.flatten ++ floor.past.flatMap Share.payload ++
      floor.writer.toList.flatMap Share.sent := by
  have complete : floor.past.flatMap Share.sent = floor.past.flatMap Share.payload := by
    rw [List.flatMap_def, List.flatMap_def]
    refine congrArg List.flatten (List.map_congr_left fun share member => ?_)
    have done : share.rest = [] := by
      refine h.whole share member ?_
      rw [unbroken]
      exact List.not_mem_nil
    have all := h.payload share (List.mem_append_left _ member)
    rw [done, List.append_nil] at all
    exact all
  rw [h.out, shares, List.flatMap_append, complete, List.append_assoc]

private theorem Stands.next_out {floor : Floor} (h : floor.Stands) (move : Move) :
    (floor.next move).out = floor.out ∨
      ∃ share size, floor.writer = some share ∧ move = .put size ∧
        (floor.next move).out = floor.out ++ share.rest.take size ∧
        ∀ earlier ∈ floor.past, floor.Over earlier.ticket := by
  have done := floor.does_next move
  generalize floor.next move = later at done
  cases done with
  | @put share size writing =>
    exact Or.inr ⟨share, size, writing, rfl, rfl, (h.writer_over writing).2.2⟩
  | _ => exact Or.inl rfl

/-- In every run of a session that has been started, the input holds the preamble and behind it the
programs, each in one piece, in the order in which the turns were granted. No byte of a program is
written before the call that had the turn before is over. -/
theorem inTurn_of_started {key executable : String} {attempt : Session.Launch} {session : Session}
    (started : Session.start key executable attempt = .ok session) (moves : List Move) :
    InTurn session moves := by
  obtain rfl : session = Service.newcomer key := by
    cases attempt with
    | running =>
      rw [Service.start_running] at started
      exact (Except.ok.inj started).symm
    | missing | garbled | refused | deaf => cases started
  have preamble : (Service.newcomer key).written.flatten = Service.preambleBytes :=
    List.append_nil _
  obtain ⟨stands, shared, queued⟩ := orderly_after (Service.newcomer key) moves
  refine ⟨?_, shared.order, queued.order, queued.tickets, ?_, ?_, stands.ended, stands.next_out⟩
  · rw [shared.out, preamble]
  · intro share member
    exact ⟨share.rest, shared.payload share member⟩
  · intro unbroken
    rw [shared.whole_out unbroken, preamble]

/-- Two calls: the first one's program leaves in two pieces, and its time is up before it has an
outcome; then the second writes. -/
def twoCalls : List Move :=
  [.happen (.submit ⟨"1", "end", some ⟨1, 0⟩⟩), .happen (.submit ⟨"2", "end", none⟩), .grant,
    .put 1, .grant, .put 1, .finish, .happen .expire, .grant, .put 1]

theorem inTurn_twoCalls :
    Session.start "a.md" "R" .running = .ok (Service.newcomer "a.md") ∧
      (after (Service.newcomer "a.md") twoCalls).broken = [] ∧
      (after (Service.newcomer "a.md") twoCalls).out =
        Service.preambleBytes ++ Utf8.ofString "1\n2" := by
  have started := Service.start_running "a.md" "R"
  have shared := (inTurn_of_started started twoCalls).whole rfl
  refine ⟨started, rfl, ?_⟩
  rw [shared, List.append_assoc]
  rfl

end Floor

end NotebookKernel
