import NotebookKernel.Proofs.Session.Tenure

/-!
# Isolation of calls

What an earlier program wrote is dropped when the next turn begins, as far as it has arrived; what
is still on its way then is heard by the later call. So a call answers for its own program alone
whenever nothing of an earlier program is still to come.
-/

set_option autoImplicit false

namespace NotebookKernel.Turns

/-- What an interpreter writes while it executes some programs in order. -/
def allWritten (writes : Nat → Writing) (programs : List (Nat × Submission)) : Writing :=
  ⟨programs.flatMap fun p => (writes p.1).stdout, programs.flatMap fun p => (writes p.1).stderr⟩

/-- The interpreter executes the programs that it is handed in order and ends the output of each
with the sentinel of that call, on a line or without a line feed. What it writes arrives on each
stream in order and at any time. No two calls have the same sentinel. -/
structure Faithful (session : Session) (writes : Nat → Writing) (events : List Happening) :
    Prop where
  ends : ∀ p ∈ programs session events, ∃ text tail, (tail = [] ∨ tail = Utf8.ofString "\n") ∧
    (writes p.1).stdout = text ++ Utf8.ofString p.2.sentinel ++ tail
  stamps : (programs session events).Pairwise fun p q => p.2.sentinel ≠ q.2.sentinel
  output : ∀ before, before <+: events →
    (arrivals (new session) before).stdout <+: (allWritten writes (programs session before)).stdout
  complaints : ∀ before, before <+: events →
    (arrivals (new session) before).stderr <+: (allWritten writes (programs session before)).stderr

/-- An outcome that follows from what the interpreter wrote while it executed one program: the
output before the sentinel, or complaints up to some point. A call that did not complete says
nothing about it. -/
def Explains (sentinel : String) (own : Writing) : Except Fault String → Prop
  | .ok text => ∃ i, Search.FirstAt (Utf8.ofString sentinel) own.stdout i ∧
    text = Call.outputText (own.stdout.take i)
  | .error (.evaluation text) => ∃ heard, heard <+: own.stderr ∧ text = Call.complaintText heard
  | .error _ => True

theorem allWritten_snoc (writes : Nat → Writing) (programs : List (Nat × Submission))
    (p : Nat × Submission) :
    allWritten writes (programs ++ [p]) =
      ⟨(allWritten writes programs).stdout ++ (writes p.1).stdout,
        (allWritten writes programs).stderr ++ (writes p.1).stderr⟩ := by
  simp [allWritten]

/-- A call answers for a stretch of a run: what it hears there is what earlier programs wrote that
had not arrived by the beginning, `late`, and after that what its own program wrote, both up to some
point. Its outcome is the verdict on that, and follows from what its own program wrote as soon as
nothing was late on the stream that the outcome is taken from. -/
structure Answers (session : Session) (writes : Nat → Writing) (events : List Happening)
    (o : Outcome) (submission : Submission) (t : Tenure session events o submission)
    (late : Writing) : Prop where
  submitted : (submissions events)[o.ticket]? = some submission
  earlier : allWritten writes (programs session t.before) =
    ⟨t.missed.stdout ++ late.stdout, t.missed.stderr ++ late.stderr⟩
  output : t.heard.stdout <+: late.stdout ++ (writes o.ticket).stdout
  complaints : t.heard.stderr <+: late.stderr ++ (writes o.ticket).stderr
  verdict :
    Call.Verdict (Utf8.ofString submission.sentinel) t.heard.stdout t.heard.stderr o.value
  ownOutput : late.stdout = [] → ∀ text, o.value = .ok text →
    Explains submission.sentinel (writes o.ticket) o.value
  ownComplaints : late.stderr = [] → ∀ text, o.value = .error (.evaluation text) →
    Explains submission.sentinel (writes o.ticket) o.value

private theorem explains_of_output {sentinel : String} {own : Writing} {out err : Bytes}
    {text : String} (h : Call.Verdict (Utf8.ofString sentinel) out err (.ok text))
    (part : out <+: own.stdout) : Explains sentinel own (.ok text) := by
  obtain ⟨i, first, value⟩ := h
  obtain ⟨found, same⟩ := first.of_prefix part
  by_cases silent : (Call.complaintText err).isEmpty = true
  · rw [if_pos silent, Except.ok.injEq] at value
    exact ⟨i, found, by rw [same]; exact value⟩
  · rw [if_neg silent] at value
    exact absurd value (by simp)

private theorem explains_of_complaints {sentinel : String} {own : Writing} {out err : Bytes}
    {text : String}
    (h : Call.Verdict (Utf8.ofString sentinel) out err (.error (.evaluation text)))
    (part : err <+: own.stderr) : Explains sentinel own (.error (.evaluation text)) := by
  obtain ⟨i, first, value⟩ := h
  by_cases silent : (Call.complaintText err).isEmpty = true
  · rw [if_pos silent] at value
    exact absurd value (by simp)
  · rw [if_neg silent, Except.error.injEq, Fault.evaluation.injEq] at value
    exact ⟨err, part, value⟩

/-- Of a stream that is cut at some point, the rest of the first part stands before the second. -/
private theorem late_of_prefix {missed heard earlier own : Bytes} (before : missed <+: earlier)
    (all : missed ++ heard <+: earlier ++ own) :
    ∃ late, earlier = missed ++ late ∧ heard <+: late ++ own := by
  obtain ⟨late, rfl⟩ := before
  refine ⟨late, rfl, ?_⟩
  rw [List.append_assoc] at all
  exact (List.prefix_append_right_inj missed).mp all

/-- Every call that completes answers for the stretch of the run in which it had the session. What
arrived before does not count; what earlier programs wrote counts only if it was late. -/
theorem answers_of_completed {session : Session} {writes : Nat → Writing}
    {events : List Happening} (faithful : Faithful session writes events) {o : Outcome}
    (member : o ∈ (after session events).outcomes) (completed : Completed o.value) :
    ∃ (submission : Submission) (t : Tenure session events o submission) (late : Writing),
      Answers session writes events o submission t late := by
  obtain ⟨submission, t, verdict⟩ := exists_tenure member completed
  have first : t.before <+: events := by
    refine ⟨.step :: t.during ++ .step :: t.later, ?_⟩
    conv => rhs; rw [t.split]
    simp
  have stretch : t.before ++ .step :: t.during <+: events :=
    ⟨.step :: t.later, t.split.symm⟩
  have arrived : arrivals (new session) (t.before ++ .step :: t.during) =
      ⟨t.missed.stdout ++ t.heard.stdout, t.missed.stderr ++ t.heard.stderr⟩ :=
    arrivals_append (new session) t.before (.step :: t.during)
  have outputs := faithful.output _ stretch
  have complaints := faithful.complaints _ stretch
  rw [arrived, t.begins, allWritten_snoc] at outputs complaints
  obtain ⟨lateOut, earlierOut, heardOut⟩ := late_of_prefix (faithful.output _ first) outputs
  obtain ⟨lateErr, earlierErr, heardErr⟩ := late_of_prefix (faithful.complaints _ first) complaints
  have handed : (o.ticket, submission) ∈ programs session (t.before ++ .step :: t.during) := by
    rw [t.begins]
    exact List.mem_append_right _ List.mem_cons_self
  refine ⟨submission, t, ⟨lateOut, lateErr⟩, ?_, ?_, heardOut, heardErr, verdict, ?_, ?_⟩
  · obtain ⟨more, rest⟩ := stretch
    have known := getElem?_submissions_append (submissions_of_mem_programs handed) more
    rw [rest] at known
    exact known
  · exact Writing.ext earlierOut earlierErr
  · rintro rfl text value
    rw [value] at verdict ⊢
    exact explains_of_output verdict heardOut
  · rintro rfl text value
    rw [value] at verdict ⊢
    exact explains_of_complaints verdict heardErr

def twoWritings (ticket : Nat) : Writing :=
  if ticket = 0 then ⟨Utf8.ofString "one\n__END_A__", []⟩ else ⟨Utf8.ofString "two\n__END_B__", []⟩

def timedOut : List Happening :=
  [.submit ⟨"1", "__END_A__", some (.ofMillis 50)⟩, .step, .expire]

def handOver : List Happening :=
  [.submit ⟨"2", "__END_B__", none⟩, .step]

def arrive (ticket : Nat) : Happening :=
  .act (.print (twoWritings ticket).stdout)

/-- The output of the first program arrives before the second program is handed over. -/
def timelyRun : List Happening :=
  timedOut ++ arrive 0 :: handOver ++ [arrive 1, .step]

/-- The output of the first program arrives after the second program has been handed over. -/
def lateRun : List Happening :=
  timedOut ++ handOver ++ [arrive 0, .step, arrive 1, .step]

private theorem faithful_of_two {events : List Happening}
    (handed : programs (.attach "" false) events =
      [(0, ⟨"1", "__END_A__", some (.ofMillis 50)⟩), (1, ⟨"2", "__END_B__", none⟩)])
    (arrives : ∀ before ∈ events.inits,
      (arrivals (new (.attach "" false)) before).stdout <+:
          (allWritten twoWritings (programs (.attach "" false) before)).stdout ∧
        (arrivals (new (.attach "" false)) before).stderr = []) :
    Faithful (.attach "" false) twoWritings events := by
  refine ⟨?_, ?_, ?_, ?_⟩
  · intro p hp
    rw [handed, List.mem_cons, List.mem_singleton] at hp
    rcases hp with rfl | rfl
    · exact ⟨Utf8.ofString "one\n", [], .inl rfl, by decide⟩
    · exact ⟨Utf8.ofString "two\n", [], .inl rfl, by decide⟩
  · rw [handed]
    simp
  · intro before part
    exact (arrives before ((List.mem_inits _ _).mpr part)).1
  · intro before part
    rw [(arrives before ((List.mem_inits _ _).mpr part)).2]
    exact List.nil_prefix

theorem answers_timelyRun :
    Faithful (.attach "" false) twoWritings timelyRun ∧
      ⟨1, .ok "two\n"⟩ ∈ (after (.attach "" false) timelyRun).outcomes ∧
      ∃ (submission : Submission)
        (t : Tenure (.attach "" false) timelyRun ⟨1, .ok "two\n"⟩ submission) (late : Writing),
        Answers (.attach "" false) twoWritings timelyRun ⟨1, .ok "two\n"⟩ submission t late := by
  have faithful : Faithful (.attach "" false) twoWritings timelyRun :=
    faithful_of_two (by decide +kernel) (by decide +kernel)
  have member : ⟨1, .ok "two\n"⟩ ∈ (after (.attach "" false) timelyRun).outcomes :=
    List.mem_cons_of_mem _ List.mem_cons_self
  exact ⟨faithful, member, answers_of_completed faithful member (.inl ⟨_, rfl⟩)⟩

/-- A call that hears the late output of an earlier program does not answer for its own alone. -/
theorem not_explains_lateRun :
    ¬ ∀ (session : Session) (writes : Nat → Writing) (events : List Happening),
      Faithful session writes events → ∀ o ∈ (after session events).outcomes,
        ∀ submission, (submissions events)[o.ticket]? = some submission →
          Explains submission.sentinel (writes o.ticket) o.value := by
  intro isolated
  have faithful : Faithful (.attach "" false) twoWritings lateRun :=
    faithful_of_two (by decide +kernel) (by decide +kernel)
  have member : ⟨1, .ok "one\n__END_A__two\n"⟩ ∈ (after (.attach "" false) lateRun).outcomes :=
    List.mem_cons_of_mem _ List.mem_cons_self
  obtain ⟨i, first, text⟩ := isolated _ _ _ faithful _ member ⟨"2", "__END_B__", none⟩ rfl
  have place : Search.FirstAt (Utf8.ofString "__END_B__") (twoWritings 1).stdout 4 :=
    (Search.firstIndex_eq_some_iff _ _ _).mp (by decide)
  rw [first.unique place] at text
  exact absurd text (by decide)

end NotebookKernel.Turns
