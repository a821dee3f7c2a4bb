import NotebookKernel.Proofs.Run
import NotebookKernel.Proofs.Scanner
import NotebookKernel.Proofs.Text.Utf8

/-!
# The scanner and the naive search

At every chunk the scanner looks at the end of its buffer only. Whatever it is given, however that
is cut, and whenever its text is taken, it answers as a search does that keeps all bytes since the
last text was taken and goes through them from the beginning each time.
-/

set_option autoImplicit false

namespace NotebookKernel.Scanner

inductive Operation where
  | push (chunk : Bytes)
  | take
deriving DecidableEq, Repr

inductive Value where
  | seen (found : Bool)
  | text (before : Option String)
deriving DecidableEq, Repr

/-- What is seen at an operation: the value that it returns, and what is found and buffered behind
it. -/
structure Answer where
  value : Value
  found : Bool
  buffered : Nat
deriving DecidableEq, Repr

namespace Operation

def run (s : Scanner) : Operation → Scanner
  | push chunk => s.push chunk
  | take => s.take.2

def value (s : Scanner) : Operation → Value
  | push chunk => .seen (s.push chunk).isFound
  | take => .text s.take.1

def answer (s : Scanner) (op : Operation) : Answer where
  value := op.value s
  found := (op.run s).isFound
  buffered := (op.run s).buffered

end Operation

def after (sentinel : String) (ops : List Operation) : Scanner :=
  ops.foldl Operation.run (new sentinel)

def answers (s : Scanner) (ops : List Operation) : List Answer :=
  Run.noted Operation.run (fun s op => [op.answer s]) s ops

namespace Naive

/-- The first place at which the sentinel stands, tried one after another from the beginning. -/
def search (sentinel kept : Bytes) : Option Nat :=
  (List.range (kept.length + 1)).find? fun i => sentinel.isPrefixOf (kept.drop i)

/-- The bytes kept behind an operation: all of them until a text is taken. -/
def run (sentinel kept : Bytes) : Operation → Bytes
  | .push chunk => kept ++ chunk
  | .take => if (search sentinel kept).isSome then [] else kept

def value (sentinel kept : Bytes) : Operation → Value
  | .push chunk => .seen (search sentinel (kept ++ chunk)).isSome
  | .take => .text ((search sentinel kept).map fun i =>
      String.ofList (Utf8.decodeLossy (kept.take i)))

def answer (sentinel kept : Bytes) (op : Operation) : Answer where
  value := value sentinel kept op
  found := (search sentinel (run sentinel kept op)).isSome
  buffered := (run sentinel kept op).length

def answers (sentinel kept : Bytes) (ops : List Operation) : List Answer :=
  Run.noted (run sentinel) (fun kept op => [answer sentinel kept op]) kept ops

theorem search_eq_firstIndex (sentinel kept : Bytes) :
    search sentinel kept = Search.firstIndex sentinel kept := by
  apply Option.ext
  intro i
  rw [Search.firstIndex_eq_some_iff, search, List.find?_range_eq_some]
  simp only [Bool.not_eq_true', ← Bool.not_eq_true, List.isPrefixOf_iff_prefix, List.mem_range]
  constructor
  · rintro ⟨stands, -, first⟩
    exact ⟨stands, first⟩
  · rintro ⟨stands, first⟩
    refine ⟨stands, ?_, first⟩
    have room := Search.FirstAt.room ⟨stands, first⟩
    omega

end Naive

theorem take_of_found {s : Scanner} (found : s.isFound = true) :
    s.take.2 = ⟨s.sentinel, #[], none⟩ := by
  obtain ⟨index, here⟩ := Option.isSome_iff_exists.mp found
  rw [take, here]

theorem take_of_unfound {s : Scanner} (unfound : s.isFound = false) : s.take = (none, s) := by
  have missing : s.foundAt = none := by
    rw [← Option.not_isSome_iff_eq_none]
    exact Bool.eq_false_iff.mp unfound
  rw [take, missing]

namespace Heard

variable {s : Scanner} {sentinel kept : Bytes}

theorem foundAt_eq (h : s.Heard sentinel kept) (nonempty : sentinel ≠ []) :
    s.foundAt = Naive.search sentinel kept := by
  have given : ¬ sentinel.isEmpty = true := by
    simpa using nonempty
  rw [h.found, if_neg given, Naive.search_eq_firstIndex]

theorem buffered_eq (h : s.Heard sentinel kept) : s.buffered = kept.length := by
  rw [buffered, ← h.gathered, Array.length_toList]

theorem not_isFound_of_nil (h : s.Heard [] kept) : s.isFound = false := by
  rw [isFound, h.found]
  rfl

theorem run (h : s.Heard sentinel kept) (nonempty : sentinel ≠ []) (op : Operation) :
    (op.run s).Heard sentinel (Naive.run sentinel kept op) := by
  cases op with
  | push chunk => exact h.push chunk
  | take =>
    have same : s.isFound = (Naive.search sentinel kept).isSome := by
      rw [isFound, h.foundAt_eq nonempty]
    show s.take.2.Heard sentinel (if (Naive.search sentinel kept).isSome then [] else kept)
    rw [← same]
    cases found : s.isFound with
    | true =>
      rw [take_of_found found, h.sought]
      exact heard_nothing sentinel
    | false =>
      rw [take_of_unfound found]
      exact h

theorem value_eq (h : s.Heard sentinel kept) (nonempty : sentinel ≠ []) (op : Operation) :
    op.value s = Naive.value sentinel kept op := by
  cases op with
  | push chunk =>
    show Value.seen (s.push chunk).isFound = _
    rw [isFound, (h.push chunk).foundAt_eq nonempty]
    rfl
  | take =>
    have place := h.foundAt_eq nonempty
    show Value.text s.take.1 = Value.text ((Naive.search sentinel kept).map _)
    rw [← place, take, ← h.gathered]
    cases s.foundAt with
    | none => rfl
    | some index => simp

theorem answer_eq (h : s.Heard sentinel kept) (nonempty : sentinel ≠ []) (op : Operation) :
    op.answer s = Naive.answer sentinel kept op := by
  have next := h.run nonempty op
  rw [Operation.answer, Naive.answer, h.value_eq nonempty, next.buffered_eq, isFound,
    next.foundAt_eq nonempty]

theorem answer_of_nil (h : s.Heard [] kept) (op : Operation) :
    (∃ later, (op.run s).Heard [] later) ∧
      ((op.answer s).value = .seen false ∨ (op.answer s).value = .text none) ∧
        (op.answer s).found = false := by
  cases op with
  | push chunk =>
    have pushed := h.push chunk
    have unfound := pushed.not_isFound_of_nil
    exact ⟨⟨_, pushed⟩, Or.inl (congrArg Value.seen unfound), unfound⟩
  | take =>
    have unfound := h.not_isFound_of_nil
    have same := take_of_unfound unfound
    refine ⟨⟨kept, ?_⟩, Or.inr ?_, ?_⟩
    · show s.take.2.Heard [] kept
      rw [same]
      exact h
    · show Value.text s.take.1 = .text none
      rw [same]
    · show s.take.2.isFound = false
      rw [same]
      exact unfound

theorem answers_eq (h : s.Heard sentinel kept) (nonempty : sentinel ≠ []) (ops : List Operation) :
    answers s ops = Naive.answers sentinel kept ops := by
  induction ops generalizing s kept with
  | nil => rfl
  | cons op ops ih =>
    have rest := ih (h.run nonempty op)
    have first := h.answer_eq nonempty op
    rw [answers, Naive.answers] at rest ⊢
    rw [Run.noted, Run.noted, first, rest]

theorem answers_of_nil (h : s.Heard [] kept) (ops : List Operation) :
    ∀ answer ∈ answers s ops,
      (answer.value = .seen false ∨ answer.value = .text none) ∧ answer.found = false := by
  induction ops generalizing s kept with
  | nil => simp [answers, Run.noted]
  | cons op ops ih =>
    obtain ⟨⟨rest, next⟩, silent⟩ := h.answer_of_nil op
    intro answer member
    rw [answers, Run.noted] at member
    rcases List.mem_append.mp member with now | later
    · rw [List.mem_singleton.mp now]
      exact silent
    · exact ih next answer later

end Heard

theorem sentinel_run (s : Scanner) (op : Operation) : (op.run s).sentinel = s.sentinel := by
  obtain ⟨sentinel, buffer, foundAt⟩ := s
  cases op <;> cases foundAt <;> rfl

theorem sentinel_after (sentinel : String) (ops : List Operation) :
    (after sentinel ops).sentinel = Utf8.ofString sentinel := by
  induction ops using List.reverseRecOn with
  | nil => rfl
  | append_singleton ops op ih =>
    rw [after, List.foldl_append]
    exact (sentinel_run _ op).trans ih

/-- How a scanner behaves that some operations have been applied to. -/
structure Behaves (sentinel : String) (ops : List Operation) : Prop where
  /-- It has answered as the naive search does. -/
  naive : sentinel ≠ "" → answers (new sentinel) ops = Naive.answers (Utf8.ofString sentinel) [] ops
  /-- An empty sentinel is never found. -/
  silent : sentinel = "" → ∀ answer ∈ answers (new sentinel) ops,
    (answer.value = .seen false ∨ answer.value = .text none) ∧ answer.found = false
  /-- When its text is taken it is a new scanner. -/
  renewed : (after sentinel ops).take.1.isSome = true → (after sentinel ops).take.2 = new sentinel
  /-- As long as nothing is found, nothing can be taken, and nothing changes. -/
  unmoved : (after sentinel ops).isFound = false →
    (after sentinel ops).take = (none, after sentinel ops)

theorem behaves (sentinel : String) (ops : List Operation) : Behaves sentinel ops where
  naive := by
    intro nonempty
    exact (heard_new sentinel).answers_eq (Utf8.ofString_ne_nil nonempty) ops
  silent := by
    rintro rfl
    exact (heard_new "").answers_of_nil ops
  renewed := by
    intro taken
    have found : (after sentinel ops).isFound = true := by
      by_contra unfound
      rw [take_of_unfound (Bool.eq_false_iff.mpr unfound)] at taken
      cases taken
    rw [take_of_found found, sentinel_after]
    rfl
  unmoved := take_of_unfound

/-- A sentinel that overlaps itself, in three pieces with an empty one between them, and the scanner
used again behind it. -/
example : answers (new "aab")
    [.push (Utf8.ofString "xaa"), .take, .push [], .push (Utf8.ofString "abaab"), .take,
      .push (Utf8.ofString "aab")] =
    [⟨.seen false, false, 3⟩, ⟨.text none, false, 3⟩, ⟨.seen false, false, 3⟩,
      ⟨.seen true, true, 8⟩, ⟨.text (some "xa"), false, 0⟩, ⟨.seen true, true, 3⟩] := by
  decide +kernel

end NotebookKernel.Scanner
