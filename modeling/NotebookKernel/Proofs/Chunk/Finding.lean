import Mathlib.Data.List.Induction
import Mathlib.Data.List.TakeWhile
import NotebookKernel.Chunk

/-!
# The chunks of a document and the chunk around a line

Chunks are found by one search through all lines, or from one line upward to a start and downward
to a fence. Both give what stands between a start and the next fence. They differ where a line
inside a chunk, or the fence that ends it, could itself start a chunk.
-/

set_option autoImplicit false

namespace NotebookKernel.Chunk

/-- The line at a place starts a chunk. -/
def StartsAt (lines : List (List Char)) (place : Nat) : Prop :=
  ∃ line, lines[place]? = some line ∧ isStart line = true

/-- A chunk is what stands between a line that starts one and the next fence. -/
def Fenced (lines : List (List Char)) (chunk : Chunk) : Prop :=
  ∃ before first body last after, lines = before ++ first :: (body ++ last :: after) ∧
    isStart first = true ∧ (∀ line ∈ body, isFence line = false) ∧ isFence last = true ∧
    chunk = ofLines before.length (before.length + 1 + body.length) body

theorem startsAt_append_singleton {lines : List (List Char)} {line : List Char} {place : Nat} :
    StartsAt (lines ++ [line]) place ↔
      StartsAt lines place ∨ (place = lines.length ∧ isStart line = true) := by
  unfold StartsAt
  rcases Nat.lt_trichotomy place lines.length with below | rfl | above
  · rw [List.getElem?_append_left below]
    have other : place ≠ lines.length := by omega
    simp [other]
  · simp
  · have outside : (lines ++ [line])[place]? = none := by
      rw [List.getElem?_eq_none_iff, List.length_append, List.length_singleton]
      omega
    have beyond : lines[place]? = none := List.getElem?_eq_none_iff.mpr (by omega)
    have other : place ≠ lines.length := by omega
    simp [outside, beyond, other]

namespace Fenced

variable {lines : List (List Char)} {chunk : Chunk}

theorem startsAt (h : Fenced lines chunk) : StartsAt lines chunk.startLine := by
  obtain ⟨before, first, body, last, after, rfl, starts, -, -, rfl⟩ := h
  refine ⟨first, ?_, starts⟩
  show (before ++ first :: (body ++ last :: after))[before.length]? = some first
  simp

theorem endsAt (h : Fenced lines chunk) :
    ∃ line, lines[chunk.endLine]? = some line ∧ isFence line = true := by
  obtain ⟨before, first, body, last, after, rfl, -, -, ends, rfl⟩ := h
  refine ⟨last, ?_, ends⟩
  show (before ++ first :: (body ++ last :: after))[before.length + 1 + body.length]? = some last
  have front : before.length + 1 + body.length = (before ++ first :: body).length := by
    rw [List.length_append, List.length_cons]
    omega
  rw [← List.cons_append, ← List.append_assoc, front]
  simp

theorem startLine_lt (h : Fenced lines chunk) : chunk.startLine < chunk.endLine := by
  obtain ⟨before, first, body, last, after, -, -, -, -, rfl⟩ := h
  show before.length < before.length + 1 + body.length
  omega

theorem endLine_lt (h : Fenced lines chunk) : chunk.endLine < lines.length := by
  obtain ⟨line, here, -⟩ := h.endsAt
  exact (List.getElem?_eq_some_iff.mp here).1

theorem append (h : Fenced lines chunk) (more : List (List Char)) :
    Fenced (lines ++ more) chunk := by
  obtain ⟨before, first, body, last, after, rfl, rest⟩ := h
  exact ⟨before, first, body, last, after ++ more, by simp, rest⟩

end Fenced

def bodyAfter (lines : List (List Char)) (place : Nat) : List (List Char) :=
  (lines.drop (place + 1)).takeWhile fun line => !isFence line

theorem drop_behind (before : List (List Char)) (first : List Char)
    (rest : List (List Char)) : (before ++ first :: rest).drop (before.length + 1) = rest := by
  rw [← List.drop_drop, List.drop_left, List.drop_one, List.tail_cons]

theorem takeWhile_unfenced {body : List (List Char)} {last : List Char}
    (unfenced : ∀ line ∈ body, isFence line = false) (ends : isFence last = true)
    (after : List (List Char)) :
    (body ++ last :: after).takeWhile (fun line => !isFence line) = body := by
  have inside : ∀ line ∈ body, (!isFence line) = true := by
    intro line member
    rw [unfenced line member]
    rfl
  have outside : ¬ (!isFence last) = true := by
    rw [ends]
    exact Bool.false_ne_true
  rw [List.takeWhile_append_of_pos inside, List.takeWhile_cons, if_neg outside, List.append_nil]

theorem fenced_iff {lines : List (List Char)} {start : Nat} (starts : StartsAt lines start)
    (chunk : Chunk) :
    Fenced lines chunk ∧ chunk.startLine = start ↔
      (bodyAfter lines start).length < (lines.drop (start + 1)).length ∧
        chunk = ofLines start (start + 1 + (bodyAfter lines start).length)
          (bodyAfter lines start) := by
  constructor
  · rintro ⟨⟨before, first, body, last, after, rfl, -, unfenced, ends, value⟩, same⟩
    obtain rfl : before.length = start := by
      rw [← same, value]
      rfl
    have cut : bodyAfter (before ++ first :: (body ++ last :: after)) before.length = body := by
      rw [bodyAfter, drop_behind]
      exact takeWhile_unfenced unfenced ends after
    rw [cut, drop_behind, List.length_append, List.length_cons]
    exact ⟨by omega, value⟩
  · rintro ⟨shorter, rfl⟩
    obtain ⟨first, here, opens⟩ := starts
    obtain ⟨inside, rfl⟩ := List.getElem?_eq_some_iff.mp here
    have whole : bodyAfter lines start ++
        (lines.drop (start + 1)).dropWhile (fun line => !isFence line) = lines.drop (start + 1) :=
      List.takeWhile_append_dropWhile
    cases rest : (lines.drop (start + 1)).dropWhile (fun line => !isFence line) with
    | nil =>
      rw [rest, List.append_nil] at whole
      rw [whole] at shorter
      exact absurd shorter (Nat.lt_irrefl _)
    | cons last after =>
      refine ⟨⟨lines.take start, lines[start], bodyAfter lines start, last, after, ?_, opens, ?_, ?_,
        ?_⟩, rfl⟩
      · rw [← rest, whole, ← List.drop_eq_getElem_cons, List.take_append_drop]
      · intro line member
        have kept := List.mem_takeWhile_imp member
        simpa using kept
      · have stop := List.head?_dropWhile_not (fun line => !isFence line) (lines.drop (start + 1))
        rw [rest] at stop
        simpa using stop
      · rw [List.length_take, Nat.min_eq_left (Nat.le_of_lt inside)]

theorem Fenced.unique {lines : List (List Char)} {chunk other : Chunk} (h : Fenced lines chunk)
    (h' : Fenced lines other) (same : chunk.startLine = other.startLine) : chunk = other := by
  have one := ((fenced_iff h.startsAt chunk).mp ⟨h, rfl⟩).2
  have two := ((fenced_iff h.startsAt other).mp ⟨h', same.symm⟩).2
  rw [one, two]

theorem lastStart?_append_singleton (lines : List (List Char)) (line : List Char) :
    lastStart? (lines ++ [line]) =
      if isStart line then some lines.length else lastStart? lines := by
  unfold lastStart?
  rw [List.zipIdx_append, List.filter_append]
  by_cases starts : isStart line = true <;> simp [starts]

theorem StartsAt.lt {lines : List (List Char)} {place : Nat} (h : StartsAt lines place) :
    place < lines.length := by
  obtain ⟨line, here, -⟩ := h
  exact (List.getElem?_eq_some_iff.mp here).1

theorem startsAt_take {lines : List (List Char)} {count place : Nat} :
    StartsAt (lines.take count) place ↔ place < count ∧ StartsAt lines place := by
  unfold StartsAt
  by_cases below : place < count
  · rw [List.getElem?_take_of_lt below]
    simp [below]
  · rw [List.getElem?_take_eq_none (by omega)]
    simp [below]

theorem lastStart?_cases (lines : List (List Char)) :
    (lastStart? lines = none ∧ ∀ place, ¬ StartsAt lines place) ∨
      ∃ start, lastStart? lines = some start ∧ StartsAt lines start ∧
        ∀ place, StartsAt lines place → place ≤ start := by
  induction lines using List.reverseRecOn with
  | nil =>
    refine Or.inl ⟨rfl, ?_⟩
    rintro place ⟨line, here, -⟩
    simp at here
  | append_singleton lines line ih =>
    rw [lastStart?_append_singleton]
    simp only [startsAt_append_singleton]
    by_cases starts : isStart line = true
    · rw [if_pos starts]
      refine Or.inr ⟨lines.length, rfl, Or.inr ⟨rfl, starts⟩, ?_⟩
      rintro place (old | ⟨rfl, -⟩)
      · exact Nat.le_of_lt old.lt
      · exact Nat.le_refl _
    · rw [if_neg starts]
      simpa [starts] using ih

/-- The chunk around a line stands behind the last start that is not behind the line, and does not
end before the line. -/
theorem atLineOf?_eq_some_iff {lines : List (List Char)} {l : Nat} (within : l < lines.length)
    (chunk : Chunk) :
    atLineOf? lines l = some chunk ↔ Fenced lines chunk ∧ chunk.startLine ≤ l ∧ l ≤ chunk.endLine ∧
      ∀ place, StartsAt lines place → place ≤ l → place ≤ chunk.startLine := by
  have clamped : min l (lines.length - 1) = l := by omega
  unfold atLineOf?
  rw [clamped]
  rcases lastStart?_cases (lines.take (l + 1)) with ⟨missing, absent⟩ | ⟨start, last, starts, latest⟩
  · simp only [missing, reduceCtorEq, false_iff, not_and]
    intro fenced behind
    exact absurd (startsAt_take.mpr ⟨by omega, fenced.startsAt⟩) (absent chunk.startLine)
  · obtain ⟨behind, starts⟩ := startsAt_take.mp starts
    have one := fenced_iff starts chunk
    simp only [last]
    show (if (bodyAfter lines start).length < (lines.drop (start + 1)).length ∧
        l ≤ start + 1 + (bodyAfter lines start).length
      then some (ofLines start (start + 1 + (bodyAfter lines start).length) (bodyAfter lines start))
      else none) = some chunk ↔ _
    rw [Option.ite_none_right_eq_some, Option.some.injEq]
    constructor
    · rintro ⟨⟨shorter, inside⟩, value⟩
      obtain ⟨fenced, same⟩ := one.mpr ⟨shorter, value.symm⟩
      have ends : chunk.endLine = start + 1 + (bodyAfter lines start).length := by
        rw [← value]
        rfl
      refine ⟨fenced, by omega, by omega, ?_⟩
      intro place here upto
      rw [same]
      exact latest place (startsAt_take.mpr ⟨by omega, here⟩)
    · rintro ⟨fenced, before, inside, upper⟩
      have up := upper start starts (by omega)
      have down := latest chunk.startLine (startsAt_take.mpr ⟨by omega, fenced.startsAt⟩)
      obtain ⟨shorter, value⟩ := one.mp ⟨fenced, by omega⟩
      rw [value] at inside
      exact ⟨⟨shorter, inside⟩, value.symm⟩

/-- What the search through some lines has come to: the chunks that it has found stand apart, and
every start lies in one of them or in the chunk that is open. -/
structure Scanned (lines : List (List Char)) (s : Search) : Prop where
  next : s.next = lines.length
  found : ∀ chunk ∈ s.found, Fenced lines chunk
  apart : s.found.Pairwise fun later earlier => earlier.endLine < later.startLine
  opened : ∀ start body, s.opened = some (start, body) →
    (∃ before first, lines = before ++ first :: body.reverse ∧ before.length = start ∧
      isStart first = true ∧ ∀ line ∈ body, isFence line = false) ∧
    ∀ chunk ∈ s.found, chunk.endLine < start
  covered : ∀ place, StartsAt lines place →
    (∃ chunk ∈ s.found, chunk.startLine ≤ place ∧ place ≤ chunk.endLine) ∨
      ∃ start body, s.opened = some (start, body) ∧ start ≤ place

namespace Scanned

variable {lines : List (List Char)} {s : Search}

private theorem push_closed (h : Scanned lines s) (closed : s.opened = none) (line : List Char) :
    Scanned (lines ++ [line]) (s.push line) := by
  have found : ∀ chunk ∈ s.found, Fenced (lines ++ [line]) chunk :=
    fun chunk member => (h.found chunk member).append [line]
  have covered : ∀ place, StartsAt lines place →
      ∃ chunk ∈ s.found, chunk.startLine ≤ place ∧ place ≤ chunk.endLine := by
    intro place here
    rcases h.covered place here with old | ⟨start, body, opened, -⟩
    · exact old
    · rw [closed] at opened
      cases opened
  have pushed : s.push line =
      ⟨s.next + 1, if isStart line then some (s.next, []) else none, s.found⟩ := by
    rw [Search.push, closed]
  rw [pushed]
  refine ⟨?_, found, h.apart, ?_, ?_⟩
  · rw [List.length_append, List.length_singleton, ← h.next]
  · intro start body opened
    by_cases starts : isStart line = true
    · rw [if_pos starts, Option.some.injEq, Prod.mk.injEq] at opened
      obtain ⟨rfl, rfl⟩ := opened
      refine ⟨⟨lines, line, rfl, h.next.symm, starts, by simp⟩, ?_⟩
      intro chunk member
      rw [h.next]
      exact (h.found chunk member).endLine_lt
    · rw [if_neg starts] at opened
      cases opened
  · intro place here
    rcases startsAt_append_singleton.mp here with old | ⟨rfl, starts⟩
    · exact Or.inl (covered place old)
    · exact Or.inr ⟨s.next, [], if_pos starts, Nat.le_of_eq h.next⟩

private theorem covered_of_opened (h : Scanned lines s) {start : Nat} {body : List (List Char)}
    (opened : s.opened = some (start, body)) {line : List Char} {place : Nat}
    (here : StartsAt (lines ++ [line]) place) :
    (∃ chunk ∈ s.found, chunk.startLine ≤ place ∧ place ≤ chunk.endLine) ∨ start ≤ place := by
  rcases startsAt_append_singleton.mp here with old | ⟨rfl, -⟩
  · rcases h.covered place old with covered | ⟨start', body', same, behind⟩
    · exact Or.inl covered
    · rw [opened, Option.some.injEq, Prod.mk.injEq] at same
      rw [same.1]
      exact Or.inr behind
  · obtain ⟨⟨before, first, whole, rfl, -, -⟩, -⟩ := h.opened start body opened
    rw [whole, List.length_append]
    exact Or.inr (Nat.le_add_right _ _)

private theorem push_fence (h : Scanned lines s) {start : Nat} {body : List (List Char)}
    (opened : s.opened = some (start, body)) {line : List Char} (ends : isFence line = true) :
    Scanned (lines ++ [line]) (s.push line) := by
  obtain ⟨⟨before, first, whole, rfl, starts, unfenced⟩, below⟩ := h.opened start body opened
  have size : s.next = before.length + 1 + body.reverse.length := by
    rw [h.next, whole, List.length_append, List.length_cons]
    omega
  have fenced : Fenced (lines ++ [line]) (ofLines before.length s.next body.reverse) := by
    refine ⟨before, first, body.reverse, line, [], ?_, starts, ?_, ends, ?_⟩
    · rw [whole]
      simp
    · intro other member
      exact unfenced other (List.mem_reverse.mp member)
    · rw [size]
  have pushed : s.push line =
      ⟨s.next + 1, none, ofLines before.length s.next body.reverse :: s.found⟩ := by
    rw [Search.push, opened]
    exact if_pos ends
  rw [pushed]
  refine ⟨?_, ?_, ?_, ?_, ?_⟩
  · rw [List.length_append, List.length_singleton, ← h.next]
  · intro chunk member
    rcases List.mem_cons.mp member with rfl | old
    · exact fenced
    · exact (h.found chunk old).append [line]
  · exact List.pairwise_cons.mpr ⟨below, h.apart⟩
  · intro start body none
    cases none
  · intro place here
    have upto : place ≤ s.next := by
      have inside := here.lt
      rw [List.length_append, List.length_singleton, ← h.next] at inside
      omega
    rcases h.covered_of_opened opened here with ⟨chunk, member, inside⟩ | behind
    · exact Or.inl ⟨chunk, List.mem_cons_of_mem _ member, inside⟩
    · exact Or.inl ⟨_, List.mem_cons_self, behind, upto⟩

private theorem push_body (h : Scanned lines s) {start : Nat} {body : List (List Char)}
    (opened : s.opened = some (start, body)) {line : List Char} (inside : isFence line = false) :
    Scanned (lines ++ [line]) (s.push line) := by
  obtain ⟨⟨before, first, whole, rfl, starts, unfenced⟩, below⟩ := h.opened start body opened
  have pushed : s.push line = ⟨s.next + 1, some (before.length, line :: body), s.found⟩ := by
    rw [Search.push, opened]
    exact if_neg (by rw [inside]; exact Bool.false_ne_true)
  rw [pushed]
  refine ⟨?_, ?_, h.apart, ?_, ?_⟩
  · rw [List.length_append, List.length_singleton, ← h.next]
  · exact fun chunk member => (h.found chunk member).append [line]
  · intro start' body' same
    rw [Option.some.injEq, Prod.mk.injEq] at same
    obtain ⟨rfl, rfl⟩ := same
    refine ⟨⟨before, first, ?_, rfl, starts, ?_⟩, below⟩
    · rw [whole]
      simp
    · intro other member
      rcases List.mem_cons.mp member with rfl | old
      · exact inside
      · exact unfenced other old
  · intro place here
    rcases h.covered_of_opened opened here with covered | behind
    · exact Or.inl covered
    · exact Or.inr ⟨_, _, rfl, behind⟩

theorem push (h : Scanned lines s) (line : List Char) :
    Scanned (lines ++ [line]) (s.push line) := by
  cases opened : s.opened with
  | none => exact h.push_closed opened line
  | some entry =>
    cases ends : isFence line with
    | true => exact h.push_fence opened ends
    | false => exact h.push_body opened ends

end Scanned

theorem scanned_foldl (lines : List (List Char)) :
    Scanned lines (lines.foldl Search.push ⟨0, none, []⟩) := by
  induction lines using List.reverseRecOn with
  | nil =>
    refine ⟨rfl, by simp, List.Pairwise.nil, by simp, ?_⟩
    intro place here
    exact absurd here.lt (Nat.not_lt_zero _)
  | append_singleton lines line ih =>
    rw [List.foldl_append]
    exact ih.push line

theorem fenced_of_mem_all {lines : List (List Char)} {chunk : Chunk}
    (member : chunk ∈ allOfLines lines) : Fenced lines chunk :=
  (scanned_foldl lines).found chunk (List.mem_reverse.mp member)

theorem pairwise_all (lines : List (List Char)) :
    (allOfLines lines).Pairwise fun earlier later => earlier.endLine < later.startLine :=
  List.pairwise_reverse.mpr (scanned_foldl lines).apart

theorem mem_all_of_fenced {lines : List (List Char)} {chunk : Chunk} (h : Fenced lines chunk) :
    chunk ∈ allOfLines lines ∨ ∃ other ∈ allOfLines lines,
      other.startLine < chunk.startLine ∧ chunk.startLine ≤ other.endLine := by
  have scanned := scanned_foldl lines
  rcases scanned.covered chunk.startLine h.startsAt with
    ⟨other, member, behind, upto⟩ | ⟨start, body, opened, behind⟩
  · have listed : other ∈ allOfLines lines := List.mem_reverse.mpr member
    rcases Nat.lt_or_eq_of_le behind with before | same
    · exact Or.inr ⟨other, listed, before, upto⟩
    · rw [← (fenced_of_mem_all listed).unique h same]
      exact Or.inl listed
  · -- The last fence of the chunk would stand behind a start that is still open.
    obtain ⟨⟨before, first, rfl, rfl, -, unfenced⟩, -⟩ := scanned.opened start body opened
    obtain ⟨line, here, ends⟩ := h.endsAt
    have inside := h.startLine_lt
    have member : line ∈ body.reverse := by
      rw [List.getElem?_append_right (by omega), List.getElem?_cons, if_neg (by omega)] at here
      exact List.mem_of_getElem? here
    rw [unfenced line (List.mem_reverse.mp member)] at ends
    cases ends

def around? (document : String) (l : Nat) : Option Chunk :=
  (all document).find? fun chunk => decide (chunk.startLine ≤ l) && decide (l ≤ chunk.endLine)

theorem around?_eq_some_iff (document : String) (l : Nat) (chunk : Chunk) :
    around? document l = some chunk ↔
      chunk ∈ all document ∧ chunk.startLine ≤ l ∧ l ≤ chunk.endLine := by
  unfold around?
  rw [List.find?_eq_some_iff_append]
  simp only [Bool.and_eq_true, decide_eq_true_eq]
  constructor
  · rintro ⟨inside, before, after, whole, -⟩
    refine ⟨?_, inside⟩
    rw [whole]
    exact List.mem_append_right _ List.mem_cons_self
  · rintro ⟨member, inside⟩
    obtain ⟨before, after, whole⟩ := List.append_of_mem member
    refine ⟨inside, before, after, whole, ?_⟩
    -- Every chunk listed before this one ends before it starts, and so before the line.
    intro earlier listed
    have apart := pairwise_all (Text.lines document.toList)
    change (all document).Pairwise _ at apart
    rw [whole] at apart
    have ended := (List.pairwise_append.mp apart).2.2 earlier listed chunk List.mem_cons_self
    have past : ¬ l ≤ earlier.endLine := by omega
    simp [past]

/-- No line inside a chunk, and no fence that ends one, could itself start a chunk. -/
def Plain (document : String) : Prop :=
  ∀ chunk ∈ all document, ∀ place, chunk.startLine < place → place ≤ chunk.endLine →
    ¬ StartsAt (Text.lines document.toList) place

theorem atLine?_eq_around?_iff (document : String) :
    (∀ l < (Text.lines document.toList).length, atLine? document l = around? document l) ↔
      Plain document := by
  constructor
  · intro agree chunk member place behind upto starts
    have here : around? document place = some chunk :=
      (around?_eq_some_iff document place chunk).mpr ⟨member, by omega, upto⟩
    rw [← agree place starts.lt] at here
    obtain ⟨-, -, -, latest⟩ := (atLineOf?_eq_some_iff starts.lt chunk).mp here
    have back := latest place starts (Nat.le_refl place)
    omega
  · intro plain l within
    ext chunk
    rw [around?_eq_some_iff]
    refine (atLineOf?_eq_some_iff within chunk).trans ⟨?_, ?_⟩
    · rintro ⟨fenced, behind, upto, -⟩
      refine ⟨?_, behind, upto⟩
      rcases mem_all_of_fenced fenced with listed | ⟨other, listed, before, inside⟩
      · exact listed
      · exact absurd fenced.startsAt (plain other listed chunk.startLine before inside)
    · rintro ⟨member, behind, upto⟩
      refine ⟨fenced_of_mem_all member, behind, upto, ?_⟩
      intro place starts before
      by_contra later
      exact plain chunk member place (by omega) (by omega) starts

/-- The fence that ends a chunk could start another. -/
def reopened : String :=
  "```r\nx\n```r\ny\n```\n"

theorem atLine?_ne_around?_reopened :
    ¬ ∀ (document : String) (l : Nat), l < (Text.lines document.toList).length →
      atLine? document l = around? document l := by
  intro agree
  have outside : around? reopened 3 = none := by decide +kernel
  have chunk := agree reopened 3 (by decide +kernel)
  rw [outside] at chunk
  exact absurd chunk (by decide +kernel)

end NotebookKernel.Chunk
