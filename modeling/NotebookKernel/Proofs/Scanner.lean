import NotebookKernel.Proofs.Text.Search
import NotebookKernel.Scanner

/-!
# What a scanner has found

However the output was cut into chunks, a scanner has found the sentinel where it first occurs in
all of the output together.
-/

set_option autoImplicit false

namespace NotebookKernel.Scanner

/-- A scanner that has heard some output: it has gathered all of it, and found the first occurrence
of its sentinel, unless that is empty. -/
structure Heard (s : Scanner) (sentinel heard : Bytes) : Prop where
  sought : s.sentinel = sentinel
  gathered : s.buffer.toList = heard
  found : s.foundAt = if sentinel.isEmpty then none else Search.firstIndex sentinel heard

theorem heard_nothing (sentinel : Bytes) : Heard ⟨sentinel, #[], none⟩ sentinel [] := by
  refine ⟨rfl, rfl, ?_⟩
  show none = _
  by_cases h : sentinel.isEmpty = true
  · rw [if_pos h]
  · rw [if_neg h, Search.firstIndex, Search.firstIndexFrom, if_neg h]

theorem heard_new (sentinel : String) : (new sentinel).Heard (Utf8.ofString sentinel) [] :=
  heard_nothing _

private theorem toList_window (buffer : Array UInt8) (start : Nat) :
    (buffer.extract start buffer.size).toList = buffer.toList.drop start := by
  simp only [Array.toList_extract, List.extract]
  apply List.take_of_length_le
  rw [List.length_drop, Array.length_toList]

theorem Heard.push {s : Scanner} {sentinel heard : Bytes} (h : s.Heard sentinel heard)
    (chunk : Bytes) : (s.push chunk).Heard sentinel (heard ++ chunk) := by
  obtain ⟨sought, buffer, foundAt⟩ := s
  obtain ⟨rfl, rfl, found⟩ := h
  cases foundAt with
  | some index =>
    refine ⟨rfl, Array.toList_appendList, ?_⟩
    show some index = _
    by_cases blank : sought.isEmpty = true
    · rw [if_pos blank] at found
      exact absurd found (by simp)
    · rw [if_neg blank] at found ⊢
      have first := (Search.firstIndex_eq_some_iff _ _ _).mp found.symm
      exact ((Search.firstIndex_eq_some_iff _ _ _).mpr (first.append chunk)).symm
  | none =>
    refine ⟨rfl, Array.toList_appendList, ?_⟩
    show (if sought.isEmpty then none else _) = _
    by_cases blank : sought.isEmpty = true
    · rw [if_pos blank, if_pos blank]
    · rw [if_neg blank] at found
      have absent : Search.Absent sought buffer.toList :=
        (Search.firstIndex_eq_none_iff _ _).mp found.symm
      have size : buffer.size = buffer.toList.length := Array.length_toList.symm
      rw [if_neg blank, if_neg blank, toList_window, size, Array.toList_appendList]
      exact Search.firstIndexFrom_append absent chunk

theorem heard_foldl {s : Scanner} {sentinel heard : Bytes} (h : s.Heard sentinel heard)
    (chunks : List Bytes) : (chunks.foldl push s).Heard sentinel (heard ++ chunks.flatten) := by
  induction chunks generalizing s heard with
  | nil => simpa using h
  | cons chunk chunks ih =>
    have rest := ih (h.push chunk)
    rw [List.append_assoc] at rest
    exact rest

theorem Heard.isFound_iff {s : Scanner} {sentinel heard : Bytes} (h : s.Heard sentinel heard)
    (nonempty : sentinel ≠ []) : s.isFound = true ↔ sentinel <:+: heard := by
  rw [isFound, h.found, if_neg (by simpa using nonempty)]
  exact Search.isSome_firstIndex_iff sentinel heard

theorem Heard.take_eq_some {s : Scanner} {sentinel heard : Bytes} (h : s.Heard sentinel heard)
    (text : String) :
    s.take.1 = some text ↔ sentinel ≠ [] ∧ ∃ i, Search.FirstAt sentinel heard i ∧
      text = String.ofList (Utf8.decodeLossy (heard.take i)) := by
  rw [take, h.found, h.gathered.symm]
  by_cases blank : sentinel = []
  · simp [blank]
  · rw [if_neg (by simpa using blank)]
    cases first : Search.firstIndex sentinel s.buffer.toList with
    | none =>
      have absent := (Search.firstIndex_eq_none_iff _ _).mp first
      simp only [reduceCtorEq, false_iff, not_and, not_exists]
      intro _ i found
      exact absurd found.1 (absent i)
    | some index =>
      have found := (Search.firstIndex_eq_some_iff _ _ _).mp first
      simp only [Array.toList_extract, List.extract, Nat.sub_zero, List.drop_zero,
        Option.some.injEq]
      constructor
      · rintro rfl
        exact ⟨blank, index, found, rfl⟩
      · rintro ⟨-, i, other, rfl⟩
        rw [found.unique other]

end NotebookKernel.Scanner
