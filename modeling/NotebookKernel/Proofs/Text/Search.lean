import Mathlib.Data.List.Infix
import NotebookKernel.Text.Search

/-!
# First occurrences

What the search for a first occurrence finds, and what of it stays when more text follows. An
occurrence that needs the new text begins near the end of the old one, so that a search that goes on
there finds what a search from the start would find.
-/

set_option autoImplicit false

namespace NotebookKernel.Search

variable {α : Type}

/-- The first occurrence of `needle` in `hay` is at `i`. -/
def FirstAt (needle hay : List α) (i : Nat) : Prop :=
  needle <+: hay.drop i ∧ ∀ j < i, ¬ needle <+: hay.drop j

/-- There is no occurrence of `needle` in `hay`. -/
def Absent (needle hay : List α) : Prop :=
  ∀ j, ¬ needle <+: hay.drop j

theorem FirstAt.unique {needle hay : List α} {i j : Nat} (hi : FirstAt needle hay i)
    (hj : FirstAt needle hay j) : i = j := by
  rcases Nat.lt_trichotomy i j with h | h | h
  · exact absurd hi.1 (hj.2 i h)
  · exact h
  · exact absurd hj.1 (hi.2 j h)

private theorem prefix_drop_append {needle hay : List α} (more : List α) {j : Nat}
    (h : needle <+: hay.drop j) : needle <+: (hay ++ more).drop j := by
  rw [List.drop_append]
  exact h.trans (List.prefix_append _ _)

private theorem prefix_drop_of_append {needle hay more : List α} {j : Nat}
    (room : j + needle.length ≤ hay.length) (h : needle <+: (hay ++ more).drop j) :
    needle <+: hay.drop j := by
  rw [List.drop_append_of_le_length (by omega)] at h
  refine List.prefix_of_prefix_length_le h (List.prefix_append _ _) ?_
  rw [List.length_drop]
  omega

theorem FirstAt.room {needle hay : List α} {i : Nat} (h : FirstAt needle hay i) :
    i + needle.length ≤ hay.length ∨ i = 0 := by
  have short := h.1.length_le
  rw [List.length_drop] at short
  by_cases hi : i ≤ hay.length
  · omega
  · -- Behind the end only an empty text occurs, and that occurs at the front already.
    have empty : needle = [] := List.eq_nil_of_length_eq_zero (by omega)
    by_contra far
    rw [not_or] at far
    refine absurd ?_ (h.2 0 (by omega))
    rw [empty]
    exact List.nil_prefix

theorem FirstAt.append {needle hay : List α} {i : Nat} (h : FirstAt needle hay i)
    (more : List α) : FirstAt needle (hay ++ more) i := by
  refine ⟨prefix_drop_append more h.1, ?_⟩
  intro j hj later
  rcases h.room with room | rfl
  · exact h.2 j hj (prefix_drop_of_append (by omega) later)
  · omega

theorem FirstAt.of_prefix {needle hay whole : List α} {i : Nat} (h : FirstAt needle hay i)
    (part : hay <+: whole) : FirstAt needle whole i ∧ whole.take i = hay.take i := by
  obtain ⟨more, rfl⟩ := part
  refine ⟨h.append more, ?_⟩
  have inside : i ≤ hay.length := by
    rcases h.room with room | rfl
    · omega
    · exact Nat.zero_le _
  rw [List.take_append_of_le_length inside]

/-- A new occurrence begins among the last places of the old text, too late to be complete there. -/
theorem Absent.le_of_append {needle hay more : List α} (h : Absent needle hay) {j : Nat}
    (later : needle <+: (hay ++ more).drop j) : hay.length - (needle.length - 1) ≤ j := by
  by_contra early
  refine h j (prefix_drop_of_append ?_ later)
  omega

theorem Absent.firstAt_append_iff {needle hay more : List α} (h : Absent needle hay) (i : Nat) :
    FirstAt needle (hay ++ more) (hay.length - (needle.length - 1) + i) ↔
      FirstAt needle ((hay ++ more).drop (hay.length - (needle.length - 1))) i := by
  constructor
  · intro found
    refine ⟨?_, ?_⟩
    · rw [List.drop_drop]
      exact found.1
    · intro j hj before
      rw [List.drop_drop] at before
      exact found.2 _ (by omega) before
  · intro found
    refine ⟨?_, ?_⟩
    · have here := found.1
      rw [List.drop_drop] at here
      exact here
    · intro j hj before
      have late := h.le_of_append before
      refine found.2 (j - (hay.length - (needle.length - 1))) (by omega) ?_
      rw [List.drop_drop, Nat.add_sub_cancel' late]
      exact before

section Decidable

variable [BEq α] [LawfulBEq α]

theorem firstIndexFrom_eq_some_iff (needle hay : List α) (offset index : Nat) :
    firstIndexFrom needle offset hay = some index ↔
      ∃ i, index = offset + i ∧ FirstAt needle hay i := by
  induction hay generalizing offset with
  | nil =>
    cases needle with
    | nil =>
      simp only [firstIndexFrom, List.isEmpty_nil, if_true, Option.some.injEq]
      constructor
      · rintro rfl
        exact ⟨0, rfl, List.nil_prefix, fun j hj => absurd hj (Nat.not_lt_zero j)⟩
      · rintro ⟨i, rfl, found⟩
        have first : i = 0 := by
          by_contra hi
          exact found.2 0 (by omega) List.nil_prefix
        omega
    | cons a needle =>
      simp [firstIndexFrom, FirstAt]
  | cons a hay ih =>
    rw [firstIndexFrom]
    by_cases here : needle <+: a :: hay
    · rw [if_pos (List.isPrefixOf_iff_prefix.mpr here), Option.some.injEq]
      constructor
      · rintro rfl
        exact ⟨0, rfl, here, fun j hj => absurd hj (Nat.not_lt_zero j)⟩
      · rintro ⟨i, rfl, found⟩
        have first : i = 0 := by
          by_contra hi
          exact found.2 0 (by omega) here
        omega
    · rw [if_neg (fun h => here (List.isPrefixOf_iff_prefix.mp h)), ih]
      constructor
      · rintro ⟨i, rfl, found⟩
        refine ⟨i + 1, by omega, found.1, ?_⟩
        intro j hj
        cases j with
        | zero => exact here
        | succ j => exact found.2 j (by omega)
      · rintro ⟨i, rfl, found⟩
        cases i with
        | zero => exact absurd found.1 here
        | succ i =>
          refine ⟨i, by omega, found.1, ?_⟩
          intro j hj
          exact found.2 (j + 1) (by omega)

theorem firstIndex_eq_some_iff (needle hay : List α) (index : Nat) :
    firstIndex needle hay = some index ↔ FirstAt needle hay index := by
  rw [firstIndex, firstIndexFrom_eq_some_iff]
  simp

theorem firstIndex_eq_none_iff (needle hay : List α) :
    firstIndex needle hay = none ↔ Absent needle hay := by
  constructor
  · intro missing j occurs
    induction j using Nat.strong_induction_on with
    | h j ih =>
      have first : FirstAt needle hay j := ⟨occurs, fun k hk => ih k hk⟩
      rw [(firstIndex_eq_some_iff needle hay j).mpr first] at missing
      exact absurd missing (by simp)
  · intro absent
    cases found : firstIndex needle hay with
    | none => rfl
    | some i => exact absurd ((firstIndex_eq_some_iff needle hay i).mp found).1 (absent i)

theorem isSome_firstIndex_iff (needle hay : List α) :
    (firstIndex needle hay).isSome = true ↔ needle <:+: hay := by
  constructor
  · intro some
    obtain ⟨index, found⟩ := Option.isSome_iff_exists.mp some
    have first := (firstIndex_eq_some_iff needle hay index).mp found
    exact first.1.isInfix.trans (List.drop_suffix index hay).isInfix
  · intro inside
    by_contra missing
    have absent := (firstIndex_eq_none_iff needle hay).mp (by simpa using missing)
    obtain ⟨before, after, rfl⟩ := inside
    refine absent before.length ?_
    rw [List.append_assoc, List.drop_left]
    exact List.prefix_append needle after

theorem infix_iff_exists_firstAt (needle hay : List α) :
    needle <:+: hay ↔ ∃ i, FirstAt needle hay i := by
  rw [← isSome_firstIndex_iff, Option.isSome_iff_exists]
  exact exists_congr fun i => firstIndex_eq_some_iff needle hay i

/-- A search that goes on near the end of the old text finds what a search from the start finds. -/
theorem firstIndexFrom_append {needle hay : List α} (absent : Absent needle hay)
    (more : List α) :
    firstIndexFrom needle (hay.length - (needle.length - 1))
        ((hay ++ more).drop (hay.length - (needle.length - 1))) =
      firstIndex needle (hay ++ more) := by
  refine Option.ext ?_
  intro index
  rw [firstIndexFrom_eq_some_iff, firstIndex_eq_some_iff]
  constructor
  · rintro ⟨i, rfl, found⟩
    exact (absent.firstAt_append_iff i).mpr found
  · intro found
    have late := absent.le_of_append found.1
    refine ⟨index - (hay.length - (needle.length - 1)), by omega, ?_⟩
    rw [← absent.firstAt_append_iff, Nat.add_sub_cancel' late]
    exact found

end Decidable

section Replacement

variable [BEq α] (needle replacement : List α)

theorem replaceFrom_eq (skip : Nat) (done hay : List α) :
    replaceFrom needle replacement skip done hay =
      done.reverse ++ replaceAll needle replacement (hay.drop skip) := by
  induction hay generalizing skip done with
  | nil => simp [replaceAll, replaceFrom]
  | cons a hay ih =>
    cases skip with
    | succ skip =>
      rw [replaceFrom, if_pos (Nat.succ_pos skip), Nat.add_sub_cancel, ih, List.drop_succ_cons]
    | zero =>
      rw [List.drop_zero, replaceAll, replaceFrom, replaceFrom]
      by_cases here : needle.isPrefixOf (a :: hay) = true
      · simp [here, ih]
      · simp [here, ih]

theorem replaceAll_nil : replaceAll needle replacement [] = [] := rfl

theorem replaceAll_cons_of_ne (a : α) (hay : List α) (other : ¬ needle.isPrefixOf (a :: hay) = true) :
    replaceAll needle replacement (a :: hay) = a :: replaceAll needle replacement hay := by
  rw [replaceAll, replaceFrom, if_neg (Nat.lt_irrefl 0), if_neg other, replaceFrom_eq]
  rfl

variable [LawfulBEq α]

theorem replaceAll_append_self (nonempty : needle ≠ []) (after : List α) :
    replaceAll needle replacement (needle ++ after) =
      replacement ++ replaceAll needle replacement after := by
  cases needle with
  | nil => exact absurd rfl nonempty
  | cons a needle =>
    have here : (a :: needle).isPrefixOf (a :: (needle ++ after)) = true :=
      List.isPrefixOf_iff_prefix.mpr (List.prefix_append (a :: needle) after)
    rw [List.cons_append, replaceAll, replaceFrom, if_neg (Nat.lt_irrefl 0), if_pos here,
      replaceFrom_eq, List.length_cons, Nat.add_sub_cancel, List.drop_left]
    simp

theorem replaceAll_append_of_absent {text after : List α}
    (absent : ∀ j < text.length, ¬ needle <+: (text ++ after).drop j) :
    replaceAll needle replacement (text ++ after) =
      text ++ replaceAll needle replacement after := by
  induction text with
  | nil => rfl
  | cons a text ih =>
    have other : ¬ needle.isPrefixOf (a :: (text ++ after)) = true := fun here =>
      absent 0 (Nat.succ_pos _) (List.isPrefixOf_iff_prefix.mp here)
    rw [List.cons_append, replaceAll_cons_of_ne _ _ _ _ other, List.cons_append,
      ih fun j below => absent (j + 1) (Nat.succ_lt_succ below)]

end Replacement

end NotebookKernel.Search
