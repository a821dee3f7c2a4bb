import NotebookKernel.Text.Numeral

/-!
# What numerals denote

A numeral is a run of digits with at most one plus sign before it. The reader accepts the numerals
whose value is below its bound, with that value, and nothing else.
-/

set_option autoImplicit false

namespace NotebookKernel.Text

/-- A text is a numeral for a number: digits, at least one, with at most one plus sign before
them. -/
def IsNumeral (text : List Char) (value : Nat) : Prop :=
  ∃ digits, (text = digits ∨ text = '+' :: digits) ∧ digits ≠ [] ∧
    (∀ c ∈ digits, c.isDigit = true) ∧ Nat.ofDigitChars 10 digits 0 = value

private theorem digitValue?_of_isDigit {c : Char} (h : c.isDigit = true) :
    digitValue? c = some (c.toNat - '0'.toNat) := by
  have bounds : '0' ≤ c ∧ c ≤ '9' := by
    rw [Char.isDigit_iff_toNat] at h
    exact h
  rw [digitValue?, if_pos bounds]

private theorem digitValue?_of_not_isDigit {c : Char} (h : ¬ c.isDigit = true) :
    digitValue? c = none := by
  have bounds : ¬ ('0' ≤ c ∧ c ≤ '9') := by
    rw [Char.isDigit_iff_toNat] at h
    exact h
  rw [digitValue?, if_neg bounds]

theorem le_ofDigitChars (digits : List Char) (n : Nat) :
    n ≤ Nat.ofDigitChars 10 digits n := by
  rw [Nat.ofDigitChars_eq_ofDigitChars_zero]
  have := Nat.le_mul_of_pos_left n (Nat.pow_pos (n := digits.length) (show 0 < 10 by decide))
  omega

private theorem foldl_extendNumeral_none (bound : Nat) (digits : List Char) :
    digits.foldl (extendNumeral bound) none = none := by
  induction digits with
  | nil => rfl
  | cons c digits ih => exact ih

private theorem foldl_extendNumeral {bound m n : Nat} {digits : List Char} (h : m < bound) :
    digits.foldl (extendNumeral bound) (some m) = some n ↔
      (∀ c ∈ digits, c.isDigit = true) ∧ Nat.ofDigitChars 10 digits m = n ∧ n < bound := by
  induction digits generalizing m with
  | nil =>
    simp only [List.foldl_nil, Option.some.injEq, Nat.ofDigitChars_nil]
    constructor
    · rintro rfl
      exact ⟨by simp, rfl, h⟩
    · exact fun found => found.2.1
  | cons c digits ih =>
    rw [List.foldl_cons, Nat.ofDigitChars_cons, Nat.mul_comm]
    by_cases digit : c.isDigit = true
    · simp only [extendNumeral, digitValue?_of_isDigit digit]
      by_cases below : m * 10 + (c.toNat - '0'.toNat) < bound
      · rw [if_pos below, ih below]
        simp [digit]
      · rw [if_neg below, foldl_extendNumeral_none]
        constructor
        · intro found
          cases found
        · rintro ⟨-, rfl, fits⟩
          have := le_ofDigitChars digits (m * 10 + (c.toNat - '0'.toNat))
          omega
    · simp only [extendNumeral, digitValue?_of_not_isDigit digit, foldl_extendNumeral_none]
      constructor
      · intro found
        cases found
      · intro found
        exact absurd (found.1 c List.mem_cons_self) digit

private theorem readDigits?_eq_some_iff {bound n : Nat} {digits : List Char} (h : 0 < bound) :
    readDigits? bound digits = some n ↔
      digits ≠ [] ∧ (∀ c ∈ digits, c.isDigit = true) ∧ Nat.ofDigitChars 10 digits 0 = n ∧
        n < bound := by
  rw [readDigits?, ← foldl_extendNumeral h]
  cases digits with
  | nil => simp
  | cons c digits => simp

theorem readNumeral?_eq_some_iff {bound n : Nat} {text : List Char} (h : 0 < bound) :
    readNumeral? bound text = some n ↔ IsNumeral text n ∧ n < bound := by
  unfold readNumeral?
  split
  · rename_i digits
    rw [readDigits?_eq_some_iff h]
    constructor
    · rintro ⟨some, all, value, below⟩
      exact ⟨⟨digits, .inr rfl, some, all, value⟩, below⟩
    · rintro ⟨⟨found, cut | cut, some, all, value⟩, below⟩
      · have := all '+' (by rw [← cut]; exact List.mem_cons_self)
        cases this
      · cases cut
        exact ⟨some, all, value, below⟩
  · rename_i bare
    rw [readDigits?_eq_some_iff h]
    constructor
    · rintro ⟨some, all, value, below⟩
      exact ⟨⟨text, .inl rfl, some, all, value⟩, below⟩
    · rintro ⟨⟨found, rfl | rfl, some, all, value⟩, below⟩
      · exact ⟨some, all, value, below⟩
      · exact absurd rfl (bare found)

theorem IsNumeral.unique {text : List Char} {m n : Nat} (hm : IsNumeral text m)
    (hn : IsNumeral text n) : m = n := by
  have bound : 0 < m + n + 1 := Nat.succ_pos _
  have first : readNumeral? (m + n + 1) text = some m :=
    (readNumeral?_eq_some_iff bound).mpr ⟨hm, by omega⟩
  have second : readNumeral? (m + n + 1) text = some n :=
    (readNumeral?_eq_some_iff bound).mpr ⟨hn, by omega⟩
  exact Option.some.inj (first.symm.trans second)

private theorem ofDigitChars_lt {digits : List Char} (all : ∀ c ∈ digits, c.isDigit = true)
    (n : Nat) : Nat.ofDigitChars 10 digits n < (n + 1) * Nat.pow 10 digits.length := by
  induction digits generalizing n with
  | nil => simp
  | cons c digits ih =>
    obtain ⟨low, high⟩ : 48 ≤ c.toNat ∧ c.toNat ≤ 57 :=
      Char.isDigit_iff_toNat.mp (all c List.mem_cons_self)
    have zero : '0'.toNat = 48 := rfl
    have next : 10 * n + (c.toNat - '0'.toNat) + 1 ≤ (n + 1) * 10 := by omega
    calc Nat.ofDigitChars 10 (c :: digits) n
        = Nat.ofDigitChars 10 digits (10 * n + (c.toNat - '0'.toNat)) := Nat.ofDigitChars_cons
      _ < (10 * n + (c.toNat - '0'.toNat) + 1) * Nat.pow 10 digits.length :=
        ih (fun d hd => all d (List.mem_cons_of_mem _ hd)) _
      _ ≤ (n + 1) * 10 * Nat.pow 10 digits.length := Nat.mul_le_mul_right _ next
      _ = (n + 1) * Nat.pow 10 (c :: digits).length := by
        rw [Nat.mul_assoc, Nat.mul_comm 10]
        rfl

theorem IsNumeral.lt_pow {text : List Char} {n : Nat} (h : IsNumeral text n) :
    n < Nat.pow 10 text.length := by
  obtain ⟨digits, spelt, -, all, rfl⟩ := h
  have below := ofDigitChars_lt all 0
  rw [Nat.zero_add, Nat.one_mul] at below
  have longer : digits.length ≤ text.length := by
    rcases spelt with rfl | rfl <;> simp
  exact Nat.lt_of_lt_of_le below (Nat.pow_le_pow_right (by decide) longer)

theorem readNumeral?_of_isNumeral {bound n : Nat} {text : List Char} (h : 0 < bound)
    (numeral : IsNumeral text n) :
    readNumeral? bound text = if n < bound then some n else none := by
  by_cases below : n < bound
  · rw [if_pos below, readNumeral?_eq_some_iff h]
    exact ⟨numeral, below⟩
  · rw [if_neg below, Option.eq_none_iff_forall_ne_some]
    intro m found
    obtain ⟨other, fits⟩ := (readNumeral?_eq_some_iff h).mp found
    exact below (numeral.unique other ▸ fits)

theorem isDigit_of_mem_toDigits {n : Nat} {c : Char} (h : c ∈ Nat.toDigits 10 n) :
    c.isDigit = true :=
  Nat.isDigit_of_mem_toDigits (by decide) (by decide) h

theorem isNumeral_toDigits (n : Nat) : IsNumeral (Nat.toDigits 10 n) n :=
  ⟨_, .inl rfl, Nat.toDigits_ne_nil, fun _ => isDigit_of_mem_toDigits,
    Nat.ofDigitChars_ten_toDigits⟩

theorem eq_of_toDigits_eq {m n : Nat} (same : Nat.toDigits 10 m = Nat.toDigits 10 n) : m = n := by
  have numeral := isNumeral_toDigits m
  rw [same] at numeral
  exact numeral.unique (isNumeral_toDigits n)

theorem toList_toString (i : Int) :
    (toString i).toList = (if i < 0 then ['-'] else []) ++ Nat.toDigits 10 i.natAbs := by
  rw [Int.toString_eq_repr, Int.repr_eq_if]
  by_cases negative : i < 0
  · have same : (-i).toNat = i.natAbs := by omega
    rw [if_pos negative, if_neg (Int.not_le.mpr negative), String.toList_append, Nat.toList_repr,
      same]
    rfl
  · have same : i.toNat = i.natAbs := by omega
    rw [if_neg negative, if_pos (Int.not_lt.mp negative), Nat.toList_repr, same]
    rfl

end NotebookKernel.Text
