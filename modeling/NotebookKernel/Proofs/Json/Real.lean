import NotebookKernel.Proofs.Decimal.Shortest
import NotebookKernel.Proofs.Json.Number

/-!
# Doubles as written

A finite double is written as a number with a fraction or an exponent that is rounded to it.
-/

set_option autoImplicit false

namespace NotebookKernel.Json

def digitsValue (digits : List Nat) : Nat :=
  digits.foldl (fun n d => 10 * n + d) 0

def NumberText.power (text : NumberText) : Int :=
  match text.exponent with
  | none => 0
  | some (negative, digits) => if negative then -(digitsValue digits : Int) else digitsValue digits

/-- The number that is written, whatever its sign. -/
def NumberText.size (text : NumberText) : ℚ :=
  digitsValue (text.whole ++ text.fraction.getD []) *
    10 ^ (text.power - (text.fraction.getD []).length)

theorem digitsValue_figureValues (digits : List Char) :
    digitsValue (figureValues digits) = Nat.ofDigitChars 10 digits 0 := by
  rw [digitsValue, figureValues, List.foldl_map, Nat.ofDigitChars_eq_foldl]

theorem Spelling.size_text (s : Spelling) :
    s.text.size = Nat.ofDigitChars 10 (s.whole ++ s.fraction.getD []) 0 *
      10 ^ (s.text.power - (s.fraction.getD []).length) := by
  obtain ⟨negative, whole, fraction, exponent⟩ := s
  rw [NumberText.size, ← digitsValue_figureValues]
  cases fraction <;> simp [Spelling.text, figureValues]

private theorem size_eq {whole : List Char} {fraction : Option (List Char)} {n : Nat} {places : Int}
    (value : (Nat.ofDigitChars 10 (whole ++ fraction.getD []) 0 : ℚ) *
      10 ^ (-((fraction.getD []).length : Int)) = n * 10 ^ places)
    {negative : Bool} {exponent : Option (Bool × List Char)} {power : Int}
    (scaled : (Spelling.text ⟨negative, whole, fraction, exponent⟩).power = power) :
    (Spelling.text ⟨negative, whole, fraction, exponent⟩).size = n * 10 ^ (places + power) := by
  rw [Spelling.size_text, scaled, zpow_add₀ (by norm_num), ← mul_assoc, ← value, mul_assoc,
    ← zpow_add₀ (by norm_num), Int.sub_eq_add_neg, Int.add_comm]

private theorem isDigit_zeros {count : Nat} : ∀ c ∈ List.replicate count '0', c.isDigit = true := by
  intro c member
  rw [List.eq_of_mem_replicate member]
  rfl

private theorem isWhole_of_toDigits {n : Nat} (positive : n ≠ 0) {front : List Char}
    (shape : front <+: Nat.toDigits 10 n) (some : front ≠ []) (behind : List Char)
    (each : ∀ c ∈ behind, c.isDigit = true) : IsWhole (front ++ behind) := by
  have digits : ∀ c ∈ front, c.isDigit = true :=
    fun c member => Text.isDigit_of_mem_toDigits (shape.subset member)
  refine ⟨List.append_ne_nil_of_left_ne_nil some behind,
    List.forall_mem_append.mpr ⟨digits, each⟩, ?_⟩
  intro zero
  obtain ⟨rest, whole⟩ := shape
  rw [List.head?_append_of_ne_nil _ some] at zero
  rw [← List.head?_append_of_ne_nil front some, whole] at zero
  exact absurd (head?_toDigits zero) positive

/-- A number is written around a point, with digits on either side. -/
private structure Pointed (n : Nat) (power : Int) (whole fraction : List Char) : Prop where
  proper : IsWhole whole
  present : fraction ≠ []
  each : ∀ c ∈ fraction, c.isDigit = true
  value : (Nat.ofDigitChars 10 (whole ++ fraction) 0 : ℚ) * 10 ^ (-(fraction.length : Int)) =
    n * 10 ^ power

section Point

variable {n : Nat} {places : Int}

private theorem pointed_small (n : Nat) (small : places ≤ 0) :
    Pointed n (places - (Nat.toDigits 10 n).length) ['0']
      (List.replicate (-places).toNat '0' ++ Nat.toDigits 10 n) where
  proper := isWhole_toDigits 0
  present := List.append_ne_nil_of_right_ne_nil _ Nat.toDigits_ne_nil
  each := List.forall_mem_append.mpr ⟨isDigit_zeros, fun _ => Text.isDigit_of_mem_toDigits⟩
  value := by
    rw [← List.append_assoc, Nat.ofDigitChars_append, Nat.ofDigitChars_append,
      Nat.ofDigitChars_replicate_zero]
    show ((Nat.ofDigitChars 10 (Nat.toDigits 10 n) (10 ^ (-places).toNat * 0) : Nat) : ℚ) * _ = _
    rw [Nat.mul_zero, Nat.ofDigitChars_ten_toDigits, List.length_append, List.length_replicate]
    congr 2
    omega

private theorem pointed_filled (positive : n ≠ 0)
    (filled : (Nat.toDigits 10 n).length ≤ places.toNat) :
    Pointed n (places - (Nat.toDigits 10 n).length)
      (Nat.toDigits 10 n ++ List.replicate (places.toNat - (Nat.toDigits 10 n).length) '0')
      ['0'] where
  proper := isWhole_of_toDigits positive (List.prefix_refl _) Nat.toDigits_ne_nil _ isDigit_zeros
  present := List.cons_ne_nil _ _
  each := List.forall_mem_singleton.mpr rfl
  value := by
    rw [List.append_assoc, ← List.replicate_succ', Nat.ofDigitChars_append,
      Nat.ofDigitChars_ten_toDigits, Nat.ofDigitChars_replicate_zero]
    obtain ⟨more, grown⟩ : ∃ more : Nat, places.toNat = (Nat.toDigits 10 n).length + more :=
      ⟨_, (Nat.add_sub_of_le filled).symm⟩
    have some : 0 < (Nat.toDigits 10 n).length := List.length_pos_iff.mpr Nat.toDigits_ne_nil
    have scaled : places - (Nat.toDigits 10 n).length = (more : Int) := by omega
    rw [scaled, grown, Nat.add_sub_cancel_left, zpow_natCast]
    push_cast
    rw [List.length_singleton, Nat.cast_one, zpow_neg_one, pow_succ]
    field_simp

private theorem pointed_inside (positive : n ≠ 0) (large : 0 < places)
    (inside : places.toNat < (Nat.toDigits 10 n).length) :
    Pointed n (places - (Nat.toDigits 10 n).length) ((Nat.toDigits 10 n).take places.toNat)
      ((Nat.toDigits 10 n).drop places.toNat) where
  proper := by
    have some : (Nat.toDigits 10 n).take places.toNat ≠ [] := by
      rw [ne_eq, List.take_eq_nil_iff]
      exact fun either => either.elim (fun zero => absurd zero (by omega)) Nat.toDigits_ne_nil
    have whole := isWhole_of_toDigits positive (List.take_prefix _ _) some [] nofun
    rwa [List.append_nil] at whole
  present := by
    rw [ne_eq, List.drop_eq_nil_iff]
    exact Nat.not_le.mpr inside
  each := fun _ member => Text.isDigit_of_mem_toDigits (List.mem_of_mem_drop member)
  value := by
    rw [List.take_append_drop, Nat.ofDigitChars_ten_toDigits, List.length_drop]
    congr 2
    omega

private theorem exists_positional (positive : n ≠ 0) (places : Int) (ending : String)
    (ends : ending = ".0" ∨ places < (Nat.toDigits 10 n).length) :
    ∃ whole fraction, (Decimal.positional (toString n) places ending).toList =
        whole ++ '.' :: fraction ∧
      Pointed n (places - (Nat.toDigits 10 n).length) whole fraction := by
  have text : (toString n).toList = Nat.toDigits 10 n := by
    rw [Nat.toString_eq_repr, Nat.toList_repr]
  have length : (toString n).length = (Nat.toDigits 10 n).length := by
    rw [← String.length_toList, text]
  rw [Decimal.positional, length]
  by_cases small : places ≤ 0
  · refine ⟨_, _, ?_, pointed_small n small⟩
    rw [if_pos small]
    simp [Decimal.zeros]
  by_cases filled : (Nat.toDigits 10 n).length ≤ places.toNat
  · obtain rfl : ending = ".0" := by
      rcases ends with same | short
      · exact same
      · omega
    refine ⟨_, _, ?_, pointed_filled positive filled⟩
    rw [if_neg small, if_pos filled]
    simp [Decimal.zeros]
  · refine ⟨_, _, ?_, pointed_inside positive (by omega) (by omega)⟩
    rw [if_neg small, if_neg filled]
    simp

end Point

/-- A spelling writes a magnitude: with a fraction or an exponent, as a number that is rounded to
it. -/
structure Spelling.Writes (s : Spelling) (text : String) (rank : Nat) : Prop where
  proper : s.Proper
  chars : s.chars = (if s.negative then ['-'] else []) ++ text.toList
  marked : s.fraction ≠ none ∨ s.exponent ≠ none
  nearest : Binary64.Nearest s.text.size rank

private theorem proper_some {text : List Char} (present : text ≠ [])
    (each : ∀ c ∈ text, c.isDigit = true) :
    ∀ f ∈ some text, f ≠ [] ∧ ∀ c ∈ f, c.isDigit = true := by
  rintro _ ⟨⟩
  exact ⟨present, each⟩

private theorem proper_plain {whole fraction : List Char} (negative : Bool)
    (proper : IsWhole whole) (present : fraction ≠ []) (each : ∀ c ∈ fraction, c.isDigit = true) :
    Spelling.Proper ⟨negative, whole, some fraction, none⟩ := by
  refine ⟨proper, proper_some present each, ?_⟩
  intro e member
  cases member

private theorem writes_zero (negative : Bool) :
    Spelling.Writes ⟨negative, ['0'], some ['0'], none⟩ "0.0" 0 := by
  have zero : (Spelling.text ⟨negative, ['0'], some ['0'], none⟩).size = Binary64.magnitude 0 := by
    rw [Spelling.size_text, Binary64.magnitude_zero]
    show ((0 : Nat) : ℚ) * _ = 0
    rw [Nat.cast_zero, zero_mul]
  refine ⟨proper_plain negative (isWhole_toDigits 0) (List.cons_ne_nil _ _)
    (List.forall_mem_singleton.mpr rfl), rfl, Or.inl (Option.some_ne_none _), ?_⟩
  rw [zero]
  exact Binary64.nearest_magnitude (by decide)

private theorem length_text (n : Decimal.Numeral) :
    n.text.length = (Nat.toDigits 10 n.digits).length := by
  rw [Decimal.Numeral.text, ← String.length_toList, Nat.toString_eq_repr, Nat.toList_repr]

private theorem exists_plain {n : Decimal.Numeral} {rank : Nat} (digits : n.digits ≠ 0)
    (nearest : Binary64.Nearest n.value rank) (negative : Bool) : ∃ s : Spelling,
      s.negative = negative ∧ s.Writes (Decimal.positional n.text n.places ".0") rank := by
  obtain ⟨whole, fraction, chars, pointed⟩ :=
    exists_positional digits n.places ".0" (Or.inl rfl)
  refine ⟨⟨negative, whole, some fraction, none⟩, rfl,
    proper_plain negative pointed.proper pointed.present pointed.each, ?_,
    Or.inl (Option.some_ne_none _), ?_⟩
  · rw [Decimal.Numeral.text, chars]
    simp [Spelling.chars]
  · rw [size_eq pointed.value (show _ = (0 : Int) from rfl), Decimal.Numeral.places, length_text]
    rw [Decimal.Numeral.value] at nearest
    convert nearest using 3
    omega

/-- The digits before an exponent stand for a number with one digit before the point. -/
private theorem exists_mantissa {n : Decimal.Numeral} (digits : n.digits ≠ 0) :
    ∃ (whole : List Char) (fraction : Option (List Char)),
      (if n.text.length = 1 then n.text else Decimal.positional n.text 1 "").toList =
        whole ++ fraction.elim [] ('.' :: ·) ∧
      IsWhole whole ∧ (∀ f ∈ fraction, f ≠ [] ∧ ∀ c ∈ f, c.isDigit = true) ∧
      (Nat.ofDigitChars 10 (whole ++ fraction.getD []) 0 : ℚ) *
        10 ^ (-((fraction.getD []).length : Int)) =
          n.digits * 10 ^ (1 - (n.text.length : Int)) := by
  by_cases single : n.text.length = 1
  · refine ⟨Nat.toDigits 10 n.digits, none, ?_, isWhole_toDigits _, ?_, ?_⟩
    · rw [if_pos single, Decimal.Numeral.text, Nat.toString_eq_repr, Nat.toList_repr]
      exact (List.append_nil _).symm
    · intro f member
      cases member
    · rw [single, Option.getD_none, List.append_nil, Nat.ofDigitChars_ten_toDigits]
      rfl
  · have several : (1 : Int) < (Nat.toDigits 10 n.digits).length := by
      have present := List.length_pos_iff.mpr (@Nat.toDigits_ne_nil n.digits 10)
      rw [length_text] at single
      omega
    obtain ⟨whole, fraction, chars, pointed⟩ := exists_positional digits 1 "" (Or.inr several)
    refine ⟨whole, some fraction, ?_, pointed.proper, proper_some pointed.present pointed.each, ?_⟩
    · rw [if_neg single, Decimal.Numeral.text, chars]
      rfl
    · rw [length_text]
      exact pointed.value

private theorem exists_scaled {n : Decimal.Numeral} {rank : Nat} (digits : n.digits ≠ 0)
    (nearest : Binary64.Nearest n.value rank) (negative : Bool) : ∃ s : Spelling,
      s.negative = negative ∧
        s.Writes ((if n.text.length = 1 then n.text else Decimal.positional n.text 1 "") ++
          (if n.places - 1 < 0 then "e-" else "e+") ++ toString (n.places - 1).natAbs) rank := by
  obtain ⟨whole, fraction, chars, proper, each, value⟩ := exists_mantissa digits
  -- The exponent counts from behind the first digit.
  have power : (Spelling.text ⟨negative, whole, fraction,
      some (decide (n.places - 1 < 0), Nat.toDigits 10 (n.places - 1).natAbs)⟩).power =
        n.places - 1 := by
    show (if decide (n.places - 1 < 0) = true then _ else _) = _
    rw [digitsValue_figureValues, Nat.ofDigitChars_ten_toDigits]
    by_cases below : n.places - 1 < 0
    · rw [if_pos (decide_eq_true below)]
      omega
    · rw [if_neg (by simpa using below)]
      omega
  refine ⟨⟨negative, whole, fraction,
    some (decide (n.places - 1 < 0), Nat.toDigits 10 (n.places - 1).natAbs)⟩, rfl,
    ⟨proper, each, ?_⟩, ?_, Or.inr (Option.some_ne_none _), ?_⟩
  · rintro _ ⟨⟩
    exact ⟨Nat.toDigits_ne_nil, fun _ => Text.isDigit_of_mem_toDigits⟩
  · rw [String.toList_append, String.toList_append, chars]
    by_cases below : n.places - 1 < 0 <;> simp [Spelling.chars, below]
  · rw [size_eq value power, Decimal.Numeral.places]
    rw [Decimal.Numeral.value] at nearest
    convert nearest using 3
    omega

private theorem exists_writes {rank : Nat} (finite : rank < Binary64.infiniteRank)
    (negative : Bool) : ∃ s : Spelling,
      s.negative = negative ∧ s.Writes (Decimal.floatText rank) rank := by
  by_cases zero : rank = 0
  · subst zero
    exact ⟨_, rfl, writes_zero negative⟩
  have positive := Nat.pos_of_ne_zero zero
  have digits := Decimal.shortest_digits .toEven positive finite
  have nearest := Decimal.shortest_nearest .toEven positive finite
  rw [Decimal.floatText, if_neg zero]
  dsimp only
  by_cases plain : -5 < (Decimal.shortest .toEven rank).places ∧
      (Decimal.shortest .toEven rank).places ≤ 16
  · rw [if_pos plain]
    exact exists_plain digits nearest negative
  · rw [if_neg plain]
    exact exists_scaled digits nearest negative

/-- A finite double is written as one number with its sign, with a fraction or an exponent, that is
rounded to it. -/
theorem reads_real {x : Binary64} (finite : x.rank < Binary64.infiniteRank) :
    Numeric (Utf8.ofString (realText x)) ∧
      ∃ text, numberText? (Utf8.ofString (realText x)) = some text ∧ text.negative = x.negative ∧
        (text.fraction ≠ none ∨ text.exponent ≠ none) ∧ Binary64.Nearest text.size x.rank := by
  obtain ⟨s, sign, proper, chars, marked, nearest⟩ := exists_writes finite x.negative
  have spelled : Utf8.ofString (realText x) = Utf8.encode s.chars := by
    rw [chars, sign, realText, if_neg (Nat.not_le.mpr finite), Utf8.ofString, String.toList_append]
    cases x.negative <;> rfl
  rw [spelled]
  refine ⟨proper.numeric, s.text, proper.numberText?, sign, ?_, nearest⟩
  simpa [Spelling.text] using marked

theorem size_intText (i : Int) : (intText i).size = i.natAbs := by
  show ((digitsValue (figureValues (Nat.toDigits 10 i.natAbs) ++ []) : Nat) : ℚ) *
    10 ^ (0 - (0 : Int)) = _
  rw [List.append_nil, digitsValue_figureValues, Nat.ofDigitChars_ten_toDigits]
  norm_num

/-- A double is read again from the text that is written for it. -/
def Rereads (x : Binary64) : Prop :=
  parse? (render (.real x)) = some (.real x)

theorem Rereads.numberText? {x : Binary64} (again : Rereads x) :
    Numeric (Utf8.ofString (realText x)) ∧
      ∃ text, Json.numberText? (Utf8.ofString (realText x)) = some text ∧
        text.value? = some (.real x) := by
  rw [Rereads, render, append, String.empty_append] at again
  by_cases infinite : Binary64.infiniteRank ≤ x.rank
  · rw [realText, if_pos infinite] at again
    cases again
  · have numeric := (reads_real (Nat.not_le.mp infinite)).1
    refine ⟨numeric, ?_⟩
    rw [parse?, ofBytes?, Tree.ofBytes?, numeric.tokens?] at again
    cases read : Json.numberText? (Utf8.ofString (realText x)) with
    | none =>
      rw [read] at again
      cases again
    | some text =>
      rw [read] at again
      exact ⟨text, rfl, again⟩

theorem rereads_of_rank? {x : Binary64} (finite : x.rank < Binary64.infiniteRank)
    {text : NumberText} (read : Json.numberText? (Utf8.ofString (realText x)) = some text)
    (fraction : text.int? = none) (sign : text.negative = x.negative)
    (rank : text.rank? = some x.rank) : Rereads x := by
  rw [Rereads, render, append, String.empty_append, parse?, ofBytes?, Tree.ofBytes?,
    (reads_real finite).1.tokens?, read]
  show text.value? = _
  rw [NumberText.value?, fraction, rank, sign]
  rfl

end NotebookKernel.Json
