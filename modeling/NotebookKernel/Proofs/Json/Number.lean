import Mathlib.Data.Bool.AllAny
import NotebookKernel.Json.Printer
import NotebookKernel.Json.Reader
import NotebookKernel.Proofs.Text.Numeral
import NotebookKernel.Proofs.Text.Utf8

/-!
# Numbers as written

A number is spelled with a sign, digits, a fraction and an exponent, and read as these. An integer
is spelled with its digits alone and read back as itself when it fits 64 bits.
-/

set_option autoImplicit false

namespace NotebookKernel.Json

/-- Bytes that the character machine takes for one number. -/
structure Numeric (marks : Bytes) : Prop where
  begins : ∃ b rest, marks = b :: rest ∧ (isDigitByte b = true ∨ b = 0x2D)
  each : ∀ b ∈ marks, isNumberByte b = true

theorem start_of_begins {b : UInt8} (begins : isDigitByte b = true ∨ b = 0x2D)
    (tokens : List Token) : Lexer.start tokens b = ⟨tokens, .number [b]⟩ := by
  have bounds : 0x30 ≤ b.toNat ∧ b.toNat ≤ 0x39 ∨ b = 0x2D := by
    rcases begins with digit | minus
    · rw [isDigitByte, Bool.and_eq_true, decide_eq_true_eq, decide_eq_true_eq] at digit
      exact Or.inl digit
    · exact Or.inr minus
  have other : ∀ {n : UInt8}, n.toNat < 0x30 ∨ 0x39 < n.toNat → n ≠ 0x2D → b ≠ n := by
    rintro n outside different rfl
    rcases bounds with inside | minus
    · omega
    · exact different minus
  have first : (isDigitByte b || b == 0x2D) = true := by
    rcases begins with digit | minus <;> simp [*]
  simp [Lexer.start, first, other]

theorem foldl_push_number {rest : Bytes} (each : ∀ b ∈ rest, isNumberByte b = true)
    (tokens : List Token) (marks : Bytes) :
    rest.foldl Lexer.push ⟨tokens, .number marks⟩ = ⟨tokens, .number (rest.reverse ++ marks)⟩ := by
  induction rest generalizing marks with
  | nil => rfl
  | cons b rest ih =>
    have pushed : Lexer.push ⟨tokens, .number marks⟩ b = ⟨tokens, .number (b :: marks)⟩ := by
      simp [Lexer.push, Mode.continues, each b List.mem_cons_self]
    rw [List.foldl_cons, pushed, ih fun d hd => each d (List.mem_cons_of_mem _ hd)]
    simp

theorem Numeric.foldl_push {marks : Bytes} (numeric : Numeric marks) (tokens : List Token) :
    marks.foldl Lexer.push ⟨tokens, .between⟩ = ⟨tokens, .number marks.reverse⟩ := by
  obtain ⟨b, rest, rfl, begins⟩ := numeric.begins
  rw [List.foldl_cons]
  show List.foldl Lexer.push (Lexer.start tokens b) rest = _
  rw [start_of_begins begins,
    foldl_push_number fun d hd => numeric.each d (List.mem_cons_of_mem _ hd)]
  simp

theorem Numeric.settle {marks : Bytes} (numeric : Numeric marks) {text : NumberText}
    (read : numberText? marks = some text) (tokens : List Token) :
    (marks.foldl Lexer.push ⟨tokens, .between⟩).settle = ⟨.number text :: tokens, .between⟩ := by
  rw [numeric.foldl_push]
  simp [Lexer.settle, read]

theorem Numeric.tokens? {marks : Bytes} (numeric : Numeric marks) :
    Json.tokens? marks = (numberText? marks).map fun text => [.number text] := by
  rw [Json.tokens?, numeric.foldl_push]
  cases read : numberText? marks <;> simp [Lexer.settle, read]

def figures : List Char :=
  "0123456789+-.e".toList

private theorem digit_bounds {c : Char} (digit : c.isDigit = true) :
    48 ≤ c.toNat ∧ c.toNat ≤ 57 :=
  Char.isDigit_iff_toNat.mp digit

theorem mem_figures_of_isDigit {c : Char} (digit : c.isDigit = true) : c ∈ figures := by
  have bounds := digit_bounds digit
  have all : ∀ n ≤ 57, 48 ≤ n → Char.ofNat n ∈ figures := by decide
  rw [← Char.ofNat_toNat c]
  exact all c.toNat bounds.2 bounds.1

theorem numeric_encode {c : Char} {text : List Char} (begins : c.isDigit = true ∨ c = '-')
    (each : ∀ d ∈ text, d ∈ figures) : Numeric (Utf8.encode (c :: text)) := by
  have facts : ∀ d ∈ figures, d.toNat < 0x80 ∧ isNumberByte d.toNat.toUInt8 = true ∧
      (d.isDigit = true → isDigitByte d.toNat.toUInt8 = true) :=
    List.all_iff_forall_prop.mp (by decide)
  have first : c ∈ figures := by
    rcases begins with digit | rfl
    · exact mem_figures_of_isDigit digit
    · decide
  refine ⟨⟨c.toNat.toUInt8, Utf8.encode text, Utf8.encode_cons_of_ascii (facts c first).1 text, ?_⟩,
    ?_⟩
  · rcases begins with digit | rfl
    · exact Or.inl ((facts c first).2.2 digit)
    · exact Or.inr rfl
  · intro b member
    obtain ⟨d, found, here⟩ := List.mem_flatMap.mp member
    have known : d ∈ figures := by
      rcases List.mem_cons.mp found with rfl | later
      · exact first
      · exact each d later
    have single : Utf8.encodeChar d = [d.toNat.toUInt8] := if_pos (facts d known).1
    rw [single, List.mem_singleton] at here
    rw [here]
    exact (facts d known).2.1

def figureValues (digits : List Char) : List Nat :=
  digits.map fun c => c.toNat - '0'.toNat

theorem head?_toDigits {n : Nat} (zero : (Nat.toDigits 10 n).head? = some '0') : n = 0 := by
  induction n using Nat.strongRecOn with
  | ind n ih =>
    by_cases small : n < 10
    · rw [Nat.toDigits_of_lt_base small] at zero
      have all : ∀ m < 10, m.digitChar = '0' → m = 0 := by decide
      exact all n small (Option.some.inj zero)
    · rw [Nat.toDigits_of_base_le (by decide) (Nat.le_of_not_lt small),
        List.head?_append_of_ne_nil _ Nat.toDigits_ne_nil] at zero
      have := ih (n / 10) (by omega) zero
      omega

private theorem isDigitByte_of_isDigit {c : Char} (digit : c.isDigit = true) :
    c.toNat < 0x80 ∧ c.toNat.toUInt8.toNat = c.toNat ∧ isDigitByte c.toNat.toUInt8 = true := by
  have bounds := digit_bounds digit
  have byte : c.toNat.toUInt8.toNat = c.toNat := by
    rw [UInt8.toNat_ofNat']
    omega
  refine ⟨by omega, byte, ?_⟩
  rw [isDigitByte, Bool.and_eq_true, decide_eq_true_eq, decide_eq_true_eq, UInt8.le_iff_toNat_le,
    UInt8.le_iff_toNat_le, byte]
  exact bounds

theorem takeDigits_encode {digits : List Char} (all : ∀ c ∈ digits, c.isDigit = true)
    (rest : Bytes) (stops : ∀ b ∈ rest.head?, isDigitByte b = false) :
    takeDigits (Utf8.encode digits ++ rest) = (figureValues digits, rest) := by
  induction digits with
  | nil =>
    cases rest with
    | nil => rfl
    | cons b rest =>
      have other : ¬ isDigitByte b = true := by simpa using stops b rfl
      show takeDigits (b :: rest) = _
      rw [takeDigits, List.takeWhile_cons_of_neg other, List.dropWhile_cons_of_neg other]
      rfl
  | cons c digits ih =>
    obtain ⟨small, byte, digit⟩ := isDigitByte_of_isDigit (all c List.mem_cons_self)
    have later := ih fun d hd => all d (List.mem_cons_of_mem _ hd)
    rw [takeDigits, Prod.mk.injEq] at later
    rw [Utf8.encode_cons_of_ascii small, List.cons_append, takeDigits,
      List.takeWhile_cons_of_pos digit, List.dropWhile_cons_of_pos digit, List.map_cons, later.1,
      later.2, byte]
    rfl

/-- Digits before the point, without a needless zero in front. -/
structure IsWhole (digits : List Char) : Prop where
  present : digits ≠ []
  each : ∀ c ∈ digits, c.isDigit = true
  canonical : digits.head? = some '0' → digits = ['0']

theorem isWhole_toDigits (n : Nat) : IsWhole (Nat.toDigits 10 n) := by
  refine ⟨Nat.toDigits_ne_nil, fun _ => Text.isDigit_of_mem_toDigits, ?_⟩
  intro zero
  rw [head?_toDigits zero, Nat.toDigits_zero]

/-- The characters of a number: its sign, the digits before the point, those behind it, and the sign
and digits of the exponent. -/
structure Spelling where
  negative : Bool
  whole : List Char
  fraction : Option (List Char)
  exponent : Option (Bool × List Char)

def Spelling.chars (s : Spelling) : List Char :=
  (if s.negative then ['-'] else []) ++ (s.whole ++
    (s.fraction.elim [] ('.' :: ·) ++
      s.exponent.elim [] fun e => 'e' :: (if e.1 then '-' else '+') :: e.2))

def Spelling.text (s : Spelling) : NumberText :=
  ⟨s.negative, figureValues s.whole, s.fraction.map figureValues,
    s.exponent.map fun e => (e.1, figureValues e.2)⟩

structure Spelling.Proper (s : Spelling) : Prop where
  whole : IsWhole s.whole
  fraction : ∀ f ∈ s.fraction, f ≠ [] ∧ ∀ c ∈ f, c.isDigit = true
  exponent : ∀ e ∈ s.exponent, e.2 ≠ [] ∧ ∀ c ∈ e.2, c.isDigit = true

def signBytes (negative : Bool) : Bytes :=
  if negative then [0x2D] else []

theorem numberText?_encode (negative : Bool) {digits : List Char} (whole : IsWhole digits)
    {rest : Bytes} {result : Option NumberText}
    (read : (match rest with
      | [] => some ⟨negative, figureValues digits, none, none⟩
      | point :: after =>
        if point == 0x2E then
          let (fraction, rest) := takeDigits after
          if fraction.isEmpty then none
          else (exponentText? rest).map fun e => ⟨negative, figureValues digits, some fraction, e⟩
        else (exponentText? rest).map fun e => ⟨negative, figureValues digits, none, e⟩) = result)
    (stops : ∀ b ∈ rest.head?, isDigitByte b = false) :
    numberText? (signBytes negative ++ (Utf8.encode digits ++ rest)) = result := by
  rw [← read]
  obtain ⟨c, after, rfl⟩ := List.exists_cons_of_ne_nil whole.present
  have taken := takeDigits_encode whole.each _ stops
  obtain ⟨small, byte, -⟩ := isDigitByte_of_isDigit (whole.each c List.mem_cons_self)
  have bounds := digit_bounds (whole.each c List.mem_cons_self)
  have proper : (figureValues (c :: after)).isEmpty = false ∧
      ((figureValues (c :: after)).head? == some 0 &&
        decide (1 < (figureValues (c :: after)).length)) = false := by
    refine ⟨rfl, ?_⟩
    rw [Bool.and_eq_false_iff]
    by_cases zero : c = '0'
    · have alone := whole.canonical (congrArg some zero)
      rw [alone]
      exact Or.inr rfl
    · have value : '0'.toNat = 48 := rfl
      have other : c.toNat ≠ 48 := fun same => zero (Char.toNat_inj.mp same)
      have positive : c.toNat - '0'.toNat ≠ 0 := by omega
      exact Or.inl (by simpa [figureValues] using positive)
  cases negative with
  | true =>
    show numberText? (0x2D :: (Utf8.encode (c :: after) ++ rest)) = _
    simp only [numberText?, List.head?_cons, List.tail_cons, beq_self_eq_true, if_true, taken,
      proper.1, proper.2, Bool.or_false, Bool.false_eq_true, if_false]
    cases rest <;> rfl
  | false =>
    have plus : ((Utf8.encode (c :: after) ++ rest).head? == some 0x2D) = false := by
      rw [Utf8.encode_cons_of_ascii small, List.cons_append, List.head?_cons]
      have other : c.toNat.toUInt8 ≠ 0x2D := by
        intro same
        have := congrArg UInt8.toNat same
        rw [byte] at this
        have : (0x2D : UInt8).toNat = 45 := rfl
        omega
      simpa using other
    show numberText? (Utf8.encode (c :: after) ++ rest) = _
    simp only [numberText?, plus, taken, proper.1, proper.2, Bool.or_false, Bool.false_eq_true,
      if_false]
    cases rest <;> rfl

theorem encode_sign (negative : Bool) :
    Utf8.encode (if negative then ['-'] else []) = signBytes negative := by
  cases negative <;> rfl

private theorem exponentText?_encode {exponent : Option (Bool × List Char)}
    (proper : ∀ e ∈ exponent, e.2 ≠ [] ∧ ∀ c ∈ e.2, c.isDigit = true) :
    exponentText? (Utf8.encode (exponent.elim []
      fun e => 'e' :: (if e.1 then '-' else '+') :: e.2)) =
      some (exponent.map fun e => (e.1, figureValues e.2)) := by
  cases exponent with
  | none => rfl
  | some e =>
    obtain ⟨negative, digits⟩ := e
    obtain ⟨present, each⟩ := proper _ rfl
    have taken := takeDigits_encode each [] nofun
    rw [List.append_nil] at taken
    have some : (figureValues digits).isEmpty = false := by
      simpa [figureValues] using present
    cases negative with
    | true =>
      show exponentText? (0x65 :: 0x2D :: Utf8.encode digits) = _
      simp [exponentText?, taken, some]
    | false =>
      show exponentText? (0x65 :: 0x2B :: Utf8.encode digits) = _
      simp [exponentText?, taken, some]

private theorem stops_exponent (exponent : Option (Bool × List Char)) :
    ∀ b ∈ (Utf8.encode (exponent.elim []
      fun e => 'e' :: (if e.1 then '-' else '+') :: e.2)).head?, isDigitByte b = false := by
  cases exponent with
  | none => nofun
  | some e =>
    intro b first
    cases (Option.some.inj first : (0x65 : UInt8) = b)
    rfl

theorem Spelling.Proper.numberText? {s : Spelling} (proper : s.Proper) :
    Json.numberText? (Utf8.encode s.chars) = some s.text := by
  obtain ⟨negative, whole, fraction, exponent⟩ := s
  have marks := exponentText?_encode proper.exponent
  have stops := stops_exponent exponent
  rw [Spelling.chars, Utf8.encode_append, Utf8.encode_append, encode_sign]
  dsimp only at marks ⊢
  cases fraction with
  | none =>
    refine numberText?_encode negative proper.whole ?_ stops
    cases exponent with
    | none => rfl
    | some e => exact congrArg (Option.map _) marks
  | some f =>
    obtain ⟨present, each⟩ := proper.fraction f rfl
    have taken := takeDigits_encode each _ stops
    have some : (figureValues f).isEmpty = false := by
      simpa [figureValues] using present
    have point : Utf8.encode ((Option.some f).elim [] ('.' :: ·) ++
        exponent.elim [] fun e => 'e' :: (if e.1 then '-' else '+') :: e.2) =
        0x2E :: (Utf8.encode f ++ Utf8.encode (exponent.elim []
          fun e => 'e' :: (if e.1 then '-' else '+') :: e.2)) := by
      rw [← Utf8.encode_append]
      exact Utf8.encode_cons_of_ascii (by decide) _
    rw [point]
    refine numberText?_encode negative proper.whole ?_ ?_
    · simp only [beq_self_eq_true, if_true, taken, some, Bool.false_eq_true, if_false, marks]
      rfl
    · intro b first
      cases (Option.some.inj first : (0x2E : UInt8) = b)
      rfl

theorem Spelling.Proper.numeric {s : Spelling} (proper : s.Proper) :
    Numeric (Utf8.encode s.chars) := by
  obtain ⟨negative, whole, fraction, exponent⟩ := s
  have digits : ∀ {cs : List Char}, (∀ c ∈ cs, c.isDigit = true) → ∀ c ∈ cs, c ∈ figures :=
    fun all c member => mem_figures_of_isDigit (all c member)
  have tail : ∀ c ∈ fraction.elim [] ('.' :: ·) ++
      exponent.elim [] fun e => 'e' :: (if e.1 then '-' else '+') :: e.2, c ∈ figures := by
    refine List.forall_mem_append.mpr ⟨?_, ?_⟩
    · cases fraction with
      | none => nofun
      | some f =>
        exact List.forall_mem_cons.mpr ⟨by decide, digits (proper.fraction f rfl).2⟩
    · cases exponent with
      | none => nofun
      | some e =>
        refine List.forall_mem_cons.mpr ⟨by decide, List.forall_mem_cons.mpr ⟨?_, ?_⟩⟩
        · split <;> decide
        · exact digits (proper.exponent e rfl).2
  obtain ⟨c, after, rfl⟩ := List.exists_cons_of_ne_nil proper.whole.present
  have known := List.forall_mem_append.mpr ⟨digits proper.whole.each, tail⟩
  rw [Spelling.chars]
  cases negative with
  | true => exact numeric_encode (Or.inr rfl) known
  | false =>
    exact numeric_encode (Or.inl (proper.whole.each c List.mem_cons_self))
      fun d hd => known d (List.mem_cons_of_mem _ hd)

def intText (i : Int) : NumberText :=
  ⟨decide (i < 0), figureValues (Nat.toDigits 10 i.natAbs), none, none⟩

private theorem exists_spelling_int (i : Int) : ∃ s : Spelling, s.Proper ∧
    Utf8.ofString (toString i) = Utf8.encode s.chars ∧ s.text = intText i := by
  refine ⟨⟨decide (i < 0), Nat.toDigits 10 i.natAbs, none, none⟩,
    ⟨isWhole_toDigits i.natAbs, nofun, nofun⟩, ?_, rfl⟩
  have spelled := Text.toList_toString i
  rw [Utf8.ofString, spelled]
  simp [Spelling.chars]

theorem numberText?_int (i : Int) :
    numberText? (Utf8.ofString (toString i)) = some (intText i) := by
  obtain ⟨s, proper, spelled, same⟩ := exists_spelling_int i
  rw [spelled, proper.numberText?, same]

theorem numeric_int (i : Int) : Numeric (Utf8.ofString (toString i)) := by
  obtain ⟨s, proper, spelled, -⟩ := exists_spelling_int i
  rw [spelled]
  exact proper.numeric

theorem foldl_push_significand (digits : List Char) (value taken : Nat)
    (fits : Nat.ofDigitChars 10 digits value < Nat.pow 2 64) :
    (figureValues digits).foldl Significand.push ⟨value, taken, false⟩ =
      ⟨Nat.ofDigitChars 10 digits value, taken + digits.length, false⟩ := by
  induction digits generalizing value taken with
  | nil => rfl
  | cons c digits ih =>
    rw [Nat.ofDigitChars_cons, Nat.mul_comm] at fits
    have grown := Text.le_ofDigitChars digits (value * 10 + (c.toNat - '0'.toNat))
    have below : ¬ Nat.pow 2 64 ≤ value * 10 + (c.toNat - '0'.toNat) := by omega
    rw [figureValues, List.map_cons, List.foldl_cons, ← figureValues]
    simp only [Significand.push, Bool.false_eq_true, if_false, below]
    rw [ih _ _ fits, Nat.ofDigitChars_cons, Nat.mul_comm 10, List.length_cons]
    simp only [Significand.mk.injEq, and_true, true_and]
    omega

theorem value?_intText {i : Int} (low : -(Text.signedBound : Int) ≤ i)
    (high : i < Text.wordBound) : (intText i).value? = some (.int i) := by
  have value : Nat.ofDigitChars 10 (Nat.toDigits 10 i.natAbs) 0 = i.natAbs :=
    Nat.ofDigitChars_ten_toDigits
  have power : Nat.pow 2 64 = 18446744073709551616 := rfl
  have half : Nat.pow 2 63 = 9223372036854775808 := rfl
  rw [Text.signedBound] at low
  rw [Text.wordBound] at high
  have fits : i.natAbs < Nat.pow 2 64 := by omega
  have whole := foldl_push_significand (Nat.toDigits 10 i.natAbs) 0 0 (by rw [value]; exact fits)
  rw [value] at whole
  have read : (intText i).int? = some i := by
    rw [NumberText.int?]
    dsimp only [intText]
    simp only [whole, Bool.false_eq_true, if_false, decide_eq_true_eq]
    by_cases negative : i < 0
    · have inside : ¬ (i.natAbs = 0 ∨ Nat.pow 2 63 < i.natAbs) := by omega
      have back : -(i.natAbs : Int) = i := by omega
      rw [if_pos negative, if_neg inside, back]
    · have back : (i.natAbs : Int) = i := by omega
      rw [if_neg negative, back]
  rw [NumberText.value?, read]

end NotebookKernel.Json
