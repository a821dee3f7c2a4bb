import Mathlib.Data.List.Infix
import Mathlib.Data.List.TakeWhile
import NotebookKernel.Evaluation.Request

/-!
# Code that asks for help

Help is asked for by a question mark before a word, or by `help` before one word in parentheses,
with blank space between the parts. The search tries every place of the code once, and at each takes
as much blank space, and as long a word, as it finds. It misses nothing that way, because no blank
character is part of a word and no parenthesis is either: code is a request exactly when it holds
one of these texts.
-/

set_option autoImplicit false

namespace NotebookKernel

namespace Text

private def blankNumbers : List Nat :=
  List.range' 9 5 ++ [0x20, 0x85, 0xA0, 0x1680] ++ List.range' 0x2000 11 ++
    [0x2028, 0x2029, 0x202F, 0x205F, 0x3000]

private theorem toNat_mem_blankNumbers {c : Char} (blank : isBlank c = true) :
    c.toNat ∈ blankNumbers := by
  simp only [isBlank, Bool.or_eq_true, Bool.and_eq_true, decide_eq_true_eq, beq_iff_eq] at blank
  simp only [blankNumbers, List.mem_append, List.mem_range'_1, List.mem_cons, List.not_mem_nil,
    or_false]
  omega

theorem isWord_of_isBlank {c : Char} (blank : isBlank c = true) : isWord c = false := by
  have apart : ∀ n ∈ blankNumbers, isWord (Char.ofNat n) = false := by decide +kernel
  have here := apart c.toNat (toNat_mem_blankNumbers blank)
  rw [Char.ofNat_toNat] at here
  exact here

theorem isBlank_of_isWord {c : Char} (word : isWord c = true) : isBlank c = false := by
  by_contra blank
  have other := isWord_of_isBlank (Bool.not_eq_false _ ▸ blank)
  rw [word] at other
  cases other

def IsGap (text : List Char) : Prop :=
  ∀ c ∈ text, isBlank c = true

def IsWordText (text : List Char) : Prop :=
  text ≠ [] ∧ ∀ c ∈ text, isWord c = true

theorem exists_gap (text : List Char) : ∃ gap, IsGap gap ∧ text = gap ++ trimStart text := by
  refine ⟨text.takeWhile isBlank, ?_, ?_⟩
  · intro c member
    exact List.mem_takeWhile_imp member
  · exact List.takeWhile_append_dropWhile.symm

theorem trimStart_append {gap : List Char} (blank : IsGap gap) {c : Char}
    (inked : isBlank c = false) (rest : List Char) : trimStart (gap ++ c :: rest) = c :: rest := by
  rw [trimStart, List.dropWhile_append_of_pos blank]
  exact List.dropWhile_cons_of_neg (by simp [inked])

theorem split_word {word rest : List Char} (all : ∀ c ∈ word, isWord c = true)
    (ends : ∀ c, rest.head? = some c → isWord c = false) :
    (word ++ rest).takeWhile isWord = word ∧ (word ++ rest).dropWhile isWord = rest := by
  rw [List.takeWhile_append_of_pos all, List.dropWhile_append_of_pos all]
  cases rest with
  | nil => exact ⟨List.append_nil word, rfl⟩
  | cons c rest =>
    have stops : ¬ isWord c = true := by simp [ends c rfl]
    rw [List.takeWhile_cons_of_neg stops, List.dropWhile_cons_of_neg stops]
    exact ⟨List.append_nil word, rfl⟩

end Text

namespace HelpRequest

open Text (IsGap IsWordText)

variable {text rest : List Char}

inductive Asks : List Char → Prop
  | question {gap : List Char} {c : Char} (blank : IsGap gap) (word : Text.isWord c = true) :
      Asks ('?' :: (gap ++ [c]))
  | call {before left topic right : List Char} (blankBefore : IsGap before) (blankLeft : IsGap left)
      (word : IsWordText topic) (blankRight : IsGap right) :
      Asks ("help".toList ++ (before ++ '(' :: (left ++ (topic ++ (right ++ [')'])))))

theorem afterChar?_eq_some_iff {c : Char} (inked : Text.isBlank c = false) :
    afterChar? c text = some rest ↔ ∃ gap, IsGap gap ∧ text = gap ++ c :: rest := by
  constructor
  · intro found
    obtain ⟨gap, blank, whole⟩ := Text.exists_gap text
    rw [afterChar?] at found
    split at found
    · next d more trimmed =>
      split at found
      · next same =>
        have tail : more = rest := Option.some.inj found
        refine ⟨gap, blank, ?_⟩
        rw [whole, trimmed, same, tail]
      · cases found
    · cases found
  · rintro ⟨gap, blank, rfl⟩
    rw [afterChar?, Text.trimStart_append blank inked]
    exact if_pos rfl

theorem afterWord?_eq_some_iff : afterWord? text = some rest ↔
    ∃ gap word, IsGap gap ∧ IsWordText word ∧ text = gap ++ (word ++ rest) ∧
      ∀ c, rest.head? = some c → Text.isWord c = false := by
  constructor
  · intro found
    obtain ⟨gap, blank, whole⟩ := Text.exists_gap text
    rw [afterWord?] at found
    split at found
    · cases found
    · next filled =>
      have tail : (Text.trimStart text).dropWhile Text.isWord = rest := Option.some.inj found
      refine ⟨gap, (Text.trimStart text).takeWhile Text.isWord, blank, ⟨?_, ?_⟩, ?_, ?_⟩
      · simpa using filled
      · intro c member
        exact List.mem_takeWhile_imp member
      · rw [← tail, List.takeWhile_append_dropWhile]
        exact whole
      · intro c head
        have stops := List.head?_dropWhile_not Text.isWord (Text.trimStart text)
        rw [tail, head] at stops
        exact stops
  · rintro ⟨gap, word, blank, ⟨nonempty, all⟩, rfl, ends⟩
    obtain ⟨c, more, rfl⟩ := List.exists_cons_of_ne_nil nonempty
    have inked : Text.isBlank c = false := Text.isBlank_of_isWord (all c List.mem_cons_self)
    have trimmed : Text.trimStart (gap ++ (c :: more ++ rest)) = c :: more ++ rest :=
      Text.trimStart_append blank inked (more ++ rest)
    obtain ⟨front, back⟩ := Text.split_word all ends
    rw [afterWord?, trimmed, front, back]
    rfl

theorem beginsQuestion_iff : beginsQuestion text = true ↔
    ∃ gap c rest, IsGap gap ∧ Text.isWord c = true ∧ text = '?' :: (gap ++ c :: rest) := by
  constructor
  · intro begins
    rw [beginsQuestion.eq_def] at begins
    split at begins
    · next behind =>
      obtain ⟨rest, found⟩ := Option.isSome_iff_exists.mp begins
      obtain ⟨gap, word, blank, ⟨nonempty, all⟩, rfl, -⟩ := afterWord?_eq_some_iff.mp found
      obtain ⟨c, more, rfl⟩ := List.exists_cons_of_ne_nil nonempty
      exact ⟨gap, c, more ++ rest, blank, all c List.mem_cons_self, rfl⟩
    · cases begins
  · rintro ⟨gap, c, rest, blank, word, rfl⟩
    have longest : afterWord? (gap ++ c :: rest) = some (rest.dropWhile Text.isWord) := by
      refine afterWord?_eq_some_iff.mpr ⟨gap, c :: rest.takeWhile Text.isWord, blank, ⟨?_, ?_⟩, ?_, ?_⟩
      · exact List.cons_ne_nil c _
      · intro d member
        rcases List.mem_cons.mp member with rfl | later
        · exact word
        · exact List.mem_takeWhile_imp later
      · rw [List.cons_append, List.takeWhile_append_dropWhile]
      · intro d head
        have stops := List.head?_dropWhile_not Text.isWord rest
        rw [head] at stops
        exact stops
    show (afterWord? (gap ++ c :: rest)).isSome = true
    rw [longest]
    rfl

theorem beginsCall_iff : beginsCall text = true ↔
    ∃ before left topic right rest, IsGap before ∧ IsGap left ∧ IsWordText topic ∧ IsGap right ∧
      text = "help".toList ++ (before ++ '(' :: (left ++ (topic ++ (right ++ ')' :: rest)))) := by
  have opens : Text.isBlank '(' = false := by decide
  have closes : Text.isBlank ')' = false := by decide
  constructor
  · intro begins
    rw [beginsCall.eq_def] at begins
    split at begins
    · next behind =>
      obtain ⟨rest, found⟩ := Option.isSome_iff_exists.mp begins
      obtain ⟨closed, found, last⟩ := Option.bind_eq_some_iff.mp found
      obtain ⟨opened, first, middle⟩ := Option.bind_eq_some_iff.mp found
      obtain ⟨before, blankBefore, rfl⟩ := (afterChar?_eq_some_iff opens).mp first
      obtain ⟨left, topic, blankLeft, word, rfl, -⟩ := afterWord?_eq_some_iff.mp middle
      obtain ⟨right, blankRight, rfl⟩ := (afterChar?_eq_some_iff closes).mp last
      exact ⟨before, left, topic, right, rest, blankBefore, blankLeft, word, blankRight, rfl⟩
    · cases begins
  · rintro ⟨before, left, topic, right, rest, blankBefore, blankLeft, word, blankRight, rfl⟩
    have first : afterChar? '(' (before ++ '(' :: (left ++ (topic ++ (right ++ ')' :: rest)))) =
        some (left ++ (topic ++ (right ++ ')' :: rest))) :=
      (afterChar?_eq_some_iff opens).mpr ⟨before, blankBefore, rfl⟩
    have last : afterChar? ')' (right ++ ')' :: rest) = some rest :=
      (afterChar?_eq_some_iff closes).mpr ⟨right, blankRight, rfl⟩
    have middle : afterWord? (left ++ (topic ++ (right ++ ')' :: rest))) =
        some (right ++ ')' :: rest) := by
      refine afterWord?_eq_some_iff.mpr ⟨left, topic, blankLeft, word, rfl, ?_⟩
      intro c head
      cases right with
      | nil =>
        obtain rfl : ')' = c := Option.some.inj head
        decide
      | cons d right =>
        obtain rfl : d = c := Option.some.inj head
        exact Text.isWord_of_isBlank (blankRight d List.mem_cons_self)
    show (((afterChar? '(' (before ++ '(' :: (left ++ (topic ++ (right ++ ')' :: rest))))).bind
      afterWord?).bind (afterChar? ')')).isSome = true
    rw [first, Option.bind_some, middle, Option.bind_some, last]
    rfl

theorem begins_iff : (beginsQuestion text || beginsCall text) = true ↔
    ∃ ask, Asks ask ∧ ask <+: text := by
  rw [Bool.or_eq_true, beginsQuestion_iff, beginsCall_iff]
  constructor
  · rintro (⟨gap, c, rest, blank, word, rfl⟩ |
      ⟨before, left, topic, right, rest, blankBefore, blankLeft, word, blankRight, rfl⟩)
    · exact ⟨_, .question blank word, rest, by simp⟩
    · exact ⟨_, .call blankBefore blankLeft word blankRight, rest, by simp⟩
  · rintro ⟨ask, asks, rest, rfl⟩
    cases asks with
    | @question gap c blank word => exact Or.inl ⟨gap, c, rest, blank, word, by simp⟩
    | @call before left topic right blankBefore blankLeft word blankRight =>
      exact Or.inr ⟨before, left, topic, right, rest, blankBefore, blankLeft, word, blankRight,
        by simp⟩

theorem Asks.ne_nil {ask : List Char} (asks : Asks ask) : ask ≠ [] := by
  cases asks <;> simp

end HelpRequest

open HelpRequest (Asks)

/-- Each place of the code is tried: what is asked for begins at the first one or behind it. -/
theorem isHelpRequest_iff (code : List Char) :
    isHelpRequest code = true ↔ ∃ ask, Asks ask ∧ ask <:+: code := by
  induction code with
  | nil =>
    constructor
    · intro found
      cases found
    · rintro ⟨ask, asks, inside⟩
      exact absurd (List.eq_nil_of_infix_nil inside) asks.ne_nil
  | cons c code ih =>
    have here : isHelpRequest (c :: code) = true ↔
        (∃ ask, Asks ask ∧ ask <+: c :: code) ∨ ∃ ask, Asks ask ∧ ask <:+: code := by
      rw [← HelpRequest.begins_iff, ← ih, isHelpRequest]
      split
      · next begins => simp [begins]
      · next begins => simp [begins]
    rw [here, ← exists_or]
    refine exists_congr fun ask => ?_
    rw [← and_or_left, List.infix_cons_iff]

/-- A request wants help pages exactly when its code holds a text that asks for help. So code that
stands among other text asks for what it asks for alone. -/
theorem help_ofCode (code label : String) :
    ((EvaluationRequest.ofCode code label).help = true ↔
      ∃ ask, Asks ask ∧ ask <:+: code.toList) ∧
    ((EvaluationRequest.ofCode code label).help = true → ∀ before after other : String,
      (EvaluationRequest.ofCode (before ++ code ++ after) other).help = true) := by
  have holds (code label : String) : (EvaluationRequest.ofCode code label).help = true ↔
      ∃ ask, Asks ask ∧ ask <:+: code.toList := isHelpRequest_iff code.toList
  refine ⟨holds code label, ?_⟩
  intro wanted before after other
  obtain ⟨ask, asks, inside⟩ := (holds code label).mp wanted
  have around : code.toList <:+: (before ++ code ++ after).toList := by
    rw [String.toList_append, String.toList_append]
    exact List.infix_append _ _ _
  exact (holds _ other).mpr ⟨ask, asks, inside.trans around⟩

/-- Where the first attempt fails, the next one is tried inside it. -/
example : ["help(help(x))", "? ?x", "help( \u00A0é )", "?\u2003x", "help()", "help(x y)",
    "help(x.y)"].map (fun code => (EvaluationRequest.ofCode code "a").help) =
      [true, true, true, true, false, false, false] := by
  decide +kernel

end NotebookKernel
