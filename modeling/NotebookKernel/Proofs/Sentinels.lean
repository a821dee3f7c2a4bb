import Mathlib.Data.List.Infix
import NotebookKernel.Proofs.Scanner
import NotebookKernel.Proofs.Text.Lines
import NotebookKernel.Proofs.Text.Numeral
import NotebookKernel.Proofs.Text.Utf8
import NotebookKernel.Sentinels

/-!
# Markers of different evaluations

The markers of a process keep apart from each other. Two underscores before a capital letter stand
at the beginning of a marker and nowhere else in one, so that a marker inside another begins where
that one does, and is of its kind. What follows is a stamp, which has one underscore with digits on
both sides: as soon as the first of its two underscores is there, all of its digits are fixed. The
numbers of two evaluations differ, whatever the clock shows, as long as the counter does not come
round.
-/

set_option autoImplicit false

namespace NotebookKernel

namespace Sentinels

inductive Kind where
  | completion
  | image
  | environment
  | widget
deriving DecidableEq, Repr

def marker (s : Sentinels) : Kind → String
  | .completion => s.completion
  | .image => s.image
  | .environment => s.environment
  | .widget => s.widget

def Kind.opening : Kind → List Char
  | completion => "__END_OF_OUTPUT__".toList
  | image => "__PLOT_PATH__".toList
  | environment => "__ENVIRONMENT_DATA__".toList
  | widget => "__WIDGET_PATH__".toList

private theorem toList_closed (opening stamp : String) :
    (opening ++ stamp ++ "__").toList = opening.toList ++ (stamp.toList ++ ['_', '_']) := by
  rw [String.toList_append, String.toList_append, List.append_assoc]
  rfl

theorem toList_marker (stamp : String) (kind : Kind) :
    ((ofStamp stamp).marker kind).toList = kind.opening ++ (stamp.toList ++ ['_', '_']) := by
  cases kind <;> exact toList_closed _ stamp

theorem toList_stampOf (millis : Int) (number : Nat) : (stampOf millis number).toList =
    (toString millis).toList ++ '_' :: Nat.toDigits 10 number := by
  rw [stampOf, String.toList_append, String.toList_append, Nat.toString_eq_repr, Nat.toList_repr,
    List.append_assoc]
  rfl

theorem mem_millis {millis : Int} {c : Char} (member : c ∈ (toString millis).toList) :
    c = '-' ∨ c.isDigit = true := by
  rw [Text.toList_toString, List.mem_append] at member
  rcases member with sign | digit
  · split at sign
    · exact Or.inl (List.mem_singleton.mp sign)
    · cases sign
  · exact Or.inr (Text.isDigit_of_mem_toDigits digit)

private theorem notMem_millis {c : Char} (sign : c ≠ '-') (figure : c.isDigit = false)
    (millis : Int) : c ∉ (toString millis).toList := by
  intro member
  rcases mem_millis member with minus | digit
  · exact sign minus
  · rw [figure] at digit
    cases digit

private theorem notMem_toDigits {c : Char} (figure : c.isDigit = false) (number : Nat) :
    c ∉ Nat.toDigits 10 number := by
  intro member
  have digit := Text.isDigit_of_mem_toDigits member
  rw [figure] at digit
  cases digit

theorem isUpper_of_mem_stampOf {millis : Int} {number : Nat} {c : Char}
    (member : c ∈ (stampOf millis number).toList ++ ['_', '_']) : c.isUpper = false := by
  have digits : ∀ d : Char, d.isDigit = true → d.isUpper = false := by
    intro d digit
    obtain ⟨-, high⟩ : 48 ≤ d.toNat ∧ d.toNat ≤ 57 := Char.isDigit_iff_toNat.mp digit
    apply decide_eq_false
    rintro ⟨low, -⟩
    have capital : 65 ≤ d.toNat := UInt32.le_iff_toNat_le.mp low
    omega
  rw [toList_stampOf, List.append_assoc, List.cons_append, List.mem_append, List.mem_cons,
    List.mem_append] at member
  rcases member with millis | rfl | number | rest
  · rcases mem_millis millis with rfl | digit
    · decide
    · exact digits c digit
  · decide
  · exact digits c (Text.isDigit_of_mem_toDigits number)
  · have same : c = '_' := by simpa using rest
    rw [same]
    decide

private theorem eq_of_append_cons_eq {x : Char} {a b r s : List Char} (ha : x ∉ a) (hb : x ∉ b)
    (whole : a ++ x :: r = b ++ x :: s) : a = b ∧ r = s := by
  have fronts : ∀ {a r : List Char}, x ∉ a → (a ++ x :: r).takeWhile (· != x) = a := by
    intro a r missing
    rw [List.takeWhile_append_of_pos, List.takeWhile_cons_of_neg (by simp), List.append_nil]
    intro c member
    exact bne_iff_ne.mpr fun same => missing (same ▸ member)
  have same : a = b := by
    rw [← fronts (r := r) ha, whole, fronts hb]
  refine ⟨same, ?_⟩
  rw [same, List.append_cancel_left_eq, List.cons.injEq] at whole
  exact whole.2

/-- Two stamps of which one begins the other, up to the underscores behind it, have one number. -/
theorem number_eq_of_prefix {millis later : Int} {m n : Nat}
    (begins : (stampOf millis m).toList ++ ['_', '_'] <+: (stampOf later n).toList ++ ['_', '_']) :
    m = n := by
  obtain ⟨more, whole⟩ := begins
  rw [toList_stampOf, toList_stampOf] at whole
  simp only [List.append_assoc, List.cons_append, List.nil_append] at whole
  have figure : Char.isDigit '_' = false := by decide
  obtain ⟨-, numbers⟩ := eq_of_append_cons_eq (notMem_millis (by decide) figure millis)
    (notMem_millis (by decide) figure later) whole
  obtain ⟨digits, -⟩ := eq_of_append_cons_eq (notMem_toDigits figure m) (notMem_toDigits figure n)
    numbers
  exact Text.eq_of_toDigits_eq digits

private theorem eq_zero_of_opening (kind : Kind) : ∀ p < kind.opening.length,
    kind.opening[p]? = some '_' → kind.opening[p + 1]? = some '_' →
      kind.opening[p + 2]?.any Char.isUpper = true → p = 0 := by
  cases kind <;> decide

private theorem exists_opening (kind : Kind) :
    ∃ c rest, kind.opening = '_' :: '_' :: c :: rest ∧ c.isUpper = true := by
  cases kind <;> exact ⟨_, _, rfl, by decide⟩

private theorem eq_of_take_opening {kind other : Kind}
    (same : kind.opening.take 5 = other.opening.take 5) : kind = other := by
  revert same
  cases kind <;> cases other <;> decide

private theorem five_le_opening (kind : Kind) : 5 ≤ kind.opening.length := by
  cases kind <;> decide

theorem prefix_of_infix_opening {kind other : Kind} {tail rest : List Char}
    (low : ∀ c ∈ rest, c.isUpper = false) (inside : kind.opening ++ tail <:+: other.opening ++ rest) :
    kind.opening ++ tail <+: other.opening ++ rest := by
  obtain ⟨before, after, whole⟩ := inside
  obtain ⟨c, more, opens, upper⟩ := exists_opening kind
  have place : ∀ i, (other.opening ++ rest)[before.length + i]? =
      ('_' :: '_' :: c :: (more ++ (tail ++ after)))[i]? := by
    intro i
    rw [← whole, opens, List.append_assoc, List.getElem?_append_right (Nat.le_add_right _ _),
      Nat.add_sub_cancel_left]
    simp only [List.cons_append, List.append_assoc]
  have third := place 2
  have early : before.length + 2 < other.opening.length := by
    by_contra late
    rw [List.getElem?_append_right (Nat.le_of_not_lt late)] at third
    have found : c ∈ rest := List.mem_of_getElem? third
    rw [low c found] at upper
    cases upper
  have first := place 0
  have second := place 1
  rw [List.getElem?_append_left (by omega)] at first second third
  have start : before.length = 0 := by
    refine eq_zero_of_opening other before.length (by omega) first second ?_
    rw [third]
    exact upper
  obtain rfl := List.eq_nil_of_length_eq_zero start
  exact ⟨after, whole⟩

theorem kind_eq_of_prefix {kind other : Kind} {tail rest : List Char}
    (begins : kind.opening ++ tail <+: other.opening ++ rest) : kind = other := by
  obtain ⟨more, whole⟩ := begins
  have five := congrArg (List.take 5) whole
  rw [List.append_assoc, List.take_append_of_le_length (five_le_opening kind),
    List.take_append_of_le_length (five_le_opening other)] at five
  exact eq_of_take_opening five

theorem eq_of_infix_marker {millis later : Int} {m n : Nat} {kind other : Kind}
    (inside : ((generate millis m).marker kind).toList <:+:
      ((generate later n).marker other).toList) : kind = other ∧ m = n := by
  rw [generate, generate, toList_marker, toList_marker] at inside
  have begins := prefix_of_infix_opening (fun _ member => isUpper_of_mem_stampOf member) inside
  obtain rfl := kind_eq_of_prefix begins
  refine ⟨rfl, ?_⟩
  rw [List.prefix_append_right_inj] at begins
  exact number_eq_of_prefix begins

private theorem exists_completion (millis : Int) (number : Nat) :
    ∃ word, (generate millis number).completion.toList = '_' :: word := by
  have spelt := toList_marker (stampOf millis number) .completion
  exact ⟨_, spelt⟩

private theorem newline_notMem_completion (millis : Int) (number : Nat) :
    '\n' ∉ (generate millis number).completion.toList := by
  have spelt : (generate millis number).completion.toList =
      Kind.completion.opening ++ ((stampOf millis number).toList ++ ['_', '_']) :=
    toList_marker (stampOf millis number) .completion
  rw [spelt, toList_stampOf]
  simp only [List.mem_append, List.mem_cons, not_or]
  have figure : Char.isDigit '\n' = false := by decide
  refine ⟨by decide, ⟨?_, by decide, ?_⟩, by decide⟩
  · exact notMem_millis (by decide) figure millis
  · exact notMem_toDigits figure number

/-- The markers that a process draws, one evaluation after another: the counter is a machine word
that goes on by one, and the clock shows what it will. -/
def drawn : UInt64 → List Int → List Sentinels
  | _, [] => []
  | counter, millis :: clock => generate millis counter.toNat :: drawn (counter + 1) clock

theorem getElem?_drawn (counter : UInt64) (clock : List Int) (i : Nat) :
    (drawn counter clock)[i]? =
      (clock[i]?).map fun millis => generate millis ((counter.toNat + i) % Text.wordBound) := by
  induction clock generalizing counter i with
  | nil => rfl
  | cons millis clock ih =>
    cases i with
    | zero =>
      have fits : counter.toNat % Text.wordBound = counter.toNat :=
        Nat.mod_eq_of_lt counter.toNat_lt
      rw [Nat.add_zero, fits]
      rfl
    | succ i =>
      have next : ((counter + 1).toNat + i) % Text.wordBound =
          (counter.toNat + (i + 1)) % Text.wordBound := by
        have one : (counter + 1).toNat = (counter.toNat + 1) % Text.wordBound :=
          UInt64.toNat_add counter 1
        rw [one, Nat.mod_add_mod, Nat.add_assoc, Nat.add_comm 1 i]
      rw [drawn, List.getElem?_cons_succ, List.getElem?_cons_succ, ih, next]

theorem length_drawn (counter : UInt64) (clock : List Int) :
    (drawn counter clock).length = clock.length := by
  induction clock generalizing counter with
  | nil => rfl
  | cons millis clock ih => exact congrArg (· + 1) (ih (counter + 1))

private theorem eq_of_number_eq {start i j : Nat} (hi : i < Text.wordBound) (hj : j < Text.wordBound)
    (same : (start + i) % Text.wordBound = (start + j) % Text.wordBound) : i = j := by
  have bound : Text.wordBound = 18446744073709551616 := rfl
  rw [bound] at hi hj same
  omega

/-- A line on which another evaluation than the one at this place writes a marker. -/
def IsForeign (dealt : List Sentinels) (i : Nat) (line : List Char) : Prop :=
  ∃ j s kind, j ≠ i ∧ dealt[j]? = some s ∧ line = (s.marker kind).toList

/-- The markers of a process keep apart. -/
structure KeptApart (dealt : List Sentinels) : Prop where
  stamps : (dealt.map stamp).Nodup
  /-- A marker occurs in no marker of another evaluation or of another kind. -/
  markers : ∀ (i j : Nat) (s t : Sentinels) (kind other : Kind),
    dealt[i]? = some s → dealt[j]? = some t →
      (s.marker kind).toList <:+: (t.marker other).toList → i = j ∧ kind = other
  /-- A scanner hears the lines as if those of other evaluations were not there. -/
  undisturbed : ∀ (i : Nat) (s : Sentinels), dealt[i]? = some s →
    ∀ (lines : List (List Char)) (chunks : List Bytes),
      chunks.flatten = Utf8.encode (Text.unlines lines) →
      ((chunks.foldl Scanner.push (Scanner.new s.completion)).isFound = true ↔
        ∃ line ∈ lines, ¬ IsForeign dealt i line ∧ s.completion.toList <:+: line)

section Drawn

variable {counter : UInt64} {clock : List Int} (few : clock.length ≤ Text.wordBound)

include few

private theorem drawn_at {i : Nat} {s : Sentinels} (found : (drawn counter clock)[i]? = some s) :
    i < Text.wordBound ∧ ∃ millis, s = generate millis ((counter.toNat + i) % Text.wordBound) := by
  have place := (List.getElem?_eq_some_iff.mp found).1
  rw [length_drawn] at place
  rw [getElem?_drawn, Option.map_eq_some_iff] at found
  obtain ⟨millis, -, rfl⟩ := found
  exact ⟨Nat.lt_of_lt_of_le place few, millis, rfl⟩

theorem eq_of_infix_drawn {i j : Nat} {s t : Sentinels} {kind other : Kind}
    (hs : (drawn counter clock)[i]? = some s) (ht : (drawn counter clock)[j]? = some t)
    (inside : (s.marker kind).toList <:+: (t.marker other).toList) : i = j ∧ kind = other := by
  obtain ⟨hi, millis, rfl⟩ := drawn_at few hs
  obtain ⟨hj, later, rfl⟩ := drawn_at few ht
  obtain ⟨kinds, numbers⟩ := eq_of_infix_marker inside
  exact ⟨eq_of_number_eq hi hj numbers, kinds⟩

theorem nodup_stamps : ((drawn counter clock).map stamp).Nodup := by
  rw [List.Nodup, List.pairwise_map, List.pairwise_iff_getElem]
  intro i j hi hj before same
  have first := List.getElem?_eq_getElem hi
  have second := List.getElem?_eq_getElem hj
  obtain ⟨-, millis, hs⟩ := drawn_at few first
  obtain ⟨-, later, ht⟩ := drawn_at few second
  -- Of one stamp there is one completion marker, and it stands in itself.
  have markers : (drawn counter clock)[i] = (drawn counter clock)[j] := by
    rw [hs, ht] at same ⊢
    exact congrArg ofStamp same
  have inside : ((drawn counter clock)[i].marker .completion).toList <:+:
      ((drawn counter clock)[j].marker .completion).toList := by
    rw [markers]
  have one := (eq_of_infix_drawn few first second inside).1
  omega

/-- The completion marker is found when a line holds it that no other evaluation has written. -/
theorem isFound_iff_of_drawn {i : Nat} {s : Sentinels} (drew : (drawn counter clock)[i]? = some s)
    {lines : List (List Char)} {chunks : List Bytes}
    (cut : chunks.flatten = Utf8.encode (Text.unlines lines)) :
    (chunks.foldl Scanner.push (Scanner.new s.completion)).isFound = true ↔
      ∃ line ∈ lines, ¬ IsForeign (drawn counter clock) i line ∧
        s.completion.toList <:+: line := by
  obtain ⟨-, millis, own⟩ := drawn_at few drew
  obtain ⟨word, spelt⟩ : ∃ word, s.completion.toList = '_' :: word := by
    rw [own]
    exact exists_completion millis _
  have unbroken : '\n' ∉ s.completion.toList := by
    rw [own]
    exact newline_notMem_completion millis _
  have nonempty : s.completion.toList ≠ [] := by
    rw [spelt]
    exact List.cons_ne_nil _ _
  have heard := Scanner.heard_foldl (Scanner.heard_new s.completion) chunks
  rw [List.nil_append, cut, Utf8.ofString, spelt] at heard
  have given : Utf8.encode ('_' :: word) ≠ [] := by
    rw [Utf8.encode_cons_of_ascii (by decide)]
    exact List.cons_ne_nil _ _
  rw [heard.isFound_iff given, Utf8.infix_encode_iff (by decide), ← spelt,
    Text.infix_unlines_iff nonempty unbroken]
  refine exists_congr fun line => and_congr_right fun _ => ?_
  constructor
  · intro inside
    refine ⟨?_, inside⟩
    rintro ⟨j, t, kind, other, found, rfl⟩
    have marked : (s.marker .completion).toList <:+: (t.marker kind).toList := inside
    exact other (eq_of_infix_drawn few drew found marked).1.symm
  · exact And.right

/-- Whatever the clock shows, and wherever the counter starts, the markers keep apart of as many
evaluations as a machine word can number. -/
theorem keptApart_drawn : KeptApart (drawn counter clock) where
  stamps := nodup_stamps few
  markers := fun _ _ _ _ _ _ hs ht inside => eq_of_infix_drawn few hs ht inside
  undisturbed := fun _ _ drew _ _ cut => isFound_iff_of_drawn few drew cut

end Drawn

/-- The clock goes back and shows a time again, and the counter comes round. -/
theorem keptApart_unsteadyClock : [7, -7, 7, 7].length ≤ Text.wordBound ∧
    KeptApart (drawn 18446744073709551615 [7, -7, 7, 7]) :=
  ⟨by decide, keptApart_drawn (by decide)⟩

end Sentinels

end NotebookKernel
