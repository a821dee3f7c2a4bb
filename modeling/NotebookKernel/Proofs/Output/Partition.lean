import NotebookKernel.Proofs.Output.Extraction

/-!
# Marked lines and the others

The extraction parts the lines of a text: those that it keeps and those that it removes, each in
order and with its ending, make up the text. Nothing is left for the same tag to remove, and two
tags that cannot stand on one line remove the same in either order.

A line is compared without its ending, so a tag that ends like a line ending is another matter than
a line that begins with it.
-/

set_option autoImplicit false

namespace NotebookKernel

/-- Two lists in one, each in its order. -/
inductive Interleaved {α : Type} : List α → List α → List α → Prop
  | nil : Interleaved [] [] []
  | left {a : α} {first second whole : List α} :
      Interleaved first second whole → Interleaved (a :: first) second (a :: whole)
  | right {a : α} {first second whole : List α} :
      Interleaved first second whole → Interleaved first (a :: second) (a :: whole)

theorem interleaved_filter {α : Type} (p : α → Bool) (whole : List α) :
    Interleaved (whole.filter fun a => !p a) (whole.filter p) whole := by
  induction whole with
  | nil => exact .nil
  | cons a whole ih =>
    cases chosen : p a with
    | true => simpa [chosen] using ih.right
    | false => simpa [chosen] using ih.left

namespace Output

/-- A line without its ending: a line feed with at most one carriage return before it, or at the end
of the text a carriage return that no line feed follows. -/
def content (piece : List Char) : List Char :=
  Text.dropLastIf '\r' (Text.dropLastIf '\n' piece)

def isMarked (tag piece : List Char) : Bool :=
  tag.isPrefixOf (content piece)

def removed (tag text : List Char) : List (List Char) :=
  (Text.pieces text).filter (isMarked tag)

section Line

variable {tag piece : List Char}

theorem isMarked_iff : isMarked tag piece = true ↔ tag <+: content piece :=
  List.isPrefixOf_iff_prefix

private theorem dropLastIf_append (c : Char) (text : List Char) :
    text = Text.dropLastIf c text ∨ text = Text.dropLastIf c text ++ [c] := by
  by_cases ends : text.getLast? = some c
  · obtain ⟨front, rfl⟩ := List.getLast?_eq_some_iff.mp ends
    refine Or.inr ?_
    simp [Text.dropLastIf]
  · exact Or.inl (Text.dropLastIf_of_ne ends).symm

theorem exists_ending (piece : List Char) :
    ∃ ending, piece = content piece ++ ending ∧ ∀ c ∈ ending, Text.isBlank c = true := by
  have newline : Text.isBlank '\n' = true := rfl
  have carriage : Text.isBlank '\r' = true := rfl
  rcases dropLastIf_append '\n' piece with bare | fed <;>
    rcases dropLastIf_append '\r' (Text.dropLastIf '\n' piece) with plain | returned
  · exact ⟨[], by rw [content, ← plain, ← bare, List.append_nil], by simp⟩
  · refine ⟨['\r'], ?_, by simp [carriage]⟩
    rw [content, ← returned]
    exact bare
  · refine ⟨['\n'], ?_, by simp [newline]⟩
    rw [content, ← plain]
    exact fed
  · refine ⟨['\r', '\n'], ?_, by simp [newline, carriage]⟩
    have whole : content piece ++ ['\r', '\n'] = Text.dropLastIf '\n' piece ++ ['\n'] := by
      rw [returned, List.append_assoc]
      rfl
    rw [whole]
    exact fed

theorem isNone_payload?_eq (tag piece : List Char) :
    (payload? tag piece).isNone = !isMarked tag piece := by
  show (if isMarked tag piece = true then some (Text.trim ((content piece).drop tag.length))
    else none).isNone = _
  cases isMarked tag piece <;> rfl

theorem payload?_of_marked (marked : isMarked tag piece = true) :
    payload? tag piece = some (Text.trim (piece.drop tag.length)) := by
  obtain ⟨ending, whole, blank⟩ := exists_ending piece
  have inside : tag.length ≤ (content piece).length := (isMarked_iff.mp marked).length_le
  have rest : piece.drop tag.length = (content piece).drop tag.length ++ ending := by
    rw [← List.drop_append_of_le_length inside, ← whole]
  have same : payload? tag piece = some (Text.trim ((content piece).drop tag.length)) :=
    if_pos marked
  rw [same, rest, Text.trim_append_blank _ blank]

theorem payload?_of_unmarked (unmarked : isMarked tag piece = false) :
    payload? tag piece = none := by
  rw [← Option.isNone_iff_eq_none, isNone_payload?_eq, unmarked]
  rfl

theorem isMarked_eq_isPrefixOf (newline : tag.getLast? ≠ some '\n')
    (carriage : tag.getLast? ≠ some '\r') (piece : List Char) :
    isMarked tag piece = tag.isPrefixOf piece := by
  have same := isNone_payload? newline carriage piece
  rw [isNone_payload?_eq] at same
  exact Bool.not_inj same

end Line

theorem pieces_kept_eq (tag text : List Char) :
    Text.pieces (kept tag text) = (Text.pieces text).filter fun piece => !isMarked tag piece := by
  rw [pieces_kept]
  refine List.filter_congr ?_
  intro piece _
  exact isNone_payload?_eq tag piece

theorem kept_eq_flatten (tag text : List Char) : kept tag text =
    ((Text.pieces text).filter fun piece => !isMarked tag piece).flatten := by
  rw [← pieces_kept_eq, Text.pieces, List.flatten_splitBy]

theorem payloads_eq (tag text : List Char) : payloads tag text =
    ((removed tag text).map fun piece => Text.trim (piece.drop tag.length)).filter
      fun payload => !payload.isEmpty := by
  rw [payloads, removed]
  refine congrArg (List.filter _) ?_
  induction Text.pieces text with
  | nil => rfl
  | cons piece pieces ih =>
    cases marked : isMarked tag piece with
    | true =>
      rw [List.filterMap_cons_some (payload?_of_marked marked), List.filter_cons_of_pos marked,
        List.map_cons, ih]
    | false =>
      have out : ¬ isMarked tag piece = true := by
        rw [marked]
        exact Bool.false_ne_true
      rw [List.filterMap_cons_none (payload?_of_unmarked marked), List.filter_cons_of_neg out, ih]

theorem removed_kept_self (tag text : List Char) : removed tag (kept tag text) = [] := by
  rw [removed, pieces_kept_eq, List.filter_filter]
  apply List.filter_eq_nil_iff.mpr
  intro piece _
  cases isMarked tag piece <;> simp

theorem kept_kept_self (tag text : List Char) : kept tag (kept tag text) = kept tag text := by
  rw [kept_eq_flatten tag (kept tag text), pieces_kept_eq, List.filter_filter, kept_eq_flatten]
  refine congrArg List.flatten (List.filter_congr ?_)
  intro piece _
  exact Bool.and_self _

section Tags

variable {a b : List Char}

theorem not_isMarked_both (apart : ¬ a <+: b) (other : ¬ b <+: a) {piece : List Char}
    (marked : isMarked a piece = true) : isMarked b piece = false := by
  rw [Bool.eq_false_iff]
  intro both
  rcases List.prefix_or_prefix_of_prefix (isMarked_iff.mp marked) (isMarked_iff.mp both) with
    shorter | longer
  · exact apart shorter
  · exact other longer

theorem kept_comm (a b text : List Char) : kept b (kept a text) = kept a (kept b text) := by
  rw [kept_eq_flatten b, kept_eq_flatten a (kept b text), pieces_kept_eq, pieces_kept_eq,
    List.filter_filter, List.filter_filter]
  refine congrArg List.flatten (List.filter_congr ?_)
  intro piece _
  exact Bool.and_comm _ _

theorem payloads_kept (apart : ¬ a <+: b) (other : ¬ b <+: a) (text : List Char) :
    payloads a (kept b text) = payloads a text := by
  have same : removed a (kept b text) = removed a text := by
    rw [removed, removed, pieces_kept_eq, List.filter_filter]
    refine List.filter_congr ?_
    intro piece _
    cases marked : isMarked a piece with
    | true =>
      rw [not_isMarked_both apart other marked]
      rfl
    | false => rfl
  rw [payloads_eq, payloads_eq, same]

end Tags

/-- What the extraction makes of the lines of a text. -/
structure Parted (tag text : List Char) : Prop where
  lines : Interleaved (Text.pieces (kept tag text)) (removed tag text) (Text.pieces text)
  unmarked : ∀ piece ∈ Text.pieces (kept tag text), ¬ tag <+: content piece
  marked : ∀ piece ∈ removed tag text, tag <+: content piece
  /-- Without a line ending at its end the tag marks the lines that begin with it. -/
  beginning : tag.getLast? ≠ some '\n' → tag.getLast? ≠ some '\r' →
    ∀ piece, tag <+: content piece ↔ tag <+: piece
  payloads : payloads tag text =
    ((removed tag text).map fun piece => Text.trim (piece.drop tag.length)).filter
      fun payload => !payload.isEmpty
  again : kept tag (kept tag text) = kept tag text ∧ Output.payloads tag (kept tag text) = []

theorem parted (tag text : List Char) : Parted tag text where
  lines := by
    rw [pieces_kept_eq]
    exact interleaved_filter (isMarked tag) (Text.pieces text)
  unmarked := by
    intro piece member begins
    rw [pieces_kept_eq] at member
    have out := (List.mem_filter.mp member).2
    rw [isMarked_iff.mpr begins] at out
    cases out
  marked := by
    intro piece member
    exact isMarked_iff.mp (List.mem_filter.mp member).2
  beginning := by
    intro newline carriage piece
    rw [← isMarked_iff, isMarked_eq_isPrefixOf newline carriage]
    exact List.isPrefixOf_iff_prefix
  payloads := payloads_eq tag text
  again := by
    refine ⟨kept_kept_self tag text, ?_⟩
    rw [payloads_eq, removed_kept_self]
    rfl

/-- The extraction parts the lines of a text, and the order of two extractions does not count when
neither tag begins with the other. -/
theorem parted_and_commutes (text : List Char) :
    (∀ tag, Parted tag text) ∧
      ∀ a b : List Char, ¬ a <+: b → ¬ b <+: a →
        kept b (kept a text) = kept a (kept b text) ∧
          payloads a (kept b text) = payloads a text ∧
            payloads b (kept a text) = payloads b text := by
  refine ⟨fun tag => parted tag text, ?_⟩
  intro a b apart other
  exact ⟨kept_comm a b text, payloads_kept apart other text, payloads_kept other apart text⟩

/-- Lines of two kinds among others, one without an announcement, the last without a line feed. -/
def mixedLines : List Char :=
  "one\n<w>w.html\r\ntwo\r\n<i> p.jpg \n<w>\n x<i>q\n<i>r.jpg\r".toList

theorem commutes_mixedLines :
    ¬ "<i>".toList <+: "<w>".toList ∧ ¬ "<w>".toList <+: "<i>".toList ∧
      kept "<w>".toList (kept "<i>".toList mixedLines) = "one\ntwo\r\n x<i>q\n".toList ∧
        payloads "<w>".toList (kept "<i>".toList mixedLines) = ["w.html".toList] ∧
          payloads "<i>".toList (kept "<w>".toList mixedLines) =
            ["p.jpg".toList, "r.jpg".toList] := by
  have apart : ¬ "<i>".toList <+: "<w>".toList := by decide
  have other : ¬ "<w>".toList <+: "<i>".toList := by decide
  obtain ⟨both, images, widgets⟩ :=
    (parted_and_commutes mixedLines).2 "<i>".toList "<w>".toList apart other
  refine ⟨apart, other, ?_, ?_, ?_⟩
  · rw [both]
    decide +kernel
  · rw [widgets]
    decide +kernel
  · rw [images]
    decide +kernel

/-- A line may begin with a tag and not be marked with it, whether the line is taken with its ending
or without: the tag ends in a carriage return, and so does the text. -/
theorem kept_beginning_with_tag :
    (¬ ∀ tag text : List Char, tag ≠ [] →
      kept tag text = ((Text.pieces text).filter fun piece => !tag.isPrefixOf piece).flatten) ∧
    ¬ ∀ tag text : List Char, tag ≠ [] →
      kept tag text =
        ((Text.pieces text).filter fun piece => !tag.isPrefixOf (Text.lineOfPiece piece)).flatten := by
  refine ⟨?_, ?_⟩
  · intro claimed
    exact absurd (claimed ['a', '\r'] ['a', '\r'] (by decide)) (by decide)
  · intro claimed
    exact absurd (claimed ['a', '\r'] ['a', '\r'] (by decide)) (by decide)

end Output

end NotebookKernel
