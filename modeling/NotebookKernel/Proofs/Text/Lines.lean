import Mathlib.Data.List.Infix
import Mathlib.Data.List.SplitBy
import Mathlib.Data.List.TakeWhile
import NotebookKernel.Proofs.Text.Search
import NotebookKernel.Text.Blank
import NotebookKernel.Text.Lines

/-!
# Lines written one after another

A text that is written line by line is cut into the same lines, and a word without a line feed that
is looked for in it is found inside one of them or not at all. Blank space at its ends is trimmed
off, the line feed behind the last line with it.
-/

set_option autoImplicit false

namespace NotebookKernel.Text

def unlines (lines : List (List Char)) : List Char :=
  lines.flatMap (· ++ ['\n'])

theorem unlines_cons (line : List Char) (lines : List (List Char)) :
    unlines (line :: lines) = line ++ '\n' :: unlines lines := by
  simp [unlines]

theorem unlines_append (first second : List (List Char)) :
    unlines (first ++ second) = unlines first ++ unlines second :=
  List.flatMap_append

theorem unlines_concat (lines : List (List Char)) (line : List Char) :
    unlines (lines ++ [line]) = unlines lines ++ line ++ ['\n'] := by
  rw [unlines_append, unlines_cons, List.append_assoc]
  rfl

theorem unlines_eq_joinLines {lines : List (List Char)} (nonempty : lines ≠ []) :
    unlines lines = joinLines lines ++ ['\n'] := by
  induction lines with
  | nil => exact absurd rfl nonempty
  | cons line lines ih =>
    cases lines with
    | nil => simp [unlines, joinLines]
    | cons next lines =>
      rw [unlines_cons, ih (by simp)]
      simp [joinLines, List.intercalate_cons_cons]

theorem length_unlines_of_sublist {part lines : List (List Char)} (h : part.Sublist lines) :
    part = lines ∨ (unlines part).length < (unlines lines).length := by
  induction h with
  | slnil => exact Or.inl rfl
  | @cons part lines line _ ih =>
    refine Or.inr ?_
    rw [unlines_cons, List.length_append, List.length_cons]
    rcases ih with rfl | shorter <;> omega
  | @cons_cons part lines line _ ih =>
    rcases ih with rfl | shorter
    · exact Or.inl rfl
    · refine Or.inr ?_
      simp only [unlines_cons, List.length_append, List.length_cons]
      omega

theorem eq_of_joinLines_eq {part lines : List (List Char)} (h : part.Sublist lines)
    (same : joinLines part = joinLines lines) : part = lines ∨ lines = [[]] := by
  rcases length_unlines_of_sublist h with all | shorter
  · exact Or.inl all
  have filled : lines ≠ [] := by
    rintro rfl
    exact absurd shorter (Nat.not_lt_zero _)
  by_cases empty : part = []
  · have whole := unlines_eq_joinLines filled
    rw [← same, empty] at whole
    obtain ⟨line, rest, rfl⟩ := List.exists_cons_of_ne_nil filled
    have size := congrArg List.length whole
    rw [unlines_cons, List.length_append, List.length_cons] at size
    have short : line.length + ((unlines rest).length + 1) = 1 := size
    obtain rfl : line = [] := List.eq_nil_of_length_eq_zero (by omega)
    cases rest with
    | nil => exact Or.inr rfl
    | cons next rest =>
      rw [unlines_cons, List.length_append, List.length_cons] at short
      omega
  · rw [unlines_eq_joinLines empty, unlines_eq_joinLines filled, same] at shorter
    exact absurd shorter (Nat.lt_irrefl _)

theorem pieces_unlines {lines : List (List Char)} (unbroken : ∀ line ∈ lines, '\n' ∉ line) :
    pieces (unlines lines) = lines.map (· ++ ['\n']) := by
  have ended : unlines lines = (lines.map (· ++ ['\n'])).flatten := List.flatMap_def
  rw [pieces, ended]
  refine List.splitBy_flatten ?_ ?_ ?_
  · simp
  · intro piece member
    obtain ⟨line, found, rfl⟩ := List.mem_map.mp member
    have inner : ∀ c ∈ line, ∀ d : Char, (c != '\n') = true := by
      intro c hc _
      exact bne_iff_ne.mpr fun same => unbroken line found (same ▸ hc)
    have chain : List.Pairwise (fun c _ : Char => (c != '\n') = true) (line ++ ['\n']) := by
      rw [List.pairwise_append]
      refine ⟨List.pairwise_of_forall_mem_list fun c hc d _ => inner c hc d, by simp, ?_⟩
      intro c hc d _
      exact inner c hc d
    exact chain.isChain
  · have last : List.Pairwise (fun a b : List Char => ∃ (ha : a ≠ []) (hb : b ≠ []),
        (a.getLast ha != '\n') = false) (lines.map (· ++ ['\n'])) := by
      rw [List.pairwise_map]
      refine List.pairwise_of_forall ?_
      intro a b
      exact ⟨by simp, by simp, by simp⟩
    exact last.isChain

private theorem pairwise_pieces (text : List Char) :
    (pieces text).Pairwise fun a b => ∃ (ha : a ≠ []) (_ : b ≠ []), (a.getLast ha != '\n') = false := by
  have chain : (pieces text).IsChain fun a b =>
      ∃ (ha : a ≠ []) (_ : b ≠ []), (a.getLast ha != '\n') = false :=
    List.isChain_getLast_head_splitBy (fun a _ => a != '\n') text
  have trans : IsTrans (List Char) fun a b =>
      ∃ (ha : a ≠ []) (_ : b ≠ []), (a.getLast ha != '\n') = false := by
    refine ⟨?_⟩
    rintro a b c ⟨ha, -, ends⟩ ⟨-, hc, -⟩
    exact ⟨ha, hc, ends⟩
  exact List.isChain_iff_pairwise.mp chain

/-- Some of the pieces of a text are the pieces of what they join to: only the last one may lack its
line feed. -/
theorem pieces_flatten_of_sublist {text : List Char} {some : List (List Char)}
    (part : some.Sublist (pieces text)) : pieces some.flatten = some := by
  refine List.splitBy_flatten ?_ ?_ ?_
  · intro empty
    exact List.nil_notMem_splitBy _ text (part.subset empty)
  · intro piece member
    exact List.isChain_of_mem_splitBy (part.subset member)
  · exact ((pairwise_pieces text).sublist part).isChain

theorem isPrefix_dropLastIf (c : Char) (text : List Char) : dropLastIf c text <+: text := by
  rw [dropLastIf]
  by_cases ends : (text.getLast? == some c) = true
  · rw [if_pos ends]
    exact List.dropLast_prefix text
  · rw [if_neg ends]

theorem isPrefix_dropLastIf_of_ne {c : Char} {word text : List Char} (h : word <+: text)
    (other : word.getLast? ≠ some c) : word <+: dropLastIf c text := by
  rw [dropLastIf]
  by_cases ends : (text.getLast? == some c) = true
  · rw [if_pos ends]
    obtain ⟨front, rfl⟩ := List.getLast?_eq_some_iff.mp (eq_of_beq ends)
    rw [List.dropLast_concat]
    rcases List.prefix_concat_iff.mp h with rfl | shorter
    · exact absurd List.getLast?_concat other
    · exact shorter
  · rw [if_neg ends]
    exact h

theorem dropLastIf_of_ne {c : Char} {text : List Char} (other : text.getLast? ≠ some c) :
    dropLastIf c text = text := by
  rw [dropLastIf, if_neg (by simpa using other)]

theorem newline_notMem_of_mem_lines {text line : List Char} (member : line ∈ lines text) :
    '\n' ∉ line := by
  obtain ⟨piece, found, rfl⟩ := List.mem_map.mp member
  have inner : '\n' ∉ piece.dropLast := by
    have chain : piece.IsChain fun a _ => (a != '\n') = true := List.isChain_of_mem_splitBy found
    intro inside
    obtain ⟨i, within, here⟩ := List.getElem_of_mem inside
    rw [List.length_dropLast] at within
    rw [List.getElem_dropLast] at here
    have other := List.isChain_iff_getElem.mp chain i (by omega)
    rw [here] at other
    exact absurd other (by decide)
  rw [lineOfPiece]
  by_cases ended : (piece.getLast? == some '\n') = true
  · rw [if_pos ended]
    exact fun inside => inner ((isPrefix_dropLastIf _ _).subset inside)
  · rw [if_neg ended]
    intro inside
    rcases List.eq_nil_or_concat piece with rfl | ⟨front, last, rfl⟩
    · cases inside
    · rw [List.concat_eq_append] at inner ended inside
      rw [List.dropLast_concat] at inner
      rcases List.mem_append.mp inside with earlier | final
      · exact inner earlier
      · rw [List.mem_singleton.mp final] at ended
        simp at ended

inductive LineEnd where
  | lineFeed
  | carriageReturnLineFeed
deriving DecidableEq, Repr

def LineEnd.chars : LineEnd → List Char
  | lineFeed => ['\n']
  | carriageReturnLineFeed => ['\r', '\n']

def endedLines (entries : List (List Char × LineEnd)) : List Char :=
  entries.flatMap fun entry => entry.1 ++ entry.2.chars

private def beforeFeed (entry : List Char × LineEnd) : List Char :=
  match entry.2 with
  | .lineFeed => entry.1
  | .carriageReturnLineFeed => entry.1 ++ ['\r']

private theorem endedLines_eq (entries : List (List Char × LineEnd)) :
    endedLines entries = unlines (entries.map beforeFeed) := by
  rw [endedLines, unlines, List.flatMap_map]
  refine congrArg (List.flatMap · entries) (funext ?_)
  rintro ⟨line, ending⟩
  cases ending <;> simp [beforeFeed, LineEnd.chars]

/-- Lines that are written with their endings are read back. A carriage return at the end of a line
would count as part of a bare line feed behind it. -/
theorem lines_endedLines {entries : List (List Char × LineEnd)}
    (unbroken : ∀ entry ∈ entries, '\n' ∉ entry.1)
    (bare : ∀ entry ∈ entries, entry.2 = .lineFeed → entry.1.getLast? ≠ some '\r') :
    lines (endedLines entries) = entries.map Prod.fst := by
  have unfed : ∀ line ∈ entries.map beforeFeed, '\n' ∉ line := by
    intro line member
    obtain ⟨⟨line, ending⟩, found, rfl⟩ := List.mem_map.mp member
    have clean := unbroken _ found
    cases ending <;> simpa [beforeFeed] using clean
  rw [endedLines_eq, lines, pieces_unlines unfed, List.map_map, List.map_map]
  refine List.map_congr_left ?_
  rintro ⟨line, ending⟩ found
  show lineOfPiece (beforeFeed (line, ending) ++ ['\n']) = line
  have ended : ((beforeFeed (line, ending) ++ ['\n']).getLast? == some '\n') = true := by
    rw [List.getLast?_concat]
    rfl
  rw [lineOfPiece, if_pos ended, List.dropLast_concat]
  cases ending with
  | lineFeed => exact dropLastIf_of_ne (bare _ found rfl)
  | carriageReturnLineFeed => simp [beforeFeed, dropLastIf]

section Words

variable {word : List Char}

theorem infix_of_infix_break (unbroken : '\n' ∉ word) {a b : List Char}
    (h : word <:+: a ++ '\n' :: b) : word <:+: a ∨ word <:+: b := by
  obtain ⟨s, t, whole⟩ := h
  rcases List.append_eq_append_iff.mp whole with ⟨c, rfl, -⟩ | ⟨c, front, back⟩
  · exact Or.inl ⟨s, c, rfl⟩
  cases c with
  | nil =>
    rw [List.append_nil] at front
    exact Or.inl ⟨s, [], by rw [List.append_nil, front]⟩
  | cons d c =>
    rw [List.cons_append, List.cons.injEq] at back
    obtain ⟨rfl, rfl⟩ := back
    rcases List.append_eq_append_iff.mp front with ⟨e, -, inside⟩ | ⟨e, -, inside⟩
    · exact absurd (inside ▸ List.mem_append_right e List.mem_cons_self) unbroken
    · cases e with
      | nil =>
        have member : '\n' ∈ word := by
          rw [← List.nil_append word, ← inside]
          exact List.mem_cons_self
        exact absurd member unbroken
      | cons f e =>
        rw [List.cons_append, List.cons.injEq] at inside
        rw [inside.2]
        exact Or.inr ⟨e, t, rfl⟩

theorem not_infix_unlines (nonempty : word ≠ []) (unbroken : '\n' ∉ word) {lines : List (List Char)}
    (absent : ∀ line ∈ lines, ¬ word <:+: line) : ¬ word <:+: unlines lines := by
  induction lines with
  | nil => exact fun h => nonempty (List.eq_nil_of_infix_nil h)
  | cons line lines ih =>
    intro h
    rw [unlines_cons] at h
    rcases infix_of_infix_break unbroken h with here | later
    · exact absent line List.mem_cons_self here
    · exact ih (fun l hl => absent l (List.mem_cons_of_mem _ hl)) later

theorem infix_unlines_iff (nonempty : word ≠ []) (unbroken : '\n' ∉ word)
    {lines : List (List Char)} : word <:+: unlines lines ↔ ∃ line ∈ lines, word <:+: line := by
  constructor
  · intro inside
    by_contra missing
    push Not at missing
    exact not_infix_unlines nonempty unbroken missing inside
  · rintro ⟨line, member, inside⟩
    have part : line ++ ['\n'] <:+: unlines lines := by
      rw [unlines, List.flatMap_def]
      exact List.infix_of_mem_flatten (List.mem_map_of_mem member)
    exact inside.trans ((List.prefix_append line _).isInfix.trans part)

private theorem newline_mem_of_suffix {lines : List (List Char)} {tail : List Char}
    (nonempty : tail ≠ []) (h : tail <:+ unlines lines) : '\n' ∈ tail := by
  rcases List.eq_nil_or_concat lines with rfl | ⟨front, line, rfl⟩
  · exact absurd (List.eq_nil_of_suffix_nil h) nonempty
  · rw [List.concat_eq_append, unlines_concat] at h
    rcases List.suffix_concat_iff.mp h with rfl | ⟨rest, rfl, -⟩
    · exact absurd rfl nonempty
    · exact List.mem_append_right rest (List.mem_singleton_self _)

/-- Behind lines that do not hold a word, its first occurrence is where it is written next: one that
began earlier would go across the line feed before it. -/
theorem firstAt_unlines (nonempty : word ≠ []) (unbroken : '\n' ∉ word) {lines : List (List Char)}
    (absent : ∀ line ∈ lines, ¬ word <:+: line) (after : List Char) :
    Search.FirstAt word (unlines lines ++ (word ++ after)) (unlines lines).length := by
  refine ⟨?_, ?_⟩
  · rw [List.drop_left]
    exact List.prefix_append word after
  · intro j hj early
    rw [List.drop_append_of_le_length hj.le] at early
    have tail : (unlines lines).drop j ≠ [] := by
      intro empty
      have short := List.drop_eq_nil_iff.mp empty
      omega
    have broken := newline_mem_of_suffix tail (List.drop_suffix j _)
    -- An earlier occurrence ends among the lines or goes on behind them.
    rcases Nat.le_total word.length ((unlines lines).drop j).length with fits | long
    · have inside := List.prefix_of_prefix_length_le early (List.prefix_append _ _) fits
      refine not_infix_unlines nonempty unbroken absent ?_
      exact inside.isInfix.trans (List.drop_suffix j _).isInfix
    · have across := List.prefix_of_prefix_length_le (List.prefix_append _ _) early long
      exact unbroken (across.subset broken)

end Words

private theorem dropWhile_blank {text : List Char} (blank : ∀ c ∈ text, isBlank c = true) :
    text.dropWhile isBlank = [] :=
  List.dropWhile_eq_nil_iff.mpr blank

theorem trim_append_blank (text : List Char) {tail : List Char}
    (blank : ∀ c ∈ tail, isBlank c = true) : trim (text ++ tail) = trim text := by
  rw [trim, trim, trimStart, trimStart, List.dropWhile_append]
  by_cases empty : (text.dropWhile isBlank).isEmpty = true
  · rw [if_pos empty, dropWhile_blank blank, List.isEmpty_iff.mp empty]
  · have drops : tail.reverse.dropWhile isBlank = [] := by
      refine dropWhile_blank ?_
      intro c hc
      exact blank c (List.mem_reverse.mp hc)
    rw [if_neg empty, trimEnd, trimEnd, List.reverse_append, List.dropWhile_append, drops,
      List.isEmpty_nil, if_pos rfl]

theorem trim_append_newline (text : List Char) : trim (text ++ ['\n']) = trim text := by
  refine trim_append_blank text ?_
  intro c hc
  rw [List.mem_singleton.mp hc]
  rfl

theorem trim_cons_blank {c : Char} (blank : isBlank c = true) (text : List Char) :
    trim (c :: text) = trim text := by
  rw [trim, trimStart, List.dropWhile_cons_of_pos blank]
  rfl

theorem trim_eq_self {text : List Char} (first : ∀ c, text.head? = some c → isBlank c = false)
    (last : ∀ c, text.getLast? = some c → isBlank c = false) : trim text = text := by
  have keep : ∀ t : List Char, (∀ c, t.head? = some c → isBlank c = false) →
      t.dropWhile isBlank = t := by
    intro t ht
    cases t with
    | nil => rfl
    | cons c t => exact List.dropWhile_cons_of_neg (by simp [ht c rfl])
  have back : ∀ c, text.reverse.head? = some c → isBlank c = false := by
    intro c hc
    rw [List.head?_reverse] at hc
    exact last c hc
  rw [trim, trimStart, keep text first, trimEnd, keep text.reverse back, List.reverse_reverse]

theorem not_blank_of_trim_eq_self {text : List Char} (clean : trim text = text) {c : Char}
    (last : text.getLast? = some c) : isBlank c = false := by
  have head : ((trimStart text).reverse.dropWhile isBlank).head? = some c := by
    rw [← last, ← List.getLast?_reverse]
    exact congrArg List.getLast? clean
  have stops := List.head?_dropWhile_not isBlank (trimStart text).reverse
  rw [head] at stops
  exact stops

private theorem infix_dropWhile {word text : List Char} (h : word <:+: text)
    (first : ∀ c, word.head? = some c → isBlank c = false) : word <:+: text.dropWhile isBlank := by
  induction text with
  | nil => exact h
  | cons c text ih =>
    by_cases blank : isBlank c = true
    · rw [List.dropWhile_cons_of_pos blank]
      rcases List.infix_cons_iff.mp h with here | later
      · cases word with
        | nil => exact List.nil_infix
        | cons d word =>
          obtain rfl : d = c := (List.cons_prefix_cons.mp here).1
          rw [first d rfl] at blank
          cases blank
      · exact ih later
    · rw [List.dropWhile_cons_of_neg blank]
      exact h

theorem infix_trim_of_infix {word text : List Char} (h : word <:+: text)
    (first : ∀ c, word.head? = some c → isBlank c = false)
    (last : ∀ c, word.getLast? = some c → isBlank c = false) : word <:+: trim text := by
  have front : word.reverse <:+: (trimStart text).reverse :=
    List.reverse_infix.mpr (infix_dropWhile h first)
  have back := infix_dropWhile front (by rwa [List.head?_reverse])
  rw [trim, trimEnd, ← List.reverse_infix, List.reverse_reverse]
  exact back

private theorem trim_prefix_trimStart (text : List Char) : trim text <+: trimStart text := by
  rw [trim, trimEnd, ← List.reverse_suffix, List.reverse_reverse]
  exact List.dropWhile_suffix _

theorem isInfix_trim (text : List Char) : trim text <:+: text :=
  (trim_prefix_trimStart text).isInfix.trans (List.dropWhile_suffix _).isInfix

theorem trim_infix_trim {part text : List Char} (h : part <:+: text) : trim part <:+: trim text := by
  have front := trim_prefix_trimStart part
  have inside : trim part <:+: text := (isInfix_trim part).trans h
  refine infix_trim_of_infix inside ?_ ?_
  · intro c head
    have same : (part.dropWhile isBlank).head? = some c := by
      obtain ⟨rest, whole⟩ := front
      rw [← trimStart, ← whole, List.head?_append, head]
      rfl
    have stops := List.head?_dropWhile_not isBlank part
    rw [same] at stops
    exact stops
  · intro c ends
    have stops := List.head?_dropWhile_not isBlank (trimStart part).reverse
    rw [← List.getLast?_reverse, ← trimEnd, ← trim, ends] at stops
    exact stops

theorem trim_unlines (lines : List (List Char)) : trim (unlines lines) = trim (joinLines lines) := by
  cases lines with
  | nil => rfl
  | cons line lines => rw [unlines_eq_joinLines (by simp), trim_append_newline]

end NotebookKernel.Text
