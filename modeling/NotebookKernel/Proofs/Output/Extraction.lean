import NotebookKernel.Output
import NotebookKernel.Proofs.Text.Lines

/-!
# Marked lines

An output that is written line by line is read back line by line: the extraction keeps the lines
that do not begin with the tag as they are, carriage returns included, and finds on each of the
others the name that was written behind the tag.
-/

set_option autoImplicit false

namespace NotebookKernel

open Text (unlines)

namespace Output

variable {tag : List Char}

theorem payload?_eq_none {piece : List Char} (other : ¬ tag <+: piece) :
    payload? tag piece = none := by
  rw [payload?, if_neg]
  intro begins
  have content := (Text.isPrefix_dropLastIf '\r' _).trans (Text.isPrefix_dropLastIf '\n' piece)
  exact other ((List.isPrefixOf_iff_prefix.mp begins).trans content)

theorem isNone_payload? (newline : tag.getLast? ≠ some '\n') (carriage : tag.getLast? ≠ some '\r')
    (piece : List Char) : (payload? tag piece).isNone = !tag.isPrefixOf piece := by
  by_cases begins : tag <+: piece
  · have inside := Text.isPrefix_dropLastIf_of_ne
      (Text.isPrefix_dropLastIf_of_ne begins newline) carriage
    rw [payload?, if_pos (List.isPrefixOf_iff_prefix.mpr inside),
      List.isPrefixOf_iff_prefix.mpr begins]
    rfl
  · have other : tag.isPrefixOf piece = false := by
      rw [Bool.eq_false_iff]
      exact fun h => begins (List.isPrefixOf_iff_prefix.mp h)
    rw [payload?_eq_none begins, other]
    rfl

theorem payload?_nil (nonempty : tag ≠ []) : payload? tag [] = none := by
  refine payload?_eq_none ?_
  intro begins
  exact nonempty (List.prefix_nil.mp begins)

/-- A name without blank space at its ends is read back from behind its tag: the line does not end
in a carriage return. -/
theorem payload?_append {name : List Char} (nonempty : name ≠ []) (clean : Text.trim name = name) :
    payload? tag (tag ++ name) = some name := by
  have keeps : ∀ c, Text.isBlank c = true → Text.dropLastIf c (tag ++ name) = tag ++ name := by
    intro c blank
    refine Text.dropLastIf_of_ne ?_
    intro ends
    rw [List.getLast?_append_of_ne_nil tag nonempty] at ends
    rw [Text.not_blank_of_trim_eq_self clean ends] at blank
    cases blank
  have begins : tag.isPrefixOf (tag ++ name) = true :=
    List.isPrefixOf_iff_prefix.mpr (List.prefix_append tag name)
  simp only [payload?, keeps '\n' rfl, keeps '\r' rfl]
  rw [if_pos begins, List.drop_left, clean]

private theorem payload?_concat {line : List Char} (unbroken : '\n' ∉ line) :
    payload? tag (line ++ ['\n']) = payload? tag line := by
  have ended : Text.dropLastIf '\n' (line ++ ['\n']) = line := by
    simp [Text.dropLastIf]
  have whole : Text.dropLastIf '\n' line = line := by
    refine Text.dropLastIf_of_ne ?_
    intro ends
    exact unbroken (List.mem_of_getLast? ends)
  rw [payload?, payload?, ended, whole]

variable {lines : List (List Char)}

theorem pieces_kept (tag text : List Char) :
    Text.pieces (kept tag text) =
      (Text.pieces text).filter fun piece => (payload? tag piece).isNone :=
  Text.pieces_flatten_of_sublist List.filter_sublist

theorem kept_unlines (unbroken : ∀ line ∈ lines, '\n' ∉ line) :
    kept tag (unlines lines) = unlines (lines.filter fun line => (payload? tag line).isNone) := by
  have same : ∀ line ∈ lines, (payload? tag (line ++ ['\n'])).isNone = (payload? tag line).isNone := by
    intro line member
    rw [payload?_concat (unbroken line member)]
  rw [kept, Text.pieces_unlines unbroken, List.filter_map]
  exact congrArg unlines (List.filter_congr same)

theorem payloads_unlines (unbroken : ∀ line ∈ lines, '\n' ∉ line) :
    payloads tag (unlines lines) =
      (lines.filterMap (payload? tag)).filter fun payload => !payload.isEmpty := by
  have same : ∀ line ∈ lines, payload? tag (line ++ ['\n']) = payload? tag line := by
    intro line member
    exact payload?_concat (unbroken line member)
  rw [payloads, Text.pieces_unlines unbroken, List.filterMap_map]
  exact congrArg (List.filter fun payload => !payload.isEmpty) (List.filterMap_congr same)

end Output

end NotebookKernel
