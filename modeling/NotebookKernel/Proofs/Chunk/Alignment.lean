import Mathlib.Data.Set.Function
import Mathlib.Order.Interval.Set.Defs
import NotebookKernel.Proofs.Chunk.Numbering

/-!
# Positions in a chunk and in its document

The lines between the fences of a chunk are the lines of its full text, one for one and in order, so
that a position in the document is the same place in the full text less the lines up to the opening
fence. The finders reach every line by a number that is in range.
-/

set_option autoImplicit false

namespace NotebookKernel.Chunk

def fullLines (chunk : Chunk) : List (List Char) :=
  chunk.fullText.toList.splitOn '\n'

theorem fenced_of_atLineOf? {lines : List (List Char)} {cursor : Nat} {chunk : Chunk}
    (found : atLineOf? lines cursor = some chunk) : Fenced lines chunk := by
  by_cases empty : lines = []
  · subst empty
    cases found
  have size : 0 < lines.length := List.length_pos_of_ne_nil empty
  have clamped : atLineOf? lines (min cursor (lines.length - 1)) = atLineOf? lines cursor := by
    unfold atLineOf?
    rw [Nat.min_assoc, Nat.min_self]
  rw [← clamped] at found
  exact ((atLineOf?_eq_some_iff (by omega) chunk).mp found).1

namespace Fenced

variable {lines : List (List Char)} {chunk : Chunk} (h : Fenced lines chunk)

include h

theorem exists_body : ∃ body : List (List Char),
    chunk.endLine = chunk.startLine + 1 + body.length ∧
      chunk.fullText = String.ofList (Text.joinLines body) ∧
        ∀ i < body.length, lines[chunk.startLine + 1 + i]? = body[i]? := by
  obtain ⟨before, first, body, last, after, rfl, -, -, -, rfl⟩ := h
  refine ⟨body, rfl, rfl, ?_⟩
  intro i within
  have front : before.length + 1 = (before ++ [first]).length := by
    simp
  have shape : before ++ first :: (body ++ last :: after) =
      (before ++ [first]) ++ (body ++ last :: after) := by
    simp
  show (before ++ first :: (body ++ last :: after))[before.length + 1 + i]? = body[i]?
  rw [shape, front, List.getElem?_append_right (Nat.le_add_right _ _), Nat.add_sub_cancel_left,
    List.getElem?_append_left within]

/-- With at least one line between the fences, the full text has as many lines, and the same. -/
theorem fullLines_eq (unbroken : ∀ line ∈ lines, '\n' ∉ line)
    (filled : chunk.startLine + 1 < chunk.endLine) :
    chunk.startLine + 1 + chunk.fullLines.length = chunk.endLine ∧
      ∀ i < chunk.fullLines.length, lines[chunk.startLine + 1 + i]? = chunk.fullLines[i]? := by
  obtain ⟨body, stop, text, same⟩ := h.exists_body
  have nonempty : body ≠ [] := by
    rintro rfl
    rw [List.length_nil] at stop
    omega
  have single : ∀ line ∈ body, '\n' ∉ line := by
    intro line member
    obtain ⟨i, within, rfl⟩ := List.getElem_of_mem member
    have here := same i within
    rw [List.getElem?_eq_getElem within] at here
    exact unbroken _ (List.mem_of_getElem? here)
  have cut : chunk.fullLines = body := by
    rw [fullLines, text, String.toList_ofList]
    exact List.splitOn_intercalate '\n' single nonempty
  rw [cut]
  exact ⟨stop.symm, same⟩

end Fenced

/-- How the positions of a document and of the full text of a chunk belong together. -/
structure Aligned (document : String) (chunk : Chunk) : Prop where
  /-- A line has a position in the full text exactly when it stands between the fences. -/
  position : ∀ l character, l < Position.bound → character < Position.bound →
    chunk.relativePosition? l character =
      if chunk.startLine < l ∧ l < chunk.endLine then some ⟨l - chunk.startLine - 1, character⟩
      else none
  /-- At that position the full text has the line. -/
  line : ∀ l, chunk.startLine < l → l < chunk.endLine →
    ∃ line, (Text.lines document.toList)[l]? = some line ∧
      chunk.fullLines[l - chunk.startLine - 1]? = some line
  /-- No line of the full text is left out, and none is met twice. -/
  bijective : chunk.startLine + 1 < chunk.endLine →
    Set.BijOn (fun l => l - chunk.startLine - 1) (Set.Ioo chunk.startLine chunk.endLine)
      (Set.Iio chunk.fullLines.length)

theorem relativePosition?_eq (chunk : Chunk) {l character : Nat} (low : l < Position.bound)
    (narrow : character < Position.bound) : chunk.relativePosition? l character =
      if chunk.startLine < l ∧ l < chunk.endLine then some ⟨l - chunk.startLine - 1, character⟩
      else none := by
  rw [relativePosition?]
  by_cases inside : chunk.startLine < l ∧ l < chunk.endLine
  · have small : l - (chunk.startLine + 1) < Position.bound := by omega
    rw [if_neg (by omega), if_pos inside, if_pos ⟨small, narrow⟩, Nat.sub_sub]
  · rw [if_pos (by omega), if_neg inside]

theorem Fenced.aligned {document : String} {chunk : Chunk}
    (h : Fenced (Text.lines document.toList) chunk) : Aligned document chunk where
  position := fun _ _ low narrow => chunk.relativePosition?_eq low narrow
  line := by
    intro l behind before
    have unbroken : ∀ line ∈ Text.lines document.toList, '\n' ∉ line :=
      fun _ => Text.newline_notMem_of_mem_lines
    obtain ⟨stop, same⟩ := h.fullLines_eq unbroken (by omega)
    have within : l - chunk.startLine - 1 < chunk.fullLines.length := by omega
    have here := same _ within
    have place : chunk.startLine + 1 + (l - chunk.startLine - 1) = l := by omega
    rw [place, List.getElem?_eq_getElem within] at here
    exact ⟨_, here, List.getElem?_eq_getElem within⟩
  bijective := by
    intro filled
    have unbroken : ∀ line ∈ Text.lines document.toList, '\n' ∉ line :=
      fun _ => Text.newline_notMem_of_mem_lines
    obtain ⟨stop, -⟩ := h.fullLines_eq unbroken filled
    refine ⟨?_, ?_, ?_⟩
    · rintro l ⟨behind, before⟩
      show l - chunk.startLine - 1 < chunk.fullLines.length
      omega
    · rintro l ⟨behind, -⟩ l' ⟨behind', -⟩ same
      change l - chunk.startLine - 1 = l' - chunk.startLine - 1 at same
      omega
    · intro i within
      change i < chunk.fullLines.length at within
      refine ⟨chunk.startLine + 1 + i, ⟨by omega, by omega⟩, ?_⟩
      show chunk.startLine + 1 + i - chunk.startLine - 1 = i
      omega

/-- The chunks of a document, and the chunk around any line of it, are found without a number out of
range, and their positions are those of the document. -/
theorem aligned_of_found (document : String) :
    (∀ cursor, Numbered.atLine (Text.lines document.toList) cursor =
        .ok (atLine? document cursor)) ∧
      Numbered.allFrom (Text.lines document.toList) 0 = .ok (all document) ∧
        (∀ (chunk : Chunk) (l character : Nat), Numbered.position chunk l character =
          .ok (chunk.relativePosition? l character)) ∧
          ∀ chunk, (chunk ∈ all document ∨ ∃ cursor, atLine? document cursor = some chunk) →
            Aligned document chunk := by
  refine ⟨Numbered.atLine_eq _, Numbered.allFrom_eq _, Numbered.position_eq, ?_⟩
  rintro chunk (member | ⟨cursor, found⟩)
  · exact (fenced_of_mem_all member).aligned
  · exact (fenced_of_atLineOf? found).aligned

/-- A chunk with blank lines and line endings of both kinds, and a chunk without lines. -/
def blankLined : String :=
  "a\r\n```r\r\nx\r\n \n\r\n```\n```{r}\n```"

def blankLinedChunk : Chunk :=
  ofLines 1 5 ["x".toList, " ".toList, []]

theorem aligned_blankLined : atLine? blankLined 4 = some blankLinedChunk ∧
    blankLinedChunk.fullLines = ["x".toList, " ".toList, []] ∧
      blankLinedChunk.relativePosition? 4 7 = some ⟨2, 7⟩ ∧ Aligned blankLined blankLinedChunk := by
  have found : atLine? blankLined 4 = some blankLinedChunk := by decide +kernel
  refine ⟨found, by decide +kernel, by decide +kernel, ?_⟩
  exact (aligned_of_found blankLined).2.2.2 blankLinedChunk (Or.inr ⟨4, found⟩)

end NotebookKernel.Chunk
