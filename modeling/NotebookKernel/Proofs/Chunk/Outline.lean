import NotebookKernel.Proofs.Chunk.Finding
import NotebookKernel.Proofs.Text.Lines

/-!
# The outline of a document

The lines of a document are prose and chunks, one after another, and at the end possibly a chunk
that no fence ends. There is one way only to take them apart so, and the search for chunks follows
it. What is taken apart can be written again, with either line ending.
-/

set_option autoImplicit false

namespace NotebookKernel.Chunk

/-- A stretch of a document: a line of prose, or a chunk with its fences. -/
inductive Stretch where
  | prose (line : List Char)
  | fenced (first : List Char) (body : List (List Char)) (last : List Char)

namespace Stretch

def lines : Stretch → List (List Char)
  | prose line => [line]
  | fenced first body last => first :: (body ++ [last])

/-- Prose starts no chunk; a chunk begins with a start and ends with the next fence. -/
def WellFormed : Stretch → Prop
  | prose line => isStart line = false
  | fenced first body last =>
    isStart first = true ∧ (∀ line ∈ body, isFence line = false) ∧ isFence last = true

def chunks (place : Nat) : Stretch → List Chunk
  | prose _ => []
  | fenced _ body _ =>
    [{ startLine := place
       endLine := place + body.length + 1
       code := String.ofList (Text.joinLines (body.filter fun line => !isOptionLine line))
       fullText := String.ofList (Text.joinLines body)
       options := headerOptions body }]

end Stretch

/-- The chunks of stretches that follow one another from some line of a document on. -/
def chunksFrom (place : Nat) : List Stretch → List Chunk
  | [] => []
  | stretch :: rest => stretch.chunks place ++ chunksFrom (place + stretch.lines.length) rest

structure Unended where
  first : List Char
  behind : List (List Char)
  starts : isStart first = true
  unfenced : ∀ line ∈ behind, isFence line = false

structure Outline where
  stretches : List Stretch
  wellFormed : ∀ stretch ∈ stretches, stretch.WellFormed
  unended : Option Unended

def unendedLines : Option Unended → List (List Char)
  | none => []
  | some unended => unended.first :: unended.behind

namespace Outline

def lines (outline : Outline) : List (List Char) :=
  outline.stretches.flatMap Stretch.lines ++ unendedLines outline.unended

def chunks (outline : Outline) : List Chunk :=
  chunksFrom 0 outline.stretches

end Outline

namespace Stretch

theorem cancel {a b : Stretch} {after after' : List (List Char)} (ha : a.WellFormed)
    (hb : b.WellFormed) (same : a.lines ++ after = b.lines ++ after') : a = b ∧ after = after' := by
  cases a with
  | prose line =>
    cases b with
    | prose other =>
      obtain ⟨rfl, rest⟩ := List.cons.inj same
      exact ⟨rfl, rest⟩
    | fenced first body last =>
      obtain ⟨rfl, -⟩ := List.cons.inj same
      exact absurd hb.1 (by rw [ha]; exact Bool.false_ne_true)
  | fenced first body last =>
    cases b with
    | prose other =>
      obtain ⟨rfl, -⟩ := List.cons.inj same
      exact absurd ha.1 (by rw [hb]; exact Bool.false_ne_true)
    | fenced first' body' last' =>
      obtain ⟨rfl, rest⟩ := List.cons.inj same
      replace rest : body ++ last :: after = body' ++ last' :: after' := by simpa using rest
      obtain rfl : body = body' := by
        rw [← takeWhile_unfenced ha.2.1 ha.2.2 after, rest,
          takeWhile_unfenced hb.2.1 hb.2.2 after']
      obtain ⟨rfl, behind⟩ := List.cons.inj (List.append_cancel_left rest)
      exact ⟨rfl, behind⟩

theorem ne_unendedLines {stretch : Stretch} (h : stretch.WellFormed) (after : List (List Char))
    (unended : Option Unended) : stretch.lines ++ after ≠ unendedLines unended := by
  intro same
  cases unended with
  | none => cases stretch <;> cases same
  | some unended =>
    cases stretch with
    | prose line =>
      obtain ⟨rfl, -⟩ := List.cons.inj same
      exact absurd unended.starts (by rw [h]; exact Bool.false_ne_true)
    | fenced first body last =>
      obtain ⟨-, rest⟩ := List.cons.inj same
      have member : last ∈ unended.behind := by
        rw [← rest]
        simp
      exact absurd h.2.2 (by rw [unended.unfenced last member]; exact Bool.false_ne_true)

end Stretch

private theorem unendedLines_inj {a b : Option Unended} (same : unendedLines a = unendedLines b) :
    a = b := by
  rcases a with _ | ⟨first, behind, starts, unfenced⟩ <;>
    rcases b with _ | ⟨first', behind', starts', unfenced'⟩
  · rfl
  · cases same
  · cases same
  · obtain ⟨rfl, rfl⟩ := List.cons.inj same
    rfl

private theorem stretches_unique {a b : List Stretch} {rest rest' : Option Unended}
    (ha : ∀ stretch ∈ a, stretch.WellFormed) (hb : ∀ stretch ∈ b, stretch.WellFormed)
    (same : a.flatMap Stretch.lines ++ unendedLines rest =
      b.flatMap Stretch.lines ++ unendedLines rest') : a = b ∧ rest = rest' := by
  induction a generalizing b with
  | nil =>
    cases b with
    | nil => exact ⟨rfl, unendedLines_inj same⟩
    | cons stretch b =>
      rw [List.flatMap_cons, List.append_assoc] at same
      exact absurd same.symm (Stretch.ne_unendedLines (hb stretch List.mem_cons_self) _ rest)
  | cons stretch a ih =>
    rw [List.flatMap_cons, List.append_assoc] at same
    have well := ha stretch List.mem_cons_self
    cases b with
    | nil => exact absurd same (Stretch.ne_unendedLines well _ rest')
    | cons other b =>
      rw [List.flatMap_cons, List.append_assoc] at same
      obtain ⟨rfl, behind⟩ := Stretch.cancel well (hb other List.mem_cons_self) same
      obtain ⟨rfl, rfl⟩ := ih (fun s hs => ha s (List.mem_cons_of_mem _ hs))
        (fun s hs => hb s (List.mem_cons_of_mem _ hs)) behind
      exact ⟨rfl, rfl⟩

theorem Outline.unique {a b : Outline} (same : a.lines = b.lines) : a = b := by
  obtain ⟨stretches, wellFormed, unended⟩ := a
  obtain ⟨stretches', wellFormed', unended'⟩ := b
  obtain ⟨rfl, rfl⟩ := stretches_unique wellFormed wellFormed' same
  rfl

def Outline.cons (stretch : Stretch) (well : stretch.WellFormed) (outline : Outline) : Outline where
  stretches := stretch :: outline.stretches
  wellFormed := List.forall_mem_cons.mpr ⟨well, outline.wellFormed⟩
  unended := outline.unended

theorem Outline.lines_cons (stretch : Stretch) (well : stretch.WellFormed) (outline : Outline) :
    (outline.cons stretch well).lines = stretch.lines ++ outline.lines := by
  rw [Outline.lines, Outline.cons, List.flatMap_cons, List.append_assoc]
  rfl

theorem exists_outline (lines : List (List Char)) : ∃ outline : Outline, outline.lines = lines := by
  induction size : lines.length using Nat.strong_induction_on generalizing lines with
  | h n ih =>
    subst size
    cases lines with
    | nil => exact ⟨⟨[], by simp, none⟩, rfl⟩
    | cons first rest =>
      cases starts : isStart first with
      | false =>
        obtain ⟨outline, rfl⟩ := ih rest.length (by simp) rest rfl
        exact ⟨outline.cons (.prose first) starts, Outline.lines_cons ..⟩
      | true =>
        have unfenced : ∀ line ∈ rest.takeWhile (fun line => !isFence line),
            isFence line = false := by
          intro line member
          simpa using List.mem_takeWhile_imp member
        have whole : rest.takeWhile (fun line => !isFence line) ++
            rest.dropWhile (fun line => !isFence line) = rest := List.takeWhile_append_dropWhile
        -- With no fence behind it, the start opens what has no end; else the chunk is cut off there.
        cases fences : rest.dropWhile (fun line => !isFence line) with
        | nil =>
          rw [fences, List.append_nil] at whole
          exact ⟨⟨[], by simp, some ⟨first, _, starts, unfenced⟩⟩, congrArg (first :: ·) whole⟩
        | cons last after =>
          rw [fences] at whole
          have ends : isFence last = true := by
            have stop := List.head?_dropWhile_not (fun line => !isFence line) rest
            rw [fences] at stop
            simpa using stop
          have shorter : after.length < (first :: rest).length := by
            rw [← whole]
            simp
            omega
          obtain ⟨outline, rfl⟩ := ih after.length shorter after rfl
          have well : (Stretch.fenced first (rest.takeWhile fun line => !isFence line)
              last).WellFormed := ⟨starts, unfenced, ends⟩
          refine ⟨outline.cons _ well, ?_⟩
          rw [Outline.lines_cons, Stretch.lines]
          simpa using whole

private theorem foldl_push_body {body : List (List Char)}
    (unfenced : ∀ line ∈ body, isFence line = false) (next start : Nat)
    (seen : List (List Char)) (found : List Chunk) :
    body.foldl Search.push ⟨next, some (start, seen), found⟩ =
      ⟨next + body.length, some (start, body.reverse ++ seen), found⟩ := by
  induction body generalizing next seen with
  | nil => rfl
  | cons line body ih =>
    have inside := unfenced line List.mem_cons_self
    have pushed : Search.push ⟨next, some (start, seen), found⟩ line =
        ⟨next + 1, some (start, line :: seen), found⟩ := by
      simp [Search.push, inside]
    rw [List.foldl_cons, pushed, ih (fun l hl => unfenced l (List.mem_cons_of_mem _ hl))]
    simp
    omega

private theorem foldl_push_stretch {stretch : Stretch} (well : stretch.WellFormed) (next : Nat)
    (found : List Chunk) :
    stretch.lines.foldl Search.push ⟨next, none, found⟩ =
      ⟨next + stretch.lines.length, none, (stretch.chunks next).reverse ++ found⟩ := by
  cases stretch with
  | prose line =>
    have plain : isStart line = false := well
    simp [Stretch.lines, Stretch.chunks, Search.push, plain]
  | fenced first body last =>
    obtain ⟨starts, unfenced, ends⟩ := well
    have opened : Search.push ⟨next, none, found⟩ first = ⟨next + 1, some (next, []), found⟩ := by
      simp [Search.push, starts]
    have place : next + 1 + body.length = next + body.length + 1 := by omega
    rw [Stretch.lines, List.foldl_cons, opened, List.foldl_append, foldl_push_body unfenced]
    simp [Search.push, ends, Stretch.chunks, ofLines, place]
    omega

private theorem foldl_push_stretches {stretches : List Stretch}
    (well : ∀ stretch ∈ stretches, stretch.WellFormed) (next : Nat) (found : List Chunk) :
    (stretches.flatMap Stretch.lines).foldl Search.push ⟨next, none, found⟩ =
      ⟨next + (stretches.flatMap Stretch.lines).length, none,
        (chunksFrom next stretches).reverse ++ found⟩ := by
  induction stretches generalizing next found with
  | nil => rfl
  | cons stretch stretches ih =>
    rw [List.flatMap_cons, List.foldl_append,
      foldl_push_stretch (well stretch List.mem_cons_self),
      ih fun s hs => well s (List.mem_cons_of_mem _ hs)]
    simp [chunksFrom, Nat.add_assoc]

theorem allOfLines_lines (outline : Outline) : allOfLines outline.lines = outline.chunks := by
  have rest : ∀ next found, ((unendedLines outline.unended).foldl Search.push
      ⟨next, none, found⟩).found = found := by
    intro next found
    cases outline.unended with
    | none => rfl
    | some unended =>
      have opened : Search.push ⟨next, none, found⟩ unended.first =
          ⟨next + 1, some (next, []), found⟩ := by
        simp [Search.push, unended.starts]
      rw [unendedLines, List.foldl_cons, opened, foldl_push_body unended.unfenced]
  rw [allOfLines, Outline.lines, List.foldl_append, foldl_push_stretches outline.wellFormed, rest,
    List.append_nil, List.reverse_reverse, Outline.chunks]

/-- Every document has one outline, and its chunks are those of the outline: they are in order and
apart. What the outline holds can be written with line endings of either kind, a bare line feed not
behind a carriage return, and the same chunks are found there. -/
theorem all_eq_outline (document : String) :
    ∃ outline : Outline, outline.lines = Text.lines document.toList ∧
      (∀ other : Outline, other.lines = Text.lines document.toList → other = outline) ∧
      all document = outline.chunks ∧
      (all document).Pairwise (fun earlier later => earlier.endLine < later.startLine) ∧
      (∀ chunk ∈ all document, chunk.startLine < chunk.endLine ∧
        chunk.endLine < (Text.lines document.toList).length) ∧
      ∀ entries : List (List Char × Text.LineEnd), entries.map Prod.fst = outline.lines →
        (∀ entry ∈ entries, entry.2 = .lineFeed → entry.1.getLast? ≠ some '\r') →
        all (String.ofList (Text.endedLines entries)) = outline.chunks := by
  obtain ⟨outline, same⟩ := exists_outline (Text.lines document.toList)
  have chunks : all document = outline.chunks := by
    rw [all, ← same, allOfLines_lines]
  refine ⟨outline, same, ?_, chunks, pairwise_all _, ?_, ?_⟩
  · intro other lines
    exact Outline.unique (lines.trans same.symm)
  · intro chunk member
    have fenced := fenced_of_mem_all member
    exact ⟨fenced.startLine_lt, fenced.endLine_lt⟩
  · intro entries written bare
    have unbroken : ∀ entry ∈ entries, '\n' ∉ entry.1 := by
      intro entry member
      have line : entry.1 ∈ Text.lines document.toList := by
        rw [← same, ← written]
        exact List.mem_map_of_mem member
      exact Text.newline_notMem_of_mem_lines line
    rw [all, String.toList_ofList, Text.lines_endedLines unbroken bare, written, allOfLines_lines]

/-- A document with prose, two chunks side by side, and a chunk that no fence ends. -/
def mixedDocument : String :=
  "a\n```r\n#| label: p\nx\n```\n```{r}\n```\n```r\nz\r"

/-- The lines of that document, the last of which ends in a carriage return, with endings of both
kinds. -/
def mixedEntries : List (List Char × Text.LineEnd) :=
  (Text.lines mixedDocument.toList).zip
    [.lineFeed, .carriageReturnLineFeed, .lineFeed, .lineFeed, .carriageReturnLineFeed, .lineFeed,
      .carriageReturnLineFeed, .lineFeed, .carriageReturnLineFeed]

theorem all_mixedEntries : mixedEntries.map Prod.fst = Text.lines mixedDocument.toList ∧
    (∀ entry ∈ mixedEntries, entry.2 = .lineFeed → entry.1.getLast? ≠ some '\r') ∧
    all (String.ofList (Text.endedLines mixedEntries)) = all mixedDocument := by
  have lines : mixedEntries.map Prod.fst = Text.lines mixedDocument.toList := by decide
  have bare : ∀ entry ∈ mixedEntries, entry.2 = .lineFeed → entry.1.getLast? ≠ some '\r' := by
    decide
  obtain ⟨outline, same, -, chunks, -, -, restored⟩ := all_eq_outline mixedDocument
  exact ⟨lines, bare, (restored mixedEntries (lines.trans same.symm) bare).trans chunks.symm⟩

/-- A document whose chunk has a carriage return at the end of its one line, before the line's own
ending. -/
def spareReturn : String :=
  "```r\nx\r\r\n```\n"

def spareReturnOutline : Outline where
  stretches := [.fenced "```r".toList [['x', '\r']] "```".toList]
  wellFormed := by
    intro stretch member
    rw [List.mem_singleton.mp member]
    exact ⟨by decide, by decide, by decide⟩
  unended := none

theorem chunks_ne_all_spareReturn :
    ¬ ∀ (document : String) (outline : Outline), outline.lines = Text.lines document.toList →
      ∀ entries : List (List Char × Text.LineEnd), entries.map Prod.fst = outline.lines →
        all (String.ofList (Text.endedLines entries)) = outline.chunks := by
  intro restored
  have chunks := restored spareReturn spareReturnOutline (by decide)
    (spareReturnOutline.lines.map fun line => (line, .lineFeed)) (by decide)
  exact absurd chunks (by decide)

end NotebookKernel.Chunk
