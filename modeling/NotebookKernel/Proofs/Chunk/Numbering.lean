import NotebookKernel.Proofs.Chunk.Outline

/-!
# Finding chunks by the numbers of lines

The finders once more, with the numbers that they go by: lines are read by number, a body is a slice
between two numbers, and one number is taken from another. Each of these is checked, and no check
ever fails: not for an empty document, not for a chunk without a body or without an end, and not for
a cursor behind the last line. What is found is the same.
-/

set_option autoImplicit false

namespace NotebookKernel.Chunk.Numbered

inductive Trap where
  | outOfRange
  | underflow
deriving DecidableEq, Repr

def lineAt (lines : List (List Char)) (i : Nat) : Except Trap (List Char) :=
  match lines[i]? with
  | some line => .ok line
  | none => .error .outOfRange

def slice (lines : List (List Char)) (start stop : Nat) : Except Trap (List (List Char)) :=
  if start ≤ stop ∧ stop ≤ lines.length then .ok ((lines.take stop).drop start)
  else .error .outOfRange

def minus (a b : Nat) : Except Trap Nat :=
  if b ≤ a then .ok (a - b) else .error .underflow

def startUpFrom (lines : List (List Char)) : Nat → Except Trap (Option Nat)
  | 0 => do
    let line ← lineAt lines 0
    return if isStart line then some 0 else none
  | i + 1 => do
    let line ← lineAt lines (i + 1)
    if isStart line then return some (i + 1) else startUpFrom lines i

def fenceAmong (lines : List (List Char)) (i : Nat) : Nat → Except Trap (Option Nat)
  | 0 => return none
  | count + 1 => do
    let line ← lineAt lines i
    if isFence line then return some i else fenceAmong lines (i + 1) count

def nextFence (lines : List (List Char)) (i : Nat) : Except Trap (Option Nat) :=
  fenceAmong lines i (lines.length - i)

def atLine (lines : List (List Char)) (cursor : Nat) : Except Trap (Option Chunk) :=
  if lines.isEmpty then return none
  else do
    let last ← minus lines.length 1
    match ← startUpFrom lines (min cursor last) with
    | none => return none
    | some start =>
      match ← nextFence lines (start + 1) with
      | none => return none
      | some stop =>
        if stop < min cursor last then return none
        else do
          let body ← slice lines (start + 1) stop
          return some (ofLines start stop body)

theorem le_of_fenceAmong {lines : List (List Char)} {i count stop : Nat}
    (found : fenceAmong lines i count = .ok (some stop)) : i ≤ stop := by
  induction count generalizing i with
  | zero => cases found
  | succ count ih =>
    rw [fenceAmong] at found
    cases read : lineAt lines i with
    | error trap =>
      rw [read] at found
      cases found
    | ok line =>
      rw [read] at found
      change (if isFence line then pure (some i) else fenceAmong lines (i + 1) count) = _ at found
      by_cases ends : isFence line = true
      · rw [if_pos ends] at found
        cases found
        exact Nat.le_refl _
      · rw [if_neg ends] at found
        exact Nat.le_of_succ_le (ih found)

def allFrom (lines : List (List Char)) (i : Nat) : Except Trap (List Chunk) :=
  if i < lines.length then do
    let line ← lineAt lines i
    if isStart line then
      match found : nextFence lines (i + 1) with
      | .error trap => throw trap
      | .ok none => return []
      | .ok (some stop) => do
        let body ← slice lines (i + 1) stop
        let later ← allFrom lines (stop + 1)
        return ofLines i stop body :: later
    else allFrom lines (i + 1)
  else return []
termination_by lines.length - i
decreasing_by
  · have behind := le_of_fenceAmong found
    omega
  · omega

def position (chunk : Chunk) (line character : Nat) : Except Trap (Option Position) :=
  if line ≤ chunk.startLine ∨ chunk.endLine ≤ line then return none
  else do
    let relative ← minus line (chunk.startLine + 1)
    return if relative < Position.bound ∧ character < Position.bound
      then some ⟨relative, character⟩ else none

theorem lineAt_eq {lines : List (List Char)} {i : Nat} (within : i < lines.length) :
    lineAt lines i = .ok lines[i] := by
  rw [lineAt, List.getElem?_eq_getElem within]

theorem startUpFrom_eq {lines : List (List Char)} {i : Nat} (within : i < lines.length) :
    startUpFrom lines i = .ok (lastStart? (lines.take (i + 1))) := by
  induction i with
  | zero =>
    have front : lines.take 1 = [] ++ [lines[0]] := by
      rw [List.take_succ_eq_append_getElem within, List.take_zero]
    rw [startUpFrom, lineAt_eq within, front, lastStart?_append_singleton]
    rfl
  | succ i ih =>
    have front : lines.take (i + 2) = lines.take (i + 1) ++ [lines[i + 1]] :=
      List.take_succ_eq_append_getElem within
    have size : (lines.take (i + 1)).length = i + 1 := by
      rw [List.length_take]
      omega
    rw [startUpFrom, lineAt_eq within, front, lastStart?_append_singleton, size]
    change (if isStart lines[i + 1] then pure (some (i + 1)) else startUpFrom lines i) = _
    by_cases starts : isStart lines[i + 1] = true
    · rw [if_pos starts, if_pos starts]
      rfl
    · rw [if_neg starts, if_neg starts]
      exact ih (by omega)

theorem fenceAmong_eq {lines : List (List Char)} {i count : Nat} (whole : i + count = lines.length) :
    fenceAmong lines i count =
      .ok (if ((lines.drop i).takeWhile fun line => !isFence line).length < count
        then some (i + ((lines.drop i).takeWhile fun line => !isFence line).length) else none) := by
  induction count generalizing i with
  | zero => rfl
  | succ count ih =>
    have within : i < lines.length := by omega
    rw [fenceAmong, lineAt_eq within, List.drop_eq_getElem_cons within]
    change (if isFence lines[i] then pure (some i) else fenceAmong lines (i + 1) count) = _
    cases ends : isFence lines[i] with
    | true =>
      have stops : ¬ (!isFence lines[i]) = true := by
        rw [ends]
        exact Bool.false_ne_true
      rw [if_pos rfl, List.takeWhile_cons, if_neg stops, List.length_nil,
        if_pos (Nat.succ_pos count)]
      rfl
    | false =>
      have passes : (!isFence lines[i]) = true := by
        rw [ends]
        rfl
      rw [if_neg Bool.false_ne_true, ih (by omega), List.takeWhile_cons, if_pos passes,
        List.length_cons]
      by_cases short : ((lines.drop (i + 1)).takeWhile fun line => !isFence line).length < count
      · rw [if_pos short, if_pos (Nat.succ_lt_succ short)]
        congr 2
        omega
      · rw [if_neg short, if_neg (by omega)]

theorem nextFence_eq {lines : List (List Char)} {start : Nat} (within : start < lines.length) :
    nextFence lines (start + 1) =
      .ok (if (bodyAfter lines start).length < (lines.drop (start + 1)).length
        then some (start + 1 + (bodyAfter lines start).length) else none) := by
  rw [nextFence, fenceAmong_eq (by omega), List.length_drop]
  rfl

theorem slice_bodyAfter {lines : List (List Char)} {start : Nat} (within : start < lines.length) :
    slice lines (start + 1) (start + 1 + (bodyAfter lines start).length) =
      .ok (bodyAfter lines start) := by
  have front : bodyAfter lines start <+: lines.drop (start + 1) := List.takeWhile_prefix _
  have short := front.length_le
  rw [List.length_drop] at short
  rw [slice, if_pos (by omega), List.drop_take, Nat.add_sub_cancel_left,
    ← List.prefix_iff_eq_take.mp front]

theorem atLine_eq (lines : List (List Char)) (cursor : Nat) :
    atLine lines cursor = .ok (atLineOf? lines cursor) := by
  by_cases empty : lines = []
  · subst empty
    rfl
  have size : 0 < lines.length := List.length_pos_of_ne_nil empty
  have last : minus lines.length 1 = .ok (lines.length - 1) := if_pos size
  have within : min cursor (lines.length - 1) < lines.length := by omega
  rw [atLine, if_neg (by simpa using empty), last, atLineOf?]
  change (startUpFrom lines (min cursor (lines.length - 1)) >>= _) = _
  rw [startUpFrom_eq within]
  rcases lastStart?_cases (lines.take (min cursor (lines.length - 1) + 1)) with
    ⟨missing, -⟩ | ⟨start, found, starts, -⟩
  · simp only [missing]
    rfl
  · have inside := (startsAt_take.mp starts).2.lt
    simp only [found]
    change (nextFence lines (start + 1) >>= _) = .ok (if (bodyAfter lines start).length <
        (lines.drop (start + 1)).length ∧
          min cursor (lines.length - 1) ≤ start + 1 + (bodyAfter lines start).length
      then some (ofLines start (start + 1 + (bodyAfter lines start).length) (bodyAfter lines start))
      else none)
    rw [nextFence_eq inside]
    by_cases fenced : (bodyAfter lines start).length < (lines.drop (start + 1)).length
    · rw [if_pos fenced]
      change (if start + 1 + (bodyAfter lines start).length < min cursor (lines.length - 1)
        then pure none else (slice lines (start + 1) _ >>= _)) = _
      by_cases past : start + 1 + (bodyAfter lines start).length < min cursor (lines.length - 1)
      · rw [if_pos past, if_neg (by omega)]
        rfl
      · rw [if_neg past, if_pos ⟨fenced, by omega⟩, slice_bodyAfter inside]
        rfl
    · rw [if_neg fenced, if_neg (fun both => fenced both.1)]
      rfl

theorem allFrom_end (lines : List (List Char)) : allFrom lines lines.length = .ok [] := by
  rw [allFrom, if_neg (Nat.lt_irrefl _)]
  rfl

section Walk

variable {lines : List (List Char)} {i : Nat} (within : i < lines.length)

include within

theorem allFrom_prose (prose : isStart lines[i] = false) :
    allFrom lines i = allFrom lines (i + 1) := by
  rw [allFrom, if_pos within, lineAt_eq within]
  refine if_neg ?_
  rw [prose]
  exact Bool.false_ne_true

theorem allFrom_start (starts : isStart lines[i] = true) :
    allFrom lines i =
      if (bodyAfter lines i).length < (lines.drop (i + 1)).length then
        (allFrom lines (i + 1 + (bodyAfter lines i).length + 1)).map
          (ofLines i (i + 1 + (bodyAfter lines i).length) (bodyAfter lines i) :: ·)
      else .ok [] := by
  have next := nextFence_eq within
  rw [allFrom, if_pos within, lineAt_eq within]
  refine (if_pos starts).trans ?_
  -- The walk goes on by what the search for a fence has answered; two of its three answers are
  -- excluded in each case.
  by_cases fenced : (bodyAfter lines i).length < (lines.drop (i + 1)).length
  · rw [if_pos fenced] at next ⊢
    split
    · rename_i found
      rw [next] at found
      cases found
    · rename_i found
      rw [next] at found
      cases found
    · rename_i stop found
      rw [next] at found
      cases found
      rw [slice_bodyAfter within]
      rfl
  · rw [if_neg fenced] at next ⊢
    split
    · rename_i found
      rw [next] at found
      cases found
    · rfl
    · rename_i found
      rw [next] at found
      cases found

end Walk

theorem allFrom_stretches {stretches : List Stretch}
    (well : ∀ stretch ∈ stretches, stretch.WellFormed) (unended : Option Unended)
    (before : List (List Char)) :
    allFrom (before ++ (stretches.flatMap Stretch.lines ++ unendedLines unended)) before.length =
      .ok (chunksFrom before.length stretches) := by
  induction stretches generalizing before with
  | nil =>
    cases unended with
    | none =>
      have same : before ++ ([].flatMap Stretch.lines ++ unendedLines none) = before := by
        simp [unendedLines]
      rw [same]
      exact allFrom_end before
    | some unended =>
      show allFrom (before ++ unended.first :: unended.behind) before.length = _
      have within : before.length < (before ++ unended.first :: unended.behind).length := by
        simp
      have silent : bodyAfter (before ++ unended.first :: unended.behind) before.length =
          unended.behind := by
        rw [bodyAfter, drop_behind]
        apply List.takeWhile_eq_self_iff.mpr
        intro line member
        rw [unended.unfenced line member]
        rfl
      have starts : isStart (before ++ unended.first :: unended.behind)[before.length] = true := by
        simpa using unended.starts
      rw [allFrom_start within starts, silent, drop_behind, if_neg (Nat.lt_irrefl _)]
      rfl
  | cons stretch stretches ih =>
    have rest := ih fun s member => well s (List.mem_cons_of_mem _ member)
    have here := well stretch List.mem_cons_self
    rw [List.flatMap_cons, List.append_assoc]
    generalize stretches.flatMap Stretch.lines ++ unendedLines unended = behind at rest ⊢
    cases stretch with
    | prose line =>
      show allFrom (before ++ line :: behind) before.length = .ok (chunksFrom (before.length + 1) _)
      have within : before.length < (before ++ line :: behind).length := by
        simp
      have prose : isStart (before ++ line :: behind)[before.length] = false := by
        have plain : isStart line = false := here
        simpa using plain
      have later := rest (before ++ [line])
      rw [List.append_assoc, List.length_append, List.length_singleton] at later
      rw [allFrom_prose within prose]
      exact later
    | fenced first body last =>
      obtain ⟨starts, unfenced, ends⟩ := here
      have shape : before ++ ((Stretch.fenced first body last).lines ++ behind) =
          before ++ first :: (body ++ last :: behind) := by
        simp [Stretch.lines]
      have later := rest (before ++ first :: (body ++ [last]))
      rw [shape]
      have within : before.length < (before ++ first :: (body ++ last :: behind)).length := by
        simp
      have opens : isStart (before ++ first :: (body ++ last :: behind))[before.length] = true := by
        simpa using starts
      have inner : bodyAfter (before ++ first :: (body ++ last :: behind)) before.length = body := by
        rw [bodyAfter, drop_behind]
        exact takeWhile_unfenced unfenced ends behind
      have again : before ++ first :: (body ++ [last]) ++ behind =
          before ++ first :: (body ++ last :: behind) := by
        simp
      have place : (before ++ first :: (body ++ [last])).length =
          before.length + 1 + body.length + 1 := by
        simp
        omega
      rw [again, place] at later
      rw [allFrom_start within opens, inner, drop_behind, if_pos (by simp), later]
      have stop : before.length + 1 + body.length = before.length + body.length + 1 := by omega
      simp [chunksFrom, Stretch.chunks, Stretch.lines, ofLines, stop, Except.map, Nat.add_assoc]

theorem allFrom_eq (lines : List (List Char)) : allFrom lines 0 = .ok (allOfLines lines) := by
  obtain ⟨outline, rfl⟩ := exists_outline lines
  rw [allOfLines_lines]
  exact allFrom_stretches outline.wellFormed outline.unended []

theorem position_eq (chunk : Chunk) (line character : Nat) :
    position chunk line character = .ok (chunk.relativePosition? line character) := by
  rw [position, relativePosition?]
  by_cases outside : line ≤ chunk.startLine ∨ chunk.endLine ≤ line
  · rw [if_pos outside, if_pos outside]
    rfl
  · have inside : minus line (chunk.startLine + 1) = .ok (line - (chunk.startLine + 1)) :=
      if_pos (by omega)
    rw [if_neg outside, if_neg outside, inside]
    rfl

end NotebookKernel.Chunk.Numbered
