import NotebookKernel.Chunk
import NotebookKernel.Proofs.Text.Lines

/-!
# The header of a chunk

The header of a body is what stands before its first line of code: blank lines, comments, and the
lines that set options. Options are read from the header alone. The code is the body without option
lines, and that holds behind the header as well: what is written there is the code exactly when no
line of it looks like an option.
-/

set_option autoImplicit false

namespace NotebookKernel.Chunk

/-- The longest front of a body whose lines are blank or begin, behind blank space, with a number
sign. -/
def header (body : List (List Char)) : List (List Char) :=
  body.takeWhile fun line => (Text.trim line).isEmpty || ['#'].isPrefixOf (Text.trim line)

def behindHeader (body : List (List Char)) : List (List Char) :=
  body.drop (header body).length

def unmarked (lines : List (List Char)) : List (List Char) :=
  lines.filter fun line => !isOptionLine line

theorem header_eq (body : List (List Char)) : header body = body.takeWhile isHeaderLine := by
  refine congrArg (body.takeWhile ·) (funext ?_)
  intro line
  rw [isHeaderLine]
  cases Text.trim line with
  | nil => rfl
  | cons c rest => simp [List.isPrefixOf, Bool.beq_comm]

theorem header_append_behindHeader (body : List (List Char)) :
    header body ++ behindHeader body = body :=
  List.prefix_iff_eq_append.mp (List.takeWhile_prefix _)

theorem ne_nil_of_isOptionLine {line : List Char} (marked : isOptionLine line = true) :
    line ≠ [] := by
  rintro rfl
  cases marked

/-- Behind the header the code is as written exactly when no line there looks like an option. -/
theorem joinLines_unmarked_iff (front behind : List (List Char)) :
    Text.joinLines (front ++ unmarked behind) = Text.joinLines (front ++ behind) ↔
      ∀ line ∈ behind, isOptionLine line = false := by
  constructor
  · intro same line member
    rw [Bool.eq_false_iff]
    intro marked
    have part : (front ++ unmarked behind).Sublist (front ++ behind) :=
      List.Sublist.append_left List.filter_sublist front
    rcases Text.eq_of_joinLines_eq part same with all | single
    · have kept : line ∈ unmarked behind := by
        rw [List.append_cancel_left all]
        exact member
      have out := (List.mem_filter.mp kept).2
      rw [marked] at out
      cases out
    · have inside : line ∈ front ++ behind := List.mem_append_right front member
      rw [single] at inside
      exact ne_nil_of_isOptionLine marked (List.mem_singleton.mp inside)
  · intro plain
    have all : unmarked behind = behind := by
      apply List.filter_eq_self.mpr
      intro line member
      rw [plain line member]
      rfl
    rw [all]

/-- How the chunk of a body is read from it. -/
structure ReadFrom (body : List (List Char)) (chunk : Chunk) : Prop where
  /-- The code is what stands in the header and behind it, less the option lines of both. -/
  code : chunk.code =
    String.ofList (Text.joinLines (unmarked (header body) ++ unmarked (behindHeader body)))
  /-- Behind the header it is as written exactly when no line there looks like an option. -/
  written : chunk.code =
      String.ofList (Text.joinLines (unmarked (header body) ++ behindHeader body)) ↔
    ∀ line ∈ behindHeader body, isOptionLine line = false
  /-- Bodies with the same header set the same options. -/
  options : ∀ start stop other, header other = header body →
    (ofLines start stop other).options = chunk.options

theorem readFrom_ofLines (startLine endLine : Nat) (body : List (List Char)) :
    ReadFrom body (ofLines startLine endLine body) := by
  have code : (ofLines startLine endLine body).code =
      String.ofList (Text.joinLines (unmarked (header body) ++ unmarked (behindHeader body))) := by
    have parts : unmarked (header body) ++ unmarked (behindHeader body) = unmarked body := by
      rw [unmarked, unmarked, ← List.filter_append, header_append_behindHeader, unmarked]
    rw [parts]
    rfl
  refine ⟨code, ?_, ?_⟩
  · rw [code, ← joinLines_unmarked_iff (unmarked (header body))]
    exact String.ofList_inj
  · intro start stop other same
    rw [header_eq, header_eq] at same
    show headerOptions other = headerOptions body
    rw [headerOptions, headerOptions, same]

/-- A string literal over three lines, the second of which looks like an option. -/
def optionInLiteral : String :=
  "x <- \"\n#| y\n\"\n"

/-- The code loses a line of the string literal. -/
theorem code_ne_written_optionInLiteral :
    ¬ ∀ body : String, (ofBody body).code =
      String.ofList (Text.joinLines (unmarked (header (Text.lines body.toList)) ++
        behindHeader (Text.lines body.toList))) := by
  intro claimed
  exact absurd (claimed optionInLiteral) (by decide +kernel)

end NotebookKernel.Chunk
