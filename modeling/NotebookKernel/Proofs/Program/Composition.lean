import NotebookKernel.Proofs.Json.Literal
import NotebookKernel.Proofs.Program.Template

/-!
# The literals of a program

The code of an evaluation and its label stand in a program as string literals. Nothing else in it
depends on them: no slot opens in what is put in before, and the code is put in last.
-/

set_option autoImplicit false

namespace NotebookKernel.Program

theorem slotted_header :
    Slotted ["ECHO", "WARNING", "ERROR", "INCLUDE", "OUTPUT", "WIDGET", "LABEL", "SCRATCH"]
      (textOfLines headerLines) := by
  apply slotted_lines
  case same =>
    unfold headerLines
    repeat apply map_ofList_cons rfl
    exact List.map_nil.symm
  case good => decide +kernel

theorem slotted_help : Slotted ["HELP_FILE"] (textOfLines helpLines) := by
  apply slotted_lines
  case same =>
    unfold helpLines
    repeat apply map_ofList_cons rfl
    exact List.map_nil.symm
  case good => decide +kernel

def aroundCode : String × String :=
  (".ridian_results <- evaluate(", ", envir = user_env)")

theorem clear_aroundCode :
    Clear aroundCode.1.toList ∧ Clear (aroundCode.2.toList ++ ['\n']) := by
  decide

private theorem codeLine : bodyLines.head? =
    some (aroundCode.1 ++ "<<CODE>>" ++ aroundCode.2) := by
  simp [bodyLines, aroundCode]

theorem textOfLines_bodyLines : textOfLines bodyLines =
    aroundCode.1.toList ++ slot "CODE" ++ aroundCode.2.toList ++ ['\n'] ++
      textOfLines bodyLines.tail := by
  have mark : "<<CODE>>".toList = slot "CODE" := by decide
  have whole : textOfLines bodyLines =
      textOfLines ((aroundCode.1 ++ "<<CODE>>" ++ aroundCode.2) :: bodyLines.tail) :=
    congrArg textOfLines (List.cons_head?_tail codeLine).symm
  rw [whole, textOfLines_cons, String.toList_append, String.toList_append, mark]

set_option maxRecDepth 2000 in
theorem slotted_body :
    Slotted ["LABEL", "SCRATCH", "IMAGE", "ENVIRONMENT", "COMPLETION", "PREVIEW"]
      (textOfLines bodyLines.tail) := by
  apply slotted_lines
  case same =>
    unfold bodyLines
    repeat apply map_ofList_cons rfl
    exact List.map_nil.symm
  case good => decide +kernel

theorem clear_stringLiteral {text : String} (absent : '<' ∉ text.toList) :
    Clear (stringLiteral text) :=
  clear_of_notMem (Json.notMem_quoteChars absent)

theorem isLiteral_stringLiteral (text : String) : Json.IsLiteral text (stringLiteral text) := by
  have read := Json.isLiteral_quoteChars text.toList
  rwa [String.ofList_toList] at read

theorem clear_pathLiteral {path : String} (absent : '<' ∉ path.toList) :
    Clear (pathLiteral path) := by
  refine clear_of_notMem (Json.notMem_quoteChars ?_)
  intro member
  obtain ⟨c, found, same⟩ := List.mem_map.mp member
  by_cases backslash : c = '\\'
  · rw [if_pos backslash] at same
    exact absurd same (by decide)
  · rw [if_neg backslash] at same
    exact absent (same ▸ found)

theorem clear_flagLiteral (flag : Bool) : Clear (flagLiteral flag) := by
  cases flag <;> decide

theorem clear_digits (n : Nat) : Clear (Nat.toDigits 10 n) := by
  refine clear_of_notMem fun member => ?_
  exact absurd (Nat.isDigit_of_mem_toDigits (by decide) (by decide) member) (by decide)

theorem notMem_fileSafeLabel (label : String) : '<' ∉ (Chunk.fileSafeLabel label).toList := by
  rw [Chunk.fileSafeLabel]
  by_cases empty : label.isEmpty = true
  · rw [if_pos empty]
    decide
  · rw [if_neg empty, String.toList_ofList]
    intro member
    obtain ⟨c, -, same⟩ := List.mem_map.mp member
    by_cases safe : Chunk.isFileSafe c = true
    · rw [if_pos safe] at same
      rw [same] at safe
      exact absurd safe (by decide)
    · rw [if_neg safe] at same
      exact absurd same (by decide)

def Labelled (parts : List Part) : Prop :=
  ∀ part ∈ parts, part.WellFormed ∧ part.Named ["LABEL"]

def labelled (parts : List Part) (label : String) : List Char :=
  written (parts.map (Part.put "LABEL".toList (stringLiteral (Chunk.fileSafeLabel label))))

theorem labelled_append (first second : List Part) (label : String) :
    labelled (first ++ second) label = labelled first label ++ labelled second label := by
  rw [labelled, List.map_append, written_append]
  rfl

theorem Labelled.append {first second : List Part} (h : Labelled first) (h' : Labelled second) :
    Labelled (first ++ second) := by
  intro part member
  rcases List.mem_append.mp member with early | late
  · exact h part early
  · exact h' part late

theorem labelled_text {chars : List Char} (clear : Clear chars) :
    Labelled [.text chars] ∧ ∀ label, labelled [.text chars] label = chars := by
  refine ⟨?_, fun _ => by simp [labelled, Part.put, written, Part.chars]⟩
  intro part member
  rw [List.mem_singleton.mp member]
  exact ⟨clear, trivial⟩

theorem clear_label (label : String) : Clear (stringLiteral (Chunk.fileSafeLabel label)) :=
  clear_stringLiteral (notMem_fileSafeLabel label)

theorem clear_labelled {parts : List Part} (h : Labelled parts) (label : String) :
    Clear (labelled parts label) :=
  clear_written_put h (clear_label label)

theorem exists_labelGaps {parts : List Part} (h : Labelled parts) :
    ∃ gaps, ∀ label, labelled parts label =
      (stringLiteral (Chunk.fileSafeLabel label)).intercalate gaps := by
  obtain ⟨gaps, -, same⟩ := exists_gaps fun part member => (h part member).2
  exact ⟨gaps, fun label => same _⟩

section Parts

variable (options : ChunkOptions) (help : Bool) (previewChars : Nat)
  {stamp scratchDir helpFile : String}

def specOf (options : ChunkOptions) (help : Bool) (previewChars : Nat)
    (stamp scratchDir helpFile label code : String) : Spec :=
  ⟨code, label, options, help, scratchDir, helpFile, .ofStamp stamp, previewChars⟩

private theorem notMem_sentinel {front stamp : String} (clean : '<' ∉ front.toList)
    (absent : '<' ∉ stamp.toList) : '<' ∉ (front ++ stamp ++ "__").toList := by
  simp [clean, absent]

theorem exists_header (absent : '<' ∉ stamp.toList) (path : '<' ∉ scratchDir.toList) :
    ∃ parts, Labelled parts ∧ ∀ label code,
      header (specOf options help previewChars stamp scratchDir helpFile label code) =
        labelled parts label := by
  have widget : Clear (stringLiteral (Sentinels.ofStamp stamp).widget) :=
    clear_stringLiteral (notMem_sentinel (by decide) absent)
  obtain ⟨parts, good, same⟩ := slotted_header.exists_parts "LABEL"
    [("ECHO", flagLiteral options.echo), ("WARNING", flagLiteral options.warning),
      ("ERROR", flagLiteral options.error), ("INCLUDE", flagLiteral options.included),
      ("OUTPUT", flagLiteral options.output),
      ("WIDGET", stringLiteral (Sentinels.ofStamp stamp).widget)]
    [("SCRATCH", pathLiteral scratchDir)]
    (by simp) (by simp) (by decide)
    (by simp [clear_flagLiteral, widget, clear_pathLiteral path])
  exact ⟨parts, good, fun label _ => same _ (clear_label label)⟩

theorem clear_help (path : '<' ∉ helpFile.toList) :
    Clear (fill (textOfLines helpLines) "HELP_FILE" (pathLiteral helpFile)) := by
  obtain ⟨parts, same, good⟩ := slotted_help
  rw [← same, fill_written (fun part member => (good part member).1) (by decide)]
  exact clear_written_put good (clear_pathLiteral path)

theorem exists_helpHook (path : '<' ∉ helpFile.toList) :
    ∃ chars, Clear chars ∧ ∀ label code,
      helpHook (specOf options help previewChars stamp scratchDir helpFile label code) = chars := by
  cases help with
  | false => exact ⟨[], by decide, fun _ _ => if_neg Bool.false_ne_true⟩
  | true => exact ⟨_, clear_help path, fun _ _ => if_pos rfl⟩

def codeParts : List Part :=
  [.text aroundCode.1.toList, .slot "CODE".toList, .text aroundCode.2.toList, .text ['\n']]

private theorem wellFormed_codeParts : ∀ part ∈ codeParts, part.WellFormed ∧ part.Named ["CODE"] := by
  decide

private theorem textOfLines_codeParts :
    textOfLines bodyLines = written codeParts ++ textOfLines bodyLines.tail := by
  rw [textOfLines_bodyLines]
  simp [codeParts, written, Part.chars, slot]

theorem exists_body (absent : '<' ∉ stamp.toList) (path : '<' ∉ scratchDir.toList) :
    ∃ parts, Labelled parts ∧ ∀ label code,
      fill (bodyFrame (specOf options help previewChars stamp scratchDir helpFile label code)) "CODE"
          (stringLiteral code) =
        aroundCode.1.toList ++ stringLiteral code ++ aroundCode.2.toList ++ ['\n'] ++
          labelled parts label := by
  have mark : ∀ front : String, '<' ∉ front.toList → Clear (stringLiteral (front ++ stamp ++ "__")) :=
    fun front clean => clear_stringLiteral (notMem_sentinel clean absent)
  let back : List (String × List Char) :=
    [("SCRATCH", pathLiteral scratchDir),
      ("IMAGE", stringLiteral (Sentinels.ofStamp stamp).image),
      ("ENVIRONMENT", stringLiteral (Sentinels.ofStamp stamp).environment),
      ("COMPLETION", stringLiteral (Sentinels.ofStamp stamp).completion),
      ("PREVIEW", (toString (max previewChars 1)).toList)]
  have suits : ∀ v ∈ back, '>' ∉ v.1.toList ∧ Clear v.2 := by
    simp [back, clear_pathLiteral path, Sentinels.ofStamp, mark, clear_digits]
  obtain ⟨parts, good, same⟩ := slotted_body.exists_parts "LABEL" [] back
    (by simp [back]) (by simp [back]) (by decide) suits
  refine ⟨parts, good, fun label code => ?_⟩
  have label' := clear_label label
  have values : ∀ v ∈ ("LABEL", stringLiteral (Chunk.fileSafeLabel label)) :: back,
      '>' ∉ v.1.toList ∧ Clear v.2 := by
    intro v member
    rcases List.mem_cons.mp member with rfl | later
    · exact ⟨(by decide : '>' ∉ "LABEL".toList), label'⟩
    · exact suits v later
  have line : fillAll (written codeParts)
      (("LABEL", stringLiteral (Chunk.fileSafeLabel label)) :: back) = written codeParts := by
    rw [fillAll_written (fun part member => (wellFormed_codeParts part member).1) values]
    simp [codeParts, Part.filled, value?, back]
  have frame : bodyFrame (specOf options help previewChars stamp scratchDir helpFile label code) =
      written codeParts ++ labelled parts label := by
    rw [labelled, ← same _ label', ← line]
    refine Eq.trans ?_ (Slotted.fillAll_append ⟨codeParts, rfl, wellFormed_codeParts⟩ slotted_body values)
    rw [← textOfLines_codeParts]
    rfl
  have settled : (parts.map (Part.put "LABEL".toList (stringLiteral (Chunk.fileSafeLabel label)))).map
      (Part.put "CODE".toList (stringLiteral code)) =
        parts.map (Part.put "LABEL".toList (stringLiteral (Chunk.fileSafeLabel label))) := by
    rw [List.map_map]
    exact List.map_congr_left fun part member => put_put_of_named (good part member).2 _ _ _
  rw [frame, labelled, ← written_append, fill_written, List.map_append, settled, written_append]
  · simp [codeParts, written, Part.put, Part.chars]
  · intro part member
    rcases List.mem_append.mp member with early | late
    · exact (wellFormed_codeParts part early).1
    · obtain ⟨old, found, rfl⟩ := List.mem_map.mp late
      exact Part.wellFormed_put (good old found).1 _ label'
  · decide

end Parts

/-- The code stays inside its literal, and the label inside its own. Around the code stand two texts
in which no slot is left, and which depend on neither: they are made of fixed texts and of the
label's literal between these. What either literal holds is read back as it was. -/
theorem compose_frame (options : ChunkOptions) (help : Bool) (previewChars : Nat)
    {stamp scratchDir helpFile : String} (stampClosed : '<' ∉ stamp.toList)
    (scratchClosed : '<' ∉ scratchDir.toList) (helpClosed : '<' ∉ helpFile.toList) :
    ∃ before after : List (List Char), ∀ label,
      let quoted := stringLiteral (Chunk.fileSafeLabel label)
      Json.IsLiteral (Chunk.fileSafeLabel label) quoted ∧
      ¬ ['<', '<'] <:+: quoted.intercalate before ∧
      ¬ ['<', '<'] <:+: quoted.intercalate after ∧
      ∀ code, Json.IsLiteral code (stringLiteral code) ∧
        compose ⟨code, label, options, help, scratchDir, helpFile, .ofStamp stamp, previewChars⟩ =
          String.ofList (quoted.intercalate before ++ stringLiteral code ++
            quoted.intercalate after) := by
  obtain ⟨opening, opens, headerIs⟩ :=
    @exists_header options help previewChars stamp scratchDir helpFile stampClosed scratchClosed
  obtain ⟨hook, hooks, hookIs⟩ :=
    @exists_helpHook options help previewChars stamp scratchDir helpFile helpClosed
  obtain ⟨ending, ends, bodyIs⟩ :=
    @exists_body options help previewChars stamp scratchDir helpFile stampClosed scratchClosed
  obtain ⟨hookPart, hookText⟩ := labelled_text (hooks.append clear_aroundCode.1)
  obtain ⟨codePart, codeText⟩ := labelled_text clear_aroundCode.2
  have early := opens.append hookPart
  have late := codePart.append ends
  obtain ⟨before, beforeIs⟩ := exists_labelGaps early
  obtain ⟨after, afterIs⟩ := exists_labelGaps late
  refine ⟨before, after, fun label => ?_⟩
  intro quoted
  rw [← beforeIs, ← afterIs]
  refine ⟨isLiteral_stringLiteral _, (clear_labelled early label).opens_nowhere,
    (clear_labelled late label).opens_nowhere, fun code => ⟨isLiteral_stringLiteral code, ?_⟩⟩
  have whole := congrArg String.ofList (congrArg₂ (· ++ ·)
    (congrArg₂ (· ++ ·) (headerIs label code) (hookIs label code)) (bodyIs label code))
  rw [compose, labelled_append, labelled_append, hookText, codeText]
  refine whole.trans ?_
  simp only [List.append_assoc]

/-- A label that reads like a slot, with the help hook in place. -/
theorem compose_frame_slotLabel :
    '<' ∉ "1700000000000_7".toList ∧ '<' ∉ "/tmp/rplots-abc123".toList ∧
    '<' ∉ "/tmp/rplots-abc123/help_lbl.html".toList ∧
    ∃ front back : List Char, ¬ ['<', '<'] <:+: front ∧ ¬ ['<', '<'] <:+: back ∧
      ∀ code, compose ⟨code, "<<CODE>>", .ofOptions [], true, "/tmp/rplots-abc123",
          "/tmp/rplots-abc123/help_lbl.html", .ofStamp "1700000000000_7", 200⟩ =
        String.ofList (front ++ stringLiteral code ++ back) := by
  have stamp : '<' ∉ "1700000000000_7".toList := by decide
  have scratch : '<' ∉ "/tmp/rplots-abc123".toList := by decide
  have page : '<' ∉ "/tmp/rplots-abc123/help_lbl.html".toList := by decide
  refine ⟨stamp, scratch, page, ?_⟩
  obtain ⟨before, after, frames⟩ := compose_frame (.ofOptions []) true 200 stamp scratch page
  obtain ⟨-, beforeClosed, afterClosed, whole⟩ := frames "<<CODE>>"
  exact ⟨_, _, beforeClosed, afterClosed, fun code => (whole code).2⟩

end NotebookKernel.Program
