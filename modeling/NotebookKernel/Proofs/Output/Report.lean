import NotebookKernel.Proofs.Call
import NotebookKernel.Proofs.Output.Extraction
import NotebookKernel.Proofs.Sentinels

/-!
# Reports

What the interpreter prints in one evaluation: visible lines with the announcements of widget files
among them, the announcements of image files, and the snapshot of the environment, each part behind
a marker of its own. The scanner, the split at the environment sentinel and the two extractions are
four searches over the same text; together they give the parts back, however the bytes were cut.
-/

set_option autoImplicit false

namespace NotebookKernel

open Text (unlines)

namespace Sentinels

/-- What the four searches need of the markers. -/
structure Apart (s : Sentinels) : Prop where
  ascii : ∃ c word, s.completion.toList = c :: word ∧ c.toNat < 0x80
  image : s.image.toList ≠ []
  widget : s.widget.toList ≠ []
  environment : s.environment.toList ≠ []
  unbroken : '\n' ∉ s.completion.toList ∧ '\n' ∉ s.environment.toList
  announcements : ∀ name, ¬ s.image.toList <+: s.widget.toList ++ name
  sentinels : ¬ s.completion.toList <:+: s.environment.toList

-- The environment sentinel is three characters longer than the completion sentinel, so that there
-- are four places at which one could stand in it.
private theorem not_completion_infix_environment (stamp : String) :
    ¬ (ofStamp stamp).completion.toList <:+: (ofStamp stamp).environment.toList := by
  have completion : (ofStamp stamp).completion.toList =
      "__END_OF_OUTPUT__".toList ++ (stamp.toList ++ ['_', '_']) := toList_marker stamp .completion
  have environment : (ofStamp stamp).environment.toList =
      "__ENVIRONMENT_DATA__".toList ++ (stamp.toList ++ ['_', '_']) :=
    toList_marker stamp .environment
  rw [completion, environment]
  rintro ⟨before, after, whole⟩
  have few : before.length ≤ 3 := by
    have sizes := congrArg List.length whole
    simp at sizes
    omega
  match before, few with
  | [], _ => simp at whole
  | [a], _ => simp at whole
  | [a, b], _ => simp at whole
  | [a, b, c], _ => simp at whole

/-- The markers of a stamp serve, whatever the stamp is, as long as it does not break the line. -/
theorem apart_ofStamp {stamp : String} (single : '\n' ∉ stamp.toList) : (ofStamp stamp).Apart where
  ascii := ⟨'_', _, toList_marker stamp .completion, by decide⟩
  image := by simp [ofStamp]
  widget := by simp [ofStamp]
  environment := by simp [ofStamp]
  unbroken := by simp [ofStamp, single]
  announcements := by
    intro name
    simp [ofStamp]
  sentinels := not_completion_infix_environment stamp

end Sentinels

/-- A visible line: text, or the announcement of a widget file. -/
inductive Visible where
  | plain (text : List Char)
  | widget (name : List Char)
deriving DecidableEq, Repr

namespace Visible

def line (s : Sentinels) : Visible → List Char
  | plain text => text
  | widget name => s.widget.toList ++ name

def text? : Visible → Option (List Char)
  | plain text => some text
  | widget _ => none

def name? : Visible → Option (List Char)
  | plain _ => none
  | widget name => some name

theorem map_line_filter (s : Sentinels) (visible : List Visible) :
    (visible.filter fun v => v.name?.isNone).map (line s) = visible.filterMap text? := by
  induction visible with
  | nil => rfl
  | cons v visible ih =>
    cases v with
    | plain text => exact congrArg (text :: ·) ih
    | widget name => exact ih

end Visible

structure Report where
  visible : List Visible
  images : List (List Char)
  snapshot : List Char
deriving DecidableEq, Repr

namespace Report

variable (report : Report) (s : Sentinels)

def lines : List (List Char) :=
  report.visible.map (Visible.line s) ++ report.images.map (s.image.toList ++ ·)

def body : List Char :=
  unlines (report.lines s ++ [[], s.environment.toList, report.snapshot])

def text : List Char :=
  report.body s ++ (s.completion.toList ++ ['\n'])

def plain : List (List Char) :=
  report.visible.filterMap Visible.text?

def widgets : List (List Char) :=
  report.visible.filterMap Visible.name?

def output : Output where
  result := String.ofList (Text.trim (Text.joinLines report.plain))
  imageFiles := report.images.map String.ofList
  widgetFiles := report.widgets.map String.ofList
  environment :=
    match parseEnvironment report.snapshot with
    | .ok list => list
    | .error _ => []

/-- Each line is one line and says what it is, and the two sentinels that are searched for stand
nowhere but in their places. -/
structure Readable : Prop where
  unbroken : ∀ line ∈ report.lines s, '\n' ∉ line
  unmarked : ∀ text ∈ report.plain, ¬ s.image.toList <+: text ∧ ¬ s.widget.toList <+: text
  named : ∀ name ∈ report.images ++ report.widgets, name ≠ [] ∧ Text.trim name = name
  undivided : ∀ line ∈ report.lines s, ¬ s.environment.toList <:+: line
  unfinished : ∀ line ∈ report.lines s, ¬ s.completion.toList <:+: line
  snapshot : ¬ s.completion.toList <:+: report.snapshot

variable {report s} (ok : report.Readable s) (apart : s.Apart)

include ok

section Lines

theorem payload?_widget_line {v : Visible} (member : v ∈ report.visible) :
    Output.payload? s.widget.toList (v.line s) = v.name? := by
  cases v with
  | plain text =>
    exact Output.payload?_eq_none (ok.unmarked text (List.mem_filterMap.mpr ⟨_, member, rfl⟩)).2
  | widget name =>
    have announced : name ∈ report.widgets := List.mem_filterMap.mpr ⟨_, member, rfl⟩
    obtain ⟨nonempty, clean⟩ := ok.named name (List.mem_append_right _ announced)
    exact Output.payload?_append nonempty clean

theorem payload?_image_append {name : List Char} (member : name ∈ report.images) :
    Output.payload? s.image.toList (s.image.toList ++ name) = some name := by
  obtain ⟨nonempty, clean⟩ := ok.named name (List.mem_append_left _ member)
  exact Output.payload?_append nonempty clean

include apart

theorem payload?_image_line {v : Visible} (member : v ∈ report.visible) :
    Output.payload? s.image.toList (v.line s) = none := by
  refine Output.payload?_eq_none ?_
  cases v with
  | plain text => exact (ok.unmarked text (List.mem_filterMap.mpr ⟨_, member, rfl⟩)).1
  | widget name => exact apart.announcements name

theorem images_lines : (report.lines s ++ [[]]).filterMap (Output.payload? s.image.toList) =
    report.images := by
  have visible : (report.visible.map (Visible.line s)).filterMap
      (Output.payload? s.image.toList) = [] := by
    rw [List.filterMap_map, List.filterMap_eq_nil_iff]
    intro v member
    exact payload?_image_line ok apart member
  have images : (report.images.map (s.image.toList ++ ·)).filterMap
      (Output.payload? s.image.toList) = report.images := by
    rw [List.filterMap_map]
    refine (List.filterMap_congr ?_).trans List.filterMap_some
    intro name member
    exact payload?_image_append ok member
  rw [lines, List.filterMap_append, List.filterMap_append, visible, images, List.nil_append,
    List.filterMap_cons_none (Output.payload?_nil apart.image), List.filterMap_nil,
    List.append_nil]

theorem visible_lines :
    ((report.lines s ++ [[]]).filter fun line => (Output.payload? s.image.toList line).isNone) =
      report.visible.map (Visible.line s) ++ [[]] := by
  have visible : ∀ line ∈ report.visible.map (Visible.line s),
      (Output.payload? s.image.toList line).isNone = true := by
    intro line member
    obtain ⟨v, found, rfl⟩ := List.mem_map.mp member
    rw [payload?_image_line ok apart found, Option.isNone_none]
  have images : ∀ line ∈ report.images.map (s.image.toList ++ ·),
      ¬ (Output.payload? s.image.toList line).isNone = true := by
    intro line member
    obtain ⟨name, found, rfl⟩ := List.mem_map.mp member
    rw [payload?_image_append ok found]
    exact Bool.false_ne_true
  rw [lines, List.filter_append, List.filter_append, List.filter_eq_self.mpr visible,
    List.filter_eq_nil_iff.mpr images, List.append_nil, List.filter_cons_of_pos, List.filter_nil]
  rw [Output.payload?_nil apart.image, Option.isNone_none]

theorem widgets_lines :
    (report.visible.map (Visible.line s) ++ [[]]).filterMap (Output.payload? s.widget.toList) =
      report.widgets := by
  rw [List.filterMap_append, List.filterMap_map,
    List.filterMap_cons_none (Output.payload?_nil apart.widget), List.filterMap_nil,
    List.append_nil]
  refine List.filterMap_congr ?_
  intro v member
  exact payload?_widget_line ok member

theorem plain_lines :
    ((report.visible.map (Visible.line s) ++ [[]]).filter fun line =>
      (Output.payload? s.widget.toList line).isNone) = report.plain ++ [[]] := by
  have visible : ∀ v ∈ report.visible,
      (Output.payload? s.widget.toList (v.line s)).isNone = v.name?.isNone := by
    intro v member
    rw [payload?_widget_line ok member]
  have texts : (report.visible.map (Visible.line s)).filter
      (fun line => (Output.payload? s.widget.toList line).isNone) = report.plain := by
    rw [List.filter_map]
    exact (congrArg _ (List.filter_congr visible)).trans (Visible.map_line_filter s report.visible)
  rw [List.filter_append, texts, List.filter_cons_of_pos, List.filter_nil]
  rw [Output.payload?_nil apart.widget, Option.isNone_none]

end Lines

section Searches

include apart

theorem firstAt_text :
    Search.FirstAt s.completion.toList (report.text s) (report.body s).length := by
  obtain ⟨c, word, spelt, -⟩ := apart.ascii
  have nonempty : s.completion.toList ≠ [] := by
    rw [spelt]
    exact List.cons_ne_nil c word
  refine Text.firstAt_unlines nonempty apart.unbroken.1 ?_ _
  intro line member
  rcases List.mem_append.mp member with early | late
  · exact ok.unfinished line early
  simp only [List.mem_cons, List.not_mem_nil, or_false] at late
  rcases late with rfl | rfl | rfl
  · exact fun inside => nonempty (List.eq_nil_of_infix_nil inside)
  · exact apart.sentinels
  · exact ok.snapshot

theorem splitEnvironment_body : Output.splitEnvironment s (report.body s) =
    (unlines (report.lines s ++ [[]]), some ('\n' :: (report.snapshot ++ ['\n']))) := by
  have parts : report.body s = unlines (report.lines s ++ [[]]) ++
      (s.environment.toList ++ '\n' :: (report.snapshot ++ ['\n'])) := by
    rw [body, List.append_cons, Text.unlines_append, Text.unlines_cons, Text.unlines_cons]
    rfl
  have absent : ∀ line ∈ report.lines s ++ [[]], ¬ s.environment.toList <:+: line := by
    intro line member
    rcases List.mem_append.mp member with early | blank
    · exact ok.undivided line early
    · rw [List.mem_singleton.mp blank]
      exact fun inside => apart.environment (List.eq_nil_of_infix_nil inside)
  have first := Text.firstAt_unlines apart.environment apart.unbroken.2 absent
    ('\n' :: (report.snapshot ++ ['\n']))
  rw [← parts] at first
  rw [Output.splitEnvironment, Search.splitFirst, (Search.firstIndex_eq_some_iff _ _ _).mpr first]
  rw [Option.map_some, parts, List.take_left, ← List.append_assoc, ← List.length_append,
    List.drop_left]

omit apart in
private theorem filter_named {names : List (List Char)}
    (part : ∀ name ∈ names, name ∈ report.images ++ report.widgets) :
    (names.filter fun name => !name.isEmpty) = names := by
  refine List.filter_eq_self.mpr ?_
  intro name member
  simpa using (ok.named name (part name member)).1

theorem demultiplex_body :
    Output.demultiplex (String.ofList (report.body s)) s = report.output := by
  have unbroken : ∀ line ∈ report.lines s ++ [[]], '\n' ∉ line := by
    intro line member
    rcases List.mem_append.mp member with early | blank
    · exact ok.unbroken line early
    · rw [List.mem_singleton.mp blank]
      exact List.not_mem_nil
  have unbroken_visible : ∀ line ∈ report.visible.map (Visible.line s) ++ [[]], '\n' ∉ line := by
    rw [← visible_lines ok apart]
    intro line member
    exact unbroken line (List.mem_of_mem_filter member)
  have images : Output.payloads s.image.toList (unlines (report.lines s ++ [[]])) =
      report.images := by
    rw [Output.payloads_unlines unbroken, images_lines ok apart]
    exact filter_named ok fun name member => List.mem_append_left _ member
  -- The widget files are looked for in what the first extraction has kept.
  have visible : Output.kept s.image.toList (unlines (report.lines s ++ [[]])) =
      unlines (report.visible.map (Visible.line s) ++ [[]]) := by
    rw [Output.kept_unlines unbroken, visible_lines ok apart]
  have widgets : Output.payloads s.widget.toList
      (unlines (report.visible.map (Visible.line s) ++ [[]])) = report.widgets := by
    rw [Output.payloads_unlines unbroken_visible, widgets_lines ok apart]
    exact filter_named ok fun name member => List.mem_append_right _ member
  have plain : Text.trim (Output.kept s.widget.toList
      (unlines (report.visible.map (Visible.line s) ++ [[]]))) =
        Text.trim (Text.joinLines report.plain) := by
    rw [Output.kept_unlines unbroken_visible, plain_lines ok apart, Text.unlines_concat,
      List.append_nil, Text.trim_append_newline, Text.trim_unlines]
  have snapshot : parseEnvironment ('\n' :: (report.snapshot ++ ['\n'])) =
      parseEnvironment report.snapshot := by
    rw [parseEnvironment, parseEnvironment, Text.trim_cons_blank rfl,
      Text.trim_append_newline]
  simp only [Output.demultiplex, String.toList_ofList, splitEnvironment_body ok apart, images,
    visible, widgets, plain, Output.environmentOf, snapshot]
  rfl

end Searches

end Report

/-- A call that hears a report, however its bytes are cut, finishes with a text that is taken apart
into the parts of the report: all the plain lines, the names of the files in the order in which they
were announced, and the variables of the snapshot if it is one. -/
theorem Output.demultiplex_report {stamp : String} (single : '\n' ∉ stamp.toList) {report : Report}
    (ok : report.Readable (Sentinels.ofStamp stamp)) {chunks : List Bytes}
    (cut : chunks.flatten = Utf8.encode (report.text (Sentinels.ofStamp stamp))) :
    (chunks.foldl Call.onStdout
      (Call.new (Sentinels.ofStamp stamp).completion).markSent).finish.1.map
        (fun text => Output.demultiplex text (Sentinels.ofStamp stamp)) = .ok report.output := by
  have apart := Sentinels.apart_ofStamp single
  obtain ⟨c, word, spelt, ascii⟩ := apart.ascii
  have heard := Call.finish_of_text spelt ascii (Report.firstAt_text ok apart) cut
  have before : (report.text (Sentinels.ofStamp stamp)).take
      (report.body (Sentinels.ofStamp stamp)).length = report.body (Sentinels.ofStamp stamp) :=
    List.take_left
  rw [heard, before, Except.map, Report.demultiplex_body ok apart]

/-- A report with lines of both kinds, a carriage return, and characters of several bytes. -/
def mixedReport : Report where
  visible := [.plain "é\r".toList, .widget "w1.html".toList, .plain "  two".toList]
  images := ["p1.png".toList]
  snapshot := "[\x7b\"name\":\"x\",\"type\":\"numeric\",\"size\":56,\"value\":\" num 3\"\x7d]".toList

private theorem mixedReport_readable : mixedReport.Readable (Sentinels.ofStamp "99_0") where
  unbroken := by decide
  unmarked := by decide
  named := by decide
  undivided := by decide
  unfinished := by decide
  snapshot := by decide

private theorem mixedReport_output : mixedReport.output =
    ⟨"é\r\n  two", ["p1.png"], ["w1.html"], [⟨"x", ["numeric"], 56, " num 3"⟩]⟩ := by
  decide +kernel

/-- The two bytes of the first character come in different chunks. -/
theorem Output.demultiplex_mixedReport :
    ([(Utf8.encode (mixedReport.text (Sentinels.ofStamp "99_0"))).take 1,
      (Utf8.encode (mixedReport.text (Sentinels.ofStamp "99_0"))).drop 1].foldl Call.onStdout
        (Call.new (Sentinels.ofStamp "99_0").completion).markSent).finish.1.map
          (fun text => Output.demultiplex text (Sentinels.ofStamp "99_0")) =
      .ok ⟨"é\r\n  two", ["p1.png"], ["w1.html"], [⟨"x", ["numeric"], 56, " num 3"⟩]⟩ := by
  rw [← mixedReport_output]
  refine Output.demultiplex_report (by decide) mixedReport_readable ?_
  rw [List.flatten_cons, List.flatten_singleton, List.take_append_drop]

end NotebookKernel
