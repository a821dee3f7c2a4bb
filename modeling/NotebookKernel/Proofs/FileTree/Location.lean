import NotebookKernel.FileTree
import NotebookKernel.Proofs.Text.Utf8

/-!
# What paths lead to

A plain name joined to a path leads to the entry of that name in the directory that the path leads
to, and to nothing else. What a path leads to stays where it is while directories are made and files
are written.
-/

set_option autoImplicit false

namespace NotebookKernel

namespace Path

variable {base name : String}

theorem isPlainName_iff :
    isPlainName name = true ↔ name ≠ "" ∧ name ≠ "." ∧ name ≠ ".." ∧ '/' ∉ name.toList := by
  simp [isPlainName, and_assoc]

example : ["", ".", "..", "/etc/hosts", "../plot.png", "a/plot.png", "plot.png/"].any isPlainName =
    false := by decide

theorem isAbsolute_of_isPlainName (plain : isPlainName name = true) : isAbsolute name = false := by
  obtain ⟨-, -, -, unslashed⟩ := isPlainName_iff.mp plain
  rw [isAbsolute, beq_eq_false_iff_ne]
  intro first
  exact unslashed (List.mem_of_head? first)

theorem segments_ne_nil (path : String) : segments path ≠ [] := by
  rw [segments, ne_eq, List.map_eq_nil_iff]
  exact List.splitOnP_ne_nil _ _

theorem segments_append (front back : String) :
    segments (front ++ "/" ++ back) = segments front ++ segments back := by
  have apart : (front ++ "/" ++ back).toList = front.toList ++ '/' :: back.toList := by
    simp [String.toList_append]
  rw [segments, apart, List.splitOnP_append_cons _ _ (by simp), List.map_append]
  rfl

theorem segments_of_isPlainName (plain : isPlainName name = true) : segments name = [name] := by
  obtain ⟨-, -, -, unslashed⟩ := isPlainName_iff.mp plain
  have whole : ∀ c ∈ name.toList, (c == '/') = false := by
    intro c member
    rw [beq_eq_false_iff_ne]
    rintro rfl
    exact unslashed member
  rw [segments, List.splitOnP_eq_singleton whole, List.map_singleton, String.ofList_toList]

theorem join_empty (path : String) : join "" path = path := by simp [join]

theorem exists_join_eq {path : String} (relative : isAbsolute path = false) (given : base ≠ "") :
    ∃ front, join base path = front ++ "/" ++ path ∧ (base = front ∨ base = front ++ "/") := by
  by_cases closed : base.toList.getLast? = some '/'
  · obtain ⟨front, shape⟩ := List.getLast?_eq_some_iff.mp closed
    have same : base = String.ofList front ++ "/" := by
      rw [← String.toList_inj, shape, String.toList_append, String.toList_ofList]
      rfl
    refine ⟨String.ofList front, ?_, Or.inr same⟩
    simp [join, relative, given, closed, ← same]
  · refine ⟨base, ?_, Or.inl rfl⟩
    simp [join, relative, given, closed]

theorem getLast?_segments_join (base path : String) :
    (segments (join base path)).getLast? = (segments path).getLast? := by
  by_cases alone : isAbsolute path = true ∨ base = ""
  · have same : join base path = path := by
      rcases alone with absolute | rfl <;> simp [join, *]
    rw [same]
  · rw [not_or, Bool.not_eq_true] at alone
    obtain ⟨front, shape, -⟩ := exists_join_eq alone.1 alone.2
    rw [shape, segments_append, List.getLast?_append_of_ne_nil _ (segments_ne_nil path)]

/-- A name that is joined to a path is the last segment. Those before are the path's, of which an
empty one at the end does not count. -/
theorem exists_segments_join (plain : isPlainName name = true) (base : String) :
    ∃ way, segments (join base name) = way ++ [name] ∧
      (segments base = way ∨ segments base = way ++ [""]) := by
  by_cases given : base = ""
  · refine ⟨[], ?_, Or.inr ?_⟩
    · rw [given, join_empty, segments_of_isPlainName plain]
      rfl
    · rw [given]
      rfl
  · obtain ⟨front, shape, ending⟩ := exists_join_eq (isAbsolute_of_isPlainName plain) given
    refine ⟨segments front, ?_, ?_⟩
    · rw [shape, segments_append, segments_of_isPlainName plain]
    · rcases ending with rfl | closed
      · exact Or.inl rfl
      · have split := segments_append front ""
        rw [String.append_empty, ← closed] at split
        exact Or.inr split

theorem segments_of_isAbsolute {path : String} (absolute : isAbsolute path = true) :
    segments path = "" :: (segments path).tail := by
  obtain ⟨rest, shape⟩ := List.head?_eq_some_iff.mp (beq_iff_eq.mp absolute)
  rw [segments, shape, List.splitOnP_cons_eq_if_modifyHead]
  rfl

theorem isAbsolute_append (given : base ≠ "") (rest : String) :
    isAbsolute (base ++ rest) = isAbsolute base := by
  have nonempty : base.toList ≠ [] := by simpa using given
  rw [isAbsolute, isAbsolute, String.toList_append, List.head?_append_of_ne_nil _ nonempty]

theorem exists_join_append (plain : isPlainName name = true) (base : String) :
    ∃ rest, join base name = base ++ rest := by
  by_cases given : base = ""
  · exact ⟨name, by rw [given, join_empty, String.empty_append]⟩
  · obtain ⟨front, shape, ending⟩ := exists_join_eq (isAbsolute_of_isPlainName plain) given
    rcases ending with same | closed
    · exact ⟨"/" ++ name, by rw [shape, same, String.append_assoc]⟩
    · exact ⟨name, by rw [shape, closed]⟩

theorem isAbsolute_join (plain : isPlainName name = true) (base : String) :
    isAbsolute (join base name) = isAbsolute base := by
  by_cases given : base = ""
  · rw [given, join_empty, isAbsolute_of_isPlainName plain]
    rfl
  · obtain ⟨rest, shape⟩ := exists_join_append plain base
    rw [shape, isAbsolute_append given]

def origin (cwd : Place) (path : String) : Place :=
  if isAbsolute path then [] else cwd

theorem origin_join (plain : isPlainName name = true) (cwd : Place) (base : String) :
    origin cwd (join base name) = origin cwd base := by
  rw [origin, isAbsolute_join plain, origin]

end Path

namespace FileTree

variable {tree later : FileTree} {cwd place : Place} {path base name : String}

/-- The directory that names joined to a path are looked up in. The empty path stands for the
current one. -/
def folder? (tree : FileTree) (cwd : Place) (path : String) : Option Place :=
  if path = "" then some cwd else tree.locate? cwd path

/-- The segments of a path lead on from the root or from the current directory. The empty one in
front of an absolute path is no step. -/
theorem locate?_eq_some_iff : tree.locate? cwd path = some place ↔
    path ≠ "" ∧ isUsablePath path = true ∧
      (Path.segments path).foldl tree.step (some (Path.origin cwd path)) = some place := by
  have steps : ((if Path.isAbsolute path then (Path.segments path).tail else Path.segments path).foldl
      tree.step (some (if Path.isAbsolute path then [] else cwd))) =
        (Path.segments path).foldl tree.step (some (Path.origin cwd path)) := by
    cases absolute : Path.isAbsolute path with
    | false => simp [Path.origin, absolute]
    | true =>
      rw [Path.segments_of_isAbsolute absolute, List.tail_cons, Path.origin, absolute]
      rfl
  rw [locate?, steps]
  simp [and_assoc]

theorem isUsablePath_of_append {front back : String} (usable : isUsablePath (front ++ back) = true) :
    isUsablePath front = true := by
  simp only [isUsablePath, Utf8.ofString_append, String.toList_append, List.length_append,
    Bool.and_eq_true, decide_eq_true_eq, Bool.not_eq_true', List.contains_eq_mem,
    decide_eq_false_iff_not, List.mem_append] at usable ⊢
  obtain ⟨short, clean⟩ := usable
  exact ⟨by omega, fun found => clean (Or.inl found)⟩

theorem step_eq_some {before : Option Place} {segment : String}
    (stepped : tree.step before segment = some place) :
    ∃ origin, before = some origin ∧ tree.isDirectory origin = true := by
  cases before with
  | none => cases stepped
  | some origin =>
    refine ⟨origin, rfl, ?_⟩
    by_contra unfit
    simp [step, unfit] at stepped

theorem step_empty (directory : tree.isDirectory place = true) :
    tree.step (some place) "" = some place := by
  simp [step, directory]

theorem step_name (plain : Path.isPlainName name = true) {origin : Place}
    (stepped : tree.step (some origin) name = some place) : place = origin ++ [name] := by
  obtain ⟨nonempty, other, upward, -⟩ := Path.isPlainName_iff.mp plain
  simp only [step, nonempty, other, upward, or_self, if_false] at stepped
  split at stepped
  · cases stepped
  split at stepped
  · exact (Option.some.inj stepped).symm
  · cases stepped

theorem exists_folder_of_locate?_join (plain : Path.isPlainName name = true)
    (found : tree.locate? cwd (Path.join base name) = some place) :
    ∃ folder, tree.folder? cwd base = some folder ∧ place = folder ++ [name] := by
  obtain ⟨-, usable, followed⟩ := locate?_eq_some_iff.mp found
  obtain ⟨way, joined, segments⟩ := Path.exists_segments_join plain base
  rw [joined, List.foldl_concat, Path.origin_join plain] at followed
  obtain ⟨folder, reached, directory⟩ := step_eq_some followed
  rw [reached] at followed
  refine ⟨folder, ?_, step_name plain followed⟩
  have led : (Path.segments base).foldl tree.step (some (Path.origin cwd base)) = some folder := by
    rcases segments with same | closed
    · rw [same, reached]
    · rw [closed, List.foldl_concat, reached]
      exact step_empty directory
  rw [folder?]
  split
  · next given =>
    rw [given] at led
    have led : tree.step (some cwd) "" = some folder := led
    obtain ⟨_, same, directory⟩ := step_eq_some led
    cases same
    exact (step_empty directory).symm.trans led
  · next given =>
    obtain ⟨rest, longer⟩ := Path.exists_join_append plain base
    rw [longer] at usable
    exact locate?_eq_some_iff.mpr ⟨given, isUsablePath_of_append usable, led⟩

theorem isDirectory_mono (grown : tree.directories ⊆ later.directories)
    (directory : tree.isDirectory place = true) : later.isDirectory place = true := by
  simp only [isDirectory, Bool.or_eq_true, List.contains_eq_mem, decide_eq_true_eq] at directory ⊢
  exact directory.imp_right (@grown place)

theorem step_mono (grown : tree.directories ⊆ later.directories) {before : Option Place}
    {segment : String} (stepped : tree.step before segment = some place) :
    later.step before segment = some place := by
  obtain ⟨origin, rfl, directory⟩ := step_eq_some stepped
  have directory' := isDirectory_mono grown directory
  simpa [step, directory, directory'] using stepped

theorem foldl_step_mono (grown : tree.directories ⊆ later.directories) (segments : List String)
    {before : Option Place} (followed : segments.foldl tree.step before = some place) :
    segments.foldl later.step before = some place := by
  induction segments using List.reverseRecOn generalizing place with
  | nil => exact followed
  | append_singleton segments segment ih =>
    rw [List.foldl_append, List.foldl_cons, List.foldl_nil] at followed ⊢
    obtain ⟨origin, reached, -⟩ := step_eq_some followed
    rw [reached] at followed
    rw [ih reached]
    exact step_mono grown followed

theorem locate?_mono (grown : tree.directories ⊆ later.directories)
    (found : tree.locate? cwd path = some place) : later.locate? cwd path = some place := by
  obtain ⟨given, usable, followed⟩ := locate?_eq_some_iff.mp found
  exact locate?_eq_some_iff.mpr ⟨given, usable, foldl_step_mono grown _ followed⟩

theorem folder?_mono (grown : tree.directories ⊆ later.directories)
    (found : tree.folder? cwd path = some place) : later.folder? cwd path = some place := by
  rw [folder?] at found ⊢
  split at found
  · rw [if_pos ‹_›]
    exact found
  · next given =>
    rw [if_neg given]
    exact locate?_mono grown found

theorem files_addDirectory (tree : FileTree) (place : Place) :
    (tree.addDirectory place).files = tree.files := by
  rw [addDirectory]
  split <;> rfl

theorem subset_addDirectory (tree : FileTree) (place : Place) :
    tree.directories ⊆ (tree.addDirectory place).directories := by
  rw [addDirectory]
  split
  · exact List.Subset.refl _
  · exact List.subset_append_left _ _

theorem makeWay_keeps (tree : FileTree) (place : Place) (segments : List String) :
    (tree.makeWay place segments).2.files = tree.files ∧
      tree.directories ⊆ (tree.makeWay place segments).2.directories := by
  induction segments generalizing tree place with
  | nil => exact ⟨rfl, List.Subset.refl _⟩
  | cons segment rest ih =>
    rw [makeWay]
    split
    · exact ⟨rfl, List.Subset.refl _⟩
    · next next _ =>
      split
      · exact ⟨rfl, List.Subset.refl _⟩
      · obtain ⟨files, grown⟩ := ih (tree.addDirectory next) next
        rw [files_addDirectory] at files
        exact ⟨files, List.Subset.trans (subset_addDirectory tree next) grown⟩

theorem makeDirectories_keeps (tree : FileTree) (cwd : Place) (path : String) :
    (tree.makeDirectories cwd path).2.files = tree.files ∧
      tree.directories ⊆ (tree.makeDirectories cwd path).2.directories := by
  rw [makeDirectories]
  split
  · exact ⟨rfl, List.Subset.refl _⟩
  split <;> exact makeWay_keeps tree _ _

theorem locate?_congr (same : tree.directories = later.directories) (cwd : Place) (path : String) :
    tree.locate? cwd path = later.locate? cwd path := by
  have directories : tree.isDirectory = later.isDirectory := by
    funext place
    rw [isDirectory, isDirectory, same]
  have steps : tree.step = later.step := by
    funext before segment
    cases before with
    | none => rfl
    | some place => rw [step, step, directories]
  rw [locate?, locate?, steps]

theorem file?_congr (same : tree.files = later.files) (place : Place) :
    tree.file? place = later.file? place := by
  rw [file?, file?, same]

theorem files_putFile_congr (same : tree.files = later.files) (place : Place) (contents : Bytes) :
    (tree.putFile place contents).files = (later.putFile place contents).files := by
  simp only [putFile, same]

/-- Among the entries of other places there is none of a place itself, and all of any other. -/
private theorem find?_others (files : List (Place × Bytes)) (place other : Place) :
    ((files.filter fun entry => entry.1 != place).find? fun entry => entry.1 == other) =
      if place = other then none else files.find? fun entry => entry.1 == other := by
  rw [List.find?_filter]
  by_cases same : place = other
  · rw [if_pos same, List.find?_eq_none]
    intro entry _
    simp [same]
  · have kept : (fun entry : Place × Bytes => decide ((entry.1 != place) = true ∧
        (entry.1 == other) = true)) = fun entry => entry.1 == other := by
      funext entry
      by_cases own : entry.1 = other <;> simp [own, Ne.symm same]
    rw [kept, if_neg same]

theorem file?_putFile (tree : FileTree) (place other : Place) (contents : Bytes) :
    (tree.putFile place contents).file? other =
      if place = other then some contents else tree.file? other := by
  rw [file?, putFile, List.find?_append, find?_others]
  by_cases same : place = other
  · simp [same]
  · simp [same, file?]

theorem file?_remove (found : tree.locate? cwd path = some place) (other : Place) :
    (tree.remove cwd path).file? other = if place = other then none else tree.file? other := by
  rw [file?, remove, found]
  show ((tree.files.filter fun entry => entry.1 != place).find? fun entry => entry.1 == other).map
    Prod.snd = _
  rw [find?_others, file?]
  split <;> rfl

theorem directories_remove (tree : FileTree) (cwd : Place) (path : String) :
    (tree.remove cwd path).directories = tree.directories := by
  rw [remove]
  split <;> rfl

theorem write?_eq_some {contents : Bytes} (wrote : tree.write? cwd path contents = some later) :
    ∃ place, tree.locate? cwd path = some place ∧ later = tree.putFile place contents := by
  rw [write?] at wrote
  split at wrote
  · cases wrote
  · next place found =>
    split at wrote
    · cases wrote
    · exact ⟨place, found, (Option.some.inj wrote).symm⟩

/-- A path leads to where a file can be. -/
def Writable (tree : FileTree) (cwd : Place) (path : String) : Prop :=
  ∃ place, tree.locate? cwd path = some place ∧ tree.isDirectory place = false

theorem writable_congr (same : tree.directories = later.directories) (cwd : Place)
    (path : String) : tree.Writable cwd path ↔ later.Writable cwd path := by
  rw [Writable, Writable, locate?_congr same]
  simp only [isDirectory, same]

theorem isSome_write?_iff {contents : Bytes} :
    (tree.write? cwd path contents).isSome = true ↔ tree.Writable cwd path := by
  rw [write?, Writable]
  cases tree.locate? cwd path with
  | none => simp
  | some place => cases directory : tree.isDirectory place <;> simp [directory]

theorem isSome_write?_congr (same : tree.directories = later.directories) (cwd : Place)
    (path : String) (contents : Bytes) :
    (tree.write? cwd path contents).isSome = (later.write? cwd path contents).isSome := by
  rw [Bool.eq_iff_iff, isSome_write?_iff, isSome_write?_iff]
  exact writable_congr same cwd path

end FileTree

end NotebookKernel
