import NotebookKernel.Proofs.FileTree.Location

/-!
# Making directories

Where a path leads, if it leads anywhere, is for its text alone to say. The directories on the way
can be made once; then they are there, and making them again changes nothing.
-/

set_option autoImplicit false

namespace NotebookKernel

namespace Path

def walk (place : Place) (segment : String) : Place :=
  if segment = "" ∨ segment = "." then place
  else if segment = ".." then place.dropLast
  else place ++ [segment]

theorem walk_empty (place : Place) : walk place "" = place := if_pos (Or.inl rfl)

theorem walk_of_isPlainName {name : String} (plain : isPlainName name = true) (place : Place) :
    walk place name = place ++ [name] := by
  obtain ⟨nonempty, other, upward, -⟩ := isPlainName_iff.mp plain
  simp [walk, nonempty, other, upward]

def place (cwd : Place) (path : String) : Place :=
  (segments path).foldl walk (origin cwd path)

theorem join_ne_empty {name : String} (plain : isPlainName name = true) (base : String) :
    join base name ≠ "" := by
  intro bare
  have ends := getLast?_segments_join base name
  rw [bare, segments_of_isPlainName plain] at ends
  have same : "" = name := Option.some.inj ends
  exact (isPlainName_iff.mp plain).1 same.symm

theorem place_join {name : String} (plain : isPlainName name = true) (cwd : Place) (base : String) :
    place cwd (join base name) = place cwd base ++ [name] := by
  obtain ⟨way, joined, split⟩ := exists_segments_join plain base
  rw [place, place, joined, List.foldl_concat, origin_join plain, walk_of_isPlainName plain]
  rcases split with same | closed
  · rw [same]
  · rw [closed, List.foldl_concat, walk_empty]

end Path

namespace FileTree

variable {tree later made : FileTree} {cwd place origin : Place} {path base name : String}

theorem step_of_isPlainName (plain : Path.isPlainName name = true)
    (short : isUsableName name = true) (directory : tree.isDirectory place = true) :
    tree.step (some place) name = some (place ++ [name]) := by
  obtain ⟨nonempty, other, upward, -⟩ := Path.isPlainName_iff.mp plain
  simp [step, nonempty, other, upward, short, directory]

theorem isDirectory_of_step {segment : String}
    (stepped : tree.step (some origin) segment = some place) : tree.isDirectory origin = true := by
  obtain ⟨_, same, directory⟩ := step_eq_some stepped
  cases same
  exact directory

theorem step_eq_walk {segment : String} (stepped : tree.step (some origin) segment = some place) :
    place = Path.walk origin segment := by
  rw [step] at stepped
  rw [Path.walk]
  grind

theorem foldl_step_eq_walk {segments : List String}
    (followed : segments.foldl tree.step (some origin) = some place) :
    place = segments.foldl Path.walk origin := by
  induction segments using List.reverseRecOn generalizing place with
  | nil => exact (Option.some.inj followed).symm
  | append_singleton segments segment ih =>
    rw [List.foldl_concat] at followed
    obtain ⟨before, reached, -⟩ := step_eq_some followed
    rw [reached] at followed
    rw [List.foldl_concat, ← ih reached]
    exact step_eq_walk followed

theorem locate?_eq_place (found : tree.locate? cwd path = some place) :
    place = Path.place cwd path := by
  obtain ⟨-, -, followed⟩ := locate?_eq_some_iff.mp found
  exact foldl_step_eq_walk followed

def Clear (tree : FileTree) : Prop :=
  ∀ place, tree.isDirectory place = true → tree.file? place = none

theorem isDirectory_addDirectory (tree : FileTree) (place other : Place) :
    (tree.addDirectory place).isDirectory other = (tree.isDirectory other || place == other) := by
  rw [addDirectory]
  split
  · next directory =>
    by_cases same : place = other
    · rw [← same, directory, Bool.true_or]
    · simp [same]
  · by_cases same : place = other
    · simp [isDirectory, same]
    · simp [isDirectory, same, Ne.symm same]

theorem addDirectory_of_isDirectory (directory : tree.isDirectory place = true) :
    tree.addDirectory place = tree := by
  rw [addDirectory, if_pos directory]

theorem Clear.addDirectory (clear : tree.Clear) (free : tree.file? place = none) :
    (tree.addDirectory place).Clear := by
  intro other directory
  rw [file?_congr (files_addDirectory tree place)]
  rw [isDirectory_addDirectory, Bool.or_eq_true, beq_iff_eq] at directory
  rcases directory with old | rfl
  · exact clear other old
  · exact free

theorem makeWay_cons_iff {segment : String} {rest : List String} :
    tree.makeWay place (segment :: rest) = (true, made) ↔
      tree.step (some place) segment = some (Path.walk place segment) ∧
        tree.file? (Path.walk place segment) = none ∧
          (tree.addDirectory (Path.walk place segment)).makeWay (Path.walk place segment) rest =
            (true, made) := by
  rw [makeWay]
  cases stepped : tree.step (some place) segment with
  | none => simp
  | some next =>
    obtain rfl := step_eq_walk stepped
    cases found : tree.file? (Path.walk place segment) <;> simp [found]

theorem makeWay_append_iff {first second : List String} :
    tree.makeWay place (first ++ second) = (true, later) ↔
      ∃ between, tree.makeWay place first = (true, between) ∧
        between.makeWay (first.foldl Path.walk place) second = (true, later) := by
  induction first generalizing tree place with
  | nil => simp [makeWay]
  | cons segment first ih =>
    simp only [List.cons_append, makeWay_cons_iff, ih, List.foldl_cons, and_assoc, exists_and_left]

theorem makeWay_grown {segments : List String}
    (done : tree.makeWay place segments = (true, made)) :
    made.files = tree.files ∧ tree.directories ⊆ made.directories := by
  have keeps := tree.makeWay_keeps place segments
  rw [done] at keeps
  exact keeps

theorem makeWay_reached {segments : List String} (directory : tree.isDirectory place = true)
    (done : tree.makeWay place segments = (true, made)) :
    segments.foldl made.step (some place) = some (segments.foldl Path.walk place) ∧
      made.isDirectory (segments.foldl Path.walk place) = true := by
  induction segments generalizing tree place with
  | nil =>
    obtain ⟨-, rfl⟩ := Prod.mk.inj done
    exact ⟨rfl, directory⟩
  | cons segment segments ih =>
    have grown := (makeWay_grown done).2
    obtain ⟨stepped, -, rest⟩ := makeWay_cons_iff.mp done
    rw [List.foldl_cons, List.foldl_cons, step_mono grown stepped]
    refine ih ?_ rest
    rw [isDirectory_addDirectory, beq_self_eq_true, Bool.or_true]

theorem makeWay_clear {segments : List String} (clear : tree.Clear)
    (done : tree.makeWay place segments = (true, made)) : made.Clear := by
  induction segments generalizing tree place with
  | nil =>
    obtain ⟨-, rfl⟩ := Prod.mk.inj done
    exact clear
  | cons segment segments ih =>
    obtain ⟨-, free, rest⟩ := makeWay_cons_iff.mp done
    exact ih (clear.addDirectory free) rest

theorem foldl_step_none (tree : FileTree) (segments : List String) :
    segments.foldl tree.step none = none := by
  induction segments with
  | nil => rfl
  | cons segment segments ih => exact ih

theorem isDirectory_of_foldl_step {segments : List String}
    (followed : segments.foldl tree.step (some origin) = some place)
    (directory : tree.isDirectory place = true) : tree.isDirectory origin = true := by
  cases segments with
  | nil =>
    obtain rfl := Option.some.inj followed
    exact directory
  | cons segment segments =>
    rw [List.foldl_cons] at followed
    cases stepped : tree.step (some origin) segment with
    | none =>
      rw [stepped, foldl_step_none] at followed
      cases followed
    | some next => exact isDirectory_of_step stepped

theorem makeWay_of_reached {segments : List String} (clear : tree.Clear)
    (followed : segments.foldl tree.step (some origin) = some place)
    (directory : tree.isDirectory place = true) : tree.makeWay origin segments = (true, tree) := by
  induction segments generalizing origin with
  | nil => rfl
  | cons segment segments ih =>
    rw [List.foldl_cons] at followed
    cases stepped : tree.step (some origin) segment with
    | none =>
      rw [stepped, foldl_step_none] at followed
      cases followed
    | some next =>
      obtain rfl := step_eq_walk stepped
      rw [stepped] at followed
      have here := isDirectory_of_foldl_step followed directory
      refine makeWay_cons_iff.mpr ⟨stepped, clear _ here, ?_⟩
      rw [addDirectory_of_isDirectory here]
      exact ih followed

theorem makeDirectories_eq_iff : tree.makeDirectories cwd path = (true, made) ↔
    isUsablePath path = true ∧
      tree.makeWay (Path.origin cwd path) (Path.segments path) = (true, made) := by
  rw [makeDirectories, Path.origin]
  cases isUsablePath path <;> cases Path.isAbsolute path <;> simp

theorem makeDirectories_reached (done : tree.makeDirectories cwd path = (true, made)) :
    (Path.segments path).foldl made.step (some (Path.origin cwd path)) =
        some (Path.place cwd path) ∧
      made.isDirectory (Path.place cwd path) = true := by
  obtain ⟨-, done⟩ := makeDirectories_eq_iff.mp done
  refine makeWay_reached ?_ done
  obtain ⟨first, rest, split⟩ := List.exists_cons_of_ne_nil (Path.segments_ne_nil path)
  rw [split, makeWay_cons_iff] at done
  exact isDirectory_of_step done.1

theorem makeDirectories_again (done : tree.makeDirectories cwd path = (true, made))
    (grown : made.directories ⊆ later.directories) (clear : later.Clear) :
    later.makeDirectories cwd path = (true, later) := by
  obtain ⟨followed, directory⟩ := makeDirectories_reached done
  refine makeDirectories_eq_iff.mpr ⟨(makeDirectories_eq_iff.mp done).1, ?_⟩
  exact makeWay_of_reached clear (foldl_step_mono grown _ followed) (isDirectory_mono grown directory)

theorem makeDirectories_join (done : tree.makeDirectories cwd base = (true, made))
    (plain : Path.isPlainName name = true) (short : isUsableName name = true)
    (usable : isUsablePath (Path.join base name) = true)
    (free : tree.file? (Path.place cwd base ++ [name]) = none) :
    tree.makeDirectories cwd (Path.join base name) =
      (true, made.addDirectory (Path.place cwd base ++ [name])) := by
  obtain ⟨-, directory⟩ := makeDirectories_reached done
  obtain ⟨-, done⟩ := makeDirectories_eq_iff.mp done
  obtain ⟨way, joined, split⟩ := Path.exists_segments_join plain base
  have led : way.foldl Path.walk (Path.origin cwd base) = Path.place cwd base := by
    rcases split with same | closed
    · rw [Path.place, same]
    · rw [Path.place, closed, List.foldl_concat, Path.walk_empty]
  have short_done : tree.makeWay (Path.origin cwd base) way = (true, made) := by
    rcases split with same | closed
    · rw [← same, done]
    · rw [closed, makeWay_append_iff] at done
      obtain ⟨between, done, rest⟩ := done
      obtain ⟨stepped, -, rest⟩ := makeWay_cons_iff.mp rest
      rw [Path.walk_empty, addDirectory_of_isDirectory (isDirectory_of_step stepped)] at rest
      exact done.trans rest
  refine makeDirectories_eq_iff.mpr ⟨usable, ?_⟩
  rw [joined, Path.origin_join plain, makeWay_append_iff]
  refine ⟨made, short_done, ?_⟩
  rw [led, makeWay_cons_iff, Path.walk_of_isPlainName plain]
  refine ⟨step_of_isPlainName plain short directory, ?_, rfl⟩
  rw [file?_congr (makeWay_grown done).1]
  exact free

theorem locate?_join (done : tree.makeDirectories cwd base = (true, made))
    (plain : Path.isPlainName name = true) (short : isUsableName name = true)
    (usable : isUsablePath (Path.join base name) = true) :
    made.locate? cwd (Path.join base name) = some (Path.place cwd base ++ [name]) := by
  obtain ⟨followed, directory⟩ := makeDirectories_reached done
  obtain ⟨way, joined, split⟩ := Path.exists_segments_join plain base
  refine locate?_eq_some_iff.mpr ⟨Path.join_ne_empty plain base, usable, ?_⟩
  have led : way.foldl made.step (some (Path.origin cwd base)) = some (Path.place cwd base) := by
    rcases split with same | closed
    · rw [← same, followed]
    · rw [closed, List.foldl_concat] at followed
      obtain ⟨before, reached, here⟩ := step_eq_some followed
      rw [reached, step_empty here] at followed
      rw [reached, followed]
  rw [joined, List.foldl_concat, Path.origin_join plain, led]
  exact step_of_isPlainName plain short directory

theorem makeDirectories_grown (done : tree.makeDirectories cwd path = (true, made)) :
    made.files = tree.files ∧ tree.directories ⊆ made.directories :=
  makeWay_grown (makeDirectories_eq_iff.mp done).2

theorem makeDirectories_clear (clear : tree.Clear)
    (done : tree.makeDirectories cwd path = (true, made)) : made.Clear :=
  makeWay_clear clear (makeDirectories_eq_iff.mp done).2

end FileTree

end NotebookKernel
