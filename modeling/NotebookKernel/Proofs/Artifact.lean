import NotebookKernel.Artifact
import NotebookKernel.Proofs.FileTree.Making

/-!
# A directory store as a map

What a store holds is a map from kinds and names to contents, in which the last write counts. The
map is carried along the calls: below the root of the store there are its files and no others, each
two names below the root. A name is tested by its text alone, and the directory that the root leads
to is also for the texts alone to say, so that neither changes while the tree grows.
-/

set_option autoImplicit false

namespace NotebookKernel

namespace Path

def fileName? (path : String) : Option String :=
  (components path).getLast?.filter (· != "..")

private theorem slash_notMem_of_mem_splitOnP {text piece : List Char}
    (found : piece ∈ text.splitOnP (· == '/')) : '/' ∉ piece := by
  induction text generalizing piece with
  | nil =>
    obtain rfl := List.mem_singleton.mp found
    exact List.not_mem_nil
  | cons c text ih =>
    rw [List.splitOnP_cons_eq_if_modifyHead] at found
    split at found
    · rcases List.mem_cons.mp found with rfl | later
      · exact List.not_mem_nil
      · exact ih later
    · next other =>
      obtain ⟨first, rest, split⟩ :=
        List.exists_cons_of_ne_nil (List.splitOnP_ne_nil (· == '/') text)
      rw [split, List.modifyHead_cons, List.mem_cons] at found
      rw [split] at ih
      rcases found with rfl | later
      · rw [List.mem_cons, not_or]
        refine ⟨?_, ih List.mem_cons_self⟩
        rintro rfl
        exact other rfl
      · exact ih (List.mem_cons_of_mem _ later)

theorem slash_notMem_of_mem_segments {path segment : String} (member : segment ∈ segments path) :
    '/' ∉ segment.toList := by
  obtain ⟨piece, found, rfl⟩ := List.mem_map.mp member
  rw [String.toList_ofList]
  exact slash_notMem_of_mem_splitOnP found

theorem fileName?_eq_self_iff {name : String} :
    fileName? name = some name ↔ isPlainName name = true := by
  constructor
  · intro whole
    obtain ⟨last, down⟩ := Option.filter_eq_some_iff.mp whole
    have part := List.mem_of_getLast? last
    rw [components, List.mem_filter, Bool.and_eq_true, bne_iff_ne, bne_iff_ne] at part
    obtain ⟨member, nonempty, other⟩ := part
    exact isPlainName_iff.mpr
      ⟨nonempty, other, bne_iff_ne.mp down, slash_notMem_of_mem_segments member⟩
  · intro plain
    obtain ⟨nonempty, other, down, -⟩ := isPlainName_iff.mp plain
    simp [fileName?, components, segments_of_isPlainName plain, nonempty, other, down]

end Path

/-- What a store is asked to keep. -/
structure Artifact where
  kind : ArtifactKind
  name : String
  contents : Bytes

namespace ArtifactKind

theorem isPlainName_category (kind : ArtifactKind) : Path.isPlainName kind.category = true := by
  cases kind <;> decide

theorem eq_of_names {kind kind' : ArtifactKind} {name name' : String}
    (same : [kind.category, name] = [kind'.category, name']) : kind = kind' ∧ name = name' := by
  obtain ⟨categories, names⟩ := List.cons_eq_cons.mp same
  refine ⟨?_, List.singleton_inj.mp names⟩
  cases kind <;> cases kind' <;> first | rfl | exact absurd categories (by decide)

end ArtifactKind

namespace DirectoryStore

variable {store : DirectoryStore} {cwd : Place} {start tree : FileTree} {artifact : Artifact}
  {artifacts : List Artifact}

/-- The file of an artifact: its path, as the text that it is given back as. -/
def path (store : DirectoryStore) (kind : ArtifactKind) (name : String) : String :=
  Path.join (Path.join store.root kind.category) name

def slot (store : DirectoryStore) (cwd : Place) (kind : ArtifactKind) (name : String) : Place :=
  Path.place cwd store.root ++ [kind.category, name]

theorem place_path {name : String} (plain : Path.isPlainName name = true) (kind : ArtifactKind) :
    Path.place cwd (store.path kind name) = store.slot cwd kind name := by
  rw [path, Path.place_join plain, Path.place_join kind.isPlainName_category, List.append_assoc]
  rfl

def next (store : DirectoryStore) (cwd : Place) (tree : FileTree) (artifact : Artifact) : FileTree :=
  (store.store tree cwd artifact.kind artifact.name artifact.contents).2

def run (store : DirectoryStore) (cwd : Place) (tree : FileTree) (artifacts : List Artifact) :
    FileTree :=
  artifacts.foldl (store.next cwd) tree

/-- Whether the host does all that keeping an artifact takes. -/
def grants (store : DirectoryStore) (cwd : Place) (tree : FileTree) (artifact : Artifact) : Bool :=
  let made := tree.makeDirectories cwd (Path.join store.root artifact.kind.category)
  made.1 &&
    (made.2.write? cwd (store.path artifact.kind artifact.name) artifact.contents).isSome

/-- Whether the host does so for all artifacts with plain names, one after another. -/
def grantsAll (store : DirectoryStore) (cwd : Place) : FileTree → List Artifact → Bool
  | _, [] => true
  | tree, artifact :: rest => (!Path.isPlainName artifact.name || store.grants cwd tree artifact) &&
      store.grantsAll cwd (store.next cwd tree artifact) rest

def kept (artifacts : List Artifact) (kind : ArtifactKind) (name : String) : Option Bytes :=
  ((artifacts.filter fun artifact => Path.isPlainName artifact.name &&
    (artifact.kind == kind && artifact.name == name)).getLast?).map Artifact.contents

theorem kept_concat (artifacts : List Artifact) (artifact : Artifact) (kind : ArtifactKind)
    (name : String) : kept (artifacts ++ [artifact]) kind name =
      if Path.isPlainName artifact.name = true ∧ artifact.kind = kind ∧ artifact.name = name then
        some artifact.contents
      else kept artifacts kind name := by
  have test : (Path.isPlainName artifact.name = true ∧ artifact.kind = kind ∧
      artifact.name = name) ↔ (Path.isPlainName artifact.name &&
        (artifact.kind == kind && artifact.name == name)) = true := by
    simp
  simp only [test, kept, List.filter_append, List.filter_cons, List.filter_nil]
  split
  · rw [List.getLast?_concat]
    rfl
  · rw [List.append_nil]

theorem exists_kept_self (plain : Path.isPlainName artifact.name = true) {contents : Bytes} :
    (∃ kind name, [artifact.kind.category, artifact.name] = [kind.category, name] ∧
      kept (artifacts ++ [artifact]) kind name = some contents) ↔ artifact.contents = contents := by
  have own : kept (artifacts ++ [artifact]) artifact.kind artifact.name =
      some artifact.contents := by
    rw [kept_concat, if_pos ⟨plain, rfl, rfl⟩]
  constructor
  · rintro ⟨kind, name, place, same⟩
    obtain ⟨rfl, rfl⟩ := ArtifactKind.eq_of_names place
    exact Option.some.inj (own.symm.trans same)
  · intro same
    exact ⟨artifact.kind, artifact.name, rfl, own.trans (congrArg some same)⟩

theorem exists_kept_other {rest : Place} (other : [artifact.kind.category, artifact.name] ≠ rest)
    {contents : Bytes} : (∃ kind name, rest = [kind.category, name] ∧
      kept (artifacts ++ [artifact]) kind name = some contents) ↔
    ∃ kind name, rest = [kind.category, name] ∧ kept artifacts kind name = some contents := by
  refine exists_congr fun kind => exists_congr fun name => and_congr_right fun place => ?_
  rw [kept_concat, if_neg]
  rintro ⟨-, rfl, rfl⟩
  exact other place.symm

theorem slot_injective {kind kind' : ArtifactKind} {name name' : String}
    (same : store.slot cwd kind name = store.slot cwd kind' name') :
    kind = kind' ∧ name = name' :=
  ArtifactKind.eq_of_names (List.append_cancel_left same)

theorem slot_ne_folder (kind other : ArtifactKind) (name : String) :
    store.slot cwd kind name ≠ Path.place cwd store.root ++ [other.category] := by
  intro same
  have lengths := congrArg List.length (List.append_cancel_left same)
  cases lengths

theorem reference_injective {kind kind' : ArtifactKind} {name name' : String}
    (plain : Path.isPlainName name = true) (plain' : Path.isPlainName name' = true)
    (same : kind.category ++ "/" ++ name = kind'.category ++ "/" ++ name') :
    kind = kind' ∧ name = name' := by
  have segments := congrArg Path.segments same
  rw [Path.segments_append, Path.segments_append, Path.segments_of_isPlainName plain,
    Path.segments_of_isPlainName plain', Path.segments_of_isPlainName kind.isPlainName_category,
    Path.segments_of_isPlainName kind'.isPlainName_category] at segments
  exact ArtifactKind.eq_of_names segments

def stored (store : DirectoryStore) (artifact : Artifact) : StoredArtifact :=
  ⟨artifact.kind.category ++ "/" ++ artifact.name, store.path artifact.kind artifact.name⟩

theorem store_of_not_plain {name : String} (unplain : Path.isPlainName name = false)
    (kind : ArtifactKind) (contents : Bytes) : store.store tree cwd kind name contents =
      (.error (.artifactIo (store.path kind name) .nameNotPlain), tree) := by
  rw [DirectoryStore.store, unplain]
  rfl

theorem store_of_grants (plain : Path.isPlainName artifact.name = true)
    (granted : store.grants cwd tree artifact = true) : ∃ made,
    tree.makeDirectories cwd (Path.join store.root artifact.kind.category) = (true, made) ∧
      made.locate? cwd (store.path artifact.kind artifact.name) =
        some (store.slot cwd artifact.kind artifact.name) ∧
      store.store tree cwd artifact.kind artifact.name artifact.contents =
        (.ok (store.stored artifact),
          made.putFile (store.slot cwd artifact.kind artifact.name) artifact.contents) := by
  rw [grants, Bool.and_eq_true, Option.isSome_iff_exists] at granted
  obtain ⟨complete, later, wrote⟩ := granted
  rcases done : tree.makeDirectories cwd (Path.join store.root artifact.kind.category) with
    ⟨all, made⟩
  rw [done] at complete wrote
  obtain rfl : all = true := complete
  obtain ⟨place, found, same⟩ := FileTree.write?_eq_some wrote
  obtain rfl : place = store.slot cwd artifact.kind artifact.name := by
    rw [FileTree.locate?_eq_place found, place_path plain]
  refine ⟨made, rfl, found, ?_⟩
  rw [path] at wrote
  rw [DirectoryStore.store, plain, done]
  simp only [Bool.not_true, Bool.false_eq_true, if_false, wrote, same]
  rfl

theorem file?_of_made {made : FileTree} {dir : String}
    (done : tree.makeDirectories cwd dir = (true, made)) (slot other : Place) (contents : Bytes) :
    (made.putFile slot contents).file? other =
      if slot = other then some contents else tree.file? other := by
  rw [FileTree.file?_putFile, FileTree.file?_congr (FileTree.makeDirectories_grown done).1]

/-- How a call is answered: what names are rejected, what becomes of the tree then, and what callers
are given otherwise. -/
structure Answers (store : DirectoryStore) (cwd : Place) (tree : FileTree) (artifact : Artifact)
    (answer : Except Fault StoredArtifact × FileTree) : Prop where
  rejected : (∃ fault, answer.1 = .error fault) ↔
    artifact.name = "" ∨ artifact.name = "." ∨ artifact.name = ".." ∨ '/' ∈ artifact.name.toList
  tested : (∃ fault, answer.1 = .error fault) ↔ Path.fileName? artifact.name ≠ some artifact.name
  unchanged : ∀ fault, answer.1 = .error fault →
    fault = .artifactIo (store.path artifact.kind artifact.name) .nameNotPlain ∧ answer.2 = tree
  accepted : ∀ stored, answer.1 = .ok stored → stored =
    ⟨artifact.kind.category ++ "/" ++ artifact.name, store.path artifact.kind artifact.name⟩

theorem answers_store
    (granted : Path.isPlainName artifact.name = true → store.grants cwd tree artifact = true) :
    store.Answers cwd tree artifact
      (store.store tree cwd artifact.kind artifact.name artifact.contents) := by
  have unplain : (artifact.name = "" ∨ artifact.name = "." ∨ artifact.name = ".." ∨
      '/' ∈ artifact.name.toList) ↔ Path.isPlainName artifact.name = false := by
    rw [← Bool.not_eq_true, Path.isPlainName_iff]
    simp only [ne_eq, not_and_or, not_not]
  have tested : Path.fileName? artifact.name ≠ some artifact.name ↔
      Path.isPlainName artifact.name = false := by
    rw [ne_eq, Path.fileName?_eq_self_iff, Bool.not_eq_true]
  cases plain : Path.isPlainName artifact.name with
  | false =>
    rw [store_of_not_plain plain]
    refine ⟨?_, ?_, ?_, ?_⟩
    · exact iff_of_true ⟨_, rfl⟩ (unplain.mpr plain)
    · exact iff_of_true ⟨_, rfl⟩ (tested.mpr plain)
    · intro fault failed
      exact ⟨(Except.error.inj failed).symm, rfl⟩
    · intro stored kept
      cases kept
  | true =>
    obtain ⟨made, -, -, answer⟩ := store_of_grants plain (granted plain)
    rw [plain] at unplain tested
    rw [answer]
    have fine : ¬ ∃ fault : Fault, Except.ok (store.stored artifact) = Except.error fault := by
      rintro ⟨fault, failed⟩
      cases failed
    refine ⟨?_, ?_, ?_, ?_⟩
    · exact iff_of_false fine (by simp [unplain])
    · exact iff_of_false fine (by simp [tested])
    · intro fault failed
      cases failed
    · intro stored kept
      exact (Except.ok.inj kept).symm

/-- What calls preserve: below the root of the store there are the files that are kept, and their
paths lead there. All other files are those of the start. -/
structure Filed (store : DirectoryStore) (cwd : Place) (start : FileTree) (done : List Artifact)
    (tree : FileTree) : Prop where
  below : ∀ rest contents, tree.file? (Path.place cwd store.root ++ rest) = some contents ↔
    ∃ kind name, rest = [kind.category, name] ∧ kept done kind name = some contents
  elsewhere : ∀ other, ¬ Path.place cwd store.root <+: other → tree.file? other = start.file? other
  reached : ∀ artifact ∈ done, Path.isPlainName artifact.name = true →
    tree.locate? cwd (store.path artifact.kind artifact.name) =
      some (store.slot cwd artifact.kind artifact.name)

theorem filed_start (fresh : ∀ rest, start.file? (Path.place cwd store.root ++ rest) = none) :
    store.Filed cwd start [] start := by
  refine ⟨?_, fun _ _ => rfl, by simp⟩
  intro rest contents
  simp [fresh, kept]

theorem Filed.next {done : List Artifact} (filed : store.Filed cwd start done tree)
    (granted : Path.isPlainName artifact.name = true → store.grants cwd tree artifact = true) :
    store.Filed cwd start (done ++ [artifact]) (store.next cwd tree artifact) := by
  rw [DirectoryStore.next]
  cases plain : Path.isPlainName artifact.name with
  | false =>
    rw [store_of_not_plain plain]
    refine ⟨?_, filed.elsewhere, ?_⟩
    · simpa [kept_concat, plain] using filed.below
    · intro other member named
      rcases List.mem_append.mp member with old | new
      · exact filed.reached other old named
      · obtain rfl := List.mem_singleton.mp new
        rw [plain] at named
        cases named
  | true =>
    obtain ⟨made, done, reached, answer⟩ := store_of_grants plain (granted plain)
    have files := file?_of_made done
    have grown := (FileTree.makeDirectories_grown done).2
    rw [answer]
    refine ⟨?_, ?_, ?_⟩
    · intro rest contents
      have own : store.slot cwd artifact.kind artifact.name = Path.place cwd store.root ++ rest ↔
          [artifact.kind.category, artifact.name] = rest := List.append_right_inj _
      rw [files]
      by_cases here : [artifact.kind.category, artifact.name] = rest
      · rw [if_pos (own.mpr here), ← here, exists_kept_self plain, Option.some.injEq]
      · rw [if_neg (mt own.mp here), filed.below, exists_kept_other here]
    · intro other outside
      rw [files, if_neg, filed.elsewhere other outside]
      rintro rfl
      exact outside (List.prefix_append _ _)
    · intro other member named
      rcases List.mem_append.mp member with old | new
      · exact FileTree.locate?_mono grown (filed.reached other old named)
      · obtain rfl := List.mem_singleton.mp new
        exact FileTree.locate?_mono (List.Subset.refl _) reached

theorem Filed.run {done : List Artifact} (filed : store.Filed cwd start done tree)
    (granted : store.grantsAll cwd tree artifacts = true) :
    store.Filed cwd start (done ++ artifacts) (store.run cwd tree artifacts) := by
  induction artifacts generalizing done tree with
  | nil =>
    rw [List.append_nil]
    exact filed
  | cons artifact rest ih =>
    rw [grantsAll, Bool.and_eq_true, Bool.or_eq_true, Bool.not_eq_true'] at granted
    obtain ⟨here, after⟩ := granted
    have step : store.Filed cwd start (done ++ [artifact]) (store.next cwd tree artifact) := by
      apply filed.next
      intro plain
      exact here.resolve_left (by simp [plain])
    have whole := ih step after
    rw [List.append_assoc] at whole
    exact whole

theorem Filed.read? {done : List Artifact} (filed : store.Filed cwd start done tree)
    (member : artifact ∈ done) (plain : Path.isPlainName artifact.name = true) :
    tree.read? cwd (store.path artifact.kind artifact.name) =
      kept done artifact.kind artifact.name := by
  rw [FileTree.read?, filed.reached artifact member plain, Option.bind_some]
  refine Option.ext fun contents => (filed.below _ contents).trans ?_
  constructor
  · rintro ⟨kind, name, place, same⟩
    obtain ⟨rfl, rfl⟩ := ArtifactKind.eq_of_names place
    exact same
  · intro same
    exact ⟨artifact.kind, artifact.name, rfl, same⟩

theorem grants_of_grantsAll {before after : List Artifact}
    (granted : store.grantsAll cwd tree (before ++ artifact :: after) = true)
    (plain : Path.isPlainName artifact.name = true) :
    store.grants cwd (store.run cwd tree before) artifact = true := by
  induction before generalizing tree with
  | nil =>
    rw [List.nil_append, grantsAll, plain, Bool.not_true, Bool.false_or, Bool.and_eq_true] at granted
    exact granted.1
  | cons first before ih =>
    rw [List.cons_append, grantsAll, Bool.and_eq_true] at granted
    exact ih granted.2

/-- A store that is a map in which the last write counts. -/
structure ActsAsMap (store : DirectoryStore) (cwd : Place) (start : FileTree)
    (artifacts : List Artifact) : Prop where
  answers : ∀ before artifact after, artifacts = before ++ artifact :: after →
    store.Answers cwd (store.run cwd start before) artifact (store.store
      (store.run cwd start before) cwd artifact.kind artifact.name artifact.contents)
  filed : store.Filed cwd start artifacts (store.run cwd start artifacts)
  read : ∀ artifact ∈ artifacts, Path.isPlainName artifact.name = true →
    (store.run cwd start artifacts).read? cwd (store.path artifact.kind artifact.name) =
      kept artifacts artifact.kind artifact.name
  /-- Neither a reference nor a path is that of two kinds or names. -/
  apart : ∀ a ∈ artifacts, ∀ b ∈ artifacts,
    Path.isPlainName a.name = true → Path.isPlainName b.name = true →
      a.kind.category ++ "/" ++ a.name = b.kind.category ++ "/" ++ b.name ∨
        store.path a.kind a.name = store.path b.kind b.name →
      a.kind = b.kind ∧ a.name = b.name

/-- With a root that has no files below it, and a host that does what it is asked for, a store in a
directory is a map: it takes plain names and rejects all others, which change nothing, and at the
end there are those files below the root that were stored last under their kinds and names. -/
theorem actsAsMap_run (store : DirectoryStore) (cwd : Place) (start : FileTree)
    (artifacts : List Artifact)
    (fresh : ∀ rest, start.file? (Path.place cwd store.root ++ rest) = none)
    (granted : store.grantsAll cwd start artifacts = true) :
    store.ActsAsMap cwd start artifacts := by
  have filed : store.Filed cwd start artifacts (store.run cwd start artifacts) :=
    (filed_start fresh).run granted
  refine ⟨?_, filed, fun _ member plain => filed.read? member plain, ?_⟩
  · rintro before artifact after rfl
    exact answers_store (grants_of_grantsAll granted)
  · intro a member b member' plain plain' same
    rcases same with references | paths
    · exact reference_injective plain plain' references
    · have places := filed.reached a member plain
      rw [paths, filed.reached b member' plain', Option.some.injEq] at places
      exact (slot_injective places).imp Eq.symm Eq.symm

/-- Two kinds have a file of one name, of which one is stored again, and one name leads upwards. -/
theorem actsAsMap_plots :
    let artifacts : List Artifact := [⟨.image, "p.jpg", [1]⟩, ⟨.image, "../p.jpg", [2]⟩,
      ⟨.widget, "p.jpg", [3]⟩, ⟨.image, "p.jpg", [4]⟩]
    (∀ rest, FileTree.empty.file? (Path.place [] "/out" ++ rest) = none) ∧
      DirectoryStore.grantsAll ⟨"/out"⟩ [] .empty artifacts = true ∧
      DirectoryStore.ActsAsMap ⟨"/out"⟩ [] .empty artifacts ∧
      (DirectoryStore.run ⟨"/out"⟩ [] .empty artifacts).file? ["out", "plots", "p.jpg"] =
        some [4] := by
  have fresh : ∀ rest, FileTree.empty.file? (Path.place [] "/out" ++ rest) = none := fun _ => rfl
  have granted : DirectoryStore.grantsAll ⟨"/out"⟩ [] .empty [⟨.image, "p.jpg", [1]⟩,
      ⟨.image, "../p.jpg", [2]⟩, ⟨.widget, "p.jpg", [3]⟩, ⟨.image, "p.jpg", [4]⟩] = true := by
    decide +kernel
  have map := actsAsMap_run ⟨"/out"⟩ [] .empty _ fresh granted
  exact ⟨fresh, granted, map, (map.filed.below ["plots", "p.jpg"] [4]).mpr
    ⟨.image, "p.jpg", rfl, by decide +kernel⟩⟩

/-- A root that can be made, with nothing where directories and files of the store go. -/
structure Ready (store : DirectoryStore) (cwd : Place) (tree : FileTree) : Prop where
  clear : tree.Clear
  made : ∃ made, tree.makeDirectories cwd store.root = (true, made) ∧
    ∀ kind name, made.isDirectory (store.slot cwd kind name) = false
  unfiled : ∀ kind : ArtifactKind,
    tree.file? (Path.place cwd store.root ++ [kind.category]) = none

theorem Ready.makeDirectories (ready : store.Ready cwd tree) {kind : ArtifactKind}
    (usable : FileTree.isUsablePath (Path.join store.root kind.category) = true) :
    ∃ made between, tree.makeDirectories cwd store.root = (true, made) ∧
      tree.makeDirectories cwd (Path.join store.root kind.category) = (true, between) ∧
      made.directories ⊆ between.directories ∧
      ∀ kind name, between.isDirectory (store.slot cwd kind name) = false := by
  obtain ⟨made, done, free⟩ := ready.made
  have short : FileTree.isUsableName kind.category = true := by cases kind <;> decide
  refine ⟨made, _, done, FileTree.makeDirectories_join done kind.isPlainName_category short usable
    (ready.unfiled kind), FileTree.subset_addDirectory _ _, ?_⟩
  intro other name
  rw [FileTree.isDirectory_addDirectory, free, Bool.false_or, beq_eq_false_iff_ne]
  exact (slot_ne_folder other kind name).symm

theorem Ready.grants (ready : store.Ready cwd tree)
    (plain : Path.isPlainName artifact.name = true)
    (short : FileTree.isUsableName artifact.name = true)
    (usable : FileTree.isUsablePath (store.path artifact.kind artifact.name) = true) :
    store.grants cwd tree artifact = true := by
  obtain ⟨rest, longer⟩ :=
    Path.exists_join_append plain (Path.join store.root artifact.kind.category)
  have usableDir : FileTree.isUsablePath (Path.join store.root artifact.kind.category) = true := by
    rw [path, longer] at usable
    exact FileTree.isUsablePath_of_append usable
  obtain ⟨-, between, -, done, -, free⟩ := ready.makeDirectories usableDir
  have found := FileTree.locate?_join done plain short usable
  rw [Path.place_join artifact.kind.isPlainName_category, List.append_assoc] at found
  have wrote : (between.write? cwd (store.path artifact.kind artifact.name)
      artifact.contents).isSome = true := by
    rw [FileTree.write?, path, found]
    have free := free artifact.kind artifact.name
    rw [slot] at free
    simp [free]
  rw [DirectoryStore.grants, done, wrote]
  rfl

theorem Ready.next (ready : store.Ready cwd tree)
    (granted : Path.isPlainName artifact.name = true → store.grants cwd tree artifact = true) :
    store.Ready cwd (store.next cwd tree artifact) := by
  rw [DirectoryStore.next]
  cases plain : Path.isPlainName artifact.name with
  | false =>
    rw [store_of_not_plain plain]
    exact ready
  | true =>
    obtain ⟨between, done, found, answer⟩ := store_of_grants plain (granted plain)
    obtain ⟨made, other, first, same, grown, free⟩ :=
      ready.makeDirectories (FileTree.makeDirectories_eq_iff.mp done).1
    obtain rfl : other = between := (Prod.mk.inj (same.symm.trans done)).2
    have files := file?_of_made done
    rw [answer]
    have clear : (other.putFile (store.slot cwd artifact.kind artifact.name)
        artifact.contents).Clear := by
      intro place directory
      have directory : other.isDirectory place = true := directory
      rw [FileTree.file?_putFile, if_neg]
      · exact FileTree.makeDirectories_clear ready.clear done place directory
      · rintro rfl
        rw [free] at directory
        cases directory
    refine ⟨clear, ⟨_, FileTree.makeDirectories_again first grown clear, free⟩, ?_⟩
    intro kind
    rw [files, if_neg (slot_ne_folder _ kind _)]
    exact ready.unfiled kind

/-- A store never stands in its own way: what is stored there first takes no place that is needed
later. -/
theorem Ready.grantsAll (ready : store.Ready cwd tree)
    (usable : ∀ artifact ∈ artifacts, Path.isPlainName artifact.name = true →
      FileTree.isUsableName artifact.name = true ∧
        FileTree.isUsablePath (store.path artifact.kind artifact.name) = true) :
    store.grantsAll cwd tree artifacts = true := by
  induction artifacts generalizing tree with
  | nil => rfl
  | cons artifact rest ih =>
    rw [List.forall_mem_cons] at usable
    have granted : Path.isPlainName artifact.name = true → store.grants cwd tree artifact = true := by
      intro plain
      obtain ⟨short, fits⟩ := usable.1 plain
      exact ready.grants plain short fits
    rw [DirectoryStore.grantsAll, Bool.and_eq_true, Bool.or_eq_true, Bool.not_eq_true']
    refine ⟨?_, ih (ready.next granted) usable.2⟩
    cases plain : Path.isPlainName artifact.name with
    | false => exact Or.inl rfl
    | true => exact Or.inr (granted plain)

end DirectoryStore

end NotebookKernel
