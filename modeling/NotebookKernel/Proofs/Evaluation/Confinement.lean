import NotebookKernel.Proofs.Artifact
import NotebookKernel.Proofs.Evaluation.Degradation

/-!
# Where artifacts go

The names of artifacts are read off the output of a program, which may announce any. With a store in
a directory, an evaluation writes no file but copies of files from its scratch directory, each under
the announced name in the directory of its kind. A name that is no plain one moves nothing.

The run is followed by what has been written so far. Storing may put directories, and even copies,
among the files that are still to be read, so that the copies are traced back to the tree that the
program has left.
-/

set_option autoImplicit false

namespace NotebookKernel

def Output.announced (output : Output) : ArtifactKind → List String
  | .image => output.imageFiles
  | .widget => output.widgetFiles

namespace FileTree

def putFiles (tree : FileTree) (writes : List (Place × Bytes)) : FileTree :=
  writes.foldl (fun tree write => tree.putFile write.1 write.2) tree

theorem putFiles_concat (tree : FileTree) (writes : List (Place × Bytes)) (write : Place × Bytes) :
    tree.putFiles (writes ++ [write]) = (tree.putFiles writes).putFile write.1 write.2 := by
  rw [putFiles, List.foldl_append]
  rfl

end FileTree

namespace Evaluation

/-- What is written of an announced artifact: its file from the scratch directory, as the program
has left it, under its name directly in the directory of its kind. -/
inductive IsCopy (e : Evaluation) (store : DirectoryStore) (cwd : Place) (tree : FileTree)
    (output : Output) (later : FileTree) : Place × Bytes → Prop
  | copy {kind : ArtifactKind} {name : String} {folder scratch : Place} {contents : Bytes}
      (announced : name ∈ output.announced kind)
      (plain : Path.isPlainName name = true)
      (target : later.folder? cwd (Path.join store.root kind.category) = some folder)
      (source : tree.folder? cwd e.scratchDir = some scratch)
      (found : tree.file? (scratch ++ [name]) = some contents) :
      IsCopy e store cwd tree output later (folder ++ [name], contents)

/-- What storing artifacts makes of a tree. -/
structure Confined (e : Evaluation) (store : DirectoryStore) (cwd : Place) (tree : FileTree)
    (output : Output) (later : FileTree) : Prop where
  writes : ∃ writes, later.files = (tree.putFiles writes).files ∧
    ∀ write ∈ writes, e.IsCopy store cwd tree output later write
  grown : tree.directories ⊆ later.directories
  untouched : tree.folder? cwd e.scratchDir = none → later = tree

variable {e : Evaluation} {store : DirectoryStore} {cwd : Place} {tree mid later : FileTree}
  {output : Output} {name : String} {fate : Fate} {intake : Intake}

theorem store_of_plain (plain : Path.isPlainName name = true) {kind : ArtifactKind}
    {contents : Bytes} {answer : Except Fault StoredArtifact}
    (answered : store.store tree cwd kind name contents = (answer, later)) :
    tree.directories ⊆ later.directories ∧
      (later.files = tree.files ∨
        ∃ folder, later.folder? cwd (Path.join store.root kind.category) = some folder ∧
          later.files = (tree.putFile (folder ++ [name]) contents).files) := by
  obtain ⟨files, grown⟩ := tree.makeDirectories_keeps cwd (Path.join store.root kind.category)
  rw [DirectoryStore.store, plain, Bool.not_true] at answered
  rcases made : tree.makeDirectories cwd (Path.join store.root kind.category) with ⟨all, between⟩
  rw [made] at files grown answered
  cases all with
  | false =>
    obtain ⟨-, rfl⟩ := Prod.mk.inj answered
    exact ⟨grown, Or.inl files⟩
  | true =>
    simp only [Bool.false_eq_true, if_false] at answered
    split at answered
    · obtain ⟨-, rfl⟩ := Prod.mk.inj answered
      exact ⟨grown, Or.inl files⟩
    · next written wrote =>
      obtain ⟨-, rfl⟩ := Prod.mk.inj answered
      obtain ⟨place, located, rfl⟩ := FileTree.write?_eq_some wrote
      obtain ⟨folder, target, rfl⟩ := FileTree.exists_folder_of_locate?_join plain located
      refine ⟨grown, Or.inr ⟨folder, ?_, ?_⟩⟩
      · exact FileTree.folder?_mono (List.Subset.refl _) target
      · exact FileTree.files_putFile_congr files _ _

theorem Meets.of_not_plain (met : e.Meets (store.depot cwd) intake mid name fate later)
    (unplain : Path.isPlainName name = false) :
    later = mid ∧ ∀ entry, intake.Enters name fate entry → entry = name := by
  cases met with
  | unread _ =>
    refine ⟨rfl, ?_⟩
    rintro _ ⟨⟩
    rfl
  | refused _ _ answer =>
    obtain ⟨-, same⟩ := Prod.mk.inj
      ((DirectoryStore.store_of_not_plain unplain _ _).symm.trans answer)
    refine ⟨same.symm, ?_⟩
    rintro _ ⟨⟩
    rfl
  | stored _ _ answer =>
    obtain ⟨refused, -⟩ := Prod.mk.inj
      ((DirectoryStore.store_of_not_plain unplain _ _).symm.trans answer)
    cases refused

/-- A world that is not left as it was is left by the store, which was handed what was read. -/
theorem Meets.kept_or_answered {World : Type} {depot : Depot World} {world after : World}
    (met : e.Meets depot intake world name fate after) :
    after = world ∨ ∃ contents answer,
      depot.read? world (Path.join e.scratchDir name) = some contents ∧
        depot.store world intake.kind name contents = (answer, after) := by
  cases met with
  | unread _ => exact Or.inl rfl
  | refused read _ answer => exact Or.inr ⟨_, _, read, answer⟩
  | stored read _ answer => exact Or.inr ⟨_, _, read, answer⟩

theorem IsCopy.mono {write : Place × Bytes} (copy : e.IsCopy store cwd tree output mid write)
    (grown : mid.directories ⊆ later.directories) :
    e.IsCopy store cwd tree output later write := by
  obtain ⟨announced, plain, target, source, found⟩ := copy
  exact .copy announced plain (FileTree.folder?_mono grown target) source found

theorem file?_putFiles_scratch {writes : List (Place × Bytes)} {scratch : Place}
    (copies : ∀ write ∈ writes, e.IsCopy store cwd tree output later write)
    (source : tree.folder? cwd e.scratchDir = some scratch) (name : String) :
    (tree.putFiles writes).file? (scratch ++ [name]) = tree.file? (scratch ++ [name]) := by
  induction writes using List.reverseRecOn with
  | nil => rfl
  | append_singleton writes write ih =>
    have before := ih fun other member => copies other (List.mem_append_left _ member)
    have last := copies write (by simp)
    rw [FileTree.putFiles_concat, FileTree.file?_putFile]
    split
    · next same =>
      obtain @⟨_, own, folder, origin, contents, _, _, _, origin_eq, found⟩ := last
      obtain ⟨-, named⟩ := List.append_inj' same rfl
      obtain rfl := List.singleton_inj.mp named
      obtain rfl := Option.some.inj (source.symm.trans origin_eq)
      exact found.symm
    · exact before

theorem Confined.refl (e : Evaluation) (store : DirectoryStore) (cwd : Place) (tree : FileTree)
    (output : Output) : e.Confined store cwd tree output tree :=
  ⟨⟨[], rfl, by simp⟩, List.Subset.refl _, fun _ => rfl⟩

theorem Confined.step (held : e.Confined store cwd tree output mid)
    (announced : name ∈ output.announced intake.kind)
    (met : e.Meets (store.depot cwd) intake mid name fate later) :
    e.Confined store cwd tree output later := by
  cases plain : Path.isPlainName name with
  | false =>
    obtain ⟨rfl, -⟩ := met.of_not_plain plain
    exact held
  | true =>
    rcases met.kept_or_answered with rfl | ⟨contents, answer, read, answered⟩
    · exact held
    obtain ⟨place, located, found⟩ := Option.bind_eq_some_iff.mp read
    obtain ⟨scratch, here, rfl⟩ := FileTree.exists_folder_of_locate?_join plain located
    obtain ⟨grown, files⟩ := store_of_plain plain answered
    have source : tree.folder? cwd e.scratchDir = some scratch := by
      cases origin : tree.folder? cwd e.scratchDir with
      | none =>
        rw [held.untouched origin, origin] at here
        cases here
      | some origin' =>
        have there := FileTree.folder?_mono held.grown origin
        exact there.symm.trans here
    obtain ⟨writes, written, copies⟩ := held.writes
    have copies' : ∀ write ∈ writes, e.IsCopy store cwd tree output later write :=
      fun write member => (copies write member).mono grown
    refine ⟨?_, List.Subset.trans held.grown grown, ?_⟩
    · rcases files with files | ⟨folder, target, files⟩
      · exact ⟨writes, files.trans written, copies'⟩
      · have origin : tree.file? (scratch ++ [name]) = some contents := by
          rw [← file?_putFiles_scratch copies source, ← found]
          exact (FileTree.file?_congr written _).symm
        refine ⟨writes ++ [(folder ++ [name], contents)], ?_, ?_⟩
        · rw [FileTree.putFiles_concat, files]
          exact FileTree.files_putFile_congr written _ _
        · intro write member
          rcases List.mem_append.mp member with member | member
          · exact copies' write member
          · obtain rfl := List.mem_singleton.mp member
            exact .copy announced plain target source origin
    · intro gone
      rw [source] at gone
      cases gone

theorem Confined.settled {fates : List (String × Fate)}
    (settled : e.Settled (store.depot cwd) intake mid fates later)
    (held : e.Confined store cwd tree output mid)
    (announced : ∀ name ∈ fates.map Prod.fst, name ∈ output.announced intake.kind) :
    e.Confined store cwd tree output later := by
  induction settled with
  | nil _ => exact held
  | cons met _ ih =>
    rw [List.map_cons, List.forall_mem_cons] at announced
    exact ih (held.step announced.1 met) announced.2

/-- The names that are no plain ones are among the entries as they were announced. -/
def Returned (names entries : List String) : Prop :=
  List.Forall₂ (fun name entry => Path.isPlainName name = false → entry = name) names entries

theorem storeAll_filter {World : Type} {store : World → String → String × World}
    (unmoved : ∀ world name, Path.isPlainName name = false → store world name = (name, world))
    (world : World) (names : List String) :
    (storeAll store world (names.filter Path.isPlainName)).2 = (storeAll store world names).2 ∧
      Returned names (storeAll store world names).1 := by
  induction names generalizing world with
  | nil => exact ⟨rfl, .nil⟩
  | cons name names ih =>
    obtain ⟨same, returned⟩ := ih (store world name).2
    rw [storeAll_cons]
    cases plain : Path.isPlainName name with
    | true =>
      rw [List.filter_cons_of_pos plain, storeAll_cons]
      refine ⟨same, .cons ?_ returned⟩
      intro unplain
      rw [plain] at unplain
      cases unplain
    | false =>
      rw [List.filter_cons_of_neg (by simp [plain])]
      rw [unmoved world name plain] at same returned ⊢
      exact ⟨same, .cons (fun _ => rfl) returned⟩

theorem storeImage_of_not_plain (e : Evaluation) (store : DirectoryStore) (cwd : Place)
    (tree : FileTree) (unplain : Path.isPlainName name = false) :
    e.storeImage (store.depot cwd) tree name = (name, tree) := by
  obtain ⟨fate, met, entry⟩ := e.meets_storeImage (store.depot cwd) tree name
  obtain ⟨same, own⟩ := met.of_not_plain unplain
  exact Prod.ext (own _ entry) same

theorem storeWidget_of_not_plain (e : Evaluation) (store : DirectoryStore) (cwd : Place)
    (tree : FileTree) (unplain : Path.isPlainName name = false) :
    e.storeWidget (store.depot cwd) tree name = (name, tree) := by
  obtain ⟨fate, met, entry⟩ := e.meets_storeWidget (store.depot cwd) tree name
  obtain ⟨same, own⟩ := met.of_not_plain unplain
  exact Prod.ext (own _ entry) same

theorem confined_collect (e : Evaluation) (store : DirectoryStore) (cwd : Place) (tree : FileTree)
    (text : String) :
    e.Confined store cwd tree (Output.demultiplex text e.sentinels)
      (e.collect (store.depot cwd) tree text).2 := by
  obtain ⟨images, widgets, between, settled, settled', announced, announced', -, -⟩ :=
    (e.complete_collect (store.depot cwd) tree text).artifacts
  have first : e.Confined store cwd tree (Output.demultiplex text e.sentinels) between :=
    (Confined.refl e store cwd tree _).settled settled fun _ member => by rwa [announced] at member
  exact first.settled settled' fun _ member => by rwa [announced'] at member

theorem files_finish (e : Evaluation) (store : DirectoryStore) (cwd : Place) (tree : FileTree)
    (outcome : Except Fault String) :
    (e.finish store cwd tree outcome).2.files.Sublist
      (e.conclude (store.depot cwd) tree outcome).2.files := by
  rw [finish]
  obtain ⟨value, stored⟩ := e.conclude (store.depot cwd) tree outcome
  show (((stored.locate? cwd e.scratchDir).map stored.removeTree).getD stored).files.Sublist
    stored.files
  cases stored.locate? cwd e.scratchDir with
  | none => exact List.Sublist.refl _
  | some scratch => exact List.filter_sublist

/-- Whatever an output announces, an evaluation with a store in a directory writes nothing but
copies of files directly in its scratch directory, each directly in the directory of its kind and
under its own name. Names that are no plain ones leave every tree as it is and are their own
references; the tree that is left is the one that the plain names alone would have left. -/
theorem confined_of_ran (e : Evaluation) (store : DirectoryStore) (cwd : Place) (tree : FileTree)
    (text : String) : ∃ result stored left,
    e.conclude (store.depot cwd) tree (.ok text) = (.ok result, stored) ∧
      e.finish store cwd tree (.ok text) = (.ok result, left) ∧
      left.files.Sublist stored.files ∧
      e.Confined store cwd tree (Output.demultiplex text e.sentinels) stored ∧
      (∀ world name, Path.isPlainName name = false →
        e.storeImage (store.depot cwd) world name = (name, world) ∧
          e.storeWidget (store.depot cwd) world name = (name, world)) ∧
      Returned (Output.demultiplex text e.sentinels).imageFiles result.imagePaths ∧
      Returned (Output.demultiplex text e.sentinels).widgetFiles result.widgetPaths ∧
      stored = (storeAll (e.storeWidget (store.depot cwd))
        (storeAll (e.storeImage (store.depot cwd)) tree
          ((Output.demultiplex text e.sentinels).imageFiles.filter Path.isPlainName)).2
        ((Output.demultiplex text e.sentinels).widgetFiles.filter Path.isPlainName)).2 := by
  have images : ∀ world name, Path.isPlainName name = false →
      e.storeImage (store.depot cwd) world name = (name, world) :=
    fun world _ unplain => e.storeImage_of_not_plain store cwd world unplain
  have widgets : ∀ world name, Path.isPlainName name = false →
      e.storeWidget (store.depot cwd) world name = (name, world) :=
    fun world _ unplain => e.storeWidget_of_not_plain store cwd world unplain
  obtain ⟨sameImages, returnedImages⟩ :=
    storeAll_filter images tree (Output.demultiplex text e.sentinels).imageFiles
  obtain ⟨sameWidgets, returnedWidgets⟩ := storeAll_filter widgets
    (storeAll (e.storeImage (store.depot cwd)) tree
      (Output.demultiplex text e.sentinels).imageFiles).2
    (Output.demultiplex text e.sentinels).widgetFiles
  refine ⟨_, _, _, rfl, rfl, e.files_finish store cwd tree (.ok text),
    e.confined_collect store cwd tree text,
    fun world name unplain => ⟨images world name unplain, widgets world name unplain⟩,
    returnedImages, returnedWidgets, ?_⟩
  rw [sameImages, sameWidgets]
  rfl

end Evaluation

end NotebookKernel
