import NotebookKernel.Proofs.Evaluation.Answering
import NotebookKernel.Proofs.Output.Recognition
import NotebookKernel.Proofs.Text.Utf8
import NotebookKernel.Proofs.Uri

/-!
# What becomes of announced artifacts

A file that cannot be read, one that is no text where a text is wanted, and a store that refuses
cost the artifact its reference and nothing else: its entry is the name that was announced. An
evaluation whose program has run has a result with one entry for each announced artifact, in order,
whatever becomes of them, of the snapshot and of the help page.
-/

set_option autoImplicit false

namespace NotebookKernel.Evaluation

variable {World : Type}

/-- What becomes of an announced artifact. -/
inductive Fate where
  | unread
  | refused (fault : Fault)
  | stored (artifact : StoredArtifact)

/-- How artifacts of a kind are taken: from which contents, and what may refer to a stored one. -/
structure Intake where
  kind : ArtifactKind
  Accepts : Bytes → Prop
  Refers : StoredArtifact → String → Prop

namespace Intake

/-- Images may have any contents, and the store says what refers to them. -/
def images : Intake :=
  ⟨.image, fun _ => True, fun artifact reference => reference = artifact.reference⟩

/-- Widgets have to be texts. The URI of its file refers to a widget where the path of the file
begins at the root, and else what the store says. -/
def widgets : Intake where
  kind := .widget
  Accepts contents := ∃ text : String, contents = Utf8.ofString text
  Refers artifact reference :=
    if artifact.path.toList.head? = some '/' then Uri.IsFileUri artifact.path reference
    else reference = artifact.reference

/-- The entry of an artifact: what refers to it when it was stored, else the name that was
announced. -/
inductive Enters (intake : Intake) (name : String) : Fate → String → Prop
  | unread : Enters intake name .unread name
  | refused (fault : Fault) : Enters intake name (.refused fault) name
  | stored {artifact : StoredArtifact} {reference : String}
      (refers : intake.Refers artifact reference) : Enters intake name (.stored artifact) reference

def AllEnter (intake : Intake) : List (String × Fate) → List String → Prop :=
  List.Forall₂ fun (name, fate) entry => intake.Enters name fate entry

end Intake

/-- What becomes of one artifact in a world, and the world that it leaves. -/
inductive Meets (e : Evaluation) (depot : Depot World) (intake : Intake) (world : World)
    (name : String) : Fate → World → Prop
  | unread
      (unfit : ∀ contents, depot.read? world (Path.join e.scratchDir name) = some contents →
        ¬ intake.Accepts contents) :
      Meets e depot intake world name .unread world
  | refused {contents : Bytes} {fault : Fault} {later : World}
      (read : depot.read? world (Path.join e.scratchDir name) = some contents)
      (fit : intake.Accepts contents)
      (answer : depot.store world intake.kind name contents = (.error fault, later)) :
      Meets e depot intake world name (.refused fault) later
  | stored {contents : Bytes} {artifact : StoredArtifact} {later : World}
      (read : depot.read? world (Path.join e.scratchDir name) = some contents)
      (fit : intake.Accepts contents)
      (answer : depot.store world intake.kind name contents = (.ok artifact, later)) :
      Meets e depot intake world name (.stored artifact) later

/-- What becomes of announced artifacts, each in the world that the one before it has left. -/
inductive Settled (e : Evaluation) (depot : Depot World) (intake : Intake) :
    World → List (String × Fate) → World → Prop
  | nil (world : World) : Settled e depot intake world [] world
  | cons {world between later : World} {name : String} {fate : Fate} {rest : List (String × Fate)}
      (first : e.Meets depot intake world name fate between)
      (others : Settled e depot intake between rest later) :
      Settled e depot intake world ((name, fate) :: rest) later

theorem textOf?_eq_some_iff {contents : Bytes} {text : String} :
    textOf? contents = some text ↔ contents = Utf8.ofString text := by
  rw [textOf?, Option.map_eq_some_iff]
  constructor
  · rintro ⟨characters, decoded, rfl⟩
    rw [Utf8.ofString, String.toList_ofList, Utf8.encode_of_decode? decoded]
  · rintro rfl
    exact ⟨text.toList, Utf8.decode?_encode _, String.ofList_toList⟩

variable (e : Evaluation) (depot : Depot World)

theorem meets_storeImage (world : World) (name : String) :
    ∃ fate, e.Meets depot .images world name fate (e.storeImage depot world name).2 ∧
      Intake.images.Enters name fate (e.storeImage depot world name).1 := by
  cases read : depot.read? world (Path.join e.scratchDir name) with
  | none =>
    have kept : e.storeImage depot world name = (name, world) := by simp only [storeImage, read]
    have unfit : ∀ contents, depot.read? world (Path.join e.scratchDir name) = some contents →
        ¬ Intake.images.Accepts contents := by
      intro contents found
      rw [read] at found
      cases found
    rw [kept]
    exact ⟨.unread, .unread unfit, .unread⟩
  | some contents =>
    rcases answer : depot.store world .image name contents with ⟨fault | artifact, later⟩
    · have kept : e.storeImage depot world name = (name, later) := by
        simp only [storeImage, read, answer]
      rw [kept]
      exact ⟨.refused fault, .refused read trivial answer, .refused fault⟩
    · have stored : e.storeImage depot world name = (artifact.reference, later) := by
        simp only [storeImage, read, answer]
      rw [stored]
      exact ⟨.stored artifact, .stored read trivial answer, .stored rfl⟩

omit e depot in
theorem refers_widgetReference (artifact : StoredArtifact) :
    Intake.widgets.Refers artifact (widgetReference artifact) := by
  show if _ then _ else _
  rw [widgetReference, Path.isAbsolute]
  by_cases absolute : artifact.path.toList.head? = some '/'
  · rw [if_pos absolute, if_pos (beq_iff_eq.mpr absolute)]
    exact Uri.isFileUri_ofAbsolute artifact.path
  · rw [if_neg absolute, if_neg (by rwa [beq_iff_eq])]

theorem meets_storeWidget (world : World) (name : String) :
    ∃ fate, e.Meets depot .widgets world name fate (e.storeWidget depot world name).2 ∧
      Intake.widgets.Enters name fate (e.storeWidget depot world name).1 := by
  cases page : (depot.read? world (Path.join e.scratchDir name)).bind textOf? with
  | none =>
    have kept : e.storeWidget depot world name = (name, world) := by simp only [storeWidget, page]
    have unfit : ∀ contents, depot.read? world (Path.join e.scratchDir name) = some contents →
        ¬ Intake.widgets.Accepts contents := by
      rintro contents found ⟨text, same⟩
      rw [found, Option.bind_some, textOf?_eq_some_iff.mpr same] at page
      cases page
    rw [kept]
    exact ⟨.unread, .unread unfit, .unread⟩
  | some text =>
    obtain ⟨contents, read, decoded⟩ := Option.bind_eq_some_iff.mp page
    rw [textOf?_eq_some_iff.mp decoded] at read
    rcases answer : depot.store world .widget name (Utf8.ofString text) with
      ⟨fault | artifact, later⟩
    · have kept : e.storeWidget depot world name = (name, later) := by
        simp only [storeWidget, page, answer]
      rw [kept]
      exact ⟨.refused fault, .refused read ⟨text, rfl⟩ answer, .refused fault⟩
    · have stored : e.storeWidget depot world name = (widgetReference artifact, later) := by
        simp only [storeWidget, page, answer]
      rw [stored]
      exact ⟨.stored artifact, .stored read ⟨text, rfl⟩ answer,
        .stored (refers_widgetReference artifact)⟩

private theorem foldl_store (store : World → String → String × World) (names : List String)
    (done : List String) (world : World) :
    names.foldl (fun (done : List String × World) name =>
        ((store done.2 name).1 :: done.1, (store done.2 name).2)) (done, world) =
      ((storeAll store world names).1.reverse ++ done, (storeAll store world names).2) := by
  induction names generalizing done world with
  | nil => rfl
  | cons name names ih =>
    have first : storeAll store world (name :: names) =
        (((storeAll store (store world name).2 names).1.reverse ++ [(store world name).1]).reverse,
          (storeAll store (store world name).2 names).2) := by
      rw [storeAll, List.foldl_cons, ih]
    rw [List.foldl_cons, ih, first]
    simp

theorem storeAll_cons (store : World → String → String × World) (world : World) (name : String)
    (names : List String) :
    storeAll store world (name :: names) =
      ((store world name).1 :: (storeAll store (store world name).2 names).1,
        (storeAll store (store world name).2 names).2) := by
  rw [storeAll, List.foldl_cons, foldl_store]
  simp

theorem settled_storeAll {intake : Intake} {store : World → String → String × World}
    (one : ∀ world name, ∃ fate, e.Meets depot intake world name fate (store world name).2 ∧
      intake.Enters name fate (store world name).1) (world : World) (names : List String) :
    ∃ fates, fates.map Prod.fst = names ∧
      e.Settled depot intake world fates (storeAll store world names).2 ∧
      intake.AllEnter fates (storeAll store world names).1 := by
  induction names generalizing world with
  | nil => exact ⟨[], rfl, .nil world, .nil⟩
  | cons name names ih =>
    obtain ⟨fate, meets, entry⟩ := one world name
    obtain ⟨fates, announced, settled, entries⟩ := ih (store world name).2
    rw [storeAll_cons]
    refine ⟨(name, fate) :: fates, ?_, .cons meets settled, .cons entry entries⟩
    rw [List.map_cons, announced]

/-- A result that has everything an output announces, and of each thing what could be had. -/
structure Complete (world : World) (output : String) (result : EvaluationResult) (later : World) :
    Prop where
  artifacts : ∃ images widgets between,
    e.Settled depot .images world images between ∧
      e.Settled depot .widgets between widgets later ∧
      images.map Prod.fst = (Output.demultiplex output e.sentinels).imageFiles ∧
      widgets.map Prod.fst = (Output.demultiplex output e.sentinels).widgetFiles ∧
      Intake.images.AllEnter images result.imagePaths ∧
      Intake.widgets.AllEnter widgets result.widgetPaths
  imageCount :
    result.imagePaths.length = (Output.demultiplex output e.sentinels).imageFiles.length
  widgetCount :
    result.widgetPaths.length = (Output.demultiplex output e.sentinels).widgetFiles.length
  visible : result.result = (Output.demultiplex output e.sentinels).result
  /-- What follows the first environment sentinel is the snapshot. -/
  snapshot : ∀ i, Search.FirstAt e.sentinels.environment.toList output.toList i →
    ∀ raw, raw = output.toList.drop (i + e.sentinels.environment.toList.length) →
      parseEnvironment raw = .ok result.environment ∨
        (∃ fault, parseEnvironment raw = .error fault) ∧ result.environment = []
  bare : ¬ e.sentinels.environment.toList <:+: output.toList → result.environment = []
  unasked : e.request.help = false → result.helpContent = ""
  help : e.request.help = true →
    depot.read? world e.helpFile = some (Utf8.ofString result.helpContent) ∨
      (∀ text, depot.read? world e.helpFile ≠ some (Utf8.ofString text)) ∧
        result.helpContent = "Failed to retrieve help content."

theorem environmentOf_snapshot (raw : List Char) :
    parseEnvironment raw = .ok (Output.environmentOf (some raw)) ∨
      (∃ fault, parseEnvironment raw = .error fault) ∧ Output.environmentOf (some raw) = [] := by
  cases parsed : parseEnvironment raw with
  | ok list =>
    have kept : Output.environmentOf (some raw) = list := by simp only [Output.environmentOf, parsed]
    rw [kept]
    exact Or.inl rfl
  | error fault =>
    have dropped : Output.environmentOf (some raw) = [] := by
      simp only [Output.environmentOf, parsed]
    exact Or.inr ⟨⟨fault, rfl⟩, dropped⟩

theorem helpContent_of_wanted (wanted : e.request.help = true) (world : World) :
    depot.read? world e.helpFile = some (Utf8.ofString (e.helpContent depot world)) ∨
      (∀ text, depot.read? world e.helpFile ≠ some (Utf8.ofString text)) ∧
        e.helpContent depot world = helpPlaceholder := by
  rw [helpContent, if_pos wanted]
  cases page : (depot.read? world e.helpFile).bind textOf? with
  | some text =>
    obtain ⟨contents, read, decoded⟩ := Option.bind_eq_some_iff.mp page
    left
    rw [read, textOf?_eq_some_iff.mp decoded]
    rfl
  | none =>
    right
    refine ⟨?_, rfl⟩
    intro text read
    rw [read, Option.bind_some, textOf?_eq_some_iff.mpr rfl] at page
    cases page

theorem complete_collect (world : World) (output : String) :
    e.Complete depot world output (e.collect depot world output).1
      (e.collect depot world output).2 := by
  obtain ⟨images, announced, settled, entries⟩ := e.settled_storeAll depot (e.meets_storeImage depot)
    world (Output.demultiplex output e.sentinels).imageFiles
  obtain ⟨widgets, announced', settled', entries'⟩ := e.settled_storeAll depot
    (e.meets_storeWidget depot)
    (storeAll (e.storeImage depot) world (Output.demultiplex output e.sentinels).imageFiles).2
    (Output.demultiplex output e.sentinels).widgetFiles
  refine ⟨⟨images, widgets, _, settled, settled', announced, announced', entries, entries'⟩,
    ?_, ?_, rfl, ?_, ?_, ?_, ?_⟩
  · rw [← announced, List.length_map]
    exact entries.length_eq.symm
  · rw [← announced', List.length_map]
    exact entries'.length_eq.symm
  · rintro i first raw rfl
    have environment : (e.collect depot world output).1.environment = Output.environmentOf
        (some (output.toList.drop (i + e.sentinels.environment.toList.length))) := by
      show Output.environmentOf (Output.splitEnvironment e.sentinels output.toList).2 = _
      rw [Output.splitEnvironment_of_firstAt first]
    rw [environment]
    exact environmentOf_snapshot _
  · intro absent
    show Output.environmentOf (Output.splitEnvironment e.sentinels output.toList).2 = []
    rw [Output.splitEnvironment_of_absent absent]
    rfl
  · intro unasked
    show e.helpContent depot world = ""
    rw [helpContent, unasked]
    rfl
  · intro wanted
    exact e.helpContent_of_wanted depot wanted world

def widgetFiles : FileTree :=
  ⟨[(["tmp", "rplots-0", "w.html"], Utf8.ofString "<p>drawn</p>")], [["tmp"], ["tmp", "rplots-0"]]⟩

end NotebookKernel.Evaluation
