import Mathlib.Data.List.Nodup
import Mathlib.Data.List.Perm.Basic
import NotebookKernel.Proofs.FileTree.Location
import NotebookKernel.Proofs.Run
import NotebookKernel.Proofs.Text.Numeral
import NotebookKernel.Proofs.Uri
import NotebookKernel.VirtualDocument

/-!
# Documents that are alive at once

A document lies in the file of its number, and a number is given once. So the paths and the URIs of
documents end in different names, whatever their directories are, and each file is that of one
document: it holds the text of this one until the document is dropped. What cannot be written costs
a number and nothing else.
-/

set_option autoImplicit false

namespace NotebookKernel

namespace DocumentDesk

private theorem toList_append_five (a b c d e : String) : (a ++ b ++ c ++ d ++ e).toList =
    a.toList ++ (b.toList ++ (c.toList ++ (d.toList ++ e.toList))) := by
  simp only [String.toList_append, List.append_assoc]

theorem toList_fileName (process number : Nat) : (fileName (toString process) number).toList =
    "ridian-virtual-document-".toList ++
      (Nat.toDigits 10 process ++ ("-".toList ++ (Nat.toDigits 10 number ++ ".r".toList))) := by
  have whole := toList_append_five "ridian-virtual-document-" (toString process) "-"
    (toString number) ".r"
  rw [Nat.toString_eq_repr, Nat.toString_eq_repr, Nat.toList_repr, Nat.toList_repr] at whole
  exact whole

theorem fileName_injective (process : Nat) :
    Function.Injective (fileName (toString process)) := by
  intro m n same
  have texts := congrArg String.toList same
  rw [toList_fileName, toList_fileName, List.append_cancel_left_eq, List.append_cancel_left_eq,
    List.append_cancel_left_eq, List.append_cancel_right_eq] at texts
  exact Text.eq_of_toDigits_eq texts

theorem literal_of_mem_fileName {process number : Nat} {c : Char}
    (member : c ∈ (fileName (toString process) number).toList) :
    c.toNat < 0x80 ∧ Uri.isLiteral c.toNat.toUInt8 = true ∧ c ≠ '/' := by
  have digits : ∀ {n : Nat}, c ∈ Nat.toDigits 10 n →
      c.toNat < 0x80 ∧ Uri.isLiteral c.toNat.toUInt8 = true ∧ c ≠ '/' := by
    intro n found
    have bounds : 48 ≤ c.toNat ∧ c.toNat ≤ 57 :=
      Char.isDigit_iff_toNat.mp (Text.isDigit_of_mem_toDigits found)
    have literal : ∀ k < 58, 48 ≤ k → Uri.isLiteral k.toUInt8 = true := by decide
    refine ⟨by omega, literal c.toNat (by omega) bounds.1, ?_⟩
    rintro rfl
    exact absurd bounds.1 (by decide)
  have letters : ("ridian-virtual-document-".toList ++ ("-".toList ++ ".r".toList)).all (fun d =>
      decide (d.toNat < 0x80) && (Uri.isLiteral d.toNat.toUInt8 && d != '/')) = true := by
    decide +kernel
  simp only [List.all_eq_true, List.mem_append, Bool.and_eq_true, decide_eq_true_eq,
    bne_iff_ne] at letters
  rw [toList_fileName] at member
  simp only [List.mem_append] at member
  rcases member with front | process | dash | number | rest
  · exact letters c (Or.inl front)
  · exact digits process
  · exact letters c (Or.inr (Or.inl dash))
  · exact digits number
  · exact letters c (Or.inr (Or.inr rest))

theorem isPlainName_fileName (process number : Nat) :
    Path.isPlainName (fileName (toString process) number) = true := by
  have long : 3 ≤ (fileName (toString process) number).toList.length := by
    rw [toList_fileName, List.length_append]
    have size : "ridian-virtual-document-".toList.length = 24 := by decide
    omega
  refine Path.isPlainName_iff.mpr ⟨?_, ?_, ?_, ?_⟩
  · intro same
    rw [same] at long
    exact absurd long (by decide)
  · intro same
    rw [same] at long
    exact absurd long (by decide)
  · intro same
    rw [same] at long
    exact absurd long (by decide)
  · intro slash
    exact (literal_of_mem_fileName slash).2.2 rfl

variable {desk later : DocumentDesk} {process : Nat}

/-- A creation that the host gives up of itself: the number is used up, and the file stays as it
was, or what has been written of it stays. -/
def breakOff (desk : DocumentDesk) (process dir : String) (written : Option Bytes) : DocumentDesk :=
  let path := Path.join dir (fileName process desk.next)
  let tree := (written.bind (desk.tree.write? desk.cwd path)).getD desk.tree
  { desk with tree, next := desk.next + 1 }

def document (cwd : Place) (process : Nat) (dir : String) (number : Nat) : VirtualDocument :=
  let path := Path.join dir (fileName (toString process) number)
  ⟨path, Uri.ofPath (Path.ofParts cwd) path⟩

/-- What a creation leaves alone, whatever comes of it: all but one file, whose name holds the
number. -/
structure Spares (process : Nat) (desk later : DocumentDesk) : Prop where
  cwd : later.cwd = desk.cwd
  counted : later.next = desk.next + 1
  directories : later.tree.directories = desk.tree.directories
  files : ∀ place, place.getLast? ≠ some (fileName (toString process) desk.next) →
    later.tree.file? place = desk.tree.file? place

theorem exists_locate?_eq {cwd place : Place} {tree : FileTree} {dir : String} {number : Nat}
    (found : tree.locate? cwd (Path.join dir (fileName (toString process) number)) = some place) :
    place.getLast? = some (fileName (toString process) number) := by
  obtain ⟨folder, -, rfl⟩ :=
    FileTree.exists_folder_of_locate?_join (isPlainName_fileName process number) found
  exact List.getLast?_concat

theorem spares_write {dir : String} {contents : Bytes} {tree : FileTree}
    (wrote : desk.tree.write? desk.cwd (Path.join dir (fileName (toString process) desk.next))
      contents = some tree) : Spares process desk { desk with tree, next := desk.next + 1 } := by
  obtain ⟨place, found, rfl⟩ := FileTree.write?_eq_some wrote
  refine ⟨rfl, rfl, rfl, ?_⟩
  intro other different
  have own := exists_locate?_eq found
  have apart : place ≠ other := by
    rintro rfl
    exact different own
  exact (FileTree.file?_putFile _ _ _ _).trans (if_neg apart)

theorem spares_breakOff (desk : DocumentDesk) (process : Nat) (dir : String)
    (written : Option Bytes) :
    Spares process desk (desk.breakOff (toString process) dir written) := by
  cases outcome : written.bind
      (desk.tree.write? desk.cwd (Path.join dir (fileName (toString process) desk.next))) with
  | none =>
    have same : desk.breakOff (toString process) dir written =
        { desk with next := desk.next + 1 } := by
      rw [breakOff, outcome, Option.getD_none]
    rw [same]
    exact ⟨rfl, rfl, rfl, fun _ _ => rfl⟩
  | some tree =>
    have same : desk.breakOff (toString process) dir written =
        { desk with tree, next := desk.next + 1 } := by
      rw [breakOff, outcome, Option.getD_some]
    obtain ⟨contents, -, wrote⟩ := Option.bind_eq_some_iff.mp outcome
    rw [same]
    exact spares_write wrote

-- The definition is opened by `delta`: its equation would have the name computed.
theorem create_of_unwritten {dir text : String}
    (unwritten : desk.tree.write? desk.cwd (Path.join dir (fileName (toString process) desk.next))
        (Utf8.ofString text) = none) :
    desk.create (toString process) dir text =
      (.error (.artifactIo (Path.join dir (fileName (toString process) desk.next)) .refusedByHost),
          { desk with next := desk.next + 1 }) := by
  delta create
  dsimp only
  rw [unwritten]

theorem create_of_written {dir text : String} {tree : FileTree}
    (wrote : desk.tree.write? desk.cwd (Path.join dir (fileName (toString process) desk.next))
        (Utf8.ofString text) = some tree) :
    desk.create (toString process) dir text =
      (.ok (document desk.cwd process dir desk.next),
        { desk with tree, next := desk.next + 1 }) := by
  delta create document
  dsimp only
  rw [wrote]

/-- A creation fails and leaves all files as they are, or there is a document with its text. -/
theorem create_cases (desk : DocumentDesk) (process : Nat) (dir text : String) :
    (desk.create (toString process) dir text =
      (.error (.artifactIo (Path.join dir (fileName (toString process) desk.next)) .refusedByHost),
        { desk with next := desk.next + 1 })) ∨
    ∃ later place, desk.create (toString process) dir text =
        (.ok (document desk.cwd process dir desk.next), later) ∧
      Spares process desk later ∧
      desk.tree.locate? desk.cwd (document desk.cwd process dir desk.next).path = some place ∧
      later.tree.file? place = some (Utf8.ofString text) := by
  cases outcome : desk.tree.write? desk.cwd (Path.join dir (fileName (toString process) desk.next))
      (Utf8.ofString text) with
  | none => exact Or.inl (create_of_unwritten outcome)
  | some tree =>
    obtain ⟨place, found, same⟩ := FileTree.write?_eq_some outcome
    refine Or.inr ⟨_, place, create_of_written outcome, spares_write outcome, found, ?_⟩
    rw [same]
    exact (FileTree.file?_putFile _ _ _ _).trans (if_pos rfl)

theorem create_congr (directories : later.tree.directories = desk.tree.directories)
    (cwd : later.cwd = desk.cwd) (counted : later.next = desk.next) (process : Nat)
    (dir text : String) :
    (later.create (toString process) dir text).1 = (desk.create (toString process) dir text).1 := by
  have same := FileTree.isSome_write?_congr directories desk.cwd
    (Path.join dir (fileName (toString process) desk.next)) (Utf8.ofString text)
  cases outcome : desk.tree.write? desk.cwd (Path.join dir (fileName (toString process) desk.next))
      (Utf8.ofString text) with
  | none =>
    rw [outcome, Option.isSome_none, Option.isSome_eq_false_iff, Option.isNone_iff_eq_none,
      ← cwd, ← counted] at same
    rw [create_of_unwritten outcome, create_of_unwritten same, counted]
  | some tree =>
    rw [outcome, Option.isSome_some, Option.isSome_iff_exists, ← cwd, ← counted] at same
    obtain ⟨grown, wrote⟩ := same
    rw [create_of_written outcome, create_of_written wrote, counted, cwd]

end DocumentDesk

/-- A document that is alive, the text that it was made of, and its number. -/
structure LiveDocument where
  document : VirtualDocument
  text : String
  number : Nat
deriving DecidableEq

namespace LiveDocument

open DocumentDesk (fileName)

variable {live : LiveDocument} {desk later : DocumentDesk} {process : Nat}

/-- A document has the name of its number, and its file holds its text. -/
structure Stands (process : Nat) (desk : DocumentDesk) (live : LiveDocument) : Prop where
  named : ∃ dir, live.document = DocumentDesk.document desk.cwd process dir live.number
  filed : ∃ place, desk.tree.locate? desk.cwd live.document.path = some place ∧
    desk.tree.file? place = some (Utf8.ofString live.text)

theorem Stands.path (stands : live.Stands process desk) :
    (Path.segments live.document.path).getLast? =
      some (fileName (toString process) live.number) := by
  obtain ⟨dir, same⟩ := stands.named
  have plain := DocumentDesk.isPlainName_fileName process live.number
  rw [same, DocumentDesk.document, Path.getLast?_segments_join, Path.segments_of_isPlainName plain]
  rfl

theorem Stands.uri (stands : live.Stands process desk) :
    (Path.segments live.document.uri).getLast? =
      some (fileName (toString process) live.number) := by
  have ends := stands.path
  obtain ⟨dir, same⟩ := stands.named
  rw [same] at ends ⊢
  have plain := DocumentDesk.isPlainName_fileName process live.number
  refine Uri.getLast?_segments_ofPath plain ends ?_
  refine Uri.encodePart_of_literal ?_
  intro c member
  obtain ⟨ascii, literal, -⟩ := DocumentDesk.literal_of_mem_fileName member
  exact ⟨ascii, literal⟩

theorem Stands.place (stands : live.Stands process desk) : ∃ place,
    desk.tree.locate? desk.cwd live.document.path = some place ∧
      place.getLast? = some (fileName (toString process) live.number) ∧
        desk.tree.file? place = some (Utf8.ofString live.text) := by
  obtain ⟨place, found, holds⟩ := stands.filed
  obtain ⟨dir, same⟩ := stands.named
  rw [same] at found
  refine ⟨place, ?_, DocumentDesk.exists_locate?_eq found, holds⟩
  rw [same]
  exact found

theorem Stands.read? (stands : live.Stands process desk) :
    desk.tree.read? desk.cwd live.document.path = some (Utf8.ofString live.text) := by
  obtain ⟨place, found, holds⟩ := stands.filed
  exact Option.bind_eq_some_iff.mpr ⟨place, found, holds⟩

theorem Stands.spared (stands : live.Stands process desk)
    (spared : DocumentDesk.Spares process desk later) (other : live.number ≠ desk.next) :
    live.Stands process later := by
  obtain ⟨place, found, name, holds⟩ := stands.place
  obtain ⟨dir, same⟩ := stands.named
  refine ⟨⟨dir, by rw [spared.cwd]; exact same⟩, place, ?_, ?_⟩
  · rw [spared.cwd, FileTree.locate?_congr spared.directories]
    exact found
  · rw [spared.files place, holds]
    rw [name, ne_eq, Option.some.injEq]
    exact fun same => other (DocumentDesk.fileName_injective process same)

theorem Stands.drop (stands : live.Stands process desk) {gone : LiveDocument}
    (stood : gone.Stands process desk) (other : live.number ≠ gone.number) :
    live.Stands process (desk.drop gone.document) := by
  obtain ⟨place, found, name, holds⟩ := stands.place
  obtain ⟨left, lost, ended, -⟩ := stood.place
  have apart : left ≠ place := by
    rintro rfl
    rw [name, Option.some.injEq] at ended
    exact other (DocumentDesk.fileName_injective process ended)
  refine ⟨stands.named, place, ?_, ?_⟩
  · exact (FileTree.locate?_congr (FileTree.directories_remove _ _ _) _ _).trans found
  · exact (FileTree.file?_remove lost place).trans ((if_neg apart).trans holds)

end LiveDocument

/-- A desk, and those of its documents that are alive, in the order in which they were made. -/
structure LiveDocuments where
  desk : DocumentDesk
  alive : List LiveDocument

/-- What happens in a process: a document is made, the host breaks its writing off, or one of those
that are alive is dropped. -/
inductive DocumentEvent where
  | create (dir text : String)
  | breakOff (dir : String) (written : Option Bytes)
  | drop (position : Nat)

def DocumentEvent.isCounted : DocumentEvent → Bool
  | .drop _ => false
  | _ => true

namespace LiveDocuments

variable {process : Nat} {start later : DocumentDesk} {documents : LiveDocuments}

/-- What a creation comes to. -/
def settle (documents : LiveDocuments) (text : String) :
    Except Fault VirtualDocument × DocumentDesk → LiveDocuments
  | (.ok document, desk) => ⟨desk, documents.alive ++ [⟨document, text, documents.desk.next⟩]⟩
  | (.error _, desk) => ⟨desk, documents.alive⟩

def drop (documents : LiveDocuments) (position : Nat) : LiveDocuments where
  desk := (documents.alive[position]?.map fun live =>
    documents.desk.drop live.document).getD documents.desk
  alive := documents.alive.eraseIdx position

def next (process : Nat) (documents : LiveDocuments) : DocumentEvent → LiveDocuments
  | .create dir text => documents.settle text (documents.desk.create (toString process) dir text)
  | .breakOff dir written =>
    ⟨documents.desk.breakOff (toString process) dir written, documents.alive⟩
  | .drop position => documents.drop position

theorem next_create (process : Nat) (documents : LiveDocuments) (dir text : String) :
    documents.next process (.create dir text) =
      documents.settle text (documents.desk.create (toString process) dir text) := rfl

theorem next_breakOff (process : Nat) (documents : LiveDocuments) (dir : String)
    (written : Option Bytes) :
    documents.next process (.breakOff dir written) =
      ⟨documents.desk.breakOff (toString process) dir written, documents.alive⟩ := rfl

theorem next_drop (process : Nat) (documents : LiveDocuments) (position : Nat) :
    documents.next process (.drop position) = documents.drop position := rfl

def run (process : Nat) (start : DocumentDesk) (events : List DocumentEvent) : LiveDocuments :=
  events.foldl (next process) ⟨start, []⟩

/-- What creations and drops preserve: each document has a number of its own, and no number to come
is among them. -/
structure Sound (process : Nat) (start : DocumentDesk) (documents : LiveDocuments) : Prop where
  cwd : documents.desk.cwd = start.cwd
  directories : documents.desk.tree.directories = start.tree.directories
  numbered : ∀ live ∈ documents.alive, live.number < documents.desk.next
  distinct : (documents.alive.map LiveDocument.number).Nodup
  stands : ∀ live ∈ documents.alive, live.Stands process documents.desk

theorem Sound.spared (sound : Sound process start documents)
    (spared : DocumentDesk.Spares process documents.desk later) :
    Sound process start ⟨later, documents.alive⟩ := by
  constructor
  · exact spared.cwd.trans sound.cwd
  · exact spared.directories.trans sound.directories
  · intro live member
    have below := sound.numbered live member
    have counted := spared.counted
    show live.number < later.next
    omega
  · exact sound.distinct
  · intro live member
    have below := sound.numbered live member
    exact (sound.stands live member).spared spared (by omega)

theorem Sound.create (sound : Sound process start documents) (dir text : String) :
    Sound process start
      (documents.settle text (documents.desk.create (toString process) dir text)) := by
  rcases documents.desk.create_cases process dir text with
    failed | ⟨later, place, made, spared, found, holds⟩
  · rw [failed]
    exact sound.spared ⟨rfl, rfl, rfl, fun _ _ => rfl⟩
  · rw [made]
    have others := sound.spared spared
    have counted := spared.counted
    constructor
    · exact others.cwd
    · exact others.directories
    · intro live member
      rcases List.mem_append.mp member with old | new
      · exact others.numbered live old
      · obtain rfl := List.mem_singleton.mp new
        show documents.desk.next < later.next
        omega
    · rw [settle, List.map_append, List.map_singleton, List.nodup_append_comm,
        List.singleton_append, List.nodup_cons]
      refine ⟨?_, others.distinct⟩
      intro used
      obtain ⟨live, member, number⟩ := List.mem_map.mp used
      have below := sound.numbered live member
      have number : live.number = documents.desk.next := number
      omega
    · intro live member
      rcases List.mem_append.mp member with old | new
      · exact others.stands live old
      · obtain rfl := List.mem_singleton.mp new
        refine ⟨⟨dir, ?_⟩, place, ?_, holds⟩
        · exact congrArg (DocumentDesk.document · process dir documents.desk.next) spared.cwd.symm
        · show later.tree.locate? later.cwd _ = _
          rw [spared.cwd, FileTree.locate?_congr spared.directories]
          exact found

theorem Sound.drop (sound : Sound process start documents) (position : Nat) :
    Sound process start (documents.drop position) := by
  by_cases inside : position < documents.alive.length
  · have gone : documents.alive[position]? = some documents.alive[position] :=
      List.getElem?_eq_getElem inside
    have order := List.getElem_cons_eraseIdx_perm inside
    have kept : ∀ live ∈ documents.alive.eraseIdx position, live ∈ documents.alive :=
      fun _ member => List.mem_of_mem_eraseIdx member
    -- No second document has the number of the one that goes.
    have numbers : (documents.alive[position].number ::
        (documents.alive.eraseIdx position).map LiveDocument.number).Nodup :=
      (order.map LiveDocument.number).nodup_iff.mpr sound.distinct
    obtain ⟨alone, distinct⟩ := List.nodup_cons.mp numbers
    have same : documents.drop position =
        ⟨documents.desk.drop documents.alive[position].document,
          documents.alive.eraseIdx position⟩ := by
      rw [LiveDocuments.drop, gone]
      rfl
    rw [same]
    constructor
    · exact sound.cwd
    · exact (FileTree.directories_remove _ _ _).trans sound.directories
    · exact fun live member => sound.numbered live (kept live member)
    · exact distinct
    · intro live member
      have stood := sound.stands _ (List.getElem_mem inside)
      refine (sound.stands live (kept live member)).drop stood ?_
      intro number
      exact alone (number ▸ List.mem_map_of_mem member)
  · rw [not_lt] at inside
    have same : documents.drop position = documents := by
      rw [LiveDocuments.drop, List.getElem?_eq_none inside, List.eraseIdx_of_length_le inside]
      rfl
    rw [same]
    exact sound

theorem Sound.next (sound : Sound process start documents) (event : DocumentEvent) :
    Sound process start (documents.next process event) := by
  cases event with
  | create dir text => exact sound.create dir text
  | breakOff dir written => exact sound.spared (documents.desk.spares_breakOff process dir written)
  | drop position => exact sound.drop position

theorem sound_run (process : Nat) (start : DocumentDesk) (events : List DocumentEvent) :
    Sound process start (run process start events) := by
  induction events using List.reverseRecOn with
  | nil => exact ⟨rfl, rfl, by simp [run], List.nodup_nil, by simp [run]⟩
  | append_singleton events event ih =>
    have last : run process start (events ++ [event]) =
        (run process start events).next process event := List.foldl_concat ..
    rw [last]
    exact ih.next event

theorem next_counted (documents : LiveDocuments) (event : DocumentEvent) :
    (documents.next process event).desk.next =
      documents.desk.next + if event.isCounted then 1 else 0 := by
  cases event with
  | create dir text =>
    rw [next_create]
    rcases documents.desk.create_cases process dir text with failed | ⟨later, -, made, spared, -⟩
    · rw [failed]
      rfl
    · rw [made]
      exact spared.counted
  | breakOff dir written =>
    rw [next_breakOff]
    exact (documents.desk.spares_breakOff process dir written).counted
  | drop position =>
    rw [next_drop, drop]
    cases documents.alive[position]? <;> rfl

theorem next_run (process : Nat) (start : DocumentDesk) (events : List DocumentEvent) :
    (run process start events).desk.next = start.next + events.countP DocumentEvent.isCounted := by
  induction events using List.reverseRecOn with
  | nil => rfl
  | append_singleton events event ih =>
    have last : run process start (events ++ [event]) =
        (run process start events).next process event := List.foldl_concat ..
    rw [last, List.countP_append, List.countP_singleton, ← Nat.add_assoc, ← ih]
    exact next_counted _ event

/-- What a creation adds: a document in its directory under its number, with the URI of its path, in
a file that holds its text. -/
structure Adds (process : Nat) (start : DocumentDesk) (dir text : String)
    (documents : LiveDocuments) (live : LiveDocument) : Prop where
  alive : (documents.next process (.create dir text)).alive = documents.alive ++ [live]
  given : live.text = text
  path : live.document.path =
    Path.join dir (DocumentDesk.fileName (toString process) documents.desk.next)
  uri : Uri.IsFileUri (Path.join (Path.ofParts start.cwd) live.document.path) live.document.uri
  file : (documents.next process (.create dir text)).desk.tree.read? start.cwd
    live.document.path = some (Utf8.ofString text)

/-- The documents that are alive lie apart, and none is touched by what becomes of another. -/
structure Separated (process : Nat) (start : DocumentDesk) (events : List DocumentEvent)
    (documents : LiveDocuments) : Prop where
  paths : (documents.alive.map fun live => live.document.path).Nodup
  uris : (documents.alive.map fun live => live.document.uri).Nodup
  texts : ∀ live ∈ documents.alive,
    documents.desk.tree.read? documents.desk.cwd live.document.path =
      some (Utf8.ofString live.text)
  /-- A drop takes the file of the document away, and no other. -/
  drops : ∀ live ∈ documents.alive, ∃ place,
    documents.desk.tree.locate? documents.desk.cwd live.document.path = some place ∧
      (documents.desk.drop live.document).tree.directories = documents.desk.tree.directories ∧
        ∀ other, (documents.desk.drop live.document).tree.file? other =
          if place = other then none else documents.desk.tree.file? other
  /-- A creation adds a document wherever a file could be written from the start. -/
  creations : ∀ dir text, start.tree.Writable start.cwd
      (Path.join dir (DocumentDesk.fileName (toString process) documents.desk.next)) →
    ∃ live, Adds process start dir text documents live
  /-- It is refused everywhere else. -/
  refusals : ∀ dir text, ¬ start.tree.Writable start.cwd
      (Path.join dir (DocumentDesk.fileName (toString process) documents.desk.next)) →
    ∃ fault, (documents.desk.create (toString process) dir text).1 = .error fault
  /-- A creation that fails costs a number. -/
  failures : ∀ dir text fault later,
    documents.desk.create (toString process) dir text = (.error fault, later) →
      fault = .artifactIo
          (Path.join dir (DocumentDesk.fileName (toString process) documents.desk.next))
          .refusedByHost ∧
        later = { documents.desk with next := documents.desk.next + 1 }
  /-- One that the host breaks off leaves the files of documents as they are. -/
  interruptions : ∀ dir written, ∀ live ∈ documents.alive,
    (documents.desk.breakOff (toString process) dir written).tree.read? documents.desk.cwd
      live.document.path = some (Utf8.ofString live.text)
  counted : documents.desk.next = start.next + events.countP DocumentEvent.isCounted
  /-- What has happened shows in nothing but the number. -/
  answers : ∀ dir text, (documents.desk.create (toString process) dir text).1 =
    ({ start with next := documents.desk.next }.create (toString process) dir text).1

theorem Sound.nodup_map (sound : Sound process start documents) (text : LiveDocument → String)
    (ends : ∀ live ∈ documents.alive, (Path.segments (text live)).getLast? =
      some (DocumentDesk.fileName (toString process) live.number)) :
    (documents.alive.map text).Nodup := by
  refine List.Nodup.map_on ?_ (List.Nodup.of_map _ sound.distinct)
  intro live member other member' same
  have names := ends live member
  rw [same, ends other member', Option.some.injEq] at names
  have numbers := DocumentDesk.fileName_injective process names
  exact List.inj_on_of_nodup_map sound.distinct member member' numbers.symm

theorem Sound.answers (sound : Sound process start documents) (dir text : String) :
    (documents.desk.create (toString process) dir text).1 =
      ({ start with next := documents.desk.next }.create (toString process) dir text).1 := by
  apply DocumentDesk.create_congr
  · exact sound.directories
  · exact sound.cwd
  · rfl

theorem Sound.writable (sound : Sound process start documents) (path : String) :
    start.tree.Writable start.cwd path ↔
      documents.desk.tree.Writable documents.desk.cwd path := by
  rw [sound.cwd]
  exact FileTree.writable_congr sound.directories.symm start.cwd path

theorem Sound.creates (sound : Sound process start documents) {dir : String} (text : String)
    (free : start.tree.Writable start.cwd
      (Path.join dir (DocumentDesk.fileName (toString process) documents.desk.next))) :
    ∃ live, Adds process start dir text documents live := by
  obtain ⟨tree, wrote⟩ := Option.isSome_iff_exists.mp
    (FileTree.isSome_write?_iff.mpr ((sound.writable _).mp free))
  have made : documents.next process (.create dir text) =
      ⟨{ documents.desk with tree, next := documents.desk.next + 1 }, documents.alive ++
        [⟨DocumentDesk.document documents.desk.cwd process dir documents.desk.next, text,
          documents.desk.next⟩]⟩ := by
    rw [next_create, DocumentDesk.create_of_written wrote, settle]
  have grown := sound.next (.create dir text)
  have stands := grown.stands
  have here := grown.cwd
  rw [made] at stands here
  refine ⟨_, congrArg alive made, rfl, rfl, ?_, ?_⟩
  · rw [← sound.cwd]
    exact Uri.isFileUri_ofAbsolute _
  · rw [made, ← here]
    exact (stands _ (List.mem_append_right _ List.mem_cons_self)).read?

theorem Sound.refuses (sound : Sound process start documents) {dir : String} (text : String)
    (taken : ¬ start.tree.Writable start.cwd
      (Path.join dir (DocumentDesk.fileName (toString process) documents.desk.next))) :
    ∃ fault, (documents.desk.create (toString process) dir text).1 = .error fault := by
  have unwritten : documents.desk.tree.write? documents.desk.cwd
      (Path.join dir (DocumentDesk.fileName (toString process) documents.desk.next))
      (Utf8.ofString text) = none := by
    rw [← Option.not_isSome_iff_eq_none, FileTree.isSome_write?_iff, ← sound.writable]
    exact taken
  rw [DocumentDesk.create_of_unwritten unwritten]
  exact ⟨_, rfl⟩

/-- After whatever was made, broken off and dropped in a process, the documents that are alive lie
apart, each in a file with its text, and the next is made as the first of its number would be. -/
theorem separated_run (process : Nat) (start : DocumentDesk) (events : List DocumentEvent) :
    Separated process start events (run process start events) := by
  have sound := sound_run process start events
  constructor
  · exact sound.nodup_map _ fun live member => (sound.stands live member).path
  · exact sound.nodup_map _ fun live member => (sound.stands live member).uri
  · exact fun live member => (sound.stands live member).read?
  · intro live member
    obtain ⟨place, found, -, -⟩ := (sound.stands live member).place
    refine ⟨place, found, FileTree.directories_remove _ _ _, ?_⟩
    exact FileTree.file?_remove found
  · exact fun dir text free => sound.creates text free
  · exact fun dir text taken => sound.refuses text taken
  · intro dir text fault later failed
    rcases DocumentDesk.create_cases _ process dir text with own | ⟨_, _, made, -⟩
    · rw [own, Prod.mk.injEq, Except.error.injEq] at failed
      exact ⟨failed.1.symm, failed.2.symm⟩
    · rw [made, Prod.mk.injEq] at failed
      cases failed.1
  · intro dir written live member
    have spared := DocumentDesk.spares_breakOff (run process start events).desk process dir written
    have below := sound.numbered live member
    exact ((sound.stands live member).spared spared (by omega)).read?
  · exact next_run process start events
  · exact sound.answers

def homeDesk : DocumentDesk where
  tree := ⟨[], [["home"], ["tmp"]]⟩
  cwd := ["home"]
  next := 0

/-- The second chunk has no directory to go to, and the first is dropped in the end. -/
def fourChunks : List DocumentEvent :=
  [.create "/tmp" "x <- 1", .create "/gone" "x <- 2", .create "" "x <- 3", .create "/tmp" "x <- 4",
    .drop 0]

theorem separated_fourChunks :
    Separated 7 homeDesk fourChunks (run 7 homeDesk fourChunks) ∧
    (run 7 homeDesk fourChunks).alive =
      [⟨⟨"ridian-virtual-document-7-2.r", "file:///home/ridian-virtual-document-7-2.r"⟩,
          "x <- 3", 2⟩,
        ⟨⟨"/tmp/ridian-virtual-document-7-3.r", "file:///tmp/ridian-virtual-document-7-3.r"⟩,
          "x <- 4", 3⟩] ∧
    (run 7 homeDesk fourChunks).desk.tree.files =
      [(["home", "ridian-virtual-document-7-2.r"], Utf8.ofString "x <- 3"),
        (["tmp", "ridian-virtual-document-7-3.r"], Utf8.ofString "x <- 4")] := by
  refine ⟨separated_run 7 homeDesk fourChunks, ?_, ?_⟩
  · decide +kernel
  · decide +kernel

end LiveDocuments

end NotebookKernel
