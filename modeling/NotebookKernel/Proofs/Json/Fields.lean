import NotebookKernel.Proofs.Json.Meaning

/-!
# Records that are read again

The tree of an object has the parts that the members of the object give it. A part that stands for
a settled value is read as the value is, so a field that has been read is read again from the member
that is written for it.
-/

set_option autoImplicit false

namespace NotebookKernel.Json

variable {β : Type} {depth : Nat}

theorem Settled.within_tree {value : Json} (settled : Settled depth value)
    (again : ∀ x ∈ value.reals, Rereads x) (read : Json → Option β) :
    Tree.within depth read value.tree = read value := by
  rw [Tree.within, settled.ofTree?_tree again, Option.bind_some]

theorem exists_of_within {read : Json → Option β} {part : Tree} {b : β}
    (found : Tree.within depth read part = some b) :
    ∃ value, Settled depth value ∧ read value = some b := by
  obtain ⟨value, means, here⟩ := Option.bind_eq_some_iff.mp found
  exact ⟨value, settled_ofTree? means, here⟩

theorem eq_of_record? {fields : List (List String)} {t : Tree} {inner : Nat} {parts : Parts Tree}
    (found : t.record? depth fields = some (inner, parts)) : depth = inner + 1 := by
  cases depth with
  | zero => cases found
  | succ depth =>
    obtain ⟨_, -, same⟩ := Option.map_eq_some_iff.mp found
    exact congrArg (· + 1) (congrArg Prod.fst same)

def decoded (m : List StringUnit × Tree) : String × Tree :=
  ((text? m.1).getD "", m.2)

theorem decodeKeys?_eq (ms : List (List StringUnit × Tree)) :
    decodeKeys? ms =
      if ms.all fun m => (text? m.1).isSome then some (ms.map decoded) else none := by
  simp only [decodeKeys?, List.all_map, List.map_map]
  rfl

theorem decodeKeys?_memberTrees (members : List (String × Json)) :
    decodeKeys? (memberTrees members) = some (members.map fun m => (m.1, m.2.tree)) := by
  rw [memberTrees_eq_map, decodeKeys?_eq]
  simp [decoded, text?_textUnits, Function.comp_def]

theorem named_map {α : Type} (key : String) (f : α → β) (members : List (String × α)) :
    named key (members.map fun m => (m.1, f m.2)) = (named key members).map f := by
  induction members with
  | nil => rfl
  | cons member members ih =>
    rw [List.map_cons, named_cons, named_cons, ih]
    split <;> rfl

theorem exists_record?_tree (depth : Nat) (members : List (String × Json)) (keys : List String)
    (distinct : (members.map Prod.fst).Nodup) :
    ∃ parts : Parts Tree,
      (tree (.object members)).record? (depth + 1) (keys.map ([·])) = some (depth, parts) ∧
      ∀ (index : Nat) (key : String), keys[index]? = some key →
        parts.at index = (named key members).map tree := by
  have same : ((members.map fun m => (m.1, m.2.tree)).map Prod.fst).Nodup := by
    simpa [Function.comp_def] using distinct
  refine ⟨⟨false, keys.map fun key => (named key members).map tree⟩, ?_, ?_⟩
  · show Option.map _ ((decodeKeys? (memberTrees members)).bind _) = _
    rw [decodeKeys?_memberTrees, Option.bind_some, partsOfMembers?_map same]
    simp [named_map]
  · intro index key found
    simp [Parts.at, found]

theorem required_tree {members : List (String × Json)} {parts : Parts Tree} {index : Nat}
    {key : String} {value : Json} (here : parts.at index = (named key members).map tree)
    (member : named key members = some value) (settled : Settled depth value)
    (again : ∀ x ∈ value.reals, Rereads x) (read : Json → Option β) :
    parts.required index (Tree.within depth read) = read value := by
  rw [Parts.required, here, member, Option.map_some, Option.bind_some,
    settled.within_tree again read]

def reading (names : List String) (read : Tree → Option β) (ms : List (String × Tree)) :
    Option (Option β) :=
  (fieldOf? names ms).map (·.bind read)

theorem reading_congr {names : List String} {read : Tree → Option β}
    {ms ms' : List (String × Tree)}
    (same : (ms.filter fun m => names.contains m.1).map (fun m => read m.2) =
      (ms'.filter fun m => names.contains m.1).map (fun m => read m.2)) :
    reading names read ms = reading names read ms' := by
  rw [reading, reading, fieldOf?, fieldOf?]
  generalize ms.filter (fun m => names.contains m.1) = found at same ⊢
  generalize ms'.filter (fun m => names.contains m.1) = found' at same ⊢
  rcases found with _ | ⟨m, _ | ⟨n, rest⟩⟩ <;> rcases found' with _ | ⟨m', _ | ⟨n', rest'⟩⟩ <;>
    simp_all

section Fields

variable {members : List (String × Json)} (again : ∀ x ∈ memberReals members, Rereads x)
variable {parts written : Parts Tree} {index place : Nat} {key : String}
variable {read : Json → Option β} {write : β → Json}

include again

private theorem rereads_of_named {value : Json} (found : named key members = some value) :
    ∀ x ∈ value.reals, Rereads x :=
  fun x hx => again x (mem_memberReals (mem_of_named found) hx)

theorem required_again {b : β}
    (found : parts.required index (Tree.within depth read) = some b)
    (inverse : ∀ value b, read value = some b → value = write b)
    (here : written.at place = (named key members).map tree)
    (member : named key members = some (write b)) :
    written.required place (Tree.within depth read) = some b := by
  obtain ⟨part, -, inside⟩ := Option.bind_eq_some_iff.mp found
  obtain ⟨value, settled, means⟩ := exists_of_within inside
  obtain rfl := inverse value b means
  rw [Parts.required, here, member, Option.map_some, Option.bind_some,
    settled.within_tree (rereads_of_named again member), means]

theorem optional_again {o : Option β}
    (found : parts.optional index (Tree.within depth (orNull read)) = some o)
    (inverse : ∀ value b, read value = some b → value = write b)
    (here : written.at place = (named key members).map tree)
    (member : named key members = o.map write) :
    written.optional place (Tree.within depth (orNull read)) = some o := by
  cases o with
  | none => rw [Parts.optional, here, member]; rfl
  | some b =>
    rw [Parts.optional] at found
    split at found
    · cases found
    · obtain ⟨value, settled, means⟩ := exists_of_within found
      have given : read value = some b := by
        cases value with
        | null => cases means
        | _ =>
          obtain ⟨_, given, same⟩ := Option.map_eq_some_iff.mp means
          cases same
          exact given
      obtain rfl := inverse value b given
      rw [Parts.optional, here, member]
      exact (settled.within_tree (rereads_of_named again member) (orNull read)).trans means

end Fields

end NotebookKernel.Json
