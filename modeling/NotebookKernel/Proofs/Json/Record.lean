import Mathlib.Data.List.Forall2
import NotebookKernel.Json.Record

/-!
# Fields of records

In a value without repeated keys the parts of a record are its fields: by key in an object, by
position in an array. What a reader makes of a record then depends on these fields alone.
-/

set_option autoImplicit false

namespace NotebookKernel.Json

theorem mapM_eq_some_iff {α β : Type} {read : α → Option β} {items : List α} {list : List β} :
    items.mapM read = some list ↔ List.Forall₂ (fun a b => read a = some b) items list := by
  induction items generalizing list with
  | nil => cases list <;> simp
  | cons a items ih =>
    simp only [List.mapM_cons, Option.bind_eq_bind, Option.bind_eq_some_iff]
    constructor
    · rintro ⟨b, first, rest, later, made⟩
      cases made
      exact .cons first (ih.mp later)
    · rintro (_ | ⟨first, later⟩)
      exact ⟨_, first, _, ih.mpr later, rfl⟩

theorem exists_of_mem_mapM {α β : Type} {read : α → Option β} {items : List α} {list : List β}
    (made : items.mapM read = some list) {b : β} (found : b ∈ list) :
    ∃ a ∈ items, read a = some b := by
  rw [mapM_eq_some_iff] at made
  induction made with
  | nil => cases found
  | cons first _ ih =>
    rcases List.mem_cons.mp found with rfl | later
    · exact ⟨_, List.mem_cons_self, first⟩
    · obtain ⟨a, here, read⟩ := ih later
      exact ⟨a, List.mem_cons_of_mem _ here, read⟩

/-- No object in a value has a key twice. -/
inductive Distinct : Json → Prop
  | null : Distinct .null
  | bool (b : Bool) : Distinct (.bool b)
  | int (i : Int) : Distinct (.int i)
  | real (x : Binary64) : Distinct (.real x)
  | string (s : String) : Distinct (.string s)
  | array {items : List Json} (each : ∀ item ∈ items, Distinct item) : Distinct (.array items)
  | object {members : List (String × Json)} (keys : (members.map Prod.fst).Nodup)
      (each : ∀ member ∈ members, Distinct member.2) : Distinct (.object members)

section Members

variable {α : Type} {members : List (String × α)}

def named (key : String) (members : List (String × α)) : Option α :=
  (members.find? fun member => member.1 == key).map Prod.snd

theorem named_cons (key : String) (member : String × α) (members : List (String × α)) :
    named key (member :: members) =
      if member.1 = key then some member.2 else named key members := by
  by_cases same : member.1 = key <;> simp [named, same]

theorem named_append (key : String) (first second : List (String × α)) :
    named key (first ++ second) = (named key first).or (named key second) := by
  cases found : first.find? fun member => member.1 == key <;> simp [named, found]

theorem named_of_mem (distinct : (members.map Prod.fst).Nodup) {member : String × α}
    (found : member ∈ members) : named member.1 members = some member.2 := by
  induction members with
  | nil => cases found
  | cons first members ih =>
    rw [List.map_cons, List.nodup_cons] at distinct
    rw [named_cons]
    rcases List.mem_cons.mp found with rfl | later
    · rw [if_pos rfl]
    · have other : first.1 ≠ member.1 := by
        intro same
        exact distinct.1 (same ▸ List.mem_map_of_mem later)
      rw [if_neg other, ih distinct.2 later]

theorem mem_of_named {key : String} {value : α} (found : named key members = some value) :
    (key, value) ∈ members := by
  obtain ⟨member, here, rfl⟩ := Option.map_eq_some_iff.mp found
  have same : member.1 = key := by simpa using List.find?_some here
  exact same ▸ List.mem_of_find?_eq_some here

theorem fieldOf?_singleton (distinct : (members.map Prod.fst).Nodup) (key : String) :
    fieldOf? [key] members = some (named key members) := by
  induction members with
  | nil => rfl
  | cons first members ih =>
    rw [List.map_cons, List.nodup_cons] at distinct
    by_cases same : first.1 = key
    · have alone : members.filter (fun member => [key].contains member.1) = [] := by
        rw [List.filter_eq_nil_iff]
        intro member found
        have other : member.1 ≠ key := by
          intro again
          exact distinct.1 (same.trans again.symm ▸ List.mem_map_of_mem found)
        simp [other]
      rw [fieldOf?, List.filter_cons_of_pos (by simp [same]), alone, named_cons, if_pos same]
    · have skipped : fieldOf? [key] (first :: members) = fieldOf? [key] members := by
        simp [fieldOf?, same]
      rw [skipped, ih distinct.2, named_cons, if_neg same]

theorem partsOfMembers?_map (distinct : (members.map Prod.fst).Nodup) (keys : List String) :
    partsOfMembers? (keys.map ([·])) members =
      some ⟨false, keys.map fun key => named key members⟩ := by
  have each : (keys.map ([·])).mapM (fun names => fieldOf? names members) =
      some (keys.map fun key => named key members) := by
    rw [mapM_eq_some_iff, List.forall₂_map_left_iff, List.forall₂_map_right_iff, List.forall₂_same]
    intro key _
    exact fieldOf?_singleton distinct key
  rw [partsOfMembers?, each]
  rfl

end Members

/-- A value is written as a record of so many fields: as an object, or as an array that is not too
long. -/
def IsRecord (arity : Nat) : Json → Prop
  | .object _ => True
  | .array items => items.length ≤ arity
  | _ => False

/-- A field of a record, which has its key in an object and its place in an array. -/
def field? (index : Nat) (key : String) : Json → Option Json
  | .object members => named key members
  | .array items => items[index]?
  | _ => none

def given? (index : Nat) (key : String) (value : Json) : Option Json :=
  match field? index key value with
  | some .null => none
  | found => found

theorem Distinct.of_field? {value found : Json} (distinct : Distinct value) {index : Nat}
    {key : String} (here : field? index key value = some found) : Distinct found := by
  cases distinct with
  | array each => exact each found (List.mem_of_getElem? here)
  | object keys each => exact each _ (mem_of_named here)
  | _ => cases here

theorem field?_of_given? {value found : Json} {index : Nat} {key : String}
    (here : given? index key value = some found) : field? index key value = some found := by
  rw [given?] at here
  split at here
  · cases here
  · exact here

theorem Distinct.of_given? {value found : Json} (distinct : Distinct value) {index : Nat}
    {key : String} (here : given? index key value = some found) : Distinct found :=
  distinct.of_field? (field?_of_given? here)

theorem exists_parts? {value : Json} (distinct : Distinct value) (keys : List String)
    (record : IsRecord keys.length value) : ∃ parts, value.parts? (keys.map ([·])) = some parts ∧
      ∀ (index : Nat) (key : String), keys[index]? = some key →
        parts.at index = field? index key value := by
  cases distinct with
  | object distinct each =>
    refine ⟨_, partsOfMembers?_map distinct keys, ?_⟩
    intro index key found
    simp [Parts.at, found, field?]
  | @array items each =>
    have fits : ¬ (keys.map ([·])).length < items.length := by
      rw [List.length_map]
      exact Nat.not_lt_of_le record
    refine ⟨_, if_neg fits, ?_⟩
    intro index key found
    have within : index < keys.length := (List.getElem?_eq_some_iff.mp found).1
    rw [Parts.at, field?]
    by_cases here : index < items.length
    · rw [List.getElem?_append_left (by simpa using here)]
      simp [here]
    · have rest : index - items.length < keys.length - items.length := by omega
      rw [List.getElem?_append_right (by simpa using here)]
      simp [rest, here]
  | _ => cases record

theorem parts?_of_not_isRecord {value : Json} (keys : List String)
    (record : ¬ IsRecord keys.length value) : value.parts? (keys.map ([·])) = none := by
  cases value with
  | object members => exact absurd trivial record
  | array items =>
    have long : (keys.map ([·])).length < items.length := by
      rw [List.length_map]
      exact Nat.lt_of_not_le record
    exact if_pos long
  | _ => rfl

section Reading

variable {β : Type} {value : Json} {parts : Parts Json} {index : Nat} {key : String}

theorem required_eq_some_iff (found : parts.at index = field? index key value)
    {read : Json → Option β} {b : β} :
    parts.required index read = some b ↔ ∃ v, field? index key value = some v ∧ read v = some b := by
  rw [Parts.required, found, Option.bind_eq_some_iff]

/-- What comes of a field that may be left out: nothing when it is, and else what is read of it. -/
def Yields (read : Json → Option β) (field : Option Json) (result : Option β) : Prop :=
  (field = none ∧ result = none) ∨ ∃ v b, field = some v ∧ read v = some b ∧ result = some b

theorem yields_none (read : Json → Option β) : Yields read none none :=
  Or.inl ⟨rfl, rfl⟩

theorem yields_some {read : Json → Option β} {v : Json} {b : β} (h : read v = some b) :
    Yields read (some v) (some b) :=
  Or.inr ⟨v, b, rfl, h, rfl⟩

theorem optional_orNull_eq_some_iff (found : parts.at index = field? index key value)
    {read : Json → Option β} {b : Option β} :
    parts.optional index (orNull read) = some b ↔ Yields read (given? index key value) b := by
  rw [Parts.optional, found, given?, Yields]
  cases field? index key value with
  | none => simp [@eq_comm _ b]
  | some v => cases v <;> simp [orNull, Option.map_eq_some_iff, @eq_comm _ b]

theorem string?_eq_some_iff {text : String} : string? value = some text ↔ value = .string text := by
  cases value <;> simp [string?]

end Reading

end NotebookKernel.Json
