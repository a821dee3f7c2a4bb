import NotebookKernel.Proofs.Decimal.Exact
import NotebookKernel.Proofs.Json.Fields
import NotebookKernel.Proofs.Text.Lines
import NotebookKernel.Variable

/-!
# Snapshots in other words

A snapshot may word the classes and the preview of a variable in several ways, which all mean the
same list of variables. The list is also what is read of the text that is written for it, provided
that doubles hold its sizes exactly.
-/

set_option autoImplicit false

namespace NotebookKernel.Variable

open Json (Tree StringUnit fieldOf? decoded decodeKeys?_eq reading reading_congr)

/-- A string by itself says what an array of nothing but the string says. -/
inductive Boxed : Tree → Tree → Prop
  | same (t : Tree) : Boxed t t
  | boxed (content : List StringUnit) : Boxed (.string content) (.array [.string content])

def NamesPreview (key : List StringUnit) : Prop :=
  Json.text? key = some "value" ∨ Json.text? key = some "valuePreview"

/-- A member of a variable in other words. -/
inductive RewordedMember : List StringUnit × Tree → List StringUnit × Tree → Prop
  | same (m : List StringUnit × Tree) : RewordedMember m m
  | type {key : List StringUnit} {t t' : Tree} (named : Json.text? key = some "type")
      (boxed : Boxed t t') : RewordedMember (key, t) (key, t')
  | preview {key key' : List StringUnit} {t t' : Tree} (named : NamesPreview key)
      (renamed : NamesPreview key') (boxed : Boxed t t') : RewordedMember (key, t) (key', t')

/-- A variable in other words, by its members or by its items. -/
inductive RewordedVariable : Tree → Tree → Prop
  | same (t : Tree) : RewordedVariable t t
  | members {ms ms' : List (List StringUnit × Tree)} (each : List.Forall₂ RewordedMember ms ms') :
    RewordedVariable (.object ms) (.object ms')
  | items (name size : Tree) {type type' preview preview' : Tree} (types : Boxed type type')
      (previews : Boxed preview preview') :
    RewordedVariable (.array [name, type, size, preview]) (.array [name, type', size, preview'])

/-- A list of variables in other words. -/
inductive RewordedList : Tree → Tree → Prop
  | each {items items' : List Tree} (each : List.Forall₂ RewordedVariable items items') :
    RewordedList (.array items) (.array items')

def snapshotTree? (raw : List Char) : Option Tree :=
  Tree.ofBytes? (Utf8.encode (Text.trim raw))

def Reworded (raw raw' : List Char) : Prop :=
  ∃ t t', snapshotTree? raw = some t ∧ snapshotTree? raw' = some t' ∧ RewordedList t t'

theorem within_boxed (depth : Nat) {t t' : Tree} (boxed : Boxed t t') :
    Tree.within (depth + 1) Json.oneOrMany? t = Tree.within (depth + 1) Json.oneOrMany? t' := by
  cases boxed with
  | same => rfl
  | boxed content =>
    show ((Json.text? content).map Json.string).bind _ =
      ((Json.itemsOfTree? depth [] [.string content]).map Json.array).bind _
    rw [Json.itemsOfTree?_eq]
    cases text : Json.text? content <;>
      simp [Json.ofTree?, text, Json.oneOrMany?, Json.strings?, Json.string?]

section Reading

variable {β : Type}

theorem reading_reworded {names : List String} {read : Tree → Option β}
    (aliased : names.contains "value" = names.contains "valuePreview")
    (blind : names.contains "type" = true ∨ names.contains "value" = true →
      ∀ t t', Boxed t t' → read t = read t')
    {ms ms' : List (List StringUnit × Tree)} (each : List.Forall₂ RewordedMember ms ms') :
    reading names read (ms.map decoded) = reading names read (ms'.map decoded) := by
  refine reading_congr ?_
  induction each with
  | nil => rfl
  | @cons m m' ms ms' first _ ih =>
    have alike : names.contains (decoded m).1 = names.contains (decoded m').1 ∧
        (names.contains (decoded m).1 = true → read (decoded m).2 = read (decoded m').2) := by
      cases first with
      | same => exact ⟨rfl, fun _ => rfl⟩
      | type named boxed =>
        simp only [decoded, named, Option.getD_some, true_and]
        exact fun here => blind (Or.inl here) _ _ boxed
      | preview named renamed boxed =>
        have known : ∀ {key}, NamesPreview key →
            names.contains ((Json.text? key).getD "") = names.contains "value" := by
          rintro key (old | new)
          · rw [old, Option.getD_some]
          · rw [new, Option.getD_some, aliased]
        simp only [decoded, known named, known renamed, true_and]
        exact fun here => blind (Or.inr here) _ _ boxed
    rw [List.map_cons, List.map_cons, List.filter_cons, List.filter_cons, ← alike.1]
    split
    · rename_i here
      rw [List.map_cons, List.map_cons, ih, alike.2 here]
    · exact ih

end Reading

def ofMembers? (depth : Nat) (ms : List (String × Tree)) : Option Variable := do
  let name ← reading ["name"] (Tree.within depth Json.string?) ms
  let typeTags ← reading ["type"] (Tree.within depth Json.oneOrMany?) ms
  let size ← reading ["size"] (Tree.within depth size?) ms
  let preview ← reading ["valuePreview", "value"] (Tree.within depth Json.oneOrMany?) ms
  return ⟨← name, ← typeTags, ← size, " ".intercalate (← preview)⟩

theorem ofTree?_object (depth : Nat) (ms : List (List StringUnit × Tree)) :
    ofTree? (depth + 1) (.object ms) = (Json.decodeKeys? ms).bind (ofMembers? depth) := by
  simp only [ofTree?, Tree.record?, Tree.parts?]
  cases Json.decodeKeys? ms with
  | none => rfl
  | some ms =>
    simp only [Option.bind_some, Json.partsOfMembers?, fields, ofMembers?, reading]
    cases name : fieldOf? ["name"] ms <;> cases types : fieldOf? ["type"] ms <;>
      cases size : fieldOf? ["size"] ms <;>
      cases preview : fieldOf? ["valuePreview", "value"] ms <;>
      simp [name, types, size, preview, Json.Parts.required, Json.Parts.at]

theorem ofTree?_reworded {depth : Nat} {t t' : Tree} (reworded : RewordedVariable t t') :
    ofTree? (depth + 2) t = ofTree? (depth + 2) t' := by
  cases reworded with
  | same => rfl
  | @members ms ms' each =>
    have keys : (ms.all fun m => (Json.text? m.1).isSome) =
        ms'.all fun m => (Json.text? m.1).isSome := by
      induction each with
      | nil => rfl
      | cons first _ ih =>
        rw [List.all_cons, List.all_cons, ih]
        congr 1
        cases first with
        | same => rfl
        | type => rfl
        | preview named renamed _ =>
          rcases named with old | old <;> rcases renamed with new | new <;> rw [old, new] <;> rfl
    have boxed : ∀ t t', Boxed t t' → Tree.within (depth + 1) Json.oneOrMany? t =
        Tree.within (depth + 1) Json.oneOrMany? t' := fun _ _ => within_boxed depth
    have same : ofMembers? (depth + 1) (ms.map decoded) =
        ofMembers? (depth + 1) (ms'.map decoded) := by
      rw [ofMembers?, ofMembers?, reading_reworded (by decide) (by simp) each,
        reading_reworded (by decide) (fun _ => boxed) each,
        reading_reworded (by decide) (by simp) each,
        reading_reworded (by decide) (fun _ => boxed) each]
    rw [ofTree?_object, ofTree?_object, decodeKeys?_eq, decodeKeys?_eq, keys]
    split
    · exact same
    · rfl
  | items name size types previews =>
    have type := within_boxed depth types
    have preview := within_boxed depth previews
    simp [ofTree?, Tree.record?, Tree.parts?, Json.partsOfItems?, fields, Json.Parts.required,
      Json.Parts.at, type, preview]

theorem listOfTree?_reworded {depth : Nat} {t t' : Tree} (reworded : RewordedList t t') :
    listOfTree? (depth + 3) t = listOfTree? (depth + 3) t' := by
  obtain ⟨each⟩ := reworded
  rw [listOfTree?, listOfTree?]
  induction each with
  | nil => rfl
  | cons first _ ih =>
    rw [List.mapM_cons, List.mapM_cons, ofTree?_reworded first, ih]

theorem parseEnvironment_reworded {raw raw' : List Char} (reworded : Reworded raw raw') :
    parseEnvironment raw = parseEnvironment raw' := by
  obtain ⟨t, t', before, after, alike⟩ := reworded
  rw [snapshotTree?] at before after
  rw [parseEnvironment, parseEnvironment, before, after, Option.bind_some, Option.bind_some,
    Json.depthLimit, listOfTree?_reworded alike]

theorem size?_nat {n : Nat} (small : n ≤ Nat.pow 2 53) : size? (.nat n) = some n := by
  obtain ⟨finite, zero, exact⟩ := Binary64.exact_of_le small
  have rank : Binary64.ofInt n = ⟨false, Binary64.rankOfNat n⟩ := by
    rw [Binary64.ofInt, Int.natAbs_natCast]
    simp
  have power : Nat.pow 2 53 = 9007199254740992 := rfl
  have bound : Nat.pow 2 64 = 18446744073709551616 := rfl
  show some (byteSize (Binary64.ofInt n)) = some n
  rw [rank, byteSize]
  by_cases nothing : n = 0
  · rw [nothing]
    rfl
  · have positive : Binary64.rankOfNat n ≠ 0 := fun none => nothing (zero.mp none)
    simp only [Bool.false_or, beq_iff_eq, positive, Bool.or_eq_true, decide_eq_true_eq, false_or,
      Nat.not_le.mpr finite, if_false, exact, Option.some.injEq]
    omega

theorem oneOrMany?_strings (texts : List String) :
    Json.oneOrMany? (.strings texts) = some texts := by
  show (texts.map Json.string).mapM Json.string? = some texts
  rw [Json.mapM_eq_some_iff, List.forall₂_map_left_iff, List.forall₂_same]
  exact fun _ _ => rfl

theorem reals_strings (texts : List String) : (Json.strings texts).reals = [] := by
  rw [Json.strings, Json.reals]
  induction texts with
  | nil => rfl
  | cons text texts ih => exact ih

theorem ofTree?_tree (depth : Nat) {v : Variable} (small : v.size ≤ Nat.pow 2 53) :
    ofTree? (depth + 2) v.toJson.tree = some v := by
  have power : Nat.pow 2 53 = 9007199254740992 := rfl
  have string (s : String) : Json.Settled (depth + 1) (.string s) := .string _ s
  have strings : Json.Settled (depth + 1) (.strings v.typeTags) := by
    refine .array fun item found => ?_
    obtain ⟨s, -, rfl⟩ := List.mem_map.mp found
    exact .string _ s
  have size : Json.Settled (depth + 1) (.nat v.size) := by
    have word : Text.wordBound = 18446744073709551616 := rfl
    exact .int _ (by omega) (by omega)
  have nameRead := (string v.name).within_tree (by simp [Json.reals]) Json.string?
  have typesRead := strings.within_tree (by simp [reals_strings]) Json.oneOrMany?
  have sizeRead := size.within_tree (by simp [Json.reals, Json.nat]) size?
  have previewRead := (string v.preview).within_tree (by simp [Json.reals]) Json.oneOrMany?
  rw [oneOrMany?_strings] at typesRead
  rw [size?_nat small] at sizeRead
  show ofTree? (depth + 1 + 1) (.object (Json.memberTrees _)) = _
  rw [ofTree?_object, Json.decodeKeys?_memberTrees]
  simp [ofMembers?, reading, fieldOf?, nameRead, typesRead, sizeRead, previewRead, Json.string?,
    Json.oneOrMany?]

theorem snapshotTree?_append (layout : Json.Layout) (items : List Json) :
    snapshotTree? (Json.append layout 0 "" (.array items)).toList =
      some (Json.array items).tree := by
  obtain ⟨inside, shape⟩ := Json.exists_append_array layout items
  have clean : Text.trim (Json.append layout 0 "" (.array items)).toList =
      (Json.append layout 0 "" (.array items)).toList := by
    rw [shape]
    refine Text.trim_eq_self ?_ ?_
    · rintro c ⟨⟩
      rfl
    · intro c last
      rw [List.getLast?_append, List.getLast?_singleton] at last
      cases last
      rfl
  rw [snapshotTree?, clean]
  exact Json.ofBytes?_append layout _

theorem parseEnvironment_append (layout : Json.Layout) {list : List Variable}
    (small : ∀ v ∈ list, v.size ≤ Nat.pow 2 53) :
    parseEnvironment (Json.append layout 0 "" (.array (list.map toJson))).toList = .ok list := by
  have written := snapshotTree?_append layout (list.map toJson)
  have each : (Json.itemTrees (list.map toJson)).mapM (ofTree? 126) = some list := by
    rw [Json.itemTrees_eq_map, List.map_map, Json.mapM_eq_some_iff, List.forall₂_map_left_iff,
      List.forall₂_same]
    exact fun v member => ofTree?_tree 124 (small v member)
  rw [snapshotTree?] at written
  rw [parseEnvironment, written, Option.bind_some, Json.tree, Json.depthLimit, listOfTree?, each]

/-- An accepted snapshot means the same list in other words, and the list is read again from its
own text, compact or indented. Its sizes are whole numbers up to `2 ^ 53`; numbers like these are
read as they stand. -/
theorem parseEnvironment_rewritten {raw : List Char} {list : List Variable}
    (accepted : parseEnvironment raw = .ok list) (small : ∀ v ∈ list, v.size ≤ Nat.pow 2 53) :
    (∀ raw', Reworded raw raw' → parseEnvironment raw' = .ok list) ∧
    (∀ layout, parseEnvironment
      (Json.append layout 0 "" (.array (list.map toJson))).toList = .ok list) ∧
    ∀ n ≤ Nat.pow 2 53, size? (.nat n) = some n := by
  refine ⟨?_, fun layout => parseEnvironment_append layout small, fun n => size?_nat⟩
  intro raw' reworded
  rw [← parseEnvironment_reworded reworded, accepted]

/-- Two variables, one by its members and one by its items, with plain strings where they may
stand. -/
def plainWords : List Json :=
  [.object [("name", .string "x"), ("type", .string "numeric"), ("size", .nat 56),
      ("value", .string "1 2")],
    .array [.string "y", .strings ["a", "b"], .nat (Nat.pow 2 53), .string ""]]

def boxedWords : List Json :=
  [.object [("name", .string "x"), ("type", .strings ["numeric"]), ("size", .nat 56),
      ("valuePreview", .strings ["1 2"])],
    .array [.string "y", .strings ["a", "b"], .nat (Nat.pow 2 53), .strings [""]]]

theorem parseEnvironment_boxedWords :
    let list : List Variable := [⟨"x", ["numeric"], 56, "1 2"⟩, ⟨"y", ["a", "b"], Nat.pow 2 53, ""⟩]
    parseEnvironment (Json.render (.array plainWords)).toList = .ok list ∧
      parseEnvironment (Json.render (.array boxedWords)).toList = .ok list ∧
      parseEnvironment (Json.render (.array (list.map toJson))).toList = .ok list := by
  intro list
  have plain : snapshotTree? (Json.render (.array plainWords)).toList =
      some (Json.array plainWords).tree := snapshotTree?_append ⟨false⟩ _
  have boxed : snapshotTree? (Json.render (.array boxedWords)).toList =
      some (Json.array boxedWords).tree := snapshotTree?_append ⟨false⟩ _
  have key (s : String) : Json.text? (Json.textUnits s.toList) = some s := by
    rw [Json.text?_textUnits, String.ofList_toList]
  have reworded : Reworded (Json.render (.array plainWords)).toList
      (Json.render (.array boxedWords)).toList := by
    refine ⟨_, _, plain, boxed, .each (.cons (.members ?_) (.cons ?_ .nil))⟩
    · exact .cons (.same _) (.cons (.type (key "type") (.boxed _)) (.cons (.same _)
        (.cons (.preview (Or.inl (key "value")) (Or.inr (key "valuePreview")) (.boxed _)) .nil)))
    · exact .items _ _ (.same _) (.boxed _)
  have accepted : parseEnvironment (Json.render (.array plainWords)).toList = .ok list := by
    have read : (listOfTree? Json.depthLimit (Json.array plainWords).tree) = some list := by
      decide +kernel
    rw [snapshotTree?] at plain
    rw [parseEnvironment, plain, Option.bind_some, read]
  have small : ∀ v ∈ list, v.size ≤ Nat.pow 2 53 := by decide
  obtain ⟨other, again, -⟩ := parseEnvironment_rewritten accepted small
  exact ⟨accepted, other _ reworded, again ⟨false⟩⟩

end NotebookKernel.Variable
