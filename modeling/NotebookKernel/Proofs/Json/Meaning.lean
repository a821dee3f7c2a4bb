import Mathlib.Data.String.Basic
import NotebookKernel.Proofs.Json.Record
import NotebookKernel.Proofs.Json.Writing

/-!
# Values that stand for themselves

Every value that is read is settled: its integers fit 64 bits, the keys of its objects increase and
it is not nested too deeply. A settled value is read again from the text that is written for it,
provided that its doubles are.
-/

set_option autoImplicit false

namespace NotebookKernel.Json

/-- A value as reading leaves it, with at most `depth` arrays and objects inside each other. -/
inductive Settled : Nat → Json → Prop
  | null (depth : Nat) : Settled depth .null
  | bool (depth : Nat) (b : Bool) : Settled depth (.bool b)
  | int (depth : Nat) {i : Int} (low : -(Text.signedBound : Int) ≤ i) (high : i < Text.wordBound) :
    Settled depth (.int i)
  | real (depth : Nat) (x : Binary64) : Settled depth (.real x)
  | string (depth : Nat) (s : String) : Settled depth (.string s)
  | array {depth : Nat} {items : List Json} (each : ∀ item ∈ items, Settled depth item) :
    Settled (depth + 1) (.array items)
  | object {depth : Nat} {members : List (String × Json)}
      (ordered : members.Pairwise fun a b => a.1 < b.1)
      (each : ∀ member ∈ members, Settled depth member.2) :
    Settled (depth + 1) (.object members)

theorem keepLast_pairwise {done members : List (String × Json)}
    (before : done.Pairwise fun a b => b.1 < a.1)
    (behind : ∀ d ∈ done, ∀ m ∈ members, d.1 ≤ m.1)
    (sorted : members.Pairwise fun a b => a.1 ≤ b.1) :
    (keepLast done members).Pairwise fun a b => a.1 < b.1 := by
  induction members generalizing done with
  | nil =>
    rw [keepLast.eq_def]
    exact List.pairwise_reverse.mpr before
  | cons m members ih =>
    obtain ⟨above, rest⟩ := List.pairwise_cons.mp sorted
    cases done with
    | nil => exact ih (List.pairwise_singleton _ _) (by simpa using above) rest
    | cons d done =>
      obtain ⟨below, earlier⟩ := List.pairwise_cons.mp before
      have next : d.1 ≤ m.1 := behind d List.mem_cons_self m List.mem_cons_self
      have later : ∀ a ∈ done, ∀ b ∈ members, a.1 ≤ b.1 := fun a ha b hb =>
        behind a (List.mem_cons_of_mem _ ha) b (List.mem_cons_of_mem _ hb)
      rw [keepLast]
      split
      · rename_i same
        have key : d.1 = m.1 := by simpa using same
        refine ih (List.pairwise_cons.mpr ⟨?_, earlier⟩) ?_ rest
        · exact fun a ha => key ▸ below a ha
        · exact List.forall_mem_cons.mpr ⟨above, later⟩
      · rename_i other
        have less : d.1 < m.1 := lt_of_le_of_ne next (by simpa using other)
        refine ih (List.pairwise_cons.mpr ⟨?_, before⟩) ?_ rest
        · exact List.forall_mem_cons.mpr ⟨less, fun a ha => (below a ha).trans less⟩
        · refine List.forall_mem_cons.mpr ⟨above, List.forall_mem_cons.mpr ⟨?_, later⟩⟩
          exact fun b hb => next.trans (above b hb)

theorem mem_of_mem_keepLast {done members : List (String × Json)} {member : String × Json}
    (found : member ∈ keepLast done members) : member ∈ done ∨ member ∈ members := by
  induction members generalizing done with
  | nil =>
    rw [keepLast.eq_def] at found
    exact Or.inl (List.mem_reverse.mp found)
  | cons m members ih =>
    have wider : ∀ {front : List (String × Json)}, (member ∈ front → member = m ∨ member ∈ done) →
        member ∈ keepLast front members → member ∈ done ∨ member ∈ m :: members := by
      intro front shape here
      rcases ih here with first | later
      · rcases shape first with rfl | old
        · exact Or.inr List.mem_cons_self
        · exact Or.inl old
      · exact Or.inr (List.mem_cons_of_mem _ later)
    cases done with
    | nil => exact wider (by simp) found
    | cons d done =>
      rw [keepLast] at found
      split at found
      · refine wider ?_ found
        rw [List.mem_cons, List.mem_cons]
        exact fun here => here.imp id Or.inr
      · exact wider (by simp) found

theorem keepLast_eq {done members : List (String × Json)}
    (ordered : (done.reverse ++ members).Pairwise fun a b => a.1 < b.1) :
    keepLast done members = done.reverse ++ members := by
  induction members generalizing done with
  | nil => rw [keepLast.eq_def, List.append_nil]
  | cons m members ih =>
    have shifted : done.reverse ++ m :: members = (m :: done).reverse ++ members := by
      rw [List.reverse_cons, List.append_assoc, List.singleton_append]
    rw [shifted] at ordered ⊢
    cases done with
    | nil => exact ih ordered
    | cons d done =>
      have before := (List.pairwise_append.mp ordered).1
      rw [List.pairwise_reverse, List.pairwise_cons] at before
      have other : (d.1 == m.1) = false := by
        simpa using (before.1 d List.mem_cons_self).ne
      rw [keepLast, other]
      exact ih ordered

theorem sortMembers_pairwise (members : List (String × Json)) :
    (sortMembers members).Pairwise fun a b => a.1 < b.1 := by
  refine keepLast_pairwise List.Pairwise.nil (by simp) ?_
  have trans : ∀ a b c : String × Json, decide (a.1 ≤ b.1) = true → decide (b.1 ≤ c.1) = true →
      decide (a.1 ≤ c.1) = true := by
    intro a b c first second
    rw [decide_eq_true_eq] at *
    exact first.trans second
  have total : ∀ a b : String × Json, (decide (a.1 ≤ b.1) || decide (b.1 ≤ a.1)) = true := by
    intro a b
    simpa using le_total a.1 b.1
  exact (List.pairwise_mergeSort trans total members).imp fun less => by simpa using less

theorem mem_of_mem_sortMembers {members : List (String × Json)} {member : String × Json}
    (found : member ∈ sortMembers members) : member ∈ members := by
  rcases mem_of_mem_keepLast found with none | here
  · cases none
  · exact List.mem_mergeSort.mp here

theorem sortMembers_eq {members : List (String × Json)}
    (ordered : members.Pairwise fun a b => a.1 < b.1) : sortMembers members = members := by
  have sorted : members.Pairwise fun a b => decide (a.1 ≤ b.1) = true :=
    ordered.imp fun less => by simpa using less.le
  rw [sortMembers, List.mergeSort_of_pairwise sorted]
  exact keepLast_eq ordered

def memberOfTree? (depth : Nat) (member : List StringUnit × Tree) : Option (String × Json) :=
  (text? member.1).bind fun key => (ofTree? depth member.2).map (key, ·)

theorem itemsOfTree?_eq (depth : Nat) (done : List Json) (items : List Tree) :
    itemsOfTree? depth done items =
      (items.mapM (ofTree? depth)).map (done.reverse ++ ·) := by
  induction items generalizing done with
  | nil => simp [itemsOfTree?]
  | cons item items ih =>
    rw [itemsOfTree?, List.mapM_cons]
    cases ofTree? depth item with
    | none => rfl
    | some value =>
      dsimp only
      rw [ih]
      cases items.mapM (ofTree? depth) <;> simp

theorem membersOfTree?_eq (depth : Nat) (done : List (String × Json))
    (members : List (List StringUnit × Tree)) :
    membersOfTree? depth done members =
      (members.mapM (memberOfTree? depth)).map (done.reverse ++ ·) := by
  induction members generalizing done with
  | nil => simp [membersOfTree?]
  | cons member members ih =>
    rw [membersOfTree?, List.mapM_cons, memberOfTree?]
    cases text? member.1 with
    | none => rfl
    | some key =>
      cases ofTree? depth member.2 with
      | none => rfl
      | some value =>
        dsimp only
        rw [ih]
        cases members.mapM (memberOfTree? depth) <;> simp

private theorem foldl_push_lt (digits : List Nat) {s : Significand} (small : s.value < Nat.pow 2 64) :
    (digits.foldl Significand.push s).value < Nat.pow 2 64 := by
  induction digits generalizing s with
  | nil => exact small
  | cons digit digits ih =>
    refine ih ?_
    rw [Significand.push]
    split
    · exact small
    · split
      · exact small
      · rename_i fits
        exact Nat.lt_of_not_le fits

theorem settled_value? {text : NumberText} {value : Json} (read : text.value? = some value)
    (depth : Nat) : Settled depth value := by
  rw [NumberText.value?] at read
  cases int : text.int? with
  | none =>
    rw [int] at read
    obtain ⟨rank, -, rfl⟩ := Option.map_eq_some_iff.mp read
    exact .real depth _
  | some i =>
    rw [int] at read
    cases read
    have power : Nat.pow 2 64 = 18446744073709551616 := rfl
    have half : Nat.pow 2 63 = 9223372036854775808 := rfl
    have word : Text.wordBound = Nat.pow 2 64 := rfl
    have signed : Text.signedBound = Nat.pow 2 63 := rfl
    have small := foldl_push_lt text.whole (s := ⟨0, 0, false⟩) (by decide)
    rw [NumberText.int?] at int
    split at int
    · dsimp only at int
      split at int
      · cases int
      · split at int
        · split at int
          · cases int
          · cases int
            exact .int depth (by omega) (by omega)
        · cases int
          exact .int depth (by omega) (by omega)
    · cases int

theorem settled_ofTree? : {depth : Nat} → {t : Tree} → {value : Json} →
    ofTree? depth t = some value → Settled depth value
  | depth, .null, _, read => by
    cases read
    exact .null depth
  | depth, .bool b, _, read => by
    cases read
    exact .bool depth b
  | depth, .number _, _, read => settled_value? read depth
  | depth, .string _, _, read => by
    obtain ⟨s, -, rfl⟩ := Option.map_eq_some_iff.mp read
    exact .string depth s
  | 0, .array _, _, read => by cases read
  | 0, .object _, _, read => by cases read
  | depth + 1, .array items, _, read => by
    obtain ⟨_, gathered, rfl⟩ := Option.map_eq_some_iff.mp read
    rw [itemsOfTree?_eq] at gathered
    obtain ⟨list, made, rfl⟩ := Option.map_eq_some_iff.mp gathered
    refine .array fun item found => ?_
    obtain ⟨part, -, here⟩ := exists_of_mem_mapM made found
    exact settled_ofTree? here
  | depth + 1, .object members, _, read => by
    obtain ⟨_, gathered, rfl⟩ := Option.map_eq_some_iff.mp read
    rw [membersOfTree?_eq] at gathered
    obtain ⟨list, made, rfl⟩ := Option.map_eq_some_iff.mp gathered
    refine .object (sortMembers_pairwise _) fun member found => ?_
    obtain ⟨part, -, here⟩ := exists_of_mem_mapM made (mem_of_mem_sortMembers found)
    obtain ⟨key, -, inside⟩ := Option.bind_eq_some_iff.mp here
    obtain ⟨value, meant, rfl⟩ := Option.map_eq_some_iff.mp inside
    exact settled_ofTree? meant

theorem Settled.distinct {depth : Nat} {value : Json} (settled : Settled depth value) :
    Distinct value := by
  induction settled with
  | null => exact .null
  | bool _ b => exact .bool b
  | int => exact .int _
  | real _ x => exact .real x
  | string _ s => exact .string s
  | array _ ih => exact .array ih
  | object ordered _ ih =>
    refine .object ?_ ih
    rw [List.nodup_iff_pairwise_ne, List.pairwise_map]
    exact ordered.imp fun less => less.ne

theorem distinct_of_parse? {text : String} {value : Json} (read : parse? text = some value) :
    Distinct value := by
  obtain ⟨t, -, means⟩ := Option.bind_eq_some_iff.mp read
  exact (settled_ofTree? means).distinct

theorem Settled.ofTree?_tree {depth : Nat} {value : Json} (settled : Settled depth value)
    (again : ∀ x ∈ value.reals, Rereads x) : ofTree? depth value.tree = some value := by
  -- The nesting left at a part is what `Settled` grants it.
  induction settled with
  | null => rfl
  | bool => rfl
  | int depth low high => exact value?_intText low high
  | real depth x =>
    obtain ⟨-, text, read, means⟩ := (again x (List.mem_singleton.mpr rfl)).numberText?
    rw [tree, read]
    exact means
  | string depth s =>
    show (text? (textUnits s.toList)).map Json.string = _
    rw [text?_textUnits, String.ofList_toList]
    rfl
  | @array depth items each ih =>
    have made : (itemTrees items).mapM (ofTree? depth) = some items := by
      rw [itemTrees_eq_map, mapM_eq_some_iff, List.forall₂_map_left_iff, List.forall₂_same]
      exact fun item found => ih item found fun x hx => again x (mem_itemReals found hx)
    show (itemsOfTree? depth [] (itemTrees items)).map Json.array = _
    rw [itemsOfTree?_eq, made]
    rfl
  | @object depth members ordered each ih =>
    have made : (memberTrees members).mapM (memberOfTree? depth) = some members := by
      rw [memberTrees_eq_map, mapM_eq_some_iff, List.forall₂_map_left_iff, List.forall₂_same]
      intro member found
      have value := ih member found fun x hx => again x (mem_memberReals found hx)
      rw [memberOfTree?, text?_textUnits, String.ofList_toList, Option.bind_some, value]
      rfl
    show (membersOfTree? depth [] (memberTrees members)).map _ = _
    rw [membersOfTree?_eq, made]
    show some (Json.object (sortMembers members)) = _
    rw [sortMembers_eq ordered]

/-- A value that is read from a text is read again from the text that is written for it, compact
or indented, provided that its doubles are. -/
theorem parse?_append_of_parse? {text : String} {value : Json} (read : parse? text = some value)
    (again : ∀ x ∈ value.reals, Rereads x) (layout : Layout) :
    parse? (append layout 0 "" value) = some value := by
  obtain ⟨t, -, means⟩ := Option.bind_eq_some_iff.mp read
  rw [parse?, ofBytes?, ofBytes?_append layout value]
  exact (settled_ofTree? means).ofTree?_tree again

end NotebookKernel.Json
