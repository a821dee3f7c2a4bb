import NotebookKernel.Proofs.Json.Writing

/-!
# What a text says

A syntax tree says a value exactly: a string its text, a number without fraction and exponent its
integer, every other number the double that it is rounded to. What is written for a value says the
value, whether or not the reader of this library is as exact.
-/

set_option autoImplicit false

namespace NotebookKernel.Json

/-- A tree says a value. No number is infinite, and null stands for one that is. -/
inductive Tree.Denotes : Tree → Json → Prop
  | null : Denotes .null .null
  | bool (b : Bool) : Denotes (.bool b) (.bool b)
  | int {text : NumberText} {i : Int} (whole : text.fraction = none) (plain : text.exponent = none)
      (size : text.size = i.natAbs) (sign : text.negative = true ↔ i < 0) :
    Denotes (.number text) (.int i)
  | real {text : NumberText} {x : Binary64} (marked : text.fraction ≠ none ∨ text.exponent ≠ none)
      (nearest : Binary64.Nearest text.size x.rank) (sign : text.negative = x.negative) :
    Denotes (.number text) (.real x)
  | infinite {x : Binary64} (infinite : Binary64.infiniteRank ≤ x.rank) : Denotes .null (.real x)
  | string {content : List StringUnit} {s : String} (meaning : text? content = some s) :
    Denotes (.string content) (.string s)
  | array {items : List Tree} {values : List Json} (each : List.Forall₂ Denotes items values) :
    Denotes (.array items) (.array values)
  | object {members : List (List StringUnit × Tree)} {fields : List (String × Json)}
      (keys : members.map (fun m => text? m.1) = fields.map fun f => some f.1)
      (each : List.Forall₂ Denotes (members.map Prod.snd) (fields.map Prod.snd)) :
    Denotes (.object members) (.object fields)

theorem text?_textUnits_toList (s : String) : text? (textUnits s.toList) = some s := by
  rw [text?_textUnits, String.ofList_toList]

mutual

theorem denotes_tree : (value : Json) → value.tree.Denotes value
  | .null => .null
  | .bool b => .bool b
  | .int i => .int rfl rfl (size_intText i) (decide_eq_true_iff)
  | .real x => by
    rw [tree]
    by_cases finite : x.rank < Binary64.infiniteRank
    · obtain ⟨-, text, read, sign, marked, nearest⟩ := reads_real finite
      rw [read]
      exact .real marked nearest sign
    · rw [realText, if_pos (Nat.not_lt.mp finite)]
      exact .infinite (Nat.not_lt.mp finite)
  | .string s => .string (text?_textUnits_toList s)
  | .array items => .array (denotes_itemTrees items)
  | .object fields => by
    obtain ⟨keys, each⟩ := denotes_memberTrees fields
    exact .object keys each

theorem denotes_itemTrees : (items : List Json) →
    List.Forall₂ Tree.Denotes (itemTrees items) items
  | [] => .nil
  | item :: items => .cons (denotes_tree item) (denotes_itemTrees items)

theorem denotes_memberTrees : (fields : List (String × Json)) →
    (memberTrees fields).map (fun m => text? m.1) = fields.map (fun f => some f.1) ∧
      List.Forall₂ Tree.Denotes ((memberTrees fields).map Prod.snd) (fields.map Prod.snd)
  | [] => ⟨rfl, .nil⟩
  | (key, value) :: fields => by
    obtain ⟨keys, each⟩ := denotes_memberTrees fields
    refine ⟨?_, .cons (denotes_tree value) each⟩
    rw [memberTrees, List.map_cons, List.map_cons, keys, text?_textUnits_toList]

end

end NotebookKernel.Json
