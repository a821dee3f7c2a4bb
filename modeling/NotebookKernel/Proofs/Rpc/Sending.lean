import NotebookKernel.Proofs.Json.Denotation
import NotebookKernel.Proofs.Json.Fields
import NotebookKernel.Rpc.Message

/-!
# Messages that are sent

The text of a request or a notification says an object with its fields, and both are read from the
tree of their text again.
-/

set_option autoImplicit false

namespace NotebookKernel.Rpc

open NotebookKernel.Json (Tree Rereads Settled named)

/-- Parameters are read again below so many levels of nesting. -/
structure Readable (depth : Nat) (params : Json) : Prop where
  settled : Settled depth params
  again : ∀ x ∈ params.reals, Rereads x

private theorem readable_string (depth : Nat) (s : String) : Readable depth (.string s) :=
  ⟨.string depth s, nofun⟩

private theorem required_readable {β : Type} {depth : Nat} {members : List (String × Json)}
    {parts : Json.Parts Tree} {index : Nat} {key : String} {value : Json}
    (here : parts.at index = (named key members).map Json.tree)
    (member : named key members = some value) (readable : Readable depth value)
    (read : Json → Option β) : parts.required index (Tree.within depth read) = read value :=
  Json.required_tree here member readable.settled readable.again read

theorem Request.ofTree?_tree {depth : Nat} {r : Request} (readable : Readable depth r.params)
    (word : r.id < Text.wordBound) : Request.ofTree? (depth + 1) r.toJson.tree = some r := by
  obtain ⟨jsonrpc, id, method, params⟩ := r
  obtain ⟨parts, opened, place⟩ := Json.exists_record?_tree depth
    [("jsonrpc", .string jsonrpc), ("id", .nat id), ("method", .string method),
      ("params", params)] ["jsonrpc", "id", "method", "params"] (by simp)
  have number : Readable depth (.nat id) :=
    ⟨.int depth (by omega) (by exact_mod_cast word), nofun⟩
  have same : (toJson ⟨jsonrpc, id, method, params⟩).tree.record? (depth + 1)
      [["jsonrpc"], ["id"], ["method"], ["params"]] = some (depth, parts) := opened
  have first := required_readable (place 0 "jsonrpc" rfl) rfl (readable_string depth jsonrpc)
    Json.string?
  have second := required_readable (place 1 "id" rfl) rfl number (Json.natBelow? Text.wordBound)
  have third := required_readable (place 2 "method" rfl) rfl (readable_string depth method)
    Json.string?
  have fourth := required_readable (place 3 "params" rfl) rfl readable some
  have small : Json.natBelow? Text.wordBound (.nat id) = some id := by
    simpa [Json.natBelow?, Json.nat] using word
  simp only [ofTree?, same, Option.bind_eq_bind, Option.bind_some, first, second, third, fourth,
    small, Json.string?, Option.pure_def]

theorem Notification.ofTree?_tree {depth : Nat} {n : Notification}
    (readable : Readable depth n.params) :
    Notification.ofTree? (depth + 1) n.toJson.tree = some n := by
  obtain ⟨jsonrpc, method, params⟩ := n
  obtain ⟨parts, opened, place⟩ := Json.exists_record?_tree depth
    [("jsonrpc", .string jsonrpc), ("method", .string method), ("params", params)]
    ["jsonrpc", "method", "params"] (by simp)
  have same : (toJson ⟨jsonrpc, method, params⟩).tree.record? (depth + 1)
      [["jsonrpc"], ["method"], ["params"]] = some (depth, parts) := opened
  have first := required_readable (place 0 "jsonrpc" rfl) rfl (readable_string depth jsonrpc)
    Json.string?
  have second := required_readable (place 1 "method" rfl) rfl (readable_string depth method)
    Json.string?
  have third := required_readable (place 2 "params" rfl) rfl readable some
  simp only [ofTree?, same, Option.bind_eq_bind, Option.bind_some, first, second, third,
    Json.string?, Option.pure_def]

end NotebookKernel.Rpc
