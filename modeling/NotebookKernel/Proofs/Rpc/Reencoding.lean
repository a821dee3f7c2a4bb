import NotebookKernel.Proofs.Json.Fields
import NotebookKernel.Rpc.Correlator

/-!
# Messages written again

A received message, whether it came as an object or as an array, is written as an object without
its absent fields. Reading that object gives the message again, so nobody who receives it can tell
the two payloads apart.
-/

set_option autoImplicit false

namespace NotebookKernel.Rpc

open Json (Tree named named_append memberReals)

theorem named_member {α : Type} (key other : String) (write : α → Json) (field : Option α) :
    named key (member other write field) = if other = key then field.map write else none := by
  cases field with
  | none => simp [member, named]
  | some value => rw [member, Json.named_cons]; rfl

theorem keys_member {α : Type} (key : String) (write : α → Json) (field : Option α) :
    ((member key write field).map Prod.fst).Sublist [key] := by
  cases field with
  | none => exact List.nil_sublist _
  | some value => exact List.Sublist.refl _

private theorem eq_of_some (value b : Json) (read : some value = some b) : value = keep b :=
  Option.some.inj read

private theorem eq_of_string? (value : Json) (text : String)
    (read : Json.string? value = some text) : value = .string text :=
  Json.string?_eq_some_iff.mp read

private theorem eq_of_codeInt? (value : Json) (code : Int)
    (read : codeInt? value = some code) : value = .int code := by
  cases value with
  | int i =>
    rw [codeInt?, Json.intWithin?] at read
    split at read <;> cases read
    rfl
  | _ => cases read

theorem ErrorObject.ofTree?_tree {depth : Nat} {t : Tree} {e : ErrorObject}
    (received : ErrorObject.ofTree? depth t = some e)
    (again : ∀ x ∈ e.toJson.reals, Json.Rereads x) :
    ErrorObject.ofTree? depth e.toJson.tree = some e := by
  simp only [ErrorObject.ofTree?, Option.bind_eq_bind, Option.bind_eq_some_iff, Prod.exists,
    Option.pure_def, Option.some.injEq] at received
  obtain ⟨inner, record, opened, code, codeRead, message, messageRead, data, dataRead, rfl⟩ :=
    received
  obtain rfl := Json.eq_of_record? opened
  -- The object has its keys once each, in the order of the fields, so each field finds its member.
  have distinct : (([("code", Json.int code), ("message", Json.string message)] ++
      member "data" keep data).map Prod.fst).Nodup := by
    have known : (([("code", Json.int code), ("message", Json.string message)] ++
        member "data" keep data).map Prod.fst).Sublist (["code", "message"] ++ ["data"]) := by
      rw [List.map_append]
      exact (List.Sublist.refl _).append (keys_member "data" keep data)
    exact known.nodup (by decide)
  obtain ⟨written, reopened, place⟩ :=
    Json.exists_record?_tree inner _ ["code", "message", "data"] distinct
  have codeAgain := Json.required_again again codeRead eq_of_codeInt?
    (place 0 "code" rfl) (by simp [Json.named_cons])
  have messageAgain := Json.required_again again messageRead eq_of_string?
    (place 1 "message" rfl) (by simp [Json.named_cons])
  have dataAgain := Json.optional_again again dataRead eq_of_some
    (place 2 "data" rfl) (by simp [Json.named_cons, named_member])
  have same : (toJson ⟨code, message, data⟩).tree.record? (inner + 1)
      [["code"], ["message"], ["data"]] = some (inner, written) := reopened
  simp only [ErrorObject.ofTree?, same, Option.bind_eq_bind, Option.bind_some, codeAgain,
    messageAgain, dataAgain, Option.pure_def]

private theorem ofNullable?_again {depth : Nat} {record written : Json.Parts Tree}
    {index place : Nat} {key : String} {members : List (String × Json)}
    {error : Option ErrorObject} (again : ∀ x ∈ memberReals members, Json.Rereads x)
    (found : record.optional index (ErrorObject.ofNullable? depth) = some error)
    (here : written.at place = (named key members).map Json.tree)
    (member : named key members = error.map ErrorObject.toJson) :
    written.optional place (ErrorObject.ofNullable? depth) = some error := by
  cases error with
  | none => rw [Json.Parts.optional, here, member]; rfl
  | some e =>
    have inside : ∀ x ∈ e.toJson.reals, Json.Rereads x := fun x hx =>
      again x (Json.mem_memberReals (Json.mem_of_named member) hx)
    rw [Json.Parts.optional] at found
    split at found
    · cases found
    · rename_i part _
      have received : ErrorObject.ofTree? depth part = some e := by
        cases part with
        | null => cases found
        | _ =>
          obtain ⟨_, received, same⟩ := Option.map_eq_some_iff.mp found
          cases same
          exact received
      rw [Json.Parts.optional, here, member]
      show Option.map some (ErrorObject.ofTree? depth e.toJson.tree) = _
      rw [ErrorObject.ofTree?_tree received inside]
      rfl

namespace Message

def members (m : Message) : List (String × Json) :=
  member "jsonrpc" .string m.jsonrpc ++ member "id" keep m.id ++ member "method" .string m.method ++
    member "params" keep m.params ++ member "result" keep m.result ++
    member "error" ErrorObject.toJson m.error

theorem keys_members (m : Message) : (m.members.map Prod.fst).Nodup := by
  have known : (m.members.map Prod.fst).Sublist
      (["jsonrpc"] ++ ["id"] ++ ["method"] ++ ["params"] ++ ["result"] ++ ["error"]) := by
    simp only [members, List.map_append]
    exact (((((keys_member _ _ _).append (keys_member _ _ _)).append (keys_member _ _ _)).append
      (keys_member _ _ _)).append (keys_member _ _ _)).append (keys_member _ _ _)
  exact known.nodup (by decide)

theorem ofTree?_tree {depth : Nat} {t : Tree} {m : Message} (received : ofTree? depth t = some m)
    (again : ∀ x ∈ m.toJson.reals, Json.Rereads x) : ofTree? depth m.toJson.tree = some m := by
  simp only [ofTree?, Option.bind_eq_bind, Option.bind_eq_some_iff, Prod.exists, Option.pure_def,
    Option.some.injEq] at received
  obtain ⟨inner, record, opened, jsonrpc, jsonrpcRead, id, idRead, method, methodRead, params,
    paramsRead, result, resultRead, error, errorRead, rfl⟩ := received
  obtain rfl := Json.eq_of_record? opened
  obtain ⟨written, reopened, place⟩ := Json.exists_record?_tree inner _
    ["jsonrpc", "id", "method", "params", "result", "error"]
    (keys_members ⟨jsonrpc, id, method, params, result, error⟩)
  have jsonrpcAgain := Json.optional_again again jsonrpcRead eq_of_string?
    (place 0 "jsonrpc" rfl) (by simp [named_append, named_member])
  have idAgain := Json.optional_again again idRead eq_of_some
    (place 1 "id" rfl) (by simp [named_append, named_member])
  have methodAgain := Json.optional_again again methodRead eq_of_string?
    (place 2 "method" rfl) (by simp [named_append, named_member])
  have paramsAgain := Json.optional_again again paramsRead eq_of_some
    (place 3 "params" rfl) (by simp [named_append, named_member])
  have resultAgain := Json.optional_again again resultRead eq_of_some
    (place 4 "result" rfl) (by simp [named_append, named_member])
  have errorAgain := ofNullable?_again again errorRead
    (place 5 "error" rfl) (by simp [named_append, named_member])
  have record : (toJson ⟨jsonrpc, id, method, params, result, error⟩).tree.record? (inner + 1)
      fields = some (inner, written) := reopened
  simp only [ofTree?, record, Option.bind_eq_bind, Option.bind_some, jsonrpcAgain, idAgain,
    methodAgain, paramsAgain, resultAgain, errorAgain, Option.pure_def]

def rewritten (m : Message) : Bytes :=
  Utf8.ofString m.toJson.render

theorem ofBytes?_rewritten {payload : Bytes} {m : Message} (received : ofBytes? payload = some m)
    (again : ∀ x ∈ m.toJson.reals, Json.Rereads x) : ofBytes? m.rewritten = some m := by
  obtain ⟨t, -, meant⟩ := Option.bind_eq_some_iff.mp received
  rw [ofBytes?, rewritten, Json.render, Json.ofBytes?_append]
  exact ofTree?_tree meant again

/-- Writing a received message and reading it again gives the same message, which is written, is
numbered and answers as before; and a correlator, whatever its state, treats both payloads alike.
Doubles are taken to be read again as they are written; of a message without doubles nothing is
assumed. -/
theorem same_of_rewritten {payload : Bytes} {m : Message} (received : ofBytes? payload = some m)
    (again : ∀ x ∈ m.toJson.reals, Json.Rereads x) :
    (∃ other, ofBytes? m.rewritten = some other ∧ other = m ∧
      other.toJson.render = m.toJson.render ∧ other.numericId? = m.numericId? ∧
      other.intoResult = m.intoResult ∧ ∀ c : Correlator, c.dispatch other = c.dispatch m) ∧
    ∀ c : Correlator, c.dispatchPayload m.rewritten = c.dispatchPayload payload := by
  have same := ofBytes?_rewritten received again
  refine ⟨⟨m, same, rfl, rfl, rfl, rfl, fun _ => rfl⟩, fun c => ?_⟩
  rw [Correlator.dispatchPayload, Correlator.dispatchPayload, same, received]

/-- A failed response by position. Its error has a key that is not known and whose value no reader
of values takes. -/
def positionalPayload : Bytes :=
  Utf8.ofString "[\"2.0\", \"+12\", null, [2.5, [-3], \"\\u00e9\"], null,
    \x7b\"data\": [null, []], \"code\": -32601, \"message\": \"\\t\", \"x\": 1e999\x7d]"

def namedText : String :=
  "\x7b\"jsonrpc\":\"2.0\",\"id\":\"+12\",\"params\":[2.5,[-3],\"é\"],\"error\":" ++
    "\x7b\"code\":-32601,\"message\":\"\\t\",\"data\":[null,[]]\x7d\x7d"

theorem same_of_rewritten_positional : ∃ m, ofBytes? positionalPayload = some m ∧
    m.toJson.render = namedText ∧ ofBytes? m.rewritten = some m ∧
    ∀ c : Correlator, c.dispatchPayload m.rewritten = c.dispatchPayload positionalPayload := by
  have read : (ofBytes? positionalPayload).map (fun m => (m.toJson.render, m.toJson.reals)) =
      some (namedText, [⟨false, 0x4004000000000000⟩]) := by
    decide +kernel
  have double : Json.Rereads ⟨false, 0x4004000000000000⟩ :=
    Json.rereads_of_rank? (by decide) (show _ = some ⟨false, [2], some [5], none⟩ by decide +kernel)
      rfl rfl (by decide +kernel)
  obtain ⟨m, received, written⟩ := Option.map_eq_some_iff.mp read
  obtain ⟨text, reals⟩ := Prod.mk.inj written
  have again : ∀ x ∈ m.toJson.reals, Json.Rereads x := by
    rw [reals]
    exact fun x hx => List.mem_singleton.mp hx ▸ double
  obtain ⟨⟨other, same, rfl, -⟩, alike⟩ := same_of_rewritten received again
  exact ⟨other, received, text, same, alike⟩

end Message

end NotebookKernel.Rpc
