import NotebookKernel.Language.Completion
import NotebookKernel.Proofs.Json.Record

/-!
# What an answer offers

An answer to a completion request is a list of items, bare or inside an object, and both are read
alike: every item becomes a candidate, or the whole answer is refused. An item is a record, and its
fields say what is offered.
-/

set_option autoImplicit false

namespace NotebookKernel.Language

open Json (field? given? IsRecord Distinct Yields)

def Documents (value : Json) (text : String) : Prop :=
  value = .string text ∨
    ∃ members, value = .object members ∧ Json.named "value" members = some (.string text)

def Edits (value : Json) (text : String) : Prop :=
  IsRecord 1 value ∧ field? 0 "newText" value = some (.string text)

/-- An item describes a candidate. The text to insert is that of the edit if there is one, else the
insertion text if there is one, else the label. -/
structure Describes (item : Json) (c : Candidate) : Prop where
  record : IsRecord 5 item
  label : field? 0 "label" item = some (.string c.label)
  detail : (given? 1 "detail" item = none ∧ c.detail = "") ∨
    given? 1 "detail" item = some (.string c.detail)
  documentation : (given? 2 "documentation" item = none ∧ c.documentation = none) ∨
    ∃ value text, given? 2 "documentation" item = some value ∧ Documents value text ∧
      c.documentation = some text
  legible : ∀ value, given? 3 "insertText" item = some value → ∃ text, value = .string text
  insertion : (∃ edit, given? 4 "textEdit" item = some edit ∧ Edits edit c.insertText) ∨
    given? 4 "textEdit" item = none ∧
      (given? 3 "insertText" item = some (.string c.insertText) ∨
        given? 3 "insertText" item = none ∧ c.insertText = c.label)

theorem documentation?_eq_some_iff {value : Json} (distinct : Distinct value) {text : String} :
    documentation? value = some text ↔ Documents value text := by
  cases distinct with
  | @object members keys each =>
    have parts : Json.partsOfMembers? [["value"]] members =
        some ⟨false, [Json.named "value" members]⟩ := Json.partsOfMembers?_map keys ["value"]
    simp [documentation?, Documents, parts, Json.Parts.required, Json.Parts.at,
      Option.bind_eq_some_iff, Json.string?_eq_some_iff]
  | _ => simp [documentation?, Documents]

theorem editText?_eq_some_iff {value : Json} (distinct : Distinct value) {text : String} :
    editText? value = some text ↔ Edits value text := by
  by_cases record : IsRecord 1 value
  · obtain ⟨parts, read, fields⟩ := Json.exists_parts? distinct ["newText"] record
    have read : value.parts? [["newText"]] = some parts := read
    simp [editText?, Edits, read, record, Json.required_eq_some_iff (fields 0 "newText" rfl),
      Json.string?_eq_some_iff]
  · have unread : value.parts? [["newText"]] = none :=
      Json.parts?_of_not_isRecord ["newText"] record
    simp [editText?, Edits, unread, record]

def itemKeys : List String :=
  ["label", "detail", "documentation", "insertText", "textEdit"]

theorem ofItem?_eq_some_iff {item : Json} (distinct : Distinct item) (record : IsRecord 5 item)
    {c : Candidate} : Candidate.ofItem? item = some c ↔
      ∃ detail inserted edited,
        field? 0 "label" item = some (.string c.label) ∧
        Yields Json.string? (given? 1 "detail" item) detail ∧
        Yields documentation? (given? 2 "documentation" item) c.documentation ∧
        Yields Json.string? (given? 3 "insertText" item) inserted ∧
        Yields editText? (given? 4 "textEdit" item) edited ∧
        c.detail = detail.getD "" ∧ c.insertText = (edited.or inserted).getD c.label := by
  obtain ⟨parts, read, fields⟩ := Json.exists_parts? distinct itemKeys record
  have read : item.parts? Candidate.fields = some parts := read
  simp only [Candidate.ofItem?, read, Option.bind_eq_bind, Option.bind_some,
    Option.bind_eq_some_iff, Json.required_eq_some_iff (fields 0 "label" rfl),
    Json.optional_orNull_eq_some_iff (fields 1 "detail" rfl),
    Json.optional_orNull_eq_some_iff (fields 2 "documentation" rfl),
    Json.optional_orNull_eq_some_iff (fields 3 "insertText" rfl),
    Json.optional_orNull_eq_some_iff (fields 4 "textEdit" rfl), Json.string?_eq_some_iff]
  constructor
  · rintro ⟨label, ⟨_, labelled, rfl⟩, detail, detailed, documentation, documented, inserted,
      inserts, edited, edits, made⟩
    cases made
    exact ⟨detail, inserted, edited, labelled, detailed, documented, inserts, edits, rfl, rfl⟩
  · rintro ⟨detail, inserted, edited, labelled, detailed, documented, inserts, edits, shown, chosen⟩
    refine ⟨c.label, ⟨_, labelled, rfl⟩, detail, detailed, c.documentation, documented, inserted,
      inserts, edited, edits, ?_⟩
    rw [← shown, ← chosen]
    rfl

theorem Describes.of_ofItem? {item : Json} (distinct : Distinct item) {c : Candidate}
    (read : Candidate.ofItem? item = some c) : Describes item c := by
  have record : IsRecord 5 item := by
    by_contra other
    have unread : item.parts? Candidate.fields = none :=
      Json.parts?_of_not_isRecord itemKeys other
    simp [Candidate.ofItem?, unread] at read
  obtain ⟨detail, inserted, edited, labelled, detailed, documented, inserts, edits, shown, chosen⟩ :=
    (ofItem?_eq_some_iff distinct record).mp read
  refine ⟨record, labelled, ?_, ?_, ?_, ?_⟩
  · rcases detailed with ⟨absent, rfl⟩ | ⟨v, text, given, spelt, rfl⟩
    · exact Or.inl ⟨absent, shown⟩
    · obtain rfl := Json.string?_eq_some_iff.mp spelt
      exact Or.inr (shown ▸ given)
  · refine documented.imp_right ?_
    rintro ⟨value, text, given, means, same⟩
    have within := distinct.of_given? given
    exact ⟨value, text, given, (documentation?_eq_some_iff within).mp means, same⟩
  · intro value given
    rcases inserts with ⟨absent, -⟩ | ⟨v, text, here, spelt, -⟩
    · rw [absent] at given
      cases given
    · obtain rfl := Option.some.inj (given.symm.trans here)
      exact ⟨text, Json.string?_eq_some_iff.mp spelt⟩
  · rcases edits with ⟨absent, rfl⟩ | ⟨edit, text, given, means, rfl⟩
    · refine Or.inr ⟨absent, ?_⟩
      rcases inserts with ⟨missing, rfl⟩ | ⟨v, text, given, spelt, rfl⟩
      · exact Or.inr ⟨missing, chosen⟩
      · obtain rfl := Json.string?_eq_some_iff.mp spelt
        exact Or.inl (chosen ▸ given)
    · have within := distinct.of_given? given
      exact Or.inl ⟨edit, given, chosen ▸ (editText?_eq_some_iff within).mp means⟩

private theorem exists_yields_string {field : Option Json}
    (legible : ∀ value, field = some value → ∃ text, value = .string text) :
    ∃ result, Yields Json.string? field result := by
  cases field with
  | none => exact ⟨none, Json.yields_none _⟩
  | some value =>
    obtain ⟨text, rfl⟩ := legible value rfl
    exact ⟨some text, Json.yields_some rfl⟩

theorem Describes.ofItem? {item : Json} (distinct : Distinct item) {c : Candidate}
    (h : Describes item c) : Candidate.ofItem? item = some c := by
  rw [ofItem?_eq_some_iff distinct h.record]
  obtain ⟨detail, detailed, shown⟩ : ∃ detail,
      Yields Json.string? (given? 1 "detail" item) detail ∧ c.detail = detail.getD "" := by
    rcases h.detail with ⟨absent, empty⟩ | given
    · exact ⟨none, absent ▸ Json.yields_none _, empty⟩
    · exact ⟨some c.detail, given ▸ Json.yields_some rfl, rfl⟩
  have documented : Yields documentation? (given? 2 "documentation" item) c.documentation := by
    refine h.documentation.imp_right ?_
    rintro ⟨value, text, given, means, same⟩
    have within := distinct.of_given? given
    exact ⟨value, text, given, (documentation?_eq_some_iff within).mpr means, same⟩
  rcases h.insertion with ⟨edit, given, means⟩ | ⟨absent, given | ⟨missing, same⟩⟩
  · have edits := (editText?_eq_some_iff (distinct.of_given? given)).mpr means
    obtain ⟨inserted, inserts⟩ := exists_yields_string h.legible
    exact ⟨detail, inserted, some c.insertText, h.label, detailed, documented, inserts,
      given ▸ Json.yields_some edits, shown, rfl⟩
  · exact ⟨detail, some c.insertText, none, h.label, detailed, documented,
      given ▸ Json.yields_some rfl, absent ▸ Json.yields_none _, shown, rfl⟩
  · exact ⟨detail, none, none, h.label, detailed, documented, missing ▸ Json.yields_none _,
      absent ▸ Json.yields_none _, shown, same⟩

theorem ofResult_eq_ok_iff {value : Json} {list : List Candidate} :
    Candidate.ofResult value = .ok list ↔ Candidate.ofResult? value = some list := by
  rw [Candidate.ofResult]
  cases Candidate.ofResult? value <;> simp

theorem ofResult_array_eq_ok_iff {items : List Json} {list : List Candidate} :
    Candidate.ofResult (.array items) = .ok list ↔
      List.Forall₂ (fun item c => Candidate.ofItem? item = some c) items list := by
  rw [ofResult_eq_ok_iff, ← Json.mapM_eq_some_iff]
  rfl

private theorem exists_forall₂_iff {α β : Type} {r : α → β → Prop} {items : List α} :
    (∃ list, List.Forall₂ r items list) ↔ ∀ a ∈ items, ∃ b, r a b := by
  induction items with
  | nil => simp
  | cons a items ih =>
    rw [List.forall_mem_cons, ← ih]
    constructor
    · rintro ⟨_, _ | ⟨first, later⟩⟩
      exact ⟨⟨_, first⟩, _, later⟩
    · rintro ⟨⟨b, first⟩, list, later⟩
      exact ⟨b :: list, .cons first later⟩

/-- An answer that is a list and an answer that holds the list as its items offer the same. There is
an offer exactly when every item is read by itself, and then it has one candidate for each item, in
order, the one that the item describes. -/
theorem ofResult_list {items : List Json} {members : List (String × Json)}
    (distinct : Distinct (.object members)) (held : ("items", .array items) ∈ members) :
    Candidate.ofResult (.object members) = Candidate.ofResult (.array items) ∧
      ((∃ list, Candidate.ofResult (.array items) = .ok list) ↔
        ∀ item ∈ items, ∃ c, Candidate.ofItem? item = some c) ∧
      (∀ list, Candidate.ofResult (.array items) = .ok list →
        List.Forall₂ (fun item c => Candidate.ofItem? item = some c) items list) ∧
      ∀ item ∈ items, ∀ c, Candidate.ofItem? item = some c ↔ Describes item c := by
  cases distinct with | object keys each
  have parts : Json.partsOfMembers? [["items"]] members = some ⟨false, [some (.array items)]⟩ := by
    have found := Json.named_of_mem keys held
    simpa [found] using Json.partsOfMembers?_map keys ["items"]
  have same : Candidate.ofResult? (.object members) = Candidate.ofResult? (.array items) := by
    simp [Candidate.ofResult?, parts, Json.Parts.required, Json.Parts.at]
  refine ⟨by rw [Candidate.ofResult, Candidate.ofResult, same], ?_, ?_, ?_⟩
  · simp only [ofResult_array_eq_ok_iff, exists_forall₂_iff]
  · exact fun list => ofResult_array_eq_ok_iff.mp
  · intro item member c
    have within : Distinct item := by
      cases each _ held with | array inner
      exact inner item member
    exact ⟨Describes.of_ofItem? within, Describes.ofItem? within⟩

/-- An item whose edit is an array, one that is an array itself, and one whose edit is null. -/
def mixedItems : List Json :=
  [.object [("insertText", .string "ignored"), ("label", .string "mean"),
      ("textEdit", .array [.string "mean("])],
    .array [.string "median", .null, .object [("value", .string "Mid")], .string "median("],
    .object [("detail", .string "base"), ("label", .string "max"), ("textEdit", .null)]]

private theorem distinct_mixedItems :
    Distinct (.object [("isIncomplete", .bool false), ("items", .array mixedItems)]) := by
  have text (s : String) : Distinct (.string s) := .string s
  have items : ∀ item ∈ mixedItems, Distinct item := by
    simp only [mixedItems, List.forall_mem_cons]
    refine ⟨.object (by decide) ?_, .array ?_, .object (by decide) ?_, by simp⟩
    · simpa [text] using Distinct.array (by simp [text])
    · simpa [text] using ⟨Distinct.null, Distinct.object (by decide) (by simp [text])⟩
    · simpa [text] using Distinct.null
  refine .object (by decide) ?_
  simpa using ⟨Distinct.bool false, Distinct.array items⟩

theorem ofResult_mixedItems :
    Candidate.ofResult (.object [("isIncomplete", .bool false), ("items", .array mixedItems)]) =
        Candidate.ofResult (.array mixedItems) ∧
      Candidate.ofResult (.array mixedItems) =
        .ok [⟨"mean", "mean(", "", none⟩, ⟨"median", "median(", "", some "Mid"⟩,
          ⟨"max", "max", "base", none⟩] := by
  have held : ("items", Json.array mixedItems) ∈
      [("isIncomplete", .bool false), ("items", .array mixedItems)] := by simp
  obtain ⟨same, -, -, -⟩ := ofResult_list distinct_mixedItems held
  exact ⟨same, by rfl⟩

end NotebookKernel.Language
