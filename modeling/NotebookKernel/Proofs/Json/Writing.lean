import NotebookKernel.Proofs.Json.Literal
import NotebookKernel.Proofs.Json.Real

/-!
# The syntax of written values

The text that is written for a value has one syntax tree, whether it is compact or indented. The
tree is read back from its tokens, and the tokens from the text.
-/

set_option autoImplicit false

namespace NotebookKernel.Json

mutual

def tree : Json → Tree
  | .null => .null
  | .bool b => .bool b
  | .int i => .number (intText i)
  | .real x => ((numberText? (Utf8.ofString (realText x))).map Tree.number).getD .null
  | .string s => .string (textUnits s.toList)
  | .array items => .array (itemTrees items)
  | .object members => .object (memberTrees members)

def itemTrees : List Json → List Tree
  | [] => []
  | item :: items => tree item :: itemTrees items

def memberTrees : List (String × Json) → List (List StringUnit × Tree)
  | [] => []
  | (key, value) :: members => (textUnits key.toList, tree value) :: memberTrees members

end

mutual

def reals : Json → List Binary64
  | .null | .bool _ | .int _ | .string _ => []
  | .real x => [x]
  | .array items => itemReals items
  | .object members => memberReals members

def itemReals : List Json → List Binary64
  | [] => []
  | item :: items => reals item ++ itemReals items

def memberReals : List (String × Json) → List Binary64
  | [] => []
  | (_, value) :: members => reals value ++ memberReals members

end

mutual

def Tree.tokens : Tree → List Token
  | .null => [.null]
  | .bool b => [.bool b]
  | .number text => [.number text]
  | .string content => [.string content]
  | .array [] => [.openArray, .closeArray]
  | .array (item :: items) => .openArray :: (item.tokens ++ Tree.itemTokens items)
  | .object [] => [.openObject, .closeObject]
  | .object ((key, value) :: members) =>
    .openObject :: .string key :: .colon :: (value.tokens ++ Tree.memberTokens members)

def Tree.itemTokens : List Tree → List Token
  | [] => [.closeArray]
  | item :: items => .comma :: (item.tokens ++ Tree.itemTokens items)

def Tree.memberTokens : List (List StringUnit × Tree) → List Token
  | [] => [.closeObject]
  | (key, value) :: members =>
    .comma :: .string key :: .colon :: (value.tokens ++ Tree.memberTokens members)

end

theorem itemTrees_eq_map (items : List Json) : itemTrees items = items.map tree := by
  induction items with
  | nil => rfl
  | cons item items ih => rw [itemTrees, ih, List.map_cons]

theorem memberTrees_eq_map (members : List (String × Json)) :
    memberTrees members = members.map fun m => (textUnits m.1.toList, m.2.tree) := by
  induction members with
  | nil => rfl
  | cons member members ih => rw [memberTrees, ih, List.map_cons]

theorem mem_itemReals {items : List Json} {item : Json} (found : item ∈ items) {x : Binary64}
    (inside : x ∈ item.reals) : x ∈ itemReals items := by
  induction items with
  | nil => cases found
  | cons first items ih =>
    rw [itemReals, List.mem_append]
    rcases List.mem_cons.mp found with rfl | later
    · exact Or.inl inside
    · exact Or.inr (ih later)

theorem mem_memberReals {members : List (String × Json)} {member : String × Json}
    (found : member ∈ members) {x : Binary64} (inside : x ∈ member.2.reals) :
    x ∈ memberReals members := by
  induction members with
  | nil => cases found
  | cons first members ih =>
    rw [memberReals, List.mem_append]
    rcases List.mem_cons.mp found with rfl | later
    · exact Or.inl inside
    · exact Or.inr (ih later)

private theorem Tree.tokens_head (t : Tree) :
    ∃ token rest, t.tokens = token :: rest ∧ token ≠ .closeArray := by
  cases t with
  | array items => cases items <;> exact ⟨_, _, rfl, nofun⟩
  | object members => cases members <;> exact ⟨_, _, rfl, nofun⟩
  | _ => exact ⟨_, _, rfl, nofun⟩

private theorem push_firstItem {token : Token} (other : token ≠ .closeArray)
    (frames : List Frame) :
    Builder.push ⟨.items [] :: frames, .itemOrClose⟩ token =
      Builder.push ⟨.items [] :: frames, .value⟩ token := by
  cases token <;> first | rfl | exact absurd rfl other

mutual

theorem Tree.foldl_tokens (frames : List Frame) : (t : Tree) →
    t.tokens.foldl Builder.push ⟨frames, .value⟩ = Builder.deliver frames t
  | .null => rfl
  | .bool _ => rfl
  | .number _ => rfl
  | .string _ => rfl
  | .array [] => rfl
  | .array (item :: items) => by
    obtain ⟨token, rest, shape, other⟩ := item.tokens_head
    have first := Tree.foldl_tokens (.items [] :: frames) item
    rw [Tree.tokens, List.foldl_cons, List.foldl_append]
    show List.foldl _ (List.foldl Builder.push ⟨.items [] :: frames, .itemOrClose⟩ item.tokens) _ = _
    -- Behind the bracket the array might end at once, but no value begins with its end.
    rw [shape, List.foldl_cons] at first ⊢
    rw [push_firstItem other, first]
    exact Tree.foldl_itemTokens [item] frames items
  | .object [] => rfl
  | .object ((key, value) :: members) => by
    rw [Tree.tokens, List.foldl_cons, List.foldl_cons, List.foldl_cons, List.foldl_append]
    show List.foldl _ (List.foldl Builder.push ⟨.members [] key :: frames, .value⟩ value.tokens) _ = _
    rw [Tree.foldl_tokens (.members [] key :: frames) value]
    exact Tree.foldl_memberTokens [(key, value)] key frames members

theorem Tree.foldl_itemTokens (done : List Tree) (frames : List Frame) : (items : List Tree) →
    (Tree.itemTokens items).foldl Builder.push ⟨.items done :: frames, .separator⟩ =
      Builder.deliver frames (.array (done.reverse ++ items))
  | [] => by rw [List.append_nil]; rfl
  | item :: items => by
    rw [Tree.itemTokens, List.foldl_cons, List.foldl_append]
    show List.foldl _ (List.foldl Builder.push ⟨.items done :: frames, .value⟩ item.tokens) _ = _
    rw [Tree.foldl_tokens (.items done :: frames) item]
    refine (Tree.foldl_itemTokens (item :: done) frames items).trans ?_
    rw [List.reverse_cons, List.append_assoc, List.singleton_append]

theorem Tree.foldl_memberTokens (done : List (List StringUnit × Tree)) (last : List StringUnit)
    (frames : List Frame) : (members : List (List StringUnit × Tree)) →
    (Tree.memberTokens members).foldl Builder.push ⟨.members done last :: frames, .separator⟩ =
      Builder.deliver frames (.object (done.reverse ++ members))
  | [] => by rw [List.append_nil]; rfl
  | (key, value) :: members => by
    rw [Tree.memberTokens, List.foldl_cons, List.foldl_cons, List.foldl_cons, List.foldl_append]
    show List.foldl _ (List.foldl Builder.push ⟨.members done key :: frames, .value⟩ value.tokens) _ = _
    rw [Tree.foldl_tokens (.members done key :: frames) value]
    refine (Tree.foldl_memberTokens ((key, value) :: done) key frames members).trans ?_
    rw [List.reverse_cons, List.append_assoc, List.singleton_append]

end

theorem Tree.ofTokens?_tokens (t : Tree) : Tree.ofTokens? t.tokens = some t := by
  rw [Tree.ofTokens?, Tree.foldl_tokens]
  rfl

def lexed (text : String) : Lexer :=
  (Utf8.ofString text).foldl Lexer.push ⟨[], .between⟩

theorem lexed_append (a b : String) :
    lexed (a ++ b) = (Utf8.ofString b).foldl Lexer.push (lexed a) := by
  rw [lexed, Utf8.ofString_append, List.foldl_append, ← lexed]

private theorem push_of_settle {state : Lexer} {tokens : List Token} {b : UInt8}
    (settled : state.settle = ⟨tokens, .between⟩) (stops : ∀ mode, Mode.continues mode b = false) :
    state.push b = Lexer.start tokens b := by
  obtain ⟨before, mode⟩ := state
  -- Whatever waits for its end is settled by the byte, and has then said all it says.
  cases mode with
  | between => cases settled; rfl
  | word letters => simp [Lexer.push, stops, settled]
  | number marks => simp [Lexer.push, stops, settled]
  | _ => cases settled

private theorem foldl_push_spaces (count : Nat) (tokens : List Token) :
    (List.replicate count (0x20 : UInt8)).foldl Lexer.push ⟨tokens, .between⟩ =
      ⟨tokens, .between⟩ := by
  induction count with
  | zero => rfl
  | succ count ih => exact ih

private theorem gap_cases (layout : Layout) (depth : Nat) :
    Utf8.ofString (layout.gap depth) = [] ∨
      Utf8.ofString (layout.gap depth) = 0x0A :: List.replicate (2 * depth) 0x20 := by
  rw [Layout.gap]
  split
  · right
    have spaces : ∀ count,
        Utf8.ofString (String.ofList (List.replicate count ' ')) = List.replicate count 0x20 := by
      intro count
      rw [Utf8.ofString, String.toList_ofList]
      induction count with
      | zero => rfl
      | succ count ih =>
        rw [List.replicate_succ, Utf8.encode_cons_of_ascii (by decide), ih, List.replicate_succ]
        rfl
    rw [newline, Utf8.ofString_append, spaces]
    rfl
  · exact Or.inl rfl

section Lexing

variable {done : String} {tokens : List Token} (layout : Layout) (depth : Nat)

private theorem lexed_gap (between : lexed done = ⟨tokens, .between⟩) :
    lexed (done ++ layout.gap depth) = ⟨tokens, .between⟩ := by
  rw [lexed_append, between]
  rcases gap_cases layout depth with none | feed
  · rw [none, List.foldl_nil]
  · rw [feed]
    exact foldl_push_spaces _ tokens

private theorem settle_gap (settled : (lexed done).settle = ⟨tokens, .between⟩) :
    (lexed (done ++ layout.gap depth)).settle = ⟨tokens, .between⟩ := by
  rw [lexed_append]
  rcases gap_cases layout depth with none | feed
  · rw [none]
    exact settled
  · rw [feed, List.foldl_cons, push_of_settle settled fun mode => by cases mode <;> rfl]
    exact congrArg Lexer.settle (foldl_push_spaces _ tokens)

private theorem lexed_comma (settled : (lexed done).settle = ⟨tokens, .between⟩) :
    lexed (done ++ "," ++ layout.gap depth) = ⟨.comma :: tokens, .between⟩ := by
  refine lexed_gap layout depth ?_
  rw [lexed_append]
  exact push_of_settle settled fun mode => by cases mode <;> rfl

private theorem lexed_closeArray (settled : (lexed done).settle = ⟨tokens, .between⟩) :
    lexed (done ++ layout.gap depth ++ "]") = ⟨.closeArray :: tokens, .between⟩ := by
  rw [lexed_append]
  exact push_of_settle (settle_gap layout depth settled) fun mode => by cases mode <;> rfl

private theorem lexed_closeObject (settled : (lexed done).settle = ⟨tokens, .between⟩) :
    lexed (done ++ layout.gap depth ++ "\x7d") = ⟨.closeObject :: tokens, .between⟩ := by
  rw [lexed_append]
  exact push_of_settle (settle_gap layout depth settled) fun mode => by cases mode <;> rfl

private theorem lexed_quote (between : lexed done = ⟨tokens, .between⟩) (text : String) :
    lexed (done ++ quote text) = ⟨.string (textUnits text.toList) :: tokens, .between⟩ := by
  rw [lexed_append, between, quote, Utf8.ofString, String.toList_ofList, foldl_push_quoteChars]

private theorem lexed_key (between : lexed done = ⟨tokens, .between⟩) (key : String) :
    lexed (done ++ quote key ++ layout.colon) =
      ⟨.colon :: .string (textUnits key.toList) :: tokens, .between⟩ := by
  rw [lexed_append, lexed_quote between, Layout.colon]
  split <;> rfl

end Lexing

mutual

theorem settle_append (layout : Layout) (depth : Nat) (done : String) (tokens : List Token) :
    (value : Json) → lexed done = ⟨tokens, .between⟩ →
    (lexed (append layout depth done value)).settle =
      ⟨value.tree.tokens.reverse ++ tokens, .between⟩
  | .null, between => by
    rw [append, lexed_append, between]
    rfl
  | .bool b, between => by
    rw [append, lexed_append, between]
    cases b <;> rfl
  | .int i, between => by
    rw [append, lexed_append, between]
    exact (numeric_int i).settle (numberText?_int i) tokens
  | .real x, between => by
    rw [append, lexed_append, between, tree]
    by_cases finite : x.rank < Binary64.infiniteRank
    · obtain ⟨numeric, text, read, -⟩ := reads_real finite
      rw [numeric.settle read, read]
      rfl
    · rw [realText, if_pos (Nat.not_lt.mp finite)]
      rfl
  | .string s, between => by
    rw [append, lexed_quote between]
    rfl
  | .array [], between => by
    rw [append, lexed_append, between]
    rfl
  | .array (item :: items), between => by
    have opened : lexed (done ++ "[") = ⟨.openArray :: tokens, .between⟩ := by
      rw [lexed_append, between]
      rfl
    have first := settle_append layout (depth + 1) _ _ item (lexed_gap layout (depth + 1) opened)
    rw [append, settle_appendItems layout depth _ _ items first]
    simp [tree, itemTrees, Tree.tokens]
  | .object [], between => by
    rw [append, lexed_append, between]
    rfl
  | .object ((key, value) :: members), between => by
    have opened : lexed (done ++ "\x7b") = ⟨.openObject :: tokens, .between⟩ := by
      rw [lexed_append, between]
      rfl
    have first := settle_append layout (depth + 1) _ _ value
      (lexed_key layout (lexed_gap layout (depth + 1) opened) key)
    rw [append, settle_appendMembers layout depth _ _ members first]
    simp [tree, memberTrees, Tree.tokens]

theorem settle_appendItems (layout : Layout) (depth : Nat) (done : String) (tokens : List Token) :
    (items : List Json) →
    (lexed done).settle = ⟨tokens, .between⟩ →
    (lexed (appendItems layout depth done items)).settle =
      ⟨(Tree.itemTokens (itemTrees items)).reverse ++ tokens, .between⟩
  | [], settled => by
    rw [appendItems, lexed_closeArray layout depth settled]
    rfl
  | item :: items, settled => by
    have first := settle_append layout (depth + 1) _ _ item (lexed_comma layout (depth + 1) settled)
    rw [appendItems, settle_appendItems layout depth _ _ items first]
    simp [itemTrees, Tree.itemTokens]

theorem settle_appendMembers (layout : Layout) (depth : Nat) (done : String)
    (tokens : List Token) :
    (members : List (String × Json)) →
    (lexed done).settle = ⟨tokens, .between⟩ →
    (lexed (appendMembers layout depth done members)).settle =
      ⟨(Tree.memberTokens (memberTrees members)).reverse ++ tokens, .between⟩
  | [], settled => by
    rw [appendMembers, lexed_closeObject layout depth settled]
    rfl
  | (key, value) :: members, settled => by
    have first := settle_append layout (depth + 1) _ _ value
      (lexed_key layout (lexed_comma layout (depth + 1) settled) key)
    rw [appendMembers, settle_appendMembers layout depth _ _ members first]
    simp [memberTrees, Tree.memberTokens]

end

theorem ofBytes?_append (layout : Layout) (value : Json) :
    Tree.ofBytes? (Utf8.ofString (append layout 0 "" value)) = some value.tree := by
  have settled := settle_append layout 0 "" [] value rfl
  rw [lexed] at settled
  rw [Tree.ofBytes?, tokens?, settled, List.append_nil]
  dsimp only
  rw [List.reverse_reverse]
  exact Tree.ofTokens?_tokens value.tree

mutual

theorem exists_append (layout : Layout) (depth : Nat) (done : String) : (value : Json) →
    ∃ rest, append layout depth done value = done ++ rest
  | .null | .bool _ | .int _ | .real _ | .string _ => ⟨_, rfl⟩
  | .array [] => ⟨_, rfl⟩
  | .array (item :: items) => by
    obtain ⟨first, written⟩ :=
      exists_append layout (depth + 1) (done ++ "[" ++ layout.gap (depth + 1)) item
    obtain ⟨rest, finished⟩ := exists_appendItems layout depth
      (append layout (depth + 1) (done ++ "[" ++ layout.gap (depth + 1)) item) items
    rw [append, finished, written]
    simp only [String.append_assoc]
    exact ⟨_, rfl⟩
  | .object [] => ⟨_, rfl⟩
  | .object ((key, value) :: members) => by
    obtain ⟨first, written⟩ := exists_append layout (depth + 1)
      (done ++ "\x7b" ++ layout.gap (depth + 1) ++ quote key ++ layout.colon) value
    obtain ⟨rest, finished⟩ := exists_appendMembers layout depth (append layout (depth + 1)
      (done ++ "\x7b" ++ layout.gap (depth + 1) ++ quote key ++ layout.colon) value) members
    rw [append, finished, written]
    simp only [String.append_assoc]
    exact ⟨_, rfl⟩

theorem exists_appendItems (layout : Layout) (depth : Nat) (done : String) : (items : List Json) →
    ∃ rest, appendItems layout depth done items = done ++ (rest ++ "]")
  | [] => ⟨layout.gap depth, by rw [appendItems, String.append_assoc]⟩
  | item :: items => by
    obtain ⟨first, written⟩ :=
      exists_append layout (depth + 1) (done ++ "," ++ layout.gap (depth + 1)) item
    obtain ⟨rest, finished⟩ := exists_appendItems layout depth
      (append layout (depth + 1) (done ++ "," ++ layout.gap (depth + 1)) item) items
    rw [appendItems, finished, written]
    exact ⟨"," ++ (layout.gap (depth + 1) ++ (first ++ rest)), by simp only [String.append_assoc]⟩

theorem exists_appendMembers (layout : Layout) (depth : Nat) (done : String) :
    (members : List (String × Json)) →
    ∃ rest, appendMembers layout depth done members = done ++ rest
  | [] => ⟨layout.gap depth ++ "\x7d", by rw [appendMembers, String.append_assoc]⟩
  | (key, value) :: members => by
    obtain ⟨first, written⟩ := exists_append layout (depth + 1)
      (done ++ "," ++ layout.gap (depth + 1) ++ quote key ++ layout.colon) value
    obtain ⟨rest, finished⟩ := exists_appendMembers layout depth (append layout (depth + 1)
      (done ++ "," ++ layout.gap (depth + 1) ++ quote key ++ layout.colon) value) members
    rw [appendMembers, finished, written]
    simp only [String.append_assoc]
    exact ⟨_, rfl⟩

end

theorem exists_append_array (layout : Layout) (items : List Json) :
    ∃ inside, (append layout 0 "" (.array items)).toList = '[' :: inside ++ [']'] := by
  cases items with
  | nil => exact ⟨[], by simp [append]⟩
  | cons item items =>
    obtain ⟨first, written⟩ := exists_append layout 1 ("" ++ "[" ++ layout.gap 1) item
    obtain ⟨rest, finished⟩ := exists_appendItems layout 0
      (append layout 1 ("" ++ "[" ++ layout.gap 1) item) items
    refine ⟨(layout.gap 1 ++ first ++ rest).toList, ?_⟩
    rw [append, finished, written]
    simp [String.toList_append]

end NotebookKernel.Json
