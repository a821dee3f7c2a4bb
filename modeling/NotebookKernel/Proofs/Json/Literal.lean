import NotebookKernel.Json.Printer
import NotebookKernel.Json.Reader
import NotebookKernel.Proofs.Text.Utf8

/-!
# String literals

A string literal is read back as the text that it was written for. It ends at its last quotation
mark, whatever stands behind it, and holds no control character.
-/

set_option autoImplicit false

namespace NotebookKernel.Json

/-- What stands behind a string literal whose opening quotation mark has been read. A backslash
takes the character behind it along; the first quotation mark that is not taken along ends the
literal. -/
def afterLiteral? : List Char → Option (List Char)
  | [] => none
  | '"' :: after => some after
  | '\\' :: _ :: rest => afterLiteral? rest
  | '\\' :: [] => none
  | _ :: rest => afterLiteral? rest

structure IsLiteral (text : String) (literal : List Char) : Prop where
  quoted : ∃ inside, literal = '"' :: inside ++ ['"'] ∧
    ∀ after, afterLiteral? (inside ++ '"' :: after) = some after
  printable : ∀ c ∈ literal, 0x20 ≤ c.toNat
  meaning : parse? (String.ofList literal) = some (.string text)

def escapeLetters : List Char :=
  ['"', '\\', 'n', 'r', 't', 'b', 'f']

theorem escapeChar_cases (c : Char) :
    (∃ letter ∈ escapeLetters, escapeChar c = ['\\', letter] ∧ c.toNat < 0x80 ∧
      escapedByte? letter.toNat.toUInt8 = some c.toNat.toUInt8) ∨
    (c.toNat < 0x20 ∧ escapeChar c =
      ['\\', 'u', '0', '0', hexDigit (c.toNat / 16), hexDigit (c.toNat % 16)]) ∨
    (0x20 ≤ c.toNat ∧ c ≠ '"' ∧ c ≠ '\\' ∧ escapeChar c = [c]) := by
  unfold escapeChar
  by_cases quotation : c = '"'
  · exact Or.inl ⟨'"', by decide, by simp [quotation], by simp [quotation], by simp [quotation]; rfl⟩
  by_cases backslash : c = '\\'
  · exact Or.inl ⟨'\\', by decide, by simp [backslash], by simp [backslash],
      by simp [backslash]; rfl⟩
  by_cases feed : c = '\n'
  · exact Or.inl ⟨'n', by decide, by simp [feed], by simp [feed], by simp [feed]; rfl⟩
  by_cases carriage : c = '\r'
  · exact Or.inl ⟨'r', by decide, by simp [carriage], by simp [carriage], by simp [carriage]; rfl⟩
  by_cases tab : c = '\t'
  · exact Or.inl ⟨'t', by decide, by simp [tab], by simp [tab], by simp [tab]; rfl⟩
  rw [if_neg quotation, if_neg backslash, if_neg feed, if_neg carriage, if_neg tab]
  by_cases back : c.toNat = 8
  · exact Or.inl ⟨'b', by decide, by simp [back], by omega, by rw [back]; rfl⟩
  by_cases page : c.toNat = 12
  · exact Or.inl ⟨'f', by decide, by simp [page], by omega, by rw [page]; rfl⟩
  rw [if_neg back, if_neg page]
  by_cases control : c.toNat < 0x20
  · exact Or.inr (Or.inl ⟨control, if_pos control⟩)
  · exact Or.inr (Or.inr ⟨by omega, quotation, backslash, if_neg control⟩)

private theorem hexDigit_facts : ∀ n < 16, hexDigit n ≠ '"' ∧ hexDigit n ≠ '\\' ∧
    hexDigit n ≠ '<' ∧ 0x20 ≤ (hexDigit n).toNat ∧ (hexDigit n).toNat < 0x80 ∧
    hexValue? (hexDigit n).toNat.toUInt8 = some n := by
  decide

private theorem escapeLetters_facts : ∀ letter ∈ escapeLetters, letter ≠ '<' ∧
    0x20 ≤ letter.toNat ∧ letter.toNat < 0x80 ∧ letter.toNat.toUInt8 ≠ 0x75 := by
  intro letter known
  simp only [escapeLetters, List.mem_cons, List.not_mem_nil, or_false] at known
  rcases known with rfl | rfl | rfl | rfl | rfl | rfl | rfl <;> decide

theorem printable_escapeChar {c d : Char} (member : d ∈ escapeChar c) : 0x20 ≤ d.toNat := by
  rcases escapeChar_cases c with ⟨letter, known, shape, -, -⟩ | ⟨control, shape⟩ |
    ⟨plain, -, -, shape⟩
  · rw [shape] at member
    have letters := escapeLetters_facts letter known
    simp at member
    rcases member with rfl | rfl
    · decide
    · exact letters.2.1
  · rw [shape] at member
    have high := hexDigit_facts (c.toNat / 16) (by omega)
    have low := hexDigit_facts (c.toNat % 16) (by omega)
    simp at member
    rcases member with rfl | rfl | rfl | rfl | rfl
    · decide
    · decide
    · decide
    · exact high.2.2.2.1
    · exact low.2.2.2.1
  · rw [shape, List.mem_singleton] at member
    rw [member]
    exact plain

theorem eq_of_mem_escapeChar {c : Char} (member : '<' ∈ escapeChar c) : c = '<' := by
  rcases escapeChar_cases c with ⟨letter, known, shape, -, -⟩ | ⟨control, shape⟩ |
    ⟨-, -, -, shape⟩
  · rw [shape] at member
    have letters := escapeLetters_facts letter known
    simp at member
    exact absurd member.symm letters.1
  · rw [shape] at member
    have high := hexDigit_facts (c.toNat / 16) (by omega)
    have low := hexDigit_facts (c.toNat % 16) (by omega)
    simp at member
    rcases member with same | same
    · exact absurd same.symm high.2.2.1
    · exact absurd same.symm low.2.2.1
  · rw [shape, List.mem_singleton] at member
    exact member.symm

theorem mem_quoteChars {text : List Char} {d : Char} :
    d ∈ quoteChars text ↔ d = '"' ∨ ∃ c ∈ text, d ∈ escapeChar c := by
  simp only [quoteChars, List.cons_append, List.mem_cons, List.mem_append, List.mem_flatMap,
    List.not_mem_nil, or_false]
  constructor
  · rintro (opens | inside | closes)
    · exact Or.inl opens
    · exact Or.inr inside
    · exact Or.inl closes
  · rintro (opens | inside)
    · exact Or.inl opens
    · exact Or.inr (Or.inl inside)

theorem notMem_quoteChars {text : List Char} (absent : '<' ∉ text) : '<' ∉ quoteChars text := by
  intro member
  rcases mem_quoteChars.mp member with same | ⟨c, found, escaped⟩
  · exact absurd same (by decide)
  · exact absent (eq_of_mem_escapeChar escaped ▸ found)

private theorem afterLiteral?_cons {c : Char} (quotation : c ≠ '"') (backslash : c ≠ '\\')
    (rest : List Char) : afterLiteral? (c :: rest) = afterLiteral? rest := by
  conv_lhs => unfold afterLiteral?
  split <;> simp_all

theorem afterLiteral?_escapeChar (c : Char) (rest : List Char) :
    afterLiteral? (escapeChar c ++ rest) = afterLiteral? rest := by
  rcases escapeChar_cases c with ⟨letter, -, shape, -, -⟩ | ⟨control, shape⟩ |
    ⟨-, quotation, backslash, shape⟩
  · rw [shape]
    rfl
  · have high := hexDigit_facts (c.toNat / 16) (by omega)
    have low := hexDigit_facts (c.toNat % 16) (by omega)
    rw [shape]
    show afterLiteral? ('0' :: '0' :: _ :: _ :: rest) = _
    rw [afterLiteral?_cons (by decide) (by decide), afterLiteral?_cons (by decide) (by decide),
      afterLiteral?_cons high.1 high.2.1, afterLiteral?_cons low.1 low.2.1]
  · rw [shape]
    exact afterLiteral?_cons quotation backslash rest

theorem afterLiteral?_escaped (text rest : List Char) :
    afterLiteral? (text.flatMap escapeChar ++ rest) = afterLiteral? rest := by
  induction text with
  | nil => rfl
  | cons c text ih => rw [List.flatMap_cons, List.append_assoc, afterLiteral?_escapeChar, ih]

private theorem foldl_push_plain {bytes : Bytes}
    (plain : ∀ b ∈ bytes, b ≠ 0x22 ∧ b ≠ 0x5C ∧ ¬ b < 0x20) (tokens : List Token)
    (content : List StringUnit) :
    bytes.foldl Lexer.push ⟨tokens, .string content⟩ =
      ⟨tokens, .string ((bytes.map StringUnit.byte).reverse ++ content)⟩ := by
  induction bytes generalizing content with
  | nil => rfl
  | cons b bytes ih =>
    obtain ⟨quotation, backslash, control⟩ := plain b List.mem_cons_self
    have pushed : Lexer.push ⟨tokens, .string content⟩ b =
        ⟨tokens, .string (.byte b :: content)⟩ := by
      simp [Lexer.push, quotation, backslash, control]
    rw [List.foldl_cons, pushed, ih fun d hd => plain d (List.mem_cons_of_mem _ hd)]
    simp

private theorem foldl_push_bytes (units bytes : Bytes) :
    (units.map StringUnit.byte).foldl Surrogates.push (some ⟨bytes, none⟩) =
      some ⟨units.reverse ++ bytes, none⟩ := by
  induction units generalizing bytes with
  | nil => rfl
  | cons b units ih =>
    rw [List.map_cons, List.foldl_cons]
    exact (ih (b :: bytes)).trans (by simp)

/-- What a character adds to a literal: its number where it is escaped by that, else its bytes. -/
def charUnits (c : Char) : List StringUnit :=
  if (escapeChar c).length = 6 then [.code c.toNat] else (Utf8.encode [c]).map .byte

def textUnits (text : List Char) : List StringUnit :=
  text.flatMap charUnits

private theorem foldl_push_escapeChar (c : Char) (tokens : List Token) (content : List StringUnit) :
    (Utf8.encode (escapeChar c)).foldl Lexer.push ⟨tokens, .string content⟩ =
      ⟨tokens, .string ((charUnits c).reverse ++ content)⟩ := by
  have ascii := @Utf8.encode_cons_of_ascii
  rcases escapeChar_cases c with ⟨letter, known, shape, small, stands⟩ | ⟨control, shape⟩ |
    ⟨plain, quotation, backslash, shape⟩
  · obtain ⟨-, -, letterSmall, other⟩ := escapeLetters_facts letter known
    have short : (escapeChar c).length ≠ 6 := by simp [shape]
    rw [charUnits, if_neg short, shape, ascii (by decide), ascii letterSmall, ascii small]
    show Lexer.push ⟨tokens, .escape content⟩ letter.toNat.toUInt8 = _
    simp [Lexer.push, other, stands, Utf8.encode]
  · obtain ⟨-, -, -, -, highSmall, high⟩ := hexDigit_facts (c.toNat / 16) (by omega)
    obtain ⟨-, -, -, -, lowSmall, low⟩ := hexDigit_facts (c.toNat % 16) (by omega)
    have long : (escapeChar c).length = 6 := by simp [shape]
    rw [charUnits, if_pos long, shape, ascii (by decide), ascii (by decide), ascii (by decide),
      ascii (by decide), ascii highSmall, ascii lowSmall]
    show Lexer.push (Lexer.push ⟨tokens, .code content 2 0⟩ _) _ = _
    simp [Lexer.push, high, low]
    omega
  · have short : (escapeChar c).length ≠ 6 := by simp [shape]
    rw [charUnits, if_neg short, shape]
    refine foldl_push_plain ?_ tokens content
    intro b member
    have same : b.toNat < 0x80 → c.toNat = b.toNat := by
      intro small
      obtain ⟨d, found, value⟩ := Utf8.exists_char_of_mem_encode member small
      rwa [List.mem_singleton.mp found] at value
    refine ⟨?_, ?_, ?_⟩
    · rintro rfl
      exact quotation (Char.toNat_inj.mp (same (by decide)))
    · rintro rfl
      exact backslash (Char.toNat_inj.mp (same (by decide)))
    · intro low
      have below : b.toNat < 0x20 := low
      have := same (by omega)
      omega

private theorem foldl_push_charUnits (c : Char) (bytes : Bytes) :
    (charUnits c).foldl Surrogates.push (some ⟨bytes, none⟩) =
      some ⟨(Utf8.encode [c]).reverse ++ bytes, none⟩ := by
  rw [charUnits]
  split
  · rename_i long
    have control : c.toNat < 0x20 := by
      rcases escapeChar_cases c with ⟨letter, -, shape, -, -⟩ | ⟨control, -⟩ | ⟨-, -, -, shape⟩
      · rw [shape] at long
        cases long
      · exact control
      · rw [shape] at long
        cases long
    have back : Char.ofNat c.toNat = c := Char.ofNat_toNat c
    have scalar : ¬ (0xDC00 ≤ c.toNat ∧ c.toNat ≤ 0xDFFF) := by omega
    have leading : ¬ (0xD800 ≤ c.toNat ∧ c.toNat ≤ 0xDBFF) := by omega
    simp [Surrogates.push, scalar, leading, back, Utf8.encode]
  · exact foldl_push_bytes _ bytes

theorem foldl_push_quoteChars (text : List Char) (tokens : List Token) :
    (Utf8.encode (quoteChars text)).foldl Lexer.push ⟨tokens, .between⟩ =
      ⟨.string (textUnits text) :: tokens, .between⟩ := by
  have inside : ∀ content,
      (Utf8.encode (text.flatMap escapeChar)).foldl Lexer.push ⟨tokens, .string content⟩ =
        ⟨tokens, .string ((textUnits text).reverse ++ content)⟩ := by
    induction text with
    | nil => exact fun _ => rfl
    | cons c text ih =>
      intro content
      rw [List.flatMap_cons, Utf8.encode_append, List.foldl_append, foldl_push_escapeChar, ih]
      simp [textUnits]
  have bytes : Utf8.encode (quoteChars text) =
      0x22 :: (Utf8.encode (text.flatMap escapeChar) ++ [0x22]) := by
    rw [quoteChars, List.cons_append, Utf8.encode_cons_of_ascii (by decide), Utf8.encode_append]
    rfl
  rw [bytes, List.foldl_cons, List.foldl_append]
  show List.foldl Lexer.push (List.foldl Lexer.push ⟨tokens, .string []⟩ _) _ = _
  rw [inside]
  simp [Lexer.push]

theorem text?_textUnits (text : List Char) : text? (textUnits text) = some (String.ofList text) := by
  have read : ∀ bytes, (textUnits text).foldl Surrogates.push (some ⟨bytes, none⟩) =
      some ⟨(Utf8.encode text).reverse ++ bytes, none⟩ := by
    induction text with
    | nil => exact fun _ => rfl
    | cons c text ih =>
      intro bytes
      have front : Utf8.encode (c :: text) = Utf8.encode [c] ++ Utf8.encode text :=
        Utf8.encode_append [c] text
      rw [textUnits, List.flatMap_cons, List.foldl_append, foldl_push_charUnits, ← textUnits, ih,
        front]
      simp
  rw [text?, read]
  simp [Utf8.decode?_encode]

theorem parse?_quoteChars (text : List Char) :
    parse? (String.ofList (quoteChars text)) = some (.string (String.ofList text)) := by
  have tokens : tokens? (Utf8.encode (quoteChars text)) = some [.string (textUnits text)] := by
    rw [tokens?, foldl_push_quoteChars]
    rfl
  rw [parse?, ofBytes?, Tree.ofBytes?, Utf8.ofString, String.toList_ofList, tokens]
  show (text? (textUnits text)).map Json.string = _
  rw [text?_textUnits]
  rfl

theorem isLiteral_quoteChars (text : List Char) :
    IsLiteral (String.ofList text) (quoteChars text) := by
  refine ⟨⟨text.flatMap escapeChar, rfl, ?_⟩, ?_, parse?_quoteChars text⟩
  · intro after
    rw [afterLiteral?_escaped]
    rfl
  · intro c member
    rcases mem_quoteChars.mp member with rfl | ⟨d, -, escaped⟩
    · decide
    · exact printable_escapeChar escaped

end NotebookKernel.Json
