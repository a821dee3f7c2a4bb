import Mathlib.Data.List.SplitBy
import Mathlib.Data.List.TakeWhile
import NotebookKernel.Proofs.Frame.Segmentation
import NotebookKernel.Proofs.Text.Lines
import NotebookKernel.Proofs.Text.Numeral
import NotebookKernel.Proofs.Text.Utf8

/-!
# Lengths in headers

What a header line must look like to give a length, apart from how it is read, and the header that
the writer puts before a body: it is a header block, and the length that it gives is the number of
bytes of the body.
-/

set_option autoImplicit false

namespace NotebookKernel.Frame

/-- A header line gives a length: up to its first colon it names the length, and behind the colon
stands a numeral, blank space at the ends of both left out. -/
def GivesLength (line : List Char) (size : Nat) : Prop :=
  ∃ key value, line = key ++ ':' :: value ∧ ':' ∉ key ∧ isLengthKey (Text.trim key) = true ∧
    Text.IsNumeral (Text.trim value) size

/-- A header gives no length: it is no text, or none of its lines gives one. -/
def Unusable (header : Bytes) : Prop :=
  (∀ text, Utf8.encode text ≠ header) ∨
    ∃ text, Utf8.encode text = header ∧ ∀ line ∈ Text.lines text, ∀ size, ¬ GivesLength line size

private theorem wordBound_pos : 0 < Text.wordBound := by
  exact Nat.pow_pos (by decide)

private theorem forall_ne_colon {key : List Char} (h : ':' ∉ key) :
    ∀ c ∈ key, (c != ':') = true := by
  intro c hc
  exact bne_iff_ne.mpr fun found => h (found ▸ hc)

private theorem takeWhile_colon {key : List Char} (value : List Char) (h : ':' ∉ key) :
    (key ++ ':' :: value).takeWhile (· != ':') = key := by
  rw [List.takeWhile_append_of_pos (forall_ne_colon h), List.takeWhile_cons_of_neg (by simp),
    List.append_nil]

theorem isLengthKey_of_givesLength {line : List Char} {size : Nat} (h : GivesLength line size) :
    isLengthKey (Text.trim (line.takeWhile (· != ':'))) = true := by
  obtain ⟨key, value, rfl, first, names, -⟩ := h
  rw [takeWhile_colon value first]
  exact names

private theorem lengthOfLine?_colon {key : List Char} (value : List Char) (h : ':' ∉ key) :
    lengthOfLine? (key ++ ':' :: value) =
      if isLengthKey (Text.trim key) then Text.readNumeral? Text.wordBound (Text.trim value)
      else none := by
  have dropped : (key ++ ':' :: value).dropWhile (· != ':') = ':' :: value := by
    rw [List.dropWhile_append_of_pos (forall_ne_colon h), List.dropWhile_cons_of_neg (by simp)]
  simp only [lengthOfLine?, dropped, takeWhile_colon value h]

private theorem exists_first_colon {line : List Char} (h : ':' ∈ line) :
    ∃ key value, line = key ++ ':' :: value ∧ ':' ∉ key := by
  obtain ⟨key, value, rfl, first⟩ := List.eq_append_cons_of_mem h
  exact ⟨key, value, rfl, first⟩

theorem lengthOfLine?_eq_some_iff {line : List Char} {size : Nat} :
    lengthOfLine? line = some size ↔ GivesLength line size ∧ size < Text.wordBound := by
  constructor
  · intro found
    by_cases colon : ':' ∈ line
    · obtain ⟨key, value, rfl, first⟩ := exists_first_colon colon
      rw [lengthOfLine?_colon value first, Option.ite_none_right_eq_some,
        Text.readNumeral?_eq_some_iff wordBound_pos] at found
      exact ⟨⟨key, value, rfl, first, found.1, found.2.1⟩, found.2.2⟩
    · have none_left : line.dropWhile (· != ':') = [] :=
        List.dropWhile_eq_nil_iff.mpr (forall_ne_colon colon)
      simp [lengthOfLine?, none_left] at found
  · rintro ⟨⟨key, value, rfl, first, names, numeral⟩, below⟩
    rw [lengthOfLine?_colon value first, if_pos names, Text.readNumeral?_eq_some_iff wordBound_pos]
    exact ⟨numeral, below⟩

theorem lengthOfLine?_of_givesLength {line : List Char} {size : Nat} (h : GivesLength line size) :
    lengthOfLine? line = if size < Text.wordBound then some size else none := by
  obtain ⟨key, value, rfl, first, names, numeral⟩ := h
  rw [lengthOfLine?_colon value first, if_pos names]
  exact Text.readNumeral?_of_isNumeral wordBound_pos numeral

theorem lengthOfHeader?_of_unusable {header : Bytes} (h : Unusable header) :
    lengthOfHeader? header = none := by
  rcases h with foreign | ⟨text, rfl, silent⟩
  · cases read : Utf8.decode? header with
    | none => rw [lengthOfHeader?, read, Option.bind_none]
    | some text => exact absurd (Utf8.encode_of_decode? read) (foreign text)
  · rw [lengthOfHeader?, Utf8.decode?_encode, Option.bind_some, contentLength?,
      List.filterMap_eq_nil_iff.mpr, List.getLast?_nil]
    intro line member
    cases given : lengthOfLine? line with
    | none => rfl
    | some size => exact absurd (lengthOfLine?_eq_some_iff.mp given).1 (silent line member size)

def headerLine (size : Nat) : List Char :=
  "Content-Length".toList ++ ':' :: ' ' :: Nat.toDigits 10 size

def encodedHeader (body : String) : Bytes :=
  Utf8.encode (headerLine (Utf8.ofString body).length) ++ crlfEnd

theorem encode_eq (body : String) : encode body = encodedHeader body ++ Utf8.ofString body := by
  have close : Utf8.ofString "\r\n\r\n" = crlfEnd := by decide
  have key : "Content-Length: ".toList = "Content-Length".toList ++ [':', ' '] := by decide
  have line (size : Nat) : ("Content-Length: " ++ toString size).toList = headerLine size := by
    rw [String.toList_append, key, Nat.toString_eq_repr, Nat.toList_repr, List.append_assoc]
    rfl
  simp only [encode, Utf8.ofString_append _ "\r\n\r\n", close, encodedHeader, ← line]
  rfl

private theorem not_mem_headerLine {c : Char} (h : c ∉ "Content-Length".toList ++ [':', ' '])
    (digit : c.isDigit = false) (size : Nat) : c ∉ headerLine size := by
  intro member
  have member : c ∈ "Content-Length".toList ++ [':', ' '] ++ Nat.toDigits 10 size := by
    rw [List.append_assoc]
    exact member
  rcases List.mem_append.mp member with member | member
  · exact h member
  · rw [Text.isDigit_of_mem_toDigits member] at digit
    cases digit

theorem isHeader_of_unbroken {text close : Bytes} (cr : 13 ∉ text) (lf : 10 ∉ text)
    (h : close = crlfEnd ∨ close = lfEnd) : IsHeader text close := by
  refine ⟨h, ?_⟩
  intro i hi
  rw [List.drop_append_of_le_length hi.le, List.drop_eq_getElem_cons hi]
  constructor
  · intro early
    have head : 13 = text[i] := (List.cons_prefix_cons.mp early).1
    exact cr (head ▸ List.getElem_mem hi)
  · intro early
    have head : 10 = text[i] := (List.cons_prefix_cons.mp early).1
    exact lf (head ▸ List.getElem_mem hi)

theorem not_mem_encode {text : List Char} {b : UInt8} (ascii : b.toNat < 0x80)
    (h : ∀ c : Char, c.toNat = b.toNat → c ∉ text) : b ∉ Utf8.encode text := by
  intro member
  obtain ⟨c, found, value⟩ := Utf8.exists_char_of_mem_encode member ascii
  exact h c value found

theorem isHeader_headerLine (size : Nat) : IsHeader (Utf8.encode (headerLine size)) crlfEnd := by
  refine isHeader_of_unbroken (not_mem_encode (by decide) ?_) (not_mem_encode (by decide) ?_)
    (.inl rfl)
  · intro c value
    have cr : c = '\r' := Char.toNat_inj.mp value
    exact cr ▸ not_mem_headerLine (by decide) (by decide) size
  · intro c value
    have lf : c = '\n' := Char.toNat_inj.mp value
    exact lf ▸ not_mem_headerLine (by decide) (by decide) size

theorem lines_of_not_mem {text : List Char} (some : text ≠ []) (h : '\n' ∉ text) :
    Text.lines text = [text] := by
  have whole : Text.pieces text = [text] := by
    refine List.splitBy_of_isChain some (List.Pairwise.isChain ?_)
    exact List.pairwise_of_forall_mem_list fun a ha _ _ =>
      bne_iff_ne.mpr fun found => h (found ▸ ha)
  have open_end : ¬ (text.getLast? == Option.some '\n') = true := by
    intro last
    exact h (List.mem_of_getLast? (beq_iff_eq.mp last))
  rw [Text.lines, whole, List.map_singleton, Text.lineOfPiece, if_neg open_end]

theorem givesLength_headerLine (size : Nat) : GivesLength (headerLine size) size := by
  refine ⟨"Content-Length".toList, ' ' :: Nat.toDigits 10 size, rfl, by decide, by decide, ?_⟩
  have digits : ∀ c ∈ Nat.toDigits 10 size, Text.isBlank c = false := by
    intro c hc
    have bounds : 48 ≤ c.toNat ∧ c.toNat ≤ 57 :=
      Char.isDigit_iff_toNat.mp (Text.isDigit_of_mem_toDigits hc)
    simp [Text.isBlank]
    omega
  have spared : Text.trim (' ' :: Nat.toDigits 10 size) = Text.trim (Nat.toDigits 10 size) := rfl
  have clean : Text.trim (Nat.toDigits 10 size) = Nat.toDigits 10 size := by
    refine Text.trim_eq_self ?_ ?_
    · intro c hc
      exact digits c (List.mem_of_head? hc)
    · intro c hc
      exact digits c (List.mem_of_getLast? hc)
  rw [spared, clean]
  exact Text.isNumeral_toDigits size

theorem lines_headerLine (size : Nat) : Text.lines (headerLine size) = [headerLine size] := by
  have some : headerLine size ≠ [] := List.append_ne_nil_of_left_ne_nil (by decide) _
  exact lines_of_not_mem some (not_mem_headerLine (by decide) (by decide) size)

theorem lengthOfHeader?_headerLine {size : Nat} (h : size < Text.wordBound) :
    lengthOfHeader? (Utf8.encode (headerLine size)) = some size := by
  have given := lengthOfLine?_eq_some_iff.mpr ⟨givesLength_headerLine size, h⟩
  rw [lengthOfHeader?, Utf8.decode?_encode, Option.bind_some, contentLength?, lines_headerLine]
  simp [given]

/-- A stream holds bodies of any length, each behind a line that gives its length and an empty
line. -/
inductive Framing : Bytes → List Bytes → Prop
  | nil : Framing [] []
  | cons {line : List Char} {body rest : Bytes} {bodies : List Bytes}
      (header : IsHeader (Utf8.encode line) crlfEnd) (length : GivesLength line body.length)
      (behind : Framing rest bodies) :
    Framing (Utf8.encode line ++ crlfEnd ++ (body ++ rest)) (body :: bodies)

theorem GivesLength.unique {line : List Char} {m n : Nat} (hm : GivesLength line m)
    (hn : GivesLength line n) : m = n := by
  obtain ⟨key, value, rfl, first, -, numeral⟩ := hm
  obtain ⟨key', value', same, first', -, numeral'⟩ := hn
  have keys := congrArg (List.takeWhile (· != ':')) same
  rw [takeWhile_colon value first, takeWhile_colon value' first'] at keys
  subst keys
  cases List.append_cancel_left same
  exact numeral.unique numeral'

theorem Framing.unique {stream : Bytes} {bodies bodies' : List Bytes} (h : Framing stream bodies)
    (h' : Framing stream bodies') : bodies = bodies' := by
  induction h generalizing bodies' with
  | nil =>
    generalize same : ([] : Bytes) = stream at h'
    cases h' with
    | nil => rfl
    | cons header =>
      have empty := congrArg List.length same
      simp [crlfEnd] at empty
  | @cons line body rest bodies header length behind ih =>
    generalize same : Utf8.encode line ++ crlfEnd ++ (body ++ rest) = stream at h'
    cases h' with
    | nil =>
      have empty := congrArg List.length same
      simp [crlfEnd] at empty
    | @cons line' body' rest' _ header' length' behind' =>
      have ends := headerEnd?_append header (body ++ rest)
      rw [same, headerEnd?_append header', Option.some.injEq, Prod.mk.injEq] at ends
      rw [List.append_assoc, List.append_assoc] at same
      obtain ⟨lines, behinds⟩ := List.append_inj same ends.1.symm
      have lines := Option.some.inj ((Utf8.decode?_encode line).symm.trans
        ((congrArg Utf8.decode? lines).trans (Utf8.decode?_encode line')))
      subst lines
      obtain ⟨rfl, rfl⟩ := List.append_inj (List.append_cancel_left behinds)
        (length.unique length')
      rw [ih behind']

end NotebookKernel.Frame
