import NotebookKernel.Proofs.Frame.RoundTrip

/-!
# Lengths above the limit

A header whose one length is above the limit stops the decoder for good, so that nothing behind it
is taken for a header or a body. It stops it only as far as the number can be read: one that does
not fit a machine word is no number to the reader, the header counts as one without a length and is
dropped, and what was announced as its body is decoded as if it were a stream of its own.
-/

set_option autoImplicit false

namespace NotebookKernel.Frame

/-- A header line names the length: that is what stands before its first colon. -/
def NamesLength (line : List Char) : Prop :=
  ∃ key value, line = key ++ ':' :: value ∧ ':' ∉ key ∧ isLengthKey (Text.trim key) = true

/-- One line of a header gives this length, and no other line names the length. -/
def GivesOnce (header : List Char) (size : Nat) : Prop :=
  ∃ before line after, Text.lines header = before ++ line :: after ∧ GivesLength line size ∧
    ∀ other ∈ before ++ after, ¬ NamesLength other

private theorem namesLength_of_givesLength {line : List Char} {size : Nat}
    (h : GivesLength line size) : NamesLength line := by
  obtain ⟨key, value, split, first, names, -⟩ := h
  exact ⟨key, value, split, first, names⟩

private theorem lengthOfLine?_of_not_names {line : List Char} (h : ¬ NamesLength line) :
    lengthOfLine? line = none := by
  cases found : lengthOfLine? line with
  | none => rfl
  | some size =>
    have given : GivesLength line size := (lengthOfLine?_eq_some_iff.mp found).1
    exact absurd (namesLength_of_givesLength given) h

private theorem filterMap_of_not_names {lines : List (List Char)}
    (h : ∀ line ∈ lines, ¬ NamesLength line) : lines.filterMap lengthOfLine? = [] := by
  rw [List.filterMap_eq_nil_iff]
  intro line member
  exact lengthOfLine?_of_not_names (h line member)

theorem lengthOfHeader?_of_givesOnce {header : List Char} {size : Nat} (h : GivesOnce header size) :
    lengthOfHeader? (Utf8.encode header) = if size < Text.wordBound then some size else none := by
  obtain ⟨before, line, after, split, given, others⟩ := h
  have front : before.filterMap lengthOfLine? = [] :=
    filterMap_of_not_names fun other member => others other (List.mem_append_left _ member)
  have back : after.filterMap lengthOfLine? = [] :=
    filterMap_of_not_names fun other member => others other (List.mem_append_right _ member)
  have read : lengthOfLine? line = if size < Text.wordBound then some size else none :=
    lengthOfLine?_of_givesLength given
  rw [lengthOfHeader?, Utf8.decode?_encode, Option.bind_some, contentLength?, split,
    List.filterMap_append, List.filterMap_cons, front, back, read]
  split_ifs <;> rfl

section

variable {header : List Char} {close : Bytes} {size : Nat}

/-- A number above the limit that fits a machine word stops the decoder where the header stands. -/
theorem stalled_of_givesOnce (block : IsHeader (Utf8.encode header) close)
    (once : GivesOnce header size) (long : maxBody < size) (fits : size < Text.wordBound)
    (rest : Bytes) : Stalled (Utf8.encode header ++ close ++ rest) (some size) := by
  have given : lengthOfHeader? (Utf8.encode header) = some size := by
    rw [lengthOfHeader?_of_givesOnce once, if_pos fits]
  exact .oversized rest block given long

theorem valid_of_givesOnce (block : IsHeader (Utf8.encode header) close)
    (once : GivesOnce header size) (huge : Text.wordBound ≤ size) :
    (Segment.dropped (Utf8.encode header) close).Valid := by
  refine ⟨block, ?_⟩
  rw [lengthOfHeader?_of_givesOnce once, if_neg (Nat.not_lt_of_le huge)]

end

theorem decodeAll_dropped {text close : Bytes} (h : (Segment.dropped text close).Valid)
    (rest : Bytes) : decodeAll (text ++ close ++ rest) = decodeAll rest :=
  decodeAll_segment h rest

/-- A header gives one length, above the limit. If it fits a machine word, the decoder fails and
leaves the buffer, whatever stands behind the header and however much: no frame is ever taken off.
If it does not, the header is dropped, and the decoder goes on with the bytes behind it as if they
were a stream. -/
theorem oversized_of_givesOnce {header : List Char} {close : Bytes} {size : Nat}
    (block : IsHeader (Utf8.encode header) close) (once : GivesOnce header size)
    (long : maxBody < size) (rest : Bytes) :
    (size < Text.wordBound →
      decode (Utf8.encode header ++ close ++ rest) =
          ⟨[], .oversized size, Utf8.encode header ++ close ++ rest⟩ ∧
        decodeAll (Utf8.encode header ++ close ++ rest) =
          ⟨[], some size, Utf8.encode header ++ close ++ rest⟩) ∧
      (Text.wordBound ≤ size →
        decode (Utf8.encode header ++ close ++ rest) =
            decodeFrom (Utf8.encode header ++ close) rest ∧
          decodeAll (Utf8.encode header ++ close ++ rest) = decodeAll rest) := by
  refine ⟨?_, ?_⟩
  · intro fits
    have stalled := stalled_of_givesOnce block once long fits rest
    refine ⟨decodeFrom_stalled stalled [], ?_⟩
    exact decodeAll_segmented ⟨rfl, fun _ member => absurd member List.not_mem_nil, stalled⟩
  · intro huge
    have valid := valid_of_givesOnce block once huge
    refine ⟨?_, decodeAll_dropped valid rest⟩
    rw [decode, decodeFrom_header block, valid.2, List.nil_append]

private theorem givesOnce_headerLine (size : Nat) : GivesOnce (headerLine size) size :=
  ⟨[], headerLine size, [], lines_headerLine size, givesLength_headerLine size, by simp⟩

theorem oversized_headerLine :
    (∀ rest, decode (Utf8.encode (headerLine (maxBody + 1)) ++ crlfEnd ++ rest) =
      ⟨[], .oversized (maxBody + 1), Utf8.encode (headerLine (maxBody + 1)) ++ crlfEnd ++ rest⟩) ∧
    ∀ rest, decodeAll (Utf8.encode (headerLine Text.wordBound) ++ crlfEnd ++ rest) =
      decodeAll rest := by
  have limit : maxBody + 1 < Text.wordBound := by decide
  refine ⟨fun rest => ?_, fun rest => ?_⟩
  · have once := givesOnce_headerLine (maxBody + 1)
    exact ((oversized_of_givesOnce (isHeader_headerLine _) once (by decide) rest).1 limit).1
  · have once := givesOnce_headerLine Text.wordBound
    exact ((oversized_of_givesOnce (isHeader_headerLine _) once (by decide) rest).2 le_rfl).2

/-- The body of a frame whose length does not fit a machine word is delivered as another frame. -/
theorem frame_behind_wordBound :
    headerLine Text.wordBound = "Content-Length: 18446744073709551616".toList ∧
      IsHeader (Utf8.encode (headerLine Text.wordBound)) crlfEnd ∧
      GivesOnce (headerLine Text.wordBound) Text.wordBound ∧ maxBody < Text.wordBound ∧
      decode (Utf8.encode (headerLine Text.wordBound) ++ crlfEnd ++ encode "\x7b\x7d") =
        ⟨Utf8.encode (headerLine Text.wordBound) ++ crlfEnd,
          .frame ⟨(encodedHeader "\x7b\x7d").length, Utf8.ofString "\x7b\x7d"⟩, []⟩ := by
  have once := givesOnce_headerLine Text.wordBound
  have block := isHeader_headerLine Text.wordBound
  have dropped := valid_of_givesOnce block once le_rfl
  have two : (Utf8.ofString "\x7b\x7d").length = 2 := by decide
  have read : lengthOfHeader? (Utf8.encode (headerLine 2)) = some 2 :=
    lengthOfHeader?_headerLine (by decide)
  refine ⟨by decide, block, once, by decide, ?_⟩
  rw [decode, decodeFrom_header block, dropped.2, encode_eq, encodedHeader, two,
    decodeFrom_header (isHeader_headerLine 2), read]
  decide

end NotebookKernel.Frame
