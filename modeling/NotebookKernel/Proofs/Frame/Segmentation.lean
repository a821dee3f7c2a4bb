import NotebookKernel.Frame

/-!
# Segmentation

A stream is a run of segments, each a header block that is dropped or a frame, and a remainder from
which nothing can be taken. Which header block comes first is settled by the bytes up to its empty
line: bytes that arrive later move no empty line forward. The decoder finds the segments of every
stream, so two ways to reach the same stream agree once both are segmented.
-/

set_option autoImplicit false

namespace NotebookKernel.Frame

/-- No empty line begins at the head of the buffer. -/
def Unclosed (buffer : Bytes) : Prop :=
  ¬ crlfEnd <+: buffer ∧ ¬ lfEnd <+: buffer

/-- A header block: an empty line closes its text, and no empty line begins earlier. -/
structure IsHeader (text close : Bytes) : Prop where
  closed : close = crlfEnd ∨ close = lfEnd
  first : ∀ i < text.length, Unclosed ((text ++ close).drop i)

private theorem two_le_length_close {text close : Bytes} (h : IsHeader text close) :
    2 ≤ close.length := by
  rcases h.closed with rfl | rfl <;> decide

private theorem isHeader_tail {b : UInt8} {text close : Bytes} (h : IsHeader (b :: text) close) :
    IsHeader text close := by
  refine ⟨h.closed, ?_⟩
  intro i hi
  exact h.first (i + 1) (Nat.succ_lt_succ hi)

/-- Bytes behind the empty line begin none before it: an empty line of line feeds cut out of a
longer one would have to begin with a carriage return. -/
private theorem unclosed_append {b : UInt8} {text close : Bytes} (h : IsHeader (b :: text) close)
    (rest : Bytes) : Unclosed (b :: text ++ close ++ rest) := by
  have head : Unclosed (b :: text ++ close) := h.first 0 (Nat.succ_pos _)
  have long := two_le_length_close h
  constructor
  · intro early
    by_cases enough : 4 ≤ (b :: text ++ close).length
    · exact head.1 (List.prefix_of_prefix_length_le early (List.prefix_append _ _) enough)
    · have short : text = [] := by
        refine List.eq_nil_of_length_eq_zero ?_
        simp only [List.length_append, List.length_cons] at enough
        omega
      subst short
      rcases h.closed with rfl | rfl
      · exact enough (by simp [crlfEnd])
      · simp [crlfEnd, lfEnd] at early
  · intro early
    refine head.2 (List.prefix_of_prefix_length_le early (List.prefix_append _ _) ?_)
    simp only [lfEnd, List.length_append, List.length_cons, List.length_nil]
    omega

private theorem headerEndFrom_append {text close : Bytes} (h : IsHeader text close)
    (offset : Nat) (rest : Bytes) :
    headerEndFrom offset (text ++ close ++ rest) = some (offset + text.length, close.length) := by
  induction text generalizing offset with
  | nil =>
    rcases h.closed with rfl | rfl
    · simp [headerEndFrom, crlfEnd]
    · simp [headerEndFrom, crlfEnd, lfEnd]
  | cons b text ih =>
    have unclosed := unclosed_append h rest
    simp only [Unclosed, List.cons_append, ← List.isPrefixOf_iff_prefix] at unclosed
    simp only [List.cons_append, headerEndFrom, if_neg unclosed.1, if_neg unclosed.2]
    rw [ih (isHeader_tail h)]
    simp only [List.length_cons, Nat.add_assoc, Nat.add_comm 1]

theorem headerEnd?_append {text close : Bytes} (h : IsHeader text close) (rest : Bytes) :
    headerEnd? (text ++ close ++ rest) = some (text.length, close.length) := by
  simpa [headerEnd?] using headerEndFrom_append h 0 rest

private theorem isHeader_of_headerEndFrom {offset stop length : Nat} {buffer : Bytes}
    (h : headerEndFrom offset buffer = some (stop, length)) :
    ∃ text close rest, buffer = text ++ close ++ rest ∧ IsHeader text close ∧
      stop = offset + text.length ∧ length = close.length := by
  induction buffer generalizing offset with
  | nil => simp [headerEndFrom] at h
  | cons b buffer ih =>
    unfold headerEndFrom at h
    split at h
    · rename_i crlf
      obtain ⟨rest, hrest⟩ := List.isPrefixOf_iff_prefix.mp crlf
      simp only [Option.some.injEq, Prod.mk.injEq] at h
      exact ⟨[], crlfEnd, rest, hrest.symm, ⟨.inl rfl, by simp⟩, h.1.symm, h.2.symm⟩
    · rename_i crlf
      split at h
      · rename_i lf
        obtain ⟨rest, hrest⟩ := List.isPrefixOf_iff_prefix.mp lf
        simp only [Option.some.injEq, Prod.mk.injEq] at h
        exact ⟨[], lfEnd, rest, hrest.symm, ⟨.inr rfl, by simp⟩, h.1.symm, h.2.symm⟩
      · rename_i lf
        obtain ⟨text, close, rest, rfl, header, hstop, hlength⟩ := ih h
        refine ⟨b :: text, close, rest, by simp, ⟨header.closed, ?_⟩, ?_, hlength⟩
        · intro i hi
          cases i with
          | zero =>
            rw [List.isPrefixOf_iff_prefix] at crlf lf
            have whole : b :: text ++ close <+: b :: (text ++ close ++ rest) := by simp
            exact ⟨fun early => crlf (early.trans whole), fun early => lf (early.trans whole)⟩
          | succ i => exact header.first i (Nat.lt_of_succ_lt_succ hi)
        · simp only [List.length_cons]
          omega

theorem isHeader_of_headerEnd? {stop length : Nat} {buffer : Bytes}
    (h : headerEnd? buffer = some (stop, length)) :
    ∃ text close rest, buffer = text ++ close ++ rest ∧ IsHeader text close ∧
      stop = text.length ∧ length = close.length := by
  simpa using isHeader_of_headerEndFrom h

/-- A header block that is dropped, or a frame. -/
inductive Segment where
  | dropped (text close : Bytes)
  | framed (text close body : Bytes)

namespace Segment

def bytes : Segment → Bytes
  | dropped text close => text ++ close
  | framed text close body => text ++ close ++ body

def frame? : Segment → Option Frame
  | dropped _ _ => none
  | framed text close body => some ⟨(text ++ close).length, body⟩

/-- A header block without a length is dropped; one with a length within the limit is followed by
a body of that length. -/
def Valid : Segment → Prop
  | dropped text close => IsHeader text close ∧ lengthOfHeader? text = none
  | framed text close body =>
    IsHeader text close ∧ lengthOfHeader? text = some body.length ∧ body.length ≤ maxBody

end Segment

/-- Nothing can be taken off these bytes: the header block or the body is not whole yet, or the
header block gives a length above the limit, which is named. -/
inductive Stalled : Bytes → Option Nat → Prop where
  | header {buffer : Bytes} : headerEnd? buffer = none → Stalled buffer none
  | body {text close body : Bytes} {size : Nat} : IsHeader text close →
      lengthOfHeader? text = some size → size ≤ maxBody → body.length < size →
      Stalled (text ++ close ++ body) none
  | oversized {text close : Bytes} {size : Nat} (rest : Bytes) : IsHeader text close →
      lengthOfHeader? text = some size → maxBody < size →
      Stalled (text ++ close ++ rest) (some size)

/-- A stream taken apart: its segments, the length that ended the decoding, if one did, and the
bytes that are left. -/
structure Segmented (stream : Bytes) (segments : List Segment) (oversized : Option Nat)
    (rest : Bytes) : Prop where
  whole : segments.flatMap Segment.bytes ++ rest = stream
  valid : ∀ segment ∈ segments, segment.Valid
  stalled : Stalled rest oversized

private theorem front_cases (buffer : Bytes) :
    (∃ (segment : Segment) (rest : Bytes), segment.Valid ∧ segment.bytes ++ rest = buffer) ∨
      ∃ oversized, Stalled buffer oversized := by
  cases found : headerEnd? buffer with
  | none => exact .inr ⟨none, .header found⟩
  | some place =>
    obtain ⟨stop, length⟩ := place
    obtain ⟨text, close, rest, rfl, header, -, -⟩ := isHeader_of_headerEnd? found
    cases given : lengthOfHeader? text with
    | none => exact .inl ⟨.dropped text close, rest, ⟨header, given⟩, rfl⟩
    | some size =>
      by_cases fits : size ≤ maxBody
      · by_cases enough : size ≤ rest.length
        · have exact_length : (rest.take size).length = size := List.length_take_of_le enough
          refine .inl ⟨.framed text close (rest.take size), rest.drop size, ?_, ?_⟩
          · exact ⟨header, by rw [exact_length, given], by rw [exact_length]; exact fits⟩
          · simp [Segment.bytes]
        · exact .inr ⟨none, .body header given fits (Nat.lt_of_not_le enough)⟩
      · exact .inr ⟨some size, .oversized rest header given (Nat.lt_of_not_le fits)⟩

private theorem bytes_ne_nil {segment : Segment} (h : segment.Valid) : segment.bytes ≠ [] := by
  cases segment with
  | dropped text close =>
    have := two_le_length_close h.1
    rintro empty
    simp_all [Segment.bytes]
  | framed text close body =>
    have := two_le_length_close h.1
    rintro empty
    simp_all [Segment.bytes]

theorem exists_segmented (stream : Bytes) :
    ∃ segments oversized rest, Segmented stream segments oversized rest := by
  induction hn : stream.length using Nat.strongRecOn generalizing stream with
  | _ n ih =>
    rcases front_cases stream with ⟨segment, rest, valid, rfl⟩ | ⟨oversized, stalled⟩
    · have shorter : rest.length < n := by
        have := List.length_pos_iff.mpr (bytes_ne_nil valid)
        rw [List.length_append] at hn
        omega
      obtain ⟨segments, oversized, left, h⟩ := ih rest.length shorter rest rfl
      refine ⟨segment :: segments, oversized, left, ?_, ?_, h.stalled⟩
      · simp [h.whole]
      · intro s hs
        rcases List.mem_cons.mp hs with rfl | hs
        · exact valid
        · exact h.valid s hs
    · exact ⟨[], oversized, stream, by simp, by simp, stalled⟩

theorem decodeFrom_header {text close : Bytes} (h : IsHeader text close) (dropped rest : Bytes) :
    decodeFrom dropped (text ++ close ++ rest) =
      match lengthOfHeader? text with
      | none => decodeFrom (dropped ++ (text ++ close)) rest
      | some size =>
        if maxBody < size then ⟨dropped, .oversized size, text ++ close ++ rest⟩
        else if rest.length < size then ⟨dropped, .waiting, text ++ close ++ rest⟩
        else ⟨dropped, .frame ⟨(text ++ close).length, rest.take size⟩, rest.drop size⟩ := by
  rw [decodeFrom]
  split
  · rename_i found
    rw [headerEnd?_append h] at found
    cases found
  · rename_i stop length found
    rw [headerEnd?_append h, Option.some.injEq, Prod.mk.injEq] at found
    obtain ⟨rfl, rfl⟩ := found
    have taken : (text ++ close ++ rest).take text.length = text := by
      rw [List.append_assoc, List.take_left]
    have block : (text ++ close ++ rest).take (text.length + close.length) = text ++ close := by
      rw [← List.length_append, List.take_left]
    have behind : (text ++ close ++ rest).drop (text.length + close.length) = rest := by
      rw [← List.length_append, List.drop_left]
    simp only [taken, block, behind, List.length_append]
    cases lengthOfHeader? text with
    | none => rfl
    | some size =>
      have cut : (rest.take size).length < size ↔ rest.length < size := by
        rw [List.length_take]
        omega
      simp only [cut]

theorem decodeFrom_unclosed {buffer : Bytes} (h : headerEnd? buffer = none) (dropped : Bytes) :
    decodeFrom dropped buffer = ⟨dropped, .waiting, buffer⟩ := by
  rw [decodeFrom]
  split
  · rfl
  · rename_i found
    rw [h] at found
    cases found

private theorem decodeFrom_block {text close : Bytes} (h : (Segment.dropped text close).Valid)
    (dropped rest : Bytes) :
    decodeFrom dropped (text ++ close ++ rest) = decodeFrom (dropped ++ (text ++ close)) rest := by
  rw [decodeFrom_header h.1, h.2]

private theorem decodeFrom_framed {text close body : Bytes}
    (h : (Segment.framed text close body).Valid) (dropped rest : Bytes) :
    decodeFrom dropped (text ++ close ++ body ++ rest) =
      ⟨dropped, .frame ⟨(text ++ close).length, body⟩, rest⟩ := by
  obtain ⟨header, given, fits⟩ := h
  have enough : ¬ (body ++ rest).length < body.length := by
    rw [List.length_append]
    omega
  rw [List.append_assoc _ body, decodeFrom_header header, given]
  simp only [if_neg (Nat.not_lt_of_le fits), if_neg enough, List.take_left, List.drop_left]

theorem decodeFrom_stalled {buffer : Bytes} {oversized : Option Nat}
    (h : Stalled buffer oversized) (dropped : Bytes) :
    decodeFrom dropped buffer = ⟨dropped, oversized.elim .waiting .oversized, buffer⟩ := by
  cases h with
  | header unclosed => exact decodeFrom_unclosed unclosed dropped
  | body header given fits short =>
    rw [decodeFrom_header header, given]
    simp only [if_neg (Nat.not_lt_of_le fits), if_pos short, Option.elim]
  | oversized rest header given long =>
    rw [decodeFrom_header header, given]
    simp only [if_pos long, Option.elim]

/-- What was dropped before stays in front of what is dropped now, and does not matter for what is
found. -/
theorem decodeFrom_eq (dropped buffer : Bytes) :
    decodeFrom dropped buffer =
      ⟨dropped ++ (decode buffer).dropped, (decode buffer).front, (decode buffer).rest⟩ := by
  obtain ⟨segments, oversized, rest, rfl, valid, stalled⟩ := exists_segmented buffer
  induction segments generalizing dropped with
  | nil => simp [decode, decodeFrom_stalled stalled]
  | cons segment segments ih =>
    have first := valid segment List.mem_cons_self
    have others : ∀ s ∈ segments, s.Valid := fun s hs => valid s (List.mem_cons_of_mem _ hs)
    rw [List.flatMap_cons, List.append_assoc, decode]
    cases segment with
    | dropped text close =>
      rw [Segment.bytes, decodeFrom_block first, decodeFrom_block first, ih _ others,
        ih ([] ++ _) others, List.nil_append, List.append_assoc]
    | framed text close body =>
      rw [Segment.bytes, decodeFrom_framed first, decodeFrom_framed first, List.append_nil]

theorem stalled_of_oversized {dropped buffer : Bytes} {size : Nat}
    (h : (decodeFrom dropped buffer).front = .oversized size) :
    Stalled (decodeFrom dropped buffer).rest (some size) := by
  obtain ⟨segments, oversized, rest, rfl, valid, stalled⟩ := exists_segmented buffer
  induction segments generalizing dropped with
  | nil =>
    simp only [List.flatMap_nil, List.nil_append, decodeFrom_stalled stalled] at h ⊢
    cases oversized with
    | none => cases h
    | some n =>
      cases h
      exact stalled
  | cons segment segments ih =>
    have first := valid segment List.mem_cons_self
    have others : ∀ s ∈ segments, s.Valid := fun s hs => valid s (List.mem_cons_of_mem _ hs)
    rw [List.flatMap_cons, List.append_assoc] at h ⊢
    cases segment with
    | dropped text close =>
      rw [Segment.bytes, decodeFrom_block first] at h ⊢
      exact ih others h
    | framed text close body =>
      rw [Segment.bytes, decodeFrom_framed first] at h
      cases h

private theorem decodeOnto_eq (done : List Frame) (buffer : Bytes) :
    decodeOnto done buffer =
      match (decode buffer).front with
      | .waiting => ⟨done.reverse, none, (decode buffer).rest⟩
      | .oversized size => ⟨done.reverse, some size, (decode buffer).rest⟩
      | .frame frame => decodeOnto (frame :: done) (decode buffer).rest := by
  rw [decodeOnto]
  split <;> rename_i taken <;> simp only [taken]

private theorem decodeOnto_block {text close : Bytes} (h : (Segment.dropped text close).Valid)
    (done : List Frame) (rest : Bytes) :
    decodeOnto done (text ++ close ++ rest) = decodeOnto done rest := by
  rw [decodeOnto_eq, decodeOnto_eq done rest, decode, decodeFrom_block h, decodeFrom_eq]

private theorem decodeOnto_segments {segments : List Segment} {oversized : Option Nat}
    {rest : Bytes} (valid : ∀ segment ∈ segments, segment.Valid) (stalled : Stalled rest oversized)
    (done : List Frame) :
    decodeOnto done (segments.flatMap Segment.bytes ++ rest) =
      ⟨done.reverse ++ segments.filterMap Segment.frame?, oversized, rest⟩ := by
  induction segments generalizing done with
  | nil =>
    rw [List.flatMap_nil, List.nil_append, decodeOnto_eq, decode, decodeFrom_stalled stalled]
    cases oversized <;> simp
  | cons segment segments ih =>
    have first := valid segment List.mem_cons_self
    have others : ∀ s ∈ segments, s.Valid := fun s hs => valid s (List.mem_cons_of_mem _ hs)
    rw [List.flatMap_cons, List.append_assoc]
    cases segment with
    | dropped text close =>
      rw [Segment.bytes, decodeOnto_block first, ih others]
      rfl
    | framed text close body =>
      rw [Segment.bytes, decodeOnto_eq, decode, decodeFrom_framed first]
      simp only [ih others]
      simp [Segment.frame?]

theorem decodeAll_segmented {stream rest : Bytes} {segments : List Segment}
    {oversized : Option Nat} (h : Segmented stream segments oversized rest) :
    decodeAll stream = ⟨segments.filterMap Segment.frame?, oversized, rest⟩ := by
  obtain ⟨rfl, valid, stalled⟩ := h
  exact decodeOnto_segments valid stalled []

theorem decodeAll_segment {segment : Segment} (h : segment.Valid) (rest : Bytes) :
    decodeAll (segment.bytes ++ rest) =
      ⟨segment.frame?.toList ++ (decodeAll rest).frames, (decodeAll rest).oversized,
        (decodeAll rest).rest⟩ := by
  obtain ⟨segments, oversized, left, segmented⟩ := exists_segmented rest
  have whole : Segmented (segment.bytes ++ rest) (segment :: segments) oversized left := by
    refine ⟨?_, ?_, segmented.stalled⟩
    · rw [List.flatMap_cons, List.append_assoc, segmented.whole]
    · intro other member
      rcases List.mem_cons.mp member with rfl | member
      · exact h
      · exact segmented.valid other member
  rw [decodeAll_segmented whole, decodeAll_segmented segmented]
  cases found : segment.frame? <;> simp [found]

end NotebookKernel.Frame
