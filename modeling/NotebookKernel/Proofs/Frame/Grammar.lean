import Mathlib.Data.Bool.AllAny
import NotebookKernel.Proofs.Frame.Oversize

/-!
# Header blocks line by line

A header block is a list of lines, joined by either line ending and closed by an empty line of
either form. Which length it gives follows one rule: that of its last line with a length, whatever
the other lines are and however they end. Streams whose blocks give the same lengths therefore hold
the same bodies.
-/

set_option autoImplicit false

namespace NotebookKernel

namespace Text

/-- Lines joined by line endings: behind each line but the last stands its own. -/
def joinEnded : List (List Char × LineEnd) → List Char
  | [] => []
  | [entry] => entry.1
  | entry :: next :: entries => entry.1 ++ entry.2.chars ++ joinEnded (next :: entries)

theorem lines_append_of_ended {text : List Char} (ended : text.getLast? = some '\n')
    (rest : List Char) : lines (text ++ rest) = lines text ++ lines rest := by
  have cut : pieces (text ++ rest) = pieces text ++ pieces rest := by
    refine List.splitBy_append ?_
    intro c last _ _
    rw [ended, Option.mem_some_iff] at last
    simp [← last]
  rw [lines, cut, List.map_append]
  rfl

theorem lines_joinEnded {entries : List (List Char × LineEnd)}
    (filled : ∀ entry ∈ entries, entry.1 ≠ [])
    (unbroken : ∀ entry ∈ entries, '\r' ∉ entry.1 ∧ '\n' ∉ entry.1) :
    lines (joinEnded entries) = entries.map Prod.fst := by
  induction entries using joinEnded.induct with
  | case1 => rfl
  | case2 entry =>
    have first := List.mem_singleton_self entry
    exact Frame.lines_of_not_mem (filled entry first) (unbroken entry first).2
  | case3 entry next entries ih =>
    obtain ⟨cr, lf⟩ := unbroken entry List.mem_cons_self
    have one : entry.1 ++ entry.2.chars = endedLines [entry] := by simp [endedLines]
    have ended : (endedLines [entry]).getLast? = some '\n' := by
      rw [← one]
      cases entry.2 <;> simp [LineEnd.chars]
    have read : lines (endedLines [entry]) = [entry.1] := by
      refine lines_endedLines ?_ ?_
      · simpa using lf
      · intro other member _ last
        rw [List.mem_singleton.mp member] at last
        exact cr (List.mem_of_getLast? last)
    rw [joinEnded, one, lines_append_of_ended ended, read,
      ih (fun e he => filled e (List.mem_cons_of_mem _ he))
        (fun e he => unbroken e (List.mem_cons_of_mem _ he))]
    rfl

end Text

namespace Frame

/-- A text is a word of lower-case letters, each of them in either case. -/
def InAnyCase (word text : List Char) : Prop :=
  List.Forall₂ (fun lower c => c = lower ∨ c = lower.toUpper) word text

private theorem toNat_toLower {c : Char} (upper : 65 ≤ c.toNat ∧ c.toNat ≤ 90) :
    c.toLower.toNat = c.toNat + 32 := by
  have all : ∀ n ≤ 90, 65 ≤ n → (Char.ofNat n).toLower.toNat = n + 32 := by decide
  have shifted := all c.toNat upper.2 upper.1
  rwa [Char.ofNat_toNat] at shifted

private theorem toNat_toUpper {c : Char} (lower : 97 ≤ c.toNat ∧ c.toNat ≤ 122) :
    c.toUpper.toNat = c.toNat - 32 := by
  have all : ∀ n ≤ 122, 97 ≤ n → (Char.ofNat n).toUpper.toNat = n - 32 := by decide
  have shifted := all c.toNat lower.2 lower.1
  rwa [Char.ofNat_toNat] at shifted

private theorem toLower_eq_iff {c lower : Char} (fixed : lower.toLower = lower)
    (back : lower.toUpper.toLower = lower) :
    c.toLower = lower ↔ c = lower ∨ c = lower.toUpper := by
  constructor
  · rintro rfl
    by_cases upper : 65 ≤ c.toNat ∧ c.toNat ≤ 90
    · refine Or.inr (Char.toNat_inj.mp ?_)
      have lowered := toNat_toLower upper
      rw [toNat_toUpper (by omega)]
      omega
    · have outside : ¬ (c.val ≥ 'A'.val ∧ c.val ≤ 'Z'.val) := upper
      have kept : c.toLower = c := dif_neg outside
      exact Or.inl kept.symm
  · rintro (rfl | rfl)
    · exact fixed
    · exact back

theorem isLengthKey_iff (key : List Char) :
    isLengthKey key = true ↔ InAnyCase "content-length".toList key := by
  rw [isLengthKey, beq_iff_eq, InAnyCase]
  have plain : ∀ lower ∈ "content-length".toList,
      lower.toLower = lower ∧ lower.toUpper.toLower = lower :=
    List.all_iff_forall_prop.mp (by decide)
  generalize "content-length".toList = word at plain
  induction word generalizing key with
  | nil => cases key <;> simp
  | cons lower word ih =>
    obtain ⟨fixed, back⟩ := plain lower List.mem_cons_self
    cases key with
    | nil => simp
    | cons c key =>
      have rest : key.map Char.toLower = word ↔
          List.Forall₂ (fun lower c => c = lower ∨ c = lower.toUpper) word key :=
        ih key fun d hd => plain d (List.mem_cons_of_mem _ hd)
      rw [List.map_cons, List.cons.injEq, List.forall₂_cons, toLower_eq_iff fixed back, rest]

/-- A header line announces a length: before its first colon stands the key, in any case, and behind
it a numeral, blank space at the ends of both left out. -/
def Announces (line : List Char) (size : Nat) : Prop :=
  ∃ key value, line = key ++ ':' :: value ∧ ':' ∉ key ∧
    InAnyCase "content-length".toList (Text.trim key) ∧ Text.IsNumeral (Text.trim value) size

theorem announces_iff_givesLength {line : List Char} {size : Nat} :
    Announces line size ↔ GivesLength line size := by
  simp only [Announces, GivesLength, isLengthKey_iff]

theorem Announces.lt_pow {line : List Char} {size : Nat} (h : Announces line size) :
    size < Nat.pow 10 line.length := by
  obtain ⟨key, value, rfl, -, -, numeral⟩ := h
  have short : (Text.trim value).length ≤ (key ++ ':' :: value).length := by
    have := (Text.isInfix_trim value).length_le
    simp only [List.length_append, List.length_cons]
    omega
  exact Nat.lt_of_lt_of_le numeral.lt_pow (Nat.pow_le_pow_right (by decide) short)

def LastAnnounced (lines : List (List Char)) (size : Nat) : Prop :=
  ∃ before line after, lines = before ++ line :: after ∧ Announces line size ∧
    ∀ other ∈ after, ∀ n, ¬ Announces other n

/-- No line announces a length. -/
def Silent (lines : List (List Char)) : Prop :=
  ∀ line ∈ lines, ∀ size, ¬ Announces line size

open Classical in
noncomputable def announcing (lines : List (List Char)) : List (List Char) :=
  lines.filter fun line => ∃ size, Announces line size

def emptyLine : Text.LineEnd → Bytes
  | .lineFeed => lfEnd
  | .carriageReturnLineFeed => crlfEnd

/-- A header block: its lines with the endings that join them, and the empty line that closes it. A
number that is announced fits a machine word. -/
structure Block where
  entries : List (List Char × Text.LineEnd)
  close : Text.LineEnd
  filled : ∀ entry ∈ entries, entry.1 ≠ []
  unbroken : ∀ entry ∈ entries, '\r' ∉ entry.1 ∧ '\n' ∉ entry.1
  readable : ∀ entry ∈ entries, ∀ size, Announces entry.1 size → size < Text.wordBound

namespace Block

def lines (block : Block) : List (List Char) :=
  block.entries.map Prod.fst

def text (block : Block) : Bytes :=
  Utf8.encode (Text.joinEnded block.entries)

def bytes (block : Block) : Bytes :=
  block.text ++ emptyLine block.close

end Block

private theorem isHeader_cons {b : UInt8} {text close : Bytes} (h : IsHeader text close)
    (unclosed : Unclosed (b :: text ++ close)) : IsHeader (b :: text) close := by
  refine ⟨h.closed, ?_⟩
  intro i hi
  cases i with
  | zero => exact unclosed
  | succ i => exact h.first i (Nat.lt_of_succ_lt_succ hi)

private theorem unclosed_of_ne {b : UInt8} (cr : b ≠ 13) (lf : b ≠ 10) (rest : Bytes) :
    Unclosed (b :: rest) :=
  ⟨fun early => cr (List.cons_prefix_cons.mp early).1.symm,
    fun early => lf (List.cons_prefix_cons.mp early).1.symm⟩

private theorem isHeader_append {line text close : Bytes} (cr : 13 ∉ line) (lf : 10 ∉ line)
    (h : IsHeader text close) : IsHeader (line ++ text) close := by
  induction line with
  | nil => exact h
  | cons b line ih =>
    simp only [List.mem_cons, not_or] at cr lf
    exact isHeader_cons (ih cr.2 lf.2) (unclosed_of_ne (Ne.symm cr.1) (Ne.symm lf.1) _)

/-- One line ending does not close a header block: the line behind it has to be empty for that. -/
private theorem isHeader_ending (ending : Text.LineEnd) {b : UInt8} {text close : Bytes}
    (cr : b ≠ 13) (lf : b ≠ 10) (h : IsHeader (b :: text) close) :
    IsHeader (Utf8.encode ending.chars ++ b :: text) close := by
  have fed : IsHeader (10 :: b :: text) close := by
    refine isHeader_cons h ⟨?_, ?_⟩
    · intro early
      exact absurd (List.cons_prefix_cons.mp early).1 (by decide)
    · intro early
      exact lf (List.cons_prefix_cons.mp (List.cons_prefix_cons.mp early).2).1.symm
  cases ending with
  | lineFeed => exact fed
  | carriageReturnLineFeed =>
    refine isHeader_cons fed ⟨?_, ?_⟩
    · intro early
      have third := (List.cons_prefix_cons.mp (List.cons_prefix_cons.mp early).2).2
      exact cr (List.cons_prefix_cons.mp third).1.symm
    · intro early
      exact absurd (List.cons_prefix_cons.mp early).1 (by decide)

private theorem unbroken_encode {line : List Char} (h : '\r' ∉ line ∧ '\n' ∉ line) :
    13 ∉ Utf8.encode line ∧ 10 ∉ Utf8.encode line := by
  refine ⟨not_mem_encode (by decide) ?_, not_mem_encode (by decide) ?_⟩
  · intro c value
    have same : c = '\r' := Char.toNat_inj.mp value
    exact same ▸ h.1
  · intro c value
    have same : c = '\n' := Char.toNat_inj.mp value
    exact same ▸ h.2

private theorem encode_ne_nil {line : List Char} (h : line ≠ []) : Utf8.encode line ≠ [] := by
  intro empty
  have read := Utf8.decode?_encode line
  rw [empty] at read
  exact h (Option.some.inj read).symm

private theorem exists_joinEnded_cons (entry : List Char × Text.LineEnd)
    (entries : List (List Char × Text.LineEnd)) :
    ∃ more, Text.joinEnded (entry :: entries) = entry.1 ++ more := by
  cases entries with
  | nil => exact ⟨[], (List.append_nil _).symm⟩
  | cons next entries => exact ⟨_, by rw [Text.joinEnded, List.append_assoc]⟩

private theorem isHeader_joinEnded {entries : List (List Char × Text.LineEnd)} {close : Bytes}
    (closed : close = crlfEnd ∨ close = lfEnd) (filled : ∀ entry ∈ entries, entry.1 ≠ [])
    (unbroken : ∀ entry ∈ entries, '\r' ∉ entry.1 ∧ '\n' ∉ entry.1) :
    IsHeader (Utf8.encode (Text.joinEnded entries)) close := by
  have bare : IsHeader [] close := ⟨closed, by simp⟩
  induction entries using Text.joinEnded.induct with
  | case1 => exact bare
  | case2 entry =>
    obtain ⟨cr, lf⟩ := unbroken_encode (unbroken entry (List.mem_singleton_self entry))
    rw [Text.joinEnded, ← List.append_nil (Utf8.encode entry.1)]
    exact isHeader_append cr lf bare
  | case3 entry next entries ih =>
    obtain ⟨cr, lf⟩ := unbroken_encode (unbroken entry List.mem_cons_self)
    have later := ih (fun e he => filled e (List.mem_cons_of_mem _ he))
      (fun e he => unbroken e (List.mem_cons_of_mem _ he))
    obtain ⟨b, rest, head, cr', lf'⟩ : ∃ b rest,
        Utf8.encode (Text.joinEnded (next :: entries)) = b :: rest ∧ b ≠ 13 ∧ b ≠ 10 := by
      have second : next ∈ entry :: next :: entries := List.mem_cons_of_mem _ List.mem_cons_self
      obtain ⟨more, front⟩ := exists_joinEnded_cons next entries
      obtain ⟨b, rest, spelt⟩ := List.exists_cons_of_ne_nil (encode_ne_nil (filled next second))
      obtain ⟨cr, lf⟩ := unbroken_encode (unbroken next second)
      rw [spelt] at cr lf
      refine ⟨b, rest ++ Utf8.encode more, by rw [front, Utf8.encode_append, spelt]; rfl, ?_, ?_⟩
      · exact fun same => cr (same ▸ List.mem_cons_self)
      · exact fun same => lf (same ▸ List.mem_cons_self)
    rw [Text.joinEnded, Utf8.encode_append, Utf8.encode_append, List.append_assoc]
    refine isHeader_append cr lf ?_
    rw [head] at later ⊢
    exact isHeader_ending entry.2 cr' lf' later

namespace Block

theorem isHeader_text (block : Block) : IsHeader block.text (emptyLine block.close) := by
  refine isHeader_joinEnded ?_ block.filled block.unbroken
  cases block.close with
  | lineFeed => exact Or.inr rfl
  | carriageReturnLineFeed => exact Or.inl rfl

theorem lengthOfLine?_eq_some_iff {block : Block} {line : List Char} (member : line ∈ block.lines)
    {size : Nat} : lengthOfLine? line = some size ↔ Announces line size := by
  rw [Frame.lengthOfLine?_eq_some_iff, announces_iff_givesLength, and_iff_left_iff_imp]
  intro given
  obtain ⟨entry, found, rfl⟩ := List.mem_map.mp member
  exact block.readable entry found size (announces_iff_givesLength.mpr given)

theorem lengthOfLine?_eq_none_iff {block : Block} {line : List Char} (member : line ∈ block.lines) :
    lengthOfLine? line = none ↔ ∀ size, ¬ Announces line size := by
  simp only [Option.eq_none_iff_forall_ne_some, ne_eq, lengthOfLine?_eq_some_iff member]

theorem lengthOfHeader?_text (block : Block) :
    lengthOfHeader? block.text = (block.lines.filterMap lengthOfLine?).getLast? := by
  rw [lengthOfHeader?, text, Utf8.decode?_encode, Option.bind_some, contentLength?,
    Text.lines_joinEnded block.filled block.unbroken]
  rfl

theorem lengthOfHeader?_eq_some_iff {block : Block} {size : Nat} :
    lengthOfHeader? block.text = some size ↔ LastAnnounced block.lines size := by
  rw [lengthOfHeader?_text, List.getLast?_filterMap, List.findSome?_eq_some_iff]
  constructor
  · rintro ⟨after, line, before, cut, given, others⟩
    have split : block.lines = before.reverse ++ line :: after.reverse := by
      simpa using List.reverse_eq_append_iff.mp cut
    have here : line ∈ block.lines := by simp [split]
    refine ⟨before.reverse, line, after.reverse, split, (lengthOfLine?_eq_some_iff here).mp given,
      ?_⟩
    intro other member
    rw [List.mem_reverse] at member
    have found : other ∈ block.lines := by simp [split, member]
    exact (lengthOfLine?_eq_none_iff found).mp (others other member)
  · rintro ⟨before, line, after, split, given, others⟩
    have here : line ∈ block.lines := by simp [split]
    refine ⟨after.reverse, line, before.reverse, by simp [split],
      (lengthOfLine?_eq_some_iff here).mpr given, ?_⟩
    intro other member
    rw [List.mem_reverse] at member
    have found : other ∈ block.lines := by simp [split, member]
    exact (lengthOfLine?_eq_none_iff found).mpr (others other member)

theorem lengthOfHeader?_eq_none_iff {block : Block} :
    lengthOfHeader? block.text = none ↔ Silent block.lines := by
  rw [lengthOfHeader?_text, List.getLast?_eq_none_iff, List.filterMap_eq_nil_iff]
  refine forall₂_congr ?_
  intro line member
  exact lengthOfLine?_eq_none_iff member

theorem lengthOfHeader?_congr {block other : Block}
    (same : announcing block.lines = announcing other.lines) :
    lengthOfHeader? block.text = lengthOfHeader? other.text := by
  have spared (b : Block) :
      b.lines.filterMap lengthOfLine? = (announcing b.lines).filterMap lengthOfLine? := by
    rw [announcing, List.filterMap_filter]
    refine List.filterMap_congr ?_
    intro line member
    by_cases given : ∃ size, Announces line size
    · simp [given]
    · simpa [given] using (lengthOfLine?_eq_none_iff member).mpr (not_exists.mp given)
  rw [lengthOfHeader?_text, lengthOfHeader?_text, spared block, spared other, same]

end Block

/-- The bodies of a stream, and the length above the limit that ended its decoding, if one did. -/
def bodies (stream : Bytes) : List Bytes × Option Nat :=
  ((decodeAll stream).frames.map Frame.body, (decodeAll stream).oversized)

theorem bodies_block (block : Block) (rest : Bytes) :
    bodies (block.bytes ++ rest) =
      match lengthOfHeader? block.text with
      | none => bodies rest
      | some size =>
        if maxBody < size then ([], some size)
        else if rest.length < size then ([], none)
        else (rest.take size :: (bodies (rest.drop size)).1, (bodies (rest.drop size)).2) := by
  have header := block.isHeader_text
  have stopped : ∀ oversized, Stalled (block.bytes ++ rest) oversized →
      bodies (block.bytes ++ rest) = ([], oversized) := by
    intro oversized stalled
    have alone : Segmented (block.bytes ++ rest) [] oversized (block.bytes ++ rest) :=
      ⟨rfl, by simp, stalled⟩
    rw [bodies, decodeAll_segmented alone]
    rfl
  cases given : lengthOfHeader? block.text with
  | none =>
    have dropped := decodeAll_dropped ⟨header, given⟩ rest
    exact congrArg (fun batch : Batch => (batch.frames.map Frame.body, batch.oversized)) dropped
  | some size =>
    dsimp only
    by_cases long : maxBody < size
    · rw [if_pos long]
      exact stopped _ (.oversized rest header given long)
    by_cases short : rest.length < size
    · rw [if_neg long, if_pos short]
      exact stopped _ (.body header given (Nat.le_of_not_lt long) short)
    have exactly : (rest.take size).length = size :=
      List.length_take_of_le (Nat.le_of_not_lt short)
    have valid : (Segment.framed block.text (emptyLine block.close) (rest.take size)).Valid :=
      ⟨header, by rw [exactly, given], by rw [exactly]; exact Nat.le_of_not_lt long⟩
    have taken := decodeAll_segment valid (rest.drop size)
    rw [Segment.bytes, List.append_assoc, List.take_append_drop] at taken
    rw [if_neg long, if_neg short, bodies, Block.bytes, taken]
    rfl

/-- A block with the body that it announces behind it; a block that announces none has none. -/
structure Framed where
  block : Block
  body : Bytes
  whole : LastAnnounced block.lines body.length ∨ Silent block.lines ∧ body = []

namespace Framed

def bytes (framed : Framed) : Bytes :=
  framed.block.bytes ++ framed.body

/-- Two blocks with the same body announce lengths in the same lines. How the lines end, and which
lines there are that announce none, is left open. -/
def Alike (framed other : Framed) : Prop :=
  announcing framed.block.lines = announcing other.block.lines ∧ framed.body = other.body

private theorem bodies_append (framed : Framed) (rest : Bytes) :
    bodies (framed.bytes ++ rest) =
      match lengthOfHeader? framed.block.text with
      | none => bodies rest
      | some size =>
        if maxBody < size then ([], some size)
        else (framed.body :: (bodies rest).1, (bodies rest).2) := by
  rw [bytes, List.append_assoc, bodies_block]
  rcases framed.whole with given | ⟨silent, empty⟩
  · have enough : ¬ (framed.body ++ rest).length < framed.body.length := by simp
    rw [Block.lengthOfHeader?_eq_some_iff.mpr given]
    simp only [if_neg enough, List.take_left, List.drop_left]
  · simp [Block.lengthOfHeader?_eq_none_iff.mpr silent, empty]

theorem bodies_flatMap {items others : List Framed} (alike : List.Forall₂ Alike items others)
    {rest rest' : Bytes} (same : bodies rest = bodies rest') :
    bodies (items.flatMap bytes ++ rest) = bodies (others.flatMap bytes ++ rest') := by
  induction alike with
  | nil => exact same
  | @cons framed other items others alike _ ih =>
    rw [List.flatMap_cons, List.flatMap_cons, List.append_assoc, List.append_assoc, bodies_append,
      bodies_append, ih, Block.lengthOfHeader?_congr alike.1, alike.2]

end Framed

/-- The decoder takes as the length of a header block the number in its last line that announces
one, and goes on behind a block without such a line. Nothing else in a block matters: streams whose
blocks announce lengths in the same lines hold the same bodies, whatever stands between these lines
and whichever ending each line and each block has. -/
theorem decode_block (block : Block) (rest : Bytes) :
    ((∃ size, LastAnnounced block.lines size) ∨ Silent block.lines) ∧
    (∀ size, LastAnnounced block.lines size →
      decode (block.bytes ++ rest) =
        if maxBody < size then ⟨[], .oversized size, block.bytes ++ rest⟩
        else if rest.length < size then ⟨[], .waiting, block.bytes ++ rest⟩
        else ⟨[], .frame ⟨block.bytes.length, rest.take size⟩, rest.drop size⟩) ∧
    (Silent block.lines →
      decode (block.bytes ++ rest) =
        ⟨block.bytes ++ (decode rest).dropped, (decode rest).front, (decode rest).rest⟩) ∧
    ∀ (items others : List Framed) (other : Block), List.Forall₂ Framed.Alike items others →
      announcing block.lines = announcing other.lines →
      bodies (items.flatMap Framed.bytes ++ (block.bytes ++ rest)) =
        bodies (others.flatMap Framed.bytes ++ (other.bytes ++ rest)) := by
  refine ⟨?_, ?_, ?_, ?_⟩
  · cases given : lengthOfHeader? block.text with
    | none => exact Or.inr (Block.lengthOfHeader?_eq_none_iff.mp given)
    | some size => exact Or.inl ⟨size, Block.lengthOfHeader?_eq_some_iff.mp given⟩
  · intro size last
    rw [decode, Block.bytes, decodeFrom_header block.isHeader_text,
      Block.lengthOfHeader?_eq_some_iff.mpr last]
  · intro silent
    rw [decode, Block.bytes, decodeFrom_header block.isHeader_text,
      Block.lengthOfHeader?_eq_none_iff.mpr silent]
    exact decodeFrom_eq _ rest
  · intro items others other alike same
    refine Framed.bodies_flatMap alike ?_
    rw [bodies_block, bodies_block, Block.lengthOfHeader?_congr same]

private theorem readable_of_short {entries : List (List Char × Text.LineEnd)}
    (short : ∀ entry ∈ entries, entry.1.length ≤ 19) :
    ∀ entry ∈ entries, ∀ size, Announces entry.1 size → size < Text.wordBound := by
  intro entry member size given
  calc size < Nat.pow 10 entry.1.length := given.lt_pow
    _ ≤ Nat.pow 10 19 := Nat.pow_le_pow_right (by decide) (short entry member)
    _ < Text.wordBound := by decide

/-- A key in mixed case with blank space around it, two lengths of which the second counts, and
behind them a value that goes on after a number and a line without a colon. -/
def mixedBlock : Block where
  entries := [("Content-Length: 1".toList, .lineFeed),
    (" CONTENT-length :+2".toList, .carriageReturnLineFeed),
    ("content-length: 3:4".toList, .lineFeed), ("5".toList, .lineFeed)]
  close := .carriageReturnLineFeed
  filled := by decide
  unbroken := by decide
  readable := readable_of_short (by decide)

/-- The lines of `mixedBlock` that announce a length, the other way framed. -/
def plainBlock : Block where
  entries := [("Content-Length: 1".toList, .carriageReturnLineFeed),
    (" CONTENT-length :+2".toList, .carriageReturnLineFeed)]
  close := .lineFeed
  filled := by decide
  unbroken := by decide
  readable := readable_of_short (by decide)

private theorem announcing_mixedBlock :
    announcing mixedBlock.lines = announcing plainBlock.lines := by
  have split : mixedBlock.lines =
      plainBlock.lines ++ ["content-length: 3:4".toList, "5".toList] := by decide
  have silent : announcing ["content-length: 3:4".toList, "5".toList] = [] := by
    rw [announcing, List.filter_eq_nil_iff]
    intro line member
    have found : line ∈ mixedBlock.lines := by
      rw [split]
      exact List.mem_append_right _ member
    have unread : lengthOfLine? line = none := by
      revert line
      decide
    simpa using (Block.lengthOfLine?_eq_none_iff found).mp unread
  rw [split, announcing, List.filter_append, ← announcing, ← announcing, silent, List.append_nil]

theorem decode_mixedBlock :
    decode (mixedBlock.bytes ++ [0x7B, 0x7D, 0x0A]) =
        ⟨[], .frame ⟨mixedBlock.bytes.length, [0x7B, 0x7D]⟩, [0x0A]⟩ ∧
      bodies (mixedBlock.bytes ++ [0x7B, 0x7D, 0x0A]) =
        bodies (plainBlock.bytes ++ [0x7B, 0x7D, 0x0A]) := by
  have last : LastAnnounced mixedBlock.lines 2 :=
    Block.lengthOfHeader?_eq_some_iff.mp (by decide +kernel)
  obtain ⟨-, taken, -, alike⟩ := decode_block mixedBlock [0x7B, 0x7D, 0x0A]
  exact ⟨taken 2 last, alike [] [] plainBlock .nil announcing_mixedBlock⟩

end Frame

end NotebookKernel
