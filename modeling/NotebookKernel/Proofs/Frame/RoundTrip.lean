import NotebookKernel.Proofs.Frame.Header

/-!
# Round trip

Frames written one after another are read back as they were written, also with header blocks among
them that give no length: whatever a body holds, the next item is found right behind it.
-/

set_option autoImplicit false

namespace NotebookKernel.Frame

/-- What stands in a stream: the frame of a text, or a header block without a frame. -/
inductive Item where
  | message (body : String)
  | noise (header close : Bytes)

namespace Item

def bytes : Item → Bytes
  | message body => encode body
  | noise header close => header ++ close

/-- The frame of an item, if it is one: as long a header as was written before the body. -/
def frame? : Item → Option Frame
  | message body => some ⟨(encodedHeader body).length, Utf8.ofString body⟩
  | noise _ _ => none

/-- A text is not longer than the limit; a header block without a frame gives no length, and the
empty line at its end is its first. -/
def Admissible : Item → Prop
  | message body => (Utf8.ofString body).length ≤ maxBody
  | noise header close => IsHeader header close ∧ Unusable header

def segment : Item → Segment
  | message body =>
    .framed (Utf8.encode (headerLine (Utf8.ofString body).length)) crlfEnd (Utf8.ofString body)
  | noise header close => .dropped header close

private theorem bytes_segment (item : Item) : item.segment.bytes = item.bytes := by
  cases item with
  | message body => exact (encode_eq body).symm
  | noise header close => rfl

private theorem frame?_segment (item : Item) : item.segment.frame? = item.frame? := by
  cases item <;> rfl

private theorem valid_segment {item : Item} (h : item.Admissible) : item.segment.Valid := by
  cases item with
  | message body =>
    have below : (Utf8.ofString body).length < Text.wordBound :=
      Nat.lt_of_le_of_lt h (by decide)
    exact ⟨isHeader_headerLine _, lengthOfHeader?_headerLine below, h⟩
  | noise header close => exact ⟨h.1, lengthOfHeader?_of_unusable h.2⟩

end Item

private theorem segmented_items {items : List Item} (h : ∀ item ∈ items, item.Admissible) :
    Segmented (items.flatMap Item.bytes) (items.map Item.segment) none [] := by
  refine ⟨?_, ?_, .header rfl⟩
  · simp only [List.flatMap_map, Item.bytes_segment, List.append_nil]
  · intro segment member
    obtain ⟨item, found, rfl⟩ := List.mem_map.mp member
    exact Item.valid_segment (h item found)

private theorem segmented_oversized {body : String} (long : maxBody < (Utf8.ofString body).length)
    (below : (Utf8.ofString body).length < Text.wordBound) :
    Segmented (encode body) [] (some (Utf8.ofString body).length) (encode body) := by
  refine ⟨rfl, by simp, ?_⟩
  rw [encode_eq]
  exact .oversized _ (isHeader_headerLine _) (lengthOfHeader?_headerLine below) long

/-- Texts within the limit are read back in order, each with the length of its own header, whatever
header blocks without a length stand between them, and nothing is left. A text above the limit,
which like any text in memory has fewer bytes than a machine word counts, is refused, and no frame
is taken off. -/
theorem decodeAll_items (items : List Item) (h : ∀ item ∈ items, item.Admissible) :
    decodeAll (items.flatMap Item.bytes) = ⟨items.filterMap Item.frame?, none, []⟩ ∧
      ∀ body : String, maxBody < (Utf8.ofString body).length →
        (Utf8.ofString body).length < Text.wordBound →
        decodeAll (encode body) = ⟨[], some (Utf8.ofString body).length, encode body⟩ ∧
          oversizedFault (Utf8.ofString body).length =
            .protocolParse (.oversized (Utf8.ofString body).length maxBody) := by
  refine ⟨?_, ?_⟩
  · rw [decodeAll_segmented (segmented_items h), List.filterMap_map]
    congr 2
    funext item
    exact Item.frame?_segment item
  · intro body long below
    exact ⟨decodeAll_segmented (segmented_oversized long below), rfl⟩

/-- A byte that begins no character, a header line about something else, and bodies that look like
headers or are empty. -/
def mixedItems : List Item :=
  [.noise [0xFF, 0x41] lfEnd, .message "Content-Length: 1\r\n\r\n",
    .noise (Utf8.ofString "Content-Type: 7") crlfEnd, .message ""]

private theorem mixedItems_admissible : ∀ item ∈ mixedItems, item.Admissible := by
  intro item member
  simp only [mixedItems, List.mem_cons, List.not_mem_nil, or_false] at member
  rcases member with rfl | rfl | rfl | rfl
  · refine ⟨isHeader_of_unbroken (by decide) (by decide) (.inr rfl), .inl ?_⟩
    intro text same
    have unread : Utf8.decode? [0xFF, 0x41] = none := by decide
    rw [← same, Utf8.decode?_encode] at unread
    cases unread
  · show (Utf8.ofString _).length ≤ maxBody
    decide
  · refine ⟨isHeader_of_unbroken (by decide) (by decide) (.inl rfl), .inr ⟨_, rfl, ?_⟩⟩
    intro line member size given
    have single : Text.lines "Content-Type: 7".toList = ["Content-Type: 7".toList] := by decide
    rw [single, List.mem_singleton] at member
    subst member
    exact absurd (isLengthKey_of_givesLength given) (by decide)
  · show (Utf8.ofString _).length ≤ maxBody
    decide

private theorem length_ofString_replicate (n : Nat) :
    (Utf8.ofString (String.ofList (List.replicate n 'a'))).length = n := by
  have one : (Utf8.encodeChar 'a').length = 1 := by decide
  rw [Utf8.ofString, String.toList_ofList, Utf8.encode, List.length_flatMap, List.map_replicate,
    one, List.sum_replicate_nat, Nat.mul_one]

theorem decodeAll_mixedItems :
    (∀ item ∈ mixedItems, item.Admissible) ∧
      decodeAll (mixedItems.flatMap Item.bytes) =
        ⟨[⟨22, Utf8.ofString "Content-Length: 1\r\n\r\n"⟩, ⟨21, []⟩], none, []⟩ ∧
      ∃ body : String, (Utf8.ofString body).length = maxBody + 1 ∧
        decodeAll (encode body) = ⟨[], some (maxBody + 1), encode body⟩ := by
  refine ⟨mixedItems_admissible, (decodeAll_items mixedItems mixedItems_admissible).1, ?_⟩
  obtain ⟨body, long⟩ : ∃ body : String, (Utf8.ofString body).length = maxBody + 1 :=
    ⟨_, length_ofString_replicate (maxBody + 1)⟩
  have above : maxBody < (Utf8.ofString body).length := by
    rw [long]
    exact Nat.lt_succ_self maxBody
  have below : (Utf8.ofString body).length < Text.wordBound := by
    rw [long]
    decide
  have refused := ((decodeAll_items mixedItems mixedItems_admissible).2 body above below).1
  rw [long] at refused
  exact ⟨body, long, refused⟩

end NotebookKernel.Frame
