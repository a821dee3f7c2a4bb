import NotebookKernel.Proofs.Frame.Segmentation

/-!
# Chunking

A stream arrives in chunks. Each chunk is appended to what is left of those before it, and frames
are taken off for as long as there are. Where the stream was cut makes no difference to the frames,
to whether the decoding fails, or to the bytes that are left.
-/

set_option autoImplicit false

namespace NotebookKernel.Frame

/-- What has come of the chunks so far: the frames, the length that was above the limit, if there
was one, and the bytes that are left. -/
structure Reception where
  frames : List Frame
  failure : Option Nat
  buffer : Bytes

def Reception.receive (reception : Reception) (chunk : Bytes) : Reception :=
  let batch := decodeAll (reception.buffer ++ chunk)
  { frames := reception.frames ++ batch.frames
    failure := reception.failure.or batch.oversized
    buffer := batch.rest }

def receiveAll (chunks : List Bytes) : Reception :=
  chunks.foldl Reception.receive ⟨[], none, []⟩

private theorem stalled_append {buffer : Bytes} {size : Nat} (h : Stalled buffer (some size))
    (more : Bytes) : Stalled (buffer ++ more) (some size) := by
  cases h with
  | oversized rest header given long =>
    rw [List.append_assoc]
    exact .oversized (rest ++ more) header given long

/-- A reception agrees with the segments of the stream that has arrived. -/
def Reception.Agrees (reception : Reception) (stream : Bytes) : Prop :=
  ∃ segments, Segmented stream segments reception.failure reception.buffer ∧
    segments.filterMap Segment.frame? = reception.frames

private theorem agrees_receive {reception : Reception} {stream : Bytes}
    (h : reception.Agrees stream) (chunk : Bytes) :
    (reception.receive chunk).Agrees (stream ++ chunk) := by
  obtain ⟨frames, failure, buffer⟩ := reception
  obtain ⟨segments, ⟨rfl, valid, stalled⟩, rfl⟩ := h
  obtain ⟨later, oversized, rest, segmented, failed⟩ : ∃ later oversized rest,
      Segmented (buffer ++ chunk) later oversized rest ∧ failure.or oversized = oversized := by
    cases failure with
    | none =>
      obtain ⟨later, oversized, rest, segmented⟩ := exists_segmented (buffer ++ chunk)
      exact ⟨later, oversized, rest, segmented, rfl⟩
    | some size =>
      exact ⟨[], some size, buffer ++ chunk, ⟨rfl, by simp, stalled_append stalled chunk⟩, rfl⟩
  refine ⟨segments ++ later, ?_, ?_⟩
  · simp only [Reception.receive, decodeAll_segmented segmented, failed]
    refine ⟨?_, ?_, segmented.stalled⟩
    · rw [List.flatMap_append, List.append_assoc, segmented.whole, List.append_assoc]
    · intro segment member
      rcases List.mem_append.mp member with member | member
      · exact valid segment member
      · exact segmented.valid segment member
  · simp only [Reception.receive, decodeAll_segmented segmented, List.filterMap_append]

private theorem agrees_foldl (chunks : List Bytes) {reception : Reception} {stream : Bytes}
    (h : reception.Agrees stream) :
    (chunks.foldl Reception.receive reception).Agrees (stream ++ chunks.flatten) := by
  induction chunks generalizing reception stream with
  | nil => simpa using h
  | cons chunk chunks ih =>
    rw [List.foldl_cons, List.flatten_cons, ← List.append_assoc]
    exact ih (agrees_receive h chunk)

theorem agrees_receiveAll (chunks : List Bytes) : (receiveAll chunks).Agrees chunks.flatten := by
  have fresh : Reception.Agrees ⟨[], none, []⟩ [] := ⟨[], ⟨rfl, by simp, .header rfl⟩, rfl⟩
  exact agrees_foldl chunks fresh

theorem Reception.Agrees.eq_decodeAll {reception : Reception} {stream : Bytes}
    (h : reception.Agrees stream) :
    reception = ⟨(decodeAll stream).frames, (decodeAll stream).oversized,
      (decodeAll stream).rest⟩ := by
  obtain ⟨segments, segmented, frames⟩ := h
  rw [decodeAll_segmented segmented, frames]

theorem decodeAll_append (stream more : Bytes) :
    decodeAll (stream ++ more) =
      ⟨(decodeAll stream).frames ++ (decodeAll ((decodeAll stream).rest ++ more)).frames,
        (decodeAll stream).oversized.or (decodeAll ((decodeAll stream).rest ++ more)).oversized,
        (decodeAll ((decodeAll stream).rest ++ more)).rest⟩ := by
  have both := (agrees_receiveAll [stream, more]).eq_decodeAll
  have joined : [stream, more].flatten = stream ++ more := by simp
  rw [joined] at both
  have stepwise : receiveAll [stream, more] =
      ⟨(decodeAll stream).frames ++ (decodeAll ((decodeAll stream).rest ++ more)).frames,
        (decodeAll stream).oversized.or (decodeAll ((decodeAll stream).rest ++ more)).oversized,
        (decodeAll ((decodeAll stream).rest ++ more)).rest⟩ := by
    simp [receiveAll, Reception.receive]
  rw [stepwise, Reception.mk.injEq] at both
  obtain ⟨frames, oversized, rest⟩ := both
  rw [frames, oversized, rest]

/-- Where the decoding has stopped there is nothing to take off, and after a failure there never
will be. -/
theorem decodeAll_rest (stream : Bytes) :
    (decodeAll (decodeAll stream).rest).frames = [] ∧
      ∀ size, (decodeAll stream).oversized = some size →
        ∀ more, (decodeAll ((decodeAll stream).rest ++ more)).frames = [] := by
  obtain ⟨segments, oversized, rest, segmented⟩ := exists_segmented stream
  rw [decodeAll_segmented segmented]
  refine ⟨?_, ?_⟩
  · have still : Segmented rest [] oversized rest := ⟨rfl, by simp, segmented.stalled⟩
    rw [decodeAll_segmented still]
    rfl
  · rintro size rfl more
    have still : Segmented (rest ++ more) [] (some size) (rest ++ more) :=
      ⟨rfl, by simp, stalled_append segmented.stalled more⟩
    rw [decodeAll_segmented still]
    rfl

theorem decode_after_oversized {buffer : Bytes} {size : Nat}
    (h : (decode buffer).front = .oversized size) (more : Bytes) :
    decode ((decode buffer).rest ++ more) =
      ⟨[], .oversized size, (decode buffer).rest ++ more⟩ := by
  exact decodeFrom_stalled (stalled_append (stalled_of_oversized h) more) []

/-- However a stream is cut, the same frames are taken off it, the decoding fails or does not, and
the same bytes are left. The segments and what is left join to the stream. A decoder that has
failed fails again on whatever arrives. -/
theorem receiveAll_cut (chunks : List Bytes) :
    receiveAll chunks = receiveAll [chunks.flatten] ∧
      (∃ segments : List Segment,
        Segmented chunks.flatten segments (receiveAll chunks).failure (receiveAll chunks).buffer ∧
          segments.filterMap Segment.frame? = (receiveAll chunks).frames) ∧
      ∀ (buffer : Bytes) (size : Nat), (decode buffer).front = .oversized size → ∀ more : Bytes,
        decode ((decode buffer).rest ++ more) =
          ⟨[], .oversized size, (decode buffer).rest ++ more⟩ := by
  refine ⟨?_, agrees_receiveAll chunks, fun _ _ failed more => decode_after_oversized failed more⟩
  have whole := (agrees_receiveAll [chunks.flatten]).eq_decodeAll
  rw [List.flatten_singleton] at whole
  exact (agrees_receiveAll chunks).eq_decodeAll.trans whole.symm

end NotebookKernel.Frame
