import NotebookKernel.Language.Client
import NotebookKernel.Proofs.Frame.Chunking
import NotebookKernel.Proofs.Frame.Header
import NotebookKernel.Proofs.Rpc.Routing

/-!
# Reading to the end

A client hears its server in chunks until the output ends. What becomes of its requests follows
from the segments of the whole stream: the messages among the frames are dispatched in order, and
then whoever still waits is rejected. Frames that hold no message and header blocks without a
length might as well not be there.
-/

set_option autoImplicit false

namespace NotebookKernel.Frame.Segment

def message? (segment : Segment) : Option Rpc.Message :=
  segment.frame?.bind fun frame => Rpc.Message.ofBytes? frame.body

end NotebookKernel.Frame.Segment

namespace NotebookKernel.Language.Client

open NotebookKernel.Frame NotebookKernel.Rpc

def readAll (client : Client) (chunks : List Bytes) : Client :=
  (chunks.foldl hear client).closeOutput

def dispatchSegments (correlator : Correlator) (segments : List Segment) : Correlator :=
  (segments.filterMap Segment.message?).foldl (fun c m => (c.dispatch m).2) correlator

private theorem dispatchAll_append (correlator : Correlator) (first second : List Frame) :
    dispatchAll correlator (first ++ second) = dispatchAll (dispatchAll correlator first) second :=
  List.foldl_append

private theorem dispatchAll_segments (correlator : Correlator) (segments : List Segment) :
    dispatchAll correlator (segments.filterMap Segment.frame?) =
      dispatchSegments correlator segments := by
  induction segments generalizing correlator with
  | nil => rfl
  | cons segment segments ih =>
    unfold dispatchSegments at ih ⊢
    cases framed : segment.frame? with
    | none =>
      have silent : segment.message? = none := by rw [Segment.message?, framed, Option.bind_none]
      rw [List.filterMap_cons_none framed, List.filterMap_cons_none silent]
      exact ih correlator
    | some frame =>
      have same : segment.message? = Message.ofBytes? frame.body := by
        rw [Segment.message?, framed, Option.bind_some]
      rw [List.filterMap_cons_some framed]
      have first : dispatchAll correlator (frame :: segments.filterMap Segment.frame?) =
          dispatchAll (correlator.dispatchPayload frame.body).2
            (segments.filterMap Segment.frame?) := rfl
      rw [first, ih]
      cases parsed : Message.ofBytes? frame.body with
      | none =>
        rw [correlator.dispatchPayload_of_none parsed,
          List.filterMap_cons_none (same.trans parsed)]
      | some m =>
        rw [correlator.dispatchPayload_of_message parsed,
          List.filterMap_cons_some (same.trans parsed), List.foldl_cons]

private theorem foldl_hear_closed {client : Client} (closed : client.reading = false)
    (chunks : List Bytes) : chunks.foldl hear client = client := by
  induction chunks with
  | nil => rfl
  | cons chunk chunks ih =>
    have deaf : client.hear chunk = client := by
      rw [hear, closed]
      rfl
    rw [List.foldl_cons, deaf, ih]

private theorem closeOutput_reading {client : Client} (reading : client.reading = true) :
    client.closeOutput.correlator =
        (client.correlator.rejectAll "language server output closed").2 ∧
      client.closeOutput.reading = false := by
  rw [closeOutput, reading]
  exact ⟨rfl, rfl⟩

private theorem hear_reading {client : Client} (reading : client.reading = true) (chunk : Bytes) :
    let batch := decodeAll (client.buffer ++ chunk)
    let dispatched := dispatchAll client.correlator batch.frames
    (batch.oversized = none → (client.hear chunk).reading = true ∧
      (client.hear chunk).buffer = batch.rest ∧ (client.hear chunk).correlator = dispatched) ∧
    (batch.oversized.isSome → (client.hear chunk).reading = false ∧
      (client.hear chunk).correlator =
        (dispatched.rejectAll "language server output closed").2) := by
  intro batch dispatched
  have heard : client.hear chunk =
      if batch.oversized.isSome then
        closeOutput { client with correlator := dispatched, buffer := batch.rest }
      else { client with correlator := dispatched, buffer := batch.rest } := by
    rw [hear, reading]
    rfl
  refine ⟨?_, ?_⟩
  · intro fits
    rw [heard, fits]
    exact ⟨reading, rfl, rfl⟩
  · intro long
    rw [heard, if_pos long]
    have ended := @closeOutput_reading
      { client with correlator := dispatched, buffer := batch.rest } reading
    exact ⟨ended.2, ended.1⟩

/-- The induction is on the chunks; a buffer from which nothing can be taken is what each leaves. -/
private theorem correlator_readAll {client : Client} (reading : client.reading = true)
    (idle : (decodeAll client.buffer).frames = []) (chunks : List Bytes) :
    (client.readAll chunks).correlator =
      ((dispatchAll client.correlator (decodeAll (client.buffer ++ chunks.flatten)).frames).rejectAll
        "language server output closed").2 := by
  induction chunks generalizing client with
  | nil =>
    rw [List.flatten_nil, List.append_nil, idle]
    exact (closeOutput_reading reading).1
  | cons chunk chunks ih =>
    have step : client.readAll (chunk :: chunks) = (client.hear chunk).readAll chunks := rfl
    have joined := decodeAll_append (client.buffer ++ chunk) chunks.flatten
    obtain ⟨empty, stuck⟩ := decodeAll_rest (client.buffer ++ chunk)
    obtain ⟨goesOn, ends⟩ := hear_reading reading chunk
    rw [step, List.flatten_cons, ← List.append_assoc, joined]
    cases long : (decodeAll (client.buffer ++ chunk)).oversized with
    | none =>
      obtain ⟨still, buffer, correlator⟩ := goesOn long
      rw [ih still (by rw [buffer]; exact empty), buffer, correlator, dispatchAll_append]
    | some size =>
      obtain ⟨closed, correlator⟩ := ends (by rw [long]; rfl)
      have ended : (client.hear chunk).readAll chunks = client.hear chunk := by
        rw [readAll, foldl_hear_closed closed, closeOutput, closed]
        rfl
      rw [ended, correlator, stuck size long, List.append_nil]

/-- However the output of a server arrives and wherever it ends, the correlator of a client that
begins to read it comes to the state in which the messages among the frames before the first one
that is too long were dispatched in order, and then everybody was rejected. A segment that holds no
message makes no difference. -/
theorem readAll_dispatches (client : Client) (reading : client.reading = true)
    (fresh : client.buffer = []) (chunks : List Bytes) :
    (∃ segments oversized rest, Segmented chunks.flatten segments oversized rest) ∧
      ∀ segments oversized rest, Segmented chunks.flatten segments oversized rest →
        (client.readAll chunks).correlator =
            ((dispatchSegments client.correlator segments).rejectAll
              "language server output closed").2 ∧
          ∀ before junk after, segments = before ++ junk :: after → junk.message? = none →
            ∀ others : List Bytes,
              others.flatten = (before ++ after).flatMap Segment.bytes ++ rest →
              (client.readAll others).correlator = (client.readAll chunks).correlator := by
  have idle : (decodeAll client.buffer).frames = [] := by
    have nothing : Segmented [] [] none [] := ⟨rfl, by simp, .header rfl⟩
    rw [fresh, decodeAll_segmented nothing]
    rfl
  have read : ∀ (chunks : List Bytes) segments oversized rest,
      Segmented chunks.flatten segments oversized rest →
      (client.readAll chunks).correlator =
        ((dispatchSegments client.correlator segments).rejectAll
          "language server output closed").2 := by
    intro chunks segments oversized rest segmented
    rw [correlator_readAll reading idle, fresh, List.nil_append, decodeAll_segmented segmented,
      dispatchAll_segments]
  refine ⟨exists_segmented chunks.flatten, ?_⟩
  intro segments oversized rest segmented
  refine ⟨read chunks segments oversized rest segmented, ?_⟩
  rintro before junk after rfl silent others same
  have shorter : Segmented others.flatten (before ++ after) oversized rest := by
    refine ⟨same.symm, ?_, segmented.stalled⟩
    intro segment member
    refine segmented.valid segment ?_
    rcases List.mem_append.mp member with early | late
    · exact List.mem_append_left _ early
    · exact List.mem_append_right _ (List.mem_cons_of_mem _ late)
  have messages : (before ++ junk :: after).filterMap Segment.message? =
      (before ++ after).filterMap Segment.message? := by
    rw [List.filterMap_append, List.filterMap_append, List.filterMap_cons_none silent]
  rw [read others _ _ _ shorter, read chunks _ _ _ segmented, dispatchSegments, dispatchSegments,
    messages]

def waitingClient : Client :=
  ⟨(Correlator.new.request "initialize" .null).2, true, [], [], true, .waiting 1, none, []⟩

/-- A header block without a length, the response `[null,1]`, and a frame that holds no message. -/
def mixedSegments : List Segment :=
  [.dropped (Utf8.ofString "X: 1") lfEnd,
    .framed (Utf8.ofString "Content-Length: 8") crlfEnd [91, 110, 117, 108, 108, 44, 49, 93],
    .framed (Utf8.ofString "Content-Length: 1") lfEnd [123]]

def longHeader : Bytes :=
  Utf8.ofString "Content-Length: 999999999" ++ lfEnd

private theorem segmented_mixedSegments (tail : Bytes) :
    Segmented (mixedSegments.flatMap Segment.bytes ++ (longHeader ++ tail)) mixedSegments
      (some 999999999) (longHeader ++ tail) := by
  refine ⟨rfl, ?_, ?_⟩
  · intro segment member
    simp only [mixedSegments, List.mem_cons, List.not_mem_nil, or_false] at member
    rcases member with rfl | rfl | rfl
    · exact ⟨isHeader_of_unbroken (by decide) (by decide) (Or.inr rfl), by decide⟩
    · exact ⟨isHeader_of_unbroken (by decide) (by decide) (Or.inl rfl), by decide, by decide⟩
    · exact ⟨isHeader_of_unbroken (by decide) (by decide) (Or.inr rfl), by decide, by decide⟩
  · have header : IsHeader (Utf8.ofString "Content-Length: 999999999") lfEnd :=
      isHeader_of_unbroken (by decide) (by decide) (Or.inr rfl)
    exact .oversized tail header (by decide) (by decide)

/-- The reading ends at the long frame, and by then request 1 has its answer. -/
theorem readAll_mixedSegments :
    waitingClient.reading = true ∧ waitingClient.buffer = [] ∧
      (waitingClient.readAll
          [mixedSegments.flatMap Segment.bytes, longHeader, [91, 93]]).correlator =
        ((waitingClient.correlator.dispatch ⟨none, some (.nat 1), none, none, none, none⟩).2.rejectAll
          "language server output closed").2 := by
  have segmented : Segmented [mixedSegments.flatMap Segment.bytes, longHeader, [91, 93]].flatten
      mixedSegments (some 999999999) (longHeader ++ [91, 93]) :=
    segmented_mixedSegments [91, 93]
  exact ⟨rfl, rfl, ((readAll_dispatches waitingClient rfl rfl _).2 _ _ _ segmented).1⟩

end NotebookKernel.Language.Client
