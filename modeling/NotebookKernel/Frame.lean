import NotebookKernel.Fault
import NotebookKernel.Text.Lines
import NotebookKernel.Text.Numeral
import NotebookKernel.Text.Search
import NotebookKernel.Text.Utf8

/-!
# Frames

Messages travel in frames: a header block of lines closed by an empty line, then a body whose
length in bytes the header gives. A block that gives no length is dropped. A length above the limit
is fatal, because the body behind it cannot be skipped safely.
-/

set_option autoImplicit false

namespace NotebookKernel

/-- A message as it was framed: the length of its header block and its body. -/
structure Frame where
  headerLength : Nat
  body : Bytes
deriving DecidableEq, Repr

namespace Frame

/-- The greatest length of a body, in bytes. -/
def maxBody : Nat := 100 * 1024 * 1024

def encode (body : String) : Bytes :=
  let bytes := Utf8.ofString body
  Utf8.ofString ("Content-Length: " ++ toString bytes.length ++ "\r\n\r\n") ++ bytes

def crlfEnd : Bytes := [13, 10, 13, 10]

def lfEnd : Bytes := [10, 10]

/-- Where a header block ends, the front of the buffer being at `offset`: its length without the
empty line, and the length of that line. -/
def headerEndFrom (offset : Nat) : Bytes → Option (Nat × Nat)
  | [] => none
  | b :: rest =>
    if crlfEnd.isPrefixOf (b :: rest) then some (offset, 4)
    else if lfEnd.isPrefixOf (b :: rest) then some (offset, 2)
    else headerEndFrom (offset + 1) rest

/-- Where the header block at the front of a buffer ends: at the first empty line, in either of its
two forms. -/
def headerEnd? (buffer : Bytes) : Option (Nat × Nat) :=
  headerEndFrom 0 buffer

def isLengthKey (key : List Char) : Bool :=
  key.map Char.toLower == "content-length".toList

def lengthOfLine? (line : List Char) : Option Nat :=
  match line.dropWhile (· != ':') with
  | [] => none
  | _ :: value =>
    if isLengthKey (Text.trim (line.takeWhile (· != ':'))) then
      Text.readNumeral? Text.wordBound (Text.trim value)
    else none

def contentLength? (header : List Char) : Option Nat :=
  ((Text.lines header).filterMap lengthOfLine?).getLast?

def lengthOfHeader? (header : Bytes) : Option Nat :=
  (Utf8.decode? header).bind contentLength?

/-- What the front of a buffer holds. -/
inductive Front where
  /-- No whole frame yet. -/
  | waiting
  | frame (frame : Frame)
  /-- A frame whose body has this many bytes, more than the limit. -/
  | oversized (size : Nat)
deriving DecidableEq, Repr

/-- A buffer after one attempt to decode a frame: the header blocks dropped before it, what was
found, and what is left. -/
structure Decoded where
  dropped : Bytes
  front : Front
  rest : Bytes
deriving DecidableEq, Repr

theorem headerEndFrom_bounds {offset stop close : Nat} {buffer : Bytes}
    (h : headerEndFrom offset buffer = some (stop, close)) :
    0 < close ∧ stop < offset + buffer.length := by
  induction buffer generalizing offset with
  | nil => simp [headerEndFrom] at h
  | cons b rest ih =>
    unfold headerEndFrom at h
    simp only [List.length_cons]
    split at h
    · simp_all; omega
    · split at h
      · simp_all; omega
      · have := ih h
        omega

theorem length_sub_lt {buffer : Bytes} {stop close : Nat}
    (h : headerEnd? buffer = some (stop, close)) :
    buffer.length - (stop + close) < buffer.length := by
  have := headerEndFrom_bounds h
  omega

/-- Takes the next frame off a buffer, after the header blocks `dropped` so far. -/
def decodeFrom (dropped buffer : Bytes) : Decoded :=
  match found : headerEnd? buffer with
  | none => ⟨dropped, .waiting, buffer⟩
  | some (stop, close) =>
    have _shorter := length_sub_lt found
    match lengthOfHeader? (buffer.take stop) with
    | none =>
      decodeFrom (dropped ++ buffer.take (stop + close)) (buffer.drop (stop + close))
    | some size =>
      if maxBody < size then ⟨dropped, .oversized size, buffer⟩
      else
        let after := buffer.drop (stop + close)
        let body := after.take size
        if body.length < size then ⟨dropped, .waiting, buffer⟩
        else ⟨dropped, .frame ⟨stop + close, body⟩, after.drop size⟩
termination_by buffer.length

/-- Takes the next frame off a buffer. -/
def decode (buffer : Bytes) : Decoded :=
  decodeFrom [] buffer

theorem length_rest_lt {dropped buffer : Bytes} {frame : Frame}
    (h : (decodeFrom dropped buffer).front = .frame frame) :
    (decodeFrom dropped buffer).rest.length < buffer.length := by
  fun_induction decodeFrom dropped buffer with
  | case1 => simp at h
  | case2 dropped buffer stop close found shorter _ ih =>
    have := ih h
    simp only [List.length_drop] at this
    omega
  | case3 => simp at h
  | case4 => simp at h
  | case5 dropped buffer stop close found shorter size _ _ after =>
    simp only [after, List.length_drop]
    omega

/-- The frames of a buffer: those that are whole, in order, the length of a body that is too long,
if that ended the decoding, and what is left. -/
structure Batch where
  frames : List Frame
  oversized : Option Nat
  rest : Bytes

/-- Takes frames off a buffer for as long as there are; `done` holds those taken so far, the last
one first. -/
def decodeOnto (done : List Frame) (buffer : Bytes) : Batch :=
  match taken : decode buffer with
  | ⟨_, .waiting, rest⟩ => ⟨done.reverse, none, rest⟩
  | ⟨_, .oversized size, rest⟩ => ⟨done.reverse, some size, rest⟩
  | ⟨_, .frame frame, rest⟩ =>
    have _shorter : rest.length < buffer.length := by
      have := @length_rest_lt [] buffer frame
      unfold decode at taken
      simp_all
    decodeOnto (frame :: done) rest
termination_by buffer.length

def decodeAll (buffer : Bytes) : Batch :=
  decodeOnto [] buffer

def oversizedFault (size : Nat) : Fault :=
  .protocolParse (.oversized size maxBody)

end Frame

end NotebookKernel
