import NotebookKernel.Text.Search
import NotebookKernel.Text.Utf8

/-!
# Sentinel scanner

The interpreter frames nothing, so a program ends its output with a marker. The scanner gathers
output until the marker has arrived, however the bytes were cut. Only the bytes that could begin a
marker with what arrives next are looked at again.
-/

set_option autoImplicit false

namespace NotebookKernel

/-- Output gathered so far and where the sentinel was first found in it. -/
structure Scanner where
  sentinel : Bytes
  buffer : Array UInt8
  foundAt : Option Nat

namespace Scanner

def new (sentinel : String) : Scanner :=
  ⟨Utf8.ofString sentinel, #[], none⟩

def isFound (s : Scanner) : Bool :=
  s.foundAt.isSome

def buffered (s : Scanner) : Nat :=
  s.buffer.size

/-- Gathers a chunk. The search starts where a sentinel that this chunk completes could begin; an
empty sentinel is never found. -/
def push : Scanner → Bytes → Scanner
  | ⟨sentinel, buffer, some index⟩, chunk => ⟨sentinel, buffer ++ chunk, some index⟩
  | ⟨sentinel, buffer, none⟩, chunk =>
    let start := buffer.size - (sentinel.length - 1)
    let buffer := buffer ++ chunk
    let index :=
      if sentinel.isEmpty then none
      else Search.firstIndexFrom sentinel start (buffer.extract start buffer.size).toList
    ⟨sentinel, buffer, index⟩

/-- The text before the sentinel, and the scanner with nothing gathered. A scanner that has not
found the sentinel is left alone. -/
def take (s : Scanner) : Option String × Scanner :=
  match s.foundAt with
  | some index =>
    (some (String.ofList (Utf8.decodeLossy (s.buffer.extract 0 index).toList)),
      ⟨s.sentinel, #[], none⟩)
  | none => (none, s)

end Scanner

end NotebookKernel
