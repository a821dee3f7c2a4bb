import NotebookKernel.Path

/-!
# File URIs

The URI of a file names the parts of its absolute path. Bytes that have a meaning in URIs, and all
that are not printable ASCII, are percent-encoded.
-/

set_option autoImplicit false

namespace NotebookKernel.Uri

/-- Whether a byte of a path part stands for itself. -/
def isLiteral (b : UInt8) : Bool :=
  let n := b.toNat
  0x20 < n && n < 0x7F && !("\"#%/<>?\\`\x7b\x7d".toList.any fun c => c.toNat == n)

def hexDigit (n : Nat) : Char :=
  if n < 10 then Char.ofNat (48 + n) else Char.ofNat (55 + n)

def encodeByte (b : UInt8) : List Char :=
  if isLiteral b then [Char.ofNat b.toNat]
  else ['%', hexDigit (b.toNat / 16), hexDigit (b.toNat % 16)]

def encodePart (part : String) : String :=
  String.ofList ((Utf8.ofString part).flatMap encodeByte)

def ofAbsolute (path : String) : String :=
  "file://" ++ Path.ofParts ((Path.components path).map encodePart)

/-- The URI of a path; a relative one is taken from the directory `cwd`. -/
def ofPath (cwd path : String) : String :=
  ofAbsolute (Path.join cwd path)

end NotebookKernel.Uri
