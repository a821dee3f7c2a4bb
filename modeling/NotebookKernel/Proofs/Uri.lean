import Mathlib.Data.List.Forall2
import NotebookKernel.Proofs.FileTree.Location
import NotebookKernel.Uri

/-!
# What file URIs spell

A URI spells the bytes of each part of a path behind a slash of its own: a printable ASCII character
without a meaning in URIs stands for its byte, and every other byte is a percent sign with two
hexadecimal digits. The URI of a path ends in the name that the path ends in, where the name is
plain.
-/

set_option autoImplicit false

namespace NotebookKernel.Uri

/-- A byte is a printable ASCII character, none of those that have a meaning in URIs. -/
def Unreserved (b : UInt8) : Prop :=
  0x20 < b.toNat ∧ b.toNat < 0x7F ∧ ∀ c ∈ "\"#%/<>?\\`\x7b\x7d".toList, c.toNat ≠ b.toNat

inductive Spells : List Char → Bytes → Prop
  | nil : Spells [] []
  | literal {c : Char} {b : UInt8} {text : List Char} {bytes : Bytes} (unreserved : Unreserved b)
      (same : c.toNat = b.toNat) (rest : Spells text bytes) : Spells (c :: text) (b :: bytes)
  | encoded {high low : Char} {b : UInt8} {text : List Char} {bytes : Bytes}
      (reserved : ¬ Unreserved b)
      (first : "0123456789ABCDEF".toList[b.toNat / 16]? = some high)
      (second : "0123456789ABCDEF".toList[b.toNat % 16]? = some low) (rest : Spells text bytes) :
    Spells ('%' :: high :: low :: text) (b :: bytes)

/-- The URI of a file: the scheme, then each part of the path behind a slash; for the root the slash
alone. -/
def IsFileUri (path uri : String) : Prop :=
  ∃ parts, List.Forall₂ (fun text part => Spells text (Utf8.ofString part)) parts
      (Path.components path) ∧
    uri.toList = "file://".toList ++ if parts = [] then ['/'] else parts.flatMap ('/' :: ·)

theorem isLiteral_iff {b : UInt8} : isLiteral b = true ↔ Unreserved b := by
  rw [isLiteral, Unreserved]
  simp [and_assoc]

private theorem getElem?_hexDigit {n : Nat} (small : n < 16) :
    "0123456789ABCDEF".toList[n]? = some (hexDigit n) := by
  have all : (List.range 16).all (fun n =>
      decide ("0123456789ABCDEF".toList[n]? = some (hexDigit n))) = true := by decide +kernel
  simp only [List.all_eq_true, List.mem_range, decide_eq_true_eq] at all
  exact all n small

theorem spells_flatMap_encodeByte (bytes : Bytes) : Spells (bytes.flatMap encodeByte) bytes := by
  induction bytes with
  | nil => exact .nil
  | cons b bytes ih =>
    rw [List.flatMap_cons]
    by_cases literal : isLiteral b = true
    · rw [encodeByte, if_pos literal]
      have unreserved := isLiteral_iff.mp literal
      obtain ⟨-, high, -⟩ := id unreserved
      have valid : b.toNat.isValidChar := Or.inl (by omega)
      have same : (Char.ofNat b.toNat).toNat = b.toNat := by
        rw [Char.ofNat, dif_pos valid]
        rfl
      exact .literal unreserved same ih
    · rw [encodeByte, if_neg literal]
      have size := b.toNat_lt
      exact .encoded (fun unreserved => literal (isLiteral_iff.mpr unreserved))
        (getElem?_hexDigit (by omega)) (getElem?_hexDigit (by omega)) ih

private theorem toList_intercalate_slash (parts : List String) (some : parts ≠ []) :
    ("/" ++ "/".intercalate parts).toList = parts.flatMap fun part => '/' :: part.toList := by
  induction parts with
  | nil => exact absurd rfl some
  | cons part parts ih =>
    cases parts with
    | nil => simp
    | cons next parts =>
      have split : "/".intercalate (part :: next :: parts) =
          part ++ "/" ++ "/".intercalate (next :: parts) := by
        rw [← List.singleton_append, String.intercalate_append_of_ne_nil (List.cons_ne_nil _ _)
          (List.cons_ne_nil _ _), String.intercalate_singleton]
      have rest := ih (List.cons_ne_nil _ _)
      rw [split, String.append_assoc, ← String.append_assoc, String.toList_append, rest]
      simp

theorem isFileUri_ofAbsolute (path : String) : IsFileUri path (ofAbsolute path) := by
  refine ⟨(Path.components path).map fun part => (encodePart part).toList, ?_, ?_⟩
  · rw [List.forall₂_map_left_iff, List.forall₂_same]
    intro part _
    rw [encodePart, String.toList_ofList]
    exact spells_flatMap_encodeByte _
  · rw [ofAbsolute, String.toList_append, Path.ofParts]
    congr 1
    by_cases root : Path.components path = []
    · simp [root]
    · rw [toList_intercalate_slash _ (by simpa using root), if_neg (by simpa using root),
        List.flatMap_map, List.flatMap_map]

theorem encodePart_of_literal {part : String}
    (plain : ∀ c ∈ part.toList, c.toNat < 0x80 ∧ isLiteral c.toNat.toUInt8 = true) :
    encodePart part = part := by
  have each : ∀ text : List Char,
      (∀ c ∈ text, c.toNat < 0x80 ∧ isLiteral c.toNat.toUInt8 = true) →
        (Utf8.encode text).flatMap encodeByte = text := by
    intro text
    induction text with
    | nil => exact fun _ => rfl
    | cons c text ih =>
      intro plain
      obtain ⟨ascii, literal⟩ := plain c List.mem_cons_self
      have value : c.toNat.toUInt8.toNat = c.toNat := by
        rw [Nat.toUInt8, UInt8.toNat_ofNat']
        omega
      have here : encodeByte c.toNat.toUInt8 = [c] := by
        rw [encodeByte, if_pos literal, value, Char.ofNat_toNat]
      rw [Utf8.encode_cons_of_ascii ascii, List.flatMap_cons, here,
        ih fun d member => plain d (List.mem_cons_of_mem _ member)]
      rfl
  rw [encodePart, Utf8.ofString, each _ plain, String.ofList_toList]

theorem getLast?_segments_ofPath {cwd path name : String} (plain : Path.isPlainName name = true)
    (ends : (Path.segments path).getLast? = some name) (literal : encodePart name = name) :
    (Path.segments (ofPath cwd path)).getLast? = some name := by
  obtain ⟨nonempty, other, -, -⟩ := Path.isPlainName_iff.mp plain
  rw [← Path.getLast?_segments_join cwd path] at ends
  obtain ⟨front, split⟩ := List.getLast?_eq_some_iff.mp ends
  have parts : ∃ before,
      (Path.components (Path.join cwd path)).map encodePart = before ++ [name] := by
    refine ⟨(front.filter fun s => s != "" && s != ".").map encodePart, ?_⟩
    rw [Path.components, split, List.filter_append, List.map_append]
    simp [nonempty, other, literal]
  obtain ⟨before, parts⟩ := parts
  have closed : ∃ opening, ofPath cwd path = opening ++ "/" ++ name := by
    rw [ofPath, ofAbsolute, parts, Path.ofParts]
    cases before with
    | nil =>
      refine ⟨"file://", ?_⟩
      rw [List.nil_append, String.intercalate_singleton, String.append_assoc]
    | cons part before =>
      refine ⟨"file://" ++ ("/" ++ "/".intercalate (part :: before)), ?_⟩
      rw [String.intercalate_append_of_ne_nil (List.cons_ne_nil _ _) (List.cons_ne_nil _ _),
        String.intercalate_singleton]
      simp only [String.append_assoc]
  obtain ⟨opening, closed⟩ := closed
  rw [closed, Path.segments_append, Path.segments_of_isPlainName plain, List.getLast?_concat]

end NotebookKernel.Uri
