import Mathlib.Tactic.SplitIfs
import NotebookKernel.Proofs.Text.Search
import NotebookKernel.Text.Utf8

/-!
# UTF-8 read back

The strict reader accepts the bytes of every text and gives that text, and accepts nothing else: it
is the inverse of the writer. So well-formed bytes are those that some text has. A word is found in
the bytes of a text where it is found in the text.
-/

set_option autoImplicit false

namespace NotebookKernel.Utf8

theorem encode_append (a b : List Char) : encode (a ++ b) = encode a ++ encode b :=
  List.flatMap_append

theorem ofString_append (a b : String) : ofString (a ++ b) = ofString a ++ ofString b := by
  rw [ofString, String.toList_append, encode_append, ofString, ofString]

private theorem toNat_byte {n : Nat} (h : n < 0x100) : n.toUInt8.toNat = n := by
  rw [Nat.toUInt8, UInt8.toNat_ofNat']
  exact Nat.mod_eq_of_lt h

private theorem scalar_bounds (c : Char) :
    c.toNat < 0xD800 ∨ 0xDFFF < c.toNat ∧ c.toNat < 0x110000 := by
  exact c.valid

private theorem not_ascii {n : Nat} (low : 0x80 ≤ n) (high : n < 0x100) :
    ¬ n.toUInt8.toNat < 0x80 := by
  rw [toNat_byte high]
  omega

theorem exists_char_of_mem_encode {text : List Char} {b : UInt8} (h : b ∈ encode text)
    (ascii : b.toNat < 0x80) : ∃ c ∈ text, c.toNat = b.toNat := by
  obtain ⟨c, member, found⟩ := List.mem_flatMap.mp h
  refine ⟨c, member, ?_⟩
  have bounds := scalar_bounds c
  rw [encodeChar] at found
  by_cases one : c.toNat < 0x80
  · rw [if_pos one] at found
    rw [List.mem_singleton.mp found, toNat_byte (by omega)]
  rw [if_neg one] at found
  by_cases two : c.toNat < 0x800
  · rw [if_pos two] at found
    simp only [List.mem_cons, List.not_mem_nil, or_false] at found
    rcases found with rfl | rfl
    all_goals exact absurd ascii (not_ascii (by omega) (by omega))
  rw [if_neg two] at found
  by_cases three : c.toNat < 0x10000
  · rw [if_pos three] at found
    simp only [List.mem_cons, List.not_mem_nil, or_false] at found
    rcases found with rfl | rfl | rfl
    all_goals exact absurd ascii (not_ascii (by omega) (by omega))
  · rw [if_neg three] at found
    simp only [List.mem_cons, List.not_mem_nil, or_false] at found
    rcases found with rfl | rfl | rfl | rfl
    all_goals exact absurd ascii (not_ascii (by omega) (by omega))

section Start

variable (items : List (Option Char)) {b : UInt8}

private theorem start_one (h : b.toNat < 0x80) :
    Progress.start items b = ⟨some (Char.ofNat b.toNat) :: items, none⟩ := by
  simp only [Progress.start, if_pos h]

private theorem start_two (low : 0xC2 ≤ b.toNat) (high : b.toNat < 0xE0) :
    Progress.start items b = ⟨items, some ⟨1, 0x80, 0xBF, b.toNat - 0xC0⟩⟩ := by
  have h1 : ¬ b.toNat < 0x80 := by omega
  have h2 : ¬ b.toNat < 0xC2 := by omega
  simp only [Progress.start, if_neg h1, if_neg h2, if_pos high]

private theorem start_three (low : 0xE0 ≤ b.toNat) (high : b.toNat < 0xF0) :
    Progress.start items b =
      ⟨items, some ⟨2, if b.toNat = 0xE0 then 0xA0 else 0x80,
        if b.toNat = 0xED then 0x9F else 0xBF, b.toNat - 0xE0⟩⟩ := by
  have h1 : ¬ b.toNat < 0x80 := by omega
  have h2 : ¬ b.toNat < 0xC2 := by omega
  have h3 : ¬ b.toNat < 0xE0 := by omega
  simp only [Progress.start, if_neg h1, if_neg h2, if_neg h3, if_pos high]

private theorem start_four (low : 0xF0 ≤ b.toNat) (high : b.toNat < 0xF5) :
    Progress.start items b =
      ⟨items, some ⟨3, if b.toNat = 0xF0 then 0x90 else 0x80,
        if b.toNat = 0xF4 then 0x8F else 0xBF, b.toNat - 0xF0⟩⟩ := by
  have h1 : ¬ b.toNat < 0x80 := by omega
  have h2 : ¬ b.toNat < 0xC2 := by omega
  have h3 : ¬ b.toNat < 0xE0 := by omega
  have h4 : ¬ b.toNat < 0xF0 := by omega
  simp only [Progress.start, if_neg h1, if_neg h2, if_neg h3, if_neg h4, if_pos high]

end Start

private theorem push_start (items : List (Option Char)) (b : UInt8) :
    Progress.push ⟨items, none⟩ b = Progress.start items b := rfl

def Partial.extend (p : Partial) (b : UInt8) : Nat :=
  p.value * 0x40 + (b.toNat - 0x80)

private theorem push_last {items : List (Option Char)} {p : Partial} {b : UInt8}
    (admits : p.low ≤ b.toNat ∧ b.toNat ≤ p.high) (last : p.owed ≤ 1) :
    Progress.push ⟨items, some p⟩ b = ⟨some (Char.ofNat (p.extend b)) :: items, none⟩ := by
  unfold Partial.extend
  simp [Progress.push, admits, last]

private theorem push_more {items : List (Option Char)} {p : Partial} {b : UInt8}
    (admits : p.low ≤ b.toNat ∧ b.toNat ≤ p.high) (more : ¬ p.owed ≤ 1) :
    Progress.push ⟨items, some p⟩ b = ⟨items, some ⟨p.owed - 1, 0x80, 0xBF, p.extend b⟩⟩ := by
  unfold Partial.extend
  simp [Progress.push, admits, more]

private theorem foldl_push_encodeChar (items : List (Option Char)) (c : Char) :
    (encodeChar c).foldl Progress.push ⟨items, none⟩ = ⟨some c :: items, none⟩ := by
  have bounds := scalar_bounds c
  have back : ∀ n, n = c.toNat → Char.ofNat n = c := by
    rintro _ rfl
    exact Char.ofNat_toNat c
  rw [encodeChar]
  generalize c.toNat = n at bounds back ⊢
  by_cases one : n < 0x80
  · have hb := toNat_byte (n := n) (by omega)
    rw [if_pos one, List.foldl_cons, List.foldl_nil, push_start, start_one items (by omega),
      back _ hb]
  rw [if_neg one]
  by_cases two : n < 0x800
  · have hb := toNat_byte (n := 0xC0 + n / 0x40) (by omega)
    have hd := toNat_byte (n := 0x80 + n % 0x40) (by omega)
    rw [if_pos two]
    simp only [List.foldl_cons, List.foldl_nil]
    generalize (0xC0 + n / 0x40).toUInt8 = b at hb ⊢
    generalize (0x80 + n % 0x40).toUInt8 = d at hd ⊢
    rw [push_start, start_two items (by omega) (by omega),
      push_last (by constructor <;> dsimp only <;> omega) (Nat.le_refl 1), back]
    unfold Partial.extend
    dsimp only
    omega
  rw [if_neg two]
  by_cases three : n < 0x10000
  · have hb := toNat_byte (n := 0xE0 + n / 0x1000) (by omega)
    have hd := toNat_byte (n := 0x80 + n / 0x40 % 0x40) (by omega)
    have he := toNat_byte (n := 0x80 + n % 0x40) (by omega)
    rw [if_pos three]
    simp only [List.foldl_cons, List.foldl_nil]
    generalize (0xE0 + n / 0x1000).toUInt8 = b at hb ⊢
    generalize (0x80 + n / 0x40 % 0x40).toUInt8 = d at hd ⊢
    generalize (0x80 + n % 0x40).toUInt8 = e at he ⊢
    rw [push_start, start_three items (by omega) (by omega),
      push_more (by constructor <;> dsimp only <;> split <;> omega) (by dsimp only; omega),
      push_last (by constructor <;> dsimp only <;> omega) (Nat.le_refl 1), back]
    unfold Partial.extend
    dsimp only
    omega
  · have hb := toNat_byte (n := 0xF0 + n / 0x40000) (by omega)
    have hd := toNat_byte (n := 0x80 + n / 0x1000 % 0x40) (by omega)
    have he := toNat_byte (n := 0x80 + n / 0x40 % 0x40) (by omega)
    have hf := toNat_byte (n := 0x80 + n % 0x40) (by omega)
    rw [if_neg three]
    simp only [List.foldl_cons, List.foldl_nil]
    generalize (0xF0 + n / 0x40000).toUInt8 = b at hb ⊢
    generalize (0x80 + n / 0x1000 % 0x40).toUInt8 = d at hd ⊢
    generalize (0x80 + n / 0x40 % 0x40).toUInt8 = e at he ⊢
    generalize (0x80 + n % 0x40).toUInt8 = f at hf ⊢
    rw [push_start, start_four items (by omega) (by omega),
      push_more (by constructor <;> dsimp only <;> split <;> omega) (by dsimp only; omega),
      push_more (by constructor <;> dsimp only <;> omega) (by dsimp only; omega),
      push_last (by constructor <;> dsimp only <;> omega) (Nat.le_refl 1), back]
    unfold Partial.extend
    dsimp only
    omega

private theorem foldl_push_encode (text : List Char) (items : List (Option Char)) :
    (encode text).foldl Progress.push ⟨items, none⟩ =
      ⟨(text.map some).reverse ++ items, none⟩ := by
  induction text generalizing items with
  | nil => rfl
  | cons c text ih =>
    have cut : encode (c :: text) = encodeChar c ++ encode text := List.flatMap_cons
    rw [cut, List.foldl_append, foldl_push_encodeChar, ih]
    simp

theorem scan_encode (text : List Char) : scan (encode text) = text.map some := by
  simp [scan, foldl_push_encode]

theorem decode?_encode (text : List Char) : decode? (encode text) = some text := by
  simp only [decode?, scan_encode]
  simp

private theorem start_items (items : List (Option Char)) (b : UInt8) :
    Progress.start items b =
      ⟨(Progress.start [] b).items ++ items, (Progress.start [] b).pending⟩ := by
  unfold Progress.start
  dsimp only
  split_ifs <;> rfl

private theorem push_items (items : List (Option Char)) (pending : Option Partial) (b : UInt8) :
    Progress.push ⟨items, pending⟩ b =
      ⟨(Progress.push ⟨[], pending⟩ b).items ++ items, (Progress.push ⟨[], pending⟩ b).pending⟩ := by
  cases pending with
  | none => exact start_items items b
  | some p =>
    simp only [Progress.push]
    split_ifs
    · rfl
    · rfl
    · rw [start_items (none :: items), start_items [none], List.append_assoc]
      rfl

private theorem foldl_push_items (bytes : Bytes) (items : List (Option Char))
    (pending : Option Partial) :
    bytes.foldl Progress.push ⟨items, pending⟩ =
      ⟨(bytes.foldl Progress.push ⟨[], pending⟩).items ++ items,
        (bytes.foldl Progress.push ⟨[], pending⟩).pending⟩ := by
  induction bytes generalizing items pending with
  | nil => rfl
  | cons b bytes ih =>
    rw [List.foldl_cons, List.foldl_cons, push_items items pending b]
    generalize Progress.push ⟨[], pending⟩ b = fresh
    obtain ⟨read, unfinished⟩ := fresh
    dsimp only
    rw [ih (read ++ items), ih read, List.append_assoc]

theorem scan_encode_append (text : List Char) (rest : Bytes) :
    scan (encode text ++ rest) = text.map some ++ scan rest := by
  simp only [scan, List.foldl_append, foldl_push_encode]
  rw [foldl_push_items]
  generalize rest.foldl Progress.push ⟨[], none⟩ = final
  obtain ⟨items, pending⟩ := final
  cases pending <;> simp

theorem prefix_of_encode_prefix {word text : List Char} (h : encode word <+: encode text) :
    word <+: text := by
  obtain ⟨rest, whole⟩ := h
  have items : word.map some ++ scan rest = text.map some := by
    rw [← scan_encode_append, whole, scan_encode]
  obtain ⟨front, back, rfl, same, -⟩ := List.map_eq_append_iff.mp items.symm
  have equal : front = word := (List.map_inj_right fun {_ _} => Option.some.inj).mp same
  rw [equal]
  exact List.prefix_append word back

theorem decodeLossy_encode (text : List Char) : decodeLossy (encode text) = text := by
  rw [decodeLossy, scan_encode, List.map_map]
  exact List.map_id text

theorem ofString_ne_nil {text : String} (nonempty : text ≠ "") : ofString text ≠ [] := by
  intro empty
  have read := decodeLossy_encode text.toList
  rw [← ofString, empty] at read
  exact nonempty (String.toList_inj.mp read.symm)

/-- The bytes read of an unfinished character: with every admitted continuation they are the bytes
of the character whose value comes out. -/
def Leads (read : Bytes) : (owed low high value : Nat) → Prop
  | 0, _, _, _ => False
  | 1, low, high, value => ∀ b : UInt8, low ≤ b.toNat → b.toNat ≤ high →
      read ++ [b] = encodeChar (Char.ofNat (value * 0x40 + (b.toNat - 0x80)))
  | owed + 2, low, high, value => ∀ b : UInt8, low ≤ b.toNat → b.toNat ≤ high →
      Leads (read ++ [b]) (owed + 1) 0x80 0xBF (value * 0x40 + (b.toNat - 0x80))

private theorem toNat_ofNat_scalar {n : Nat} (h : n < 0xD800 ∨ 0xDFFF < n ∧ n < 0x110000) :
    (Char.ofNat n).toNat = n := by
  rw [Char.ofNat, dif_pos h]
  rfl

private theorem toUInt8_eq {b : UInt8} {n : Nat} (h : b.toNat = n) : n.toUInt8 = b := by
  rw [← h, Nat.toUInt8, UInt8.ofNat_toNat]

section Widths

variable {n : Nat} {b d e f : UInt8}

private theorem encodeChar_one (high : b.toNat < 0x80) :
    encodeChar (Char.ofNat b.toNat) = [b] := by
  rw [encodeChar, toNat_ofNat_scalar (by omega), if_pos high, toUInt8_eq rfl]

private theorem encodeChar_two (low : 0x80 ≤ n) (high : n < 0x800)
    (hb : b.toNat = 0xC0 + n / 0x40) (hd : d.toNat = 0x80 + n % 0x40) :
    encodeChar (Char.ofNat n) = [b, d] := by
  rw [encodeChar, toNat_ofNat_scalar (by omega), if_neg (by omega), if_pos high, toUInt8_eq hb,
    toUInt8_eq hd]

private theorem encodeChar_three (low : 0x800 ≤ n) (high : n < 0x10000)
    (scalar : n < 0xD800 ∨ 0xDFFF < n) (hb : b.toNat = 0xE0 + n / 0x1000)
    (hd : d.toNat = 0x80 + n / 0x40 % 0x40) (he : e.toNat = 0x80 + n % 0x40) :
    encodeChar (Char.ofNat n) = [b, d, e] := by
  rw [encodeChar, toNat_ofNat_scalar (by omega), if_neg (by omega), if_neg (by omega), if_pos high,
    toUInt8_eq hb, toUInt8_eq hd, toUInt8_eq he]

private theorem encodeChar_four (low : 0x10000 ≤ n) (high : n < 0x110000)
    (hb : b.toNat = 0xF0 + n / 0x40000) (hd : d.toNat = 0x80 + n / 0x1000 % 0x40)
    (he : e.toNat = 0x80 + n / 0x40 % 0x40) (hf : f.toNat = 0x80 + n % 0x40) :
    encodeChar (Char.ofNat n) = [b, d, e, f] := by
  rw [encodeChar, toNat_ofNat_scalar (by omega), if_neg (by omega), if_neg (by omega),
    if_neg (by omega), toUInt8_eq hb, toUInt8_eq hd, toUInt8_eq he, toUInt8_eq hf]

private theorem leads_two (low : 0xC2 ≤ b.toNat) (high : b.toNat < 0xE0) :
    Leads [b] 1 0x80 0xBF (b.toNat - 0xC0) := by
  intro d hd hd'
  exact (encodeChar_two (by omega) (by omega) (by omega) (by omega)).symm

private theorem leads_three (low : 0xE0 ≤ b.toNat) (high : b.toNat < 0xF0) :
    Leads [b] 2 (if b.toNat = 0xE0 then 0xA0 else 0x80) (if b.toNat = 0xED then 0x9F else 0xBF)
      (b.toNat - 0xE0) := by
  intro d hd hd' e he he'
  have bounds : (b.toNat = 0xE0 → 0xA0 ≤ d.toNat) ∧ 0x80 ≤ d.toNat ∧
      (b.toNat = 0xED → d.toNat ≤ 0x9F) ∧ d.toNat ≤ 0xBF := by
    split at hd <;> split at hd' <;> omega
  exact (encodeChar_three (by omega) (by omega) (by omega) (by omega) (by omega) (by omega)).symm

private theorem leads_four (low : 0xF0 ≤ b.toNat) (high : b.toNat < 0xF5) :
    Leads [b] 3 (if b.toNat = 0xF0 then 0x90 else 0x80) (if b.toNat = 0xF4 then 0x8F else 0xBF)
      (b.toNat - 0xF0) := by
  intro d hd hd' e he he' f hf hf'
  have bounds : (b.toNat = 0xF0 → 0x90 ≤ d.toNat) ∧ 0x80 ≤ d.toNat ∧
      (b.toNat = 0xF4 → d.toNat ≤ 0x8F) ∧ d.toNat ≤ 0xBF := by
    split at hd <;> split at hd' <;> omega
  exact (encodeChar_four (by omega) (by omega) (by omega) (by omega) (by omega) (by omega)).symm

end Widths

/-- What decoding has read, when it has met no gap: the bytes of the characters found, and then
those of the unfinished character. -/
def Progress.Sound (state : Progress) (read : Bytes) : Prop :=
  state.items.all Option.isSome →
    ∃ tail, read = encode (state.items.reverse.filterMap id) ++ tail ∧
      match state.pending with
      | none => tail = []
      | some p => Leads tail p.owed p.low p.high p.value

private theorem encode_singleton (c : Char) : encode [c] = encodeChar c := by
  simp [encode]

private theorem sound_start {items : List (Option Char)} {read : Bytes} (b : UInt8)
    (h : items.all Option.isSome → read = encode (items.reverse.filterMap id)) :
    (Progress.start items b).Sound (read ++ [b]) := by
  by_cases one : b.toNat < 0x80
  · rw [start_one items one]
    intro whole
    have whole : items.all Option.isSome := by simpa using whole
    refine ⟨[], ?_, rfl⟩
    simp [h whole, encode_append, encode_singleton, encodeChar_one one]
  by_cases gap : b.toNat < 0xC2 ∨ 0xF5 ≤ b.toNat
  · have missed : Progress.start items b = ⟨none :: items, none⟩ := by
      unfold Progress.start
      rcases gap with gap | gap
      · rw [if_neg one, if_pos gap]
      · rw [if_neg one, if_neg (by omega), if_neg (by omega), if_neg (by omega), if_neg (by omega)]
    rw [missed]
    intro whole
    simp at whole
  by_cases two : b.toNat < 0xE0
  · rw [start_two items (by omega) two]
    intro whole
    exact ⟨[b], by rw [h whole], leads_two (by omega) two⟩
  by_cases three : b.toNat < 0xF0
  · rw [start_three items (by omega) three]
    intro whole
    exact ⟨[b], by rw [h whole], leads_three (by omega) three⟩
  · rw [start_four items (by omega) (by omega)]
    intro whole
    exact ⟨[b], by rw [h whole], leads_four (by omega) (by omega)⟩

private theorem sound_push {state : Progress} {read : Bytes} (b : UInt8) (h : state.Sound read) :
    (state.push b).Sound (read ++ [b]) := by
  obtain ⟨items, pending⟩ := state
  cases pending with
  | none =>
    rw [push_start]
    refine sound_start b fun whole => ?_
    obtain ⟨tail, rfl, rfl⟩ := h whole
    rw [List.append_nil]
  | some p =>
    obtain ⟨owed, low, high, value⟩ := p
    by_cases admits : low ≤ b.toNat ∧ b.toNat ≤ high
    · match owed with
      | 0 =>
        rw [push_last admits (Nat.zero_le 1)]
        intro whole
        obtain ⟨tail, -, leads⟩ := h (by simpa using whole)
        simp [Leads] at leads
      | 1 =>
        rw [push_last admits (Nat.le_refl 1)]
        intro whole
        obtain ⟨tail, rfl, leads⟩ := h (by simpa using whole)
        have done :
            tail ++ [b] = encodeChar (Char.ofNat (Partial.extend ⟨1, low, high, value⟩ b)) :=
          leads b admits.1 admits.2
        refine ⟨[], ?_, rfl⟩
        simp [encode_append, encode_singleton, done]
      | owed + 2 =>
        rw [push_more admits (by dsimp only; omega)]
        intro whole
        obtain ⟨tail, rfl, leads⟩ := h whole
        exact ⟨tail ++ [b], List.append_assoc _ _ _, leads b admits.1 admits.2⟩
    · have afresh : Progress.push ⟨items, some ⟨owed, low, high, value⟩⟩ b =
          Progress.start (none :: items) b := by
        simp [Progress.push, admits]
      rw [afresh]
      exact sound_start b fun whole => by simp at whole

private theorem sound_foldl (bytes : Bytes) {state : Progress} {read : Bytes}
    (h : state.Sound read) : (bytes.foldl Progress.push state).Sound (read ++ bytes) := by
  induction bytes generalizing state read with
  | nil => simpa using h
  | cons b bytes ih =>
    rw [List.foldl_cons, List.append_cons]
    exact ih (sound_push b h)

theorem encode_of_decode? {bytes : Bytes} {text : List Char} (h : decode? bytes = some text) :
    encode text = bytes := by
  have fresh : Progress.Sound ⟨[], none⟩ [] := fun _ => ⟨[], rfl, rfl⟩
  have sound := sound_foldl bytes fresh
  rw [decode?, scan] at h
  generalize bytes.foldl Progress.push ⟨[], none⟩ = final at h sound
  obtain ⟨items, pending⟩ := final
  cases pending with
  | some p => simp at h
  | none =>
    simp only [Option.isSome_none, Bool.false_eq_true, if_false, List.all_reverse,
      Option.ite_none_right_eq_some, Option.some.injEq] at h
    obtain ⟨whole, rfl⟩ := h
    obtain ⟨tail, read, rfl⟩ := sound whole
    simpa using read.symm

theorem decode?_eq_some_iff {bytes : Bytes} {text : List Char} :
    decode? bytes = some text ↔ encode text = bytes := by
  constructor
  · exact encode_of_decode?
  · rintro rfl
    exact decode?_encode text

private theorem encodeChar_ascii {c : Char} (ascii : c.toNat < 0x80) :
    encodeChar c = [c.toNat.toUInt8] := by
  rw [encodeChar, if_pos ascii]

theorem encode_cons_of_ascii {c : Char} (ascii : c.toNat < 0x80) (text : List Char) :
    encode (c :: text) = c.toNat.toUInt8 :: encode text := by
  have cut : encode (c :: text) = encodeChar c ++ encode text := List.flatMap_cons
  rw [cut, encodeChar_ascii ascii]
  rfl

private theorem exists_cut {text : List Char} {b : UInt8} (ascii : b.toNat < 0x80) {j : Nat}
    {rest : Bytes} (h : (encode text).drop j = b :: rest) :
    ∃ k, (encode (text.take k)).length = j ∧ encode (text.drop k) = b :: rest := by
  induction text generalizing j with
  | nil => simp [encode] at h
  | cons c text ih =>
    have cut : encode (c :: text) = encodeChar c ++ encode text := List.flatMap_cons
    by_cases start : j = 0
    · refine ⟨0, start.symm, ?_⟩
      rw [start] at h
      exact h
    rw [cut] at h
    by_cases inside : j < (encodeChar c).length
    · rw [List.drop_append_of_le_length inside.le] at h
      have found : b ∈ encode [c] := by
        rw [encode_singleton]
        cases left : (encodeChar c).drop j with
        | nil =>
          have short := List.drop_eq_nil_iff.mp left
          omega
        | cons d more =>
          rw [left, List.cons_append, List.cons.injEq] at h
          refine List.mem_of_mem_drop (i := j) ?_
          rw [left, h.1]
          exact List.mem_cons_self
      obtain ⟨d, member, value⟩ := exists_char_of_mem_encode found ascii
      rw [List.mem_singleton.mp member] at value
      rw [encodeChar_ascii (by omega), List.length_singleton] at inside
      omega
    · rw [List.drop_append, List.drop_of_length_le (by omega), List.nil_append] at h
      obtain ⟨k, length, bytes⟩ := ih h
      refine ⟨k + 1, ?_, bytes⟩
      have longer : encode (c :: text.take k) = encodeChar c ++ encode (text.take k) :=
        List.flatMap_cons
      rw [List.take_succ_cons, longer, List.length_append, length]
      omega

private theorem isPrefix_encode {word text : List Char} (h : word <+: text) :
    encode word <+: encode text := by
  obtain ⟨rest, rfl⟩ := h
  rw [encode_append]
  exact List.prefix_append _ _

/-- A word that begins with an ASCII character occurs among the bytes of a text where it occurs in
the text. -/
private theorem exists_prefix_drop {c : Char} {word text : List Char} (ascii : c.toNat < 0x80) {j : Nat}
    (h : encode (c :: word) <+: (encode text).drop j) :
    ∃ k, (encode (text.take k)).length = j ∧ c :: word <+: text.drop k := by
  have head := encode_cons_of_ascii ascii word
  obtain ⟨rest, whole⟩ := h
  have value : c.toNat.toUInt8.toNat < 0x80 := by
    rw [toNat_byte (by omega)]
    exact ascii
  rw [head, List.cons_append] at whole
  obtain ⟨k, length, bytes⟩ := exists_cut value whole.symm
  refine ⟨k, length, prefix_of_encode_prefix ⟨rest, ?_⟩⟩
  rw [bytes, head, List.cons_append]

/-- A word that begins with an ASCII character is first found in the bytes of a text where it is
first found in the text. -/
theorem firstAt_encode {c : Char} {word text : List Char} (ascii : c.toNat < 0x80) {i : Nat}
    (h : Search.FirstAt (c :: word) text i) :
    Search.FirstAt (encode (c :: word)) (encode text) (encode (text.take i)).length := by
  refine ⟨?_, ?_⟩
  · have bytes : encode text = encode (text.take i) ++ encode (text.drop i) := by
      rw [← encode_append, List.take_append_drop]
    rw [bytes, List.drop_left]
    exact isPrefix_encode h.1
  · intro j hj early
    obtain ⟨k, length, here⟩ := exists_prefix_drop ascii early
    have late : i ≤ k := by
      by_contra before
      exact h.2 k (Nat.lt_of_not_le before) here
    have part : text.take i <+: text.take k := List.take_prefix_take_left late
    have order := (isPrefix_encode part).length_le
    omega

theorem infix_encode_iff {c : Char} {word text : List Char} (ascii : c.toNat < 0x80) :
    encode (c :: word) <:+: encode text ↔ c :: word <:+: text := by
  constructor
  · rintro ⟨before, after, whole⟩
    have found : encode (c :: word) <+: (encode text).drop before.length := by
      rw [← whole, List.append_assoc, List.drop_left]
      exact List.prefix_append _ _
    obtain ⟨k, -, here⟩ := exists_prefix_drop ascii found
    exact here.isInfix.trans (List.drop_suffix k text).isInfix
  · rintro ⟨before, after, rfl⟩
    rw [encode_append, encode_append]
    exact List.infix_append _ _ _

end NotebookKernel.Utf8
