import Mathlib.Data.List.Chain
import NotebookKernel.Program
import NotebookKernel.Proofs.Text.Search

/-!
# Templates

A template is a sequence of texts and slots. Its slots are filled one name after another, each time
by a search through the whole text, and a value that has been put in is searched again. As long as
no slot opens in a text or a value, this puts each value into its slots and does nothing else.
-/

set_option autoImplicit false

namespace NotebookKernel.Program

def Clear (text : List Char) : Prop :=
  (text ++ ['<']).IsChain fun a b => ¬ (a = '<' ∧ b = '<')

instance (text : List Char) : Decidable (Clear text) :=
  inferInstanceAs (Decidable (List.IsChain _ _))

theorem clear_of_notMem {text : List Char} (absent : '<' ∉ text) : Clear text := by
  refine List.isChain_iff_getElem.mpr ?_
  rintro i within ⟨here, -⟩
  rw [List.length_append, List.length_singleton] at within
  rw [List.getElem_append_left (by omega)] at here
  exact absent (here ▸ List.getElem_mem _)

theorem Clear.append {first second : List Char} (h : Clear first) (h' : Clear second) :
    Clear (first ++ second) := by
  obtain ⟨inside, -, last⟩ := List.isChain_append.mp h
  rw [Clear, List.append_assoc]
  refine List.isChain_append.mpr ⟨inside, h', ?_⟩
  rintro a ends b - ⟨rfl, -⟩
  exact last '<' ends '<' rfl ⟨rfl, rfl⟩

theorem Clear.flatten {texts : List (List Char)} (h : ∀ text ∈ texts, Clear text) :
    Clear texts.flatten := by
  induction texts with
  | nil => decide
  | cons text texts ih =>
    rw [List.flatten_cons]
    exact (h text List.mem_cons_self).append (ih fun t ht => h t (List.mem_cons_of_mem _ ht))

theorem Clear.not_prefix_drop {text : List Char} (h : Clear text) (after : List Char) {j : Nat}
    (below : j < text.length) : ¬ ['<', '<'] <+: (text ++ after).drop j := by
  rintro ⟨rest, opens⟩
  have first : (text ++ after)[j]? = some '<' := by
    rw [← Nat.add_zero j, ← List.getElem?_drop, ← opens]
    rfl
  have second : (text ++ after)[j + 1]? = some '<' := by
    rw [← List.getElem?_drop, ← opens]
    rfl
  rw [List.getElem?_append_left below, List.getElem?_eq_getElem below, Option.some.injEq] at first
  have apart := List.isChain_iff_getElem.mp h j (by simpa using below)
  rw [List.getElem_append_left below] at apart
  refine apart ⟨first, ?_⟩
  by_cases last : j + 1 < text.length
  · rw [List.getElem?_append_left last, List.getElem?_eq_getElem last, Option.some.injEq] at second
    rw [List.getElem_append_left last, second]
  · rw [List.getElem_append_right (by omega)]
    simp

theorem Clear.opens_nowhere {text : List Char} (h : Clear text) : ¬ ['<', '<'] <:+: text := by
  rintro ⟨before, after, rfl⟩
  refine h.not_prefix_drop [] (j := before.length) (by simp) ?_
  simp

inductive Part where
  | text (chars : List Char)
  | slot (name : List Char)
deriving DecidableEq

namespace Part

def chars : Part → List Char
  | text chars => chars
  | slot name => ['<', '<'] ++ name ++ ['>', '>']

def WellFormed : Part → Prop
  | text chars => Clear chars
  | slot name => '<' ∉ name ∧ '>' ∉ name

instance (part : Part) : Decidable part.WellFormed :=
  match part with
  | text chars => inferInstanceAs (Decidable (Clear chars))
  | slot _ => inferInstanceAs (Decidable (_ ∧ _))

def put (name value : List Char) : Part → Part
  | text chars => text chars
  | slot other => if other = name then text value else slot other

theorem wellFormed_put {part : Part} (well : part.WellFormed) (name : List Char)
    {value : List Char} (clear : Clear value) : (part.put name value).WellFormed := by
  cases part with
  | text chars => exact well
  | slot other =>
    rw [put]
    by_cases same : other = name
    · rw [if_pos same]
      exact clear
    · rw [if_neg same]
      exact well

end Part

def written (parts : List Part) : List Char :=
  parts.flatMap Part.chars

theorem written_cons (part : Part) (parts : List Part) :
    written (part :: parts) = part.chars ++ written parts :=
  List.flatMap_cons

theorem written_append (first second : List Part) :
    written (first ++ second) = written first ++ written second :=
  List.flatMap_append

private theorem not_prefix_slot {name text : List Char} (absent : ¬ ['<', '<'] <+: text) :
    ¬ ['<', '<'] ++ name ++ ['>', '>'] <+: text := by
  intro here
  rw [List.append_assoc] at here
  exact absent ((List.prefix_append _ _).trans here)

private theorem replaceAll_text (name value after : List Char) {text : List Char}
    (clear : Clear text) :
    Search.replaceAll (['<', '<'] ++ name ++ ['>', '>']) value (text ++ after) =
      text ++ Search.replaceAll (['<', '<'] ++ name ++ ['>', '>']) value after := by
  refine Search.replaceAll_append_of_absent _ _ ?_
  intro j below
  exact not_prefix_slot (clear.not_prefix_drop after below)

private theorem takeWhile_name {name : List Char} (closed : '>' ∉ name) (after : List Char) :
    (name ++ '>' :: after).takeWhile (· != '>') = name := by
  have inside : ∀ c ∈ name, (c != '>') = true := by
    intro c member
    exact bne_iff_ne.mpr fun same => closed (same ▸ member)
  rw [List.takeWhile_append_of_pos inside]
  simp

private theorem replaceAll_slot_of_ne {name other : List Char} (value after : List Char)
    (closed : '>' ∉ name) (well : '<' ∉ other ∧ '>' ∉ other) (ne : other ≠ name) :
    Search.replaceAll (['<', '<'] ++ name ++ ['>', '>']) value
        (['<', '<'] ++ other ++ ['>', '>'] ++ after) =
      ['<', '<'] ++ other ++ ['>', '>'] ++
        Search.replaceAll (['<', '<'] ++ name ++ ['>', '>']) value after := by
  have tail : '<' ∉ other ++ ['>', '>'] := by
    simpa using well.1
  -- The search finds nothing at the first bracket, for the names differ, and nothing at the second,
  -- for a single bracket opens no slot; the rest holds no bracket.
  have here : ¬ ['<', '<'] ++ name ++ ['>', '>'] <+: '<' :: '<' :: (other ++ ['>', '>'] ++ after) := by
    rintro ⟨rest, same⟩
    have names : name ++ '>' :: '>' :: rest = other ++ '>' :: '>' :: after := by simpa using same
    refine ne ?_
    rw [← takeWhile_name well.2 ('>' :: after), ← names, takeWhile_name closed]
  have next : ¬ ['<', '<'] <+: '<' :: (other ++ ['>', '>'] ++ after) := by
    intro opens
    obtain ⟨-, front⟩ := List.cons_prefix_cons.mp opens
    cases other with
    | nil => simp at front
    | cons c other =>
      obtain ⟨same, -⟩ := List.cons_prefix_cons.mp front
      exact tail (same ▸ List.mem_cons_self)
  have marks : ∀ rest, ['<', '<'] ++ other ++ ['>', '>'] ++ rest =
      '<' :: '<' :: (other ++ ['>', '>'] ++ rest) := by
    simp
  rw [marks, marks, Search.replaceAll_cons_of_ne _ _ _ _ (by simpa using here),
    Search.replaceAll_cons_of_ne _ _ _ _
      (by simpa using not_prefix_slot next),
    replaceAll_text _ _ _ (clear_of_notMem tail)]

theorem fill_written {parts : List Part} (well : ∀ part ∈ parts, part.WellFormed) {name : String}
    (closed : '>' ∉ name.toList) (value : List Char) :
    fill (written parts) name value = written (parts.map (Part.put name.toList value)) := by
  rw [fill, slot]
  induction parts with
  | nil => exact Search.replaceAll_nil _ _
  | cons part parts ih =>
    have rest := ih fun p hp => well p (List.mem_cons_of_mem _ hp)
    have first := well part List.mem_cons_self
    rw [List.map_cons, written_cons, written_cons, ← rest]
    cases part with
    | text chars => exact replaceAll_text _ _ _ first
    | slot other =>
      by_cases same : other = name.toList
      · rw [Part.put, if_pos same, Part.chars, same]
        exact Search.replaceAll_append_self _ _ (by simp) _
      · rw [Part.put, if_neg same]
        exact replaceAll_slot_of_ne _ _ closed first same

def value? (values : List (String × List Char)) (name : List Char) : Option (List Char) :=
  (values.find? fun v => v.1.toList == name).map Prod.snd

def Part.filled (values : List (String × List Char)) : Part → Part
  | text chars => text chars
  | slot name => ((value? values name).map text).getD (slot name)

theorem fillAll_written {parts : List Part} (well : ∀ part ∈ parts, part.WellFormed)
    {values : List (String × List Char)} (good : ∀ v ∈ values, '>' ∉ v.1.toList ∧ Clear v.2) :
    fillAll (written parts) values = written (parts.map (Part.filled values)) := by
  -- A value that has been put in is a text without slots, so the parts stay well-formed.
  induction values generalizing parts with
  | nil =>
    have same : ∀ part : Part, part.filled [] = part := by
      intro part
      cases part <;> rfl
    rw [funext same, List.map_id']
    rfl
  | cons v values ih =>
    obtain ⟨name, value⟩ := v
    have later : fillAll (written parts) ((name, value) :: values) =
        fillAll (fill (written parts) name value) values := rfl
    obtain ⟨closed, clear⟩ := good _ List.mem_cons_self
    have still : ∀ part ∈ parts.map (Part.put name.toList value), part.WellFormed := by
      intro part member
      obtain ⟨old, found, rfl⟩ := List.mem_map.mp member
      exact Part.wellFormed_put (well old found) _ clear
    have steps : ∀ part : Part,
        (part.put name.toList value).filled values = part.filled ((name, value) :: values) := by
      intro part
      cases part with
      | text chars => rfl
      | slot other =>
        by_cases same : other = name.toList
        · simp [Part.put, Part.filled, value?, same]
        · have differs : (name.toList == other) = false := by
            simpa using fun h => same h.symm
          simp [Part.put, Part.filled, value?, same, differs]
    rw [later, fill_written well closed, ih still fun v hv => good v (List.mem_cons_of_mem _ hv),
      List.map_map]
    exact congrArg written (List.map_congr_left fun part _ => steps part)

def Part.Named (names : List String) : Part → Prop
  | text _ => True
  | slot name => ∃ known ∈ names, known.toList = name

instance (names : List String) (part : Part) : Decidable (part.Named names) :=
  match part with
  | .text _ => inferInstanceAs (Decidable True)
  | .slot name => inferInstanceAs (Decidable (∃ known ∈ names, known.toList = name))

private theorem eq_of_named {name : String} {other : List Char}
    (named : (Part.slot other).Named [name]) : other = name.toList := by
  obtain ⟨known, listed, rfl⟩ := named
  rw [List.mem_singleton.mp listed]

/-- A text that consists of well-formed parts, with slots of some names only. -/
def Slotted (names : List String) (text : List Char) : Prop :=
  ∃ parts, written parts = text ∧ ∀ part ∈ parts, part.WellFormed ∧ part.Named names

theorem Slotted.append {names : List String} {first second : List Char} (h : Slotted names first)
    (h' : Slotted names second) : Slotted names (first ++ second) := by
  obtain ⟨parts, rfl, good⟩ := h
  obtain ⟨more, rfl, good'⟩ := h'
  refine ⟨parts ++ more, written_append parts more, ?_⟩
  intro part member
  rcases List.mem_append.mp member with early | late
  · exact good part early
  · exact good' part late

mutual

def cut (done : List Char) : List Char → List Part
  | [] => [.text done.reverse]
  | '<' :: '<' :: rest => .text done.reverse :: cutName [] rest
  | c :: rest => cut (c :: done) rest

def cutName (done : List Char) : List Char → List Part
  | [] => [.slot done.reverse]
  | '>' :: '>' :: rest => .slot done.reverse :: cut [] rest
  | c :: rest => cutName (c :: done) rest

end

theorem textOfLines_cons (line : String) (lines : List String) :
    textOfLines (line :: lines) = line.toList ++ ['\n'] ++ textOfLines lines :=
  List.flatMap_cons

theorem slotted_nil (names : List String) : Slotted names (textOfLines []) :=
  ⟨[], rfl, by simp⟩

theorem map_ofList_cons {line : String} {lines : List String} {chars : List Char}
    {texts : List (List Char)} (first : line = String.ofList chars)
    (rest : lines = texts.map String.ofList) :
    line :: lines = (chars :: texts).map String.ofList := by
  rw [first, rest, List.map_cons]

/-- Each line can be checked by itself: what it is cut into has to be good, and to be the line. -/
theorem slotted_lines {names : List String} {lines : List String} {texts : List (List Char)}
    (same : lines = texts.map String.ofList)
    (good : ∀ chars ∈ texts, written (cut [] chars) = chars ∧
      ∀ part ∈ cut [] chars, part.WellFormed ∧ part.Named names) :
    Slotted names (textOfLines lines) := by
  rw [same]
  clear same
  induction texts with
  | nil => exact slotted_nil names
  | cons chars texts ih =>
    have first : Slotted names chars := ⟨cut [] chars, good chars List.mem_cons_self⟩
    have feed : Slotted names ['\n'] := by
      refine ⟨[.text ['\n']], rfl, ?_⟩
      intro part member
      rw [List.mem_singleton.mp member]
      exact ⟨by decide, trivial⟩
    rw [List.map_cons, textOfLines_cons, String.toList_ofList]
    exact (first.append feed).append (ih fun c member => good c (List.mem_cons_of_mem _ member))

private theorem mem_of_value? {values : List (String × List Char)} {name value : List Char}
    (found : value? values name = some value) : ∃ v ∈ values, v.2 = value := by
  obtain ⟨v, first, rfl⟩ := Option.map_eq_some_iff.mp found
  exact ⟨v, List.mem_of_find?_eq_some first, rfl⟩

private theorem value?_ne_none {values : List (String × List Char)} {name : String}
    (known : name ∈ values.map Prod.fst) : value? values name.toList ≠ none := by
  obtain ⟨v, member, rfl⟩ := List.mem_map.mp known
  intro missing
  rw [value?, Option.map_eq_none_iff, List.find?_eq_none] at missing
  exact absurd (missing v member) (by simp)

private theorem filled_insert {name : String} {value : List Char}
    {front back : List (String × List Char)} (other : ∀ v ∈ front ++ back, v.1 ≠ name)
    (part : Part) : part.filled (front ++ (name, value) :: back) =
      (part.filled (front ++ back)).put name.toList value := by
  cases part with
  | text chars => rfl
  | slot n =>
    by_cases same : n = name.toList
    · have missing : (front ++ back).find? (fun v => v.1.toList == n) = none := by
        rw [List.find?_eq_none]
        intro v member named
        exact other v member (String.toList_inj.mp ((eq_of_beq named).trans same))
      have before : front.find? (fun v => v.1.toList == n) = none := by
        rw [List.find?_append] at missing
        exact (Option.or_eq_none_iff.mp missing).1
      simp [Part.filled, value?, missing, List.find?_append, before, ← same, Part.put]
    · have skipped : (name.toList == n) = false := by
        simpa using fun h => same h.symm
      have without : value? (front ++ (name, value) :: back) n = value? (front ++ back) n := by
        simp [value?, List.find?_append, skipped]
      rw [Part.filled, Part.filled, without]
      cases value? (front ++ back) n with
      | none => exact (if_neg same).symm
      | some w => rfl

/-- A template whose slots of all names but one are filled is a sequence of parts in which only
slots of that one are left, whatever these are filled with in between. -/
theorem Slotted.exists_parts {names : List String} {text : List Char} (h : Slotted names text)
    (name : String) (front back : List (String × List Char))
    (known : ∀ n ∈ names, n = name ∨ n ∈ (front ++ back).map Prod.fst)
    (other : ∀ v ∈ front ++ back, v.1 ≠ name) (closed : '>' ∉ name.toList)
    (good : ∀ v ∈ front ++ back, '>' ∉ v.1.toList ∧ Clear v.2) :
    ∃ parts : List Part, (∀ part ∈ parts, part.WellFormed ∧ part.Named [name]) ∧
      ∀ value, Clear value →
        fillAll text (front ++ (name, value) :: back) =
          written (parts.map (Part.put name.toList value)) := by
  obtain ⟨parts, rfl, suits⟩ := h
  refine ⟨parts.map (Part.filled (front ++ back)), ?_, ?_⟩
  · intro part member
    obtain ⟨old, found, rfl⟩ := List.mem_map.mp member
    obtain ⟨well, named⟩ := suits old found
    cases old with
    | text chars => exact ⟨well, trivial⟩
    | slot n =>
      rw [Part.filled]
      cases filling : value? (front ++ back) n with
      | some value =>
        obtain ⟨v, entry, rfl⟩ := mem_of_value? filling
        exact ⟨(good v entry).2, trivial⟩
      | none =>
        obtain ⟨k, listed, rfl⟩ := named
        rcases known k listed with rfl | valued
        · exact ⟨well, k, List.mem_singleton_self k, rfl⟩
        · exact absurd filling (value?_ne_none valued)
  · intro value clear
    have all : ∀ v ∈ front ++ (name, value) :: back, '>' ∉ v.1.toList ∧ Clear v.2 := by
      intro v member
      rcases List.mem_append.mp member with early | late
      · exact good v (List.mem_append_left _ early)
      · rcases List.mem_cons.mp late with rfl | late
        · exact ⟨closed, clear⟩
        · exact good v (List.mem_append_right _ late)
    rw [fillAll_written (fun part member => (suits part member).1) all, List.map_map]
    exact congrArg written (List.map_congr_left fun part _ => filled_insert other part)

theorem Slotted.fillAll_append {names names' : List String} {first second : List Char}
    (h : Slotted names first) (h' : Slotted names' second) {values : List (String × List Char)}
    (good : ∀ v ∈ values, '>' ∉ v.1.toList ∧ Clear v.2) :
    fillAll (first ++ second) values = fillAll first values ++ fillAll second values := by
  obtain ⟨parts, rfl, suits⟩ := h
  obtain ⟨more, rfl, suits'⟩ := h'
  have filled : ∀ parts : List Part, (∀ part ∈ parts, part.WellFormed) →
      fillAll (written parts) values = written (parts.map (Part.filled values)) := fun _ well =>
    fillAll_written well good
  have well : ∀ part ∈ parts ++ more, part.WellFormed := by
    intro part member
    rcases List.mem_append.mp member with early | late
    · exact (suits part early).1
    · exact (suits' part late).1
  rw [← written_append, filled _ well, filled _ fun part member => (suits part member).1,
    filled _ fun part member => (suits' part member).1, List.map_append, written_append]

section Gaps

variable {name : String} {parts : List Part}

theorem put_put_of_named {part : Part} (only : part.Named [name]) (value : List Char)
    (other late : List Char) :
    (part.put name.toList value).put other late = part.put name.toList value := by
  cases part with
  | text chars => rfl
  | slot n =>
    obtain rfl := eq_of_named only
    simp [Part.put]

theorem exists_gaps (only : ∀ part ∈ parts, part.Named [name]) :
    ∃ gaps : List (List Char), gaps ≠ [] ∧ ∀ value,
      written (parts.map (Part.put name.toList value)) = value.intercalate gaps := by
  induction parts with
  | nil => exact ⟨[[]], by simp, fun _ => rfl⟩
  | cons part parts ih =>
    obtain ⟨gaps, nonempty, same⟩ := ih fun p hp => only p (List.mem_cons_of_mem _ hp)
    have named := only part List.mem_cons_self
    obtain ⟨gap, rest, rfl⟩ := List.exists_cons_of_ne_nil nonempty
    cases part with
    | text chars =>
      refine ⟨(chars ++ gap) :: rest, by simp, fun value => ?_⟩
      rw [List.map_cons, written_cons, same value]
      cases rest with
      | nil => simp [Part.put, Part.chars]
      | cons next rest => simp [Part.put, Part.chars, List.intercalate_cons_cons]
    | slot n =>
      obtain rfl := eq_of_named named
      refine ⟨[] :: gap :: rest, by simp, fun value => ?_⟩
      rw [List.map_cons, written_cons, same value, List.intercalate_cons_cons]
      simp [Part.put, Part.chars]

theorem clear_written_put (only : ∀ part ∈ parts, part.WellFormed ∧ part.Named [name])
    {value : List Char} (clear : Clear value) :
    Clear (written (parts.map (Part.put name.toList value))) := by
  rw [written, List.flatMap_def, List.map_map]
  refine Clear.flatten ?_
  intro text member
  obtain ⟨part, found, rfl⟩ := List.mem_map.mp member
  obtain ⟨well, named⟩ := only part found
  cases part with
  | text chars => exact well
  | slot n =>
    obtain rfl := eq_of_named named
    simpa [Part.put, Part.chars] using clear

end Gaps

end NotebookKernel.Program
