import NotebookKernel.Proofs.Call
import NotebookKernel.Proofs.Output.Extraction

/-!
# Where sentinels are recognised

The completion sentinel ends a call, and the environment sentinel ends the visible output, at their
first occurrence, wherever in a line that is. The sentinels of the files count at the beginning of a
line only: every line that begins with neither of them stays in the result as it is, and what stands
in its middle stays with it.
-/

set_option autoImplicit false

namespace NotebookKernel

def Search.AtLineStart {α : Type} (newline : α) (word text : List α) (i : Nat) : Prop :=
  word <+: text.drop i ∧ (i = 0 ∨ text[i - 1]? = some newline)

theorem Search.not_atLineStart_cons {α : Type} {newline x : α} {word : List α} (inner : x ≠ newline)
    (other : ¬ word <+: x :: word) (i : Nat) : ¬ AtLineStart newline word (x :: word) i := by
  rintro ⟨stands, start⟩
  have few : i ≤ 1 ∨ word = [] := by
    have short := stands.length_le
    rw [List.length_drop, List.length_cons] at short
    by_cases empty : word.length = 0
    · exact Or.inr (List.eq_nil_of_length_eq_zero empty)
    · exact Or.inl (by omega)
  rcases few with few | rfl
  · match i, few with
    | 0, _ => exact other stands
    | 1, _ =>
      rcases start with impossible | before
      · cases impossible
      · exact inner (Option.some.inj before)
  · exact other List.nil_prefix

def Sentinels.isText (s : Sentinels) (line : List Char) : Bool :=
  !s.image.toList.isPrefixOf line && !s.widget.toList.isPrefixOf line

theorem Call.phase_foldl_onStdout (sentinel : String) (nonempty : sentinel ≠ "")
    (chunks : List Bytes) :
    (chunks.foldl onStdout (new sentinel).markSent).phase = .sentinelFound ↔
      Utf8.ofString sentinel <:+: chunks.flatten := by
  obtain ⟨heard, part, still, complete⟩ := (heard_markSent sentinel).foldl_onStdout chunks
  rw [List.nil_append] at part complete
  have arrived := still.stdout.isFound_iff (Utf8.ofString_ne_nil nonempty)
  rw [still.phase]
  constructor
  · intro ended
    refine List.IsInfix.trans (arrived.mp ?_) part.isInfix
    by_contra early
    rw [if_neg early] at ended
    cases ended
  · intro inside
    refine if_pos ?_
    by_contra early
    have all := complete (by simpa using early)
    exact early (arrived.mpr (all ▸ inside))

namespace Output

theorem splitEnvironment_of_firstAt {s : Sentinels} {text : List Char} {i : Nat}
    (first : Search.FirstAt s.environment.toList text i) : splitEnvironment s text =
      (text.take i, some (text.drop (i + s.environment.toList.length))) := by
  rw [splitEnvironment, Search.splitFirst, (Search.firstIndex_eq_some_iff _ _ _).mpr first]
  rfl

theorem splitEnvironment_of_absent {s : Sentinels} {text : List Char}
    (absent : ¬ s.environment.toList <:+: text) : splitEnvironment s text = (text, none) := by
  have missing : Search.firstIndex s.environment.toList text = none := by
    rw [← Option.not_isSome_iff_eq_none, Search.isSome_firstIndex_iff]
    exact absent
  rw [splitEnvironment, Search.splitFirst, missing]
  rfl

theorem toList_result {s : Sentinels} (image : s.image.toList.getLast? = some '_')
    (widget : s.widget.toList.getLast? = some '_') (text : String) :
    (demultiplex text s).result.toList =
      Text.trim ((Text.pieces (splitEnvironment s text.toList).1).filter s.isText).flatten := by
  have plain : kept s.widget.toList (kept s.image.toList (splitEnvironment s text.toList).1) =
      ((Text.pieces (splitEnvironment s text.toList).1).filter s.isText).flatten := by
    rw [kept, pieces_kept, List.filter_filter]
    refine congrArg List.flatten (List.filter_congr ?_)
    intro piece _
    rw [isNone_payload? (by simp [widget]) (by simp [widget]),
      isNone_payload? (by simp [image]) (by simp [image]), Sentinels.isText, Bool.and_comm]
  rw [← plain, demultiplex]
  exact String.toList_ofList

/-- Where the sentinels of an evaluation are recognised. -/
structure Recognition (s : Sentinels) : Prop where
  /-- The completion sentinel, anywhere. -/
  completion : ∀ chunks : List Bytes,
    (chunks.foldl Call.onStdout (Call.new s.completion).markSent).phase = .sentinelFound ↔
      Utf8.ofString s.completion <:+: chunks.flatten
  /-- The environment sentinel, anywhere; the first one counts. -/
  environment : ∀ text i, Search.FirstAt s.environment.toList text i →
    splitEnvironment s text =
      (text.take i, some (text.drop (i + s.environment.toList.length)))
  undivided : ∀ text, ¬ s.environment.toList <:+: text → splitEnvironment s text = (text, none)
  /-- The sentinels of the files, at the beginning of a line. -/
  files : ∀ text, (demultiplex text s).result.toList =
    Text.trim ((Text.pieces (splitEnvironment s text.toList).1).filter s.isText).flatten
  /-- Whatever stands in the middle of another line stays in the result with its line. -/
  lines : ∀ text, ∀ line ∈ Text.pieces (splitEnvironment s text.toList).1, s.isText line = true →
    Text.trim line <:+: (demultiplex text s).result.toList

private theorem getLast?_closed (front : String) : (front ++ "__").toList.getLast? = some '_' := by
  rw [String.toList_append, List.getLast?_append_of_ne_nil _ (by decide)]
  rfl

private theorem getLast?_image (stamp : String) :
    (Sentinels.ofStamp stamp).image.toList.getLast? = some '_' :=
  getLast?_closed ("__PLOT_PATH__" ++ stamp)

private theorem getLast?_widget (stamp : String) :
    (Sentinels.ofStamp stamp).widget.toList.getLast? = some '_' :=
  getLast?_closed ("__WIDGET_PATH__" ++ stamp)

theorem recognition_ofStamp (stamp : String) : Recognition (Sentinels.ofStamp stamp) where
  completion := by
    intro chunks
    refine Call.phase_foldl_onStdout _ ?_ chunks
    rw [Sentinels.ofStamp]
    simp
  environment := fun _ _ first => splitEnvironment_of_firstAt first
  undivided := fun _ absent => splitEnvironment_of_absent absent
  files := by
    intro text
    exact toList_result (getLast?_image stamp) (getLast?_widget stamp) text
  lines := by
    intro text line member plain
    rw [toList_result (getLast?_image stamp) (getLast?_widget stamp)]
    refine Text.trim_infix_trim (List.infix_of_mem_flatten ?_)
    exact List.mem_filter.mpr ⟨member, plain⟩

/-- Sentinels in the middle of a line end the call, end the visible output, and do not stay in the
result. -/
theorem recognised_inside_line :
    (¬ ∀ (stamp : String) (chunks : List Bytes),
      (chunks.foldl Call.onStdout
        (Call.new (Sentinels.ofStamp stamp).completion).markSent).phase = .sentinelFound →
      ∃ i, Search.AtLineStart 10 (Utf8.ofString (Sentinels.ofStamp stamp).completion)
        chunks.flatten i) ∧
    (¬ ∀ (stamp : String) (text : List Char),
      (splitEnvironment (Sentinels.ofStamp stamp) text).2.isSome = true →
      ∃ i, Search.AtLineStart '\n' (Sentinels.ofStamp stamp).environment.toList text i) ∧
    ¬ ∀ (stamp : String) (before after : List Char), before ≠ [] → '\n' ∉ before →
      before ++ ((Sentinels.ofStamp stamp).environment.toList ++ after) <:+:
        (demultiplex (String.ofList (before ++
          ((Sentinels.ofStamp stamp).environment.toList ++ after)))
            (Sentinels.ofStamp stamp)).result.toList := by
  refine ⟨?_, ?_, ?_⟩
  · intro claimed
    obtain ⟨i, start⟩ := claimed "1_1"
      [97 :: Utf8.ofString (Sentinels.ofStamp "1_1").completion] (by decide)
    rw [List.flatten_singleton] at start
    exact Search.not_atLineStart_cons (by decide) (by decide) i start
  · intro claimed
    obtain ⟨i, start⟩ := claimed "1_1" ('a' :: (Sentinels.ofStamp "1_1").environment.toList)
      (by decide)
    exact Search.not_atLineStart_cons (by decide) (by decide) i start
  · intro claimed
    have stays := claimed "1_1" ['a'] [] (by decide) (by decide)
    exact absurd stays (by decide)

end Output

end NotebookKernel
