import NotebookKernel.Call
import NotebookKernel.Proofs.Scanner
import NotebookKernel.Proofs.Text.Utf8

/-!
# What a call makes of what it hears

The outcome of a call follows from the output and from the complaints that it has heard, each taken
as one sequence of bytes: how they were cut, and how the two streams were interleaved, does not
count.
-/

set_option autoImplicit false

namespace NotebookKernel.Call

def outputText (out : Bytes) : String :=
  String.ofList (Utf8.decodeLossy out)

def complaintText (err : Bytes) : String :=
  String.ofList (Text.trim (Utf8.decodeLossy err))

/-- The outcome of a call that has heard some output, in which its sentinel occurs, and some
complaints: the complaints if they say anything, and else the output before the sentinel. -/
def Verdict (sentinel out err : Bytes) (value : Except Fault String) : Prop :=
  ∃ i, Search.FirstAt sentinel out i ∧
    value = if (complaintText err).isEmpty then .ok (outputText (out.take i))
      else .error (.evaluation (complaintText err))

theorem Verdict.append {sentinel out err : Bytes} {value : Except Fault String}
    (h : Verdict sentinel out err value) (more : Bytes) :
    Verdict sentinel (out ++ more) err value := by
  obtain ⟨i, first, rfl⟩ := h
  obtain ⟨found, same⟩ := first.of_prefix (List.prefix_append out more)
  exact ⟨i, found, by rw [same]⟩

/-- A call in progress has gathered all that it has heard, and looks no further once the sentinel
has arrived. -/
structure Heard (call : Call) (sentinel out err : Bytes) : Prop where
  phase : call.phase = if call.stdout.isFound then .sentinelFound else .accumulating
  stdout : call.stdout.Heard sentinel out
  stderr : call.stderr.toList = err

theorem heard_markSent (sentinel : String) :
    (new sentinel).markSent.Heard (Utf8.ofString sentinel) [] [] :=
  ⟨rfl, Scanner.heard_new sentinel, rfl⟩

namespace Heard

variable {call : Call} {sentinel out err : Bytes}

theorem onStderr (h : call.Heard sentinel out err) (chunk : Bytes) :
    (call.onStderr chunk).Heard sentinel out (err ++ chunk) ∧
      (call.onStderr chunk).stdout = call.stdout := by
  obtain ⟨phase, stdout, stderr⟩ := call
  obtain ⟨running, output, rfl⟩ := h
  cases found : stdout.isFound with
  | true =>
    obtain rfl : phase = .sentinelFound := by simpa [found] using running
    exact ⟨⟨running, output, Array.toList_appendList⟩, rfl⟩
  | false =>
    obtain rfl : phase = .accumulating := by simpa [found] using running
    exact ⟨⟨running, output, Array.toList_appendList⟩, rfl⟩

theorem foldl_onStderr (h : call.Heard sentinel out err) (chunks : List Bytes) :
    (chunks.foldl Call.onStderr call).Heard sentinel out (err ++ chunks.flatten) ∧
      (chunks.foldl Call.onStderr call).stdout = call.stdout := by
  induction chunks generalizing call err with
  | nil => simpa using h
  | cons chunk chunks ih =>
    obtain ⟨first, same⟩ := h.onStderr chunk
    obtain ⟨rest, kept⟩ := ih first
    rw [List.append_assoc] at rest
    exact ⟨rest, kept.trans same⟩

theorem onStdout (h : call.Heard sentinel out err) (early : call.stdout.isFound = false)
    (chunk : Bytes) : (call.onStdout chunk).Heard sentinel (out ++ chunk) err := by
  obtain ⟨phase, stdout, stderr⟩ := call
  obtain ⟨running, output, rfl⟩ := h
  obtain rfl : phase = .accumulating := by simpa [early] using running
  exact ⟨rfl, output.push chunk, rfl⟩

theorem foldl_onStdout_of_found (h : call.Heard sentinel out err)
    (found : call.stdout.isFound = true) (chunks : List Bytes) :
    chunks.foldl Call.onStdout call = call := by
  obtain ⟨phase, stdout, stderr⟩ := call
  obtain rfl : phase = .sentinelFound := by
    have running := h.phase
    rw [if_pos found] at running
    exact running
  induction chunks with
  | nil => rfl
  | cons chunk chunks ih => exact ih

/-- A call that hears one chunk after another has heard a first part of them, which is all of them
as long as the sentinel has not arrived. -/
theorem foldl_onStdout (h : call.Heard sentinel out err) (chunks : List Bytes) :
    ∃ heard, heard <+: out ++ chunks.flatten ∧
      (chunks.foldl Call.onStdout call).Heard sentinel heard err ∧
        ((chunks.foldl Call.onStdout call).stdout.isFound = false →
          heard = out ++ chunks.flatten) := by
  induction chunks generalizing call out with
  | nil => exact ⟨out, by simp, h, fun _ => by simp⟩
  | cons chunk chunks ih =>
    cases found : call.stdout.isFound with
    | false =>
      rw [List.foldl_cons, List.flatten_cons, ← List.append_assoc]
      exact ih (h.onStdout found chunk)
    | true =>
      rw [h.foldl_onStdout_of_found found]
      refine ⟨out, List.prefix_append _ _, h, ?_⟩
      intro early
      rw [found] at early
      cases early

theorem finish (h : call.Heard sentinel out err) (found : call.stdout.isFound = true) :
    Verdict sentinel out err call.finish.1 := by
  have ended : call.phase = .sentinelFound := by
    rw [h.phase, if_pos found]
  have said : call.complaint = complaintText err := by
    rw [complaint, h.stderr]
    rfl
  obtain ⟨text, taken⟩ : ∃ text, call.stdout.take.1 = some text := by
    obtain ⟨index, at_index⟩ := Option.isSome_iff_exists.mp found
    rw [Scanner.take, at_index]
    exact ⟨_, rfl⟩
  obtain ⟨-, i, first, rfl⟩ := (h.stdout.take_eq_some text).mp taken
  refine ⟨i, first, ?_⟩
  have other : ({ call with phase := .parsed } : Call).complaint = call.complaint := rfl
  rw [Call.finish, if_neg (not_not.mpr ended)]
  simp only [other, said]
  by_cases silent : (complaintText err).isEmpty = true
  · rw [if_pos silent, if_pos silent]
    cases stdout : call.stdout.take with
    | mk text? rest =>
      rw [stdout] at taken
      subst taken
      rfl
  · rw [if_neg silent, if_neg silent]

/-- When the sentinel is somewhere in the chunks the call can be finished, and its outcome follows
from all of them together. -/
theorem finish_foldl (h : call.Heard sentinel out err) (chunks : List Bytes) (nonempty : sentinel ≠ [])
    {i : Nat} (first : Search.FirstAt sentinel (out ++ chunks.flatten) i) :
    Verdict sentinel (out ++ chunks.flatten) err (chunks.foldl Call.onStdout call).finish.1 := by
  obtain ⟨heard, ⟨more, whole⟩, still, complete⟩ := h.foldl_onStdout chunks
  have found : (chunks.foldl Call.onStdout call).stdout.isFound = true := by
    by_contra early
    have unfound := Bool.eq_false_iff.mpr early
    have index := still.stdout.found
    rw [complete unfound, if_neg (by simpa using nonempty),
      (Search.firstIndex_eq_some_iff _ _ _).mpr first] at index
    rw [Scanner.isFound, index] at unfound
    cases unfound
  rw [← whole]
  exact (still.finish found).append more

end Heard

/-- A call that is sent a text and no complaint takes from it what stands before the first sentinel,
however the bytes of the text are cut. -/
theorem finish_of_text {sentinel : String} {c : Char} {word : List Char}
    (spelt : sentinel.toList = c :: word) (ascii : c.toNat < 0x80) {text : List Char} {i : Nat}
    (first : Search.FirstAt sentinel.toList text i) {chunks : List Bytes}
    (cut : chunks.flatten = Utf8.encode text) :
    (chunks.foldl onStdout (new sentinel).markSent).finish.1 =
      .ok (String.ofList (text.take i)) := by
  have bytes : Search.FirstAt (Utf8.ofString sentinel) (Utf8.encode text)
      (Utf8.encode (text.take i)).length := by
    rw [Utf8.ofString, spelt]
    rw [spelt] at first
    exact Utf8.firstAt_encode ascii first
  have nonempty : Utf8.ofString sentinel ≠ [] := by
    rw [Utf8.ofString, spelt, Utf8.encode_cons_of_ascii ascii]
    exact List.cons_ne_nil _ _
  obtain ⟨k, found, value⟩ := (heard_markSent sentinel).finish_foldl chunks nonempty
    (by rw [List.nil_append, cut]; exact bytes)
  rw [List.nil_append, cut] at found
  obtain rfl := found.unique bytes
  have whole : Utf8.encode text = Utf8.encode (text.take i) ++ Utf8.encode (text.drop i) := by
    rw [← Utf8.encode_append, List.take_append_drop]
  rw [value, List.nil_append, cut, whole, List.take_left, outputText, Utf8.decodeLossy_encode]
  rfl

end NotebookKernel.Call
