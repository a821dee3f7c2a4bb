import NotebookKernel.Proofs.Rpc.Correlation

/-!
# Routing of responses

Responses go by their numbers. Two with different numbers may change places, and what comes in
between and answers nothing leaves no trace: notifications and requests of the other side, whatever
id they carry, responses without a number, and payloads that are no messages.
-/

set_option autoImplicit false

namespace NotebookKernel.Rpc

open Correlator

/-- What arrives: a message, or a payload that is still to be read. -/
inductive Arrival where
  | message (m : Message)
  | payload (bytes : Bytes)

def Arrival.operation : Arrival → Operation
  | message m => .dispatch m
  | payload bytes => .dispatchPayload bytes

inductive Noise : Arrival → Prop where
  | notification {m : Message} : m.method.isSome → m.id = none → Noise (.message m)
  | serverRequest {m : Message} : m.method.isSome → m.id.isSome → Noise (.message m)
  | unnumbered {m : Message} : m.method = none → m.numericId? = none → Noise (.message m)
  | framed {bytes : Bytes} {m : Message} : Message.ofBytes? bytes = some m → Noise (.message m) →
      Noise (.payload bytes)
  | malformed {bytes : Bytes} : Message.ofBytes? bytes = none → Noise (.payload bytes)

/-- Some responses in order, each as a message or as a payload, with noise anywhere among them. -/
inductive Woven : List Message → List Arrival → Prop where
  | nil : Woven [] []
  | response {m : Message} {responses : List Message} {arrivals : List Arrival} :
      Woven responses arrivals → Woven (m :: responses) (.message m :: arrivals)
  | framed {m : Message} {bytes : Bytes} {responses : List Message} {arrivals : List Arrival} :
      Message.ofBytes? bytes = some m → Woven responses arrivals →
      Woven (m :: responses) (.payload bytes :: arrivals)
  | noise {arrival : Arrival} {responses : List Message} {arrivals : List Arrival} :
      Noise arrival → Woven responses arrivals → Woven responses (arrival :: arrivals)

/-- Responses without a method, with pairwise different numbers. -/
structure Numbered (responses : List Message) : Prop where
  unnamed : ∀ m ∈ responses, m.method = none
  numbered : ∀ m ∈ responses, m.numericId?.isSome
  distinct : (responses.map Message.numericId?).Nodup

namespace Correlator

def arriveAll (c : Correlator) (arrivals : List Arrival) : Correlator :=
  runFrom c (arrivals.map Arrival.operation)

theorem dispatchPayload_of_message (c : Correlator) {bytes : Bytes} {m : Message}
    (parsed : Message.ofBytes? bytes = some m) : (c.dispatchPayload bytes).2 = (c.dispatch m).2 := by
  rw [dispatchPayload, parsed]

theorem dispatchPayload_of_none (c : Correlator) {bytes : Bytes}
    (unparsed : Message.ofBytes? bytes = none) : (c.dispatchPayload bytes).2 = c := by
  rw [dispatchPayload, unparsed]

theorem run_noise (c : Correlator) {arrival : Arrival} (h : Noise arrival) :
    arrival.operation.run c = c := by
  induction h with
  | notification named _ =>
    exact c.dispatch_unaddressed (Or.inl (Option.isSome_iff_ne_none.mp named))
  | serverRequest named _ =>
    exact c.dispatch_unaddressed (Or.inl (Option.isSome_iff_ne_none.mp named))
  | unnumbered _ unnumbered => exact c.dispatch_unaddressed (Or.inr unnumbered)
  | framed parsed _ ih => exact (c.dispatchPayload_of_message parsed).trans ih
  | malformed unparsed => exact c.dispatchPayload_of_none unparsed

theorem arriveAll_woven {responses : List Message} {arrivals : List Arrival}
    (h : Woven responses arrivals) (c : Correlator) :
    c.arriveAll arrivals = responses.foldl (fun c m => (c.dispatch m).2) c := by
  induction h generalizing c with
  | nil => rfl
  | response _ ih => exact ih _
  | framed parsed _ ih =>
    refine (ih _).trans ?_
    rw [List.foldl_cons, ← c.dispatchPayload_of_message parsed]
    rfl
  | noise noise _ ih =>
    refine (ih _).trans ?_
    rw [c.run_noise noise]

theorem settle_comm (c : Correlator) {i j : Nat} (h : i ≠ j) (s t : Standing) :
    (c.settle i s).settle j t = (c.settle j t).settle i s := by
  have waits : ∀ {k l : Nat} (u : Standing), k ≠ l →
      ((c.settle k u).waiting.contains l = true ↔ c.waiting.contains l = true) := by
    intro k l u other
    simp only [waiting_settle, List.contains_iff_mem, List.mem_filter, bne_iff_ne]
    exact and_iff_left other.symm
  have tables : (c.waiting.filter (· != i)).filter (· != j) =
      (c.waiting.filter (· != j)).filter (· != i) := by
    rw [List.filter_filter, List.filter_filter]
    refine List.filter_congr ?_
    intro k _
    exact Bool.and_comm _ _
  have receivers : ∀ f g : Receiver → Receiver,
      (c.receivers.map fun r => if r.1 == i then (r.1, f r.2) else r).map
          (fun r => if r.1 == j then (r.1, g r.2) else r) =
        (c.receivers.map fun r => if r.1 == j then (r.1, g r.2) else r).map
          (fun r => if r.1 == i then (r.1, f r.2) else r) := by
    intro f g
    rw [List.map_map, List.map_map]
    refine List.map_congr_left ?_
    intro r _
    by_cases hi : r.1 = i
    · have hj : r.1 ≠ j := hi ▸ h
      simp [hi, h]
    · by_cases hj : r.1 = j <;> simp [hi, hj, Ne.symm h]
  by_cases hi : c.waiting.contains i = true
  · by_cases hj : c.waiting.contains j = true
    · rw [settle, if_pos ((waits s h).mpr hj), settle, if_pos hi, settle,
        if_pos ((waits t h.symm).mpr hi), settle, if_pos hj]
      simp only [release, updateReceiver, tables, receivers]
    · rw [settle, if_neg (fun hw => hj ((waits s h).mp hw)), settle.eq_def c j t, if_neg hj]
  · rw [settle.eq_def c i s, if_neg hi, settle.eq_def (c.settle j t) i s,
      if_neg (fun hw => hi ((waits t h.symm).mp hw))]

theorem dispatch_comm (c : Correlator) {m m' : Message} (unnamed : m.method = none)
    (unnamed' : m'.method = none) (distinct : m.numericId? ≠ m'.numericId?) :
    ((c.dispatch m).2.dispatch m').2 = ((c.dispatch m').2.dispatch m).2 := by
  cases hi : m.numericId? with
  | none => rw [dispatch_unaddressed _ (Or.inr hi), dispatch_unaddressed _ (Or.inr hi)]
  | some i =>
    cases hj : m'.numericId? with
    | none => rw [dispatch_unaddressed _ (Or.inr hj), dispatch_unaddressed _ (Or.inr hj)]
    | some j =>
      have other : i ≠ j := by
        rintro rfl
        exact distinct (hi.trans hj.symm)
      rw [dispatch_eq_settle _ unnamed' hj, dispatch_eq_settle _ unnamed hi,
        dispatch_eq_settle _ unnamed hi, dispatch_eq_settle _ unnamed' hj]
      exact c.settle_comm other _ _

theorem foldl_dispatch_perm {responses shuffled : List Message} (h : Numbered responses)
    (perm : responses.Perm shuffled) (c : Correlator) :
    responses.foldl (fun c m => (c.dispatch m).2) c =
      shuffled.foldl (fun c m => (c.dispatch m).2) c := by
  refine perm.foldl_eq' ?_ c
  intro m hm m' hm' c
  by_cases same : m = m'
  · rw [same]
  · have distinct : m.numericId? ≠ m'.numericId? := fun equal =>
      same (List.inj_on_of_nodup_map h.distinct hm hm' equal)
    exact c.dispatch_comm (h.unnamed m hm) (h.unnamed m' hm') distinct

/-- What some responses make of a correlator: exactly the requests that they name have left the
table, each that waited holds its own response, and no other receiver has changed. -/
structure Answered (c : Correlator) (responses : List Message) (d : Correlator) : Prop where
  waiting : ∀ id, id ∈ d.waiting ↔
    id ∈ c.waiting ∧ ∀ m ∈ responses, m.numericId? ≠ some id
  served : ∀ m ∈ responses, ∀ id, m.numericId? = some id → id ∈ c.waiting →
    d.receiver? id = (c.receiver? id).map (Receiver.fill (.ok m))
  others : ∀ id, (id ∉ c.waiting ∨ ∀ m ∈ responses, m.numericId? ≠ some id) →
    d.receiver? id = c.receiver? id

theorem answered_dispatch (c : Correlator) {m : Message} {i : Nat} (unnamed : m.method = none)
    (hi : m.numericId? = some i) : c.Answered [m] (c.dispatch m).2 := by
  rw [dispatch_eq_settle c unnamed hi]
  refine ⟨?_, ?_, ?_⟩
  · intro id
    have apart : some i ≠ some id ↔ id ≠ i := by
      rw [Ne, Option.some.injEq]
      exact ne_comm
    rw [waiting_settle, List.mem_filter, bne_iff_ne, List.forall_mem_singleton, hi, apart]
  · intro m' hm' id hid hw
    obtain rfl := List.mem_singleton.mp hm'
    obtain rfl : i = id := Option.some.inj (hi.symm.trans hid)
    rw [receiver?_settle, if_pos ⟨rfl, hw⟩]
    cases c.receiver? i with
    | none => rfl
    | some r => cases r <;> rfl
  · intro id hid
    rw [receiver?_settle, if_neg]
    rintro ⟨rfl, hw⟩
    rcases hid with unlisted | unnamed
    · exact unlisted hw
    · exact unnamed m List.mem_cons_self hi

theorem answered_foldl {responses : List Message} (h : Numbered responses) (c : Correlator) :
    c.Answered responses (responses.foldl (fun c m => (c.dispatch m).2) c) := by
  induction responses generalizing c with
  | nil => exact ⟨by simp, by simp, by simp⟩
  | cons m responses ih =>
    have distinct := List.nodup_cons.mp h.distinct
    have rest : Numbered responses :=
      ⟨fun m hm => h.unnamed m (List.mem_cons_of_mem _ hm),
        fun m hm => h.numbered m (List.mem_cons_of_mem _ hm), distinct.2⟩
    obtain ⟨i, hi⟩ := Option.isSome_iff_exists.mp (h.numbered m List.mem_cons_self)
    have apart : ∀ m' ∈ responses, m'.numericId? ≠ some i := by
      intro m' hm' same
      refine distinct.1 (List.mem_map.mpr ⟨m', hm', ?_⟩)
      rw [same, hi]
    -- The responses that follow are for other requests, so that what the first has done stays.
    have one := c.answered_dispatch (h.unnamed m List.mem_cons_self) hi
    have more := ih rest (c.dispatch m).2
    rw [List.foldl_cons]
    refine ⟨?_, ?_, ?_⟩
    · intro id
      rw [more.waiting, one.waiting]
      simp only [List.mem_cons, List.not_mem_nil, or_false, forall_eq, forall_eq_or_imp, and_assoc]
    · intro m' hm' id hid hw
      rcases List.mem_cons.mp hm' with rfl | later
      · have own : i = id := Option.some.inj (hi.symm.trans hid)
        rw [more.others id (Or.inr (own ▸ apart)), one.served m' List.mem_cons_self id hid hw]
      · have other : m.numericId? ≠ some id := by
          intro same
          exact apart m' later (hid.trans (same.symm.trans hi))
        have untouched : ∀ n ∈ [m], n.numericId? ≠ some id := by
          intro n hn
          rw [List.mem_singleton.mp hn]
          exact other
        have still := (one.waiting id).mpr ⟨hw, untouched⟩
        rw [more.served m' later id hid still, one.others id (Or.inr untouched)]
    · intro id hid
      rcases hid with unlisted | unnamed
      · have gone : id ∉ (c.dispatch m).2.waiting := fun hw => unlisted ((one.waiting id).mp hw).1
        rw [more.others id (Or.inl gone), one.others id (Or.inl unlisted)]
      · have first : ∀ n ∈ [m], n.numericId? ≠ some id := by
          intro n hn
          rw [List.mem_singleton.mp hn]
          exact unnamed m List.mem_cons_self
        have later : ∀ n ∈ responses, n.numericId? ≠ some id := fun n hn =>
          unnamed n (List.mem_cons_of_mem _ hn)
        rw [more.others id (Or.inr later), one.others id (Or.inr first)]

/-- Whatever the order of the responses and whatever noise stands between them, every correlator
comes to the same state, in which each request that waited has its own response. -/
theorem arriveAll_perm {responses shuffled : List Message} (h : Numbered responses)
    (perm : responses.Perm shuffled) {first second : List Arrival} (one : Woven responses first)
    (other : Woven shuffled second) (c : Correlator) :
    c.arriveAll first = c.arriveAll second ∧ c.Answered responses (c.arriveAll first) := by
  rw [arriveAll_woven one, arriveAll_woven other]
  exact ⟨foldl_dispatch_perm h perm c, answered_foldl h c⟩

def numberedMessage (id : Nat) (method : Option String) : Message :=
  ⟨none, some (.nat id), method, none, none, none⟩

/-- The responses to the requests 1 and 2, the second one as the payload `[null,2]`. -/
def orderly : List Arrival :=
  [.message (numberedMessage 1 none), .payload [91, 110, 117, 108, 108, 44, 50, 93]]

/-- The same responses the other way round, with a request of the other side for the pending id 1
and a broken payload between them. -/
def disorderly : List Arrival :=
  [.payload [91, 110, 117, 108, 108, 44, 50, 93], .message (numberedMessage 1 (some "configure")),
    .payload [123], .message (numberedMessage 1 none)]

theorem arriveAll_disorderly :
    Numbered [numberedMessage 1 none, numberedMessage 2 none] ∧
    Woven [numberedMessage 1 none, numberedMessage 2 none] orderly ∧
    Woven [numberedMessage 2 none, numberedMessage 1 none] disorderly ∧
    (after [.request "a" .null, .request "b" .null, .request "c" .null]).arriveAll orderly =
      (after [.request "a" .null, .request "b" .null, .request "c" .null]).arriveAll disorderly ∧
    (after [.request "a" .null, .request "b" .null, .request "c" .null]).Answered
      [numberedMessage 1 none, numberedMessage 2 none]
      ((after [.request "a" .null, .request "b" .null, .request "c" .null]).arriveAll orderly) := by
  have numbered : Numbered [numberedMessage 1 none, numberedMessage 2 none] := by
    refine ⟨by simp [numberedMessage], ?_, ?_⟩
    · intro m hm
      rcases List.mem_cons.mp hm with rfl | hm
      · rfl
      · rw [List.mem_singleton.mp hm]
        rfl
    · show [some 1, some 2].Nodup
      decide
  have one : Woven [numberedMessage 1 none, numberedMessage 2 none] orderly :=
    .response (.framed rfl .nil)
  have other : Woven [numberedMessage 2 none, numberedMessage 1 none] disorderly :=
    .framed rfl (.noise (.serverRequest rfl rfl) (.noise (.malformed rfl) (.response .nil)))
  have same := arriveAll_perm numbered (List.Perm.swap _ _ _) one other
    (after [.request "a" .null, .request "b" .null, .request "c" .null])
  exact ⟨numbered, one, other, same.1, same.2⟩

end Correlator

end NotebookKernel.Rpc
