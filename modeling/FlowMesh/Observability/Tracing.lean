import FlowMesh.Library.Dict
import FlowMesh.Library.Machine
import FlowMesh.Library.Retention
import FlowMesh.Python.JsonStream
import Mathlib.Data.List.Sort

/-!
# The trace store

`TraceStore` (`app/observability/tracing.py`): the spans of at most `max_traces` traces, in a
dictionary by their traces, and the traces in a list of their own, by which the oldest one goes when
a new one comes. A trace that went may come again, and starts anew.

The list holds the traces that `Retention.kept` says, and the dictionary, for each of them, the
spans since it was last admitted (`traceStore_spec`). Times are any linear order.
-/

namespace FlowMesh.Tracing

open Python Retention

variable {Time : Type}

/-- `SpanRecord`. -/
structure SpanRecord (Time : Type) where
  traceId : String
  spanId : String
  parentSpanId : Option String := none
  name : String
  service : String := "flowmesh"
  startTime : Time
  endTime : Option Time := none
  durationMs : ℚ := 0
  status : String := "OK"
  attributes : List (String × Data) := []
  errorMessage : Option String := none

/-- `TraceStore`. -/
structure TraceStore (Time : Type) where
  traces : Dict String (List (SpanRecord Time)) := .empty
  traceOrder : List String := []
  maxTraces : ℕ := 1000

namespace TraceStore

/-- `self._traces[trace_id].append(span)`. -/
def append (store : TraceStore Time) (span : SpanRecord Time) : TraceStore Time :=
  let spans := (store.traces.get? span.traceId).getD []
  { store with traces := store.traces.set span.traceId (spans ++ [span]) }

/-- A trace without spans, at the end of the list. -/
def openTrace (store : TraceStore Time) (traceId : String) : TraceStore Time :=
  { store with
    traces := store.traces.set traceId []
    traceOrder := store.traceOrder ++ [traceId] }

/-- The oldest trace goes. There is none in an empty list. -/
def evict (store : TraceStore Time) : Except PyError (TraceStore Time) :=
  match store.traceOrder with
  | [] => .error ⟨.other, "pop from empty list"⟩
  | oldest :: traceOrder => .ok { store with traces := store.traces.erase oldest, traceOrder }

/-- `record_span`. -/
def recordSpan (store : TraceStore Time) (span : SpanRecord Time) :
    Except PyError (TraceStore Time) := do
  if span.traceId ∈ store.traces.keys then
    return store.append span
  else if store.maxTraces ≤ store.traceOrder.length then
    let store ← store.evict
    return (store.openTrace span.traceId).append span
  else
    return (store.openTrace span.traceId).append span

/-- `get_trace`. -/
def getTrace [LinearOrder Time] (store : TraceStore Time) (traceId : String) :
    Option (List (SpanRecord Time)) :=
  match store.traces.get? traceId with
  | none | some [] => none
  | some (span :: spans) =>
    some ((span :: spans).insertionSort fun s s' => s.startTime ≤ s'.startTime)

/-- `clear`. -/
def clear (store : TraceStore Time) : TraceStore Time :=
  { store with traces := .empty, traceOrder := [] }

end TraceStore

/-- The operations. -/
inductive TraceCall (Time : Type)
  | recordSpan (span : SpanRecord Time)
  | clear

/-- What an operation does. A span that cannot be recorded leaves the store as it is. -/
def TraceCall.step (store : TraceStore Time) :
    TraceCall Time → Except PyError Unit × TraceStore Time
  | .recordSpan span =>
    match store.recordSpan span with
    | .ok store' => (.ok (), store')
    | .error e => (.error e, store)
  | .clear => (.ok (), store.clear)

/-- What an operation adds to the spans since the last `clear`. -/
def TraceCall.extend (spans : List (SpanRecord Time)) : TraceCall Time → List (SpanRecord Time)
  | .recordSpan span => spans ++ [span]
  | .clear => []

/-- The spans that were recorded since the last `clear`. -/
def sinceClear (calls : List (TraceCall Time)) : List (SpanRecord Time) :=
  calls.foldl TraceCall.extend []

/-- The traces that are kept behind these spans: the last ones to be admitted. -/
def keptTraces (n : ℕ) (spans : List (SpanRecord Time)) : List String :=
  kept n (spans.map (·.traceId))

/-- The trace is kept since it was admitted for the first of these spans. -/
structure Stay (n : ℕ) (traceId : String) (past since : List (SpanRecord Time)) : Prop where
  first : ∃ span rest, since = span :: rest ∧ span.traceId = traceId
  admitted : traceId ∉ keptTraces n past
  stays : ∀ seen, seen ≠ [] → seen <+: since → traceId ∈ keptTraces n (past ++ seen)

/-- The spans of a trace. -/
def ofTrace (traceId : String) (spans : List (SpanRecord Time)) : List (SpanRecord Time) :=
  spans.filter (·.traceId = traceId)

/-- The store holds what is kept of these spans. -/
structure Holds (n : ℕ) (spans : List (SpanRecord Time)) (store : TraceStore Time) : Prop where
  maxTraces : store.maxTraces = n
  traceOrder : store.traceOrder = keptTraces n spans
  keys : ∀ traceId, traceId ∈ store.traces.keys ↔ traceId ∈ store.traceOrder
  spans : ∀ traceId ∈ store.traceOrder, ∃ past since, spans = past ++ since ∧
    Stay n traceId past since ∧ store.traces.get? traceId = some (ofTrace traceId since)

section Steps

variable {n : ℕ} {spans past since : List (SpanRecord Time)} {store : TraceStore Time}
  {traceId : String} {span : SpanRecord Time}

theorem keptTraces_concat : keptTraces n (spans ++ [span]) =
    kept n (spans.map (·.traceId) ++ [span.traceId]) := by
  simp [keptTraces]

/-- A trace that is still kept behind one more span. -/
theorem Stay.concat (h : Stay n traceId past since)
    (hkept : traceId ∈ keptTraces n (past ++ (since ++ [span]))) :
    Stay n traceId past (since ++ [span]) where
  first := by
    obtain ⟨first, rest, rfl, hfirst⟩ := h.first
    exact ⟨first, rest ++ [span], rfl, hfirst⟩
  admitted := h.admitted
  stays := by
    intro seen hne hseen
    rcases List.prefix_concat_iff.1 hseen with rfl | hseen
    · exact hkept
    · exact h.stays seen hne hseen

/-- A trace that is admitted. -/
theorem Stay.singleton (hn : 0 < n) (hnew : span.traceId ∉ keptTraces n past) :
    Stay n span.traceId past [span] where
  first := ⟨span, [], rfl, rfl⟩
  admitted := hnew
  stays := by
    intro seen hne hseen
    have hcases : seen = [] ++ [span] ∨ seen <+: [] := List.prefix_concat_iff.1 hseen
    rcases hcases with rfl | hnil
    · rw [List.nil_append, keptTraces_concat]
      exact mem_kept_concat hn
    · exact absurd (List.prefix_nil.1 hnil) hne

theorem Holds.empty : Holds n [] ({ maxTraces := n } : TraceStore Time) where
  maxTraces := rfl
  traceOrder := kept_nil.symm
  keys _ := Iff.rfl
  spans _ h := absurd h List.not_mem_nil

/-- A span of a trace that is kept. -/
theorem Holds.append (h : Holds n spans store) (hmem : span.traceId ∈ store.traceOrder) :
    Holds n (spans ++ [span]) (store.append span) := by
  have horder : keptTraces n (spans ++ [span]) = store.traceOrder := by
    rw [keptTraces_concat, kept_concat_of_mem, h.traceOrder]
    · rfl
    · rwa [h.traceOrder] at hmem
  refine ⟨h.maxTraces, horder.symm, fun traceId => ?_, fun traceId hkept => ?_⟩
  · simp only [TraceStore.append, Dict.mem_keys_set, h.keys]
    constructor
    · rintro (hin | rfl)
      · exact hin
      · exact hmem
    · exact Or.inl
  · obtain ⟨past, since, rfl, hstay, hget⟩ := h.spans traceId hkept
    rw [List.append_assoc] at horder ⊢
    refine ⟨past, since ++ [span], rfl, hstay.concat (by rwa [horder]), ?_⟩
    simp only [TraceStore.append, Dict.get?_set, ofTrace, List.filter_append]
    by_cases heq : traceId = span.traceId
    · subst heq
      simp [hget, ofTrace]
    · have hne : span.traceId ≠ traceId := fun h => heq h.symm
      simp [hget, ofTrace, heq, hne]

/-- A span of a new trace, once there is room for it. -/
theorem Holds.opened (hn : 0 < n) (h : Holds n spans store) {store' : TraceStore Time}
    (hnew : span.traceId ∉ store.traceOrder) (hmax : store'.maxTraces = n)
    (horder : keptTraces n (spans ++ [span]) = store'.traceOrder ++ [span.traceId])
    (hkeys : ∀ traceId, traceId ∈ store'.traces.keys ↔ traceId ∈ store'.traceOrder)
    (hget : ∀ traceId ∈ store'.traceOrder, traceId ∈ store.traceOrder ∧
      store'.traces.get? traceId = store.traces.get? traceId) :
    Holds n (spans ++ [span]) ((store'.openTrace span.traceId).append span) := by
  refine ⟨hmax, horder.symm, fun traceId => ?_, fun traceId hkept => ?_⟩
  · simp only [TraceStore.append, TraceStore.openTrace, Dict.mem_keys_set, hkeys, List.mem_append,
      List.mem_singleton, or_assoc, or_self]
  · rcases List.mem_append.1 hkept with hold | hself
    · obtain ⟨hmem, hsame⟩ := hget traceId hold
      obtain ⟨past, since, rfl, hstay, hspans⟩ := h.spans traceId hmem
      have hne : traceId ≠ span.traceId := fun heq => hnew (heq ▸ hmem)
      rw [List.append_assoc] at horder ⊢
      refine ⟨past, since ++ [span], rfl, hstay.concat ?_, ?_⟩
      · rw [horder]
        exact List.mem_append_left _ hold
      · have hne' : span.traceId ≠ traceId := fun heq => hne heq.symm
        simp [TraceStore.append, TraceStore.openTrace, Dict.get?_set, hne, hsame, hspans, ofTrace,
          hne']
    · obtain rfl := List.mem_singleton.1 hself
      have hnot : span.traceId ∉ keptTraces n spans := by rwa [← h.traceOrder]
      refine ⟨spans, [span], rfl, Stay.singleton hn hnot, ?_⟩
      simp [TraceStore.append, TraceStore.openTrace, ofTrace]

/-- What recording a span does. -/
theorem Holds.recordSpan (hn : 0 < n) (h : Holds n spans store) (span : SpanRecord Time) :
    ∃ store', store.recordSpan span = .ok store' ∧ Holds n (spans ++ [span]) store' := by
  unfold TraceStore.recordSpan
  simp only [h.keys, h.maxTraces]
  by_cases hmem : span.traceId ∈ store.traceOrder
  · rw [if_pos hmem]
    exact ⟨_, rfl, h.append hmem⟩
  have hnot : span.traceId ∉ kept n (spans.map (·.traceId)) := by
    rwa [h.traceOrder] at hmem
  have hnodup : store.traceOrder.Nodup := h.traceOrder ▸ nodup_kept hn
  have horder : keptTraces n (spans ++ [span]) = _ := keptTraces_concat
  rw [kept_concat hn hnot] at horder
  change _ = (if n ≤ (keptTraces n spans).length then (keptTraces n spans).tail
    else keptTraces n spans) ++ _ at horder
  rw [← h.traceOrder] at horder
  rw [if_neg hmem]
  split_ifs at horder ⊢ with hfull
  · cases hlist : store.traceOrder with
    | nil =>
      rw [hlist, List.length_nil] at hfull
      omega
    | cons oldest rest =>
      rw [hlist] at hnodup horder
      obtain ⟨holdest, -⟩ := List.nodup_cons.1 hnodup
      have hevict : store.evict =
          .ok { store with traces := store.traces.erase oldest, traceOrder := rest } := by
        unfold TraceStore.evict
        rw [hlist]
      rw [hevict]
      refine ⟨_, rfl, h.opened hn hmem h.maxTraces horder (fun traceId => ?_) fun traceId hin => ?_⟩
      · have hin := h.keys traceId
        rw [hlist, List.mem_cons, Dict.mem_keys_iff] at hin
        simp only [Dict.mem_keys_iff, Dict.get?_erase]
        by_cases heq : traceId = oldest
        · subst heq
          simp [holdest]
        · simpa [heq] using hin
      · have hne : traceId ≠ oldest := fun heq => holdest (heq ▸ hin)
        rw [hlist]
        exact ⟨List.mem_cons_of_mem _ hin, by rw [Dict.get?_erase, if_neg hne]⟩
  · exact ⟨_, rfl, h.opened hn hmem h.maxTraces horder h.keys fun _ hin => ⟨hin, rfl⟩⟩

end Steps

/-! ## Every run -/

theorem Holds.step {n : ℕ} (hn : 0 < n) {spans : List (SpanRecord Time)}
    {store : TraceStore Time} (h : Holds n spans store) (c : TraceCall Time) :
    Holds n (c.extend spans) (c.step store).2 := by
  cases c with
  | recordSpan span =>
    obtain ⟨store', hok, hholds⟩ := h.recordSpan hn span
    have hstep : ((TraceCall.recordSpan span).step store).2 = store' := by
      simp [TraceCall.step, hok]
    rw [hstep]
    exact hholds
  | clear =>
    have hclear : store.clear = { maxTraces := n } := by
      rw [← h.maxTraces]
      rfl
    show Holds n [] store.clear
    rw [hclear]
    exact Holds.empty

theorem holds_exec {n : ℕ} (hn : 0 < n) (calls : List (TraceCall Time)) :
    Holds n (sinceClear calls) (Machine.exec TraceCall.step { maxTraces := n } calls) := by
  induction calls using List.reverseRecOn with
  | nil => exact Holds.empty
  | append_singleton past c ih =>
    have hextend : sinceClear (past ++ [c]) = c.extend (sinceClear past) := List.foldl_concat ..
    rw [hextend, Machine.exec_concat]
    exact ih.step hn c

/-- A stay has spans. -/
theorem Stay.ofTrace_ne_nil {n : ℕ} {traceId : String} {past since : List (SpanRecord Time)}
    (h : Stay n traceId past since) : ofTrace traceId since ≠ [] := by
  obtain ⟨span, rest, rfl, rfl⟩ := h.first
  simp [ofTrace]

section GetTrace

variable [LinearOrder Time] {store : TraceStore Time} {traceId : String}
  {spans : List (SpanRecord Time)}

theorem getTrace_eq (h : store.traces.get? traceId = some spans) (hne : spans ≠ []) :
    store.getTrace traceId =
      some (spans.insertionSort fun s s' => s.startTime ≤ s'.startTime) := by
  unfold TraceStore.getTrace
  rw [h]
  cases spans with
  | nil => exact absurd rfl hne
  | cons span spans => rfl

/-- **Eviction**: after every sequence of operations, the list has no trace twice and has the traces
of the dictionary, at most `n` of them, and these are the last ones to be admitted, in this order;
and `get_trace` returns, for each of them, its spans since it was last admitted, by their start
times. -/
theorem traceStore_spec {n : ℕ} (hn : 1 ≤ n) (calls : List (TraceCall Time)) :
    let store := Machine.exec TraceCall.step { maxTraces := n } calls
    let spans := sinceClear calls
    store.traceOrder.Nodup ∧
      (∀ traceId, traceId ∈ store.traceOrder ↔ traceId ∈ store.traces.keys) ∧
        store.traceOrder.length ≤ n ∧ store.traceOrder = keptTraces n spans ∧
          ∀ traceId ∈ store.traceOrder, ∃ past since, spans = past ++ since ∧
            Stay n traceId past since ∧ ∃ found, store.getTrace traceId = some found ∧
              found.Perm (ofTrace traceId since) ∧
                found.Pairwise fun s s' => s.startTime ≤ s'.startTime := by
  intro store spans
  have hholds : Holds n spans store := holds_exec hn calls
  have horder := hholds.traceOrder
  refine ⟨horder ▸ nodup_kept hn, fun traceId => (hholds.keys traceId).symm,
    horder ▸ length_kept_le, horder, fun traceId hmem => ?_⟩
  obtain ⟨past, since, hsplit, hstay, hget⟩ := hholds.spans traceId hmem
  let byStart : SpanRecord Time → SpanRecord Time → Prop := fun s s' => s.startTime ≤ s'.startTime
  have htotal : Std.Total byStart := ⟨fun s s' => le_total s.startTime s'.startTime⟩
  have htrans : IsTrans (SpanRecord Time) byStart := ⟨fun _ _ _ h h' => le_trans h h'⟩
  exact ⟨past, since, hsplit, hstay, _, getTrace_eq hget hstay.ofTrace_ne_nil,
    List.perm_insertionSort _ _, List.pairwise_insertionSort byStart _⟩

end GetTrace

/-- A span that starts at a time. -/
def spanAt (traceId spanId : String) (startTime : ℚ) : SpanRecord ℚ :=
  { traceId, spanId, name := "node", startTime }

/-- One trace is kept: the first one goes and comes again. -/
theorem traceStore_spec_readmitted : ∃ past since,
    [spanAt "a" "1" 5, spanAt "b" "2" 6, spanAt "a" "3" 8, spanAt "a" "4" 7] = past ++ since ∧
      Stay 1 "a" past since := by
  have hspec := (traceStore_spec (n := 1) le_rfl [.recordSpan (spanAt "a" "1" 5),
    .recordSpan (spanAt "b" "2" 6), .recordSpan (spanAt "a" "3" 8),
    .recordSpan (spanAt "a" "4" 7)]).2.2.2.2
  obtain ⟨past, since, hsplit, hstay, -⟩ := hspec "a" (by decide)
  exact ⟨past, since, hsplit, hstay⟩

example : ((Machine.exec TraceCall.step { maxTraces := 1 } [.recordSpan (spanAt "a" "1" 5),
    .recordSpan (spanAt "b" "2" 6), .recordSpan (spanAt "a" "3" 8),
    .recordSpan (spanAt "a" "4" 7)]).getTrace "a").map (·.map (·.spanId)) = some ["4", "3"] := by
  decide +kernel

end FlowMesh.Tracing
