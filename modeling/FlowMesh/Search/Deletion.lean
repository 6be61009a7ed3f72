import FlowMesh.Search.Engine

/-!
# Deleted documents

Memory and file are two copies of a tenant's documents. `delete_document` takes a document out of
memory, and writes the file anew only where the tenant has an index in memory. So a run in which
every deletion meets an index in memory, or a file without the document, does not bring a deleted
document back (`deletion_durable`): memory and file both lack it from then on (`Lacks`), until it
is indexed again. After a restart the tenant has no index in memory before the first count.
-/

namespace FlowMesh.Search

open Python

/-! ## Documents that are nowhere -/

/-- A document is neither in memory nor in the file. -/
def Lacks (s : SearchState) (tenantId docId : String) : Prop :=
  (s.documents tenantId).get? docId = none ∧ (s.onDisk tenantId).get? docId = none

namespace SearchState

variable {s : SearchState} {tenantId : String}

theorem documents_set (idx : InvertedIndex) (tenantId' : String) :
    ({ s with tenantIndexes := s.tenantIndexes.set tenantId idx } : SearchState).documents
      tenantId' = if tenantId' = tenantId then idx.documents else s.documents tenantId' := by
  unfold documents
  simp only [Dict.get?_set]
  split <;> rfl

theorem onDisk_congr {s' : SearchState} (h : s'.files.get? tenantId = s.files.get? tenantId) :
    s'.onDisk tenantId = s.onDisk tenantId := by
  cases hfile : s.files.get? tenantId with
  | none =>
    unfold onDisk loadFromDisk
    simp [h, hfile, documents]
  | some tokens => rw [onDisk_of_get? hfile, onDisk_of_get? (h.trans hfile)]

theorem Linked.id_eq (h : s.Linked) {docId : String} {doc : SearchDocument}
    (hget : (s.documents tenantId).get? docId = some doc) : doc.id = docId := by
  unfold documents at hget
  cases hidx : s.tenantIndexes.get? tenantId with
  | none =>
    rw [hidx] at hget
    cases hget
  | some idx =>
    rw [hidx] at hget
    exact (h tenantId idx hidx).ids docId doc hget

/-- After a file was written it has the documents of the index, or none. -/
theorem onDisk_of_written {idx : InvertedIndex} (hlinked : idx.Linked) {tokens : List Token}
    (htokens : tokens <+: idx.dumped.tokens) {docId : String}
    (hlacks : idx.documents.get? docId = none) :
    (({ s with files := s.files.set tenantId tokens } : SearchState).onDisk tenantId).get? docId =
      none := by
  rw [onDisk_of_get? (Dict.get?_set_self ..)]
  by_cases hend : tokens ≠ idx.dumped.tokens ∨ ¬ idx.Serialisable
  · rw [InvertedIndex.readInto_of_incomplete htokens hend]
    rfl
  · push Not at hend
    obtain ⟨rfl, hall⟩ := hend
    rw [InvertedIndex.readInto_dumped hall, Option.map_some, Option.getD_some,
      hlinked.rebuilt.2.2]
    exact hlacks

/-- Loading into memory that has no documents of the tenant brings those of the file, or none. -/
theorem documents_loadFromDisk (hempty : (s.tenantIndexes.get? tenantId).getD {} = {})
    (faults : Faults) :
    (s.loadFromDisk true tenantId faults).2.documents tenantId = s.documents tenantId ∨
      (s.loadFromDisk true tenantId faults).2.documents tenantId = s.onDisk tenantId := by
  unfold loadFromDisk
  simp only [Bool.not_true, Bool.false_eq_true, if_false, hempty]
  cases hfile : s.files.get? tenantId with
  | none => exact .inl rfl
  | some tokens =>
    rw [onDisk_of_get? hfile]
    by_cases hreading : faults.reading = true
    · simp [hreading]
    · cases hread : readInto tokens {} with
      | none => simp [hreading, hread]
      | some r => simp [hreading, hread, documents_set]

theorem documents_loadFromDisk_of_ne {faults : Faults} {tenantId' : String}
    (hne : tenantId' ≠ tenantId) :
    (s.loadFromDisk true tenantId faults).2.documents tenantId' = s.documents tenantId' := by
  unfold loadFromDisk
  split
  · rfl
  · split
    · rfl
    · split
      · rfl
      · split
        · rfl
        · rw [documents_set, if_neg hne]

theorem files_loadFromDisk (enabled : Bool) (faults : Faults) :
    (s.loadFromDisk enabled tenantId faults).2.files = s.files := by
  unfold loadFromDisk
  split
  · rfl
  · split
    · rfl
    · split
      · rfl
      · split <;> rfl

end SearchState

theorem get?_removeDocument {idx : InvertedIndex} (h : idx.Linked) (docId docId' : String) :
    (idx.removeDocument docId).documents.get? docId' =
      if docId' = docId then none else idx.documents.get? docId' := by
  by_cases hmem : docId ∈ idx.documents.keys
  · rw [(h.removeDocument hmem).2.1, Dict.get?_erase]
  · have hsame : idx.removeDocument docId = idx := if_neg hmem
    rw [hsame]
    split
    · next heq =>
      rw [heq]
      exact Dict.get?_eq_none_iff.2 hmem
    · rfl

namespace Lacks

variable {s : SearchState} {tenantId docId : String}

theorem loadFromDisk (h : Lacks s tenantId docId) {tenantId' : String}
    (hempty : (s.tenantIndexes.get? tenantId').getD {} = {}) (faults : Faults) :
    Lacks (s.loadFromDisk true tenantId' faults).2 tenantId docId := by
  obtain ⟨hmemory, hdisk⟩ := h
  constructor
  · by_cases heq : tenantId = tenantId'
    · subst heq
      rcases SearchState.documents_loadFromDisk hempty faults with hsame | hloaded
      · rwa [hsame]
      · rwa [hloaded]
    · rwa [SearchState.documents_loadFromDisk_of_ne heq]
  · rw [SearchState.onDisk_congr (s := s)]
    · exact hdisk
    · rw [SearchState.files_loadFromDisk]

theorem persistToDisk (h : Lacks s tenantId docId) (hlinked : s.Linked) (tenantId' : String)
    (faults : Faults) : Lacks (s.persistToDisk true tenantId' faults).2 tenantId docId := by
  unfold SearchState.persistToDisk
  simp only [Bool.not_true, Bool.false_eq_true, if_false]
  split
  · exact h
  · next idx hget =>
    split
    · exact h
    · refine ⟨h.1, ?_⟩
      by_cases heq : tenantId = tenantId'
      · subst heq
        have hmemory := h.1
        rw [SearchState.documents_of_get? hget] at hmemory
        exact SearchState.onDisk_of_written (hlinked tenantId idx hget)
          (faults.write_prefix idx.dumped) hmemory
      · rw [SearchState.onDisk_congr (s := s)]
        · exact h.2
        · exact Dict.get?_set_of_ne heq _

theorem onIndex (h : Lacks s tenantId docId) {tenantId' : String}
    {f : InvertedIndex → InvertedIndex}
    (hf : ∀ idx : InvertedIndex, idx.documents.get? docId = none →
      s.tenantIndexes.get? tenantId' = some idx → tenantId = tenantId' →
        (f idx).documents.get? docId = none) : Lacks (s.onIndex tenantId' f) tenantId docId := by
  unfold SearchState.onIndex
  split
  · exact h
  · next idx hget =>
    refine ⟨?_, h.2⟩
    rw [SearchState.documents_set]
    split
    · next heq =>
      have hmemory := h.1
      rw [heq, SearchState.documents_of_get? hget] at hmemory
      exact hf idx hmemory hget heq
    · exact h.1

theorem addToIndex (h : Lacks s tenantId docId) (hlinked : s.Linked) {tenantId' : String}
    {doc : SearchDocument} (hdoc : tenantId = tenantId' → docId ≠ doc.id) (faults : Faults) :
    Lacks (s.addToIndex true tenantId' faults doc) tenantId docId := by
  have hcreated : Lacks (s.getOrCreateIndex true tenantId' faults) tenantId docId := by
    unfold SearchState.getOrCreateIndex
    split
    · exact h
    · next hnew =>
      apply Lacks.loadFromDisk
      · refine ⟨?_, h.2⟩
        rw [SearchState.documents_set]
        split
        · rfl
        · exact h.1
      · simp
  apply hcreated.onIndex
  intro idx hmemory hget heq
  have hidx := hlinked.getOrCreateIndex true faults tenantId' idx hget
  rw [(hidx.addDocument doc).2.1, Dict.get?_set_of_ne (hdoc heq)]
  exact hmemory

theorem addAllToIndex (h : Lacks s tenantId docId) (hlinked : s.Linked) {tenantId' : String}
    {docs : List SearchDocument} (hdocs : tenantId = tenantId' → docId ∉ docs.map (·.id))
    (faults : Faults) :
    Lacks (docs.foldl (SearchState.addToIndex true tenantId' faults) s) tenantId docId ∧
      (docs.foldl (SearchState.addToIndex true tenantId' faults) s).Linked := by
  induction docs generalizing s with
  | nil => exact ⟨h, hlinked⟩
  | cons doc docs ih =>
    simp only [List.map_cons, List.mem_cons, not_or] at hdocs
    exact ih (h.addToIndex hlinked (fun heq => (hdocs heq).1) faults)
      (hlinked.addToIndex true faults doc) fun heq => (hdocs heq).2

theorem removeDocument (h : Lacks s tenantId docId) (hlinked : s.Linked)
    (tenantId' docId' : String) :
    Lacks (s.onIndex tenantId' (·.removeDocument docId')) tenantId docId := by
  apply h.onIndex
  intro idx hmemory hget _
  rw [get?_removeDocument (hlinked tenantId' idx hget), hmemory, ite_self]

theorem clear (h : Lacks s tenantId docId) (tenantId' : String) (faults : Faults) :
    Lacks (s.clearTenant tenantId' faults) tenantId docId := by
  have hcleared : Lacks (s.onIndex tenantId' (·.clear)) tenantId docId :=
    h.onIndex fun _ _ _ _ => rfl
  unfold SearchState.clearTenant
  split
  · exact hcleared
  · refine ⟨hcleared.1, ?_⟩
    by_cases heq : tenantId = tenantId'
    · have hnone : (Dict.erase (s.onIndex tenantId' (·.clear)).files tenantId').get? tenantId =
          none := by rw [Dict.get?_erase, if_pos heq]
      unfold SearchState.onDisk SearchState.loadFromDisk
      simp [hnone, SearchState.documents]
    · rw [SearchState.onDisk_congr (s := s.onIndex tenantId' (·.clear))]
      · exact hcleared.2
      · rw [Dict.get?_erase, if_neg heq]

/-- A fresh engine over the same directory. -/
theorem restart (h : Lacks s tenantId docId) : Lacks { files := s.files } tenantId docId :=
  ⟨rfl, h.2⟩

/-- A deletion that returns, where the tenant has an index in memory. -/
theorem of_deleted (hlinked : s.Linked) (hloaded : tenantId ∈ s.tenantIndexes.keys)
    {faults : Faults} (hdone : (s.deleteDocument true tenantId docId true faults).1 = .ok ()) :
    Lacks (s.deleteDocument true tenantId docId true faults).2 tenantId docId := by
  obtain ⟨idx, hget⟩ := Dict.mem_keys_iff.1 hloaded
  have hlinked' := (hlinked tenantId idx hget).step (.remove docId)
  have hgone : (idx.removeDocument docId).documents.get? docId = none := by
    rw [get?_removeDocument (hlinked tenantId idx hget), if_pos rfl]
  have hremoved : (s.onIndex tenantId (·.removeDocument docId)).tenantIndexes.get? tenantId =
      some (idx.removeDocument docId) := by
    unfold SearchState.onIndex
    simp [hget]
  cases hopening : faults.opening with
  | some e =>
    unfold SearchState.deleteDocument SearchState.finish SearchState.persistToDisk at hdone
    simp [hremoved, hopening, Except.map] at hdone
  | none =>
    have hpersist := SearchState.persistToDisk_of_get? hremoved hopening
    unfold SearchState.deleteDocument SearchState.finish
    rw [if_pos rfl, hpersist]
    constructor
    · rw [← SearchState.documents_of_get? hremoved] at hgone
      exact hgone
    · exact SearchState.onDisk_of_written hlinked' (faults.write_prefix _) hgone

end Lacks

/-! ## Runs -/

/-- The documents that were deleted and not indexed since, with their tenants: what a call makes of
them, and its answer. -/
def SearchCall.deletedAfter (deleted : List (String × String)) (call : SearchCall)
    (answer : SearchAnswer) : List (String × String) :=
  match call, answer with
  | .deleteDocument tenantId docId, .done => (tenantId, docId) :: deleted
  | .indexDocument tenantId doc, _ => deleted.filter (· ≠ (tenantId, doc.id))
  | .indexDocuments tenantId docs, _ =>
    deleted.filter fun p => ¬ (p.1 = tenantId ∧ p.2 ∈ docs.map (·.id))
  | _, _ => deleted

/-- An engine, and what was deleted. -/
abbrev SearchLog := SearchState × List (String × String)

/-- What a call does, with the deletions remembered. -/
def SearchCall.logged (rank : Ranking) (m : SearchLog) (c : SearchCall × Faults) :
    SearchAnswer × SearchLog :=
  let (answer, s) := SearchCall.step rank m.1 c
  (answer, s, c.1.deletedAfter m.2 answer)

/-- No deleted document is found or counted. -/
def Respects (rank : Ranking) (m : SearchLog) (c : SearchCall × Faults) : Prop :=
  match c.1, SearchCall.step rank m.1 c with
  | .search tenantId _, (.found results, _) => ∀ r ∈ results, (tenantId, r.id) ∉ m.2
  | .getDocumentCount tenantId, (.counted n, s) =>
    n = ((s.documents tenantId).values.filter fun doc => (tenantId, doc.id) ∉ m.2).length
  | _, _ => True

theorem respects_getDocumentCount_iff {rank : Ranking} {m : SearchLog} {tenantId : String}
    {faults : Faults} : Respects rank m (.getDocumentCount tenantId, faults) ↔
      (m.1.getDocumentCount true tenantId faults).1 =
        (((m.1.getDocumentCount true tenantId faults).2.documents tenantId).values.filter fun doc =>
          (tenantId, doc.id) ∉ m.2).length := Iff.rfl

/-- A deletion meets an index in memory, or a file without the document. -/
def Rewrites (m : SearchLog) (c : SearchCall × Faults) : Prop :=
  match c.1 with
  | .deleteDocument tenantId docId =>
    tenantId ∈ m.1.tenantIndexes.keys ∨ docId ∉ (m.1.onDisk tenantId).keys
  | _ => True

/-- What was deleted is neither in memory nor in a file. -/
structure Durable (m : SearchLog) : Prop where
  linked : m.1.Linked
  lacks : ∀ p ∈ m.2, Lacks m.1 p.1 p.2

theorem Durable.step {m : SearchLog} (h : Durable m) (rank : Ranking) {c : SearchCall × Faults}
    (hc : Rewrites m c) : Durable (SearchCall.logged rank m c).2 := by
  obtain ⟨s, deleted⟩ := m
  obtain ⟨call, faults⟩ := c
  refine ⟨h.linked.step rank (call, faults), ?_⟩
  rintro ⟨tenantId, docId⟩ hp
  cases call with
  | indexDocument tenantId' doc =>
    obtain ⟨hold, hne⟩ := List.mem_filter.1 hp
    have hdoc : tenantId = tenantId' → docId ≠ doc.id := by
      rintro rfl rfl
      simp at hne
    exact ((h.lacks _ hold).addToIndex h.linked hdoc faults).persistToDisk
      (h.linked.addToIndex true faults doc) tenantId' faults
  | indexDocuments tenantId' docs =>
    obtain ⟨hold, hne⟩ := List.mem_filter.1 hp
    have hdocs : tenantId = tenantId' → docId ∉ docs.map (·.id) := by
      rintro rfl hmem
      simp [hmem] at hne
    obtain ⟨hlacks, hlinked⟩ := (h.lacks _ hold).addAllToIndex h.linked hdocs faults
    exact hlacks.persistToDisk hlinked tenantId' faults
  | deleteDocument tenantId' docId' =>
    have hlinked : (s.onIndex tenantId' (·.removeDocument docId')).Linked :=
      h.linked.onIndex fun idx hidx => hidx.step (.remove docId')
    have hkept : Lacks s tenantId docId →
        Lacks (s.deleteDocument true tenantId' docId' true faults).2 tenantId docId := fun hlacks =>
      (hlacks.removeDocument h.linked tenantId' docId').persistToDisk hlinked tenantId' faults
    cases hresult : (s.deleteDocument true tenantId' docId' true faults).1 with
    | error e =>
      have hold : (tenantId, docId) ∈ deleted := by
        simpa [SearchCall.logged, SearchCall.step, hresult, SearchAnswer.ofResult,
          SearchCall.deletedAfter] using hp
      exact hkept (h.lacks _ hold)
    | ok _ =>
      have hnew : (tenantId, docId) = (tenantId', docId') ∨ (tenantId, docId) ∈ deleted := by
        simpa [SearchCall.logged, SearchCall.step, hresult, SearchAnswer.ofResult,
          SearchCall.deletedAfter] using hp
      rcases hnew with heq | hold
      · cases heq
        by_cases hloaded : tenantId ∈ s.tenantIndexes.keys
        · exact Lacks.of_deleted h.linked hloaded hresult
        · apply hkept
          constructor
          · rw [SearchState.documents_of_not_mem hloaded]
            rfl
          · exact Dict.get?_eq_none_iff.2 (hc.resolve_left hloaded)
      · exact hkept (h.lacks _ hold)
  | clearTenant tenantId' => exact (h.lacks _ hp).clear tenantId' faults
  | getDocumentCount tenantId' =>
    show Lacks (SearchState.getDocumentCount true tenantId' faults s).2 tenantId docId
    unfold SearchState.getDocumentCount
    split
    · exact h.lacks _ hp
    · next hnew =>
      apply (h.lacks _ hp).loadFromDisk
      rw [Dict.get?_eq_none_iff.2 hnew]
      rfl
  | search tenantId' query => exact h.lacks _ hp
  | restart => exact (h.lacks _ hp).restart

theorem Durable.respects {m : SearchLog} (h : Durable m) (rank : Ranking)
    {c : SearchCall × Faults} (hc : Rewrites m c) : Respects rank m c := by
  obtain ⟨s, deleted⟩ := m
  obtain ⟨call, faults⟩ := c
  -- The step keeps what was deleted out of memory; that is where a count looks.
  have hnext := h.step rank hc
  cases call with
  | search tenantId query =>
    intro r hr hdeleted
    have hlacks := (h.lacks _ hdeleted).1
    unfold SearchState.search at hr
    split at hr
    · cases hr
    · next idx hget =>
      split at hr
      · cases hr
      · obtain ⟨docId, -, hfound⟩ := List.mem_filterMap.1 hr
        obtain ⟨doc, hdoc, rfl⟩ := Option.map_eq_some_iff.1 hfound
        rw [← SearchState.documents_of_get? hget] at hdoc
        have hid : doc.toResult.id = docId := h.linked.id_eq hdoc
        rw [hid, hdoc] at hlacks
        cases hlacks
  | getDocumentCount tenantId =>
    rw [respects_getDocumentCount_iff, List.filter_eq_self.2]
    · exact (List.length_map _).symm
    · intro doc hdoc
      obtain ⟨docId, hget⟩ := Dict.mem_values_iff.1 hdoc
      rw [hnext.linked.id_eq hget, decide_eq_true_iff]
      intro hdeleted
      have hlacks := (hnext.lacks _ hdeleted).1
      exact absurd (hlacks.symm.trans hget) (Option.some_ne_none _).symm
  | indexDocument _ _ | indexDocuments _ _ | deleteDocument _ _ | clearTenant _ | restart => trivial

/-- **Deletion is durable** in every run in which each deletion meets an index in memory, or a
file without the document. -/
theorem deletion_durable (rank : Ranking) {calls : List (SearchCall × Faults)}
    (h : Machine.Every (SearchCall.logged rank) Rewrites ({}, []) calls) :
    Machine.Every (SearchCall.logged rank) (Respects rank) ({}, []) calls := by
  have hempty : Durable (({}, []) : SearchLog) := by
    refine ⟨fun tenantId idx hget => ?_, fun p hp => ?_⟩
    · cases hget
    · cases hp
  exact h.of_invariant (fun m c hm hc => hm.step rank hc) (fun m c hm hc => hm.respects rank hc)
    hempty

/-- A document is indexed, deleted, and looked for after a restart. -/
theorem deletion_durable_loaded : Machine.Every (SearchCall.logged fun _ _ => ["wf_1"])
    (Respects fun _ _ => ["wf_1"]) ({}, [])
    [(.indexDocument "acme" (titled "Orders"), {}), (.deleteDocument "acme" "wf_1", {}),
      (.restart, {}), (.getDocumentCount "acme", {}),
      (.search "acme" ⟨"orders", none, 15⟩, {})] := by
  apply deletion_durable
  refine ⟨trivial, .inl ?_, trivial, trivial, trivial, trivial⟩
  decide +kernel

/-- A document that is deleted before the first count after a restart is still counted. -/
theorem not_respects_restarted : ¬ ∀ (rank : Ranking) (calls : List (SearchCall × Faults)),
    Machine.Every (SearchCall.logged rank) (Respects rank) ({}, []) calls := by
  intro hall
  obtain ⟨-, -, -, hcount, -⟩ := hall (fun _ _ => [])
    [(.indexDocument "acme" (titled "Orders"), {}), (.restart, {}),
      (.deleteDocument "acme" "wf_1", {}), (.getDocumentCount "acme", {})]
  rw [respects_getDocumentCount_iff] at hcount
  revert hcount
  decide +kernel

end FlowMesh.Search
