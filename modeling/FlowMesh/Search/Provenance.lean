import FlowMesh.Search.Hybrid

/-!
# Where documents come from

A call of the engine brings no documents into memory or into a file but those that it is given and
those that were there. So what holds of all documents of every tenant goes on to hold
(`Within.step`), over faults and restarts; and a search finds no others.

`Settled` says that a tenant has just these documents, in its file and, once it is loaded, in
memory.
-/

namespace FlowMesh.Search

open Python

/-- All documents, in memory and in files, satisfy `P`. -/
structure SearchState.Within (s : SearchState) (P : String → SearchDocument → Prop) : Prop where
  memory : ∀ tenantId docId doc, (s.documents tenantId).get? docId = some doc → P tenantId doc
  disk : ∀ tenantId docId doc, (s.onDisk tenantId).get? docId = some doc → P tenantId doc

namespace SearchState

variable {P : String → SearchDocument → Prop} {s : SearchState} {tenantId : String}

/-- After a file was written it has the documents of the index, or none. -/
theorem onDisk_written_cases (s : SearchState) (tenantId : String) {idx : InvertedIndex}
    (hlinked : idx.Linked) {tokens : List Token} (htokens : tokens <+: idx.dumped.tokens) :
    ({ s with files := s.files.set tenantId tokens } : SearchState).onDisk tenantId =
        idx.documents ∨
      ({ s with files := s.files.set tenantId tokens } : SearchState).onDisk tenantId = .empty := by
  rw [onDisk_of_get? (Dict.get?_set_self ..)]
  by_cases hend : tokens ≠ idx.dumped.tokens ∨ ¬ idx.Serialisable
  · rw [InvertedIndex.readInto_of_incomplete htokens hend]
    exact .inr rfl
  · push Not at hend
    obtain ⟨rfl, hall⟩ := hend
    rw [InvertedIndex.readInto_dumped hall, Option.map_some, Option.getD_some,
      hlinked.rebuilt.2.2]
    exact .inl rfl

theorem onDisk_of_no_file (h : s.files.get? tenantId = none) : s.onDisk tenantId = .empty := by
  unfold onDisk loadFromDisk
  simp [h, documents]

namespace Within

theorem mono {P' : String → SearchDocument → Prop} (h : s.Within P)
    (hP : ∀ tenantId doc, P tenantId doc → P' tenantId doc) : s.Within P' where
  memory tenantId docId doc hdoc := hP tenantId doc (h.memory tenantId docId doc hdoc)
  disk tenantId docId doc hdoc := hP tenantId doc (h.disk tenantId docId doc hdoc)

theorem loadFromDisk (h : s.Within P) (hempty : (s.tenantIndexes.get? tenantId).getD {} = {})
    (faults : Faults) : (s.loadFromDisk true tenantId faults).2.Within P where
  memory tenantId' docId doc hdoc := by
    by_cases heq : tenantId' = tenantId
    · subst heq
      rcases documents_loadFromDisk hempty faults with hsame | hloaded
      · exact h.memory _ _ _ (hsame ▸ hdoc)
      · exact h.disk _ _ _ (hloaded ▸ hdoc)
    · rw [documents_loadFromDisk_of_ne heq] at hdoc
      exact h.memory _ _ _ hdoc
  disk tenantId' docId doc hdoc := by
    rw [onDisk_congr (s := s) (by rw [files_loadFromDisk])] at hdoc
    exact h.disk _ _ _ hdoc

theorem persistToDisk (h : s.Within P) (hlinked : s.Linked) (faults : Faults) :
    (s.persistToDisk true tenantId faults).2.Within P := by
  unfold SearchState.persistToDisk
  simp only [Bool.not_true, Bool.false_eq_true, if_false]
  split
  · exact h
  · next idx hget =>
    split
    · exact h
    · refine ⟨h.memory, fun tenantId' docId doc hdoc => ?_⟩
      by_cases heq : tenantId' = tenantId
      · subst heq
        rcases onDisk_written_cases s tenantId' (hlinked tenantId' idx hget)
          (faults.write_prefix idx.dumped) with hwritten | hnone
        · rw [hwritten, ← documents_of_get? hget] at hdoc
          exact h.memory _ _ _ hdoc
        · rw [hnone] at hdoc
          cases hdoc
      · rw [onDisk_congr (s := s) (Dict.get?_set_of_ne heq _)] at hdoc
        exact h.disk _ _ _ hdoc

/-- The index of a tenant is changed to one whose documents are allowed. -/
theorem onIndex (h : s.Within P) {f : InvertedIndex → InvertedIndex}
    (hf : ∀ idx docId doc, s.tenantIndexes.get? tenantId = some idx →
      (f idx).documents.get? docId = some doc → P tenantId doc) :
    (s.onIndex tenantId f).Within P := by
  unfold SearchState.onIndex
  split
  · exact h
  · next idx hget =>
    refine ⟨fun tenantId' docId doc hdoc => ?_, h.disk⟩
    rw [documents_set] at hdoc
    split_ifs at hdoc with heq
    · exact heq ▸ hf idx docId doc hget hdoc
    · exact h.memory _ _ _ hdoc

theorem getOrCreateIndex (h : s.Within P) (tenantId : String) (faults : Faults) :
    (s.getOrCreateIndex true tenantId faults).Within P := by
  unfold SearchState.getOrCreateIndex
  split_ifs
  · exact h
  · have hcreated : ({ s with tenantIndexes := s.tenantIndexes.set tenantId {} } :
        SearchState).Within P := by
      refine ⟨fun tenantId' docId doc hdoc => ?_, h.disk⟩
      rw [documents_set] at hdoc
      split_ifs at hdoc
      · cases hdoc
      · exact h.memory _ _ _ hdoc
    exact hcreated.loadFromDisk (by rw [Dict.get?_set_self, Option.getD_some]) faults

theorem addToIndex (h : s.Within P) (hlinked : s.Linked) {doc : SearchDocument}
    (hdoc : P tenantId doc) (faults : Faults) :
    (s.addToIndex true tenantId faults doc).Within P := by
  have hcreated := h.getOrCreateIndex tenantId faults
  apply hcreated.onIndex
  intro idx docId doc' hget hdoc'
  have hidx := hlinked.getOrCreateIndex true faults tenantId idx hget
  rw [(hidx.addDocument doc).2.1, Dict.get?_set] at hdoc'
  split_ifs at hdoc'
  · cases hdoc'
    exact hdoc
  · rw [← documents_of_get? hget] at hdoc'
    exact hcreated.memory _ _ _ hdoc'

theorem addAllToIndex (h : s.Within P) (hlinked : s.Linked) {docs : List SearchDocument}
    (hdocs : ∀ doc ∈ docs, P tenantId doc) (faults : Faults) :
    (docs.foldl (SearchState.addToIndex true tenantId faults) s).Within P ∧
      (docs.foldl (SearchState.addToIndex true tenantId faults) s).Linked := by
  induction docs generalizing s with
  | nil => exact ⟨h, hlinked⟩
  | cons doc docs ih =>
    rw [List.forall_mem_cons] at hdocs
    exact ih (h.addToIndex hlinked hdocs.1 faults) (hlinked.addToIndex true faults doc) hdocs.2

theorem clear (h : s.Within P) (tenantId : String) (faults : Faults) :
    (s.clearTenant tenantId faults).Within P := by
  have hcleared : (s.onIndex tenantId (·.clear)).Within P :=
    h.onIndex fun idx docId doc _ hdoc => by cases hdoc
  unfold SearchState.clearTenant
  split_ifs
  · exact hcleared
  · refine ⟨hcleared.memory, fun tenantId' docId doc hdoc => ?_⟩
    by_cases heq : tenantId' = tenantId
    · rw [onDisk_of_no_file (by rw [Dict.get?_erase, if_pos heq])] at hdoc
      cases hdoc
    · rw [onDisk_congr (s := s.onIndex tenantId (·.clear))
        (by rw [Dict.get?_erase, if_neg heq])] at hdoc
      exact hcleared.disk _ _ _ hdoc

end Within

end SearchState

/-- The documents that a call is given, with their tenant. -/
def SearchCall.given : SearchCall → List (String × SearchDocument)
  | .indexDocument tenantId doc => [(tenantId, doc)]
  | .indexDocuments tenantId docs => docs.map fun doc => (tenantId, doc)
  | _ => []

/-- A call keeps what holds of all documents, if it holds of those that it is given. -/
theorem SearchState.Within.step {P : String → SearchDocument → Prop} {s : SearchState}
    (h : s.Within P) (hlinked : s.Linked) (rank : Ranking) {c : SearchCall × Faults}
    (hgiven : ∀ p ∈ c.1.given, P p.1 p.2) : (SearchCall.step rank s c).2.Within P := by
  obtain ⟨call, faults⟩ := c
  cases call with
  | indexDocument tenantId doc =>
    have hdoc : P tenantId doc := hgiven (tenantId, doc) (List.mem_singleton_self _)
    exact (h.addToIndex hlinked hdoc faults).persistToDisk (hlinked.addToIndex true faults doc)
      faults
  | indexDocuments tenantId docs =>
    have hdocs : ∀ doc ∈ docs, P tenantId doc := fun doc hdoc =>
      hgiven (tenantId, doc) (List.mem_map_of_mem hdoc)
    obtain ⟨hall, hlinked'⟩ := h.addAllToIndex hlinked hdocs faults
    exact hall.persistToDisk hlinked' faults
  | deleteDocument tenantId docId =>
    have hremoved : (s.onIndex tenantId (·.removeDocument docId)).Within P := by
      refine h.onIndex fun idx docId' doc hget hdoc => ?_
      rw [get?_removeDocument (hlinked tenantId idx hget)] at hdoc
      split_ifs at hdoc
      rw [← SearchState.documents_of_get? hget] at hdoc
      exact h.memory _ _ _ hdoc
    exact hremoved.persistToDisk (hlinked.onIndex fun idx hidx => hidx.step (.remove docId)) faults
  | clearTenant tenantId => exact h.clear tenantId faults
  | getDocumentCount tenantId =>
    show (SearchState.getDocumentCount true tenantId faults s).2.Within P
    unfold SearchState.getDocumentCount
    split_ifs with hloaded
    · exact h
    · refine h.loadFromDisk ?_ faults
      rw [Dict.get?_eq_none_iff.2 hloaded]
      rfl
  | search tenantId query => exact h
  | restart =>
    refine ⟨fun tenantId docId doc hdoc => ?_, h.disk⟩
    cases hdoc

/-! ## Just these documents -/

/-- The documents of a list, the last of an id. -/
def collect (docs : List SearchDocument) : Dict String SearchDocument :=
  docs.foldl (fun d doc => d.set doc.id doc) .empty

/-- Nothing is collected but the documents of the list. -/
theorem mem_of_mem_values_collect {docs : List SearchDocument} {doc : SearchDocument}
    (h : doc ∈ (collect docs).values) : doc ∈ docs := by
  have hloop : ∀ (docs : List SearchDocument) (d : Dict String SearchDocument),
      ∀ doc ∈ (docs.foldl (fun d doc => d.set doc.id doc) d).values,
        doc ∈ d.values ∨ doc ∈ docs := by
    intro docs
    induction docs with
    | nil => exact fun d doc hdoc => Or.inl hdoc
    | cons new docs ih =>
      intro d doc hdoc
      rcases ih (d.set new.id new) doc hdoc with hset | hrest
      · obtain ⟨docId, hget⟩ := Dict.mem_values_iff.1 hset
        rw [Dict.get?_set] at hget
        split_ifs at hget with hid
        · exact Or.inr (Option.some.inj hget ▸ List.mem_cons_self)
        · exact Or.inl (Dict.mem_values_iff.2 ⟨docId, hget⟩)
      · exact Or.inr (List.mem_cons_of_mem _ hrest)
  exact (hloop docs .empty doc h).resolve_left List.not_mem_nil

namespace SearchState

/-- A tenant has these documents in its file, and in memory once it has an index there. -/
structure Settled (s : SearchState) (tenantId : String) (docs : Dict String SearchDocument) :
    Prop where
  disk : s.onDisk tenantId = docs
  memory : tenantId ∈ s.tenantIndexes.keys → s.documents tenantId = docs

/-- Nothing has changed for a tenant. -/
structure Same (s s' : SearchState) (tenantId : String) : Prop where
  index : s'.tenantIndexes.get? tenantId = s.tenantIndexes.get? tenantId
  file : s'.files.get? tenantId = s.files.get? tenantId

variable {s s' s'' : SearchState} {tenantId tenantId' : String} {docs : Dict String SearchDocument}

namespace Same

theorem refl (s : SearchState) (tenantId : String) : s.Same s tenantId := ⟨rfl, rfl⟩

theorem trans (h : s.Same s' tenantId) (h' : s'.Same s'' tenantId) : s.Same s'' tenantId :=
  ⟨h'.index.trans h.index, h'.file.trans h.file⟩

theorem documents (h : s.Same s' tenantId) : s'.documents tenantId = s.documents tenantId := by
  unfold SearchState.documents
  rw [h.index]

theorem loadFromDisk (hne : tenantId ≠ tenantId') (faults : Faults) :
    s.Same (s.loadFromDisk true tenantId' faults).2 tenantId := by
  refine ⟨?_, by rw [files_loadFromDisk]⟩
  unfold SearchState.loadFromDisk
  split
  · rfl
  · split
    · rfl
    · split
      · rfl
      · split
        · rfl
        · exact Dict.get?_set_of_ne hne _

theorem persistToDisk (hne : tenantId ≠ tenantId') (faults : Faults) :
    s.Same (s.persistToDisk true tenantId' faults).2 tenantId := by
  unfold SearchState.persistToDisk
  split
  · exact refl s tenantId
  · split
    · exact refl s tenantId
    · split
      · exact refl s tenantId
      · exact ⟨rfl, Dict.get?_set_of_ne hne _⟩

theorem onIndex (hne : tenantId ≠ tenantId') (f : InvertedIndex → InvertedIndex) :
    s.Same (s.onIndex tenantId' f) tenantId := by
  unfold SearchState.onIndex
  split
  · exact refl s tenantId
  · exact ⟨Dict.get?_set_of_ne hne _, rfl⟩

theorem addToIndex (hne : tenantId ≠ tenantId') (faults : Faults) (doc : SearchDocument) :
    s.Same (s.addToIndex true tenantId' faults doc) tenantId := by
  refine trans ?_ (onIndex hne _)
  unfold SearchState.getOrCreateIndex
  split_ifs
  · exact refl s tenantId
  · have hcreated : s.Same { s with tenantIndexes := s.tenantIndexes.set tenantId' {} } tenantId :=
      ⟨Dict.get?_set_of_ne hne _, rfl⟩
    exact hcreated.trans (loadFromDisk hne faults)

theorem addAllToIndex (hne : tenantId ≠ tenantId') (faults : Faults)
    (docs : List SearchDocument) :
    s.Same (docs.foldl (SearchState.addToIndex true tenantId' faults) s) tenantId := by
  induction docs generalizing s with
  | nil => exact refl s tenantId
  | cons doc docs ih => exact trans (addToIndex hne faults doc) ih

theorem clear (hne : tenantId ≠ tenantId') (faults : Faults) :
    s.Same (s.clearTenant tenantId' faults) tenantId := by
  have hcleared := onIndex (s := s) hne (·.clear)
  unfold SearchState.clearTenant
  split_ifs
  · exact hcleared
  · refine ⟨hcleared.index, ?_⟩
    rw [Dict.get?_erase, if_neg hne]
    exact hcleared.file

end Same

theorem Settled.congr (h : s.Settled tenantId docs) (hsame : s.Same s' tenantId) :
    s'.Settled tenantId docs where
  disk := (onDisk_congr hsame.file).trans h.disk
  memory hmem := by
    rw [hsame.documents]
    refine h.memory ?_
    rw [Dict.mem_keys_iff] at hmem ⊢
    exact hsame.index ▸ hmem

/-- Loading the file of a tenant that has no index in memory. -/
theorem Settled.loadFromDisk (h : s.Settled tenantId docs)
    (hnew : tenantId ∉ s.tenantIndexes.keys) (faults : Faults) :
    (s.loadFromDisk true tenantId faults).2.Settled tenantId docs where
  disk := by
    rw [onDisk_congr (s := s) (by rw [files_loadFromDisk]), h.disk]
  memory := by
    unfold SearchState.loadFromDisk
    simp only [Bool.not_true, Bool.false_eq_true, if_false, Dict.get?_eq_none_iff.2 hnew,
      Option.getD_none]
    cases hfile : s.files.get? tenantId with
    | none => exact fun hmem => absurd hmem hnew
    | some tokens =>
      have hdisk := h.disk
      rw [onDisk_of_get? hfile] at hdisk
      simp only
      split_ifs
      · exact fun hmem => absurd hmem hnew
      · cases hread : readInto tokens {} with
        | none => exact fun hmem => absurd hmem hnew
        | some r =>
          intro _
          rw [hread] at hdisk
          rw [documents_set, if_pos rfl]
          exact hdisk

/-- Clearing, if the file can be removed. -/
theorem settled_clearTenant (s : SearchState) (tenantId : String) {faults : Faults}
    (hremoving : faults.removing = false) :
    (s.clearTenant tenantId faults).Settled tenantId .empty := by
  unfold SearchState.clearTenant
  rw [hremoving, if_neg Bool.false_ne_true]
  refine ⟨onDisk_of_no_file (by rw [Dict.get?_erase, if_pos rfl]), fun hmem => ?_⟩
  cases hget : s.tenantIndexes.get? tenantId with
  | none =>
    simp only [onIndex, hget] at hmem
    exact absurd hmem (Dict.get?_eq_none_iff.1 hget)
  | some idx =>
    have hcleared : (s.tenantIndexes.set tenantId idx.clear).get? tenantId = some idx.clear :=
      Dict.get?_set_self ..
    simp only [onIndex, hget]
    exact documents_of_get? (s := ⟨_, s.files.erase tenantId⟩) hcleared

/-- One document more in memory. -/
theorem documents_addToIndex (hlinked : s.Linked) (tenantId : String) (faults : Faults)
    (doc : SearchDocument) :
    (s.addToIndex true tenantId faults doc).documents tenantId =
      ((s.getOrCreateIndex true tenantId faults).documents tenantId).set doc.id doc := by
  have hmem : tenantId ∈ (s.getOrCreateIndex true tenantId faults).tenantIndexes.keys :=
    HybridState.mem_keys_getOrCreateIndex ..
  obtain ⟨idx, hget⟩ := Dict.mem_keys_iff.1 hmem
  have hidx := hlinked.getOrCreateIndex true faults tenantId idx hget
  rw [documents_of_get? hget, ← (hidx.addDocument doc).2.1]
  simp only [addToIndex, onIndex, hget, documents_set, if_true]

theorem mem_keys_addToIndex (tenantId : String) (faults : Faults) (s : SearchState)
    (doc : SearchDocument) :
    tenantId ∈ (s.addToIndex true tenantId faults doc).tenantIndexes.keys := by
  have hmem : tenantId ∈ (s.getOrCreateIndex true tenantId faults).tenantIndexes.keys :=
    HybridState.mem_keys_getOrCreateIndex ..
  obtain ⟨idx, hget⟩ := Dict.mem_keys_iff.1 hmem
  simp only [addToIndex, onIndex, hget]
  exact Dict.mem_keys_set.2 (Or.inr rfl)

/-- More documents in an index that is there. -/
theorem foldl_addToIndex (hlinked : s.Linked) (hmem : tenantId ∈ s.tenantIndexes.keys)
    (faults : Faults) (added : List SearchDocument) :
    let filled := added.foldl (addToIndex true tenantId faults) s
    filled.Linked ∧ tenantId ∈ filled.tenantIndexes.keys ∧ filled.documents tenantId =
      added.foldl (fun d doc => d.set doc.id doc) (s.documents tenantId) := by
  induction added generalizing s with
  | nil => exact ⟨hlinked, hmem, rfl⟩
  | cons doc added ih =>
    have hdocuments := documents_addToIndex hlinked tenantId faults doc
    rw [getOrCreateIndex, if_pos hmem] at hdocuments
    rw [List.foldl_cons, List.foldl_cons, ← hdocuments]
    exact ih (hlinked.addToIndex true faults doc) (mem_keys_addToIndex ..)

theorem Settled.documents_getOrCreateIndex (h : s.Settled tenantId .empty) (faults : Faults) :
    (s.getOrCreateIndex true tenantId faults).documents tenantId = .empty := by
  unfold getOrCreateIndex
  split_ifs with hmem
  · exact h.memory hmem
  · have hcreated : ({ s with tenantIndexes := s.tenantIndexes.set tenantId {} } :
        SearchState).documents tenantId = .empty := by rw [documents_set, if_pos rfl]
    have hempty : ((s.tenantIndexes.set tenantId {}).get? tenantId).getD {} = {} := by
      rw [Dict.get?_set_self, Option.getD_some]
    rcases documents_loadFromDisk (s := { s with tenantIndexes := s.tenantIndexes.set tenantId {} })
      hempty faults with hsame | hdisk
    · exact hsame.trans hcreated
    · exact hdisk.trans ((onDisk_congr (s := s) rfl).trans h.disk)

/-- Indexing in memory, for a tenant that has no documents. -/
theorem Settled.foldl_addToIndex (h : s.Settled tenantId .empty) (hlinked : s.Linked)
    (faults : Faults) (added : List SearchDocument) :
    let filled := added.foldl (addToIndex true tenantId faults) s
    filled.Linked ∧ (tenantId ∈ filled.tenantIndexes.keys →
      filled.documents tenantId = collect added) ∧
        (tenantId ∉ filled.tenantIndexes.keys → added = []) := by
  cases added with
  | nil => exact ⟨hlinked, h.memory, fun _ => rfl⟩
  | cons doc added =>
    have hfirst := documents_addToIndex hlinked tenantId faults doc
    rw [h.documents_getOrCreateIndex] at hfirst
    obtain ⟨hlinked', hmem, hdocuments⟩ := SearchState.foldl_addToIndex
      (hlinked.addToIndex true faults doc) (mem_keys_addToIndex tenantId faults s doc) faults added
    rw [hfirst] at hdocuments
    exact ⟨hlinked', fun _ => hdocuments, fun hnot => absurd hmem hnot⟩

theorem onDisk_of_restored (h : s.restored tenantId = some docs) : s.onDisk tenantId = docs := by
  unfold restored at h
  split_ifs at h
  exact Option.some.inj h

/-- A persisting that goes through. -/
theorem onDisk_persistToDisk (hlinked : s.Linked) {faults : Faults} {idx : InvertedIndex}
    (hget : s.tenantIndexes.get? tenantId = some idx)
    (hdone : ∀ e, (s.persistToDisk true tenantId faults).1 ≠ .error e) :
    (s.persistToDisk true tenantId faults).2.onDisk tenantId = s.documents tenantId := by
  have hopening : faults.opening = none := by
    cases hopening : faults.opening with
    | none => rfl
    | some e =>
      refine absurd ?_ (hdone e)
      unfold persistToDisk
      simp [hget, hopening]
  have hwritten : (s.persistToDisk true tenantId faults).1 = .ok true := by
    rw [persistToDisk_of_get? hget hopening] at hdone ⊢
    cases herror : (faults.write idx.dumped).error with
    | none => rfl
    | some e => exact absurd (by rw [herror]) (hdone e)
  obtain ⟨hwriting, hall⟩ := (persistToDisk_ok_iff hget hopening).1 hwritten
  refine onDisk_of_restored ?_
  rw [restored_persistToDisk (hlinked tenantId idx hget) hget hopening, documents_of_get? hget]
  refine ⟨hall, fun n e hsome => ?_, rfl⟩
  rw [hwriting] at hsome
  cases hsome

theorem tenantIndexes_persistToDisk (enabled : Bool) (tenantId : String) (faults : Faults)
    (s : SearchState) :
    (s.persistToDisk enabled tenantId faults).2.tenantIndexes = s.tenantIndexes := by
  unfold persistToDisk
  split
  · rfl
  · split
    · rfl
    · split <;> rfl

/-- Indexing for a tenant that has no documents. -/
theorem Settled.indexDocuments (h : s.Settled tenantId .empty) (hlinked : s.Linked)
    {added : List SearchDocument} {faults : Faults}
    (hdone : (s.indexDocuments true tenantId added true faults).1 = .ok ()) :
    (s.indexDocuments true tenantId added true faults).2.Settled tenantId (collect added) := by
  obtain ⟨hlinked', hcollected, hnothing⟩ := h.foldl_addToIndex hlinked faults added
  unfold SearchState.indexDocuments finish at hdone ⊢
  rw [if_pos rfl] at hdone ⊢
  set filled := added.foldl (addToIndex true tenantId faults) s with hfilled
  cases hget : filled.tenantIndexes.get? tenantId with
  | none =>
    obtain rfl := hnothing (Dict.get?_eq_none_iff.1 hget)
    have hpersist : filled.persistToDisk true tenantId faults = (.ok false, filled) := by
      unfold persistToDisk
      simp [hget]
    rw [hpersist]
    exact ⟨h.disk, hcollected⟩
  | some idx =>
    have hmemory := hcollected (Dict.mem_keys_iff.2 ⟨idx, hget⟩)
    have hpersisted : ∀ e, (filled.persistToDisk true tenantId faults).1 ≠ .error e := by
      intro e herror
      simp only [herror] at hdone
      cases hdone
    refine ⟨(onDisk_persistToDisk hlinked' hget hpersisted).trans hmemory, fun _ => ?_⟩
    unfold documents
    rw [tenantIndexes_persistToDisk]
    exact hmemory

/-- Indexing goes through for a tenant that has no documents, if the file can be written. -/
theorem Settled.indexDocuments_ok (h : s.Settled tenantId .empty) (hlinked : s.Linked)
    {added : List SearchDocument} {faults : Faults} (hopening : faults.opening = none)
    (hwriting : faults.writing = none) (hall : ∀ doc ∈ added, doc.toData.Serialisable) :
    (s.indexDocuments true tenantId added true faults).1 = .ok () ∧
      (s.indexDocuments true tenantId added true faults).2.documents tenantId = collect added := by
  obtain ⟨-, hcollected, hnothing⟩ := h.foldl_addToIndex hlinked faults added
  unfold SearchState.indexDocuments finish
  rw [if_pos rfl]
  set filled := added.foldl (addToIndex true tenantId faults) s with hfilled
  have hdocuments : (filled.persistToDisk true tenantId faults).2.documents tenantId =
      filled.documents tenantId := by
    unfold documents
    rw [tenantIndexes_persistToDisk]
  cases hget : filled.tenantIndexes.get? tenantId with
  | none =>
    obtain rfl := hnothing (Dict.get?_eq_none_iff.1 hget)
    have hempty : filled.documents tenantId = .empty := by simp [documents, hget]
    have hpersist : (filled.persistToDisk true tenantId faults).1 = .ok false := by
      unfold persistToDisk
      simp [hget]
    refine ⟨?_, hdocuments.trans hempty⟩
    simp only [hpersist]
    rfl
  | some idx =>
    have hmemory := hcollected (Dict.mem_keys_iff.2 ⟨idx, hget⟩)
    have hserialisable : idx.Serialisable := by
      intro doc hdoc
      rw [← documents_of_get? hget, hmemory] at hdoc
      exact hall doc (mem_of_mem_values_collect hdoc)
    have hpersist := (persistToDisk_ok_iff hget hopening).2 ⟨hwriting, hserialisable⟩
    refine ⟨?_, hdocuments.trans hmemory⟩
    simp only [hpersist]
    rfl

end SearchState

/-- The call does not change the documents of the tenant. -/
def SearchCall.Leaves (tenantId : String) : SearchCall → Prop
  | .indexDocument tenantId' _ | .indexDocuments tenantId' _ | .deleteDocument tenantId' _
  | .clearTenant tenantId' => tenantId ≠ tenantId'
  | _ => True

instance SearchCall.decidableLeaves (tenantId : String) :
    DecidablePred (SearchCall.Leaves tenantId)
  | .indexDocument tenantId' _ | .indexDocuments tenantId' _ | .deleteDocument tenantId' _
  | .clearTenant tenantId' => inferInstanceAs (Decidable (tenantId ≠ tenantId'))
  | .getDocumentCount _ | .search _ _ | .restart => .isTrue trivial

/-- What others do leaves a tenant settled. -/
theorem SearchState.Settled.step {s : SearchState} {tenantId : String}
    {docs : Dict String SearchDocument} (h : s.Settled tenantId docs) (rank : Ranking)
    {c : SearchCall × Faults} (hc : c.1.Leaves tenantId) :
    (SearchCall.step rank s c).2.Settled tenantId docs := by
  obtain ⟨call, faults⟩ := c
  cases call with
  | indexDocument tenantId' doc =>
    exact h.congr ((Same.addToIndex hc faults doc).trans (.persistToDisk hc faults))
  | indexDocuments tenantId' added =>
    exact h.congr ((Same.addAllToIndex hc faults added).trans (.persistToDisk hc faults))
  | deleteDocument tenantId' docId =>
    exact h.congr ((Same.onIndex hc _).trans (.persistToDisk hc faults))
  | clearTenant tenantId' => exact h.congr (.clear hc faults)
  | getDocumentCount tenantId' =>
    show (SearchState.getDocumentCount true tenantId' faults s).2.Settled tenantId docs
    unfold SearchState.getDocumentCount
    split_ifs with hloaded
    · exact h
    · by_cases heq : tenantId = tenantId'
      · exact heq ▸ h.loadFromDisk (heq ▸ hloaded) faults
      · exact h.congr (.loadFromDisk heq faults)
  | search tenantId' query => exact h
  | restart =>
    refine ⟨(SearchState.onDisk_congr rfl).trans h.disk, fun hmem => ?_⟩
    exact absurd hmem List.not_mem_nil

end FlowMesh.Search
