import FlowMesh.Search.Retrieval

/-!
# The terms of an index

What the three parts of an `InvertedIndex` (`flowmesh_search/index.py`) have to do with each other:
the terms are in order and are those of the postings, no entry is empty, and every posting is of a
document that is there (`terms_in_step`). So the scan of `search_lexical` that goes on from
`bisect_left` while the terms begin with the term of the query finds all that do
(`prefixMatches_exact`).
-/

namespace FlowMesh.Search

namespace InvertedIndex

variable {idx : InvertedIndex}

/-! ## Whose the postings are -/

/-- The postings are of documents that are there. -/
def Owned (idx : InvertedIndex) : Prop :=
  ∀ term docId, idx.occurrences term docId ≠ none → docId ∈ idx.documents.keys

theorem owned_empty : Owned {} := fun _ _ h => absurd rfl h

/-- A term occurs in a document exactly if there are occurrences. -/
theorem Linked.occurrences_ne_none_iff (h : idx.Linked) {term docId : String} :
    idx.occurrences term docId ≠ none ↔ idx.bag term docId ≠ 0 := by
  cases hocc : idx.occurrences term docId with
  | none => simp [bag, hocc]
  | some l =>
    have hne : l ≠ [] := fun heq => h.occurring term docId (heq ▸ hocc)
    simp [bag, hocc, hne]

/-- What is added is the new document's, and what is removed is the old one's. -/
theorem Linked.owned_step (h : idx.Linked) (howned : idx.Owned) (c : IndexCall) :
    (c.step idx).2.Owned := by
  cases c with
  | add doc =>
    obtain ⟨hlinked, hdocuments, hbag⟩ := h.addDocument doc
    intro term docId hocc
    show docId ∈ (idx.addDocument doc).documents.keys
    rw [hdocuments, Dict.mem_keys_set]
    by_cases hid : docId = doc.id
    · exact Or.inr hid
    · have hold : idx.bag term docId ≠ 0 := by
        have hnew := hlinked.occurrences_ne_none_iff.1 hocc
        rwa [hbag, if_neg hid, add_zero] at hnew
      exact Or.inl (howned term docId (h.occurrences_ne_none_iff.2 hold))
  | remove docId =>
    show (idx.removeDocument docId).Owned
    by_cases hdoc : docId ∈ idx.documents.keys
    · obtain ⟨-, hdocuments, hocc⟩ := h.removeDocument hdoc
      intro term docId' hne
      rw [hocc] at hne
      split_ifs at hne with hid
      · exact absurd rfl hne
      · obtain ⟨doc, hget⟩ := Dict.mem_keys_iff.1 (howned term docId' hne)
        rw [hdocuments, Dict.mem_keys_iff]
        exact ⟨doc, by rw [Dict.get?_erase, if_neg hid, hget]⟩
    · have hsame : idx.removeDocument docId = idx := if_neg hdoc
      rwa [hsame]
  | clear => exact owned_empty

theorem linked_and_owned (calls : List IndexCall) :
    (Machine.exec IndexCall.step {} calls).Linked ∧
      (Machine.exec IndexCall.step {} calls).Owned := by
  have hstep : ∀ idx c, True → InvertedIndex.Linked idx ∧ idx.Owned →
      (IndexCall.step idx c).2.Linked ∧ (IndexCall.step idx c).2.Owned := by
    rintro idx c - ⟨hlinked, howned⟩
    exact ⟨hlinked.step c, hlinked.owned_step howned c⟩
  exact Machine.exec_invariant hstep ⟨Linked.empty, owned_empty⟩ fun _ _ => trivial

end InvertedIndex

/-- **The parts of an index are in step** after every sequence of operations: the terms are in
strict order and are those of the postings, the map of each of them is not empty, and every entry of
it is of a document that is there and has occurrences. -/
theorem terms_in_step (calls : List IndexCall) :
    let idx := Machine.exec IndexCall.step {} calls
    idx.sortedTerms.Pairwise (· < ·) ∧
      (∀ term, term ∈ idx.sortedTerms ↔ term ∈ idx.postings.keys) ∧
        ∀ term docMap, idx.postings.get? term = some docMap →
          docMap.items ≠ [] ∧ ∀ docId occurrences, docMap.get? docId = some occurrences →
            docId ∈ idx.documents.keys ∧ occurrences ≠ [] := by
  intro idx
  obtain ⟨hlinked, howned⟩ := InvertedIndex.linked_and_owned calls
  refine ⟨hlinked.sorted, hlinked.terms, fun term docMap hterm => ⟨fun hnil => ?_, ?_⟩⟩
  · obtain ⟨docId, hin⟩ := hlinked.inhabited term docMap hterm
    simp [Dict.keys, hnil] at hin
  · intro docId occurrences hdoc
    have hocc : idx.occurrences term docId = some occurrences := by
      rw [InvertedIndex.occurrences, hterm]
      exact hdoc
    constructor
    · exact howned term docId (by rw [hocc]; exact Option.some_ne_none _)
    · rintro rfl
      exact hlinked.occurring term docId hocc

/-! ## The prefix scan -/

/-- The words that begin with `q` come behind it, without gaps. -/
theorem isPrefixOf_of_le {q b c : String} (hqb : q ≤ b) (hbc : b ≤ c)
    (hc : q.toList.isPrefixOf c.toList = true) : q.toList.isPrefixOf b.toList = true := by
  rw [List.isPrefixOf_iff_prefix] at hc ⊢
  exact Bisect.prefix_of_le_of_le (String.le_iff_toList_le.1 hqb) (String.le_iff_toList_le.1 hbc) hc

theorem le_of_isPrefixOf {q b : String} (h : q.toList.isPrefixOf b.toList = true) : q ≤ b := by
  rw [List.isPrefixOf_iff_prefix] at h
  exact String.le_iff_toList_le.2 (Bisect.le_of_prefix h)

/-- **The prefix scan** finds the terms other than the one of the query that begin with it, in
order: exactly these terms of the postings, each once. -/
theorem prefixMatches_exact {idx : InvertedIndex} (hsorted : idx.sortedTerms.Pairwise (· < ·))
    (hterms : ∀ term, term ∈ idx.sortedTerms ↔ term ∈ idx.postings.keys) (qTerm : String) :
    (idx.prefixMatches qTerm).Nodup ∧
      ∀ m, m ∈ idx.prefixMatches qTerm ↔
        m.1 ∈ idx.postings.keys ∧ m.1 ≠ qTerm ∧ qTerm.toList <+: m.1.toList ∧
          m.2 = (0, true) := by
  have hblock := Bisect.takeWhile_drop_bisectLeft hsorted (fun b hb => le_of_isPrefixOf hb)
    fun b c hqb hbc hc => isPrefixOf_of_le (q := qTerm) hqb hbc hc
  have hscan : idx.prefixMatches qTerm =
      ((idx.sortedTerms.filter fun cand => qTerm.toList.isPrefixOf cand.toList).filter
        (· ≠ qTerm)).map fun cand => (cand, 0, true) := by
    unfold InvertedIndex.prefixMatches
    simp only [hblock]
  rw [hscan]
  constructor
  · have hnodup : idx.sortedTerms.Nodup := hsorted.imp fun h => h.ne
    exact ((hnodup.filter _).filter _).map fun _ _ heq => congrArg Prod.fst heq
  · rintro ⟨cand, typos⟩
    simp only [List.mem_map, List.mem_filter, List.isPrefixOf_iff_prefix, decide_eq_true_eq,
      hterms, Prod.mk.injEq]
    constructor
    · rintro ⟨_, ⟨⟨hmem, hq⟩, hne⟩, rfl, rfl⟩
      exact ⟨hmem, hne, hq, rfl⟩
    · rintro ⟨hmem, hne, hq, rfl⟩
      exact ⟨cand, ⟨⟨hmem, hq⟩, hne⟩, rfl, rfl⟩

/-- The workflow that is titled `Orders`, for `ord`. -/
theorem prefixMatches_orders : ("orders", 0, true) ∈
    (Machine.exec IndexCall.step {} [.add (titled "Orders")]).prefixMatches "ord" := by
  have hlinked := (InvertedIndex.linked_and_owned [.add (titled "Orders")]).1
  rw [(prefixMatches_exact hlinked.sorted hlinked.terms "ord").2]
  exact ⟨by decide +kernel, by decide, by decide +kernel, rfl⟩

end FlowMesh.Search
