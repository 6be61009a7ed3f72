import FlowMesh.Search.Fusion
import FlowMesh.Search.Index
import FlowMesh.Search.Ranking
import FlowMesh.Search.Tokens
import FlowMesh.Search.Typo
import Mathlib.Data.Finset.Basic

/-!
# Lexical search

`InvertedIndex.search_lexical` (`flowmesh_search/index.py`). The signals are collected in three
nested loops: over the terms of the query, the terms of the index that match them, and the
documents of these. `mem_keys_candidateSignals` says which documents come out; the recency bonus,
which depends on the clock, is an argument.

A document is found by each of its tokens (`self_retrieval`): the token is the first term of the
query that it is, and the postings lead from it to the document as long as that is there
(`Led`), whatever was added over and removed. The documents that are there are those that were added
last and not removed since (`Standing`).
-/

namespace FlowMesh.Search

/-- A term of the index, its typos, and whether the term of the query is a prefix of it. -/
abbrev TermMatch := String × ℕ × Bool

/-- What the entity types let through. -/
def wanted (entityTypes : Option (Finset String)) (doc : SearchDocument) : Bool :=
  match entityTypes with
  | none => true
  | some types => types = ∅ ∨ doc.entityType ∈ types

/-- The loop body over the terms of the index that looks for typos. -/
def addTypoMatch (qTerm : String) (isLastTerm : Bool) (found : List TermMatch) (cand : String) :
    List TermMatch :=
  let (matched, typos, isP) := matchWithTypo qTerm cand isLastTerm 2
  if matched ∧ (cand, typos, isP) ∉ found then found ++ [(cand, typos, isP)] else found

namespace InvertedIndex

section Search

variable (idx : InvertedIndex)

/-- The loop over the terms of the index from `start_idx` on. -/
def prefixMatches (qTerm : String) : List TermMatch :=
  let startIdx := Bisect.bisectLeft idx.sortedTerms qTerm
  let cands := (idx.sortedTerms.drop startIdx).takeWhile fun cand =>
    qTerm.toList.isPrefixOf cand.toList
  (cands.filter (· ≠ qTerm)).map fun cand => (cand, 0, true)

/-- `matching_indexed_terms`. -/
def matchingIndexedTerms (qTerm : String) (isLastTerm : Bool) : List TermMatch :=
  let found := if qTerm ∈ idx.postings.keys then [(qTerm, 0, false)] else []
  let found := if isLastTerm ∧ 2 ≤ qTerm.length then found ++ idx.prefixMatches qTerm else found
  if found.length < 3 ∧ 4 ≤ qTerm.length then
    idx.sortedTerms.foldl (addTypoMatch qTerm isLastTerm) found
  else found

/-- The loop body over the documents of a term. -/
def addSignals (entityTypes : Option (Finset String)) (qTerm : String) (m : TermMatch)
    (candidateSignals : Dict String (List MatchSignal)) (entry : String × List Occurrence) :
    Dict String (List MatchSignal) :=
  let (indexedTerm, typos, isPrefix) := m
  let (docId, occurrences) := entry
  match idx.documents.get? docId with
  | none => candidateSignals
  | some doc =>
    if wanted entityTypes doc then
      occurrences.foldl (fun candidateSignals (attrName, pos) =>
        candidateSignals.set docId ((candidateSignals.get? docId).getD [] ++
          [⟨qTerm, indexedTerm, attrName, typos, isPrefix, pos⟩])) candidateSignals
    else candidateSignals

/-- The loop body over the terms of the index. -/
def addTermMatch (entityTypes : Option (Finset String)) (qTerm : String)
    (candidateSignals : Dict String (List MatchSignal)) (m : TermMatch) :
    Dict String (List MatchSignal) :=
  ((idx.postings.get? m.1).getD .empty).items.foldl (idx.addSignals entityTypes qTerm m)
    candidateSignals

/-- The loop body over the terms of the query. -/
def addQueryTerm (entityTypes : Option (Finset String)) (totalTerms : ℕ)
    (candidateSignals : Dict String (List MatchSignal)) (entry : String × ℕ) :
    Dict String (List MatchSignal) :=
  let (qTerm, termIdx) := entry
  let isLastTerm : Bool := termIdx = totalTerms - 1
  (idx.matchingIndexedTerms qTerm isLastTerm).foldl (idx.addTermMatch entityTypes qTerm)
    candidateSignals

/-- `candidate_signals`. -/
def candidateSignals (entityTypes : Option (Finset String)) (queryTerms : List String) :
    Dict String (List MatchSignal) :=
  queryTerms.zipIdx.foldl (idx.addQueryTerm entityTypes queryTerms.length) .empty

/-- `search_lexical`. -/
def searchLexical (recency : Option Python.DateTime → ℚ) (query : String)
    (entityTypes : Option (Finset String)) (maxCandidates : ℕ) : RankedList :=
  let queryTerms := tokenize query
  if queryTerms = [] then
    ((idx.documents.values.filter fun doc => wanted entityTypes doc).take maxCandidates).map
      fun doc => (doc.id, 1)
  else
    let scoredCandidates := (idx.candidateSignals entityTypes queryTerms).items.map
      fun (docId, signals) =>
        let createdAt := (idx.documents.get? docId).bind (·.createdAt)
        (docId,
          (computeCandidateScore docId queryTerms.length signals (recency createdAt)).finalScore)
    (scoredCandidates.insertionSort ByScore).take maxCandidates

end Search

/-! ## Which terms match -/

variable {idx : InvertedIndex}

theorem mem_addTypoMatches {qTerm : String} {isLastTerm : Bool} (cands : List String)
    {found : List TermMatch} {m : TermMatch} (h : m ∈ found) :
    m ∈ cands.foldl (addTypoMatch qTerm isLastTerm) found := by
  induction cands generalizing found with
  | nil => exact h
  | cons cand cands ih =>
    apply ih
    unfold addTypoMatch
    simp only
    split_ifs
    · exact List.mem_append_left _ h
    · exact h

/-- A term of the index matches itself. -/
theorem self_mem_matchingIndexedTerms {qTerm : String} (h : qTerm ∈ idx.postings.keys)
    (isLastTerm : Bool) : (qTerm, 0, false) ∈ idx.matchingIndexedTerms qTerm isLastTerm := by
  unfold matchingIndexedTerms
  simp only [if_pos h]
  set found := if isLastTerm = true ∧ 2 ≤ qTerm.length then
      [(qTerm, 0, false)] ++ idx.prefixMatches qTerm else [(qTerm, 0, false)] with hfound
  have hmem : (qTerm, 0, false) ∈ found := by
    rw [hfound]
    split_ifs <;> simp
  split_ifs
  · exact mem_addTypoMatches _ hmem
  · exact hmem

/-! ## Which documents come out -/

/-- A document that is there and has a type that is wanted. -/
def Searched (idx : InvertedIndex) (entityTypes : Option (Finset String)) (docId : String) : Prop :=
  ∃ doc, idx.documents.get? docId = some doc ∧ wanted entityTypes doc = true

section Candidates

variable {entityTypes : Option (Finset String)} {docId : String}
  {signals : Dict String (List MatchSignal)}

theorem mem_keys_addSignals {qTerm : String} {m : TermMatch}
    {entry : String × List Occurrence} :
    docId ∈ (idx.addSignals entityTypes qTerm m signals entry).keys ↔
      docId ∈ signals.keys ∨ docId = entry.1 ∧ entry.2 ≠ [] ∧ idx.Searched entityTypes docId := by
  obtain ⟨indexedTerm, typos, isP⟩ := m
  obtain ⟨docId', occurrences⟩ := entry
  have hloop := Dict.mem_keys_foldl (k := docId) (P := fun _ : Occurrence => docId = docId')
    (f := fun d occ => d.set docId' ((d.get? docId').getD [] ++
      [(⟨qTerm, indexedTerm, occ.1, typos, isP, occ.2⟩ : MatchSignal)]))
    (fun _ _ => Dict.mem_keys_set) occurrences signals
  have hnonempty : (∃ _occ ∈ occurrences, docId = docId') ↔ docId = docId' ∧ occurrences ≠ [] := by
    cases occurrences <;> simp
  unfold addSignals Searched
  simp only
  cases hdoc : idx.documents.get? docId' with
  | none =>
    simp only [iff_self_or, and_imp, forall_exists_index]
    rintro rfl - doc hget
    rw [hdoc] at hget
    cases hget
  | some doc =>
    simp only
    split_ifs with hwanted
    · rw [hloop, hnonempty]
      apply or_congr_right
      constructor
      · rintro ⟨rfl, hne⟩
        exact ⟨rfl, hne, doc, hdoc, hwanted⟩
      · rintro ⟨rfl, hne, -⟩
        exact ⟨rfl, hne⟩
    · simp only [iff_self_or, and_imp, forall_exists_index]
      rintro rfl - doc' hget hwanted'
      rw [hdoc] at hget
      cases hget
      exact absurd hwanted' hwanted

theorem mem_keys_addTermMatch {qTerm : String} {m : TermMatch} :
    docId ∈ (idx.addTermMatch entityTypes qTerm signals m).keys ↔
      docId ∈ signals.keys ∨ idx.Searched entityTypes docId ∧
        ∃ occurrences, idx.occurrences m.1 docId = some occurrences ∧ occurrences ≠ [] := by
  have hloop := Dict.mem_keys_foldl (f := idx.addSignals entityTypes qTerm m) (k := docId)
    (fun _ _ => mem_keys_addSignals) ((idx.postings.get? m.1).getD .empty).items signals
  unfold addTermMatch
  rw [hloop]
  apply or_congr_right
  constructor
  · rintro ⟨⟨docId', occurrences⟩, hentry, rfl, hne, hsearched⟩
    refine ⟨hsearched, occurrences, ?_, hne⟩
    have hget := Dict.mem_items_iff.1 hentry
    unfold InvertedIndex.occurrences
    cases hterm : idx.postings.get? m.1 with
    | none => simp [hterm] at hget
    | some docMap => simpa [hterm] using hget
  · rintro ⟨hsearched, occurrences, hget, hne⟩
    refine ⟨(docId, occurrences), ?_, rfl, hne, hsearched⟩
    unfold InvertedIndex.occurrences at hget
    obtain ⟨docMap, hterm, hdoc⟩ := Option.bind_eq_some_iff.1 hget
    rw [hterm]
    exact Dict.mem_items_iff.2 hdoc

/-- **The candidates** are the documents to which a matching term leads. -/
theorem mem_keys_candidateSignals {queryTerms : List String} :
    docId ∈ (idx.candidateSignals entityTypes queryTerms).keys ↔
      ∃ entry ∈ queryTerms.zipIdx,
        ∃ m ∈ idx.matchingIndexedTerms entry.1 (entry.2 = queryTerms.length - 1),
          idx.Searched entityTypes docId ∧
            ∃ occurrences, idx.occurrences m.1 docId = some occurrences ∧ occurrences ≠ [] := by
  have hquery : ∀ signals entry,
      docId ∈ (idx.addQueryTerm entityTypes queryTerms.length signals entry).keys ↔
        docId ∈ signals.keys ∨
          ∃ m ∈ idx.matchingIndexedTerms entry.1 (entry.2 = queryTerms.length - 1),
            idx.Searched entityTypes docId ∧
              ∃ occurrences, idx.occurrences m.1 docId = some occurrences ∧ occurrences ≠ [] := by
    intro signals entry
    exact Dict.mem_keys_foldl (f := idx.addTermMatch entityTypes entry.1)
      (fun _ _ => mem_keys_addTermMatch) _ signals
  have hempty : docId ∉ (Dict.empty : Dict String (List MatchSignal)).keys := List.not_mem_nil
  unfold candidateSignals
  rw [Dict.mem_keys_foldl hquery]
  exact or_iff_right hempty

theorem candidateSignals_keys_subset {queryTerms : List String} :
    (idx.candidateSignals entityTypes queryTerms).keys ⊆ idx.documents.keys := by
  intro docId hmem
  obtain ⟨-, -, -, -, ⟨doc, hdoc, -⟩, -⟩ := mem_keys_candidateSignals.1 hmem
  exact Dict.mem_keys_iff.2 ⟨doc, hdoc⟩

end Candidates

theorem Linked.map_id_values (h : idx.Linked) :
    idx.documents.values.map (·.id) = idx.documents.keys := by
  unfold Dict.values Dict.keys
  rw [List.map_map]
  apply List.map_congr_left
  rintro ⟨docId, doc⟩ hmem
  exact h.ids docId doc (Dict.mem_items_iff.1 hmem)

/-! ## What is returned -/

section Returned

variable {recency : Option Python.DateTime → ℚ} {query : String}
  {entityTypes : Option (Finset String)} {maxCandidates : ℕ}

/-- The ids that are returned for a query with terms, before the cut: the candidates. -/
theorem searchLexical_eq (hquery : tokenize query ≠ []) :
    ∃ scored : RankedList, idx.searchLexical recency query entityTypes maxCandidates =
        scored.take maxCandidates ∧
      scored.ids.Perm (idx.candidateSignals entityTypes (tokenize query)).keys := by
  refine ⟨_, if_neg hquery, ?_⟩
  have hperm := (List.perm_insertionSort ByScore
    ((idx.candidateSignals entityTypes (tokenize query)).items.map fun entry =>
      (entry.1, (computeCandidateScore entry.1 (tokenize query).length entry.2
        (recency ((idx.documents.get? entry.1).bind (·.createdAt)))).finalScore))).map Prod.fst
  rw [List.map_map] at hperm
  exact hperm

theorem ids_take (scored : RankedList) (n : ℕ) :
    RankedList.ids (scored.take n) = scored.ids.take n := List.map_take

/-- Each id once, of a document that is there. -/
theorem Linked.ids_searchLexical (h : idx.Linked) :
    (idx.searchLexical recency query entityTypes maxCandidates).ids.Nodup ∧
      (idx.searchLexical recency query entityTypes maxCandidates).ids ⊆ idx.documents.keys := by
  by_cases hquery : tokenize query = []
  · have hids : (idx.searchLexical recency query entityTypes maxCandidates).ids.Sublist
        idx.documents.keys := by
      unfold searchLexical RankedList.ids
      rw [if_pos hquery, List.map_map, ← h.map_id_values]
      exact ((List.take_sublist _ _).trans List.filter_sublist).map _
    exact ⟨idx.documents.nodup.sublist hids, hids.subset⟩
  · obtain ⟨scored, heq, hperm⟩ := @searchLexical_eq idx recency query entityTypes
      maxCandidates hquery
    have hsublist := List.take_sublist maxCandidates scored.ids
    rw [heq, ids_take]
    exact ⟨(hperm.nodup_iff.2 (Dict.nodup _)).sublist hsublist, fun docId hmem =>
      candidateSignals_keys_subset (hperm.subset (hsublist.subset hmem))⟩

/-- Nothing is cut off if there is room for all documents. -/
theorem mem_ids_searchLexical (hquery : tokenize query ≠ [])
    (hmax : idx.documents.items.length ≤ maxCandidates) {docId : String} :
    docId ∈ (idx.searchLexical recency query entityTypes maxCandidates).ids ↔
      docId ∈ (idx.candidateSignals entityTypes (tokenize query)).keys := by
  obtain ⟨scored, heq, hperm⟩ := @searchLexical_eq idx recency query entityTypes maxCandidates
    hquery
  have hlength : scored.ids.length ≤ maxCandidates := by
    calc scored.ids.length
        = (idx.candidateSignals entityTypes (tokenize query)).keys.length := hperm.length_eq
      _ ≤ idx.documents.keys.length :=
        (List.subperm_of_subset (Dict.nodup _) candidateSignals_keys_subset).length_le
      _ = idx.documents.items.length := List.length_map _
      _ ≤ maxCandidates := hmax
  rw [heq, ids_take, List.take_of_length_le hlength, hperm.mem_iff]

end Returned

/-! ## Every document is led to -/

/-- The postings lead from the tokens of every document that is there to it. -/
def Led (idx : InvertedIndex) : Prop :=
  ∀ docId doc, idx.documents.get? docId = some doc →
    ∀ entry ∈ doc.entries, entry.2 ∈ idx.bag entry.1 docId

theorem mem_entriesOf {entries : List (String × Occurrence)} {entry : String × Occurrence}
    (h : entry ∈ entries) : entry.2 ∈ entriesOf entry.1 entries :=
  List.mem_map.2 ⟨entry, List.mem_filter.2 ⟨h, by simp⟩, rfl⟩

theorem led_empty : Led {} := by
  intro docId doc hget
  cases hget

/-- Adding over a document leaves what the old one had; removing one touches no other. -/
theorem Linked.led_step (h : idx.Linked) (hled : idx.Led) (c : IndexCall) :
    (c.step idx).2.Led := by
  cases c with
  | add doc =>
    obtain ⟨-, hdocuments, hbag⟩ := h.addDocument doc
    intro docId doc' hget entry hentry
    show entry.2 ∈ (idx.addDocument doc).bag entry.1 docId
    change (idx.addDocument doc).documents.get? docId = some doc' at hget
    rw [hbag, Multiset.mem_add]
    rw [hdocuments, Dict.get?_set] at hget
    split_ifs at hget ⊢ with hid
    · cases hget
      exact Or.inr (mem_entriesOf hentry)
    · exact Or.inl (hled docId doc' hget entry hentry)
  | remove docId =>
    show (idx.removeDocument docId).Led
    by_cases hdoc : docId ∈ idx.documents.keys
    · intro docId' doc' hget entry hentry
      rw [(h.removeDocument hdoc).2.1, Dict.get?_erase] at hget
      rw [bag_removeDocument h hdoc]
      split_ifs at hget ⊢ with hid
      exact hled docId' doc' hget entry hentry
    · have hsame : idx.removeDocument docId = idx := if_neg hdoc
      rwa [hsame]
  | clear => exact led_empty

/-- After every sequence of operations. -/
theorem linked_and_led (calls : List IndexCall) :
    (Machine.exec IndexCall.step {} calls).Linked ∧ (Machine.exec IndexCall.step {} calls).Led := by
  have hstep : ∀ idx c, True → InvertedIndex.Linked idx ∧ idx.Led →
      (IndexCall.step idx c).2.Linked ∧ (IndexCall.step idx c).2.Led := by
    rintro idx c - ⟨hlinked, hled⟩
    exact ⟨hlinked.step c, hlinked.led_step hled c⟩
  exact Machine.exec_invariant hstep ⟨Linked.empty, led_empty⟩ fun _ _ => trivial

theorem exists_mem_entries {doc : SearchDocument} {field : String × String}
    (hfield : field ∈ doc.fields) {t : String} (ht : t ∈ tokenize field.2) :
    ∃ occurrence, (t, occurrence) ∈ doc.entries := by
  obtain ⟨pos, hpos⟩ := List.mem_iff_getElem?.1 ht
  refine ⟨(field.1, pos), List.mem_flatMap.2 ⟨field, hfield, ?_⟩⟩
  exact List.mem_map.2 ⟨(t, pos), List.mk_mem_zipIdx_iff_getElem?.2 hpos, rfl⟩

/-- A document is a candidate for its tokens. -/
theorem Linked.mem_candidateSignals (h : idx.Linked) (hled : idx.Led) {docId : String}
    {doc : SearchDocument} (hdoc : idx.documents.get? docId = some doc)
    {field : String × String} (hfield : field ∈ doc.fields) {t : String}
    (ht : t ∈ tokenize field.2) (rest : List String) :
    docId ∈ (idx.candidateSignals none (t :: rest)).keys := by
  obtain ⟨occurrence, hentry⟩ := exists_mem_entries hfield ht
  have hbag : occurrence ∈ idx.bag t docId := hled docId doc hdoc _ hentry
  have hterm : t ∈ idx.postings.keys := by
    apply h.mem_keys_iff.2
    refine ⟨docId, fun hzero => ?_⟩
    rw [hzero] at hbag
    cases hbag
  rw [mem_keys_candidateSignals]
  refine ⟨(t, 0), List.mem_cons_self, (t, 0, false), self_mem_matchingIndexedTerms hterm _,
    ⟨doc, hdoc, rfl⟩, ?_⟩
  cases hocc : idx.occurrences t docId with
  | none => simp [bag, hocc] at hbag
  | some l => exact ⟨l, rfl, fun hnil => h.occurring t docId (hnil ▸ hocc)⟩

end InvertedIndex

/-- The texts of a document that are indexed: its fields, and the tags that one of them joins. -/
def SearchDocument.texts (doc : SearchDocument) : List String :=
  doc.fields.map Prod.snd ++ doc.tags

/-- A token of a text is one of a field. -/
theorem exists_field {doc : SearchDocument} {text t : String} (htext : text ∈ doc.texts)
    (ht : t ∈ tokenize text) : ∃ field ∈ doc.fields, t ∈ tokenize field.2 := by
  rcases List.mem_append.1 htext with hfield | htag
  · obtain ⟨field, hmem, rfl⟩ := List.mem_map.1 hfield
    exact ⟨field, hmem, ht⟩
  · refine ⟨("tags", " ".intercalate doc.tags), ?_, tokenize_tag htag ht⟩
    simp [SearchDocument.fields]

/-! ## Documents that are there -/

/-- The operation adds or removes a document of the id. -/
def IndexCall.Touches (docId : String) : IndexCall → Prop
  | .add doc => doc.id = docId
  | .remove docId' => docId' = docId
  | .clear => True

/-- The document was added, and no operation behind touched its id. -/
def Standing (calls : List IndexCall) (doc : SearchDocument) : Prop :=
  ∃ past later, calls = past ++ .add doc :: later ∧ ∀ c ∈ later, ¬ c.Touches doc.id

theorem standing_concat {calls : List IndexCall} {c : IndexCall} {doc : SearchDocument} :
    Standing (calls ++ [c]) doc ↔ c = .add doc ∨ Standing calls doc ∧ ¬ c.Touches doc.id := by
  constructor
  · rintro ⟨past, later, heq, hlater⟩
    rcases List.eq_nil_or_concat later with rfl | ⟨later, c', rfl⟩
    · exact Or.inl (List.singleton_inj.1 (List.append_inj' heq rfl).2)
    · have hsplit : calls ++ [c] = past ++ .add doc :: later ++ [c'] := by simpa using heq
      obtain ⟨rfl, hlast⟩ := List.append_inj' hsplit rfl
      obtain rfl := List.singleton_inj.1 hlast
      have hc := hlater c (by simp)
      exact Or.inr ⟨⟨past, later, rfl, fun c' hc' => hlater c' (by simp [hc'])⟩, hc⟩
  · rintro (rfl | ⟨⟨past, later, rfl, hlater⟩, hc⟩)
    · exact ⟨calls, [], rfl, by simp⟩
    · refine ⟨past, later ++ [c], by simp, fun c' hc' => ?_⟩
      rcases List.mem_append.1 hc' with hc' | hc'
      · exact hlater c' hc'
      · rwa [List.mem_singleton.1 hc']

namespace InvertedIndex

/-- An operation leaves the documents that it does not touch, and adds its own. -/
theorem Linked.get?_step {idx : InvertedIndex} (h : idx.Linked) (c : IndexCall) (docId : String)
    (doc : SearchDocument) : (c.step idx).2.documents.get? docId = some doc ↔
      (c = .add doc ∧ doc.id = docId) ∨
        idx.documents.get? docId = some doc ∧ ¬ c.Touches docId := by
  cases c with
  | add new =>
    show (idx.addDocument new).documents.get? docId = some doc ↔ _
    rw [(h.addDocument new).2.1, Dict.get?_set]
    by_cases hid : docId = new.id
    · subst hid
      simp only [if_pos, Option.some.injEq, IndexCall.add.injEq, IndexCall.Touches, not_true,
        and_false, or_false]
      exact ⟨fun heq => ⟨heq, heq ▸ rfl⟩, fun heq => heq.1⟩
    · have hnew : ¬ (IndexCall.add new = .add doc ∧ doc.id = docId) := by
        rintro ⟨heq, rfl⟩
        cases heq
        exact hid rfl
      rw [if_neg hid, or_iff_right hnew]
      exact (and_iff_left fun heq => hid heq.symm).symm
  | remove docId' =>
    show (idx.removeDocument docId').documents.get? docId = some doc ↔ _
    have hget : (idx.removeDocument docId').documents.get? docId =
        if docId = docId' then none else idx.documents.get? docId := by
      by_cases hdoc : docId' ∈ idx.documents.keys
      · rw [(h.removeDocument hdoc).2.1, Dict.get?_erase]
      · have hsame : idx.removeDocument docId' = idx := if_neg hdoc
        rw [hsame]
        split_ifs with hid
        · rw [hid, Dict.get?_eq_none_iff]
          exact hdoc
        · rfl
    rw [hget]
    by_cases hid : docId = docId'
    · simp [hid, IndexCall.Touches]
    · simp [hid, IndexCall.Touches, Ne.symm hid]
  | clear =>
    show (Dict.empty : Dict String SearchDocument).get? docId = some doc ↔ _
    simp [Dict.get?, Dict.empty, IndexCall.Touches]

/-- **What is there** after a sequence of operations. -/
theorem get?_exec_iff (calls : List IndexCall) (docId : String) (doc : SearchDocument) :
    (Machine.exec IndexCall.step {} calls).documents.get? docId = some doc ↔
      doc.id = docId ∧ Standing calls doc := by
  induction calls using List.reverseRecOn with
  | nil => simp [Standing, Dict.get?, Dict.empty]
  | append_singleton calls c ih =>
    rw [Machine.exec_concat, (linked_and_led calls).1.get?_step, ih, standing_concat]
    constructor
    · rintro (⟨hc, hid⟩ | ⟨⟨rfl, hstanding⟩, htouches⟩)
      · exact ⟨hid, Or.inl hc⟩
      · exact ⟨rfl, Or.inr ⟨hstanding, htouches⟩⟩
    · rintro ⟨rfl, hc | ⟨hstanding, htouches⟩⟩
      · exact Or.inl ⟨hc, rfl⟩
      · exact Or.inr ⟨⟨rfl, hstanding⟩, htouches⟩

end InvertedIndex

/-- **Self-retrieval.** After every sequence of operations, the documents that were added last and
not removed since are there; a document is found by each of its tokens if there is room for all
documents, and a search returns no id twice, and none but those of the documents that are there. -/
theorem self_retrieval (recency : Option Python.DateTime → ℚ) (calls : List IndexCall) :
    let idx := Machine.exec IndexCall.step {} calls
    (∀ docId doc, idx.documents.get? docId = some doc ↔ doc.id = docId ∧ Standing calls doc) ∧
    (∀ doc ∈ idx.documents.values, ∀ text ∈ doc.texts, ∀ t ∈ tokenize text, ∀ maxCandidates,
      idx.documents.items.length ≤ maxCandidates →
        doc.id ∈ (idx.searchLexical recency t none maxCandidates).ids) ∧
      ∀ query entityTypes maxCandidates,
        (idx.searchLexical recency query entityTypes maxCandidates).ids.Nodup ∧
          (idx.searchLexical recency query entityTypes maxCandidates).ids ⊆ idx.documents.keys := by
  intro idx
  obtain ⟨hlinked, hled⟩ := InvertedIndex.linked_and_led calls
  refine ⟨InvertedIndex.get?_exec_iff calls, fun doc hdoc text htext t ht maxCandidates hmax => ?_,
    fun query entityTypes maxCandidates => hlinked.ids_searchLexical⟩
  obtain ⟨docId, hget⟩ := Dict.mem_values_iff.1 hdoc
  obtain ⟨field, hfield, hfieldToken⟩ := exists_field htext ht
  obtain ⟨rest, hquery⟩ := tokenize_token ht
  have hne : tokenize t ≠ [] := by simp [hquery]
  rw [hlinked.ids docId doc hget, InvertedIndex.mem_ids_searchLexical hne hmax, hquery]
  exact hlinked.mem_candidateSignals hled hget hfield hfieldToken rest

end FlowMesh.Search
