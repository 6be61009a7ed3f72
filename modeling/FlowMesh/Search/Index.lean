import FlowMesh.Library.Bisect
import FlowMesh.Library.Machine
import FlowMesh.Search.Document
import Mathlib.Algebra.Order.Group.Multiset
import Mathlib.Data.Multiset.AddSub
import Mathlib.Data.String.Basic

/-!
# The inverted index

`InvertedIndex` (`flowmesh_search/index.py`): the documents of a tenant, the postings that lead
from a term to the documents with its occurrences, and the terms in order.

`InvertedIndex.bag` is what the postings say of a term and a document, as a multiset. It is kept
by the following rules: adding a document adds its occurrences (`bag_addDocument`), removing one
that is there takes all of them away (`bag_removeDocument`). So an index is as if it were built
from its documents (`RebuiltAlike`) all along a run exactly if no document is added over another
one that has tokens (`rebuilt_iff`): nothing removes what the old document left.
-/

namespace FlowMesh.Search

/-! ## The index -/

/-- An attribute, and a position in it. -/
abbrev Occurrence := String × ℕ

/-- `InvertedIndex`. -/
structure InvertedIndex where
  documents : Dict String SearchDocument := .empty
  postings : Dict String (Dict String (List Occurrence)) := .empty
  sortedTerms : List String := []

/-- `fields`. -/
def SearchDocument.fields (doc : SearchDocument) : List (String × String) :=
  [("id", doc.id), ("title", doc.title), ("tags", " ".intercalate doc.tags),
    ("description", doc.description.getD ""), ("status", doc.status.getD "")]

/-- The tokens of a document, with where they occur. -/
def SearchDocument.entries (doc : SearchDocument) : List (String × Occurrence) :=
  doc.fields.flatMap fun (attrName, attrVal) =>
    (tokenizeWithPositions attrVal).map fun (token, pos) => (token, attrName, pos)

namespace InvertedIndex

/-- The loop body over the tokens of a document. -/
def addEntry (idx : InvertedIndex) (docId : String) (entry : String × Occurrence) :
    InvertedIndex :=
  let (token, occurrence) := entry
  let docMap := (idx.postings.get? token).getD .empty
  { idx with
    postings := idx.postings.set token
      (docMap.set docId ((docMap.get? docId).getD [] ++ [occurrence]))
    sortedTerms := if token ∈ idx.postings.keys then idx.sortedTerms
      else Bisect.insort idx.sortedTerms token }

/-- `add_document`. -/
def addDocument (idx : InvertedIndex) (doc : SearchDocument) : InvertedIndex :=
  doc.entries.foldl (fun idx entry => idx.addEntry doc.id entry)
    { idx with documents := idx.documents.set doc.id doc }

/-- `empty_terms`. -/
def emptyTerms (idx : InvertedIndex) (docId : String) : List String :=
  (idx.postings.items.filter fun p => docId ∈ p.2.keys ∧ (p.2.erase docId).items = []).map (·.1)

/-- The loop body over `empty_terms`. -/
def dropTerm (idx : InvertedIndex) (term : String) : InvertedIndex :=
  { idx with
    postings := idx.postings.erase term
    sortedTerms := Bisect.discard idx.sortedTerms term }

/-- `remove_document`. -/
def removeDocument (idx : InvertedIndex) (docId : String) : InvertedIndex :=
  if docId ∈ idx.documents.keys then
    (idx.emptyTerms docId).foldl dropTerm
      { idx with
        documents := idx.documents.erase docId
        postings := idx.postings.mapValues (·.erase docId) }
  else idx

/-- `clear`. -/
def clear (_idx : InvertedIndex) : InvertedIndex := {}

/-! ## What the postings say -/

variable (idx : InvertedIndex)

/-- `postings[term][docId]`, if there is one. -/
def occurrences (term docId : String) : Option (List Occurrence) :=
  (idx.postings.get? term).bind (·.get? docId)

/-- The occurrences of a term in a document. -/
def bag (term docId : String) : Multiset Occurrence := ((idx.occurrences term docId).getD [] :)

/-- The same postings, as maps from terms to documents to multisets of occurrences, and the same
set of terms. -/
structure Alike (idx idx' : InvertedIndex) : Prop where
  terms : ∀ term, term ∈ idx.postings.keys ↔ term ∈ idx'.postings.keys
  occurrences : ∀ term docId,
    (idx.occurrences term docId).map (fun l => (l : Multiset Occurrence)) =
      (idx'.occurrences term docId).map fun l => (l : Multiset Occurrence)
  sortedTerms : ∀ term, term ∈ idx.sortedTerms ↔ term ∈ idx'.sortedTerms

/-- A fresh index to which the documents were added. -/
def rebuilt : InvertedIndex := idx.documents.values.foldl addDocument {}

/-- The index is as one to which its documents were added once each. -/
def RebuiltAlike : Prop := idx.Alike idx.rebuilt

end InvertedIndex

/-- The operations. -/
inductive IndexCall
  | add (doc : SearchDocument)
  | remove (docId : String)
  | clear

/-- What an operation does. -/
def IndexCall.step (idx : InvertedIndex) : IndexCall → Unit × InvertedIndex
  | .add doc => ((), idx.addDocument doc)
  | .remove docId => ((), idx.removeDocument docId)
  | .clear => ((), idx.clear)

/-- No document that has tokens is added over. -/
def IndexCall.Fresh (idx : InvertedIndex) : IndexCall → Prop
  | .add doc => ∀ old, idx.documents.get? doc.id = some old → old.entries = []
  | _ => True

/-! ## The shape of an index -/

namespace InvertedIndex

variable {idx : InvertedIndex}

/-- The documents are stored under their ids, the terms are those of the postings, in order, and
no term or document is there without occurrences. -/
structure Linked (idx : InvertedIndex) : Prop where
  ids : ∀ docId doc, idx.documents.get? docId = some doc → doc.id = docId
  sorted : idx.sortedTerms.Pairwise (· < ·)
  terms : ∀ term, term ∈ idx.sortedTerms ↔ term ∈ idx.postings.keys
  inhabited : ∀ term docMap, idx.postings.get? term = some docMap → ∃ docId, docId ∈ docMap.keys
  occurring : ∀ term docId, idx.occurrences term docId ≠ some []

theorem Linked.empty : Linked {} where
  ids _ _ h := by cases h
  sorted := List.Pairwise.nil
  terms _ := Iff.rfl
  inhabited _ _ h := by cases h
  occurring _ _ h := by cases h

/-- The terms are those with occurrences. -/
theorem Linked.mem_keys_iff (h : idx.Linked) {term : String} :
    term ∈ idx.postings.keys ↔ ∃ docId, idx.bag term docId ≠ 0 := by
  rw [Dict.mem_keys_iff]
  constructor
  · rintro ⟨docMap, hterm⟩
    obtain ⟨docId, hdoc⟩ := h.inhabited term docMap hterm
    obtain ⟨l, hl⟩ := Dict.mem_keys_iff.1 hdoc
    have hocc : idx.occurrences term docId = some l := by
      rw [occurrences, hterm]
      exact hl
    refine ⟨docId, fun hzero => h.occurring term docId ?_⟩
    rw [bag, hocc] at hzero
    rw [hocc, (Multiset.coe_eq_zero l).1 hzero]
  · rintro ⟨docId, hbag⟩
    cases hterm : idx.postings.get? term with
    | some docMap => exact ⟨docMap, rfl⟩
    | none => exact absurd (by simp [bag, occurrences, hterm]) hbag

/-- The occurrences, read off the bags. -/
theorem Linked.map_occurrences (h : idx.Linked) (term docId : String) :
    (idx.occurrences term docId).map (fun l => (l : Multiset Occurrence)) =
      if idx.bag term docId = 0 then none else some (idx.bag term docId) := by
  cases hocc : idx.occurrences term docId with
  | none => simp [bag, hocc]
  | some l =>
    have hne : l ≠ [] := fun heq => h.occurring term docId (heq ▸ hocc)
    simp [bag, hocc, hne]

/-- Indexes with the same bags are alike. -/
theorem Linked.alike_iff {idx' : InvertedIndex} (h : idx.Linked) (h' : idx'.Linked) :
    idx.Alike idx' ↔ ∀ term docId, idx.bag term docId = idx'.bag term docId := by
  constructor
  · intro halike term docId
    have hocc := halike.occurrences term docId
    rw [h.map_occurrences, h'.map_occurrences] at hocc
    split at hocc <;> split at hocc <;> simp_all
  · intro hbag
    have hterms : ∀ term, term ∈ idx.postings.keys ↔ term ∈ idx'.postings.keys := by
      intro term
      rw [h.mem_keys_iff, h'.mem_keys_iff]
      simp only [hbag]
    refine ⟨hterms, fun term docId => ?_, fun term => ?_⟩
    · rw [h.map_occurrences, h'.map_occurrences, hbag]
    · rw [h.terms, h'.terms, hterms]

/-! ## Adding a document -/

/-- The entries of one term. -/
def entriesOf (term : String) (entries : List (String × Occurrence)) : List Occurrence :=
  (entries.filter (·.1 = term)).map (·.2)

theorem occurrences_addEntry (docId : String) (entry : String × Occurrence) (term docId' : String) :
    (idx.addEntry docId entry).occurrences term docId' =
      if term = entry.1 ∧ docId' = docId then
        some ((idx.occurrences term docId').getD [] ++ [entry.2])
      else idx.occurrences term docId' := by
  obtain ⟨token, occurrence⟩ := entry
  unfold occurrences addEntry
  simp only [Dict.get?_set]
  by_cases hterm : term = token
  · subst hterm
    by_cases hdoc : docId' = docId
    · subst hdoc
      cases hget : idx.postings.get? term <;> simp
    · cases hget : idx.postings.get? term <;> simp [hdoc, Dict.get?_set]
  · simp [hterm]

theorem bag_addEntry (docId : String) (entry : String × Occurrence) (term docId' : String) :
    (idx.addEntry docId entry).bag term docId' = idx.bag term docId' +
      if term = entry.1 ∧ docId' = docId then {entry.2} else 0 := by
  unfold bag
  rw [occurrences_addEntry]
  split
  · rw [Option.getD_some, ← Multiset.coe_add]
    rfl
  · rw [add_zero]

theorem Linked.addEntry (h : idx.Linked) (docId : String) (entry : String × Occurrence) :
    (idx.addEntry docId entry).Linked := by
  obtain ⟨token, occurrence⟩ := entry
  have hkeys : ∀ term, term ∈ (idx.addEntry docId (token, occurrence)).postings.keys ↔
      term = token ∨ term ∈ idx.postings.keys := by
    intro term
    simp only [InvertedIndex.addEntry, Dict.mem_keys_iff, Dict.get?_set]
    split
    · next heq => simp [heq]
    · next hne => simp [hne]
  refine ⟨h.ids, ?_, fun term => ?_, fun term docMap hterm => ?_, fun term docId' hocc => ?_⟩
  · by_cases hmem : token ∈ idx.postings.keys
    · simpa [InvertedIndex.addEntry, hmem] using h.sorted
    · have hnew : token ∉ idx.sortedTerms := fun hin => hmem ((h.terms token).1 hin)
      simpa [InvertedIndex.addEntry, hmem] using Bisect.pairwise_insort h.sorted hnew
  · rw [hkeys, ← h.terms]
    by_cases hmem : token ∈ idx.postings.keys
    · have hin := (h.terms token).2 hmem
      simp only [InvertedIndex.addEntry, hmem, if_true]
      constructor
      · exact Or.inr
      · rintro (rfl | hterm)
        · exact hin
        · exact hterm
    · simp only [InvertedIndex.addEntry, hmem, if_false]
      exact Bisect.mem_insort
  · simp only [InvertedIndex.addEntry, Dict.get?_set] at hterm
    split at hterm
    · cases hterm
      exact ⟨docId, Dict.mem_keys_iff.2 ⟨_, Dict.get?_set_self ..⟩⟩
    · exact h.inhabited term docMap hterm
  · rw [occurrences_addEntry] at hocc
    split at hocc
    · simp at hocc
    · exact h.occurring term docId' hocc

/-- What adding entries does. -/
theorem addEntries (h : idx.Linked) (docId : String) (entries : List (String × Occurrence)) :
    (entries.foldl (fun idx entry => idx.addEntry docId entry) idx).Linked ∧
      (entries.foldl (fun idx entry => idx.addEntry docId entry) idx).documents = idx.documents ∧
        ∀ term docId', (entries.foldl (fun idx entry => idx.addEntry docId entry) idx).bag term
          docId' = idx.bag term docId' +
            if docId' = docId then (entriesOf term entries : Multiset Occurrence) else 0 := by
  induction entries generalizing idx with
  | nil => exact ⟨h, rfl, fun term docId' => by simp [entriesOf]⟩
  | cons entry entries ih =>
    obtain ⟨hlinked, hdocuments, hbag⟩ := ih (h.addEntry docId entry)
    refine ⟨hlinked, hdocuments, fun term docId' => ?_⟩
    rw [List.foldl_cons, hbag, bag_addEntry, add_assoc]
    congr 1
    by_cases hdoc : docId' = docId
    · by_cases hterm : entry.1 = term
      · simp only [hdoc, hterm, and_self, if_true, entriesOf, List.filter_cons, decide_true,
          List.map_cons]
        rfl
      · have hterm' : term ≠ entry.1 := fun heq => hterm heq.symm
        simp [hdoc, hterm, hterm', entriesOf]
    · simp [hdoc]

/-- The occurrences of a term in a document that is there. -/
def shouldHold (documents : Dict String SearchDocument) (term docId : String) :
    Multiset Occurrence :=
  (documents.get? docId).elim 0 fun doc => (entriesOf term doc.entries : Multiset Occurrence)

/-- The postings hold the occurrences of the documents, each of them once. -/
def Exact (idx : InvertedIndex) : Prop :=
  ∀ term docId, idx.bag term docId = shouldHold idx.documents term docId

theorem Linked.set_document (h : idx.Linked) (doc : SearchDocument) :
    Linked { idx with documents := idx.documents.set doc.id doc } where
  ids docId doc' hget := by
    simp only [Dict.get?_set] at hget
    split at hget
    · next heq =>
      cases hget
      exact heq.symm
    · exact h.ids docId doc' hget
  sorted := h.sorted
  terms := h.terms
  inhabited := h.inhabited
  occurring := h.occurring

/-- What adding a document does. -/
theorem Linked.addDocument (h : idx.Linked) (doc : SearchDocument) :
    (idx.addDocument doc).Linked ∧
      (idx.addDocument doc).documents = idx.documents.set doc.id doc ∧
        ∀ term docId, (idx.addDocument doc).bag term docId = idx.bag term docId +
          if docId = doc.id then (entriesOf term doc.entries : Multiset Occurrence) else 0 :=
  addEntries (h.set_document doc) doc.id doc.entries

/-! ## Removing a document -/

theorem mem_emptyTerms {docId term : String} : term ∈ idx.emptyTerms docId ↔
    ∃ docMap, idx.postings.get? term = some docMap ∧ docId ∈ docMap.keys ∧
      (docMap.erase docId).items = [] := by
  simp [emptyTerms, ← Dict.mem_items_iff]

/-- What dropping terms does. -/
theorem dropTerms (h : idx.sortedTerms.Pairwise (· < ·)) (terms : List String) :
    (terms.foldl dropTerm idx).documents = idx.documents ∧
      (terms.foldl dropTerm idx).sortedTerms.Pairwise (· < ·) ∧
        (∀ term, term ∈ (terms.foldl dropTerm idx).sortedTerms ↔
          term ∈ idx.sortedTerms ∧ term ∉ terms) ∧
            ∀ term, (terms.foldl dropTerm idx).postings.get? term =
              if term ∈ terms then none else idx.postings.get? term := by
  induction terms generalizing idx with
  | nil => exact ⟨rfl, h, fun term => by simp, fun term => by simp⟩
  | cons t terms ih =>
    have hfilter : (idx.dropTerm t).sortedTerms = idx.sortedTerms.filter (· ≠ t) :=
      Bisect.discard_eq_filter h t
    have hsorted : (idx.dropTerm t).sortedTerms.Pairwise (· < ·) := by
      rw [hfilter]
      exact h.sublist List.filter_sublist
    obtain ⟨hdocuments, hsorted', hmem, hget⟩ := ih hsorted
    refine ⟨hdocuments, hsorted', fun term => ?_, fun term => ?_⟩
    · rw [List.foldl_cons, hmem, hfilter]
      simp [and_assoc]
    · rw [List.foldl_cons, hget]
      simp only [dropTerm, Dict.get?_erase, List.mem_cons]
      by_cases heq : term = t <;> simp [heq]

/-- What removing a document that is there does. -/
theorem Linked.removeDocument (h : idx.Linked) {docId : String}
    (hdoc : docId ∈ idx.documents.keys) :
    (idx.removeDocument docId).Linked ∧
      (idx.removeDocument docId).documents = idx.documents.erase docId ∧
        ∀ term docId', (idx.removeDocument docId).occurrences term docId' =
          if docId' = docId then none else idx.occurrences term docId' := by
  unfold InvertedIndex.removeDocument
  rw [if_pos hdoc]
  obtain ⟨hdocuments, hsorted, hmem, hget⟩ := @dropTerms
    { idx with
      documents := idx.documents.erase docId
      postings := idx.postings.mapValues (·.erase docId) } h.sorted (idx.emptyTerms docId)
  generalize (idx.emptyTerms docId).foldl dropTerm _ = idx' at hdocuments hsorted hmem hget
  -- the postings of a term, less the document
  have hterm : ∀ term, idx'.postings.get? term =
      if term ∈ idx.emptyTerms docId then none
      else (idx.postings.get? term).map (·.erase docId) := by
    intro term
    rw [hget, Dict.get?_mapValues]
  have hocc : ∀ term docId', idx'.occurrences term docId' =
      if docId' = docId then none else idx.occurrences term docId' := by
    intro term docId'
    unfold occurrences
    rw [hterm]
    by_cases hempty : term ∈ idx.emptyTerms docId
    · obtain ⟨docMap, hdocMap, -, hitems⟩ := mem_emptyTerms.1 hempty
      have hnone : (docMap.erase docId).get? docId' = none := by
        simp [Dict.get?, hitems]
      rw [Dict.get?_erase] at hnone
      rw [if_pos hempty, hdocMap]
      exact hnone.symm
    · rw [if_neg hempty]
      cases hdocMap : idx.postings.get? term with
      | none => simp
      | some docMap => exact Dict.get?_erase ..
  refine ⟨⟨fun docId' doc hdoc' => ?_, hsorted, fun term => ?_, fun term docMap hdocMap => ?_,
    fun term docId' hnil => ?_⟩, hdocuments, hocc⟩
  · rw [hdocuments, Dict.get?_erase] at hdoc'
    split at hdoc'
    · cases hdoc'
    · exact h.ids docId' doc hdoc'
  · rw [hmem, h.terms, Dict.mem_keys_iff, Dict.mem_keys_iff, hterm]
    by_cases hempty : term ∈ idx.emptyTerms docId <;> simp [hempty]
  · rw [hterm] at hdocMap
    split at hdocMap
    · cases hdocMap
    next hempty =>
    obtain ⟨docMap, hstored, rfl⟩ := Option.map_eq_some_iff.1 hdocMap
    obtain ⟨docId', hin⟩ := h.inhabited term docMap hstored
    by_cases heq : docId' = docId
    · subst heq
      have hitems : (docMap.erase docId').items ≠ [] := fun hitems =>
        hempty (mem_emptyTerms.2 ⟨docMap, hstored, hin, hitems⟩)
      obtain ⟨p, hp⟩ := List.exists_mem_of_ne_nil _ hitems
      exact ⟨p.1, List.mem_map_of_mem hp⟩
    · obtain ⟨l, hl⟩ := Dict.mem_keys_iff.1 hin
      exact ⟨docId', Dict.mem_keys_iff.2 ⟨l, by rw [Dict.get?_erase, if_neg heq, hl]⟩⟩
  · rw [hocc] at hnil
    split at hnil
    · cases hnil
    · exact h.occurring term docId' hnil

theorem bag_removeDocument (h : idx.Linked) {docId : String} (hdoc : docId ∈ idx.documents.keys)
    (term docId' : String) : (idx.removeDocument docId).bag term docId' =
      if docId' = docId then 0 else idx.bag term docId' := by
  unfold bag
  rw [(h.removeDocument hdoc).2.2]
  split <;> rfl

/-! ## Every operation -/

/-- The shape is kept. -/
theorem Linked.step (h : idx.Linked) (c : IndexCall) : (c.step idx).2.Linked := by
  cases c with
  | add doc => exact (h.addDocument doc).1
  | remove docId =>
    by_cases hdoc : docId ∈ idx.documents.keys
    · exact (h.removeDocument hdoc).1
    · have hsame : idx.removeDocument docId = idx := if_neg hdoc
      show (idx.removeDocument docId).Linked
      rwa [hsame]
  | clear => exact Linked.empty

theorem exact_empty : Exact {} := fun _ _ => rfl

/-- A document without entries is one whose terms have none. -/
theorem entries_eq_nil {entries : List (String × Occurrence)} :
    entries = [] ↔ ∀ term, entriesOf term entries = [] := by
  refine ⟨fun h term => by rw [h]; rfl, fun h => ?_⟩
  cases entries with
  | nil => rfl
  | cons entry entries =>
    have hnil := h entry.1
    simp [entriesOf] at hnil

/-- Adding a document leaves the index exact if what is added over has no entries, and only
then. -/
theorem exact_addDocument (h : idx.Linked) (hexact : idx.Exact) (doc : SearchDocument) :
    (idx.addDocument doc).Exact ↔ (IndexCall.add doc).Fresh idx := by
  obtain ⟨-, hdocuments, hbag⟩ := h.addDocument doc
  have hself : (idx.addDocument doc).Exact ↔ ∀ term, idx.bag term doc.id = 0 := by
    constructor
    · intro hadded term
      have heq := hadded term doc.id
      rw [hbag, hdocuments, shouldHold, Dict.get?_set_self, if_pos rfl] at heq
      exact add_eq_right.1 heq
    · intro hzero term docId
      rw [hbag, hdocuments]
      by_cases hdoc : docId = doc.id
      · subst hdoc
        rw [hzero, zero_add, if_pos rfl, shouldHold, Dict.get?_set_self]
        rfl
      · rw [if_neg hdoc, add_zero, hexact, shouldHold, shouldHold, Dict.get?_set_of_ne hdoc]
  rw [hself]
  simp only [hexact _ _, shouldHold]
  cases hold : idx.documents.get? doc.id with
  | none => simp [IndexCall.Fresh, hold]
  | some old => simp [IndexCall.Fresh, hold, entries_eq_nil]

/-- An operation leaves the index exact if it adds over no tokens, and only then. -/
theorem exact_step (h : idx.Linked) (hexact : idx.Exact) (c : IndexCall) :
    (c.step idx).2.Exact ↔ c.Fresh idx := by
  cases c with
  | add doc => exact exact_addDocument h hexact doc
  | remove docId =>
    apply iff_of_true _ trivial
    show (idx.removeDocument docId).Exact
    by_cases hdoc : docId ∈ idx.documents.keys
    · intro term docId'
      rw [bag_removeDocument h hdoc, (h.removeDocument hdoc).2.1, shouldHold, Dict.get?_erase]
      split
      · rfl
      · exact hexact term docId'
    · have hsame : idx.removeDocument docId = idx := if_neg hdoc
      rwa [hsame]
  | clear => exact iff_of_true exact_empty trivial

/-! ## The fresh index -/

/-- Documents with ids of their own are added one after the other. -/
theorem addDocuments (h : idx.Linked) (hexact : idx.Exact) {docs : List SearchDocument}
    (hids : (docs.map (·.id)).Nodup) (hfresh : ∀ doc ∈ docs, doc.id ∉ idx.documents.keys) :
    (docs.foldl addDocument idx).Linked ∧ (docs.foldl addDocument idx).Exact ∧
      (docs.foldl addDocument idx).documents.items =
        idx.documents.items ++ docs.map fun doc => (doc.id, doc) := by
  induction docs generalizing idx with
  | nil => exact ⟨h, hexact, by simp⟩
  | cons doc docs ih =>
    obtain ⟨hdoc, hdocs⟩ := List.forall_mem_cons.1 hfresh
    obtain ⟨hnew, hids⟩ := List.nodup_cons.1 hids
    obtain ⟨hlinked, hdocuments, -⟩ := h.addDocument doc
    have hitems : (idx.addDocument doc).documents.items =
        idx.documents.items ++ [(doc.id, doc)] := by
      rw [hdocuments]
      exact Dict.items_set_of_not_mem hdoc doc
    have hexact' : (idx.addDocument doc).Exact := by
      rw [exact_addDocument h hexact]
      intro old hold
      exact absurd (Dict.mem_keys_iff.2 ⟨old, hold⟩) hdoc
    obtain ⟨hl, he, hi⟩ := ih hlinked hexact' hids fun d hd hmem => by
      simp only [Dict.keys, hitems, List.map_append, List.map_cons, List.map_nil,
        List.mem_append, List.mem_singleton] at hmem
      rcases hmem with hmem | heq
      · exact hdocs d hd hmem
      · exact hnew (List.mem_map.2 ⟨d, hd, heq⟩)
    refine ⟨hl, he, ?_⟩
    rw [List.foldl_cons, hi, hitems, List.append_assoc]
    rfl

/-- The fresh index is exact, and has the same documents. -/
theorem Linked.rebuilt (h : idx.Linked) :
    idx.rebuilt.Linked ∧ idx.rebuilt.Exact ∧ idx.rebuilt.documents = idx.documents := by
  have hitems : idx.documents.values.map (fun doc => (doc.id, doc)) = idx.documents.items := by
    unfold Dict.values
    rw [List.map_map]
    conv_rhs => rw [← List.map_id idx.documents.items]
    apply List.map_congr_left
    rintro ⟨docId, doc⟩ hmem
    have hid := h.ids docId doc (Dict.mem_items_iff.1 hmem)
    simp [hid]
  have hids : (idx.documents.values.map (·.id)).Nodup := by
    have hkeys := idx.documents.nodup
    rw [← hitems, List.map_map] at hkeys
    exact hkeys
  obtain ⟨hlinked, hexact, hdocuments⟩ := addDocuments Linked.empty exact_empty hids
    fun _ _ hmem => by cases hmem
  refine ⟨hlinked, hexact, Dict.ext ?_⟩
  unfold InvertedIndex.rebuilt
  rw [hdocuments, hitems]
  rfl

/-- To be as a fresh index is to hold each occurrence once. -/
theorem Linked.rebuiltAlike_iff (h : idx.Linked) : idx.RebuiltAlike ↔ idx.Exact := by
  obtain ⟨hlinked, hexact, hdocuments⟩ := h.rebuilt
  unfold RebuiltAlike
  rw [h.alike_iff hlinked]
  have hsame : ∀ term docId, idx.rebuilt.bag term docId = shouldHold idx.documents term docId := by
    intro term docId
    rw [hexact, shouldHold, shouldHold, hdocuments]
  simp only [hsame]
  rfl

end InvertedIndex

/-- **The index equals its documents**, at every point of a run, exactly if every document that is
added comes under a new id or takes the place of one without tokens. -/
theorem rebuilt_iff (calls : List IndexCall) :
    (∀ past, past <+: calls → (Machine.exec IndexCall.step {} past).RebuiltAlike) ↔
      Machine.Every IndexCall.step IndexCall.Fresh {} calls := by
  have hstep : ∀ idx c, InvertedIndex.Linked idx → idx.RebuiltAlike →
      ((IndexCall.step idx c).2.RebuiltAlike ↔ c.Fresh idx) := by
    intro idx c h halike
    rw [(h.step c).rebuiltAlike_iff]
    exact InvertedIndex.exact_step h (h.rebuiltAlike_iff.1 halike) c
  have hempty : InvertedIndex.RebuiltAlike {} :=
    InvertedIndex.Linked.empty.rebuiltAlike_iff.2 InvertedIndex.exact_empty
  exact Machine.forall_prefix_iff_every (fun idx c h => h.step c) hstep
    InvertedIndex.Linked.empty hempty calls

/-- A workflow, under its title. -/
def titled (title : String) : SearchDocument :=
  { id := "wf_1", tenantId := "acme", entityType := "workflow", title }

/-- A workflow that is renamed: the index still leads from the old title to it. -/
theorem not_rebuilt_renamed : ¬ ∀ calls : List IndexCall,
    (Machine.exec IndexCall.step {} calls).RebuiltAlike := by
  intro hall
  have hfirst : (InvertedIndex.addDocument {} (titled "Orders")).Linked :=
    (InvertedIndex.Linked.empty.addDocument _).1
  have hexact : (InvertedIndex.addDocument {} (titled "Orders")).Exact :=
    hfirst.rebuiltAlike_iff.1 (hall [.add (titled "Orders")])
  have hsecond : (InvertedIndex.addDocument (InvertedIndex.addDocument {} (titled "Orders"))
      (titled "Refunds")).Exact :=
    (hfirst.addDocument _).1.rebuiltAlike_iff.1
      (hall [.add (titled "Orders"), .add (titled "Refunds")])
  have hentries : (titled "Orders").entries ≠ [] := by decide +kernel
  exact hentries ((InvertedIndex.exact_addDocument hfirst hexact _).1 hsecond _ rfl)

end FlowMesh.Search
