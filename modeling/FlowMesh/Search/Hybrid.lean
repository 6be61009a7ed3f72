import FlowMesh.Search.Deletion
import FlowMesh.Search.Highlights
import FlowMesh.Search.Retrieval
import FlowMesh.Search.Semantic

/-!
# The two towers

`FlowMeshSearchEngine` (`flowmesh_search/engine.py`) with both of its towers, and `search` with
scores, highlights, hits and facets. Every call that changes the index of a tenant also changes
its vectors; so does the loading of a file, up to the item that raises.

`towers_in_step`: over any calls, faults and restarts the vectors of a tenant are those of its
documents, in their order; so the engine is the one of the index alone at one particular ranking.
`search_contract` says what a response consists of.

One interpreter is enough. The hash seed stays the same within a process, and a restart leaves
nothing but the files: the next process is a run of its own, on these files. The clock only ranks;
no state depends on it.
-/

namespace FlowMesh.Search

open Python

/-! ## Both towers -/

/-- An engine with both towers, and the files of its directory. -/
structure HybridState where
  lexical : SearchState := {}
  tenantSemantics : Dict String SemanticDenseTower := .empty

/-- The loop over the items of a file, as the semantic tower sees it. -/
def indexItems (e : Encoder) : List Data → SemanticDenseTower → SemanticDenseTower
  | [], tower => tower
  | item :: items, tower =>
    match SearchDocument.ofData item with
    | .error _ => tower
    | .ok doc => indexItems e items (tower.indexDocument e doc)

namespace HybridState

variable (e : Encoder)

/-- The vectors of a tenant, none where there is no tower. -/
def vectors (h : HybridState) (tenantId : String) : SemanticDenseTower :=
  (h.tenantSemantics.get? tenantId).getD .empty

/-- Change the semantic tower of a tenant, where there is one. -/
def onTower (tenantId : String) (f : SemanticDenseTower → SemanticDenseTower) (h : HybridState) :
    Dict String SemanticDenseTower :=
  match h.tenantSemantics.get? tenantId with
  | none => h.tenantSemantics
  | some tower => h.tenantSemantics.set tenantId (f tower)

/-- What `load_from_disk` makes of the semantic towers. -/
def loadTower (tenantId : String) (faults : Faults) (h : HybridState) :
    Dict String SemanticDenseTower :=
  match h.lexical.files.get? tenantId with
  | none => h.tenantSemantics
  | some tokens =>
    if faults.reading then h.tenantSemantics
    else
      match load tokens with
      | .ok (.list items) =>
        h.tenantSemantics.set tenantId (indexItems e items (h.vectors tenantId))
      | .ok _ => h.tenantSemantics.set tenantId (h.vectors tenantId)
      | .error _ => h.tenantSemantics

/-- `load_from_disk`. -/
def loadFromDisk (tenantId : String) (faults : Faults) (h : HybridState) : Bool × HybridState :=
  let (ok, lexical) := h.lexical.loadFromDisk true tenantId faults
  (ok, ⟨lexical, h.loadTower e tenantId faults⟩)

/-- `_get_or_create_index`. -/
def getOrCreateIndex (tenantId : String) (faults : Faults) (h : HybridState) : HybridState :=
  if tenantId ∈ h.lexical.tenantIndexes.keys then h
  else
    (loadFromDisk e tenantId faults
      { h with
        lexical :=
          { h.lexical with tenantIndexes := h.lexical.tenantIndexes.set tenantId {} } }).2

/-- `index_document`, up to the persisting. -/
def addToIndex (tenantId : String) (faults : Faults) (h : HybridState) (doc : SearchDocument) :
    HybridState :=
  let h := getOrCreateIndex e tenantId faults h
  ⟨h.lexical.onIndex tenantId (·.addDocument doc),
    h.tenantSemantics.set tenantId ((h.vectors tenantId).indexDocument e doc)⟩

/-- `if persist: self.persist_to_disk(tenant_id)`, which only reads the towers. -/
def finish (tenantId : String) (faults : Faults) (h : HybridState) :
    Except PyError Unit × HybridState :=
  let (result, lexical) := h.lexical.finish true true tenantId faults
  (result, { h with lexical })

/-- `index_document`. -/
def indexDocument (tenantId : String) (doc : SearchDocument) (faults : Faults) (h : HybridState) :
    Except PyError Unit × HybridState :=
  finish tenantId faults (addToIndex e tenantId faults h doc)

/-- `index_documents`. -/
def indexDocuments (tenantId : String) (docs : List SearchDocument) (faults : Faults)
    (h : HybridState) : Except PyError Unit × HybridState :=
  finish tenantId faults (docs.foldl (addToIndex e tenantId faults) h)

/-- `delete_document`. -/
def deleteDocument (tenantId docId : String) (faults : Faults) (h : HybridState) :
    Except PyError Unit × HybridState :=
  finish tenantId faults
    ⟨h.lexical.onIndex tenantId (·.removeDocument docId), h.onTower tenantId (·.erase docId)⟩

/-- `clear_tenant`. -/
def clearTenant (tenantId : String) (faults : Faults) (h : HybridState) : HybridState :=
  ⟨h.lexical.clearTenant tenantId faults, h.onTower tenantId fun _ => .empty⟩

/-- `get_document_count`. -/
def getDocumentCount (tenantId : String) (faults : Faults) (h : HybridState) : ℕ × HybridState :=
  let h :=
    if tenantId ∈ h.lexical.tenantIndexes.keys then h else (loadFromDisk e tenantId faults h).2
  ((h.lexical.documents tenantId).items.length, h)

end HybridState

/-! ## Searching -/

/-- What the interpreter gives a search: the encoder, the recency bonus, and its tables. -/
structure Interpreter where
  encoder : Encoder
  recency : Option DateTime → ℚ
  tables : Tables

/-- `list(dict.fromkeys(ids))`. -/
def fromKeys (ids : List String) : List String :=
  (ids.foldl (fun d docId => d.set docId ()) (Dict.empty : Dict String Unit)).keys

/-- `ranked[:limit]`. -/
def sliceTo {α : Type} (ranked : List α) (limit : ℤ) : List α :=
  if 0 ≤ limit then ranked.take limit.toNat else ranked.take (ranked.length - limit.natAbs)

/-- `query.strip()`. -/
def Query.clean (query : Query) : String := String.ofList (strip query.text.toList)

/-- The entity types as a set. -/
def Query.types (query : Query) : Option (Finset String) := query.entityTypes.map List.toFinset

/-- `candidate_ids`. -/
def candidateIds (idx : InvertedIndex) (query : Query) (lexicalRanked : RankedList) :
    List String :=
  if lexicalRanked.ids.length < 30 then
    let allIds := (idx.documents.items.filter fun p => wanted query.types p.2).map Prod.fst
    fromKeys (lexicalRanked.ids ++ allIds.take 50)
  else lexicalRanked.ids

/-- `semantic_ranked`; `none` is a tenant without a semantic tower. -/
def semanticRanked (i : Interpreter) (idx : InvertedIndex) (semantic : Option SemanticDenseTower)
    (query : Query) (lexicalRanked : RankedList) : RankedList :=
  match semantic with
  | none => []
  | some tower =>
    if query.clean = "" then []
    else tower.searchSemantic i.encoder query.clean (candidateIds idx query lexicalRanked) 50

/-- `fused_ranked`. -/
def fusedRanked (i : Interpreter) (idx : InvertedIndex) (semantic : Option SemanticDenseTower)
    (query : Query) : RankedList :=
  let lexicalRanked := idx.searchLexical i.recency query.clean query.types 100
  let semanticRanked := semanticRanked i idx semantic query lexicalRanked
  if query.clean ≠ "" ∧ semanticRanked ≠ [] then fuse 60 lexicalRanked semanticRanked 1 (4 / 5)
  else lexicalRanked

/-- A result with its score and highlights. -/
structure ScoredItem extends SearchResultItem where
  score : ℚ
  highlights : List HighlightSnippet

/-- `SearchResponse`, without the time it took. -/
structure SearchResponse where
  query : String
  totalHits : ℕ
  results : List ScoredItem
  facetDistribution : Dict String ℕ

/-- The item of an entry of the ranking. -/
def hydrate (i : Interpreter) (idx : InvertedIndex) (queryTerms : List String)
    (entry : String × ℚ) : Option ScoredItem :=
  (idx.documents.get? entry.1).map fun doc =>
    { doc.toResult with
      score := round4 entry.2
      highlights := generateHighlights i.tables queryTerms doc }

/-- `facet_counts[t] = facet_counts.get(t, 0) + 1`. -/
def countFacet (facets : Dict String ℕ) (item : ScoredItem) : Dict String ℕ :=
  facets.set item.entityType ((facets.get? item.entityType).getD 0 + 1)

/-- `search`. -/
def HybridState.search (i : Interpreter) (tenantId : String) (query : Query) (h : HybridState) :
    SearchResponse :=
  match h.lexical.tenantIndexes.get? tenantId with
  | none => ⟨query.clean, 0, [], .empty⟩
  | some idx =>
    if idx.documents.items = [] then ⟨query.clean, 0, [], .empty⟩
    else
      let ranked := fusedRanked i idx (h.tenantSemantics.get? tenantId) query
      let results := (sliceTo ranked query.limit).filterMap (hydrate i idx (tokenize query.clean))
      ⟨query.clean, ranked.length, results, results.foldl countFacet .empty⟩

/-! ## Runs -/

/-- What a call returns. -/
inductive HybridAnswer
  | done
  | raised (e : PyError)
  | counted (n : ℕ)
  | found (response : SearchResponse)

/-- The answer of a call that returns nothing. -/
def HybridAnswer.ofResult : Except PyError Unit → HybridAnswer
  | .ok () => .done
  | .error e => .raised e

/-- What a call does. -/
def HybridState.step (i : Interpreter) (h : HybridState) (c : SearchCall × Faults) :
    HybridAnswer × HybridState :=
  match c.1 with
  | .indexDocument tenantId doc =>
    let (result, h) := h.indexDocument i.encoder tenantId doc c.2
    (.ofResult result, h)
  | .indexDocuments tenantId docs =>
    let (result, h) := h.indexDocuments i.encoder tenantId docs c.2
    (.ofResult result, h)
  | .deleteDocument tenantId docId =>
    let (result, h) := h.deleteDocument tenantId docId c.2
    (.ofResult result, h)
  | .clearTenant tenantId => (.done, h.clearTenant tenantId c.2)
  | .getDocumentCount tenantId =>
    let (n, h) := h.getDocumentCount i.encoder tenantId c.2
    (.counted n, h)
  | .search tenantId query => (.found (h.search i tenantId query), h)
  | .restart => (.done, { lexical := { files := h.lexical.files } })

/-- The ids that the towers rank, where the vectors are those of the documents. -/
def hybridRanking (i : Interpreter) : Ranking := fun idx query =>
  (fusedRanked i idx (some (idx.documents.mapValues i.encoder.vectorOf)) query).ids

/-- What is left of an answer without scores, highlights, hits and facets. -/
def HybridAnswer.plain : HybridAnswer → SearchAnswer
  | .done => .done
  | .raised e => .raised e
  | .counted n => .counted n
  | .found response => .found (response.results.map (·.toSearchResultItem))

/-! ## The vectors are those of the documents -/

/-- The vectors of every tenant are those of its documents, in their order. -/
def HybridState.InStep (e : Encoder) (h : HybridState) : Prop :=
  ∀ tenantId, h.vectors tenantId = (h.lexical.documents tenantId).mapValues e.vectorOf

/-- A file changes both towers up to the same item. -/
theorem indexItems_mapValues (e : Encoder) (items : List Data) {idx : InvertedIndex}
    (hlinked : idx.Linked) : indexItems e items (idx.documents.mapValues e.vectorOf) =
      (addItems items idx).2.documents.mapValues e.vectorOf := by
  induction items generalizing idx with
  | nil => rfl
  | cons item items ih =>
    rw [indexItems, addItems]
    cases SearchDocument.ofData item with
    | error err => rfl
    | ok doc =>
      obtain ⟨hlinked', hdocuments, -⟩ := hlinked.addDocument doc
      have hset : SemanticDenseTower.indexDocument e (idx.documents.mapValues e.vectorOf) doc =
          (idx.addDocument doc).documents.mapValues e.vectorOf := by
        rw [hdocuments, Dict.mapValues_set]
        rfl
      simp only
      rw [hset]
      exact ih hlinked'

theorem documents_onIndex {s : SearchState} {tenantId : String}
    {f : InvertedIndex → InvertedIndex} (tenantId' : String) :
    (s.onIndex tenantId f).documents tenantId' =
      if tenantId' = tenantId then
        ((s.tenantIndexes.get? tenantId).map fun idx => (f idx).documents).getD .empty
      else s.documents tenantId' := by
  unfold SearchState.onIndex
  cases hget : s.tenantIndexes.get? tenantId with
  | none =>
    split_ifs with heq
    · rw [heq]
      simp [SearchState.documents, hget]
    · rfl
  | some idx =>
    by_cases heq : tenantId' = tenantId
    · simp [SearchState.documents, heq]
    · simp [SearchState.documents, Dict.get?_set_of_ne heq, heq]

namespace HybridState

variable {e : Encoder} {h : HybridState} {tenantId : String} {faults : Faults}

theorem vectors_set {lexical : SearchState} {tower : SemanticDenseTower} (tenantId' : String) :
    (⟨lexical, h.tenantSemantics.set tenantId tower⟩ : HybridState).vectors tenantId' =
      if tenantId' = tenantId then tower else h.vectors tenantId' := by
  unfold vectors
  rw [Dict.get?_set]
  split_ifs <;> rfl

theorem vectors_onTower {lexical : SearchState} {f : SemanticDenseTower → SemanticDenseTower}
    (hf : f .empty = .empty) (tenantId' : String) :
    (⟨lexical, h.onTower tenantId f⟩ : HybridState).vectors tenantId' =
      if tenantId' = tenantId then f (h.vectors tenantId) else h.vectors tenantId' := by
  unfold onTower
  cases hget : h.tenantSemantics.get? tenantId with
  | none =>
    split_ifs with heq
    · simp [vectors, heq, hget, hf]
    · rfl
  | some tower =>
    simp only
    rw [vectors_set]
    simp [vectors, hget]

/-! ## What the calls do to the index -/

theorem lexical_getOrCreateIndex : (getOrCreateIndex e tenantId faults h).lexical =
    SearchState.getOrCreateIndex true tenantId faults h.lexical := by
  unfold getOrCreateIndex SearchState.getOrCreateIndex
  split <;> rfl

theorem lexical_addToIndex (doc : SearchDocument) : (addToIndex e tenantId faults h doc).lexical =
    SearchState.addToIndex true tenantId faults h.lexical doc := by
  unfold addToIndex SearchState.addToIndex
  rw [← lexical_getOrCreateIndex (e := e)]

theorem lexical_foldl (docs : List SearchDocument) :
    (docs.foldl (addToIndex e tenantId faults) h).lexical =
      docs.foldl (SearchState.addToIndex true tenantId faults) h.lexical := by
  induction docs generalizing h with
  | nil => rfl
  | cons doc docs ih => rw [List.foldl_cons, List.foldl_cons, ih, lexical_addToIndex]

/-! ## The calls keep the towers in step -/

theorem documents_eq_getD {s : SearchState} :
    s.documents tenantId = ((s.tenantIndexes.get? tenantId).getD {}).documents := by
  unfold SearchState.documents
  cases s.tenantIndexes.get? tenantId <;> rfl

theorem mem_keys_getOrCreateIndex (enabled : Bool) (tenantId : String) (faults : Faults)
    (s : SearchState) :
    tenantId ∈ (s.getOrCreateIndex enabled tenantId faults).tenantIndexes.keys := by
  unfold SearchState.getOrCreateIndex
  split
  · assumption
  · unfold SearchState.loadFromDisk
    have hmem : tenantId ∈ (s.tenantIndexes.set tenantId {}).keys :=
      Dict.mem_keys_set.2 (Or.inr rfl)
    split
    · exact hmem
    · split
      · exact hmem
      · split
        · exact hmem
        · split
          · exact hmem
          · exact Dict.mem_keys_set.2 (Or.inl hmem)

namespace InStep

theorem loadFromDisk (hstep : h.InStep e) (hlinked : h.lexical.Linked) (tenantId : String)
    (faults : Faults) : (loadFromDisk e tenantId faults h).2.InStep e := by
  intro tenantId'
  have hvectors : h.vectors tenantId =
      ((h.lexical.tenantIndexes.get? tenantId).getD {}).documents.mapValues e.vectorOf := by
    rw [hstep tenantId, documents_eq_getD]
  unfold HybridState.loadFromDisk SearchState.loadFromDisk loadTower
  simp only [Bool.not_true, Bool.false_eq_true, if_false]
  cases hfile : h.lexical.files.get? tenantId with
  | none => exact hstep tenantId'
  | some tokens =>
    by_cases hreading : faults.reading = true
    · simp only [hreading, if_true]
      exact hstep tenantId'
    · simp only [hreading, readInto]
      cases load tokens with
      | error err => exact hstep tenantId'
      | ok data =>
        -- a list goes into both towers, and anything else into neither
        cases data with
        | list items =>
          simp only [Bool.false_eq_true, if_false]
          rw [vectors_set, SearchState.documents_set]
          split_ifs
          · rw [hvectors]
            exact indexItems_mapValues e items hlinked.getD
          · exact hstep tenantId'
        | _ =>
          simp only [Bool.false_eq_true, if_false]
          rw [vectors_set, SearchState.documents_set]
          split_ifs
          · exact hvectors
          · exact hstep tenantId'

theorem getOrCreateIndex (hstep : h.InStep e) (hlinked : h.lexical.Linked) (tenantId : String)
    (faults : Faults) : (getOrCreateIndex e tenantId faults h).InStep e := by
  unfold HybridState.getOrCreateIndex
  split
  · exact hstep
  · next hnew =>
    refine InStep.loadFromDisk (fun tenantId' => ?_)
      (hlinked.set InvertedIndex.Linked.empty) tenantId faults
    -- an index without documents goes with no vectors
    have hsame := hstep tenantId'
    rw [SearchState.documents_set]
    split_ifs with heq
    · rw [heq, SearchState.documents_of_not_mem hnew] at hsame
      rw [heq]
      exact hsame
    · exact hsame

theorem addToIndex (hstep : h.InStep e) (hlinked : h.lexical.Linked) (tenantId : String)
    (faults : Faults) (doc : SearchDocument) : (addToIndex e tenantId faults h doc).InStep e := by
  have hstep' := hstep.getOrCreateIndex hlinked tenantId faults
  have hlinked' := @SearchState.Linked.getOrCreateIndex h.lexical tenantId hlinked true faults
  have hmem := mem_keys_getOrCreateIndex true tenantId faults h.lexical
  unfold HybridState.addToIndex
  rw [← lexical_getOrCreateIndex (e := e)] at hlinked' hmem
  set h' := HybridState.getOrCreateIndex e tenantId faults h
  obtain ⟨idx, hidx⟩ := Dict.mem_keys_iff.1 hmem
  intro tenantId'
  simp only
  rw [vectors_set, documents_onIndex]
  split_ifs with heq
  · rw [hidx, Option.map_some, Option.getD_some, ((hlinked' tenantId idx hidx).addDocument doc).2.1,
      Dict.mapValues_set, SemanticDenseTower.indexDocument, hstep' tenantId,
      SearchState.documents_of_get? hidx]
  · exact hstep' tenantId'

theorem foldl (hstep : h.InStep e) (hlinked : h.lexical.Linked) (tenantId : String)
    (faults : Faults) (docs : List SearchDocument) :
    (docs.foldl (HybridState.addToIndex e tenantId faults) h).InStep e := by
  induction docs generalizing h with
  | nil => exact hstep
  | cons doc docs ih =>
    refine ih (hstep.addToIndex hlinked tenantId faults doc) ?_
    rw [lexical_addToIndex]
    exact hlinked.addToIndex true faults doc

/-- Persisting leaves the documents alone. -/
theorem finish (hstep : h.InStep e) (tenantId : String) (faults : Faults) :
    (finish tenantId faults h).2.InStep e := by
  intro tenantId'
  have hindexes : (h.lexical.finish true true tenantId faults).2.tenantIndexes =
      h.lexical.tenantIndexes := by
    simp only [SearchState.finish, SearchState.persistToDisk, if_true, Bool.not_true,
      Bool.false_eq_true, if_false]
    split
    · rfl
    · split <;> rfl
  have hdocuments : (h.lexical.finish true true tenantId faults).2.documents tenantId' =
      h.lexical.documents tenantId' := by
    unfold SearchState.documents
    rw [hindexes]
  unfold HybridState.finish
  simp only [hdocuments]
  exact hstep tenantId'

theorem removeDocument (hstep : h.InStep e) (hlinked : h.lexical.Linked) (tenantId docId : String) :
    InStep e ⟨h.lexical.onIndex tenantId (·.removeDocument docId),
      h.onTower tenantId (·.erase docId)⟩ := by
  intro tenantId'
  rw [vectors_onTower rfl, documents_onIndex]
  split_ifs
  · rw [hstep tenantId, ← Dict.mapValues_erase]
    refine congrArg (fun docs : Dict String SearchDocument => docs.mapValues e.vectorOf) ?_
    cases hidx : h.lexical.tenantIndexes.get? tenantId with
    | none => simp [SearchState.documents, hidx, Dict.erase, Dict.empty]
    | some idx =>
      rw [SearchState.documents_of_get? hidx, Option.map_some, Option.getD_some]
      by_cases hmem : docId ∈ idx.documents.keys
      · exact ((hlinked tenantId idx hidx).removeDocument hmem).2.1.symm
      · rw [InvertedIndex.removeDocument, if_neg hmem, Dict.erase_of_not_mem hmem]
  · exact hstep tenantId'

theorem clearTenant (hstep : h.InStep e) (tenantId : String) (faults : Faults) :
    (clearTenant tenantId faults h).InStep e := by
  intro tenantId'
  have hdocuments : (h.lexical.clearTenant tenantId faults).documents tenantId' =
      (h.lexical.onIndex tenantId (·.clear)).documents tenantId' := by
    unfold SearchState.clearTenant
    split <;> rfl
  unfold HybridState.clearTenant
  rw [vectors_onTower rfl]
  simp only
  rw [hdocuments, documents_onIndex]
  split_ifs
  · cases h.lexical.tenantIndexes.get? tenantId <;> rfl
  · exact hstep tenantId'

end InStep

/-! ## The engine is that of the index, at one ranking -/

/-- In step, a tenant with documents has its tower. -/
theorem InStep.get?_tenantSemantics (hstep : h.InStep e) {idx : InvertedIndex}
    (hidx : h.lexical.tenantIndexes.get? tenantId = some idx) (hne : idx.documents.items ≠ []) :
    h.tenantSemantics.get? tenantId = some (idx.documents.mapValues e.vectorOf) := by
  have hvectors := hstep tenantId
  rw [SearchState.documents_of_get? hidx] at hvectors
  cases hget : h.tenantSemantics.get? tenantId with
  | none =>
    have hitems : (idx.documents.mapValues e.vectorOf).items = [] := by
      rw [← hvectors]
      simp [vectors, hget, Dict.empty]
    exact absurd (List.map_eq_nil_iff.1 hitems) hne
  | some tower =>
    rw [← hvectors]
    simp [vectors, hget]

theorem ids_sliceTo (ranked : RankedList) (limit : ℤ) :
    (sliceTo ranked limit).map Prod.fst = takeLimit ranked.ids limit := by
  unfold sliceTo takeLimit RankedList.ids
  split_ifs
  · exact List.map_take
  · rw [List.map_take, List.length_map]

theorem map_filterMap_hydrate (i : Interpreter) (idx : InvertedIndex) (queryTerms : List String)
    (ranked : RankedList) :
    (ranked.filterMap (hydrate i idx queryTerms)).map (·.toSearchResultItem) =
      (ranked.map Prod.fst).filterMap fun docId =>
        (idx.documents.get? docId).map SearchDocument.toResult := by
  rw [List.map_filterMap, List.filterMap_map]
  refine List.filterMap_congr fun entry _ => ?_
  cases hget : idx.documents.get? entry.1 <;> simp [hydrate, hget]

theorem InStep.plain_search {i : Interpreter} (hstep : h.InStep i.encoder) (tenantId : String)
    (query : Query) : (h.search i tenantId query).results.map (·.toSearchResultItem) =
      h.lexical.search (hybridRanking i) tenantId query := by
  unfold HybridState.search SearchState.search
  cases hidx : h.lexical.tenantIndexes.get? tenantId with
  | none => rfl
  | some idx =>
    by_cases hne : idx.documents.items = []
    · simp [hne]
    · simp only [hne, if_false]
      rw [hstep.get?_tenantSemantics hidx hne, map_filterMap_hydrate, ids_sliceTo]
      rfl

/-- **One call**: the towers stay in step, the index changes as without the semantic tower, and the
answer is the same but for scores and the like. -/
theorem InStep.step {i : Interpreter} (hstep : h.InStep i.encoder) (hlinked : h.lexical.Linked)
    (c : SearchCall × Faults) :
    (h.step i c).2.InStep i.encoder ∧
      (h.step i c).2.lexical = (SearchCall.step (hybridRanking i) h.lexical c).2 ∧
      (h.step i c).1.plain = (SearchCall.step (hybridRanking i) h.lexical c).1 := by
  have hplain : ∀ result : Except PyError Unit,
      (HybridAnswer.ofResult result).plain = SearchAnswer.ofResult result := by
    intro result
    cases result <;> rfl
  obtain ⟨call, faults⟩ := c
  cases call with
  | indexDocument tenantId doc =>
    refine ⟨(hstep.addToIndex hlinked tenantId faults doc).finish tenantId faults, ?_, ?_⟩
    · simp only [HybridState.step, SearchCall.step, indexDocument, HybridState.finish,
        lexical_addToIndex, SearchState.indexDocument]
    · simp only [HybridState.step, SearchCall.step, indexDocument, HybridState.finish,
        lexical_addToIndex, SearchState.indexDocument, hplain]
  | indexDocuments tenantId docs =>
    refine ⟨(hstep.foldl hlinked tenantId faults docs).finish tenantId faults, ?_, ?_⟩
    · simp only [HybridState.step, SearchCall.step, indexDocuments, HybridState.finish,
        lexical_foldl, SearchState.indexDocuments]
    · simp only [HybridState.step, SearchCall.step, indexDocuments, HybridState.finish,
        lexical_foldl, SearchState.indexDocuments, hplain]
  | deleteDocument tenantId docId =>
    refine ⟨(hstep.removeDocument hlinked tenantId docId).finish tenantId faults, rfl, ?_⟩
    simp only [HybridState.step, SearchCall.step, deleteDocument, HybridState.finish,
      SearchState.deleteDocument, hplain]
  | clearTenant tenantId => exact ⟨hstep.clearTenant tenantId faults, rfl, rfl⟩
  | getDocumentCount tenantId =>
    simp only [HybridState.step, SearchCall.step, getDocumentCount,
      SearchState.getDocumentCount]
    split
    · exact ⟨hstep, rfl, rfl⟩
    · exact ⟨hstep.loadFromDisk hlinked tenantId faults, rfl, rfl⟩
  | search tenantId query =>
    exact ⟨hstep, rfl, congrArg SearchAnswer.found (hstep.plain_search tenantId query)⟩
  | restart => exact ⟨fun tenantId' => rfl, rfl, rfl⟩

end HybridState

/-- A fresh engine over a directory. -/
def HybridState.fresh (files : Dict String (List Token)) : HybridState := { lexical := { files } }

theorem linked_fresh (files : Dict String (List Token)) :
    (HybridState.fresh files).lexical.Linked := by
  intro tenantId idx hget
  cases hget

/-- A hybrid state and the state of the index alone that it goes with. -/
def HybridState.Refines (e : Encoder) (h : HybridState) (s : SearchState) : Prop :=
  (h.InStep e ∧ h.lexical.Linked) ∧ h.lexical = s

theorem HybridState.refines_fresh (e : Encoder) (files : Dict String (List Token)) :
    (HybridState.fresh files).Refines e { files } :=
  ⟨⟨fun _ => rfl, linked_fresh files⟩, rfl⟩

/-- A call of the engine is one of the index alone. -/
theorem HybridState.Refines.step {i : Interpreter} {h : HybridState} {s : SearchState}
    (hs : h.Refines i.encoder s) (c : SearchCall × Faults) :
    (h.step i c).1.plain = (SearchCall.step (hybridRanking i) s c).1 ∧
      (h.step i c).2.Refines i.encoder (SearchCall.step (hybridRanking i) s c).2 := by
  obtain ⟨⟨hstep, hlinked⟩, rfl⟩ := hs
  obtain ⟨hstep', hlexical, hanswer⟩ := hstep.step hlinked c
  refine ⟨hanswer, ⟨hstep', ?_⟩, hlexical⟩
  rw [hlexical]
  exact hlinked.step _ c

theorem HybridState.refines_exec (i : Interpreter) (files : Dict String (List Token))
    (calls : List (SearchCall × Faults)) :
    (Machine.exec (HybridState.step i) (.fresh files) calls).Refines i.encoder
      (Machine.exec (SearchCall.step (hybridRanking i)) { files } calls) :=
  Machine.exec_of_simulation (fun _ _ c hs => (hs.step c).2) (refines_fresh i.encoder files) calls

/-- **The towers are in step.** Over any calls on any files, with any faults and restarts, the
vectors of a tenant are those of its documents in their order; and the engine changes its index
and answers as the one that has no semantic tower, at the ranking that the towers make of the
documents. -/
theorem towers_in_step (i : Interpreter) (files : Dict String (List Token))
    (calls : List (SearchCall × Faults)) :
    (∀ tenantId, (Machine.exec (HybridState.step i) (.fresh files) calls).vectors tenantId =
        ((Machine.exec (HybridState.step i) (.fresh files) calls).lexical.documents
          tenantId).mapValues i.encoder.vectorOf) ∧
      (Machine.exec (HybridState.step i) (.fresh files) calls).lexical =
        Machine.exec (SearchCall.step (hybridRanking i)) { files } calls ∧
      (Machine.answers (HybridState.step i) (.fresh files) calls).map HybridAnswer.plain =
        Machine.answers (SearchCall.step (hybridRanking i)) { files } calls := by
  obtain ⟨⟨hstep, -⟩, hlexical⟩ := HybridState.refines_exec i files calls
  exact ⟨hstep, hlexical, Machine.answers_of_simulation (fun _ _ c hs => hs.step c)
    (HybridState.refines_fresh i.encoder files) calls⟩

/-! ## What a ranking consists of -/

section Ranked

variable {i : Interpreter} {idx : InvertedIndex} {query : Query}

theorem sliceTo_eq_take {α : Type} (ranked : List α) (limit : ℤ) : sliceTo ranked limit =
    ranked.take (if 0 ≤ limit then limit.toNat else ranked.length - limit.natAbs) := by
  unfold sliceTo
  split_ifs <;> rfl

theorem mem_fromKeys {ids : List String} {docId : String} : docId ∈ fromKeys ids ↔ docId ∈ ids := by
  have hstep : ∀ (d : Dict String Unit) (id : String),
      docId ∈ (d.set id ()).keys ↔ docId ∈ d.keys ∨ docId = id := fun d id => Dict.mem_keys_set
  have hempty : docId ∉ (Dict.empty : Dict String Unit).keys := List.not_mem_nil
  unfold fromKeys
  rw [Dict.mem_keys_foldl hstep]
  simp [hempty]

theorem nodup_fromKeys (ids : List String) : (fromKeys ids).Nodup := Dict.nodup _

/-- What lexical search ranks: documents of the entity types, each once, in the order of their
scores. -/
theorem InvertedIndex.Linked.ranks_searchLexical (h : idx.Linked) (recency : Option DateTime → ℚ)
    (text : String) (entityTypes : Option (Finset String)) (n : ℕ) :
    (idx.searchLexical recency text entityTypes n).ids.Nodup ∧
      (∀ docId ∈ (idx.searchLexical recency text entityTypes n).ids,
        idx.Searched entityTypes docId) ∧
      (idx.searchLexical recency text entityTypes n).Pairwise ByScore := by
  refine ⟨h.ids_searchLexical.1, fun docId hmem => ?_, ?_⟩
  · by_cases hquery : tokenize text = []
    · unfold InvertedIndex.searchLexical RankedList.ids at hmem
      rw [if_pos hquery, List.map_map] at hmem
      obtain ⟨doc, hdoc, rfl⟩ := List.mem_map.1 hmem
      obtain ⟨hvalue, hwanted⟩ := List.mem_filter.1 (List.mem_of_mem_take hdoc)
      obtain ⟨docId, hget⟩ := Dict.mem_values_iff.1 hvalue
      exact ⟨doc, by rwa [Function.comp_apply, h.ids docId doc hget], hwanted⟩
    · obtain ⟨scored, heq, hperm⟩ := @InvertedIndex.searchLexical_eq idx recency text entityTypes n
        hquery
      rw [heq, InvertedIndex.ids_take] at hmem
      have hkeys := hperm.subset (List.mem_of_mem_take hmem)
      obtain ⟨-, -, -, -, hsearched, -⟩ := InvertedIndex.mem_keys_candidateSignals.1 hkeys
      exact hsearched
  · unfold InvertedIndex.searchLexical
    simp only
    split_ifs
    · rw [List.pairwise_map]
      exact List.pairwise_of_forall fun _ _ => le_rfl
    · exact (List.pairwise_insertionSort ByScore _).sublist (List.take_sublist _ _)

theorem nodup_fuse (k : ℚ) (lexicalRanked semanticRanked : RankedList) (w w' : ℚ) :
    (fuse k lexicalRanked semanticRanked w w').ids.Nodup ∧
      (fuse k lexicalRanked semanticRanked w w').Pairwise ByScore := by
  refine ⟨?_, List.pairwise_insertionSort ByScore _⟩
  exact ((List.perm_insertionSort ByScore _).map Prod.fst).nodup_iff.2 (Dict.nodup _)

theorem searched_candidateIds {lexicalRanked : RankedList}
    (hlexical : ∀ docId ∈ lexicalRanked.ids, idx.Searched query.types docId) :
    ∀ docId ∈ candidateIds idx query lexicalRanked, idx.Searched query.types docId := by
  intro docId hmem
  unfold candidateIds at hmem
  split_ifs at hmem
  · rw [mem_fromKeys, List.mem_append] at hmem
    rcases hmem with hmem | hmem
    · exact hlexical docId hmem
    · obtain ⟨p, hp, rfl⟩ := List.mem_map.1 (List.mem_of_mem_take hmem)
      obtain ⟨hitem, hwanted⟩ := List.mem_filter.1 hp
      exact ⟨p.2, Dict.mem_items_iff.1 hitem, hwanted⟩
  · exact hlexical docId hmem

theorem nodup_candidateIds {lexicalRanked : RankedList} (hnodup : lexicalRanked.ids.Nodup) :
    (candidateIds idx query lexicalRanked).Nodup := by
  unfold candidateIds
  split_ifs
  · exact nodup_fromKeys _
  · exact hnodup

/-- The semantic tower ranks candidates, each once. -/
theorem ids_semanticRanked (i : Interpreter) (idx : InvertedIndex) (query : Query)
    (semantic : Option SemanticDenseTower) {lexicalRanked : RankedList}
    (hnodup : lexicalRanked.ids.Nodup) :
    (semanticRanked i idx semantic query lexicalRanked).ids.Nodup ∧
      (semanticRanked i idx semantic query lexicalRanked).ids ⊆
        candidateIds idx query lexicalRanked := by
  unfold semanticRanked
  split
  · exact ⟨List.nodup_nil, List.nil_subset _⟩
  · split_ifs
    · exact ⟨List.nodup_nil, List.nil_subset _⟩
    · exact ids_searchSemantic (nodup_candidateIds hnodup)

/-- What both towers rank: documents of the entity types, each once, in the order of their
scores. -/
theorem InvertedIndex.Linked.ranks_fusedRanked (h : idx.Linked) (i : Interpreter) (query : Query)
    (semantic : Option SemanticDenseTower) :
    (fusedRanked i idx semantic query).ids.Nodup ∧
      (∀ docId ∈ (fusedRanked i idx semantic query).ids, idx.Searched query.types docId) ∧
      (fusedRanked i idx semantic query).Pairwise ByScore := by
  obtain ⟨hnodup, hsearched, hsorted⟩ := h.ranks_searchLexical i.recency query.clean query.types 100
  unfold fusedRanked
  set lexicalRanked := idx.searchLexical i.recency query.clean query.types 100
  obtain ⟨hsemantic, hsub⟩ := ids_semanticRanked i idx query semantic hnodup
  set semanticRanked := semanticRanked i idx semantic query lexicalRanked
  simp only
  split_ifs with hfused
  · refine ⟨(nodup_fuse ..).1, fun docId hmem => ?_, (nodup_fuse ..).2⟩
    obtain ⟨⟨docId', score⟩, hentry, rfl⟩ := List.mem_map.1 hmem
    rcases ((mem_fuse hnodup hsemantic).1 hentry).1 with hmem | hmem
    · exact hsearched _ hmem
    · exact searched_candidateIds hsearched _ (hsub hmem)
  · exact ⟨hnodup, hsearched, hsorted⟩

/-- What is hydrated has the ids and the rounded scores of the ranking. -/
theorem hydrate_ranked (h : idx.Linked) (queryTerms : List String) {ranked : RankedList}
    (hranked : ∀ docId ∈ ranked.ids, docId ∈ idx.documents.keys) :
    (ranked.filterMap (hydrate i idx queryTerms)).map (·.id) = ranked.ids ∧
      (ranked.filterMap (hydrate i idx queryTerms)).map (·.score) =
        ranked.map fun entry => round4 entry.2 := by
  induction ranked with
  | nil => exact ⟨rfl, rfl⟩
  | cons entry ranked ih =>
    obtain ⟨doc, hdoc⟩ := Dict.mem_keys_iff.1 (hranked entry.1 List.mem_cons_self)
    obtain ⟨hids, hscores⟩ := ih fun docId hmem => hranked docId (List.mem_cons_of_mem _ hmem)
    have hentry : hydrate i idx queryTerms entry = some
        { doc.toResult with
          score := round4 entry.2
          highlights := generateHighlights i.tables queryTerms doc } := by
      rw [hydrate, hdoc, Option.map_some]
    rw [List.filterMap_cons_some hentry, List.map_cons, List.map_cons, hids, hscores]
    have hid : doc.id = entry.1 := h.ids entry.1 doc hdoc
    exact ⟨congrArg (· :: RankedList.ids ranked) hid, rfl⟩

theorem get?_foldl_countFacet (results : List ScoredItem) (facets : Dict String ℕ) (t : String) :
    (results.foldl countFacet facets).get? t =
      if results.any (·.entityType = t) then
        some ((facets.get? t).getD 0 + results.countP (·.entityType = t))
      else facets.get? t := by
  induction results generalizing facets with
  | nil => rfl
  | cons item results ih =>
    rw [List.foldl_cons, ih, countFacet, Dict.get?_set]
    by_cases ht : item.entityType = t
    · subst ht
      by_cases hany : results.any (·.entityType = item.entityType)
      · simp [hany]
        omega
      · have hzero : results.countP (·.entityType = item.entityType) = 0 := by
          rw [List.countP_eq_zero]
          simpa using hany
        simp [hany, hzero]
    · simp [ht, Ne.symm ht]

/-- A blank query is answered with the documents in the order of the index. -/
theorem fusedRanked_blank (semantic : Option SemanticDenseTower) (hblank : query.clean = "") :
    fusedRanked i idx semantic query =
      ((idx.documents.values.filter fun doc => wanted query.types doc).take 100).map
        fun doc => (doc.id, 1) := by
  have htokens : tokenize query.clean = [] := by
    rw [hblank]
    rfl
  unfold fusedRanked
  simp only
  rw [if_neg fun h => h.1 hblank, InvertedIndex.searchLexical]
  simp only
  rw [if_pos htokens]

/-- The ids of wanted documents are no more than these. -/
theorem length_le_of_searched {ids : List String} (hnodup : ids.Nodup)
    (hsearched : ∀ docId ∈ ids, idx.Searched query.types docId) :
    ids.length ≤ idx.documents.values.countP fun doc => wanted query.types doc := by
  have hsub : ids ⊆ (idx.documents.items.filter fun p => wanted query.types p.2).map Prod.fst := by
    intro docId hmem
    obtain ⟨doc, hdoc, hwanted⟩ := hsearched docId hmem
    exact List.mem_map.2 ⟨(docId, doc), List.mem_filter.2 ⟨Dict.mem_items_iff.2 hdoc, hwanted⟩, rfl⟩
  calc ids.length
      ≤ ((idx.documents.items.filter fun p => wanted query.types p.2).map Prod.fst).length :=
        (List.subperm_of_subset hnodup hsub).length_le
    _ = idx.documents.values.countP fun doc => wanted query.types doc := by
        rw [List.length_map, ← List.countP_eq_length_filter, Dict.values, List.countP_map]
        rfl

end Ranked

/-! ## The contract of a search -/

/-- What a response says of the documents of a tenant. -/
structure SearchResponse.Answers (response : SearchResponse) (query : Query)
    (documents : Dict String SearchDocument) : Prop where
  text : response.query = query.clean
  /-- Every result is a document that is there now, as it is now, of a type that is wanted. -/
  current : ∀ item ∈ response.results, ∃ doc, documents.get? item.id = some doc ∧
    item.toSearchResultItem = doc.toResult ∧ wanted query.types doc = true
  each_once : (response.results.map (·.id)).Nodup
  by_score : response.results.Pairwise fun item item' => item'.score ≤ item.score
  hits_le : response.totalHits ≤ documents.values.countP fun doc => wanted query.types doc
  /-- The limit cuts off the results, from the end when it is negative, but no hits. -/
  length : response.results.length =
    if 0 ≤ query.limit then min query.limit.toNat response.totalHits
    else response.totalHits - query.limit.natAbs
  facets : ∀ entityType, (response.facetDistribution.get? entityType).getD 0 =
    response.results.countP (·.entityType = entityType)
  blank : query.clean = "" →
    response.totalHits = min 100 (documents.values.countP fun doc => wanted query.types doc) ∧
      response.results.map (·.toSearchResultItem) =
        (sliceTo ((documents.values.filter fun doc => wanted query.types doc).take 100)
          query.limit).map SearchDocument.toResult

/-- A response without results, where there are no documents. -/
theorem SearchResponse.Answers.none (query : Query) :
    (⟨query.clean, 0, [], .empty⟩ : SearchResponse).Answers query .empty where
  text := rfl
  current := by simp
  each_once := List.nodup_nil
  by_score := List.Pairwise.nil
  hits_le := Nat.zero_le _
  length := by simp
  facets := fun entityType => rfl
  blank := fun _ => ⟨rfl, by simp [sliceTo, Dict.values, Dict.empty]⟩

theorem map_sliceTo {α β : Type} (f : α → β) (l : List α) (limit : ℤ) :
    (sliceTo l limit).map f = sliceTo (l.map f) limit := by
  rw [sliceTo_eq_take, sliceTo_eq_take, List.map_take, List.length_map]

/-- Hydrating a part of a ranking. -/
theorem InvertedIndex.Linked.answers {i : Interpreter} {idx : InvertedIndex} (h : idx.Linked)
    (semantic : Option SemanticDenseTower) (query : Query) :
    let ranked := fusedRanked i idx semantic query
    let results := (sliceTo ranked query.limit).filterMap (hydrate i idx (tokenize query.clean))
    (⟨query.clean, ranked.length, results, results.foldl countFacet .empty⟩ :
      SearchResponse).Answers query idx.documents := by
  obtain ⟨hnodup, hsearched, hsorted⟩ := h.ranks_fusedRanked i query semantic
  intro ranked results
  have hsublist : (sliceTo ranked query.limit).Sublist ranked := by
    rw [sliceTo_eq_take]
    exact List.take_sublist ..
  have hthere : ∀ docId ∈ RankedList.ids (sliceTo ranked query.limit),
      docId ∈ idx.documents.keys := by
    intro docId hmem
    obtain ⟨doc, hdoc, -⟩ := hsearched docId ((hsublist.map Prod.fst).subset hmem)
    exact Dict.mem_keys_iff.2 ⟨doc, hdoc⟩
  obtain ⟨hids, hscores⟩ := hydrate_ranked (i := i) h (tokenize query.clean) hthere
  refine ⟨rfl, fun item hitem => ?_, ?_, ?_, ?_, ?_, fun entityType => ?_, fun hblank => ⟨?_, ?_⟩⟩
  · obtain ⟨entry, hentry, hhydrate⟩ := List.mem_filterMap.1 hitem
    obtain ⟨doc, hdoc, hwanted⟩ :=
      hsearched entry.1 (List.mem_map_of_mem (hsublist.subset hentry))
    rw [hydrate, hdoc, Option.map_some, Option.some.injEq] at hhydrate
    subst hhydrate
    refine ⟨doc, ?_, rfl, hwanted⟩
    simp only [SearchDocument.toResult]
    rwa [h.ids entry.1 doc hdoc]
  · exact hids ▸ hnodup.sublist (hsublist.map Prod.fst)
  · have hrounded : (results.map (·.score)).Pairwise fun x y => y ≤ x := by
      rw [hscores, List.pairwise_map]
      exact (hsorted.sublist hsublist).imp round4_le
    exact List.pairwise_map.1 hrounded
  · calc ranked.length
        = (RankedList.ids ranked).length := (List.length_map _).symm
      _ ≤ idx.documents.values.countP fun doc => wanted query.types doc :=
          length_le_of_searched hnodup hsearched
  · calc results.length
        = (results.map (·.id)).length := (List.length_map _).symm
      _ = (sliceTo ranked query.limit).length := by rw [hids, RankedList.ids, List.length_map]
      _ = if 0 ≤ query.limit then min query.limit.toNat ranked.length
          else ranked.length - query.limit.natAbs := by
        rw [sliceTo_eq_take, List.length_take]
        split_ifs
        · rfl
        · omega
  · simp only [get?_foldl_countFacet]
    split_ifs with hany
    · simp [Dict.empty, Dict.get?]
    · have hzero : results.countP (·.entityType = entityType) = 0 := by
        rw [List.countP_eq_zero]
        simpa using hany
      rw [hzero]
      rfl
  · simp only [ranked, fusedRanked_blank semantic hblank, List.length_map, List.length_take,
      List.countP_eq_length_filter]
  · set docs := (idx.documents.values.filter fun doc => wanted query.types doc).take 100 with hdocs
    have hget : ∀ doc ∈ sliceTo docs query.limit,
        (idx.documents.get? doc.id).map SearchDocument.toResult = some doc.toResult := by
      intro doc hdoc
      rw [sliceTo_eq_take, hdocs] at hdoc
      have hvalue := List.mem_of_mem_filter (List.mem_of_mem_take (List.mem_of_mem_take hdoc))
      obtain ⟨docId, hget⟩ := Dict.mem_values_iff.1 hvalue
      rw [h.ids docId doc hget, hget, Option.map_some]
    calc results.map (·.toSearchResultItem)
        = ((sliceTo ranked query.limit).map Prod.fst).filterMap fun docId =>
            (idx.documents.get? docId).map SearchDocument.toResult :=
          HybridState.map_filterMap_hydrate ..
      _ = (sliceTo docs query.limit).filterMap fun doc =>
            (idx.documents.get? doc.id).map SearchDocument.toResult := by
          simp only [ranked, fusedRanked_blank semantic hblank, ← map_sliceTo, List.filterMap_map]
          rfl
      _ = (sliceTo docs query.limit).map SearchDocument.toResult := by
          rw [List.filterMap_congr hget]
          exact congrFun List.filterMap_eq_map _

/-- What a search finds in a tenant's index. -/
theorem HybridState.answers_search (i : Interpreter) {h : HybridState} (hlinked : h.lexical.Linked)
    (tenantId : String) (query : Query) :
    (h.search i tenantId query).Answers query (h.lexical.documents tenantId) := by
  unfold HybridState.search
  cases hidx : h.lexical.tenantIndexes.get? tenantId with
  | none =>
    have hdocuments : h.lexical.documents tenantId = .empty := by
      simp [SearchState.documents, hidx]
    rw [hdocuments]
    exact .none query
  | some idx =>
    rw [SearchState.documents_of_get? hidx]
    simp only
    split_ifs with hempty
    · have hdocuments : idx.documents = .empty := Dict.ext hempty
      rw [hdocuments]
      exact .none query
    · exact (hlinked tenantId idx hidx).answers _ query

/-- The hits are the same at every limit. -/
theorem HybridState.totalHits_search (i : Interpreter) (h : HybridState) (tenantId : String)
    (query : Query) (limit : ℤ) : (h.search i tenantId { query with limit }).totalHits =
      (h.search i tenantId query).totalHits := by
  unfold HybridState.search
  cases h.lexical.tenantIndexes.get? tenantId with
  | none => rfl
  | some idx =>
    simp only
    split_ifs <;> rfl

/-- **The contract of a search.** After any calls on any files, with any faults and restarts, a
search is answered with current documents of the tenant of the types that are wanted, each once
and from the best score on; the limit cuts off results but no hits, the facets count the results,
and a blank query is answered with the first documents in their order. -/
theorem search_contract (i : Interpreter) (files : Dict String (List Token))
    (calls : List (SearchCall × Faults)) (tenantId : String) (query : Query) :
    ((Machine.exec (HybridState.step i) (.fresh files) calls).search i tenantId query).Answers
        query ((Machine.exec (HybridState.step i) (.fresh files) calls).lexical.documents
          tenantId) ∧
      ∀ limit : ℤ, ((Machine.exec (HybridState.step i) (.fresh files) calls).search i tenantId
          { query with limit }).totalHits =
        ((Machine.exec (HybridState.step i) (.fresh files) calls).search i tenantId
          query).totalHits := by
  obtain ⟨⟨-, hlinked⟩, -⟩ := HybridState.refines_exec i files calls
  exact ⟨HybridState.answers_search i hlinked tenantId query,
    HybridState.totalHits_search i _ tenantId query⟩

end FlowMesh.Search
