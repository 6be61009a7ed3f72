import FlowMesh.Search.Index

/-!
# The search engine and its files

`FlowMeshSearchEngine` (`flowmesh_search/engine.py`). An engine keeps an index for each tenant in
memory, and the documents of each tenant in a file, which it reads when it first needs the index.
What the two towers and their fusion rank, where the scores are floats, is a parameter; scores and
highlights are left out. The directory belongs to the engine: a field that is not of its type does
not occur in its files, and counts as one that cannot be read.

A call comes with the faults of the file system that it meets (`Faults`). A file is truncated when
it is opened, and written token by token after that, so it is whole, a part of a value that cannot
be read (`readInto_of_incomplete`), or untouched. `persisting_atomic_iff` says when no set of
documents is lost, `deletion_durable` when no deleted document comes back.
-/

namespace FlowMesh.Search

open Python

/-! ## Documents in a file -/

/-- `None`, or the text. -/
def optionalText : Option String → Data
  | none => .null
  | some s => .str s

/-- What is appended to `docs_data`. -/
def SearchDocument.toData (doc : SearchDocument) : Data :=
  .dict [("id", .str doc.id), ("tenant_id", .str doc.tenantId),
    ("entity_type", .str doc.entityType), ("title", .str doc.title),
    ("description", optionalText doc.description),
    ("tags", .list (doc.tags.map .str)), ("status", optionalText doc.status),
    ("url", optionalText doc.url), ("payload", .dict doc.payload),
    ("created_at", optionalText (doc.createdAt.map DateTime.isoformat)),
    ("updated_at", optionalText (doc.updatedAt.map DateTime.isoformat))]

/-- `item.get(key, default)`. -/
def getDefault (item : List (String × Data)) (key : String) (default : Data) : Data :=
  ((item.find? (·.1 = key)).map (·.2)).getD default

/-- `item[key]`. -/
def getRequired (item : List (String × Data)) (key : String) : Except PyError Data :=
  match item.find? (·.1 = key) with
  | some p => .ok p.2
  | none => .error ⟨.other, "'" ++ key ++ "'"⟩

/-- A field that is no text. -/
def typeError : PyError := ⟨.typeError, "expected string or bytes-like object"⟩

/-- A text. -/
def asText : Data → Except PyError String
  | .str s => .ok s
  | _ => .error typeError

/-- `None`, or a text. -/
def asOptionalText : Data → Except PyError (Option String)
  | .null => .ok none
  | .str s => .ok (some s)
  | _ => .error typeError

/-- The tags. -/
def asTags : Data → Except PyError (List String)
  | .list l => l.mapM asText
  | _ => .error typeError

/-- The payload. -/
def asPayload : Data → Except PyError (List (String × Data))
  | .dict items => .ok items
  | _ => .error typeError

/-- `datetime.fromisoformat(item[key]) if item.get(key) else None`. -/
def dateOf (item : List (String × Data)) (key : String) : Except PyError (Option DateTime) :=
  if (getDefault item key .null).truthy then
    (asText (getDefault item key .null)).bind fun text => (DateTime.fromisoformat text).map some
  else .ok none

/-- The document of an item that is a dictionary. -/
def documentOf (item : List (String × Data)) : Except PyError SearchDocument := do
  let createdAt ← dateOf item "created_at"
  let updatedAt ← dateOf item "updated_at"
  let id ← asText (← getRequired item "id")
  let tenantId ← asText (← getRequired item "tenant_id")
  let entityType ← asText (← getRequired item "entity_type")
  let title ← asText (← getRequired item "title")
  let description ← asOptionalText (getDefault item "description" (.str ""))
  let tags ← asTags (getDefault item "tags" (.list []))
  let status ← asOptionalText (getDefault item "status" .null)
  let url ← asOptionalText (getDefault item "url" .null)
  let payload ← asPayload (getDefault item "payload" (.dict []))
  return ⟨id, tenantId, entityType, title, description, tags, status, url, payload, createdAt,
    updatedAt⟩

/-- The document of an item. -/
def SearchDocument.ofData : Data → Except PyError SearchDocument
  | .dict item => documentOf item
  | _ => .error ⟨.other, "object has no attribute 'get'"⟩

/-- The loop over the items of a file: an item that raises ends it. -/
def addItems : List Data → InvertedIndex → Bool × InvertedIndex
  | [], idx => (true, idx)
  | item :: items, idx =>
    match SearchDocument.ofData item with
    | .error _ => (false, idx)
    | .ok doc => addItems items (idx.addDocument doc)

/-- What reading a file makes of an index, and whether it goes through; nothing happens to the
index where `json.load` raises. -/
def readInto (tokens : List Token) (idx : InvertedIndex) : Option (Bool × InvertedIndex) :=
  match load tokens with
  | .ok (.list items) => some (addItems items idx)
  | .ok _ => some (false, idx)
  | .error _ => none

/-! ## What was written is read -/

@[simp] theorem asOptionalText_optionalText (text : Option String) :
    asOptionalText (optionalText text) = .ok text := by
  cases text <;> rfl

@[simp] theorem asTags_map (tags : List String) :
    asTags (.list (tags.map .str)) = .ok tags := by
  have hmap : (tags.map Data.str).mapM asText = .ok tags := by
    induction tags with
    | nil => rfl
    | cons tag tags ih =>
      rw [List.map_cons, List.mapM_cons, ih]
      rfl
  exact hmap

theorem dateOf_eq {item : List (String × Data)} {key : String} {date : Option DateTime}
    (h : getDefault item key .null = optionalText (date.map DateTime.isoformat)) :
    dateOf item key = .ok date := by
  unfold dateOf
  rw [h]
  cases date with
  | none => rfl
  | some d =>
    have htruthy : (optionalText (some d.isoformat)).truthy = true := by
      simpa [optionalText, Data.truthy] using d.isoformat_ne_empty
    rw [Option.map_some, if_pos htruthy]
    simp only [optionalText, asText, Except.bind, d.fromisoformat_isoformat, Except.map]

/-- A document is read as it was written. -/
theorem ofData_toData (doc : SearchDocument) : SearchDocument.ofData doc.toData = .ok doc := by
  unfold SearchDocument.toData SearchDocument.ofData
  simp only
  unfold documentOf
  rw [@dateOf_eq _ _ doc.createdAt rfl, @dateOf_eq _ _ doc.updatedAt rfl]
  simp [getRequired, getDefault, asText, asPayload]
  rfl

theorem addItems_toData (docs : List SearchDocument) (idx : InvertedIndex) :
    addItems (docs.map SearchDocument.toData) idx =
      (true, docs.foldl InvertedIndex.addDocument idx) := by
  induction docs generalizing idx with
  | nil => rfl
  | cons doc docs ih =>
    rw [List.map_cons, addItems, ofData_toData]
    exact ih (idx.addDocument doc)

/-! ## The engine -/

/-- An engine, and the files of its directory. -/
structure SearchState where
  tenantIndexes : Dict String InvertedIndex := .empty
  files : Dict String (List Token) := .empty

/-- What goes wrong in the file system during a call. -/
structure Faults where
  /-- A file cannot be read. -/
  reading : Bool := false
  /-- `os.makedirs` or `open` raises. -/
  opening : Option PyError := none
  /-- Writing raises, behind so many tokens at the latest. -/
  writing : Option (ℕ × PyError) := none
  /-- A file cannot be removed. -/
  removing : Bool := false

/-- What comes to be in a file. -/
def Faults.write (faults : Faults) (w : Written) : Written :=
  match faults.writing with
  | none => w
  | some (n, e) => ⟨w.tokens.take n, some e⟩

/-- What is written of an index. -/
def InvertedIndex.dumped (idx : InvertedIndex) : Written :=
  dump (.list (idx.documents.values.map SearchDocument.toData))

namespace SearchState

/-- `persist_to_disk`. -/
def persistToDisk (enabled : Bool) (tenantId : String) (faults : Faults) (s : SearchState) :
    Except PyError Bool × SearchState :=
  if !enabled then (.ok false, s)
  else
    match s.tenantIndexes.get? tenantId with
    | none => (.ok false, s)
    | some idx =>
      match faults.opening with
      | some e => (.error e, s)
      | none =>
        let w := faults.write idx.dumped
        (match w.error with
          | some e => .error e
          | none => .ok true,
          { s with files := s.files.set tenantId w.tokens })

/-- `load_from_disk`. -/
def loadFromDisk (enabled : Bool) (tenantId : String) (faults : Faults) (s : SearchState) :
    Bool × SearchState :=
  if !enabled then (false, s)
  else
    match s.files.get? tenantId with
    | none => (false, s)
    | some tokens =>
      if faults.reading then (false, s)
      else
        match readInto tokens ((s.tenantIndexes.get? tenantId).getD {}) with
        | none => (false, s)
        | some (ok, idx) => (ok, { s with tenantIndexes := s.tenantIndexes.set tenantId idx })

/-- `_get_or_create_index`. -/
def getOrCreateIndex (enabled : Bool) (tenantId : String) (faults : Faults) (s : SearchState) :
    SearchState :=
  if tenantId ∈ s.tenantIndexes.keys then s
  else
    (loadFromDisk enabled tenantId faults
      { s with tenantIndexes := s.tenantIndexes.set tenantId {} }).2

/-- Change the index of a tenant, where there is one. -/
def onIndex (tenantId : String) (f : InvertedIndex → InvertedIndex) (s : SearchState) :
    SearchState :=
  match s.tenantIndexes.get? tenantId with
  | none => s
  | some idx => { s with tenantIndexes := s.tenantIndexes.set tenantId (f idx) }

/-- `index_document`, up to the persisting. -/
def addToIndex (enabled : Bool) (tenantId : String) (faults : Faults) (s : SearchState)
    (doc : SearchDocument) : SearchState :=
  onIndex tenantId (·.addDocument doc) (getOrCreateIndex enabled tenantId faults s)

/-- `if persist: self.persist_to_disk(tenant_id)`. -/
def finish (enabled persist : Bool) (tenantId : String) (faults : Faults) (s : SearchState) :
    Except PyError Unit × SearchState :=
  if persist then
    let (result, s) := persistToDisk enabled tenantId faults s
    (result.map fun _ => (), s)
  else (.ok (), s)

/-- `index_document`. -/
def indexDocument (enabled : Bool) (tenantId : String) (doc : SearchDocument) (persist : Bool)
    (faults : Faults) (s : SearchState) : Except PyError Unit × SearchState :=
  finish enabled persist tenantId faults (addToIndex enabled tenantId faults s doc)

/-- `index_documents`. -/
def indexDocuments (enabled : Bool) (tenantId : String) (docs : List SearchDocument)
    (persist : Bool) (faults : Faults) (s : SearchState) : Except PyError Unit × SearchState :=
  finish enabled persist tenantId faults (docs.foldl (addToIndex enabled tenantId faults) s)

/-- `delete_document`. -/
def deleteDocument (enabled : Bool) (tenantId docId : String) (persist : Bool) (faults : Faults)
    (s : SearchState) : Except PyError Unit × SearchState :=
  finish enabled persist tenantId faults (onIndex tenantId (·.removeDocument docId) s)

/-- `clear_tenant`. -/
def clearTenant (tenantId : String) (faults : Faults) (s : SearchState) : SearchState :=
  let s := onIndex tenantId (·.clear) s
  if faults.removing then s else { s with files := s.files.erase tenantId }

/-- The documents of a tenant in memory. -/
def documents (s : SearchState) (tenantId : String) : Dict String SearchDocument :=
  ((s.tenantIndexes.get? tenantId).map (·.documents)).getD .empty

/-- `get_document_count`. -/
def getDocumentCount (enabled : Bool) (tenantId : String) (faults : Faults) (s : SearchState) :
    ℕ × SearchState :=
  let s := if tenantId ∈ s.tenantIndexes.keys then s else (loadFromDisk enabled tenantId faults s).2
  ((s.documents tenantId).items.length, s)

end SearchState

/-- A result, without its score and highlights. -/
structure SearchResultItem where
  id : String
  tenantId : String
  entityType : String
  title : String
  description : Option String
  status : Option String
  url : String
  metadata : List (String × Data)

/-- The item of a document. -/
def SearchDocument.toResult (doc : SearchDocument) : SearchResultItem where
  id := doc.id
  tenantId := doc.tenantId
  entityType := doc.entityType
  title := doc.title
  description := doc.description
  status := doc.status
  url := match doc.url with
    | none | some "" => "/" ++ doc.entityType ++ "s/" ++ doc.id
    | some url => url
  metadata := doc.payload

/-- A search: the text, the entity types asked for, and the limit. -/
structure Query where
  text : String
  entityTypes : Option (List String) := none
  limit : ℤ := 15

/-- The ids that an index ranks for a query, from the best on. -/
abbrev Ranking := InvertedIndex → Query → List String

/-- `ranked[:limit]`. -/
def takeLimit (ranked : List String) (limit : ℤ) : List String :=
  if 0 ≤ limit then ranked.take limit.toNat else ranked.take (ranked.length - limit.natAbs)

/-- `search`. -/
def SearchState.search (rank : Ranking) (tenantId : String) (query : Query) (s : SearchState) :
    List SearchResultItem :=
  match s.tenantIndexes.get? tenantId with
  | none => []
  | some idx =>
    if idx.documents.items = [] then []
    else (takeLimit (rank idx query) query.limit).filterMap fun docId =>
      (idx.documents.get? docId).map SearchDocument.toResult

/-! ## Runs -/

/-- A call of the engine, with persistence; `restart` is a fresh engine over the same
directory. -/
inductive SearchCall
  | indexDocument (tenantId : String) (doc : SearchDocument)
  | indexDocuments (tenantId : String) (docs : List SearchDocument)
  | deleteDocument (tenantId docId : String)
  | clearTenant (tenantId : String)
  | getDocumentCount (tenantId : String)
  | search (tenantId : String) (query : Query)
  | restart

/-- What a call returns. -/
inductive SearchAnswer
  | done
  | raised (e : PyError)
  | counted (n : ℕ)
  | found (results : List SearchResultItem)

/-- The answer of a call that returns nothing. -/
def SearchAnswer.ofResult : Except PyError Unit → SearchAnswer
  | .ok () => .done
  | .error e => .raised e

/-- What a call does. -/
def SearchCall.step (rank : Ranking) (s : SearchState) (c : SearchCall × Faults) :
    SearchAnswer × SearchState :=
  match c.1 with
  | .indexDocument tenantId doc =>
    let (result, s) := s.indexDocument true tenantId doc true c.2
    (.ofResult result, s)
  | .indexDocuments tenantId docs =>
    let (result, s) := s.indexDocuments true tenantId docs true c.2
    (.ofResult result, s)
  | .deleteDocument tenantId docId =>
    let (result, s) := s.deleteDocument true tenantId docId true c.2
    (.ofResult result, s)
  | .clearTenant tenantId => (.done, s.clearTenant tenantId c.2)
  | .getDocumentCount tenantId =>
    let (n, s) := s.getDocumentCount true tenantId c.2
    (.counted n, s)
  | .search tenantId query => (.found (s.search rank tenantId query), s)
  | .restart => (.done, { files := s.files })

/-! ## Files that were written -/

theorem Faults.write_prefix (faults : Faults) (w : Written) :
    (faults.write w).tokens <+: w.tokens := by
  unfold write
  split
  · exact List.prefix_rfl
  · exact List.take_prefix _ _

/-- All documents of the index are known to `json.dump`. -/
def InvertedIndex.Serialisable (idx : InvertedIndex) : Prop :=
  ∀ doc ∈ idx.documents.values, doc.toData.Serialisable

namespace InvertedIndex

variable {idx : InvertedIndex}

theorem dumped_ok_iff : idx.dumped.error = none ↔ idx.Serialisable := by
  have hlist := serialisable_list (l := idx.documents.values.map SearchDocument.toData)
  rw [List.forall_mem_map] at hlist
  exact hlist

/-- A file that was written to its end gives the documents of the index. -/
theorem readInto_dumped (hall : idx.Serialisable) :
    readInto idx.dumped.tokens {} = some (true, idx.rebuilt) := by
  have hload := load_dump (dumped_ok_iff.2 hall)
  unfold readInto dumped
  rw [hload]
  exact congrArg some (addItems_toData idx.documents.values {})

/-- A file that ends before that cannot be read. -/
theorem readInto_of_incomplete {tokens : List Token} (htokens : tokens <+: idx.dumped.tokens)
    (hend : tokens ≠ idx.dumped.tokens ∨ ¬ idx.Serialisable) : readInto tokens {} = none := by
  rw [← dumped_ok_iff] at hend
  obtain ⟨e, he⟩ := load_of_incomplete htokens hend
  unfold readInto
  rw [he]

end InvertedIndex

namespace SearchState

/-- What a fresh engine has of a tenant once it has tried to load its file. -/
def onDisk (s : SearchState) (tenantId : String) : Dict String SearchDocument :=
  (loadFromDisk true tenantId {} { files := s.files }).2.documents tenantId

/-- The documents that a fresh engine loads, if it does. -/
def restored (s : SearchState) (tenantId : String) : Option (Dict String SearchDocument) :=
  if (loadFromDisk true tenantId {} { files := s.files }).1 then some (s.onDisk tenantId) else none

variable {s : SearchState} {tenantId : String}

theorem documents_of_get? {idx : InvertedIndex} (h : s.tenantIndexes.get? tenantId = some idx) :
    s.documents tenantId = idx.documents := by
  unfold documents
  rw [h]
  rfl

theorem documents_of_not_mem (h : tenantId ∉ s.tenantIndexes.keys) :
    s.documents tenantId = .empty := by
  unfold documents
  rw [Dict.get?_eq_none_iff.2 h]
  rfl

theorem loadFromDisk_fresh {tokens : List Token} (h : s.files.get? tenantId = some tokens) :
    (loadFromDisk true tenantId {} { files := s.files }) =
      ((readInto tokens {}).map fun r => (r.1,
        ({ tenantIndexes := Dict.empty.set tenantId r.2, files := s.files } : SearchState))).getD
          (false, { files := s.files }) := by
  unfold loadFromDisk
  simp only [h, Bool.not_true, Bool.false_eq_true, if_false, Dict.get?_empty, Option.getD_none]
  cases readInto tokens {} with
  | none => rfl
  | some r => rfl

theorem onDisk_of_get? {tokens : List Token} (h : s.files.get? tenantId = some tokens) :
    s.onDisk tenantId = ((readInto tokens {}).map fun r => r.2.documents).getD .empty := by
  unfold onDisk
  rw [loadFromDisk_fresh h]
  cases readInto tokens {} with
  | none => rfl
  | some r => simp [documents]

theorem restored_of_get? {tokens : List Token} (h : s.files.get? tenantId = some tokens) :
    s.restored tenantId =
      (readInto tokens {}).bind fun r => if r.1 then some r.2.documents else none := by
  unfold restored
  rw [onDisk_of_get? h, loadFromDisk_fresh h]
  cases readInto tokens {} with
  | none => rfl
  | some r => rfl

/-- What the persisting of an index comes to. -/
theorem persistToDisk_of_get? {idx : InvertedIndex} (h : s.tenantIndexes.get? tenantId = some idx)
    {faults : Faults} (hopening : faults.opening = none) :
    persistToDisk true tenantId faults s =
      (match (faults.write idx.dumped).error with
        | some e => .error e
        | none => .ok true,
        { s with files := s.files.set tenantId (faults.write idx.dumped).tokens }) := by
  unfold persistToDisk
  simp only [h, hopening, Bool.not_true, Bool.false_eq_true, if_false]

/-- What can be loaded after a file was written: the documents of the index, if it is whole. -/
theorem restored_of_written {idx : InvertedIndex} (hlinked : idx.Linked) {tokens : List Token}
    (htokens : tokens <+: idx.dumped.tokens) (docs : Dict String SearchDocument) :
    ({ s with files := s.files.set tenantId tokens } : SearchState).restored tenantId = some docs ↔
      idx.Serialisable ∧ tokens = idx.dumped.tokens ∧ docs = idx.documents := by
  rw [restored_of_get? (Dict.get?_set_self ..)]
  by_cases hwhole : idx.Serialisable ∧ tokens = idx.dumped.tokens
  · obtain ⟨hall, rfl⟩ := hwhole
    rw [InvertedIndex.readInto_dumped hall, Option.bind_some, if_pos rfl,
      hlinked.rebuilt.2.2, Option.some.injEq]
    exact ⟨fun h => ⟨hall, rfl, h.symm⟩, fun h => h.2.2.symm⟩
  · have hend : tokens ≠ idx.dumped.tokens ∨ ¬ idx.Serialisable := by
      by_contra hneither
      push Not at hneither
      exact hwhole ⟨hneither.2, hneither.1⟩
    rw [InvertedIndex.readInto_of_incomplete htokens hend, Option.bind_none]
    apply iff_of_false
    · exact Option.some_ne_none _ ∘ Eq.symm
    · exact fun h => hwhole ⟨h.1, h.2.1⟩

/-! ## Indexes in memory -/

/-- The indexes of all tenants are linked. -/
def Linked (s : SearchState) : Prop :=
  ∀ tenantId idx, s.tenantIndexes.get? tenantId = some idx → idx.Linked

theorem Linked.set (h : s.Linked) {idx : InvertedIndex} (hidx : idx.Linked) :
    ({ s with tenantIndexes := s.tenantIndexes.set tenantId idx } : SearchState).Linked := by
  intro tenantId' idx' hget
  simp only [Dict.get?_set] at hget
  split at hget
  · cases hget
    exact hidx
  · exact h tenantId' idx' hget

theorem linked_addItems (items : List Data) {idx : InvertedIndex} (h : idx.Linked) :
    (addItems items idx).2.Linked := by
  induction items generalizing idx with
  | nil => exact h
  | cons item items ih =>
    unfold addItems
    split
    · exact h
    · exact ih (h.addDocument _).1

theorem linked_readInto {tokens : List Token} {idx : InvertedIndex} (h : idx.Linked)
    {r : Bool × InvertedIndex} (hr : readInto tokens idx = some r) : r.2.Linked := by
  unfold readInto at hr
  split at hr
  · cases hr
    exact linked_addItems _ h
  · cases hr
    exact h
  · cases hr

theorem Linked.getD (h : s.Linked) : ((s.tenantIndexes.get? tenantId).getD {}).Linked := by
  cases hget : s.tenantIndexes.get? tenantId with
  | none => exact InvertedIndex.Linked.empty
  | some idx => exact h tenantId idx hget

theorem Linked.loadFromDisk (h : s.Linked) (enabled : Bool) (faults : Faults) :
    (s.loadFromDisk enabled tenantId faults).2.Linked := by
  unfold SearchState.loadFromDisk
  split
  · exact h
  · split
    · exact h
    · split
      · exact h
      · split
        · exact h
        · next hread => exact h.set (linked_readInto h.getD hread)

theorem Linked.persistToDisk (h : s.Linked) (enabled : Bool) (faults : Faults) :
    (s.persistToDisk enabled tenantId faults).2.Linked := by
  unfold SearchState.persistToDisk
  split
  · exact h
  · split
    · exact h
    · split <;> exact h

theorem Linked.onIndex (h : s.Linked) {f : InvertedIndex → InvertedIndex}
    (hf : ∀ idx : InvertedIndex, idx.Linked → (f idx).Linked) : (s.onIndex tenantId f).Linked := by
  unfold SearchState.onIndex
  split
  · exact h
  · next idx hget => exact h.set (hf idx (h tenantId idx hget))

theorem Linked.getOrCreateIndex (h : s.Linked) (enabled : Bool) (faults : Faults) :
    (s.getOrCreateIndex enabled tenantId faults).Linked := by
  unfold SearchState.getOrCreateIndex
  split
  · exact h
  · exact (h.set InvertedIndex.Linked.empty).loadFromDisk enabled faults

theorem Linked.addToIndex (h : s.Linked) (enabled : Bool) (faults : Faults)
    (doc : SearchDocument) : (s.addToIndex enabled tenantId faults doc).Linked :=
  (h.getOrCreateIndex enabled faults).onIndex fun _ hidx => (hidx.addDocument doc).1

theorem Linked.finish (h : s.Linked) (enabled persist : Bool) (faults : Faults) :
    (s.finish enabled persist tenantId faults).2.Linked := by
  unfold SearchState.finish
  split
  · exact h.persistToDisk enabled faults
  · exact h

theorem Linked.step (h : s.Linked) (rank : Ranking) (c : SearchCall × Faults) :
    (SearchCall.step rank s c).2.Linked := by
  obtain ⟨call, faults⟩ := c
  cases call with
  | indexDocument tenantId doc => exact (h.addToIndex true faults doc).finish true true faults
  | indexDocuments tenantId docs =>
    have hall : (docs.foldl (SearchState.addToIndex true tenantId faults) s).Linked := by
      induction docs generalizing s with
      | nil => exact h
      | cons doc docs ih => exact ih (h.addToIndex true faults doc)
    exact hall.finish true true faults
  | deleteDocument tenantId docId =>
    exact (h.onIndex fun idx hidx => hidx.step (.remove docId)).finish true true faults
  | clearTenant tenantId =>
    have hcleared : (s.onIndex tenantId (·.clear)).Linked :=
      h.onIndex fun idx hidx => hidx.step .clear
    show (SearchState.clearTenant tenantId faults s).Linked
    unfold clearTenant
    split <;> exact hcleared
  | getDocumentCount tenantId =>
    show (SearchState.getDocumentCount true tenantId faults s).2.Linked
    unfold getDocumentCount
    split
    · exact h
    · exact h.loadFromDisk true faults
  | search tenantId query => exact h
  | restart =>
    intro tenantId idx hget
    cases hget

end SearchState

theorem linked_exec (rank : Ranking) (calls : List (SearchCall × Faults)) :
    (Machine.exec (SearchCall.step rank) {} calls).Linked := by
  have hempty : SearchState.Linked {} := by
    intro tenantId idx hget
    cases hget
  exact Machine.exec_invariant (P := fun _ => True) (fun s c _ h => h.step rank c) hempty
    fun _ _ => trivial

/-! ## Persisting -/

/-- Where nothing goes wrong a tenant's index is persisted, a fresh engine then loads the same
documents, and where it is not persisted what could be loaded before can still be. -/
structure PersistsAtomically (s : SearchState) (tenantId : String) (faults : Faults) : Prop where
  persists : ∀ idx, s.tenantIndexes.get? tenantId = some idx → idx.Serialisable →
    faults.opening = none → faults.writing = none →
      (s.persistToDisk true tenantId faults).1 = .ok true
  inverse : (s.persistToDisk true tenantId faults).1 = .ok true →
    (s.persistToDisk true tenantId faults).2.restored tenantId = some (s.documents tenantId)
  atomic : ∀ e, (s.persistToDisk true tenantId faults).1 = .error e →
    ∀ docs, s.restored tenantId = some docs →
      (s.persistToDisk true tenantId faults).2.restored tenantId = some docs

/-- The file is not opened in vain: if it is opened, the writing goes through, or there was
nothing to lose, or the whole text was written and the documents are as before. -/
def Harmless (s : SearchState) (tenantId : String) (faults : Faults) : Prop :=
  ∀ idx, s.tenantIndexes.get? tenantId = some idx → faults.opening = none →
    idx.Serialisable ∧ faults.writing = none ∨
      s.restored tenantId = none ∨
        idx.Serialisable ∧ (∀ n e, faults.writing = some (n, e) → idx.dumped.tokens.length ≤ n) ∧
          s.restored tenantId = some idx.documents

theorem Faults.write_eq_iff {faults : Faults} {w : Written} :
    (faults.write w).tokens = w.tokens ↔
      ∀ n e, faults.writing = some (n, e) → w.tokens.length ≤ n := by
  unfold write
  cases hwriting : faults.writing with
  | none => simp
  | some p =>
    obtain ⟨n, e⟩ := p
    simp [List.take_eq_self_iff]

theorem Faults.write_ok_iff {faults : Faults} {w : Written} :
    (faults.write w).error = none ↔ faults.writing = none ∧ w.error = none := by
  unfold write
  cases faults.writing <;> simp

namespace SearchState

variable {s : SearchState} {tenantId : String} {faults : Faults} {idx : InvertedIndex}

theorem persistToDisk_error_iff (hget : s.tenantIndexes.get? tenantId = some idx)
    (hopening : faults.opening = none) (e : PyError) :
    (s.persistToDisk true tenantId faults).1 = .error e ↔
      (faults.write idx.dumped).error = some e := by
  rw [persistToDisk_of_get? hget hopening]
  cases (faults.write idx.dumped).error <;> simp

theorem persistToDisk_ok_iff (hget : s.tenantIndexes.get? tenantId = some idx)
    (hopening : faults.opening = none) :
    (s.persistToDisk true tenantId faults).1 = .ok true ↔
      faults.writing = none ∧ idx.Serialisable := by
  rw [← InvertedIndex.dumped_ok_iff, ← Faults.write_ok_iff, persistToDisk_of_get? hget hopening]
  cases (faults.write idx.dumped).error <;> simp

/-- What is read back when the file was opened. -/
theorem restored_persistToDisk (hlinked : idx.Linked)
    (hget : s.tenantIndexes.get? tenantId = some idx) (hopening : faults.opening = none)
    (docs : Dict String SearchDocument) :
    (s.persistToDisk true tenantId faults).2.restored tenantId = some docs ↔
      idx.Serialisable ∧ (∀ n e, faults.writing = some (n, e) → idx.dumped.tokens.length ≤ n) ∧
        docs = idx.documents := by
  rw [persistToDisk_of_get? hget hopening, ← Faults.write_eq_iff]
  exact restored_of_written hlinked (faults.write_prefix idx.dumped) docs

end SearchState

/-- **Persisting is atomic**, in every state that an engine can come to, exactly if the file is
not opened in vain. -/
theorem persisting_atomic_iff (rank : Ranking) (calls : List (SearchCall × Faults))
    (tenantId : String) (faults : Faults) :
    PersistsAtomically (Machine.exec (SearchCall.step rank) {} calls) tenantId faults ↔
      Harmless (Machine.exec (SearchCall.step rank) {} calls) tenantId faults := by
  have hlinked := linked_exec rank calls
  generalize Machine.exec (SearchCall.step rank) {} calls = s at hlinked ⊢
  cases hget : s.tenantIndexes.get? tenantId with
  | none =>
    have hpersist : s.persistToDisk true tenantId faults = (.ok false, s) := by
      unfold SearchState.persistToDisk
      simp [hget]
    apply iff_of_true
    · constructor <;> simp [hpersist, hget]
    · intro idx hidx
      rw [hget] at hidx
      cases hidx
  | some idx =>
    cases hopening : faults.opening with
    | some e =>
      have hpersist : s.persistToDisk true tenantId faults = (.error e, s) := by
        unfold SearchState.persistToDisk
        simp [hget, hopening]
      apply iff_of_true
      · constructor <;> simp [hpersist, hopening]
      · intro idx' _ hnone
        rw [hopening] at hnone
        cases hnone
    | none =>
      have hresult := SearchState.persistToDisk_error_iff hget hopening
      have hok := SearchState.persistToDisk_ok_iff hget hopening
      have hrestored := SearchState.restored_persistToDisk (hlinked tenantId idx hget) hget hopening
      have hdocuments := SearchState.documents_of_get? hget
      constructor
      · intro hatomic idx' hidx' _
        obtain rfl : idx = idx' := by simpa [hget] using hidx'
        cases hresult' : (s.persistToDisk true tenantId faults).1 with
        | ok persisted =>
          have hnone : (faults.write idx.dumped).error = none := by
            rw [Option.eq_none_iff_forall_ne_some]
            intro e he
            rw [(hresult e).2 he] at hresult'
            cases hresult'
          obtain ⟨hwriting, hdumped⟩ := Faults.write_ok_iff.1 hnone
          exact .inl ⟨InvertedIndex.dumped_ok_iff.1 hdumped, hwriting⟩
        | error e =>
          cases hbefore : s.restored tenantId with
          | none => exact .inr (.inl rfl)
          | some docs =>
            have hafter := hatomic.atomic e hresult' docs hbefore
            obtain ⟨hall, hwhole, rfl⟩ := (hrestored docs).1 hafter
            exact .inr (.inr ⟨hall, hwhole, rfl⟩)
      · intro hharmless
        refine ⟨fun idx' hidx' hall _ hwriting => ?_, fun hdone => ?_, fun e he docs hbefore => ?_⟩
        · obtain rfl : idx = idx' := by simpa [hget] using hidx'
          exact hok.2 ⟨hwriting, hall⟩
        · obtain ⟨hwriting, hall⟩ := hok.1 hdone
          rw [hdocuments, hrestored]
          refine ⟨hall, fun n e hsome => ?_, rfl⟩
          rw [hwriting] at hsome
          cases hsome
        · rw [hrestored]
          rcases hharmless idx hget hopening with ⟨hall, hwriting⟩ | hnone | ⟨hall, hwhole, hsame⟩
          · rw [hok.2 ⟨hwriting, hall⟩] at he
            cases he
          · rw [hnone] at hbefore
            cases hbefore
          · rw [hsame] at hbefore
            cases hbefore
            exact ⟨hall, hwhole, rfl⟩

/-- No space is left for the first token. -/
def noSpace : Faults := { writing := some (0, ⟨.other, "[Errno 28] No space left on device"⟩) }

/-- A tenant whose only document is persisted once more, on a full disk, has none left. -/
theorem not_persistsAtomically_full : ¬ ∀ (rank : Ranking) (calls : List (SearchCall × Faults))
    (tenantId : String) (faults : Faults),
    PersistsAtomically (Machine.exec (SearchCall.step rank) {} calls) tenantId faults := by
  intro hall
  have hatomic := (hall (fun _ _ => []) [(.indexDocument "acme" (titled "Orders"), {})] "acme"
    noSpace).atomic _ rfl
  have hbefore : ((Machine.exec (SearchCall.step fun _ _ => []) {}
      [(.indexDocument "acme" (titled "Orders"), {})]).restored "acme").isSome = true := by
    decide +kernel
  obtain ⟨docs, hdocs⟩ := Option.isSome_iff_exists.1 hbefore
  have hafter := hatomic docs hdocs
  have hlost : (((Machine.exec (SearchCall.step fun _ _ => []) {}
      [(.indexDocument "acme" (titled "Orders"), {})]).persistToDisk true "acme" noSpace).2.restored
        "acme").isSome = false := by
    decide +kernel
  rw [hafter] at hlost
  cases hlost

end FlowMesh.Search
