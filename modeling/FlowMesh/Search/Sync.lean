import FlowMesh.Api.Routers
import FlowMesh.Auth.ApiKeys
import FlowMesh.Library.Crew
import FlowMesh.Policy.Engine
import FlowMesh.Repositories.Requests
import FlowMesh.Search.Provenance

/-!
# The index and the database

`sync_tenant_search_index`, `search_endpoint` and `reindex_tenant_endpoint` of
`routers/search.py`, and what `seed_demo_data` and `reset_demo_data` of `routers/demo.py` do to the
index. The index of a tenant is cleared, rows are listed from the database, and their documents are
indexed; each of these is a call, and other requests come in between. The database is another one
at each call.

`search_isolated`: whatever requests interleave and fail, a search finds documents of rows of its
own tenant only. `reindex_exact`: a reindexing that no other request for the tenant disturbs leaves
just the documents of the rows that it listed.
-/

namespace FlowMesh.Indexing

open Python Database Transaction Tables Search Async

/-! ## Documents -/

/-- What a document takes from the interpreter: texts in upper and in lower case, and times. -/
structure Rendering where
  upper : String → String
  lower : String → String
  instant : ℤ → DateTime

mutual

/-- A decoded value. -/
def plainData : Json → Data
  | .null => .null
  | .bool b => .bool b
  | .int n => .int n
  | .float x => .float x
  | .str s => .str s
  | .list l => .list (plainItems l)
  | .obj items => .dict (plainFields items)
termination_by structural v => v

/-- The items of a list. -/
def plainItems : List Json → List Data
  | [] => []
  | v :: l => plainData v :: plainItems l
termination_by structural l => l

/-- The items of a dictionary. -/
def plainFields : List (String × Json) → List (String × Data)
  | [] => []
  | p :: items => plainField p :: plainFields items
termination_by structural items => items

/-- An item of a dictionary. -/
def plainField : String × Json → String × Data
  | (k, v) => (k, plainData v)
termination_by structural p => p

end

/-- `[n.get("name", "") for n in nodes]`. -/
def nodeNames (definition : Json) : Except PyError (List Json) := do
  (← PolicyEngine.nodesOf definition).mapM fun n => PolicyEngine.get n "name" (.str "")

/-- The items that `join` takes, from a position on. -/
def joinItems : ℕ → List Json → Except PyError (List String)
  | _, [] => .ok []
  | n, .str s :: l => (joinItems (n + 1) l).map (s :: ·)
  | n, v :: _ => .error ⟨.typeError, "sequence item " ++ toString n ++
      ": expected str instance, " ++ typeName v ++ " found"⟩

/-- `SYSTEM_QUICK_ACTIONS`: id, title, description, URL and tags. -/
def systemQuickActions : List (String × String × String × String × List String) :=
  [("act_nav_workflows", "Go to Workflows Studio",
      "Visual DAG canvas, topological validation, and version deployments", "/workflows",
      ["workflows", "dag", "builder", "deploy", "studio"]),
    ("act_nav_connections", "Go to Connections",
      "Manage PostgreSQL, SAP ERP, REST, Kafka, and Redis integrations", "/connections",
      ["connections", "integrations", "postgres", "sap", "secrets"]),
    ("act_nav_runs", "Go to Execution Runs",
      "Deterministic step execution history, timeline view, and replays", "/runs",
      ["runs", "history", "execution", "timeline", "replay"]),
    ("act_nav_incidents", "Go to Incidents & DLQ",
      "AI failure diagnosis, circuit breakers, and dead letter queue", "/incidents",
      ["incidents", "dlq", "errors", "circuit breaker", "timeout"]),
    ("act_nav_agents", "Go to Edge Agents",
      "Daemon fleet status, mTLS certificates, and CPU/memory metrics", "/agents",
      ["agents", "edge", "fleet", "daemons", "mtls"]),
    ("act_nav_events", "Go to Event Stream",
      "NATS JetStream real-time CloudEvents feed and payload inspection", "/events",
      ["events", "nats", "jetstream", "cloudevents", "stream"]),
    ("act_nav_audit", "Go to Audit Trail",
      "Cryptographically sealed tamper-evident immutable activity ledger", "/audit",
      ["audit", "compliance", "tamper-evident", "security", "ledger"]),
    ("act_nav_settings", "Go to Platform Settings",
      "RediForge StateStore, envelope encryption, and telemetry config", "/settings",
      ["settings", "config", "encryption", "state store"]),
    ("act_nav_org", "Go to Organization & API Keys",
      "Manage API keys, team members, and Okta RBAC permissions", "/organization",
      ["organization", "api keys", "rbac", "security", "tokens"])]

section Documents

variable (r : Rendering) (tenantId : String)

/-- The document of a connection. -/
def connectionDocument (c : Tables.ConnectionRecord) : SearchDocument where
  id := c.id
  tenantId
  entityType := "connection"
  title := c.name ++ " (" ++ r.upper c.type ++ ")"
  description := some ("Type: " ++ c.type ++ " | Status: " ++ c.status ++ " | Agent: " ++
    if c.agentId.getD "" = "" then "cloud" else c.agentId.getD "")
  tags := [c.type, c.status, "connection", "connector"]
  status := some c.status
  url := some "/connections"
  payload := [("config", plainData c.configJson), ("type", .str c.type)]
  createdAt := some (r.instant c.createdAt)

/-- `n.lower()`. -/
def lowerName : Json → Except PyError String
  | .str s => .ok (r.lower s)
  | v => .error (PolicyEngine.attributeError v "lower")

/-- The description of a workflow that has none. -/
def stepsText (names : List Json) : Except PyError String :=
  (joinItems 0 (names.take 3)).map fun first =>
    "Workflow with " ++ toString names.length ++ " steps: " ++ ", ".intercalate first

/-- The document of a workflow. -/
def workflowDocument (w : Tables.WorkflowRecord) : Except PyError SearchDocument := do
  let names ← nodeNames w.definitionJson
  let description ← if w.description = "" then stepsText names else .ok w.description
  let lowered ← names.mapM (lowerName r)
  return {
    id := w.id
    tenantId
    entityType := "workflow"
    title := w.name
    description := some description
    tags := [w.triggerType, w.status, "v" ++ toString w.version, "workflow"] ++ lowered
    status := some w.status
    url := some "/workflows"
    payload := [("version", .int w.version), ("trigger_type", .str w.triggerType)]
    createdAt := some (r.instant w.createdAt) }

/-- The document of a run. -/
def runDocument (run : Tables.RunRecord) : SearchDocument where
  id := run.id
  tenantId
  entityType := "run"
  title := run.id ++ " (" ++ run.workflowId ++ ")"
  description := some ("Status: " ++ run.status ++ " | Duration: " ++ run.durationSeconds.repr ++
    "s | Trigger: " ++ run.triggerSource)
  tags := [run.status, run.workflowId, run.triggerSource, "run"]
  status := some run.status
  url := some "/runs"
  payload := [("workflow_id", .str run.workflowId), ("trace_id", .str run.traceId)]
  createdAt := some (r.instant run.startedAt)

/-- The document of an incident that every tenant with rows has. -/
def incidentDocument : SearchDocument where
  id := "INC-1932"
  tenantId
  entityType := "incident"
  title := "Warehouse API Gateway Timeout (HTTP 503)"
  description := some ("Upstream warehouse endpoint timeout triggering circuit breaker open " ++
    "state on order inventory validation step")
  tags := ["incident", "timeout", "http 503", "warehouse", "circuit_breaker"]
  status := some "RECOVERED"
  url := some "/incidents"
  payload := [("severity", .str "HIGH"), ("error_code", .str "HTTP_503")]

/-- The document of a quick action. -/
def quickActionDocument : String × String × String × String × List String → SearchDocument
  | (id, title, description, url, tags) =>
    { id := id ++ "_" ++ tenantId
      tenantId
      entityType := "action"
      title
      description := some description
      tags
      status := some "ACTION"
      url := some url }

/-- The documents that are not of rows. -/
def standingDocuments : List SearchDocument :=
  incidentDocument tenantId :: systemQuickActions.map (quickActionDocument tenantId)

/-- `docs`, from the rows and the documents of the workflows. -/
def gathered (conns : List Tables.ConnectionRecord) (wfDocs : List SearchDocument)
    (runs : List Tables.RunRecord) : List SearchDocument :=
  let docs := conns.map (connectionDocument r tenantId) ++ wfDocs ++
    runs.map (runDocument r tenantId)
  if docs = [] then [] else docs ++ standingDocuments tenantId

end Documents

/-! ## Calls -/

/-- The calls of the requests; `restart` is a fresh process over the same directory. -/
inductive IndexOp
  | getDocumentCount (tenantId : String)
  | clearTenant (tenantId : String)
  | indexDocuments (tenantId : String) (docs : List SearchDocument)
  | search (tenantId : String) (query : Search.Query)
  | restart
  | listConnections (tenantId : String)
  | listWorkflows (tenantId : String)
  | listRuns (tenantId : String)

/-- What the calls return. -/
abbrev IndexOp.Res : IndexOp → Type
  | .getDocumentCount _ => ℕ
  | .clearTenant _ | .indexDocuments _ _ | .restart => Unit
  | .search _ _ => SearchResponse
  | .listConnections _ => List Tables.ConnectionRecord
  | .listWorkflows _ => List Tables.WorkflowRecord
  | .listRuns _ => List (Tables.RunRecord × List Tables.RunStepRecord)

/-- The code of the router. -/
abbrev IndexM (α : Type) : Type := Prog IndexOp IndexOp.Res PyError α

/-- Await a call. -/
abbrev await (o : IndexOp) : IndexM o.Res := Prog.perform o

variable {d : Dialect}

/-- The engine, and the databases that requests have listed rows from, with their numbers. -/
structure IndexWorld (d : Dialect) where
  engine : HybridState
  listed : List (ℕ × Db d) := []

/-- The databases that rows were listed from. -/
def IndexWorld.databases (w : IndexWorld d) : List (Db d) := w.listed.map Prod.snd

/-- Those that a request listed rows from. -/
def IndexWorld.listedBy (w : IndexWorld d) (n : ℕ) : List (Db d) :=
  (w.listed.filter (·.1 = n)).map Prod.snd

/-- What a request cannot know: the database as it is then, what it raises, and the file system. -/
structure Surroundings (d : Dialect) where
  db : Db d
  failure : Option PyError := none
  faults : Faults := {}

namespace IndexOp

/-- The call of the engine. -/
def call? : IndexOp → Option SearchCall
  | .getDocumentCount tenantId => some (.getDocumentCount tenantId)
  | .clearTenant tenantId => some (.clearTenant tenantId)
  | .indexDocuments tenantId docs => some (.indexDocuments tenantId docs)
  | .search tenantId query => some (.search tenantId query)
  | .restart => some .restart
  | .listConnections _ | .listWorkflows _ | .listRuns _ => none

/-- The listing of rows. -/
def listing {α : Type} (n : ℕ) (c : Surroundings d) (rows : Tables.Query d α)
    (w : IndexWorld d) : Except PyError α × IndexWorld d :=
  match c.failure with
  | some e => (.error e, w)
  | none => ((rows c.db).1.map Prod.fst, { w with listed := w.listed ++ [(n, c.db)] })

/-- What the calls of a request do. -/
def handle (i : Interpreter) (n : ℕ) (c : Surroundings d) :
    Handler IndexOp IndexOp.Res PyError (IndexWorld d)
  | .getDocumentCount tenantId, w =>
    let (count, engine) := w.engine.getDocumentCount i.encoder tenantId c.faults
    (.ok count, { w with engine })
  | .clearTenant tenantId, w =>
    (.ok (), { w with engine := w.engine.clearTenant tenantId c.faults })
  | .indexDocuments tenantId docs, w =>
    let (result, engine) := w.engine.indexDocuments i.encoder tenantId docs c.faults
    (result, { w with engine })
  | .search tenantId query, w => (.ok (w.engine.search i tenantId query), w)
  | .restart, w => (.ok (), { w with engine := { lexical := { files := w.engine.lexical.files } } })
  | .listConnections tenantId, w =>
    listing n c (TenantScopedRepository.listAll tenantId .connections 0 100) w
  | .listWorkflows tenantId, w =>
    listing n c (TenantScopedRepository.listAll tenantId .workflows 0 100) w
  | .listRuns tenantId, w => listing n c (RunRepository.listAll tenantId 0 100) w

end IndexOp

/-! ## Requests -/

/-- Go on with a value, or raise. -/
def raising {α : Type} : Except PyError α → IndexM α
  | .ok a => .pure a
  | .error e => .throw e

/-- `TenantScopedRepository(model, db, tenant_id)`. -/
def tenantScopedRepository (tenantId : String) : IndexM Unit :=
  if tenantId = "" then
    .throw ⟨.valueError, "TenantScopedRepository requires an explicit non-empty tenant_id"⟩
  else return ()

/-- The parameters of a search, as the route accepts them. -/
structure SearchParams where
  q : String := ""
  types : Option String := none
  limit : ℤ := 15
  accepted : q.length ≤ 256 ∧ 1 ≤ limit ∧ limit ≤ 50

/-- The query: `set(types.split(",")) if types else None`. -/
def SearchParams.query (params : SearchParams) : Search.Query where
  text := params.q
  entityTypes := (params.types.filter (· ≠ "")).map fun types =>
    (types.toList.splitOn ',').map String.ofList
  limit := params.limit

section Code

variable (r : Rendering) (tenantId : String)

/-- `sync_tenant_search_index`. -/
def syncTenantSearchIndex : IndexM ℕ := do
  await (.clearTenant tenantId)
  tenantScopedRepository tenantId
  let conns ← await (.listConnections tenantId)
  let wfs ← await (.listWorkflows tenantId)
  let wfDocs ← raising (wfs.mapM (workflowDocument r tenantId))
  let runs ← await (.listRuns tenantId)
  let docs := gathered r tenantId conns wfDocs (runs.map Prod.fst)
  await (.indexDocuments tenantId docs)
  return docs.length

/-- `search_endpoint`. -/
def searchEndpoint (params : SearchParams) : IndexM SearchResponse := do
  if (← await (.getDocumentCount tenantId)) = 0 then
    let _ ← syncTenantSearchIndex r tenantId
  await (.search tenantId params.query)

/-- `reindex_tenant_endpoint`. -/
def reindexTenantEndpoint (role : String) : IndexM ℕ :=
  if isAllowed role "connection" "execute" then syncTenantSearchIndex r tenantId
  else .throw (httpException 403 ("RBAC Forbidden: Role '" ++ role ++
    "' cannot execute reindexing"))

end Code

/-- A request for a tenant, as far as it is about the index. -/
inductive IndexRequest
  | search (tenantId : String) (params : SearchParams)
  | reindex (tenantId role : String)
  /-- The end of `seed_demo_data`. -/
  | seed (tenantId : String)
  /-- The part of `reset_demo_data` behind its commit. -/
  | reset (tenantId : String)
  | restart

/-- What a request comes to. -/
inductive IndexOutcome
  | found (response : SearchResponse)
  | indexed (count : ℕ)
  | done

/-- The code of a request. -/
def IndexRequest.code (r : Rendering) : IndexRequest → IndexM IndexOutcome
  | .search tenantId params => do return .found (← searchEndpoint r tenantId params)
  | .reindex tenantId role => do return .indexed (← reindexTenantEndpoint r tenantId role)
  | .seed tenantId => do return .indexed (← syncTenantSearchIndex r tenantId)
  | .reset tenantId => do
    await (.clearTenant tenantId)
    return .done
  | .restart => do
    await .restart
    return .done

/-- Requests at work. -/
abbrev IndexSystem (d : Dialect) := Crew IndexOp IndexOp.Res PyError (IndexWorld d) IndexOutcome

/-- Requests over a directory without files. -/
def serving (r : Rendering) (requests : List IndexRequest) : IndexSystem d where
  state := ⟨.fresh .empty, []⟩
  progs := requests.map (·.code r)

/-! ## Listings -/

section Listings

variable (tenantId : String) (s : Db d)

/-- The rows that `list_all` gives. -/
def listedRows (t : Tables.Table) : List (Row t) :=
  (orderBy (TenantScopedRepository.comesFirst t)
    ((inTable t s).filter fun x => x.owner = tenantId && true)).take 100

/-- The runs that `list_all` gives. -/
def listedRuns : List Tables.RunRecord :=
  (orderBy (fun x y : Tables.RunRecord => y.startedAt ≤ x.startedAt)
    ((inTable .runs s).filter fun x : Tables.RunRecord => x.tenantId = tenantId && true)).take 100

theorem fst_listAll (t : Tables.Table) :
    (TenantScopedRepository.listAll tenantId t 0 100 s).1 = .ok (listedRows tenantId s t, s) := by
  unfold TenantScopedRepository.listAll paginate
  have hnone : ¬ (((0 : ℤ) < 0 ∨ (100 : ℤ) < 0) ∧ (!d.negativeLimits) = true) := by simp
  rw [if_neg hnone, fst_bind, fst_bind, fst_fetchOwn]
  rfl

theorem fst_listAll_runs : ∃ steps, (RunRepository.listAll tenantId 0 100 s).1 =
    .ok ((listedRuns tenantId s).map (RunRepository.withSteps steps), s) := by
  unfold RunRepository.listAll RunRepository.listRuns paginate RunRepository.loadSteps
  have hnone : ¬ (((0 : ℤ) < 0 ∨ (100 : ℤ) < 0) ∧ (!d.negativeLimits) = true) := by simp
  rw [if_neg hnone, fst_bind, fst_bind, fst_bind, fst_fetchOwn]
  simp only [pure_apply]
  rw [fst_bind, fst_fetch]
  exact ⟨_, rfl⟩

variable {tenantId s}

theorem mem_listedRows {t : Tables.Table} {x : Row t} (h : x ∈ listedRows tenantId s t) :
    x ∈ inTable t s ∧ x.owner = tenantId := by
  have hmem := List.mem_filter.1 ((List.mem_insertionSort _).1 (List.mem_of_mem_take h))
  simpa using hmem

theorem mem_listedRuns {x : Tables.RunRecord} (h : x ∈ listedRuns tenantId s) :
    x ∈ inTable .runs s ∧ x.tenantId = tenantId := by
  have hmem := List.mem_filter.1 ((List.mem_insertionSort _).1 (List.mem_of_mem_take h))
  simpa using hmem

end Listings

/-! ## Where documents come from -/

/-- A document of the tenant: of a row of its own in one of the databases, or a standing one. -/
inductive Origin (r : Rendering) (databases : List (Db d)) (tenantId : String) :
    SearchDocument → Prop
  | connection {s : Db d} {c : Tables.ConnectionRecord} (hs : s ∈ databases)
      (hc : c ∈ inTable .connections s) (howner : c.tenantId = tenantId) :
      Origin r databases tenantId (connectionDocument r tenantId c)
  | workflow {s : Db d} {w : Tables.WorkflowRecord} {doc : SearchDocument} (hs : s ∈ databases)
      (hw : w ∈ inTable .workflows s) (howner : w.tenantId = tenantId)
      (hdoc : workflowDocument r tenantId w = .ok doc) : Origin r databases tenantId doc
  | run {s : Db d} {run : Tables.RunRecord} (hs : s ∈ databases) (hrun : run ∈ inTable .runs s)
      (howner : run.tenantId = tenantId) :
      Origin r databases tenantId (runDocument r tenantId run)
  | standing {doc : SearchDocument} (hdoc : doc ∈ standingDocuments tenantId) :
      Origin r databases tenantId doc

theorem Origin.mono {r : Rendering} {databases databases' : List (Db d)} {tenantId : String}
    {doc : SearchDocument} (h : Origin r databases tenantId doc) (hsub : databases ⊆ databases') :
    Origin r databases' tenantId doc := by
  cases h with
  | connection hs hc howner => exact .connection (hsub hs) hc howner
  | workflow hs hw howner hdoc => exact .workflow (hsub hs) hw howner hdoc
  | run hs hrun howner => exact .run (hsub hs) hrun howner
  | standing hdoc => exact .standing hdoc

/-! ## Isolation -/

/-- A listing that gives rows. -/
theorem listing_ok {α : Type} {n : ℕ} {c : Surroundings d} {rows : Tables.Query d α}
    {w : IndexWorld d} {a : α} (h : (IndexOp.listing n c rows w).1 = .ok a) :
    (rows c.db).1.map Prod.fst = .ok a ∧
      (IndexOp.listing n c rows w).2 = { w with listed := w.listed ++ [(n, c.db)] } := by
  unfold IndexOp.listing at h ⊢
  cases hfailure : c.failure with
  | none =>
    simp only [hfailure] at h
    exact ⟨h, rfl⟩
  | some e =>
    simp only [hfailure] at h
    cases h

/-- The rows of `list_all`. -/
theorem listing_rows_ok {n : ℕ} {c : Surroundings d} {tenantId : String} {t : Tables.Table}
    {w : IndexWorld d} {rows : List (Row t)}
    (h : (IndexOp.listing n c (TenantScopedRepository.listAll tenantId t 0 100) w).1 = .ok rows) :
    rows = listedRows tenantId c.db t ∧
      (IndexOp.listing n c (TenantScopedRepository.listAll tenantId t 0 100) w).2 =
        { w with listed := w.listed ++ [(n, c.db)] } := by
  obtain ⟨hrows, hworld⟩ := listing_ok h
  rw [fst_listAll] at hrows
  exact ⟨(Except.ok.inj hrows).symm, hworld⟩

theorem listing_runs_ok {n : ℕ} {c : Surroundings d} {tenantId : String} {w : IndexWorld d}
    {runs : List (Tables.RunRecord × List Tables.RunStepRecord)}
    (h : (IndexOp.listing n c (RunRepository.listAll tenantId 0 100) w).1 = .ok runs) :
    runs.map Prod.fst = listedRuns tenantId c.db ∧
      (IndexOp.listing n c (RunRepository.listAll tenantId 0 100) w).2 =
        { w with listed := w.listed ++ [(n, c.db)] } := by
  obtain ⟨hrows, hworld⟩ := listing_ok h
  obtain ⟨steps, hsteps⟩ := fst_listAll_runs tenantId c.db
  rw [hsteps] at hrows
  refine ⟨?_, hworld⟩
  rw [← Except.ok.inj hrows, List.map_map]
  exact List.map_id _

/-- What a list is mapped to in which nothing is raised. -/
theorem mem_of_mapM {α β : Type} {f : α → Except PyError β} {l : List α} {l' : List β}
    (h : l.mapM f = .ok l') : ∀ b ∈ l', ∃ a ∈ l, f a = .ok b := by
  induction l generalizing l' with
  | nil =>
    cases h
    exact fun b hb => absurd hb List.not_mem_nil
  | cons a l ih =>
    rw [List.mapM_cons] at h
    cases hfa : f a with
    | error e =>
      rw [hfa] at h
      cases h
    | ok b =>
      cases hrest : l.mapM f with
      | error e =>
        rw [hfa, hrest] at h
        cases h
      | ok bs =>
        rw [hfa, hrest] at h
        cases h
        intro b' hb'
        rcases List.mem_cons.1 hb' with rfl | hb'
        · exact ⟨a, List.mem_cons_self, hfa⟩
        · obtain ⟨a', ha', hfa'⟩ := ih hrest b' hb'
          exact ⟨a', List.mem_cons_of_mem _ ha', hfa'⟩

section Isolation

variable (i : Interpreter) (r : Rendering)

/-- The towers are in step, and every document is one of its tenant. -/
structure Traced (w : IndexWorld d) : Prop where
  in_step : w.engine.InStep i.encoder
  linked : w.engine.lexical.Linked
  origin : w.engine.lexical.Within (Origin r w.databases)

/-- What the requests keep, and that databases are only added to those that were listed from. -/
def tracing : Crew.Contract (IndexWorld d) where
  inv := Traced i r
  moves _ w w' := w.databases ⊆ w'.databases

variable {i r} {w w' : IndexWorld d} {n : ℕ} {c : Surroundings d}

theorem databases_subset_of_rely (h : (tracing i r).Rely n w w') : w.databases ⊆ w'.databases :=
  h.keeps (F := fun v => w.databases ⊆ v.databases)
    (fun _ _ _ _ _ hmove hv => List.Subset.trans hv hmove) (List.Subset.refl _)

/-- A call of the engine. -/
theorem handle_of_call {o : IndexOp} {call : SearchCall} (ho : o.call? = some call) :
    (o.handle i n c w).2 =
      { w with engine := (HybridState.step i w.engine (call, c.faults)).2 } := by
  cases o <;> cases ho <;> rfl

/-- A listing changes no documents. -/
theorem handle_of_listing {o : IndexOp} (ho : o.call? = none) :
    (o.handle i n c w).2 = w ∨
      (o.handle i n c w).2 = { w with listed := w.listed ++ [(n, c.db)] } := by
  have hlisting : ∀ {α : Type} (rows : Tables.Query d α),
      (IndexOp.listing n c rows w).2 = w ∨
        (IndexOp.listing n c rows w).2 = { w with listed := w.listed ++ [(n, c.db)] } := by
    intro α rows
    unfold IndexOp.listing
    cases c.failure with
    | none => exact .inr rfl
    | some e => exact .inl rfl
  cases o with
  | listConnections tenantId => exact hlisting _
  | listWorkflows tenantId => exact hlisting _
  | listRuns tenantId => exact hlisting _
  | getDocumentCount | clearTenant | indexDocuments | search | restart => cases ho

/-- A call keeps all documents where they belong, if those that it is given do. -/
theorem Traced.handle (h : Traced i r w) {o : IndexOp}
    (hgiven : ∀ call, o.call? = some call → ∀ p ∈ call.given, Origin r w.databases p.1 p.2) :
    Traced i r (o.handle i n c w).2 ∧ w.databases ⊆ (o.handle i n c w).2.databases := by
  cases ho : o.call? with
  | none =>
    rcases handle_of_listing (i := i) (n := n) (c := c) (w := w) ho with hsame | hlisted
    · rw [hsame]
      exact ⟨h, List.Subset.refl _⟩
    · rw [hlisted]
      have hsub : w.databases ⊆
          IndexWorld.databases { w with listed := w.listed ++ [(n, c.db)] } := by
        simp [IndexWorld.databases]
      exact ⟨⟨h.in_step, h.linked, h.origin.mono fun _ _ hdoc => hdoc.mono hsub⟩, hsub⟩
  | some call =>
    obtain ⟨hstep, hlexical, -⟩ := h.in_step.step h.linked (call, c.faults)
    rw [handle_of_call ho]
    refine ⟨⟨hstep, ?_, ?_⟩, List.Subset.refl _⟩
    · rw [hlexical]
      exact h.linked.step _ _
    · rw [hlexical]
      exact h.origin.step h.linked _ (hgiven call ho)

theorem mem_databases_of_listed {w'' : IndexWorld d}
    (h : w'' = { w with listed := w.listed ++ [(n, c.db)] }) : c.db ∈ w''.databases := by
  subst h
  simp [IndexWorld.databases]

variable {G : ℕ → Surroundings d → IndexOp → IndexWorld d → Prop}

/-- One call, with documents that belong to their tenant. -/
theorem upholds_await {o : IndexOp} {P : o.Res → IndexWorld d → Prop}
    (hgiven : ∀ call, o.call? = some call → ∀ p ∈ call.given, Origin r w.databases p.1 p.2)
    (hP : ∀ w' c a, w.databases ⊆ (o.handle i n c w').2.databases → Traced i r w' →
      (o.handle i n c w').1 = .ok a → P a (o.handle i n c w').2) :
    (tracing i r).Upholds (IndexOp.handle i) G n (await o) (Crew.Contract.Returning P) w := by
  refine .perform fun w' hrely hinv c _ => ?_
  have hsub := databases_subset_of_rely hrely
  obtain ⟨htraced, hmoves⟩ := hinv.handle (n := n) (c := c) fun call ho p hp =>
    (hgiven call ho p hp).mono hsub
  refine ⟨htraced, hmoves, ?_⟩
  cases hresult : (o.handle i n c w').1 with
  | error e => trivial
  | ok a => exact hP w' c a (List.Subset.trans hsub hmoves) hinv hresult

theorem upholds_raising {C : Crew.Contract (IndexWorld d)} {α : Type} (x : Except PyError α)
    (w : IndexWorld d) : C.Upholds (IndexOp.handle i) G n (raising x)
      (Crew.Contract.Returning fun a w' => x = .ok a ∧ w' = w) w := by
  cases x with
  | error e => trivial
  | ok a => exact ⟨rfl, rfl⟩

/-- The documents that are gathered belong to the tenant. -/
theorem origin_gathered {databases : List (Db d)} {tenantId : String}
    {conns : List Tables.ConnectionRecord} {wfDocs : List SearchDocument}
    {runs : List Tables.RunRecord}
    (hbefore : ∀ doc ∈ conns.map (connectionDocument r tenantId) ++ wfDocs,
      Origin r databases tenantId doc)
    (hruns : ∀ run ∈ runs, Origin r databases tenantId (runDocument r tenantId run)) :
    ∀ doc ∈ gathered r tenantId conns wfDocs runs, Origin r databases tenantId doc := by
  intro doc hdoc
  unfold gathered at hdoc
  simp only at hdoc
  split_ifs at hdoc
  · cases hdoc
  · rw [List.mem_append, List.mem_append] at hdoc
    rcases hdoc with (hdoc | hdoc) | hdoc
    · exact hbefore doc hdoc
    · obtain ⟨run, hrun, rfl⟩ := List.mem_map.1 hdoc
      exact hruns run hrun
    · exact .standing hdoc

/-- Only documents of the tenant's rows are indexed. -/
theorem upholds_sync (tenantId : String) (w : IndexWorld d) :
    (tracing i r).Upholds (IndexOp.handle i) G n (syncTenantSearchIndex r tenantId)
      (fun _ _ => True) w := by
  unfold syncTenantSearchIndex
  refine .bind_returning (P := fun _ _ => True) (upholds_await ?_ fun _ _ _ _ _ _ => trivial)
    (fun _ w _ => ?_) fun _ _ => trivial
  · rintro _ ⟨⟩ p hp
    cases hp
  refine .bind_returning (P := fun _ _ => True) ?_ (fun _ w _ => ?_) fun _ _ => trivial
  · unfold tenantScopedRepository
    split_ifs <;> trivial
  -- the connections
  refine .bind_returning (P := fun conns w =>
    ∀ doc ∈ conns.map (connectionDocument r tenantId), Origin r w.databases tenantId doc)
    (upholds_await (by rintro _ ⟨⟩) fun w' c conns _ _ hresult => ?_) (fun conns w hconns => ?_)
      fun _ _ => trivial
  · obtain ⟨rfl, hworld⟩ := listing_rows_ok hresult
    rw [List.forall_mem_map]
    intro conn hconn
    obtain ⟨hmem, howner⟩ := mem_listedRows hconn
    exact .connection (mem_databases_of_listed hworld) hmem howner
  -- the workflows
  refine .bind_returning (P := fun wfs w =>
    ∀ wfDocs, wfs.mapM (workflowDocument r tenantId) = .ok wfDocs →
      ∀ doc ∈ conns.map (connectionDocument r tenantId) ++ wfDocs,
        Origin r w.databases tenantId doc)
    (upholds_await (by rintro _ ⟨⟩) fun w' c wfs hsub _ hresult wfDocs hwfDocs doc hdoc => ?_)
      (fun wfs w hwfs => ?_) fun _ _ => trivial
  · rcases List.mem_append.1 hdoc with hdoc | hdoc
    · exact (hconns doc hdoc).mono hsub
    · obtain ⟨rfl, hworld⟩ := listing_rows_ok hresult
      obtain ⟨wf, hwf, hdocument⟩ := mem_of_mapM hwfDocs doc hdoc
      obtain ⟨hmem, howner⟩ := mem_listedRows hwf
      exact .workflow (mem_databases_of_listed hworld) hmem howner hdocument
  refine .bind_returning (upholds_raising _ w) ?_ fun _ _ => trivial
  rintro wfDocs _ ⟨hwfDocs, rfl⟩
  -- the runs
  refine .bind_returning (P := fun runs w => ∀ doc ∈ gathered r tenantId conns wfDocs
    (runs.map Prod.fst), Origin r w.databases tenantId doc)
    (upholds_await (by rintro _ ⟨⟩) fun w' c runs hsub _ hresult => ?_) (fun runs w hdocs => ?_)
      fun _ _ => trivial
  · obtain ⟨hruns, hworld⟩ := listing_runs_ok hresult
    refine origin_gathered (fun doc hdoc => (hwfs wfDocs hwfDocs doc hdoc).mono hsub)
      fun run hrun => ?_
    obtain ⟨hmem, howner⟩ := mem_listedRuns (hruns ▸ hrun)
    exact .run (mem_databases_of_listed hworld) hmem howner
  refine .bind_returning (P := fun _ _ => True) (upholds_await ?_ fun _ _ _ _ _ _ => trivial)
    (fun _ w _ => .ret trivial) fun _ _ => trivial
  rintro _ ⟨⟩ p hp
  obtain ⟨doc, hdoc, rfl⟩ := List.mem_map.1 hp
  exact hdocs doc hdoc

/-- Every result is a document of the tenant. -/
def FindsOwn (r : Rendering) (tenantId : String) (response : SearchResponse) (w : IndexWorld d) :
    Prop :=
  ∀ item ∈ response.results, ∃ doc,
    item.toSearchResultItem = doc.toResult ∧ Origin r w.databases tenantId doc

theorem FindsOwn.mono {tenantId : String} {response : SearchResponse}
    (h : FindsOwn r tenantId response w) (hsub : w.databases ⊆ w'.databases) :
    FindsOwn r tenantId response w' := by
  intro item hitem
  obtain ⟨doc, hdoc, horigin⟩ := h item hitem
  exact ⟨doc, hdoc, horigin.mono hsub⟩

/-- What a request comes to: a search finds documents of its tenant. -/
def IndexRequest.Finds (r : Rendering) :
    IndexRequest → Except PyError IndexOutcome → IndexWorld d → Prop
  | .search tenantId _, .ok (.found response), w => FindsOwn r tenantId response w
  | _, _, _ => True

theorem IndexRequest.Finds.mono {request : IndexRequest} {result : Except PyError IndexOutcome}
    (h : request.Finds r result w) (hsub : w.databases ⊆ w'.databases) :
    request.Finds r result w' := by
  unfold IndexRequest.Finds at h ⊢
  split at h
  · exact FindsOwn.mono h hsub
  · trivial

theorem upholds_searchEndpoint (tenantId : String) (params : SearchParams) (w : IndexWorld d) :
    (tracing i r).Upholds (IndexOp.handle i) G n (searchEndpoint r tenantId params)
      (Crew.Contract.Returning (FindsOwn r tenantId)) w := by
  have hsearch : ∀ w : IndexWorld d, (tracing i r).Upholds (IndexOp.handle i) G n
      (await (.search tenantId params.query))
      (Crew.Contract.Returning (FindsOwn r tenantId)) w := by
    refine fun w => upholds_await ?_ fun w' c response _ htraced hresponse => ?_
    · rintro _ ⟨⟩ p hp
      cases hp
    · obtain rfl := Except.ok.inj hresponse
      intro item hitem
      obtain ⟨doc, hdoc, hresult, -⟩ :=
        (HybridState.answers_search i htraced.linked tenantId params.query).current item hitem
      exact ⟨doc, hresult, htraced.origin.memory _ _ _ hdoc⟩
  refine .bind_returning (P := fun _ _ => True) (upholds_await ?_ fun _ _ _ _ _ _ => trivial)
    (fun count w _ => ?_) fun _ _ => trivial
  · rintro _ ⟨⟩ p hp
    cases hp
  · split_ifs
    · exact .bind (upholds_sync tenantId w) (fun _ w _ => hsearch w) fun _ _ _ => trivial
    · exact hsearch w

/-- Every request keeps documents where they belong, and a search finds those of its tenant. -/
theorem upholds_code (request : IndexRequest) (w : IndexWorld d) :
    (tracing i r).Upholds (IndexOp.handle i) G n (request.code r) (request.Finds r) w := by
  cases request with
  | search tenantId params =>
    exact .bind_returning (upholds_searchEndpoint tenantId params w)
      (fun response w hfound => hfound) fun _ _ => trivial
  | reindex tenantId role =>
    refine .bind (R := fun _ _ => True) ?_ (fun _ _ _ => trivial) fun _ _ _ => trivial
    unfold reindexTenantEndpoint
    split_ifs
    · exact upholds_sync tenantId w
    · trivial
  | seed tenantId =>
    exact .bind (upholds_sync tenantId w) (fun _ _ _ => trivial) fun _ _ _ => trivial
  | reset tenantId =>
    refine .bind_returning (P := fun _ _ => True) (upholds_await ?_ fun _ _ _ _ _ _ => trivial)
      (fun _ w _ => trivial) fun _ _ => trivial
    rintro _ ⟨⟩ p hp
    cases hp
  | restart =>
    refine .bind_returning (P := fun _ _ => True) (upholds_await ?_ fun _ _ _ _ _ _ => trivial)
      (fun _ w _ => trivial) fun _ _ => trivial
    rintro _ ⟨⟩ p hp
    cases hp

theorem traced_fresh (i : Interpreter) (r : Rendering) :
    Traced i r (⟨.fresh .empty, []⟩ : IndexWorld d) where
  in_step _ := rfl
  linked := linked_fresh .empty
  origin := by
    refine ⟨fun _ _ _ hdoc => ?_, fun tenantId docId doc hdoc => ?_⟩
    · cases hdoc
    · rw [SearchState.onDisk_of_no_file rfl] at hdoc
      cases hdoc

/-- In every run. -/
theorem traced_run {requests : List IndexRequest} {p : IndexSystem d}
    (hrun : Crew.Runs (IndexOp.handle i) G (serving r requests) p) :
    Traced i r p.state ∧ ∀ n request q, requests[n]? = some request → p.progs[n]? = some q →
      (tracing i r).Upholds (IndexOp.handle i) G n q (request.Finds r) p.state := by
  have hcode : ∀ n q, (serving r requests : IndexSystem d).progs[n]? = some q →
      (tracing i r).Upholds (IndexOp.handle i) G n q
        (fun result w => ∀ request, requests[n]? = some request → request.Finds r result w)
        (serving r requests).state := by
    intro n q hq
    rw [serving, List.getElem?_map, Option.map_eq_some_iff] at hq
    obtain ⟨request, hrequest, rfl⟩ := hq
    refine (upholds_code request _).mono fun result w hfinds request' hrequest' => ?_
    obtain rfl := Option.some.inj (hrequest.symm.trans hrequest')
    exact hfinds
  obtain ⟨htraced, hprogs⟩ := Crew.Contract.run (fun n result w w' hrely hfinds request hrequest =>
    (hfinds request hrequest).mono (databases_subset_of_rely hrely)) (traced_fresh i r) hcode hrun
  refine ⟨htraced, fun n request q hrequest hq => (hprogs n q hq).mono fun result w hfinds => ?_⟩
  exact hfinds request hrequest

/-- **A search finds nothing of other tenants.** Whatever searches, reindexings, seedings, resets
and restarts interleave, whatever the database is at each call and whatever fails, every result of
a search is the document of a row of the tenant's own that a request has listed, or one of those
that are not of rows. -/
theorem search_isolated {requests : List IndexRequest} {p : IndexSystem d}
    (hrun : Crew.Runs (IndexOp.handle i) (fun _ _ _ _ => True) (serving r requests) p)
    {n : ℕ} {tenantId : String} {params : SearchParams} {response : SearchResponse}
    (hrequest : requests[n]? = some (.search tenantId params))
    (hfound : p.progs[n]? = some (.pure (.found response))) :
    FindsOwn r tenantId response p.state :=
  (traced_run hrun).2 n _ _ hrequest hfound

end Isolation

/-! ## Indexing that goes through -/

section Indexed

variable {i : Interpreter} {tenantId : String} {n : ℕ} {c : Surroundings d} {w : IndexWorld d}
  {added : List SearchDocument}

/-- Indexing, as the engine without the semantic tower does it. -/
theorem indexDocuments_lexical :
    w.engine.lexical.indexDocuments true tenantId added true c.faults =
      (((IndexOp.indexDocuments tenantId added).handle i n c w).1,
        ((IndexOp.indexDocuments tenantId added).handle i n c w).2.engine.lexical) := by
  simp only [IndexOp.handle, HybridState.indexDocuments, HybridState.finish,
    SearchState.indexDocuments, HybridState.lexical_foldl]

/-- A call of the engine lists no rows. -/
theorem databases_turn {p : IndexSystem d} {o : IndexOp}
    {k : Except PyError o.Res → IndexM IndexOutcome} {call : SearchCall}
    (hcall : p.progs[n]? = some (.call o k)) (ho : o.call? = some call) :
    (Crew.turn (IndexOp.handle i) p n c).state.databases = p.state.databases := by
  have hkept : (o.handle i n c p.state).2.databases = p.state.databases := by
    rw [handle_of_call ho]
    rfl
  rw [Crew.turn_call hcall]
  exact hkept

/-- A request that indexes documents, for a tenant that has none, goes on with these. -/
theorem turn_indexDocuments {p : IndexSystem d}
    {k : Except PyError Unit → IndexM IndexOutcome}
    (hcall : p.progs[n]? = some (.call (.indexDocuments tenantId added) k))
    (hempty : p.state.engine.lexical.Settled tenantId .empty)
    (hlinked : p.state.engine.lexical.Linked) (hopening : c.faults.opening = none)
    (hwriting : c.faults.writing = none) (hall : ∀ doc ∈ added, doc.toData.Serialisable) :
    (Crew.turn (IndexOp.handle i) p n c).progs[n]? = some (k (.ok ())) ∧
      (Crew.turn (IndexOp.handle i) p n c).state.engine.lexical.documents tenantId =
        collect added := by
  obtain ⟨hok, hdocuments⟩ := hempty.indexDocuments_ok hlinked hopening hwriting hall
  rw [indexDocuments_lexical (i := i) (n := n)] at hok hdocuments
  obtain ⟨hn, -⟩ := List.getElem?_eq_some_iff.1 hcall
  rw [Crew.turn_call hcall, List.getElem?_set_self hn]
  exact ⟨congrArg (fun result => some (k result)) hok, hdocuments⟩

end Indexed

/-- The interpreter plays no part where nothing is ranked. -/
def asciiInterpreter : Interpreter where
  encoder := ⟨fun _ => 0, fun _ => 1, id⟩
  recency _ := 0
  tables := ⟨fun c => c.isAlphanum, fun c c' => c == c', id⟩

theorem isDateTime_newYear : isDateTime 2025 1 1 0 0 0 0 none = true := by decide

/-- All is written in lower case, in the first second of the year. -/
def asciiRendering : Rendering where
  upper := id
  lower := id
  instant _ := ⟨2025, 1, 1, 0, 0, 0, 0, none, isDateTime_newYear⟩

/-- A connection. -/
def connectionOf (id tenantId : String) : Tables.ConnectionRecord :=
  ⟨id, tenantId, "postgres", "Orders", .obj [], none, "healthy", 0⟩

/-- A connection of the tenant `acme`, and one of `beta`. -/
def twoConnections : Db .sqlite where
  rows := [⟨.connections, connectionOf "conn_a" "acme"⟩,
    ⟨.connections, connectionOf "conn_b" "beta"⟩]
  unique := by decide

/-- The documents of the tenant `acme`. -/
def documentsOfAcme : List SearchDocument :=
  gathered asciiRendering "acme" [connectionOf "conn_a" "acme"] [] []

theorem serialisable_documentsOfAcme : ∀ doc ∈ documentsOfAcme, doc.toData.Serialisable := by
  have hdumped : ∀ doc ∈ documentsOfAcme, (dump doc.toData).error = none := by decide +kernel
  exact hdumped

theorem accepted_blank : "".length ≤ 256 ∧ (1 : ℤ) ≤ 15 ∧ (15 : ℤ) ≤ 50 := by decide

/-- A blank search. -/
def blankSearch : SearchParams := { accepted := accepted_blank }

/-- The tenant `acme` searches. -/
def searching : IndexSystem .sqlite := serving asciiRendering [.search "acme" blankSearch]

/-- It has listed the rows, and is about to index their documents. -/
def listed : IndexSystem .sqlite := Crew.play (IndexOp.handle asciiInterpreter) searching
  (List.replicate 5 (0, { db := twoConnections }))

/-- A blank query finds all documents of the tenant `acme`. -/
theorem found_documentsOfAcme : (collect documentsOfAcme).values.countP
    (fun doc => wanted blankSearch.query.types doc) = 11 := by
  decide +kernel

/-- The tenant `acme` searches a database with connections of its own and of the tenant `beta`, and
finds its own and what every tenant finds. -/
theorem search_isolated_blank : ∃ p : IndexSystem .sqlite, ∃ response,
    p.progs[0]? = some (.pure (.found response)) ∧ response.results.length = 11 ∧
      p.state.databases = List.replicate 3 twoConnections ∧
        FindsOwn asciiRendering "acme" response p.state := by
  obtain ⟨k, hcall, k', hk, hk'⟩ : ∃ k, listed.progs[0]? =
      some (.call (.indexDocuments "acme" documentsOfAcme) k) ∧
        ∃ k', k (.ok ()) = .call (.search "acme" blankSearch.query) k' ∧
          ∀ response, k' (.ok response) = .pure (.found response) :=
    ⟨_, rfl, _, rfl, fun _ => rfl⟩
  have hlisted : Crew.Runs (IndexOp.handle asciiInterpreter) (fun _ _ _ _ => True) searching
      listed := Crew.runs_play_true _ searching _
  have hcleared : listed.state.engine = (((HybridState.fresh .empty).getDocumentCount
      asciiInterpreter.encoder "acme" {}).2).clearTenant "acme" {} := rfl
  have hempty : listed.state.engine.lexical.Settled "acme" .empty := by
    have hremoving : ({} : Faults).removing = false := rfl
    rw [hcleared]
    exact SearchState.settled_clearTenant _ "acme" hremoving
  set c : Surroundings .sqlite := { db := twoConnections }
  obtain ⟨hnext, hdocuments⟩ := turn_indexDocuments (i := asciiInterpreter) (c := c) hcall hempty
    (traced_run hlisted).1.linked rfl rfl serialisable_documentsOfAcme
  set indexed := Crew.turn (IndexOp.handle asciiInterpreter) listed 0 c
  rw [hk] at hnext
  have hrun : Crew.Runs (IndexOp.handle asciiInterpreter) (fun _ _ _ _ => True) searching indexed :=
    hlisted.trans (Crew.runs_play_true _ listed [(0, c)])
  have hanswers := HybridState.answers_search asciiInterpreter (traced_run hrun).1.linked "acme"
    blankSearch.query
  rw [hdocuments] at hanswers
  obtain ⟨hhits, -⟩ := hanswers.blank rfl
  have hlength := hanswers.length
  rw [hhits, found_documentsOfAcme] at hlength
  have hfound : (Crew.turn (IndexOp.handle asciiInterpreter) indexed 0 c).progs[0]? = some
      (.pure (.found (indexed.state.engine.search asciiInterpreter "acme" blankSearch.query))) := by
    rw [Crew.turn_call hnext, List.getElem?_set_self (List.getElem?_eq_some_iff.1 hnext).1]
    exact congrArg some (hk' _)
  have hdatabases : (Crew.turn (IndexOp.handle asciiInterpreter) indexed 0 c).state.databases =
      List.replicate 3 twoConnections :=
    (databases_turn hnext rfl).trans ((databases_turn hcall rfl).trans rfl)
  exact ⟨_, _, hfound, hlength, hdatabases, search_isolated (n := 0)
    (hrun.trans (Crew.runs_play_true _ indexed [(0, c)])) rfl hfound⟩

/-! ## Reindexing -/

section Reindexing

variable (r : Rendering) (tenantId : String) (n : ℕ)

/-- The documents of the rows in three databases. -/
def documentsOf (s₁ s₂ s₃ : Db d) : Except PyError (List SearchDocument) :=
  ((listedRows tenantId s₂ .workflows).mapM (workflowDocument r tenantId)).map fun wfDocs =>
    gathered r tenantId (listedRows tenantId s₁ .connections) wfDocs (listedRuns tenantId s₃)

/-- No other request clears the index of the tenant or adds to it, and files can be removed. -/
def Undisturbed (j : ℕ) (c : Surroundings d) (o : IndexOp) (_ : IndexWorld d) : Prop :=
  if j = n then c.faults.removing = false
  else ∀ call, o.call? = some call → call.Leaves tenantId

instance Undisturbed.decidable {j : ℕ} {c : Surroundings d} {o : IndexOp} {w : IndexWorld d} :
    Decidable (Undisturbed tenantId n j c o w) :=
  inferInstanceAs (Decidable (if j = n then _ else ∀ call ∈ o.call?, call.Leaves tenantId))

/-- The request has listed the rows of three more databases, and the tenant has just the documents
of these rows. -/
def Reindexed (before : List (Db d)) (count : ℕ) (w : IndexWorld d) : Prop :=
  ∃ s₁ s₂ s₃ docs, w.listedBy n = before ++ [s₁, s₂, s₃] ∧
    documentsOf r tenantId s₁ s₂ s₃ = .ok docs ∧ count = docs.length ∧
      w.engine.lexical.Settled tenantId (collect docs)

/-- What the others do while the request is at work. -/
def settling (i : Interpreter) : Crew.Contract (IndexWorld d) where
  inv w := w.engine.InStep i.encoder ∧ w.engine.lexical.Linked
  moves j w w' := j ≠ n → w'.listedBy n = w.listedBy n ∧ ∀ docs,
    w.engine.lexical.Settled tenantId docs → w'.engine.lexical.Settled tenantId docs

variable {r tenantId n} {i : Interpreter} {w w' : IndexWorld d} {c : Surroundings d}

theorem listedBy_listing (s : Db d) (j : ℕ) :
    ({ w with listed := w.listed ++ [(j, s)] } : IndexWorld d).listedBy n =
      w.listedBy n ++ if j = n then [s] else [] := by
  unfold IndexWorld.listedBy
  by_cases hj : j = n <;> simp [hj]

theorem settled_of_rely (h : (settling tenantId n i).Rely n w w') :
    w'.listedBy n = w.listedBy n ∧ ∀ docs, w.engine.lexical.Settled tenantId docs →
      w'.engine.lexical.Settled tenantId docs := by
  refine h.keeps (F := fun v => v.listedBy n = w.listedBy n ∧ ∀ docs,
    w.engine.lexical.Settled tenantId docs → v.engine.lexical.Settled tenantId docs) ?_
    ⟨rfl, fun _ h => h⟩
  intro j v v' hj _ hmove hv
  obtain ⟨hlisted, hsettled⟩ := hmove hj
  exact ⟨hlisted.trans hv.1, fun docs hdocs => hsettled docs (hv.2 docs hdocs)⟩

/-- A call keeps the towers in step. -/
theorem inv_handle (h : (settling tenantId n i).inv w) (j : ℕ) (c : Surroundings d) (o : IndexOp) :
    (settling tenantId n i).inv (o.handle i j c w).2 := by
  obtain ⟨hstep, hlinked⟩ := h
  cases ho : o.call? with
  | none =>
    rcases handle_of_listing (i := i) (n := j) (c := c) (w := w) ho with hsame | hlisted
    · rw [hsame]
      exact ⟨hstep, hlinked⟩
    · rw [hlisted]
      exact ⟨hstep, hlinked⟩
  | some call =>
    obtain ⟨hstep', hlexical, -⟩ := hstep.step hlinked (call, c.faults)
    rw [handle_of_call ho]
    exact ⟨hstep', hlexical ▸ hlinked.step _ _⟩

/-- What another request does leaves the tenant settled. -/
theorem moves_handle (h : (settling tenantId n i).inv w) {j : ℕ} (hj : j ≠ n) {o : IndexOp}
    (ho : Undisturbed tenantId n j c o w) :
    (settling tenantId n i).moves j w (o.handle i j c w).2 := by
  intro _
  rw [Undisturbed, if_neg hj] at ho
  cases hcall : o.call? with
  | none =>
    rcases handle_of_listing (i := i) (n := j) (c := c) (w := w) hcall with hsame | hlisted
    · rw [hsame]
      exact ⟨rfl, fun _ h => h⟩
    · rw [hlisted, listedBy_listing, if_neg hj, List.append_nil]
      exact ⟨rfl, fun _ h => h⟩
  | some call =>
    obtain ⟨-, hlexical, -⟩ := h.1.step h.2 (call, c.faults)
    rw [handle_of_call hcall]
    refine ⟨rfl, fun docs hdocs => ?_⟩
    rw [hlexical]
    exact hdocs.step _ (ho call hcall)

/-- One call of the request. -/
theorem settling_await {o : IndexOp} {P : o.Res → IndexWorld d → Prop}
    (hP : ∀ w' c a, w'.listedBy n = w.listedBy n → (∀ docs,
      w.engine.lexical.Settled tenantId docs → w'.engine.lexical.Settled tenantId docs) →
        w'.engine.lexical.Linked → c.faults.removing = false →
          (o.handle i n c w').1 = .ok a → P a (o.handle i n c w').2) :
    (settling tenantId n i).Upholds (IndexOp.handle i) (Undisturbed tenantId n) n (await o)
      (Crew.Contract.Returning P) w := by
  refine .perform fun w' hrely hinv c hguard => ⟨inv_handle hinv n c o, fun h => absurd rfl h, ?_⟩
  obtain ⟨hlisted, hsettled⟩ := settled_of_rely hrely
  rw [Undisturbed, if_pos rfl] at hguard
  cases hresult : (o.handle i n c w').1 with
  | error e => trivial
  | ok a => exact hP w' c a hlisted hsettled hinv.2 hguard hresult

/-- Indexing for a tenant without documents. -/
theorem settled_handle {added : List SearchDocument}
    (hempty : w.engine.lexical.Settled tenantId .empty) (hlinked : w.engine.lexical.Linked)
    (hdone : ((IndexOp.indexDocuments tenantId added).handle i n c w).1 = .ok ()) :
    ((IndexOp.indexDocuments tenantId added).handle i n c w).2.engine.lexical.Settled tenantId
      (collect added) := by
  have hsame := @indexDocuments_lexical d i tenantId n c w added
  have hsettled := hempty.indexDocuments hlinked ((congrArg Prod.fst hsame).trans hdone)
  rwa [hsame] at hsettled

/-- What a listing of the request changes. -/
theorem settled_listing {v : IndexWorld d} {docs : Dict String SearchDocument}
    (h : v = { w with listed := w.listed ++ [(n, c.db)] })
    (hsettled : w.engine.lexical.Settled tenantId docs) :
    v.engine.lexical.Settled tenantId docs ∧ v.listedBy n = w.listedBy n ++ [c.db] := by
  subst h
  rw [listedBy_listing, if_pos rfl]
  exact ⟨hsettled, rfl⟩

/-- The request leaves just the documents of the rows that it has listed. -/
theorem upholds_syncing (w : IndexWorld d) :
    (settling tenantId n i).Upholds (IndexOp.handle i) (Undisturbed tenantId n) n
      (syncTenantSearchIndex r tenantId)
      (Crew.Contract.Returning (Reindexed r tenantId n (w.listedBy n))) w := by
  generalize hbefore : w.listedBy n = before
  unfold syncTenantSearchIndex
  refine .bind_returning (P := fun _ w => w.engine.lexical.Settled tenantId .empty ∧
    w.listedBy n = before)
    (settling_await fun w' c _ hlisted _ _ hremoving _ =>
      ⟨SearchState.settled_clearTenant _ tenantId hremoving, hlisted.trans hbefore⟩)
    (fun _ w hw => ?_) fun _ _ => trivial
  refine .bind_returning (P := fun _ w' => w' = w) ?_ ?_ fun _ _ => trivial
  · unfold tenantScopedRepository
    split_ifs
    · trivial
    · exact rfl
  rintro _ _ rfl
  obtain ⟨hempty, hw⟩ := hw
  -- the connections
  refine .bind_returning (P := fun conns w => ∃ s₁, conns = listedRows tenantId s₁ .connections ∧
    w.engine.lexical.Settled tenantId .empty ∧ w.listedBy n = before ++ [s₁])
    (settling_await fun w' c conns hlisted hsettled _ _ hresult => ?_) ?_ fun _ _ => trivial
  · obtain ⟨hconns, hworld⟩ := listing_rows_ok hresult
    obtain ⟨hempty', hlisted'⟩ := settled_listing hworld (hsettled _ hempty)
    exact ⟨c.db, hconns, hempty', hlisted'.trans (by rw [hlisted, hw])⟩
  rintro conns w ⟨s₁, rfl, hempty, hw⟩
  -- the workflows
  refine .bind_returning (P := fun wfs w => ∃ s₂, wfs = listedRows tenantId s₂ .workflows ∧
    w.engine.lexical.Settled tenantId .empty ∧ w.listedBy n = before ++ [s₁, s₂])
    (settling_await fun w' c wfs hlisted hsettled _ _ hresult => ?_) ?_ fun _ _ => trivial
  · obtain ⟨hwfs, hworld⟩ := listing_rows_ok hresult
    obtain ⟨hempty', hlisted'⟩ := settled_listing hworld (hsettled _ hempty)
    exact ⟨c.db, hwfs, hempty', hlisted'.trans (by rw [hlisted, hw, List.append_assoc]; rfl)⟩
  rintro wfs w ⟨s₂, rfl, hempty, hw⟩
  refine .bind_returning (upholds_raising _ w) ?_ fun _ _ => trivial
  rintro wfDocs _ ⟨hwfDocs, rfl⟩
  -- the runs
  refine .bind_returning (P := fun runs w => ∃ s₃, runs.map Prod.fst = listedRuns tenantId s₃ ∧
    w.engine.lexical.Settled tenantId .empty ∧ w.listedBy n = before ++ [s₁, s₂, s₃])
    (settling_await fun w' c runs hlisted hsettled _ _ hresult => ?_) ?_ fun _ _ => trivial
  · obtain ⟨hruns, hworld⟩ := listing_runs_ok hresult
    obtain ⟨hempty', hlisted'⟩ := settled_listing hworld (hsettled _ hempty)
    exact ⟨c.db, hruns, hempty', hlisted'.trans (by rw [hlisted, hw, List.append_assoc]; rfl)⟩
  rintro runs w ⟨s₃, hruns, hempty, hw⟩
  rw [hruns]
  have hdocs : documentsOf r tenantId s₁ s₂ s₃ = .ok (gathered r tenantId
      (listedRows tenantId s₁ .connections) wfDocs (listedRuns tenantId s₃)) := by
    rw [documentsOf, hwfDocs]
    rfl
  generalize gathered r tenantId (listedRows tenantId s₁ .connections) wfDocs
    (listedRuns tenantId s₃) = docs at hdocs ⊢
  exact .bind_returning (settling_await fun w' c _ hlisted hsettled hlinked _ hresult =>
    ⟨s₁, s₂, s₃, docs, hlisted.trans hw, hdocs, rfl,
      settled_handle (hsettled _ hempty) hlinked hresult⟩) (fun _ w h => h) fun _ _ => trivial

/-- A request that comes down to reading the rows of the tenant anew. -/
def IndexRequest.Syncs (tenantId : String) : IndexRequest → Prop
  | .reindex tenantId' _ | .seed tenantId' => tenantId' = tenantId
  | .search _ _ | .reset _ | .restart => False

/-- What such a request comes to. -/
def Reindexes (r : Rendering) (tenantId : String) (n : ℕ) (before : List (Db d)) :
    Except PyError IndexOutcome → IndexWorld d → Prop
  | .ok (.indexed count), w => Reindexed r tenantId n before count w
  | _, _ => True

theorem Reindexes.of_rely {before : List (Db d)} {result : Except PyError IndexOutcome}
    (h : Reindexes r tenantId n before result w) (hrely : (settling tenantId n i).Rely n w w') :
    Reindexes r tenantId n before result w' := by
  unfold Reindexes at h ⊢
  split at h
  · obtain ⟨s₁, s₂, s₃, docs, hlisted, hdocs, hcount, hsettled⟩ := h
    obtain ⟨hlisted', hsettled'⟩ := settled_of_rely hrely
    exact ⟨s₁, s₂, s₃, docs, hlisted'.trans hlisted, hdocs, hcount, hsettled' _ hsettled⟩
  · trivial

theorem upholds_reindexing {request : IndexRequest} (h : request.Syncs tenantId)
    (w : IndexWorld d) :
    (settling tenantId n i).Upholds (IndexOp.handle i) (Undisturbed tenantId n) n
      (request.code r) (Reindexes r tenantId n (w.listedBy n)) w := by
  have hsync : (settling tenantId n i).Upholds (IndexOp.handle i) (Undisturbed tenantId n) n
      (do return .indexed (← syncTenantSearchIndex r tenantId))
      (Reindexes r tenantId n (w.listedBy n)) w :=
    .bind_returning (upholds_syncing w) (fun count w' hcount => hcount) fun _ _ => trivial
  cases request with
  | reindex tenantId' role =>
    obtain rfl : tenantId' = tenantId := h
    rw [IndexRequest.code, reindexTenantEndpoint]
    split_ifs
    · exact hsync
    · trivial
  | seed tenantId' =>
    obtain rfl : tenantId' = tenantId := h
    exact hsync
  | search | reset | restart => cases h

/-- **A reindexing is exact.** Whatever has happened before, and whatever other requests do
meanwhile and afterwards but clear the index of the tenant or add to it: once a reindexing has
answered, the tenant has the documents of the rows that this request has listed and no others, in
its file and in memory. -/
theorem reindex_exact {requests : List IndexRequest} {p p' : IndexSystem d}
    (hbefore : Crew.Runs (IndexOp.handle i) (fun _ _ _ _ => True) (serving r requests) p)
    {request : IndexRequest} (hsyncs : request.Syncs tenantId)
    (hstart : p.progs[n]? = some (request.code r))
    (hrun : Crew.Runs (IndexOp.handle i) (Undisturbed tenantId n) p p') {count : ℕ}
    (hdone : p'.progs[n]? = some (.pure (.indexed count))) :
    Reindexed r tenantId n (p.state.listedBy n) count p'.state := by
  obtain ⟨htraced, -⟩ := traced_run hbefore
  have hinv : (settling tenantId n i).inv p.state := ⟨htraced.in_step, htraced.linked⟩
  have hcode := upholds_reindexing (i := i) (r := r) (n := n) hsyncs p.state
  obtain ⟨-, hend⟩ := Crew.Contract.run_among (fun result w w' hrely h => h.of_rely hrely)
    (fun j c o w hj hinv ho => ⟨inv_handle hinv j c o, moves_handle hinv hj ho⟩) hinv hstart
      hcode hrun
  exact hend _ hdone

end Reindexing

/-- One more connection of the tenant `acme`. -/
def threeConnections : Db .sqlite where
  rows := [⟨.connections, connectionOf "conn_a" "acme"⟩,
    ⟨.connections, connectionOf "conn_b" "beta"⟩, ⟨.connections, connectionOf "conn_c" "acme"⟩]
  unique := by decide

/-- The tenant `acme` is reindexed twice, and `beta` once. -/
def reindexing : IndexSystem .sqlite := serving asciiRendering
  [.reindex "acme" "owner", .reindex "acme" "owner", .reindex "beta" "owner"]

/-- The first request has come to its end. -/
def onceIndexed : IndexSystem .sqlite := Crew.play (IndexOp.handle asciiInterpreter) reindexing
  (List.replicate 5 (0, { db := threeConnections }))

/-- The calls of the second request up to the indexing, and one of the tenant `beta` in between. -/
def secondCalls : List (ℕ × Surroundings .sqlite) :=
  [1, 2, 1, 1, 1].map fun n => (n, { db := twoConnections })

/-- The second request is about to index the documents. -/
def relisted : IndexSystem .sqlite :=
  Crew.play (IndexOp.handle asciiInterpreter) onceIndexed secondCalls

/-- The tenant `acme` is reindexed again, with one connection less, while the index of `beta` is
cleared. -/
theorem reindex_exact_again : ∃ p : IndexSystem .sqlite,
    Reindexed asciiRendering "acme" 1 [] 11 p.state := by
  obtain ⟨k, hcall, hk⟩ : ∃ k, relisted.progs[1]? =
      some (.call (.indexDocuments "acme" documentsOfAcme) k) ∧
        k (.ok ()) = .pure (.indexed 11) := ⟨_, rfl, rfl⟩
  have hbefore : Crew.Runs (IndexOp.handle asciiInterpreter) (fun _ _ _ _ => True) reindexing
      onceIndexed := Crew.runs_play_true _ reindexing _
  have hcleared : relisted.state.engine =
      (onceIndexed.state.engine.clearTenant "acme" {}).clearTenant "beta" {} := rfl
  have hempty : relisted.state.engine.lexical.Settled "acme" .empty := by
    have hremoving : ({} : Faults).removing = false := rfl
    have hother : "acme" ≠ "beta" := by decide
    rw [hcleared]
    exact (SearchState.settled_clearTenant _ "acme" hremoving).congr (.clear hother {})
  set c : Surroundings .sqlite := { db := twoConnections }
  obtain ⟨hdone, -⟩ := turn_indexDocuments (i := asciiInterpreter) (c := c) hcall hempty
    (traced_run (hbefore.trans (Crew.runs_play_true _ onceIndexed secondCalls))).1.linked rfl rfl
    serialisable_documentsOfAcme
  rw [hk] at hdone
  have hrelisted : Crew.Runs (IndexOp.handle asciiInterpreter) (Undisturbed "acme" 1) onceIndexed
      relisted := Crew.runs_play _ (by decide +kernel)
  have hlast : Crew.Step (IndexOp.handle asciiInterpreter) (Undisturbed "acme" 1) relisted
      (Crew.turn (IndexOp.handle asciiInterpreter) relisted 1 c) := by
    rw [Crew.turn_call hcall]
    exact .call hcall rfl
  have hstart : onceIndexed.progs[1]? = some ((IndexRequest.reindex "acme" "owner").code
      asciiRendering) := Crew.getElem?_play_of_not_mem (by decide)
  have hsyncs : IndexRequest.Syncs "acme" (.reindex "acme" "owner") := rfl
  exact ⟨_, reindex_exact hbefore hsyncs hstart (hrelisted.tail hlast) hdone⟩

end FlowMesh.Indexing
