import FlowMesh.Library.Transaction
import FlowMesh.Python.Value

/-!
# The mapped tables

The tables of `app/models` that carry a `tenant_id`, each row with all its columns, and what the
models say about them: primary keys, which are global across tenants, unique columns and foreign
keys. A `Record` is a row of one of the tables, and a database is a `Store` of records.

The databases that the control plane runs on differ in a `Dialect`: SQLite does not check foreign
keys unless told to, and takes a negative `LIMIT` for none. What a database refuses by the value
of a column alone (its length, say) is part of the dialect too.

Times are instants; a text column with few values keeps them as texts.
-/

namespace FlowMesh.Tables

open Python Database

/-! ## Rows -/

/-- `ConnectionRecord`. -/
structure ConnectionRecord where
  id : String
  tenantId : String
  type : String
  name : String
  configJson : Json
  agentId : Option String
  status : String
  createdAt : ℤ

/-- `ConnectionSecret`. -/
structure ConnectionSecret where
  id : String
  connectionId : String
  tenantId : String
  ciphertext : String
  wrappedDek : String
  dekId : String
  version : ℤ
  createdAt : ℤ
  rotatedAt : Option ℤ
  deriving DecidableEq

/-- `AuditEvent`. -/
structure AuditEvent where
  id : String
  tenantId : String
  actor : String
  action : String
  resource : String
  result : String
  timestamp : ℤ
  metadataJson : Json

/-- `WorkflowRecord`. -/
structure WorkflowRecord where
  id : String
  tenantId : String
  name : String
  description : String
  status : String
  version : ℤ
  triggerType : String
  definitionJson : Json
  createdAt : ℤ
  updatedAt : ℤ

/-- `WorkflowVersionRecord`. -/
structure WorkflowVersionRecord where
  id : String
  tenantId : String
  workflowId : String
  version : ℤ
  definitionJson : Json
  changelog : String
  deployedBy : String
  deployedAt : ℤ
  isActive : Bool

/-- `RunRecord`. -/
structure RunRecord where
  id : String
  tenantId : String
  workflowId : String
  workflowVersion : ℤ
  status : String
  durationSeconds : PyFloat
  triggerSource : String
  traceId : String
  idempotencyKey : Option String
  inputPayload : Json
  outputPayload : Option Json
  error : Option String
  startedAt : ℤ
  finishedAt : Option ℤ

/-- `RunStepRecord`. -/
structure RunStepRecord where
  id : String
  runId : String
  tenantId : String
  nodeId : String
  name : String
  nodeType : String
  status : String
  attempt : ℤ
  durationMs : PyFloat
  startedAt : ℤ
  finishedAt : Option ℤ
  inputSnapshot : Json
  outputSnapshot : Option Json
  error : Option String

/-- `DeadLetterRecord`. -/
structure DeadLetterRecord where
  id : String
  tenantId : String
  runId : String
  nodeId : String
  eventId : Option String
  eventType : String
  workflowId : String
  reason : String
  errorCategory : String
  attempts : ℤ
  payloadSnapshot : Json
  status : String
  createdAt : ℤ
  replayedAt : Option ℤ

/-- An entry of an incident's timeline. -/
structure TimelineEntry where
  timestamp : String
  message : String

/-- `IncidentRecord`. -/
structure IncidentRecord where
  id : String
  tenantId : String
  title : String
  severity : String
  status : String
  connectionId : Option String
  affectedWorkflows : List String
  rootCause : String
  timeline : List TimelineEntry
  openedAt : ℤ
  resolvedAt : Option ℤ

/-- `AgentRecord`. -/
structure AgentRecord where
  id : String
  tenantId : String
  name : String
  version : String
  status : String
  publicKey : Option String
  cpuPercent : PyFloat
  memoryPercent : PyFloat
  queueDepth : ℤ
  policyStatus : String
  connectors : List Json
  lastHeartbeatAt : Option ℤ
  registeredAt : ℤ
  enrollmentToken : Option String

/-- `AgentCommandRecord`. -/
structure AgentCommandRecord where
  id : String
  tenantId : String
  agentId : String
  type : String
  connector : String
  connectionId : String
  operation : String
  resource : Option String
  limit : Option ℤ
  payload : Json
  signature : Option String
  status : String
  result : Option Json
  error : Option String
  createdAt : ℤ
  dispatchedAt : Option ℤ
  completedAt : Option ℤ

/-- `SchemaSnapshot`. -/
structure SchemaSnapshot where
  id : String
  connectionId : String
  tenantId : String
  schemaJson : Json
  isBaseline : Bool
  version : ℤ
  createdAt : ℤ

/-! ## Tables -/

/-- The tables. -/
inductive Table
  | connections
  | connectionSecrets
  | auditEvents
  | workflows
  | workflowVersions
  | runs
  | runSteps
  | deadLetters
  | incidents
  | agents
  | agentCommands
  | schemaSnapshots
  deriving DecidableEq

/-- The rows of a table. -/
@[reducible] def Row : Table → Type
  | .connections => ConnectionRecord
  | .connectionSecrets => ConnectionSecret
  | .auditEvents => AuditEvent
  | .workflows => WorkflowRecord
  | .workflowVersions => WorkflowVersionRecord
  | .runs => RunRecord
  | .runSteps => RunStepRecord
  | .deadLetters => DeadLetterRecord
  | .incidents => IncidentRecord
  | .agents => AgentRecord
  | .agentCommands => AgentCommandRecord
  | .schemaSnapshots => SchemaSnapshot

/-- The columns under a unique constraint besides the primary key, with their values. -/
inductive Unique
  | enrollmentToken (token : String)
  | secretVersion (connectionId : String) (version : ℤ)
  | workflowVersion (tenantId workflowId : String) (version : ℤ)
  deriving DecidableEq

namespace Row

/-- `id`. -/
def entityId : {t : Table} → Row t → String
  | .connections, r => r.id
  | .connectionSecrets, r => r.id
  | .auditEvents, r => r.id
  | .workflows, r => r.id
  | .workflowVersions, r => r.id
  | .runs, r => r.id
  | .runSteps, r => r.id
  | .deadLetters, r => r.id
  | .incidents, r => r.id
  | .agents, r => r.id
  | .agentCommands, r => r.id
  | .schemaSnapshots, r => r.id

/-- `tenant_id`. -/
def owner : {t : Table} → Row t → String
  | .connections, r => r.tenantId
  | .connectionSecrets, r => r.tenantId
  | .auditEvents, r => r.tenantId
  | .workflows, r => r.tenantId
  | .workflowVersions, r => r.tenantId
  | .runs, r => r.tenantId
  | .runSteps, r => r.tenantId
  | .deadLetters, r => r.tenantId
  | .incidents, r => r.tenantId
  | .agents, r => r.tenantId
  | .agentCommands, r => r.tenantId
  | .schemaSnapshots, r => r.tenantId

/-- `setattr(entity, "tenant_id", tenant_id)`. -/
def setTenantId (tenant : String) : {t : Table} → Row t → Row t
  | .connections, r => { r with tenantId := tenant }
  | .connectionSecrets, r => { r with tenantId := tenant }
  | .auditEvents, r => { r with tenantId := tenant }
  | .workflows, r => { r with tenantId := tenant }
  | .workflowVersions, r => { r with tenantId := tenant }
  | .runs, r => { r with tenantId := tenant }
  | .runSteps, r => { r with tenantId := tenant }
  | .deadLetters, r => { r with tenantId := tenant }
  | .incidents, r => { r with tenantId := tenant }
  | .agents, r => { r with tenantId := tenant }
  | .agentCommands, r => { r with tenantId := tenant }
  | .schemaSnapshots, r => { r with tenantId := tenant }

/-- `created_at`, or else `timestamp`; some tables have neither. -/
def createdAt? : {t : Table} → Row t → Option ℤ
  | .connections, r => some r.createdAt
  | .connectionSecrets, r => some r.createdAt
  | .auditEvents, r => some r.timestamp
  | .workflows, r => some r.createdAt
  | .deadLetters, r => some r.createdAt
  | .agentCommands, r => some r.createdAt
  | .schemaSnapshots, r => some r.createdAt
  | .workflowVersions, _ => none
  | .runs, _ => none
  | .runSteps, _ => none
  | .incidents, _ => none
  | .agents, _ => none

/-- The values of a row under a unique constraint; `null` is not one. -/
def keys : {t : Table} → Row t → List Unique
  | .agents, r => r.enrollmentToken.toList.map .enrollmentToken
  | .connectionSecrets, r => [.secretVersion r.connectionId r.version]
  | .workflowVersions, r => [.workflowVersion r.tenantId r.workflowId r.version]
  | _, _ => []

/-- The rows that the foreign keys of a row name, the tenant apart. -/
def refs : {t : Table} → Row t → List (Table × String)
  | .connectionSecrets, r => [(.connections, r.connectionId)]
  | .workflowVersions, r => [(.workflows, r.workflowId)]
  | .runs, r => [(.workflows, r.workflowId)]
  | .runSteps, r => [(.runs, r.runId)]
  | .deadLetters, r => [(.runs, r.runId)]
  | .agentCommands, r => [(.agents, r.agentId)]
  | .schemaSnapshots, r => [(.connections, r.connectionId)]
  | _, _ => []

@[simp] theorem owner_setTenantId (tenant : String) {t : Table} (r : Row t) :
    (r.setTenantId tenant).owner = tenant := by
  cases t <;> rfl

end Row

/-- A row of one of the tables. -/
abbrev Record := Σ t, Row t

namespace Record

/-- The row, if it is one of the table. -/
def as? (t : Table) (r : Record) : Option (Row t) :=
  if h : r.1 = t then some (h ▸ r.2) else none

theorem as?_eq_some {t : Table} {r : Record} {x : Row t} : r.as? t = some x ↔ r = ⟨t, x⟩ := by
  obtain ⟨t', y⟩ := r
  unfold as?
  by_cases h : t' = t
  · subst h
    simp
  · simp only [h, ↓reduceDIte, false_iff, reduceCtorEq]
    rintro ⟨⟩
    exact h rfl

@[simp] theorem as?_mk (t : Table) (x : Row t) : as? t ⟨t, x⟩ = some x := as?_eq_some.2 rfl

/-- The record is a row of the table for which `p` holds. -/
def is (t : Table) (p : Row t → Bool) (r : Record) : Bool := (r.as? t).any p

theorem is_iff {t : Table} {p : Row t → Bool} {r : Record} :
    r.is t p = true ↔ ∃ x, r = ⟨t, x⟩ ∧ p x = true := by
  unfold is
  rw [Option.any_eq_true]
  simp only [as?_eq_some]

@[simp] theorem is_mk {t : Table} {p : Row t → Bool} {x : Row t} : is t p ⟨t, x⟩ = p x := by
  simp [is]

end Record

/-! ## Databases -/

/-- What the databases differ in. -/
structure Dialect where
  foreignKeys : Bool
  negativeLimits : Bool
  refused : Record → Option PyError

/-- SQLite as `create_async_engine` opens it. -/
def Dialect.sqlite : Dialect := ⟨false, true, fun _ => none⟩

/-- How the records of a database are told apart. -/
def schema (d : Dialect) : Schema Record String (Table × String) Unique PyError where
  owner r := r.2.owner
  name r := (r.1, r.2.entityId)
  keys r := r.2.keys
  refs r := if d.foreignKeys then r.2.refs else []
  refused := d.refused
  integrityError _ := ⟨.integrityError, "constraint failed"⟩
  depth := 2

/-- A database. -/
abbrev Db (d : Dialect) := Store (schema d)

/-- A transaction on a database. -/
abbrev Query (d : Dialect) := Transaction (schema d)

/-- The number of foreign keys above the rows of a table. -/
def Table.level : Table → ℕ
  | .connectionSecrets | .workflowVersions | .runs | .agentCommands | .schemaSnapshots => 1
  | .runSteps | .deadLetters => 2
  | _ => 0

theorem level_of_mem_refs {t : Table} {r : Row t} {n : Table × String} (h : n ∈ r.refs) :
    n.1.level + 1 = t.level := by
  cases t <;> simp only [Row.refs, List.mem_singleton, List.not_mem_nil] at h <;> subst h <;> rfl

theorem level_of_name_mem {d : Dialect} {q r : Record} (h : (schema d).name q ∈ (schema d).refs r) :
    q.1.level + 1 = r.1.level := by
  simp only [schema] at h
  split at h
  · exact level_of_mem_refs h
  · cases h

/-- A row never falls over more foreign keys than are above its table, so that two are enough. -/
theorem falls_of_level_le {d : Dialect} (s : Db d) (p : Record → Bool) {n : ℕ} {r : Record}
    (h : r.1.level ≤ n) : s.falls p (n + 1) r = s.falls p n r := by
  induction n generalizing r with
  | zero =>
    rw [Store.falls_succ, Bool.or_eq_left_iff_imp]
    intro hany
    obtain ⟨q, -, hq⟩ := List.any_eq_true.1 hany
    simp only [Bool.and_eq_true, decide_eq_true_eq] at hq
    have := level_of_name_mem hq.2
    omega
  | succ n ih =>
    rw [Store.falls_succ, Bool.or_eq_left_iff_imp]
    intro hany
    obtain ⟨q, hmem, hq⟩ := List.any_eq_true.1 hany
    simp only [Bool.and_eq_true, decide_eq_true_eq] at hq
    have hlevel := level_of_name_mem hq.2
    have hfalls : s.falls p n q = true := by
      rw [← ih (by omega)]
      exact hq.1
    rw [Store.falls_succ, Bool.or_eq_true, List.any_eq_true]
    right
    exact ⟨q, hmem, by simpa [hfalls] using hq.2⟩

end FlowMesh.Tables
