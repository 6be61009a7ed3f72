import FlowMesh.Engine.World
import FlowMesh.Repositories.Records
import Mathlib.Data.List.Sort

/-!
# Tenant-scoped repositories

The repositories of `app/repositories/tenant_scoped.py`, and the opening of an incident by
`IncidentManager`, as transactions on a database: an operation commits once, at its end, and one
that raises has committed nothing. A query gives what the database holds; the objects that a
session keeps between two queries are not modelled.

What an operation draws (the time, random ids) is an argument of it. `RepoCall` lists the
operations, `RepoCall.perform` runs one for a tenant.
-/

namespace FlowMesh.Tables

open Python Database Transaction

variable {d : Dialect}

/-! ## Statements -/

/-- `select(model).where(p)`. -/
def fetch (t : Table) (p : Row t → Bool) : Query d (List (Row t)) := do
  return (← select (Record.is t p)).filterMap (Record.as? t)

/-- `select(model).where(model.tenant_id == tenant_id).where(p)`. -/
def fetchOwn (tenant : String) (t : Table) (p : Row t → Bool) : Query d (List (Row t)) :=
  fetch t fun r => r.owner = tenant && p r

/-- Values for columns of a table that are neither unique nor say whose the row is; a unique
column may become `null`. -/
structure Assignment (t : Table) where
  apply : Row t → Row t
  entityId_apply : ∀ r, (apply r).entityId = r.entityId
  owner_apply : ∀ r, (apply r).owner = r.owner
  keys_apply : ∀ r, (apply r).keys ⊆ r.keys

/-- The assignment on records: those of other tables stay. -/
def Assignment.rewrite {t : Table} (f : Assignment t) : (schema d).Rewrite where
  apply r := if h : r.1 = t then ⟨t, f.apply (h ▸ r.2)⟩ else r
  owner_apply := by
    rintro ⟨t', r⟩
    by_cases h : t' = t
    · subst h
      simpa [schema] using f.owner_apply r
    · simp [h]
  name_apply := by
    rintro ⟨t', r⟩
    by_cases h : t' = t
    · subst h
      simpa [schema] using f.entityId_apply r
    · simp [h]
  keys_apply := by
    rintro ⟨t', r⟩
    by_cases h : t' = t
    · subst h
      simpa [schema] using f.keys_apply r
    · simp [h]

/-- `update(model).where(p).values(f)`. -/
def assign (t : Table) (p : Row t → Bool) (f : Assignment t) : Query d ℕ :=
  update (Record.is t p) f.rewrite

/-- `update(model).where(model.tenant_id == tenant_id).where(p).values(f)`. -/
def assignOwn (tenant : String) (t : Table) (p : Row t → Bool) (f : Assignment t) : Query d ℕ :=
  assign t (fun r => r.owner = tenant && p r) f

/-- The flush of an object whose attributes were set: its row is found by the primary key. -/
def flush (t : Table) (entityId : String) (f : Assignment t) : Query d Unit := do
  let _ ← assign t (fun r => r.entityId = entityId) f

/-- `scalar_one_or_none`. -/
def scalarOneOrNone {α : Type} : List α → Query d (Option α)
  | [] => pure none
  | [x] => pure (some x)
  | _ => raise ⟨.multipleResultsFound,
      "Multiple rows were found when one or none was required"⟩

/-- `order_by`; rows that tie stay in the order of their insertion. -/
def orderBy {α : Type} (before : α → α → Bool) (l : List α) : List α :=
  l.insertionSort fun x y => before x y

/-- `offset(skip).limit(limit)` of a query. -/
def paginate {α : Type} (skip limit : ℤ) (rows : Query d (List α)) : Query d (List α) :=
  if (skip < 0 ∨ limit < 0) ∧ !d.negativeLimits then
    raise ⟨.other, "LIMIT and OFFSET must not be negative"⟩
  else do
    let l := (← rows).drop skip.toNat
    return if limit < 0 then l else l.take limit.toNat

/-! ## `TenantScopedRepository` -/

namespace TenantScopedRepository

variable (tenant : String) (t : Table)

/-- `get_by_id`. -/
def getById (entityId : String) : Query d (Option (Row t)) := do
  scalarOneOrNone (← fetchOwn tenant t fun r => r.entityId = entityId)

/-- `order_col.desc()`: `created_at` or `timestamp`, and `id` where a table has neither. -/
def comesFirst (x y : Row t) : Bool :=
  match x.createdAt?, y.createdAt? with
  | some i, some j => j ≤ i
  | _, _ => y.entityId ≤ x.entityId

/-- `list_all`. -/
def listAll (skip limit : ℤ) : Query d (List (Row t)) :=
  paginate skip limit do
    return orderBy (comesFirst t) (← fetchOwn tenant t fun _ => true)

/-- `count`. -/
def count : Query d ℕ := do
  return (← fetchOwn tenant t fun _ => true).length

/-- `create`. -/
def create (entity : Row t) : Query d (Row t) := do
  insert ⟨t, entity.setTenantId tenant⟩
  return entity.setTenantId tenant

/-- `delete`. -/
def delete (entityId : String) : Query d Bool := do
  let rowcount ← Transaction.delete (Record.is t fun r => r.entityId = entityId && r.owner = tenant)
  return 0 < rowcount

end TenantScopedRepository

open TenantScopedRepository

variable (tenant : String)

/-! ## Connections and audit events -/

/-- `ConnectionRepository.get_by_type`. -/
def ConnectionRepository.getByType (connType : String) : Query d (List ConnectionRecord) :=
  fetchOwn tenant .connections fun r => r.type = connType

/-- The event that `AuditRepository.record` writes. -/
def AuditRepository.event (uuid : String) (now : ℤ) (actor action resource result : String)
    (metadata : Json) : AuditEvent :=
  { id := "aud_" ++ uuid
    tenantId := tenant
    actor, action, resource, result
    timestamp := now
    metadataJson := metadata }

/-- `AuditRepository.record`. -/
def AuditRepository.record (uuid : String) (now : ℤ) (actor action resource result : String)
    (metadata : Json) : Query d AuditEvent := do
  let event := AuditRepository.event tenant uuid now actor action resource result metadata
  insert ⟨.auditEvents, event⟩
  return event

namespace ConnectionSecretRepository

/-- `get_latest_for_connection`. -/
def getLatestForConnection (connectionId : String) : Query d (Option ConnectionSecret) := do
  let rows ← fetchOwn tenant .connectionSecrets fun r => r.connectionId = connectionId
  scalarOneOrNone ((orderBy (fun x y : ConnectionSecret => y.version ≤ x.version) rows).take 1)

/-- `get_by_version`. -/
def getByVersion (connectionId : String) (version : ℤ) : Query d (Option ConnectionSecret) := do
  scalarOneOrNone (← fetchOwn tenant .connectionSecrets fun r =>
    r.connectionId = connectionId && r.version = version)

/-- `purge_previous_versions`. -/
def purgePreviousVersions (connectionId : String) (keepVersion : ℤ) : Query d ℕ :=
  Transaction.delete (Record.is .connectionSecrets fun r =>
    r.tenantId = tenant && r.connectionId = connectionId && r.version < keepVersion)

end ConnectionSecretRepository

/-! ## Workflows -/

namespace WorkflowVersionRepository

/-- `list_for_workflow`. -/
def listForWorkflow (workflowId : String) : Query d (List WorkflowVersionRecord) := do
  return orderBy (fun x y : WorkflowVersionRecord => y.version ≤ x.version)
    (← fetchOwn tenant .workflowVersions fun r => r.workflowId = workflowId)

/-- `get_by_version`. -/
def getByVersion (workflowId : String) (version : ℤ) : Query d (Option WorkflowVersionRecord) := do
  scalarOneOrNone (← fetchOwn tenant .workflowVersions fun r =>
    r.workflowId = workflowId && r.version = version)

/-- `get_active_version`. -/
def getActiveVersion (workflowId : String) : Query d (Option WorkflowVersionRecord) := do
  scalarOneOrNone (← fetchOwn tenant .workflowVersions fun r =>
    r.workflowId = workflowId && r.isActive)

end WorkflowVersionRepository

/-- `v.get(key, default)`. -/
def getKey (v : Json) (key : String) (default : Json) : Except PyError Json :=
  match v with
  | .obj items => .ok ((Json.lookup key items).getD default)
  | v => .error ⟨.other, "'" ++ typeName v ++ "' object has no attribute 'get'"⟩

namespace WorkflowRepository

/-- The test that `get_by_trigger_path` makes of a workflow. -/
def listensOn (path : String) (wf : WorkflowRecord) : Except PyError Bool := do
  let trigger ← getKey wf.definitionJson "trigger" (.obj [])
  let tType ← getKey trigger "type" (.str "")
  let tPath ← getKey (← getKey trigger "config" (.obj [])) "path" .null
  let tPath ← if tPath.truthy then pure tPath else getKey trigger "path" .null
  return tType.eq (.str "webhook") && (tPath.eq (.str (String.ofList ('/' :: stripSlashes path))) ||
    tPath.eq (.str path) || !tPath.truthy)

/-- The loop of `get_by_trigger_path`. -/
def firstListening (path : String) : List WorkflowRecord → Except PyError (Option WorkflowRecord)
  | [] => return none
  | wf :: wfs => do
    if ← listensOn path wf then return some wf
    firstListening path wfs

/-- `get_by_trigger_path`. -/
def getByTriggerPath (path : String) : Query d (Option WorkflowRecord) := do
  let workflows ← fetchOwn tenant .workflows fun r => r.status = "active"
  match firstListening path workflows with
  | .ok wf => return wf
  | .error e => raise e

/-- `selectinload(WorkflowRecord.versions)`: the versions by their foreign key alone. -/
def loadVersions (workflows : List WorkflowRecord) : Query d (List WorkflowVersionRecord) :=
  fetch .workflowVersions fun v => workflows.any fun wf => v.workflowId = wf.id

/-- A workflow with its share of the versions loaded. -/
def withVersions (versions : List WorkflowVersionRecord) (wf : WorkflowRecord) :
    WorkflowRecord × List WorkflowVersionRecord :=
  (wf, orderBy (fun x y => y.version ≤ x.version) (versions.filter (·.workflowId = wf.id)))

/-- `get_with_versions`. -/
def getWithVersions (workflowId : String) :
    Query d (Option (WorkflowRecord × List WorkflowVersionRecord)) := do
  let workflows ← fetchOwn tenant .workflows fun r => r.id = workflowId
  let versions ← loadVersions workflows
  scalarOneOrNone (workflows.map (withVersions versions))

/-- `values(is_active=b)`. -/
def setActive (b : Bool) : Assignment .workflowVersions where
  apply v := { v with isActive := b }
  entityId_apply _ := rfl
  owner_apply _ := rfl
  keys_apply _ := List.Subset.refl _

/-- The assignments of `deploy_version` and `rollback_to_version` to the workflow. -/
def point (version : ℤ) (definitionJson : Json) (now : ℤ) : Assignment .workflows where
  apply wf := { wf with version, definitionJson, status := "active", updatedAt := now }
  entityId_apply _ := rfl
  owner_apply _ := rfl
  keys_apply _ := List.Subset.refl _

/-- The statement that deactivates all versions of a workflow. -/
def deactivate (workflowId : String) : Query d ℕ :=
  assignOwn tenant .workflowVersions (fun v => v.workflowId = workflowId) (setActive false)

/-- `get_by_id`, for a workflow that has to exist. -/
def require (workflowId : String) : Query d WorkflowRecord := do
  match ← getById tenant .workflows workflowId with
  | some wf => return wf
  | none => raise ⟨.valueError, "Workflow " ++ workflowId ++ " not found"⟩

/-- The `version_record` of `deploy_version`. -/
def versionRecord (uuid : String) (now : ℤ) (wf : WorkflowRecord) (workflowId : String)
    (definitionJson : Json) (changelog deployedBy : String) : WorkflowVersionRecord :=
  { id := "wfv_" ++ uuid
    tenantId := tenant
    workflowId
    version := wf.version + 1
    definitionJson
    changelog := if changelog = "" then "Deployed version " ++ toString (wf.version + 1)
      else changelog
    deployedBy
    deployedAt := now
    isActive := true }

/-- What `deploy_version` does before the new version is inserted. -/
def prepareVersion (now : ℤ) (workflowId : String) (definitionJson : Json) :
    Query d WorkflowRecord := do
  let wf ← require tenant workflowId
  let _ ← deactivate tenant workflowId
  flush .workflows wf.id (point (wf.version + 1) definitionJson now)
  return wf

/-- `deploy_version`: the flush writes the workflow before the version that refers to it. -/
def deployVersion (uuid : String) (now : ℤ) (workflowId : String) (definitionJson : Json)
    (changelog deployedBy : String) : Query d WorkflowVersionRecord := do
  let wf ← prepareVersion tenant now workflowId definitionJson
  let v := versionRecord tenant uuid now wf workflowId definitionJson changelog deployedBy
  insert ⟨.workflowVersions, v⟩
  return v

/-- `rollback_to_version`. -/
def rollbackToVersion (now : ℤ) (workflowId : String) (targetVersion : ℤ) :
    Query d WorkflowVersionRecord := do
  let wf ← require tenant workflowId
  match ← WorkflowVersionRepository.getByVersion tenant workflowId targetVersion with
  | none => raise ⟨.valueError, "Target version " ++ toString targetVersion ++
      " does not exist for workflow " ++ workflowId⟩
  | some targetVer =>
    let _ ← deactivate tenant workflowId
    flush .workflows wf.id (point targetVer.version targetVer.definitionJson now)
    flush .workflowVersions targetVer.id (setActive true)
    return { targetVer with isActive := true }

end WorkflowRepository

/-! ## Runs -/

namespace RunRepository

/-- `selectinload(RunRecord.steps)`: the steps by their foreign key alone. -/
def loadSteps (runs : List RunRecord) : Query d (List RunStepRecord) :=
  fetch .runSteps fun s => runs.any fun run => s.runId = run.id

/-- Steps in the order of `started_at`. -/
def orderSteps (steps : List RunStepRecord) : List RunStepRecord :=
  orderBy (fun x y => x.startedAt ≤ y.startedAt) steps

/-- A run with its share of the steps loaded. -/
def withSteps (steps : List RunStepRecord) (run : RunRecord) : RunRecord × List RunStepRecord :=
  (run, orderSteps (steps.filter (·.runId = run.id)))

/-- `get_steps_for_run`. -/
def getStepsForRun (runId : String) : Query d (List RunStepRecord) := do
  return orderSteps (← fetchOwn tenant .runSteps fun s => s.runId = runId)

/-- `get_by_id`: the steps that come with the run are replaced by the tenant's own. -/
def getById (entityId : String) : Query d (Option (RunRecord × List RunStepRecord)) := do
  let runs ← fetchOwn tenant .runs fun r => r.id = entityId
  let _ ← loadSteps runs
  match ← scalarOneOrNone runs with
  | none => return none
  | some run => return some (run, ← getStepsForRun tenant entityId)

/-- `get_by_idempotency_key`. -/
def getByIdempotencyKey (idempotencyKey : String) :
    Query d (Option (RunRecord × List RunStepRecord)) := do
  let runs ← fetchOwn tenant .runs fun r => r.idempotencyKey = some idempotencyKey
  let steps ← loadSteps runs
  scalarOneOrNone (runs.map (withSteps steps))

/-- The runs that `list_all` lists. -/
def listRuns (skip limit : ℤ) : Query d (List RunRecord) :=
  paginate skip limit do
    return orderBy (fun x y : RunRecord => y.startedAt ≤ x.startedAt)
      (← fetchOwn tenant .runs fun _ => true)

/-- `list_all`. -/
def listAll (skip limit : ℤ) : Query d (List (RunRecord × List RunStepRecord)) := do
  let runs ← listRuns tenant skip limit
  let steps ← loadSteps runs
  return runs.map (withSteps steps)

/-- `record_step`. -/
def recordStep (step : RunStepRecord) : Query d RunStepRecord :=
  create tenant .runSteps step

/-- `update_step`. -/
def updateStep (now : ℤ) (stepId status : String) (durationMs : PyFloat)
    (outputSnapshot : Option Json) (error : Option String) : Query d Unit := do
  let _ ← assignOwn tenant .runSteps (fun s => s.id = stepId)
    { apply := fun s => { s with status, durationMs, outputSnapshot, error, finishedAt := some now }
      entityId_apply := fun _ => rfl
      owner_apply := fun _ => rfl
      keys_apply := fun _ => List.Subset.refl _ }

/-- `update_run_status`. -/
def updateRunStatus (now : ℤ) (runId status : String) (durationSeconds : PyFloat)
    (outputPayload : Option Json) (error : Option String) : Query d Unit := do
  let _ ← assignOwn tenant .runs (fun r => r.id = runId)
    { apply := fun r =>
        { r with status, durationSeconds, outputPayload, error, finishedAt := some now }
      entityId_apply := fun _ => rfl
      owner_apply := fun _ => rfl
      keys_apply := fun _ => List.Subset.refl _ }

end RunRepository

/-! ## Dead letters and incidents -/

namespace DeadLetterRepository

/-- `list_pending`. -/
def listPending (limit : ℤ) : Query d (List DeadLetterRecord) :=
  paginate 0 limit do
    return orderBy (fun x y : DeadLetterRecord => y.createdAt ≤ x.createdAt)
      (← fetchOwn tenant .deadLetters fun r => r.status = "PENDING")

/-- `mark_replayed`. -/
def markReplayed (now : ℤ) (dlqId : String) : Query d Bool := do
  let rowcount ← assignOwn tenant .deadLetters (fun r => r.id = dlqId)
    { apply := fun r => { r with status := "REPLAYED", replayedAt := some now }
      entityId_apply := fun _ => rfl
      owner_apply := fun _ => rfl
      keys_apply := fun _ => List.Subset.refl _ }
  return 0 < rowcount

/-- `mark_discarded`. -/
def markDiscarded (dlqId : String) : Query d Bool := do
  let rowcount ← assignOwn tenant .deadLetters (fun r => r.id = dlqId)
    { apply := fun r => { r with status := "DISCARDED" }
      entityId_apply := fun _ => rfl
      owner_apply := fun _ => rfl
      keys_apply := fun _ => List.Subset.refl _ }
  return 0 < rowcount

end DeadLetterRepository

namespace IncidentRepository

/-- `order_by(IncidentRecord.opened_at.desc())`. -/
def orderIncidents (incidents : List IncidentRecord) : List IncidentRecord :=
  orderBy (fun x y => y.openedAt ≤ x.openedAt) incidents

/-- `list_active`. -/
def listActive : Query d (List IncidentRecord) := do
  return orderIncidents (← fetchOwn tenant .incidents fun r =>
    ["OPEN", "INVESTIGATING"].contains r.status)

/-- `get_open_for_connection`. -/
def getOpenForConnection (connectionId : String) : Query d (Option IncidentRecord) := do
  let rows ← fetchOwn tenant .incidents fun r => r.connectionId = some connectionId &&
    ["OPEN", "INVESTIGATING", "RECOVERED"].contains r.status
  scalarOneOrNone ((orderIncidents rows).take 1)

/-- `values(timeline=timeline)`. -/
def setTimeline (timeline : List TimelineEntry) : Assignment .incidents where
  apply r := { r with timeline }
  entityId_apply _ := rfl
  owner_apply _ := rfl
  keys_apply _ := List.Subset.refl _

/-- `add_timeline_event`. -/
def addTimelineEvent (nowStr incidentId message : String) : Query d Unit := do
  match ← TenantScopedRepository.getById tenant .incidents incidentId with
  | none => return ()
  | some incident =>
    let _ ← assignOwn tenant .incidents (fun r => r.id = incidentId)
      (setTimeline (incident.timeline ++ [⟨nowStr, message⟩]))

/-- `update_status`. -/
def updateStatus (now : ℤ) (incidentId status : String) (resolved : Bool) : Query d Unit := do
  let _ ← assignOwn tenant .incidents (fun r => r.id = incidentId)
    { apply := fun r => { r with status, resolvedAt := if resolved then some now else none }
      entityId_apply := fun _ => rfl
      owner_apply := fun _ => rfl
      keys_apply := fun _ => List.Subset.refl _ }

end IncidentRepository

namespace IncidentManager

open IncidentRepository

instance neZero_draws : NeZero 9000 := ⟨by decide⟩

/-- The incident that `report_circuit_breaker_tripped` opens; `draw` is
`random.randint(1000, 9999)`. -/
def incident (draw : Fin 9000) (now : ℤ)
    (nowStr connectionId workflowId rootCause severity : String) : IncidentRecord :=
  { id := "INC-" ++ toString (1000 + draw.val)
    tenantId := tenant
    title := "Degraded Connection: " ++ connectionId
    severity
    status := "OPEN"
    connectionId := some connectionId
    affectedWorkflows := [workflowId]
    rootCause
    timeline := [⟨nowStr,
      "Circuit breaker OPENED for connection '" ++ connectionId ++ "': " ++ rootCause⟩]
    openedAt := now
    resolvedAt := none }

/-- `existing.affected_workflows = wfs`. -/
def setAffectedWorkflows (wfs : List String) : Assignment .incidents where
  apply r := { r with affectedWorkflows := wfs }
  entityId_apply _ := rfl
  owner_apply _ := rfl
  keys_apply _ := List.Subset.refl _

/-- `report_circuit_breaker_tripped`. -/
def reportCircuitBreakerTripped (draw : Fin 9000) (now : ℤ)
    (nowStr connectionId workflowId rootCause severity : String) : Query d IncidentRecord := do
  match ← getOpenForConnection tenant connectionId with
  | some existing =>
    let wfs := if existing.affectedWorkflows.contains workflowId then existing.affectedWorkflows
      else existing.affectedWorkflows ++ [workflowId]
    let message := "Circuit breaker OPEN for connection '" ++ connectionId ++ "'. Workflow '" ++
      workflowId ++ "' failed fast."
    addTimelineEvent tenant nowStr existing.id message
    flush .incidents existing.id (setAffectedWorkflows wfs)
    return { existing with
      affectedWorkflows := wfs
      timeline := existing.timeline ++ [⟨nowStr, message⟩] }
  | none =>
    create tenant .incidents
      (incident tenant draw now nowStr connectionId workflowId rootCause severity)

end IncidentManager

/-! ## Agents -/

/-- `bool(s)` of an optional text. -/
def isGiven (s : Option String) : Bool := s.any (· ≠ "")

namespace AgentRepository

/-- The record that `create_agent` writes; `registeredAt` is the time that the column's default
draws. -/
def agent (now registeredAt : ℤ) (agentId name version : String)
    (enrollmentToken publicKey : Option String) (connectors : Option (List Json)) : AgentRecord :=
  { id := agentId
    tenantId := tenant
    name, version
    status := if isGiven enrollmentToken then "OFFLINE" else "ONLINE"
    publicKey
    cpuPercent := ⟨.finite 0, "0.0"⟩
    memoryPercent := ⟨.finite 0, "0.0"⟩
    queueDepth := 0
    policyStatus := "enforced"
    connectors := connectors.getD []
    lastHeartbeatAt := if isGiven enrollmentToken then none else some now
    registeredAt
    enrollmentToken }

/-- `create_agent`. -/
def createAgent (now registeredAt : ℤ) (agentId name version : String)
    (enrollmentToken publicKey : Option String) (connectors : Option (List Json)) :
    Query d AgentRecord := do
  let record :=
    agent tenant now registeredAt agentId name version enrollmentToken publicKey connectors
  insert ⟨.agents, record⟩
  return record

/-- `get_by_enrollment_token`. -/
def getByEnrollmentToken (token : String) : Query d (Option AgentRecord) := do
  scalarOneOrNone (← fetchOwn tenant .agents fun r => r.enrollmentToken = some token)

/-- The assignments of `enroll_agent`. -/
def enroll (now : ℤ) (name version : String) (publicKey : Option String) : Assignment .agents where
  apply r :=
    { r with
      name := if name = "" then r.name else name
      version := if version = "" then r.version else version
      publicKey := if isGiven publicKey then publicKey else r.publicKey
      status := "ONLINE"
      lastHeartbeatAt := some now
      enrollmentToken := none }
  entityId_apply _ := rfl
  owner_apply _ := rfl
  keys_apply _ := List.nil_subset _

/-- `enroll_agent`. -/
def enrollAgent (now : ℤ) (token name version : String) (publicKey : Option String) :
    Query d (Option AgentRecord) := do
  match ← getByEnrollmentToken tenant token with
  | none => return none
  | some agent =>
    flush .agents agent.id (enroll now name version publicKey)
    return some ((enroll now name version publicKey).apply agent)

/-- The assignments of `update_heartbeat`. -/
def beat (now : ℤ) (cpuPercent memoryPercent : PyFloat) (queueDepth : ℤ)
    (connectors : Option (List Json)) : Assignment .agents where
  apply r :=
    { r with
      cpuPercent, memoryPercent, queueDepth
      status := "ONLINE"
      lastHeartbeatAt := some now
      connectors := connectors.getD r.connectors }
  entityId_apply _ := rfl
  owner_apply _ := rfl
  keys_apply _ := List.Subset.refl _

/-- `update_heartbeat`. -/
def updateHeartbeat (now : ℤ) (agentId : String) (cpuPercent memoryPercent : PyFloat)
    (queueDepth : ℤ) (connectors : Option (List Json)) : Query d (Option AgentRecord) := do
  match ← getById tenant .agents agentId with
  | none => return none
  | some agent =>
    flush .agents agent.id (beat now cpuPercent memoryPercent queueDepth connectors)
    return some ((beat now cpuPercent memoryPercent queueDepth connectors).apply agent)

end AgentRepository

namespace AgentCommandRepository

/-- The record that `create_command` writes; `now` is the time that the column's default draws. -/
def command (now : ℤ) (commandId agentId connector connectionId operation : String)
    (resource : Option String) (limit : Option ℤ) (payload : Option Json)
    (signature : Option String) (cmdType : String) : AgentCommandRecord :=
  { id := commandId
    tenantId := tenant
    agentId
    type := cmdType
    connector, connectionId, operation, resource, limit
    payload := (payload.getD .null).or (.obj [])
    signature
    status := "QUEUED"
    result := none
    error := none
    createdAt := now
    dispatchedAt := none
    completedAt := none }

/-- `create_command`. -/
def createCommand (now : ℤ) (commandId agentId connector connectionId operation : String)
    (resource : Option String) (limit : Option ℤ) (payload : Option Json)
    (signature : Option String) (cmdType : String) : Query d AgentCommandRecord := do
  let cmd := command tenant now commandId agentId connector connectionId operation resource limit
    payload signature cmdType
  insert ⟨.agentCommands, cmd⟩
  return cmd

/-- `get_pending_commands`. -/
def getPendingCommands (agentId : String) (limit : ℤ) : Query d (List AgentCommandRecord) :=
  paginate 0 limit do
    return orderBy (fun x y : AgentCommandRecord => x.createdAt ≤ y.createdAt)
      (← fetchOwn tenant .agentCommands fun r => r.agentId = agentId && r.status = "QUEUED")

/-- `mark_dispatched`. -/
def markDispatched (now : ℤ) (commandId : String) : Query d Unit := do
  let _ ← assignOwn tenant .agentCommands (fun r => r.id = commandId)
    { apply := fun r => { r with status := "DISPATCHED", dispatchedAt := some now }
      entityId_apply := fun _ => rfl
      owner_apply := fun _ => rfl
      keys_apply := fun _ => List.Subset.refl _ }

/-- The assignments of `record_result`. -/
def complete (now : ℤ) (status : String) (result : Option Json) (error : Option String) :
    Assignment .agentCommands where
  apply r := { r with status, result, error, completedAt := some now }
  entityId_apply _ := rfl
  owner_apply _ := rfl
  keys_apply _ := List.Subset.refl _

/-- `record_result`. -/
def recordResult (now : ℤ) (commandId status : String) (result : Option Json)
    (error : Option String) : Query d (Option AgentCommandRecord) := do
  match ← getById tenant .agentCommands commandId with
  | none => return none
  | some cmd =>
    flush .agentCommands cmd.id (complete now status result error)
    return some ((complete now status result error).apply cmd)

end AgentCommandRepository

/-! ## Schema snapshots -/

namespace SchemaSnapshotRepository

/-- `order_by(SchemaSnapshot.version.desc())`. -/
def orderSnapshots (snapshots : List SchemaSnapshot) : List SchemaSnapshot :=
  orderBy (fun x y => y.version ≤ x.version) snapshots

/-- `get_baseline`. -/
def getBaseline (connectionId : String) : Query d (Option SchemaSnapshot) := do
  return (orderSnapshots (← fetchOwn tenant .schemaSnapshots fun r =>
    r.connectionId = connectionId && r.isBaseline)).head?

/-- `get_latest`. -/
def getLatest (connectionId : String) : Query d (Option SchemaSnapshot) := do
  return (orderSnapshots (← fetchOwn tenant .schemaSnapshots fun r =>
    r.connectionId = connectionId)).head?

/-- `list_history`. -/
def listHistory (connectionId : String) : Query d (List SchemaSnapshot) := do
  return orderSnapshots (← fetchOwn tenant .schemaSnapshots fun r => r.connectionId = connectionId)

/-- `values(is_baseline=b)`. -/
def setIsBaseline (b : Bool) : Assignment .schemaSnapshots where
  apply r := { r with isBaseline := b }
  entityId_apply _ := rfl
  owner_apply _ := rfl
  keys_apply _ := List.Subset.refl _

/-- `set_baseline`. -/
def setBaseline (connectionId snapshotId : String) : Query d (Option SchemaSnapshot) := do
  let _ ← assignOwn tenant .schemaSnapshots (fun r => r.connectionId = connectionId)
    (setIsBaseline false)
  let _ ← assignOwn tenant .schemaSnapshots (fun r => r.id = snapshotId) (setIsBaseline true)
  getById tenant .schemaSnapshots snapshotId

end SchemaSnapshotRepository

/-! ## Calls -/

/-- The operations with their arguments. The first five are those of the generic class, for any
table; `getRun` and `listRuns` are the ones that `RunRepository` has in their place. -/
inductive RepoCall
  | getById (t : Table) (entityId : String)
  | listAll (t : Table) (skip limit : ℤ)
  | count (t : Table)
  | create (t : Table) (entity : Row t)
  | delete (t : Table) (entityId : String)
  | getByType (connType : String)
  | recordEvent (uuid : String) (now : ℤ) (actor action resource result : String)
      (metadata : Json)
  | getLatestForConnection (connectionId : String)
  | getSecretByVersion (connectionId : String) (version : ℤ)
  | purgePreviousVersions (connectionId : String) (keepVersion : ℤ)
  | listForWorkflow (workflowId : String)
  | getByVersion (workflowId : String) (version : ℤ)
  | getActiveVersion (workflowId : String)
  | getByTriggerPath (path : String)
  | getWithVersions (workflowId : String)
  | deployVersion (uuid : String) (now : ℤ) (workflowId : String) (definitionJson : Json)
      (changelog deployedBy : String)
  | rollbackToVersion (now : ℤ) (workflowId : String) (targetVersion : ℤ)
  | getRun (entityId : String)
  | getStepsForRun (runId : String)
  | getByIdempotencyKey (idempotencyKey : String)
  | listRuns (skip limit : ℤ)
  | recordStep (step : RunStepRecord)
  | updateStep (now : ℤ) (stepId status : String) (durationMs : PyFloat)
      (outputSnapshot : Option Json) (error : Option String)
  | updateRunStatus (now : ℤ) (runId status : String) (durationSeconds : PyFloat)
      (outputPayload : Option Json) (error : Option String)
  | listPending (limit : ℤ)
  | markReplayed (now : ℤ) (dlqId : String)
  | markDiscarded (dlqId : String)
  | listActive
  | getOpenForConnection (connectionId : String)
  | addTimelineEvent (nowStr incidentId message : String)
  | updateStatus (now : ℤ) (incidentId status : String) (resolved : Bool)
  | reportCircuitBreakerTripped (draw : Fin 9000) (now : ℤ)
      (nowStr connectionId workflowId rootCause severity : String)
  | createAgent (now registeredAt : ℤ) (agentId name version : String)
      (enrollmentToken publicKey : Option String) (connectors : Option (List Json))
  | getByEnrollmentToken (token : String)
  | enrollAgent (now : ℤ) (token name version : String) (publicKey : Option String)
  | updateHeartbeat (now : ℤ) (agentId : String) (cpuPercent memoryPercent : PyFloat)
      (queueDepth : ℤ) (connectors : Option (List Json))
  | createCommand (now : ℤ) (commandId agentId connector connectionId operation : String)
      (resource : Option String) (limit : Option ℤ) (payload : Option Json)
      (signature : Option String) (cmdType : String)
  | getPendingCommands (agentId : String) (limit : ℤ)
  | markDispatched (now : ℤ) (commandId : String)
  | recordResult (now : ℤ) (commandId status : String) (result : Option Json)
      (error : Option String)
  | getBaseline (connectionId : String)
  | getLatest (connectionId : String)
  | listHistory (connectionId : String)
  | setBaseline (connectionId snapshotId : String)

/-- What an operation returns: a row or none, rows, rows with what was loaded along with them, a
number, a truth value or nothing. -/
inductive Answer
  | row (r : Option Record)
  | rows (rs : List Record)
  | loaded (r : Option (Record × List Record))
  | allLoaded (rs : List (Record × List Record))
  | number (n : ℕ)
  | flag (b : Bool)
  | done

/-- Answer what a query returns. -/
def answer {α : Type} (f : α → Answer) (m : Query d α) : Query d Answer := do
  return f (← m)

/-- Answer with a row. -/
def answerRow (t : Table) (m : Query d (Row t)) : Query d Answer :=
  answer (fun r => .row (some ⟨t, r⟩)) m

/-- Answer with a row or none. -/
def answerRow? (t : Table) (m : Query d (Option (Row t))) : Query d Answer :=
  answer (fun r => .row (r.map (Sigma.mk t))) m

/-- Answer with rows. -/
def answerRows (t : Table) (m : Query d (List (Row t))) : Query d Answer :=
  answer (fun rs => .rows (rs.map (Sigma.mk t))) m

/-- A row with the rows loaded along with it, as records. -/
def asLoaded (t t' : Table) (x : Row t × List (Row t')) : Record × List Record :=
  (⟨t, x.1⟩, x.2.map (Sigma.mk t'))

/-- Run an operation for the tenant. -/
def RepoCall.body : RepoCall → Query d Answer
  | .getById t entityId => answerRow? t (TenantScopedRepository.getById tenant t entityId)
  | .listAll t skip limit => answerRows t (TenantScopedRepository.listAll tenant t skip limit)
  | .count t => answer .number (TenantScopedRepository.count tenant t)
  | .create t entity => answerRow t (TenantScopedRepository.create tenant t entity)
  | .delete t entityId => answer .flag (TenantScopedRepository.delete tenant t entityId)
  | .getByType connType => answerRows .connections (ConnectionRepository.getByType tenant connType)
  | .recordEvent uuid now actor action resource result metadata => answerRow .auditEvents
      (AuditRepository.record tenant uuid now actor action resource result metadata)
  | .getLatestForConnection connectionId => answerRow? .connectionSecrets
      (ConnectionSecretRepository.getLatestForConnection tenant connectionId)
  | .getSecretByVersion connectionId version => answerRow? .connectionSecrets
      (ConnectionSecretRepository.getByVersion tenant connectionId version)
  | .purgePreviousVersions connectionId keepVersion => answer .number
      (ConnectionSecretRepository.purgePreviousVersions tenant connectionId keepVersion)
  | .listForWorkflow workflowId => answerRows .workflowVersions
      (WorkflowVersionRepository.listForWorkflow tenant workflowId)
  | .getByVersion workflowId version => answerRow? .workflowVersions
      (WorkflowVersionRepository.getByVersion tenant workflowId version)
  | .getActiveVersion workflowId => answerRow? .workflowVersions
      (WorkflowVersionRepository.getActiveVersion tenant workflowId)
  | .getByTriggerPath path => answerRow? .workflows
      (WorkflowRepository.getByTriggerPath tenant path)
  | .getWithVersions workflowId =>
      answer (fun r => .loaded (r.map (asLoaded .workflows .workflowVersions)))
        (WorkflowRepository.getWithVersions tenant workflowId)
  | .deployVersion uuid now workflowId definitionJson changelog deployedBy =>
      answerRow .workflowVersions (WorkflowRepository.deployVersion tenant uuid now workflowId
        definitionJson changelog deployedBy)
  | .rollbackToVersion now workflowId targetVersion => answerRow .workflowVersions
      (WorkflowRepository.rollbackToVersion tenant now workflowId targetVersion)
  | .getRun entityId => answer (fun r => .loaded (r.map (asLoaded .runs .runSteps)))
      (RunRepository.getById tenant entityId)
  | .getStepsForRun runId => answerRows .runSteps (RunRepository.getStepsForRun tenant runId)
  | .getByIdempotencyKey idempotencyKey =>
      answer (fun r => .loaded (r.map (asLoaded .runs .runSteps)))
        (RunRepository.getByIdempotencyKey tenant idempotencyKey)
  | .listRuns skip limit => answer (fun rs => .allLoaded (rs.map (asLoaded .runs .runSteps)))
      (RunRepository.listAll tenant skip limit)
  | .recordStep step => answerRow .runSteps (RunRepository.recordStep tenant step)
  | .updateStep now stepId status durationMs outputSnapshot error => answer (fun _ => .done)
      (RunRepository.updateStep tenant now stepId status durationMs outputSnapshot error)
  | .updateRunStatus now runId status durationSeconds outputPayload error =>
      answer (fun _ => .done) (RunRepository.updateRunStatus tenant now runId status
        durationSeconds outputPayload error)
  | .listPending limit => answerRows .deadLetters (DeadLetterRepository.listPending tenant limit)
  | .markReplayed now dlqId => answer .flag (DeadLetterRepository.markReplayed tenant now dlqId)
  | .markDiscarded dlqId => answer .flag (DeadLetterRepository.markDiscarded tenant dlqId)
  | .listActive => answerRows .incidents (IncidentRepository.listActive tenant)
  | .getOpenForConnection connectionId => answerRow? .incidents
      (IncidentRepository.getOpenForConnection tenant connectionId)
  | .addTimelineEvent nowStr incidentId message => answer (fun _ => .done)
      (IncidentRepository.addTimelineEvent tenant nowStr incidentId message)
  | .updateStatus now incidentId status resolved => answer (fun _ => .done)
      (IncidentRepository.updateStatus tenant now incidentId status resolved)
  | .reportCircuitBreakerTripped draw now nowStr connectionId workflowId rootCause severity =>
      answerRow .incidents (IncidentManager.reportCircuitBreakerTripped tenant draw now nowStr
        connectionId workflowId rootCause severity)
  | .createAgent now registeredAt agentId name version enrollmentToken publicKey connectors =>
      answerRow .agents (AgentRepository.createAgent tenant now registeredAt agentId name version
        enrollmentToken publicKey connectors)
  | .getByEnrollmentToken token => answerRow? .agents
      (AgentRepository.getByEnrollmentToken tenant token)
  | .enrollAgent now token name version publicKey => answerRow? .agents
      (AgentRepository.enrollAgent tenant now token name version publicKey)
  | .updateHeartbeat now agentId cpuPercent memoryPercent queueDepth connectors =>
      answerRow? .agents (AgentRepository.updateHeartbeat tenant now agentId cpuPercent
        memoryPercent queueDepth connectors)
  | .createCommand now commandId agentId connector connectionId operation resource limit payload
      signature cmdType => answerRow .agentCommands (AgentCommandRepository.createCommand tenant now
        commandId agentId connector connectionId operation resource limit payload signature cmdType)
  | .getPendingCommands agentId limit => answerRows .agentCommands
      (AgentCommandRepository.getPendingCommands tenant agentId limit)
  | .markDispatched now commandId => answer (fun _ => .done)
      (AgentCommandRepository.markDispatched tenant now commandId)
  | .recordResult now commandId status result error => answerRow? .agentCommands
      (AgentCommandRepository.recordResult tenant now commandId status result error)
  | .getBaseline connectionId => answerRow? .schemaSnapshots
      (SchemaSnapshotRepository.getBaseline tenant connectionId)
  | .getLatest connectionId => answerRow? .schemaSnapshots
      (SchemaSnapshotRepository.getLatest tenant connectionId)
  | .listHistory connectionId => answerRows .schemaSnapshots
      (SchemaSnapshotRepository.listHistory tenant connectionId)
  | .setBaseline connectionId snapshotId => answerRow? .schemaSnapshots
      (SchemaSnapshotRepository.setBaseline tenant connectionId snapshotId)

/-- Make the repository for the tenant and run an operation on it. -/
def RepoCall.perform (c : RepoCall) : Query d Answer :=
  if tenant = "" then
    raise ⟨.valueError, "TenantScopedRepository requires an explicit non-empty tenant_id"⟩
  else c.body tenant

end FlowMesh.Tables
