import FlowMesh.Library.Table
import FlowMesh.Workflow.Schema

/-!
# The version store

The tables `workflows` and `workflow_versions` with the operations of `WorkflowRepository` and of
the workflows router that write to them: `create_workflow`, `deploy_version`,
`rollback_to_version` and the lazily created row of `list_workflow_versions`. A version row is
addressed by the unique index `(tenant_id, workflow_id, version)`; its own random id is never
looked at and is left out, as are the time stamps.

An operation answers a value or an exception together with the registry it leaves. One that
raises leaves what it had committed before: nothing for `deploy_version` and
`rollback_to_version`, whose only commit comes last, and the workflow for a `create_workflow`
whose version row clashes.

`Command` lists the operations that a history may consist of; `Registry.execAll` runs one.
-/

namespace FlowMesh

open Python Database

/-! ## Rows -/

/-- The status of a workflow. -/
inductive WorkflowStatus
  | draft
  | active
  deriving DecidableEq

/-- `WorkflowRecord`. -/
structure WorkflowRecord where
  id : String
  tenantId : String
  name : String
  description : String
  status : WorkflowStatus
  version : ℤ
  triggerType : String
  definitionJson : WorkflowSpec

/-- `WorkflowVersionRecord`. -/
structure WorkflowVersionRecord where
  tenantId : String
  workflowId : String
  version : ℤ
  definitionJson : WorkflowSpec
  changelog : String
  deployedBy : String
  isActive : Bool

namespace WorkflowVersionRecord

/-- The columns of the unique index. -/
def key (v : WorkflowVersionRecord) : String × String × ℤ := (v.tenantId, v.workflowId, v.version)

/-- `is_active = b`. -/
def setActive (b : Bool) (v : WorkflowVersionRecord) : WorkflowVersionRecord :=
  { v with isActive := b }

@[simp] theorem key_setActive (b : Bool) (v : WorkflowVersionRecord) :
    (v.setActive b).key = v.key := rfl

/-- The rows a repository of the tenant selects for a workflow. -/
def belongsTo (tenant workflowId : String) (v : WorkflowVersionRecord) : Bool :=
  v.tenantId = tenant ∧ v.workflowId = workflowId

end WorkflowVersionRecord

/-- The two tables of the version store. -/
structure Registry where
  workflows : Table WorkflowRecord String WorkflowRecord.id
  versions : Table WorkflowVersionRecord (String × String × ℤ) WorkflowVersionRecord.key

namespace Registry

/-- The store before the first request. -/
def empty : Registry := ⟨.empty, .empty⟩

variable (tenant : String)

/-! ## `WorkflowRepository` and `WorkflowVersionRepository` -/

/-- `WorkflowRepository.get_by_id`. -/
def getById (workflowId : String) (r : Registry) : Option WorkflowRecord :=
  (r.workflows.get? workflowId).filter (·.tenantId = tenant)

/-- `WorkflowRepository.create`. -/
def create (wf : WorkflowRecord) (r : Registry) : Except PyError WorkflowRecord × Registry :=
  let wf := { wf with tenantId := tenant }
  match r.workflows.insert? wf with
  | none => (.error ⟨.integrityError, "UNIQUE constraint failed: workflows.id"⟩, r)
  | some workflows => (.ok wf, { r with workflows })

/-- `WorkflowVersionRepository.list_for_workflow`: newest first. -/
def listForWorkflow (workflowId : String) (r : Registry) : List WorkflowVersionRecord :=
  (r.versions.rows.filter (·.belongsTo tenant workflowId)).mergeSort
    (fun v w => decide (w.version ≤ v.version))

/-- `WorkflowVersionRepository.get_by_version`. -/
def getByVersion (workflowId : String) (version : ℤ) (r : Registry) :
    Option WorkflowVersionRecord :=
  r.versions.get? (tenant, workflowId, version)

/-- Insert a version row and commit. -/
def addVersion (v : WorkflowVersionRecord) (r : Registry) :
    Except PyError WorkflowVersionRecord × Registry :=
  match r.versions.insert? v with
  | none => (.error ⟨.integrityError, "UNIQUE constraint failed: workflow_versions.tenant_id, " ++
      "workflow_versions.workflow_id, workflow_versions.version"⟩, r)
  | some versions => (.ok v, { r with versions })

/-- The statement that deactivates all versions of a workflow. -/
def deactivate (workflowId : String) (r : Registry) : Registry :=
  { r with
    versions := r.versions.update (·.belongsTo tenant workflowId) (·.setActive false) fun _ => rfl }

/-- `target_ver.is_active = True`. -/
def activate (targetVer : WorkflowVersionRecord) (r : Registry) : Registry :=
  { r with
    versions := r.versions.update (·.key = targetVer.key) (·.setActive true) fun _ => rfl }

/-- Point the workflow at a version: `wf.version`, `wf.definition_json` and `wf.status`. -/
def point (workflowId : String) (version : ℤ) (definitionJson : WorkflowSpec) (r : Registry) :
    Registry :=
  { r with
    workflows := r.workflows.update (·.id = workflowId)
      (fun wf => { wf with version, definitionJson, status := .active }) fun _ => rfl }

/-- The `version_record` of `deploy_version`. -/
def versionRecord (workflowId : String) (newVersionNum : ℤ) (definitionJson : WorkflowSpec)
    (changelog deployedBy : String) : WorkflowVersionRecord :=
  { tenantId := tenant
    workflowId
    version := newVersionNum
    definitionJson
    changelog := if changelog = "" then "Deployed version " ++ toString newVersionNum
      else changelog
    deployedBy
    isActive := true }

/-- `deploy_version`. -/
def deployVersion (workflowId : String) (definitionJson : WorkflowSpec)
    (changelog deployedBy : String) (r : Registry) :
    Except PyError WorkflowVersionRecord × Registry :=
  match r.getById tenant workflowId with
  | none => (.error ⟨.valueError, "Workflow " ++ workflowId ++ " not found"⟩, r)
  | some wf =>
    let newVersionNum := wf.version + 1
    match (r.deactivate tenant workflowId).addVersion
        (versionRecord tenant workflowId newVersionNum definitionJson changelog deployedBy) with
    | (.error e, _) => (.error e, r)
    | (.ok v, r') => (.ok v, r'.point workflowId newVersionNum definitionJson)

/-- `rollback_to_version`. -/
def rollbackToVersion (workflowId : String) (targetVersion : ℤ) (r : Registry) :
    Except PyError WorkflowVersionRecord × Registry :=
  match r.getById tenant workflowId with
  | none => (.error ⟨.valueError, "Workflow " ++ workflowId ++ " not found"⟩, r)
  | some _ =>
    match r.getByVersion tenant workflowId targetVersion with
    | none => (.error ⟨.valueError, "Target version " ++ toString targetVersion ++
        " does not exist for workflow " ++ workflowId⟩, r)
    | some targetVer =>
      (.ok (targetVer.setActive true),
        ((r.deactivate tenant workflowId).activate targetVer).point workflowId targetVer.version
          targetVer.definitionJson)

/-! ## The workflows router -/

/-- `create_workflow`; `newId` is the id it draws. -/
def createWorkflow (newId : String) (payload : WorkflowDefinition) (email : String)
    (r : Registry) : Except PyError WorkflowRecord × Registry :=
  let wf : WorkflowRecord :=
    { id := newId
      tenantId := tenant
      name := payload.name
      description := payload.description
      status := .draft
      version := 1
      triggerType := payload.trigger.type
      definitionJson := payload.toWorkflowSpec }
  match r.create tenant wf with
  | (.error e, r) => (.error e, r)
  | (.ok wf, r) =>
    let v1 : WorkflowVersionRecord :=
      { tenantId := tenant
        workflowId := newId
        version := 1
        definitionJson := payload.toWorkflowSpec
        changelog := "Initial draft creation"
        deployedBy := email
        isActive := false }
    match r.addVersion v1 with
    | (.error e, r) => (.error e, r)
    | (.ok _, r) => (.ok wf, r)

/-- `WorkflowVersionSummary`. -/
structure VersionSummary where
  workflowId : String
  version : ℤ
  changelog : String
  deployedBy : String
  isActive : Bool
  nodeCount : ℕ

/-- The summary of a version row. -/
def VersionSummary.of (v : WorkflowVersionRecord) : VersionSummary :=
  { workflowId := v.workflowId
    version := v.version
    changelog := v.changelog
    deployedBy := if v.deployedBy = "" then "system" else v.deployedBy
    isActive := v.isActive
    nodeCount := v.definitionJson.nodes.length }

/-- `list_workflow_versions`: a workflow without version rows gets one for its current state. -/
def listWorkflowVersions (workflowId email : String) (r : Registry) :
    Except PyError (List VersionSummary) × Registry :=
  match r.getById tenant workflowId with
  | none => (.error ⟨.httpException 404, "Workflow not found"⟩, r)
  | some wf =>
    match r.listForWorkflow tenant workflowId with
    | [] =>
      let v1 : WorkflowVersionRecord :=
        { tenantId := tenant
          workflowId := wf.id
          version := wf.version
          definitionJson := wf.definitionJson
          changelog := "Base version release"
          deployedBy := email
          isActive := true }
      match r.addVersion v1 with
      | (.error e, r) => (.error e, r)
      | (.ok v, r) => (.ok [.of v], r)
    | vs => (.ok (vs.map .of), r)

end Registry

/-! ## The workflow of the webhook router -/

/-- `_DEFAULT_DEMO_WORKFLOW`, which webhook ingress stores when no workflow listens. -/
def defaultDemoWorkflow : WorkflowSpec :=
  { schemaVersion := 1
    name := "Order Ingress Processing"
    description := "Auto-processes webhook order -> customer lookup -> warehouse notify -> audit"
    trigger := { type := "webhook", config := [("path", .str "/orders")] }
    nodes :=
      [{ id := "node_1", type := "trigger.webhook", name := "Webhook Order Ingress" },
        { id := "node_2", type := "control.condition", name := "Validate Order Payload",
          config := [("schema_ref", .str "order_v1")] },
        { id := "node_3", type := "action.db_query", name := "Customer Lookup",
          connectionId := some "conn_pg_01",
          config := [("sql", .str "SELECT * FROM customers WHERE id = :customer_id")] },
        { id := "node_4", type := "action.http", name := "Notify Warehouse",
          connectionId := some "conn_rest_01",
          config := [("method", .str "POST"), ("endpoint", .str "/shipments")] },
        { id := "node_5", type := "audit.log", name := "Audit Order Record",
          config := [("action", .str "order.dispatched")] }]
    edges :=
      [{ source := "node_1", target := "node_2" }, { source := "node_2", target := "node_3" },
        { source := "node_3", target := "node_4" }, { source := "node_4", target := "node_5" }] }

/-- The schema accepts the default workflow. -/
def defaultDemoDefinition : WorkflowDefinition := ⟨defaultDemoWorkflow, by decide⟩

/-! ## Histories -/

/-- An operation on the version store, with the tenant it is made for. `insert` stands for the
routers that store a workflow without a version row, whatever its fields. -/
inductive Command
  | create (tenant newId : String) (payload : WorkflowDefinition) (email : String)
  | insert (tenant : String) (wf : WorkflowRecord)
  | deploy (tenant workflowId : String) (definitionJson : WorkflowSpec)
      (changelog deployedBy : String)
  | rollback (tenant workflowId : String) (targetVersion : ℤ)
  | list (tenant workflowId email : String)

namespace Registry

/-- What an operation leaves, whether it raised or not. -/
def exec (c : Command) (r : Registry) : Registry :=
  match c with
  | .create tenant newId payload email => (r.createWorkflow tenant newId payload email).2
  | .insert tenant wf => (r.create tenant wf).2
  | .deploy tenant id definitionJson changelog deployedBy =>
    (r.deployVersion tenant id definitionJson changelog deployedBy).2
  | .rollback tenant id targetVersion => (r.rollbackToVersion tenant id targetVersion).2
  | .list tenant id email => (r.listWorkflowVersions tenant id email).2

/-- A history, one operation after the other. -/
def execAll (cs : List Command) (r : Registry) : Registry := cs.foldl (fun r c => r.exec c) r

@[simp] theorem execAll_nil (r : Registry) : r.execAll [] = r := rfl

@[simp] theorem execAll_cons (c : Command) (cs : List Command) (r : Registry) :
    r.execAll (c :: cs) = (r.exec c).execAll cs := rfl

theorem execAll_append (cs cs' : List Command) (r : Registry) :
    r.execAll (cs ++ cs') = (r.execAll cs).execAll cs' := List.foldl_append

/-! ## What each operation can do -/

variable {tenant workflowId : String} {r : Registry}

theorem getById_eq_some {wf : WorkflowRecord} :
    r.getById tenant workflowId = some wf ↔
      wf ∈ r.workflows ∧ wf.id = workflowId ∧ wf.tenantId = tenant := by
  rw [getById, Option.filter_eq_some_iff, Table.get?_eq_some]
  simp [and_assoc]

theorem mem_deactivate {v : WorkflowVersionRecord} :
    v ∈ (r.deactivate tenant workflowId).versions ↔
      ∃ b ∈ r.versions, v = if b.belongsTo tenant workflowId then b.setActive false else b :=
  Table.mem_of_rows_map rfl

theorem map_key_deactivate : (r.deactivate tenant workflowId).versions.rows.map (·.key) =
    r.versions.rows.map (·.key) :=
  Table.map_key_update _ _ (WorkflowVersionRecord.setActive false) fun _ => rfl

theorem mem_activate {v targetVer : WorkflowVersionRecord} :
    v ∈ (r.activate targetVer).versions ↔
      ∃ b ∈ r.versions, v = if b.key = targetVer.key then b.setActive true else b := by
  have h : v ∈ (r.activate targetVer).versions ↔ _ := Table.mem_of_rows_map rfl
  simpa only [decide_eq_true_eq] using h

theorem mem_point {wf : WorkflowRecord} {version : ℤ} {definitionJson : WorkflowSpec} :
    wf ∈ (r.point workflowId version definitionJson).workflows ↔ ∃ b ∈ r.workflows,
      wf = if b.id = workflowId then { b with version, definitionJson, status := .active }
        else b := by
  have h : wf ∈ (r.point workflowId version definitionJson).workflows ↔ _ :=
    Table.mem_of_rows_map rfl
  simpa only [decide_eq_true_eq] using h

theorem addVersion_cases (v : WorkflowVersionRecord) :
    (∃ e, r.addVersion v = (.error e, r) ∧ v.key ∈ r.versions.rows.map (·.key)) ∨
      ∃ r' : Registry, r.addVersion v = (.ok v, r') ∧ v.key ∉ r.versions.rows.map (·.key) ∧
        r'.workflows = r.workflows ∧ ∀ x, x ∈ r'.versions ↔ x ∈ r.versions ∨ x = v := by
  unfold addVersion
  rcases r.versions.insert?_cases v with ⟨hnone, hkey⟩ | ⟨t', hsome, hkey, hrows⟩
  · exact Or.inl ⟨_, by rw [hnone], hkey⟩
  · exact Or.inr ⟨⟨r.workflows, t'⟩, by rw [hsome], hkey, rfl, hrows⟩

variable (tenant) in
theorem create_cases (wf : WorkflowRecord) :
    (∃ e, r.create tenant wf = (.error e, r) ∧ wf.id ∈ r.workflows.rows.map (·.id)) ∨
      ∃ r' : Registry, r.create tenant wf = (.ok { wf with tenantId := tenant }, r') ∧
        wf.id ∉ r.workflows.rows.map (·.id) ∧ r'.versions = r.versions ∧
        ∀ x, x ∈ r'.workflows ↔ x ∈ r.workflows ∨ x = { wf with tenantId := tenant } := by
  unfold create
  rcases r.workflows.insert?_cases { wf with tenantId := tenant } with
    ⟨hnone, hkey⟩ | ⟨t', hsome, hkey, hrows⟩
  · exact Or.inl ⟨_, by simp only [hnone]; rfl, hkey⟩
  · exact Or.inr ⟨⟨t', r.versions⟩, by simp only [hsome], hkey, rfl, hrows⟩

/-- Rows of another workflow are not touched by `deactivate`. -/
theorem mem_deactivate_of_ne {v : WorkflowVersionRecord} (hv : v.workflowId ≠ workflowId) :
    v ∈ (r.deactivate tenant workflowId).versions ↔ v ∈ r.versions := by
  rw [mem_deactivate]
  constructor
  · rintro ⟨b, hb, rfl⟩
    split at hv
    · next hbel => simp_all [WorkflowVersionRecord.belongsTo, WorkflowVersionRecord.setActive]
    · next hbel => rwa [if_neg hbel]
  · intro hmem
    exact ⟨v, hmem, by simp [WorkflowVersionRecord.belongsTo, hv]⟩

theorem mem_activate_of_ne {v targetVer : WorkflowVersionRecord}
    (hv : v.workflowId ≠ targetVer.workflowId) :
    v ∈ (r.activate targetVer).versions ↔ v ∈ r.versions := by
  have hkey : ∀ b : WorkflowVersionRecord, b.workflowId ≠ targetVer.workflowId →
      b.key ≠ targetVer.key := fun b hb h => hb (congrArg (·.2.1) h)
  rw [mem_activate]
  constructor
  · rintro ⟨b, hb, rfl⟩
    split at hv
    · next h => exact absurd h (hkey b hv)
    · next h => rwa [if_neg h]
  · intro hmem
    exact ⟨v, hmem, by rw [if_neg (hkey v hv)]⟩

theorem mem_point_of_ne {wf : WorkflowRecord} (hwf : wf ∈ r.workflows) (hid : wf.id ≠ workflowId)
    (version : ℤ) (definitionJson : WorkflowSpec) :
    wf ∈ (r.point workflowId version definitionJson).workflows :=
  mem_point.2 ⟨wf, hwf, by rw [if_neg hid]⟩

/-- `deploy_version` on a workflow of the tenant: the row clashes and nothing changes, or the row
is stored and the workflow points at it. -/
theorem deployVersion_cases {wf : WorkflowRecord} (hwf : r.getById tenant workflowId = some wf)
    (definitionJson : WorkflowSpec) (changelog deployedBy : String) {row : WorkflowVersionRecord}
    (hrow : row =
      versionRecord tenant workflowId (wf.version + 1) definitionJson changelog deployedBy) :
    (∃ e, r.deployVersion tenant workflowId definitionJson changelog deployedBy = (.error e, r) ∧
        row.key ∈ r.versions.rows.map (·.key)) ∨
      ∃ r' : Registry, r.deployVersion tenant workflowId definitionJson changelog deployedBy =
          (.ok row, r'.point workflowId (wf.version + 1) definitionJson) ∧
        row.key ∉ r.versions.rows.map (·.key) ∧ r'.workflows = r.workflows ∧
        ∀ x, x ∈ r'.versions ↔
          x ∈ (r.deactivate tenant workflowId).versions ∨ x = row := by
  unfold deployVersion
  simp only [hwf, ← hrow]
  rw [← @map_key_deactivate tenant workflowId r]
  rcases addVersion_cases (r := r.deactivate tenant workflowId) row with
    ⟨e, he, hmem⟩ | ⟨r', hok, hkey, hwfs, hrows⟩
  · exact Or.inl ⟨e, by rw [he], hmem⟩
  · exact Or.inr ⟨r', by rw [hok], hkey, hwfs, hrows⟩

theorem deployVersion_not_found (h : r.getById tenant workflowId = none)
    (definitionJson : WorkflowSpec) (changelog deployedBy : String) :
    (r.deployVersion tenant workflowId definitionJson changelog deployedBy).2 = r := by
  simp only [deployVersion, h]

theorem rollbackToVersion_not_found (h : r.getById tenant workflowId = none) (v : ℤ) :
    (r.rollbackToVersion tenant workflowId v).2 = r := by
  simp only [rollbackToVersion, h]

/-- `rollback_to_version` on a workflow of the tenant. -/
theorem rollbackToVersion_cases {wf : WorkflowRecord} (hwf : r.getById tenant workflowId = some wf)
    (targetVersion : ℤ) :
    (r.getByVersion tenant workflowId targetVersion = none ∧
        (r.rollbackToVersion tenant workflowId targetVersion).2 = r) ∨
      ∃ targetVer, r.getByVersion tenant workflowId targetVersion = some targetVer ∧
        (r.rollbackToVersion tenant workflowId targetVersion).2 =
          ((r.deactivate tenant workflowId).activate targetVer).point workflowId
            targetVer.version targetVer.definitionJson := by
  unfold rollbackToVersion
  simp only [hwf]
  rcases r.getByVersion tenant workflowId targetVersion with _ | targetVer
  · exact Or.inl ⟨rfl, rfl⟩
  · exact Or.inr ⟨targetVer, rfl, rfl⟩

/-- `list_workflow_versions` writes nothing once the workflow has a version row. -/
theorem listWorkflowVersions_of_mem {v : WorkflowVersionRecord} (hv : v ∈ r.versions)
    (hb : v.belongsTo tenant workflowId = true) (email : String) :
    (r.listWorkflowVersions tenant workflowId email).2 = r := by
  have hne : r.listForWorkflow tenant workflowId ≠ [] := by
    intro hnil
    have hmem : v ∈ r.listForWorkflow tenant workflowId :=
      List.mem_mergeSort.2 (List.mem_filter.2 ⟨hv, hb⟩)
    rw [hnil] at hmem
    cases hmem
  unfold listWorkflowVersions
  split
  · rfl
  · split
    · next hnil => exact absurd hnil hne
    · rfl

/-! ## Version rows belong to workflows -/

/-- Every version row belongs to a workflow that exists. -/
def Owned (r : Registry) : Prop := ∀ v ∈ r.versions, ∃ wf ∈ r.workflows, wf.id = v.workflowId

theorem owned_empty : empty.Owned := fun v hv => absurd hv (Table.not_mem_empty v)

theorem Owned.addVersion (h : r.Owned) {v : WorkflowVersionRecord} {r' : Registry}
    {res : Except PyError WorkflowVersionRecord} (hadd : r.addVersion v = (res, r'))
    (hv : ∃ wf ∈ r.workflows, wf.id = v.workflowId) : r'.Owned := by
  rcases addVersion_cases (r := r) v with ⟨e, he, -⟩ | ⟨r'', hok, -, hwfs, hrows⟩
  · obtain ⟨-, rfl⟩ := Prod.mk.inj (hadd.symm.trans he)
    exact h
  · obtain ⟨-, rfl⟩ := Prod.mk.inj (hadd.symm.trans hok)
    intro x hx
    rw [hwfs]
    rcases (hrows x).1 hx with hx | rfl
    · exact h x hx
    · exact hv

theorem Owned.point (h : r.Owned) (version : ℤ) (definitionJson : WorkflowSpec) :
    (r.point workflowId version definitionJson).Owned := by
  intro v hv
  obtain ⟨wf, hwf, hid⟩ := h v hv
  refine ⟨_, mem_point.2 ⟨wf, hwf, rfl⟩, ?_⟩
  split <;> exact hid

theorem Owned.deactivate (h : r.Owned) : (r.deactivate tenant workflowId).Owned := by
  intro v hv
  obtain ⟨b, hb, rfl⟩ := mem_deactivate.1 hv
  obtain ⟨wf, hwf, hid⟩ := h b hb
  refine ⟨wf, hwf, hid.trans ?_⟩
  split <;> rfl

theorem Owned.activate (h : r.Owned) (targetVer : WorkflowVersionRecord) :
    (r.activate targetVer).Owned := by
  intro v hv
  obtain ⟨b, hb, rfl⟩ := mem_activate.1 hv
  obtain ⟨wf, hwf, hid⟩ := h b hb
  refine ⟨wf, hwf, hid.trans ?_⟩
  split <;> rfl

theorem Owned.create (h : r.Owned) (wf : WorkflowRecord) : (r.create tenant wf).2.Owned := by
  rcases create_cases (r := r) tenant wf with ⟨e, he, -⟩ | ⟨r', hok, -, hvers, hwfs⟩
  · rwa [he]
  · rw [hok]
    intro v hv
    obtain ⟨wf', hwf', hid⟩ := h v (hvers ▸ hv)
    exact ⟨wf', (hwfs wf').2 (Or.inl hwf'), hid⟩

theorem Owned.exec (h : r.Owned) (c : Command) : (r.exec c).Owned := by
  cases c with
  | create tenant newId payload email =>
    change (r.createWorkflow tenant newId payload email).2.Owned
    unfold createWorkflow
    dsimp only
    rcases create_cases (r := r) tenant _ with ⟨e, he, -⟩ | ⟨r', hok, -, hvers, hwfs⟩
    · rwa [he]
    · rw [hok]
      have h' : r'.Owned := by
        intro v hv
        obtain ⟨wf', hwf', hid⟩ := h v (hvers ▸ hv)
        exact ⟨wf', (hwfs wf').2 (Or.inl hwf'), hid⟩
      have hwf := (hwfs _).2 (Or.inr rfl)
      dsimp only
      split
      · next hv => exact h'.addVersion hv ⟨_, hwf, rfl⟩
      · next hv => exact h'.addVersion hv ⟨_, hwf, rfl⟩
  | insert tenant wf => exact h.create wf
  | deploy tenant id d changelog deployedBy =>
    rcases hwf : r.getById tenant id with _ | wf
    · rwa [Registry.exec, deployVersion_not_found hwf]
    obtain ⟨hmem, hid, -⟩ := getById_eq_some.1 hwf
    rcases deployVersion_cases hwf d changelog deployedBy rfl with
      ⟨e, he, -⟩ | ⟨r', hok, -, hwfs, hrows⟩
    · rwa [Registry.exec, he]
    · rw [Registry.exec, hok]
      refine Owned.point (fun v hv => ?_) _ _
      rw [hwfs]
      rcases (hrows v).1 hv with hv | rfl
      · exact h.deactivate v hv
      · exact ⟨wf, hmem, hid⟩
  | rollback tenant id v =>
    rcases hwf : r.getById tenant id with _ | wf
    · rwa [Registry.exec, rollbackToVersion_not_found hwf]
    rcases rollbackToVersion_cases hwf v with ⟨-, he⟩ | ⟨target, -, hok⟩
    · rwa [Registry.exec, he]
    · rw [Registry.exec, hok]
      exact (h.deactivate.activate target).point _ _
  | list tenant id email =>
    change (r.listWorkflowVersions tenant id email).2.Owned
    unfold listWorkflowVersions
    split
    · exact h
    next wf hwf =>
    split
    · have hmem := (getById_eq_some.1 hwf).1
      dsimp only
      split
      · next hv => exact h.addVersion hv ⟨wf, hmem, rfl⟩
      · next hv => exact h.addVersion hv ⟨wf, hmem, rfl⟩
    · exact h

theorem Owned.execAll (h : r.Owned) (cs : List Command) : (r.execAll cs).Owned := by
  induction cs generalizing r with
  | nil => exact h
  | cons c cs ih => exact ih (h.exec c)

/-- A successful `create_workflow` stores the workflow as a draft, with its first version. -/
theorem createWorkflow_ok {newId email : String} {payload : WorkflowDefinition}
    {wf : WorkflowRecord} {r' : Registry}
    (h : r.createWorkflow tenant newId payload email = (.ok wf, r')) :
    wf.id = newId ∧ wf.tenantId = tenant ∧ wf.status = .draft ∧ wf.version = 1 ∧
      wf.definitionJson = payload.toWorkflowSpec ∧ wf ∈ r'.workflows ∧
      newId ∉ r.workflows.rows.map (·.id) ∧
      ∃ v1 : WorkflowVersionRecord, v1.tenantId = tenant ∧ v1.workflowId = newId ∧
        v1.version = 1 ∧ v1.definitionJson = payload.toWorkflowSpec ∧ v1.isActive = false ∧
        ∀ x, x ∈ r'.versions ↔ x ∈ r.versions ∨ x = v1 := by
  unfold createWorkflow at h
  dsimp only at h
  rcases create_cases (r := r) tenant _ with ⟨e, he, -⟩ | ⟨r₁, hok, hid, hvers, hwfs⟩
  · rw [he] at h
    cases h
  rw [hok] at h
  dsimp only at h
  rcases addVersion_cases (r := r₁) _ with ⟨e, he, -⟩ | ⟨r₂, hok', -, hwfs', hrows⟩
  · rw [he] at h
    cases h
  rw [hok'] at h
  cases h
  refine ⟨rfl, rfl, rfl, rfl, rfl, ?_, hid, _, ?_, ?_, ?_, ?_, ?_, hvers ▸ hrows⟩ <;> try rfl
  rw [hwfs']
  exact (hwfs _).2 (Or.inr rfl)

end Registry

end FlowMesh
