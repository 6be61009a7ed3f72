import FlowMesh.Api.Routers
import FlowMesh.Auth.Envelope
import FlowMesh.Repositories.Requests

/-!
# The router of connections

`toggle_connection`, `rotate_credentials`, `test_connection`, `discover_connection_schema`,
`get_connection_schema_drift` and `set_connection_schema_baseline` of `routers/connections.py`,
behind `enforce_rbac`, as programs over their awaited calls (`ConnOp`): the transactions on the
database, and the calls of a connector. What a handler draws (ids, keys, the time) is an argument.

A response keeps what its handler computed from the database and the connector; the comparison of
two schemas that discovery and drift end with is left out.
-/

namespace FlowMesh.Tables

open Python Database Transaction Async

/-! ## Calls -/

/-- `ConnectionSpec`. -/
structure ConnectionSpec where
  id : String
  tenantId : String
  type : String
  name : String
  config : List (String × Json)
  credentials : Option (List (String × Json)) := none
  agentId : Option String := none

/-- `TestStepResult`. -/
structure TestStepResult where
  name : String
  status : String
  durationMs : PyFloat
  message : String

/-- `TestResult`. -/
structure TestResult where
  success : Bool
  steps : List TestStepResult
  errorMessage : Option String := none

/-- The awaited calls of the handlers. -/
inductive ConnOp
  | db (o : DbOp)
  | test (spec : ConnectionSpec)
  | discover (spec : ConnectionSpec)

/-- What a call answers: a discovered graph is kept as `model_dump` gives it. -/
@[reducible] def ConnOp.Res : ConnOp → Type
  | .db _ => Answer
  | .test _ => TestResult
  | .discover _ => Json

/-- Programs of the router. -/
abbrev Handling (α : Type) : Type := Prog ConnOp ConnOp.Res PyError α

/-- How the connectors answer. -/
structure Plant where
  test : ConnectionSpec → Except PyError TestResult
  discover : ConnectionSpec → Except PyError Json

/-- What a call answers, and the database it leaves. -/
def ConnOp.handle (d : Dialect) (plant : Plant) : Handler ConnOp ConnOp.Res PyError (Db d)
  | .db o => DbOp.handle d o
  | .test spec => fun s => (plant.test spec, s)
  | .discover spec => fun s => (plant.discover spec, s)

/-- What the handlers find in the process: the encryption service, and the types that a connector
is registered for. -/
structure Services where
  crypto : EnvelopeCrypto
  registered : String → Bool

section Handlers

variable (svc : Services) (tenant : String)

/-- A transaction. -/
def performDb (o : DbOp) : Handling Answer := Prog.perform (ConnOp.db o)

/-- An operation of a repository that gives a row or none. -/
def findRow (t : Table) (c : RepoCall) : Handling (Option (Row t)) := do
  return (← performDb (.repo tenant c)).row? t

/-- A transaction whose answer is not used. -/
def runDb (o : DbOp) : Handling Unit := do
  let _ ← performDb o

/-- `repo.get_by_id`, or the response that there is no connection. -/
def getConnection (connectionId : String) : Handling ConnectionRecord := do
  match ← findRow tenant .connections (.getById .connections connectionId) with
  | none => .throw (httpException 404 "Connection not found")
  | some conn => return conn

/-- The credentials of a stored secret. -/
def decryptedCredentials (connectionId : String) (sec : ConnectionSecret) : Except PyError Json :=
  do
    let dek ← svc.crypto.unwrapDek sec.wrappedDek tenant
    svc.crypto.decryptSecret dek sec.ciphertext connectionId

/-- `ConnectionSpec(...)` of a stored connection: its columns have to be dictionaries. -/
def connectionSpec (conn : ConnectionRecord) (credentials : Option Json) (agentId : Option String) :
    Except PyError ConnectionSpec :=
  match conn.configJson, credentials with
  | .obj config, none | .obj config, some .null =>
    .ok ⟨conn.id, conn.tenantId, conn.type, conn.name, config, none, agentId⟩
  | .obj config, some (.obj credentials) =>
    .ok ⟨conn.id, conn.tenantId, conn.type, conn.name, config, some credentials, agentId⟩
  | _, _ => .error ⟨.validationError, "Input should be a valid dictionary"⟩

/-- Raise what a computation raises. -/
def raised {α : Type} : Except PyError α → Handling α
  | .ok a => return a
  | .error e => .throw e

/-! ## Toggling -/

/-- `conn.status = status`. -/
def setStatus (status : String) : Assignment .connections where
  apply r := { r with status }
  entityId_apply _ := rfl
  owner_apply _ := rfl
  keys_apply _ := List.Subset.refl _

/-- `conn.status = status` and `commit`: an attribute that gets the value it was loaded with is
not written. -/
def commitStatus (conn : ConnectionRecord) (status : String) : Handling Unit :=
  runDb (if status = conn.status then .commitNothing
    else .commit .connections conn.id (setStatus status))

/-- What an audit event is recorded with. -/
structure Audit where
  uuid : String
  now : ℤ
  actor : String

/-- `audit_repo.record`. -/
def recordAudit (audit : Audit) (action resource result : String) (metadata : Json) :
    Handling Unit :=
  runDb (.repo tenant (.recordEvent audit.uuid audit.now audit.actor action resource result
    metadata))

/-- `toggle_connection`; `payload` is the wanted status, if there is one. -/
def toggleConnection (connectionId : String) (payload : Option Bool) (audit : Audit) :
    Handling ConnectionRecord := do
  let conn ← getConnection tenant connectionId
  let newEnabled := payload.getD (conn.status = "disabled")
  let status := if newEnabled then "healthy" else "disabled"
  commitStatus conn status
  recordAudit tenant audit (if newEnabled then "connection.enable" else "connection.disable")
    ("connections/" ++ connectionId) "SUCCESS" (.obj [("connection_id", .str connectionId),
      ("enabled", .bool newEnabled), ("status", .str status)])
  return { conn with status }

/-! ## Rotation -/

/-- What a rotation draws. -/
structure RotationDraw where
  uuid : String
  dekUuid : String
  dek : String
  dekNonce : String
  nonce : String
  now : ℤ

/-- The row of a rotation. -/
def newSecret (draw : RotationDraw) (connectionId : String) (credentials : Json) (version : ℤ) :
    ConnectionSecret where
  id := "sec_" ++ draw.uuid
  connectionId
  tenantId := tenant
  ciphertext := svc.crypto.encryptSecret draw.nonce draw.dek credentials connectionId
  wrappedDek := svc.crypto.wrapDek draw.dekNonce draw.dek tenant
  dekId := "dek_" ++ draw.dekUuid
  version
  createdAt := draw.now
  rotatedAt := none

/-- The statements of `rotate_credentials` in its `try` block. -/
def storeSecret (sec : ConnectionSecret) (audit : Audit) : Handling Unit := do
  runDb (.repo tenant (.create .connectionSecrets sec))
  runDb (.refresh .connectionSecrets sec.id)
  runDb (.repo tenant (.purgePreviousVersions sec.connectionId sec.version))
  recordAudit tenant audit "connection.rotate_credentials" ("connections/" ++ sec.connectionId)
    "SUCCESS" (.obj [("version", .int sec.version), ("connection_id", .str sec.connectionId)])

/-- `rotate_credentials`; the new version. -/
def rotateCredentials (connectionId : String) (credentials : Json) (draw : RotationDraw)
    (audit : Audit) : Handling ℤ := do
  let _ ← getConnection tenant connectionId
  let latestSec ← findRow tenant .connectionSecrets (.getLatestForConnection connectionId)
  let newVersion := latestSec.elim 1 (·.version + 1)
  let newSec := newSecret svc tenant draw connectionId credentials newVersion
  match ← (storeSecret tenant newSec audit).attempt with
  | .ok _ => return newVersion
  | .error e =>
    if e.kind = .integrityError then
      .throw (httpException 409
        "Concurrent credential rotation detected. Please refresh and retry.")
    else .throw e

/-! ## Tests -/

/-- `ConnectionTestResult`. -/
structure ConnectionTestResult where
  success : Bool
  connectionId : Option String
  steps : List TestStepResult

/-- The result where no connector is registered. -/
def unverified (type : String) : TestResult where
  success := false
  steps := [⟨"Connector Verification", "skipped", ⟨.finite 0, "0.0"⟩,
    "No connector implementation registered for type '" ++ type ++
      "'. Register a connector to enable live verification."⟩]

/-- The check that a connection is enabled. -/
def requireEnabled (conn : ConnectionRecord) (purpose : String) : Handling Unit :=
  if conn.status = "disabled" then
    .throw (httpException 400 ("Connection '" ++ conn.name ++
      "' is currently disabled. Please enable it before " ++ purpose ++ "."))
  else return ()

/-- The credentials that `test_connection` decrypts. -/
def testCredentials (connectionId : String) : Option ConnectionSecret → Handling (Option Json)
  | none => return none
  | some sec =>
    match decryptedCredentials svc tenant connectionId sec with
    | .ok credentials => return some credentials
    | .error e => .throw (httpException 500 ("Envelope decryption failure: " ++ e.message))

/-- `connector.test(spec)`, where a connector is registered. -/
def verify (type : String) (spec : ConnectionSpec) : Handling TestResult :=
  if svc.registered type then Prog.perform (ConnOp.test spec) else return unverified type

/-- `test_connection`. -/
def testConnection (connectionId : String) (audit : Audit) : Handling ConnectionTestResult := do
  let conn ← getConnection tenant connectionId
  requireEnabled conn "running verification tests"
  let latestSec ← findRow tenant .connectionSecrets (.getLatestForConnection connectionId)
  let credentials ← testCredentials svc tenant connectionId latestSec
  let spec ← raised (connectionSpec conn credentials conn.agentId)
  let testResult ← verify svc conn.type spec
  commitStatus conn (if testResult.success then "healthy" else "degraded")
  recordAudit tenant audit "connection.test" ("connections/" ++ connectionId)
    (if testResult.success then "SUCCESS" else "FAILED")
    (.obj [("success", .bool testResult.success)])
  return ⟨testResult.success, some connectionId, testResult.steps⟩

/-! ## Schemas -/

/-- What a discovery draws. -/
structure SnapshotDraw where
  uuid : String
  now : ℤ

/-- The row of a discovery. -/
def newSnapshot (draw : SnapshotDraw) (connectionId : String) (graph : Json) (isBaseline : Bool)
    (version : ℤ) : SchemaSnapshot where
  id := "snap_" ++ draw.uuid
  connectionId
  tenantId := tenant
  schemaJson := graph
  isBaseline
  version
  createdAt := draw.now

/-- `db.add(snapshot)` and `commit`. -/
def addSnapshot (snapshot : SchemaSnapshot) : Handling Unit :=
  runDb (.repo tenant (.create .schemaSnapshots snapshot))

/-- `connector.discover(spec)`. -/
def discover (spec : ConnectionSpec) : Handling Json := Prog.perform (ConnOp.discover spec)

/-- The credentials that `discover_connection_schema` decrypts. -/
def discoverCredentials (connectionId : String) : Option ConnectionSecret → Handling (Option Json)
  | none => return none
  | some sec => do
    let credentials ← raised (decryptedCredentials svc tenant connectionId sec)
    return some credentials

/-- `discover_connection_schema`: the graph, and the baseline it is compared with. -/
def discoverConnectionSchema (connectionId : String) (draw : SnapshotDraw) :
    Handling (Json × Option SchemaSnapshot) := do
  let conn ← getConnection tenant connectionId
  requireEnabled conn "discovering schema"
  let latestSec ← findRow tenant .connectionSecrets (.getLatestForConnection connectionId)
  let credentials ← discoverCredentials svc tenant connectionId latestSec
  let spec ← raised (connectionSpec conn credentials conn.agentId)
  if svc.registered conn.type then do
    let graph ← discover spec
    let baseline ← findRow tenant .schemaSnapshots (.getBaseline connectionId)
    let latest ← findRow tenant .schemaSnapshots (.getLatest connectionId)
    addSnapshot tenant (newSnapshot tenant draw connectionId graph baseline.isNone
      (latest.elim 1 (·.version + 1)))
    return (graph, baseline)
  else .throw (httpException 400 ("Schema discovery unsupported for type '" ++ conn.type ++ "'"))

/-- `get_connection_schema_drift`: the two snapshots that are compared, if there are any. -/
def getConnectionSchemaDrift (connectionId : String) (draw : SnapshotDraw) :
    Handling (Option (SchemaSnapshot × SchemaSnapshot)) := do
  let baseline ← findRow tenant .schemaSnapshots (.getBaseline connectionId)
  let latest ← findRow tenant .schemaSnapshots (.getLatest connectionId)
  match baseline, latest with
  | some baseline, some latest => return some (baseline, latest)
  | _, _ => do
    let conn ← getConnection tenant connectionId
    if svc.registered conn.type then do
      let spec ← raised (connectionSpec conn none none)
      let graph ← discover spec
      let snap := newSnapshot tenant draw connectionId graph true 1
      addSnapshot tenant snap
      return some (snap, snap)
    else return none

/-- The snapshot that `set_connection_schema_baseline` is about; an empty id is none. -/
def targetSnapshot (connectionId : String) (snapshotId : Option String) :
    Handling (Option SchemaSnapshot) :=
  match orElse snapshotId none with
  | some snapshotId => findRow tenant .schemaSnapshots (.getById .schemaSnapshots snapshotId)
  | none => findRow tenant .schemaSnapshots (.getLatest connectionId)

/-- `set_connection_schema_baseline`. -/
def setConnectionSchemaBaseline (connectionId : String) (snapshotId : Option String)
    (audit : Audit) : Handling SchemaSnapshot := do
  match ← targetSnapshot tenant connectionId snapshotId with
  | none => .throw (httpException 404
      "No schema snapshots found for this connection to set as baseline")
  | some target => do
    runDb (.repo tenant (.setBaseline connectionId target.id))
    recordAudit tenant audit "connection.schema_baseline_set"
      ("connections/" ++ connectionId ++ "/snapshots/" ++ target.id) "SUCCESS"
      (.obj [("version", .int target.version), ("snapshot_id", .str target.id)])
    return target

end Handlers

end FlowMesh.Tables
