import FlowMesh.Api.Rotation
import FlowMesh.Engine.Execute

/-!
# Nodes that a connector executes

The branch of `_dispatch_node_type` (`flowmesh_engine/engine.py`) for a node with a connection:
an agent executes it, or the connector that is registered for the type of the connection does. The
other branches are arguments.

The branch reads attributes of the objects that it works with, and Python looks them up when it
gets there (`getattr`). What the objects have is in `secretMethods`, `secretColumns`,
`connectionColumns` and `cryptoMethods`; a text column of time is kept as an integer here.

The branch asks the repository of the secrets for a method that it does not have, so it always
ends there: no call of the connector is made (`run_dispatchConnection`), and the engine takes the
failure for one of the node (`categorizeError_noSuchMethod`).
-/

namespace FlowMesh.Tables

open Python Database Transaction Async

/-! ## Attributes -/

/-- `obj.name`: the attribute of an object with these attributes. -/
def getattr {α : Type} (cls : String) (attrs : List (String × α)) (name : String) :
    Except PyError α :=
  match attrs.find? (·.1 = name) with
  | some attr => .ok attr.2
  | none => .error ⟨.other, "'" ++ cls ++ "' object has no attribute '" ++ name ++ "'"⟩

/-- The columns of a connection. -/
def connectionColumns (conn : ConnectionRecord) : List (String × Json) :=
  [("id", .str conn.id), ("tenant_id", .str conn.tenantId), ("type", .str conn.type),
    ("name", .str conn.name), ("config_json", conn.configJson),
    ("agent_id", conn.agentId.elim .null .str), ("status", .str conn.status),
    ("created_at", .int conn.createdAt)]

/-- The columns of a secret. -/
def secretColumns (sec : ConnectionSecret) : List (String × Json) :=
  [("id", .str sec.id), ("connection_id", .str sec.connectionId),
    ("tenant_id", .str sec.tenantId), ("ciphertext", .str sec.ciphertext),
    ("wrapped_dek", .str sec.wrappedDek), ("dek_id", .str sec.dekId),
    ("version", .int sec.version), ("created_at", .int sec.createdAt),
    ("rotated_at", sec.rotatedAt.elim .null .int)]

/-- The methods of `ConnectionSecretRepository`, its own and those of `TenantScopedRepository`,
with what they do when one text is passed: some take other arguments. -/
def secretMethods : List (String × (String → Option RepoCall)) :=
  [("get_latest_for_connection", fun x => some (.getLatestForConnection x)),
    ("get_by_version", fun _ => none), ("purge_previous_versions", fun _ => none),
    ("get_by_id", fun x => some (.getById .connectionSecrets x)), ("list_all", fun _ => none),
    ("count", fun _ => none), ("create", fun _ => none),
    ("delete", fun x => some (.delete .connectionSecrets x))]

/-- The methods of `EnvelopeCrypto`: none of them takes one argument and gives a dictionary. -/
def cryptoMethods : List (String × (Json → Option Json)) :=
  [("generate_dek", fun _ => none), ("wrap_dek", fun _ => none), ("unwrap_dek", fun _ => none),
    ("encrypt_secret", fun _ => none), ("decrypt_secret", fun _ => none)]

/-- A method was called with arguments that it does not take. -/
def wrongArguments (method : String) : PyError :=
  ⟨.typeError, method ++ "() got arguments that it does not take"⟩

/-! ## Calls -/

/-- `Operation`. -/
structure Operation where
  id : String
  name : String
  parameters : List (String × Json)

/-- `OperationResult`; `data` is `null` where there is none. -/
structure OperationResult where
  success : Bool
  durationMs : PyFloat
  data : Json
  error : Option String
  recordsAffected : ℤ

/-- The awaited calls of the branch. -/
inductive NodeOp
  | db (o : DbOp)
  | execute (spec : ConnectionSpec) (op : Operation)

/-- What a call answers. -/
@[reducible] def NodeOp.Res : NodeOp → Type
  | .db _ => Answer
  | .execute .. => OperationResult

/-- Programs of the branch. -/
abbrev Dispatching (α : Type) : Type := Prog NodeOp NodeOp.Res PyError α

/-- The database, and a ghost: what the connectors were called with. -/
structure Bench (d : Dialect) where
  db : Db d
  executed : List (ConnectionSpec × Operation) := []

/-- What a call answers, and what it leaves. -/
def NodeOp.handle (d : Dialect)
    (execute : ConnectionSpec → Operation → Except PyError OperationResult) :
    Handler NodeOp NodeOp.Res PyError (Bench d)
  | .db o => fun s => ((DbOp.handle d o s.db).1, { s with db := (DbOp.handle d o s.db).2 })
  | .execute spec op => fun s =>
    (execute spec op, { s with executed := s.executed ++ [(spec, op)] })

/-! ## The branch -/

section Branch

variable (svc : Services) (tenant uuid : String) (node : WorkflowNode)
  (resolvedConfig : List (String × Json))

/-- Go on with a value, or raise what was raised. -/
def proceed {α : Type} : Except PyError α → Dispatching α
  | .ok a => return a
  | .error e => .throw e

/-- `sec_repo.get_by_connection_id(conn.id)`. -/
def getByConnectionId (conn : ConnectionRecord) : Dispatching (Option ConnectionSecret) := do
  let method ← proceed (getattr "ConnectionSecretRepository" secretMethods "get_by_connection_id")
  match method conn.id with
  | none => .throw (wrongArguments "get_by_connection_id")
  | some call => return (← Prog.perform (NodeOp.db (.repo tenant call))).row? .connectionSecrets

/-- `envelope_crypto.decrypt(secret)`. -/
def decrypt (secret : Json) : Except PyError Json := do
  let method ← getattr "EnvelopeCrypto" cryptoMethods "decrypt"
  match method secret with
  | none => .error (wrongArguments "decrypt")
  | some creds => .ok creds

/-- The credentials: what cannot be decrypted counts as none. -/
def readCredentials : Option ConnectionSecret → Except PyError Json
  | none => .ok (.obj [])
  | some sec => do
    let secret ← getattr "ConnectionSecret" (secretColumns sec) "encrypted_secret"
    if secret.truthy then
      match decrypt secret with
      | .ok creds => .ok creds
      | .error _ => .ok (.obj [])
    else .ok (.obj [])

/-- `merged_config.update(resolved_config)`. -/
def mergedConfig (config : List (String × Json)) : List (String × Json) :=
  resolvedConfig.foldl (fun items p => Json.assign p.1 p.2 items) config

/-- `dict(conn.config or {})`, updated. -/
def specConfig (conn : ConnectionRecord) : Except PyError (List (String × Json)) := do
  match (← getattr "ConnectionRecord" (connectionColumns conn) "config").or (.obj []) with
  | .obj config => .ok (mergedConfig resolvedConfig config)
  | _ => .error ⟨.typeError, "cannot convert to a dictionary"⟩

/-- `ConnectionSpec(...)`. -/
def nodeSpec (conn : ConnectionRecord) (creds : Json) : Except PyError ConnectionSpec := do
  let config ← specConfig resolvedConfig conn
  match creds with
  | .obj creds => .ok ⟨conn.id, tenant, conn.type, conn.name, config, some creds, none⟩
  | _ => .error ⟨.validationError, "Input should be a valid dictionary"⟩

/-- What follows the first dot of `node.type.lower()`, or all of it. -/
def typeSuffix : String :=
  let nodeType := lower node.type
  String.ofList (if '.' ∈ nodeType then (nodeType.dropWhile (· ≠ '.')).tail else nodeType)

/-- `op_name`. -/
def opName : Json :=
  ((Json.lookup "operation" resolvedConfig).getD .null).or
    (((Json.lookup "action" resolvedConfig).getD .null).or (.str (typeSuffix node)))

/-- `Operation(...)`. -/
def nodeOperation : Except PyError Operation :=
  match opName node resolvedConfig with
  | .str name => .ok ⟨"op_" ++ uuid, name, resolvedConfig⟩
  | _ => .error ⟨.validationError, "Input should be a valid string"⟩

/-- What becomes of the result. -/
def nodeOutput (conn : ConnectionRecord) (op : Operation) (res : OperationResult) :
    Except PyError Json :=
  if res.success then .ok (res.data.or (.obj []))
  else .error ⟨.runtimeError, (orElse res.error none).getD
    ("Connector '" ++ conn.type ++ "' operation '" ++ op.name ++ "' failed")⟩

/-- The statements for a connection that a registered connector executes. -/
def executeDirect (conn : ConnectionRecord) : Dispatching Json := do
  let sec ← getByConnectionId tenant conn
  let creds ← proceed (readCredentials sec)
  let spec ← proceed (nodeSpec tenant resolvedConfig conn creds)
  let op ← proceed (nodeOperation uuid node resolvedConfig)
  let res ← Prog.perform (NodeOp.execute spec op)
  proceed (nodeOutput conn op res)

/-- `conn_repo.get_by_id`. -/
def nodeConnection (connectionId : String) : Dispatching (Option ConnectionRecord) := do
  return (← Prog.perform (NodeOp.db (.repo tenant (.getById .connections connectionId)))).row?
    .connections

/-- `_dispatch_node_type`; `edge` is `_dispatch_edge_agent`, `byType` are the branches that the
type of the node chooses. -/
def dispatchNodeType (edge : String → ConnectionRecord → Dispatching Json)
    (byType : Dispatching Json) : Dispatching Json :=
  match node.connection? with
  | none => byType
  | some connectionId => do
    match ← nodeConnection tenant connectionId with
    | none => byType
    | some conn =>
      match orElse conn.agentId none with
      | some agentId => edge agentId conn
      | none =>
        if svc.registered conn.type then executeDirect tenant uuid node resolvedConfig conn
        else byType

end Branch

/-! ## What it is for -/

/-- The connector was called once, with the credentials that decrypting the latest secret gives,
and with the configuration of the connection overridden by the resolved one. -/
structure UsesStored (svc : Services) (tenant : String) (conn : ConnectionRecord)
    (sec : ConnectionSecret) (resolvedConfig : List (String × Json))
    (executed : List (ConnectionSpec × Operation)) : Prop where
  once : ∃ spec op, executed = [(spec, op)] ∧
    (∃ creds, decryptedCredentials svc tenant conn.id sec = .ok (.obj creds) ∧
      spec.credentials = some creds) ∧
    ∃ config, conn.configJson = .obj config ∧ spec.config = mergedConfig resolvedConfig config

/-- The highest version of the secrets that the tenant has stored for a connection. -/
structure IsLatest {d : Dialect} (s : Db d) (tenant connectionId : String)
    (sec : ConnectionSecret) : Prop where
  stored : sec ∈ secretsOf tenant connectionId s
  highest : ∀ x ∈ secretsOf tenant connectionId s, x.version ≤ sec.version

/-! ## What it does -/

section Runs

variable {d : Dialect} {s : Db d} {tenant : String}
  {execute : ConnectionSpec → Operation → Except PyError OperationResult}

/-- What the look-up of the method raises. -/
def noSuchMethod : PyError :=
  ⟨.other, "'ConnectionSecretRepository' object has no attribute 'get_by_connection_id'"⟩

theorem getattr_getByConnectionId :
    getattr "ConnectionSecretRepository" secretMethods "get_by_connection_id" =
      .error noSuchMethod := by
  have hnone : secretMethods.find? (·.1 = "get_by_connection_id") = none := by
    simp [secretMethods]
  have hmessage : "'" ++ "ConnectionSecretRepository" ++ "' object has no attribute '" ++
      "get_by_connection_id" ++ "'" = noSuchMethod.message := by decide +kernel
  unfold getattr
  rw [hnone]
  exact congrArg (fun message => Except.error (PyError.mk .other message)) hmessage

/-- The engine does not try again. -/
theorem categorizeError_noSuchMethod : categorizeError noSuchMethod = .permanent := by
  decide +kernel

/-- The look-up of the connection. -/
theorem run_nodeConnection (htenant : tenant ≠ "") {conn : ConnectionRecord}
    (hconn : conn ∈ inTable .connections s) (howner : conn.tenantId = tenant) :
    (nodeConnection tenant conn.id).run (NodeOp.handle d execute) ⟨s, []⟩ =
      (.ok (some conn), ⟨s, []⟩) := by
  have hget : committed (TenantScopedRepository.getById tenant .connections conn.id) s =
      (.ok (some conn), s) := committed_of_ok (getById_of_mem (t := .connections) hconn howner)
  have hhandle : DbOp.handle d (.repo tenant (.getById .connections conn.id)) s =
      (.ok (.row (some ⟨.connections, conn⟩)), s) := by
    rw [handle_answer (work_repo htenant _), hget]
    rfl
  unfold nodeConnection
  rw [Prog.run_bind, Prog.run_perform]
  simp only [NodeOp.handle, hhandle]
  simp [Answer.row?]

/-- The branch of a registered connector ends at its first look-up. -/
theorem run_executeDirect (uuid : String) (node : WorkflowNode)
    (resolvedConfig : List (String × Json)) (conn : ConnectionRecord) (b : Bench d) :
    (executeDirect tenant uuid node resolvedConfig conn).run (NodeOp.handle d execute) b =
      (.error noSuchMethod, b) := by
  have hmethod : (getByConnectionId tenant conn).run (NodeOp.handle d execute) b =
      (.error noSuchMethod, b) := by
    unfold getByConnectionId
    rw [getattr_getByConnectionId]
    rfl
  exact Prog.run_bind_error _ hmethod

/-- For a connection without an agent whose type has a connector, the dispatch raises, and no
connector is called. -/
theorem run_dispatchConnection (svc : Services) (uuid : String) (htenant : tenant ≠ "")
    {conn : ConnectionRecord} (hconn : conn ∈ inTable .connections s)
    (howner : conn.tenantId = tenant) (hagent : orElse conn.agentId none = none)
    (hregistered : svc.registered conn.type = true) {node : WorkflowNode}
    (hnode : node.connection? = some conn.id) (resolvedConfig : List (String × Json))
    (edge : String → ConnectionRecord → Dispatching Json) (byType : Dispatching Json) :
    (dispatchNodeType svc tenant uuid node resolvedConfig edge byType).run
      (NodeOp.handle d execute) ⟨s, []⟩ = (.error noSuchMethod, ⟨s, []⟩) := by
  unfold dispatchNodeType
  rw [hnode]
  show Prog.run _ (nodeConnection tenant conn.id >>= _) _ = _
  rw [Prog.run_bind_ok _ (run_nodeConnection htenant hconn howner)]
  simp only [hagent, hregistered, if_true]
  exact run_executeDirect ..

/-- **Stored credentials are not used**: a node with a connection without an agent, whose type has
a connector, is never executed with what is stored. -/
theorem stored_unused (svc : Services) (tenant uuid : String) (s : Db d)
    (execute : ConnectionSpec → Operation → Except PyError OperationResult)
    (conn : ConnectionRecord) (sec : ConnectionSecret) (node : WorkflowNode)
    (resolvedConfig : List (String × Json))
    (edge : String → ConnectionRecord → Dispatching Json) (byType : Dispatching Json)
    (htenant : tenant ≠ "") (hconn : conn ∈ inTable .connections s)
    (howner : conn.tenantId = tenant) (hagent : orElse conn.agentId none = none)
    (hregistered : svc.registered conn.type = true) (_hsec : IsLatest s tenant conn.id sec)
    (hnode : node.connection? = some conn.id) :
    ¬ UsesStored svc tenant conn sec resolvedConfig
      ((dispatchNodeType svc tenant uuid node resolvedConfig edge byType).run
        (NodeOp.handle d execute) ⟨s, []⟩).2.executed := by
  rw [run_dispatchConnection svc uuid htenant hconn howner hagent hregistered hnode]
  rintro ⟨spec, op, hexecuted, -⟩
  cases hexecuted

end Runs

/-! ### A node of the example -/

/-- A node that is bound to the connection `conn_a`. -/
def boundNode : WorkflowNode :=
  ⟨"n1", "action.db_query", "Orders", some "conn_a", [("query", .str "SELECT 1")], none⟩

/-- A connector that answers. -/
def answering (_spec : ConnectionSpec) (_op : Operation) : Except PyError OperationResult :=
  .ok ⟨true, ⟨.finite 1, "1.0"⟩, .obj [], none, 0⟩

/-- The dispatch of the node, with the secret of its connection stored. -/
def boundDispatch : Dispatching Json :=
  dispatchNodeType sealedServices "acme" "0" boundNode boundNode.config
    (fun _ _ => return .obj []) (return .obj [])

theorem sampleConnection_stored :
    sampleConnection "conn_a" ∈ inTable .connections oneSecret := by
  have hconnections : inTable .connections oneSecret = [sampleConnection "conn_a"] := by
    with_unfolding_all rfl
  rw [hconnections]
  exact List.mem_singleton_self _

/-- The secret that is stored for it. -/
def onlySecret : ConnectionSecret :=
  newSecret sealedServices "acme" ⟨"0", "0", "dek_0", "n", "n", 0⟩ "conn_a"
    (.obj [("password", .str "0")]) 1

theorem onlySecret_latest : IsLatest oneSecret "acme" "conn_a" onlySecret := by
  have hsecrets : secretsOf "acme" "conn_a" oneSecret = [onlySecret] := by decide +kernel
  refine ⟨?_, ?_⟩
  · rw [hsecrets]
    exact List.mem_singleton_self _
  · rw [hsecrets]
    intro x hx
    rw [List.mem_singleton.1 hx]

theorem decrypted_onlySecret : decryptedCredentials sealedServices "acme" "conn_a" onlySecret =
    .ok (.obj [("password", .str "0")]) := by
  have hreads : sealedServices.crypto.Reads (.obj [("password", .str "0")]) := rfl
  have hideal : sealedServices.crypto.Ideal := sealedAead_ideal
  unfold decryptedCredentials onlySecret newSecret
  rw [EnvelopeCrypto.unwrapDek_wrapDek hideal]
  exact EnvelopeCrypto.decryptSecret_encryptSecret hideal hreads "n" "dek_0" "conn_a"

/-- The node is not executed with its secret. -/
theorem stored_unused_bound :
    ¬ UsesStored sealedServices "acme" (sampleConnection "conn_a") onlySecret boundNode.config
      (boundDispatch.run (NodeOp.handle .sqlite answering) ⟨oneSecret, []⟩).2.executed :=
  stored_unused sealedServices "acme" "0" oneSecret answering (sampleConnection "conn_a")
    onlySecret boundNode boundNode.config _ _ (by decide) sampleConnection_stored rfl rfl rfl
    onlySecret_latest rfl

/-- A secret that the test of the connection can decrypt is not what the node is executed with. -/
theorem not_uses_stored : ¬ ∀ (svc : Services) (tenant uuid : String) (s : Db .sqlite)
    (execute : ConnectionSpec → Operation → Except PyError OperationResult)
    (conn : ConnectionRecord) (sec : ConnectionSecret) (node : WorkflowNode)
    (resolvedConfig : List (String × Json)), tenant ≠ "" → conn ∈ inTable .connections s →
      conn.tenantId = tenant → orElse conn.agentId none = none →
        svc.registered conn.type = true → IsLatest s tenant conn.id sec →
          (∃ creds, decryptedCredentials svc tenant conn.id sec = .ok (.obj creds)) →
            node.connection? = some conn.id →
              UsesStored svc tenant conn sec resolvedConfig
                ((dispatchNodeType svc tenant uuid node resolvedConfig
                  (fun _ _ => return .obj []) (return .obj [])).run
                    (NodeOp.handle .sqlite execute) ⟨s, []⟩).2.executed := by
  intro hall
  have hused := hall sealedServices "acme" "0" oneSecret answering (sampleConnection "conn_a")
    onlySecret boundNode boundNode.config (by decide) sampleConnection_stored rfl rfl rfl
    onlySecret_latest ⟨_, decrypted_onlySecret⟩ rfl
  obtain ⟨spec, op, hexecuted, -⟩ := hused.once
  have hnone : boundDispatch.run (NodeOp.handle .sqlite answering) ⟨oneSecret, []⟩ =
      (.error noSuchMethod, ⟨oneSecret, []⟩) :=
    run_dispatchConnection sealedServices "0" (by decide) sampleConnection_stored rfl rfl rfl rfl
      boundNode.config _ _
  change (boundDispatch.run (NodeOp.handle .sqlite answering) ⟨oneSecret, []⟩).2.executed = _
    at hexecuted
  rw [hnone] at hexecuted
  cases hexecuted

end FlowMesh.Tables
