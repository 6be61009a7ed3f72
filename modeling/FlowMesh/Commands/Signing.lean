import FlowMesh.Agent.Command
import FlowMesh.Python.Canonical

/-!
# Signed commands

The way of a command from its producer to the edge agent: `canonicalize_json` and
`Ed25519Signer` of `flowmesh_auth/signing.py`, the command that `dispatch_command` or the
engine's `_dispatch_edge_agent` signs, the row that `create_command` stores of it, and the object
that `poll_commands` delivers from the row.

Ed25519 is a parameter: what matters is that a signature verifies for the text that was signed
and for no other (`Ed25519.correct`). A text stands for its UTF-8 encoding.

* The delivered object is the signed one for every `dispatch_command` request; for a command of
  the engine it is so exactly when the resolved limit is neither `null` nor a boolean
  (`delivered_verifies_iff`).
* The agent encodes the command anew, with the fields in the order of a Go struct, and so never
  arrives at the signed text (`not_agrees`).
* Objects have the same text exactly if they are the same but for the order of their members, so a
  signature covers one command (`canonicalizeJson_eq_iff`).
-/

namespace FlowMesh

open JsonText Python

/-! ## Signatures -/

/-- `canonicalize_json`. -/
def canonicalizeJson (data : List (String × Json)) : String := String.ofList (dumps (.obj data))

/-- The control plane's key pair: its public key, `sign` under its private key, and `verify`. -/
structure Ed25519 where
  publicKey : String
  sign : String → String
  verify : String → String → String → Bool
  correct : ∀ signed text, verify publicKey text (sign signed) = true ↔ text = signed

/-- `Ed25519Signer.sign_payload`. -/
def Ed25519.signPayload (e : Ed25519) (payload : List (String × Json)) : String :=
  e.sign (canonicalizeJson payload)

/-- `verify_ed25519_signature` with the control plane's public key. -/
def Ed25519.verifySignature (e : Ed25519) (payload : List (String × Json)) (signature : String) :
    Bool :=
  e.verify e.publicKey (canonicalizeJson payload) signature

/-- The agent's `VerifyCommandPayload`. -/
def verifyCommandPayload (verify : String → String → String → Bool) (publicKey : String)
    (cmd : Policy.Command) (signature : String) : Bool :=
  verify publicKey cmd.canonicalizeJSON signature

/-- A signature that is the signed text itself. -/
def Ed25519.transparent : Ed25519 where
  publicKey := "key"
  sign := id
  verify := fun _ text signature => text = signature
  correct := by simp

/-! ## Rows -/

/-- `AgentCommandRecord`. The rows of a table stand in the order of `created_at`. -/
structure AgentCommandRecord where
  id : String
  tenantId : String
  agentId : String
  type : String := "connector.execute"
  connector : String
  connectionId : String
  operation : String
  resource : Option String
  limit : Option ℤ
  payload : List (String × Json)
  signature : String
  status : String := "QUEUED"
  result : Option (List (String × Json)) := none
  error : Option String := none

/-- The `command` object that `poll_commands` delivers. -/
def AgentCommandRecord.polled (cmd : AgentCommandRecord) : List (String × Json) :=
  [("id", .str cmd.id), ("type", .str cmd.type), ("connector", .str cmd.connector),
    ("connection_id", .str cmd.connectionId), ("operation", .str cmd.operation),
    ("resource", .str (cmd.resource.getD "")), ("limit", .int (cmd.limit.getD 0)),
    ("payload", .obj cmd.payload)]

/-- The object that both producers sign. -/
def commandDict (cmdId connector connectionId : String) (operation resource limit : Json)
    (payload : List (String × Json)) : List (String × Json) :=
  [("id", .str cmdId), ("type", .str "connector.execute"), ("connector", .str connector),
    ("connection_id", .str connectionId), ("operation", operation), ("resource", resource),
    ("limit", limit), ("payload", .obj payload)]

/-! ### `dispatch_command` -/

/-- `DispatchCommandRequest`. -/
structure DispatchCommandRequest where
  connector : String
  connectionId : String
  operation : String
  resource : Option String := none
  limit : Option ℤ := none
  payload : List (String × Json) := []

/-- What `dispatch_command` signs. -/
def DispatchCommandRequest.commandDict (req : DispatchCommandRequest) (cmdId : String) :
    List (String × Json) :=
  FlowMesh.commandDict cmdId req.connector req.connectionId (.str req.operation)
    (.str (req.resource.getD "")) (.int (req.limit.getD 0)) req.payload

/-- The row that `dispatch_command` creates. -/
def DispatchCommandRequest.command (e : Ed25519) (tenant agentId cmdId : String)
    (req : DispatchCommandRequest) : AgentCommandRecord where
  id := cmdId
  tenantId := tenant
  agentId := agentId
  connector := req.connector
  connectionId := req.connectionId
  operation := req.operation
  resource := req.resource
  limit := req.limit
  payload := req.payload
  signature := e.signPayload (req.commandDict cmdId)

/-! ### `_dispatch_edge_agent` -/

/-- `ConnectionRecord`, as far as the engine hands it to an agent. -/
structure ConnectionRecord where
  id : String
  tenantId : String
  type : String
  agentId : Option String

section Edge

variable (nodeType : String) (config : List (String × Json))

/-- `resolved_config.get("operation", ...)`. -/
def edgeOperation : Json :=
  (Json.lookup "operation" config).getD
    (.str (if nodeType = "action.db_query" then "query" else "execute"))

/-- `resolved_config.get("resource") or ... or ""`. -/
def edgeResource : Json :=
  (((Json.lookup "resource" config).getD .null).or
    (((Json.lookup "table" config).getD .null).or
      (((Json.lookup "endpoint" config).getD .null).or (.str ""))))

/-- `resolved_config.get("limit", 100)`. -/
def edgeLimit : Json := (Json.lookup "limit" config).getD (.int 100)

/-- What `_dispatch_edge_agent` signs. -/
def edgeCommandDict (conn : ConnectionRecord) (cmdId : String) : List (String × Json) :=
  commandDict cmdId conn.type conn.id (edgeOperation nodeType config) (edgeResource config)
    (edgeLimit config) config

/-- A value that fits a `String` column that is not null. -/
def textColumn : Json → Option String
  | .str s => some s
  | _ => none

/-- What an `Integer` column stores of a value that fits it. -/
def integerColumn : Json → Option (Option ℤ)
  | .null => some none
  | .int n => some (some n)
  | .bool b => some (some (if b then 1 else 0))
  | _ => none

/-- The row that `_dispatch_edge_agent` creates, where the fields fit the columns. -/
def edgeCommand (e : Ed25519) (agentId : String) (conn : ConnectionRecord) (cmdId : String) :
    Option AgentCommandRecord := do
  let operation ← textColumn (edgeOperation nodeType config)
  let resource ← textColumn (edgeResource config)
  let limit ← integerColumn (edgeLimit config)
  return {
    id := cmdId
    tenantId := conn.tenantId
    agentId := agentId
    connector := conn.type
    connectionId := conn.id
    operation := operation
    resource := some resource
    limit := limit
    payload := config
    signature := e.signPayload (edgeCommandDict nodeType config conn cmdId) }

end Edge

/-! ## What is delivered is what was signed -/

/-- The members of a command, sorted by their keys. -/
theorem dumps_command (id type connector connectionId operation resource limit payload : Json) :
    dumps (.obj [("id", id), ("type", type), ("connector", connector),
      ("connection_id", connectionId), ("operation", operation), ("resource", resource),
      ("limit", limit), ("payload", payload)]) =
      object dumpsStr ([("connection_id", dumps connectionId), ("connector", dumps connector),
        ("id", dumps id)] ++ ("limit", dumps limit) :: [("operation", dumps operation),
          ("payload", dumps payload), ("resource", dumps resource), ("type", dumps type)]) := by
  simp [dumps, dumpsFields, dumpsField, sorted]

/-- The delivered object verifies with the stored signature. -/
def AgentCommandRecord.Verifies (cmd : AgentCommandRecord) (e : Ed25519) : Prop :=
  e.verifySignature cmd.polled cmd.signature = true

theorem dispatched_verifies (e : Ed25519) (tenant agentId cmdId : String)
    (req : DispatchCommandRequest) : (req.command e tenant agentId cmdId).Verifies e :=
  (e.correct _ _).2 rfl

/-- The limit is signed as the integer that the column stores of it. -/
def LimitKept (config : List (String × Json)) : Prop :=
  Json.lookup "limit" config ≠ some .null ∧ ∀ b, Json.lookup "limit" config ≠ some (.bool b)

theorem limitKept_iff {config : List (String × Json)} {limit : Option ℤ}
    (hlimit : integerColumn (edgeLimit config) = some limit) :
    LimitKept config ↔ edgeLimit config = .int (limit.getD 0) := by
  unfold LimitKept edgeLimit at *
  cases hl : Json.lookup "limit" config with
  | none =>
    rw [hl] at hlimit
    obtain rfl : some 100 = limit := Option.some.inj hlimit
    simp
  | some v =>
    rw [hl] at hlimit
    cases v with
    | null => simp
    | bool b => simp
    | int n =>
      obtain rfl : some n = limit := Option.some.inj hlimit
      simp
    | _ => cases hlimit

/-- Texts of a limit and of the integer stored for it. -/
theorem dumps_limit_inj {v : Json} {limit : Option ℤ} (hlimit : integerColumn v = some limit)
    (h : dumps v = dumps (.int (limit.getD 0))) : v = .int (limit.getD 0) := by
  cases v with
  | null =>
    obtain rfl : none = limit := Option.some.inj hlimit
    exact absurd h (by decide +kernel)
  | bool b =>
    obtain rfl : some (if b then 1 else 0) = limit := Option.some.inj hlimit
    cases b <;> exact absurd h (by decide +kernel)
  | int n =>
    obtain rfl : some n = limit := Option.some.inj hlimit
    rfl
  | _ => cases hlimit

theorem textColumn_eq_some {v : Json} {s : String} : textColumn v = some s ↔ v = .str s := by
  cases v <;> simp [textColumn]

/-- A command of the engine verifies exactly when its limit is delivered as it was signed. -/
theorem edge_verifies_iff {e : Ed25519} {nodeType agentId cmdId : String} {conn : ConnectionRecord}
    {config : List (String × Json)} {cmd : AgentCommandRecord}
    (hcmd : edgeCommand nodeType config e agentId conn cmdId = some cmd) :
    cmd.Verifies e ↔ LimitKept config := by
  obtain ⟨operation, hop, resource, hres, limit, hlimit, hrow⟩ :
      ∃ operation, textColumn (edgeOperation nodeType config) = some operation ∧
        ∃ resource, textColumn (edgeResource config) = some resource ∧
          ∃ limit, integerColumn (edgeLimit config) = some limit ∧ _ = some cmd := by
    simpa only [edgeCommand, Option.bind_eq_bind, Option.bind_eq_some_iff, Option.pure_def]
      using hcmd
  obtain rfl := Option.some.inj hrow
  have hsigned : edgeCommandDict nodeType config conn cmdId = commandDict cmdId conn.type conn.id
      (.str operation) (.str resource) (edgeLimit config) config := by
    rw [edgeCommandDict, textColumn_eq_some.1 hop, textColumn_eq_some.1 hres]
  rw [limitKept_iff hlimit, AgentCommandRecord.Verifies, Ed25519.verifySignature,
    Ed25519.signPayload, e.correct, hsigned]
  constructor
  · intro h
    refine dumps_limit_inj hlimit ?_
    have htext := String.ofList_injective h
    rw [AgentCommandRecord.polled, commandDict, dumps_command, dumps_command] at htext
    by_contra hne
    exact object_ne_of_member (fun h => hne h.symm) htext
  · intro h
    rw [h]
    rfl

/-- **Signed bytes are polled bytes**: for every `dispatch_command` request, and for a command of
the engine exactly when the resolved limit is neither `null` nor a boolean. -/
theorem delivered_verifies_iff (e : Ed25519) :
    (∀ tenant agentId cmdId req, (DispatchCommandRequest.command e tenant agentId cmdId req).Verifies
      e) ∧
    ∀ nodeType config agentId conn cmdId cmd,
      edgeCommand nodeType config e agentId conn cmdId = some cmd →
        (cmd.Verifies e ↔ LimitKept config) :=
  ⟨dispatched_verifies e, fun _ _ _ _ _ _ => edge_verifies_iff⟩

/-- A connection behind an agent. -/
def ordersConnection : ConnectionRecord := ⟨"conn_onprem_orders", "acme", "postgres", some "agent-1"⟩

/-- The resolved configuration of a query. -/
def ordersQuery (limit : Json) : List (String × Json) :=
  [("operation", .str "query"), ("resource", .str "orders"), ("limit", limit)]

theorem delivered_verifies_query :
    ∃ cmd, edgeCommand "action.db_query" (ordersQuery (.int 25)) .transparent "agent-1"
      ordersConnection "cmd_1" = some cmd ∧ cmd.Verifies .transparent := by
  have hkept : LimitKept (ordersQuery (.int 25)) := by simp [LimitKept, ordersQuery, Json.lookup]
  exact ⟨_, rfl, ((delivered_verifies_iff .transparent).2 _ _ _ _ _ _ rfl).2 hkept⟩

/-- With the limit `null`, the agent is handed the limit 0 under a signature for `null`. -/
theorem not_delivered_verifies_nullLimit :
    ¬ ∀ (e : Ed25519) nodeType config agentId conn cmdId cmd,
      edgeCommand nodeType config e agentId conn cmdId = some cmd → cmd.Verifies e := by
  intro hall
  have hcmd : ∃ cmd, edgeCommand "action.db_query" (ordersQuery .null) .transparent "agent-1"
      ordersConnection "cmd_1" = some cmd := ⟨_, rfl⟩
  obtain ⟨cmd, hcmd⟩ := hcmd
  have hkept := (edge_verifies_iff hcmd).1 (hall _ _ _ _ _ _ _ hcmd)
  exact hkept.1 rfl

/-! ## What the agent verifies -/

/-- The delivered command, decoded by the agent and encoded again, is the signed text, and the
agent accepts its signature. -/
def AgentCommandRecord.Agrees (cmd : AgentCommandRecord) (e : Ed25519) (fs : Go.Floats)
    (signed : List (String × Json)) : Prop :=
  ∃ command, Policy.Command.decode fs cmd.polled = some command ∧
    command.canonicalizeJSON = canonicalizeJson signed ∧
    verifyCommandPayload e.verify e.publicKey command cmd.signature = true

/-- The agent's text starts with the id, the signed one with the connection's id. -/
theorem canonicalizeJSON_ne (command : Policy.Command) (cmdId connector connectionId : String)
    (operation resource limit : Json) (payload : List (String × Json)) :
    command.canonicalizeJSON ≠ canonicalizeJson
      (commandDict cmdId connector connectionId operation resource limit payload) := by
  intro h
  have htext := String.ofList_injective h
  rw [commandDict, dumps_command] at htext
  have hgo : Go.marshalStr "id" = '"' :: 'i' :: ['d', '"'] := by decide +kernel
  have hpython : dumpsStr "connection_id" = '"' :: 'c' :: "onnection_id\"".toList := by
    decide +kernel
  exact object_ne_of_key hgo hpython (by decide) htext

/-- **The agent and the control plane never agree** on the text of a command, whatever is
requested: the agent rejects every command that `dispatch_command` signs. -/
theorem not_agrees (e : Ed25519) (fs : Go.Floats) (tenant agentId cmdId : String)
    (req : DispatchCommandRequest) :
    ¬ (req.command e tenant agentId cmdId).Agrees e fs (req.commandDict cmdId) := by
  rintro ⟨command, -, htext, -⟩
  exact canonicalizeJSON_ne command _ _ _ _ _ _ _ htext

/-- A query that the agent decodes, and rejects. -/
theorem not_agrees_query :
    (∃ command, Policy.Command.decode ⟨fun _ => none, fun _ => none⟩
      (DispatchCommandRequest.command .transparent "acme" "agent-1" "cmd-1"
        ⟨"postgres", "orders-db", "query", some "orders", some 50, []⟩).polled = some command) ∧
    ¬ ∀ (e : Ed25519) fs tenant agentId cmdId (req : DispatchCommandRequest),
      (req.command e tenant agentId cmdId).Agrees e fs (req.commandDict cmdId) := by
  refine ⟨⟨_, rfl⟩, fun hall => ?_⟩
  obtain ⟨command, hdecode, htext, -⟩ := hall .transparent ⟨fun _ => none, fun _ => none⟩ "acme"
    "agent-1" "cmd-1" ⟨"postgres", "orders-db", "query", some "orders", some 50, []⟩
  exact canonicalizeJSON_ne command _ _ _ _ _ _ _ htext

/-! ## What a signature covers -/

/-- Signatures are equal for the same text only. -/
theorem Ed25519.sign_inj (e : Ed25519) {text text' : String} :
    e.sign text = e.sign text' ↔ text = text' := by
  constructor
  · intro h
    have hverify := (e.correct text text).2 rfl
    rw [h] at hverify
    exact (e.correct text' text).1 hverify
  · exact congrArg e.sign

theorem canonicalizeJson_inj {x y : List (String × Json)} :
    canonicalizeJson x = canonicalizeJson y ↔ dumps (.obj x) = dumps (.obj y) :=
  String.ofList_inj

/-- **Canonical JSON**: objects have the same bytes exactly if they are equal but for the order of
members; and so a signature of the one is that of the other, and verifies for it. -/
theorem canonicalizeJson_eq_iff {x y : List (String × Json)} (hx : (Json.obj x).Plain)
    (hy : (Json.obj y).Plain) :
    ((canonicalizeJson x).toUTF8 = (canonicalizeJson y).toUTF8 ↔ (Json.obj x).Same (.obj y)) ∧
      ∀ e : Ed25519, (e.signPayload x = e.signPayload y ↔ (Json.obj x).Same (.obj y)) ∧
        (e.verifySignature y (e.signPayload x) = true ↔ (Json.obj x).Same (.obj y)) := by
  have htext : canonicalizeJson x = canonicalizeJson y ↔ (Json.obj x).Same (.obj y) :=
    canonicalizeJson_inj.trans (Json.dumps_eq_iff hx hy)
  refine ⟨?_, fun e => ⟨?_, ?_⟩⟩
  · rw [String.toUTF8_eq_toByteArray, String.toUTF8_eq_toByteArray, String.toByteArray_inj, htext]
  · rw [Ed25519.signPayload, Ed25519.signPayload, e.sign_inj, htext]
  · rw [Ed25519.verifySignature, Ed25519.signPayload, e.correct, eq_comm, htext]

/-- Two orders of the members of a query. -/
theorem canonicalizeJson_eq_query :
    (canonicalizeJson (ordersQuery (.list [.int 25, .null]))).toUTF8 =
      (canonicalizeJson (ordersQuery (.list [.int 25, .null])).reverse).toUTF8 := by
  have hplain : (Json.obj (ordersQuery (.list [.int 25, .null]))).Plain := by
    simp [ordersQuery, Json.Plain, Json.PlainFields, Json.PlainField, Json.PlainItems]
  have hplain' : (Json.obj (ordersQuery (.list [.int 25, .null])).reverse).Plain := by
    simp [ordersQuery, Json.Plain, Json.PlainFields, Json.PlainField, Json.PlainItems]
  refine (canonicalizeJson_eq_iff hplain hplain').1.2 ?_
  simp [ordersQuery, Json.Same, Json.SameFields, Json.SameField, Json.SameItems]

end FlowMesh
