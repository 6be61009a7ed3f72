import FlowMesh.Api.Routers
import FlowMesh.Commands.Signing
import FlowMesh.Library.Crew

/-!
# The router of the edge agents

`dispatch_command`, `poll_commands` and `record_command_result` of `routers/agents.py`, and
`AgentCommandRepository` behind them, as programs over the awaited calls. Each call of the
repository is a statement with a commit of its own; between two calls of a request, the others
make theirs.

The surroundings choose what a request cannot know (`Surroundings`): the random id, and whether
the database fails, before or after it carried out the statement.

`trace` is a ghost: which request read, dispatched or wrote which command. No call reads it.
-/

namespace FlowMesh

open Python Database Async

/-! ## Rows -/

/-- `AgentRecord`, as far as the router reads it. -/
structure AgentRecord where
  id : String
  tenantId : String

/-- What a request did to a command. -/
inductive CommandEvent
  /-- `get_pending_commands` returned the command. -/
  | selected (id : String)
  /-- `mark_dispatched` updated it. -/
  | dispatched (id : String)
  /-- `record_result` found it. -/
  | found (id : String)
  /-- `record_result` updated it. -/
  | recorded (id : String)
  /-- A call of the request failed, and with it the request. -/
  | failed
  deriving DecidableEq

/-- The tables `agents` and `agent_commands`, and the trace. -/
structure CommandStore where
  agents : List AgentRecord
  commands : Table AgentCommandRecord String AgentCommandRecord.id
  trace : List (ℕ × CommandEvent)

/-- Add events of the request `i` to the trace. -/
def CommandStore.log (s : CommandStore) (i : ℕ) (events : List CommandEvent) : CommandStore :=
  { s with trace := s.trace ++ events.map (i, ·) }

/-! ## Calls -/

/-- The calls that the router awaits. -/
inductive AgentsOp
  | uuid
  | getAgent (agentId : String)
  | getAgentOf (tenant agentId : String)
  | createCommand (cmd : AgentCommandRecord)
  | getPendingCommands (tenant agentId : String) (limit : ℕ)
  | markDispatched (tenant commandId : String)
  | getCommand (tenant commandId : String)
  | writeResult (loaded : AgentCommandRecord) (status : String)
      (result : Option (List (String × Json))) (error : Option String)
  | refresh (commandId : String)

/-- What the calls return. -/
abbrev AgentsOp.Res : AgentsOp → Type
  | .uuid => String
  | .getAgent _ => Option AgentRecord
  | .getAgentOf _ _ => Option AgentRecord
  | .createCommand _ => Unit
  | .getPendingCommands _ _ _ => List AgentCommandRecord
  | .markDispatched _ _ => Unit
  | .getCommand _ _ => Option AgentCommandRecord
  | .writeResult _ _ _ _ => Unit
  | .refresh _ => AgentCommandRecord

/-- The code of the router. -/
abbrev AgentsM (α : Type) : Type := Prog AgentsOp AgentsOp.Res PyError α

/-- Await a call. -/
abbrev ask (o : AgentsOp) : AgentsM o.Res := Prog.perform o

/-- What a request cannot know. -/
structure Surroundings where
  uuid : String
  /-- The exception of the call, and whether the statement was carried out before it. -/
  fault : Option (PyError × Bool) := none

/-- The row that `create_command` adds. -/
def AgentCommandRecord.queued (cmd : AgentCommandRecord) : AgentCommandRecord :=
  { cmd with status := "QUEUED", result := none, error := none }

/-- `status="DISPATCHED"`. -/
def AgentCommandRecord.markedDispatched (cmd : AgentCommandRecord) : AgentCommandRecord :=
  { cmd with status := "DISPATCHED" }

/-- `x == y` for a column that may be null. -/
def optionEq {α : Type} (eq : α → α → Bool) : Option α → Option α → Bool
  | none, none => true
  | some x, some y => eq x y
  | _, _ => false

/-- The `UPDATE` of a loaded row with new values: a column whose value did not change is left
out. -/
def AgentCommandRecord.written (loaded : AgentCommandRecord) (status : String)
    (result : Option (List (String × Json))) (error : Option String) (row : AgentCommandRecord) :
    AgentCommandRecord :=
  { row with
    status := if loaded.status = status then row.status else status
    result := if optionEq (fun a b => (Json.obj a).eq (.obj b)) loaded.result result then row.result
      else result
    error := if loaded.error = error then row.error else error }

/-- The rows of `get_pending_commands`: the oldest queued commands of the agent. -/
def CommandStore.pending (s : CommandStore) (tenant agentId : String) (limit : ℕ) :
    List AgentCommandRecord :=
  (s.commands.rows.filter fun cmd =>
    cmd.tenantId = tenant ∧ cmd.agentId = agentId ∧ cmd.status = "QUEUED").take limit

/-- The rows that `mark_dispatched` updates. -/
def CommandStore.addressed (tenant commandId : String) (cmd : AgentCommandRecord) : Bool :=
  cmd.id = commandId ∧ cmd.tenantId = tenant

/-- `get_by_id`. -/
def CommandStore.command? (s : CommandStore) (tenant commandId : String) :
    Option AgentCommandRecord :=
  s.commands.rows.find? (addressed tenant commandId)

/-- What the statements do. -/
def CommandStore.effect (uuid : String) (i : ℕ) : Handler AgentsOp AgentsOp.Res PyError CommandStore
  | .uuid, s => (.ok uuid, s)
  | .getAgent agentId, s => (.ok (s.agents.find? (·.id = agentId)), s)
  | .getAgentOf tenant agentId, s =>
    (.ok (s.agents.find? fun a => a.id = agentId ∧ a.tenantId = tenant), s)
  | .createCommand cmd, s =>
    match s.commands.insert? cmd.queued with
    | some commands => (.ok (), { s with commands })
    | none => (.error ⟨.integrityError, "UNIQUE constraint failed: agent_commands.id"⟩, s)
  | .getPendingCommands tenant agentId limit, s =>
    (.ok (s.pending tenant agentId limit),
      s.log i ((s.pending tenant agentId limit).map fun cmd => .selected cmd.id))
  | .markDispatched tenant commandId, s =>
    (.ok (), ({ s with
      commands := s.commands.update (addressed tenant commandId) (·.markedDispatched)
        fun _ => rfl } : CommandStore).log i
      ((s.commands.rows.filter (addressed tenant commandId)).map fun cmd => .dispatched cmd.id))
  | .getCommand tenant commandId, s =>
    (.ok (s.command? tenant commandId),
      s.log i ((s.command? tenant commandId).toList.map fun cmd => .found cmd.id))
  | .writeResult loaded status result error, s =>
    (.ok (), ({ s with
      commands := s.commands.update (·.id = loaded.id) (loaded.written status result error)
        fun _ => rfl } : CommandStore).log i
      ((s.commands.rows.filter (·.id = loaded.id)).map fun cmd => .recorded cmd.id))
  | .refresh commandId, s =>
    match s.commands.get? commandId with
    | some cmd => (.ok cmd, s)
    | none => (.error ⟨.other, "Could not refresh instance"⟩, s)

/-- What the calls do in their surroundings: one that fails ends the request. -/
def CommandStore.handle (i : ℕ) (c : Surroundings) :
    Handler AgentsOp AgentsOp.Res PyError CommandStore
  | o, s =>
    match c.fault, (effect c.uuid i o s).1 with
    | some (e, carriedOut), _ =>
      (.error e, (if carriedOut then (effect c.uuid i o s).2 else s).log i [.failed])
    | none, .error e => (.error e, (effect c.uuid i o s).2.log i [.failed])
    | none, .ok r => (.ok r, (effect c.uuid i o s).2)

namespace CommandStore

variable {i : ℕ} {c : Surroundings} {o : AgentsOp} {s : CommandStore}

theorem mem_trace_log {events : List CommandEvent} {j : ℕ} {event : CommandEvent} :
    (j, event) ∈ (s.log i events).trace ↔ (j, event) ∈ s.trace ∨ j = i ∧ event ∈ events := by
  simp [log, and_comm, eq_comm]

/-- A call answers and its statement is carried out, or it fails and ends the request. -/
theorem handle_cases (i : ℕ) (c : Surroundings) (o : AgentsOp) (s : CommandStore) :
    (∃ r, (effect c.uuid i o s).1 = .ok r ∧ handle i c o s = (.ok r, (effect c.uuid i o s).2)) ∨
      ∃ e t, (t = s ∨ t = (effect c.uuid i o s).2) ∧
        handle i c o s = (.error e, t.log i [.failed]) := by
  unfold handle
  rcases hfault : c.fault with _ | ⟨e, carriedOut⟩
  · cases hr : (effect c.uuid i o s).1 with
    | error e => exact Or.inr ⟨e, _, Or.inr rfl, by simp only [hr]⟩
    | ok r => exact Or.inl ⟨r, rfl, by simp only [hr]⟩
  · cases carriedOut with
    | false => exact Or.inr ⟨e, s, Or.inl rfl, rfl⟩
    | true => exact Or.inr ⟨e, _, Or.inr rfl, rfl⟩

/-- What the statements and the end of a request keep, the calls keep. -/
theorem handle_keeps {I : CommandStore → Prop} (hs : I s) (heffect : I (effect c.uuid i o s).2)
    (hfailed : ∀ t, I t → I (t.log i [.failed])) : I (handle i c o s).2 := by
  rcases handle_cases i c o s with ⟨r, -, h⟩ | ⟨e, t, ht, h⟩
  · rw [h]
    exact heffect
  · rw [h]
    rcases ht with rfl | rfl
    · exact hfailed _ hs
    · exact hfailed _ heffect

/-- The events of a statement. -/
def events (s : CommandStore) : AgentsOp → List CommandEvent
  | .getPendingCommands tenant agentId limit =>
    (s.pending tenant agentId limit).map fun cmd => .selected cmd.id
  | .markDispatched tenant commandId =>
    (s.commands.rows.filter (addressed tenant commandId)).map fun cmd => .dispatched cmd.id
  | .getCommand tenant commandId =>
    (s.command? tenant commandId).toList.map fun cmd => .found cmd.id
  | .writeResult loaded _ _ _ =>
    (s.commands.rows.filter (·.id = loaded.id)).map fun cmd => .recorded cmd.id
  | _ => []

theorem trace_effect (uuid : String) (i : ℕ) (o : AgentsOp) (s : CommandStore) :
    (effect uuid i o s).2.trace = s.trace ++ (s.events o).map (i, ·) := by
  cases o with
  | createCommand cmd =>
    simp only [effect, events]
    cases s.commands.insert? cmd.queued <;> simp
  | refresh commandId =>
    simp only [effect, events]
    cases s.commands.get? commandId <;> simp
  | _ => simp [effect, events, log]

theorem failed_not_mem_events (o : AgentsOp) (s : CommandStore) :
    CommandEvent.failed ∉ s.events o := by
  cases o <;> simp [events]

theorem mem_trace_effect {uuid : String} {j : ℕ} {event : CommandEvent} :
    (j, event) ∈ (effect uuid i o s).2.trace ↔
      (j, event) ∈ s.trace ∨ j = i ∧ event ∈ s.events o := by
  rw [trace_effect]
  simp [and_comm, eq_comm]

/-- The request `i` adds events of its own. -/
def Extends (i : ℕ) (s s' : CommandStore) : Prop :=
  ∃ events : List CommandEvent, s'.trace = s.trace ++ events.map (i, ·)

theorem extends_handle (i : ℕ) (c : Surroundings) (o : AgentsOp) (s : CommandStore) :
    Extends i s (handle i c o s).2 := by
  refine handle_keeps (I := Extends i s) ⟨[], by simp⟩ ⟨s.events o, trace_effect _ i o s⟩ ?_
  rintro t ⟨events, ht⟩
  exact ⟨events ++ [.failed], by simp [log, ht]⟩

theorem Extends.mem_iff {s' : CommandStore} {j : ℕ} {event : CommandEvent} (h : Extends i s s')
    (hne : j ≠ i) : (j, event) ∈ s'.trace ↔ (j, event) ∈ s.trace := by
  obtain ⟨events, h⟩ := h
  rw [h]
  simp [hne.symm]

theorem mem_markDispatched {uuid tenant commandId : String} {cmd : AgentCommandRecord} :
    cmd ∈ (effect uuid i (.markDispatched tenant commandId) s).2.commands ↔ ∃ old ∈ s.commands,
      cmd = if addressed tenant commandId old then old.markedDispatched else old :=
  Table.mem_of_rows_map rfl

theorem mem_writeResult {uuid status : String} {loaded : AgentCommandRecord}
    {result : Option (List (String × Json))} {error : Option String} {cmd : AgentCommandRecord} :
    cmd ∈ (effect uuid i (.writeResult loaded status result error) s).2.commands ↔
      ∃ old ∈ s.commands,
        cmd = if old.id = loaded.id then loaded.written status result error old else old := by
  refine Iff.trans (Table.mem_of_rows_map rfl) ?_
  simp only [decide_eq_true_eq]

theorem mem_pending {tenant agentId : String} {limit : ℕ} {cmd : AgentCommandRecord}
    (h : cmd ∈ s.pending tenant agentId limit) : cmd ∈ s.commands ∧ cmd.status = "QUEUED" := by
  obtain ⟨hmem, hp⟩ := List.mem_filter.1 (List.mem_of_mem_take h)
  exact ⟨hmem, (of_decide_eq_true hp).2.2⟩

end CommandStore

/-! ## Requests -/

/-- `CommandResultRequest`, as far as the router reads it. -/
structure CommandResultRequest where
  status : String
  result : Option (List (String × Json)) := none
  error : Option String := none

/-- A command as `poll_commands` hands it out. -/
structure PolledCommand where
  command : List (String × Json)
  signature : String

/-- What the router answers. -/
inductive AgentsResponse
  | dispatched (commandId agentId status signature : String)
  | created (cmd : AgentCommandRecord)
  | polled (results : List PolledCommand)
  | recorded (commandId executionStatus : String)

section Code

variable (environment : String) (e : Ed25519)

/-- The checks in front of `poll_commands` and `record_command_result`: the header is there or
not needed, the agent exists, and it is the tenant's. -/
def agentOfRequest (agentId : String) (xTenantId : Option String) (purpose : String) :
    AgentsM AgentRecord := do
  if xTenantId.getD "" = "" ∧ environment ∉ ["development", "test"] then
    .throw (httpException 401 ("Authentication / tenant scope required to " ++ purpose))
  else
    match ← ask (.getAgent agentId) with
    | none => .throw (httpException 404 "Agent not found")
    | some agent =>
      if xTenantId.getD "" ≠ "" ∧ xTenantId ≠ some agent.tenantId then
        .throw (httpException 403 ("Cross-tenant access forbidden: Agent '" ++ agentId ++
          "' does not belong to tenant '" ++ xTenantId.getD "" ++ "'"))
      else return agent

/-- `AgentCommandRepository(db, tenant_id)`. -/
def requireTenant (tenant : String) : AgentsM Unit :=
  if tenant = "" then
    .throw ⟨.valueError, "TenantScopedRepository requires an explicit non-empty tenant_id"⟩
  else return ()

/-- The loop of `poll_commands`. -/
def markAll (tenant : String) (results : List PolledCommand) :
    List AgentCommandRecord → AgentsM AgentsResponse
  | [] => return .polled results
  | cmd :: pending => do
    ask (.markDispatched tenant cmd.id)
    markAll tenant (results ++ [⟨cmd.polled, cmd.signature⟩]) pending

/-- `poll_commands`. -/
def pollCommands (agentId : String) (xTenantId : Option String) : AgentsM AgentsResponse := do
  let agent ← agentOfRequest environment agentId xTenantId "poll commands"
  requireTenant agent.tenantId
  let pending ← ask (.getPendingCommands agent.tenantId agent.id 10)
  markAll agent.tenantId [] pending

/-- `record_command_result`, with `record_result` of the repository. -/
def recordCommandResult (agentId commandId : String) (payload : CommandResultRequest)
    (xTenantId : Option String) : AgentsM AgentsResponse := do
  let agent ← agentOfRequest environment agentId xTenantId "record command results"
  requireTenant agent.tenantId
  match ← ask (.getCommand agent.tenantId commandId) with
  | none => .throw (httpException 404 "Command not found")
  | some cmd => do
    ask (.writeResult cmd payload.status payload.result payload.error)
    let updated ← ask (.refresh cmd.id)
    return .recorded commandId updated.status

/-- `create_command`. -/
def createCommand (cmd : AgentCommandRecord) : AgentsM AgentCommandRecord := do
  ask (.createCommand cmd)
  ask (.refresh cmd.id)

/-- `dispatch_command`. -/
def dispatchCommand (tenant agentId : String) (req : DispatchCommandRequest) :
    AgentsM AgentsResponse := do
  requireTenant tenant
  match ← ask (.getAgentOf tenant agentId) with
  | none => .throw (httpException 404 ("Agent '" ++ agentId ++ "' not found"))
  | some agent => do
    let uuid ← ask .uuid
    let cmdId := "cmd-" ++ String.ofList (uuid.toList.take 12)
    let cmd := req.command e tenant agent.id cmdId
    let created ← createCommand cmd
    return .dispatched created.id agent.id created.status cmd.signature

/-- A request to the router, or a call of `create_command` by the engine. -/
inductive AgentsRequest
  | dispatchCommand (tenant agentId : String) (req : DispatchCommandRequest)
  | createCommand (cmd : AgentCommandRecord)
  | pollCommands (agentId : String) (xTenantId : Option String)
  | recordCommandResult (agentId commandId : String) (payload : CommandResultRequest)
      (xTenantId : Option String)

/-- The code of a request. -/
def AgentsRequest.code : AgentsRequest → AgentsM AgentsResponse
  | .dispatchCommand tenant agentId req => FlowMesh.dispatchCommand e tenant agentId req
  | .createCommand cmd => do
    let created ← FlowMesh.createCommand cmd
    return .created created
  | .pollCommands agentId xTenantId => FlowMesh.pollCommands environment agentId xTenantId
  | .recordCommandResult agentId commandId payload xTenantId =>
    FlowMesh.recordCommandResult environment agentId commandId payload xTenantId

/-- Requests in progress. -/
abbrev AgentsCrew : Type := Crew AgentsOp AgentsOp.Res PyError CommandStore AgentsResponse

/-- Requests that come in at a store, before any of them is served. -/
def incoming (s : CommandStore) (requests : List AgentsRequest) : AgentsCrew :=
  ⟨s, requests.map (·.code environment e)⟩

end Code

end FlowMesh
