import FlowMesh.Engine.Calls
import FlowMesh.Api.Agents

/-!
# Steps on the edge

The engine and the router of the agents side by side. A node whose connection has an agent is
dispatched by `_dispatch_edge_agent`: it signs a command, stores it, and returns at once, so that
the step succeeds while the command waits in the queue. Nothing that the agent reports later
reaches the step.

`dispatchNodeType` refines the engine's dispatch to this; the other calls of the engine stay as
they are. `origins` is a ghost: the node that each step was recorded for.

A step that succeeded does not tell that the agent did (`not_reflects_queued`); it tells that a
signed command was stored for the agent (`edge_step_issued`).
-/

namespace FlowMesh

open Python Database Async

/-! ## Calls -/

/-- The calls of the engine, the calls of the router, and what `_dispatch_node_type` adds: the
look-up of the connection, and the statement that the database refuses because a value does not
fit its column. -/
inductive PlantOp
  | engine (o : Op)
  | agents (o : AgentsOp)
  | getConnection (tenant connectionId : String)
  | misfit

/-- What the calls return. -/
@[reducible] def PlantOp.Res : PlantOp → Type
  | .engine o => o.Res
  | .agents o => o.Res
  | .getConnection _ _ => Option ConnectionRecord
  | .misfit => Empty

/-- Programs over these calls. -/
abbrev PlantM (α : Type) : Type := Prog PlantOp PlantOp.Res PyError α

/-- Make a call. -/
abbrev plantOp (o : PlantOp) : PlantM o.Res := Prog.perform o

/-- A call of the engine. -/
abbrev engineOp (o : Op) : PlantM o.Res := plantOp (.engine o)

/-- A call of the router. -/
abbrev agentsOp (o : AgentsOp) : PlantM o.Res := plantOp (.agents o)

/-- The code of the router over these calls. -/
def AgentsM.plant {α : Type} (p : AgentsM α) : PlantM α := p.interpret agentsOp

section Dispatch

variable (e : Ed25519) (tenant : String)

/-- What `_dispatch_edge_agent` returns. -/
def edgeOutput (agentId : String) (cmd : AgentCommandRecord) : Json :=
  .obj [("execution_plane", .str "edge_agent"), ("agent_id", .str agentId),
    ("command_id", .str cmd.id), ("connector", .str cmd.connector),
    ("connection_id", .str cmd.connectionId), ("operation", .str cmd.operation),
    ("signature", .str cmd.signature), ("status", .str "COMPLETED")]

/-- `_dispatch_edge_agent`. -/
def dispatchEdgeAgent (agentId : String) (conn : ConnectionRecord) (node : WorkflowNode)
    (config : List (String × Json)) : PlantM Json := do
  (requireTenant tenant).plant
  let uuid ← agentsOp .uuid
  let cmdId := "cmd_" ++ String.ofList (uuid.toList.take 10)
  match edgeCommand node.type config e agentId conn cmdId with
  | none => do
    let refused ← plantOp .misfit
    nomatch refused
  | some cmd => do
    let _ ← (createCommand cmd).plant
    return edgeOutput agentId cmd

/-- `_dispatch_node_type`: a connection with an agent leads to the edge, everything else to the
connectors. -/
def dispatchNodeType (runId : String) (node : WorkflowNode) (config : List (String × Json))
    (context : Context) : PlantM DispatchResult :=
  let connectors := engineOp (.dispatchNodeType runId node config context)
  match node.connection? with
  | none => connectors
  | some connectionId => do
    match ← plantOp (.getConnection tenant connectionId) with
    | none => connectors
    | some conn =>
      match conn.agentId.filter (· ≠ "") with
      | none => connectors
      | some agentId => do
        let output ← dispatchEdgeAgent e tenant agentId conn node config
        let durationMs ← engineOp .elapsedMs
        return ⟨output, durationMs⟩

/-- A call of the engine, with the dispatch refined. -/
def refineCall : (o : Op) → PlantM o.Res
  | .dispatchNodeType runId node config context =>
    dispatchNodeType e tenant runId node config context
  | o => engineOp o

/-- The code of the engine over these calls. -/
def onPlant {α : Type} (p : M α) : PlantM α := p.interpret (refineCall e tenant)

end Dispatch

/-! ## The plant -/

/-- The engine's world, the router's store, and the nodes of the steps. -/
structure Plant where
  world : World
  store : CommandStore
  origins : List (ℕ × WorkflowNode)

/-- What the requests cannot know. -/
structure PlantChoice where
  env : Env
  surroundings : Surroundings
  misfit : PyError

/-- The step that a call records, with its node. -/
def Op.origin (o : Op) (w w' : World) : List (ℕ × WorkflowNode) :=
  match o with
  | .recordStep _ _ node _ _ =>
    if (w'.steps.get? w.steps.fresh).isSome then [(w.steps.fresh, node)] else []
  | _ => []

/-- What the calls do; the connections are fixed. -/
def Plant.handle (conns : List ConnectionRecord) (i : ℕ) (c : PlantChoice) :
    Handler PlantOp PlantOp.Res PyError Plant
  | .engine o, s =>
    ((c.env.handle o s.world).1, { s with
      world := (c.env.handle o s.world).2
      origins := s.origins ++ o.origin s.world (c.env.handle o s.world).2 })
  | .agents o, s =>
    ((CommandStore.handle i c.surroundings o s.store).1,
      { s with store := (CommandStore.handle i c.surroundings o s.store).2 })
  | .getConnection tenant connectionId, s =>
    (.ok (conns.find? fun conn => conn.id = connectionId ∧ conn.tenantId = tenant), s)
  | .misfit, s => (.error c.misfit, s)

/-- A call of the engine, or a request to the router. -/
inductive PlantRequest
  | execute (ev : Evaluator) (tenant : String) (a : ExecuteArgs)
  | resumeApproval (ev : Evaluator) (tenant runId : String) (a : ApprovalArgs)
  | agents (environment : String) (request : AgentsRequest)

/-- The code of a request; what it returns is left out. -/
def PlantRequest.code (e : Ed25519) : PlantRequest → PlantM Unit
  | .execute ev tenant a => do
    let _ ← onPlant e tenant (FlowMesh.execute ev tenant a)
  | .resumeApproval ev tenant runId a => do
    let _ ← onPlant e tenant (FlowMesh.resumeApproval ev tenant runId a)
  | .agents environment request => do
    let _ ← (request.code environment e).plant

/-- Requests in progress. -/
abbrev PlantCrew : Type := Crew PlantOp PlantOp.Res PyError Plant Unit

/-- Requests that come in at a plant. -/
def plantCrew (e : Ed25519) (s : Plant) (requests : List PlantRequest) : PlantCrew :=
  ⟨s, requests.map (·.code e)⟩

/-- The agent of a node: its connection is the tenant's and has one. -/
def boundAgent (conns : List ConnectionRecord) (tenant : String) (node : WorkflowNode) :
    Option (ConnectionRecord × String) := do
  let connectionId ← node.connection?
  let conn ← conns.find? fun conn => conn.id = connectionId ∧ conn.tenantId = tenant
  let agentId ← conn.agentId.filter (· ≠ "")
  return (conn, agentId)

/-! ## What a step tells -/

/-- The same command, whatever became of it. -/
def AgentCommandRecord.SameOrder (cmd cmd' : AgentCommandRecord) : Prop :=
  cmd' = { cmd with status := cmd'.status, result := cmd'.result, error := cmd'.error }

/-- A command for the agent was signed and stored, and the output names it. -/
def CommandStore.Issued (e : Ed25519) (s : CommandStore) (node : WorkflowNode)
    (conn : ConnectionRecord) (agentId : String) (output : Json) : Prop :=
  ∃ config cmdId cmd, edgeCommand node.type config e agentId conn cmdId = some cmd ∧
    output = edgeOutput agentId cmd ∧ ∃ cmd' ∈ s.commands, cmd.SameOrder cmd'

section Plant

variable (conns : List ConnectionRecord) (e : Ed25519)

/-- A successful step of a node with an agent, approvals apart, has `P` of the store, its node, the
agent and its output. -/
def Plant.EdgeSteps (P : CommandStore → WorkflowNode → ConnectionRecord → String → Json → Prop)
    (s : Plant) : Prop :=
  ∀ step ∈ s.world.steps, step.status = .success → ∀ node, (step.id, node) ∈ s.origins →
    node.type ≠ "action.approval" → ∀ conn agentId,
      boundAgent conns step.tenantId node = some (conn, agentId) →
        P s.store node conn agentId step.outputSnapshot

/-- Who waits for an approval is an approval, and a successful step has its command. -/
def Plant.Sound (s : Plant) (step : RunStepRecord) : Prop :=
  ∀ node, (step.id, node) ∈ s.origins →
    (step.status = .waitingApproval → node.type = "action.approval") ∧
      (step.status = .success → node.type ≠ "action.approval" → ∀ conn agentId,
        boundAgent conns step.tenantId node = some (conn, agentId) →
          s.store.Issued e node conn agentId step.outputSnapshot)

/-- The invariant of the plant: all steps are sound, and a step has one node. -/
structure Plant.Tidy (s : Plant) : Prop where
  sound : ∀ step ∈ s.world.steps, s.Sound conns e step
  known : ∀ id node, (id, node) ∈ s.origins → ∃ step ∈ s.world.steps, step.id = id
  one : ∀ id node node', (id, node) ∈ s.origins → (id, node') ∈ s.origins → node = node'

/-- What no call undoes: nodes of steps, steps, and commands. -/
structure Plant.Moves (s s' : Plant) : Prop where
  origins : s.origins ⊆ s'.origins
  fresh : ∀ id node, (id, node) ∈ s'.origins →
    (id, node) ∈ s.origins ∨ ∀ step ∈ s.world.steps, step.id ≠ id
  steps : ∀ step ∈ s.world.steps, ∃ step' ∈ s'.world.steps, step'.id = step.id
  commands : ∀ cmd ∈ s.store.commands, ∃ cmd' ∈ s'.store.commands, cmd.SameOrder cmd'

end Plant

section Calls

variable {conns : List ConnectionRecord} {e : Ed25519} {s s' : Plant}

theorem AgentCommandRecord.SameOrder.refl (cmd : AgentCommandRecord) : cmd.SameOrder cmd := rfl

theorem AgentCommandRecord.SameOrder.trans {a b c : AgentCommandRecord} (hab : a.SameOrder b)
    (hbc : b.SameOrder c) : a.SameOrder c := by
  unfold SameOrder at *
  rw [hab] at hbc
  exact hbc

theorem CommandStore.Issued.moves {node : WorkflowNode} {conn : ConnectionRecord}
    {agentId : String} {output : Json} (h : s.store.Issued e node conn agentId output)
    (hmoves : s.Moves s') : s'.store.Issued e node conn agentId output := by
  obtain ⟨config, cmdId, cmd, hcmd, houtput, cmd', hmem, hsame⟩ := h
  obtain ⟨cmd'', hmem', hsame'⟩ := hmoves.commands cmd' hmem
  exact ⟨config, cmdId, cmd, hcmd, houtput, cmd'', hmem', hsame.trans hsame'⟩

theorem Plant.Moves.refl (s : Plant) : s.Moves s where
  origins := List.Subset.refl _
  fresh _ _ h := Or.inl h
  steps step h := ⟨step, h, rfl⟩
  commands cmd h := ⟨cmd, h, .refl cmd⟩

/-! ### Steps -/

/-- A sound step stays sound while it is left alone. -/
theorem Plant.Tidy.sound_moves (hs : s.Tidy conns e) (hmoves : s.Moves s') {step : RunStepRecord}
    (hstep : step ∈ s.world.steps) : s'.Sound conns e step := by
  intro node hnode
  rcases hmoves.fresh _ _ hnode with hold | hnew
  · obtain ⟨hwaiting, hissued⟩ := hs.sound step hstep node hold
    refine ⟨hwaiting, fun hsuccess htype conn agentId hbound => ?_⟩
    exact (hissued hsuccess htype conn agentId hbound).moves hmoves
  · exact absurd rfl (hnew step hstep)

/-- The steps and their nodes stay, commands may come and change. -/
theorem Plant.Tidy.store (hs : s.Tidy conns e) (hworld : s'.world.steps = s.world.steps)
    (horigins : s'.origins = s.origins)
    (hcommands : ∀ cmd ∈ s.store.commands, ∃ cmd' ∈ s'.store.commands, cmd.SameOrder cmd') :
    s'.Tidy conns e ∧ s.Moves s' := by
  have hmoves : s.Moves s' := by
    refine ⟨?_, fun id node h => Or.inl ?_, fun step h => ⟨step, ?_, rfl⟩, hcommands⟩
    · rw [horigins]
      exact List.Subset.refl _
    · rwa [horigins] at h
    · rwa [hworld]
  refine ⟨⟨fun step hstep => ?_, fun id node h => ?_, fun id node node' h h' => ?_⟩, hmoves⟩
  · rw [hworld] at hstep
    exact hs.sound_moves hmoves hstep
  · rw [horigins] at h
    rw [hworld]
    exact hs.known id node h
  · rw [horigins] at h h'
    exact hs.one id node node' h h'

/-- A statement rewrites steps, and the rewritten ones are sound. -/
theorem Plant.Tidy.update (hs : s.Tidy conns e) (hstore : s'.store = s.store)
    (horigins : s'.origins = s.origins) {p : RunStepRecord → Bool}
    {f : RunStepRecord → RunStepRecord} {hf : ∀ step, (f step).id = step.id}
    (hsteps : s'.world.steps = s.world.steps.update p f hf)
    (hsound : ∀ step ∈ s.world.steps, p step = true → s.Sound conns e (f step)) :
    s'.Tidy conns e ∧ s.Moves s' := by
  have hid : ∀ step, (if p step then f step else step).id = step.id := by
    intro step
    split
    · exact hf step
    · rfl
  have hmoves : s.Moves s' := by
    refine ⟨?_, fun id node h => Or.inl ?_, fun step h => ?_, fun cmd h => ⟨cmd, ?_, .refl cmd⟩⟩
    · rw [horigins]
      exact List.Subset.refl _
    · rwa [horigins] at h
    · rw [hsteps]
      exact ⟨_, Table.mem_update.2 ⟨step, h, rfl⟩, hid step⟩
    · rwa [hstore]
  refine ⟨⟨fun step hstep => ?_, fun id node h => ?_, fun id node node' h h' => ?_⟩, hmoves⟩
  · rw [hsteps] at hstep
    obtain ⟨old, hold, rfl⟩ := Table.mem_update.1 hstep
    cases hp : p old with
    | false => simpa [hp] using hs.sound_moves hmoves hold
    | true =>
      have hold' : s.Sound conns e (f old) := hsound old hold hp
      intro node hnode
      rw [horigins] at hnode
      simp only [if_true] at hnode ⊢
      rw [hstore]
      exact hold' node hnode
  · rw [horigins] at h
    obtain ⟨step, hstep, rfl⟩ := hs.known id node h
    rw [hsteps]
    exact ⟨_, Table.mem_update.2 ⟨step, hstep, rfl⟩, hid step⟩
  · rw [horigins] at h h'
    exact hs.one id node node' h h'

/-- A new step, recorded for its node. -/
theorem Plant.Tidy.record (hs : s.Tidy conns e) {node : WorkflowNode}
    {mk : ℕ → RunStepRecord} {hmk : ∀ n, (mk n).id = n} (hstore : s'.store = s.store)
    (hsteps : s'.world.steps = s.world.steps.insertFresh mk hmk)
    (horigins : s'.origins = s.origins ++ [(s.world.steps.fresh, node)])
    (hnew : (mk s.world.steps.fresh).status ≠ .success)
    (hwaiting : (mk s.world.steps.fresh).status = .waitingApproval →
      node.type = "action.approval") :
    s'.Tidy conns e ∧ s.Moves s' := by
  have hfresh : ∀ step ∈ s.world.steps, step.id ≠ s.world.steps.fresh := by
    intro step hstep hid
    exact s.world.steps.fresh_not_mem (hid ▸ List.mem_map_of_mem hstep)
  have hmoves : s.Moves s' := by
    refine ⟨?_, fun id node' h => ?_, fun step h => ⟨step, ?_, rfl⟩,
      fun cmd h => ⟨cmd, ?_, .refl cmd⟩⟩
    · rw [horigins]
      exact List.subset_append_left _ _
    · rw [horigins] at h
      rcases List.mem_append.1 h with h | h
      · exact Or.inl h
      · obtain ⟨rfl, rfl⟩ := Prod.mk.inj (List.mem_singleton.1 h)
        exact Or.inr hfresh
    · rw [hsteps]
      exact Table.mem_insertFresh.2 (Or.inl h)
    · rwa [hstore]
  refine ⟨⟨fun step hstep => ?_, fun id node' h => ?_, fun id n n' h h' => ?_⟩, hmoves⟩
  · rw [hsteps] at hstep
    rcases Table.mem_insertFresh.1 hstep with hold | rfl
    · exact hs.sound_moves hmoves hold
    · intro node' hnode'
      rw [horigins, hmk] at hnode'
      rcases List.mem_append.1 hnode' with hold | hmem
      · obtain ⟨step, hstep', hid⟩ := hs.known _ _ hold
        exact absurd hid (hfresh step hstep')
      · obtain ⟨-, rfl⟩ := Prod.mk.inj (List.mem_singleton.1 hmem)
        exact ⟨hwaiting, fun hsuccess => absurd hsuccess hnew⟩
  · rw [horigins] at h
    rw [hsteps]
    rcases List.mem_append.1 h with hold | hmem
    · obtain ⟨step, hstep, hid⟩ := hs.known _ _ hold
      exact ⟨step, Table.mem_insertFresh.2 (Or.inl hstep), hid⟩
    · obtain ⟨rfl, -⟩ := Prod.mk.inj (List.mem_singleton.1 hmem)
      exact ⟨_, Table.mem_insertFresh.2 (Or.inr rfl), hmk _⟩
  · rw [horigins] at h h'
    -- the new number is nobody else's
    have hnot : ∀ n, (s.world.steps.fresh, n) ∉ s.origins := by
      intro n hn
      obtain ⟨step, hstep, hid⟩ := hs.known _ _ hn
      exact hfresh step hstep hid
    rcases List.mem_append.1 h with h | h
    · rcases List.mem_append.1 h' with h' | h'
      · exact hs.one id n n' h h'
      · obtain ⟨rfl, -⟩ := Prod.mk.inj (List.mem_singleton.1 h')
        exact absurd h (hnot n)
    · obtain ⟨rfl, rfl⟩ := Prod.mk.inj (List.mem_singleton.1 h)
      rcases List.mem_append.1 h' with h' | h'
      · exact absurd h' (hnot n')
      · exact (Prod.mk.inj (List.mem_singleton.1 h')).2.symm

/-! ### Calls -/

/-- A call takes effect on the steps or leaves them. -/
theorem steps_handle (env : Env) (o : Op) (w : World) :
    (env.handle o w).2.steps = w.steps ∨ (env.handle o w).2.steps = (env.effect o w).2.steps := by
  unfold Env.handle
  rcases env.faultOf o w with _ | ⟨exc, _ | _⟩
  · exact Or.inr rfl
  · exact Or.inl rfl
  · exact Or.inr rfl

variable {i : ℕ} {c : PlantChoice}

/-- A call of the engine that touches no step. -/
theorem Plant.Tidy.engine_quiet (hs : s.Tidy conns e) {o : Op}
    (hsteps : (c.env.handle o s.world).2.steps = s.world.steps)
    (horigin : o.origin s.world (c.env.handle o s.world).2 = []) :
    (Plant.handle conns i c (.engine o) s).2.Tidy conns e ∧
      s.Moves (Plant.handle conns i c (.engine o) s).2 := by
  refine hs.store hsteps ?_ fun cmd h => ⟨cmd, h, .refl cmd⟩
  simp [Plant.handle, horigin]

theorem get?_newStep (w : World) (tenant runId : String) (node : WorkflowNode) (status : StepStatus)
    (snapshot : List (String × Json)) :
    (w.steps.insertFresh (World.newStep tenant runId node status snapshot) fun _ => rfl).get?
      w.steps.fresh = some (World.newStep tenant runId node status snapshot w.steps.fresh) :=
  Table.get?_eq_some.2 ⟨Table.mem_insertFresh.2 (Or.inr rfl), rfl⟩

theorem Plant.Tidy.recordStep (hs : s.Tidy conns e) (tenant runId : String) {node : WorkflowNode}
    {status : StepStatus} (snapshot : List (String × Json)) (hstatus : status ≠ .success)
    (hwaiting : status = .waitingApproval → node.type = "action.approval") :
    (Plant.handle conns i c (.engine (.recordStep tenant runId node status snapshot)) s).2.Tidy
        conns e ∧
      s.Moves (Plant.handle conns i c (.engine (.recordStep tenant runId node status snapshot)) s).2
      := by
  rcases steps_handle c.env (.recordStep tenant runId node status snapshot) s.world with h | h
  · refine hs.engine_quiet h ?_
    have hnone : s.world.steps.get? s.world.steps.fresh = none := by
      refine Table.get?_eq_none.2 fun step hstep hid => ?_
      exact s.world.steps.fresh_not_mem (hid ▸ List.mem_map_of_mem hstep)
    simp [Op.origin, h, hnone]
  · have hsteps : (c.env.handle (.recordStep tenant runId node status snapshot) s.world).2.steps =
        s.world.steps.insertFresh (World.newStep tenant runId node status snapshot)
          fun _ => rfl := h
    have horigins : (Plant.handle conns i c
        (.engine (.recordStep tenant runId node status snapshot)) s).2.origins =
          s.origins ++ [(s.world.steps.fresh, node)] := by
      simp [Plant.handle, Op.origin, hsteps, get?_newStep]
    exact hs.record rfl hsteps horigins hstatus hwaiting

theorem Plant.Tidy.updateStep (hs : s.Tidy conns e) (tenant : String) (stepId : ℕ)
    (status : StepStatus) (durationMs : PyFloat) (output : Json) (error : Option String)
    (hsound : ∀ step ∈ s.world.steps, step.id = stepId → step.tenantId = tenant →
      s.Sound conns e { step with status, durationMs, outputSnapshot := output, error }) :
    (Plant.handle conns i c
        (.engine (.updateStep tenant stepId status durationMs output error)) s).2.Tidy conns e ∧
      s.Moves (Plant.handle conns i c
        (.engine (.updateStep tenant stepId status durationMs output error)) s).2 := by
  rcases steps_handle c.env (.updateStep tenant stepId status durationMs output error) s.world with
    h | h
  · exact hs.engine_quiet h rfl
  · have hsteps : (c.env.handle (.updateStep tenant stepId status durationMs output error)
        s.world).2.steps =
        s.world.steps.update (fun step => step.id = stepId ∧ step.tenantId = tenant)
          (fun step => { step with status, durationMs, outputSnapshot := output, error })
          fun _ => rfl := h
    refine hs.update rfl (by simp [Plant.handle, Op.origin]) hsteps fun step hstep hp => ?_
    obtain ⟨hid, htenant⟩ := of_decide_eq_true hp
    exact hsound step hstep hid htenant

/-- An approval of a step that is known to wait for one. -/
theorem Plant.Tidy.approveStep (hs : s.Tidy conns e) (tenant : String) {stepId : ℕ} (output : Json)
    (happroval : ∀ node, (stepId, node) ∈ s.origins → node.type = "action.approval") :
    (Plant.handle conns i c (.engine (.approveStep tenant stepId output)) s).2.Tidy conns e ∧
      s.Moves (Plant.handle conns i c (.engine (.approveStep tenant stepId output)) s).2 := by
  rcases steps_handle c.env (.approveStep tenant stepId output) s.world with h | h
  · exact hs.engine_quiet h rfl
  · simp only [Env.effect] at h
    rcases hget : (s.world.steps.get? stepId).filter (·.tenantId = tenant) with _ | step
    · rw [hget] at h
      exact hs.engine_quiet h rfl
    · rw [hget] at h
      have hsteps : (c.env.handle (.approveStep tenant stepId output) s.world).2.steps =
          s.world.steps.update (fun step => step.id = stepId ∧ step.tenantId = tenant)
            (fun step => { step with
              status := .success, durationMs := ⟨.finite 1, "1.0"⟩, outputSnapshot := output,
              error := none }) fun _ => rfl := h
      refine hs.update rfl (by simp [Plant.handle, Op.origin]) hsteps fun step hstep hp => ?_
      obtain ⟨rfl, -⟩ := of_decide_eq_true hp
      exact fun node hnode =>
        ⟨fun hst => (by cases hst), fun _ htype => absurd (happroval node hnode) htype⟩

theorem Plant.Tidy.engine_calm (hs : s.Tidy conns e) {o : Op} (ho : o.Calm) :
    (Plant.handle conns i c (.engine o) s).2.Tidy conns e ∧
      s.Moves (Plant.handle conns i c (.engine o) s).2 := by
  have hquiet : (c.env.effect o s.world).2.steps = s.world.steps →
      o.origin s.world (c.env.handle o s.world).2 = [] →
        (Plant.handle conns i c (.engine o) s).2.Tidy conns e ∧
          s.Moves (Plant.handle conns i c (.engine o) s).2 := by
    intro hsteps horigin
    rcases steps_handle c.env o s.world with h | h
    · exact hs.engine_quiet h horigin
    · exact hs.engine_quiet (h.trans hsteps) horigin
  cases o with
  | approveStep => exact ho.elim
  | recordStep tenant runId node status snapshot => exact hs.recordStep _ _ _ ho.1 ho.2
  | updateStep tenant stepId status durationMs output error =>
    refine hs.updateStep _ _ _ _ _ _ fun step _ _ _ node _ => ?_
    exact ⟨fun h => absurd h ho.2, fun h => absurd h ho.1⟩
  | createRun run definition =>
    refine hquiet ?_ rfl
    simp only [Env.effect]
    split <;> rfl
  | getByIdempotencyKey tenant key =>
    refine hquiet ?_ rfl
    simp only [Env.effect]
    split <;> rfl
  | _ => exact hquiet rfl rfl

/-- The router changes a command's status, result and error only. -/
theorem commands_effect (uuid : String) (i : ℕ) (o : AgentsOp) (t : CommandStore) :
    ∀ cmd ∈ t.commands, ∃ cmd' ∈ (CommandStore.effect uuid i o t).2.commands,
      cmd.SameOrder cmd' := by
  intro cmd hcmd
  cases o with
  | createCommand new =>
    simp only [CommandStore.effect]
    rcases Table.insert?_cases t.commands new.queued with ⟨h, -⟩ | ⟨t', h, -, hmem⟩
    · rw [h]
      exact ⟨cmd, hcmd, .refl cmd⟩
    · rw [h]
      exact ⟨cmd, (hmem cmd).2 (Or.inl hcmd), .refl cmd⟩
  | markDispatched tenant commandId =>
    refine ⟨_, CommandStore.mem_markDispatched.2 ⟨cmd, hcmd, rfl⟩, ?_⟩
    split_ifs
    · rfl
    · exact .refl cmd
  | writeResult loaded status result error =>
    refine ⟨_, CommandStore.mem_writeResult.2 ⟨cmd, hcmd, rfl⟩, ?_⟩
    split_ifs
    · rfl
    · exact .refl cmd
  | refresh commandId =>
    simp only [CommandStore.effect]
    cases t.commands.get? commandId <;> exact ⟨cmd, hcmd, .refl cmd⟩
  | _ => exact ⟨cmd, hcmd, .refl cmd⟩

theorem Plant.Tidy.agents (hs : s.Tidy conns e) (o : AgentsOp) :
    (Plant.handle conns i c (.agents o) s).2.Tidy conns e ∧
      s.Moves (Plant.handle conns i c (.agents o) s).2 := by
  refine hs.store rfl rfl ?_
  exact CommandStore.handle_keeps
    (I := fun t => ∀ cmd ∈ s.store.commands, ∃ cmd' ∈ t.commands, cmd.SameOrder cmd')
    (fun cmd h => ⟨cmd, h, .refl cmd⟩) (commands_effect _ i o s.store) fun _ h => h

end Calls

/-! ## Programs -/

section Programs

variable {conns : List ConnectionRecord} {e : Ed25519} {i : ℕ} {s s' : Plant}

/-- The contract of the plant. -/
def edgeContract (conns : List ConnectionRecord) (e : Ed25519) : Crew.Contract Plant :=
  ⟨Plant.Tidy conns e, fun _ s s' => s.Moves s'⟩

/-- The program keeps the contract and ends with `Q`. -/
def Keeps (conns : List ConnectionRecord) (e : Ed25519) (i : ℕ) {α : Type} (p : PlantM α)
    (Q : Except PyError α → Plant → Prop) (s : Plant) : Prop :=
  (edgeContract conns e).Upholds (Plant.handle conns) (fun _ _ _ _ => True) i p Q s

/-- A fact that no call of the plant destroys. -/
def Lasting (F : Plant → Prop) : Prop := ∀ s s', s.Moves s' → F s → F s'

theorem Lasting.rely {F : Plant → Prop} (hF : Lasting F) (h : (edgeContract conns e).Rely i s s')
    (hs : F s) : F s' :=
  h.keeps (fun _ _ _ _ _ hmoves hs => hF _ _ hmoves hs) hs

theorem Lasting.and {F F' : Plant → Prop} (hF : Lasting F) (hF' : Lasting F') :
    Lasting fun s => F s ∧ F' s :=
  fun s s' hmoves h => ⟨hF s s' hmoves h.1, hF' s s' hmoves h.2⟩

theorem Lasting.true : Lasting fun _ => True := fun _ _ _ _ => trivial

/-- The calls that make no step successful. -/
def PlantOp.Calm : PlantOp → Prop
  | .engine o => o.Calm
  | _ => True

theorem Plant.Tidy.calm (hs : s.Tidy conns e) {c : PlantChoice} {o : PlantOp} (ho : o.Calm) :
    (Plant.handle conns i c o s).2.Tidy conns e ∧ s.Moves (Plant.handle conns i c o s).2 := by
  cases o with
  | engine o => exact hs.engine_calm ho
  | agents o => exact hs.agents o
  | getConnection tenant connectionId => exact ⟨hs, .refl s⟩
  | misfit => exact ⟨hs, .refl s⟩

/-- A program of calm calls keeps every lasting fact. -/
theorem keeps_calm {α : Type} {p : PlantM α} (hp : p.Uses PlantOp.Calm) {F : Plant → Prop}
    (hF : Lasting F) (hs : F s) : Keeps conns e i p (fun _ s => F s) s := by
  induction p generalizing s with
  | pure a => exact hs
  | throw exc => exact hs
  | call o k ih =>
    intro s' hrely hinv c _
    obtain ⟨htidy, hmoves⟩ := hinv.calm hp.1
    exact ⟨htidy, hmoves, ih _ (hp.2 _) (hF _ _ hmoves (hF.rely hrely hs))⟩

theorem keeps_op (o : PlantOp) (ho : o.Calm) {F : Plant → Prop} (hF : Lasting F) (hs : F s) :
    Keeps conns e i (plantOp o) (fun _ s => F s) s :=
  keeps_calm (.perform ho) hF hs

/-- One call whose answer is of interest. -/
theorem keeps_call {o : PlantOp} {Q : Except PyError o.Res → Plant → Prop}
    (ho : ∀ s' c, (edgeContract conns e).Rely i s s' → s'.Tidy conns e →
      (Plant.handle conns i c o s').2.Tidy conns e ∧ s'.Moves (Plant.handle conns i c o s').2 ∧
        Q (Plant.handle conns i c o s').1 (Plant.handle conns i c o s').2) :
    Keeps conns e i (plantOp o) Q s :=
  .perform fun s' hrely hinv c _ => ho s' c hrely hinv

theorem Keeps.bind {α β : Type} {p : PlantM α} {f : α → PlantM β}
    {R : Except PyError α → Plant → Prop} {Q : Except PyError β → Plant → Prop}
    (hp : Keeps conns e i p R s) (hok : ∀ a s, R (.ok a) s → Keeps conns e i (f a) Q s)
    (herr : ∀ exc s, R (.error exc) s → Q (.error exc) s) : Keeps conns e i (p >>= f) Q s :=
  Crew.Contract.Upholds.bind hp hok herr

theorem Keeps.mono {α : Type} {p : PlantM α} {Q Q' : Except PyError α → Plant → Prop}
    (hp : Keeps conns e i p Q s) (hQ : ∀ r s, Q r s → Q' r s) : Keeps conns e i p Q' s :=
  Crew.Contract.Upholds.mono hp hQ

/-- A program that keeps a fact, then one that starts from it. -/
theorem Keeps.then {α β : Type} {p : PlantM α} {f : α → PlantM β} {F : Plant → Prop}
    (hp : Keeps conns e i p (fun _ s => F s) s)
    (hf : ∀ a s, F s → Keeps conns e i (f a) (fun _ s => F s) s) :
    Keeps conns e i (p >>= f) (fun _ s => F s) s :=
  hp.bind (fun a s h => hf a s h) fun _ _ h => h

/-! ### The dispatch -/

theorem uses_plant {α : Type} (p : AgentsM α) : p.plant.Uses PlantOp.Calm :=
  Prog.Uses.interpret _ (.all (P := fun _ => True) (fun _ => trivial) p)
    fun o _ => .perform (o := PlantOp.agents o) trivial

theorem uses_dispatchEdgeAgent (tenant agentId : String) (conn : ConnectionRecord)
    (node : WorkflowNode) (config : List (String × Json)) :
    (dispatchEdgeAgent e tenant agentId conn node config).Uses PlantOp.Calm := by
  refine (uses_plant _).bind fun _ => .bind (.perform trivial) fun uuid => ?_
  dsimp only
  split
  · exact .bind (.perform trivial) fun refused => nomatch refused
  · exact (uses_plant _).bind fun _ => .ret _

theorem uses_dispatchNodeType (tenant runId : String) (node : WorkflowNode)
    (config : List (String × Json)) (context : Context) :
    (dispatchNodeType e tenant runId node config context).Uses PlantOp.Calm := by
  have hconnectors : (engineOp (.dispatchNodeType runId node config context)).Uses PlantOp.Calm :=
    .perform trivial
  unfold dispatchNodeType
  dsimp only
  split
  · exact hconnectors
  · refine .bind (.perform trivial) fun conn? => ?_
    cases conn? with
    | none => exact hconnectors
    | some conn =>
      dsimp only
      split
      · exact hconnectors
      · exact (uses_dispatchEdgeAgent ..).bind fun _ => .bind (.perform trivial) fun _ => .ret _

/-- A program of the engine whose calls are calm is calm on the plant. -/
theorem uses_onPlant {α : Type} {tenant : String} {p : M α} (hp : p.Uses Op.Calm) :
    (onPlant e tenant p).Uses PlantOp.Calm := by
  refine Prog.Uses.interpret _ hp fun o ho => ?_
  cases o with
  | dispatchNodeType runId node config context => exact uses_dispatchNodeType ..
  | _ => exact .perform ho

/-! ### The dispatch keeps its word -/

section Node

variable {tenant : String} {node : WorkflowNode}

theorem onPlant_bind {α β : Type} (p : M α) (f : α → M β) :
    onPlant e tenant (p >>= f) = onPlant e tenant p >>= fun a => onPlant e tenant (f a) :=
  Prog.interpret_bind _ p f

theorem onPlant_perform (o : Op) : onPlant e tenant (perform o) = refineCall e tenant o :=
  Prog.interpret_perform _ o

theorem onPlant_attempt {α : Type} (p : M α) :
    onPlant e tenant p.attempt = (onPlant e tenant p).attempt :=
  Prog.interpret_attempt _ p

/-- If the node has an agent, a command was issued for it. -/
def Delivered (conns : List ConnectionRecord) (e : Ed25519) (tenant : String) (node : WorkflowNode)
    (output : Json) (s : Plant) : Prop :=
  ∀ conn agentId, boundAgent conns tenant node = some (conn, agentId) →
    s.store.Issued e node conn agentId output

theorem lasting_issued (conn : ConnectionRecord) (agentId : String) (output : Json) :
    Lasting fun s => s.store.Issued e node conn agentId output :=
  fun _ _ hmoves h => h.moves hmoves

theorem lasting_delivered (conns : List ConnectionRecord) (e : Ed25519) (tenant : String)
    (node : WorkflowNode) (output : Json) : Lasting (Delivered conns e tenant node output) :=
  fun _ _ hmoves h conn agentId hbound => (h conn agentId hbound).moves hmoves

theorem lasting_origin (stepId : ℕ) (node : WorkflowNode) :
    Lasting fun s => (stepId, node) ∈ s.origins :=
  fun _ _ hmoves h => hmoves.origins h

/-- A stored command was not there before, and is the one that was given. -/
theorem keeps_createCommand {F : Plant → Prop} (hF : Lasting F) (hs : F s)
    (cmd : AgentCommandRecord) :
    Keeps conns e i (createCommand cmd).plant (fun r s =>
      F s ∧ ((∃ a, r = .ok a) → ∃ cmd' ∈ s.store.commands, cmd.SameOrder cmd')) s := by
  have hstored : Lasting fun s => ∃ cmd' ∈ s.store.commands, cmd.SameOrder cmd' := by
    rintro s s' hmoves ⟨cmd', hmem, hsame⟩
    obtain ⟨cmd'', hmem', hsame'⟩ := hmoves.commands cmd' hmem
    exact ⟨cmd'', hmem', hsame.trans hsame'⟩
  have hcreate : Keeps conns e i (agentsOp (.createCommand cmd)) (fun r s =>
      F s ∧ ((∃ a, r = .ok a) → ∃ cmd' ∈ s.store.commands, cmd.SameOrder cmd')) s := by
    refine keeps_call fun s' c hrely hinv => ?_
    obtain ⟨htidy, hmoves⟩ := hinv.agents (i := i) (c := c) (.createCommand cmd)
    refine ⟨htidy, hmoves, hF _ _ hmoves (hF.rely hrely hs), ?_⟩
    rintro ⟨a, ha⟩
    rcases CommandStore.handle_cases i c.surroundings (.createCommand cmd) s'.store with
      ⟨r, hr, h⟩ | ⟨exc, t, -, h⟩
    · simp only [Plant.handle, h]
      simp only [CommandStore.effect] at hr ⊢
      rcases Table.insert?_cases s'.store.commands cmd.queued with ⟨hnone, -⟩ | ⟨t', hsome, -, hmem⟩
      · rw [hnone] at hr
        cases hr
      · rw [hsome]
        exact ⟨cmd.queued, (hmem _).2 (Or.inr rfl), rfl⟩
    · simp only [Plant.handle, h] at ha
      cases ha
  have hcode : (createCommand cmd).plant =
      agentsOp (.createCommand cmd) >>= fun _ => agentsOp (.refresh cmd.id) := by
    unfold createCommand AgentsM.plant
    rw [Prog.interpret_bind, Prog.interpret_perform, Prog.interpret_perform]
  rw [hcode]
  refine hcreate.bind (fun a s h => ?_) fun exc s h => ⟨h.1, ?_⟩
  · refine (keeps_op (.agents (.refresh cmd.id)) trivial (hF.and hstored)
      ⟨h.1, h.2 ⟨a, rfl⟩⟩).mono ?_
    exact fun r s h => ⟨h.1, fun _ => h.2⟩
  · rintro ⟨a, ha⟩
    cases ha

theorem keeps_dispatchEdgeAgent {F : Plant → Prop} (hF : Lasting F) (hs : F s) (agentId : String)
    (conn : ConnectionRecord) (config : List (String × Json)) :
    Keeps conns e i (dispatchEdgeAgent e tenant agentId conn node config) (fun r s =>
      F s ∧ ∀ output, r = .ok output → s.store.Issued e node conn agentId output) s := by
  have herr : ∀ (exc : PyError) (s : Plant), F s → F s ∧ ∀ output : Json,
      Except.error exc = .ok output → s.store.Issued e node conn agentId output :=
    fun exc s h => ⟨h, nofun⟩
  refine (keeps_calm (uses_plant _) hF hs).bind (fun _ s hs => ?_) herr
  refine (keeps_op (.agents .uuid) trivial hF hs).bind (fun uuid s hs => ?_) herr
  dsimp only
  split
  · exact (keeps_op .misfit trivial hF hs).bind (fun refused => nomatch refused) herr
  · next cmd hcmd =>
    refine (keeps_createCommand hF hs cmd).bind (fun a s h => ?_) fun exc s h => herr exc s h.1
    refine Crew.Contract.Upholds.ret ⟨h.1, fun output houtput => ?_⟩
    obtain rfl := Except.ok.inj houtput
    exact ⟨config, _, cmd, hcmd, rfl, h.2 ⟨a, rfl⟩⟩

/-- **The dispatch of a node with an agent issues a command.** -/
theorem keeps_dispatchNodeType {F : Plant → Prop} (hF : Lasting F) (hs : F s) (runId : String)
    (config : List (String × Json)) (context : Context) :
    Keeps conns e i (dispatchNodeType e tenant runId node config context) (fun r s =>
      F s ∧ ∀ res, r = .ok res → Delivered conns e tenant node res.output s) s := by
  have hconnectors : boundAgent conns tenant node = none → ∀ s, F s →
      Keeps conns e i (engineOp (.dispatchNodeType runId node config context)) (fun r s =>
        F s ∧ ∀ res, r = .ok res → Delivered conns e tenant node res.output s) s := by
    intro hnone s hs
    refine (keeps_op (.engine (.dispatchNodeType runId node config context)) trivial hF hs).mono
      fun r s h => ⟨h, fun res _ => ?_⟩
    intro conn agentId hbound
    rw [hnone] at hbound
    cases hbound
  unfold dispatchNodeType
  dsimp only
  split
  · next hconn => exact hconnectors (by simp [boundAgent, hconn]) s hs
  · next connectionId hconn =>
    have hget : Keeps conns e i (plantOp (.getConnection tenant connectionId)) (fun r s => F s ∧
        r = .ok (conns.find? fun conn => conn.id = connectionId ∧ conn.tenantId = tenant)) s :=
      keeps_call fun s' c hrely hinv => ⟨hinv, .refl s', hF.rely hrely hs, rfl⟩
    refine hget.bind (fun conn? s h => ?_) fun exc s h => ⟨h.1, nofun⟩
    obtain ⟨hs, hconn?⟩ := h
    obtain rfl := Except.ok.inj hconn?
    split
    · next hfind =>
      refine hconnectors ?_ s hs
      simp only [boundAgent, hconn, hfind, Option.bind_eq_bind, Option.bind_some, Option.bind_none]
    · next conn hfind =>
      split
      · next hagent =>
        refine hconnectors ?_ s hs
        simp only [boundAgent, hconn, hfind, hagent, Option.bind_eq_bind, Option.bind_some,
          Option.bind_none]
      · next agentId hagent =>
        have hbound : boundAgent conns tenant node = some (conn, agentId) := by
          simp only [boundAgent, hconn, hfind, hagent, Option.bind_eq_bind, Option.bind_some]
          rfl
        refine (keeps_dispatchEdgeAgent hF hs agentId conn config).bind (fun output s h => ?_)
          fun exc s h => ⟨h.1, nofun⟩
        refine (keeps_op (.engine .elapsedMs) trivial (hF.and (lasting_issued conn agentId output))
          ⟨h.1, h.2 output rfl⟩).bind (fun durationMs s h => ?_) fun exc s h => ⟨h.1, nofun⟩
        refine Crew.Contract.Upholds.ret ⟨h.1, fun res hres => ?_⟩
        obtain rfl := Except.ok.inj hres
        intro conn' agentId' hbound'
        rw [hbound] at hbound'
        obtain ⟨rfl, rfl⟩ := Prod.mk.inj (Option.some.inj hbound')
        exact h.2

/-! ### A node -/

/-- A part of the engine that is calm. -/
theorem keeps_onPlant {α : Type} {p : M α} (hp : p.Uses Op.InnerCalm) {F : Plant → Prop}
    (hF : Lasting F) (hs : F s) : Keeps conns e i (onPlant e tenant p) (fun _ s => F s) s :=
  keeps_calm (uses_onPlant (hp.mono fun _ h => h.2)) hF hs

/-- The step of the node is marked successful after the command was issued. -/
theorem keeps_settle {stepId : ℕ} {res : DispatchResult} (hnode : (stepId, node) ∈ s.origins)
    (hdelivered : Delivered conns e tenant node res.output s) :
    Keeps conns e i (onPlant e tenant (settle tenant node stepId res))
      (fun _ s => (stepId, node) ∈ s.origins) s := by
  have hF := (lasting_origin stepId node).and (lasting_delivered conns e tenant node res.output)
  have hupdate : ∀ s : Plant, (stepId, node) ∈ s.origins ∧
      Delivered conns e tenant node res.output s →
        Keeps conns e i (engineOp (.updateStep tenant stepId .success res.durationMs res.output
          none)) (fun _ s => (stepId, node) ∈ s.origins) s := by
    intro s hs
    refine keeps_call fun s' c hrely hinv => ?_
    obtain ⟨hnode, hdelivered⟩ := hF.rely hrely hs
    have hstep := hinv.updateStep (i := i) (c := c) tenant stepId .success res.durationMs res.output
      none ?_
    · exact ⟨hstep.1, hstep.2, hstep.2.origins hnode⟩
    · rintro step hstep rfl rfl node' hnode'
      obtain rfl := hinv.one _ _ _ hnode hnode'
      exact ⟨nofun, fun _ _ conn agentId hbound => hdelivered conn agentId hbound⟩
  unfold settle
  rw [onPlant_bind, onPlant_bind, onPlant_perform, onPlant_perform]
  refine (keeps_onPlant (uses_closeCircuit.mono fun _ h => h.innerCalm) hF
    ⟨hnode, hdelivered⟩).bind (fun _ s hs => ?_) fun _ _ h => h.1
  refine (hupdate s hs).then fun _ s hs => ?_
  exact keeps_op (.engine (.recordSpan (spanName node) true)) trivial (lasting_origin stepId node)
    hs

theorem keeps_tryNode {runId : String} {config : List (String × Json)} {context : Context}
    {stepId : ℕ} (hnode : (stepId, node) ∈ s.origins) :
    Keeps conns e i (onPlant e tenant (tryNode tenant runId node config context stepId))
      (fun _ s => (stepId, node) ∈ s.origins) s := by
  unfold tryNode
  rw [onPlant_bind, onPlant_perform]
  refine (keeps_dispatchNodeType (lasting_origin stepId node) hnode runId config context).bind
    (fun res s h => ?_) fun _ _ h => h.1
  rw [onPlant_bind]
  exact (keeps_settle h.1 (h.2 res rfl)).then fun _ s hs => hs

theorem keeps_retryLoop {ev : Evaluator} {runId workflowId : String}
    {config : List (String × Json)} {context : Context} {stepId : ℕ} (left : ℕ) :
    ∀ (attempt : ℕ) (lastError : Option PyError) (lastCategory : ErrorCategory) (s : Plant),
      (stepId, node) ∈ s.origins →
        Keeps conns e i (onPlant e tenant (retryLoop ev tenant runId workflowId node config context
          stepId left attempt lastError lastCategory))
          (fun _ s => (stepId, node) ∈ s.origins) s := by
  have hF := lasting_origin stepId node
  induction left with
  | zero => exact fun attempt lastError lastCategory s hs => hs
  | succ left ih =>
    intro attempt lastError lastCategory s hs
    unfold retryLoop
    rw [onPlant_bind]
    refine (keeps_onPlant ((uses_backoff attempt).mono fun _ h => h.innerCalm) hF hs).then
      fun _ s hs => ?_
    rw [onPlant_bind, onPlant_attempt]
    refine Keeps.then (Crew.Contract.Upholds.attempt (keeps_tryNode hs)) fun outcome s hs => ?_
    cases outcome with
    | ok res => exact hs
    | error exc =>
      dsimp only
      rw [onPlant_bind]
      refine (keeps_onPlant ((uses_onFailure exc).mono fun _ h => h.innerCalm) hF hs).then
        fun _ s hs => ?_
      split
      · exact ih _ _ _ s hs
      · exact hs

theorem keeps_runAttempts {ev : Evaluator} {runId workflowId : String}
    {config : List (String × Json)} {context : Context} {stepId : ℕ}
    (hnode : (stepId, node) ∈ s.origins) :
    Keeps conns e i (onPlant e tenant (runAttempts ev tenant runId workflowId node config context
      stepId)) (fun _ s => (stepId, node) ∈ s.origins) s := by
  unfold runAttempts
  split
  · exact hnode
  · rw [onPlant_bind]
    refine (keeps_retryLoop _ _ _ _ s hnode).then fun outcome s hs => ?_
    cases outcome with
    | done res => exact hs
    | gaveUp lastError lastCategory attempt =>
      exact keeps_onPlant (uses_giveUp ..) (lasting_origin stepId node) hs

/-- A step that is recorded has its node. -/
theorem keeps_recordStep {runId : String} {snapshot : List (String × Json)} :
    Keeps conns e i (engineOp (.recordStep tenant runId node .running snapshot))
      (fun r s => ∀ stepId, r = .ok stepId → (stepId, node) ∈ s.origins) s := by
  refine keeps_call fun s' c hrely hinv => ?_
  obtain ⟨htidy, hmoves⟩ : _ ∧ s'.Moves (Plant.handle conns i c
      (.engine (.recordStep tenant runId node .running snapshot)) s').2 :=
    hinv.recordStep tenant runId snapshot nofun nofun
  refine ⟨htidy, hmoves, fun stepId hr => ?_⟩
  simp only [Plant.handle, Env.handle] at hr ⊢
  rcases hfault : c.env.faultOf (.recordStep tenant runId node .running snapshot) s'.world with
    _ | ⟨exc, _ | _⟩ <;> rw [hfault] at hr
  · obtain rfl : s'.world.steps.fresh = stepId := Except.ok.inj hr
    simp [Op.origin, Env.effect, World.recordStep, get?_newStep]
  · cases hr
  · cases hr

theorem keeps_executeNode {ev : Evaluator} {runId workflowId : String} {context : Context} :
    Keeps conns e i (onPlant e tenant (executeNode ev tenant runId workflowId node context))
      (fun _ _ => True) s := by
  unfold executeNode
  rw [onPlant_bind, onPlant_perform]
  refine keeps_recordStep.bind (fun stepId s h => ?_) fun _ _ _ => trivial
  have hnode : (stepId, node) ∈ s.origins := h stepId rfl
  unfold executeStep
  split
  · exact (keeps_runAttempts hnode).mono fun _ _ _ => trivial
  · next connectionId _ =>
    rw [onPlant_bind, onPlant_perform]
    refine (keeps_op (.engine (.getCircuitBreakerState connectionId)) trivial
      (lasting_origin stepId node) hnode).bind (fun state s hnode => ?_) fun _ _ _ => trivial
    split
    · exact keeps_onPlant (uses_failFast ..) .true trivial
    · exact (keeps_runAttempts hnode).mono fun _ _ _ => trivial

end Node

/-! ### A run -/

section Run

variable {ev : Evaluator} {tenant : String}

theorem keeps_traverse {run : RunRecord} {d : WorkflowDefinition} {completed : List String}
    (fuel : ℕ) : ∀ (t : Traversal) (s : Plant),
      Keeps conns e i (onPlant e tenant (traverse ev tenant run d completed fuel t))
        (fun _ _ => True) s := by
  induction fuel with
  | zero => exact fun t s => trivial
  | succ fuel ih =>
    intro t s
    unfold traverse
    split
    · exact trivial
    · split
      · exact ih _ s
      · split
        · exact ih _ s
        · next node _ =>
          split
          · exact ih _ s
          · split
            · next hnode =>
              rw [onPlant_bind]
              exact (keeps_onPlant (uses_park run.id hnode t.context) .true trivial).then
                fun _ _ _ => trivial
            · rw [onPlant_bind]
              refine keeps_executeNode.then fun result s _ => ?_
              cases result with
              | failure error => exact trivial
              | success output durationMs => exact ih _ s

theorem keeps_resume (a : ExecuteArgs) (traceId : String) (run : RunRecord)
    (steps : List RunStepRecord) :
    Keeps conns e i (onPlant e tenant (resume ev tenant a traceId run steps))
      (fun _ _ => True) s := by
  unfold resume
  rw [onPlant_bind]
  exact (keeps_traverse _ _ s).then fun outcome s _ =>
    keeps_onPlant (uses_finish run a.wfId outcome) .true trivial

theorem keeps_executeTraced (a : ExecuteArgs) (traceId : String) :
    Keeps conns e i (onPlant e tenant (executeTraced ev tenant a traceId)) (fun _ _ => True) s := by
  unfold executeTraced
  rw [onPlant_bind, onPlant_perform]
  refine (keeps_op (.engine (.getRun tenant a.runId)) trivial .true trivial).then
    fun found s _ => ?_
  rcases found with _ | ⟨run, steps⟩
  · dsimp only
    rw [onPlant_bind, onPlant_perform]
    refine (keeps_op (.engine (.createRun (a.newRun tenant traceId) a.definition.toWorkflowSpec))
      trivial .true trivial).then fun _ s _ => ?_
    exact keeps_resume a traceId _ []
  · dsimp only
    rw [onPlant_bind, onPlant_perform]
    refine (keeps_op (.engine (.setRunning run.id a.definition.toWorkflowSpec)) trivial .true
      trivial).then fun _ s _ => ?_
    exact keeps_resume a traceId _ steps

theorem keeps_execute (a : ExecuteArgs) :
    Keeps conns e i (onPlant e tenant (execute ev tenant a)) (fun _ _ => True) s := by
  unfold execute
  split
  · exact keeps_executeTraced a _
  · rw [onPlant_bind, onPlant_perform]
    exact (keeps_op (.engine .uuid) trivial .true trivial).then fun traceId s _ =>
      keeps_executeTraced a traceId

/-! ### An approval -/

/-- The step is there, and if its node is known, it is an approval. -/
def AwaitsApproval (stepId : ℕ) (s : Plant) : Prop :=
  (∃ step ∈ s.world.steps, step.id = stepId) ∧
    ∀ node, (stepId, node) ∈ s.origins → node.type = "action.approval"

theorem lasting_awaitsApproval (stepId : ℕ) : Lasting (AwaitsApproval stepId) := by
  rintro s s' hmoves ⟨⟨step, hstep, rfl⟩, hnodes⟩
  obtain ⟨step', hstep', hid⟩ := hmoves.steps step hstep
  refine ⟨⟨step', hstep', hid⟩, fun node hnode => ?_⟩
  rcases hmoves.fresh _ _ hnode with hold | hnew
  · exact hnodes node hold
  · exact absurd rfl (hnew step hstep)

/-- The steps of a run that wait are approvals. -/
theorem keeps_getRun (runId : String) :
    Keeps conns e i (engineOp (.getRun tenant runId)) (fun r s => ∀ run steps,
      r = .ok (some (run, steps)) → ∀ step ∈ steps, step.status = .waitingApproval →
        AwaitsApproval step.id s) s := by
  refine keeps_call fun s' c hrely hinv => ?_
  have hcalm := hinv.calm (i := i) (c := c) (o := .engine (.getRun tenant runId)) trivial
  refine ⟨hcalm.1, hcalm.2, fun run steps hr step hstep hwaiting => ?_⟩
  have hsteps : steps = s'.world.stepsOf tenant runId := by
    simp only [Plant.handle, Env.handle] at hr
    rcases hfault : c.env.faultOf (.getRun tenant runId) s'.world with _ | ⟨exc, _ | _⟩ <;>
      rw [hfault] at hr
    · cases hrun : s'.world.run? tenant runId with
      | none =>
        simp only [Env.effect, hrun] at hr
        cases hr
      | some run' =>
        simp only [Env.effect, hrun, Option.map_some] at hr
        exact (Prod.mk.inj (Option.some.inj (Except.ok.inj hr))).2.symm
    · cases hr
    · cases hr
  rw [hsteps] at hstep
  have hmem : step ∈ s'.world.steps := (List.mem_filter.1 hstep).1
  refine lasting_awaitsApproval step.id _ _ hcalm.2 ⟨⟨step, hmem, rfl⟩, fun node hnode => ?_⟩
  exact (hinv.sound step hmem node hnode).1 hwaiting

theorem keeps_passStep (a : ApprovalArgs) {approvalStep : Option RunStepRecord}
    (hs : ∀ step, approvalStep = some step → AwaitsApproval step.id s) :
    Keeps conns e i (onPlant e tenant (passStep tenant approvalStep a)) (fun _ _ => True) s := by
  cases approvalStep with
  | none => exact trivial
  | some step =>
    unfold passStep
    rw [onPlant_perform]
    refine keeps_call fun s' c hrely hinv => ?_
    have hawaits := (lasting_awaitsApproval step.id).rely hrely (hs step rfl)
    have hstep := hinv.approveStep (i := i) (c := c) tenant a.snapshot hawaits.2
    exact ⟨hstep.1, hstep.2, trivial⟩

theorem keeps_resumeApproval (runId : String) (a : ApprovalArgs) :
    Keeps conns e i (onPlant e tenant (resumeApproval ev tenant runId a)) (fun _ _ => True) s := by
  unfold resumeApproval
  rw [onPlant_bind, onPlant_perform]
  refine (keeps_getRun runId).bind (fun found s h => ?_) fun _ _ _ => trivial
  rcases found with _ | ⟨run, steps⟩
  · exact trivial
  · dsimp only
    split
    · exact trivial
    · split
      · unfold approve
        rw [onPlant_bind]
        refine (keeps_passStep a fun step hstep => ?_).then fun _ s _ => ?_
        · refine h run steps rfl step (List.mem_of_find?_eq_some hstep) ?_
          simpa using List.find?_some hstep
        · rw [onPlant_bind]
          refine (keeps_calm (uses_onPlant (uses_lookupDefinition run.workflowId
            run.workflowVersion)) .true trivial).then fun d s _ => ?_
          exact keeps_execute _
      · exact keeps_onPlant (uses_reject ..) .true trivial

theorem keeps_code (request : PlantRequest) :
    Keeps conns e i (request.code e) (fun _ _ => True) s := by
  cases request with
  | execute ev tenant a => exact (keeps_execute a).then fun _ _ _ => trivial
  | resumeApproval ev tenant runId a =>
    exact (keeps_resumeApproval runId a).then fun _ _ _ => trivial
  | agents environment request =>
    exact (keeps_calm (uses_plant _) .true trivial).then fun _ _ _ => trivial

end Run

end Programs

/-! ## What a successful step tells -/

/-- **A successful step of a node with an agent had a command issued for that agent**, signed and
stored, in every state that any requests to the engine and to the router reach. -/
theorem edge_step_issued (conns : List ConnectionRecord) (e : Ed25519) (world : World)
    (store : CommandStore) (requests : List PlantRequest) (p : PlantCrew)
    (hrun : Crew.Runs (Plant.handle conns) (fun _ _ _ _ => True)
      (plantCrew e ⟨world, store, []⟩ requests) p) :
    p.state.EdgeSteps conns fun store node conn agentId output =>
      store.Issued e node conn agentId output := by
  have hstart : (plantCrew e ⟨world, store, []⟩ requests).state.Tidy conns e :=
    ⟨fun step _ node hnode => absurd hnode List.not_mem_nil,
      fun id node hnode => absurd hnode List.not_mem_nil,
      fun id node node' hnode => absurd hnode List.not_mem_nil⟩
  have hprogs : ∀ i q, (plantCrew e ⟨world, store, []⟩ requests).progs[i]? = some q →
      Keeps conns e i q (fun _ _ => True) (plantCrew e ⟨world, store, []⟩ requests).state := by
    intro i q hq
    obtain ⟨request, -, rfl⟩ := List.mem_map.1 (List.mem_of_getElem? hq)
    exact keeps_code request
  have htidy : p.state.Tidy conns e :=
    ((edgeContract conns e).run (Q := fun _ _ _ => True) (fun _ _ _ _ _ h => h) hstart hprogs
      hrun).1
  intro step hstep hsuccess node hnode htype conn agentId hbound
  exact (htidy.sound step hstep node hnode).2 hsuccess htype conn agentId hbound

/-- A query of a database behind an agent. -/
def edgeQuery : WorkflowNode :=
  { id := "query", type := "action.db_query", name := "Query",
    connectionId := "conn_onprem_orders" }

/-- The workflow of this query alone. -/
def edgeWorkflow : WorkflowDefinition :=
  ⟨{ name := "Edge", trigger := { type := "webhook" }, nodes := [edgeQuery] }, by decide⟩

/-- The workflow is executed in an empty world. -/
def edgeRun : PlantCrew :=
  plantCrew .transparent ⟨.empty, ⟨[⟨"agent-1", "acme"⟩], .empty, []⟩, []⟩
    [.execute (.source ⟨fun _ => true, fun _ => none⟩) "acme"
      { definition := edgeWorkflow, runId := "run-1", inputPayload := .null, traceId := "trace-1" }]

/-- Its calls, up to the one that stores the successful step. -/
def edgeSchedule : List (ℕ × PlantChoice) :=
  List.replicate 13 (0, ⟨.steady fun _ => .ok .null, { uuid := "0123456789ab" }, ⟨.other, ""⟩⟩)

theorem runs_edgeSchedule :
    Crew.Runs (Plant.handle [ordersConnection]) (fun _ _ _ _ => True) edgeRun
      (Crew.play (Plant.handle [ordersConnection]) edgeRun edgeSchedule) :=
  Crew.runs_play _ (by simp [edgeSchedule, Crew.Allows, List.replicate])

/-- The step is successful, and belongs to the query. -/
theorem edgeSchedule_step : ∃ step ∈ (Crew.play (Plant.handle [ordersConnection]) edgeRun
    edgeSchedule).state.world.steps, step.status = .success ∧
      (step.id, edgeQuery) ∈
        (Crew.play (Plant.handle [ordersConnection]) edgeRun edgeSchedule).state.origins ∧
      boundAgent [ordersConnection] step.tenantId edgeQuery = some (ordersConnection, "agent-1") :=
  ⟨_, List.mem_singleton_self _, rfl, List.mem_singleton_self _, rfl⟩

theorem edge_step_issued_query : ∃ p, Crew.Runs (Plant.handle [ordersConnection])
    (fun _ _ _ _ => True) edgeRun p ∧ ∃ step ∈ p.state.world.steps, step.status = .success ∧
      p.state.store.Issued .transparent edgeQuery ordersConnection "agent-1"
        step.outputSnapshot := by
  obtain ⟨step, hstep, hsuccess, hnode, hbound⟩ := edgeSchedule_step
  refine ⟨_, runs_edgeSchedule, step, hstep, hsuccess, ?_⟩
  exact edge_step_issued _ _ _ _ _ _ runs_edgeSchedule step hstep hsuccess edgeQuery hnode
    (by decide) _ _ hbound

/-- The command that the output names was reported as completed. -/
def CommandStore.Reported (s : CommandStore) (output : Json) : Prop :=
  ∃ fields, output = .obj fields ∧ ∃ cmd ∈ s.commands,
    Json.lookup "command_id" fields = some (.str cmd.id) ∧ cmd.status = "COMPLETED"

/-- The step is successful while its command is in the queue and the agent has reported nothing. -/
theorem not_reflects_queued :
    ¬ ∀ (conns : List ConnectionRecord) (e : Ed25519) (world : World) (store : CommandStore)
      (requests : List PlantRequest) (p : PlantCrew),
      Crew.Runs (Plant.handle conns) (fun _ _ _ _ => True)
        (plantCrew e ⟨world, store, []⟩ requests) p →
          p.state.EdgeSteps conns fun store _ _ _ output => store.Reported output := by
  intro hall
  obtain ⟨step, hstep, hsuccess, hnode, hbound⟩ := edgeSchedule_step
  obtain ⟨fields, -, cmd, hcmd, -, hstatus⟩ := hall _ _ _ _ _ _ runs_edgeSchedule step hstep
    hsuccess edgeQuery hnode (by decide) ordersConnection "agent-1" hbound
  have hqueued : (Crew.play (Plant.handle [ordersConnection]) edgeRun
      edgeSchedule).state.store.commands.rows.map (·.status) = ["QUEUED"] := rfl
  have hmem : cmd.status ∈ ["QUEUED"] := hqueued ▸ List.mem_map_of_mem hcmd
  rw [hstatus] at hmem
  exact absurd hmem (by decide)

end FlowMesh
