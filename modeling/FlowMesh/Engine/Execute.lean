import FlowMesh.Engine.World

/-!
# The workflow engine

`WorkflowEngine` of `flowmesh_engine/engine.py` as programs over the awaited calls: the retry
loop of `_execute_node`, the traversal of `execute`, `_park_approval_step` and
`resume_approval`. Texts of exceptions, statuses and dead letters are the source's.

The traversal loop takes a fuel argument, `traverseFuel d`: as many iterations as there are nodes
and edges, which empty the queue whatever the calls answer.
-/

namespace FlowMesh

open Python Async

/-! ## `_execute_node` -/

/-- `if node.connection_id`. -/
def WorkflowNode.connection? (n : WorkflowNode) : Option String := n.connectionId.filter (· ≠ "")

/-- What `_execute_node` returns. -/
inductive StepResult
  | success (output : Json) (durationMs : PyFloat)
  | failure (error : String)

/-- How the retry loop ends. -/
inductive RetryOutcome
  | done (res : DispatchResult)
  | gaveUp (lastError : Option PyError) (lastCategory : ErrorCategory) (attempt : ℕ)

section Node

variable (ev : Evaluator) (tenant runId workflowId : String) (node : WorkflowNode)

/-- The name of the step's span. -/
def spanName : String := "step." ++ node.type ++ "(" ++ node.id ++ ")"

/-- The circuit breaker's share of a successful dispatch. -/
def closeCircuit : M Unit :=
  match node.connection? with
  | none => pure ()
  | some connectionId => do
    perform (.recordCircuitSuccess connectionId)
    perform (.reportRecovered connectionId)
    perform (.recordCircuitMetric connectionId .closed)

/-- The calls between a successful dispatch and the end of the `try` block. -/
def settle (stepId : ℕ) (res : DispatchResult) : M Unit := do
  closeCircuit node
  perform (.updateStep tenant stepId .success res.durationMs res.output none)
  perform (.recordSpan (spanName node) true)

/-- The `try` block of the retry loop. -/
def tryNode (config : List (String × Json)) (context : Context) (stepId : ℕ) :
    M DispatchResult := do
  let res ← perform (.dispatchNodeType runId node config context)
  settle tenant node stepId res
  return res

/-- The circuit breaker's share of a transient failure. -/
def countFailure (connectionId : String) (exc : PyError) : M Unit := do
  let newState ← perform (.recordCircuitFailure connectionId)
  perform (.recordCircuitMetric connectionId newState)
  if newState = .open then perform (.reportTripped connectionId workflowId exc.message)

/-- The `except` block of the retry loop, up to the decision whether to go on. -/
def onFailure (exc : PyError) : M Unit :=
  match node.connection?, categorizeError exc with
  | some connectionId, .transient => countFailure workflowId connectionId exc
  | _, _ => pure ()

/-- The pause before an attempt; the first attempt comes at once. -/
def backoff (attempt : ℕ) : M Unit := do
  if 1 < attempt then
    let rnd ← perform .random
    match calculateBackoff ev.unicode attempt node.policy rnd with
    | .error e => .throw e
    | .ok backoffSec => perform (.sleep (FloatVal.min backoffSec (.finite 2)))

/-- `while attempt <= max_attempts`, with `max_attempts - attempt + 1` attempts left. -/
def retryLoop (config : List (String × Json)) (context : Context) (stepId : ℕ) :
    ℕ → ℕ → Option PyError → ErrorCategory → M RetryOutcome
  | 0, attempt, lastError, lastCategory => return .gaveUp lastError lastCategory attempt
  | left + 1, attempt, _, _ => do
    backoff ev node attempt
    match ← (tryNode tenant runId node config context stepId).attempt with
    | .ok res => return .done res
    | .error exc => do
      onFailure workflowId node exc
      match categorizeError exc with
      | .transient => retryLoop config context stepId left (attempt + 1) (some exc) .transient
      | category => return .gaveUp (some exc) category attempt

/-- The end of `_execute_node` after the loop gave up. -/
def giveUp (config : List (String × Json)) (stepId : ℕ) (maxAttempts : ℤ)
    (lastError : Option PyError) (lastCategory : ErrorCategory) (attempt : ℕ) : M StepResult := do
  let totalDurationMs ← perform .elapsedMs
  let errMsg := match lastError with
    | some exc => exc.message
    | none => "Execution failed at node " ++ node.id
  perform (.updateStep tenant stepId .failed totalDurationMs .null (some errMsg))
  perform (.recordSpan (spanName node) false)
  perform (.incDlqSize tenant)
  perform (.createDeadLetter tenant runId node workflowId errMsg lastCategory
    (min attempt maxAttempts) config)
  return .failure errMsg

/-- The attempts of `_execute_node`, after the step was recorded and the breaker let it pass. -/
def runAttempts (config : List (String × Json)) (context : Context) (stepId : ℕ) :
    M StepResult := do
  match node.policy.maxAttempts ev.unicode with
  | .error e => .throw e
  | .ok maxAttempts =>
    match ← retryLoop ev tenant runId workflowId node config context stepId maxAttempts.toNat 1
        none .transient with
    | .done res => return .success res.output res.durationMs
    | .gaveUp lastError lastCategory attempt =>
      giveUp tenant runId workflowId node config stepId maxAttempts lastError lastCategory attempt

/-- The way out of `_execute_node` past an open circuit breaker. -/
def failFast (config : List (String × Json)) (stepId : ℕ) (connectionId : String) :
    M StepResult := do
  let errMsg := (circuitBreakerOpenError connectionId).message
  perform (.reportTripped connectionId workflowId errMsg)
  perform (.updateStep tenant stepId .failed ⟨.finite (1 / 2), "0.5"⟩ .null (some errMsg))
  perform (.createDeadLetter tenant runId node workflowId errMsg .circuitOpen 1 config)
  return .failure errMsg

/-- `_execute_node` after the step was recorded. -/
def executeStep (config : List (String × Json)) (context : Context) (stepId : ℕ) :
    M StepResult := do
  match node.connection? with
  | none => runAttempts ev tenant runId workflowId node config context stepId
  | some connectionId =>
    match ← perform (.getCircuitBreakerState connectionId) with
    | .open => failFast tenant runId workflowId node config stepId connectionId
    | _ => runAttempts ev tenant runId workflowId node config context stepId

/-- `_execute_node`. -/
def executeNode (context : Context) : M StepResult := do
  let stepId ← perform (.recordStep tenant runId node .running
    (resolveConfig ev.unicode node context))
  executeStep ev tenant runId workflowId node (resolveConfig ev.unicode node context) context stepId

end Node

/-! ## The traversal -/

/-- The state of the traversal loop. -/
structure Traversal where
  queue : List String
  visited : List String
  context : Context
  lastOutput : Json

/-- How the traversal ends. -/
inductive Outcome
  | finished (lastOutput : Json)
  | failed (error : String)
  | parked

/-- The targets of the edges out of `id` whose condition holds. -/
def WorkflowDefinition.targets (d : WorkflowDefinition) (ev : Evaluator) (id : String)
    (context : Context) : List String :=
  ((d.outgoing id).filter (ev.fires · context)).map (·.target)

/-- Take the first queued node; it counts as visited from now on. -/
def Traversal.pop (t : Traversal) (id : String) (queue : List String) : Traversal :=
  { t with queue, visited := t.visited ++ [id] }

/-- The end of an iteration: the targets that are not visited are queued. -/
def Traversal.follow (ev : Evaluator) (d : WorkflowDefinition) (t : Traversal) (id : String) :
    Traversal :=
  { t with queue := t.queue ++ (d.targets ev id t.context).filter (· ∉ t.visited) }

/-- The state after a node that the snapshot had as completed. -/
def Traversal.reuse (t : Traversal) (id : String) : Traversal :=
  { t with lastOutput := ((t.context.step? id).map (·.output)).getD .null }

/-- The state after a node that succeeded now. -/
def Traversal.succeed (t : Traversal) (id : String) (output : Json) (durationMs : PyFloat) :
    Traversal :=
  { t with
    lastOutput := output
    context := t.context.put id ⟨output.or (.obj []), durationMs⟩ }

section Execute

variable (ev : Evaluator) (tenant : String)

/-- `_park_approval_step` and the status update behind it. -/
def park (runId : String) (node : WorkflowNode) (context : Context) : M Unit := do
  let _ ← perform (.recordStep tenant runId node .waitingApproval
    (resolveConfig ev.unicode node context))
  perform (.updateRunStatus tenant runId .waitingApproval .null none)

/-- `while queue`. -/
def traverse (run : RunRecord) (d : WorkflowDefinition) (completed : List String) :
    ℕ → Traversal → M Outcome
  | 0, t => return .finished t.lastOutput
  | fuel + 1, t =>
    match t.queue with
    | [] => return .finished t.lastOutput
    | id :: queue =>
      if id ∈ t.visited then traverse run d completed fuel { t with queue }
      else
        match d.node? id with
        | none => traverse run d completed fuel (t.pop id queue)
        | some node =>
          if id ∈ completed then
            traverse run d completed fuel (((t.pop id queue).reuse id).follow ev d id)
          else if node.type = "action.approval" then do
            park ev tenant run.id node t.context
            return .parked
          else do
            match ← executeNode ev tenant run.id run.workflowId node t.context with
            | .failure error => return .failed error
            | .success output durationMs =>
              traverse run d completed fuel
                (((t.pop id queue).succeed id output durationMs).follow ev d id)

/-- The nodes that the stored steps have as completed. -/
def completedIds (steps : List RunStepRecord) : List String :=
  (steps.filter (·.status = .success)).map (·.nodeId)

/-- The context preloaded with the completed steps. -/
def Context.preload (context : Context) (steps : List RunStepRecord) : Context :=
  (steps.filter (·.status = .success)).foldl
    (fun ctx s => ctx.put s.nodeId ⟨s.outputSnapshot.or (.obj []), s.durationMs⟩) context

/-- As many iterations as the traversal can need. -/
def traverseFuel (d : WorkflowDefinition) : ℕ := d.nodes.length + d.edges.length

/-- The arguments of `execute`. -/
structure ExecuteArgs where
  definition : WorkflowDefinition
  runId : String
  inputPayload : Json
  traceId : Option String := none
  triggerSource : String := "webhook"
  idempotencyKey : Option String := none
  workflowId : Option String := none

/-- `a or b` on optional strings. -/
def orElse (a : Option String) (b : Option String) : Option String :=
  (a.filter (· ≠ "")).or b

/-- `workflow_id or workflow_def.id or "wf_order_processing"`. -/
def ExecuteArgs.wfId (a : ExecuteArgs) : String :=
  (orElse a.workflowId (orElse a.definition.id none)).getD "wf_order_processing"

/-- The row of a new run. -/
def ExecuteArgs.newRun (a : ExecuteArgs) (traceId : String) : RunRecord :=
  { id := a.runId
    tenantId := tenant
    workflowId := a.wfId
    workflowVersion := a.definition.schemaVersion
    status := .running
    triggerSource := a.triggerSource
    traceId
    idempotencyKey := a.idempotencyKey
    inputPayload := a.inputPayload }

/-- The last statements of `execute`: the status, the telemetry (whose exceptions are dropped),
and the row as it is stored now. -/
def finish (run : RunRecord) (wfId : String) : Outcome → M RunRecord
  | .parked => do
    let refreshed ← perform (.getRun tenant run.id)
    return (refreshed.map (·.1)).getD run
  | .finished lastOutput => do
    perform (.updateRunStatus tenant run.id .success lastOutput none)
    let _ ← (perform (.recordSpan ("workflow.execute(" ++ wfId ++ ")") true)).attempt
    let refreshed ← perform (.getRun tenant run.id)
    return (refreshed.map (·.1)).getD run
  | .failed error => do
    perform (.updateRunStatus tenant run.id .failed .null (some error))
    let _ ← (perform (.recordSpan ("workflow.execute(" ++ wfId ++ ")") false)).attempt
    let refreshed ← perform (.getRun tenant run.id)
    return (refreshed.map (·.1)).getD run

/-- The traversal of `execute` and what follows it. -/
def resume (a : ExecuteArgs) (traceId : String) (run : RunRecord) (steps : List RunStepRecord) :
    M RunRecord := do
  let context : Context := Context.preload ⟨a.inputPayload, [], tenant, traceId⟩ steps
  let outcome ← traverse ev tenant run a.definition (completedIds steps)
    (traverseFuel a.definition) ⟨a.definition.startNodes, [], context, .null⟩
  finish tenant run a.wfId outcome

/-- `execute` once the trace id is known. -/
def executeTraced (a : ExecuteArgs) (traceId : String) : M RunRecord := do
  match ← perform (.getRun tenant a.runId) with
  | none =>
    perform (.createRun (a.newRun tenant traceId) a.definition.toWorkflowSpec)
    resume ev tenant a traceId (a.newRun tenant traceId) []
  | some (run, steps) =>
    perform (.setRunning run.id a.definition.toWorkflowSpec)
    resume ev tenant a traceId { run with status := .running } steps

/-- `WorkflowEngine.execute`. -/
def execute (a : ExecuteArgs) : M RunRecord :=
  match orElse a.traceId none with
  | some traceId => executeTraced ev tenant a traceId
  | none => do
    let traceId ← perform .uuid
    executeTraced ev tenant a traceId

/-! ## `resume_approval` -/

/-- The arguments of `resume_approval`, with the time it reads. -/
structure ApprovalArgs where
  approved : Bool
  approverEmail : String
  comment : Option String
  decidedAt : String

/-- The output snapshot of a decided approval step. -/
def ApprovalArgs.snapshot (a : ApprovalArgs) : Json :=
  .obj [("approved", .bool a.approved), ("approver", .str a.approverEmail),
    ("comment", (a.comment.map Json.str).getD .null), ("decided_at", .str a.decidedAt)]

/-- `WorkflowDefinition(**definition_json)` inside a program. -/
def parseDefinition (s : WorkflowSpec) : M WorkflowDefinition :=
  match WorkflowDefinition.parse s with
  | .ok d => pure d
  | .error e => .throw e

/-- The definition that `resume_approval` runs: the pinned version, else the workflow's current
one. The list of default workflows that the last branch imports does not exist. -/
def lookupDefinition (workflowId : String) (version : ℤ) : M WorkflowDefinition := do
  match ← perform (.getByVersion tenant workflowId version) with
  | some verRecord => parseDefinition verRecord.definitionJson
  | none =>
    match ← perform (.getWorkflow tenant workflowId) with
    | some wf => parseDefinition wf.definitionJson
    | none => .throw ⟨.valueError, "Workflow " ++ workflowId ++ " not found to resume run: " ++
        "cannot import name '_DEFAULT_WORKFLOWS' from 'app.routers.workflows'"⟩

/-- The error text of a rejection. -/
def ApprovalArgs.errMsg (a : ApprovalArgs) : String :=
  "Rejected by " ++ a.approverEmail ++ ": " ++ (orElse a.comment none).getD "No reason provided"

/-- Mark the parked step as rejected. -/
def rejectStep (approvalStep : Option RunStepRecord) (a : ApprovalArgs) : M Unit :=
  match approvalStep with
  | none => pure ()
  | some s =>
    perform (.updateStep tenant s.id .rejected ⟨.finite 0, "0.0"⟩ a.snapshot (some a.errMsg))

/-- Mark the parked step as approved. -/
def passStep (approvalStep : Option RunStepRecord) (a : ApprovalArgs) : M Unit :=
  match approvalStep with
  | none => pure ()
  | some s => perform (.approveStep tenant s.id a.snapshot)

/-- The rejection branch. -/
def reject (run : RunRecord) (approvalStep : Option RunStepRecord) (a : ApprovalArgs) :
    M RunRecord := do
  rejectStep tenant approvalStep a
  perform (.updateRunStatus tenant run.id .rejected .null (some a.errMsg))
  let refreshed ← perform (.getRun tenant run.id)
  return (refreshed.map (·.1)).getD run

/-- The approval branch. -/
def approve (run : RunRecord) (approvalStep : Option RunStepRecord) (a : ApprovalArgs) :
    M RunRecord := do
  passStep tenant approvalStep a
  let d ← lookupDefinition tenant run.workflowId run.workflowVersion
  execute ev tenant
    { definition := d.withId run.workflowId
      runId := run.id
      inputPayload := run.inputPayload
      traceId := some run.traceId
      triggerSource := run.triggerSource
      idempotencyKey := run.idempotencyKey
      workflowId := some run.workflowId }

/-- `WorkflowEngine.resume_approval`. -/
def resumeApproval (runId : String) (a : ApprovalArgs) : M RunRecord := do
  match ← perform (.getRun tenant runId) with
  | none => .throw ⟨.valueError, "Run " ++ runId ++ " not found"⟩
  | some (run, steps) =>
    if run.status ≠ .waitingApproval then
      .throw ⟨.valueError, "Run " ++ runId ++ " is not waiting for approval (current status: " ++
        run.status.text ++ ")"⟩
    else
      let approvalStep := steps.find? (·.status = .waitingApproval)
      if a.approved then approve ev tenant run approvalStep a
      else reject tenant run approvalStep a

end Execute

end FlowMesh
