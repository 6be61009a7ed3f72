import FlowMesh.Library.Async
import FlowMesh.StateStore.Memory
import FlowMesh.Workflow.Registry
import FlowMesh.Engine.Template
import FlowMesh.Engine.Errors

/-!
# What the engine runs against

The rows that the control plane stores, and the awaited calls of the engine and the routers as
one type `Op`, so that a handler is a program over `Op` (`FlowMesh.M`). `Env.handle` says what
each call does to the `World`.

What the world outside decides is in `Env`, as functions of the world at the time of the call:
the outcome of every `_dispatch_node_type`, the answers of the circuit breaker, random draws and
clock readings, and `fault`, which lets any other call raise before or after it took effect. The
world counts its calls (`tick`), so an environment can answer every call differently. How an
edge condition evaluates is a parameter as well (`Evaluator.fires`); the source's evaluation is
`Evaluator.source`.

`trace` is a ghost: it lists the definitions that were executed, the dispatches and the
approvals, in order. No call reads it.
-/

namespace FlowMesh

open Python Database Async

/-! ## Rows -/

/-- The status of a run. -/
inductive RunStatus
  | running
  | success
  | failed
  | waitingApproval
  | rejected
  deriving DecidableEq, Repr

/-- The text of the status column. -/
def RunStatus.text : RunStatus → String
  | .running => "RUNNING"
  | .success => "SUCCESS"
  | .failed => "FAILED"
  | .waitingApproval => "WAITING_APPROVAL"
  | .rejected => "REJECTED"

/-- The status of a step. -/
inductive StepStatus
  | running
  | success
  | failed
  | waitingApproval
  | rejected
  deriving DecidableEq, Repr

/-- `RunRecord`; a missing payload is `null`. -/
structure RunRecord where
  id : String
  tenantId : String
  workflowId : String
  workflowVersion : ℤ
  status : RunStatus
  triggerSource : String
  traceId : String
  idempotencyKey : Option String
  inputPayload : Json
  outputPayload : Json := .null
  error : Option String := none

/-- `RunStepRecord`. The random id is a number, and the rows of the table stand in the order of
`started_at`. -/
structure RunStepRecord where
  id : ℕ
  runId : String
  tenantId : String
  nodeId : String
  name : String
  nodeType : String
  status : StepStatus
  durationMs : PyFloat
  inputSnapshot : List (String × Json)
  outputSnapshot : Json := .null
  error : Option String := none

/-- The status of a dead letter. -/
inductive DeadLetterStatus
  | pending
  | replayed
  | discarded
  deriving DecidableEq, Repr

/-- `DeadLetterRecord`. -/
structure DeadLetterRecord where
  id : ℕ
  tenantId : String
  runId : String
  nodeId : String
  eventType : String
  workflowId : String
  reason : String
  errorCategory : ErrorCategory
  attempts : ℤ
  payloadSnapshot : List (String × Json)
  status : DeadLetterStatus

/-- What a dispatch returns: the output of the node, and the duration measured with it. -/
structure DispatchResult where
  output : Json
  durationMs : PyFloat

/-! ## The world -/

/-- What happened to the runs. -/
inductive Event
  | executing (runId : String) (definition : WorkflowSpec)
  | dispatched (runId nodeId : String) (config : List (String × Json)) (context : Context)
      (ok : Bool)
  | approved (runId nodeId : String)

/-- The run an event belongs to. -/
def Event.runId : Event → String
  | .executing runId _ => runId
  | .dispatched runId _ _ _ _ => runId
  | .approved runId _ => runId

/-- The event starts or restarts a run. -/
def Event.isExecuting : Event → Bool
  | .executing .. => true
  | _ => false

/-- The stored rows, the trace, and the number of calls so far. -/
structure World where
  runs : Table RunRecord String RunRecord.id
  steps : Table RunStepRecord ℕ RunStepRecord.id
  deadLetters : Table DeadLetterRecord ℕ DeadLetterRecord.id
  registry : Registry
  trace : List Event
  tick : ℕ

/-- The world before the first request. -/
def World.empty : World := ⟨.empty, .empty, .empty, .empty, [], 0⟩

/-! ## Calls -/

/-- The awaited calls. A call of a repository carries the repository's tenant. -/
inductive Op
  -- `RunRepository`
  | getRun (tenant runId : String)
  | getByIdempotencyKey (tenant key : String)
  | createRun (run : RunRecord) (definition : WorkflowSpec)
  | setRunning (runId : String) (definition : WorkflowSpec)
  | recordStep (tenant runId : String) (node : WorkflowNode) (status : StepStatus)
      (inputSnapshot : List (String × Json))
  | updateStep (tenant : String) (stepId : ℕ) (status : StepStatus) (durationMs : PyFloat)
      (outputSnapshot : Json) (error : Option String)
  | approveStep (tenant : String) (stepId : ℕ) (outputSnapshot : Json)
  | updateRunStatus (tenant runId : String) (status : RunStatus) (outputPayload : Json)
      (error : Option String)
  -- `WorkflowRepository` and `WorkflowVersionRepository`
  | getByVersion (tenant workflowId : String) (version : ℤ)
  | getWorkflow (tenant workflowId : String)
  | listWorkflows (tenant : String)
  | getByTriggerPath (tenant path : String)
  | createWorkflow (tenant : String) (wf : WorkflowRecord)
  -- `DeadLetterRepository`
  | getDeadLetter (tenant : String) (itemId : ℕ)
  | createDeadLetter (tenant runId : String) (node : WorkflowNode) (workflowId reason : String)
      (errorCategory : ErrorCategory) (attempts : ℤ) (payload : List (String × Json))
  | markReplayed (tenant : String) (itemId : ℕ)
  | listPending (tenant : String)
  -- `StateStore` and `IncidentManager`
  | getCircuitBreakerState (connectionId : String)
  | recordCircuitSuccess (connectionId : String)
  | recordCircuitFailure (connectionId : String)
  | reportTripped (connectionId workflowId rootCause : String)
  | reportRecovered (connectionId : String)
  -- telemetry, audit, events
  | recordCircuitMetric (connectionId : String) (state : CircuitState)
  | recordSpan (name : String) (ok : Bool)
  | incDlqSize (tenant : String)
  | recordAudit (action resource : String)
  | publish (subject : String) (payload : Json)
  -- the node itself, and the runtime
  | dispatchNodeType (runId : String) (node : WorkflowNode) (config : List (String × Json))
      (context : Context)
  | sleep (seconds : FloatVal)
  | random
  | elapsedMs
  | uuid

/-- What a call answers. -/
@[reducible] def Op.Res : Op → Type
  | .getRun .. => Option (RunRecord × List RunStepRecord)
  | .getByIdempotencyKey .. => Option RunRecord
  | .recordStep .. => ℕ
  | .getByVersion .. => Option WorkflowVersionRecord
  | .getWorkflow .. => Option WorkflowRecord
  | .listWorkflows .. => List WorkflowRecord
  | .getByTriggerPath .. => Option WorkflowRecord
  | .createWorkflow .. => WorkflowRecord
  | .getDeadLetter .. => Option DeadLetterRecord
  | .listPending _ => List DeadLetterRecord
  | .getCircuitBreakerState .. => CircuitState
  | .recordCircuitFailure .. => CircuitState
  | .dispatchNodeType .. => DispatchResult
  | .random => ℚ
  | .elapsedMs => PyFloat
  | .uuid => String
  | _ => Unit

/-- Programs of the engine and the routers. -/
abbrev M (α : Type) : Type := Prog Op Op.Res PyError α

/-- Make a call. -/
abbrev perform (o : Op) : M o.Res := Prog.perform o

/-! ## The environment -/

/-- How the engine reads texts and edge conditions. -/
structure Evaluator where
  unicode : Unicode
  fires : WorkflowEdge → Context → Bool

/-- The evaluation of the source. -/
def Evaluator.source (u : Unicode) : Evaluator := ⟨u, evaluateCondition u⟩

/-- What the world outside decides. -/
structure Env extends Evaluator where
  dispatch : World → WorkflowNode → List (String × Json) → Context → Except PyError DispatchResult
  circuitState : World → String → CircuitState
  circuitFailure : World → String → CircuitState
  /-- The exception of a call, and whether it took effect before it raised. -/
  fault : World → Op → Option (PyError × Bool)
  random : World → ℚ
  elapsedMs : World → PyFloat
  uuid : World → String

namespace World

variable (w : World)

/-- The steps of a run, as `get_by_id` reads them. -/
def stepsOf (tenant runId : String) : List RunStepRecord :=
  w.steps.rows.filter fun s => s.runId = runId ∧ s.tenantId = tenant

/-- The run itself, within the tenant. -/
def run? (tenant runId : String) : Option RunRecord :=
  (w.runs.get? runId).filter (·.tenantId = tenant)

/-- The events of a run. -/
def eventsOf (runId : String) : List Event := w.trace.filter (·.runId = runId)

/-- Append an event. -/
def log (e : Event) : World := { w with trace := w.trace ++ [e] }

/-- `run.status = "RUNNING"` on the stored run. -/
def setRunning (runId : String) : World :=
  { w with
    runs := w.runs.update (·.id = runId) (fun r => { r with status := .running }) fun _ => rfl }

/-- `update(RunRecord).where(id == runId).where(tenant_id == tenant)`. -/
def updateRunStatus (tenant runId : String) (status : RunStatus) (outputPayload : Json)
    (error : Option String) : World :=
  { w with
    runs := w.runs.update (fun r => r.id = runId ∧ r.tenantId = tenant)
      (fun r => { r with status, outputPayload, error }) fun _ => rfl }

/-- `update(RunStepRecord).where(id == stepId).where(tenant_id == tenant)`. -/
def updateStep (tenant : String) (stepId : ℕ) (status : StepStatus) (durationMs : PyFloat)
    (outputSnapshot : Json) (error : Option String) : World :=
  { w with
    steps := w.steps.update (fun s => s.id = stepId ∧ s.tenantId = tenant)
      (fun s => { s with status, durationMs, outputSnapshot, error }) fun _ => rfl }

/-- The row that `record_step` inserts under the id `id`. -/
def newStep (tenant runId : String) (node : WorkflowNode) (status : StepStatus)
    (inputSnapshot : List (String × Json)) (id : ℕ) : RunStepRecord :=
  { id, runId, tenantId := tenant, nodeId := node.id, name := node.name, nodeType := node.type,
    status, durationMs := ⟨.finite 0, "0.0"⟩, inputSnapshot }

/-- `record_step`. -/
def recordStep (tenant runId : String) (node : WorkflowNode) (status : StepStatus)
    (inputSnapshot : List (String × Json)) : World :=
  { w with
    steps := w.steps.insertFresh (newStep tenant runId node status inputSnapshot) fun _ => rfl }

/-- The row that `_route_to_dlq` inserts under the id `id`. -/
def newDeadLetter (tenant runId : String) (node : WorkflowNode) (workflowId reason : String)
    (errorCategory : ErrorCategory) (attempts : ℤ) (payloadSnapshot : List (String × Json))
    (id : ℕ) : DeadLetterRecord :=
  { id, tenantId := tenant, runId, nodeId := node.id,
    eventType := "workflow." ++ node.type ++ ".failed", workflowId, reason, errorCategory,
    attempts, payloadSnapshot, status := .pending }

end World

/-- `path.strip("/")`. -/
def stripSlashes (path : String) : List Char :=
  ((path.toList.dropWhile (· = '/')).reverse.dropWhile (· = '/')).reverse

/-- The webhook path of a definition: the one in the trigger's config, else the one beside it. -/
def WorkflowSpec.triggerPath (s : WorkflowSpec) : Json :=
  ((Json.lookup "path" s.trigger.config).getD .null).or s.trigger.path

/-- `t_path == path`. -/
def isPath (t : Json) (path : String) : Bool :=
  match t with
  | .str p => p = path
  | _ => false

/-- The workflows that listen on a path, as `get_by_trigger_path` tests them. -/
def WorkflowRecord.listensOn (path : String) (wf : WorkflowRecord) : Bool :=
  wf.status = .active && wf.definitionJson.trigger.type = "webhook" &&
    (isPath wf.definitionJson.triggerPath (String.ofList ('/' :: stripSlashes path)) ||
      isPath wf.definitionJson.triggerPath path || !wf.definitionJson.triggerPath.truthy)

namespace Env

variable (env : Env)

/-- What a call does when it does not raise by a fault of its own. -/
def effect (o : Op) (w : World) : Except PyError o.Res × World :=
  match o with
  | .getRun tenant runId =>
    (.ok ((w.run? tenant runId).map fun run => (run, w.stepsOf tenant runId)), w)
  | .getByIdempotencyKey tenant key =>
    match w.runs.rows.filter fun r => r.tenantId = tenant ∧ r.idempotencyKey = some key with
    | [] => (.ok none, w)
    | [run] => (.ok (some run), w)
    | _ => (.error ⟨.multipleResultsFound,
        "Multiple rows were found when one or none was required"⟩, w)
  | .createRun run definition =>
    match w.runs.insert? run with
    | none => (.error ⟨.integrityError, "UNIQUE constraint failed: runs.id"⟩, w)
    | some runs => (.ok (), { w with runs }.log (.executing run.id definition))
  | .setRunning runId definition =>
    (.ok (), (w.setRunning runId).log (.executing runId definition))
  | .recordStep tenant runId node status inputSnapshot =>
    (.ok w.steps.fresh, w.recordStep tenant runId node status inputSnapshot)
  | .updateStep tenant stepId status durationMs outputSnapshot error =>
    (.ok (), w.updateStep tenant stepId status durationMs outputSnapshot error)
  | .approveStep tenant stepId outputSnapshot =>
    (.ok (), match (w.steps.get? stepId).filter (·.tenantId = tenant) with
      | none => w
      | some s =>
        (w.updateStep tenant stepId .success ⟨.finite 1, "1.0"⟩ outputSnapshot none).log
          (.approved s.runId s.nodeId))
  | .updateRunStatus tenant runId status outputPayload error =>
    (.ok (), w.updateRunStatus tenant runId status outputPayload error)
  | .getByVersion tenant workflowId version =>
    (.ok (w.registry.getByVersion tenant workflowId version), w)
  | .getWorkflow tenant workflowId => (.ok (w.registry.getById tenant workflowId), w)
  | .listWorkflows tenant =>
    (.ok ((w.registry.workflows.rows.filter (·.tenantId = tenant)).reverse.take 100), w)
  | .getByTriggerPath tenant path =>
    (.ok ((w.registry.workflows.rows.filter (·.tenantId = tenant)).find? (·.listensOn path)), w)
  | .createWorkflow tenant wf =>
    let (res, registry) := w.registry.create tenant wf
    (res, { w with registry })
  | .getDeadLetter tenant itemId =>
    (.ok ((w.deadLetters.get? itemId).filter (·.tenantId = tenant)), w)
  | .createDeadLetter tenant runId node workflowId reason errorCategory attempts payload =>
    (.ok (), { w with
      deadLetters := w.deadLetters.insertFresh (World.newDeadLetter tenant runId node workflowId
        reason errorCategory attempts payload) fun _ => rfl })
  | .markReplayed tenant itemId =>
    (.ok (), { w with
      deadLetters := w.deadLetters.update (fun d => d.id = itemId ∧ d.tenantId = tenant)
        (fun d => { d with status := .replayed }) fun _ => rfl })
  | .listPending tenant =>
    (.ok ((w.deadLetters.rows.filter fun d => d.tenantId = tenant ∧ d.status = .pending).reverse.take
      100), w)
  | .getCircuitBreakerState connectionId => (.ok (env.circuitState w connectionId), w)
  | .recordCircuitFailure connectionId => (.ok (env.circuitFailure w connectionId), w)
  | .dispatchNodeType runId node config context =>
    let res := env.dispatch w node config context
    (res, w.log (.dispatched runId node.id config context res.isOk))
  | .random => (.ok (env.random w), w)
  | .elapsedMs => (.ok (env.elapsedMs w), w)
  | .uuid => (.ok (env.uuid w), w)
  | .recordCircuitSuccess _ => (.ok (), w)
  | .reportTripped .. => (.ok (), w)
  | .reportRecovered _ => (.ok (), w)
  | .recordCircuitMetric .. => (.ok (), w)
  | .recordSpan .. => (.ok (), w)
  | .incDlqSize _ => (.ok (), w)
  | .recordAudit .. => (.ok (), w)
  | .publish .. => (.ok (), w)
  | .sleep _ => (.ok (), w)

/-- The fault of a call. A dispatch has its own exceptions. -/
def faultOf (o : Op) (w : World) : Option (PyError × Bool) :=
  match o with
  | .dispatchNodeType .. => none
  | o => env.fault w o

/-- What a call answers, and the world it leaves. -/
def handle : Handler Op Op.Res PyError World := fun o w =>
  match env.faultOf o w with
  | none => ((env.effect o w).1, { (env.effect o w).2 with tick := w.tick + 1 })
  | some (e, false) => (.error e, { w with tick := w.tick + 1 })
  | some (e, true) => (.error e, { (env.effect o w).2 with tick := w.tick + 1 })

/-- A call that does not raise has its effect. -/
theorem handle_of_faultOf {o : Op} {w : World} (h : env.faultOf o w = none) :
    env.handle o w =
      ((env.effect o w).1, { (env.effect o w).2 with tick := w.tick + 1 }) := by
  unfold handle
  rw [h]

/-- What holds without the effect of a call, and with it, holds behind the call. -/
theorem handle_induction {P : World → Prop} {o : Op} {w : World}
    (hkept : P { w with tick := w.tick + 1 })
    (heffect : P { (env.effect o w).2 with tick := w.tick + 1 }) : P (env.handle o w).2 := by
  unfold handle
  split
  · exact heffect
  · exact hkept
  · exact heffect

/-- The trace only grows. -/
theorem trace_extends_handle (o : Op) (w : World) : w.trace <+: (env.handle o w).2.trace := by
  have heffect : w.trace <+: (env.effect o w).2.trace := by
    cases o with
    | createRun run definition =>
      simp only [effect]
      split
      · exact List.prefix_rfl
      · exact List.prefix_append _ _
    | setRunning => exact List.prefix_append _ _
    | dispatchNodeType => exact List.prefix_append _ _
    | approveStep =>
      simp only [effect]
      split
      · exact List.prefix_rfl
      · exact List.prefix_append _ _
    | getByIdempotencyKey =>
      simp only [effect]
      split <;> exact List.prefix_rfl
    | _ => exact List.prefix_rfl
  exact env.handle_induction (P := fun w' => w.trace <+: w'.trace) List.prefix_rfl heffect

theorem trace_extends {α : Type} (p : M α) (w : World) :
    w.trace <+: (p.run env.handle w).2.trace :=
  Prog.run_induction env.handle (I := fun w' => w.trace <+: w'.trace)
    (fun o w' h => h.trans (env.trace_extends_handle o w')) p List.prefix_rfl

/-- An environment in which no call raises, every breaker is closed, and a dispatch of a node
ends as `outcome` says. -/
def steady (outcome : String → Except PyError Json) : Env where
  toEvaluator := .source ⟨fun _ => true, fun _ => none⟩
  dispatch := fun _ node _ _ => (outcome node.id).map fun output => ⟨output, ⟨.finite 2, "2.0"⟩⟩
  circuitState := fun _ _ => .closed
  circuitFailure := fun _ _ => .closed
  fault := fun _ _ => none
  random := fun _ => 0
  elapsedMs := fun _ => ⟨.finite 1, "1.0"⟩
  uuid := fun w => toString w.tick

/-- Calls in the order of a schedule, in a steady environment. -/
def steadily (schedule : List ℕ) : List (ℕ × Env) :=
  schedule.map fun i => (i, .steady fun _ => .ok .null)

end Env

end FlowMesh
