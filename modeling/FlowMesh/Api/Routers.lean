import FlowMesh.Engine.Execute

/-!
# The routers that start and resume runs

`handle_webhook_ingress` of `routers/webhooks.py`, `replay_run`, `approve_run` and `reject_run` of
`routers/runs.py` and `replay_dead_letter` of `routers/incidents.py`, as programs over the awaited
calls. A response keeps the fields that are about the run; an error is an `HTTPException`, or
whatever exception the handler lets through.
-/

namespace FlowMesh

open Python Async

/-- `HTTPException(status_code, detail)`. -/
def httpException (status : ℕ) (detail : String) : PyError :=
  ⟨.httpException status, toString status ++ ": " ++ detail⟩

section Routers

variable (ev : Evaluator) (tenant : String)

/-! ## `routers/runs.py` -/

/-- What `approve_run` and `reject_run` do up to the engine's call: the run, if it waits. -/
def waitingRun (runId : String) : M RunRecord := do
  match ← perform (.getRun tenant runId) with
  | none => .throw (httpException 404 "Run not found")
  | some (run, _) =>
    if run.status ≠ .waitingApproval then
      .throw (httpException 400 ("Run " ++ runId ++ " is not waiting for approval (status: " ++
        run.status.text ++ ")"))
    else return run

/-- The end of `approve_run` and `reject_run`. -/
def auditedRun (runId action : String) (resumedRun : RunRecord) : M RunRecord := do
  perform (.recordAudit action ("runs/" ++ runId))
  let fullRun ← perform (.getRun tenant runId)
  return (fullRun.map (·.1)).getD resumedRun

/-- `approve_run`. -/
def approveRun (runId : String) (a : ApprovalArgs) : M RunRecord := do
  let _ ← waitingRun tenant runId
  match ← (resumeApproval ev tenant runId { a with approved := true }).attempt with
  | .error exc => .throw (httpException 500 ("Failed to resume approved run: " ++ exc.message))
  | .ok resumedRun => auditedRun tenant runId "run.approve" resumedRun

/-- `reject_run`. -/
def rejectRun (runId : String) (a : ApprovalArgs) : M RunRecord := do
  let _ ← waitingRun tenant runId
  let resumedRun ← resumeApproval ev tenant runId { a with approved := false }
  auditedRun tenant runId "run.reject" resumedRun

/-- `f"RUN-{uuid.uuid4().hex[:6].upper()}"`. -/
def newRunId (uuid : String) : String :=
  "RUN-" ++ String.ofList ((uuid.toList.take 6).map Char.toUpper)

/-- `orig_run.trace_id or uuid.uuid4().hex`. -/
def traceIdOr (traceId : Option String) : M String :=
  match orElse traceId none with
  | some id => return id
  | none => perform .uuid

/-- `replay_run`. -/
def replayRun (runId : String) : M RunRecord := do
  match ← perform (.getRun tenant runId) with
  | none => .throw (httpException 404 ("Run '" ++ runId ++ "' not found"))
  | some (origRun, _) =>
    match ← perform (.getWorkflow tenant origRun.workflowId) with
    | none => .throw (httpException 400 ("Workflow definition for '" ++ origRun.workflowId ++
        "' not found"))
    | some wf => do
      let uuid ← perform .uuid
      let wfDef ← parseDefinition wf.definitionJson
      let reRun ← (do
        let traceId ← traceIdOr (some origRun.traceId)
        execute ev tenant
          { definition := wfDef
            runId := newRunId uuid
            inputPayload := origRun.inputPayload.or (.obj [])
            traceId := some traceId
            triggerSource := "replay:" ++ origRun.id }).attempt
      match reRun with
      | .error exc => .throw (httpException 500 ("Execution error during run replay: " ++
          exc.message))
      | .ok reRun => do
        perform (.recordAudit "run.replay" ("runs/" ++ newRunId uuid))
        return reRun

/-! ## `routers/incidents.py` -/

/-- What `replay_dead_letter` answers. -/
structure ReplayResponse where
  status : String
  itemId : ℕ
  runId : Option String := none
  runStatus : Option RunStatus := none
  message : String

/-- The workflow a dead letter is replayed with: its own, else the first of the tenant's list. -/
def replayWorkflow (workflowId : String) : M (Option WorkflowRecord) := do
  match ← perform (.getWorkflow tenant workflowId) with
  | some wf => return some wf
  | none => return (← perform (.listWorkflows tenant)).head?

/-- `replay_dead_letter` once the item is found. -/
def replayItem (item : DeadLetterRecord) : M ReplayResponse := do
  let run? ← perform (.getRun tenant item.runId)
  let wf? ← replayWorkflow tenant item.workflowId
  match run?, wf? with
  | some (run, _), some wf => do
    let wfDef ← parseDefinition wf.definitionJson
    let reRun ← execute ev tenant
      { definition := wfDef
        runId := run.id
        inputPayload := run.inputPayload
        traceId := some run.traceId
        triggerSource := "dlq_replay:" ++ toString item.id }
    if reRun.status = .success then do
      perform (.markReplayed tenant item.id)
      return { status := "REPLAYED", itemId := item.id, runId := some run.id,
               runStatus := some reRun.status,
               message := "Successfully replayed DLQ event into run " ++ run.id ++
                 " with status SUCCESS" }
    else
      return { status := "FAILED", itemId := item.id, runId := some run.id,
               runStatus := some reRun.status,
               message := "Replay attempt resulted in " ++ reRun.status.text ++ ": " ++
                 reRun.error.getD "None" }
  | _, _ => do
    perform (.markReplayed tenant item.id)
    return { status := "REPLAYED", itemId := item.id,
             message := "Event " ++ toString item.id ++ " replayed" }

/-- `replay_dead_letter`; `fallback` is what the list of demonstration items answers in a
development or test environment. -/
def replayDeadLetter (fallback : ℕ → Option ReplayResponse) (itemId : ℕ) : M ReplayResponse := do
  match ← perform (.getDeadLetter tenant itemId) with
  | some item => replayItem ev tenant item
  | none =>
    match fallback itemId with
    | some response => return response
    | none => .throw (httpException 404 "DLQ item not found")

/-! ## `routers/webhooks.py` -/

/-- A webhook request; the body is `none` if it is no JSON. -/
structure WebhookRequest where
  webhookPath : String
  body : Option Json
  xTraceId : Option String := none
  xIdempotencyKey : Option String := none

/-- `"/" + webhook_path.strip("/")`. -/
def WebhookRequest.cleanPath (r : WebhookRequest) : String :=
  String.ofList ('/' :: stripSlashes r.webhookPath)

/-- `payload`. -/
def WebhookRequest.payload (r : WebhookRequest) : Json := r.body.getD (.obj [])

/-- `WebhookIngressResponse`. -/
structure WebhookIngressResponse where
  success : Bool
  runId : String
  status : RunStatus
  traceId : String
  output : Json

/-- `WebhookIngressResponse(...)` of a run: the output has to be a dictionary, or missing. -/
def ingressResponse (run : RunRecord) (traceId : String) : M WebhookIngressResponse :=
  match run.outputPayload with
  | .null => return ⟨run.status = .success, run.id, run.status, traceId, .null⟩
  | .obj items => return ⟨run.status = .success, run.id, run.status, traceId, .obj items⟩
  | _ => .throw ⟨.validationError, "output: Input should be a valid dictionary"⟩

/-- `EventMessage(payload=payload)`: the payload has to be a dictionary. -/
def eventMessage (payload : Json) : M Json :=
  match payload with
  | .obj items => return .obj items
  | _ => .throw ⟨.validationError, "payload: Input should be a valid dictionary"⟩

/-- The row that a webhook without a workflow creates. -/
def autoWorkflow (uuid : String) : WorkflowRecord where
  id := "wf_" ++ String.ofList (uuid.toList.take 8)
  tenantId := tenant
  name := "Order Ingress Processing"
  description := "Auto-created webhook processing workflow"
  status := .active
  version := 1
  triggerType := "webhook"
  definitionJson := defaultDemoWorkflow

/-- The workflow that listens on the path, or a new one. -/
def resolveWorkflow (cleanPath : String) : M WorkflowRecord := do
  match ← perform (.getByTriggerPath tenant cleanPath) with
  | some wf => return wf
  | none => do
    let uuid ← perform .uuid
    perform (.createWorkflow tenant (autoWorkflow tenant uuid))

/-- `handle_webhook_ingress` behind the look-up of the idempotency key. -/
def ingest (r : WebhookRequest) (traceId : String) : M WebhookIngressResponse := do
  let event ← eventMessage r.payload
  perform (.publish ("events." ++ tenant ++ ".webhook") event)
  let wf ← resolveWorkflow tenant r.cleanPath
  let wfDef ← parseDefinition wf.definitionJson
  let uuid ← perform .uuid
  let run ← execute ev tenant
    { definition := wfDef
      runId := newRunId uuid
      inputPayload := r.payload
      traceId := some traceId
      triggerSource := "webhook:" ++ r.cleanPath
      idempotencyKey := r.xIdempotencyKey }
  ingressResponse run traceId

/-- `handle_webhook_ingress`. -/
def handleWebhookIngress (r : WebhookRequest) : M WebhookIngressResponse := do
  let traceId ← traceIdOr r.xTraceId
  match orElse r.xIdempotencyKey none with
  | none => ingest ev tenant r traceId
  | some key => do
    match ← perform (.getByIdempotencyKey tenant key) with
    | some existing => ingressResponse existing existing.traceId
    | none => ingest ev tenant r traceId

end Routers

end FlowMesh
