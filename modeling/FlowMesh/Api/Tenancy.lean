import FlowMesh.Api.Routers

/-!
# Whose rows the requests are about

A request of a tenant makes its calls on rows of that tenant. Almost every call says so itself; the
return of a run to `RUNNING` names the run alone, and the run is one that the request has read
before. `Minds` follows what a request has read, and `minds_request` says that every request minds
its tenant, whatever its calls answer.
-/

namespace FlowMesh

open Python Async

/-! ## Calls -/

/-- The call is about rows of the tenant, if the runs `own` are the tenant's. -/
def Op.Minds (tenant : String) (own : String → Prop) : Op → Prop
  | .getRun t _ => t = tenant
  | .getByIdempotencyKey t _ => t = tenant
  | .createRun run _ => run.tenantId = tenant
  | .setRunning runId _ => own runId
  | .recordStep t .. => t = tenant
  | .updateStep t .. => t = tenant
  | .approveStep t .. => t = tenant
  | .updateRunStatus t .. => t = tenant
  | .getByVersion t .. => t = tenant
  | .getWorkflow t _ => t = tenant
  | .listWorkflows t => t = tenant
  | .getByTriggerPath t _ => t = tenant
  | .createWorkflow t _ => t = tenant
  | .getDeadLetter t _ => t = tenant
  | .createDeadLetter t .. => t = tenant
  | .markReplayed t _ => t = tenant
  | .listPending t => t = tenant
  | _ => True

theorem Op.Minds.mono {tenant : String} {own own' : String → Prop} {o : Op}
    (ho : o.Minds tenant own) (hown : ∀ runId, own runId → own' runId) : o.Minds tenant own' := by
  cases o with
  | setRunning runId definition => exact hown runId ho
  | _ => exact ho

/-- The run that a call has shown. -/
def Op.Shows : (o : Op) → Except PyError o.Res → String → Prop
  | .getRun _ _, .ok (some (run, _)), runId => runId = run.id
  | _, _, _ => False

/-! ## Programs -/

/-- Every call the program can make is about rows of the tenant; the runs `own`, and those that it
reads, are the tenant's. -/
def Minds (tenant : String) {α : Type} : (String → Prop) → M α → Prop
  | _, .pure _ => True
  | _, .throw _ => True
  | own, .call o k =>
    o.Minds tenant own ∧ ∀ r, Minds tenant (fun runId => own runId ∨ o.Shows r runId) (k r)

namespace Minds

variable {α β : Type} {tenant : String} {own own' : String → Prop}

theorem ret (a : α) : Minds tenant own (pure a : M α) := trivial

theorem raise (e : PyError) : Minds tenant own (.throw e : M α) := trivial

theorem mono {p : M α} (hp : Minds tenant own p) (hown : ∀ runId, own runId → own' runId) :
    Minds tenant own' p := by
  induction p generalizing own own' with
  | pure a => trivial
  | throw e => trivial
  | call o k ih =>
    exact ⟨hp.1.mono hown, fun r => ih r (hp.2 r) fun runId h => h.imp_left (hown runId)⟩

theorem perform {o : Op} (ho : o.Minds tenant own) : Minds tenant own (FlowMesh.perform o) := by
  refine ⟨ho, fun r => ?_⟩
  cases r <;> trivial

theorem bind {p : M α} {f : α → M β} (hp : Minds tenant own p)
    (hf : ∀ a, Minds tenant own (f a)) : Minds tenant own (p >>= f) := by
  change Minds tenant own (p.bind f)
  induction p generalizing own with
  | pure a => exact hf a
  | throw e => trivial
  | call o k ih =>
    exact ⟨hp.1, fun r => ih r (hp.2 r) fun a => (hf a).mono fun _ h => Or.inl h⟩

theorem attempt {p : M α} (hp : Minds tenant own p) : Minds tenant own p.attempt := by
  induction p generalizing own with
  | pure a => trivial
  | throw e => trivial
  | call o k ih => exact ⟨hp.1, fun r => ih r (hp.2 r)⟩

/-- What follows the read of a run knows the run. -/
theorem getRun_bind {runId : String} {f : Option (RunRecord × List RunStepRecord) → M β}
    (hnone : Minds tenant own (f none))
    (hsome : ∀ run steps, Minds tenant (fun id => own id ∨ id = run.id) (f (some (run, steps)))) :
    Minds tenant own (FlowMesh.perform (.getRun tenant runId) >>= f) := by
  refine ⟨rfl, fun r => ?_⟩
  rcases r with e | _ | ⟨run, steps⟩
  · trivial
  · exact hnone.mono fun _ h => Or.inl h
  · exact hsome run steps

end Minds

/-! ## The engine -/

section Node

variable {ev : Evaluator} {tenant runId workflowId : String} {node : WorkflowNode}
  {own : String → Prop}

theorem minds_closeCircuit : Minds tenant own (closeCircuit node) := by
  unfold closeCircuit
  split
  · exact .ret _
  · exact .bind (.perform trivial) fun _ => .bind (.perform trivial) fun _ => .perform trivial

theorem minds_tryNode (config : List (String × Json)) (context : Context) (stepId : ℕ) :
    Minds tenant own (tryNode tenant runId node config context stepId) := by
  refine .bind (.perform trivial) fun res => .bind ?_ fun _ => .ret _
  refine .bind minds_closeCircuit fun _ => ?_
  exact .bind (.perform rfl) fun _ => .perform trivial

theorem minds_onFailure (exc : PyError) : Minds tenant own (onFailure workflowId node exc) := by
  unfold onFailure
  split
  · refine .bind (.perform trivial) fun state => .bind (.perform trivial) fun _ => ?_
    split
    · exact .perform trivial
    · exact .ret _
  · exact .ret _

theorem minds_backoff (attempt : ℕ) : Minds tenant own (backoff ev node attempt) := by
  unfold backoff
  split
  · refine .bind (.perform trivial) fun rnd => ?_
    split
    · exact .raise _
    · exact .perform trivial
  · exact .ret _

theorem minds_retryLoop (config : List (String × Json)) (context : Context) (stepId left : ℕ) :
    ∀ (attempt : ℕ) (lastError : Option PyError) (lastCategory : ErrorCategory),
      Minds tenant own (retryLoop ev tenant runId workflowId node config context stepId left attempt
        lastError lastCategory) := by
  induction left with
  | zero => exact fun _ _ _ => .ret _
  | succ left ih =>
    intro attempt lastError lastCategory
    unfold retryLoop
    refine .bind (minds_backoff attempt) fun _ => ?_
    refine .bind (minds_tryNode config context stepId).attempt fun outcome => ?_
    cases outcome with
    | ok res => exact .ret _
    | error exc =>
      refine .bind (minds_onFailure exc) fun _ => ?_
      split
      · exact ih _ _ _
      · exact .ret _

theorem minds_giveUp (config : List (String × Json)) (stepId : ℕ) (maxAttempts : ℤ)
    (lastError : Option PyError) (lastCategory : ErrorCategory) (attempt : ℕ) :
    Minds tenant own (giveUp tenant runId workflowId node config stepId maxAttempts lastError
      lastCategory attempt) := by
  refine .bind (.perform trivial) fun ms => .bind (.perform rfl) fun _ => ?_
  refine .bind (.perform trivial) fun _ => .bind (.perform trivial) fun _ => ?_
  exact .bind (.perform rfl) fun _ => .ret _

theorem minds_runAttempts (config : List (String × Json)) (context : Context) (stepId : ℕ) :
    Minds tenant own (runAttempts ev tenant runId workflowId node config context stepId) := by
  unfold runAttempts
  split
  · exact .raise _
  · refine .bind (minds_retryLoop config context stepId _ _ _ _) fun outcome => ?_
    cases outcome with
    | done res => exact .ret _
    | gaveUp lastError lastCategory attempt => exact minds_giveUp ..

theorem minds_failFast (config : List (String × Json)) (stepId : ℕ) (connectionId : String) :
    Minds tenant own (failFast tenant runId workflowId node config stepId connectionId) := by
  refine .bind (.perform trivial) fun _ => .bind (.perform rfl) fun _ => ?_
  exact .bind (.perform rfl) fun _ => .ret _

theorem minds_executeNode (context : Context) :
    Minds tenant own (executeNode ev tenant runId workflowId node context) := by
  refine .bind (.perform rfl) fun stepId => ?_
  unfold executeStep
  split
  · exact minds_runAttempts ..
  · refine .bind (.perform trivial) fun state => ?_
    split
    · exact minds_failFast ..
    · exact minds_runAttempts ..

end Node

section Execute

variable {ev : Evaluator} {tenant : String} {own : String → Prop}

theorem minds_traverse {run : RunRecord} {d : WorkflowDefinition} {completed : List String}
    (fuel : ℕ) :
    ∀ t : Traversal, Minds tenant own (traverse ev tenant run d completed fuel t) := by
  induction fuel with
  | zero => exact fun t => .ret _
  | succ fuel ih =>
    intro t
    unfold traverse
    split
    · exact .ret _
    · split
      · exact ih _
      · split
        · exact ih _
        · split
          · exact ih _
          · split
            · exact .bind (.bind (.perform rfl) fun _ => .perform rfl) fun _ => .ret _
            · refine .bind (minds_executeNode t.context) fun result => ?_
              cases result with
              | failure error => exact .ret _
              | success output durationMs => exact ih _

theorem minds_finish (run : RunRecord) (wfId : String) (outcome : Outcome) :
    Minds tenant own (finish tenant run wfId outcome) := by
  cases outcome with
  | parked => exact .bind (.perform rfl) fun _ => .ret _
  | finished lastOutput =>
    refine .bind (.perform rfl) fun _ => .bind (.attempt (.perform trivial)) fun _ => ?_
    exact .bind (.perform rfl) fun _ => .ret _
  | failed error =>
    refine .bind (.perform rfl) fun _ => .bind (.attempt (.perform trivial)) fun _ => ?_
    exact .bind (.perform rfl) fun _ => .ret _

theorem minds_resume (a : ExecuteArgs) (traceId : String) (run : RunRecord)
    (steps : List RunStepRecord) : Minds tenant own (resume ev tenant a traceId run steps) :=
  .bind (minds_traverse _ _) fun outcome => minds_finish run a.wfId outcome

theorem minds_executeTraced (a : ExecuteArgs) (traceId : String) :
    Minds tenant own (executeTraced ev tenant a traceId) := by
  unfold executeTraced
  refine .getRun_bind ?_ fun run steps => ?_
  · exact .bind (.perform rfl) fun _ => minds_resume ..
  · exact .bind (.perform (Or.inr rfl)) fun _ => minds_resume ..

theorem minds_execute (a : ExecuteArgs) : Minds tenant own (execute ev tenant a) := by
  unfold execute
  split
  · exact minds_executeTraced ..
  · exact .bind (.perform trivial) fun traceId => minds_executeTraced ..

theorem minds_parseDefinition (s : WorkflowSpec) : Minds tenant own (parseDefinition s) := by
  unfold parseDefinition
  split
  · exact .ret _
  · exact .raise _

theorem minds_lookupDefinition (workflowId : String) (version : ℤ) :
    Minds tenant own (lookupDefinition tenant workflowId version) := by
  refine .bind (.perform rfl) fun verRecord => ?_
  cases verRecord with
  | some verRecord => exact minds_parseDefinition _
  | none =>
    refine .bind (.perform rfl) fun wf => ?_
    cases wf with
    | some wf => exact minds_parseDefinition _
    | none => exact .raise _

theorem minds_resumeApproval (runId : String) (a : ApprovalArgs) :
    Minds tenant own (resumeApproval ev tenant runId a) := by
  refine .bind (.perform rfl) fun run? => ?_
  rcases run? with _ | ⟨run, steps⟩
  · exact .raise _
  dsimp only
  split
  · exact .raise _
  split
  · have hpass : Minds tenant own
        (passStep tenant (steps.find? (·.status = .waitingApproval)) a) := by
      unfold passStep
      split
      · exact .ret _
      · exact .perform rfl
    exact hpass.bind fun _ => .bind (minds_lookupDefinition ..) fun d => minds_execute _
  · have hreject : Minds tenant own
        (rejectStep tenant (steps.find? (·.status = .waitingApproval)) a) := by
      unfold rejectStep
      split
      · exact .ret _
      · exact .perform rfl
    refine hreject.bind fun _ => .bind (.perform rfl) fun _ => ?_
    exact .bind (.perform rfl) fun _ => .ret _

end Execute

/-! ## The routers -/

/-- A request that starts a run or goes on with one. -/
inductive RunRequest
  | execute (a : ExecuteArgs)
  | webhook (r : WebhookRequest)
  | approveRun (runId : String) (a : ApprovalArgs)
  | rejectRun (runId : String) (a : ApprovalArgs)
  | replayRun (runId : String)
  | replayDeadLetter (fallback : ℕ → Option ReplayResponse) (itemId : ℕ)

/-- The program of a request, for its effects. -/
def RunRequest.prog (ev : Evaluator) (tenant : String) : RunRequest → M Unit
  | .execute a => do
    let _ ← FlowMesh.execute ev tenant a
  | .webhook r => do
    let _ ← handleWebhookIngress ev tenant r
  | .approveRun runId a => do
    let _ ← FlowMesh.approveRun ev tenant runId a
  | .rejectRun runId a => do
    let _ ← FlowMesh.rejectRun ev tenant runId a
  | .replayRun runId => do
    let _ ← FlowMesh.replayRun ev tenant runId
  | .replayDeadLetter fallback itemId => do
    let _ ← FlowMesh.replayDeadLetter ev tenant fallback itemId

section Routers

variable {ev : Evaluator} {tenant : String} {own : String → Prop}

theorem minds_waitingRun (runId : String) : Minds tenant own (waitingRun tenant runId) := by
  refine .bind (.perform rfl) fun run? => ?_
  rcases run? with _ | ⟨run, steps⟩
  · exact .raise _
  dsimp only
  split
  · exact .raise _
  · exact .ret _

theorem minds_auditedRun (runId action : String) (run : RunRecord) :
    Minds tenant own (auditedRun tenant runId action run) :=
  .bind (.perform trivial) fun _ => .bind (.perform rfl) fun _ => .ret _

theorem minds_approveRun (runId : String) (a : ApprovalArgs) :
    Minds tenant own (approveRun ev tenant runId a) := by
  refine .bind (minds_waitingRun runId) fun _ => ?_
  refine .bind (minds_resumeApproval runId _).attempt fun outcome => ?_
  cases outcome with
  | error exc => exact .raise _
  | ok run => exact minds_auditedRun ..

theorem minds_rejectRun (runId : String) (a : ApprovalArgs) :
    Minds tenant own (rejectRun ev tenant runId a) := by
  refine .bind (minds_waitingRun runId) fun _ => ?_
  exact .bind (minds_resumeApproval runId _) fun run => minds_auditedRun ..

theorem minds_traceIdOr (traceId : Option String) : Minds tenant own (traceIdOr traceId) := by
  unfold traceIdOr
  split
  · exact .ret _
  · exact .perform trivial

theorem minds_replayRun (runId : String) : Minds tenant own (replayRun ev tenant runId) := by
  refine .bind (.perform rfl) fun run? => ?_
  rcases run? with _ | ⟨run, steps⟩
  · exact .raise _
  refine .bind (.perform rfl) fun wf? => ?_
  cases wf? with
  | none => exact .raise _
  | some wf =>
    refine .bind (.perform trivial) fun uuid => .bind (minds_parseDefinition _) fun wfDef => ?_
    refine .bind (.attempt (.bind (minds_traceIdOr _) fun _ => minds_execute _)) fun outcome => ?_
    cases outcome with
    | error exc => exact .raise _
    | ok run => exact .bind (.perform trivial) fun _ => .ret _

theorem minds_replayItem (item : DeadLetterRecord) :
    Minds tenant own (replayItem ev tenant item) := by
  have hworkflow : Minds tenant own (replayWorkflow tenant item.workflowId) := by
    refine .bind (.perform rfl) fun wf? => ?_
    cases wf? with
    | some wf => exact .ret _
    | none => exact .bind (.perform rfl) fun _ => .ret _
  refine .bind (.perform rfl) fun run? => hworkflow.bind fun wf? => ?_
  split
  · refine .bind (minds_parseDefinition _) fun wfDef => .bind (minds_execute _) fun reRun => ?_
    split
    · exact .bind (.perform rfl) fun _ => .ret _
    · exact .ret _
  · exact .bind (.perform rfl) fun _ => .ret _

theorem minds_replayDeadLetter (fallback : ℕ → Option ReplayResponse) (itemId : ℕ) :
    Minds tenant own (replayDeadLetter ev tenant fallback itemId) := by
  refine .bind (.perform rfl) fun item? => ?_
  cases item? with
  | some item => exact minds_replayItem item
  | none =>
    dsimp only
    split
    · exact .ret _
    · exact .raise _

theorem minds_ingressResponse (run : RunRecord) (traceId : String) :
    Minds tenant own (ingressResponse run traceId) := by
  unfold ingressResponse
  split
  · exact .ret _
  · exact .ret _
  · exact .raise _

theorem minds_ingest (r : WebhookRequest) (traceId : String) :
    Minds tenant own (ingest ev tenant r traceId) := by
  have hevent : Minds tenant own (eventMessage r.payload) := by
    unfold eventMessage
    split
    · exact .ret _
    · exact .raise _
  have hworkflow : Minds tenant own (resolveWorkflow tenant r.cleanPath) := by
    refine .bind (.perform rfl) fun wf? => ?_
    cases wf? with
    | some wf => exact .ret _
    | none => exact .bind (.perform trivial) fun uuid => .perform rfl
  refine hevent.bind fun event => .bind (.perform trivial) fun _ => hworkflow.bind fun wf => ?_
  refine .bind (minds_parseDefinition _) fun wfDef => .bind (.perform trivial) fun uuid => ?_
  exact .bind (minds_execute _) fun run => minds_ingressResponse ..

theorem minds_handleWebhookIngress (r : WebhookRequest) :
    Minds tenant own (handleWebhookIngress ev tenant r) := by
  refine .bind (minds_traceIdOr _) fun traceId => ?_
  split
  · exact minds_ingest ..
  · refine .bind (.perform rfl) fun existing? => ?_
    cases existing? with
    | some existing => exact minds_ingressResponse ..
    | none => exact minds_ingest ..

/-- **Every request minds its tenant.** -/
theorem minds_request (q : RunRequest) : Minds tenant own (q.prog ev tenant) := by
  cases q with
  | execute a => exact .bind (minds_execute a) fun _ => .ret _
  | webhook r => exact .bind (minds_handleWebhookIngress r) fun _ => .ret _
  | approveRun runId a => exact .bind (minds_approveRun runId a) fun _ => .ret _
  | rejectRun runId a => exact .bind (minds_rejectRun runId a) fun _ => .ret _
  | replayRun runId => exact .bind (minds_replayRun runId) fun _ => .ret _
  | replayDeadLetter fallback itemId =>
    exact .bind (minds_replayDeadLetter fallback itemId) fun _ => .ret _

end Routers

end FlowMesh
