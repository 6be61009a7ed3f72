import FlowMesh.Engine.Execute

/-!
# The calls of the engine

Which calls the parts of the engine can make, whatever is answered. What follows the creation of a
run, or its return to `RUNNING`, makes inner calls only (`uses_resume`): it starts no run, and it
looks up no workflow. Only `settle` marks a step as successful; the parts around it are calm.
-/

namespace FlowMesh

open Python Async

/-- The calls behind the start of a run. -/
def Op.Inner : Op → Prop
  | .getByIdempotencyKey .. => False
  | .createRun .. => False
  | .setRunning .. => False
  | .approveStep .. => False
  | .getByVersion .. => False
  | .getWorkflow .. => False
  | .listWorkflows _ => False
  | .getByTriggerPath .. => False
  | .createWorkflow .. => False
  | .getDeadLetter .. => False
  | .markReplayed .. => False
  | .listPending _ => False
  | _ => True

/-- The calls of the engine that make no step successful, and let only approvals wait. -/
def Op.Calm : Op → Prop
  | .recordStep _ _ node status _ =>
    status ≠ .success ∧ (status = .waitingApproval → node.type = "action.approval")
  | .updateStep _ _ status _ _ _ => status ≠ .success ∧ status ≠ .waitingApproval
  | .approveStep _ _ _ => False
  | _ => True

/-- Inner calls that are calm. -/
def Op.InnerCalm (o : Op) : Prop := o.Inner ∧ o.Calm

/-- The calls around an attempt at a node: the circuit breaker's, and the pauses. -/
def Op.Bookkeeping : Op → Prop
  | .recordCircuitSuccess _ => True
  | .recordCircuitFailure _ => True
  | .recordCircuitMetric .. => True
  | .reportTripped .. => True
  | .reportRecovered _ => True
  | .random => True
  | .sleep _ => True
  | _ => False

/-- The calls of the attempts at a node. -/
def Op.Attempt : Op → Prop
  | .dispatchNodeType .. => True
  | .updateStep .. => True
  | .recordSpan .. => True
  | o => o.Bookkeeping

theorem Op.Bookkeeping.innerCalm {o : Op} (ho : o.Bookkeeping) : o.InnerCalm := by
  cases o <;> first | exact ho.elim | exact ⟨trivial, trivial⟩

theorem Op.Bookkeeping.attempt {o : Op} (ho : o.Bookkeeping) : o.Attempt := by
  cases o <;> first | exact ho.elim | trivial

theorem Op.Attempt.inner {o : Op} (ho : o.Attempt) : o.Inner := by
  cases o <;> first | exact ho.elim | trivial

section Node

variable {ev : Evaluator} {tenant runId workflowId : String} {node : WorkflowNode}

theorem uses_closeCircuit : (closeCircuit node).Uses Op.Bookkeeping := by
  unfold closeCircuit
  split
  · exact .ret _
  · refine .bind (.perform trivial) fun _ => ?_
    exact .bind (.perform trivial) fun _ => .perform trivial

theorem uses_backoff (attempt : ℕ) : (backoff ev node attempt).Uses Op.Bookkeeping := by
  unfold backoff
  split
  · refine .bind (.perform trivial) fun rnd => ?_
    split
    · exact .raise _
    · exact .perform trivial
  · exact .ret _

theorem uses_onFailure (exc : PyError) : (onFailure workflowId node exc).Uses Op.Bookkeeping := by
  unfold onFailure
  split
  · refine .bind (.perform trivial) fun state => ?_
    refine .bind (.perform trivial) fun _ => ?_
    split
    · exact .perform trivial
    · exact .ret _
  · exact .ret _

theorem uses_giveUp (config : List (String × Json)) (stepId : ℕ) (maxAttempts : ℤ)
    (lastError : Option PyError) (lastCategory : ErrorCategory) (attempt : ℕ) :
    (giveUp tenant runId workflowId node config stepId maxAttempts lastError lastCategory
      attempt).Uses Op.InnerCalm := by
  refine .bind (.perform ⟨trivial, trivial⟩) fun ms => ?_
  refine .bind (.perform ⟨trivial, nofun, nofun⟩) fun _ => ?_
  refine .bind (.perform ⟨trivial, trivial⟩) fun _ => ?_
  refine .bind (.perform ⟨trivial, trivial⟩) fun _ => ?_
  exact .bind (.perform ⟨trivial, trivial⟩) fun _ => .ret _

theorem uses_failFast (config : List (String × Json)) (stepId : ℕ) (connectionId : String) :
    (failFast tenant runId workflowId node config stepId connectionId).Uses Op.InnerCalm := by
  refine .bind (.perform ⟨trivial, trivial⟩) fun _ => ?_
  refine .bind (.perform ⟨trivial, nofun, nofun⟩) fun _ => ?_
  exact .bind (.perform ⟨trivial, trivial⟩) fun _ => .ret _

theorem uses_tryNode (config : List (String × Json)) (context : Context) (stepId : ℕ) :
    (tryNode tenant runId node config context stepId).Uses Op.Attempt := by
  refine .bind (.perform trivial) fun res => .bind ?_ fun _ => .ret _
  refine .bind (uses_closeCircuit.mono fun _ h => h.attempt) fun _ => ?_
  exact .bind (.perform trivial) fun _ => .perform trivial

theorem uses_retryLoop (config : List (String × Json)) (context : Context) (stepId left : ℕ) :
    ∀ (attempt : ℕ) (lastError : Option PyError) (lastCategory : ErrorCategory),
      (retryLoop ev tenant runId workflowId node config context stepId left attempt lastError
        lastCategory).Uses Op.Attempt := by
  induction left with
  | zero => exact fun _ _ _ => .ret _
  | succ left ih =>
    intro attempt lastError lastCategory
    unfold retryLoop
    refine .bind ((uses_backoff attempt).mono fun _ h => h.attempt) fun _ => ?_
    refine .bind (uses_tryNode config context stepId).attempt fun outcome => ?_
    cases outcome with
    | ok res => exact .ret _
    | error exc =>
      refine .bind ((uses_onFailure exc).mono fun _ h => h.attempt) fun _ => ?_
      split
      · exact ih _ _ _
      · exact .ret _

theorem uses_runAttempts (config : List (String × Json)) (context : Context) (stepId : ℕ) :
    (runAttempts ev tenant runId workflowId node config context stepId).Uses Op.Inner := by
  unfold runAttempts
  split
  · exact .raise _
  · refine .bind ((uses_retryLoop config context stepId _ _ _ _).mono fun _ h => h.inner)
      fun outcome => ?_
    cases outcome with
    | done res => exact .ret _
    | gaveUp lastError lastCategory attempt => exact (uses_giveUp ..).mono fun _ h => h.1

theorem uses_executeNode (context : Context) :
    (executeNode ev tenant runId workflowId node context).Uses Op.Inner := by
  refine .bind (.perform trivial) fun stepId => ?_
  unfold executeStep
  split
  · exact uses_runAttempts ..
  · refine .bind (.perform trivial) fun state => ?_
    split
    · exact (uses_failFast ..).mono fun _ h => h.1
    · exact uses_runAttempts ..

end Node

section Run

variable {ev : Evaluator} {tenant : String}

theorem uses_park (runId : String) {node : WorkflowNode} (hnode : node.type = "action.approval")
    (context : Context) : (park ev tenant runId node context).Uses Op.InnerCalm :=
  .bind (.perform ⟨trivial, nofun, fun _ => hnode⟩) fun _ => .perform ⟨trivial, trivial⟩

theorem uses_traverse {run : RunRecord} {d : WorkflowDefinition} {completed : List String}
    (fuel : ℕ) : ∀ t : Traversal, (traverse ev tenant run d completed fuel t).Uses Op.Inner := by
  induction fuel with
  | zero => exact fun t => .ret _
  | succ fuel ih =>
    intro t
    unfold traverse
    split
    · exact .ret _
    · split
      · exact ih _
      · split
        · exact ih _
        · split
          · exact ih _
          · split
            · next hnode =>
              exact .bind ((uses_park run.id hnode t.context).mono fun _ h => h.1) fun _ => .ret _
            · refine .bind (uses_executeNode t.context) fun result => ?_
              cases result with
              | failure error => exact .ret _
              | success output durationMs => exact ih _

theorem uses_finish (run : RunRecord) (wfId : String) (outcome : Outcome) :
    (finish tenant run wfId outcome).Uses Op.InnerCalm := by
  cases outcome with
  | parked => exact .bind (.perform ⟨trivial, trivial⟩) fun _ => .ret _
  | finished lastOutput =>
    refine .bind (.perform ⟨trivial, trivial⟩) fun _ => ?_
    refine .bind (.attempt (.perform ⟨trivial, trivial⟩)) fun _ => ?_
    exact .bind (.perform ⟨trivial, trivial⟩) fun _ => .ret _
  | failed error =>
    refine .bind (.perform ⟨trivial, trivial⟩) fun _ => ?_
    refine .bind (.attempt (.perform ⟨trivial, trivial⟩)) fun _ => ?_
    exact .bind (.perform ⟨trivial, trivial⟩) fun _ => .ret _

/-- **Once a run is started, only inner calls follow.** -/
theorem uses_resume (a : ExecuteArgs) (traceId : String) (run : RunRecord)
    (steps : List RunStepRecord) : (resume ev tenant a traceId run steps).Uses Op.Inner :=
  .bind (uses_traverse ..) fun outcome => (uses_finish run a.wfId outcome).mono fun _ h => h.1

theorem uses_lookupDefinition (workflowId : String) (version : ℤ) :
    (lookupDefinition tenant workflowId version).Uses Op.Calm := by
  have hparse : ∀ spec, (parseDefinition spec).Uses Op.Calm := by
    intro spec
    unfold parseDefinition
    split
    · exact .ret _
    · exact .raise _
  refine .bind (.perform trivial) fun verRecord => ?_
  cases verRecord with
  | some verRecord => exact hparse _
  | none =>
    refine .bind (.perform trivial) fun wf => ?_
    cases wf with
    | some wf => exact hparse _
    | none => exact .raise _

theorem uses_reject (run : RunRecord) (approvalStep : Option RunStepRecord) (a : ApprovalArgs) :
    (reject tenant run approvalStep a).Uses Op.InnerCalm := by
  have hstep : (rejectStep tenant approvalStep a).Uses Op.InnerCalm := by
    cases approvalStep with
    | none => exact .ret _
    | some step => exact .perform ⟨trivial, nofun, nofun⟩
  refine hstep.bind fun _ => .bind (.perform ⟨trivial, trivial⟩) fun _ => ?_
  exact .bind (.perform ⟨trivial, trivial⟩) fun _ => .ret _

end Run

end FlowMesh
