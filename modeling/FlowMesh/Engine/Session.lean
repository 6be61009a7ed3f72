import Mathlib.Logic.Relation
import FlowMesh.Engine.Traversal

/-!
# Calls on one run

`Runs` says what a whole `execute` call can do to the ledger of its run, `Resumes` what
`resume_approval` can do. `Call` is one call on a run, or anything that leaves the run's ledger
alone, and a session is a sequence of calls (`Relation.ReflTransGen`). Each call of a session has
an environment of its own, so edge conditions, dispatches and faults differ freely between calls.

`session_invariant` is the induction rule for properties of ledgers over sessions.
-/

namespace FlowMesh

open Python Database Async

/-! ## `execute` -/

/-- A ledger that a world can have for the run. -/
def Ledger.OfRun (tenant runId : String) (L : Ledger) : Prop :=
  ∀ run, L.run = some run → run.id = runId ∧ run.tenantId = tenant

theorem Env.Does.assume {env : Env} {tenant runId : String} {α : Type} {p : M α} {L : Ledger}
    {Φ : Except PyError α → Ledger → Prop}
    (h : L.OfRun tenant runId → env.Does tenant runId p L Φ) : env.Does tenant runId p L Φ := by
  rintro w rfl
  refine h (fun run hrun => ?_) w rfl
  exact (World.run?_eq_some.1 hrun).2

/-- The ledger after the outcome of the traversal was stored. A parked run is stored by then. -/
def Ledger.close (L : Ledger) : Outcome → Ledger
  | .parked => L
  | .finished lastOutput => L.setRun fun run =>
    { run with status := .success, outputPayload := lastOutput, error := none }
  | .failed error => L.setRun fun run =>
    { run with status := .failed, outputPayload := .null, error := some error }

/-- The ledger when the traversal starts. -/
def Ledger.begin (L : Ledger) (tenant : String) (a : ExecuteArgs) (traceId : String) : Ledger :=
  { L with
    run := some (match L.run with
      | none => a.newRun tenant traceId
      | some run => { run with status := .running }) }.log
    [.executing a.runId a.definition.toWorkflowSpec]

/-- The steps that `execute` reads at its start. -/
def Ledger.snapshot (L : Ledger) : List RunStepRecord :=
  match L.run with
  | none => []
  | some _ => L.steps

/-- The state in which the traversal starts. -/
def ExecuteArgs.start (tenant : String) (a : ExecuteArgs) (traceId : String)
    (steps : List RunStepRecord) : Traversal :=
  ⟨a.definition.startNodes, [], Context.preload ⟨a.inputPayload, [], tenant, traceId⟩ steps, .null⟩

/-- The trace id that `execute` was given, or any if it was given none. -/
def ExecuteArgs.Traced (a : ExecuteArgs) (traceId : String) : Prop :=
  ∀ id, orElse a.traceId none = some id → traceId = id

/-- How the statements behind the traversal end. -/
inductive Ends (L : Ledger) : Except PyError Outcome → Except PyError RunRecord → Ledger → Prop
  | raised (e : PyError) : Ends L (.error e) (.error e) L
  | unstored (o : Outcome) (e : PyError) : Ends L (.ok o) (.error e) L
  | closed (o : Outcome) (r : Except PyError RunRecord) : Ends L (.ok o) r (L.close o)

/-- What an update of the run keeps, the end keeps. -/
theorem Ends.invariant {I : Ledger → Prop} {L L' : Ledger} {r : Except PyError Outcome}
    {r' : Except PyError RunRecord} (h : Ends L r r' L') (hset : ∀ f, I (L.setRun f)) (hL : I L) :
    I L' := by
  cases h with
  | raised e => exact hL
  | unstored o e => exact hL
  | closed o r =>
    cases o with
    | parked => exact hL
    | finished lastOutput => exact hset _
    | failed error => exact hset _

/-- What `execute` can do to the ledger of its run. -/
inductive Runs (env : Env) (tenant : String) (a : ExecuteArgs) (L : Ledger) :
    Except PyError RunRecord → Ledger → Prop
  /-- A call in front of the traversal raised. -/
  | refused (e : PyError) : Runs env tenant a L (.error e) L
  /-- The run was stored, but the call raised. -/
  | begun {traceId : String} (htrace : a.Traced traceId) (e : PyError) :
      Runs env tenant a L (.error e) (L.begin tenant a traceId)
  /-- The traversal ran. -/
  | traversed {traceId : String} {r : Except PyError Outcome} {r' : Except PyError RunRecord}
      {L₁ L' : Ledger} (htrace : a.Traced traceId)
      (h : Traverses env tenant a.runId a.definition (completedIds L.snapshot)
        (a.start tenant traceId L.snapshot) (L.begin tenant a traceId) r L₁)
      (hend : Ends L₁ r r' L') : Runs env tenant a L r' L'

section

variable {env : Env} {tenant : String} {L : Ledger}

theorem finish_does (run : RunRecord) (wfId : String) (o : Outcome) :
    env.Does tenant run.id (finish tenant run wfId o) L (Ends L (.ok o)) := by
  have hlast : ∀ {L'}, (∀ r, Ends L (.ok o) r L') → env.Does tenant run.id (do
      let refreshed ← perform (.getRun tenant run.id)
      return (refreshed.map (·.1)).getD run) L' (Ends L (.ok o)) := fun h =>
    Env.Does.quiet_seq trivial (fun e => h _) fun refreshed => Env.Does.ret (h _)
  have hclosed : ∀ r, Ends L (.ok o) r (L.close o) := fun r => .closed o r
  -- the telemetry raises into a `try` block, and then the run is read again
  have htail : ∀ (name : String) (b : Bool), env.Does tenant run.id (do
      let _ ← (perform (.recordSpan name b)).attempt
      let refreshed ← perform (.getRun tenant run.id)
      return (refreshed.map (·.1)).getD run) (L.close o) (Ends L (.ok o)) := fun name b =>
    Env.Does.seq (Env.Does.attempt (Env.Does.quiet trivial fun r => hlast hclosed))
  cases o with
  | parked => exact hlast hclosed
  | finished lastOutput =>
    exact Env.Does.seq (Env.Does.updateRunStatus rfl (htail _ _) fun e =>
      ⟨.unstored _ e, hclosed _⟩)
  | failed error =>
    exact Env.Does.seq (Env.Does.updateRunStatus rfl (htail _ _) fun e =>
      ⟨.unstored _ e, hclosed _⟩)

theorem start_queue (a : ExecuteArgs) (traceId : String) (steps : List RunStepRecord) :
    ∀ x ∈ (a.start tenant traceId steps).queue, x ∈ a.definition.nodeIds :=
  fun _ hx => (a.definition.mem_startNodes.1 hx).1

/-- The traversal of `execute`, once the run is stored. -/
theorem resume_does (a : ExecuteArgs) {traceId : String} (htrace : a.Traced traceId)
    {run : RunRecord} (hrun : run.id = a.runId) :
    env.Does tenant a.runId (resume env.toEvaluator tenant a traceId run L.snapshot)
      (L.begin tenant a traceId) (Runs env tenant a L) := by
  unfold resume
  rw [← hrun]
  refine Env.Does.bind (traverse_does run (traverseFuel a.definition)
    (a.start tenant traceId L.snapshot) _ (start_queue a traceId _) (budget_start_le _ _)) ?_ ?_
  · intro o L₁ h
    refine Env.Does.mono (finish_does run a.wfId o) fun r L' hend => ?_
    exact .traversed htrace (hrun ▸ h) hend
  · intro e L₁ h
    exact .traversed htrace (hrun ▸ h) (.raised e)

theorem executeTraced_does (a : ExecuteArgs) {traceId : String} (htrace : a.Traced traceId) :
    env.Does tenant a.runId (executeTraced env.toEvaluator tenant a traceId) L
      (Runs env tenant a L) := by
  refine Env.Does.assume fun hL => ?_
  unfold executeTraced
  refine Env.Does.seq (Env.Does.getRun ?_ fun e => .refused e)
  cases hr : L.run with
  | none =>
    have hbegin : L.begin tenant a traceId = { L with run := some (a.newRun tenant traceId) }.log
        [.executing a.runId a.definition.toWorkflowSpec] := by rw [Ledger.begin, hr]
    have hsnap : L.snapshot = [] := by rw [Ledger.snapshot, hr]
    refine Env.Does.seq (Env.Does.createRun rfl rfl ?_ fun e => ⟨.refused e, ?_⟩)
    · rw [← hbegin, ← hsnap]
      exact resume_does a htrace rfl
    · rw [← hbegin]
      exact .begun htrace e
  | some run =>
    have hid : run.id = a.runId := (hL run hr).1
    have hbegin : L.begin tenant a traceId = (L.setRun fun r => { r with status := .running }).log
        [.executing a.runId a.definition.toWorkflowSpec] := by
      rw [Ledger.begin, hr, Ledger.setRun, hr]
      rfl
    have hsnap : L.snapshot = L.steps := by rw [Ledger.snapshot, hr]
    simp only [Option.map_some]
    rw [hid]
    refine Env.Does.seq (Env.Does.setRunning hbegin ?_ fun e => ⟨.refused e, .begun htrace e⟩)
    rw [← hsnap]
    exact resume_does a htrace rfl

/-- **What `execute` does**, in every environment. -/
theorem execute_does {runId : String} (a : ExecuteArgs) (hid : a.runId = runId) :
    env.Does tenant runId (execute env.toEvaluator tenant a) L (Runs env tenant a L) := by
  subst hid
  unfold execute
  split
  · next id hid =>
    refine executeTraced_does a fun id' hid' => ?_
    rw [hid] at hid'
    exact Option.some.inj hid'
  · next hid =>
    refine Env.Does.quiet_seq trivial (fun e => .refused e) fun id => ?_
    refine executeTraced_does a fun id' hid' => ?_
    rw [hid] at hid'
    cases hid'

end

/-! ## `resume_approval` -/

/-- The step that `resume_approval` decides: the first one that waits. -/
def Ledger.waiting (L : Ledger) : Option RunStepRecord :=
  L.steps.find? (·.status = .waitingApproval)

/-- The step that waits is the last one. -/
theorem Ledger.waiting_last {L : Ledger} {init : List RunStepRecord} {s : RunStepRecord}
    (hsteps : L.steps = init ++ [s]) (hinit : ∀ s' ∈ init, s'.status ≠ .waitingApproval)
    (hs : s.status = .waitingApproval) : L.waiting = some s := by
  have hnone : init.find? (·.status = .waitingApproval) = none := by
    rw [List.find?_eq_none]
    exact fun s' hs' => by simpa using hinit s' hs'
  rw [waiting, hsteps, List.find?_append, hnone]
  simp [hs]

/-- The ledger after the waiting step was rejected. -/
def Ledger.rejectStep (L : Ledger) (a : ApprovalArgs) : Ledger :=
  match L.waiting with
  | none => L
  | some s => L.amend s.id fun s => { s with
      status := .rejected, durationMs := ⟨.finite 0, "0.0"⟩, outputSnapshot := a.snapshot,
      error := some a.errMsg }

/-- The ledger after the waiting step was approved. -/
def Ledger.passStep (L : Ledger) (runId : String) (a : ApprovalArgs) : Ledger :=
  match L.waiting with
  | none => L
  | some s => (L.amend s.id fun s => { s with
      status := .success, durationMs := ⟨.finite 1, "1.0"⟩, outputSnapshot := a.snapshot,
      error := none }).log [.approved runId s.nodeId]

/-- The arguments with which `resume_approval` goes on. -/
def RunRecord.resumeArgs (run : RunRecord) (d : WorkflowDefinition) : ExecuteArgs :=
  { definition := d.withId run.workflowId
    runId := run.id
    inputPayload := run.inputPayload
    traceId := some run.traceId
    triggerSource := run.triggerSource
    idempotencyKey := run.idempotencyKey
    workflowId := some run.workflowId }

/-- What `resume_approval` can do to the ledger of its run, when the look-up gives a definition
in `P`. -/
inductive Resumes (env : Env) (tenant runId : String) (a : ApprovalArgs)
    (P : RunRecord → WorkflowDefinition → Prop) (L : Ledger) :
    Except PyError RunRecord → Ledger → Prop
  | refused (e : PyError) : Resumes env tenant runId a P L (.error e) L
  | rejecting (e : PyError) : Resumes env tenant runId a P L (.error e) (L.rejectStep a)
  | rejected (r : Except PyError RunRecord) :
      Resumes env tenant runId a P L r ((L.rejectStep a).setRun fun run =>
        { run with status := .rejected, outputPayload := .null, error := some a.errMsg })
  | passed (e : PyError) : Resumes env tenant runId a P L (.error e) (L.passStep runId a)
  | executed {run : RunRecord} {d : WorkflowDefinition} {r : Except PyError RunRecord}
      {L' : Ledger} (hrun : L.run = some run) (hid : run.id = runId)
      (hstatus : run.status = .waitingApproval) (hd : P run d)
      (h : Runs env tenant (run.resumeArgs d) (L.passStep runId a) r L') :
      Resumes env tenant runId a P L r L'

section

variable {env : Env} {tenant runId : String} {L : Ledger}

theorem waiting_mem {s : RunStepRecord} (h : L.waiting = some s) :
    s ∈ L.steps ∧ s.status = .waitingApproval :=
  ⟨List.mem_of_find?_eq_some h, by simpa using List.find?_some h⟩

theorem reject_does (P : RunRecord → WorkflowDefinition → Prop) (run : RunRecord)
    (hid : run.id = runId) (a : ApprovalArgs) :
    env.Does tenant runId (reject tenant run L.waiting a) L
      (Resumes env tenant runId a P L) := by
  unfold reject
  rw [hid]
  have htail : env.Does tenant runId (do
      perform (.updateRunStatus tenant runId .rejected .null (some a.errMsg))
      let refreshed ← perform (.getRun tenant runId)
      return (refreshed.map (·.1)).getD run) (L.rejectStep a)
      (Resumes env tenant runId a P L) := by
    refine Env.Does.seq (Env.Does.updateRunStatus rfl ?_ fun e => ⟨.rejecting e, .rejected _⟩)
    exact Env.Does.quiet_seq trivial (fun e => .rejected _) fun _ => Env.Does.ret (.rejected _)
  unfold FlowMesh.rejectStep
  cases hw : L.waiting with
  | none =>
    have hL : L.rejectStep a = L := by rw [Ledger.rejectStep, hw]
    rw [hL] at htail
    exact htail
  | some s =>
    have hL : L.rejectStep a = L.amend s.id fun s => { s with
        status := .rejected, durationMs := ⟨.finite 0, "0.0"⟩, outputSnapshot := a.snapshot,
        error := some a.errMsg } := by rw [Ledger.rejectStep, hw]
    exact Env.Does.seq (Env.Does.updateStep hL htail fun _ e _ _ => ⟨.refused e, .rejecting e⟩)

theorem passStep_does (a : ApprovalArgs) :
    env.Does tenant runId (passStep tenant L.waiting a) L fun r L' =>
      L' = L.passStep runId a ∨ L' = L ∧ ∃ e, r = .error e := by
  unfold FlowMesh.passStep
  cases hw : L.waiting with
  | none =>
    refine Env.Does.ret (Or.inl ?_)
    rw [Ledger.passStep, hw]
  | some s =>
    have hL : L.passStep runId a = (L.amend s.id fun s => { s with
        status := .success, durationMs := ⟨.finite 1, "1.0"⟩, outputSnapshot := a.snapshot,
        error := none }).log [.approved runId s.nodeId] := by rw [Ledger.passStep, hw]
    exact Env.Does.approveStep (waiting_mem hw).1 hL (Or.inl rfl) fun e =>
      ⟨Or.inr ⟨rfl, e, rfl⟩, Or.inl rfl⟩

/-- A definition parses to itself. -/
theorem parseDefinition_spec (d : WorkflowDefinition) :
    parseDefinition d.toWorkflowSpec = pure d := by
  rw [parseDefinition, WorkflowDefinition.parse, dif_pos d.accepted]

theorem parseDefinition_does (s : WorkflowSpec) :
    env.Does tenant runId (parseDefinition s) L fun _ L' => L' = L := by
  unfold parseDefinition
  split
  · exact Env.Does.ret rfl
  · exact Env.Does.raise rfl

theorem lookupDefinition_does (workflowId : String) (version : ℤ) :
    env.Does tenant runId (lookupDefinition tenant workflowId version) L fun _ L' => L' = L := by
  unfold lookupDefinition
  refine Env.Does.quiet_seq trivial (fun _ => rfl) fun ver => ?_
  split
  · exact parseDefinition_does _
  · refine Env.Does.quiet_seq trivial (fun _ => rfl) fun wf => ?_
    split
    · exact parseDefinition_does _
    · exact Env.Does.raise rfl

/-- What `resume_approval` does, in every environment, whatever definition the look-up gives. -/
theorem resumeApproval_does (a : ApprovalArgs) :
    env.Does tenant runId (resumeApproval env.toEvaluator tenant runId a) L
      (Resumes env tenant runId a (fun _ _ => True) L) := by
  refine Env.Does.assume fun hL => ?_
  unfold resumeApproval
  refine Env.Does.seq (Env.Does.getRun ?_ fun e => .refused e)
  cases hr : L.run with
  | none => exact Env.Does.raise (.refused _)
  | some run =>
    have hid : run.id = runId := (hL run hr).1
    simp only [Option.map_some]
    split
    · exact Env.Does.raise (.refused _)
    next hstatus =>
    split
    · unfold approve
      refine Env.Does.bind (passStep_does a) ?_ ?_
      · rintro u L₁ (rfl | ⟨-, e, ⟨⟩⟩)
        refine Env.Does.bind (lookupDefinition_does _ _) ?_ ?_
        · rintro d L₂ rfl
          exact Env.Does.mono (execute_does (run.resumeArgs d) hid) fun r L' h =>
            .executed hr hid (not_not.1 hstatus) trivial h
        · rintro e L₂ rfl
          exact .passed e
      · rintro e L₁ (rfl | ⟨rfl, -⟩)
        · exact .passed e
        · exact .refused e
    · exact reject_does _ run hid a

/-! ### The definition that is looked up -/

/-- The definition that `resume_approval` finds: the pinned version's, else the workflow's
current one. -/
def Registry.definitionFor (r : Registry) (tenant workflowId : String) (version : ℤ) :
    Option WorkflowSpec :=
  match r.getByVersion tenant workflowId version with
  | some verRecord => some verRecord.definitionJson
  | none => (r.getById tenant workflowId).map (·.definitionJson)

/-- Of the engine's calls, none changes the registry. -/
theorem registry_handle (env : Env) {o : Op} (ho : ∀ t wf, o ≠ .createWorkflow t wf) (w : World) :
    (env.handle o w).2.registry = w.registry := by
  have heffect : (env.effect o w).2.registry = w.registry := by
    cases o with
    | createWorkflow t wf => exact absurd rfl (ho t wf)
    | getByIdempotencyKey => simp only [Env.effect]; split <;> rfl
    | createRun => simp only [Env.effect]; split <;> rfl
    | approveStep => simp only [Env.effect]; split <;> rfl
    | _ => rfl
  exact env.handle_induction (P := fun w' => w'.registry = w.registry) rfl heffect

/-- A call that raises nothing answers what `effect` says, and then the rest runs. -/
theorem run_call_inv {o : Op} {α : Type} {f : o.Res → M α} {w : World} {b : α}
    (h : ((perform o >>= f).run env.handle w).1 = .ok b) :
    ∃ x, (env.effect o w).1 = .ok x ∧ ((f x).run env.handle (env.handle o w).2).1 = .ok b := by
  obtain ⟨x, hx, hrun⟩ := Prog.run_bind_inv _ h
  rw [Prog.run_perform] at hx hrun
  refine ⟨x, ?_, by rw [← hrun, h]⟩
  unfold Env.handle at hx
  split at hx
  · exact hx
  · cases hx
  · cases hx

theorem run_parseDefinition {s : WorkflowSpec} {w : World} {d : WorkflowDefinition}
    (h : ((parseDefinition s).run env.handle w).1 = .ok d) : d.toWorkflowSpec = s := by
  unfold parseDefinition WorkflowDefinition.parse at h
  by_cases hs : s.Accepted
  · rw [dif_pos hs] at h
    cases h
    rfl
  · rw [dif_neg hs] at h
    cases h

theorem run_lookupDefinition {workflowId : String} {version : ℤ} {w : World}
    {d : WorkflowDefinition}
    (h : ((lookupDefinition tenant workflowId version).run env.handle w).1 = .ok d) :
    w.registry.definitionFor tenant workflowId version = some d.toWorkflowSpec := by
  obtain ⟨ver, hver, h⟩ := run_call_inv h
  rw [Registry.definitionFor, show w.registry.getByVersion tenant workflowId version = ver from
    Except.ok.inj hver]
  cases ver with
  | some verRecord => exact congrArg some (run_parseDefinition h).symm
  | none =>
    obtain ⟨wf, hwf, h⟩ := run_call_inv h
    have hget := Except.ok.inj hwf
    rw [registry_handle env (by simp)] at hget
    rw [show w.registry.getById tenant workflowId = wf from hget]
    cases wf with
    | some wf => exact congrArg some (run_parseDefinition h).symm
    | none => cases h

theorem registry_passStep (env : Env) (tenant : String) (s : Option RunStepRecord)
    (a : ApprovalArgs) (w : World) :
    ((passStep tenant s a).run env.handle w).2.registry = w.registry := by
  unfold passStep
  cases s with
  | none => rfl
  | some s =>
    rw [Prog.run_perform]
    exact registry_handle env (by simp) w

/-- The registry has the definition for the run. -/
def World.Pins (w : World) (tenant : String) (run : RunRecord) (d : WorkflowDefinition) : Prop :=
  w.registry.definitionFor tenant run.workflowId run.workflowVersion = some d.toWorkflowSpec

theorem approve_run (a : ApprovalArgs) {w : World} {run : RunRecord}
    (hrun : w.run? tenant runId = some run) (hstatus : run.status = .waitingApproval) :
    Resumes env tenant runId a (w.Pins tenant) (w.ledger tenant runId)
      ((approve env.toEvaluator tenant run (w.ledger tenant runId).waiting a).run env.handle w).1
      (((approve env.toEvaluator tenant run (w.ledger tenant runId).waiting a).run
        env.handle w).2.ledger tenant runId) := by
  have hid : run.id = runId := (World.run?_eq_some.1 hrun).2.1
  unfold approve
  have hdoes : env.Does tenant runId (passStep tenant (w.ledger tenant runId).waiting a) _ _ :=
    passStep_does a
  have hpass := hdoes.run rfl
  have hreg := registry_passStep env tenant (w.ledger tenant runId).waiting a w
  rw [Prog.run_bind]
  rcases hr : (passStep tenant (w.ledger tenant runId).waiting a).run env.handle w with
    ⟨e | u, w₁⟩ <;> rw [hr] at hpass hreg <;> simp only at hpass hreg ⊢
  · rcases hpass with hL | ⟨hL, -⟩ <;> rw [hL]
    · exact .passed e
    · exact .refused e
  have hL : w₁.ledger tenant runId = (w.ledger tenant runId).passStep runId a := by
    rcases hpass with hL | ⟨-, e, ⟨⟩⟩
    exact hL
  have hlook : (((lookupDefinition tenant run.workflowId run.workflowVersion).run env.handle
      w₁).2.ledger tenant runId) = (w.ledger tenant runId).passStep runId a :=
    (lookupDefinition_does run.workflowId run.workflowVersion).run hL
  rw [Prog.run_bind]
  rcases hd : (lookupDefinition tenant run.workflowId run.workflowVersion).run env.handle w₁ with
    ⟨e | d, w₂⟩ <;> rw [hd] at hlook <;> simp only at hlook ⊢
  · rw [hlook]
    exact .passed e
  have hpins : w.Pins tenant run d := by
    rw [World.Pins, ← hreg]
    exact run_lookupDefinition (congrArg Prod.fst hd)
  exact .executed hrun hid hstatus hpins ((execute_does (run.resumeArgs d) hid).run hlook)

/-- **What `resume_approval` does when it runs alone**: the definition it goes on with is the one
the registry has for the run. -/
theorem resumeApproval_run (a : ApprovalArgs) (w : World) :
    Resumes env tenant runId a (w.Pins tenant) (w.ledger tenant runId)
      ((resumeApproval env.toEvaluator tenant runId a).run env.handle w).1
      (((resumeApproval env.toEvaluator tenant runId a).run env.handle w).2.ledger tenant
        runId) := by
  have hget : env.Does tenant runId (perform (.getRun tenant runId)) (w.ledger tenant runId)
      fun r L' => L' = w.ledger tenant runId ∧ ∀ x, r = .ok x →
        x = (w.run? tenant runId).map fun run => (run, w.stepsOf tenant runId) :=
    Env.Does.getRun ⟨rfl, fun x hx => (Except.ok.inj hx).symm⟩ fun e =>
      ⟨rfl, fun x hx => by cases hx⟩
  obtain ⟨hL, hx⟩ := hget.run rfl
  have hreg := registry_handle env (o := .getRun tenant runId) (by simp) w
  rw [← Prog.run_perform env.handle] at hreg
  unfold resumeApproval
  rw [Prog.run_bind]
  rcases hr : (perform (.getRun tenant runId)).run env.handle w with ⟨e | x, w₁⟩ <;>
    rw [hr] at hL hx hreg <;> simp only at hL hreg ⊢
  · rw [hL]
    exact .refused e
  obtain rfl := hx x rfl
  cases hrun : w.run? tenant runId with
  | none =>
    simp only [Option.map_none, Prog.run_throw, hL]
    exact .refused _
  | some run =>
    have hrun₁ : w₁.run? tenant runId = some run := (congrArg Ledger.run hL).trans hrun
    have hpins : w₁.Pins tenant = w.Pins tenant := by
      funext run d
      rw [World.Pins, World.Pins, hreg]
    simp only [Option.map_some]
    split
    · simp only [Prog.run_throw, hL]
      exact .refused _
    next hstatus =>
    rw [← hpins, ← hL]
    rw [show w.stepsOf tenant runId = (w₁.ledger tenant runId).steps from
      (congrArg Ledger.steps hL).symm]
    split
    · exact approve_run a hrun₁ (not_not.1 hstatus)
    · exact (reject_does _ run (World.run?_eq_some.1 hrun).2.1 a).run rfl

end

/-! ## Sessions -/

/-- The two definitions have the same nodes and edges; their ids and versions may differ. -/
def WorkflowSpec.SameGraph (s s' : WorkflowSpec) : Prop := s.nodes = s'.nodes ∧ s.edges = s'.edges

namespace WorkflowSpec.SameGraph

variable {s s' : WorkflowSpec}

theorem symm (h : s.SameGraph s') : s'.SameGraph s := ⟨h.1.symm, h.2.symm⟩

theorem node? (h : s.SameGraph s') (id : String) : s.node? id = s'.node? id := by
  rw [WorkflowSpec.node?, WorkflowSpec.node?, h.1]

theorem outgoing (h : s.SameGraph s') (id : String) : s.outgoing id = s'.outgoing id := by
  rw [WorkflowSpec.outgoing, WorkflowSpec.outgoing, h.2]

theorem startNodes (h : s.SameGraph s') : s.startNodes = s'.startNodes := by
  unfold WorkflowSpec.startNodes WorkflowSpec.roots WorkflowSpec.incomingCount WorkflowSpec.nodeIds
  rw [h.1, h.2]

end WorkflowSpec.SameGraph

section

variable (E : Set Env) (tenant runId : String) (d : WorkflowDefinition)

/-- One call on the run with the definition `d`, in an environment of `E`, or something that
leaves the run alone. -/
inductive Call : World → World → Prop
  /-- `execute` with the definition. -/
  | execute {w : World} {env : Env} (henv : env ∈ E) (a : ExecuteArgs) (hid : a.runId = runId)
      (hdef : a.definition.SameGraph d.toWorkflowSpec) :
      Call w ((FlowMesh.execute env.toEvaluator tenant a).run env.handle w).2
  /-- `resume_approval`, when its look-up gives the definition. -/
  | resumeApproval {w : World} {env : Env} (henv : env ∈ E) (a : ApprovalArgs)
      (hdef : ∀ run d', w.run? tenant runId = some run → w.Pins tenant run d' →
        d'.SameGraph d.toWorkflowSpec) :
      Call w ((FlowMesh.resumeApproval env.toEvaluator tenant runId a).run env.handle w).2
  /-- Requests about other runs, deployments and the like. -/
  | elsewhere {w w' : World} (h : w'.ledger tenant runId = w.ledger tenant runId) : Call w w'

/-- A sequence of calls on the run. -/
def Session : World → World → Prop := Relation.ReflTransGen (Call E tenant runId d)

/-- The run does not exist yet. -/
def World.Fresh (w : World) : Prop := w.ledger tenant runId = ⟨none, [], []⟩

end

section

variable {E : Set Env} {tenant runId : String} {d : WorkflowDefinition}

/-- What a decision and a run keep, `resume_approval` keeps. -/
theorem Resumes.invariant {I : Ledger → Prop} {env : Env} {a : ApprovalArgs}
    {P : RunRecord → WorkflowDefinition → Prop} {L L' : Ledger} {r : Except PyError RunRecord}
    (h : Resumes env tenant runId a P L r L') (hL : I L)
    (hruns : ∀ run d' L₁ r L', L.run = some run → run.id = runId → P run d' → I L₁ →
      Runs env tenant (run.resumeArgs d') L₁ r L' → I L')
    (hpass : ∀ L a, I L → I (L.passStep runId a)) (hreject : ∀ L a, I L → I (L.rejectStep a))
    (hset : ∀ L f, I L → I (L.setRun f)) : I L' := by
  cases h with
  | refused e => exact hL
  | rejecting e => exact hreject L a hL
  | rejected r => exact hset _ _ (hreject L a hL)
  | passed e => exact hpass L a hL
  | executed hrun hid _ hd h => exact hruns _ _ _ _ _ hrun hid hd (hpass L a hL) h

/-- What decisions and runs keep, a call keeps. -/
theorem Call.invariant {I : Ledger → Prop}
    (hruns : ∀ env ∈ E, ∀ (a : ExecuteArgs) L r L', a.runId = runId →
      a.definition.SameGraph d.toWorkflowSpec → I L → Runs env tenant a L r L' → I L')
    (hpass : ∀ L a, I L → I (L.passStep runId a)) (hreject : ∀ L a, I L → I (L.rejectStep a))
    (hset : ∀ L f, I L → I (L.setRun f)) {w w' : World} (h : Call E tenant runId d w w')
    (hw : I (w.ledger tenant runId)) : I (w'.ledger tenant runId) := by
  cases h with
  | @execute env henv a hid hdef =>
    exact hruns env henv a _ _ _ hid hdef hw ((execute_does a hid).run rfl)
  | @resumeApproval env henv a hdef =>
    have hres : Resumes env tenant runId a _ _ _ _ := resumeApproval_run a w
    refine hres.invariant hw ?_ hpass hreject hset
    intro run d' L r L' hrun hid hpins hL h
    have hgraph : (run.resumeArgs d').definition.SameGraph d.toWorkflowSpec := hdef run d' hrun hpins
    exact hruns env henv _ _ _ _ hid hgraph hL h
  | elsewhere hsame =>
    rw [hsame]
    exact hw

end

/-! ### A session -/

/-- A payout behind an approval. -/
def payoutWorkflow : WorkflowDefinition where
  id := some "wf_payout"
  name := "payout"
  trigger := ⟨"webhook", [], .null⟩
  nodes := [{ id := "gate", type := "action.approval", name := "Approve" },
    { id := "pay", type := "action.http", name := "Pay" }]
  edges := [{ source := "gate", target := "pay" }]
  accepted := by decide

/-- The stored row of the payout workflow. -/
def payoutRecord : WorkflowRecord where
  id := "wf_payout"
  tenantId := "acme"
  name := "payout"
  description := ""
  status := .active
  version := 1
  triggerType := "webhook"
  definitionJson := payoutWorkflow.toWorkflowSpec

/-- A store with the payout workflow. -/
def payoutWorld : World :=
  { World.empty with registry := (Registry.empty.create "acme" payoutRecord).2 }

/-- The payout run, parked at its gate. -/
def payoutParked : World :=
  ((execute (Env.steady fun _ => .ok .null).toEvaluator "acme"
    { definition := payoutWorkflow, runId := "RUN-1", inputPayload := .null }).run
      (Env.steady fun _ => .ok .null).handle payoutWorld).2

/-- The payout run after its approval. -/
def payoutApproved : World :=
  ((resumeApproval (Env.steady fun _ => .ok .null).toEvaluator "acme" "RUN-1"
    { approved := true, approverEmail := "ops", comment := none, decidedAt := "" }).run
      (Env.steady fun _ => .ok .null).handle payoutParked).2

theorem payout_session :
    Session Set.univ "acme" "RUN-1" payoutWorkflow payoutWorld payoutApproved := by
  refine .tail (.tail .refl (.execute (Set.mem_univ _) _ rfl ⟨rfl, rfl⟩))
    (.resumeApproval (Set.mem_univ _) _ ?_)
  intro run d' hrun hpins
  have hspec : some payoutWorkflow.toWorkflowSpec = some d'.toWorkflowSpec := by
    rw [← hpins]
    cases hrun
    rfl
  rw [← Option.some.inj hspec]
  exact ⟨rfl, rfl⟩

theorem payout_fresh : payoutWorld.Fresh "acme" "RUN-1" := rfl

end FlowMesh
