import FlowMesh.Engine.Ledger

/-!
# What executing a node does

`Executes` says once what `_execute_node` can do to the ledger of its run: it records one step of
the node, dispatches the node some number of times with one resolved configuration and one
context, and either reports success, with the step in status `SUCCESS` holding the output of the
last dispatch, or stops. `executeNode_does` proves it for every environment.

The calls behind a successful dispatch share the `try` block with it. Where none of them raises
(`Env.Settles`), a dispatch that succeeds is the last one, and a step that was not reported as
successful is not stored as `SUCCESS`.
-/

namespace FlowMesh

open Python Async

/-- The calls that follow a successful dispatch inside its `try` block. -/
def Op.Settling : Op → Prop
  | .recordCircuitSuccess _ => True
  | .reportRecovered _ => True
  | .recordCircuitMetric .. => True
  | .updateStep .. => True
  | .recordSpan .. => True
  | _ => False

/-- No call that follows a successful dispatch inside its `try` block raises. -/
def Env.Settles (env : Env) : Prop := ∀ o w, o.Settling → env.faultOf o w = none

/-- The step belongs to the node's execution in this run. -/
structure StepOf (tenant runId : String) (node : WorkflowNode) (s : RunStepRecord) : Prop where
  runId : s.runId = runId
  tenantId : s.tenantId = tenant
  nodeId : s.nodeId = node.id
  nodeType : s.nodeType = node.type

/-- The node's retry policy allows an attempt. -/
def WorkflowNode.Attempts (u : Unicode) (n : WorkflowNode) : Prop :=
  ∃ maxAttempts, n.policy.maxAttempts u = .ok maxAttempts ∧ 0 < maxAttempts

/-- The dispatches of a node with one configuration and one context. -/
def dispatches (runId : String) (node : WorkflowNode) (config : List (String × Json))
    (context : Context) (bs : List Bool) : List Event :=
  bs.map (.dispatched runId node.id config context)

section

variable (env : Env) (tenant runId : String) (node : WorkflowNode) (context : Context)

/-- What `_execute_node` can do to the ledger of its run. -/
inductive Executes (L : Ledger) : Except PyError StepResult → Ledger → Prop
  /-- `record_step` raised. -/
  | unrecorded (e : PyError) : Executes L (.error e) L
  /-- The node was dispatched with success, and everything behind it went well. -/
  | succeeded {row : RunStepRecord} {bs : List Bool} {res : DispatchResult}
      (hnew : row.id ∉ L.steps.map (·.id)) (hof : StepOf tenant runId node row)
      (hstatus : row.status = .success) (houtput : row.outputSnapshot = res.output)
      (hduration : row.durationMs = res.durationMs)
      (hdispatch : ∃ w, env.dispatch w node (resolveConfig env.unicode node context) context =
        .ok res)
      (hbs : env.Settles → ∀ b ∈ bs, b = false) (hattempts : node.Attempts env.unicode) :
      Executes L (.ok (.success res.output res.durationMs)) ((L.add row).log
        (dispatches runId node (resolveConfig env.unicode node context) context (bs ++ [true])))
  /-- The node failed, or something raised. -/
  | stopped {row : RunStepRecord} {bs : List Bool} {r : Except PyError StepResult}
      (hnew : row.id ∉ L.steps.map (·.id)) (hof : StepOf tenant runId node row)
      (hr : ∀ output durationMs, r ≠ .ok (.success output durationMs))
      (hwait : row.status ≠ .waitingApproval)
      (hsettles : env.Settles → row.status ≠ .success ∧ ∀ b ∈ bs, b = false)
      (hattempts : bs ≠ [] → node.Attempts env.unicode) :
      Executes L r ((L.add row).log
        (dispatches runId node (resolveConfig env.unicode node context) context bs))

/-! ## Inside the retry loop -/

/-- The ledger while the attempts go on: one step of the node, under the id the loop works with,
and the dispatches so far. -/
structure Attempting (L : Ledger) (config : List (String × Json)) (stepId : ℕ) (L' : Ledger) :
    Prop where
  intro ::
  out : ∃ row bs, row.id = stepId ∧ row.id ∉ L.steps.map (·.id) ∧ StepOf tenant runId node row ∧
    row.status ≠ .waitingApproval ∧ (env.Settles → row.status ≠ .success ∧ ∀ b ∈ bs, b = false) ∧
    (bs ≠ [] → node.Attempts env.unicode) ∧
    L' = (L.add row).log (dispatches runId node config context bs)

/-- The ledger after a successful attempt. -/
structure Attempted (L : Ledger) (config : List (String × Json)) (res : DispatchResult)
    (L' : Ledger) : Prop where
  intro ::
  out : ∃ row bs, row.id ∉ L.steps.map (·.id) ∧ StepOf tenant runId node row ∧
    row.status = .success ∧ row.outputSnapshot = res.output ∧ row.durationMs = res.durationMs ∧
    (∃ w, env.dispatch w node config context = .ok res) ∧
    (env.Settles → ∀ b ∈ bs, b = false) ∧ node.Attempts env.unicode ∧
    L' = (L.add row).log (dispatches runId node config context (bs ++ [true]))

end

section

variable {env : Env} {tenant runId : String} {node : WorkflowNode} {context : Context}
  {L L' : Ledger} {config : List (String × Json)} {stepId : ℕ}

/-- Executing a node only adds events. -/
theorem Executes.events_prefix {r : Except PyError StepResult}
    (h : Executes env tenant runId node context L r L') : L.events <+: L'.events := by
  cases h with
  | unrecorded e => exact List.prefix_rfl
  | succeeded => exact List.prefix_append _ _
  | stopped => exact List.prefix_append _ _

/-- What a reported success says. -/
theorem Executes.success_inv {output : Json} {durationMs : PyFloat}
    (h : Executes env tenant runId node context L (.ok (.success output durationMs)) L') :
    ∃ row bs, row.id ∉ L.steps.map (·.id) ∧ StepOf tenant runId node row ∧
      row.status = .success ∧ row.outputSnapshot = output ∧ row.durationMs = durationMs ∧
      (∃ w, env.dispatch w node (resolveConfig env.unicode node context) context =
        .ok ⟨output, durationMs⟩) ∧
      (env.Settles → ∀ b ∈ bs, b = false) ∧
      L' = (L.add row).log
        (dispatches runId node (resolveConfig env.unicode node context) context (bs ++ [true])) := by
  cases h with
  | succeeded hnew hof hst hout hms hdisp hbs =>
    exact ⟨_, _, hnew, hof, hst, hout, hms, hdisp, hbs, rfl⟩
  | stopped hnew hof hr => exact absurd rfl (hr output durationMs)

theorem Executes.of_attempting
    (h : Attempting env tenant runId node context L (resolveConfig env.unicode node context) stepId
      L')
    {r : Except PyError StepResult} (hr : ∀ output durationMs, r ≠ .ok (.success output durationMs)) :
    Executes env tenant runId node context L r L' := by
  obtain ⟨row, bs, -, hnew, hof, hwait, hsettles, hattempts, rfl⟩ := h.out
  exact .stopped hnew hof hr hwait hsettles hattempts

/-- Rewriting the step's status while the attempts go on. -/
theorem Attempting.amend (h : Attempting env tenant runId node context L config stepId L')
    (status : StepStatus) (hs : status ≠ .success) (hs' : status ≠ .waitingApproval)
    (durationMs : PyFloat) (outputSnapshot : Json) (error : Option String) :
    Attempting env tenant runId node context L config stepId
      (L'.amend stepId fun s => { s with status, durationMs, outputSnapshot, error }) := by
  obtain ⟨row, bs, rfl, hnew, hof, hwait, hsettles, hattempts, rfl⟩ := h.out
  refine ⟨⟨{ row with status, durationMs, outputSnapshot, error }, bs, rfl, hnew,
    ⟨hof.runId, hof.tenantId, hof.nodeId, hof.nodeType⟩, hs', fun hset => ⟨hs, (hsettles hset).2⟩,
    hattempts, ?_⟩⟩
  rw [Ledger.amend_log, Ledger.amend_add _ hnew]

theorem settling_ok {o : Op} (ho : o.Settling) {w : World} {e : PyError} {b : Bool}
    (hf : env.faultOf o w = some (e, b)) : ¬ env.Settles := by
  intro hset
  rw [hset o w ho] at hf
  cases hf

/-- The outcome of calls that touch no ledger and raise only where `Env.Settles` fails. -/
def Settled {α : Type} (env : Env) (L : Ledger) (r : Except PyError α) (L' : Ledger) : Prop :=
  L' = L ∧ (env.Settles → r.isOk = true)

theorem settling_does {o : Op} (ho : o.Quiet) (hs : o.Settling)
    (heffect : ∀ w, (env.effect o w).1.isOk = true) :
    env.Does tenant runId (perform o) L (Settled env L) := by
  refine Env.Does.call (fun w hw _ => ?_) fun w e b hw hf => ?_
  · rw [env.ledger_quiet _ _ ho]
    exact ⟨hw, fun _ => heffect w⟩
  · rw [env.ledger_quiet _ _ ho]
    exact ⟨⟨rfl, fun hset => absurd hset (settling_ok hs hf)⟩,
      hw, fun hset => absurd hset (settling_ok hs hf)⟩

theorem settled_bind {α β : Type} {p : M α} {f : α → M β}
    (hp : env.Does tenant runId p L (Settled env L))
    (hf : ∀ a, env.Does tenant runId (f a) L (Settled env L)) :
    env.Does tenant runId (p >>= f) L (Settled env L) := by
  refine Env.Does.bind hp ?_ ?_
  · rintro a L' ⟨rfl, -⟩
    exact hf a
  · rintro e L' ⟨rfl, hok⟩
    exact ⟨rfl, fun hset => by cases hok hset⟩

theorem closeCircuit_does : env.Does tenant runId (closeCircuit node) L (Settled env L) := by
  unfold closeCircuit
  cases node.connection? with
  | none => exact Env.Does.ret ⟨rfl, fun _ => rfl⟩
  | some connectionId =>
    refine settled_bind (settling_does trivial trivial fun _ => rfl) fun _ => ?_
    refine settled_bind (settling_does trivial trivial fun _ => rfl) fun _ => ?_
    exact settling_does trivial trivial fun _ => rfl

/-- The step as `update_step` stores it after a successful dispatch. -/
def RunStepRecord.settled (row : RunStepRecord) (res : DispatchResult) : RunStepRecord :=
  { row with
    status := .success, durationMs := res.durationMs, outputSnapshot := res.output, error := none }

/-- The `try` block: the dispatch and what follows it. -/
theorem tryNode_does (h : Attempting env tenant runId node context L config stepId L')
    (hattempts : node.Attempts env.unicode) :
    env.Does tenant runId (tryNode tenant runId node config context stepId) L' fun r L'' =>
      match r with
      | .ok res => Attempted env tenant runId node context L config res L''
      | .error _ => Attempting env tenant runId node context L config stepId L'' := by
  obtain ⟨row, bs, rfl, hnew, hof, hwait, hsettles, -, rfl⟩ := h.out
  unfold tryNode
  refine Env.Does.seq (Env.Does.dispatch fun w => ?_)
  cases hres : env.dispatch w node config context with
  | error e =>
    refine ⟨⟨row, bs ++ [false], rfl, hnew, hof, hwait, fun hset => ⟨(hsettles hset).1, ?_⟩,
      fun _ => hattempts, ?_⟩⟩
    · intro b hb
      rcases List.mem_append.1 hb with hb | hb
      · exact (hsettles hset).2 b hb
      · exact List.mem_singleton.1 hb
    · simp [dispatches, Except.isOk, Except.toBool]
  | ok res =>
    -- from here on a call that raises leaves a dispatch behind that succeeded
    have hlog : ((L.add row).log (dispatches runId node config context bs)).log
        [.dispatched runId node.id config context (Except.ok res : Except PyError _).isOk] =
        (L.add row).log (dispatches runId node config context (bs ++ [true])) := by
      simp [dispatches, Except.isOk, Except.toBool]
    rw [hlog]
    have hraise : ∀ row' : RunStepRecord, row'.id = row.id → StepOf tenant runId node row' →
        row'.status ≠ .waitingApproval → ¬ env.Settles →
        Attempting env tenant runId node context L config row.id
          ((L.add row').log (dispatches runId node config context (bs ++ [true]))) :=
      fun row' hid hof' hwait' hset => ⟨⟨row', bs ++ [true], hid, hid ▸ hnew, hof', hwait',
        fun hs => absurd hs hset, fun _ => hattempts, rfl⟩⟩
    have hamend : ((L.add row).log (dispatches runId node config context (bs ++ [true]))).amend
        row.id (·.settled res) =
        (L.add (row.settled res)).log (dispatches runId node config context (bs ++ [true])) := by
      rw [Ledger.amend_log, Ledger.amend_add _ hnew]
    have hof' : StepOf tenant runId node (row.settled res) :=
      ⟨hof.runId, hof.tenantId, hof.nodeId, hof.nodeType⟩
    have hwait' : (row.settled res).status ≠ .waitingApproval := by simp [RunStepRecord.settled]
    unfold settle
    refine Env.Does.bind (Ψ := fun r L'' => match r with
      | .ok _ => Attempted env tenant runId node context L config res L''
      | .error _ => Attempting env tenant runId node context L config row.id L'') ?_
      (fun _ _ hdone => Env.Does.ret hdone) (fun _ _ hfail => hfail)
    refine Env.Does.bind closeCircuit_does ?_ ?_
    · rintro - L'' ⟨rfl, -⟩
      refine Env.Does.seq (Env.Does.updateStep hamend.symm ?_ fun w e b hf => ?_)
      · refine Env.Does.mono (settling_does trivial trivial fun _ => rfl) ?_
        rintro r L'' ⟨rfl, hok⟩
        cases r with
        | ok _ =>
          exact ⟨⟨row.settled res, bs, hnew, hof', rfl, rfl, rfl, ⟨w, hres⟩,
            fun hset => (hsettles hset).2, hattempts, rfl⟩⟩
        | error e =>
          exact hraise _ rfl hof' hwait' fun hset => by cases hok hset
      · have hset := settling_ok (by trivial) hf
        exact ⟨hraise _ rfl hof hwait hset, hraise _ rfl hof' hwait' hset⟩
    · rintro e L'' ⟨rfl, hok⟩
      exact hraise _ rfl hof hwait fun hset => by cases hok hset

/-- Calls that touch no ledger, whatever they answer. -/
def Untouched {α : Type} (L : Ledger) (_ : Except PyError α) (L' : Ledger) : Prop := L' = L

theorem onFailure_does (workflowId : String) (exc : PyError) :
    env.Does tenant runId (onFailure workflowId node exc) L (Untouched L) := by
  unfold onFailure
  split
  · unfold countFailure
    refine Env.Does.quiet_seq trivial (fun _ => rfl) fun newState => ?_
    refine Env.Does.quiet_seq trivial (fun _ => rfl) fun _ => ?_
    split
    · exact Env.Does.quiet trivial fun _ => rfl
    · exact Env.Does.ret rfl
  · exact Env.Does.ret rfl

theorem backoff_does (ev : Evaluator) (attempt : ℕ) :
    env.Does tenant runId (backoff ev node attempt) L (Untouched L) := by
  unfold backoff
  split
  · refine Env.Does.quiet_seq trivial (fun _ => rfl) fun rnd => ?_
    split
    · exact Env.Does.raise rfl
    · exact Env.Does.quiet trivial fun _ => rfl
  · exact Env.Does.ret rfl

/-- The retry loop, by induction on the attempts left. -/
theorem retryLoop_does (ev : Evaluator) (workflowId : String) (left attempt : ℕ)
    (lastError : Option PyError) (lastCategory : ErrorCategory)
    (h : Attempting env tenant runId node context L config stepId L')
    (hattempts : 0 < left → node.Attempts env.unicode) :
    env.Does tenant runId (retryLoop ev tenant runId workflowId node config context stepId left
      attempt lastError lastCategory) L' fun r L'' => match r with
      | .ok (.done res) => Attempted env tenant runId node context L config res L''
      | _ => Attempting env tenant runId node context L config stepId L'' := by
  induction left generalizing attempt lastError lastCategory L' with
  | zero => exact Env.Does.ret h
  | succ left ih =>
    unfold retryLoop
    refine Env.Does.bind (backoff_does ev attempt) ?_ ?_
    · rintro - L'' rfl
      refine Env.Does.seq (Env.Does.attempt (Env.Does.mono
        (tryNode_does h (hattempts left.succ_pos)) ?_))
      intro r L'' hr
      cases r with
      | ok res => exact Env.Does.ret hr
      | error exc =>
        refine Env.Does.bind (onFailure_does workflowId exc) ?_ ?_
        · rintro - L₃ rfl
          split
          · exact ih _ _ _ hr fun _ => hattempts left.succ_pos
          · exact Env.Does.ret hr
        · rintro e L₃ rfl
          exact hr
    · rintro e L'' rfl
      exact h

theorem giveUp_does (workflowId : String) (maxAttempts : ℤ) (lastError : Option PyError)
    (lastCategory : ErrorCategory) (attempt : ℕ)
    (h : Attempting env tenant runId node context L (resolveConfig env.unicode node context) stepId
      L') :
    env.Does tenant runId (giveUp tenant runId workflowId node config stepId maxAttempts lastError
      lastCategory attempt) L' (Executes env tenant runId node context L) := by
  have hstop : ∀ {L''}, Attempting env tenant runId node context L
      (resolveConfig env.unicode node context) stepId L'' →
      ∀ e : PyError, Executes env tenant runId node context L (.error e) L'' :=
    fun h e => .of_attempting h (by simp)
  unfold giveUp
  refine Env.Does.quiet_seq trivial (hstop h) fun ms => ?_
  have h' := fun msg => h.amend .failed (by simp) (by simp) ms .null (some msg)
  refine Env.Does.seq (Env.Does.updateStep rfl ?_ fun w e b _ => ⟨hstop h e, hstop (h' _) e⟩)
  refine Env.Does.quiet_seq trivial (hstop (h' _)) fun _ => ?_
  refine Env.Does.quiet_seq trivial (hstop (h' _)) fun _ => ?_
  refine Env.Does.quiet_seq trivial (hstop (h' _)) fun _ => ?_
  exact Env.Does.ret (.of_attempting (h' _) (by simp))

theorem runAttempts_does (workflowId : String)
    (h : Attempting env tenant runId node context L (resolveConfig env.unicode node context) stepId
      L') :
    env.Does tenant runId (runAttempts env.toEvaluator tenant runId workflowId node
      (resolveConfig env.unicode node context) context stepId) L'
      (Executes env tenant runId node context L) := by
  unfold runAttempts
  split
  · exact Env.Does.raise (.of_attempting h (by simp))
  · next maxAttempts hmax =>
    have hattempts : 0 < maxAttempts.toNat → node.Attempts env.unicode := fun hpos =>
      ⟨maxAttempts, hmax, by omega⟩
    refine Env.Does.bind (retryLoop_does _ workflowId _ 1 none .transient h hattempts) ?_ ?_
    · intro r L'' hr
      cases r with
      | done res =>
        obtain ⟨row, bs, hnew, hof, hst, hout, hms, hdisp, hbs, hattempted, rfl⟩ := hr.out
        exact Env.Does.ret (.succeeded hnew hof hst hout hms hdisp hbs hattempted)
      | gaveUp lastError lastCategory attempt => exact giveUp_does _ _ _ _ _ hr
    · intro e L'' hr
      exact .of_attempting hr (by simp)

theorem failFast_does (workflowId connectionId : String)
    (h : Attempting env tenant runId node context L (resolveConfig env.unicode node context) stepId
      L') :
    env.Does tenant runId (failFast tenant runId workflowId node config stepId connectionId) L'
      (Executes env tenant runId node context L) := by
  have hstop : ∀ {L''}, Attempting env tenant runId node context L
      (resolveConfig env.unicode node context) stepId L'' →
      ∀ e : PyError, Executes env tenant runId node context L (.error e) L'' :=
    fun h e => .of_attempting h (by simp)
  have h' := fun ms msg => h.amend .failed (by simp) (by simp) ms .null (some msg)
  unfold failFast
  refine Env.Does.quiet_seq trivial (hstop h) fun _ => ?_
  refine Env.Does.seq (Env.Does.updateStep rfl ?_ fun w e b _ => ⟨hstop h e, hstop (h' _ _) e⟩)
  refine Env.Does.quiet_seq trivial (hstop (h' _ _)) fun _ => ?_
  exact Env.Does.ret (.of_attempting (h' _ _) (by simp))

theorem executeStep_does (workflowId : String)
    (h : Attempting env tenant runId node context L (resolveConfig env.unicode node context) stepId
      L') :
    env.Does tenant runId (executeStep env.toEvaluator tenant runId workflowId node
      (resolveConfig env.unicode node context) context stepId) L'
      (Executes env tenant runId node context L) := by
  unfold executeStep
  split
  · exact runAttempts_does workflowId h
  · refine Env.Does.quiet_seq trivial (fun e => .of_attempting h (by simp)) fun state => ?_
    split
    · exact failFast_does workflowId _ h
    · exact runAttempts_does workflowId h

/-- **What executing a node does**, in every environment. -/
theorem executeNode_does (workflowId : String) :
    env.Does tenant runId (executeNode env.toEvaluator tenant runId workflowId node context) L
      (Executes env tenant runId node context L) := by
  have hstart : ∀ id, id ∉ L.steps.map (·.id) →
      Attempting env tenant runId node context L (resolveConfig env.unicode node context) id
        (L.add (World.newStep tenant runId node .running
          (resolveConfig env.unicode node context) id)) :=
    fun id hid => ⟨⟨World.newStep tenant runId node .running
      (resolveConfig env.unicode node context) id, [], rfl, hid, ⟨rfl, rfl, rfl, rfl⟩,
      by simp [World.newStep], fun _ => ⟨by simp [World.newStep], by simp⟩, by simp,
      by simp [dispatches]⟩⟩
  unfold executeNode
  refine Env.Does.seq (Env.Does.recordStep (fun id hid => ⟨?_, fun e => ?_⟩) fun e => .unrecorded e)
  · exact executeStep_does workflowId (hstart id hid)
  · exact .of_attempting (hstart id hid) (by simp)

end

end FlowMesh
