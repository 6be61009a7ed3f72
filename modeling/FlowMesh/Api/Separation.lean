import FlowMesh.Repositories.Incidents
import FlowMesh.Api.Tenancy

/-!
# Rows and breakers that tenants share

The tenants have one database and one state store. A call on rows of a tenant is answered without
regard to the rows of another one, unless it creates a row under an id of theirs
(`onWorld_without`), and it leaves them alone (`without_onWorld`). The breakers are kept by
connection, whoever the tenant: `call_on` and `on_call` say what a call does to the breakers of
some connections.
-/

namespace FlowMesh

open Python Database Async

/-! ## The world -/

/-- What surrounds one call: the outcome of a dispatch, a fault, the clocks, and what is drawn. -/
structure Circumstances (τ : Type) where
  dispatch : WorkflowNode → List (String × Json) → Context → Except PyError DispatchResult
  /-- The exception of a call, and whether it took effect before it raised. -/
  fault : Op → Option (PyError × Bool)
  now : τ
  random : ℚ
  elapsedMs : PyFloat
  uuid : String
  /-- The id of a new step or dead letter. -/
  id : ℕ
  /-- The number of a new incident. -/
  draw : Fin 9000
  utcNow : ℤ
  nowStr : String

namespace Circumstances

variable {τ : Type} (x : Circumstances τ) (ev : Evaluator)

/-- The circumstances as an environment. The circuit breakers answer from the state store. -/
def env : Env where
  toEvaluator := ev
  dispatch := fun _ => x.dispatch
  circuitState := fun _ _ => .closed
  circuitFailure := fun _ _ => .closed
  fault := fun _ => x.fault
  random := fun _ => x.random
  elapsedMs := fun _ => x.elapsedMs
  uuid := fun _ => x.uuid

/-- What a call does to the rows. New steps and dead letters have the id that is drawn. -/
def onWorld (o : Op) (w : World) : Except PyError o.Res × World :=
  match o with
  | .recordStep tenant runId node status inputSnapshot =>
    match w.steps.insert? (World.newStep tenant runId node status inputSnapshot x.id) with
    | none => (.error ⟨.integrityError, "UNIQUE constraint failed: run_steps.id"⟩, w)
    | some steps => (.ok x.id, { w with steps })
  | .createDeadLetter tenant runId node workflowId reason errorCategory attempts payload =>
    match w.deadLetters.insert? (World.newDeadLetter tenant runId node workflowId reason
        errorCategory attempts payload x.id) with
    | none => (.error ⟨.integrityError, "UNIQUE constraint failed: dead_letters.id"⟩, w)
    | some deadLetters => (.ok (), { w with deadLetters })
  | o => (x.env ev).effect o w

/-- The call creates no row under an id that a row of the tenant has. -/
def free (a : String) (w : World) : Op → Bool
  | .createRun run _ => w.runs.rows.all fun r => r.id ≠ run.id || r.tenantId ≠ a
  | .recordStep .. => w.steps.rows.all fun r => r.id ≠ x.id || r.tenantId ≠ a
  | .createDeadLetter .. => w.deadLetters.rows.all fun r => r.id ≠ x.id || r.tenantId ≠ a
  | .createWorkflow _ wf =>
    w.registry.workflows.rows.all fun r => r.id ≠ wf.id || r.tenantId ≠ a
  | _ => true

end Circumstances

/-- The rows of the other tenants. -/
def World.without (a : String) (w : World) : World where
  runs := w.runs.restrict (·.tenantId ≠ a)
  steps := w.steps.restrict (·.tenantId ≠ a)
  deadLetters := w.deadLetters.restrict (·.tenantId ≠ a)
  registry := ⟨w.registry.workflows.restrict (·.tenantId ≠ a),
    w.registry.versions.restrict (·.tenantId ≠ a)⟩
  trace := []
  tick := 0

/-- The tenant has a run with the id. -/
def World.HasRun (tenant : String) (w : World) (runId : String) : Prop :=
  ∃ run ∈ w.runs, run.id = runId ∧ run.tenantId = tenant

section World

variable {τ : Type} {x : Circumstances τ} {ev : Evaluator} {a b : String} {own : String → Prop}
  {w : World} {o : Op}

@[simp] theorem World.without_without (a : String) (w : World) :
    (w.without a).without a = w.without a := by
  simp [World.without]

/-- A row that is looked up within a tenant. -/
theorem filter_tenant {α : Type} {f : α → String} (hb : b ≠ a) (r? : Option α) :
    (r?.filter fun r => f r ≠ a).filter (fun r => f r = b) = r?.filter fun r => f r = b := by
  cases r? with
  | none => rfl
  | some r =>
    by_cases hr : f r = b
    · have hra : f r ≠ a := fun h => hb (hr.symm.trans h)
      simp [Option.filter, hra]
    · by_cases hra : f r = a <;> simp [Option.filter, hr, hra, hb.symm]

/-- Rows that are selected within a tenant. -/
theorem rows_tenant {α : Type} {f : α → String} {p : α → Bool} (hp : ∀ r, p r = true → f r ≠ a)
    (l : List α) : (l.filter fun r => f r ≠ a).filter p = l.filter p := by
  rw [List.filter_filter]
  refine List.filter_congr fun r _ => ?_
  cases hr : p r with
  | false => rfl
  | true => simp [hp r hr]

/-- Rows of a tenant, with a condition on the rest. -/
theorem rows_of_tenant {α : Type} {f : α → String} {q : α → Prop} [DecidablePred q] (hb : b ≠ a)
    (l : List α) : (l.filter fun r => f r ≠ a).filter (fun r => f r = b ∧ q r) =
      l.filter fun r => f r = b ∧ q r := by
  refine rows_tenant (fun r hr => ?_) l
  rw [(of_decide_eq_true hr).1]
  exact hb

/-- A row of another tenant whose key no row of the tenant has. -/
theorem insert?_tenant {α κ : Type} [DecidableEq κ] {key : α → κ} {f : α → String}
    {t : Table α κ key} {r : α} (hr : f r ≠ a)
    (hfree : (t.rows.all fun r' => key r' ≠ key r || f r' ≠ a) = true) :
    (t.restrict fun r => f r ≠ a).insert? r =
      (t.insert? r).map (·.restrict fun r => f r ≠ a) := by
  refine Table.insert?_restrict (decide_eq_true hr) fun r' hr' hkey => ?_
  have hrow := List.all_eq_true.1 hfree r' hr'
  simpa [hkey] using hrow

/-- A statement on rows of the tenant. -/
theorem restrict_update_tenant {α κ : Type} {key : α → κ} {f : α → String} {t : Table α κ key}
    {q : α → Bool} {g : α → α} (hg : ∀ r, key (g r) = key r) (hf : ∀ r, f (g r) = f r)
    (hq : ∀ r ∈ t, q r = true → f r = a) :
    (t.update q g hg).restrict (fun r => f r ≠ a) = t.restrict fun r => f r ≠ a := by
  refine Table.restrict_update_of_not hg (fun r => ?_) fun r hr hqr => ?_
  · rw [hf]
  · simp [hq r hr hqr]

/-! ## What is read of other tenants -/

theorem run?_without (hb : b ≠ a) (runId : String) :
    (w.without a).run? b runId = w.run? b runId := by
  unfold World.run? World.without
  rw [Table.get?_restrict]
  exact filter_tenant hb _

theorem stepsOf_without (hb : b ≠ a) (runId : String) :
    (w.without a).stepsOf b runId = w.stepsOf b runId := by
  refine rows_tenant (fun r hr => ?_) _
  simp only [decide_eq_true_eq] at hr
  rw [hr.2]
  exact hb

theorem step_without (hb : b ≠ a) (stepId : ℕ) :
    ((w.without a).steps.get? stepId).filter (·.tenantId = b) =
      (w.steps.get? stepId).filter (·.tenantId = b) := by
  unfold World.without
  rw [Table.get?_restrict]
  exact filter_tenant hb _

theorem getById_without (hb : b ≠ a) (workflowId : String) :
    (w.without a).registry.getById b workflowId = w.registry.getById b workflowId := by
  unfold World.without Registry.getById
  rw [Table.get?_restrict]
  exact filter_tenant hb _

/-- Versions are looked up by a key that begins with their tenant. -/
theorem getByVersion_without (hb : b ≠ a) (workflowId : String) (version : ℤ) :
    (w.without a).registry.getByVersion b workflowId version =
      w.registry.getByVersion b workflowId version := by
  unfold World.without Registry.getByVersion
  rw [Table.get?_restrict]
  cases hget : w.registry.versions.get? (b, workflowId, version) with
  | none => rfl
  | some v =>
    have hkey : v.key = (b, workflowId, version) := (Table.get?_eq_some.1 hget).2
    have htenant : v.tenantId = b := congrArg Prod.fst hkey
    simp [Option.filter, htenant, hb]

theorem workflows_without (hb : b ≠ a) :
    (w.without a).registry.workflows.rows.filter (·.tenantId = b) =
      w.registry.workflows.rows.filter (·.tenantId = b) := by
  refine rows_tenant (fun r hr => ?_) _
  rw [of_decide_eq_true hr]
  exact hb

/-- **A call on rows of a tenant is answered without regard to the rows of another**, and does the
same to the rest. -/
theorem onWorld_without (x : Circumstances τ) (ev : Evaluator) (hb : b ≠ a) (ho : o.Minds b own)
    (hfree : x.free a w o = true) :
    (x.onWorld ev o (w.without a)).1 = (x.onWorld ev o w).1 ∧
      (x.onWorld ev o (w.without a)).2.without a = (x.onWorld ev o w).2.without a := by
  cases o with
  | getRun t runId =>
    obtain rfl : t = b := ho
    refine ⟨?_, World.without_without a w⟩
    simp only [Circumstances.onWorld, Env.effect, run?_without hb, stepsOf_without hb]
  | getByIdempotencyKey t key =>
    obtain rfl : t = b := ho
    have hrows : ((w.without a).runs.rows.filter fun r =>
        r.tenantId = t ∧ r.idempotencyKey = some key) =
          w.runs.rows.filter fun r => r.tenantId = t ∧ r.idempotencyKey = some key :=
      rows_of_tenant hb _
    simp only [Circumstances.onWorld, Env.effect, hrows]
    split
    · exact ⟨rfl, World.without_without a w⟩
    · exact ⟨rfl, World.without_without a w⟩
    · exact ⟨rfl, World.without_without a w⟩
  | createRun run definition =>
    obtain rfl : run.tenantId = b := ho
    have hinsert : (w.without a).runs.insert? run = (w.runs.insert? run).map _ :=
      insert?_tenant hb hfree
    simp only [Circumstances.onWorld, Env.effect, hinsert]
    cases w.runs.insert? run with
    | none => exact ⟨rfl, World.without_without a w⟩
    | some runs => exact ⟨rfl, by simp [World.without, World.log]⟩
  | setRunning runId definition =>
    refine ⟨rfl, ?_⟩
    simp [Circumstances.onWorld, Env.effect, World.without, World.log, World.setRunning,
      Table.restrict_update]
  | recordStep t runId node status inputSnapshot =>
    obtain rfl : t = b := ho
    have hinsert : (w.without a).steps.insert?
        (World.newStep t runId node status inputSnapshot x.id) =
          (w.steps.insert? (World.newStep t runId node status inputSnapshot x.id)).map _ :=
      insert?_tenant hb hfree
    simp only [Circumstances.onWorld, hinsert]
    cases w.steps.insert? (World.newStep t runId node status inputSnapshot x.id) with
    | none => exact ⟨rfl, World.without_without a w⟩
    | some steps => exact ⟨rfl, by simp [World.without]⟩
  | updateStep t stepId status durationMs outputSnapshot error =>
    refine ⟨rfl, ?_⟩
    simp [Circumstances.onWorld, Env.effect, World.without, World.updateStep, Table.restrict_update]
  | approveStep t stepId outputSnapshot =>
    obtain rfl : t = b := ho
    refine ⟨rfl, ?_⟩
    simp only [Circumstances.onWorld, Env.effect, step_without hb]
    cases (w.steps.get? stepId).filter (·.tenantId = t) with
    | none => exact World.without_without a w
    | some step =>
      simp [World.without, World.log, World.updateStep, Table.restrict_update]
  | updateRunStatus t runId status outputPayload error =>
    refine ⟨rfl, ?_⟩
    simp [Circumstances.onWorld, Env.effect, World.without, World.updateRunStatus,
      Table.restrict_update]
  | getByVersion t workflowId version =>
    obtain rfl : t = b := ho
    refine ⟨?_, World.without_without a w⟩
    simp only [Circumstances.onWorld, Env.effect, getByVersion_without hb]
  | getWorkflow t workflowId =>
    obtain rfl : t = b := ho
    refine ⟨?_, World.without_without a w⟩
    simp only [Circumstances.onWorld, Env.effect, getById_without hb]
  | listWorkflows t =>
    obtain rfl : t = b := ho
    refine ⟨?_, World.without_without a w⟩
    simp only [Circumstances.onWorld, Env.effect, workflows_without hb]
  | getByTriggerPath t path =>
    obtain rfl : t = b := ho
    refine ⟨?_, World.without_without a w⟩
    simp only [Circumstances.onWorld, Env.effect, workflows_without hb]
  | createWorkflow t wf =>
    obtain rfl : t = b := ho
    have hinsert : (w.without a).registry.workflows.insert? { wf with tenantId := t } =
        (w.registry.workflows.insert? { wf with tenantId := t }).map _ :=
      insert?_tenant hb hfree
    simp only [Circumstances.onWorld, Env.effect, Registry.create, hinsert]
    cases w.registry.workflows.insert? { wf with tenantId := t } with
    | none => exact ⟨rfl, World.without_without a w⟩
    | some workflows => exact ⟨rfl, by simp [World.without]⟩
  | getDeadLetter t itemId =>
    obtain rfl : t = b := ho
    refine ⟨?_, World.without_without a w⟩
    simp only [Circumstances.onWorld, Env.effect, World.without, Table.get?_restrict,
      filter_tenant hb]
  | createDeadLetter t runId node workflowId reason errorCategory attempts payload =>
    obtain rfl : t = b := ho
    have hinsert : (w.without a).deadLetters.insert? (World.newDeadLetter t runId node workflowId
        reason errorCategory attempts payload x.id) =
          (w.deadLetters.insert? (World.newDeadLetter t runId node workflowId reason errorCategory
            attempts payload x.id)).map _ :=
      insert?_tenant hb hfree
    simp only [Circumstances.onWorld, hinsert]
    cases w.deadLetters.insert? (World.newDeadLetter t runId node workflowId reason errorCategory
      attempts payload x.id) with
    | none => exact ⟨rfl, World.without_without a w⟩
    | some deadLetters => exact ⟨rfl, by simp [World.without]⟩
  | markReplayed t itemId =>
    refine ⟨rfl, ?_⟩
    simp [Circumstances.onWorld, Env.effect, World.without, Table.restrict_update]
  | listPending t =>
    obtain rfl : t = b := ho
    refine ⟨?_, World.without_without a w⟩
    simp only [Circumstances.onWorld, Env.effect, World.without, Table.rows_restrict,
      rows_of_tenant hb]
  | _ => exact ⟨rfl, World.without_without a w⟩

/-! ## What is written -/

theorem without_setRunning {runId : String} (h : w.HasRun a runId) :
    (w.setRunning runId).without a = w.without a := by
  obtain ⟨run, hrun, rfl, htenant⟩ := h
  have hrest : (w.setRunning run.id).runs.restrict (·.tenantId ≠ a) =
      w.runs.restrict (·.tenantId ≠ a) := by
    refine restrict_update_tenant ?_ (fun _ => rfl) fun r hr hid => ?_
    · exact fun _ => rfl
    · rw [Table.eq_of_key_eq hr hrun (of_decide_eq_true hid), htenant]
  simp only [World.without, hrest]
  rfl

theorem without_updateStep (stepId : ℕ) (status : StepStatus) (durationMs : PyFloat)
    (outputSnapshot : Json) (error : Option String) :
    (w.updateStep a stepId status durationMs outputSnapshot error).without a = w.without a := by
  have hrest : (w.updateStep a stepId status durationMs outputSnapshot error).steps.restrict
      (·.tenantId ≠ a) = w.steps.restrict (·.tenantId ≠ a) := by
    refine restrict_update_tenant ?_ (fun _ => rfl) fun s _ hs => (of_decide_eq_true hs).2
    exact fun _ => rfl
  simp only [World.without, hrest]
  rfl

theorem without_updateRunStatus (runId : String) (status : RunStatus)
    (outputPayload : Json) (error : Option String) :
    (w.updateRunStatus a runId status outputPayload error).without a = w.without a := by
  have hrest : (w.updateRunStatus a runId status outputPayload error).runs.restrict
      (·.tenantId ≠ a) = w.runs.restrict (·.tenantId ≠ a) := by
    refine restrict_update_tenant ?_ (fun _ => rfl) fun r _ hr => (of_decide_eq_true hr).2
    exact fun _ => rfl
  simp only [World.without, hrest]
  rfl

/-- **A call on rows of a tenant leaves the rows of the others alone.** -/
theorem without_onWorld (ho : o.Minds a own) (hown : ∀ runId, own runId → w.HasRun a runId) :
    (x.onWorld ev o w).2.without a = w.without a := by
  cases o with
  | createRun run definition =>
    obtain rfl : run.tenantId = a := ho
    simp only [Circumstances.onWorld, Env.effect]
    cases hinsert : w.runs.insert? run with
    | none => rfl
    | some runs =>
      have hrest : runs.restrict (·.tenantId ≠ run.tenantId) =
          w.runs.restrict (·.tenantId ≠ run.tenantId) :=
        Table.restrict_insert? (by simp) hinsert
      simp only [World.without, World.log, hrest]
  | setRunning runId definition => exact without_setRunning (hown runId ho)
  | recordStep t runId node status inputSnapshot =>
    obtain rfl : t = a := ho
    simp only [Circumstances.onWorld]
    cases hinsert : w.steps.insert? (World.newStep t runId node status inputSnapshot x.id) with
    | none => rfl
    | some steps =>
      have hrest : steps.restrict (·.tenantId ≠ t) = w.steps.restrict (·.tenantId ≠ t) :=
        Table.restrict_insert? (by simp [World.newStep]) hinsert
      simp only [World.without, hrest]
  | updateStep t stepId status durationMs outputSnapshot error =>
    obtain rfl : t = a := ho
    exact without_updateStep stepId status durationMs outputSnapshot error
  | approveStep t stepId outputSnapshot =>
    obtain rfl : t = a := ho
    simp only [Circumstances.onWorld, Env.effect]
    cases (w.steps.get? stepId).filter (·.tenantId = t) with
    | none => rfl
    | some step =>
      have hrest : (w.updateStep t stepId .success ⟨.finite 1, "1.0"⟩ outputSnapshot none).without t =
          w.without t := without_updateStep _ _ _ _ _
      exact hrest
  | updateRunStatus t runId status outputPayload error =>
    obtain rfl : t = a := ho
    exact without_updateRunStatus runId status outputPayload error
  | createWorkflow t wf =>
    obtain rfl : t = a := ho
    simp only [Circumstances.onWorld, Env.effect, Registry.create]
    cases hinsert : w.registry.workflows.insert? { wf with tenantId := t } with
    | none => rfl
    | some workflows =>
      have hrest : workflows.restrict (·.tenantId ≠ t) =
          w.registry.workflows.restrict (·.tenantId ≠ t) :=
        Table.restrict_insert? (by simp) hinsert
      simp only [World.without, hrest]
  | createDeadLetter t runId node workflowId reason errorCategory attempts payload =>
    obtain rfl : t = a := ho
    simp only [Circumstances.onWorld]
    cases hinsert : w.deadLetters.insert? (World.newDeadLetter t runId node workflowId reason
        errorCategory attempts payload x.id) with
    | none => rfl
    | some deadLetters =>
      have hrest : deadLetters.restrict (·.tenantId ≠ t) =
          w.deadLetters.restrict (·.tenantId ≠ t) :=
        Table.restrict_insert? (by simp [World.newDeadLetter]) hinsert
      simp only [World.without, hrest]
  | markReplayed t itemId =>
    obtain rfl : t = a := ho
    have hrest : (w.deadLetters.update (fun d => d.id = itemId ∧ d.tenantId = t)
        (fun d => { d with status := .replayed }) fun _ => rfl).restrict (·.tenantId ≠ t) =
          w.deadLetters.restrict (·.tenantId ≠ t) :=
      restrict_update_tenant _ (fun _ => rfl) fun d _ hd => (of_decide_eq_true hd).2
    simp only [Circumstances.onWorld, Env.effect, World.without, hrest]
  | getByIdempotencyKey t key =>
    simp only [Circumstances.onWorld, Env.effect]
    split <;> rfl
  | _ => rfl

/-- The faults do not depend on the world. -/
theorem faultOf_eq (x : Circumstances τ) (ev : Evaluator) (o : Op) (w w' : World) :
    (x.env ev).faultOf o w = (x.env ev).faultOf o w' := by
  cases o <;> rfl

/-- The runs are still there, and still their tenants'. -/
def World.Keeps (w w' : World) : Prop :=
  ∀ run ∈ w.runs, ∃ run' ∈ w'.runs, run'.id = run.id ∧ run'.tenantId = run.tenantId

theorem World.Keeps.refl (w : World) : w.Keeps w := fun run hrun => ⟨run, hrun, rfl, rfl⟩

theorem World.Keeps.hasRun {w' : World} (h : w.Keeps w') {runId : String}
    (hrun : w.HasRun a runId) : w'.HasRun a runId := by
  obtain ⟨run, hmem, rfl, rfl⟩ := hrun
  exact h run hmem

/-- A run stays, and stays the tenant's. -/
theorem keeps_onWorld (x : Circumstances τ) (ev : Evaluator) (o : Op) (w : World) :
    w.Keeps (x.onWorld ev o w).2 := by
  have hupdate : ∀ {p : RunRecord → Bool} {f : RunRecord → RunRecord} (hf : ∀ r, (f r).id = r.id),
      (∀ r, (f r).tenantId = r.tenantId) → ∀ run ∈ w.runs, ∃ run' ∈ w.runs.update p f hf,
        run'.id = run.id ∧ run'.tenantId = run.tenantId := by
    intro p f hf hf' run hrun
    refine ⟨_, Table.mem_update.2 ⟨run, hrun, rfl⟩, ?_⟩
    split
    · exact ⟨hf run, hf' run⟩
    · exact ⟨rfl, rfl⟩
  cases o with
  | createRun run definition =>
    simp only [Circumstances.onWorld, Env.effect]
    cases hinsert : w.runs.insert? run with
    | none => exact .refl w
    | some runs =>
      intro r hr
      refine ⟨r, ?_, rfl, rfl⟩
      change r ∈ runs.rows
      rw [(Table.insert?_eq_some hinsert).2]
      exact List.mem_append_left _ hr
  | setRunning runId definition =>
    exact @hupdate (·.id = runId) (fun r => { r with status := .running }) (fun _ => rfl)
      fun _ => rfl
  | updateRunStatus t runId status outputPayload error =>
    exact @hupdate (fun r => r.id = runId ∧ r.tenantId = t)
      (fun r => { r with status, outputPayload, error }) (fun _ => rfl) fun _ => rfl
  | recordStep t runId node status inputSnapshot =>
    simp only [Circumstances.onWorld]
    split <;> exact .refl w
  | createDeadLetter t runId node workflowId reason errorCategory attempts payload =>
    simp only [Circumstances.onWorld]
    split <;> exact .refl w
  | approveStep t stepId outputSnapshot =>
    simp only [Circumstances.onWorld, Env.effect]
    split <;> exact .refl w
  | getByIdempotencyKey t key =>
    simp only [Circumstances.onWorld, Env.effect]
    split <;> exact .refl w
  | _ => exact .refl w

end World

/-! ## The circuit breakers -/

section Breakers

variable {τ : Type}

/-- The call of an operation on the state store. -/
def Op.breakerCall? (now : τ) : Op → Option (BreakerCall τ)
  | .getCircuitBreakerState connectionId =>
    some ⟨connectionId, now, .getCircuitBreakerState none⟩
  | .recordCircuitFailure connectionId => some ⟨connectionId, now, .recordCircuitFailure 3⟩
  | .recordCircuitSuccess connectionId => some ⟨connectionId, now, .recordCircuitSuccess⟩
  | _ => none

variable [Sub τ] [Zero τ] [LE τ] [DecidableLE τ]

/-- The breakers of some connections. -/
def MemoryBreakers.on (K : String → Bool) (m : MemoryBreakers τ) (connectionId : String) :
    Option (Breaker τ) :=
  if K connectionId then some (m.breaker connectionId) else none

/-- The call finds nothing to do: an open breaker whose cooldown is not over, or one that is not
open, for a look-up, and a closed breaker without failures for a success. A failure always
counts. -/
def Breaker.Idle (cooldown now : τ) (b : Breaker τ) : BreakerOp τ → Prop
  | .getCircuitBreakerState cooldownSeconds =>
    ¬ (b.state = .open ∧ cooldownSeconds.getD cooldown ≤ now - b.openedAt)
  | .recordCircuitFailure _ => False
  | .recordCircuitSuccess => b.state = .closed ∧ b.failures = 0 ∧ b.openedAt = 0
  | .resetCircuitBreaker => b.state = .closed ∧ b.failures = 0 ∧ b.openedAt = 0

instance Breaker.Idle.decidable [DecidableEq τ] (cooldown now : τ) (b : Breaker τ) :
    (op : BreakerOp τ) → Decidable (b.Idle cooldown now op)
  | .getCircuitBreakerState _ => inferInstanceAs (Decidable (¬ (_ ∧ _)))
  | .recordCircuitFailure _ => .isFalse id
  | .recordCircuitSuccess => inferInstanceAs (Decidable (_ ∧ _ ∧ _))
  | .resetCircuitBreaker => inferInstanceAs (Decidable (_ ∧ _ ∧ _))

variable {K : String → Bool} {m m' : MemoryBreakers τ} {c : BreakerCall τ}

theorem Breaker.Idle.step {cooldown now : τ} {b : Breaker τ} {op : BreakerOp τ}
    (h : b.Idle cooldown now op) : (b.step cooldown now op).2 = b := by
  obtain ⟨state, failures, openedAt⟩ := b
  cases op with
  | getCircuitBreakerState cooldownSeconds => rw [step_get_of_not h]
  | recordCircuitFailure threshold => exact h.elim
  | recordCircuitSuccess =>
    obtain ⟨rfl, rfl, rfl⟩ := h
    rfl
  | resetCircuitBreaker =>
    obtain ⟨rfl, rfl, rfl⟩ := h
    rfl

namespace MemoryBreakers

omit [Sub τ] [LE τ] [DecidableLE τ] in
theorem breaker_eq_of_on (h : m.on K = m'.on K) {connectionId : String}
    (hK : K connectionId = true) : m.breaker connectionId = m'.breaker connectionId := by
  have hon := congrFun h connectionId
  unfold on at hon
  rw [if_pos hK, if_pos hK] at hon
  exact Option.some.inj hon

/-- A call on one of the connections is answered from their breakers. -/
theorem call_on (hK : K c.connectionId = true) (h : m.on K = m'.on K)
    (hcooldown : m.defaultCooldownSeconds = m'.defaultCooldownSeconds) :
    (m.call c).1 = (m'.call c).1 ∧ (m.call c).2.on K = (m'.call c).2.on K := by
  have hbreaker := breaker_eq_of_on h hK
  rw [breaker_call.1, breaker_call.1, hbreaker, hcooldown]
  refine ⟨rfl, ?_⟩
  funext connectionId
  unfold on
  split
  next hconnection =>
    by_cases hid : c.connectionId = connectionId
    · subst hid
      rw [breaker_call.2, breaker_call.2, hbreaker, hcooldown]
    · rw [breaker_call_of_ne _ hid, breaker_call_of_ne _ hid, breaker_eq_of_on h hconnection]
  next => rfl

/-- A call on another connection, or one that finds nothing to do. -/
theorem on_call (h : K c.connectionId = true →
      (m.breaker c.connectionId).Idle m.defaultCooldownSeconds c.now c.op) :
    (m.call c).2.on K = m.on K := by
  funext connectionId
  unfold on
  split
  next hconnection =>
    by_cases hid : c.connectionId = connectionId
    · subst hid
      rw [breaker_call.2, (h hconnection).step]
    · rw [breaker_call_of_ne _ hid]
  next => rfl

end MemoryBreakers

end Breakers

end FlowMesh
