import FlowMesh.Engine.Execute

/-!
# The ledger of a run

Of the world, the engine reads and writes what belongs to the run it works on: the run's row, its
steps and its events. This is the run's `Ledger`. `Env.Does` is the program logic over ledgers:
`env.Does tenant runId p L Φ` says that `p`, started when the ledger of the run is `L`, ends with
an outcome and a ledger in `Φ`, whatever the environment answers, which calls raise, and whatever
other requests do to the rest of the world in between.

There is one rule for each way a call can touch a ledger; the calls that touch none are `Quiet`.
-/

namespace FlowMesh

open Python Database Async

/-! ## Ledgers -/

/-- The row of a run, its steps and its events. -/
structure Ledger where
  run : Option RunRecord
  steps : List RunStepRecord
  events : List Event

namespace Ledger

variable (L : Ledger)

/-- Append events. -/
def log (es : List Event) : Ledger := { L with events := L.events ++ es }

/-- Append a step. -/
def add (s : RunStepRecord) : Ledger := { L with steps := L.steps ++ [s] }

/-- Rewrite the step with a given id. -/
def amend (stepId : ℕ) (f : RunStepRecord → RunStepRecord) : Ledger :=
  { L with steps := L.steps.map fun s => if s.id = stepId then f s else s }

/-- Rewrite the run's row. -/
def setRun (f : RunRecord → RunRecord) : Ledger := { L with run := L.run.map f }

@[simp] theorem log_run (es : List Event) : (L.log es).run = L.run := rfl

@[simp] theorem log_steps (es : List Event) : (L.log es).steps = L.steps := rfl

@[simp] theorem log_events (es : List Event) : (L.log es).events = L.events ++ es := rfl

@[simp] theorem add_run (s : RunStepRecord) : (L.add s).run = L.run := rfl

@[simp] theorem add_steps (s : RunStepRecord) : (L.add s).steps = L.steps ++ [s] := rfl

@[simp] theorem add_events (s : RunStepRecord) : (L.add s).events = L.events := rfl

@[simp] theorem setRun_steps (f : RunRecord → RunRecord) : (L.setRun f).steps = L.steps := rfl

@[simp] theorem setRun_events (f : RunRecord → RunRecord) : (L.setRun f).events = L.events := rfl

@[simp] theorem amend_run (stepId : ℕ) (f : RunStepRecord → RunStepRecord) :
    (L.amend stepId f).run = L.run := rfl

@[simp] theorem amend_events (stepId : ℕ) (f : RunStepRecord → RunStepRecord) :
    (L.amend stepId f).events = L.events := rfl

@[simp] theorem log_nil : L.log [] = L := by simp [log]

@[simp] theorem log_log (es es' : List Event) : (L.log es).log es' = L.log (es ++ es') := by
  simp [log]

/-- Rewriting the step that was added last, under an id that was new. -/
theorem amend_add {s : RunStepRecord} (hs : s.id ∉ L.steps.map (·.id))
    (f : RunStepRecord → RunStepRecord) : (L.add s).amend s.id f = L.add (f s) := by
  have hold : L.steps.map (fun s' => if s'.id = s.id then f s' else s') = L.steps := by
    refine (List.map_congr_left fun s' hs' => ?_).trans (List.map_id _)
    have hne : s'.id ≠ s.id := fun hid => hs (List.mem_map.2 ⟨s', hs', hid⟩)
    rw [if_neg hne]
    rfl
  simp [amend, add, hold]

theorem amend_log (es : List Event) (stepId : ℕ) (f : RunStepRecord → RunStepRecord) :
    (L.log es).amend stepId f = (L.amend stepId f).log es := rfl

/-- The ids of the steps are distinct. -/
def Keyed : Prop := (L.steps.map (·.id)).Nodup

variable {L}

theorem Keyed.add (h : L.Keyed) {s : RunStepRecord} (hs : s.id ∉ L.steps.map (·.id)) :
    (L.add s).Keyed := by
  unfold Keyed
  rw [add_steps, List.map_append]
  exact List.Nodup.append h (List.nodup_singleton _) (List.disjoint_singleton.2 hs)

theorem Keyed.amend (h : L.Keyed) (stepId : ℕ) {f : RunStepRecord → RunStepRecord}
    (hf : ∀ s, (f s).id = s.id) : (L.amend stepId f).Keyed := by
  have hids : (L.amend stepId f).steps.map (·.id) = L.steps.map (·.id) := by
    refine (List.map_map ..).trans (List.map_congr_left fun s _ => ?_)
    simp only [Function.comp_apply]
    split
    · exact hf s
    · rfl
  unfold Keyed
  rw [hids]
  exact h

/-- Rewriting the last step. -/
theorem Keyed.steps_amend (h : L.Keyed) {init : List RunStepRecord} {s : RunStepRecord}
    (hsteps : L.steps = init ++ [s]) (f : RunStepRecord → RunStepRecord) :
    (L.amend s.id f).steps = init ++ [f s] := by
  have hnew : s.id ∉ ({ L with steps := init } : Ledger).steps.map (·.id) := by
    intro hmem
    unfold Keyed at h
    rw [hsteps, List.map_append, List.nodup_append] at h
    exact h.2.2 _ hmem _ (by simp) rfl
  have hL : L = ({ L with steps := init } : Ledger).add s := by
    rw [Ledger.add, ← hsteps]
  rw [hL, amend_add _ hnew]
  rfl

theorem Keyed.eq_of_id (h : L.Keyed) {s s' : RunStepRecord} (hs : s ∈ L.steps) (hs' : s' ∈ L.steps)
    (hid : s.id = s'.id) : s = s' := List.inj_on_of_nodup_map h hs hs' hid

end Ledger

/-- The ledger of a run in a world. -/
def World.ledger (w : World) (tenant runId : String) : Ledger :=
  ⟨w.run? tenant runId, w.stepsOf tenant runId, w.eventsOf runId⟩

/-! ## What the calls do to a ledger -/

/-- The calls that touch no ledger. -/
def Op.Quiet : Op → Prop
  | .createRun .. => False
  | .setRunning .. => False
  | .recordStep .. => False
  | .updateStep .. => False
  | .approveStep .. => False
  | .updateRunStatus .. => False
  | .dispatchNodeType .. => False
  | _ => True

namespace World

variable {w : World} {tenant runId : String}

@[simp] theorem ledger_tick (n : ℕ) :
    ({ w with tick := n } : World).ledger tenant runId = w.ledger tenant runId := rfl

theorem ledger_log {e : Event} (he : e.runId = runId) :
    (w.log e).ledger tenant runId = (w.ledger tenant runId).log [e] := by
  simp [ledger, World.log, Ledger.log, eventsOf, run?, stepsOf, List.filter_append, he]

theorem ledger_recordStep (node : WorkflowNode) (status : StepStatus)
    (inputSnapshot : List (String × Json)) :
    (w.recordStep tenant runId node status inputSnapshot).ledger tenant runId =
      (w.ledger tenant runId).add
        (newStep tenant runId node status inputSnapshot w.steps.fresh) := by
  have hrows : (w.recordStep tenant runId node status inputSnapshot).steps.rows =
      w.steps.rows ++ [newStep tenant runId node status inputSnapshot w.steps.fresh] := rfl
  have hsteps : (w.recordStep tenant runId node status inputSnapshot).stepsOf tenant runId =
      w.stepsOf tenant runId ++ [newStep tenant runId node status inputSnapshot w.steps.fresh] := by
    simp [stepsOf, hrows, List.filter_append, newStep]
  simp only [ledger, Ledger.add, hsteps]
  rfl

theorem fresh_not_mem_ledger : w.steps.fresh ∉ (w.ledger tenant runId).steps.map (·.id) := by
  intro h
  obtain ⟨s, hs, hid⟩ := List.mem_map.1 h
  exact w.steps.fresh_not_mem (List.mem_map.2 ⟨s, List.mem_of_mem_filter hs, hid⟩)

theorem ledger_updateStep (stepId : ℕ) (status : StepStatus) (durationMs : PyFloat)
    (outputSnapshot : Json) (error : Option String) :
    (w.updateStep tenant stepId status durationMs outputSnapshot error).ledger tenant runId =
      (w.ledger tenant runId).amend stepId
        fun s => { s with status, durationMs, outputSnapshot, error } := by
  have hsteps : (w.updateStep tenant stepId status durationMs outputSnapshot error).stepsOf tenant
      runId = (w.stepsOf tenant runId).map fun s =>
        if s.id = stepId then { s with status, durationMs, outputSnapshot, error } else s := by
    simp only [stepsOf, updateStep, Table.rows_update, List.filter_map]
    refine (List.map_congr_left fun s hs => ?_).trans (congrArg _ (List.filter_congr fun s _ => ?_))
    · have ht : s.tenantId = tenant := by
        have := (List.mem_filter.1 hs).2
        simp only [Function.comp_apply, decide_eq_true_eq] at this
        split at this <;> exact this.2
      simp [ht]
    · simp only [Function.comp_apply]
      split <;> rfl
  simp only [ledger, Ledger.amend, hsteps]
  rfl

/-- The run after a statement that rewrites rows without moving them to another tenant. -/
theorem run?_of_get? {w' : World} {g : RunRecord → RunRecord}
    (hget : w'.runs.get? runId = (w.runs.get? runId).map g)
    (ht : ∀ r, (g r).tenantId = r.tenantId) :
    w'.run? tenant runId = (w.run? tenant runId).map g := by
  unfold run?
  rw [hget]
  cases w.runs.get? runId with
  | none => rfl
  | some r =>
    simp only [Option.map_some, Option.filter_some, ht]
    split <;> rfl

theorem run?_eq_some {run : RunRecord} :
    w.run? tenant runId = some run ↔ run ∈ w.runs ∧ run.id = runId ∧ run.tenantId = tenant := by
  rw [run?, Option.filter_eq_some_iff, Table.get?_eq_some]
  simp [and_assoc]

/-- A statement that rewrites the row of the run rewrites the ledger's run. -/
theorem run?_map_congr {g g' : RunRecord → RunRecord}
    (h : ∀ r : RunRecord, r.id = runId → r.tenantId = tenant → g r = g' r) :
    (w.run? tenant runId).map g = (w.run? tenant runId).map g' := by
  cases hr : w.run? tenant runId with
  | none => rfl
  | some r =>
    obtain ⟨-, hid, ht⟩ := run?_eq_some.1 hr
    rw [Option.map_some, Option.map_some, h r hid ht]

theorem ledger_setRunning : (w.setRunning runId).ledger tenant runId =
    (w.ledger tenant runId).setRun fun r => { r with status := .running } := by
  have hrun : (w.setRunning runId).run? tenant runId =
      (w.run? tenant runId).map fun r => { r with status := .running } := by
    refine (run?_of_get? (g := fun r => if r.id = runId then { r with status := .running } else r)
      ?_ fun r => by split <;> rfl).trans (run?_map_congr fun r hid _ => if_pos hid)
    have hget := w.runs.get?_update (fun r => r.id = runId)
      (fun r => { r with status := .running }) (fun _ => rfl) runId
    simp only [decide_eq_true_eq] at hget
    exact hget
  simp only [ledger, Ledger.setRun, hrun]
  rfl

theorem ledger_updateRunStatus (status : RunStatus) (outputPayload : Json)
    (error : Option String) :
    (w.updateRunStatus tenant runId status outputPayload error).ledger tenant runId =
      (w.ledger tenant runId).setRun fun r => { r with status, outputPayload, error } := by
  have hrun : (w.updateRunStatus tenant runId status outputPayload error).run? tenant runId =
      (w.run? tenant runId).map fun r => { r with status, outputPayload, error } := by
    refine (run?_of_get? (g := fun r => if r.id = runId ∧ r.tenantId = tenant then
      { r with status, outputPayload, error } else r) ?_ fun r => by split <;> rfl).trans
      (run?_map_congr fun r hid ht => if_pos ⟨hid, ht⟩)
    have hget := w.runs.get?_update (fun r => r.id = runId ∧ r.tenantId = tenant)
      (fun r => { r with status, outputPayload, error }) (fun _ => rfl) runId
    simp only [decide_eq_true_eq] at hget
    exact hget
  simp only [ledger, Ledger.setRun, hrun]
  rfl

end World

namespace Env

variable (env : Env)

theorem ledger_quiet (tenant runId : String) {o : Op} (ho : o.Quiet) (w : World) :
    (env.effect o w).2.ledger tenant runId = w.ledger tenant runId := by
  cases o <;> first
    | exact ho.elim
    | rfl
    | (simp only [effect]; split <;> rfl)

/-- A call takes effect, or raises with or without having taken effect. -/
theorem handle_cases (tenant runId : String) (o : Op) (w : World) :
    (env.faultOf o w = none ∧ (env.handle o w).1 = (env.effect o w).1 ∧
        (env.handle o w).2.ledger tenant runId = (env.effect o w).2.ledger tenant runId) ∨
      ∃ e b, env.faultOf o w = some (e, b) ∧ (env.handle o w).1 = .error e ∧
        ((env.handle o w).2.ledger tenant runId = w.ledger tenant runId ∨
          (env.handle o w).2.ledger tenant runId = (env.effect o w).2.ledger tenant runId) := by
  unfold handle
  cases hf : env.faultOf o w with
  | none => exact Or.inl ⟨rfl, rfl, rfl⟩
  | some p =>
    obtain ⟨e, b⟩ := p
    cases b with
    | false => exact Or.inr ⟨e, false, rfl, rfl, Or.inl rfl⟩
    | true => exact Or.inr ⟨e, true, rfl, rfl, Or.inr rfl⟩

/-- A call that touches no ledger, whether it raises or not. -/
theorem handle_quiet (tenant runId : String) {o : Op} (ho : o.Quiet) (w : World) :
    (env.handle o w).2.ledger tenant runId = w.ledger tenant runId := by
  have heffect := env.ledger_quiet tenant runId ho w
  rcases env.handle_cases tenant runId o w with ⟨-, -, hL⟩ | ⟨e, b, -, -, hL | hL⟩
  · exact hL.trans heffect
  · exact hL
  · exact hL.trans heffect

/-- `RunRepository.create` of a run of this tenant: an integrity error, or the row is stored. -/
theorem ledger_createRun {tenant runId : String} {w : World} {run : RunRecord}
    {definition : WorkflowSpec} (hid : run.id = runId) (ht : run.tenantId = tenant) :
    (∃ e, env.effect (.createRun run definition) w = (.error e, w)) ∨
      ((env.effect (.createRun run definition) w).1 = .ok () ∧
        (env.effect (.createRun run definition) w).2.ledger tenant runId =
          { w.ledger tenant runId with run := some run }.log [.executing runId definition]) := by
  simp only [effect]
  rcases w.runs.insert?_cases run with ⟨hnone, -⟩ | ⟨runs, hsome, -, hrows⟩
  · rw [hnone]
    exact Or.inl ⟨_, rfl⟩
  · rw [hsome]
    refine Or.inr ⟨rfl, ?_⟩
    have hrun : World.run? { w with runs } tenant runId = some run :=
      World.run?_eq_some.2 ⟨(hrows run).2 (Or.inr rfl), hid, ht⟩
    refine (World.ledger_log (by exact hid)).trans ?_
    rw [hid]
    simp only [World.ledger, Ledger.log, hrun]
    rfl

/-- The creation of a run under a new id. -/
theorem ledger_createRun_new {tenant runId : String} {w : World} {run : RunRecord}
    {definition : WorkflowSpec} (hid : run.id = runId) (ht : run.tenantId = tenant)
    (hnew : w.runs.get? runId = none) :
    (env.effect (.createRun run definition) w).1 = .ok () ∧
      (env.effect (.createRun run definition) w).2.ledger tenant runId =
        { w.ledger tenant runId with run := some run }.log [.executing runId definition] := by
  refine (env.ledger_createRun hid ht).resolve_left ?_
  rintro ⟨e, he⟩
  rcases w.runs.insert?_cases run with ⟨-, hin⟩ | ⟨runs, hsome, -, -⟩
  · obtain ⟨stored, hstored, hsame⟩ := List.mem_map.1 hin
    exact Table.get?_eq_none.1 hnew stored hstored (hsame.trans hid)
  · simp [effect, hsome] at he

/-- The approval of a step of the run. -/
theorem ledger_approveStep {tenant runId : String} {w : World} {s : RunStepRecord}
    (hs : s ∈ (w.ledger tenant runId).steps) (outputSnapshot : Json) :
    (env.effect (.approveStep tenant s.id outputSnapshot) w).2.ledger tenant runId =
      ((w.ledger tenant runId).amend s.id fun s => { s with
        status := .success, durationMs := ⟨.finite 1, "1.0"⟩, outputSnapshot, error := none }).log
          [.approved runId s.nodeId] := by
  obtain ⟨hmem, hs'⟩ := List.mem_filter.1 hs
  simp only [decide_eq_true_eq] at hs'
  have hget : (w.steps.get? s.id).filter (·.tenantId = tenant) = some s := by
    rw [Table.get?_eq_some.2 ⟨hmem, rfl⟩]
    simp [hs'.2]
  simp only [effect, hget]
  rw [World.ledger_log (by exact hs'.1), World.ledger_updateStep, hs'.1]

/-! ## Programs over a ledger -/

variable {tenant runId : String} {α β : Type}

/-- The rest of the system leaves the ledger alone. -/
def SameLedger (tenant runId : String) (w w' : World) : Prop :=
  w'.ledger tenant runId = w.ledger tenant runId

/-- From the ledger `L`, the program ends with an outcome and a ledger in `Φ`. -/
def Does (tenant runId : String) (p : M α) (L : Ledger) (Φ : Except PyError α → Ledger → Prop) :
    Prop :=
  ∀ w : World, w.ledger tenant runId = L →
    p.Ensures env.handle (SameLedger tenant runId) (fun r w' => Φ r (w'.ledger tenant runId)) w

namespace Does

variable {env} {L : Ledger} {Φ Φ' : Except PyError α → Ledger → Prop}

/-- What a program does to a ledger, it does when it runs alone. -/
theorem run {p : M α} (hp : env.Does tenant runId p L Φ) {w : World}
    (hw : w.ledger tenant runId = L) :
    Φ (p.run env.handle w).1 ((p.run env.handle w).2.ledger tenant runId) :=
  Prog.Ensures.of_run (hp w hw) fun _ => rfl

theorem ret {a : α} (hΦ : Φ (.ok a) L) : env.Does tenant runId (pure a) L Φ := by
  rintro w rfl
  exact hΦ

theorem raise {e : PyError} (hΦ : Φ (.error e) L) : env.Does tenant runId (.throw e) L Φ := by
  rintro w rfl
  exact hΦ

theorem mono {p : M α} (hp : env.Does tenant runId p L Φ) (hΦ : ∀ r L', Φ r L' → Φ' r L') :
    env.Does tenant runId p L Φ' :=
  fun w hw => (hp w hw).mono fun r _ h => hΦ r _ h

theorem bind {p : M α} {f : α → M β} {Ψ : Except PyError α → Ledger → Prop}
    {Φ : Except PyError β → Ledger → Prop} (hp : env.Does tenant runId p L Ψ)
    (hok : ∀ a L', Ψ (.ok a) L' → env.Does tenant runId (f a) L' Φ)
    (herr : ∀ e L', Ψ (.error e) L' → Φ (.error e) L') : env.Does tenant runId (p >>= f) L Φ :=
  fun w hw => (hp w hw).bind (fun a w' h => hok a _ h w' rfl) fun e _ h => herr e _ h

/-- What a program does, followed by another one: the form in which the rules below are
chained. -/
theorem seq {p : M α} {f : α → M β} {Φ : Except PyError β → Ledger → Prop}
    (hp : env.Does tenant runId p L fun r L' => match r with
      | .ok a => env.Does tenant runId (f a) L' Φ
      | .error e => Φ (.error e) L') : env.Does tenant runId (p >>= f) L Φ :=
  bind hp (fun _ _ h => h) fun _ _ h => h

theorem attempt {p : M α} {Φ : Except PyError (Except PyError α) → Ledger → Prop}
    (hp : env.Does tenant runId p L fun r L' => Φ (.ok r) L') :
    env.Does tenant runId p.attempt L Φ :=
  fun w hw => (hp w hw).attempt

/-- The rule for a call, from which the rules for the single calls follow. -/
theorem call {o : Op} {Φ : Except PyError o.Res → Ledger → Prop}
    (hok : ∀ w : World, w.ledger tenant runId = L → env.faultOf o w = none →
      Φ (env.effect o w).1 ((env.effect o w).2.ledger tenant runId))
    (hfault : ∀ (w : World) e b, w.ledger tenant runId = L → env.faultOf o w = some (e, b) →
      Φ (.error e) L ∧ Φ (.error e) ((env.effect o w).2.ledger tenant runId)) :
    env.Does tenant runId (perform o) L Φ := by
  rintro w rfl
  refine Prog.Ensures.perform fun w' hw' => ?_
  rcases env.handle_cases tenant runId o w' with
    ⟨hf, hres, hL⟩ | ⟨e, b, hf, hres, hL | hL⟩
  · rw [hres, hL]
    exact hok w' hw' hf
  · rw [hres, hL, hw']
    exact (hfault w' e b hw' hf).1
  · rw [hres, hL]
    exact (hfault w' e b hw' hf).2

/-- A call that touches no ledger. -/
theorem quiet {o : Op} {Φ : Except PyError o.Res → Ledger → Prop} (ho : o.Quiet)
    (hΦ : ∀ r, Φ r L) : env.Does tenant runId (perform o) L Φ := by
  refine call (fun w hw _ => ?_) fun w e b hw _ => ?_
  · rw [env.ledger_quiet _ _ ho, hw]
    exact hΦ _
  · rw [env.ledger_quiet _ _ ho, hw]
    exact ⟨hΦ _, hΦ _⟩

/-- A call that touches no ledger, and then the rest. -/
theorem quiet_seq {o : Op} {f : o.Res → M β} {Φ : Except PyError β → Ledger → Prop}
    (ho : o.Quiet) (herr : ∀ e, Φ (.error e) L)
    (hok : ∀ a, env.Does tenant runId (f a) L Φ) :
    env.Does tenant runId (perform o >>= f) L Φ := by
  refine seq (quiet ho fun r => ?_)
  cases r with
  | error e => exact herr e
  | ok a => exact hok a

theorem getRun {Φ : Except PyError (Option (RunRecord × List RunStepRecord)) → Ledger → Prop}
    (hok : Φ (.ok (L.run.map fun run => (run, L.steps))) L) (herr : ∀ e, Φ (.error e) L) :
    env.Does tenant runId (perform (.getRun tenant runId)) L Φ := by
  refine call (fun w hw _ => ?_) fun w e b hw _ => ⟨herr e, ?_⟩
  · rw [← hw] at hok
    exact hok
  · rw [show (env.effect (.getRun tenant runId) w).2 = w from rfl, hw]
    exact herr e

theorem dispatch {node : WorkflowNode} {config : List (String × Json)} {context : Context}
    {Φ : Except PyError DispatchResult → Ledger → Prop}
    (hΦ : ∀ w, Φ (env.dispatch w node config context) (L.log [.dispatched runId node.id config
      context (env.dispatch w node config context).isOk])) :
    env.Does tenant runId (perform (.dispatchNodeType runId node config context)) L Φ := by
  refine call (fun w hw _ => ?_) fun w e b _ hf => by cases hf
  have hledger : (env.effect (.dispatchNodeType runId node config context) w).2.ledger tenant
      runId = L.log [.dispatched runId node.id config context
        (env.dispatch w node config context).isOk] := by
    rw [← hw]
    exact World.ledger_log rfl
  rw [hledger]
  exact hΦ w

/-- `record_step` adds the step under a new id. -/
theorem recordStep {node : WorkflowNode} {status : StepStatus}
    {inputSnapshot : List (String × Json)} {Φ : Except PyError ℕ → Ledger → Prop}
    (hΦ : ∀ id, id ∉ L.steps.map (·.id) →
      Φ (.ok id) (L.add (World.newStep tenant runId node status inputSnapshot id)) ∧
      ∀ e, Φ (.error e) (L.add (World.newStep tenant runId node status inputSnapshot id)))
    (herr : ∀ e, Φ (.error e) L) :
    env.Does tenant runId (perform (.recordStep tenant runId node status inputSnapshot)) L Φ := by
  have hledger : ∀ w : World, w.ledger tenant runId = L →
      (env.effect (.recordStep tenant runId node status inputSnapshot) w).2.ledger tenant runId =
        L.add (World.newStep tenant runId node status inputSnapshot w.steps.fresh) := by
    rintro w rfl
    exact World.ledger_recordStep node status inputSnapshot
  refine call (fun w hw _ => ?_) fun w e b hw _ => ⟨herr e, ?_⟩
  · rw [hledger w hw]
    exact (hΦ _ (hw ▸ World.fresh_not_mem_ledger)).1
  · rw [hledger w hw]
    exact (hΦ _ (hw ▸ World.fresh_not_mem_ledger)).2 e

/-- `update_step` rewrites the step with the id it was given. -/
theorem updateStep {stepId : ℕ} {status : StepStatus} {durationMs : PyFloat}
    {outputSnapshot : Json} {error : Option String} {Φ : Except PyError Unit → Ledger → Prop}
    {L' : Ledger}
    (hL' : L' = L.amend stepId fun s => { s with status, durationMs, outputSnapshot, error })
    (hok : Φ (.ok ()) L')
    (herr : ∀ w e b, env.faultOf (.updateStep tenant stepId status durationMs outputSnapshot
      error) w = some (e, b) → Φ (.error e) L ∧ Φ (.error e) L') :
    env.Does tenant runId
      (perform (.updateStep tenant stepId status durationMs outputSnapshot error)) L Φ := by
  have hledger : ∀ w : World, w.ledger tenant runId = L →
      (env.effect (.updateStep tenant stepId status durationMs outputSnapshot error) w).2.ledger
        tenant runId = L' := by
    rintro w rfl
    rw [hL']
    exact World.ledger_updateStep stepId status durationMs outputSnapshot error
  refine call (fun w hw _ => ?_) fun w e b hw hf => ?_
  · rw [hledger w hw]
    exact hok
  · rw [hledger w hw]
    exact herr w e b hf

/-- `update_run_status`. -/
theorem updateRunStatus {status : RunStatus} {outputPayload : Json} {error : Option String}
    {Φ : Except PyError Unit → Ledger → Prop} {L' : Ledger}
    (hL' : L' = L.setRun fun r => { r with status, outputPayload, error })
    (hok : Φ (.ok ()) L') (herr : ∀ e, Φ (.error e) L ∧ Φ (.error e) L') :
    env.Does tenant runId (perform (.updateRunStatus tenant runId status outputPayload error))
      L Φ := by
  have hledger : ∀ w : World, w.ledger tenant runId = L →
      (env.effect (.updateRunStatus tenant runId status outputPayload error) w).2.ledger
        tenant runId = L' := by
    rintro w rfl
    rw [hL']
    exact World.ledger_updateRunStatus status outputPayload error
  refine call (fun w hw _ => ?_) fun w e b hw _ => ?_
  · rw [hledger w hw]
    exact hok
  · rw [hledger w hw]
    exact herr e

/-- `run.status = "RUNNING"` on an existing run. -/
theorem setRunning {definition : WorkflowSpec} {Φ : Except PyError Unit → Ledger → Prop}
    {L' : Ledger}
    (hL' : L' = (L.setRun fun r => { r with status := .running }).log
      [.executing runId definition])
    (hok : Φ (.ok ()) L') (herr : ∀ e, Φ (.error e) L ∧ Φ (.error e) L') :
    env.Does tenant runId (perform (.setRunning runId definition)) L Φ := by
  have hledger : ∀ w : World, w.ledger tenant runId = L →
      (env.effect (.setRunning runId definition) w).2.ledger tenant runId = L' := by
    rintro w rfl
    rw [hL']
    refine (World.ledger_log rfl).trans ?_
    exact congrArg (Ledger.log · _) World.ledger_setRunning
  refine call (fun w hw _ => ?_) fun w e b hw _ => ?_
  · rw [hledger w hw]
    exact hok
  · rw [hledger w hw]
    exact herr e

/-- `RunRepository.create` of a run of this tenant. -/
theorem createRun {run : RunRecord} {definition : WorkflowSpec}
    {Φ : Except PyError Unit → Ledger → Prop} (hid : run.id = runId) (ht : run.tenantId = tenant)
    (hok : Φ (.ok ()) ({ L with run := some run }.log [.executing runId definition]))
    (herr : ∀ e, Φ (.error e) L ∧
      Φ (.error e) ({ L with run := some run }.log [.executing runId definition])) :
    env.Does tenant runId (perform (.createRun run definition)) L Φ := by
  have hledger : ∀ w : World, w.ledger tenant runId = L →
      (∃ e, env.effect (.createRun run definition) w = (.error e, w)) ∨
      ((env.effect (.createRun run definition) w).1 = .ok () ∧
        (env.effect (.createRun run definition) w).2.ledger tenant runId =
          { L with run := some run }.log [.executing runId definition]) := by
    rintro w rfl
    exact env.ledger_createRun hid ht
  refine call (fun w hw _ => ?_) fun w e b hw _ => ?_
  · rcases hledger w hw with ⟨e, he⟩ | ⟨hres, hL⟩
    · rw [he, hw]
      exact (herr e).1
    · rw [hres, hL]
      exact hok
  · rcases hledger w hw with ⟨e', he⟩ | ⟨hres, hL⟩
    · rw [he, hw]
      exact ⟨(herr e).1, (herr e).1⟩
    · rw [hL]
      exact herr e

/-- The approval of a step of the run. -/
theorem approveStep {s : RunStepRecord} (hs : s ∈ L.steps) {outputSnapshot : Json}
    {Φ : Except PyError Unit → Ledger → Prop} {L' : Ledger}
    (hL' : L' = (L.amend s.id fun s => { s with
      status := .success, durationMs := ⟨.finite 1, "1.0"⟩, outputSnapshot, error := none }).log
        [.approved runId s.nodeId])
    (hok : Φ (.ok ()) L') (herr : ∀ e, Φ (.error e) L ∧ Φ (.error e) L') :
    env.Does tenant runId (perform (.approveStep tenant s.id outputSnapshot)) L Φ := by
  have hledger : ∀ w : World, w.ledger tenant runId = L →
      (env.effect (.approveStep tenant s.id outputSnapshot) w).2.ledger tenant runId = L' := by
    rintro w rfl
    rw [hL']
    exact env.ledger_approveStep hs outputSnapshot
  refine call (fun w hw _ => ?_) fun w e b hw _ => ?_
  · rw [hledger w hw]
    exact hok
  · rw [hledger w hw]
    exact herr e

end Does

end Env

end FlowMesh
