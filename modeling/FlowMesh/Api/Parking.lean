import FlowMesh.Api.Rejection
import FlowMesh.Engine.Session

/-!
# Parked runs

A run is parked by two statements, one that stores the gate's step and one that stores the run's
status, and it goes on by two statements, one that stores the decision and one that stores the run
as `RUNNING` or `REJECTED`. Between the two of a pair the run and its steps disagree.

A run whose statements come in pairs is `Ordered`: if it waits, exactly one of its steps does, the
last one, and the next decision is recorded there (`decides_at_gate`). `Undivided` says which calls
keep the pairs together; `agrees_of_visits` is about all sequences of such calls.
-/

namespace FlowMesh

open Python Database Async

/-! ## Parked ledgers -/

namespace Ledger

variable (L : Ledger)

/-- The run is `WAITING_APPROVAL`. -/
def Waits : Prop := ∃ run, L.run = some run ∧ run.status = .waitingApproval

instance : Decidable L.Waits :=
  decidable_of_iff (L.run.any fun run => run.status = .waitingApproval) <| by
    cases hrun : L.run <;> simp [Waits, hrun]

/-- The steps that are `WAITING_APPROVAL`. -/
def pending : List RunStepRecord := L.steps.filter (·.status = .waitingApproval)

/-- The run waits exactly if exactly one of its steps does. -/
def Agrees : Prop := L.Waits ↔ L.pending.length = 1

instance : Decidable L.Agrees := inferInstanceAs (Decidable (_ ↔ _))

/-- The run is stored and does not wait, and no step waits. -/
structure Going : Prop where
  run : ∃ run, L.run = some run ∧ run.status ≠ .waitingApproval
  pending : L.pending = []

/-- The run waits, but the step that was parked is decided. -/
structure Decided : Prop where
  run : L.Waits
  pending : L.pending = []

/-- A waiting run has one waiting step, the last one, and no other run has one. -/
inductive Ordered : Prop
  | idle (hrun : ¬ L.Waits) (hpending : L.pending = [])
  | parked {init : List RunStepRecord} {s : RunStepRecord} (hrun : L.Waits)
      (hsteps : L.steps = init ++ [s]) (hinit : ∀ s' ∈ init, s'.status ≠ .waitingApproval)
      (hs : s.status = .waitingApproval)

variable {L}

theorem pending_eq_nil {rows : List RunStepRecord} :
    rows.filter (·.status = .waitingApproval) = [] ↔ ∀ s ∈ rows, s.status ≠ .waitingApproval := by
  simp [List.filter_eq_nil_iff]

theorem Going.not_waits (h : L.Going) : ¬ L.Waits := by
  rintro ⟨run, hrun, hstatus⟩
  obtain ⟨run', hrun', hstatus'⟩ := h.run
  rw [hrun] at hrun'
  exact hstatus' (Option.some.inj hrun' ▸ hstatus)

theorem Going.ordered (h : L.Going) : L.Ordered := .idle h.not_waits h.pending

theorem Ordered.agrees (h : L.Ordered) : L.Agrees := by
  cases h with
  | idle hrun hpending => simp [Agrees, hrun, hpending]
  | @parked init s hrun hsteps hinit hs =>
    have hpending : L.pending = [s] := by
      rw [pending, hsteps, List.filter_append, pending_eq_nil.2 hinit]
      simp [hs]
    simp [Agrees, hrun, hpending]

theorem Decided.disagrees (h : L.Decided) : ¬ L.Agrees := by
  simp [Agrees, h.run, h.pending]

end Ledger

theorem World.keyed_ledger (w : World) (tenant runId : String) : (w.ledger tenant runId).Keyed := by
  apply List.Nodup.sublist (List.filter_sublist.map _)
  exact w.steps.unique

/-! ## Calls that belong together -/

/-- The first statement of a parking or of a decision. -/
def Op.Opens : Op → Prop
  | .recordStep _ _ _ status _ => status = .waitingApproval
  | .updateStep _ _ status _ _ _ => status = .rejected
  | .approveStep .. => True
  | _ => False

/-- The second statement of a parking or of a decision. -/
def Op.Completes : Op → Prop
  | .setRunning .. => True
  | .updateRunStatus .. => True
  | _ => False

/-- The call does not part the run from its steps. -/
structure Undivided (tenant runId : String) (env : Env) (o : Op) (w : World) : Prop where
  /-- A first statement raises only before it takes effect. -/
  opens : (w.ledger tenant runId).Agrees → o.Opens → ∀ e, env.faultOf o w ≠ some (e, true)
  /-- Between the two, only the second statement raises, and only after it took effect. -/
  completes : ¬ (w.ledger tenant runId).Agrees → ∀ e took, env.faultOf o w = some (e, took) →
    o.Completes ∧ took = true
  /-- An approval takes effect only if there is a definition to go on with. -/
  approves : ∀ stepId snapshot, o = .approveStep tenant stepId snapshot →
    (∃ e, env.faultOf o w = some (e, false)) ∨
      ∀ run, w.run? tenant runId = some run → ∃ d, w.Pins tenant run d
  /-- The run is not set to `RUNNING` while a step of it waits. -/
  restarts : ∀ definition, o = .setRunning runId definition →
    (∃ e, env.faultOf o w = some (e, false)) ∨ (w.ledger tenant runId).pending = []

section Calls

variable {env : Env} {tenant runId : String} {w : World}

/-- Run alone with undivided calls, the program ends in `Φ`. -/
abbrev Undividedly {α : Type} (tenant runId : String) (env : Env) (p : M α)
    (Φ : Except PyError α → World → Prop) (w : World) : Prop :=
  p.Yields env.handle (Undivided tenant runId env) Φ w

/-- A call takes effect, raises before it does, or raises after it did. -/
theorem undividedly_call {o : Op} {Φ : Except PyError o.Res → World → Prop}
    (hok : Undivided tenant runId env o w → env.faultOf o w = none →
      Φ (env.effect o w).1 { (env.effect o w).2 with tick := w.tick + 1 })
    (hbefore : Undivided tenant runId env o w → ∀ e, env.faultOf o w = some (e, false) →
      Φ (.error e) { w with tick := w.tick + 1 })
    (hafter : Undivided tenant runId env o w → ∀ e, env.faultOf o w = some (e, true) →
      Φ (.error e) { (env.effect o w).2 with tick := w.tick + 1 }) :
    Undividedly tenant runId env (perform o) Φ w := by
  apply Prog.Yields.perform
  intro h
  unfold Env.handle
  cases hf : env.faultOf o w with
  | none => exact hok h hf
  | some fault =>
    obtain ⟨e, took⟩ := fault
    cases took with
    | false => exact hbefore h e hf
    | true => exact hafter h e hf

/-- A call that touches no ledger. -/
theorem undividedly_quiet {o : Op} {Φ : Except PyError o.Res → World → Prop} (ho : o.Quiet)
    (hΦ : ∀ r w', w'.ledger tenant runId = w.ledger tenant runId → Φ r w') :
    Undividedly tenant runId env (perform o) Φ w :=
  Prog.Yields.of_run (by
    rw [Prog.run_perform]
    exact hΦ _ _ (env.handle_quiet tenant runId ho w))

/-- A call that touches no ledger does not raise while the run and its steps disagree. -/
theorem undividedly_between {o : Op} {Φ : Except PyError o.Res → World → Prop}
    (hL : ¬ (w.ledger tenant runId).Agrees) (ho : ¬ o.Completes)
    (hok : Φ (env.effect o w).1 { (env.effect o w).2 with tick := w.tick + 1 }) :
    Undividedly tenant runId env (perform o) Φ w :=
  undividedly_call (fun _ _ => hok) (fun h e hf => absurd (h.completes hL e _ hf).1 ho)
    fun h e hf => absurd (h.completes hL e _ hf).1 ho

theorem ordered_bind {α β : Type} {p : M α} {f : α → M β}
    (hp : Undividedly tenant runId env p (fun _ w' => (w'.ledger tenant runId).Ordered) w)
    (hf : ∀ x w', (w'.ledger tenant runId).Ordered →
      Undividedly tenant runId env (f x) (fun _ w' => (w'.ledger tenant runId).Ordered) w') :
    Undividedly tenant runId env (p >>= f) (fun _ w' => (w'.ledger tenant runId).Ordered) w :=
  Prog.Yields.bind hp hf fun _ _ h => h

theorem ordered_ret {α : Type} {x : α} (hw : (w.ledger tenant runId).Ordered) :
    Undividedly tenant runId env (pure x : M α) (fun _ w' => (w'.ledger tenant runId).Ordered) w :=
  Prog.Yields.ret hw

theorem ordered_quiet {o : Op} (ho : o.Quiet) (hw : (w.ledger tenant runId).Ordered) :
    Undividedly tenant runId env (perform o) (fun _ w' => (w'.ledger tenant runId).Ordered) w :=
  undividedly_quiet ho fun _ _ hL => hL ▸ hw

end Calls

/-! ## Executions -/

section Execute

variable {env : Env} {tenant runId : String} {w : World}

theorem Ledger.Going.log {L : Ledger} (h : L.Going) (es : List Event) : (L.log es).Going :=
  ⟨h.run, h.pending⟩

theorem Ledger.Going.add {L : Ledger} (h : L.Going) {row : RunStepRecord}
    (hrow : row.status ≠ .waitingApproval) : (L.add row).Going := by
  refine ⟨h.run, pending_eq_nil.2 fun s hs => ?_⟩
  rcases List.mem_append.1 hs with hs | hs
  · exact pending_eq_nil.1 h.pending s hs
  · rwa [List.mem_singleton.1 hs]

theorem Ledger.Going.setRun {L : Ledger} (h : L.Going) {f : RunRecord → RunRecord}
    (hf : ∀ run, (f run).status ≠ .waitingApproval) : (L.setRun f).Going := by
  obtain ⟨run, hrun, -⟩ := h.run
  exact ⟨⟨f run, by simp [Ledger.setRun, hrun], hf run⟩, h.pending⟩

/-- A step that starts to wait parts the run from its steps, until the run waits as well. -/
theorem Ledger.Going.park {L : Ledger} (h : L.Going) {row : RunStepRecord}
    (hrow : row.status = .waitingApproval) : ¬ (L.add row).Agrees ∧
      ∀ f : RunRecord → RunRecord, (∀ run, (f run).status = .waitingApproval) →
        ((L.add row).setRun f).Ordered := by
  have hinit : ∀ s ∈ L.steps, s.status ≠ .waitingApproval := pending_eq_nil.1 h.pending
  constructor
  · have hpending : (L.add row).pending.length = 1 := by
      rw [Ledger.pending, Ledger.add_steps, List.filter_append, pending_eq_nil.2 hinit]
      simp [hrow]
    intro hagrees
    exact h.not_waits (hagrees.2 hpending)
  · intro f hf
    obtain ⟨run, hrun, -⟩ := h.run
    have hwaits : ((L.add row).setRun f).Waits := ⟨f run, by simp [Ledger.setRun, hrun], hf run⟩
    exact .parked hwaits rfl hinit hrow

theorem Executes.going {node : WorkflowNode} {context : Context} {L L' : Ledger}
    {r : Except PyError StepResult} (h : Executes env tenant runId node context L r L')
    (hL : L.Going) : L'.Going := by
  cases h with
  | unrecorded e => exact hL
  | succeeded hnew hof hstatus =>
    apply (hL.add _).log
    rw [hstatus]
    simp
  | stopped hnew hof hr hwait => exact (hL.add hwait).log _

/-- Parking at a gate. -/
theorem park_ordered {node : WorkflowNode} {context : Context}
    (hw : (w.ledger tenant runId).Going) :
    Undividedly tenant runId env (park env.toEvaluator tenant runId node context)
      (fun _ w' => (w'.ledger tenant runId).Ordered) w := by
  unfold park
  have hrecord : (w.recordStep tenant runId node .waitingApproval
      (resolveConfig env.unicode node context)).ledger tenant runId = _ :=
    World.ledger_recordStep node .waitingApproval (resolveConfig env.unicode node context)
  refine Prog.Yields.bind (Ψ := fun r w' => match r with
    | .ok _ => ∃ row : RunStepRecord, row.status = .waitingApproval ∧
        w'.ledger tenant runId = (w.ledger tenant runId).add row
    | .error _ => (w'.ledger tenant runId).Ordered) ?_ ?_ fun _ _ h => h
  · refine undividedly_call (fun _ _ => ⟨_, rfl, hrecord⟩) (fun _ _ _ => hw.ordered) ?_
    intro h e hf
    exact absurd hf (h.opens hw.ordered.agrees rfl e)
  · rintro _ w₁ ⟨row, hrow, hL⟩
    obtain ⟨hparted, hparked⟩ := hw.park hrow
    rw [← hL] at hparted hparked
    have hwait : ((w₁.updateRunStatus tenant runId .waitingApproval .null none).ledger tenant
        runId).Ordered := by
      rw [World.ledger_updateRunStatus]
      exact hparked _ fun _ => rfl
    refine undividedly_call (fun _ _ => hwait) ?_ fun _ _ _ => hwait
    intro h e hf
    exact absurd (h.completes hparted e _ hf).2 (by simp)

/-- The traversal runs, and may park the run at its end. -/
theorem traverse_ordered {run : RunRecord} (hid : run.id = runId) (d : WorkflowDefinition)
    (completed : List String) (fuel : ℕ) (t : Traversal)
    (hw : (w.ledger tenant runId).Going) :
    Undividedly tenant runId env (traverse env.toEvaluator tenant run d completed fuel t)
      (fun r w' => (w'.ledger tenant runId).Ordered ∧
        ∀ o, r = .ok o → o ≠ .parked → (w'.ledger tenant runId).Going) w := by
  have hdone : ∀ o : Outcome, (w.ledger tenant runId).Ordered ∧
      ∀ o', Except.ok (ε := PyError) o = .ok o' → o' ≠ .parked → (w.ledger tenant runId).Going :=
    fun _ => ⟨hw.ordered, fun _ _ _ => hw⟩
  induction fuel generalizing t w with
  | zero => exact Prog.Yields.ret (hdone _)
  | succ fuel ih =>
    unfold traverse
    split
    · exact Prog.Yields.ret (hdone _)
    split
    · exact ih _ hw hdone
    split
    · exact ih _ hw hdone
    split
    · exact ih _ hw hdone
    split
    · rw [hid]
      refine Prog.Yields.bind (park_ordered hw) (fun _ w₁ h => ?_) fun e w₁ h =>
        ⟨h, fun o ho => by cases ho⟩
      refine Prog.Yields.ret ⟨h, ?_⟩
      rintro _ ⟨⟩ hne
      exact absurd rfl hne
    · rw [hid]
      refine Prog.Yields.bind (Ψ := fun _ w₁ => (w₁.ledger tenant runId).Going) ?_ ?_ ?_
      · exact Prog.Yields.of_run (((executeNode_does run.workflowId).run rfl).going hw)
      · intro res w₁ hw₁
        cases res with
        | failure error => exact Prog.Yields.ret ⟨hw₁.ordered, fun _ _ _ => hw₁⟩
        | success output durationMs => exact ih _ hw₁ fun _ => ⟨hw₁.ordered, fun _ _ _ => hw₁⟩
      · exact fun e w₁ hw₁ => ⟨hw₁.ordered, fun o ho => by cases ho⟩

theorem Ends.ordered {L L' : Ledger} {o : Outcome} {r : Except PyError RunRecord}
    (h : Ends L (.ok o) r L') (hL : L.Ordered) (hgoing : o ≠ .parked → L.Going) :
    L'.Ordered := by
  cases h with
  | unstored => exact hL
  | closed =>
    cases o with
    | parked => exact hL
    | finished lastOutput => exact ((hgoing (by simp)).setRun (by simp)).ordered
    | failed error => exact ((hgoing (by simp)).setRun (by simp)).ordered

/-- The part of `execute` behind the start. -/
theorem resume_ordered {a : ExecuteArgs} {traceId : String} {run : RunRecord}
    {steps : List RunStepRecord} (hid : run.id = runId) (hw : (w.ledger tenant runId).Going) :
    Undividedly tenant runId env (resume env.toEvaluator tenant a traceId run steps)
      (fun _ w' => (w'.ledger tenant runId).Ordered) w := by
  unfold resume
  refine Prog.Yields.bind (traverse_ordered hid _ _ _ _ hw) ?_ fun _ _ h => h.1
  rintro o w₁ ⟨hordered, hgoing⟩
  apply Prog.Yields.of_run
  subst hid
  exact ((finish_does run a.wfId o).run rfl).ordered hordered (hgoing o rfl)

/-- The start of a run that is not stored yet. -/
theorem createRun_going {run : RunRecord} {definition : WorkflowSpec} (hid : run.id = runId)
    (htenant : run.tenantId = tenant) (hstatus : run.status ≠ .waitingApproval)
    (hw : (w.ledger tenant runId).Ordered) (hpending : (w.ledger tenant runId).pending = []) :
    Undividedly tenant runId env (perform (.createRun run definition)) (fun r w' => match r with
      | .ok _ => (w'.ledger tenant runId).Going
      | .error _ => (w'.ledger tenant runId).Ordered) w := by
  have hgoing : ({ w.ledger tenant runId with run := some run }.log
      [.executing runId definition]).Going := ⟨⟨run, rfl, hstatus⟩, hpending⟩
  rcases env.ledger_createRun hid htenant with ⟨e, heffect⟩ | ⟨hres, hL⟩
  · refine undividedly_call (fun _ _ => ?_) (fun _ _ _ => hw) fun _ _ _ => ?_
    · rw [heffect]
      exact hw
    · rw [heffect]
      exact hw
  · refine undividedly_call (fun _ _ => ?_) (fun _ _ _ => hw) fun _ _ _ => ?_
    · rw [hres]
      rw [← hL] at hgoing
      exact hgoing
    · rw [← hL] at hgoing
      exact hgoing.ordered

/-- The start of a run that is stored: `run.status = "RUNNING"`. -/
theorem setRunning_going {definition : WorkflowSpec} {run : RunRecord}
    (hrun : w.run? tenant runId = some run)
    (hw : (w.ledger tenant runId).Ordered ∨ (w.ledger tenant runId).Decided) :
    Undividedly tenant runId env (perform (.setRunning runId definition)) (fun r w' => match r with
      | .ok _ => (w'.ledger tenant runId).Going
      | .error _ => (w'.ledger tenant runId).Ordered) w := by
  have hgoing : (w.ledger tenant runId).pending = [] →
      ((env.effect (.setRunning runId definition) w).2.ledger tenant runId).Going := by
    intro hpending
    have hL : (env.effect (.setRunning runId definition) w).2.ledger tenant runId = _ :=
      World.ledger_log rfl
    rw [hL, World.ledger_setRunning]
    refine ⟨⟨{ run with status := .running }, ?_, by simp⟩, hpending⟩
    simp [Ledger.setRun, World.ledger, hrun]
  -- while a step waits, the statement raises before it takes effect
  have hnone : Undivided tenant runId env (.setRunning runId definition) w →
      (∀ e, env.faultOf (.setRunning runId definition) w ≠ some (e, false)) →
        (w.ledger tenant runId).pending = [] := by
    intro h hfault
    rcases h.restarts definition rfl with ⟨e, he⟩ | hpending
    · exact absurd he (hfault e)
    · exact hpending
  refine undividedly_call (fun h hf => ?_) (fun h e hf => ?_) fun h e hf => ?_
  · exact hgoing (hnone h (by simp [hf]))
  · rcases hw with hordered | hdecided
    · exact hordered
    · exact absurd (h.completes hdecided.disagrees e _ hf).2 (by simp)
  · exact (hgoing (hnone h (by simp [hf]))).ordered

/-- `execute` on a run that is ordered, or whose gate was just approved. -/
theorem executeTraced_ordered {a : ExecuteArgs} (hid : a.runId = runId) (traceId : String)
    (hw : (w.ledger tenant runId).Ordered ∨ (w.ledger tenant runId).Decided) :
    Undividedly tenant runId env (executeTraced env.toEvaluator tenant a traceId)
      (fun _ w' => (w'.ledger tenant runId).Ordered) w := by
  subst hid
  unfold executeTraced
  refine Prog.Yields.bind (Ψ := fun r w' => match r with
    | .ok x => w'.ledger tenant a.runId = w.ledger tenant a.runId ∧
        x.map (·.1) = w.run? tenant a.runId
    | .error _ => (w'.ledger tenant a.runId).Ordered) ?_ ?_ fun _ _ h => h
  · have hok : (w.ledger tenant a.runId) = w.ledger tenant a.runId ∧
        ((w.run? tenant a.runId).map fun run => (run, w.stepsOf tenant a.runId)).map (·.1) =
          w.run? tenant a.runId := ⟨rfl, by rw [Option.map_map]; exact Option.map_id' ..⟩
    rcases hw with hordered | hdecided
    · exact undividedly_call (fun _ _ => hok) (fun _ _ _ => hordered) fun _ _ _ => hordered
    · exact undividedly_between hdecided.disagrees (fun h => h) hok
  · rintro x w₁ ⟨hL, hx⟩
    rw [← hL] at hw
    have hrun₁ : w₁.run? tenant a.runId = x.map (·.1) :=
      (congrArg Ledger.run hL).trans hx.symm
    cases x with
    | none =>
      have hordered : (w₁.ledger tenant a.runId).Ordered := by
        refine hw.resolve_right fun hdecided => ?_
        obtain ⟨run, hrun, -⟩ := hdecided.run
        exact absurd (hrun₁.symm.trans hrun) (by simp)
      have hpending : (w₁.ledger tenant a.runId).pending = [] := by
        cases hordered with
        | idle _ hpending => exact hpending
        | parked hwaits =>
          obtain ⟨run, hrun, -⟩ := hwaits
          exact absurd (hrun₁.symm.trans hrun) (by simp)
      refine Prog.Yields.bind (createRun_going rfl rfl (by simp [ExecuteArgs.newRun]) hordered
        hpending) (fun _ w₂ hw₂ => ?_) fun _ _ h => h
      exact resume_ordered rfl hw₂
    | some found =>
      obtain ⟨run, steps⟩ := found
      have hid : run.id = a.runId := (World.run?_eq_some.1 hrun₁).2.1
      dsimp only
      rw [hid]
      refine Prog.Yields.bind (setRunning_going hrun₁ hw) (fun _ w₂ hw₂ => ?_) fun _ _ h => h
      exact resume_ordered rfl hw₂

theorem execute_ordered {a : ExecuteArgs} (hid : a.runId = runId)
    (hw : (w.ledger tenant runId).Ordered ∨ (w.ledger tenant runId).Decided) :
    Undividedly tenant runId env (execute env.toEvaluator tenant a)
      (fun _ w' => (w'.ledger tenant runId).Ordered) w := by
  unfold execute
  split
  · exact executeTraced_ordered hid _ hw
  · refine Prog.Yields.bind (Ψ := fun r w' => match r with
      | .ok _ => w'.ledger tenant runId = w.ledger tenant runId
      | .error _ => (w'.ledger tenant runId).Ordered) ?_ ?_ fun _ _ h => h
    · rcases hw with hordered | hdecided
      · exact undividedly_call (fun _ _ => rfl) (fun _ _ _ => hordered) fun _ _ _ => hordered
      · exact undividedly_between hdecided.disagrees (fun h => h) rfl
    · intro traceId w₁ hL
      rw [← hL] at hw
      exact executeTraced_ordered hid traceId hw

end Execute

/-! ## Decisions -/

/-- What a decision makes of the step that it is recorded on. -/
def ApprovalArgs.decision (a : ApprovalArgs) (s : RunStepRecord) : RunStepRecord :=
  if a.approved then
    { s with
      status := .success, durationMs := ⟨.finite 1, "1.0"⟩, outputSnapshot := a.snapshot,
      error := none }
  else
    { s with
      status := .rejected, durationMs := ⟨.finite 0, "0.0"⟩, outputSnapshot := a.snapshot,
      error := some a.errMsg }

section Decide

variable {env : Env} {tenant runId : String} {w : World} {init : List RunStepRecord}
  {s : RunStepRecord}

/-- The look-up finds the definition that the registry has for the run. -/
theorem lookupDefinition_found {run : RunRecord} (hw : (w.ledger tenant runId).Decided)
    (hpins : ∃ d, w.Pins tenant run d) :
    Undividedly tenant runId env (lookupDefinition tenant run.workflowId run.workflowVersion)
      (fun r w' => w'.ledger tenant runId = w.ledger tenant runId ∧ ∃ d, r = .ok d) w := by
  obtain ⟨d, hd⟩ := hpins
  unfold World.Pins Registry.definitionFor at hd
  have hparse : ∀ spec w', spec = d.toWorkflowSpec →
      w'.ledger tenant runId = w.ledger tenant runId →
      Undividedly tenant runId env (parseDefinition spec)
        (fun r w' => w'.ledger tenant runId = w.ledger tenant runId ∧ ∃ d, r = .ok d) w' := by
    rintro _ w' rfl hL
    rw [parseDefinition_spec]
    exact Prog.Yields.ret ⟨hL, d, rfl⟩
  unfold lookupDefinition
  refine Prog.Yields.bind (Ψ := fun r w' => w'.ledger tenant runId = w.ledger tenant runId ∧
    w'.registry = w.registry ∧
    r = .ok (w.registry.getByVersion tenant run.workflowId run.workflowVersion))
    (undividedly_between hw.disagrees (fun h => h) ⟨rfl, rfl, rfl⟩) ?_ (by rintro _ _ ⟨-, -, ⟨⟩⟩)
  rintro _ w₁ ⟨hL₁, hreg, ⟨⟩⟩
  cases hver : w.registry.getByVersion tenant run.workflowId run.workflowVersion with
  | some verRecord =>
    rw [hver] at hd
    exact hparse _ w₁ (Option.some.inj hd) hL₁
  | none =>
    rw [hver] at hd
    have hw₁ : (w₁.ledger tenant runId).Decided := hL₁ ▸ hw
    refine Prog.Yields.bind (Ψ := fun r w' => w'.ledger tenant runId = w.ledger tenant runId ∧
      r = .ok (w₁.registry.getById tenant run.workflowId))
      (undividedly_between hw₁.disagrees (fun h => h) ⟨hL₁, rfl⟩) ?_ (by rintro _ _ ⟨-, ⟨⟩⟩)
    rintro _ w₂ ⟨hL₂, ⟨⟩⟩
    rw [hreg]
    cases hwf : w.registry.getById tenant run.workflowId with
    | some wf =>
      rw [hwf] at hd
      exact hparse _ w₂ (Option.some.inj hd) hL₂
    | none =>
      rw [hwf] at hd
      cases hd

/-- Deciding the last step of an ordered run that waits leaves no step waiting. -/
theorem decided_amend {L L' : Ledger} (hrun : L.Waits) (hkeyed : L.Keyed)
    (hsteps : L.steps = init ++ [s]) (hinit : ∀ s' ∈ init, s'.status ≠ .waitingApproval)
    {f : RunStepRecord → RunStepRecord} (hf : (f s).status ≠ .waitingApproval)
    (hL' : L'.run = L.run ∧ L'.steps = (L.amend s.id f).steps) : L'.Decided := by
  refine ⟨?_, Ledger.pending_eq_nil.2 ?_⟩
  · unfold Ledger.Waits
    rw [hL'.1]
    exact hrun
  · rw [hL'.2, hkeyed.steps_amend hsteps]
    intro s' hs'
    rcases List.mem_append.1 hs' with hs' | hs'
    · exact hinit s' hs'
    · rwa [List.mem_singleton.1 hs']

/-- The approval branch, on an ordered run that waits. -/
theorem approve_ordered {a : ApprovalArgs} {run : RunRecord} (hrun : w.run? tenant runId = some run)
    (hstatus : run.status = .waitingApproval)
    (hsteps : (w.ledger tenant runId).steps = init ++ [s])
    (hinit : ∀ s' ∈ init, s'.status ≠ .waitingApproval) (hs : s.status = .waitingApproval) :
    Undividedly tenant runId env (approve env.toEvaluator tenant run (some s) a)
      (fun _ w' => (w'.ledger tenant runId).Ordered) w := by
  have hwaits : (w.ledger tenant runId).Waits := ⟨run, hrun, hstatus⟩
  have hordered : (w.ledger tenant runId).Ordered := .parked hwaits hsteps hinit hs
  have hmem : s ∈ (w.ledger tenant runId).steps := by simp [hsteps]
  have hpassed := env.ledger_approveStep hmem a.snapshot
  unfold approve
  refine Prog.Yields.bind (Ψ := fun r w' => match r with
    | .ok _ => (w'.ledger tenant runId).Decided ∧ ∃ d, w'.Pins tenant run d
    | .error _ => (w'.ledger tenant runId).Ordered) ?_ ?_ fun _ _ h => h
  · refine undividedly_call (fun h hf => ⟨?_, ?_⟩) (fun _ _ _ => hordered) ?_
    · rw [World.ledger_tick, hpassed]
      exact decided_amend hwaits (w.keyed_ledger tenant runId) hsteps hinit (by simp) ⟨rfl, rfl⟩
    · rcases h.approves s.id a.snapshot rfl with ⟨e, he⟩ | hpins
      · rw [hf] at he
        cases he
      · obtain ⟨d, hd⟩ := hpins run hrun
        have hreg := registry_handle env (o := .approveStep tenant s.id a.snapshot) (by simp) w
        rw [Env.handle, hf] at hreg
        refine ⟨d, ?_⟩
        unfold World.Pins at hd ⊢
        rw [hreg, hd]
    · intro h e hf
      exact absurd hf (h.opens hordered.agrees trivial e)
  · rintro _ w₁ ⟨hw₁, hpins⟩
    refine Prog.Yields.bind (lookupDefinition_found hw₁ hpins) ?_ (by rintro _ _ ⟨-, _, ⟨⟩⟩)
    rintro d w₂ ⟨hL, -⟩
    exact execute_ordered (World.run?_eq_some.1 hrun).2.1 (Or.inr (hL ▸ hw₁))

/-- The rejection branch, on an ordered run that waits. -/
theorem reject_ordered {a : ApprovalArgs} {run : RunRecord} (hrun : w.run? tenant runId = some run)
    (hstatus : run.status = .waitingApproval)
    (hsteps : (w.ledger tenant runId).steps = init ++ [s])
    (hinit : ∀ s' ∈ init, s'.status ≠ .waitingApproval) (hs : s.status = .waitingApproval) :
    Undividedly tenant runId env (reject tenant run (some s) a)
      (fun _ w' => (w'.ledger tenant runId).Ordered) w := by
  have hid : run.id = runId := (World.run?_eq_some.1 hrun).2.1
  have hwaits : (w.ledger tenant runId).Waits := ⟨run, hrun, hstatus⟩
  have hordered : (w.ledger tenant runId).Ordered := .parked hwaits hsteps hinit hs
  unfold reject
  rw [hid]
  refine Prog.Yields.bind (Ψ := fun r w' => match r with
    | .ok _ => (w'.ledger tenant runId).Decided
    | .error _ => (w'.ledger tenant runId).Ordered) ?_ ?_ fun _ _ h => h
  · refine undividedly_call (fun _ _ => ?_) (fun _ _ _ => hordered) ?_
    · have hstored : (env.effect (.updateStep tenant s.id .rejected ⟨.finite 0, "0.0"⟩ a.snapshot
          (some a.errMsg)) w).2.ledger tenant runId = _ := World.ledger_updateStep ..
      rw [World.ledger_tick, hstored]
      exact decided_amend hwaits (w.keyed_ledger tenant runId) hsteps hinit (by simp) ⟨rfl, rfl⟩
    · intro h e hf
      exact absurd hf (h.opens hordered.agrees rfl e)
  · intro _ w₁ hw₁
    obtain ⟨run₁, hrun₁, -⟩ := hw₁.run
    have hrejected : ((w₁.updateRunStatus tenant runId .rejected .null
        (some a.errMsg)).ledger tenant runId).Ordered := by
      rw [World.ledger_updateRunStatus]
      refine Ledger.Going.ordered ⟨⟨_, by rw [Ledger.setRun, hrun₁]; rfl, ?_⟩, hw₁.pending⟩
      simp
    refine ordered_bind ?_ fun _ w₂ hw₂ => ?_
    · refine undividedly_call (fun _ _ => hrejected) ?_ fun _ _ _ => hrejected
      intro h e hf
      exact absurd (h.completes hw₁.disagrees e _ hf).2 (by simp)
    · exact ordered_bind (ordered_quiet trivial hw₂) fun _ _ => ordered_ret

/-- `resume_approval` on an ordered run. -/
theorem resumeApproval_ordered (a : ApprovalArgs) (hw : (w.ledger tenant runId).Ordered) :
    Undividedly tenant runId env (resumeApproval env.toEvaluator tenant runId a)
      (fun _ w' => (w'.ledger tenant runId).Ordered) w := by
  unfold resumeApproval
  refine Prog.Yields.bind (Ψ := fun r w' => w'.ledger tenant runId = w.ledger tenant runId ∧
    ∀ x, r = .ok x → x = (w'.run? tenant runId).map fun run => (run, w'.stepsOf tenant runId))
    ?_ ?_ ?_
  · exact undividedly_call (fun _ _ => ⟨rfl, fun x hx => (Except.ok.inj hx).symm⟩)
      (fun _ _ _ => ⟨rfl, nofun⟩) fun _ _ _ => ⟨rfl, nofun⟩
  · rintro x w₁ ⟨hL, hx⟩
    obtain rfl := hx x rfl
    rw [← hL] at hw
    cases hrun : w₁.run? tenant runId with
    | none => exact Prog.Yields.raise hw
    | some run =>
      simp only [Option.map_some]
      split
      · exact Prog.Yields.raise hw
      next hstatus =>
      cases hw with
      | idle hidle => exact absurd ⟨run, hrun, not_not.1 hstatus⟩ hidle
      | parked hwaits hsteps hinit hs =>
        have hfind : (w₁.stepsOf tenant runId).find? (·.status = .waitingApproval) = some _ :=
          Ledger.waiting_last (L := w₁.ledger tenant runId) hsteps hinit hs
        rw [hfind]
        split
        · exact approve_ordered hrun (not_not.1 hstatus) hsteps hinit hs
        · exact reject_ordered hrun (not_not.1 hstatus) hsteps hinit hs
  · rintro e w₁ ⟨hL, -⟩
    rwa [hL]

/-- A replay of a dead letter of the run, once the item is found. -/
theorem replayItem_ordered {item : DeadLetterRecord}
    (hw : (w.ledger tenant item.runId).Ordered) :
    Undividedly tenant item.runId env (replayItem env.toEvaluator tenant item)
      (fun _ w' => (w'.ledger tenant item.runId).Ordered) w := by
  have hmark : ∀ (itemId : ℕ) (response : ReplayResponse) (w₁ : World),
      (w₁.ledger tenant item.runId).Ordered → Undividedly tenant item.runId env (do
        perform (.markReplayed tenant itemId)
        return response) (fun _ w' => (w'.ledger tenant item.runId).Ordered) w₁ :=
    fun _ _ _ hw₁ => ordered_bind (ordered_quiet trivial hw₁) fun _ _ => ordered_ret
  unfold replayItem
  refine Prog.Yields.bind (Ψ := fun r w' => (w'.ledger tenant item.runId).Ordered ∧
    ∀ x, r = .ok (some x) → x.1.id = item.runId) ?_ ?_ fun _ _ h => h.1
  · refine undividedly_call (fun _ _ => ⟨hw, ?_⟩) (fun _ _ _ => ⟨hw, nofun⟩)
      fun _ _ _ => ⟨hw, nofun⟩
    intro x hx
    obtain ⟨run, hrun, rfl⟩ := Option.map_eq_some_iff.1 (Except.ok.inj hx)
    exact (World.run?_eq_some.1 hrun).2.1
  rintro run? w₁ ⟨hw₁, hid⟩
  refine ordered_bind ?_ fun wf? w₂ hw₂ => ?_
  · unfold replayWorkflow
    refine ordered_bind (ordered_quiet trivial hw₁) fun wf w₂ hw₂ => ?_
    split
    · exact Prog.Yields.ret hw₂
    · exact ordered_bind (ordered_quiet trivial hw₂) fun _ _ => ordered_ret
  · split
    · next _ _ run steps wf =>
      refine ordered_bind ?_ fun wfDef w₃ hw₃ => ?_
      · unfold parseDefinition
        split
        · exact Prog.Yields.ret hw₂
        · exact Prog.Yields.raise hw₂
      · refine ordered_bind (execute_ordered (hid (run, steps) rfl) (Or.inl hw₃))
          fun reRun w₄ hw₄ => ?_
        split
        · exact hmark _ _ _ hw₄
        · exact Prog.Yields.ret hw₄
    · exact hmark _ _ _ hw₂

/-- `replay_dead_letter` for a dead letter of the run. -/
theorem replayDeadLetter_ordered (fallback : ℕ → Option ReplayResponse) {itemId : ℕ}
    (howns : w.Owns tenant runId itemId) (hw : (w.ledger tenant runId).Ordered) :
    Undividedly tenant runId env (replayDeadLetter env.toEvaluator tenant fallback itemId)
      (fun _ w' => (w'.ledger tenant runId).Ordered) w := by
  unfold replayDeadLetter
  refine Prog.Yields.bind (Ψ := fun r w' => (w'.ledger tenant runId).Ordered ∧
    ∀ item, r = .ok (some item) → item.runId = runId) ?_ ?_ fun _ _ h => h.1
  · refine undividedly_call (fun _ _ => ⟨hw, ?_⟩) (fun _ _ _ => ⟨hw, nofun⟩)
      fun _ _ _ => ⟨hw, nofun⟩
    intro item hitem
    obtain ⟨hget, htenant⟩ := Option.filter_eq_some_iff.1 (Except.ok.inj hitem)
    obtain ⟨hmem, hid⟩ := Table.get?_eq_some.1 hget
    exact howns item hmem hid (by simpa using htenant)
  · rintro item? w₁ ⟨hw₁, hof⟩
    cases item? with
    | none =>
      dsimp only
      split
      · exact Prog.Yields.ret hw₁
      · exact Prog.Yields.raise hw₁
    | some item =>
      obtain rfl := hof item rfl
      exact replayItem_ordered hw₁

end Decide

/-! ## Where a decision is recorded -/

/-- The decision is recorded on the gate at which the run is parked: of the steps that were there,
the last one, which waited, carries it, and the others are as before. -/
def Ledger.Records (a : ApprovalArgs) (L L' : Ledger) : Prop :=
  L.Waits ∧ ∃ init s, L.steps = init ++ [s] ∧ s.status = .waitingApproval ∧
    init ++ [a.decision s] <+: L'.steps

/-- A decision on the run goes to the gate at which the run is parked, or nowhere if the call
raises. -/
structure DecidesAtGate (a : ApprovalArgs) (r : Except PyError RunRecord) (L L' : Ledger) :
    Prop where
  only : L.steps <+: L'.steps ∨ L.Records a L'
  done : r.isOk → L.Records a L'

section Records

variable {env : Env} {tenant runId : String} {L : Ledger} {init : List RunStepRecord}
  {s : RunStepRecord} {a : ApprovalArgs}

/-- `execute` leaves the steps that are there alone. -/
theorem Runs.steps_prefix {a : ExecuteArgs} {L' : Ledger} {r : Except PyError RunRecord}
    (h : Runs env tenant a L r L') : L.steps <+: L'.steps := by
  cases h with
  | refused e => exact List.prefix_rfl
  | begun htrace e => exact List.prefix_rfl
  | traversed htrace h hend =>
    obtain ⟨rows, -, hrows, -⟩ := h.extends
    have hL₁ : L.steps <+: _ := hrows ▸ List.prefix_append L.steps rows
    cases hend with
    | raised e => exact hL₁
    | unstored o e => exact hL₁
    | closed o r =>
      cases o with
      | parked => exact hL₁
      | finished lastOutput => exact hL₁
      | failed error => exact hL₁

theorem reject_records (ha : a.approved = false) (hkeyed : L.Keyed) (hsteps : L.steps = init ++ [s])
    {run : RunRecord} (hid : run.id = runId) :
    env.Does tenant runId (reject tenant run (some s) a) L fun r L' =>
      (L'.steps = L.steps ∧ ∃ e, r = .error e) ∨ L'.steps = init ++ [a.decision s] := by
  subst hid
  have hamend : (L.amend s.id fun s => { s with
      status := .rejected, durationMs := ⟨.finite 0, "0.0"⟩, outputSnapshot := a.snapshot,
      error := some a.errMsg }).steps = init ++ [a.decision s] := by
    rw [hkeyed.steps_amend hsteps, ApprovalArgs.decision, ha]
    rfl
  unfold reject
  refine Env.Does.seq (Env.Does.updateStep rfl ?_ fun _ e _ _ => ⟨Or.inl ⟨rfl, e, rfl⟩,
    Or.inr hamend⟩)
  refine Env.Does.seq (Env.Does.updateRunStatus rfl ?_ fun e => ⟨Or.inr hamend, Or.inr hamend⟩)
  exact Env.Does.quiet_seq trivial (fun _ => Or.inr hamend) fun _ => Env.Does.ret (Or.inr hamend)

theorem approve_records (ha : a.approved = true) (hkeyed : L.Keyed) (hsteps : L.steps = init ++ [s])
    {run : RunRecord} (hid : run.id = runId) :
    env.Does tenant runId (approve env.toEvaluator tenant run (some s) a) L fun r L' =>
      (L'.steps = L.steps ∧ ∃ e, r = .error e) ∨ init ++ [a.decision s] <+: L'.steps := by
  have hamend : ((L.amend s.id fun s => { s with
      status := .success, durationMs := ⟨.finite 1, "1.0"⟩, outputSnapshot := a.snapshot,
      error := none }).log [.approved runId s.nodeId]).steps = init ++ [a.decision s] := by
    rw [Ledger.log_steps, hkeyed.steps_amend hsteps, ApprovalArgs.decision, ha]
    rfl
  unfold approve
  refine Env.Does.seq (Env.Does.approveStep (s := s) (by simp [hsteps]) rfl ?_ fun e =>
    ⟨Or.inl ⟨rfl, e, rfl⟩, Or.inr (hamend ▸ List.prefix_rfl)⟩)
  refine Env.Does.bind (lookupDefinition_does run.workflowId run.workflowVersion) ?_ ?_
  · rintro d L₁ rfl
    refine Env.Does.mono (execute_does (run.resumeArgs d) hid) fun r L' h => Or.inr ?_
    have hprefix := h.steps_prefix
    rwa [hamend] at hprefix
  · rintro e L₁ rfl
    exact Or.inr (hamend ▸ List.prefix_rfl)

/-- **Where a decision goes**, in every environment: on an ordered run, to its gate. -/
theorem decides_at_gate (hL : L.Ordered) (hkeyed : L.Keyed) :
    env.Does tenant runId (resumeApproval env.toEvaluator tenant runId a) L
      (fun r L' => DecidesAtGate a r L L') := by
  have hsame : ∀ e, DecidesAtGate a (.error e) L L := fun e =>
    ⟨Or.inl List.prefix_rfl, nofun⟩
  refine Env.Does.assume fun hof => ?_
  unfold resumeApproval
  refine Env.Does.seq (Env.Does.getRun ?_ hsame)
  cases hrun : L.run with
  | none => exact Env.Does.raise (hsame _)
  | some run =>
    have hid : run.id = runId := (hof run hrun).1
    simp only [Option.map_some]
    split
    · exact Env.Does.raise (hsame _)
    next hstatus =>
    cases hL with
    | idle hidle => exact absurd ⟨run, hrun, not_not.1 hstatus⟩ hidle
    | @parked init s hwaits hsteps hinit hs =>
      have hrecords : ∀ {r : Except PyError RunRecord} {L' : Ledger},
          (L'.steps = L.steps ∧ ∃ e, r = .error e) ∨ init ++ [a.decision s] <+: L'.steps →
            DecidesAtGate a r L L' := by
        rintro r L' (⟨hsame, e, rfl⟩ | hprefix)
        · exact ⟨Or.inl (hsame ▸ List.prefix_rfl), nofun⟩
        · have hrec : L.Records a L' := ⟨hwaits, init, s, hsteps, hs, hprefix⟩
          exact ⟨Or.inr hrec, fun _ => hrec⟩
      have hfind : L.steps.find? (·.status = .waitingApproval) = some s :=
        Ledger.waiting_last hsteps hinit hs
      rw [hfind]
      split
      · next ha =>
        exact Env.Does.mono (approve_records ha hkeyed hsteps hid) fun r L' h => hrecords h
      · next ha =>
        refine Env.Does.mono (reject_records (by simpa using ha) hkeyed hsteps hid) fun r L' h => ?_
        refine hrecords (h.imp_right fun hsteps' => ?_)
        exact hsteps' ▸ List.prefix_rfl

end Records

/-! ## Over sequences of calls -/

/-- A call on the run. -/
inductive RunCall
  | execute (a : ExecuteArgs)
  | replayDeadLetter (fallback : ℕ → Option ReplayResponse) (itemId : ℕ)
  | resumeApproval (a : ApprovalArgs)

section Visits

variable (tenant runId : String)

/-- The program of a call. -/
def RunCall.prog (ev : Evaluator) : RunCall → M Unit
  | .execute a => do
    let _ ← FlowMesh.execute ev tenant { a with runId }
  | .replayDeadLetter fallback itemId => do
    let _ ← FlowMesh.replayDeadLetter ev tenant fallback itemId
  | .resumeApproval a => do
    let _ ← FlowMesh.resumeApproval ev tenant runId a

/-- A replay is about a dead letter of the run. -/
def RunCall.About (w : World) : RunCall → Prop
  | .replayDeadLetter _ itemId => w.Owns tenant runId itemId
  | _ => True

/-- A call on the run in an environment of its own, in which all its awaited calls satisfy `P`, or
something that leaves the run alone. -/
inductive Visits (P : Env → Op → World → Prop) : World → World → Prop
  | call {w : World} (env : Env) (c : RunCall) (habout : c.About tenant runId w)
      (halong : (c.prog tenant runId env.toEvaluator).Along env.handle (P env) w) :
      Visits P w ((c.prog tenant runId env.toEvaluator).run env.handle w).2
  | elsewhere {w w' : World} (h : w'.ledger tenant runId = w.ledger tenant runId) : Visits P w w'

end Visits

section

variable {tenant runId : String} {w w' : World}

/-- A call keeps an ordered run ordered. -/
theorem Visits.ordered (h : Visits tenant runId (Undivided tenant runId) w w')
    (hw : (w.ledger tenant runId).Ordered) : (w'.ledger tenant runId).Ordered := by
  cases h with
  | elsewhere hL => rwa [hL]
  | call env c habout halong =>
    cases c with
    | execute a =>
      exact ordered_bind (execute_ordered rfl (Or.inl hw)) (fun _ _ => ordered_ret) halong
    | replayDeadLetter fallback itemId =>
      exact ordered_bind (replayDeadLetter_ordered fallback habout hw)
        (fun _ _ => ordered_ret) halong
    | resumeApproval a =>
      exact ordered_bind (resumeApproval_ordered a hw) (fun _ _ => ordered_ret) halong

/-- **The run and its steps agree**: after every sequence of calls whose awaited calls keep the
run and its steps together, the run waits exactly if exactly one of its steps does, and whatever
decides the run next records the decision at the gate at which the run is parked. -/
theorem agrees_of_visits {w₀ : World} (h₀ : w₀.Fresh tenant runId)
    (hrun : Relation.ReflTransGen (Visits tenant runId (Undivided tenant runId)) w₀ w) :
    (w.ledger tenant runId).Agrees ∧ ∀ (env : Env) (a : ApprovalArgs),
      DecidesAtGate a
        ((resumeApproval env.toEvaluator tenant runId a).run env.handle w).1
        (w.ledger tenant runId)
        (((resumeApproval env.toEvaluator tenant runId a).run env.handle w).2.ledger tenant
          runId) := by
  have hordered : (w.ledger tenant runId).Ordered := by
    induction hrun with
    | refl =>
      rw [h₀]
      exact .idle (by rintro ⟨run, ⟨⟩, -⟩) rfl
    | tail _ hstep ih => exact hstep.ordered ih
  refine ⟨hordered.agrees, fun env a => ?_⟩
  exact (decides_at_gate hordered (w.keyed_ledger tenant runId)).run rfl

end

/-! ### Two visits -/

/-- What `Undivided` asks for when no call raises. -/
def orderly (tenant runId : String) (o : Op) (w : World) : Bool :=
  match o with
  | .approveStep .. => (w.run? tenant runId).all fun run =>
      (w.registry.definitionFor tenant run.workflowId run.workflowVersion).any (·.Accepted)
  | .setRunning .. => (w.ledger tenant runId).pending.isEmpty
  | _ => true

theorem undivided_of_orderly {tenant runId : String} {env : Env} {o : Op} {w : World}
    (henv : ∀ o w, env.faultOf o w = none) (h : orderly tenant runId o w = true) :
    Undivided tenant runId env o w where
  opens _ _ e := by simp [henv]
  completes _ e took hf := by simp [henv] at hf
  approves := by
    rintro stepId snapshot rfl
    refine Or.inr fun run hrun => ?_
    simp only [orderly, hrun, Option.all_some, Option.any_eq_true, decide_eq_true_eq] at h
    obtain ⟨d, hd, haccepted⟩ := h
    exact ⟨⟨d, haccepted⟩, hd⟩
  restarts := by
    rintro definition rfl
    exact Or.inr (List.isEmpty_iff.1 h)

/-- The payout run is parked and approved, and agrees with its steps. -/
theorem agrees_of_visits_payout : (payoutApproved.ledger "acme" "RUN-1").Agrees := by
  have henv : ∀ o w, (Env.steady fun _ => .ok .null).faultOf o w = none := by
    intro o w
    cases o <;> rfl
  have hstart : Visits "acme" "RUN-1" (Undivided "acme" "RUN-1") payoutWorld payoutParked := by
    refine .call (Env.steady fun _ => .ok .null) (.execute
      { definition := payoutWorkflow, runId := "RUN-1", inputPayload := .null }) trivial ?_
    refine Prog.Along.mono (P := fun o w => orderly "acme" "RUN-1" o w = true) ?_
      fun _ _ => undivided_of_orderly henv
    decide +kernel
  have hresume : Visits "acme" "RUN-1" (Undivided "acme" "RUN-1") payoutParked payoutApproved := by
    refine .call (Env.steady fun _ => .ok .null) (.resumeApproval
      { approved := true, approverEmail := "ops", comment := none, decidedAt := "" }) trivial ?_
    refine Prog.Along.mono (P := fun o w => orderly "acme" "RUN-1" o w = true) ?_
      fun _ _ => undivided_of_orderly henv
    decide +kernel
  exact (agrees_of_visits payout_fresh ((Relation.ReflTransGen.single hstart).tail hresume)).1

/-- The payout run is executed again while it is parked. -/
def payoutParkedTwice : World :=
  ((execute (Env.steady fun _ => .ok .null).toEvaluator "acme"
    { definition := payoutWorkflow, runId := "RUN-1", inputPayload := .null }).run
      (Env.steady fun _ => .ok .null).handle payoutParked).2

/-- Then two steps wait, and the decision on the second gate would go to the first. -/
theorem not_agrees_parked_twice : ¬ ∀ w₀ w : World, w₀.Fresh "acme" "RUN-1" →
    Relation.ReflTransGen (Visits "acme" "RUN-1" fun _ _ _ => True) w₀ w →
      (w.ledger "acme" "RUN-1").Agrees := by
  intro hall
  have hstart : Visits "acme" "RUN-1" (fun _ _ _ => True) payoutWorld payoutParked :=
    .call (Env.steady fun _ => .ok .null) (.execute
      { definition := payoutWorkflow, runId := "RUN-1", inputPayload := .null }) trivial
      (Prog.Along.all (fun _ _ => trivial) _ _)
  have hagain : Visits "acme" "RUN-1" (fun _ _ _ => True) payoutParked payoutParkedTwice :=
    .call (Env.steady fun _ => .ok .null) (.execute
      { definition := payoutWorkflow, runId := "RUN-1", inputPayload := .null }) trivial
      (Prog.Along.all (fun _ _ => trivial) _ _)
  have hagrees := hall _ _ payout_fresh ((Relation.ReflTransGen.single hstart).tail hagain)
  revert hagrees
  decide +kernel

end FlowMesh
