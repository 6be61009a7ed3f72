import FlowMesh.Engine.Session

/-!
# Decisions that fail

`resume_approval` stores the decision on the gate's step, and then the run's status: `REJECTED`, or
`RUNNING` once it has looked the definition up. A call that raises in between leaves the decision
behind without the run that goes with it, and the decision cannot be made again.

`spares_iff` says which calls leave the run as it was if they raise before the execution restarts:
those along which every call is `Recoverable`.
-/

namespace FlowMesh

open Python Database Async

section

variable (tenant runId : String)

/-- The run was set to `RUNNING` since `w₀`. -/
def Restarted (w₀ w : World) : Prop :=
  ∃ definition, .executing runId definition ∈ (w.eventsOf runId).drop (w₀.eventsOf runId).length

/-- The run's status and its steps are as in `w₀`. -/
def AsBefore (w₀ w : World) : Prop :=
  (w.run? tenant runId).map (·.status) = (w₀.run? tenant runId).map (·.status) ∧
    w.stepsOf tenant runId = w₀.stepsOf tenant runId

/-- If the program raises before the execution restarts, the run's status and its steps are as in
`w₀`. -/
def SparesRun (w₀ : World) (env : Env) {α : Type} (p : M α) (w : World) : Prop :=
  ∀ e w', p.run env.handle w = (.error e, w') → ¬ Restarted runId w₀ w' →
    AsBefore tenant runId w₀ w'

/-- Nothing was stored for the run since `w₀`. -/
def Standing (w₀ w : World) : Prop := w.ledger tenant runId = w₀.ledger tenant runId

/-- The call, in a run of `resume_approval` from `w₀`, does not leave half a decision behind. -/
structure Recoverable (w₀ : World) (env : Env) (o : Op) (w : World) : Prop where
  /-- Before anything is stored, a call that stores something raises only without effect, apart
  from the restart. -/
  first : Standing tenant runId w₀ w → ¬ o.Quiet → (∀ d, o ≠ .setRunning runId d) →
    ∀ e, env.faultOf o w ≠ some (e, true)
  /-- An approval takes effect only if there is a definition to go on with. -/
  approves : Standing tenant runId w₀ w → ∀ stepId snapshot,
    o = .approveStep tenant stepId snapshot → (∃ e, env.faultOf o w = some (e, false)) ∨
      ∀ run, w.run? tenant runId = some run → ∃ d, w.Pins tenant run d
  /-- Once something is stored, no call raises until the execution restarts, apart from the
  restart itself when it takes effect. -/
  rest : ¬ Standing tenant runId w₀ w → ¬ Restarted runId w₀ w → ∀ e took,
    env.faultOf o w = some (e, took) → (∃ d, o = .setRunning runId d) ∧ took = true

end

section

variable {env : Env} {tenant runId : String} {w₀ w : World}

/-! ## Phases -/

/-- A decision is stored, but the execution did not restart. -/
structure Halfway (tenant runId : String) (w₀ w : World) : Prop where
  changed : ¬ AsBefore tenant runId w₀ w
  stopped : ¬ Restarted runId w₀ w
  grows : w₀.eventsOf runId <+: w.eventsOf runId

theorem Standing.asBefore (h : Standing tenant runId w₀ w) : AsBefore tenant runId w₀ w := by
  have hrun : w.run? tenant runId = w₀.run? tenant runId := congrArg Ledger.run h
  have hsteps : w.stepsOf tenant runId = w₀.stepsOf tenant runId := congrArg Ledger.steps h
  exact ⟨by rw [hrun], hsteps⟩

theorem Halfway.not_standing (h : Halfway tenant runId w₀ w) : ¬ Standing tenant runId w₀ w :=
  fun hstanding => h.changed hstanding.asBefore

theorem Halfway.of_ledger {w' : World} (h : Halfway tenant runId w₀ w)
    (hL : w'.ledger tenant runId = w.ledger tenant runId) : Halfway tenant runId w₀ w' := by
  have hrun : w'.run? tenant runId = w.run? tenant runId := congrArg Ledger.run hL
  have hsteps : w'.stepsOf tenant runId = w.stepsOf tenant runId := congrArg Ledger.steps hL
  have hevents : w'.eventsOf runId = w.eventsOf runId := congrArg Ledger.events hL
  obtain ⟨hchanged, hstopped, hgrows⟩ := h
  unfold AsBefore at hchanged
  unfold Restarted at hstopped
  refine ⟨?_, ?_, ?_⟩
  · unfold AsBefore
    rwa [hrun, hsteps]
  · unfold Restarted
    rwa [hevents]
  · rwa [hevents]

theorem restarted_handle (o : Op) (h : Restarted runId w₀ w) :
    Restarted runId w₀ (env.handle o w).2 := by
  obtain ⟨definition, hmem⟩ := h
  obtain ⟨new, hnew⟩ : w.eventsOf runId <+: (env.handle o w).2.eventsOf runId :=
    (env.trace_extends_handle o w).filter _
  refine ⟨definition, ?_⟩
  rw [← hnew, List.drop_append]
  exact List.mem_append_left _ hmem

theorem Restarted.not_standing (h : Restarted runId w₀ w) : ¬ Standing tenant runId w₀ w := by
  obtain ⟨definition, hmem⟩ := h
  intro hstanding
  have hevents : w.eventsOf runId = w₀.eventsOf runId := congrArg Ledger.events hstanding
  rw [hevents, List.drop_length] at hmem
  cases hmem

theorem Standing.not_restarted (h : Standing tenant runId w₀ w) : ¬ Restarted runId w₀ w :=
  fun hrestarted => hrestarted.not_standing h

/-! ## Programs and their calls -/

/-- The program spares the run exactly if all its calls are recoverable. -/
def Attributed (tenant runId : String) (w₀ : World) (env : Env) {α : Type} (p : M α) (w : World) :
    Prop :=
  SparesRun tenant runId w₀ env p w ↔ p.Along env.handle (Recoverable tenant runId w₀ env) w

section Attributed

variable {α β : Type}

theorem attributed_ret (x : α) : Attributed tenant runId w₀ env (pure x) w := by
  refine iff_of_true ?_ trivial
  rintro e w' ⟨⟩

/-- Raising before anything is stored. -/
theorem attributed_raise (e : PyError) (hw : Standing tenant runId w₀ w) :
    Attributed tenant runId w₀ env (.throw e : M α) w := by
  refine iff_of_true ?_ trivial
  rintro e' w' ⟨⟩ -
  exact hw.asBefore

/-- Once the execution restarted, nothing is asked for. -/
theorem attributed_restarted (p : M α) (hw : Restarted runId w₀ w) :
    Attributed tenant runId w₀ env p w := by
  refine iff_of_true ?_ ?_
  · intro e w' hrun hstopped
    have hend : Restarted runId w₀ (p.run env.handle w).2 :=
      Prog.run_induction env.handle (fun o _ h => restarted_handle o h) p hw
    rw [hrun] at hend
    exact absurd hend hstopped
  · refine Prog.Along.of_invariant (fun o _ h => restarted_handle o h) (fun o w' h => ?_) p hw
    exact ⟨fun hstanding => absurd hstanding h.not_standing,
      fun hstanding => absurd hstanding h.not_standing, fun _ hstopped => absurd h hstopped⟩

/-- A call, and then the rest. -/
theorem attributed_call {o : Op} {f : o.Res → M β}
    (hfault : ∀ e took, env.faultOf o w = some (e, took) →
      ((¬ Restarted runId w₀ (env.handle o w).2 → AsBefore tenant runId w₀ (env.handle o w).2) ↔
        Recoverable tenant runId w₀ env o w))
    (hok : env.faultOf o w = none → ∃ x, (env.effect o w).1 = .ok x ∧
      (SparesRun tenant runId w₀ env (f x) (env.handle o w).2 ↔
        Recoverable tenant runId w₀ env o w ∧
          (f x).Along env.handle (Recoverable tenant runId w₀ env) (env.handle o w).2)) :
    Attributed tenant runId w₀ env (perform o >>= f) w := by
  unfold Attributed SparesRun at *
  rw [Prog.run_bind, Prog.run_perform, Prog.along_bind_iff, Prog.along_perform_iff,
    Prog.run_perform]
  cases hf : env.faultOf o w with
  | none =>
    obtain ⟨x, hx, hrest⟩ := hok hf
    have hres : env.handle o w = (.ok x, (env.handle o w).2) := by
      simp only [Env.handle, hf, hx]
    rw [hres]
    simp only [Except.ok.injEq, forall_eq']
    exact hrest
  | some fault =>
    obtain ⟨e, took⟩ := fault
    have hres : env.handle o w = (.error e, (env.handle o w).2) := by
      cases took <;> simp only [Env.handle, hf]
    rw [← hfault e took hf, hres]
    simp

/-- A call that did not raise is recoverable, but for an approval. -/
theorem recoverable_of_calm {o : Op} (hf : env.faultOf o w = none)
    (hpins : ∀ stepId snapshot, o = .approveStep tenant stepId snapshot →
      ∀ run, w.run? tenant runId = some run → ∃ d, w.Pins tenant run d) :
    Recoverable tenant runId w₀ env o w :=
  ⟨fun _ _ _ e => by simp [hf], fun _ stepId snapshot ho => Or.inr (hpins _ _ ho),
    fun _ _ e took hf' => by simp [hf] at hf'⟩

/-- A call that did not raise, and then the rest. -/
theorem attributed_next {o : Op} {p : M β} (hf : env.faultOf o w = none)
    (hpins : ∀ stepId snapshot, o = .approveStep tenant stepId snapshot →
      ∀ run, w.run? tenant runId = some run → ∃ d, w.Pins tenant run d)
    (hp : Attributed tenant runId w₀ env p (env.handle o w).2) :
    SparesRun tenant runId w₀ env p (env.handle o w).2 ↔ Recoverable tenant runId w₀ env o w ∧
      p.Along env.handle (Recoverable tenant runId w₀ env) (env.handle o w).2 :=
  hp.trans (and_iff_right (recoverable_of_calm hf hpins)).symm

/-- A call that touches no ledger, before the execution restarts. -/
theorem attributed_quiet {o : Op} {f : o.Res → M β} (ho : o.Quiet)
    (hw : Standing tenant runId w₀ w ∨ Halfway tenant runId w₀ w)
    (hok : env.faultOf o w = none → ∃ x, (env.effect o w).1 = .ok x ∧
      Attributed tenant runId w₀ env (f x) (env.handle o w).2) :
    Attributed tenant runId w₀ env (perform o >>= f) w := by
  have hL : (env.handle o w).2.ledger tenant runId = w.ledger tenant runId :=
    env.handle_quiet tenant runId ho w
  have happroves : ∀ stepId snapshot, o ≠ .approveStep tenant stepId snapshot := by
    rintro stepId snapshot rfl
    exact ho
  refine attributed_call (fun e took hf => ?_) fun hf => ?_
  · rcases hw with hstanding | hhalfway
    · have hsame : Standing tenant runId w₀ (env.handle o w).2 := hL.trans hstanding
      refine iff_of_true (fun _ => hsame.asBefore) ⟨fun _ hquiet => absurd ho hquiet,
        fun _ stepId snapshot heq => absurd heq (happroves _ _),
        fun hne => absurd hstanding hne⟩
    · have hhalf := hhalfway.of_ledger hL
      refine iff_of_false (fun h => hhalf.changed (h hhalf.stopped)) fun hrec => ?_
      obtain ⟨⟨d, rfl⟩, -⟩ := hrec.rest hhalfway.not_standing hhalfway.stopped e took hf
      exact ho
  · obtain ⟨x, hx, hrest⟩ := hok hf
    exact ⟨x, hx, attributed_next hf (fun _ _ heq => absurd heq (happroves _ _)) hrest⟩

/-! ## The restart -/

/-- The events since `w₀`. -/
theorem grows_of_phase (hw : Standing tenant runId w₀ w ∨ Halfway tenant runId w₀ w) :
    w₀.eventsOf runId <+: w.eventsOf runId := by
  rcases hw with hstanding | hhalfway
  · have hevents : w.eventsOf runId = w₀.eventsOf runId := congrArg Ledger.events hstanding
    exact ⟨[], by rw [List.append_nil, hevents]⟩
  · exact hhalfway.grows

theorem attributed_setRunning {definition : WorkflowSpec} {f : Unit → M β}
    (hw : Standing tenant runId w₀ w ∨ Halfway tenant runId w₀ w) :
    Attributed tenant runId w₀ env (perform (.setRunning runId definition) >>= f) w := by
  have hrestarted : ∀ n, Restarted runId w₀
      { (env.effect (.setRunning runId definition) w).2 with tick := n } := by
    intro n
    refine ⟨definition, ?_⟩
    have hevents : ((env.effect (.setRunning runId definition) w).2.ledger tenant runId).events =
        w.eventsOf runId ++ [.executing runId definition] :=
      congrArg Ledger.events (World.ledger_log rfl)
    change _ ∈ ((env.effect (.setRunning runId definition) w).2.ledger tenant runId).events.drop _
    have hle := (grows_of_phase hw).length_le
    rw [hevents, List.drop_append, Nat.sub_eq_zero_of_le hle, List.drop_zero]
    simp
  refine attributed_call (fun e took hf => ?_) fun hf => ⟨(), rfl, attributed_next hf nofun ?_⟩
  · cases took with
    | false =>
      simp only [Env.handle, hf]
      rcases hw with hstanding | hhalfway
      · refine iff_of_true (fun _ => hstanding.asBefore) ⟨fun _ _ hne => absurd rfl (hne _), nofun,
          fun hne => absurd hstanding hne⟩
      · refine iff_of_false (fun h => hhalfway.changed (h hhalfway.stopped)) fun hrec => ?_
        exact absurd (hrec.rest hhalfway.not_standing hhalfway.stopped e _ hf).2 (by simp)
    | true =>
      simp only [Env.handle, hf]
      refine iff_of_true (fun hstopped => absurd (hrestarted _) hstopped)
        ⟨fun _ _ hne => absurd rfl (hne _), nofun, fun _ _ e' took' hf' => ?_⟩
      rw [hf] at hf'
      cases hf'
      exact ⟨⟨definition, rfl⟩, rfl⟩
  · apply attributed_restarted
    simp only [Env.handle, hf]
    exact hrestarted _

/-- `execute`, up to the restart and beyond. -/
theorem attributed_execute {ev : Evaluator} {a : ExecuteArgs} (hid : a.runId = runId)
    {run : RunRecord} (hrun : w.run? tenant runId = some run)
    (hw : Standing tenant runId w₀ w ∨ Halfway tenant runId w₀ w) :
    Attributed tenant runId w₀ env (execute ev tenant a) w := by
  have hphase : ∀ {w' : World}, w'.ledger tenant runId = w.ledger tenant runId →
      Standing tenant runId w₀ w' ∨ Halfway tenant runId w₀ w' := fun hL =>
    hw.imp (hL.trans ·) (·.of_ledger hL)
  have htraced : ∀ (traceId : String) (w₁ : World),
      w₁.ledger tenant runId = w.ledger tenant runId →
      Attributed tenant runId w₀ env (executeTraced ev tenant a traceId) w₁ := by
    intro traceId w₁ hL
    subst hid
    have hrun₁ : w₁.run? tenant a.runId = some run := (congrArg Ledger.run hL).trans hrun
    unfold executeTraced
    refine attributed_quiet trivial (hphase hL) fun hf => ⟨_, rfl, ?_⟩
    have hL₂ := env.handle_quiet tenant a.runId (o := .getRun tenant a.runId) trivial w₁
    rw [hrun₁]
    simp only [Option.map_some]
    rw [(World.run?_eq_some.1 hrun₁).2.1]
    exact attributed_setRunning (hphase (hL₂.trans hL))
  unfold execute
  split
  · exact htraced _ w rfl
  · refine attributed_quiet trivial hw fun hf => ⟨_, rfl, ?_⟩
    exact htraced _ _ (env.handle_quiet tenant runId (o := .uuid) trivial w)

/-! ## The look-up -/

/-- The look-up of the definition, and then the rest. In the midst of an approval there has to be
a definition. -/
theorem attributed_lookup {run : RunRecord} {f : WorkflowDefinition → M β}
    (hw : Standing tenant runId w₀ w ∨
      Halfway tenant runId w₀ w ∧ ∃ d, w.Pins tenant run d)
    (hf : ∀ d w', w'.ledger tenant runId = w.ledger tenant runId →
      Attributed tenant runId w₀ env (f d) w') :
    Attributed tenant runId w₀ env
      (lookupDefinition tenant run.workflowId run.workflowVersion >>= f) w := by
  have hphase : ∀ {w' : World}, w'.ledger tenant runId = w.ledger tenant runId →
      Standing tenant runId w₀ w' ∨ Halfway tenant runId w₀ w' := fun hL =>
    (hw.imp_right And.left).imp (hL.trans ·) (·.of_ledger hL)
  have hraise : ∀ (e : PyError) (w' : World), w'.ledger tenant runId = w.ledger tenant runId →
      Standing tenant runId w₀ w → Attributed tenant runId w₀ env (.throw e : M β) w' :=
    fun e w' hL hstanding => attributed_raise e (hL.trans hstanding)
  have hparse : ∀ (spec : WorkflowSpec) (w' : World),
      w'.ledger tenant runId = w.ledger tenant runId →
      (w.registry.definitionFor tenant run.workflowId run.workflowVersion = some spec) →
      Attributed tenant runId w₀ env (parseDefinition spec >>= f) w' := by
    intro spec w' hL hspec
    rcases hw with hstanding | ⟨-, d, hd⟩
    · unfold parseDefinition
      split
      · exact hf _ w' hL
      · exact hraise _ w' hL hstanding
    · obtain rfl : spec = d.toWorkflowSpec := Option.some.inj (hspec.symm.trans hd)
      rw [parseDefinition_spec]
      exact hf d w' hL
  unfold lookupDefinition
  rw [Prog.bind_assoc]
  refine attributed_quiet trivial (hphase rfl) fun _ => ⟨_, rfl, ?_⟩
  have hL₁ := env.handle_quiet tenant runId
    (o := .getByVersion tenant run.workflowId run.workflowVersion) trivial w
  have hreg₁ := registry_handle env
    (o := .getByVersion tenant run.workflowId run.workflowVersion) (by simp) w
  cases hver : w.registry.getByVersion tenant run.workflowId run.workflowVersion with
  | some verRecord =>
    exact hparse _ _ hL₁ (by rw [Registry.definitionFor, hver])
  | none =>
    rw [Prog.bind_assoc]
    refine attributed_quiet trivial (hphase hL₁) fun _ => ⟨_, rfl, ?_⟩
    have hL₂ := (env.handle_quiet tenant runId (o := .getWorkflow tenant run.workflowId) trivial
      (env.handle (.getByVersion tenant run.workflowId run.workflowVersion) w).2).trans hL₁
    rw [hreg₁]
    cases hwf : w.registry.getById tenant run.workflowId with
    | some wf => exact hparse _ _ hL₂ (by rw [Registry.definitionFor, hver, hwf]; rfl)
    | none =>
      rcases hw with hstanding | ⟨-, d, hd⟩
      · exact hraise _ _ hL₂ hstanding
      · rw [World.Pins, Registry.definitionFor, hver, hwf] at hd
        cases hd

/-! ## Storing the decision -/

/-- A call that stores a part of the decision, and then the rest. -/
theorem attributed_store {o : Op} {f : o.Res → M β} (hquiet : ¬ o.Quiet)
    (hrestart : ∀ d, o ≠ .setRunning runId d)
    (hpins : ∀ stepId snapshot, o = .approveStep tenant stepId snapshot →
      ∀ run, w.run? tenant runId = some run → ∃ d, w.Pins tenant run d)
    (hw : Standing tenant runId w₀ w ∨ Halfway tenant runId w₀ w)
    (hstored : ∀ n, Halfway tenant runId w₀ { (env.effect o w).2 with tick := n })
    (hok : env.faultOf o w = none → ∃ x, (env.effect o w).1 = .ok x ∧
      Attributed tenant runId w₀ env (f x) (env.handle o w).2) :
    Attributed tenant runId w₀ env (perform o >>= f) w := by
  refine attributed_call (fun e took hf => ?_) fun hf => ?_
  · cases took with
    | false =>
      simp only [Env.handle, hf]
      rcases hw with hstanding | hhalfway
      · refine iff_of_true (fun _ => hstanding.asBefore)
          ⟨fun _ _ _ e' => by simp [hf], fun _ _ _ _ => Or.inl ⟨e, hf⟩,
            fun hne => absurd hstanding hne⟩
      · refine iff_of_false (fun h => hhalfway.changed (h hhalfway.stopped)) fun hrec => ?_
        exact absurd (hrec.rest hhalfway.not_standing hhalfway.stopped e _ hf).2 (by simp)
    | true =>
      simp only [Env.handle, hf]
      refine iff_of_false (fun h => (hstored _).changed (h (hstored _).stopped)) fun hrec => ?_
      rcases hw with hstanding | hhalfway
      · exact hrec.first hstanding hquiet hrestart e hf
      · obtain ⟨⟨d, hd⟩, -⟩ := hrec.rest hhalfway.not_standing hhalfway.stopped e _ hf
        exact hrestart d hd
  · obtain ⟨x, hx, hrest⟩ := hok hf
    exact ⟨x, hx, attributed_next hf hpins hrest⟩

/-- Deciding the step that waits changes the steps, and restarts nothing. -/
theorem halfway_of_amend {w' : World} {s : RunStepRecord} {g : RunStepRecord → RunStepRecord}
    {es : List Event} (hw : Standing tenant runId w₀ w)
    (hs : (w.ledger tenant runId).waiting = some s)
    (hg : (g s).status ≠ .waitingApproval) (hes : ∀ d, .executing runId d ∉ es)
    (hL : w'.ledger tenant runId = ((w.ledger tenant runId).amend s.id g).log es) :
    Halfway tenant runId w₀ w' := by
  have hevents₀ : w.eventsOf runId = w₀.eventsOf runId := congrArg Ledger.events hw
  have hevents : w'.eventsOf runId = w₀.eventsOf runId ++ es := by
    rw [← hevents₀]
    exact congrArg Ledger.events hL
  refine ⟨?_, ?_, ?_⟩
  · rintro ⟨-, hsteps⟩
    have hsteps₀ : w₀.stepsOf tenant runId = w.stepsOf tenant runId :=
      (congrArg Ledger.steps hw).symm
    have hmap : (w.stepsOf tenant runId).map (fun s' => if s'.id = s.id then g s' else s') =
        (w.stepsOf tenant runId).map id := by
      rw [List.map_id]
      exact (congrArg Ledger.steps hL).symm.trans (hsteps.trans hsteps₀)
    have hfix := List.map_inj_left.1 hmap s (waiting_mem hs).1
    rw [if_pos rfl] at hfix
    rw [hfix] at hg
    exact hg (waiting_mem hs).2
  · rintro ⟨definition, hmem⟩
    rw [hevents, List.drop_left] at hmem
    exact hes definition hmem
  · rw [hevents]
    exact List.prefix_append _ _

/-- Storing the rejection changes the status. -/
theorem halfway_rejected {w' : World} {run₀ run : RunRecord} {f : RunRecord → RunRecord}
    (hrun₀ : w₀.run? tenant runId = some run₀) (hstatus : run₀.status = .waitingApproval)
    (hrun : w.run? tenant runId = some run)
    (hw : Standing tenant runId w₀ w ∨ Halfway tenant runId w₀ w)
    (hf : (f run).status = .rejected)
    (hL : w'.ledger tenant runId = (w.ledger tenant runId).setRun f) :
    Halfway tenant runId w₀ w' := by
  have hevents : w'.eventsOf runId = w.eventsOf runId := congrArg Ledger.events hL
  have hrun' : w'.run? tenant runId = some (f run) := by
    have hset : w'.run? tenant runId = (w.run? tenant runId).map f := congrArg Ledger.run hL
    rw [hset, hrun]
    rfl
  refine ⟨?_, ?_, ?_⟩
  · rintro ⟨hsame, -⟩
    rw [hrun', hrun₀] at hsame
    simp [hf, hstatus] at hsame
  · intro hrestarted
    have hstopped : ¬ Restarted runId w₀ w :=
      hw.elim (fun h => h.not_restarted) fun h => h.stopped
    unfold Restarted at hstopped hrestarted
    rw [hevents] at hrestarted
    exact hstopped hrestarted
  · rw [hevents]
    exact grows_of_phase hw

end Attributed

/-! ## `resume_approval` -/

section Resume

variable {run : RunRecord} {a : ApprovalArgs}

/-- The rejection branch. -/
theorem attributed_reject (hrun : w₀.run? tenant runId = some run)
    (hstatus : run.status = .waitingApproval) (hw : Standing tenant runId w₀ w) :
    Attributed tenant runId w₀ env (reject tenant run (w.ledger tenant runId).waiting a) w := by
  have hid : run.id = runId := (World.run?_eq_some.1 hrun).2.1
  -- the run's status is stored, and then the run is read again
  have htail : ∀ (w₁ : World) (run₁ : RunRecord), w₁.run? tenant runId = some run₁ →
      Standing tenant runId w₀ w₁ ∨ Halfway tenant runId w₀ w₁ →
      Attributed tenant runId w₀ env (do
        perform (.updateRunStatus tenant runId .rejected .null (some a.errMsg))
        let refreshed ← perform (.getRun tenant runId)
        return (refreshed.map (·.1)).getD run) w₁ := by
    intro w₁ run₁ hrun₁ hw₁
    have hstored : ∀ n, Halfway tenant runId w₀ { (env.effect (.updateRunStatus tenant runId
        .rejected .null (some a.errMsg)) w₁).2 with tick := n } := fun n =>
      halfway_rejected hrun hstatus hrun₁ hw₁ rfl (World.ledger_updateRunStatus ..)
    refine attributed_store id (by simp) (by simp) hw₁ hstored fun hf => ⟨(), rfl, ?_⟩
    have hhalf : Halfway tenant runId w₀ (env.handle (.updateRunStatus tenant runId .rejected .null
        (some a.errMsg)) w₁).2 := by
      simp only [Env.handle, hf]
      exact hstored _
    exact attributed_quiet trivial (Or.inr hhalf) fun _ => ⟨_, rfl, attributed_ret _⟩
  have hrunw : w.run? tenant runId = some run := (congrArg Ledger.run hw).trans hrun
  unfold reject rejectStep
  rw [hid]
  cases hs : (w.ledger tenant runId).waiting with
  | none => exact htail w run hrunw (Or.inl hw)
  | some s =>
    have hL : (env.effect (.updateStep tenant s.id .rejected ⟨.finite 0, "0.0"⟩ a.snapshot
        (some a.errMsg)) w).2.ledger tenant runId = _ := World.ledger_updateStep ..
    have hstored : ∀ n, Halfway tenant runId w₀ { (env.effect (.updateStep tenant s.id .rejected
        ⟨.finite 0, "0.0"⟩ a.snapshot (some a.errMsg)) w).2 with tick := n } := fun n =>
      halfway_of_amend hw hs (by simp) (by simp) (hL.trans (Ledger.log_nil _).symm)
    refine attributed_store id (by simp) (by simp) (Or.inl hw) hstored fun hf => ⟨(), rfl, ?_⟩
    refine htail _ run ?_ (Or.inr ?_)
    · simp only [Env.handle, hf]
      exact (congrArg Ledger.run hL).trans hrunw
    · simp only [Env.handle, hf]
      exact hstored _

/-- Without a definition to go on with, an approval that takes effect is stranded. -/
theorem attributed_undefined {s : RunStepRecord} {f : WorkflowDefinition → M RunRecord}
    (hrun : w.run? tenant runId = some run) (hw : Standing tenant runId w₀ w)
    (hstored : ∀ n, Halfway tenant runId w₀
      { (env.effect (.approveStep tenant s.id a.snapshot) w).2 with tick := n })
    (hpins : ¬ ∃ d, w.Pins tenant run d) :
    Attributed tenant runId w₀ env (perform (.approveStep tenant s.id a.snapshot) >>= fun _ =>
      lookupDefinition tenant run.workflowId run.workflowVersion >>= f) w := by
  have hstranded : (∀ e, env.faultOf (.approveStep tenant s.id a.snapshot) w ≠ some (e, false)) →
      ¬ Recoverable tenant runId w₀ env (.approveStep tenant s.id a.snapshot) w := by
    intro hfault hrec
    rcases hrec.approves hw _ _ rfl with ⟨e, he⟩ | hall
    · exact hfault e he
    · exact hpins (hall run hrun)
  refine attributed_call (fun e took hf => ?_) fun hf => ⟨(), rfl, ?_⟩
  · cases took with
    | false =>
      simp only [Env.handle, hf]
      exact iff_of_true (fun _ => hw.asBefore) ⟨fun _ _ _ e' => by simp [hf],
        fun _ _ _ _ => Or.inl ⟨e, hf⟩, fun hne => absurd hw hne⟩
    | true =>
      simp only [Env.handle, hf]
      exact iff_of_false (fun h => (hstored _).changed (h (hstored _).stopped))
        (hstranded (by simp [hf]))
  · refine iff_of_false (fun hspares => ?_) fun h => hstranded (by simp [hf]) h.1
    have hw₁ : Halfway tenant runId w₀ (env.handle (.approveStep tenant s.id a.snapshot) w).2 := by
      simp only [Env.handle, hf]
      exact hstored _
    have hreg := registry_handle env (o := .approveStep tenant s.id a.snapshot) (by simp) w
    generalize (env.handle (.approveStep tenant s.id a.snapshot) w).2 = w₁ at hspares hw₁ hreg
    rcases hlook : (lookupDefinition tenant run.workflowId run.workflowVersion).run env.handle w₁
      with ⟨e | d, w₂⟩
    · have hL : w₂.ledger tenant runId = w₁.ledger tenant runId := by
        have hdoes : env.Does tenant runId
            (lookupDefinition tenant run.workflowId run.workflowVersion) (w₁.ledger tenant runId)
            fun _ L' => L' = w₁.ledger tenant runId := lookupDefinition_does _ _
        have hsame := hdoes.run rfl
        rwa [hlook] at hsame
      have hhalf := hw₁.of_ledger hL
      exact hhalf.changed (hspares e w₂ (Prog.run_bind_error _ hlook) hhalf.stopped)
    · have hfound := run_lookupDefinition (congrArg Prod.fst hlook)
      rw [hreg] at hfound
      exact hpins ⟨d, hfound⟩

/-- The approval branch. -/
theorem attributed_approve (hrun : w₀.run? tenant runId = some run)
    (hw : Standing tenant runId w₀ w) :
    Attributed tenant runId w₀ env (approve env.toEvaluator tenant run (w.ledger tenant runId).waiting
      a) w := by
  have hid : run.id = runId := (World.run?_eq_some.1 hrun).2.1
  have hrunw : w.run? tenant runId = some run := (congrArg Ledger.run hw).trans hrun
  unfold approve passStep
  cases hs : (w.ledger tenant runId).waiting with
  | none =>
    refine attributed_lookup (Or.inl hw) fun d w' hL => ?_
    exact attributed_execute hid ((congrArg Ledger.run hL).trans hrunw) (Or.inl (hL.trans hw))
  | some s =>
    have hL := env.ledger_approveStep (waiting_mem hs).1 a.snapshot
    have hstored : ∀ n, Halfway tenant runId w₀
        { (env.effect (.approveStep tenant s.id a.snapshot) w).2 with tick := n } := fun n =>
      halfway_of_amend hw hs (by simp) (by simp) hL
    by_cases hpins : ∃ d, w.Pins tenant run d
    · refine attributed_store id (by simp) ?_ (Or.inl hw) hstored fun hf => ⟨(), rfl, ?_⟩
      · intro _ _ _ run' hrun'
        rw [hrunw] at hrun'
        exact Option.some.inj hrun' ▸ hpins
      · have hreg := registry_handle env (o := .approveStep tenant s.id a.snapshot) (by simp) w
        have hw₁ : Halfway tenant runId w₀ (env.handle (.approveStep tenant s.id a.snapshot) w).2 ∧
            ∃ d, (env.handle (.approveStep tenant s.id a.snapshot) w).2.Pins tenant run d := by
          refine ⟨?_, ?_⟩
          · simp only [Env.handle, hf]
            exact hstored _
          · unfold World.Pins
            rwa [hreg]
        have hrun₁ : (env.handle (.approveStep tenant s.id a.snapshot) w).2.run? tenant runId =
            some run := by
          simp only [Env.handle, hf]
          exact (congrArg Ledger.run hL).trans hrunw
        refine attributed_lookup (Or.inr hw₁) fun d w' hL' => ?_
        exact attributed_execute hid ((congrArg Ledger.run hL').trans hrun₁)
          (Or.inr (hw₁.1.of_ledger hL'))
    · exact attributed_undefined hrunw hw hstored hpins

end Resume

/-- **When a failed decision can be made again**: a call of `resume_approval` leaves the run's
status and its steps as they were, if it raises before the execution restarts, exactly if every
call it makes is recoverable. -/
theorem spares_iff (env : Env) (tenant runId : String) (a : ApprovalArgs) (w : World) :
    SparesRun tenant runId w env (resumeApproval env.toEvaluator tenant runId a) w ↔
      (resumeApproval env.toEvaluator tenant runId a).Along env.handle
        (Recoverable tenant runId w env) w := by
  unfold resumeApproval
  refine attributed_quiet trivial (Or.inl rfl) fun _ => ⟨_, rfl, ?_⟩
  have hL : Standing tenant runId w (env.handle (.getRun tenant runId) w).2 :=
    env.handle_quiet tenant runId (o := .getRun tenant runId) trivial w
  generalize (env.handle (.getRun tenant runId) w).2 = w₁ at hL
  cases hrun : w.run? tenant runId with
  | none => exact attributed_raise _ hL
  | some run =>
    simp only [Option.map_some]
    split
    · exact attributed_raise _ hL
    next hstatus =>
    have hwaiting : (w.stepsOf tenant runId).find? (·.status = .waitingApproval) =
        (w₁.ledger tenant runId).waiting := by
      rw [hL]
      rfl
    rw [hwaiting]
    split
    · exact attributed_approve hrun hL
    · exact attributed_reject hrun (not_not.1 hstatus) hL

end

/-! ### A workflow that was deleted -/

/-- The payout run, parked at its gate, without its workflow. -/
def payoutOrphaned : World := { payoutParked with registry := .empty }

/-- What approving it comes to. -/
def payoutStranded : Except PyError RunRecord × World :=
  (resumeApproval (Env.steady fun _ => .ok .null).toEvaluator "acme" "RUN-1"
    { approved := true, approverEmail := "ops", comment := none, decidedAt := "" }).run
      (Env.steady fun _ => .ok .null).handle payoutOrphaned

/-- The approval raises, and the gate's step stays approved. -/
theorem not_spares_orphaned : ¬ ∀ (env : Env) (a : ApprovalArgs) (w : World),
    SparesRun "acme" "RUN-1" w env (resumeApproval env.toEvaluator "acme" "RUN-1" a) w := by
  intro hall
  have hstopped : ¬ Restarted "RUN-1" payoutOrphaned payoutStranded.2 := by
    have hevents : ((payoutStranded.2.eventsOf "RUN-1").drop
        (payoutOrphaned.eventsOf "RUN-1").length).any Event.isExecuting = false := by decide +kernel
    rintro ⟨definition, hmem⟩
    exact absurd rfl (List.any_eq_false.1 hevents _ hmem)
  have hsteps : (payoutStranded.2.stepsOf "acme" "RUN-1").map (·.status) ≠
      (payoutOrphaned.stepsOf "acme" "RUN-1").map (·.status) := by decide +kernel
  have herror : payoutStranded.1.isOk = false := by decide +kernel
  rcases hout : payoutStranded with ⟨e | run, w'⟩ <;> rw [hout] at hstopped hsteps herror
  · exact hsteps (congrArg (List.map (·.status)) (hall _ _ _ e w' hout hstopped).2)
  · cases herror

end FlowMesh
