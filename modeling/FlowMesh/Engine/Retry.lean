import FlowMesh.Engine.Execute

/-!
# A successful side effect and its bookkeeping

The calls that follow a successful dispatch share its `try` block, so an exception of theirs is
handled like a failure of the dispatch. `keepsSuccess_iff` says exactly when `_execute_node`
nevertheless keeps a success: when no bookkeeping call raises behind the first dispatch that
succeeds, or when a second exception cuts `_execute_node` short before it dispatches again or
stores the step as `FAILED`.

A `Script` lists what the world answers to one `_execute_node`, by the number of dispatches made
so far; any pattern of exceptions of the calls behind the dispatches is a script.
-/

namespace FlowMesh

open Python Database Async

/-! ## Scripts -/

/-- What the world answers after so many dispatches. -/
structure Script where
  dispatch : ℕ → Except PyError DispatchResult
  fault : ℕ → Op → Option (PyError × Bool)
  circuitState : CircuitState
  circuitFailure : ℕ → CircuitState
  random : ℕ → ℚ
  elapsedMs : ℕ → PyFloat

/-- The environment of a script, for a call that starts with `base` events in the trace. -/
def Script.env (p : Script) (ev : Evaluator) (base : ℕ) : Env where
  toEvaluator := ev
  dispatch := fun w _ _ _ => p.dispatch (w.trace.length - base)
  circuitState := fun _ _ => p.circuitState
  circuitFailure := fun w _ => p.circuitFailure (w.trace.length - base)
  fault := fun w o => p.fault (w.trace.length - base) o
  random := fun w => p.random (w.trace.length - base)
  elapsedMs := fun w => p.elapsedMs (w.trace.length - base)
  uuid := fun _ => ""

/-- The calls behind a successful dispatch, in order. -/
def settlingCalls (tenant : String) (node : WorkflowNode) (stepId : ℕ) (res : DispatchResult) :
    List Op :=
  (match node.connection? with
    | none => []
    | some c => [.recordCircuitSuccess c, .reportRecovered c, .recordCircuitMetric c .closed]) ++
    [.updateStep tenant stepId .success res.durationMs res.output none,
      .recordSpan (spanName node) true]

/-- The calls of the `except` block. -/
def failureCalls (workflowId : String) (node : WorkflowNode) (state : CircuitState)
    (exc : PyError) : List Op :=
  match node.connection?, categorizeError exc with
  | some c, .transient => [.recordCircuitFailure c, .recordCircuitMetric c state] ++
      if state = .open then [.reportTripped c workflowId exc.message] else []
  | _, _ => []

namespace Script

variable (p : Script)

/-- The exception that a sequence of calls raises, if one of them raises. -/
def errorOf (k : ℕ) (calls : List Op) : Option PyError :=
  calls.findSome? fun o => (p.fault k o).map (·.1)

/-- The exception of the pause before the attempt behind `k` dispatches. -/
def pauseError (u : Unicode) (node : WorkflowNode) (k : ℕ) : Option PyError :=
  if k = 0 then none
  else
    ((p.fault k .random).map (·.1)).or
      (match calculateBackoff u (k + 1) node.policy (p.random k) with
        | .error e => some e
        | .ok sec => (p.fault k (.sleep (FloatVal.min sec (.finite 2)))).map (·.1))

/-- The step is not stored as `FAILED`, because the calls up to its storage raise. -/
def Unstored (tenant : String) (stepId k : ℕ) (msg : String) : Prop :=
  (p.fault k .elapsedMs).isSome ∨ ∃ e,
    p.fault k (.updateStep tenant stepId .failed (p.elapsedMs k) .null (some msg)) = some (e, false)

/-- The first statements of `_execute_node` let it get to the attempts, of which there are
`max`. -/
def Begins (u : Unicode) (tenant runId : String) (node : WorkflowNode)
    (inputSnapshot : List (String × Json)) (max : ℤ) : Prop :=
  p.fault 0 (.recordStep tenant runId node .running inputSnapshot) = none ∧
    (∀ c, node.connection? = some c → p.fault 0 (.getCircuitBreakerState c) = none ∧
      p.circuitState ≠ .open) ∧
    node.policy.maxAttempts u = .ok max

/-- The attempt behind `k` dispatches is made: all of them failed in a way that is tried again,
and nothing else raised. -/
def Reaches (u : Unicode) (workflowId : String) (node : WorkflowNode) (k : ℕ) : Prop :=
  ∀ j < k, ∃ exc, p.dispatch j = .error exc ∧ categorizeError exc = .transient ∧
    p.errorOf (j + 1) (failureCalls workflowId node (p.circuitFailure (j + 1)) exc) = none ∧
    p.pauseError u node (j + 1) = none

/-- Behind `k` dispatches, with `exc` raised by the bookkeeping of the last one: another
exception comes before the next dispatch or before the step is stored as `FAILED`. -/
def Escapes (u : Unicode) (tenant workflowId : String) (node : WorkflowNode) (stepId : ℕ) (max : ℤ)
    (k : ℕ) (exc : PyError) : Prop :=
  p.errorOf k (failureCalls workflowId node (p.circuitFailure k) exc) ≠ none ∨
    if categorizeError exc = .transient ∧ k < max.toNat then p.pauseError u node k ≠ none
    else p.Unstored tenant stepId k exc.message

end Script

/-! ## Keeping a success -/

/-- Once a dispatch of the node succeeded, the node is not dispatched again, and its step is
neither reported nor stored as `FAILED`. `w` is the world before the call, `w'` the one after
it. -/
def KeepsSuccess (runId nodeId : String) (w : World) (r : Except PyError StepResult) (w' : World) :
    Prop :=
  ∀ pre post config context,
    w'.trace = w.trace ++ pre ++ .dispatched runId nodeId config context true :: post →
      post = [] ∧ (∀ error, r ≠ .ok (.failure error)) ∧
        ∀ s ∈ w'.steps, s.id = w.steps.fresh → s.status ≠ .failed

section

variable {p : Script} {ev : Evaluator} {base : ℕ} {tenant runId workflowId : String}
  {node : WorkflowNode} {stepId : ℕ}

/-- The step is there. -/
def World.HasStep (w : World) (tenant : String) (stepId : ℕ) : Prop :=
  ∃ s ∈ w.steps, s.id = stepId ∧ s.tenantId = tenant

/-- The step is not stored as `FAILED`. -/
def World.Unfailed (w : World) (stepId : ℕ) : Prop :=
  ∀ s ∈ w.steps, s.id = stepId → s.status ≠ .failed

/-- The calls from `w` to `w'` dispatched nothing and did not store the step as `FAILED`. -/
structure Quietly (tenant : String) (stepId : ℕ) (w w' : World) : Prop where
  trace : w'.trace = w.trace
  hasStep : w.HasStep tenant stepId → w'.HasStep tenant stepId
  unfailed : w.Unfailed stepId → w'.Unfailed stepId

theorem Quietly.refl (w : World) : Quietly tenant stepId w w := ⟨rfl, id, id⟩

theorem Quietly.trans {w₁ w₂ w₃ : World} (h : Quietly tenant stepId w₁ w₂)
    (h' : Quietly tenant stepId w₂ w₃) : Quietly tenant stepId w₁ w₃ :=
  ⟨h'.trace.trans h.trace, fun hs => h'.hasStep (h.hasStep hs),
    fun hs => h'.unfailed (h.unfailed hs)⟩

/-- Only the number of calls changed. -/
theorem Quietly.tick {w w' : World} (h : Quietly tenant stepId w w') (n : ℕ) :
    Quietly tenant stepId w { w' with tick := n } := ⟨h.trace, h.hasStep, h.unfailed⟩

theorem mem_updateStep {w : World} {status : StepStatus} {durationMs : PyFloat}
    {outputSnapshot : Json} {error : Option String} {s : RunStepRecord} :
    s ∈ (w.updateStep tenant stepId status durationMs outputSnapshot error).steps ↔
      ∃ s' ∈ w.steps, s = if s'.id = stepId ∧ s'.tenantId = tenant then
        { s' with status, durationMs, outputSnapshot, error } else s' := by
  refine (Table.mem_of_rows_map rfl).trans ?_
  simp only [decide_eq_true_eq]

theorem hasStep_updateStep {w : World} (h : w.HasStep tenant stepId) (status : StepStatus)
    (durationMs : PyFloat) (outputSnapshot : Json) (error : Option String) :
    ∃ s ∈ (w.updateStep tenant stepId status durationMs outputSnapshot error).steps,
      s.id = stepId ∧ s.tenantId = tenant ∧ s.status = status := by
  obtain ⟨s, hs, hid, ht⟩ := h
  exact ⟨_, mem_updateStep.2 ⟨s, hs, (if_pos ⟨hid, ht⟩).symm⟩, hid, ht, rfl⟩

theorem quietly_updateStep (w : World) {status : StepStatus} (hst : status ≠ .failed)
    (durationMs : PyFloat) (outputSnapshot : Json) (error : Option String) :
    Quietly tenant stepId w
      (w.updateStep tenant stepId status durationMs outputSnapshot error) where
  trace := rfl
  hasStep := fun h => by
    obtain ⟨s, hs, hid, ht, -⟩ := hasStep_updateStep h status durationMs outputSnapshot error
    exact ⟨s, hs, hid, ht⟩
  unfailed := by
    intro h s hs hid
    obtain ⟨s', hs', rfl⟩ := mem_updateStep.1 hs
    split
    · exact hst
    · next hne =>
      rw [if_neg hne] at hid
      exact h s' hs' hid

/-! ## Running under a script -/

/-- `prog` makes calls that are no dispatches, returns, or raises `out`. -/
def Script.Yields (p : Script) (ev : Evaluator) (base : ℕ) (tenant : String) (stepId : ℕ)
    (prog : M Unit) (w : World) (out : Option PyError) : Prop :=
  ∃ w', prog.run (p.env ev base).handle w = (match out with
    | none => .ok ()
    | some e => .error e, w') ∧ Quietly tenant stepId w w'

/-- A call that dispatches nothing. -/
theorem Script.run_call {o : Op} {w : World} {k : ℕ} (hk : w.trace.length - base = k)
    (hd : ∀ r n c x, o ≠ .dispatchNodeType r n c x)
    (hq : Quietly tenant stepId w ((p.env ev base).effect o w).2) :
    ∃ w', (perform o).run (p.env ev base).handle w = (match p.fault k o with
      | none => ((p.env ev base).effect o w).1
      | some (e, _) => .error e, w') ∧ Quietly tenant stepId w w' := by
  subst hk
  have hfault : (p.env ev base).faultOf o w = p.fault (w.trace.length - base) o := by
    cases o with
    | dispatchNodeType r n c x => exact absurd rfl (hd r n c x)
    | _ => rfl
  rw [Prog.run_perform]
  unfold Env.handle
  rw [hfault]
  rcases p.fault (w.trace.length - base) o with _ | ⟨e, _ | _⟩
  · exact ⟨_, rfl, hq.tick _⟩
  · exact ⟨_, rfl, (Quietly.refl w).tick _⟩
  · exact ⟨_, rfl, hq.tick _⟩

theorem Script.yields_seq {prog prog' : M Unit} {w : World} {out out' : Option PyError}
    (h : p.Yields ev base tenant stepId prog w out)
    (h' : ∀ w', Quietly tenant stepId w w' → p.Yields ev base tenant stepId prog' w' out') :
    p.Yields ev base tenant stepId (prog >>= fun _ => prog') w (out.or out') := by
  obtain ⟨w₁, hrun, hq⟩ := h
  cases out with
  | some e => exact ⟨w₁, Prog.run_bind_error _ hrun, hq⟩
  | none =>
    obtain ⟨w₂, hrun', hq'⟩ := h' w₁ hq
    exact ⟨w₂, (Prog.run_bind_ok _ hrun).trans hrun', hq.trans hq'⟩

theorem Script.yields_of_run {prog : M Unit} {w : World} {f : Option (PyError × Bool)}
    (h : ∃ w', prog.run (p.env ev base).handle w = (match f with
      | none => .ok ()
      | some (e, _) => .error e, w') ∧ Quietly tenant stepId w w') :
    p.Yields ev base tenant stepId prog w (f.map (·.1)) := by
  obtain ⟨w', hrun, hq⟩ := h
  refine ⟨w', ?_, hq⟩
  rw [hrun]
  cases f <;> rfl

theorem Script.yields_ret (w : World) : p.Yields ev base tenant stepId (pure ()) w none :=
  ⟨w, rfl, .refl w⟩

theorem Script.errorOf_cons (k : ℕ) (o : Op) (calls : List Op) :
    p.errorOf k (o :: calls) = ((p.fault k o).map (·.1)).or (p.errorOf k calls) := by
  unfold errorOf
  rw [List.findSome?_cons]
  cases p.fault k o <;> rfl

theorem Script.errorOf_nil (k : ℕ) : p.errorOf k [] = none := rfl

theorem Script.errorOf_append (k : ℕ) (calls calls' : List Op) :
    p.errorOf k (calls ++ calls') = (p.errorOf k calls).or (p.errorOf k calls') :=
  List.findSome?_append

/-- A single call, as a list of calls. -/
theorem Script.errorOf_singleton (k : ℕ) (o : Op) :
    p.errorOf k [o] = (p.fault k o).map (·.1) := by
  rw [errorOf_cons, errorOf_nil, Option.or_none]

theorem Script.yields_settle {w : World} {k : ℕ} (hk : w.trace.length - base = k)
    (res : DispatchResult) : p.Yields ev base tenant stepId (settle tenant node stepId res) w
      (p.errorOf k (settlingCalls tenant node stepId res)) := by
  unfold settle settlingCalls
  rw [errorOf_append]
  refine yields_seq ?_ fun w₁ h₁ => ?_
  · unfold closeCircuit
    cases node.connection? with
    | none => exact yields_ret w
    | some c =>
      rw [errorOf_cons, errorOf_cons, errorOf_singleton]
      refine yields_seq (yields_of_run (run_call hk (by simp) (.refl w))) fun w₁ h₁ => ?_
      rw [← h₁.trace] at hk
      refine yields_seq (yields_of_run (run_call hk (by simp) (.refl w₁))) fun w₂ h₂ => ?_
      rw [← h₂.trace] at hk
      exact yields_of_run (run_call hk (by simp) (.refl w₂))
  · rw [← h₁.trace] at hk
    rw [errorOf_cons, errorOf_singleton]
    refine yields_seq (yields_of_run (run_call hk (by simp)
      (quietly_updateStep w₁ (by simp) _ _ _))) fun w₂ h₂ => ?_
    rw [← h₂.trace] at hk
    exact yields_of_run (run_call hk (by simp) (.refl w₂))

/-- A call that answers `x`, and then the rest. -/
theorem Script.yields_call {o : Op} {f : o.Res → M Unit} {x : o.Res} {w : World} {k : ℕ}
    {out : Option PyError} (hk : w.trace.length - base = k)
    (hd : ∀ r n c x, o ≠ .dispatchNodeType r n c x) (hx : (p.env ev base).effect o w = (.ok x, w))
    (hf : ∀ w', w'.trace.length - base = k → p.Yields ev base tenant stepId (f x) w' out) :
    p.Yields ev base tenant stepId (perform o >>= f) w (((p.fault k o).map (·.1)).or out) := by
  have hq : Quietly tenant stepId w ((p.env ev base).effect o w).2 := by
    rw [hx]
    exact .refl w
  obtain ⟨w₁, hrun, h₁⟩ := run_call hk hd hq
  cases hfault : p.fault k o with
  | some f =>
    rw [hfault] at hrun
    exact ⟨w₁, Prog.run_bind_error _ hrun, h₁⟩
  | none =>
    rw [hfault, hx] at hrun
    obtain ⟨w₂, hrun₂, h₂⟩ := hf w₁ (by rw [h₁.trace]; exact hk)
    refine ⟨w₂, ?_, h₁.trans h₂⟩
    rw [Prog.run_bind_ok _ hrun, hrun₂]
    rfl

theorem Script.yields_countFailure {w : World} {k : ℕ} (hk : w.trace.length - base = k)
    (c : String) (exc : PyError) :
    p.Yields ev base tenant stepId (countFailure workflowId c exc) w
      (p.errorOf k ([.recordCircuitFailure c, .recordCircuitMetric c (p.circuitFailure k)] ++
        if p.circuitFailure k = .open then [.reportTripped c workflowId exc.message] else [])) := by
  unfold countFailure
  rw [errorOf_append, errorOf_cons, errorOf_singleton, Option.or_assoc]
  refine yields_call (x := p.circuitFailure k) hk (by simp) (by rw [← hk]; rfl) fun w₁ hk₁ => ?_
  refine yields_call hk₁ (by simp) rfl fun w₂ hk₂ => ?_
  split
  · rw [errorOf_singleton]
    exact yields_of_run (run_call hk₂ (by simp) (.refl w₂))
  · exact yields_ret w₂

theorem Script.yields_onFailure {w : World} {k : ℕ} (hk : w.trace.length - base = k)
    (exc : PyError) : p.Yields ev base tenant stepId (onFailure workflowId node exc) w
      (p.errorOf k (failureCalls workflowId node (p.circuitFailure k) exc)) := by
  unfold onFailure failureCalls
  cases node.connection? with
  | none => exact yields_ret w
  | some c =>
    cases categorizeError exc with
    | transient => exact yields_countFailure hk c exc
    | permanent => exact yields_ret w
    | circuitOpen => exact yields_ret w

/-- The pause before an attempt. -/
theorem Script.yields_backoff {w : World} {k : ℕ} (hk : w.trace.length - base = k) :
    p.Yields ev base tenant stepId (backoff ev node (k + 1)) w (p.pauseError ev.unicode node k) := by
  unfold backoff pauseError
  by_cases hzero : k = 0
  · subst hzero
    exact yields_ret w
  rw [if_pos (by omega), if_neg hzero]
  refine yields_call (x := p.random k) hk (by simp) (by rw [← hk]; rfl) fun w₁ hk₁ => ?_
  cases calculateBackoff ev.unicode (k + 1) node.policy (p.random k) with
  | error e => exact ⟨w₁, rfl, .refl w₁⟩
  | ok sec => exact yields_of_run (run_call hk₁ (by simp) (.refl w₁))

/-! ## Giving up -/

/-- The calls behind the storage of the `FAILED` status. -/
def Op.Aside : Op → Prop
  | .recordSpan .. => True
  | .incDlqSize .. => True
  | .createDeadLetter .. => True
  | _ => False

theorem handle_aside {env : Env} {o : Op} (ho : o.Aside) (w : World) :
    (env.handle o w).2.steps = w.steps ∧ (env.handle o w).2.trace = w.trace := by
  have heffect : (env.effect o w).2.steps = w.steps ∧ (env.effect o w).2.trace = w.trace := by
    cases o <;> first
      | exact ho.elim
      | exact ⟨rfl, rfl⟩
  exact env.handle_induction (P := fun w' => w'.steps = w.steps ∧ w'.trace = w.trace)
    ⟨rfl, rfl⟩ heffect

/-- `update_step` with the status `FAILED`. -/
theorem Script.storeFailed_run {w : World} {k : ℕ} (hk : w.trace.length - base = k)
    (hstep : w.HasStep tenant stepId) (hunfailed : w.Unfailed stepId) (durationMs : PyFloat)
    (msg : String) :
    ∃ w', (perform (.updateStep tenant stepId .failed durationMs .null (some msg))).run
        (p.env ev base).handle w =
          (match p.fault k (.updateStep tenant stepId .failed durationMs .null (some msg)) with
            | none => .ok ()
            | some (e, _) => .error e, w') ∧ w'.trace = w.trace ∧
      ((∃ e, p.fault k (.updateStep tenant stepId .failed durationMs .null (some msg)) =
        some (e, false)) ↔ w'.Unfailed stepId) := by
  subst hk
  obtain ⟨s, hs, hid, -, hst⟩ := hasStep_updateStep hstep .failed durationMs .null (some msg)
  rw [Prog.run_perform]
  unfold Env.handle
  rw [show (p.env ev base).faultOf (.updateStep tenant stepId .failed durationMs .null (some msg))
    w = p.fault (w.trace.length - base) (.updateStep tenant stepId .failed durationMs .null
      (some msg)) from rfl]
  rcases p.fault (w.trace.length - base) (.updateStep tenant stepId .failed durationMs .null
    (some msg)) with _ | ⟨e, _ | _⟩
  · exact ⟨_, rfl, rfl, by simp, fun h => absurd hst (h s hs hid)⟩
  · exact ⟨_, rfl, rfl, fun _ => hunfailed, fun _ => ⟨e, rfl⟩⟩
  · exact ⟨_, rfl, rfl, by simp, fun h => absurd hst (h s hs hid)⟩

/-- The end of `_execute_node` behind a bookkeeping error: the step is stored as `FAILED`, unless
the calls up to its storage raise. -/
theorem Script.giveUp_run {w : World} {k : ℕ} (hk : w.trace.length - base = k)
    (hstep : w.HasStep tenant stepId) (hunfailed : w.Unfailed stepId)
    (config : List (String × Json)) (maxAttempts : ℤ) (exc : PyError) (category : ErrorCategory)
    (attempt : ℕ) :
    ∃ r w', (giveUp tenant runId workflowId node config stepId maxAttempts (some exc) category
        attempt).run (p.env ev base).handle w = (r, w') ∧ w'.trace = w.trace ∧
      (p.Unstored tenant stepId k exc.message → ∃ e, r = .error e) ∧
      (p.Unstored tenant stepId k exc.message ↔ w'.Unfailed stepId) := by
  unfold giveUp
  obtain ⟨w₁, hrun, h₁⟩ : ∃ w', (perform .elapsedMs).run (p.env ev base).handle w = _ ∧
      Quietly tenant stepId w w' := run_call hk (by simp) (.refl w)
  cases hf : p.fault k .elapsedMs with
  | some f =>
    rw [hf] at hrun
    have hun : p.Unstored tenant stepId k exc.message := Or.inl (by simp [hf])
    exact ⟨_, w₁, Prog.run_bind_error _ hrun, h₁.trace, fun _ => ⟨_, rfl⟩,
      fun _ => h₁.unfailed hunfailed, fun _ => hun⟩
  | none =>
  rw [hf] at hrun
  have hms : (p.env ev base).elapsedMs w = p.elapsedMs k := by
    rw [← hk]
    rfl
  have hun : p.Unstored tenant stepId k exc.message ↔ ∃ e, p.fault k (.updateStep tenant stepId
      .failed (p.elapsedMs k) .null (some exc.message)) = some (e, false) := by
    simp [Unstored, hf]
  have hk₁ : w₁.trace.length - base = k := by
    rw [h₁.trace]
    exact hk
  obtain ⟨w₂, hrun₂, htrace, hiff⟩ : ∃ w', (perform (.updateStep tenant stepId .failed
      (p.elapsedMs k) .null (some exc.message))).run (p.env ev base).handle w₁ = _ ∧ _ :=
    storeFailed_run hk₁ (h₁.hasStep hstep) (h₁.unfailed hunfailed) _ _
  rw [Prog.run_bind_ok _ hrun]
  change ∃ r w', Prog.run _ (perform (.updateStep tenant stepId .failed
    ((p.env ev base).elapsedMs w) .null (some exc.message)) >>= _) w₁ = (r, w') ∧ _
  rw [hms]
  rcases hu : p.fault k (.updateStep tenant stepId .failed (p.elapsedMs k) .null
    (some exc.message)) with _ | ⟨e, b⟩
  · rw [hu] at hrun₂
    rw [Prog.run_bind_ok _ hrun₂]
    -- the calls that are left do not touch the step
    have huses : Prog.Uses Op.Aside (do
        perform (.recordSpan (spanName node) false)
        perform (.incDlqSize tenant)
        perform (.createDeadLetter tenant runId node workflowId exc.message category
          (min attempt maxAttempts) config)
        return StepResult.failure exc.message : M StepResult) :=
      .bind (.perform trivial) fun _ => .bind (.perform trivial) fun _ =>
        .bind (.perform trivial) fun _ => .ret _
    obtain ⟨hsteps, htrace'⟩ := huses.run_induction (p.env ev base).handle
      (I := fun w' => w'.steps = w₂.steps ∧ w'.trace = w₂.trace)
      (fun o w' ho hw' => ⟨(handle_aside ho w').1.trans hw'.1, (handle_aside ho w').2.trans hw'.2⟩)
      (s := w₂) ⟨rfl, rfl⟩
    have hsame : ∀ w' : World, w'.steps = w₂.steps → (w'.Unfailed stepId ↔ w₂.Unfailed stepId) :=
      fun w' hw' => by rw [World.Unfailed, hw', World.Unfailed]
    refine ⟨_, _, Prod.mk.eta.symm, htrace'.trans (htrace.trans h₁.trace), fun h => ?_,
      (hun.trans hiff).trans (hsame _ hsteps).symm⟩
    obtain ⟨e, he⟩ := hun.1 h
    rw [hu] at he
    cases he
  · rw [hu] at hrun₂
    exact ⟨_, w₂, Prog.run_bind_error _ hrun₂, htrace.trans h₁.trace, fun _ => ⟨e, rfl⟩,
      hun.trans hiff⟩

/-! ## The loop -/

/-- No dispatch of the node among the events succeeded. -/
def NoSuccess (runId nodeId : String) (es : List Event) : Prop :=
  ∀ config context, .dispatched runId nodeId config context true ∉ es

section Trace

variable {nodeId : String} {w w' : World} {es : List Event} {r : Except PyError StepResult}
  {config : List (String × Json)} {context : Context}

theorem keepsSuccess_of_none (htrace : w'.trace = w.trace ++ es) (hes : NoSuccess runId nodeId es) :
    KeepsSuccess runId nodeId w r w' := by
  intro pre post config context h
  rw [htrace, List.append_assoc] at h
  have hsplit := List.append_cancel_left h
  exact absurd (by simp [hsplit]) (hes config context)

/-- With the last dispatch as the only successful one, it is the step's status that matters. -/
theorem keepsSuccess_of_last (hes : NoSuccess runId nodeId es)
    (htrace : w'.trace = w.trace ++ (es ++ [.dispatched runId nodeId config context true])) :
    KeepsSuccess runId nodeId w r w' ↔
      (∀ error, r ≠ .ok (.failure error)) ∧ w'.Unfailed w.steps.fresh := by
  constructor
  · intro h
    exact (h es [] config context (by rw [htrace, List.append_assoc])).2
  · intro h pre post config' context' hsplit
    refine ⟨?_, h⟩
    rw [htrace, List.append_assoc] at hsplit
    have hsplit := List.append_cancel_left hsplit
    rcases List.append_eq_append_iff.1 hsplit with ⟨l, rfl, hl⟩ | ⟨l, rfl, hl⟩
    · cases l with
      | nil => exact (List.cons.inj hl).2.symm
      | cons e l => simp at hl
    · cases l with
      | nil => exact (List.cons.inj hl).2
      | cons e l =>
        rw [List.cons_append] at hl
        exact absurd (by simp [(List.cons.inj hl).1]) (hes config' context')

/-- A dispatch behind a successful one. -/
theorem not_keepsSuccess_of_more {e : Event}
    (htrace : w.trace ++ (es ++ [.dispatched runId nodeId config context true, e]) <+: w'.trace) :
    ¬ KeepsSuccess runId nodeId w r w' := by
  intro h
  obtain ⟨rest, hrest⟩ := htrace
  have := (h es (e :: rest) config context (by simp [← hrest])).1
  cases this

end Trace

/-- The end of `_execute_node` behind the loop. -/
def afterLoop (tenant runId workflowId : String) (node : WorkflowNode)
    (config : List (String × Json)) (stepId : ℕ) (max : ℤ) : RetryOutcome → M StepResult
  | .done res => return .success res.output res.durationMs
  | .gaveUp lastError lastCategory attempt =>
    giveUp tenant runId workflowId node config stepId max lastError lastCategory attempt

/-- Behind a dispatch, in the world `w` that its log entry leaves. -/
theorem run_tryNode {w : World} {k : ℕ} (hk : w.trace.length - base = k)
    (config : List (String × Json)) (context : Context) :
    (tryNode tenant runId node config context stepId).run (p.env ev base).handle w =
      (match p.dispatch k with
        | .error e => .throw e
        | .ok res => do
          settle tenant node stepId res
          return res : M DispatchResult).run (p.env ev base).handle
        { w.log (.dispatched runId node.id config context (p.dispatch k).isOk) with
          tick := w.tick + 1 } := by
  subst hk
  unfold tryNode
  rw [Prog.run_bind, Prog.run_perform]
  have hhandle : (p.env ev base).handle (.dispatchNodeType runId node config context) w =
      (p.dispatch (w.trace.length - base), { w.log (.dispatched runId node.id config context
        (p.dispatch (w.trace.length - base)).isOk) with tick := w.tick + 1 }) := rfl
  rw [hhandle]
  cases p.dispatch (w.trace.length - base) <;> rfl

/-- A program whose calls log nothing. -/
theorem trace_of_uses {env : Env} {α : Type} {prog : M α}
    (h : Prog.Uses (fun o => ∀ w, (env.effect o w).2.trace = w.trace) prog) (w : World) :
    (prog.run env.handle w).2.trace = w.trace := by
  refine h.run_induction env.handle (I := fun w' => w'.trace = w.trace) (fun o w' ho hw' => ?_) rfl
  exact env.handle_induction (P := fun w' => w'.trace = w.trace) hw' ((ho w').trans hw')

theorem giveUp_trace (env : Env) (w : World) (config : List (String × Json)) (max : ℤ)
    (lastError : Option PyError) (category : ErrorCategory) (attempt : ℕ) :
    ((giveUp tenant runId workflowId node config stepId max lastError category attempt).run
      env.handle w).2.trace = w.trace := by
  refine trace_of_uses ?_ w
  unfold giveUp
  refine .bind (.perform fun _ => rfl) fun _ => .bind (.perform fun _ => rfl) fun _ => ?_
  refine .bind (.perform fun _ => rfl) fun _ => .bind (.perform fun _ => rfl) fun _ => ?_
  exact .bind (.perform fun _ => rfl) fun _ => .ret _

theorem failFast_trace (env : Env) (w : World) (config : List (String × Json))
    (connectionId : String) :
    ((failFast tenant runId workflowId node config stepId connectionId).run
      env.handle w).2.trace = w.trace := by
  refine trace_of_uses ?_ w
  unfold failFast
  refine .bind (.perform fun _ => rfl) fun _ => .bind (.perform fun _ => rfl) fun _ => ?_
  exact .bind (.perform fun _ => rfl) fun _ => .ret _

/-- The world between two attempts: so many dispatches, and a step that is not `FAILED`. -/
structure Midway (tenant runId : String) (node : WorkflowNode) (w₀ w : World) (es : List Event) :
    Prop where
  trace : w.trace = w₀.trace ++ es
  hasStep : w.HasStep tenant w₀.steps.fresh
  unfailed : w.Unfailed w₀.steps.fresh

theorem Midway.index {w₀ w : World} {es : List Event} (h : Midway tenant runId node w₀ w es) :
    w.trace.length - w₀.trace.length = es.length := by
  rw [h.trace, List.length_append]
  omega

theorem Midway.quietly {w₀ w w' : World} {es : List Event} (h : Midway tenant runId node w₀ w es)
    (hq : Quietly tenant w₀.steps.fresh w w') : Midway tenant runId node w₀ w' es :=
  ⟨hq.trace.trans h.trace, hq.hasStep h.hasStep, hq.unfailed h.unfailed⟩

/-- What `_execute_node` does behind the exception `exc` of its `k`-th attempt, with `left` attempts
left. -/
def afterError (ev : Evaluator) (tenant runId workflowId : String) (node : WorkflowNode)
    (config : List (String × Json)) (context : Context) (stepId : ℕ) (max : ℤ) (left k : ℕ)
    (exc : PyError) : M StepResult := do
  onFailure workflowId node exc
  match categorizeError exc with
  | .transient =>
    retryLoop ev tenant runId workflowId node config context stepId left (k + 1) (some exc)
      .transient >>= afterLoop tenant runId workflowId node config stepId max
  | category => giveUp tenant runId workflowId node config stepId max (some exc) category k

theorem afterError_eq (ev : Evaluator) (tenant runId workflowId : String) (node : WorkflowNode)
    (config : List (String × Json)) (context : Context) (stepId : ℕ) (max : ℤ) (left k : ℕ)
    (exc : PyError) :
    (onFailure workflowId node exc >>= fun _ => match categorizeError exc with
      | .transient => retryLoop ev tenant runId workflowId node config context stepId left (k + 1)
          (some exc) .transient
      | category => pure (RetryOutcome.gaveUp (some exc) category k)) >>=
      afterLoop tenant runId workflowId node config stepId max =
    afterError ev tenant runId workflowId node config context stepId max left k exc := by
  rw [Prog.bind_assoc]
  unfold afterError
  cases categorizeError exc <;> rfl

section Loop

variable {w₀ w : World} {es : List Event} {k left : ℕ} {max : ℤ}
  {config : List (String × Json)} {context : Context}

/-- Behind a successful dispatch, giving up keeps the success just when nothing is stored. -/
theorem keepsSuccess_giveUp_iff (exc : PyError) (category : ErrorCategory) (attempt : ℕ)
    (h : Midway tenant runId node w₀ w (es ++ [.dispatched runId node.id config context true]))
    (hes : NoSuccess runId node.id es) (hk : es.length + 1 = k)
    {r : Except PyError StepResult} {w' : World}
    (hrun : (giveUp tenant runId workflowId node config w₀.steps.fresh max (some exc) category
      attempt).run (p.env ev w₀.trace.length).handle w = (r, w')) :
    KeepsSuccess runId node.id w₀ r w' ↔
      p.Unstored tenant w₀.steps.fresh k exc.message := by
  have hidx : w.trace.length - w₀.trace.length = k := by
    rw [h.index, List.length_append, ← hk]
    rfl
  obtain ⟨r₁, w₁, hrun₁, htrace, herr, hiff⟩ : ∃ r w', (giveUp tenant runId workflowId node config
      w₀.steps.fresh max (some exc) category attempt).run (p.env ev w₀.trace.length).handle w =
        (r, w') ∧ _ :=
    Script.giveUp_run hidx h.hasStep h.unfailed config max exc category attempt
  rw [hrun₁] at hrun
  cases hrun
  rw [keepsSuccess_of_last hes (htrace.trans h.trace), hiff]
  refine ⟨fun hkeep => hkeep.2, fun hun => ⟨fun error => ?_, hun⟩⟩
  obtain ⟨e, rfl⟩ := herr (hiff.2 hun)
  simp

/-- Behind a successful dispatch whose bookkeeping raised `exc`. -/
theorem keepsSuccess_afterError_iff (exc : PyError)
    (h : Midway tenant runId node w₀ w (es ++ [.dispatched runId node.id config context true]))
    (hes : NoSuccess runId node.id es) (hk : es.length + 1 = k) (hleft : left + k = max.toNat)
    {r : Except PyError StepResult} {w' : World}
    (hrun : (afterError ev tenant runId workflowId node config context w₀.steps.fresh max left k
      exc).run (p.env ev w₀.trace.length).handle w = (r, w')) :
    KeepsSuccess runId node.id w₀ r w' ↔
      p.Escapes ev.unicode tenant workflowId node w₀.steps.fresh max k exc := by
  have hidx : w.trace.length - w₀.trace.length = k := by
    rw [h.index, List.length_append, ← hk]
    rfl
  unfold afterError at hrun
  obtain ⟨w₁, hfail, hq⟩ : p.Yields ev w₀.trace.length tenant w₀.steps.fresh
    (onFailure workflowId node exc) w _ := Script.yields_onFailure hidx exc
  have h₁ := h.quietly hq
  unfold Script.Escapes
  cases herr : p.errorOf k (failureCalls workflowId node (p.circuitFailure k) exc) with
  | some e =>
    rw [herr] at hfail
    rw [Prog.run_bind_error _ hfail] at hrun
    cases hrun
    rw [keepsSuccess_of_last hes h₁.trace]
    simp [h₁.unfailed]
  | none =>
  rw [herr] at hfail
  rw [Prog.run_bind_ok _ hfail] at hrun
  have hescape : ∀ {q : Prop}, ((none : Option PyError) ≠ none ∨ q) ↔ q := by simp
  rw [hescape]
  cases hcat : categorizeError exc with
  | permanent =>
    rw [if_neg (by simp)]
    simp only [hcat] at hrun
    exact keepsSuccess_giveUp_iff exc _ _ h₁ hes hk hrun
  | circuitOpen =>
    rw [if_neg (by simp)]
    simp only [hcat] at hrun
    exact keepsSuccess_giveUp_iff exc _ _ h₁ hes hk hrun
  | transient =>
    simp only [hcat] at hrun
    cases left with
    | zero =>
      rw [if_neg (by omega)]
      exact keepsSuccess_giveUp_iff exc _ _ h₁ hes hk hrun
    | succ left =>
      rw [if_pos ⟨rfl, by omega⟩]
      have hidx₁ : w₁.trace.length - w₀.trace.length = k := by rw [hq.trace]; exact hidx
      obtain ⟨w₂, hpause, hq₂⟩ : p.Yields ev w₀.trace.length tenant w₀.steps.fresh
        (backoff ev node (k + 1)) w₁ _ := Script.yields_backoff hidx₁
      have h₂ := h₁.quietly hq₂
      unfold retryLoop at hrun
      rw [Prog.bind_assoc] at hrun
      cases hp : p.pauseError ev.unicode node k with
      | some e =>
        rw [hp] at hpause
        rw [Prog.run_bind_error _ hpause] at hrun
        cases hrun
        rw [keepsSuccess_of_last hes h₂.trace]
        simp [h₂.unfailed]
      | none =>
        -- the node is dispatched again
        rw [hp] at hpause
        rw [Prog.run_bind_ok _ hpause] at hrun
        have hgrow : ((p.env ev w₀.trace.length).handle
            (.dispatchNodeType runId node config context) w₂).2.trace <+: w'.trace := by
          rw [show w' = _ from (congrArg Prod.snd hrun).symm]
          exact (p.env ev w₀.trace.length).trace_extends _ _
        have hlog : ((p.env ev w₀.trace.length).handle
            (.dispatchNodeType runId node config context) w₂).2.trace =
            w₂.trace ++ [.dispatched runId node.id config context
              (p.dispatch (w₂.trace.length - w₀.trace.length)).isOk] := rfl
        rw [hlog, h₂.trace, List.append_assoc, List.append_assoc] at hgrow
        simp only [ne_eq, not_true_eq_false, iff_false]
        exact not_keepsSuccess_of_more hgrow

/-- The bookkeeping of the dispatch behind `i` others raises nothing, or another exception saves
the success. -/
def Script.Spared (p : Script) (u : Unicode) (tenant workflowId : String) (node : WorkflowNode)
    (stepId : ℕ) (max : ℤ) (i : ℕ) (res : DispatchResult) : Prop :=
  ∀ exc, p.errorOf (i + 1) (settlingCalls tenant node stepId res) = some exc →
    p.Escapes u tenant workflowId node stepId max (i + 1) exc

/-- The attempts from the `k`-th on get as far as the `i`-th. -/
def Script.ReachesFrom (p : Script) (u : Unicode) (workflowId : String) (node : WorkflowNode)
    (k i : ℕ) : Prop :=
  p.pauseError u node k = none ∧ ∀ j, k ≤ j → j < i → ∃ exc, p.dispatch j = .error exc ∧
    categorizeError exc = .transient ∧
    p.errorOf (j + 1) (failureCalls workflowId node (p.circuitFailure (j + 1)) exc) = none ∧
    p.pauseError u node (j + 1) = none

/-- Whatever dispatch succeeds first from the `k`-th attempt on, its success is spared. -/
def Script.SparedFrom (p : Script) (u : Unicode) (tenant workflowId : String) (node : WorkflowNode)
    (stepId : ℕ) (max : ℤ) (k : ℕ) : Prop :=
  ∀ i res, k ≤ i → i < max.toNat → p.ReachesFrom u workflowId node k i → p.dispatch i = .ok res →
    p.Spared u tenant workflowId node stepId max i res

/-- An attempt that is tried again. -/
theorem Script.sparedFrom_succ_iff {u : Unicode} {stepId : ℕ} {exc : PyError}
    (hp : p.pauseError u node k = none) (hd : p.dispatch k = .error exc)
    (hcat : categorizeError exc = .transient)
    (herr : p.errorOf (k + 1) (failureCalls workflowId node (p.circuitFailure (k + 1)) exc) =
      none) :
    p.SparedFrom u tenant workflowId node stepId max k ↔
      p.SparedFrom u tenant workflowId node stepId max (k + 1) := by
  constructor
  · intro h i res hki hi hreach hres
    refine h i res (by omega) hi ⟨hp, fun j hkj hji => ?_⟩ hres
    rcases Nat.eq_or_lt_of_le hkj with rfl | hlt
    · exact ⟨exc, hd, hcat, herr, hreach.1⟩
    · exact hreach.2 j hlt hji
  · intro h i res hki hi hreach hres
    rcases Nat.eq_or_lt_of_le hki with rfl | hlt
    · rw [hd] at hres
      cases hres
    · obtain ⟨-, -, -, -, hpause⟩ := hreach.2 k le_rfl hlt
      exact h i res hlt hi ⟨hpause, fun j hkj hji => hreach.2 j (by omega) hji⟩ hres

/-- An attempt that fails for good. -/
theorem Script.sparedFrom_of_error {u : Unicode} {stepId : ℕ} {exc : PyError}
    (hd : p.dispatch k = .error exc)
    (hstop : categorizeError exc = .transient →
      p.errorOf (k + 1) (failureCalls workflowId node (p.circuitFailure (k + 1)) exc) ≠ none) :
    p.SparedFrom u tenant workflowId node stepId max k := by
  intro i res hki _ hreach hres
  rcases Nat.eq_or_lt_of_le hki with rfl | hlt
  · rw [hd] at hres
    cases hres
  · obtain ⟨exc', hexc', hcat, herr, -⟩ := hreach.2 k le_rfl hlt
    obtain rfl := Except.error.inj (hd.symm.trans hexc')
    exact absurd herr (hstop hcat)

/-- An attempt that succeeds. -/
theorem Script.sparedFrom_of_ok {u : Unicode} {stepId : ℕ} {res : DispatchResult}
    (hp : p.pauseError u node k = none) (hk : k < max.toNat) (hd : p.dispatch k = .ok res) :
    p.SparedFrom u tenant workflowId node stepId max k ↔
      p.Spared u tenant workflowId node stepId max k res := by
  constructor
  · intro h
    exact h k res le_rfl hk ⟨hp, fun j hkj hjk => absurd hjk (by omega)⟩ hd
  · intro h i res' hki _ hreach hres
    rcases Nat.eq_or_lt_of_le hki with rfl | hlt
    · obtain rfl := Except.ok.inj (hd.symm.trans hres)
      exact h
    · obtain ⟨exc, hexc, -⟩ := hreach.2 k le_rfl hlt
      rw [hd] at hexc
      cases hexc

/-- One attempt whose dispatch succeeds. -/
theorem keepsSuccess_ok_iff {res : DispatchResult}
    (h : Midway tenant runId node w₀ w (es ++ [.dispatched runId node.id config context true]))
    (hes : NoSuccess runId node.id es) (hk : es.length = k) (hleft : left + 1 + k = max.toNat)
    {r : Except PyError StepResult} {w' : World}
    (hok : ∀ w₁, (settle tenant node w₀.steps.fresh res).run (p.env ev w₀.trace.length).handle w =
      (.ok (), w₁) → r = .ok (.success res.output res.durationMs) ∧ w' = w₁)
    (herr : ∀ exc w₁, (settle tenant node w₀.steps.fresh res).run
      (p.env ev w₀.trace.length).handle w = (.error exc, w₁) →
      (afterError ev tenant runId workflowId node config context w₀.steps.fresh max left (k + 1)
        exc).run (p.env ev w₀.trace.length).handle w₁ = (r, w')) :
    KeepsSuccess runId node.id w₀ r w' ↔
      p.Spared ev.unicode tenant workflowId node w₀.steps.fresh max k res := by
  have hidx : w.trace.length - w₀.trace.length = k + 1 := by
    rw [h.index, List.length_append, hk]
    rfl
  obtain ⟨w₁, hset, hq⟩ : p.Yields ev w₀.trace.length tenant w₀.steps.fresh
    (settle tenant node w₀.steps.fresh res) w _ := Script.yields_settle hidx res
  have h₁ := h.quietly hq
  unfold Script.Spared
  cases hs : p.errorOf (k + 1) (settlingCalls tenant node w₀.steps.fresh res) with
  | none =>
    rw [hs] at hset
    obtain ⟨rfl, rfl⟩ := hok w₁ hset
    rw [keepsSuccess_of_last hes h₁.trace]
    exact ⟨fun _ => nofun, fun _ => ⟨fun error => by simp, h₁.unfailed⟩⟩
  | some exc =>
    rw [hs] at hset
    rw [keepsSuccess_afterError_iff exc h₁ hes (by rw [hk]) (by omega) (herr exc w₁ hset)]
    simp

/-- One attempt whose dispatch fails. -/
theorem keepsSuccess_error_iff {exc : PyError} (hp : p.pauseError ev.unicode node k = none)
    (hd : p.dispatch k = .error exc)
    (h : Midway tenant runId node w₀ w (es ++ [.dispatched runId node.id config context false]))
    (hes : NoSuccess runId node.id es) (hk : es.length = k)
    {r : Except PyError StepResult} {w' : World}
    (hrun : (afterError ev tenant runId workflowId node config context w₀.steps.fresh max left
      (k + 1) exc).run (p.env ev w₀.trace.length).handle w = (r, w'))
    (ih : ∀ w₁ es₁, Midway tenant runId node w₀ w₁ es₁ → NoSuccess runId node.id es₁ →
      es₁.length = k + 1 →
      (retryLoop ev tenant runId workflowId node config context w₀.steps.fresh left (k + 1 + 1)
        (some exc) .transient >>= afterLoop tenant runId workflowId node config w₀.steps.fresh
          max).run (p.env ev w₀.trace.length).handle w₁ = (r, w') →
      (KeepsSuccess runId node.id w₀ r w' ↔
        p.SparedFrom ev.unicode tenant workflowId node w₀.steps.fresh max (k + 1))) :
    KeepsSuccess runId node.id w₀ r w' ↔
      p.SparedFrom ev.unicode tenant workflowId node w₀.steps.fresh max k := by
  have hidx : w.trace.length - w₀.trace.length = k + 1 := by
    rw [h.index, List.length_append, hk]
    rfl
  have hes₁ : NoSuccess runId node.id
      (es ++ [.dispatched runId node.id config context false]) := by
    intro config' context' hmem
    rcases List.mem_append.1 hmem with hmem | hmem
    · exact hes config' context' hmem
    · simp at hmem
  unfold afterError at hrun
  obtain ⟨w₁, hfail, hq⟩ : p.Yields ev w₀.trace.length tenant w₀.steps.fresh
    (onFailure workflowId node exc) w _ := Script.yields_onFailure hidx exc
  have h₁ := h.quietly hq
  cases herr : p.errorOf (k + 1) (failureCalls workflowId node (p.circuitFailure (k + 1)) exc) with
  | some e =>
    rw [herr] at hfail
    rw [Prog.run_bind_error _ hfail] at hrun
    cases hrun
    refine ⟨fun _ => Script.sparedFrom_of_error hd fun _ => ?_, fun _ =>
      keepsSuccess_of_none h₁.trace hes₁⟩
    rw [herr]
    simp
  | none =>
  rw [herr] at hfail
  rw [Prog.run_bind_ok _ hfail] at hrun
  -- a category that is not tried again
  have hgive : ∀ category, categorizeError exc ≠ .transient → (giveUp tenant runId workflowId node
      config w₀.steps.fresh max (some exc) category (k + 1)).run (p.env ev w₀.trace.length).handle
        w₁ = (r, w') → (KeepsSuccess runId node.id w₀ r w' ↔
      p.SparedFrom ev.unicode tenant workflowId node w₀.steps.fresh max k) := by
    intro category hne hrun
    have htrace : w'.trace = w₁.trace := by
      rw [show w' = _ from (congrArg Prod.snd hrun).symm]
      exact giveUp_trace _ w₁ config max (some exc) category (k + 1)
    exact ⟨fun _ => Script.sparedFrom_of_error hd fun hcat => absurd hcat hne,
      fun _ => keepsSuccess_of_none (htrace.trans h₁.trace) hes₁⟩
  cases hcat : categorizeError exc with
  | transient =>
    simp only [hcat] at hrun
    rw [Script.sparedFrom_succ_iff hp hd hcat herr]
    exact ih w₁ _ h₁ hes₁ (by simp [hk]) hrun
  | permanent =>
    simp only [hcat] at hrun
    exact hgive _ (by simp [hcat]) hrun
  | circuitOpen =>
    simp only [hcat] at hrun
    exact hgive _ (by simp [hcat]) hrun

/-- The loop, before a dispatch succeeded. -/
theorem keepsSuccess_loop_iff (lastError : Option PyError) (lastCategory : ErrorCategory)
    (h : Midway tenant runId node w₀ w es) (hes : NoSuccess runId node.id es)
    (hk : es.length = k) (hleft : left + k = max.toNat)
    {r : Except PyError StepResult} {w' : World}
    (hrun : (retryLoop ev tenant runId workflowId node config context w₀.steps.fresh left (k + 1)
      lastError lastCategory >>= afterLoop tenant runId workflowId node config w₀.steps.fresh
        max).run (p.env ev w₀.trace.length).handle w = (r, w')) :
    KeepsSuccess runId node.id w₀ r w' ↔
      p.SparedFrom ev.unicode tenant workflowId node w₀.steps.fresh max k := by
  induction left generalizing w es k lastError lastCategory with
  | zero =>
    have htrace : w'.trace = w.trace := by
      rw [show w' = _ from (congrArg Prod.snd hrun).symm]
      exact giveUp_trace _ w config max lastError lastCategory (k + 1)
    refine ⟨fun _ i res hki hi => absurd hi (by omega), fun _ => ?_⟩
    exact keepsSuccess_of_none (htrace.trans h.trace) hes
  | succ left ih =>
  have hidx : w.trace.length - w₀.trace.length = k := by rw [h.index, hk]
  obtain ⟨w₁, hpause, hq₁⟩ : p.Yields ev w₀.trace.length tenant w₀.steps.fresh
    (backoff ev node (k + 1)) w _ := Script.yields_backoff hidx
  have h₁ := h.quietly hq₁
  unfold retryLoop at hrun
  rw [Prog.bind_assoc] at hrun
  cases hp : p.pauseError ev.unicode node k with
  | some e =>
    rw [hp] at hpause
    rw [Prog.run_bind_error _ hpause] at hrun
    cases hrun
    refine ⟨fun _ i res _ _ hreach => ?_, fun _ => keepsSuccess_of_none h₁.trace hes⟩
    rw [hreach.1] at hp
    cases hp
  | none =>
  rw [hp] at hpause
  rw [Prog.run_bind_ok _ hpause, Prog.bind_assoc, Prog.run_bind, Prog.run_attempt,
    run_tryNode (hq₁.trace ▸ hidx)] at hrun
  -- the world that the dispatch leaves
  set w₂ : World := { w₁.log (.dispatched runId node.id config context (p.dispatch k).isOk) with
    tick := w₁.tick + 1 } with hw₂
  have h₂ : Midway tenant runId node w₀ w₂
      (es ++ [.dispatched runId node.id config context (p.dispatch k).isOk]) := by
    refine ⟨?_, h₁.hasStep, h₁.unfailed⟩
    rw [hw₂, ← List.append_assoc, ← h₁.trace]
    rfl
  cases hd : p.dispatch k with
  | ok res =>
    rw [hd] at hrun h₂
    rw [Script.sparedFrom_of_ok hp (by omega) hd]
    refine keepsSuccess_ok_iff h₂ hes hk hleft (fun w₃ hset => ?_) fun exc w₃ hset => ?_
    · simp only [Prog.run_bind_ok _ hset, Prog.run_pure] at hrun
      exact ⟨(congrArg Prod.fst hrun).symm, (congrArg Prod.snd hrun).symm⟩
    · simp only [Prog.run_bind_error _ hset] at hrun
      rw [← afterError_eq]
      exact hrun
  | error exc =>
    rw [hd] at hrun h₂
    have hafter : (afterError ev tenant runId workflowId node config context w₀.steps.fresh max
        left (k + 1) exc).run (p.env ev w₀.trace.length).handle w₂ = (r, w') := by
      rw [← afterError_eq]
      exact hrun
    exact keepsSuccess_error_iff hp hd h₂ hes hk hafter fun w₃ es₃ h₃ hes₃ hk₃ hrun₃ =>
      ih _ _ h₃ hes₃ hk₃ (by omega) hrun₃

end Loop

/-! ## `_execute_node` -/

theorem Script.reachesFrom_zero {u : Unicode} {i : ℕ} :
    p.ReachesFrom u workflowId node 0 i ↔ p.Reaches u workflowId node i :=
  ⟨fun h j hj => h.2 j (Nat.zero_le j) hj, fun h => ⟨rfl, fun j _ hj => h j hj⟩⟩

theorem runAttempts_eq (config : List (String × Json)) (context : Context) {max : ℤ}
    (hmax : node.policy.maxAttempts ev.unicode = .ok max) :
    runAttempts ev tenant runId workflowId node config context stepId =
      retryLoop ev tenant runId workflowId node config context stepId max.toNat 1 none .transient >>=
        afterLoop tenant runId workflowId node config stepId max := by
  unfold runAttempts
  rw [hmax]
  refine congrArg (retryLoop ev tenant runId workflowId node config context stepId max.toNat 1 none
    .transient >>= ·) (funext fun out => ?_)
  cases out <;> rfl

/-- The attempts of `_execute_node`, from a world in which the step was recorded. -/
theorem keepsSuccess_runAttempts_iff {w₀ w : World} (config : List (String × Json))
    (context : Context) (h : Midway tenant runId node w₀ w []) :
    KeepsSuccess runId node.id w₀
      ((runAttempts ev tenant runId workflowId node config context w₀.steps.fresh).run
        (p.env ev w₀.trace.length).handle w).1
      ((runAttempts ev tenant runId workflowId node config context w₀.steps.fresh).run
        (p.env ev w₀.trace.length).handle w).2 ↔
      ∀ max, node.policy.maxAttempts ev.unicode = .ok max →
        p.SparedFrom ev.unicode tenant workflowId node w₀.steps.fresh max 0 := by
  cases hmax : node.policy.maxAttempts ev.unicode with
  | error e =>
    refine ⟨fun _ max => nofun, fun _ => ?_⟩
    unfold runAttempts
    rw [hmax]
    exact keepsSuccess_of_none h.trace fun _ _ => List.not_mem_nil
  | ok max =>
    rw [runAttempts_eq config context hmax]
    rcases hrun : (retryLoop ev tenant runId workflowId node config context w₀.steps.fresh max.toNat
      1 none .transient >>= afterLoop tenant runId workflowId node config w₀.steps.fresh max).run
        (p.env ev w₀.trace.length).handle w with ⟨r, w'⟩
    have hloop := keepsSuccess_loop_iff (k := 0) none .transient h (fun _ _ => List.not_mem_nil) rfl
      (Nat.add_zero max.toNat) hrun
    exact hloop.trans ⟨fun h max' hmax' => Except.ok.inj hmax' ▸ h, fun h => h max rfl⟩

/-- The world in which the step was recorded. -/
theorem midway_recordStep (w : World) (inputSnapshot : List (String × Json)) :
    Midway tenant runId node w { w.recordStep tenant runId node .running inputSnapshot with
      tick := w.tick + 1 } [] where
  trace := (List.append_nil _).symm
  hasStep := by
    refine ⟨World.newStep tenant runId node .running inputSnapshot w.steps.fresh, ?_, rfl, rfl⟩
    exact List.mem_append_right _ (List.mem_singleton.2 rfl)
  unfailed := by
    intro s hs hid
    rcases List.mem_append.1 (show s ∈ w.steps.rows ++ [_] from hs) with hs | hs
    · exact absurd (List.mem_map.2 ⟨s, hs, hid⟩) w.steps.fresh_not_mem
    · rw [List.mem_singleton.1 hs]
      simp [World.newStep]

/-- `_execute_node` behind the record of its step. -/
theorem keepsSuccess_executeStep_iff {w₀ w : World} {config : List (String × Json)}
    (context : Context) (hrec : p.fault 0 (.recordStep tenant runId node .running config) = none)
    (hnone : ∀ {r : Except PyError StepResult} {w' : World}, w'.trace = w₀.trace →
      (∀ max, ¬ p.Begins ev.unicode tenant runId node config max) →
      (KeepsSuccess runId node.id w₀ r w' ↔
        ∀ max, p.Begins ev.unicode tenant runId node config max → ∀ i res, i < max.toNat →
          p.Reaches ev.unicode workflowId node i → p.dispatch i = .ok res →
          p.Spared ev.unicode tenant workflowId node w₀.steps.fresh max i res))
    (h : Midway tenant runId node w₀ w []) :
    KeepsSuccess runId node.id w₀
      ((executeStep ev tenant runId workflowId node config context w₀.steps.fresh).run
        (p.env ev w₀.trace.length).handle w).1
      ((executeStep ev tenant runId workflowId node config context w₀.steps.fresh).run
        (p.env ev w₀.trace.length).handle w).2 ↔
      ∀ max, p.Begins ev.unicode tenant runId node config max → ∀ i res, i < max.toNat →
        p.Reaches ev.unicode workflowId node i → p.dispatch i = .ok res →
        p.Spared ev.unicode tenant workflowId node w₀.steps.fresh max i res := by
  -- the attempts are made under the conditions of `Begins`
  have hattempts : ∀ {w₁}, Midway tenant runId node w₀ w₁ [] →
      (∀ c, node.connection? = some c → p.fault 0 (.getCircuitBreakerState c) = none ∧
        p.circuitState ≠ .open) →
      (KeepsSuccess runId node.id w₀
        ((runAttempts ev tenant runId workflowId node config context w₀.steps.fresh).run
          (p.env ev w₀.trace.length).handle w₁).1
        ((runAttempts ev tenant runId workflowId node config context w₀.steps.fresh).run
          (p.env ev w₀.trace.length).handle w₁).2 ↔
        ∀ max, p.Begins ev.unicode tenant runId node config max → ∀ i res, i < max.toNat →
          p.Reaches ev.unicode workflowId node i → p.dispatch i = .ok res →
          p.Spared ev.unicode tenant workflowId node w₀.steps.fresh max i res) := by
    intro w₁ h₁ hbreaker
    rw [keepsSuccess_runAttempts_iff config context h₁]
    constructor
    · intro hall max hbegins i res hi hreach hres
      exact hall max hbegins.2.2 i res (Nat.zero_le i) hi (Script.reachesFrom_zero.2 hreach) hres
    · intro hall max hmax i res _ hi hreach hres
      exact hall max ⟨hrec, hbreaker, hmax⟩ i res hi (Script.reachesFrom_zero.1 hreach) hres
  unfold executeStep
  cases hc : node.connection? with
  | none => exact hattempts h fun c hc' => by rw [hc] at hc'; cases hc'
  | some c =>
    have hidx : w.trace.length - w₀.trace.length = 0 := h.index
    obtain ⟨w₁, hrun, hq⟩ : ∃ w', (perform (.getCircuitBreakerState c)).run
        (p.env ev w₀.trace.length).handle w = _ ∧ Quietly tenant w₀.steps.fresh w w' :=
      Script.run_call hidx (by simp) (.refl w)
    have h₁ := h.quietly hq
    have htrace₁ : w₁.trace = w₀.trace := h₁.trace.trans (List.append_nil _)
    simp only
    cases hf : p.fault 0 (.getCircuitBreakerState c) with
    | some f =>
      rw [hf] at hrun
      rw [Prog.run_bind_error _ hrun]
      exact hnone htrace₁ fun max hb => by cases hf.symm.trans (hb.2.1 c hc).1
    | none =>
      rw [hf] at hrun
      rw [Prog.run_bind_ok _ hrun]
      have hbreaker : p.circuitState ≠ .open → ∀ c', node.connection? = some c' →
          p.fault 0 (.getCircuitBreakerState c') = none ∧ p.circuitState ≠ .open := by
        intro hne c' hc'
        cases hc.symm.trans hc'
        exact ⟨hf, hne⟩
      have hanswer : (p.env ev w₀.trace.length).circuitState w c = p.circuitState := rfl
      cases hstate : p.circuitState with
      | «open» =>
        rw [hstate] at hanswer
        rw [hanswer]
        refine hnone ((failFast_trace _ w₁ config c).trans htrace₁) fun max hb => ?_
        exact (hb.2.1 c hc).2 hstate
      | closed =>
        rw [hstate] at hanswer
        rw [hanswer]
        exact hattempts h₁ (hbreaker (by simp [hstate]))
      | halfOpen =>
        rw [hstate] at hanswer
        rw [hanswer]
        exact hattempts h₁ (hbreaker (by simp [hstate]))

/-- **When `_execute_node` keeps a success**: exactly when, behind the first dispatch that
succeeds, no bookkeeping call raises, or a second exception comes before the next dispatch or
before the step is stored as `FAILED`. -/
theorem keepsSuccess_iff (p : Script) (ev : Evaluator) (tenant runId workflowId : String)
    (node : WorkflowNode) (context : Context) (w : World) :
    KeepsSuccess runId node.id w
      ((executeNode ev tenant runId workflowId node context).run
        (p.env ev w.trace.length).handle w).1
      ((executeNode ev tenant runId workflowId node context).run
        (p.env ev w.trace.length).handle w).2 ↔
      ∀ max, p.Begins ev.unicode tenant runId node (resolveConfig ev.unicode node context) max →
        ∀ i res, i < max.toNat → p.Reaches ev.unicode workflowId node i → p.dispatch i = .ok res →
          p.Spared ev.unicode tenant workflowId node w.steps.fresh max i res := by
  set config := resolveConfig ev.unicode node context with hconfig
  -- where the attempts are not reached, nothing is dispatched
  have hnone : ∀ {r : Except PyError StepResult} {w' : World}, w'.trace = w.trace →
      (∀ max, ¬ p.Begins ev.unicode tenant runId node config max) →
      (KeepsSuccess runId node.id w r w' ↔
        ∀ max, p.Begins ev.unicode tenant runId node config max → ∀ i res, i < max.toNat →
          p.Reaches ev.unicode workflowId node i → p.dispatch i = .ok res →
          p.Spared ev.unicode tenant workflowId node w.steps.fresh max i res) :=
    fun htrace hnot => ⟨fun _ max hbegins => absurd hbegins (hnot max), fun _ =>
      keepsSuccess_of_none (htrace.trans (List.append_nil _).symm) fun _ _ => List.not_mem_nil⟩
  have hzero : w.trace.length - w.trace.length = 0 := Nat.sub_self _
  unfold executeNode
  rw [← hconfig, Prog.run_bind, Prog.run_perform]
  unfold Env.handle
  rw [show (p.env ev w.trace.length).faultOf (.recordStep tenant runId node .running config) w =
    p.fault 0 (.recordStep tenant runId node .running config) by rw [← hzero]; rfl]
  rcases hrec : p.fault 0 (.recordStep tenant runId node .running config) with _ | ⟨e, _ | _⟩
  · exact keepsSuccess_executeStep_iff context hrec hnone (midway_recordStep w config)
  · exact hnone rfl fun max h => by cases hrec.symm.trans h.1
  · exact hnone rfl fun max h => by cases hrec.symm.trans h.1

end

/-- A node that charges a card, with two attempts. -/
def chargeNode : WorkflowNode where
  id := "charge"
  type := "action.http"
  name := "Charge the card"
  retry := some (.policy { maxAttempts := 2, backoff := "fixed", jitter := false })

/-- Every charge succeeds; the first `update_step` loses its connection. -/
def lostUpdate : Script where
  dispatch := fun _ => .ok ⟨.obj [("charged", .bool true)], ⟨.finite 2, "2.0"⟩⟩
  fault := fun k o => match k, o with
    | 1, .updateStep .. => some (⟨.connectionError, "connection reset by peer"⟩, false)
    | _, _ => none
  circuitState := .closed
  circuitFailure := fun _ => .closed
  random := fun _ => 0
  elapsedMs := fun _ => ⟨.finite 1, "1.0"⟩

/-- What `_execute_node` answers and leaves behind when the first `update_step` is lost. -/
def chargedTwice : Except PyError StepResult × World :=
  (executeNode (.source ⟨fun _ => true, fun _ => none⟩) "acme" "RUN-1" "wf_billing" chargeNode
    ⟨.null, [], "acme", "trace"⟩).run
      (lostUpdate.env (.source ⟨fun _ => true, fun _ => none⟩) World.empty.trace.length).handle
      World.empty

/-- The card is charged twice. -/
theorem not_keepsSuccess_lostUpdate :
    ¬ KeepsSuccess "RUN-1" "charge" World.empty chargedTwice.1 chargedTwice.2 := by
  intro h
  have hpost := (h [] [.dispatched "RUN-1" "charge" [] ⟨.null, [], "acme", "trace"⟩ true] []
    ⟨.null, [], "acme", "trace"⟩ rfl).1
  cases hpost

end FlowMesh
