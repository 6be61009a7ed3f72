import FlowMesh.Engine.Attempts
import FlowMesh.Engine.NodeSpec

/-!
# The account of a failing node

What `_execute_node` leaves behind when its bookkeeping does not raise: how often it dispatches the
node, the status of the step, the dead letter, and the failures that the circuit breaker counts
(`Accounts`). The outcomes of the dispatches are those of a `Script`.

`accounts_iff`: the account is right exactly if `calculate_backoff` raises at no pause before the
last attempt that is due. An exception of the pause leaves `_execute_node` past the dead letter.
-/

namespace FlowMesh

open Python Database Async

/-! ## What is due -/

namespace Script

variable (p : Script)

/-- The dispatch fails with a `TRANSIENT` error. -/
def transient (k : ℕ) : Bool :=
  match p.dispatch k with
  | .error exc => categorizeError exc = .transient
  | .ok _ => false

/-- The number of the first dispatch that does not fail with a `TRANSIENT` error, but at most
`max`. -/
def due (max : ℕ) : ℕ := min max (((List.range max).takeWhile p.transient).length + 1)

/-- The dispatches due behind `k` of them, with `left` attempts left. -/
def dueFrom (k : ℕ) : ℕ → ℕ
  | 0 => 0
  | left + 1 => if p.transient k then dueFrom (k + 1) left + 1 else 1

theorem dueFrom_eq (k left : ℕ) :
    p.dueFrom k left = min left (((List.range' k left).takeWhile p.transient).length + 1) := by
  induction left generalizing k with
  | zero => simp [dueFrom]
  | succ left ih =>
    unfold dueFrom
    rw [List.range'_succ, List.takeWhile_cons]
    split
    · rw [ih (k + 1), List.length_cons]
      omega
    · simp

theorem due_eq (max : ℕ) : p.due max = p.dueFrom 0 max := by
  rw [dueFrom_eq, due, List.range_eq_range']

theorem dueFrom_pos (k left : ℕ) : 0 < p.dueFrom k (left + 1) := by
  unfold dueFrom
  split <;> omega

end Script

/-- A failure that the circuit breaker of the connection is to count. -/
def Op.isFailureOf (c : String) : Op → Bool
  | .recordCircuitFailure c' => c' = c
  | _ => false

/-- The calls of the `n` attempts behind `k` dispatches: so many dispatches, and a failure for the
circuit breaker of the node's connection for each `TRANSIENT` error. -/
structure Counted (p : Script) (node : WorkflowNode) (k n : ℕ) (calls : List Op) : Prop where
  dispatches : calls.countP Op.isDispatch = n
  failures : ∀ c, node.connection? = some c →
    calls.countP (Op.isFailureOf c) = ((List.range' k n).filter p.transient).length

theorem Counted.append {p : Script} {node : WorkflowNode} {k n n' : ℕ} {calls calls' : List Op}
    (h : Counted p node k n calls) (h' : Counted p node (k + n) n' calls') :
    Counted p node k (n + n') (calls ++ calls') where
  dispatches := by rw [List.countP_append, h.dispatches, h'.dispatches]
  failures := fun c hc => by
    rw [List.countP_append, h.failures c hc, h'.failures c hc, ← List.length_append,
      ← List.filter_append, List.range'_append_1]

/-- Calls that are neither dispatches nor counted failures. -/
theorem Counted.of_none {p : Script} {node : WorkflowNode} {k : ℕ} {calls : List Op}
    (hdispatch : calls.countP Op.isDispatch = 0)
    (hfailure : ∀ c, calls.countP (Op.isFailureOf c) = 0) : Counted p node k 0 calls :=
  ⟨hdispatch, fun c _ => hfailure c⟩

/-- The step that `update_step` leaves behind once the attempts gave up. -/
def RunStepRecord.failedWith (row : RunStepRecord) (durationMs : PyFloat) (error : String) :
    RunStepRecord :=
  { row with status := .failed, durationMs, outputSnapshot := .null, error := some error }

/-- The dead letter for the error of a node, after `k` attempts. -/
structure LetterOf (tenant runId : String) (node : WorkflowNode) (exc : PyError) (k : ℕ)
    (row : RunStepRecord) (letter : DeadLetterRecord) : Prop where
  runId : letter.runId = runId
  tenantId : letter.tenantId = tenant
  nodeId : letter.nodeId = node.id
  status : letter.status = .pending
  attempts : letter.attempts = k
  reason : row.error = some letter.reason
  category : letter.errorCategory = categorizeError exc

/-- One more step than `rows`, in status `SUCCESS` and without a dead letter beyond `letters` if the
outcome of the last of `k` dispatches is a success, else in status `FAILED` and with one more dead
letter. -/
def Recorded (tenant runId : String) (node : WorkflowNode) (k : ℕ)
    (outcome : Except PyError DispatchResult) (rows : List RunStepRecord)
    (letters : List DeadLetterRecord) (w : World) : Prop :=
  ∃ row, StepOf tenant runId node row ∧ w.steps.rows = rows ++ [row] ∧
    match outcome with
    | .ok _ => row.status = .success ∧ w.deadLetters.rows = letters
    | .error exc => row.status = .failed ∧ ∃ letter,
        w.deadLetters.rows = letters ++ [letter] ∧ LetterOf tenant runId node exc k row letter

/-- The account of one `_execute_node` from `w` to `w'`, which made the calls `calls`: the node was
dispatched `k` times, the circuit breaker counted the `TRANSIENT` errors among these dispatches,
and the last of them is recorded. -/
structure Accounts (p : Script) (tenant runId : String) (node : WorkflowNode) (k : ℕ)
    (w w' : World) (calls : List Op) : Prop where
  counted : Counted p node 0 k calls
  recorded : Recorded tenant runId node k (p.dispatch (k - 1)) w.steps.rows w.deadLetters.rows w'

/-! ## Calls that do not raise -/

section Faultless

variable {p : Script} {ev : Evaluator} {base : ℕ} {tenant runId workflowId : String}
  {node : WorkflowNode} {stepId : ℕ}

/-- The same steps, dead letters and events. -/
structure SameRows (w w' : World) : Prop where
  steps : w'.steps.rows = w.steps.rows
  deadLetters : w'.deadLetters.rows = w.deadLetters.rows
  trace : w'.trace = w.trace

theorem SameRows.refl (w : World) : SameRows w w := ⟨rfl, rfl, rfl⟩

theorem SameRows.trans {w w₁ w₂ : World} (h : SameRows w w₁) (h' : SameRows w₁ w₂) :
    SameRows w w₂ :=
  ⟨h'.steps.trans h.steps, h'.deadLetters.trans h.deadLetters, h'.trace.trans h.trace⟩

theorem handle_faultless (hfault : ∀ k o, p.fault k o = none) (o : Op) (w : World) :
    (p.env ev base).handle o w =
      (((p.env ev base).effect o w).1,
        { ((p.env ev base).effect o w).2 with tick := w.tick + 1 }) := by
  apply Env.handle_of_faultOf
  cases o <;> first
    | rfl
    | exact hfault _ _

/-- The calls around an attempt leave the rows alone. -/
theorem sameRows_bookkeeping {α : Type} {prog : M α} (hprog : prog.Uses Op.Bookkeeping)
    (env : Env) (w : World) : SameRows w (prog.run env.handle w).2 := by
  refine hprog.run_induction env.handle (I := SameRows w) (fun o w' ho hw' => hw'.trans ?_) (.refl w)
  have heffect : SameRows w' (env.effect o w').2 := by
    cases o <;> first
      | exact ho.elim
      | exact ⟨rfl, rfl, rfl⟩
  exact env.handle_induction (P := SameRows w') ⟨rfl, rfl, rfl⟩
    ⟨heffect.steps, heffect.deadLetters, heffect.trace⟩

/-- A part that makes bookkeeping calls only, and returns. -/
theorem run_bookkeeping {prog : M Unit} {w : World} (hprog : prog.Uses Op.Bookkeeping)
    (hok : (prog.run (p.env ev base).handle w).1 = .ok ()) :
    ∃ w', prog.run (p.env ev base).handle w = (.ok (), w') ∧ SameRows w w' :=
  ⟨_, by rw [← hok], sameRows_bookkeeping hprog _ w⟩

theorem dispatches_bookkeeping {α : Type} {prog : M α} (hprog : prog.Uses Op.Bookkeeping)
    (env : Env) (w : World) : (prog.made env.handle w).countP Op.isDispatch = 0 :=
  Nat.le_zero.1 ((atMost_of_bookkeeping hprog).made w)

theorem run_closeCircuit (hfault : ∀ k o, p.fault k o = none) (w : World) :
    ∃ w', (closeCircuit node).run (p.env ev base).handle w = (.ok (), w') ∧ SameRows w w' := by
  apply run_bookkeeping uses_closeCircuit
  unfold closeCircuit
  cases node.connection? <;> simp [Prog.run_bind, handle_faultless hfault, Env.effect]

theorem failures_closeCircuit (hfault : ∀ k o, p.fault k o = none) (c : String) (w : World) :
    ((closeCircuit node).made (p.env ev base).handle w).countP (Op.isFailureOf c) = 0 := by
  unfold closeCircuit
  cases node.connection? <;>
    simp [Prog.made_bind, handle_faultless hfault, Env.effect, Op.isFailureOf]

theorem run_onFailure (hfault : ∀ k o, p.fault k o = none) (exc : PyError) (w : World) :
    ∃ w', (onFailure workflowId node exc).run (p.env ev base).handle w = (.ok (), w') ∧
      SameRows w w' := by
  apply run_bookkeeping (uses_onFailure exc)
  unfold onFailure
  split
  · simp only [countFailure, Prog.run_bind, Prog.run_perform, handle_faultless hfault, Env.effect]
    split <;> simp [handle_faultless hfault, Env.effect]
  · rfl

/-- The circuit breaker counts the `TRANSIENT` errors. -/
theorem failures_onFailure (hfault : ∀ k o, p.fault k o = none) {c : String}
    (hc : node.connection? = some c) (exc : PyError) (w : World) :
    ((onFailure workflowId node exc).made (p.env ev base).handle w).countP (Op.isFailureOf c) =
      if categorizeError exc = .transient then 1 else 0 := by
  unfold onFailure
  rw [hc]
  cases categorizeError exc with
  | transient =>
    simp only [countFailure, Prog.made_bind, Prog.made_perform, Prog.run_perform,
      handle_faultless hfault, Env.effect]
    split <;> simp [Op.isFailureOf]
  | permanent => rfl
  | circuitOpen => rfl

/-- The pause before an attempt, if `calculate_backoff` does not raise. -/
theorem run_backoff (hfault : ∀ k o, p.fault k o = none) {attempt : ℕ}
    (hok : 2 ≤ attempt → (calculateBackoff ev.unicode attempt node.policy 0).isOk = true)
    (w : World) : ∃ w', (backoff ev node attempt).run (p.env ev base).handle w = (.ok (), w') ∧
      SameRows w w' := by
  apply run_bookkeeping (uses_backoff attempt)
  unfold backoff
  split
  · next h =>
    rw [Prog.run_bind, Prog.run_perform, handle_faultless hfault]
    have hok' := hok h
    rw [calculateBackoff_isOk _ _ _ 0 ((p.env ev base).random w)] at hok'
    simp only [Env.effect]
    cases hbackoff : calculateBackoff ev.unicode attempt node.policy
      ((p.env ev base).random w) with
    | error e =>
      rw [hbackoff] at hok'
      cases hok'
    | ok sec => simp [handle_faultless hfault, Env.effect]
  · rfl

theorem failures_backoff (hfault : ∀ k o, p.fault k o = none) (c : String) (attempt : ℕ)
    (w : World) :
    ((backoff ev node attempt).made (p.env ev base).handle w).countP (Op.isFailureOf c) = 0 := by
  unfold backoff
  split
  · rw [Prog.made_bind, Prog.run_perform, handle_faultless hfault]
    simp only [Env.effect]
    cases calculateBackoff ev.unicode attempt node.policy ((p.env ev base).random w) <;>
      simp [Op.isFailureOf]
  · rfl

/-! ## The attempts -/

/-- `update_step` on the step that was recorded last. -/
theorem rows_updateStep {w : World} {rows : List RunStepRecord} {row : RunStepRecord}
    (hrows : w.steps.rows = rows ++ [row]) (htenant : row.tenantId = tenant)
    (status : StepStatus) (durationMs : PyFloat) (outputSnapshot : Json) (error : Option String) :
    (w.updateStep tenant row.id status durationMs outputSnapshot error).steps.rows =
      rows ++ [{ row with status, durationMs, outputSnapshot, error }] := by
  have hnew : ∀ s ∈ rows, s.id ≠ row.id := by
    have hnodup := w.steps.unique
    rw [hrows, List.map_append, List.nodup_append] at hnodup
    intro s hs
    exact hnodup.2.2 s.id (List.mem_map_of_mem hs) row.id (by simp)
  have hold : rows.map (fun s => if s.id = row.id ∧ s.tenantId = tenant then
      { s with status, durationMs, outputSnapshot, error } else s) = rows := by
    refine (List.map_congr_left fun s hs => ?_).trans (List.map_id _)
    rw [if_neg fun h => hnew s hs h.1]
    rfl
  simp only [World.updateStep, Table.rows_update, hrows, List.map_append, decide_eq_true_eq, hold]
  simp [htenant]

/-- A dispatch that fails, and with it the attempt. -/
theorem run_tryNode_error {w : World} {k : ℕ} (hk : w.trace.length = base + k)
    (config : List (String × Json)) (context : Context) {exc : PyError}
    (hexc : p.dispatch k = .error exc) :
    (tryNode tenant runId node config context stepId).run (p.env ev base).handle w =
        (.error exc, { w.log (.dispatched runId node.id config context false) with
          tick := w.tick + 1 }) ∧
      (tryNode tenant runId node config context stepId).made (p.env ev base).handle w =
        [.dispatchNodeType runId node config context] := by
  obtain rfl : w.trace.length - base = k := by omega
  have hhandle : (p.env ev base).handle (.dispatchNodeType runId node config context) w =
      (.error exc, { w.log (.dispatched runId node.id config context false) with
        tick := w.tick + 1 }) := by
    have hraw : (p.env ev base).handle (.dispatchNodeType runId node config context) w =
        (p.dispatch (w.trace.length - base), { w.log (.dispatched runId node.id config context
          (p.dispatch (w.trace.length - base)).isOk) with tick := w.tick + 1 }) := rfl
    rw [hraw, hexc]
    rfl
  unfold tryNode
  constructor
  · apply Prog.run_bind_error
    rw [Prog.run_perform, hhandle]
  · rw [Prog.made_bind, Prog.made_perform, Prog.run_perform, hhandle]
    rfl

/-- A dispatch that succeeds, and what its `try` block stores. -/
theorem run_tryNode_ok (hfault : ∀ k o, p.fault k o = none) {w : World} {k : ℕ}
    (hk : w.trace.length = base + k) {rows : List RunStepRecord} {row : RunStepRecord}
    (hrows : w.steps.rows = rows ++ [row]) (htenant : row.tenantId = tenant)
    (config : List (String × Json)) (context : Context) {res : DispatchResult}
    (hres : p.dispatch k = .ok res) :
    ∃ w', (tryNode tenant runId node config context row.id).run (p.env ev base).handle w =
        (.ok res, w') ∧ w'.steps.rows = rows ++ [row.settled res] ∧
      w'.deadLetters.rows = w.deadLetters.rows ∧
      Counted p node k 1 ((tryNode tenant runId node config context row.id).made
        (p.env ev base).handle w) := by
  obtain rfl : w.trace.length - base = k := by omega
  set w₁ : World := { w.log (.dispatched runId node.id config context true) with
    tick := w.tick + 1 } with hw₁
  have hdispatch : (perform (.dispatchNodeType runId node config context)).run
      (p.env ev base).handle w = (.ok res, w₁) := by
    have hraw : (p.env ev base).handle (.dispatchNodeType runId node config context) w =
        (p.dispatch (w.trace.length - base), { w.log (.dispatched runId node.id config context
          (p.dispatch (w.trace.length - base)).isOk) with tick := w.tick + 1 }) := rfl
    rw [Prog.run_perform, hraw, hres]
    rfl
  obtain ⟨w₂, hclose, hsame⟩ := @run_closeCircuit p ev base node hfault w₁
  have hstored := rows_updateStep (hsame.steps.trans hrows) htenant .success res.durationMs
    res.output none
  refine ⟨{ w₂.updateStep tenant row.id .success res.durationMs res.output none with
    tick := w₂.tick + 1 + 1 }, ?_, hstored, hsame.deadLetters, ?_, fun c _ => ?_⟩
  · unfold tryNode settle
    rw [Prog.run_bind_ok _ hdispatch]
    simp only [Prog.run_bind, hclose, Prog.run_perform, handle_faultless hfault, Env.effect]
    rfl
  · unfold tryNode settle
    rw [Prog.made_bind_ok _ hdispatch, Prog.made_perform]
    simp only [Prog.made_bind, hclose, Prog.run_bind, Prog.run_perform, Prog.made_perform,
      handle_faultless hfault, Env.effect, List.countP_append,
      dispatches_bookkeeping uses_closeCircuit]
    rfl
  · have hnone : p.transient (w.trace.length - base) = false := by
      unfold Script.transient
      rw [hres]
    unfold tryNode settle
    rw [Prog.made_bind_ok _ hdispatch, Prog.made_perform]
    simp only [Prog.made_bind, hclose, Prog.run_bind, Prog.run_perform, Prog.made_perform,
      handle_faultless hfault, Env.effect, List.countP_append, failures_closeCircuit hfault]
    simp [hnone, Op.isFailureOf]

/-- A dispatch that failed, and what its `except` block makes of it. -/
theorem counted_failure (hfault : ∀ k o, p.fault k o = none) {k : ℕ} {exc : PyError}
    (hexc : p.dispatch k = .error exc) (config : List (String × Json)) (context : Context)
    (w : World) :
    Counted p node k 1 ([.dispatchNodeType runId node config context] ++
      (onFailure workflowId node exc).made (p.env ev base).handle w) where
  dispatches := by
    rw [List.countP_append, dispatches_bookkeeping (uses_onFailure exc)]
    rfl
  failures := fun c hc => by
    rw [List.countP_append, failures_onFailure hfault hc]
    cases hcategory : categorizeError exc <;>
      simp [Script.transient, hexc, hcategory, Op.isFailureOf]

/-- How the attempts end that are left behind `k` dispatches: all those that are due are made, and
the last of them decides. -/
structure LoopEnds (p : Script) (node : WorkflowNode) (rows : List RunStepRecord)
    (row : RunStepRecord) (k left : ℕ) (w : World) (r : Except PyError RetryOutcome × World)
    (calls : List Op) : Prop where
  deadLetters : r.2.deadLetters.rows = w.deadLetters.rows
  counted : Counted p node k (p.dueFrom k left) calls
  outcome : match p.dispatch (k + p.dueFrom k left - 1) with
    | .ok res => r.1 = .ok (.done res) ∧ r.2.steps.rows = rows ++ [row.settled res]
    | .error exc => r.2.steps.rows = rows ++ [row] ∧ ∃ attempt,
        r.1 = .ok (.gaveUp (some exc) (categorizeError exc) attempt) ∧
        min attempt (k + left) = k + p.dueFrom k left

/-- The attempts end with one that fails. -/
theorem LoopEnds.gaveUp {rows : List RunStepRecord} {row : RunStepRecord} {k left attempt : ℕ}
    {w w' : World} {exc : PyError} {calls : List Op} (hexc : p.dispatch k = .error exc)
    (hletters : w'.deadLetters.rows = w.deadLetters.rows) (hrows : w'.steps.rows = rows ++ [row])
    (hcounted : Counted p node k 1 calls) (hdue : p.dueFrom k left = 1)
    (hattempt : min attempt (k + left) = k + 1) :
    LoopEnds p node rows row k left w
      (.ok (.gaveUp (some exc) (categorizeError exc) attempt), w') calls := by
  refine ⟨hletters, by rwa [hdue], ?_⟩
  rw [hdue, Nat.add_sub_cancel, hexc]
  exact ⟨hrows, attempt, rfl, hattempt⟩

/-- An attempt in front of the others. -/
theorem LoopEnds.step {rows : List RunStepRecord} {row : RunStepRecord} {k left : ℕ}
    {w w₁ : World} {r : Except PyError RetryOutcome × World} {calls calls' : List Op}
    (h : LoopEnds p node rows row (k + 1) left w₁ r calls')
    (hletters : w₁.deadLetters.rows = w.deadLetters.rows) (hcounted : Counted p node k 1 calls)
    (hdue : p.dueFrom k (left + 1) = p.dueFrom (k + 1) left + 1) :
    LoopEnds p node rows row k (left + 1) w r (calls ++ calls') := by
  have hsum : k + (p.dueFrom (k + 1) left + 1) = k + 1 + p.dueFrom (k + 1) left := by omega
  have hleft : k + (left + 1) = k + 1 + left := by omega
  refine ⟨h.deadLetters.trans hletters, ?_, ?_⟩
  · rw [hdue, Nat.add_comm]
    exact hcounted.append h.counted
  · rw [hdue, hsum, hleft]
    exact h.outcome

/-- The loop makes the dispatches that are due, if no pause before one of them raises: by induction
on the attempts left. -/
theorem retryLoop_loopEnds (hfault : ∀ k o, p.fault k o = none) (config : List (String × Json))
    (context : Context) {rows : List RunStepRecord} {row : RunStepRecord}
    (htenant : row.tenantId = tenant) {left k : ℕ} (hleft : 0 < left)
    (hpause : ∀ j, 2 ≤ j → k < j → j ≤ k + p.dueFrom k left →
      (calculateBackoff ev.unicode j node.policy 0).isOk = true)
    (lastError : Option PyError) (lastCategory : ErrorCategory) {w : World}
    (hk : w.trace.length = base + k) (hrows : w.steps.rows = rows ++ [row]) :
    LoopEnds p node rows row k left w
      ((retryLoop ev tenant runId workflowId node config context row.id left (k + 1) lastError
        lastCategory).run (p.env ev base).handle w)
      ((retryLoop ev tenant runId workflowId node config context row.id left (k + 1) lastError
        lastCategory).made (p.env ev base).handle w) := by
  induction left generalizing k lastError lastCategory w with
  | zero => omega
  | succ left ih =>
    have hdue := p.dueFrom_pos k left
    obtain ⟨w₁, hbackoff, hsame⟩ := @run_backoff p ev base node hfault (k + 1)
      (fun htwo => hpause (k + 1) htwo (by omega) (by omega)) w
    have hquiet : Counted p node k 0 ((backoff ev node (k + 1)).made (p.env ev base).handle w) :=
      .of_none (dispatches_bookkeeping (uses_backoff _) _ w) fun c => failures_backoff hfault c _ w
    have hk₁ : w₁.trace.length = base + k := by rw [hsame.trace, hk]
    have hrows₁ : w₁.steps.rows = rows ++ [row] := hsame.steps.trans hrows
    have hattempt := Prog.run_attempt (p.env ev base).handle
      (tryNode tenant runId node config context row.id) w₁
    unfold retryLoop
    rw [Prog.run_bind_ok _ hbackoff, Prog.made_bind_ok _ hbackoff]
    cases hres : p.dispatch k with
    | ok res =>
      have hone : p.dueFrom k (left + 1) = 1 := by
        simp [Script.dueFrom, Script.transient, hres]
      obtain ⟨w₂, htry, hstored, hletters, hcounted⟩ :=
        @run_tryNode_ok p ev base tenant runId node hfault w₁ k hk₁ rows row hrows₁ htenant config
          context res hres
      rw [htry] at hattempt
      rw [Prog.run_bind_ok _ hattempt, Prog.made_bind_ok _ hattempt, Prog.made_attempt]
      refine ⟨hletters.trans hsame.deadLetters, ?_, ?_⟩
      · rw [hone]
        simpa using hquiet.append hcounted
      · rw [hone, Nat.add_sub_cancel, hres]
        exact ⟨rfl, hstored⟩
    | error exc =>
      obtain ⟨htry, hmade⟩ := @run_tryNode_error p ev base tenant runId node row.id w₁ k hk₁ config
        context exc hres
      set w₂ : World := { w₁.log (.dispatched runId node.id config context false) with
        tick := w₁.tick + 1 } with hw₂
      obtain ⟨w₃, hfailure, hsame₃⟩ := @run_onFailure p ev base workflowId node hfault exc w₂
      have hone := hquiet.append (@counted_failure p ev base runId workflowId node hfault k exc hres
        config context w₂)
      rw [Nat.zero_add, ← List.append_assoc] at hone
      have hletters₃ : w₃.deadLetters.rows = w.deadLetters.rows :=
        hsame₃.deadLetters.trans hsame.deadLetters
      have hrows₃ : w₃.steps.rows = rows ++ [row] := hsame₃.steps.trans hrows₁
      rw [htry] at hattempt
      rw [Prog.run_bind_ok _ hattempt, Prog.made_bind_ok _ hattempt, Prog.made_attempt, hmade]
      dsimp only
      rw [Prog.run_bind_ok _ hfailure, Prog.made_bind_ok _ hfailure, ← List.append_assoc,
        ← List.append_assoc]
      have hstop : ∀ attempt, min attempt (k + (left + 1)) = k + 1 → p.dueFrom k (left + 1) = 1 →
          LoopEnds p node rows row k (left + 1) w
            (.ok (.gaveUp (some exc) (categorizeError exc) attempt), w₃)
            ((backoff ev node (k + 1)).made (p.env ev base).handle w ++
              [.dispatchNodeType runId node config context] ++
              (onFailure workflowId node exc).made (p.env ev base).handle w₂ ++ []) := by
        intro attempt hmin hdue
        rw [List.append_nil]
        exact .gaveUp hres hletters₃ hrows₃ hone hdue hmin
      -- the loop goes on behind a `TRANSIENT` error only
      cases hcategory : categorizeError exc with
      | transient =>
        rw [hcategory] at hstop
        have hnext : p.dueFrom k (left + 1) = p.dueFrom (k + 1) left + 1 := by
          simp [Script.dueFrom, Script.transient, hres, hcategory]
        cases left with
        | zero => exact hstop (k + 1 + 1) (by omega) hnext
        | succ left =>
          have hk₃ : w₃.trace.length = base + (k + 1) := by
            rw [hsame₃.trace, hw₂, World.log, List.length_append, hk₁]
            rfl
          exact (ih left.succ_pos (fun j htwo hj hle => hpause j htwo (by omega) (by omega))
            (some exc) .transient hk₃ hrows₃).step hletters₃ hone hnext
      | permanent =>
        rw [hcategory] at hstop
        exact hstop (k + 1) (by omega) (by simp [Script.dueFrom, Script.transient, hres, hcategory])
      | circuitOpen =>
        rw [hcategory] at hstop
        exact hstop (k + 1) (by omega) (by simp [Script.dueFrom, Script.transient, hres, hcategory])

/-! ## Behind the attempts -/

/-- The end of `_execute_node` behind an error. -/
theorem run_giveUp (hfault : ∀ k o, p.fault k o = none) {rows : List RunStepRecord}
    {row : RunStepRecord} (htenant : row.tenantId = tenant) {w : World}
    (hrows : w.steps.rows = rows ++ [row]) (config : List (String × Json)) (maxAttempts : ℤ)
    (exc : PyError) (category : ErrorCategory) (attempt : ℕ) :
    ∃ durationMs, ((giveUp tenant runId workflowId node config row.id maxAttempts (some exc)
        category attempt).run (p.env ev base).handle w).2.steps.rows =
        rows ++ [row.failedWith durationMs exc.message] ∧
      ((giveUp tenant runId workflowId node config row.id maxAttempts (some exc) category
        attempt).run (p.env ev base).handle w).2.deadLetters.rows = w.deadLetters.rows ++
          [World.newDeadLetter tenant runId node workflowId exc.message category
            (min attempt maxAttempts) config w.deadLetters.fresh] := by
  have hstored := fun durationMs =>
    rows_updateStep hrows htenant .failed durationMs .null (some exc.message)
  unfold giveUp
  simp only [Prog.run_bind, Prog.run_perform, handle_faultless hfault, Env.effect]
  exact ⟨_, hstored _, rfl⟩

theorem counted_giveUp (hfault : ∀ k o, p.fault k o = none) (config : List (String × Json))
    (maxAttempts : ℤ) (lastError : Option PyError) (category : ErrorCategory) (attempt k : ℕ)
    (w : World) :
    Counted p node k 0 ((giveUp tenant runId workflowId node config stepId maxAttempts lastError
      category attempt).made (p.env ev base).handle w) := by
  apply Counted.of_none
  · exact Nat.le_zero.1 ((atMost_giveUp config maxAttempts lastError category attempt).made w)
  · intro c
    unfold giveUp
    simp [Prog.made_bind, handle_faultless hfault, Env.effect, Op.isFailureOf]

variable {max : ℤ} {context : Context} {config : List (String × Json)}

/-- The attempts, from the first one on. -/
theorem runAttempts_accounts (hfault : ∀ k o, p.fault k o = none)
    (hmax : node.policy.maxAttempts ev.unicode = .ok max) (hone : 1 ≤ max)
    (hpause : ∀ j, 2 ≤ j → j ≤ p.due max.toNat →
      (calculateBackoff ev.unicode j node.policy 0).isOk = true)
    {rows : List RunStepRecord} {row : RunStepRecord} (hof : StepOf tenant runId node row)
    {w : World} (hbase : w.trace.length = base) (hrows : w.steps.rows = rows ++ [row]) :
    Counted p node 0 (p.due max.toNat) ((runAttempts ev tenant runId workflowId node config context
        row.id).made (p.env ev base).handle w) ∧
      Recorded tenant runId node (p.due max.toNat) (p.dispatch (p.due max.toNat - 1)) rows
        w.deadLetters.rows ((runAttempts ev tenant runId workflowId node config context
          row.id).run (p.env ev base).handle w).2 := by
  rw [p.due_eq] at hpause ⊢
  have hends := @retryLoop_loopEnds p ev base tenant runId workflowId node hfault config context rows row
    hof.tenantId max.toNat 0 (by omega) (fun j htwo _ hle => hpause j htwo (by omega)) none .transient
    w hbase hrows
  have hcounted := hends.counted
  have houtcome := hends.outcome
  rw [Nat.zero_add] at houtcome
  rw [runAttempts_eq _ _ hmax]
  rcases hrun : (retryLoop ev tenant runId workflowId node config context row.id max.toNat (0 + 1)
    none .transient).run (p.env ev base).handle w with ⟨r, w₁⟩
  rw [hrun] at houtcome
  have hletters₁ : w₁.deadLetters.rows = w.deadLetters.rows := by
    have hsame := hends.deadLetters
    rwa [hrun] at hsame
  cases hlast : p.dispatch (p.dueFrom 0 max.toNat - 1) with
  | ok res =>
    rw [hlast] at houtcome
    obtain ⟨rfl, hstored⟩ := houtcome
    rw [Prog.made_bind_ok _ hrun, Prog.run_bind_ok _ hrun]
    refine ⟨by simpa [afterLoop] using hcounted, row.settled res,
      ⟨hof.runId, hof.tenantId, hof.nodeId, hof.nodeType⟩, hstored, rfl, hletters₁⟩
  | error exc =>
    rw [hlast] at houtcome
    obtain ⟨hrows₁, attempt, rfl, hmin⟩ := houtcome
    obtain ⟨durationMs, hstored, hletters⟩ := @run_giveUp p ev base tenant runId workflowId node
      hfault rows row hof.tenantId w₁ hrows₁ config max exc (categorizeError exc) attempt
    rw [Prog.made_bind_ok _ hrun, Prog.run_bind_ok _ hrun]
    constructor
    · have hrest := hcounted.append (@counted_giveUp p ev base tenant runId workflowId node row.id
        hfault config max (some exc) (categorizeError exc) attempt _ w₁)
      exact hrest
    · rw [hletters₁] at hletters
      refine ⟨row.failedWith durationMs exc.message,
        ⟨hof.runId, hof.tenantId, hof.nodeId, hof.nodeType⟩, hstored, rfl, _, hletters, ?_⟩
      exact ⟨rfl, rfl, rfl, rfl, by simp only [World.newDeadLetter]; omega, rfl, rfl⟩

/-- `_execute_node`, if no pause before an attempt that is due raises. -/
theorem executeNode_accounts (hfault : ∀ k o, p.fault k o = none)
    (hclosed : ∀ c, node.connection? = some c → p.circuitState ≠ .open)
    (hmax : node.policy.maxAttempts ev.unicode = .ok max) (hone : 1 ≤ max)
    (hpause : ∀ j, 2 ≤ j → j ≤ p.due max.toNat →
      (calculateBackoff ev.unicode j node.policy 0).isOk = true)
    {w : World} (hbase : w.trace.length = base) :
    Accounts p tenant runId node (p.due max.toNat) w
      ((executeNode ev tenant runId workflowId node context).run (p.env ev base).handle w).2
      ((executeNode ev tenant runId workflowId node context).made (p.env ev base).handle w) := by
  have hrecord : (perform (.recordStep tenant runId node .running
      (resolveConfig ev.unicode node context))).run (p.env ev base).handle w =
      (.ok w.steps.fresh, { w.recordStep tenant runId node .running
        (resolveConfig ev.unicode node context) with tick := w.tick + 1 }) := by
    rw [Prog.run_perform, handle_faultless hfault]
    rfl
  set row := World.newStep tenant runId node .running (resolveConfig ev.unicode node context)
    w.steps.fresh with hrow
  have hof : StepOf tenant runId node row := ⟨rfl, rfl, rfl, rfl⟩
  have hattempts := fun w₁ hbase₁ hrows₁ => @runAttempts_accounts p ev base tenant runId workflowId
    node max context (resolveConfig ev.unicode node context) hfault hmax hone hpause w.steps.rows row
    hof w₁ hbase₁ hrows₁
  unfold executeNode executeStep
  rw [Prog.run_bind_ok _ hrecord, Prog.made_bind_ok _ hrecord, Prog.made_perform]
  have hnone : ∀ k o, o.isDispatch = false → (∀ c, o.isFailureOf c = false) →
      Counted p node k 0 [o] := fun k o hdispatch hfailure =>
    .of_none (by simp [hdispatch]) fun c => by simp [hfailure c]
  cases hconnection : node.connection? with
  | none =>
    obtain ⟨hcounted, hrecorded⟩ := hattempts { w.recordStep tenant runId node .running
      (resolveConfig ev.unicode node context) with tick := w.tick + 1 } hbase rfl
    have hcalls := (hnone 0 (.recordStep tenant runId node .running
      (resolveConfig ev.unicode node context)) rfl fun _ => rfl).append hcounted
    rw [Nat.zero_add] at hcalls
    exact ⟨hcalls, hrecorded⟩
  | some c =>
    have hstate : (perform (.getCircuitBreakerState c)).run (p.env ev base).handle
        { w.recordStep tenant runId node .running (resolveConfig ev.unicode node context) with
          tick := w.tick + 1 } = (.ok p.circuitState, { w.recordStep tenant runId node .running
            (resolveConfig ev.unicode node context) with tick := w.tick + 1 + 1 }) := by
      rw [Prog.run_perform, handle_faultless hfault]
      rfl
    dsimp only
    rw [Prog.run_bind_ok _ hstate, Prog.made_bind_ok _ hstate, Prog.made_perform]
    obtain ⟨hcounted, hrecorded⟩ := hattempts { w.recordStep tenant runId node .running
      (resolveConfig ev.unicode node context) with tick := w.tick + 1 + 1 } hbase rfl
    have hcalls := (hnone 0 (.recordStep tenant runId node .running
      (resolveConfig ev.unicode node context)) rfl fun _ => rfl).append
        ((hnone 0 (.getCircuitBreakerState c) rfl fun _ => rfl).append hcounted)
    rw [Nat.zero_add, Nat.zero_add] at hcalls
    cases hcircuit : p.circuitState with
    | «open» => exact absurd hcircuit (hclosed c hconnection)
    | closed => exact ⟨hcalls, hrecorded⟩
    | halfOpen => exact ⟨hcalls, hrecorded⟩

/-- Behind a pause that raises nothing is dispatched. -/
theorem not_accounts_of_raise {j k : ℕ} (htwo : 2 ≤ j) (hle : j ≤ k)
    (hraise : (calculateBackoff ev.unicode j node.policy 0).isOk = false) (w w' : World) :
    ¬ Accounts p tenant runId node k w w'
      ((executeNode ev tenant runId workflowId node context).made (p.env ev base).handle w) := by
  intro haccounts
  have hstops : node.policy.Stops ev.unicode (j - 1) := fun m _ =>
    .inr ⟨j, htwo, by omega, hraise⟩
  have hless := (@atMost_executeNode ev tenant runId workflowId node (j - 1) hstops context).made
    (h := (p.env ev base).handle) w
  rw [haccounts.counted.dispatches] at hless
  omega

/-- **The account of `_execute_node`**, with no bookkeeping call that raises and a circuit breaker
that is not open: it is right exactly if `calculate_backoff` raises before no attempt that is
due. -/
theorem accounts_iff (p : Script) (ev : Evaluator) (tenant runId workflowId : String)
    (node : WorkflowNode) (context : Context) (w : World) (max : ℤ)
    (hfault : ∀ k o, p.fault k o = none)
    (hclosed : ∀ c, node.connection? = some c → p.circuitState ≠ .open)
    (hmax : node.policy.maxAttempts ev.unicode = .ok max) (hone : 1 ≤ max) :
    Accounts p tenant runId node (p.due max.toNat) w
        ((executeNode ev tenant runId workflowId node context).run
          (p.env ev w.trace.length).handle w).2
        ((executeNode ev tenant runId workflowId node context).made
          (p.env ev w.trace.length).handle w) ↔
      ∀ j, 2 ≤ j → j ≤ p.due max.toNat →
        (calculateBackoff ev.unicode j node.policy 0).isOk = true := by
  constructor
  · intro haccounts j htwo hle
    by_contra hraise
    exact not_accounts_of_raise htwo hle (by simpa using hraise) w _ haccounts
  · exact fun hpause => executeNode_accounts hfault hclosed hmax hone hpause rfl

end Faultless

/-- The second of three attempts succeeds. -/
def flakyScript : Script where
  dispatch := fun k => if k = 1 then .ok ⟨.obj [("charged", .bool true)], ⟨.finite 2, "2.0"⟩⟩
    else .error ⟨.timeoutError, "timed out"⟩
  fault := fun _ _ => none
  circuitState := .closed
  circuitFailure := fun _ => .closed
  random := fun _ => 0
  elapsedMs := fun _ => ⟨.finite 1, "1.0"⟩

theorem accounts_iff_charge :
    Accounts flakyScript "acme" "RUN-1" chargeNode (flakyScript.due 2) World.empty
        ((executeNode (.source ⟨fun _ => true, fun _ => none⟩) "acme" "RUN-1" "wf_billing"
          chargeNode ⟨.null, [], "acme", "trace"⟩).run (flakyScript.env (.source
            ⟨fun _ => true, fun _ => none⟩) World.empty.trace.length).handle World.empty).2
        ((executeNode (.source ⟨fun _ => true, fun _ => none⟩) "acme" "RUN-1" "wf_billing"
          chargeNode ⟨.null, [], "acme", "trace"⟩).made (flakyScript.env (.source
            ⟨fun _ => true, fun _ => none⟩) World.empty.trace.length).handle World.empty) ↔
      ∀ j, 2 ≤ j → j ≤ flakyScript.due 2 →
        (calculateBackoff ⟨fun _ => true, fun _ => none⟩ j chargeNode.policy 0).isOk = true :=
  accounts_iff flakyScript (.source ⟨fun _ => true, fun _ => none⟩) "acme" "RUN-1" "wf_billing"
    chargeNode ⟨.null, [], "acme", "trace"⟩ World.empty 2 (fun _ _ => rfl) (fun _ _ => nofun) rfl
    (by decide)

/-- A node whose retry dict names no number as its first interval. -/
def misspelledNode : WorkflowNode where
  id := "charge"
  type := "action.http"
  name := "Charge the card"
  retry := some (.dict [("max_attempts", .int 2), ("initial_interval_seconds", .str "1s")])

/-- The first dispatch times out; the pause before the second raises. -/
theorem not_accounts_misspelled :
    misspelledNode.policy.maxAttempts ⟨fun _ => true, fun _ => none⟩ = .ok 2 ∧
      ¬ Accounts flakyScript "acme" "RUN-1" misspelledNode (flakyScript.due 2) World.empty
        ((executeNode (.source ⟨fun _ => true, fun _ => none⟩) "acme" "RUN-1" "wf_billing"
          misspelledNode ⟨.null, [], "acme", "trace"⟩).run (flakyScript.env (.source
            ⟨fun _ => true, fun _ => none⟩) World.empty.trace.length).handle World.empty).2
        ((executeNode (.source ⟨fun _ => true, fun _ => none⟩) "acme" "RUN-1" "wf_billing"
          misspelledNode ⟨.null, [], "acme", "trace"⟩).made (flakyScript.env (.source
            ⟨fun _ => true, fun _ => none⟩) World.empty.trace.length).handle World.empty) := by
  refine ⟨rfl, not_accounts_of_raise (j := 2) le_rfl ?_ rfl World.empty _⟩
  decide +kernel

end FlowMesh
