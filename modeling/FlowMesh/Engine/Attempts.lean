import FlowMesh.Library.Budget
import FlowMesh.Engine.Calls
import FlowMesh.Engine.Retry

/-!
# How often a node is dispatched

`dispatchedAtMost_iff`: one `_execute_node` dispatches a node at most `n` times, whatever the world
outside does, exactly if its retry policy stops it there (`Retry.Stops`): `max_attempts` cannot be
read or is at most `n`, or `calculate_backoff` raises before the next attempt.
`dispatchedUpTo_iff` adds when it is dispatched at all, and `attempts_bounded_iff` says for which
retry settings of an accepted definition the bounds of `RetryPolicy` are kept.
-/

namespace FlowMesh

open Python Database Async

/-! ## Counting -/

/-- A dispatch of the node in the run. -/
def Event.isDispatchOf (runId nodeId : String) : Event → Bool
  | .dispatched r n _ _ _ => r = runId && n = nodeId
  | _ => false

/-- How often the node was dispatched. -/
def World.dispatchCount (runId nodeId : String) (w : World) : ℕ :=
  w.trace.countP (Event.isDispatchOf runId nodeId)

/-- The call that dispatches. -/
def Op.isDispatch : Op → Bool
  | .dispatchNodeType .. => true
  | _ => false

/-- The policy ends the attempts before there are more than `n`. -/
def Retry.Stops (u : Unicode) (n : ℕ) (policy : Retry) : Prop :=
  ∀ max, policy.maxAttempts u = .ok max → max ≤ n ∨
    ∃ attempt, 2 ≤ attempt ∧ attempt ≤ n + 1 ∧ (calculateBackoff u attempt policy 0).isOk = false

/-- One `_execute_node` dispatches the node at most `n` times. -/
def WorkflowNode.DispatchedAtMost (u : Unicode) (n : ℕ) (node : WorkflowNode) : Prop :=
  ∀ (env : Env) (tenant runId workflowId : String) (context : Context) (w : World),
    env.unicode = u →
      ((executeNode env.toEvaluator tenant runId workflowId node context).run env.handle
        w).2.dispatchCount runId node.id ≤ w.dispatchCount runId node.id + n

/-- With a circuit breaker that is not open, one `_execute_node` dispatches the node at least once
and at most `n` times, whatever the dispatches answer. The calls around them do not raise. -/
def WorkflowNode.DispatchedUpTo (u : Unicode) (n : ℕ) (node : WorkflowNode) : Prop :=
  ∀ (env : Env) (tenant runId workflowId : String) (context : Context) (w : World),
    env.unicode = u → (∀ o w, env.faultOf o w = none) →
    (∀ w c, node.connection? = some c → env.circuitState w c ≠ .open) →
    w.dispatchCount runId node.id <
        ((executeNode env.toEvaluator tenant runId workflowId node context).run env.handle
          w).2.dispatchCount runId node.id ∧
      ((executeNode env.toEvaluator tenant runId workflowId node context).run env.handle
        w).2.dispatchCount runId node.id ≤ w.dispatchCount runId node.id + n

section

variable {ev : Evaluator} {tenant runId workflowId : String} {node : WorkflowNode} {stepId : ℕ}
  {n : ℕ}

theorem dispatchCount_mono {w w' : World} (h : w.trace <+: w'.trace) (nodeId : String) :
    w.dispatchCount runId nodeId ≤ w'.dispatchCount runId nodeId :=
  h.sublist.countP_le

theorem dispatchCount_handle (env : Env) (nodeId : String) (o : Op) (w : World) :
    (env.handle o w).2.dispatchCount runId nodeId ≤
      w.dispatchCount runId nodeId + if o.isDispatch then 1 else 0 := by
  have heffect : (env.effect o w).2.dispatchCount runId nodeId ≤
      w.dispatchCount runId nodeId + if o.isDispatch then 1 else 0 := by
    cases o with
    | createRun run definition =>
      simp only [Env.effect]
      split
      · exact Nat.le_add_right _ _
      · simp [World.dispatchCount, World.log, Event.isDispatchOf]
    | setRunning =>
      simp [Env.effect, World.dispatchCount, World.log, World.setRunning, Event.isDispatchOf]
    | approveStep =>
      simp only [Env.effect]
      split
      · exact Nat.le_add_right _ _
      · simp [World.dispatchCount, World.log, World.updateStep, Event.isDispatchOf]
    | dispatchNodeType =>
      simp only [Env.effect, World.dispatchCount, World.log, List.countP_append, Op.isDispatch]
      exact Nat.add_le_add_left List.countP_le_length _
    | getByIdempotencyKey =>
      simp only [Env.effect]
      split <;> exact Nat.le_add_right _ _
    | _ => exact Nat.le_add_right _ _
  exact env.handle_induction
    (P := fun w' => w'.dispatchCount runId nodeId ≤
      w.dispatchCount runId nodeId + if o.isDispatch then 1 else 0)
    (Nat.le_add_right _ _) heffect

/-! ## At most so many -/

/-- The calls around an attempt dispatch nothing. -/
theorem atMost_of_bookkeeping {α : Type} {p : M α} (hp : p.Uses Op.Bookkeeping) :
    p.AtMost Op.isDispatch 0 := by
  refine .of_uses (hp.mono fun o ho => ?_)
  cases o <;> first | exact ho.elim | rfl

theorem atMost_tryNode (config : List (String × Json)) (context : Context) :
    (tryNode tenant runId node config context stepId).AtMost Op.isDispatch 1 := by
  unfold tryNode
  refine (Prog.AtMost.perform _).bind (m := 0) fun res => ?_
  refine Prog.AtMost.bind (n := 0) (m := 0) ?_ fun _ => .ret _
  refine (atMost_of_bookkeeping uses_closeCircuit).bind (m := 0) fun _ => ?_
  exact .of_uses (.bind (.perform rfl) fun _ => .perform rfl)

theorem atMost_giveUp (config : List (String × Json)) (max : ℤ) (lastError : Option PyError)
    (category : ErrorCategory) (attempt : ℕ) :
    (giveUp tenant runId workflowId node config stepId max lastError category attempt).AtMost
      Op.isDispatch 0 := by
  unfold giveUp
  refine .of_uses (.bind (.perform rfl) fun _ => .bind (.perform rfl) fun _ => ?_)
  refine .bind (.perform rfl) fun _ => .bind (.perform rfl) fun _ => ?_
  exact .bind (.perform rfl) fun _ => .ret _

/-- One attempt, and those behind it. -/
theorem atMost_attempt {config : List (String × Json)} {context : Context} {left attempt m : ℕ}
    {lastError : Option PyError} {lastCategory : ErrorCategory}
    (hrest : ∀ exc, (retryLoop ev tenant runId workflowId node config context stepId left
      (attempt + 1) (some exc) .transient).AtMost Op.isDispatch m) :
    (retryLoop ev tenant runId workflowId node config context stepId (left + 1) attempt lastError
      lastCategory).AtMost Op.isDispatch (1 + m) := by
  unfold retryLoop
  rw [← Nat.zero_add (1 + m)]
  refine (atMost_of_bookkeeping (uses_backoff attempt)).bind fun _ => ?_
  refine (atMost_tryNode config context).attempt.bind fun r => ?_
  cases r with
  | ok res => exact .ret _
  | error exc =>
    rw [← Nat.zero_add m]
    refine (atMost_of_bookkeeping (uses_onFailure exc)).bind fun _ => ?_
    cases categorizeError exc with
    | transient => exact hrest exc
    | permanent => exact .ret _
    | circuitOpen => exact .ret _

theorem atMost_retryLoop (config : List (String × Json)) (context : Context) (left attempt : ℕ)
    (lastError : Option PyError) (lastCategory : ErrorCategory) :
    (retryLoop ev tenant runId workflowId node config context stepId left attempt lastError
      lastCategory).AtMost Op.isDispatch left := by
  induction left generalizing attempt lastError lastCategory with
  | zero => exact .ret _
  | succ left ih =>
    exact (atMost_attempt fun exc => ih _ _ _).mono (by omega)

/-- The pause before an attempt raises if `calculate_backoff` does. -/
theorem backoff_atMost_zero {α : Type} {attempt : ℕ} (htwo : 2 ≤ attempt)
    (hraise : (calculateBackoff ev.unicode attempt node.policy 0).isOk = false) (p : Unit → M α) :
    (backoff ev node attempt >>= p).AtMost Op.isDispatch 0 := by
  unfold backoff
  rw [if_pos (by omega), Prog.bind_assoc]
  have hrandom : (perform .random).Uses fun o => o.isDispatch = false := .perform rfl
  rw [← Nat.zero_add 0]
  refine (Prog.AtMost.of_uses hrandom).bind fun rnd => ?_
  rw [calculateBackoff_isOk _ _ _ 0 rnd] at hraise
  cases hbackoff : calculateBackoff ev.unicode attempt node.policy rnd with
  | error e => exact .raise e
  | ok sec =>
    rw [hbackoff] at hraise
    cases hraise

/-- The attempts end before one whose pause raises. -/
theorem atMost_retryLoop_raise {stop : ℕ} (htwo : 2 ≤ stop)
    (hraise : (calculateBackoff ev.unicode stop node.policy 0).isOk = false)
    (config : List (String × Json)) (context : Context) (left attempt : ℕ)
    (lastError : Option PyError) (lastCategory : ErrorCategory) (hle : attempt ≤ stop) :
    (retryLoop ev tenant runId workflowId node config context stepId left attempt lastError
      lastCategory).AtMost Op.isDispatch (stop - attempt) := by
  induction left generalizing attempt lastError lastCategory with
  | zero => exact .ret _
  | succ left ih =>
    rcases Nat.eq_or_lt_of_le hle with rfl | hlt
    · unfold retryLoop
      rw [Nat.sub_self]
      exact backoff_atMost_zero htwo hraise _
    · exact (atMost_attempt fun exc => ih _ _ _ hlt).mono (by omega)

theorem atMost_runAttempts (hstops : node.policy.Stops ev.unicode n)
    (config : List (String × Json)) (context : Context) :
    (runAttempts ev tenant runId workflowId node config context stepId).AtMost Op.isDispatch n := by
  unfold runAttempts
  cases hmax : node.policy.maxAttempts ev.unicode with
  | error e => exact .raise e
  | ok max =>
    have hloop : (retryLoop ev tenant runId workflowId node config context stepId max.toNat 1 none
        .transient).AtMost Op.isDispatch n := by
      rcases hstops max hmax with hle | ⟨stop, htwo, hle, hraise⟩
      · exact (atMost_retryLoop config context _ _ _ _).mono (by omega)
      · exact (atMost_retryLoop_raise htwo hraise config context _ _ _ _ (by omega)).mono (by omega)
    rw [← Nat.add_zero n]
    refine hloop.bind fun out => ?_
    cases out with
    | done res => exact .ret _
    | gaveUp lastError category attempt => exact atMost_giveUp _ _ _ _ _

theorem atMost_executeNode (hstops : node.policy.Stops ev.unicode n) (context : Context) :
    (executeNode ev tenant runId workflowId node context).AtMost Op.isDispatch n := by
  unfold executeNode
  rw [← Nat.zero_add n]
  refine (Prog.AtMost.of_uses (.perform rfl)).bind fun stepId => ?_
  unfold executeStep
  cases node.connection? with
  | none => exact atMost_runAttempts hstops _ _
  | some c =>
    rw [← Nat.zero_add n]
    refine (Prog.AtMost.of_uses (.perform rfl)).bind fun state => ?_
    cases state with
    | «open» =>
      refine .of_uses (.bind (.perform rfl) fun _ => .bind (.perform rfl) fun _ => ?_)
      exact .bind (.perform rfl) fun _ => .ret _
    | closed => exact atMost_runAttempts hstops _ _
    | halfOpen => exact atMost_runAttempts hstops _ _

/-! ## As many as the policy allows -/

/-- Every dispatch times out, and nothing else goes wrong. -/
def Env.timingOut (ev : Evaluator) : Env :=
  { Env.steady fun _ => .error ⟨.timeoutError, "timed out"⟩ with toEvaluator := ev }

/-- A call that is no dispatch answers, and logs nothing. -/
theorem run_perform_timingOut {o : Op} {x : o.Res} {w : World} (hd : o.isDispatch = false)
    (hx : ((Env.timingOut ev).effect o w) = (.ok x, w)) :
    (perform o).run (Env.timingOut ev).handle w = (.ok x, { w with tick := w.tick + 1 }) := by
  have hfault : (Env.timingOut ev).faultOf o w = none := by
    cases o <;> rfl
  rw [Prog.run_perform, Env.handle_of_faultOf _ hfault, hx]

theorem run_backoff_timingOut {attempt : ℕ} (w : World)
    (hok : 2 ≤ attempt → (calculateBackoff ev.unicode attempt node.policy 0).isOk = true) :
    ∃ w', (backoff ev node attempt).run (Env.timingOut ev).handle w = (.ok (), w') ∧
      w'.trace = w.trace := by
  unfold backoff
  split
  · next h =>
    rw [Prog.run_bind_ok _ (run_perform_timingOut rfl rfl)]
    have hok' := hok (by omega)
    rw [calculateBackoff_isOk _ _ _ 0 ((Env.timingOut ev).random w)] at hok'
    cases hbackoff : calculateBackoff ev.unicode attempt node.policy
      ((Env.timingOut ev).random w) with
    | error e =>
      rw [hbackoff] at hok'
      cases hok'
    | ok sec => exact ⟨_, run_perform_timingOut rfl rfl, rfl⟩
  · exact ⟨w, rfl, rfl⟩

theorem run_onFailure_timingOut (exc : PyError) (w : World) :
    ∃ w', (onFailure workflowId node exc).run (Env.timingOut ev).handle w = (.ok (), w') ∧
      w'.trace = w.trace := by
  unfold onFailure
  split
  · unfold countFailure
    rw [Prog.run_bind_ok _ (run_perform_timingOut rfl rfl),
      Prog.run_bind_ok _ (run_perform_timingOut rfl rfl)]
    exact ⟨_, rfl, rfl⟩
  · exact ⟨w, rfl, rfl⟩

/-- As many dispatches as attempts are left, while no pause raises. -/
theorem le_dispatchCount_retryLoop (config : List (String × Json)) (context : Context) (m : ℕ)
    {left attempt : ℕ} (hleft : m ≤ left) (lastError : Option PyError)
    (lastCategory : ErrorCategory) (w : World)
    (hok : ∀ j, 2 ≤ j → j < attempt + m →
      (calculateBackoff ev.unicode j node.policy 0).isOk = true) :
    w.dispatchCount runId node.id + m ≤
      ((retryLoop ev tenant runId workflowId node config context stepId left attempt lastError
        lastCategory).run (Env.timingOut ev).handle w).2.dispatchCount runId node.id := by
  induction m generalizing left attempt lastError lastCategory w with
  | zero => exact dispatchCount_mono (Env.trace_extends _ _ w) _
  | succ m ih =>
    obtain ⟨left, rfl⟩ := Nat.exists_eq_add_of_le' (Nat.one_le_of_lt hleft)
    unfold retryLoop
    obtain ⟨w₁, hbackoff, htrace₁⟩ := @run_backoff_timingOut ev node attempt w
      fun htwo => hok attempt htwo (by omega)
    rw [Prog.run_bind_ok _ hbackoff]
    -- the dispatch times out
    have htry : (tryNode tenant runId node config context stepId).run (Env.timingOut ev).handle w₁ =
        (.error ⟨.timeoutError, "timed out"⟩,
          { w₁.log (.dispatched runId node.id config context false) with
            tick := w₁.tick + 1 }) := by
      unfold tryNode
      apply Prog.run_bind_error
      rw [Prog.run_perform]
      rfl
    rw [Prog.run_bind_ok _ (by rw [Prog.run_attempt, htry])]
    obtain ⟨w₂, hfailure, htrace₂⟩ := @run_onFailure_timingOut ev workflowId node
      ⟨.timeoutError, "timed out"⟩
      { w₁.log (.dispatched runId node.id config context false) with tick := w₁.tick + 1 }
    show _ ≤ World.dispatchCount runId node.id (Prog.run _ (onFailure workflowId node _ >>= _) _).2
    rw [Prog.run_bind_ok _ hfailure]
    have hcategory : categorizeError ⟨.timeoutError, "timed out"⟩ = .transient := by
      decide +kernel
    rw [hcategory]
    have hrest := @ih left (attempt + 1) (by omega) (some ⟨.timeoutError, "timed out"⟩) .transient
      w₂ fun j htwo hj => hok j htwo (by omega)
    have hcount : w₂.dispatchCount runId node.id = w.dispatchCount runId node.id + 1 := by
      unfold World.dispatchCount
      rw [htrace₂, ← htrace₁]
      simp [World.log, Event.isDispatchOf]
    rw [hcount] at hrest
    exact (by omega : _ ≤ _ + 1 + m).trans hrest

/-- A node that times out is dispatched once more than the policy does not stop. -/
theorem le_dispatchCount_executeNode (hstops : ¬ node.policy.Stops ev.unicode n)
    (context : Context) (w : World) :
    w.dispatchCount runId node.id + (n + 1) ≤
      ((executeNode ev tenant runId workflowId node context).run (Env.timingOut ev).handle
        w).2.dispatchCount runId node.id := by
  unfold Retry.Stops at hstops
  push Not at hstops
  obtain ⟨max, hmax, hlt, hok⟩ := hstops
  have hattempts : ∀ w' : World, w'.trace = w.trace →
      w.dispatchCount runId node.id + (n + 1) ≤
        ((runAttempts ev tenant runId workflowId node (resolveConfig ev.unicode node context)
          context w.steps.fresh).run (Env.timingOut ev).handle w').2.dispatchCount runId
            node.id := by
    intro w' htrace
    have hloop := @le_dispatchCount_retryLoop ev tenant runId workflowId node w.steps.fresh
      (resolveConfig ev.unicode node context) context (n + 1) max.toNat 1 (by omega) none .transient
      w' fun j htwo hj => by
        have hne := hok j htwo (by omega)
        simpa using hne
    have hsame : w'.dispatchCount runId node.id = w.dispatchCount runId node.id := by
      unfold World.dispatchCount
      rw [htrace]
    rw [hsame] at hloop
    rw [runAttempts_eq _ _ hmax]
    refine hloop.trans (dispatchCount_mono ?_ _)
    rcases hrun : (retryLoop ev tenant runId workflowId node (resolveConfig ev.unicode node context)
      context w.steps.fresh max.toNat 1 none .transient).run (Env.timingOut ev).handle w' with
      ⟨e | out, w''⟩
    · simp only [Prog.run_bind_error _ hrun, List.prefix_rfl]
    · rw [Prog.run_bind_ok _ hrun]
      exact Env.trace_extends _ _ w''
  unfold executeNode
  rw [Prog.run_bind, Prog.run_perform]
  show _ ≤ World.dispatchCount runId node.id
    (Prog.run _ (executeStep ev tenant runId workflowId node _ context w.steps.fresh) _).2
  unfold executeStep
  cases node.connection? with
  | none => exact hattempts _ rfl
  | some c =>
    dsimp only
    rw [Prog.run_bind_ok _ (run_perform_timingOut rfl rfl)]
    exact hattempts _ rfl

/-- A policy that lets a node that times out be dispatched at most `n` times stops it there. -/
theorem stops_of_timingOut (u : Unicode) (n : ℕ) (node : WorkflowNode)
    (h : ((executeNode (.source u) "acme" "RUN-1" "wf_1" node ⟨.null, [], "acme", ""⟩).run
      (Env.timingOut (.source u)).handle World.empty).2.dispatchCount "RUN-1" node.id ≤
        World.empty.dispatchCount "RUN-1" node.id + n) : node.policy.Stops u n := by
  by_contra hstops
  have hmore := @le_dispatchCount_executeNode (.source u) "acme" "RUN-1" "wf_1" node n hstops
    ⟨.null, [], "acme", ""⟩ World.empty
  omega

/-- **How often a node is dispatched**: at most `n` times, whatever happens, exactly if its policy
stops it there. -/
theorem dispatchedAtMost_iff (u : Unicode) (n : ℕ) (node : WorkflowNode) :
    node.DispatchedAtMost u n ↔ node.policy.Stops u n := by
  constructor
  · exact fun h => stops_of_timingOut u n node (h (Env.timingOut (.source u)) "acme" "RUN-1" "wf_1"
      ⟨.null, [], "acme", ""⟩ World.empty rfl)
  · rintro h env tenant runId workflowId context w rfl
    exact (atMost_executeNode h context).run (dispatchCount_handle env node.id) w

/-! ## At least one attempt -/

/-- What follows takes no dispatch back. -/
theorem dispatchCount_bind {α β : Type} (env : Env) (prog : M α) (f : α → M β) (w : World) :
    (prog.run env.handle w).2.dispatchCount runId node.id ≤
      ((prog >>= f).run env.handle w).2.dispatchCount runId node.id := by
  rw [Prog.run_bind]
  rcases prog.run env.handle w with ⟨e | a, w₁⟩
  · exact le_rfl
  · exact dispatchCount_mono (env.trace_extends _ w₁) _

/-- The first attempt makes a dispatch. -/
theorem lt_dispatchCount_retryLoop (env : Env) (config : List (String × Json)) (context : Context)
    (left : ℕ) (lastError : Option PyError) (lastCategory : ErrorCategory) (w : World) :
    w.dispatchCount runId node.id <
      ((retryLoop ev tenant runId workflowId node config context stepId (left + 1) 1 lastError
        lastCategory).run env.handle w).2.dispatchCount runId node.id := by
  have hdispatch : w.dispatchCount runId node.id <
      ((perform (.dispatchNodeType runId node config context)).run env.handle
        w).2.dispatchCount runId node.id := by
    rw [Prog.run_perform]
    simp [Env.handle, Env.faultOf, Env.effect, World.dispatchCount, World.log, Event.isDispatchOf]
  have htry : w.dispatchCount runId node.id <
      (((tryNode tenant runId node config context stepId).attempt).run env.handle
        w).2.dispatchCount runId node.id := by
    rw [Prog.run_attempt]
    exact hdispatch.trans_le (dispatchCount_bind env _ _ w)
  have hnone : (backoff ev node 1).run env.handle w = (.ok (), w) := rfl
  unfold retryLoop
  rw [Prog.run_bind_ok _ hnone]
  exact htry.trans_le (dispatchCount_bind env _ _ w)

/-- A node whose policy allows an attempt is dispatched, unless its circuit breaker is open. -/
theorem lt_dispatchCount_executeNode {env : Env} {max : ℤ}
    (hmax : node.policy.maxAttempts env.unicode = .ok max) (hone : 1 ≤ max)
    (hfault : ∀ o w, env.faultOf o w = none)
    (hclosed : ∀ w c, node.connection? = some c → env.circuitState w c ≠ .open)
    (context : Context) (w : World) :
    w.dispatchCount runId node.id <
      ((executeNode env.toEvaluator tenant runId workflowId node context).run env.handle
        w).2.dispatchCount runId node.id := by
  obtain ⟨left, hleft⟩ : ∃ left, max.toNat = left + 1 := ⟨max.toNat - 1, by omega⟩
  have hattempts : ∀ config stepId (w' : World), w'.trace = w.trace →
      w.dispatchCount runId node.id < ((runAttempts env.toEvaluator tenant runId workflowId node
        config context stepId).run env.handle w').2.dispatchCount runId node.id := by
    intro config stepId w' htrace
    have hloop := @lt_dispatchCount_retryLoop env.toEvaluator tenant runId workflowId node stepId env
      config context left none .transient w'
    rw [World.dispatchCount, htrace, ← World.dispatchCount, ← hleft] at hloop
    rw [runAttempts_eq _ _ hmax]
    exact hloop.trans_le (dispatchCount_bind env _ _ w')
  have hrecord : (perform (.recordStep tenant runId node .running
      (resolveConfig env.unicode node context))).run env.handle w =
      (.ok w.steps.fresh, { w.recordStep tenant runId node .running
        (resolveConfig env.unicode node context) with tick := w.tick + 1 }) := by
    rw [Prog.run_perform, env.handle_of_faultOf (hfault _ _)]
    rfl
  unfold executeNode
  rw [Prog.run_bind_ok _ hrecord]
  unfold executeStep
  cases hconnection : node.connection? with
  | none => exact hattempts _ _ _ rfl
  | some c =>
    set w₁ : World := { w.recordStep tenant runId node .running
      (resolveConfig env.unicode node context) with tick := w.tick + 1 } with hw₁
    have hstate : (perform (.getCircuitBreakerState c)).run env.handle w₁ =
        (.ok (env.circuitState w₁ c), { w₁ with tick := w₁.tick + 1 }) := by
      rw [Prog.run_perform, env.handle_of_faultOf (hfault _ _)]
      rfl
    dsimp only
    rw [Prog.run_bind_ok _ hstate]
    cases hcircuit : env.circuitState w₁ c with
    | «open» => exact absurd hcircuit (hclosed w₁ c hconnection)
    | closed => exact hattempts _ _ _ rfl
    | halfOpen => exact hattempts _ _ _ rfl

/-- A node is dispatched, and not more than `n` times, exactly if its policy allows an attempt and
stops there. -/
theorem dispatchedUpTo_iff (u : Unicode) (n : ℕ) (node : WorkflowNode) :
    node.DispatchedUpTo u n ↔
      (∃ max, node.policy.maxAttempts u = .ok max ∧ 1 ≤ max) ∧ node.policy.Stops u n := by
  constructor
  · intro h
    obtain ⟨hleast, hmost⟩ := h (Env.timingOut (.source u)) "acme" "RUN-1" "wf_1"
      ⟨.null, [], "acme", ""⟩ World.empty rfl (fun o w => by cases o <;> rfl) fun _ _ _ => nofun
    refine ⟨?_, stops_of_timingOut u n node hmost⟩
    by_contra hnone
    push Not at hnone
    -- a policy without an attempt stops at once
    have hstops : node.policy.Stops u 0 := fun max hmax => .inl (by have := hnone max hmax; omega)
    have hzero := (dispatchedAtMost_iff u 0 node).2 hstops (Env.timingOut (.source u)) "acme" "RUN-1"
      "wf_1" ⟨.null, [], "acme", ""⟩ World.empty rfl
    omega
  · rintro ⟨⟨max, hmax, hone⟩, hstops⟩ env tenant runId workflowId context w rfl hfault hclosed
    exact ⟨lt_dispatchCount_executeNode hmax hone hfault hclosed context w,
      (dispatchedAtMost_iff _ n node).2 hstops env tenant runId workflowId context w rfl⟩

end

/-- **The bounds of the schema** on the attempts of a node hold exactly for the retry settings that
the schema checks, and for the dictionaries with at least one attempt which end at the latest in
front of the eleventh. -/
theorem attempts_bounded_iff (u : Unicode) (d : WorkflowDefinition) (node : WorkflowNode)
    (hnode : node ∈ d.nodes) :
    node.DispatchedUpTo u 10 ↔ ∀ items, node.retry = some (.dict items) → items ≠ [] →
      ∃ max, (Retry.dict items).maxAttempts u = .ok max ∧ 1 ≤ max ∧ (max ≤ 10 ∨
        ∃ attempt, 2 ≤ attempt ∧ attempt ≤ 11 ∧
          (calculateBackoff u attempt (.dict items) 0).isOk = false) := by
  have hbounded : ∀ max : ℤ, node.policy.maxAttempts u = .ok max → 1 ≤ max → max ≤ 10 →
      node.DispatchedUpTo u 10 := fun max hmax hone hten =>
    (dispatchedUpTo_iff u 10 node).2 ⟨⟨max, hmax, hone⟩, fun m hm => by
      obtain rfl : max = m := Except.ok.inj (hmax.symm.trans hm)
      exact .inl hten⟩
  have hone : (Retry.dict defaultPolicy).maxAttempts u = .ok 1 := rfl
  cases hretry : node.retry with
  | none =>
    have hpolicy : node.policy = .dict defaultPolicy := by rw [WorkflowNode.policy, hretry]
    simp [hbounded 1 (hpolicy ▸ hone)]
  | some retry =>
    cases retry with
    | policy p =>
      have hpolicy : node.policy = .policy p := by rw [WorkflowNode.policy, hretry]
      obtain ⟨hleast, hmost⟩ := (d.fieldsOk_of_mem hnode).2 p hretry
      simp [hbounded p.maxAttempts (by rw [hpolicy]; rfl) hleast hmost]
    | dict items =>
      rcases items with _ | ⟨item, items⟩
      · have hpolicy : node.policy = .dict defaultPolicy := by rw [WorkflowNode.policy, hretry]
        simp [hbounded 1 (hpolicy ▸ hone)]
      · have hpolicy : node.policy = .dict (item :: items) := by rw [WorkflowNode.policy, hretry]
        rw [dispatchedUpTo_iff, hpolicy]
        constructor
        · rintro ⟨⟨max, hmax, hleast⟩, hstops⟩ items' heq -
          cases heq
          exact ⟨max, hmax, hleast, hstops max hmax⟩
        · intro h
          obtain ⟨max, hmax, hleast, hstops⟩ := h _ rfl (List.cons_ne_nil _ _)
          refine ⟨⟨max, hmax, hleast⟩, fun m hm => ?_⟩
          obtain rfl : max = m := Except.ok.inj (hmax.symm.trans hm)
          exact hstops

/-- A node that may not be attempted. -/
def idleNode : WorkflowNode where
  id := "notify"
  type := "action.http"
  name := "Notify"
  retry := some (.dict [("max_attempts", .int 0)])

/-- The workflow of this one node. -/
def idleWorkflow : WorkflowDefinition where
  id := some "wf_idle"
  name := "idle"
  trigger := { type := "webhook" }
  nodes := [idleNode]
  edges := []
  accepted := by decide

theorem attempts_bounded_iff_idle :
    idleNode.DispatchedUpTo ⟨fun _ => true, fun _ => none⟩ 10 ↔
      ∀ items, idleNode.retry = some (.dict items) → items ≠ [] → ∃ max,
        (Retry.dict items).maxAttempts ⟨fun _ => true, fun _ => none⟩ = .ok max ∧ 1 ≤ max ∧
        (max ≤ 10 ∨ ∃ attempt, 2 ≤ attempt ∧ attempt ≤ 11 ∧
          (calculateBackoff ⟨fun _ => true, fun _ => none⟩ attempt (.dict items) 0).isOk = false) :=
  attempts_bounded_iff ⟨fun _ => true, fun _ => none⟩ idleWorkflow idleNode List.mem_cons_self

/-- It is dispatched never. -/
theorem not_dispatchedUpTo_idle :
    idleNode ∈ idleWorkflow.nodes ∧ ¬ idleNode.DispatchedUpTo ⟨fun _ => true, fun _ => none⟩ 10 := by
  refine ⟨List.mem_cons_self, fun h => ?_⟩
  obtain ⟨⟨max, hmax, hone⟩, -⟩ := (dispatchedUpTo_iff _ 10 idleNode).1 h
  cases hmax
  exact absurd hone (by decide)

end FlowMesh
