import FlowMesh.Library.Fifo
import FlowMesh.Engine.NodeSpec

/-!
# What an execution does

`Traverses` says once what the traversal loop of `execute` can do to the ledger of its run, node
by node, and `Runs` what a whole `execute` call can do. Every property of the engine's traversal
is proved by induction over `Traverses`; that the program stays inside it is `traverse_does` and
`execute_does`.

The loop is given `traverseFuel` iterations. `traverse_does` shows that this is enough: the only
way it finishes is with the queue empty.
-/

namespace FlowMesh

open Python Async

/-! ## Parking -/

/-- What `_park_approval_step` and the status update behind it can do. -/
inductive Parks (tenant runId : String) (node : WorkflowNode) (L : Ledger) :
    Except PyError Unit → Ledger → Prop
  | unrecorded (e : PyError) : Parks tenant runId node L (.error e) L
  | recorded {row : RunStepRecord} (hnew : row.id ∉ L.steps.map (·.id))
      (hof : StepOf tenant runId node row) (hstatus : row.status = .waitingApproval)
      (e : PyError) : Parks tenant runId node L (.error e) (L.add row)
  | parked {row : RunStepRecord} (hnew : row.id ∉ L.steps.map (·.id))
      (hof : StepOf tenant runId node row) (hstatus : row.status = .waitingApproval)
      (r : Except PyError Unit) :
      Parks tenant runId node L r ((L.add row).setRun fun run =>
        { run with status := .waitingApproval, outputPayload := .null, error := none })

/-- What the step of the gate and an update of the run keep, parking keeps. -/
theorem Parks.invariant {I : Ledger → Prop} {tenant runId : String} {node : WorkflowNode}
    {L L' : Ledger} {r : Except PyError Unit} (h : Parks tenant runId node L r L')
    (hadd : ∀ row : RunStepRecord, row.id ∉ L.steps.map (·.id) → StepOf tenant runId node row →
      row.status = .waitingApproval → I (L.add row))
    (hset : ∀ L f, I L → I (L.setRun f)) (hL : I L) : I L' := by
  cases h with
  | unrecorded e => exact hL
  | recorded hnew hof hst => exact hadd _ hnew hof hst
  | parked hnew hof hst => exact hset _ _ (hadd _ hnew hof hst)

theorem park_does {env : Env} {tenant runId : String} {node : WorkflowNode} {context : Context}
    {L : Ledger} : env.Does tenant runId (park env.toEvaluator tenant runId node context) L
      (Parks tenant runId node L) := by
  have hof : ∀ id, StepOf tenant runId node (World.newStep tenant runId node .waitingApproval
      (resolveConfig env.unicode node context) id) := fun _ => ⟨rfl, rfl, rfl, rfl⟩
  unfold park
  refine Env.Does.seq (Env.Does.recordStep (fun id hid => ⟨?_, fun e => ?_⟩) fun e =>
    .unrecorded e)
  · refine Env.Does.updateRunStatus rfl ?_ fun e => ⟨?_, ?_⟩
    · exact .parked hid (hof id) rfl _
    · exact .recorded hid (hof id) rfl e
    · exact .parked hid (hof id) rfl _
  · exact .recorded hid (hof id) rfl e

/-! ## The loop -/

section Loop

variable (env : Env) (tenant runId : String) (d : WorkflowDefinition) (completed : List String)

/-- What the traversal loop can do to the ledger of its run. -/
inductive Traverses : Traversal → Ledger → Except PyError Outcome → Ledger → Prop
  /-- The queue is empty. -/
  | finished {t : Traversal} {L : Ledger} (hq : t.queue = []) :
      Traverses t L (.ok (.finished t.lastOutput)) L
  /-- The node was visited before. -/
  | skip {t : Traversal} {L L' : Ledger} {r : Except PyError Outcome} {id : String}
      {queue : List String} (hq : t.queue = id :: queue) (hv : id ∈ t.visited)
      (h : Traverses { t with queue } L r L') : Traverses t L r L'
  /-- The snapshot has the node as completed. -/
  | reuse {t : Traversal} {L L' : Ledger} {r : Except PyError Outcome} {id : String}
      {queue : List String} {node : WorkflowNode} (hq : t.queue = id :: queue)
      (hv : id ∉ t.visited) (hn : d.node? id = some node) (hc : id ∈ completed)
      (h : Traverses (((t.pop id queue).reuse id).follow env.toEvaluator d id) L r L') :
      Traverses t L r L'
  /-- The node is an approval gate. -/
  | parked {t : Traversal} {L L' : Ledger} {r : Except PyError Unit} {id : String}
      {queue : List String} {node : WorkflowNode} (hq : t.queue = id :: queue)
      (hv : id ∉ t.visited) (hn : d.node? id = some node) (hc : id ∉ completed)
      (ht : node.type = "action.approval") (hp : Parks tenant runId node L r L') :
      Traverses t L (r.map fun _ => .parked) L'
  /-- The node failed, or something raised. -/
  | stopped {t : Traversal} {L L' : Ledger} {r : Except PyError StepResult}
      {r' : Except PyError Outcome} {id : String} {queue : List String} {node : WorkflowNode}
      (hq : t.queue = id :: queue) (hv : id ∉ t.visited) (hn : d.node? id = some node)
      (hc : id ∉ completed) (ht : node.type ≠ "action.approval")
      (hx : Executes env tenant runId node t.context L r L')
      (hr : ∀ output durationMs, r ≠ .ok (.success output durationMs))
      (hr' : ∀ lastOutput, r' ≠ .ok (.finished lastOutput)) : Traverses t L r' L'
  /-- The node succeeded. -/
  | executed {t : Traversal} {L L₁ L' : Ledger} {r : Except PyError Outcome} {id : String}
      {queue : List String} {node : WorkflowNode} {output : Json} {durationMs : PyFloat}
      (hq : t.queue = id :: queue) (hv : id ∉ t.visited) (hn : d.node? id = some node)
      (hc : id ∉ completed) (ht : node.type ≠ "action.approval")
      (hx : Executes env tenant runId node t.context L (.ok (.success output durationMs)) L₁)
      (h : Traverses (((t.pop id queue).succeed id output durationMs).follow env.toEvaluator d id)
        L₁ r L') : Traverses t L r L'

end Loop

section

variable {env : Env} {tenant : String} {d : WorkflowDefinition} {completed : List String}

/-- The number of edges out of a node. -/
def WorkflowDefinition.outDegree (d : WorkflowDefinition) (id : String) : ℕ := (d.outgoing id).length

/-- The iterations that a traversal can still need. -/
def Traversal.budget (d : WorkflowDefinition) (t : Traversal) : ℕ :=
  t.queue.length + Fifo.pending d.nodeIds d.outDegree t.visited

theorem length_targets_le (ev : Evaluator) (id : String) (context : Context) (p : String → Bool) :
    ((d.targets ev id context).filter p).length ≤ d.outDegree id := by
  refine (List.length_filter_le _ _).trans ?_
  rw [WorkflowDefinition.targets, List.length_map]
  exact List.length_filter_le _ _

theorem targets_mem (ev : Evaluator) {id x : String} {context : Context}
    (hx : x ∈ d.targets ev id context) : x ∈ d.nodeIds := by
  obtain ⟨e, he, rfl⟩ := List.mem_map.1 hx
  exact d.target_mem (List.mem_of_mem_filter (List.mem_of_mem_filter he))

theorem Traversal.queue_of_budget {t : Traversal} (h : t.budget d ≤ 0) : t.queue = [] := by
  unfold budget at h
  exact List.length_eq_zero_iff.1 (by omega)

/-- Visiting a node uses up its edges. -/
theorem Traversal.budget_follow {t t' : Traversal} {id : String} {queue : List String}
    (hq : t.queue = id :: queue) (hv : id ∉ t.visited) (hid : id ∈ d.nodeIds)
    (hq' : t'.queue = queue) (hv' : t'.visited = t.visited ++ [id]) (ev : Evaluator) :
    (t'.follow ev d id).budget d + 1 ≤ t.budget d := by
  have hlen := length_targets_le (d := d) ev id t'.context (· ∉ t'.visited)
  have hpend := Fifo.pending_visit d.nodeIds d.outDegree d.nodup_nodeIds hid hv
  simp only [budget, follow, hq, hq', hv', List.length_append, List.length_cons] at hlen ⊢
  rw [hpend]
  omega

theorem Traversal.queue_follow {t' : Traversal} {id : String} {ev : Evaluator}
    (hq : ∀ x ∈ t'.queue, x ∈ d.nodeIds) :
    ∀ x ∈ (t'.follow ev d id).queue, x ∈ d.nodeIds := by
  intro x hx
  rcases List.mem_append.1 hx with hx | hx
  · exact hq x hx
  · exact targets_mem ev (List.mem_of_mem_filter hx)

/-- The fuel of `execute` is enough. -/
theorem budget_start_le (context : Context) (lastOutput : Json) :
    Traversal.budget d ⟨d.startNodes, [], context, lastOutput⟩ ≤ traverseFuel d := by
  have hstart : d.startNodes.length ≤ d.nodes.length := by
    rw [d.startNodes_eq, WorkflowSpec.roots]
    refine (List.length_filter_le _ _).trans ?_
    rw [WorkflowSpec.nodeIds, List.length_map]
  have hedges := Fifo.sum_outgoing_le d.nodeIds (·.source) d.nodup_nodeIds d.edges
  simp only [Traversal.budget, traverseFuel, Fifo.pending_nil]
  exact Nat.add_le_add hstart hedges

/-- **What the traversal loop does**, in every environment, given enough fuel. -/
theorem traverse_does (run : RunRecord) (fuel : ℕ) (t : Traversal) (L : Ledger)
    (hq : ∀ x ∈ t.queue, x ∈ d.nodeIds) (hfuel : t.budget d ≤ fuel) :
    env.Does tenant run.id (traverse env.toEvaluator tenant run d completed fuel t) L
      (Traverses env tenant run.id d completed t L) := by
  induction fuel generalizing t L with
  | zero =>
    exact Env.Does.ret (.finished (Traversal.queue_of_budget hfuel))
  | succ fuel ih =>
    unfold traverse
    split
    · next hnil => exact Env.Does.ret (.finished hnil)
    next id queue hcons =>
    have hid : id ∈ d.nodeIds := hq id (by simp [hcons])
    have hqueue : ∀ x ∈ queue, x ∈ d.nodeIds := fun x hx => hq x (by simp [hcons, hx])
    split
    · next hv =>
      refine Env.Does.mono (ih { t with queue } L hqueue ?_) fun r L' h => .skip hcons hv h
      simp only [Traversal.budget, hcons, List.length_cons] at hfuel ⊢
      omega
    next hv =>
    obtain ⟨node, hnode⟩ := d.exists_node hid
    rw [hnode]
    dsimp only
    split
    · next hc =>
      refine Env.Does.mono (ih _ L (Traversal.queue_follow hqueue) ?_) fun r L' h =>
        .reuse hcons hv hnode hc h
      have hbudget : (((t.pop id queue).reuse id).follow env.toEvaluator d id).budget d + 1 ≤
          t.budget d := Traversal.budget_follow hcons hv hid rfl rfl env.toEvaluator
      omega
    next hc =>
    split
    · next ht =>
      refine Env.Does.bind park_does ?_ ?_
      · intro a L' hp
        exact Env.Does.ret (.parked hcons hv hnode hc ht hp)
      · intro e L' hp
        exact .parked hcons hv hnode hc ht hp
    next ht =>
    refine Env.Does.bind (executeNode_does run.workflowId) ?_ ?_
    · intro r L' hx
      cases r with
      | failure error =>
        exact Env.Does.ret (.stopped hcons hv hnode hc ht hx (by simp) (by simp))
      | success output durationMs =>
        refine Env.Does.mono (ih _ L' (Traversal.queue_follow hqueue) ?_) fun r L'' h =>
          .executed hcons hv hnode hc ht hx h
        have hbudget : (((t.pop id queue).succeed id output durationMs).follow env.toEvaluator d
            id).budget d + 1 ≤ t.budget d :=
          Traversal.budget_follow hcons hv hid rfl rfl env.toEvaluator
        omega
    · intro e L' hx
      exact .stopped hcons hv hnode hc ht hx (by simp) (by simp)

/-! ## What the loop leaves alone -/

/-- The traversal appends steps and dispatches, and dispatches nothing that the snapshot has as
completed. -/
theorem Traverses.extends {runId : String} {t : Traversal} {L L' : Ledger}
    {r : Except PyError Outcome} (h : Traverses env tenant runId d completed t L r L') :
    ∃ rows es, L'.steps = L.steps ++ rows ∧ L'.events = L.events ++ es ∧
      ∀ e ∈ es, ∃ n config context ok, e = .dispatched runId n config context ok ∧
        n ∉ completed := by
  -- one node contributes at most a step and its own dispatches
  have hone : ∀ {L L₁ : Ledger} {node : WorkflowNode} {context : Context} {id : String}
      {r : Except PyError StepResult}, Executes env tenant runId node context L r L₁ →
      d.node? id = some node → id ∉ completed →
      ∃ rows es, L₁.steps = L.steps ++ rows ∧ L₁.events = L.events ++ es ∧
        ∀ e ∈ es, ∃ n config context ok, e = .dispatched runId n config context ok ∧
          n ∉ completed := by
    intro L L₁ node context id r hx hn hc
    have hid : node.id = id := (d.node?_eq_some.1 hn).2
    have hes : ∀ {config bs}, ∀ e ∈ dispatches runId node config context bs,
        ∃ n config context ok, e = .dispatched runId n config context ok ∧ n ∉ completed := by
      intro config bs e he
      obtain ⟨b, -, rfl⟩ := List.mem_map.1 he
      exact ⟨node.id, config, context, b, rfl, hid ▸ hc⟩
    cases hx with
    | unrecorded e => exact ⟨[], [], by simp⟩
    | succeeded => exact ⟨_, _, rfl, rfl, hes⟩
    | stopped => exact ⟨_, _, rfl, rfl, hes⟩
  induction h with
  | finished hq => exact ⟨[], [], by simp⟩
  | skip hq hv h ih => exact ih
  | reuse hq hv hn hc h ih => exact ih
  | parked hq hv hn hc ht hp =>
    cases hp with
    | unrecorded e => exact ⟨[], [], by simp⟩
    | recorded => exact ⟨_, [], rfl, by simp⟩
    | parked => exact ⟨_, [], rfl, by simp⟩
  | stopped hq hv hn hc ht hx hr hr' => exact hone hx hn hc
  | executed hq hv hn hc ht hx h ih =>
    obtain ⟨rows, es, hrows, hes, hall⟩ := hone hx hn hc
    obtain ⟨rows', es', hrows', hes', hall'⟩ := ih
    refine ⟨rows ++ rows', es ++ es', by rw [hrows', hrows, List.append_assoc],
      by rw [hes', hes, List.append_assoc], fun e he => ?_⟩
    rcases List.mem_append.1 he with he | he
    · exact hall e he
    · exact hall' e he

end

end FlowMesh
