import FlowMesh.Engine.Order
import FlowMesh.Workflow.Acceptance

/-!
# Runs that complete

If no call raises, no breaker is open and every dispatch succeeds, the traversal of `execute`
leaves one step and one dispatch behind for each node that it visits (`traverse_serves`). If
moreover every edge holds, it visits every node of the definition: the schema admits no cycle, so
that a path leads to each node from a node without incoming edges (`reachable_of_mem`).
`execute_completes` puts both together.
-/

namespace FlowMesh

open Python Database Async

/-! ## Every node can be reached -/

section Reachable

variable {d : WorkflowDefinition}

theorem acyclic (d : WorkflowDefinition) : d.Acyclic :=
  ((WorkflowSpec.validateDag_iff d.toWorkflowSpec).1 d.accepted.2).2.2

/-- Along all the edges, a path leads to every node. -/
theorem reachable_of_mem {id : String} (hid : id ∈ d.nodeIds) : d.Reachable (fun _ => true) id := by
  by_contra hnot
  obtain ⟨m, hm, hunreachable, hfirst⟩ := (acyclic d).exists_first
    (p := fun id => ¬ d.Reachable (fun _ => true) id) ⟨id, hid, hnot⟩
  apply hunreachable
  by_cases hroot : ∀ e ∈ d.edges, e.target ≠ m
  · obtain ⟨i, hi⟩ := List.mem_iff_getElem?.1 (d.mem_startNodes.2 ⟨hm, hroot⟩)
    exact ⟨[i], .start hi⟩
  · push Not at hroot
    obtain ⟨e, he, rfl⟩ := hroot
    obtain ⟨path, hpath⟩ := not_not.1 (hfirst e he rfl (d.source_mem he))
    have hnext : e.target ∈ d.next (fun _ => true) e.source :=
      List.mem_map.2 ⟨e, by simp [WorkflowSpec.outgoing, he], rfl⟩
    obtain ⟨i, hi⟩ := List.mem_iff_getElem?.1 hnext
    exact ⟨path ++ [i], .follow hpath hi⟩

/-- The order in which the nodes are visited along all the edges. -/
def WorkflowDefinition.visits (d : WorkflowDefinition) : List String :=
  ((Fifo.step fun _ => d.next fun _ => true)^[traverseFuel d] ⟨d.startNodes, []⟩).visited

theorem mem_visits {id : String} : id ∈ d.visits ↔ id ∈ d.nodeIds := by
  refine (Fifo.mem_visited_iff (queue_track d _)).trans ⟨?_, reachable_of_mem⟩
  exact mem_nodeIds_of_reachable

/-- Every node is visited once. -/
theorem visits_perm (d : WorkflowDefinition) : d.visits.Perm d.nodeIds := by
  have hnodup : d.visits.Nodup := Fifo.nodup_visited _ _ List.nodup_nil
  rw [List.perm_ext_iff_of_nodup hnodup d.nodup_nodeIds]
  exact fun id => mem_visits

end Reachable

/-! ## Nothing in the way -/

/-- Nothing stands in the way of the nodes: no call raises, no breaker of their connections is
open, and every dispatch succeeds. -/
structure Env.Serves (env : Env) (d : WorkflowDefinition) : Prop where
  faultless : ∀ o w, env.faultOf o w = none
  closed : ∀ node ∈ d.nodes, ∀ c, node.connection? = some c → ∀ w, env.circuitState w c ≠ .open
  dispatches : ∀ node ∈ d.nodes, ∀ w config context,
    (env.dispatch w node config context).isOk = true

/-- What serving nodes appends to a ledger: for each of them one step in status `SUCCESS`, and one
dispatch, which succeeds. -/
inductive Completes (tenant runId : String) : List String → Ledger → Ledger → Prop
  | none (L : Ledger) : Completes tenant runId [] L L
  | node {node : WorkflowNode} {row : RunStepRecord} {config : List (String × Json)}
      {context : Context} {ids : List String} {L L' : Ledger} (hof : StepOf tenant runId node row)
      (hstatus : row.status = .success)
      (h : Completes tenant runId ids
        ((L.add row).log [.dispatched runId node.id config context true]) L') :
      Completes tenant runId (node.id :: ids) L L'

section Serves

variable {env : Env} {tenant runId : String} {d : WorkflowDefinition} {node : WorkflowNode}
  {context : Context} {L : Ledger}

theorem Completes.run {ids : List String} {L' : Ledger} (h : Completes tenant runId ids L L') :
    L'.run = L.run := by
  induction h with
  | none => rfl
  | node hof hstatus h ih => exact ih

/-- A call that does not raise, and then the rest. -/
theorem Env.Does.answer {o : Op} {α : Type} {f : o.Res → M α} {Φ : Except PyError α → Ledger → Prop}
    (hf : ∀ w, env.faultOf o w = none)
    (hx : ∀ w : World, w.ledger tenant runId = L → ∃ x L', (env.effect o w).1 = .ok x ∧
      (env.effect o w).2.ledger tenant runId = L' ∧ env.Does tenant runId (f x) L' Φ) :
    env.Does tenant runId (perform o >>= f) L Φ := by
  refine Env.Does.seq (Env.Does.call (fun w hw _ => ?_) fun w e b _ hfault => ?_)
  · obtain ⟨x, L', hres, hledger, hrest⟩ := hx w hw
    rw [hres, hledger]
    exact hrest
  · rw [hf] at hfault
    cases hfault

/-- A call that touches no ledger and does not raise, and then the rest. -/
theorem Env.Does.quiet_answer {o : Op} {α : Type} {f : o.Res → M α}
    {Φ : Except PyError α → Ledger → Prop} (hf : ∀ w, env.faultOf o w = none) (ho : o.Quiet)
    (hx : ∀ w, ∃ x, (env.effect o w).1 = .ok x ∧ env.Does tenant runId (f x) L Φ) :
    env.Does tenant runId (perform o >>= f) L Φ := by
  apply Env.Does.answer hf
  intro w hw
  obtain ⟨x, hres, hrest⟩ := hx w
  exact ⟨x, L, hres, (env.ledger_quiet _ _ ho w).trans hw, hrest⟩

theorem closeCircuit_serves (h : env.Serves d) :
    env.Does tenant runId (closeCircuit node) L fun r L' => r = .ok () ∧ L' = L := by
  refine Env.Does.mono closeCircuit_does ?_
  rintro r L' ⟨rfl, hok⟩
  cases r with
  | ok u => exact ⟨rfl, rfl⟩
  | error e => cases hok fun o w _ => h.faultless o w

/-- The first attempt of a dispatch that succeeds. -/
theorem tryNode_serves (h : env.Serves d) (hnode : node ∈ d.nodes) {row : RunStepRecord}
    (hnew : row.id ∉ L.steps.map (·.id)) (config : List (String × Json)) :
    env.Does tenant runId (tryNode tenant runId node config context row.id) (L.add row) fun r L' =>
      ∃ res, r = .ok res ∧
        L' = (L.add (row.settled res)).log [.dispatched runId node.id config context true] := by
  unfold tryNode
  apply Env.Does.answer (h.faultless _)
  rintro w hw
  have hok := h.dispatches node hnode w config context
  cases hres : env.dispatch w node config context with
  | error e =>
    rw [hres] at hok
    cases hok
  | ok res =>
    refine ⟨res, (L.add row).log [.dispatched runId node.id config context true], hres, ?_, ?_⟩
    · rw [← hw]
      simp only [Env.effect, hres]
      exact World.ledger_log rfl
    have hamend : ((L.add row).log [.dispatched runId node.id config context true]).amend
        row.id (·.settled res) =
        (L.add (row.settled res)).log [.dispatched runId node.id config context true] := by
      rw [Ledger.amend_log, Ledger.amend_add _ hnew]
    unfold settle
    simp only [Prog.bind_assoc]
    refine Env.Does.bind (closeCircuit_serves h) ?_ ?_
    · rintro - L' ⟨-, rfl⟩
      apply Env.Does.answer (h.faultless _)
      rintro w' hw'
      refine ⟨(), (L.add (row.settled res)).log [.dispatched runId node.id config context true],
        rfl, ?_, ?_⟩
      · rw [← hamend, ← hw']
        exact World.ledger_updateStep row.id .success res.durationMs res.output none
      refine Env.Does.quiet_answer (h.faultless _) (by trivial) fun w'' => ⟨(), rfl, ?_⟩
      exact Env.Does.ret ⟨res, rfl, rfl⟩
    · rintro e L' ⟨hr, -⟩
      cases hr

theorem retryLoop_serves (h : env.Serves d) (hnode : node ∈ d.nodes) (workflowId : String)
    {row : RunStepRecord} (hnew : row.id ∉ L.steps.map (·.id)) (config : List (String × Json))
    (left : ℕ) :
    env.Does tenant runId (retryLoop env.toEvaluator tenant runId workflowId node config context
      row.id (left + 1) 1 none .transient) (L.add row) fun r L' => ∃ res, r = .ok (.done res) ∧
        L' = (L.add (row.settled res)).log [.dispatched runId node.id config context true] := by
  unfold retryLoop
  -- the first attempt comes at once
  refine Env.Does.bind (Ψ := fun r L' => r = .ok () ∧ L' = L.add row) (Env.Does.ret ⟨rfl, rfl⟩) ?_ ?_
  · rintro u L₁ ⟨-, rfl⟩
    apply Env.Does.seq
    apply Env.Does.attempt
    refine Env.Does.mono (tryNode_serves h hnode hnew config) ?_
    rintro r L' ⟨res, rfl, rfl⟩
    exact Env.Does.ret ⟨res, rfl, rfl⟩
  · rintro e L₁ ⟨hr, -⟩
    cases hr

theorem runAttempts_serves (h : env.Serves d) (hnode : node ∈ d.nodes)
    (hattempts : node.Attempts env.unicode) (workflowId : String) {row : RunStepRecord}
    (hnew : row.id ∉ L.steps.map (·.id)) (config : List (String × Json)) :
    env.Does tenant runId (runAttempts env.toEvaluator tenant runId workflowId node config context
      row.id) (L.add row) fun r L' => ∃ res : DispatchResult,
        r = .ok (.success res.output res.durationMs) ∧
        L' = (L.add (row.settled res)).log [.dispatched runId node.id config context true] := by
  obtain ⟨maxAttempts, hmax, hpos⟩ := hattempts
  obtain ⟨left, hleft⟩ : ∃ left, maxAttempts.toNat = left + 1 := ⟨maxAttempts.toNat - 1, by omega⟩
  unfold runAttempts
  rw [hmax]
  simp only [hleft]
  refine Env.Does.bind (retryLoop_serves h hnode workflowId hnew config left) ?_ ?_
  · rintro out L' ⟨res, hout, rfl⟩
    cases hout
    exact Env.Does.ret ⟨res, rfl, rfl⟩
  · rintro e L' ⟨res, hr, -⟩
    cases hr

/-- Executing a node that nothing stands in the way of. -/
theorem executeNode_serves (h : env.Serves d) (hnode : node ∈ d.nodes)
    (hattempts : node.Attempts env.unicode) (workflowId : String) :
    env.Does tenant runId (executeNode env.toEvaluator tenant runId workflowId node context) L
      fun r L' => ∃ row output durationMs, r = .ok (.success output durationMs) ∧
        StepOf tenant runId node row ∧ row.status = .success ∧
        L' = (L.add row).log [.dispatched runId node.id
          (resolveConfig env.unicode node context) context true] := by
  have hdone : ∀ row : RunStepRecord, row.id ∉ L.steps.map (·.id) →
      StepOf tenant runId node row →
      env.Does tenant runId (runAttempts env.toEvaluator tenant runId workflowId node
        (resolveConfig env.unicode node context) context row.id) (L.add row) fun r L' =>
          ∃ row output durationMs, r = .ok (.success output durationMs) ∧
            StepOf tenant runId node row ∧ row.status = .success ∧
            L' = (L.add row).log [.dispatched runId node.id
              (resolveConfig env.unicode node context) context true] := by
    intro row hnew hof
    refine Env.Does.mono (runAttempts_serves h hnode hattempts workflowId hnew _) ?_
    rintro r L' ⟨res, rfl, rfl⟩
    exact ⟨row.settled res, _, _, rfl, ⟨hof.runId, hof.tenantId, hof.nodeId, hof.nodeType⟩, rfl,
      rfl⟩
  unfold executeNode
  apply Env.Does.answer (h.faultless _)
  rintro w rfl
  refine ⟨_, _, rfl, World.ledger_recordStep node .running _, ?_⟩
  unfold executeStep
  cases hc : node.connection? with
  | none => exact hdone _ World.fresh_not_mem_ledger ⟨rfl, rfl, rfl, rfl⟩
  | some c =>
    refine Env.Does.quiet_answer (h.faultless _) (by trivial) fun w' => ⟨_, rfl, ?_⟩
    have hclosed := h.closed node hnode c hc w'
    cases hstate : env.circuitState w' c with
    | «open» => exact absurd hstate hclosed
    | closed => exact hdone _ World.fresh_not_mem_ledger ⟨rfl, rfl, rfl, rfl⟩
    | halfOpen => exact hdone _ World.fresh_not_mem_ledger ⟨rfl, rfl, rfl, rfl⟩

/-! ## The traversal -/

theorem targets_eq {ev : Evaluator} (hfires : ∀ e ∈ d.edges, ∀ context, ev.fires e context = true)
    (id : String) (context : Context) : d.targets ev id context = d.next (fun _ => true) id := by
  unfold WorkflowDefinition.targets WorkflowSpec.next
  congr 1
  apply List.filter_congr
  intro e he
  exact hfires e (List.mem_of_mem_filter he) context

theorem follow_eq {ev : Evaluator} (hfires : ∀ e ∈ d.edges, ∀ context, ev.fires e context = true)
    (t : Traversal) (id : String) :
    t.follow ev d id = t.follow (valued ev.unicode fun _ => true) d id := by
  unfold Traversal.follow
  rw [targets_eq hfires]
  rfl

/-- **The traversal of a definition whose edges hold**, with nothing in the way: the nodes that it
has not visited yet are served, in order. -/
theorem traverse_serves (h : env.Serves d)
    (hfires : ∀ e ∈ d.edges, ∀ context, env.fires e context = true)
    (hnodes : ∀ node ∈ d.nodes, node.type ≠ "action.approval" ∧ node.Attempts env.unicode)
    (run : RunRecord) (fuel : ℕ) (t : Traversal) (L : Ledger) (hq : ∀ x ∈ t.queue, x ∈ d.nodeIds)
    (hfuel : t.budget d ≤ fuel) :
    env.Does tenant run.id (traverse env.toEvaluator tenant run d [] fuel t) L fun r L' =>
      ∃ lastOutput ids, r = .ok (.finished lastOutput) ∧
        d.order (fun _ => true) fuel t = t.visited ++ ids ∧ Completes tenant run.id ids L L' := by
  induction fuel generalizing t L with
  | zero =>
    exact Env.Does.ret ⟨_, [], rfl, (List.append_nil _).symm, .none L⟩
  | succ fuel ih =>
    unfold traverse
    rcases hqueue : t.queue with _ | ⟨id, queue⟩
    · refine Env.Does.ret ⟨_, [], rfl, ?_, .none L⟩
      rw [WorkflowSpec.order, hqueue, Fifo.iterate_nil, List.append_nil]
    have hid : id ∈ d.nodeIds := hq id (by simp [hqueue])
    have hrest : ∀ x ∈ queue, x ∈ d.nodeIds := fun x hx => hq x (by simp [hqueue, hx])
    simp only
    by_cases hv : id ∈ t.visited
    · rw [if_pos hv]
      have hbudget : Traversal.budget d { t with queue } ≤ fuel := by
        simp only [Traversal.budget, hqueue, List.length_cons] at hfuel ⊢
        omega
      refine Env.Does.mono (ih { t with queue } L hrest hbudget) ?_
      rintro r L' ⟨lastOutput, ids, hr, horder, hserved⟩
      exact ⟨lastOutput, ids, hr, (order_skip hqueue hv).trans horder, hserved⟩
    rw [if_neg hv]
    obtain ⟨node, hnode⟩ := d.exists_node hid
    obtain ⟨hmem, rfl⟩ := d.node?_eq_some.1 hnode
    obtain ⟨hgate, hattempts⟩ := hnodes node hmem
    rw [hnode]
    simp only [List.not_mem_nil, if_false, if_neg hgate]
    refine Env.Does.bind (executeNode_serves h hmem hattempts run.workflowId) ?_ ?_
    · rintro out L₁ ⟨row, output, durationMs, hout, hof, hstatus, rfl⟩
      cases hout
      have hbudget : (((t.pop node.id queue).succeed node.id output durationMs).follow
          env.toEvaluator d node.id).budget d + 1 ≤ t.budget d :=
        Traversal.budget_follow hqueue hv hid rfl rfl env.toEvaluator
      refine Env.Does.mono (ih _ _ (Traversal.queue_follow hrest) (by omega)) ?_
      rintro r L' ⟨lastOutput, ids, hr, horder, hserved⟩
      refine ⟨lastOutput, node.id :: ids, hr, ?_, .node hof hstatus hserved⟩
      rw [follow_eq hfires] at horder
      have hvisit : d.order (fun _ => true) (fuel + 1) t = d.order (fun _ => true) fuel
          (((t.pop node.id queue).succeed node.id output durationMs).follow
            (valued env.unicode fun _ => true) d node.id) := order_visit hqueue hv rfl rfl
      rw [hvisit, horder]
      exact List.append_assoc ..
    · rintro e L₁ ⟨row, output, durationMs, hout, -⟩
      cases hout

/-! ## The run -/

/-- What served nodes append, as lists. -/
theorem Completes.lists {ids : List String} {L' : Ledger} (h : Completes tenant runId ids L L') :
    ∃ (rows : List RunStepRecord) (sent : List (String × List (String × Json) × Context)),
      L'.steps = L.steps ++ rows ∧ rows.map (·.nodeId) = ids ∧
      (∀ s ∈ rows, s.status = .success) ∧
      L'.events = L.events ++ sent.map (fun x => .dispatched runId x.1 x.2.1 x.2.2 true) ∧
      sent.map (·.1) = ids := by
  induction h with
  | none L => exact ⟨[], [], by simp⟩
  | @node node row config context ids L L' hof hstatus h ih =>
    obtain ⟨rows, sent, hsteps, hrows, hsuccess, hevents, hsent⟩ := ih
    refine ⟨row :: rows, (node.id, config, context) :: sent, ?_, ?_, ?_, ?_, ?_⟩
    · rw [hsteps]
      simp
    · rw [List.map_cons, hrows, hof.nodeId]
    · exact List.forall_mem_cons.2 ⟨hstatus, hsuccess⟩
    · rw [hevents]
      simp
    · rw [List.map_cons, hsent]

/-- The statements behind a traversal that finished. -/
theorem finish_serves (h : env.Serves d) (run : RunRecord) (wfId : String) (lastOutput : Json)
    (hrun : L.run.isSome = true) :
    env.Does tenant run.id (finish tenant run wfId (.finished lastOutput)) L fun r L' =>
      ∃ row, r = .ok row ∧ row.status = .success ∧ L'.run = some row ∧ L'.steps = L.steps ∧
        L'.events = L.events := by
  obtain ⟨row, hrow⟩ := Option.isSome_iff_exists.1 hrun
  unfold finish
  apply Env.Does.answer (h.faultless _)
  rintro w hw
  refine ⟨(), L.close (.finished lastOutput), rfl, ?_, ?_⟩
  · rw [← hw]
    exact World.ledger_updateRunStatus .success lastOutput none
  refine Env.Does.seq (Env.Does.attempt (Env.Does.quiet (by trivial) fun r => ?_))
  apply Env.Does.answer (h.faultless _)
  intro w' hw'
  refine ⟨_, L.close (.finished lastOutput), rfl, hw', Env.Does.ret ?_⟩
  have hclose : (L.close (.finished lastOutput)).run =
      some { row with status := .success, outputPayload := lastOutput, error := none } := by
    simp [Ledger.close, Ledger.setRun, hrow]
  have hstored : w'.run? tenant run.id = (L.close (.finished lastOutput)).run :=
    congrArg Ledger.run hw'
  rw [hstored, hclose]
  exact ⟨_, rfl, rfl, rfl, rfl, rfl⟩

/-- The traversal of a new run, and what follows it. -/
theorem resume_serves {a : ExecuteArgs} (h : env.Serves a.definition)
    (hfires : ∀ e ∈ a.definition.edges, ∀ context, env.fires e context = true)
    (hnodes : ∀ node ∈ a.definition.nodes,
      node.type ≠ "action.approval" ∧ node.Attempts env.unicode) (traceId : String)
    (run : RunRecord) (hrun : L.run.isSome = true) :
    env.Does tenant run.id (resume env.toEvaluator tenant a traceId run []) L fun r L' =>
      ∃ row L₁, r = .ok row ∧ row.status = .success ∧ L'.run = some row ∧
        Completes tenant run.id a.definition.visits L L₁ ∧ L'.steps = L₁.steps ∧
        L'.events = L₁.events := by
  unfold resume
  refine Env.Does.bind (traverse_serves h hfires hnodes run _ (a.start tenant traceId []) L
    (start_queue a traceId []) (budget_start_le _ _)) ?_ ?_
  · rintro out L₁ ⟨lastOutput, ids, hout, horder, hserved⟩
    cases hout
    refine Env.Does.mono (finish_serves h run a.wfId lastOutput (hserved.run ▸ hrun)) ?_
    rintro r L' ⟨row, hr, hstatus, hrow, hsteps, hevents⟩
    have hids : ids = a.definition.visits := horder.symm
    exact ⟨row, L₁, hr, hstatus, hrow, hids ▸ hserved, hsteps, hevents⟩
  · rintro e L₁ ⟨lastOutput, ids, hout, -⟩
    cases hout

/-- Since `w`, the run went through all the nodes of the definition: it is stored in status
`SUCCESS`, each node got one step, in status `SUCCESS`, and was dispatched once, with success. -/
def World.RunsThrough (w w' : World) (tenant : String) (a : ExecuteArgs) : Prop :=
  ∃ (rows : List RunStepRecord) (sent : List (String × List (String × Json) × Context)),
    (w'.run? tenant a.runId).map (·.status) = some .success ∧
    w'.stepsOf tenant a.runId = w.stepsOf tenant a.runId ++ rows ∧
    (rows.map (·.nodeId)).Perm a.definition.nodeIds ∧ (∀ s ∈ rows, s.status = .success) ∧
    w'.eventsOf a.runId = w.eventsOf a.runId ++ .executing a.runId a.definition.toWorkflowSpec ::
      sent.map (fun x => .dispatched a.runId x.1 x.2.1 x.2.2 true) ∧
    (sent.map (·.1)).Perm a.definition.nodeIds

/-- The others leave the run alone, and store no run under its id. -/
def Meanwhile (tenant runId : String) (w w' : World) : Prop :=
  Env.SameLedger tenant runId w w' ∧ (w.runs.get? runId = none → w'.runs.get? runId = none)

/-- A call in front of the run: the run is still new. -/
theorem ensures_fresh {o : Op} {α : Type} {f : o.Res → M α} {Q : Except PyError α → World → Prop}
    {w : World} (hf : ∀ w, env.faultOf o w = none) (ho : ∀ w, (env.effect o w).2 = w)
    (hfresh : w.runs.get? runId = none)
    (hx : ∀ w' : World, w'.ledger tenant runId = w.ledger tenant runId →
      w'.runs.get? runId = none → ∃ x, (env.effect o w').1 = .ok x ∧
        ∀ w'' : World, w''.ledger tenant runId = w.ledger tenant runId →
          w''.runs.get? runId = none →
          (f x).Ensures env.handle (Meanwhile tenant runId) Q w'') :
    (perform o >>= f).Ensures env.handle (Meanwhile tenant runId) Q w := by
  have hcall : (perform o).Ensures env.handle (Meanwhile tenant runId) (fun r w' => ∃ x,
      r = .ok x ∧ (f x).Ensures env.handle (Meanwhile tenant runId) Q w') w := by
    refine Prog.Ensures.perform fun w' hw' => ?_
    obtain ⟨hledger, hnone⟩ := hw'
    obtain ⟨x, hres, hrest⟩ := hx w' hledger (hnone hfresh)
    rw [env.handle_of_faultOf (hf _)]
    refine ⟨x, hres, ?_⟩
    rw [ho]
    exact hrest _ hledger (hnone hfresh)
  refine hcall.bind ?_ ?_
  · rintro x' w' ⟨x, hx', hrest⟩
    cases hx'
    exact hrest
  · rintro e w' ⟨x, hx', -⟩
    cases hx'

theorem executeTraced_completes {a : ExecuteArgs} (h : env.Serves a.definition)
    (hfires : ∀ e ∈ a.definition.edges, ∀ context, env.fires e context = true)
    (hnodes : ∀ node ∈ a.definition.nodes,
      node.type ≠ "action.approval" ∧ node.Attempts env.unicode) (traceId : String) {w w₀ : World}
    (hledger : w.ledger tenant a.runId = w₀.ledger tenant a.runId)
    (hfresh : w.runs.get? a.runId = none) :
    (executeTraced env.toEvaluator tenant a traceId).Ensures env.handle (Meanwhile tenant a.runId)
      (fun r w' => (∃ run, r = .ok run ∧ run.status = .success) ∧
        w₀.RunsThrough w' tenant a) w := by
  unfold executeTraced
  apply ensures_fresh (h.faultless _) (fun _ => rfl) hfresh
  intro w₁ hledger₁ hfresh₁
  have hnone : w₁.run? tenant a.runId = none := by simp [World.run?, hfresh₁]
  refine ⟨none, by simp [Env.effect, hnone], fun w₂ hledger₂ hfresh₂ => ?_⟩
  -- the row of the run is stored
  set run := a.newRun tenant traceId with hrun
  have hcreate : (perform (.createRun run a.definition.toWorkflowSpec)).Ensures env.handle
      (Meanwhile tenant a.runId) (fun r w' => r = .ok () ∧
        w'.ledger tenant a.runId = { w₀.ledger tenant a.runId with run := some run }.log
          [.executing a.runId a.definition.toWorkflowSpec]) w₂ := by
    refine Prog.Ensures.perform fun w₃ hw₃ => ?_
    have hsame : w₃.ledger tenant a.runId = w₀.ledger tenant a.runId :=
      (hw₃.1.trans hledger₂).trans hledger
    rw [env.handle_of_faultOf (h.faultless _ _)]
    obtain ⟨hres, hstored⟩ := @Env.ledger_createRun_new env tenant a.runId w₃ run
      a.definition.toWorkflowSpec rfl rfl (hw₃.2 hfresh₂)
    rw [hsame] at hstored
    exact ⟨hres, hstored⟩
  refine hcreate.bind ?_ ?_
  · rintro u w₃ ⟨-, hstored⟩
    have hresume : env.Does tenant run.id _ _ _ :=
      resume_serves h hfires hnodes traceId run (L := { w₀.ledger tenant a.runId with
        run := some run }.log [.executing a.runId a.definition.toWorkflowSpec]) rfl
    refine ((hresume w₃ hstored).narrow fun _ _ hmoves => hmoves.1).mono ?_
    rintro r w₄ ⟨row, L₁, hr, hstatus, hrow, hserved, hsteps, hevents⟩
    obtain ⟨rows, sent, hrows, hids, hsuccess, hsentEvents, hsent⟩ := hserved.lists
    refine ⟨⟨row, hr, hstatus⟩, rows, sent, ?_, hsteps.trans hrows, ?_, hsuccess, ?_, ?_⟩
    · rw [show w₄.run? tenant a.runId = some row from hrow, Option.map_some, hstatus]
    · rw [hids]
      exact visits_perm _
    · refine (hevents.trans hsentEvents).trans ?_
      rw [Ledger.log_events, List.append_assoc]
      rfl
    · rw [hsent]
      exact visits_perm _
  · rintro e w₃ ⟨hr, -⟩
    cases hr

/-- No retry policy, one with a bounded number of attempts, or a dictionary with an integer number
of attempts: an attempt is made. -/
theorem attempts_of_retry {u : Unicode} {d : WorkflowDefinition} {node : WorkflowNode}
    (hnode : node ∈ d.nodes) (hretry : ∀ items, node.retry = some (.dict items) →
      ∃ m, Json.lookup "max_attempts" items = some (.int m) ∧ 1 ≤ m) : node.Attempts u := by
  cases hr : node.retry with
  | none => exact ⟨1, by rw [WorkflowNode.policy, hr]; rfl, by omega⟩
  | some retry =>
    cases retry with
    | policy p =>
      have hfields := (d.fieldsOk_of_mem hnode).2 p hr
      exact ⟨p.maxAttempts, by rw [WorkflowNode.policy, hr]; rfl, by omega⟩
    | dict items =>
      obtain ⟨m, hm, hpos⟩ := hretry items hr
      refine ⟨m, ?_, by omega⟩
      cases items with
      | nil => cases hm
      | cons item items =>
        rw [WorkflowNode.policy, hr]
        simp only [Retry.maxAttempts, hm]
        rfl

end Serves

/-- **Complete execution**: the execution of a definition without edge conditions and without
approval gates, whose nodes can be attempted, under an id that no run has, goes through all the
nodes and ends in status `SUCCESS`, with nothing in the way, whatever is done meanwhile about other
runs. -/
theorem execute_completes (env : Env) (tenant : String) (a : ExecuteArgs) (w : World)
    (hsource : env.toEvaluator = .source env.unicode) (h : env.Serves a.definition)
    (hconditions : ∀ e ∈ a.definition.edges, e.condition.getD "" = "")
    (hgates : ∀ node ∈ a.definition.nodes, node.type ≠ "action.approval")
    (hretry : ∀ node ∈ a.definition.nodes, ∀ items, node.retry = some (.dict items) →
      ∃ m, Json.lookup "max_attempts" items = some (.int m) ∧ 1 ≤ m)
    (hfresh : w.runs.get? a.runId = none) :
    (execute env.toEvaluator tenant a).Ensures env.handle (Meanwhile tenant a.runId)
      (fun r w' => (∃ run, r = .ok run ∧ run.status = .success) ∧ w.RunsThrough w' tenant a) w := by
  have hfires : ∀ e ∈ a.definition.edges, ∀ context, env.fires e context = true := by
    intro e he context
    have hcondition := hconditions e he
    rw [show env.fires = evaluateCondition env.unicode from congrArg Evaluator.fires hsource]
    unfold evaluateCondition
    cases hc : e.condition with
    | none => rfl
    | some expr =>
      rw [hc] at hcondition
      obtain rfl : expr = "" := hcondition
      rfl
  have hnodes : ∀ node ∈ a.definition.nodes,
      node.type ≠ "action.approval" ∧ node.Attempts env.unicode := fun node hnode =>
    ⟨hgates node hnode, attempts_of_retry hnode (hretry node hnode)⟩
  unfold execute
  cases orElse a.traceId none with
  | some traceId => exact executeTraced_completes h hfires hnodes traceId rfl hfresh
  | none =>
    apply ensures_fresh (h.faultless _) (fun _ => rfl) hfresh
    intro w₁ hledger₁ hfresh₁
    refine ⟨_, rfl, fun w₂ hledger₂ hfresh₂ => ?_⟩
    exact executeTraced_completes h hfires hnodes _ hledger₂ hfresh₂

/-- Two roots, a join and parallel edges. -/
def meshWorkflow : WorkflowDefinition where
  id := some "wf_mesh"
  name := "mesh"
  trigger := { type := "webhook" }
  nodes := [{ id := "A", type := "trigger.webhook", name := "A" },
    { id := "B", type := "trigger.event", name := "B" },
    { id := "C", type := "transform", name := "C",
      retry := some (.dict [("max_attempts", .int 3)]) },
    { id := "D", type := "action.db_write", name := "D", connectionId := some "conn_pg" }]
  edges := [{ source := "A", target := "C" }, { source := "B", target := "C" },
    { source := "A", target := "C" }, { source := "C", target := "D" }]
  accepted := by decide

/-- The mesh is executed on a new run. -/
def meshArgs : ExecuteArgs := { definition := meshWorkflow, runId := "RUN-1", inputPayload := .null }

theorem execute_completes_mesh :
    (execute (Env.steady fun _ => .ok .null).toEvaluator "acme" meshArgs).Ensures
      (Env.steady fun _ => .ok .null).handle (Meanwhile "acme" "RUN-1")
      (fun r w' => (∃ run, r = .ok run ∧ run.status = .success) ∧
        World.empty.RunsThrough w' "acme" meshArgs) World.empty := by
  have hserves : (Env.steady fun _ => .ok .null).Serves meshWorkflow :=
    { faultless := fun o w => by cases o <;> rfl
      closed := fun _ _ _ _ _ => nofun
      dispatches := fun _ _ _ _ _ => rfl }
  refine execute_completes _ "acme" meshArgs World.empty rfl hserves (by decide) (by decide) ?_ rfl
  intro node hnode items hretry
  simp only [meshArgs, meshWorkflow, List.mem_cons, List.not_mem_nil, or_false] at hnode
  rcases hnode with rfl | rfl | rfl | rfl
  · cases hretry
  · cases hretry
  · cases hretry
    exact ⟨3, rfl, by decide⟩
  · cases hretry

end FlowMesh
