import FlowMesh.Engine.Calls
import FlowMesh.Engine.Completion
import FlowMesh.Workflow.Reachability

/-!
# What the engine never executes

With all edges holding and every dispatch succeeding, the calls on a run get past a node exactly if
it can be passed: it is an approval gate, which can be approved, or its retry policy allows an
attempt. So a node is executed in some session exactly if all the nodes before it in the order of
the traversal can be passed (`everExecutes_iff`): what a session stores is `Passing`, and in an
environment in which nothing fails each `execute` call either executes the node or comes to wait at
a gate before it (`traverse_progress`), which can then be approved.

The validator searches from other nodes, and does not look at retry policies.
`reachabilityAgrees_iff` says for which nodes the two come to the same result, in a definition that
the validator goes through.
-/

namespace FlowMesh

open Python Database Async

/-- Calls on a run can get past the node: it is a gate, or its retry policy allows an attempt. -/
def WorkflowSpec.Passable (s : WorkflowSpec) (u : Unicode) (id : String) : Prop :=
  ∀ node, s.node? id = some node → node.type = "action.approval" ∨ node.Attempts u

/-- The environments in which all edges hold, every dispatch succeeds, and no call that stores its
result raises. -/
def favourable (u : Unicode) : Set Env :=
  {env | env.toEvaluator = valued u (fun _ => true) ∧ env.Settles ∧
    ∀ w node config context, (env.dispatch w node config context).isOk = true}

/-- Some session of a new run executes the node, with all edges holding and every dispatch
succeeding. -/
def EverExecutes (u : Unicode) (d : WorkflowDefinition) (id : String) : Prop :=
  ∃ tenant runId w w', w.Fresh tenant runId ∧ Session (favourable u) tenant runId d w w' ∧
    w'.HasStepOf tenant runId id

/-! ## Only behind nodes that can be passed -/

/-- The steps that succeeded or wait belong to nodes that can be passed, and so do the nodes before
those of the steps. -/
structure Passing (u : Unicode) (s : WorkflowSpec) (L : Ledger) : Prop where
  keyed : L.Keyed
  passed : ∀ row ∈ L.steps, row.status = .success ∨ row.status = .waitingApproval →
    s.Passable u row.nodeId
  behind : ∀ row ∈ L.steps, ∀ x, s.Precedes (fun _ => true) x row.nodeId → s.Passable u x

section Passing

variable {u : Unicode} {s s' : WorkflowSpec} {L : Ledger} {runId : String}

theorem WorkflowSpec.SameGraph.passable (h : s.SameGraph s') {id : String}
    (hid : s.Passable u id) : s'.Passable u id :=
  fun node hnode => hid node ((h.node? id).trans hnode)

theorem WorkflowSpec.SameGraph.precedes (h : s.SameGraph s') {v : WorkflowEdge → Bool}
    {x y : String} (hxy : s.Precedes v x y) : s'.Precedes v x y := by
  unfold WorkflowSpec.Precedes at *
  rwa [← h.next, ← h.startNodes]

theorem Passing.sameGraph (h : s.SameGraph s') (hL : Passing u s L) : Passing u s' L where
  keyed := hL.keyed
  passed := fun row hrow hst => h.passable (hL.passed row hrow hst)
  behind := fun row hrow x hx => h.passable (hL.behind row hrow x (h.symm.precedes hx))

theorem Passing.setRun (h : Passing u s L) (f : RunRecord → RunRecord) :
    Passing u s (L.setRun f) := ⟨h.keyed, h.passed, h.behind⟩

theorem Passing.log (h : Passing u s L) (es : List Event) : Passing u s (L.log es) :=
  ⟨h.keyed, h.passed, h.behind⟩

theorem Passing.add (h : Passing u s L) {row : RunStepRecord} (hnew : row.id ∉ L.steps.map (·.id))
    (hpassed : row.status = .success ∨ row.status = .waitingApproval → s.Passable u row.nodeId)
    (hbehind : ∀ x, s.Precedes (fun _ => true) x row.nodeId → s.Passable u x) :
    Passing u s (L.add row) where
  keyed := h.keyed.add hnew
  passed := by
    intro row' hrow'
    rcases List.mem_append.1 hrow' with hrow' | hrow'
    · exact h.passed row' hrow'
    · rwa [List.mem_singleton.1 hrow']
  behind := by
    intro row' hrow'
    rcases List.mem_append.1 hrow' with hrow' | hrow'
    · exact h.behind row' hrow'
    · rwa [List.mem_singleton.1 hrow']

/-- Rewriting a step that can be passed, or to a status that is neither of the two. -/
theorem Passing.amend (h : Passing u s L) (stepId : ℕ) {f : RunStepRecord → RunStepRecord}
    (hid : ∀ row, (f row).id = row.id) (hnode : ∀ row, (f row).nodeId = row.nodeId)
    (hf : ∀ row ∈ L.steps, row.id = stepId →
      (f row).status = .success ∨ (f row).status = .waitingApproval → s.Passable u row.nodeId) :
    Passing u s (L.amend stepId f) where
  keyed := h.keyed.amend stepId hid
  passed := by
    intro row hrow hst
    obtain ⟨row', hrow', rfl⟩ := List.mem_map.1 hrow
    by_cases hid : row'.id = stepId
    · rw [if_pos hid] at hst ⊢
      rw [hnode]
      exact hf row' hrow' hid hst
    · rw [if_neg hid] at hst ⊢
      exact h.passed row' hrow' hst
  behind := by
    intro row hrow x hx
    obtain ⟨row', hrow', rfl⟩ := List.mem_map.1 hrow
    refine h.behind row' hrow' x ?_
    split at hx
    · rwa [hnode] at hx
    · exact hx

theorem Passing.rejectStep (h : Passing u s L) (a : ApprovalArgs) :
    Passing u s (L.rejectStep a) := by
  unfold Ledger.rejectStep
  split
  · exact h
  · exact h.amend _ (fun _ => rfl) (fun _ => rfl) fun row _ _ hst => by simp at hst

theorem Passing.passStep (h : Passing u s L) (a : ApprovalArgs) :
    Passing u s (L.passStep runId a) := by
  unfold Ledger.passStep
  split
  · exact h
  next step hw =>
  obtain ⟨hmem, hwaits⟩ := waiting_mem hw
  apply Passing.log
  refine h.amend _ (fun _ => rfl) (fun _ => rfl) fun row hrow hid _ => ?_
  obtain rfl := h.keyed.eq_of_id hrow hmem hid
  exact h.passed row hrow (Or.inr hwaits)

end Passing

section Traversal

variable {env : Env} {tenant runId : String} {u : Unicode} {d : WorkflowDefinition}
  {completed : List String} {L L' : Ledger}

/-- When a node is taken from the queue and all visited nodes can be passed, all nodes before it
can be. -/
theorem Traversal.OnTrack.passable {t : Traversal} {id : String} {queue : List String}
    (h : t.OnTrack d.toWorkflowSpec fun _ => true) (hq : t.queue = id :: queue)
    (hv : id ∉ t.visited) (hvisited : ∀ x ∈ t.visited, d.Passable u x) {x : String}
    (hx : d.Precedes (fun _ => true) x id) : d.Passable u x := by
  intro node hnode
  have hmem : x ∈ d.nodeIds := by
    obtain ⟨hmem, rfl⟩ := d.node?_eq_some.1 hnode
    exact List.mem_map_of_mem hmem
  exact hvisited x ((h.mem_visited_iff hq hv (reachable_of_mem hmem)).2 hx) node hnode

theorem Executes.attempts {node : WorkflowNode} {context : Context} {output : Json}
    {durationMs : PyFloat}
    (h : Executes env tenant runId node context L (.ok (.success output durationMs)) L') :
    node.Attempts env.unicode := by
  cases h with
  | succeeded hnew hof hst hout hms hdisp hbs hattempts => exact hattempts
  | stopped hnew hof hr => exact absurd rfl (hr output durationMs)

/-- The step of a node that is executed. -/
theorem Passing.executes {node : WorkflowNode} {context : Context} {r : Except PyError StepResult}
    (h : Passing u d.toWorkflowSpec L) (hx : Executes env tenant runId node context L r L')
    (hev : env.toEvaluator = valued u (fun _ => true)) (hset : env.Settles) {id : String}
    (hn : d.node? id = some node)
    (hbehind : ∀ x, d.Precedes (fun _ => true) x id → d.Passable u x) :
    Passing u d.toWorkflowSpec L' := by
  have hu : env.unicode = u := congrArg Evaluator.unicode hev
  have hid : node.id = id := (d.node?_eq_some.1 hn).2
  cases hx with
  | unrecorded e => exact h
  | succeeded hnew hof hstatus houtput hduration hdispatch hbs hattempts =>
    rw [← hid, ← hof.nodeId] at hn hbehind
    refine (h.add hnew (fun _ => ?_) hbehind).log _
    intro node' hnode'
    obtain rfl := Option.some.inj (hn.symm.trans hnode')
    exact Or.inr (hu ▸ hattempts)
  | stopped hnew hof hr hwait hsettles hattempts =>
    rw [← hid, ← hof.nodeId] at hbehind
    refine (h.add hnew (fun hst => ?_) hbehind).log _
    rcases hst with hst | hst
    · exact absurd hst (hsettles hset).1
    · exact absurd hst hwait

/-- The step of a gate at which the run is parked. -/
theorem Passing.parks {node : WorkflowNode} {r : Except PyError Unit}
    (h : Passing u d.toWorkflowSpec L) (hp : Parks tenant runId node L r L') {id : String}
    (hn : d.node? id = some node) (ht : node.type = "action.approval")
    (hbehind : ∀ x, d.Precedes (fun _ => true) x id → d.Passable u x) :
    Passing u d.toWorkflowSpec L' := by
  have hid : node.id = id := (d.node?_eq_some.1 hn).2
  refine hp.invariant (fun row hnew hof _ => ?_) (fun L f hL => hL.setRun f) h
  rw [← hid, ← hof.nodeId] at hn hbehind
  refine h.add hnew (fun _ node' hnode' => ?_) hbehind
  obtain rfl := Option.some.inj (hn.symm.trans hnode')
  exact Or.inl ht

/-- One traversal, by induction over what it does. -/
theorem Traverses.passing {t : Traversal} {r : Except PyError Outcome}
    (h : Traverses env tenant runId d completed t L r L')
    (hev : env.toEvaluator = valued u (fun _ => true)) (hset : env.Settles)
    (htrack : t.OnTrack d.toWorkflowSpec fun _ => true)
    (hvisited : ∀ x ∈ t.visited, d.Passable u x) (hcompleted : ∀ x ∈ completed, d.Passable u x)
    (hL : Passing u d.toWorkflowSpec L) : Passing u d.toWorkflowSpec L' := by
  have hnext : ∀ {t : Traversal} {id : String}, (∀ x ∈ t.visited, d.Passable u x) →
      d.Passable u id → ∀ x ∈ t.visited ++ [id], d.Passable u x := by
    intro t id hvisited hid x hx
    rcases List.mem_append.1 hx with hx | hx
    · exact hvisited x hx
    · rwa [List.mem_singleton.1 hx]
  induction h with
  | finished hq => exact hL
  | skip hq hv h ih => exact ih (htrack.skip hq hv) hvisited hL
  | reuse hq hv hn hc h ih =>
    rw [hev] at ih
    exact ih (htrack.visit hq hv rfl rfl) (hnext hvisited (hcompleted _ hc)) hL
  | parked hq hv hn hc ht hp => exact hL.parks hp hn ht fun x => htrack.passable hq hv hvisited
  | stopped hq hv hn hc ht hx hr hr' =>
    exact hL.executes hx hev hset hn fun x => htrack.passable hq hv hvisited
  | executed hq hv hn hc ht hx h ih =>
    have hL₁ := hL.executes hx hev hset hn fun x => htrack.passable hq hv hvisited
    rw [hev] at ih
    refine ih (htrack.visit hq hv rfl rfl) (hnext hvisited fun node hnode => Or.inr ?_) hL₁
    obtain rfl := Option.some.inj (hn.symm.trans hnode)
    have hu : env.unicode = u := congrArg Evaluator.unicode hev
    exact hu ▸ hx.attempts

theorem Passing.begin {a : ExecuteArgs} (h : Passing u d.toWorkflowSpec L) (traceId : String) :
    Passing u d.toWorkflowSpec (L.begin tenant a traceId) := ⟨h.keyed, h.passed, h.behind⟩

theorem Passing.ends {r : Except PyError Outcome} {r' : Except PyError RunRecord}
    (h : Passing u d.toWorkflowSpec L) (hend : Ends L r r' L') : Passing u d.toWorkflowSpec L' :=
  hend.invariant (fun f => h.setRun f) h

/-- One `execute` call. -/
theorem Runs.passing {a : ExecuteArgs} {r : Except PyError RunRecord}
    (h : Runs env tenant a L r L') (hev : env.toEvaluator = valued u (fun _ => true))
    (hset : env.Settles) (hL : Passing u a.definition.toWorkflowSpec L) :
    Passing u a.definition.toWorkflowSpec L' := by
  cases h with
  | refused e => exact hL
  | begun htrace e => exact hL.begin _
  | traversed htrace h hend =>
    refine (h.passing hev hset ⟨0, rfl⟩ nofun (fun x hx => ?_) (hL.begin _)).ends hend
    obtain ⟨row, hrow, rfl, hst⟩ := completed_of_mem_completedIds hx
    exact hL.passed row hrow (Or.inl hst)

/-- What the sessions of a new run store. -/
theorem Session.passing {w w' : World} (hw : w.Fresh tenant runId)
    (h : Session (favourable u) tenant runId d w w') :
    Passing u d.toWorkflowSpec (w'.ledger tenant runId) := by
  induction h with
  | refl =>
    rw [World.Fresh] at hw
    rw [hw]
    exact ⟨List.nodup_nil, fun row hrow => absurd hrow List.not_mem_nil,
      fun row hrow => absurd hrow List.not_mem_nil⟩
  | tail _ hcall ih =>
    refine hcall.invariant (I := Passing u d.toWorkflowSpec) ?_ (fun L a hL => hL.passStep a)
      (fun L a hL => hL.rejectStep a) (fun L f hL => hL.setRun f) ih
    intro env henv a L r L' _ hgraph hL hruns
    exact (hruns.passing henv.1 henv.2.1 (hL.sameGraph hgraph.symm)).sameGraph hgraph

end Traversal

/-! ## A session that executes the node -/

section Progress

variable {u : Unicode} {d : WorkflowDefinition} {tenant runId id : String} {L L' : Ledger}

/-- Of two nodes, one comes before the other. -/
theorem precedes_total {x y : String} (hx : x ∈ d.nodeIds) (hy : y ∈ d.nodeIds) (hne : x ≠ y) :
    d.Precedes (fun _ => true) x y ∨ d.Precedes (fun _ => true) y x := by
  have hsorted : d.visits.Pairwise (d.Precedes fun _ => true) :=
    Fifo.pairwise_precedes (queue_track d _)
  obtain ⟨i, hi, rfl⟩ := List.mem_iff_getElem.1 (mem_visits.2 hx)
  obtain ⟨j, hj, rfl⟩ := List.mem_iff_getElem.1 (mem_visits.2 hy)
  rw [List.pairwise_iff_getElem] at hsorted
  rcases Nat.lt_trichotomy i j with hij | rfl | hij
  · exact Or.inl (hsorted i j hi hj hij)
  · exact absurd rfl hne
  · exact Or.inr (hsorted j i hj hi hij)

/-- A traversal whose queue is empty has visited every node. -/
theorem Traversal.OnTrack.visited {t : Traversal}
    (h : t.OnTrack d.toWorkflowSpec fun _ => true) (hq : t.queue = []) (hid : id ∈ d.nodeIds) :
    id ∈ t.visited := by
  obtain ⟨k, hk⟩ := h
  rw [hq] at hk
  have hmem := @Fifo.mem_visited_iff _ _ d.startNodes (d.next fun _ => true) k (by rw [hk]) id
  rw [hk] at hmem
  exact hmem.2 (reachable_of_mem hid)

/-- From `L` to `L'` the run came to wait at a gate that was not completed: the step of the gate is
the last one, and all others are in status `SUCCESS`. -/
structure Stalls (d : WorkflowDefinition) (completed : List String) (L L' : Ledger) : Prop where
  run : L'.run = L.run.map fun run =>
    { run with status := .waitingApproval, outputPayload := .null, error := none }
  steps : ∃ rows row, L'.steps = rows ++ [row] ∧ (∀ s ∈ L.steps, s ∈ rows) ∧
    (∀ s ∈ rows, s.status = .success) ∧ row.status = .waitingApproval ∧
    row.nodeId ∈ d.nodeIds ∧ row.nodeId ∉ completed

theorem Parks.ok_inv {node : WorkflowNode} (h : Parks tenant runId node L (.ok ()) L') :
    ∃ row, StepOf tenant runId node row ∧ row.status = .waitingApproval ∧
      L' = (L.add row).setRun fun run =>
        { run with status := .waitingApproval, outputPayload := .null, error := none } := by
  cases h with
  | parked hnew hof hstatus => exact ⟨_, hof, hstatus, rfl⟩

/-- Parking when nothing fails. -/
theorem run_park_smooth {node : WorkflowNode} {context : Context} (w : World) :
    ∃ w' row, (park (valued u fun _ => true) tenant runId node context).run
        (smooth u fun _ => true).handle w = (.ok (), w') ∧ StepOf tenant runId node row ∧
      row.status = .waitingApproval ∧ w'.ledger tenant runId =
        ((w.ledger tenant runId).add row).setRun fun run =>
          { run with status := .waitingApproval, outputPayload := .null, error := none } := by
  obtain ⟨w', hpark⟩ : ∃ w', (park (valued u fun _ => true) tenant runId node context).run
      (smooth u fun _ => true).handle w = (.ok (), w') := by
    unfold park
    simp [Prog.run_bind, handle_smooth, Env.effect]
  have hdoes : (smooth u fun _ => true).Does tenant runId
      (park (valued u fun _ => true) tenant runId node context) (w.ledger tenant runId)
      (Parks tenant runId node (w.ledger tenant runId)) := park_does
  have hparks := hdoes.run rfl
  rw [hpark] at hparks
  obtain ⟨row, hof, hstatus, hledger⟩ := hparks.ok_inv
  exact ⟨w', row, hpark, hof, hstatus, hledger⟩

/-- Executing a node when nothing fails. -/
theorem run_served_smooth {workflowId : String} {node : WorkflowNode} {context : Context}
    (hattempts : node.Attempts u) (w : World) :
    ∃ output durationMs w' row es, (executeNode (valued u fun _ => true) tenant runId workflowId
        node context).run (smooth u fun _ => true).handle w =
          (.ok (.success output durationMs), w') ∧
      row.status = .success ∧
      w'.ledger tenant runId = ((w.ledger tenant runId).add row).log es := by
  obtain ⟨output, durationMs, w', hexec⟩ : ∃ output durationMs w',
      (executeNode (valued u fun _ => true) tenant runId workflowId node context).run
        (smooth u fun _ => true).handle w = (.ok (.success output durationMs), w') :=
    run_executeNode_smooth hattempts w
  have hdoes : (smooth u fun _ => true).Does tenant runId
      (executeNode (valued u fun _ => true) tenant runId workflowId node context)
      (w.ledger tenant runId) (Executes (smooth u fun _ => true) tenant runId node context
        (w.ledger tenant runId)) := executeNode_does workflowId
  have hx := hdoes.run rfl
  rw [hexec] at hx
  obtain ⟨row, bs, -, -, hstatus, -, -, -, -, hledger⟩ := hx.success_inv
  exact ⟨output, durationMs, w', row, _, hexec, hstatus, hledger⟩

/-- A run that came to wait at a gate of the definition. -/
theorem Stalls.gate {completed : List String} {row : RunStepRecord} {x : String}
    (hdone : ∀ s ∈ L.steps, s.status = .success) (hrow : row.nodeId = x)
    (hstatus : row.status = .waitingApproval) (hx : x ∈ d.nodeIds) (hc : x ∉ completed) :
    Stalls d completed L ((L.add row).setRun fun run =>
      { run with status := .waitingApproval, outputPayload := .null, error := none }) where
  run := rfl
  steps := ⟨L.steps, row, rfl, fun _ hs => hs, hdone, hstatus, hrow ▸ hx, hrow ▸ hc⟩

/-- A node was executed before the run came to wait. -/
theorem Stalls.served {completed : List String} {row : RunStepRecord} {es : List Event}
    (h : Stalls d completed ((L.add row).log es) L') : Stalls d completed L L' where
  run := h.run
  steps := by
    obtain ⟨rows, gate, hsteps, hsub, hrest⟩ := h.steps
    exact ⟨rows, gate, hsteps, fun s hs => hsub s (List.mem_append_left _ hs), hrest⟩

/-- **One traversal in which nothing fails**, on a run all of whose steps succeeded: it executes
the node, or comes to wait at a gate, if all nodes before the node can be passed. -/
theorem traverse_progress {run : RunRecord} (hrun : run.id = runId) {completed : List String}
    (hid : id ∈ d.nodeIds) (hc : id ∉ completed)
    (hpass : ∀ x, d.Precedes (fun _ => true) x id → d.Passable u x) (fuel : ℕ) (t : Traversal)
    (w : World) (htrack : t.OnTrack d.toWorkflowSpec fun _ => true) (hv : id ∉ t.visited)
    (hqueue : ∀ x ∈ t.queue, x ∈ d.nodeIds) (hfuel : t.budget d ≤ fuel)
    (hdone : ∀ s ∈ w.stepsOf tenant runId, s.status = .success) :
    ((traverse (valued u fun _ => true) tenant run d completed fuel t).run
        (smooth u fun _ => true).handle w).2.HasStepOf tenant runId id ∨
      ((traverse (valued u fun _ => true) tenant run d completed fuel t).run
        (smooth u fun _ => true).handle w).1 = .ok .parked ∧
      Stalls d completed (w.ledger tenant runId)
        (((traverse (valued u fun _ => true) tenant run d completed fuel t).run
          (smooth u fun _ => true).handle w).2.ledger tenant runId) := by
  subst hrun
  induction fuel generalizing t w with
  | zero =>
    exact absurd (htrack.visited (Traversal.queue_of_budget hfuel) hid) hv
  | succ fuel ih =>
    rcases hq : t.queue with _ | ⟨x, queue⟩
    · exact absurd (htrack.visited hq hid) hv
    have hx : x ∈ d.nodeIds := hqueue x (by simp [hq])
    have hqueue' : ∀ y ∈ queue, y ∈ d.nodeIds := fun y hy => hqueue y (by simp [hq, hy])
    by_cases hxv : x ∈ t.visited
    · have hbudget : Traversal.budget d { t with queue } ≤ fuel := by
        simp only [Traversal.budget, hq, List.length_cons] at hfuel ⊢
        omega
      rw [traverse]
      simp only [hq, if_pos hxv]
      exact ih { t with queue } w (htrack.skip hq hxv) hv hqueue' hbudget hdone
    by_cases hxid : x = id
    · subst hxid
      exact Or.inl (hasStepOf_traverse rfl hq hxv hc hid w)
    obtain ⟨node, hnode⟩ := d.exists_node hx
    have hnodeId : node.id = x := (d.node?_eq_some.1 hnode).2
    have hv' : id ∉ t.visited ++ [x] := by
      rw [List.mem_append, List.mem_singleton]
      exact not_or.2 ⟨hv, Ne.symm hxid⟩
    rw [traverse]
    simp only [hq, if_neg hxv, hnode]
    by_cases hxc : x ∈ completed
    · rw [if_pos hxc]
      have hbudget : (((t.pop x queue).reuse x).follow (valued u fun _ => true) d x).budget d + 1 ≤
          t.budget d := Traversal.budget_follow hq hxv hx rfl rfl _
      exact ih _ w (htrack.visit hq hxv rfl rfl) hv' (Traversal.queue_follow hqueue') (by omega)
        hdone
    rw [if_neg hxc]
    by_cases hgate : node.type = "action.approval"
    · -- the run is parked at the gate
      obtain ⟨w', row, hpark, hof, hstatus, hledger⟩ : ∃ w' row,
        (park (valued u fun _ => true) tenant run.id node t.context).run
          (smooth u fun _ => true).handle w = (.ok (), w') ∧ _ := run_park_smooth w
      rw [if_pos hgate, Prog.run_bind_ok _ hpark]
      refine Or.inr ⟨rfl, ?_⟩
      rw [Prog.run_pure, hledger]
      exact .gate hdone (hof.nodeId.trans hnodeId) hstatus hx hxc
    · -- the node comes before the one in question, so it can be attempted
      have hbefore : d.Precedes (fun _ => true) x id := by
        refine (precedes_total hx hid hxid).resolve_right fun hafter => hv ?_
        exact (htrack.mem_visited_iff hq hxv (reachable_of_mem hid)).2 hafter
      have hattempts : node.Attempts u := (hpass x hbefore node hnode).resolve_left hgate
      obtain ⟨output, durationMs, w', row, es, hexec, hstatus, hledger⟩ :
          ∃ output durationMs w' row es, (executeNode (valued u fun _ => true) tenant run.id
            run.workflowId node t.context).run (smooth u fun _ => true).handle w =
              (.ok (.success output durationMs), w') ∧ _ := run_served_smooth hattempts w
      rw [if_neg hgate, Prog.run_bind_ok _ hexec]
      set next := ((t.pop x queue).succeed x output durationMs).follow (valued u fun _ => true) d x
        with hnext
      have hbudget : next.budget d + 1 ≤ t.budget d :=
        Traversal.budget_follow hq hxv hx rfl rfl _
      have hdone' : ∀ s ∈ w'.stepsOf tenant run.id, s.status = .success := by
        intro s hs
        rw [show w'.stepsOf tenant run.id = _ from congrArg Ledger.steps hledger] at hs
        rcases List.mem_append.1 hs with hs | hs
        · exact hdone s hs
        · rwa [List.mem_singleton.1 hs]
      rcases ih next w' (htrack.visit hq hxv rfl rfl) hv' (Traversal.queue_follow hqueue')
        (by omega) hdone' with hstep | ⟨hparked, hstalls⟩
      · exact Or.inl hstep
      · rw [hledger] at hstalls
        exact Or.inr ⟨hparked, hstalls.served⟩

/-- The creation of a run under a new id. -/
theorem run_createRun_smooth {run : RunRecord} {definition : WorkflowSpec} {w : World}
    (hid : run.id = runId) (ht : run.tenantId = tenant) (hnew : w.runs.get? runId = none) :
    ∃ w', (perform (.createRun run definition)).run (smooth u fun _ => true).handle w =
        (.ok (), w') ∧ w'.registry = w.registry ∧ w'.ledger tenant runId =
          { w.ledger tenant runId with run := some run }.log [.executing runId definition] := by
  obtain ⟨hres, hstored⟩ := @Env.ledger_createRun_new (smooth u fun _ => true) tenant runId w run
    definition hid ht hnew
  refine ⟨((smooth u fun _ => true).handle (.createRun run definition) w).2, ?_,
    registry_handle _ (by simp) w, ?_⟩
  · rw [Prog.run_perform]
    refine Prod.ext ?_ rfl
    rw [handle_smooth]
    exact hres
  · rw [handle_smooth]
    exact hstored

/-- An existing run goes back to `RUNNING`. -/
theorem run_setRunning_smooth {definition : WorkflowSpec} (w : World) :
    ∃ w', (perform (.setRunning runId definition)).run (smooth u fun _ => true).handle w =
        (.ok (), w') ∧ w'.registry = w.registry ∧ w'.ledger tenant runId =
          ((w.ledger tenant runId).setRun fun r => { r with status := .running }).log
            [.executing runId definition] := by
  refine ⟨((smooth u fun _ => true).handle (.setRunning runId definition) w).2, ?_,
    registry_handle _ (by simp) w, ?_⟩
  · rw [Prog.run_perform, handle_smooth]
    rfl
  · have hlog : ((w.setRunning runId).log (.executing runId definition)).ledger tenant runId =
        ((w.setRunning runId).ledger tenant runId).log [.executing runId definition] :=
      World.ledger_log rfl
    rw [World.ledger_setRunning] at hlog
    rw [handle_smooth]
    exact hlog

/-- `execute` when nothing fails: the run is stored, and the traversal follows. -/
theorem run_execute_smooth {a : ExecuteArgs} {traceId : String}
    (htrace : orElse a.traceId none = some traceId) {w : World}
    (hnew : w.run? tenant a.runId = none → w.runs.get? a.runId = none) :
    ∃ run w₁, run.id = a.runId ∧ w₁.registry = w.registry ∧
      w₁.ledger tenant a.runId = (w.ledger tenant a.runId).begin tenant a traceId ∧
      (execute (valued u fun _ => true) tenant a).run (smooth u fun _ => true).handle w =
        (resume (valued u fun _ => true) tenant a traceId run
          (w.ledger tenant a.runId).snapshot).run (smooth u fun _ => true).handle w₁ := by
  set w' : World := { w with tick := w.tick + 1 } with hw'
  have hget : (perform (.getRun tenant a.runId)).run (smooth u fun _ => true).handle w =
      (.ok ((w.run? tenant a.runId).map fun run => (run, w.stepsOf tenant a.runId)), w') := by
    rw [Prog.run_perform, handle_smooth]
    rfl
  have hledger : (w.ledger tenant a.runId).run = w.run? tenant a.runId := rfl
  unfold execute
  simp only [htrace]
  unfold executeTraced
  rw [Prog.run_bind_ok _ hget]
  cases hr : w.run? tenant a.runId with
  | none =>
    obtain ⟨w₁, hcreate, hreg, hL⟩ := @run_createRun_smooth u tenant a.runId
      (a.newRun tenant traceId) a.definition.toWorkflowSpec w' rfl rfl (hnew hr)
    refine ⟨a.newRun tenant traceId, w₁, rfl, hreg, ?_, ?_⟩
    · rw [hL, Ledger.begin, hledger, hr]
      rfl
    · rw [Ledger.snapshot, hledger, hr]
      exact Prog.run_bind_ok _ hcreate
  | some run =>
    have hid : run.id = a.runId := (World.run?_eq_some.1 hr).2.1
    obtain ⟨w₁, hset, hreg, hL⟩ := @run_setRunning_smooth u tenant a.runId
      a.definition.toWorkflowSpec w'
    refine ⟨{ run with status := .running }, w₁, hid, hreg, ?_, ?_⟩
    · rw [hL, Ledger.begin, hledger, hr, Ledger.setRun]
      rw [show (w'.ledger tenant a.runId).run = some run from hr]
      rfl
    · rw [Ledger.snapshot, hledger, hr]
      rw [← hid] at hset
      exact Prog.run_bind_ok _ hset

theorem Ends.parked {r : Except PyError RunRecord} (h : Ends L (.ok .parked) r L') : L' = L := by
  cases h with
  | unstored o e => rfl
  | closed o r => rfl

/-- **One `execute` call in which nothing fails**, on a run without a step of the node all of whose
steps succeeded: it executes the node, or the run comes to wait at a gate. -/
theorem execute_progress {a : ExecuteArgs} {traceId : String}
    (htrace : orElse a.traceId none = some traceId) (hid : id ∈ a.definition.nodeIds)
    (hpass : ∀ x, a.definition.Precedes (fun _ => true) x id → a.definition.Passable u x)
    {w : World} (hnew : w.run? tenant a.runId = none → w.runs.get? a.runId = none)
    (hdone : ∀ s ∈ w.stepsOf tenant a.runId, s.status = .success)
    (hstep : ¬ w.HasStepOf tenant a.runId id) :
    ((execute (valued u fun _ => true) tenant a).run (smooth u fun _ => true).handle
        w).2.registry = w.registry ∧
      (((execute (valued u fun _ => true) tenant a).run (smooth u fun _ => true).handle
        w).2.HasStepOf tenant a.runId id ∨
      Stalls a.definition (completedIds (w.ledger tenant a.runId).snapshot)
        ((w.ledger tenant a.runId).begin tenant a traceId)
        (((execute (valued u fun _ => true) tenant a).run (smooth u fun _ => true).handle
          w).2.ledger tenant a.runId)) := by
  obtain ⟨run, w₁, hrun, hreg, hL, hexec⟩ : ∃ run w₁, run.id = a.runId ∧
      w₁.registry = w.registry ∧
      w₁.ledger tenant a.runId = (w.ledger tenant a.runId).begin tenant a traceId ∧
      (execute (valued u fun _ => true) tenant a).run (smooth u fun _ => true).handle w =
        (resume (valued u fun _ => true) tenant a traceId run
          (w.ledger tenant a.runId).snapshot).run (smooth u fun _ => true).handle w₁ :=
    run_execute_smooth htrace hnew
  rw [hexec]
  constructor
  · rw [← hreg]
    refine (uses_resume a traceId run _).run_induction
      (I := fun w' : World => w'.registry = w₁.registry) _ (fun o w' ho hw' => ?_) rfl
    refine (registry_handle _ (fun t wf h => ?_) w').trans hw'
    rw [h] at ho
    exact ho
  have hnot : id ∉ completedIds (w.ledger tenant a.runId).snapshot := by
    intro hin
    obtain ⟨s, hs, hsid, -⟩ := completed_of_mem_completedIds hin
    exact hstep ⟨s, hs, hsid⟩
  have hdone₁ : ∀ s ∈ w₁.stepsOf tenant a.runId, s.status = .success := by
    rw [show w₁.stepsOf tenant a.runId = w.stepsOf tenant a.runId from congrArg Ledger.steps hL]
    exact hdone
  have htraverse := traverse_progress hrun hid hnot hpass (traverseFuel a.definition)
    (a.start tenant traceId (w.ledger tenant a.runId).snapshot) w₁ ⟨0, rfl⟩ nofun
    (start_queue a traceId _) (budget_start_le _ _) hdone₁
  rcases htraverse with hmade | ⟨hparked, hstalls⟩
  · exact Or.inl (Prog.run_bind_keeps _ hasStepOf_handle hmade)
  · -- a parked run is read again, and nothing else
    obtain ⟨w₂, htr⟩ : ∃ w₂, (traverse (valued u fun _ => true) tenant run a.definition
        (completedIds (w.ledger tenant a.runId).snapshot) (traverseFuel a.definition)
        (a.start tenant traceId (w.ledger tenant a.runId).snapshot)).run
          (smooth u fun _ => true).handle w₁ = (.ok .parked, w₂) := ⟨_, Prod.ext hparked rfl⟩
    rw [htr, hL] at hstalls
    have hresume : (resume (valued u fun _ => true) tenant a traceId run
        (w.ledger tenant a.runId).snapshot).run (smooth u fun _ => true).handle w₁ =
          (finish tenant run a.wfId .parked).run (smooth u fun _ => true).handle w₂ :=
      Prog.run_bind_ok _ htr
    have hfinish : Ends (w₂.ledger tenant run.id) (.ok .parked) _ _ :=
      (@finish_does (smooth u fun _ => true) tenant _ run a.wfId .parked).run rfl
    rw [hresume, ← hrun, hfinish.parked, hrun]
    exact Or.inr hstalls

/-- An approval when nothing fails and no workflow is stored: the waiting step succeeds, and then
the look-up of the definition raises. -/
theorem run_approve_smooth {w : World} {run : RunRecord} (hrun : w.run? tenant runId = some run)
    (hstatus : run.status = .waitingApproval) (hreg : w.registry = .empty) {a : ApprovalArgs}
    (ha : a.approved = true) :
    ((resumeApproval (valued u fun _ => true) tenant runId a).run (smooth u fun _ => true).handle
        w).2.registry = .empty ∧
      ((resumeApproval (valued u fun _ => true) tenant runId a).run (smooth u fun _ => true).handle
        w).2.ledger tenant runId = (w.ledger tenant runId).passStep runId a := by
  set w' : World := { w with tick := w.tick + 1 } with hw'
  have hget : (perform (.getRun tenant runId)).run (smooth u fun _ => true).handle w =
      (.ok (some (run, w.stepsOf tenant runId)), w') := by
    rw [Prog.run_perform, handle_smooth]
    simp only [Env.effect, hrun]
    rfl
  obtain ⟨w₂, hpass⟩ : ∃ w₂, (passStep tenant (w'.ledger tenant runId).waiting a).run
      (smooth u fun _ => true).handle w' = (.ok (), w₂) := by
    unfold passStep
    cases (w'.ledger tenant runId).waiting with
    | none => exact ⟨_, rfl⟩
    | some step =>
      rw [Prog.run_perform, handle_smooth]
      exact ⟨_, rfl⟩
  have hreg₂ : w₂.registry = .empty := by
    have hkeeps := registry_passStep (smooth u fun _ => true) tenant
      (w'.ledger tenant runId).waiting a w'
    rw [hpass] at hkeeps
    exact hkeeps.trans hreg
  have hL₂ : w₂.ledger tenant runId = (w.ledger tenant runId).passStep runId a := by
    have hdoes := (@passStep_does (smooth u fun _ => true) tenant runId _ a).run
      (rfl : w'.ledger tenant runId = _)
    rw [hpass] at hdoes
    rcases hdoes with hL | ⟨-, e, he⟩
    · exact hL
    · cases he
  have hlook : ∃ e, (lookupDefinition tenant run.workflowId run.workflowVersion).run
      (smooth u fun _ => true).handle w₂ = (.error e, { w₂ with tick := w₂.tick + 1 + 1 }) := by
    have hversion : ∀ wf v, Registry.empty.getByVersion tenant wf v = none := fun _ _ => rfl
    have hworkflow : ∀ wf, Registry.empty.getById tenant wf = none := fun _ => rfl
    unfold lookupDefinition
    simp only [Prog.run_bind, Prog.run_perform, Prog.run_throw, handle_smooth, Env.effect, hreg₂,
      hversion, hworkflow]
    exact ⟨_, rfl⟩
  obtain ⟨e, hlook⟩ := hlook
  unfold resumeApproval
  rw [Prog.run_bind_ok _ hget]
  simp only
  rw [if_neg (not_not.2 hstatus), if_pos ha]
  rw [show (w.stepsOf tenant runId).find? (·.status = .waitingApproval) =
    (w'.ledger tenant runId).waiting from rfl]
  unfold approve
  rw [Prog.run_bind_ok _ hpass, Prog.run_bind_error _ hlook]
  exact ⟨hreg₂, hL₂⟩

theorem passStep_run (L : Ledger) (runId : String) (a : ApprovalArgs) :
    (L.passStep runId a).run = L.run := by
  unfold Ledger.passStep
  split <;> rfl

/-- Once the gate is approved, all steps are in status `SUCCESS`, and there is one of the gate. -/
theorem Stalls.pass {completed : List String} (h : Stalls d completed L L') (runId : String)
    (a : ApprovalArgs) :
    (∀ s ∈ (L'.passStep runId a).steps, s.status = .success) ∧
      ∃ gate ∈ d.nodeIds, gate ∉ completed ∧
        gate ∈ (L'.passStep runId a).steps.map (·.nodeId) ∧
        L.steps.map (·.nodeId) ⊆ (L'.passStep runId a).steps.map (·.nodeId) := by
  obtain ⟨rows, row, hsteps, hsub, hdone, hstatus, hgate, hnew⟩ := h.steps
  have hwaiting : L'.waiting = some row :=
    Ledger.waiting_last hsteps (fun s hs => by simp [hdone s hs]) hstatus
  have hids : (L'.passStep runId a).steps.map (·.nodeId) = L'.steps.map (·.nodeId) := by
    simp only [Ledger.passStep, hwaiting, Ledger.log_steps, Ledger.amend, List.map_map]
    refine List.map_congr_left fun s _ => ?_
    simp only [Function.comp_apply]
    split <;> rfl
  refine ⟨fun s hs => ?_, row.nodeId, hgate, hnew, ?_, ?_⟩
  · simp only [Ledger.passStep, hwaiting, Ledger.log_steps, Ledger.amend] at hs
    obtain ⟨s', hs', rfl⟩ := List.mem_map.1 hs
    split
    · rfl
    next hne =>
    rw [hsteps] at hs'
    rcases List.mem_append.1 hs' with hs' | hs'
    · exact hdone s' hs'
    · rw [List.mem_singleton.1 hs'] at hne
      exact absurd rfl hne
  · rw [hids, hsteps]
    simp
  · rw [hids, hsteps]
    intro x hx
    obtain ⟨s, hs, rfl⟩ := List.mem_map.1 hx
    exact List.mem_map_of_mem (List.mem_append_left _ (hsub s hs))

/-- No workflow is stored, the run is new or stored, and all its steps succeeded. -/
structure World.Ready (tenant runId : String) (w : World) : Prop where
  registry : w.registry = .empty
  new : w.run? tenant runId = none → w.runs.get? runId = none ∧ w.stepsOf tenant runId = []
  done : ∀ s ∈ w.stepsOf tenant runId, s.status = .success

theorem smooth_favourable : smooth u (fun _ => true) ∈ favourable u :=
  ⟨rfl, fun o _ _ => by cases o <;> rfl, fun _ _ _ _ => rfl⟩

/-- Executing the definition and approving its gates in turn leads to a step of the node, by
induction on the number of nodes that have no step yet. -/
theorem session_progress {a : ExecuteArgs} {traceId : String}
    (htrace : orElse a.traceId none = some traceId) (hid : id ∈ a.definition.nodeIds)
    (hpass : ∀ x, a.definition.Precedes (fun _ => true) x id → a.definition.Passable u x) (n : ℕ)
    {w : World} (hw : w.Ready tenant a.runId)
    (hn : (a.definition.nodeIds.filter fun x =>
      x ∉ (w.stepsOf tenant a.runId).map (·.nodeId)).length = n) :
    ∃ w', Session (favourable u) tenant a.runId a.definition w w' ∧
      w'.HasStepOf tenant a.runId id := by
  induction n using Nat.strong_induction_on generalizing w with
  | _ n ih =>
    by_cases hstep : w.HasStepOf tenant a.runId id
    · exact ⟨w, .refl, hstep⟩
    obtain ⟨hreg, hout⟩ := execute_progress htrace hid hpass (fun h => (hw.new h).1) hw.done hstep
    set w₁ := ((execute (valued u fun _ => true) tenant a).run (smooth u fun _ => true).handle w).2
      with hw₁
    have hcall : Call (favourable u) tenant a.runId a.definition w w₁ :=
      .execute smooth_favourable a rfl ⟨rfl, rfl⟩
    rcases hout with hmade | hstalls
    · exact ⟨w₁, .single hcall, hmade⟩
    -- the gate at which the run waits is approved
    obtain ⟨run, hrun, hstatus⟩ : ∃ run, w₁.run? tenant a.runId = some run ∧
        run.status = .waitingApproval := ⟨_, hstalls.run, rfl⟩
    set approval : ApprovalArgs :=
      { approved := true, approverEmail := "", comment := none, decidedAt := "" } with happroval
    obtain ⟨hreg₂, hL₂⟩ := @run_approve_smooth u tenant a.runId w₁ run hrun hstatus
      (hreg.trans hw.registry) approval rfl
    set w₂ := ((resumeApproval (valued u fun _ => true) tenant a.runId approval).run
      (smooth u fun _ => true).handle w₁).2 with hw₂
    have hcall₂ : Call (favourable u) tenant a.runId a.definition w₁ w₂ := by
      refine .resumeApproval smooth_favourable approval fun run d' _ hpins => ?_
      rw [World.Pins, hreg.trans hw.registry] at hpins
      cases hpins
    obtain ⟨hdone, gate, hgate, hnew, hmem, hsub⟩ := hstalls.pass a.runId approval
    have hsteps₂ : w₂.stepsOf tenant a.runId =
        ((w₁.ledger tenant a.runId).passStep a.runId approval).steps := congrArg Ledger.steps hL₂
    rw [← hsteps₂] at hdone hmem hsub
    have hready : w₂.Ready tenant a.runId := by
      refine ⟨hreg₂, fun hnone => ?_, hdone⟩
      have hrun₂ : w₂.run? tenant a.runId = w₁.run? tenant a.runId :=
        (congrArg Ledger.run hL₂).trans (passStep_run _ _ _)
      rw [hrun₂, hrun] at hnone
      cases hnone
    have hgate' : gate ∉ (w.stepsOf tenant a.runId).map (·.nodeId) := by
      intro hin
      obtain ⟨s, hs, hsid⟩ := List.mem_map.1 hin
      refine hnew (List.mem_map.2 ⟨s, List.mem_filter.2 ⟨?_, by simp [hw.done s hs]⟩, hsid⟩)
      cases hr : w.run? tenant a.runId with
      | none =>
        rw [(hw.new hr).2] at hs
        exact absurd hs List.not_mem_nil
      | some run =>
        rw [Ledger.snapshot, show (w.ledger tenant a.runId).run = some run from hr]
        exact hs
    have hfewer : (a.definition.nodeIds.filter fun x =>
        x ∉ (w₂.stepsOf tenant a.runId).map (·.nodeId)).length < n := by
      have hfilter : (a.definition.nodeIds.filter fun x =>
          x ∉ (w₂.stepsOf tenant a.runId).map (·.nodeId)) =
          (a.definition.nodeIds.filter fun x =>
            x ∉ (w.stepsOf tenant a.runId).map (·.nodeId)).filter fun x =>
              x ∉ (w₂.stepsOf tenant a.runId).map (·.nodeId) := by
        rw [List.filter_filter]
        refine List.filter_congr fun x _ => ?_
        by_cases hx : x ∈ (w.stepsOf tenant a.runId).map (·.nodeId)
        · simp [hsub hx, hx]
        · simp [hx]
      rw [← hn, hfilter, List.length_filter_lt_length_iff_exists]
      exact ⟨gate, List.mem_filter.2 ⟨hgate, by simpa using hgate'⟩, by simpa using hmem⟩
    obtain ⟨w', hsession, hmade⟩ := ih _ hfewer hready rfl
    exact ⟨w', .head hcall (.head hcall₂ hsession), hmade⟩

/-- **What is ever executed**: the nodes before which every node can be passed. -/
theorem everExecutes_iff (hid : id ∈ d.nodeIds) :
    EverExecutes u d id ↔ ∀ x, d.Precedes (fun _ => true) x id → d.Passable u x := by
  constructor
  · rintro ⟨tenant, runId, w, w', hfresh, hsession, row, hrow, rfl⟩
    exact (hsession.passing hfresh).behind row hrow
  · intro hpass
    set a : ExecuteArgs :=
      { definition := d
        runId := ""
        inputPayload := .null
        traceId := some "trace" } with ha
    have hready : World.empty.Ready "" a.runId :=
      ⟨rfl, fun _ => ⟨rfl, rfl⟩, fun s hs => absurd hs List.not_mem_nil⟩
    obtain ⟨w', hsession, hmade⟩ := @session_progress u "" id a "trace" rfl hid hpass _ _ hready rfl
    exact ⟨"", "", World.empty, w', rfl, hsession, hmade⟩

end Progress

/-! ## Where validator and engine agree -/

/-- Validator and engine agree on the node: it is reported as unreachable exactly if it is never
executed. -/
def ReachabilityAgrees (u : Unicode) (d : WorkflowDefinition) (available : Option (List String))
    (id : String) : Prop :=
  WorkflowValidator.Reports d available id ↔ ¬ EverExecutes u d id

section Agreement

variable {u : Unicode} {d : WorkflowDefinition} {available : Option (List String)}

/-- From a node without incoming edges, edges lead to every node. -/
theorem exists_root {id : String} (hid : id ∈ d.nodeIds) :
    ∃ x ∈ d.roots, Relation.ReflTransGen d.Leads x id := by
  obtain ⟨path, hpath⟩ := reachable_of_mem hid
  clear hid
  induction hpath with
  | start hx =>
    have hroot := List.mem_of_getElem? hx
    rw [d.startNodes_eq] at hroot
    exact ⟨_, hroot, .refl⟩
  | @follow path x i y hwalk hy ih =>
    obtain ⟨root, hroot, hleads⟩ := ih
    obtain ⟨e, he, rfl⟩ := List.mem_map.1 (List.mem_of_getElem? hy)
    obtain ⟨hedge, hsource⟩ := List.mem_filter.1 (List.mem_of_mem_filter he)
    exact ⟨root, hroot, hleads.tail ⟨e, hedge, by simpa using hsource, rfl⟩⟩

/-- The validator enters a node without incoming edges only if it starts from it. -/
theorem isEntry_of_entered {x : String} (hx : x ∈ d.roots) (h : d.Entered x) : d.IsEntry x := by
  obtain ⟨y, hy, hleads⟩ := h
  rcases Relation.ReflTransGen.cases_tail hleads with rfl | ⟨z, -, e, he, -, rfl⟩
  · exact hy
  · have hnone := (d.mem_startNodes.1 (d.startNodes_eq ▸ hx)).2 e he
    exact absurd rfl hnone

end Agreement

/-- In a definition that the validator goes through, it reports what it does not enter. -/
theorem reports_iff_of_isOk {d : WorkflowDefinition} {available : Option (List String)}
    (hok : (WorkflowValidator.validateDefinition d available).isOk = true) {id : String}
    (hid : id ∈ d.nodeIds) : WorkflowValidator.Reports d available id ↔ ¬ d.Entered id := by
  have hcomparable : ¬ ∃ n ∈ d.nodes, WorkflowValidator.Incomparable n := by
    rintro ⟨n, hn, hbad⟩
    exact (WorkflowValidator.validateDefinition_isOk d available).1 hok n hn hbad
  rw [WorkflowValidator.reports_iff d hid, or_iff_left hcomparable]

/-- **Where validator and engine agree**: on a node that the validator enters exactly if all nodes
before it can be passed; on another node exactly if some node before it cannot. -/
theorem reachabilityAgrees_iff (u : Unicode) (d : WorkflowDefinition)
    (available : Option (List String))
    (hok : (WorkflowValidator.validateDefinition d available).isOk = true) {id : String}
    (hid : id ∈ d.nodeIds) :
    ReachabilityAgrees u d available id ↔
      (d.Entered id ↔ ∀ x, d.Precedes (fun _ => true) x id → d.Passable u x) := by
  unfold ReachabilityAgrees
  rw [reports_iff_of_isOk hok hid, everExecutes_iff hid, not_iff_not]

/-- Where every node can be passed, validator and engine agree on all nodes exactly if the validator
starts from all nodes without incoming edges. -/
theorem forall_reachabilityAgrees_iff {u : Unicode} {d : WorkflowDefinition}
    {available : Option (List String)}
    (hok : (WorkflowValidator.validateDefinition d available).isOk = true)
    (hpass : ∀ x, d.Passable u x) :
    (∀ id ∈ d.nodeIds, ReachabilityAgrees u d available id) ↔ ∀ x ∈ d.roots, d.IsEntry x := by
  have hagrees : ∀ id ∈ d.nodeIds, ReachabilityAgrees u d available id ↔ d.Entered id := by
    intro id hid
    unfold ReachabilityAgrees
    rw [reports_iff_of_isOk hok hid, everExecutes_iff hid, not_iff_not]
    simp [hpass]
  constructor
  · intro h x hx
    have hid : x ∈ d.nodeIds := List.mem_of_mem_filter hx
    exact isEntry_of_entered hx ((hagrees x hid).1 (h x hid))
  · intro h id hid
    obtain ⟨x, hx, hleads⟩ := exists_root hid
    exact (hagrees id hid).2 ⟨x, h x hx, hleads⟩

/-- A webhook, and a node beside it that no edge leads to. -/
def besideWorkflow : WorkflowDefinition where
  id := some "wf_beside"
  name := "beside"
  trigger := { type := "webhook" }
  nodes := [
    { id := "hook", type := "trigger.webhook", name := "Hook" },
    { id := "call", type := "action.http", name := "Call" }]
  edges := []
  accepted := by decide

theorem passable_beside (u : Unicode) (x : String) : besideWorkflow.Passable u x := by
  intro node hnode
  obtain ⟨hmem, -⟩ := besideWorkflow.node?_eq_some.1 hnode
  refine Or.inr (attempts_of_retry hmem fun items hretry => ?_)
  simp only [besideWorkflow, List.mem_cons, List.not_mem_nil, or_false] at hmem
  rcases hmem with rfl | rfl <;> cases hretry

theorem not_entered_beside : ¬ besideWorkflow.Entered "call" := by
  intro h
  have hentry : besideWorkflow.IsEntry "call" := isEntry_of_entered (by decide) h
  rcases hentry with ⟨n, hn, htrigger, hid⟩ | ⟨hnone, -⟩
  · simp only [besideWorkflow, List.mem_cons, List.not_mem_nil, or_false] at hn
    rcases hn with rfl | rfl
    · exact absurd hid (by decide)
    · revert htrigger
      decide
  · exact hnone "hook" ⟨_, List.mem_cons_self, by decide, rfl⟩

theorem isOk_beside : (WorkflowValidator.validateDefinition besideWorkflow none).isOk = true := by
  rw [WorkflowValidator.validateDefinition_isOk]
  intro n hn hbad
  simp only [besideWorkflow, List.mem_cons, List.not_mem_nil, or_false] at hn
  rcases hn with rfl | rfl <;> exact absurd hbad.1 (by decide)

/-- Validator and engine agree on the webhook. -/
theorem reachabilityAgrees_iff_hook :
    ReachabilityAgrees ⟨fun _ => true, fun _ => none⟩ besideWorkflow none "hook" ∧
      besideWorkflow.Entered "hook" := by
  have hentered : besideWorkflow.Entered "hook" :=
    ⟨"hook", Or.inl ⟨_, List.mem_cons_self, by decide, rfl⟩, .refl⟩
  exact ⟨(reachabilityAgrees_iff _ besideWorkflow none isOk_beside (by decide)).2
    (iff_of_true hentered fun x _ => passable_beside _ x), hentered⟩

/-- The node beside the webhook is reported, and yet executed. -/
theorem not_reachabilityAgrees_beside :
    ¬ ∀ (u : Unicode) (d : WorkflowDefinition) (available : Option (List String)),
      ∀ id ∈ d.nodeIds, ReachabilityAgrees u d available id := by
  intro h
  have hagrees := h ⟨fun _ => true, fun _ => none⟩ besideWorkflow none "call" (by decide)
  exact hagrees.1 ((reports_iff_of_isOk isOk_beside (by decide)).2 not_entered_beside)
    ((everExecutes_iff (by decide)).2 fun x _ => passable_beside _ x)

end FlowMesh
