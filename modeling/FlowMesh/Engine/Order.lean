import Mathlib.Data.List.Induction
import FlowMesh.Engine.Session

/-!
# The order of dispatches

With the edge conditions fixed to values `v`, the traversal of `execute` is the first-in
first-out traversal of `Fifo` along the edges that hold, and the nodes are visited in the order
of their least paths: a node is taken from the queue as soon as the first of its predecessors
was, whatever the others do. So a node is dispatched behind all its predecessors
(`DependencyOrder`) exactly when each of them precedes it in that order (`JoinsLast`).

A join whose branches differ in length breaks the order: with edges from `A` to `B` and `D`, from
`B` to `C` and from `C` to `D`, the node `D` is dispatched before `C`.
-/

namespace FlowMesh

open Python Database Async

/-- An evaluator whose edge conditions have fixed values. -/
def valued (u : Unicode) (v : WorkflowEdge → Bool) : Evaluator := ⟨u, fun e _ => v e⟩

/-- The targets of the edges out of a node that hold. -/
def WorkflowSpec.next (s : WorkflowSpec) (v : WorkflowEdge → Bool) (id : String) : List String :=
  ((s.outgoing id).filter v).map (·.target)

/-- A path along edges that hold leads from a start node to the node. -/
def WorkflowSpec.Reachable (s : WorkflowSpec) (v : WorkflowEdge → Bool) (id : String) : Prop :=
  ∃ path, Fifo.Walk s.startNodes (s.next v) path id

/-- Every path to `y` along edges that hold is preceded by a path to `x`: a shorter one, or one of
the same length that comes first in the order of the definition. -/
def WorkflowSpec.Precedes (s : WorkflowSpec) (v : WorkflowEdge → Bool) (x y : String) : Prop :=
  Fifo.Precedes s.startNodes (s.next v) x y

/-- The node can be dispatched: it is no gate, and its retry policy allows an attempt. -/
def WorkflowNode.Dispatchable (u : Unicode) (n : WorkflowNode) : Prop :=
  n.type ≠ "action.approval" ∧ n.Attempts u

/-- Where an edge holds whose source can be reached and whose target can be dispatched, the
source comes before the target in the order of the least paths. -/
def WorkflowSpec.JoinsLast (s : WorkflowSpec) (u : Unicode) (v : WorkflowEdge → Bool) : Prop :=
  ∀ e ∈ s.edges, v e = true → s.Reachable v e.source →
    ∀ node, s.node? e.target = some node → node.Dispatchable u → s.Precedes v e.source e.target

/-- Some step of the node is in status `SUCCESS`. -/
def Ledger.Completed (L : Ledger) (id : String) : Prop :=
  ∃ s ∈ L.steps, s.nodeId = id ∧ s.status = .success

/-- **Dependency order**: in every `execute` call on a run whose steps belong to nodes that can be
reached, whenever a node is dispatched, each source of an edge into it that holds and that is
executed in this run, now, earlier or later, has a step in status `SUCCESS`, and the context of
the dispatch has its output. -/
def DependencyOrder (u : Unicode) (d : WorkflowDefinition) (v : WorkflowEdge → Bool) : Prop :=
  ∀ (env : Env) (tenant : String) (a : ExecuteArgs) (w w' w'' : World) (new : List Event),
    env.toEvaluator = valued u v → a.definition = d →
    (∀ s ∈ w.stepsOf tenant a.runId, d.Reachable v s.nodeId) →
    w' = ((execute env.toEvaluator tenant a).run env.handle w).2 →
    Session {env | env.toEvaluator = valued u v} tenant a.runId d w' w'' →
    w'.eventsOf a.runId = w.eventsOf a.runId ++ new →
    ∀ n config context ok, .dispatched a.runId n config context ok ∈ new →
      ∀ e ∈ d.edges, e.target = n → v e = true →
        (∃ s ∈ w''.stepsOf tenant a.runId, s.nodeId = e.source) →
        (w'.ledger tenant a.runId).Completed e.source ∧ (context.step? e.source).isSome = true

/-! ## The traversal is first-in first-out -/

/-- The queue and the visited nodes are those of the first-in first-out traversal. -/
def Traversal.OnTrack (s : WorkflowSpec) (v : WorkflowEdge → Bool) (t : Traversal) : Prop :=
  ∃ k, (Fifo.step fun _ => s.next v)^[k] ⟨s.startNodes, []⟩ = ⟨t.queue, t.visited⟩

section Track

variable {d : WorkflowDefinition} {v : WorkflowEdge → Bool} {t t' : Traversal} {id : String}
  {queue : List String}

theorem Traversal.OnTrack.skip (h : t.OnTrack d.toWorkflowSpec v) (hq : t.queue = id :: queue)
    (hv : id ∈ t.visited) : ({ t with queue } : Traversal).OnTrack d.toWorkflowSpec v := by
  obtain ⟨k, hk⟩ := h
  refine ⟨k + 1, ?_⟩
  rw [Function.iterate_succ_apply', hk, hq, Fifo.step_skip _ hv]

theorem Traversal.OnTrack.visit {u : Unicode} (h : t.OnTrack d.toWorkflowSpec v)
    (hq : t.queue = id :: queue) (hv : id ∉ t.visited) (hq' : t'.queue = queue)
    (hv' : t'.visited = t.visited ++ [id]) :
    (t'.follow (valued u v) d id).OnTrack d.toWorkflowSpec v := by
  obtain ⟨k, hk⟩ := h
  refine ⟨k + 1, ?_⟩
  rw [Function.iterate_succ_apply', hk, hq, Fifo.step_visit _ hv]
  simp only [Traversal.follow, hq', hv']
  rfl

variable (d v) in
/-- The iterations that empty the queue. -/
theorem queue_track : ((Fifo.step fun _ => d.next v)^[traverseFuel d]
    ⟨d.startNodes, []⟩).queue = [] := by
  refine Fifo.queue_iterate_eq_nil _ d.nodeIds d.outDegree d.nodup_nodeIds ?_ ?_ _ _ ?_ ?_
  · intro _ x y hy
    have hy' : y ∈ d.targets (valued ⟨fun _ => true, fun _ => none⟩ v) x ⟨.null, [], "", ""⟩ := hy
    exact targets_mem _ hy'
  · intro _ x
    rw [WorkflowSpec.next, List.length_map]
    exact List.length_filter_le _ _
  · exact fun x hx => (d.mem_startNodes.1 hx).1
  · exact budget_start_le ⟨.null, [], "", ""⟩ .null

/-- What was visited when a node is taken from the queue: the nodes that precede it. -/
theorem Traversal.OnTrack.mem_visited_iff (h : t.OnTrack d.toWorkflowSpec v)
    (hq : t.queue = id :: queue) (hv : id ∉ t.visited) {y : String} (hy : d.Reachable v y) :
    y ∈ t.visited ↔ d.Precedes v y id := by
  obtain ⟨k, hk⟩ := h
  obtain ⟨path, hpath⟩ := hy
  rw [hq] at hk
  exact Fifo.mem_visited_iff_precedes (queue_track d v) hk hv hpath

/-- What is taken from the queue can be reached. -/
theorem Traversal.OnTrack.reachable (h : t.OnTrack d.toWorkflowSpec v)
    (hq : t.queue = id :: queue) : d.Reachable v id := by
  obtain ⟨k, hk⟩ := h
  rw [hq] at hk
  exact Fifo.walk_of_queued hk

end Track

/-! ## In order, if the joins come last -/

/-- A dispatch of a node that can be dispatched, behind all nodes that precede it. -/
def Event.InOrder (u : Unicode) (d : WorkflowDefinition) (v : WorkflowEdge → Bool) (L : Ledger) :
    Event → Prop
  | .dispatched _ n _ context _ => (∃ node, d.node? n = some node ∧ node.Dispatchable u) ∧
      ∀ y, d.Reachable v y → d.Precedes v y n →
        L.Completed y ∧ (context.step? y).isSome = true
  | _ => True

/-- The context has what was visited and what the snapshot had as completed, and everything it
has is stored. -/
structure Supplied (completed : List String) (t : Traversal) (L : Ledger) : Prop where
  visited : ∀ x ∈ t.visited, (t.context.step? x).isSome = true
  completed : ∀ x ∈ completed, (t.context.step? x).isSome = true
  stored : ∀ x, (t.context.step? x).isSome = true → L.Completed x

/-- What a part of a call appends to the ledger: steps of nodes that can be reached, and
dispatches in order. -/
structure Appends (u : Unicode) (d : WorkflowDefinition) (v : WorkflowEdge → Bool)
    (L L' : Ledger) : Prop where
  intro ::
  out : ∃ rows es, L'.steps = L.steps ++ rows ∧ (∀ s ∈ rows, d.Reachable v s.nodeId) ∧
    L'.events = L.events ++ es ∧ ∀ e ∈ es, e.InOrder u d v L'

section Ordered

variable {env : Env} {tenant runId : String} {u : Unicode} {d : WorkflowDefinition}
  {v : WorkflowEdge → Bool} {L L₁ L' : Ledger}

theorem Ledger.Completed.append {rows : List RunStepRecord} {x : String} (h : L.Completed x)
    (hrows : L'.steps = L.steps ++ rows) : L'.Completed x := by
  obtain ⟨s, hs, hid, hst⟩ := h
  refine ⟨s, ?_, hid, hst⟩
  rw [hrows]
  exact List.mem_append_left _ hs

theorem Appends.refl (L : Ledger) : Appends u d v L L :=
  ⟨⟨[], [], by simp, by simp, by simp, by simp⟩⟩

theorem Appends.trans (h : Appends u d v L L₁) (h' : Appends u d v L₁ L') :
    Appends u d v L L' := by
  obtain ⟨rows, es, hrows, hreach, hes, hall⟩ := h.out
  obtain ⟨rows', es', hrows', hreach', hes', hall'⟩ := h'.out
  refine ⟨⟨rows ++ rows', es ++ es', by rw [hrows', hrows, List.append_assoc], ?_,
    by rw [hes', hes, List.append_assoc], ?_⟩⟩
  · intro s hs
    rcases List.mem_append.1 hs with hs | hs
    · exact hreach s hs
    · exact hreach' s hs
  · intro e he
    rcases List.mem_append.1 he with he | he
    · cases e with
      | dispatched run n config context ok =>
        obtain ⟨hnode, hpre⟩ := hall _ he
        refine ⟨hnode, fun y hy hyn => ?_⟩
        obtain ⟨hdone, hctx⟩ := hpre y hy hyn
        exact ⟨hdone.append hrows', hctx⟩
      | executing => trivial
      | approved => trivial
    · exact hall' e he

/-- A step of a node that can be reached, without a dispatch. -/
theorem Appends.add {row : RunStepRecord} (h : d.Reachable v row.nodeId) :
    Appends u d v L (L.add row) := by
  refine ⟨⟨[row], [], rfl, fun s hs => ?_, by simp, by simp⟩⟩
  rw [List.mem_singleton.1 hs]
  exact h

theorem Appends.setRun (h : Appends u d v L L') (f : RunRecord → RunRecord) :
    Appends u d v L (L'.setRun f) := by
  obtain ⟨rows, es, hrows, hreach, hes, hall⟩ := h.out
  exact ⟨⟨rows, es, hrows, hreach, hes, hall⟩⟩

/-- The step and the dispatches of a node taken from the queue. -/
theorem Appends.node {completed : List String} {t : Traversal} {id : String} {queue : List String}
    {node : WorkflowNode} {row : RunStepRecord} {config : List (String × Json)} {bs : List Bool}
    (htrack : t.OnTrack d.toWorkflowSpec v) (hsup : Supplied completed t L)
    (hq : t.queue = id :: queue) (hv : id ∉ t.visited) (hn : d.node? id = some node)
    (ht : node.type ≠ "action.approval") (hof : StepOf tenant runId node row)
    (hattempts : bs ≠ [] → node.Attempts u) :
    Appends u d v L ((L.add row).log (dispatches runId node config t.context bs)) := by
  have hid : node.id = id := (d.node?_eq_some.1 hn).2
  refine ⟨⟨[row], dispatches runId node config t.context bs, rfl, fun s hs => ?_, rfl, ?_⟩⟩
  · rw [List.mem_singleton.1 hs, hof.nodeId, hid]
    exact htrack.reachable hq
  · intro e he
    obtain ⟨b, hb, rfl⟩ := List.mem_map.1 he
    refine ⟨⟨node, hid ▸ hn, ht, hattempts (List.ne_nil_of_mem hb)⟩, fun y hy hpre => ?_⟩
    rw [hid] at hpre
    have hctx := hsup.visited y ((htrack.mem_visited_iff hq hv hy).2 hpre)
    exact ⟨(hsup.stored y hctx).append rfl, hctx⟩

theorem Appends.executes {completed : List String} {t : Traversal} {id : String}
    {queue : List String} {node : WorkflowNode} {r : Except PyError StepResult}
    (hx : Executes env tenant runId node t.context L r L') (hev : env.toEvaluator = valued u v)
    (htrack : t.OnTrack d.toWorkflowSpec v) (hsup : Supplied completed t L)
    (hq : t.queue = id :: queue) (hv : id ∉ t.visited) (hn : d.node? id = some node)
    (ht : node.type ≠ "action.approval") : Appends u d v L L' := by
  have hu : env.unicode = u := congrArg Evaluator.unicode hev
  cases hx with
  | unrecorded e => exact .refl L
  | succeeded hnew hof hstatus houtput hduration hdispatch hbs hattempts =>
    exact .node htrack hsup hq hv hn ht hof fun _ => hu ▸ hattempts
  | stopped hnew hof hr hwait hsettles hattempts =>
    exact .node htrack hsup hq hv hn ht hof fun h => hu ▸ hattempts h

theorem Appends.parks {node : WorkflowNode} {r : Except PyError Unit}
    (hp : Parks tenant runId node L r L') (hreach : d.Reachable v node.id) :
    Appends u d v L L' :=
  hp.invariant (fun _ _ hof _ => .add (hof.nodeId ▸ hreach)) (fun _ f hL => hL.setRun f) (.refl L)

/-- The state behind a node that the snapshot had as completed. -/
theorem Supplied.reuse {completed : List String} {t : Traversal} {id : String}
    {queue : List String} {ev : Evaluator} (h : Supplied completed t L) (hc : id ∈ completed) :
    Supplied completed (((t.pop id queue).reuse id).follow ev d id) L where
  visited := by
    intro x hx
    rcases List.mem_append.1 (show x ∈ t.visited ++ [id] from hx) with hx | hx
    · exact h.visited x hx
    · rw [List.mem_singleton.1 hx]
      exact h.completed id hc
  completed := h.completed
  stored := h.stored

/-- The state behind a node that succeeded now. -/
theorem Supplied.succeed {completed : List String} {t : Traversal} {id : String}
    {queue : List String} {ev : Evaluator} {output : Json} {durationMs : PyFloat}
    {rows : List RunStepRecord} (h : Supplied completed t L) (hdone : L'.Completed id)
    (hrows : L'.steps = L.steps ++ rows) :
    Supplied completed (((t.pop id queue).succeed id output durationMs).follow ev d id) L' where
  visited := by
    intro x hx
    simp only [Traversal.follow, Traversal.succeed, Context.step?_put, Traversal.pop]
    split
    · rfl
    next hne =>
    rcases List.mem_append.1 (show x ∈ t.visited ++ [id] from hx) with hx | hx
    · exact h.visited x hx
    · exact absurd (List.mem_singleton.1 hx).symm hne
  completed := by
    intro x hx
    simp only [Traversal.follow, Traversal.succeed, Context.step?_put, Traversal.pop]
    split
    · rfl
    · exact h.completed x hx
  stored := by
    intro x hx
    simp only [Traversal.follow, Traversal.succeed, Context.step?_put, Traversal.pop] at hx
    split at hx
    · next heq =>
      rw [← heq]
      exact hdone
    · exact (h.stored x hx).append hrows

/-- One traversal, by induction over what it does. -/
theorem Traverses.appends {completed : List String} {t : Traversal} {r : Except PyError Outcome}
    (h : Traverses env tenant runId d completed t L r L') (hev : env.toEvaluator = valued u v)
    (htrack : t.OnTrack d.toWorkflowSpec v) (hsup : Supplied completed t L) :
    Appends u d v L L' := by
  induction h with
  | finished hq => exact .refl _
  | skip hq hv h ih => exact ih (htrack.skip hq hv) ⟨hsup.visited, hsup.completed, hsup.stored⟩
  | reuse hq hv hn hc h ih =>
    rw [hev] at ih
    exact ih (htrack.visit hq hv rfl rfl) (hsup.reuse hc)
  | parked hq hv hn hc ht hp =>
    refine .parks hp ?_
    rw [(d.node?_eq_some.1 hn).2]
    exact htrack.reachable hq
  | stopped hq hv hn hc ht hx hr hr' => exact .executes hx hev htrack hsup hq hv hn ht
  | executed hq hv hn hc ht hx h ih =>
    refine (Appends.executes hx hev htrack hsup hq hv hn ht).trans ?_
    rw [hev] at ih
    obtain ⟨row, bs, -, hof, hst, -, -, -, -, rfl⟩ := hx.success_inv
    refine ih (htrack.visit hq hv rfl rfl) (hsup.succeed ?_ rfl)
    have hid : row.nodeId = _ := hof.nodeId.trans (d.node?_eq_some.1 hn).2
    exact ⟨row, List.mem_append_right _ (List.mem_singleton.2 rfl), hid, hst⟩

theorem isSome_preload (context : Context) (steps : List RunStepRecord) (x : String) :
    ((context.preload steps).step? x).isSome = true ↔
      (context.step? x).isSome = true ∨ x ∈ completedIds steps := by
  unfold Context.preload completedIds
  induction steps.filter (·.status = .success) generalizing context with
  | nil => simp
  | cons s rows ih =>
    rw [List.foldl_cons, ih, Context.step?_put, List.map_cons, List.mem_cons]
    by_cases hx : s.nodeId = x
    · simp [hx]
    · simp [hx, Ne.symm hx]

theorem completed_of_mem_completedIds {x : String} (h : x ∈ completedIds L.snapshot) :
    L.Completed x := by
  obtain ⟨s, hs, hid⟩ := List.mem_map.1 h
  obtain ⟨hs, hst⟩ := List.mem_filter.1 hs
  refine ⟨s, ?_, hid, by simpa using hst⟩
  unfold Ledger.snapshot at hs
  split at hs
  · cases hs
  · exact hs

/-- The traversal starts with what the snapshot has. -/
theorem supplied_start (a : ExecuteArgs) (traceId : String) :
    Supplied (completedIds L.snapshot) (a.start tenant traceId L.snapshot)
      (L.begin tenant a traceId) where
  visited := fun x hx => absurd hx List.not_mem_nil
  completed := fun x hx => (isSome_preload _ _ x).2 (Or.inr hx)
  stored := by
    intro x hx
    rcases (isSome_preload _ _ x).1 hx with hx | hx
    · cases hx
    · have hdone : L.Completed x := completed_of_mem_completedIds hx
      exact hdone

theorem Appends.ends {r : Except PyError Outcome} {r' : Except PyError RunRecord}
    (h : Appends u d v L L₁) (hend : Ends L₁ r r' L') : Appends u d v L L' :=
  hend.invariant (fun f => h.setRun f) h

/-- One `execute` call, whatever is stored. -/
theorem Runs.appends {a : ExecuteArgs} {r : Except PyError RunRecord}
    (h : Runs env tenant a L r L') (hev : env.toEvaluator = valued u v) :
    Appends u a.definition v L L' := by
  have hbegin : ∀ traceId, Appends u a.definition v L (L.begin tenant a traceId) := by
    intro traceId
    refine ⟨⟨[], [.executing a.runId a.definition.toWorkflowSpec], (List.append_nil _).symm,
      by simp, rfl, fun e he => ?_⟩⟩
    rw [List.mem_singleton.1 he]
    trivial
  cases h with
  | refused e => exact .refl L
  | begun htrace e => exact hbegin _
  | traversed htrace h hend =>
    have htraversed := h.appends hev ⟨0, rfl⟩ (supplied_start a _)
    exact ((hbegin _).trans htraversed).ends hend

theorem WorkflowSpec.SameGraph.next {s s' : WorkflowSpec} (h : s.SameGraph s')
    (v : WorkflowEdge → Bool) : s.next v = s'.next v := by
  funext id
  rw [WorkflowSpec.next, WorkflowSpec.next, h.outgoing]

theorem WorkflowSpec.SameGraph.reachable {s s' : WorkflowSpec} (h : s.SameGraph s') {x : String}
    (hx : s.Reachable v x) : s'.Reachable v x := by
  obtain ⟨path, hpath⟩ := hx
  refine ⟨path, ?_⟩
  rwa [← h.next, ← h.startNodes]

/-- The steps of a session belong to nodes that can be reached. -/
theorem Session.reachable {w w' : World}
    (h : Session {env | env.toEvaluator = valued u v} tenant runId d w w')
    (hw : ∀ s ∈ w.stepsOf tenant runId, d.Reachable v s.nodeId) :
    ∀ s ∈ w'.stepsOf tenant runId, d.Reachable v s.nodeId := by
  have hamend : ∀ (L : Ledger) (stepId : ℕ) (f : RunStepRecord → RunStepRecord),
      (∀ s, (f s).nodeId = s.nodeId) → (∀ s ∈ L.steps, d.Reachable v s.nodeId) →
      ∀ s ∈ (L.amend stepId f).steps, d.Reachable v s.nodeId := by
    intro L stepId f hf hL s' hs'
    obtain ⟨s, hs, rfl⟩ := List.mem_map.1 hs'
    split
    · rw [hf]
      exact hL s hs
    · exact hL s hs
  induction h with
  | refl => exact hw
  | tail _ hcall ih =>
    refine hcall.invariant (I := fun L => ∀ s ∈ L.steps, d.Reachable v s.nodeId) ?_ ?_ ?_ ?_ ih
    · intro env henv a L r L' _ hgraph hL hruns s hs
      obtain ⟨rows, -, hrows, hreach, -⟩ := (hruns.appends henv).out
      rw [hrows] at hs
      rcases List.mem_append.1 hs with hs | hs
      · exact hL s hs
      · exact hgraph.reachable (hreach s hs)
    · intro L a hL
      unfold Ledger.passStep
      split
      · exact hL
      · exact hamend L _ _ (fun _ => rfl) hL
    · intro L a hL
      unfold Ledger.rejectStep
      split
      · exact hL
      · exact hamend L _ _ (fun _ => rfl) hL
    · exact fun L f hL => hL

/-- Joins that come last are enough. -/
theorem dependencyOrder_of_joinsLast (h : d.JoinsLast u v) : DependencyOrder u d v := by
  rintro env tenant a w w' w'' new hev rfl hw rfl hsession hnew n config context ok hmem e he rfl
    hve ⟨s, hs, hsource⟩
  have hruns : Runs env tenant a (w.ledger tenant a.runId) _ _ := (execute_does a rfl).run rfl
  obtain ⟨rows, es, hrows, hreach, hes, hall⟩ := (hruns.appends hev).out
  obtain rfl : new = es := List.append_cancel_left (hnew.symm.trans hes)
  have hreach' : a.definition.Reachable v e.source := by
    rw [← hsource]
    refine hsession.reachable (fun s hs => ?_) s hs
    rw [show World.stepsOf _ tenant a.runId = _ from hrows] at hs
    rcases List.mem_append.1 hs with hs | hs
    · exact hw s hs
    · exact hreach s hs
  obtain ⟨⟨node, hnode, hdispatch⟩, hpre⟩ := hall _ hmem
  exact hpre e.source hreach' (h e he hve hreach' node hnode hdispatch)

end Ordered

/-! ## Only if the joins come last -/

/-- An environment in which nothing fails. -/
def smooth (u : Unicode) (v : WorkflowEdge → Bool) : Env :=
  { Env.steady fun _ => .ok .null with toEvaluator := valued u v }

section Smooth

variable {u : Unicode} {v : WorkflowEdge → Bool} {tenant runId workflowId : String}
  {node : WorkflowNode} {config : List (String × Json)} {context : Context} {stepId : ℕ}

theorem handle_smooth (o : Op) (w : World) : (smooth u v).handle o w =
    (((smooth u v).effect o w).1, { ((smooth u v).effect o w).2 with tick := w.tick + 1 }) := by
  apply Env.handle_of_faultOf
  cases o <;> rfl

theorem run_settle_smooth (res : DispatchResult) (w : World) :
    ∃ w', (settle tenant node stepId res).run (smooth u v).handle w = (.ok (), w') := by
  unfold settle closeCircuit
  cases node.connection? with
  | none => simp [Prog.run_bind, handle_smooth, Env.effect]
  | some c => simp [Prog.run_bind, handle_smooth, Env.effect]

theorem run_tryNode_smooth (w : World) : ∃ res w',
    (tryNode tenant runId node config context stepId).run (smooth u v).handle w =
      (.ok res, w') := by
  obtain ⟨w', hw'⟩ : ∃ w', (settle tenant node stepId ⟨.null, ⟨.finite 2, "2.0"⟩⟩).run
      (smooth u v).handle (((perform (.dispatchNodeType runId node config context)).run
        (smooth u v).handle w).2) = (.ok (), w') := run_settle_smooth _ _
  refine ⟨⟨.null, ⟨.finite 2, "2.0"⟩⟩, w', ?_⟩
  unfold tryNode
  rw [Prog.run_bind_ok (a := ⟨.null, ⟨.finite 2, "2.0"⟩⟩) _ (by rw [Prog.run_perform, handle_smooth]; rfl)]
  rw [Prog.run_perform, handle_smooth] at hw'
  exact (Prog.run_bind_ok _ hw').trans rfl

theorem run_executeNode_smooth (hattempts : node.Attempts u) (w : World) :
    ∃ output durationMs w', (executeNode (valued u v) tenant runId workflowId node context).run
      (smooth u v).handle w = (.ok (.success output durationMs), w') := by
  obtain ⟨maxAttempts, hmax, hpos⟩ := hattempts
  obtain ⟨left, hleft⟩ : ∃ left, maxAttempts.toNat = left + 1 := ⟨maxAttempts.toNat - 1, by omega⟩
  have hattempt : ∀ config stepId w, ∃ output durationMs w',
      (runAttempts (valued u v) tenant runId workflowId node config context stepId).run
        (smooth u v).handle w = (.ok (.success output durationMs), w') := by
    intro config stepId w
    obtain ⟨res, w', htry⟩ : ∃ res w', (tryNode tenant runId node config context stepId).run
      (smooth u v).handle w = (.ok res, w') := run_tryNode_smooth w
    refine ⟨res.output, res.durationMs, w', ?_⟩
    unfold runAttempts
    rw [show (valued u v).unicode = u from rfl, hmax]
    simp only [hleft, retryLoop, backoff, lt_irrefl, if_false, Prog.run_bind, Prog.run_pure,
      Prog.run_attempt, htry]
  unfold executeNode
  obtain ⟨id, w₁, hrec⟩ : ∃ id w₁, (perform (.recordStep tenant runId node .running
      (resolveConfig (valued u v).unicode node context))).run (smooth u v).handle w =
        (.ok id, w₁) := by
    rw [Prog.run_perform, handle_smooth]
    exact ⟨_, _, rfl⟩
  rw [Prog.run_bind_ok _ hrec]
  unfold executeStep
  cases node.connection? with
  | none => exact hattempt _ id w₁
  | some c =>
    obtain ⟨w₂, hstate⟩ : ∃ w₂, (perform (.getCircuitBreakerState c)).run (smooth u v).handle w₁ =
        (.ok .closed, w₂) := by
      rw [Prog.run_perform, handle_smooth]
      exact ⟨_, rfl⟩
    simp only
    rw [Prog.run_bind_ok _ hstate]
    exact hattempt _ id w₂

end Smooth

/-- The run has a step of the node. -/
def World.HasStepOf (tenant runId id : String) (w : World) : Prop :=
  ∃ s ∈ w.stepsOf tenant runId, s.nodeId = id

/-- The node `n` was dispatched without the output of `p`. -/
def World.DispatchedWithout (runId n p : String) (w : World) : Prop :=
  ∃ config context ok, .dispatched runId n config context ok ∈ w.trace ∧ context.step? p = none

section Only

variable {u : Unicode} {v : WorkflowEdge → Bool} {d : WorkflowDefinition} {env : Env}
  {tenant runId n p : String}

theorem hasStepOf_handle (o : Op) (w : World) (h : w.HasStepOf tenant runId p) :
    (env.handle o w).2.HasStepOf tenant runId p := by
  have hupdate : ∀ t stepId status durationMs outputSnapshot error,
      (w.updateStep t stepId status durationMs outputSnapshot error).HasStepOf tenant runId p := by
    intro t stepId status durationMs outputSnapshot error
    obtain ⟨s, hs, hid⟩ := h
    obtain ⟨hs, hof⟩ := List.mem_filter.1 hs
    refine ⟨_, List.mem_filter.2 ⟨List.mem_map.2 ⟨s, hs, rfl⟩, ?_⟩, ?_⟩
    · split <;> exact hof
    · split <;> exact hid
  have heffect : (env.effect o w).2.HasStepOf tenant runId p := by
    cases o with
    | recordStep t r node status inputSnapshot =>
      obtain ⟨s, hs, hid⟩ := h
      obtain ⟨hs, hof⟩ := List.mem_filter.1 hs
      exact ⟨s, List.mem_filter.2 ⟨List.mem_append_left _ hs, hof⟩, hid⟩
    | updateStep => exact hupdate _ _ _ _ _ _
    | approveStep =>
      simp only [Env.effect]
      split
      · exact h
      · exact hupdate _ _ _ _ _ _
    | getByIdempotencyKey =>
      simp only [Env.effect]
      split <;> exact h
    | createRun =>
      simp only [Env.effect]
      split <;> exact h
    | _ => exact h
  exact env.handle_induction (P := fun w' => w'.HasStepOf tenant runId p) h heffect

theorem dispatchedWithout_handle (o : Op) (w : World) (h : w.DispatchedWithout runId n p) :
    (env.handle o w).2.DispatchedWithout runId n p := by
  obtain ⟨config, context, ok, hmem, hnone⟩ := h
  exact ⟨config, context, ok, (env.trace_extends_handle o w).subset hmem, hnone⟩

/-- The nodes that the traversal visits, in order. -/
def WorkflowSpec.order (s : WorkflowSpec) (v : WorkflowEdge → Bool) (fuel : ℕ) (t : Traversal) :
    List String :=
  ((Fifo.step fun _ => s.next v)^[fuel] ⟨t.queue, t.visited⟩).visited

theorem order_skip {fuel : ℕ} {t : Traversal} {id : String} {queue : List String}
    (hq : t.queue = id :: queue) (hv : id ∈ t.visited) :
    d.order v (fuel + 1) t = d.order v fuel { t with queue } := by
  rw [WorkflowSpec.order, Function.iterate_succ_apply, hq, Fifo.step_skip _ hv]
  rfl

theorem order_visit {fuel : ℕ} {t t' : Traversal} {id : String} {queue : List String}
    (hq : t.queue = id :: queue) (hv : id ∉ t.visited) (hq' : t'.queue = queue)
    (hv' : t'.visited = t.visited ++ [id]) :
    d.order v (fuel + 1) t = d.order v fuel (t'.follow (valued u v) d id) := by
  rw [WorkflowSpec.order, Function.iterate_succ_apply, hq, Fifo.step_visit _ hv]
  simp only [WorkflowSpec.order, Traversal.follow, hq', hv']
  rfl

/-- What is visited comes first in the order. -/
theorem visited_prefix_order (fuel : ℕ) (t : Traversal) : t.visited <+: d.order v fuel t :=
  Fifo.visited_prefix _ fuel ⟨t.queue, t.visited⟩

/-- What is taken from the queue comes next in the order. -/
theorem next_prefix_order {fuel : ℕ} {t : Traversal} {id : String} {queue : List String}
    (hq : t.queue = id :: queue) (hv : id ∉ t.visited) :
    t.visited ++ [id] <+: d.order v (fuel + 1) t := by
  have hord : d.order v (fuel + 1) t = d.order v fuel
      ((t.pop id queue).follow (valued ⟨fun _ => true, fun _ => none⟩ v) d id) :=
    order_visit hq hv rfl rfl
  rw [hord]
  exact visited_prefix_order (d := d) (v := v) fuel
    ((t.pop id queue).follow (valued ⟨fun _ => true, fun _ => none⟩ v) d id)

/-- The traversal goes on, without a call, to the first node that is not completed. -/
theorem traverse_advance (u : Unicode) (tenant : String) (run : RunRecord)
    (completed : List String) (fuel : ℕ) (t : Traversal) (hqueue : ∀ x ∈ t.queue, x ∈ d.nodeIds)
    (hx : ∃ x ∈ d.order v fuel t, x ∉ t.visited ∧ x ∉ completed) :
    ∃ fuel' t' x queue, t'.queue = x :: queue ∧ x ∉ t'.visited ∧ x ∉ completed ∧
      (∀ y ∈ t'.queue, y ∈ d.nodeIds) ∧ t'.context = t.context ∧
      (∀ y ∈ t'.visited, y ∈ t.visited ∨ y ∈ completed) ∧ (∀ y ∈ t.visited, y ∈ t'.visited) ∧
      d.order v (fuel' + 1) t' = d.order v fuel t ∧
      traverse (valued u v) tenant run d completed fuel t =
        traverse (valued u v) tenant run d completed (fuel' + 1) t' := by
  induction fuel generalizing t with
  | zero =>
    obtain ⟨x, hmem, hv, -⟩ := hx
    exact absurd hmem hv
  | succ fuel ih =>
    rcases hq : t.queue with _ | ⟨id, queue⟩
    · obtain ⟨x, hmem, hv, -⟩ := hx
      rw [WorkflowSpec.order, hq, Fifo.iterate_nil] at hmem
      exact absurd hmem hv
    have hid : id ∈ d.nodeIds := hqueue id (by simp [hq])
    have hqueue' : ∀ x ∈ queue, x ∈ d.nodeIds := fun x hx => hqueue x (by simp [hq, hx])
    by_cases hv : id ∈ t.visited
    · have hord : d.order v (fuel + 1) t = d.order v fuel { t with queue } := order_skip hq hv
      obtain ⟨fuel', t', x, queue', h₁, h₂, h₃, h₄, h₅, h₆, h₇, h₈, h₉⟩ :=
        ih { t with queue } hqueue' (hord ▸ hx)
      refine ⟨fuel', t', x, queue', h₁, h₂, h₃, h₄, h₅, h₆, h₇, h₈.trans hord.symm, ?_⟩
      rw [← h₉, traverse]
      simp only [hq, if_pos hv]
    by_cases hc : id ∈ completed
    · -- a completed node is passed without a call
      obtain ⟨node, hnode⟩ := d.exists_node hid
      set next := ((t.pop id queue).reuse id).follow (valued u v) d id with hnext
      have hord : d.order v (fuel + 1) t = d.order v fuel next := order_visit hq hv rfl rfl
      have hvis : next.visited = t.visited ++ [id] := rfl
      have hx' : ∃ x ∈ d.order v fuel next, x ∉ next.visited ∧ x ∉ completed := by
        obtain ⟨x, hmem, hxv, hxc⟩ := hx
        refine ⟨x, hord ▸ hmem, ?_, hxc⟩
        rw [hvis, List.mem_append, List.mem_singleton]
        rintro (hxv' | rfl)
        · exact hxv hxv'
        · exact hxc hc
      obtain ⟨fuel', t', x, queue', h₁, h₂, h₃, h₄, h₅, h₆, h₇, h₈, h₉⟩ :=
        ih next (Traversal.queue_follow hqueue') hx'
      refine ⟨fuel', t', x, queue', h₁, h₂, h₃, h₄, h₅, fun y hy => ?_, fun y hy => ?_,
        h₈.trans hord.symm, ?_⟩
      · rcases h₆ y hy with hy | hy
        · rw [hvis, List.mem_append, List.mem_singleton] at hy
          rcases hy with hy | rfl
          · exact Or.inl hy
          · exact Or.inr hc
        · exact Or.inr hy
      · exact h₇ y (hvis ▸ List.mem_append_left _ hy)
      · rw [← h₉, traverse]
        simp only [hq, if_neg hv, hnode, if_pos hc]
        rfl
    · exact ⟨fuel, t, id, queue, hq, hv, hc, hqueue, rfl, fun y hy => Or.inl hy, fun y hy => hy,
        rfl, rfl⟩

/-- When the traversal takes a node from the queue that is not completed, the run has a step of
it from then on. -/
theorem hasStepOf_traverse {run : RunRecord} (hrun : run.id = runId) {completed : List String}
    {fuel : ℕ} {t : Traversal} {queue : List String} (hq : t.queue = p :: queue)
    (hv : p ∉ t.visited) (hc : p ∉ completed) (hp : p ∈ d.nodeIds) (w : World) :
    ((traverse (valued u v) tenant run d completed (fuel + 1) t).run (smooth u v).handle
      w).2.HasStepOf tenant runId p := by
  obtain ⟨node, hnode⟩ := d.exists_node hp
  have hid : node.id = p := (d.node?_eq_some.1 hnode).2
  have hrecord : ∀ status inputSnapshot,
      ((perform (.recordStep tenant run.id node status inputSnapshot)).run (smooth u v).handle
        w).2.HasStepOf tenant runId p := by
    intro status inputSnapshot
    rw [Prog.run_perform, handle_smooth]
    refine ⟨World.newStep tenant run.id node status inputSnapshot w.steps.fresh, ?_, hid⟩
    refine List.mem_filter.2 ⟨List.mem_append_right _ (List.mem_singleton.2 rfl), ?_⟩
    simp [World.newStep, hrun]
  rw [traverse]
  simp only [hq, if_neg hv, hnode, if_neg hc]
  split
  · refine Prog.run_bind_keeps _ hasStepOf_handle ?_
    exact Prog.run_bind_keeps _ hasStepOf_handle (hrecord _ _)
  · refine Prog.run_bind_keeps _ hasStepOf_handle ?_
    exact Prog.run_bind_keeps _ hasStepOf_handle (hrecord _ _)

/-- A node that is executed is dispatched with what the context has, and the run has a step of it. -/
theorem run_executeNode_without {run : RunRecord} {node : WorkflowNode}
    (hattempts : node.Attempts u) {context : Context} (hcontext : context.step? p = none)
    (w : World) : ∃ output durationMs w',
      (executeNode (valued u v) tenant run.id run.workflowId node context).run
        (smooth u v).handle w = (.ok (.success output durationMs), w') ∧
      w'.DispatchedWithout run.id node.id p ∧ w'.HasStepOf tenant run.id node.id := by
  obtain ⟨output, durationMs, w', hexec⟩ : ∃ output durationMs w',
      (executeNode (valued u v) tenant run.id run.workflowId node context).run
        (smooth u v).handle w = (.ok (.success output durationMs), w') :=
    run_executeNode_smooth hattempts w
  have hexecutes : Executes (smooth u v) tenant run.id node context (w.ledger tenant run.id)
      ((executeNode (valued u v) tenant run.id run.workflowId node context).run
        (smooth u v).handle w).1
      (((executeNode (valued u v) tenant run.id run.workflowId node context).run
        (smooth u v).handle w).2.ledger tenant run.id) := (executeNode_does run.workflowId).run rfl
  rw [hexec] at hexecutes
  obtain ⟨row, bs, -, hof, -, -, -, -, -, hledger⟩ := hexecutes.success_inv
  refine ⟨output, durationMs, w', hexec, ?_, row, ?_, hof.nodeId⟩
  · have hmem : .dispatched run.id node.id (resolveConfig u node context) context true ∈
        w'.eventsOf run.id := by
      rw [show w'.eventsOf run.id = _ from congrArg Ledger.events hledger]
      exact List.mem_append_right _ (by simp [dispatches, smooth, valued])
    exact ⟨_, _, _, List.mem_of_mem_filter hmem, hcontext⟩
  · rw [show w'.stepsOf tenant run.id = _ from congrArg Ledger.steps hledger]
    exact List.mem_append_right _ (List.mem_singleton.2 rfl)

/-- With all nodes completed but `n` and `p`, of which `p` does not precede `n`, the traversal
dispatches `n` without the output of `p`, and then records a step of `p`. -/
theorem traverse_disorder {run : RunRecord} (hrun : run.id = runId) {completed : List String}
    {fuel : ℕ} {t : Traversal} (hqueue : ∀ x ∈ t.queue, x ∈ d.nodeIds)
    (hsorted : (d.order v fuel t).Pairwise (d.Precedes v)) (hnp : ¬ d.Precedes v p n)
    (hn : n ∈ d.order v fuel t) (hp : p ∈ d.order v fuel t) (hvisited : t.visited = [])
    (hc : ∀ x ∈ d.order v fuel t, x ∉ completed ↔ x = n ∨ x = p)
    (hcontext : t.context.step? p = none) {node : WorkflowNode} (hnode : d.node? n = some node)
    (hdispatch : node.Dispatchable u) (w : World) :
    ((traverse (valued u v) tenant run d completed fuel t).run (smooth u v).handle
        w).2.DispatchedWithout runId n p ∧
      ((traverse (valued u v) tenant run d completed fuel t).run (smooth u v).handle
        w).2.HasStepOf tenant runId p := by
  obtain ⟨fuel₁, t₁, x, queue₁, hq₁, hv₁, hc₁, hqueue₁, hctx₁, hvis₁, -, hord₁, heq₁⟩ :=
    traverse_advance u tenant run completed fuel t hqueue
      ⟨n, hn, by simp [hvisited], (hc n hn).2 (Or.inl rfl)⟩
  have hprefix₁ : t₁.visited ++ [x] <+: d.order v fuel t := hord₁ ▸ next_prefix_order hq₁ hv₁
  have hx₁ : x ∈ d.order v fuel t := hprefix₁.subset (by simp)
  have hdone₁ : ∀ y ∈ t₁.visited, y ∈ completed := fun y hy => by
    simpa [hvisited] using hvis₁ y hy
  -- `p` cannot come first: it would precede `n`
  obtain rfl : x = n := by
    by_contra hxn
    obtain rfl := ((hc x hx₁).1 hc₁).resolve_left hxn
    have hnv : n ∉ t₁.visited ++ [x] := by
      rw [List.mem_append, List.mem_singleton]
      rintro (hn' | rfl)
      · exact (hc n hn).2 (Or.inl rfl) (hdone₁ n hn')
      · exact hxn rfl
    obtain ⟨rest, hrest⟩ := hprefix₁
    rw [← hrest] at hsorted hn
    have hrest' : n ∈ rest := (List.mem_append.1 hn).resolve_left hnv
    exact hnp ((List.pairwise_append.1 hsorted).2.2 x (by simp) n hrest')
  have hid : node.id = x := (d.node?_eq_some.1 hnode).2
  obtain ⟨output, durationMs, w₂, hexec, hwithout, hstep⟩ : ∃ output durationMs w₂,
      (executeNode (valued u v) tenant run.id run.workflowId node t₁.context).run
        (smooth u v).handle w = (.ok (.success output durationMs), w₂) ∧
      w₂.DispatchedWithout run.id node.id p ∧ w₂.HasStepOf tenant run.id node.id :=
    run_executeNode_without hdispatch.2 (hctx₁ ▸ hcontext) w
  rw [hrun, hid] at hwithout hstep
  -- behind `n` the traversal goes on, and the next node that is not completed is `p`
  set t₂ := ((t₁.pop x queue₁).succeed x output durationMs).follow (valued u v) d x with ht₂
  have hvis₂ : t₂.visited = t₁.visited ++ [x] := rfl
  have hord₂ : d.order v fuel₁ t₂ = d.order v fuel t :=
    (order_visit hq₁ hv₁ rfl rfl).symm.trans hord₁
  have hrun₂ : (traverse (valued u v) tenant run d completed fuel t).run (smooth u v).handle w =
      (traverse (valued u v) tenant run d completed fuel₁ t₂).run (smooth u v).handle w₂ := by
    rw [heq₁, traverse]
    simp only [hq₁, if_neg hv₁, hnode, if_neg hc₁, if_neg hdispatch.1]
    exact Prog.run_bind_ok _ hexec
  rw [hrun₂]
  refine ⟨Prog.run_induction _ dispatchedWithout_handle _ hwithout, ?_⟩
  by_cases hpx : p = x
  · rw [hpx]
    exact Prog.run_induction _ hasStepOf_handle _ hstep
  have hpv₂ : p ∉ t₂.visited := by
    rw [hvis₂, List.mem_append, List.mem_singleton]
    rintro (hp' | hp')
    · exact (hc p hp).2 (Or.inr rfl) (hdone₁ p hp')
    · exact hpx hp'
  have hqueue₂ : ∀ y ∈ t₂.queue, y ∈ d.nodeIds :=
    Traversal.queue_follow fun y hy => hqueue₁ y (by rw [hq₁]; exact List.mem_cons_of_mem _ hy)
  obtain ⟨fuel₃, t₃, y, queue₃, hq₃, hv₃, hc₃, hqueue₃, -, -, hvis₃, hord₃, heq₃⟩ :=
    traverse_advance u tenant run completed fuel₁ t₂ hqueue₂
      ⟨p, hord₂ ▸ hp, hpv₂, (hc p hp).2 (Or.inr rfl)⟩
  have hy : y ∈ d.order v fuel t := by
    rw [← hord₂, ← hord₃]
    exact (next_prefix_order hq₃ hv₃).subset (by simp)
  obtain rfl : y = p := by
    rcases (hc y hy).1 hc₃ with rfl | h
    · exact absurd (hvis₃ y (by simp [hvis₂])) hv₃
    · exact h
  rw [heq₃]
  exact hasStepOf_traverse hrun hq₃ hv₃ hc₃ (hqueue₃ y (by simp [hq₃])) w₂

/-- A stored run with a step in status `SUCCESS` for each of the nodes. -/
def storedRun (run : RunRecord) (nodes : List WorkflowNode) : World :=
  nodes.foldl (fun w node => w.recordStep run.tenantId run.id node .success [])
    { World.empty with runs := ⟨[run], List.nodup_singleton _⟩ }

theorem ledger_storedRun (run : RunRecord) (nodes : List WorkflowNode) :
    ((storedRun run nodes).ledger run.tenantId run.id).run = some run ∧
      ((storedRun run nodes).ledger run.tenantId run.id).events = [] ∧
      completedIds ((storedRun run nodes).ledger run.tenantId run.id).steps =
        nodes.map (·.id) ∧
      ((storedRun run nodes).ledger run.tenantId run.id).steps.map (·.nodeId) =
        nodes.map (·.id) := by
  induction nodes using List.reverseRecOn with
  | nil =>
    refine ⟨?_, rfl, rfl, rfl⟩
    exact World.run?_eq_some.2 ⟨List.mem_singleton.2 rfl, rfl, rfl⟩
  | append_singleton nodes node ih =>
    obtain ⟨hrun, hevents, hdone, hids⟩ := ih
    have hledger : (storedRun run (nodes ++ [node])).ledger run.tenantId run.id =
        ((storedRun run nodes).ledger run.tenantId run.id).add (World.newStep run.tenantId run.id
          node .success [] (storedRun run nodes).steps.fresh) := by
      rw [storedRun, List.foldl_append]
      exact World.ledger_recordStep node .success []
    rw [hledger]
    refine ⟨hrun, hevents, ?_, ?_⟩
    · rw [Ledger.add_steps, List.map_append, ← hdone]
      simp [completedIds, List.filter_append, World.newStep]
    · rw [Ledger.add_steps, List.map_append, List.map_append, hids]
      rfl

/-- `execute` on a stored run: the traversal decides what is dispatched and recorded. -/
theorem run_execute_stored {I : World → Prop} {a : ExecuteArgs} {traceId : String}
    (htrace : orElse a.traceId none = some traceId) {run : RunRecord} {w : World}
    (hrun : w.run? tenant a.runId = some run)
    (hkeeps : ∀ o w, I w → I ((smooth u v).handle o w).2)
    (hI : ∀ w', I ((traverse (valued u v) tenant { run with status := .running } a.definition
      (completedIds (w.stepsOf tenant a.runId)) (traverseFuel a.definition)
      (a.start tenant traceId (w.stepsOf tenant a.runId))).run (smooth u v).handle w').2) :
    I ((execute (valued u v) tenant a).run (smooth u v).handle w).2 := by
  obtain ⟨w₁, hget⟩ : ∃ w₁, (perform (.getRun tenant a.runId)).run (smooth u v).handle w =
      (.ok (some (run, w.stepsOf tenant a.runId)), w₁) := by
    rw [Prog.run_perform, handle_smooth]
    refine ⟨_, Prod.ext ?_ rfl⟩
    simp only [Env.effect, hrun, Option.map_some]
  obtain ⟨w₂, hset⟩ : ∃ w₂, (perform (.setRunning run.id a.definition.toWorkflowSpec)).run
      (smooth u v).handle w₁ = (.ok (), w₂) := by
    rw [Prog.run_perform, handle_smooth]
    exact ⟨_, rfl⟩
  unfold execute
  simp only [htrace]
  unfold executeTraced
  rw [Prog.run_bind_ok _ hget]
  simp only
  rw [Prog.run_bind_ok _ hset]
  exact Prog.run_bind_keeps _ hkeeps (hI w₂)

theorem mem_nodeIds_of_reachable {x : String} (h : d.Reachable v x) : x ∈ d.nodeIds := by
  obtain ⟨path, hpath⟩ := h
  cases hpath with
  | start hx => exact (d.mem_startNodes.1 (List.mem_of_getElem? hx)).1
  | @follow path y i x _ hx =>
    obtain ⟨e, he, rfl⟩ := List.mem_map.1 (List.mem_of_getElem? hx)
    exact d.target_mem (List.mem_of_mem_filter (List.mem_of_mem_filter he))

/-- Joins that do not come last break the order. -/
theorem joinsLast_of_dependencyOrder (h : DependencyOrder u d v) : d.JoinsLast u v := by
  intro e he hve hsource node hnode hdispatch
  by_contra hnp
  -- a run in which everything is completed but the two ends of the edge
  set order := ((Fifo.step fun _ => d.next v)^[traverseFuel d] ⟨d.startNodes, []⟩).visited
    with horder
  have hreach : ∀ {x}, x ∈ order ↔ d.Reachable v x := Fifo.mem_visited_iff (queue_track d v)
  have hsource' : e.source ∈ order := hreach.2 hsource
  have htarget : e.target ∈ order := by
    obtain ⟨path, hpath⟩ := hsource
    have hnext : e.target ∈ d.next v e.source :=
      List.mem_map.2 ⟨e, by simp [WorkflowSpec.outgoing, he, hve], rfl⟩
    obtain ⟨i, hi⟩ := List.mem_iff_getElem?.1 hnext
    exact hreach.2 ⟨_, .follow hpath hi⟩
  set nodes := d.nodes.filter fun node =>
    node.id ∈ order ∧ node.id ≠ e.target ∧ node.id ≠ e.source with hnodes
  have hmem : ∀ {x}, x ∈ nodes.map (·.id) ↔
      x ∈ d.nodeIds ∧ x ∈ order ∧ x ≠ e.target ∧ x ≠ e.source := by
    intro x
    simp only [hnodes, List.mem_map, List.mem_filter, decide_eq_true_eq, WorkflowSpec.nodeIds]
    constructor
    · rintro ⟨node, ⟨hnode, hrest⟩, rfl⟩
      exact ⟨⟨node, hnode, rfl⟩, hrest⟩
    · rintro ⟨⟨node, hnode, rfl⟩, hrest⟩
      exact ⟨node, ⟨hnode, hrest⟩, rfl⟩
  set a : ExecuteArgs :=
    { definition := d
      runId := ""
      inputPayload := .null
      traceId := some "trace" } with ha
  set run := a.newRun "" "trace" with hrun
  obtain ⟨hstored, hevents, hdone, hids⟩ := ledger_storedRun run nodes
  set w := storedRun run nodes with hw
  have hcompleted : completedIds (w.stepsOf "" "") = nodes.map (·.id) := hdone
  have hbroken : ((execute (valued u v) "" a).run (smooth u v).handle w).2.DispatchedWithout ""
        e.target e.source ∧
      ((execute (valued u v) "" a).run (smooth u v).handle w).2.HasStepOf "" "" e.source := by
    refine run_execute_stored (I := fun w' => w'.DispatchedWithout "" e.target e.source ∧
      w'.HasStepOf "" "" e.source) rfl hstored (fun o w' hI => ?_) fun w' => ?_
    · exact ⟨dispatchedWithout_handle o w' hI.1, hasStepOf_handle o w' hI.2⟩
    · refine traverse_disorder rfl (start_queue a _ _) (Fifo.pairwise_precedes (queue_track d v))
        hnp htarget hsource' rfl (fun x hx => ?_) ?_ hnode hdispatch w'
      · have hx' : x ∈ d.nodeIds := mem_nodeIds_of_reachable (hreach.1 hx)
        rw [hcompleted, hmem]
        by_cases htx : x = e.target
        · simp [htx]
        · simp [htx, hx', show x ∈ order from hx]
      · rw [← Option.not_isSome_iff_eq_none]
        intro hsome
        have hnone := (isSome_preload _ _ _).1 hsome
        rw [hcompleted, hmem] at hnone
        simp [Context.step?] at hnone
  obtain ⟨⟨config, context, ok, hdispatched, hnone⟩, hstep⟩ := hbroken
  have hsound : ∀ s ∈ w.stepsOf "" "", d.Reachable v s.nodeId := by
    intro s hs
    have hs' : s.nodeId ∈ nodes.map (·.id) := by
      rw [← hids]
      exact List.mem_map_of_mem hs
    exact hreach.1 (hmem.1 hs').2.1
  have hnew : (((execute (valued u v) "" a).run (smooth u v).handle w).2).eventsOf "" =
      w.eventsOf "" ++ (((execute (valued u v) "" a).run (smooth u v).handle w).2).eventsOf "" := by
    rw [show w.eventsOf "" = [] from hevents]
    rfl
  have hevent : .dispatched "" e.target config context ok ∈
      (((execute (valued u v) "" a).run (smooth u v).handle w).2).eventsOf "" :=
    List.mem_filter.2 ⟨hdispatched, by simp [Event.runId]⟩
  have hsome := (h (smooth u v) "" a w _ _ _ rfl rfl hsound rfl .refl hnew _ _ _ _ hevent e he rfl
    hve hstep).2
  rw [hnone] at hsome
  cases hsome

end Only

/-- **When nodes are dispatched in dependency order**: exactly when the joins come last. -/
theorem dependencyOrder_iff (u : Unicode) (d : WorkflowDefinition) (v : WorkflowEdge → Bool) :
    DependencyOrder u d v ↔ d.JoinsLast u v :=
  ⟨joinsLast_of_dependencyOrder, dependencyOrder_of_joinsLast⟩

/-- A join with branches of different lengths. -/
def joinWorkflow : WorkflowDefinition where
  id := some "wf_join"
  name := "join"
  trigger := ⟨"webhook", [], .null⟩
  nodes := ["A", "B", "C", "D"].map fun id => { id, type := "action.http", name := id }
  edges := [{ source := "A", target := "B" }, { source := "A", target := "D" },
    { source := "B", target := "C" }, { source := "C", target := "D" }]
  accepted := by decide

/-- The join is executed on a new run. -/
def joinArgs : ExecuteArgs where
  definition := joinWorkflow
  runId := "RUN-1"
  inputPayload := .null
  traceId := some "trace"

/-- The world after the execution, in which no call raises and every dispatch succeeds. -/
def joinExecuted : World :=
  ((execute (valued ⟨fun _ => true, fun _ => none⟩ fun _ => true) "acme" joinArgs).run
    (smooth ⟨fun _ => true, fun _ => none⟩ fun _ => true).handle World.empty).2

/-- The context in which `D` is dispatched: it has no step of `C`. -/
def joinContext : Context :=
  ⟨.null, [("A", ⟨.obj [], ⟨.finite 2, "2.0"⟩⟩), ("B", ⟨.obj [], ⟨.finite 2, "2.0"⟩⟩)], "acme",
    "trace"⟩

/-- `D` is dispatched before `C`. -/
theorem not_dependencyOrder_join :
    ¬ DependencyOrder ⟨fun _ => true, fun _ => none⟩ joinWorkflow fun _ => true := by
  intro h
  have hmem : .dispatched "RUN-1" "D" [] joinContext true ∈ joinExecuted.eventsOf "RUN-1" :=
    List.mem_of_getElem? (i := 3) rfl
  have hstep : ∃ s ∈ joinExecuted.stepsOf "acme" "RUN-1", s.nodeId = "C" :=
    ⟨_, List.mem_of_getElem? (i := 3) rfl, rfl⟩
  have hsome := (h (smooth _ _) "acme" joinArgs World.empty joinExecuted joinExecuted
    (joinExecuted.eventsOf "RUN-1") rfl rfl (fun s hs => absurd hs List.not_mem_nil) rfl .refl rfl
    "D" [] joinContext true hmem ⟨"C", "D", none⟩ (by decide) rfl rfl hstep).2
  cases hsome

end FlowMesh
