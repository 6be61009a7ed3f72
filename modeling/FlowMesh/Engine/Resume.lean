import FlowMesh.Engine.Session

/-!
# Resuming a run

`execute` restarts an interrupted run at the roots: it preloads the context with all completed
steps, passes the completed nodes without dispatching them, and evaluates their edge conditions
again, now against the larger context.

A `Course` holds what a run depends on when every node's dispatch is a function of the node, its
resolved configuration and the context: the definition, the input, these functions and the
outputs of the decided approvals. `Course.final` is the traversal that nothing interrupts, every
dispatch succeeding and every approval standing in place of its gate.

A run that is interrupted any number of times ends like `Course.final`, as long as each call finds
the conditions of the completed nodes as they were when the nodes completed (`Course.Steady`,
`resumed_eq_final`). Each call simulates the uninterrupted traversal: it catches up with it along
the completed nodes and then goes on with it (`Follows`).
-/

namespace FlowMesh

open Python Database Async

/-! ## The uninterrupted traversal -/

/-- What a run depends on. -/
structure Course extends Evaluator where
  definition : WorkflowDefinition
  dispatch : WorkflowNode → List (String × Json) → Context → DispatchResult
  decision : String → Json
  input : Json
  tenant : String
  traceId : String
  traced : traceId ≠ ""
  dispatch_isObj : ∀ node config context, (dispatch node config context).output.isObj = true
  decision_isObj : ∀ id, (decision id).isObj = true

namespace Course

variable (c : Course)

/-- The context with some results. -/
def context (results : List (String × StepData)) : Context :=
  ⟨c.input, results, c.tenant, c.traceId⟩

/-- What a node gives: the decision on a gate, the dispatch of any other node. -/
def yield (node : WorkflowNode) (context : Context) : DispatchResult :=
  if node.type = "action.approval" then ⟨c.decision node.id, ⟨.finite 1, "1.0"⟩⟩
  else c.dispatch node (resolveConfig c.unicode node context) context

/-- What a node contributes to the context. -/
def data (node : WorkflowNode) (context : Context) : StepData :=
  ⟨(c.yield node context).output, (c.yield node context).durationMs⟩

/-- The state in which the traversal starts. -/
def start : Traversal := ⟨c.definition.startNodes, [], c.context [], .null⟩

/-- One iteration of the traversal loop, without interruption. -/
def step (t : Traversal) : Traversal :=
  match t.queue with
  | [] => t
  | id :: queue =>
    if id ∈ t.visited then { t with queue }
    else
      match c.definition.node? id with
      | none => t.pop id queue
      | some node => ((t.pop id queue).succeed id (c.yield node t.context).output
          (c.yield node t.context).durationMs).follow c.toEvaluator c.definition id

/-- The states that the uninterrupted traversal goes through. -/
def Reached (t : Traversal) : Prop := ∃ k, c.step^[k] c.start = t

/-- The end of the uninterrupted traversal. -/
def final : Traversal := c.step^[traverseFuel c.definition] c.start

variable {c} {t t' : Traversal} {id : String} {queue : List String}

theorem yield_isObj (node : WorkflowNode) (context : Context) :
    (c.yield node context).output.isObj = true := by
  unfold yield
  split
  · exact c.decision_isObj _
  · exact c.dispatch_isObj _ _ _

theorem step_nil (hq : t.queue = []) : c.step t = t := by
  simp [step, hq]

theorem step_skip (hq : t.queue = id :: queue) (hv : id ∈ t.visited) :
    c.step t = { t with queue } := by
  simp [step, hq, hv]

theorem step_visit {node : WorkflowNode} (hq : t.queue = id :: queue) (hv : id ∉ t.visited)
    (hn : c.definition.node? id = some node) :
    c.step t = ((t.pop id queue).succeed id (c.yield node t.context).output
      (c.yield node t.context).durationMs).follow c.toEvaluator c.definition id := by
  simp [step, hq, hv, hn]

/-- An object is not replaced by a default. -/
theorem or_of_isObj {v : Json} (h : v.isObj = true) : v.or (.obj []) = v := by
  cases v with
  | obj items => cases items <;> rfl
  | _ => cases h

/-! ### What its states have in common -/

/-- The visited nodes are those of the context, in order and without repetition. -/
structure Tidy (c : Course) (t : Traversal) : Prop where
  context : t.context = c.context t.context.steps
  visited : t.visited = t.context.steps.map (·.1)
  nodup : t.visited.Nodup
  isObj : ∀ p ∈ t.context.steps, p.2.output.isObj = true
  queue : ∀ x ∈ t.queue, x ∈ c.definition.nodeIds

theorem step?_context {results : List (String × StepData)} {id : String}
    (h : id ∉ results.map (·.1)) : (c.context results).step? id = none := by
  unfold Context.step? context
  rw [Option.map_eq_none_iff, List.find?_eq_none]
  intro p hp hid
  exact h (List.mem_map.2 ⟨p, hp, by simpa using hid⟩)

theorem step?_found {results : List (String × StepData)} {id : String}
    (h : id ∉ results.map (·.1)) (data : StepData) (rest : List (String × StepData)) :
    (c.context (results ++ (id, data) :: rest)).step? id = some data := by
  have hnone : results.find? (·.1 = id) = none := by
    rw [List.find?_eq_none]
    intro p hp hid
    exact h (List.mem_map.2 ⟨p, hp, by simpa using hid⟩)
  simp [Context.step?, context, List.find?_append, hnone]

theorem put_context {results : List (String × StepData)} {id : String}
    (h : id ∉ results.map (·.1)) (data : StepData) :
    (c.context results).put id data = c.context (results ++ [(id, data)]) :=
  Context.put_of_none (step?_context h) data

theorem tidy_start : c.Tidy c.start where
  context := rfl
  visited := rfl
  nodup := List.nodup_nil
  isObj := fun _ hp => absurd hp List.not_mem_nil
  queue := fun _ hx => (c.definition.mem_startNodes.1 hx).1

/-- The state behind a node that succeeded, in terms of the results. -/
theorem Tidy.context_succeed (h : c.Tidy t) (hv : id ∉ t.visited) {output : Json}
    (hobj : output.isObj = true) (durationMs : PyFloat) :
    t.context.put id ⟨output.or (.obj []), durationMs⟩ =
      c.context (t.context.steps ++ [(id, ⟨output, durationMs⟩)]) := by
  rw [or_of_isObj hobj, h.context]
  exact put_context (by rw [← h.visited]; exact hv) _

theorem Tidy.visit (h : c.Tidy t) (hq : t.queue = id :: queue) (hv : id ∉ t.visited)
    {output : Json} (hobj : output.isObj = true) (durationMs : PyFloat) :
    c.Tidy (((t.pop id queue).succeed id output durationMs).follow c.toEvaluator c.definition
      id) := by
  have hctx := h.context_succeed hv hobj durationMs
  refine ⟨?_, ?_, ?_, fun p hp => ?_, Traversal.queue_follow fun x hx => h.queue x ?_⟩
  · simp only [Traversal.follow, Traversal.succeed, Traversal.pop, hctx]
    rfl
  · simp only [Traversal.follow, Traversal.succeed, Traversal.pop, hctx, h.visited]
    simp [Course.context]
  · exact List.Nodup.append h.nodup (List.nodup_singleton _) (List.disjoint_singleton.2 hv)
  · simp only [Traversal.follow, Traversal.succeed, Traversal.pop, hctx] at hp
    rcases List.mem_append.1 hp with hp | hp
    · exact h.isObj p hp
    · rw [List.mem_singleton.1 hp]
      exact hobj
  · rw [hq]
    exact List.mem_cons_of_mem _ hx

theorem Tidy.step (h : c.Tidy t) : c.Tidy (c.step t) := by
  rcases hq : t.queue with _ | ⟨id, queue⟩
  · rwa [step_nil hq]
  have hid : id ∈ c.definition.nodeIds := h.queue id (by simp [hq])
  by_cases hv : id ∈ t.visited
  · rw [step_skip hq hv]
    exact ⟨h.context, h.visited, h.nodup, h.isObj, fun x hx => h.queue x (by simp [hq, hx])⟩
  · obtain ⟨node, hnode⟩ := c.definition.exists_node hid
    rw [step_visit hq hv hnode]
    exact h.visit hq hv (yield_isObj _ _) _

theorem Reached.step (h : c.Reached t) : c.Reached (c.step t) := by
  obtain ⟨k, rfl⟩ := h
  exact ⟨k + 1, Function.iterate_succ_apply' _ _ _⟩

theorem tidy_iterate (k : ℕ) (h : c.Tidy t) : c.Tidy (c.step^[k] t) := by
  induction k with
  | zero => exact h
  | succ k ih =>
    rw [Function.iterate_succ_apply']
    exact ih.step

theorem Reached.tidy (h : c.Reached t) : c.Tidy t := by
  obtain ⟨k, rfl⟩ := h
  exact tidy_iterate k tidy_start

/-- A step only adds results. -/
theorem Tidy.prefix_step (h : c.Tidy t) : t.context.steps <+: (c.step t).context.steps := by
  rcases hq : t.queue with _ | ⟨id, queue⟩
  · simp [step_nil hq]
  have hid : id ∈ c.definition.nodeIds := h.queue id (by simp [hq])
  by_cases hv : id ∈ t.visited
  · simp [step_skip hq hv]
  · obtain ⟨node, hnode⟩ := c.definition.exists_node hid
    rw [step_visit hq hv hnode]
    simp only [Traversal.follow, Traversal.succeed, Traversal.pop]
    rw [h.context_succeed hv (yield_isObj _ _)]
    exact List.prefix_append _ _

theorem Tidy.prefix_iterate (h : c.Tidy t) (k : ℕ) :
    t.context.steps <+: (c.step^[k] t).context.steps := by
  induction k with
  | zero => exact List.prefix_rfl
  | succ k ih =>
    rw [Function.iterate_succ_apply']
    exact ih.trans (tidy_iterate k h).prefix_step

/-- A state with more results lies behind the next step. -/
theorem Reached.prefix_next {T T' : Traversal} (hT : c.Reached T) (hT' : c.Reached T')
    {rest : List (String × StepData)} (hrest : T'.context.steps = T.context.steps ++ rest)
    (hne : rest ≠ []) : (c.step T).context.steps <+: T'.context.steps := by
  obtain ⟨k, rfl⟩ := hT
  obtain ⟨k', rfl⟩ := hT'
  rcases Nat.lt_or_ge k k' with hlt | hge
  · obtain ⟨m, rfl⟩ := Nat.exists_eq_add_of_lt hlt
    rw [show k + m + 1 = m + (k + 1) by omega, Function.iterate_add_apply c.step m (k + 1),
      Function.iterate_succ_apply']
    exact (tidy_iterate k tidy_start).step.prefix_iterate m
  · obtain ⟨m, rfl⟩ := Nat.exists_eq_add_of_le hge
    have hprefix := (tidy_iterate k' tidy_start (c := c)).prefix_iterate m
    rw [← Function.iterate_add_apply, Nat.add_comm] at hprefix
    have hlen := hprefix.length_le
    rw [hrest, List.length_append] at hlen
    exact absurd (List.length_eq_zero_iff.1 (by omega)) hne

theorem queue_iterate (k : ℕ) (h : c.Tidy t) (hk : t.budget c.definition ≤ k) :
    (c.step^[k] t).queue = [] := by
  induction k generalizing t with
  | zero => exact Traversal.queue_of_budget hk
  | succ k ih =>
    rcases hq : t.queue with _ | ⟨id, queue⟩
    · rw [Function.iterate_fixed (step_nil hq)]
      exact hq
    have hid : id ∈ c.definition.nodeIds := h.queue id (by simp [hq])
    rw [Function.iterate_succ_apply]
    refine ih h.step ?_
    by_cases hv : id ∈ t.visited
    · rw [step_skip hq hv]
      simp only [Traversal.budget, hq, List.length_cons] at hk ⊢
      omega
    · obtain ⟨node, hnode⟩ := c.definition.exists_node hid
      rw [step_visit hq hv hnode]
      have hbudget : (((t.pop id queue).succeed id (c.yield node t.context).output
          (c.yield node t.context).durationMs).follow c.toEvaluator c.definition id).budget
            c.definition + 1 ≤ t.budget c.definition :=
        Traversal.budget_follow hq hv hid rfl rfl c.toEvaluator
      omega

theorem queue_final : c.final.queue = [] := queue_iterate _ tidy_start (budget_start_le _ _)

/-- The traversal ends in one state. -/
theorem Reached.eq_final (h : c.Reached t) (hq : t.queue = []) : t = c.final := by
  obtain ⟨k, rfl⟩ := h
  rcases Nat.le_total k (traverseFuel c.definition) with hle | hle
  · obtain ⟨m, hm⟩ := Nat.exists_eq_add_of_le hle
    rw [final, hm, Nat.add_comm, Function.iterate_add_apply, Function.iterate_fixed (step_nil hq)]
  · obtain ⟨m, hm⟩ := Nat.exists_eq_add_of_le hle
    rw [hm, Nat.add_comm, Function.iterate_add_apply]
    exact Function.iterate_fixed (step_nil queue_final) m

/-- The end has all results. -/
theorem Reached.prefix_final (h : c.Reached t) : t.context.steps <+: c.final.context.steps := by
  obtain ⟨k, rfl⟩ := h
  have hstart : c.Tidy c.start := tidy_start
  have hend : c.step^[k + traverseFuel c.definition] c.start = c.final := by
    rw [Function.iterate_add_apply]
    exact Function.iterate_fixed (step_nil queue_final) k
  rw [← hend, Nat.add_comm, Function.iterate_add_apply]
  exact (tidy_iterate k hstart).prefix_iterate _

end Course

/-! ## Results -/

/-- What a step in status `SUCCESS` contributes. -/
def RunStepRecord.result (s : RunStepRecord) : String × StepData :=
  (s.nodeId, ⟨s.outputSnapshot, s.durationMs⟩)

/-- The results of the steps in status `SUCCESS`, in order. -/
def results (steps : List RunStepRecord) : List (String × StepData) :=
  (steps.filter (·.status = .success)).map (·.result)

/-- The edge conditions of the completed nodes are what they were when the nodes completed: with
all completed steps in the context, each condition has the value that it had with those up to the
source of its edge. -/
def Course.Steady (c : Course) (steps : List RunStepRecord) : Prop :=
  ∀ pre s post, steps.filter (·.status = .success) = pre ++ s :: post →
    ∀ e ∈ c.definition.outgoing s.nodeId,
      c.fires e (Context.preload (c.context []) steps) =
        c.fires e (Context.preload (c.context []) (pre ++ [s]))

theorem results_append (steps steps' : List RunStepRecord) :
    results (steps ++ steps') = results steps ++ results steps' := by
  simp [results, List.filter_append]

theorem completedIds_eq (steps : List RunStepRecord) :
    completedIds steps = (results steps).map (·.1) := by
  simp only [completedIds, results, List.map_map]
  rfl

/-- The preloaded context has the results, as they stand. -/
theorem Course.preload_eq (c : Course) (steps : List RunStepRecord)
    (hnodup : ((results steps).map (·.1)).Nodup)
    (hobj : ∀ p ∈ results steps, p.2.output.isObj = true) :
    Context.preload (c.context []) steps = c.context (results steps) := by
  unfold Context.preload results
  have hmain : ∀ (rows : List RunStepRecord) (rs : List (String × StepData)),
      ((rs ++ rows.map (·.result)).map (·.1)).Nodup →
      (∀ p ∈ rows.map (·.result), p.2.output.isObj = true) →
      rows.foldl (fun ctx s => ctx.put s.nodeId ⟨s.outputSnapshot.or (.obj []), s.durationMs⟩)
        (c.context rs) = c.context (rs ++ rows.map (·.result)) := by
    intro rows
    induction rows with
    | nil => simp
    | cons s rows ih =>
      intro rs hnodup hobj
      have hs : s.nodeId ∉ rs.map (·.1) := by
        intro hmem
        rw [List.map_append, List.nodup_append] at hnodup
        exact hnodup.2.2 _ hmem _ (by simp [RunStepRecord.result]) rfl
      have hout : s.outputSnapshot.isObj = true := hobj s.result (by simp)
      rw [List.foldl_cons, Course.put_context hs, Course.or_of_isObj hout, ih]
      · simp [RunStepRecord.result]
      · simpa [RunStepRecord.result] using hnodup
      · exact fun p hp => hobj p (by simp [hp])
  exact hmain _ [] hnodup hobj

/-! ## Catching up -/

/-- The environment answers as the course says, and no call behind a successful dispatch
raises. -/
structure Course.Answers (c : Course) (env : Env) : Prop where
  evaluator : env.toEvaluator = c.toEvaluator
  dispatch : ∀ w node config context res, env.dispatch w node config context = .ok res →
    res = c.dispatch node config context
  settles : env.Settles

/-- `Course.Steady`, for the results. -/
def Course.SteadyResults (c : Course) (rs : List (String × StepData)) : Prop :=
  ∀ pre p post, rs = pre ++ p :: post → ∀ e ∈ c.definition.outgoing p.1,
    c.fires e (c.context rs) = c.fires e (c.context (pre ++ [p]))

/-- The call is in the state `t` where the uninterrupted traversal is in `T`: same queue, same
visited nodes. Its context has all results that are stored, of which `T` has a first part; the
nodes of the rest are completed and will be passed. -/
structure Follows (c : Course) (completed : List String) (t T : Traversal) (L : Ledger) : Prop where
  reached : c.Reached T
  queue : t.queue = T.queue
  visited : t.visited = T.visited
  lastOutput : t.lastOutput = T.lastOutput
  context : t.context = c.context (results L.steps)
  known : ∃ T', c.Reached T' ∧ results L.steps = T'.context.steps
  stored : ∀ x ∈ completed, x ∈ (results L.steps).map (·.1)
  behind : ∃ rest, results L.steps = T.context.steps ++ rest ∧ (∀ p ∈ rest, p.1 ∈ completed) ∧
    (rest ≠ [] → c.SteadyResults (results L.steps))

namespace Follows

variable {c : Course} {completed : List String} {t T : Traversal} {L L' : Ledger} {id : String}
  {queue : List String} {node : WorkflowNode}

theorem skip (h : Follows c completed t T L) (hq : t.queue = id :: queue) (hv : id ∈ t.visited) :
    Follows c completed { t with queue } (c.step T) L := by
  have hq' : T.queue = id :: queue := h.queue ▸ hq
  have hstep : c.step T = { T with queue } := Course.step_skip hq' (h.visited ▸ hv)
  refine ⟨h.reached.step, ?_, ?_, ?_, h.context, h.known, h.stored, ?_⟩
  · rw [hstep]
  · rw [hstep]
    exact h.visited
  · rw [hstep]
    exact h.lastOutput
  · rw [hstep]
    exact h.behind

/-- The uninterrupted traversal takes the same node from its queue. -/
theorem step_eq (h : Follows c completed t T L) (hq : t.queue = id :: queue) (hv : id ∉ t.visited)
    (hn : c.definition.node? id = some node) :
    c.step T = ((T.pop id queue).succeed id (c.yield node T.context).output
      (c.yield node T.context).durationMs).follow c.toEvaluator c.definition id :=
  Course.step_visit (h.queue ▸ hq) (h.visited ▸ hv) hn

theorem steps_step (h : Follows c completed t T L) (hq : t.queue = id :: queue)
    (hv : id ∉ t.visited) (hn : c.definition.node? id = some node) :
    (c.step T).context = c.context (T.context.steps ++ [(id, c.data node T.context)]) := by
  rw [h.step_eq hq hv hn]
  exact h.reached.tidy.context_succeed (h.visited ▸ hv) (Course.yield_isObj _ _) _

/-- What is stored beyond `T` starts with the node that `T` takes next. -/
theorem rest_head (h : Follows c completed t T L) (hq : t.queue = id :: queue)
    (hv : id ∉ t.visited) (hn : c.definition.node? id = some node)
    {rest : List (String × StepData)} (hrest : results L.steps = T.context.steps ++ rest)
    (hne : rest ≠ []) : ∃ rest', rest = (id, c.data node T.context) :: rest' := by
  obtain ⟨T', hT', hres⟩ := h.known
  obtain ⟨tail, htail⟩ := h.reached.prefix_next hT' (hres.symm.trans hrest) hne
  rw [h.steps_step hq hv hn, ← hres, hrest] at htail
  refine ⟨tail, ?_⟩
  have happ : T.context.steps ++ ((id, c.data node T.context) :: tail) =
      T.context.steps ++ rest := by
    rw [← htail]
    simp [Course.context]
  exact (List.append_cancel_left happ).symm

/-- A node that is not completed is taken only when the call has caught up. -/
theorem caught_up (h : Follows c completed t T L) (hq : t.queue = id :: queue)
    (hv : id ∉ t.visited) (hn : c.definition.node? id = some node) (hc : id ∉ completed) :
    results L.steps = T.context.steps := by
  obtain ⟨rest, hrest, hcompleted, -⟩ := h.behind
  by_cases hne : rest = []
  · rw [hrest, hne, List.append_nil]
  · obtain ⟨rest', rfl⟩ := h.rest_head hq hv hn hrest hne
    exact absurd (hcompleted _ List.mem_cons_self) hc

/-- With the queue empty, the call has caught up. -/
theorem finished (h : Follows c completed t T L) (hq : t.queue = []) :
    T = c.final ∧ results L.steps = c.final.context.steps := by
  have hT : T = c.final := h.reached.eq_final (h.queue ▸ hq)
  obtain ⟨rest, hrest, -⟩ := h.behind
  obtain ⟨T', hT', hres⟩ := h.known
  have hlen := hT'.prefix_final.length_le
  rw [← hres, hrest, hT, List.length_append] at hlen
  have hnil : rest = [] := List.length_eq_zero_iff.1 (by omega)
  rw [hrest, hT, hnil, List.append_nil]
  exact ⟨rfl, rfl⟩

/-- The call passes a completed node: its edges are followed as before. -/
theorem reuse (h : Follows c completed t T L) (hq : t.queue = id :: queue) (hv : id ∉ t.visited)
    (hn : c.definition.node? id = some node) (hc : id ∈ completed) :
    Follows c completed (((t.pop id queue).reuse id).follow c.toEvaluator c.definition id)
      (c.step T) L := by
  obtain ⟨rest, hrest, hcompleted, hsteady⟩ := h.behind
  have hvT : id ∉ T.context.steps.map (·.1) := by
    rw [← h.reached.tidy.visited, ← h.visited]
    exact hv
  have hne : rest ≠ [] := by
    rintro rfl
    rw [List.append_nil] at hrest
    exact hvT (hrest ▸ h.stored id hc)
  obtain ⟨rest', rfl⟩ := h.rest_head hq hv hn hrest hne
  have hctx := h.steps_step hq hv hn
  have hfires : ∀ e ∈ c.definition.outgoing id,
      c.fires e t.context = c.fires e (c.step T).context := by
    intro e he
    rw [h.context, hctx]
    exact hsteady hne _ _ _ hrest e he
  have htargets : c.definition.targets c.toEvaluator id t.context =
      c.definition.targets c.toEvaluator id (c.step T).context :=
    congrArg (List.map _) (List.filter_congr hfires)
  have hqT : T.queue = id :: queue := h.queue ▸ hq
  have hstep := h.step_eq hq hv hn
  refine ⟨h.reached.step, ?_, ?_, ?_, h.context, h.known, h.stored, rest', ?_, ?_, ?_⟩
  · rw [hstep] at htargets
    rw [hstep]
    simp only [Traversal.follow, Traversal.reuse, Traversal.succeed, Traversal.pop, ← h.visited]
      at htargets ⊢
    rw [htargets]
    rfl
  · rw [hstep]
    simp only [Traversal.follow, Traversal.reuse, Traversal.succeed, Traversal.pop, h.visited]
  · have hlast : (c.step T).lastOutput = (c.data node T.context).output := by
      rw [hstep]
      rfl
    have hfound : t.context.step? id = some (c.data node T.context) := by
      rw [h.context, hrest]
      exact Course.step?_found hvT _ _
    rw [hlast]
    simp only [Traversal.follow, Traversal.reuse, Traversal.pop, hfound]
    rfl
  · rw [hctx, hrest]
    simp [Course.context]
  · exact fun p hp => hcompleted p (List.mem_cons_of_mem _ hp)
  · exact fun _ => hsteady hne

/-- The call executes a node with success: both go on with the same output. -/
theorem succeed (h : Follows c completed t T L) (hq : t.queue = id :: queue) (hv : id ∉ t.visited)
    (hn : c.definition.node? id = some node) (hc : id ∉ completed) {output : Json}
    {durationMs : PyFloat} (hdata : c.data node T.context = ⟨output, durationMs⟩)
    {row : RunStepRecord} (hrow : row.result = (id, c.data node T.context))
    (hstatus : row.status = .success) (hL' : L'.steps = L.steps ++ [row]) :
    Follows c completed (((t.pop id queue).succeed id output durationMs).follow c.toEvaluator
      c.definition id) (c.step T) L' := by
  have hup := h.caught_up hq hv hn hc
  have hctx := h.steps_step hq hv hn
  have hresults : results L'.steps = (c.step T).context.steps := by
    rw [hL', results_append, hup, hctx]
    simp [results, hstatus, hrow, Course.context]
  have hcontext : t.context = T.context := by
    rw [h.context, hup]
    exact h.reached.tidy.context.symm
  have hstep : c.step T = ((t.pop id queue).succeed id output durationMs).follow c.toEvaluator
      c.definition id := by
    rw [h.step_eq hq hv hn, show (c.yield node T.context).output = output from
      congrArg StepData.output hdata, show (c.yield node T.context).durationMs = durationMs from
      congrArg StepData.durationMs hdata]
    simp only [Traversal.follow, Traversal.succeed, Traversal.pop, hcontext, h.visited]
    rfl
  have htidy : (c.step T).context = c.context (c.step T).context.steps :=
    h.reached.step.tidy.context
  rw [← hstep]
  refine ⟨h.reached.step, rfl, rfl, rfl, ?_, ⟨c.step T, h.reached.step, hresults⟩, fun x hx => ?_,
    [], by rw [hresults, List.append_nil], by simp, by simp⟩
  · rw [hresults]
    exact htidy
  · rw [hresults, hctx, ← hup]
    simp only [Course.context, List.map_append, List.mem_append]
    exact Or.inl (h.stored x hx)

end Follows

/-! ## Between the calls -/

/-- No step waits for an approval. -/
def Ledger.Unparked (L : Ledger) : Prop := ∀ s ∈ L.steps, s.status ≠ .waitingApproval

instance (L : Ledger) : Decidable L.Unparked :=
  inferInstanceAs (Decidable (∀ s ∈ L.steps, s.status ≠ .waitingApproval))

/-- The last step waits for an approval, and it is the step of the gate that the uninterrupted
traversal takes next. -/
structure ParkedAt (c : Course) (L : Ledger) (s : RunStepRecord) : Prop where
  intro ::
  out : ∃ init T queue node, L.steps = init ++ [s] ∧ s.status = .waitingApproval ∧
    (∀ s' ∈ init, s'.status ≠ .waitingApproval) ∧ c.Reached T ∧
    results L.steps = T.context.steps ∧ T.queue = s.nodeId :: queue ∧ s.nodeId ∉ T.visited ∧
    c.definition.node? s.nodeId = some node ∧ node.type = "action.approval"

/-- The stored steps are those of a state of the uninterrupted traversal. -/
structure Course.Stores (c : Course) (L : Ledger) : Prop where
  keyed : L.Keyed
  known : ∃ T, c.Reached T ∧ results L.steps = T.context.steps
  parked : L.Unparked ∨ ∃ s, ParkedAt c L s

/-- The run is the run of the course, and does not claim to be finished. -/
def Course.Open (c : Course) (L : Ledger) : Prop :=
  ∃ run, L.run = some run ∧ run.traceId = c.traceId ∧ run.inputPayload = c.input ∧
    run.status ≠ .success

section Calls

variable {c : Course} {env : Env} {tenant runId : String} {completed : List String}
  {t T : Traversal} {L L' : Ledger}

theorem Course.Stores.setRun (h : c.Stores L) (f : RunRecord → RunRecord) :
    c.Stores (L.setRun f) := by
  refine ⟨h.keyed, h.known, h.parked.imp_right ?_⟩
  rintro ⟨s, hs⟩
  exact ⟨s, ⟨hs.out⟩⟩

/-- A step that is not in status `SUCCESS` is no result. -/
theorem results_add {row : RunStepRecord} (h : row.status ≠ .success) :
    results (L.steps ++ [row]) = results L.steps := by
  rw [results_append]
  simp [results, h]

theorem Ledger.Unparked.add {row : RunStepRecord} (h : L.Unparked)
    (hrow : row.status ≠ .waitingApproval) : ∀ s ∈ L.steps ++ [row], s.status ≠ .waitingApproval := by
  intro s hs
  rcases List.mem_append.1 hs with hs | hs
  · exact h s hs
  · rw [List.mem_singleton.1 hs]
    exact hrow

/-- The call stops at a node that does not succeed. -/
theorem Course.Stores.of_stopped {node : WorkflowNode} {r : Except PyError StepResult}
    (hx : Executes env tenant runId node t.context L r L') (hset : env.Settles)
    (hr : ∀ output durationMs, r ≠ .ok (.success output durationMs)) (hkeyed : L.Keyed)
    (hknown : ∃ T, c.Reached T ∧ results L.steps = T.context.steps) (hun : L.Unparked) :
    c.Stores L' ∧ L'.run = L.run := by
  cases hx with
  | unrecorded e => exact ⟨⟨hkeyed, hknown, Or.inl hun⟩, rfl⟩
  | succeeded => exact absurd rfl (hr _ _)
  | @stopped row bs _ hnew hof _ hwait hsettles =>
    refine ⟨⟨hkeyed.add hnew, ?_, Or.inl ?_⟩, rfl⟩
    · obtain ⟨T, hT, hres⟩ := hknown
      exact ⟨T, hT, (results_add (hsettles hset).1).trans hres⟩
    · exact hun.add hwait

/-- The call parks at a gate. -/
theorem Course.Stores.of_parked {node : WorkflowNode} {id : String} {queue : List String}
    {r : Except PyError Unit} (hp : Parks tenant runId node L r L') (hkeyed : L.Keyed)
    (hun : L.Unparked) (hopen : c.Open L) (hT : c.Reached T)
    (hres : results L.steps = T.context.steps) (hq : T.queue = id :: queue) (hv : id ∉ T.visited)
    (hn : c.definition.node? id = some node) (ht : node.type = "action.approval") :
    c.Stores L' ∧ c.Open L' := by
  have hid : node.id = id := (c.definition.node?_eq_some.1 hn).2
  have hadd : ∀ {row : RunStepRecord}, row.id ∉ L.steps.map (·.id) →
      StepOf tenant runId node row → row.status = .waitingApproval → c.Stores (L.add row) := by
    intro row hnew hof hstatus
    have hres' : results (L.add row).steps = T.context.steps :=
      (results_add (by simp [hstatus])).trans hres
    have hnode : row.nodeId = id := hof.nodeId.trans hid
    refine ⟨hkeyed.add hnew, ⟨T, hT, hres'⟩, Or.inr ⟨row, ⟨⟨L.steps, T, queue, node, rfl, hstatus,
      hun, hT, hres', ?_, ?_, ?_, ht⟩⟩⟩⟩
    · rw [hnode, hq]
    · rwa [hnode]
    · rw [hnode, hn]
  cases hp with
  | unrecorded e => exact ⟨⟨hkeyed, ⟨T, hT, hres⟩, Or.inl hun⟩, hopen⟩
  | recorded hnew hof hst => exact ⟨hadd hnew hof hst, hopen⟩
  | parked hnew hof hst =>
    refine ⟨(hadd hnew hof hst).setRun _, ?_⟩
    obtain ⟨run, hrun, htrace, hinput, -⟩ := hopen
    exact ⟨_, Option.map_eq_some_iff.2 ⟨run, hrun, rfl⟩, htrace, hinput, by simp⟩

/-- **One call**, by induction over what its traversal does. -/
theorem Traverses.stores {r : Except PyError Outcome}
    (h : Traverses env tenant runId c.definition completed t L r L') (henv : c.Answers env)
    (hf : Follows c completed t T L) (hkeyed : L.Keyed) (hun : L.Unparked) (hopen : c.Open L) :
    c.Stores L' ∧ c.Open L' ∧ ∀ lastOutput, r = .ok (.finished lastOutput) →
      L'.Unparked ∧ results L'.steps = c.final.context.steps ∧
        lastOutput = c.final.lastOutput := by
  induction h generalizing T with
  | @finished t L hq =>
    obtain ⟨rfl, hres⟩ := hf.finished hq
    refine ⟨⟨hkeyed, hf.known, Or.inl hun⟩, hopen, fun lastOutput hr => ⟨hun, hres, ?_⟩⟩
    cases hr
    exact hf.lastOutput
  | skip hq hv h ih => exact ih (hf.skip hq hv) hkeyed hun hopen
  | reuse hq hv hn hc h ih =>
    rw [henv.evaluator] at ih
    exact ih (hf.reuse hq hv hn hc) hkeyed hun hopen
  | @parked t L L' r id queue node hq hv hn hc ht hp =>
    obtain ⟨hstores, hopen'⟩ := Course.Stores.of_parked hp hkeyed hun hopen hf.reached
      (hf.caught_up hq hv hn hc) (hf.queue ▸ hq) (hf.visited ▸ hv) hn ht
    refine ⟨hstores, hopen', fun lastOutput hr => ?_⟩
    cases r with
    | error e => cases hr
    | ok a => cases hr
  | stopped hq hv hn hc ht hx hr hr' =>
    obtain ⟨hstores, hrun⟩ := Course.Stores.of_stopped hx henv.settles hr hkeyed hf.known hun
    rw [Course.Open, hrun]
    exact ⟨hstores, hopen, fun lastOutput hr => absurd hr (hr' lastOutput)⟩
  | @executed t L L₁ L' r id queue node output durationMs hq hv hn hc ht hx h ih =>
    rw [henv.evaluator] at ih
    obtain ⟨row, bs, hnew, hof, hst, hout, hms, ⟨w, hdisp⟩, -, rfl⟩ := hx.success_inv
    have hid : node.id = id := (c.definition.node?_eq_some.1 hn).2
    -- the dispatch gave what the course says
    have hcontext : t.context = T.context := by
      rw [hf.context, hf.caught_up hq hv hn hc]
      exact hf.reached.tidy.context.symm
    have hdata : c.data node T.context = ⟨output, durationMs⟩ := by
      have hu : env.unicode = c.unicode := congrArg Evaluator.unicode henv.evaluator
      have hres := henv.dispatch _ _ _ _ _ hdisp
      rw [hu, hcontext] at hres
      simp only [Course.data, Course.yield, if_neg ht, ← hres]
    have hrow : row.result = (id, c.data node T.context) := by
      rw [RunStepRecord.result, hof.nodeId, hid, hout, hms, hdata]
    exact ih (hf.succeed hq hv hn hc hdata hrow hst rfl) (hkeyed.add hnew)
      (hun.add (by simp [hst])) hopen

/-- A traversal depends on the nodes and edges of the definition only. -/
theorem Traverses.sameGraph {d d' : WorkflowDefinition}
    (hgraph : d.SameGraph d'.toWorkflowSpec) {r : Except PyError Outcome}
    (h : Traverses env tenant runId d completed t L r L') :
    Traverses env tenant runId d' completed t L r L' := by
  have hnode := hgraph.node?
  have hfollow : ∀ (t : Traversal) id, t.follow env.toEvaluator d id =
      t.follow env.toEvaluator d' id := by
    intro t id
    simp only [Traversal.follow, WorkflowDefinition.targets]
    rw [hgraph.outgoing]
  induction h with
  | finished hq => exact .finished hq
  | skip hq hv h ih => exact .skip hq hv ih
  | reuse hq hv hn hc h ih =>
    rw [hfollow] at ih
    exact .reuse hq hv (hnode _ ▸ hn) hc ih
  | parked hq hv hn hc ht hp => exact .parked hq hv (hnode _ ▸ hn) hc ht hp
  | stopped hq hv hn hc ht hx hr hr' => exact .stopped hq hv (hnode _ ▸ hn) hc ht hx hr hr'
  | executed hq hv hn hc ht hx h ih =>
    rw [hfollow] at ih
    exact .executed hq hv (hnode _ ▸ hn) hc ht hx ih

/-- The run follows its course: the steps are those of a state of the uninterrupted traversal,
and if the run claims to be finished, it has the results of its end. -/
structure Course.Along (c : Course) (L : Ledger) : Prop where
  stores : c.Stores L
  orphan : L.run = none → L.steps = []
  run : ∀ run, L.run = some run → run.traceId = c.traceId ∧ run.inputPayload = c.input ∧
    (run.status = .success → L.Unparked ∧ results L.steps = c.final.context.steps ∧
      run.outputPayload = c.final.lastOutput)

theorem Course.Along.of_open (h : c.Stores L) (hopen : c.Open L) : c.Along L := by
  obtain ⟨run, hrun, htrace, hinput, hstatus⟩ := hopen
  refine ⟨h, fun hnone => absurd (hrun.symm.trans hnone) (by simp), fun run' hrun' => ?_⟩
  obtain rfl := Option.some.inj (hrun.symm.trans hrun')
  exact ⟨htrace, hinput, fun hs => absurd hs hstatus⟩

/-- What is stored has the shape that the uninterrupted traversal gives it. -/
theorem Course.Stores.shape (h : c.Stores L) : ((results L.steps).map (·.1)).Nodup ∧
    ∀ p ∈ results L.steps, p.2.output.isObj = true := by
  obtain ⟨T, hT, hres⟩ := h.known
  rw [hres]
  exact ⟨hT.tidy.visited ▸ hT.tidy.nodup, hT.tidy.isObj⟩

theorem Course.Steady.results {steps : List RunStepRecord} (h : c.Steady steps)
    (hnodup : ((results steps).map (·.1)).Nodup)
    (hobj : ∀ p ∈ results steps, p.2.output.isObj = true) : c.SteadyResults (results steps) := by
  intro pre p post hsplit e he
  obtain ⟨pre', rest, hrows, rfl, hrest⟩ := List.map_eq_append_iff.1 hsplit
  obtain ⟨s, post', rfl, rfl, rfl⟩ := List.map_eq_cons_iff.1 hrest
  have hsuccess : ∀ s' ∈ pre' ++ [s], s'.status = .success := by
    intro s' hs'
    have hmem : s' ∈ steps.filter (·.status = .success) := by
      rw [hrows]
      simp only [List.mem_append, List.mem_cons, List.not_mem_nil, or_false] at hs' ⊢
      exact hs'.imp_right Or.inl
    simpa using (List.mem_filter.1 hmem).2
  have hprefix : FlowMesh.results (pre' ++ [s]) = pre'.map (·.result) ++ [s.result] := by
    rw [FlowMesh.results, List.filter_eq_self.2 fun s' hs' => by simpa using hsuccess s' hs']
    simp
  have hall : FlowMesh.results steps = FlowMesh.results (pre' ++ [s]) ++ post'.map (·.result) := by
    rw [FlowMesh.results, hrows, hprefix]
    simp
  have hfires := h pre' s post' hrows e he
  rw [c.preload_eq steps hnodup hobj, c.preload_eq (pre' ++ [s]) ?_ ?_, hprefix] at hfires
  · exact hfires
  · rw [hall, List.map_append] at hnodup
    exact hnodup.of_append_left
  · intro p hp
    exact hobj p (hall ▸ List.mem_append_left _ hp)

/-- The call starts with the uninterrupted traversal. -/
theorem follows_start (h : c.Stores L) (hsteady : c.Steady L.steps) {a : ExecuteArgs}
    (hgraph : a.definition.SameGraph c.definition.toWorkflowSpec)
    (hinput : a.inputPayload = c.input) :
    Follows c (completedIds L.steps) (a.start c.tenant c.traceId L.steps) c.start L := by
  obtain ⟨hnodup, hobj⟩ := h.shape
  refine ⟨⟨0, rfl⟩, ?_, rfl, rfl, ?_, h.known, fun x hx => ?_, results L.steps, rfl, fun p hp => ?_,
    fun _ => hsteady.results hnodup hobj⟩
  · exact hgraph.startNodes
  · rw [ExecuteArgs.start, hinput]
    exact c.preload_eq L.steps hnodup hobj
  · rwa [completedIds_eq] at hx
  · rw [completedIds_eq]
    exact List.mem_map_of_mem hp

theorem Course.traced_eq {a : ExecuteArgs} {traceId : String} (h : a.Traced traceId)
    (htrace : a.traceId = some c.traceId) : traceId = c.traceId := by
  refine h c.traceId ?_
  simp [orElse, htrace, c.traced]

theorem Course.Along.snapshot (h : c.Along L) : L.snapshot = L.steps := by
  unfold Ledger.snapshot
  cases hr : L.run with
  | none => exact (h.orphan hr).symm
  | some run => rfl

/-- The run when the traversal starts. -/
theorem Course.Along.begin (h : c.Along L) {a : ExecuteArgs} (hinput : a.inputPayload = c.input) :
    c.Open (L.begin c.tenant a c.traceId) := by
  refine ⟨_, rfl, ?_⟩
  cases hr : L.run with
  | none => exact ⟨rfl, hinput, by simp [ExecuteArgs.newRun]⟩
  | some run =>
    obtain ⟨htrace, hinput', -⟩ := h.run run hr
    exact ⟨htrace, hinput', by simp⟩

/-- The end of a call. -/
theorem Course.Along.ends {r : Except PyError Outcome} {r' : Except PyError RunRecord}
    (hend : Ends L r r' L') (hstores : c.Stores L) (hopen : c.Open L)
    (hfinished : ∀ lastOutput, r = .ok (.finished lastOutput) → L.Unparked ∧
      results L.steps = c.final.context.steps ∧ lastOutput = c.final.lastOutput) :
    c.Along L' := by
  cases hend with
  | raised e => exact .of_open hstores hopen
  | unstored o e => exact .of_open hstores hopen
  | closed o r =>
    obtain ⟨run, hrun, htrace, hinput, hstatus⟩ := hopen
    have hrun' : ∀ f, (L.setRun f).run = some (f run) := fun f => by simp [Ledger.setRun, hrun]
    cases o with
    | parked => exact .of_open hstores ⟨run, hrun, htrace, hinput, hstatus⟩
    | finished lastOutput =>
      refine ⟨hstores.setRun _, fun hnone => absurd ((hrun' _).symm.trans hnone) (by simp),
        fun run₁ hrun₁ => ?_⟩
      obtain rfl := Option.some.inj ((hrun' _).symm.trans hrun₁)
      obtain ⟨hun, hres, hlast⟩ := hfinished lastOutput rfl
      exact ⟨htrace, hinput, fun _ => ⟨hun, hres, hlast⟩⟩
    | failed error => exact .of_open (hstores.setRun _) ⟨_, hrun' _, htrace, hinput, by simp⟩

/-- An `execute` call keeps the run on its course. -/
theorem Course.Along.runs {a : ExecuteArgs} {r : Except PyError RunRecord}
    (hL : c.Along L) (h : Runs env c.tenant a L r L') (henv : c.Answers env)
    (hgraph : a.definition.SameGraph c.definition.toWorkflowSpec)
    (htrace : a.traceId = some c.traceId) (hinput : a.inputPayload = c.input) (hun : L.Unparked)
    (hsteady : c.Steady L.steps) : c.Along L' := by
  cases h with
  | refused e => exact hL
  | begun htraced e =>
    obtain rfl := Course.traced_eq htraced htrace
    exact .of_open ⟨hL.stores.keyed, hL.stores.known, Or.inl hun⟩ (hL.begin hinput)
  | traversed htraced ht hend =>
    obtain rfl := Course.traced_eq htraced htrace
    rw [hL.snapshot] at ht
    have hfollows : Follows c (completedIds L.steps) (a.start c.tenant c.traceId L.steps) c.start
        (L.begin c.tenant a c.traceId) := by
      obtain ⟨h₁, h₂, h₃, h₄, h₅, h₆, h₇, h₈⟩ := follows_start hL.stores hsteady hgraph hinput
      exact ⟨h₁, h₂, h₃, h₄, h₅, h₆, h₇, h₈⟩
    obtain ⟨hstores, hopen, hfinished⟩ := (ht.sameGraph hgraph).stores henv hfollows
      hL.stores.keyed hun (hL.begin hinput)
    exact .ends hend hstores hopen hfinished

/-! ### Decisions -/

/-- Rewriting the step that waits: it is the last one. -/
theorem ParkedAt.steps_amend {s : RunStepRecord} (h : ParkedAt c L s) (hkeyed : L.Keyed)
    (f : RunStepRecord → RunStepRecord) :
    ∃ init, L.steps = init ++ [s] ∧ (∀ s' ∈ init, s'.status ≠ .waitingApproval) ∧
      (L.amend s.id f).steps = init ++ [f s] := by
  obtain ⟨init, -, -, -, hsteps, -, hinit, -⟩ := h.out
  exact ⟨init, hsteps, hinit, hkeyed.steps_amend hsteps f⟩

/-- The step that is decided is the one that waits. -/
theorem Course.Stores.waiting_cases (h : c.Stores L) :
    L.waiting = none ∧ L.Unparked ∨ ∃ s, L.waiting = some s ∧ ParkedAt c L s := by
  rcases h.parked with hun | ⟨s, hs⟩
  · refine Or.inl ⟨?_, hun⟩
    rw [Ledger.waiting, List.find?_eq_none]
    exact fun s hs => by simpa using hun s hs
  · refine Or.inr ⟨s, ?_, hs⟩
    obtain ⟨init, -, -, -, hsteps, hst, hinit, -⟩ := hs.out
    exact Ledger.waiting_last hsteps hinit hst

/-- A run with a waiting step does not claim to be finished. -/
theorem Course.Along.open_of_parked (h : c.Along L) {s : RunStepRecord} (hs : ParkedAt c L s) :
    c.Open L := by
  obtain ⟨init, -, -, -, hsteps, hst, -⟩ := hs.out
  have hmem : s ∈ L.steps := by simp [hsteps]
  cases hr : L.run with
  | none =>
    rw [h.orphan hr] at hmem
    cases hmem
  | some run =>
    obtain ⟨htrace, hinput, hdone⟩ := h.run run hr
    exact ⟨run, hr, htrace, hinput, fun hsuccess => (hdone hsuccess).1 s hmem hst⟩

/-- A rejection leaves the results alone. -/
theorem Course.Along.rejectStep (h : c.Along L) (a : ApprovalArgs) : c.Along (L.rejectStep a) := by
  unfold Ledger.rejectStep
  rcases h.stores.waiting_cases with ⟨hw, -⟩ | ⟨s, hw, hs⟩
  · rw [hw]
    exact h
  · rw [hw]
    obtain ⟨init, hsteps, hinit, hamend⟩ := hs.steps_amend h.stores.keyed fun s =>
      { s with
        status := .rejected, durationMs := ⟨.finite 0, "0.0"⟩, outputSnapshot := a.snapshot,
        error := some a.errMsg }
    obtain ⟨-, -, -, -, -, hst, -⟩ := hs.out
    refine .of_open ⟨h.stores.keyed.amend _ fun _ => rfl, ?_, Or.inl ?_⟩ (h.open_of_parked hs)
    · obtain ⟨T, hT, hres⟩ := h.stores.known
      refine ⟨T, hT, ?_⟩
      rw [hamend, ← hres, hsteps, results_append, results_append]
      simp [results, hst]
    · rw [Ledger.Unparked, hamend]
      exact Ledger.Unparked.add (L := { L with steps := init }) hinit (by simp)

/-- An approval puts the decision in the place of the gate. -/
theorem Course.Along.passStep (h : c.Along L) {a : ApprovalArgs}
    (hdecision : ∀ s, L.waiting = some s → a.snapshot = c.decision s.nodeId) :
    c.Along (L.passStep runId a) ∧ (L.passStep runId a).Unparked := by
  unfold Ledger.passStep
  rcases h.stores.waiting_cases with ⟨hw, hun⟩ | ⟨s, hw, hs⟩
  · rw [hw]
    exact ⟨h, hun⟩
  · rw [hw]
    obtain ⟨init, hsteps, hinit, hamend⟩ := hs.steps_amend h.stores.keyed fun s =>
      { s with
        status := .success, durationMs := ⟨.finite 1, "1.0"⟩, outputSnapshot := a.snapshot,
        error := none }
    obtain ⟨-, T, queue, node, -, hst, -, hT, hres, hq, hv, hn, ht⟩ := hs.out
    have hid : node.id = s.nodeId := (c.definition.node?_eq_some.1 hn).2
    have hun : (L.amend s.id fun s => { s with
        status := .success, durationMs := ⟨.finite 1, "1.0"⟩, outputSnapshot := a.snapshot,
        error := none }).Unparked := by
      rw [Ledger.Unparked, hamend]
      exact Ledger.Unparked.add (L := { L with steps := init }) hinit (by simp)
    refine ⟨.of_open ⟨h.stores.keyed.amend _ fun _ => rfl, ⟨c.step T, hT.step, ?_⟩, Or.inl hun⟩
      (h.open_of_parked hs), hun⟩
    rw [Course.step_visit hq hv hn]
    simp only [Traversal.follow, Traversal.succeed, Traversal.pop]
    rw [hT.tidy.context_succeed hv (Course.yield_isObj _ _), ← hres, Ledger.log_steps, hamend,
      hsteps, results_append, results_append]
    simp [results, hst, Course.context, RunStepRecord.result, Course.yield, ht, hid,
      hdecision s hw]

/-- `resume_approval` keeps the run on its course. -/
theorem Course.Along.resumes {a : ApprovalArgs} {P : RunRecord → WorkflowDefinition → Prop}
    {r : Except PyError RunRecord} (hL : c.Along L) (h : Resumes env c.tenant runId a P L r L')
    (henv : c.Answers env)
    (hgraph : ∀ run d, L.run = some run → P run d → d.SameGraph c.definition.toWorkflowSpec)
    (hdecision : ∀ s, L.waiting = some s → a.snapshot = c.decision s.nodeId)
    (hsteady : c.Steady (L.passStep runId a).steps) : c.Along L' := by
  cases h with
  | refused e => exact hL
  | rejecting e => exact hL.rejectStep a
  | rejected r =>
    have hreject := hL.rejectStep a
    refine ⟨hreject.stores.setRun _, fun hnone => hreject.orphan ?_, fun run hrun => ?_⟩
    · exact Option.map_eq_none_iff.1 hnone
    · obtain ⟨run', hrun', rfl⟩ := Option.map_eq_some_iff.1 hrun
      obtain ⟨htrace, hinput, -⟩ := hreject.run run' hrun'
      exact ⟨htrace, hinput, nofun⟩
  | passed e => exact (hL.passStep hdecision).1
  | @executed run d r L' hrun hid hstatus hd h =>
    have hstep : c.Along (L.passStep runId a) ∧ (L.passStep runId a).Unparked :=
      hL.passStep hdecision
    obtain ⟨hpass, hun⟩ := hstep
    obtain ⟨htrace, hinput, -⟩ := hL.run run hrun
    exact hpass.runs h henv (hgraph run d hrun hd) (congrArg some htrace) hinput hun hsteady

end Calls

/-! ## Interrupted runs -/

/-- A call that continues the run of a course, on stored steps in `P`, or something that leaves
the run alone. A run that waits for an approval is continued by its approval. -/
inductive Continues (c : Course) (runId : String) (P : List RunStepRecord → Prop) :
    World → World → Prop
  | execute {w : World} {env : Env} (henv : c.Answers env) (a : ExecuteArgs)
      (hid : a.runId = runId) (hdef : a.definition.SameGraph c.definition.toWorkflowSpec)
      (htrace : a.traceId = some c.traceId) (hinput : a.inputPayload = c.input)
      (hun : (w.ledger c.tenant runId).Unparked) (hP : P (w.stepsOf c.tenant runId)) :
      Continues c runId P w ((FlowMesh.execute env.toEvaluator c.tenant a).run env.handle w).2
  | resumeApproval {w : World} {env : Env} (henv : c.Answers env) (a : ApprovalArgs)
      (hdef : ∀ run d, w.run? c.tenant runId = some run → w.Pins c.tenant run d →
        d.SameGraph c.definition.toWorkflowSpec)
      (hdecision : ∀ s, (w.ledger c.tenant runId).waiting = some s →
        a.snapshot = c.decision s.nodeId)
      (hP : P ((w.ledger c.tenant runId).passStep runId a).steps) :
      Continues c runId P w
        ((FlowMesh.resumeApproval env.toEvaluator c.tenant runId a).run env.handle w).2
  | elsewhere {w w' : World} (h : w'.ledger c.tenant runId = w.ledger c.tenant runId) :
      Continues c runId P w w'

/-- A run of the course, interrupted and continued any number of times. -/
def Interrupted (c : Course) (runId : String) (P : List RunStepRecord → Prop) :
    World → World → Prop :=
  Relation.ReflTransGen (Continues c runId P)

/-- The run has the results of the uninterrupted traversal: its executed nodes with their
outputs, in order, and its output. -/
def World.EndsLike (w : World) (runId : String) (c : Course) : Prop :=
  ∀ run, w.run? c.tenant runId = some run → run.status = .success →
    results (w.stepsOf c.tenant runId) = c.final.context.steps ∧
      run.outputPayload = c.final.lastOutput

theorem along_fresh {c : Course} {runId : String} {w : World} (h : w.Fresh c.tenant runId) :
    c.Along (w.ledger c.tenant runId) := by
  rw [h]
  refine ⟨⟨List.nodup_nil, ⟨c.start, ⟨0, rfl⟩, rfl⟩, Or.inl ?_⟩, fun _ => rfl, ?_⟩
  · exact fun s hs => absurd hs List.not_mem_nil
  · intro run hrun
    cases hrun

theorem Continues.along {c : Course} {runId : String} {w w' : World}
    (h : Continues c runId c.Steady w w') (hw : c.Along (w.ledger c.tenant runId)) :
    c.Along (w'.ledger c.tenant runId) := by
  cases h with
  | @execute env henv a hid hdef htrace hinput hun hP =>
    have hruns : Runs env c.tenant a (w.ledger c.tenant runId) _ _ := (execute_does a hid).run rfl
    exact hw.runs hruns henv hdef htrace hinput hun hP
  | @resumeApproval env henv a hdef hdecision hP =>
    exact hw.resumes (resumeApproval_run a w) henv hdef hdecision hP
  | elsewhere h =>
    rw [h]
    exact hw

/-- **Resuming equals not having been interrupted**, as long as each call finds the edge
conditions of the completed nodes as they were when the nodes completed. -/
theorem resumed_eq_final {c : Course} {runId : String} {w₀ w : World}
    (h₀ : w₀.Fresh c.tenant runId) (h : Interrupted c runId c.Steady w₀ w) :
    w.EndsLike runId c := by
  have halong : c.Along (w.ledger c.tenant runId) := by
    induction h with
    | refl => exact along_fresh h₀
    | tail _ hstep ih => exact hstep.along ih
  intro run hrun hstatus
  obtain ⟨-, hres, hout⟩ := (halong.run run hrun).2.2 hstatus
  exact ⟨hres, hout⟩

/-! ### A failed dispatch and its replay -/

/-- Every dispatch gives the same object. -/
def sampleCourse (d : WorkflowDefinition) : Course where
  toEvaluator := .source ⟨fun _ => true, fun _ => none⟩
  definition := d
  dispatch := fun _ _ _ => ⟨.obj [("x", .bool true)], ⟨.finite 2, "2.0"⟩⟩
  decision := fun _ => .obj []
  input := .null
  tenant := "acme"
  traceId := "trace"
  traced := by decide
  dispatch_isObj := fun _ _ _ => rfl
  decision_isObj := fun _ => rfl

/-- No call raises, and every dispatch succeeds but that of `failing`. -/
def sampleEnv (failing : String) : Env :=
  Env.steady fun id => if id = failing then .error ⟨.valueError, "refused"⟩
    else .ok (.obj [("x", .bool true)])

theorem sampleEnv_answers (d : WorkflowDefinition) (failing : String) :
    (sampleCourse d).Answers (sampleEnv failing) where
  evaluator := rfl
  dispatch := by
    intro w node config context res h
    simp only [sampleEnv, Env.steady] at h
    split at h
    · cases h
    · exact (Except.ok.inj h).symm
  settles := by
    intro o w _
    cases o <;> rfl

/-- The arguments of all calls. -/
def sampleArgs (d : WorkflowDefinition) : ExecuteArgs where
  definition := d
  runId := "RUN-1"
  inputPayload := .null
  traceId := some "trace"

/-- The run after the dispatch of `D` failed. -/
def failedAtD (d : WorkflowDefinition) : World :=
  ((execute (sampleEnv "D").toEvaluator "acme" (sampleArgs d)).run (sampleEnv "D").handle
    World.empty).2

/-- The run after it was executed again, with success. -/
def replayedD (d : WorkflowDefinition) : World :=
  ((execute (sampleEnv "").toEvaluator "acme" (sampleArgs d)).run (sampleEnv "").handle
    (failedAtD d)).2

theorem replayedD_interrupted (d : WorkflowDefinition) {P : List RunStepRecord → Prop}
    (h₀ : P []) (h₁ : P ((failedAtD d).stepsOf "acme" "RUN-1"))
    (hun : ((failedAtD d).ledger "acme" "RUN-1").Unparked) :
    Interrupted (sampleCourse d) "RUN-1" P World.empty (replayedD d) := by
  refine .tail (.tail .refl (.execute (sampleEnv_answers d "D") (sampleArgs d) rfl ⟨rfl, rfl⟩ rfl
    rfl (fun s hs => absurd hs List.not_mem_nil) h₀)) ?_
  exact .execute (sampleEnv_answers d "") (sampleArgs d) rfl ⟨rfl, rfl⟩ rfl rfl hun h₁

/-- A chain of three nodes. -/
def chainWorkflow : WorkflowDefinition where
  id := some "wf_chain"
  name := "chain"
  trigger := ⟨"webhook", [], .null⟩
  nodes := ["A", "C", "D"].map fun id => { id, type := "action.http", name := id }
  edges := [{ source := "A", target := "C" }, { source := "C", target := "D" }]
  accepted := by decide

/-- Edges without conditions are always followed. -/
theorem chain_steady (steps : List RunStepRecord) : (sampleCourse chainWorkflow).Steady steps := by
  have hfires : ∀ e ∈ chainWorkflow.edges, ∀ context,
      (sampleCourse chainWorkflow).fires e context = true := by
    intro e he context
    simp only [chainWorkflow, List.mem_cons, List.not_mem_nil, or_false] at he
    rcases he with rfl | rfl <;> rfl
  intro pre s post _ e he
  have he' : e ∈ chainWorkflow.edges := List.mem_of_mem_filter he
  rw [hfires e he', hfires e he']

/-- The chain ends as if nothing had failed. -/
theorem resumed_eq_final_chain :
    (results ((replayedD chainWorkflow).stepsOf "acme" "RUN-1")).map (·.1) = ["A", "C", "D"] ∧
      (replayedD chainWorkflow).EndsLike "RUN-1" (sampleCourse chainWorkflow) := by
  have hfresh : World.empty.Fresh "acme" "RUN-1" := rfl
  have hun : ((failedAtD chainWorkflow).ledger "acme" "RUN-1").Unparked := by decide +kernel
  exact ⟨by decide +kernel, resumed_eq_final hfresh
    (replayedD_interrupted chainWorkflow (chain_steady _) (chain_steady _) hun)⟩

/-- The edge to `B` depends on the step of `C`, which comes later. -/
def lateConditionWorkflow : WorkflowDefinition where
  id := some "wf_late"
  name := "late"
  trigger := ⟨"webhook", [], .null⟩
  nodes := ["A", "B", "C", "D"].map fun id => { id, type := "action.http", name := id }
  edges := [
    { source := "A", target := "B", condition := some "\x7b\x7b steps.C.output.x \x7d\x7d" },
    { source := "A", target := "C" }, { source := "C", target := "D" }]
  accepted := by decide

/-- Behind the failure of `D`, the condition holds that did not hold when `A` completed, and `B`
is executed. -/
theorem not_endsLike_lateCondition :
    ¬ ∀ w, Interrupted (sampleCourse lateConditionWorkflow) "RUN-1" (fun _ => True) World.empty w →
      w.EndsLike "RUN-1" (sampleCourse lateConditionWorkflow) := by
  intro hall
  have hun : ((failedAtD lateConditionWorkflow).ledger "acme" "RUN-1").Unparked := by
    decide +kernel
  have hends := hall _ (replayedD_interrupted lateConditionWorkflow trivial trivial hun)
  -- the second run is evaluated once
  obtain ⟨hstatus, hnodes⟩ :
      ((replayedD lateConditionWorkflow).run? "acme" "RUN-1").map (·.status) = some .success ∧
      (results ((replayedD lateConditionWorkflow).stepsOf "acme" "RUN-1")).map (·.1) =
        ["A", "C", "B", "D"] := by
    decide +kernel
  have hfinal : (sampleCourse lateConditionWorkflow).final.context.steps.map (·.1) =
      ["A", "C", "D"] := by decide +kernel
  obtain ⟨run, hrun, hsuccess⟩ := Option.map_eq_some_iff.1 hstatus
  obtain ⟨hres, -⟩ := hends run hrun hsuccess
  rw [show results ((replayedD lateConditionWorkflow).stepsOf "acme" "RUN-1") = _ from hres,
    hfinal] at hnodes
  exact absurd hnodes (by decide)

end FlowMesh
