import FlowMesh.Engine.Session

/-!
# Approval gates

A node of type `action.approval` is a gate. When every path from a start node to a node `n` leads
through the gate `g`, then `n` is dispatched only after an approval of `g`
(`gate_not_bypassed`), over any sequence of `execute` and `resume_approval` calls.

The invariant over calls is `Gated`: a gate's step is stored as `SUCCESS` only if the gate was
approved. The invariant over the traversal is `Cleared`: a queued node was reached along a path
whose gates were approved before the traversal began. The two meet at the snapshot, which is all
the traversal knows of the steps.
-/

namespace FlowMesh

open Python Async

namespace WorkflowSpec

variable (s : WorkflowSpec)

/-- The node is an approval gate. -/
def IsGate (id : String) : Prop := ∃ n, s.node? id = some n ∧ n.type = "action.approval"

/-- The nodes on a path from a start node, and the node it ends at. -/
inductive Path : List String → String → Prop
  | start {x : String} (hx : x ∈ s.roots) : Path [x] x
  | edge {p : List String} {x : String} {e : WorkflowEdge} (h : Path p x) (he : e ∈ s.edges)
      (hs : e.source = x) : Path (p ++ [e.target]) e.target

/-- Every path from a start node to `n` leads through `g`. -/
def Dominates (g n : String) : Prop := ∀ p, s.Path p n → g ∈ p

variable {s} {s' : WorkflowSpec}

theorem Path.mem {p : List String} {x : String} (h : s.Path p x) : x ∈ p := by
  cases h <;> simp

theorem SameGraph.isGate (h : s.SameGraph s') {id : String} (hg : s.IsGate id) : s'.IsGate id := by
  unfold IsGate at *
  rwa [← h.node?]

theorem SameGraph.path (h : s.SameGraph s') {p : List String} {x : String} (hp : s.Path p x) :
    s'.Path p x := by
  induction hp with
  | start hx =>
    refine .start ?_
    unfold roots nodeIds incomingCount at *
    rwa [← h.1, ← h.2]
  | edge _ he hs ih => exact .edge ih (h.2 ▸ he) hs

theorem SameGraph.dominates (h : s.SameGraph s') {g n : String} (hd : s.Dominates g n) :
    s'.Dominates g n :=
  fun p hp => hd p (h.symm.path hp)

end WorkflowSpec

/-! ## The invariant over calls -/

/-- Every dispatch comes after the approvals of the gates in front of its node. -/
def Guarded (s : WorkflowSpec) (runId : String) (events : List Event) : Prop :=
  ∀ pre post n config context ok,
    events = pre ++ .dispatched runId n config context ok :: post →
    ∀ g, s.IsGate g → s.Dominates g n → .approved runId g ∈ pre

/-- The gates that are stored as passed were approved, and no dispatch went past a gate. -/
structure Gated (s : WorkflowSpec) (runId : String) (L : Ledger) : Prop where
  keyed : L.Keyed
  rows : ∀ row ∈ L.steps, row.status = .success → s.IsGate row.nodeId →
    .approved runId row.nodeId ∈ L.events
  events : Guarded s runId L.events

section

variable {s s' : WorkflowSpec} {runId : String} {L : Ledger} {events es : List Event}

theorem Guarded.append (h : Guarded s runId events)
    (hes : ∀ n config context ok, .dispatched runId n config context ok ∈ es →
      ∀ g, s.IsGate g → s.Dominates g n → .approved runId g ∈ events) :
    Guarded s runId (events ++ es) := by
  intro pre post n config context ok heq g hg hdom
  rcases List.append_eq_append_iff.1 heq with ⟨l, rfl, hl⟩ | ⟨l, rfl, hl⟩
  · -- the dispatch is one of the new events
    have hmem : .dispatched runId n config context ok ∈ es := by simp [hl]
    exact List.mem_append_left _ (hes n config context ok hmem g hg hdom)
  · cases l with
    | nil =>
      have hmem : .dispatched runId n config context ok ∈ es := by
        simp only [List.nil_append] at hl
        simp [← hl]
      simpa using hes n config context ok hmem g hg hdom
    | cons e l =>
      simp only [List.cons_append, List.cons.injEq] at hl
      obtain ⟨rfl, -⟩ := hl
      exact h pre l n config context ok rfl g hg hdom

theorem Gated.sameGraph (h : s.SameGraph s') (hL : Gated s runId L) : Gated s' runId L where
  keyed := hL.keyed
  rows := fun row hrow hst hg => hL.rows row hrow hst (h.symm.isGate hg)
  events := fun pre post n config context ok heq g hg hdom =>
    hL.events pre post n config context ok heq g (h.symm.isGate hg) (h.symm.dominates hdom)

theorem Gated.setRun (h : Gated s runId L) (f : RunRecord → RunRecord) :
    Gated s runId (L.setRun f) := ⟨h.keyed, h.rows, h.events⟩

/-- Events that are no dispatches. -/
theorem Gated.log (h : Gated s runId L)
    (hes : ∀ n config context ok, .dispatched runId n config context ok ∉ es) :
    Gated s runId (L.log es) where
  keyed := h.keyed
  rows := fun row hrow hst hg => List.mem_append_left _ (h.rows row hrow hst hg)
  events := h.events.append fun n config context ok hmem => absurd hmem (hes n config context ok)

/-- Rewriting a step keeps the invariant unless the step becomes `SUCCESS`. -/
theorem Gated.amend (h : Gated s runId L) (stepId : ℕ) {f : RunStepRecord → RunStepRecord}
    (hid : ∀ row, (f row).id = row.id) (hf : ∀ row ∈ L.steps, row.id = stepId → (f row).status = .success →
      .approved runId (f row).nodeId ∈ L.events) : Gated s runId (L.amend stepId f) where
  keyed := h.keyed.amend stepId hid
  rows := by
    intro row hrow hst hg
    obtain ⟨row', hrow', rfl⟩ := List.mem_map.1 hrow
    by_cases hid : row'.id = stepId
    · rw [if_pos hid] at hst ⊢
      exact hf row' hrow' hid hst
    · rw [if_neg hid] at hst hg ⊢
      exact h.rows row' hrow' hst hg
  events := h.events

theorem Gated.rejectStep (h : Gated s runId L) (a : ApprovalArgs) :
    Gated s runId (L.rejectStep a) := by
  unfold Ledger.rejectStep
  split
  · exact h
  · exact h.amend _ (fun _ => rfl) fun row _ _ hst => by cases hst

theorem Gated.passStep (h : Gated s runId L) (a : ApprovalArgs) :
    Gated s runId (L.passStep runId a) := by
  unfold Ledger.passStep
  split
  · exact h
  next step hw =>
  rw [← Ledger.amend_log]
  refine (h.log fun n config context ok => by simp).amend _ (fun _ => rfl) fun row hrow hid _ => ?_
  obtain rfl := h.keyed.eq_of_id hrow (waiting_mem hw).1 hid
  simp

/-- Executing a node behind approved gates, the node being no gate itself. -/
theorem Gated.executes (h : Gated s runId L) {env : Env} {tenant : String} {node : WorkflowNode}
    {context : Context} {r : Except PyError StepResult} {L' : Ledger}
    (hx : Executes env tenant runId node context L r L') (hnode : ¬ s.IsGate node.id)
    (hgates : ∀ g, s.IsGate g → s.Dominates g node.id → .approved runId g ∈ L.events) :
    Gated s runId L' := by
  -- a step of a node that is no gate, and dispatches of this node
  have hnew : ∀ {row : RunStepRecord} {config : List (String × Json)} {bs : List Bool},
      row.id ∉ L.steps.map (·.id) → row.nodeId = node.id →
      Gated s runId ((L.add row).log (dispatches runId node config context bs)) := by
    intro row config bs hid hof
    refine ⟨h.keyed.add hid, ?_, ?_⟩
    · intro row' hrow' hst hg
      rcases List.mem_append.1 hrow' with hrow' | hrow'
      · exact List.mem_append_left _ (h.rows row' hrow' hst hg)
      · rw [List.mem_singleton.1 hrow', hof] at hg
        exact absurd hg hnode
    · refine h.events.append fun n config' context' ok hmem g hg hdom => hgates g hg ?_
      obtain ⟨b, -, hb⟩ := List.mem_map.1 hmem
      cases hb
      exact hdom
  cases hx with
  | unrecorded e => exact h
  | succeeded hid hof => exact hnew hid hof.nodeId
  | stopped hid hof => exact hnew hid hof.nodeId

/-- Parking at a gate. -/
theorem Gated.parks (h : Gated s runId L) {tenant : String} {node : WorkflowNode}
    {r : Except PyError Unit} {L' : Ledger} (hp : Parks tenant runId node L r L') :
    Gated s runId L' := by
  refine hp.invariant (fun row hid _ hst => ?_) (fun L f hL => hL.setRun f) h
  refine ⟨h.keyed.add hid, fun row' hrow' hst' hg => ?_, h.events⟩
  rcases List.mem_append.1 hrow' with hrow' | hrow'
  · exact h.rows row' hrow' hst' hg
  · rw [List.mem_singleton.1 hrow', hst] at hst'
    cases hst'

end

/-! ## The invariant over the traversal -/

/-- The node was reached along a path whose gates, up to the node itself, were approved. -/
def Cleared (s : WorkflowSpec) (runId : String) (events : List Event) (id : String) : Prop :=
  ∃ p, s.Path p id ∧ ∀ g ∈ p, g ≠ id → s.IsGate g → .approved runId g ∈ events

section

variable {env : Env} {tenant runId : String} {d : WorkflowDefinition} {completed : List String}

theorem Cleared.mono {s : WorkflowSpec} {events events' : List Event} {id : String}
    (h : Cleared s runId events id) (hsub : events ⊆ events') : Cleared s runId events' id := by
  obtain ⟨p, hp, hg⟩ := h
  exact ⟨p, hp, fun g hgp hne hgate => hsub (hg g hgp hne hgate)⟩

/-- The targets of a node that is no gate, or an approved one. -/
theorem Cleared.follow {t : Traversal} {id : String} {events : List Event}
    (hid : Cleared d.toWorkflowSpec runId events id)
    (hgate : d.IsGate id → .approved runId id ∈ events)
    (hq : ∀ x ∈ t.queue, Cleared d.toWorkflowSpec runId events x) (ev : Evaluator) :
    ∀ x ∈ (t.follow ev d id).queue, Cleared d.toWorkflowSpec runId events x := by
  intro x hx
  rcases List.mem_append.1 hx with hx | hx
  · exact hq x hx
  obtain ⟨e, he, rfl⟩ := List.mem_map.1 (List.mem_of_mem_filter hx)
  obtain ⟨hedge, hsource⟩ := List.mem_filter.1 (List.mem_of_mem_filter he)
  obtain ⟨p, hp, hg⟩ := hid
  refine ⟨p ++ [e.target], .edge hp hedge (by simpa using hsource), fun g hgp hne hgate' => ?_⟩
  rcases List.mem_append.1 hgp with hgp | hgp
  · by_cases hgid : g = id
    · subst hgid
      exact hgate hgate'
    · exact hg g hgp hgid hgate'
  · exact absurd (List.mem_singleton.1 hgp) hne

theorem not_isGate {id : String} {node : WorkflowNode} (hn : d.node? id = some node)
    (ht : node.type ≠ "action.approval") : ¬ d.IsGate id := by
  rintro ⟨n, hn', ht'⟩
  rw [hn] at hn'
  cases hn'
  exact ht ht'

/-- The gates in front of a cleared node that is no gate itself. -/
theorem Cleared.approved {events : List Event} {id g : String}
    (h : Cleared d.toWorkflowSpec runId events id) (hid : ¬ d.IsGate id) (hg : d.IsGate g)
    (hdom : d.Dominates g id) : .approved runId g ∈ events := by
  obtain ⟨p, hp, hgates⟩ := h
  exact hgates g (hdom p hp) (fun hgid => hid (hgid ▸ hg)) hg

/-- The traversal dispatches no node whose gates were not approved. -/
theorem Traverses.gated {t : Traversal} {L L' : Ledger} {r : Except PyError Outcome}
    (h : Traverses env tenant runId d completed t L r L')
    (hL : Gated d.toWorkflowSpec runId L)
    (hq : ∀ x ∈ t.queue, Cleared d.toWorkflowSpec runId L.events x)
    (hc : ∀ x ∈ completed, d.IsGate x → .approved runId x ∈ L.events) :
    Gated d.toWorkflowSpec runId L' := by
  induction h with
  | finished hnil => exact hL
  | skip hcons hv h ih => exact ih hL (fun x hx => hq x (by simp [hcons, hx])) hc
  | reuse hcons hv hn hcomp h ih =>
    refine ih hL (Cleared.follow (hq _ (by simp [hcons])) (hc _ hcomp) (fun x hx => ?_) _) hc
    exact hq x (by rw [hcons]; exact List.mem_cons_of_mem _ hx)
  | parked hcons hv hn hcomp ht hp => exact hL.parks hp
  | stopped hcons hv hn hcomp ht hx hr hr' =>
    have hid := (d.node?_eq_some.1 hn).2
    have hnot := not_isGate hn ht
    exact hL.executes hx (hid ▸ hnot) fun g hg hdom =>
      (hq _ (by simp [hcons])).approved hnot hg (hid ▸ hdom)
  | executed hcons hv hn hcomp ht hx h ih =>
    have hid := (d.node?_eq_some.1 hn).2
    have hnot := not_isGate hn ht
    have hsub := hx.events_prefix.subset
    refine ih (hL.executes hx (hid ▸ hnot) fun g hg hdom =>
      (hq _ (by simp [hcons])).approved hnot hg (hid ▸ hdom)) ?_ fun x hx hg => hsub (hc x hx hg)
    refine Cleared.follow ((hq _ (by simp [hcons])).mono hsub) (fun hg => absurd hg hnot)
      (fun x hx => ?_) _
    exact (hq x (by rw [hcons]; exact List.mem_cons_of_mem _ hx)).mono hsub

/-! ## Over calls -/

theorem Gated.begin {s : WorkflowSpec} {L : Ledger} (h : Gated s runId L) (a : ExecuteArgs)
    (traceId : String) : Gated s runId (L.begin tenant a traceId) :=
  Gated.log ⟨h.keyed, h.rows, h.events⟩ fun n config context ok => by simp

theorem Gated.ends {s : WorkflowSpec} {L L' : Ledger} {r : Except PyError Outcome}
    {r' : Except PyError RunRecord} (h : Gated s runId L) (hend : Ends L r r' L') :
    Gated s runId L' :=
  hend.invariant (fun f => h.setRun f) h

/-- The snapshot has a gate as completed only if it was approved. -/
theorem Gated.snapshot {s : WorkflowSpec} {L : Ledger} (h : Gated s runId L) {x : String}
    (hx : x ∈ completedIds L.snapshot) (hg : s.IsGate x) : .approved runId x ∈ L.events := by
  obtain ⟨row, hrow, rfl⟩ := List.mem_map.1 hx
  obtain ⟨hmem, hst⟩ := List.mem_filter.1 hrow
  have hstep : row ∈ L.steps := by
    unfold Ledger.snapshot at hmem
    split at hmem
    · cases hmem
    · exact hmem
  exact h.rows row hstep (by simpa using hst) hg

theorem Runs.gated {a : ExecuteArgs} {L L' : Ledger} {r : Except PyError RunRecord}
    (h : Runs env tenant a L r L') (hL : Gated a.definition.toWorkflowSpec a.runId L) :
    Gated a.definition.toWorkflowSpec a.runId L' := by
  cases h with
  | refused e => exact hL
  | begun htrace e => exact hL.begin a _
  | traversed htrace h hend =>
    refine Gated.ends (h.gated (hL.begin a _) (fun x hx => ?_) fun x hx hg => ?_) hend
    · have hroot : x ∈ a.definition.roots := a.definition.startNodes_eq ▸ hx
      refine ⟨[x], .start hroot, fun g hg hne => absurd (List.mem_singleton.1 hg) hne⟩
    · exact List.mem_append_left _ (hL.snapshot hx hg)

theorem Session.gated {E : Set Env} {w₀ w : World} (h₀ : w₀.Fresh tenant runId)
    (h : Session E tenant runId d w₀ w) :
    Gated d.toWorkflowSpec runId (w.ledger tenant runId) := by
  induction h with
  | refl =>
    rw [h₀]
    exact ⟨List.nodup_nil, fun row hrow => absurd hrow List.not_mem_nil, by simp [Guarded]⟩
  | tail _ hcall ih =>
    refine hcall.invariant ?_ (fun L a h => h.passStep a) (fun L a h => h.rejectStep a)
      (fun L f h => h.setRun f) ih
    rintro env - a L r L' rfl hdef hL hruns
    exact Gated.sameGraph hdef (hruns.gated (Gated.sameGraph hdef.symm hL))

/-- **Approval gates are not bypassed**: in the trace of a run, a dispatch of `n` comes after an
approval of every gate that all paths to `n` lead through. -/
theorem gate_not_bypassed {w₀ w : World} (h₀ : w₀.Fresh tenant runId)
    (h : Session Set.univ tenant runId d w₀ w) {g n : String} (hg : d.IsGate g)
    (hdom : d.Dominates g n) {pre post : List Event} {config : List (String × Json)}
    {context : Context} {ok : Bool}
    (htrace : w.trace = pre ++ .dispatched runId n config context ok :: post) :
    .approved runId g ∈ pre := by
  have hevents : w.eventsOf runId = pre.filter (·.runId = runId) ++
      .dispatched runId n config context ok :: post.filter (·.runId = runId) := by
    rw [World.eventsOf, htrace, List.filter_append, List.filter_cons_of_pos (by simp [Event.runId])]
  exact List.mem_of_mem_filter ((Session.gated h₀ h).events _ _ n config context ok hevents g hg hdom)

end

theorem payoutWorkflow_dominates : payoutWorkflow.Dominates "gate" "pay" := by
  intro p hp
  generalize hx : "pay" = x at hp
  cases hp with
  | start hx' =>
    subst hx
    exact absurd hx' (by decide)
  | edge h he hs =>
    obtain rfl := List.mem_singleton.1 he
    subst hs
    exact List.mem_append_left _ h.mem

/-- The payout was dispatched, behind the approval. -/
theorem gate_not_bypassed_payout : ∃ pre post config context,
    payoutApproved.trace = pre ++ .dispatched "RUN-1" "pay" config context true :: post ∧
      .approved "RUN-1" "gate" ∈ pre :=
  ⟨payoutApproved.trace.take 3, [], [], _, rfl,
    gate_not_bypassed payout_fresh payout_session ⟨_, rfl, rfl⟩ payoutWorkflow_dominates rfl⟩

end FlowMesh
