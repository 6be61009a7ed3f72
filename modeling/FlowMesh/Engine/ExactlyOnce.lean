import FlowMesh.Engine.Session

/-!
# Exactly once, call after call

Calls on one run, one after the other, leave each node at most one step that a dispatch turned
into `SUCCESS`, and a node that has such a step is not dispatched again (`exactly_once`). Neither
half needs anything of the environment: the step of a node is recorded before the node is
dispatched and is the only one of its traversal, and the next traversal begins with a snapshot of
all steps.

How often a dispatch *succeeds* is another matter, since the calls behind it can raise and send
the retry loop around again. Where they do not (`Env.Settles`), there are at most as many
successful dispatches of a node as there are such steps (`Once.effects`).
-/

namespace FlowMesh

open Python Async

/-! ## What is counted -/

/-- The step was turned into `SUCCESS` by a dispatch of the node: `_park_approval_step` records
the steps of gates, `_execute_node` those of all other nodes. -/
def RunStepRecord.Done (n : String) (s : RunStepRecord) : Prop :=
  s.status = .success ∧ s.nodeId = n ∧ s.nodeType ≠ "action.approval"

instance (n : String) : DecidablePred (RunStepRecord.Done n) := fun _ => instDecidableAnd

/-- The event is a dispatch of the node. -/
def Event.DispatchOf (n : String) : Event → Prop
  | .dispatched _ n' _ _ _ => n' = n
  | _ => False

/-- The event is a successful dispatch of the node. -/
def Event.effectOf (n : String) : Event → Bool
  | .dispatched _ n' _ _ ok => n' = n && ok
  | _ => false

namespace Ledger

/-- How many steps of the node a dispatch turned into `SUCCESS`. -/
def done (L : Ledger) (n : String) : ℕ := L.steps.countP (RunStepRecord.Done n)

/-- How many dispatches of the node succeeded. -/
def effects (L : Ledger) (n : String) : ℕ := L.events.countP (Event.effectOf n)

variable {L : Ledger} {n : String}

theorem done_add (s : RunStepRecord) : (L.add s).done n = L.done n + if s.Done n then 1 else 0 := by
  simp [done, List.countP_append, List.countP_singleton]

@[simp] theorem done_log (es : List Event) : (L.log es).done n = L.done n := rfl

@[simp] theorem done_setRun (f : RunRecord → RunRecord) : (L.setRun f).done n = L.done n := rfl

@[simp] theorem effects_add (s : RunStepRecord) : (L.add s).effects n = L.effects n := rfl

@[simp] theorem effects_setRun (f : RunRecord → RunRecord) : (L.setRun f).effects n = L.effects n :=
  rfl

@[simp] theorem effects_amend (stepId : ℕ) (f : RunStepRecord → RunStepRecord) :
    (L.amend stepId f).effects n = L.effects n := rfl

theorem effects_log (es : List Event) :
    (L.log es).effects n = L.effects n + es.countP (Event.effectOf n) := List.countP_append

/-- Rewriting a step that is and stays undone. -/
theorem done_amend {stepId : ℕ} {f : RunStepRecord → RunStepRecord}
    (hf : ∀ s ∈ L.steps, s.id = stepId → ¬ s.Done n ∧ ¬ (f s).Done n) :
    (L.amend stepId f).done n = L.done n := by
  unfold done amend
  rw [List.countP_map]
  refine List.countP_congr fun s hs => ?_
  by_cases hid : s.id = stepId
  · simp [hid, hf s hs hid]
  · simp [hid]

theorem done_eq_zero (h : ∀ s ∈ L.steps, s.nodeId = n → s.status ≠ .success) : L.done n = 0 := by
  refine List.countP_eq_zero.2 fun s hs hd => ?_
  obtain ⟨hst, hn, -⟩ := of_decide_eq_true hd
  exact h s hs hn hst

end Ledger

/-- The dispatches of one node, as successful dispatches of a node. -/
theorem countP_dispatches (runId : String) (node : WorkflowNode) (config : List (String × Json))
    (context : Context) (bs : List Bool) (n : String) :
    (dispatches runId node config context bs).countP (Event.effectOf n) =
      if node.id = n then bs.count true else 0 := by
  unfold dispatches
  rw [List.countP_map]
  split
  · next h =>
    refine List.countP_congr fun b _ => ?_
    simp [Event.effectOf, h]
  · next h => simp [Function.comp_def, Event.effectOf, h]

/-! ## The invariant -/

/-- Each node has at most one step that a dispatch turned into `SUCCESS`; and if the calls behind
the dispatches settle (`S`), the node's dispatches succeeded no more often than that. -/
structure Once (S : Prop) (L : Ledger) : Prop where
  keyed : L.Keyed
  orphan : L.run = none → L.steps = []
  waiting : ∀ s ∈ L.steps, s.status = .waitingApproval → s.nodeType = "action.approval"
  done : ∀ n, L.done n ≤ 1
  effects : S → ∀ n, L.effects n ≤ L.done n

section

variable {S : Prop} {env : Env} {tenant runId : String} {L L' : Ledger}

theorem once_empty : Once S ⟨none, [], []⟩ where
  keyed := List.nodup_nil
  orphan := fun _ => rfl
  waiting := fun _ hs => absurd hs List.not_mem_nil
  done := fun _ => Nat.zero_le _
  effects := fun _ _ => Nat.le_refl _

theorem Once.setRun (h : Once S L) (f : RunRecord → RunRecord) : Once S (L.setRun f) where
  keyed := h.keyed
  orphan := fun hr => h.orphan (Option.map_eq_none_iff.1 hr)
  waiting := h.waiting
  done := h.done
  effects := h.effects

/-- Rewriting the waiting step: it is the step of a gate, and stays one. -/
theorem Once.amend_waiting (h : Once S L) {s : RunStepRecord} (hw : L.waiting = some s)
    {f : RunStepRecord → RunStepRecord} (hid : ∀ s, (f s).id = s.id)
    (htype : ∀ s, (f s).nodeType = s.nodeType) : Once S (L.amend s.id f) := by
  obtain ⟨hs, hst⟩ := waiting_mem hw
  have heq : ∀ s' ∈ L.steps, s'.id = s.id → s' = s := fun s' hs' hid' =>
    h.keyed.eq_of_id hs' hs hid'
  have hgate : s.nodeType = "action.approval" := h.waiting s hs hst
  have hdone : ∀ n, (L.amend s.id f).done n = L.done n := fun n =>
    Ledger.done_amend fun s' hs' hid' => by
      rw [heq s' hs' hid']
      exact ⟨fun hd => hd.2.2 hgate, fun hd => hd.2.2 ((htype s).trans hgate)⟩
  refine ⟨h.keyed.amend _ hid, fun hr => ?_, fun s' hs' hst' => ?_, fun n => ?_, fun hS n => ?_⟩
  · simp [Ledger.amend, h.orphan hr]
  · obtain ⟨s'', hs'', rfl⟩ := List.mem_map.1 hs'
    by_cases hid'' : s''.id = s.id
    · rw [if_pos hid'', htype, heq s'' hs'' hid'']
      exact hgate
    · rw [if_neg hid''] at hst' ⊢
      exact h.waiting s'' hs'' hst'
  · rw [hdone]
    exact h.done n
  · rw [hdone]
    exact h.effects hS n

/-- Events that are no successful dispatches. -/
theorem Once.log (h : Once S L) {es : List Event} (hes : ∀ n, es.countP (Event.effectOf n) = 0) :
    Once S (L.log es) where
  keyed := h.keyed
  orphan := h.orphan
  waiting := h.waiting
  done := h.done
  effects := fun hS n => by
    rw [Ledger.effects_log, hes n]
    exact h.effects hS n

theorem Once.rejectStep (h : Once S L) (a : ApprovalArgs) : Once S (L.rejectStep a) := by
  unfold Ledger.rejectStep
  split
  · exact h
  · next hw => exact h.amend_waiting hw (fun _ => rfl) fun _ => rfl

theorem Once.passStep (h : Once S L) (a : ApprovalArgs) : Once S (L.passStep runId a) := by
  unfold Ledger.passStep
  split
  · exact h
  · next hw =>
    refine Once.log (h.amend_waiting hw ?_ ?_) fun n => ?_
    all_goals intros; rfl

/-- A step of a node without steps in status `SUCCESS`, and dispatches of this node. -/
theorem Once.extend (h : Once S L) {node : WorkflowNode} {context : Context}
    {config : List (String × Json)} {row : RunStepRecord} {bs : List Bool}
    (hrun : L.run ≠ none) (hnew : row.id ∉ L.steps.map (·.id)) (hof : StepOf tenant runId node row)
    (hwait : row.status = .waitingApproval → row.nodeType = "action.approval")
    (hundone : ∀ s ∈ L.steps, s.nodeId = node.id → s.status ≠ .success)
    (hbs : S → bs.count true ≤ if row.Done node.id then 1 else 0) :
    Once S ((L.add row).log (dispatches runId node config context bs)) where
  keyed := h.keyed.add hnew
  orphan := fun hr => absurd hr hrun
  waiting := by
    intro s hs hst
    rcases List.mem_append.1 hs with hs | hs
    · exact h.waiting s hs hst
    · obtain rfl := List.mem_singleton.1 hs
      exact hwait hst
  done := by
    intro n
    rw [Ledger.done_log, Ledger.done_add]
    by_cases hn : node.id = n
    · rw [← hn, Ledger.done_eq_zero hundone]
      split <;> omega
    · rw [if_neg fun hd => hn (hof.nodeId.symm.trans hd.2.1)]
      exact h.done n
  effects := by
    intro hS n
    rw [Ledger.done_log, Ledger.done_add, Ledger.effects_log, Ledger.effects_add,
      countP_dispatches]
    have hold := h.effects hS n
    by_cases hn : node.id = n
    · subst hn
      have := hbs hS
      rw [if_pos rfl]
      omega
    · rw [if_neg hn]
      omega

theorem Once.executes (h : Once S L) (hS : S → env.Settles) {node : WorkflowNode}
    {context : Context} {r : Except PyError StepResult}
    (hx : Executes env tenant runId node context L r L') (ht : node.type ≠ "action.approval")
    (hrun : L.run ≠ none) (hundone : ∀ s ∈ L.steps, s.nodeId = node.id → s.status ≠ .success) :
    Once S L' := by
  cases hx with
  | unrecorded e => exact h
  | @succeeded row bs res hnew hof hstatus houtput hduration hdispatch hbs =>
    refine h.extend hrun hnew hof (fun hst => ?_) hundone fun hs => ?_
    · rw [hstatus] at hst
      cases hst
    · have hnone : bs.count true = 0 := by
        rw [List.count_eq_zero]
        intro hmem
        cases hbs (hS hs) true hmem
      rw [if_pos ⟨hstatus, hof.nodeId, by rw [hof.nodeType]; exact ht⟩, List.count_append, hnone]
      decide
  | @stopped row bs r hnew hof hr hwait hsettles =>
    refine h.extend hrun hnew hof (fun hst => absurd hst hwait) hundone fun hs => ?_
    have hnone : bs.count true = 0 := by
      rw [List.count_eq_zero]
      intro hmem
      cases (hsettles (hS hs)).2 true hmem
    omega

theorem Once.parks (h : Once S L) {node : WorkflowNode} {r : Except PyError Unit}
    (hp : Parks tenant runId node L r L') (ht : node.type = "action.approval")
    (hrun : L.run ≠ none) (hundone : ∀ s ∈ L.steps, s.nodeId = node.id → s.status ≠ .success) :
    Once S L' := by
  refine hp.invariant (fun row hnew hof _ => ?_) (fun L f hL => hL.setRun f) h
  have hext : Once S ((L.add row).log (dispatches runId node [] ⟨.null, [], "", ""⟩ [])) :=
    h.extend hrun hnew hof (fun _ => hof.nodeType.trans ht) hundone fun _ => Nat.zero_le _
  simpa [dispatches] using hext

/-- One traversal: a node is executed only if the snapshot has no step of it in status `SUCCESS`,
and only once. -/
theorem Traverses.once {d : WorkflowDefinition} {completed : List String} {t : Traversal}
    {r : Except PyError Outcome} (h : Traverses env tenant runId d completed t L r L')
    (hS : S → env.Settles) (hL : Once S L) (hrun : L.run ≠ none)
    (hundone : ∀ n, n ∉ completed → n ∉ t.visited → ∀ s ∈ L.steps, s.nodeId = n →
      s.status ≠ .success) : Once S L' := by
  induction h with
  | finished hq => exact hL
  | skip hq hv h ih => exact ih hL hrun hundone
  | reuse hq hv hn hc h ih =>
    refine ih hL hrun fun n hnc hnv => hundone n hnc fun hmem => hnv ?_
    exact List.mem_append_left _ hmem
  | parked hq hv hn hc ht hp =>
    have hid := (d.node?_eq_some.1 hn).2
    exact hL.parks hp ht hrun (hid ▸ hundone _ hc hv)
  | stopped hq hv hn hc ht hx hr hr' =>
    have hid := (d.node?_eq_some.1 hn).2
    exact hL.executes hS hx ht hrun (hid ▸ hundone _ hc hv)
  | executed hq hv hn hc ht hx h ih =>
    have hid := (d.node?_eq_some.1 hn).2
    have hL₁ := hL.executes hS hx ht hrun (hid ▸ hundone _ hc hv)
    obtain ⟨row, bs, -, hof, -, -, -, -, -, rfl⟩ := hx.success_inv
    refine ih hL₁ hrun fun n hnc hnv s hs hsn => ?_
    -- the step that was added belongs to a node that is visited now
    rcases List.mem_append.1 hs with hs | hs
    · exact hundone n hnc (fun hmem => hnv (List.mem_append_left _ hmem)) s hs hsn
    · rw [List.mem_singleton.1 hs, hof.nodeId, hid] at hsn
      exact absurd (List.mem_append_right _ (List.mem_singleton.2 hsn.symm)) hnv

theorem mem_completedIds {steps : List RunStepRecord} {s : RunStepRecord} (hs : s ∈ steps)
    (hst : s.status = .success) : s.nodeId ∈ completedIds steps :=
  List.mem_map.2 ⟨s, List.mem_filter.2 ⟨hs, by simpa using hst⟩, rfl⟩

/-- The snapshot has every step. -/
theorem Once.snapshot (h : Once S L) : L.snapshot = L.steps := by
  unfold Ledger.snapshot
  cases hr : L.run with
  | none => exact (h.orphan hr).symm
  | some run => rfl

theorem Once.begin (h : Once S L) (a : ExecuteArgs) (traceId : String) :
    Once S (L.begin tenant a traceId) := by
  unfold Ledger.begin
  apply Once.log
  · exact ⟨h.keyed, nofun, h.waiting, h.done, h.effects⟩
  · exact fun _ => rfl

theorem Once.ends (h : Once S L) {r : Except PyError Outcome} {r' : Except PyError RunRecord}
    (hend : Ends L r r' L') : Once S L' :=
  hend.invariant (fun f => h.setRun f) h

theorem Runs.once {a : ExecuteArgs} {r : Except PyError RunRecord} (h : Runs env tenant a L r L')
    (hS : S → env.Settles) (hL : Once S L) : Once S L' := by
  cases h with
  | refused e => exact hL
  | begun htrace e => exact hL.begin a _
  | traversed htrace h hend =>
    refine Once.ends (h.once hS (hL.begin a _) (by simp [Ledger.begin]) ?_) hend
    intro n hnc _ s hs hsn hst
    rw [hL.snapshot] at hnc
    exact hnc (hsn ▸ mem_completedIds hs hst)

/-! ## Later calls -/

/-- `L'` is later than `L`: the steps in status `SUCCESS` are still there, and their nodes were
not dispatched since. -/
structure Later (L L' : Ledger) : Prop where
  keeps : ∀ s ∈ L.steps, s.status = .success → s ∈ L'.steps
  undispatched : ∃ new, L'.events = L.events ++ new ∧
    ∀ s ∈ L.steps, s.status = .success → ∀ e ∈ new, ¬ e.DispatchOf s.nodeId

theorem Later.refl (L : Ledger) : Later L L :=
  ⟨fun _ hs _ => hs, [], by simp, fun _ _ _ e he => absurd he List.not_mem_nil⟩

theorem Later.trans {L₁ L₂ L₃ : Ledger} (h : Later L₁ L₂) (h' : Later L₂ L₃) : Later L₁ L₃ := by
  obtain ⟨new, hnew, hnone⟩ := h.undispatched
  obtain ⟨new', hnew', hnone'⟩ := h'.undispatched
  refine ⟨fun s hs hst => h'.keeps s (h.keeps s hs hst) hst, new ++ new', ?_, ?_⟩
  · rw [hnew', hnew, List.append_assoc]
  · intro s hs hst e he
    rcases List.mem_append.1 he with he | he
    · exact hnone s hs hst e he
    · exact hnone' s (h.keeps s hs hst) hst e he

/-- A change that dispatches nothing and rewrites no step in status `SUCCESS`. -/
theorem Later.of_quiet {es : List Event} (hes : ∀ e ∈ es, ∀ n, ¬ e.DispatchOf n)
    (hevents : L'.events = L.events ++ es)
    (hkeeps : ∀ s ∈ L.steps, s.status = .success → s ∈ L'.steps) : Later L L' :=
  ⟨hkeeps, es, hevents, fun s _ _ e he => hes e he s.nodeId⟩

/-- Rewriting the waiting step. -/
theorem Once.keeps_amend (h : Once S L) {s : RunStepRecord} (hw : L.waiting = some s)
    (f : RunStepRecord → RunStepRecord) :
    ∀ s' ∈ L.steps, s'.status = .success → s' ∈ (L.amend s.id f).steps := by
  intro s' hs' hst'
  obtain ⟨hs, hst⟩ := waiting_mem hw
  refine List.mem_map.2 ⟨s', hs', if_neg fun hid => ?_⟩
  rw [h.keyed.eq_of_id hs' hs hid, hst] at hst'
  cases hst'

theorem Once.later_rejectStep (h : Once S L) (a : ApprovalArgs) : Later L (L.rejectStep a) := by
  unfold Ledger.rejectStep
  split
  · exact .refl L
  · next hw =>
    have hnone : ∀ e ∈ ([] : List Event), ∀ n, ¬ e.DispatchOf n := by simp
    exact .of_quiet hnone (by simp) (h.keeps_amend hw _)

theorem Once.later_passStep (h : Once S L) (a : ApprovalArgs) : Later L (L.passStep runId a) := by
  unfold Ledger.passStep
  split
  · exact .refl L
  · next hw => exact .of_quiet (by simp [Event.DispatchOf]) rfl (h.keeps_amend hw _)

theorem later_setRun (f : RunRecord → RunRecord) : Later L (L.setRun f) := ⟨(Later.refl L).1,
  (Later.refl L).2⟩

theorem Once.later_runs (h : Once S L) {a : ExecuteArgs} {r : Except PyError RunRecord}
    (hruns : Runs env tenant a L r L') : Later L L' := by
  have hbegin : ∀ traceId, Later L (L.begin tenant a traceId) := fun traceId =>
    .of_quiet (by simp [Event.DispatchOf]) rfl fun s hs _ => hs
  cases hruns with
  | refused e => exact .refl L
  | begun htrace e => exact hbegin _
  | @traversed traceId r r' L₁ _ htrace ht hend =>
    obtain ⟨rows, es, hrows, hes, hall⟩ := ht.extends
    have htraverse : Later L L₁ := by
      refine ⟨fun s hs _ => ?_, .executing a.runId a.definition.toWorkflowSpec :: es, ?_, ?_⟩
      · rw [hrows]
        exact List.mem_append_left _ hs
      · rw [hes]
        simp [Ledger.begin]
      · intro s hs hst e he hd
        rcases List.mem_cons.1 he with rfl | he
        · exact hd
        · obtain ⟨n, config, context, ok, rfl, hn⟩ := hall e he
          rw [h.snapshot] at hn
          exact hn (hd ▸ mem_completedIds hs hst)
    refine htraverse.trans ?_
    cases hend with
    | raised e => exact .refl _
    | unstored o e => exact .refl _
    | closed o r =>
      cases o with
      | parked => exact .refl _
      | finished lastOutput => exact later_setRun _
      | failed error => exact later_setRun _

/-! ## Over sessions -/

theorem Call.once {E : Set Env} {d : WorkflowDefinition} {w w' : World} (hS : S → ∀ env ∈ E, env.Settles)
    (h : Call E tenant runId d w w') (hw : Once S (w.ledger tenant runId)) :
    Once S (w'.ledger tenant runId) ∧ Later (w.ledger tenant runId) (w'.ledger tenant runId) := by
  refine h.invariant (I := fun L => Once S L ∧ Later (w.ledger tenant runId) L) ?_ ?_ ?_ ?_
    ⟨hw, .refl _⟩
  · rintro env henv a L r L' - - ⟨hL, hlater⟩ hruns
    exact ⟨hruns.once (fun hs => hS hs env henv) hL, hlater.trans (hL.later_runs hruns)⟩
  · rintro L a ⟨hL, hlater⟩
    exact ⟨hL.passStep a, hlater.trans (hL.later_passStep a)⟩
  · rintro L a ⟨hL, hlater⟩
    exact ⟨hL.rejectStep a, hlater.trans (hL.later_rejectStep a)⟩
  · rintro L f ⟨hL, hlater⟩
    exact ⟨hL.setRun f, hlater.trans (later_setRun f)⟩

theorem Session.once {E : Set Env} {d : WorkflowDefinition} {w w' : World}
    (hS : S → ∀ env ∈ E, env.Settles) (h : Session E tenant runId d w w')
    (hw : Once S (w.ledger tenant runId)) :
    Once S (w'.ledger tenant runId) ∧ Later (w.ledger tenant runId) (w'.ledger tenant runId) := by
  induction h with
  | refl => exact ⟨hw, .refl _⟩
  | tail _ hcall ih =>
    obtain ⟨honce, hlater⟩ := hcall.once hS ih.1
    exact ⟨honce, ih.2.trans hlater⟩

/-- **Exactly once, call after call**: each node has at most one step that a dispatch turned into
`SUCCESS`, and a node with a step in status `SUCCESS` is not dispatched by any later call. -/
theorem exactly_once {d : WorkflowDefinition} {w₀ w : World} (h₀ : w₀.Fresh tenant runId)
    (h : Session Set.univ tenant runId d w₀ w) :
    (∀ n, (w.stepsOf tenant runId).countP (RunStepRecord.Done n) ≤ 1) ∧
      ∀ w', Session Set.univ tenant runId d w w' → ∀ s ∈ w.stepsOf tenant runId,
        s.status = .success → ∃ new, w'.eventsOf runId = w.eventsOf runId ++ new ∧
          ∀ e ∈ new, ¬ e.DispatchOf s.nodeId := by
  have hempty : Once False (w₀.ledger tenant runId) := by
    rw [h₀]
    exact once_empty
  have honce := (Session.once False.elim h hempty).1
  refine ⟨honce.done, fun w' h' s hs hst => ?_⟩
  obtain ⟨new, hnew, hnone⟩ := (Session.once False.elim h' honce).2.undispatched
  exact ⟨new, hnew, hnone s hs hst⟩

end

/-- The payout was made once. -/
theorem exactly_once_payout :
    (payoutApproved.stepsOf "acme" "RUN-1").countP (RunStepRecord.Done "pay") = 1 ∧
      ∀ n, (payoutApproved.stepsOf "acme" "RUN-1").countP (RunStepRecord.Done n) ≤ 1 :=
  ⟨rfl, (exactly_once payout_fresh payout_session).1⟩

end FlowMesh
