import FlowMesh.Library.Pool
import FlowMesh.Engine.ExactlyOnce
import FlowMesh.Api.Routers

/-!
# Requests on one run, side by side

Any number of requests that resume a run (`execute` calls, `approve_run`, `replay_dead_letter`)
interleave at their awaited calls. Each of them reads the run and its completed steps first and
executes on what it has read, without a lease on the run, so two requests that read the run
before either of them has stored its steps dispatch the same nodes (`not_effects_le_one_lockstep`).

The windows of `Async.Setting` are the right notion here: a request is engaged from its first
read of the run until it can change nothing more about it. In every interleaving in which no
request reads the run for the first time while another one is engaged, each node is successfully
dispatched at most once, in every state (`effects_le_one`), as long as no call behind a
successful dispatch raises.

Inside a window nobody else writes to the run. So it does not matter that a session answers a
second read of a row from the objects it has loaded.
-/

namespace FlowMesh

open Python Async

/-- A request that resumes a run. -/
inductive Request
  | execute (a : ExecuteArgs)
  | approveRun (runId : String) (a : ApprovalArgs)
  | replayDeadLetter (fallback : ℕ → Option ReplayResponse) (itemId : ℕ)

/-- The program of a request, for its effects. -/
def Request.prog (ev : Evaluator) (tenant : String) : Request → M Unit
  | .execute a => do
    let _ ← FlowMesh.execute ev tenant a
  | .approveRun runId a => do
    let _ ← FlowMesh.approveRun ev tenant runId a
  | .replayDeadLetter fallback itemId => do
    let _ ← FlowMesh.replayDeadLetter ev tenant fallback itemId

/-- The request is about the run; what a replay is about shows when it finds its item. -/
def Request.Targets (runId : String) : Request → Prop
  | .execute a => a.runId = runId
  | .approveRun runId' _ => runId' = runId
  | .replayDeadLetter _ _ => True

/-- The read of the run. -/
def Op.reads (tenant runId : String) : Op → Bool
  | .getRun tenant' runId' => tenant' = tenant ∧ runId' = runId
  | _ => false

/-- An item that is found belongs to the run. -/
def Op.About (runId : String) (o : Op) (w : World) : Prop :=
  ∀ tenant itemId item, o = .getDeadLetter tenant itemId → w.deadLetters.get? itemId = some item →
    item.runId = runId

/-- The requests of a tenant on a run. -/
def requests (env : Env) (tenant runId : String) : Setting Op Op.Res PyError World Ledger where
  handle := env.handle
  obs := fun w => w.ledger tenant runId
  quiet := Op.Quiet
  entry := Op.reads tenant runId
  side := Op.About runId
  obs_quiet := fun _ w ho => env.handle_quiet tenant runId ho w

section

variable {env : Env} {tenant runId : String}

/-- A program that starts with the read of the run and keeps the invariant. -/
theorem waits_of_does {p : M Unit} {k : Except PyError (Op.Res (.getRun tenant runId)) → M Unit}
    (hp : p = .call (.getRun tenant runId) k)
    (h : ∀ L, Once True L → env.Does tenant runId p L fun _ L' => Once True L') :
    (requests env tenant runId).Waits (Once True) p := by
  subst hp
  refine ⟨fun _ w hw => h _ hw w rfl, fun hentry => ?_⟩
  simp [requests, Op.reads] at hentry

/-- A program that keeps the ledger, in front of one that keeps the invariant. -/
theorem does_once_bind {α β : Type} {p : M α} {f : α → M β} {L : Ledger} (hL : Once True L)
    (hp : env.Does tenant runId p L fun _ L' => L' = L)
    (hf : ∀ a, env.Does tenant runId (f a) L fun _ L' => Once True L') :
    env.Does tenant runId (p >>= f) L fun _ L' => Once True L' := by
  refine Env.Does.bind hp ?_ ?_
  · rintro a L' rfl
    exact hf a
  · rintro e L' rfl
    exact hL

/-- The program is run for its effects only. -/
theorem does_once_discard {α : Type} {p : M α} {L : Ledger}
    (hp : env.Does tenant runId p L fun _ L' => Once True L') :
    env.Does tenant runId (do let _ ← p) L fun _ L' => Once True L' :=
  Env.Does.bind hp (fun _ _ h => Env.Does.ret h) fun _ _ h => h

theorem execute_once (hset : env.Settles) (a : ExecuteArgs) (hid : a.runId = runId) {L : Ledger}
    (hL : Once True L) :
    env.Does tenant runId (execute env.toEvaluator tenant a) L fun _ L' => Once True L' :=
  Env.Does.mono (execute_does a hid) fun _ _ h => h.once (fun _ => hset) hL

theorem resumeApproval_once (hset : env.Settles) (a : ApprovalArgs) {L : Ledger}
    (hL : Once True L) :
    env.Does tenant runId (resumeApproval env.toEvaluator tenant runId a) L
      fun _ L' => Once True L' := by
  refine Env.Does.mono (resumeApproval_does a) fun _ _ h => h.invariant hL ?_
    (fun _ a h => h.passStep a) (fun _ a h => h.rejectStep a) (fun _ f h => h.setRun f)
  intro run d L₁ r L' _ _ _ hL₁ hruns
  exact hruns.once (fun _ => hset) hL₁

/-! ## The requests keep the invariant -/

theorem waits_execute (hset : env.Settles) (a : ExecuteArgs) (hid : a.runId = runId) :
    (requests env tenant runId).Waits (Once True)
      ((Request.execute a).prog env.toEvaluator tenant) := by
  subst hid
  have htraced : ∀ traceId, a.Traced traceId → (requests env tenant a.runId).Waits (Once True) (do
      let _ ← executeTraced env.toEvaluator tenant a traceId) := by
    intro traceId htrace
    refine waits_of_does rfl fun L hL => does_once_discard ?_
    exact Env.Does.mono (executeTraced_does a htrace) fun _ _ h => h.once (fun _ => hset) hL
  simp only [Request.prog, execute]
  cases hid : orElse a.traceId none with
  | some id =>
    refine htraced id fun id' hid' => ?_
    rw [hid] at hid'
    exact Option.some.inj hid'
  | none =>
    -- the draw of a trace id comes before the read of the run
    rw [Prog.bind_assoc]
    refine Setting.waits_perform rfl trivial fun w id _ _ => ?_
    refine htraced id fun id' hid' => ?_
    rw [hid] at hid'
    cases hid'

theorem waits_approveRun (hset : env.Settles) (a : ApprovalArgs) :
    (requests env tenant runId).Waits (Once True)
      ((Request.approveRun runId a).prog env.toEvaluator tenant) := by
  refine waits_of_does rfl fun L hL => does_once_discard ?_
  unfold approveRun
  refine does_once_bind hL ?_ fun _ => ?_
  · unfold waitingRun
    refine Env.Does.quiet_seq trivial (fun _ => rfl) fun run => ?_
    split
    · exact Env.Does.raise rfl
    · split
      · exact Env.Does.raise rfl
      · exact Env.Does.ret rfl
  · refine Env.Does.bind (Ψ := fun _ L' => Once True L') (Env.Does.attempt ?_) ?_ fun _ _ h => h
    · exact resumeApproval_once hset _ hL
    · intro r L' hL'
      split
      · exact Env.Does.raise hL'
      · unfold auditedRun
        refine Env.Does.quiet_seq trivial (fun _ => hL') fun _ => ?_
        exact Env.Does.quiet_seq trivial (fun _ => hL') fun _ => Env.Does.ret hL'

theorem replayItem_once (hset : env.Settles) {item : DeadLetterRecord} {L : Ledger}
    (hL : Once True L) :
    env.Does tenant item.runId (replayItem env.toEvaluator tenant item) L
      fun _ L' => Once True L' := by
  refine Env.Does.assume fun hof => ?_
  unfold replayItem
  refine Env.Does.seq (Env.Does.getRun ?_ fun _ => hL)
  refine does_once_bind hL ?_ fun wf? => ?_
  · unfold replayWorkflow
    refine Env.Does.quiet_seq trivial (fun _ => rfl) fun wf => ?_
    split
    · exact Env.Does.ret rfl
    · exact Env.Does.quiet_seq trivial (fun _ => rfl) fun _ => Env.Does.ret rfl
  · have hmark : ∀ (L' : Ledger) (response : ReplayResponse), Once True L' →
        env.Does tenant item.runId (do
          perform (.markReplayed tenant item.id)
          return response) L' fun _ L' => Once True L' := fun L' response hL' =>
      Env.Does.quiet_seq trivial (fun _ => hL') fun _ => Env.Does.ret hL'
    split
    · next _ _ run steps wf hrun =>
      obtain ⟨run', hrun', heq⟩ := Option.map_eq_some_iff.1 hrun
      cases heq
      refine does_once_bind hL (parseDefinition_does _) fun wfDef => ?_
      refine Env.Does.bind (execute_once hset _ (hof _ hrun').1 hL) (fun reRun L' hL' => ?_)
        fun _ _ h => h
      split
      · exact hmark L' _ hL'
      · exact Env.Does.ret hL'
    · exact hmark L _ hL

theorem waits_replayDeadLetter (hset : env.Settles) (fallback : ℕ → Option ReplayResponse)
    (itemId : ℕ) :
    (requests env tenant runId).Waits (Once True)
      ((Request.replayDeadLetter fallback itemId).prog env.toEvaluator tenant) := by
  simp only [Request.prog, replayDeadLetter]
  rw [Prog.bind_assoc]
  refine Setting.waits_perform rfl trivial fun w item? hside hans => ?_
  cases item? with
  | some item =>
    -- the item that is found is one of this run
    have hget : (w.deadLetters.get? itemId).filter (·.tenantId = tenant) = some item := by
      change (env.handle (.getDeadLetter tenant itemId) w).1 = .ok (some item) at hans
      unfold Env.handle at hans
      split at hans
      · exact Except.ok.inj hans
      · cases hans
      · cases hans
    obtain rfl := hside tenant itemId item rfl (Option.filter_eq_some_iff.1 hget).1
    exact waits_of_does rfl fun L hL => does_once_discard (replayItem_once hset hL)
  | none =>
    cases fallback itemId with
    | some response => trivial
    | none => trivial

/-- Every request that resumes the run waits, and then keeps the invariant. -/
theorem waits_request (hset : env.Settles) {q : Request} (hq : q.Targets runId) :
    (requests env tenant runId).Waits (Once True) (q.prog env.toEvaluator tenant) := by
  cases q with
  | execute a => exact waits_execute hset a hq
  | approveRun runId' a =>
    obtain rfl := hq
    exact waits_approveRun hset a
  | replayDeadLetter fallback itemId => exact waits_replayDeadLetter hset fallback itemId

/-! ## Over every interleaving -/

/-- The pool in which the requests start. -/
def startPool (ev : Evaluator) (tenant : String) (w : World) (qs : List Request) :
    Pool Op Op.Res PyError World :=
  ⟨w, (qs.map (·.prog ev tenant)).map (⟨·, false⟩)⟩

/-- How often the node was successfully dispatched in the run. -/
def World.effects (w : World) (runId n : String) : ℕ :=
  (w.eventsOf runId).countP (Event.effectOf n)

/-- **Exactly once, side by side**: in every interleaving in which no request reads the run for
the first time while another one that has read it can still change it, each node is successfully
dispatched at most once, in every state. -/
theorem effects_le_one (hset : env.Settles) {w₀ : World} (h₀ : w₀.Fresh tenant runId)
    {qs : List Request} (hqs : ∀ q ∈ qs, q.Targets runId) {p : Pool Op Op.Res PyError World}
    (hrun : Relation.ReflTransGen
      ((requests env tenant runId).Step (requests env tenant runId).Exclusive)
      (startPool env.toEvaluator tenant w₀ qs) p) (n : String) :
    p.state.effects runId n ≤ 1 := by
  have hempty : Once True (w₀.ledger tenant runId) := by
    rw [h₀]
    exact once_empty
  have hwaits : ∀ prog ∈ qs.map (·.prog env.toEvaluator tenant),
      (requests env tenant runId).Waits (Once True) prog := by
    intro prog hprog
    obtain ⟨q, hq, rfl⟩ := List.mem_map.1 hprog
    exact waits_request hset (hqs q hq)
  have hinv := (Setting.inv_start hempty hwaits).run hrun
  -- whoever is engaged, once it has run to its end there is at most one success
  obtain ⟨prog, honce⟩ := hinv.completes
  have hend : ((prog.run env.handle p.state).2).effects runId n ≤ 1 :=
    (honce.effects trivial n).trans (honce.done n)
  have hmono : p.state.effects runId n ≤ ((prog.run env.handle p.state).2).effects runId n :=
    List.Sublist.countP_le ((env.trace_extends prog p.state).sublist.filter _)
  exact hmono.trans hend

end

/-! ### Two approvals -/

/-- A payout run is started, and approved twice. -/
def payoutRequests : List Request :=
  [.execute { definition := payoutWorkflow, runId := "RUN-1", inputPayload := .null },
    .approveRun "RUN-1"
      { approved := true, approverEmail := "ops", comment := none, decidedAt := "" },
    .approveRun "RUN-1"
      { approved := true, approverEmail := "ops", comment := none, decidedAt := "" }]

/-- The setting of the payout requests: no call raises and every dispatch succeeds. -/
def payoutSetting : Setting Op Op.Res PyError World Ledger :=
  requests (Env.steady fun _ => .ok .null) "acme" "RUN-1"

/-- The pool in which the payout requests start. -/
def payoutPool : Pool Op Op.Res PyError World :=
  startPool (Env.steady fun _ => .ok .null).toEvaluator "acme" payoutWorld payoutRequests

/-- The call that the thread makes next is not the look-up of a dead letter. -/
def noLookup (p : Pool Op Op.Res PyError World) (i : ℕ) : Bool :=
  match p.threads[i]? with
  | some ⟨.call (.getDeadLetter ..) _, _⟩ => false
  | _ => true

theorem about_of_noLookup {p : Pool Op Op.Res PyError World} {i : ℕ} {o : Op}
    {k : Except PyError o.Res → M Unit} {entered : Bool} (h : noLookup p i = true)
    (ht : p.threads[i]? = some ⟨.call o k, entered⟩) (runId : String) : o.About runId p.state := by
  rintro tenant itemId item rfl
  simp [noLookup, ht] at h

/-- One request after the other. -/
def oneByOne : List ℕ := List.replicate 20 0 ++ List.replicate 40 1 ++ List.replicate 40 2

/-- The two approvals in lockstep, after the start. -/
def lockstep : List ℕ := List.replicate 20 0 ++ (List.replicate 40 [1, 2]).flatten

/-- With one approval after the other, the payout is made once. -/
theorem effects_le_one_oneByOne :
    (payoutSetting.play payoutPool oneByOne).state.effects "RUN-1" "pay" = 1 ∧
      ∀ n, (payoutSetting.play payoutPool oneByOne).state.effects "RUN-1" n ≤ 1 := by
  have hset : (Env.steady fun _ => .ok .null).Settles := by
    intro o w _
    cases o <;> rfl
  have hqs : ∀ q ∈ payoutRequests, q.Targets "RUN-1" := by
    simp [payoutRequests, Request.Targets]
  have hrun : Relation.ReflTransGen (payoutSetting.Step payoutSetting.Exclusive) payoutPool
      (payoutSetting.play payoutPool oneByOne) := by
    refine Setting.run_play (fun p i => noLookup p i && payoutSetting.orderly p i) ?_
      (by decide +kernel)
    intro p i o k entered h ht
    obtain ⟨hlookup, horderly⟩ := Bool.and_eq_true_iff.1 h
    exact ⟨about_of_noLookup hlookup ht _, Setting.exclusive_of_orderly horderly⟩
  exact ⟨by decide +kernel, effects_le_one hset payout_fresh hqs hrun⟩

/-- With both approvals in lockstep, the payout is made twice. -/
theorem not_effects_le_one_lockstep :
    ¬ ∀ p, Relation.ReflTransGen (payoutSetting.Step fun _ _ => True) payoutPool p →
      ∀ n, p.state.effects "RUN-1" n ≤ 1 := by
  intro hall
  have hrun : Relation.ReflTransGen (payoutSetting.Step fun _ _ => True) payoutPool
      (payoutSetting.play payoutPool lockstep) :=
    Setting.run_play noLookup
      (fun p i o k entered h ht => ⟨about_of_noLookup h ht _, trivial⟩) (by decide +kernel)
  have htwo : (payoutSetting.play payoutPool lockstep).state.effects "RUN-1" "pay" = 2 := by
    decide +kernel
  have hone := hall _ hrun "pay"
  omega

end FlowMesh
