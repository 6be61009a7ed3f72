import FlowMesh.Api.Routers
import FlowMesh.Engine.Ledger
import FlowMesh.Library.Crew

/-!
# After a rejection

What approvals, rejections, replays of dead letters and further executions can do to a run that
was rejected, with the calls of all of them in any order. An approval or a rejection reads the
status and raises. `execute` reads the run, and sets it to `RUNNING` whatever its status is; a
replay of a dead letter of the run comes to the same statement.

So the run stays rejected, and none of its nodes is dispatched or parked, exactly as long as that
statement does not take effect (`final_iff`).
-/

namespace FlowMesh

open Python Database Async

/-! ## Requests -/

/-- A request about the run that comes after the rejection. -/
inductive LaterRequest
  | approve (a : ApprovalArgs)
  | reject (a : ApprovalArgs)
  | replayDeadLetter (fallback : ℕ → Option ReplayResponse) (itemId : ℕ)
  | execute (a : ExecuteArgs)

section Requests

variable (ev : Evaluator) (tenant runId : String)

/-- The handler of a request. -/
def LaterRequest.prog : LaterRequest → M Unit
  | .approve a => do
    let _ ← approveRun ev tenant runId a
  | .reject a => do
    let _ ← rejectRun ev tenant runId a
  | .replayDeadLetter fallback itemId => do
    let _ ← FlowMesh.replayDeadLetter ev tenant fallback itemId
  | .execute a => do
    let _ ← FlowMesh.execute ev tenant { a with runId }

/-- The requests come in at a world. -/
def laterCrew (w : World) (requests : List LaterRequest) : Crew Op Op.Res PyError World Unit :=
  ⟨w, requests.map (LaterRequest.prog ev tenant runId)⟩

end Requests

/-- What a call does in an environment. -/
def callIn (_i : ℕ) (env : Env) : Handler Op Op.Res PyError World := env.handle

/-- The event is a dispatch. -/
def Event.isDispatched : Event → Bool
  | .dispatched .. => true
  | _ => false

/-- The run is rejected, and since `w₀` none of its nodes was dispatched or parked. -/
structure Final (tenant runId : String) (w₀ w : World) : Prop where
  status : ∃ run, w.run? tenant runId = some run ∧ run.status = .rejected
  dispatched : (w.eventsOf runId).filter Event.isDispatched =
    (w₀.eventsOf runId).filter Event.isDispatched
  parked : (w.stepsOf tenant runId).filter (·.status = .waitingApproval) =
    (w₀.stepsOf tenant runId).filter (·.status = .waitingApproval)

/-- If the call sets the run to `RUNNING`, it raises before that takes effect. -/
def Stopped (runId : String) (_i : ℕ) (env : Env) (o : Op) (w : World) : Prop :=
  ∀ definition, o = .setRunning runId definition → ∃ e, env.faultOf o w = some (e, false)

/-- The dead letter, if there is one, is of the run. -/
def World.Owns (tenant runId : String) (w : World) (itemId : ℕ) : Prop :=
  ∀ item ∈ w.deadLetters, item.id = itemId → item.tenantId = tenant → item.runId = runId

/-! ## The calls before a run is started -/

/-- The calls that read, and the one that marks a dead letter. -/
def Op.Idle : Op → Prop
  | .getRun .. => True
  | .getWorkflow .. => True
  | .listWorkflows _ => True
  | .getDeadLetter .. => True
  | .markReplayed .. => True
  | .uuid => True
  | _ => False

theorem Op.Idle.quiet {o : Op} (ho : o.Idle) : o.Quiet := by
  cases o <;> first | exact ho.elim | trivial

section Idle

variable {tenant runId : String} {w₀ w : World} {env : Env} {o : Op}

/-- The dead letters stay those of their runs. -/
theorem Op.Idle.deadLetters (ho : o.Idle) {item : DeadLetterRecord}
    (hitem : item ∈ (env.handle o w).2.deadLetters) :
    ∃ item' ∈ w.deadLetters, item.id = item'.id ∧ item.tenantId = item'.tenantId ∧
      item.runId = item'.runId := by
  have heffect : ∀ item ∈ (env.effect o w).2.deadLetters, ∃ item' ∈ w.deadLetters,
      item.id = item'.id ∧ item.tenantId = item'.tenantId ∧ item.runId = item'.runId := by
    intro item hitem
    cases o with
    | markReplayed tenant itemId =>
      obtain ⟨item', hmem, rfl⟩ := (Table.mem_of_rows_map rfl).1 hitem
      refine ⟨item', hmem, ?_⟩
      split <;> exact ⟨rfl, rfl, rfl⟩
    | getRun => exact ⟨item, hitem, rfl, rfl, rfl⟩
    | getWorkflow => exact ⟨item, hitem, rfl, rfl, rfl⟩
    | listWorkflows => exact ⟨item, hitem, rfl, rfl, rfl⟩
    | getDeadLetter => exact ⟨item, hitem, rfl, rfl, rfl⟩
    | uuid => exact ⟨item, hitem, rfl, rfl, rfl⟩
    | _ => exact ho.elim
  unfold Env.handle at hitem
  split at hitem
  · exact heffect item hitem
  · exact ⟨item, hitem, rfl, rfl, rfl⟩
  · exact heffect item hitem

/-! ## The contract -/

/-- The ledger of the run is as it was, and so are the runs of its dead letters. -/
structure Dormant (tenant runId : String) (w₀ w : World) : Prop where
  ledger : w.ledger tenant runId = w₀.ledger tenant runId
  owns : ∀ itemId, w₀.Owns tenant runId itemId → w.Owns tenant runId itemId

theorem Dormant.final (h : Dormant tenant runId w₀ w)
    (hrejected : ∃ run, w₀.run? tenant runId = some run ∧ run.status = .rejected) :
    Final tenant runId w₀ w where
  status := by
    have hrun : w.run? tenant runId = w₀.run? tenant runId := congrArg Ledger.run h.ledger
    rwa [hrun]
  dispatched := by
    have hevents : w.eventsOf runId = w₀.eventsOf runId := congrArg Ledger.events h.ledger
    rw [hevents]
  parked := by
    have hsteps : w.stepsOf tenant runId = w₀.stepsOf tenant runId := congrArg Ledger.steps h.ledger
    rw [hsteps]

theorem Dormant.idle (h : Dormant tenant runId w₀ w) (ho : o.Idle) :
    Dormant tenant runId w₀ (env.handle o w).2 where
  ledger := (env.handle_quiet tenant runId ho.quiet w).trans h.ledger
  owns := by
    intro itemId howns item hitem hid htenant
    obtain ⟨item', hmem, hid', htenant', hrun⟩ := ho.deadLetters hitem
    rw [hrun]
    exact h.owns itemId howns item' hmem (hid' ▸ hid) (htenant' ▸ htenant)

/-- Nobody changes the ledger. -/
def dormantContract (tenant runId : String) (w₀ : World) : Crew.Contract World :=
  ⟨Dormant tenant runId w₀, fun _ _ _ => True⟩

/-- The program keeps the run as it is while its start is stopped. -/
abbrev Leaves (tenant runId : String) (w₀ : World) (i : ℕ) {α : Type} (p : M α)
    (Q : Except PyError α → World → Prop) (w : World) : Prop :=
  (dormantContract tenant runId w₀).Upholds callIn (Stopped runId) i p Q w

section Programs

variable {i : ℕ} {ev : Evaluator}

open Crew.Contract (Upholds)

/-- An idle call, and what is known of its answer. -/
theorem leaves_idle (ho : o.Idle) {Q : Except PyError o.Res → Prop}
    (hQ : ∀ (env : Env) (w : World), Dormant tenant runId w₀ w → Q (env.handle o w).1) :
    Leaves tenant runId w₀ i (perform o) (fun r _ => Q r) w := by
  apply Upholds.perform
  intro w' _ hinv env _
  exact ⟨Dormant.idle hinv ho, trivial, hQ env w' hinv⟩

theorem leaves_uses {α : Type} {p : M α} (hp : p.Uses Op.Idle) :
    Leaves tenant runId w₀ i p (fun _ _ => True) w := by
  induction p generalizing w with
  | pure a => exact trivial
  | throw e => exact trivial
  | call o k ih =>
    intro w' _ hinv env _
    exact ⟨Dormant.idle hinv hp.1, trivial, ih _ (hp.2 _)⟩

variable (hrejected : ∃ run, w₀.run? tenant runId = some run ∧ run.status = .rejected)
include hrejected

/-- The run is read as rejected. -/
theorem leaves_getRun : Leaves tenant runId w₀ i (perform (.getRun tenant runId))
    (fun r _ => ∀ x, r = .ok x → ∃ run steps, x = some (run, steps) ∧ run.id = runId ∧
      run.status = .rejected) w := by
  refine leaves_idle (o := .getRun tenant runId) trivial fun env w hdormant x hx => ?_
  obtain ⟨run, hrun, hstatus⟩ := (hdormant.final hrejected).status
  rcases env.handle_cases tenant runId (.getRun tenant runId) w with
    ⟨-, hanswer, -⟩ | ⟨e, b, -, hanswer, -⟩
  · rw [hanswer] at hx
    simp only [Env.effect, hrun, Option.map_some, Except.ok.injEq] at hx
    exact ⟨run, _, hx.symm, (World.run?_eq_some.1 hrun).2.1, hstatus⟩
  · rw [hanswer] at hx
    cases hx

theorem leaves_waitingRun : Leaves tenant runId w₀ i (waitingRun tenant runId)
    (fun r _ => ∃ e, r = .error e) w := by
  refine Upholds.bind (leaves_getRun hrejected) ?_ fun e _ _ => ⟨e, rfl⟩
  intro x w hx
  obtain ⟨run, steps, rfl, -, hstatus⟩ := hx x rfl
  simp only [hstatus, ne_eq, reduceCtorEq, not_false_eq_true, if_true]
  exact Upholds.raise ⟨_, rfl⟩

omit hrejected in
/-- A start that is stopped raises. -/
theorem leaves_setRunning (definition : WorkflowSpec) :
    Leaves tenant runId w₀ i (perform (.setRunning runId definition))
      (fun r _ => ∃ e, r = .error e) w := by
  apply Upholds.perform
  intro w' _ hinv env hG
  obtain ⟨e, hfault⟩ := hG definition rfl
  have hhandle : callIn i env (.setRunning runId definition) w' =
      (.error e, { w' with tick := w'.tick + 1 }) := by
    simp only [callIn, Env.handle, hfault]
  rw [hhandle]
  exact ⟨⟨hinv.ledger, hinv.owns⟩, trivial, e, rfl⟩

theorem leaves_execute (a : ExecuteArgs) (ha : a.runId = runId) :
    Leaves tenant runId w₀ i (execute ev tenant a) (fun r _ => ∃ e, r = .error e) w := by
  have htraced : ∀ traceId w, Leaves tenant runId w₀ i (executeTraced ev tenant a traceId)
      (fun r _ => ∃ e, r = .error e) w := by
    intro traceId w
    unfold executeTraced
    rw [ha]
    refine Upholds.bind (leaves_getRun hrejected) ?_ fun e _ _ => ⟨e, rfl⟩
    intro x w hx
    obtain ⟨run, steps, rfl, rfl, -⟩ := hx x rfl
    refine Upholds.bind (leaves_setRunning _) ?_ fun e _ _ => ⟨e, rfl⟩
    rintro _ _ ⟨e, he⟩
    cases he
  unfold execute
  cases orElse a.traceId none with
  | some traceId => exact htraced traceId w
  | none =>
    refine Upholds.bind (leaves_idle (o := .uuid) (Q := fun _ => True) trivial fun _ _ _ =>
      trivial) ?_ fun e _ _ => ⟨e, rfl⟩
    exact fun traceId w _ => htraced traceId w

theorem leaves_replayItem (item : DeadLetterRecord) (hitem : item.runId = runId) :
    Leaves tenant runId w₀ i (replayItem ev tenant item) (fun _ _ => True) w := by
  unfold replayItem
  rw [hitem]
  refine Upholds.bind (leaves_getRun hrejected) ?_ fun _ _ _ => trivial
  intro x w hx
  obtain ⟨run, steps, rfl, hid, -⟩ := hx x rfl
  have hworkflow : (replayWorkflow tenant item.workflowId).Uses Op.Idle := by
    refine .bind (.perform trivial) fun wf => ?_
    cases wf with
    | some wf => exact .ret _
    | none => exact .bind (.perform trivial) fun _ => .ret _
  refine Upholds.bind (leaves_uses hworkflow) ?_ fun _ _ _ => trivial
  rintro (_ | wf) w -
  · refine leaves_uses ?_
    exact .bind (.perform trivial) fun _ => .ret _
  · have hparse : (parseDefinition wf.definitionJson).Uses Op.Idle := by
      unfold parseDefinition
      split
      · exact .ret _
      · exact .raise _
    refine Upholds.bind (leaves_uses hparse) ?_ fun _ _ _ => trivial
    intro d w _
    refine Upholds.bind (leaves_execute hrejected _ hid) ?_ fun _ _ _ => trivial
    rintro _ _ ⟨e, he⟩
    cases he

theorem leaves_replayDeadLetter (fallback : ℕ → Option ReplayResponse) {itemId : ℕ}
    (howns : w₀.Owns tenant runId itemId) :
    Leaves tenant runId w₀ i (replayDeadLetter ev tenant fallback itemId) (fun _ _ => True) w := by
  refine Upholds.bind (leaves_idle (o := .getDeadLetter tenant itemId)
    (Q := fun r => ∀ item, r = .ok (some item) → item.runId = runId) trivial ?_) ?_
    fun _ _ _ => trivial
  · intro env w hdormant item hanswer
    rcases env.handle_cases tenant runId (.getDeadLetter tenant itemId) w with
      ⟨-, heffect, -⟩ | ⟨e, b, -, herror, -⟩
    · rw [heffect] at hanswer
      simp only [Env.effect, Except.ok.injEq, Option.filter_eq_some_iff, Table.get?_eq_some,
        decide_eq_true_eq] at hanswer
      obtain ⟨⟨hmem, hid⟩, htenant⟩ := hanswer
      exact hdormant.owns itemId howns item hmem hid htenant
    · rw [herror] at hanswer
      cases hanswer
  · rintro (_ | item) w hitem
    · simp only
      split
      · exact Upholds.ret trivial
      · exact Upholds.raise trivial
    · exact leaves_replayItem hrejected item (hitem item rfl)

/-- **Each request leaves the run as it is** while its start is stopped. -/
theorem leaves_request {request : LaterRequest}
    (howns : ∀ fallback itemId, request = .replayDeadLetter fallback itemId →
      w₀.Owns tenant runId itemId) :
    Leaves tenant runId w₀ i (request.prog ev tenant runId) (fun _ _ => True) w := by
  cases request with
  | approve a =>
    refine Upholds.bind (R := fun _ _ => True) ?_ (fun _ _ _ => trivial) fun _ _ _ => trivial
    refine Upholds.bind (leaves_waitingRun hrejected) ?_ fun _ _ _ => trivial
    rintro _ _ ⟨e, he⟩
    cases he
  | reject a =>
    refine Upholds.bind (R := fun _ _ => True) ?_ (fun _ _ _ => trivial) fun _ _ _ => trivial
    refine Upholds.bind (leaves_waitingRun hrejected) ?_ fun _ _ _ => trivial
    rintro _ _ ⟨e, he⟩
    cases he
  | replayDeadLetter fallback itemId =>
    refine Upholds.bind (R := fun _ _ => True) ?_ (fun _ _ _ => trivial) fun _ _ _ => trivial
    exact leaves_replayDeadLetter hrejected fallback (howns fallback itemId rfl)
  | execute a =>
    refine Upholds.bind (R := fun _ _ => True) ?_ (fun _ _ _ => trivial) fun _ _ _ => trivial
    exact (leaves_execute hrejected { a with runId } rfl).mono fun _ _ _ => trivial

end Programs

/-! ## Whole runs -/

/-- A start that takes effect ends the rejection. -/
theorem stopped_of_final {i : ℕ}
    (hrejected : ∃ run, w.run? tenant runId = some run ∧ run.status = .rejected)
    (h : Final tenant runId w₀ (callIn i env o w).2) : Stopped runId i env o w := by
  rintro definition rfl
  by_contra hstopped
  have heffect : ∀ n, ¬ Final tenant runId w₀
      { (env.effect (.setRunning runId definition) w).2 with tick := n } := by
    intro n hfinal
    obtain ⟨run, hrun, hstatus⟩ := hrejected
    obtain ⟨run', hrun', hstatus'⟩ := hfinal.status
    have hset : ({ (env.effect (.setRunning runId definition) w).2 with tick := n } : World).run?
        tenant runId = some { run with status := .running } := by
      have hledger : (w.setRunning runId).ledger tenant runId = _ :=
        World.ledger_setRunning
      have hrun' := congrArg Ledger.run hledger
      simp only [World.ledger, Ledger.setRun, hrun, Option.map_some] at hrun'
      exact hrun'
    rw [hset] at hrun'
    obtain rfl := Option.some.inj hrun'
    cases hstatus'
  simp only [callIn, Env.handle] at h
  split at h
  · exact heffect _ h
  · next e hfault => exact hstopped ⟨e, hfault⟩
  · exact heffect _ h

/-- **When a rejection is final**: along every schedule of the calls of later approvals,
rejections, replays of dead letters of the run and executions, the run stays rejected and none of
its nodes is dispatched or parked, if and only if no call takes effect that sets it to
`RUNNING`. -/
theorem final_iff (ev : Evaluator) (tenant runId : String) (w : World)
    (requests : List LaterRequest)
    (hrejected : ∃ run, w.run? tenant runId = some run ∧ run.status = .rejected)
    (howns : ∀ fallback itemId, .replayDeadLetter fallback itemId ∈ requests →
      w.Owns tenant runId itemId) (schedule : List (ℕ × Env)) :
    (∀ n, Final tenant runId w (Crew.play callIn (laterCrew ev tenant runId w requests)
        (schedule.take n)).state) ↔
      Crew.Allows callIn (Stopped runId) (laterCrew ev tenant runId w requests) schedule := by
  have hstart : ((dormantContract tenant runId w).outline (fun _ _ _ _ _ _ => trivial) :
      Crew.Outline callIn (Stopped runId) Unit).Holds (laterCrew ev tenant runId w requests) := by
    refine ⟨⟨rfl, fun _ h => h⟩, fun i q hq => ?_⟩
    simp only [laterCrew, List.getElem?_map, Option.map_eq_some_iff] at hq
    obtain ⟨request, hrequest, rfl⟩ := hq
    refine leaves_request hrejected fun fallback itemId h => howns fallback itemId ?_
    rw [← h]
    exact List.mem_of_getElem? hrequest
  apply hstart.play_iff
  · exact fun w' hw' => Dormant.final hw' hrejected
  · intro i env o k w' hw' _ hnext
    exact stopped_of_final (Dormant.final hw' hrejected).status hnext

end Idle

/-! ## A dead letter that is replayed twice -/

/-- A refund that is approved after it was prepared. -/
def refundWorkflow : WorkflowDefinition where
  id := some "wf_refund"
  name := "refund"
  trigger := ⟨"webhook", [], .null⟩
  nodes := [{ id := "prepare", type := "action.http", name := "Prepare" },
    { id := "gate", type := "action.approval", name := "Approve" }]
  edges := [{ source := "prepare", target := "gate" }]
  accepted := by decide

/-- The stored row of the refund workflow. -/
def refundRecord : WorkflowRecord where
  id := "wf_refund"
  tenantId := "acme"
  name := "refund"
  description := ""
  status := .active
  version := 1
  triggerType := "webhook"
  definitionJson := refundWorkflow.toWorkflowSpec

/-- The refund run, failed at its first node, with a dead letter. -/
def refundFailed : World :=
  ((execute (Env.steady fun _ => .ok .null).toEvaluator "acme"
    { definition := refundWorkflow, runId := "RUN-1", inputPayload := .null }).run
      (Env.steady fun _ => .error ⟨.valueError, "401 unauthorized"⟩).handle
      { World.empty with registry := (Registry.empty.create "acme" refundRecord).2 }).2

/-- The refund run, parked by a replay of its dead letter. -/
def refundParked : World :=
  ((replayDeadLetter (Env.steady fun _ => .ok .null).toEvaluator "acme" (fun _ => none) 0).run
    (Env.steady fun _ => .ok .null).handle refundFailed).2

/-- The decision about the refund. -/
def refundDecision : ApprovalArgs :=
  { approved := false, approverEmail := "ops", comment := none, decidedAt := "" }

/-- The refund run after its rejection. -/
def refundRejected : World :=
  ((rejectRun (Env.steady fun _ => .ok .null).toEvaluator "acme" "RUN-1" refundDecision).run
    (Env.steady fun _ => .ok .null).handle refundParked).2

theorem refund_rejected :
    ∃ run, refundRejected.run? "acme" "RUN-1" = some run ∧ run.status = .rejected := by
  have hstatus : (refundRejected.run? "acme" "RUN-1").map (·.status) = some .rejected := by
    decide +kernel
  exact Option.map_eq_some_iff.1 hstatus

/-- A database in which no run can be set to `RUNNING`. -/
def lockedEnv : Env :=
  { Env.steady fun _ => .ok .null with
    fault := fun _ o =>
      match o with
      | .setRunning _ _ => some (⟨.other, "database is locked"⟩, false)
      | _ => none }

/-- A late approval changes nothing, nor does a replay that is stopped where it starts the run. -/
theorem final_refund_stopped :
    Final "acme" "RUN-1" refundRejected (Crew.play callIn
      (laterCrew (Env.steady fun _ => .ok .null).toEvaluator "acme" "RUN-1" refundRejected
        [.approve refundDecision, .replayDeadLetter (fun _ => none) 0])
      (([0, 1, 1, 1, 1, 1, 1, 1].map fun i => (i, lockedEnv)).take 8)).state := by
  refine (final_iff _ "acme" "RUN-1" refundRejected
    [.approve refundDecision, .replayDeadLetter (fun _ => none) 0] refund_rejected ?_ _).2
      (Crew.allows_of_forall ?_) 8
  · intro fallback itemId _ item hitem _ _
    have hruns : ∀ item ∈ refundRejected.deadLetters.rows, item.runId = "RUN-1" := by
      decide +kernel
    exact hruns item hitem
  · intro x hx o w definition ho
    obtain ⟨i, -, rfl⟩ := List.mem_map.1 hx
    subst ho
    exact ⟨_, rfl⟩

/-- The dead letter of the first failure is replayed once more. -/
theorem not_final_refund_replay :
    ¬ ∀ n, Final "acme" "RUN-1" refundRejected (Crew.play callIn
      (laterCrew (Env.steady fun _ => .ok .null).toEvaluator "acme" "RUN-1" refundRejected
        [.replayDeadLetter (fun _ => none) 0])
      ((Env.steadily [0, 0, 0, 0, 0, 0, 0]).take n)).state := by
  intro h
  obtain ⟨run, hrun, hstatus⟩ := (h 7).status
  have hparked : ((Crew.play callIn
      (laterCrew (Env.steady fun _ => .ok .null).toEvaluator "acme" "RUN-1" refundRejected
        [.replayDeadLetter (fun _ => none) 0])
      ((Env.steadily [0, 0, 0, 0, 0, 0, 0]).take 7)).state.run? "acme" "RUN-1").map (·.status) =
        some .waitingApproval := by
    decide +kernel
  rw [hrun, Option.map_some, hstatus] at hparked
  cases hparked

end FlowMesh
