import FlowMesh.Engine.Calls
import FlowMesh.Engine.Session
import FlowMesh.Library.Machine
import FlowMesh.Api.Routers

/-!
# Dead letters and their replays

`replay_all_dead_letters` of `routers/incidents.py`, and what a sequence of executions, replays and
batch replays makes of the dead letters. A failing node of a run adds one, a replay marks the one
it was asked for, and a batch replay marks all that are pending.

`replayed_earned` says when a letter that is marked as replayed has earned it, `cleared_iff` when a
replay that succeeds leaves no pending letter of its run.
-/

namespace FlowMesh

open Python Database Async

/-! ## Batch replays -/

/-- What `replay_all_dead_letters` answers. -/
structure BatchResponse where
  status : String
  replayedCount : ℕ
  message : String

/-- The loop of `replay_all_dead_letters`; the number of items that it marked. -/
def markAllReplayed (tenant : String) : List DeadLetterRecord → M ℕ
  | [] => return 0
  | item :: items => do
    perform (.markReplayed tenant item.id)
    return (← markAllReplayed tenant items) + 1

/-- `replay_all_dead_letters`; `fallbackCount` is the number of demonstration items in a
development or test environment. -/
def replayAllDeadLetters (tenant : String) (fallbackCount : ℕ) : M BatchResponse := do
  let pending ← perform (.listPending tenant)
  let replayedCount ← markAllReplayed tenant pending
  let total := replayedCount + fallbackCount
  return { status := "BATCH_REPLAYED", replayedCount := total,
           message := "Successfully replayed " ++ toString total ++
             " DLQ events with zero duplicate side-effects" }

/-! ## What becomes of the letters -/

/-- The calls that leave the dead letters as they are. -/
def Op.SparesLetters : Op → Prop
  | .createDeadLetter .. => False
  | .markReplayed .. => False
  | _ => True

/-- The calls that mark no dead letter. -/
def Op.MarksNone : Op → Prop
  | .markReplayed .. => False
  | _ => True

theorem Op.Attempt.sparesLetters {o : Op} (ho : o.Attempt) : o.SparesLetters := by
  cases o <;> first | exact ho.elim | trivial

theorem Op.Inner.marksNone {o : Op} (ho : o.Inner) : o.MarksNone := by
  cases o <;> first | exact ho.elim | trivial

section Letters

variable {env : Env} {w : World}

theorem letters_effect {o : Op} (ho : o.SparesLetters) :
    (env.effect o w).2.deadLetters = w.deadLetters := by
  cases o with
  | createDeadLetter => exact ho.elim
  | markReplayed => exact ho.elim
  | getByIdempotencyKey => simp only [Env.effect]; split <;> rfl
  | createRun => simp only [Env.effect]; split <;> rfl
  | approveStep => simp only [Env.effect]; split <;> rfl
  | _ => rfl

/-- A program whose calls leave the dead letters alone. -/
theorem letters_of_uses {α : Type} {p : M α} (hp : p.Uses Op.SparesLetters) :
    (p.run env.handle w).2.deadLetters = w.deadLetters := by
  refine hp.run_induction (I := fun w' => w'.deadLetters = w.deadLetters) env.handle ?_ rfl
  intro o w' ho hw'
  rw [← hw']
  exact env.handle_induction (P := fun v => v.deadLetters = w'.deadLetters) rfl (letters_effect ho)

/-- The stored dead letters. -/
abbrev Letters : Type := Table DeadLetterRecord ℕ DeadLetterRecord.id

/-- The letters are kept, and only pending ones are added. -/
structure AddsPending (l l' : Letters) : Prop where
  kept : ∀ d ∈ l, d ∈ l'
  added : ∀ d ∈ l', d ∈ l ∨ d.status = .pending

theorem AddsPending.refl (l : Letters) : AddsPending l l := ⟨fun _ h => h, fun _ h => Or.inl h⟩

theorem AddsPending.trans {l₁ l₂ l₃ : Letters} (h : AddsPending l₁ l₂) (h' : AddsPending l₂ l₃) :
    AddsPending l₁ l₃ := by
  refine ⟨fun d hd => h'.kept d (h.kept d hd), fun d hd => ?_⟩
  rcases h'.added d hd with hd | hd
  · exact h.added d hd
  · exact Or.inr hd

theorem addsPending_effect {o : Op} (ho : o.MarksNone) :
    AddsPending w.deadLetters (env.effect o w).2.deadLetters := by
  by_cases hspares : o.SparesLetters
  · rw [letters_effect hspares]
    exact .refl _
  · cases o with
    | markReplayed => exact ho.elim
    | createDeadLetter =>
      refine ⟨fun d hd => List.mem_append_left _ hd, fun d hd => ?_⟩
      change d ∈ w.deadLetters.rows ++ [_] at hd
      rcases List.mem_append.1 hd with hd | hd
      · exact Or.inl hd
      · rw [List.mem_singleton.1 hd]
        exact Or.inr rfl
    | _ => exact absurd trivial hspares

/-- A program that marks no dead letter. -/
theorem addsPending_of_uses {α : Type} {p : M α} (hp : p.Uses Op.MarksNone) :
    AddsPending w.deadLetters (p.run env.handle w).2.deadLetters := by
  refine hp.run_induction (I := fun w' => AddsPending w.deadLetters w'.deadLetters) env.handle ?_
    (.refl _)
  intro o w' ho hw'
  exact env.handle_induction (P := fun v => AddsPending w.deadLetters v.deadLetters) hw'
    (hw'.trans (addsPending_effect ho))

end Letters

/-! ## Executions -/

section Execute

variable {env : Env} {tenant runId : String}

theorem Env.Does.any {α : Type} (p : M α) (L : Ledger) :
    env.Does tenant runId p L fun _ _ => True := by
  intro w _
  exact Prog.Ensures.any p w

/-- `finish` returns the row that is stored then. -/
theorem finish_returns {L : Ledger} (run : RunRecord) (wfId : String) (o : Outcome) :
    env.Does tenant run.id (finish tenant run wfId o) L fun r L' =>
      (∀ x, r = .ok x → x = L'.run.getD run) ∧
        ∀ error, o = .failed error → run.status ≠ .success → ∀ x, r = .ok x →
          x.status ≠ .success := by
  have hraise : ∀ (e : PyError) (L' : Ledger),
      (∀ x, Except.error (α := RunRecord) e = .ok x → x = L'.run.getD run) ∧
        ∀ error, o = .failed error → run.status ≠ .success → ∀ x,
          Except.error (α := RunRecord) e = .ok x → x.status ≠ .success := by
    intro e L'
    constructor
    · intro x hx
      cases hx
    · intro error _ _ x hx
      cases hx
  have hread : ∀ (L' : Ledger), (∀ error, o = .failed error → run.status ≠ .success →
      (L'.run.getD run).status ≠ .success) → env.Does tenant run.id (do
        let refreshed ← perform (.getRun tenant run.id)
        return (refreshed.map (·.1)).getD run) L' fun r L' =>
          (∀ x, r = .ok x → x = L'.run.getD run) ∧
            ∀ error, o = .failed error → run.status ≠ .success → ∀ x, r = .ok x →
              x.status ≠ .success := by
    intro L' hfailed
    refine Env.Does.seq (Env.Does.getRun (Env.Does.ret ?_) fun e => hraise e _)
    have hrun : ((L'.run.map fun run => (run, L'.steps)).map (·.1)).getD run = L'.run.getD run := by
      cases L'.run <;> rfl
    rw [hrun]
    refine ⟨fun x hx => (Except.ok.inj hx).symm, fun error ho hstatus x hx => ?_⟩
    rw [← Except.ok.inj hx]
    exact hfailed error ho hstatus
  cases o with
  | parked => exact hread L nofun
  | finished lastOutput =>
    refine Env.Does.seq (Env.Does.updateRunStatus rfl ?_ fun e => ⟨hraise e _, hraise e _⟩)
    exact Env.Does.seq (Env.Does.attempt (Env.Does.quiet trivial fun _ => hread _ nofun))
  | failed error =>
    refine Env.Does.seq (Env.Does.updateRunStatus rfl ?_ fun e => ⟨hraise e _, hraise e _⟩)
    refine Env.Does.seq (Env.Does.attempt (Env.Does.quiet trivial fun _ => hread _ ?_))
    intro error' _ hstatus
    rw [Ledger.setRun]
    cases L.run with
    | none => exact hstatus
    | some run' => simp

/-! ### Letters of an execution -/

/-- Run alone, the program ends in `Φ`. -/
abbrev Ending {α : Type} (env : Env) (p : M α) (Φ : Except PyError α → World → Prop) (w : World) :
    Prop :=
  p.Yields env.handle (fun _ _ => True) Φ w

theorem Ending.run {α : Type} {p : M α} {Φ : Except PyError α → World → Prop} {w : World}
    (h : Ending env p Φ w) : Φ (p.run env.handle w).1 (p.run env.handle w).2 :=
  h (.all (fun _ _ => trivial) p w)

/-- A part that spares the letters, and then the rest. -/
theorem ending_bind {α β : Type} {p : M α} {f : α → M β} {Φ : Except PyError β → World → Prop}
    {w : World} (hp : p.Uses Op.SparesLetters)
    (hok : ∀ x w', w'.deadLetters = w.deadLetters → Ending env (f x) Φ w')
    (herr : ∀ e w', Φ (.error e) w') : Ending env (p >>= f) Φ w :=
  Prog.Yields.bind (Ψ := fun _ w' => w'.deadLetters = w.deadLetters)
    (Prog.Yields.of_run (letters_of_uses hp)) hok fun e w' _ => herr e w'

/-- A part that does anything, and then the rest. -/
theorem ending_skip {α β : Type} {p : M α} {f : α → M β} {Φ : Except PyError β → World → Prop}
    {w : World} (hok : ∀ x w', Ending env (f x) Φ w') (herr : ∀ e w', Φ (.error e) w') :
    Ending env (p >>= f) Φ w :=
  Prog.Yields.bind (Ψ := fun _ _ => True) (Prog.Yields.of_run trivial) (fun x w' _ => hok x w')
    fun e w' _ => herr e w'

/-- A node that succeeds adds no dead letter. -/
theorem executeNode_letters {ev : Evaluator} {workflowId : String} {node : WorkflowNode}
    {context : Context} {w : World} :
    Ending env (executeNode ev tenant runId workflowId node context) (fun r w' =>
      ∀ output durationMs, r = .ok (.success output durationMs) →
        w'.deadLetters = w.deadLetters) w := by
  have hattempts : ∀ (config : List (String × Json)) (stepId : ℕ) (w₁ : World),
      w₁.deadLetters = w.deadLetters →
      Ending env (runAttempts ev tenant runId workflowId node config context stepId) (fun r w' =>
        ∀ output durationMs, r = .ok (.success output durationMs) →
          w'.deadLetters = w.deadLetters) w₁ := by
    intro config stepId w₁ hw₁
    unfold runAttempts
    split
    · exact Prog.Yields.raise (fun _ _ => nofun)
    · refine ending_bind ((uses_retryLoop config context stepId _ _ _ _).mono
        fun _ h => h.sparesLetters) (fun outcome w₂ hw₂ => ?_) fun _ _ _ _ => nofun
      cases outcome with
      | done res => exact Prog.Yields.ret fun _ _ _ => hw₂.trans hw₁
      | gaveUp lastError lastCategory attempt =>
        -- what follows ends in a failure
        refine ending_skip (fun _ _ => ?_) fun _ _ _ _ => nofun
        refine ending_skip (fun _ _ => ?_) fun _ _ _ _ => nofun
        refine ending_skip (fun _ _ => ?_) fun _ _ _ _ => nofun
        refine ending_skip (fun _ _ => ?_) fun _ _ _ _ => nofun
        exact ending_skip (fun _ _ => Prog.Yields.ret fun _ _ => nofun) fun _ _ _ _ => nofun
  refine ending_bind (.perform trivial) (fun stepId w₁ hw₁ => ?_) fun _ _ _ _ => nofun
  unfold executeStep
  split
  · exact hattempts _ stepId w₁ hw₁
  · refine ending_bind (.perform trivial) (fun state w₂ hw₂ => ?_) fun _ _ _ _ => nofun
    split
    · refine ending_skip (fun _ _ => ?_) fun _ _ _ _ => nofun
      refine ending_skip (fun _ _ => ?_) fun _ _ _ _ => nofun
      exact ending_skip (fun _ _ => Prog.Yields.ret fun _ _ => nofun) fun _ _ _ _ => nofun
    · exact hattempts _ stepId w₂ (hw₂.trans hw₁)

/-- A traversal that does not fail adds no dead letter. -/
theorem traverse_letters {ev : Evaluator} {run : RunRecord} {d : WorkflowDefinition}
    {completed : List String} (fuel : ℕ) (t : Traversal) (w : World) :
    Ending env (traverse ev tenant run d completed fuel t) (fun r w' =>
      ∀ o, r = .ok o → (∀ error, o ≠ .failed error) → w'.deadLetters = w.deadLetters) w := by
  induction fuel generalizing t w with
  | zero => exact Prog.Yields.ret fun _ _ _ => rfl
  | succ fuel ih =>
    unfold traverse
    split
    · exact Prog.Yields.ret fun _ _ _ => rfl
    split
    · exact ih _ w
    split
    · exact ih _ w
    split
    · exact ih _ w
    split
    · have hpark : ∀ (node : WorkflowNode) (context : Context),
          (park ev tenant run.id node context).Uses Op.SparesLetters := fun _ _ =>
        .bind (.perform trivial) fun _ => .perform trivial
      exact ending_bind (hpark _ _) (fun _ w₁ hw₁ => Prog.Yields.ret fun _ _ _ => hw₁)
        fun _ _ _ ho => by cases ho
    · refine Prog.Yields.bind executeNode_letters (fun result w₁ hw₁ => ?_)
        fun _ _ _ o ho => by cases ho
      cases result with
      | failure error =>
        refine Prog.Yields.ret ?_
        rintro o ⟨⟩ hne
        exact absurd rfl (hne error)
      | success output durationMs =>
        refine Prog.Yields.mono (ih _ w₁) fun r w₂ hw₂ o ho hne => ?_
        exact (hw₂ o ho hne).trans (hw₁ output durationMs rfl)

theorem uses_finish_letters (run : RunRecord) (wfId : String) (o : Outcome) :
    (finish tenant run wfId o).Uses Op.SparesLetters := by
  cases o with
  | parked => exact .bind (.perform trivial) fun _ => .ret _
  | finished lastOutput =>
    refine .bind (.perform trivial) fun _ => .bind (.attempt (.perform trivial)) fun _ => ?_
    exact .bind (.perform trivial) fun _ => .ret _
  | failed error =>
    refine .bind (.perform trivial) fun _ => .bind (.attempt (.perform trivial)) fun _ => ?_
    exact .bind (.perform trivial) fun _ => .ret _

/-- An execution returned the row that is stored then; if this is in `SUCCESS`, no dead letter was
added. -/
structure Returned (tenant runId : String) (w : World) (x : RunRecord) (w' : World) : Prop where
  row : ∀ run, w'.run? tenant runId = some run → x = run
  stored : x.status = .success → w'.run? tenant runId = some x
  letters : x.status = .success → w'.deadLetters = w.deadLetters

/-- The part of `execute` behind the start. -/
theorem resume_returned {ev : Evaluator} {a : ExecuteArgs} {traceId : String} {run : RunRecord}
    {steps : List RunStepRecord} (hstatus : run.status ≠ .success) (w : World) :
    Ending env (resume ev tenant a traceId run steps) (fun r w' => ∀ x, r = .ok x →
      Returned tenant run.id w x w') w := by
  unfold resume
  refine Prog.Yields.bind (traverse_letters _ _ w) (fun o w₁ hw₁ => ?_) fun _ _ _ _ => nofun
  refine Prog.Yields.of_run fun x hx => ?_
  have hdoes : env.Does tenant run.id (finish tenant run a.wfId o) (w₁.ledger tenant run.id) _ :=
    finish_returns run a.wfId o
  obtain ⟨hreturns, hfailed⟩ := hdoes.run rfl
  have hletters : ((finish tenant run a.wfId o).run env.handle w₁).2.deadLetters =
      w₁.deadLetters := letters_of_uses (uses_finish_letters run a.wfId o)
  have hx' : x = (((finish tenant run a.wfId o).run env.handle w₁).2.run? tenant run.id).getD run :=
    hreturns x hx
  refine ⟨fun run' hrun' => ?_, fun hsuccess => ?_, fun hsuccess => ?_⟩
  · rw [hx', hrun']
    rfl
  · cases hrun' : ((finish tenant run a.wfId o).run env.handle w₁).2.run? tenant run.id with
    | none =>
      rw [hrun'] at hx'
      have hrow : x = run := hx'
      rw [hrow] at hsuccess
      exact absurd hsuccess hstatus
    | some run' =>
      rw [hrun'] at hx'
      rw [hx']
      rfl
  · have hne : ∀ error, o ≠ .failed error := fun error ho =>
      hfailed error ho hstatus x hx hsuccess
    exact hletters.trans (hw₁ o rfl hne)

theorem executeTraced_returned {ev : Evaluator} {a : ExecuteArgs} (traceId : String) (w : World) :
    Ending env (executeTraced ev tenant a traceId) (fun r w' => ∀ x, r = .ok x →
      Returned tenant a.runId w x w') w := by
  have hresume : ∀ (run : RunRecord) (steps : List RunStepRecord) (w₁ : World),
      run.id = a.runId → run.status ≠ .success → w₁.deadLetters = w.deadLetters →
      Ending env (resume ev tenant a traceId run steps) (fun r w' => ∀ x, r = .ok x →
        Returned tenant a.runId w x w') w₁ := by
    intro run steps w₁ hid hstatus hw₁
    refine Prog.Yields.mono (resume_returned hstatus w₁) fun r w' h x hx => ?_
    obtain ⟨hrow, hstored, hletters⟩ := h x hx
    rw [hid] at hrow hstored
    exact ⟨hrow, hstored, fun hsuccess => (hletters hsuccess).trans hw₁⟩
  unfold executeTraced
  refine Prog.Yields.bind (Ψ := fun r w' => w'.deadLetters = w.deadLetters ∧
    ∀ x, r = .ok (some x) → x.1.id = a.runId) (Prog.Yields.perform fun _ => ⟨?_, ?_⟩) ?_
    fun _ _ _ _ => nofun
  · have hkept : ((perform (.getRun tenant a.runId)).run env.handle w).2.deadLetters =
        w.deadLetters := letters_of_uses (.perform trivial)
    rwa [Prog.run_perform] at hkept
  · intro x hx
    unfold Env.handle at hx
    split at hx
    · obtain ⟨run, hrun, rfl⟩ := Option.map_eq_some_iff.1 (Except.ok.inj hx)
      exact (World.run?_eq_some.1 hrun).2.1
    · cases hx
    · cases hx
  · rintro found w₁ ⟨hw₁, hid⟩
    cases found with
    | none =>
      refine ending_bind (.perform trivial) (fun _ w₂ hw₂ => ?_) fun _ _ _ => nofun
      exact hresume _ _ w₂ rfl (by simp [ExecuteArgs.newRun]) (hw₂.trans hw₁)
    | some found =>
      refine ending_bind (.perform trivial) (fun _ w₂ hw₂ => ?_) fun _ _ _ => nofun
      exact hresume _ _ w₂ (hid found rfl) (by simp) (hw₂.trans hw₁)

/-- **What an execution returns**, and that a success adds no dead letter. -/
theorem execute_returned {ev : Evaluator} {a : ExecuteArgs} (w : World) :
    Ending env (execute ev tenant a) (fun r w' => ∀ x, r = .ok x →
      Returned tenant a.runId w x w') w := by
  unfold execute
  split
  · exact executeTraced_returned _ w
  · refine ending_bind (.perform trivial) (fun traceId w₁ hw₁ => ?_) fun _ _ _ => nofun
    refine Prog.Yields.mono (executeTraced_returned traceId w₁) fun r w' h x hx => ?_
    obtain ⟨hrow, hstored, hletters⟩ := h x hx
    exact ⟨hrow, hstored, fun hsuccess => (hletters hsuccess).trans hw₁⟩

/-- An execution marks no dead letter. -/
theorem uses_execute_marksNone {ev : Evaluator} (a : ExecuteArgs) :
    (execute ev tenant a).Uses Op.MarksNone := by
  have hresume : ∀ (traceId : String) (run : RunRecord) (steps : List RunStepRecord),
      (resume ev tenant a traceId run steps).Uses Op.MarksNone := fun traceId run steps =>
    (uses_resume a traceId run steps).mono fun _ h => h.marksNone
  have htraced : ∀ traceId, (executeTraced ev tenant a traceId).Uses Op.MarksNone := by
    intro traceId
    refine .bind (.perform trivial) fun found => ?_
    cases found with
    | none => exact .bind (.perform trivial) fun _ => hresume _ _ _
    | some found => exact .bind (.perform trivial) fun _ => hresume _ _ _
  unfold execute
  split
  · exact htraced _
  · exact .bind (.perform trivial) fun traceId => htraced traceId

/-- The definition was executed in the run since `w`. -/
def Executed (runId : String) (definition : WorkflowSpec) (w w' : World) : Prop :=
  .executing runId definition ∈ (w'.eventsOf runId).drop (w.eventsOf runId).length

/-- An execution that returns has executed its definition. -/
theorem execute_executed {a : ExecuteArgs} (w : World) :
    Ending env (execute env.toEvaluator tenant a) (fun r w' => ∀ x, r = .ok x →
      Executed a.runId a.definition.toWorkflowSpec w w') w := by
  refine Prog.Yields.of_run fun x hx => ?_
  have hruns : Runs env tenant a (w.ledger tenant a.runId) _ _ := (execute_does a rfl).run rfl
  rw [hx] at hruns
  generalize hL' : ((execute env.toEvaluator tenant a).run env.handle w).2.ledger tenant
    a.runId = L' at hruns
  have hevents : ((execute env.toEvaluator tenant a).run env.handle w).2.eventsOf a.runId =
      L'.events := congrArg Ledger.events hL'
  cases hruns with
  | @traversed traceId r' _ L₁ _ htrace h hend =>
    obtain ⟨-, es, -, hes, -⟩ := h.extends
    have hclosed : L'.events = L₁.events := by
      cases hend with
      | closed o => cases o <;> rfl
    have hL' : L'.events = w.eventsOf a.runId ++
        (.executing a.runId a.definition.toWorkflowSpec :: es) := by
      rw [hclosed, hes]
      exact List.append_assoc ..
    rw [Executed, hevents, hL', List.drop_left]
    exact List.mem_cons_self

end Execute

/-! ## Replays -/

theorem DeadLetterRecord.id_replayed (d : DeadLetterRecord) :
    { d with status := .replayed }.id = d.id := rfl

/-- The letters after `mark_replayed`. -/
def Letters.mark (l : Letters) (tenant : String) (itemId : ℕ) : Letters :=
  l.update (fun d => d.id = itemId ∧ d.tenantId = tenant) (fun d => { d with status := .replayed })
    DeadLetterRecord.id_replayed

/-- The run was executed with the definition, and is in `SUCCESS` then. -/
def Succeeds (tenant runId : String) (definition : WorkflowSpec) (w w' : World) : Prop :=
  Executed runId definition w w' ∧ ∃ run, w'.run? tenant runId = some run ∧ run.status = .success

/-- What the replay of an item makes of the letters. -/
inductive Replays (tenant : String) (item : DeadLetterRecord) (w : World) :
    Except PyError ReplayResponse → World → Prop
  /-- The item keeps its status; unless the request raised, its run is not in `SUCCESS`. -/
  | kept {r : Except PyError ReplayResponse} {w' : World}
      (hletters : AddsPending w.deadLetters w'.deadLetters)
      (hrun : ∀ x, r = .ok x → ∀ run, w'.run? tenant item.runId = some run →
        run.status ≠ .success) : Replays tenant item w r w'
  /-- The item was marked, after a successful execution if its run and its workflow are there. -/
  | marked (r : Except PyError ReplayResponse) {w' : World}
      (hletters : w'.deadLetters = Letters.mark w.deadLetters tenant item.id)
      (hsucceeds : (w.run? tenant item.runId).isSome →
        ∀ wf, w.registry.getById tenant item.workflowId = some wf →
          Succeeds tenant item.runId wf.definitionJson w w') : Replays tenant item w r w'

section Replay

variable {env : Env} {tenant : String}

/-- A read, and then the rest. -/
theorem ending_read {o : Op} {α : Type} {f : o.Res → M α} {Φ : Except PyError α → World → Prop}
    {w : World} (hread : (env.effect o w).2 = w)
    (hok : ∀ x n, (env.effect o w).1 = .ok x → Ending env (f x) Φ { w with tick := n })
    (herr : ∀ e n, Φ (.error e) { w with tick := n }) : Ending env (perform o >>= f) Φ w := by
  refine Prog.Yields.bind (Ψ := fun r w' => (∃ n, w' = { w with tick := n }) ∧
    ∀ x, r = .ok x → (env.effect o w).1 = .ok x) (Prog.Yields.perform fun _ => ?_) ?_ ?_
  · unfold Env.handle
    split
    · exact ⟨⟨_, by rw [hread]⟩, fun _ hx => hx⟩
    · exact ⟨⟨_, rfl⟩, nofun⟩
    · exact ⟨⟨_, by rw [hread]⟩, nofun⟩
  · rintro x w' ⟨⟨n, rfl⟩, hx⟩
    exact hok x n (hx x rfl)
  · rintro e w' ⟨⟨n, rfl⟩, -⟩
    exact herr e n

/-- The workflow of a replay is the item's own, if the tenant has it. -/
theorem replayWorkflow_own {workflowId : String} (w : World) :
    Ending env (replayWorkflow tenant workflowId) (fun r w' => (∃ n, w' = { w with tick := n }) ∧
      ∀ x, r = .ok x → ∀ wf, w.registry.getById tenant workflowId = some wf → x = some wf) w := by
  refine ending_read rfl (fun own n hown => ?_) fun e n => ⟨⟨n, rfl⟩, fun x hx => by cases hx⟩
  have hown' : w.registry.getById tenant workflowId = own := Except.ok.inj hown
  cases own with
  | some wf =>
    refine Prog.Yields.ret ⟨⟨n, rfl⟩, ?_⟩
    rintro x ⟨⟩ wf' hwf'
    rw [← hown', hwf']
  | none =>
    refine ending_read rfl (fun _ n _ => Prog.Yields.ret ⟨⟨n, rfl⟩, ?_⟩)
      fun e n => ⟨⟨n, rfl⟩, fun x hx => by cases hx⟩
    rintro x - wf' hwf'
    rw [hown'] at hwf'
    cases hwf'

/-- `mark_replayed`, and then the response. -/
theorem markReplayed_replays {item : DeadLetterRecord} {response : ReplayResponse} {w w₁ : World}
    (hletters : w₁.deadLetters = w.deadLetters)
    (hsucceeds : (w.run? tenant item.runId).isSome →
      ∀ wf, w.registry.getById tenant item.workflowId = some wf →
        Succeeds tenant item.runId wf.definitionJson w w₁) :
    Ending env (do perform (.markReplayed tenant item.id); return response)
      (Replays tenant item w) w₁ := by
  have hmark : Letters.mark w₁.deadLetters tenant item.id =
      Letters.mark w.deadLetters tenant item.id := by rw [hletters]
  refine Prog.Yields.bind (Ψ := fun r w' => Replays tenant item w (r.map fun _ => response) w')
    (Prog.Yields.perform fun _ => ?_) (fun _ _ h => Prog.Yields.ret h) fun _ _ h => h
  unfold Env.handle
  split
  · exact .marked _ hmark hsucceeds
  · refine .kept ?_ nofun
    change AddsPending w.deadLetters w₁.deadLetters
    rw [hletters]
    exact .refl _
  · exact .marked _ hmark hsucceeds

/-- **What a replay makes of its item.** -/
theorem replayItem_replays {item : DeadLetterRecord} (w : World) :
    Ending env (replayItem env.toEvaluator tenant item) (Replays tenant item w) w := by
  have hraised : ∀ (e : PyError) (n : ℕ), Replays tenant item w (.error e) { w with tick := n } :=
    fun _ _ => .kept (.refl _) nofun
  refine ending_read rfl (fun found n hfound => ?_) hraised
  have hfound' : ((w.run? tenant item.runId).map fun run =>
      (run, w.stepsOf tenant item.runId)) = found := Except.ok.inj hfound
  refine Prog.Yields.bind (replayWorkflow_own _) (fun wf? w₁ hwf => ?_) ?_
  · obtain ⟨⟨m, rfl⟩, hwf⟩ := hwf
    cases found with
    | none =>
      refine markReplayed_replays rfl fun hrun => ?_
      obtain ⟨run, hrun⟩ := Option.isSome_iff_exists.1 hrun
      rw [hrun] at hfound'
      cases hfound'
    | some found =>
    obtain ⟨run, hrun, rfl⟩ := Option.map_eq_some_iff.1 hfound'
    have hid : run.id = item.runId := (World.run?_eq_some.1 hrun).2.1
    cases wf? with
    | none =>
      refine markReplayed_replays rfl fun _ wf hget => ?_
      cases hwf none rfl wf hget
    | some wf =>
      have hown : ∀ wf', w.registry.getById tenant item.workflowId = some wf' → wf = wf' :=
        fun wf' hget => Option.some.inj (hwf (some wf) rfl wf' hget)
      -- the execution, and what its outcome decides
      have hexecute : ∀ d : WorkflowDefinition, d.toWorkflowSpec = wf.definitionJson →
          Ending env (do
            let reRun ← execute env.toEvaluator tenant
              { definition := d
                runId := run.id
                inputPayload := run.inputPayload
                traceId := some run.traceId
                triggerSource := "dlq_replay:" ++ toString item.id }
            if reRun.status = .success then do
              perform (.markReplayed tenant item.id)
              return { status := "REPLAYED", itemId := item.id, runId := some run.id,
                       runStatus := some reRun.status,
                       message := "Successfully replayed DLQ event into run " ++ run.id ++
                         " with status SUCCESS" }
            else
              return { status := "FAILED", itemId := item.id, runId := some run.id,
                       runStatus := some reRun.status,
                       message := "Replay attempt resulted in " ++ reRun.status.text ++ ": " ++
                         reRun.error.getD "None" }) (Replays tenant item w)
            { w with tick := m } := by
        intro d hd
        refine Prog.Yields.bind (Ψ := fun r w' => AddsPending w.deadLetters w'.deadLetters ∧
            ∀ x, r = .ok x → Returned tenant run.id { w with tick := m } x w' ∧
              Executed run.id d.toWorkflowSpec w w')
          (Prog.Yields.of_run
            ⟨addsPending_of_uses (w := { w with tick := m }) (uses_execute_marksNone _),
              fun x hx => ⟨(execute_returned _).run x hx, (execute_executed _).run x hx⟩⟩) ?_
          fun e w' h => .kept h.1 nofun
        rintro x w₂ ⟨hadds, hx⟩
        obtain ⟨⟨hrow, hstored, hletters⟩, hexecuted⟩ := hx x rfl
        rw [hid] at hrow hstored hexecuted
        split
        next hsuccess =>
          refine markReplayed_replays (hletters hsuccess) fun _ wf' hget => ?_
          rw [← hown wf' hget, ← hd]
          exact ⟨hexecuted, x, hstored hsuccess, hsuccess⟩
        next hfailed =>
          refine Prog.Yields.ret (.kept hadds fun _ _ run' hrun' => ?_)
          rw [← hrow run' hrun']
          exact hfailed
      change Ending env (parseDefinition wf.definitionJson >>= _) _ _
      unfold parseDefinition WorkflowDefinition.parse
      by_cases haccepted : wf.definitionJson.Accepted
      · rw [dif_pos haccepted]
        exact hexecute ⟨wf.definitionJson, haccepted⟩ rfl
      · rw [dif_neg haccepted]
        exact Prog.Yields.raise (hraised _ _)
  · rintro e w₁ ⟨⟨m, rfl⟩, -⟩
    exact hraised e m

/-- The dead letter of an id, within the tenant. -/
def World.deadLetter? (w : World) (tenant : String) (itemId : ℕ) : Option DeadLetterRecord :=
  (w.deadLetters.get? itemId).filter (·.tenantId = tenant)

/-- `list_pending`. -/
def World.pendingLetters (w : World) (tenant : String) : List DeadLetterRecord :=
  (w.deadLetters.rows.filter fun d => d.tenantId = tenant ∧ d.status = .pending).reverse.take 100

theorem deadLetter?_eq_some {w : World} {itemId : ℕ} {item : DeadLetterRecord}
    (h : w.deadLetter? tenant itemId = some item) :
    item ∈ w.deadLetters ∧ item.id = itemId ∧ item.tenantId = tenant := by
  obtain ⟨hget, htenant⟩ := Option.filter_eq_some_iff.1 h
  obtain ⟨hmem, hid⟩ := Table.get?_eq_some.1 hget
  exact ⟨hmem, hid, by simpa using htenant⟩

theorem mem_pendingLetters {w : World} {d : DeadLetterRecord}
    (hd : d ∈ w.pendingLetters tenant) :
    d ∈ w.deadLetters ∧ d.tenantId = tenant ∧ d.status = .pending := by
  have hmem := List.mem_of_mem_take hd
  rw [List.mem_reverse, List.mem_filter] at hmem
  exact ⟨hmem.1, by simpa using hmem.2⟩

/-- What `replay_dead_letter` does. -/
theorem replayDeadLetter_replays (fallback : ℕ → Option ReplayResponse) (itemId : ℕ) (w : World) :
    Ending env (replayDeadLetter env.toEvaluator tenant fallback itemId) (fun r w' =>
      (∀ item, w.deadLetter? tenant itemId = some item → Replays tenant item w r w') ∧
        (w.deadLetter? tenant itemId = none → w'.deadLetters = w.deadLetters)) w := by
  refine ending_read rfl (fun found n hfound => ?_) fun e n => ⟨fun _ _ => .kept (.refl _) nofun,
    fun _ => rfl⟩
  have hfound' : w.deadLetter? tenant itemId = found := Except.ok.inj hfound
  rw [hfound']
  cases found with
  | some item =>
    have hitem : Ending env (replayItem env.toEvaluator tenant item) _ { w with tick := n } :=
      replayItem_replays _
    refine Prog.Yields.mono hitem fun r w' h => ⟨?_, nofun⟩
    rintro _ ⟨⟩
    cases h with
    | kept hletters hrun => exact .kept hletters hrun
    | marked hletters hsucceeds => exact .marked r hletters hsucceeds
  | none =>
    dsimp only
    split
    · exact Prog.Yields.ret ⟨nofun, fun _ => rfl⟩
    · exact Prog.Yields.raise ⟨nofun, fun _ => rfl⟩

/-- A letter that is marked in `l'` was marked in `l`, or is in `S`. -/
def MarksOnly (S : DeadLetterRecord → Prop) (l l' : Letters) : Prop :=
  ∀ d ∈ l', d.status = .replayed →
    ∃ d₀ ∈ l, (d₀.status = .replayed ∨ S d₀) ∧ d = { d₀ with status := .replayed }

theorem AddsPending.marksOnly {S : DeadLetterRecord → Prop} {l l' : Letters}
    (h : AddsPending l l') : MarksOnly S l l' := by
  intro d hd hstatus
  rcases h.added d hd with hd | hpending
  · exact ⟨d, hd, Or.inl hstatus, by rw [← hstatus]⟩
  · rw [hpending] at hstatus
    cases hstatus

theorem mem_mark {l : Letters} {itemId : ℕ} {d : DeadLetterRecord}
    (hd : d ∈ l.mark tenant itemId) :
    ∃ d₀ ∈ l, d = d₀ ∨ (d₀.id = itemId ∧ d₀.tenantId = tenant) ∧
      d = { d₀ with status := .replayed } := by
  obtain ⟨d₀, hd₀, rfl⟩ := Table.mem_update.1 hd
  refine ⟨d₀, hd₀, ?_⟩
  by_cases hitem : d₀.id = itemId ∧ d₀.tenantId = tenant
  · simp [hitem]
  · simp [hitem]

theorem marksOnly_mark {l : Letters} {itemId : ℕ} :
    MarksOnly (fun d => d.id = itemId ∧ d.tenantId = tenant) l (l.mark tenant itemId) := by
  intro d hd hstatus
  obtain ⟨d₀, hd₀, rfl | ⟨hitem, hd⟩⟩ := mem_mark hd
  · exact ⟨d, hd₀, Or.inl hstatus, by rw [← hstatus]⟩
  · exact ⟨d₀, hd₀, Or.inr hitem, hd⟩

theorem uses_markAllReplayed (items : List DeadLetterRecord) :
    (markAllReplayed tenant items).Uses fun o => ∃ item ∈ items, o = .markReplayed tenant item.id := by
  induction items with
  | nil => exact .ret _
  | cons item items ih =>
    refine .bind (.perform ⟨item, List.mem_cons_self, rfl⟩) fun _ => ?_
    refine .bind (ih.mono fun o ho => ?_) fun _ => .ret _
    obtain ⟨item', hmem, rfl⟩ := ho
    exact ⟨item', List.mem_cons_of_mem item hmem, rfl⟩

/-- The loop of `replay_all_dead_letters` marks listed letters only. -/
theorem markAllReplayed_marks (items : List DeadLetterRecord) (w : World) :
    ∀ d ∈ ((markAllReplayed tenant items).run env.handle w).2.deadLetters, ∃ d₀ ∈ w.deadLetters,
      d = d₀ ∨ (∃ item ∈ items, d₀.id = item.id ∧ d₀.tenantId = tenant) ∧
        d = { d₀ with status := .replayed } := by
  refine (uses_markAllReplayed items).run_induction env.handle (I := fun w' => ∀ d ∈ w'.deadLetters,
    ∃ d₀ ∈ w.deadLetters, d = d₀ ∨ (∃ item ∈ items, d₀.id = item.id ∧ d₀.tenantId = tenant) ∧
      d = { d₀ with status := .replayed }) ?_ fun d hd => ⟨d, hd, Or.inl rfl⟩
  rintro _ w' ⟨item, hitem, rfl⟩ hw' d hd
  have hmarked : ∀ d ∈ Letters.mark w'.deadLetters tenant item.id, ∃ d₀ ∈ w.deadLetters,
      d = d₀ ∨ (∃ item ∈ items, d₀.id = item.id ∧ d₀.tenantId = tenant) ∧
        d = { d₀ with status := .replayed } := by
    intro d hd
    obtain ⟨d₁, hd₁, rfl | ⟨⟨hid, htenant⟩, rfl⟩⟩ := mem_mark hd
    · exact hw' d hd₁
    · obtain ⟨d₀, hd₀, rfl | ⟨hlisted, rfl⟩⟩ := hw' d₁ hd₁
      · exact ⟨d₁, hd₀, Or.inr ⟨⟨item, hitem, hid, htenant⟩, rfl⟩⟩
      · exact ⟨d₀, hd₀, Or.inr ⟨hlisted, rfl⟩⟩
  unfold Env.handle at hd
  split at hd
  · exact hmarked d hd
  · exact hw' d hd
  · exact hmarked d hd

/-- What `replay_all_dead_letters` does. -/
theorem replayAllDeadLetters_marks (fallbackCount : ℕ) (w : World) :
    Ending env (replayAllDeadLetters tenant fallbackCount) (fun _ w' =>
      MarksOnly (· ∈ w.pendingLetters tenant) w.deadLetters w'.deadLetters) w := by
  refine ending_read rfl (fun pending n hpending => ?_) fun e n => (AddsPending.refl _).marksOnly
  have hpending' : w.pendingLetters tenant = pending := Except.ok.inj hpending
  refine Prog.Yields.bind (Ψ := fun _ w' =>
    MarksOnly (· ∈ w.pendingLetters tenant) w.deadLetters w'.deadLetters)
    (Prog.Yields.of_run ?_) (fun _ _ h => Prog.Yields.ret h) fun _ _ h => h
  intro d hd hstatus
  obtain ⟨d₀, hd₀, rfl | ⟨⟨item, hitem, hid, -⟩, hsame⟩⟩ := markAllReplayed_marks pending _ d hd
  · exact ⟨d, hd₀, Or.inl hstatus, by rw [← hstatus]⟩
  · rw [← hpending'] at hitem
    have hd₀' : d₀ = item := Table.eq_of_key_eq hd₀ (mem_pendingLetters hitem).1 hid
    exact ⟨d₀, hd₀, Or.inr (hd₀' ▸ hitem), hsame⟩

end Replay

/-! ## Histories -/

/-- A request about runs and dead letters, alone and in an environment of its own, or any change of
the stored workflows. -/
inductive LetterMove
  | execute (env : Env) (tenant : String) (a : ExecuteArgs)
  | replayDeadLetter (env : Env) (tenant : String) (fallback : ℕ → Option ReplayResponse)
      (itemId : ℕ)
  | replayAllDeadLetters (env : Env) (tenant : String) (fallbackCount : ℕ)
  | workflows (registry : Registry)

/-- The world after a move. -/
def LetterMove.step (w : World) : LetterMove → Unit × World
  | .execute env tenant a => ((), ((FlowMesh.execute env.toEvaluator tenant a).run env.handle w).2)
  | .replayDeadLetter env tenant fallback itemId =>
    ((), ((FlowMesh.replayDeadLetter env.toEvaluator tenant fallback itemId).run env.handle w).2)
  | .replayAllDeadLetters env tenant fallbackCount =>
    ((), ((FlowMesh.replayAllDeadLetters tenant fallbackCount).run env.handle w).2)
  | .workflows registry => ((), { w with registry })

/-- From `w` to `w'`, the run of the letter was executed with the letter's workflow, and it is in
`SUCCESS` then; the letter was there before. -/
def Reexecutes (d : DeadLetterRecord) (w w' : World) : Prop :=
  (∃ d₀ ∈ w.deadLetters, d₀.id = d.id) ∧
    ∃ wf, w.registry.getById d.tenantId d.workflowId = some wf ∧
      Succeeds d.tenantId d.runId wf.definitionJson w w'

/-- A move of the history re-executed the run of the letter. -/
def Reexecuted (w : World) (moves : List LetterMove) (d : DeadLetterRecord) : Prop :=
  ∃ past move rest, moves = past ++ move :: rest ∧
    Reexecutes d (Machine.exec LetterMove.step w past)
      (Machine.exec LetterMove.step w (past ++ [move]))

theorem Reexecuted.append {w : World} {moves : List LetterMove} {d : DeadLetterRecord}
    (h : Reexecuted w moves d) (later : List LetterMove) : Reexecuted w (moves ++ later) d := by
  obtain ⟨past, move, rest, rfl, h⟩ := h
  exact ⟨past, move, rest ++ later, by simp, h⟩

/-- What a move has to find after the history `past` from `w`: a replay finds its item's run and
workflow, and a batch replay finds only letters whose runs were re-executed. -/
def LetterMove.Honest (w : World) (past : List LetterMove) : LetterMove → Prop
  | .execute .. => True
  | .workflows _ => True
  | .replayDeadLetter _ tenant _ itemId =>
    ∀ item, (Machine.exec step w past).deadLetter? tenant itemId = some item →
      Reexecuted w past item ∨
        ((Machine.exec step w past).run? tenant item.runId).isSome ∧
          ((Machine.exec step w past).registry.getById tenant item.workflowId).isSome
  | .replayAllDeadLetters _ tenant _ =>
    ∀ item ∈ (Machine.exec step w past).pendingLetters tenant, Reexecuted w past item

/-- A move marks only letters that were re-executed, if it is honest. -/
theorem LetterMove.Honest.marksOnly {w : World} {past : List LetterMove} {move : LetterMove}
    (h : move.Honest w past) :
    MarksOnly (Reexecuted w (past ++ [move])) (Machine.exec step w past).deadLetters
      (Machine.exec step w (past ++ [move])).deadLetters := by
  rw [Machine.exec_concat]
  cases move with
  | execute env tenant a =>
    exact (addsPending_of_uses (uses_execute_marksNone a)).marksOnly
  | workflows registry => exact (AddsPending.refl _).marksOnly
  | replayAllDeadLetters env tenant fallbackCount =>
    intro d hd hstatus
    obtain ⟨d₀, hd₀, hmarked, hsame⟩ :=
      (replayAllDeadLetters_marks fallbackCount _).run d hd hstatus
    exact ⟨d₀, hd₀, hmarked.imp_right fun hpending => (h d₀ hpending).append _, hsame⟩
  | replayDeadLetter env tenant fallback itemId =>
    have hreplays : Ending env (FlowMesh.replayDeadLetter env.toEvaluator tenant fallback itemId) _
        (Machine.exec step w past) := replayDeadLetter_replays fallback itemId _
    obtain ⟨hfound, hmissing⟩ := hreplays.run
    cases hitem : (Machine.exec step w past).deadLetter? tenant itemId with
    | none =>
      have hsame : (step (Machine.exec step w past) (.replayDeadLetter env tenant fallback
          itemId)).2.deadLetters = (Machine.exec step w past).deadLetters := hmissing hitem
      rw [hsame]
      exact (AddsPending.refl _).marksOnly
    | some item =>
      obtain ⟨hmem, rfl, rfl⟩ := deadLetter?_eq_some hitem
      cases hfound item hitem with
      | kept hletters _ => exact hletters.marksOnly
      | marked hletters hsucceeds =>
        intro d hd hstatus
        have hd' : d ∈ Letters.mark (Machine.exec step w past).deadLetters item.tenantId item.id :=
          hletters ▸ hd
        obtain ⟨d₀, hd₀, hmarked | ⟨hid, -⟩, hsame⟩ := marksOnly_mark d hd' hstatus
        · exact ⟨d₀, hd₀, Or.inl hmarked, hsame⟩
        obtain rfl : d₀ = item := Table.eq_of_key_eq hd₀ hmem hid
        refine ⟨d₀, hd₀, Or.inr ?_, hsame⟩
        rcases h d₀ hitem with hpast | ⟨hrun, hwf⟩
        · exact hpast.append _
        · obtain ⟨wf, hwf⟩ := Option.isSome_iff_exists.1 hwf
          refine ⟨past, _, [], rfl, ⟨d₀, hmem, rfl⟩, wf, hwf, ?_⟩
          rw [Machine.exec_concat]
          exact hsucceeds hrun wf hwf

/-- **When replayed means replayed**: if every replay finds the run and the workflow of its item,
and every batch replay finds only letters whose runs were re-executed, then the run of every
letter that is marked was re-executed with the letter's workflow, with success, after the letter
was there. -/
theorem replayed_earned (w : World) (moves : List LetterMove)
    (hnone : ∀ d ∈ w.deadLetters, d.status ≠ .replayed)
    (hmoves : ∀ past move rest, moves = past ++ move :: rest → move.Honest w past) :
    ∀ d ∈ (Machine.exec LetterMove.step w moves).deadLetters, d.status = .replayed →
      Reexecuted w moves d := by
  refine Machine.exec_history
    (Q := fun moves => ∀ past move rest, moves = past ++ move :: rest → move.Honest w past)
    (J := fun moves (w' : World) => ∀ d ∈ w'.deadLetters, d.status = .replayed →
      Reexecuted w moves d)
    ?_ ?_ ?_ hmoves
  · rintro past move h past' move' rest rfl
    exact h past' move' (rest ++ [move]) (by simp)
  · exact fun d hd hstatus => absurd hstatus (hnone d hd)
  · intro past move h hpast d hd hstatus
    have hhonest : move.Honest w past := h past move [] rfl
    rw [← Machine.exec_concat] at hd
    obtain ⟨d₀, hd₀, hmarked | hre, rfl⟩ := hhonest.marksOnly d hd hstatus
    · exact (hpast d₀ hd₀ hmarked).append _
    · exact hre

/-! ## Letters that stay behind -/

/-- The replay of the item returns, with the run of the item in `SUCCESS`. -/
structure Recovers (env : Env) (tenant : String) (fallback : ℕ → Option ReplayResponse) (itemId : ℕ)
    (item : DeadLetterRecord) (w w' : World) : Prop where
  found : w.deadLetter? tenant itemId = some item
  returns : ∃ response,
    (replayDeadLetter env.toEvaluator tenant fallback itemId).run env.handle w = (.ok response, w')
  success : ∃ run, w'.run? tenant item.runId = some run ∧ run.status = .success

/-- A replay that recovers its run leaves no pending letter of the run. -/
def LetterMove.Clears (w : World) : LetterMove → Prop
  | .replayDeadLetter env tenant fallback itemId => ∀ item w',
    Recovers env tenant fallback itemId item w w' →
      ∀ d ∈ w'.deadLetters, d.runId = item.runId → d.status ≠ .pending
  | _ => True

/-- A replay that recovers its run is asked for the only pending letter of the run. -/
def LetterMove.Sole (w : World) : LetterMove → Prop
  | .replayDeadLetter env tenant fallback itemId => ∀ item w',
    Recovers env tenant fallback itemId item w w' →
      ∀ d ∈ w.deadLetters, d.runId = item.runId → d.status = .pending → d.id = item.id
  | _ => True

/-- A replay that recovers its run marks its item, and does nothing else to the letters. -/
theorem Recovers.letters {env : Env} {tenant : String} {fallback : ℕ → Option ReplayResponse}
    {itemId : ℕ} {item : DeadLetterRecord} {w w' : World}
    (h : Recovers env tenant fallback itemId item w w') :
    w'.deadLetters = Letters.mark w.deadLetters tenant item.id := by
  obtain ⟨hfound, ⟨response, hrun⟩, run, hstored, hstatus⟩ := h
  have hreplays : Ending env (replayDeadLetter env.toEvaluator tenant fallback itemId) _ w :=
    replayDeadLetter_replays fallback itemId w
  have hitem := hreplays.run.1 item hfound
  rw [hrun] at hitem
  cases hitem with
  | kept _ hfailed => exact absurd hstatus (hfailed response rfl run hstored)
  | marked hletters _ => exact hletters

theorem LetterMove.clears_iff_sole (w : World) (move : LetterMove) :
    move.Clears w ↔ move.Sole w := by
  cases move with
  | replayDeadLetter env tenant fallback itemId =>
    refine forall₂_congr fun item w' => forall_congr' fun h => ?_
    obtain ⟨hmem, -, htenant⟩ := deadLetter?_eq_some h.found
    rw [h.letters]
    constructor
    · intro hclear d hd hrun hpending
      by_contra hid
      refine hclear d (Table.mem_update_of_not hd ?_) hrun hpending
      simp [hid]
    · intro hsole d hd hrun hpending
      obtain ⟨d₀, hd₀, rfl | ⟨-, hd⟩⟩ := mem_mark hd
      · -- a pending letter that was not marked is not the item
        have hid := hsole d hd₀ hrun hpending
        obtain rfl : d = item := Table.eq_of_key_eq hd₀ hmem hid
        obtain ⟨b, hb, hsame⟩ := Table.mem_update.1 hd
        have hb' : b = d := by
          refine Table.eq_of_key_eq hb hd₀ ?_
          rw [hsame]
          split <;> rfl
        subst hb'
        rw [if_pos (by simp [htenant])] at hsame
        rw [hsame] at hpending
        cases hpending
      · rw [hd] at hpending
        cases hpending
  | _ => exact Iff.rfl

/-- **When a replay leaves no stale letter**: every replay of a history that recovers its run leaves
no pending letter of the run, exactly if each is asked for the run's only pending letter. -/
theorem cleared_iff (w : World) (moves : List LetterMove) :
    Machine.Every LetterMove.step LetterMove.Clears w moves ↔
      Machine.Every LetterMove.step LetterMove.Sole w moves :=
  ⟨Machine.Every.mono fun w move => (move.clears_iff_sole w).1,
    Machine.Every.mono fun w move => (move.clears_iff_sole w).2⟩

/-! ### A charge that fails -/

/-- A workflow of one node. -/
def chargeWorkflow : WorkflowDefinition where
  id := some "wf_charge"
  name := "charge"
  trigger := ⟨"webhook", [], .null⟩
  nodes := [{ id := "charge", type := "action.http", name := "Charge" }]
  edges := []
  accepted := by decide

/-- The stored row of the charge workflow. -/
def chargeRecord : WorkflowRecord where
  id := "wf_charge"
  tenantId := "acme"
  name := "charge"
  description := ""
  status := .active
  version := 1
  triggerType := "webhook"
  definitionJson := chargeWorkflow.toWorkflowSpec

/-- The charge fails. -/
def chargeFails : LetterMove :=
  .execute (.steady fun _ => .error ⟨.valueError, "401 unauthorized"⟩) "acme"
    { definition := chargeWorkflow, runId := "RUN-1", inputPayload := .null }

/-- Its first dead letter is replayed, and this time the node succeeds. -/
def chargeReplayed : LetterMove :=
  .replayDeadLetter (.steady fun _ => .ok .null) "acme" (fun _ => none) 0

/-- The workflow is stored. -/
def chargeStored : LetterMove := .workflows (Registry.empty.create "acme" chargeRecord).2

theorem replayed_earned_charge :
    ∃ d ∈ (Machine.exec LetterMove.step World.empty
        [chargeStored, chargeFails, chargeReplayed]).deadLetters,
      d.status = .replayed ∧
        Reexecuted World.empty [chargeStored, chargeFails, chargeReplayed] d := by
  have hmarked : ((Machine.exec LetterMove.step World.empty
      [chargeStored, chargeFails, chargeReplayed]).deadLetters.rows.any
        (·.status = .replayed)) = true := by decide +kernel
  obtain ⟨d, hd, hstatus⟩ := List.any_eq_true.1 hmarked
  refine ⟨d, hd, by simpa using hstatus, replayed_earned World.empty _
    (fun d hd => absurd hd (Table.not_mem_empty d)) ?_ d hd (by simpa using hstatus)⟩
  have hfinds : ((Machine.exec LetterMove.step World.empty
      [chargeStored, chargeFails]).deadLetter? "acme" 0).all (fun item =>
        ((Machine.exec LetterMove.step World.empty
          [chargeStored, chargeFails]).run? "acme" item.runId).isSome &&
        ((Machine.exec LetterMove.step World.empty
          [chargeStored, chargeFails]).registry.getById "acme" item.workflowId).isSome) = true := by
    decide +kernel
  rintro (_ | ⟨_, _ | ⟨_, _ | ⟨_, past⟩⟩⟩) move rest h
  · obtain ⟨rfl, -⟩ := List.cons.inj h
    trivial
  · obtain ⟨rfl, rfl, -⟩ : _ = _ ∧ _ = _ ∧ _ = _ := by simpa using h
    trivial
  · obtain ⟨rfl, rfl, rfl, -⟩ : _ = _ ∧ _ = _ ∧ _ = _ ∧ _ = _ := by simpa using h
    intro item hitem
    rw [hitem, Option.all_some, Bool.and_eq_true] at hfinds
    exact Or.inr hfinds
  · simp at h

/-- A batch replay marks a letter whose run is as it was. -/
theorem not_reexecuted_batch : ¬ ∀ moves,
    ∀ d ∈ (Machine.exec LetterMove.step World.empty moves).deadLetters, d.status = .replayed →
      Reexecuted World.empty moves d := by
  intro hall
  have hmarked : ((Machine.exec LetterMove.step World.empty [chargeStored, chargeFails,
      .replayAllDeadLetters (.steady fun _ => .ok .null) "acme" 0]).deadLetters.rows.any
        fun d => d.status = .replayed ∧ d.runId = "RUN-1") = true := by decide +kernel
  obtain ⟨d, hd, hstatus⟩ := List.any_eq_true.1 hmarked
  obtain ⟨hstatus, hrun⟩ : d.status = .replayed ∧ d.runId = "RUN-1" := by simpa using hstatus
  obtain ⟨past, move, rest, h, ⟨d₀, hd₀, -⟩, wf, -, hexecuted, -⟩ := hall _ d hd hstatus
  rcases past with _ | ⟨_, _ | ⟨_, _ | ⟨_, past⟩⟩⟩
  · exact Table.not_mem_empty d₀ hd₀
  · obtain ⟨rfl, -⟩ := List.cons.inj h
    exact Table.not_mem_empty d₀ hd₀
  · obtain ⟨rfl, rfl, rfl, -⟩ : _ = _ ∧ _ = _ ∧ _ = _ ∧ _ = _ := by simpa using h
    rw [hrun] at hexecuted
    have hnone : (((Machine.exec LetterMove.step World.empty [chargeStored, chargeFails,
        .replayAllDeadLetters (.steady fun _ => .ok .null) "acme" 0]).eventsOf "RUN-1").drop
          ((Machine.exec LetterMove.step World.empty [chargeStored, chargeFails]).eventsOf
            "RUN-1").length).length = 0 := by decide +kernel
    exact (List.length_pos_of_mem hexecuted).ne' hnone
  · simp at h

/-- The world after the charge failed twice. -/
def chargeFailedTwice : World :=
  Machine.exec LetterMove.step World.empty [chargeStored, chargeFails, chargeFails]

/-- What the replay of the first letter comes to then. -/
def chargeRecovered : Except PyError ReplayResponse × World :=
  (replayDeadLetter (Env.steady fun _ => .ok .null).toEvaluator "acme" (fun _ => none) 0).run
    (Env.steady fun _ => .ok .null).handle chargeFailedTwice

/-- The replay succeeds, and the second letter stays. -/
theorem not_clears_twice : ¬ ∀ moves,
    Machine.Every LetterMove.step LetterMove.Clears World.empty moves := by
  intro hall
  have hevery : Machine.Every LetterMove.step LetterMove.Clears World.empty
      ([chargeStored, chargeFails, chargeFails] ++ [chargeReplayed]) := hall _
  obtain ⟨-, hclears⟩ := Machine.every_concat.1 hevery
  have hfound : (chargeFailedTwice.deadLetter? "acme" 0).map (·.runId) = some "RUN-1" := by
    decide +kernel
  obtain ⟨item, hitem, hrun⟩ := Option.map_eq_some_iff.1 hfound
  have hreturns : chargeRecovered.1.isOk = true := by decide +kernel
  have hsuccess : (chargeRecovered.2.run? "acme" "RUN-1").map (·.status) = some .success := by
    decide +kernel
  have hpending : (chargeRecovered.2.deadLetters.rows.any
      fun d => d.runId = "RUN-1" ∧ d.status = .pending) = true := by decide +kernel
  obtain ⟨d, hd, hstays⟩ := List.any_eq_true.1 hpending
  obtain ⟨hdrun, hdstatus⟩ : d.runId = "RUN-1" ∧ d.status = .pending := by simpa using hstays
  refine hclears item chargeRecovered.2 ⟨hitem, ?_, ?_⟩ d hd (hdrun.trans hrun.symm) hdstatus
  · cases hout : chargeRecovered.1 with
    | ok response => exact ⟨response, Prod.ext hout rfl⟩
    | error e =>
      rw [hout] at hreturns
      cases hreturns
  · rw [hrun]
    exact Option.map_eq_some_iff.1 hsuccess

end FlowMesh
