import FlowMesh.Engine.Session

/-!
# Executions that settle

The `try` block of the retry loop turns every exception of a dispatch into a failed step. Three
statements of `_execute_node` stand outside it and read values that the workflow's author chose:
`int(policy.get("max_attempts"))`, and the two conversions and the product of
`calculate_backoff`. Where nothing but dispatches raises, `settles_iff` says exactly when an
execution returns with its run and all of its steps in a final status or at an approval gate:
when these statements work for every node and attempt that the execution comes to, the id of the
run is not taken by another tenant, and no step was left in `RUNNING` before.

`Replies` lists what the world answers to one execution by the number of its dispatches so far,
which leaves every sequence of outcomes possible. `Replies.Moves` follows the traversal on the
answers alone.
-/

namespace FlowMesh

open Python Database Async

/-- The execution returned the run as it is stored, in a final status or at an approval gate, and
none of the run's steps is running. -/
def Ledger.Settles (L : Ledger) (r : Except PyError RunRecord) : Prop :=
  (∃ run, r = .ok run ∧ L.run = some run ∧
    run.status ∈ [RunStatus.success, .failed, .waitingApproval]) ∧
  ∀ s ∈ L.steps, s.status ≠ .running

/-- An execution ended with its run settled. -/
def RunSettles (tenant runId : String) (out : Except PyError RunRecord × World) : Prop :=
  (out.2.ledger tenant runId).Settles out.1

/-! ## Replies -/

/-- What the world answers to one execution after so many dispatches. -/
structure Replies where
  dispatch : ℕ → Except PyError DispatchResult
  circuitState : ℕ → CircuitState
  circuitFailure : ℕ → CircuitState
  random : ℕ → ℚ
  elapsedMs : ℕ → PyFloat
  uuid : String

/-- The environment of the replies, for an execution whose traversal starts when the run has
`base` events. No call raises but the dispatches. -/
def Replies.env (p : Replies) (ev : Evaluator) (runId : String) (base : ℕ) : Env where
  toEvaluator := ev
  dispatch := fun w _ _ _ => p.dispatch ((w.eventsOf runId).length - base)
  circuitState := fun w _ => p.circuitState ((w.eventsOf runId).length - base)
  circuitFailure := fun w _ => p.circuitFailure ((w.eventsOf runId).length - base)
  fault := fun _ _ => none
  random := fun w => p.random ((w.eventsOf runId).length - base)
  elapsedMs := fun w => p.elapsedMs ((w.eventsOf runId).length - base)
  uuid := fun _ => p.uuid

/-- The pause before the attempt can be computed. -/
def Retry.Pauses (u : Unicode) (policy : Retry) (attempt : ℕ) : Prop :=
  ∀ rnd, (calculateBackoff u attempt policy rnd).isOk = true

namespace Replies

variable (p : Replies)

/-- The dispatch behind `n` others fails in a way that is tried again. -/
def Retries (n : ℕ) : Prop := ∃ exc, p.dispatch n = .error exc ∧ categorizeError exc = .transient

/-- Of at most `left` dispatches behind `n` others, the first that is not tried again succeeds;
`m` dispatches have then been made. -/
inductive Succeeds : ℕ → ℕ → DispatchResult → ℕ → Prop
  | now {left n : ℕ} {res : DispatchResult} (h : p.dispatch n = .ok res) :
      Succeeds (left + 1) n res (n + 1)
  | later {left n m : ℕ} {res : DispatchResult} (hn : p.Retries n)
      (h : Succeeds left (n + 1) res m) : Succeeds (left + 1) n res m

/-- The circuit breaker lets the node pass. -/
def Admits (node : WorkflowNode) (n : ℕ) : Prop :=
  ∀ c, node.connection? = some c → p.circuitState n ≠ .open

/-- The node succeeds with `res`, behind `m` dispatches. -/
def Yields (u : Unicode) (node : WorkflowNode) (n : ℕ) (res : DispatchResult) (m : ℕ) : Prop :=
  p.Admits node n ∧ ∃ max, node.policy.maxAttempts u = .ok max ∧ p.Succeeds max.toNat n res m

/-- Of the attempts behind `n` dispatches, the pause before every one that comes after `k` failed
ones and before `k + left` can be computed. -/
def Paced (u : Unicode) (node : WorkflowNode) (n k left : ℕ) : Prop :=
  ∀ j, k ≤ j → j < k + left → 0 < j → (∀ i < j, p.Retries (n + i)) → node.policy.Pauses u (j + 1)

/-- The statements outside the `try` block work for the node: the number of its attempts can be
read, and the pause before each attempt that is needed can be computed. -/
def Copes (u : Unicode) (node : WorkflowNode) (n : ℕ) : Prop :=
  ∃ max, node.policy.maxAttempts u = .ok max ∧ p.Paced u node n 0 max.toNat

end Replies

/-! ## Calls that do not raise -/

namespace Env.Does

variable {env : Env} {tenant runId : String} {L : Ledger}

/-- A call in an environment without faults. -/
theorem effect {o : Op} {Φ : Except PyError o.Res → Ledger → Prop}
    (hfault : ∀ w, env.faultOf o w = none)
    (hΦ : ∀ w : World, w.ledger tenant runId = L →
      Φ (env.effect o w).1 ((env.effect o w).2.ledger tenant runId)) :
    env.Does tenant runId (perform o) L Φ := by
  refine call (fun w hw _ => hΦ w hw) fun w e b _ hf => ?_
  rw [hfault] at hf
  cases hf

/-- A call that touches no ledger. -/
theorem answered {o : Op} {Φ : Except PyError o.Res → Ledger → Prop}
    (hfault : ∀ w, env.faultOf o w = none) (ho : o.Quiet)
    (hΦ : ∀ w : World, w.ledger tenant runId = L → Φ (env.effect o w).1 L) :
    env.Does tenant runId (perform o) L Φ := by
  refine effect hfault fun w hw => ?_
  rw [env.ledger_quiet _ _ ho, hw]
  exact hΦ w hw

/-- A call that touches no ledger and answers, and then the rest. -/
theorem answered_seq {o : Op} {β : Type} {f : o.Res → M β} {Φ : Except PyError β → Ledger → Prop}
    (hfault : ∀ w, env.faultOf o w = none) (ho : o.Quiet)
    (hf : ∀ w : World, w.ledger tenant runId = L → ∃ a, (env.effect o w).1 = .ok a ∧
      env.Does tenant runId (f a) L Φ) :
    env.Does tenant runId (perform o >>= f) L Φ := by
  refine seq (answered hfault ho fun w hw => ?_)
  obtain ⟨a, ha, hdoes⟩ := hf w hw
  rw [ha]
  exact hdoes

end Env.Does

namespace Replies

variable {p : Replies} {ev : Evaluator} {tenant runId workflowId : String} {base : ℕ}
  {node : WorkflowNode} {context : Context} {config : List (String × Json)} {stepId n k : ℕ}
  {L L' : Ledger}

theorem faultOf_env (o : Op) (w : World) : (p.env ev runId base).faultOf o w = none := by
  cases o <;> rfl

/-- The number of dispatches so far. -/
theorem position {w : World} (hw : w.ledger tenant runId = L)
    (hL : L.events.length = base + n) : (w.eventsOf runId).length - base = n := by
  have hevents : (w.eventsOf runId).length = base + n := by
    rw [← hL, ← hw]
    rfl
  omega

/-! ## One node -/

/-- A step in `status` and `k` events were added to the ledger. -/
structure Adds (L : Ledger) (stepId : ℕ) (status : StepStatus) (k : ℕ) (L' : Ledger) : Prop where
  out : ∃ row es, row.id = stepId ∧ row.id ∉ L.steps.map (·.id) ∧ row.status = status ∧
    es.length = k ∧ L' = (L.add row).log es

theorem Adds.log {status : StepStatus} (h : Adds L stepId status k L') (e : Event) :
    Adds L stepId status (k + 1) (L'.log [e]) := by
  obtain ⟨row, es, hid, hnew, hstatus, hlen, rfl⟩ := h.out
  exact ⟨row, es ++ [e], hid, hnew, hstatus, by simp [hlen], Ledger.log_log ..⟩

theorem Adds.amend {status status' : StepStatus} (h : Adds L stepId status k L')
    (durationMs : PyFloat) (outputSnapshot : Json) (error : Option String) :
    Adds L stepId status' k (L'.amend stepId fun s =>
      { s with status := status', durationMs, outputSnapshot, error }) := by
  obtain ⟨row, es, rfl, hnew, -, hlen, rfl⟩ := h.out
  refine ⟨{ row with status := status', durationMs, outputSnapshot, error }, es, rfl, hnew, rfl,
    hlen, ?_⟩
  rw [Ledger.amend_log, Ledger.amend_add _ hnew]

theorem Adds.length_events {status : StepStatus} (h : Adds L stepId status k L')
    (hL : L.events.length = base + n) : L'.events.length = base + (n + k) := by
  obtain ⟨row, es, -, -, -, hlen, rfl⟩ := h.out
  rw [Ledger.log_events, Ledger.add_events, List.length_append, hL, hlen, Nat.add_assoc]

/-- A call that touches no ledger, whatever it answers, and then the rest. -/
theorem silent_seq {o : Op} {β : Type} {f : o.Res → M β} {Φ : Except PyError β → Ledger → Prop}
    (ho : o.Quiet) (hres : ∀ w, ∃ a, ((p.env ev runId base).effect o w).1 = .ok a)
    (hf : ∀ a, (p.env ev runId base).Does tenant runId (f a) L Φ) :
    (p.env ev runId base).Does tenant runId (perform o >>= f) L Φ :=
  Env.Does.answered_seq (faultOf_env o) ho fun w _ => (hres w).imp fun a ha => ⟨ha, hf a⟩

/-- `record_step`. -/
theorem recorded {status : StepStatus} {inputSnapshot : List (String × Json)}
    {Φ : Except PyError ℕ → Ledger → Prop}
    (hΦ : ∀ id, id ∉ L.steps.map (·.id) →
      Φ (.ok id) (L.add (World.newStep tenant runId node status inputSnapshot id))) :
    (p.env ev runId base).Does tenant runId
      (perform (.recordStep tenant runId node status inputSnapshot)) L Φ := by
  refine Env.Does.effect (faultOf_env _) ?_
  rintro w rfl
  have hledger : (w.recordStep tenant runId node status inputSnapshot).ledger tenant runId = _ :=
    World.ledger_recordStep node status inputSnapshot
  have hok := hΦ _ World.fresh_not_mem_ledger
  rw [← hledger] at hok
  exact hok

/-- `update_run_status`. -/
theorem rated {status : RunStatus} {outputPayload : Json} {error : Option String}
    {Φ : Except PyError Unit → Ledger → Prop}
    (hΦ : Φ (.ok ()) (L.setRun fun r => { r with status, outputPayload, error })) :
    (p.env ev runId base).Does tenant runId
      (perform (.updateRunStatus tenant runId status outputPayload error)) L Φ := by
  refine Env.Does.effect (faultOf_env _) ?_
  rintro w rfl
  rw [← World.ledger_updateRunStatus] at hΦ
  exact hΦ

theorem closeCircuit_settles {Φ : Except PyError Unit → Ledger → Prop} (hΦ : Φ (.ok ()) L) :
    (p.env ev runId base).Does tenant runId (closeCircuit node) L Φ := by
  unfold closeCircuit
  cases node.connection? with
  | none => exact Env.Does.ret hΦ
  | some c =>
    refine silent_seq trivial (fun w => ⟨(), rfl⟩) fun _ => ?_
    refine silent_seq trivial (fun w => ⟨(), rfl⟩) fun _ => ?_
    exact Env.Does.answered (faultOf_env _) trivial fun w hw => hΦ

/-- `update_step`. -/
theorem stored {status status' : StepStatus} {durationMs : PyFloat} {outputSnapshot : Json}
    {error : Option String} {Φ : Except PyError Unit → Ledger → Prop}
    (h : Adds L stepId status k L') (hΦ : ∀ L'', Adds L stepId status' k L'' → Φ (.ok ()) L'') :
    (p.env ev runId base).Does tenant runId
      (perform (.updateStep tenant stepId status' durationMs outputSnapshot error)) L' Φ := by
  refine Env.Does.effect (faultOf_env _) ?_
  rintro w rfl
  have hadds : Adds L stepId status' k _ := h.amend durationMs outputSnapshot error
  rw [← World.ledger_updateStep] at hadds
  exact hΦ _ hadds

theorem settle_settles (res : DispatchResult) (h : Adds L stepId .running k L') :
    (p.env ev runId base).Does tenant runId (settle tenant node stepId res) L' fun r L'' =>
      r = .ok () ∧ Adds L stepId .success k L'' := by
  unfold settle
  refine Env.Does.seq (closeCircuit_settles (Env.Does.seq (stored h fun L'' hadds => ?_)))
  exact Env.Does.answered (faultOf_env _) trivial fun w hw => ⟨rfl, hadds⟩

/-- The `try` block raises exactly what the dispatch raises. -/
theorem tryNode_settles (h : Adds L stepId .running k L') (hL : L.events.length = base + n) :
    (p.env ev runId base).Does tenant runId (tryNode tenant runId node config context stepId) L'
      fun r L'' => r = p.dispatch (n + k) ∧
        Adds L stepId (if r.isOk then .success else .running) (k + 1) L'' := by
  unfold tryNode
  refine Env.Does.seq (Env.Does.effect (faultOf_env _) fun w hw => ?_)
  have hdispatch : (p.env ev runId base).dispatch w node config context = p.dispatch (n + k) :=
    congrArg p.dispatch (position hw (h.length_events hL))
  have hledger : ((p.env ev runId base).effect (.dispatchNodeType runId node config context)
      w).2.ledger tenant runId = L'.log [.dispatched runId node.id config context
        (p.dispatch (n + k)).isOk] := by
    rw [← hw, ← hdispatch]
    exact World.ledger_log rfl
  rw [hledger, show ((p.env ev runId base).effect (.dispatchNodeType runId node config context)
    w).1 = p.dispatch (n + k) from hdispatch]
  cases p.dispatch (n + k) with
  | error exc => exact ⟨rfl, h.log _⟩
  | ok res =>
    refine Env.Does.bind (settle_settles res (h.log _)) ?_ ?_
    · rintro - L'' ⟨-, hadds⟩
      exact Env.Does.ret ⟨rfl, hadds⟩
    · rintro e L'' ⟨h, -⟩
      cases h

theorem onFailure_settles (exc : PyError) {Φ : Except PyError Unit → Ledger → Prop}
    (hΦ : Φ (.ok ()) L) :
    (p.env ev runId base).Does tenant runId (onFailure workflowId node exc) L Φ := by
  unfold onFailure
  split
  · unfold countFailure
    refine silent_seq trivial (fun w => ⟨_, rfl⟩) fun state => ?_
    refine silent_seq trivial (fun w => ⟨(), rfl⟩) fun _ => ?_
    split
    · exact Env.Does.answered (faultOf_env _) trivial fun w hw => hΦ
    · exact Env.Does.ret hΦ
  · exact Env.Does.ret hΦ

/-- The pause raises if it cannot be computed. -/
theorem backoff_settles (attempt : ℕ) {Φ : Except PyError Unit → Ledger → Prop}
    (hok : (1 < attempt → node.policy.Pauses ev.unicode attempt) → Φ (.ok ()) L)
    (herr : ∀ e, ¬ (1 < attempt → node.policy.Pauses ev.unicode attempt) → Φ (.error e) L) :
    (p.env ev runId base).Does tenant runId (backoff ev node attempt) L Φ := by
  unfold backoff
  split
  · next hlate =>
    refine silent_seq trivial (fun w => ⟨_, rfl⟩) fun rnd => ?_
    cases hsec : calculateBackoff ev.unicode attempt node.policy rnd with
    | error e =>
      refine Env.Does.raise (herr e fun h => ?_)
      have hok := h hlate rnd
      rw [hsec] at hok
      cases hok
    | ok sec =>
      refine Env.Does.answered (faultOf_env _) trivial fun w hw => hok fun _ rnd' => ?_
      rw [calculateBackoff_isOk _ _ _ rnd' rnd, hsec]
      rfl
  · next hfirst => exact Env.Does.ret (hok fun h => absurd h hfirst)

/-! ### The retry loop -/

/-- What the pauses of `left + 1` attempts need: the first one, and the others if the first attempt
is tried again. -/
theorem paced_succ {u : Unicode} {left : ℕ} (hk : ∀ i < k, p.Retries (n + i)) :
    p.Paced u node n k (left + 1) ↔
      (1 < k + 1 → node.policy.Pauses u (k + 1)) ∧
        (p.Retries (n + k) → p.Paced u node n (k + 1) left) := by
  constructor
  · intro h
    refine ⟨fun hpos => h k le_rfl (by omega) (by omega) hk, fun _ j hj hlt => ?_⟩
    exact h j (by omega) (by omega)
  · rintro ⟨hfirst, hrest⟩ j hj hlt hpos hall
    rcases Nat.eq_or_lt_of_le hj with rfl | hj
    · exact hfirst (by omega)
    · exact hrest (hall k hj) j hj (by omega) hpos hall

/-- The retry loop, by induction on the attempts left. -/
theorem retryLoop_settles (left k : ℕ) (lastError : Option PyError)
    (lastCategory : ErrorCategory) (h : Adds L stepId .running k L')
    (hL : L.events.length = base + n) (hk : ∀ i < k, p.Retries (n + i)) :
    (p.env ev runId base).Does tenant runId (retryLoop ev tenant runId workflowId node config
      context stepId left (k + 1) lastError lastCategory) L' fun r L'' =>
        match r with
        | .ok (.done res) => p.Paced ev.unicode node n k left ∧
          ∃ m, p.Succeeds left (n + k) res (n + m) ∧ Adds L stepId .success m L''
        | .ok (.gaveUp _ _ _) => p.Paced ev.unicode node n k left ∧
          (∀ res m, ¬ p.Succeeds left (n + k) res m) ∧ ∃ m, Adds L stepId .running m L''
        | .error _ => ¬ p.Paced ev.unicode node n k left := by
  induction left generalizing k lastError lastCategory L' with
  | zero =>
    refine Env.Does.ret ⟨fun j hj hlt => by omega, fun res m hsucc => ?_, k, h⟩
    cases hsucc
  | succ left ih =>
    unfold retryLoop
    rw [paced_succ hk]
    refine Env.Does.seq (backoff_settles (k + 1) (fun hpause => ?_) fun e hpause hall =>
      hpause hall.1)
    refine Env.Does.seq (Env.Does.attempt (Env.Does.mono (tryNode_settles h hL) ?_))
    rintro r L'' ⟨hdispatch, hadds⟩
    cases r with
    | ok res =>
      have hretries : ¬ p.Retries (n + k) := by
        rintro ⟨exc, hexc, -⟩
        rw [← hdispatch] at hexc
        cases hexc
      exact Env.Does.ret ⟨⟨hpause, fun h => absurd h hretries⟩, k + 1,
        .now hdispatch.symm, hadds⟩
    | error exc =>
      refine Env.Does.seq (onFailure_settles exc ?_)
      cases hcategory : categorizeError exc with
      | transient =>
        have hretries : p.Retries (n + k) := ⟨exc, hdispatch.symm, hcategory⟩
        have hk' : ∀ i < k + 1, p.Retries (n + i) := by
          intro i hi
          rcases Nat.lt_succ_iff_lt_or_eq.1 hi with hi | rfl
          · exact hk i hi
          · exact hretries
        refine Env.Does.mono (ih (k + 1) (some exc) .transient hadds hk') ?_
        rintro (e | ⟨res⟩ | ⟨lastError, lastCategory, attempt⟩) L₃ hout
        · exact fun hall => hout (hall.2 hretries)
        · obtain ⟨hpaced, m, hsucc, hadds⟩ := hout
          exact ⟨⟨hpause, fun _ => hpaced⟩, m, .later hretries hsucc, hadds⟩
        · obtain ⟨hpaced, hfail, hadds⟩ := hout
          refine ⟨⟨hpause, fun _ => hpaced⟩, fun res m hsucc => ?_, hadds⟩
          cases hsucc with
          | now hok =>
            rw [← hdispatch] at hok
            cases hok
          | later _ hsucc => exact hfail res m hsucc
      | _ =>
        have hretries : ¬ p.Retries (n + k) := by
          rintro ⟨exc', hexc, htransient⟩
          rw [← hdispatch] at hexc
          cases hexc
          rw [hcategory] at htransient
          cases htransient
        refine Env.Does.ret ⟨⟨hpause, fun h => absurd h hretries⟩, fun res m hsucc => ?_, k + 1,
          hadds⟩
        cases hsucc with
        | now hok =>
          rw [← hdispatch] at hok
          cases hok
        | later hretry => exact hretries hretry

/-! ### `_execute_node` -/

/-- What is proved of `_execute_node`: it raises if the attempts come to a statement that does, and
otherwise its step ends as the replies say. -/
def NodeSettles (p : Replies) (u : Unicode) (node : WorkflowNode) (n : ℕ) (L : Ledger)
    (r : Except PyError StepResult) (L' : Ledger) : Prop :=
  match r with
  | .ok (.success output durationMs) => (p.Admits node n → p.Copes u node n) ∧
    ∃ stepId m, p.Yields u node n ⟨output, durationMs⟩ (n + m) ∧ Adds L stepId .success m L'
  | .ok (.failure _) => (p.Admits node n → p.Copes u node n) ∧
    (∀ res m, ¬ p.Yields u node n res m) ∧ ∃ stepId m, Adds L stepId .failed m L'
  | .error _ => ¬ (p.Admits node n → p.Copes u node n)

theorem giveUp_settles (maxAttempts : ℤ) (lastError : Option PyError)
    (lastCategory : ErrorCategory) (attempt : ℕ) (h : Adds L stepId .running k L') :
    (p.env ev runId base).Does tenant runId (giveUp tenant runId workflowId node config stepId
      maxAttempts lastError lastCategory attempt) L' fun r L'' =>
        (∃ error, r = .ok (.failure error)) ∧ Adds L stepId .failed k L'' := by
  unfold giveUp
  refine silent_seq trivial (fun w => ⟨_, rfl⟩) fun ms => ?_
  refine Env.Does.seq (stored h fun L'' hadds => ?_)
  refine silent_seq trivial (fun w => ⟨(), rfl⟩) fun _ => ?_
  refine silent_seq trivial (fun w => ⟨(), rfl⟩) fun _ => ?_
  refine silent_seq trivial (fun w => ⟨(), rfl⟩) fun _ => ?_
  exact Env.Does.ret ⟨⟨_, rfl⟩, hadds⟩

theorem failFast_settles (connectionId : String) (h : Adds L stepId .running k L') :
    (p.env ev runId base).Does tenant runId (failFast tenant runId workflowId node config stepId
      connectionId) L' fun r L'' =>
        (∃ error, r = .ok (.failure error)) ∧ Adds L stepId .failed k L'' := by
  unfold failFast
  refine silent_seq trivial (fun w => ⟨(), rfl⟩) fun _ => ?_
  refine Env.Does.seq (stored h fun L'' hadds => ?_)
  refine silent_seq trivial (fun w => ⟨(), rfl⟩) fun _ => ?_
  exact Env.Does.ret ⟨⟨_, rfl⟩, hadds⟩

theorem runAttempts_settles (hadmits : p.Admits node n) (h : Adds L stepId .running 0 L')
    (hL : L.events.length = base + n) :
    (p.env ev runId base).Does tenant runId (runAttempts ev tenant runId workflowId node config
      context stepId) L' (NodeSettles p ev.unicode node n L) := by
  unfold runAttempts
  cases hmax : node.policy.maxAttempts ev.unicode with
  | error e =>
    refine Env.Does.raise fun hcopes => ?_
    obtain ⟨max, hok, -⟩ := hcopes hadmits
    rw [hmax] at hok
    cases hok
  | ok max =>
    have hcopes : p.Copes ev.unicode node n ↔ p.Paced ev.unicode node n 0 max.toNat := by
      simp [Copes, hmax]
    have hyields : ∀ res m, p.Yields ev.unicode node n res m ↔ p.Succeeds max.toNat n res m := by
      simp [Yields, hmax, hadmits]
    refine Env.Does.bind (retryLoop_settles max.toNat 0 none .transient h hL (by simp)) ?_ ?_
    · rintro (res | ⟨lastError, lastCategory, attempt⟩) L'' hout
      · obtain ⟨hpaced, m, hsucc, hadds⟩ := hout
        exact Env.Does.ret ⟨fun _ => hcopes.2 hpaced, stepId, m, (hyields _ _).2 hsucc, hadds⟩
      · obtain ⟨hpaced, hfail, m, hadds⟩ := hout
        refine Env.Does.mono (giveUp_settles max lastError lastCategory attempt hadds) ?_
        rintro r L₃ ⟨⟨error, rfl⟩, hadds⟩
        exact ⟨fun _ => hcopes.2 hpaced, fun res m h => hfail res m ((hyields _ _).1 h), stepId, m,
          hadds⟩
    · exact fun e L'' hpaced hcopes' => hpaced (hcopes.1 (hcopes' hadmits))

theorem executeStep_settles (h : Adds L stepId .running 0 L') (hL : L.events.length = base + n) :
    (p.env ev runId base).Does tenant runId (executeStep ev tenant runId workflowId node config
      context stepId) L' (NodeSettles p ev.unicode node n L) := by
  unfold executeStep
  cases hconnection : node.connection? with
  | none => exact runAttempts_settles (by simp [Admits, hconnection]) h hL
  | some c =>
    refine Env.Does.answered_seq (faultOf_env _) trivial fun w hw => ⟨p.circuitState n, ?_, ?_⟩
    · exact congrArg (Except.ok ∘ p.circuitState) (position hw (h.length_events hL))
    · cases hstate : p.circuitState n with
      | «open» =>
        have hadmits : ¬ p.Admits node n := fun h => h c hconnection hstate
        refine Env.Does.mono (failFast_settles c h) ?_
        rintro r L'' ⟨⟨error, rfl⟩, hadds⟩
        exact ⟨fun h => absurd h hadmits, fun res m h => hadmits h.1, stepId, 0, hadds⟩
      | _ =>
        exact runAttempts_settles (fun _ _ => by simp [hstate]) h hL

/-- `_execute_node` on the replies. -/
theorem executeNode_settles (hL : L.events.length = base + n) :
    (p.env ev runId base).Does tenant runId (executeNode ev tenant runId workflowId node context) L
      (NodeSettles p ev.unicode node n L) := by
  unfold executeNode
  refine Env.Does.seq (recorded fun id hid => ?_)
  exact executeStep_settles ⟨_, [], rfl, hid, rfl, rfl, (Ledger.log_nil _).symm⟩ hL

/-! ## The traversal -/

section Traversal

variable (p) (ev) (d : WorkflowDefinition) (completed : List String)

/-- One iteration of the traversal, on the replies: the state of the traversal, and the number of
dispatches made. -/
inductive Moves : Traversal × ℕ → Traversal × ℕ → Prop
  | skip {t : Traversal} {n : ℕ} {id : String} {queue : List String} (hq : t.queue = id :: queue)
      (hv : id ∈ t.visited) : Moves (t, n) ({ t with queue }, n)
  | reuse {t : Traversal} {n : ℕ} {id : String} {queue : List String} {node : WorkflowNode}
      (hq : t.queue = id :: queue) (hv : id ∉ t.visited) (hn : d.node? id = some node)
      (hc : id ∈ completed) : Moves (t, n) (((t.pop id queue).reuse id).follow ev d id, n)
  | succeed {t : Traversal} {n m : ℕ} {id : String} {queue : List String} {node : WorkflowNode}
      {res : DispatchResult} (hq : t.queue = id :: queue) (hv : id ∉ t.visited)
      (hn : d.node? id = some node) (hc : id ∉ completed) (ht : node.type ≠ "action.approval")
      (hres : p.Yields ev.unicode node n res m) :
      Moves (t, n)
        (((t.pop id queue).succeed id res.output res.durationMs).follow ev d id, m)

/-- If the next iteration executes a node, the statements outside the `try` block work for it. -/
def Ready (s : Traversal × ℕ) : Prop :=
  ∀ id queue node, s.1.queue = id :: queue → id ∉ s.1.visited → d.node? id = some node →
    id ∉ completed → node.type ≠ "action.approval" → p.Admits node s.2 →
      p.Copes ev.unicode node s.2

/-- The traversal is ready in every state it comes to. -/
def Steady (s : Traversal × ℕ) : Prop :=
  ∀ s', Relation.ReflTransGen (Moves p ev d completed) s s' → Ready p ev d completed s'

variable {p ev d completed} {t : Traversal}

theorem Succeeds.unique {left m m' : ℕ} {res res' : DispatchResult}
    (h : p.Succeeds left n res m) (h' : p.Succeeds left n res' m') : res = res' ∧ m = m' := by
  induction h with
  | now hok =>
    cases h' with
    | now hok' =>
      rw [hok] at hok'
      exact ⟨Except.ok.inj hok', rfl⟩
    | later hretries _ =>
      obtain ⟨exc, hexc, -⟩ := hretries
      rw [hok] at hexc
      cases hexc
  | later hretries _ ih =>
    cases h' with
    | now hok' =>
      obtain ⟨exc, hexc, -⟩ := hretries
      rw [hok'] at hexc
      cases hexc
    | later _ h' => exact ih h'

theorem Yields.unique {u : Unicode} {m m' : ℕ} {res res' : DispatchResult}
    (h : p.Yields u node n res m) (h' : p.Yields u node n res' m') : res = res' ∧ m = m' := by
  obtain ⟨-, max, hmax, hsucc⟩ := h
  obtain ⟨-, max', hmax', hsucc'⟩ := h'
  rw [hmax] at hmax'
  obtain rfl := Except.ok.inj hmax'
  exact hsucc.unique hsucc'

/-- A traversal is steady if it is ready and the states it moves to are steady. -/
theorem steady_iff {s : Traversal × ℕ} : Steady p ev d completed s ↔
    Ready p ev d completed s ∧ ∀ s', Moves p ev d completed s s' → Steady p ev d completed s' := by
  constructor
  · exact fun h => ⟨h s .refl, fun s' hmove s'' hmoves => h s'' (hmoves.head hmove)⟩
  · rintro ⟨hready, hmoves⟩ s' hs'
    rcases hs'.cases_head with rfl | ⟨s₁, hmove, hrest⟩
    · exact hready
    · exact hmoves s₁ hmove s' hrest

/-- Moving is deterministic. -/
theorem Moves.unique {s s₁ s₂ : Traversal × ℕ} (h₁ : Moves p ev d completed s s₁)
    (h₂ : Moves p ev d completed s s₂) : s₁ = s₂ := by
  cases h₁ with
  | skip hq hv =>
    cases h₂ with
    | skip hq' hv' =>
      rw [hq] at hq'
      cases hq'
      rfl
    | reuse hq' hv' =>
      rw [hq] at hq'
      cases hq'
      exact absurd hv hv'
    | succeed hq' hv' =>
      rw [hq] at hq'
      cases hq'
      exact absurd hv hv'
  | reuse hq hv hn hc =>
    cases h₂ with
    | skip hq' hv' =>
      rw [hq] at hq'
      cases hq'
      exact absurd hv' hv
    | reuse hq' hv' =>
      rw [hq] at hq'
      cases hq'
      rfl
    | succeed hq' hv' hn' hc' =>
      rw [hq] at hq'
      cases hq'
      exact absurd hc hc'
  | succeed hq hv hn hc ht hres =>
    cases h₂ with
    | skip hq' hv' =>
      rw [hq] at hq'
      cases hq'
      exact absurd hv' hv
    | reuse hq' hv' hn' hc' =>
      rw [hq] at hq'
      cases hq'
      exact absurd hc' hc
    | succeed hq' hv' hn' hc' ht' hres' =>
      rw [hq] at hq'
      cases hq'
      rw [hn] at hn'
      cases hn'
      obtain ⟨rfl, rfl⟩ := hres.unique hres'
      rfl

/-- A traversal that moves is steady if it is ready and the next state is steady. -/
theorem Moves.steady_iff {s s' : Traversal × ℕ} (h : Moves p ev d completed s s') :
    Steady p ev d completed s ↔ Ready p ev d completed s ∧ Steady p ev d completed s' := by
  rw [Replies.steady_iff]
  refine and_congr_right fun _ => ⟨fun hall => hall s' h, fun hs s₁ hmove => ?_⟩
  rwa [← h.unique hmove]

/-- Steps were added to the ledger, none of which is running. -/
def Closes (L L' : Ledger) : Prop :=
  ∃ rows, L'.steps = L.steps ++ rows ∧ ∀ s ∈ rows, s.status ≠ .running

theorem Closes.refl (L : Ledger) : Closes L L := ⟨[], by simp⟩

theorem Closes.trans {L₁ L₂ L₃ : Ledger} (h : Closes L₁ L₂) (h' : Closes L₂ L₃) :
    Closes L₁ L₃ := by
  obtain ⟨rows, hrows, hall⟩ := h
  obtain ⟨rows', hrows', hall'⟩ := h'
  exact ⟨rows ++ rows', by rw [hrows', hrows, List.append_assoc],
    List.forall_mem_append.2 ⟨hall, hall'⟩⟩

theorem Adds.closes {status : StepStatus} (h : Adds L stepId status k L')
    (hstatus : status ≠ .running) : Closes L L' := by
  obtain ⟨row, es, -, -, rfl, -, rfl⟩ := h.out
  exact ⟨[row], rfl, by simpa using hstatus⟩

theorem Adds.run {status : StepStatus} (h : Adds L stepId status k L') : L'.run = L.run := by
  obtain ⟨row, es, -, -, -, -, rfl⟩ := h.out
  rfl

/-- Steps that are not running afterwards were not running before. -/
theorem Closes.forall_iff (h : Closes L L') :
    (∀ s ∈ L'.steps, s.status ≠ .running) ↔ ∀ s ∈ L.steps, s.status ≠ .running := by
  obtain ⟨rows, hrows, hall⟩ := h
  rw [hrows, List.forall_mem_append]
  exact and_iff_left hall

/-- The run's row behind a traversal. -/
def rowAfter (run : Option RunRecord) : Outcome → Option RunRecord
  | .parked => run.map fun r =>
    { r with status := .waitingApproval, outputPayload := .null, error := none }
  | _ => run

/-- What is proved of the traversal: it raises if it comes to a state that it is not ready for, and
otherwise leaves no step running. -/
def LoopSettles (p : Replies) (ev : Evaluator) (d : WorkflowDefinition) (completed : List String)
    (s : Traversal × ℕ) (L : Ledger) (r : Except PyError Outcome) (L' : Ledger) : Prop :=
  match r with
  | .ok outcome => Steady p ev d completed s ∧ Closes L L' ∧ L'.run = rowAfter L.run outcome
  | .error _ => ¬ Steady p ev d completed s

theorem LoopSettles.of_moves {s s' : Traversal × ℕ} {L₁ : Ledger} {r : Except PyError Outcome}
    (hmove : Moves p ev d completed s s') (hready : Ready p ev d completed s) (hL : Closes L L₁)
    (hrun : L₁.run = L.run) (h : LoopSettles p ev d completed s' L₁ r L') :
    LoopSettles p ev d completed s L r L' := by
  cases r with
  | error e => exact fun hs => h (hmove.steady_iff.1 hs).2
  | ok outcome =>
    obtain ⟨hs, hcloses, hafter⟩ := h
    exact ⟨hmove.steady_iff.2 ⟨hready, hs⟩, hL.trans hcloses, by rw [hafter, hrun]⟩

theorem steady_of_not_moves {s : Traversal × ℕ} (hready : Ready p ev d completed s)
    (h : ∀ s', ¬ Moves p ev d completed s s') : Steady p ev d completed s :=
  steady_iff.2 ⟨hready, fun s' hmove => absurd hmove (h s')⟩

theorem park_settles : (p.env ev runId base).Does tenant runId (park ev tenant runId node context)
    L fun r L' => r = .ok () ∧ Closes L L' ∧ L'.run = rowAfter L.run .parked := by
  unfold park
  refine Env.Does.seq (recorded fun id _ => rated ⟨rfl, ?_, rfl⟩)
  exact ⟨[_], rfl, by simp [World.newStep]⟩

theorem LoopSettles.nil (hq : t.queue = []) :
    LoopSettles p ev d completed (t, n) L (.ok (.finished t.lastOutput)) L := by
  have hnone : ∀ id queue, t.queue ≠ id :: queue := by simp [hq]
  refine ⟨steady_of_not_moves (fun id queue _ h => absurd h (hnone id queue)) ?_, .refl L, rfl⟩
  intro s' hmove
  cases hmove with
  | skip h => exact hnone _ _ h
  | reuse h => exact hnone _ _ h
  | succeed h => exact hnone _ _ h

/-- A traversal that does not come back from a node that it does not pass. -/
theorem steady_of_stuck {id : String} {queue : List String} {node : WorkflowNode}
    (hq : t.queue = id :: queue) (hv : id ∉ t.visited) (hn : d.node? id = some node)
    (hc : id ∉ completed)
    (hcopes : node.type ≠ "action.approval" → p.Admits node n → p.Copes ev.unicode node n)
    (hstuck : node.type ≠ "action.approval" → ∀ res m, ¬ p.Yields ev.unicode node n res m) :
    Steady p ev d completed (t, n) := by
  refine steady_of_not_moves ?_ ?_
  · intro id' queue' node' hq' _ hn' _ ht
    obtain ⟨rfl, rfl⟩ := List.cons.inj (hq.symm.trans hq')
    obtain rfl := Option.some.inj (hn.symm.trans hn')
    exact hcopes ht
  · intro s' hmove
    cases hmove with
    | skip hq' hv' =>
      obtain ⟨rfl, rfl⟩ := List.cons.inj (hq.symm.trans hq')
      exact hv hv'
    | reuse hq' hv' hn' hc' =>
      obtain ⟨rfl, rfl⟩ := List.cons.inj (hq.symm.trans hq')
      exact hc hc'
    | succeed hq' hv' hn' hc' ht hres =>
      obtain ⟨rfl, rfl⟩ := List.cons.inj (hq.symm.trans hq')
      obtain rfl := Option.some.inj (hn.symm.trans hn')
      exact hstuck ht _ _ hres

/-- The traversal, by induction on the fuel. -/
theorem traverse_settles (run : RunRecord) (fuel : ℕ) (t : Traversal) (n : ℕ) (L : Ledger)
    (hq : ∀ x ∈ t.queue, x ∈ d.nodeIds) (hfuel : t.budget d ≤ fuel)
    (hL : L.events.length = base + n) :
    (p.env ev run.id base).Does tenant run.id (traverse ev tenant run d completed fuel t) L
      (LoopSettles p ev d completed (t, n) L) := by
  induction fuel generalizing t n L with
  | zero =>
    exact Env.Does.ret (.nil (Traversal.queue_of_budget hfuel))
  | succ fuel ih =>
    unfold traverse
    split
    · next hnil => exact Env.Does.ret (.nil hnil)
    next id queue hcons =>
    have hid : id ∈ d.nodeIds := hq id (by simp [hcons])
    have hqueue : ∀ x ∈ queue, x ∈ d.nodeIds := fun x hx => hq x (by simp [hcons, hx])
    split
    · next hv =>
      refine Env.Does.mono (ih { t with queue } n L hqueue ?_ hL) fun r L' h =>
        h.of_moves (.skip hcons hv) ?_ (.refl L) rfl
      · simp only [Traversal.budget, hcons, List.length_cons] at hfuel ⊢
        omega
      · intro id' queue' node' hq' hv'
        obtain ⟨rfl, -⟩ := List.cons.inj (hcons.symm.trans hq')
        exact absurd hv hv'
    next hv =>
    obtain ⟨node, hnode⟩ := d.exists_node hid
    rw [hnode]
    dsimp only
    split
    · next hc =>
      refine Env.Does.mono (ih _ n L (Traversal.queue_follow hqueue) ?_ hL) fun r L' h =>
        h.of_moves (.reuse hcons hv hnode hc) ?_ (.refl L) rfl
      · have hbudget : (((t.pop id queue).reuse id).follow ev d id).budget d + 1 ≤ t.budget d :=
          Traversal.budget_follow hcons hv hid rfl rfl ev
        omega
      · intro id' queue' node' hq' _ _ hc'
        obtain ⟨rfl, -⟩ := List.cons.inj (hcons.symm.trans hq')
        exact absurd hc hc'
    next hc =>
    split
    · next ht =>
      refine Env.Does.bind park_settles ?_ ?_
      · rintro - L' ⟨-, hcloses, hrun⟩
        exact Env.Does.ret ⟨steady_of_stuck hcons hv hnode hc (fun h => absurd ht h)
          fun h => absurd ht h, hcloses, hrun⟩
      · rintro e L' ⟨h, -⟩
        cases h
    next ht =>
    have hready : (p.Admits node n → p.Copes ev.unicode node n) →
        Ready p ev d completed (t, n) := by
      intro hcopes id' queue' node' hq' _ hn' _ _
      obtain ⟨rfl, rfl⟩ := List.cons.inj (hcons.symm.trans hq')
      obtain rfl := Option.some.inj (hnode.symm.trans hn')
      exact hcopes
    refine Env.Does.bind (executeNode_settles hL) ?_ ?_
    · rintro (⟨output, durationMs⟩ | error) L' hout
      · obtain ⟨hcopes, stepId, m, hyields, hadds⟩ := hout
        refine Env.Does.mono (ih _ (n + m) L' (Traversal.queue_follow hqueue) ?_
          (hadds.length_events hL)) fun r L'' h =>
            h.of_moves (.succeed hcons hv hnode hc ht hyields) (hready hcopes)
              (hadds.closes (by simp)) hadds.run
        have hbudget : (((t.pop id queue).succeed id output durationMs).follow ev d id).budget d +
            1 ≤ t.budget d := Traversal.budget_follow hcons hv hid rfl rfl ev
        omega
      · obtain ⟨hcopes, hstuck, stepId, m, hadds⟩ := hout
        exact Env.Does.ret ⟨steady_of_stuck hcons hv hnode hc (fun _ => hcopes) fun _ => hstuck,
          hadds.closes (by simp), hadds.run⟩
    · intro e L' hcopes hs
      refine hcopes ((steady_iff.1 hs).1 id queue node hcons hv hnode hc ht)

end Traversal

/-! ## `execute` -/

section Execute

variable {a : ExecuteArgs} {traceId : String} {run : RunRecord} {steps : List RunStepRecord}

/-- The statements behind the traversal. -/
theorem finish_settles (wfId : String) (outcome : Outcome) {row : RunRecord}
    (hrow : L.run = rowAfter (some row) outcome) :
    (p.env ev run.id base).Does tenant run.id (finish tenant run wfId outcome) L fun r L' =>
      (∃ run, r = .ok run ∧ L'.run = some run ∧
        run.status ∈ [RunStatus.success, .failed, .waitingApproval]) ∧ L'.steps = L.steps := by
  have hlast : ∀ {L'} {row' : RunRecord}, L'.run = some row' →
      row'.status ∈ [RunStatus.success, .failed, .waitingApproval] → L'.steps = L.steps →
      (p.env ev run.id base).Does tenant run.id (do
        let refreshed ← perform (.getRun tenant run.id)
        return (refreshed.map (·.1)).getD run) L' fun r L' =>
          (∃ run, r = .ok run ∧ L'.run = some run ∧
            run.status ∈ [RunStatus.success, .failed, .waitingApproval]) ∧
              L'.steps = L.steps := by
    intro L' row' hrow' hstatus hsteps
    refine Env.Does.answered_seq (faultOf_env _) trivial fun w hw => ⟨_, rfl, ?_⟩
    have hrun : w.run? tenant run.id = some row' := by
      rw [← hrow', ← hw]
      rfl
    rw [hrun]
    exact Env.Does.ret ⟨⟨row', rfl, hrow', hstatus⟩, hsteps⟩
  have hset : ∀ g, L.run = some row → (L.setRun g).run = some (g row) := by
    intro g hrow'
    simp [Ledger.setRun, hrow']
  cases outcome with
  | parked => exact hlast hrow (by simp) rfl
  | finished lastOutput =>
    refine Env.Does.seq (rated (Env.Does.seq (Env.Does.attempt ?_)))
    exact Env.Does.answered (faultOf_env _) trivial fun w hw => hlast (hset _ hrow) (by simp) rfl
  | failed error =>
    refine Env.Does.seq (rated (Env.Does.seq (Env.Does.attempt ?_)))
    exact Env.Does.answered (faultOf_env _) trivial fun w hw => hlast (hset _ hrow) (by simp) rfl

/-- The traversal of `execute`, once the run is stored. -/
theorem resume_settles (hid : run.id = runId) {row : RunRecord} (hrow : L.run = some row) :
    (p.env ev runId L.events.length).Does tenant runId (resume ev tenant a traceId run steps) L
      fun r L' => L'.Settles r ↔ (∀ s ∈ L.steps, s.status ≠ .running) ∧
        Steady p ev a.definition (completedIds steps) (a.start tenant traceId steps, 0) := by
  subst hid
  unfold resume
  refine Env.Does.bind (traverse_settles run (traverseFuel a.definition)
    (a.start tenant traceId steps) 0 L (start_queue a traceId _) (budget_start_le _ _) rfl) ?_ ?_
  · rintro outcome L₁ ⟨hsteady, hcloses, hafter⟩
    rw [hrow] at hafter
    refine Env.Does.mono (finish_settles a.wfId outcome hafter) ?_
    rintro r L' ⟨hreturns, hsteps⟩
    rw [Ledger.Settles, hsteps, hcloses.forall_iff, and_iff_right hreturns, and_iff_left hsteady]
  · rintro e L₁ hunsteady
    refine iff_of_false ?_ fun h => hunsteady h.2
    rintro ⟨⟨run, h, -⟩, -⟩
    cases h

theorem ledger_executing (w : World) (definition : WorkflowSpec) :
    (w.log (.executing runId definition)).ledger tenant runId =
      (w.ledger tenant runId).log [.executing runId definition] := World.ledger_log rfl

variable (tenant a traceId) in
/-- The number of events when the traversal starts: those before, and the start. -/
theorem length_events_begin (w : World) :
    ((w.ledger tenant a.runId).begin tenant a traceId).events.length =
      (w.eventsOf a.runId).length + 1 := by
  simp [Ledger.begin, World.ledger]

theorem resume_begin {w w' : World} (hid : run.id = a.runId)
    (hw : w'.ledger tenant a.runId = (w.ledger tenant a.runId).begin tenant a traceId) :
    RunSettles tenant a.runId ((resume ev tenant a traceId run
        (w.ledger tenant a.runId).snapshot).run
          (p.env ev a.runId ((w.eventsOf a.runId).length + 1)).handle w') ↔
      (∀ s ∈ w.stepsOf tenant a.runId, s.status ≠ .running) ∧
        Steady p ev a.definition (completedIds (w.ledger tenant a.runId).snapshot)
          (a.start tenant traceId (w.ledger tenant a.runId).snapshot, 0) := by
  rw [← length_events_begin tenant a traceId]
  exact (resume_settles hid rfl).run hw

/-- The id of the run is not taken by another tenant. -/
def Free (tenant runId : String) (w : World) : Prop :=
  ∀ run ∈ w.runs, run.id = runId → run.tenantId = tenant

/-- `execute`, once the trace id is known. -/
theorem executeTraced_settles (w : World) :
    RunSettles tenant a.runId ((executeTraced ev tenant a traceId).run
        (p.env ev a.runId ((w.eventsOf a.runId).length + 1)).handle w) ↔
      Free tenant a.runId w ∧ (∀ s ∈ w.stepsOf tenant a.runId, s.status ≠ .running) ∧
        Steady p ev a.definition (completedIds (w.ledger tenant a.runId).snapshot)
          (a.start tenant traceId (w.ledger tenant a.runId).snapshot, 0) := by
  set env := p.env ev a.runId ((w.eventsOf a.runId).length + 1) with henv
  have hget : (perform (.getRun tenant a.runId) : M _).run env.handle w =
      (.ok ((w.run? tenant a.runId).map fun run => (run, w.stepsOf tenant a.runId)),
        { w with tick := w.tick + 1 }) := rfl
  unfold executeTraced
  rw [Prog.run_bind_ok _ hget]
  cases hrun : w.run? tenant a.runId with
  | none =>
    have hsnap : (w.ledger tenant a.runId).snapshot = [] := by
      simp [Ledger.snapshot, World.ledger, hrun]
    rcases w.runs.insert?_cases (a.newRun tenant traceId) with ⟨hinsert, hused⟩ |
      ⟨runs, hinsert, hfresh, hmem⟩
    · refine iff_of_false ?_ fun h => ?_
      · have hcreate : (perform (.createRun (a.newRun tenant traceId)
            a.definition.toWorkflowSpec) : M _).run env.handle { w with tick := w.tick + 1 } =
              (.error ⟨.integrityError, "UNIQUE constraint failed: runs.id"⟩,
                { w with tick := w.tick + 1 + 1 }) := by
          rw [Prog.run_perform]
          simp only [Env.handle, henv, faultOf_env, Env.effect, hinsert]
        simp only [Option.map_none]
        rw [Prog.run_bind_error _ hcreate]
        rintro ⟨⟨run, h, -⟩, -⟩
        cases h
      · obtain ⟨run, hmem, hid⟩ := List.mem_map.1 hused
        have hown : w.run? tenant a.runId = some run :=
          World.run?_eq_some.2 ⟨hmem, hid, h.1 run hmem hid⟩
        rw [hrun] at hown
        cases hown
    · have hcreate : (perform (.createRun (a.newRun tenant traceId)
          a.definition.toWorkflowSpec) : M _).run env.handle { w with tick := w.tick + 1 } =
            (.ok (), { { w with runs }.log (.executing a.runId a.definition.toWorkflowSpec) with
              tick := w.tick + 1 + 1 }) := by
        rw [Prog.run_perform]
        simp only [Env.handle, henv, faultOf_env, Env.effect, hinsert]
        rfl
      have hfree : Free tenant a.runId w := fun run hmem hid =>
        absurd (List.mem_map.2 ⟨run, hmem, hid⟩) hfresh
      have hstored : World.run? { w with runs } tenant a.runId = some (a.newRun tenant traceId) :=
        World.run?_eq_some.2 ⟨(hmem _).2 (Or.inr rfl), rfl, rfl⟩
      simp only [Option.map_none]
      rw [Prog.run_bind_ok _ hcreate, ← hsnap, and_iff_right hfree]
      refine resume_begin rfl ?_
      rw [World.ledger_tick, ledger_executing]
      simp only [World.ledger, Ledger.begin, hrun, hstored]
      rfl
  | some run =>
    obtain ⟨hmem, hid, htenant⟩ := World.run?_eq_some.1 hrun
    have hsnap : (w.ledger tenant a.runId).snapshot = w.stepsOf tenant a.runId := by
      simp [Ledger.snapshot, World.ledger, hrun]
    have hset : (perform (.setRunning run.id a.definition.toWorkflowSpec) : M _).run env.handle
        { w with tick := w.tick + 1 } =
          (.ok (), { (w.setRunning run.id).log (.executing run.id a.definition.toWorkflowSpec) with
            tick := w.tick + 1 + 1 }) := rfl
    have hfree : Free tenant a.runId w := by
      intro run' hmem' hid'
      rwa [w.runs.eq_of_key_eq hmem' hmem (hid'.trans hid.symm)]
    have hbegin : ((w.setRunning run.id).log (.executing run.id
        a.definition.toWorkflowSpec)).ledger tenant a.runId =
          (w.ledger tenant a.runId).begin tenant a traceId := by
      rw [hid, ledger_executing, World.ledger_setRunning]
      simp [Ledger.begin, World.ledger, hrun, Ledger.setRun]
    simp only [Option.map_some]
    rw [Prog.run_bind_ok _ hset, and_iff_right hfree]
    nth_rewrite 1 [← hsnap]
    exact resume_begin hid hbegin

/-- **When an execution settles**: where nothing but dispatches raises, `execute` returns with the
run in status `SUCCESS`, `FAILED` or `WAITING_APPROVAL` and none of its steps in `RUNNING`, if and
only if the id is not the id of another tenant's run, no step of the run was in `RUNNING` before,
and for every node that the execution comes to, if its circuit breaker lets it pass, the number of
its attempts can be read and the pause before each attempt that is needed can be computed. -/
theorem settles_iff (p : Replies) (ev : Evaluator) (tenant : String) (a : ExecuteArgs)
    (w : World) :
    RunSettles tenant a.runId ((execute ev tenant a).run
        (p.env ev a.runId ((w.eventsOf a.runId).length + 1)).handle w) ↔
      Free tenant a.runId w ∧ (∀ s ∈ w.stepsOf tenant a.runId, s.status ≠ .running) ∧
        Steady p ev a.definition (completedIds (w.ledger tenant a.runId).snapshot)
          (a.start tenant ((orElse a.traceId none).getD p.uuid)
            (w.ledger tenant a.runId).snapshot, 0) := by
  unfold execute
  cases htrace : orElse a.traceId none with
  | some traceId => exact executeTraced_settles w
  | none =>
    have huuid : (perform .uuid : M _).run
        (p.env ev a.runId ((w.eventsOf a.runId).length + 1)).handle w =
          (.ok p.uuid, { w with tick := w.tick + 1 }) := rfl
    rw [Prog.run_bind_ok _ huuid]
    exact executeTraced_settles { w with tick := w.tick + 1 }

end Execute

/-! ## Policies that the schema has checked -/

/-- The pauses of a `RetryPolicy` can be computed. -/
theorem pauses_policy (u : Unicode) (q : RetryPolicy) {attempt : ℕ} (hattempt : attempt ≤ 10) :
    (Retry.policy q).Pauses u attempt := by
  have hfactor : ∀ m ≤ 512, float u (.int (m : ℕ)) = .ok (.finite (m : ℕ)) := by
    intro m hm
    have hsmall : ¬ floatLimit ≤ m := by
      have : 512 < floatLimit := by decide +kernel
      omega
    simp [float, hsmall]
  have hpow : 2 ^ (max 1 attempt - 1) ≤ 512 :=
    (Nat.pow_le_pow_right two_pos (by omega)).trans (by norm_num : 2 ^ 9 ≤ 512)
  intro rnd
  have hbase : ∃ x, (BackoffSettings.mk (.str q.backoff) q.initialIntervalSeconds
      q.maxIntervalSeconds q.jitter).baseInterval u attempt = .ok x := by
    have hidx := hfactor (max 1 attempt) (by omega)
    have hexp := hfactor _ hpow
    simp only [Nat.cast_pow, Nat.cast_ofNat] at hexp
    unfold BackoffSettings.baseInterval
    split
    · exact ⟨_, rfl⟩
    · simp only [hidx, bind, Except.bind]
      exact ⟨_, rfl⟩
    · simp only [hexp, bind, Except.bind]
      exact ⟨_, rfl⟩
  obtain ⟨x, hx⟩ := hbase
  simp only [calculateBackoff, Retry.backoffSettings, hx, bind, Except.bind]
  split <;> rfl

/-- A node without a policy, or with a `RetryPolicy`, copes with every answer. -/
theorem copes_of_policy {u : Unicode} (hfields : node.fieldsOk = true)
    (hretry : ∀ items, node.retry ≠ some (.dict items)) : p.Copes u node n := by
  cases hnode : node.retry with
  | none =>
    refine ⟨1, by simp [WorkflowNode.policy, hnode, Retry.maxAttempts, defaultPolicy, Json.lookup,
      int], fun j _ hlt hpos => ?_⟩
    simp only [Int.toNat_one] at hlt
    omega
  | some retry =>
    cases retry with
    | dict items => exact absurd hnode (hretry items)
    | policy q =>
      have hten : q.maxAttempts ≤ 10 := by
        simp only [WorkflowNode.fieldsOk, hnode, RetryPolicy.fieldsOk, Bool.and_eq_true,
          decide_eq_true_eq] at hfields
        exact hfields.2.1.1.2
      have hpolicy : node.policy = .policy q := by simp [WorkflowNode.policy, hnode]
      refine ⟨q.maxAttempts, by rw [hpolicy]; rfl, fun j _ hlt _ _ => ?_⟩
      rw [hpolicy]
      exact pauses_policy u q (by omega)

/-- Only a policy that is a dictionary can keep an execution from settling. -/
theorem steady_of_policies {d : WorkflowDefinition} {completed : List String}
    (hretry : ∀ node ∈ d.nodes, ∀ items, node.retry ≠ some (.dict items)) (s : Traversal × ℕ) :
    Steady p ev d completed s := by
  intro s' _ id queue node _ _ hnode _ _ _
  obtain ⟨hmem, -⟩ := d.node?_eq_some.1 hnode
  have hfields := d.accepted.1
  simp only [WorkflowSpec.fieldsOk, Bool.and_eq_true, List.all_eq_true] at hfields
  exact copes_of_policy (hfields.2 node hmem) (hretry node hmem)

end Replies

/-! ## A policy that does not parse -/

/-- A node that may be attempted "three" times. -/
def spelledNode : WorkflowNode where
  id := "fetch"
  type := "action.http"
  name := "Fetch"
  retry := some (.dict [("max_attempts", .str "three")])

/-- The workflow of this node. -/
def spelledWorkflow : WorkflowDefinition where
  id := some "wf_spelled"
  name := "spelled"
  trigger := ⟨"webhook", [], .null⟩
  nodes := [spelledNode]
  accepted := by decide

/-- Every dispatch succeeds, and no circuit breaker is open. -/
def goodReplies : Replies where
  dispatch := fun _ => .ok ⟨.null, ⟨.finite 2, "2.0"⟩⟩
  circuitState := fun _ => .closed
  circuitFailure := fun _ => .closed
  random := fun _ => 0
  elapsedMs := fun _ => ⟨.finite 1, "1.0"⟩
  uuid := "trace"

/-- The number of attempts cannot be read. -/
theorem not_settles_spelled :
    ¬ RunSettles "acme" "RUN-1" ((execute (Env.steady fun _ => .ok .null).toEvaluator "acme"
      { definition := spelledWorkflow, runId := "RUN-1", inputPayload := .null }).run
        (goodReplies.env (Env.steady fun _ => .ok .null).toEvaluator "RUN-1" 1).handle
          World.empty) := by
  rintro ⟨⟨run, h, -⟩, -⟩
  have hraised : ((execute (Env.steady fun _ => .ok .null).toEvaluator "acme"
      { definition := spelledWorkflow, runId := "RUN-1", inputPayload := .null }).run
        (goodReplies.env (Env.steady fun _ => .ok .null).toEvaluator "RUN-1" 1).handle
          World.empty).1.isOk = false := by
    decide +kernel
  rw [h] at hraised
  cases hraised

end FlowMesh
