import FlowMesh.Engine.Retry
import FlowMesh.StateStore.Memory

/-!
# Dispatches and open breakers

`_execute_node` asks the circuit breaker of its connection once, in front of the retry loop. The
failures that it records inside the loop, and the calls of other runs while it waits, can open
the breaker before a later attempt. `fast_fails_iff` says exactly when no attempt is made while
the breaker is open.

The engine runs here against the state store in memory (`Site`). The store's methods do not
suspend, so the calls of other runs come in while any other call is awaited; these calls, the
clock, the outcomes of the dispatches and the faults are in `Traffic`, by the number of
dispatches made so far. `Meets` follows the breaker through the attempts on these data alone.
-/

namespace FlowMesh

open Python Database Async

/-! ## A breaker over several calls -/

section

variable {τ : Type} [Sub τ] [Zero τ] [LE τ] [DecidableLE τ]

/-- The breaker of a connection after calls on any breakers. -/
def Breaker.after (cooldown : τ) (connectionId : String) (b : Breaker τ)
    (calls : List (BreakerCall τ)) : Breaker τ :=
  calls.foldl (fun b c =>
    if c.connectionId = connectionId then (b.step cooldown c.now c.op).2 else b) b

/-- The breaker is open, and its cooldown has not elapsed. -/
def Breaker.Blocked (cooldown now : τ) (b : Breaker τ) : Prop :=
  b.state = .open ∧ ¬ cooldown ≤ now - b.openedAt

theorem MemoryBreakers.exec_calls (m : MemoryBreakers τ) (connectionId : String)
    (calls : List (BreakerCall τ)) :
    (Machine.exec MemoryBreakers.call m calls).breaker connectionId =
        (m.breaker connectionId).after m.defaultCooldownSeconds connectionId calls ∧
      (Machine.exec MemoryBreakers.call m calls).defaultCooldownSeconds =
        m.defaultCooldownSeconds := by
  induction calls generalizing m with
  | nil => exact ⟨rfl, rfl⟩
  | cons c calls ih =>
    have hcooldown := (MemoryBreakers.call_frame (m := m) (c := c)).1
    have hbreaker : (m.call c).2.breaker connectionId = if c.connectionId = connectionId then
        ((m.breaker connectionId).step m.defaultCooldownSeconds c.now c.op).2
          else m.breaker connectionId := by
      split
      · next hid =>
        subst hid
        exact MemoryBreakers.breaker_call.2
      · next hid => exact MemoryBreakers.breaker_call_of_ne connectionId hid
    obtain ⟨hafter, hdefault⟩ := ih (m.call c).2
    rw [hbreaker, hcooldown] at hafter
    exact ⟨hafter, hdefault.trans hcooldown⟩

end

/-! ## The engine and its state store -/

/-- What surrounds one `_execute_node`, by the number of dispatches it has made: a script, the
calls that other runs make on the state store while a call is awaited, and the clock. -/
structure Traffic (τ : Type) extends Script where
  others : ℕ → Op → List (BreakerCall τ)
  now : ℕ → Op → τ

/-- The rows, the state store, and a ghost: the breaker and the clock at each dispatch. -/
structure Site (τ : Type) where
  world : World
  breakers : MemoryBreakers τ
  attempts : List (Breaker τ × τ)

/-- The connection that the call sends traffic to. -/
def Op.target? : Op → Option String
  | .dispatchNodeType _ node _ _ => node.connection?
  | _ => none

section

variable {τ : Type} [Sub τ] [Zero τ] [LE τ] [DecidableLE τ]

/-- What a call does. The calls on the state store are those of `MemoryStateStore`; while any other
call is awaited, the other runs make theirs. -/
def Traffic.handle (p : Traffic τ) (ev : Evaluator) (base : ℕ) :
    Handler Op Op.Res PyError (Site τ) := fun o s =>
  let k := s.world.trace.length - base
  match o with
  | .getCircuitBreakerState c =>
    let (state, breakers) :=
      s.breakers.getCircuitBreakerState c none (p.now k (.getCircuitBreakerState c))
    (.ok state, { s with breakers })
  | .recordCircuitFailure c =>
    let (state, breakers) :=
      s.breakers.recordCircuitFailure c 3 (p.now k (.recordCircuitFailure c))
    (.ok state, { s with breakers })
  | .recordCircuitSuccess c =>
    (.ok (), { s with breakers := (s.breakers.recordCircuitSuccess c).2 })
  | o =>
    (((p.env ev base).handle o s.world).1,
      { world := ((p.env ev base).handle o s.world).2
        breakers := Machine.exec MemoryBreakers.call s.breakers (p.others k o)
        attempts := s.attempts ++
          (o.target?.map fun c => (s.breakers.breaker c, p.now k o)).toList })

/-- The calls that are none on the state store, dispatch nothing, and leave the trace alone. -/
def Op.Plain : Op → Prop
  | .getCircuitBreakerState _ => False
  | .recordCircuitFailure _ => False
  | .recordCircuitSuccess _ => False
  | .dispatchNodeType .. => False
  | .createRun .. => False
  | .setRunning .. => False
  | .approveStep .. => False
  | _ => True

/-! ## The breaker through the attempts -/

/-- How some calls end: the exception that they raise, if they do, and the breaker behind them. -/
abbrev Passage (τ : Type) : Type := Option PyError × Breaker τ

/-- Calls that are made if those before did not raise. -/
def Passage.andThen (r : Passage τ) (f : Breaker τ → Passage τ) : Passage τ :=
  match r with
  | (none, b) => f b
  | (some e, b) => (some e, b)

namespace Traffic

section

variable (p : Traffic τ) (cooldown : τ) (c : String)

/-- One call, behind `k` dispatches, that is none on the state store. -/
def single (k : ℕ) (o : Op) (b : Breaker τ) : Passage τ :=
  ((p.fault k o).map (·.1), b.after cooldown c (p.others k o))

/-- Calls one after the other. -/
def through (k : ℕ) : List Op → Breaker τ → Passage τ
  | [], b => (none, b)
  | o :: ops, b => (p.single cooldown c k o b).andThen (through k ops)

variable (u : Unicode) (tenant runId workflowId : String) (node : WorkflowNode)
  (config : List (String × Json)) (context : Context) (stepId : ℕ)

/-- The `try` block of the attempt behind `k` dispatches. -/
def attempted (k : ℕ) (b : Breaker τ) : Passage τ :=
  let b := b.after cooldown c (p.others k (.dispatchNodeType runId node config context))
  match p.dispatch k with
  | .error exc => (some exc, b)
  | .ok res => p.through cooldown c (k + 1) [.reportRecovered c, .recordCircuitMetric c .closed,
      .updateStep tenant stepId .success res.durationMs res.output none,
      .recordSpan (spanName node) true] .closed

/-- The failure is counted, and the rest of the `except` block follows. -/
def counted (k : ℕ) (exc : PyError) (b : Breaker τ) : Passage τ :=
  let (state, b) := b.step cooldown (p.now k (.recordCircuitFailure c)) (.recordCircuitFailure 3)
  p.through cooldown c k (.recordCircuitMetric c (state.getD .closed) ::
    if state = some .open then [.reportTripped c workflowId exc.message] else []) b

/-- The attempt is made and tried again. -/
def retried (k : ℕ) (b : Breaker τ) : Option (Breaker τ) :=
  match p.attempted cooldown c tenant runId node config context stepId k b with
  | (none, _) => none
  | (some exc, b) =>
    match categorizeError exc with
    | .transient =>
      match p.counted cooldown c workflowId (k + 1) exc b with
      | (none, b) => some b
      | (some _, _) => none
    | _ => none

/-- The pause before the attempt behind `k` dispatches; the first attempt comes at once. -/
def paused (k : ℕ) (b : Breaker τ) : Passage τ :=
  if k = 0 then (none, b)
  else (p.single cooldown c k .random b).andThen fun b =>
    match calculateBackoff u (k + 1) node.policy (p.random k) with
    | .error e => (some e, b)
    | .ok sec => p.single cooldown c k (.sleep (FloatVal.min sec (.finite 2))) b

/-- Starting behind `k` dispatches with the breaker `b`, the attempt behind `k'` dispatches meets
the breaker `b'`. -/
inductive Meets : ℕ → Breaker τ → ℕ → Breaker τ → Prop
  | now {k : ℕ} {b b' : Breaker τ} (h : p.paused cooldown c u node k b = (none, b')) :
      Meets k b k b'
  | later {k k' : ℕ} {b b₁ b₂ b' : Breaker τ} (h : p.paused cooldown c u node k b = (none, b₁))
      (hretry : p.retried cooldown c tenant runId workflowId node config context stepId k b₁ =
        some b₂) (hmeets : Meets (k + 1) b₂ k' b') : Meets k b k' b'

/-- The breaker behind the look-up, if the step is recorded and the breaker lets the node pass. -/
def admitted (b : Breaker τ) : Option (Breaker τ) :=
  match p.single cooldown c 0 (.recordStep tenant runId node .running config) b with
  | (some _, _) => none
  | (none, b) =>
    let (state, b) :=
      b.step cooldown (p.now 0 (.getCircuitBreakerState c)) (.getCircuitBreakerState none)
    if state = some .open then none else some b

end

/-! ## One call -/

/-- Behind `k` dispatches, with the breaker `b` of the connection. -/
structure At (base : ℕ) (cooldown : τ) (c : String) (k : ℕ) (b : Breaker τ) (s : Site τ) :
    Prop where
  count : s.world.trace.length = base + k
  breaker : s.breakers.breaker c = b
  cooldown : s.breakers.defaultCooldownSeconds = cooldown

variable {p : Traffic τ} {ev : Evaluator} {base k : ℕ} {cooldown : τ} {c : String} {b : Breaker τ}
  {s : Site τ} {u : Unicode} {tenant runId workflowId : String} {node : WorkflowNode}
  {config : List (String × Json)} {context : Context} {stepId : ℕ}

theorem trace_handle {env : Env} {o : Op} (ho : o.Plain) (w : World) :
    (env.handle o w).2.trace = w.trace := by
  have heffect : (env.effect o w).2.trace = w.trace := by
    cases o with
    | getByIdempotencyKey tenant key =>
      simp only [Env.effect]
      split <;> rfl
    | _ => first | exact ho.elim | rfl
  exact env.handle_induction (P := fun w' => w'.trace = w.trace) rfl heffect

theorem handle_plain {o : Op} (ho : o.Plain) : p.handle ev base o s =
    (((p.env ev base).handle o s.world).1,
      { world := ((p.env ev base).handle o s.world).2
        breakers := Machine.exec MemoryBreakers.call s.breakers
          (p.others (s.world.trace.length - base) o)
        attempts := s.attempts }) := by
  cases o <;> first | exact ho.elim | simp [handle, Op.target?]

variable (p ev) in
/-- A plain call. -/
theorem run_plain (hs : At base cooldown c k b s) {o : Op} (ho : o.Plain) :
    ∃ s', (perform o).run (p.handle ev base) s = (match p.fault k o with
      | none => ((p.env ev base).effect o s.world).1
      | some (e, _) => .error e, s') ∧ At base cooldown c k (p.single cooldown c k o b).2 s' ∧
        s'.attempts = s.attempts := by
  have hk : s.world.trace.length - base = k := by
    rw [hs.count]
    omega
  obtain ⟨hbreaker, hcooldown⟩ := s.breakers.exec_calls c (p.others k o)
  have hres : ((p.env ev base).handle o s.world).1 = match p.fault k o with
      | none => ((p.env ev base).effect o s.world).1
      | some (e, _) => .error e := by
    have hfault : (p.env ev base).faultOf o s.world = p.fault k o := by
      rw [← hk]
      cases o <;> first | exact ho.elim | rfl
    unfold Env.handle
    rw [hfault]
    rcases p.fault k o with _ | ⟨e, _ | _⟩ <;> rfl
  rw [Prog.run_perform, handle_plain ho, hk, hres]
  refine ⟨_, rfl, ⟨?_, ?_, ?_⟩, rfl⟩
  · exact (congrArg List.length (trace_handle ho s.world)).trans hs.count
  · rw [hbreaker, hs.breaker, hs.cooldown]
    rfl
  · exact hcooldown.trans hs.cooldown

/-! ### The calls on the state store -/

/-- A call on the breaker of the connection. -/
theorem run_breaker (hs : At base cooldown c k b s) (now : τ) (op : BreakerOp τ) :
    (s.breakers.call ⟨c, now, op⟩).1 = (b.step cooldown now op).1 ∧
      At base cooldown c k (b.step cooldown now op).2
        { s with breakers := (s.breakers.call ⟨c, now, op⟩).2 } := by
  obtain ⟨hanswer, hbreaker⟩ := MemoryBreakers.breaker_call (m := s.breakers) (c := ⟨c, now, op⟩)
  rw [hs.breaker, hs.cooldown] at hanswer hbreaker
  exact ⟨hanswer, hs.count, hbreaker, MemoryBreakers.call_frame.1.trans hs.cooldown⟩

variable (p ev) in
theorem run_failure (hs : At base cooldown c k b s) :
    ∃ s' state, (perform (.recordCircuitFailure c)).run (p.handle ev base) s = (.ok state, s') ∧
      (b.step cooldown (p.now k (.recordCircuitFailure c)) (.recordCircuitFailure 3)).1 =
        some state ∧
      At base cooldown c k
        (b.step cooldown (p.now k (.recordCircuitFailure c)) (.recordCircuitFailure 3)).2 s' ∧
      s'.attempts = s.attempts := by
  have hk : s.world.trace.length - base = k := by
    rw [hs.count]
    omega
  obtain ⟨hanswer, hat⟩ := run_breaker hs (p.now k (.recordCircuitFailure c))
    (.recordCircuitFailure 3)
  refine ⟨_, (s.breakers.recordCircuitFailure c 3 (p.now k (.recordCircuitFailure c))).1, ?_,
    hanswer.symm, hat, rfl⟩
  rw [Prog.run_perform, ← hk]
  rfl

variable (p ev) in
theorem run_lookup (hs : At base cooldown c k b s) :
    ∃ s' state, (perform (.getCircuitBreakerState c)).run (p.handle ev base) s = (.ok state, s') ∧
      (b.step cooldown (p.now k (.getCircuitBreakerState c)) (.getCircuitBreakerState none)).1 =
        some state ∧
      At base cooldown c k
        (b.step cooldown (p.now k (.getCircuitBreakerState c)) (.getCircuitBreakerState none)).2
        s' ∧ s'.attempts = s.attempts := by
  have hk : s.world.trace.length - base = k := by
    rw [hs.count]
    omega
  obtain ⟨hanswer, hat⟩ := run_breaker hs (p.now k (.getCircuitBreakerState c))
    (.getCircuitBreakerState none)
  refine ⟨_, (s.breakers.getCircuitBreakerState c none
    (p.now k (.getCircuitBreakerState c))).1, ?_, hanswer.symm, hat, rfl⟩
  rw [Prog.run_perform, ← hk]
  rfl

/-! ## Parts of `_execute_node` -/

/-- The program makes no dispatch, and ends as the passage says. -/
def Passes (p : Traffic τ) (ev : Evaluator) (base : ℕ) (cooldown : τ) (c : String)
    (prog : M Unit) (k : ℕ) (b : Breaker τ) (r : Passage τ) : Prop :=
  ∀ s, At base cooldown c k b s → ∃ s', prog.run (p.handle ev base) s = (match r.1 with
    | none => .ok ()
    | some e => .error e, s') ∧ At base cooldown c k r.2 s' ∧ s'.attempts = s.attempts

theorem passes_ret : p.Passes ev base cooldown c (pure ()) k b (none, b) :=
  fun s hs => ⟨s, rfl, hs, rfl⟩

theorem passes_raise (e : PyError) : p.Passes ev base cooldown c (.throw e) k b (some e, b) :=
  fun s hs => ⟨s, rfl, hs, rfl⟩

theorem passes_success :
    p.Passes ev base cooldown c (perform (.recordCircuitSuccess c)) k b (none, .closed) :=
  fun _ hs => ⟨_, rfl, (run_breaker hs (p.now k (.recordCircuitSuccess c))
    .recordCircuitSuccess).2, rfl⟩

/-- A program that answers `x`, and then the rest. -/
theorem passes_then {α : Type} {prog : M α} {f : α → M Unit} {x : α} {b' : Breaker τ}
    {r : Passage τ} (h : ∀ s, At base cooldown c k b s →
      ∃ s', prog.run (p.handle ev base) s = (.ok x, s') ∧ At base cooldown c k b' s' ∧
        s'.attempts = s.attempts)
    (hf : p.Passes ev base cooldown c (f x) k b' r) :
    p.Passes ev base cooldown c (prog >>= f) k b r := by
  intro s hs
  obtain ⟨s₁, hrun, hat, hattempts⟩ := h s hs
  obtain ⟨s₂, hrun', hat', hattempts'⟩ := hf s₁ hat
  exact ⟨s₂, (Prog.run_bind_ok _ hrun).trans hrun', hat', hattempts'.trans hattempts⟩

/-- A plain call that answers `x`, and then the rest. -/
theorem passes_call {o : Op} {f : o.Res → M Unit} {x : o.Res} {g : Breaker τ → Passage τ}
    (ho : o.Plain) (hx : ∀ w : World, w.trace.length = base + k →
      ((p.env ev base).effect o w).1 = .ok x)
    (hf : ∀ b', p.Passes ev base cooldown c (f x) k b' (g b')) :
    p.Passes ev base cooldown c (perform o >>= f) k b ((p.single cooldown c k o b).andThen g) := by
  cases hfault : p.fault k o with
  | some fault =>
    intro s hs
    obtain ⟨s', hrun, hat, hattempts⟩ := run_plain p ev hs ho
    rw [hfault] at hrun
    simp only [single, hfault, Option.map_some]
    exact ⟨s', Prog.run_bind_error _ hrun, hat, hattempts⟩
  | none =>
    simp only [single, hfault, Option.map_none]
    refine passes_then (fun s hs => ?_) (hf _)
    obtain ⟨s', hrun, hat, hattempts⟩ := run_plain p ev hs ho
    rw [hfault, hx s.world hs.count] at hrun
    exact ⟨s', hrun, hat, hattempts⟩

/-- A plain call that answers nothing. -/
theorem passes_of_run {prog : M Unit} {o : Op} (h : ∀ s, At base cooldown c k b s →
    ∃ s', prog.run (p.handle ev base) s = (match p.fault k o with
      | none => .ok ()
      | some (e, _) => .error e, s') ∧ At base cooldown c k (p.single cooldown c k o b).2 s' ∧
        s'.attempts = s.attempts) :
    p.Passes ev base cooldown c prog k b (p.single cooldown c k o b) := by
  intro s hs
  obtain ⟨s', hrun, hat, hattempts⟩ := h s hs
  refine ⟨s', ?_, hat, hattempts⟩
  rw [hrun]
  unfold single
  cases p.fault k o <;> rfl

omit [Sub τ] [Zero τ] [LE τ] [DecidableLE τ] in
theorem andThen_ret (r : Passage τ) : r.andThen (fun b => (none, b)) = r := by
  obtain ⟨_ | e, b⟩ := r <;> rfl

/-- The passage through one call. -/
theorem through_singleton (o : Op) :
    p.through cooldown c k [o] b = p.single cooldown c k o b := andThen_ret _

variable (p ev tenant stepId) in
theorem passes_settle (hc : node.connection? = some c) (res : DispatchResult) :
    p.Passes ev base cooldown c (settle tenant node stepId res) k b
      (p.through cooldown c k [.reportRecovered c, .recordCircuitMetric c .closed,
        .updateStep tenant stepId .success res.durationMs res.output none,
        .recordSpan (spanName node) true] .closed) := by
  unfold settle closeCircuit
  simp only [hc, Prog.bind_assoc]
  refine passes_then passes_success ?_
  refine passes_call trivial (fun w _ => rfl) fun b' => ?_
  refine passes_call trivial (fun w _ => rfl) fun b' => ?_
  refine passes_call trivial (fun w _ => rfl) fun b' => ?_
  rw [through_singleton]
  exact passes_of_run fun s hs => run_plain p ev hs trivial

variable (p ev workflowId) in
theorem passes_onFailure (hc : node.connection? = some c) (exc : PyError)
    (htransient : categorizeError exc = .transient) :
    p.Passes ev base cooldown c (onFailure workflowId node exc) k b
      (p.counted cooldown c workflowId k exc b) := by
  unfold onFailure countFailure
  rw [hc, htransient]
  intro s hs
  obtain ⟨s₁, state, hrun, hanswer, hat, hattempts⟩ := run_failure p ev hs
  have hrest : p.Passes ev base cooldown c (do
      perform (.recordCircuitMetric c state)
      if state = .open then perform (.reportTripped c workflowId exc.message)) k
        (b.step cooldown (p.now k (.recordCircuitFailure c)) (.recordCircuitFailure 3)).2
          (p.counted cooldown c workflowId k exc b) := by
    simp only [counted, hanswer, Option.getD_some, Option.some.injEq]
    refine passes_call trivial (fun w _ => rfl) fun b' => ?_
    split
    · rw [through_singleton]
      exact passes_of_run fun s hs => run_plain p ev hs trivial
    · exact passes_ret
  obtain ⟨s₂, hrun', hat', hattempts'⟩ := hrest s₁ hat
  exact ⟨s₂, (Prog.run_bind_ok _ hrun).trans hrun', hat', hattempts'.trans hattempts⟩

variable (p ev node) in
theorem passes_backoff :
    p.Passes ev base cooldown c (backoff ev node (k + 1)) k b
      (p.paused cooldown c ev.unicode node k b) := by
  unfold backoff paused
  by_cases hzero : k = 0
  · rw [if_neg (by omega), if_pos hzero]
    exact passes_ret
  rw [if_pos (by omega), if_neg hzero]
  refine passes_call (x := p.random k) trivial (fun w hw => ?_) fun b' => ?_
  · have hk : w.trace.length - base = k := by omega
    rw [← hk]
    rfl
  · cases calculateBackoff ev.unicode (k + 1) node.policy (p.random k) with
    | error e => exact passes_raise e
    | ok sec => exact passes_of_run fun s hs => run_plain p ev hs trivial

variable (p ev runId config context) in
/-- The dispatch itself: it shows the breaker as it finds it. -/
theorem run_dispatch (hc : node.connection? = some c) (hs : At base cooldown c k b s) :
    ∃ s', (perform (.dispatchNodeType runId node config context)).run (p.handle ev base) s =
        (p.dispatch k, s') ∧
      At base cooldown c (k + 1)
        (b.after cooldown c (p.others k (.dispatchNodeType runId node config context))) s' ∧
      s'.attempts = s.attempts ++
        [(b, p.now k (.dispatchNodeType runId node config context))] := by
  have hk : s.world.trace.length - base = k := by
    rw [hs.count]
    omega
  obtain ⟨hbreaker, hcooldown⟩ := s.breakers.exec_calls c
    (p.others k (.dispatchNodeType runId node config context))
  have hhandle : p.handle ev base (.dispatchNodeType runId node config context) s =
      (p.dispatch k,
        { world := ((p.env ev base).handle (.dispatchNodeType runId node config context) s.world).2
          breakers := Machine.exec MemoryBreakers.call s.breakers
            (p.others k (.dispatchNodeType runId node config context))
          attempts := s.attempts ++
            [(s.breakers.breaker c, p.now k (.dispatchNodeType runId node config context))] }) := by
    rw [← hk]
    simp only [handle, Op.target?, hc]
    rfl
  rw [Prog.run_perform, hhandle]
  refine ⟨_, rfl, ⟨?_, ?_, hcooldown.trans hs.cooldown⟩, ?_⟩
  · rw [show ((p.env ev base).handle (.dispatchNodeType runId node config context)
      s.world).2.trace = s.world.trace ++ _ from rfl, List.length_append, hs.count]
    rfl
  · rw [hbreaker, hs.breaker, hs.cooldown]
  · rw [hs.breaker]

variable (p ev tenant runId config context stepId) in
/-- The `try` block. -/
theorem run_tryNode (hc : node.connection? = some c) (hs : At base cooldown c k b s) :
    ∃ s' out, (tryNode tenant runId node config context stepId).run (p.handle ev base) s =
        (out, s') ∧
      At base cooldown c (k + 1)
        (p.attempted cooldown c tenant runId node config context stepId k b).2 s' ∧
      s'.attempts = s.attempts ++
        [(b, p.now k (.dispatchNodeType runId node config context))] ∧
      (p.attempted cooldown c tenant runId node config context stepId k b).1 =
        match out with
        | .ok _ => none
        | .error exc => some exc := by
  obtain ⟨s₁, hrun, hat, hattempts⟩ := run_dispatch p ev runId config context hc hs
  unfold tryNode attempted
  cases hres : p.dispatch k with
  | error exc =>
    rw [hres] at hrun
    exact ⟨s₁, .error exc, Prog.run_bind_error _ hrun, hat, hattempts, rfl⟩
  | ok res =>
    rw [hres] at hrun
    obtain ⟨s₂, hsettle, hat', hattempts'⟩ := passes_settle p ev tenant stepId hc res s₁ hat
    rw [Prog.run_bind_ok _ hrun]
    rcases hraised : (p.through cooldown c (k + 1) [.reportRecovered c,
      .recordCircuitMetric c .closed, .updateStep tenant stepId .success res.durationMs res.output
        none, .recordSpan (spanName node) true] .closed).1 with _ | e
    · rw [hraised] at hsettle
      exact ⟨s₂, .ok res, Prog.run_bind_ok _ hsettle, hat', hattempts'.trans hattempts, rfl⟩
    · rw [hraised] at hsettle
      exact ⟨s₂, .error e, Prog.run_bind_error _ hsettle, hat', hattempts'.trans hattempts, rfl⟩

/-- None of the dispatches found the breaker blocked. -/
def Unblocked (cooldown : τ) (s : Site τ) : Prop :=
  ∀ x ∈ s.attempts, ¬ x.1.Blocked cooldown x.2

omit [Zero τ] [DecidableLE τ] in
theorem Unblocked.congr {s' : Site τ} (h : s'.attempts = s.attempts) :
    Unblocked cooldown s' ↔ Unblocked cooldown s := by
  rw [Unblocked, Unblocked, h]

omit [Zero τ] [DecidableLE τ] in
theorem unblocked_concat {s' : Site τ} {now : τ} (h : s'.attempts = s.attempts ++ [(b, now)]) :
    Unblocked cooldown s' ↔ Unblocked cooldown s ∧ ¬ b.Blocked cooldown now := by
  rw [Unblocked, h, List.forall_mem_append, List.forall_mem_singleton]
  rfl

/-! ## The retry loop -/

theorem Meets.le {k' : ℕ} {b' : Breaker τ} (h : p.Meets cooldown c u tenant runId workflowId node
    config context stepId k b k' b') : k ≤ k' := by
  induction h with
  | now => exact le_rfl
  | later _ _ _ ih => omega

/-- What the attempts meet: the first one the breaker behind its pause, the others what they meet
if the first is tried again. -/
theorem forall_meets_iff {P : ℕ → Breaker τ → Prop} {left : ℕ} :
    (∀ k' b', p.Meets cooldown c u tenant runId workflowId node config context stepId k b k' b' →
        k' < k + (left + 1) → P k' b') ↔
      ∀ b₁, p.paused cooldown c u node k b = (none, b₁) → P k b₁ ∧
        ∀ b₂, p.retried cooldown c tenant runId workflowId node config context stepId k b₁ =
          some b₂ → ∀ k' b', p.Meets cooldown c u tenant runId workflowId node config context stepId
            (k + 1) b₂ k' b' → k' < k + 1 + left → P k' b' := by
  constructor
  · intro h b₁ hpause
    refine ⟨h k b₁ (.now hpause) (by omega), fun b₂ hretry k' b' hmeets hlt => ?_⟩
    exact h k' b' (.later hpause hretry hmeets) (by omega)
  · intro h k' b' hmeets hlt
    cases hmeets with
    | now hpause => exact (h b' hpause).1
    | later hpause hretry hmeets => exact (h _ hpause).2 _ hretry k' b' hmeets (by omega)

variable (p ev tenant runId workflowId config context stepId) in
/-- The retry loop, by induction on the attempts left. -/
theorem run_retryLoop (hc : node.connection? = some c) (left k : ℕ) (b : Breaker τ)
    (lastError : Option PyError) (lastCategory : ErrorCategory) (hs : At base cooldown c k b s) :
    Unblocked cooldown ((retryLoop ev tenant runId workflowId node config context stepId left
        (k + 1) lastError lastCategory).run (p.handle ev base) s).2 ↔
      Unblocked cooldown s ∧ ∀ k' b', p.Meets cooldown c ev.unicode tenant runId workflowId node
        config context stepId k b k' b' → k' < k + left →
          ¬ b'.Blocked cooldown (p.now k' (.dispatchNodeType runId node config context)) := by
  induction left generalizing k b lastError lastCategory s with
  | zero =>
    refine (and_iff_left fun k' b' hmeets hlt => ?_).symm
    have := hmeets.le
    omega
  | succ left ih =>
    rw [forall_meets_iff]
    unfold retryLoop
    obtain ⟨s₁, hpause, hat₁, hattempts₁⟩ := passes_backoff p ev node s hs
    cases hpaused : p.paused cooldown c ev.unicode node k b with
    | mk raised b₁ =>
    rw [hpaused] at hpause hat₁
    cases raised with
    | some e =>
      rw [Prog.run_bind_error _ hpause, Unblocked.congr hattempts₁]
      refine (and_iff_left ?_).symm
      rintro b₁ ⟨⟩
    | none =>
      obtain ⟨s₂, out, htry, hat₂, hattempts₂, hraised⟩ := run_tryNode p ev tenant runId config
        context stepId hc hat₁
      have hattempt : ((tryNode tenant runId node config context stepId).attempt).run
          (p.handle ev base) s₁ = (.ok out, s₂) := by
        rw [Prog.run_attempt, htry]
      have hshown : Unblocked cooldown s₂ ↔ Unblocked cooldown s ∧ ¬ b₁.Blocked cooldown
          (p.now k (.dispatchNodeType runId node config context)) := by
        rw [unblocked_concat hattempts₂, Unblocked.congr hattempts₁]
      -- what is left to show is about the attempts behind this one
      suffices hrest : Unblocked cooldown ((retryLoop ev tenant runId workflowId node config context
          stepId (left + 1) (k + 1) lastError lastCategory).run (p.handle ev base) s).2 ↔
            Unblocked cooldown s₂ ∧ ∀ b₂, p.retried cooldown c tenant runId workflowId node config
              context stepId k b₁ = some b₂ → ∀ k' b', p.Meets cooldown c ev.unicode tenant runId
                workflowId node config context stepId (k + 1) b₂ k' b' → k' < k + 1 + left →
                  ¬ b'.Blocked cooldown (p.now k' (.dispatchNodeType runId node config context)) by
        unfold retryLoop at hrest
        rw [hrest, hshown, and_assoc]
        simp
      unfold retryLoop retried
      rw [Prog.run_bind_ok _ hpause, Prog.run_bind_ok _ hattempt]
      cases hattempted : p.attempted cooldown c tenant runId node config context stepId k b₁ with
      | mk raised b₂ =>
      rw [hattempted] at hat₂ hraised
      cases out with
      | ok res =>
        obtain rfl : raised = none := hraised
        refine (and_iff_left ?_).symm
        rintro b₂ ⟨⟩
      | error exc =>
        obtain rfl : raised = some exc := hraised
        cases hcategory : categorizeError exc with
        | transient =>
          obtain ⟨s₃, hcount, hat₃, hattempts₃⟩ := passes_onFailure p ev workflowId hc exc
            hcategory s₂ hat₂
          cases hcounted : p.counted cooldown c workflowId (k + 1) exc b₂ with
          | mk raised b₃ =>
          rw [hcounted] at hcount hat₃
          cases raised with
          | some e =>
            simp only [Prog.run_bind_error _ hcount, hcategory, hcounted]
            rw [Unblocked.congr hattempts₃]
            refine (and_iff_left ?_).symm
            rintro b₂ ⟨⟩
          | none =>
            simp only [Prog.run_bind_ok _ hcount, hcategory, hcounted]
            rw [ih (k + 1) b₃ (some exc) .transient hat₃, Unblocked.congr hattempts₃]
            simp
        | _ =>
          have hnone : (onFailure workflowId node exc).run (p.handle ev base) s₂ =
              (.ok (), s₂) := by
            simp only [onFailure, hc, hcategory]
            rfl
          simp only [Prog.run_bind_ok _ hnone, hcategory]
          refine (and_iff_left ?_).symm
          rintro b₂ ⟨⟩

/-! ## `_execute_node` -/

/-- A program that dispatches nothing shows no breaker. -/
theorem attempts_of_uses {α : Type} {prog : M α} (h : prog.Uses (·.target? = none)) :
    (prog.run (p.handle ev base) s).2.attempts = s.attempts := by
  refine Prog.Uses.run_induction (p.handle ev base) (I := fun s' => s'.attempts = s.attempts) h
    (fun o s' ho hs' => ?_) rfl
  rw [← hs']
  cases o with
  | dispatchNodeType => simp only [handle, ho, Option.map_none, Option.toList_none, List.append_nil]
  | _ => simp [handle, Op.target?]

theorem attempts_bind {α β : Type} {prog : M α} {f : α → M β}
    (hf : ∀ a, (f a).Uses (·.target? = none)) :
    ((prog >>= f).run (p.handle ev base) s).2.attempts =
      (prog.run (p.handle ev base) s).2.attempts := by
  rw [Prog.run_bind]
  rcases prog.run (p.handle ev base) s with ⟨e | a, s'⟩
  · rfl
  · exact attempts_of_uses (hf a)

theorem untargeted_giveUp (maxAttempts : ℤ) (lastError : Option PyError) (lastCategory : ErrorCategory)
    (attempt : ℕ) : (giveUp tenant runId workflowId node config stepId maxAttempts lastError
      lastCategory attempt).Uses (·.target? = none) := by
  refine .bind (.perform rfl) fun ms => ?_
  refine .bind (.perform rfl) fun _ => ?_
  refine .bind (.perform rfl) fun _ => ?_
  refine .bind (.perform rfl) fun _ => ?_
  exact .bind (.perform rfl) fun _ => .ret _

theorem untargeted_failFast : (failFast tenant runId workflowId node config stepId c).Uses
    (·.target? = none) := by
  refine .bind (.perform rfl) fun ms => ?_
  refine .bind (.perform rfl) fun _ => ?_
  exact .bind (.perform rfl) fun _ => .ret _

/-- The attempts, behind the look-up. -/
theorem run_runAttempts (hc : node.connection? = some c) (hs : At base cooldown c 0 b s) :
    Unblocked cooldown ((runAttempts ev tenant runId workflowId node config context stepId).run
        (p.handle ev base) s).2 ↔
      Unblocked cooldown s ∧ ∀ max, node.policy.maxAttempts ev.unicode = .ok max →
        ∀ k' b', p.Meets cooldown c ev.unicode tenant runId workflowId node config context stepId 0
          b k' b' → (k' : ℤ) < max →
            ¬ b'.Blocked cooldown (p.now k' (.dispatchNodeType runId node config context)) := by
  unfold runAttempts
  cases hmax : node.policy.maxAttempts ev.unicode with
  | error e => simp
  | ok max =>
    have hloop := run_retryLoop p ev tenant runId workflowId config context stepId hc max.toNat 0 b
      none .transient hs
    have hlast : ∀ outcome : RetryOutcome, (afterLoop tenant runId workflowId node config stepId
        max outcome).Uses fun o : Op => o.target? = none := by
      intro outcome
      cases outcome with
      | done res => exact .ret _
      | gaveUp lastError lastCategory attempt =>
        exact untargeted_giveUp max lastError lastCategory attempt
    have hlt : ∀ k' : ℕ, (k' : ℤ) < max ↔ k' < 0 + max.toNat := by omega
    refine (Unblocked.congr (attempts_bind hlast)).trans (hloop.trans (and_congr_right fun _ => ?_))
    simp only [Except.ok.injEq, forall_eq', hlt]

/-- A look-up answers the state that it leaves. -/
theorem state_lookup {now : τ} {state : CircuitState}
    (h : (b.step cooldown now (.getCircuitBreakerState none)).1 = some state) :
    (b.step cooldown now (.getCircuitBreakerState none)).2.state = state := by
  unfold Breaker.step at h ⊢
  dsimp only at h ⊢
  split_ifs at h ⊢ <;> exact Option.some.inj h

/-- The first attempt comes at once. -/
theorem Meets.first {b' : Breaker τ} (h : p.Meets cooldown c u tenant runId workflowId node config
    context stepId 0 b 0 b') : b' = b := by
  cases h with
  | now hpause => exact (Prod.ext_iff.1 hpause).2.symm
  | later _ _ hmeets => exact absurd hmeets.le (by omega)

/-! ## Without faults and other runs -/

/-- No call raises but the dispatches, and no other run uses the state store. -/
structure Calm (p : Traffic τ) : Prop where
  fault : ∀ k o, p.fault k o = none
  others : ∀ k o, p.others k o = []

/-- The breaker after `k` failures of the node. -/
def failed (p : Traffic τ) (cooldown : τ) (c : String) (b : Breaker τ) : ℕ → Breaker τ
  | 0 => b
  | k + 1 => ((failed p cooldown c b k).step cooldown (p.now (k + 1) (.recordCircuitFailure c))
      (.recordCircuitFailure 3)).2

theorem Calm.single (h : p.Calm) (o : Op) : p.single cooldown c k o b = (none, b) := by
  simp [Traffic.single, h.fault, h.others, Breaker.after]

theorem Calm.through (h : p.Calm) (ops : List Op) :
    p.through cooldown c k ops b = (none, b) := by
  induction ops generalizing b with
  | nil => rfl
  | cons o ops ih =>
    rw [Traffic.through, h.single]
    exact ih

theorem Calm.paused (h : p.Calm) {b' : Breaker τ}
    (hpause : p.paused cooldown c u node k b = (none, b')) : b' = b := by
  unfold Traffic.paused at hpause
  split at hpause
  · exact (Prod.ext_iff.1 hpause).2.symm
  · rw [h.single] at hpause
    simp only [Passage.andThen] at hpause
    split at hpause
    · cases hpause
    · rw [h.single] at hpause
      exact (Prod.ext_iff.1 hpause).2.symm

/-- An attempt that is tried again has failed, and its failure is counted. -/
theorem Calm.retried (h : p.Calm) {b' : Breaker τ}
    (hretry : p.retried cooldown c tenant runId workflowId node config context stepId k b =
      some b') :
    b' = (b.step cooldown (p.now (k + 1) (.recordCircuitFailure c))
      (.recordCircuitFailure 3)).2 := by
  unfold Traffic.retried attempted at hretry
  simp only [h.others, h.through] at hretry
  cases hdispatch : p.dispatch k with
  | ok res => simp [hdispatch] at hretry
  | error exc =>
    simp only [hdispatch] at hretry
    split at hretry
    · simp only [counted, h.through, Option.some.injEq] at hretry
      exact hretry.symm
    · cases hretry

theorem Meets.calm (h : p.Calm) {b₀ b' : Breaker τ} {k' : ℕ}
    (hmeets : p.Meets cooldown c u tenant runId workflowId node config context stepId k b k' b')
    (hb : b = p.failed cooldown c b₀ k) : b' = p.failed cooldown c b₀ k' := by
  induction hmeets with
  | now hpause => rw [h.paused hpause, hb]
  | later hpause hretry _ ih =>
    apply ih
    rw [h.retried hretry, h.paused hpause, hb]
    rfl

variable (p cooldown c) in
/-- Failures open a closed breaker from the third on. -/
theorem failed_closed (hclosed : b.state = .closed) (k : ℕ) :
    (p.failed cooldown c b k).failures = b.failures + k ∧
      ((p.failed cooldown c b k).state = .closed ∨
        (p.failed cooldown c b k).state = .open ∧ 3 ≤ b.failures + k ∧
          (p.failed cooldown c b k).openedAt = p.now k (.recordCircuitFailure c)) ∧
      (0 < k → 3 ≤ b.failures + k → (p.failed cooldown c b k).state = .open) := by
  induction k with
  | zero => exact ⟨by simp [failed], Or.inl hclosed, by omega⟩
  | succ k ih =>
    obtain ⟨hfailures, hstate, -⟩ := ih
    have hhalf : (p.failed cooldown c b k).state ≠ .halfOpen := by
      rcases hstate with hstate | ⟨hstate, -⟩ <;> simp [hstate]
    unfold failed
    by_cases hcount : 3 ≤ (p.failed cooldown c b k).failures + 1
    · rw [Breaker.step_failure_of_le hhalf hcount]
      push_cast
      refine ⟨by rw [hfailures, add_assoc], Or.inr ⟨rfl, by omega, rfl⟩, fun _ _ => rfl⟩
    · rw [Breaker.step_failure_of_lt hhalf (not_le.1 hcount)]
      push_cast
      refine ⟨by rw [hfailures, add_assoc], ?_, by omega⟩
      rcases hstate with hstate | ⟨-, hthree, -⟩
      · exact Or.inl hstate
      · omega

/-- In calm surroundings, a retry meets an open breaker if the failures up to it make three. -/
theorem Meets.blocked_iff (h : p.Calm) {b' : Breaker τ}
    (hmeets : p.Meets cooldown c u tenant runId workflowId node config context stepId 0 b k b')
    (hclosed : b.state = .closed) (hk : 0 < k) {now : τ} :
    b'.Blocked cooldown now ↔ 3 ≤ b.failures + k ∧
      ¬ cooldown ≤ now - p.now k (.recordCircuitFailure c) := by
  rw [hmeets.calm h rfl]
  obtain ⟨-, hstate, hopen⟩ := p.failed_closed cooldown c hclosed k
  constructor
  · rintro ⟨hblocked, hcool⟩
    rcases hstate with hstate | ⟨-, hthree, hopened⟩
    · rw [hstate] at hblocked
      cases hblocked
    · rw [hopened] at hcool
      exact ⟨hthree, hcool⟩
  · rintro ⟨hthree, hcool⟩
    rcases hstate with hstate | ⟨hblocked, -, hopened⟩
    · rw [hopen hk hthree] at hstate
      cases hstate
    · exact ⟨hblocked, by rwa [hopened]⟩

end Traffic

open Traffic

/-- **When an open breaker stops all traffic**: with any state of the breaker, any outcomes of the
dispatches, any exceptions of the calls around them, and any calls of other runs on the state
store, `_execute_node` never dispatches a node while the breaker of its connection is open and the
cooldown has not elapsed, if and only if no attempt but the first meets a breaker in this state. -/
theorem fast_fails_iff (p : Traffic τ) (ev : Evaluator) (tenant runId workflowId : String)
    (node : WorkflowNode) (context : Context) (w : World) (m : MemoryBreakers τ) (c : String)
    (hc : node.connection? = some c) :
    (∀ x ∈ ((executeNode ev tenant runId workflowId node context).run
        (p.handle ev w.trace.length) ⟨w, m, []⟩).2.attempts,
          ¬ x.1.Blocked m.defaultCooldownSeconds x.2) ↔
      ∀ b, p.admitted m.defaultCooldownSeconds c tenant runId node
          (resolveConfig ev.unicode node context) (m.breaker c) = some b →
        ∀ max, node.policy.maxAttempts ev.unicode = .ok max →
        ∀ (k : ℕ) (b' : Breaker τ), 0 < k → k < max →
          p.Meets m.defaultCooldownSeconds c ev.unicode tenant runId workflowId node
            (resolveConfig ev.unicode node context) context w.steps.fresh 0 b k b' →
              ¬ b'.Blocked m.defaultCooldownSeconds (p.now k (.dispatchNodeType runId node
                (resolveConfig ev.unicode node context) context)) := by
  have hat : At w.trace.length m.defaultCooldownSeconds c 0 (m.breaker c) ⟨w, m, []⟩ :=
    ⟨rfl, rfl, rfl⟩
  have hnew : Unblocked m.defaultCooldownSeconds (⟨w, m, []⟩ : Site τ) :=
    fun x hx => absurd hx List.not_mem_nil
  change Unblocked m.defaultCooldownSeconds _ ↔ _
  obtain ⟨s₁, hrecord, hat₁, hattempts₁⟩ := run_plain p ev hat
    (o := .recordStep tenant runId node .running (resolveConfig ev.unicode node context)) trivial
  unfold executeNode admitted
  unfold single at hat₁ ⊢
  cases hfault : p.fault 0 (.recordStep tenant runId node .running
    (resolveConfig ev.unicode node context)) with
  | some fault =>
    rw [hfault] at hrecord
    rw [Prog.run_bind_error _ hrecord, Unblocked.congr hattempts₁]
    simp [hnew]
  | none =>
    rw [hfault] at hrecord
    obtain ⟨s₂, state, hlookup, hanswer, hat₂, hattempts₂⟩ := run_lookup p ev hat₁
    rw [Prog.run_bind_ok _ hrecord]
    unfold executeStep
    simp only [hc, Option.map_none, hanswer, Option.some.injEq]
    rw [Prog.run_bind_ok _ hlookup]
    have hnew₂ : Unblocked m.defaultCooldownSeconds s₂ := by
      rwa [Unblocked.congr hattempts₂, Unblocked.congr hattempts₁]
    have hstate := state_lookup hanswer
    cases state with
    | «open» =>
      rw [Unblocked.congr (attempts_of_uses untargeted_failFast)]
      simp [hnew₂]
    | _ =>
      refine (run_runAttempts hc hat₂).trans ((and_iff_right hnew₂).trans ?_)
      simp only [reduceCtorEq, if_false, Option.some.injEq, forall_eq']
      refine forall₂_congr fun max _ => forall₂_congr fun k b' => ?_
      constructor
      · exact fun h _ hlt hmeets => h hmeets hlt
      · intro h hmeets hlt
        rcases Nat.eq_zero_or_pos k with rfl | hpos
        · rw [hmeets.first]
          intro hblocked
          rw [Breaker.Blocked, hstate] at hblocked
          cases hblocked.1
        · exact h hpos hlt hmeets

end

/-! ## An outage -/

/-- A query with up to four attempts. -/
def queryNode : WorkflowNode where
  id := "query"
  type := "action.postgres"
  name := "Query"
  connectionId := some "conn_pg_01"
  retry := some (.policy { maxAttempts := 4, backoff := "fixed", jitter := false })

/-- Every dispatch times out, and the clock stands still. -/
def outage : Traffic ℤ where
  dispatch := fun _ => .error ⟨.timeoutError, "timed out"⟩
  fault := fun _ _ => none
  circuitState := .closed
  circuitFailure := fun _ => .closed
  random := fun _ => 0
  elapsedMs := fun _ => ⟨.finite 1, "1.0"⟩
  others := fun _ _ => []
  now := fun _ _ => 0

/-- A store that has seen no failure, with a cooldown of five seconds. -/
def calmStore : MemoryBreakers ℤ := .new 5

theorem calm_outage : outage.Calm := ⟨fun _ _ => rfl, fun _ _ => rfl⟩

/-- A query with up to three attempts. -/
def queryThrice : WorkflowNode :=
  { queryNode with
    retry := some (.policy { maxAttempts := 3, backoff := "fixed", jitter := false }) }

/-- There are three attempts, and the breaker is closed at each: it opens when the last has
failed. -/
theorem fast_fails_thrice :
    ((executeNode (Env.steady fun _ => .ok .null).toEvaluator "acme" "RUN-1" "wf" queryThrice
      ⟨.null, [], "acme", "trace"⟩).run
        (outage.handle (Env.steady fun _ => .ok .null).toEvaluator 0)
          ⟨World.empty, calmStore, []⟩).2.attempts.length = 3 ∧
    ∀ x ∈ ((executeNode (Env.steady fun _ => .ok .null).toEvaluator "acme" "RUN-1" "wf" queryThrice
      ⟨.null, [], "acme", "trace"⟩).run
        (outage.handle (Env.steady fun _ => .ok .null).toEvaluator 0)
          ⟨World.empty, calmStore, []⟩).2.attempts,
      ¬ x.1.Blocked 5 x.2 := by
  refine ⟨by decide +kernel, ?_⟩
  refine (fast_fails_iff outage _ "acme" "RUN-1" "wf" queryThrice _ World.empty calmStore
    "conn_pg_01" (by decide)).2 ?_
  intro b hlookup max hmax k b' hpos hlt hmeets hblocked
  obtain rfl : max = 3 := (Except.ok.inj hmax).symm
  obtain ⟨hclosed, hfailures⟩ : b.state = .closed ∧ b.failures = 0 := by
    cases hlookup
    exact ⟨rfl, rfl⟩
  obtain ⟨hthree, -⟩ := (hmeets.blocked_iff calm_outage hclosed hpos).1 hblocked
  omega

/-- The fourth attempt goes through the breaker that the first three have opened. -/
theorem not_fast_fails_outage :
    ¬ ∀ x ∈ ((executeNode (Env.steady fun _ => .ok .null).toEvaluator "acme" "RUN-1" "wf"
      queryNode ⟨.null, [], "acme", "trace"⟩).run
        (outage.handle (Env.steady fun _ => .ok .null).toEvaluator 0)
          ⟨World.empty, calmStore, []⟩).2.attempts,
      ¬ x.1.Blocked 5 x.2 := by
  intro h
  have hfourth : (((executeNode (Env.steady fun _ => .ok .null).toEvaluator "acme" "RUN-1" "wf"
      queryNode ⟨.null, [], "acme", "trace"⟩).run
        (outage.handle (Env.steady fun _ => .ok .null).toEvaluator 0)
          ⟨World.empty, calmStore, []⟩).2.attempts[3]?).map
            (fun x => (x.1.state, x.1.openedAt, x.2)) =
            some (.open, 0, 0) := by
    decide +kernel
  obtain ⟨x, hx, hstate⟩ := Option.map_eq_some_iff.1 hfourth
  simp only [Prod.mk.injEq] at hstate
  refine h x (List.mem_of_getElem? hx) ⟨hstate.1, ?_⟩
  rw [hstate.2.1, hstate.2.2]
  decide

end FlowMesh
