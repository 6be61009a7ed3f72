import FlowMesh.Engine.Calls
import FlowMesh.Api.Routers
import FlowMesh.Library.Crew

/-!
# Webhook requests under one key

Any number of `handle_webhook_ingress` requests with one `Idempotency-Key` interleave at their
awaited calls. A request looks the key up, and if no run carries it, it goes on to create one;
nothing holds the key between the two, and the index on it is not unique. So two requests that
look up before either creates its run create two runs, and every later look-up fails on the two
rows (`not_deduplicated_lockstep`).

In every interleaving in which no request looks the key up while another is between a fruitless
look-up and its creation, there is one run (`deduplicated`). `searching` and `creators` are ghosts
for this: who looked up in vain, and who created a run.
-/

namespace FlowMesh

open Python Database Async

/-! ## The requests -/

/-- The runs of the tenant under the key. -/
def World.keyed (w : World) (tenant key : String) : List RunRecord :=
  w.runs.rows.filter fun r => r.tenantId = tenant ∧ r.idempotencyKey = some key

/-- How many times a workflow was executed. -/
def World.executions (w : World) : ℕ := w.trace.countP Event.isExecuting

/-- The world, and the requests between their look-up and their run. -/
structure Gateway where
  world : World
  searching : List ℕ
  creators : List ℕ

/-- The look-up found no run. -/
def Op.fruitless : (o : Op) → Except PyError o.Res → Bool
  | .getByIdempotencyKey .., .ok none => true
  | _, _ => false

/-- The run was created. -/
def Op.created : (o : Op) → Except PyError o.Res → Bool
  | .createRun .., .ok _ => true
  | _, _ => false

/-- What the calls of the request `i` do. -/
def Gateway.handle (i : ℕ) (env : Env) : Handler Op Op.Res PyError Gateway := fun o s =>
  ((env.handle o s.world).1,
    { world := (env.handle o s.world).2
      searching :=
        if o.fruitless (env.handle o s.world).1 then s.searching ++ [i]
        else if o.created (env.handle o s.world).1 then s.searching.filter (· ≠ i)
        else s.searching
      creators :=
        if o.created (env.handle o s.world).1 then s.creators ++ [i] else s.creators })

/-- Webhook requests in progress. -/
abbrev IngressCrew : Type := Crew Op Op.Res PyError Gateway WebhookIngressResponse

/-- Webhook requests of a tenant that come in at a world. -/
def ingressCrew (ev : Evaluator) (tenant : String) (w : World) (requests : List WebhookRequest) :
    IngressCrew :=
  ⟨⟨w, [], []⟩, requests.map (handleWebhookIngress ev tenant)⟩

/-- A value that the response, or the event, can carry. -/
def isDictionary : Json → Bool
  | .obj _ => true
  | _ => false

theorem isDictionary_iff {v : Json} : isDictionary v = true ↔ ∃ items, v = .obj items := by
  cases v <;> simp [isDictionary]

/-- Under the key there is one run, which was executed once, and every request that has ended
returned it, the one that created it apart. -/
structure Deduplicated (tenant key : String) (w : World) (p : IngressCrew) : Prop where
  one : (p.state.world.keyed tenant key).length ≤ 1
  executed : p.state.world.executions + (w.keyed tenant key).length =
    w.executions + (p.state.world.keyed tenant key).length
  returned : ∃ i : ℕ, ∀ j : ℕ, j ≠ i →
    (∀ response : WebhookIngressResponse, p.progs[j]? = some (Prog.pure response) →
      ∃ run ∈ p.state.world.keyed tenant key, response.runId = run.id) ∧
    ∀ e, p.progs[j]? ≠ some (Prog.throw e)

/-! ## The condition -/

/-- The condition on a call of a request that has not created its run: the call does not fail, and

* a look-up finds nobody between a fruitless look-up and its run, a run under the key has a
  dictionary as its output or none yet, and if there is no run, the body is a dictionary;
* a workflow that listens on the path has a definition that the schema accepts;
* the ids drawn for a workflow and for a run are new. -/
def Undisturbed (tenant key : String) (requests : List WebhookRequest) (i : ℕ) (env : Env) (o : Op)
    (s : Gateway) : Prop :=
  i ∈ s.creators ∨ env.fault s.world o = none ∧ match o with
    | .getByIdempotencyKey .. => s.searching = [] ∧
        (∀ run ∈ s.world.keyed tenant key,
          run.outputPayload = .null ∨ isDictionary run.outputPayload) ∧
        (s.world.keyed tenant key = [] → ∀ r, requests[i]? = some r → isDictionary r.payload)
    | .getByTriggerPath tenant path => ∀ wf,
        (s.world.registry.workflows.rows.filter (·.tenantId = tenant)).find? (·.listensOn path) =
          some wf → wf.definitionJson.Accepted
    | .createWorkflow _ wf => wf.id ∉ s.world.registry.workflows.rows.map (·.id)
    | .getRun _ runId => runId ∉ s.world.runs.rows.map (·.id)
    | .createRun run _ => run.id ∉ s.world.runs.rows.map (·.id)
    | _ => True

/-! ## Calls -/

/-- The calls that neither look the key up nor start a run. -/
def Op.Still : Op → Prop
  | .getByIdempotencyKey .. => False
  | .createRun .. => False
  | .setRunning .. => False
  | _ => True

theorem Op.Inner.still {o : Op} (ho : o.Inner) : o.Still := by
  cases o <;> first | exact ho | trivial

section Calls

variable {tenant key : String} {env : Env} {o : Op} {w : World}

theorem map_id_filter_rewrite {p q : RunRecord → Bool} {f : RunRecord → RunRecord}
    (hid : ∀ r, (f r).id = r.id) (hp : ∀ r, p (f r) = p r) (rows : List RunRecord) :
    ((rows.map fun r => if q r then f r else r).filter p).map (·.id) =
      (rows.filter p).map (·.id) := by
  induction rows with
  | nil => rfl
  | cons r rows ih =>
    have hrow : p (if q r then f r else r) = p r := by
      split
      · exact hp r
      · rfl
    have hrowid : (if q r then f r else r).id = r.id := by
      split
      · exact hid r
      · rfl
    simp only [List.map_cons, List.filter_cons, hrow]
    split
    · rw [List.map_cons, List.map_cons, hrowid, ih]
    · exact ih

/-- A still call changes neither the runs under the key nor the executions. -/
theorem effect_still (ho : o.Still) :
    ((env.effect o w).2.keyed tenant key).map (·.id) = (w.keyed tenant key).map (·.id) ∧
      (env.effect o w).2.executions = w.executions := by
  cases o with
  | getByIdempotencyKey => exact ho.elim
  | createRun => exact ho.elim
  | setRunning => exact ho.elim
  | updateRunStatus tenant' runId status output error =>
    refine ⟨?_, rfl⟩
    exact map_id_filter_rewrite (f := fun r => { r with status, outputPayload := output, error })
      (fun _ => rfl) (fun _ => rfl) w.runs.rows
  | dispatchNodeType runId node config context =>
    exact ⟨rfl, by simp [Env.effect, World.executions, World.log, Event.isExecuting]⟩
  | approveStep tenant' stepId output =>
    simp only [Env.effect]
    split
    · exact ⟨rfl, rfl⟩
    · exact ⟨rfl, by simp [World.executions, World.log, World.updateStep, Event.isExecuting]⟩
  | _ => exact ⟨rfl, rfl⟩

theorem handle_still (tenant key : String) (env : Env) (w : World) (ho : o.Still) :
    ((env.handle o w).2.keyed tenant key).map (·.id) = (w.keyed tenant key).map (·.id) ∧
      (env.handle o w).2.executions = w.executions := by
  unfold Env.handle
  rcases env.faultOf o w with _ | ⟨e, _ | _⟩
  · exact effect_still ho
  · exact ⟨rfl, rfl⟩
  · exact effect_still ho

/-- A call that does not fail does what it does. -/
theorem handle_of_fault_eq_none (h : env.fault w o = none) :
    env.handle o w = ((env.effect o w).1, { (env.effect o w).2 with tick := w.tick + 1 }) := by
  have hfault : env.faultOf o w = none := by
    unfold Env.faultOf
    split
    · rfl
    · exact h
  simp only [Env.handle, hfault]

theorem ghosts_still (ho : o.Still) (i : ℕ) (s : Gateway) :
    (Gateway.handle i env o s).2 = ⟨(env.handle o s.world).2, s.searching, s.creators⟩ := by
  have hfruitless : o.fruitless (env.handle o s.world).1 = false := by
    cases o <;> first | exact ho.elim | rfl
  have hcreated : o.created (env.handle o s.world).1 = false := by
    cases o <;> first | exact ho.elim | rfl
  simp [Gateway.handle, hfruitless, hcreated]

end Calls

/-! ## The contract of the requests -/

/-- One request at most searches or has created a run, and none if there was a run before. -/
structure Gateway.Sound (tenant key : String) (w : World) (s : Gateway) : Prop where
  few : s.searching.length + s.creators.length + (w.keyed tenant key).length ≤ 1
  runs : (s.world.keyed tenant key).length = (w.keyed tenant key).length + s.creators.length
  executed : s.world.executions = w.executions + s.creators.length

/-- What a call of the request `j` does as the others see it. -/
structure Gateway.Goes (tenant key : String) (j : ℕ) (s s' : Gateway) : Prop where
  runs : ∀ run ∈ s.world.keyed tenant key, ∃ run' ∈ s'.world.keyed tenant key, run'.id = run.id
  others : ∀ i, i ≠ j →
    (i ∈ s'.searching ↔ i ∈ s.searching) ∧ (i ∈ s'.creators ↔ i ∈ s.creators)

/-- The contract of the requests under a key. -/
def ingressContract (tenant key : String) (w : World) : Crew.Contract Gateway :=
  ⟨Gateway.Sound tenant key w, Gateway.Goes tenant key⟩

/-- The request searches, or has not looked up yet; it has created no run. -/
def Gateway.Phase (i : ℕ) (searches : Bool) (s : Gateway) : Prop :=
  (i ∈ s.searching ↔ searches = true) ∧ i ∉ s.creators

section Contract

variable {tenant key : String} {w : World} {requests : List WebhookRequest} {i : ℕ} {env : Env}
  {o : Op} {s s' : Gateway} {b : Bool}

theorem Gateway.Goes.of_map_id (hruns : (s'.world.keyed tenant key).map (·.id) =
      (s.world.keyed tenant key).map (·.id))
    (hothers : ∀ j, j ≠ i →
      (j ∈ s'.searching ↔ j ∈ s.searching) ∧ (j ∈ s'.creators ↔ j ∈ s.creators)) :
    Gateway.Goes tenant key i s s' := by
  refine ⟨fun run hrun => ?_, hothers⟩
  have hid : run.id ∈ (s'.world.keyed tenant key).map (·.id) :=
    hruns ▸ List.mem_map_of_mem hrun
  exact List.mem_map.1 hid

theorem Gateway.Sound.still (hs : s.Sound tenant key w) (i : ℕ) (env : Env) (ho : o.Still) :
    (Gateway.handle i env o s).2.Sound tenant key w ∧
      s.Goes tenant key i (Gateway.handle i env o s).2 := by
  obtain ⟨hkeyed, hexecuted⟩ := handle_still tenant key env s.world ho
  have hlength := congrArg List.length hkeyed
  rw [List.length_map, List.length_map] at hlength
  rw [ghosts_still ho]
  exact ⟨⟨hs.few, hlength.trans hs.runs, hexecuted.trans hs.executed⟩,
    .of_map_id hkeyed fun _ _ => ⟨Iff.rfl, Iff.rfl⟩⟩

/-- The others leave a request where it is. -/
theorem Gateway.Phase.rely (hs : s.Phase i b)
    (h : (ingressContract tenant key w).Rely i s s') : s'.Phase i b := by
  refine h.keeps (F := Gateway.Phase i b) (fun j s s' hj _ hgoes hs => ?_) hs
  obtain ⟨hsearching, hcreators⟩ := Gateway.Goes.others hgoes i hj.symm
  exact ⟨hsearching.trans hs.1, fun h => hs.2 (hcreators.1 h)⟩

theorem mem_creators_rely (hs : i ∈ s.creators)
    (h : (ingressContract tenant key w).Rely i s s') : i ∈ s'.creators :=
  h.keeps (F := fun s => i ∈ s.creators)
    (fun _ _ _ hj _ hgoes hs => (Gateway.Goes.others hgoes i hj.symm).2.2 hs) hs

/-- The program keeps the contract under the condition and ends with `Q`. -/
def Serves (tenant key : String) (w : World) (requests : List WebhookRequest) (i : ℕ) {α : Type}
    (p : M α) (Q : Except PyError α → Gateway → Prop) (s : Gateway) : Prop :=
  (ingressContract tenant key w).Upholds Gateway.handle (Undisturbed tenant key requests) i p Q s

theorem Serves.ret {α : Type} {a : α} {Q : Except PyError α → Gateway → Prop} (h : Q (.ok a) s) :
    Serves tenant key w requests i (pure a) Q s := h

theorem Serves.bind {α β : Type} {p : M α} {f : α → M β} {R : Except PyError α → Gateway → Prop}
    {Q : Except PyError β → Gateway → Prop} (hp : Serves tenant key w requests i p R s)
    (hok : ∀ a s, R (.ok a) s → Serves tenant key w requests i (f a) Q s)
    (herr : ∀ e s, R (.error e) s → Q (.error e) s) :
    Serves tenant key w requests i (p >>= f) Q s :=
  Crew.Contract.Upholds.bind hp hok herr

/-- A part of a request that answers, while the request stays where it is. -/
def Answers {α : Type} (i : ℕ) (b : Bool) (P : α → Prop) (r : Except PyError α) (s : Gateway) :
    Prop :=
  (∃ a, r = .ok a ∧ P a) ∧ s.Phase i b

/-- Go on with an answer. -/
theorem Serves.then {α β : Type} {p : M α} {f : α → M β} {P : α → Prop}
    {Q : Except PyError β → Gateway → Prop}
    (hp : Serves tenant key w requests i p (Answers i b P) s)
    (hf : ∀ a s, P a → s.Phase i b → Serves tenant key w requests i (f a) Q s) :
    Serves tenant key w requests i (p >>= f) Q s := by
  refine hp.bind (fun a s h => ?_) fun e s h => ?_
  · obtain ⟨⟨a', ha, hP⟩, hphase⟩ := h
    obtain rfl := Except.ok.inj ha
    exact hf a s hP hphase
  · obtain ⟨⟨a', ha, -⟩, -⟩ := h
    cases ha

/-- A still call of a request that has created no run does not fail. -/
theorem serves_still (o : Op) (ho : o.Still) (hs : s.Phase i b) {P : o.Res → Prop}
    (hP : ∀ env s, Undisturbed tenant key requests i env o s → i ∉ s.creators →
      ∃ a, (env.effect o s.world).1 = .ok a ∧ P a) :
    Serves tenant key w requests i (perform o) (Answers i b P) s := by
  refine .perform fun s' hrely hinv env hG => ?_
  have hphase := hs.rely hrely
  obtain ⟨hsound, hgoes⟩ := Gateway.Sound.still hinv i env ho
  refine ⟨hsound, hgoes, ?_, ?_⟩
  · have hfault : env.fault s'.world o = none := (hG.resolve_left hphase.2).1
    simp only [Gateway.handle, handle_of_fault_eq_none hfault]
    exact hP env s' hG hphase.2
  · rw [ghosts_still ho]
    exact hphase

/-- What follows the creation of the run. -/
theorem serves_inner {α : Type} {p : M α} (hp : p.Uses Op.Inner) (hs : i ∈ s.creators) :
    Serves tenant key w requests i p (fun _ s => i ∈ s.creators) s := by
  induction p generalizing s with
  | pure a => exact hs
  | throw e => exact hs
  | call o k ih =>
    intro s' hrely hinv env hG
    obtain ⟨hsound, hgoes⟩ := Gateway.Sound.still hinv i env hp.1.still
    refine ⟨hsound, hgoes, ih _ (hp.2 _) ?_⟩
    rw [ghosts_still hp.1.still]
    have hcreator : i ∈ s'.creators := mem_creators_rely hs hrely
    exact hcreator

/-! ### The look-up and the creation -/

theorem handle_lookUp_nil (hfault : env.fault s.world (.getByIdempotencyKey tenant key) = none)
    (hkeyed : s.world.keyed tenant key = []) :
    Gateway.handle i env (.getByIdempotencyKey tenant key) s =
      (.ok none, ⟨{ s.world with tick := s.world.tick + 1 }, s.searching ++ [i], s.creators⟩) := by
  unfold World.keyed at hkeyed
  have heffect : env.effect (.getByIdempotencyKey tenant key) s.world = (.ok none, s.world) := by
    simp only [Env.effect, hkeyed]
  simp only [Gateway.handle, handle_of_fault_eq_none hfault, heffect]
  rfl

theorem handle_lookUp_singleton {run : RunRecord}
    (hfault : env.fault s.world (.getByIdempotencyKey tenant key) = none)
    (hkeyed : s.world.keyed tenant key = [run]) :
    Gateway.handle i env (.getByIdempotencyKey tenant key) s =
      (.ok (some run), ⟨{ s.world with tick := s.world.tick + 1 }, s.searching, s.creators⟩) := by
  unfold World.keyed at hkeyed
  have heffect : env.effect (.getByIdempotencyKey tenant key) s.world =
      (.ok (some run), s.world) := by
    simp only [Env.effect, hkeyed]
  simp only [Gateway.handle, handle_of_fault_eq_none hfault, heffect]
  rfl

theorem handle_createRun {run : RunRecord} {definition : WorkflowSpec}
    (hfault : env.fault s.world (.createRun run definition) = none)
    (hnew : run.id ∉ s.world.runs.rows.map (·.id)) :
    Gateway.handle i env (.createRun run definition) s =
      (.ok (), ⟨{ s.world with
        runs := s.world.runs.push run hnew
        trace := s.world.trace ++ [.executing run.id definition]
        tick := s.world.tick + 1 }, s.searching.filter (· ≠ i), s.creators ++ [i]⟩) := by
  have hinsert : s.world.runs.insert? run = some (s.world.runs.push run hnew) := dif_neg hnew
  simp only [Gateway.handle, handle_of_fault_eq_none hfault, Env.effect, hinsert]
  rfl

/-- What a look-up leads to: the request searches and can publish its body, or it has found the
run and can return it. -/
def LookedUp (tenant key : String) (i : ℕ) (r : WebhookRequest) :
    Except PyError (Option RunRecord) → Gateway → Prop
  | .ok none, s => s.Phase i true ∧ isDictionary r.payload = true
  | .ok (some run), s => (∃ run' ∈ s.world.keyed tenant key, run'.id = run.id) ∧
      (run.outputPayload = .null ∨ isDictionary run.outputPayload = true)
  | .error _, _ => False

theorem serves_lookUp {r : WebhookRequest} (hr : requests[i]? = some r) (hs : s.Phase i false) :
    Serves tenant key w requests i (perform (.getByIdempotencyKey tenant key))
      (LookedUp tenant key i r) s := by
  refine .perform fun s' hrely hinv env hG => ?_
  have hphase := hs.rely hrely
  obtain ⟨hfault, hnobody, houtput, hbody⟩ := hG.resolve_left hphase.2
  have hsound : s'.Sound tenant key w := hinv
  rcases hkeyed : s'.world.keyed tenant key with _ | ⟨run, _ | ⟨run', rest⟩⟩
  · -- nobody else searches, and there is no run
    have hruns := hsound.runs
    rw [hkeyed, List.length_nil] at hruns
    rw [handle_lookUp_nil hfault hkeyed]
    refine ⟨⟨?_, hsound.runs, hsound.executed⟩, .of_map_id rfl fun j hj => ⟨?_, Iff.rfl⟩,
      ⟨?_, hphase.2⟩, hbody hkeyed r hr⟩
    · simp only [hnobody, List.nil_append, List.length_singleton]
      omega
    · simp [hj]
    · simp
  · rw [handle_lookUp_singleton hfault hkeyed]
    have hmem : run ∈ s'.world.keyed tenant key := by simp [hkeyed]
    exact ⟨⟨hsound.few, hsound.runs, hsound.executed⟩,
      .of_map_id rfl fun _ _ => ⟨Iff.rfl, Iff.rfl⟩, ⟨run, hmem, rfl⟩, houtput run hmem⟩
  · have hruns := hsound.runs
    have hfew := hsound.few
    rw [hkeyed, List.length_cons, List.length_cons] at hruns
    omega

theorem serves_createRun (run : RunRecord) {definition : WorkflowSpec}
    (htenant : run.tenantId = tenant) (hkey : run.idempotencyKey = some key) (hs : s.Phase i true) :
    Serves tenant key w requests i (perform (.createRun run definition))
      (fun _ s => i ∈ s.creators) s := by
  refine .perform fun s' hrely hinv env hG => ?_
  have hphase := hs.rely hrely
  obtain ⟨hfault, hnew⟩ := hG.resolve_left hphase.2
  have hsound : s'.Sound tenant key w := hinv
  have hfew := hsound.few
  -- the request is the only one that searches
  have hone : s'.searching = [i] := by
    have hmem : i ∈ s'.searching := hphase.1.2 rfl
    rcases hsearching : s'.searching with _ | ⟨j, _ | ⟨j', rest⟩⟩ <;> rw [hsearching] at hmem hfew
    · cases hmem
    · rw [List.mem_singleton.1 hmem]
    · simp only [List.length_cons] at hfew
      omega
  have hkeyed : ∀ trace tick, World.keyed { s'.world with
      runs := s'.world.runs.push run hnew, trace, tick } tenant key =
        s'.world.keyed tenant key ++ [run] := by
    intro trace tick
    simp [World.keyed, List.filter_append, htenant, hkey]
  rw [handle_createRun hfault hnew]
  refine ⟨⟨?_, ?_, ?_⟩, ⟨fun run' hrun' => ⟨run', ?_, rfl⟩, fun j hj => ⟨?_, ?_⟩⟩, ?_⟩
  · simp only [hone, List.length_singleton] at hfew
    simp [hone]
    omega
  · simp only [hkeyed, List.length_append, List.length_singleton, hsound.runs]
    omega
  · have hexecuted := hsound.executed
    simp only [World.executions, List.countP_append, List.length_append, List.length_singleton]
      at hexecuted ⊢
    rw [hexecuted]
    rfl
  · simp only [hkeyed]
    exact List.mem_append_left _ hrun'
  · simp [hj]
  · simp [hj]
  · simp

/-! ### The code of a request -/

/-- How a request ends: it has created the run, or it returns the run under the key. -/
def Served (tenant key : String) (i : ℕ) (r : Except PyError WebhookIngressResponse) (s : Gateway) :
    Prop :=
  i ∈ s.creators ∨
    ∃ response, r = .ok response ∧ ∃ run ∈ s.world.keyed tenant key, response.runId = run.id

theorem serves_uuid (hs : s.Phase i b) :
    Serves tenant key w requests i (perform .uuid) (Answers i b fun _ => True) s :=
  serves_still .uuid trivial hs fun env s _ _ => ⟨env.uuid s.world, rfl, trivial⟩

theorem serves_traceIdOr (traceId : Option String) (hs : s.Phase i b) :
    Serves tenant key w requests i (traceIdOr traceId) (Answers i b fun _ => True) s := by
  unfold traceIdOr
  split
  · next id _ => exact Serves.ret ⟨⟨id, rfl, trivial⟩, hs⟩
  · exact serves_uuid hs

/-- A workflow that listens, or the new one, has a definition. -/
theorem serves_resolveWorkflow (path : String) (hs : s.Phase i b) :
    Serves tenant key w requests i (resolveWorkflow tenant path)
      (Answers i b fun wf => wf.definitionJson.Accepted) s := by
  have hget : Serves tenant key w requests i (perform (.getByTriggerPath tenant path))
      (Answers i b fun wf? => ∀ wf, wf? = some wf → wf.definitionJson.Accepted) s := by
    refine serves_still (.getByTriggerPath tenant path) trivial hs fun env s hG hi => ⟨_, rfl, ?_⟩
    exact (hG.resolve_left hi).2
  refine hget.then fun wf? s hwf hs => ?_
  cases wf? with
  | some wf => exact Serves.ret ⟨⟨wf, rfl, hwf wf rfl⟩, hs⟩
  | none =>
    refine (serves_uuid hs).then fun uuid s _ hs => ?_
    refine serves_still (.createWorkflow tenant (autoWorkflow tenant uuid)) trivial hs
      fun env s hG hi => ?_
    have hnew : (autoWorkflow tenant uuid).id ∉ s.world.registry.workflows.rows.map (·.id) :=
      (hG.resolve_left hi).2
    rcases Registry.create_cases (r := s.world.registry) tenant (autoWorkflow tenant uuid) with
      ⟨e, -, hmem⟩ | ⟨r', hok, -⟩
    · exact absurd hmem hnew
    · refine ⟨{ autoWorkflow tenant uuid with tenantId := tenant }, ?_,
        defaultDemoDefinition.accepted⟩
      simp only [Env.effect, hok]

theorem serves_parseDefinition {spec : WorkflowSpec} (hspec : spec.Accepted) (hs : s.Phase i b) :
    Serves tenant key w requests i (parseDefinition spec) (Answers i b fun _ => True) s := by
  have hparse : WorkflowDefinition.parse spec = .ok ⟨spec, hspec⟩ := dif_pos hspec
  simp only [parseDefinition, hparse]
  exact Serves.ret ⟨⟨_, rfl, trivial⟩, hs⟩

/-- A new run is created, whatever becomes of it then. -/
theorem serves_execute {ev : Evaluator} {a : ExecuteArgs} (hkey : a.idempotencyKey = some key)
    (hs : s.Phase i true) :
    Serves tenant key w requests i (execute ev tenant a) (fun _ s => i ∈ s.creators) s := by
  have htraced : ∀ traceId s, s.Phase i true → Serves tenant key w requests i
      (executeTraced ev tenant a traceId) (fun _ s => i ∈ s.creators) s := by
    intro traceId s hs
    have hget : Serves tenant key w requests i (perform (.getRun tenant a.runId))
        (Answers i true fun found => found = none) s := by
      refine serves_still (.getRun tenant a.runId) trivial hs fun env s hG hi => ⟨none, ?_, rfl⟩
      have hnew : a.runId ∉ s.world.runs.rows.map (·.id) := (hG.resolve_left hi).2
      have hget? : s.world.runs.get? a.runId = none :=
        Table.get?_eq_none.2 fun run hrun hid => hnew (hid ▸ List.mem_map_of_mem hrun)
      simp only [Env.effect, World.run?, hget?]
      rfl
    refine hget.then fun found s hfound hs => ?_
    subst hfound
    refine (serves_createRun (a.newRun tenant traceId) rfl hkey hs).bind
      (Q := fun _ s => i ∈ s.creators) (fun _ s hs => ?_) fun _ _ h => h
    exact serves_inner (uses_resume ..) hs
  unfold execute
  split
  · exact htraced _ s hs
  · exact (serves_uuid hs).then fun traceId s _ hs => htraced traceId s hs

theorem serves_ingest {ev : Evaluator} {r : WebhookRequest} {traceId : String}
    (hkey : r.xIdempotencyKey = some key) (hbody : isDictionary r.payload = true)
    (hs : s.Phase i true) :
    Serves tenant key w requests i (ingest ev tenant r traceId) (Served tenant key i) s := by
  obtain ⟨items, hpayload⟩ := isDictionary_iff.1 hbody
  unfold ingest
  simp only [hpayload, eventMessage]
  have hpublish : Serves tenant key w requests i
      (perform (.publish ("events." ++ tenant ++ ".webhook") (.obj items)))
      (Answers i true fun _ => True) s :=
    serves_still (.publish _ _) trivial hs fun env s _ _ => ⟨(), rfl, trivial⟩
  refine hpublish.then fun _ s _ hs => ?_
  refine (serves_resolveWorkflow r.cleanPath hs).then fun wf s hwf hs => ?_
  refine (serves_parseDefinition hwf hs).then fun d s _ hs => ?_
  refine (serves_uuid hs).then fun uuid s _ hs => ?_
  refine (serves_execute hkey hs).bind (fun run s hs => ?_) fun e s hs => Or.inl hs
  unfold ingressResponse
  split
  · exact Serves.ret (Or.inl hs)
  · exact Serves.ret (Or.inl hs)
  · exact Or.inl hs

theorem serves_request {ev : Evaluator} {r : WebhookRequest} (hr : requests[i]? = some r)
    (hkey : r.xIdempotencyKey = some key) (hne : key ≠ "") (hs : s.Phase i false) :
    Serves tenant key w requests i (handleWebhookIngress ev tenant r) (Served tenant key i) s := by
  have hlook : orElse r.xIdempotencyKey none = some key := by simp [orElse, hkey, hne]
  unfold handleWebhookIngress
  refine (serves_traceIdOr r.xTraceId hs).then fun traceId s _ hs => ?_
  simp only [hlook]
  refine (serves_lookUp hr hs).bind (fun found s h => ?_) fun e s h => h.elim
  cases found with
  | none => exact serves_ingest hkey h.2 h.1
  | some run =>
    obtain ⟨⟨run', hrun', hid⟩, houtput⟩ := h
    rcases houtput with houtput | houtput
    · simp only [ingressResponse, houtput]
      exact Serves.ret (Or.inr ⟨_, rfl, run', hrun', hid.symm⟩)
    · obtain ⟨items, hitems⟩ := isDictionary_iff.1 houtput
      simp only [ingressResponse, hitems]
      exact Serves.ret (Or.inr ⟨_, rfl, run', hrun', hid.symm⟩)

end Contract

/-! ## One run under a key -/

theorem Served.rely {tenant key : String} {w : World} {i : ℕ} {s s' : Gateway}
    {r : Except PyError WebhookIngressResponse} (hs : Served tenant key i r s)
    (h : (ingressContract tenant key w).Rely i s s') : Served tenant key i r s' := by
  rcases hs with hcreator | ⟨response, rfl, hrun⟩
  · exact Or.inl (mem_creators_rely hcreator h)
  · refine Or.inr ⟨response, rfl, ?_⟩
    refine h.keeps (F := fun s => ∃ run ∈ s.world.keyed tenant key, response.runId = run.id)
      (fun j s s' hj _ hgoes hs => ?_) hrun
    obtain ⟨run, hmem, hid⟩ := hs
    obtain ⟨run', hmem', hid'⟩ := Gateway.Goes.runs hgoes run hmem
    exact ⟨run', hmem', hid.trans hid'.symm⟩

/-- **Requests under one key make one run**, which every request returns but the one that created
it, in every interleaving whose calls meet the condition. -/
theorem deduplicated (ev : Evaluator) (tenant key : String) (w : World)
    (requests : List WebhookRequest) (p : IngressCrew) (hne : key ≠ "")
    (hkeys : ∀ r ∈ requests, r.xIdempotencyKey = some key)
    (hw : (w.keyed tenant key).length ≤ 1)
    (hrun : Crew.Runs Gateway.handle (Undisturbed tenant key requests)
      (ingressCrew ev tenant w requests) p) : Deduplicated tenant key w p := by
  have hstart : (ingressCrew ev tenant w requests).state.Sound tenant key w :=
    ⟨by simpa [ingressCrew] using hw, rfl, rfl⟩
  have hprogs : ∀ i q, (ingressCrew ev tenant w requests).progs[i]? = some q →
      Serves tenant key w requests i q (Served tenant key i)
        (ingressCrew ev tenant w requests).state := by
    intro i q hq
    obtain ⟨r, hr, rfl⟩ : ∃ r, requests[i]? = some r ∧ handleWebhookIngress ev tenant r = q := by
      simpa [ingressCrew] using hq
    refine serves_request hr (hkeys r (List.mem_of_getElem? hr)) hne ?_
    simp [Gateway.Phase, ingressCrew]
  obtain ⟨hend, hknown⟩ := (ingressContract tenant key w).run (Q := Served tenant key)
    (fun _ _ _ _ h hs => hs.rely h) hstart hprogs hrun
  have hsound : p.state.Sound tenant key w := hend
  have hfew := hsound.few
  have hruns := hsound.runs
  refine ⟨by omega, by rw [hsound.executed, hruns]; omega, ?_⟩
  -- there is one creator at most
  obtain ⟨i, hi⟩ : ∃ i, ∀ j ∈ p.state.creators, j = i := by
    rcases hcreators : p.state.creators with _ | ⟨c, _ | ⟨c', rest⟩⟩
    · exact ⟨0, by simp⟩
    · exact ⟨c, by simp⟩
    · rw [hcreators, List.length_cons, List.length_cons] at hfew
      omega
  refine ⟨i, fun j hj => ⟨fun response hpure => ?_, fun e hthrow => ?_⟩⟩
  · rcases hknown j _ hpure with hcreator | ⟨response', hresponse, hserved⟩
    · exact absurd (hi j hcreator) hj
    · obtain rfl := Except.ok.inj hresponse
      exact hserved
  · rcases hknown j _ hthrow with hcreator | ⟨response', hresponse, -⟩
    · exact absurd (hi j hcreator) hj
    · cases hresponse

/-- An order that is sent twice. -/
def orderTwice : List WebhookRequest :=
  List.replicate 2 { webhookPath := "orders", body := some (.obj []), xTraceId := some "trace-1",
                     xIdempotencyKey := some "order-1" }

/-- The order comes in at an empty world. -/
def orderCrew : IngressCrew :=
  ingressCrew (.source ⟨fun _ => true, fun _ => none⟩) "acme" .empty orderTwice

/-- The first request creates the run, and the second one returns it while it is running. -/
theorem deduplicated_oneByOne : ∃ p : IngressCrew,
    Crew.Runs Gateway.handle (Undisturbed "acme" "order-1" orderTwice) orderCrew p ∧
      (∃ response : WebhookIngressResponse, p.progs[1]? = some (Prog.pure response) ∧
        response.runId = "RUN-5") ∧ Deduplicated "acme" "order-1" .empty p := by
  have hrun : Crew.Runs Gateway.handle (Undisturbed "acme" "order-1" orderTwice) orderCrew
      (Crew.play Gateway.handle orderCrew (Env.steadily [0, 0, 0, 0, 0, 0, 0, 0, 1])) := by
    refine Crew.runs_play _ ⟨?_, ?_, ?_, ?_, ?_, ?_, ?_, ?_, ?_, trivial⟩
    · rintro o k ⟨⟩
      refine Or.inr ⟨rfl, rfl, fun run hrun => absurd hrun List.not_mem_nil, fun _ r hr => ?_⟩
      obtain rfl := Option.some.inj hr
      rfl
    · rintro o k ⟨⟩
      exact Or.inr ⟨rfl, trivial⟩
    · rintro o k ⟨⟩
      exact Or.inr ⟨rfl, fun wf hwf => nomatch hwf⟩
    · rintro o k ⟨⟩
      exact Or.inr ⟨rfl, trivial⟩
    · rintro o k ⟨⟩
      exact Or.inr ⟨rfl, List.not_mem_nil⟩
    · rintro o k ⟨⟩
      exact Or.inr ⟨rfl, trivial⟩
    · rintro o k ⟨⟩
      exact Or.inr ⟨rfl, List.not_mem_nil⟩
    · rintro o k ⟨⟩
      exact Or.inr ⟨rfl, List.not_mem_nil⟩
    · rintro o k ⟨⟩
      refine Or.inr ⟨rfl, rfl, fun run hrun => Or.inl ?_, fun hnil => nomatch hnil⟩
      obtain rfl := List.mem_singleton.1 hrun
      rfl
  exact ⟨_, hrun, ⟨_, rfl, by decide +kernel⟩,
    deduplicated _ _ _ _ _ _ (by decide) (by simp [orderTwice]) (by decide) hrun⟩

/-- Two requests that look up before either creates its run, with no call that fails. -/
theorem not_deduplicated_lockstep :
    ¬ ∀ (ev : Evaluator) (tenant key : String) (w : World) (requests : List WebhookRequest)
      (p : IngressCrew), (∀ r ∈ requests, r.xIdempotencyKey = some key) →
        w.keyed tenant key = [] →
        Crew.Runs Gateway.handle (fun _ env o s => env.fault s.world o = none)
          (ingressCrew ev tenant w requests) p → Deduplicated tenant key w p := by
  intro hall
  have hrun : Crew.Runs Gateway.handle (fun _ env o s => env.fault s.world o = none) orderCrew
      (Crew.play Gateway.handle orderCrew
        (Env.steadily [0, 1, 0, 1, 0, 1, 0, 1, 0, 1, 0, 1, 0, 1, 0, 1])) :=
    Crew.runs_play _ (by simp [Env.steadily, Crew.Allows, Env.steady])
  have hone := (hall _ "acme" "order-1" .empty orderTwice _ (by simp [orderTwice]) rfl hrun).one
  exact absurd hone (by decide +kernel)

end FlowMesh
