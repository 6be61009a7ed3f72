import FlowMesh.Engine.Calls
import FlowMesh.Api.Routers
import FlowMesh.Library.Crew

/-!
# Runs and the versions they execute

The routers that start and resume runs, between any operations on the version store. A run is
meant to be pinned to the workflow row it was started from: it records the row's id and version,
and later executions of the run execute the row's definition.

The engine records something else: the id inside the definition, or a fallback, and the
definition's schema version. `resume_approval` looks the recorded version up, and
`replay_dead_letter` takes the current definition. So a run of a workflow that was deployed once
records version 1 for version 2 (`not_pinned_deployed`).

Runs are pinned as long as the rows that they are started from carry their own id and version in
their definition and have their version row, and as long as the current row has the recorded
version's definition whenever it is executed in a run that exists (`pinned`). `read` and `pins`
are ghosts: the row that each request has read, and the row behind each run.
-/

namespace FlowMesh

open Python Database Async

/-! ## Requests -/

/-- The calls of the routers, and the operations on the version store. -/
inductive PinOp
  | engine (o : Op)
  | registry (c : Command)

/-- What the calls return. -/
@[reducible] def PinOp.Res : PinOp → Type
  | .engine o => o.Res
  | .registry _ => Unit

/-- Programs over these calls. -/
abbrev PinM (α : Type) : Type := Prog PinOp PinOp.Res PyError α

/-- A call of the routers. -/
abbrev routerOp (o : Op) : PinM o.Res := Prog.perform (PinOp.engine o)

/-- An operation on the version store, or a request to the routers. -/
inductive PinRequest
  | registry (c : Command)
  | ingress (tenant : String) (r : WebhookRequest)
  | replayRun (tenant runId : String)
  | approveRun (tenant runId : String) (a : ApprovalArgs)
  | replayDeadLetter (tenant : String) (fallback : ℕ → Option ReplayResponse) (itemId : ℕ)

/-- The code of a request to the routers; what it returns is left out. -/
def PinRequest.routes (ev : Evaluator) : PinRequest → M Unit
  | .registry _ => return ()
  | .ingress tenant r => do
    let _ ← handleWebhookIngress ev tenant r
  | .replayRun tenant runId => do
    let _ ← FlowMesh.replayRun ev tenant runId
  | .approveRun tenant runId a => do
    let _ ← FlowMesh.approveRun ev tenant runId a
  | .replayDeadLetter tenant fallback itemId => do
    let _ ← FlowMesh.replayDeadLetter ev tenant fallback itemId

/-- The code of a request. -/
def PinRequest.code (ev : Evaluator) : PinRequest → PinM Unit
  | .registry c => Prog.perform (PinOp.registry c)
  | request => (request.routes ev).interpret routerOp

/-! ## The pins -/

/-- The world, the workflow row that each request has read, and the runs that were created with
the rows their requests had read. -/
structure Pinboard where
  world : World
  read : ℕ → Option WorkflowRecord
  pins : List (String × Option WorkflowRecord)

/-- The workflow row that a call has read. -/
def Op.workflow? : (o : Op) → Except PyError o.Res → Option WorkflowRecord
  | .getWorkflow .., .ok wf? => wf?
  | .listWorkflows _, .ok wfs => wfs.head?
  | .getByTriggerPath .., .ok wf? => wf?
  | .createWorkflow .., .ok wf => some wf
  | _, _ => none

/-- The run that a call has created, whether it raised then or not. -/
def Op.creates (o : Op) (w w' : World) : Option String :=
  match o with
  | .createRun run _ =>
    if run.id ∉ w.runs.rows.map (·.id) ∧ run.id ∈ w'.runs.rows.map (·.id) then some run.id else none
  | _ => none

/-- What the calls of the request `i` to the routers do. -/
def Pinboard.engine (i : ℕ) (env : Env) : Handler Op Op.Res PyError Pinboard := fun o s =>
  ((env.handle o s.world).1,
    { world := (env.handle o s.world).2
      read := Function.update s.read i ((o.workflow? (env.handle o s.world).1).or (s.read i))
      pins := s.pins ++
        (o.creates s.world (env.handle o s.world).2).toList.map fun runId => (runId, s.read i) })

/-- What the calls do. -/
def Pinboard.handle (i : ℕ) (env : Env) : Handler PinOp PinOp.Res PyError Pinboard
  | .engine o, s => Pinboard.engine i env o s
  | .registry c, s =>
    (.ok (), { s with world := { s.world with registry := s.world.registry.exec c } })

/-- Requests in progress. -/
abbrev PinCrew : Type := Crew PinOp PinOp.Res PyError Pinboard Unit

/-- Requests that come in at an empty world. -/
def pinCrew (ev : Evaluator) (requests : List PinRequest) : PinCrew :=
  ⟨⟨.empty, fun _ => none, []⟩, requests.map (·.code ev)⟩

/-- The same definition, the id apart: the engine writes the run's workflow id into it. -/
def WorkflowSpec.SameBody (s s' : WorkflowSpec) : Prop :=
  { s with id := none } = { s' with id := none }

/-- Every run that was created records the id and the version of a workflow row, the one its
request had read, and only this row's definition was executed in the run. -/
def Pinboard.Pinned (s : Pinboard) : Prop :=
  ∀ runId wf?, (runId, wf?) ∈ s.pins → ∃ wf, wf? = some wf ∧
    (∃ run ∈ s.world.runs, run.id = runId ∧ run.workflowId = wf.id ∧
      run.workflowVersion = wf.version) ∧
    ∀ d, Event.executing runId d ∈ s.world.trace → d.SameBody wf.definitionJson

/-! ## The condition -/

/-- The definition is stored for the version. -/
def Registry.Stores (r : Registry) (tenant workflowId : String) (version : ℤ) (d : WorkflowSpec) :
    Prop :=
  ∃ v, r.getByVersion tenant workflowId version = some v ∧ v.definitionJson = d

/-- The definition carries the row's own id and version, and the row has its version row. -/
def WorkflowRecord.Labelled (wf : WorkflowRecord) (r : Registry) : Prop :=
  (orElse wf.definitionJson.id none).getD "wf_order_processing" = wf.id ∧
    wf.definitionJson.schemaVersion = wf.version ∧
    r.Stores wf.tenantId wf.id wf.version wf.definitionJson

/-- The condition on a call: a run is created from a row that is labelled, and a row that was read
is executed in a run that exists only if its definition is that of the version the run records. -/
def Faithful (i : ℕ) (_env : Env) (o : PinOp) (s : Pinboard) : Prop :=
  match o with
  | .engine (.createRun ..) => ∀ wf, s.read i = some wf → wf.Labelled s.world.registry
  | .engine (.setRunning runId _) => ∀ wf, s.read i = some wf → ∀ run ∈ s.world.runs,
      run.id = runId → ∀ d,
        s.world.registry.Stores run.tenantId run.workflowId run.workflowVersion d →
          d = wf.definitionJson
  | _ => True

/-! ## What pins depend on -/

/-- What a run records of its workflow. -/
def RunRecord.label (r : RunRecord) : String × String × String × ℤ :=
  (r.id, r.tenantId, r.workflowId, r.workflowVersion)

/-- The labels of the stored runs. -/
def World.labels (w : World) : List (String × String × String × ℤ) := w.runs.rows.map (·.label)

/-- The calls that start no run. -/
def Op.StartsNone : Op → Prop
  | .createRun .. => False
  | .setRunning .. => False
  | _ => True

theorem Op.Inner.startsNone {o : Op} (ho : o.Inner) : o.StartsNone := by
  cases o <;> first | exact ho | trivial

/-- The parts of a world that matter here. -/
structure World.SameRuns (w w' : World) : Prop where
  labels : w'.labels = w.labels
  versions : w'.registry.versions = w.registry.versions
  executed : ∀ runId d, Event.executing runId d ∈ w'.trace ↔ Event.executing runId d ∈ w.trace

section Frames

variable {env : Env} {o : Op} {w w' : World}

theorem World.SameRuns.refl (w : World) : w.SameRuns w := ⟨rfl, rfl, fun _ _ => Iff.rfl⟩

theorem label_rewrite {q : RunRecord → Bool} {f : RunRecord → RunRecord}
    (hf : ∀ r, (f r).label = r.label) (rows : List RunRecord) :
    (rows.map fun r => if q r then f r else r).map (·.label) = rows.map (·.label) := by
  rw [List.map_map]
  refine List.map_congr_left fun r _ => ?_
  simp only [Function.comp_apply]
  split
  · exact hf r
  · rfl

theorem sameRuns_effect (ho : o.StartsNone) : w.SameRuns (env.effect o w).2 := by
  cases o with
  | createRun => exact ho.elim
  | setRunning => exact ho.elim
  | updateRunStatus tenant runId status output error =>
    refine ⟨?_, rfl, fun _ _ => Iff.rfl⟩
    exact label_rewrite (f := fun r => { r with status, outputPayload := output, error })
      (fun _ => rfl) w.runs.rows
  | createWorkflow tenant wf =>
    rcases Registry.create_cases (r := w.registry) tenant wf with
      ⟨e, he, -⟩ | ⟨r', hok, -, hvers, -⟩
    · simp only [Env.effect, he]
      exact .refl w
    · simp only [Env.effect, hok]
      exact ⟨rfl, hvers, fun _ _ => Iff.rfl⟩
  | dispatchNodeType runId node config context =>
    exact ⟨rfl, rfl, fun _ _ => by simp [Env.effect, World.log]⟩
  | approveStep tenant stepId output =>
    simp only [Env.effect]
    split
    · exact .refl w
    · exact ⟨rfl, rfl, fun _ _ => by simp [World.log, World.updateStep]⟩
  | getByIdempotencyKey tenant key =>
    simp only [Env.effect]
    split <;> exact .refl w
  | _ => exact ⟨rfl, rfl, fun _ _ => Iff.rfl⟩

/-- What a call can leave, if it fails or not. -/
theorem handle_cases (env : Env) (o : Op) (w : World) :
    (∃ e, env.handle o w = (.error e, { w with tick := w.tick + 1 })) ∨
      ∃ r, (r = (env.effect o w).1 ∨ ∃ e, r = .error e) ∧
        env.handle o w = (r, { (env.effect o w).2 with tick := w.tick + 1 }) := by
  unfold Env.handle
  rcases env.faultOf o w with _ | ⟨e, _ | _⟩
  · exact Or.inr ⟨_, Or.inl rfl, rfl⟩
  · exact Or.inl ⟨e, rfl⟩
  · exact Or.inr ⟨.error e, Or.inr ⟨e, rfl⟩, rfl⟩

theorem sameRuns_handle (env : Env) (w : World) (ho : o.StartsNone) :
    w.SameRuns (env.handle o w).2 := by
  rcases handle_cases env o w with ⟨e, h⟩ | ⟨r, -, h⟩
  · rw [h]
    exact ⟨rfl, rfl, fun _ _ => Iff.rfl⟩
  · rw [h]
    have heffect : w.SameRuns (env.effect o w).2 := sameRuns_effect ho
    exact ⟨heffect.labels, heffect.versions, heffect.executed⟩

/-- Runs of one id have one label. -/
theorem eq_of_mem_labels {l l' : String × String × String × ℤ} (h : l ∈ w.labels)
    (h' : l' ∈ w.labels) (hid : l.1 = l'.1) : l = l' := by
  obtain ⟨run, hrun, rfl⟩ := List.mem_map.1 h
  obtain ⟨run', hrun', rfl⟩ := List.mem_map.1 h'
  rw [Table.eq_of_key_eq hrun hrun' hid]

theorem mem_ids_of_mem_labels {l : String × String × String × ℤ} (h : l ∈ w.labels) :
    l.1 ∈ w.runs.rows.map (·.id) := by
  obtain ⟨run, hrun, rfl⟩ := List.mem_map.1 h
  exact List.mem_map_of_mem hrun

end Frames

/-! ## Versions stay -/

section Versions

variable {r r' : Registry} {tenant workflowId : String} {version : ℤ} {d : WorkflowSpec}

theorem Registry.stores_iff : r.Stores tenant workflowId version d ↔
    ∃ v ∈ r.versions, v.key = (tenant, workflowId, version) ∧ v.definitionJson = d := by
  unfold Registry.Stores Registry.getByVersion
  constructor
  · rintro ⟨v, hv, hd⟩
    obtain ⟨hmem, hkey⟩ := Table.get?_eq_some.1 hv
    exact ⟨v, hmem, hkey, hd⟩
  · rintro ⟨v, hmem, hkey, hd⟩
    exact ⟨v, Table.get?_eq_some.2 ⟨hmem, hkey⟩, hd⟩

theorem Registry.Stores.eq {d' : WorkflowSpec} (h : r.Stores tenant workflowId version d)
    (h' : r.Stores tenant workflowId version d') : d = d' := by
  obtain ⟨v, hv, rfl⟩ := h
  obtain ⟨v', hv', rfl⟩ := h'
  rw [hv] at hv'
  rw [Option.some.inj hv']

/-- Rows may be added and activated, but not changed otherwise. -/
theorem Registry.Stores.of_rows (h : r.Stores tenant workflowId version d)
    (hrows : ∀ v ∈ r.versions, ∃ v' ∈ r'.versions, v'.key = v.key ∧
      v'.definitionJson = v.definitionJson) : r'.Stores tenant workflowId version d := by
  obtain ⟨v, hmem, hkey, hd⟩ := stores_iff.1 h
  obtain ⟨v', hmem', hkey', hd'⟩ := hrows v hmem
  exact stores_iff.2 ⟨v', hmem', hkey'.trans hkey, hd'.trans hd⟩

theorem Registry.deactivate_rows (tenant workflowId : String) (v : WorkflowVersionRecord)
    (hv : v ∈ r.versions) :
    ∃ v' ∈ (r.deactivate tenant workflowId).versions, v'.key = v.key ∧
      v'.definitionJson = v.definitionJson := by
  refine ⟨_, mem_deactivate.2 ⟨v, hv, rfl⟩, ?_⟩
  split <;> exact ⟨rfl, rfl⟩

/-- **No operation changes the definition of a stored version.** -/
theorem Registry.Stores.exec (h : r.Stores tenant workflowId version d) (c : Command) :
    (r.exec c).Stores tenant workflowId version d := by
  refine h.of_rows fun v hv => ?_
  have hadd : ∀ {r₁ r₂ : Registry} {row : WorkflowVersionRecord}
      {res : Except PyError WorkflowVersionRecord}, r₁.addVersion row = (res, r₂) →
        v ∈ r₁.versions → v ∈ r₂.versions := by
    intro r₁ r₂ row res hadd hmem
    rcases addVersion_cases (r := r₁) row with ⟨e, he, -⟩ | ⟨r₃, hok, -, -, hrows⟩
    · obtain ⟨-, rfl⟩ := Prod.mk.inj (hadd.symm.trans he)
      exact hmem
    · obtain ⟨-, rfl⟩ := Prod.mk.inj (hadd.symm.trans hok)
      exact (hrows v).2 (Or.inl hmem)
  cases c with
  | create tenant' newId payload email =>
    refine ⟨v, ?_, rfl, rfl⟩
    change v ∈ (r.createWorkflow tenant' newId payload email).2.versions
    unfold createWorkflow
    dsimp only
    rcases create_cases (r := r) tenant' _ with ⟨e, he, -⟩ | ⟨r₁, hok, -, hvers, -⟩
    · rwa [he]
    · rw [hok]
      have hv' : v ∈ r₁.versions := hvers ▸ hv
      dsimp only
      split
      · next hrow => exact hadd hrow hv'
      · next hrow => exact hadd hrow hv'
  | insert tenant' wf =>
    refine ⟨v, ?_, rfl, rfl⟩
    rcases create_cases (r := r) tenant' wf with ⟨e, he, -⟩ | ⟨r₁, hok, -, hvers, -⟩
    · rwa [Registry.exec, he]
    · rw [Registry.exec, hok]
      exact hvers ▸ hv
  | deploy tenant' id definitionJson changelog deployedBy =>
    rcases hwf : r.getById tenant' id with _ | wf
    · rw [Registry.exec, deployVersion_not_found hwf]
      exact ⟨v, hv, rfl, rfl⟩
    rcases deployVersion_cases hwf definitionJson changelog deployedBy rfl with
      ⟨e, he, -⟩ | ⟨r₁, hok, -, -, hrows⟩
    · rw [Registry.exec, he]
      exact ⟨v, hv, rfl, rfl⟩
    · rw [Registry.exec, hok]
      obtain ⟨v', hv', hsame⟩ := deactivate_rows tenant' id v hv
      exact ⟨v', (hrows v').2 (Or.inl hv'), hsame⟩
  | rollback tenant' id target =>
    rcases hwf : r.getById tenant' id with _ | wf
    · rw [Registry.exec, rollbackToVersion_not_found hwf]
      exact ⟨v, hv, rfl, rfl⟩
    rcases rollbackToVersion_cases hwf target with ⟨-, he⟩ | ⟨targetVer, -, hok⟩
    · rw [Registry.exec, he]
      exact ⟨v, hv, rfl, rfl⟩
    · rw [Registry.exec, hok]
      obtain ⟨v', hv', hkey, hdef⟩ := deactivate_rows tenant' id v hv
      refine ⟨_, mem_activate.2 ⟨v', hv', rfl⟩, ?_⟩
      split <;> exact ⟨hkey, hdef⟩
  | list tenant' id email =>
    refine ⟨v, ?_, rfl, rfl⟩
    change v ∈ (r.listWorkflowVersions tenant' id email).2.versions
    unfold listWorkflowVersions
    split
    · exact hv
    · split
      · dsimp only
        split
        · next hrow => exact hadd hrow hv
        · next hrow => exact hadd hrow hv
      · exact hv

end Versions

/-! ## The contract of the requests -/

/-- The invariant: every pin is there in the label of its run, in a version row, and in what was
executed; and what was executed are runs. -/
structure Pinboard.Tidy (s : Pinboard) : Prop where
  pinned : ∀ runId wf?, (runId, wf?) ∈ s.pins → ∃ wf, wf? = some wf ∧
    (runId, wf.tenantId, wf.id, wf.version) ∈ s.world.labels ∧
    s.world.registry.Stores wf.tenantId wf.id wf.version wf.definitionJson ∧
    ∀ d, Event.executing runId d ∈ s.world.trace → d.SameBody wf.definitionJson
  known : ∀ runId d, Event.executing runId d ∈ s.world.trace →
    runId ∈ s.world.runs.rows.map (·.id)

/-- What a call of the request `j` does as the others see it: labels stay, pins are for new runs,
and the others have read what they have read. -/
structure Pinboard.Moves (j : ℕ) (s s' : Pinboard) : Prop where
  labels : s.world.labels ⊆ s'.world.labels
  pins : ∀ pin ∈ s'.pins, pin ∈ s.pins ∨ pin.1 ∉ s.world.runs.rows.map (·.id)
  read : ∀ i, i ≠ j → s'.read i = s.read i

section Calls

variable {s s' : Pinboard} {i : ℕ} {env : Env} {o : Op}

theorem map_id_of_labels {w w' : World} (h : w'.labels = w.labels) :
    w'.runs.rows.map (·.id) = w.runs.rows.map (·.id) := by
  have hfst := congrArg (List.map Prod.fst) h
  rw [World.labels, World.labels, List.map_map, List.map_map] at hfst
  exact hfst

/-- Nothing that matters changes. -/
theorem Pinboard.Tidy.frame (hs : s.Tidy) (hlabels : s'.world.labels = s.world.labels)
    (hstores : ∀ tenant workflowId version d,
      s.world.registry.Stores tenant workflowId version d →
        s'.world.registry.Stores tenant workflowId version d)
    (hexecuted : ∀ runId d, Event.executing runId d ∈ s'.world.trace ↔
      Event.executing runId d ∈ s.world.trace)
    (hpins : s'.pins = s.pins) (hread : ∀ j, j ≠ i → s'.read j = s.read j) :
    s'.Tidy ∧ s.Moves i s' := by
  refine ⟨⟨fun runId wf? hpin => ?_, fun runId d hd => ?_⟩, ⟨?_, fun pin hpin => ?_, hread⟩⟩
  · rw [hpins] at hpin
    obtain ⟨wf, rfl, hlabel, hstored, hbody⟩ := hs.pinned runId wf? hpin
    refine ⟨wf, rfl, ?_, hstores _ _ _ _ hstored, fun d hd => hbody d ((hexecuted _ _).1 hd)⟩
    rwa [hlabels]
  · rw [map_id_of_labels hlabels]
    exact hs.known runId d ((hexecuted _ _).1 hd)
  · rw [hlabels]
    exact List.Subset.refl _
  · rw [hpins] at hpin
    exact Or.inl hpin

theorem read_engine_of_ne {j : ℕ} (hj : j ≠ i) :
    (Pinboard.engine i env o s).2.read j = s.read j :=
  Function.update_of_ne hj _ _

theorem read_engine : (Pinboard.engine i env o s).2.read i =
    (o.workflow? (env.handle o s.world).1).or (s.read i) :=
  Function.update_self ..

theorem Pinboard.Tidy.engine_sameRuns (hs : s.Tidy)
    (hsame : s.world.SameRuns (env.handle o s.world).2)
    (hcreates : o.creates s.world (env.handle o s.world).2 = none) :
    (Pinboard.engine i env o s).2.Tidy ∧ s.Moves i (Pinboard.engine i env o s).2 := by
  refine hs.frame hsame.labels ?_ hsame.executed ?_ fun j hj => read_engine_of_ne hj
  · rintro tenant workflowId version d ⟨v, hv, hd⟩
    refine ⟨v, ?_, hd⟩
    change (env.handle o s.world).2.registry.versions.get? (tenant, workflowId, version) = some v
    rw [hsame.versions]
    exact hv
  · simp [Pinboard.engine, hcreates]

/-- A call that starts no run. -/
theorem Pinboard.Tidy.startsNone (hs : s.Tidy) (i : ℕ) (env : Env) (ho : o.StartsNone) :
    (Pinboard.engine i env o s).2.Tidy ∧ s.Moves i (Pinboard.engine i env o s).2 := by
  refine hs.engine_sameRuns (sameRuns_handle env s.world ho) ?_
  cases o <;> first | exact ho.elim | rfl

theorem Pinboard.Tidy.registry (hs : s.Tidy) (i : ℕ) (env : Env) (c : Command) :
    (Pinboard.handle i env (.registry c) s).2.Tidy ∧
      s.Moves i (Pinboard.handle i env (.registry c) s).2 :=
  hs.frame rfl (fun _ _ _ _ h => h.exec c) (fun _ _ => Iff.rfl) rfl fun _ _ => rfl

/-- A run that exists is executed with the definition of its pin. -/
theorem Pinboard.Tidy.setRunning (hs : s.Tidy) (i : ℕ) (env : Env) {runId : String}
    {d : WorkflowSpec} (hknown : runId ∈ s.world.runs.rows.map (·.id))
    (hd : ∀ wf, (runId, some wf) ∈ s.pins → d.SameBody wf.definitionJson) :
    (Pinboard.engine i env (.setRunning runId d) s).2.Tidy ∧
      s.Moves i (Pinboard.engine i env (.setRunning runId d) s).2 := by
  rcases handle_cases env (.setRunning runId d) s.world with ⟨e, h⟩ | ⟨r, -, h⟩
  · refine hs.engine_sameRuns ?_ rfl
    rw [h]
    exact ⟨rfl, rfl, fun _ _ => Iff.rfl⟩
  · have hworld : (Pinboard.engine i env (.setRunning runId d) s).2.world = _ :=
      congrArg Prod.snd h
    have hpins : (Pinboard.engine i env (.setRunning runId d) s).2.pins = s.pins := by
      simp [Pinboard.engine, Op.creates]
    have hlabels : (Pinboard.engine i env (.setRunning runId d) s).2.world.labels =
        s.world.labels := by
      rw [hworld]
      exact label_rewrite (f := fun r => { r with status := .running }) (fun _ => rfl) _
    have htrace : (Pinboard.engine i env (.setRunning runId d) s).2.world.trace =
        s.world.trace ++ [.executing runId d] := by
      rw [hworld]
      rfl
    refine ⟨⟨fun id wf? hpin => ?_, fun id d' hd' => ?_⟩, ⟨?_, fun pin hpin => ?_,
      fun j hj => read_engine_of_ne hj⟩⟩
    · rw [hpins] at hpin
      obtain ⟨wf, rfl, hlabel, hstored, hbody⟩ := hs.pinned id wf? hpin
      refine ⟨wf, rfl, by rwa [hlabels], ?_, fun d' hd' => ?_⟩
      · rw [hworld]
        exact hstored
      · rw [htrace] at hd'
        rcases List.mem_append.1 hd' with hold | hnew
        · exact hbody d' hold
        · cases List.mem_singleton.1 hnew
          exact hd wf hpin
    · rw [htrace] at hd'
      rw [map_id_of_labels hlabels]
      rcases List.mem_append.1 hd' with hold | hnew
      · exact hs.known id d' hold
      · cases List.mem_singleton.1 hnew
        exact hknown
    · rw [hlabels]
      exact List.Subset.refl _
    · rw [hpins] at hpin
      exact Or.inl hpin

/-- A run is created from a row that was read. -/
theorem Pinboard.Tidy.createRun (hs : s.Tidy) (i : ℕ) (env : Env) {run : RunRecord}
    {wf : WorkflowRecord} (hread : s.read i = some wf)
    (hlabel : run.label = (run.id, wf.tenantId, wf.id, wf.version))
    (hstored : s.world.registry.Stores wf.tenantId wf.id wf.version wf.definitionJson) :
    (Pinboard.engine i env (.createRun run wf.definitionJson) s).2.Tidy ∧
      s.Moves i (Pinboard.engine i env (.createRun run wf.definitionJson) s).2 := by
  have hnone : ∀ w' : World, w'.runs = s.world.runs →
      (Op.createRun run wf.definitionJson).creates s.world w' = none := by
    intro w' hw'
    simp [Op.creates, hw']
  rcases handle_cases env (.createRun run wf.definitionJson) s.world with ⟨e, h⟩ | ⟨r, -, h⟩
  · refine hs.engine_sameRuns ?_ ?_
    · rw [h]
      exact ⟨rfl, rfl, fun _ _ => Iff.rfl⟩
    · rw [h]
      exact hnone _ rfl
  by_cases hid : run.id ∈ s.world.runs.rows.map (·.id)
  · have hinsert : s.world.runs.insert? run = none := dif_pos hid
    simp only [Env.effect, hinsert] at h
    refine hs.engine_sameRuns ?_ ?_
    · rw [h]
      exact ⟨rfl, rfl, fun _ _ => Iff.rfl⟩
    · rw [h]
      exact hnone _ rfl
  · have hinsert : s.world.runs.insert? run = some (s.world.runs.push run hid) := dif_neg hid
    simp only [Env.effect, hinsert] at h
    have hworld : (Pinboard.engine i env (.createRun run wf.definitionJson) s).2.world = _ :=
      congrArg Prod.snd h
    have hlabels : (Pinboard.engine i env (.createRun run wf.definitionJson) s).2.world.labels =
        s.world.labels ++ [run.label] := by
      rw [hworld]
      simp [World.labels, World.log]
    have htrace : (Pinboard.engine i env (.createRun run wf.definitionJson) s).2.world.trace =
        s.world.trace ++ [.executing run.id wf.definitionJson] := by
      rw [hworld]
      rfl
    have hpins : (Pinboard.engine i env (.createRun run wf.definitionJson) s).2.pins =
        s.pins ++ [(run.id, some wf)] := by
      simp only [Pinboard.engine, h, hread]
      simp [Op.creates, hid, World.log]
    have hregistry : (Pinboard.engine i env (.createRun run wf.definitionJson) s).2.world.registry =
        s.world.registry := by
      rw [hworld]
      rfl
    -- no pin, and no execution, is of the new run
    have hfresh : ∀ d, Event.executing run.id d ∉ s.world.trace :=
      fun d hd => hid (hs.known run.id d hd)
    refine ⟨⟨fun id wf? hpin => ?_, fun id d hd => ?_⟩, ⟨?_, fun pin hpin => ?_,
      fun j hj => read_engine_of_ne hj⟩⟩
    · rw [hpins] at hpin
      rw [hlabels, hregistry]
      rcases List.mem_append.1 hpin with hold | hnew
      · obtain ⟨wf₀, rfl, hlabel₀, hstored₀, hbody⟩ := hs.pinned id wf? hold
        refine ⟨wf₀, rfl, List.mem_append_left _ hlabel₀, hstored₀, fun d hd => ?_⟩
        rw [htrace] at hd
        rcases List.mem_append.1 hd with hold' | hnew
        · exact hbody d hold'
        · cases List.mem_singleton.1 hnew
          exact absurd (mem_ids_of_mem_labels hlabel₀) hid
      · obtain ⟨rfl, rfl⟩ := Prod.mk.inj (List.mem_singleton.1 hnew)
        refine ⟨wf, rfl, List.mem_append_right _ (List.mem_singleton.2 hlabel.symm), hstored,
          fun d hd => ?_⟩
        rw [htrace] at hd
        rcases List.mem_append.1 hd with hold | hnew
        · exact absurd hold (hfresh d)
        · cases List.mem_singleton.1 hnew
          rfl
    · rw [htrace] at hd
      have hids : (Pinboard.engine i env (.createRun run wf.definitionJson) s).2.world.runs.rows.map
          (·.id) = s.world.runs.rows.map (·.id) ++ [run.id] := by
        rw [hworld]
        simp [World.log]
      rw [hids]
      rcases List.mem_append.1 hd with hold | hnew
      · exact List.mem_append_left _ (hs.known id d hold)
      · cases List.mem_singleton.1 hnew
        exact List.mem_append_right _ (List.mem_singleton_self _)
    · rw [hlabels]
      exact List.subset_append_left _ _
    · rw [hpins] at hpin
      rcases List.mem_append.1 hpin with hold | hnew
      · exact Or.inl hold
      · obtain rfl := List.mem_singleton.1 hnew
        exact Or.inr hid

end Calls

/-! ## Programs -/

/-- The contract of the requests. -/
def pinContract : Crew.Contract Pinboard := ⟨Pinboard.Tidy, Pinboard.Moves⟩

/-- The program keeps the contract under the condition and ends with `Q`. -/
def Abides (i : ℕ) {α : Type} (p : M α) (Q : Except PyError α → Pinboard → Prop) (s : Pinboard) :
    Prop :=
  pinContract.Upholds Pinboard.engine (fun i env o s => Faithful i env (.engine o) s) i p Q s

/-- A fact that stays while the request `i` reads no other row. -/
def Stays (i : ℕ) (F : Pinboard → Prop) : Prop :=
  ∀ j s s', s.Moves j s' → s'.read i = s.read i → F s → F s'

/-- The calls that start no run and read no workflow row. -/
def Op.Blind : Op → Prop
  | .getWorkflow .. => False
  | .listWorkflows _ => False
  | .getByTriggerPath .. => False
  | .createWorkflow .. => False
  | o => o.StartsNone

theorem Op.Inner.blind {o : Op} (ho : o.Inner) : o.Blind := by
  cases o <;> first | exact ho | trivial

theorem Op.Blind.startsNone {o : Op} (ho : o.Blind) : o.StartsNone := by
  cases o <;> first | exact ho | trivial

section Programs

variable {i : ℕ} {s s' : Pinboard} {F : Pinboard → Prop}

theorem Stays.rely (hF : Stays i F) (h : pinContract.Rely i s s') (hs : F s) : F s' :=
  h.keeps (fun j _ _ hj _ hmoves hs => hF j _ _ hmoves (Pinboard.Moves.read hmoves i hj.symm) hs) hs

theorem Stays.true : Stays i fun _ => True := fun _ _ _ _ _ _ => trivial

theorem Abides.bind {α β : Type} {p : M α} {f : α → M β} {R : Except PyError α → Pinboard → Prop}
    {Q : Except PyError β → Pinboard → Prop} (hp : Abides i p R s)
    (hok : ∀ a s, R (.ok a) s → Abides i (f a) Q s)
    (herr : ∀ e s, R (.error e) s → Q (.error e) s) : Abides i (p >>= f) Q s :=
  Crew.Contract.Upholds.bind hp hok herr

/-- Go on, whatever became of the first part. -/
theorem Abides.then {α β : Type} {p : M α} {f : α → M β} {R : Except PyError α → Pinboard → Prop}
    (hp : Abides i p R s) (hf : ∀ a s, R (.ok a) s → Abides i (f a) (fun _ _ => True) s) :
    Abides i (p >>= f) (fun _ _ => True) s :=
  hp.bind hf fun _ _ _ => trivial

theorem Abides.attempt {α : Type} {p : M α} (hp : Abides i p (fun _ _ => True) s) :
    Abides i p.attempt (fun _ _ => True) s :=
  Crew.Contract.Upholds.attempt hp

/-- A blind call leaves what the request has read. -/
theorem Op.Blind.read {o : Op} (ho : o.Blind) (env : Env) (s : Pinboard) :
    (Pinboard.engine i env o s).2.read i = s.read i := by
  rw [read_engine]
  cases o <;> first | exact ho.elim | rfl

/-- A program of blind calls keeps every fact that stays. -/
theorem abides_blind {α : Type} {p : M α} (hp : p.Uses Op.Blind) (hF : Stays i F) (hs : F s) :
    Abides i p (fun _ s => F s) s := by
  induction p generalizing s with
  | pure a => exact hs
  | throw e => exact hs
  | call o k ih =>
    intro s' hrely hinv env _
    obtain ⟨htidy, hmoves⟩ := Pinboard.Tidy.startsNone hinv i env hp.1.startsNone
    refine ⟨htidy, hmoves, ih _ (hp.2 _) ?_⟩
    exact hF i _ _ hmoves (hp.1.read env s') (hF.rely hrely hs)

theorem abides_op (o : Op) (ho : o.Blind) (hF : Stays i F) (hs : F s) :
    Abides i (perform o) (fun _ s => F s) s :=
  abides_blind (.perform ho) hF hs

/-- A blind call, with what is known of its answer. -/
theorem abides_call (o : Op) (ho : o.Blind) (hF : Stays i F) (hs : F s)
    {Q : Except PyError o.Res → Pinboard → Prop}
    (hQ : ∀ env s, s.Tidy → F s → Q (env.handle o s.world).1 (Pinboard.engine i env o s).2) :
    Abides i (perform o) (fun r s => F s ∧ Q r s) s := by
  refine .perform fun s' hrely hinv env _ => ?_
  obtain ⟨htidy, hmoves⟩ := Pinboard.Tidy.startsNone hinv i env ho.startsNone
  have hs' : F s' := hF.rely hrely hs
  exact ⟨htidy, hmoves, hF i _ _ hmoves (ho.read env s') hs', hQ env s' hinv hs'⟩

/-! ### What a request has read -/

/-- The row that the request has read last is this one, and the tenant's. -/
def Reads (i : ℕ) (tenant : String) (wf : WorkflowRecord) (s : Pinboard) : Prop :=
  s.read i = some wf ∧ wf.tenantId = tenant

theorem stays_reads (tenant : String) (wf : WorkflowRecord) : Stays i (Reads i tenant wf) :=
  fun _ _ _ _ hread hs => ⟨hread.trans hs.1, hs.2⟩

/-- A call that reads a row. -/
theorem abides_read (o : Op) (tenant : String) (ho : o.StartsNone)
    (htenant : ∀ env w wf, o.workflow? (Env.effect env o w).1 = some wf → wf.tenantId = tenant) :
    Abides i (perform o) (fun r s => ∀ wf, o.workflow? r = some wf → Reads i tenant wf s) s := by
  refine .perform fun s' hrely hinv env _ => ?_
  obtain ⟨htidy, hmoves⟩ := Pinboard.Tidy.startsNone hinv i env ho
  refine ⟨htidy, hmoves, fun wf hwf => ⟨?_, ?_⟩⟩
  · have hwf' : o.workflow? (env.handle o s'.world).1 = some wf := hwf
    rw [read_engine, hwf']
    rfl
  · rcases handle_cases env o s'.world with ⟨e, h⟩ | ⟨r, hr | ⟨e, hr⟩, h⟩
    · have hwf' : o.workflow? (env.handle o s'.world).1 = some wf := hwf
      rw [h] at hwf'
      cases o <;> cases hwf'
    · refine htenant env s'.world wf ?_
      have hwf' : o.workflow? (env.handle o s'.world).1 = some wf := hwf
      rw [h, hr] at hwf'
      exact hwf'
    · have hwf' : o.workflow? (env.handle o s'.world).1 = some wf := hwf
      rw [h, hr] at hwf'
      cases o <;> cases hwf'

theorem abides_getWorkflow (tenant workflowId : String) :
    Abides i (perform (.getWorkflow tenant workflowId))
      (fun r s => ∀ wf, r = .ok (some wf) → Reads i tenant wf s) s := by
  refine Crew.Contract.Upholds.mono (abides_read (.getWorkflow tenant workflowId) tenant
    trivial fun env w wf hwf => ?_) fun r s h wf hr => h wf (by rw [hr]; rfl)
  exact (Registry.getById_eq_some.1 hwf).2.2

theorem abides_listWorkflows (tenant : String) :
    Abides i (perform (.listWorkflows tenant))
      (fun r s => ∀ wfs wf, r = .ok wfs → wfs.head? = some wf → Reads i tenant wf s) s := by
  refine Crew.Contract.Upholds.mono (abides_read (.listWorkflows tenant) tenant trivial
    fun env w wf hwf => ?_) fun r s h wfs wf hr hhead => h wf (by rw [hr]; exact hhead)
  have hmem : wf ∈ ((w.registry.workflows.rows.filter (·.tenantId = tenant)).reverse.take 100) :=
    List.mem_of_mem_head? hwf
  have hfilter := List.mem_filter.1 (List.mem_reverse.1 (List.mem_of_mem_take hmem))
  exact of_decide_eq_true hfilter.2

theorem abides_resolveWorkflow (tenant path : String) :
    Abides i (resolveWorkflow tenant path)
      (fun r s => ∀ wf, r = .ok wf → Reads i tenant wf s) s := by
  have hget := abides_read (i := i) (s := s) (.getByTriggerPath tenant path) tenant trivial
    fun env w wf hwf => ?_
  · refine hget.bind (fun wf? s h => ?_) fun e s _ wf hwf => nomatch hwf
    cases wf? with
    | some wf =>
      intro wf' hwf'
      obtain rfl := Except.ok.inj hwf'
      exact h wf rfl
    | none =>
      refine (abides_op .uuid trivial .true trivial).bind (fun uuid s _ => ?_)
        fun e s _ wf hwf => nomatch hwf
      refine Crew.Contract.Upholds.mono (abides_read
        (.createWorkflow tenant (autoWorkflow tenant uuid)) tenant trivial
        fun env w wf hwf => ?_) fun r s h wf hr => h wf (by rw [hr]; rfl)
      rcases Registry.create_cases (r := w.registry) tenant (autoWorkflow tenant uuid) with
        ⟨e, he, -⟩ | ⟨r', hok, -⟩
      · simp only [Env.effect, he] at hwf
        cases hwf
      · simp only [Env.effect, hok] at hwf
        obtain rfl := Option.some.inj hwf
        rfl
  · have hmem := List.mem_of_find?_eq_some hwf
    exact of_decide_eq_true (List.mem_filter.1 hmem).2

/-! ### Executions -/

/-- What the stored runs say about an answer of `get_by_id`. -/
def Found (tenant runId : String) (r : Except PyError (Option (RunRecord × List RunStepRecord)))
    (s : Pinboard) : Prop :=
  (r = .ok none → ∀ l ∈ s.world.labels, l.1 = runId → l.2.1 ≠ tenant) ∧
    ∀ run steps, r = .ok (some (run, steps)) →
      run.label ∈ s.world.labels ∧ run.id = runId ∧ run.tenantId = tenant

theorem found_error {tenant runId : String} (e : PyError) :
    Found tenant runId (.error e) s := by
  constructor
  · intro hr
    cases hr
  · intro run steps hr
    cases hr

theorem abides_getRun (tenant runId : String) (hF : Stays i F) (hs : F s) :
    Abides i (perform (.getRun tenant runId)) (fun r s => F s ∧ Found tenant runId r s) s := by
  refine abides_call (.getRun tenant runId) trivial hF hs fun env s _ _ => ?_
  have hlabels : (Pinboard.engine i env (.getRun tenant runId) s).2.world.labels = s.world.labels :=
    (sameRuns_handle (o := .getRun tenant runId) env s.world trivial).labels
  unfold Found
  rw [hlabels]
  rcases handle_cases env (.getRun tenant runId) s.world with ⟨e, h⟩ | ⟨r, hr | ⟨e, hr⟩, h⟩
  · rw [h]
    exact found_error e
  · rw [h, hr]
    simp only [Env.effect]
    cases hrun : s.world.run? tenant runId with
    | none =>
      refine ⟨fun _ l hl hid htenant => ?_, fun _ _ hr => by cases hr⟩
      obtain ⟨run, hmem, rfl⟩ := List.mem_map.1 hl
      have hsome : s.world.run? tenant runId = some run := by
        rw [World.run?, Option.filter_eq_some_iff, Table.get?_eq_some]
        exact ⟨⟨hmem, hid⟩, decide_eq_true htenant⟩
      rw [hrun] at hsome
      cases hsome
    | some run =>
      refine ⟨fun hr => (by cases hr), fun run' steps hr => ?_⟩
      obtain ⟨rfl, -⟩ := Prod.mk.inj (Option.some.inj (Except.ok.inj hr))
      rw [World.run?, Option.filter_eq_some_iff, Table.get?_eq_some] at hrun
      exact ⟨List.mem_map_of_mem hrun.1.1, hrun.1.2, of_decide_eq_true hrun.2⟩
  · rw [h, hr]
    exact found_error e

theorem abides_resume {ev : Evaluator} {tenant : String} (a : ExecuteArgs) (traceId : String)
    (run : RunRecord) (steps : List RunStepRecord) :
    Abides i (resume ev tenant a traceId run steps) (fun _ _ => True) s :=
  abides_blind ((uses_resume a traceId run steps).mono fun _ h => h.blind) .true trivial

/-- The row that was read is executed in a run that exists. -/
theorem abides_setRunning_read {tenant : String} {wf : WorkflowRecord} (hs : Reads i tenant wf s)
    {run : RunRecord} (hrun : run.label ∈ s.world.labels) :
    Abides i (perform (.setRunning run.id wf.definitionJson)) (fun _ _ => True) s := by
  refine .perform fun s' hrely hinv env hG => ?_
  have hstays : Stays i fun s => Reads i tenant wf s ∧ run.label ∈ s.world.labels :=
    fun j s s' hmoves hread h => ⟨stays_reads tenant wf j s s' hmoves hread h.1, hmoves.labels h.2⟩
  obtain ⟨hreads, hlabel⟩ := hstays.rely hrely ⟨hs, hrun⟩
  have htidy : s'.Tidy := hinv
  have hstep := htidy.setRunning i env (d := wf.definitionJson) (mem_ids_of_mem_labels hlabel)
    fun wf₀ hpin => ?_
  · exact ⟨hstep.1, hstep.2, trivial⟩
  · -- the pinned definition is the one stored for the version that the run records
    obtain ⟨_, hwf₀, hlabel₀, hstored, -⟩ := htidy.pinned _ _ hpin
    obtain rfl := Option.some.inj hwf₀
    obtain ⟨run', hrun', hrunlabel⟩ := List.mem_map.1 hlabel₀
    obtain ⟨hid, htenant, hworkflow, hversion⟩ :
        run'.id = run.id ∧ run'.tenantId = wf₀.tenantId ∧ run'.workflowId = wf₀.id ∧
          run'.workflowVersion = wf₀.version := by
      simpa [RunRecord.label] using hrunlabel
    have hsame := hG wf hreads.1 run' hrun' hid wf₀.definitionJson (by
      rw [htenant, hworkflow, hversion]
      exact hstored)
    rw [← hsame]
    rfl

/-- A run is created from the row that was read. -/
theorem abides_createRun_read {tenant traceId : String} {wf : WorkflowRecord} {a : ExecuteArgs}
    (hworkflowId : a.workflowId = none)
    (hdefinition : a.definition.toWorkflowSpec = wf.definitionJson) (hs : Reads i tenant wf s) :
    Abides i (perform (.createRun (a.newRun tenant traceId) wf.definitionJson))
      (fun _ _ => True) s := by
  refine .perform fun s' hrely hinv env hG => ?_
  obtain ⟨hread, htenant⟩ := (stays_reads tenant wf).rely hrely hs
  obtain ⟨hid, hversion, hstored⟩ := hG wf hread
  have hlabel : (a.newRun tenant traceId).label =
      ((a.newRun tenant traceId).id, wf.tenantId, wf.id, wf.version) := by
    have hwfId : a.wfId = wf.id := by
      rw [ExecuteArgs.wfId, hworkflowId, hdefinition]
      simpa [orElse] using hid
    rw [← hwfId, htenant, ← hversion, ← hdefinition]
    rfl
  have htidy : s'.Tidy := hinv
  have hstep := htidy.createRun i env hread hlabel hstored
  exact ⟨hstep.1, hstep.2, trivial⟩

/-- An execution of the row that was read. -/
theorem abides_execute_read {ev : Evaluator} {tenant : String} {wf : WorkflowRecord}
    {a : ExecuteArgs} (hworkflowId : a.workflowId = none)
    (hdefinition : a.definition.toWorkflowSpec = wf.definitionJson) (hs : Reads i tenant wf s) :
    Abides i (execute ev tenant a) (fun _ _ => True) s := by
  have htraced : ∀ traceId s, Reads i tenant wf s →
      Abides i (executeTraced ev tenant a traceId) (fun _ _ => True) s := by
    intro traceId s hs
    refine (abides_getRun tenant a.runId (stays_reads tenant wf) hs).then fun found s h => ?_
    obtain ⟨hs, -, hfound⟩ := h
    rcases found with _ | ⟨run, steps⟩
    · dsimp only
      rw [hdefinition]
      exact (abides_createRun_read hworkflowId hdefinition hs).then fun _ s _ => abides_resume ..
    · dsimp only
      rw [hdefinition]
      refine (abides_setRunning_read hs (hfound run steps rfl).1).then fun _ s _ => ?_
      exact abides_resume ..
  unfold execute
  split
  · exact htraced _ s hs
  · refine (abides_op .uuid trivial (stays_reads tenant wf) hs).then
      fun traceId s hs => htraced traceId s hs

/-! ### Approvals -/

/-- The run is the tenant's, and the definition is that of its pin, if it has one. -/
def Fits (tenant runId : String) (d : WorkflowSpec) (s : Pinboard) : Prop :=
  (∃ l ∈ s.world.labels, l.1 = runId ∧ l.2.1 = tenant) ∧
    ∀ wf, (runId, some wf) ∈ s.pins → d.SameBody wf.definitionJson

theorem Fits.moves {tenant runId : String} {d : WorkflowSpec} {j : ℕ} (hs : Fits tenant runId d s)
    (hmoves : s.Moves j s') : Fits tenant runId d s' := by
  obtain ⟨⟨l, hl, rfl, htenant⟩, hbody⟩ := hs
  refine ⟨⟨l, hmoves.labels hl, rfl, htenant⟩, fun wf hpin => ?_⟩
  rcases hmoves.pins _ hpin with hold | hnew
  · exact hbody wf hold
  · exact absurd (mem_ids_of_mem_labels hl) hnew

theorem stays_fits (tenant runId : String) (d : WorkflowSpec) : Stays i (Fits tenant runId d) :=
  fun _ _ _ hmoves _ h => h.moves hmoves

theorem stays_label (l : String × String × String × ℤ) : Stays i fun s => l ∈ s.world.labels :=
  fun _ _ _ hmoves _ h => hmoves.labels h

theorem abides_setRunning_fits {tenant runId : String} {d : WorkflowSpec}
    (hs : Fits tenant runId d s) :
    Abides i (perform (.setRunning runId d)) (fun _ _ => True) s := by
  refine .perform fun s' hrely hinv env _ => ?_
  obtain ⟨⟨l, hl, rfl, -⟩, hbody⟩ := (stays_fits tenant runId d).rely hrely hs
  have htidy : s'.Tidy := hinv
  have hstep := htidy.setRunning i env (mem_ids_of_mem_labels hl) hbody
  exact ⟨hstep.1, hstep.2, trivial⟩

/-- An execution of a run that exists. -/
theorem abides_execute_fits {ev : Evaluator} {tenant : String} {a : ExecuteArgs}
    (hs : Fits tenant a.runId a.definition.toWorkflowSpec s) :
    Abides i (execute ev tenant a) (fun _ _ => True) s := by
  have hF := stays_fits (i := i) tenant a.runId a.definition.toWorkflowSpec
  have htraced : ∀ traceId s, Fits tenant a.runId a.definition.toWorkflowSpec s →
      Abides i (executeTraced ev tenant a traceId) (fun _ _ => True) s := by
    intro traceId s hs
    refine (abides_getRun tenant a.runId hF hs).then fun found s h => ?_
    obtain ⟨hs, hnone, hfound⟩ := h
    rcases found with _ | ⟨run, steps⟩
    · obtain ⟨⟨l, hl, hid, htenant⟩, -⟩ := hs
      exact absurd htenant (hnone rfl l hl hid)
    · dsimp only
      obtain ⟨-, hid, -⟩ := hfound run steps rfl
      rw [hid]
      exact (abides_setRunning_fits hs).then fun _ s _ => abides_resume ..
  unfold execute
  split
  · exact htraced _ s hs
  · refine (abides_op .uuid trivial hF hs).then fun traceId s hs => ?_
    exact htraced traceId s hs

theorem abides_parseDefinition {spec : WorkflowSpec} (hs : F s) :
    Abides i (parseDefinition spec)
      (fun r s => F s ∧ ∀ d : WorkflowDefinition, r = .ok d → d.toWorkflowSpec = spec) s := by
  unfold parseDefinition WorkflowDefinition.parse
  split
  · next d hd =>
    split at hd
    · refine Crew.Contract.Upholds.ret ⟨hs, fun d' hd' => ?_⟩
      obtain rfl := Except.ok.inj hd'
      obtain rfl := Except.ok.inj hd
      rfl
    · cases hd
  · exact ⟨hs, nofun⟩

/-- The definition that is looked up for a run is the pinned one. -/
theorem abides_lookupDefinition {run : RunRecord} (hs : run.label ∈ s.world.labels) :
    Abides i (lookupDefinition run.tenantId run.workflowId run.workflowVersion)
      (fun r s => ∀ d : WorkflowDefinition, r = .ok d →
        Fits run.tenantId run.id d.toWorkflowSpec s) s := by
  -- the version row of a pinned run is found, and has the pinned definition
  have hpinned : ∀ s : Pinboard, s.Tidy → run.label ∈ s.world.labels → ∀ wf,
      (run.id, some wf) ∈ s.pins → s.world.registry.Stores run.tenantId run.workflowId
        run.workflowVersion wf.definitionJson := by
    intro s htidy hlabel wf hpin
    obtain ⟨_, hwf, hlabel', hstored, -⟩ := htidy.pinned _ _ hpin
    obtain rfl := Option.some.inj hwf
    obtain ⟨htenant, hworkflow, hversion⟩ : run.tenantId = wf.tenantId ∧
        run.workflowId = wf.id ∧ run.workflowVersion = wf.version := by
      simpa [RunRecord.label] using eq_of_mem_labels hlabel hlabel' rfl
    rwa [htenant, hworkflow, hversion]
  have hversion := abides_call (i := i) (.getByVersion run.tenantId run.workflowId
    run.workflowVersion) trivial (stays_label run.label) hs (Q := fun r s =>
      (r = .ok none → ∀ wf, (run.id, some wf) ∉ s.pins) ∧
        ∀ v, r = .ok (some v) → ∀ wf, (run.id, some wf) ∈ s.pins →
          v.definitionJson = wf.definitionJson) fun env s htidy hlabel => ?_
  · refine hversion.bind (fun v? s h => ?_) fun e s _ d hd => nomatch hd
    obtain ⟨hlabel, hnone, hsome⟩ := h
    have hrun : ∃ l ∈ s.world.labels, l.1 = run.id ∧ l.2.1 = run.tenantId :=
      ⟨run.label, hlabel, rfl, rfl⟩
    cases v? with
    | some v =>
      have hfits : Fits run.tenantId run.id v.definitionJson s :=
        ⟨hrun, fun wf hpin => by rw [hsome v rfl wf hpin]; rfl⟩
      refine Crew.Contract.Upholds.mono (abides_parseDefinition hfits) fun r s h d hd => ?_
      rw [h.2 d hd]
      exact h.1
    | none =>
      have hF : Stays i fun s => ∀ d, Fits run.tenantId run.id d s :=
        fun _ _ _ hmoves _ h d => (h d).moves hmoves
      have hfits : ∀ d, Fits run.tenantId run.id d s :=
        fun d => ⟨hrun, fun wf hpin => absurd hpin (hnone rfl wf)⟩
      have hget : Abides i (perform (.getWorkflow run.tenantId run.workflowId))
          (fun _ s => ∀ d, Fits run.tenantId run.id d s) s := by
        refine .perform fun s' hrely hinv env _ => ?_
        obtain ⟨htidy, hmoves⟩ := Pinboard.Tidy.startsNone hinv i env
          (o := .getWorkflow run.tenantId run.workflowId) trivial
        exact ⟨htidy, hmoves, fun d => (hF.rely hrely hfits d).moves hmoves⟩
      refine hget.bind (fun wf? s h => ?_) fun e s _ d hd => nomatch hd
      cases wf? with
      | some wf =>
        refine Crew.Contract.Upholds.mono (abides_parseDefinition (h wf.definitionJson))
          fun r s h d hd => ?_
        rw [h.2 d hd]
        exact h.1
      | none => exact fun d hd => nomatch hd
  · have hpins : (Pinboard.engine i env (.getByVersion run.tenantId run.workflowId
        run.workflowVersion) s).2.pins = s.pins := by simp [Pinboard.engine, Op.creates]
    rw [hpins]
    rcases handle_cases env (.getByVersion run.tenantId run.workflowId run.workflowVersion)
      s.world with ⟨e, h⟩ | ⟨r, hr | ⟨e, hr⟩, h⟩
    · rw [h]
      exact ⟨fun hr => (by cases hr), fun _ hr => by cases hr⟩
    · rw [h, hr]
      simp only [Env.effect]
      refine ⟨fun hnone wf hpin => ?_, fun v hv wf hpin => ?_⟩
      · obtain ⟨v, hv, -⟩ := hpinned s htidy hlabel wf hpin
        rw [hv] at hnone
        cases hnone
      · exact Registry.Stores.eq ⟨v, Except.ok.inj hv, rfl⟩ (hpinned s htidy hlabel wf hpin)
    · rw [h, hr]
      exact ⟨fun hr => (by cases hr), fun _ hr => by cases hr⟩

/-! ### Requests -/

theorem blind_perform (o : Op) (ho : o.Blind) : (perform o).Uses Op.Blind := .perform ho

theorem blind_traceIdOr (traceId : Option String) : (traceIdOr traceId).Uses Op.Blind := by
  unfold traceIdOr
  split
  · exact .ret _
  · exact blind_perform .uuid trivial

theorem blind_ingressResponse (run : RunRecord) (traceId : String) :
    (ingressResponse run traceId).Uses Op.Blind := by
  unfold ingressResponse
  split
  · exact .ret _
  · exact .ret _
  · exact .raise _

variable {ev : Evaluator} {tenant : String}

theorem abides_ingest (r : WebhookRequest) (traceId : String) :
    Abides i (ingest ev tenant r traceId) (fun _ _ => True) s := by
  have hevent : (eventMessage r.payload).Uses Op.Blind := by
    unfold eventMessage
    split
    · exact .ret _
    · exact .raise _
  refine (abides_blind hevent .true trivial).then fun event s _ => ?_
  refine (abides_op (.publish _ event) trivial .true trivial).then fun _ s _ => ?_
  refine (abides_resolveWorkflow tenant r.cleanPath).then fun wf s h => ?_
  refine (abides_parseDefinition (h wf rfl)).then fun d s h => ?_
  refine (abides_op .uuid trivial (stays_reads tenant wf) h.1).then
    fun uuid s hs => ?_
  refine (abides_execute_read rfl (h.2 d rfl) hs).then fun run s _ => ?_
  exact abides_blind (blind_ingressResponse run traceId) .true trivial

theorem abides_handleWebhookIngress (r : WebhookRequest) :
    Abides i (handleWebhookIngress ev tenant r) (fun _ _ => True) s := by
  refine (abides_blind (blind_traceIdOr r.xTraceId) .true trivial).then fun traceId s _ => ?_
  split
  · exact abides_ingest r traceId
  · next key _ =>
    refine (abides_op (.getByIdempotencyKey tenant key) trivial .true
      trivial).then fun existing s _ => ?_
    cases existing with
    | none => exact abides_ingest r traceId
    | some existing => exact abides_blind (blind_ingressResponse existing _) .true trivial

theorem abides_replayRun (runId : String) :
    Abides i (replayRun ev tenant runId) (fun _ _ => True) s := by
  refine (abides_op (.getRun tenant runId) trivial .true trivial).then
    fun found s _ => ?_
  rcases found with _ | ⟨origRun, steps⟩
  · exact trivial
  refine (abides_getWorkflow tenant origRun.workflowId).then fun wf? s h => ?_
  cases wf? with
  | none => exact trivial
  | some wf =>
    have hreads := stays_reads (i := i) tenant wf
    refine (abides_op .uuid trivial hreads (h wf rfl)).then fun uuid s hs => ?_
    refine (abides_parseDefinition hs).then fun d s h => ?_
    refine (Abides.attempt ?_).then fun reRun s _ => ?_
    · refine (abides_blind (blind_traceIdOr (some origRun.traceId)) hreads h.1).then
        fun traceId s hs => ?_
      exact abides_execute_read rfl (h.2 d rfl) hs
    · cases reRun with
      | error exc => exact trivial
      | ok reRun =>
        exact (abides_op (.recordAudit _ _) trivial .true trivial).then
          fun _ _ _ => trivial

theorem abides_approve (run : RunRecord) (approvalStep : Option RunStepRecord) (a : ApprovalArgs)
    (hs : run.label ∈ s.world.labels) :
    Abides i (approve ev run.tenantId run approvalStep a) (fun _ _ => True) s := by
  have hpass : (passStep run.tenantId approvalStep a).Uses Op.Blind := by
    cases approvalStep with
    | none => exact .ret _
    | some step => exact blind_perform (.approveStep _ _ _) trivial
  refine (abides_blind hpass (stays_label run.label) hs).then fun _ s hs => ?_
  refine (abides_lookupDefinition hs).then fun d s h => ?_
  exact abides_execute_fits (h d rfl)

theorem abides_resumeApproval (runId : String) (a : ApprovalArgs) :
    Abides i (resumeApproval ev tenant runId a) (fun _ _ => True) s := by
  refine (abides_getRun tenant runId .true trivial).then fun found s h => ?_
  rcases found with _ | ⟨run, steps⟩
  · exact trivial
  obtain ⟨hlabel, -, rfl⟩ := h.2.2 run steps rfl
  dsimp only
  split
  · exact trivial
  · split
    · exact abides_approve run _ a hlabel
    · exact abides_blind ((uses_reject run _ a).mono fun _ h => h.1.blind) .true trivial

theorem abides_approveRun (runId : String) (a : ApprovalArgs) :
    Abides i (approveRun ev tenant runId a) (fun _ _ => True) s := by
  have hwaiting : (waitingRun tenant runId).Uses Op.Blind := by
    refine .bind (blind_perform (.getRun tenant runId) trivial) fun found => ?_
    rcases found with _ | ⟨run, steps⟩
    · exact .raise _
    · dsimp only
      split
      · exact .raise _
      · exact .ret _
  refine (abides_blind hwaiting .true trivial).then fun _ s _ => ?_
  refine (abides_resumeApproval runId _).attempt.then fun resumed s _ => ?_
  cases resumed with
  | error exc => exact trivial
  | ok resumedRun =>
    refine (abides_op (.recordAudit _ _) trivial .true trivial).then
      fun _ s _ => ?_
    exact (abides_op (.getRun tenant runId) trivial .true trivial).then
      fun _ _ _ => trivial

/-- The workflow of a dead letter was read last. -/
theorem abides_replayWorkflow (workflowId : String) :
    Abides i (replayWorkflow tenant workflowId)
      (fun r s => ∀ wf, r = .ok (some wf) → Reads i tenant wf s) s := by
  refine (abides_getWorkflow tenant workflowId).bind (fun wf? s h => ?_)
    fun e s _ wf hwf => nomatch hwf
  cases wf? with
  | some wf => exact fun wf' hwf' => h wf' hwf'
  | none =>
    refine (abides_listWorkflows tenant).bind (fun wfs s h => ?_) fun e s _ wf hwf => nomatch hwf
    exact fun wf hwf => h wfs wf rfl (Except.ok.inj hwf)

theorem abides_replayItem (item : DeadLetterRecord) :
    Abides i (replayItem ev tenant item) (fun _ _ => True) s := by
  have hmark : ∀ (response : ReplayResponse) s, Abides i (do
      perform (.markReplayed tenant item.id)
      return response) (fun _ _ => True) s :=
    fun response s => (abides_op (.markReplayed tenant item.id) trivial .true
      trivial).then fun _ _ _ => trivial
  refine (abides_op (.getRun tenant item.runId) trivial .true trivial).then
    fun run? s _ => ?_
  refine (abides_replayWorkflow item.workflowId).then fun wf? s h => ?_
  rcases run? with _ | ⟨run, steps⟩
  · exact hmark _ s
  · cases wf? with
    | none => exact hmark _ s
    | some wf =>
      dsimp only
      refine (abides_parseDefinition (h wf rfl)).then fun d s h => ?_
      refine (abides_execute_read rfl (h.2 d rfl) h.1).then fun reRun s _ => ?_
      split
      · exact hmark _ s
      · exact trivial

theorem abides_replayDeadLetter (fallback : ℕ → Option ReplayResponse) (itemId : ℕ) :
    Abides i (replayDeadLetter ev tenant fallback itemId) (fun _ _ => True) s := by
  refine (abides_op (.getDeadLetter tenant itemId) trivial .true trivial).then
    fun item? s _ => ?_
  cases item? with
  | some item => exact abides_replayItem item
  | none =>
    dsimp only
    split <;> exact trivial

/-- The routers keep the contract. -/
theorem abides_routes (request : PinRequest) :
    Abides i (request.routes ev) (fun _ _ => True) s := by
  cases request with
  | registry c => exact trivial
  | ingress tenant r => exact (abides_handleWebhookIngress r).then fun _ _ _ => trivial
  | replayRun tenant runId => exact (abides_replayRun runId).then fun _ _ _ => trivial
  | approveRun tenant runId a => exact (abides_approveRun runId a).then fun _ _ _ => trivial
  | replayDeadLetter tenant fallback itemId =>
    exact (abides_replayDeadLetter fallback itemId).then fun _ _ _ => trivial

/-- All requests keep the contract. -/
theorem upholds_code (request : PinRequest) :
    pinContract.Upholds Pinboard.handle Faithful i (request.code ev) (fun _ _ => True) s := by
  have hroutes : pinContract.Upholds Pinboard.handle Faithful i
      ((request.routes ev).interpret routerOp) (fun _ _ => True) s := by
    exact Crew.Contract.Upholds.interpret (abides_routes request) fun o s R hR =>
      .perform (o := PinOp.engine o) hR
  cases request with
  | registry c =>
    refine .perform fun s' hrely hinv env _ => ?_
    obtain ⟨htidy, hmoves⟩ := Pinboard.Tidy.registry hinv i env c
    exact ⟨htidy, hmoves, trivial⟩
  | _ => exact hroutes

end Programs

/-! ## Runs are pinned -/

/-- **Every run records the row it was started from and executes only its definition**, in every
interleaving of requests and operations on the version store whose calls meet the condition. -/
theorem pinned (ev : Evaluator) (requests : List PinRequest) (p : PinCrew)
    (hrun : Crew.Runs Pinboard.handle Faithful (pinCrew ev requests) p) : p.state.Pinned := by
  have hstart : (pinCrew ev requests).state.Tidy :=
    ⟨fun runId wf? hpin => absurd hpin List.not_mem_nil,
      fun runId d hd => absurd hd List.not_mem_nil⟩
  have hprogs : ∀ i q, (pinCrew ev requests).progs[i]? = some q →
      pinContract.Upholds Pinboard.handle Faithful i q (fun _ _ => True)
        (pinCrew ev requests).state := by
    intro i q hq
    obtain ⟨request, -, rfl⟩ := List.mem_map.1 (List.mem_of_getElem? hq)
    exact upholds_code request
  have htidy : p.state.Tidy :=
    (pinContract.run (Q := fun _ _ _ => True) (fun _ _ _ _ _ h => h) hstart hprogs hrun).1
  intro runId wf? hpin
  obtain ⟨wf, hwf, hlabel, -, hbody⟩ := htidy.pinned runId wf? hpin
  obtain ⟨run, hmem, hrunlabel⟩ := List.mem_map.1 hlabel
  obtain ⟨hid, -, hworkflow, hversion⟩ : run.id = runId ∧ run.tenantId = wf.tenantId ∧
      run.workflowId = wf.id ∧ run.workflowVersion = wf.version := by
    simpa [RunRecord.label] using hrunlabel
  exact ⟨wf, hwf, ⟨run, hmem, hid, hworkflow, hversion⟩, hbody⟩

/-- A workflow with one approval. -/
def gateSpec (schemaVersion : ℤ) : WorkflowSpec :=
  { id := some "wf_gate", schemaVersion, name := "Gate", trigger := { type := "webhook" }
    nodes := [{ id := "gate", type := "action.approval", name := "Gate" }] }

/-- The workflow is created and deployed, and an event comes in. -/
def gateStarts (schemaVersion : ℤ) : List PinRequest :=
  [.registry (.create "acme" "wf_gate" ⟨gateSpec 1, by decide⟩ "dev@acme"),
    .registry (.deploy "acme" "wf_gate" (gateSpec schemaVersion) "" "dev@acme"),
    .ingress "acme" { webhookPath := "gate", body := some (.obj []), xTraceId := some "trace-1" }]

/-- Then another version is deployed, and the run is approved. -/
def gateResumes : List PinRequest :=
  [.registry (.deploy "acme" "wf_gate" (gateSpec 3) "" "dev@acme"),
    .approveRun "acme" "RUN-2" ⟨true, "ops@acme", none, ""⟩]

/-- These requests in progress. -/
def gateCrew (requests : List PinRequest) : PinCrew :=
  pinCrew (.source ⟨fun _ => true, fun _ => none⟩) requests

/-- The run is created under version 2, version 3 is deployed, and version 2 is executed again. -/
theorem pinned_approved : ∃ p : PinCrew,
    Crew.Runs Pinboard.handle Faithful (gateCrew (gateStarts 2 ++ gateResumes)) p ∧
      p.state.pins.map (·.1) = ["RUN-2"] ∧ p.state.Pinned := by
  have hrun : Crew.Runs Pinboard.handle Faithful (gateCrew (gateStarts 2 ++ gateResumes))
      (Crew.play Pinboard.handle (gateCrew (gateStarts 2 ++ gateResumes))
        (Env.steadily [0, 1, 2, 2, 2, 2, 2, 2, 2, 2, 3, 4, 4, 4, 4, 4, 4])) := by
    refine Crew.runs_play _ ⟨?_, ?_, ?_, ?_, ?_, ?_, ?create, ?_, ?_, ?_, ?_, ?_, ?_, ?_, ?_, ?_,
      ?_, trivial⟩
    case create =>
      rintro o k ⟨⟩ wf hwf
      obtain rfl := Option.some.inj hwf
      exact ⟨rfl, rfl, _, rfl, rfl⟩
    -- the approval reads no workflow row
    all_goals
      rintro o k ⟨⟩
      first | trivial | exact fun wf hwf => nomatch hwf
  exact ⟨_, hrun, rfl, pinned _ _ _ hrun⟩

/-- A run of version 2 records the schema version of its definition, which is 1. -/
theorem not_pinned_deployed :
    ¬ ∀ (ev : Evaluator) (requests : List PinRequest) (p : PinCrew),
      Crew.Runs Pinboard.handle (fun _ _ _ _ => True) (pinCrew ev requests) p → p.state.Pinned := by
  intro hall
  have hrun : Crew.Runs Pinboard.handle (fun _ _ _ _ => True) (gateCrew (gateStarts 1))
      (Crew.play Pinboard.handle (gateCrew (gateStarts 1))
        (Env.steadily [0, 1, 2, 2, 2, 2, 2])) :=
    Crew.runs_play _ (by simp [Env.steadily, Crew.Allows])
  obtain ⟨wf, hwf, ⟨run, hmem, -, -, hversion⟩, -⟩ :=
    hall _ _ _ hrun "RUN-2" _ (List.mem_singleton_self _)
  obtain rfl := Option.some.inj hwf
  obtain rfl := List.mem_singleton.1 hmem
  exact absurd hversion (by decide)

end FlowMesh
