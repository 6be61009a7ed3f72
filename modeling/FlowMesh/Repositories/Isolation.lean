import FlowMesh.Repositories.TenantScoped

/-!
# What the operations of a tenant have to do with another tenant

For two tenants `a` and `b`, `blind_perform_iff` says of every operation exactly when it has
nothing to do with the rows of `b`. Queries and updates carry the filter on the tenant and are
blind on every database. What is left is stated by `RepoCall.Clear`: rows are created under
primary keys and unique values that are global, rows loaded along with others are found by their
foreign key alone, and deletions cascade where foreign keys are enforced.
-/

namespace FlowMesh.Tables

open Python Database Transaction

variable {d : Dialect} {a b : String} {s : Db d}

/-! ## Rows of the tenant -/

/-- The filter on the tenant selects no row of another. -/
theorem is_own_eq_false (hab : a ≠ b) {t : Table} (p : Row t → Bool) {r : Record}
    (hr : r ∈ s.rowsOf b) : Record.is t (fun x => x.owner = a && p x) r = false := by
  rw [Bool.eq_false_iff]
  intro h
  obtain ⟨x, rfl, hx⟩ := Record.is_iff.1 h
  simp only [Bool.and_eq_true, decide_eq_true_eq] at hx
  exact hab (hx.1.symm.trans (Store.mem_rowsOf.1 hr).2)

theorem blind_fetchOwn (hab : a ≠ b) (t : Table) (p : Row t → Bool) (s : Db d) :
    Blind b (fetchOwn a t p) s :=
  blind_map (blind_select_iff.2 fun _ hr => is_own_eq_false hab p hr)

theorem blind_assignOwn (hab : a ≠ b) {t : Table} (p : Row t → Bool) (f : Assignment t)
    (s : Db d) : Blind b (assignOwn a t p f) s :=
  blind_update _ fun _ hr => is_own_eq_false hab p hr

/-- The flush of an object of the tenant. -/
theorem blind_flush (hab : a ≠ b) {t : Table} {entityId : String} (f : Assignment t)
    (h : s.Owns a (t, entityId)) : Blind b (flush t entityId f) s := by
  apply blind_map
  apply blind_update
  intro r hr
  rw [Bool.eq_false_iff]
  intro hp
  obtain ⟨x, rfl, hx⟩ := Record.is_iff.1 hp
  apply h.name_ne hab hr
  simp only [decide_eq_true_eq] at hx
  rw [← hx]
  rfl

theorem blind_scalarOneOrNone {α : Type} (b : String) (l : List α) (s : Db d) :
    Blind b (scalarOneOrNone l : Query d (Option α)) s := by
  rcases l with _ | ⟨x, _ | ⟨y, l⟩⟩
  · exact blind_pure b _ s
  · exact blind_pure b _ s
  · exact blind_raise b _ s

theorem blind_paginate {α : Type} {skip limit : ℤ} {rows : Query d (List α)}
    (h : Blind b rows s) : Blind b (paginate skip limit rows) s := by
  unfold paginate
  split
  · exact blind_raise b _ s
  · exact blind_map h

theorem blind_answer {α : Type} {f : α → Answer} {m : Query d α} (h : Blind b m s) :
    Blind b (answer f m) s := blind_map h

theorem blind_answer_iff {α : Type} {f : α → Answer} (hf : Function.Injective f)
    {m : Query d α} : Blind b (answer f m) s ↔ Blind b m s := blind_map_iff hf

/-! ## What queries give -/

theorem fetch_inv {t : Table} {p : Row t → Bool} {l : List (Row t)} {s' : Db d}
    (h : (fetch t p s).1 = .ok (l, s')) :
    s' = s ∧ ∀ x, x ∈ l ↔ (⟨t, x⟩ : Record) ∈ s.rows ∧ p x = true := by
  obtain ⟨rows, s₁, hselect, hpure⟩ := bind_inv h
  obtain ⟨rfl, rfl⟩ := select_inv hselect
  obtain ⟨rfl, rfl⟩ := pure_inv hpure
  refine ⟨rfl, fun x => ?_⟩
  simp only [List.mem_filterMap, List.mem_filter, Record.as?_eq_some]
  constructor
  · rintro ⟨r, ⟨hr, hp⟩, rfl⟩
    exact ⟨hr, by simpa using hp⟩
  · rintro ⟨hx, hp⟩
    exact ⟨_, ⟨hx, by simpa using hp⟩, rfl⟩

theorem scalarOneOrNone_inv {α : Type} {l : List α} {x? : Option α} {s' : Db d}
    (h : ((scalarOneOrNone l : Query d (Option α)) s).1 = .ok (x?, s')) :
    s' = s ∧ x? = l.head? := by
  rcases l with _ | ⟨x, _ | ⟨y, l⟩⟩ <;> cases h
  · exact ⟨rfl, rfl⟩
  · exact ⟨rfl, rfl⟩

/-- What the tenant gets from a query is the tenant's. -/
theorem fetchOwn_inv {t : Table} {p : Row t → Bool} {l : List (Row t)} {s' : Db d}
    (h : (fetchOwn a t p s).1 = .ok (l, s')) :
    s' = s ∧ ∀ x, x ∈ l ↔ (⟨t, x⟩ : Record) ∈ s.rows ∧ x.owner = a ∧ p x = true := by
  obtain ⟨rfl, hl⟩ := fetch_inv h
  refine ⟨rfl, fun x => ?_⟩
  rw [hl]
  simp

theorem getOne_inv {t : Table} {p : Row t → Bool} {x? : Option (Row t)} {s' : Db d}
    (h : ((fetchOwn a t p >>= scalarOneOrNone) s).1 = .ok (x?, s')) :
    s' = s ∧ ∀ x, x? = some x → s.Owns a (t, x.entityId) := by
  obtain ⟨l, s₁, hfetch, hscalar⟩ := bind_inv h
  obtain ⟨rfl, hl⟩ := fetchOwn_inv hfetch
  obtain ⟨rfl, rfl⟩ := scalarOneOrNone_inv hscalar
  refine ⟨rfl, fun x hx => ?_⟩
  obtain ⟨hmem, howner, -⟩ := (hl x).1 (List.mem_of_mem_head? (by rw [hx]; exact rfl))
  exact ⟨⟨t, x⟩, hmem, howner, rfl⟩

/-! ## The conditions -/

/-- No step of `b` hangs on the run. -/
def NoSteps (b : String) (s : Db d) (runId : String) : Prop :=
  ∀ step, (⟨.runSteps, step⟩ : Record) ∈ s.rowsOf b → step.runId ≠ runId

/-- No version of `b` hangs on the workflow. -/
def NoVersions (b : String) (s : Db d) (workflowId : String) : Prop :=
  ∀ v, (⟨.workflowVersions, v⟩ : Record) ∈ s.rowsOf b → v.workflowId ≠ workflowId

/-- What an operation of `a` needs in order to have nothing to do with the rows of `b`: a row it
creates is stored or refused without regard to them, no row of `b` hangs on one that it loads with
all that hangs on it, and none falls with one that it deletes. -/
def RepoCall.Clear (a b : String) (s : Db d) : RepoCall → Prop
  | .create t entity => Indifferent b ⟨t, entity.setTenantId a⟩ s
  | .recordEvent uuid now actor action resource result metadata =>
    Indifferent b ⟨.auditEvents, AuditRepository.event a uuid now actor action resource result
      metadata⟩ s
  | .deployVersion uuid now workflowId definitionJson changelog deployedBy =>
    ∀ wf s', (WorkflowRepository.prepareVersion a now workflowId definitionJson s).1 =
      .ok (wf, s') → Indifferent b ⟨.workflowVersions, WorkflowRepository.versionRecord a uuid now wf
        workflowId definitionJson changelog deployedBy⟩ s
  | .recordStep step => Indifferent b ⟨.runSteps, { step with tenantId := a }⟩ s
  | .reportCircuitBreakerTripped draw now nowStr connectionId workflowId rootCause severity =>
    (∃ s', (IncidentRepository.getOpenForConnection a connectionId s).1 = .ok (none, s')) →
      Indifferent b ⟨.incidents, IncidentManager.incident a draw now nowStr connectionId workflowId
        rootCause severity⟩ s
  | .createAgent now registeredAt agentId name version enrollmentToken publicKey connectors =>
    Indifferent b ⟨.agents, AgentRepository.agent a now registeredAt agentId name version
      enrollmentToken publicKey connectors⟩ s
  | .createCommand now commandId agentId connector connectionId operation resource limit payload
      signature cmdType =>
    Indifferent b ⟨.agentCommands, AgentCommandRepository.command a now commandId agentId connector
      connectionId operation resource limit payload signature cmdType⟩ s
  | .getRun entityId => ∀ run : RunRecord, (⟨.runs, run⟩ : Record) ∈ s.rows → run.tenantId = a →
    run.id = entityId → NoSteps b s run.id
  | .getByIdempotencyKey idempotencyKey => ∀ run : RunRecord, (⟨.runs, run⟩ : Record) ∈ s.rows →
    run.tenantId = a → run.idempotencyKey = some idempotencyKey → NoSteps b s run.id
  | .listRuns skip limit => ∀ runs s', (RunRepository.listRuns a skip limit s).1 = .ok (runs, s') →
    ∀ run ∈ runs, NoSteps b s run.id
  | .getWithVersions workflowId => ∀ wf : WorkflowRecord, (⟨.workflows, wf⟩ : Record) ∈ s.rows →
    wf.tenantId = a → wf.id = workflowId → NoVersions b s wf.id
  | .delete t entityId => ∀ r ∈ s.rowsOf b, s.falls
    (Record.is t fun r => r.entityId = entityId && r.owner = a) (schema d).depth r = false
  | _ => True

/-! ## Operations that create a row -/

theorem injective_row (t : Table) :
    Function.Injective fun r : Row t => Answer.row (some ⟨t, r⟩) := by
  intro x y h
  cases h
  rfl

/-- An operation that inserts one row and returns it. -/
theorem blind_answerRow_insert_iff {t : Table} {x : Row t} (hx : x.owner ≠ b) :
    Blind b (answerRow t (do insert ⟨t, x⟩; return x)) s ↔ Indifferent b ⟨t, x⟩ s :=
  calc Blind b (answerRow t (do insert ⟨t, x⟩; return x)) s
    _ ↔ Blind b (do insert ⟨t, x⟩; return x : Query d (Row t)) s := blind_map_iff (injective_row t)
    _ ↔ Blind b (insert ⟨t, x⟩ : Query d Unit) s := blind_map_iff fun _ _ _ => rfl
    _ ↔ Indifferent b ⟨t, x⟩ s := blind_insert_iff hx

theorem blind_create_iff (hab : a ≠ b) {t : Table} (entity : Row t) :
    Blind b (answerRow t (TenantScopedRepository.create a t entity)) s ↔
      Indifferent b ⟨t, entity.setTenantId a⟩ s := by
  apply blind_answerRow_insert_iff
  rw [Row.owner_setTenantId]
  exact hab

/-! ## Operations that load what hangs on a row -/

/-- Rows that are found by their foreign key alone. -/
theorem blind_fetch_bind_iff {β : Type} {t : Table} {p : Row t → Bool}
    (f : List (Row t) → Query d β) : Blind b (fetch t p >>= f) s ↔
      (∀ x, (⟨t, x⟩ : Record) ∈ s.rowsOf b → p x = false) ∧
        Blind b (f ((s.rows.filter (Record.is t p)).filterMap (Record.as? t))) s := by
  rw [fetch, map_bind, blind_select_bind_iff]
  apply and_congr_left'
  constructor
  · intro h x hx
    simpa using h _ hx
  · intro h r hr
    rw [Bool.eq_false_iff]
    intro hp
    obtain ⟨x, rfl, hx⟩ := Record.is_iff.1 hp
    rw [h x hr] at hx
    cases hx

theorem blind_loadSteps_bind_iff {β : Type} (runs : List RunRecord)
    {f : List RunStepRecord → Query d β} (hf : ∀ steps, Blind b (f steps) s) :
    Blind b (RunRepository.loadSteps runs >>= f) s ↔ ∀ run ∈ runs, NoSteps b s run.id := by
  rw [RunRepository.loadSteps, blind_fetch_bind_iff]
  simp only [hf, and_true, List.any_eq_false, decide_eq_true_eq, NoSteps]
  exact ⟨fun h run hrun step hstep => h step hstep run hrun,
    fun h step hstep run hrun => h run hrun step hstep⟩

theorem blind_loadVersions_bind_iff {β : Type} (wfs : List WorkflowRecord)
    {f : List WorkflowVersionRecord → Query d β} (hf : ∀ versions, Blind b (f versions) s) :
    Blind b (WorkflowRepository.loadVersions wfs >>= f) s ↔ ∀ wf ∈ wfs, NoVersions b s wf.id := by
  rw [WorkflowRepository.loadVersions, blind_fetch_bind_iff]
  simp only [hf, and_true, List.any_eq_false, decide_eq_true_eq, NoVersions]
  exact ⟨fun h wf hwf v hv => h v hv wf hwf, fun h v hv wf hwf => h wf hwf v hv⟩

theorem injective_asLoaded (t t' : Table) : Function.Injective (asLoaded t t') := by
  rintro ⟨x, l⟩ ⟨y, m⟩ h
  simp only [asLoaded, Prod.mk.injEq, Sigma.mk.injEq, heq_eq_eq, true_and] at h
  have hmk : Function.Injective (Sigma.mk t' : Row t' → Record) := by
    intro u v huv
    cases huv
    rfl
  rw [h.1, List.map_injective_iff.2 hmk h.2]

theorem injective_loaded (t t' : Table) :
    Function.Injective fun r : Option (Row t × List (Row t')) =>
      Answer.loaded (r.map (asLoaded t t')) := by
  intro x y h
  exact Option.map_injective (injective_asLoaded t t') (Answer.loaded.inj h)

theorem injective_allLoaded (t t' : Table) :
    Function.Injective fun l : List (Row t × List (Row t')) =>
      Answer.allLoaded (l.map (asLoaded t t')) := by
  intro x y h
  exact List.map_injective_iff.2 (injective_asLoaded t t') (Answer.allLoaded.inj h)

/-- A query of the tenant, followed by work that is blind under a condition on each row found. -/
theorem blind_fetchOwn_bind_iff {β : Type} (hab : a ≠ b) (t : Table) {p : Row t → Bool}
    {f : List (Row t) → Query d β} {P : Row t → Prop}
    (hf : ∀ l, Blind b (f l) s ↔ ∀ x ∈ l, P x) :
    Blind b (fetchOwn a t p >>= f) s ↔
      ∀ x, (⟨t, x⟩ : Record) ∈ s.rows → x.owner = a → p x = true → P x := by
  rw [blind_bind_iff (blind_fetchOwn hab t p s)]
  constructor
  · intro h x hx howner hp
    rcases hfetch : fetchOwn a t p s with ⟨_ | ⟨l, s'⟩, log⟩
    · cases hfetch
    · obtain ⟨rfl, hl⟩ := fetchOwn_inv (congrArg Prod.fst hfetch)
      exact (hf l).1 (h l s' (congrArg Prod.fst hfetch)) x ((hl x).2 ⟨hx, howner, hp⟩)
  · intro h l s' hfetch
    obtain ⟨rfl, hl⟩ := fetchOwn_inv hfetch
    apply (hf l).2
    intro x hx
    obtain ⟨hmem, howner, hp⟩ := (hl x).1 hx
    exact h x hmem howner hp

theorem blind_getStepsForRun (hab : a ≠ b) (runId : String) (s : Db d) :
    Blind b (RunRepository.getStepsForRun a runId) s :=
  blind_map (blind_fetchOwn hab _ _ s)

theorem blind_getRun_iff (hab : a ≠ b) (entityId : String) :
    Blind b (answer (fun r => .loaded (r.map (asLoaded .runs .runSteps)))
      (RunRepository.getById a entityId)) s ↔ (RepoCall.getRun entityId).Clear a b s := by
  have hrest : ∀ (runs : List RunRecord) (_ : List RunStepRecord), Blind b (do
      match ← (scalarOneOrNone runs : Query d _) with
      | none => return none
      | some run => return some (run, ← RunRepository.getStepsForRun a entityId)) s := by
    intro runs _
    apply blind_bind (blind_scalarOneOrNone b runs s)
    intro run? s' _
    cases run? with
    | none => exact blind_pure b _ s'
    | some run => exact blind_map (blind_getStepsForRun hab entityId s')
  have hload := fun runs => blind_loadSteps_bind_iff runs (hrest runs)
  apply (blind_answer_iff (injective_loaded .runs .runSteps)).trans
  apply (blind_fetchOwn_bind_iff hab .runs hload).trans
  simp only [decide_eq_true_eq]
  exact Iff.rfl

theorem blind_getByIdempotencyKey_iff (hab : a ≠ b) (idempotencyKey : String) :
    Blind b (answer (fun r => .loaded (r.map (asLoaded .runs .runSteps)))
      (RunRepository.getByIdempotencyKey a idempotencyKey)) s ↔
        (RepoCall.getByIdempotencyKey idempotencyKey).Clear a b s := by
  have hload := fun runs => blind_loadSteps_bind_iff runs fun steps =>
    blind_scalarOneOrNone b (runs.map (RunRepository.withSteps steps)) s
  apply (blind_answer_iff (injective_loaded .runs .runSteps)).trans
  apply (blind_fetchOwn_bind_iff hab .runs hload).trans
  simp only [decide_eq_true_eq]
  exact Iff.rfl

theorem listRuns_inv {skip limit : ℤ} {runs : List RunRecord} {s' : Db d}
    (h : (RunRepository.listRuns a skip limit s).1 = .ok (runs, s')) : s' = s := by
  unfold RunRepository.listRuns paginate at h
  split at h
  · cases h
  · obtain ⟨page, s₁, hpage, hpure⟩ := bind_inv h
    obtain ⟨-, rfl⟩ := pure_inv hpure
    obtain ⟨rows, s₂, hrows, hpure⟩ := bind_inv hpage
    obtain ⟨-, rfl⟩ := pure_inv hpure
    exact (fetchOwn_inv hrows).1

theorem blind_listRuns_iff (hab : a ≠ b) (skip limit : ℤ) :
    Blind b (answer (fun rs => .allLoaded (rs.map (asLoaded .runs .runSteps)))
      (RunRepository.listAll a skip limit)) s ↔ (RepoCall.listRuns skip limit).Clear a b s := by
  have hpage : Blind b (RunRepository.listRuns a skip limit) s :=
    blind_paginate (blind_map (blind_fetchOwn hab _ _ s))
  have hload : ∀ runs : List RunRecord, Blind b (do
      let steps ← RunRepository.loadSteps runs
      return runs.map (RunRepository.withSteps steps)) s ↔ ∀ run ∈ runs, NoSteps b s run.id :=
    fun runs => blind_loadSteps_bind_iff runs fun _ => blind_pure b _ s
  apply (blind_answer_iff (injective_allLoaded .runs .runSteps)).trans
  rw [RunRepository.listAll, blind_bind_iff hpage]
  constructor
  · intro h runs s' hruns
    obtain rfl := listRuns_inv hruns
    exact (hload runs).1 (h runs s' hruns)
  · intro h runs s' hruns
    obtain rfl := listRuns_inv hruns
    exact (hload runs).2 (h runs s' hruns)

theorem blind_getWithVersions_iff (hab : a ≠ b) (workflowId : String) :
    Blind b (answer (fun r => .loaded (r.map (asLoaded .workflows .workflowVersions)))
      (WorkflowRepository.getWithVersions a workflowId)) s ↔
        (RepoCall.getWithVersions workflowId).Clear a b s := by
  have hload := fun wfs => blind_loadVersions_bind_iff wfs fun versions =>
    blind_scalarOneOrNone b (wfs.map (WorkflowRepository.withVersions versions)) s
  apply (blind_answer_iff (injective_loaded .workflows .workflowVersions)).trans
  apply (blind_fetchOwn_bind_iff hab .workflows hload).trans
  simp only [decide_eq_true_eq]
  exact Iff.rfl

/-! ## Operations on workflows -/

theorem blind_getOne (hab : a ≠ b) (t : Table) (p : Row t → Bool) (s : Db d) :
    Blind b (fetchOwn a t p >>= scalarOneOrNone) s :=
  blind_bind (blind_fetchOwn hab t p s) fun l s' _ => blind_scalarOneOrNone b l s'

theorem blind_require (hab : a ≠ b) (workflowId : String) (s : Db d) :
    Blind b (WorkflowRepository.require a workflowId) s := by
  apply blind_bind (blind_getOne hab .workflows _ s)
  intro wf? s' _
  cases wf? with
  | none => exact blind_raise b _ s'
  | some wf => exact blind_pure b _ s'

theorem require_inv {workflowId : String} {wf : WorkflowRecord} {s' : Db d}
    (h : (WorkflowRepository.require a workflowId s).1 = .ok (wf, s')) :
    s' = s ∧ s.Owns a (Table.workflows, wf.id) := by
  obtain ⟨wf?, s₁, hget, hmatch⟩ := bind_inv h
  obtain ⟨rfl, hown⟩ := getOne_inv (t := .workflows) hget
  cases wf? with
  | none => cases hmatch
  | some w =>
    obtain ⟨rfl, rfl⟩ := pure_inv hmatch
    exact ⟨rfl, hown wf rfl⟩

theorem assign_inv {t : Table} {p : Row t → Bool} {f : Assignment t} {n : ℕ} {s' : Db d}
    (h : (assign t p f s).1 = .ok (n, s')) : s' = s.update (Record.is t p) f.rewrite :=
  update_inv h

theorem blind_prepareVersion (hab : a ≠ b) (now : ℤ) (workflowId : String)
    (definitionJson : Json) (s : Db d) :
    Blind b (WorkflowRepository.prepareVersion a now workflowId definitionJson) s := by
  apply blind_bind (blind_require hab workflowId s)
  intro wf s₁ hwf
  obtain ⟨rfl, hown⟩ := require_inv hwf
  apply blind_bind (blind_assignOwn hab _ _ s₁)
  intro n s₂ hn
  obtain rfl := assign_inv hn
  exact blind_map (blind_flush hab _ (hown.update _ _))

theorem keys_rewrite {t : Table} {f : Assignment t} (hf : ∀ x, (f.apply x).keys = x.keys)
    (r : Record) : (schema d).keys ((f.rewrite (d := d)).apply r) = (schema d).keys r := by
  obtain ⟨t', x⟩ := r
  by_cases h : t' = t
  · subst h
    simpa [Assignment.rewrite, schema] using hf x
  · simp [Assignment.rewrite, h]

/-- The preparation of a version changes nothing that a new row could clash with. -/
theorem indifferent_prepareVersion_iff {now : ℤ} {workflowId : String} {definitionJson : Json}
    {wf : WorkflowRecord} {s' : Db d} {r : Record}
    (h : (WorkflowRepository.prepareVersion a now workflowId definitionJson s).1 =
      .ok (wf, s')) : Indifferent b r s' ↔ Indifferent b r s := by
  obtain ⟨wf₁, s₁, hwf, h₁⟩ := bind_inv h
  obtain ⟨rfl, -⟩ := require_inv hwf
  obtain ⟨n₂, s₂, hn₂, h₂⟩ := bind_inv h₁
  obtain rfl := assign_inv hn₂
  obtain ⟨_, s₃, hflush, h₃⟩ := bind_inv h₂
  obtain ⟨-, rfl⟩ := pure_inv h₃
  obtain ⟨n₄, s₄, hn₄, h₄⟩ := bind_inv hflush
  obtain ⟨-, rfl⟩ := pure_inv h₄
  obtain rfl := assign_inv hn₄
  rw [indifferent_update_iff _ (keys_rewrite fun _ => rfl),
    indifferent_update_iff _ (keys_rewrite fun _ => rfl)]

theorem blind_deployVersion_iff (hab : a ≠ b) (uuid : String) (now : ℤ) (workflowId : String)
    (definitionJson : Json) (changelog deployedBy : String) :
    Blind b (answerRow .workflowVersions (WorkflowRepository.deployVersion a uuid now workflowId
      definitionJson changelog deployedBy)) s ↔ (RepoCall.deployVersion uuid now workflowId
        definitionJson changelog deployedBy).Clear a b s := by
  have hinsert : ∀ (v : WorkflowVersionRecord) (s' : Db d), v.tenantId = a →
      (Blind b (do insert ⟨.workflowVersions, v⟩; return v : Query d WorkflowVersionRecord) s' ↔
        Indifferent b ⟨.workflowVersions, v⟩ s') := by
    rintro v s' rfl
    exact (blind_map_iff fun _ _ _ => rfl).trans (blind_insert_iff hab)
  apply (blind_answer_iff (injective_row .workflowVersions)).trans
  rw [WorkflowRepository.deployVersion, blind_bind_iff (blind_prepareVersion hab _ _ _ s)]
  constructor
  · intro h wf s' hprepare
    rw [← indifferent_prepareVersion_iff hprepare]
    exact (hinsert _ s' rfl).1 (h wf s' hprepare)
  · intro h wf s' hprepare
    apply (hinsert _ s' rfl).2
    rw [indifferent_prepareVersion_iff hprepare]
    exact h wf s' hprepare

theorem blind_rollbackToVersion (hab : a ≠ b) (now : ℤ) (workflowId : String)
    (targetVersion : ℤ) (s : Db d) :
    Blind b (WorkflowRepository.rollbackToVersion a now workflowId targetVersion) s := by
  apply blind_bind (blind_require hab workflowId s)
  intro wf s₁ hwf
  obtain ⟨rfl, hown⟩ := require_inv hwf
  apply blind_bind (blind_getOne hab .workflowVersions _ s₁)
  intro target? s₂ htarget
  obtain ⟨rfl, hownTarget⟩ := getOne_inv (t := .workflowVersions) htarget
  cases target? with
  | none => exact blind_raise b _ s₂
  | some targetVer =>
    apply blind_bind (blind_assignOwn hab _ _ s₂)
    intro n s₃ hn
    obtain rfl := assign_inv hn
    apply blind_bind (blind_flush hab _ (hown.update _ _))
    intro _ s₄ hflush
    obtain ⟨n', s₅, hn', hpure⟩ := bind_inv hflush
    obtain ⟨-, rfl⟩ := pure_inv hpure
    obtain rfl := assign_inv hn'
    exact blind_map (blind_flush hab _ (((hownTarget targetVer rfl).update _ _).update _ _))

/-! ## Operations on incidents, agents and commands -/

theorem blind_addTimelineEvent (hab : a ≠ b) (nowStr incidentId message : String) (s : Db d) :
    Blind b (IncidentRepository.addTimelineEvent a nowStr incidentId message) s := by
  apply blind_bind (blind_getOne hab .incidents _ s)
  intro incident? s' _
  cases incident? with
  | none => exact blind_pure b _ s'
  | some incident => exact blind_map (blind_assignOwn hab _ _ s')

theorem blind_getOpenForConnection (hab : a ≠ b) (connectionId : String) (s : Db d) :
    Blind b (IncidentRepository.getOpenForConnection a connectionId) s :=
  blind_bind (blind_fetchOwn hab .incidents _ s) fun _ s' _ => blind_scalarOneOrNone b _ s'

theorem mem_orderBy {α : Type} {before : α → α → Bool} {l : List α} {x : α} :
    x ∈ orderBy before l ↔ x ∈ l :=
  (List.perm_insertionSort _ l).mem_iff

theorem getOpenForConnection_inv {connectionId : String} {incident? : Option IncidentRecord}
    {s' : Db d} (h : (IncidentRepository.getOpenForConnection a connectionId s).1 =
      .ok (incident?, s')) :
    s' = s ∧ ∀ x, incident? = some x → s.Owns a (Table.incidents, x.id) := by
  obtain ⟨l, s₁, hfetch, hscalar⟩ := bind_inv h
  obtain ⟨rfl, hl⟩ := fetchOwn_inv (t := .incidents) hfetch
  obtain ⟨rfl, rfl⟩ := scalarOneOrNone_inv hscalar
  refine ⟨rfl, fun x hx => ?_⟩
  have hmem : x ∈ IncidentRepository.orderIncidents l :=
    List.mem_of_mem_take (List.mem_of_mem_head? (by rw [hx]; exact rfl))
  obtain ⟨hrow, howner, -⟩ := (hl x).1 (mem_orderBy.1 hmem)
  exact ⟨⟨.incidents, x⟩, hrow, howner, rfl⟩

theorem owns_addTimelineEvent {nowStr incidentId message : String} {u : Unit} {s' : Db d}
    {n : Table × String} (hown : s.Owns a n)
    (h : (IncidentRepository.addTimelineEvent a nowStr incidentId message s).1 = .ok (u, s')) :
    s'.Owns a n := by
  obtain ⟨incident?, s₁, hget, hmatch⟩ := bind_inv h
  obtain ⟨rfl, -⟩ := getOne_inv (t := .incidents) hget
  cases incident? with
  | none =>
    obtain ⟨-, rfl⟩ := pure_inv hmatch
    exact hown
  | some incident =>
    obtain ⟨k, s₂, hassign, hpure⟩ := bind_inv hmatch
    obtain ⟨-, rfl⟩ := pure_inv hpure
    obtain rfl := assign_inv hassign
    exact hown.update _ _

theorem blind_reportCircuitBreakerTripped_iff (hab : a ≠ b) (draw : Fin 9000) (now : ℤ)
    (nowStr connectionId workflowId rootCause severity : String) :
    Blind b (answerRow .incidents (IncidentManager.reportCircuitBreakerTripped a draw now nowStr
      connectionId workflowId rootCause severity)) s ↔ (RepoCall.reportCircuitBreakerTripped draw
        now nowStr connectionId workflowId rootCause severity).Clear a b s := by
  apply (blind_answer_iff (injective_row .incidents)).trans
  rw [IncidentManager.reportCircuitBreakerTripped,
    blind_bind_iff (blind_getOpenForConnection hab connectionId s)]
  have hcreate := (blind_answer_iff (injective_row .incidents)).symm.trans
    (blind_create_iff (s := s) hab (t := .incidents)
      (IncidentManager.incident a draw now nowStr connectionId workflowId rootCause severity))
  constructor
  · rintro h ⟨s', hget⟩
    obtain ⟨rfl, -⟩ := getOpenForConnection_inv hget
    exact hcreate.1 (h none s' hget)
  · intro h existing? s' hget
    obtain ⟨rfl, hown⟩ := getOpenForConnection_inv hget
    cases existing? with
    | none => exact hcreate.2 (h ⟨s', hget⟩)
    | some existing =>
      apply blind_bind (blind_addTimelineEvent hab _ _ _ s')
      intro _ s₂ hadd
      exact blind_map (blind_flush hab _ (owns_addTimelineEvent (hown existing rfl) hadd))

/-- An object of the tenant that is fetched and flushed. -/
theorem blind_fetch_flush {β : Type} (hab : a ≠ b) (t : Table) {p : Row t → Bool}
    (f : Assignment t) {k : Option (Row t) → Query d β} (hnone : ∃ y, k none = pure y)
    (hsome : ∀ x, ∃ y, k (some x) = do flush t x.entityId f; return y) (s : Db d) :
    Blind b (fetchOwn a t p >>= scalarOneOrNone >>= k) s := by
  apply blind_bind (blind_getOne hab t p s)
  intro x? s' hx
  obtain ⟨rfl, hown⟩ := getOne_inv hx
  cases x? with
  | none =>
    obtain ⟨y, hy⟩ := hnone
    rw [hy]
    exact blind_pure b y s'
  | some x =>
    obtain ⟨y, hy⟩ := hsome x
    rw [hy]
    exact blind_map (blind_flush hab f (hown x rfl))

theorem blind_enrollAgent (hab : a ≠ b) (now : ℤ) (token name version : String)
    (publicKey : Option String) (s : Db d) :
    Blind b (AgentRepository.enrollAgent a now token name version publicKey) s := by
  apply blind_fetch_flush hab .agents (AgentRepository.enroll now name version publicKey)
  · exact ⟨none, rfl⟩
  · intro agent
    exact ⟨_, rfl⟩

theorem blind_updateHeartbeat (hab : a ≠ b) (now : ℤ) (agentId : String)
    (cpuPercent memoryPercent : PyFloat) (queueDepth : ℤ) (connectors : Option (List Json))
    (s : Db d) : Blind b (AgentRepository.updateHeartbeat a now agentId cpuPercent memoryPercent
      queueDepth connectors) s := by
  apply blind_fetch_flush hab .agents
    (AgentRepository.beat now cpuPercent memoryPercent queueDepth connectors)
  · exact ⟨none, rfl⟩
  · intro agent
    exact ⟨_, rfl⟩

theorem blind_recordResult (hab : a ≠ b) (now : ℤ) (commandId status : String)
    (result : Option Json) (error : Option String) (s : Db d) :
    Blind b (AgentCommandRepository.recordResult a now commandId status result error) s := by
  apply blind_fetch_flush hab .agentCommands
    (AgentCommandRepository.complete now status result error)
  · exact ⟨none, rfl⟩
  · intro cmd
    exact ⟨_, rfl⟩

/-! ## Deletions -/

theorem blind_delete_call_iff (t : Table) (entityId : String) :
    Blind b (answer .flag (TenantScopedRepository.delete a t entityId)) s ↔
      (RepoCall.delete t entityId).Clear a b s := by
  have hflag : Function.Injective Answer.flag := fun _ _ h => Answer.flag.inj h
  exact (blind_answer_iff hflag).trans blind_delete_iff

/-- No foreign key names a row of this table. -/
theorem falls_connectionSecrets {p : ConnectionSecret → Bool} (n : ℕ) (r : Record) :
    s.falls (Record.is .connectionSecrets p) n r = Record.is .connectionSecrets p r := by
  induction n generalizing r with
  | zero => rfl
  | succ n ih =>
    rw [Store.falls_succ, ih, Bool.or_eq_left_iff_imp]
    intro hany
    obtain ⟨q, -, hq⟩ := List.any_eq_true.1 hany
    simp only [ih, Bool.and_eq_true, decide_eq_true_eq] at hq
    obtain ⟨hq, hname⟩ := hq
    obtain ⟨x, rfl, -⟩ := Record.is_iff.1 hq
    obtain ⟨t, y⟩ := r
    simp only [schema] at hname
    split at hname
    · cases t <;> simp [Row.refs] at hname
    · cases hname

theorem blind_purgePreviousVersions (hab : a ≠ b) (connectionId : String) (keepVersion : ℤ)
    (s : Db d) : Blind b (answer .number
      (ConnectionSecretRepository.purgePreviousVersions a connectionId keepVersion)) s := by
  apply blind_delete_iff.2
  intro r hr
  rw [falls_connectionSecrets, Bool.eq_false_iff]
  intro hp
  obtain ⟨x, rfl, hx⟩ := Record.is_iff.1 hp
  simp only [Bool.and_eq_true, decide_eq_true_eq] at hx
  exact hab (hx.1.1.symm.trans (Store.mem_rowsOf.1 hr).2)

/-! ## All operations -/

/-- Every operation has nothing to do with another tenant exactly if it is clear of its rows. -/
theorem blind_body_iff (hab : a ≠ b) (c : RepoCall) (s : Db d) :
    Blind b (c.body a) s ↔ c.Clear a b s := by
  cases c with
  | create t entity => exact blind_create_iff hab entity
  | delete t entityId => exact blind_delete_call_iff t entityId
  | recordEvent uuid now actor action resource result metadata =>
    exact blind_answerRow_insert_iff (t := .auditEvents) hab
  | deployVersion uuid now workflowId definitionJson changelog deployedBy =>
    exact blind_deployVersion_iff hab _ _ _ _ _ _
  | getRun entityId => exact blind_getRun_iff hab entityId
  | getByIdempotencyKey idempotencyKey => exact blind_getByIdempotencyKey_iff hab idempotencyKey
  | listRuns skip limit => exact blind_listRuns_iff hab skip limit
  | getWithVersions workflowId => exact blind_getWithVersions_iff hab workflowId
  | recordStep step => exact blind_create_iff hab (t := .runSteps) step
  | reportCircuitBreakerTripped draw now nowStr connectionId workflowId rootCause severity =>
    exact blind_reportCircuitBreakerTripped_iff hab _ _ _ _ _ _ _
  | createAgent now registeredAt agentId name version enrollmentToken publicKey connectors =>
    exact blind_answerRow_insert_iff (t := .agents) hab
  | createCommand now commandId agentId connector connectionId operation resource limit payload
      signature cmdType =>
    exact blind_answerRow_insert_iff (t := .agentCommands) hab
  | getById t entityId => exact iff_of_true (blind_answer (blind_getOne hab t _ s)) trivial
  | listAll t skip limit =>
    exact iff_of_true (blind_answer (blind_paginate (blind_map (blind_fetchOwn hab t _ s)))) trivial
  | count t => exact iff_of_true (blind_answer (blind_map (blind_fetchOwn hab t _ s))) trivial
  | getByType connType =>
    exact iff_of_true (blind_answer (blind_fetchOwn hab .connections _ s)) trivial
  | getLatestForConnection connectionId =>
    exact iff_of_true (blind_answer (blind_bind (blind_fetchOwn hab .connectionSecrets _ s)
      fun _ s' _ => blind_scalarOneOrNone b _ s')) trivial
  | getSecretByVersion connectionId version =>
    exact iff_of_true (blind_answer (blind_getOne hab .connectionSecrets _ s)) trivial
  | purgePreviousVersions connectionId keepVersion =>
    exact iff_of_true (blind_purgePreviousVersions hab connectionId keepVersion s) trivial
  | listForWorkflow workflowId =>
    exact iff_of_true (blind_answer (blind_map (blind_fetchOwn hab .workflowVersions _ s))) trivial
  | getByVersion workflowId version =>
    exact iff_of_true (blind_answer (blind_getOne hab .workflowVersions _ s)) trivial
  | getActiveVersion workflowId =>
    exact iff_of_true (blind_answer (blind_getOne hab .workflowVersions _ s)) trivial
  | getByTriggerPath path =>
    refine iff_of_true (blind_answer (blind_bind (blind_fetchOwn hab .workflows _ s)
      fun wfs s' _ => ?_)) trivial
    cases WorkflowRepository.firstListening path wfs with
    | ok wf => exact blind_pure b _ s'
    | error e => exact blind_raise b _ s'
  | rollbackToVersion now workflowId targetVersion =>
    exact iff_of_true (blind_answer (blind_rollbackToVersion hab _ _ _ s)) trivial
  | getStepsForRun runId =>
    exact iff_of_true (blind_answer (blind_getStepsForRun hab runId s)) trivial
  | updateStep now stepId status durationMs outputSnapshot error =>
    exact iff_of_true (blind_answer (blind_map (blind_assignOwn hab _ _ s))) trivial
  | updateRunStatus now runId status durationSeconds outputPayload error =>
    exact iff_of_true (blind_answer (blind_map (blind_assignOwn hab _ _ s))) trivial
  | listPending limit =>
    exact iff_of_true
      (blind_answer (blind_paginate (blind_map (blind_fetchOwn hab .deadLetters _ s)))) trivial
  | markReplayed now dlqId =>
    exact iff_of_true (blind_answer (blind_map (blind_assignOwn hab _ _ s))) trivial
  | markDiscarded dlqId =>
    exact iff_of_true (blind_answer (blind_map (blind_assignOwn hab _ _ s))) trivial
  | listActive =>
    exact iff_of_true (blind_answer (blind_map (blind_fetchOwn hab .incidents _ s))) trivial
  | getOpenForConnection connectionId =>
    exact iff_of_true (blind_answer (blind_getOpenForConnection hab connectionId s)) trivial
  | addTimelineEvent nowStr incidentId message =>
    exact iff_of_true (blind_answer (blind_addTimelineEvent hab _ _ _ s)) trivial
  | updateStatus now incidentId status resolved =>
    exact iff_of_true (blind_answer (blind_map (blind_assignOwn hab _ _ s))) trivial
  | getByEnrollmentToken token =>
    exact iff_of_true (blind_answer (blind_getOne hab .agents _ s)) trivial
  | enrollAgent now token name version publicKey =>
    exact iff_of_true (blind_answer (blind_enrollAgent hab _ _ _ _ _ s)) trivial
  | updateHeartbeat now agentId cpuPercent memoryPercent queueDepth connectors =>
    exact iff_of_true (blind_answer (blind_updateHeartbeat hab _ _ _ _ _ _ s)) trivial
  | getPendingCommands agentId limit =>
    exact iff_of_true
      (blind_answer (blind_paginate (blind_map (blind_fetchOwn hab .agentCommands _ s)))) trivial
  | markDispatched now commandId =>
    exact iff_of_true (blind_answer (blind_map (blind_assignOwn hab _ _ s))) trivial
  | recordResult now commandId status result error =>
    exact iff_of_true (blind_answer (blind_recordResult hab _ _ _ _ _ s)) trivial
  | getBaseline connectionId =>
    exact iff_of_true (blind_answer (blind_map (blind_fetchOwn hab .schemaSnapshots _ s))) trivial
  | getLatest connectionId =>
    exact iff_of_true (blind_answer (blind_map (blind_fetchOwn hab .schemaSnapshots _ s))) trivial
  | listHistory connectionId =>
    exact iff_of_true (blind_answer (blind_map (blind_fetchOwn hab .schemaSnapshots _ s))) trivial
  | setBaseline connectionId snapshotId =>
    exact iff_of_true (blind_answer (blind_bind (blind_assignOwn hab _ _ s) fun _ s₁ _ =>
      blind_bind (blind_assignOwn hab _ _ s₁) fun _ s₂ _ =>
        blind_getOne hab .schemaSnapshots _ s₂)) trivial

theorem blind_perform_iff (hab : a ≠ b) (c : RepoCall) (s : Db d) :
    Blind b (c.perform a) s ↔ (a ≠ "" → c.Clear a b s) := by
  unfold RepoCall.perform
  by_cases ha : a = ""
  · rw [if_pos ha]
    exact iff_of_true (blind_raise b _ s) fun hne => absurd ha hne
  · rw [if_neg ha, blind_body_iff hab]
    exact ⟨fun h _ => h, fun h => h ha⟩

/-- The operations of a tenant have nothing to do with the rows of another exactly if each is clear
of them on the database that it finds. -/
theorem repositories_isolated_iff (hab : a ≠ b) (db : Db d) (calls : List RepoCall) :
    Isolated (RepoCall.perform a) b db calls ↔ Machine.Every (commit (RepoCall.perform a))
      (fun s c => a ≠ "" → c.Clear a b s) db calls := by
  have hblind : (fun (s : Db d) c => a ≠ "" → RepoCall.Clear a b s c) =
      fun s c => Blind b (RepoCall.perform a c) s := by
    funext s c
    exact propext (blind_perform_iff hab c s).symm
  rw [hblind]
  exact isolated_iff

/-- The report of a tripped breaker, with a draw. -/
def trippedWith (draw : Fin 9000) : RepoCall :=
  .reportCircuitBreakerTripped draw 0 "12:00:00" "conn_pg_01" "wf_01" "timeout" "HIGH"

/-- What the tenant `globex` has stored once a breaker of its own has tripped. -/
def oneIncident : Db .sqlite :=
  Machine.exec (commit (RepoCall.perform "globex")) Store.empty [trippedWith 0]

theorem repositories_isolated_otherDraw :
    Isolated (RepoCall.perform "acme") "globex" oneIncident [trippedWith 1] :=
  (repositories_isolated_iff (by decide) oneIncident [trippedWith 1]).2
    ⟨fun _ _ => indifferent_iff.2 (by decide), trivial⟩

/-- An incident of another tenant that drew the same number keeps a tenant's own from being
opened. -/
theorem not_repositories_isolated_sameDraw : ¬ ∀ (d : Dialect) (a b : String), a ≠ b →
    ∀ (db : Db d) (calls : List RepoCall), Isolated (RepoCall.perform a) b db calls := by
  intro h
  have hanswers := (h .sqlite "acme" "globex" (by decide) oneIncident [trippedWith 0]).answers
  have hok := congrArg (List.map Except.isOk) hanswers
  revert hok
  decide

end FlowMesh.Tables
