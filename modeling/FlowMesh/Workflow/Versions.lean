import FlowMesh.Workflow.Registry

/-!
# What the version store keeps

What the store is for is a `VersionLog`: the definitions released so far, in order, and the
number of the one in use. `Tracks r wf log` says that the rows of a registry hold that log for
the workflow `wf`. `Tracks.exec` is the refinement: whatever operation runs, on whatever workflow
and for whatever tenant, the registry goes on holding the log that the abstract operation leaves.

Two things follow for a workflow made by `create_workflow`, over every history:

* the workflow, once active, agrees with exactly one active version row;
* rows are never rewritten, and a deployment gets the next number exactly when the log is
  `AtHead`: after a rollback to an older version, the number it computes is taken.
-/

namespace FlowMesh

open Python Database

/-! ## The log of a workflow -/

/-- The released definitions, version `n` being entry `n - 1`, and the version in use. -/
structure VersionLog where
  released : List WorkflowSpec
  current : ℤ

namespace VersionLog

variable (log : VersionLog)

/-- The definition of a version. -/
def lookup (v : ℤ) : Option WorkflowSpec :=
  if 1 ≤ v then log.released[(v - 1).toNat]? else none

/-- The version in use is the last one released. -/
def AtHead : Prop := log.current = log.released.length

instance : Decidable log.AtHead := inferInstanceAs (Decidable (_ = _))

/-- Release a definition under the number after the current one, if that is free. -/
def deploy (d : WorkflowSpec) : VersionLog :=
  if log.AtHead then ⟨log.released ++ [d], log.current + 1⟩ else log

/-- Go back (or forth) to a released version. -/
def rollback (v : ℤ) : VersionLog :=
  if 1 ≤ v ∧ v ≤ log.released.length then { log with current := v } else log

/-- What an operation does to the log of one workflow. -/
def exec (tenant id : String) (c : Command) : VersionLog :=
  match c with
  | .deploy t i d _ _ => if t = tenant ∧ i = id then log.deploy d else log
  | .rollback t i v => if t = tenant ∧ i = id then log.rollback v else log
  | _ => log

/-- What a history does to the log of one workflow. -/
def execAll (tenant id : String) (cs : List Command) : VersionLog :=
  cs.foldl (fun log c => log.exec tenant id c) log

variable {log}

theorem lookup_isSome {v : ℤ} : (log.lookup v).isSome ↔ 1 ≤ v ∧ v ≤ log.released.length := by
  unfold lookup
  split
  · simp only [isSome_getElem?]
    omega
  · simp; omega

theorem lookup_le {v : ℤ} {d : WorkflowSpec} (h : log.lookup v = some d) :
    1 ≤ v ∧ v ≤ log.released.length :=
  lookup_isSome.1 (by rw [h]; rfl)

theorem exists_lookup {v : ℤ} (h : 1 ≤ v ∧ v ≤ log.released.length) :
    ∃ d, log.lookup v = some d := Option.isSome_iff_exists.1 (lookup_isSome.2 h)

theorem lookup_append {v : ℤ} {d d' : WorkflowSpec} {c : ℤ} (h : log.lookup v = some d) :
    lookup ⟨log.released ++ [d'], c⟩ v = some d := by
  have hv := lookup_le h
  simp only [lookup, if_pos hv.1] at h ⊢
  rw [List.getElem?_append_left (by omega)]
  exact h

theorem lookup_head {d : WorkflowSpec} {c : ℤ} :
    lookup ⟨log.released ++ [d], c⟩ (log.released.length + 1) = some d := by
  simp [lookup]

/-- Released entries stay as they are. -/
theorem lookup_exec {tenant id : String} {c : Command} {v : ℤ} {d : WorkflowSpec}
    (h : log.lookup v = some d) : (log.exec tenant id c).lookup v = some d := by
  unfold exec
  split
  · split
    · unfold deploy
      split
      · exact lookup_append h
      · exact h
    · exact h
  · split
    · unfold rollback
      split <;> exact h
    · exact h
  · exact h

/-- Released entries stay as they are over a history. -/
theorem lookup_execAll {tenant id : String} {v : ℤ} {d : WorkflowSpec}
    (h : log.lookup v = some d) (cs : List Command) :
    (log.execAll tenant id cs).lookup v = some d := by
  induction cs generalizing log with
  | nil => exact h
  | cons c cs ih => exact ih (lookup_exec h)

end VersionLog

/-! ## The registry holds the log -/

/-- The rows of the registry hold `log` for the workflow `wf`. -/
structure Tracks (r : Registry) (wf : WorkflowRecord) (log : VersionLog) : Prop where
  mem : wf ∈ r.workflows
  version : wf.version = log.current
  definition : log.lookup log.current = some wf.definitionJson
  rows : ∀ v ∈ r.versions, v.workflowId = wf.id → v.tenantId = wf.tenantId ∧
    log.lookup v.version = some v.definitionJson ∧
    (v.isActive = true ↔ wf.status = .active ∧ v.version = log.current)
  stored : ∀ n d, log.lookup n = some d →
    ∃ v ∈ r.versions, v.workflowId = wf.id ∧ v.version = n

namespace Tracks

variable {r r' : Registry} {wf : WorkflowRecord} {log : VersionLog}

/-- A change elsewhere in the registry does not matter. -/
theorem congr (h : Tracks r wf log) (hmem : wf ∈ r'.workflows)
    (hrows : ∀ v, v.workflowId = wf.id → (v ∈ r'.versions ↔ v ∈ r.versions)) :
    Tracks r' wf log where
  mem := hmem
  version := h.version
  definition := h.definition
  rows := fun v hv hid => h.rows v ((hrows v hid).1 hv) hid
  stored := fun n d hn => by
    obtain ⟨v, hv, hid, hver⟩ := h.stored n d hn
    exact ⟨v, (hrows v hid).2 hv, hid, hver⟩

theorem getById (h : Tracks r wf log) : r.getById wf.tenantId wf.id = some wf :=
  Registry.getById_eq_some.2 ⟨h.mem, rfl, rfl⟩

/-- The key of a version is in use exactly when the version was released. -/
theorem key_mem_iff (h : Tracks r wf log) {n : ℤ} :
    (wf.tenantId, wf.id, n) ∈ r.versions.rows.map (·.key) ↔ (log.lookup n).isSome := by
  constructor
  · intro hn
    obtain ⟨v, hv, hkey⟩ := List.mem_map.1 hn
    obtain ⟨-, hid, rfl⟩ : v.tenantId = wf.tenantId ∧ v.workflowId = wf.id ∧ v.version = n := by
      simpa [WorkflowVersionRecord.key] using hkey
    rw [(h.rows v hv hid).2.1]
    rfl
  · intro hn
    obtain ⟨d, hd⟩ := Option.isSome_iff_exists.1 hn
    obtain ⟨v, hv, hid, rfl⟩ := h.stored n d hd
    refine List.mem_map.2 ⟨v, hv, ?_⟩
    rw [WorkflowVersionRecord.key, hid, (h.rows v hv hid).1]

/-- The deployed row is refused exactly when the workflow does not point at the last version. -/
theorem next_mem_iff (h : Tracks r wf log) :
    (wf.tenantId, wf.id, wf.version + 1) ∈ r.versions.rows.map (·.key) ↔ ¬ log.AtHead := by
  have hcur := VersionLog.lookup_le h.definition
  rw [h.key_mem_iff, VersionLog.lookup_isSome, h.version, VersionLog.AtHead]
  omega

/-- The row of a released version, as `deactivate` leaves it. -/
theorem mem_deactivate (h : Tracks r wf log) {v : WorkflowVersionRecord}
    (hv : v ∈ (r.deactivate wf.tenantId wf.id).versions) (hid : v.workflowId = wf.id) :
    v.tenantId = wf.tenantId ∧ log.lookup v.version = some v.definitionJson ∧
      v.isActive = false := by
  obtain ⟨b, hb, rfl⟩ := Registry.mem_deactivate.1 hv
  have hbid : b.workflowId = wf.id := by
    split at hid <;> exact hid
  obtain ⟨ht, hentry, -⟩ := h.rows b hb hbid
  have hbel : b.belongsTo wf.tenantId wf.id = true := by
    simp [WorkflowVersionRecord.belongsTo, ht, hbid]
  rw [if_pos hbel]
  exact ⟨ht, hentry, rfl⟩

theorem stored_deactivate (h : Tracks r wf log) {n : ℤ} {d : WorkflowSpec}
    (hn : log.lookup n = some d) :
    ∃ v ∈ (r.deactivate wf.tenantId wf.id).versions, v.workflowId = wf.id ∧ v.version = n := by
  obtain ⟨v, hv, hid, hver⟩ := h.stored n d hn
  refine ⟨_, Registry.mem_deactivate.2 ⟨v, hv, rfl⟩, ?_, ?_⟩ <;> split <;> assumption

/-- A deployment that stores its row. -/
theorem deploy_ok (h : Tracks r wf log) (hhead : log.AtHead) {row : WorkflowVersionRecord}
    (ht : row.tenantId = wf.tenantId) (hid : row.workflowId = wf.id)
    (hver : row.version = wf.version + 1) (hact : row.isActive = true)
    (hwfs : r'.workflows = r.workflows)
    (hrows : ∀ x, x ∈ r'.versions ↔
      x ∈ (r.deactivate wf.tenantId wf.id).versions ∨ x = row) :
    Tracks (r'.point wf.id (wf.version + 1) row.definitionJson)
      { wf with version := wf.version + 1, definitionJson := row.definitionJson, status := .active }
      (log.deploy row.definitionJson) := by
  have hlog : log.deploy row.definitionJson =
      ⟨log.released ++ [row.definitionJson], log.current + 1⟩ := if_pos hhead
  have hentry : VersionLog.lookup ⟨log.released ++ [row.definitionJson], log.current + 1⟩
      (log.current + 1) = some row.definitionJson := by
    rw [show log.current = log.released.length from hhead]
    exact VersionLog.lookup_head
  rw [hlog]
  rw [VersionLog.AtHead] at hhead
  refine ⟨Registry.mem_point.2 ⟨wf, hwfs ▸ h.mem, by simp⟩, by simp [h.version], hentry,
    fun v hv hvid => ?_, fun n d hn => ?_⟩
  · rcases (hrows v).1 hv with hv | rfl
    · obtain ⟨hvt, he, hvact⟩ := h.mem_deactivate hv hvid
      have hle := (VersionLog.lookup_le he).2
      refine ⟨hvt, VersionLog.lookup_append he, ?_⟩
      simp only [hvact, Bool.false_eq_true, true_and, false_iff]
      omega
    · exact ⟨ht, by rw [hver, h.version, hentry], by simp [hact, hver, h.version]⟩
  · by_cases hn' : (log.lookup n).isSome
    · obtain ⟨d', hd'⟩ := Option.isSome_iff_exists.1 hn'
      obtain ⟨v, hv, hvid, hvver⟩ := h.stored_deactivate hd'
      exact ⟨v, (hrows v).2 (Or.inl hv), hvid, hvver⟩
    · -- the one new entry is the one of the new row
      have hle := VersionLog.lookup_le hn
      rw [VersionLog.lookup_isSome] at hn'
      simp only [List.length_append, List.length_singleton, Nat.cast_add, Nat.cast_one] at hle
      refine ⟨row, (hrows row).2 (Or.inr rfl), hid, ?_⟩
      rw [hver, h.version]
      omega

/-- A rollback to a stored version. -/
theorem rollback_ok (h : Tracks r wf log) {target : WorkflowVersionRecord}
    (hmem : target ∈ r.versions) (hid : target.workflowId = wf.id) :
    Tracks (((r.deactivate wf.tenantId wf.id).activate target).point wf.id target.version
        target.definitionJson)
      { wf with
        version := target.version, definitionJson := target.definitionJson, status := .active }
      (log.rollback target.version) := by
  obtain ⟨ht, hentry, -⟩ := h.rows target hmem hid
  have hlog : log.rollback target.version = { log with current := target.version } :=
    if_pos (VersionLog.lookup_le hentry)
  rw [hlog]
  refine ⟨Registry.mem_point.2 ⟨wf, h.mem, by simp⟩, rfl, hentry, fun v hv hvid => ?_,
    fun n d hn => ?_⟩
  · obtain ⟨b, hb, rfl⟩ := Registry.mem_activate.1 hv
    have hbid : b.workflowId = wf.id := by
      split at hvid <;> exact hvid
    obtain ⟨hbt, hbe, hbact⟩ := h.mem_deactivate hb hbid
    by_cases hkey : b.key = target.key
    · have hver : b.version = target.version := congrArg (·.2.2) hkey
      rw [if_pos hkey]
      exact ⟨hbt, hbe, by simp [WorkflowVersionRecord.setActive, hver]⟩
    · have hver : b.version ≠ target.version := fun hver =>
        hkey (by simp only [WorkflowVersionRecord.key, hbt, ht, hbid, hid, hver])
      rw [if_neg hkey]
      exact ⟨hbt, hbe, by simp [hbact, hver]⟩
  · obtain ⟨v, hv, hvid, hver⟩ := h.stored_deactivate (d := d) hn
    refine ⟨_, Registry.mem_activate.2 ⟨v, hv, rfl⟩, ?_, ?_⟩ <;> split <;> assumption

/-- Any operation on another workflow leaves the rows of this one alone. -/
theorem of_ne (h : Tracks r wf log) {tenant id : String} {wf' : WorkflowRecord}
    (hwf' : r.getById tenant id = some wf') (hne : ¬ (tenant = wf.tenantId ∧ id = wf.id)) :
    id ≠ wf.id := by
  rintro rfl
  obtain ⟨hmem, hid, rfl⟩ := Registry.getById_eq_some.1 hwf'
  exact hne ⟨congrArg (·.tenantId) (Table.eq_of_key_eq hmem h.mem hid), rfl⟩

/-- A stored version row of another workflow. -/
theorem addVersion (h : Tracks r wf log) {v : WorkflowVersionRecord} (hv : v.workflowId ≠ wf.id)
    {res : Except PyError WorkflowVersionRecord} (hadd : r.addVersion v = (res, r')) :
    Tracks r' wf log := by
  rcases Registry.addVersion_cases (r := r) v with ⟨e, he, -⟩ | ⟨r'', hok, -, hwfs, hrows⟩
  · obtain ⟨-, rfl⟩ := Prod.mk.inj (hadd.symm.trans he)
    exact h
  · obtain ⟨-, rfl⟩ := Prod.mk.inj (hadd.symm.trans hok)
    refine h.congr (hwfs ▸ h.mem) fun x hx => ?_
    rw [hrows]
    exact ⟨fun hx' => hx'.resolve_right fun hxv => hv (hxv ▸ hx), Or.inl⟩

/-- A workflow stored beside this one. -/
theorem create (h : Tracks r wf log) {tenant : String} {new : WorkflowRecord}
    {res : Except PyError WorkflowRecord} (hc : r.create tenant new = (res, r')) :
    Tracks r' wf log ∧ ∀ wf', res = .ok wf' → new.id ≠ wf.id := by
  rcases Registry.create_cases (r := r) tenant new with
    ⟨e, he, -⟩ | ⟨r'', hok, hid, hvers, hwfs⟩
  · obtain ⟨rfl, rfl⟩ := Prod.mk.inj (hc.symm.trans he)
    exact ⟨h, fun wf' hwf' => by cases hwf'⟩
  · obtain ⟨rfl, rfl⟩ := Prod.mk.inj (hc.symm.trans hok)
    refine ⟨h.congr ((hwfs wf).2 (Or.inl h.mem)) fun x _ => by rw [hvers], fun _ _ hnew => hid ?_⟩
    rw [hnew]
    exact List.mem_map_of_mem h.mem

theorem createWorkflow (h : Tracks r wf log) (tenant newId : String) (payload : WorkflowDefinition)
    (email : String) : Tracks (r.createWorkflow tenant newId payload email).2 wf log := by
  unfold Registry.createWorkflow
  dsimp only
  split
  · next hc => exact (h.create hc).1
  · next hc =>
    obtain ⟨h', hne⟩ := h.create hc
    split
    · next hv => exact h'.addVersion (hne _ rfl) hv
    · next hv => exact h'.addVersion (hne _ rfl) hv

theorem deploy (h : Tracks r wf log) (d : WorkflowSpec) (changelog deployedBy : String) :
    ∃ wf' : WorkflowRecord, wf'.id = wf.id ∧ wf'.tenantId = wf.tenantId ∧
      Tracks (r.deployVersion wf.tenantId wf.id d changelog deployedBy).2 wf' (log.deploy d) := by
  rcases Registry.deployVersion_cases h.getById d changelog deployedBy rfl with
    ⟨e, he, hkey⟩ | ⟨r', hok, hkey, hwfs, hrows⟩
  · rw [he, VersionLog.deploy, if_neg (h.next_mem_iff.1 hkey)]
    exact ⟨wf, rfl, rfl, h⟩
  · have hhead : log.AtHead := by
      by_contra hn
      exact hkey (h.next_mem_iff.2 hn)
    rw [hok]
    refine ⟨_, ?_, ?_, h.deploy_ok hhead ?_ ?_ ?_ ?_ hwfs hrows⟩ <;> rfl

theorem rollback (h : Tracks r wf log) (v : ℤ) :
    ∃ wf' : WorkflowRecord, wf'.id = wf.id ∧ wf'.tenantId = wf.tenantId ∧
      Tracks (r.rollbackToVersion wf.tenantId wf.id v).2 wf' (log.rollback v) := by
  rcases Registry.rollbackToVersion_cases h.getById v with ⟨hnone, he⟩ | ⟨target, hsome, hok⟩
  · have hout : ¬ (1 ≤ v ∧ v ≤ log.released.length) := by
      intro hv
      obtain ⟨d, hd⟩ := VersionLog.exists_lookup hv
      obtain ⟨row, hrow, hid, rfl⟩ := h.stored v d hd
      refine Table.get?_eq_none.1 hnone row hrow ?_
      rw [WorkflowVersionRecord.key, (h.rows row hrow hid).1, hid]
    rw [he, VersionLog.rollback, if_neg hout]
    exact ⟨wf, rfl, rfl, h⟩
  · obtain ⟨hmem, hkey⟩ := Table.get?_eq_some.1 hsome
    obtain ⟨-, hid, rfl⟩ : target.tenantId = wf.tenantId ∧ target.workflowId = wf.id ∧
        target.version = v := by
      simpa [WorkflowVersionRecord.key] using hkey
    rw [hok]
    refine ⟨_, ?_, ?_, h.rollback_ok hmem hid⟩ <;> rfl

/-- **The version store refines the log**: one operation, whoever makes it. -/
theorem exec (h : Tracks r wf log) (c : Command) :
    ∃ wf' : WorkflowRecord, wf'.id = wf.id ∧ wf'.tenantId = wf.tenantId ∧
      Tracks (r.exec c) wf' (log.exec wf.tenantId wf.id c) := by
  cases c with
  | create tenant newId payload email => exact ⟨wf, rfl, rfl, h.createWorkflow ..⟩
  | insert tenant new => exact ⟨wf, rfl, rfl, (h.create (Prod.eta _).symm).1⟩
  | deploy tenant id d changelog deployedBy =>
    by_cases hsame : tenant = wf.tenantId ∧ id = wf.id
    · obtain ⟨rfl, rfl⟩ := hsame
      simpa only [VersionLog.exec, Registry.exec, and_self, if_true] using
        h.deploy d changelog deployedBy
    · simp only [VersionLog.exec, if_neg hsame]
      refine ⟨wf, rfl, rfl, ?_⟩
      rcases hwf' : r.getById tenant id with _ | wf'
      · rwa [Registry.exec, Registry.deployVersion_not_found hwf']
      have hid := h.of_ne hwf' hsame
      rcases Registry.deployVersion_cases hwf' d changelog deployedBy rfl with
        ⟨e, he, -⟩ | ⟨r', hok, -, hwfs, hrows⟩
      · rwa [Registry.exec, he]
      · rw [Registry.exec, hok]
        refine h.congr (Registry.mem_point_of_ne (hwfs ▸ h.mem) hid.symm _ _) fun x hx => ?_
        have hx' : x.workflowId ≠ id := fun hxi => hid (hxi ▸ hx)
        rw [← @Registry.mem_deactivate_of_ne tenant id r x hx']
        exact (hrows x).trans ⟨fun hm => hm.resolve_right fun hxr => hx' (hxr ▸ rfl), Or.inl⟩
  | rollback tenant id v =>
    by_cases hsame : tenant = wf.tenantId ∧ id = wf.id
    · obtain ⟨rfl, rfl⟩ := hsame
      simpa only [VersionLog.exec, Registry.exec, and_self, if_true] using h.rollback v
    · simp only [VersionLog.exec, if_neg hsame]
      refine ⟨wf, rfl, rfl, ?_⟩
      rcases hwf' : r.getById tenant id with _ | wf'
      · rwa [Registry.exec, Registry.rollbackToVersion_not_found hwf']
      have hid := h.of_ne hwf' hsame
      rcases Registry.rollbackToVersion_cases hwf' v with ⟨-, he⟩ | ⟨target, hsome, hok⟩
      · rwa [Registry.exec, he]
      · have htid : target.workflowId = id :=
          congrArg (·.2.1) (Table.get?_eq_some.1 hsome).2
        rw [Registry.exec, hok]
        refine h.congr (Registry.mem_point_of_ne h.mem hid.symm _ _) fun x hx => ?_
        have hx' : x.workflowId ≠ id := fun hxi => hid (hxi ▸ hx)
        exact (Registry.mem_activate_of_ne (htid ▸ hx')).trans (Registry.mem_deactivate_of_ne hx')
  | list tenant id email =>
    refine ⟨wf, rfl, rfl, ?_⟩
    by_cases hsame : tenant = wf.tenantId ∧ id = wf.id
    · obtain ⟨rfl, rfl⟩ := hsame
      obtain ⟨row, hrow, hid, -⟩ := h.stored _ _ h.definition
      have hbel : row.belongsTo wf.tenantId wf.id = true := by
        simp [WorkflowVersionRecord.belongsTo, hid, (h.rows row hrow hid).1]
      rwa [Registry.exec, Registry.listWorkflowVersions_of_mem hrow hbel]
    · change Tracks (r.listWorkflowVersions tenant id email).2 wf log
      unfold Registry.listWorkflowVersions
      split
      · exact h
      next wf' hwf' =>
      split
      · have hid : wf'.id ≠ wf.id := by
          rw [(Registry.getById_eq_some.1 hwf').2.1]
          exact h.of_ne hwf' hsame
        dsimp only
        split
        · next hv => exact h.addVersion hid hv
        · next hv => exact h.addVersion hid hv
      · exact h

/-- The same over a history. -/
theorem execAll (h : Tracks r wf log) (cs : List Command) :
    ∃ wf' : WorkflowRecord, wf'.id = wf.id ∧ wf'.tenantId = wf.tenantId ∧
      Tracks (r.execAll cs) wf' (log.execAll wf.tenantId wf.id cs) := by
  induction cs generalizing r wf log with
  | nil => exact ⟨wf, rfl, rfl, h⟩
  | cons c cs ih =>
    obtain ⟨wf₁, hid₁, ht₁, h₁⟩ := h.exec c
    obtain ⟨wf₂, hid₂, ht₂, h₂⟩ := ih h₁
    rw [hid₁, ht₁] at h₂
    exact ⟨wf₂, hid₂.trans hid₁, ht₂.trans ht₁, h₂⟩

/-! ## What a log says about the rows -/

theorem eq_of_version_eq (h : Tracks r wf log) {v w : WorkflowVersionRecord} (hv : v ∈ r.versions)
    (hw : w ∈ r.versions) (hvid : v.workflowId = wf.id) (hwid : w.workflowId = wf.id)
    (hver : v.version = w.version) : v = w := by
  refine Table.eq_of_key_eq hv hw ?_
  rw [WorkflowVersionRecord.key, WorkflowVersionRecord.key, (h.rows v hv hvid).1,
    (h.rows w hw hwid).1, hvid, hwid, hver]

/-- A stored definition survives every history. -/
theorem definition_stays (h : Tracks r wf log) {v : WorkflowVersionRecord} (hv : v ∈ r.versions)
    (hvid : v.workflowId = wf.id) (cs : List Command) :
    ∃ w ∈ (r.execAll cs).versions, w.workflowId = wf.id ∧ w.version = v.version ∧
      w.definitionJson = v.definitionJson := by
  obtain ⟨wf', hid, ht, h'⟩ := h.execAll cs
  have hentry : (log.execAll wf.tenantId wf.id cs).lookup v.version = some v.definitionJson :=
    VersionLog.lookup_execAll (h.rows v hv hvid).2.1 cs
  obtain ⟨w, hw, hwid, hwver⟩ := h'.stored _ _ hentry
  have hwentry := (h'.rows w hw hwid).2.1
  rw [hwver, hentry] at hwentry
  exact ⟨w, hw, hwid.trans hid, hwver, (Option.some.inj hwentry).symm⟩

/-- A deployment gets a new highest number exactly when the workflow points at the last
version. -/
theorem deploy_progress_iff (h : Tracks r wf log) (d : WorkflowSpec)
    (changelog deployedBy : String) :
    (∃ row r', r.deployVersion wf.tenantId wf.id d changelog deployedBy = (.ok row, r') ∧
      row.workflowId = wf.id ∧
      ∀ v ∈ r.versions, v.workflowId = wf.id → v.version < row.version) ↔ log.AtHead := by
  rcases Registry.deployVersion_cases h.getById d changelog deployedBy rfl with
    ⟨e, he, hkey⟩ | ⟨r', hok, hkey, -, -⟩
  · refine ⟨?_, fun hhead => absurd hhead (h.next_mem_iff.1 hkey)⟩
    rintro ⟨row, r', hok, -⟩
    rw [he] at hok
    cases hok
  · have hhead : log.AtHead := by
      by_contra hn
      exact hkey (h.next_mem_iff.2 hn)
    refine ⟨fun _ => hhead, fun _ => ⟨_, _, hok, rfl, fun v hv hvid => ?_⟩⟩
    have hle := (VersionLog.lookup_le (h.rows v hv hvid).2.1).2
    rw [← hhead, ← h.version] at hle
    simp only [Registry.versionRecord]
    omega

end Tracks

/-! ## Workflows made by `create_workflow` -/

/-- The log of a workflow that was just created. -/
def VersionLog.initial (payload : WorkflowDefinition) : VersionLog := ⟨[payload.toWorkflowSpec], 1⟩

/-- `create_workflow` starts the log: the drawn id is new, so no version row carries it yet. -/
theorem tracks_createWorkflow {r r' : Registry} (hr : r.Owned) {tenant newId email : String}
    {payload : WorkflowDefinition} {wf : WorkflowRecord}
    (h : r.createWorkflow tenant newId payload email = (.ok wf, r')) :
    Tracks r' wf (.initial payload) := by
  obtain ⟨hid, ht, hstatus, hver, hdef, hmem, hnew, v1, h1t, h1id, h1v, h1d, h1a, hrows⟩ :=
    Registry.createWorkflow_ok h
  refine ⟨hmem, hver, by simp [VersionLog.lookup, VersionLog.initial, hdef], fun v hv hvid => ?_,
    fun n d hn => ⟨v1, (hrows v1).2 (Or.inr rfl), h1id.trans hid.symm, ?_⟩⟩
  · rcases (hrows v).1 hv with hv | rfl
    · obtain ⟨wf', hwf', hwf'id⟩ := hr v hv
      refine absurd (List.mem_map.2 ⟨wf', hwf', ?_⟩) hnew
      rw [hwf'id, hvid, hid]
    · refine ⟨h1t.trans ht.symm, by simp [VersionLog.lookup, VersionLog.initial, h1v, h1d], ?_⟩
      simp [h1a, hstatus]
  · have hle := VersionLog.lookup_le hn
    simp only [VersionLog.initial, List.length_singleton, Nat.cast_one] at hle
    omega

section Created

variable {before : List Command} {tenant newId email : String} {payload : WorkflowDefinition}
  {wf₀ : WorkflowRecord} {r₁ : Registry}

/-- The rows of a created workflow hold its log after every further history. -/
theorem tracks_of_created
    (hcreate : (Registry.empty.execAll before).createWorkflow tenant newId payload email =
      (.ok wf₀, r₁)) (after : List Command) :
    ∃ wf : WorkflowRecord, wf.id = newId ∧ wf.tenantId = tenant ∧
      Tracks (r₁.execAll after) wf ((VersionLog.initial payload).execAll tenant newId after) := by
  obtain ⟨hid, ht, -⟩ := Registry.createWorkflow_ok hcreate
  obtain ⟨wf, hwid, hwt, h⟩ :=
    (tracks_createWorkflow (Registry.owned_empty.execAll before) hcreate).execAll after
  rw [hid, ht] at h
  exact ⟨wf, hwid.trans hid, hwt.trans ht, h⟩

/-- **An active workflow agrees with its one active version**, in every state that a history of
operations on any workflows leaves after its creation. -/
theorem active_version_agrees
    (hcreate : (Registry.empty.execAll before).createWorkflow tenant newId payload email =
      (.ok wf₀, r₁)) (after : List Command) {wf : WorkflowRecord}
    (hwf : wf ∈ (r₁.execAll after).workflows) (hid : wf.id = newId)
    (hactive : wf.status = .active) :
    ∃ v ∈ (r₁.execAll after).versions, v.workflowId = wf.id ∧ v.isActive = true ∧
      wf.version = v.version ∧ wf.definitionJson = v.definitionJson ∧
      ∀ v' ∈ (r₁.execAll after).versions, v'.workflowId = wf.id → v'.isActive = true → v' = v := by
  obtain ⟨wf', hid', ht', h⟩ := tracks_of_created hcreate after
  obtain rfl : wf = wf' := Table.eq_of_key_eq hwf h.mem (hid.trans hid'.symm)
  obtain ⟨v, hv, hvid, hver⟩ := h.stored _ _ h.definition
  obtain ⟨hvt, hentry, hvact⟩ := h.rows v hv hvid
  refine ⟨v, hv, hvid, hvact.2 ⟨hactive, hver⟩, h.version.trans hver.symm, ?_, ?_⟩
  · have hdef := h.definition
    rw [← hver, hentry] at hdef
    exact (Option.some.inj hdef).symm
  · intro v' hv' hvid' hact'
    obtain ⟨hvt', -, hact''⟩ := h.rows v' hv' hvid'
    refine Table.eq_of_key_eq hv' hv ?_
    rw [WorkflowVersionRecord.key, WorkflowVersionRecord.key, hvt, hvt', hvid, hvid', hver,
      (hact''.1 hact').2]

/-- The agreement for a workflow that was created and deployed once. -/
theorem active_version_agrees_deployed :
    ∃ wf₀ r₁, Registry.empty.createWorkflow "acme" "wf_1" defaultDemoDefinition "ops" =
        (.ok wf₀, r₁) ∧
      ∃ wf ∈ (r₁.execAll [.deploy "acme" "wf_1" defaultDemoWorkflow "" "ops"]).workflows,
        wf.id = "wf_1" ∧ wf.status = .active ∧
        ∃ v ∈ (r₁.execAll [.deploy "acme" "wf_1" defaultDemoWorkflow "" "ops"]).versions,
          v.workflowId = wf.id ∧ v.isActive = true ∧ wf.version = v.version := by
  refine ⟨_, _, rfl, _, List.mem_singleton.2 rfl, rfl, rfl, ?_⟩
  obtain ⟨v, hv, hid, hact, hver, -⟩ :=
    @active_version_agrees [] "acme" "wf_1" "ops" defaultDemoDefinition _ _ rfl
      [.deploy "acme" "wf_1" defaultDemoWorkflow "" "ops"] _ (List.mem_singleton.2 rfl) rfl rfl
  exact ⟨v, hv, hid, hact, hver⟩

/-- What the version store should keep for a workflow over a history: a deployment gets a number
above all stored ones, a number is stored once, and a stored definition stays. -/
structure StoreKeeps (r₁ : Registry) (tenant id : String) (cs : List Command) : Prop where
  progress : ∀ pre d changelog deployedBy post,
    cs = pre ++ .deploy tenant id d changelog deployedBy :: post →
    ∃ row r', (r₁.execAll pre).deployVersion tenant id d changelog deployedBy = (.ok row, r') ∧
      row.workflowId = id ∧
      ∀ v ∈ (r₁.execAll pre).versions, v.workflowId = id → v.version < row.version
  unique : ∀ pre post, cs = pre ++ post → ∀ v ∈ (r₁.execAll pre).versions,
    ∀ w ∈ (r₁.execAll pre).versions, v.workflowId = id → w.workflowId = id →
      v.version = w.version → v = w
  immutable : ∀ pre mid post, cs = pre ++ mid ++ post → ∀ v ∈ (r₁.execAll pre).versions,
    v.workflowId = id → ∃ w ∈ (r₁.execAll (pre ++ mid)).versions, w.workflowId = id ∧
      w.version = v.version ∧ w.definitionJson = v.definitionJson

/-- **The version store keeps its promises over a history exactly when every deployment in it is
made while the workflow points at its last released version.** Uniqueness and immutability hold
in any case. -/
theorem storeKeeps_iff
    (hcreate : (Registry.empty.execAll before).createWorkflow tenant newId payload email =
      (.ok wf₀, r₁)) (after : List Command) :
    StoreKeeps r₁ tenant newId after ↔ ∀ pre d changelog deployedBy post,
      after = pre ++ .deploy tenant newId d changelog deployedBy :: post →
      ((VersionLog.initial payload).execAll tenant newId pre).AtHead := by
  constructor
  · intro hk pre d changelog deployedBy post hsplit
    obtain ⟨wf, rfl, rfl, h⟩ := tracks_of_created hcreate pre
    exact (h.deploy_progress_iff d changelog deployedBy).1 (hk.progress _ _ _ _ _ hsplit)
  · intro hhead
    refine ⟨?_, ?_, ?_⟩
    · intro pre d changelog deployedBy post hsplit
      obtain ⟨wf, rfl, rfl, h⟩ := tracks_of_created hcreate pre
      exact (h.deploy_progress_iff d changelog deployedBy).2 (hhead _ _ _ _ _ hsplit)
    · intro pre post _ v hv w hw hvid hwid hver
      obtain ⟨wf, hid, -, h⟩ := tracks_of_created hcreate pre
      exact h.eq_of_version_eq hv hw (hvid.trans hid.symm) (hwid.trans hid.symm) hver
    · intro pre mid post _ v hv hvid
      obtain ⟨wf, hid, -, h⟩ := tracks_of_created hcreate pre
      rw [Registry.execAll_append]
      obtain ⟨w, hw, hwid, hrest⟩ := h.definition_stays hv (hvid.trans hid.symm) mid
      exact ⟨w, hw, hwid.trans hid, hrest⟩

/-- Deploy, roll back to the first version and forward to the second, deploy again. -/
theorem storeKeeps_two_deploys :
    ∃ wf₀ r₁, Registry.empty.createWorkflow "acme" "wf_1" defaultDemoDefinition "ops" =
        (.ok wf₀, r₁) ∧
      StoreKeeps r₁ "acme" "wf_1"
        [.deploy "acme" "wf_1" defaultDemoWorkflow "v2" "ops", .rollback "acme" "wf_1" 1,
          .rollback "acme" "wf_1" 2, .deploy "acme" "wf_1" defaultDemoWorkflow "v3" "ops"] := by
  refine ⟨_, _, rfl, ?_⟩
  refine (@storeKeeps_iff [] "acme" "wf_1" "ops" defaultDemoDefinition _ _ rfl _).2 ?_
  intro pre d changelog deployedBy post hsplit
  rcases pre with _ | ⟨c₁, _ | ⟨c₂, _ | ⟨c₃, _ | ⟨c₄, pre⟩⟩⟩⟩
  · rfl
  · cases hsplit
  · cases hsplit
  · obtain ⟨rfl, rfl, rfl, -⟩ : _ = c₁ ∧ _ = c₂ ∧ _ = c₃ ∧ _ := by simpa using hsplit
    rfl
  · simp at hsplit

/-- Deploy, roll back to the first version, deploy again: the second deployment computes the
number of the first and is refused. -/
theorem not_storeKeeps_after_rollback :
    ∃ wf₀ r₁, Registry.empty.createWorkflow "acme" "wf_1" defaultDemoDefinition "ops" =
        (.ok wf₀, r₁) ∧
      ¬ StoreKeeps r₁ "acme" "wf_1"
        [.deploy "acme" "wf_1" defaultDemoWorkflow "v2" "ops", .rollback "acme" "wf_1" 1,
          .deploy "acme" "wf_1" defaultDemoWorkflow "v3" "ops"] := by
  refine ⟨_, _, rfl, fun hk => ?_⟩
  obtain ⟨row, r', hdeploy, -⟩ := hk.progress
    [.deploy "acme" "wf_1" defaultDemoWorkflow "v2" "ops", .rollback "acme" "wf_1" 1] _ _ _ [] rfl
  exact Bool.false_ne_true (congrArg (fun p => p.1.isOk) hdeploy)

end Created

end FlowMesh
