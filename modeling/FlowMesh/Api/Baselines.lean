import FlowMesh.Library.Machine
import FlowMesh.Api.Connections

/-!
# Baselines of schema snapshots

What discoveries, drift reports and requests to set a baseline make of the snapshots of a tenant's
connections. `baselines_kept` says when every connection that has snapshots keeps exactly one
baseline, and when a request leaves the baselines of the other connections alone.
-/

namespace FlowMesh.Tables

open Python Database Transaction Async

variable {d : Dialect}

/-! ## Running a handler -/

section Run

variable {plant : Plant} {tenant : String} {s : Db d}

/-- Run alone, the handler ends in `Φ`. -/
abbrev Ends {α : Type} (plant : Plant) (p : Handling α) (Φ : Except PyError α → Db d → Prop)
    (s : Db d) : Prop :=
  p.Yields (ConnOp.handle d plant) (fun _ _ => True) Φ s

theorem Ends.run {α : Type} {p : Handling α} {Φ : Except PyError α → Db d → Prop}
    (h : Ends plant p Φ s) :
    Φ (p.run (ConnOp.handle d plant) s).1 (p.run (ConnOp.handle d plant) s).2 :=
  h (.all (fun _ _ => trivial) p s)

/-- A transaction, and then the rest. -/
theorem ends_performDb {α : Type} {o : DbOp} {f : Answer → Handling α}
    {Φ : Except PyError α → Db d → Prop}
    (hok : ∀ x s', (o.work s).1 = .ok (x, s') → Ends plant (f x) Φ s')
    (herr : ∀ e, Φ (.error e) s) : Ends plant (performDb o >>= f) Φ s := by
  have hhandle : ConnOp.handle d plant (.db o) s = DbOp.handle d o s := rfl
  intro halong
  rcases handle_cases o s with ⟨x, s', hx, hrun⟩ | ⟨e, -, hrun⟩
  · have hfirst : (performDb o).run (ConnOp.handle d plant) s = (.ok x, s') := by
      unfold performDb
      rw [Prog.run_perform, hhandle, hrun]
    rw [Prog.run_bind_ok _ hfirst]
    exact (hok x s' hx).run
  · have hfirst : (performDb o).run (ConnOp.handle d plant) s = (.error e, s) := by
      unfold performDb
      rw [Prog.run_perform, hhandle, hrun]
    rw [Prog.run_bind_error _ hfirst]
    exact herr e

/-- A query for a row. -/
theorem ends_find {t : Table} {c : RepoCall} {m : Query d (Option (Row t))}
    {Φ : Except PyError (Option (Row t)) → Db d → Prop} (hc : c.body tenant = answerRow? t m)
    (hok : ∀ x s', (m s).1 = .ok (x, s') → Φ (.ok x) s') (herr : ∀ e, Φ (.error e) s) :
    Ends plant (findRow tenant t c) Φ s := by
  refine ends_performDb (fun x s' hx => ?_) herr
  obtain ⟨y, hy, rfl⟩ := answer_inv (hc ▸ work_inv hx)
  have hrow : (Answer.row (y.map (Sigma.mk t))).row? t = y := by
    cases y <;> simp [Answer.row?]
  refine Prog.Yields.ret ?_
  rw [hrow]
  exact hok y s' hy

/-- A query for a row, and then the rest. -/
theorem ends_findRow {α : Type} {t : Table} {c : RepoCall} {m : Query d (Option (Row t))}
    {f : Option (Row t) → Handling α} {Φ : Except PyError α → Db d → Prop}
    (hc : c.body tenant = answerRow? t m)
    (hok : ∀ x s', (m s).1 = .ok (x, s') → Ends plant (f x) Φ s')
    (herr : ∀ e, Φ (.error e) s) : Ends plant (findRow tenant t c >>= f) Φ s := by
  refine Prog.Yields.bind (Ψ := fun r s' => (∀ x, r = .ok x → (m s).1 = .ok (x, s')) ∧
    ∀ e, r = .error e → s' = s)
    (ends_find hc (fun x s' hx => ⟨fun y hy => Except.ok.inj hy ▸ hx, nofun⟩)
      fun e => ⟨nofun, fun _ _ => rfl⟩) ?_ ?_
  · rintro x s' ⟨hx, -⟩
    exact hok x s' (hx x rfl)
  · rintro e s' ⟨-, he⟩
    rw [he e rfl]
    exact herr e

/-- A transaction whose answer is not used, and then the rest. -/
theorem ends_runDb {α : Type} {o : DbOp} {f : Unit → Handling α}
    {Φ : Except PyError α → Db d → Prop}
    (hok : ∀ x s', (o.work s).1 = .ok (x, s') → Ends plant (f ()) Φ s')
    (herr : ∀ e, Φ (.error e) s) : Ends plant (runDb o >>= f) Φ s := by
  unfold runDb
  rw [Prog.bind_assoc]
  exact ends_performDb hok herr

/-- The look-up of a connection, and then the rest. -/
theorem ends_getConnection {α : Type} {connectionId : String} {f : ConnectionRecord → Handling α}
    {Φ : Except PyError α → Db d → Prop} (hok : ∀ conn, Ends plant (f conn) Φ s)
    (herr : ∀ e, Φ (.error e) s) : Ends plant (getConnection tenant connectionId >>= f) Φ s := by
  unfold getConnection
  rw [Prog.bind_assoc]
  refine ends_findRow rfl (fun conn? s' hconn => ?_) herr
  obtain ⟨rfl, -⟩ := getOne_inv (t := .connections) hconn
  cases conn? with
  | none => exact Prog.Yields.raise (herr _)
  | some conn => exact hok conn

/-- A part that makes no call, and then the rest. -/
theorem ends_silent {α β : Type} {p : Handling α} {f : α → Handling β}
    {Φ : Except PyError β → Db d → Prop} (hp : p.Uses fun _ => False)
    (hok : ∀ x, Ends plant (f x) Φ s) (herr : ∀ e, Φ (.error e) s) :
    Ends plant (p >>= f) Φ s := by
  have hsame : (p.run (ConnOp.handle d plant) s).2 = s :=
    hp.run_induction (I := fun s' => s' = s) _ (fun _ _ h => h.elim) rfl
  refine Prog.Yields.bind (Ψ := fun _ s' => s' = s) (Prog.Yields.of_run hsame) ?_ ?_
  · rintro x _ rfl
    exact hok x
  · rintro e _ rfl
    exact herr e

/-- A discovery by the connector, and then the rest. -/
theorem ends_discover {α : Type} {spec : ConnectionSpec} {f : Json → Handling α}
    {Φ : Except PyError α → Db d → Prop} (hok : ∀ graph, Ends plant (f graph) Φ s)
    (herr : ∀ e, Φ (.error e) s) : Ends plant (discover spec >>= f) Φ s := by
  refine Prog.Yields.bind (Ψ := fun _ s' => s' = s) (Prog.Yields.perform fun _ => rfl) ?_ ?_
  · rintro x _ rfl
    exact hok x
  · rintro e _ rfl
    exact herr e

theorem silent_raised {α : Type} (x : Except PyError α) :
    (raised x).Uses fun _ => False := by
  cases x <;> trivial

theorem silent_requireEnabled (conn : ConnectionRecord) (purpose : String) :
    (requireEnabled conn purpose).Uses fun _ => False := by
  unfold requireEnabled
  split <;> trivial

theorem silent_discoverCredentials (svc : Services) (connectionId : String)
    (sec : Option ConnectionSecret) :
    (discoverCredentials svc tenant connectionId sec).Uses fun _ => False := by
  cases sec with
  | none => exact .ret _
  | some sec => exact .bind (silent_raised _) fun _ => .ret _

end Run

/-! ## Snapshots -/

/-- The snapshot is one of the connection. -/
def Snapshot (tenant connectionId : String) (s : Db d) (x : SchemaSnapshot) : Prop :=
  x ∈ inTable .schemaSnapshots s ∧ x.tenantId = tenant ∧ x.connectionId = connectionId

/-- The snapshot is a baseline of the connection. -/
def Baseline (tenant connectionId : String) (s : Db d) (x : SchemaSnapshot) : Prop :=
  Snapshot tenant connectionId s x ∧ x.isBaseline = true

/-- Every connection of the tenant that has a snapshot has exactly one baseline. -/
def OneBaseline (tenant : String) (s : Db d) : Prop :=
  ∀ connectionId, (∃ x, Snapshot tenant connectionId s x) → ∃! x, Baseline tenant connectionId s x

/-- One snapshot of the connection was added, or none; it is a baseline exactly if the connection
had none. -/
def Adds (tenant connectionId : String) (s s' : Db d) : Prop :=
  inTable .schemaSnapshots s' = inTable .schemaSnapshots s ∨
    ∃ snap : SchemaSnapshot, snap.tenantId = tenant ∧ snap.connectionId = connectionId ∧
      (snap.isBaseline = true ↔ ¬ ∃ x, Baseline tenant connectionId s x) ∧
      inTable .schemaSnapshots s' = inTable .schemaSnapshots s ++ [snap]

section Snapshots

variable {plant : Plant} {svc : Services} {tenant connectionId : String} {s s' : Db d}

theorem head?_orderSnapshots_mem {l : List SchemaSnapshot} {x : SchemaSnapshot}
    (h : (SchemaSnapshotRepository.orderSnapshots l).head? = some x) : x ∈ l := by
  have hmem : x ∈ SchemaSnapshotRepository.orderSnapshots l := List.mem_of_mem_head? h
  exact (List.mem_insertionSort _).1 hmem

theorem head?_orderSnapshots_eq_none {l : List SchemaSnapshot} :
    (SchemaSnapshotRepository.orderSnapshots l).head? = none ↔ l = [] := by
  rw [List.head?_eq_none_iff, ← List.length_eq_zero_iff, SchemaSnapshotRepository.orderSnapshots,
    orderBy, List.length_insertionSort, List.length_eq_zero_iff]

theorem getBaseline_inv {x? : Option SchemaSnapshot}
    (h : (SchemaSnapshotRepository.getBaseline tenant connectionId s).1 = .ok (x?, s')) :
    s' = s ∧ (x? = none ↔ ¬ ∃ x, Baseline tenant connectionId s x) := by
  obtain ⟨l, s₁, hfetch, hpure⟩ := bind_inv h
  obtain ⟨rfl, rfl⟩ := pure_inv hpure
  obtain ⟨rfl, hl⟩ := fetchOwn_inv hfetch
  refine ⟨rfl, ?_⟩
  rw [head?_orderSnapshots_eq_none, List.eq_nil_iff_forall_not_mem, not_exists]
  refine forall_congr' fun x => not_congr ?_
  rw [hl, ← mem_inTable, Bool.and_eq_true, decide_eq_true_eq]
  exact ⟨fun ⟨hx, htenant, hconn, hbase⟩ => ⟨⟨hx, htenant, hconn⟩, hbase⟩,
    fun ⟨⟨hx, htenant, hconn⟩, hbase⟩ => ⟨hx, htenant, hconn, hbase⟩⟩

theorem getLatest_inv {x? : Option SchemaSnapshot}
    (h : (SchemaSnapshotRepository.getLatest tenant connectionId s).1 = .ok (x?, s')) :
    s' = s ∧ (x? = none → ¬ ∃ x, Snapshot tenant connectionId s x) ∧
      ∀ x, x? = some x → Snapshot tenant connectionId s x := by
  obtain ⟨l, s₁, hfetch, hpure⟩ := bind_inv h
  obtain ⟨rfl, rfl⟩ := pure_inv hpure
  obtain ⟨rfl, hl⟩ := fetchOwn_inv hfetch
  have hmem : ∀ x, x ∈ l ↔ Snapshot tenant connectionId s' x := by
    intro x
    rw [hl, ← mem_inTable, decide_eq_true_eq]
    rfl
  refine ⟨rfl, fun hnone => ?_, fun x hx => (hmem x).1 (head?_orderSnapshots_mem hx)⟩
  rintro ⟨x, hx⟩
  rw [head?_orderSnapshots_eq_none.1 hnone] at hmem
  exact List.not_mem_nil ((hmem x).2 hx)

theorem ends_addSnapshot {α : Type} {snap : SchemaSnapshot} {a : α}
    (htenant : snap.tenantId = tenant) (hconn : snap.connectionId = connectionId)
    (hbase : snap.isBaseline = true ↔ ¬ ∃ x, Baseline tenant connectionId s x) :
    Ends plant (addSnapshot tenant snap >>= fun _ => pure a)
      (fun _ s' => Adds tenant connectionId s s') s := by
  refine ends_runDb (fun x s' hx => ?_) fun _ => Or.inl rfl
  obtain ⟨y, hcreate, -⟩ := answer_inv (work_inv hx)
  obtain ⟨_, s₁, hinsert, hpure⟩ := bind_inv hcreate
  obtain ⟨-, rfl⟩ := pure_inv hpure
  have hrow : Row.setTenantId tenant (t := .schemaSnapshots) snap = snap := by
    change { snap with tenantId := tenant } = snap
    rw [← htenant]
  rw [hrow] at hinsert
  exact Prog.Yields.ret (Or.inr ⟨snap, htenant, hconn, hbase, inTable_insert (insert_inv hinsert).2⟩)

/-- What a discovery does to the snapshots. -/
theorem discover_adds (draw : SnapshotDraw) (s : Db d) :
    Ends plant (discoverConnectionSchema svc tenant connectionId draw)
      (fun _ s' => Adds tenant connectionId s s') s := by
  have herr : ∀ e : PyError, Adds tenant connectionId s s := fun _ => Or.inl rfl
  refine ends_getConnection (fun conn => ?_) herr
  refine ends_silent (silent_requireEnabled conn _) (fun _ => ?_) herr
  refine ends_findRow rfl (fun sec s₁ hsec => ?_) herr
  obtain ⟨l, s₂, hfetch, hscalar⟩ := bind_inv hsec
  obtain ⟨rfl, -⟩ := fetchOwn_inv hfetch
  obtain ⟨rfl, -⟩ := scalarOneOrNone_inv hscalar
  refine ends_silent (silent_discoverCredentials svc connectionId sec) (fun credentials => ?_) herr
  refine ends_silent (silent_raised _) (fun spec => ?_) herr
  split
  · refine ends_discover (fun graph => ?_) herr
    refine ends_findRow rfl (fun baseline s₁ hbaseline => ?_) herr
    obtain ⟨rfl, hnone⟩ := getBaseline_inv hbaseline
    refine ends_findRow rfl (fun latest s₁ hlatest => ?_) herr
    obtain ⟨rfl, -⟩ := getLatest_inv hlatest
    refine ends_addSnapshot rfl rfl ?_
    rw [← hnone]
    exact Option.isNone_iff_eq_none
  · exact Prog.Yields.raise (herr ⟨.other, ""⟩)

/-- What a drift report does to the snapshots. -/
theorem drift_adds (draw : SnapshotDraw) (s : Db d) :
    Ends plant (getConnectionSchemaDrift svc tenant connectionId draw)
      (fun _ s' => Adds tenant connectionId s s') s := by
  have herr : ∀ e : PyError, Adds tenant connectionId s s := fun _ => Or.inl rfl
  refine ends_findRow rfl (fun baseline s₁ hbaseline => ?_) herr
  obtain ⟨rfl, hnone⟩ := getBaseline_inv hbaseline
  refine ends_findRow rfl (fun latest s₁ hlatest => ?_) herr
  obtain ⟨rfl, hempty, -⟩ := getLatest_inv hlatest
  have hdiscover : (¬ ∃ x, Baseline tenant connectionId s₁ x) →
      Ends plant (do
        let conn ← getConnection tenant connectionId
        if svc.registered conn.type then do
          let spec ← raised (connectionSpec conn none none)
          let graph ← discover spec
          let snap := newSnapshot tenant draw connectionId graph true 1
          addSnapshot tenant snap
          return some (snap, snap)
        else return none) (fun _ s' => Adds tenant connectionId s₁ s') s₁ := by
    intro hbase
    refine ends_getConnection (fun conn => ?_) herr
    split
    · refine ends_silent (silent_raised _) (fun spec => ?_) herr
      refine ends_discover (fun graph => ?_) herr
      exact ends_addSnapshot rfl rfl (iff_of_true rfl hbase)
    · exact Prog.Yields.ret (Or.inl rfl)
  cases baseline with
  | none => exact hdiscover (hnone.1 rfl)
  | some baseline =>
    cases latest with
    | none => exact hdiscover fun ⟨x, hx⟩ => hempty rfl ⟨x, hx.1⟩
    | some latest => exact Prog.Yields.ret (Or.inl rfl)

/-- What `set_baseline` makes of a snapshot. -/
def SchemaSnapshot.move (tenant connectionId snapshotId : String) (x : SchemaSnapshot) :
    SchemaSnapshot :=
  if x.tenantId = tenant ∧ x.id = snapshotId then { x with isBaseline := true }
  else if x.tenantId = tenant ∧ x.connectionId = connectionId then { x with isBaseline := false }
  else x

theorem setBaseline_inv {snapshotId : String} {x? : Option SchemaSnapshot}
    (h : (SchemaSnapshotRepository.setBaseline tenant connectionId snapshotId s).1 =
      .ok (x?, s')) :
    inTable .schemaSnapshots s' =
      (inTable .schemaSnapshots s).map (SchemaSnapshot.move tenant connectionId snapshotId) := by
  obtain ⟨n, s₁, hclear, h⟩ := bind_inv h
  obtain ⟨m, s₂, hset, h⟩ := bind_inv h
  obtain ⟨rfl, -⟩ := getOne_inv (t := .schemaSnapshots) h
  rw [assign_update hset, assign_update hclear, inTable_update, inTable_update, List.map_map]
  refine List.map_congr_left fun x _ => ?_
  simp only [Function.comp_apply, SchemaSnapshot.move, Bool.and_eq_true, decide_eq_true_eq]
  by_cases htenant : x.tenantId = tenant <;> by_cases hconn : x.connectionId = connectionId <;>
    by_cases hid : x.id = snapshotId <;>
    simp [htenant, hconn, hid, SchemaSnapshotRepository.setIsBaseline, Row.owner]

/-- The snapshot that a request names: one of the tenant's, and one of the connection if the request
names none. -/
def Target (tenant connectionId : String) (snapshotId : Option String) (s : Db d)
    (x : SchemaSnapshot) : Prop :=
  x ∈ inTable .schemaSnapshots s ∧ x.tenantId = tenant ∧
    match orElse snapshotId none with
    | some snapshotId => x.id = snapshotId
    | none => x.connectionId = connectionId

/-- The baseline of the connection was moved to a snapshot that the request names, or the snapshots
are as they were. -/
def Moves (tenant connectionId : String) (snapshotId : Option String) (s s' : Db d) : Prop :=
  inTable .schemaSnapshots s' = inTable .schemaSnapshots s ∨
    ∃ x, Target tenant connectionId snapshotId s x ∧ inTable .schemaSnapshots s' =
      (inTable .schemaSnapshots s).map (SchemaSnapshot.move tenant connectionId x.id)

/-- What a request to set a baseline does to the snapshots. -/
theorem setBaseline_moves (snapshotId : Option String) (audit : Audit) (s : Db d) :
    Ends plant (setConnectionSchemaBaseline tenant connectionId snapshotId audit)
      (fun _ s' => Moves tenant connectionId snapshotId s s') s := by
  have htarget : Ends plant (targetSnapshot tenant connectionId snapshotId) (fun r s' =>
      s' = s ∧ ∀ x, r = .ok (some x) → Target tenant connectionId snapshotId s x) s := by
    unfold targetSnapshot
    cases hid : orElse snapshotId none with
    | some snapshotId' =>
      refine ends_find rfl (fun x? s₁ hx => ?_) fun _ => ⟨rfl, nofun⟩
      obtain ⟨l, s₂, hfetch, hscalar⟩ := bind_inv hx
      obtain ⟨rfl, hl⟩ := fetchOwn_inv hfetch
      obtain ⟨rfl, hx?⟩ := scalarOneOrNone_inv hscalar
      refine ⟨rfl, fun x hsome => ?_⟩
      obtain ⟨hmem, htenant, hxid⟩ := (hl x).1 (List.mem_of_mem_head? (hx?.symm.trans
        (Except.ok.inj hsome)))
      refine ⟨mem_inTable.2 hmem, htenant, ?_⟩
      rw [hid]
      exact of_decide_eq_true hxid
    | none =>
      refine ends_find rfl (fun x? s₁ hx => ?_) fun _ => ⟨rfl, nofun⟩
      obtain ⟨rfl, -, hsnapshot⟩ := getLatest_inv hx
      refine ⟨rfl, fun x hsome => ?_⟩
      obtain ⟨hmem, htenant, hconn⟩ := hsnapshot x (Except.ok.inj hsome)
      refine ⟨hmem, htenant, ?_⟩
      rw [hid]
      exact hconn
  refine Prog.Yields.bind htarget ?_ ?_
  · rintro target? _ ⟨rfl, htarget⟩
    cases target? with
    | none => exact Prog.Yields.raise (Or.inl rfl)
    | some target =>
      refine ends_runDb (fun x s₁ hx => ?_) fun _ => Or.inl rfl
      obtain ⟨y, hset, -⟩ := answer_inv (work_inv hx)
      have hmoved : Moves tenant connectionId snapshotId _ s₁ :=
        Or.inr ⟨target, htarget target rfl, setBaseline_inv hset⟩
      refine ends_runDb (fun x s₂ hx => ?_) fun _ => hmoved
      obtain ⟨y, hevent, -⟩ := answer_inv (work_inv hx)
      obtain ⟨_, s₃, hinsert, hpure⟩ := bind_inv hevent
      obtain ⟨-, rfl⟩ := pure_inv hpure
      refine Prog.Yields.ret ?_
      unfold Moves
      rw [inTable_insert_of_ne (by decide) (insert_inv hinsert).2]
      exact hmoved
  · rintro e _ ⟨rfl, -⟩
    exact Or.inl rfl

end Snapshots

/-! ## Sequences of requests -/

/-- What a request asks for. -/
inductive SchemaKind
  | discover (draw : SnapshotDraw)
  | drift (draw : SnapshotDraw)
  | setBaseline (snapshotId : Option String) (audit : Audit)

/-- A request that is addressed to a connection, with what it finds in the process and how the
connectors answer it. -/
structure SchemaRequest where
  svc : Services
  plant : Plant
  connectionId : String
  kind : SchemaKind

/-- The database after a request of the tenant. -/
def SchemaRequest.step (tenant : String) (s : Db d) (r : SchemaRequest) : Unit × Db d :=
  ((), match r.kind with
    | .discover draw => ((discoverConnectionSchema r.svc tenant r.connectionId draw).run
        (ConnOp.handle d r.plant) s).2
    | .drift draw => ((getConnectionSchemaDrift r.svc tenant r.connectionId draw).run
        (ConnOp.handle d r.plant) s).2
    | .setBaseline snapshotId audit =>
      ((setConnectionSchemaBaseline tenant r.connectionId snapshotId audit).run
        (ConnOp.handle d r.plant) s).2)

/-- A request to set a baseline names a snapshot of the connection that it is addressed to, or one
that is a baseline already while the connection has no snapshot. -/
def SchemaRequest.Addressed (tenant : String) (s : Db d) (r : SchemaRequest) : Prop :=
  match r.kind with
  | .setBaseline snapshotId _ => ∀ x, Target tenant r.connectionId snapshotId s x →
      x.connectionId = r.connectionId ∨
        x.isBaseline = true ∧ ¬ ∃ y, Snapshot tenant r.connectionId s y
  | _ => True

/-- After the request every connection with snapshots has exactly one baseline, and the other
connections have the baselines that they had. -/
def SchemaRequest.Keeps (tenant : String) (s : Db d) (r : SchemaRequest) : Prop :=
  OneBaseline tenant (r.step tenant s).2 ∧ ∀ connectionId, connectionId ≠ r.connectionId →
    ∀ x, Baseline tenant connectionId (r.step tenant s).2 x ↔ Baseline tenant connectionId s x

section Requests

variable {tenant connectionId : String} {s s' : Db d}

theorem keeps_of_eq (h : inTable .schemaSnapshots s' = inTable .schemaSnapshots s)
    (hs : OneBaseline tenant s) :
    OneBaseline tenant s' ∧ ∀ c, c ≠ connectionId → ∀ x,
      Baseline tenant c s' x ↔ Baseline tenant c s x := by
  have hsnapshot : ∀ c x, Snapshot tenant c s' x ↔ Snapshot tenant c s x := by
    intro c x
    unfold Snapshot
    rw [h]
  have hbaseline : ∀ c x, Baseline tenant c s' x ↔ Baseline tenant c s x := fun c x =>
    and_congr_left' (hsnapshot c x)
  refine ⟨fun c hc => ?_, fun c _ => hbaseline c⟩
  simp only [hsnapshot] at hc
  simpa only [hbaseline] using hs c hc

/-- A snapshot that is added to a connection keeps the baselines. -/
theorem Adds.keeps (h : Adds tenant connectionId s s') (hs : OneBaseline tenant s) :
    OneBaseline tenant s' ∧ ∀ c, c ≠ connectionId → ∀ x,
      Baseline tenant c s' x ↔ Baseline tenant c s x := by
  rcases h with h | ⟨snap, htenant, hconn, hbase, h⟩
  · exact keeps_of_eq h hs
  have hsnapshot : ∀ c x, Snapshot tenant c s' x ↔
      Snapshot tenant c s x ∨ x = snap ∧ c = connectionId := by
    intro c x
    unfold Snapshot
    rw [h, List.mem_append, List.mem_singleton]
    constructor
    · rintro ⟨hx | rfl, hxtenant, hxconn⟩
      · exact Or.inl ⟨hx, hxtenant, hxconn⟩
      · exact Or.inr ⟨rfl, hxconn.symm.trans hconn⟩
    · rintro (⟨hx, hxtenant, hxconn⟩ | ⟨rfl, rfl⟩)
      · exact ⟨Or.inl hx, hxtenant, hxconn⟩
      · exact ⟨Or.inr rfl, htenant, hconn⟩
  have hother : ∀ c, c ≠ connectionId → ∀ x, Baseline tenant c s' x ↔ Baseline tenant c s x := by
    intro c hc x
    unfold Baseline
    rw [hsnapshot, or_iff_left fun hnew => hc hnew.2]
  refine ⟨fun c hc => ?_, hother⟩
  by_cases hne : c = connectionId
  · subst hne
    by_cases hold : ∃ x, Baseline tenant c s x
    · -- the baseline that there was
      have hnew : ∀ x, Baseline tenant c s' x ↔ Baseline tenant c s x := by
        intro x
        unfold Baseline
        rw [hsnapshot]
        constructor
        · rintro ⟨hx | ⟨rfl, -⟩, hxbase⟩
          · exact ⟨hx, hxbase⟩
          · exact absurd hold (hbase.1 hxbase)
        · rintro ⟨hx, hxbase⟩
          exact ⟨Or.inl hx, hxbase⟩
      simp only [hnew]
      obtain ⟨x, hx, -⟩ := hold
      exact hs c ⟨x, hx⟩
    · refine ⟨snap, ⟨(hsnapshot c snap).2 (Or.inr ⟨rfl, rfl⟩), hbase.2 hold⟩, ?_⟩
      rintro x ⟨hx, hxbase⟩
      rcases (hsnapshot c x).1 hx with hx | ⟨rfl, -⟩
      · exact absurd ⟨x, hx, hxbase⟩ hold
      · rfl
  · simp only [hother c hne]
    obtain ⟨x, hx⟩ := hc
    exact hs c ⟨x, ((hsnapshot c x).1 hx).resolve_right fun hnew => hne hnew.2⟩

section Move

variable {snapshotId : String} (x : SchemaSnapshot)

theorem move_same : (x.move tenant connectionId snapshotId).id = x.id ∧
    (x.move tenant connectionId snapshotId).tenantId = x.tenantId ∧
      (x.move tenant connectionId snapshotId).connectionId = x.connectionId := by
  unfold SchemaSnapshot.move
  split
  · exact ⟨rfl, rfl, rfl⟩
  · split <;> exact ⟨rfl, rfl, rfl⟩

variable {x}

theorem move_eq_self (hconn : ¬ (x.tenantId = tenant ∧ x.connectionId = connectionId))
    (hid : x.tenantId = tenant → x.id = snapshotId → x.isBaseline = true) :
    x.move tenant connectionId snapshotId = x := by
  unfold SchemaSnapshot.move
  split
  next h => rw [← hid h.1 h.2]
  next => rfl

theorem isBaseline_move (htenant : x.tenantId = tenant) (hconn : x.connectionId = connectionId) :
    (x.move tenant connectionId snapshotId).isBaseline = true ↔ x.id = snapshotId := by
  unfold SchemaSnapshot.move
  by_cases hid : x.id = snapshotId <;> simp [htenant, hconn, hid]

end Move

/-- A baseline that is moved within a connection keeps the others. -/
theorem move_keeps {target : SchemaSnapshot} (htarget : Snapshot tenant connectionId s target)
    (h : inTable .schemaSnapshots s' = (inTable .schemaSnapshots s).map
      (SchemaSnapshot.move tenant connectionId target.id)) (hs : OneBaseline tenant s) :
    OneBaseline tenant s' ∧ ∀ c, c ≠ connectionId → ∀ x,
      Baseline tenant c s' x ↔ Baseline tenant c s x := by
  obtain ⟨hmem, htenant, hconn⟩ := htarget
  have hunique : ∀ x ∈ inTable .schemaSnapshots s, x.id = target.id → x = target :=
    fun x hx hid => eq_of_entityId_eq hx hmem hid
  have hsnapshot : ∀ c y, Snapshot tenant c s' y ↔
      ∃ x, Snapshot tenant c s x ∧ x.move tenant connectionId target.id = y := by
    intro c y
    unfold Snapshot
    rw [h, List.mem_map]
    constructor
    · rintro ⟨⟨x, hx, rfl⟩, hytenant, hyconn⟩
      obtain ⟨-, htenant', hconn'⟩ := move_same x
      exact ⟨x, ⟨hx, htenant'.symm.trans hytenant, hconn'.symm.trans hyconn⟩, rfl⟩
    · rintro ⟨x, ⟨hx, hxtenant, hxconn⟩, rfl⟩
      obtain ⟨-, htenant', hconn'⟩ := move_same x
      exact ⟨⟨x, hx, rfl⟩, htenant'.trans hxtenant, hconn'.trans hxconn⟩
  -- the snapshots of the other connections stay as they are
  have hself : ∀ c, c ≠ connectionId → ∀ x, Snapshot tenant c s x →
      x.move tenant connectionId target.id = x := by
    rintro c hc x ⟨hx, -, hxconn⟩
    refine move_eq_self (fun hown => hc (hxconn.symm.trans hown.2)) fun _ hid => ?_
    rw [hunique x hx hid, hconn] at hxconn
    exact absurd hxconn.symm hc
  have hother : ∀ c, c ≠ connectionId → ∀ x, Baseline tenant c s' x ↔ Baseline tenant c s x := by
    refine fun c hc x => and_congr_left' ((hsnapshot c x).trans ⟨?_, fun hx => ?_⟩)
    · rintro ⟨x, hx, rfl⟩
      rwa [hself c hc x hx]
    · exact ⟨x, hx, hself c hc x hx⟩
  refine ⟨fun c hc => ?_, hother⟩
  by_cases hne : c = connectionId
  · subst hne
    refine ⟨target.move tenant c target.id, ⟨(hsnapshot c _).2 ⟨target, ⟨hmem, htenant, hconn⟩, rfl⟩,
      (isBaseline_move htenant hconn).2 rfl⟩, ?_⟩
    rintro y ⟨hy, hybase⟩
    obtain ⟨x, ⟨hx, hxtenant, hxconn⟩, rfl⟩ := (hsnapshot c y).1 hy
    rw [hunique x hx ((isBaseline_move hxtenant hxconn).1 hybase)]
  · simp only [hother c hne]
    obtain ⟨y, hy⟩ := hc
    obtain ⟨x, hx, -⟩ := (hsnapshot c y).1 hy
    exact hs c ⟨x, hx⟩

theorem keeps_of_addressed {r : SchemaRequest} (h : r.Addressed tenant s)
    (hs : OneBaseline tenant s) : r.Keeps tenant s := by
  obtain ⟨svc, plant, connectionId, kind⟩ := r
  cases kind with
  | discover draw =>
    have hends : Ends plant (discoverConnectionSchema svc tenant connectionId draw) _ s :=
      discover_adds draw s
    exact hends.run.keeps hs
  | drift draw =>
    have hends : Ends plant (getConnectionSchemaDrift svc tenant connectionId draw) _ s :=
      drift_adds draw s
    exact hends.run.keeps hs
  | setBaseline snapshotId audit =>
    have hends : Ends plant (setConnectionSchemaBaseline tenant connectionId snapshotId audit) _ s :=
      setBaseline_moves snapshotId audit s
    rcases hends.run with hsame | ⟨x, htarget, hmoved⟩
    · exact keeps_of_eq hsame hs
    have hmem := htarget.1
    have htenant := htarget.2.1
    rcases h x htarget with hconn | ⟨hbase, hnone⟩
    · exact move_keeps ⟨hmem, htenant, hconn⟩ hmoved hs
    · -- neither of the two updates changes a row
      refine keeps_of_eq (hmoved.trans ?_) hs
      refine (List.map_congr_left fun y hy => move_eq_self ?_ ?_).trans (List.map_id _)
      · rintro ⟨hytenant, hyconn⟩
        exact hnone ⟨y, hy, hytenant, hyconn⟩
      · intro _ hid
        rw [eq_of_entityId_eq (t := .schemaSnapshots) hy hmem hid]
        exact hbase

end Requests

/-- **When baselines are kept**: in a sequence of requests of which each one that sets a baseline
names a snapshot of the connection that it is addressed to, every connection with snapshots has
exactly one baseline after every request, and no request changes the baseline of a connection that
it is not addressed to. -/
theorem baselines_kept (tenant : String) (s : Db d) (requests : List SchemaRequest)
    (hs : OneBaseline tenant s)
    (h : Machine.Every (SchemaRequest.step tenant) (SchemaRequest.Addressed tenant) s requests) :
    Machine.Every (SchemaRequest.step tenant) (SchemaRequest.Keeps tenant) s requests :=
  Machine.Every.of_invariant (I := OneBaseline tenant)
    (fun _ _ hs h => (keeps_of_addressed h hs).1) (fun _ _ hs h => keeps_of_addressed h hs) hs h

/-! ### Two connections -/

/-- A connector that discovers nothing in particular. -/
def emptyPlant : Plant where
  test _ := .ok ⟨true, [], none⟩
  discover _ := .ok (.obj [])

/-- A process in which every type has a connector, and texts are encrypted to themselves. -/
def openServices : Services where
  crypto :=
    { encrypt := fun _ _ data _ => data
      decrypt := fun _ text _ => .ok text
      dumps := fun _ => ""
      loads := fun _ => .ok (.obj [])
      masterKek := "kek" }
  registered _ := true

/-- A connection of the tenant `acme`. -/
def sampleConnection (id : String) : ConnectionRecord :=
  ⟨id, "acme", "postgres", "Orders", .obj [], none, "healthy", 0⟩

/-- The tenant `acme` with two connections. -/
def twoConnections : Db .sqlite :=
  Machine.exec (Transaction.commit (RepoCall.perform "acme")) Store.empty
    [.create .connections (sampleConnection "conn_a"),
      .create .connections (sampleConnection "conn_b")]

/-- A request of the example. -/
def schemaRequest (connectionId : String) (kind : SchemaKind) : SchemaRequest :=
  ⟨openServices, emptyPlant, connectionId, kind⟩

/-- The connection `conn_a` is discovered twice, and the second snapshot becomes its baseline. -/
theorem baselines_kept_second :
    Machine.Every (SchemaRequest.step "acme") (SchemaRequest.Keeps "acme") twoConnections
      [schemaRequest "conn_a" (.discover ⟨"1", 1⟩), schemaRequest "conn_a" (.discover ⟨"2", 2⟩),
        schemaRequest "conn_a" (.setBaseline (some "snap_2") ⟨"3", 3, "ops"⟩)] := by
  refine baselines_kept "acme" twoConnections _ ?_ ⟨trivial, trivial, ?_, trivial⟩
  · rintro connectionId ⟨x, hx, -⟩
    have hnone : inTable .schemaSnapshots twoConnections = [] := by decide +kernel
    rw [hnone] at hx
    cases hx
  · rintro x ⟨hx, -, hid⟩
    have hall : ((inTable .schemaSnapshots (Machine.exec (SchemaRequest.step "acme") twoConnections
        [schemaRequest "conn_a" (.discover ⟨"1", 1⟩),
          schemaRequest "conn_a" (.discover ⟨"2", 2⟩)])).all
        fun x => x.connectionId = "conn_a") = true := by decide +kernel
    exact Or.inl (of_decide_eq_true (List.all_eq_true.1 hall x hx))

/-- The baseline of `conn_b` is set as the baseline of `conn_a`, which is left without one. -/
theorem not_baselines_kept_other : ¬ ∀ requests : List SchemaRequest,
    Machine.Every (SchemaRequest.step "acme") (SchemaRequest.Keeps "acme") twoConnections
      requests := by
  intro hall
  have hevery := hall [schemaRequest "conn_a" (.discover ⟨"1", 1⟩),
    schemaRequest "conn_b" (.discover ⟨"2", 2⟩),
    schemaRequest "conn_a" (.setBaseline (some "snap_2") ⟨"3", 3, "ops"⟩)]
  have hone := hevery.2.2.1.1 "conn_a"
  have hsome : ((inTable .schemaSnapshots (Machine.exec (SchemaRequest.step "acme") twoConnections
      [schemaRequest "conn_a" (.discover ⟨"1", 1⟩), schemaRequest "conn_b" (.discover ⟨"2", 2⟩),
        schemaRequest "conn_a" (.setBaseline (some "snap_2") ⟨"3", 3, "ops"⟩)])).any
      fun x => x.tenantId = "acme" ∧ x.connectionId = "conn_a") = true := by decide +kernel
  have hnone : ((inTable .schemaSnapshots (Machine.exec (SchemaRequest.step "acme") twoConnections
      [schemaRequest "conn_a" (.discover ⟨"1", 1⟩), schemaRequest "conn_b" (.discover ⟨"2", 2⟩),
        schemaRequest "conn_a" (.setBaseline (some "snap_2") ⟨"3", 3, "ops"⟩)])).all
      fun x => x.connectionId = "conn_a" → x.isBaseline = false) = true := by decide +kernel
  obtain ⟨x, hx, hown⟩ := List.any_eq_true.1 hsome
  obtain ⟨y, ⟨⟨hy, -, hyconn⟩, hybase⟩, -⟩ := hone ⟨x, hx, of_decide_eq_true hown⟩
  have hfalse := of_decide_eq_true (List.all_eq_true.1 hnone y hy) hyconn
  rw [hybase] at hfalse
  cases hfalse

end FlowMesh.Tables
