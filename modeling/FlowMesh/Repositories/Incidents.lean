import FlowMesh.Repositories.Requests

/-!
# Incidents of circuit breakers

The reports of `IncidentManager` and `resolve_incident`, as requests on the database, and what a
sequence of them makes of a tenant's incidents: `incidents_follow_iff` says when a report that a
breaker tripped leaves exactly one active incident of the connection.
-/

namespace FlowMesh.Tables

open Python Database Transaction Async

variable {d : Dialect}

/-! ## The calls -/

namespace IncidentManager

variable (tenant : String)

/-- `report_circuit_breaker_recovered`. -/
def reportCircuitBreakerRecovered (nowStr : String) (now : ℤ) (connectionId : String) :
    Request (Option IncidentRecord) := do
  match ← getRow tenant .incidents (.getOpenForConnection connectionId) with
  | none => return none
  | some existing => do
    runCall tenant (.addTimelineEvent nowStr existing.id
      ("Canary probe succeeded. Circuit breaker CLOSED for connection '" ++ connectionId ++
        "'. System recovered."))
    runCall tenant (.updateStatus now existing.id "RECOVERED" true)
    getRow tenant .incidents (.getById .incidents existing.id)

/-- `resolve_incident`. -/
def resolveIncident (now : ℤ) (incidentId : String) : Request (Option IncidentRecord) := do
  runCall tenant (.updateStatus now incidentId "RESOLVED" true)
  getRow tenant .incidents (.getById .incidents incidentId)

end IncidentManager

/-- The calls of the manager; `draw` is the number that a new incident draws. -/
inductive IncidentCall
  | tripped (draw : Fin 9000) (now : ℤ)
      (nowStr connectionId workflowId rootCause severity : String)
  | recovered (nowStr : String) (now : ℤ) (connectionId : String)
  | resolve (now : ℤ) (incidentId : String)

/-- The program of a call. -/
def IncidentCall.program (tenant : String) : IncidentCall → Request (Option IncidentRecord)
  | .tripped draw now nowStr connectionId workflowId rootCause severity =>
    getRow tenant .incidents (.reportCircuitBreakerTripped draw now nowStr connectionId workflowId
      rootCause severity)
  | .recovered nowStr now connectionId =>
    IncidentManager.reportCircuitBreakerRecovered tenant nowStr now connectionId
  | .resolve now incidentId => IncidentManager.resolveIncident tenant now incidentId

/-- What a call of the tenant answers, and the database it leaves. -/
def IncidentCall.step (tenant : String) (s : Db d) (c : IncidentCall) :
    Except PyError (Option IncidentRecord) × Db d :=
  (c.program tenant).run (DbOp.handle d) s

/-! ## Active incidents -/

/-- The incident of the connection is open, or under investigation. -/
def IncidentRecord.activeFor (tenant connectionId : String) (x : IncidentRecord) : Bool :=
  x.tenantId = tenant && (x.connectionId = some connectionId &&
    ["OPEN", "INVESTIGATING"].contains x.status)

/-- The number of active incidents of a connection. -/
def active (tenant connectionId : String) (s : Db d) : ℕ :=
  (inTable .incidents s).countP (IncidentRecord.activeFor tenant connectionId)

/-- The incidents that `get_open_for_connection` looks among. -/
def unresolved (tenant connectionId : String) (s : Db d) : List IncidentRecord :=
  (inTable .incidents s).filter fun x => x.tenantId = tenant &&
    (x.connectionId = some connectionId &&
      ["OPEN", "INVESTIGATING", "RECOVERED"].contains x.status)

/-- No connection has two active incidents. -/
def AtMostOne (s : Db d) : Prop := ∀ tenant connectionId, active tenant connectionId s ≤ 1

/-- The incidents were rewritten one by one, and no incident became active. -/
def Calms (s s' : Db d) : Prop :=
  ∃ g : IncidentRecord → IncidentRecord, inTable .incidents s' = (inTable .incidents s).map g ∧
    ∀ tenant connectionId x, (g x).activeFor tenant connectionId = true →
      x.activeFor tenant connectionId = true

/-- The incidents were rewritten one by one, and each is active for what it was active for. -/
def KeepsActive (s s' : Db d) : Prop :=
  ∃ g : IncidentRecord → IncidentRecord, inTable .incidents s' = (inTable .incidents s).map g ∧
    ∀ tenant connectionId x, (g x).activeFor tenant connectionId =
      x.activeFor tenant connectionId

section Active

variable {tenant connectionId : String} {s s' s'' : Db d}

theorem KeepsActive.refl (s : Db d) : KeepsActive s s := ⟨id, by simp, fun _ _ _ => rfl⟩

theorem KeepsActive.trans (h : KeepsActive s s') (h' : KeepsActive s' s'') :
    KeepsActive s s'' := by
  obtain ⟨g, hg, hactive⟩ := h
  obtain ⟨g', hg', hactive'⟩ := h'
  refine ⟨g' ∘ g, by rw [hg', hg, List.map_map], fun tenant connectionId x => ?_⟩
  exact (hactive' tenant connectionId (g x)).trans (hactive tenant connectionId x)

theorem KeepsActive.calms (h : KeepsActive s s') : Calms s s' := by
  obtain ⟨g, hg, hactive⟩ := h
  exact ⟨g, hg, fun tenant connectionId x hx => by rwa [hactive] at hx⟩

theorem KeepsActive.active_eq (h : KeepsActive s s') (tenant connectionId : String) :
    active tenant connectionId s' = active tenant connectionId s := by
  obtain ⟨g, hg, hactive⟩ := h
  unfold active
  rw [hg, List.countP_map]
  exact List.countP_congr fun x _ => by rw [Function.comp_apply, hactive]

theorem Calms.atMostOne (h : Calms s s') (hs : AtMostOne s) : AtMostOne s' := by
  intro tenant connectionId
  obtain ⟨g, hg, hactive⟩ := h
  refine le_trans ?_ (hs tenant connectionId)
  unfold active
  rw [hg, List.countP_map]
  exact List.countP_mono_left fun x _ => hactive tenant connectionId x

theorem keepsActive_update {p : IncidentRecord → Bool} {f : Assignment .incidents}
    (hf : ∀ tenant connectionId x, (f.apply x).activeFor tenant connectionId =
      x.activeFor tenant connectionId) :
    KeepsActive s (s.update (Record.is .incidents p) f.rewrite) := by
  refine ⟨_, inTable_update p f s, fun tenant connectionId x => ?_⟩
  split
  · exact hf tenant connectionId x
  · rfl

theorem calms_update {p : IncidentRecord → Bool} {f : Assignment .incidents}
    (hf : ∀ tenant connectionId x, (f.apply x).activeFor tenant connectionId = false) :
    Calms s (s.update (Record.is .incidents p) f.rewrite) := by
  refine ⟨_, inTable_update p f s, fun tenant connectionId x hx => ?_⟩
  split at hx
  · rw [hf] at hx
    cases hx
  · exact hx

/-! ### Operations -/

theorem keepsActive_addTimelineEvent {nowStr incidentId message : String} {u : Unit}
    (h : (IncidentRepository.addTimelineEvent tenant nowStr incidentId message s).1 =
      .ok (u, s')) : KeepsActive s s' := by
  obtain ⟨incident?, s₁, hget, h⟩ := bind_inv h
  obtain ⟨rfl, -⟩ := getOne_inv (t := .incidents) hget
  cases incident? with
  | none =>
    obtain ⟨-, rfl⟩ := pure_inv h
    exact .refl _
  | some incident =>
    obtain ⟨n, s₂, hassign, hpure⟩ := bind_inv h
    obtain ⟨-, rfl⟩ := pure_inv hpure
    rw [assign_update hassign]
    exact keepsActive_update fun _ _ _ => rfl

theorem calms_updateStatus {now : ℤ} {incidentId status : String} {resolved : Bool} {u : Unit}
    (hstatus : ["OPEN", "INVESTIGATING"].contains status = false)
    (h : (IncidentRepository.updateStatus tenant now incidentId status resolved s).1 =
      .ok (u, s')) : Calms s s' := by
  obtain ⟨n, s₁, hassign, hpure⟩ := bind_inv h
  obtain ⟨-, rfl⟩ := pure_inv hpure
  rw [assign_update hassign]
  apply calms_update
  intro tenant connectionId x
  simp only [IncidentRecord.activeFor, hstatus, Bool.and_false]

theorem fst_getOpenForConnection (tenant connectionId : String) (s : Db d) :
    (IncidentRepository.getOpenForConnection tenant connectionId s).1 =
      .ok ((IncidentRepository.orderIncidents (unresolved tenant connectionId s)).head?, s) := by
  unfold IncidentRepository.getOpenForConnection
  rw [fst_bind, fst_fetchOwn]
  change (scalarOneOrNone ((IncidentRepository.orderIncidents
    (unresolved tenant connectionId s)).take 1) s).1 = _
  cases IncidentRepository.orderIncidents (unresolved tenant connectionId s) with
  | nil => rfl
  | cons x l => rfl

/-- What a report of a tripped breaker does: if the connection has an unresolved incident, no
incident becomes active or stops to be, and otherwise a new one is opened, if it can be stored. -/
inductive Trips (tenant connectionId : String) (x : IncidentRecord) (s : Db d) : Db d → Prop
  | updated {s' : Db d} (hsome : unresolved tenant connectionId s ≠ []) (h : KeepsActive s s') :
      Trips tenant connectionId x s s'
  | opened {s' : Db d} (hnone : unresolved tenant connectionId s = [])
      (hfits : s.fits ⟨.incidents, x⟩ = true)
      (h : inTable .incidents s' = inTable .incidents s ++ [x]) :
      Trips tenant connectionId x s s'
  | refused (hnone : unresolved tenant connectionId s = [])
      (hfits : s.fits ⟨.incidents, x⟩ = false) : Trips tenant connectionId x s s

theorem orderIncidents_eq_nil {l : List IncidentRecord} :
    IncidentRepository.orderIncidents l = [] ↔ l = [] := by
  rw [← List.length_eq_zero_iff, IncidentRepository.orderIncidents, orderBy,
    List.length_insertionSort, List.length_eq_zero_iff]

theorem trips (tenant : String) (draw : Fin 9000) (now : ℤ)
    (nowStr connectionId workflowId rootCause severity : String) (s : Db d) :
    Trips tenant connectionId (IncidentManager.incident tenant draw now nowStr connectionId
        workflowId rootCause severity) s
      (committed (IncidentManager.reportCircuitBreakerTripped tenant draw now nowStr connectionId
        workflowId rootCause severity) s).2 := by
  have hopen := fst_getOpenForConnection tenant connectionId s
  cases hx : (IncidentRepository.orderIncidents (unresolved tenant connectionId s)).head? with
  | some existing =>
    rw [hx] at hopen
    have hsome : unresolved tenant connectionId s ≠ [] := by
      intro hnil
      rw [orderIncidents_eq_nil.2 hnil] at hx
      cases hx
    refine .updated hsome (committed_rec (.refl s) fun r s' hr => ?_)
    obtain ⟨x?, s₁, hget, h⟩ := bind_inv hr
    rw [hopen] at hget
    cases hget
    obtain ⟨_, s₂, htimeline, h⟩ := bind_inv h
    obtain ⟨_, s₃, hflush, h⟩ := bind_inv h
    obtain ⟨-, rfl⟩ := pure_inv h
    obtain ⟨n, s₄, hassign, h⟩ := bind_inv hflush
    obtain ⟨-, rfl⟩ := pure_inv h
    refine (keepsActive_addTimelineEvent htimeline).trans ?_
    rw [assign_update hassign]
    exact keepsActive_update fun _ _ _ => rfl
  | none =>
    rw [hx] at hopen
    have hnone : unresolved tenant connectionId s = [] :=
      orderIncidents_eq_nil.1 (List.head?_eq_none_iff.1 hx)
    have hfst : (IncidentManager.reportCircuitBreakerTripped tenant draw now nowStr connectionId
        workflowId rootCause severity s).1 = (TenantScopedRepository.create tenant .incidents
          (IncidentManager.incident tenant draw now nowStr connectionId workflowId rootCause
            severity) s).1 := by
      unfold IncidentManager.reportCircuitBreakerTripped
      rw [fst_bind, hopen]
    rcases hr : (TenantScopedRepository.create tenant .incidents
        (IncidentManager.incident tenant draw now nowStr connectionId workflowId rootCause
          severity) s).1 with e | ⟨x, s'⟩
    · rw [committed_of_error (hfst.trans hr)]
      refine .refused hnone ?_
      by_contra hfits
      rw [Bool.not_eq_false] at hfits
      obtain ⟨s', hcreate⟩ := create_of_fits tenant (t := .incidents)
        (IncidentManager.incident tenant draw now nowStr connectionId workflowId rootCause
          severity) hfits
      rw [hr] at hcreate
      cases hcreate
    · rw [committed_of_ok (hfst.trans hr)]
      obtain ⟨_, s₁, hinsert, hpure⟩ := bind_inv hr
      obtain ⟨-, rfl⟩ := pure_inv hpure
      obtain ⟨hfits, hrows⟩ := insert_inv hinsert
      exact .opened hnone hfits (inTable_insert hrows)

/-! ### Calls -/

/-- The operations that the calls consist of. -/
def RepoCall.Incidental : RepoCall → Prop
  | .reportCircuitBreakerTripped .. => True
  | .getOpenForConnection _ => True
  | .addTimelineEvent .. => True
  | .updateStatus _ _ status _ => ["OPEN", "INVESTIGATING"].contains status = false
  | .getById t _ => t = .incidents
  | _ => False

/-- An active incident is unresolved. -/
theorem active_eq_zero (h : unresolved tenant connectionId s = []) :
    active tenant connectionId s = 0 := by
  refine List.countP_eq_zero.2 fun x hx hactive => List.filter_eq_nil_iff.1 h x hx ?_
  simp only [IncidentRecord.activeFor, Bool.and_eq_true, decide_eq_true_eq] at hactive ⊢
  obtain ⟨htenant, hconnection, hstatus⟩ := hactive
  refine ⟨htenant, hconnection, ?_⟩
  simp only [List.contains_cons, List.contains_nil, Bool.or_false, Bool.or_eq_true] at hstatus ⊢
  exact hstatus.imp_right Or.inl

theorem Trips.atMostOne {x : IncidentRecord} (h : Trips tenant connectionId x s s')
    (hx : x.tenantId = tenant ∧ x.connectionId = some connectionId) (hs : AtMostOne s) :
    AtMostOne s' := by
  cases h with
  | updated _ h => exact h.calms.atMostOne hs
  | refused _ _ => exact hs
  | opened hnone _ h =>
    intro tenant' connectionId'
    unfold active
    rw [h, List.countP_append, List.countP_singleton]
    split
    next hactive =>
      -- there was no active incident of the connection
      obtain ⟨htenant, hconnection⟩ := hx
      simp only [IncidentRecord.activeFor, htenant, hconnection, Bool.and_eq_true,
        decide_eq_true_eq, Option.some.injEq] at hactive
      obtain ⟨rfl, rfl, -⟩ := hactive
      have hzero := active_eq_zero hnone
      unfold active at hzero
      omega
    next => exact hs tenant' connectionId'

theorem atMostOne_handle (htenant : tenant ≠ "") {c : RepoCall} (hc : c.Incidental)
    (hs : AtMostOne s) : AtMostOne (DbOp.handle d (.repo tenant c) s).2 := by
  have hwork : (DbOp.repo tenant c).work = (c.body tenant : Query d Answer) := work_repo htenant c
  have hread : ∀ {m : Query d (Option IncidentRecord)}, c.body tenant = answerRow? .incidents m →
      (∀ a s', (m s).1 = .ok (a, s') → s' = s) →
        AtMostOne (DbOp.handle d (.repo tenant c) s).2 := by
    intro m hm hsame
    rw [handle_answer (hwork.trans hm)]
    exact committed_rec hs fun a s' h => hsame a s' h ▸ hs
  cases c with
  | reportCircuitBreakerTripped draw now nowStr connectionId workflowId rootCause severity =>
    rw [handle_answer hwork]
    exact (trips tenant draw now nowStr connectionId workflowId rootCause severity s).atMostOne
      ⟨rfl, rfl⟩ hs
  | getOpenForConnection connectionId =>
    exact hread rfl fun a s' h => (getOpenForConnection_inv h).1
  | addTimelineEvent nowStr incidentId message =>
    rw [handle_answer hwork]
    exact committed_rec hs fun _ _ h => (keepsActive_addTimelineEvent h).calms.atMostOne hs
  | updateStatus now incidentId status resolved =>
    rw [handle_answer hwork]
    exact committed_rec hs fun _ _ h => (calms_updateStatus hc h).atMostOne hs
  | getById t entityId =>
    cases hc
    exact hread rfl fun a s' h => (getOne_inv (t := .incidents) h).1
  | _ => exact hc.elim

/-- The operations of a tenant's calls. -/
def DbOp.Incidental (tenant : String) : DbOp → Prop
  | .repo tenant' c => tenant' = tenant ∧ c.Incidental
  | _ => False

theorem uses_program (tenant : String) (c : IncidentCall) :
    (c.program tenant).Uses (DbOp.Incidental tenant) := by
  have hrow : ∀ c : RepoCall, c.Incidental →
      (getRow tenant .incidents c).Uses (DbOp.Incidental tenant) := fun c hc =>
    .bind (.perform ⟨rfl, hc⟩) fun _ => .ret _
  have hcall : ∀ c : RepoCall, c.Incidental → (runCall tenant c).Uses (DbOp.Incidental tenant) :=
    fun c hc => .bind (.perform ⟨rfl, hc⟩) fun _ => .ret _
  cases c with
  | tripped => exact hrow _ trivial
  | recovered nowStr now connectionId =>
    refine .bind (hrow _ trivial) fun existing? => ?_
    cases existing? with
    | none => exact .ret _
    | some existing =>
      have hrecovered : ["OPEN", "INVESTIGATING"].contains "RECOVERED" = false := by decide
      exact .bind (hcall _ trivial) fun _ => .bind (hcall _ hrecovered) fun _ => hrow _ rfl
  | resolve now incidentId =>
    have hresolved : ["OPEN", "INVESTIGATING"].contains "RESOLVED" = false := by decide
    exact .bind (hcall _ hresolved) fun _ => hrow _ rfl

end Active

/-! ## The incidents of other tenants -/

section Others

variable {a b : String} {s : Db d}

/-- What a tenant's operation needs in order to be answered without regard to the rows of
another. -/
def IncidentCall.Clear (b a : String) (s : Db d) : IncidentCall → Prop
  | .tripped draw now nowStr connectionId workflowId rootCause severity =>
    (RepoCall.reportCircuitBreakerTripped draw now nowStr connectionId workflowId rootCause
      severity).Clear b a s
  | _ => True

/-- The incident of a report is stored without regard to another tenant if it fits where that one
has no rows exactly if it fits. -/
instance IncidentCall.Clear.decidable :
    (c : IncidentCall) → Decidable (c.Clear b a s)
  | .tripped draw now nowStr connectionId workflowId rootCause severity =>
    let row : Record := ⟨.incidents, IncidentManager.incident b draw now nowStr connectionId
      workflowId rootCause severity⟩
    decidable_of_iff (unresolved b connectionId s = [] → (s.without a).fits row = s.fits row) (by
      refine imp_congr ?_ indifferent_iff.symm
      rw [fst_getOpenForConnection]
      simp only [Except.ok.injEq, Prod.mk.injEq, List.head?_eq_none_iff, orderIncidents_eq_nil,
        exists_and_left, exists_eq', and_true])
  | .recovered .. => .isTrue trivial
  | .resolve .. => .isTrue trivial

theorem handle_without (hab : b ≠ a) {c : RepoCall} (hc : c.Clear b a s) :
    DbOp.handle d (.repo b c) (s.without a) =
      ((DbOp.handle d (.repo b c) s).1, (DbOp.handle d (.repo b c) s).2.without a) := by
  have hblind : Blind a (DbOp.work (.repo b c)) s := (blind_perform_iff hab c s).2 fun _ => hc
  obtain ⟨hanswer, heffect, -, -⟩ := blind_iff_commit.1 hblind
  exact Prod.ext hanswer.symm heffect.symm

/-- A call whose incident can be stored without regard to another tenant is answered as if that
tenant had no rows. -/
theorem step_without (hab : b ≠ a) {c : IncidentCall} (hc : c.Clear b a s) :
    c.step b (s.without a) = ((c.step b s).1, (c.step b s).2.without a) := by
  unfold IncidentCall.step
  refine Prog.run_view (fun s : Db d => s.without a) ?_
  have hread : ∀ {α : Type} {p : Request α},
      p.Uses (fun o => ∃ c : RepoCall, o = .repo b c ∧ ∀ s : Db d, c.Clear b a s) →
      p.Along (DbOp.handle d) (fun o s => DbOp.handle d o (s.without a) =
        ((DbOp.handle d o s).1, (DbOp.handle d o s).2.without a)) s := by
    intro α p hp
    refine hp.along (fun o s ho => ?_) s
    obtain ⟨c, rfl, hc⟩ := ho
    exact handle_without hab (hc s)
  cases c with
  | tripped draw now nowStr connectionId workflowId rootCause severity =>
    exact Prog.along_bind_iff.2 ⟨Prog.along_perform_iff.2 (handle_without hab hc),
      fun _ _ => trivial⟩
  | recovered nowStr now connectionId =>
    apply hread
    refine .bind (.bind (.perform ⟨_, rfl, fun _ => trivial⟩) fun _ => .ret _) fun existing? => ?_
    cases existing? with
    | none => exact .ret _
    | some existing =>
      refine .bind (.bind (.perform ⟨_, rfl, fun _ => trivial⟩) fun _ => .ret _) fun _ => ?_
      refine .bind (.bind (.perform ⟨_, rfl, fun _ => trivial⟩) fun _ => .ret _) fun _ => ?_
      exact .bind (.perform ⟨_, rfl, fun _ => trivial⟩) fun _ => .ret _
  | resolve now incidentId =>
    apply hread
    refine .bind (.bind (.perform ⟨_, rfl, fun _ => trivial⟩) fun _ => .ret _) fun _ => ?_
    exact .bind (.perform ⟨_, rfl, fun _ => trivial⟩) fun _ => .ret _

theorem confined_assignOwn {t : Table} (p : Row t → Bool) (f : Assignment t) :
    Confined a (assignOwn a t p f) s := by
  apply confined_update
  intro r _ hr
  obtain ⟨x, rfl, hx⟩ := Record.is_iff.1 hr
  simp only [Bool.and_eq_true, decide_eq_true_eq] at hx
  exact hx.1

theorem confined_addTimelineEvent (nowStr incidentId message : String) :
    Confined a (IncidentRepository.addTimelineEvent a nowStr incidentId message) s := by
  apply confined_bind (confined_of_unchanged fun _ _ h => (getOne_inv (t := .incidents) h).1)
  intro incident? s' _
  cases incident? with
  | none => exact confined_of_unchanged fun _ _ h => (pure_inv h).2
  | some incident => exact confined_map (confined_assignOwn _ _)

/-- The flush of an object of the tenant. -/
theorem confined_flush {t : Table} {entityId : String} (f : Assignment t)
    (h : s.Owns a (t, entityId)) : Confined a (flush t entityId f) s := by
  apply confined_map
  apply confined_update
  intro r hr hp
  obtain ⟨x, rfl, hx⟩ := Record.is_iff.1 hp
  obtain ⟨q, hq, howner, hname⟩ := h
  rw [← howner]
  congr 1
  apply Store.eq_of_name_eq hr hq
  rw [hname]
  exact congrArg (Prod.mk t) (of_decide_eq_true hx)

theorem confined_reportCircuitBreakerTripped (draw : Fin 9000) (now : ℤ)
    (nowStr connectionId workflowId rootCause severity : String) :
    Confined a (IncidentManager.reportCircuitBreakerTripped a draw now nowStr connectionId
      workflowId rootCause severity) s := by
  apply confined_bind (confined_of_unchanged fun _ _ h => (getOpenForConnection_inv h).1)
  intro existing? s' hget
  obtain ⟨rfl, hown⟩ := getOpenForConnection_inv hget
  cases existing? with
  | none => exact confined_map (confined_insert rfl)
  | some existing =>
    apply confined_bind (confined_addTimelineEvent _ _ _)
    intro _ s₁ hadd
    exact confined_map (confined_flush _ (owns_addTimelineEvent (hown existing rfl) hadd))

theorem confined_perform {c : RepoCall} (hc : c.Incidental) : Confined a (c.perform a) s := by
  unfold RepoCall.perform
  split
  · intro x s' h
    cases h
  cases c with
  | reportCircuitBreakerTripped =>
    exact confined_map (confined_reportCircuitBreakerTripped _ _ _ _ _ _ _)
  | getOpenForConnection =>
    exact confined_map (confined_of_unchanged fun _ _ h => (getOpenForConnection_inv h).1)
  | addTimelineEvent => exact confined_map (confined_addTimelineEvent _ _ _)
  | updateStatus => exact confined_map (confined_map (confined_assignOwn _ _))
  | getById t entityId =>
    obtain rfl : t = .incidents := hc
    exact confined_map (confined_of_unchanged fun _ _ h => (getOne_inv (t := .incidents) h).1)
  | _ => exact hc.elim

/-- A call leaves the rows of the other tenants alone. -/
theorem without_step (c : IncidentCall) : (c.step a s).2.without a = s.without a := by
  refine (uses_program a c).run_induction (I := fun s' => s'.without a = s.without a)
    (DbOp.handle d) (fun o s' ho h => ?_) rfl
  cases o with
  | repo tenant c =>
    obtain ⟨rfl, hc⟩ := ho
    exact (without_commit (confined_perform hc)).trans h
  | commit | commitNothing | refresh => exact ho.elim

end Others

/-! ## Sequences of calls -/

/-- At every moment of the call no connection has two active incidents, and a report that a breaker
tripped leaves exactly one of its connection. -/
def IncidentCall.Follows (tenant : String) (s : Db d) (c : IncidentCall) : Prop :=
  (c.program tenant).Along (DbOp.handle d) (fun _ s => AtMostOne s) s ∧
    AtMostOne (c.step tenant s).2 ∧
    match c with
    | .tripped _ _ _ connectionId _ _ _ => active tenant connectionId (c.step tenant s).2 = 1
    | _ => True

/-- A report that a breaker tripped finds an active incident of the connection, or it finds no
unresolved one and the incident that it draws can be stored. -/
def IncidentCall.Opens (tenant : String) (s : Db d) : IncidentCall → Prop
  | .tripped draw now nowStr connectionId workflowId rootCause severity =>
    active tenant connectionId s ≠ 0 ∨ unresolved tenant connectionId s = [] ∧
      s.fits ⟨.incidents, IncidentManager.incident tenant draw now nowStr connectionId workflowId
        rootCause severity⟩ = true
  | _ => True

variable {tenant : String} {s : Db d}

theorem atMostOne_along (htenant : tenant ≠ "") (c : IncidentCall) (hs : AtMostOne s) :
    (c.program tenant).Along (DbOp.handle d) (fun _ s => AtMostOne s) s ∧
      AtMostOne (c.step tenant s).2 := by
  have hstep : ∀ (o : DbOp) (s : Db d), o.Incidental tenant → AtMostOne s →
      AtMostOne (DbOp.handle d o s).2 := by
    intro o s ho hs
    cases o with
    | repo tenant' c =>
      obtain ⟨rfl, hc⟩ := ho
      exact atMostOne_handle htenant hc hs
    | commit | commitNothing | refresh => exact ho.elim
  exact ⟨.of_uses (uses_program tenant c) hstep hs,
    (uses_program tenant c).run_induction (DbOp.handle d) hstep hs⟩

theorem follows_iff_opens (htenant : tenant ≠ "") (c : IncidentCall) (hs : AtMostOne s) :
    c.Follows tenant s ↔ c.Opens tenant s := by
  obtain ⟨halong, hafter⟩ := atMostOne_along htenant c hs
  cases c with
  | tripped draw now nowStr connectionId workflowId rootCause severity =>
    refine (and_iff_right halong).trans ((and_iff_right hafter).trans ?_)
    have hone := hs tenant connectionId
    have hstep : ((IncidentCall.tripped draw now nowStr connectionId workflowId rootCause
        severity).step tenant s).2 = (committed (IncidentManager.reportCircuitBreakerTripped tenant
          draw now nowStr connectionId workflowId rootCause severity) s).2 :=
      congrArg Prod.snd (run_getRow_some htenant rfl s)
    have htrips := trips tenant draw now nowStr connectionId workflowId rootCause severity s
    rw [← hstep] at htrips
    dsimp only [IncidentCall.Opens]
    generalize ((IncidentCall.tripped draw now nowStr connectionId workflowId rootCause
      severity).step tenant s).2 = s' at htrips ⊢
    cases htrips with
    | updated hsome h =>
      rw [h.active_eq]
      constructor
      · intro hactive
        exact Or.inl (by omega)
      · rintro (hactive | ⟨hnone, -⟩)
        · omega
        · exact absurd hnone hsome
    | opened hnone hfits h =>
      have hnew : active tenant connectionId s' = active tenant connectionId s + 1 := by
        unfold active
        rw [h, List.countP_append, List.countP_singleton]
        simp [IncidentRecord.activeFor, IncidentManager.incident]
      have hzero := active_eq_zero hnone
      exact iff_of_true (by omega) (Or.inr ⟨hnone, hfits⟩)
    | refused hnone hfits =>
      have hzero := active_eq_zero hnone
      refine iff_of_false (by omega) ?_
      rintro (hactive | ⟨-, hfits'⟩)
      · exact hactive hzero
      · rw [hfits] at hfits'
        cases hfits'
  | recovered => exact iff_of_true ⟨halong, hafter, trivial⟩ trivial
  | resolve => exact iff_of_true ⟨halong, hafter, trivial⟩ trivial

/-- **When incidents follow the breaker**: in a sequence of calls, no connection has two active
incidents at any moment and every report of a tripped breaker leaves exactly one of its
connection, exactly if every such report finds an active incident, or finds none that is
unresolved and draws one that can be stored. -/
theorem incidents_follow_iff (htenant : tenant ≠ "") (hs : AtMostOne s)
    (calls : List IncidentCall) :
    Machine.Every (IncidentCall.step tenant) (IncidentCall.Follows tenant) s calls ↔
      Machine.Every (IncidentCall.step tenant) (IncidentCall.Opens tenant) s calls :=
  Machine.every_iff_of_invariant (I := AtMostOne) (fun _ c hs => (atMostOne_along htenant c hs).2)
    (fun _ c hs => follows_iff_opens htenant c hs) hs calls

/-! ### A breaker that trips again -/

/-- The breaker of the connection trips. -/
def breakerTrips (draw : Fin 9000) : IncidentCall :=
  .tripped draw 0 "12:00:00" "conn_pg_01" "wf_01" "timeout" "HIGH"

/-- The breaker trips twice, its incident is resolved, and it trips once more. -/
theorem incidents_follow_resolved :
    Machine.Every (IncidentCall.step "acme") (IncidentCall.Follows "acme")
      (Store.empty : Db .sqlite)
      [breakerTrips 0, breakerTrips 1, .resolve 1 "INC-1000", breakerTrips 2] := by
  refine (incidents_follow_iff (by decide) ?_ _).2 ?_
  · intro tenant connectionId
    exact Nat.zero_le _
  · refine ⟨Or.inr (by decide), Or.inl (by decide), trivial, Or.inr (by decide), trivial⟩

/-- The breaker trips, recovers and trips again: the incident stays recovered. -/
theorem not_follows_recovered : ¬ ∀ calls : List IncidentCall,
    Machine.Every (IncidentCall.step "acme") (IncidentCall.Follows "acme")
      (Store.empty : Db .sqlite) calls := by
  intro hall
  have hevery := hall [breakerTrips 0, .recovered "12:05:00" 1 "conn_pg_01", breakerTrips 1]
  have hone : active "acme" "conn_pg_01" _ = 1 := hevery.2.2.1.2.2
  revert hone
  decide

end FlowMesh.Tables
