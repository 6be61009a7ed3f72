import FlowMesh.Library.ReadModifyWrite
import FlowMesh.Repositories.Incidents
import Mathlib.Data.List.FinRange

/-!
# Timelines under concurrent calls

`add_timeline_event` reads the timeline of an incident and, an `await` later, writes it back with an
entry more; the reports of `IncidentManager` do it as well, for the incident that they find. Here
calls take turns: a turn is one query of one call, committed, and they come in any order. Each call
has a session of its own, which keeps the incident that it loaded first, so that a report writes the
timeline that its look-up by connection read, although `get_by_id` asks for the row once more.

The calls are the parties of a `ReadModifyWrite`, whose other turns do not touch the timeline
(`next_moves`). So an entry is lost when another call wrote in between, and `timeline_iff` says that
this is the only way to lose one.
-/

namespace FlowMesh.Timelines

open Python Database Transaction Tables

variable {d : Dialect}

/-! ## The calls -/

/-- The calls that add an event to a timeline. -/
inductive TimelineCall
  | add (nowStr incidentId message : String)
  | tripped (draw : Fin 9000) (now : ℤ)
      (nowStr connectionId workflowId rootCause severity : String)
  | recovered (nowStr : String) (now : ℤ) (connectionId : String)

/-- The entry that a call adds. -/
def TimelineCall.entry : TimelineCall → TimelineEntry
  | .add nowStr _ message => ⟨nowStr, message⟩
  | .tripped _ _ nowStr connectionId workflowId _ _ =>
    ⟨nowStr, "Circuit breaker OPEN for connection '" ++ connectionId ++ "'. Workflow '" ++
      workflowId ++ "' failed fast."⟩
  | .recovered nowStr _ connectionId =>
    ⟨nowStr, "Canary probe succeeded. Circuit breaker CLOSED for connection '" ++ connectionId ++
      "'. System recovered."⟩

/-- How far a call is. -/
inductive Phase
  | start
  /-- A report holds the incident of its connection. -/
  | found (existing : IncidentRecord)
  /-- `add_timeline_event` has read the incident. -/
  | ready (incident : IncidentRecord)
  /-- A report has found no incident. -/
  | opening
  /-- `add_timeline_event` is over, in a report that goes on. -/
  | added (incidentId : String)
  /-- The status is updated as well. -/
  | updated (incidentId : String)
  | ended
  | raised

/-- The update of `add_timeline_event`, for a timeline that it has read. -/
def writeTimeline (tenant incidentId : String) (timeline : List TimelineEntry)
    (entry : TimelineEntry) : Query d Unit := do
  let _ ← assignOwn tenant .incidents (fun r => r.id = incidentId)
    (IncidentRepository.setTimeline (timeline ++ [entry]))

/-- The flush of `existing.affected_workflows`, if the workflow is new there. -/
def flushWorkflows (existing : IncidentRecord) (workflowId : String) : Query d Unit :=
  if existing.affectedWorkflows.contains workflowId then pure ()
  else flush .incidents existing.id
    (IncidentManager.setAffectedWorkflows (existing.affectedWorkflows ++ [workflowId]))

/-- A query, committed, and how far the call is then. -/
def andThen {α : Type} (m : Query d α) (k : α → Phase) (s : Db d) : Phase × Db d :=
  match committed m s with
  | (.ok a, s') => (k a, s')
  | (.error _, s') => (.raised, s')

open TenantScopedRepository IncidentRepository in
/-- The next turn of a call. -/
def TimelineCall.next (tenant : String) (c : TimelineCall) (p : Phase) : Db d → Phase × Db d :=
  match c, p with
  | .add _ incidentId _, .start => andThen (getById tenant .incidents incidentId) fun
    | none => .ended
    | some incident => .ready incident
  | .add _ incidentId _, .ready incident =>
    andThen (writeTimeline tenant incidentId incident.timeline c.entry) fun _ => .ended
  | .tripped _ _ _ connectionId _ _ _, .start =>
    andThen (getOpenForConnection tenant connectionId) fun
    | none => .opening
    | some existing => .found existing
  | .tripped draw now nowStr connectionId workflowId rootCause severity, .opening =>
    andThen (create tenant .incidents (IncidentManager.incident tenant draw now nowStr connectionId
      workflowId rootCause severity)) fun _ => .ended
  | .tripped .., .found existing => andThen (getById tenant .incidents existing.id) fun
    | none => .ended
    | some _ => .ready existing
  | .tripped _ _ _ _ workflowId _ _, .ready existing => andThen (do
      writeTimeline tenant existing.id existing.timeline c.entry
      flushWorkflows existing workflowId) fun _ => .ended
  | .recovered _ _ connectionId, .start => andThen (getOpenForConnection tenant connectionId) fun
    | none => .ended
    | some existing => .found existing
  | .recovered .., .found existing => andThen (getById tenant .incidents existing.id) fun
    | none => .added existing.id
    | some _ => .ready existing
  | .recovered .., .ready existing =>
    andThen (writeTimeline tenant existing.id existing.timeline c.entry) fun _ =>
      .added existing.id
  | .recovered _ now _, .added incidentId =>
    andThen (updateStatus tenant now incidentId "RECOVERED" true) fun _ => .updated incidentId
  | .recovered .., .updated incidentId =>
    andThen (getById tenant .incidents incidentId) fun _ => .ended
  | _, p => fun s => (p, s)

/-- The database, and how far each of the calls is. -/
structure Desk (d : Dialect) (n : ℕ) where
  db : Db d
  phases : Fin n → Phase

/-- No call has begun. -/
def Desk.start (s : Db d) (n : ℕ) : Desk d n := ⟨s, fun _ => .start⟩

/-- A turn of one of the calls. -/
def turn (tenant : String) (calls : List TimelineCall) (b : Desk d calls.length)
    (i : Fin calls.length) : Unit × Desk d calls.length :=
  let (p, s) := (calls.get i).next tenant (b.phases i) b.db
  ((), ⟨s, Function.update b.phases i p⟩)

/-- The timeline of an incident. -/
def timelineOf (incidentId : String) (s : Db d) : List TimelineEntry :=
  ((inTable .incidents s).find? fun x => x.id = incidentId).elim [] (·.timeline)

/-- The call is for the incident: by its id, or because the incident is what the report finds. -/
def TimelineCall.On (tenant incidentId : String) (s : Db d) : TimelineCall → Prop
  | .add _ id _ => id = incidentId
  | .tripped _ _ _ connectionId _ _ _ | .recovered _ _ connectionId =>
    ∃ x, (IncidentRepository.getOpenForConnection tenant connectionId s).1 = .ok (some x, s) ∧
      x.id = incidentId

/-- A call that writes finds the timeline that it has read. -/
def Timely {n : ℕ} (b : Desk d n) (i : Fin n) : Prop :=
  ∀ incident, b.phases i = .ready incident → timelineOf incident.id b.db = incident.timeline

/-! ### A call on its own -/

section Alone

variable {α : Type} {m : Query d α} {k : α → Phase} {s s' : Db d} {tenant : String}

theorem andThen_ok {a : α} (h : (m s).1 = .ok (a, s')) : andThen m k s = (k a, s') := by
  rw [andThen, committed_of_ok h]

theorem andThen_error {e : PyError} (h : (m s).1 = .error e) : andThen m k s = (.raised, s) := by
  rw [andThen, committed_of_error h]

/-- Without another call in between, two turns are `add_timeline_event`. -/
theorem next_next_add (nowStr incidentId message : String) :
    let c := TimelineCall.add nowStr incidentId message
    (c.next tenant (c.next tenant .start s).1 (c.next tenant .start s).2).2 =
      (committed (IncidentRepository.addTimelineEvent tenant nowStr incidentId message) s).2 := by
  intro c
  have hwhole : (IncidentRepository.addTimelineEvent tenant nowStr incidentId message s).1 =
      match (TenantScopedRepository.getById tenant .incidents incidentId s).1 with
      | .ok (none, s') => .ok ((), s')
      | .ok (some incident, s') =>
        (writeTimeline tenant incidentId incident.timeline c.entry s').1
      | .error e => .error e := by
    unfold IncidentRepository.addTimelineEvent
    rw [fst_bind]
    rcases (TenantScopedRepository.getById tenant .incidents incidentId s).1 with
      e | ⟨_ | incident, s'⟩ <;> rfl
  rcases hget : (TenantScopedRepository.getById tenant .incidents incidentId s).1 with
    e | ⟨_ | incident, s'⟩
  · rw [hget] at hwhole
    rw [show c.next tenant .start s = (.raised, s) from andThen_error hget,
      committed_of_error hwhole]
    rfl
  · rw [hget] at hwhole
    rw [show c.next tenant .start s = (.ended, s') from andThen_ok hget, committed_of_ok hwhole]
    rfl
  · rw [hget] at hwhole
    obtain ⟨rfl, -⟩ := getOne_inv (t := .incidents) hget
    rw [show c.next tenant .start s' = (.ready incident, s') from andThen_ok hget]
    rcases hwrite : (writeTimeline tenant incidentId incident.timeline c.entry s').1 with
      e | ⟨u, s''⟩
    · rw [committed_of_error (hwhole.trans hwrite)]
      exact congrArg Prod.snd (andThen_error hwrite)
    · rw [committed_of_ok (hwhole.trans hwrite)]
      exact congrArg Prod.snd (andThen_ok hwrite)

end Alone

/-! ## What a turn keeps -/

/-- `get_open_for_connection` looks at the incident. -/
def unresolvedFor (tenant connectionId : String) (x : IncidentRecord) : Bool :=
  x.tenantId = tenant && (x.connectionId = some connectionId &&
    ["OPEN", "INVESTIGATING", "RECOVERED"].contains x.status)

/-- The incidents were rewritten one by one, and `get_open_for_connection` looks at the same ones in
the same order. -/
def KeepsUnresolved (s s' : Db d) : Prop :=
  ∃ g : IncidentRecord → IncidentRecord, inTable .incidents s' = (inTable .incidents s).map g ∧
    ∀ x ∈ inTable .incidents s, (g x).id = x.id ∧ (g x).tenantId = x.tenantId ∧
      (g x).openedAt = x.openedAt ∧ ∀ tenant connectionId,
        unresolvedFor tenant connectionId (g x) = unresolvedFor tenant connectionId x

section Keeps

variable {tenant connectionId : String} {s s' s'' : Db d} {x : IncidentRecord}

theorem KeepsUnresolved.refl (s : Db d) : KeepsUnresolved s s :=
  ⟨id, by rw [List.map_id], fun _ _ => ⟨rfl, rfl, rfl, fun _ _ => rfl⟩⟩

theorem KeepsUnresolved.trans (h : KeepsUnresolved s s') (h' : KeepsUnresolved s' s'') :
    KeepsUnresolved s s'' := by
  obtain ⟨g, hg, hkeeps⟩ := h
  obtain ⟨g', hg', hkeeps'⟩ := h'
  refine ⟨g' ∘ g, by rw [hg', hg, List.map_map], fun x hx => ?_⟩
  obtain ⟨hid, htenant, hopened, hunresolved⟩ := hkeeps x hx
  obtain ⟨hid', htenant', hopened', hunresolved'⟩ :=
    hkeeps' (g x) (by rw [hg]; exact List.mem_map_of_mem hx)
  refine ⟨hid'.trans hid, htenant'.trans htenant, hopened'.trans hopened, ?_⟩
  intro tenant connectionId
  exact (hunresolved' tenant connectionId).trans (hunresolved tenant connectionId)

theorem keepsUnresolved_update {p : IncidentRecord → Bool} {f : Assignment .incidents}
    (hopened : ∀ x, (f.apply x).openedAt = x.openedAt)
    (hunresolved : ∀ x ∈ inTable .incidents s, p x = true → ∀ tenant connectionId,
      unresolvedFor tenant connectionId (f.apply x) = unresolvedFor tenant connectionId x) :
    KeepsUnresolved s (s.update (Record.is .incidents p) f.rewrite) := by
  refine ⟨_, inTable_update p f s, fun x hx => ?_⟩
  split
  next hp => exact ⟨f.entityId_apply x, f.owner_apply x, hopened x, hunresolved x hx hp⟩
  next => exact ⟨rfl, rfl, rfl, fun _ _ => rfl⟩

theorem timelineOf_eq (hx : x ∈ inTable .incidents s) : timelineOf x.id s = x.timeline := by
  have hfilter : (inTable .incidents s).filter (fun y => y.id = x.id) = [x] := filter_entityId hx
  rw [timelineOf, ← List.head?_filter, hfilter]
  rfl

theorem timelineOf_update {p : IncidentRecord → Bool} {f : Assignment .incidents}
    (hx : x ∈ inTable .incidents s) :
    timelineOf x.id (s.update (Record.is .incidents p) f.rewrite) =
      if p x then (f.apply x).timeline else x.timeline := by
  have hrow : (if p x then f.apply x else x) ∈
      inTable .incidents (s.update (Record.is .incidents p) f.rewrite) := by
    rw [inTable_update]
    exact List.mem_map_of_mem (f := fun x => if p x then f.apply x else x) hx
  have hid : x.id = (if p x then f.apply x else x : IncidentRecord).id := by
    split
    · exact (f.entityId_apply x).symm
    · rfl
  rw [hid, timelineOf_eq hrow]
  split <;> rfl

/-- The row of the incident. -/
theorem KeepsUnresolved.exists_row (h : KeepsUnresolved s s') (hx : x ∈ inTable .incidents s) :
    ∃ y ∈ inTable .incidents s', y.id = x.id ∧ y.tenantId = x.tenantId := by
  obtain ⟨g, hg, hkeeps⟩ := h
  obtain ⟨hid, htenant, -⟩ := hkeeps x hx
  exact ⟨g x, by rw [hg]; exact List.mem_map_of_mem hx, hid, htenant⟩

/-- A report finds the incident that it found before. -/
theorem KeepsUnresolved.getOpenForConnection (h : KeepsUnresolved s s')
    (hx : (IncidentRepository.getOpenForConnection tenant connectionId s).1 = .ok (some x, s)) :
    ∃ y, (IncidentRepository.getOpenForConnection tenant connectionId s').1 = .ok (some y, s') ∧
      y.id = x.id := by
  obtain ⟨g, hg, hkeeps⟩ := h
  have hmem : ∀ y ∈ unresolved tenant connectionId s, y ∈ inTable .incidents s :=
    fun y hy => List.mem_of_mem_filter hy
  have hunresolved : unresolved tenant connectionId s' =
      (unresolved tenant connectionId s).map g := by
    change (inTable .incidents s').filter (unresolvedFor tenant connectionId) =
      ((inTable .incidents s).filter (unresolvedFor tenant connectionId)).map g
    rw [hg, List.filter_map]
    congr 1
    exact List.filter_congr fun y hy => (hkeeps y hy).2.2.2 tenant connectionId
  have horder : IncidentRepository.orderIncidents (unresolved tenant connectionId s') =
      (IncidentRepository.orderIncidents (unresolved tenant connectionId s)).map g := by
    rw [hunresolved]
    refine (List.map_insertionSort _ _ _ _ fun y hy z hz => ?_).symm
    dsimp only
    rw [(hkeeps y (hmem y hy)).2.2.1, (hkeeps z (hmem z hz)).2.2.1]
  rw [fst_getOpenForConnection, Except.ok.injEq, Prod.mk.injEq] at hx
  have hrow : x ∈ inTable .incidents s := hmem x (mem_orderBy.1 (List.mem_of_mem_head? hx.1))
  refine ⟨g x, ?_, (hkeeps x hrow).1⟩
  rw [fst_getOpenForConnection, horder, List.head?_map, hx.1]
  rfl

theorem KeepsUnresolved.on {incidentId : String} {c : TimelineCall} (h : KeepsUnresolved s s')
    (hc : c.On tenant incidentId s) : c.On tenant incidentId s' := by
  cases c with
  | add => exact hc
  | tripped | recovered =>
    obtain ⟨x, hx, hid⟩ := hc
    obtain ⟨y, hy, hyid⟩ := h.getOpenForConnection hx
    exact ⟨y, hy, hyid.trans hid⟩

/-! ### Queries -/

theorem writeTimeline_inv {timeline : List TimelineEntry} {entry : TimelineEntry} {u : Unit}
    (hx : x ∈ inTable .incidents s) (htenant : x.tenantId = tenant)
    (h : (writeTimeline tenant x.id timeline entry s).1 = .ok (u, s')) :
    KeepsUnresolved s s' ∧ timelineOf x.id s' = timeline ++ [entry] := by
  obtain ⟨n, s₁, hassign, hpure⟩ := bind_inv h
  obtain ⟨-, rfl⟩ := pure_inv hpure
  rw [assign_update hassign]
  refine ⟨keepsUnresolved_update (fun _ => rfl) fun _ _ _ _ _ => rfl, ?_⟩
  rw [timelineOf_update hx]
  simp [Row.owner, htenant, IncidentRepository.setTimeline]

theorem flushWorkflows_inv {existing : IncidentRecord} {workflowId : String} {u : Unit}
    (hx : x ∈ inTable .incidents s)
    (h : (flushWorkflows existing workflowId s).1 = .ok (u, s')) :
    KeepsUnresolved s s' ∧ timelineOf x.id s' = timelineOf x.id s := by
  unfold flushWorkflows at h
  split at h
  · obtain ⟨-, rfl⟩ := pure_inv h
    exact ⟨.refl _, rfl⟩
  · obtain ⟨n, s₁, hassign, hpure⟩ := bind_inv h
    obtain ⟨-, rfl⟩ := pure_inv hpure
    rw [assign_update hassign]
    refine ⟨keepsUnresolved_update (fun _ => rfl) fun _ _ _ _ _ => rfl, ?_⟩
    rw [timelineOf_update hx, timelineOf_eq hx]
    exact ite_self _

/-- An incident that a report found is unresolved, so that it stays what reports find. -/
theorem updateStatus_inv {now : ℤ} {u : Unit} (hx : x ∈ inTable .incidents s)
    (hunresolved : unresolvedFor tenant connectionId x = true)
    (h : (IncidentRepository.updateStatus tenant now x.id "RECOVERED" true s).1 = .ok (u, s')) :
    KeepsUnresolved s s' ∧ timelineOf x.id s' = timelineOf x.id s := by
  obtain ⟨n, s₁, hassign, hpure⟩ := bind_inv h
  obtain ⟨-, rfl⟩ := pure_inv hpure
  rw [assign_update hassign]
  constructor
  · refine keepsUnresolved_update (fun _ => rfl) fun y hy hp tenant' connectionId' => ?_
    rw [Bool.and_eq_true, decide_eq_true_eq, decide_eq_true_eq] at hp
    obtain rfl : y = x := eq_of_entityId_eq hy hx hp.2
    simp only [unresolvedFor, Bool.and_eq_true] at hunresolved ⊢
    rw [hunresolved.2.2]
    rfl
  · rw [timelineOf_update hx, timelineOf_eq hx]
    exact ite_self _

end Keeps

/-! ## Turns -/

/-- The timeline that a call has read and not written yet. -/
def Phase.read : Phase → Option (List TimelineEntry)
  | .found incident | .ready incident => some incident.timeline
  | _ => none

/-- The call has not come to its write. -/
def Phase.pending : Phase → Bool
  | .start | .found _ | .ready _ | .opening => true
  | _ => false

/-- The call has written its entry. -/
def Phase.wrote : Phase → Bool
  | .added _ | .updated _ | .ended => true
  | _ => false

theorem Phase.read_of_wrote {p : Phase} (h : p.wrote = true) : p.read = none := by
  cases p <;> first | rfl | cases h

theorem Phase.pending_of_wrote {p : Phase} (h : p.wrote = true) : p.pending = false := by
  cases p <;> first | rfl | cases h

/-- What the call holds is the incident. -/
def Phase.At (incidentId : String) : Phase → Prop
  | .found incident | .ready incident => incident.id = incidentId
  | .added id | .updated id => id = incidentId
  | .opening => False
  | .start | .ended | .raised => True

/-- What a turn of a call for an incident does: it reads the timeline, it writes the one that it has
read, an entry longer, or it leaves the timeline alone. -/
inductive Moves (incidentId : String) (entry : TimelineEntry) (s : Db d) :
    Phase → Phase × Db d → Prop
  | looked {incident : IncidentRecord} {p' : Phase} (hrow : incident ∈ inTable .incidents s)
      (hid : incident.id = incidentId) (hp' : p' = .found incident ∨ p' = .ready incident) :
      Moves incidentId entry s .start (p', s)
  | wrote {incident : IncidentRecord} {p' : Phase} {s' : Db d} (hat : p'.At incidentId)
      (hwrote : p'.wrote = true) (hkeeps : KeepsUnresolved s s')
      (htimeline : timelineOf incidentId s' = incident.timeline ++ [entry]) :
      Moves incidentId entry s (.ready incident) (p', s')
  | rested {p p' : Phase} {s' : Db d} (hready : ∀ incident, p ≠ .ready incident)
      (hat : p'.At incidentId) (hread : p'.read = p.read) (hpending : p'.pending = p.pending)
      (hwrote : p'.wrote = p.wrote) (hkeeps : KeepsUnresolved s s')
      (htimeline : timelineOf incidentId s' = timelineOf incidentId s) :
      Moves incidentId entry s p (p', s')
  | raised {p : Phase} : Moves incidentId entry s p (.raised, s)

section Turns

variable {tenant incidentId : String} {entry : TimelineEntry} {s s' : Db d} {x : IncidentRecord}
  {c : TimelineCall} {p : Phase}

theorem Moves.andThen {α : Type} {m : Query d α} {k : α → Phase}
    (h : ∀ a s', (m s).1 = .ok (a, s') → Moves incidentId entry s p (k a, s')) :
    Moves incidentId entry s p (andThen m k s) := by
  rcases hm : (m s).1 with e | ⟨a, s'⟩
  · rw [andThen_error hm]
    exact .raised
  · rw [andThen_ok hm]
    exact h a s' hm

/-- A turn that leaves the database as it is. -/
theorem Moves.same {p' : Phase} (hready : ∀ incident, p ≠ .ready incident)
    (hat : p'.At incidentId) (hread : p'.read = p.read) (hpending : p'.pending = p.pending)
    (hwrote : p'.wrote = p.wrote) : Moves incidentId entry s p (p', s) :=
  .rested hready hat hread hpending hwrote (.refl s) rfl

/-- The look-up of a report. -/
theorem moves_getOpenForConnection {connectionId : String} {k : Option IncidentRecord → Phase}
    (hc : ∃ y, (IncidentRepository.getOpenForConnection tenant connectionId s).1 =
      .ok (some y, s) ∧ y.id = incidentId) (hk : ∀ y, k (some y) = .found y) :
    Moves incidentId entry s .start
      (andThen (IncidentRepository.getOpenForConnection tenant connectionId) k s) := by
  obtain ⟨y, hy, hid⟩ := hc
  rw [andThen_ok hy, hk]
  rw [fst_getOpenForConnection, Except.ok.injEq, Prod.mk.injEq] at hy
  have hrow : y ∈ inTable .incidents s :=
    List.mem_of_mem_filter (mem_orderBy.1 (List.mem_of_mem_head? hy.1))
  exact .looked hrow hid (Or.inl rfl)

/-- The second query of a report, for an incident that its session holds. -/
theorem moves_getById {existing : IncidentRecord} {k : Option IncidentRecord → Phase}
    (hx : x ∈ inTable .incidents s) (htenant : x.tenantId = tenant) (hid : existing.id = x.id)
    (hk : ∀ y, k (some y) = .ready existing) :
    Moves x.id entry s (.found existing)
      (andThen (TenantScopedRepository.getById tenant .incidents existing.id) k s) := by
  have hget : (TenantScopedRepository.getById tenant .incidents existing.id s).1 =
      .ok (some x, s) := by
    rw [hid]
    exact getById_of_mem (t := .incidents) hx htenant
  rw [andThen_ok hget, hk]
  exact .same (by rintro _ ⟨⟩) hid rfl rfl rfl

theorem next_moves (hx : x ∈ inTable .incidents s) (htenant : x.tenantId = tenant)
    (hc : c.On tenant x.id s) (hp : p.At x.id) :
    Moves x.id c.entry s p (c.next tenant p s) := by
  cases c with
  | add nowStr incidentId message =>
    obtain rfl : incidentId = x.id := hc
    cases p with
    | start =>
      rw [show TimelineCall.next tenant (.add nowStr x.id message) .start s = (.ready x, s) from
        andThen_ok (getById_of_mem (t := .incidents) hx htenant)]
      exact .looked hx rfl (Or.inr rfl)
    | ready incident =>
      refine .andThen fun _ s' hwrite => ?_
      obtain ⟨hkeeps, htimeline⟩ := writeTimeline_inv hx htenant hwrite
      exact .wrote trivial rfl hkeeps htimeline
    | opening => exact hp.elim
    | found | added | updated | ended | raised => exact .same (by rintro _ ⟨⟩) hp rfl rfl rfl
  | tripped draw now nowStr connectionId workflowId rootCause severity =>
    cases p with
    | start => exact moves_getOpenForConnection hc fun _ => rfl
    | found existing => exact moves_getById hx htenant hp fun _ => rfl
    | ready existing =>
      have hid : existing.id = x.id := hp
      refine .andThen fun _ s' h => ?_
      obtain ⟨_, s₁, hwrite, hflush⟩ := bind_inv h
      rw [hid] at hwrite
      obtain ⟨hkeeps, htimeline⟩ := writeTimeline_inv hx htenant hwrite
      obtain ⟨y, hy, hyid, -⟩ := hkeeps.exists_row hx
      obtain ⟨hkeeps', htimeline'⟩ := flushWorkflows_inv hy hflush
      rw [hyid] at htimeline'
      exact .wrote trivial rfl (hkeeps.trans hkeeps') (htimeline'.trans htimeline)
    | opening => exact hp.elim
    | added | updated | ended | raised => exact .same (by rintro _ ⟨⟩) hp rfl rfl rfl
  | recovered nowStr now connectionId =>
    cases p with
    | start => exact moves_getOpenForConnection hc fun _ => rfl
    | found existing => exact moves_getById hx htenant hp fun _ => rfl
    | ready existing =>
      have hid : existing.id = x.id := hp
      refine .andThen fun _ s' hwrite => ?_
      rw [hid] at hwrite
      obtain ⟨hkeeps, htimeline⟩ := writeTimeline_inv hx htenant hwrite
      exact .wrote hid rfl hkeeps htimeline
    | added id =>
      obtain rfl : id = x.id := hp
      refine .andThen fun _ s' hupdate => ?_
      obtain ⟨y, hy, hid⟩ := hc
      rw [fst_getOpenForConnection, Except.ok.injEq, Prod.mk.injEq] at hy
      obtain ⟨hrow, hunresolved⟩ :=
        List.mem_filter.1 (mem_orderBy.1 (List.mem_of_mem_head? hy.1))
      obtain rfl : y = x := eq_of_entityId_eq hrow hx hid
      obtain ⟨hkeeps, htimeline⟩ := updateStatus_inv hx hunresolved hupdate
      exact .rested (by rintro _ ⟨⟩) rfl rfl rfl rfl hkeeps htimeline
    | updated id =>
      obtain rfl : id = x.id := hp
      rw [show TimelineCall.next tenant (.recovered nowStr now connectionId) (.updated x.id) s =
        (.ended, s) from andThen_ok (getById_of_mem (t := .incidents) hx htenant)]
      exact .same (by rintro _ ⟨⟩) trivial rfl rfl rfl
    | opening => exact hp.elim
    | ended | raised => exact .same (by rintro _ ⟨⟩) hp rfl rfl rfl

end Turns

/-! ## Runs -/

open ReadModifyWrite (Register Access Fresh)

variable {tenant : String} {s : Db d} {x : IncidentRecord} {calls : List TimelineCall}

/-- How far a call is, and what the register knows of it. -/
structure Agrees {n : ℕ} (incidentId : String) (r : Register (Fin n) TimelineEntry) (i : Fin n)
    (p : Phase) : Prop where
  place : p.At incidentId
  seen : ∀ l, p.read = some l → r.seen i = some l
  pending : p.pending = true → i ∉ r.log
  wrote : p.wrote = true → i ∈ r.log

/-- The desk as a register: what calls have looked at is what they have read, and the list is the
timeline. -/
structure Mirrors (s : Db d) (x : IncidentRecord) (b : Desk d calls.length)
    (r : Register (Fin calls.length) TimelineEntry) : Prop where
  keeps : KeepsUnresolved s b.db
  value : r.value = timelineOf x.id b.db
  agrees : ∀ i, Agrees x.id r i (b.phases i)
  nodup : r.log.Nodup

theorem mirrors_start (hx : x ∈ inTable .incidents s) :
    Mirrors s x (.start s calls.length) (.init x.timeline) where
  keeps := .refl s
  value := (timelineOf_eq hx).symm
  agrees _ := ⟨trivial, fun _ h => (nomatch h), fun _ => List.not_mem_nil, fun h => (nomatch h)⟩
  nodup := List.nodup_nil

section Step

variable {b : Desk d calls.length} {r : Register (Fin calls.length) TimelineEntry}
  {i : Fin calls.length} {p' : Phase} {s' : Db d}

theorem Mirrors.looked {incident : IncidentRecord} (h : Mirrors s x b r)
    (hstart : b.phases i = .start) (hrow : incident ∈ inTable .incidents b.db)
    (hid : incident.id = x.id) (hp' : p' = .found incident ∨ p' = .ready incident) :
    Mirrors s x ⟨b.db, Function.update b.phases i p'⟩
      { r with seen := Function.update r.seen i (some r.value) } := by
  have hread : r.value = incident.timeline := by
    rw [h.value, ← hid, timelineOf_eq hrow]
  have hpending : i ∉ r.log := (h.agrees i).pending (by rw [hstart]; rfl)
  refine ⟨h.keeps, h.value, ?_, h.nodup⟩
  refine (Function.forall_update_iff _ fun i p => Agrees x.id _ i p).2 ⟨?_, fun j hj => ?_⟩
  · rcases hp' with rfl | rfl
    all_goals
      refine ⟨hid, fun l hl => ?_, fun _ => hpending, fun hw => (nomatch hw)⟩
      cases hl
      exact (Function.update_self ..).trans (congrArg some hread)
  · obtain ⟨hplace, hseen, hpending, hwrote⟩ := h.agrees j
    exact ⟨hplace, fun l hl => (Function.update_of_ne hj _ _).trans (hseen l hl), hpending, hwrote⟩

theorem Mirrors.wrote {incident : IncidentRecord} {entry : TimelineEntry} (h : Mirrors s x b r)
    (hready : b.phases i = .ready incident) (hat : p'.At x.id) (hwrote : p'.wrote = true)
    (hkeeps : KeepsUnresolved b.db s')
    (htimeline : timelineOf x.id s' = incident.timeline ++ [entry]) :
    Mirrors s x ⟨s', Function.update b.phases i p'⟩
      ⟨incident.timeline ++ [entry], Function.update r.seen i none, r.log ++ [i]⟩ := by
  have hfirst : i ∉ r.log := (h.agrees i).pending (by rw [hready]; rfl)
  refine ⟨h.keeps.trans hkeeps, htimeline.symm, ?_, ?_⟩
  · refine (Function.forall_update_iff _ fun i p => Agrees x.id _ i p).2 ⟨?_, fun j hj => ?_⟩
    · refine ⟨hat, fun l hl => ?_, fun hp => ?_, fun _ => List.mem_append_right _ (by simp)⟩
      · rw [Phase.read_of_wrote hwrote] at hl
        cases hl
      · rw [Phase.pending_of_wrote hwrote] at hp
        cases hp
    · obtain ⟨hplace, hseen, hpending, hwrote⟩ := h.agrees j
      refine ⟨hplace, fun l hl => (Function.update_of_ne hj _ _).trans (hseen l hl), ?_, ?_⟩
      · intro hp hmem
        rcases List.mem_append.1 hmem with hmem | hmem
        · exact hpending hp hmem
        · exact hj (List.mem_singleton.1 hmem)
      · exact fun hw => List.mem_append_left _ (hwrote hw)
  · have hlog := h.nodup.concat hfirst
    rwa [List.concat_eq_append] at hlog

theorem Mirrors.rested (h : Mirrors s x b r) (hagrees : Agrees x.id r i p')
    (hkeeps : KeepsUnresolved b.db s') (htimeline : timelineOf x.id s' = timelineOf x.id b.db) :
    Mirrors s x ⟨s', Function.update b.phases i p'⟩ r := by
  refine ⟨h.keeps.trans hkeeps, h.value.trans htimeline.symm, ?_, h.nodup⟩
  exact (Function.forall_update_iff _ fun i p => Agrees x.id _ i p).2
    ⟨hagrees, fun j _ => h.agrees j⟩

/-- A turn that does not raise is a step of the register. -/
theorem Mirrors.turn (hx : x ∈ inTable .incidents s) (htenant : x.tenantId = tenant)
    (hon : ∀ c ∈ calls, c.On tenant x.id s) (h : Mirrors s x b r)
    (hsmooth : (turn tenant calls b i).2.phases i ≠ .raised) :
    ∃ a, Mirrors s x (turn tenant calls b i).2
        (ReadModifyWrite.step (fun i => (calls.get i).entry) r a).2 ∧
      (Timely b i ↔ Fresh r a) := by
  obtain ⟨y, hy, hid, hytenant⟩ := h.keeps.exists_row hx
  have hmoves : Moves x.id (calls.get i).entry b.db (b.phases i)
      ((calls.get i).next tenant (b.phases i) b.db) := by
    have hc := h.keeps.on (hon _ (List.get_mem calls i))
    have hp := (h.agrees i).place
    rw [← hid] at hc hp ⊢
    exact next_moves hy (hytenant.trans htenant) hc hp
  have hi := h.agrees i
  unfold Timelines.turn Timely at *
  generalize (calls.get i).next tenant (b.phases i) b.db = q at hmoves hsmooth ⊢
  generalize hphase : b.phases i = p at hmoves hi ⊢
  cases hmoves with
  | looked hrow hincident hp' =>
    refine ⟨.look i, h.looked hphase hrow hincident hp', ?_⟩
    exact iff_of_true (fun _ hstart => nomatch hstart) trivial
  | @wrote incident p' s' hat hwrote hkeeps htimeline =>
    have hseen : r.seen i = some incident.timeline := hi.seen _ rfl
    have hplace : incident.id = x.id := hi.place
    refine ⟨.put i, ?_, ?_⟩
    · simp only [ReadModifyWrite.step, hseen]
      exact h.wrote hphase hat hwrote hkeeps htimeline
    · constructor
      · intro htimely l hl
        rw [hseen] at hl
        cases hl
        rw [h.value, ← hplace, htimely incident rfl]
      · intro hfresh incident' hready
        cases hready
        rw [hplace, ← h.value]
        exact (hfresh _ hseen).symm
  | rested hready hat hread hpending hwrote hkeeps htimeline =>
    refine ⟨.rest, h.rested ?_ hkeeps htimeline, ?_⟩
    · exact ⟨hat, fun l hl => hi.seen l (hread ▸ hl), fun hp => hi.pending (hpending ▸ hp),
        fun hw => hi.wrote (hwrote ▸ hw)⟩
    · exact iff_of_true (fun incident hp => absurd hp (hready incident)) trivial
  | raised => exact absurd (Function.update_self ..) hsmooth

end Step

/-- A call that raised has no more turns. -/
theorem raised_turn {b : Desk d calls.length} {i : Fin calls.length}
    (h : b.phases i = .raised) (j : Fin calls.length) :
    (turn tenant calls b j).2.phases i = .raised := by
  by_cases hij : i = j
  · subst hij
    have hnext : ((calls.get i).next tenant .raised b.db).1 = .raised := by
      cases calls.get i <;> rfl
    unfold turn
    rw [h]
    exact (Function.update_self ..).trans hnext
  · exact (Function.update_of_ne hij _ _).trans h

/-- In a run that no call ends by raising, none raises. -/
theorem every_smooth {b : Desk d calls.length} {schedule : List (Fin calls.length)}
    (h : ∀ i, (Machine.exec (turn tenant calls) b schedule).phases i ≠ .raised) :
    Machine.Every (turn tenant calls) (fun b i => (turn tenant calls b i).2.phases i ≠ .raised) b
      schedule := by
  induction schedule generalizing b with
  | nil => trivial
  | cons i schedule ih =>
    refine ⟨fun hraised => h i ?_, ih h⟩
    exact Machine.exec_invariant (P := fun _ => True)
      (I := fun b : Desk d calls.length => b.phases i = .raised)
      (fun _ j _ h => raised_turn h j) hraised fun _ _ => trivial

/-- **When no entry is lost**: once all calls on an incident have ended, its timeline holds the
earlier entries and one of each call, in some order, exactly if every call, when it wrote, found the
timeline that it had read. -/
theorem timeline_iff (hx : x ∈ inTable .incidents s) (htenant : x.tenantId = tenant)
    (hon : ∀ c ∈ calls, c.On tenant x.id s) {schedule : List (Fin calls.length)}
    (hended : ∀ i, (Machine.exec (turn tenant calls) (.start s calls.length) schedule).phases i =
      .ended) :
    (timelineOf x.id (Machine.exec (turn tenant calls) (.start s calls.length) schedule).db).Perm
        (x.timeline ++ calls.map TimelineCall.entry) ↔
      Machine.Every (turn tenant calls) Timely (.start s calls.length) schedule := by
  have hsmooth : Machine.Every (turn tenant calls)
      (fun b i => (turn tenant calls b i).2.phases i ≠ .raised) (.start s calls.length)
      schedule := by
    apply every_smooth
    intro i
    rw [hended i]
    exact Phase.noConfusion
  obtain ⟨accesses, hmirrors, hiff⟩ := Machine.exists_simulation
    (fun b r i h hi => Mirrors.turn hx htenant hon h hi) (mirrors_start hx) hsmooth
  rw [hiff, ← ReadModifyWrite.perm_iff_every, hmirrors.value]
  have hlog : (Machine.exec (ReadModifyWrite.step fun i => (calls.get i).entry)
      (.init x.timeline) accesses).log.Perm (List.finRange calls.length) := by
    refine (List.perm_ext_iff_of_nodup hmirrors.nodup (List.nodup_finRange _)).2 fun i => ?_
    refine iff_of_true ((hmirrors.agrees i).wrote ?_) (List.mem_finRange i)
    rw [hended i]
    rfl
  have hentries := hlog.map fun i => (calls.get i).entry
  have hcalls : (List.finRange calls.length).map (fun i => (calls.get i).entry) =
      calls.map TimelineCall.entry := by
    rw [show (fun i => (calls.get i).entry) = TimelineCall.entry ∘ calls.get from rfl,
      ← List.map_map, List.map_get_finRange]
  rw [hcalls] at hentries
  constructor
  · exact fun h => h.trans (hentries.symm.append_left _)
  · exact fun h => h.trans (hentries.append_left _)

/-! ### Two reports -/

/-- Two workflows fail fast on the connection. -/
def twoTrips : List TimelineCall :=
  [.tripped 1 0 "12:01:00" "conn_pg_01" "wf_02" "timeout" "HIGH",
    .tripped 2 0 "12:01:00" "conn_pg_01" "wf_03" "timeout" "HIGH"]

/-- The incident that they are for. -/
def openIncident : IncidentRecord :=
  IncidentManager.incident "globex" 0 0 "12:00:00" "conn_pg_01" "wf_01" "timeout" "HIGH"

/-- One report after the other. -/
theorem timeline_oneByOne :
    (timelineOf openIncident.id (Machine.exec (turn "globex" twoTrips)
      (.start oneIncident 2) ([0, 0, 0, 1, 1, 1] : List (Fin 2))).db).Perm
        (openIncident.timeline ++ twoTrips.map TimelineCall.entry) := by
  refine (@timeline_iff _ _ _ _ twoTrips List.mem_cons_self rfl ?_ _ ?_).2 ?_
  · intro c hc
    rcases List.mem_cons.1 hc with rfl | hc
    · exact ⟨_, rfl, rfl⟩
    · obtain rfl := List.mem_singleton.1 hc
      exact ⟨_, rfl, rfl⟩
  · intro i
    match i with
    | ⟨0, _⟩ => rfl
    | ⟨1, _⟩ => rfl
  · refine ⟨?_, ?_, ?_, ?_, ?_, ?_, trivial⟩
    all_goals
      intro incident hready
      cases hready
    · rfl
    · rfl

/-- Both reports read before the first one writes: an entry is lost. -/
theorem not_timeline_overlapping : ¬ ∀ schedule : List (Fin 2),
    (∀ i, (Machine.exec (turn "globex" twoTrips) (.start oneIncident 2) schedule).phases i =
      .ended) →
    (timelineOf openIncident.id (Machine.exec (turn "globex" twoTrips)
      (.start oneIncident 2) schedule).db).Perm
        (openIncident.timeline ++ twoTrips.map TimelineCall.entry) := by
  intro h
  have hperm := h [0, 1, 0, 1, 0, 1] ?_
  · have hlength := hperm.length_eq
    revert hlength
    decide
  · intro i
    match i with
    | ⟨0, _⟩ => rfl
    | ⟨1, _⟩ => rfl

end FlowMesh.Timelines
