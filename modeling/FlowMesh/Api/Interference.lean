import FlowMesh.Library.Unwinding
import FlowMesh.Api.Separation

/-!
# What the runs of one tenant do to those of another

Requests of several tenants interleave at their awaited calls, on one database and one state
store. Each call comes with its circumstances, so that two histories can agree on those of some
tenants' calls and differ in everything else.

What the tenants other than `a` can see of the shared state are their own rows, and the breakers of
the connections that their runs use. `fate_eq` says when `a` makes no difference to their runs:
if no call of `a` changes one of these breakers, and no row of theirs is created under an id that
a row of `a` has. The breakers are kept by connection alone, so without this condition the runs of
`a` can make those of another tenant fail (`not_fate_eq_sharedConnection`).
-/

namespace FlowMesh

open Python Database Async

/-! ## The tenants on one database and one state store -/

/-- What the tenants share. -/
structure Shared (d : Tables.Dialect) (τ : Type) where
  world : World
  breakers : MemoryBreakers τ
  incidents : Tables.Db d

/-- What the tenants other than `a` see of it, as far as their runs go: their rows, and the breakers
of the connections `K`. -/
structure View (d : Tables.Dialect) (τ : Type) where
  world : World
  breakers : String → Option (Breaker τ)
  defaultCooldownSeconds : τ
  incidents : Tables.Db d

section Shared

variable {d : Tables.Dialect} {τ : Type} [Sub τ] [Zero τ] [LE τ] [DecidableLE τ]

namespace Shared

/-- What the tenants other than `a` see. -/
def view (a : String) (K : String → Bool) (s : Shared d τ) : View d τ :=
  ⟨s.world.without a, s.breakers.on K, s.breakers.defaultCooldownSeconds, s.incidents.without a⟩

variable (ev : Evaluator) (tenant : String) (x : Circumstances τ)

/-- What a call of the tenant does when it does not raise by a fault of its own. -/
def effect (o : Op) (s : Shared d τ) : Except PyError o.Res × Shared d τ :=
  match o with
  | .getCircuitBreakerState connectionId =>
    let (state, breakers) := s.breakers.getCircuitBreakerState connectionId none x.now
    (.ok state, { s with breakers })
  | .recordCircuitFailure connectionId =>
    let (state, breakers) := s.breakers.recordCircuitFailure connectionId 3 x.now
    (.ok state, { s with breakers })
  | .recordCircuitSuccess connectionId =>
    (.ok (), { s with breakers := (s.breakers.recordCircuitSuccess connectionId).2 })
  | .reportTripped connectionId workflowId rootCause =>
    let (answer, incidents) := (Tables.IncidentCall.tripped x.draw x.utcNow x.nowStr connectionId
      workflowId rootCause "HIGH").step tenant s.incidents
    (answer.map fun _ => (), { s with incidents })
  | .reportRecovered connectionId =>
    let (answer, incidents) :=
      (Tables.IncidentCall.recovered x.nowStr x.utcNow connectionId).step tenant s.incidents
    (answer.map fun _ => (), { s with incidents })
  | o =>
    let (answer, world) := x.onWorld ev o s.world
    (answer, { s with world })

variable {ev tenant x}

/-- What a call does, and the fault that it may have on the way. -/
def handle (ev : Evaluator) (tenants : ℕ → String) (i : ℕ) (x : Circumstances τ) :
    Handler Op Op.Res PyError (Shared d τ) := fun o s =>
  match (x.env ev).faultOf o s.world with
  | none => s.effect ev (tenants i) x o
  | some (e, false) => (.error e, s)
  | some (e, true) => (.error e, (s.effect ev (tenants i) x o).2)

end Shared

/-- The report of an operation to the incident manager. -/
def Op.report? (x : Circumstances τ) : Op → Option Tables.IncidentCall
  | .reportTripped connectionId workflowId rootCause =>
    some (.tripped x.draw x.utcNow x.nowStr connectionId workflowId rootCause "HIGH")
  | .reportRecovered connectionId => some (.recovered x.nowStr x.utcNow connectionId)
  | _ => none

/-- What keeps the tenants apart from `a`, call by call:

* `a` finds nothing to do at the breakers of the connections `K`, and no call of another tenant on
  a breaker is on another connection;
* no row of another tenant is created under an id that a row of `a` has. -/
def CallApart (tenants : ℕ → String) (a : String) (K : String → Bool) (i : ℕ)
    (x : Circumstances τ) (o : Op) (s : Shared d τ) : Prop :=
  match o.breakerCall? x.now, o.report? x with
  | some c, _ =>
    if tenants i = a then
      K c.connectionId = true →
        (s.breakers.breaker c.connectionId).Idle s.breakers.defaultCooldownSeconds c.now c.op
    else K c.connectionId = true
  | none, some c => tenants i ≠ a → c.Clear (tenants i) a s.incidents
  | none, none => tenants i ≠ a → x.free a s.world o = true

instance CallApart.decidable [DecidableEq τ] (tenants : ℕ → String) (a : String)
    (K : String → Bool) (i : ℕ) (x : Circumstances τ) (o : Op) (s : Shared d τ) :
    Decidable (CallApart tenants a K i x o s) := by
  unfold CallApart
  cases o.breakerCall? x.now with
  | some c =>
    dsimp only
    infer_instance
  | none =>
    cases o.report? x with
    | some c =>
      dsimp only
      infer_instance
    | none =>
      dsimp only
      infer_instance

variable {ev : Evaluator} {tenant a : String} {K : String → Bool} {x : Circumstances τ} {o : Op}
  {s t : Shared d τ} {own : String → Prop} {tenants : ℕ → String} {i : ℕ}

theorem effect_breaker {c : BreakerCall τ} (ho : o.breakerCall? x.now = some c) :
    (s.effect ev tenant x o).2 = { s with breakers := (s.breakers.call c).2 } ∧
      ∀ t : Shared d τ, (s.breakers.call c).1 = (t.breakers.call c).1 →
        (s.effect ev tenant x o).1 = (t.effect ev tenant x o).1 := by
  cases o with
  | getCircuitBreakerState connectionId =>
    obtain rfl := Option.some.inj ho
    exact ⟨rfl, fun t h => congrArg Except.ok (Option.some.inj h)⟩
  | recordCircuitFailure connectionId =>
    obtain rfl := Option.some.inj ho
    exact ⟨rfl, fun t h => congrArg Except.ok (Option.some.inj h)⟩
  | recordCircuitSuccess connectionId =>
    obtain rfl := Option.some.inj ho
    exact ⟨rfl, fun _ _ => rfl⟩
  | _ => cases ho

theorem effect_report {c : Tables.IncidentCall} (ho : o.report? x = some c) :
    (s.effect ev tenant x o).2 = { s with incidents := (c.step tenant s.incidents).2 } ∧
      ∀ t : Shared d τ, (c.step tenant s.incidents).1 = (c.step tenant t.incidents).1 →
        (s.effect ev tenant x o).1 = (t.effect ev tenant x o).1 := by
  cases o with
  | reportTripped connectionId workflowId rootCause =>
    obtain rfl := Option.some.inj ho
    exact ⟨rfl, fun t h => congrArg (Except.map fun _ => ()) h⟩
  | reportRecovered connectionId =>
    obtain rfl := Option.some.inj ho
    exact ⟨rfl, fun t h => congrArg (Except.map fun _ => ()) h⟩
  | _ => cases ho

theorem effect_world (hbreaker : o.breakerCall? x.now = none) (hreport : o.report? x = none) :
    s.effect ev tenant x o =
      ((x.onWorld ev o s.world).1, { s with world := (x.onWorld ev o s.world).2 }) := by
  cases o with
  | getCircuitBreakerState connectionId => cases hbreaker
  | recordCircuitFailure connectionId => cases hbreaker
  | recordCircuitSuccess connectionId => cases hbreaker
  | reportTripped connectionId workflowId rootCause => cases hreport
  | reportRecovered connectionId => cases hreport
  | _ => rfl

/-- A call of another tenant is answered from the view. -/
theorem effect_view (ev : Evaluator) (hi : tenants i ≠ a) (ho : o.Minds (tenants i) own)
    (hs : CallApart tenants a K i x o s) (ht : CallApart tenants a K i x o t)
    (hview : s.view a K = t.view a K) :
    (s.effect ev (tenants i) x o).1 = (t.effect ev (tenants i) x o).1 ∧
      (s.effect ev (tenants i) x o).2.view a K = (t.effect ev (tenants i) x o).2.view a K := by
  have hworld : s.world.without a = t.world.without a := congrArg View.world hview
  have hon : s.breakers.on K = t.breakers.on K := congrArg View.breakers hview
  have hcooldown : s.breakers.defaultCooldownSeconds = t.breakers.defaultCooldownSeconds :=
    congrArg View.defaultCooldownSeconds hview
  have hincidents : s.incidents.without a = t.incidents.without a := congrArg View.incidents hview
  unfold CallApart at hs ht
  cases hbreaker : o.breakerCall? x.now with
  | some c =>
    simp only [hbreaker, if_neg hi] at hs
    obtain ⟨hanswer, hcall⟩ := MemoryBreakers.call_on hs hon hcooldown
    refine ⟨(effect_breaker hbreaker).2 t hanswer, ?_⟩
    rw [(effect_breaker hbreaker).1, (effect_breaker hbreaker).1]
    simp only [Shared.view, hworld, hincidents, hcall, MemoryBreakers.call_frame.1, hcooldown]
  | none =>
    cases hreport : o.report? x with
    | some c =>
      simp only [hbreaker, hreport] at hs ht
      have hstep := Tables.step_without hi (hs hi)
      have hstep' := Tables.step_without hi (ht hi)
      rw [hincidents, hstep'] at hstep
      obtain ⟨hanswer, hcall⟩ := Prod.mk.inj hstep
      refine ⟨(effect_report hreport).2 t hanswer.symm, ?_⟩
      rw [(effect_report hreport).1, (effect_report hreport).1]
      simp only [Shared.view, hworld, hon, hcooldown, hcall]
    | none =>
      simp only [hbreaker, hreport] at hs ht
      obtain ⟨hanswer, hcall⟩ := onWorld_without x ev hi ho (hs hi)
      obtain ⟨hanswer', hcall'⟩ := onWorld_without x ev hi ho (ht hi)
      rw [effect_world hbreaker hreport, effect_world hbreaker hreport]
      rw [hworld] at hanswer hcall
      refine ⟨hanswer.symm.trans hanswer', ?_⟩
      simp only [Shared.view, ← hcall, hcall', hon, hcooldown, hincidents]

/-- A call of `a` does not change the view. -/
theorem view_effect (hi : tenants i = a) (ho : o.Minds a own)
    (hown : ∀ runId, own runId → s.world.HasRun a runId) (hs : CallApart tenants a K i x o s) :
    (s.effect ev (tenants i) x o).2.view a K = s.view a K := by
  unfold CallApart at hs
  rw [hi]
  cases hbreaker : o.breakerCall? x.now with
  | some c =>
    simp only [hbreaker, if_pos hi] at hs
    rw [(effect_breaker hbreaker).1]
    simp only [Shared.view, MemoryBreakers.on_call hs, MemoryBreakers.call_frame.1]
  | none =>
    cases hreport : o.report? x with
    | some c =>
      rw [(effect_report hreport).1]
      simp only [Shared.view, Tables.without_step]
    | none =>
      rw [effect_world hbreaker hreport]
      simp only [Shared.view, without_onWorld ho hown]

/-- A run stays, and stays the tenant's. -/
theorem keeps_effect (ev : Evaluator) (tenant : String) (x : Circumstances τ) (o : Op)
    (s : Shared d τ) : s.world.Keeps (s.effect ev tenant x o).2.world := by
  cases hbreaker : o.breakerCall? x.now with
  | some c =>
    rw [(effect_breaker hbreaker).1]
    exact .refl _
  | none =>
    cases hreport : o.report? x with
    | some c =>
      rw [(effect_report hreport).1]
      exact .refl _
    | none =>
      rw [effect_world hbreaker hreport]
      exact keeps_onWorld x ev o s.world

/-- A call that raises without effect, or one that takes effect and may raise then. -/
theorem handle_shared_cases (ev : Evaluator) (tenants : ℕ → String) (i : ℕ) (x : Circumstances τ)
    (o : Op) :
    (∃ e, ∀ s : Shared d τ, Shared.handle ev tenants i x o s = (.error e, s)) ∨
      ∀ s : Shared d τ, (Shared.handle ev tenants i x o s).2 = (s.effect ev (tenants i) x o).2 ∧
        ∀ t : Shared d τ, (s.effect ev (tenants i) x o).1 = (t.effect ev (tenants i) x o).1 →
          (Shared.handle ev tenants i x o s).1 = (Shared.handle ev tenants i x o t).1 := by
  have hfault : ∀ s : Shared d τ, (x.env ev).faultOf o s.world = (x.env ev).faultOf o .empty :=
    fun s => faultOf_eq x ev o _ _
  unfold Shared.handle
  simp only [hfault]
  rcases (x.env ev).faultOf o .empty with _ | ⟨e, _ | _⟩
  · exact Or.inr fun s => ⟨rfl, fun t h => h⟩
  · exact Or.inl ⟨e, fun s => rfl⟩
  · exact Or.inr fun s => ⟨rfl, fun t _ => rfl⟩

theorem keeps_handle (ev : Evaluator) (tenants : ℕ → String) (i : ℕ) (x : Circumstances τ) (o : Op)
    (s : Shared d τ) : s.world.Keeps (Shared.handle ev tenants i x o s).2.world := by
  rcases handle_shared_cases (d := d) ev tenants i x o with ⟨e, h⟩ | h
  · rw [h s]
    exact .refl _
  · rw [(h s).1]
    exact keeps_effect ev _ x o s

/-- A run that is read is the tenant's. -/
theorem hasRun_of_shows {r : Except PyError o.Res} {runId : String} (ho : o.Minds tenant own)
    (hr : (Shared.handle ev tenants i x o s).1 = r) (hshows : o.Shows r runId) :
    s.world.HasRun tenant runId := by
  cases o with
  | getRun t id =>
    obtain rfl : t = tenant := ho
    rcases r with e | _ | ⟨run, steps⟩
    · cases hshows
    · cases hshows
    obtain rfl : runId = run.id := hshows
    unfold Shared.handle at hr
    split at hr
    · have hrun : (s.world.run? t id).map (fun run => (run, s.world.stepsOf t id)) =
          some (run, steps) := Except.ok.inj hr
      obtain ⟨run', hrun', heq⟩ := Option.map_eq_some_iff.1 hrun
      cases heq
      obtain ⟨hget, htenant⟩ := Option.filter_eq_some_iff.1 hrun'
      exact ⟨run, (Table.get?_eq_some.1 hget).1, rfl, of_decide_eq_true htenant⟩
    · cases hr
    · cases hr
  | _ => exact hshows.elim

/-- The programs mind their tenants. -/
def tenancy (ev : Evaluator) (tenants : ℕ → String)
    (G : ℕ → Circumstances τ → Op → Shared d τ → Prop) (α : Type) :
    Crew.Outline (Shared.handle (d := d) ev tenants) G α where
  inv := fun _ => True
  known i q s := ∃ own, Minds (tenants i) own q ∧
    ∀ runId, own runId → s.world.HasRun (tenants i) runId
  moves _ s s' := s.world.Keeps s'.world
  call := by
    rintro i x o k s - ⟨own, hminds, hown⟩ -
    have hkeeps := keeps_handle ev tenants i x o s
    refine ⟨trivial, ⟨_, hminds.2 _, fun runId hrun => ?_⟩, hkeeps⟩
    rcases hrun with hrun | hrun
    · exact hkeeps.hasRun (hown runId hrun)
    · exact hkeeps.hasRun (hasRun_of_shows hminds.1 rfl hrun)
  stable := by
    rintro i j q s s' - - ⟨own, hminds, hown⟩ hkeeps
    exact ⟨own, hminds, fun runId hrun => hkeeps.hasRun (hown runId hrun)⟩

/-- The other tenants do not notice `a`. -/
theorem unwinding (ev : Evaluator) (tenants : ℕ → String) (a : String) (K : String → Bool)
    (α : Type) : Crew.Unwinding (tenancy (d := d) (τ := τ) ev tenants (CallApart tenants a K) α)
      (fun i => tenants i ≠ a) (Shared.view a K) where
  seen := by
    rintro i x o k s t hi ⟨own, hminds, -⟩ - hs ht hview
    obtain ⟨hanswer, hnext⟩ :=
      effect_view ev (of_decide_eq_true hi) hminds.1 hs ht hview
    rcases handle_shared_cases (d := d) ev tenants i x o with ⟨e, h⟩ | h
    · rw [h s, h t]
      exact ⟨rfl, hview⟩
    · rw [(h s).1, (h t).1]
      exact ⟨(h s).2 t hanswer, hnext⟩
  hidden := by
    rintro i x o k s hi ⟨own, hminds, hown⟩ hs
    have ha : tenants i = a := not_not.1 (of_decide_eq_false hi)
    rcases handle_shared_cases (d := d) ev tenants i x o with ⟨e, h⟩ | h
    · rw [h s]
    · rw [(h s).1]
      rw [ha] at hminds hown
      exact view_effect ha hminds.1 hown hs

/-! ## Histories -/

/-- Who makes the requests: the tenants that are listed, and behind them `a`. -/
def tenantOf (requests : List (String × RunRequest)) (a : String) (i : ℕ) : String :=
  (requests[i]?.map (·.1)).getD a

/-- The requests of the other tenants, and those of `a`. -/
def tenantCrew (ev : Evaluator) (s : Shared d τ) (requests : List (String × RunRequest))
    (a : String) (own : List RunRequest) : Crew Op Op.Res PyError (Shared d τ) Unit :=
  ⟨s, requests.map (fun r => r.2.prog ev r.1) ++ own.map (·.prog ev a)⟩

/-- The rows at the end of a history. -/
def rowsAfter (ev : Evaluator) (s : Shared d τ) (requests : List (String × RunRequest)) (a : String)
    (own : List RunRequest) (schedule : List (ℕ × Circumstances τ)) : World :=
  (Crew.play (Shared.handle ev (tenantOf requests a)) (tenantCrew ev s requests a own)
    schedule).state.world

/-- The tenants are kept apart from `a` at every call of the history. -/
def KeptApart (ev : Evaluator) (K : String → Bool) (s : Shared d τ)
    (requests : List (String × RunRequest)) (a : String) (own : List RunRequest)
    (schedule : List (ℕ × Circumstances τ)) : Prop :=
  Crew.Allows (Shared.handle ev (tenantOf requests a)) (CallApart (tenantOf requests a) a K)
    (tenantCrew ev s requests a own) schedule

/-- What becomes of a run. -/
structure Fate where
  status : Option RunStatus
  steps : List (String × StepStatus)
  deadLetters : List DeadLetterRecord

/-- What became of a run of the tenant. -/
def World.fate (tenant runId : String) (w : World) : Fate where
  status := (w.run? tenant runId).map (·.status)
  steps := (w.stepsOf tenant runId).map fun s => (s.nodeId, s.status)
  deadLetters := w.deadLetters.rows.filter fun r => r.tenantId = tenant ∧ r.runId = runId

section Histories

variable {requests : List (String × RunRequest)} {own own' : List RunRequest}

theorem fate_without {b : String} (hb : b ≠ a) (runId : String) (w : World) :
    (w.without a).fate b runId = w.fate b runId := by
  have hletters : (w.without a).deadLetters.rows.filter
      (fun r => r.tenantId = b ∧ r.runId = runId) =
        w.deadLetters.rows.filter fun r => r.tenantId = b ∧ r.runId = runId :=
    rows_of_tenant hb _
  simp only [World.fate, run?_without hb, stepsOf_without hb, hletters]

theorem lt_length_of_tenantOf (hi : tenantOf requests a i ≠ a) : i < requests.length := by
  by_contra hle
  apply hi
  unfold tenantOf
  rw [List.getElem?_eq_none (by omega)]
  rfl

/-- Every request minds its tenant. -/
theorem holds_tenantCrew (ev : Evaluator) (G : ℕ → Circumstances τ → Op → Shared d τ → Prop)
    (s : Shared d τ) (requests : List (String × RunRequest)) (a : String) (own : List RunRequest) :
    (tenancy ev (tenantOf requests a) G Unit).Holds (tenantCrew ev s requests a own) := by
  refine ⟨trivial, fun i q hq => ⟨fun _ => False, ?_, fun _ h => h.elim⟩⟩
  simp only [tenantCrew] at hq
  rcases Nat.lt_or_ge i requests.length with hlt | hge
  · rw [List.getElem?_append_left (by simpa using hlt), List.getElem?_map,
      List.getElem?_eq_getElem hlt] at hq
    obtain rfl := Option.some.inj hq
    have htenant : tenantOf requests a i = requests[i].1 := by
      rw [tenantOf, List.getElem?_eq_getElem hlt]
      rfl
    rw [htenant]
    exact minds_request _
  · rw [List.getElem?_append_right (by simpa using hge), List.getElem?_map] at hq
    obtain ⟨r, -, rfl⟩ := Option.map_eq_some_iff.1 hq
    have htenant : tenantOf requests a i = a := by
      rw [tenantOf, List.getElem?_eq_none hge]
      rfl
    rw [htenant]
    exact minds_request _

/-- **When a tenant makes no difference to the runs of another**: two histories that agree on what
the other tenants see at the start, on their requests and on the circumstances of their calls end
with the same fate of each of their runs, whatever `a` does in the one and in the other, if the
tenants are kept apart at every call. -/
theorem fate_eq {schedule schedule' : List (ℕ × Circumstances τ)} {s s' : Shared d τ}
    (hview : s.view a K = s'.view a K)
    (hcalls : (schedule.filter fun x => tenantOf requests a x.1 ≠ a) =
      schedule'.filter fun x => tenantOf requests a x.1 ≠ a)
    (hapart : KeptApart ev K s requests a own schedule)
    (hapart' : KeptApart ev K s' requests a own' schedule') {b : String} (hb : b ≠ a)
    (runId : String) :
    (rowsAfter ev s requests a own schedule).fate b runId =
      (rowsAfter ev s' requests a own' schedule').fate b runId := by
  have halike : Crew.Alike (fun i => tenantOf requests a i ≠ a) (Shared.view a K)
      (tenantCrew ev s requests a own) (tenantCrew ev s' requests a own') := by
    refine ⟨hview, fun i hi => ?_⟩
    have hlt := lt_length_of_tenantOf (of_decide_eq_true hi)
    simp only [tenantCrew]
    rw [List.getElem?_append_left (by simpa using hlt),
      List.getElem?_append_left (by simpa using hlt)]
  have hend := (unwinding ev (tenantOf requests a) a K Unit).agree
    (holds_tenantCrew ev _ s requests a own) (holds_tenantCrew ev _ s' requests a own') hapart
    hapart' hcalls halike
  calc (rowsAfter ev s requests a own schedule).fate b runId
      = ((rowsAfter ev s requests a own schedule).without a).fate b runId :=
        (fate_without hb runId _).symm
    _ = ((rowsAfter ev s' requests a own' schedule').without a).fate b runId :=
        congrArg (fun v : View d τ => v.world.fate b runId) hend.view
    _ = (rowsAfter ev s' requests a own' schedule').fate b runId := fate_without hb runId _

end Histories

end Shared

/-! ### Orders of two tenants -/

/-- The circumstances of the `n`-th call of a history, with the node `down` out of order. -/
def serving (down : String) (n : ℕ) : Circumstances ℤ where
  dispatch := fun node _ _ =>
    if node.id = down then .error ⟨.timeoutError, "timed out"⟩ else .ok ⟨.null, ⟨.finite 2, "2.0"⟩⟩
  fault := fun _ => none
  now := 0
  random := 0
  elapsedMs := ⟨.finite 1, "1.0"⟩
  uuid := toString (100000 + n)
  id := n
  draw := Fin.ofNat 9000 n
  utcNow := 0
  nowStr := "12:00:00"

/-- A request makes its calls one after the other. -/
def inTurn (i : ℕ) (down : String) (start : ℕ) : List (ℕ × Circumstances ℤ) :=
  (List.range 60).map fun n => (i, serving down (start + n))

/-- An order, which the workflow that a webhook creates takes. -/
def order : RunRequest := .webhook { webhookPath := "/orders", body := some (.obj []) }

/-- A workflow on a connection of its own. -/
def syncWorkflow : WorkflowDefinition :=
  ⟨{ schemaVersion := 1
     name := "Sync"
     trigger := { type := "manual" }
     nodes :=
      [{ id := "sync", type := "action.http", name := "Sync", connectionId := some "conn_acme" }]
     edges := [] }, by decide⟩

/-- Nothing is stored, and no call on a breaker was made. -/
def unused : Shared .sqlite ℤ := ⟨.empty, .new 5, Store.empty⟩

/-- Every character is a plain one, and no text is a float. -/
def plainEvaluator : Evaluator := .source ⟨fun _ => true, fun _ => none⟩

/-- An order that is served, and a run that fails on a connection of its own. -/
def apartRequests : List RunRequest :=
  [order, .execute { definition := syncWorkflow, runId := "RUN-A", inputPayload := .null }]

/-- The order of `globex`, behind the requests of `acme`. -/
def apartSchedule : List (ℕ × Circumstances ℤ) :=
  inTurn 1 "" 100 ++ inTurn 2 "sync" 200 ++ inTurn 0 "" 400

/-- With failures of `acme` on another connection, the order of `globex` is served as it is
alone. -/
theorem fate_eq_apart :
    (rowsAfter plainEvaluator unused [("globex", order)] "acme" apartRequests apartSchedule).fate
        "globex" "RUN-100405" =
      (rowsAfter plainEvaluator unused [("globex", order)] "acme" [] (inTurn 0 "" 400)).fate
        "globex" "RUN-100405" ∧
    ((rowsAfter plainEvaluator unused [("globex", order)] "acme" [] (inTurn 0 "" 400)).fate
      "globex" "RUN-100405").status = some .success := by
  refine ⟨?_, by decide +kernel⟩
  apply @fate_eq .sqlite ℤ _ _ _ _ plainEvaluator "acme" fun c => c ∈ ["conn_pg_01", "conn_rest_01"]
  · rfl
  · rfl
  · unfold KeptApart
    decide +kernel
  · unfold KeptApart
    decide +kernel
  · decide

/-- Three orders of `acme` fail, one after the other, because its database is out of order, and the
order of `globex` comes behind them. -/
def downSchedule : List (ℕ × Circumstances ℤ) :=
  inTurn 1 "node_3" 100 ++ inTurn 2 "node_3" 200 ++ inTurn 3 "node_3" 300 ++ inTurn 0 "" 400

/-- Both tenants run the workflow that webhooks create, whose connections have the same ids, and the
failures of the one open the breaker for the other. -/
theorem not_fate_eq_sharedConnection : ¬ ∀ (d : Tables.Dialect) (ev : Evaluator) (s : Shared d ℤ)
    (requests : List (String × RunRequest)) (a : String) (own own' : List RunRequest)
    (schedule schedule' : List (ℕ × Circumstances ℤ)),
    ((schedule.filter fun x => tenantOf requests a x.1 ≠ a) =
      schedule'.filter fun x => tenantOf requests a x.1 ≠ a) →
    ∀ b, b ≠ a → ∀ runId, (rowsAfter ev s requests a own schedule).fate b runId =
      (rowsAfter ev s requests a own' schedule').fate b runId := by
  intro h
  have hfate := h .sqlite plainEvaluator unused [("globex", order)] "acme" [order, order, order] []
    downSchedule (inTurn 0 "" 400) rfl "globex" (by decide) "RUN-100405"
  have hfailed : ((rowsAfter plainEvaluator unused [("globex", order)] "acme" [order, order, order]
      downSchedule).fate "globex" "RUN-100405").status = some .failed := by
    decide +kernel
  have hserved : ((rowsAfter plainEvaluator unused [("globex", order)] "acme" []
      (inTurn 0 "" 400)).fate "globex" "RUN-100405").status = some .success := by
    decide +kernel
  rw [hfate, hserved] at hfailed
  cases hfailed

end FlowMesh
