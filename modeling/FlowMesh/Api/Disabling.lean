import FlowMesh.Api.Baselines
import FlowMesh.Library.Crew

/-!
# Disabled connections

Any number of requests that toggle, test and discover one connection interleave at their awaited
calls. A test and a discovery check the status that they read first, and go by it to their end; a
drift report does not check it at all. So a connector is called while the connection is disabled,
and a test that ends after a disable enables the connection again (`not_disabled_overwritten`); a
disable that read that the connection is disabled writes nothing, whatever happened since.

In every run in which the calls and the commits of a request find the connection as disabled as
the request read it, and a drift report that has to discover reads that it is not disabled, disabled
means disabled (`disabled_stays`).
-/

namespace FlowMesh.Tables

open Python Database Transaction Async

variable {d : Dialect}

/-! ## The requests -/

/-- The connection is disabled. -/
def isDisabled (connectionId : String) (s : Db d) : Bool :=
  (inTable .connections s).any fun r => r.id = connectionId && r.status = "disabled"

/-- What a request asks for. -/
inductive SwitchRequest
  | toggle (payload : Option Bool) (audit : Audit)
  | test (audit : Audit)
  | discover (draw : SnapshotDraw)
  | drift (draw : SnapshotDraw)

/-- The handler of a request; what it answers is left out. -/
def SwitchRequest.program (svc : Services) (tenant connectionId : String) :
    SwitchRequest → Handling Unit
  | .toggle payload audit => do let _ ← toggleConnection tenant connectionId payload audit
  | .test audit => do let _ ← testConnection svc tenant connectionId audit
  | .discover draw => do let _ ← discoverConnectionSchema svc tenant connectionId draw
  | .drift draw => do let _ ← getConnectionSchemaDrift svc tenant connectionId draw

/-- The database, with who read whether the connection is disabled, and who did what is ruled
out. -/
structure Panel (d : Dialect) where
  db : Db d
  reads : List (ℕ × Bool)
  breaches : List ℕ

/-- The connection that a call reads. -/
def ConnOp.read? : (o : ConnOp) → o.Res → Option ConnectionRecord
  | .db (.repo _ (.getById .connections _)), x => x.row? .connections
  | _, _ => none

/-- What the request `i` learns from a call: whether the connection is disabled, if it reads it. -/
def ConnOp.learnt (i : ℕ) (o : ConnOp) : Except PyError o.Res → List (ℕ × Bool)
  | .error _ => []
  | .ok x => ((o.read? x).map fun r => (i, decide (r.status = "disabled"))).toList

/-- The call commits an object. -/
def ConnOp.isCommit : ConnOp → Bool
  | .db (.commit ..) => true
  | .db .commitNothing => true
  | _ => false

/-- The call begins at a connector. -/
def ConnOp.isConnector : ConnOp → Bool
  | .db _ => false
  | .test _ => true
  | .discover _ => true

/-- The request toggles the connection, as it read it, to this. -/
def toggles (enabled : Bool) (i : ℕ) (reads : List (ℕ × Bool)) : Option SwitchRequest → Bool
  | some (.toggle payload _) => reads.any fun x => x.1 = i && payload.getD x.2 = enabled
  | _ => false

/-- What a call of the request `i` must not do:

* begin at a connector while the connection is disabled;
* make the connection not disabled any more, unless it is the commit of an enable;
* leave the connection not disabled after the commit of a disable. -/
def Breach (connectionId : String) (request : Option SwitchRequest) (i : ℕ) (o : ConnOp)
    (r : Except PyError o.Res) (s : Panel d) (db' : Db d) : Bool :=
  o.isConnector && isDisabled connectionId s.db ||
    isDisabled connectionId s.db && !isDisabled connectionId db' &&
      !(o.isCommit && toggles true i s.reads request) ||
    o.isCommit && r.toBool && toggles false i s.reads request && !isDisabled connectionId db'

/-- What the calls of the request `i` do. -/
def Panel.handle (connectionId : String) (requests : List SwitchRequest) (i : ℕ) (plant : Plant) :
    Handler ConnOp ConnOp.Res PyError (Panel d) := fun o s =>
  ((ConnOp.handle d plant o s.db).1,
    { db := (ConnOp.handle d plant o s.db).2
      reads := s.reads ++ o.learnt i (ConnOp.handle d plant o s.db).1
      breaches :=
        if Breach connectionId requests[i]? i o (ConnOp.handle d plant o s.db).1 s
            (ConnOp.handle d plant o s.db).2 then s.breaches ++ [i]
        else s.breaches })

/-- Requests in progress. -/
abbrev SwitchCrew (d : Dialect) : Type := Crew ConnOp ConnOp.Res PyError (Panel d) Unit

/-- Requests on a connection that come in at a database. -/
def switchCrew (svc : Services) (tenant connectionId : String) (s : Db d)
    (requests : List SwitchRequest) : SwitchCrew d :=
  ⟨⟨s, [], []⟩, requests.map (SwitchRequest.program svc tenant connectionId)⟩

/-! ## The condition -/

/-- The connection is disabled exactly if the request read so. -/
def UpToDate (connectionId : String) (i : ℕ) (s : Panel d) : Prop :=
  ∀ x ∈ s.reads, x.1 = i → x.2 = isDisabled connectionId s.db

/-- The condition on a call of the request `i`:

* what the request read is up to date where it calls a connector, where it is a test and commits
  the status, and where it disables a connection that it read as disabled, with nothing to write;
* a drift report that reads the connection finds it not disabled. -/
def Abreast (connectionId : String) (requests : List SwitchRequest) (i : ℕ) (_ : Plant)
    (o : ConnOp) (s : Panel d) : Prop :=
  match o, requests[i]? with
  | .test _, _ => UpToDate connectionId i s
  | .discover _, _ => UpToDate connectionId i s
  | .db (.commit ..), some (.test _) => UpToDate connectionId i s
  | .db .commitNothing, some (.toggle (some false) _) => UpToDate connectionId i s
  | .db (.repo _ (.getById .connections _)), some (.drift _) => isDisabled connectionId s.db = false
  | _, _ => True

/-! ## The contract of the requests -/

/-- The contract of the requests: nothing that is ruled out has been done, and what the others have
read stays. -/
def switchContract (d : Dialect) : Crew.Contract (Panel d) where
  inv s := s.breaches = []
  moves i s s' := ∀ j, j ≠ i → ∀ b, (j, b) ∈ s'.reads ↔ (j, b) ∈ s.reads

/-- What the request has read. -/
def Panel.Knows (i : ℕ) (known : Option Bool) (s : Panel d) : Prop :=
  ∀ b, (i, b) ∈ s.reads ↔ known = some b

section Calls

variable {connectionId tenant : String} {requests : List SwitchRequest} {i : ℕ} {plant : Plant}
  {s s' : Panel d} {db' : Db d} {o : ConnOp} {known : Option Bool} {α : Type}

theorem Panel.Knows.rely (hs : s.Knows i known) (h : (switchContract d).Rely i s s') :
    s'.Knows i known := by
  refine h.keeps (F := Panel.Knows i known) (fun j s s' hj _ hmoves hs b => ?_) hs
  have hmoves : ∀ k, k ≠ j → ∀ b, (k, b) ∈ s'.reads ↔ (k, b) ∈ s.reads := hmoves
  exact (hmoves i hj.symm b).trans (hs b)

theorem Panel.handle_eq {r : Except PyError o.Res} (h : ConnOp.handle d plant o s.db = (r, db'))
    (hs : s.breaches = []) (hbreach : Breach connectionId requests[i]? i o r s db' = false) :
    Panel.handle connectionId requests i plant o s =
      (r, ⟨db', s.reads ++ o.learnt i r, []⟩) := by
  unfold Panel.handle
  rw [h, hbreach, hs]
  rfl

/-- The program keeps the contract under the condition and ends with `Q`. -/
def Switches (connectionId : String) (requests : List SwitchRequest) (i : ℕ) (p : Handling α)
    (Q : Except PyError α → Panel d → Prop) (s : Panel d) : Prop :=
  (switchContract d).Upholds (Panel.handle connectionId requests) (Abreast connectionId requests) i
    p Q s

theorem Switches.bind {β : Type} {p : Handling α} {f : α → Handling β}
    {R : Except PyError α → Panel d → Prop} {Q : Except PyError β → Panel d → Prop}
    (hp : Switches connectionId requests i p R s)
    (hok : ∀ a s, R (.ok a) s → Switches connectionId requests i (f a) Q s)
    (herr : ∀ e s, R (.error e) s → Q (.error e) s) :
    Switches connectionId requests i (p >>= f) Q s :=
  Crew.Contract.Upholds.bind hp hok herr

/-- What holds of the value and the state where a program ends with a value. -/
def WithValue (R : α → Panel d → Prop) : Except PyError α → Panel d → Prop
  | .ok a, s => R a s
  | .error _, _ => True

/-- Go on with a value. -/
theorem Switches.then {β : Type} {p : Handling α} {f : α → Handling β} {R : α → Panel d → Prop}
    (hp : Switches connectionId requests i p (WithValue R) s)
    (hf : ∀ a s, R a s → Switches connectionId requests i (f a) (fun _ _ => True) s) :
    Switches connectionId requests i (p >>= f) (fun _ _ => True) s :=
  hp.bind hf fun _ _ _ => trivial

theorem breach_error {o : DbOp} {e : PyError} (request : Option SwitchRequest) :
    Breach connectionId request i (.db o) (.error e) s s.db = false := by
  simp [Breach, ConnOp.isConnector, Except.toBool]

theorem not_mem_learnt {r : Except PyError o.Res} {j : ℕ} {b : Bool} (hj : j ≠ i) :
    (j, b) ∉ o.learnt i r := by
  cases r with
  | error e => exact List.not_mem_nil
  | ok x =>
    simp only [ConnOp.learnt, Option.mem_toList, Option.map_eq_some_iff]
    rintro ⟨r, -, hr⟩
    exact hj (congrArg Prod.fst hr).symm

/-- A transaction. -/
theorem switches_performDb {o : DbOp} {R : Answer → Panel d → Prop} (hs : s.Knows i known)
    (hok : ∀ s x db', s.Knows i known →
      (∀ plant, Abreast connectionId requests i plant (.db o) s) →
        (o.work s.db).1 = .ok (x, db') →
          Breach connectionId requests[i]? i (.db o) (.ok x) s db' = false ∧
            R x ⟨db', s.reads ++ (ConnOp.db o).learnt i (.ok x), []⟩) :
    Switches connectionId requests i (performDb o) (WithValue R) s := by
  refine Crew.Contract.Upholds.perform fun s' hrely hinv plant hG => ?_
  have hs' := hs.rely hrely
  have hinv' : s'.breaches = [] := hinv
  rcases handle_cases o s'.db with ⟨x, db', hx, hrun⟩ | ⟨e, -, hrun⟩
  · have hhandle : ConnOp.handle d plant (.db o) s'.db = (.ok x, db') := hrun
    obtain ⟨hbreach, hR⟩ := hok s' x db' hs' (fun _ => hG) hx
    rw [Panel.handle_eq hhandle hinv' hbreach]
    refine ⟨rfl, fun j hj b => ?_, hR⟩
    rw [List.mem_append, or_iff_left (not_mem_learnt hj)]
  · have hhandle : ConnOp.handle d plant (.db o) s'.db = (.error e, s'.db) := hrun
    rw [Panel.handle_eq hhandle hinv' (breach_error _)]
    refine ⟨rfl, fun j hj b => ?_, trivial⟩
    rw [List.mem_append, or_iff_left (not_mem_learnt hj)]

/-- A call of a connector, after the request has read that the connection is not disabled. -/
theorem switches_connector (hdb : ∀ plant (s : Db d), (ConnOp.handle d plant o s).2 = s)
    (hlearnt : ∀ r, o.learnt i r = [])
    (hG : ∀ plant (s : Panel d), Abreast connectionId requests i plant o s →
      UpToDate connectionId i s) (hcommit : o.isCommit = false) (hs : s.Knows i (some false)) :
    Switches connectionId requests i (Prog.perform o) (WithValue fun _ s => s.Knows i (some false))
      s := by
  refine Crew.Contract.Upholds.perform fun s' hrely hinv plant habreast => ?_
  have hs' := hs.rely hrely
  have henabled : isDisabled connectionId s'.db = false :=
    (hG plant s' habreast (i, false) ((hs' false).2 rfl) rfl).symm
  have hhandle : ConnOp.handle d plant o s'.db = ((ConnOp.handle d plant o s'.db).1, s'.db) :=
    Prod.ext rfl (hdb plant s'.db)
  rw [Panel.handle_eq hhandle hinv (by simp [Breach, henabled, hcommit]), hlearnt, List.append_nil]
  refine ⟨rfl, fun _ _ _ => Iff.rfl, ?_⟩
  cases (ConnOp.handle d plant o s'.db).1 with
  | ok x => exact hs'
  | error e => trivial

theorem isDisabled_congr {s s' : Db d} (h : inTable .connections s' = inTable .connections s) :
    isDisabled connectionId s' = isDisabled connectionId s := by
  unfold isDisabled
  rw [h]

/-- A transaction that leaves the connections alone and is no commit of an object. -/
theorem switches_quiet {o : DbOp} (hcommit : (ConnOp.db o).isCommit = false)
    (hlearnt : ∀ x, (ConnOp.db o).learnt i (.ok x) = [])
    (hquiet : ∀ (s : Db d) x s', (o.work s).1 = .ok (x, s') →
      inTable .connections s' = inTable .connections s) (hs : s.Knows i known) :
    Switches connectionId requests i (performDb o) (WithValue fun _ s => s.Knows i known) s := by
  refine switches_performDb hs fun s x db' hs _ hx => ?_
  rw [hlearnt, List.append_nil]
  refine ⟨?_, hs⟩
  have hsame : isDisabled connectionId db' = isDisabled connectionId s.db :=
    isDisabled_congr (hquiet _ _ _ hx)
  simp [Breach, ConnOp.isConnector, hcommit, hsame]

/-- The request has read the connection; a drift report has found it enabled. -/
def Found (connectionId : String) (requests : List SwitchRequest) (i : ℕ) (conn : ConnectionRecord)
    (s : Panel d) : Prop :=
  conn.id = connectionId ∧ s.Knows i (some (decide (conn.status = "disabled"))) ∧
    ∀ draw, requests[i]? = some (.drift draw) → conn.status ≠ "disabled"

theorem learnt_getById {x : Answer} :
    (ConnOp.db (.repo tenant (.getById .connections connectionId))).learnt i (.ok x) =
      ((x.row? .connections).map fun r => (i, decide (r.status = "disabled"))).toList := rfl

/-- The look-up of the connection. -/
theorem switches_getConnection (hs : s.Knows i none) :
    Switches connectionId requests i (getConnection tenant connectionId)
      (WithValue (Found connectionId requests i)) s := by
  have hfind : Switches connectionId requests i
      (findRow tenant .connections (.getById .connections connectionId))
      (WithValue fun conn? s => ∀ conn, conn? = some conn → Found connectionId requests i conn s)
      s := by
    refine Switches.bind (R := WithValue fun (x : Answer) s =>
      ∀ conn, x.row? .connections = some conn → Found connectionId requests i conn s) ?_
      (fun _ _ h => h) fun _ _ h => h
    refine switches_performDb hs fun s x db' hs hG hx => ?_
    obtain ⟨y, hy, rfl⟩ := answer_inv (work_inv hx)
    obtain ⟨l, s₁, hfetch, hscalar⟩ := bind_inv hy
    obtain ⟨rfl, hl⟩ := fetchOwn_inv hfetch
    obtain ⟨rfl, hhead⟩ := scalarOneOrNone_inv hscalar
    refine ⟨by simp [Breach, ConnOp.isConnector, ConnOp.isCommit], fun conn hconn => ?_⟩
    have hlearnt : (ConnOp.db (.repo tenant (.getById .connections connectionId))).learnt i
        (.ok (Answer.row (y.map (Sigma.mk .connections)))) =
          [(i, decide (conn.status = "disabled"))] := by
      rw [learnt_getById, hconn]
      rfl
    have hrow : y = some conn := by
      cases y with
      | none => cases hconn
      | some y => simpa [Answer.row?] using hconn
    obtain ⟨hmem, -, hid⟩ := (hl conn).1 (List.mem_of_mem_head? (hhead.symm.trans hrow))
    have hid : conn.id = connectionId := of_decide_eq_true hid
    rw [hlearnt]
    refine ⟨hid, fun b => ?_, fun draw hdrift hdisabled => ?_⟩
    · have hnew : (i, b) ∉ s.reads := fun hold => absurd ((hs b).1 hold) (by simp)
      simp [hnew, eq_comm]
    · have habreast := hG emptyPlant
      unfold Abreast at habreast
      rw [hdrift] at habreast
      have htrue : isDisabled connectionId s.db = true :=
        List.any_eq_true.2 ⟨conn, mem_inTable.2 hmem, by simp [hid, hdisabled]⟩
      rw [show isDisabled connectionId s.db = false from habreast] at htrue
      cases htrue
  refine Switches.bind hfind (fun conn? s hconn => ?_) fun _ _ _ => trivial
  cases conn? with
  | none => exact Crew.Contract.Upholds.raise trivial
  | some conn => exact Crew.Contract.Upholds.ret (hconn conn rfl)

/-- A test writes the status. -/
theorem switches_commit_test {audit : Audit} (htest : requests[i]? = some (.test audit))
    (conn : ConnectionRecord) (status : String) (hs : s.Knows i (some false)) :
    Switches connectionId requests i (commitStatus conn status)
      (WithValue fun _ s => s.Knows i (some false)) s := by
  refine Switches.bind (R := WithValue fun _ s => s.Knows i (some false)) ?_ (fun _ _ h => h)
    fun _ _ h => h
  split
  · refine switches_performDb hs fun s x db' hs _ hx => ⟨?_, ?_⟩
    · cases hx
      simp [Breach, ConnOp.isConnector, htest, toggles]
    · exact (List.append_nil s.reads).symm ▸ hs
  · refine switches_performDb hs fun s x db' hs hG hx => ⟨?_, ?_⟩
    · have habreast := hG emptyPlant
      unfold Abreast at habreast
      rw [htest] at habreast
      have henabled : isDisabled connectionId s.db = false :=
        (habreast (i, false) ((hs false).2 rfl) rfl).symm
      simp [Breach, ConnOp.isConnector, htest, toggles, henabled]
    · exact (List.append_nil s.reads).symm ▸ hs

/-- Whether a toggle enables or disables goes by what it read. -/
theorem toggles_eq {payload : Option Bool} {audit : Audit} {b : Bool} (enabled : Bool)
    (hs : s.Knows i (some b)) :
    toggles enabled i s.reads (some (.toggle payload audit)) = (payload.getD b = enabled) := by
  unfold toggles
  rw [List.any_eq_true, eq_iff_iff]
  constructor
  · rintro ⟨⟨j, c⟩, hmem, hc⟩
    simp only [Bool.and_eq_true, decide_eq_true_eq] at hc
    obtain ⟨rfl, hc⟩ := hc
    obtain rfl := Option.some.inj ((hs c).1 hmem)
    exact hc
  · intro hb
    exact ⟨(i, b), (hs b).2 rfl, by simp [hb]⟩

/-- A connection that was given the status is disabled. -/
theorem isDisabled_commit {s : Db d} {x : Answer}
    (h : ((DbOp.commit .connections connectionId (setStatus "disabled")).work s).1 =
      .ok (x, db')) : isDisabled connectionId db' = true := by
  obtain ⟨u, hcommit, -⟩ := answer_inv h
  obtain ⟨hrows, conn, hconn, hid⟩ := commitObject_inv hcommit
  unfold isDisabled
  rw [hrows, List.any_eq_true]
  refine ⟨_, List.mem_map_of_mem hconn, ?_⟩
  rw [if_pos hid]
  have hid : conn.id = connectionId := hid
  simp [setStatus, hid]

/-- A toggle writes the status. -/
theorem switches_commit_toggle {payload : Option Bool} {audit : Audit} {conn : ConnectionRecord}
    (htoggle : requests[i]? = some (.toggle payload audit)) (hid : conn.id = connectionId)
    (hs : s.Knows i (some (decide (conn.status = "disabled")))) :
    Switches connectionId requests i (commitStatus conn
        (if payload.getD (conn.status = "disabled") then "healthy" else "disabled"))
      (WithValue fun _ s => s.Knows i (some (decide (conn.status = "disabled")))) s := by
  refine Switches.bind (R := WithValue fun _ s =>
    s.Knows i (some (decide (conn.status = "disabled")))) ?_ (fun _ _ h => h) fun _ _ h => h
  cases hwanted : payload.getD (conn.status = "disabled") with
  | true =>
    -- an enable may do what it does
    simp only [if_true]
    split
    · refine switches_performDb hs fun s x db' hs _ hx => ⟨?_, ?_⟩
      · simp [Breach, ConnOp.isConnector, ConnOp.isCommit, htoggle, toggles_eq _ hs, hwanted]
      · exact (List.append_nil s.reads).symm ▸ hs
    · refine switches_performDb hs fun s x db' hs _ hx => ⟨?_, ?_⟩
      · simp [Breach, ConnOp.isConnector, ConnOp.isCommit, htoggle, toggles_eq _ hs, hwanted]
      · exact (List.append_nil s.reads).symm ▸ hs
  | false =>
    simp only [Bool.false_eq_true, if_false]
    split
    next hsame =>
      obtain rfl : payload = some false := by
        rw [← hsame] at hwanted
        cases payload with
        | none => cases hwanted
        | some b => exact congrArg some hwanted
      refine switches_performDb hs fun s x db' hs hG hx => ⟨?_, ?_⟩
      · have habreast := hG emptyPlant
        unfold Abreast at habreast
        rw [htoggle] at habreast
        have hdisabled : isDisabled connectionId s.db = true :=
          (habreast (i, _) ((hs _).2 rfl) rfl).symm.trans (decide_eq_true hsame.symm)
        cases hx
        simp [Breach, ConnOp.isConnector, hdisabled]
      · exact (List.append_nil s.reads).symm ▸ hs
    next =>
      refine switches_performDb hs fun s x db' hs _ hx => ⟨?_, ?_⟩
      · have hdisabled : isDisabled connectionId db' = true := by
          rw [hid] at hx
          exact isDisabled_commit hx
        simp [Breach, ConnOp.isConnector, hdisabled]
      · exact (List.append_nil s.reads).symm ▸ hs

end Calls

/-! ## The programs of the requests -/

section Programs

variable {svc : Services} {connectionId tenant : String} {requests : List SwitchRequest} {i : ℕ}
  {s : Panel d} {known : Option Bool} {α β : Type} {audit : Audit}

/-- The program keeps the contract, from what the request has read. -/
def Safe (d : Dialect) (connectionId : String) (requests : List SwitchRequest) (i : ℕ)
    (known : Option Bool) (p : Handling α) : Prop :=
  ∀ s : Panel d, s.Knows i known → Switches connectionId requests i p (fun _ _ => True) s

theorem Safe.ret (a : α) : Safe d connectionId requests i known (pure a) := fun _ _ => trivial

theorem Safe.raise (e : PyError) :
    Safe d connectionId requests i known (.throw e : Handling α) := fun _ _ => trivial

/-- A part of a request, and the rest. -/
theorem Safe.then {p : Handling α} {f : α → Handling β}
    (hp : ∀ s : Panel d, s.Knows i known →
      Switches connectionId requests i p (WithValue fun _ s => s.Knows i known) s)
    (hf : ∀ a, Safe d connectionId requests i known (f a)) :
    Safe d connectionId requests i known (p >>= f) :=
  fun s hs => (hp s hs).then fun a s hs => hf a s hs

/-- A part without calls. -/
theorem Safe.silent {p : Handling α} {f : α → Handling β} (hp : p.Uses fun _ => False)
    (hf : ∀ a, Safe d connectionId requests i known (f a)) :
    Safe d connectionId requests i known (p >>= f) := by
  cases p with
  | pure a => exact hf a
  | throw e => exact fun _ _ => trivial
  | call o k => exact hp.1.elim

/-- A query for a row of another table. -/
theorem Safe.find {t : Table} {c : RepoCall} {f : Option (Row t) → Handling β}
    (hlearnt : ∀ x, (ConnOp.db (.repo tenant c)).learnt i (.ok x) = [])
    (hread : ∀ (s : Db d) x s', (c.body tenant s).1 = .ok (x, s') → s' = s)
    (hf : ∀ a, Safe d connectionId requests i known (f a)) :
    Safe d connectionId requests i known (findRow tenant t c >>= f) := by
  unfold findRow
  rw [Prog.bind_assoc]
  refine Safe.then (fun s hs => switches_quiet rfl hlearnt (fun s x s' hx => ?_) hs) fun x => hf _
  rw [hread s x s' (work_inv hx)]

theorem Safe.getLatestForConnection {f : Option ConnectionSecret → Handling β}
    (hf : ∀ a, Safe d connectionId requests i known (f a)) :
    Safe d connectionId requests i known
      (findRow tenant .connectionSecrets (.getLatestForConnection connectionId) >>= f) := by
  refine Safe.find (fun _ => rfl) (fun s x s' hx => ?_) hf
  obtain ⟨y, hy, -⟩ := answer_inv hx
  obtain ⟨l, s₂, hfetch, hscalar⟩ := bind_inv hy
  obtain ⟨rfl, -⟩ := fetchOwn_inv hfetch
  exact (scalarOneOrNone_inv hscalar).1

theorem Safe.getBaseline {f : Option SchemaSnapshot → Handling β}
    (hf : ∀ a, Safe d connectionId requests i known (f a)) :
    Safe d connectionId requests i known
      (findRow tenant .schemaSnapshots (.getBaseline connectionId) >>= f) := by
  refine Safe.find (fun _ => rfl) (fun s x s' hx => ?_) hf
  obtain ⟨y, hy, -⟩ := answer_inv hx
  exact (getBaseline_inv hy).1

theorem Safe.getLatest {f : Option SchemaSnapshot → Handling β}
    (hf : ∀ a, Safe d connectionId requests i known (f a)) :
    Safe d connectionId requests i known
      (findRow tenant .schemaSnapshots (.getLatest connectionId) >>= f) := by
  refine Safe.find (fun _ => rfl) (fun s x s' hx => ?_) hf
  obtain ⟨y, hy, -⟩ := answer_inv hx
  exact (getLatest_inv hy).1

/-- An insertion into another table. -/
theorem Safe.insert {c : RepoCall} {t : Table} {f : Unit → Handling β}
    (hlearnt : ∀ x, (ConnOp.db (.repo tenant c)).learnt i (.ok x) = []) (ht : .connections ≠ t)
    (hinsert : ∀ (s : Db d) x s', (c.body tenant s).1 = .ok (x, s') →
      ∃ r : Row t, s'.rows = s.rows ++ [⟨t, r⟩])
    (hf : ∀ a, Safe d connectionId requests i known (f a)) :
    Safe d connectionId requests i known (runDb (.repo tenant c) >>= f) := by
  unfold runDb
  rw [Prog.bind_assoc]
  refine Safe.then (fun s hs => switches_quiet rfl hlearnt (fun s x s' hx => ?_) hs) fun x => hf _
  obtain ⟨r, hrows⟩ := hinsert s x s' (work_inv hx)
  exact inTable_insert_of_ne ht hrows

/-- The record of an event. -/
theorem Safe.recordAudit {action resource result : String} {metadata : Json} {f : Unit → Handling β}
    (hf : ∀ a, Safe d connectionId requests i known (f a)) :
    Safe d connectionId requests i known
      (recordAudit tenant audit action resource result metadata >>= f) := by
  refine Safe.insert (t := .auditEvents) (fun _ => rfl) (by decide) (fun s x s' hx => ?_) hf
  obtain ⟨y, hevent, -⟩ := answer_inv hx
  obtain ⟨_, s₁, hinsert, hpure⟩ := bind_inv hevent
  obtain ⟨-, rfl⟩ := pure_inv hpure
  exact ⟨_, (insert_inv hinsert).2⟩

/-- The commit of a snapshot. -/
theorem Safe.addSnapshot {snapshot : SchemaSnapshot} {f : Unit → Handling β}
    (hf : ∀ a, Safe d connectionId requests i known (f a)) :
    Safe d connectionId requests i known (addSnapshot tenant snapshot >>= f) := by
  refine Safe.insert (t := .schemaSnapshots) (fun _ => rfl) (by decide) (fun s x s' hx => ?_) hf
  obtain ⟨y, hcreate, -⟩ := answer_inv hx
  obtain ⟨_, s₁, hinsert, hpure⟩ := bind_inv hcreate
  obtain ⟨-, rfl⟩ := pure_inv hpure
  exact ⟨_, (insert_inv hinsert).2⟩

/-- The check that the connection is enabled, on what the request read. -/
theorem Safe.requireEnabled {conn : ConnectionRecord} {purpose : String} {f : Unit → Handling β}
    (hf : ∀ a, Safe d connectionId requests i (some false) (f a)) :
    Safe d connectionId requests i (some (decide (conn.status = "disabled")))
      (requireEnabled conn purpose >>= f) := by
  unfold FlowMesh.Tables.requireEnabled
  split
  next => exact .raise _
  next hstatus =>
    rw [decide_eq_false hstatus]
    exact hf ()

/-- A discovery. -/
theorem Safe.discover {spec : ConnectionSpec} {f : Json → Handling β}
    (hf : ∀ a, Safe d connectionId requests i (some false) (f a)) :
    Safe d connectionId requests i (some false) (discover spec >>= f) := by
  refine Safe.then (fun s hs => switches_connector (fun _ _ => rfl) (fun r => ?_)
    (fun plant s habreast => habreast) rfl hs) hf
  cases r <;> rfl

/-- The look-up of the connection, and the rest. -/
theorem Safe.getConnection {f : ConnectionRecord → Handling β}
    (hf : ∀ conn, conn.id = connectionId →
      (∀ draw, requests[i]? = some (.drift draw) → conn.status ≠ "disabled") →
        Safe d connectionId requests i (some (decide (conn.status = "disabled"))) (f conn)) :
    Safe d connectionId requests i none (getConnection tenant connectionId >>= f) :=
  fun _ hs => (switches_getConnection hs).then fun conn s hfound =>
    hf conn hfound.1 hfound.2.2 s hfound.2.1

theorem silent_testCredentials (sec : Option ConnectionSecret) :
    (testCredentials svc tenant connectionId sec).Uses fun _ => False := by
  cases sec with
  | none => exact .ret _
  | some sec =>
    unfold testCredentials
    dsimp only
    split <;> trivial

theorem safe_toggleConnection {payload : Option Bool}
    (htoggle : requests[i]? = some (.toggle payload audit)) :
    Safe d connectionId requests i none (toggleConnection tenant connectionId payload audit) := by
  refine Safe.getConnection fun conn hid _ => ?_
  refine Safe.then (fun s hs => switches_commit_toggle htoggle hid hs) fun _ => ?_
  exact Safe.recordAudit fun _ => .ret _

theorem safe_testConnection (htest : requests[i]? = some (.test audit)) :
    Safe d connectionId requests i none (testConnection svc tenant connectionId audit) := by
  refine Safe.getConnection fun conn _ _ => ?_
  refine Safe.requireEnabled fun _ => ?_
  refine Safe.getLatestForConnection fun sec => ?_
  refine Safe.silent (silent_testCredentials sec) fun credentials => ?_
  refine Safe.silent (silent_raised _) fun spec => ?_
  have hrest : ∀ testResult : TestResult, Safe d connectionId requests i (some false) (do
      commitStatus conn (if testResult.success then "healthy" else "degraded")
      recordAudit tenant audit "connection.test" ("connections/" ++ connectionId)
        (if testResult.success then "SUCCESS" else "FAILED")
        (.obj [("success", .bool testResult.success)])
      return (⟨testResult.success, some connectionId, testResult.steps⟩ : ConnectionTestResult)) :=
    fun testResult => Safe.then (fun s hs => switches_commit_test htest conn _ hs) fun _ =>
      Safe.recordAudit fun _ => .ret _
  unfold verify
  split
  · refine Safe.then (fun s hs => switches_connector (fun _ _ => rfl) (fun r => ?_)
      (fun plant s habreast => habreast) rfl hs) hrest
    cases r <;> rfl
  · exact hrest _

theorem safe_discoverConnectionSchema (draw : SnapshotDraw) :
    Safe d connectionId requests i none
      (discoverConnectionSchema svc tenant connectionId draw) := by
  refine Safe.getConnection fun conn _ _ => ?_
  refine Safe.requireEnabled fun _ => ?_
  refine Safe.getLatestForConnection fun sec => ?_
  refine Safe.silent (silent_discoverCredentials svc connectionId sec) fun credentials => ?_
  refine Safe.silent (silent_raised _) fun spec => ?_
  split
  · refine Safe.discover fun graph => ?_
    refine Safe.getBaseline fun baseline => ?_
    refine Safe.getLatest fun latest => ?_
    exact Safe.addSnapshot fun _ => .ret _
  · exact .raise _

theorem safe_getConnectionSchemaDrift {draw : SnapshotDraw}
    (hdrift : requests[i]? = some (.drift draw)) :
    Safe d connectionId requests i none
      (getConnectionSchemaDrift svc tenant connectionId draw) := by
  refine Safe.getBaseline fun baseline => ?_
  refine Safe.getLatest fun latest => ?_
  split
  · exact .ret _
  · refine Safe.getConnection fun conn _ henabled => ?_
    rw [decide_eq_false (henabled draw hdrift)]
    split
    · refine Safe.silent (silent_raised _) fun spec => ?_
      refine Safe.discover fun graph => ?_
      exact Safe.addSnapshot fun _ => .ret _
    · exact .ret _

/-- The request. -/
theorem safe_program {r : SwitchRequest} (hr : requests[i]? = some r) :
    Safe d connectionId requests i none (r.program svc tenant connectionId) := by
  have hlast : ∀ {α : Type} {p : Handling α}, Safe d connectionId requests i none p →
      Safe d connectionId requests i none (do let _ ← p) :=
    fun hp s hs => Switches.bind (hp s hs) (fun _ _ _ => trivial) fun _ _ h => h
  cases r with
  | toggle => exact hlast (safe_toggleConnection hr)
  | test => exact hlast (safe_testConnection hr)
  | discover draw => exact hlast (safe_discoverConnectionSchema draw)
  | drift => exact hlast (safe_getConnectionSchemaDrift hr)

end Programs

/-! ## Runs -/

/-- **When disabled means disabled**: in every run in which the calls and the commits of a request
find the connection as the request read it, and no drift report that has to discover reads that it
is disabled, the connection stays disabled from the commit of a disable to the commit of an enable,
and no call of a connector begins in between. -/
theorem disabled_stays (svc : Services) (tenant connectionId : String) (start : Db d)
    (requests : List SwitchRequest) (p : SwitchCrew d)
    (hrun : Crew.Runs (Panel.handle connectionId requests) (Abreast connectionId requests)
      (switchCrew svc tenant connectionId start requests) p) : p.state.breaches = [] := by
  refine (Crew.Contract.run (C := switchContract d) (Q := fun _ _ _ => True) ?_ ?_ ?_ hrun).1
  · exact fun _ _ _ _ _ _ => trivial
  · rfl
  · intro i q hq
    obtain ⟨r, hr, rfl⟩ : ∃ r, requests[i]? = some r ∧ r.program svc tenant connectionId = q := by
      simpa [switchCrew] using hq
    refine safe_program hr _ fun b => ?_
    simp [switchCrew]

/-! ### A test and a disable -/

/-- A connector whose tests fail. -/
def failingPlant : Plant where
  test _ := .ok ⟨false, [], some "unreachable"⟩
  discover _ := .ok (.obj [])

/-- A healthy connection of the tenant `acme`. -/
def oneConnection : Db .sqlite :=
  Machine.exec (Transaction.commit (RepoCall.perform "acme")) Store.empty
    [.create .connections (sampleConnection "conn_a")]

/-- It is tested, disabled and enabled. -/
def switchRequests : List SwitchRequest :=
  [.test ⟨"1", 1, "ops"⟩, .toggle (some false) ⟨"2", 2, "ops"⟩, .toggle none ⟨"3", 3, "ops"⟩]

/-- The test ends before the disable, and the toggle comes last. -/
theorem disabled_stays_inOrder : ∃ p : SwitchCrew .sqlite,
    isDisabled "conn_a" p.state.db = false ∧ p.state.reads = [(0, false), (1, false), (2, true)] ∧
      p.state.breaches = [] := by
  have hrun : Crew.Runs (Panel.handle "conn_a" switchRequests) (Abreast "conn_a" switchRequests)
      (switchCrew openServices "acme" "conn_a" oneConnection switchRequests)
      (Crew.play (Panel.handle "conn_a" switchRequests)
        (switchCrew openServices "acme" "conn_a" oneConnection switchRequests)
        ([0, 0, 0, 0, 0, 1, 1, 1, 2, 2, 2].map fun i => (i, failingPlant))) := by
    apply Crew.runs_play
    refine ⟨?_, ?_, ?_, ?_, ?_, ?_, ?_, ?_, ?_, ?_, ?_, trivial⟩ <;> rintro o k ⟨⟩
    · trivial
    · trivial
    · show UpToDate "conn_a" 0 _
      unfold UpToDate
      decide +kernel
    · show UpToDate "conn_a" 0 _
      unfold UpToDate
      decide +kernel
    · trivial
    · trivial
    · trivial
    · trivial
    · trivial
    · trivial
    · trivial
  exact ⟨_, by decide +kernel, by decide +kernel, disabled_stays _ _ _ _ _ _ hrun⟩

/-- The test reads that the connection is enabled, it is disabled, and then the test writes its
result. -/
theorem not_disabled_overwritten : ¬ ∀ (svc : Services) (tenant connectionId : String)
    (start : Db .sqlite) (requests : List SwitchRequest) (p : SwitchCrew .sqlite),
      Crew.Runs (Panel.handle connectionId requests) (fun _ _ _ _ => True)
        (switchCrew svc tenant connectionId start requests) p → p.state.breaches = [] := by
  intro hall
  have hrun : Crew.Runs (Panel.handle "conn_a" switchRequests) (fun _ _ _ _ => True)
      (switchCrew openServices "acme" "conn_a" oneConnection switchRequests)
      (Crew.play (Panel.handle "conn_a" switchRequests)
        (switchCrew openServices "acme" "conn_a" oneConnection switchRequests)
        ([0, 0, 0, 1, 1, 0].map fun i => (i, failingPlant))) :=
    Crew.runs_play _ (by simp [Crew.Allows])
  exact absurd (hall _ _ _ _ _ _ hrun) (by decide +kernel)

end FlowMesh.Tables
