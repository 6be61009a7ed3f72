import FlowMesh.Api.Baselines
import FlowMesh.Library.Crew

/-!
# Rotations of the credentials of a connection

Any number of `rotate_credentials` requests on one connection interleave at their awaited calls.
The version of a rotation comes from a read that may be stale, and a purge removes the rows that
the unique index would detect the conflict by: a stale rotation can insert a version that was
used and purged before (`not_rotated_stale`).

In every interleaving in which a rotation that finds its version free finds no later one stored,
and can record its event, the rotations get versions of their own, a conflict changes no secret,
and in the end the last version alone is stored (`rotated`).
-/

namespace FlowMesh.Tables

open Python Database Transaction Async

variable {d : Dialect}

/-! ## The requests -/

/-- The secrets of a connection. -/
def secretsOf (tenant connectionId : String) (s : Db d) : List ConnectionSecret :=
  (inTable .connectionSecrets s).filter fun r =>
    r.tenantId = tenant && r.connectionId = connectionId

/-- The database, with who inserted which secret, and who changed the secrets. -/
structure Vault (d : Dialect) where
  db : Db d
  inserted : List (ℕ × ConnectionSecret)
  changers : List ℕ

/-- The secret that a call creates. -/
def ConnOp.newSecret? : ConnOp → Option ConnectionSecret
  | .db (.repo tenant (.create .connectionSecrets sec)) => some { sec with tenantId := tenant }
  | _ => none

/-- The secret that a call created. -/
def ConnOp.created? : (o : ConnOp) → Except PyError o.Res → Option ConnectionSecret
  | o, .ok _ => o.newSecret?
  | _, .error _ => none

/-- What the calls of the request `i` do. -/
def Vault.handle (i : ℕ) (plant : Plant) : Handler ConnOp ConnOp.Res PyError (Vault d) :=
  fun o s =>
    ((ConnOp.handle d plant o s.db).1,
      { db := (ConnOp.handle d plant o s.db).2
        inserted := s.inserted ++
          ((o.created? (ConnOp.handle d plant o s.db).1).map (Prod.mk i)).toList
        changers :=
          if inTable .connectionSecrets (ConnOp.handle d plant o s.db).2 =
              inTable .connectionSecrets s.db then s.changers
          else s.changers ++ [i] })

/-- Rotations in progress. -/
abbrev RotationCrew (d : Dialect) : Type := Crew ConnOp ConnOp.Res PyError (Vault d) ℤ

/-- A request, with what it draws. -/
structure RotationRequest where
  credentials : Json
  draw : RotationDraw
  audit : Audit

/-- Rotations of the credentials of a connection that come in at a database. -/
def rotationCrew (svc : Services) (tenant connectionId : String) (s : Db d)
    (requests : List RotationRequest) : RotationCrew d :=
  ⟨⟨s, [], []⟩, requests.map fun r =>
    rotateCredentials svc tenant connectionId r.credentials r.draw r.audit⟩

/-- The response to a rotation that lost. -/
def rotationConflict : PyError :=
  httpException 409 "Concurrent credential rotation detected. Please refresh and retry."

/-- All programs have ended. -/
def RotationCrew.Ended (p : RotationCrew d) : Prop :=
  ∀ q ∈ p.progs, (∃ v, q = .pure v) ∨ ∃ e, q = .throw e

/-- Versions are not used twice and a conflict changes no secret; when all requests have ended, the
secret of the highest version that was returned is the only one, and without one the secrets are
as they were. -/
structure Rotated (svc : Services) (tenant connectionId : String) (s : Db d)
    (requests : List RotationRequest) (p : RotationCrew d) : Prop where
  distinct : ∀ (i j : ℕ) v, p.progs[i]? = some (Prog.pure v) → p.progs[j]? = some (Prog.pure v) → i = j
  conflict : ∀ i : ℕ, p.progs[i]? = some (Prog.throw rotationConflict) → i ∉ p.state.changers
  final : p.Ended → ∀ (i : ℕ) v, p.progs[i]? = some (Prog.pure v) →
    (∀ (j : ℕ) w, p.progs[j]? = some (Prog.pure w) → w ≤ v) →
    ∃ row, secretsOf tenant connectionId p.state.db = [row] ∧ row.version = v ∧
      ∃ r, requests[i]? = some r ∧
        decryptedCredentials svc tenant connectionId row = .ok r.credentials
  idle : p.Ended → (∀ (i : ℕ) v, p.progs[i]? ≠ some (Prog.pure v)) →
    secretsOf tenant connectionId p.state.db = secretsOf tenant connectionId s

/-- The condition on a call:

* a secret that can be stored is later than the stored secrets of the connection;
* an audit event can be stored. -/
def Timely (tenant connectionId : String) (_ : ℕ) (_ : Plant) (o : ConnOp) (s : Vault d) : Prop :=
  match o with
  | .db (.repo tenant' (.create .connectionSecrets sec)) =>
    s.db.fits ⟨.connectionSecrets, { sec with tenantId := tenant' }⟩ = true →
      ∀ x ∈ secretsOf tenant connectionId s.db, x.version ≤ sec.version
  | .db (.repo tenant' (.recordEvent uuid now actor action resource result metadata)) =>
    s.db.fits ⟨.auditEvents, AuditRepository.event tenant' uuid now actor action resource result
      metadata⟩ = true
  | _ => True

/-! ## The contract of the requests -/

section Contract

variable (tenant connectionId : String) (start : Db d)

/-- The versions were inserted in their order, and the last one is stored and later than the
others. -/
structure Vault.Sound (s : Vault d) : Prop where
  sorted : s.inserted.Pairwise fun a b => a.2.version < b.2.version
  last : ∀ a, s.inserted.getLast? = some a → a.2 ∈ secretsOf tenant connectionId s.db ∧
    ∀ x ∈ secretsOf tenant connectionId s.db, x.version ≤ a.2.version
  none : s.inserted = [] → secretsOf tenant connectionId s.db = secretsOf tenant connectionId start

/-- What a call of the request `j` does as the others see it. -/
structure Vault.Goes (j : ℕ) (s s' : Vault d) : Prop where
  inserted : ∀ i, i ≠ j → ∀ sec, (i, sec) ∈ s'.inserted ↔ (i, sec) ∈ s.inserted
  changers : ∀ i, i ≠ j → (i ∈ s'.changers ↔ i ∈ s.changers)
  later : ∀ x ∈ secretsOf tenant connectionId s'.db, x ∈ secretsOf tenant connectionId s.db ∨
    ∀ a ∈ s.inserted, a.2.version < x.version

/-- The contract of rotations. -/
def rotationContract : Crew.Contract (Vault d) :=
  ⟨Vault.Sound tenant connectionId start, Vault.Goes tenant connectionId⟩

/-- The request has changed nothing. -/
def Vault.Untouched (i : ℕ) (s : Vault d) : Prop :=
  (∀ sec, (i, sec) ∉ s.inserted) ∧ i ∉ s.changers

/-- The request inserted this secret. -/
def Vault.Inserted (i : ℕ) (sec : ConnectionSecret) (s : Vault d) : Prop :=
  ∀ x, (i, x) ∈ s.inserted ↔ x = sec

/-- No stored secret is older. -/
def Vault.Purged (version : ℤ) (s : Vault d) : Prop :=
  ∀ x ∈ secretsOf tenant connectionId s.db, version ≤ x.version

/-- What is known when a request has ended: with its version it inserted its secret, and no older
one is left; with an error, what it inserted is not there any more, and if the error is a conflict,
the request changed nothing. -/
def RotationEnd (secret : ℤ → ConnectionSecret) (i : ℕ) : Except PyError ℤ → Vault d → Prop
  | .ok v, s => s.Inserted i (secret v) ∧ s.Purged tenant connectionId v
  | .error e, s => (∀ sec, (i, sec) ∈ s.inserted → sec ∉ secretsOf tenant connectionId s.db) ∧
      (e = rotationConflict → i ∉ s.changers)

end Contract

section Facts

variable {tenant connectionId : String} {start : Db d} {i : ℕ} {s s' : Vault d}
  {sec : ConnectionSecret} {version : ℤ}

theorem mem_secretsOf {x : ConnectionSecret} {s : Db d} : x ∈ secretsOf tenant connectionId s ↔
    x ∈ inTable .connectionSecrets s ∧ x.tenantId = tenant ∧ x.connectionId = connectionId := by
  unfold secretsOf
  rw [List.mem_filter, Bool.and_eq_true, decide_eq_true_eq, decide_eq_true_eq]

theorem Vault.Goes.refl (j : ℕ) (s : Vault d) : s.Goes tenant connectionId j s :=
  ⟨fun _ _ _ => Iff.rfl, fun _ _ => Iff.rfl, fun _ hx => Or.inl hx⟩

/-- The others leave a request that has changed nothing where it is. -/
theorem Vault.Untouched.rely (hs : s.Untouched i)
    (h : (rotationContract tenant connectionId start).Rely i s s') : s'.Untouched i := by
  refine h.keeps (F := Vault.Untouched i) (fun j s s' hj _ hgoes hs => ?_) hs
  have hgoes : s.Goes tenant connectionId j s' := hgoes
  refine ⟨fun sec hsec => hs.1 sec ?_, fun hi => hs.2 ?_⟩
  · exact (hgoes.inserted i hj.symm sec).1 hsec
  · exact (hgoes.changers i hj.symm).1 hi

theorem Vault.Inserted.rely (hs : s.Inserted i sec)
    (h : (rotationContract tenant connectionId start).Rely i s s') : s'.Inserted i sec := by
  refine h.keeps (F := Vault.Inserted i sec) (fun j s s' hj _ hgoes hs x => ?_) hs
  have hgoes : s.Goes tenant connectionId j s' := hgoes
  exact (hgoes.inserted i hj.symm x).trans (hs x)

/-- What is inserted later is later. -/
theorem Vault.Purged.rely (hinserted : s.Inserted i sec)
    (hs : s.Purged tenant connectionId sec.version)
    (h : (rotationContract tenant connectionId start).Rely i s s') :
    s'.Inserted i sec ∧ s'.Purged tenant connectionId sec.version := by
  refine h.keeps (F := fun s => s.Inserted i sec ∧ s.Purged tenant connectionId sec.version)
    (fun j s s' hj _ hgoes hs => ?_) ⟨hinserted, hs⟩
  have hgoes : s.Goes tenant connectionId j s' := hgoes
  refine ⟨fun x => (hgoes.inserted i hj.symm x).trans (hs.1 x), fun x hx => ?_⟩
  rcases hgoes.later x hx with hx | hlater
  · exact hs.2 x hx
  · exact (hlater _ ((hs.1 sec).2 rfl)).le

/-- What is gone does not come back. -/
theorem RotationEnd.rely {secret : ℤ → ConnectionSecret} (hsecret : ∀ v, (secret v).version = v)
    {r : Except PyError ℤ} (hs : RotationEnd tenant connectionId secret i r s)
    (h : (rotationContract tenant connectionId start).Rely i s s') :
    RotationEnd tenant connectionId secret i r s' := by
  cases r with
  | ok v =>
    obtain ⟨hinserted, hpurged⟩ := hs
    have hpurged' : s.Purged tenant connectionId (secret v).version := by rwa [hsecret]
    obtain ⟨hinserted', hpurged''⟩ := hpurged'.rely hinserted h
    rw [hsecret] at hpurged''
    exact ⟨hinserted', hpurged''⟩
  | error e =>
    refine h.keeps (F := RotationEnd tenant connectionId secret i (.error e))
      (fun j s s' hj _ hgoes hs => ?_) hs
    have hgoes : s.Goes tenant connectionId j s' := hgoes
    refine ⟨fun sec hsec hstored => ?_, fun he hi => hs.2 he ((hgoes.changers i hj.symm).1 hi)⟩
    have hold := (hgoes.inserted i hj.symm sec).1 hsec
    rcases hgoes.later sec hstored with hstored | hlater
    · exact hs.1 sec hold hstored
    · exact lt_irrefl _ (hlater _ hold)

end Facts

/-! ## Calls -/

section Calls

variable {tenant connectionId : String} {start : Db d} {i : ℕ} {plant : Plant} {s : Vault d}
  {db' : Db d} {o : ConnOp} {sec : ConnectionSecret}

theorem Vault.handle_error {e : PyError} (h : ConnOp.handle d plant o s.db = (.error e, s.db)) :
    Vault.handle i plant o s = (.error e, s) := by
  unfold Vault.handle
  rw [h]
  simp [ConnOp.created?]

theorem Vault.handle_ok {x : o.Res} (h : ConnOp.handle d plant o s.db = (.ok x, db')) :
    Vault.handle i plant o s =
      (.ok x, ⟨db', s.inserted ++ (o.newSecret?.map (Prod.mk i)).toList,
        if inTable .connectionSecrets db' = inTable .connectionSecrets s.db then s.changers
        else s.changers ++ [i]⟩) := by
  unfold Vault.handle
  rw [h]
  rfl

theorem mem_changers {p : Prop} [Decidable p] {l : List ℕ} {j : ℕ} (hj : j ≠ i) :
    j ∈ (if p then l else l ++ [i]) ↔ j ∈ l := by
  split
  · rfl
  · simp [hj]

/-- A call that leaves the secrets alone. -/
theorem Vault.Sound.still (hs : s.Sound tenant connectionId start) {l : List ℕ}
    (hl : ∀ j, j ≠ i → (j ∈ l ↔ j ∈ s.changers))
    (h : inTable .connectionSecrets db' = inTable .connectionSecrets s.db) :
    Vault.Sound tenant connectionId start ⟨db', s.inserted, l⟩ ∧
      s.Goes tenant connectionId i ⟨db', s.inserted, l⟩ := by
  have hsecrets : secretsOf tenant connectionId db' = secretsOf tenant connectionId s.db := by
    unfold secretsOf
    rw [h]
  refine ⟨⟨hs.sorted, ?_, ?_⟩, fun _ _ _ => Iff.rfl, hl, fun x hx => ?_⟩
  · simp only [hsecrets]
    exact hs.last
  · simp only [hsecrets]
    exact hs.none
  · left
    rwa [← hsecrets]

/-- What the creation of a secret does. -/
theorem createSecret_inv {x : Answer} (hsec : sec.tenantId = tenant)
    (h : ((DbOp.repo tenant (.create .connectionSecrets sec)).work s.db).1 = .ok (x, db')) :
    s.db.fits ⟨.connectionSecrets, sec⟩ = true ∧
      inTable .connectionSecrets db' = inTable .connectionSecrets s.db ++ [sec] := by
  obtain ⟨y, hcreate, -⟩ := answer_inv (work_inv h)
  obtain ⟨_, s₁, hinsert, hpure⟩ := bind_inv hcreate
  obtain ⟨-, rfl⟩ := pure_inv hpure
  have hrow : Row.setTenantId tenant (t := .connectionSecrets) sec = sec := by
    change { sec with tenantId := tenant } = sec
    rw [← hsec]
  rw [hrow] at hinsert
  obtain ⟨hfits, hrows⟩ := insert_inv hinsert
  exact ⟨hfits, inTable_insert hrows⟩

/-- A version that can be stored is not stored. -/
theorem version_ne_of_fits (hfits : s.db.fits ⟨.connectionSecrets, sec⟩ = true)
    {x : ConnectionSecret} (hx : x ∈ inTable .connectionSecrets s.db)
    (hconn : x.connectionId = sec.connectionId) : x.version ≠ sec.version := by
  intro hversion
  refine (Store.fits_iff.1 hfits).2.1 ⟨.connectionSecrets, x⟩ (mem_inTable.1 hx) (Or.inr ?_)
  refine ⟨.secretVersion sec.connectionId sec.version, ?_, List.mem_singleton_self _⟩
  change _ ∈ [Unique.secretVersion x.connectionId x.version]
  rw [hconn, hversion]
  exact List.mem_singleton_self _

/-- The last version is the highest that was inserted. -/
theorem Vault.Sound.le_last (hs : s.Sound tenant connectionId start) {a : ℕ × ConnectionSecret}
    (ha : a ∈ s.inserted) :
    ∃ b, s.inserted.getLast? = some b ∧ a.2.version ≤ b.2.version := by
  rcases List.eq_nil_or_concat' s.inserted with hnil | ⟨init, b, hinit⟩
  · rw [hnil] at ha
    cases ha
  · have hsorted := hs.sorted
    rw [hinit] at ha hsorted ⊢
    refine ⟨b, List.getLast?_concat, ?_⟩
    rcases List.mem_append.1 ha with ha | ha
    · exact ((List.pairwise_append.1 hsorted).2.2 a ha b (List.mem_singleton_self b)).le
    · rw [List.mem_singleton.1 ha]

/-- A secret that is later than the stored ones is inserted. -/
theorem Vault.Sound.insert (hs : s.Sound tenant connectionId start) {l : List ℕ}
    (hl : ∀ j, j ≠ i → (j ∈ l ↔ j ∈ s.changers)) (htenant : sec.tenantId = tenant)
    (hconn : sec.connectionId = connectionId)
    (hlater : ∀ x ∈ secretsOf tenant connectionId s.db, x.version < sec.version)
    (h : inTable .connectionSecrets db' = inTable .connectionSecrets s.db ++ [sec]) :
    Vault.Sound tenant connectionId start ⟨db', s.inserted ++ [(i, sec)], l⟩ ∧
      s.Goes tenant connectionId i ⟨db', s.inserted ++ [(i, sec)], l⟩ := by
  have hsecrets : ∀ x, x ∈ secretsOf tenant connectionId db' ↔
      x ∈ secretsOf tenant connectionId s.db ∨ x = sec := by
    intro x
    rw [mem_secretsOf, mem_secretsOf, h, List.mem_append, List.mem_singleton]
    constructor
    · rintro ⟨hx | rfl, hown⟩
      · exact Or.inl ⟨hx, hown⟩
      · exact Or.inr rfl
    · rintro (⟨hx, hown⟩ | rfl)
      · exact ⟨Or.inl hx, hown⟩
      · exact ⟨Or.inr rfl, htenant, hconn⟩
  -- the versions that were inserted are at most the last one, which is stored
  have hinserted : ∀ a ∈ s.inserted, a.2.version < sec.version := by
    intro a ha
    obtain ⟨b, hb, hle⟩ := hs.le_last ha
    exact hle.trans_lt (hlater b.2 (hs.last b hb).1)
  refine ⟨⟨?_, ?_, ?_⟩, ?_, hl, ?_⟩
  · refine List.pairwise_append.2 ⟨hs.sorted, List.pairwise_singleton _ _, fun a ha b hb => ?_⟩
    rw [List.mem_singleton.1 hb]
    exact hinserted a ha
  · intro a ha
    rw [List.getLast?_concat] at ha
    cases ha
    refine ⟨(hsecrets sec).2 (Or.inr rfl), fun x hx => ?_⟩
    rcases (hsecrets x).1 hx with hx | rfl
    · exact (hlater x hx).le
    · exact le_rfl
  · intro hnil
    cases List.append_ne_nil_of_right_ne_nil _ (List.cons_ne_nil _ _) hnil
  · intro j hj x
    simp [hj]
  · intro x hx
    rcases (hsecrets x).1 hx with hx | rfl
    · exact Or.inl hx
    · exact Or.inr hinserted

/-- The older secrets are purged after a version was inserted. -/
theorem Vault.Sound.purge (hs : s.Sound tenant connectionId start) {l : List ℕ}
    (hl : ∀ j, j ≠ i → (j ∈ l ↔ j ∈ s.changers)) (hsec : (i, sec) ∈ s.inserted)
    (h : secretsOf tenant connectionId db' =
      (secretsOf tenant connectionId s.db).filter fun x => sec.version ≤ x.version) :
    Vault.Sound tenant connectionId start ⟨db', s.inserted, l⟩ ∧
      s.Goes tenant connectionId i ⟨db', s.inserted, l⟩ := by
  have hsecrets : ∀ x, x ∈ secretsOf tenant connectionId db' ↔
      x ∈ secretsOf tenant connectionId s.db ∧ sec.version ≤ x.version := by
    intro x
    rw [h, List.mem_filter, decide_eq_true_eq]
  refine ⟨⟨hs.sorted, fun a ha => ?_, fun hnil => ?_⟩, fun _ _ _ => Iff.rfl, hl, fun x hx => ?_⟩
  · obtain ⟨hstored, hmax⟩ := hs.last a ha
    refine ⟨(hsecrets a.2).2 ⟨hstored, ?_⟩, fun x hx => hmax x ((hsecrets x).1 hx).1⟩
    obtain ⟨b, hb, hle⟩ := hs.le_last hsec
    obtain rfl : b = a := Option.some.inj (hb.symm.trans ha)
    exact hle
  · rw [show s.inserted = [] from hnil] at hsec
    cases hsec
  · exact Or.inl ((hsecrets x).1 hx).1

end Calls

/-! ## The program of a request -/

section Program

variable {svc : Services} {tenant connectionId : String} {start : Db d} {i : ℕ} {s : Vault d}
  {sec : ConnectionSecret} {α : Type}

/-- The program keeps the contract under the condition and ends with `Q`. -/
def Rotates (tenant connectionId : String) (start : Db d) (i : ℕ) {α : Type} (p : Handling α)
    (Q : Except PyError α → Vault d → Prop) (s : Vault d) : Prop :=
  (rotationContract tenant connectionId start).Upholds Vault.handle (Timely tenant connectionId) i
    p Q s

theorem Rotates.bind {β : Type} {p : Handling α} {f : α → Handling β}
    {R : Except PyError α → Vault d → Prop} {Q : Except PyError β → Vault d → Prop}
    (hp : Rotates tenant connectionId start i p R s)
    (hok : ∀ a s, R (.ok a) s → Rotates tenant connectionId start i (f a) Q s)
    (herr : ∀ e s, R (.error e) s → Q (.error e) s) :
    Rotates tenant connectionId start i (p >>= f) Q s :=
  Crew.Contract.Upholds.bind hp hok herr

/-- What holds where a program ends: `R` with a value, `E` with an error. -/
def Outcome (R : Vault d → Prop) (E : PyError → Vault d → Prop) :
    Except PyError α → Vault d → Prop
  | .ok _, s => R s
  | .error e, s => E e s

theorem rotates_runDb {o : DbOp} {Q : Except PyError Unit → Vault d → Prop}
    (h : Rotates tenant connectionId start i (performDb o) (fun r s => Q (r.map fun _ => ()) s) s) :
    Rotates tenant connectionId start i (runDb o) Q s :=
  h.bind (fun _ _ hQ => hQ) fun _ _ hQ => hQ

/-- A transaction that creates no secret. -/
theorem rotates_performDb {o : DbOp} {F : Vault d → Prop}
    {Q : Except PyError Answer → Vault d → Prop} (ho : (ConnOp.db o).newSecret? = none) (hs : F s)
    (hF : ∀ s', (rotationContract tenant connectionId start).Rely i s s' → F s → F s')
    (hok : ∀ s x db' l, F s → s.Sound tenant connectionId start →
      (∀ plant, Timely tenant connectionId i plant (.db o) s) → (o.work s.db).1 = .ok (x, db') →
        (∀ j, j ≠ i → (j ∈ l ↔ j ∈ s.changers)) →
          (inTable .connectionSecrets db' = inTable .connectionSecrets s.db → l = s.changers) →
            (Vault.Sound tenant connectionId start ⟨db', s.inserted, l⟩ ∧
              s.Goes tenant connectionId i ⟨db', s.inserted, l⟩) ∧
              Q (.ok x) ⟨db', s.inserted, l⟩)
    (herr : ∀ s e, F s → (∀ plant, Timely tenant connectionId i plant (.db o) s) →
      (o.work s.db).1 = .error e → Q (.error e) s) :
    Rotates tenant connectionId start i (performDb o) Q s := by
  refine Crew.Contract.Upholds.perform fun s' hrely hinv plant hG => ?_
  have hs' := hF s' hrely hs
  rcases handle_cases o s'.db with ⟨x, db', hx, hrun⟩ | ⟨e, he, hrun⟩
  · have hhandle : ConnOp.handle d plant (.db o) s'.db = (.ok x, db') := hrun
    rw [Vault.handle_ok hhandle, ho]
    simp only [Option.map_none, Option.toList_none, List.append_nil]
    obtain ⟨⟨hsound, hgoes⟩, hQ⟩ := hok s' x db' _ hs' hinv (fun _ => hG) hx
      (fun j hj => mem_changers hj) fun h => if_pos h
    exact ⟨hsound, hgoes, hQ⟩
  · have hhandle : ConnOp.handle d plant (.db o) s'.db = (.error e, s'.db) := hrun
    rw [Vault.handle_error hhandle]
    exact ⟨hinv, .refl i s', herr s' e hs' (fun _ => hG) he⟩

/-- A query of a request that has changed nothing. -/
theorem rotates_find {t : Table} {c : RepoCall} (ho : (ConnOp.db (.repo tenant c)).newSecret? = none)
    (hread : ∀ s x s', (c.body tenant s : _ × List Record).1 = .ok (x, (s' : Db d)) → s' = s)
    (hs : s.Untouched i) :
    Rotates tenant connectionId start i (findRow tenant t c)
      (Outcome (fun s => s.Untouched i ∧ tenant ≠ "") fun _ => Vault.Untouched i) s := by
  refine Rotates.bind (R := Outcome (fun s => s.Untouched i ∧ tenant ≠ "") fun _ =>
    Vault.Untouched i) (rotates_performDb ho hs (fun s' hrely hs => hs.rely hrely)
      (fun s x db' l hs hinv _ hx hl hsame => ?_) fun s e hs _ _ => hs) (fun _ _ h => h)
    fun _ _ h => h
  obtain rfl := hread _ _ _ (work_inv hx)
  obtain rfl := hsame rfl
  exact ⟨hinv.still hl rfl, hs, tenant_ne_of_work hx⟩

/-- The creation of the secret. -/
theorem rotates_create (htenant : sec.tenantId = tenant) (hconn : sec.connectionId = connectionId)
    (hs : s.Untouched i) :
    Rotates tenant connectionId start i (performDb (.repo tenant (.create .connectionSecrets sec)))
      (Outcome (Vault.Inserted i sec) fun _ => Vault.Untouched i) s := by
  refine Crew.Contract.Upholds.perform fun s' hrely hinv plant hG => ?_
  have hs' : s'.Untouched i := hs.rely hrely
  have hsound : s'.Sound tenant connectionId start := hinv
  rcases handle_cases (.repo tenant (.create .connectionSecrets sec)) s'.db with
    ⟨x, db', hx, hrun⟩ | ⟨e, he, hrun⟩
  · have hhandle : ConnOp.handle d plant (.db (.repo tenant (.create .connectionSecrets sec)))
      s'.db = (.ok x, db') := hrun
    obtain ⟨hfits, hrows⟩ := createSecret_inv htenant hx
    have hnew : (ConnOp.db (.repo tenant (.create .connectionSecrets sec))).newSecret? =
        some sec := by
      change some { sec with tenantId := tenant } = _
      rw [← htenant]
    have hlater : ∀ x ∈ secretsOf tenant connectionId s'.db, x.version < sec.version := by
      intro x hx
      obtain ⟨hstored, -, hxconn⟩ := mem_secretsOf.1 hx
      apply lt_of_le_of_ne
      · refine hG ?_ x hx
        rwa [← htenant]
      · exact version_ne_of_fits hfits hstored (hxconn.trans hconn.symm)
    rw [Vault.handle_ok hhandle, hnew]
    simp only [Option.map_some, Option.toList_some]
    refine and_assoc.1 ⟨hsound.insert (fun j hj => mem_changers hj) htenant hconn hlater hrows, ?_⟩
    intro y
    simp only [List.mem_append, List.mem_singleton]
    rw [or_iff_right (hs'.1 y), Prod.mk.injEq, and_iff_right rfl]
  · have hhandle : ConnOp.handle d plant (.db (.repo tenant (.create .connectionSecrets sec)))
      s'.db = (.error e, s'.db) := hrun
    rw [Vault.handle_error hhandle]
    exact ⟨hinv, .refl i s', hs'⟩

/-- The refresh of the secret, which may have been purged. -/
theorem rotates_refresh (hs : s.Inserted i sec) :
    Rotates tenant connectionId start i (performDb (.refresh .connectionSecrets sec.id))
      (Outcome (Vault.Inserted i sec) fun e s => s.Inserted i sec ∧
        sec ∉ secretsOf tenant connectionId s.db ∧ e.kind = .other) s := by
  refine rotates_performDb rfl hs (fun s' hrely hs => hs.rely hrely)
    (fun s x db' l hs hinv _ hx hl hsame => ?_) fun s e hs _ he => ⟨hs, ?_⟩
  · obtain ⟨y, hrefresh, -⟩ := answer_inv hx
    rw [fst_refreshObject] at hrefresh
    split at hrefresh
    · cases hrefresh
      obtain rfl := hsame rfl
      exact ⟨hinv.still hl rfl, hs⟩
    · cases hrefresh
  · have hrefresh := answer_error he
    rw [fst_refreshObject] at hrefresh
    split at hrefresh
    · cases hrefresh
    next hfind =>
      cases hrefresh
      refine ⟨fun hstored => ?_, rfl⟩
      have hne := List.find?_eq_none.1 hfind sec (mem_secretsOf.1 hstored).1
      exact hne (decide_eq_true rfl)

/-- The purge of the older secrets. -/
theorem rotates_purge (hnamed : tenant ≠ "") (hs : s.Inserted i sec) :
    Rotates tenant connectionId start i
      (performDb (.repo tenant (.purgePreviousVersions connectionId sec.version)))
      (Outcome (fun s => s.Inserted i sec ∧ s.Purged tenant connectionId sec.version)
        fun _ _ => False) s := by
  refine rotates_performDb rfl hs (fun s' hrely hs => hs.rely hrely)
    (fun s x db' l hs hinv _ hx hl hsame => ?_) fun s e hs _ he => ?_
  · obtain ⟨y, hpurge, -⟩ := answer_inv (work_inv hx)
    obtain rfl : db' = s.db.delete (Record.is .connectionSecrets fun r =>
      r.tenantId = tenant && r.connectionId = connectionId && r.version < sec.version) := by
      cases hpurge
      rfl
    have hsecrets : secretsOf tenant connectionId (s.db.delete
        (Record.is .connectionSecrets fun r => r.tenantId = tenant &&
          r.connectionId = connectionId && r.version < sec.version)) =
        (secretsOf tenant connectionId s.db).filter fun x => sec.version ≤ x.version := by
      unfold secretsOf
      rw [inTable_delete, List.filter_filter, List.filter_filter]
      apply List.filter_congr
      intro x _
      have hlt : (decide (x.version < sec.version)) = !decide (sec.version ≤ x.version) := by
        rw [← decide_not]
        exact decide_eq_decide.2 not_le.symm
      by_cases htenant : x.tenantId = tenant <;> by_cases hconn : x.connectionId = connectionId <;>
        simp [htenant, hconn, hlt]
    refine ⟨hinv.purge hl ((hs sec).2 rfl) hsecrets, hs, fun x hx => ?_⟩
    rw [hsecrets] at hx
    exact of_decide_eq_true (List.mem_filter.1 hx).2
  · rw [work_repo hnamed] at he
    cases answer_error he

/-- The record of the event. -/
theorem rotates_audit (hnamed : tenant ≠ "") {audit : Audit} {action resource result : String}
    {metadata : Json} (hs : s.Inserted i sec ∧ s.Purged tenant connectionId sec.version) :
    Rotates tenant connectionId start i (recordAudit tenant audit action resource result metadata)
      (Outcome (fun s => s.Inserted i sec ∧ s.Purged tenant connectionId sec.version)
        fun _ _ => False) s := by
  refine rotates_runDb (rotates_performDb (F := fun s => s.Inserted i sec ∧
    s.Purged tenant connectionId sec.version) rfl hs (fun s' hrely hs => hs.2.rely hs.1 hrely)
    (fun s x db' l hs hinv _ hx hl hsame => ?_) fun s e hs hG he => ?_)
  · obtain ⟨y, hevent, -⟩ := answer_inv (work_inv hx)
    obtain ⟨_, s₁, hinsert, hpure⟩ := bind_inv hevent
    obtain ⟨-, rfl⟩ := pure_inv hpure
    have hrows : inTable .connectionSecrets db' = inTable .connectionSecrets s.db :=
      inTable_insert_of_ne (by decide) (insert_inv hinsert).2
    refine ⟨hinv.still hl hrows, hs.1, ?_⟩
    unfold Vault.Purged secretsOf
    rw [hrows]
    exact hs.2
  · have hfits : s.db.fits ⟨.auditEvents, AuditRepository.event tenant audit.uuid audit.now
      audit.actor action resource result metadata⟩ = true := hG emptyPlant
    rw [work_repo hnamed] at he
    have hrecord := answer_error he
    unfold AuditRepository.record at hrecord
    rw [fst_bind, Transaction.insert, dif_pos hfits] at hrecord
    cases hrecord

/-- What is known after the `try` block. -/
def StoreEnd (tenant connectionId : String) (i : ℕ) (sec : ConnectionSecret) :
    Except PyError Unit → Vault d → Prop
  | .ok _, s => s.Inserted i sec ∧ s.Purged tenant connectionId sec.version
  | .error e, s => s.Untouched i ∨ s.Inserted i sec ∧
      sec ∉ secretsOf tenant connectionId s.db ∧ e.kind = .other

/-- The statements in the `try` block. -/
theorem rotates_storeSecret (sec : ConnectionSecret) (audit : Audit) (hnamed : tenant ≠ "")
    (htenant : sec.tenantId = tenant) (hconn : sec.connectionId = connectionId)
    (hs : s.Untouched i) :
    Rotates tenant connectionId start i (storeSecret tenant sec audit)
      (StoreEnd tenant connectionId i sec) s := by
  subst hconn
  refine (rotates_runDb (Q := Outcome (Vault.Inserted i sec) fun _ => Vault.Untouched i)
    ((rotates_create htenant rfl hs).mono ?_)).bind (fun _ s hs => ?_) fun e s hs => Or.inl hs
  · rintro (e | x) s hs <;> exact hs
  refine (rotates_runDb (Q := Outcome (Vault.Inserted i sec) fun e s => s.Inserted i sec ∧
    sec ∉ secretsOf tenant sec.connectionId s.db ∧ e.kind = .other)
    ((rotates_refresh hs).mono ?_)).bind (fun _ s hs => ?_) fun e s hs => Or.inr hs
  · rintro (e | x) s hs <;> exact hs
  refine (rotates_runDb (Q := Outcome (fun s => s.Inserted i sec ∧
    s.Purged tenant sec.connectionId sec.version) fun _ _ => False)
    ((rotates_purge hnamed hs).mono ?_)).bind (fun _ s hs => ?_) fun e s hs => hs.elim
  · rintro (e | x) s hs <;> exact hs
  refine (rotates_audit hnamed hs).mono ?_
  rintro (e | x) s hs
  · exact hs.elim
  · exact hs

/-- The request. -/
theorem rotates_rotateCredentials (r : RotationRequest) (hs : s.Untouched i) :
    Rotates tenant connectionId start i
      (rotateCredentials svc tenant connectionId r.credentials r.draw r.audit)
      (RotationEnd tenant connectionId (newSecret svc tenant r.draw connectionId r.credentials) i)
      s := by
  have herr : ∀ (e : PyError) (s : Vault d), s.Untouched i → RotationEnd tenant connectionId
      (newSecret svc tenant r.draw connectionId r.credentials) i (.error e) s :=
    fun e s hs => ⟨fun sec hsec => absurd hsec (hs.1 sec), fun _ => hs.2⟩
  refine (Rotates.bind (R := Outcome (fun s => s.Untouched i ∧ tenant ≠ "") fun _ =>
    Vault.Untouched i) ?_ (fun conn s hs => ?_) herr)
  · refine (rotates_find rfl (fun s x s' hx => ?_) hs).bind (fun x s hs => ?_) fun _ _ hs => hs
    · obtain ⟨y, hy, -⟩ := answer_inv hx
      exact (getOne_inv (t := .connections) hy).1
    · cases x with
      | none => exact Crew.Contract.Upholds.raise hs.1
      | some conn => exact Crew.Contract.Upholds.ret hs
  obtain ⟨hs, hnamed⟩ := hs
  refine (rotates_find rfl (fun s x s' hx => ?_) hs).bind (fun latest s hs => ?_) herr
  · obtain ⟨y, hy, -⟩ := answer_inv hx
    obtain ⟨l, s₂, hfetch, hscalar⟩ := bind_inv hy
    obtain ⟨rfl, -⟩ := fetchOwn_inv hfetch
    exact (scalarOneOrNone_inv hscalar).1
  refine Crew.Contract.Upholds.attempt_bind (rotates_storeSecret _ r.audit hnamed rfl rfl hs.1)
    fun a s hs => ?_
  cases a with
  | ok _ => exact hs
  | error e =>
    show Rotates _ _ _ _ (if _ then _ else _) _ _
    rcases hs with hs | ⟨hs, hgone, hkind⟩
    · split
      · exact herr _ s hs
      · exact herr _ s hs
    · rw [hkind, if_neg (by decide)]
      refine ⟨fun sec hsec => ?_, fun he => ?_⟩
      · rwa [(hs sec).1 hsec]
      · rw [he] at hkind
        cases hkind

end Program

/-! ## Runs -/

section Runs

variable {svc : Services} {tenant connectionId : String} {start : Db d}
  {requests : List RotationRequest} {p p' : RotationCrew d}

/-- Secrets are inserted by the requests of the crew. -/
theorem author_lt {G : ℕ → Plant → ConnOp → Vault d → Prop}
    (hp : ∀ a ∈ p.state.inserted, a.1 < p.progs.length) (hrun : Crew.Runs Vault.handle G p p') :
    ∀ a ∈ p'.state.inserted, a.1 < p'.progs.length := by
  induction hrun with
  | refl => exact hp
  | tail _ hstep ih =>
    cases hstep with
    | @call i plant o k hcall _ =>
      intro a ha
      rw [List.length_set]
      simp only [Vault.handle, List.mem_append, Option.mem_toList, Option.map_eq_some_iff] at ha
      rcases ha with ha | ⟨sec, -, rfl⟩
      · exact ih a ha
      · exact (List.getElem?_eq_some_iff.1 hcall).1

/-- A secret is decrypted to what it was encrypted from. -/
theorem decrypted_newSecret (hideal : svc.crypto.Ideal) {r : RotationRequest}
    (hreads : svc.crypto.Reads r.credentials) (v : ℤ) :
    decryptedCredentials svc tenant connectionId
      (newSecret svc tenant r.draw connectionId r.credentials v) = .ok r.credentials := by
  unfold decryptedCredentials newSecret
  rw [EnvelopeCrypto.unwrapDek_wrapDek hideal]
  exact EnvelopeCrypto.decryptSecret_encryptSecret hideal hreads _ _ _

/-- What is known when the request `i` has ended. -/
def RequestEnd (svc : Services) (tenant connectionId : String) (requests : List RotationRequest)
    (i : ℕ) (a : Except PyError ℤ) (s : Vault d) : Prop :=
  ∃ r, requests[i]? = some r ∧ RotationEnd tenant connectionId
    (newSecret svc tenant r.draw connectionId r.credentials) i a s

theorem run_rotationCrew (hrun : Crew.Runs Vault.handle (Timely tenant connectionId)
      (rotationCrew svc tenant connectionId start requests) p) :
    p.state.Sound tenant connectionId start ∧ ∀ i q, p.progs[i]? = some q →
      Rotates tenant connectionId start i q (RequestEnd svc tenant connectionId requests i)
        p.state := by
  refine Crew.Contract.run (C := rotationContract tenant connectionId start) ?_ ?_ ?_ hrun
  · rintro i a s s' hrely ⟨r, hr, hs⟩
    exact ⟨r, hr, hs.rely (fun _ => rfl) hrely⟩
  · exact ⟨List.Pairwise.nil, nofun, fun _ => rfl⟩
  · intro i q hq
    obtain ⟨r, hr, rfl⟩ : ∃ r, requests[i]? = some r ∧
        rotateCredentials svc tenant connectionId r.credentials r.draw r.audit = q := by
      simpa [rotationCrew] using hq
    exact (rotates_rotateCredentials r ⟨fun _ => List.not_mem_nil, List.not_mem_nil⟩).mono
      fun a s hs => ⟨r, hr, hs⟩

/-- Two secrets of one version are one. -/
theorem Vault.Sound.eq_of_version_eq {s : Vault d} (hs : s.Sound tenant connectionId start)
    {a b : ℕ × ConnectionSecret} (ha : a ∈ s.inserted) (hb : b ∈ s.inserted)
    (h : a.2.version = b.2.version) : a = b := by
  have hnodup : (s.inserted.map fun a => a.2.version).Nodup :=
    List.pairwise_map.2 (hs.sorted.imp ne_of_lt)
  exact List.inj_on_of_nodup_map hnodup ha hb h

/-- A secret that is stored and inserted last was inserted by a rotation that succeeded, if all
have ended. -/
theorem last_succeeded (hrun : Crew.Runs Vault.handle (Timely tenant connectionId)
      (rotationCrew svc tenant connectionId start requests) p) (hended : p.Ended)
    {a : ℕ × ConnectionSecret} (ha : p.state.inserted.getLast? = some a) :
    ∃ r v, requests[a.1]? = some r ∧ p.progs[a.1]? = some (Prog.pure v) ∧
      a.2 = newSecret svc tenant r.draw connectionId r.credentials v ∧
        p.state.Purged tenant connectionId v := by
  obtain ⟨hsound, hknown⟩ := run_rotationCrew hrun
  have hmem : a ∈ p.state.inserted := List.mem_of_getLast? ha
  have hlt : a.1 < p.progs.length :=
    author_lt (fun _ ha => absurd ha List.not_mem_nil) hrun a hmem
  have hprog : p.progs[a.1]? = some p.progs[a.1] := List.getElem?_eq_getElem hlt
  have hend := hknown a.1 _ hprog
  rcases hended _ (List.getElem_mem hlt) with ⟨v, hv⟩ | ⟨e, he⟩
  · rw [hv] at hend hprog
    obtain ⟨r, hr, hinserted, hpurged⟩ := hend
    exact ⟨r, v, hr, hprog, (hinserted a.2).1 hmem, hpurged⟩
  · rw [he] at hend
    obtain ⟨r, hr, hgone, -⟩ := hend
    exact absurd (hsound.last a ha).1 (hgone a.2 hmem)

/-- **When rotations keep to their versions**: in every run in which a rotation that finds its
version free finds no later secret, and in which events can be recorded, the successful rotations
have versions of their own, a conflict changes no secret, and when all have ended, the credentials
of the highest version are the only ones that are stored. -/
theorem rotated (svc : Services) (tenant connectionId : String) (start : Db d)
    (requests : List RotationRequest) (p : RotationCrew d) (hideal : svc.crypto.Ideal)
    (hreads : ∀ r ∈ requests, svc.crypto.Reads r.credentials)
    (hrun : Crew.Runs Vault.handle (Timely tenant connectionId)
      (rotationCrew svc tenant connectionId start requests) p) :
    Rotated svc tenant connectionId start requests p := by
  obtain ⟨hsound, hknown⟩ := run_rotationCrew hrun
  -- a rotation that succeeded inserted its version
  have hsucceeded : ∀ (i : ℕ) v, p.progs[i]? = some (Prog.pure v) →
      ∃ sec, (i, sec) ∈ p.state.inserted ∧ sec.version = v := by
    intro i v hv
    obtain ⟨r, hr, hinserted, -⟩ := hknown i _ hv
    exact ⟨_, (hinserted _).2 rfl, rfl⟩
  refine ⟨fun i j v hi hj => ?_, fun i hi => ?_, fun hended i v hi hmax => ?_,
    fun hended hnone => ?_⟩
  · obtain ⟨x, hx, hxv⟩ := hsucceeded i v hi
    obtain ⟨y, hy, hyv⟩ := hsucceeded j v hj
    exact congrArg Prod.fst (hsound.eq_of_version_eq hx hy (hxv.trans hyv.symm))
  · obtain ⟨r, hr, -, hconflict⟩ := hknown i _ hi
    exact hconflict rfl
  · obtain ⟨sec, hsec, hversion⟩ := hsucceeded i v hi
    obtain ⟨a, ha, hle⟩ := hsound.le_last hsec
    obtain ⟨r, w, hr, hw, hrow, hpurged⟩ := last_succeeded hrun hended ha
    obtain ⟨hstored, hhighest⟩ := hsound.last a ha
    have haw : a.2.version = w := by rw [hrow]; rfl
    obtain rfl : w = v := le_antisymm (hmax _ w hw) (by rw [← hversion, ← haw]; exact hle)
    obtain rfl : sec = a.2 := congrArg Prod.snd (hsound.eq_of_version_eq hsec
      (List.mem_of_getLast? ha) (hversion.trans haw.symm))
    obtain rfl : i = a.1 := congrArg Prod.fst (hsound.eq_of_version_eq hsec
      (List.mem_of_getLast? ha) rfl)
    refine ⟨a.2, ?_, haw, r, hr, ?_⟩
    · refine eq_singleton_of_forall_eq
        (List.Nodup.filter _ (nodup_inTable .connectionSecrets p.state.db)) hstored fun x hx => ?_
      have hxw : x.version = a.2.version :=
        le_antisymm (hhighest x hx) (haw.le.trans (hpurged x hx))
      obtain ⟨hxstored, -, hxconn⟩ := mem_secretsOf.1 hx
      obtain ⟨hastored, -, haconn⟩ := mem_secretsOf.1 hstored
      refine eq_of_key_mem (t := .connectionSecrets) hxstored hastored
        (k := .secretVersion connectionId a.2.version) ?_ ?_
      · rw [← hxconn, ← hxw]
        exact List.mem_singleton_self _
      · nth_rewrite 1 [← haconn]
        exact List.mem_singleton_self _
    · rw [hrow]
      exact decrypted_newSecret hideal (hreads r (List.mem_of_getElem? hr)) w
  · have hempty : p.state.inserted = [] := by
      rw [← List.getLast?_eq_none_iff, Option.eq_none_iff_forall_not_mem]
      intro a ha
      obtain ⟨r, v, -, hv, -⟩ := last_succeeded hrun hended ha
      exact hnone _ v hv
    exact hsound.none hempty

end Runs

/-! ### Three rotations -/

/-- A process in which every type has a connector. -/
def sealedServices : Services := ⟨⟨sealedAead, "kek"⟩, fun _ => true⟩

/-- A new password. -/
def passwordRotation (uuid password : String) : RotationRequest :=
  ⟨.obj [("password", .str password)], ⟨uuid, uuid, "dek_" ++ uuid, "n", "n", 1⟩, ⟨uuid, 1, "ops"⟩⟩

/-- A connection of the tenant `acme` with one secret. -/
def oneSecret : Db .sqlite :=
  Machine.exec (Transaction.commit (RepoCall.perform "acme")) Store.empty
    [.create .connections (sampleConnection "conn_a"),
      .create .connectionSecrets (newSecret sealedServices "acme" ⟨"0", "0", "dek_0", "n", "n", 0⟩
        "conn_a" (.obj [("password", .str "0")]) 1)]

/-- Three rotations of its credentials. -/
def threeRotations : RotationCrew .sqlite :=
  rotationCrew sealedServices "acme" "conn_a" oneSecret
    [passwordRotation "1" "a", passwordRotation "2" "b", passwordRotation "3" "c"]

/-- The requests make their calls in this order. -/
def inOrder (order : List ℕ) : List (ℕ × Plant) := order.map fun i => (i, emptyPlant)

/-- Two rotations read the same version; the first one stores the next, the second one gets a
conflict, and the third one goes on from there. -/
theorem rotated_conflict : ∃ p : RotationCrew .sqlite,
    p.progs[0]? = some (Prog.pure 2) ∧ p.progs[1]? = some (Prog.throw rotationConflict) ∧
      p.progs[2]? = some (Prog.pure 3) ∧
        Rotated sealedServices "acme" "conn_a" oneSecret
          [passwordRotation "1" "a", passwordRotation "2" "b", passwordRotation "3" "c"] p := by
  have hrun : Crew.Runs Vault.handle (Timely "acme" "conn_a") threeRotations
      (Crew.play Vault.handle threeRotations
        (inOrder [0, 0, 1, 1, 0, 0, 0, 0, 1, 2, 2, 2, 2, 2, 2])) := by
    apply Crew.runs_play
    refine ⟨?_, ?_, ?_, ?_, ?_, ?_, ?_, ?_, ?_, ?_, ?_, ?_, ?_, ?_, ?_, trivial⟩ <;> rintro o k ⟨⟩
    · trivial
    · trivial
    · trivial
    · trivial
    · intro _
      decide +kernel
    · trivial
    · trivial
    · show Store.fits _ _ = true
      decide +kernel
    · intro _
      decide +kernel
    · trivial
    · trivial
    · intro _
      decide +kernel
    · trivial
    · trivial
    · show Store.fits _ _ = true
      decide +kernel
  refine ⟨_, rfl, rfl, rfl, rotated _ _ _ _ _ _ sealedAead_ideal ?_ hrun⟩
  intro r hr
  simp only [List.mem_cons, List.not_mem_nil, or_false] at hr
  rcases hr with rfl | rfl | rfl <;> rfl

/-- The second rotation read the first version, and it goes on when the third one has purged the
second version: it stores that version again. -/
theorem not_rotated_stale : ¬ ∀ (svc : Services) (tenant connectionId : String) (start : Db .sqlite)
    (requests : List RotationRequest) (p : RotationCrew .sqlite), svc.crypto.Ideal →
      (∀ r ∈ requests, svc.crypto.Reads r.credentials) →
        Crew.Runs Vault.handle (fun _ _ _ _ => True)
          (rotationCrew svc tenant connectionId start requests) p →
            Rotated svc tenant connectionId start requests p := by
  intro hall
  have hrun : Crew.Runs Vault.handle (fun _ _ _ _ => True) threeRotations
      (Crew.play Vault.handle threeRotations
        (inOrder [0, 0, 1, 1, 0, 0, 0, 0, 2, 2, 2, 2, 2, 2, 1, 1, 1, 1])) :=
    Crew.runs_play _ (by simp [inOrder, Crew.Allows])
  have hrotated := hall _ _ _ _ _ _ sealedAead_ideal ?_ hrun
  · have hsame := hrotated.distinct 0 1 2 rfl rfl
    cases hsame
  · intro r hr
    simp only [List.mem_cons, List.not_mem_nil, or_false] at hr
    rcases hr with rfl | rfl | rfl <;> rfl

end FlowMesh.Tables
