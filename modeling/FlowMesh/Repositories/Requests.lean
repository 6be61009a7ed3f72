import FlowMesh.Library.Async
import FlowMesh.Repositories.Isolation

/-!
# Requests on the repositories

A handler that works on the database is a program whose awaited calls (`DbOp`) are transactions:
an operation of a repository, which commits at its end, the commit of an object whose attributes
were set, a commit that has nothing to write, or the refresh of an object. `DbOp.work` says what
each does; one that raises has changed nothing.

`inTable t s` are the rows of a table. `fst_fetch`, `inTable_assign`, `inTable_insert` and the
lemmas beside them say what a statement gives and what it does to the rows of each table.
-/

namespace FlowMesh.Tables

open Python Database Transaction Async

variable {d : Dialect} {s s' : Db d} {t : Table}

/-! ## The rows of a table -/

/-- The rows of a table. -/
def inTable (t : Table) (s : Db d) : List (Row t) := s.rows.filterMap (Record.as? t)

theorem mem_inTable {x : Row t} : x ∈ inTable t s ↔ (⟨t, x⟩ : Record) ∈ s.rows := by
  simp [inTable, Record.as?_eq_some]

/-- Two rows of one primary key are one row. -/
theorem eq_of_entityId_eq {x y : Row t} (hx : x ∈ inTable t s) (hy : y ∈ inTable t s)
    (h : x.entityId = y.entityId) : x = y := by
  have hrow : (⟨t, x⟩ : Record) = ⟨t, y⟩ := Store.eq_of_name_eq (mem_inTable.1 hx)
    (mem_inTable.1 hy) (congrArg (Prod.mk t) h)
  cases hrow
  rfl

theorem nodup_inTable (t : Table) (s : Db d) : (inTable t s).Nodup := by
  have hrows : s.rows.Pairwise fun r q => r ≠ q :=
    s.unique.imp fun hne h => hne (Or.inl (congrArg (schema d).name h))
  refine List.Pairwise.filterMap _ (fun r q hne x hx y hy hxy => hne ?_) hrows
  rw [Record.as?_eq_some.1 hx, Record.as?_eq_some.1 hy, hxy]

/-- A list that holds one value only. -/
theorem eq_singleton_of_forall_eq {α : Type} {l : List α} {a : α} (hl : l.Nodup) (ha : a ∈ l)
    (h : ∀ b ∈ l, b = a) : l = [a] := by
  have hreplicate := List.eq_replicate_of_mem h
  rw [hreplicate, List.nodup_replicate] at hl
  have hpos := List.length_pos_of_mem ha
  rw [hreplicate, show l.length = 1 by omega]
  rfl

/-- The row of a primary key. -/
theorem filter_entityId {x : Row t} (hx : x ∈ inTable t s) :
    ((inTable t s).filter fun y => y.entityId = x.entityId) = [x] := by
  refine eq_singleton_of_forall_eq ((nodup_inTable t s).filter _) ?_ fun y hy => ?_
  · exact List.mem_filter.2 ⟨hx, decide_eq_true rfl⟩
  · obtain ⟨hy, hid⟩ := List.mem_filter.1 hy
    exact eq_of_entityId_eq hy hx (of_decide_eq_true hid)

/-- Two rows with a unique value in common are one row. -/
theorem eq_of_key_mem {x y : Row t} {k : Unique} (hx : x ∈ inTable t s) (hy : y ∈ inTable t s)
    (hkx : k ∈ x.keys) (hky : k ∈ y.keys) : x = y := by
  have hrow : (⟨t, x⟩ : Record) = ⟨t, y⟩ := Store.eq_of_clash (mem_inTable.1 hx)
    (mem_inTable.1 hy) (Or.inr ⟨k, hkx, hky⟩)
  cases hrow
  rfl

theorem filterMap_filter_is (p : Row t → Bool) (rows : List Record) :
    (rows.filter (Record.is t p)).filterMap (Record.as? t) =
      (rows.filterMap (Record.as? t)).filter p := by
  rw [List.filterMap_filter, List.filter_filterMap]
  congr 1
  funext r
  unfold Record.is
  cases r.as? t with
  | none => rfl
  | some x => simp [Option.filter]

/-! ## Statements -/

/-- What a query gives. -/
theorem fst_fetch (p : Row t → Bool) (s : Db d) :
    (fetch t p s).1 = .ok ((inTable t s).filter p, s) := by
  unfold fetch
  rw [fst_bind]
  simp only [select, pure_apply, filterMap_filter_is]
  rfl

theorem fst_fetchOwn (tenant : String) (p : Row t → Bool) (s : Db d) :
    (fetchOwn tenant t p s).1 =
      .ok ((inTable t s).filter fun r => r.owner = tenant && p r, s) := fst_fetch _ s

/-- The row of a primary key, for its owner. -/
theorem getById_of_mem {tenant : String} {x : Row t} (hx : x ∈ inTable t s)
    (howner : x.owner = tenant) :
    (TenantScopedRepository.getById tenant t x.entityId s).1 = .ok (some x, s) := by
  have hfilter : ((inTable t s).filter fun r => r.owner = tenant && r.entityId = x.entityId) =
      [x] := by
    apply eq_singleton_of_forall_eq ((nodup_inTable t s).filter _)
    · apply List.mem_filter.2
      simp [hx, howner]
    · intro y hy
      simp only [List.mem_filter, Bool.and_eq_true, decide_eq_true_eq] at hy
      exact eq_of_entityId_eq hy.1 hx hy.2.2
  unfold TenantScopedRepository.getById
  rw [fst_bind, fst_fetchOwn, hfilter]
  rfl

/-- What an update does to the rows of its table. -/
theorem inTable_update (p : Row t → Bool) (f : Assignment t) (s : Db d) :
    inTable t (s.update (Record.is t p) f.rewrite) =
      (inTable t s).map fun x => if p x then f.apply x else x := by
  unfold inTable
  rw [Store.rows_update, List.filterMap_map, List.map_filterMap]
  congr 1
  funext r
  obtain ⟨t', y⟩ := r
  by_cases ht : t' = t
  · subst ht
    by_cases hp : p y = true <;> simp [Schema.Rewrite.on, Assignment.rewrite, hp]
  · have has : Record.as? t ⟨t', y⟩ = none := dif_neg ht
    simp [Schema.Rewrite.on, Assignment.rewrite, has, Record.is]

/-- What falls with rows of a table is one of them, or below them. -/
theorem falls_is {p : Row t → Bool} {n : ℕ} {r : Record}
    (h : s.falls (Record.is t p) n r = true) :
    (∃ x, r = ⟨t, x⟩ ∧ p x = true) ∨ t.level < r.1.level := by
  induction n generalizing r with
  | zero => exact Or.inl (Record.is_iff.1 h)
  | succ n ih =>
    rw [Store.falls_succ, Bool.or_eq_true, List.any_eq_true] at h
    rcases h with h | ⟨q, -, hq⟩
    · exact ih h
    · simp only [Bool.and_eq_true, decide_eq_true_eq] at hq
      have hlevel := level_of_name_mem hq.2
      right
      rcases ih hq.1 with ⟨x, rfl, -⟩ | habove
      · change t.level + 1 = _ at hlevel
        omega
      · omega

theorem falls_of_is {p : Row t → Bool} {n : ℕ} {r : Record} (h : Record.is t p r = true) :
    s.falls (Record.is t p) n r = true := by
  induction n with
  | zero => exact h
  | succ n ih => exact Store.falls_succ_of_falls ih

/-- What a deletion leaves of its table. -/
theorem inTable_delete (p : Row t → Bool) (s : Db d) :
    inTable t (s.delete (Record.is t p)) = (inTable t s).filter fun x => !p x := by
  unfold inTable Store.delete
  rw [Store.rows_filter, ← filterMap_filter_is, List.filterMap_filter, List.filterMap_filter]
  congr 1
  funext r
  cases hr : r.as? t with
  | none => simp
  | some x =>
    rw [Record.as?_eq_some] at hr
    subst hr
    have hfalls : s.falls (Record.is t p) (schema d).depth ⟨t, x⟩ = p x := by
      rw [Bool.eq_iff_iff]
      refine ⟨fun h => ?_, fun h => falls_of_is (by rwa [Record.is_mk])⟩
      rcases falls_is h with ⟨y, hy, hpy⟩ | habove
      · cases hy
        exact hpy
      · exact absurd habove (lt_irrefl _)
    simp [hfalls]

theorem assign_update {p : Row t → Bool} {f : Assignment t} {n : ℕ}
    (h : (assign t p f s).1 = .ok (n, s')) : s' = s.update (Record.is t p) f.rewrite :=
  update_inv h

/-- What an insertion does. -/
theorem insert_inv {x : Row t} {u : Unit}
    (h : ((Transaction.insert ⟨t, x⟩ : Query d Unit) s).1 = .ok (u, s')) :
    s.fits ⟨t, x⟩ = true ∧ s'.rows = s.rows ++ [⟨t, x⟩] := by
  unfold Transaction.insert at h
  split at h
  · next hfits =>
    cases h
    exact ⟨hfits, rfl⟩
  · cases h

theorem inTable_insert {x : Row t} (h : s'.rows = s.rows ++ [⟨t, x⟩]) :
    inTable t s' = inTable t s ++ [x] := by
  simp [inTable, h]

theorem inTable_insert_of_ne {t' : Table} (ht : t' ≠ t) {x : Row t}
    (h : s'.rows = s.rows ++ [⟨t, x⟩]) : inTable t' s' = inTable t' s := by
  have has : Record.as? t' ⟨t, x⟩ = none := dif_neg ht.symm
  simp [inTable, h, has]

/-- A row that can be stored is created. -/
theorem create_of_fits (tenant : String) (x : Row t)
    (h : s.fits ⟨t, x.setTenantId tenant⟩ = true) :
    ∃ s', (TenantScopedRepository.create tenant t x s).1 = .ok (x.setTenantId tenant, s') := by
  refine ⟨s.push _ (Store.fits_iff.1 h).2.1, ?_⟩
  unfold TenantScopedRepository.create
  rw [fst_bind, Transaction.insert, dif_pos h]
  rfl

/-! ## Handlers -/

/-- The awaited calls of a handler. -/
inductive DbOp
  | repo (tenant : String) (c : RepoCall)
  | commit (t : Table) (entityId : String) (f : Assignment t)
  | commitNothing
  | refresh (t : Table) (entityId : String)

/-- The commit of an object whose attributes were set; its row has to be there. -/
def commitObject (t : Table) (entityId : String) (f : Assignment t) : Query d Unit := do
  if (← assign t (fun r => r.entityId = entityId) f) = 0 then
    raise ⟨.other, "UPDATE statement on table expected to update 1 row(s); 0 were matched."⟩
  else return ()

/-- `refresh`: the row of an object is read again. -/
def refreshObject (t : Table) (entityId : String) : Query d (Row t) := do
  match ← scalarOneOrNone (← fetch t fun r => r.entityId = entityId) with
  | some r => return r
  | none => raise ⟨.other, "Could not refresh instance"⟩

/-- What the commit of an object does. -/
theorem commitObject_inv {entityId : String} {f : Assignment t} {u : Unit}
    (h : (commitObject t entityId f s).1 = .ok (u, s')) :
    inTable t s' = ((inTable t s).map fun x => if x.entityId = entityId then f.apply x else x) ∧
      ∃ x ∈ inTable t s, x.entityId = entityId := by
  obtain ⟨n, s₁, hassign, hrest⟩ := bind_inv h
  split at hrest
  · cases hrest
  next hn =>
    obtain ⟨-, rfl⟩ := pure_inv hrest
    refine ⟨?_, ?_⟩
    · rw [assign_update hassign, inTable_update]
      simp only [decide_eq_true_eq]
    · have hcount : n = (s.rows.filter (Record.is t fun r => r.entityId = entityId)).length := by
        unfold assign Transaction.update at hassign
        split at hassign <;> cases hassign
        rfl
      rw [hcount, List.length_eq_zero_iff] at hn
      obtain ⟨r, hr⟩ := List.exists_mem_of_ne_nil _ hn
      obtain ⟨hr, his⟩ := List.mem_filter.1 hr
      obtain ⟨x, rfl, hx⟩ := Record.is_iff.1 his
      exact ⟨x, mem_inTable.2 hr, of_decide_eq_true hx⟩

/-- What a refresh gives. -/
theorem fst_refreshObject (t : Table) (entityId : String) (s : Db d) :
    (refreshObject t entityId s).1 = match (inTable t s).find? fun r => r.entityId = entityId with
      | some x => .ok (x, s)
      | none => .error ⟨.other, "Could not refresh instance"⟩ := by
  unfold refreshObject
  rw [fst_bind, fst_fetch]
  cases hfind : (inTable t s).find? fun r => r.entityId = entityId with
  | none =>
    have hnone : ((inTable t s).filter fun r => r.entityId = entityId) = [] := by
      rwa [List.filter_eq_nil_iff, ← List.find?_eq_none]
    rw [hnone]
    rfl
  | some x =>
    have hid : x.entityId = entityId := by simpa using List.find?_some hfind
    subst hid
    rw [filter_entityId (List.mem_of_find?_eq_some hfind)]
    rfl

/-- The transaction of a call. -/
def DbOp.work : DbOp → Query d Answer
  | .repo tenant c => c.perform tenant
  | .commit t entityId f => answer (fun _ => .done) (commitObject t entityId f)
  | .commitNothing => answer (fun _ => .done) (pure ())
  | .refresh t entityId => answerRow t (refreshObject t entityId)

/-- What a call answers, and the database it leaves. -/
def DbOp.handle (d : Dialect) : Handler DbOp (fun _ => Answer) PyError (Db d) :=
  fun o s => Transaction.commit DbOp.work s o

/-- Programs over the repositories. -/
abbrev Request (α : Type) : Type := Prog DbOp (fun _ => Answer) PyError α

/-- The row of an answer. -/
def Answer.row? (t : Table) : Answer → Option (Row t)
  | .row r => r.bind (Record.as? t)
  | _ => none

/-- The rows of an answer. -/
def Answer.rows? (t : Table) : Answer → List (Row t)
  | .rows rs => rs.filterMap (Record.as? t)
  | _ => []

variable (tenant : String)

/-- An operation that gives a row or none. -/
def getRow (t : Table) (c : RepoCall) : Request (Option (Row t)) := do
  return (← Prog.perform (.repo tenant c)).row? t

/-- An operation that gives rows. -/
def getRows (t : Table) (c : RepoCall) : Request (List (Row t)) := do
  return (← Prog.perform (.repo tenant c)).rows? t

/-- An operation whose answer is not used. -/
def runCall (c : RepoCall) : Request Unit := do
  let _ ← Prog.perform (.repo tenant c)

section Run

variable {tenant}

/-- A transaction, committed. -/
def committed {α : Type} (m : Query d α) (s : Db d) : Except PyError α × Db d :=
  match (m s).1 with
  | .ok (a, s') => (.ok a, s')
  | .error e => (.error e, s)

theorem committed_of_ok {α : Type} {m : Query d α} {a : α} (h : (m s).1 = .ok (a, s')) :
    committed m s = (.ok a, s') := by
  rw [committed, h]

theorem committed_of_error {α : Type} {m : Query d α} {e : PyError} (h : (m s).1 = .error e) :
    committed m s = (.error e, s) := by
  rw [committed, h]

/-- What holds of the database before a transaction and after one that succeeds. -/
theorem committed_rec {α : Type} {m : Query d α} {I : Db d → Prop} (hs : I s)
    (h : ∀ a s', (m s).1 = .ok (a, s') → I s') : I (committed m s).2 := by
  rcases hm : (m s).1 with e | ⟨a, s'⟩
  · rw [committed_of_error hm]
    exact hs
  · rw [committed_of_ok hm]
    exact h a s' hm

theorem handle_answer {α : Type} {o : DbOp} {f : α → Answer} {m : Query d α}
    (ho : o.work = answer f m) (s : Db d) :
    DbOp.handle d o s = ((committed m s).1.map f, (committed m s).2) := by
  unfold DbOp.handle Transaction.commit committed
  rw [ho, answer, fst_bind]
  rcases (m s).1 with e | ⟨a, s'⟩ <;> rfl

/-- A repository is made for a tenant that is named. -/
theorem work_repo (htenant : tenant ≠ "") (c : RepoCall) :
    (DbOp.repo tenant c).work = (c.body tenant : Query d Answer) := if_neg htenant

/-- A transaction succeeds, or it leaves the database as it is. -/
theorem handle_cases (o : DbOp) (s : Db d) :
    (∃ x s', (o.work s).1 = .ok (x, s') ∧ DbOp.handle d o s = (.ok x, s')) ∨
      ∃ e, (o.work s).1 = .error e ∧ DbOp.handle d o s = (.error e, s) := by
  unfold DbOp.handle Transaction.commit
  rcases (o.work s).1 with e | ⟨x, s'⟩
  · exact Or.inr ⟨e, rfl, rfl⟩
  · exact Or.inl ⟨x, s', rfl, rfl⟩

/-- An operation that succeeds gives what its query gives. -/
theorem answer_inv {α : Type} {f : α → Answer} {m : Query d α} {x : Answer}
    (h : (answer f m s).1 = .ok (x, s')) : ∃ a, (m s).1 = .ok (a, s') ∧ x = f a := by
  obtain ⟨a, s₁, hm, hpure⟩ := bind_inv h
  obtain ⟨rfl, rfl⟩ := pure_inv hpure
  exact ⟨a, hm, rfl⟩

theorem answer_error {α : Type} {f : α → Answer} {m : Query d α} {e : PyError}
    (h : (answer f m s).1 = .error e) : (m s).1 = .error e := by
  unfold answer at h
  rw [fst_bind] at h
  split at h
  · cases h
  next he =>
    cases h
    exact he

theorem tenant_ne_of_work {c : RepoCall} {x : Answer}
    (h : ((DbOp.repo tenant c).work s).1 = .ok (x, s')) : tenant ≠ "" := by
  rintro rfl
  cases h

/-- An operation that succeeds ran its body. -/
theorem work_inv {c : RepoCall} {x : Answer}
    (h : ((DbOp.repo tenant c).work s).1 = .ok (x, s')) : (c.body tenant s).1 = .ok (x, s') := by
  change (c.perform tenant s).1 = _ at h
  unfold RepoCall.perform at h
  split at h
  · cases h
  · exact h

theorem run_getRow {m : Query d (Option (Row t))} {c : RepoCall} (htenant : tenant ≠ "")
    (hc : c.body tenant = answerRow? t m) (s : Db d) :
    (getRow tenant t c).run (DbOp.handle d) s = committed m s := by
  unfold getRow
  rw [Prog.run_bind, Prog.run_perform, handle_answer ((work_repo htenant c).trans hc)]
  rcases committed m s with ⟨e | x, s'⟩
  · rfl
  · cases x with
    | none => rfl
    | some x => simp [Except.map, Answer.row?]

theorem run_getRow_some {m : Query d (Row t)} {c : RepoCall} (htenant : tenant ≠ "")
    (hc : c.body tenant = answerRow t m) (s : Db d) :
    (getRow tenant t c).run (DbOp.handle d) s =
      ((committed m s).1.map some, (committed m s).2) := by
  unfold getRow
  rw [Prog.run_bind, Prog.run_perform, handle_answer ((work_repo htenant c).trans hc)]
  rcases committed m s with ⟨e | x, s'⟩
  · rfl
  · simp [Except.map, Answer.row?]

theorem run_getRows {m : Query d (List (Row t))} {c : RepoCall} (htenant : tenant ≠ "")
    (hc : c.body tenant = answerRows t m) (s : Db d) :
    (getRows tenant t c).run (DbOp.handle d) s = committed m s := by
  unfold getRows
  rw [Prog.run_bind, Prog.run_perform, handle_answer ((work_repo htenant c).trans hc)]
  rcases committed m s with ⟨e | x, s'⟩
  · rfl
  · simp [Except.map, Answer.rows?]

end Run

end FlowMesh.Tables
