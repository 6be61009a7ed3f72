import FlowMesh.Library.Machine
import Mathlib.Data.List.Nodup
import Mathlib.Data.List.Pairwise

/-!
# Transactions on a store that several owners share

The rows of a store belong to owners. A `Schema` says how: who owns a row, under which name it is
stored (its primary key), which other unique values it takes, and which rows it refers to. Rows
of which no two share a name or a unique value make a `Store`.

A `Transaction` is a sequence of statements that is committed as a whole: one that fails leaves
the store alone. Besides its outcome it gives the rows that its statements selected.

`Blind b m s` says that the transaction `m`, run on `s`, has nothing to do with the owner `b`: it
selects no row of `b`, leaves the rows of `b` alone, and does the same where `b` has no rows. The
rules:

* `blind_bind_iff`: after a first part that is blind, the whole is blind exactly if the rest is;
* `blind_select_iff`, `blind_update`, `blind_delete_iff`, `blind_insert_iff`: the statements;
* `isolated_iff`: a sequence of transactions has nothing to do with `b` at any point exactly if
  each of them is blind on the store that it finds.
-/

namespace Database

/-! ## Stores -/

/-- How the rows `ρ` of a store are told apart. The columns of a row may be refused by
themselves, whatever is stored; `depth` is the length of the longest chain of foreign keys. -/
structure Schema (ρ τ ν κ ε : Type) where
  owner : ρ → τ
  name : ρ → ν
  keys : ρ → List κ
  refs : ρ → List ν
  refused : ρ → Option ε
  integrityError : ρ → ε
  depth : ℕ

variable {ρ τ ν κ ε α β : Type} {S : Schema ρ τ ν κ ε}

/-- Two rows that cannot be stored together. -/
def Schema.Clash (S : Schema ρ τ ν κ ε) (r q : ρ) : Prop :=
  S.name r = S.name q ∨ ∃ k ∈ S.keys r, k ∈ S.keys q

instance [DecidableEq ν] [DecidableEq κ] (r q : ρ) : Decidable (S.Clash r q) :=
  inferInstanceAs (Decidable (_ ∨ _))

/-- An assignment to columns that are neither unique nor say whose the row is. It may give up a
unique value. -/
structure Schema.Rewrite (S : Schema ρ τ ν κ ε) where
  apply : ρ → ρ
  owner_apply : ∀ r, S.owner (apply r) = S.owner r
  name_apply : ∀ r, S.name (apply r) = S.name r
  keys_apply : ∀ r, S.keys (apply r) ⊆ S.keys r

namespace Schema.Rewrite

variable (f : S.Rewrite) (p : ρ → Bool)

/-- The assignment, on the rows that satisfy `p`. -/
def on (r : ρ) : ρ := if p r then f.apply r else r

theorem owner_on (r : ρ) : S.owner (f.on p r) = S.owner r := by
  unfold on
  split
  · exact f.owner_apply r
  · rfl

theorem name_on (r : ρ) : S.name (f.on p r) = S.name r := by
  unfold on
  split
  · exact f.name_apply r
  · rfl

theorem keys_on (r : ρ) : S.keys (f.on p r) ⊆ S.keys r := by
  unfold on
  split
  · exact f.keys_apply r
  · exact List.Subset.refl _

theorem clash_of_on {r q : ρ} (h : S.Clash (f.on p r) (f.on p q)) : S.Clash r q := by
  rcases h with h | ⟨k, hr, hq⟩
  · left
    rw [f.name_on, f.name_on] at h
    exact h
  · right
    exact ⟨k, f.keys_on p r hr, f.keys_on p q hq⟩

end Schema.Rewrite

/-- Rows of which no two clash. -/
structure Store (S : Schema ρ τ ν κ ε) where
  rows : List ρ
  unique : rows.Pairwise fun r q => ¬ S.Clash r q

namespace Store

/-- The store without rows. -/
def empty : Store S := ⟨[], List.Pairwise.nil⟩

@[ext] theorem ext {s s' : Store S} (h : s.rows = s'.rows) : s = s' := by
  cases s
  cases s'
  cases h
  rfl

/-- The rows that are kept. -/
def filter (s : Store S) (p : ρ → Bool) : Store S :=
  ⟨s.rows.filter p, s.unique.sublist List.filter_sublist⟩

@[simp] theorem rows_filter (s : Store S) (p : ρ → Bool) :
    (s.filter p).rows = s.rows.filter p := rfl

/-- `UPDATE .. SET f WHERE p`. -/
def update (s : Store S) (p : ρ → Bool) (f : S.Rewrite) : Store S where
  rows := s.rows.map (f.on p)
  unique := by
    apply s.unique.map
    intro r q hne h
    exact hne (f.clash_of_on p h)

@[simp] theorem rows_update (s : Store S) (p : ρ → Bool) (f : S.Rewrite) :
    (s.update p f).rows = s.rows.map (f.on p) := rfl

/-- The store with one more row. -/
def push (s : Store S) (r : ρ) (h : ∀ q ∈ s.rows, ¬ S.Clash q r) : Store S where
  rows := s.rows ++ [r]
  unique := by
    rw [List.pairwise_append]
    refine ⟨s.unique, List.pairwise_singleton _ _, fun q hq x hx => ?_⟩
    rw [List.mem_singleton.1 hx]
    exact h q hq

/-- Two rows that clash are one row. -/
theorem eq_of_clash {s : Store S} {r q : ρ} (hr : r ∈ s.rows) (hq : q ∈ s.rows)
    (h : S.Clash r q) : r = q := by
  have hsymm : Std.Symm fun r q => ¬ S.Clash r q := by
    refine ⟨fun r q hne h => hne ?_⟩
    rcases h with h | ⟨k, hk, hk'⟩
    · exact Or.inl h.symm
    · exact Or.inr ⟨k, hk', hk⟩
  by_contra hne
  exact s.unique.forall hr hq hne h

/-- Two rows of one name are one row. -/
theorem eq_of_name_eq {s : Store S} {r q : ρ} (hr : r ∈ s.rows) (hq : q ∈ s.rows)
    (h : S.name r = S.name q) : r = q :=
  eq_of_clash hr hq (Or.inl h)

/-! ### Names -/

/-- The owner has a row of this name. -/
def Owns (s : Store S) (a : τ) (n : ν) : Prop := ∃ r ∈ s.rows, S.owner r = a ∧ S.name r = n

theorem Owns.update {s : Store S} {a : τ} {n : ν} (h : s.Owns a n) (p : ρ → Bool)
    (f : S.Rewrite) : (s.update p f).Owns a n := by
  obtain ⟨r, hr, howner, hname⟩ := h
  refine ⟨f.on p r, List.mem_map_of_mem hr, ?_, ?_⟩
  · rw [f.owner_on, howner]
  · rw [f.name_on, hname]

/-! ### The rows of one owner -/

section Owner

variable [DecidableEq τ]

/-- The store as it would be if the owner had no rows. -/
def without (s : Store S) (b : τ) : Store S := s.filter fun r => S.owner r ≠ b

/-- The rows of an owner. -/
def rowsOf (s : Store S) (b : τ) : List ρ := s.rows.filter fun r => S.owner r = b

theorem mem_without {s : Store S} {b : τ} {r : ρ} :
    r ∈ (s.without b).rows ↔ r ∈ s.rows ∧ S.owner r ≠ b := by
  simp [without]

theorem mem_rowsOf {s : Store S} {b : τ} {r : ρ} :
    r ∈ s.rowsOf b ↔ r ∈ s.rows ∧ S.owner r = b := by
  simp [rowsOf]

/-- What another owner has under a name, `b` does not. -/
theorem Owns.name_ne {s : Store S} {a b : τ} {n : ν} (h : s.Owns a n) (hab : a ≠ b) {q : ρ}
    (hq : q ∈ s.rowsOf b) : S.name q ≠ n := by
  rintro rfl
  obtain ⟨r, hr, howner, hname⟩ := h
  obtain ⟨hq, hb⟩ := mem_rowsOf.1 hq
  rw [eq_of_name_eq hr hq hname, hb] at howner
  exact hab howner.symm

theorem filter_without {s : Store S} {b : τ} {p : ρ → Bool} (hp : ∀ r ∈ s.rowsOf b, p r = false) :
    (s.without b).rows.filter p = s.rows.filter p := by
  rw [without, rows_filter, List.filter_filter]
  apply List.filter_congr
  intro r hr
  by_cases hb : S.owner r = b
  · simp [hp r (mem_rowsOf.2 ⟨hr, hb⟩)]
  · simp [hb]

theorem without_update (s : Store S) (b : τ) (p : ρ → Bool) (f : S.Rewrite) :
    (s.update p f).without b = (s.without b).update p f := by
  ext1
  simp only [without, rows_filter, rows_update, List.filter_map, Function.comp_def, f.owner_on]

theorem rowsOf_update {s : Store S} {b : τ} {p : ρ → Bool} (f : S.Rewrite)
    (hp : ∀ r ∈ s.rowsOf b, p r = false) : (s.update p f).rowsOf b = s.rowsOf b := by
  have hon : ∀ r ∈ s.rowsOf b, f.on p r = r := by
    intro r hr
    rw [Schema.Rewrite.on, hp r hr]
    rfl
  rw [rowsOf, rows_update, List.filter_map]
  simp only [Function.comp_def, f.owner_on]
  rw [← rowsOf, List.map_congr_left hon, List.map_id']

theorem without_push {s : Store S} {b : τ} {r : ρ} {h : ∀ q ∈ s.rows, ¬ S.Clash q r}
    (hb : S.owner r ≠ b) : ((s.push r h).without b).rows = (s.without b).rows ++ [r] := by
  simp [without, push, hb]

theorem rowsOf_push {s : Store S} {b : τ} {r : ρ} {h : ∀ q ∈ s.rows, ¬ S.Clash q r}
    (hb : S.owner r ≠ b) : (s.push r h).rowsOf b = s.rowsOf b := by
  simp [rowsOf, push, hb]

end Owner

/-! ### Insertion -/

section Keys

variable [DecidableEq ν] [DecidableEq κ]

/-- The row can be stored: its columns are accepted, no stored row clashes with it, and the rows
that it refers to are there. -/
def fits (s : Store S) (r : ρ) : Bool :=
  (S.refused r).isNone && s.rows.all (fun q => ¬ S.Clash q r) &&
    (S.refs r).all fun n => s.rows.any fun q => S.name q = n

theorem fits_iff {s : Store S} {r : ρ} : s.fits r = true ↔ S.refused r = none ∧
    (∀ q ∈ s.rows, ¬ S.Clash q r) ∧ ∀ n ∈ S.refs r, ∃ q ∈ s.rows, S.name q = n := by
  simp [fits, and_assoc]

/-- Assignments that leave the unique values alone make no room and take none. -/
theorem fits_update (s : Store S) (p : ρ → Bool) {f : S.Rewrite}
    (hf : ∀ r, S.keys (f.apply r) = S.keys r) (r : ρ) : (s.update p f).fits r = s.fits r := by
  have hkeys : ∀ q, S.keys (f.on p q) = S.keys q := by
    intro q
    unfold Schema.Rewrite.on
    split
    · exact hf q
    · rfl
  rw [Bool.eq_iff_iff, fits_iff, fits_iff]
  simp only [rows_update, List.mem_map, forall_exists_index, and_imp, forall_apply_eq_imp_iff₂,
    exists_exists_and_eq_and, Schema.Clash, f.name_on, hkeys]

end Keys

/-! ### Deletion -/

section Names

variable [DecidableEq ν]

/-- The rows that fall with those that satisfy `p`, over at most `n` foreign keys. -/
def falls (s : Store S) (p : ρ → Bool) : ℕ → ρ → Bool
  | 0, r => p r
  | n + 1, r => s.falls p n r || s.rows.any fun q => s.falls p n q && S.name q ∈ S.refs r

theorem falls_succ (s : Store S) (p : ρ → Bool) (n : ℕ) (r : ρ) : s.falls p (n + 1) r =
    (s.falls p n r || s.rows.any fun q => s.falls p n q && S.name q ∈ S.refs r) := rfl

/-- `DELETE .. WHERE p`, where foreign keys cascade. -/
def delete (s : Store S) (p : ρ → Bool) : Store S := s.filter fun r => !s.falls p S.depth r

theorem falls_succ_of_falls {s : Store S} {p : ρ → Bool} {n : ℕ} {r : ρ}
    (h : s.falls p n r = true) : s.falls p (n + 1) r = true := by
  rw [falls_succ, h, Bool.true_or]

/-- Where no row of `b` falls, `b` has no part in what falls. -/
theorem falls_without [DecidableEq τ] {s : Store S} {b : τ} {p : ρ → Bool} {n : ℕ}
    (h : ∀ r ∈ s.rowsOf b, s.falls p n r = false) (r : ρ) :
    (s.without b).falls p n r = s.falls p n r := by
  induction n generalizing r with
  | zero => rfl
  | succ n ih =>
    have hprev : ∀ q ∈ s.rowsOf b, s.falls p n q = false := by
      intro q hq
      cases hf : s.falls p n q with
      | false => rfl
      | true =>
        have := h q hq
        rw [falls_succ_of_falls hf] at this
        cases this
    rw [falls_succ, falls_succ, ih hprev]
    congr 1
    rw [Bool.eq_iff_iff, List.any_eq_true, List.any_eq_true]
    constructor
    · rintro ⟨q, hq, hfalls⟩
      rw [ih hprev] at hfalls
      exact ⟨q, (mem_without.1 hq).1, hfalls⟩
    · rintro ⟨q, hq, hfalls⟩
      by_cases hb : S.owner q = b
      · rw [hprev q (mem_rowsOf.2 ⟨hq, hb⟩)] at hfalls
        cases hfalls
      · rw [← ih hprev] at hfalls
        exact ⟨q, mem_without.2 ⟨hq, hb⟩, hfalls⟩

end Names

end Store

/-! ## Transactions -/

/-- Statements that are committed as a whole: the outcome with the store it leaves, and the rows
that were selected on the way. -/
def Transaction (S : Schema ρ τ ν κ ε) (α : Type) : Type :=
  Store S → Except ε (α × Store S) × List ρ

namespace Transaction

/-- Run `m`, then `f` on its value; an error of `m` skips `f`. -/
protected def bind (m : Transaction S α) (f : α → Transaction S β) : Transaction S β := fun s =>
  match m s with
  | (.ok (a, s'), l) => ((f a s').1, l ++ (f a s').2)
  | (.error e, l) => (.error e, l)

instance : Monad (Transaction S) where
  pure a := fun s => (.ok (a, s), [])
  bind := Transaction.bind

/-- Fail. -/
def raise (e : ε) : Transaction S α := fun _ => (.error e, [])

/-- `SELECT .. WHERE p`. -/
def select (p : ρ → Bool) : Transaction S (List ρ) := fun s =>
  (.ok (s.rows.filter p, s), s.rows.filter p)

/-- `UPDATE .. SET f WHERE p`; the number of rows it matches. -/
def update (p : ρ → Bool) (f : S.Rewrite) : Transaction S ℕ := fun s =>
  match (s.rows.filter p).findSome? fun r => S.refused (f.apply r) with
  | some e => (.error e, [])
  | none => (.ok ((s.rows.filter p).length, s.update p f), [])

/-- `DELETE .. WHERE p`; the number of rows it matches. -/
def delete [DecidableEq ν] (p : ρ → Bool) : Transaction S ℕ := fun s =>
  (.ok ((s.rows.filter p).length, s.delete p), [])

/-- `INSERT` of a row. -/
def insert [DecidableEq ν] [DecidableEq κ] (r : ρ) : Transaction S Unit := fun s =>
  if h : s.fits r = true then (.ok ((), s.push r (Store.fits_iff.1 h).2.1), [])
  else (.error ((S.refused r).getD (S.integrityError r)), [])

/-! ### Sequencing -/

theorem pure_apply (a : α) (s : Store S) : (pure a : Transaction S α) s = (.ok (a, s), []) := rfl

theorem bind_ok {m : Transaction S α} (f : α → Transaction S β) {s s' : Store S} {a : α}
    {l : List ρ} (h : m s = (.ok (a, s'), l)) :
    (m >>= f) s = ((f a s').1, l ++ (f a s').2) := by
  change Transaction.bind m f s = _
  rw [Transaction.bind, h]

theorem bind_error {m : Transaction S α} (f : α → Transaction S β) {s : Store S} {e : ε}
    {l : List ρ} (h : m s = (.error e, l)) : (m >>= f) s = (.error e, l) := by
  change Transaction.bind m f s = _
  rw [Transaction.bind, h]

/-- The outcome of a sequence. -/
theorem fst_bind (m : Transaction S α) (f : α → Transaction S β) (s : Store S) :
    ((m >>= f) s).1 = match (m s).1 with
      | .ok (a, s') => (f a s').1
      | .error e => .error e := by
  rcases hms : m s with ⟨e | ⟨a, s'⟩, l⟩
  · rw [bind_error f hms]
  · rw [bind_ok f hms]

/-- A sequence that succeeds has a first part that does. -/
theorem bind_inv {m : Transaction S α} {f : α → Transaction S β} {s s'' : Store S} {c : β}
    (h : ((m >>= f) s).1 = .ok (c, s'')) :
    ∃ a s', (m s).1 = .ok (a, s') ∧ (f a s').1 = .ok (c, s'') := by
  rcases hms : m s with ⟨e | ⟨a, s'⟩, l⟩
  · rw [bind_error f hms] at h
    cases h
  · rw [bind_ok f hms] at h
    exact ⟨a, s', rfl, h⟩

/-- The value of a query, computed on. -/
theorem map_bind {γ : Type} (m : Transaction S α) (g : α → β) (f : β → Transaction S γ) :
    (m >>= fun a => pure (g a)) >>= f = m >>= fun a => f (g a) := by
  funext s
  rcases hms : m s with ⟨e | ⟨a, s'⟩, l⟩
  · rw [bind_error _ hms, bind_error _ (bind_error _ hms)]
  · rw [bind_ok _ hms, bind_ok _ (bind_ok _ hms), pure_apply, List.append_nil]

theorem pure_inv {a c : α} {s s' : Store S}
    (h : ((pure a : Transaction S α) s).1 = .ok (c, s')) : c = a ∧ s' = s := by
  cases h
  exact ⟨rfl, rfl⟩

theorem select_inv {p : ρ → Bool} {s s' : Store S} {l : List ρ}
    (h : (select p s).1 = .ok (l, s')) : l = s.rows.filter p ∧ s' = s := by
  cases h
  exact ⟨rfl, rfl⟩

theorem update_inv {p : ρ → Bool} {f : S.Rewrite} {s s' : Store S} {n : ℕ}
    (h : (update p f s).1 = .ok (n, s')) : s' = s.update p f := by
  unfold update at h
  split at h <;> cases h
  rfl

/-! ## Transactions that have nothing to do with an owner -/

section Blind

variable [DecidableEq τ] {b : τ} {m : Transaction S α} {s : Store S}

/-- The transaction does the same where `b` has no rows, leaves the rows of `b` alone and selects
none of them. -/
structure Blind (b : τ) (m : Transaction S α) (s : Store S) : Prop where
  same : (m (s.without b)).1 = (m s).1.map fun x => (x.1, x.2.without b)
  kept : ∀ a s', (m s).1 = .ok (a, s') → s'.rowsOf b = s.rowsOf b
  unread : ∀ r ∈ (m s).2, S.owner r ≠ b

theorem blind_pure (b : τ) (a : α) (s : Store S) : Blind b (pure a) s where
  same := rfl
  kept := by
    rintro _ _ ⟨⟩
    rfl
  unread := by
    intro r hr
    cases hr

theorem blind_raise (b : τ) (e : ε) (s : Store S) : Blind b (raise e : Transaction S α) s where
  same := rfl
  kept := by
    rintro _ _ ⟨⟩
  unread := by
    intro r hr
    cases hr

/-- After a blind first part, the whole is blind exactly if the rest is. -/
theorem blind_bind_iff (hm : Blind b m s) (f : α → Transaction S β) :
    Blind b (m >>= f) s ↔ ∀ a s', (m s).1 = .ok (a, s') → Blind b (f a) s' := by
  rcases hms : m s with ⟨e | ⟨a, s'⟩, l⟩
  · have hsame := hm.same
    rw [hms] at hsame
    have hbind := bind_error f hms
    constructor
    · rintro - a s' ⟨⟩
    · intro _
      refine ⟨?_, ?_, ?_⟩
      · rcases hmb : m (s.without b) with ⟨r, l'⟩
        rw [hmb] at hsame
        cases hsame
        rw [bind_error f hmb, hbind]
        rfl
      · rw [hbind]
        rintro _ _ ⟨⟩
      · rw [hbind]
        have hunread := hm.unread
        rw [hms] at hunread
        exact hunread
  · have hbind := bind_ok f hms
    have hkept := hm.kept a s' (by rw [hms])
    have hunread := hm.unread
    rw [hms] at hunread
    have hwithout : ((m >>= f) (s.without b)).1 = (f a (s'.without b)).1 := by
      have hsame := hm.same
      rcases hmb : m (s.without b) with ⟨r, l'⟩
      rw [hms, hmb] at hsame
      cases hsame
      rw [bind_ok f hmb]
    constructor
    · rintro h _ _ ⟨⟩
      refine ⟨?_, ?_, ?_⟩
      · rw [← hwithout, h.same, hbind]
      · intro c s'' hc
        rw [hkept]
        exact h.kept c s'' (by rw [hbind]; exact hc)
      · intro r hr
        apply h.unread r
        rw [hbind]
        exact List.mem_append_right _ hr
    · intro h
      have hf := h a s' rfl
      refine ⟨?_, ?_, ?_⟩
      · rw [hwithout, hf.same, hbind]
      · intro c s'' hc
        rw [hbind] at hc
        rw [hf.kept c s'' hc, hkept]
      · intro r hr
        rw [hbind] at hr
        rcases List.mem_append.1 hr with hr | hr
        · exact hunread r hr
        · exact hf.unread r hr

theorem blind_bind (hm : Blind b m s) {f : α → Transaction S β}
    (hf : ∀ a s', (m s).1 = .ok (a, s') → Blind b (f a) s') : Blind b (m >>= f) s :=
  (blind_bind_iff hm f).2 hf

theorem blind_map {g : α → β} (h : Blind b m s) : Blind b (m >>= fun a => pure (g a)) s :=
  blind_bind h fun a s' _ => blind_pure b (g a) s'

/-- What a function tells apart, it keeps apart in the outcome. -/
theorem blind_map_iff {g : α → β} (hg : Function.Injective g) :
    Blind b (m >>= fun a => pure (g a)) s ↔ Blind b m s := by
  have hval : ∀ s, ((m >>= fun a => pure (g a)) s).1 = (m s).1.map fun x => (g x.1, x.2) := by
    intro s
    rcases hms : m s with ⟨e | ⟨a, s'⟩, l⟩
    · rw [bind_error _ hms]
      rfl
    · rw [bind_ok _ hms]
      rfl
  have hlog : ((m >>= fun a => pure (g a)) s).2 = (m s).2 := by
    rcases hms : m s with ⟨e | ⟨a, s'⟩, l⟩
    · rw [bind_error _ hms]
    · rw [bind_ok _ hms]
      exact List.append_nil l
  refine ⟨fun h => ⟨?_, ?_, ?_⟩, blind_map⟩
  · have hsame := h.same
    rw [hval, hval] at hsame
    revert hsame
    rcases (m s).1 with e | ⟨a, s'⟩ <;> rcases (m (s.without b)).1 with e' | ⟨a', s''⟩ <;>
      intro hsame
    · cases hsame
      rfl
    · cases hsame
    · cases hsame
    · simp only [Except.map, Except.ok.injEq, Prod.mk.injEq] at hsame ⊢
      exact ⟨hg hsame.1, hsame.2⟩
  · intro a s' ha
    apply h.kept (g a) s'
    rw [hval, ha]
    rfl
  · rw [← hlog]
    exact h.unread

/-! ### Statements -/

theorem blind_select_iff {p : ρ → Bool} :
    Blind b (select p) s ↔ ∀ r ∈ s.rowsOf b, p r = false := by
  constructor
  · intro h r hr
    obtain ⟨hr, howner⟩ := Store.mem_rowsOf.1 hr
    by_contra hp
    exact h.unread r (List.mem_filter.2 ⟨hr, by simpa using hp⟩) howner
  · intro h
    refine ⟨?_, ?_, ?_⟩
    · simp only [select, Except.map, Store.filter_without h]
    · rintro _ _ ⟨⟩
      rfl
    · intro r hr hb
      obtain ⟨hr, hp⟩ := List.mem_filter.1 hr
      rw [h r (Store.mem_rowsOf.2 ⟨hr, hb⟩)] at hp
      cases hp

/-- A selection that is followed by more has to be blind itself. -/
theorem blind_select_bind_iff {p : ρ → Bool} (f : List ρ → Transaction S β) :
    Blind b (select p >>= f) s ↔
      (∀ r ∈ s.rowsOf b, p r = false) ∧ Blind b (f (s.rows.filter p)) s := by
  have hselect : (∀ r ∈ s.rowsOf b, p r = false) →
      (Blind b (select p >>= f) s ↔ Blind b (f (s.rows.filter p)) s) := by
    intro hp
    rw [blind_bind_iff (blind_select_iff.2 hp)]
    constructor
    · intro h
      exact h _ _ rfl
    · rintro h _ _ ⟨⟩
      exact h
  constructor
  · intro h
    have hp : ∀ r ∈ s.rowsOf b, p r = false := by
      intro r hr
      obtain ⟨hr, howner⟩ := Store.mem_rowsOf.1 hr
      by_contra hpr
      apply h.unread r _ howner
      exact List.mem_append_left _ (List.mem_filter.2 ⟨hr, by simpa using hpr⟩)
    exact ⟨hp, (hselect hp).1 h⟩
  · rintro ⟨hp, h⟩
    exact (hselect hp).2 h

theorem blind_update {p : ρ → Bool} (f : S.Rewrite) (h : ∀ r ∈ s.rowsOf b, p r = false) :
    Blind b (update p f) s := by
  have hrows := Store.filter_without h
  unfold update
  cases hf : (s.rows.filter p).findSome? fun r => S.refused (f.apply r) with
  | some e =>
    refine ⟨?_, ?_, ?_⟩
    · simp only [hrows, hf, Except.map]
    · simp only [hf]
      rintro _ _ ⟨⟩
    · simp only [hf]
      intro r hr
      cases hr
  | none =>
    refine ⟨?_, ?_, ?_⟩
    · simp only [hrows, hf, Except.map, Store.without_update]
    · simp only [hf]
      rintro _ _ ⟨⟩
      exact Store.rowsOf_update f h
    · simp only [hf]
      intro r hr
      cases hr

/-- A deletion is blind exactly if none of the owner's rows falls with the deleted ones. -/
theorem blind_delete_iff [DecidableEq ν] {p : ρ → Bool} {g : ℕ → β} :
    Blind b (delete p >>= fun n => pure (g n)) s ↔
      ∀ r ∈ s.rowsOf b, s.falls p S.depth r = false := by
  constructor
  · intro h r hr
    have hkept := h.kept _ _ rfl
    rw [← hkept] at hr
    obtain ⟨hr, -⟩ := Store.mem_rowsOf.1 hr
    simpa using (List.mem_filter.1 hr).2
  · intro h
    have hp : ∀ r ∈ s.rowsOf b, p r = false := by
      intro r hr
      have hfalls : ∀ n, s.falls p n r = false → p r = false := by
        intro n
        induction n with
        | zero => exact id
        | succ n ih =>
          intro hn
          rw [Store.falls_succ, Bool.or_eq_false_iff] at hn
          exact ih hn.1
      exact hfalls S.depth (h r hr)
    apply blind_map
    refine ⟨?_, ?_, ?_⟩
    · have hstore : (s.without b).delete p = (s.delete p).without b := by
        ext1
        simp only [Store.delete, Store.rows_filter, Store.falls_without h]
        simp only [Store.without, Store.rows_filter]
        rw [List.filter_comm]
      simp only [delete, Except.map, Store.filter_without hp, hstore]
    · rintro _ _ ⟨⟩
      rw [Store.rowsOf, Store.delete, Store.rows_filter, List.filter_filter, Store.rowsOf]
      apply List.filter_congr
      intro r hr
      by_cases howner : S.owner r = b
      · simp [howner, h r (Store.mem_rowsOf.2 ⟨hr, howner⟩)]
      · simp [howner]
    · intro r hr
      cases hr

/-- The row is stored or refused without regard to `b`: what the other owners' rows leave room
for, no row of `b` stands in the way of, and it does not lean on a row of `b`. -/
structure Indifferent [DecidableEq ν] [DecidableEq κ] (b : τ) (r : ρ) (s : Store S) : Prop where
  free : (s.without b).fits r = true → ∀ q ∈ s.rowsOf b, ¬ S.Clash q r
  founded : s.fits r = true → ∀ n ∈ S.refs r, ∃ q ∈ (s.without b).rows, S.name q = n

theorem indifferent_iff [DecidableEq ν] [DecidableEq κ] {r : ρ} :
    Indifferent b r s ↔ (s.without b).fits r = s.fits r := by
  constructor
  · intro h
    rw [Bool.eq_iff_iff]
    constructor
    · intro hfits
      obtain ⟨hrefused, hclash, hrefs⟩ := Store.fits_iff.1 hfits
      refine Store.fits_iff.2 ⟨hrefused, fun q hq => ?_, fun n hn => ?_⟩
      · by_cases hb : S.owner q = b
        · exact h.free hfits q (Store.mem_rowsOf.2 ⟨hq, hb⟩)
        · exact hclash q (Store.mem_without.2 ⟨hq, hb⟩)
      · obtain ⟨q, hq, hname⟩ := hrefs n hn
        exact ⟨q, (Store.mem_without.1 hq).1, hname⟩
    · intro hfits
      obtain ⟨hrefused, hclash, -⟩ := Store.fits_iff.1 hfits
      exact Store.fits_iff.2
        ⟨hrefused, fun q hq => hclash q (Store.mem_without.1 hq).1, h.founded hfits⟩
  · intro h
    refine ⟨fun hfits q hq => ?_, fun hfits => ?_⟩
    · rw [h] at hfits
      exact (Store.fits_iff.1 hfits).2.1 q (Store.mem_rowsOf.1 hq).1
    · rw [← h] at hfits
      exact (Store.fits_iff.1 hfits).2.2

theorem indifferent_update_iff [DecidableEq ν] [DecidableEq κ] {r : ρ} (p : ρ → Bool)
    {f : S.Rewrite} (hf : ∀ r, S.keys (f.apply r) = S.keys r) :
    Indifferent b r (s.update p f) ↔ Indifferent b r s := by
  rw [indifferent_iff, indifferent_iff, Store.without_update, Store.fits_update _ p hf,
    Store.fits_update _ p hf]

theorem blind_insert_iff [DecidableEq ν] [DecidableEq κ] {r : ρ} (hb : S.owner r ≠ b) :
    Blind b (insert r) s ↔ Indifferent b r s := by
  rw [indifferent_iff]
  constructor
  · intro h
    have hsame := h.same
    unfold insert at hsame
    by_cases hfits : s.fits r = true <;> by_cases hfits' : (s.without b).fits r = true
    · rw [hfits, hfits']
    · simp [hfits, hfits', Except.map] at hsame
    · simp [hfits, hfits', Except.map] at hsame
    · rw [Bool.not_eq_true] at hfits hfits'
      rw [hfits, hfits']
  · intro h
    unfold insert
    by_cases hfits : s.fits r = true
    · have hfits' := h.trans hfits
      refine ⟨?_, ?_, ?_⟩
      · simp only [hfits, hfits', ↓reduceDIte, Except.map]
        congr 2
        ext1
        rw [Store.without_push hb]
        rfl
      · simp only [hfits, ↓reduceDIte]
        rintro _ _ ⟨⟩
        exact Store.rowsOf_push hb
      · simp only [hfits, ↓reduceDIte]
        intro q hq
        cases hq
    · have hfits' : ¬ (s.without b).fits r = true := by rwa [h]
      refine ⟨?_, ?_, ?_⟩
      · simp [hfits, hfits', Except.map]
      · simp only [hfits]
        rintro _ _ ⟨⟩
      · simp only [hfits]
        intro q hq
        cases hq

end Blind

/-! ## Transactions that change the rows of one owner only -/

section Confined

variable [DecidableEq τ] {a : τ} {m : Transaction S α} {s : Store S}

/-- What the transaction leaves, if it succeeds, differs in the rows of `a` only. -/
def Confined (a : τ) (m : Transaction S α) (s : Store S) : Prop :=
  ∀ x s', (m s).1 = .ok (x, s') → s'.without a = s.without a

theorem confined_of_unchanged (h : ∀ x s', (m s).1 = .ok (x, s') → s' = s) : Confined a m s :=
  fun x s' hs => by rw [h x s' hs]

theorem confined_bind {f : α → Transaction S β} (hm : Confined a m s)
    (hf : ∀ x s', (m s).1 = .ok (x, s') → Confined a (f x) s') : Confined a (m >>= f) s := by
  intro y s'' h
  obtain ⟨x, s', hx, hy⟩ := bind_inv h
  exact (hf x s' hx y s'' hy).trans (hm x s' hx)

theorem confined_map {g : α → β} (hm : Confined a m s) :
    Confined a (m >>= fun x => pure (g x)) s :=
  confined_bind hm fun _ _ _ => confined_of_unchanged fun _ _ h => (pure_inv h).2

theorem confined_update {p : ρ → Bool} (f : S.Rewrite)
    (hp : ∀ r ∈ s.rows, p r = true → S.owner r = a) : Confined a (update p f) s := by
  intro n s' h
  rw [update_inv h, Store.without_update]
  ext1
  rw [Store.rows_update]
  refine (List.map_congr_left fun r hr => ?_).trans (List.map_id _)
  obtain ⟨hr, hne⟩ := Store.mem_without.1 hr
  unfold Schema.Rewrite.on
  split
  · next hpr => exact absurd (hp r hr hpr) hne
  · rfl

theorem confined_insert [DecidableEq ν] [DecidableEq κ] {r : ρ} (hr : S.owner r = a) :
    Confined a (insert r) s := by
  intro u s' h
  unfold insert at h
  split at h
  · cases h
    ext1
    simp [Store.without, Store.push, hr]
  · cases h

end Confined

/-! ## Sequences of transactions -/

section Sequences

variable {ι : Type} (work : ι → Transaction S α)

/-- Run one transaction: a failure leaves the store as it is. -/
def commit (s : Store S) (c : ι) : Except ε α × Store S :=
  match (work c s).1 with
  | .ok (a, s') => (.ok a, s')
  | .error e => (.error e, s)

/-- The rows that a sequence of transactions selects. -/
def selected : Store S → List ι → List ρ
  | _, [] => []
  | s, c :: calls => (work c s).2 ++ selected (commit work s c).2 calls

variable [DecidableEq τ]

/-- The transactions have nothing to do with the rows of `b`: they are answered the same and leave
the same behind where `b` has no rows, they leave the rows of `b` alone at every point, and they
select none of them. -/
structure Isolated (b : τ) (s : Store S) (calls : List ι) : Prop where
  answers : Machine.answers (commit work) s calls =
    Machine.answers (commit work) (s.without b) calls
  effects : ∀ n, (Machine.exec (commit work) s (calls.take n)).without b =
    Machine.exec (commit work) (s.without b) (calls.take n)
  rows : ∀ n, (Machine.exec (commit work) s (calls.take n)).rowsOf b = s.rowsOf b
  unread : ∀ r ∈ selected work s calls, S.owner r ≠ b

variable {work} {b : τ} {s : Store S} {c : ι} {calls : List ι}

/-- One call has nothing to do with `b` exactly if its transaction is blind. -/
theorem blind_iff_commit : Blind b (work c) s ↔
    (commit work s c).1 = (commit work (s.without b) c).1 ∧
    (commit work s c).2.without b = (commit work (s.without b) c).2 ∧
    (commit work s c).2.rowsOf b = s.rowsOf b ∧ ∀ r ∈ (work c s).2, S.owner r ≠ b := by
  unfold commit
  constructor
  · intro h
    have hsame := h.same
    have hkept := h.kept
    rcases hr : (work c s).1 with e | ⟨a, s'⟩ <;> rw [hr] at hsame hkept <;> rw [hsame]
    · exact ⟨rfl, rfl, rfl, h.unread⟩
    · exact ⟨rfl, rfl, hkept a s' rfl, h.unread⟩
  · rintro ⟨hanswer, heffect, hrows, hunread⟩
    refine ⟨?_, ?_, hunread⟩
    · rcases hr : (work c s).1 with e | ⟨a, s'⟩ <;>
        rcases hr' : (work c (s.without b)).1 with e' | ⟨a', s''⟩ <;>
        rw [hr, hr'] at hanswer heffect <;> cases hanswer
      · rfl
      · simp only at heffect
        rw [← heffect]
        rfl
    · intro a s' ha
      rw [ha] at hrows
      exact hrows

theorem without_commit {a : τ} (h : Confined a (work c) s) :
    (commit work s c).2.without a = s.without a := by
  unfold commit
  rcases hr : (work c s).1 with e | ⟨x, s'⟩
  · rfl
  · exact h x s' hr

theorem isolated_cons : Isolated work b s (c :: calls) ↔
    Blind b (work c) s ∧ Isolated work b (commit work s c).2 calls := by
  constructor
  · intro h
    have hanswers := h.answers
    simp only [Machine.answers, List.cons.injEq] at hanswers
    have hrows : (commit work s c).2.rowsOf b = s.rowsOf b := h.rows 1
    have heffect : (commit work s c).2.without b = (commit work (s.without b) c).2 := h.effects 1
    refine ⟨blind_iff_commit.2 ⟨hanswers.1, heffect, hrows, fun r hr => ?_⟩, ?_, ?_, ?_, ?_⟩
    · exact h.unread r (List.mem_append_left _ hr)
    · rw [heffect]
      exact hanswers.2
    · intro n
      rw [heffect]
      exact h.effects (n + 1)
    · intro n
      rw [hrows]
      exact h.rows (n + 1)
    · intro r hr
      exact h.unread r (List.mem_append_right _ hr)
  · rintro ⟨hblind, h⟩
    obtain ⟨hanswer, heffect, hrows, hunread⟩ := blind_iff_commit.1 hblind
    refine ⟨?_, fun n => ?_, fun n => ?_, fun r hr => ?_⟩
    · rw [Machine.answers, Machine.answers, hanswer, h.answers, heffect]
    · cases n with
      | zero => rfl
      | succ n =>
        rw [List.take_succ_cons, Machine.exec_cons, Machine.exec_cons, h.effects n, heffect]
    · cases n with
      | zero => rfl
      | succ n =>
        rw [List.take_succ_cons, Machine.exec_cons, h.rows n, hrows]
    · rcases List.mem_append.1 hr with hr | hr
      · exact hunread r hr
      · exact h.unread r hr

/-- A sequence is isolated exactly if every transaction is blind on the store that it finds. -/
theorem isolated_iff : Isolated work b s calls ↔
    Machine.Every (commit work) (fun s c => Blind b (work c) s) s calls := by
  induction calls generalizing s with
  | nil =>
    refine ⟨fun _ => trivial, fun _ => ⟨rfl, fun n => ?_, fun n => ?_, fun r hr => ?_⟩⟩
    · rw [List.take_nil]
      rfl
    · rw [List.take_nil]
      rfl
    · cases hr
  | cons c calls ih => rw [isolated_cons, Machine.Every, ih]

end Sequences

end Transaction

end Database
