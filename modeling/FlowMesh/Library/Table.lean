import Mathlib.Data.List.Nodup
import Mathlib.Tactic.Common

/-!
# Tables with a unique index

A database table as the list of its rows in insertion order, with one unique index `key`. The
index is part of the value: a table with two rows of the same key cannot be built. `insert?`
refuses a clashing row, as the database does with an integrity error; `insertFresh` draws an
unused number for a table keyed by numbers; `update` is the `UPDATE .. SET .. WHERE ..`
statement for assignments that do not touch the key.
-/

namespace Database

/-- A table of rows `α` with the unique index `key`. -/
structure Table (α κ : Type) (key : α → κ) where
  rows : List α
  unique : (rows.map key).Nodup

namespace Table

variable {α κ : Type} {key : α → κ}

/-- The table without rows. -/
def empty : Table α κ key := ⟨[], List.nodup_nil⟩

instance : Inhabited (Table α κ key) := ⟨empty⟩

instance : Membership α (Table α κ key) := ⟨fun t a => a ∈ t.rows⟩

theorem mem_iff {t : Table α κ key} {a : α} : a ∈ t ↔ a ∈ t.rows := Iff.rfl

/-- Two rows of the same key are the same row. -/
theorem eq_of_key_eq {t : Table α κ key} {a b : α} (ha : a ∈ t) (hb : b ∈ t)
    (h : key a = key b) : a = b :=
  List.inj_on_of_nodup_map t.unique ha hb h

@[simp] theorem not_mem_empty (a : α) : a ∉ (empty : Table α κ key) := List.not_mem_nil

/-! ## Inserting -/

/-- Append a row whose key is not in use. -/
def push (t : Table α κ key) (a : α) (ha : key a ∉ t.rows.map key) : Table α κ key where
  rows := t.rows ++ [a]
  unique := by
    rw [List.map_append, List.map_singleton]
    exact t.unique.append (List.nodup_singleton _) (List.disjoint_singleton.2 ha)

@[simp] theorem rows_push (t : Table α κ key) (a : α) (ha : key a ∉ t.rows.map key) :
    (t.push a ha).rows = t.rows ++ [a] := rfl

theorem mem_push {t : Table α κ key} {a b : α} {ha : key a ∉ t.rows.map key} :
    b ∈ t.push a ha ↔ b ∈ t ∨ b = a := by
  rw [mem_iff, rows_push, List.mem_append, List.mem_singleton, mem_iff]

/-- Insert a row; `none` is the integrity error of the unique index. -/
def insert? [DecidableEq κ] (t : Table α κ key) (a : α) : Option (Table α κ key) :=
  if ha : key a ∈ t.rows.map key then none else some (t.push a ha)

theorem insert?_eq_some [DecidableEq κ] {t t' : Table α κ key} {a : α}
    (h : t.insert? a = some t') : key a ∉ t.rows.map key ∧ t'.rows = t.rows ++ [a] := by
  unfold insert? at h
  split at h
  · cases h
  · next ha =>
    cases h
    exact ⟨ha, rfl⟩

/-- What an insertion does, as two cases without the table's proof fields. -/
theorem insert?_cases [DecidableEq κ] (t : Table α κ key) (a : α) :
    (t.insert? a = none ∧ key a ∈ t.rows.map key) ∨
      ∃ t', t.insert? a = some t' ∧ key a ∉ t.rows.map key ∧ ∀ x, x ∈ t' ↔ x ∈ t ∨ x = a := by
  by_cases ha : key a ∈ t.rows.map key
  · exact Or.inl ⟨dif_pos ha, ha⟩
  · exact Or.inr ⟨t.push a ha, dif_neg ha, ha, fun x => mem_push⟩

/-- A number above all keys of the table. -/
def fresh {key : α → ℕ} (t : Table α ℕ key) : ℕ :=
  (t.rows.map key).foldr (fun n m => max (n + 1) m) 0

theorem lt_foldr_max {l : List ℕ} {n : ℕ} (hn : n ∈ l) :
    n < l.foldr (fun n m => max (n + 1) m) 0 := by
  induction l with
  | nil => cases hn
  | cons m l ih =>
    rw [List.foldr_cons]
    rcases List.mem_cons.1 hn with rfl | hn
    · omega
    · have := ih hn
      omega

theorem fresh_not_mem {key : α → ℕ} (t : Table α ℕ key) : t.fresh ∉ t.rows.map key :=
  fun h => Nat.lt_irrefl _ (lt_foldr_max h)

/-- Insert a row under a new number. -/
def insertFresh {key : α → ℕ} (t : Table α ℕ key) (mk : ℕ → α) (hmk : ∀ n, key (mk n) = n) :
    Table α ℕ key :=
  t.push (mk t.fresh) (by rw [hmk]; exact t.fresh_not_mem)

@[simp] theorem rows_insertFresh {key : α → ℕ} (t : Table α ℕ key) (mk : ℕ → α)
    (hmk : ∀ n, key (mk n) = n) : (t.insertFresh mk hmk).rows = t.rows ++ [mk t.fresh] := rfl

theorem mem_insertFresh {key : α → ℕ} {t : Table α ℕ key} {mk : ℕ → α}
    {hmk : ∀ n, key (mk n) = n} {a : α} :
    a ∈ t.insertFresh mk hmk ↔ a ∈ t ∨ a = mk t.fresh := mem_push

/-! ## Updating -/

theorem map_key_rewrite (p : α → Bool) {f : α → α} (hf : ∀ a, key (f a) = key a) (l : List α) :
    (l.map fun a => if p a then f a else a).map key = l.map key := by
  rw [List.map_map]
  refine List.map_congr_left fun a _ => ?_
  by_cases hp : p a <;> simp [hp, hf]

/-- `UPDATE .. SET f WHERE p`; `f` leaves the key alone. -/
def update (t : Table α κ key) (p : α → Bool) (f : α → α) (hf : ∀ a, key (f a) = key a) :
    Table α κ key where
  rows := t.rows.map fun a => if p a then f a else a
  unique := by
    rw [map_key_rewrite p hf]
    exact t.unique

@[simp] theorem rows_update (t : Table α κ key) (p : α → Bool) (f : α → α)
    (hf : ∀ a, key (f a) = key a) :
    (t.update p f hf).rows = t.rows.map fun a => if p a then f a else a := rfl

theorem map_key_update (t : Table α κ key) (p : α → Bool) (f : α → α)
    (hf : ∀ a, key (f a) = key a) : (t.update p f hf).rows.map key = t.rows.map key :=
  map_key_rewrite p hf t.rows

/-- The rows of a table that was rewritten row by row. -/
theorem mem_of_rows_map {t t' : Table α κ key} {g : α → α} (h : t'.rows = t.rows.map g) {a : α} :
    a ∈ t' ↔ ∃ b ∈ t, a = g b := by
  simp only [mem_iff, h, List.mem_map, eq_comm]

theorem mem_update {t : Table α κ key} {p : α → Bool} {f : α → α} {hf : ∀ a, key (f a) = key a}
    {a : α} : a ∈ t.update p f hf ↔ ∃ b ∈ t, a = if p b then f b else b :=
  mem_of_rows_map rfl

/-- A row the statement does not select stays. -/
theorem mem_update_of_not {t : Table α κ key} {p : α → Bool} {f : α → α}
    {hf : ∀ a, key (f a) = key a} {a : α} (ha : a ∈ t) (hp : p a = false) :
    a ∈ t.update p f hf :=
  mem_update.2 ⟨a, ha, by simp [hp]⟩

/-! ## Looking up -/

/-- The row of a key. -/
def get? [DecidableEq κ] (t : Table α κ key) (k : κ) : Option α :=
  t.rows.find? fun a => key a = k

theorem get?_eq_some [DecidableEq κ] {t : Table α κ key} {k : κ} {a : α} :
    t.get? k = some a ↔ a ∈ t ∧ key a = k := by
  constructor
  · intro h
    exact ⟨List.mem_of_find?_eq_some h, by simpa using List.find?_some h⟩
  · rintro ⟨ha, rfl⟩
    cases hf : t.get? (key a) with
    | none =>
      have hne := List.find?_eq_none.1 hf a ha
      simp at hne
    | some b =>
      have hb : key b = key a := by simpa using List.find?_some hf
      rw [eq_of_key_eq (List.mem_of_find?_eq_some hf) ha hb]

/-- The rows of the key of a row. -/
theorem filter_key [DecidableEq κ] {t : Table α κ key} {a : α} (ha : a ∈ t) :
    t.rows.filter (fun b => key b = key a) = [a] := by
  obtain ⟨l₁, l₂, h⟩ := List.append_of_mem (mem_iff.1 ha)
  have hother : ∀ b ∈ l₁ ++ l₂, key b ≠ key a := by
    have hunique := t.unique
    rw [h, List.map_append, List.map_cons, List.nodup_middle, ← List.map_append] at hunique
    intro b hb hkey
    exact (List.nodup_cons.1 hunique).1 (hkey ▸ List.mem_map_of_mem hb)
  rw [h, List.filter_append, List.filter_cons_of_pos (by simp), List.filter_eq_nil_iff.2,
    List.filter_eq_nil_iff.2, List.nil_append]
  · intro b hb
    simpa using hother b (List.mem_append_right _ hb)
  · intro b hb
    simpa using hother b (List.mem_append_left _ hb)

theorem get?_update [DecidableEq κ] (t : Table α κ key) (p : α → Bool) (f : α → α)
    (hf : ∀ a, key (f a) = key a) (k : κ) :
    (t.update p f hf).get? k = (t.get? k).map fun a => if p a then f a else a := by
  have hkey : ∀ a, key (if p a then f a else a) = key a := by
    intro a
    split
    · exact hf a
    · rfl
  simp only [get?, rows_update, List.find?_map, Function.comp_def, hkey]

theorem get?_eq_none [DecidableEq κ] {t : Table α κ key} {k : κ} :
    t.get? k = none ↔ ∀ a ∈ t, key a ≠ k := by
  simp only [get?, List.find?_eq_none, decide_eq_true_eq, mem_iff, ne_eq]

/-! ## Some of the rows -/

@[ext] theorem ext {t t' : Table α κ key} (h : t.rows = t'.rows) : t = t' := by
  cases t
  cases t'
  cases h
  rfl

/-- The rows that satisfy `p`. -/
def restrict (t : Table α κ key) (p : α → Bool) : Table α κ key :=
  ⟨t.rows.filter p, t.unique.sublist (List.filter_sublist.map key)⟩

@[simp] theorem rows_restrict (t : Table α κ key) (p : α → Bool) :
    (t.restrict p).rows = t.rows.filter p := rfl

theorem mem_restrict {t : Table α κ key} {p : α → Bool} {a : α} :
    a ∈ t.restrict p ↔ a ∈ t ∧ p a = true := List.mem_filter

@[simp] theorem restrict_restrict (t : Table α κ key) (p : α → Bool) :
    (t.restrict p).restrict p = t.restrict p := by
  ext1
  rw [rows_restrict, rows_restrict, List.filter_filter]
  simp only [Bool.and_self]

theorem get?_restrict [DecidableEq κ] (t : Table α κ key) (p : α → Bool) (k : κ) :
    (t.restrict p).get? k = (t.get? k).filter p := by
  ext a
  simp only [get?_eq_some, mem_restrict, Option.filter_eq_some_iff]
  exact and_right_comm

/-- A restriction to rows that a statement does not move in or out. -/
theorem restrict_update (t : Table α κ key) {p : α → Bool} (q : α → Bool) {f : α → α}
    (hf : ∀ a, key (f a) = key a) (hp : ∀ a, p (f a) = p a) :
    (t.update q f hf).restrict p = (t.restrict p).update q f hf := by
  ext1
  have hcomp : (p ∘ fun a => if q a then f a else a) = p := by
    funext a
    simp only [Function.comp_apply]
    split
    · exact hp a
    · rfl
  rw [rows_restrict, rows_update, rows_update, rows_restrict, List.filter_map, hcomp]

/-- A statement on other rows only. -/
theorem restrict_update_of_not {t : Table α κ key} {p q : α → Bool} {f : α → α}
    (hf : ∀ a, key (f a) = key a) (hp : ∀ a, p (f a) = p a)
    (hq : ∀ a ∈ t, q a = true → p a = false) :
    (t.update q f hf).restrict p = t.restrict p := by
  rw [restrict_update t q hf hp]
  ext1
  rw [rows_update]
  refine (List.map_congr_left fun a ha => ?_).trans (List.map_id _)
  obtain ⟨ha, hpa⟩ := mem_restrict.1 ha
  cases hqa : q a with
  | false => rfl
  | true =>
    rw [hq a ha hqa] at hpa
    cases hpa

/-- A row that clashes with no row outside the restriction. -/
theorem insert?_restrict [DecidableEq κ] {t : Table α κ key} {p : α → Bool} {a : α}
    (hp : p a = true) (ha : ∀ b ∈ t, key b = key a → p b = true) :
    (t.restrict p).insert? a = (t.insert? a).map (·.restrict p) := by
  have hkey : key a ∈ (t.restrict p).rows.map key ↔ key a ∈ t.rows.map key := by
    simp only [List.mem_map]
    constructor
    · rintro ⟨b, hb, heq⟩
      exact ⟨b, (mem_restrict.1 hb).1, heq⟩
    · rintro ⟨b, hb, heq⟩
      exact ⟨b, mem_restrict.2 ⟨hb, ha b hb heq⟩, heq⟩
  unfold insert?
  by_cases hmem : key a ∈ t.rows.map key
  · rw [dif_pos hmem, dif_pos (hkey.2 hmem), Option.map_none]
  · rw [dif_neg hmem, dif_neg fun h => hmem (hkey.1 h), Option.map_some]
    congr 1
    ext1
    simp [hp]

/-- A row outside the restriction. -/
theorem restrict_insert? [DecidableEq κ] {t t' : Table α κ key} {p : α → Bool} {a : α}
    (hp : p a = false) (h : t.insert? a = some t') : t'.restrict p = t.restrict p := by
  ext1
  rw [rows_restrict, (insert?_eq_some h).2, List.filter_append, rows_restrict]
  simp [hp]

end Table

end Database
