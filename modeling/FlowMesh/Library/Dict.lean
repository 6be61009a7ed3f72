import Mathlib.Data.List.Induction
import Mathlib.Data.List.Nodup
import Mathlib.Tactic.Common

/-!
# Dictionaries in insertion order

A dictionary lists its items in the order in which their keys came, every key once; that no key
occurs twice is part of the value. A key that is set again keeps its place.

`get?` is what a dictionary is for: `mem_items_iff` says that it reads the items, and
`get?_set`, `get?_erase` and `get?_mapValues` what it reads after each operation; `mapValues_set`
and `mapValues_erase` carry a change of all values over to the others.
-/

/-- A dictionary. -/
structure Dict (κ ν : Type) where
  items : List (κ × ν)
  nodup : (items.map Prod.fst).Nodup

namespace Dict

variable {κ ν ν' : Type}

@[ext] theorem ext {d d' : Dict κ ν} (h : d.items = d'.items) : d = d' := by
  cases d
  cases d'
  congr

/-- The dictionary without items. -/
def empty : Dict κ ν := ⟨[], List.nodup_nil⟩

instance : Inhabited (Dict κ ν) := ⟨empty⟩

variable (d : Dict κ ν)

/-- `d.keys()`. -/
def keys : List κ := d.items.map Prod.fst

/-- `d.values()`. -/
def values : List ν := d.items.map Prod.snd

/-- Change every value. -/
def mapValues (f : ν → ν') : Dict κ ν' where
  items := d.items.map fun p => (p.1, f p.2)
  nodup := by
    rw [List.map_map]
    exact d.nodup

variable [DecidableEq κ]

/-- `d.get(k)`. -/
def get? (k : κ) : Option ν := (d.items.find? (·.1 = k)).map Prod.snd

/-- `d[k] = v`. -/
def set (k : κ) (v : ν) : Dict κ ν where
  items := if k ∈ d.keys then d.items.map fun p => if p.1 = k then (k, v) else p
    else d.items ++ [(k, v)]
  nodup := by
    split
    · have hkeys : (d.items.map fun p => if p.1 = k then (k, v) else p).map Prod.fst =
          d.items.map Prod.fst := by
        rw [List.map_map]
        apply List.map_congr_left
        intro p _
        by_cases hp : p.1 = k <;> simp [hp]
      rw [hkeys]
      exact d.nodup
    · next hk =>
      rw [List.map_append, List.map_singleton]
      exact d.nodup.append (List.nodup_singleton _) (List.disjoint_singleton.2 hk)

/-- `del d[k]`, or `d.pop(k, None)`: nothing happens where there is no such key. -/
def erase (k : κ) : Dict κ ν where
  items := d.items.filter (·.1 ≠ k)
  nodup := d.nodup.sublist (List.filter_sublist.map _)

variable {d}

/-! ## Looking up -/

@[simp] theorem get?_empty (k : κ) : (empty : Dict κ ν).get? k = none := rfl

theorem mem_items_iff {k : κ} {v : ν} : (k, v) ∈ d.items ↔ d.get? k = some v := by
  constructor
  · intro h
    unfold get?
    cases hfind : d.items.find? (·.1 = k) with
    | none =>
      have hnone := List.find?_eq_none.1 hfind _ h
      simp at hnone
    | some p =>
      have hp : p.1 = k := by simpa using List.find?_some hfind
      have heq := List.inj_on_of_nodup_map d.nodup (List.mem_of_find?_eq_some hfind) h hp
      rw [heq]
      rfl
  · intro h
    obtain ⟨p, hfind, rfl⟩ := Option.map_eq_some_iff.1 h
    have hp : p.1 = k := by simpa using List.find?_some hfind
    rw [← hp]
    exact List.mem_of_find?_eq_some hfind

theorem mem_keys_iff {k : κ} : k ∈ d.keys ↔ ∃ v, d.get? k = some v := by
  simp [keys, ← mem_items_iff]

theorem mem_values_iff {v : ν} : v ∈ d.values ↔ ∃ k, d.get? k = some v := by
  simp [values, ← mem_items_iff]

theorem get?_eq_none_iff {k : κ} : d.get? k = none ↔ k ∉ d.keys := by
  rw [mem_keys_iff, Option.eq_none_iff_forall_not_mem]
  simp

/-! ## Changing -/

theorem get?_ne_none_iff {k : κ} : d.get? k ≠ none ↔ k ∈ d.keys := by
  rw [ne_eq, get?_eq_none_iff, not_not]

@[simp] theorem get?_set_self (k : κ) (v : ν) : (d.set k v).get? k = some v := by
  rw [← mem_items_iff]
  unfold set
  split
  · next hk =>
    obtain ⟨p, hp, rfl⟩ := List.mem_map.1 hk
    exact List.mem_map.2 ⟨p, hp, if_pos rfl⟩
  · simp

theorem get?_set_of_ne {k k' : κ} (hk : k' ≠ k) (v : ν) : (d.set k v).get? k' = d.get? k' := by
  apply Option.ext
  intro w
  rw [← mem_items_iff, ← mem_items_iff]
  unfold set
  split
  · constructor
    · intro h
      obtain ⟨p, hp, heq⟩ := List.mem_map.1 h
      split at heq
      · cases heq
        exact absurd rfl hk
      · rwa [← heq]
    · intro h
      exact List.mem_map.2 ⟨_, h, if_neg hk⟩
  · simp [hk]

theorem get?_set (k k' : κ) (v : ν) :
    (d.set k v).get? k' = if k' = k then some v else d.get? k' := by
  split
  · next h => rw [h, get?_set_self]
  · next h => exact get?_set_of_ne h v

theorem get?_erase (k k' : κ) : (d.erase k).get? k' = if k' = k then none else d.get? k' := by
  apply Option.ext
  intro v
  rw [← mem_items_iff]
  by_cases hk : k' = k <;> simp [erase, hk, ← mem_items_iff]

@[simp] theorem get?_mapValues (f : ν → ν') (k : κ) :
    (d.mapValues f).get? k = (d.get? k).map f := by
  unfold get? mapValues
  rw [List.find?_map, Option.map_map, Option.map_map]
  rfl

theorem mem_keys_set {k k' : κ} {v : ν} : k' ∈ (d.set k v).keys ↔ k' ∈ d.keys ∨ k' = k := by
  rw [mem_keys_iff, mem_keys_iff, get?_set]
  by_cases hk : k' = k <;> simp [hk]

theorem items_set_of_not_mem {k : κ} (hk : k ∉ d.keys) (v : ν) :
    (d.set k v).items = d.items ++ [(k, v)] := if_neg hk

omit [DecidableEq κ] in
theorem keys_mapValues (f : ν → ν') : (d.mapValues f).keys = d.keys := by
  rw [keys, keys, mapValues, List.map_map]
  rfl

/-- Changing every value, and then setting or erasing a key. -/
theorem mapValues_set (f : ν → ν') (k : κ) (v : ν) :
    (d.set k v).mapValues f = (d.mapValues f).set k (f v) := by
  refine Dict.ext ?_
  by_cases hk : k ∈ d.keys
  · have hitems : ((d.mapValues f).set k (f v)).items =
        (d.mapValues f).items.map fun p => if p.1 = k then (k, f v) else p :=
      if_pos (by rwa [keys_mapValues])
    have hitems' : (d.set k v).items = d.items.map fun p => if p.1 = k then (k, v) else p :=
      if_pos hk
    rw [hitems]
    simp only [mapValues, hitems', List.map_map]
    refine List.map_congr_left fun p _ => ?_
    by_cases hp : p.1 = k <;> simp [hp]
  · rw [items_set_of_not_mem (by rwa [keys_mapValues])]
    simp only [mapValues, items_set_of_not_mem hk, List.map_append, List.map_singleton]

theorem mapValues_erase (f : ν → ν') (k : κ) :
    (d.erase k).mapValues f = (d.mapValues f).erase k := by
  refine Dict.ext ?_
  simp only [mapValues, erase, List.filter_map]
  rfl

/-- Erasing a key that is not there. -/
theorem erase_of_not_mem {k : κ} (hk : k ∉ d.keys) : d.erase k = d := by
  refine Dict.ext (List.filter_eq_self.2 fun p hp => ?_)
  simp only [decide_eq_true_eq]
  rintro rfl
  exact hk (List.mem_map_of_mem hp)

/-- A value that is replaced by a similar one. -/
theorem map_values_set {β : Type} {k : κ} {v w : ν} (h : d.get? k = some v) {f : ν → β}
    (hf : f w = f v) : (d.set k w).values.map f = d.values.map f := by
  have hitems : (d.set k w).items = d.items.map fun p => if p.1 = k then (k, w) else p :=
    if_pos (mem_keys_iff.2 ⟨v, h⟩)
  unfold values
  rw [hitems, List.map_map, List.map_map, List.map_map]
  apply List.map_congr_left
  rintro ⟨k', v'⟩ hp
  by_cases hk : k' = k
  · subst hk
    obtain rfl : v' = v := Option.some.inj ((mem_items_iff.1 hp).symm.trans h)
    simp [hf]
  · simp [hk]

/-! ## Collecting -/

/-- `{key(v): v for v in l}`. -/
def collect (key : ν → κ) (l : List ν) : Dict κ ν := l.foldl (fun d v => d.set (key v) v) empty

/-- The last value with a key is the one that counts. -/
theorem get?_collect (key : ν → κ) (l : List ν) (k : κ) :
    (collect key l).get? k = l.reverse.find? (key · = k) := by
  induction l using List.reverseRecOn with
  | nil => rfl
  | append_singleton l v ih =>
    have hset : collect key (l ++ [v]) = (collect key l).set (key v) v := List.foldl_append
    rw [hset, get?_set, List.reverse_append, List.reverse_singleton, List.singleton_append,
      List.find?_cons, ih]
    by_cases hk : key v = k
    · simp [hk]
    · simp [hk, Ne.symm hk]

/-- Values that have keys of their own are kept as they are. -/
theorem items_collect {key : ν → κ} {l : List ν} (h : (l.map key).Nodup) :
    (collect key l).items = l.map fun v => (key v, v) := by
  induction l using List.reverseRecOn with
  | nil => rfl
  | append_singleton l v ih =>
    rw [List.map_append, List.map_singleton, List.nodup_append] at h
    obtain ⟨hl, -, hne⟩ := h
    have hset : collect key (l ++ [v]) = (collect key l).set (key v) v := List.foldl_append
    have hnew : key v ∉ (collect key l).keys := by
      rw [keys, ih hl, List.map_map]
      intro hmem
      exact hne _ hmem _ List.mem_cons_self rfl
    rw [hset, items_set_of_not_mem hnew, ih hl, List.map_append, List.map_singleton]

omit [DecidableEq κ] in
/-- The keys after a loop each turn of which adds a key under a condition. -/
theorem mem_keys_foldl {β : Type} {f : Dict κ ν → β → Dict κ ν} {P : β → Prop} {k : κ}
    (hf : ∀ d b, k ∈ (f d b).keys ↔ k ∈ d.keys ∨ P b) (l : List β) (d : Dict κ ν) :
    k ∈ (l.foldl f d).keys ↔ k ∈ d.keys ∨ ∃ b ∈ l, P b := by
  induction l generalizing d with
  | nil => simp
  | cons b l ih => rw [List.foldl_cons, ih, hf, List.exists_mem_cons_iff, or_assoc]

end Dict
