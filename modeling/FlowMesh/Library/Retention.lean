import Mathlib.Data.Finset.Card
import Mathlib.Data.List.DropRight
import Mathlib.Data.List.Nodup
import Mathlib.Tactic.Common

/-!
# What is kept of a sequence of keys

At most `n` keys are kept. One that is not among them is admitted, and the one that was admitted
first makes room for it; so a key may be admitted again. `admissions` lists all keys as they were
admitted, and `kept` are the last `n` of them:

* `kept_concat_of_mem`, `kept_concat`: what the next key does;
* `nodup_kept`: no key is kept twice;
* `mem_kept`: all keys are kept as long as there are no more than `n`.
-/

namespace Retention

/-- The last `n` of a list and the last `n + 1`. -/
theorem rtake_eq {α : Type} {n : ℕ} {l : List α} : l.rtake n =
    if n + 1 ≤ (l.rtake (n + 1)).length then (l.rtake (n + 1)).tail else l.rtake (n + 1) := by
  unfold List.rtake
  rw [List.length_drop, List.tail_drop]
  split_ifs with h
  · congr 1
    omega
  · congr 1
    omega

variable {α : Type} [DecidableEq α] {n : ℕ} {keys : List α} {a b : α}

/-- A key is admitted, unless it is among the last `n`. -/
def accept (n : ℕ) (admitted : List α) (a : α) : List α :=
  if a ∈ admitted.rtake n then admitted else admitted ++ [a]

/-- The keys as they were admitted. -/
def admissions (n : ℕ) (keys : List α) : List α := keys.foldl (accept n) []

/-- The keys that are kept, as they were admitted. -/
def kept (n : ℕ) (keys : List α) : List α := (admissions n keys).rtake n

@[simp] theorem kept_nil : kept n ([] : List α) = [] := List.rtake_nil n

theorem admissions_concat :
    admissions n (keys ++ [a]) = if a ∈ kept n keys then admissions n keys
      else admissions n keys ++ [a] := by
  unfold admissions
  rw [List.foldl_append]
  rfl

theorem length_kept_le : (kept n keys).length ≤ n := by
  unfold kept List.rtake
  rw [List.length_drop]
  omega

theorem kept_concat_of_mem (h : a ∈ kept n keys) : kept n (keys ++ [a]) = kept n keys := by
  unfold kept
  rw [admissions_concat, if_pos h]

/-- A new key is admitted: the first one goes if there are `n`. -/
theorem kept_concat (hn : 0 < n) (h : a ∉ kept n keys) : kept n (keys ++ [a]) =
    (if n ≤ (kept n keys).length then (kept n keys).tail else kept n keys) ++ [a] := by
  obtain ⟨n, rfl⟩ : ∃ m, n = m + 1 := ⟨n - 1, by omega⟩
  have hnew : kept (n + 1) (keys ++ [a]) = (admissions (n + 1) keys).rtake n ++ [a] := by
    rw [kept, admissions_concat, if_neg h, List.rtake_concat_succ]
  rw [hnew, rtake_eq]
  rfl

theorem mem_kept_concat (hn : 0 < n) : a ∈ kept n (keys ++ [a]) := by
  by_cases h : a ∈ kept n keys
  · rwa [kept_concat_of_mem h]
  · rw [kept_concat hn h]
    exact List.mem_concat_self

theorem nodup_kept (hn : 0 < n) : (kept n keys).Nodup := by
  induction keys using List.reverseRecOn with
  | nil => simp
  | append_singleton keys a ih =>
    by_cases h : a ∈ kept n keys
    · rwa [kept_concat_of_mem h]
    · rw [kept_concat hn h, List.nodup_append_comm, List.singleton_append, List.nodup_cons]
      split_ifs
      · exact ⟨fun hmem => h (List.mem_of_mem_tail hmem), ih.tail⟩
      · exact ⟨h, ih⟩

theorem mem_of_mem_kept (hn : 0 < n) (h : a ∈ kept n keys) : a ∈ keys := by
  induction keys using List.reverseRecOn with
  | nil => simp at h
  | append_singleton keys b ih =>
    by_cases hb : b ∈ kept n keys
    · rw [kept_concat_of_mem hb] at h
      exact List.mem_append_left _ (ih h)
    · rw [kept_concat hn hb] at h
      rcases List.mem_append.1 h with hold | hnew
      · refine List.mem_append_left _ (ih ?_)
        split_ifs at hold
        · exact List.mem_of_mem_tail hold
        · exact hold
      · exact List.mem_append_right _ hnew

/-- Nothing goes as long as there are no more than `n` keys. -/
theorem mem_kept (hn : 0 < n) (hcard : keys.toFinset.card ≤ n) (h : a ∈ keys) :
    a ∈ kept n keys := by
  induction keys using List.reverseRecOn generalizing a with
  | nil => cases h
  | append_singleton keys b ih =>
    have hsub : keys.toFinset ⊆ (keys ++ [b]).toFinset := by
      rw [List.toFinset_append]
      exact Finset.subset_union_left
    have ih : ∀ {x}, x ∈ keys → x ∈ kept n keys := ih ((Finset.card_le_card hsub).trans hcard)
    by_cases hb : b ∈ kept n keys
    · rw [kept_concat_of_mem hb]
      rcases List.mem_append.1 h with hold | hnew
      · exact ih hold
      · rwa [List.mem_singleton.1 hnew]
    · have hnot : b ∉ keys := fun hmem => hb (ih hmem)
      have hroom : (kept n keys).length < n := by
        calc (kept n keys).length
            = (kept n keys).toFinset.card := (List.toFinset_card_of_nodup (nodup_kept hn)).symm
          _ ≤ keys.toFinset.card := Finset.card_le_card fun x hx =>
              List.mem_toFinset.2 (mem_of_mem_kept hn (List.mem_toFinset.1 hx))
          _ < (keys ++ [b]).toFinset.card := by
            refine Finset.card_lt_card ⟨hsub, fun hall => hnot ?_⟩
            exact List.mem_toFinset.1 (hall (by simp))
          _ ≤ n := hcard
      rw [kept_concat hn hb, if_neg (by omega)]
      rcases List.mem_append.1 h with hold | hnew
      · exact List.mem_append_left _ (ih hold)
      · exact List.mem_append_right _ hnew

end Retention
