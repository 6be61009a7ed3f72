import Mathlib.Algebra.Order.Group.Defs
import Mathlib.Data.List.TakeWhile
import Mathlib.Order.Basic
import Mathlib.Tactic.Common

/-!
# Sliding windows

A window that lets at most `limit` entries pass within any time `span`. It keeps the times of the
entries that it let pass, oldest first, and drops the old ones lazily, when the next entry comes.

`Holds` relates the window to all entries let pass so far: it is what is left of them behind a
part that is too old to count. So what counts at a time is what was let pass within the span
before it (`Holds.prune_eq`), and no closed interval of that length has more than `limit` of them
(`Holds.sparse`).
-/

namespace SlidingWindow

/-- In a sorted list, dropping from the front is leaving out. -/
theorem dropWhile_lt_eq_filter {β : Type} [LinearOrder β] {l : List β} (hl : l.Pairwise (· ≤ ·))
    (a : β) : l.dropWhile (· < a) = l.filter (a ≤ ·) := by
  induction l with
  | nil => rfl
  | cons b l ih =>
    rw [List.pairwise_cons] at hl
    by_cases hb : b < a
    · rw [List.dropWhile_cons, if_pos (decide_eq_true hb), ih hl.2,
        List.filter_cons_of_neg (by simpa using hb)]
    · have hall : ∀ c ∈ b :: l, decide (a ≤ c) = true := by
        intro c hc
        rcases List.mem_cons.1 hc with rfl | hc
        · exact decide_eq_true (not_lt.1 hb)
        · exact decide_eq_true ((not_lt.1 hb).trans (hl.1 c hc))
      rw [List.dropWhile_cons, if_neg (by simpa using hb), List.filter_eq_self.2 hall]

variable {α : Type} [AddCommGroup α] [LinearOrder α]

/-! ## The window -/

section Window

variable (span : α) (limit : ℕ)

/-- The entries that still count at a time. -/
def prune (now : α) (window : List α) : List α := window.dropWhile (· < now - span)

/-- An entry is let pass. -/
def admits (now : α) (window : List α) : Bool := (prune span now window).length < limit

/-- The window behind an entry. -/
def enter (now : α) (window : List α) : List α :=
  if admits span limit now window then prune span now window ++ [now] else prune span now window

/-- All entries let pass, behind one more. -/
def extend (now : α) (window passed : List α) : List α :=
  if admits span limit now window then passed ++ [now] else passed

end Window

/-! ## What is in the window -/

/-- The window holds the entries let pass up to a time, but for some that no longer count. -/
structure Holds (span now : α) (window passed : List α) : Prop where
  sorted : passed.Pairwise (· ≤ ·)
  le_now : ∀ a ∈ passed, a ≤ now
  dropped : ∃ old, passed = old ++ window ∧ ∀ a ∈ old, a < now - span

/-- No closed interval of the span has more than `limit` entries. -/
def Sparse (span : α) (limit : ℕ) (passed : List α) : Prop :=
  ∀ t, passed.countP (fun a => t ≤ a ∧ a ≤ t + span) ≤ limit

section Holds

variable {span now now' : α} {limit : ℕ} {window passed : List α}

/-- The empty window. -/
theorem Holds.nil : Holds span now [] [] where
  sorted := .nil
  le_now := fun _ ha => absurd ha List.not_mem_nil
  dropped := ⟨[], rfl, fun _ ha => absurd ha List.not_mem_nil⟩

theorem sparse_nil : Sparse span limit [] := fun _ => Nat.zero_le _

/-- Time goes by. -/
theorem Holds.mono [IsOrderedAddMonoid α] (h : Holds span now window passed) (hnow : now ≤ now') :
    Holds span now' window passed where
  sorted := h.sorted
  le_now := fun a ha => (h.le_now a ha).trans hnow
  dropped := by
    obtain ⟨old, hpassed, hold⟩ := h.dropped
    exact ⟨old, hpassed, fun a ha => (hold a ha).trans_le (sub_le_sub_right hnow span)⟩

/-- **What counts** at a time is what was let pass within the span before it. -/
theorem Holds.prune_eq (h : Holds span now window passed) :
    prune span now window = passed.filter (now - span ≤ ·) := by
  obtain ⟨old, hpassed, hold⟩ := h.dropped
  have hwindow : window.Pairwise (· ≤ ·) := (List.pairwise_append.1 (hpassed ▸ h.sorted)).2.1
  have hnone : old.filter (now - span ≤ ·) = [] := by
    rw [List.filter_eq_nil_iff]
    exact fun a ha => by simpa only [decide_eq_true_eq, not_le] using hold a ha
  rw [prune, dropWhile_lt_eq_filter hwindow, hpassed, List.filter_append, hnone, List.nil_append]

/-- An entry is let pass exactly if fewer than `limit` were within the span before it. -/
theorem Holds.admits_iff (h : Holds span now window passed) :
    admits span limit now window = true ↔ passed.countP (now - span ≤ ·) < limit := by
  rw [admits, decide_eq_true_iff, h.prune_eq, ← List.countP_eq_length_filter]

/-- Dropping what no longer counts. -/
theorem Holds.pruned (h : Holds span now window passed) :
    Holds span now (prune span now window) passed where
  sorted := h.sorted
  le_now := h.le_now
  dropped := by
    obtain ⟨old, hpassed, hold⟩ := h.dropped
    refine ⟨old ++ window.takeWhile (· < now - span), ?_, fun a ha => ?_⟩
    · rw [List.append_assoc, prune, List.takeWhile_append_dropWhile, hpassed]
    · rcases List.mem_append.1 ha with ha | ha
      · exact hold a ha
      · simpa using List.mem_takeWhile_imp ha

/-- An entry more. -/
theorem Holds.entered (h : Holds span now window passed) :
    Holds span now (enter span limit now window) (extend span limit now window passed) := by
  unfold enter extend
  split
  · refine ⟨?_, fun a ha => ?_, ?_⟩
    · rw [List.pairwise_append]
      refine ⟨h.sorted, List.pairwise_singleton _ _, fun a ha b hb => ?_⟩
      rw [List.mem_singleton.1 hb]
      exact h.le_now a ha
    · rcases List.mem_append.1 ha with ha | ha
      · exact h.le_now a ha
      · exact (List.mem_singleton.1 ha).le
    · obtain ⟨old, hpassed, hold⟩ := h.pruned.dropped
      exact ⟨old, by rw [← List.append_assoc, ← hpassed], hold⟩
  · exact h.pruned

/-- An entry that is let pass keeps closed intervals sparse. -/
theorem Holds.sparse [IsOrderedAddMonoid α] (h : Holds span now window passed)
    (hsparse : Sparse span limit passed) :
    Sparse span limit (extend span limit now window passed) := by
  unfold extend
  split
  · next hadmits =>
    have hfew := h.admits_iff.1 hadmits
    intro t
    rw [List.countP_append, List.countP_singleton]
    split
    · next hnow =>
      -- with `now` in the interval, all of it lies within the span before `now`
      have hnow' : t ≤ now ∧ now ≤ t + span := of_decide_eq_true hnow
      have hstart : now - span ≤ t := sub_le_iff_le_add.2 hnow'.2
      have hsub : passed.countP (fun a => t ≤ a ∧ a ≤ t + span) ≤
          passed.countP (now - span ≤ ·) := by
        refine List.countP_mono_left fun a _ ha => ?_
        exact decide_eq_true (hstart.trans (of_decide_eq_true ha).1)
      exact Nat.succ_le_of_lt (hsub.trans_lt hfew)
    · exact hsparse t
  · exact hsparse

end Holds

end SlidingWindow
