import Mathlib.Data.List.Basic
import Mathlib.Order.Bounds.Basic
import Mathlib.Tactic.Common

/-!
# Edits and alignments

Two ways to turn one word into another one. `Edits n` makes `n` edits one after the other, each of
which inserts, deletes or replaces a letter or swaps two neighbours, anywhere in what the edits
before have made of the word. `Aligns n` goes through both words once, from left to right: no letter
is edited twice, so what is swapped stays as it is.

* `isLeast_alignmentCost`: the recursion on the ends of the words computes the least cost of an
  alignment.
* `Aligns.edits`: an alignment is a sequence of as many edits.
* `alignmentCost_le_iff`: up to one edit there is no difference.
* `isLeast_edits_iff`: the cost is the least number of edits exactly if some shortest sequence of
  edits is an alignment.
-/

namespace Alignment

variable {α : Type}

/-- One edit. -/
inductive Edit : List α → List α → Prop
  | insert (u v : List α) (c : α) : Edit (u ++ v) (u ++ c :: v)
  | delete (u v : List α) (c : α) : Edit (u ++ c :: v) (u ++ v)
  | substitute (u v : List α) (c c' : α) : Edit (u ++ c :: v) (u ++ c' :: v)
  | transpose (u v : List α) (c c' : α) : Edit (u ++ c :: c' :: v) (u ++ c' :: c :: v)

/-- As many edits, one after the other. -/
inductive Edits : ℕ → List α → List α → Prop
  | refl (s : List α) : Edits 0 s s
  | step {n : ℕ} {s t w : List α} (h : Edit s t) (hrest : Edits n t w) : Edits (n + 1) s w

/-- An alignment of the words with as many edits. -/
inductive Aligns : ℕ → List α → List α → Prop
  | nil : Aligns 0 [] []
  | keep {n : ℕ} {s t : List α} (c : α) (h : Aligns n s t) : Aligns n (c :: s) (c :: t)
  | insert {n : ℕ} {s t : List α} (c : α) (h : Aligns n s t) : Aligns (n + 1) s (c :: t)
  | delete {n : ℕ} {s t : List α} (c : α) (h : Aligns n s t) : Aligns (n + 1) (c :: s) t
  | substitute {n : ℕ} {s t : List α} (c c' : α) (h : Aligns n s t) :
    Aligns (n + 1) (c :: s) (c' :: t)
  | transpose {n : ℕ} {s t : List α} (c c' : α) (h : Aligns n s t) :
    Aligns (n + 1) (c :: c' :: s) (c' :: c :: t)

/-! ## An alignment is a sequence of edits -/

theorem Edit.cons {s t : List α} (h : Edit s t) (c : α) : Edit (c :: s) (c :: t) := by
  cases h with
  | insert u v d => exact .insert (c :: u) v d
  | delete u v d => exact .delete (c :: u) v d
  | substitute u v d d' => exact .substitute (c :: u) v d d'
  | transpose u v d d' => exact .transpose (c :: u) v d d'

theorem Edits.cons {n : ℕ} {s t : List α} (h : Edits n s t) (c : α) :
    Edits n (c :: s) (c :: t) := by
  induction h with
  | refl s => exact .refl _
  | step h _ ih => exact .step (h.cons c) ih

theorem Aligns.edits {n : ℕ} {s t : List α} (h : Aligns n s t) : Edits n s t := by
  induction h with
  | nil => exact .refl []
  | keep c _ ih => exact ih.cons c
  | @insert n s t c _ ih => exact .step (.insert [] s c) (ih.cons c)
  | @delete n s t c _ ih => exact .step (.delete [] s c) ih
  | @substitute n s t c c' _ ih => exact .step (.substitute [] s c c') (ih.cons c')
  | @transpose n s t c c' _ ih => exact .step (.transpose [] s c c') ((ih.cons c).cons c')

/-! ## Alignments from the right -/

theorem Aligns.append {n m : ℕ} {s t s' t' : List α} (h : Aligns n s t) (h' : Aligns m s' t') :
    Aligns (n + m) (s ++ s') (t ++ t') := by
  induction h with
  | nil => simpa using h'
  | keep c _ ih => exact .keep c ih
  | insert c _ ih =>
    rw [Nat.add_right_comm]
    exact .insert c ih
  | delete c _ ih =>
    rw [Nat.add_right_comm]
    exact .delete c ih
  | substitute c c' _ ih =>
    rw [Nat.add_right_comm]
    exact .substitute c c' ih
  | transpose c c' _ ih =>
    rw [Nat.add_right_comm]
    exact .transpose c c' ih

theorem Aligns.reverse {n : ℕ} {s t : List α} (h : Aligns n s t) :
    Aligns n s.reverse t.reverse := by
  induction h with
  | nil => exact .nil
  | keep c _ ih => simpa using ih.append (.keep c .nil)
  | insert c _ ih => simpa using ih.append (.insert c .nil)
  | delete c _ ih => simpa using ih.append (.delete c .nil)
  | substitute c c' _ ih => simpa using ih.append (.substitute c c' .nil)
  | transpose c c' _ ih => simpa using ih.append (.transpose c' c .nil)

theorem aligns_refl (s : List α) : Aligns 0 s s := by
  induction s with
  | nil => exact .nil
  | cons c s ih => exact .keep c ih

/-- One edit is an alignment: what stands before it and after it is kept. -/
theorem Edit.aligns {s t : List α} (h : Edit s t) : Aligns 1 s t := by
  cases h with
  | insert u v c => simpa using (aligns_refl u).append (.insert c (aligns_refl v))
  | delete u v c => simpa using (aligns_refl u).append (.delete c (aligns_refl v))
  | substitute u v c c' => simpa using (aligns_refl u).append (.substitute c c' (aligns_refl v))
  | transpose u v c c' => simpa using (aligns_refl u).append (.transpose c c' (aligns_refl v))

/-- Two edits are needed to edit a letter again. -/
theorem Edits.aligns {n : ℕ} {s t : List α} (h : Edits n s t) (hn : n ≤ 1) : Aligns n s t := by
  cases h with
  | refl s => exact aligns_refl s
  | step h hrest =>
    cases hrest with
    | refl t => exact h.aligns
    | step _ _ => omega

theorem aligns_reverse_iff {n : ℕ} {s t : List α} :
    Aligns n s.reverse t.reverse ↔ Aligns n s t := by
  refine ⟨fun h => ?_, Aligns.reverse⟩
  simpa using h.reverse

/-! ## The least cost -/

section Cost

variable [DecidableEq α]

/-- The least cost of an alignment, by the first letters. -/
def alignmentCost : List α → List α → ℕ
  | [], t => t.length
  | _ :: s, [] => s.length + 1
  | c :: s, c' :: t =>
    let best := min (alignmentCost s (c' :: t) + 1)
      (min (alignmentCost (c :: s) t + 1) (alignmentCost s t + if c = c' then 0 else 1))
    if s.head? = some c' ∧ t.head? = some c then min best (alignmentCost s.tail t.tail + 1)
    else best
termination_by s t => s.length + t.length
decreasing_by all_goals simp only [List.length_cons, List.length_tail]; omega

@[simp] theorem alignmentCost_nil_left (t : List α) : alignmentCost [] t = t.length := by
  rw [alignmentCost]

@[simp] theorem alignmentCost_nil_right (s : List α) : alignmentCost s [] = s.length := by
  cases s with
  | nil => rw [alignmentCost]
  | cons c s => rw [alignmentCost, List.length_cons]

theorem alignmentCost_cons_cons (c c' : α) (s t : List α) :
    alignmentCost (c :: s) (c' :: t) =
      let best := min (alignmentCost s (c' :: t) + 1)
        (min (alignmentCost (c :: s) t + 1) (alignmentCost s t + if c = c' then 0 else 1))
      if s.head? = some c' ∧ t.head? = some c then min best (alignmentCost s.tail t.tail + 1)
      else best := by
  rw [alignmentCost]

/-- A swap does not make the cost larger. -/
theorem alignmentCost_le_best (c c' : α) (s t : List α) :
    alignmentCost (c :: s) (c' :: t) ≤ min (alignmentCost s (c' :: t) + 1)
      (min (alignmentCost (c :: s) t + 1) (alignmentCost s t + if c = c' then 0 else 1)) := by
  rw [alignmentCost_cons_cons]
  by_cases hswap : s.head? = some c' ∧ t.head? = some c
  · simp only [if_pos hswap]
    exact Nat.min_le_left _ _
  · simp only [if_neg hswap]
    exact Nat.le_refl _

theorem alignmentCost_delete (c : α) (s t : List α) :
    alignmentCost (c :: s) t ≤ alignmentCost s t + 1 := by
  cases t with
  | nil => simp
  | cons c' t => exact (alignmentCost_le_best c c' s t).trans (min_le_left _ _)

theorem alignmentCost_insert (c : α) (s t : List α) :
    alignmentCost s (c :: t) ≤ alignmentCost s t + 1 := by
  cases s with
  | nil => simp
  | cons c' s =>
    exact (alignmentCost_le_best c' c s t).trans ((min_le_right _ _).trans (min_le_left _ _))

theorem alignmentCost_substitute (c c' : α) (s t : List α) :
    alignmentCost (c :: s) (c' :: t) ≤ alignmentCost s t + if c = c' then 0 else 1 :=
  (alignmentCost_le_best c c' s t).trans ((min_le_right _ _).trans (min_le_right _ _))

theorem alignmentCost_transpose (c c' : α) (s t : List α) :
    alignmentCost (c :: c' :: s) (c' :: c :: t) ≤ alignmentCost s t + 1 := by
  rw [alignmentCost_cons_cons]
  simp only [List.head?_cons, and_self, if_true, List.tail_cons]
  exact Nat.min_le_right _ _

/-- No alignment costs less. -/
theorem Aligns.alignmentCost_le {n : ℕ} {s t : List α} (h : Aligns n s t) :
    alignmentCost s t ≤ n := by
  induction h with
  | nil => simp
  | @keep n s t c _ ih =>
    have hcost := alignmentCost_substitute c c s t
    rw [if_pos rfl] at hcost
    exact hcost.trans ih
  | @insert n s t c _ ih => exact (alignmentCost_insert c s t).trans (Nat.succ_le_succ ih)
  | @delete n s t c _ ih => exact (alignmentCost_delete c s t).trans (Nat.succ_le_succ ih)
  | @substitute n s t c c' _ ih =>
    have hcost := alignmentCost_substitute c c' s t
    split_ifs at hcost <;> omega
  | @transpose n s t c c' _ ih =>
    exact (alignmentCost_transpose c c' s t).trans (Nat.succ_le_succ ih)

omit [DecidableEq α] in
theorem aligns_nil_left (t : List α) : Aligns t.length [] t := by
  induction t with
  | nil => exact .nil
  | cons c t ih => exact .insert c ih

omit [DecidableEq α] in
theorem aligns_nil_right (s : List α) : Aligns s.length s [] := by
  induction s with
  | nil => exact .nil
  | cons c s ih => exact .delete c ih

omit [DecidableEq α] in
/-- The smaller of two costs is one of them. -/
theorem Aligns.min {n m : ℕ} {s t : List α} (hn : Aligns n s t) (hm : Aligns m s t) :
    Aligns (min n m) s t := by
  rcases Nat.le_total n m with h | h
  · rwa [Nat.min_eq_left h]
  · rwa [Nat.min_eq_right h]

/-- The first letters deleted, inserted, or kept or replaced. -/
theorem aligns_best {c c' : α} {s t : List α} {n m k : ℕ} (hdelete : Aligns n s (c' :: t))
    (hinsert : Aligns m (c :: s) t) (hboth : Aligns k s t) :
    Aligns (min (n + 1) (min (m + 1) (k + if c = c' then 0 else 1))) (c :: s)
      (c' :: t) := by
  refine (Aligns.delete c hdelete).min ((Aligns.insert c' hinsert).min ?_)
  split_ifs with heq
  · subst heq
    exact .keep c hboth
  · exact .substitute c c' hboth

/-- An alignment has the cost. -/
theorem aligns_alignmentCost (s t : List α) : Aligns (alignmentCost s t) s t := by
  induction s, t using alignmentCost.induct with
  | case1 t =>
    rw [alignmentCost_nil_left]
    exact aligns_nil_left t
  | case2 c s =>
    rw [alignmentCost_nil_right]
    exact aligns_nil_right _
  | case3 c s c' t hswap hdelete hinsert hboth hrest =>
    have hbest := aligns_best hdelete hinsert hboth
    rw [alignmentCost_cons_cons]
    simp only [if_pos hswap]
    refine hbest.min ?_
    rw [← List.cons_head?_tail hswap.1, ← List.cons_head?_tail hswap.2]
    exact .transpose c c' hrest
  | case4 c s c' t hswap hdelete hinsert hboth =>
    rw [alignmentCost_cons_cons]
    simp only [if_neg hswap]
    exact aligns_best hdelete hinsert hboth

theorem isLeast_alignmentCost (s t : List α) : IsLeast {n | Aligns n s t} (alignmentCost s t) :=
  ⟨aligns_alignmentCost s t, fun _ h => Aligns.alignmentCost_le h⟩

theorem alignmentCost_reverse (s t : List α) :
    alignmentCost s.reverse t.reverse = alignmentCost s t := by
  have hset : {n | Aligns n s.reverse t.reverse} = {n | Aligns n s t} :=
    Set.ext fun n => aligns_reverse_iff
  have hleast := isLeast_alignmentCost s.reverse t.reverse
  rw [hset] at hleast
  exact hleast.unique (isLeast_alignmentCost s t)

theorem alignmentCost_self (s : List α) : alignmentCost s s = 0 :=
  Nat.le_zero.1 (aligns_refl s).alignmentCost_le

/-- Up to one edit, alignments and edits are the same. -/
theorem alignmentCost_le_iff {k : ℕ} (hk : k ≤ 1) (s t : List α) :
    alignmentCost s t ≤ k ↔ ∃ n ≤ k, Edits n s t := by
  constructor
  · exact fun h => ⟨_, h, (aligns_alignmentCost s t).edits⟩
  · rintro ⟨n, hn, hedits⟩
    have hle := (hedits.aligns (hn.trans hk)).alignmentCost_le
    exact hle.trans hn

/-- **Alignments and edits**: the least cost of an alignment is the least number of edits exactly
if some shortest sequence of edits is an alignment. -/
theorem isLeast_edits_iff (s t : List α) :
    IsLeast {n | Edits n s t} (alignmentCost s t) ↔
      ∃ n, IsLeast {n | Edits n s t} n ∧ Aligns n s t := by
  constructor
  · exact fun h => ⟨_, h, aligns_alignmentCost s t⟩
  · rintro ⟨n, hleast, haligns⟩
    have heq : alignmentCost s t = n :=
      Nat.le_antisymm haligns.alignmentCost_le (hleast.2 (aligns_alignmentCost s t).edits)
    rwa [heq]

end Cost

end Alignment
