import FlowMesh.Library.Alignment
import Mathlib.Data.List.TakeDrop
import Mathlib.Logic.Function.Basic

/-!
# Typos

`flowmesh_search/typo.py`: how many typos a word is allowed, the distance of two words by a table
that is filled row by row, and whether a query's term matches an indexed one.

The table holds the least costs of alignments of prefixes (`fill_apply`). So the distance is the
least number of edits exactly if some shortest sequence of edits is an alignment
(`distance_isLeast_iff`): `CA` becomes `ABC` by a swap and an insertion between the swapped letters,
which is no alignment, and the distance is 3. Such words are at least two edits apart, so a word that
may have one typo is matched exactly (`matchWithTypo_iff`).
-/

namespace FlowMesh.Search

open Alignment

/-- `max_allowed_typos`. -/
def maxAllowedTypos (wordLen : ℕ) : ℕ :=
  if wordLen < 5 then 0 else if wordLen ≤ 8 then 1 else 2

/-- The table `d`. -/
abbrev Table := ℕ × ℕ → ℕ

/-- The table once the first column and the first row are set. -/
def borders : Table
  | (i, 0) => i
  | (0, j) => j
  | _ => 0

/-- The value for `d[i][j]`. -/
def cell (s1 s2 : List Char) (d : Table) (i j : ℕ) : ℕ :=
  let cost := if s1[i - 1]? = s2[j - 1]? then 0 else 1
  let best := min (d (i - 1, j) + 1) (min (d (i, j - 1) + 1) (d (i - 1, j - 1) + cost))
  if 1 < i ∧ 1 < j ∧ s1[i - 1]? = s2[j - 2]? ∧ s1[i - 2]? = s2[j - 1]? then
    min best (d (i - 2, j - 2) + 1)
  else best

/-- The inner loop. -/
def fillRow (s1 s2 : List Char) (d : Table) (i : ℕ) : Table :=
  (List.range' 1 s2.length).foldl (fun d j => Function.update d (i, j) (cell s1 s2 d i j)) d

/-- The outer loop. -/
def fill (s1 s2 : List Char) : Table := (List.range' 1 s1.length).foldl (fillRow s1 s2) borders

/-- `damerau_levenshtein_distance`. -/
def damerauLevenshteinDistance (s1 s2 : String) : ℕ :=
  let len1 := s1.length
  let len2 := s2.length
  if s1 = s2 then 0
  else if len1 = 0 then len2
  else if len2 = 0 then len1
  else fill s1.toList s2.toList (len1, len2)

/-- `match_with_typo`: whether it matches, the typos, and whether a prefix does. -/
def matchWithTypo (queryTerm indexedTerm : String) (isPrefix : Bool) (maxTypos : ℕ) :
    Bool × ℕ × Bool :=
  let qLen := queryTerm.length
  let allowedTypos := min (maxAllowedTypos qLen) maxTypos
  if queryTerm = indexedTerm then (true, 0, false)
  else if isPrefix ∧ qLen ≤ indexedTerm.length ∧
      queryTerm.toList <+: indexedTerm.toList then (true, 0, true)
  else
    let prefixDist := damerauLevenshteinDistance queryTerm
      (String.ofList (indexedTerm.toList.take qLen))
    if isPrefix ∧ qLen ≤ indexedTerm.length ∧ prefixDist ≤ allowedTypos then (true, prefixDist, true)
    else
      let dist := damerauLevenshteinDistance queryTerm indexedTerm
      if dist ≤ allowedTypos then (true, dist, false) else (false, 999, false)

/-! ## The table -/

/-- What every turn of a loop over `1, …, n` keeps. -/
theorem foldl_range'_induction {β : Type} {f : β → ℕ → β} (P : ℕ → β → Prop) {b : β} {n : ℕ}
    (h0 : P 0 b) (hstep : ∀ k b, k < n → P k b → P (k + 1) (f b (k + 1))) :
    P n ((List.range' 1 n).foldl f b) := by
  induction n with
  | zero => exact h0
  | succ n ih =>
    rw [List.range'_1_concat, List.foldl_append]
    have hn := ih fun k b hk => hstep k b (Nat.lt_succ_of_lt hk)
    have hlast := hstep n _ (Nat.lt_succ_self n) hn
    rw [Nat.add_comm 1 n]
    exact hlast

/-- The cost of the prefixes of these lengths. -/
def prefixCost (s1 s2 : List Char) (p : ℕ × ℕ) : ℕ :=
  alignmentCost (s1.take p.1).reverse (s2.take p.2).reverse

section Fill

variable {s1 s2 : List Char} {d : Table} {i j : ℕ}

theorem take_succ_reverse {l : List Char} (h : i < l.length) :
    (l.take (i + 1)).reverse = l[i] :: (l.take i).reverse := by
  rw [List.take_succ_eq_append_getElem h, List.reverse_append, List.reverse_singleton,
    List.singleton_append]

theorem prefixCost_zero_left (hj : j ≤ s2.length) : prefixCost s1 s2 (0, j) = j := by
  simp [prefixCost, hj]

theorem prefixCost_zero_right (hi : i ≤ s1.length) : prefixCost s1 s2 (i, 0) = i := by
  simp [prefixCost, hi]

/-- The last letter of a prefix. -/
theorem head?_take_reverse {l : List Char} (h : i ≤ l.length) {c : Char} :
    (l.take i).reverse.head? = some c ↔ 0 < i ∧ l[i - 1]? = some c := by
  cases i with
  | zero => simp
  | succ i =>
    have hi : i < l.length := h
    simp [take_succ_reverse hi, List.getElem?_eq_getElem hi]

theorem tail_take_reverse {l : List Char} (h : i ≤ l.length) :
    (l.take i).reverse.tail = (l.take (i - 1)).reverse := by
  cases i with
  | zero => simp
  | succ i => rw [take_succ_reverse (show i < l.length from h), List.tail_cons, Nat.add_sub_cancel]

/-- The value of a cell, if those that it looks at hold the costs. -/
theorem cell_eq (hi : i < s1.length) (hj : j < s2.length)
    (hd : ∀ p : ℕ × ℕ, p.1 ≤ i + 1 → p.2 ≤ j + 1 → p ≠ (i + 1, j + 1) → d p = prefixCost s1 s2 p) :
    cell s1 s2 d (i + 1) (j + 1) = prefixCost s1 s2 (i + 1, j + 1) := by
  have hup : d (i, j + 1) = prefixCost s1 s2 (i, j + 1) := hd _ (by simp) (by simp) (by simp)
  have hleft : d (i + 1, j) = prefixCost s1 s2 (i + 1, j) := hd _ (by simp) (by simp) (by simp)
  have hdiag : d (i, j) = prefixCost s1 s2 (i, j) := hd _ (by simp) (by simp) (by simp)
  have hswap : d (i - 1, j - 1) = prefixCost s1 s2 (i - 1, j - 1) :=
    hd _ (by simp; omega) (by simp; omega) (by simp)
  have hi2 : i + 1 - 2 = i - 1 := by omega
  have hj2 : j + 1 - 2 = j - 1 := by omega
  have hcost : (s1[i]? = s2[j]?) ↔ s1[i] = s2[j] := by
    rw [List.getElem?_eq_getElem hi, List.getElem?_eq_getElem hj, Option.some.injEq]
  have hcond : (1 < i + 1 ∧ 1 < j + 1 ∧ s1[i]? = s2[j - 1]? ∧ s1[i - 1]? = s2[j]?) ↔
      ((s1.take i).reverse.head? = some s2[j] ∧ (s2.take j).reverse.head? = some s1[i]) := by
    rw [head?_take_reverse hi.le, head?_take_reverse hj.le, List.getElem?_eq_getElem hi,
      List.getElem?_eq_getElem hj]
    constructor
    · rintro ⟨h1, h2, h3, h4⟩
      exact ⟨⟨by omega, h4⟩, by omega, h3.symm⟩
    · rintro ⟨⟨h1, h4⟩, h2, h3⟩
      exact ⟨by omega, by omega, h3.symm, h4⟩
  unfold cell
  simp only [Nat.add_sub_cancel, hi2, hj2, hup, hleft, hdiag, hswap, hcost, hcond]
  unfold prefixCost
  simp only [take_succ_reverse hi, take_succ_reverse hj]
  rw [alignmentCost_cons_cons, tail_take_reverse hi.le, tail_take_reverse hj.le]

/-- The table holds the costs of the prefixes up to these lengths, and of the empty ones. -/
def Holds (s1 s2 : List Char) (d : Table) (done : ℕ × ℕ → Prop) : Prop :=
  ∀ p : ℕ × ℕ, p.1 ≤ s1.length → p.2 ≤ s2.length → p.1 = 0 ∨ p.2 = 0 ∨ done p →
    d p = prefixCost s1 s2 p

theorem holds_borders : Holds s1 s2 borders fun _ => False := by
  rintro ⟨i, j⟩ hi hj (rfl | rfl | hdone)
  · rw [prefixCost_zero_left hj]
    cases j <;> rfl
  · rw [prefixCost_zero_right hi]
    rfl
  · exact hdone.elim

/-- A row is filled from the left. -/
theorem holds_fillRow (hi : i < s1.length) (hd : Holds s1 s2 d fun p => p.1 ≤ i) :
    Holds s1 s2 (fillRow s1 s2 d (i + 1)) fun p => p.1 ≤ i + 1 := by
  have hrow : Holds s1 s2 (fillRow s1 s2 d (i + 1))
      fun p => p.1 ≤ i ∨ p.1 = i + 1 ∧ p.2 ≤ s2.length := by
    apply foldl_range'_induction
      (P := fun k d => Holds s1 s2 d fun p => p.1 ≤ i ∨ p.1 = i + 1 ∧ p.2 ≤ k)
    · rintro p hp1 hp2 (h | h | h | h)
      · exact hd p hp1 hp2 (Or.inl h)
      · exact hd p hp1 hp2 (Or.inr (Or.inl h))
      · exact hd p hp1 hp2 (Or.inr (Or.inr h))
      · exact hd p hp1 hp2 (Or.inr (Or.inl (by omega)))
    · intro k d hk hkept p hp1 hp2 hp
      by_cases heq : p = (i + 1, k + 1)
      · subst heq
        rw [Function.update_self]
        apply cell_eq hi hk
        rintro ⟨i', j'⟩ hi' hj' hne
        simp only at hi' hj'
        refine hkept _ (by simp only; omega) (by simp only; omega) ?_
        simp only [ne_eq, Prod.mk.injEq] at hne ⊢
        omega
      · rw [Function.update_of_ne heq]
        obtain ⟨i', j'⟩ := p
        simp only [Prod.mk.injEq] at heq hp ⊢
        refine hkept _ hp1 hp2 ?_
        simp only
        omega
  intro p hp1 hp2 hp
  refine hrow p hp1 hp2 ?_
  simp only at hp ⊢
  omega

/-- The table holds the costs of all prefixes. -/
theorem fill_apply (s1 s2 : List Char) :
    fill s1 s2 (s1.length, s2.length) = alignmentCost s1.reverse s2.reverse := by
  have hfill : Holds s1 s2 (fill s1 s2) fun p => p.1 ≤ s1.length := by
    apply foldl_range'_induction (P := fun k d => Holds s1 s2 d fun p => p.1 ≤ k)
    · rintro p hp1 hp2 (h | h | h)
      · exact holds_borders p hp1 hp2 (Or.inl h)
      · exact holds_borders p hp1 hp2 (Or.inr (Or.inl h))
      · exact holds_borders p hp1 hp2 (Or.inl (Nat.le_zero.1 h))
    · exact fun k d hk hd => holds_fillRow hk hd
  rw [hfill _ le_rfl le_rfl (Or.inr (Or.inr le_rfl))]
  simp [prefixCost]

end Fill

/-! ## The distance -/

/-- The distance is the least cost of an alignment. -/
theorem distance_eq (s1 s2 : String) :
    damerauLevenshteinDistance s1 s2 = alignmentCost s1.toList s2.toList := by
  unfold damerauLevenshteinDistance
  simp only [← String.length_toList]
  split_ifs with heq hlen1 hlen2
  · rw [heq, alignmentCost_self]
  · rw [List.length_eq_zero_iff.1 hlen1, alignmentCost_nil_left]
  · rw [List.length_eq_zero_iff.1 hlen2, alignmentCost_nil_right]
  · rw [fill_apply, alignmentCost_reverse]

/-- **Matching words**: where at most one typo is allowed, as for a word of up to eight letters, two
words match exactly if that many edits turn one into the other. -/
theorem matchWithTypo_iff {queryTerm indexedTerm : String} {maxTypos : ℕ}
    (hallowed : min (maxAllowedTypos queryTerm.length) maxTypos ≤ 1) :
    (matchWithTypo queryTerm indexedTerm false maxTypos).1 = true ↔
      ∃ n ≤ min (maxAllowedTypos queryTerm.length) maxTypos,
        Edits n queryTerm.toList indexedTerm.toList := by
  rw [← alignmentCost_le_iff hallowed, ← distance_eq]
  unfold matchWithTypo
  simp only [Bool.false_eq_true, false_and, if_false]
  split_ifs with heq hdist
  · simp [distance_eq, heq, alignmentCost_self]
  · simp [hdist]
  · simp [hdist]

/-- **The distance and edits**: the distance of two words is the least number of edits that turn one
into the other, exactly if some shortest sequence of edits is an alignment. -/
theorem distance_isLeast_iff (s1 s2 : String) :
    IsLeast {n | Edits n s1.toList s2.toList} (damerauLevenshteinDistance s1 s2) ↔
      ∃ n, IsLeast {n | Edits n s1.toList s2.toList} n ∧ Aligns n s1.toList s2.toList := by
  rw [distance_eq]
  exact isLeast_edits_iff s1.toList s2.toList

/-- `CA` becomes `AC`, and then `ABC`. -/
theorem not_isLeast_distance : ¬ ∀ s1 s2 : String,
    IsLeast {n | Edits n s1.toList s2.toList} (damerauLevenshteinDistance s1 s2) := by
  intro hall
  have hdistance : damerauLevenshteinDistance "CA" "ABC" = 3 := by decide +kernel
  have hedits : Edits 2 "CA".toList "ABC".toList :=
    .step (.transpose [] [] 'C' 'A') (.step (.insert ['A'] ['C'] 'B') (.refl _))
  have hle := (hall "CA" "ABC").2 hedits
  rw [hdistance] at hle
  exact absurd hle (by decide)

end FlowMesh.Search
