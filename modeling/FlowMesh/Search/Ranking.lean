import FlowMesh.Library.Dict
import Mathlib.Algebra.Order.Field.Basic
import Mathlib.Data.Finset.Max
import Mathlib.Data.List.Sort
import Mathlib.Data.Rat.Floor
import Mathlib.Tactic.Linarith
import Mathlib.Tactic.Positivity

/-!
# The score of a candidate

`MeilisearchRankingEngine.compute_candidate_score` (`flowmesh_search/ranking.py`), over exact
rationals; the recency bonus, which depends on the clock, is an argument.

The documented order of the criteria begins with the coverage of the query's words. A word of a
query of `n` terms weighs `1000 / n`, and what does not depend on the words lies between 100 and
580 (`extras_bounds`): so coverage decides for one and two terms, and for more it need not
(`coverageDominates_iff`).
-/

namespace FlowMesh.Search

/-- `MatchSignal`. -/
structure MatchSignal where
  queryTerm : String
  matchedTerm : String
  attr : String
  typoCount : ℕ
  isPrefix : Bool
  position : ℕ
  deriving DecidableEq

/-- `CandidateRankScore`. -/
structure CandidateRankScore where
  docId : String
  matchedWords : ℕ := 0
  totalTypos : ℕ := 0
  minProximity : ℕ := 9999
  maxAttributeWeight : ℚ := 0
  exactnessScore : ℚ := 0
  recencyBonus : ℚ := 0
  finalScore : ℚ := 0
  signals : List MatchSignal := []

/-- `ATTRIBUTE_WEIGHTS.get(attr, 20.0)`. -/
def attributeWeight (attr : String) : ℚ :=
  if attr = "id" then 100
  else if attr = "title" then 85
  else if attr = "tags" then 65
  else if attr = "description" then 45
  else if attr = "payload" then 25
  else 20

/-- `round(x, 3)`: a tie goes to the even digit. -/
def round3 (x : ℚ) : ℚ :=
  let low := ⌊x * 1000⌋
  let rest := x * 1000 - low
  if rest < 1 / 2 ∨ rest = 1 / 2 ∧ low % 2 = 0 then low / 1000 else (low + 1) / 1000

section Parts

variable (signals : List MatchSignal)

/-- `unique_matched_query_terms`. -/
def matchedWords : ℕ := (signals.map (·.queryTerm)).dedup.length

/-- `term_min_typos`. -/
def termMinTypos : Dict String ℕ :=
  signals.foldl (fun d s =>
    match d.get? s.queryTerm with
    | none => d.set s.queryTerm s.typoCount
    | some typos => if s.typoCount < typos then d.set s.queryTerm s.typoCount else d) .empty

/-- `total_typos`. -/
def totalTypos : ℕ := (termMinTypos signals).values.sum

/-- `typo_multiplier`. -/
def typoMultiplier (totalTypos : ℕ) : ℚ := max (1 / 5) (1 - totalTypos * (1 / 4))

/-- `positions_by_attr`. -/
def positionsByAttr : Dict String (List ℕ) :=
  signals.foldl (fun d s => d.set s.attr ((d.get? s.attr).getD [] ++ [s.position])) .empty

/-- The distances of neighbours in a list of positions. -/
def neighbourDistances (posList : List ℕ) : List ℕ :=
  let sortedPos := posList.insertionSort (· ≤ ·)
  (sortedPos.zip sortedPos.tail).map fun p => p.2 - p.1

/-- The loop body over the attributes. -/
def nearer (minProx : ℕ) (posList : List ℕ) : ℕ :=
  if 1 < posList.length then
    (neighbourDistances posList).foldl (fun minProx dist => if dist < minProx then dist else minProx)
      minProx
  else if signals.length = 1 then 1
  else minProx

/-- `min_prox`. -/
def minProximity : ℕ := (positionsByAttr signals).values.foldl (nearer signals) 9999

/-- `max_attr_weight`. -/
def maxAttributeWeight : ℚ :=
  match signals.map fun s => attributeWeight s.attr with
  | [] => 20
  | weight :: weights => weights.foldl max weight

/-- `exactness_score`. -/
def exactnessScore : ℚ :=
  (signals.filter fun s => s.typoCount = 0 ∧ s.isPrefix = false).length /
    (max 1 signals.length : ℕ)

/-- What is added to the share of the words. -/
def extras (recency : ℚ) : ℚ :=
  maxAttributeWeight signals * 5 + exactnessScore signals * 50 +
    1 / (max 1 (minProximity signals) : ℕ) * 20 + recency

/-- `composite`. -/
def composite (totalQueryTerms : ℕ) (recency : ℚ) : ℚ :=
  ((matchedWords signals : ℚ) / (max 1 totalQueryTerms : ℕ) * 1000 + extras signals recency) *
    typoMultiplier (totalTypos signals)

end Parts

/-- `compute_candidate_score`. -/
def computeCandidateScore (docId : String) (totalQueryTerms : ℕ) (signals : List MatchSignal)
    (recency : ℚ) : CandidateRankScore :=
  if signals = [] then { docId, signals }
  else {
    docId
    matchedWords := matchedWords signals
    totalTypos := totalTypos signals
    minProximity := minProximity signals
    maxAttributeWeight := maxAttributeWeight signals
    exactnessScore := exactnessScore signals
    recencyBonus := recency
    finalScore := round3 (composite signals totalQueryTerms recency)
    signals }

/-! ## Rounding -/

theorem abs_round3_sub_le (x : ℚ) : |round3 x - x| ≤ 1 / 2000 := by
  have hlow := Int.floor_le (x * 1000)
  have hhigh := Int.lt_floor_add_one (x * 1000)
  unfold round3
  simp only
  split_ifs with hrest
  · have hle : x * 1000 - ⌊x * 1000⌋ ≤ 1 / 2 := by
      rcases hrest with hlt | ⟨heq, -⟩
      · exact hlt.le
      · exact heq.le
    rw [abs_le]
    constructor <;> linarith
  · have hge : 1 / 2 ≤ x * 1000 - ⌊x * 1000⌋ := by
      rw [not_or, not_lt] at hrest
      exact hrest.1
    rw [abs_le]
    constructor <;> linarith

/-- Rounding keeps apart what is further apart than a thousandth. -/
theorem round3_lt {x y : ℚ} (h : x + 1 / 1000 < y) : round3 x < round3 y := by
  have hx := abs_le.1 (abs_round3_sub_le x)
  have hy := abs_le.1 (abs_round3_sub_le y)
  linarith [hx.2, hy.1]

/-! ## Bounds -/

theorem attributeWeight_bounds (attr : String) :
    20 ≤ attributeWeight attr ∧ attributeWeight attr ≤ 100 := by
  unfold attributeWeight
  split_ifs <;> norm_num

theorem foldl_max_bounds {lo hi : ℚ} {weights : List ℚ} (h : ∀ w ∈ weights, lo ≤ w ∧ w ≤ hi)
    {weight : ℚ} (hweight : lo ≤ weight ∧ weight ≤ hi) :
    lo ≤ weights.foldl max weight ∧ weights.foldl max weight ≤ hi := by
  induction weights generalizing weight with
  | nil => exact hweight
  | cons w weights ih =>
    obtain ⟨hw, hrest⟩ := List.forall_mem_cons.1 h
    exact ih hrest ⟨hweight.1.trans (le_max_left _ _), max_le hweight.2 hw.2⟩

theorem maxAttributeWeight_bounds (signals : List MatchSignal) :
    20 ≤ maxAttributeWeight signals ∧ maxAttributeWeight signals ≤ 100 := by
  have hall : ∀ w ∈ signals.map (fun s => attributeWeight s.attr), (20 : ℚ) ≤ w ∧ w ≤ 100 := by
    intro w hw
    obtain ⟨s, -, rfl⟩ := List.mem_map.1 hw
    exact attributeWeight_bounds s.attr
  unfold maxAttributeWeight
  split
  · norm_num
  · next weight weights heq =>
    rw [heq] at hall
    obtain ⟨hweight, hrest⟩ := List.forall_mem_cons.1 hall
    exact foldl_max_bounds hrest hweight

theorem exactnessScore_bounds (signals : List MatchSignal) :
    0 ≤ exactnessScore signals ∧ exactnessScore signals ≤ 1 := by
  unfold exactnessScore
  constructor
  · positivity
  · apply div_le_one_of_le₀
    · exact_mod_cast (List.length_filter_le _ _).trans (le_max_right 1 signals.length)
    · positivity

/-- What does not depend on the words. -/
theorem extras_bounds (signals : List MatchSignal) {recency : ℚ} (hlow : 0 ≤ recency)
    (hhigh : recency ≤ 10) : 100 ≤ extras signals recency ∧ extras signals recency ≤ 580 := by
  have hweight := maxAttributeWeight_bounds signals
  have hexact := exactnessScore_bounds signals
  have hone : (1 : ℚ) ≤ (max 1 (minProximity signals) : ℕ) := by
    exact_mod_cast le_max_left 1 (minProximity signals)
  have hprox : (1 : ℚ) / (max 1 (minProximity signals) : ℕ) ≤ 1 :=
    div_le_one_of_le₀ hone (by positivity)
  have hprox' : (0 : ℚ) ≤ 1 / (max 1 (minProximity signals) : ℕ) := by positivity
  unfold extras
  constructor
  · linarith [hweight.1, hexact.1]
  · linarith [hweight.2, hexact.2]

theorem typoMultiplier_antitone {m n : ℕ} (h : m ≤ n) : typoMultiplier n ≤ typoMultiplier m := by
  have hcast : (m : ℚ) ≤ n := by exact_mod_cast h
  unfold typoMultiplier
  exact max_le_max le_rfl (by linarith)

theorem le_typoMultiplier (n : ℕ) : 1 / 5 ≤ typoMultiplier n := le_max_left _ _

/-- The words that are matched are among those of the query. -/
theorem matchedWords_le {signals : List MatchSignal} {terms : List String}
    (h : ∀ s ∈ signals, s.queryTerm ∈ terms) : matchedWords signals ≤ terms.length := by
  have hsub : (signals.map (·.queryTerm)).dedup ⊆ terms := by
    intro term hterm
    obtain ⟨s, hs, rfl⟩ := List.mem_map.1 (List.mem_dedup.1 hterm)
    exact h s hs
  exact (List.subperm_of_subset (List.nodup_dedup _) hsub).length_le

/-! ## Coverage -/

/-- In a query of `n` terms, of two documents the one that matches more terms, and needs no more
typos, has the higher score. -/
def CoverageDominates (n : ℕ) : Prop :=
  ∀ terms : List String, terms.Nodup → terms.length = n →
    ∀ (docId docId' : String) (signals signals' : List MatchSignal) (recency recency' : ℚ),
      (∀ s ∈ signals, s.queryTerm ∈ terms) → (∀ s ∈ signals', s.queryTerm ∈ terms) →
      0 ≤ recency → recency ≤ 10 → 0 ≤ recency' → recency' ≤ 10 →
      (computeCandidateScore docId' n signals' recency').matchedWords <
        (computeCandidateScore docId n signals recency).matchedWords →
      (computeCandidateScore docId n signals recency).totalTypos ≤
        (computeCandidateScore docId' n signals' recency').totalTypos →
      (computeCandidateScore docId' n signals' recency').finalScore <
        (computeCandidateScore docId n signals recency).finalScore

/-- A word of a query of one or two terms weighs 500. -/
theorem wordsShare_le {n words words' : ℕ} (hn : n ≤ 2) (hle : words ≤ n) (hlt : words' < words) :
    (words' : ℚ) / (max 1 n : ℕ) * 1000 + 500 ≤ (words : ℚ) / (max 1 n : ℕ) * 1000 := by
  have hmax : max 1 n = n := max_eq_right (by omega)
  have hpos : (0 : ℚ) < n := by exact_mod_cast (by omega : 0 < n)
  have hnq : (n : ℚ) ≤ 2 := by exact_mod_cast hn
  have hstep : (words' : ℚ) + 1 ≤ words := by exact_mod_cast hlt
  have hhalf : 1 / 2 ≤ ((words : ℚ) - words') / n := by
    rw [le_div_iff₀ hpos]
    linarith
  rw [hmax]
  rw [sub_div] at hhalf
  linarith

theorem coverageDominates_of_le {n : ℕ} (hn : n ≤ 2) : CoverageDominates n := by
  intro terms _ hlength docId docId' signals signals' recency recency' hterms hterms' h0 h10 h0'
    h10' hwords htypos
  have hne : signals ≠ [] := by
    rintro rfl
    simp [computeCandidateScore] at hwords
  have hle : matchedWords signals ≤ n := hlength ▸ matchedWords_le hterms
  obtain ⟨hlow, -⟩ := extras_bounds signals h0 h10
  have hmult := le_typoMultiplier (totalTypos signals)
  have hshare : (0 : ℚ) ≤ (matchedWords signals : ℚ) / (max 1 n : ℕ) * 1000 := by positivity
  simp only [computeCandidateScore, if_neg hne] at hwords htypos ⊢
  by_cases hne' : signals' = []
  · have hcomposite : 100 * (1 / 5) ≤ composite signals n recency :=
      mul_le_mul (by linarith) hmult (by norm_num) (by linarith)
    have hround := abs_le.1 (abs_round3_sub_le (composite signals n recency))
    simp only [if_pos hne']
    linarith [hround.1]
  · simp only [if_neg hne'] at hwords htypos ⊢
    obtain ⟨-, hhigh'⟩ := extras_bounds signals' h0' h10'
    have hmult' := le_typoMultiplier (totalTypos signals')
    have hmono := typoMultiplier_antitone htypos
    have hwordsShare := wordsShare_le hn hle hwords
    apply round3_lt
    unfold composite
    set inner := (matchedWords signals : ℚ) / (max 1 n : ℕ) * 1000 + extras signals recency
    set inner' := (matchedWords signals' : ℚ) / (max 1 n : ℕ) * 1000 + extras signals' recency'
    have hinner : inner' + 20 ≤ inner := by linarith
    calc inner' * typoMultiplier (totalTypos signals') + 1 / 1000
        < (inner' + 20) * typoMultiplier (totalTypos signals') := by linarith
      _ ≤ inner * typoMultiplier (totalTypos signals') :=
        mul_le_mul_of_nonneg_right hinner (by linarith)
      _ ≤ inner * typoMultiplier (totalTypos signals) :=
        mul_le_mul_of_nonneg_left hmono (by linarith)

/-! ### More terms -/

/-- The terms `a`, `aa`, `aaa` and so on. -/
def manyTerms (n : ℕ) : List String :=
  (List.range n).map fun i => String.ofList (List.replicate (i + 1) 'a')

theorem nodup_manyTerms (n : ℕ) : (manyTerms n).Nodup := by
  apply List.Nodup.map _ List.nodup_range
  intro i j hij
  have hlength := congrArg String.length hij
  simpa using hlength

/-- Two terms in the status, five places apart. -/
def statusSignals : List MatchSignal :=
  [⟨"a", "a", "status", 0, false, 0⟩, ⟨"aa", "aa", "status", 0, false, 5⟩]

/-- One term, which is the id. -/
def idSignals : List MatchSignal := [⟨"a", "a", "id", 0, false, 0⟩]

theorem mem_manyTerms {n : ℕ} (hn : 3 ≤ n) : "a" ∈ manyTerms n ∧ "aa" ∈ manyTerms n := by
  constructor
  · exact List.mem_map.2 ⟨0, List.mem_range.2 (by omega), rfl⟩
  · exact List.mem_map.2 ⟨1, List.mem_range.2 (by omega), rfl⟩

theorem max_one_of_three_le {n : ℕ} (hn : 3 ≤ n) : max 1 n = n := max_eq_right (by omega)

theorem composite_statusSignals {n : ℕ} (hn : 3 ≤ n) :
    composite statusSignals n 0 = 2000 / n + 154 := by
  have hwords : matchedWords statusSignals = 2 := by decide +kernel
  have hextras : extras statusSignals 0 = 154 := by decide +kernel
  have hmult : typoMultiplier (totalTypos statusSignals) = 1 := by decide +kernel
  rw [composite, hwords, hextras, hmult, max_one_of_three_le hn]
  push_cast
  ring

theorem composite_idSignals {n : ℕ} (hn : 3 ≤ n) : composite idSignals n 10 = 1000 / n + 580 := by
  have hwords : matchedWords idSignals = 1 := by decide +kernel
  have hextras : extras idSignals 10 = 580 := by decide +kernel
  have hmult : typoMultiplier (totalTypos idSignals) = 1 := by decide +kernel
  rw [composite, hwords, hextras, hmult, max_one_of_three_le hn]
  push_cast
  ring

/-- Of three terms, one more weighs less than the id does. -/
theorem not_coverageDominates {n : ℕ} (hn : 3 ≤ n) : ¬ CoverageDominates n := by
  intro hdominates
  obtain ⟨ha, haa⟩ := mem_manyTerms hn
  have hlength : (manyTerms n).length = n := by simp [manyTerms]
  have hstatus : ∀ s ∈ statusSignals, s.queryTerm ∈ manyTerms n := by simp [statusSignals, ha, haa]
  have hid : ∀ s ∈ idSignals, s.queryTerm ∈ manyTerms n := by simp [idSignals, ha]
  have hlt := hdominates (manyTerms n) (nodup_manyTerms n) hlength "status" "id" statusSignals
    idSignals 0 10 hstatus hid le_rfl (by norm_num) (by norm_num) le_rfl
    (show matchedWords idSignals < matchedWords statusSignals by decide +kernel)
    (show totalTypos statusSignals ≤ totalTypos idSignals by decide +kernel)
  have hgt : round3 (composite statusSignals n 0) < round3 (composite idSignals n 10) := by
    apply round3_lt
    have hpos : (0 : ℚ) < n := by exact_mod_cast (by omega : 0 < n)
    have hthird : (1000 : ℚ) / n ≤ 400 := by
      rw [div_le_iff₀ hpos]
      have hcast : (3 : ℚ) ≤ n := by exact_mod_cast hn
      linarith
    have hdouble : (2000 : ℚ) / n = 2 * (1000 / n) := by ring
    rw [composite_statusSignals hn, composite_idSignals hn, hdouble]
    linarith
  exact absurd hlt (not_lt.2 hgt.le)

theorem not_coverageDominates_three : ¬ ∀ n, CoverageDominates n :=
  fun hall => not_coverageDominates le_rfl (hall 3)

/-- **Coverage comes first** for queries of one and two terms, and for no others. -/
theorem coverageDominates_iff (n : ℕ) : CoverageDominates n ↔ n ≤ 2 := by
  constructor
  · intro hdominates
    by_contra hlt
    exact not_coverageDominates (by omega) hdominates
  · exact coverageDominates_of_le

end FlowMesh.Search
