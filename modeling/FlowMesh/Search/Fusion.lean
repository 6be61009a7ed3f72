import FlowMesh.Library.Dict
import Mathlib.Algebra.Order.Field.Basic
import Mathlib.Algebra.Order.Field.Rat
import Mathlib.Data.List.Sort
import Mathlib.Tactic.Linarith
import Mathlib.Tactic.Positivity

/-!
# Fusing two rankings

`ReciprocalRankFusion.fuse` (`flowmesh_search/fusion.py`): every document gets the weighted
reciprocals of its ranks in two lists, summed up in a dictionary, and the sums are sorted. The
scores are exact rationals.

`get?_addRanks` says what one loop adds; so the dictionary holds `fusedScore`, and what stands
earlier in every list has the larger one (`fusedScore_lt`).
-/

namespace FlowMesh.Search

/-- A ranked stream. -/
abbrev RankedList := List (String × ℚ)

/-- The ids of a ranked stream. -/
def RankedList.ids (ranked : RankedList) : List String := ranked.map Prod.fst

/-- The order that `key=lambda item: item[1], reverse=True` sorts by. -/
def ByScore (p q : String × ℚ) : Prop := q.2 ≤ p.2

instance byScoreDecidable : DecidableRel ByScore := fun p q => inferInstanceAs (Decidable (q.2 ≤ p.2))

instance byScoreTotal : Std.Total ByScore := ⟨fun p q => le_total q.2 p.2⟩

instance byScoreTrans : IsTrans (String × ℚ) ByScore := ⟨fun _ _ _ hpq hqr => le_trans hqr hpq⟩

/-- The body of a loop of `fuse`. -/
def addRank (k weight : ℚ) (rrfScores : Dict String ℚ) (entry : (String × ℚ) × ℕ) :
    Dict String ℚ :=
  let ((docId, _), rank) := entry
  rrfScores.set docId ((rrfScores.get? docId).getD 0 + weight / (k + rank))

/-- A loop of `fuse`: the ranks count from `start`. -/
def addRanks (k weight : ℚ) (start : ℕ) (rrfScores : Dict String ℚ) (ranked : RankedList) :
    Dict String ℚ :=
  (ranked.zipIdx start).foldl (addRank k weight) rrfScores

/-- `fuse`. -/
def fuse (k : ℚ) (lexicalRanked semanticRanked : RankedList) (weightLexical weightSemantic : ℚ) :
    RankedList :=
  let rrfScores := addRanks k weightLexical 1 .empty lexicalRanked
  let rrfScores := addRanks k weightSemantic 1 rrfScores semanticRanked
  rrfScores.items.insertionSort ByScore

example : fuse 60 [("a", 3), ("b", 2)] [("b", 1), ("c", 1)] 1 (4 / 5) =
    [("b", 1 / 62 + 4 / 5 / 61), ("a", 1 / 61), ("c", 4 / 5 / 62)] := by decide +kernel

/-! ## Scores -/

/-- What a list gives a document. -/
def reciprocalRank (k weight : ℚ) (ids : List String) (docId : String) : ℚ :=
  if docId ∈ ids then weight / (k + (ids.idxOf docId + 1 : ℕ)) else 0

/-- What both lists give a document. -/
def fusedScore (k : ℚ) (lexicalRanked semanticRanked : RankedList)
    (weightLexical weightSemantic : ℚ) (docId : String) : ℚ :=
  reciprocalRank k weightLexical lexicalRanked.ids docId +
    reciprocalRank k weightSemantic semanticRanked.ids docId

section Scores

variable {k weight : ℚ} {d : Dict String ℚ} {ranked : RankedList} {docId : String}

/-- What a loop adds. -/
theorem get?_addRanks (hnodup : ranked.ids.Nodup) (start : ℕ) :
    (addRanks k weight start d ranked).get? docId =
      if docId ∈ ranked.ids then
        some ((d.get? docId).getD 0 + weight / (k + (ranked.ids.idxOf docId + start : ℕ)))
      else d.get? docId := by
  induction ranked generalizing d start with
  | nil => rfl
  | cons entry ranked ih =>
    obtain ⟨id, score⟩ := entry
    obtain ⟨hnew, hrest⟩ := List.nodup_cons.1 hnodup
    have hstep : addRanks k weight start d ((id, score) :: ranked) =
        addRanks k weight (start + 1) (addRank k weight d ((id, score), start)) ranked := rfl
    rw [hstep, ih hrest]
    simp only [RankedList.ids, List.map_cons, addRank, Dict.get?_set] at hnew ⊢
    by_cases hid : docId = id
    · subst hid
      simp [hnew]
    · have hne : ¬ id = docId := fun h => hid h.symm
      have hsum : List.idxOf docId (ranked.map Prod.fst) + (start + 1) =
          List.idxOf docId (ranked.map Prod.fst) + 1 + start := by omega
      simp only [List.mem_cons, hid, false_or, if_false, List.idxOf_cons_ne _ hne, hsum]

theorem get?_addRanks_empty (hnodup : ranked.ids.Nodup) :
    (addRanks k weight 1 .empty ranked).get? docId =
      if docId ∈ ranked.ids then some (reciprocalRank k weight ranked.ids docId) else none := by
  rw [get?_addRanks hnodup, reciprocalRank]
  split_ifs <;> simp

end Scores

/-! ## Places -/

/-- In a sorted list what has the larger score stands before. -/
theorem idxOf_lt_of_score_lt {ranked : RankedList} (hsorted : ranked.Pairwise ByScore)
    (hnodup : ranked.ids.Nodup) {a b : String} {x y : ℚ} (ha : (a, x) ∈ ranked)
    (hb : (b, y) ∈ ranked) (hlt : y < x) : ranked.ids.idxOf a < ranked.ids.idxOf b := by
  induction ranked with
  | nil => cases ha
  | cons p ranked ih =>
    obtain ⟨hp, hrest⟩ := List.pairwise_cons.1 hsorted
    obtain ⟨hnew, hnodup⟩ := List.nodup_cons.1 hnodup
    have hidb : b ∈ RankedList.ids ranked → b ≠ p.1 := fun hmem heq => hnew (heq ▸ hmem)
    rcases List.mem_cons.1 hb with rfl | hb
    · -- `b` comes first: nothing has a larger score
      rcases List.mem_cons.1 ha with heq | ha
      · cases heq
        exact absurd hlt (lt_irrefl _)
      · exact absurd (hp _ ha) (not_le.2 hlt)
    · have hbne := hidb (List.mem_map_of_mem hb)
      rcases List.mem_cons.1 ha with rfl | ha
      · simp [RankedList.ids, List.idxOf_cons_ne _ (Ne.symm hbne)]
      · have hane : a ≠ p.1 := fun heq => hnew (heq ▸ List.mem_map_of_mem ha)
        have hind := ih hrest hnodup ha hb
        simp only [RankedList.ids, List.map_cons, List.idxOf_cons_ne _ (Ne.symm hbne),
          List.idxOf_cons_ne _ (Ne.symm hane)] at hind ⊢
        omega

/-- An earlier place in a list gives more. -/
theorem reciprocalRank_lt {k weight : ℚ} (hk : 0 ≤ k) (hweight : 0 < weight) {ids : List String}
    {a b : String} (hb : b ∈ ids) (hlt : ids.idxOf a < ids.idxOf b) :
    reciprocalRank k weight ids b < reciprocalRank k weight ids a := by
  have ha : a ∈ ids := List.idxOf_lt_length_iff.1 (hlt.trans (List.idxOf_lt_length_iff.2 hb))
  unfold reciprocalRank
  rw [if_pos ha, if_pos hb]
  apply div_lt_div_of_pos_left hweight
  · positivity
  · have hcast : ((ids.idxOf a + 1 : ℕ) : ℚ) < ((ids.idxOf b + 1 : ℕ) : ℚ) := by
      exact_mod_cast Nat.succ_lt_succ hlt
    linarith

theorem reciprocalRank_nonneg {k weight : ℚ} (hk : 0 ≤ k) (hweight : 0 < weight)
    (ids : List String) (docId : String) : 0 ≤ reciprocalRank k weight ids docId := by
  unfold reciprocalRank
  split_ifs
  · positivity
  · exact le_rfl

/-- What stands earlier in every list in which the other one is gets no less of either, and more
of one in which the other one is. -/
theorem reciprocalRank_le {k weight : ℚ} (hk : 0 ≤ k) (hweight : 0 < weight) {ids : List String}
    {a b : String} (hearlier : b ∈ ids → ids.idxOf a < ids.idxOf b) :
    reciprocalRank k weight ids b ≤ reciprocalRank k weight ids a := by
  by_cases hb : b ∈ ids
  · exact (reciprocalRank_lt hk hweight hb (hearlier hb)).le
  · have hzero : reciprocalRank k weight ids b = 0 := if_neg hb
    rw [hzero]
    exact reciprocalRank_nonneg hk hweight ids a

section Fuse

variable {k weightLexical weightSemantic : ℚ} {lexicalRanked semanticRanked : RankedList}

theorem fusedScore_lt (hk : 0 ≤ k) (hlex : 0 < weightLexical) (hsem : 0 < weightSemantic)
    {a b : String} (hb : b ∈ lexicalRanked.ids ∨ b ∈ semanticRanked.ids)
    (hearlier : b ∈ lexicalRanked.ids → lexicalRanked.ids.idxOf a < lexicalRanked.ids.idxOf b)
    (hearlier' : b ∈ semanticRanked.ids →
      semanticRanked.ids.idxOf a < semanticRanked.ids.idxOf b) :
    fusedScore k lexicalRanked semanticRanked weightLexical weightSemantic b <
      fusedScore k lexicalRanked semanticRanked weightLexical weightSemantic a := by
  have hle := reciprocalRank_le hk hlex hearlier
  have hle' := reciprocalRank_le hk hsem hearlier'
  unfold fusedScore
  rcases hb with hb | hb
  · have hlt := reciprocalRank_lt hk hlex hb (hearlier hb)
    linarith
  · have hlt := reciprocalRank_lt hk hsem hb (hearlier' hb)
    linarith

/-- What the dictionary holds. -/
theorem mem_fuse (hlex : lexicalRanked.ids.Nodup) (hsem : semanticRanked.ids.Nodup)
    {docId : String} {score : ℚ} :
    (docId, score) ∈ fuse k lexicalRanked semanticRanked weightLexical weightSemantic ↔
      (docId ∈ lexicalRanked.ids ∨ docId ∈ semanticRanked.ids) ∧
        score = fusedScore k lexicalRanked semanticRanked weightLexical weightSemantic docId := by
  rw [fuse, List.mem_insertionSort, Dict.mem_items_iff, get?_addRanks hsem,
    get?_addRanks_empty hlex]
  unfold fusedScore
  by_cases hl : docId ∈ lexicalRanked.ids <;> by_cases hs : docId ∈ semanticRanked.ids <;>
    simp [hl, hs, reciprocalRank, eq_comm]

/-- **Rank fusion**: the ids of both lists, each once, in non-increasing order of their scores;
and a document that is earlier than another one in every list that has the other one is placed
before it. -/
theorem fuse_spec (hk : 0 ≤ k) (hlexical : 0 < weightLexical) (hsemantic : 0 < weightSemantic)
    (hlex : lexicalRanked.ids.Nodup) (hsem : semanticRanked.ids.Nodup) :
    let fused := fuse k lexicalRanked semanticRanked weightLexical weightSemantic
    (∀ docId, docId ∈ fused.ids ↔ docId ∈ lexicalRanked.ids ∨ docId ∈ semanticRanked.ids) ∧
      fused.ids.Nodup ∧ (fused.map Prod.snd).Pairwise (· ≥ ·) ∧
      ∀ a b, (b ∈ lexicalRanked.ids ∨ b ∈ semanticRanked.ids) →
        (b ∈ lexicalRanked.ids → lexicalRanked.ids.idxOf a < lexicalRanked.ids.idxOf b) →
        (b ∈ semanticRanked.ids → semanticRanked.ids.idxOf a < semanticRanked.ids.idxOf b) →
        fused.ids.idxOf a < fused.ids.idxOf b := by
  intro fused
  have hunion : ∀ docId,
      docId ∈ fused.ids ↔ docId ∈ lexicalRanked.ids ∨ docId ∈ semanticRanked.ids := by
    intro docId
    constructor
    · intro hmem
      obtain ⟨⟨docId', score⟩, hentry, rfl⟩ := List.mem_map.1 hmem
      exact ((mem_fuse hlex hsem).1 hentry).1
    · intro hmem
      exact List.mem_map.2 ⟨_, (mem_fuse hlex hsem).2 ⟨hmem, rfl⟩, rfl⟩
  have hnodup : fused.ids.Nodup := by
    apply ((List.perm_insertionSort ByScore _).map Prod.fst).nodup_iff.2
    exact Dict.nodup _
  have hsorted : fused.Pairwise ByScore := List.pairwise_insertionSort ByScore _
  refine ⟨hunion, hnodup, List.pairwise_map.2 hsorted, fun a b hb hearlier hearlier' => ?_⟩
  have ha : a ∈ lexicalRanked.ids ∨ a ∈ semanticRanked.ids := by
    rcases hb with hb | hb
    · exact Or.inl (List.idxOf_lt_length_iff.1
        ((hearlier hb).trans (List.idxOf_lt_length_iff.2 hb)))
    · exact Or.inr (List.idxOf_lt_length_iff.1
        ((hearlier' hb).trans (List.idxOf_lt_length_iff.2 hb)))
  exact idxOf_lt_of_score_lt hsorted hnodup ((mem_fuse hlex hsem).2 ⟨ha, rfl⟩)
    ((mem_fuse hlex hsem).2 ⟨hb, rfl⟩) (fusedScore_lt hk hlexical hsemantic hb hearlier hearlier')

end Fuse

/-- Two lists of two documents. -/
theorem fuse_spec_two : (fuse 60 [("a", 3), ("b", 2)] [("b", 1), ("c", 1)] 1 (4 / 5)).ids.Nodup ∧
    (fuse 60 [("a", 3), ("b", 2)] [("b", 1), ("c", 1)] 1 (4 / 5)).ids.idxOf "b" <
      (fuse 60 [("a", 3), ("b", 2)] [("b", 1), ("c", 1)] 1 (4 / 5)).ids.idxOf "c" := by
  have hspec := @fuse_spec 60 1 (4 / 5) [("a", 3), ("b", 2)] [("b", 1), ("c", 1)]
    (by decide) (by decide) (by decide +kernel) (by decide +kernel) (by decide +kernel)
  exact ⟨hspec.2.1, hspec.2.2.2 "b" "c" (by decide +kernel) (by decide +kernel)
    (by decide +kernel)⟩

end FlowMesh.Search
