import Mathlib.Algebra.Order.Archimedean.Basic
import Mathlib.Data.Rat.Floor
import Mathlib.Order.Interval.Set.UnorderedInterval
import Mathlib.Tactic.Linarith
import FlowMesh.Engine.Errors

/-!
# How the pauses grow

`calculate_backoff` in exact rationals: the interval of a policy before and after the jitter
(`exactInterval`, `exactBackoff`). As long as no product leaves the range of the floats, the code
returns this value, rounded to three decimals (`calculateBackoff_eq`).

The linear and the exponential interval are cut at `max_interval_seconds`, and they grow unless the
first one is negative. The fixed one is not cut: it stays below the maximum only if it is set so
(`paced_iff`).
-/

namespace FlowMesh

open Python

/-! ## The interval in exact rationals -/

/-- What the first interval is multiplied by. -/
def backoffFactor (backoffType : Json) (attempt : ℕ) : ℕ :=
  let attemptIdx := max 1 attempt
  match backoffType with
  | .str "linear" => attemptIdx
  | _ => 2 ^ (attemptIdx - 1)

/-- `base_interval`. -/
def exactInterval (backoffType : Json) (initialSec maxSec : ℚ) (attempt : ℕ) : ℚ :=
  match backoffType with
  | .str "fixed" => initialSec
  | _ => min maxSec (initialSec * backoffFactor backoffType attempt)

/-- The pause before it is rounded, for the draw `rnd`. -/
def exactBackoff (backoffType : Json) (initialSec maxSec : ℚ) (useJitter : Bool) (attempt : ℕ)
    (rnd : ℚ) : ℚ :=
  let baseInterval := exactInterval backoffType initialSec maxSec attempt
  if useJitter ∧ 0 < baseInterval then baseInterval / 2 + baseInterval / 2 * rnd else baseInterval

/-- The pauses of the settings do not get shorter and do not exceed the maximum; with jitter, they
lie between half of this value and this value. -/
structure Paced (backoffType : Json) (initialSec maxSec : ℚ) (useJitter : Bool) : Prop where
  monotone : useJitter = false → ∀ rnd,
    Monotone fun attempt => exactBackoff backoffType initialSec maxSec useJitter attempt rnd
  capped : useJitter = false → ∀ attempt rnd,
    exactBackoff backoffType initialSec maxSec useJitter attempt rnd ≤ maxSec
  jittered : useJitter = true → ∀ attempt rnd, 0 ≤ rnd → rnd < 1 →
    exactBackoff backoffType initialSec maxSec useJitter attempt rnd ∈
      Set.uIcc (exactBackoff backoffType initialSec maxSec false attempt 0 / 2)
        (exactBackoff backoffType initialSec maxSec false attempt 0)

section Interval

variable {backoffType : Json} {initialSec maxSec : ℚ}

theorem exactInterval_fixed (attempt : ℕ) :
    exactInterval (.str "fixed") initialSec maxSec attempt = initialSec := rfl

theorem exactInterval_scaled (h : backoffType ≠ .str "fixed") (attempt : ℕ) :
    exactInterval backoffType initialSec maxSec attempt =
      min maxSec (initialSec * backoffFactor backoffType attempt) := by
  unfold exactInterval
  split
  · exact absurd rfl h
  · rfl

theorem backoffFactor_one (backoffType : Json) : backoffFactor backoffType 1 = 1 := by
  unfold backoffFactor
  split <;> rfl

theorem backoffFactor_mono (backoffType : Json) : Monotone (backoffFactor backoffType) := by
  intro a b hab
  have hidx : max 1 a ≤ max 1 b := max_le_max le_rfl hab
  unfold backoffFactor
  dsimp only
  split
  · exact hidx
  · exact Nat.pow_le_pow_right (by omega) (Nat.sub_le_sub_right hidx 1)

/-- The factors pass every bound. -/
theorem le_backoffFactor (backoffType : Json) (n : ℕ) : n ≤ backoffFactor backoffType (n + 1) := by
  unfold backoffFactor
  dsimp only
  split
  · omega
  · rw [show max 1 (n + 1) - 1 = n by omega]
    exact Nat.lt_two_pow_self.le

/-- The interval grows if it does not start below zero. -/
theorem monotone_exactInterval (hinitial : 0 ≤ initialSec) :
    Monotone (exactInterval backoffType initialSec maxSec) := by
  intro a b hab
  by_cases hfixed : backoffType = .str "fixed"
  · subst hfixed
    exact le_rfl
  · rw [exactInterval_scaled hfixed, exactInterval_scaled hfixed]
    have hfactor : (backoffFactor backoffType a : ℚ) ≤ backoffFactor backoffType b :=
      Nat.cast_le.2 (backoffFactor_mono backoffType hab)
    exact min_le_min_left _ (mul_le_mul_of_nonneg_left hfactor hinitial)

/-- An interval that starts below zero falls under its first value. -/
theorem not_monotone_exactInterval (hfixed : backoffType ≠ .str "fixed") (hinitial : initialSec < 0) :
    ¬ Monotone (exactInterval backoffType initialSec maxSec) := by
  intro hmono
  obtain ⟨n, hn⟩ := exists_nat_gt (min maxSec initialSec / initialSec)
  have hfirst := hmono (show 1 ≤ n + 1 by omega)
  rw [exactInterval_scaled hfixed, exactInterval_scaled hfixed, backoffFactor_one, Nat.cast_one,
    mul_one] at hfirst
  have hproduct : initialSec * n < min maxSec initialSec := by
    rw [div_lt_iff_of_neg hinitial] at hn
    linarith
  have hfactor : (n : ℚ) ≤ backoffFactor backoffType (n + 1) :=
    Nat.cast_le.2 (le_backoffFactor backoffType n)
  have hlast := mul_le_mul_of_nonpos_left hfactor hinitial.le
  have hmin := min_le_right maxSec (initialSec * backoffFactor backoffType (n + 1))
  linarith

end Interval

/-! ## What the code computes -/

section Code

variable {u : Unicode} {policy : Retry} {s : BackoffSettings} {initialSec maxSec : ℚ} {attempt : ℕ}

/-- The factor and the product are floats, where there are such. -/
def InRange (backoffType : Json) (initialSec : ℚ) (attempt : ℕ) : Prop :=
  backoffType ≠ .str "fixed" → backoffFactor backoffType attempt < floatLimit ∧
    |initialSec * backoffFactor backoffType attempt| < floatLimit

theorem ofRat_of_lt {q : ℚ} (h : |q| < floatLimit) : FloatVal.ofRat q = .finite q := by
  obtain ⟨hlow, hhigh⟩ := abs_lt.1 h
  unfold FloatVal.ofRat
  rw [if_neg (not_le.2 hhigh), if_neg (not_le.2 hlow)]

theorem floatVal_min (x y : ℚ) : FloatVal.min (.finite x) (.finite y) = .finite (min x y) := by
  unfold FloatVal.min FloatVal.lt
  by_cases h : y < x
  · simp [h, h.le]
  · simp [h, not_lt.1 h]

/-- Both intervals that are scaled are cut in the same way. -/
theorem baseInterval_scaled (h : s.backoffType ≠ .str "fixed") :
    s.baseInterval u attempt = (do
      let _ ← float u (.int (backoffFactor s.backoffType attempt))
      return FloatVal.min s.maxSec
        (FloatVal.scale s.initialSec (backoffFactor s.backoffType attempt))) := by
  obtain ⟨backoffType, initialSec, maxSec, useJitter⟩ := s
  unfold BackoffSettings.baseInterval backoffFactor
  split
  · next hfixed => exact absurd hfixed h
  · next hlinear =>
    obtain rfl : backoffType = .str "linear" := hlinear
    rfl
  · next hlinear =>
    dsimp only
    split
    · exact absurd rfl hlinear
    · push_cast
      rfl

theorem float_of_lt {n : ℕ} (h : n < floatLimit) : float u (.int n) = .ok (.finite n) := by
  have hnot : ¬ floatLimit ≤ (n : ℤ).natAbs := by simpa using h
  simp only [float, if_neg hnot, Int.cast_natCast]

theorem baseInterval_eq (hinitial : s.initialSec = .finite initialSec)
    (hmax : s.maxSec = .finite maxSec) (hrange : InRange s.backoffType initialSec attempt) :
    s.baseInterval u attempt =
      .ok (.finite (exactInterval s.backoffType initialSec maxSec attempt)) := by
  by_cases hfixed : s.backoffType = .str "fixed"
  · unfold BackoffSettings.baseInterval
    rw [hfixed, exactInterval_fixed, ← hinitial]
    rfl
  · obtain ⟨hfactor, hproduct⟩ := hrange hfixed
    rw [baseInterval_scaled hfixed, float_of_lt hfactor, exactInterval_scaled hfixed, hinitial,
      hmax]
    have hscale : FloatVal.scale (.finite initialSec) (backoffFactor s.backoffType attempt) =
        .finite (initialSec * backoffFactor s.backoffType attempt) := by
      unfold FloatVal.scale
      push_cast
      exact ofRat_of_lt hproduct
    rw [hscale]
    exact congrArg Except.ok (floatVal_min _ _)

/-- **`calculate_backoff` is the exact value**, rounded to three decimals. -/
theorem calculateBackoff_eq (hs : policy.backoffSettings u = .ok s)
    (hinitial : s.initialSec = .finite initialSec) (hmax : s.maxSec = .finite maxSec)
    (hrange : InRange s.backoffType initialSec attempt) (rnd : ℚ) :
    calculateBackoff u attempt policy rnd = .ok (FloatVal.round3 (.finite
      (exactBackoff s.backoffType initialSec maxSec s.useJitter attempt rnd))) := by
  have hbase := baseInterval_eq (u := u) hinitial hmax hrange
  unfold calculateBackoff exactBackoff
  rw [hs]
  simp only [bind, Except.bind, hbase]
  by_cases hjitter : s.useJitter = true ∧
    0 < exactInterval s.backoffType initialSec maxSec attempt
  · simp [hjitter, FloatVal.lt, FloatVal.uniformHalf, pure, Except.pure]
  · simp only [FloatVal.lt, Bool.and_eq_true, decide_eq_true_eq, hjitter, if_false]
    rfl

end Code

/-! ## When the pauses are paced -/

section Paced

variable {backoffType : Json} {initialSec maxSec : ℚ} {useJitter : Bool}

theorem exactBackoff_steady (attempt : ℕ) (rnd : ℚ) :
    exactBackoff backoffType initialSec maxSec false attempt rnd =
      exactInterval backoffType initialSec maxSec attempt := by
  simp [exactBackoff]

/-- The jitter takes at most half of the interval away. -/
theorem exactBackoff_mem (attempt : ℕ) {rnd : ℚ} (hzero : 0 ≤ rnd) (hone : rnd < 1) :
    exactBackoff backoffType initialSec maxSec true attempt rnd ∈
      Set.uIcc (exactInterval backoffType initialSec maxSec attempt / 2)
        (exactInterval backoffType initialSec maxSec attempt) := by
  unfold exactBackoff
  dsimp only
  split
  · next h =>
    have hpos := h.2
    rw [Set.uIcc_of_le (by linarith)]
    constructor
    · have := mul_nonneg hpos.le hzero
      linarith
    · have := mul_le_mul_of_nonneg_left hone.le hpos.le
      linarith
  · exact Set.right_mem_uIcc

theorem paced_settings_iff : Paced backoffType initialSec maxSec useJitter ↔
    (useJitter = false → (backoffType = .str "fixed" → initialSec ≤ maxSec) ∧
      (backoffType ≠ .str "fixed" → 0 ≤ initialSec)) := by
  constructor
  · rintro h rfl
    refine ⟨?_, fun hfixed => ?_⟩
    · rintro rfl
      have hcapped := h.capped rfl 1 0
      rwa [exactBackoff_steady, exactInterval_fixed] at hcapped
    · by_contra hinitial
      have hmono := h.monotone rfl 0
      simp only [exactBackoff_steady] at hmono
      exact not_monotone_exactInterval hfixed (not_le.1 hinitial) hmono
  · intro h
    refine ⟨?_, ?_, ?_⟩
    · rintro rfl rnd
      simp only [exactBackoff_steady]
      by_cases hfixed : backoffType = .str "fixed"
      · subst hfixed
        exact monotone_const
      · exact monotone_exactInterval ((h rfl).2 hfixed)
    · rintro rfl attempt rnd
      rw [exactBackoff_steady]
      by_cases hfixed : backoffType = .str "fixed"
      · subst hfixed
        exact (h rfl).1 rfl
      · rw [exactInterval_scaled hfixed]
        exact min_le_left _ _
    · rintro rfl attempt rnd hzero hone
      rw [exactBackoff_steady]
      exact exactBackoff_mem attempt hzero hone

end Paced

/-- **When the pauses of a policy are paced**, in exact rationals, which `calculate_backoff` rounds:
with jitter always; without it, exactly if a fixed interval is set below the maximum, and any other
one does not start below zero. -/
theorem paced_iff (u : Unicode) (policy : Retry) (s : BackoffSettings) (initialSec maxSec : ℚ)
    (hs : policy.backoffSettings u = .ok s) (hinitial : s.initialSec = .finite initialSec)
    (hmax : s.maxSec = .finite maxSec) :
    (∀ attempt rnd, InRange s.backoffType initialSec attempt →
      calculateBackoff u attempt policy rnd = .ok (FloatVal.round3 (.finite
        (exactBackoff s.backoffType initialSec maxSec s.useJitter attempt rnd)))) ∧
    (Paced s.backoffType initialSec maxSec s.useJitter ↔
      (s.useJitter = false → (s.backoffType = .str "fixed" → initialSec ≤ maxSec) ∧
        (s.backoffType ≠ .str "fixed" → 0 ≤ initialSec))) :=
  ⟨fun _ rnd hrange => calculateBackoff_eq hs hinitial hmax hrange rnd, paced_settings_iff⟩

/-- A policy that waits a minute each time, at most half a minute. -/
def minutePolicy : RetryPolicy where
  backoff := "fixed"
  initialIntervalSeconds := .finite 60
  jitter := false

theorem paced_iff_minute :
    (∀ attempt rnd, InRange (.str "fixed") 60 attempt →
      calculateBackoff ⟨fun _ => true, fun _ => none⟩ attempt (.policy minutePolicy) rnd =
        .ok (FloatVal.round3 (.finite (exactBackoff (.str "fixed") 60 30 false attempt rnd)))) ∧
    (Paced (.str "fixed") 60 30 false ↔
      (false = false → (Json.str "fixed" = .str "fixed" → (60 : ℚ) ≤ 30) ∧
        (Json.str "fixed" ≠ .str "fixed" → (0 : ℚ) ≤ 60))) :=
  paced_iff ⟨fun _ => true, fun _ => none⟩ (.policy minutePolicy)
    ⟨.str "fixed", .finite 60, .finite 30, false⟩ 60 30 rfl rfl rfl

/-- It waits a minute. -/
theorem not_paced_minute : minutePolicy.fieldsOk = true ∧
    calculateBackoff ⟨fun _ => true, fun _ => none⟩ 2 (.policy minutePolicy) 0 =
      .ok (.finite 60) ∧ ¬ Paced (.str minutePolicy.backoff) 60 30 minutePolicy.jitter := by
  refine ⟨by decide +kernel, by decide +kernel, fun h => ?_⟩
  have hcapped := h.capped rfl 2 0
  rw [show minutePolicy.jitter = false from rfl, exactBackoff_steady] at hcapped
  exact absurd hcapped (by decide +kernel)

end FlowMesh
