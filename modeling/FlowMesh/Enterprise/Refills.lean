import FlowMesh.Enterprise.TokenBucket
import Mathlib.Algebra.Order.Field.Basic
import Mathlib.Algebra.Order.Field.Rat
import Mathlib.Tactic.Linarith

/-!
# What a bucket is refilled with

One thread calls a bucket, one call after the other (`BucketCall.perform`, which the steps of the
thread amount to: `exec_solo`). A refill credits whole tokens and then starts to count anew, so
the fraction of a token that it has found is lost. `credited_add_lost` balances what the refills
credit against what they lose. A bucket delivers its rate if no call finds a fraction of a token
beside a whole one (`deliversRate_of_findsWhole`); a fraction that is lost in rounds of calls adds
up to a token in the end (`not_deliversRate_of_rounds`).
-/

namespace FlowMesh.Enterprise

/-! ## Calls of one thread -/

/-- The two longs. -/
structure Bucket where
  availableTokens : ℤ
  lastRefillTimestampNanos : ℤ
  deriving DecidableEq

/-- `refillTokens`, undisturbed. -/
def Bucket.refillTokens (b : BucketLimits) (now : ℤ) (s : Bucket) : Bucket :=
  let tokensToAdd := b.tokensToAdd now s.lastRefillTimestampNanos
  if 0 < tokensToAdd then ⟨min b.capacity (toLong (s.availableTokens + tokensToAdd)), now⟩ else s

/-- What a call does after the refill, undisturbed. -/
def BucketCall.take (s : Bucket) : BucketCall → BucketAnswer × Bucket
  | .tryConsume tokensRequested =>
    if s.availableTokens < tokensRequested then (.consumed false, s)
    else
      (.consumed true, { s with availableTokens := toLong (s.availableTokens - tokensRequested) })
  | .getAvailableTokens => (.tokens s.availableTokens, s)

/-- A call, undisturbed. -/
def BucketCall.perform (b : BucketLimits) (now : ℤ) (s : Bucket) (call : BucketCall) :
    BucketAnswer × Bucket :=
  match call with
  | .tryConsume tokensRequested =>
    if tokensRequested ≤ 0 then (.consumed true, s) else call.take (s.refillTokens b now)
  | .getAvailableTokens => call.take (s.refillTokens b now)

theorem BucketCall.perform_of_asks (b : BucketLimits) (now : ℤ) (s : Bucket) {call : BucketCall}
    (hasks : call.Asks) : call.perform b now s = call.take (s.refillTokens b now) := by
  cases call with
  | tryConsume tokensRequested => exact if_neg (not_le.2 hasks)
  | getAvailableTokens => rfl

namespace BucketState

variable {ι : Type} [DecidableEq ι] {b : BucketLimits} {s t : BucketState ι} {i : ι}

/-- The two longs of a state. -/
def bucket (s : BucketState ι) : Bucket := ⟨s.availableTokens, s.lastRefillTimestampNanos⟩

/-- The next steps of a thread, made at once, end its call with an answer. -/
inductive Ends (b : BucketLimits) (i : ι) : BucketState ι → BucketAnswer → BucketState ι → Prop
  | answer {s s' : BucketState ι} {r : BucketAnswer} (h : s.advance b i = (some r, s')) :
    Ends b i s r s'
  | next {s t s' : BucketState ι} {r : BucketAnswer} (h : s.advance b i = (none, t))
    (ht : Ends b i t r s') : Ends b i s r s'

/-- The thread's call answers, and leaves the bucket, as it is said. -/
def Yields (b : BucketLimits) (i : ι) (s : BucketState ι) (r : BucketAnswer × Bucket) : Prop :=
  ∃ s', Ends b i s r.1 s' ∧ s'.bucket = r.2 ∧ s'.phase = Function.update s.phase i .idle ∧
    s'.clock = s.clock

theorem Yields.next {p : Phase} {r : BucketAnswer × Bucket} (h : Yields b i t r)
    (hstep : s.advance b i = (none, t)) (hphase : t.phase = Function.update s.phase i p)
    (hclock : t.clock = s.clock) : Yields b i s r := by
  obtain ⟨s', hends, hbucket, hs'⟩ := h
  refine ⟨s', .next hstep hends, hbucket, ?_, hs'.2.trans hclock⟩
  rw [hs'.1, hphase, Function.update_idem]

/-! A thread that has just gone on to a phase: its compare-and-set finds what it has read. -/

@[simp] theorem goto_phase_self (p : Phase) : (s.goto i p).phase i = p := Function.update_self ..

@[simp] theorem goto_goto (p q : Phase) : (s.goto i p).goto i q = s.goto i q := by
  simp [goto]

theorem advance_casLast {call : BucketCall} {now tokensToAdd : ℤ} :
    (s.goto i (.casLast call s.lastRefillTimestampNanos now tokensToAdd)).advance b i =
      (none,
        { s with lastRefillTimestampNanos := now }.goto i (.getToCredit call tokensToAdd)) := by
  simp [advance, goto]

theorem advance_getToCredit {call : BucketCall} {tokensToAdd : ℤ} :
    (s.goto i (.getToCredit call tokensToAdd)).advance b i =
      (none, s.goto i (.casCredit call s.availableTokens tokensToAdd)) := by
  simp [advance]

theorem advance_casCredit {call : BucketCall} {tokensToAdd : ℤ} :
    (s.goto i (.casCredit call s.availableTokens tokensToAdd)).advance b i =
      (none, { s with
        availableTokens := min b.capacity (toLong (s.availableTokens + tokensToAdd)) }.goto i
          (.getAvailable call)) := by
  simp [advance, goto]

theorem advance_casConsume {tokensRequested : ℤ} :
    (s.goto i (.casConsume tokensRequested s.availableTokens)).advance b i =
      (some (.consumed true), { s with
        availableTokens := toLong (s.availableTokens - tokensRequested)
        granted := s.granted + tokensRequested }.goto i .idle) := by
  simp [advance, goto]

theorem yields_getAvailable {call : BucketCall} (hp : s.phase i = .getAvailable call) :
    Yields b i s (call.take s.bucket) := by
  cases call with
  | getAvailableTokens =>
    have hadvance : s.advance b i = (some (.tokens s.availableTokens), s.goto i .idle) := by
      simp only [advance, hp]
    exact ⟨_, .answer hadvance, rfl, rfl, rfl⟩
  | tryConsume tokensRequested =>
    by_cases hlt : s.availableTokens < tokensRequested
    · have htake : (BucketCall.tryConsume tokensRequested).take s.bucket =
          (.consumed false, s.bucket) := if_pos hlt
      have hadvance : s.advance b i = (some (.consumed false), s.goto i .idle) := by
        simp only [advance, hp, if_pos hlt]
      rw [htake]
      exact ⟨_, .answer hadvance, rfl, rfl, rfl⟩
    · have htake : (BucketCall.tryConsume tokensRequested).take s.bucket =
          (.consumed true, ⟨toLong (s.availableTokens - tokensRequested),
            s.lastRefillTimestampNanos⟩) := if_neg hlt
      have hadvance : s.advance b i =
          (none, s.goto i (.casConsume tokensRequested s.availableTokens)) := by
        simp only [advance, hp, if_neg hlt]
      rw [htake]
      refine Yields.next ⟨_, .answer advance_casConsume, rfl, ?_, rfl⟩ hadvance rfl rfl
      exact (Function.update_idem ..).symm

/-- A call that looks at the bucket, made by one thread alone. -/
theorem yields_nanoTime {call : BucketCall} (hp : s.phase i = .nanoTime call)
    (hasks : call.Asks) : Yields b i s (call.perform b s.clock s.bucket) := by
  have hnano : s.advance b i = (none, s.goto i (.getLast call s.clock)) := by
    simp only [advance, hp]
  have htoken : s.bucket.lastRefillTimestampNanos = s.lastRefillTimestampNanos := rfl
  rw [call.perform_of_asks b s.clock s.bucket hasks, Bucket.refillTokens, htoken]
  refine Yields.next ?_ hnano rfl rfl
  by_cases hpos : 0 < b.tokensToAdd s.clock s.lastRefillTimestampNanos
  · rw [if_pos hpos]
    have hlast : (s.goto i (.getLast call s.clock)).advance b i =
        (none, s.goto i (.casLast call s.lastRefillTimestampNanos s.clock
          (b.tokensToAdd s.clock s.lastRefillTimestampNanos))) := by
      simp [advance, goto, hpos]
    let credited : BucketState ι := { s with
      lastRefillTimestampNanos := s.clock
      availableTokens := min b.capacity
        (toLong (s.availableTokens + b.tokensToAdd s.clock s.lastRefillTimestampNanos)) }
    have htake : Yields b i (credited.goto i (.getAvailable call)) (call.take credited.bucket) :=
      yields_getAvailable (goto_phase_self _)
    have hidem : ∀ p q : Phase, Function.update s.phase i p =
        Function.update (Function.update s.phase i q) i p :=
      fun p q => (Function.update_idem ..).symm
    have hcredit := htake.next
      (advance_casCredit (s := { s with lastRefillTimestampNanos := s.clock })) (hidem _ _) rfl
    have hget := hcredit.next advance_getToCredit (hidem _ _) rfl
    have hcas := hget.next advance_casLast (hidem _ _) rfl
    exact hcas.next hlast (hidem _ _) rfl
  · rw [if_neg hpos]
    have hlast : (s.goto i (.getLast call s.clock)).advance b i =
        (none, s.goto i (.getAvailable call)) := by
      simp [advance, goto, hpos]
    have htake :=
      yields_getAvailable (b := b) (goto_phase_self (s := s) (i := i) (.getAvailable call))
    exact htake.next hlast (Function.update_idem ..).symm rfl

theorem step_run (s : BucketState ι) (elapsed : ℕ) :
    step b s (.run i elapsed) = step b { s with clock := s.clock + elapsed } (.run i 0) := by
  simp [step]

/-- Steps that are made at once are steps of the machine. -/
theorem Ends.exec {r : BucketAnswer} {s' : BucketState ι} (h : Ends b i s r s') :
    ∃ n, Machine.exec (step b) s (List.replicate (n + 1) (.run i 0)) = s' := by
  have hrun : ∀ s : BucketState ι, step b s (.run i 0) = s.advance b i := by
    intro s
    simp [step]
  induction h with
  | @answer s s' r hstep => exact ⟨0, by simp [hrun, hstep]⟩
  | @next s t s' r hstep _ ih =>
    obtain ⟨n, hn⟩ := ih
    exact ⟨n + 1, by rw [List.replicate_succ, Machine.exec_cons, hrun, hstep, hn]⟩

/-- **A call of a thread alone**: with no other thread in between, the steps of a call amount to
`perform`. -/
theorem exec_solo (hidle : s.phase i = .idle) {call : BucketCall} (hasks : call.Asks)
    (elapsed : ℕ) : ∃ n, ∃ s' : BucketState ι,
      Machine.exec (step b) s (.call i call :: .run i elapsed :: List.replicate n (.run i 0)) = s' ∧
        s'.bucket = (call.perform b (s.clock + elapsed) s.bucket).2 ∧ s'.phase = s.phase ∧
        s'.clock = s.clock + elapsed := by
  let later : BucketState ι := { s with clock := s.clock + elapsed }
  have hcall : (step b s (.call i call)).2 = s.goto i (.nanoTime call) := by
    simp only [step, hidle]
    cases call with
    | tryConsume tokensRequested => exact congrArg Prod.snd (if_neg (not_le.2 hasks))
    | getAvailableTokens => rfl
  have hyields : Yields b i (later.goto i (.nanoTime call)) (call.perform b later.clock s.bucket) :=
    yields_nanoTime (goto_phase_self _) hasks
  obtain ⟨s', hends, hbucket, hphase, hclock⟩ := hyields
  obtain ⟨n, hn⟩ := hends.exec
  refine ⟨n, s', ?_, hbucket, ?_, hclock⟩
  · rw [Machine.exec_cons, hcall, Machine.exec_cons, step_run]
    exact hn
  · rw [hphase]
    show Function.update (Function.update s.phase i _) i _ = _
    rw [Function.update_idem, ← hidle, Function.update_eq_self]

end BucketState

/-! ## Runs of calls -/

/-- The tokens that the refills of calls credit. -/
def Bucket.credited (b : BucketLimits) : Bucket → List (ℤ × BucketCall) → ℤ
  | _, [] => 0
  | s, c :: calls =>
    ((s.refillTokens b c.1).availableTokens - s.availableTokens) +
      credited b (c.2.perform b c.1 s).2 calls

/-- No refill of the calls fills the bucket. -/
def Bucket.Unfilled (b : BucketLimits) : Bucket → List (ℤ × BucketCall) → Prop
  | _, [] => True
  | s, c :: calls =>
    s.availableTokens + b.tokensToAdd c.1 s.lastRefillTimestampNanos < b.capacity ∧
      Unfilled b (c.2.perform b c.1 s).2 calls

/-- The tokens come to the rate times the time between two calls, but for less than one. -/
def DeliversRate (rate credited first last : ℤ) : Prop :=
  |(credited : ℚ) - rate * (last - first) / 1000000000| < 1

/-! ### What a refill loses -/

/-- The time from one call to a later one in billionths of a token, as a `long` holds them. -/
def billionths (rate now last : ℤ) : ℤ :=
  if 0 < toLong (now - last) then toLong (rate * (now - last)) else 0

/-- The call at which a refill was made last, among calls at these times. -/
def lastRefill (rate : ℤ) : ℤ → List ℤ → ℤ
  | last, [] => last
  | last, now :: times =>
    lastRefill rate (if 1000000000 ≤ billionths rate now last then now else last) times

/-- What calls at these times lose, in billionths of a token: at each that finds a whole token, the
fraction of a token, and what a `long` does not hold. -/
def lost (rate : ℤ) : ℤ → List ℤ → ℤ
  | _, [] => 0
  | last, now :: times =>
    let held := billionths rate now last
    if 1000000000 ≤ held then
      held % 1000000000 + (rate * (now - last) - held) + lost rate now times
    else lost rate last times

theorem tokensToAdd_eq (b : BucketLimits) (now last : ℤ) :
    b.tokensToAdd now last = (billionths b.refillRatePerSec now last).tdiv 1000000000 := by
  have hmul : toLong (toLong (now - last) * b.refillRatePerSec) =
      toLong (b.refillRatePerSec * (now - last)) := by
    rw [toLong, toLong, toLong, Int.bmod_mul_bmod, mul_comm]
  unfold BucketLimits.tokensToAdd billionths
  simp only [hmul]
  split_ifs with hle hlt
  · exact absurd hlt (not_lt.2 hle)
  · rfl
  · rfl
  · next hlt => exact absurd (not_le.1 hle) hlt

theorem tokensToAdd_pos_iff (b : BucketLimits) (now last : ℤ) :
    0 < b.tokensToAdd now last ↔ 1000000000 ≤ billionths b.refillRatePerSec now last := by
  rw [tokensToAdd_eq]
  rcases le_total 0 (billionths b.refillRatePerSec now last) with hnonneg | hneg
  · rw [Int.tdiv_eq_ediv_of_nonneg hnonneg]
    omega
  · have hdiv := Int.tdiv_nonneg (neg_nonneg.2 hneg) (show (0 : ℤ) ≤ 1000000000 by decide)
    rw [Int.neg_tdiv] at hdiv
    omega

theorem tokensToAdd_of_le (b : BucketLimits) {now last : ℤ}
    (hle : 1000000000 ≤ billionths b.refillRatePerSec now last) :
    b.tokensToAdd now last = billionths b.refillRatePerSec now last / 1000000000 := by
  rw [tokensToAdd_eq]
  exact Int.tdiv_eq_ediv_of_nonneg (by omega)

namespace Bucket

variable {b : BucketLimits} {s : Bucket} {now : ℤ} {call : BucketCall}

theorem refillTokens_last : (s.refillTokens b now).lastRefillTimestampNanos =
    if 1000000000 ≤ billionths b.refillRatePerSec now s.lastRefillTimestampNanos then now
    else s.lastRefillTimestampNanos := by
  unfold refillTokens
  simp only [tokensToAdd_pos_iff]
  split_ifs <;> rfl

/-- A refill that does not fill the bucket credits what it finds. -/
theorem refillTokens_available (hlow : longMin ≤ s.availableTokens)
    (hbelow : s.availableTokens + b.tokensToAdd now s.lastRefillTimestampNanos < b.capacity) :
    (s.refillTokens b now).availableTokens =
      if 1000000000 ≤ billionths b.refillRatePerSec now s.lastRefillTimestampNanos then
        s.availableTokens +
          billionths b.refillRatePerSec now s.lastRefillTimestampNanos / 1000000000
      else s.availableTokens := by
  have hcap := b.capacity_le
  unfold refillTokens
  simp only [tokensToAdd_pos_iff]
  split_ifs with hle
  · rw [tokensToAdd_of_le b hle] at hbelow ⊢
    show min b.capacity (toLong _) = _
    rw [toLong_of_fits (by omega) (by omega), min_eq_right hbelow.le]
  · rfl

theorem perform_last (hasks : call.Asks) : (call.perform b now s).2.lastRefillTimestampNanos =
    if 1000000000 ≤ billionths b.refillRatePerSec now s.lastRefillTimestampNanos then now
    else s.lastRefillTimestampNanos := by
  rw [call.perform_of_asks b now s hasks, ← refillTokens_last]
  cases call with
  | getAvailableTokens => rfl
  | tryConsume tokensRequested =>
    unfold BucketCall.take
    simp only
    split_ifs <;> rfl

theorem longMin_le_toLong (n : ℤ) : longMin ≤ toLong n :=
  Int.le_bmod (by decide)

theorem perform_low (hlow : longMin ≤ s.availableTokens) :
    longMin ≤ (call.perform b now s).2.availableTokens := by
  have hcap : longMin ≤ b.capacity := le_trans (by decide) b.capacity_nonneg
  have hrefill : longMin ≤ (s.refillTokens b now).availableTokens := by
    unfold refillTokens
    simp only
    split_ifs
    · exact le_min hcap (longMin_le_toLong _)
    · exact hlow
  cases call with
  | getAvailableTokens => exact hrefill
  | tryConsume tokensRequested =>
    unfold BucketCall.perform BucketCall.take
    simp only
    split_ifs
    · exact hlow
    · exact hrefill
    · exact longMin_le_toLong _

/-- **What is credited and what is lost** come to the rate times the time from the last refill
before the calls to the one after them. -/
theorem credited_add_lost {calls : List (ℤ × BucketCall)} (hlow : longMin ≤ s.availableTokens)
    (hasks : ∀ c ∈ calls, c.2.Asks) (hbelow : s.Unfilled b calls) :
    1000000000 * s.credited b calls +
        lost b.refillRatePerSec s.lastRefillTimestampNanos (calls.map Prod.fst) =
      b.refillRatePerSec *
        (lastRefill b.refillRatePerSec s.lastRefillTimestampNanos (calls.map Prod.fst) -
          s.lastRefillTimestampNanos) := by
  induction calls generalizing s with
  | nil => simp [credited, lost, lastRefill]
  | cons c calls ih =>
    obtain ⟨hc, hcalls⟩ := List.forall_mem_cons.1 hasks
    have hlow' : longMin ≤ (c.2.perform b c.1 s).2.availableTokens := perform_low hlow
    have hrest := ih hlow' hcalls hbelow.2
    rw [perform_last hc] at hrest
    simp only [credited, List.map_cons, lost, lastRefill]
    rw [refillTokens_available hlow hbelow.1]
    split_ifs at hrest ⊢ with hle
    · have hdiv := Int.mul_ediv_add_emod
        (billionths b.refillRatePerSec c.1 s.lastRefillTimestampNanos) 1000000000
      linarith
    · linarith

end Bucket

/-! ### Calls that lose nothing -/

/-- The time in billionths of a token is a `long` at each of the calls at these times, and a call
that finds a whole token, since the last one that did, finds no fraction of a token beside it. -/
def FindsWhole (rate : ℤ) : ℤ → List ℤ → Prop
  | _, [] => True
  | last, now :: times =>
    rate * (now - last) ≤ longMax ∧
      if rate * (now - last) < 1000000000 then FindsWhole rate last times
      else 1000000000 ∣ rate * (now - last) ∧ FindsWhole rate now times

instance decidableFindsWhole (rate : ℤ) : ∀ last times, Decidable (FindsWhole rate last times)
  | _, [] => .isTrue trivial
  | last, now :: times =>
    haveI := decidableFindsWhole rate last times
    haveI := decidableFindsWhole rate now times
    inferInstanceAs (Decidable (rate * (now - last) ≤ longMax ∧
      if rate * (now - last) < 1000000000 then FindsWhole rate last times
      else 1000000000 ∣ rate * (now - last) ∧ FindsWhole rate now times))

section FindsWhole

variable {rate last now seen : ℤ} {times : List ℤ}

theorem billionths_of_le (hrate : 1 ≤ rate) (hle : last ≤ now)
    (hfits : rate * (now - last) ≤ longMax) : billionths rate now last = rate * (now - last) := by
  have hnonneg : 0 ≤ now - last := by omega
  have helapsed : now - last ≤ rate * (now - last) := le_mul_of_one_le_left hnonneg hrate
  have hmin : longMin ≤ 0 := by decide
  unfold billionths
  rw [toLong_of_fits (by omega) (by omega), toLong_of_fits (by omega) hfits]
  split_ifs with hpos
  · rfl
  · rw [show now - last = 0 by omega, mul_zero]

/-- Such calls lose nothing, and less than a token is to come after the last of them. -/
theorem FindsWhole.lost_eq_zero (hrate : 1 ≤ rate) (hlast : last ≤ seen)
    (hseen : rate * (seen - last) < 1000000000) (hsorted : (seen :: times).Pairwise (· < ·))
    (h : FindsWhole rate last times) : lost rate last times = 0 ∧
      0 ≤ rate * (times.getLastD seen - lastRefill rate last times) ∧
        rate * (times.getLastD seen - lastRefill rate last times) < 1000000000 := by
  induction times generalizing last seen with
  | nil => exact ⟨rfl, mul_nonneg (by omega) (by simpa [lastRefill] using hlast), hseen⟩
  | cons now times ih =>
    obtain ⟨hfits, hrest⟩ := h
    obtain ⟨hlater, hsorted⟩ := List.pairwise_cons.1 hsorted
    have hnow : seen < now := hlater now List.mem_cons_self
    have hheld := billionths_of_le hrate (show last ≤ now by omega) hfits
    simp only [lost, lastRefill, hheld, List.getLastD_cons]
    split_ifs at hrest with hlt
    · rw [if_neg (not_le.2 hlt), if_neg (not_le.2 hlt)]
      exact ih (by omega) hlt hsorted hrest
    · rw [if_pos (not_lt.1 hlt), if_pos (not_lt.1 hlt), Int.emod_eq_zero_of_dvd hrest.1]
      obtain ⟨hzero, hcome⟩ := ih le_rfl (by simp) hsorted hrest.2
      exact ⟨by omega, hcome⟩

end FindsWhole

theorem deliversRate_iff_lt {rate credited first last : ℤ} :
    DeliversRate rate credited first last ↔
      |rate * (last - first) - 1000000000 * credited| < 1000000000 := by
  have hscale : (credited : ℚ) - rate * (last - first) / 1000000000 =
      -((rate * (last - first) - 1000000000 * credited : ℤ) : ℚ) / 1000000000 := by
    push_cast
    ring
  have hpos : (0 : ℚ) < 1000000000 := by norm_num
  unfold DeliversRate
  rw [hscale, abs_div, abs_neg, abs_of_pos hpos, div_lt_one hpos, ← Int.cast_abs]
  exact_mod_cast Iff.rfl

/-- **A bucket delivers its rate** between a first call and the last one if no call after the first
one finds a fraction of a token beside a whole one. -/
theorem deliversRate_of_findsWhole (b : BucketLimits) (s : Bucket) (first : ℤ × BucketCall)
    (calls : List (ℤ × BucketCall)) (hrate : 1 ≤ b.refillRatePerSec)
    (hlow : longMin ≤ s.availableTokens) (hlast : s.lastRefillTimestampNanos ≤ first.1)
    (hsorted : ((first :: calls).map Prod.fst).Pairwise (· < ·))
    (hasks : ∀ c ∈ first :: calls, c.2.Asks)
    (hbelow : (first.2.perform b first.1 s).2.Unfilled b calls)
    (hwhole : FindsWhole b.refillRatePerSec
      (first.2.perform b first.1 s).2.lastRefillTimestampNanos (calls.map Prod.fst)) :
    DeliversRate b.refillRatePerSec ((first.2.perform b first.1 s).2.credited b calls) first.1
      ((calls.map Prod.fst).getLastD first.1) := by
  obtain ⟨hfirst, hcalls⟩ := List.forall_mem_cons.1 hasks
  have hsum := Bucket.credited_add_lost (Bucket.perform_low hlow) hcalls hbelow
  have hstart := @Bucket.perform_last b s first.1 first.2 hfirst
  set after := (first.2.perform b first.1 s).2
  set rate := b.refillRatePerSec
  -- the first call leaves less than a token to come, too
  have hcome : calls ≠ [] → after.lastRefillTimestampNanos ≤ first.1 ∧
      rate * (first.1 - after.lastRefillTimestampNanos) < 1000000000 := by
    intro hne
    rw [hstart]
    split_ifs with hle
    · simp
    · refine ⟨hlast, ?_⟩
      obtain ⟨c, rest, rfl⟩ := List.exists_cons_of_ne_nil hne
      have hc : first.1 < c.1 := (List.pairwise_cons.1 hsorted).1 c.1 (by simp)
      rw [hstart, if_neg hle] at hwhole
      have hmono : rate * (first.1 - s.lastRefillTimestampNanos) ≤
          rate * (c.1 - s.lastRefillTimestampNanos) :=
        mul_le_mul_of_nonneg_left (by omega) (by omega)
      rw [billionths_of_le hrate hlast (hmono.trans hwhole.1)] at hle
      omega
  rw [deliversRate_iff_lt, abs_lt]
  by_cases hnil : calls = []
  · subst hnil
    simp [Bucket.credited]
  · obtain ⟨hle, hlt⟩ := hcome hnil
    obtain ⟨hzero, hnonneg, hless⟩ := hwhole.lost_eq_zero hrate hle hlt hsorted
    have hbefore : 0 ≤ rate * (first.1 - after.lastRefillTimestampNanos) :=
      mul_nonneg (by omega) (by omega)
    rw [hzero] at hsum
    constructor <;> linarith

/-! ### Calls over and over -/

/-- Calls at these times, and again after each period. -/
def rounds (times : List ℤ) (period : ℤ) : ℕ → List ℤ
  | 0 => []
  | n + 1 => times ++ (rounds times period n).map (· + period)

section Rounds

variable {rate last seen period : ℤ} {times : List ℤ}

theorem lost_append (later : List ℤ) : lost rate last (times ++ later) =
    lost rate last times + lost rate (lastRefill rate last times) later := by
  induction times generalizing last with
  | nil => simp [lost, lastRefill]
  | cons now times ih =>
    simp only [List.cons_append, lost, lastRefill]
    split_ifs
    · rw [ih]
      ring
    · exact ih

theorem lastRefill_append (later : List ℤ) : lastRefill rate last (times ++ later) =
    lastRefill rate (lastRefill rate last times) later := by
  induction times generalizing last with
  | nil => rfl
  | cons now times ih => exact ih

theorem billionths_shift (now d : ℤ) :
    billionths rate (now + d) (last + d) = billionths rate now last := by
  unfold billionths
  rw [add_sub_add_right_eq_sub]

theorem lost_shift (d : ℤ) : lost rate (last + d) (times.map (· + d)) = lost rate last times := by
  induction times generalizing last with
  | nil => rfl
  | cons now times ih =>
    simp only [List.map_cons, lost, billionths_shift, add_sub_add_right_eq_sub, ih]

theorem lastRefill_shift (d : ℤ) :
    lastRefill rate (last + d) (times.map (· + d)) = lastRefill rate last times + d := by
  induction times generalizing last with
  | nil => rfl
  | cons now times ih =>
    simp only [List.map_cons, lastRefill, billionths_shift, ← ih]
    split_ifs <;> rfl

/-- Rounds that end with a refill lose the same each time. -/
theorem lost_rounds (hround : lastRefill rate last times = last + period) (n : ℕ) :
    lost rate last (rounds times period n) = n * lost rate last times ∧
      lastRefill rate last (rounds times period n) = last + n * period := by
  induction n with
  | zero => simp [rounds, lost, lastRefill]
  | succ n ih =>
    rw [rounds, lost_append, lastRefill_append, hround, lost_shift, lastRefill_shift, ih.1, ih.2]
    push_cast
    constructor <;> ring

theorem getLastD_rounds (hend : times.getLastD last = last + period) (n : ℕ) :
    (rounds times period n).getLastD last = last + n * period := by
  induction n with
  | zero => simp [rounds]
  | succ n ih =>
    have hshift : ((rounds times period n).map (· + period)).getLastD (last + period) =
        last + n * period + period := by
      rw [← ih]
      simp only [List.getLastD_eq_getLast?, List.getLast?_map]
      cases (rounds times period n).getLast? <;> rfl
    rw [rounds]
    simp only [List.getLastD_eq_getLast?, List.getLast?_append] at hend hshift ⊢
    rw [Option.getD_or, hend, hshift]
    push_cast
    ring

/-- Calls that lose nothing find no fraction of a token. -/
theorem findsWhole_of_lost (hrate : 1 ≤ rate) (hlast : last ≤ seen)
    (hsorted : (seen :: times).Pairwise (· < ·))
    (hfits : ∀ now ∈ times, rate * (now - last) ≤ longMax) :
    0 ≤ lost rate last times ∧ (lost rate last times = 0 → FindsWhole rate last times) := by
  induction times generalizing last seen with
  | nil => exact ⟨le_rfl, fun _ => trivial⟩
  | cons now times ih =>
    obtain ⟨hlater, hsorted⟩ := List.pairwise_cons.1 hsorted
    have hnow : seen < now := hlater now List.mem_cons_self
    obtain ⟨hfit, hrest⟩ := List.forall_mem_cons.1 hfits
    have hheld := billionths_of_le hrate (show last ≤ now by omega) hfit
    simp only [lost, FindsWhole, hheld]
    split_ifs with hle hlt hlt
    · omega
    · have hmove : ∀ t ∈ times, rate * (t - now) ≤ longMax := fun t ht =>
        (mul_le_mul_of_nonneg_left (by omega) (by omega)).trans (hrest t ht)
      obtain ⟨hnonneg, hwhole⟩ := ih le_rfl hsorted hmove
      have hmod := Int.emod_nonneg (rate * (now - last)) (show (1000000000 : ℤ) ≠ 0 by decide)
      refine ⟨by omega, fun hzero => ⟨hfit, Int.dvd_of_emod_eq_zero (by omega), hwhole (by omega)⟩⟩
    · obtain ⟨hnonneg, hwhole⟩ := ih (by omega) hsorted hrest
      exact ⟨hnonneg, fun hzero => ⟨hfit, hwhole hzero⟩⟩
    · omega

end Rounds

/-- A bucket that is called in rounds, each of which ends with a refill and finds a fraction of a
token on the way, misses its rate in the end. -/
theorem not_deliversRate_of_rounds (b : BucketLimits) (s : Bucket) (calls : List (ℤ × BucketCall))
    {times : List ℤ} {period : ℤ} {n : ℕ} (hrate : 1 ≤ b.refillRatePerSec)
    (hlow : longMin ≤ s.availableTokens) (hasks : ∀ c ∈ calls, c.2.Asks)
    (hbelow : s.Unfilled b calls) (hcalls : calls.map Prod.fst = rounds times period n)
    (hsorted : (s.lastRefillTimestampNanos :: times).Pairwise (· < ·))
    (hend : times.getLastD s.lastRefillTimestampNanos = s.lastRefillTimestampNanos + period)
    (hround : lastRefill b.refillRatePerSec s.lastRefillTimestampNanos times =
      s.lastRefillTimestampNanos + period)
    (hfits : ∀ now ∈ times, b.refillRatePerSec * (now - s.lastRefillTimestampNanos) ≤ longMax)
    (hloses : ¬ FindsWhole b.refillRatePerSec s.lastRefillTimestampNanos times)
    (hn : 1000000000 ≤ n) :
    ¬ DeliversRate b.refillRatePerSec (s.credited b calls) s.lastRefillTimestampNanos
      ((calls.map Prod.fst).getLastD s.lastRefillTimestampNanos) := by
  have hsum := Bucket.credited_add_lost hlow hasks hbelow
  obtain ⟨hlost, hrefill⟩ := lost_rounds hround n
  obtain ⟨hnonneg, hwhole⟩ := findsWhole_of_lost hrate le_rfl hsorted hfits
  have hpos : 1 ≤ lost b.refillRatePerSec s.lastRefillTimestampNanos times := by
    have hne : lost b.refillRatePerSec s.lastRefillTimestampNanos times ≠ 0 :=
      fun hzero => hloses (hwhole hzero)
    omega
  have hmany : (n : ℤ) ≤ n * lost b.refillRatePerSec s.lastRefillTimestampNanos times :=
    le_mul_of_one_le_right (by omega) hpos
  rw [hcalls, hlost, hrefill] at hsum
  rw [hcalls, getLastD_rounds hend, deliversRate_iff_lt, abs_lt, not_and_or]
  right
  linarith [show (1000000000 : ℤ) ≤ n by exact_mod_cast hn]

/-- A full bucket; the first call takes tokens of it. -/
def fullBucket : Bucket := ⟨100, 0⟩

/-- Calls at every token, and between two of them. -/
theorem deliversRate_everyToken :
    DeliversRate 20 (Bucket.credited defaultLimits ⟨40, 0⟩ [(25000000, .getAvailableTokens),
      (50000000, .getAvailableTokens), (100000000, .tryConsume 3)]) 0 100000000 :=
  deliversRate_of_findsWhole defaultLimits fullBucket (0, .tryConsume 60)
    [(25000000, .getAvailableTokens), (50000000, .getAvailableTokens), (100000000, .tryConsume 3)]
    (by decide) (by decide) (by decide) (by decide) (by simp [BucketCall.Asks])
    ⟨by decide, by decide, by decide, trivial⟩ (by decide)

/-- Calls a little before every second token. -/
theorem not_deliversRate_late : ¬ ∀ (b : BucketLimits) (s : Bucket) (first : ℤ × BucketCall)
    (calls : List (ℤ × BucketCall)), 1 ≤ b.refillRatePerSec → 0 ≤ s.availableTokens →
    s.lastRefillTimestampNanos ≤ first.1 → (first :: calls).Pairwise (fun c c' => c.1 < c'.1) →
    (∀ c ∈ first :: calls, c.2.Asks) → (first.2.perform b first.1 s).2.Unfilled b calls →
    DeliversRate b.refillRatePerSec ((first.2.perform b first.1 s).2.credited b calls) first.1
      ((calls.map Prod.fst).getLastD first.1) := by
  intro hall
  have hrate := hall defaultLimits fullBucket (0, .tryConsume 60)
    [(99000000, .getAvailableTokens), (198000000, .getAvailableTokens)] (by decide) (by decide)
    (by decide) (by simp) (by simp [BucketCall.Asks]) ⟨by decide, by decide, trivial⟩
  have hcredited : Bucket.credited defaultLimits ((BucketCall.tryConsume 60).perform defaultLimits 0
      fullBucket).2 [(99000000, .getAvailableTokens), (198000000, .getAvailableTokens)] = 2 := by
    decide
  unfold DeliversRate at hrate
  rw [hcredited] at hrate
  norm_num [defaultLimits] at hrate

end FlowMesh.Enterprise
