import FlowMesh.Library.Machine
import Mathlib.Algebra.BigOperators.Group.Finset.Piecewise
import Mathlib.Algebra.Order.BigOperators.Group.Finset
import Mathlib.Algebra.Order.Ring.Int
import Mathlib.Data.Fintype.Basic
import Mathlib.Tactic.Ring

/-!
# The token bucket

`LockFreeTokenBucketRateLimiter` (`services/enterprise-worker`): a bucket is two atomic longs, the
tokens that are available and the time of the last refill. `tryConsume` first refills: it claims
the time since the last refill with one compare-and-set and credits the tokens of that time with
another one, and then it takes its tokens with a third. Threads interleave at every single read and
compare-and-set (`BucketState.step`).

What carries the bound is an account (`Accounted`): what is available, what was granted and what
threads have claimed and not credited yet is no more than the capacity and the tokens of the time
up to the last refill. `safe_iff_creditFits`: with it the bucket is safe in every state of a run,
as long as no credit overflows.
-/

namespace FlowMesh.Enterprise

/-! ## Longs -/

/-- The largest `long`. -/
def longMax : ℤ := 2 ^ 63 - 1

/-- The smallest `long`. -/
def longMin : ℤ := -2 ^ 63

/-- What the 64 bits of a `long` keep of a number. -/
def toLong (n : ℤ) : ℤ := n.bmod (2 ^ 64)

theorem toLong_of_fits {n : ℤ} (hlow : longMin ≤ n) (hhigh : n ≤ longMax) : toLong n = n := by
  unfold longMin at hlow
  unfold longMax at hhigh
  exact Int.bmod_eq_of_le (by omega) (by omega)

/-- A sum of two longs that is too large comes out negative. -/
theorem toLong_of_gt {n : ℤ} (hlow : longMax < n) (hhigh : n ≤ 2 * longMax) :
    toLong n = n - 2 ^ 64 := by
  unfold longMax at hlow hhigh
  rw [toLong, Int.bmod_eq_iff (by decide)]
  refine ⟨by omega, by omega, ⟨-1, by omega⟩⟩

/-- A sum of two longs is not more than without the overflow. -/
theorem toLong_add {n m : ℤ} (hlow : longMin ≤ n) (hhigh : n ≤ longMax) (hpos : 0 < m)
    (hm : m ≤ longMax) : longMin ≤ toLong (n + m) ∧ toLong (n + m) ≤ n + m := by
  by_cases hfits : n + m ≤ longMax
  · rw [toLong_of_fits (by omega) hfits]
    omega
  · rw [toLong_of_gt (by omega) (by omega)]
    unfold longMax longMin at *
    omega

/-! ## The bucket -/

/-- What a bucket is made with. -/
structure BucketLimits where
  capacity : ℤ
  refillRatePerSec : ℤ
  capacity_nonneg : 0 ≤ capacity
  capacity_le : capacity ≤ longMax
  rate_nonneg : 0 ≤ refillRatePerSec
  rate_le : refillRatePerSec ≤ longMax

/-- The tokens of a time, as `refillTokens` computes them; nothing is done about a number that is
not positive. -/
def BucketLimits.tokensToAdd (b : BucketLimits) (now lastRefill : ℤ) : ℤ :=
  let elapsedNanos := toLong (now - lastRefill)
  if elapsedNanos ≤ 0 then 0
  else (toLong (elapsedNanos * b.refillRatePerSec)).tdiv 1000000000

/-- The calls. -/
inductive BucketCall
  | tryConsume (tokensRequested : ℤ)
  | getAvailableTokens

/-- What a call returns. -/
inductive BucketAnswer
  | consumed (allowed : Bool)
  | tokens (available : ℤ)

/-- What a thread does next: a read of the clock or of one of the two longs, or a compare-and-set
with what it has read. -/
inductive Phase
  | idle
  | nanoTime (call : BucketCall)
  | getLast (call : BucketCall) (now : ℤ)
  | casLast (call : BucketCall) (lastRefill now tokensToAdd : ℤ)
  | getToCredit (call : BucketCall) (tokensToAdd : ℤ)
  | casCredit (call : BucketCall) (current tokensToAdd : ℤ)
  | getAvailable (call : BucketCall)
  | casConsume (tokensRequested current : ℤ)

/-- The clock, the two longs and the threads; `granted` counts the tokens of the calls that were
allowed. -/
structure BucketState (ι : Type) where
  clock : ℤ
  availableTokens : ℤ
  lastRefillTimestampNanos : ℤ
  phase : ι → Phase
  granted : ℤ

/-- A thread begins a call, or makes its next step after some time. -/
inductive BucketEvent (ι : Type)
  | call (i : ι) (call : BucketCall)
  | run (i : ι) (elapsed : ℕ)

namespace BucketState

variable {ι : Type} [DecidableEq ι]

/-- `new AtomicBucketState(capacity, refillRatePerSec)`, at the time `start`. -/
def init (b : BucketLimits) (start : ℤ) : BucketState ι :=
  ⟨start, b.capacity, start, fun _ => .idle, 0⟩

/-- The thread goes on to a phase. -/
def goto (i : ι) (p : Phase) (s : BucketState ι) : BucketState ι :=
  { s with phase := Function.update s.phase i p }

@[simp] theorem goto_availableTokens (i : ι) (p : Phase) (s : BucketState ι) :
    (s.goto i p).availableTokens = s.availableTokens := rfl

/-- A call begins; one that asks for nothing ends at once. -/
def begin (s : BucketState ι) (i : ι) : BucketCall → Option BucketAnswer × BucketState ι
  | .tryConsume tokensRequested =>
    if tokensRequested ≤ 0 then (some (.consumed true), s)
    else (none, s.goto i (.nanoTime (.tryConsume tokensRequested)))
  | .getAvailableTokens => (none, s.goto i (.nanoTime .getAvailableTokens))

/-- The next step of a thread. A compare-and-set that fails leaves everything as it is: the refill
is then another thread's, the credit and the consumption are tried again. -/
def advance (b : BucketLimits) (s : BucketState ι) (i : ι) : Option BucketAnswer × BucketState ι :=
  match s.phase i with
  | .idle => (none, s)
  | .nanoTime call => (none, s.goto i (.getLast call s.clock))
  | .getLast call now =>
    let lastRefill := s.lastRefillTimestampNanos
    let tokensToAdd := b.tokensToAdd now lastRefill
    if 0 < tokensToAdd then (none, s.goto i (.casLast call lastRefill now tokensToAdd))
    else (none, s.goto i (.getAvailable call))
  | .casLast call lastRefill now tokensToAdd =>
    if s.lastRefillTimestampNanos = lastRefill then
      (none, { s with lastRefillTimestampNanos := now }.goto i (.getToCredit call tokensToAdd))
    else (none, s.goto i (.getAvailable call))
  | .getToCredit call tokensToAdd =>
    (none, s.goto i (.casCredit call s.availableTokens tokensToAdd))
  | .casCredit call current tokensToAdd =>
    if s.availableTokens = current then
      (none, { s with availableTokens := min b.capacity (toLong (current + tokensToAdd)) }.goto i
        (.getAvailable call))
    else (none, s.goto i (.getToCredit call tokensToAdd))
  | .getAvailable .getAvailableTokens => (some (.tokens s.availableTokens), s.goto i .idle)
  | .getAvailable (.tryConsume tokensRequested) =>
    let current := s.availableTokens
    if current < tokensRequested then (some (.consumed false), s.goto i .idle)
    else (none, s.goto i (.casConsume tokensRequested current))
  | .casConsume tokensRequested current =>
    if s.availableTokens = current then
      (some (.consumed true),
        { s with
          availableTokens := toLong (current - tokensRequested)
          granted := s.granted + tokensRequested }.goto i .idle)
    else (none, s.goto i (.nanoTime (.tryConsume tokensRequested)))

/-- An event. A thread begins a call when it has ended the one before. -/
def step (b : BucketLimits) (s : BucketState ι) :
    BucketEvent ι → Option BucketAnswer × BucketState ι
  | .call i call =>
    match s.phase i with
    | .idle => s.begin i call
    | _ => (none, s)
  | .run i elapsed => { s with clock := s.clock + elapsed }.advance b i

/-- The count lies between nothing and the capacity, and no more was granted than the capacity and
the tokens of the time that has passed. -/
structure Safe (b : BucketLimits) (start : ℤ) (s : BucketState ι) : Prop where
  nonneg : 0 ≤ s.availableTokens
  le_capacity : s.availableTokens ≤ b.capacity
  granted_le : s.granted ≤ b.capacity + b.refillRatePerSec * (s.clock - start) / 1000000000

/-- The clock gives longs, and the time since the last refill and its product with the rate do not
overflow. -/
def InRange (b : BucketLimits) (s : BucketState ι) : BucketEvent ι → Prop
  | .call _ _ => True
  | .run i elapsed =>
    s.clock + elapsed ≤ longMax ∧
      match s.phase i with
      | .getLast _ now =>
        let elapsedNanos := now - s.lastRefillTimestampNanos
        longMin ≤ elapsedNanos ∧ elapsedNanos ≤ longMax ∧
          elapsedNanos * b.refillRatePerSec ≤ longMax
      | _ => True

/-- A credit that is made does not overflow. -/
def CreditFits (s : BucketState ι) : BucketEvent ι → Prop
  | .call _ _ => True
  | .run i _ =>
    match s.phase i with
    | .casCredit _ current tokensToAdd =>
      s.availableTokens = current → current + tokensToAdd ≤ longMax
    | _ => True

end BucketState

/-! ## The account -/

/-- The tokens that are due for a time that does not overflow. -/
theorem BucketLimits.tokensToAdd_spec (b : BucketLimits) {now lastRefill : ℤ}
    (hlow : longMin ≤ now - lastRefill) (hhigh : now - lastRefill ≤ longMax)
    (hprod : (now - lastRefill) * b.refillRatePerSec ≤ longMax) :
    b.tokensToAdd now lastRefill =
      if now ≤ lastRefill then 0
      else (now - lastRefill) * b.refillRatePerSec / 1000000000 := by
  have hsub : now - lastRefill ≤ 0 ↔ now ≤ lastRefill := by omega
  unfold tokensToAdd
  simp only [toLong_of_fits hlow hhigh, hsub]
  refine if_ctx_congr Iff.rfl (fun _ => rfl) fun hlt => ?_
  have hnonneg : 0 ≤ (now - lastRefill) * b.refillRatePerSec :=
    mul_nonneg (by omega) b.rate_nonneg
  have hmin : longMin ≤ 0 := by decide
  rw [toLong_of_fits (hmin.trans hnonneg) hprod, Int.tdiv_eq_ediv_of_nonneg hnonneg]

/-- Tokens that are due lie in a time that has passed. -/
theorem BucketLimits.tokensToAdd_pos (b : BucketLimits) {now lastRefill : ℤ}
    (hlow : longMin ≤ now - lastRefill) (hhigh : now - lastRefill ≤ longMax)
    (hprod : (now - lastRefill) * b.refillRatePerSec ≤ longMax)
    (hpos : 0 < b.tokensToAdd now lastRefill) :
    lastRefill < now ∧ b.tokensToAdd now lastRefill * 1000000000 ≤ longMax ∧
      b.tokensToAdd now lastRefill * 1000000000 ≤ b.refillRatePerSec * (now - lastRefill) := by
  rw [b.tokensToAdd_spec hlow hhigh hprod] at hpos ⊢
  split_ifs at hpos ⊢ with hle
  · exact absurd hpos (lt_irrefl 0)
  · have hmul := Int.ediv_mul_le ((now - lastRefill) * b.refillRatePerSec)
      (show (1000000000 : ℤ) ≠ 0 by decide)
    refine ⟨by omega, ?_, ?_⟩
    · omega
    · rwa [mul_comm b.refillRatePerSec]

/-- A call that has to look at the bucket asks for tokens, or for their number. -/
def BucketCall.Asks : BucketCall → Prop
  | .tryConsume tokensRequested => 0 < tokensRequested
  | .getAvailableTokens => True

namespace Phase

/-- The tokens that a thread has claimed and not credited yet. -/
def claimed : Phase → ℤ
  | .getToCredit _ tokensToAdd | .casCredit _ _ tokensToAdd => tokensToAdd
  | _ => 0

/-- What is known of what a thread has read. -/
def Holds (b : BucketLimits) (clock : ℤ) : Phase → Prop
  | .idle => True
  | .nanoTime call | .getAvailable call => call.Asks
  | .getLast call now => call.Asks ∧ now ≤ clock
  | .casLast call lastRefill now tokensToAdd =>
    call.Asks ∧ now ≤ clock ∧ lastRefill < now ∧ 0 < tokensToAdd ∧ tokensToAdd * 1000000000 ≤ longMax ∧
      tokensToAdd * 1000000000 ≤ b.refillRatePerSec * (now - lastRefill)
  | .getToCredit call tokensToAdd | .casCredit call _ tokensToAdd =>
    call.Asks ∧ 0 < tokensToAdd ∧ tokensToAdd * 1000000000 ≤ longMax
  | .casConsume tokensRequested current => 0 < tokensRequested ∧ tokensRequested ≤ current

theorem Holds.later {b : BucketLimits} {clock clock' : ℤ} {p : Phase} (h : p.Holds b clock)
    (hle : clock ≤ clock') : p.Holds b clock' := by
  cases p with
  | getLast call now => exact ⟨h.1, h.2.trans hle⟩
  | casLast call lastRefill now tokensToAdd => exact ⟨h.1, h.2.1.trans hle, h.2.2⟩
  | _ => exact h

end Phase

namespace BucketState

variable {ι : Type} [DecidableEq ι] [Fintype ι] {b : BucketLimits} {start : ℤ} {s : BucketState ι}

/-- The tokens of the time up to the last refill. -/
def earned (b : BucketLimits) (start lastRefill : ℤ) : ℤ :=
  b.refillRatePerSec * (lastRefill - start) / 1000000000

theorem earned_mono {t t' : ℤ} (hle : t ≤ t') : earned b start t ≤ earned b start t' := by
  apply Int.ediv_le_ediv (by decide)
  exact mul_le_mul_of_nonneg_left (by omega) b.rate_nonneg

/-- A claim of a time is covered by the tokens of that time. -/
theorem earned_add_le {lastRefill now tokensToAdd : ℤ}
    (hclaim : tokensToAdd * 1000000000 ≤ b.refillRatePerSec * (now - lastRefill)) :
    earned b start lastRefill + tokensToAdd ≤ earned b start now := by
  have hsplit : b.refillRatePerSec * (now - start) =
      b.refillRatePerSec * (lastRefill - start) + b.refillRatePerSec * (now - lastRefill) := by
    ring
  unfold earned
  rw [← Int.add_mul_ediv_right _ _ (by decide), hsplit]
  exact Int.ediv_le_ediv (by decide) (by omega)

/-- **The account.** What there is, what was granted and what is claimed is covered by the
capacity and the tokens of the time up to the last refill. -/
structure Accounted (b : BucketLimits) (start : ℤ) (s : BucketState ι) : Prop where
  low : longMin ≤ s.availableTokens
  high : s.availableTokens ≤ b.capacity
  start_le : start ≤ s.lastRefillTimestampNanos
  last_le : s.lastRefillTimestampNanos ≤ s.clock
  phases : ∀ i, (s.phase i).Holds b s.clock
  covered : s.availableTokens + s.granted + ∑ i, (s.phase i).claimed ≤
    b.capacity + earned b start s.lastRefillTimestampNanos

omit [DecidableEq ι] in
theorem accounted_init : Accounted b start (init b start : BucketState ι) where
  low := by
    have hcap := b.capacity_nonneg
    have hmin : longMin ≤ 0 := by decide
    exact hmin.trans hcap
  high := le_rfl
  start_le := le_rfl
  last_le := le_rfl
  phases _ := trivial
  covered := by simp [init, Phase.claimed, earned]

/-- The claims, where one thread goes on. -/
theorem sum_claimed_update (phase : ι → Phase) (i : ι) (p : Phase) :
    ∑ j, (Function.update phase i p j).claimed =
      ∑ j, (phase j).claimed - (phase i).claimed + p.claimed := by
  have hcomp : (fun j => (Function.update phase i p j).claimed) =
      Function.update (fun j => (phase j).claimed) i p.claimed :=
    funext fun j => Function.apply_update (fun _ => Phase.claimed) phase i p j
  rw [hcomp, Finset.sum_update_of_mem (Finset.mem_univ i), 
    Finset.sum_eq_add_sum_sdiff_singleton_of_mem (Finset.mem_univ i) fun j => (phase j).claimed]
  ring

/-- A thread goes on, and the account stays balanced. -/
theorem Accounted.moved (h : Accounted b start s) {i : ι} {p : Phase} {s' : BucketState ι}
    (hphase : s'.phase = Function.update s.phase i p) (hclock : s.clock ≤ s'.clock)
    (hlow : longMin ≤ s'.availableTokens) (hhigh : s'.availableTokens ≤ b.capacity)
    (hstart : start ≤ s'.lastRefillTimestampNanos)
    (hlast : s'.lastRefillTimestampNanos ≤ s'.clock) (hp : p.Holds b s'.clock)
    (hcovered : s'.availableTokens + s'.granted + p.claimed +
        earned b start s.lastRefillTimestampNanos ≤
      s.availableTokens + s.granted + (s.phase i).claimed +
        earned b start s'.lastRefillTimestampNanos) :
    Accounted b start s' where
  low := hlow
  high := hhigh
  start_le := hstart
  last_le := hlast
  phases j := by
    rw [hphase]
    by_cases hj : j = i
    · subst hj
      rwa [Function.update_self]
    · rw [Function.update_of_ne hj]
      exact (h.phases j).later hclock
  covered := by
    have hs := h.covered
    rw [hphase, sum_claimed_update]
    omega

omit [DecidableEq ι] in
theorem Accounted.later (h : Accounted b start s) (elapsed : ℕ) :
    Accounted b start { s with clock := s.clock + elapsed } := by
  have hclock : s.clock ≤ s.clock + elapsed := by omega
  exact { h with
    last_le := h.last_le.trans hclock
    phases := fun i => (h.phases i).later hclock }

theorem Accounted.goto (h : Accounted b start s) {i : ι} {p : Phase} (hp : p.Holds b s.clock)
    (hclaimed : p.claimed = (s.phase i).claimed) : Accounted b start (s.goto i p) :=
  h.moved rfl le_rfl h.low h.high h.start_le h.last_le hp (by rw [hclaimed]; exact le_rfl)

theorem Accounted.begin (h : Accounted b start s) {i : ι} (hidle : s.phase i = .idle)
    (call : BucketCall) : Accounted b start (s.begin i call).2 := by
  cases call with
  | tryConsume tokensRequested =>
    show Accounted b start (Prod.snd (if _ then _ else _))
    split_ifs with hle
    · exact h
    · exact h.goto (not_le.1 hle) (by rw [hidle]; rfl)
  | getAvailableTokens => exact h.goto trivial (by rw [hidle]; rfl)

/-- The next step of a thread. A credit that overflows makes the count smaller. -/
theorem Accounted.advance (h : Accounted b start s) {i : ι} (hrange : InRange b s (.run i 0)) :
    Accounted b start (s.advance b i).2 := by
  have hi := h.phases i
  have hmove := fun {p : Phase} {s' : BucketState ι} => @Accounted.moved _ _ _ _ _ _ h i p s'
  have hgoto := fun {p : Phase} => @Accounted.goto _ _ _ _ _ _ h i p
  have hfits := hrange.2
  unfold BucketState.advance
  cases hp : s.phase i with
  | idle => exact h
  | nanoTime call =>
    rw [hp] at hi hgoto
    exact hgoto ⟨hi, le_rfl⟩ rfl
  | getLast call now =>
    rw [hp] at hi hgoto hfits
    show Accounted b start (Prod.snd (if _ then _ else _))
    split_ifs with hpos
    · obtain ⟨hlt, hle, hclaim⟩ := b.tokensToAdd_pos hfits.1 hfits.2.1 hfits.2.2 hpos
      exact hgoto ⟨hi.1, hi.2, hlt, hpos, hle, hclaim⟩ rfl
    · exact hgoto hi.1 rfl
  | casLast call lastRefill now tokensToAdd =>
    rw [hp] at hi hgoto hmove
    obtain ⟨hcall, hnow, hlt, hpos, hle, hclaim⟩ := hi
    show Accounted b start (Prod.snd (if _ then _ else _))
    split_ifs with hlast
    · subst hlast
      refine hmove rfl le_rfl h.low h.high (h.start_le.trans hlt.le) hnow ⟨hcall, hpos, hle⟩ ?_
      have hearned : earned b start s.lastRefillTimestampNanos + tokensToAdd ≤ earned b start now :=
        earned_add_le hclaim
      show s.availableTokens + s.granted + tokensToAdd + earned b start s.lastRefillTimestampNanos ≤
        s.availableTokens + s.granted + 0 + earned b start now
      omega
    · exact hgoto hcall rfl
  | getToCredit call tokensToAdd =>
    rw [hp] at hi hgoto
    exact hgoto hi rfl
  | casCredit call current tokensToAdd =>
    rw [hp] at hi hgoto hmove
    obtain ⟨hcall, hpos, hle⟩ := hi
    show Accounted b start (Prod.snd (if _ then _ else _))
    split_ifs with hcurrent
    · subst hcurrent
      obtain ⟨hlow, hsum⟩ := toLong_add h.low (h.high.trans b.capacity_le) hpos
        (by omega)
      refine hmove rfl le_rfl ?_ (min_le_left _ _) h.start_le h.last_le hcall ?_
      · exact le_min (le_trans (by decide) b.capacity_nonneg) hlow
      · have hmin := (min_le_right b.capacity (toLong (s.availableTokens + tokensToAdd))).trans hsum
        show min b.capacity (toLong (s.availableTokens + tokensToAdd)) + s.granted + 0 +
            earned b start s.lastRefillTimestampNanos ≤
          s.availableTokens + s.granted + tokensToAdd + earned b start s.lastRefillTimestampNanos
        omega
    · exact hgoto ⟨hcall, hpos, hle⟩ rfl
  | getAvailable call =>
    rw [hp] at hi hgoto
    cases call with
    | getAvailableTokens => exact hgoto trivial rfl
    | tryConsume tokensRequested =>
      show Accounted b start (Prod.snd (if _ then _ else _))
      split_ifs with hlt
      · exact hgoto trivial rfl
      · exact hgoto ⟨hi, not_lt.1 hlt⟩ rfl
  | casConsume tokensRequested current =>
    rw [hp] at hi hgoto hmove
    obtain ⟨hpos, hle⟩ := hi
    show Accounted b start (Prod.snd (if _ then _ else _))
    split_ifs with hcurrent
    · subst hcurrent
      have hhigh := h.high
      have hcap := b.capacity_le
      have hmin : longMin ≤ 0 := by decide
      have hexact : toLong (s.availableTokens - tokensRequested) =
          s.availableTokens - tokensRequested := toLong_of_fits (by omega) (by omega)
      refine hmove rfl le_rfl ?_ ?_ h.start_le h.last_le trivial ?_
      · show longMin ≤ toLong _
        omega
      · show toLong _ ≤ _
        omega
      · show toLong (s.availableTokens - tokensRequested) + (s.granted + tokensRequested) + 0 +
            earned b start s.lastRefillTimestampNanos ≤
          s.availableTokens + s.granted + 0 + earned b start s.lastRefillTimestampNanos
        omega
    · exact hgoto hpos rfl

theorem Accounted.step (h : Accounted b start s) {e : BucketEvent ι} (hrange : InRange b s e) :
    Accounted b start (s.step b e).2 := by
  cases e with
  | call i call =>
    cases hp : s.phase i with
    | idle =>
      simp only [BucketState.step, hp]
      exact h.begin hp call
    | _ =>
      simp only [BucketState.step, hp]
      exact h
  | run i elapsed =>
    have hclock : s.clock + elapsed + (0 : ℕ) ≤ longMax := by
      have h0 := hrange.1
      omega
    exact (h.later elapsed).advance ⟨hclock, hrange.2⟩

/-! ## Safety -/

omit [DecidableEq ι] in
/-- With a balanced account a count that is not negative is all that safety asks for. -/
theorem Accounted.safe_iff (h : Accounted b start s) :
    s.Safe b start ↔ 0 ≤ s.availableTokens := by
  constructor
  · exact fun hs => hs.nonneg
  · intro hnonneg
    refine ⟨hnonneg, h.high, ?_⟩
    have hclaimed : 0 ≤ ∑ i, (s.phase i).claimed := by
      apply Finset.sum_nonneg
      intro i _
      have hi := h.phases i
      cases hp : s.phase i with
      | getToCredit call tokensToAdd =>
        rw [hp] at hi
        exact hi.2.1.le
      | casCredit call current tokensToAdd =>
        rw [hp] at hi
        exact hi.2.1.le
      | _ => exact le_rfl
    have hcovered := h.covered
    have hearned : earned b start s.lastRefillTimestampNanos ≤ earned b start s.clock :=
      earned_mono h.last_le
    unfold earned at hcovered hearned
    omega

/-- What a step does to the count: only a credit that overflows makes it negative. -/
theorem Accounted.nonneg_step_iff (h : Accounted b start s) (hnonneg : 0 ≤ s.availableTokens)
    (e : BucketEvent ι) : 0 ≤ (s.step b e).2.availableTokens ↔ s.CreditFits e := by
  have hcap := b.capacity_nonneg
  have hcaple := b.capacity_le
  have hhigh := h.high
  have hmin : longMin ≤ 0 := by decide
  cases e with
  | call i call =>
    apply iff_of_true _ trivial
    cases hp : s.phase i with
    | idle =>
      simp only [BucketState.step, hp]
      cases call with
      | getAvailableTokens => exact hnonneg
      | tryConsume tokensRequested =>
        simp only [BucketState.begin]
        split_ifs <;> exact hnonneg
    | _ =>
      simp only [BucketState.step, hp]
      exact hnonneg
  | run i elapsed =>
    have hi := h.phases i
    unfold CreditFits
    cases hp : s.phase i with
    | casCredit call current tokensToAdd =>
      rw [hp] at hi
      obtain ⟨-, hpos, hle⟩ := hi
      simp only [BucketState.step, BucketState.advance, hp]
      split_ifs with hcurrent
      · subst hcurrent
        simp only [goto_availableTokens, forall_const]
        rw [le_min_iff, and_iff_right hcap]
        constructor
        · intro hsum
          by_contra hgt
          rw [toLong_of_gt (by omega) (by omega)] at hsum
          unfold longMax at *
          omega
        · intro hfits
          rw [toLong_of_fits (by omega) hfits]
          omega
      · simp only [goto_availableTokens, hcurrent, false_imp_iff, iff_true]
        exact hnonneg
    | casConsume tokensRequested current =>
      rw [hp] at hi
      obtain ⟨hpos, hle⟩ := hi
      simp only [BucketState.step, BucketState.advance, hp, iff_true]
      split_ifs with hcurrent
      · subst hcurrent
        show 0 ≤ toLong (s.availableTokens - tokensRequested)
        rw [toLong_of_fits (by omega) (by omega)]
        omega
      · exact hnonneg
    | getAvailable call =>
      cases call with
      | getAvailableTokens =>
        simp only [BucketState.step, BucketState.advance, hp, iff_true]
        exact hnonneg
      | tryConsume tokensRequested =>
        simp only [BucketState.step, BucketState.advance, hp, iff_true]
        split_ifs <;> exact hnonneg
    | getLast call now | casLast call lastRefill now tokensToAdd =>
      simp only [BucketState.step, BucketState.advance, hp, iff_true]
      split_ifs <;> exact hnonneg
    | _ =>
      simp only [BucketState.step, BucketState.advance, hp, iff_true]
      exact hnonneg

/-- **The token bucket is safe**: in every state of a run the count lies between nothing and the
capacity, and no more was granted than the capacity and the tokens of the time that has passed,
exactly as long as no credit overflows. -/
theorem safe_iff_creditFits (b : BucketLimits) (start : ℤ) (events : List (BucketEvent ι))
    (hrange : Machine.Every (step b) (InRange b) (init b start) events) :
    (∀ past, past <+: events → (Machine.exec (step b) (init b start) past).Safe b start) ↔
      Machine.Every (step b) CreditFits (init b start) events := by
  have hinit : Accounted b start (init b start : BucketState ι) := accounted_init
  apply Machine.forall_prefix_iff_every_of (fun s e hs he => hs.step he) ?_ hinit
    (hinit.safe_iff.2 b.capacity_nonneg) hrange
  intro s e hs he hsafe
  rw [(hs.step he).safe_iff, hs.nonneg_step_iff hsafe.nonneg]

/-- No credit overflows where the capacity leaves room for the tokens of the longest time. -/
theorem creditFits_of_capacity (hcap : b.capacity + longMax / 1000000000 ≤ longMax)
    {events : List (BucketEvent ι)}
    (hrange : Machine.Every (step b) (InRange b) (init b start) events) :
    Machine.Every (step b) CreditFits (init b start) events := by
  have hinit : Accounted b start (init b start : BucketState ι) := accounted_init
  refine Machine.Every.of_invariant (I := Accounted b start) (P := InRange b)
    (fun s e hs he => hs.step he) ?_ hinit hrange
  intro s e hs _
  cases e with
  | call i call => trivial
  | run i elapsed =>
    have hi := hs.phases i
    cases hp : s.phase i with
    | casCredit call current tokensToAdd =>
      rw [hp] at hi
      obtain ⟨-, -, hle⟩ := hi
      have hhigh := hs.high
      simp only [CreditFits, hp]
      rintro rfl
      omega
    | _ => simp only [CreditFits, hp]

end BucketState

/-! ### Two threads -/

/-- The bucket that `tryAcquire` makes. -/
def defaultLimits : BucketLimits where
  capacity := 100
  refillRatePerSec := 20
  capacity_nonneg := by decide
  capacity_le := by decide
  rate_nonneg := by decide
  rate_le := by decide

/-- A thread consumes 60 tokens; a second later another one refills. -/
def consumeAndRefill : List (BucketEvent (Fin 2)) :=
  [.call 0 (.tryConsume 60), .run 0 0, .run 0 0, .run 0 0, .run 0 0,
    .call 1 .getAvailableTokens, .run 1 1000000000, .run 1 0, .run 1 0, .run 1 0, .run 1 0]

theorem safe_consumeAndRefill :
    (Machine.exec (BucketState.step defaultLimits) (.init defaultLimits 0)
      consumeAndRefill).Safe defaultLimits 0 := by
  have hrange : Machine.Every (BucketState.step defaultLimits) (BucketState.InRange defaultLimits)
      (.init defaultLimits 0) consumeAndRefill := by
    refine ⟨trivial, ?_, ?_, ?_, ?_, trivial, ?_, ?_, ?_, ?_, ?_, trivial⟩
    all_goals exact ⟨by decide, by trivial⟩
  exact (BucketState.safe_iff_creditFits defaultLimits 0 consumeAndRefill hrange).2
    (BucketState.creditFits_of_capacity (by decide) hrange) _ List.prefix_rfl

/-- The largest bucket, at a token a nanosecond. -/
def largestLimits : BucketLimits where
  capacity := longMax
  refillRatePerSec := 1000000000
  capacity_nonneg := by decide
  capacity_le := by decide
  rate_nonneg := by decide
  rate_le := by decide

/-- A nanosecond after it was made, the full bucket is refilled. -/
def refillLargest : List (BucketEvent (Fin 1)) :=
  [.call 0 .getAvailableTokens, .run 0 1, .run 0 0, .run 0 0, .run 0 0, .run 0 0]

theorem not_safe_refillLargest : ¬ ∀ (ι : Type) [DecidableEq ι] [Fintype ι] (b : BucketLimits)
    (start : ℤ) (events : List (BucketEvent ι)),
    Machine.Every (BucketState.step b) (BucketState.InRange b) (.init b start) events →
      (Machine.exec (BucketState.step b) (.init b start) events).Safe b start := by
  intro hall
  have hrange : Machine.Every (BucketState.step largestLimits) (BucketState.InRange largestLimits)
      (.init largestLimits 0) refillLargest := by
    refine ⟨trivial, ?_, ?_, ?_, ?_, ?_, trivial⟩
    all_goals exact ⟨by decide, by trivial⟩
  have hneg : (Machine.exec (BucketState.step largestLimits) (.init largestLimits 0)
      refillLargest).availableTokens = longMin := by decide
  have hsafe := (hall (Fin 1) largestLimits 0 refillLargest hrange).nonneg
  rw [hneg] at hsafe
  exact absurd hsafe (by decide)

end FlowMesh.Enterprise
