import Mathlib.Algebra.Order.Group.Unbundled.Basic
import Mathlib.Algebra.Order.Ring.Rat
import Mathlib.Data.Option.Basic
import Mathlib.Logic.Function.Basic
import FlowMesh.Library.Machine

/-!
# The circuit breakers in memory

The circuit breaker calls of `flowmesh_state/interface.py`, and `MemoryStateStore`'s three
dictionaries behind them (`MemoryBreakers`). A call comes with the clock reading at its time;
clock readings and cooldowns are compared exactly.

A single connection is a `Breaker`: a state, a count of failures and the time of its opening.
`Breaker.step` says what each call does to it, and `MemoryBreakers.breaker_call` that the
dictionaries hold one such breaker for every connection. `breaker_machine` then characterises
the machine over whole histories, from the calls alone (`failuresSince`, `openings`).
-/

namespace FlowMesh

/-- The state of a circuit breaker. -/
inductive CircuitState
  | closed
  | open
  | halfOpen
  deriving DecidableEq, Repr

/-- The text of a state. -/
def CircuitState.text : CircuitState → String
  | .closed => "CLOSED"
  | .open => "OPEN"
  | .halfOpen => "HALF-OPEN"

/-- The circuit breaker calls of a state store. -/
inductive BreakerOp (τ : Type)
  | getCircuitBreakerState (cooldownSeconds : Option τ)
  | recordCircuitFailure (threshold : ℤ)
  | recordCircuitSuccess
  | resetCircuitBreaker

/-- A call on the breaker of a connection, and what the clock reads. -/
structure BreakerCall (τ : Type) where
  connectionId : String
  now : τ
  op : BreakerOp τ

/-- The call is a failure. -/
def BreakerCall.IsFailure {τ : Type} (c : BreakerCall τ) : Prop :=
  ∃ threshold, c.op = .recordCircuitFailure threshold

/-! ## One breaker -/

section Breaker

variable {τ : Type}

/-- What is stored for one connection, with the defaults of the missing entries. -/
structure Breaker (τ : Type) where
  state : CircuitState
  failures : ℤ
  openedAt : τ

variable [Sub τ] [Zero τ] [LE τ] [DecidableLE τ]

/-- A closed breaker without failures. -/
def Breaker.closed : Breaker τ := ⟨.closed, 0, 0⟩

/-- What a call answers and does; `cooldown` is the store's default. -/
def Breaker.step (cooldown now : τ) (b : Breaker τ) :
    BreakerOp τ → Option CircuitState × Breaker τ
  | .getCircuitBreakerState cooldownSeconds =>
    if b.state = .open ∧ cooldownSeconds.getD cooldown ≤ now - b.openedAt then
      (some .halfOpen, { b with state := .halfOpen })
    else (some b.state, b)
  | .recordCircuitFailure threshold =>
    if b.state = .halfOpen then (some .open, { b with state := .open, openedAt := now })
    else if threshold ≤ b.failures + 1 then (some .open, ⟨.open, b.failures + 1, now⟩)
    else (some .closed, { b with failures := b.failures + 1 })
  | .recordCircuitSuccess => (some .closed, .closed)
  | .resetCircuitBreaker => (none, .closed)

namespace Breaker

variable {b : Breaker τ} {cooldown now : τ} {threshold : ℤ}

theorem step_get_of_cooled {cooldownSeconds : Option τ}
    (h : b.state = .open ∧ cooldownSeconds.getD cooldown ≤ now - b.openedAt) :
    b.step cooldown now (.getCircuitBreakerState cooldownSeconds) =
      (some .halfOpen, { b with state := .halfOpen }) :=
  if_pos h

theorem step_get_of_not {cooldownSeconds : Option τ}
    (h : ¬ (b.state = .open ∧ cooldownSeconds.getD cooldown ≤ now - b.openedAt)) :
    b.step cooldown now (.getCircuitBreakerState cooldownSeconds) = (some b.state, b) :=
  if_neg h

theorem step_failure_of_halfOpen (h : b.state = .halfOpen) :
    b.step cooldown now (.recordCircuitFailure threshold) =
      (some .open, { b with state := .open, openedAt := now }) :=
  if_pos h

theorem step_failure_of_le (h : b.state ≠ .halfOpen) (hcount : threshold ≤ b.failures + 1) :
    b.step cooldown now (.recordCircuitFailure threshold) =
      (some .open, ⟨.open, b.failures + 1, now⟩) :=
  (if_neg h).trans (if_pos hcount)

theorem step_failure_of_lt (h : b.state ≠ .halfOpen) (hcount : b.failures + 1 < threshold) :
    b.step cooldown now (.recordCircuitFailure threshold) =
      (some .closed, { b with failures := b.failures + 1 }) :=
  (if_neg h).trans (if_neg (by omega))

end Breaker

end Breaker

/-! ## `MemoryStateStore` -/

/-- The dictionaries `_circuit_failures`, `_circuit_state` and `_circuit_opened_at`. -/
structure MemoryBreakers (τ : Type) where
  circuitFailures : String → Option ℤ
  circuitState : String → Option CircuitState
  circuitOpenedAt : String → Option τ
  defaultCooldownSeconds : τ

namespace MemoryBreakers

variable {τ : Type} [Sub τ] [Zero τ] [LE τ] [DecidableLE τ]

/-- `MemoryStateStore(default_cooldown_seconds)`. -/
def new (defaultCooldownSeconds : τ) : MemoryBreakers τ :=
  ⟨fun _ => none, fun _ => none, fun _ => none, defaultCooldownSeconds⟩

variable (m : MemoryBreakers τ) (id : String)

/-- `self._circuit_state.get(connection_id, "CLOSED")`. -/
def state : CircuitState := (m.circuitState id).getD .closed

/-- `get_circuit_breaker_state`. -/
def getCircuitBreakerState (cooldownSeconds : Option τ) (now : τ) :
    CircuitState × MemoryBreakers τ :=
  let currentState := m.state id
  if currentState = .open then
    let cooldown := cooldownSeconds.getD m.defaultCooldownSeconds
    let openedAt := (m.circuitOpenedAt id).getD 0
    if cooldown ≤ now - openedAt then
      (.halfOpen, { m with circuitState := Function.update m.circuitState id (some .halfOpen) })
    else (currentState, m)
  else (currentState, m)

/-- `record_circuit_failure`. -/
def recordCircuitFailure (threshold : ℤ) (now : τ) : CircuitState × MemoryBreakers τ :=
  if m.state id = .halfOpen then
    (.open, { m with
      circuitState := Function.update m.circuitState id (some .open)
      circuitOpenedAt := Function.update m.circuitOpenedAt id (some now) })
  else
    let count := (m.circuitFailures id).getD 0 + 1
    let m := { m with circuitFailures := Function.update m.circuitFailures id (some count) }
    if threshold ≤ count then
      (.open, { m with
        circuitState := Function.update m.circuitState id (some .open)
        circuitOpenedAt := Function.update m.circuitOpenedAt id (some now) })
    else (.closed, m)

/-- `reset_circuit_breaker`, and what `record_circuit_success` does. -/
def resetCircuitBreaker : MemoryBreakers τ :=
  { m with
    circuitFailures := Function.update m.circuitFailures id (some 0)
    circuitState := Function.update m.circuitState id (some .closed)
    circuitOpenedAt := Function.update m.circuitOpenedAt id none }

/-- `record_circuit_success`. -/
def recordCircuitSuccess : CircuitState × MemoryBreakers τ := (.closed, m.resetCircuitBreaker id)

/-- Answer a call. -/
def call (c : BreakerCall τ) : Option CircuitState × MemoryBreakers τ :=
  match c.op with
  | .getCircuitBreakerState cooldownSeconds =>
    let (state, m) := m.getCircuitBreakerState c.connectionId cooldownSeconds c.now
    (some state, m)
  | .recordCircuitFailure threshold =>
    let (state, m) := m.recordCircuitFailure c.connectionId threshold c.now
    (some state, m)
  | .recordCircuitSuccess =>
    let (state, m) := m.recordCircuitSuccess c.connectionId
    (some state, m)
  | .resetCircuitBreaker => (none, m.resetCircuitBreaker c.connectionId)

/-! ### The breaker of a connection -/

/-- What the dictionaries hold for a connection. -/
def breaker : Breaker τ :=
  ⟨m.state id, (m.circuitFailures id).getD 0, (m.circuitOpenedAt id).getD 0⟩

variable {m} {c : BreakerCall τ}

omit [Sub τ] [LE τ] [DecidableLE τ] in
@[simp] theorem breaker_new (cooldown : τ) : (new cooldown).breaker id = .closed := rfl

/-- A call is a step of the breaker it is about. -/
theorem breaker_call :
    (m.call c).1 = ((m.breaker c.connectionId).step m.defaultCooldownSeconds c.now c.op).1 ∧
      (m.call c).2.breaker c.connectionId =
        ((m.breaker c.connectionId).step m.defaultCooldownSeconds c.now c.op).2 := by
  obtain ⟨connectionId, now, op⟩ := c
  cases op with
  | getCircuitBreakerState cooldownSeconds =>
    simp only [call, getCircuitBreakerState, Breaker.step, breaker]
    split_ifs <;> simp_all [state]
  | recordCircuitFailure threshold =>
    simp only [call, recordCircuitFailure]
    by_cases hhalf : m.state connectionId = .halfOpen
    · rw [Breaker.step_failure_of_halfOpen hhalf, if_pos hhalf]
      simp [breaker, state]
    · by_cases hcount : threshold ≤ (m.circuitFailures connectionId).getD 0 + 1
      · rw [Breaker.step_failure_of_le hhalf hcount, if_neg hhalf, if_pos hcount]
        simp [breaker, state]
      · rw [Breaker.step_failure_of_lt hhalf (not_le.1 hcount), if_neg hhalf, if_neg hcount]
        simp [breaker, state]
  | recordCircuitSuccess =>
    simp [call, recordCircuitSuccess, resetCircuitBreaker, Breaker.step, breaker, Breaker.closed,
      state]
  | resetCircuitBreaker =>
    simp [call, resetCircuitBreaker, Breaker.step, breaker, Breaker.closed, state]

/-- A call leaves the entries of the other connections alone, and the default cooldown. -/
theorem call_frame :
    (m.call c).2.defaultCooldownSeconds = m.defaultCooldownSeconds ∧
      ∀ id, c.connectionId ≠ id →
        (m.call c).2.circuitFailures id = m.circuitFailures id ∧
        (m.call c).2.circuitState id = m.circuitState id ∧
        (m.call c).2.circuitOpenedAt id = m.circuitOpenedAt id := by
  obtain ⟨connectionId, now, op⟩ := c
  have hother : ∀ {α : Type} (d : String → α) (v : α) (id : String), connectionId ≠ id →
      Function.update d connectionId v id = d id :=
    fun d v id hid => Function.update_of_ne (fun h => hid h.symm) v d
  cases op with
  | getCircuitBreakerState cooldownSeconds =>
    simp only [call, getCircuitBreakerState]
    split_ifs <;> simp +contextual [hother]
  | recordCircuitFailure threshold =>
    simp only [call, recordCircuitFailure]
    split_ifs <;> simp +contextual [hother]
  | recordCircuitSuccess =>
    simp +contextual [call, recordCircuitSuccess, resetCircuitBreaker, hother]
  | resetCircuitBreaker => simp +contextual [call, resetCircuitBreaker, hother]

theorem breaker_call_of_ne (hid : c.connectionId ≠ id) :
    (m.call c).2.breaker id = m.breaker id := by
  obtain ⟨hfailures, hstate, hopened⟩ := (call_frame (m := m)).2 id hid
  simp only [breaker, state, hfailures, hstate, hopened]

end MemoryBreakers

/-! ## The machine over histories -/

section History

variable {τ : Type}

/-- The failures of a connection since its last success or reset. -/
def failuresSince (id : String) (calls : List (BreakerCall τ)) : ℤ :=
  calls.foldl (fun k c =>
    if c.connectionId = id then
      match c.op with
      | .getCircuitBreakerState _ => k
      | .recordCircuitFailure _ => k + 1
      | .recordCircuitSuccess => 0
      | .resetCircuitBreaker => 0
    else k) 0

theorem failuresSince_concat {id : String} {past : List (BreakerCall τ)} {c : BreakerCall τ} :
    failuresSince id (past ++ [c]) = if c.connectionId = id then
      match c.op with
      | .getCircuitBreakerState _ => failuresSince id past
      | .recordCircuitFailure _ => failuresSince id past + 1
      | .recordCircuitSuccess => 0
      | .resetCircuitBreaker => 0
    else failuresSince id past := by
  simp only [failuresSince, List.foldl_append, List.foldl_cons, List.foldl_nil]

/-- The call uses the threshold `n`, or the cooldown `cooldown`, if it uses one at all. -/
def BreakerCall.Fixed (n : ℤ) (cooldown default : τ) (c : BreakerCall τ) : Prop :=
  match c.op with
  | .getCircuitBreakerState cooldownSeconds => cooldownSeconds.getD default = cooldown
  | .recordCircuitFailure threshold => threshold = n
  | _ => True

/-- Fixed threshold and cooldown, and a clock that does not go back. -/
structure RegularCalls [LE τ] (n : ℤ) (cooldown default : τ) (calls : List (BreakerCall τ)) :
    Prop where
  fixed : ∀ c ∈ calls, c.Fixed n cooldown default
  clock : calls.Pairwise fun c c' => c.now ≤ c'.now

theorem RegularCalls.init [LE τ] {n : ℤ} {cooldown default : τ} {past : List (BreakerCall τ)}
    {c : BreakerCall τ} (h : RegularCalls n cooldown default (past ++ [c])) :
    RegularCalls n cooldown default past where
  fixed := fun c' hc' => h.fixed c' (List.mem_append_left _ hc')
  clock := (List.pairwise_append.1 h.clock).1

section Openings

variable [Sub τ] [Zero τ] [LE τ] [DecidableLE τ] {n : ℤ} {cooldown default : τ} {id : String}
  {past : List (BreakerCall τ)} {c : BreakerCall τ}

/-- The store after a history. -/
abbrev storeAfter (default : τ) (calls : List (BreakerCall τ)) : MemoryBreakers τ :=
  Machine.exec MemoryBreakers.call (.new default) calls

theorem storeAfter_cooldown (calls : List (BreakerCall τ)) :
    (storeAfter default calls).defaultCooldownSeconds = default := by
  refine Machine.exec_invariant (I := fun m : MemoryBreakers τ =>
    m.defaultCooldownSeconds = default) (P := fun _ => True) ?_ rfl fun _ _ => trivial
  intro m c _ h
  exact MemoryBreakers.call_frame.1.trans h

/-- The times at which the breaker of a connection was opened: those of the failures that left
it open. -/
def openings (id : String) : MemoryBreakers τ → List (BreakerCall τ) → List τ
  | _, [] => []
  | m, c :: calls =>
    match c.op with
    | .recordCircuitFailure _ =>
      if c.connectionId = id ∧ (m.call c).2.state id = .open then
        c.now :: openings id (m.call c).2 calls
      else openings id (m.call c).2 calls
    | _ => openings id (m.call c).2 calls

/-- The last call opens the breaker, or adds no opening. -/
theorem mem_openings_concat {m : MemoryBreakers τ} {t : τ} :
    t ∈ openings id m (past ++ [c]) ↔ t ∈ openings id m past ∨
      c.IsFailure ∧ c.connectionId = id ∧
        (Machine.exec MemoryBreakers.call m (past ++ [c])).state id = .open ∧ t = c.now := by
  induction past generalizing m with
  | nil =>
    obtain ⟨connectionId, now, op⟩ := c
    cases op with
    | recordCircuitFailure threshold =>
      simp only [List.nil_append, openings, BreakerCall.IsFailure, Machine.exec_cons,
        Machine.exec_nil]
      split_ifs with h
      · obtain ⟨rfl, hopen⟩ := h
        simp [hopen]
      · simp only [List.not_mem_nil, false_or, false_iff]
        exact fun h' => h ⟨h'.2.1, h'.2.2.1⟩
    | _ => simp [openings, BreakerCall.IsFailure]
  | cons c' past ih =>
    obtain ⟨connectionId, now, op⟩ := c'
    cases op with
    | recordCircuitFailure threshold =>
      simp only [List.cons_append, openings, Machine.exec_cons]
      split_ifs
      · simp only [List.mem_cons, ih, or_assoc]
      · exact ih
    | _ => exact ih

/-- An opening has the time of one of the calls. -/
theorem exists_of_mem_openings {m : MemoryBreakers τ} {t : τ} (ht : t ∈ openings id m past) :
    ∃ c ∈ past, c.now = t := by
  induction past using List.reverseRecOn with
  | nil => cases ht
  | append_singleton past c ih =>
    rcases mem_openings_concat.1 ht with ht | ⟨-, -, -, rfl⟩
    · obtain ⟨c', hc', htime⟩ := ih ht
      exact ⟨c', List.mem_append_left _ hc', htime⟩
    · exact ⟨c, by simp, rfl⟩

/-- How the three entries of a connection hang together after a history. -/
structure Breaker.Follows (n : ℤ) (default : τ) (id : String) (past : List (BreakerCall τ))
    (b : Breaker τ) : Prop where
  counted : b.state = .closed → b.failures = failuresSince id past ∧ failuresSince id past < n
  tripped : b.state ≠ .closed → n ≤ b.failures ∧ n ≤ failuresSince id past
  openedAt : b.state = .open →
    b.openedAt ∈ openings id (.new default) past ∧
      ∀ t ∈ openings id (.new default) past, t ≤ b.openedAt

/-- The breaker that the last call is about. -/
theorem breaker_storeAfter (hid : c.connectionId = id) :
    (storeAfter default (past ++ [c])).breaker id =
      (((storeAfter default past).breaker id).step default c.now c.op).2 := by
  subst hid
  rw [storeAfter, Machine.exec_concat, MemoryBreakers.breaker_call.2, storeAfter_cooldown]

/-- The breakers that the last call is not about. -/
theorem breaker_storeAfter_of_ne (hid : c.connectionId ≠ id) :
    (storeAfter default (past ++ [c])).breaker id = (storeAfter default past).breaker id := by
  rw [storeAfter, Machine.exec_concat, MemoryBreakers.breaker_call_of_ne id hid]

theorem mem_openings_of_not {t : τ} (hc : c.connectionId = id → ¬ c.IsFailure) :
    t ∈ openings id (.new default) (past ++ [c]) ↔ t ∈ openings id (.new default) past := by
  rw [mem_openings_concat, or_iff_left]
  exact fun h => hc h.2.1 h.1

/-- A breaker that is not open has no opening to remember. -/
theorem Breaker.Follows.of_not_open {b : Breaker τ} (hstate : b.state ≠ .open)
    (hcounted : b.state = .closed → b.failures = failuresSince id past ∧ failuresSince id past < n)
    (htripped : b.state ≠ .closed → n ≤ b.failures ∧ n ≤ failuresSince id past) :
    b.Follows n default id past :=
  ⟨hcounted, htripped, fun h => absurd h hstate⟩

/-- The calls that neither count nor open. -/
theorem Breaker.Follows.skip {b : Breaker τ} (hb : b.Follows n default id past)
    (hc : c.connectionId = id → ¬ c.IsFailure)
    (hcount : failuresSince id (past ++ [c]) = failuresSince id past) :
    b.Follows n default id (past ++ [c]) where
  counted := by
    rw [hcount]
    exact hb.counted
  tripped := by
    rw [hcount]
    exact hb.tripped
  openedAt := by
    simp only [mem_openings_of_not hc]
    exact hb.openedAt

end Openings

section Machine

variable [AddCommGroup τ] [LinearOrder τ] {n : ℤ} {cooldown default : τ} {id : String}
  {past : List (BreakerCall τ)} {c : BreakerCall τ}

/-- A failure that opens the breaker. -/
theorem Breaker.Follows.trip {failures : ℤ} (hc : c.IsFailure) (hid : c.connectionId = id)
    (hclock : (past ++ [c]).Pairwise fun c c' => c.now ≤ c'.now)
    (hbreaker : (storeAfter default (past ++ [c])).breaker id = ⟨.open, failures, c.now⟩)
    (hfailures : n ≤ failures) (hcount : n ≤ failuresSince id (past ++ [c])) :
    Follows n default id (past ++ [c]) ⟨.open, failures, c.now⟩ where
  counted := nofun
  tripped := fun _ => ⟨hfailures, hcount⟩
  openedAt := by
    intro _
    have hstate : (storeAfter default (past ++ [c])).state id = .open :=
      congrArg Breaker.state hbreaker
    refine ⟨mem_openings_concat.2 (Or.inr ⟨hc, hid, hstate, rfl⟩), fun t ht => ?_⟩
    rcases mem_openings_concat.1 ht with ht | ⟨-, -, -, rfl⟩
    · obtain ⟨c', hc', rfl⟩ := exists_of_mem_openings ht
      exact (List.pairwise_append.1 hclock).2.2 c' hc' c (by simp)
    · exact le_rfl

theorem Breaker.Follows.step (hn : 1 ≤ n) (hcalls : RegularCalls n cooldown default (past ++ [c]))
    (hb : ((storeAfter default past).breaker id).Follows n default id past) :
    ((storeAfter default (past ++ [c])).breaker id).Follows n default id (past ++ [c]) := by
  by_cases hid : c.connectionId = id
  · have hbreaker : (storeAfter default (past ++ [c])).breaker id = _ := breaker_storeAfter hid
    have hcount : failuresSince id (past ++ [c]) = _ := failuresSince_concat
    rw [if_pos hid] at hcount
    have hfixed := hcalls.fixed c (by simp)
    cases hop : c.op with
    | getCircuitBreakerState cooldownSeconds =>
      simp only [hop] at hcount hbreaker
      have hb' := hb.skip (c := c) (by simp [BreakerCall.IsFailure, hop]) hcount
      rw [hbreaker, Breaker.step]
      split_ifs with h
      · -- the state changes, and an open breaker had tripped
        refine .of_not_open nofun nofun fun _ => ?_
        exact hb'.tripped (by simp [h.1])
      · exact hb'
    | recordCircuitFailure threshold =>
      simp only [hop] at hcount hbreaker
      obtain rfl : threshold = n := by simpa [BreakerCall.Fixed, hop] using hfixed
      by_cases hhalf : ((storeAfter default past).breaker id).state = .halfOpen
      · obtain ⟨hfailures, hsince⟩ := hb.tripped (by simp [hhalf])
        rw [Breaker.step_failure_of_halfOpen hhalf] at hbreaker
        rw [hbreaker]
        exact .trip ⟨_, hop⟩ hid hcalls.clock hbreaker hfailures (by omega)
      · by_cases hle : threshold ≤ ((storeAfter default past).breaker id).failures + 1
        · rw [Breaker.step_failure_of_le hhalf hle] at hbreaker
          rw [hbreaker]
          refine .trip ⟨_, hop⟩ hid hcalls.clock hbreaker hle ?_
          by_cases hclosed : ((storeAfter default past).breaker id).state = .closed
          · have := (hb.counted hclosed).1
            omega
          · have := (hb.tripped hclosed).2
            omega
        · have hclosed : ((storeAfter default past).breaker id).state = .closed := by
            by_contra hno
            have := (hb.tripped hno).1
            omega
          have hcounted := hb.counted hclosed
          rw [Breaker.step_failure_of_lt hhalf (by omega)] at hbreaker
          rw [hbreaker]
          refine .of_not_open (by simp [hclosed]) (fun _ => ?_) fun h => absurd hclosed h
          simp only
          omega
    | recordCircuitSuccess =>
      simp only [hop] at hcount hbreaker
      rw [hbreaker]
      exact .of_not_open nofun (fun _ => ⟨hcount.symm, by omega⟩) (absurd rfl)
    | resetCircuitBreaker =>
      simp only [hop] at hcount hbreaker
      rw [hbreaker]
      exact .of_not_open nofun (fun _ => ⟨hcount.symm, by omega⟩) (absurd rfl)
  · rw [breaker_storeAfter_of_ne hid]
    exact hb.skip (fun h => absurd h hid) (failuresSince_concat.trans (if_neg hid))

/-- The entries hang together after every history. -/
theorem follows_storeAfter (hn : 1 ≤ n) {calls : List (BreakerCall τ)}
    (hcalls : RegularCalls n cooldown default calls) (id : String) :
    ((storeAfter default calls).breaker id).Follows n default id calls := by
  refine Machine.exec_history (Q := RegularCalls n cooldown default)
    (J := fun past (m : MemoryBreakers τ) => (m.breaker id).Follows n default id past)
    (fun _ _ => RegularCalls.init)
    ?_ ?_ hcalls
  · exact .of_not_open nofun (fun _ => ⟨rfl, by simp [failuresSince]; omega⟩) (absurd rfl)
  · intro past c hcalls hb
    have hstep := hb.step hn hcalls
    rwa [storeAfter, Machine.exec_concat] at hstep

/-- When a breaker opens. -/
theorem opens_iff (hn : 1 ≤ n) (hcalls : RegularCalls n cooldown default (past ++ [c])) :
    (storeAfter default past).state id ≠ .open ∧
        (storeAfter default (past ++ [c])).state id = .open ↔
      c.connectionId = id ∧ c.IsFailure ∧
        (failuresSince id (past ++ [c]) = n ∨ (storeAfter default past).state id = .halfOpen) := by
  change ((storeAfter default past).breaker id).state ≠ .open ∧
    ((storeAfter default (past ++ [c])).breaker id).state = .open ↔ _ ∧ _ ∧
      (_ ∨ ((storeAfter default past).breaker id).state = .halfOpen)
  have hb := follows_storeAfter hn hcalls.init id
  have hfixed := hcalls.fixed c (by simp)
  by_cases hid : c.connectionId = id
  · rw [breaker_storeAfter hid, failuresSince_concat, if_pos hid]
    generalize (storeAfter default past).breaker id = b at hb ⊢
    cases hop : c.op with
    | recordCircuitFailure threshold =>
      obtain rfl : threshold = n := by simpa [BreakerCall.Fixed, hop] using hfixed
      have hfailure : c.IsFailure := ⟨_, hop⟩
      cases hstate : b.state with
      | halfOpen => simp [Breaker.step_failure_of_halfOpen hstate, hid, hfailure]
      | «open» =>
        have := (hb.tripped (by simp [hstate])).2
        simp only [ne_eq, not_true, false_and, reduceCtorEq, or_false, false_iff]
        omega
      | closed =>
        -- a closed breaker has counted every failure since the last success or reset
        have hcounted := hb.counted hstate
        have hhalf : b.state ≠ .halfOpen := by simp [hstate]
        by_cases hle : threshold ≤ b.failures + 1
        · simp only [Breaker.step_failure_of_le hhalf hle, hid, hfailure]
          simp
          omega
        · simp only [Breaker.step_failure_of_lt hhalf (not_le.1 hle), hstate, hid, hfailure]
          simp
          omega
    | getCircuitBreakerState cooldownSeconds =>
      simp only [BreakerCall.IsFailure, hop, Breaker.step]
      split_ifs <;> simp
    | recordCircuitSuccess => simp [BreakerCall.IsFailure, hop, Breaker.step, Breaker.closed]
    | resetCircuitBreaker => simp [BreakerCall.IsFailure, hop, Breaker.step, Breaker.closed]
  · rw [breaker_storeAfter_of_ne hid]
    constructor
    · exact fun h => absurd h.2 h.1
    · exact fun h => absurd h.1 hid

/-- A call that makes a breaker leave the open state. -/
inductive Released (cooldown : τ) (opened : List τ) (c : BreakerCall τ) : CircuitState → Prop
  | cooledDown (cooldownSeconds : Option τ) (hop : c.op = .getCircuitBreakerState cooldownSeconds)
      (hopened : opened ≠ []) (htime : ∀ t ∈ opened, cooldown ≤ c.now - t) :
      Released cooldown opened c .halfOpen
  | success (hop : c.op = .recordCircuitSuccess) : Released cooldown opened c .closed
  | reset (hop : c.op = .resetCircuitBreaker) : Released cooldown opened c .closed

/-- How a breaker leaves the open state. -/
theorem leaves_open [IsOrderedAddMonoid τ] (hn : 1 ≤ n)
    (hcalls : RegularCalls n cooldown default (past ++ [c]))
    (hopen : (storeAfter default past).state id = .open)
    (hleft : (storeAfter default (past ++ [c])).state id ≠ .open) :
    c.connectionId = id ∧ Released cooldown (openings id (.new default) past) c
      ((storeAfter default (past ++ [c])).state id) := by
  have hb := follows_storeAfter hn hcalls.init id
  have hfixed := hcalls.fixed c (by simp)
  by_cases hid : c.connectionId = id
  · refine ⟨hid, ?_⟩
    have hafter : (storeAfter default (past ++ [c])).state id = _ :=
      congrArg Breaker.state (breaker_storeAfter hid)
    change ((storeAfter default past).breaker id).state = .open at hopen
    rw [hafter] at hleft ⊢
    generalize (storeAfter default past).breaker id = b at hb hopen hleft ⊢
    cases hop : c.op with
    | recordCircuitFailure threshold =>
      obtain rfl : threshold = n := by simpa [BreakerCall.Fixed, hop] using hfixed
      have hfailures := (hb.tripped (by simp [hopen])).1
      have hle : threshold ≤ b.failures + 1 := by omega
      rw [hop, Breaker.step_failure_of_le (by simp [hopen]) hle] at hleft
      exact absurd rfl hleft
    | getCircuitBreakerState cooldownSeconds =>
      have hcooldown : cooldownSeconds.getD default = cooldown := by
        simpa [BreakerCall.Fixed, hop] using hfixed
      obtain ⟨hmem, hle⟩ := hb.openedAt hopen
      rw [hop] at hleft
      by_cases h : b.state = .open ∧ cooldownSeconds.getD default ≤ c.now - b.openedAt
      · rw [Breaker.step_get_of_cooled h]
        refine .cooledDown _ hop (List.ne_nil_of_mem hmem) fun t ht => ?_
        calc cooldown ≤ c.now - b.openedAt := hcooldown ▸ h.2
          _ ≤ c.now - t := sub_le_sub_left (hle t ht) c.now
      · rw [Breaker.step_get_of_not h] at hleft
        exact absurd hopen hleft
    | recordCircuitSuccess => exact .success hop
    | resetCircuitBreaker => exact .reset hop
  · refine absurd ?_ hleft
    exact (congrArg Breaker.state (breaker_storeAfter_of_ne hid)).trans hopen

/-- The state a call returns is the one that is stored behind it. -/
theorem answer_eq_state (hn : 1 ≤ n) (hcalls : RegularCalls n cooldown default (past ++ [c]))
    {state : CircuitState} (hanswer : ((storeAfter default past).call c).1 = some state) :
    (storeAfter default (past ++ [c])).state c.connectionId = state := by
  have hb := follows_storeAfter hn hcalls.init c.connectionId
  have hfixed := hcalls.fixed c (by simp)
  have hafter : (storeAfter default (past ++ [c])).state c.connectionId = _ :=
    congrArg Breaker.state (breaker_storeAfter rfl)
  rw [MemoryBreakers.breaker_call.1, storeAfter_cooldown] at hanswer
  rw [hafter]
  generalize (storeAfter default past).breaker c.connectionId = b at hb hanswer ⊢
  cases hop : c.op with
  | getCircuitBreakerState cooldownSeconds =>
    rw [hop] at hanswer
    by_cases h : b.state = .open ∧ cooldownSeconds.getD default ≤ c.now - b.openedAt
    · rw [Breaker.step_get_of_cooled h] at hanswer ⊢
      exact Option.some.inj hanswer
    · rw [Breaker.step_get_of_not h] at hanswer ⊢
      exact Option.some.inj hanswer
  | recordCircuitFailure threshold =>
    obtain rfl : threshold = n := by simpa [BreakerCall.Fixed, hop] using hfixed
    rw [hop] at hanswer
    by_cases hhalf : b.state = .halfOpen
    · rw [Breaker.step_failure_of_halfOpen hhalf] at hanswer ⊢
      exact Option.some.inj hanswer
    · by_cases hle : threshold ≤ b.failures + 1
      · rw [Breaker.step_failure_of_le hhalf hle] at hanswer ⊢
        exact Option.some.inj hanswer
      · -- "CLOSED" is answered only by a breaker that has not tripped
        have hclosed : b.state = .closed := by
          by_contra hno
          have := (hb.tripped hno).1
          omega
        rw [Breaker.step_failure_of_lt hhalf (by omega)] at hanswer ⊢
        exact hclosed.trans (Option.some.inj hanswer)
  | recordCircuitSuccess =>
    rw [hop] at hanswer
    exact Option.some.inj hanswer
  | resetCircuitBreaker =>
    rw [hop] at hanswer
    cases hanswer

/-- What the call `c` behind the calls `past` does to the breaker of `id`. -/
structure BreakerLaws (n : ℤ) (cooldown default : τ) (past : List (BreakerCall τ))
    (c : BreakerCall τ) (id : String) : Prop where
  /-- It opens at the `n`-th failure since the last success or reset, or when half open. -/
  opens : (storeAfter default past).state id ≠ .open ∧
      (storeAfter default (past ++ [c])).state id = .open ↔
    c.connectionId = id ∧ c.IsFailure ∧
      (failuresSince id (past ++ [c]) = n ∨ (storeAfter default past).state id = .halfOpen)
  /-- It stays open until a success, a reset, or a look after the cooldown. -/
  leaves : (storeAfter default past).state id = .open →
    (storeAfter default (past ++ [c])).state id ≠ .open →
      c.connectionId = id ∧ Released cooldown (openings id (.new default) past) c
        ((storeAfter default (past ++ [c])).state id)
  /-- The answer is the state that is stored. -/
  answer : ∀ state, ((storeAfter default past).call c).1 = some state →
    (storeAfter default (past ++ [c])).state c.connectionId = state
  /-- A call on another connection changes no entry. -/
  frame : c.connectionId ≠ id →
    (storeAfter default (past ++ [c])).circuitFailures id =
        (storeAfter default past).circuitFailures id ∧
      (storeAfter default (past ++ [c])).circuitState id =
        (storeAfter default past).circuitState id ∧
      (storeAfter default (past ++ [c])).circuitOpenedAt id =
        (storeAfter default past).circuitOpenedAt id

/-- **The circuit breaker machine**: over every history with a fixed threshold, a fixed cooldown
and a clock that does not go back, for every connection. -/
theorem breaker_machine [IsOrderedAddMonoid τ] (hn : 1 ≤ n)
    (hcalls : RegularCalls n cooldown default (past ++ [c])) (id : String) :
    BreakerLaws n cooldown default past c id where
  opens := opens_iff hn hcalls
  leaves := leaves_open hn hcalls
  answer := fun _ => answer_eq_state hn hcalls
  frame := by
    intro hid
    rw [storeAfter, Machine.exec_concat]
    exact MemoryBreakers.call_frame.2 id hid

end Machine

/-- Two failures of "db", a look after the cooldown, and one more failure. -/
def dbOutage : List (BreakerCall ℚ) :=
  [⟨"db", 0, .recordCircuitFailure 2⟩, ⟨"mq", 1, .recordCircuitFailure 2⟩,
    ⟨"db", 1, .recordCircuitFailure 2⟩, ⟨"db", 6, .getCircuitBreakerState none⟩]

theorem breaker_machine_dbOutage :
    RegularCalls 2 5 5 (dbOutage ++ [⟨"db", 7, .recordCircuitFailure 2⟩]) ∧
      ∀ id, BreakerLaws 2 5 5 dbOutage ⟨"db", 7, .recordCircuitFailure 2⟩ id := by
  have hcalls : RegularCalls 2 5 5 (dbOutage ++ [⟨"db", 7, .recordCircuitFailure 2⟩]) := by
    refine ⟨?_, ?_⟩
    · simp [dbOutage, BreakerCall.Fixed]
    · simp only [dbOutage]
      decide +kernel
  exact ⟨hcalls, breaker_machine (by omega) hcalls⟩

end History

end FlowMesh
