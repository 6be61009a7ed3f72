import FlowMesh.StateStore.Memory

/-!
# The circuit breakers in Redis

`RedisStateStore`'s circuit breaker calls: the Lua scripts and commands over one keyspace, with
the keys the source formats. A script runs atomically, so a call is one step here. Redis stores
texts; a number that was written with `str` reads back as itself, so a stored value is a text, an
integer or a time, and counters do not overflow.

Both stores hold the same breaker for every connection (`Keyspace.Holds`, which every call
keeps), so they answer every sequence of calls alike (`redis_agrees`).
-/

namespace FlowMesh

/-! ## The keyspace -/

/-- A stored value. -/
inductive RedisValue (τ : Type)
  | text (s : String)
  | int (n : ℤ)
  | time (t : τ)

/-- `tonumber(value) or 0` of a time. -/
def RedisValue.toTime {τ : Type} [Zero τ] : RedisValue τ → τ
  | .time t => t
  | _ => 0

/-- `value == s`. -/
def RedisValue.is {τ : Type} (v : RedisValue τ) (s : String) : Bool :=
  match v with
  | .text t => t = s
  | _ => false

/-- The values of a Redis database, by key. -/
abbrev Keyspace (τ : Type) : Type := String → Option (RedisValue τ)

namespace Keyspace

variable {τ : Type}

/-- `SET key value`. -/
def set (r : Keyspace τ) (key : String) (value : RedisValue τ) : Keyspace τ :=
  Function.update r key (some value)

/-- `DEL key`. -/
def delete (r : Keyspace τ) (key : String) : Keyspace τ := Function.update r key none

/-- `INCR key`: a missing key counts as 0. -/
def incr (r : Keyspace τ) (key : String) : Except String (ℤ × Keyspace τ) :=
  match r key with
  | none => .ok (1, r.set key (.int 1))
  | some (.int n) => .ok (n + 1, r.set key (.int (n + 1)))
  | some _ => .error "ERR value is not an integer or out of range"

end Keyspace

/-- The three keys of a connection. -/
inductive BreakerKey
  | state
  | openedAt
  | failures
  deriving DecidableEq

/-- The text of a key. -/
def BreakerKey.text (k : BreakerKey) (connectionId : String) : String :=
  match k with
  | .state => "cb:" ++ connectionId ++ ":state"
  | .openedAt => "cb:" ++ connectionId ++ ":opened_at"
  | .failures => "cb:" ++ connectionId ++ ":failures"

/-- The last character of a key. -/
def BreakerKey.last : BreakerKey → Char
  | .state => 'e'
  | .openedAt => 't'
  | .failures => 's'

theorem BreakerKey.getLast?_text (k : BreakerKey) (id : String) :
    (k.text id).toList.getLast? = some k.last := by
  cases k <;> rw [text, String.toList_append, List.getLast?_append] <;> rfl

/-- The keys of different connections do not clash, nor do the keys of one. -/
theorem BreakerKey.text_inj {k k' : BreakerKey} {id id' : String} :
    k.text id = k'.text id' ↔ k = k' ∧ id = id' := by
  constructor
  · intro h
    obtain rfl : k = k' := by
      have hlast := congrArg (fun s => s.toList.getLast?) h
      simp only [getLast?_text, Option.some.injEq] at hlast
      revert hlast
      cases k <;> cases k' <;> simp [last]
    refine ⟨rfl, ?_⟩
    cases k <;> simpa [text, String.append_left_inj, String.append_right_inj] using h
  · rintro ⟨rfl, rfl⟩
    rfl

/-! ## `RedisStateStore` -/

/-- The database and the default cooldown of a `RedisStateStore`. -/
structure RedisBreakers (τ : Type) where
  keys : Keyspace τ
  defaultCooldownSeconds : τ

namespace RedisBreakers

variable {τ : Type} [Sub τ] [Zero τ] [LE τ] [DecidableLE τ]

/-- `RedisStateStore(default_cooldown_seconds)` on an empty database. -/
def new (defaultCooldownSeconds : τ) : RedisBreakers τ := ⟨fun _ => none, defaultCooldownSeconds⟩

end RedisBreakers

namespace Keyspace

variable {τ : Type} [Sub τ] [Zero τ] [LE τ] [DecidableLE τ] (r : Keyspace τ) (id : String)

/-- `redis.call("GET", KEYS[1]) or "CLOSED"`. -/
def state : RedisValue τ := (r (BreakerKey.state.text id)).getD (.text "CLOSED")

/-- `tonumber(redis.call("GET", KEYS[2])) or 0`. -/
def openedAt : τ := ((r (BreakerKey.openedAt.text id)).map RedisValue.toTime).getD 0

/-- The script of `get_circuit_breaker_state`. -/
def getCircuitBreakerState (cooldown now : τ) : RedisValue τ × Keyspace τ :=
  let state := r.state id
  if state.is "OPEN" then
    if cooldown ≤ now - r.openedAt id then
      (.text "HALF-OPEN", r.set (BreakerKey.state.text id) (.text "HALF-OPEN"))
    else (state, r)
  else (state, r)

/-- The script of `record_circuit_failure`. -/
def recordCircuitFailure (threshold : ℤ) (now : τ) : Except String (RedisValue τ) × Keyspace τ :=
  if (r.state id).is "HALF-OPEN" then
    (.ok (.text "OPEN"),
      (r.set (BreakerKey.state.text id) (.text "OPEN")).set (BreakerKey.openedAt.text id)
        (.time now))
  else
    match r.incr (BreakerKey.failures.text id) with
    | .error e => (.error e, r)
    | .ok (count, r) =>
      if threshold ≤ count then
        (.ok (.text "OPEN"),
          (r.set (BreakerKey.state.text id) (.text "OPEN")).set (BreakerKey.openedAt.text id)
            (.time now))
      else (.ok (.text "CLOSED"), r)

/-- `reset_circuit_breaker`, and what `record_circuit_success` does. -/
def resetCircuitBreaker : Keyspace τ :=
  ((r.delete (BreakerKey.failures.text id)).set (BreakerKey.state.text id)
    (.text "CLOSED")).delete (BreakerKey.openedAt.text id)

end Keyspace

namespace RedisBreakers

variable {τ : Type} [Sub τ] [Zero τ] [LE τ] [DecidableLE τ] (s : RedisBreakers τ)

/-- Answer a call. -/
def call (c : BreakerCall τ) : Except String (Option (RedisValue τ)) × RedisBreakers τ :=
  match c.op with
  | .getCircuitBreakerState cooldownSeconds =>
    let cooldown := cooldownSeconds.getD s.defaultCooldownSeconds
    let (state, keys) := s.keys.getCircuitBreakerState c.connectionId cooldown c.now
    (.ok (some state), { s with keys })
  | .recordCircuitFailure threshold =>
    let (state, keys) := s.keys.recordCircuitFailure c.connectionId threshold c.now
    (state.map some, { s with keys })
  | .recordCircuitSuccess =>
    (.ok (some (.text "CLOSED")), { s with keys := s.keys.resetCircuitBreaker c.connectionId })
  | .resetCircuitBreaker =>
    (.ok none, { s with keys := s.keys.resetCircuitBreaker c.connectionId })

end RedisBreakers

/-! ## Both stores agree -/

section Agreement

variable {τ : Type}

theorem is_text_iff (state state' : CircuitState) :
    (RedisValue.text state.text : RedisValue τ).is state'.text = true ↔ state = state' := by
  cases state <;> cases state' <;> simp [RedisValue.is, CircuitState.text]

section

variable [Zero τ]

/-- The keys of the connection hold the breaker. -/
structure Keyspace.Holds (r : Keyspace τ) (id : String) (b : Breaker τ) : Prop where
  state : r.state id = .text b.state.text
  openedAt : r.openedAt id = b.openedAt
  failures : r (BreakerKey.failures.text id) = some (.int b.failures) ∨
    r (BreakerKey.failures.text id) = none ∧ b.failures = 0

variable {r : Keyspace τ} {id : String} {b : Breaker τ}

/-- `INCR` counts the failure. -/
theorem Keyspace.Holds.incr (h : r.Holds id b) :
    r.incr (BreakerKey.failures.text id) =
      .ok (b.failures + 1, r.set (BreakerKey.failures.text id) (.int (b.failures + 1))) := by
  rcases h.failures with hsome | ⟨hnone, hzero⟩
  · rw [Keyspace.incr, hsome]
  · rw [Keyspace.incr, hnone, hzero]
    rfl

/-- Writing another connection's keys leaves the breaker alone. -/
theorem Keyspace.Holds.congr {r' : Keyspace τ} (h : r.Holds id b)
    (hkeys : ∀ k : BreakerKey, r' (k.text id) = r (k.text id)) : r'.Holds id b where
  state := by
    rw [Keyspace.state, hkeys]
    exact h.state
  openedAt := by
    rw [Keyspace.openedAt, hkeys]
    exact h.openedAt
  failures := by
    rw [hkeys]
    exact h.failures

omit [Zero τ] in
@[simp] theorem Keyspace.set_text (k k' : BreakerKey) (id' : String) (v : RedisValue τ) :
    r.set (k.text id) v (k'.text id') =
      if k' = k ∧ id' = id then some v else r (k'.text id') := by
  simp only [Keyspace.set, Function.update_apply, BreakerKey.text_inj]

omit [Zero τ] in
@[simp] theorem Keyspace.delete_text (k k' : BreakerKey) (id' : String) :
    r.delete (k.text id) (k'.text id') = if k' = k ∧ id' = id then none else r (k'.text id') := by
  simp only [Keyspace.delete, Function.update_apply, BreakerKey.text_inj]

theorem Keyspace.Holds.reset : (r.resetCircuitBreaker id).Holds id .closed where
  state := by simp [Keyspace.resetCircuitBreaker, Keyspace.state, Breaker.closed, CircuitState.text]
  openedAt := by simp [Keyspace.resetCircuitBreaker, Keyspace.openedAt, Breaker.closed]
  failures := by simp [Keyspace.resetCircuitBreaker, Breaker.closed]

/-- The writes that open a breaker. -/
theorem Keyspace.Holds.trip {failures : ℤ} {now : τ}
    (hfailures : r (BreakerKey.failures.text id) = some (.int failures) ∨
      r (BreakerKey.failures.text id) = none ∧ failures = 0) :
    ((r.set (BreakerKey.state.text id) (.text "OPEN")).set (BreakerKey.openedAt.text id)
      (.time now)).Holds id ⟨.open, failures, now⟩ where
  state := by simp [Keyspace.state, CircuitState.text]
  openedAt := by simp [Keyspace.openedAt, RedisValue.toTime]
  failures := by simpa using hfailures

end

variable [Sub τ] [Zero τ] [LE τ] [DecidableLE τ] {s : RedisBreakers τ} {c : BreakerCall τ}
  {b : Breaker τ}

/-- An answer of the memory store, as Redis gives it. -/
def redisAnswer (answer : Option CircuitState) : Except String (Option (RedisValue τ)) :=
  .ok (answer.map fun state => .text state.text)

/-- A call is a step of the breaker that the keys hold. -/
theorem RedisBreakers.holds_call (h : s.keys.Holds c.connectionId b) :
    (s.call c).1 = redisAnswer (b.step s.defaultCooldownSeconds c.now c.op).1 ∧
      (s.call c).2.keys.Holds c.connectionId (b.step s.defaultCooldownSeconds c.now c.op).2 := by
  obtain ⟨id, now, op⟩ := c
  cases op with
  | getCircuitBreakerState cooldownSeconds =>
    have hopen : (RedisValue.text b.state.text : RedisValue τ).is "OPEN" = true ↔ b.state = .open :=
      is_text_iff b.state .open
    simp only [call, Keyspace.getCircuitBreakerState, h.state, h.openedAt, hopen]
    by_cases hstate : b.state = .open
    · by_cases hcool : cooldownSeconds.getD s.defaultCooldownSeconds ≤ now - b.openedAt
      · rw [Breaker.step_get_of_cooled ⟨hstate, hcool⟩, if_pos hstate, if_pos hcool]
        refine ⟨rfl, ?_, ?_, ?_⟩
        · simp [Keyspace.state, CircuitState.text]
        · simpa [Keyspace.openedAt] using h.openedAt
        · simpa using h.failures
      · rw [Breaker.step_get_of_not fun h => hcool h.2, if_pos hstate, if_neg hcool]
        exact ⟨rfl, h⟩
    · rw [Breaker.step_get_of_not fun h => hstate h.1, if_neg hstate]
      exact ⟨rfl, h⟩
  | recordCircuitFailure threshold =>
    have hhalf : (RedisValue.text b.state.text : RedisValue τ).is "HALF-OPEN" = true ↔
        b.state = .halfOpen := is_text_iff b.state .halfOpen
    simp only [call, Keyspace.recordCircuitFailure, h.state, hhalf, h.incr]
    by_cases hstate : b.state = .halfOpen
    · rw [Breaker.step_failure_of_halfOpen hstate, if_pos hstate]
      exact ⟨rfl, .trip h.failures⟩
    · by_cases hcount : threshold ≤ b.failures + 1
      · rw [Breaker.step_failure_of_le hstate hcount, if_neg hstate, if_pos hcount]
        exact ⟨rfl, .trip (Or.inl (by simp))⟩
      · rw [Breaker.step_failure_of_lt hstate (not_le.1 hcount), if_neg hstate, if_neg hcount]
        refine ⟨rfl, ?_, ?_, Or.inl (by simp)⟩
        · simpa [Keyspace.state] using h.state
        · simpa [Keyspace.openedAt] using h.openedAt
  | recordCircuitSuccess => exact ⟨rfl, .reset⟩
  | resetCircuitBreaker => exact ⟨rfl, .reset⟩

/-- A call leaves the keys of the other connections alone, and the default cooldown. -/
theorem RedisBreakers.call_frame :
    (s.call c).2.defaultCooldownSeconds = s.defaultCooldownSeconds ∧
      ∀ id, c.connectionId ≠ id → ∀ k : BreakerKey,
        (s.call c).2.keys (k.text id) = s.keys (k.text id) := by
  obtain ⟨connectionId, now, op⟩ := c
  refine ⟨by cases op <;> rfl, fun id hid k => ?_⟩
  have hne : id ≠ connectionId := fun h => hid h.symm
  cases op with
  | getCircuitBreakerState cooldownSeconds =>
    simp only [call, Keyspace.getCircuitBreakerState]
    split_ifs <;> simp [hne]
  | recordCircuitFailure threshold =>
    simp only [call, Keyspace.recordCircuitFailure]
    split_ifs with hhalf
    · simp [hne]
    · cases hkey : s.keys (BreakerKey.failures.text connectionId) with
      | none =>
        simp only [Keyspace.incr, hkey]
        split_ifs <;> simp [hne]
      | some v =>
        cases v with
        | int n =>
          simp only [Keyspace.incr, hkey]
          split_ifs <;> simp [hne]
        | text t => simp [Keyspace.incr, hkey]
        | time t => simp [Keyspace.incr, hkey]
  | recordCircuitSuccess => simp [call, Keyspace.resetCircuitBreaker, hne]
  | resetCircuitBreaker => simp [call, Keyspace.resetCircuitBreaker, hne]

/-- The two stores hold the same breakers, and have the same default cooldown. -/
def Alike (m : MemoryBreakers τ) (s : RedisBreakers τ) : Prop :=
  m.defaultCooldownSeconds = s.defaultCooldownSeconds ∧
    ∀ id, s.keys.Holds id (m.breaker id)

omit [Sub τ] [LE τ] [DecidableLE τ] in
theorem alike_new (cooldown : τ) : Alike (.new cooldown) (.new cooldown) := by
  refine ⟨rfl, fun id => ⟨rfl, rfl, Or.inr ⟨rfl, rfl⟩⟩⟩

/-- A call is answered alike, and keeps the stores alike. -/
theorem Alike.call {m : MemoryBreakers τ} (h : Alike m s) :
    redisAnswer (m.call c).1 = (s.call c).1 ∧ Alike (m.call c).2 (s.call c).2 := by
  obtain ⟨hcooldown, hholds⟩ := h
  obtain ⟨hanswer, hkeys⟩ := RedisBreakers.holds_call (hholds c.connectionId)
  rw [← hcooldown] at hanswer hkeys
  refine ⟨?_, ?_, fun id => ?_⟩
  · rw [hanswer, MemoryBreakers.breaker_call.1]
  · rw [MemoryBreakers.call_frame.1, RedisBreakers.call_frame.1, hcooldown]
  · by_cases hid : c.connectionId = id
    · subst hid
      rw [MemoryBreakers.breaker_call.2]
      exact hkeys
    · rw [MemoryBreakers.breaker_call_of_ne id hid]
      exact (hholds id).congr (RedisBreakers.call_frame.2 id hid)

/-- **Both backends agree**: whatever the sequence of calls, over whatever connections, the
answers are the same, one by one. -/
theorem redis_agrees (cooldown : τ) (calls : List (BreakerCall τ)) :
    (Machine.answers MemoryBreakers.call (.new cooldown) calls).map redisAnswer =
      Machine.answers RedisBreakers.call (.new cooldown) calls := by
  refine Machine.answers_of_simulation (R := Alike) ?_ (alike_new cooldown) calls
  intro m s c h
  exact h.call

end Agreement

end FlowMesh
