import FlowMesh.Library.Crew
import FlowMesh.StateStore.Redis

/-!
# Interleaved commands on one breaker

`RedisStateStore`'s circuit breaker calls on one connection, as the Redis commands that they
send. The scripts of `get_circuit_breaker_state` and `record_circuit_failure` are one command
each; `record_circuit_success` and `reset_circuit_breaker` send three, and the commands of other
workers may come in between. The clock is read before a script is sent, so its reading is an
argument of the call.

A log records what happens to the stored state. `Kept` says that an open breaker has its
`opened_at`, which is the time of its last opening, and that it was half-opened only after the
cooldown. It holds in every state of a run exactly if no success or reset deletes `opened_at`
while the breaker is stored as open (`kept_iff`): a trip that comes in between its second and its
third command is what goes wrong.
-/

namespace FlowMesh

open Async

/-! ## The commands -/

/-- The commands on the keys of the connection. -/
inductive RedisCommand (τ : Type)
  | evalState (cooldown now : τ)
  | evalFailure (threshold : ℤ) (now : τ)
  | set (k : BreakerKey) (value : String)
  | delete (k : BreakerKey)

/-- What a command answers. -/
def RedisCommand.Res {τ : Type} : RedisCommand τ → Type
  | .evalState _ _ => RedisValue τ
  | .evalFailure _ _ => RedisValue τ
  | .set _ _ => Unit
  | .delete _ => Unit

/-- What happened to the stored state: it was opened or half-opened by a script with this
reading of the clock, or closed. -/
inductive BreakerEvent (τ : Type)
  | opened (now : τ)
  | halfOpened (cooldown now : τ)
  | closed

/-- The keys, and the log, latest event first. -/
structure LoggedBreaker (τ : Type) where
  keys : Keyspace τ
  log : List (BreakerEvent τ)

section Commands

variable {τ : Type} [Sub τ] [Zero τ] [LE τ] [DecidableLE τ] (id : String)

/-- What a command does on the keys of the connection `id`. -/
def LoggedBreaker.handle (_i : ℕ) (_c : Unit) :
    Handler (RedisCommand τ) RedisCommand.Res String (LoggedBreaker τ)
  | .evalState cooldown now, s =>
    let wasOpen := (s.keys.state id).is "OPEN"
    let (state, keys) := s.keys.getCircuitBreakerState id cooldown now
    (.ok state,
      ⟨keys, if wasOpen && state.is "HALF-OPEN" then .halfOpened cooldown now :: s.log else s.log⟩)
  | .evalFailure threshold now, s =>
    let (answer, keys) := s.keys.recordCircuitFailure id threshold now
    match answer with
    | .ok state => (.ok state, ⟨keys, if state.is "OPEN" then .opened now :: s.log else s.log⟩)
    | .error e => (.error e, ⟨keys, s.log⟩)
  | .set k value, s =>
    (.ok (), ⟨s.keys.set (k.text id) (.text value),
      if k = .state ∧ value = "CLOSED" then .closed :: s.log else s.log⟩)
  | .delete k, s => (.ok (), ⟨s.keys.delete (k.text id), s.log⟩)

/-! ## The calls -/

/-- A program of a worker. -/
abbrev BreakerProg (τ : Type) : Type → Type := Prog (RedisCommand τ) RedisCommand.Res String

namespace BreakerProg

/-- `get_circuit_breaker_state`. -/
def getCircuitBreakerState (default : τ) (cooldownSeconds : Option τ) (now : τ) :
    BreakerProg τ (RedisValue τ) :=
  Prog.perform (RedisCommand.evalState (cooldownSeconds.getD default) now)

/-- `record_circuit_failure`. -/
def recordCircuitFailure (threshold : ℤ) (now : τ) : BreakerProg τ (RedisValue τ) :=
  Prog.perform (RedisCommand.evalFailure threshold now)

/-- `reset_circuit_breaker`. -/
def resetCircuitBreaker : BreakerProg τ Unit := do
  let _ ← Prog.perform (.delete .failures)
  let _ ← Prog.perform (.set .state "CLOSED")
  let _ ← Prog.perform (.delete .openedAt)
  return ()

/-- `record_circuit_success`. -/
def recordCircuitSuccess : BreakerProg τ (RedisValue τ) := do
  let _ ← Prog.perform (.delete .failures)
  let _ ← Prog.perform (.set .state "CLOSED")
  let _ ← Prog.perform (.delete .openedAt)
  return .text "CLOSED"

/-- A call, made at a reading of the clock. -/
def ofCall (default now : τ) : BreakerOp τ → BreakerProg τ (Option (RedisValue τ))
  | .getCircuitBreakerState cooldownSeconds =>
    some <$> getCircuitBreakerState default cooldownSeconds now
  | .recordCircuitFailure threshold => some <$> recordCircuitFailure threshold now
  | .recordCircuitSuccess => some <$> recordCircuitSuccess
  | .resetCircuitBreaker => (fun _ => none) <$> resetCircuitBreaker

end BreakerProg

/-- Workers with a call each, on an empty database. -/
def breakerCrew (default : τ) (calls : List (τ × BreakerOp τ)) :
    Crew (RedisCommand τ) RedisCommand.Res String (LoggedBreaker τ) (Option (RedisValue τ)) :=
  ⟨⟨fun _ => none, []⟩, calls.map fun c => BreakerProg.ofCall default c.1 c.2⟩

end Commands

/-! ## What an open breaker keeps -/

section Kept

variable {τ : Type}

/-- The state that the log tells. -/
def stateOf : List (BreakerEvent τ) → CircuitState
  | [] => .closed
  | .opened _ :: _ => .open
  | .halfOpened _ _ :: _ => .halfOpen
  | .closed :: _ => .closed

/-- The time of the last opening. -/
def lastOpened : List (BreakerEvent τ) → Option τ
  | [] => none
  | .opened now :: _ => some now
  | _ :: log => lastOpened log

/-- The breaker was half-opened only when the cooldown after its last opening was over. -/
def Cooled [Sub τ] [LE τ] : List (BreakerEvent τ) → Prop
  | [] => True
  | .halfOpened cooldown now :: log =>
    (∃ t ∈ lastOpened log, cooldown ≤ now - t) ∧ Cooled log
  | _ :: log => Cooled log

variable [Sub τ] [Zero τ] [LE τ] [DecidableLE τ]

/-- The log tells the stored state, an open breaker has the time of its last opening as its
`opened_at`, and it stays open for the cooldown unless it is closed. -/
structure Kept (id : String) (s : LoggedBreaker τ) : Prop where
  stored : s.keys.state id = .text (stateOf s.log).text
  present : stateOf s.log = .open →
    ∃ t, s.keys (BreakerKey.openedAt.text id) = some (.time t) ∧ lastOpened s.log = some t
  cooled : Cooled s.log

/-- The command does not delete `opened_at` while the breaker is stored as open. -/
def Spares (id : String) (_i : ℕ) (_c : Unit) (o : RedisCommand τ) (s : LoggedBreaker τ) : Prop :=
  match o with
  | .delete .openedAt => (s.keys.state id).is "OPEN" = false
  | _ => True

/-- The commands that the calls send. -/
def RedisCommand.Sent : RedisCommand τ → Prop
  | .set k value => k = .state ∧ value = "CLOSED"
  | .delete k => k ≠ .state
  | _ => True

variable {id : String} {s : LoggedBreaker τ} {o : RedisCommand τ}

omit [Sub τ] [Zero τ] [LE τ] [DecidableLE τ] in
theorem is_state_iff {log : List (BreakerEvent τ)} (state : CircuitState)
    (h : s.keys.state id = .text (stateOf log).text) :
    (s.keys.state id).is state.text = true ↔ stateOf log = state := by
  rw [h]
  exact is_text_iff _ _

omit [Zero τ] [DecidableLE τ] in
/-- The writes that open the breaker. -/
theorem Kept.trip {keys : Keyspace τ} {now : τ} (h : Cooled s.log) :
    Kept id ⟨(keys.set (BreakerKey.state.text id) (.text "OPEN")).set
      (BreakerKey.openedAt.text id) (.time now), .opened now :: s.log⟩ where
  stored := by simp [Keyspace.state, stateOf, CircuitState.text]
  present := fun _ => ⟨now, by simp, rfl⟩
  cooled := h

theorem Kept.evalState (h : Kept id s) (cooldown now : τ) :
    Kept id (LoggedBreaker.handle id 0 () (.evalState cooldown now) s).2 := by
  have hopen : (s.keys.state id).is "OPEN" = true ↔ stateOf s.log = .open :=
    is_state_iff .open h.stored
  by_cases hstate : stateOf s.log = .open
  · obtain ⟨t, hkey, hlast⟩ := h.present hstate
    have ht : s.keys.openedAt id = t := by simp [Keyspace.openedAt, hkey, RedisValue.toTime]
    by_cases hcool : cooldown ≤ now - t
    · simp only [LoggedBreaker.handle, Keyspace.getCircuitBreakerState, hopen.2 hstate, if_true,
        ht, hcool]
      refine ⟨?_, ?_, ⟨t, hlast, hcool⟩, h.cooled⟩
      · simp [Keyspace.state, RedisValue.is, stateOf, CircuitState.text]
      · intro hne
        simp [RedisValue.is, stateOf] at hne
    · have hstill : ((s.keys.state id).is "HALF-OPEN") = false := by
        rw [h.stored, hstate]
        simp [RedisValue.is, CircuitState.text]
      simp only [LoggedBreaker.handle, Keyspace.getCircuitBreakerState, hopen.2 hstate, if_true,
        ht, hcool, if_false, hstill]
      exact h
  · have hclosed : (s.keys.state id).is "OPEN" = false :=
      Bool.eq_false_iff.2 fun hopen' => hstate (hopen.1 hopen')
    simp only [LoggedBreaker.handle, Keyspace.getCircuitBreakerState, hclosed]
    exact h

omit [Sub τ] [Zero τ] [LE τ] [DecidableLE τ] in
/-- `INCR` writes the number that it answers, or fails. -/
theorem incr_cases (r : Keyspace τ) (key : String) :
    (∃ n, r.incr key = .ok (n, r.set key (.int n))) ∨ ∃ e, r.incr key = .error e := by
  unfold Keyspace.incr
  split
  · exact Or.inl ⟨1, rfl⟩
  · exact Or.inl ⟨_, rfl⟩
  · exact Or.inr ⟨_, rfl⟩

theorem Kept.evalFailure (h : Kept id s) (threshold : ℤ) (now : τ) :
    Kept id (LoggedBreaker.handle id 0 () (.evalFailure threshold now) s).2 := by
  have hcount : ∀ n : ℤ, Kept id ⟨s.keys.set (BreakerKey.failures.text id) (.int n), s.log⟩ := by
    intro n
    refine ⟨?_, ?_, h.cooled⟩
    · simpa [Keyspace.state] using h.stored
    · simpa using h.present
  simp only [LoggedBreaker.handle, Keyspace.recordCircuitFailure]
  by_cases hhalf : (s.keys.state id).is "HALF-OPEN" = true
  · rw [if_pos hhalf]
    exact Kept.trip h.cooled
  · rw [if_neg hhalf]
    rcases incr_cases s.keys (BreakerKey.failures.text id) with ⟨n, hn⟩ | ⟨e, he⟩
    · rw [hn]
      by_cases htrip : threshold ≤ n
      · simp only [if_pos htrip]
        exact Kept.trip h.cooled
      · simp only [if_neg htrip]
        exact hcount n
    · rw [he]
      exact h

/-- A command that the calls send keeps the breaker, unless it deletes the time of an opening. -/
theorem Kept.handle {i : ℕ} (h : Kept id s) (hsent : o.Sent) (hspares : Spares id i () o s) :
    Kept id (LoggedBreaker.handle id i () o s).2 := by
  cases o with
  | evalState cooldown now => exact h.evalState cooldown now
  | evalFailure threshold now => exact h.evalFailure threshold now
  | set k value =>
    obtain ⟨rfl, rfl⟩ := hsent
    refine ⟨?_, ?_, ?_⟩
    · simp [LoggedBreaker.handle, Keyspace.state, stateOf, CircuitState.text]
    · intro hopen
      simp [LoggedBreaker.handle, stateOf] at hopen
    · simpa [LoggedBreaker.handle, Cooled] using h.cooled
  | delete k =>
    have hstored : (s.keys.delete (k.text id)).state id = .text (stateOf s.log).text := by
      have hne : BreakerKey.state ≠ k := fun hk => hsent hk.symm
      simpa [Keyspace.state, hne] using h.stored
    refine ⟨hstored, fun hopen => ?_, h.cooled⟩
    cases k with
    | state => exact absurd rfl hsent
    | failures => simpa [LoggedBreaker.handle] using h.present hopen
    | openedAt =>
      have hclosed : (s.keys.state id).is "OPEN" = false := hspares
      have hopen' : (s.keys.state id).is "OPEN" = true := (is_state_iff .open h.stored).2 hopen
      rw [hopen'] at hclosed
      cases hclosed

/-- A command that deletes the time of an opening does not keep the breaker. -/
theorem spares_of_kept {i : ℕ} (h : Kept id s) (h' : Kept id (LoggedBreaker.handle id i () o s).2) :
    Spares id i () o s := by
  cases o with
  | delete k =>
    cases k with
    | openedAt =>
      show (s.keys.state id).is "OPEN" = false
      rw [Bool.eq_false_iff]
      intro hopen
      obtain ⟨t, hkey, -⟩ := h'.present ((is_state_iff .open h.stored).1 hopen)
      simp [LoggedBreaker.handle] at hkey
    | _ => trivial
  | _ => trivial

/-! ## Whole runs -/

omit [Sub τ] [Zero τ] [LE τ] [DecidableLE τ] in
/-- The three commands of a success or a reset. -/
theorem uses_closing {α : Type} {p : BreakerProg τ α} (hp : p.Uses RedisCommand.Sent) :
    Prog.Uses RedisCommand.Sent (do
      let _ ← Prog.perform (RedisCommand.delete .failures)
      let _ ← Prog.perform (RedisCommand.set .state "CLOSED")
      let _ ← Prog.perform (RedisCommand.delete .openedAt)
      p : BreakerProg τ α) := by
  apply Prog.Uses.bind (Prog.Uses.perform (by simp [RedisCommand.Sent]))
  intro _
  apply Prog.Uses.bind (Prog.Uses.perform ⟨rfl, rfl⟩)
  intro _
  apply Prog.Uses.bind (Prog.Uses.perform (by simp [RedisCommand.Sent]))
  exact fun _ => hp

omit [Sub τ] [Zero τ] [LE τ] [DecidableLE τ] in
theorem uses_ofCall (default now : τ) (op : BreakerOp τ) :
    (BreakerProg.ofCall default now op).Uses RedisCommand.Sent := by
  cases op with
  | getCircuitBreakerState cooldownSeconds =>
    exact Prog.Uses.bind (Prog.Uses.perform trivial) fun _ => trivial
  | recordCircuitFailure threshold =>
    exact Prog.Uses.bind (Prog.Uses.perform trivial) fun _ => trivial
  | recordCircuitSuccess =>
    exact Prog.Uses.bind (uses_closing (Prog.Uses.ret _)) fun _ => trivial
  | resetCircuitBreaker =>
    exact Prog.Uses.bind (uses_closing (Prog.Uses.ret _)) fun _ => trivial

/-- Every command is one that the calls send. -/
def keptOutline (id : String) :
    Crew.Outline (LoggedBreaker.handle id) (Spares (τ := τ) id) (Option (RedisValue τ)) where
  inv := Kept id
  known _ q _ := q.Uses RedisCommand.Sent
  moves _ _ _ := True
  call hinv hknown hG := ⟨hinv.handle hknown.1 hG, hknown.2 _, trivial⟩
  stable _ _ hknown _ := hknown

/-- **When an open breaker keeps its opening**: along every schedule of the commands of any number
of calls, every state has an open breaker's `opened_at`, and it was half-opened only after its
cooldown, exactly if no success or reset deletes `opened_at` while the breaker is stored as
open. -/
theorem kept_iff (id : String) (default : τ) (calls : List (τ × BreakerOp τ))
    (schedule : List (ℕ × Unit)) :
    (∀ n, Kept id (Crew.play (LoggedBreaker.handle id) (breakerCrew default calls)
        (schedule.take n)).state) ↔
      Crew.Allows (LoggedBreaker.handle id) (Spares id) (breakerCrew default calls) schedule := by
  have hstart : (keptOutline id).Holds (breakerCrew default calls) := by
    refine ⟨⟨rfl, ?_, trivial⟩, ?_⟩
    · intro hopen
      cases hopen
    · intro i q hq
      simp only [breakerCrew, List.getElem?_map, Option.map_eq_some_iff] at hq
      obtain ⟨c, -, rfl⟩ := hq
      exact uses_ofCall default c.1 c.2
  apply hstart.play_iff
  · exact fun s hs => hs
  · intro i c o k s hs _ hnext
    exact spares_of_kept hs hnext

/-- A success is split around a trip. -/
theorem not_kept_split :
    ¬ ∀ (default : ℤ) (calls : List (ℤ × BreakerOp ℤ)) (schedule : List (ℕ × Unit)),
      ∀ n, Kept "conn_pg_01" (Crew.play (LoggedBreaker.handle "conn_pg_01")
        (breakerCrew default calls) (schedule.take n)).state := by
  intro h
  have hsplit := h 5 [(1000, .recordCircuitSuccess), (1000, .recordCircuitFailure 1)]
    [(0, ()), (0, ()), (1, ()), (0, ())] 4
  obtain ⟨t, hkey, -⟩ := hsplit.present (by decide)
  cases hkey

end Kept

end FlowMesh
