import FlowMesh.Library.Dict
import FlowMesh.Library.Machine
import FlowMesh.Python.Value

/-!
# The cache

`RedisCacheService` (`services/enterprise-worker`): values go to Redis, or to a map in memory where
Redis does not take them, and reading falls through from the one to the other. A call says whether
it finds Redis; an entry of Redis can expire at any time. Redis that is found still refuses a value
that is to live for less than a millisecond, and the exception sends it to the map.

The two stores are not reconciled. `never_back_in_time_iff` says when, all along a run, `get` gives
the value of the last `put`, or nothing: no call may leave an entry of the other store behind.
-/

namespace FlowMesh.Enterprise

open Python

/-! ## The service -/

/-- `RedisCacheService` with the database that it talks to; values are not `null`. -/
structure CacheService where
  redis : Dict String Json := .empty
  fallbackCache : Dict String Json := .empty
  hitCount : ℕ := 0
  missCount : ℕ := 0

/-- A call; `up` says that it finds Redis, and one that answers with an error of its own (out of
memory, an expiry beyond its range) is not found. An entry of Redis expires without a call. -/
inductive CacheCall
  | put (up : Bool) (key : String) (value : Json) (ttl : Option ℤ)
  | get (up : Bool) (key : String)
  | evict (up : Bool) (key : String)
  | expire (key : String)

/-- What a call returns. -/
inductive CacheAnswer
  | done
  | value (v : Option Json)
  | evicted (b : Bool)

namespace CacheService

/-- The expiry that goes along with a value is one that Redis takes: there is none, or it is
positive in whole milliseconds. -/
def takesExpiry (ttl : Option ℤ) : Bool := ttl.all fun millis => 0 < millis

/-- `put`; the duration `ttl` is given in milliseconds. -/
def put (up : Bool) (key : String) (value : Json) (ttl : Option ℤ) (s : CacheService) :
    CacheService :=
  if up && takesExpiry ttl then { s with redis := s.redis.set key value }
  -- Redis is down, or it answers `invalid expire time`
  else { s with fallbackCache := s.fallbackCache.set key value }

/-- What `get` finds. -/
def find? (up : Bool) (key : String) (s : CacheService) : Option Json :=
  match if up then s.redis.get? key else none with
  | some v => some v
  | none => s.fallbackCache.get? key

/-- `get`. -/
def get (up : Bool) (key : String) (s : CacheService) : Option Json × CacheService :=
  match s.find? up key with
  | some v => (some v, { s with hitCount := s.hitCount + 1 })
  | none => (none, { s with missCount := s.missCount + 1 })

/-- `evict`. -/
def evict (up : Bool) (key : String) (s : CacheService) : Bool × CacheService :=
  (up && (s.redis.get? key).isSome || (s.fallbackCache.get? key).isSome,
    { s with
      redis := if up then s.redis.erase key else s.redis
      fallbackCache := s.fallbackCache.erase key })

/-- The entries that the constructor puts into the map in memory. -/
def demoEntries : List (String × Json) :=
  [("tenant:tenant_acme:config", .obj [("currency", .str "USD"), ("rateLimit", .int 500),
      ("region", .str "us-east-1")]),
    ("tenant:tenant_prod:config", .obj [("currency", .str "EUR"), ("rateLimit", .int 2000),
      ("region", .str "eu-west-1")]),
    ("catalog:adapters:active", .list [.str "POSTGRESQL", .str "ORACLE", .str "SQL_SERVER"])]

/-- The constructor, over a Redis without entries. -/
def new : CacheService where
  fallbackCache := demoEntries.foldl (fun cache p => cache.set p.1 p.2) .empty

end CacheService

/-- What a call does. -/
def CacheCall.step (s : CacheService) : CacheCall → CacheAnswer × CacheService
  | .put up key value ttl => (.done, s.put up key value ttl)
  | .get up key =>
    let (v, s) := s.get up key
    (.value v, s)
  | .evict up key =>
    let (b, s) := s.evict up key
    (.evicted b, s)
  | .expire key => (.done, { s with redis := s.redis.erase key })

/-! ## What is expected -/

/-- The value of the last `put` of every key, unless the key was evicted since. -/
abbrev Expected := String → Option Json

/-- What is expected after a call. -/
def CacheCall.expect (expected : Expected) : CacheCall → Expected
  | .put _ key value _ => Function.update expected key (some value)
  | .evict _ key => Function.update expected key none
  | .get _ _ | .expire _ => expected

/-- A call, with what is expected after it. -/
def CacheCall.logged (m : CacheService × Expected) (c : CacheCall) :
    CacheAnswer × (CacheService × Expected) :=
  let (answer, s) := c.step m.1
  (answer, s, c.expect m.2)

/-- A `get` of the key, whether it finds Redis or not, gives nothing or what is expected. -/
def Current (key : String) (m : CacheService × Expected) : Prop :=
  ∀ up v, (m.1.get up key).1 = some v → m.2 key = some v

/-- The call leaves nothing else behind in the other store. -/
def Reconciles (key : String) (m : CacheService × Expected) : CacheCall → Prop
  | .put up key' value ttl => key' = key →
      ∀ v, (if up && CacheService.takesExpiry ttl then m.1.fallbackCache.get? key
        else m.1.redis.get? key) = some v → v = value
  | .evict false key' => key' = key → m.1.redis.get? key = none
  | _ => True

/-! ## One call -/

variable {key : String} {s : CacheService} {expected : Expected}

theorem CacheService.get_fst (up : Bool) : (s.get up key).1 = s.find? up key := by
  unfold get
  cases s.find? up key <;> rfl

theorem current_iff : Current key (s, expected) ↔
    (∀ v, s.redis.get? key = some v → expected key = some v) ∧
      ∀ v, s.fallbackCache.get? key = some v → expected key = some v := by
  unfold Current
  simp only [CacheService.get_fst]
  constructor
  · refine fun h => ⟨fun v hv => h true v ?_, fun v hv => h false v ?_⟩
    · simp [CacheService.find?, hv]
    · simpa [CacheService.find?] using hv
  · rintro ⟨hredis, hfallback⟩ up v hv
    unfold CacheService.find? at hv
    split at hv
    · next w hw =>
      cases hv
      cases up with
      | false => cases hw
      | true => exact hredis _ hw
    · exact hfallback v hv

theorem CacheService.get_snd (up : Bool) (key' : String) :
    (s.get up key').2.redis = s.redis ∧ (s.get up key').2.fallbackCache = s.fallbackCache := by
  unfold get
  cases s.find? up key' <;> exact ⟨rfl, rfl⟩

/-- A call keeps the entries current exactly if it reconciles the stores. -/
theorem current_step_iff (h : Current key (s, expected)) (c : CacheCall) :
    Current key (c.logged (s, expected)).2 ↔ Reconciles key (s, expected) c := by
  have hcurrent := current_iff.1 h
  cases c with
  | put up key' value ttl =>
    show Current key (s.put up key' value ttl, Function.update expected key' (some value)) ↔ _
    rw [current_iff]
    by_cases hkey : key' = key
    · subst hkey
      -- the value goes to one of the two stores
      cases hredis : up && CacheService.takesExpiry ttl <;>
        simp [CacheService.put, Reconciles, hredis, eq_comm]
    · have hne : key ≠ key' := fun heq => hkey heq.symm
      have hsame :
          Current key (s.put up key' value ttl, Function.update expected key' (some value)) := by
        rw [current_iff]
        cases hredis : up && CacheService.takesExpiry ttl <;>
          simpa [CacheService.put, hredis, hne, Dict.get?_set_of_ne hne] using hcurrent
      exact iff_of_true (current_iff.1 hsame) fun heq => absurd heq hkey
  | get up key' =>
    obtain ⟨hredis, hfallback⟩ := @CacheService.get_snd s up key'
    refine iff_of_true ?_ trivial
    show Current key ((s.get up key').2, expected)
    rw [current_iff, hredis, hfallback]
    exact hcurrent
  | evict up key' =>
    show Current key ((s.evict up key').2, Function.update expected key' none) ↔ _
    rw [current_iff]
    by_cases hkey : key' = key
    · subst hkey
      cases up <;>
        simp [CacheService.evict, Reconciles, Dict.get?_erase, Option.eq_none_iff_forall_ne_some]
    · have hne : key ≠ key' := fun heq => hkey heq.symm
      have hsame : Current key ((s.evict up key').2, Function.update expected key' none) := by
        rw [current_iff]
        cases up <;> simpa [CacheService.evict, hne, Dict.get?_erase] using hcurrent
      refine iff_of_true (current_iff.1 hsame) ?_
      cases up
      · exact fun heq => absurd heq hkey
      · trivial
  | expire key' =>
    refine iff_of_true ?_ trivial
    show Current key ({ s with redis := s.redis.erase key' }, expected)
    rw [current_iff]
    refine ⟨fun v hv => ?_, hcurrent.2⟩
    rw [Dict.get?_erase] at hv
    split at hv
    · cases hv
    · exact hcurrent.1 v hv

/-- What is there from the beginning. -/
theorem current_new_iff :
    Current key (CacheService.new, fun _ => none) ↔ key ∉ CacheService.demoEntries.map (·.1) := by
  have hkeys : CacheService.new.fallbackCache.keys = CacheService.demoEntries.map (·.1) := by
    decide +kernel
  rw [current_iff, ← hkeys, ← Dict.get?_eq_none_iff, Option.eq_none_iff_forall_ne_some]
  simp [CacheService.new]

/-- **The cache never goes back in time** at any point of a run exactly if the key has no entry
from the beginning and every call reconciles the stores. -/
theorem never_back_in_time_iff (key : String) (calls : List CacheCall) :
    (∀ past, past <+: calls →
      Current key (Machine.exec CacheCall.logged (.new, fun _ => none) past)) ↔
        key ∉ CacheService.demoEntries.map (·.1) ∧
          Machine.Every CacheCall.logged (Reconciles key) (.new, fun _ => none) calls := by
  have hstep : ∀ (m : CacheService × Expected) c, True → Current key m →
      (Current key (CacheCall.logged m c).2 ↔ Reconciles key m c) :=
    fun m c _ h => current_step_iff h c
  by_cases hnew : Current key (CacheService.new, fun _ => none)
  · rw [Machine.forall_prefix_iff_every (J := fun _ => True) (fun _ _ _ => trivial) hstep trivial
      hnew]
    exact (and_iff_right (current_new_iff.1 hnew)).symm
  · apply iff_of_false
    · exact fun h => hnew (h [] List.nil_prefix)
    · exact fun h => hnew (current_new_iff.2 h.1)

/-- An old value comes back: it was put while Redis was down, and the new one while it was up. -/
theorem not_current_down : ¬ ∀ (key : String) (calls : List CacheCall),
    Current key (Machine.exec CacheCall.logged (.new, fun _ => none) calls) := by
  intro hall
  have hold := hall "session:1" [.put false "session:1" (.int 1) (some 300000),
    .put true "session:1" (.int 2) (some 300000)] false (.int 1) rfl
  cases hold

end FlowMesh.Enterprise
