import Mathlib.Algebra.Order.Group.Unbundled.Int
import Mathlib.Logic.Function.Basic
import FlowMesh.Library.Machine

/-!
# Keys, values and locks

`get`, `set`, `delete`, `acquire_lock` and `release_lock` of `flowmesh_state/interface.py`, by
`MemoryStateStore` and by `RedisStateStore`. Before each call some time passes, in milliseconds.

The memory store keeps values and locks in two dictionaries, for ever. Redis keeps both in one
keyspace, a lock under `lock:` and its name, and forgets an entry when its time has come. What a
Redis command does with its expiry is modelled as Redis documents it: a relative time must be
positive, and its deadline a signed 64-bit number of milliseconds; an entry is gone once the
clock has passed its deadline. An entry that is gone is not removed from the model's table, which
no command can tell.

As long as no call writes over an entry of the other kind (`Apart`), the two stores agree on
exactly the calls whose expiry Redis accepts and that do not ask for an expired entry or for one
of the other kind (`Alive`, `answers_agree_iff`).
-/

namespace FlowMesh

/-- The calls on keys and locks. -/
inductive StoreOp
  | get (key : String)
  | set (key value : String) (ttlSeconds : Option ℤ)
  | delete (key : String)
  | acquireLock (lockName ownerId : String) (ttlMs : ℤ)
  | releaseLock (lockName ownerId : String)

/-- A call, and the milliseconds that pass before it. -/
structure StoreCall where
  elapsed : ℕ
  op : StoreOp

/-- What a call returns. -/
inductive StoreAnswer
  | value (v : Option String)
  | flag (b : Bool)
  deriving DecidableEq

/-! ## `MemoryStateStore` -/

/-- The dictionaries `_data` and `_locks`. -/
structure MemoryStore where
  data : String → Option String
  locks : String → Option String

namespace MemoryStore

/-- A new store. -/
def new : MemoryStore := ⟨fun _ => none, fun _ => none⟩

variable (m : MemoryStore)

/-- `get`. -/
def get (key : String) : Option String := m.data key

/-- `set`; `ttl_seconds` is not used. -/
def set (key value : String) (_ttlSeconds : Option ℤ) : Bool × MemoryStore :=
  (true, { m with data := Function.update m.data key (some value) })

/-- `delete`. -/
def delete (key : String) : Bool × MemoryStore :=
  if (m.data key).isSome then (true, { m with data := Function.update m.data key none })
  else (false, m)

/-- `acquire_lock`; `ttl_ms` is not used. -/
def acquireLock (lockName ownerId : String) (_ttlMs : ℤ) : Bool × MemoryStore :=
  if (m.locks lockName).isSome then (false, m)
  else (true, { m with locks := Function.update m.locks lockName (some ownerId) })

/-- `release_lock`. -/
def releaseLock (lockName ownerId : String) : Bool × MemoryStore :=
  if m.locks lockName = some ownerId then
    (true, { m with locks := Function.update m.locks lockName none })
  else (false, m)

/-- Answer a call. -/
def call (c : StoreCall) : StoreAnswer × MemoryStore :=
  match c.op with
  | .get key => (.value (m.get key), m)
  | .set key value ttlSeconds => (m.set key value ttlSeconds).map .flag id
  | .delete key => (m.delete key).map .flag id
  | .acquireLock lockName ownerId ttlMs => (m.acquireLock lockName ownerId ttlMs).map .flag id
  | .releaseLock lockName ownerId => (m.releaseLock lockName ownerId).map .flag id

end MemoryStore

/-! ## `RedisStateStore` -/

/-- A stored value, and the time until which it is there. -/
structure RedisEntry where
  value : String
  deadline : Option ℤ

/-- The clock has passed the deadline. -/
def RedisEntry.Expired (e : RedisEntry) (clock : ℤ) : Prop := ∃ d ∈ e.deadline, d < clock

instance (e : RedisEntry) (clock : ℤ) : Decidable (e.Expired clock) :=
  match h : e.deadline with
  | none => .isFalse (by simp [RedisEntry.Expired, h])
  | some d => decidable_of_iff (d < clock) (by simp [RedisEntry.Expired, h])

/-- A Redis database: its entries and its clock, in milliseconds. -/
structure RedisStore where
  entries : String → Option RedisEntry
  clock : ℤ

/-- The unit of an expiry: `EX` or `PX`. -/
inductive ExpiryUnit
  | ex
  | px

/-- The milliseconds of a unit. -/
def ExpiryUnit.millis : ExpiryUnit → ℤ
  | .ex => 1000
  | .px => 1

/-- The largest signed 64-bit number. -/
def longMax : ℤ := 2 ^ 63 - 1

/-- The deadline of an entry with a relative time to live, or what Redis answers. -/
def deadlineOf (unit : ExpiryUnit) (ttl clock : ℤ) : Except String ℤ :=
  if ttl < -longMax - 1 ∨ longMax < ttl then .error "value is not an integer or out of range"
  else if ttl ≤ 0 ∨ longMax < clock + ttl * unit.millis then
    .error "invalid expire time in 'set' command"
  else .ok (clock + ttl * unit.millis)

/-- The key of a lock. -/
def lockKey (lockName : String) : String := "lock:" ++ lockName

namespace RedisStore

/-- An empty database, at a time. -/
def new (clock : ℤ) : RedisStore := ⟨fun _ => none, clock⟩

variable (r : RedisStore)

/-- Time passes. -/
def wait (elapsed : ℕ) : RedisStore := { r with clock := r.clock + elapsed }

/-- `GET key`. -/
def getEntry (key : String) : Option String :=
  match r.entries key with
  | some e => if e.Expired r.clock then none else some e.value
  | none => none

/-- `SET key value`, with its deadline. -/
def setEntry (key : String) (e : RedisEntry) : RedisStore :=
  { r with entries := Function.update r.entries key (some e) }

/-- `DEL key`, with the number of keys removed. -/
def delEntry (key : String) : ℕ × RedisStore :=
  if (r.getEntry key).isSome then (1, { r with entries := Function.update r.entries key none })
  else (0, r)

/-- `get`. -/
def get (key : String) : Option String := r.getEntry key

/-- `set`: without a TTL, or with the TTL 0, the entry does not expire. -/
def set (key value : String) (ttlSeconds : Option ℤ) : Except String Bool × RedisStore :=
  match ttlSeconds with
  | some ttl =>
    if ttl ≠ 0 then
      match deadlineOf .ex ttl r.clock with
      | .error e => (.error e, r)
      | .ok deadline => (.ok true, r.setEntry key ⟨value, some deadline⟩)
    else (.ok true, r.setEntry key ⟨value, none⟩)
  | none => (.ok true, r.setEntry key ⟨value, none⟩)

/-- `delete`. -/
def delete (key : String) : Bool × RedisStore :=
  let (res, r) := r.delEntry key
  (decide (res > 0), r)

/-- `acquire_lock`: `SET` with `PX` and `NX`, whose expiry is looked at first. -/
def acquireLock (lockName ownerId : String) (ttlMs : ℤ) : Except String Bool × RedisStore :=
  match deadlineOf .px ttlMs r.clock with
  | .error e => (.error e, r)
  | .ok deadline =>
    if (r.getEntry (lockKey lockName)).isSome then (.ok false, r)
    else (.ok true, r.setEntry (lockKey lockName) ⟨ownerId, some deadline⟩)

/-- The script of `release_lock`. -/
def releaseLock (lockName ownerId : String) : Bool × RedisStore :=
  let (res, r) :=
    if r.getEntry (lockKey lockName) = some ownerId then r.delEntry (lockKey lockName)
    else (0, r)
  (res == 1, r)

/-- Answer a call, after the time that passes before it. -/
def call (c : StoreCall) : Except String StoreAnswer × RedisStore :=
  let r := r.wait c.elapsed
  match c.op with
  | .get key => (.ok (.value (r.get key)), r)
  | .set key value ttlSeconds => (r.set key value ttlSeconds).map (.map .flag) id
  | .delete key => (r.delete key).map (fun b => .ok (.flag b)) id
  | .acquireLock lockName ownerId ttlMs =>
    (r.acquireLock lockName ownerId ttlMs).map (.map .flag) id
  | .releaseLock lockName ownerId =>
    (r.releaseLock lockName ownerId).map (fun b => .ok (.flag b)) id

/-! ### Expiry -/

/-- The value of an entry, expired or not. -/
def raw (key : String) : Option String := (r.entries key).map RedisEntry.value

/-- There is an entry, and its time has come. -/
def Expired (key : String) : Prop := ∃ e ∈ r.entries key, e.Expired r.clock

/-- Redis accepts the expiry. -/
def Accepts (unit : ExpiryUnit) (ttl : ℤ) : Prop :=
  0 < ttl ∧ ttl ≤ longMax ∧ r.clock + ttl * unit.millis ≤ longMax

end RedisStore

/-! ## What the stores agree on -/

section Agreement

/-- The call writes no entry where there is one of the other kind. -/
def Apart (m : MemoryStore) (_r : RedisStore) (c : StoreCall) : Prop :=
  match c.op with
  | .set key _ _ => ∀ lockName, key = lockKey lockName → m.locks lockName = none
  | .acquireLock lockName _ _ => m.data (lockKey lockName) = none
  | _ => True

/-- A key that a call asks for: its value, if there is one, has not expired, and a lock that is
kept under this key has. -/
def Asks (m : MemoryStore) (r : RedisStore) (key : String) : Prop :=
  (m.data key ≠ none → ¬ r.Expired key) ∧
    ∀ lockName, key = lockKey lockName → m.locks lockName ≠ none → r.Expired key

/-- Redis accepts the expiry of the call, and the call asks for no expired entry, nor for one of
the other kind that has not expired. -/
def Alive (m : MemoryStore) (r : RedisStore) (c : StoreCall) : Prop :=
  let r := r.wait c.elapsed
  match c.op with
  | .get key => Asks m r key
  | .set _ _ ttlSeconds => ∀ ttl ∈ ttlSeconds, ttl ≠ 0 → r.Accepts .ex ttl
  | .delete key => Asks m r key
  | .acquireLock lockName _ ttlMs =>
    r.Accepts .px ttlMs ∧ (m.locks lockName ≠ none → ¬ r.Expired (lockKey lockName))
  | .releaseLock lockName ownerId =>
    (m.locks lockName = some ownerId → ¬ r.Expired (lockKey lockName)) ∧
      (m.data (lockKey lockName) = some ownerId → r.Expired (lockKey lockName))

theorem lockKey_injective : Function.Injective lockKey :=
  fun _ _ h => (String.append_right_inj "lock:").1 h

/-! ### One keyspace for both dictionaries -/

/-- The owner of the lock that is kept under a key. -/
noncomputable def MemoryStore.lockAt (m : MemoryStore) : String → Option String :=
  Function.extend lockKey m.locks fun _ => none

theorem lockAt_lockKey (m : MemoryStore) (lockName : String) :
    m.lockAt (lockKey lockName) = m.locks lockName :=
  lockKey_injective.extend_apply m.locks _ lockName

/-- Taking or releasing a lock writes under its key. -/
theorem lockAt_update (m : MemoryStore) (lockName : String) (owner : Option String) :
    ({ m with locks := Function.update m.locks lockName owner } : MemoryStore).lockAt =
      Function.update m.lockAt (lockKey lockName) owner := by
  funext key
  by_cases hkey : ∃ n, lockKey n = key
  · obtain ⟨n, rfl⟩ := hkey
    simp only [lockAt_lockKey, Function.update_apply, lockKey_injective.eq_iff]
  · have hne : key ≠ lockKey lockName := fun h => hkey ⟨lockName, h.symm⟩
    rw [Function.update_of_ne hne, MemoryStore.lockAt, MemoryStore.lockAt,
      Function.extend_apply' _ _ _ hkey, Function.extend_apply' _ _ _ hkey]

/-- A condition on the lock kept under a key, if there is one. -/
theorem forall_lockAt {m : MemoryStore} {key : String} {P : Prop} :
    (∀ n, key = lockKey n → m.locks n ≠ none → P) ↔ (m.lockAt key ≠ none → P) := by
  constructor
  · intro h hlock
    by_cases hkey : ∃ n, lockKey n = key
    · obtain ⟨n, rfl⟩ := hkey
      rw [lockAt_lockKey] at hlock
      exact h n rfl hlock
    · exact absurd (Function.extend_apply' _ _ _ hkey) hlock
  · rintro h n rfl hlock
    rw [← lockAt_lockKey] at hlock
    exact h hlock

/-- Redis has under a key what one of the dictionaries has there, and not both have. -/
def Slot (value lock raw : Option String) : Prop :=
  (value = none ∨ lock = none) ∧ raw = value.or lock

/-- Redis keeps what the dictionaries hold, expired or not. -/
def Mirrors (m : MemoryStore) (r : RedisStore) : Prop :=
  ∀ key, Slot (m.data key) (m.lockAt key) (r.raw key)

theorem mirrors_new (clock : ℤ) : Mirrors .new (.new clock) := by
  intro key
  refine ⟨Or.inl rfl, ?_⟩
  have hlock : MemoryStore.new.lockAt key = none := by
    by_contra h
    exact forall_lockAt.1 (fun _ _ h => h rfl) h
  rw [hlock]
  rfl

/-! ### What Redis answers -/

open Classical in
theorem getEntry_eq (r : RedisStore) (key : String) :
    r.getEntry key = if r.Expired key then none else r.raw key := by
  unfold RedisStore.getEntry RedisStore.Expired RedisStore.raw
  cases r.entries key with
  | none => simp
  | some e => simp

theorem deadlineOf_eq_ok {r : RedisStore} {unit : ExpiryUnit} {ttl : ℤ}
    (h : r.Accepts unit ttl) :
    deadlineOf unit ttl r.clock = .ok (r.clock + ttl * unit.millis) := by
  obtain ⟨hpos, hmax, hdeadline⟩ := h
  rw [deadlineOf, if_neg, if_neg]
  · omega
  · have : (0 : ℤ) ≤ longMax := by decide
    omega

theorem exists_deadlineOf_eq_error {r : RedisStore} {unit : ExpiryUnit} {ttl : ℤ}
    (h : ¬ r.Accepts unit ttl) : ∃ e, deadlineOf unit ttl r.clock = .error e := by
  unfold deadlineOf
  split_ifs with hrange hvalid
  · exact ⟨_, rfl⟩
  · exact ⟨_, rfl⟩
  · exact absurd ⟨by omega, by omega, by omega⟩ h

section Slot

variable {value lock raw : Option String} {x : Prop} [Decidable x]

theorem Slot.get_iff (h : Slot value lock raw) :
    value = (if x then none else raw) ↔ (value ≠ none → ¬ x) ∧ (lock ≠ none → x) := by
  obtain ⟨hone, rfl⟩ := h
  cases value <;> cases lock <;> by_cases hx : x <;> simp_all

theorem Slot.delete_iff (h : Slot value lock raw) :
    value.isSome = (if x then none else raw).isSome ↔
      (value ≠ none → ¬ x) ∧ (lock ≠ none → x) := by
  obtain ⟨hone, rfl⟩ := h
  cases value <;> cases lock <;> by_cases hx : x <;> simp_all

theorem Slot.acquire_iff (h : Slot none lock raw) :
    lock.isSome = (if x then none else raw).isSome ↔ (lock ≠ none → ¬ x) := by
  obtain ⟨-, hraw⟩ := h
  cases lock <;> by_cases hx : x <;> simp_all

theorem Slot.release_iff {owner : String} (h : Slot value lock raw) :
    (lock = some owner ↔ (if x then none else raw) = some owner) ↔
      (lock = some owner → ¬ x) ∧ (value = some owner → x) := by
  obtain ⟨hone, rfl⟩ := h
  cases value <;> cases lock <;> by_cases hx : x <;> simp_all

end Slot

/-! ### A call -/

variable {m : MemoryStore} {r : RedisStore} {c : StoreCall}

theorem Mirrors.wait (h : Mirrors m r) (elapsed : ℕ) : Mirrors m (r.wait elapsed) := h

theorem Mirrors.getEntry_eq_iff (h : Mirrors m r) (key : String) :
    m.data key = r.getEntry key ↔ Asks m r key := by
  classical
  rw [getEntry_eq, (h key).get_iff, Asks, forall_lockAt]

theorem Mirrors.isSome_getEntry_iff (h : Mirrors m r) (key : String) :
    (m.data key).isSome = (r.getEntry key).isSome ↔ Asks m r key := by
  classical
  rw [getEntry_eq, (h key).delete_iff, Asks, forall_lockAt]

theorem Mirrors.isSome_lock_iff (h : Mirrors m r) {lockName : String}
    (hdata : m.data (lockKey lockName) = none) :
    (m.locks lockName).isSome = (r.getEntry (lockKey lockName)).isSome ↔
      (m.locks lockName ≠ none → ¬ r.Expired (lockKey lockName)) := by
  classical
  have hslot := h (lockKey lockName)
  rw [hdata, lockAt_lockKey] at hslot
  rw [getEntry_eq, hslot.acquire_iff]

theorem Mirrors.owner_iff (h : Mirrors m r) (lockName ownerId : String) :
    (m.locks lockName = some ownerId ↔ r.getEntry (lockKey lockName) = some ownerId) ↔
      (m.locks lockName = some ownerId → ¬ r.Expired (lockKey lockName)) ∧
        (m.data (lockKey lockName) = some ownerId → r.Expired (lockKey lockName)) := by
  classical
  have hslot := h (lockKey lockName)
  rw [lockAt_lockKey] at hslot
  rw [getEntry_eq, hslot.release_iff]

/-- What a call writes under one key. -/
theorem Mirrors.write {m' : MemoryStore} {r' : RedisStore} (h : Mirrors m r) (key : String)
    (hslot : Slot (m'.data key) (m'.lockAt key) (r'.raw key))
    (hother : ∀ k, k ≠ key →
      m'.data k = m.data k ∧ m'.lockAt k = m.lockAt k ∧ r'.raw k = r.raw k) :
    Mirrors m' r' := by
  intro k
  by_cases hk : k = key
  · subst hk
    exact hslot
  · obtain ⟨hdata, hlock, hraw⟩ := hother k hk
    rw [hdata, hlock, hraw]
    exact h k

theorem Mirrors.writeValue (h : Mirrors m r) {key : String} (hlock : m.lockAt key = none)
    (e : Option RedisEntry) :
    Mirrors { m with data := Function.update m.data key (e.map RedisEntry.value) }
      { r with entries := Function.update r.entries key e } := by
  apply h.write key
  · refine ⟨Or.inr hlock, ?_⟩
    have hlock' : ({ m with data := Function.update m.data key (e.map RedisEntry.value) } :
        MemoryStore).lockAt key = none := hlock
    rw [hlock']
    simp [RedisStore.raw]
  · intro k hk
    refine ⟨Function.update_of_ne hk _ _, rfl, ?_⟩
    simp [RedisStore.raw, hk]

theorem Mirrors.writeLock (h : Mirrors m r) {lockName : String}
    (hdata : m.data (lockKey lockName) = none) (e : Option RedisEntry) :
    Mirrors { m with locks := Function.update m.locks lockName (e.map RedisEntry.value) }
      { r with entries := Function.update r.entries (lockKey lockName) e } := by
  apply h.write (lockKey lockName)
  · refine ⟨Or.inl hdata, ?_⟩
    rw [lockAt_update]
    simp [RedisStore.raw, hdata]
  · intro k hk
    rw [lockAt_update]
    exact ⟨rfl, Function.update_of_ne hk _ _, by simp [RedisStore.raw, hk]⟩

/-- A call is answered alike exactly if it fits. -/
theorem Mirrors.call_eq_iff (h : Mirrors m r) (hc : Apart m r c) :
    Except.ok (m.call c).1 = (r.call c).1 ↔ Alive m r c := by
  obtain ⟨elapsed, op⟩ := c
  replace h := h.wait elapsed
  cases op with
  | get key =>
    show Except.ok (StoreAnswer.value _) = Except.ok (StoreAnswer.value _) ↔ _
    rw [Except.ok.injEq, StoreAnswer.value.injEq]
    exact h.getEntry_eq_iff key
  | set key value ttlSeconds =>
    cases ttlSeconds with
    | none => simp [MemoryStore.call, MemoryStore.set, RedisStore.call, RedisStore.set, Alive,
        Except.map]
    | some ttl =>
      by_cases hzero : ttl = 0
      · simp [MemoryStore.call, MemoryStore.set, RedisStore.call, RedisStore.set, Alive,
          Except.map, hzero]
      · by_cases hok : (r.wait elapsed).Accepts .ex ttl
        · simp [MemoryStore.call, MemoryStore.set, RedisStore.call, RedisStore.set, Alive,
            Except.map, hzero, hok, deadlineOf_eq_ok hok]
        · obtain ⟨e, he⟩ := exists_deadlineOf_eq_error hok
          simp [MemoryStore.call, MemoryStore.set, RedisStore.call, RedisStore.set, Alive,
            Except.map, hzero, hok, he]
  | delete key =>
    refine Iff.trans ?_ (h.isSome_getEntry_iff key)
    simp only [MemoryStore.call, MemoryStore.delete, RedisStore.call, RedisStore.delete,
      RedisStore.delEntry]
    split_ifs <;> simp_all
  | acquireLock lockName ownerId ttlMs =>
    by_cases hok : (r.wait elapsed).Accepts .px ttlMs
    · have halive : Alive m r ⟨elapsed, .acquireLock lockName ownerId ttlMs⟩ ↔
          (m.locks lockName).isSome =
            ((r.wait elapsed).getEntry (lockKey lockName)).isSome := by
        rw [h.isSome_lock_iff hc]
        exact and_iff_right hok
      rw [halive]
      simp only [MemoryStore.call, MemoryStore.acquireLock, RedisStore.call,
        RedisStore.acquireLock, deadlineOf_eq_ok hok]
      split_ifs <;> simp_all [Except.map]
    · obtain ⟨e, he⟩ := exists_deadlineOf_eq_error hok
      simp [RedisStore.call, RedisStore.acquireLock, he, Alive, hok, Except.map]
  | releaseLock lockName ownerId =>
    refine Iff.trans ?_ (h.owner_iff lockName ownerId)
    simp only [MemoryStore.call, MemoryStore.releaseLock, RedisStore.call,
      RedisStore.releaseLock, RedisStore.delEntry]
    split_ifs <;> simp_all

theorem Apart.lockAt_eq_none {elapsed : ℕ} {key value : String} {ttlSeconds : Option ℤ}
    (hc : Apart m r ⟨elapsed, .set key value ttlSeconds⟩) : m.lockAt key = none := by
  by_contra h
  exact forall_lockAt.1 (fun n hn hlock => hlock (hc n hn)) h

/-- A call that fits keeps the stores alike. -/
theorem Mirrors.call (h : Mirrors m r) (hc : Apart m r c) (halive : Alive m r c) :
    Mirrors (m.call c).2 (r.call c).2 := by
  obtain ⟨elapsed, op⟩ := c
  replace h := h.wait elapsed
  cases op with
  | get key => exact h
  | set key value ttlSeconds =>
    have hwrite := h.writeValue hc.lockAt_eq_none
    cases ttlSeconds with
    | none => exact hwrite (some ⟨value, none⟩)
    | some ttl =>
      by_cases hzero : ttl = 0
      · subst hzero
        exact hwrite (some ⟨value, none⟩)
      · have hok := deadlineOf_eq_ok (halive ttl rfl hzero)
        simp only [RedisStore.call, RedisStore.set, ne_eq, hzero, not_false_eq_true, if_true, hok]
        exact hwrite (some ⟨value, some _⟩)
  | delete key =>
    have hsome := (h.isSome_getEntry_iff key).2 halive
    simp only [MemoryStore.call, MemoryStore.delete, RedisStore.call, RedisStore.delete,
      RedisStore.delEntry, ← hsome]
    by_cases hdata : (m.data key).isSome
    · have hlock : m.lockAt key = none :=
        (h key).1.resolve_left fun hnone => by simp [hnone] at hdata
      rw [if_pos hdata, if_pos hdata]
      exact h.writeValue hlock none
    · rw [if_neg hdata, if_neg hdata]
      exact h
  | acquireLock lockName ownerId ttlMs =>
    have hsome := (h.isSome_lock_iff hc).2 halive.2
    simp only [MemoryStore.call, MemoryStore.acquireLock, RedisStore.call, RedisStore.acquireLock,
      deadlineOf_eq_ok halive.1, ← hsome]
    by_cases hlock : (m.locks lockName).isSome
    · rw [if_pos hlock, if_pos hlock]
      exact h
    · rw [if_neg hlock, if_neg hlock]
      exact h.writeLock hc (some ⟨ownerId, some _⟩)
  | releaseLock lockName ownerId =>
    have howner := (h.owner_iff lockName ownerId).2 halive
    simp only [MemoryStore.call, MemoryStore.releaseLock, RedisStore.call, RedisStore.releaseLock,
      RedisStore.delEntry]
    by_cases hlock : m.locks lockName = some ownerId
    · have hdata : m.data (lockKey lockName) = none :=
        (h (lockKey lockName)).1.resolve_right (by simp [lockAt_lockKey, hlock])
      rw [if_pos hlock, if_pos (howner.1 hlock), if_pos (by simp [howner.1 hlock])]
      exact h.writeLock hdata none
    · rw [if_neg hlock, if_neg fun hentry => hlock (howner.2 hentry)]
      exact h

/-- **What the backends agree on**: in a sequence of calls that never writes an entry over one of
the other kind, all answers are the same exactly if every call fits: Redis accepts its expiry, and
it does not ask for an expired entry of its own kind, nor for a live one of the other. -/
theorem answers_agree_iff (clock : ℤ) (calls : List StoreCall)
    (hapart : Machine.Throughout MemoryStore.call RedisStore.call Apart .new (.new clock) calls) :
    (Machine.answers MemoryStore.call .new calls).map Except.ok =
        Machine.answers RedisStore.call (.new clock) calls ↔
      Machine.Throughout MemoryStore.call RedisStore.call Alive .new (.new clock) calls := by
  apply Machine.answers_iff_throughout (R := Mirrors) ?_ ?_ (mirrors_new clock) hapart
  · intro m r c h hc
    exact h.call_eq_iff hc
  · intro m r c h hc halive
    exact h.call hc halive

/-- A lock taken, and asked for again before its time has come. -/
theorem answers_agree_lock :
    (Machine.answers MemoryStore.call .new
        [⟨0, .acquireLock "run_lease" "w1" 5000⟩, ⟨5000, .acquireLock "run_lease" "w2" 5000⟩]).map
          Except.ok =
      Machine.answers RedisStore.call (.new 0)
        [⟨0, .acquireLock "run_lease" "w1" 5000⟩, ⟨5000, .acquireLock "run_lease" "w2" 5000⟩] := by
  have hdeadline : deadlineOf .px 5000 0 = .ok 5000 := by decide
  apply (answers_agree_iff 0 _ ?_).2
  · refine ⟨⟨⟨by decide, by decide, by decide⟩, fun h => absurd rfl h⟩,
      ⟨⟨by decide, by decide, by decide⟩, fun _ => ?_⟩, trivial⟩
    rintro ⟨e, he, d, hd, hlt⟩
    simp [RedisStore.wait, RedisStore.call, RedisStore.acquireLock, RedisStore.setEntry,
      RedisStore.getEntry, RedisStore.new, hdeadline] at he
    subst he
    simp only [Option.mem_def, Option.some.injEq] at hd
    subst hd
    revert hlt
    decide
  · exact ⟨rfl, rfl, trivial⟩

/-- A value with a TTL of one second, asked for after two. -/
theorem not_answers_agree :
    ¬ ∀ (clock : ℤ) (calls : List StoreCall),
      (Machine.answers MemoryStore.call .new calls).map Except.ok =
        Machine.answers RedisStore.call (.new clock) calls := by
  intro h
  have hget := h 0 [⟨0, .set "idempotency" "done" (some 1)⟩, ⟨2000, .get "idempotency"⟩]
  revert hget
  decide

end Agreement

end FlowMesh
