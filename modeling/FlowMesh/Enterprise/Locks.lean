import Mathlib.Algebra.Order.Group.Int
import FlowMesh.Library.Crew

/-!
# The distributed lock

`RedisDistributedLockService` (`services/enterprise-worker`): a lock is a key of Redis with an
expiry, or an entry of a map in memory where Redis cannot be reached. `acquireLock` and
`releaseLock` are programs over the single steps on Redis, on the map and on the clock; the steps
of any number of workers interleave, time passes before each of them, and each finds Redis up or
down. Times are in milliseconds, in which Redis counts too.

The program text alone does not exclude two holders. `mutual_exclusion` names the steps that have
to be undisturbed: nothing comes in between what a call reads of an entry and its write of that
entry, and an entry is made in one store only while no other store has one.
-/

namespace FlowMesh.Enterprise

open Async

/-! ## The stores -/

/-- `LocalLockEntry`; a key of Redis with its expiry, likewise. -/
structure LockEntry where
  token : String
  expiresAt : ℤ
  deriving DecidableEq

/-- Redis, and the `localLockStore` of each instance of the service. -/
inductive LockStore
  | redis
  | localLockStore (instance_ : ℕ)
  deriving DecidableEq

/-- The clock and the stores; `released` tells which tokens were given back, and of which keys. -/
structure LockSpace where
  now : ℤ
  entries : LockStore × String → Option LockEntry
  released : List (String × String)

/-- What the surroundings do at a step: time passes, and then Redis is up or down. The text is
the one that `randomUUID` gives. -/
structure LockMoment where
  elapsed : ℕ := 0
  up : Bool := true
  uuid : String := ""

/-- The steps. `redisDelete` and `remove` come with the token that the call has read, `put` with
the entry that it has read. -/
inductive LockOp
  | randomUUID
  | instantNow
  | setIfAbsent (lockKey token : String) (lockDuration : ℤ)
  | redisGet (lockKey : String)
  | redisDelete (lockKey token : String)
  | get (instance_ : ℕ) (lockKey : String)
  | put (instance_ : ℕ) (lockKey : String) (existing : Option LockEntry) (entry : LockEntry)
  | remove (instance_ : ℕ) (lockKey token : String)

/-- What a step answers. -/
def LockOp.Res : LockOp → Type
  | .randomUUID => String
  | .instantNow => ℤ
  | .setIfAbsent _ _ _ | .redisDelete _ _ => Bool
  | .redisGet _ => Option String
  | .get _ _ => Option LockEntry
  | .put _ _ _ _ | .remove _ _ _ => Unit

namespace LockSpace

/-- Time passes. -/
def later (elapsed : ℕ) (s : LockSpace) : LockSpace :=
  { s with now := s.now + elapsed }

/-- An entry that has not expired. -/
def unexpired (s : LockSpace) (a : LockStore × String) : Option LockEntry :=
  (s.entries a).filter fun e => s.now ≤ e.expiresAt

def set (a : LockStore × String) (entry : LockEntry) (s : LockSpace) : LockSpace :=
  { s with entries := Function.update s.entries a (some entry) }

/-- The entry goes, and the token is given back. -/
def erase (a : LockStore × String) (token : String) (s : LockSpace) : LockSpace :=
  { s with
    entries := Function.update s.entries a none
    released := (a.2, token) :: s.released }

/-- A step. Redis refuses an expiry that is not positive. -/
def perform (c : LockMoment) : Handler LockOp LockOp.Res Unit LockSpace
  | .randomUUID, s => (.ok c.uuid, s)
  | .instantNow, s => (.ok s.now, s)
  | .setIfAbsent lockKey token lockDuration, s =>
    if c.up ∧ 0 < lockDuration then
      if (s.unexpired (.redis, lockKey)).isSome then (.ok false, s)
      else (.ok true, s.set (.redis, lockKey) ⟨token, s.now + lockDuration⟩)
    else (.error (), s)
  | .redisGet lockKey, s =>
    if c.up then (.ok ((s.unexpired (.redis, lockKey)).map (·.token)), s) else (.error (), s)
  | .redisDelete lockKey token, s =>
    if c.up then
      if (s.unexpired (.redis, lockKey)).isSome then (.ok true, s.erase (.redis, lockKey) token)
      else (.ok false, s)
    else (.error (), s)
  | .get w lockKey, s => (.ok (s.entries (.localLockStore w, lockKey)), s)
  | .put w lockKey _ entry, s => (.ok (), s.set (.localLockStore w, lockKey) entry)
  | .remove w lockKey token, s => (.ok (), s.erase (.localLockStore w, lockKey) token)

/-- A step of a worker. -/
def handle (_i : ℕ) (c : LockMoment) : Handler LockOp LockOp.Res Unit LockSpace :=
  fun o s => (s.later c.elapsed).perform c o

end LockSpace

/-! ## The calls -/

/-- `LockResult`. -/
structure LockResult where
  acquired : Bool
  token : Option String
  lockKey : String
  expiresAt : Option ℤ
  message : String

/-- A program of a worker. -/
abbrev LockProg : Type → Type := Prog LockOp LockOp.Res Unit

/-- The key of a tenant's resource. -/
def lockKey (tenantId : Option String) (resource : String) : String :=
  "flowmesh:lock:" ++ tenantId.getD "default" ++ ":" ++ resource

/-- How long a lock is asked for: 30 seconds where the caller does not say. -/
def lockDuration : Option ℤ → ℤ
  | some ttl => if ttl ≠ 0 then ttl else 30000
  | none => 30000

section Calls

-- The text of an `Instant` is Java's.
variable (instantText : ℤ → String) (w : ℕ)

/-- The lock is put into the map in memory. -/
def putLocal (lockKey token : String) (expiresAt : ℤ) (existing : Option LockEntry) :
    LockProg LockResult := do
  let _ ← Prog.perform (LockOp.put w lockKey existing ⟨token, expiresAt⟩)
  return ⟨true, some token, lockKey, some expiresAt,
    "Lock acquired via virtual distributed lock coordinator"⟩

/-- The fallback of `acquireLock`. -/
def acquireLocal (lockKey token : String) (expiresAt : ℤ) : LockProg LockResult := do
  let existing : Option LockEntry ← Prog.perform (LockOp.get w lockKey)
  match existing with
  | none => putLocal w lockKey token expiresAt none
  | some e =>
    let now : ℤ ← Prog.perform LockOp.instantNow
    if e.expiresAt < now then putLocal w lockKey token expiresAt (some e)
    else return ⟨false, none, lockKey, none, "Resource is locked until " ++ instantText e.expiresAt⟩

/-- `acquireLock`. -/
def acquireLock (tenantId : Option String) (resource : String) (ttl : Option ℤ) :
    LockProg LockResult := do
  let lockKey := lockKey tenantId resource
  let token : String ← Prog.perform LockOp.randomUUID
  let now : ℤ ← Prog.perform LockOp.instantNow
  let expiresAt := now + lockDuration ttl
  let success : Except Unit Bool ←
    (Prog.perform (LockOp.setIfAbsent lockKey token (lockDuration ttl))).attempt
  match success with
  | .ok true => return ⟨true, some token, lockKey, some expiresAt, "Lock acquired via Redis NX"⟩
  | .ok false => return ⟨false, none, lockKey, none, "Lock already held by another worker"⟩
  | .error _ => acquireLocal instantText w lockKey token expiresAt

/-- What `releaseLock` does on Redis: nothing where it holds another token. -/
def releaseRedis (lockKey : String) (token : Option String) : LockProg (Option Bool) := do
  let currentVal : Option String ← Prog.perform (LockOp.redisGet lockKey)
  match token with
  | none => return none
  | some token =>
    if currentVal = some token then
      let deleted : Bool ← Prog.perform (LockOp.redisDelete lockKey token)
      return some deleted
    else return none

/-- The fallback of `releaseLock`. -/
def releaseLocal (lockKey : String) (token : Option String) : LockProg Bool := do
  let existing : Option LockEntry ← Prog.perform (LockOp.get w lockKey)
  match existing with
  | none => return false
  | some e =>
    if token = some e.token then
      let _ ← Prog.perform (LockOp.remove w lockKey e.token)
      return true
    else return false

/-- `releaseLock`. -/
def releaseLock (tenantId : Option String) (resource : String) (token : Option String) :
    LockProg Bool := do
  let lockKey := lockKey tenantId resource
  match ← (releaseRedis lockKey token).attempt with
  | .ok (some deleted) => return deleted
  | .ok none | .error _ => releaseLocal w lockKey token

/-- A call of a worker, at its instance of the service. -/
inductive LockCall
  | acquireLock (w : ℕ) (tenantId : Option String) (resource : String) (ttl : Option ℤ)
  | releaseLock (w : ℕ) (tenantId : Option String) (resource : String) (token : Option String)

/-- What a call returns. -/
inductive LockAnswer
  | acquired (r : LockResult)
  | released (b : Bool)

/-- The program of a call. -/
def LockCall.code : LockCall → LockProg LockAnswer
  | .acquireLock w tenantId resource ttl =>
    LockAnswer.acquired <$> Enterprise.acquireLock instantText w tenantId resource ttl
  | .releaseLock w tenantId resource token =>
    LockAnswer.released <$> Enterprise.releaseLock w tenantId resource token

end Calls

/-- The calls, and the stores that they share. -/
abbrev LockCrew : Type := Crew LockOp LockOp.Res Unit LockSpace LockAnswer

/-- Calls on stores without entries. -/
def lockCrew (instantText : ℤ → String) (start : ℤ) (calls : List LockCall) : LockCrew :=
  ⟨⟨start, fun _ => none, []⟩, calls.map (LockCall.code instantText)⟩

/-! ## Who holds a lock -/

/-- The result says that the token holds the key until then. -/
def LockResult.Grants (r : LockResult) (key token : String) (expiresAt : ℤ) : Prop :=
  r.acquired = true ∧ r.lockKey = key ∧ r.token = some token ∧ r.expiresAt = some expiresAt

/-- The token was granted the key, has not expired and was not given back. -/
def Holds (p : LockCrew) (key token : String) : Prop :=
  ∃ (i : ℕ) (r : LockResult) (expiresAt : ℤ), p.progs[i]? = some (Prog.pure (.acquired r)) ∧
    r.Grants key token expiresAt ∧ p.state.now ≤ expiresAt ∧ (key, token) ∉ p.state.released

/-- No other store has an entry of the key that has not expired. -/
def LockSpace.Alone (s : LockSpace) (a : LockStore × String) : Prop :=
  ∀ b, b ≠ a.1 → s.unexpired (b, a.2) = none

/-- What the entry is that a call goes by is what it has read. -/
def LockSpace.Undisturbed (s : LockSpace) (c : LockMoment) : LockOp → Prop
  | .setIfAbsent key _ duration => c.up → 0 < duration → s.Alone (.redis, key)
  | .redisDelete key token => ∀ e, s.unexpired (.redis, key) = some e → e.token = token
  | .put w key existing entry =>
    (s.now ≤ entry.expiresAt → s.Alone (.localLockStore w, key)) ∧
      ∀ e, s.unexpired (.localLockStore w, key) = some e → existing = some e
  | .remove w key token =>
    ∀ e, s.unexpired (.localLockStore w, key) = some e → e.token = token
  | _ => True

/-- The step is undisturbed when it is made. -/
def Undisturbed (_i : ℕ) (c : LockMoment) (o : LockOp) (s : LockSpace) : Prop :=
  (s.later c.elapsed).Undisturbed c o

/-! ## One step -/

namespace LockSpace

/-- No key has entries in two stores. -/
def Exclusive (s : LockSpace) : Prop :=
  ∀ a, s.unexpired a ≠ none → s.Alone a

/-- A token that has not expired and was not given back has an entry that lives as long. -/
def Kept (key token : String) (expiresAt : ℤ) (s : LockSpace) : Prop :=
  s.now ≤ expiresAt → (key, token) ∉ s.released →
    ∃ a t, s.entries (a, key) = some ⟨token, t⟩ ∧ expiresAt ≤ t

/-- Time goes on and what is kept stays kept. -/
def Moves (s s' : LockSpace) : Prop :=
  s.now ≤ s'.now ∧ ∀ key token expiresAt, Kept key token expiresAt s → Kept key token expiresAt s'

variable {s s' s'' : LockSpace} {c : LockMoment} {a : LockStore × String} {entry : LockEntry}
  {key token : String} {expiresAt : ℤ}

theorem Moves.refl : Moves s s := ⟨le_rfl, fun _ _ _ h => h⟩

theorem Moves.trans (h : Moves s s') (h' : Moves s' s'') : Moves s s'' :=
  ⟨h.1.trans h'.1, fun key token t hk => h'.2 key token t (h.2 key token t hk)⟩

theorem unexpired_eq_some : s.unexpired a = some entry ↔
    s.entries a = some entry ∧ s.now ≤ entry.expiresAt := by
  simp [unexpired, Option.filter_eq_some_iff]

theorem unexpired_later {elapsed : ℕ} (h : (s.later elapsed).unexpired a = some entry) :
    s.unexpired a = some entry := by
  rw [unexpired_eq_some] at h ⊢
  have hnow : s.now ≤ s.now + elapsed := by omega
  exact ⟨h.1, hnow.trans h.2⟩

theorem moves_later (elapsed : ℕ) : Moves s (s.later elapsed) := by
  have hnow : s.now ≤ s.now + elapsed := by omega
  exact ⟨hnow, fun key token t hk hle hnot => hk (hnow.trans hle) hnot⟩

theorem Exclusive.later (h : s.Exclusive) (elapsed : ℕ) : (s.later elapsed).Exclusive := by
  intro a ha b hb
  obtain ⟨e, he⟩ := Option.ne_none_iff_exists'.1 ha
  have hnone : s.unexpired (b, a.2) = none := h a (by simp [unexpired_later he]) b hb
  rw [Option.eq_none_iff_forall_ne_some] at hnone ⊢
  exact fun e' he' => hnone e' (unexpired_later he')

theorem unexpired_set_self :
    (s.set a entry).unexpired a = if s.now ≤ entry.expiresAt then some entry else none := by
  show (Function.update s.entries a (some entry) a).filter _ = _
  rw [Function.update_self]
  exact if_congr decide_eq_true_iff rfl rfl

theorem unexpired_set_of_ne {b : LockStore × String} (hb : b ≠ a) :
    (s.set a entry).unexpired b = s.unexpired b :=
  congrArg (Option.filter _) (Function.update_of_ne hb _ _)

/-- An entry is made where no store has one. -/
theorem Exclusive.set (h : s.Exclusive) (hnone : s.unexpired a = none)
    (halone : s.now ≤ entry.expiresAt → s.Alone a) :
    (s.set a entry).Exclusive ∧ Moves s (s.set a entry) := by
  constructor
  · intro b hb x hx
    by_cases hba : b = a
    · subst hba
      have hle : s.now ≤ entry.expiresAt := by
        by_contra hlt
        simp [unexpired_set_self, hlt] at hb
      have hne : (x, b.2) ≠ b := fun heq => hx (congrArg Prod.fst heq)
      rw [unexpired_set_of_ne hne]
      exact halone hle x hx
    · rw [unexpired_set_of_ne hba] at hb
      by_cases hxa : (x, b.2) = a
      · subst hxa
        have hgone := h b hb x hx
        by_cases hle : s.now ≤ entry.expiresAt
        · have hb' := halone hle b.1 fun heq => hx heq.symm
          exact absurd hb' hb
        · simp [unexpired_set_self, hle]
      · rw [unexpired_set_of_ne hxa]
        exact h b hb x hx
  · refine ⟨le_rfl, fun key token t hk hle hnot => ?_⟩
    obtain ⟨b, t', hb, ht'⟩ := hk hle hnot
    refine ⟨b, t', ?_, ht'⟩
    have hba : (b, key) ≠ a := by
      rintro rfl
      have hsome : s.unexpired (b, key) = some ⟨token, t'⟩ :=
        unexpired_eq_some.2 ⟨hb, hle.trans ht'⟩
      rw [hnone] at hsome
      cases hsome
    show Function.update s.entries a (some entry) (b, key) = _
    rw [Function.update_of_ne hba, hb]

/-- An entry goes with the token that is given back. -/
theorem Exclusive.erase (h : s.Exclusive)
    (hown : ∀ e, s.unexpired a = some e → e.token = token) :
    (s.erase a token).Exclusive ∧ Moves s (s.erase a token) := by
  have hself : (s.erase a token).unexpired a = none := by simp [unexpired, LockSpace.erase]
  have hother : ∀ b, b ≠ a → (s.erase a token).unexpired b = s.unexpired b :=
    fun b hb => congrArg (Option.filter _) (Function.update_of_ne hb _ _)
  constructor
  · intro b hb x hx
    have hba : b ≠ a := by
      rintro rfl
      exact hb hself
    rw [hother b hba] at hb
    by_cases hxa : (x, b.2) = a
    · rw [hxa, hself]
    · rw [hother _ hxa]
      exact h b hb x hx
  · refine ⟨le_rfl, fun key token' t hk hle hnot => ?_⟩
    rw [LockSpace.erase, List.mem_cons, not_or] at hnot
    obtain ⟨b, t', hb, ht'⟩ := hk hle hnot.2
    refine ⟨b, t', ?_, ht'⟩
    have hba : (b, key) ≠ a := by
      rintro rfl
      have htoken := hown _ (unexpired_eq_some.2 ⟨hb, hle.trans ht'⟩)
      exact hnot.1 (Prod.ext rfl htoken)
    show Function.update s.entries a none (b, key) = _
    rw [Function.update_of_ne hba, hb]

theorem Kept.set : Kept a.2 entry.token entry.expiresAt (s.set a entry) := by
  intro _ _
  exact ⟨a.1, entry.expiresAt, Function.update_self _ _ _, le_rfl⟩

theorem Kept.mono {t : ℤ} (h : Kept key token t s) (ht : expiresAt ≤ t) :
    Kept key token expiresAt s := by
  intro hle hnot
  obtain ⟨b, t', hb, ht'⟩ := h (hle.trans ht) hnot
  exact ⟨b, t', hb, ht.trans ht'⟩

end LockSpace

/-- A `put` goes by an entry that has expired. -/
def LockOp.Checked (now : ℤ) : LockOp → Prop
  | .put _ _ existing _ => ∀ e, existing = some e → e.expiresAt < now
  | _ => True

/-- **A step** that is undisturbed keeps the stores exclusive. -/
theorem LockSpace.Exclusive.perform {s : LockSpace} {c : LockMoment} {o : LockOp}
    (h : s.Exclusive) (hchecked : o.Checked s.now) (hstep : s.Undisturbed c o) :
    (LockSpace.perform c o s).2.Exclusive ∧ LockSpace.Moves s (LockSpace.perform c o s).2 := by
  have hsame : s.Exclusive ∧ LockSpace.Moves s s := ⟨h, .refl⟩
  cases o with
  | randomUUID => exact hsame
  | instantNow => exact hsame
  | redisGet key =>
    simp only [LockSpace.perform]
    split_ifs <;> exact hsame
  | get w key => exact hsame
  | setIfAbsent key token duration =>
    simp only [LockSpace.perform]
    split_ifs with hup hsome
    · exact hsame
    · exact h.set (by simpa using hsome) fun _ => hstep hup.1 hup.2
    · exact hsame
  | redisDelete key token =>
    simp only [LockSpace.perform]
    split_ifs
    · exact h.erase hstep
    · exact hsame
    · exact hsame
  | put w key existing entry =>
    refine h.set ?_ hstep.1
    rw [Option.eq_none_iff_forall_ne_some]
    intro e he
    have hold := hchecked e (hstep.2 e he)
    have hnew := (LockSpace.unexpired_eq_some.1 he).2
    omega
  | remove w key token => exact h.erase hstep

/-! ## The programs -/

/-- What the calls keep. -/
def lockContract : Crew.Contract LockSpace where
  inv := LockSpace.Exclusive
  moves _ := LockSpace.Moves

/-- The program keeps the contract, and its outcome satisfies `Q`. -/
abbrev Locks {α : Type} (i : ℕ) (q : LockProg α) (Q : Except Unit α → LockSpace → Prop)
    (s : LockSpace) : Prop :=
  lockContract.Upholds LockSpace.handle Undisturbed i q Q s

/-- What the outcome grants is kept. -/
def Granted (outcome : Except Unit LockResult) (s : LockSpace) : Prop :=
  ∀ r key token expiresAt, outcome = .ok r → r.Grants key token expiresAt →
    LockSpace.Kept key token expiresAt s

section Programs

variable {i w : ℕ} {s s' : LockSpace} {key token : String} {expiresAt : ℤ}

theorem moves_of_rely (h : lockContract.Rely i s s') : LockSpace.Moves s s' :=
  h.keeps (F := LockSpace.Moves s) (fun _ _ _ _ _ hmoves h => h.trans hmoves) .refl

theorem locks_perform {o : LockOp} {Q : Except Unit o.Res → LockSpace → Prop}
    (hchecked : ∀ s', LockSpace.Moves s s' → o.Checked s'.now)
    (hQ : ∀ s' c, LockSpace.Moves s s' →
      Q (LockSpace.perform c o s').1 (LockSpace.perform c o s').2) :
    Locks i (Prog.perform o) Q s := by
  apply Crew.Contract.Upholds.perform
  intro s' hs hinv c hG
  have hlater := @LockSpace.moves_later s' c.elapsed
  have hmoves := (moves_of_rely hs).trans hlater
  obtain ⟨hinv', hmoves'⟩ :=
    (LockSpace.Exclusive.later hinv c.elapsed).perform (hchecked _ hmoves) hG
  exact ⟨hinv', hlater.trans hmoves', hQ _ c hmoves⟩

/-- A call that may be made at any time, whatever it answers. -/
theorem locks_call {o : LockOp} {α : Type} {f : o.Res → LockProg α}
    {Q : Except Unit α → LockSpace → Prop} (ho : ∀ now, o.Checked now)
    (hf : ∀ x s, Locks i (f x) Q s) (herr : ∀ s, Q (.error ()) s) :
    Locks i (Prog.perform o >>= f) Q s := by
  apply Crew.Contract.Upholds.bind (R := fun _ _ => True)
  · exact locks_perform (fun s' _ => ho s'.now) fun _ _ _ => trivial
  · exact fun x s _ => hf x s
  · exact fun _ s _ => herr s

/-- A reading of the clock is past from then on. -/
theorem locks_instantNow : Locks i (Prog.perform LockOp.instantNow)
    (fun r s => ∀ now : ℤ, r = .ok now → now ≤ s.now) s := by
  apply locks_perform
  · exact fun _ _ => trivial
  · rintro s' c - now ⟨⟩
    exact le_rfl

theorem granted_refused {lockKey message : String} :
    Granted (.ok ⟨false, none, lockKey, none, message⟩) s := by
  rintro r key token expiresAt ⟨⟩ ⟨⟨⟩, -⟩

theorem granted_acquired {message : String} (h : LockSpace.Kept key token expiresAt s) :
    Granted (.ok ⟨true, some token, key, some expiresAt, message⟩) s := by
  rintro r key' token' expiresAt' ⟨⟩ ⟨-, rfl, ⟨⟩, ⟨⟩⟩
  exact h

theorem granted_error : Granted (.error ()) s := by
  rintro r key token expiresAt ⟨⟩

theorem locks_putLocal {existing : Option LockEntry}
    (hexisting : ∀ e, existing = some e → e.expiresAt < s.now) :
    Locks i (putLocal w key token expiresAt existing) Granted s := by
  apply Crew.Contract.Upholds.bind
    (R := fun r s => r = .ok () → LockSpace.Kept key token expiresAt s)
  · apply locks_perform
    · exact fun s' hs e he => (hexisting e he).trans_le hs.1
    · exact fun s' c hs _ => LockSpace.Kept.set
  · exact fun _ s hs => granted_acquired (hs rfl)
  · rintro ⟨⟩ s -
    exact granted_error

theorem locks_acquireLocal (instantText : ℤ → String) :
    Locks i (acquireLocal instantText w key token expiresAt) Granted s := by
  refine locks_call (fun _ => trivial) ?_ fun _ => granted_error
  rintro (_ | e) s
  · apply locks_putLocal
    rintro e ⟨⟩
  · apply Crew.Contract.Upholds.bind locks_instantNow
    · rintro (now : ℤ) s hnow
      split
      · next hexpired =>
        apply locks_putLocal
        rintro e' ⟨⟩
        exact hexpired.trans_le (hnow now rfl)
      · exact granted_refused
    · rintro ⟨⟩ s -
      exact granted_error

theorem locks_acquireLock (instantText : ℤ → String) (tenantId : Option String) (resource : String)
    (ttl : Option ℤ) : Locks i (acquireLock instantText w tenantId resource ttl) Granted s := by
  refine locks_call (fun _ => trivial) (fun token s => ?_) fun _ => granted_error
  apply Crew.Contract.Upholds.bind locks_instantNow
  · rintro (now : ℤ) s hnow
    apply Crew.Contract.Upholds.attempt_bind (R := fun r s => r = .ok true →
      LockSpace.Kept (lockKey tenantId resource) token (now + lockDuration ttl) s)
    · apply locks_perform (o := LockOp.setIfAbsent _ _ _) (fun _ _ => trivial)
      intro s' c hs
      simp only [LockSpace.perform]
      split_ifs
      · rintro ⟨⟩
      · intro _
        have hle : now + lockDuration ttl ≤ s'.now + lockDuration ttl :=
          add_le_add_left ((hnow now rfl).trans hs.1) _
        exact LockSpace.Kept.set.mono hle
      · rintro ⟨⟩
    · rintro (e | _ | _) s hs
      · exact locks_acquireLocal instantText
      · exact granted_refused
      · exact granted_acquired (hs rfl)
  · rintro ⟨⟩ s -
    exact granted_error

theorem locks_releaseRedis (token : Option String) :
    Locks i (releaseRedis key token) (fun _ _ => True) s := by
  refine locks_call (fun _ => trivial) (fun (currentVal : Option String) s => ?_) fun _ => trivial
  cases token with
  | none => trivial
  | some token =>
    show Locks i (if _ then _ else _) _ _
    split
    · exact locks_call (fun _ => trivial) (fun _ _ => trivial) fun _ => trivial
    · trivial

theorem locks_releaseLocal (token : Option String) :
    Locks i (releaseLocal w key token) (fun _ _ => True) s := by
  refine locks_call (fun _ => trivial) ?_ fun _ => trivial
  rintro (_ | e) s
  · trivial
  · show Locks i (if _ then _ else _) _ _
    split
    · exact locks_call (fun _ => trivial) (fun _ _ => trivial) fun _ => trivial
    · trivial

theorem locks_releaseLock (tenantId : Option String) (resource : String) (token : Option String) :
    Locks i (releaseLock w tenantId resource token) (fun _ _ => True) s := by
  apply Crew.Contract.Upholds.attempt_bind (locks_releaseRedis token)
  rintro (e | _ | deleted) s _
  · exact locks_releaseLocal token
  · exact locks_releaseLocal token
  · trivial

/-- What the answer of a call grants is kept. -/
def GrantedBy (outcome : Except Unit LockAnswer) (s : LockSpace) : Prop :=
  ∀ r key token expiresAt, outcome = .ok (.acquired r) → r.Grants key token expiresAt →
    LockSpace.Kept key token expiresAt s

theorem locks_code (instantText : ℤ → String) (call : LockCall) :
    Locks i (call.code instantText) GrantedBy s := by
  cases call with
  | acquireLock w tenantId resource ttl =>
    apply Crew.Contract.Upholds.bind (locks_acquireLock instantText tenantId resource ttl)
    · rintro r s hs r' key token expiresAt ⟨⟩ hr
      exact hs r key token expiresAt rfl hr
    · rintro e s hs r key token expiresAt ⟨⟩
  | releaseLock w tenantId resource token =>
    apply Crew.Contract.Upholds.bind (locks_releaseLock tenantId resource token)
    · rintro b s hs r key token expiresAt ⟨⟩
    · rintro e s hs r key token expiresAt ⟨⟩

end Programs

/-! ## Runs -/

/-- Stores of which no key has two entries let no two tokens hold a key. -/
theorem LockSpace.Exclusive.unique {p : LockCrew} {key token token' : String}
    (hinv : p.state.Exclusive)
    (hkept : ∀ (i : ℕ) (r : LockResult), p.progs[i]? = some (Prog.pure (.acquired r)) →
      GrantedBy (.ok (.acquired r)) p.state)
    (h : Holds p key token) (h' : Holds p key token') : token = token' := by
  obtain ⟨i, r, e, hp, hr, hle, hnot⟩ := h
  obtain ⟨i', r', e', hp', hr', hle', hnot'⟩ := h'
  obtain ⟨a, t, ha, ht⟩ := hkept i r hp r key token e rfl hr hle hnot
  obtain ⟨a', t', ha', ht'⟩ := hkept i' r' hp' r' key token' e' rfl hr' hle' hnot'
  have hu : p.state.unexpired (a, key) = some ⟨token, t⟩ :=
    LockSpace.unexpired_eq_some.2 ⟨ha, hle.trans ht⟩
  have hu' : p.state.unexpired (a', key) = some ⟨token', t'⟩ :=
    LockSpace.unexpired_eq_some.2 ⟨ha', hle'.trans ht'⟩
  have haa' : a' = a := by
    by_contra hne
    have hnone := hinv (a, key) (by simp [hu]) a' hne
    simp [hu'] at hnone
  subst haa'
  rw [hu] at hu'
  cases hu'
  rfl

/-- **Mutual exclusion**: while no step is disturbed, no two tokens hold a key. -/
theorem mutual_exclusion (instantText : ℤ → String) (start : ℤ) (calls : List LockCall)
    {p : LockCrew}
    (hrun : Crew.Runs LockSpace.handle Undisturbed (lockCrew instantText start calls) p)
    {key token token' : String} (h : Holds p key token) (h' : Holds p key token') :
    token = token' := by
  have hstable : ∀ (i : ℕ) (r : Except Unit LockAnswer) (s s' : LockSpace),
      lockContract.Rely i s s' → GrantedBy r s → GrantedBy r s' :=
    fun i r s s' hs hr x key token t hx hgrants =>
      (moves_of_rely hs).2 key token t (hr x key token t hx hgrants)
  have hempty : (lockCrew instantText start calls).state.Exclusive := by
    intro a ha
    exact absurd rfl ha
  have hcode : ∀ i q, (lockCrew instantText start calls).progs[i]? = some q →
      Locks i q GrantedBy (lockCrew instantText start calls).state := by
    intro i q hq
    simp only [lockCrew, List.getElem?_map, Option.map_eq_some_iff] at hq
    obtain ⟨call, -, rfl⟩ := hq
    exact locks_code instantText call
  obtain ⟨hinv, hknown⟩ := Crew.Contract.run (Q := fun _ => GrantedBy) hstable hempty hcode hrun
  exact hinv.unique (fun i r hp => hknown i _ hp) h h'

/-! ### Two workers -/

/-- A worker acquires the lock, another one tries to, the first one gives it back, and then the
other one acquires it. -/
def inTurn : List LockCall :=
  [.acquireLock 0 (some "acme") "orders" none, .acquireLock 1 (some "acme") "orders" none,
    .releaseLock 0 (some "acme") "orders" (some "t0"),
    .acquireLock 1 (some "acme") "orders" none]

/-- The calls one after the other; the second lock is asked for after ten seconds. -/
def turns : List (ℕ × LockMoment) :=
  [(0, { uuid := "t0" }), (0, {}), (0, {}), (1, { elapsed := 10000, uuid := "t1" }), (1, {}),
    (1, {}), (2, {}), (2, {}), (3, { uuid := "t2" }), (3, {}), (3, {})]

theorem mutual_exclusion_inTurn : ∃ p : LockCrew,
    Holds p "flowmesh:lock:acme:orders" "t2" ∧
      ∀ token, Holds p "flowmesh:lock:acme:orders" token → token = "t2" := by
  have hrun : Crew.Runs LockSpace.handle Undisturbed (lockCrew (fun _ => "") 0 inTurn)
      (Crew.play LockSpace.handle (lockCrew (fun _ => "") 0 inTurn) turns) := by
    apply Crew.runs_play
    refine ⟨?_, ?_, ?_, ?_, ?_, ?_, ?_, ?_, ?_, ?_, ?_, trivial⟩ <;> rintro o k ⟨⟩
    case refine_3 => rintro - - (_ | w) hw <;> first | exact absurd rfl hw | rfl
    case refine_6 => rintro - - (_ | w) hw <;> first | exact absurd rfl hw | rfl
    case refine_8 => rintro e ⟨⟩; rfl
    case refine_11 => rintro - - (_ | w) hw <;> first | exact absurd rfl hw | rfl
    all_goals trivial
  have hholds : Holds (Crew.play LockSpace.handle (lockCrew (fun _ => "") 0 inTurn) turns)
      "flowmesh:lock:acme:orders" "t2" :=
    ⟨3, _, 40000, rfl, ⟨rfl, rfl, rfl, rfl⟩, by decide +kernel, by decide +kernel⟩
  exact ⟨_, hholds, fun token h => mutual_exclusion _ _ _ hrun h hholds⟩

/-- The second worker finds Redis down. -/
theorem not_mutual_exclusion_down : ¬ ∀ (instantText : ℤ → String) (start : ℤ)
    (calls : List LockCall) (p : LockCrew) (key token token' : String),
      Crew.Runs LockSpace.handle (fun _ _ _ _ => True) (lockCrew instantText start calls) p →
        Holds p key token → Holds p key token' → token = token' := by
  intro hall
  have hrun : Crew.Runs LockSpace.handle (fun _ _ _ _ => True) (lockCrew (fun _ => "") 0 inTurn)
      (Crew.play LockSpace.handle (lockCrew (fun _ => "") 0 inTurn)
        [(0, { uuid := "t0" }), (0, {}), (0, {}), (1, { uuid := "t1" }), (1, {}),
          (1, { up := false }), (1, {}), (1, {})]) :=
    Crew.runs_play _ (by simp [Crew.Allows])
  have htokens := hall _ _ _ _ "flowmesh:lock:acme:orders" "t0" "t1" hrun
    ⟨0, _, 30000, rfl, ⟨rfl, rfl, rfl, rfl⟩, by decide +kernel, by decide +kernel⟩
    ⟨1, _, 30000, rfl, ⟨rfl, rfl, rfl, rfl⟩, by decide +kernel, by decide +kernel⟩
  exact absurd htokens (by decide)

end FlowMesh.Enterprise
