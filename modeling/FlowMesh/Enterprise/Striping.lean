import FlowMesh.Enterprise.Outbox
import FlowMesh.Library.Monitor
import Mathlib.Data.Fintype.EquivFin
import Mathlib.Order.Fin.Basic

/-!
# Tenant stripes

`TenantConcurrencyStripingManager` (`services/enterprise-worker`): sixty-four reentrant locks, and
`executeInTenantStripe`, which runs a task under the lock that the hash of its partition key
selects. `TransactionProcessingService` runs each transaction in the stripe of its tenant.

The threads of the worker are texts over these calls (`Monitor.Code`), and any of them makes the
next step. `stripes_serialize`: tasks that act on what their stripe guards run as if one after the
other, whatever they return or raise. `stripes_progress`: where tasks take further stripes in
ascending order only, two tasks with one partition key are never in their stripe together, and no
run ends before all threads have returned, with every stripe free.
-/

namespace FlowMesh.Enterprise

open Monitor

/-! ## The stripe of a key -/

/-- The UTF-16 units of a character. -/
def charUnits (c : Char) : List (BitVec 32) :=
  if c.toNat < 0x10000 then [BitVec.ofNat 32 c.toNat]
  else
    [BitVec.ofNat 32 (0xd800 + (c.toNat - 0x10000) / 0x400),
      BitVec.ofNat 32 (0xdc00 + (c.toNat - 0x10000) % 0x400)]

/-- `String.hashCode`, in an `int`. -/
def hashCode (s : String) : BitVec 32 :=
  (s.toList.flatMap charUnits).foldl (fun h unit => 31 * h + unit) 0

/-- `Math.abs` on an `int`. -/
def intAbs (n : BitVec 32) : BitVec 32 := if n.msb then -n else n

/-- `resolveStripeIndex`; `none` is `null`. -/
def resolveStripeIndex : Option String → BitVec 32
  | none => 0
  | some key =>
    let h := hashCode key
    let h := h ^^^ (h >>> 16)
    intAbs (h &&& 63)

theorem toNat_and_mask (h : BitVec 32) : (h &&& 63).toNat < 64 := by
  rw [BitVec.toNat_and]
  exact Nat.lt_of_le_of_lt Nat.and_le_right (by decide)

theorem intAbs_of_lt {n : BitVec 32} (h : n.toNat < 64) : intAbs n = n := by
  have hmsb : n.msb = false := by
    rw [BitVec.msb_eq_false_iff_two_mul_lt]
    omega
  rw [intAbs, hmsb]
  rfl

/-- The index is one of the array, whatever the hash is. -/
theorem resolveStripeIndex_lt (key : Option String) : (resolveStripeIndex key).toNat < 64 := by
  cases key with
  | none => decide
  | some key =>
    rw [resolveStripeIndex, intAbs_of_lt (toNat_and_mask _)]
    exact toNat_and_mask _

/-- `lockStripes[stripeIndex]`. -/
def lockStripe (key : Option String) : Fin 64 :=
  ⟨(resolveStripeIndex key).toNat, resolveStripeIndex_lt key⟩

/-! ## Calls -/

variable {σ ρ α : Type}

/-- What the threads of the worker do: they act on what a stripe guards, and make calls. -/
abbrev WorkerCode (σ ρ α : Type) : Type := Code (Fin 64) σ ρ JavaException α

/-- What `unlock` raises for a thread that does not have the lock. -/
def illegalMonitorState : JavaException := ⟨"IllegalMonitorStateException", ""⟩

/-- `executeInTenantStripe`: the task under its lock, which is released whether the task returns or
raises. -/
def executeInTenantStripe (partitionKey : Option String) (task : WorkerCode σ ρ α)
    (k : Except JavaException α → WorkerCode σ ρ α) : WorkerCode σ ρ α :=
  .sync (lockStripe partitionKey) task k

/-- A thread that makes calls one after the other, each with a task that acts on what the stripe of
its key guards. -/
inductive Serves : WorkerCode σ ρ α → Prop
  | returns (r : Except JavaException α) : Serves (.ret r)
  | calls {partitionKey : Option String} {task : WorkerCode σ ρ α}
      {k : Except JavaException α → WorkerCode σ ρ α}
      (htask : task.Within (lockStripe partitionKey)) (hk : ∀ r, Serves (k r)) :
      Serves (executeInTenantStripe partitionKey task k)

theorem Serves.confined {code : WorkerCode σ ρ α} (h : Serves code) : code.Confined := by
  induction h with
  | returns r => trivial
  | calls htask _ ih => exact ⟨htask, ih⟩

/-- Tasks that take no further stripe. -/
theorem Serves.ascends {code : WorkerCode σ ρ α} (h : Serves code) : code.Ascends [] := by
  induction h with
  | returns r => trivial
  | calls htask _ ih => exact ⟨Or.inr (by simp), htask.ascends (List.mem_singleton_self _), ih⟩

/-- A thread is in a task with the key. -/
def InTask (th : Thread (Fin 64) σ ρ JavaException α) (partitionKey : Option String) : Prop :=
  ∃ k, (lockStripe partitionKey, k) ∈ th.frames

theorem InTask.depth_pos {th : Thread (Fin 64) σ ρ JavaException α} {key : Option String}
    (h : InTask th key) : 0 < th.depth (lockStripe key) := by
  obtain ⟨k, hk⟩ := h
  exact List.count_pos_iff.2 (List.mem_map.2 ⟨_, hk, rfl⟩)

/-! ## Tasks run one after the other -/

/-- **Tasks run as if one after the other.** Whatever the order of the threads' steps, the worker
gets to a state which, once the tasks that were begun are done, is one that it gets to by running
each task in one go. What no begun task guards is in that state already, and so are the threads
that are in no task. -/
theorem stripes_serialize (data : Fin 64 → σ) (codes : List (WorkerCode σ ρ α))
    (hcodes : ∀ code ∈ codes, Serves code) (s : State (Fin 64) σ ρ JavaException α)
    (hrun : Reaches illegalMonitorState (initial data codes) s) :
    Serially ⟨data, codes⟩ s.settled ∧
      (∀ i, s.locks i = none → s.settled.data i = s.data i) ∧
      ∀ (t : ℕ) (th : Thread (Fin 64) σ ρ JavaException α), s.threads[t]? = some th →
        th.frames = [] → s.settled.codes[t]? = some th.code := by
  have hbalanced : Balanced (initial data codes) := balanced_initial data codes
  have hconfined : (initial data codes).Confined :=
    confined_initial fun code hcode => (hcodes code hcode).confined
  refine ⟨?_, fun i hfree => ?_, fun t th hth hframes => ?_⟩
  · have hserial := hbalanced.run_serial hconfined hrun
    rwa [settled_initial] at hserial
  · simp [State.settled, State.settledData, hfree]
  · simp [State.settled, hth, Thread.settled, hframes]

/-- A thread that counts up in the stripe of a key: it reads the count, and then writes it. -/
def countUp (partitionKey : Option String) : WorkerCode ℕ ℕ Unit :=
  executeInTenantStripe partitionKey
    (.act (lockStripe partitionKey) (fun n => (n, n)) fun n =>
      .act (lockStripe partitionKey) (fun _ => (n, n + 1)) fun _ => .ret (.ok ()))
    fun r => .ret r

theorem serves_countUp (partitionKey : Option String) : Serves (countUp partitionKey) :=
  .calls ⟨rfl, fun _ => ⟨rfl, fun _ => trivial⟩⟩ fun r => .returns r

/-- Two threads of one tenant, the first between its read and its write, and the second waiting. -/
theorem stripes_serialize_countUp :
    ∃ s, play illegalMonitorState [0, 0] (initial (fun _ => 0) [countUp "acme", countUp "acme"]) =
        some s ∧ Serially ⟨fun _ => 0, [countUp "acme", countUp "acme"]⟩ s.settled := by
  have hcodes : ∀ code ∈ [countUp "acme", countUp "acme"], Serves code := by
    simp [serves_countUp]
  obtain ⟨s, hs⟩ : ∃ s, play illegalMonitorState [0, 0]
      (initial (fun _ => 0) [countUp "acme", countUp "acme"]) = some s := ⟨_, rfl⟩
  exact ⟨s, hs, (stripes_serialize _ _ hcodes s (reaches_of_play hs)).1⟩

/-! ## No two in a stripe, and none left waiting -/

/-- **No two tasks of one key at a time, and no deadlock.** Where the stripes that a task takes
inside another one ascend, no run ends before every thread has returned; and every stripe is free
when they have. -/
theorem stripes_progress (data : Fin 64 → σ) (codes : List (WorkerCode σ ρ α))
    (s : State (Fin 64) σ ρ JavaException α)
    (hrun : Reaches illegalMonitorState (initial data codes) s) :
    (∀ (key : Option String) (t u : ℕ) (th thu : Thread (Fin 64) σ ρ JavaException α),
        s.threads[t]? = some th → s.threads[u]? = some thu → InTask th key → InTask thu key →
          t = u) ∧
      ((∀ code ∈ codes, code.Ascends []) → (∀ t, step illegalMonitorState t s = none) →
        ∀ th ∈ s.threads, th.Returned) ∧
      ((∀ th ∈ s.threads, th.Returned) → ∀ i, s.locks i = none) := by
  have hinitial : Balanced (initial data codes) := balanced_initial data codes
  have hbalanced : Balanced s := hinitial.run hrun
  refine ⟨fun key t u th thu ht hu hth hthu => ?_, fun hcodes => ?_, fun hall i => ?_⟩
  · exact hbalanced.exclusive ht hu hth.depth_pos hthu.depth_pos
  · exact hbalanced.progress ((ascending_initial hcodes).run hinitial hrun)
  · refine hbalanced.free fun t th hth => ?_
    rw [Thread.depth, (hall th (List.mem_of_getElem? hth)).1]
    rfl

/-- The same two threads, run until neither can make a step: both have counted, and the stripe is
free. -/
theorem stripes_progress_countUp :
    ∃ s, play illegalMonitorState [0, 0, 0, 0, 1, 1, 1, 1]
        (initial (fun _ => 0) [countUp "acme", countUp "acme"]) = some s ∧
      s.data (lockStripe "acme") = 2 ∧ (∀ th ∈ s.threads, th.Returned) ∧ ∀ i, s.locks i = none := by
  have hcodes : ∀ code ∈ [countUp "acme", countUp "acme"], code.Ascends [] := by
    simp [(serves_countUp _).ascends]
  obtain ⟨s, hs, hstuck, hdata⟩ : ∃ s, play illegalMonitorState [0, 0, 0, 0, 1, 1, 1, 1]
      (initial (fun _ => 0) [countUp "acme", countUp "acme"]) = some s ∧
        (∀ t, step illegalMonitorState t s = none) ∧ s.data (lockStripe "acme") = 2 := by
    refine ⟨_, rfl, fun t => ?_, rfl⟩
    rcases t with _ | _ | t <;> rfl
  obtain ⟨-, hprogress, hfree⟩ := stripes_progress _ _ s (reaches_of_play hs)
  have hreturned : ∀ th ∈ s.threads, th.Returned := hprogress hcodes hstuck
  exact ⟨s, hs, hdata, hreturned, hfree hreturned⟩

end FlowMesh.Enterprise
