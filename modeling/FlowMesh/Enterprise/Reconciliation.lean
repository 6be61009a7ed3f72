import FlowMesh.Enterprise.Transactions
import FlowMesh.Library.Machine
import Mathlib.Data.List.Perm.Basic

/-!
# Batch reconciliation

`ConcurrentLedgerReconciliationService.reconcileBatchAsync` (`services/enterprise-worker`): each
transaction of a batch gets a future of its own, which its task completes on some thread of the
pool or a timer completes first; its result is then added to a synchronised list and counted, and
when all futures are done, a summary of the batch is made and an audit record written.

An `Event` is one step of one of these threads, and a run is any sequence of them: a task or a
timer that comes second, and a step whose turn it is not, changes nothing. `batch_reconciled`: the
batch can always end; it ends with a summary exactly if no transaction is `null`, and the summary
has one result for each transaction, that of what came first for it, with counters that agree
(`Summarises`). The throughput, a `double`, and the log are left out.
-/

namespace FlowMesh.Enterprise

/-! ## Results -/

/-- `ReconciliationResult`, without its time; `none` is `null`. -/
structure ReconciliationResult where
  transactionId : String
  tenantId : Option String
  targetLedger : Option String
  sourceAmount : Option BigDecimal
  targetAmount : Option BigDecimal
  isReconciled : Bool
  status : String
  latencyMs : ℕ
  remarks : String
  deriving DecidableEq

/-- `ReconciliationResult.matched`. -/
def ReconciliationResult.matched (txnId : String) (tenantId ledger : Option String)
    (amount : BigDecimal) (latencyMs : ℕ) : ReconciliationResult :=
  ⟨txnId, tenantId, ledger, amount, amount, true, "MATCHED", latencyMs,
    "Ledger verified with exact parity"⟩

/-- `ReconciliationResult.failed`. -/
def ReconciliationResult.failed (txnId : String) (tenantId ledger : Option String)
    (amount : BigDecimal) (latencyMs : ℕ) (error : String) : ReconciliationResult :=
  ⟨txnId, tenantId, ledger, amount, none, false, "FAILED", latencyMs,
    "Downstream error: " ++ error⟩

/-- `BatchReconciliationSummary`, without the throughput. -/
structure BatchReconciliationSummary where
  batchId : String
  tenantId : Option String
  totalTransactions : ℕ
  matchedCount : ℕ
  discrepancyCount : ℕ
  failedCount : ℕ
  totalDurationMs : ℕ
  results : List ReconciliationResult

/-! ## One transaction -/

/-- What completes the future of a transaction: its task, which is verified after some time or
interrupted, or the timer. The text is what `randomUUID` gives. -/
inductive Completion
  | verified (latencyMs : ℕ) (uuid : String)
  | interrupted
  | timedOut
  deriving DecidableEq

/-- `executeRemoteLedgerVerification`, when its wait is over. -/
def executeRemoteLedgerVerification (txn : EnterpriseTransaction) (latencyMs : ℕ) (uuid : String) :
    ReconciliationResult :=
  .matched ((txn.id.map toString).getD uuid) txn.tenantId (txn.targetSystem.getD "INTERNAL_LEDGER")
    txn.monetaryAmount.amount latencyMs

/-- The function of `exceptionally`. -/
def recoverFailure (txn : EnterpriseTransaction) (errorMessage : String) : ReconciliationResult :=
  .failed ((txn.id.map toString).getD "N/A") txn.tenantId txn.targetSystem
    txn.monetaryAmount.amount 0 errorMessage

/-- The result that `thenAccept` gets; the task and the function of `exceptionally` both raise
where the transaction is `null`. -/
def reconcileSingleTransaction (timeoutMs : ℤ) :
    Option EnterpriseTransaction → Completion → Except JavaException ReconciliationResult
  | none, _ => .error ⟨"NullPointerException", ""⟩
  | some txn, .verified latencyMs uuid => .ok (executeRemoteLedgerVerification txn latencyMs uuid)
  | some txn, .interrupted =>
    .ok (recoverFailure txn "java.lang.InterruptedException: sleep interrupted")
  | some txn, .timedOut => .ok (recoverFailure txn
      ("Target ledger timeout (" ++ toString timeoutMs ++ "ms breached)"))

/-! ## A batch -/

/-- How far the futures of a transaction are. -/
inductive Stage
  | waiting
  | completed (c : Completion)
  | added (r : ReconciliationResult)
  | accepted (r : ReconciliationResult)
  | failed (e : JavaException)
  deriving DecidableEq

/-- The arguments of `reconcileBatchAsync`, and what `randomUUID` gives; a transaction may be
`null`. -/
structure BatchRequest where
  batchId : Option String
  uuid : String
  tenantId : Option String
  transactions : List (Option EnterpriseTransaction)
  timeoutMs : ℤ

/-- `effectiveBatchId`. -/
def BatchRequest.effectiveBatchId (r : BatchRequest) : String :=
  r.batchId.getD ("BATCH-" ++ (r.uuid.take 8).toString)

/-- The futures of a batch, what they share, and what came of the batch. -/
structure Batch where
  stages : List Stage
  results : List ReconciliationResult := []
  matchedCounter : ℕ := 0
  discrepancyCounter : ℕ := 0
  failedCounter : ℕ := 0
  outcome : Option (Except JavaException BatchReconciliationSummary) := none
  audits : List (String × ℕ × ℕ) := []

/-- The steps: the future of the `i`-th transaction is completed, its result is added, it is
counted; and the batch is gathered. -/
inductive Event
  | complete (i : ℕ) (c : Completion)
  | add (i : ℕ)
  | count (i : ℕ)
  | gather (durationMillis : ℕ)
  deriving DecidableEq

/-- The batch when all its futures are made. -/
def BatchRequest.submitted (r : BatchRequest) : Batch :=
  { stages := r.transactions.map fun _ => .waiting }

/-- The first completion of a future counts. -/
def Batch.complete (i : ℕ) (c : Completion) (b : Batch) : Batch :=
  match b.stages[i]? with
  | some .waiting => { b with stages := b.stages.set i (.completed c) }
  | _ => b

/-- `exceptionally`, and `results.add`. -/
def Batch.add (r : BatchRequest) (i : ℕ) (b : Batch) : Batch :=
  match r.transactions[i]?, b.stages[i]? with
  | some txn, some (.completed c) =>
    match reconcileSingleTransaction r.timeoutMs txn c with
    | .ok result =>
      { b with stages := b.stages.set i (.added result), results := b.results ++ [result] }
    | .error e => { b with stages := b.stages.set i (.failed e) }
  | _, _ => b

/-- The counter of the status. -/
def Batch.count (i : ℕ) (b : Batch) : Batch :=
  match b.stages[i]? with
  | some (.added result) =>
    let b := { b with stages := b.stages.set i (.accepted result) }
    if result.status = "MATCHED" then { b with matchedCounter := b.matchedCounter + 1 }
    else if result.status = "DISCREPANCY" then
      { b with discrepancyCounter := b.discrepancyCounter + 1 }
    else { b with failedCounter := b.failedCounter + 1 }
  | _ => b

/-- The future is done. -/
def Stage.isDone : Stage → Bool
  | .accepted _ | .failed _ => true
  | _ => false

/-- What the future raises. -/
def Stage.raised? : Stage → Option JavaException
  | .failed e => some e
  | _ => none

/-- `allOf`, and the function of `thenApply`. -/
def Batch.gather (r : BatchRequest) (durationMillis : ℕ) (b : Batch) : Batch :=
  if b.outcome.isNone ∧ b.stages.all Stage.isDone then
    match b.stages.findSome? Stage.raised? with
    | some e => { b with outcome := some (.error e) }
    | none =>
      { b with
        outcome := some (.ok
          { batchId := r.effectiveBatchId
            tenantId := r.tenantId
            totalTransactions := r.transactions.length
            matchedCount := b.matchedCounter
            discrepancyCount := b.discrepancyCounter
            failedCount := b.failedCounter
            totalDurationMs := durationMillis
            results := b.results })
        audits := b.audits ++ [(r.effectiveBatchId, r.transactions.length, b.matchedCounter)] }
  else b

/-- One step. -/
def BatchRequest.step (r : BatchRequest) (b : Batch) : Event → Batch
  | .complete i c => b.complete i c
  | .add i => b.add r i
  | .count i => b.count i
  | .gather durationMillis => b.gather r durationMillis

/-- The batch after a sequence of steps. -/
def BatchRequest.run (r : BatchRequest) (events : List Event) : Batch :=
  events.foldl r.step r.submitted

/-- What completed the future of the `i`-th transaction: the first completion of it. -/
def firstCompletion (i : ℕ) (events : List Event) : Option Completion :=
  events.findSome? fun
    | .complete j c => if j = i then some c else none
    | _ => none

/-! ## What the stages say -/

/-- What a stage says of a transaction, of which `first` is the first completion. -/
def Stage.Fits (timeoutMs : ℤ) (txn : Option EnterpriseTransaction) (first : Option Completion) :
    Stage → Prop
  | .waiting => first = none
  | .completed c => first = some c
  | .added result | .accepted result =>
    ∃ c, first = some c ∧ reconcileSingleTransaction timeoutMs txn c = .ok result
  | .failed e => ∃ c, first = some c ∧ reconcileSingleTransaction timeoutMs txn c = .error e

/-- The result that a stage has added. -/
def Stage.result? : Stage → Option ReconciliationResult
  | .added result | .accepted result => some result
  | _ => none

/-- A stage that is counted, with a status of a kind. -/
def Stage.counted (kind : String → Bool) : Stage → Bool
  | .accepted result => kind result.status
  | _ => false

/-- What the steps keep of the futures. -/
structure Batch.Follows (r : BatchRequest) (events : List Event) (b : Batch) : Prop where
  length_eq : b.stages.length = r.transactions.length
  fits : ∀ (i : ℕ) (txn : Option EnterpriseTransaction) (stage : Stage),
    r.transactions[i]? = some txn → b.stages[i]? = some stage →
      stage.Fits r.timeoutMs txn (firstCompletion i events)
  results : b.results.Perm (b.stages.filterMap Stage.result?)
  matched : b.matchedCounter = b.stages.countP (Stage.counted (· = "MATCHED"))
  discrepancy : b.discrepancyCounter = b.stages.countP (Stage.counted (· = "DISCREPANCY"))
  failed : b.failedCounter =
    b.stages.countP (Stage.counted fun status => status ≠ "MATCHED" ∧ status ≠ "DISCREPANCY")

theorem filterMap_set_perm {α β : Type} {f : α → Option β} {xs : List α} {i : ℕ} {a : α} (a' : α)
    {b : β} (hi : xs[i]? = some a) (ha : f a = none) (ha' : f a' = some b) :
    ((xs.set i a').filterMap f).Perm (xs.filterMap f ++ [b]) := by
  induction xs generalizing i with
  | nil => cases hi
  | cons x xs ih =>
    cases i with
    | zero =>
      cases Option.some.inj hi
      rw [List.set_cons_zero, List.filterMap_cons_some ha', List.filterMap_cons_none ha]
      exact (List.perm_append_singleton _ _).symm
    | succ i =>
      rw [List.set_cons_succ]
      cases hx : f x with
      | none =>
        rw [List.filterMap_cons_none hx, List.filterMap_cons_none hx]
        exact ih hi
      | some y =>
        rw [List.filterMap_cons_some hx, List.filterMap_cons_some hx]
        exact (ih hi).cons y

theorem filterMap_set_eq {α β : Type} {f : α → Option β} {xs : List α} {i : ℕ} {a : α} (a' : α)
    (hi : xs[i]? = some a) (ha : f a' = f a) : (xs.set i a').filterMap f = xs.filterMap f := by
  induction xs generalizing i with
  | nil => cases hi
  | cons x xs ih =>
    cases i with
    | zero =>
      cases Option.some.inj hi
      simp [List.filterMap_cons, ha]
    | succ i => simp [List.filterMap_cons, ih hi]

theorem countP_set_add {α : Type} {p : α → Bool} {xs : List α} {i : ℕ} {a : α} (a' : α)
    (hi : xs[i]? = some a) (ha : p a = false) :
    (xs.set i a').countP p = xs.countP p + if p a' then 1 else 0 := by
  induction xs generalizing i with
  | nil => cases hi
  | cons x xs ih =>
    cases i with
    | zero =>
      cases Option.some.inj hi
      simp [List.countP_cons, ha]
    | succ i =>
      rw [List.set_cons_succ, List.countP_cons, List.countP_cons, ih hi]
      omega

theorem firstCompletion_append (i : ℕ) (events : List Event) (e : Event) :
    firstCompletion i (events ++ [e]) =
      (firstCompletion i events).or (firstCompletion i [e]) := by
  rw [firstCompletion, List.findSome?_append]
  rfl

/-- A step that completes no future of the `i`-th transaction. -/
theorem firstCompletion_append_of_none {i : ℕ} {events : List Event} {e : Event}
    (h : firstCompletion i [e] = none) :
    firstCompletion i (events ++ [e]) = firstCompletion i events := by
  rw [firstCompletion_append, h, Option.or_none]

/-- A stage that is past waiting fits whatever comes after. -/
theorem Stage.Fits.later {timeoutMs : ℤ} {txn : Option EnterpriseTransaction} {i : ℕ}
    {events : List Event} {stage : Stage} (h : stage.Fits timeoutMs txn (firstCompletion i events))
    (hne : stage ≠ .waiting) (e : Event) :
    stage.Fits timeoutMs txn (firstCompletion i (events ++ [e])) := by
  have hkeep : ∀ c, firstCompletion i events = some c →
      firstCompletion i (events ++ [e]) = some c := by
    intro c hc
    rw [firstCompletion_append, hc]
    rfl
  cases stage with
  | waiting => exact absurd rfl hne
  | completed c => exact hkeep c h
  | added result => exact h.imp fun c hc => ⟨hkeep c hc.1, hc.2⟩
  | accepted result => exact h.imp fun c hc => ⟨hkeep c hc.1, hc.2⟩
  | failed e => exact h.imp fun c hc => ⟨hkeep c hc.1, hc.2⟩

namespace Batch.Follows

variable {r : BatchRequest} {events : List Event} {b : Batch}

theorem countP_submitted (r : BatchRequest) (kind : String → Bool) :
    r.submitted.stages.countP (Stage.counted kind) = 0 := by
  rw [List.countP_eq_zero]
  intro stage hstage
  obtain ⟨_, -, rfl⟩ := List.mem_map.1 hstage
  simp [Stage.counted]

theorem submitted (r : BatchRequest) : r.submitted.Follows r [] where
  length_eq := by simp [BatchRequest.submitted]
  fits i txn stage _ hstage := by
    simp only [BatchRequest.submitted, List.getElem?_map, Option.map_eq_some_iff] at hstage
    obtain ⟨_, -, rfl⟩ := hstage
    rfl
  results := by
    have hnone : r.submitted.stages.filterMap Stage.result? = [] := by
      simp [BatchRequest.submitted, List.filterMap_eq_nil_iff, Stage.result?]
    rw [hnone]
    exact .refl _
  matched := (countP_submitted r _).symm
  discrepancy := (countP_submitted r _).symm
  failed := (countP_submitted r _).symm

/-- A step that completes nothing for the first time leaves what fits. -/
theorem fits_later (h : b.Follows r events) {e : Event}
    (he : ∀ i, b.stages[i]? = some .waiting → firstCompletion i [e] = none) {i : ℕ}
    {txn : Option EnterpriseTransaction} {stage : Stage} (htxn : r.transactions[i]? = some txn)
    (hstage : b.stages[i]? = some stage) :
    stage.Fits r.timeoutMs txn (firstCompletion i (events ++ [e])) := by
  by_cases hw : stage = .waiting
  · subst hw
    rw [firstCompletion_append_of_none (he i hstage)]
    exact h.fits i txn _ htxn hstage
  · exact (h.fits i txn stage htxn hstage).later hw e

/-- The stages fit after one of them has changed. -/
theorem fits_set (h : b.Follows r events) {e : Event} {i : ℕ} {new : Stage}
    (he : ∀ j, j ≠ i → firstCompletion j [e] = none)
    (hnew : ∀ txn, r.transactions[i]? = some txn →
      new.Fits r.timeoutMs txn (firstCompletion i (events ++ [e]))) {j : ℕ}
    {txn : Option EnterpriseTransaction} {stage : Stage} (htxn : r.transactions[j]? = some txn)
    (hstage : (b.stages.set i new)[j]? = some stage) :
    stage.Fits r.timeoutMs txn (firstCompletion j (events ++ [e])) := by
  by_cases hij : i = j
  · subst hij
    have hlen : i < b.stages.length := by
      rw [h.length_eq]
      exact (List.getElem?_eq_some_iff.1 htxn).1
    rw [List.getElem?_set_self hlen] at hstage
    cases Option.some.inj hstage
    exact hnew txn htxn
  · rw [List.getElem?_set_ne hij] at hstage
    rw [firstCompletion_append_of_none (he j (Ne.symm hij))]
    exact h.fits j txn stage htxn hstage

/-- A step that leaves the futures alone. -/
theorem unchanged (h : b.Follows r events) {e : Event}
    (he : ∀ i, b.stages[i]? = some .waiting → firstCompletion i [e] = none) :
    b.Follows r (events ++ [e]) :=
  { h with fits := fun _ _ _ htxn hstage => h.fits_later he htxn hstage }

/-- A step that changes one stage, which is counted neither before nor after. -/
theorem set (h : b.Follows r events) {e : Event} {i : ℕ} {old new : Stage}
    {results : List ReconciliationResult} (hstage : b.stages[i]? = some old)
    (he : ∀ j, j ≠ i → firstCompletion j [e] = none)
    (hnew : ∀ txn, r.transactions[i]? = some txn →
      new.Fits r.timeoutMs txn (firstCompletion i (events ++ [e])))
    (hresults : results.Perm ((b.stages.set i new).filterMap Stage.result?))
    (hcounted : ∀ kind, old.counted kind = false ∧ new.counted kind = false) :
    Batch.Follows r (events ++ [e])
      { b with stages := b.stages.set i new, results := results } := by
  have hsame : ∀ kind, (b.stages.set i new).countP (Stage.counted kind) =
      b.stages.countP (Stage.counted kind) := by
    intro kind
    rw [countP_set_add new hstage (hcounted kind).1, (hcounted kind).2]
    rfl
  refine ⟨by simpa using h.length_eq, fun j txn stage htxn hj => ?_, hresults, ?_, ?_, ?_⟩
  · exact h.fits_set he hnew htxn hj
  · exact h.matched.trans (hsame _).symm
  · exact h.discrepancy.trans (hsame _).symm
  · exact h.failed.trans (hsame _).symm

theorem complete (h : b.Follows r events) (i : ℕ) (c : Completion) :
    (b.complete i c).Follows r (events ++ [.complete i c]) := by
  have hother : ∀ j, j ≠ i → firstCompletion j [.complete i c] = none := by
    intro j hj
    simp [firstCompletion, Ne.symm hj]
  rw [Batch.complete]
  split
  · next hstage =>
    refine h.set hstage hother (fun txn htxn => ?_) ?_ fun kind => ⟨rfl, rfl⟩
    · have hfirst : firstCompletion i events = none := h.fits i txn _ htxn hstage
      rw [firstCompletion_append, hfirst]
      simp [firstCompletion, Stage.Fits]
    · rw [filterMap_set_eq (f := Stage.result?) (.completed c) hstage rfl]
      exact h.results
  · next hstage =>
    refine h.unchanged fun j hj => ?_
    by_cases hij : j = i
    · exact absurd (hij ▸ hj) (by simpa using hstage)
    · exact hother j hij

theorem add (h : b.Follows r events) (i : ℕ) : (b.add r i).Follows r (events ++ [.add i]) := by
  have hnone : ∀ j, firstCompletion j [.add i] = none := fun j => rfl
  rw [Batch.add]
  split
  · next txn c htxn hstage =>
    have hfirst : firstCompletion i (events ++ [.add i]) = some c := by
      rw [firstCompletion_append_of_none (hnone i)]
      exact h.fits i txn _ htxn hstage
    split
    · next result hresult =>
      refine h.set hstage (fun j _ => hnone j) (fun txn' htxn' => ?_) ?_ fun kind => ⟨rfl, rfl⟩
      · cases Option.some.inj (htxn.symm.trans htxn')
        exact ⟨c, hfirst, hresult⟩
      · have hset := filterMap_set_perm (f := Stage.result?) (.added result) hstage rfl rfl
        exact (h.results.append_right [result]).trans hset.symm
    · next e he =>
      refine h.set hstage (fun j _ => hnone j) (fun txn' htxn' => ?_) ?_ fun kind => ⟨rfl, rfl⟩
      · cases Option.some.inj (htxn.symm.trans htxn')
        exact ⟨c, hfirst, he⟩
      · rw [filterMap_set_eq (f := Stage.result?) (.failed e) hstage rfl]
        exact h.results
  · exact h.unchanged fun j _ => hnone j

theorem count (h : b.Follows r events) (i : ℕ) : (b.count i).Follows r (events ++ [.count i]) := by
  have hnone : ∀ j, firstCompletion j [.count i] = none := fun j => rfl
  rw [Batch.count]
  split
  · next result hstage =>
    have hcount : ∀ kind, (b.stages.set i (.accepted result)).countP (Stage.counted kind) =
        b.stages.countP (Stage.counted kind) + if kind result.status then 1 else 0 :=
      fun kind => countP_set_add _ hstage rfl
    have hlength : (b.stages.set i (.accepted result)).length = r.transactions.length := by
      simpa using h.length_eq
    have hfits : ∀ (j : ℕ) (txn : Option EnterpriseTransaction) (stage : Stage),
        r.transactions[j]? = some txn →
        (b.stages.set i (.accepted result))[j]? = some stage →
          stage.Fits r.timeoutMs txn (firstCompletion j (events ++ [.count i])) := by
      intro j txn stage htxn hj
      refine h.fits_set (fun j _ => hnone j) (fun txn htxn => ?_) htxn hj
      rw [firstCompletion_append_of_none (hnone i)]
      exact h.fits i txn (.added result) htxn hstage
    have hresults : b.results.Perm
        ((b.stages.set i (.accepted result)).filterMap Stage.result?) := by
      rw [filterMap_set_eq (f := Stage.result?) (.accepted result) hstage rfl]
      exact h.results
    by_cases hmatched : result.status = "MATCHED"
    · simp only [hmatched, if_true]
      refine ⟨hlength, hfits, hresults, ?_, ?_, ?_⟩
      · simp [hcount, hmatched, h.matched]
      · simp [hcount, hmatched, h.discrepancy]
      · simp [hcount, hmatched, h.failed]
    · by_cases hdisc : result.status = "DISCREPANCY"
      · simp only [hdisc, if_true]
        refine ⟨hlength, hfits, hresults, ?_, ?_, ?_⟩
        · simp [hcount, hdisc, h.matched]
        · simp [hcount, hdisc, h.discrepancy]
        · simp [hcount, hdisc, h.failed]
      · simp only [hmatched, hdisc, if_false]
        refine ⟨hlength, hfits, hresults, ?_, ?_, ?_⟩
        · simp [hcount, hmatched, h.matched]
        · simp [hcount, hdisc, h.discrepancy]
        · simp [hcount, hmatched, hdisc, h.failed]
  · exact h.unchanged fun j _ => hnone j

theorem gather (h : b.Follows r events) (durationMillis : ℕ) :
    (b.gather r durationMillis).Follows r (events ++ [.gather durationMillis]) := by
  have hunchanged : b.Follows r (events ++ [.gather durationMillis]) :=
    h.unchanged fun j _ => rfl
  rw [Batch.gather]
  split
  · split
    · exact { hunchanged with }
    · exact { hunchanged with }
  · exact hunchanged

/-- **Every step keeps what the stages say.** -/
theorem step (h : b.Follows r events) (e : Event) : (r.step b e).Follows r (events ++ [e]) := by
  cases e with
  | complete i c => exact h.complete i c
  | add i => exact h.add i
  | count i => exact h.count i
  | gather durationMillis => exact h.gather durationMillis

end Batch.Follows

theorem BatchRequest.run_concat (r : BatchRequest) (events : List Event) (e : Event) :
    r.run (events ++ [e]) = r.step (r.run events) e := by
  rw [BatchRequest.run, List.foldl_append]
  rfl

theorem BatchRequest.follows_run (r : BatchRequest) (events : List Event) :
    (r.run events).Follows r events := by
  induction events using List.reverseRecOn with
  | nil => exact .submitted r
  | append_singleton events e ih =>
    rw [r.run_concat]
    exact ih.step e

/-! ## The summary -/

/-- The task was in time. -/
def Completion.isVerified : Completion → Bool
  | .verified _ _ => true
  | _ => false

/-- What the first completion of the `i`-th transaction makes its result. -/
def BatchRequest.result? (r : BatchRequest) (events : List Event) (i : ℕ) :
    Option ReconciliationResult :=
  match r.transactions[i]?, firstCompletion i events with
  | some txn, some c => (reconcileSingleTransaction r.timeoutMs txn c).toOption
  | _, _ => none

/-- A summary is that of the batch: one result for each transaction, that of what came first for
it, and counters that agree with them. -/
structure Summarises (r : BatchRequest) (events : List Event)
    (summary : BatchReconciliationSummary) : Prop where
  completed : ∀ i < r.transactions.length, (r.result? events i).isSome
  results : summary.results.Perm
    ((List.range r.transactions.length).filterMap (r.result? events))
  total : summary.totalTransactions = r.transactions.length
  matched : summary.matchedCount = (List.range r.transactions.length).countP fun i =>
    (firstCompletion i events).any Completion.isVerified
  discrepancy : summary.discrepancyCount = 0
  failed : summary.failedCount = (List.range r.transactions.length).countP fun i =>
    (firstCompletion i events).any fun c => !c.isVerified

theorem map_eq_map_range {α β : Type} {xs : List α} {f : α → β} {g : ℕ → β}
    (h : ∀ i x, xs[i]? = some x → f x = g i) : xs.map f = (List.range xs.length).map g := by
  refine List.ext_getElem? fun i => ?_
  rw [List.getElem?_map, List.getElem?_map]
  by_cases hi : i < xs.length
  · rw [List.getElem?_range hi, List.getElem?_eq_getElem hi]
    exact congrArg some (h i _ (List.getElem?_eq_getElem hi))
  · rw [List.getElem?_eq_none (by omega), List.getElem?_eq_none (by simpa using hi)]
    rfl

/-- The status of a result tells whether the task was in time. -/
theorem status_reconcile {timeoutMs : ℤ} {txn : Option EnterpriseTransaction} {c : Completion}
    {result : ReconciliationResult} (h : reconcileSingleTransaction timeoutMs txn c = .ok result) :
    result.status = if c.isVerified then "MATCHED" else "FAILED" := by
  cases txn with
  | none => cases h
  | some txn => cases c <;> cases h <;> rfl

/-- The counter of a kind of status, when every result is counted. -/
theorem Batch.Follows.countP_eq {r : BatchRequest} {events : List Event} {b : Batch}
    (h : b.Follows r events)
    (hall : ∀ (i : ℕ) (stage : Stage), b.stages[i]? = some stage →
      ∃ result, stage = .accepted result)
    (kind : String → Bool) :
    b.stages.countP (Stage.counted kind) = (List.range r.transactions.length).countP fun i =>
      (firstCompletion i events).any fun c =>
        kind (if c.isVerified then "MATCHED" else "FAILED") := by
  have hmap := map_eq_map_range (f := Stage.counted kind) (g := fun i =>
    (firstCompletion i events).any fun c => kind (if c.isVerified then "MATCHED" else "FAILED"))
    fun i stage (hstage : b.stages[i]? = some stage) => by
    obtain ⟨result, rfl⟩ := hall i stage hstage
    have hi : i < r.transactions.length := h.length_eq ▸ (List.getElem?_eq_some_iff.1 hstage).1
    obtain ⟨c, hc, hresult⟩ := h.fits i _ _ (List.getElem?_eq_getElem hi) hstage
    rw [hc, Stage.counted, status_reconcile hresult]
    rfl
  have hcount := congrArg (List.countP id) hmap
  rwa [List.countP_map, List.countP_map, h.length_eq] at hcount

theorem Batch.Follows.summarises {r : BatchRequest} {events : List Event} {b : Batch}
    (h : b.Follows r events)
    (hall : ∀ (i : ℕ) (stage : Stage), b.stages[i]? = some stage →
      ∃ result, stage = .accepted result)
    (durationMillis : ℕ) :
    Summarises r events ⟨r.effectiveBatchId, r.tenantId, r.transactions.length, b.matchedCounter,
      b.discrepancyCounter, b.failedCounter, durationMillis, b.results⟩ := by
  have hresult : ∀ (i : ℕ) (stage : Stage), b.stages[i]? = some stage →
      stage.result? = r.result? events i ∧ stage.result?.isSome := by
    intro i stage hstage
    obtain ⟨result, rfl⟩ := hall i stage hstage
    have hi : i < r.transactions.length := h.length_eq ▸ (List.getElem?_eq_some_iff.1 hstage).1
    have htxn : r.transactions[i]? = some r.transactions[i] := List.getElem?_eq_getElem hi
    obtain ⟨c, hc, hresult⟩ := h.fits i _ _ htxn hstage
    refine ⟨?_, rfl⟩
    rw [BatchRequest.result?, htxn, hc]
    simp [hresult, Stage.result?, Except.toOption]
  refine ⟨fun i hi => ?_, ?_, rfl, ?_, ?_, ?_⟩
  · have hstage := List.getElem?_eq_getElem (l := b.stages) (h.length_eq ▸ hi)
    rw [← (hresult i _ hstage).1]
    exact (hresult i _ hstage).2
  · refine h.results.trans (List.Perm.of_eq ?_)
    have hmap := congrArg (List.filterMap id)
      (map_eq_map_range fun i stage hstage => (hresult i stage hstage).1)
    rwa [List.filterMap_map, List.filterMap_map, h.length_eq] at hmap
  · rw [h.matched, h.countP_eq hall]
    refine List.countP_congr fun i _ => ?_
    cases firstCompletion i events with
    | none => simp
    | some c => cases c <;> simp [Completion.isVerified]
  · rw [h.discrepancy, h.countP_eq hall, List.countP_eq_zero]
    intro i _
    cases firstCompletion i events with
    | none => simp
    | some c => cases c <;> simp [Completion.isVerified]
  · rw [h.failed, h.countP_eq hall]
    refine List.countP_congr fun i _ => ?_
    cases firstCompletion i events with
    | none => simp
    | some c => cases c <;> simp [Completion.isVerified]

/-- A summary stays that of the batch, whatever the tasks and timers do that come second. -/
theorem Summarises.later {r : BatchRequest} {events : List Event}
    {summary : BatchReconciliationSummary} (h : Summarises r events summary) (e : Event) :
    Summarises r (events ++ [e]) summary := by
  have hfirst : ∀ i < r.transactions.length,
      firstCompletion i (events ++ [e]) = firstCompletion i events := by
    intro i hi
    have hsome := h.completed i hi
    cases hc : firstCompletion i events with
    | none => simp [BatchRequest.result?, hc] at hsome
    | some c =>
      rw [firstCompletion_append, hc]
      rfl
  have hresult : ∀ i < r.transactions.length, r.result? (events ++ [e]) i = r.result? events i :=
    fun i hi => by rw [BatchRequest.result?, BatchRequest.result?, hfirst i hi]
  refine ⟨fun i hi => ?_, ?_, h.total, ?_, h.discrepancy, ?_⟩
  · rw [hresult i hi]
    exact h.completed i hi
  · rw [List.filterMap_congr fun i hi => hresult i (List.mem_range.1 hi)]
    exact h.results
  · rw [h.matched]
    exact List.countP_congr fun i hi => by rw [hfirst i (List.mem_range.1 hi)]
  · rw [h.failed]
    exact List.countP_congr fun i hi => by rw [hfirst i (List.mem_range.1 hi)]

/-- What came of a batch, and what is in the audit log then. -/
def Batch.Ends (r : BatchRequest) (events : List Event) (b : Batch) : Prop :=
  match b.outcome with
  | none => b.audits = []
  | some (.error _) => none ∈ r.transactions ∧ b.audits = []
  | some (.ok summary) =>
    none ∉ r.transactions ∧ Summarises r events summary ∧
      b.audits = [(r.effectiveBatchId, r.transactions.length, summary.matchedCount)]

theorem Batch.Ends.later {r : BatchRequest} {events : List Event} {b b' : Batch}
    (h : b.Ends r events) (houtcome : b'.outcome = b.outcome) (haudits : b'.audits = b.audits)
    (e : Event) : b'.Ends r (events ++ [e]) := by
  unfold Batch.Ends at *
  rw [houtcome, haudits]
  split at h
  · exact h
  · exact h
  · exact ⟨h.1, h.2.1.later e, h.2.2⟩

theorem Batch.outcome_complete (i : ℕ) (c : Completion) (b : Batch) :
    (b.complete i c).outcome = b.outcome ∧ (b.complete i c).audits = b.audits := by
  rw [Batch.complete]
  split <;> exact ⟨rfl, rfl⟩

theorem Batch.outcome_add (r : BatchRequest) (i : ℕ) (b : Batch) :
    (b.add r i).outcome = b.outcome ∧ (b.add r i).audits = b.audits := by
  rw [Batch.add]
  split
  · split <;> exact ⟨rfl, rfl⟩
  · exact ⟨rfl, rfl⟩

theorem Batch.outcome_count (i : ℕ) (b : Batch) :
    (b.count i).outcome = b.outcome ∧ (b.count i).audits = b.audits := by
  rw [Batch.count]
  split
  · dsimp only
    split_ifs <;> exact ⟨rfl, rfl⟩
  · exact ⟨rfl, rfl⟩

/-- A future that raised is that of a transaction that is `null`. -/
theorem Batch.Follows.none_mem_iff {r : BatchRequest} {events : List Event} {b : Batch}
    (h : b.Follows r events) (hdone : b.stages.all Stage.isDone) :
    none ∈ r.transactions ↔ ∃ e, .failed e ∈ b.stages := by
  constructor
  · intro hmem
    obtain ⟨i, hi, htxn⟩ := List.getElem_of_mem hmem
    obtain ⟨stage, hstage⟩ : ∃ stage, b.stages[i]? = some stage :=
      ⟨_, List.getElem?_eq_getElem (h.length_eq ▸ hi)⟩
    have hmem_stage := List.mem_of_getElem? hstage
    have hdone_i := List.all_eq_true.1 hdone _ hmem_stage
    have hfits := h.fits i none _ (by rw [List.getElem?_eq_getElem hi, htxn]) hstage
    cases stage with
    | failed e => exact ⟨e, hmem_stage⟩
    | accepted result =>
      obtain ⟨c, -, hresult⟩ := hfits
      cases hresult
    | waiting => simp [Stage.isDone] at hdone_i
    | completed c => simp [Stage.isDone] at hdone_i
    | added result => simp [Stage.isDone] at hdone_i
  · rintro ⟨e, hmem⟩
    obtain ⟨i, hi, hstage⟩ := List.getElem_of_mem hmem
    have hlen : i < r.transactions.length := h.length_eq ▸ hi
    have htxn : r.transactions[i]? = some r.transactions[i] := List.getElem?_eq_getElem hlen
    obtain ⟨c, -, hraised⟩ :=
      h.fits i _ (.failed e) htxn (by rw [List.getElem?_eq_getElem hi, hstage])
    cases hnull : r.transactions[i] with
    | none => exact hnull ▸ List.getElem_mem hlen
    | some txn =>
      rw [hnull] at hraised
      cases c <;> cases hraised

theorem Batch.Follows.ends_gather {r : BatchRequest} {events : List Event} {b : Batch}
    (h : b.Follows r events) (hends : b.Ends r events) (durationMillis : ℕ) :
    (b.gather r durationMillis).Ends r (events ++ [.gather durationMillis]) := by
  rw [Batch.gather]
  split
  · next hcond =>
    obtain ⟨hnone, hdone⟩ := hcond
    have haudits : b.audits = [] := by
      rw [Option.isNone_iff_eq_none] at hnone
      simpa [Batch.Ends, hnone] using hends
    split
    · next e hraised =>
      obtain ⟨stage, hstage, hfailed⟩ := List.exists_of_findSome?_eq_some hraised
      refine ⟨(h.none_mem_iff hdone).2 ⟨e, ?_⟩, haudits⟩
      cases stage <;> cases hfailed
      exact hstage
    · next hraised =>
      rw [List.findSome?_eq_none_iff] at hraised
      have hall : ∀ (i : ℕ) (stage : Stage), b.stages[i]? = some stage →
          ∃ result, stage = .accepted result := by
        intro i stage hstage
        have hmem := List.mem_of_getElem? hstage
        have hisDone := List.all_eq_true.1 hdone stage hmem
        cases stage with
        | accepted result => exact ⟨result, rfl⟩
        | failed e => cases hraised _ hmem
        | waiting => cases hisDone
        | completed c => cases hisDone
        | added result => cases hisDone
      refine ⟨fun hmem => ?_, (h.summarises hall durationMillis).later _, by simp [haudits]⟩
      obtain ⟨e, he⟩ := (h.none_mem_iff hdone).1 hmem
      cases hraised _ he
  · exact hends.later rfl rfl _

theorem BatchRequest.ends_run (r : BatchRequest) (events : List Event) :
    (r.run events).Ends r events := by
  induction events using List.reverseRecOn with
  | nil => exact rfl
  | append_singleton events e ih =>
    rw [r.run_concat]
    cases e with
    | complete i c =>
      exact ih.later (Batch.outcome_complete i c _).1 (Batch.outcome_complete i c _).2 _
    | add i => exact ih.later (Batch.outcome_add r i _).1 (Batch.outcome_add r i _).2 _
    | count i => exact ih.later (Batch.outcome_count i _).1 (Batch.outcome_count i _).2 _
    | gather durationMillis => exact (r.follows_run events).ends_gather ih durationMillis

/-! ## A batch can always end -/

/-- The future of the `i`-th transaction is done. -/
def Batch.DoneAt (b : Batch) (i : ℕ) : Prop := ∃ stage, b.stages[i]? = some stage ∧ stage.isDone

/-- What is done stays done. -/
theorem Batch.DoneAt.step {r : BatchRequest} {b : Batch} {i : ℕ} (h : b.DoneAt i) (e : Event) :
    (r.step b e).DoneAt i := by
  obtain ⟨stage, hstage, hdone⟩ := h
  have hset : ∀ {j : ℕ} {old new : Stage}, b.stages[j]? = some old → old.isDone = false →
      (b.stages.set j new)[i]? = some stage := by
    intro j old new hold hnot
    have hij : j ≠ i := by
      rintro rfl
      cases Option.some.inj (hstage.symm.trans hold)
      simp [hnot] at hdone
    rw [List.getElem?_set_ne hij, hstage]
  cases e with
  | complete j c =>
    simp only [BatchRequest.step, Batch.complete]
    split
    · next hj => exact ⟨stage, hset hj rfl, hdone⟩
    · exact ⟨stage, hstage, hdone⟩
  | add j =>
    simp only [BatchRequest.step, Batch.add]
    split
    · next hj => split <;> exact ⟨stage, hset hj rfl, hdone⟩
    · exact ⟨stage, hstage, hdone⟩
  | count j =>
    simp only [BatchRequest.step, Batch.count]
    split
    · next hj =>
      refine ⟨stage, ?_, hdone⟩
      split_ifs <;> exact hset hj rfl
    · exact ⟨stage, hstage, hdone⟩
  | gather durationMillis =>
    simp only [BatchRequest.step, Batch.gather]
    split
    · split <;> exact ⟨stage, hstage, hdone⟩
    · exact ⟨stage, hstage, hdone⟩

theorem Batch.DoneAt.steps {r : BatchRequest} {b : Batch} {i : ℕ} (h : b.DoneAt i)
    (events : List Event) : (events.foldl r.step b).DoneAt i := by
  induction events generalizing b with
  | nil => exact h
  | cons e events ih => exact ih (h.step e)

/-- The timer of a transaction, and what follows it. -/
def timeOut (i : ℕ) : List Event := [.complete i .timedOut, .add i, .count i]

theorem doneAt_timeOut {r : BatchRequest} {b : Batch} {i : ℕ}
    (hlen : b.stages.length = r.transactions.length) (hi : i < r.transactions.length) :
    ((timeOut i).foldl r.step b).DoneAt i := by
  have hb : i < b.stages.length := hlen ▸ hi
  have htxn : r.transactions[i]? = some r.transactions[i] := List.getElem?_eq_getElem hi
  have hstage : b.stages[i]? = some b.stages[i] := List.getElem?_eq_getElem hb
  -- from the moment the future is completed
  have hcompleted : ∀ (b : Batch) (c : Completion), b.stages[i]? = some (.completed c) →
      ((b.add r i).count i).DoneAt i := by
    intro b c hc
    have hlt : i < b.stages.length := (List.getElem?_eq_some_iff.1 hc).1
    cases hresult : reconcileSingleTransaction r.timeoutMs r.transactions[i] c with
    | ok result =>
      refine ⟨.accepted result, ?_, rfl⟩
      simp only [Batch.add, htxn, hc, hresult, Batch.count, List.getElem?_set_self hlt]
      split_ifs <;> simp [hlt]
    | error e =>
      refine ⟨.failed e, ?_, rfl⟩
      simp [Batch.add, htxn, hc, hresult, Batch.count, List.getElem?_set_self hlt]
  change (((b.complete i .timedOut).add r i).count i).DoneAt i
  cases hcase : b.stages[i] with
  | waiting =>
    refine hcompleted _ .timedOut ?_
    simp [Batch.complete, hcase, hb]
  | completed c =>
    refine hcompleted _ c ?_
    simp [Batch.complete, hstage, hcase]
  | added result =>
    refine ⟨.accepted result, ?_, rfl⟩
    simp only [Batch.complete, hstage, hcase, Batch.add, htxn, Batch.count]
    split_ifs <;> simp [hb]
  | accepted result =>
    refine ⟨.accepted result, ?_, rfl⟩
    simp [Batch.complete, hstage, hcase, Batch.add, htxn, Batch.count]
  | failed e =>
    refine ⟨.failed e, ?_, rfl⟩
    simp [Batch.complete, hstage, hcase, Batch.add, htxn, Batch.count]

theorem BatchRequest.run_append (r : BatchRequest) (events more : List Event) :
    r.run (events ++ more) = more.foldl r.step (r.run events) := by
  rw [BatchRequest.run, List.foldl_append]
  rfl

/-- The timers of the first transactions end their futures. -/
theorem doneAt_timeOuts (r : BatchRequest) (events : List Event) {k : ℕ}
    (hk : k ≤ r.transactions.length) :
    ∀ i < k, (r.run (events ++ (List.range k).flatMap timeOut)).DoneAt i := by
  induction k with
  | zero => simp
  | succ k ih =>
    intro i hi
    have hsplit : (List.range (k + 1)).flatMap timeOut =
        (List.range k).flatMap timeOut ++ timeOut k := by
      simp [List.range_succ]
    rw [hsplit, ← List.append_assoc, r.run_append]
    by_cases hik : i = k
    · subst hik
      exact doneAt_timeOut (r.follows_run _).length_eq hk
    · exact (ih (by omega) i (by omega)).steps _

/-- **A batch can always end, and it ends with its summary unless it has a `null`.** Whatever the
order in which tasks end, timers run out, results are added and counted: the batch can go on to
its end; it then fails if a transaction is `null`, without an audit record, and otherwise gives a
summary of what came first for each transaction, with one audit record. -/
theorem batch_reconciled (r : BatchRequest) (events : List Event) :
    (∃ more, (r.run (events ++ more)).outcome ≠ none) ∧
      match (r.run events).outcome with
      | none => (r.run events).audits = []
      | some (.error _) => none ∈ r.transactions ∧ (r.run events).audits = []
      | some (.ok summary) =>
        none ∉ r.transactions ∧ Summarises r events summary ∧
          (r.run events).audits =
            [(r.effectiveBatchId, r.transactions.length, summary.matchedCount)] := by
  refine ⟨⟨(List.range r.transactions.length).flatMap timeOut ++ [.gather 0], ?_⟩,
    r.ends_run events⟩
  rw [← List.append_assoc, r.run_concat]
  set b := r.run (events ++ (List.range r.transactions.length).flatMap timeOut) with hb
  have hdone : b.stages.all Stage.isDone := by
    rw [List.all_eq_true]
    intro stage hstage
    obtain ⟨i, hi, rfl⟩ := List.getElem_of_mem hstage
    have hlen : i < r.transactions.length := (r.follows_run _).length_eq ▸ hi
    obtain ⟨stage, hstage, hisDone⟩ := doneAt_timeOuts r events le_rfl i hlen
    rw [← hb, List.getElem?_eq_getElem hi] at hstage
    exact Option.some.inj hstage ▸ hisDone
  simp only [BatchRequest.step, Batch.gather, hdone, and_true]
  cases houtcome : b.outcome with
  | none =>
    simp only [Option.isNone_none, if_true]
    split <;> simp
  | some outcome => simp [houtcome]

end FlowMesh.Enterprise
