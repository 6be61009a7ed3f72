import FlowMesh.Enterprise.Outbox
import Mathlib.Data.Rat.Defs

/-!
# Enterprise transactions

`TransactionProcessingService` (`services/enterprise-worker`): a transaction is saved, its event is
appended to the outbox, and an audit record is written. `persistTransaction` is called on the same
object, so its annotation starts no transaction and the repository commits the row by itself; the
event is the outbox's own transaction after that.

`committed_together_iff` says when the row and the event are stored together or not at all.
-/

namespace FlowMesh.Enterprise

/-! ## Transactions -/

/-- `BigDecimal`. -/
abbrev BigDecimal := ℚ

/-- `MonetaryAmount`. -/
structure MonetaryAmount where
  amount : BigDecimal
  currency : String
  deriving DecidableEq

/-- `s.trim()`. -/
def trim (s : String) : String :=
  let isBlank := fun c : Char => c ≤ ' '
  String.ofList ((s.toList.dropWhile isBlank).reverse.dropWhile isBlank).reverse

/-- `s.length()`: a character beyond the first plane of Unicode counts twice. -/
def utf16Length (s : String) : ℕ :=
  s.toList.foldl (fun n c => n + if c.toNat < 0x10000 then 1 else 2) 0

/-- The constructor of `MonetaryAmount`, behind its check of the amount; the letters that
`toUpperCase` changes are those of ASCII. -/
def MonetaryAmount.new (amount : BigDecimal) (currency : String) :
    Except JavaException MonetaryAmount :=
  if utf16Length (trim currency) ≠ 3 then
    .error ⟨"IllegalArgumentException", "Currency must be a 3-letter ISO code"⟩
  else .ok ⟨amount, (trim currency).toUpper⟩

/-- `TransactionAuditEntry`. -/
structure TransactionAuditEntry where
  action : String
  actor : String
  details : String
  deriving DecidableEq

/-- `EnterpriseTransaction`, without its times; `none` is `null`. -/
structure EnterpriseTransaction where
  id : Option ℕ := none
  tenantId : Option String
  externalReference : Option String
  monetaryAmount : MonetaryAmount
  sourceSystem : Option String
  targetSystem : Option String
  status : String
  auditEntries : List TransactionAuditEntry := []
  deriving DecidableEq

/-- The arguments of `processTransaction`. -/
structure TransactionRequest where
  tenantId : Option String
  reference : Option String
  amount : Option BigDecimal
  currency : Option String
  sourceSystem : Option String
  targetSystem : Option String
  deriving DecidableEq

/-- The constructor of `EnterpriseTransaction`. -/
def EnterpriseTransaction.new (r : TransactionRequest) (status : String) :
    Except JavaException EnterpriseTransaction :=
  (MonetaryAmount.new (r.amount.getD 0) (r.currency.getD "USD")).map fun monetaryAmount =>
    { tenantId := r.tenantId, externalReference := r.reference, monetaryAmount,
      sourceSystem := r.sourceSystem, targetSystem := r.targetSystem, status }

/-- `addAuditEntry`. -/
def EnterpriseTransaction.addAuditEntry (action actor details : String)
    (txn : EnterpriseTransaction) : EnterpriseTransaction :=
  { txn with auditEntries := txn.auditEntries ++ [⟨action, actor, details⟩] }

/-- The columns that take no `null`. -/
def EnterpriseTransaction.storable (txn : EnterpriseTransaction) : Bool :=
  column 64 txn.tenantId && column 128 txn.externalReference && column 64 txn.sourceSystem &&
    column 64 txn.targetSystem

/-! ## The service -/

/-- The tables. -/
structure Ledger where
  transactions : List EnterpriseTransaction := []
  nextId : ℕ := 1
  outbox : OutboxWorld := {}

/-- A value of a map. -/
inductive JavaObject
  | text (s : String)
  | decimal (d : BigDecimal)

/-- `Map.of`, which takes no `null`. -/
def mapOf (entries : List (String × Option JavaObject)) :
    Except JavaException (List (String × JavaObject)) :=
  entries.mapM fun (key, value) =>
    match value with
    | some v => .ok (key, v)
    | none => .error ⟨"NullPointerException", ""⟩

/-- What the calls of other parts raise: the repository, besides the constraints that are modelled,
the repository of the outbox, and the audit log. `writeValueAsString` is the object mapper's. -/
structure Surroundings where
  save : EnterpriseTransaction → Option JavaException
  writeValueAsString : List (String × JavaObject) → Except JavaException String
  saveEvent : Option JavaException
  recordAudit : List (String × JavaObject) → Option JavaException
  now : ℕ

/-- Code that changes the tables, and may raise. -/
abbrev Service := ExceptT JavaException (StateM Ledger)

/-- Code that leaves the tables alone. -/
def Service.of {α : Type} (result : Except JavaException α) : Service α := fun w => (result, w)

/-- `repository.save`, which commits by itself. -/
def saveTransaction (env : Surroundings) (txn : EnterpriseTransaction) :
    Service EnterpriseTransaction := fun w =>
  match env.save txn with
  | some e => (.error e, w)
  | none =>
    if txn.storable then
      let saved := { txn with id := some w.nextId }
      (.ok saved, { w with transactions := w.transactions ++ [saved], nextId := w.nextId + 1 })
    else (.error ⟨"DataIntegrityViolationException", "could not execute statement"⟩, w)

/-- `persistTransaction`, called on the same object. -/
def persistTransaction (env : Surroundings) (txn : EnterpriseTransaction) :
    Service EnterpriseTransaction := saveTransaction env txn

/-- `outboxService.appendOutboxEvent`. -/
def appendEvent (env : Surroundings) (tenantId : Option String) (aggregateType : String)
    (aggregateId : Option String) (eventType : String) (payload : List (String × JavaObject)) :
    Service OutboxEvent := fun w =>
  let (result, outbox) := w.outbox.appendOutboxEvent tenantId (some aggregateType) aggregateId
    (some eventType) (env.writeValueAsString payload) env.now env.saveEvent
  (result, { w with outbox })

/-- `auditLoggingService.recordAudit`. -/
def recordAudit (env : Surroundings) (metadata : List (String × JavaObject)) : Service Unit :=
  fun w =>
    match env.recordAudit metadata with
    | some e => (.error e, w)
    | none => (.ok (), w)

/-- `String.valueOf`. -/
def textOf (s : Option String) : String := s.getD "null"

/-- The event of a transaction. -/
def appendCommitted (env : Surroundings) (r : TransactionRequest) : Service OutboxEvent := do
  let payload ← Service.of (mapOf [("amount", r.amount.map .decimal),
    ("currency", r.currency.map .text), ("status", some (.text "COMMITTED"))])
  appendEvent env r.tenantId "TRANSACTION" r.reference "TRANSACTION_COMMITTED" payload

/-- The audit record of a transaction. -/
def auditCreated (env : Surroundings) (r : TransactionRequest) : Service Unit := do
  let metadata ← Service.of (mapOf [("amount", r.amount.map .decimal),
    ("currency", r.currency.map .text), ("source", r.sourceSystem.map .text),
    ("target", r.targetSystem.map .text)])
  recordAudit env metadata

/-- The task that is run in the tenant's stripe. -/
def transactionTask (env : Surroundings) (outboxConfigured : Bool) (r : TransactionRequest) :
    Service EnterpriseTransaction := do
  let txn ← Service.of (EnterpriseTransaction.new r "COMMITTED")
  let saved ← persistTransaction env (txn.addAuditEntry "CREATED" "EnterpriseWorker"
    ("Source: " ++ textOf r.sourceSystem ++ " -> Target: " ++ textOf r.targetSystem))
  if outboxConfigured then
    let _ ← appendCommitted env r
  auditCreated env r
  return saved

/-- `processTransaction`. -/
def processTransaction (env : Surroundings) (outboxConfigured : Bool) (r : TransactionRequest)
    (w : Ledger) : Except JavaException EnterpriseTransaction × Ledger :=
  let (result, w) := transactionTask env outboxConfigured r w
  (result.mapError fun e =>
    ⟨"RuntimeException", "Transaction processing error: " ++ e.message⟩, w)

/-! ## What is stored -/

/-- The row of the transaction is stored. -/
def RowStored (r : TransactionRequest) (w w' : Ledger) : Prop :=
  ∃ txn, w'.transactions = w.transactions ++ [txn] ∧ txn.tenantId = r.tenantId ∧
    txn.externalReference = r.reference

/-- Its event is stored. -/
def EventStored (r : TransactionRequest) (w w' : Ledger) : Prop :=
  ∃ e, w'.outbox.outbox = w.outbox.outbox ++ [e] ∧ e.tenantId = r.tenantId ∧
    e.aggregateId = r.reference ∧ e.eventType = some "TRANSACTION_COMMITTED"

/-- The row that is saved. -/
def TransactionRequest.row (r : TransactionRequest) : Except JavaException EnterpriseTransaction :=
  (EnterpriseTransaction.new r "COMMITTED").map fun txn =>
    txn.addAuditEntry "CREATED" "EnterpriseWorker"
      ("Source: " ++ textOf r.sourceSystem ++ " -> Target: " ++ textOf r.targetSystem)

/-- The row is refused: it cannot be built, or the repository raises. -/
def TransactionRequest.Refused (env : Surroundings) (r : TransactionRequest) : Prop :=
  ∀ txn, r.row = .ok txn → env.save txn ≠ none ∨ txn.storable = false

/-- There is an event to append, and it can be appended. -/
def TransactionRequest.Announced (env : Surroundings) (r : TransactionRequest) : Prop :=
  r.amount ≠ none ∧ r.currency ≠ none ∧ env.saveEvent = none

namespace Service

variable {α β γ : Type} {x : Service α} {f : α → Service β} {w w' : Ledger}

theorem bind_ok {a : α} (h : x w = (.ok a, w')) : (x >>= f) w = f a w' := by
  show ExceptT.bindCont f (x w).1 (x w).2 = f a w'
  rw [h]
  rfl

theorem bind_error {e : JavaException} (h : x w = (.error e, w')) :
    (x >>= f) w = (.error e, w') := by
  show ExceptT.bindCont f (x w).1 (x w).2 = (.error e, w')
  rw [h]
  rfl

theorem of_bind_ok {result : Except JavaException α} {a : α} (h : result = .ok a) (w : Ledger) :
    (Service.of result >>= f) w = f a w := bind_ok (congrArg (·, w) h)

theorem of_bind_error {result : Except JavaException α} {e : JavaException}
    (h : result = .error e) (w : Ledger) : (Service.of result >>= f) w = (.error e, w) :=
  bind_error (congrArg (·, w) h)

/-- What leaves the tables alone may be left out at the end. -/
theorem bind_snd_of_last (hf : ∀ a w, (f a w).2 = w) (w : Ledger) : ((x >>= f) w).2 = (x w).2 := by
  cases hresult : x w with
  | mk result w' =>
    cases result with
    | ok a =>
      rw [bind_ok hresult]
      exact hf a w'
    | error e => rw [bind_error hresult]

theorem bind_snd_congr {g : α → Service γ} (h : ∀ a w, (f a w).2 = (g a w).2) (w : Ledger) :
    ((x >>= f) w).2 = ((x >>= g) w).2 := by
  cases hresult : x w with
  | mk result w' =>
    cases result with
    | ok a =>
      rw [bind_ok hresult, bind_ok hresult]
      exact h a w'
    | error e => rw [bind_error hresult, bind_error hresult]

end Service

variable {env : Surroundings} {r : TransactionRequest}

theorem auditCreated_snd (w : Ledger) : (auditCreated env r w).2 = w := by
  apply Service.bind_snd_of_last
  intro metadata w
  unfold recordAudit
  split <;> rfl

theorem fields_of_row {txn : EnterpriseTransaction} (h : r.row = .ok txn) :
    txn.tenantId = r.tenantId ∧ txn.externalReference = r.reference := by
  unfold TransactionRequest.row EnterpriseTransaction.new at h
  cases hamount : MonetaryAmount.new (r.amount.getD 0) (r.currency.getD "USD") with
  | error e =>
    rw [hamount] at h
    cases h
  | ok monetaryAmount =>
    rw [hamount] at h
    cases h
    exact ⟨rfl, rfl⟩

/-- What saving a row does. -/
theorem saveTransaction_cases (env : Surroundings) (txn : EnterpriseTransaction) (w : Ledger) :
    (env.save txn ≠ none ∨ txn.storable = false) ∧
        (∃ e, saveTransaction env txn w = (.error e, w)) ∨
      txn.storable = true ∧ env.save txn = none ∧
        saveTransaction env txn w = (.ok { txn with id := some w.nextId },
          { w with
            transactions := w.transactions ++ [{ txn with id := some w.nextId }]
            nextId := w.nextId + 1 }) := by
  unfold saveTransaction
  cases hsave : env.save txn with
  | some e => exact .inl ⟨.inl (Option.some_ne_none e), e, rfl⟩
  | none =>
    by_cases hstorable : txn.storable = true
    · rw [if_pos hstorable]
      exact .inr ⟨hstorable, rfl, rfl⟩
    · rw [if_neg hstorable]
      exact .inl ⟨.inr (by simpa using hstorable), _, rfl⟩

theorem processTransaction_snd (outboxConfigured : Bool) (w : Ledger) :
    (processTransaction env outboxConfigured r w).2 =
      (transactionTask env outboxConfigured r w).2 := by
  unfold processTransaction
  cases transactionTask env outboxConfigured r w
  rfl

/-- Where the row cannot be built nothing is stored. -/
theorem transactionTask_snd_of_error {e : JavaException} (h : r.row = .error e) (w : Ledger) :
    (transactionTask env true r w).2 = w := by
  unfold TransactionRequest.row at h
  cases hnew : EnterpriseTransaction.new r "COMMITTED" with
  | ok built =>
    rw [hnew] at h
    cases h
  | error e =>
    unfold transactionTask
    rw [Service.of_bind_error hnew]

/-- The row is saved, and the event appended. -/
theorem transactionTask_snd_of_row {txn : EnterpriseTransaction} (h : r.row = .ok txn)
    (w : Ledger) : (transactionTask env true r w).2 =
      ((saveTransaction env txn >>= fun _ => appendCommitted env r) w).2 := by
  unfold TransactionRequest.row at h
  cases hnew : EnterpriseTransaction.new r "COMMITTED" with
  | error e =>
    rw [hnew] at h
    cases h
  | ok built =>
    rw [hnew] at h
    cases h
    unfold transactionTask
    rw [Service.of_bind_ok hnew]
    apply Service.bind_snd_congr
    intro saved w'
    apply Service.bind_snd_of_last
    intro event w''
    rw [Service.bind_snd_of_last fun _ _ => rfl]
    exact auditCreated_snd w''

theorem mapOf_of_null (h : r.amount = none ∨ r.currency = none) :
    mapOf [("amount", r.amount.map .decimal), ("currency", r.currency.map .text),
      ("status", some (.text "COMMITTED"))] = .error ⟨"NullPointerException", ""⟩ := by
  rcases h with h | h
  · rw [h]
    rfl
  · rw [h]
    cases r.amount <;> rfl

theorem mapOf_of_values (hamount : r.amount ≠ none) (hcurrency : r.currency ≠ none) :
    ∃ payload, mapOf [("amount", r.amount.map .decimal), ("currency", r.currency.map .text),
      ("status", some (.text "COMMITTED"))] = .ok payload := by
  obtain ⟨amount, hamount⟩ := Option.ne_none_iff_exists'.1 hamount
  obtain ⟨currency, hcurrency⟩ := Option.ne_none_iff_exists'.1 hcurrency
  rw [hamount, hcurrency]
  exact ⟨_, rfl⟩

/-- What appending the event does, where the row was stored. -/
theorem appendCommitted_cases (env : Surroundings) {txn : EnterpriseTransaction}
    (htxn : txn.storable = true) (htenant : txn.tenantId = r.tenantId)
    (hreference : txn.externalReference = r.reference)
    (w : Ledger) :
    ¬ r.Announced env ∧ (appendCommitted env r w).2 = w ∨
      r.Announced env ∧ (appendCommitted env r w).2.transactions = w.transactions ∧
        ∃ e, (appendCommitted env r w).2.outbox.outbox = w.outbox.outbox ++ [e] ∧
          e.tenantId = r.tenantId ∧ e.aggregateId = r.reference ∧
            e.eventType = some "TRANSACTION_COMMITTED" := by
  simp only [EnterpriseTransaction.storable, Bool.and_eq_true, htenant, hreference] at htxn
  obtain ⟨⟨⟨htenantColumn, hreferenceColumn⟩, -⟩, -⟩ := htxn
  by_cases hnull : r.amount = none ∨ r.currency = none
  · left
    have hraised := mapOf_of_null hnull
    refine ⟨fun h => hnull.elim h.1 h.2.1, ?_⟩
    unfold appendCommitted
    rw [Service.of_bind_error hraised]
  · push Not at hnull
    obtain ⟨payload, hpayload⟩ := mapOf_of_values hnull.1 hnull.2
    unfold appendCommitted
    rw [Service.of_bind_ok hpayload]
    unfold appendEvent OutboxWorld.appendOutboxEvent OutboxWorld.saveNew
    cases hsave : env.saveEvent with
    | some e =>
      left
      exact ⟨fun h => absurd (hsave.symm.trans h.2.2) (Option.some_ne_none e), rfl⟩
    | none =>
      right
      have hcolumns : OutboxEvent.storable ⟨w.outbox.nextId, r.tenantId, some "TRANSACTION",
          r.reference, some "TRANSACTION_COMMITTED",
          OutboxWorld.jsonPayload (env.writeValueAsString payload), false, env.now, none⟩ =
            true := by
        simp only [OutboxEvent.storable, htenantColumn, hreferenceColumn, Bool.and_eq_true,
          true_and, and_true]
        decide
      simp only [hcolumns, if_true]
      exact ⟨⟨hnull.1, hnull.2, hsave⟩, trivial, _, rfl, rfl, rfl, rfl⟩

/-- **The row and the event** are stored together or not at all, exactly if the row is refused, or
there is an event to append and it can be appended. -/
theorem committed_together_iff (env : Surroundings) (r : TransactionRequest) (w : Ledger) :
    (RowStored r w (processTransaction env true r w).2 ↔
        EventStored r w (processTransaction env true r w).2) ↔
      r.Refused env ∨ r.Announced env := by
  rw [processTransaction_snd]
  have hrow : ¬ RowStored r w w := by
    rintro ⟨txn, h, -⟩
    simp at h
  have hevent : ∀ w' : Ledger, w'.outbox = w.outbox → ¬ EventStored r w w' := by
    rintro w' hsame ⟨e, h, -⟩
    rw [hsame] at h
    simp at h
  cases htxn : r.row with
  | error e =>
    have hrefused : r.Refused env := by
      intro txn h
      rw [htxn] at h
      cases h
    rw [transactionTask_snd_of_error htxn]
    exact iff_of_true (iff_of_false hrow (hevent w rfl)) (.inl hrefused)
  | ok txn =>
    rw [transactionTask_snd_of_row htxn]
    rcases saveTransaction_cases env txn w with ⟨hrefused, e, hraised⟩ | ⟨hstorable, hsave, hsaved⟩
    · rw [Service.bind_error hraised]
      refine iff_of_true (iff_of_false hrow (hevent w rfl)) (.inl fun txn' h => ?_)
      obtain rfl : txn = txn' := by simpa [htxn] using h
      exact hrefused
    · rw [Service.bind_ok hsaved]
      have haccepted : ¬ r.Refused env := by
        intro hrefused
        rcases hrefused txn htxn with h | h
        · exact h hsave
        · rw [hstorable] at h
          cases h
      obtain ⟨htenant, hreference⟩ := fields_of_row htxn
      rw [or_iff_right haccepted]
      rcases appendCommitted_cases env hstorable htenant hreference
        { w with
          transactions := w.transactions ++ [{ txn with id := some w.nextId }]
          nextId := w.nextId + 1 } with ⟨hnot, hsame⟩ | ⟨hannounced, hrows, happended⟩
      · rw [hsame]
        apply iff_of_false _ hnot
        intro h
        exact hevent _ rfl (h.1 ⟨_, rfl, htenant, hreference⟩)
      · apply iff_of_true _ hannounced
        exact iff_of_true ⟨_, hrows, htenant, hreference⟩ happended

/-- Nothing raises. -/
def Surroundings.quiet : Surroundings where
  save _ := none
  writeValueAsString _ := .ok "\x7b\x7d"
  saveEvent := none
  recordAudit _ := none
  now := 1

/-- A transaction without a currency is stored in dollars, and its event is not. -/
theorem not_committed_together_null :
    ¬ ∀ (env : Surroundings) (r : TransactionRequest) (w : Ledger),
      RowStored r w (processTransaction env true r w).2 ↔
        EventStored r w (processTransaction env true r w).2 := by
  intro hall
  have hnull := (hall .quiet ⟨some "acme", some "REF-001", some 10, none, some "REST_INGRESS",
    some "ORACLE_LEDGER"⟩ {}).1 ⟨_, rfl, rfl, rfl⟩
  obtain ⟨e, he, -⟩ := hnull
  cases he

end FlowMesh.Enterprise
