import FlowMesh.Library.Machine
import Mathlib.Data.Int.Notation
import Mathlib.Data.List.Nodup
import Mathlib.Tactic.Common

/-!
# The transactional outbox

`TransactionalOutboxService` with the `RabbitMqProducer` that it hands its messages to
(`services/enterprise-worker`). Events are appended to a table, and a later call hands the pending
ones to the producer, batch by batch, and marks them as processed.

A deployment says whether there is a producer, whether it has a template with a connection factory,
and what the broker does with every publication. The producer keeps what the broker raises to
itself. So the relay marks every event of a batch that is committed; `at_least_once_iff` says that
an event is marked only when the broker took its message, and left alone otherwise, exactly if the
broker takes all messages of the batches that are committed.
-/

namespace FlowMesh.Enterprise

/-- An exception: its class, and its message. -/
structure JavaException where
  className : String
  message : String
  deriving DecidableEq

/-! ## The producer -/

/-- `EnterpriseMessage`, without the header that is drawn and the time. -/
structure EnterpriseMessage where
  tenantId : String
  destination : String
  brokerType : String
  payload : String
  deriving DecidableEq

/-- `EnterpriseMessage.of`. -/
def EnterpriseMessage.of (tenantId : Option String) (destination brokerType payload : String) :
    EnterpriseMessage :=
  ⟨tenantId.getD "default_tenant", destination, brokerType, payload⟩

/-- What is configured, and what comes of the publications: `broker n` is what `convertAndSend`
raises in the `n`-th of them. -/
structure Deployment where
  producer : Bool
  template : Bool
  broker : ℕ → Option JavaException

/-- The broker takes the `n`-th publication. -/
def Deployment.accepts (d : Deployment) (n : ℕ) : Bool :=
  d.producer && d.template && (d.broker n).isNone

/-- `RabbitMqProducer`, and the messages that the broker took. -/
structure RabbitMqProducer where
  publishCount : ℕ := 0
  recentDispatches : List EnterpriseMessage := []
  queue : List EnterpriseMessage := []

/-- `publish`. -/
def RabbitMqProducer.publish (d : Deployment) (message : EnterpriseMessage)
    (p : RabbitMqProducer) : Bool × RabbitMqProducer :=
  let p := { p with
    publishCount := p.publishCount + 1
    recentDispatches := (message :: p.recentDispatches).take 50 }
  if d.template then
    match d.broker p.publishCount with
    | none => (true, { p with queue := p.queue ++ [message] })
    -- The exception is logged as `RabbitMQ broker offline`.
    | some _ => (true, p)
  else (true, p)

@[simp] theorem RabbitMqProducer.publishCount_publish (d : Deployment)
    (message : EnterpriseMessage) (p : RabbitMqProducer) :
    (p.publish d message).2.publishCount = p.publishCount + 1 := by
  unfold publish
  split
  · simp only
    split <;> rfl
  · rfl

/-! ## The table -/

/-- `OutboxEvent`; `none` is `null`. -/
structure OutboxEvent where
  id : ℕ
  tenantId : Option String
  aggregateType : Option String
  aggregateId : Option String
  eventType : Option String
  payload : String
  processed : Bool := false
  createdAt : ℕ
  processedAt : Option ℕ := none
  deriving DecidableEq

/-- What a column that is not nullable takes. -/
def column (limit : ℕ) : Option String → Bool
  | none => false
  | some s => s.length ≤ limit

/-- The columns of an event. -/
def OutboxEvent.storable (e : OutboxEvent) : Bool :=
  column 64 e.tenantId && column 64 e.aggregateType && column 128 e.aggregateId &&
    column 64 e.eventType

/-- `markProcessed`. -/
def OutboxEvent.markProcessed (now : ℕ) (e : OutboxEvent) : OutboxEvent :=
  { e with processed := true, processedAt := some now }

/-- The table, the producer, and the events whose messages the broker took, in order. -/
structure OutboxWorld where
  outbox : List OutboxEvent := []
  nextId : ℕ := 1
  producer : RabbitMqProducer := {}
  accepted : List ℕ := []

namespace OutboxWorld

/-- `findPendingEvents`, of a page. -/
def findPendingEvents (size : ℕ) (w : OutboxWorld) : List OutboxEvent :=
  ((w.outbox.filter fun e => !e.processed).mergeSort fun e e' => e.createdAt ≤ e'.createdAt).take
    size

/-- Mark the row of an event. -/
def mark (now id : ℕ) (w : OutboxWorld) : OutboxWorld :=
  { w with outbox := w.outbox.map fun e => if e.id = id then e.markProcessed now else e }

/-- `jsonPayload`, from what `writeValueAsString` gives. -/
def jsonPayload : Except JavaException String → String
  | .ok json => json
  | .error _ => "\x7b\x7d"

/-- `outboxRepository.save` of a new event: `save` is what it raises besides the constraints of the
table. -/
def saveNew (event : OutboxEvent) (save : Option JavaException) (w : OutboxWorld) :
    Except JavaException OutboxEvent × OutboxWorld :=
  match save with
  | some e => (.error e, w)
  | none =>
    if event.storable then
      (.ok event, { w with outbox := w.outbox ++ [event], nextId := w.nextId + 1 })
    else (.error ⟨"DataIntegrityViolationException", "could not execute statement"⟩, w)

/-- `appendOutboxEvent`, a transaction of its own. -/
def appendOutboxEvent (tenantId aggregateType aggregateId eventType : Option String)
    (payload : Except JavaException String) (now : ℕ) (save : Option JavaException)
    (w : OutboxWorld) : Except JavaException OutboxEvent × OutboxWorld :=
  saveNew ⟨w.nextId, tenantId, aggregateType, aggregateId, eventType, jsonPayload payload, false,
    now, none⟩ save w

/-! ## The relay -/

/-- The part of the loop body up to the marking; `none` is a `NullPointerException`. -/
def dispatch (d : Deployment) (event : OutboxEvent) (w : OutboxWorld) : Option OutboxWorld :=
  if d.producer then
    event.aggregateType.map fun aggregateType =>
      let msg := EnterpriseMessage.of event.tenantId
        ("flowmesh.cdc.outbox." ++ aggregateType.toLower) "RabbitMQ-Outbox-CDC" event.payload
      { w with
        producer := (w.producer.publish d msg).2
        accepted := if d.accepts (w.producer.publishCount + 1) then w.accepted ++ [event.id]
          else w.accepted }
  else some w

/-- What goes wrong in the database during a call. -/
structure DatabaseFaults where
  save : ℕ → Option JavaException := fun _ => none
  commit : Option JavaException := none

/-- The loop over the pending events: how many were processed, and whether the transaction can
only be rolled back. Both `catch` branches end the loop. -/
def processLoop (d : Deployment) (faults : DatabaseFaults) (now : ℕ) :
    List OutboxEvent → ℕ → OutboxWorld → ℕ × Bool × OutboxWorld
  | [], processed, w => (processed, false, w)
  | event :: events, processed, w =>
    match dispatch d event w with
    | none => (processed, false, w)
    | some w =>
      match faults.save event.id with
      -- The repository has marked the transaction before the exception is caught.
      | some _ => (processed, true, w)
      | none => processLoop d faults now events (processed + 1) (w.mark now event.id)

/-- `processPendingEvents`. -/
def processPendingEvents (d : Deployment) (batchSize : ℤ) (now : ℕ) (faults : DatabaseFaults)
    (w : OutboxWorld) : Except JavaException ℕ × OutboxWorld :=
  if min batchSize 100 < 1 then
    (.error ⟨"IllegalArgumentException", "Page size must not be less than one"⟩, w)
  else
    let pending := w.findPendingEvents (min batchSize 100).toNat
    if pending = [] then (.ok 0, w)
    else
      let (processed, rollbackOnly, w') := processLoop d faults now pending 0 w
      if rollbackOnly then
        (.error ⟨"UnexpectedRollbackException",
          "Transaction silently rolled back because it has been marked as rollback-only"⟩,
          { w' with outbox := w.outbox })
      else
        match faults.commit with
        | some e => (.error e, { w' with outbox := w.outbox })
        | none => (.ok processed, w')

end OutboxWorld

/-- A call, with the time and what goes wrong in the database. -/
inductive OutboxCall
  | append (tenantId aggregateType aggregateId eventType : Option String)
    (payload : Except JavaException String) (now : ℕ) (save : Option JavaException)
  | process (batchSize : ℤ) (now : ℕ) (faults : OutboxWorld.DatabaseFaults)

/-- What a call does. -/
def OutboxCall.step (d : Deployment) (w : OutboxWorld) : OutboxCall → Unit × OutboxWorld
  | .append tenantId aggregateType aggregateId eventType payload now save =>
    ((), (w.appendOutboxEvent tenantId aggregateType aggregateId eventType payload now save).2)
  | .process batchSize now faults => ((), (w.processPendingEvents d batchSize now faults).2)

/-! ## What the relay promises -/

/-- The events whose messages the broker took during a call. -/
def OutboxCall.acceptedNow (d : Deployment) (w : OutboxWorld) (c : OutboxCall) : List ℕ :=
  (c.step d w).2.accepted.drop w.accepted.length

/-- An event is marked only if the broker took its message in this call, and any other pending
event is left as it is. -/
structure AtLeastOnce (d : Deployment) (w : OutboxWorld) (c : OutboxCall) : Prop where
  marked : ∀ e ∈ (c.step d w).2.outbox, e.processed = true →
    e ∈ w.outbox ∨ e.id ∈ c.acceptedNow d w
  pending : ∀ e ∈ w.outbox, e.processed = false →
    e ∈ (c.step d w).2.outbox ∨ e.id ∈ c.acceptedNow d w

/-- The events that the loop gets through, if the database does not fail. -/
def Deployment.handedOver (d : Deployment) (events : List OutboxEvent) : List OutboxEvent :=
  if d.producer then events.takeWhile (·.aggregateType.isSome) else events

/-- The events that a call gets through, if the database does not fail. -/
def OutboxWorld.handedOver (d : Deployment) (batchSize : ℤ) (w : OutboxWorld) :
    List OutboxEvent :=
  d.handedOver (w.findPendingEvents (min batchSize 100).toNat)

/-- The call is rolled back, or the broker takes all messages of the batch. -/
def Through (d : Deployment) (w : OutboxWorld) : OutboxCall → Prop
  | .append .. => True
  | .process batchSize _ faults =>
    (∃ e ∈ w.handedOver d batchSize, faults.save e.id ≠ none) ∨ faults.commit ≠ none ∨
      ∀ i < (w.handedOver d batchSize).length, d.accepts (w.producer.publishCount + i + 1) = true

/-! ## The loop -/

/-- The events of which the broker takes the messages, the first being publication `n + 1`. -/
def Deployment.acceptedIds (d : Deployment) : ℕ → List OutboxEvent → List ℕ
  | _, [] => []
  | n, e :: es => (if d.accepts (n + 1) then [e.id] else []) ++ d.acceptedIds (n + 1) es

theorem Deployment.mem_acceptedIds {d : Deployment} {n id : ℕ} {events : List OutboxEvent} :
    id ∈ d.acceptedIds n events ↔
      ∃ i, ∃ h : i < events.length, events[i].id = id ∧ d.accepts (n + i + 1) = true := by
  induction events generalizing n with
  | nil => simp [acceptedIds]
  | cons e es ih =>
    rw [acceptedIds, List.mem_append, ih]
    constructor
    · rintro (h | ⟨i, hi, hid, haccepts⟩)
      · split at h
        · next haccepts =>
          rw [List.mem_singleton] at h
          exact ⟨0, Nat.succ_pos _, h.symm, haccepts⟩
        · cases h
      · refine ⟨i + 1, Nat.succ_lt_succ hi, hid, ?_⟩
        rwa [show n + (i + 1) + 1 = n + 1 + i + 1 by omega]
    · rintro ⟨i, hi, hid, haccepts⟩
      cases i with
      | zero =>
        left
        rw [if_pos haccepts]
        exact List.mem_singleton.2 hid.symm
      | succ i =>
        refine .inr ⟨i, Nat.lt_of_succ_lt_succ hi, hid, ?_⟩
        rwa [show n + 1 + i + 1 = n + (i + 1) + 1 by omega]

/-- The row of an event after the loop. -/
def OutboxEvent.after (now : ℕ) (events : List OutboxEvent) (e : OutboxEvent) : OutboxEvent :=
  if e.id ∈ events.map (·.id) then e.markProcessed now else e

@[simp] theorem OutboxEvent.id_after (now : ℕ) (events : List OutboxEvent) (e : OutboxEvent) :
    (e.after now events).id = e.id := by
  unfold after
  split <;> rfl

namespace OutboxWorld

variable {d : Deployment} {faults : DatabaseFaults} {now : ℕ}

theorem dispatch_eq_none_iff {event : OutboxEvent} {w : OutboxWorld} :
    dispatch d event w = none ↔ d.producer = true ∧ event.aggregateType = none := by
  unfold dispatch
  split <;> simp_all

/-- What handing over an event does. -/
theorem dispatch_cases {event : OutboxEvent} {w w' : OutboxWorld}
    (h : dispatch d event w = some w') :
    w'.outbox = w.outbox ∧
      w'.accepted = w.accepted ++
        (if d.accepts (w.producer.publishCount + 1) then [event.id] else []) ∧
      (d.producer = true → w'.producer.publishCount = w.producer.publishCount + 1) := by
  unfold dispatch at h
  split at h
  · obtain ⟨aggregateType, -, rfl⟩ := Option.map_eq_some_iff.1 h
    refine ⟨rfl, ?_, fun _ => RabbitMqProducer.publishCount_publish ..⟩
    simp only
    split <;> simp
  · next hproducer =>
    cases h
    simp [Deployment.accepts, hproducer]

/-- Without a producer nothing is taken. -/
theorem acceptedIds_of_no_producer (hd : d.producer = false) (n : ℕ) (events : List OutboxEvent) :
    d.acceptedIds n events = [] := by
  rw [List.eq_nil_iff_forall_not_mem]
  intro id hid
  obtain ⟨i, hi, -, haccepts⟩ := Deployment.mem_acceptedIds.1 hid
  simp [Deployment.accepts, hd] at haccepts

theorem handedOver_of_dispatch_none {event : OutboxEvent} {w : OutboxWorld}
    (h : dispatch d event w = none) (events : List OutboxEvent) :
    d.handedOver (event :: events) = [] := by
  obtain ⟨hproducer, hnull⟩ := dispatch_eq_none_iff.1 h
  simp [Deployment.handedOver, hproducer, hnull]

theorem handedOver_of_dispatch_some {event : OutboxEvent} {w w' : OutboxWorld}
    (h : dispatch d event w = some w') (events : List OutboxEvent) :
    d.handedOver (event :: events) = event :: d.handedOver events := by
  have hsome : ¬ (d.producer = true ∧ event.aggregateType = none) := by
    rw [← @dispatch_eq_none_iff d event w, h]
    exact Option.some_ne_none w'
  unfold Deployment.handedOver
  by_cases hproducer : d.producer = true
  · have hnull : event.aggregateType.isSome = true :=
      Option.isSome_iff_ne_none.2 fun hnone => hsome ⟨hproducer, hnone⟩
    simp [hproducer, hnull]
  · simp [hproducer]

theorem map_after_nil (rows : List OutboxEvent) :
    rows.map (OutboxEvent.after now []) = rows := by
  have hid : OutboxEvent.after now [] = id := funext fun e => if_neg List.not_mem_nil
  rw [hid, List.map_id]

/-- The loop, where the database does not fail. -/
theorem processLoop_eq (events : List OutboxEvent) (processed : ℕ) (w : OutboxWorld)
    (hsave : ∀ e ∈ d.handedOver events, faults.save e.id = none) :
    (processLoop d faults now events processed w).2.1 = false ∧
      (processLoop d faults now events processed w).2.2.outbox =
        w.outbox.map (OutboxEvent.after now (d.handedOver events)) ∧
      (processLoop d faults now events processed w).2.2.accepted =
        w.accepted ++ d.acceptedIds w.producer.publishCount (d.handedOver events) := by
  induction events generalizing processed w with
  | nil =>
    have hnil : d.handedOver [] = [] := by simp [Deployment.handedOver]
    rw [hnil, map_after_nil, Deployment.acceptedIds, List.append_nil]
    exact ⟨rfl, rfl, rfl⟩
  | cons event events ih =>
    cases hdispatch : dispatch d event w with
    | none =>
      unfold processLoop
      rw [handedOver_of_dispatch_none hdispatch, hdispatch, map_after_nil, Deployment.acceptedIds,
        List.append_nil]
      exact ⟨rfl, rfl, rfl⟩
    | some w' =>
      rw [handedOver_of_dispatch_some hdispatch] at hsave ⊢
      obtain ⟨hevent, hevents⟩ := List.forall_mem_cons.1 hsave
      obtain ⟨houtbox, haccepted, hcount⟩ := dispatch_cases hdispatch
      obtain ⟨hflag, hrows, htaken⟩ := ih (processed + 1) (w'.mark now event.id) hevents
      unfold processLoop
      simp only [hdispatch, hevent]
      refine ⟨hflag, ?_, ?_⟩
      · rw [hrows]
        show (w'.outbox.map _).map _ = _
        rw [List.map_map, houtbox]
        apply List.map_congr_left
        intro e _
        by_cases heq : e.id = event.id
        · by_cases hmem : e.id ∈ (d.handedOver events).map (·.id) <;>
            simp_all [OutboxEvent.after, OutboxEvent.markProcessed]
        · simp [OutboxEvent.after, heq]
      · rw [htaken]
        show w'.accepted ++ d.acceptedIds w'.producer.publishCount _ = _
        rw [haccepted, List.append_assoc, Deployment.acceptedIds]
        by_cases hproducer : d.producer = true
        · rw [hcount hproducer]
        · rw [Bool.not_eq_true] at hproducer
          rw [acceptedIds_of_no_producer hproducer, acceptedIds_of_no_producer hproducer]

/-- The loop, where it does. -/
theorem processLoop_of_fault (events : List OutboxEvent) (processed : ℕ) (w : OutboxWorld)
    (hsave : ∃ e ∈ d.handedOver events, faults.save e.id ≠ none) :
    (processLoop d faults now events processed w).2.1 = true := by
  induction events generalizing processed w with
  | nil =>
    obtain ⟨e, he, -⟩ := hsave
    simp [Deployment.handedOver] at he
  | cons event events ih =>
    cases hdispatch : dispatch d event w with
    | none =>
      obtain ⟨e, he, -⟩ := hsave
      rw [handedOver_of_dispatch_none hdispatch] at he
      cases he
    | some w' =>
      rw [handedOver_of_dispatch_some hdispatch] at hsave
      unfold processLoop
      cases hevent : faults.save event.id with
      | some e => simp [hdispatch]
      | none =>
        simp only [hdispatch]
        apply ih
        obtain ⟨e, he, hfault⟩ := hsave
        rcases List.mem_cons.1 he with rfl | he
        · exact absurd hevent hfault
        · exact ⟨e, he, hfault⟩

/-! ## Calls -/

/-- What a call does: it leaves the table as it is, or marks what it got through. -/
theorem processPendingEvents_cases (d : Deployment) (batchSize : ℤ) (now : ℕ)
    (faults : DatabaseFaults) (w : OutboxWorld) :
    ((∃ e ∈ w.handedOver d batchSize, faults.save e.id ≠ none) ∨ faults.commit ≠ none) ∧
        (w.processPendingEvents d batchSize now faults).2.outbox = w.outbox ∨
      (¬ (∃ e ∈ w.handedOver d batchSize, faults.save e.id ≠ none) ∧ faults.commit = none) ∧
        (w.processPendingEvents d batchSize now faults).2.outbox =
          w.outbox.map (OutboxEvent.after now (w.handedOver d batchSize)) ∧
        (w.processPendingEvents d batchSize now faults).2.accepted =
          w.accepted ++ d.acceptedIds w.producer.publishCount (w.handedOver d batchSize) := by
  have hidle : w.findPendingEvents (min batchSize 100).toNat = [] →
      w.handedOver d batchSize = [] := by
    intro hpending
    simp [handedOver, hpending, Deployment.handedOver]
  unfold processPendingEvents
  split
  · next hsize =>
    have hzero : (min batchSize 100).toNat = 0 := by omega
    have hnone := hidle (by simp [hzero, findPendingEvents])
    rw [hnone, map_after_nil, Deployment.acceptedIds, List.append_nil]
    cases hcommit : faults.commit <;> simp
  · simp only
    split
    · next hpending =>
      rw [hidle hpending, map_after_nil, Deployment.acceptedIds, List.append_nil]
      cases hcommit : faults.commit <;> simp
    · by_cases hsave : ∃ e ∈ w.handedOver d batchSize, faults.save e.id ≠ none
      · rw [processLoop_of_fault _ 0 w hsave, if_pos rfl]
        exact .inl ⟨.inl hsave, rfl⟩
      · have hclean : ∀ e ∈ w.handedOver d batchSize, faults.save e.id = none := by
          push Not at hsave
          exact hsave
        obtain ⟨hflag, hrows, htaken⟩ := @processLoop_eq d faults now
          (w.findPendingEvents (min batchSize 100).toNat) 0 w hclean
        rw [hflag]
        cases hcommit : faults.commit with
        | some e => exact .inl ⟨.inr (Option.some_ne_none e), rfl⟩
        | none => exact .inr ⟨⟨hsave, rfl⟩, hrows, htaken⟩

theorem mem_findPendingEvents {size : ℕ} {e : OutboxEvent} {w : OutboxWorld}
    (h : e ∈ w.findPendingEvents size) : e ∈ w.outbox ∧ e.processed = false := by
  have hpending := List.mem_mergeSort.1 (List.mem_of_mem_take h)
  simpa using hpending

theorem mem_handedOver {batchSize : ℤ} {e : OutboxEvent} {w : OutboxWorld}
    (h : e ∈ w.handedOver d batchSize) : e ∈ w.outbox ∧ e.processed = false := by
  apply mem_findPendingEvents
  unfold handedOver Deployment.handedOver at h
  split at h
  · exact (List.takeWhile_prefix _).subset h
  · exact h

/-- The ids in the table are distinct, and the next one is new. -/
structure Numbered (w : OutboxWorld) : Prop where
  nodup : (w.outbox.map (·.id)).Nodup
  fresh : ∀ e ∈ w.outbox, e.id < w.nextId

/-- What appending an event does. -/
theorem saveNew_cases (event : OutboxEvent) (save : Option JavaException) (w : OutboxWorld) :
    (w.saveNew event save).2 = w ∨
      (w.saveNew event save).2 =
        { w with outbox := w.outbox ++ [event], nextId := w.nextId + 1 } := by
  unfold saveNew
  split
  · exact .inl rfl
  · split
    · exact .inr rfl
    · exact .inl rfl

theorem Numbered.saveNew {w : OutboxWorld} (hw : w.Numbered) {event : OutboxEvent}
    (hid : event.id = w.nextId) (save : Option JavaException) :
    (w.saveNew event save).2.Numbered := by
  rcases saveNew_cases event save w with heq | heq
  · rwa [heq]
  · rw [heq]
    constructor
    · simp only [List.map_append, List.map_singleton]
      apply hw.nodup.append (List.nodup_singleton _)
      rw [List.disjoint_singleton, hid]
      intro hmem
      obtain ⟨e, he, hsame⟩ := List.mem_map.1 hmem
      exact absurd hsame (Nat.ne_of_lt (hw.fresh e he))
    · intro e he
      rcases List.mem_append.1 he with he | he
      · exact Nat.lt_succ_of_lt (hw.fresh e he)
      · rw [List.mem_singleton.1 he, hid]
        exact Nat.lt_succ_self _

theorem nextId_processLoop (d : Deployment) (faults : DatabaseFaults) (now : ℕ)
    (events : List OutboxEvent) (processed : ℕ) (w : OutboxWorld) :
    (processLoop d faults now events processed w).2.2.nextId = w.nextId := by
  induction events generalizing processed w with
  | nil => rfl
  | cons event events ih =>
    unfold processLoop
    cases hdispatch : dispatch d event w with
    | none => rfl
    | some w' =>
      have hnext : w'.nextId = w.nextId := by
        unfold dispatch at hdispatch
        split at hdispatch
        · obtain ⟨aggregateType, -, rfl⟩ := Option.map_eq_some_iff.1 hdispatch
          rfl
        · cases hdispatch
          rfl
      simp only
      split
      · exact hnext
      · rw [ih]
        exact hnext

theorem Numbered.process {w : OutboxWorld} (hw : w.Numbered) (d : Deployment) (batchSize : ℤ)
    (now : ℕ) (faults : DatabaseFaults) :
    (w.processPendingEvents d batchSize now faults).2.Numbered := by
  have hnext : (w.processPendingEvents d batchSize now faults).2.nextId = w.nextId := by
    unfold processPendingEvents
    split
    · rfl
    · simp only
      split
      · rfl
      · split
        · exact nextId_processLoop ..
        · split <;> exact nextId_processLoop ..
  have hids : (w.processPendingEvents d batchSize now faults).2.outbox.map (·.id) =
      w.outbox.map (·.id) := by
    rcases processPendingEvents_cases d batchSize now faults w with
      ⟨-, hsame⟩ | ⟨-, hrows, -⟩
    · rw [hsame]
    · rw [hrows, List.map_map]
      exact List.map_congr_left fun e _ => OutboxEvent.id_after now _ e
  constructor
  · rw [hids]
    exact hw.nodup
  · intro e he
    have hmem : e.id ∈ w.outbox.map (·.id) := hids ▸ List.mem_map_of_mem he
    obtain ⟨e', he', heq⟩ := List.mem_map.1 hmem
    rw [hnext, ← heq]
    exact hw.fresh e' he'

theorem Numbered.step {w : OutboxWorld} (hw : w.Numbered) (d : Deployment) (c : OutboxCall) :
    (c.step d w).2.Numbered := by
  cases c with
  | append => exact hw.saveNew rfl _
  | process => exact hw.process ..

/-- The events that a call gets through are distinct. -/
theorem Numbered.nodup_handedOver {w : OutboxWorld} (hw : w.Numbered) (d : Deployment)
    (batchSize : ℤ) : ((w.handedOver d batchSize).map (·.id)).Nodup := by
  have hpending : ((w.findPendingEvents (min batchSize 100).toNat).map (·.id)).Nodup := by
    unfold findPendingEvents
    have hsorted := (List.mergeSort_perm (w.outbox.filter fun e => !e.processed)
      fun e e' => e.createdAt ≤ e'.createdAt).map (·.id)
    apply List.Nodup.sublist ((List.take_sublist _ _).map _)
    rw [hsorted.nodup_iff]
    exact hw.nodup.sublist (List.filter_sublist.map _)
  unfold handedOver Deployment.handedOver
  split
  · exact hpending.sublist ((List.takeWhile_sublist _).map _)
  · exact hpending

end OutboxWorld

/-! ## At least once -/

/-- An event that a call gets through is taken by the broker exactly if its publication is. -/
theorem mem_acceptedIds_iff {d : Deployment} {n : ℕ} {events : List OutboxEvent}
    (hnodup : (events.map (·.id)).Nodup) {i : ℕ} (hi : i < events.length) :
    events[i].id ∈ d.acceptedIds n events ↔ d.accepts (n + i + 1) = true := by
  rw [Deployment.mem_acceptedIds]
  constructor
  · rintro ⟨j, hj, hid, haccepts⟩
    have hlen : (events.map (·.id)).length = events.length := List.length_map _
    have heq : j = i := by
      apply hnodup.getElem_inj_iff.1 _
      · exact hlen ▸ hj
      · exact hlen ▸ hi
      · simpa using hid
    rwa [← heq]
  · exact fun haccepts => ⟨i, hi, rfl, haccepts⟩

open OutboxWorld

/-- A new event is pending, and the others stay as they are. -/
theorem atLeastOnce_append (d : Deployment) (w : OutboxWorld)
    (tenantId aggregateType aggregateId eventType : Option String)
    (payload : Except JavaException String) (now : ℕ) (save : Option JavaException) :
    AtLeastOnce d w
      (.append tenantId aggregateType aggregateId eventType payload now save) := by
  have hcases := saveNew_cases ⟨w.nextId, tenantId, aggregateType, aggregateId, eventType,
    jsonPayload payload, false, now, none⟩ save w
  refine ⟨fun e he hprocessed => Or.inl ?_, fun e he _ => Or.inl ?_⟩
  · simp only [OutboxCall.step, appendOutboxEvent] at he
    rcases hcases with heq | heq
    · rwa [heq] at he
    · rw [heq] at he
      refine (List.mem_append.1 he).resolve_right fun hnew => ?_
      rw [List.mem_singleton.1 hnew] at hprocessed
      cases hprocessed
  · simp only [OutboxCall.step, appendOutboxEvent]
    rcases hcases with heq | heq
    · rwa [heq]
    · rw [heq]
      exact List.mem_append_left _ he

theorem atLeastOnce_iff {d : Deployment} {w : OutboxWorld} (hw : w.Numbered) (c : OutboxCall) :
    AtLeastOnce d w c ↔ Through d w c := by
  cases c with
  | append tenantId aggregateType aggregateId eventType payload now save =>
    exact iff_of_true (atLeastOnce_append d w _ _ _ _ _ _ _) trivial
  | process batchSize now faults =>
    have hnodup := hw.nodup_handedOver d batchSize
    rcases processPendingEvents_cases d batchSize now faults w with
      ⟨hfault, hsame⟩ | ⟨⟨hsave, hcommit⟩, hrows, htaken⟩
    · apply iff_of_true
      · constructor
        · intro e he _
          exact .inl (hsame ▸ he)
        · intro e he _
          exact .inl (hsame.symm ▸ he)
      · rcases hfault with hsave | hcommit
        · exact .inl hsave
        · exact .inr (.inl hcommit)
    · have hnow : (OutboxCall.process batchSize now faults).acceptedNow d w =
          d.acceptedIds w.producer.publishCount (w.handedOver d batchSize) := by
        unfold OutboxCall.acceptedNow
        simp only [OutboxCall.step]
        rw [htaken, List.drop_left]
      have hrow : ∀ e, e ∈ ((OutboxCall.process batchSize now faults).step d w).2.outbox ↔
          ∃ e' ∈ w.outbox, e'.after now (w.handedOver d batchSize) = e := by
        intro e
        simp only [OutboxCall.step]
        rw [hrows, List.mem_map]
      constructor
      · intro h
        refine .inr (.inr fun i hi => ?_)
        obtain ⟨hmem, hpending⟩ := mem_handedOver (List.getElem_mem hi)
        rw [← mem_acceptedIds_iff hnodup hi, ← hnow]
        refine (h.pending _ hmem hpending).resolve_left fun hkept => ?_
        obtain ⟨e', -, heq⟩ := (hrow _).1 hkept
        have hid : e'.id ∈ (w.handedOver d batchSize).map (·.id) := by
          rw [← OutboxEvent.id_after now (w.handedOver d batchSize) e', heq]
          exact List.mem_map_of_mem (List.getElem_mem hi)
        rw [← heq, OutboxEvent.after, if_pos hid] at hpending
        cases hpending
      · intro hthrough
        have hall := (hthrough.resolve_left hsave).resolve_left (not_not.2 hcommit)
        have hin : ∀ e : OutboxEvent, e.id ∈ (w.handedOver d batchSize).map (·.id) →
            e.id ∈ (OutboxCall.process batchSize now faults).acceptedNow d w := by
          intro e he
          obtain ⟨e', he', hid⟩ := List.mem_map.1 he
          obtain ⟨i, hi, rfl⟩ := List.getElem_of_mem he'
          rw [hnow, ← hid, mem_acceptedIds_iff hnodup hi]
          exact hall i hi
        constructor
        · intro e he _
          obtain ⟨e', he', rfl⟩ := (hrow e).1 he
          by_cases hid : e'.id ∈ (w.handedOver d batchSize).map (·.id)
          · rw [OutboxEvent.id_after]
            exact .inr (hin e' hid)
          · rw [OutboxEvent.after, if_neg hid]
            exact .inl he'
        · intro e he _
          by_cases hid : e.id ∈ (w.handedOver d batchSize).map (·.id)
          · exact .inr (hin e hid)
          · exact .inl ((hrow e).2 ⟨e, he, if_neg hid⟩)

theorem Numbered.empty : Numbered {} where
  nodup := List.nodup_nil
  fresh _ he := by cases he

/-- **At-least-once delivery** holds in a run exactly if each of its batches is rolled back or
taken by the broker as a whole. -/
theorem at_least_once_iff (d : Deployment) (calls : List OutboxCall) :
    Machine.Every (OutboxCall.step d) (AtLeastOnce d) {} calls ↔
      Machine.Every (OutboxCall.step d) (Through d) {} calls := by
  have hstep : ∀ (w : OutboxWorld) c, w.Numbered → (OutboxCall.step d w c).2.Numbered :=
    fun w c hw => hw.step d c
  exact Machine.every_iff_of_invariant hstep (fun w c hw => atLeastOnce_iff hw c) Numbered.empty
    calls

/-- A broker that is offline. -/
def offline : Deployment where
  producer := true
  template := true
  broker _ := some ⟨"AmqpConnectException", "java.net.ConnectException: Connection refused"⟩

/-- An event whose publication failed is marked as processed. -/
theorem not_atLeastOnce_offline : ¬ ∀ (d : Deployment) (calls : List OutboxCall),
    Machine.Every (OutboxCall.step d) (AtLeastOnce d) {} calls := by
  intro hall
  obtain ⟨-, hprocess, -⟩ := hall offline
    [.append (some "acme") (some "TRANSACTION") (some "REF-001") (some "TRANSACTION_COMMITTED")
      (.ok "\x7b\x7d") 1 none, .process 10 2 {}]
  have hmarked := hprocess.marked ⟨1, some "acme", some "TRANSACTION", some "REF-001",
    some "TRANSACTION_COMMITTED", "\x7b\x7d", true, 1, some 2⟩
  revert hmarked
  decide +kernel

end FlowMesh.Enterprise
