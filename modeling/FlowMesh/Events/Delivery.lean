import FlowMesh.Events.EventBus
import FlowMesh.Library.LiveWalk
import FlowMesh.Library.Retention

/-!
# Events in delivery

`EventBus.publish` (`flowmesh_events/event_bus.py`) awaits one handler after the other. While it
waits, other events are published and handlers are subscribed, by the handlers themselves too. The
loop over the handlers of a pattern goes over the list as it is by then, and the loop over the
patterns raises when a new one has come in. Each call has a message of its own, as the one in
`webhooks.py` has. A handler that raises `CancelledError` itself, which would end the loop as a
cancelled task does, is left out.

`delivered`: whatever happens meanwhile, an event is handed in order to handlers that are
subscribed, no subscription gets it twice, and if `publish` returns, every handler has it that was
subscribed when it was called. `listEvents_run` says which events `list_events` gives.
-/

namespace FlowMesh.Events

open LiveWalk

variable {η : Type}

/-! ## Calls of `publish` -/

/-- The handlers of the driver with their patterns. -/
def EventBus.handlers (bus : EventBus η) : List (List Char × List η) :=
  bus.driver.inMemory.handlers.items

/-- `list_events`. -/
def EventBus.listEvents (bus : EventBus η) (tenantId : Option String) : List EventMessage :=
  if tenantId.getD "" = "" then bus.history.reverse
  else bus.history.reverse.filter (·.tenantId = tenantId.getD "")

/-- A call of `publish`, with its walk over the handlers. -/
structure Delivery (η : Type) where
  subject : List Char
  message : EventMessage
  walk : Walk η

/-- The handlers that were called, with the message. -/
def Delivery.called (delivery : Delivery η) : List (η × EventMessage) :=
  delivery.walk.visited.map fun handler => (handler, delivery.message)

/-- A bus, and the calls of `publish`. -/
structure BusRun (η : Type) where
  bus : EventBus η
  deliveries : List (Delivery η) := []

/-- What happens to a bus. -/
inductive BusEvent (η : Type)
  | publish (subject : List Char) (message : EventMessage)
  | subscribe (pattern : List Char) (handler : η)
  /-- The handler that the call awaits returns, or raises. -/
  | resume (i : ℕ)
  /-- The task of the call is cancelled. -/
  | cancel (i : ℕ)

namespace BusRun

/-- Let the walk of a call go on. -/
def onWalk (i : ℕ) (f : Delivery η → Walk η) (s : BusRun η) : BusRun η :=
  { s with
    deliveries := s.deliveries.modify i fun delivery => { delivery with walk := f delivery } }

/-- One event. -/
def step (s : BusRun η) : BusEvent η → BusRun η
  | .publish subject message =>
    { bus := (s.bus.publish subject message).2
      deliveries := s.deliveries ++
        [⟨subject, { message with subject }, .begin (driverMatches · subject) s.bus.handlers⟩] }
  | .subscribe pattern handler => { s with bus := s.bus.subscribe pattern handler }
  | .resume i => s.onWalk i fun delivery =>
    delivery.walk.next (driverMatches · delivery.subject) s.bus.handlers
  | .cancel i => s.onWalk i fun delivery => delivery.walk.abandon

/-- What comes of a bus. -/
def run (s : BusRun η) (events : List (BusEvent η)) : BusRun η := events.foldl step s

/-- A fresh bus. -/
def new (driverType : String) : BusRun η := ⟨{ driver := .ofType driverType }, []⟩

end BusRun

/-! ## The events that are listed -/

/-- The messages that are published. -/
def published : List (BusEvent η) → List EventMessage :=
  List.filterMap fun
    | .publish subject message => some { message with subject }
    | _ => none

theorem published_concat (events : List (BusEvent η)) (event : BusEvent η) :
    published (events ++ [event]) = published events ++ published [event] :=
  List.filterMap_append

theorem history_run (driverType : String) (events : List (BusEvent η)) :
    ((BusRun.new driverType).run events).bus.history = (published events).rtake 200 := by
  induction events using List.reverseRecOn with
  | nil => exact (List.rtake_nil 200).symm
  | append_singleton events event ih =>
    rw [BusRun.run, List.foldl_append, published_concat]
    cases event with
    | publish subject message =>
      rw [show published [.publish subject message] = [{ message with subject }] from rfl,
        Retention.rtake_eq, List.rtake_concat_succ, ← ih]
      rfl
    | subscribe pattern handler => exact ih.trans (by simp [published])
    | resume i => exact ih.trans (by simp [published])
    | cancel i => exact ih.trans (by simp [published])

/-- `list_events` gives the events of the tenant among the last 200 of all, the latest first. -/
theorem listEvents_run (driverType : String) (events : List (BusEvent η)) (tenantId : String)
    (htenant : tenantId ≠ "") :
    ((BusRun.new driverType).run events).bus.listEvents (some tenantId) =
      ((published events).rtake 200).reverse.filter (·.tenantId = tenantId) := by
  rw [← history_run driverType events]
  exact if_neg htenant

/-! ## Subscriptions -/

theorem InMemoryDriver.publish_eq_itemsOf (d : InMemoryDriver η) (subject : List Char)
    (message : EventMessage) : d.publish subject message =
      (itemsOf (driverMatches · subject) d.handlers.items).map fun handler =>
        (handler, message) := by
  unfold publish itemsOf
  rw [List.map_flatMap]
  congr 1
  funext ⟨pattern, handlerList⟩
  by_cases hmatch : driverMatches pattern subject = true <;> simp [hmatch]

/-- The handlers that `publish` would call now. -/
theorem EventBus.publish_eq_itemsOf (bus : EventBus η) (subject : List Char)
    (message : EventMessage) : (bus.publish subject message).1 =
      (itemsOf (driverMatches · subject) bus.handlers).map fun handler =>
        (handler, { message with subject }) := by
  show bus.driver.publish subject { message with subject } = _
  rw [EventBrokerDriver.publish_eq, InMemoryDriver.publish_eq_itemsOf]
  rfl

/-- Subscribing appends to the list of the pattern, or a new pattern. -/
theorem InMemoryDriver.grown_subscribe (d : InMemoryDriver η) (pattern : List Char) (handler : η) :
    Grown d.handlers.items (d.subscribe pattern handler).handlers.items := by
  show Grown d.handlers.items (d.handlers.set pattern _).items
  by_cases hmem : pattern ∈ d.handlers.keys
  · rw [show (d.handlers.set pattern ((d.handlers.get? pattern).getD [] ++ [handler])).items =
      _ from if_pos hmem]
    apply Grown.map
    rintro ⟨key, l⟩ he
    split_ifs with hkey
    · obtain rfl : key = pattern := hkey
      rw [Dict.mem_items_iff.1 he, Option.getD_some]
      exact ⟨rfl, List.prefix_append ..⟩
    · exact ⟨rfl, List.prefix_rfl⟩
  · rw [d.handlers.items_set_of_not_mem hmem]
    exact .append _ _

theorem EventBus.grown_subscribe (bus : EventBus η) (pattern : List Char) (handler : η) :
    Grown bus.handlers (bus.subscribe pattern handler).handlers := by
  show Grown _ (bus.driver.subscribe pattern handler).inMemory.handlers.items
  rw [EventBrokerDriver.inMemory_subscribe]
  exact InMemoryDriver.grown_subscribe _ _ _

/-! ## One delivery through a run -/

/-- The event lets the call `i` go on. -/
def BusEvent.resumes (i : ℕ) : BusEvent η → Bool
  | .resume j => i = j
  | _ => false

theorem countP_concat_resume (past : List (BusEvent η)) (i : ℕ) :
    (past ++ [BusEvent.resume i]).countP (BusEvent.resumes i) =
      past.countP (BusEvent.resumes i) + 1 := by
  have hresumes : (BusEvent.resume i : BusEvent η).resumes i = true := decide_eq_true rfl
  rw [List.countP_append, List.countP_singleton, if_pos hresumes]

/-- A call of `publish` that began with the subscriptions of `first`, after the events `past`. -/
structure Delivery.Follows (first last : EventBus η) (subject : List Char) (message : EventMessage)
    (i : ℕ) (past : List (BusEvent η)) (delivery : Delivery η) : Prop where
  subject_eq : delivery.subject = subject
  message_eq : delivery.message = { message with subject }
  spans : delivery.walk.Spans (driverMatches · subject) first.handlers last.handlers
  goes_on : delivery.walk.ending = none →
    past.countP (·.resumes i) < delivery.walk.visited.length
  cancelled : delivery.walk.ending = some .abandoned → .cancel i ∈ past

namespace BusRun

variable {s : BusRun η} {i : ℕ} {delivery : Delivery η}

theorem getElem?_onWalk (h : s.deliveries[i]? = some delivery) (j : ℕ) (f : Delivery η → Walk η) :
    (s.onWalk j f).deliveries[i]? =
      some (if j = i then { delivery with walk := f delivery } else delivery) := by
  rw [onWalk, List.getElem?_modify, h]
  split_ifs <;> rfl

/-- A call that is made. -/
theorem follows_publish (s : BusRun η) (subject : List Char) (message : EventMessage) (i : ℕ) :
    Delivery.Follows s.bus (s.step (.publish subject message)).bus subject message i []
      ⟨subject, { message with subject }, .begin (driverMatches · subject) s.bus.handlers⟩ where
  subject_eq := rfl
  message_eq := rfl
  spans := .begin _ _
  goes_on h := by
    rw [List.countP_nil]
    exact Walk.visited_begin_pos h
  cancelled h := absurd h (Walk.ending_begin_ne _ _)

/-- One event. -/
theorem follows_step {first : EventBus η} {subject : List Char} {message : EventMessage}
    {past : List (BusEvent η)} (hi : s.deliveries[i]? = some delivery)
    (h : delivery.Follows first s.bus subject message i past) (event : BusEvent η) :
    ∃ delivery', (s.step event).deliveries[i]? = some delivery' ∧
      delivery'.Follows first (s.step event).bus subject message i (past ++ [event]) := by
  cases event with
  | publish subject' message' =>
    refine ⟨delivery, ?_, h.subject_eq, h.message_eq, h.spans, fun hnone => ?_, fun hended => ?_⟩
    · exact (List.getElem?_append_left (List.getElem?_eq_some_iff.1 hi).1).trans hi
    · simpa [BusEvent.resumes] using h.goes_on hnone
    · exact List.mem_append_left _ (h.cancelled hended)
  | subscribe pattern handler =>
    refine ⟨delivery, hi, h.subject_eq, h.message_eq,
      h.spans.grow (s.bus.grown_subscribe pattern handler), fun hnone => ?_, fun hended => ?_⟩
    · simpa [BusEvent.resumes] using h.goes_on hnone
    · exact List.mem_append_left _ (h.cancelled hended)
  | resume j =>
    refine ⟨_, getElem?_onWalk hi j _, ?_⟩
    split_ifs with hj
    · subst hj
      refine ⟨h.subject_eq, h.message_eq, ?_, fun hnone => ?_, fun hended => ?_⟩
      · simp only [h.subject_eq]
        exact h.spans.next
      · obtain ⟨hbefore, hlength⟩ := Walk.length_visited_next hnone
        have hpast := h.goes_on hbefore
        rw [countP_concat_resume]
        exact hlength ▸ Nat.succ_lt_succ hpast
      · exact List.mem_append_left _ (h.cancelled (Walk.ending_of_next_abandoned hended))
    · refine ⟨h.subject_eq, h.message_eq, h.spans, fun hnone => ?_, fun hended => ?_⟩
      · simpa [BusEvent.resumes, Ne.symm hj] using h.goes_on hnone
      · exact List.mem_append_left _ (h.cancelled hended)
  | cancel j =>
    refine ⟨_, getElem?_onWalk hi j _, ?_⟩
    split_ifs with hj
    · subst hj
      refine ⟨h.subject_eq, h.message_eq, h.spans.abandon, fun hnone => ?_, fun hended => ?_⟩
      · exact absurd hnone (Walk.ending_abandon_ne _)
      · exact List.mem_append_right _ List.mem_cons_self
    · refine ⟨h.subject_eq, h.message_eq, h.spans, fun hnone => ?_, fun hended => ?_⟩
      · simpa [BusEvent.resumes] using h.goes_on hnone
      · exact List.mem_append_left _ (h.cancelled hended)

/-- Any events. -/
theorem follows_run {first : EventBus η} {subject : List Char} {message : EventMessage}
    {past : List (BusEvent η)} (hi : s.deliveries[i]? = some delivery)
    (h : delivery.Follows first s.bus subject message i past) (events : List (BusEvent η)) :
    ∃ delivery', (s.run events).deliveries[i]? = some delivery' ∧
      delivery'.Follows first (s.run events).bus subject message i (past ++ events) := by
  induction events generalizing s delivery past with
  | nil => exact ⟨delivery, hi, (List.append_nil past).symm ▸ h⟩
  | cons event events ih =>
    obtain ⟨delivery', hi', h'⟩ := follows_step hi h event
    rw [List.append_cons]
    exact ih hi' h'

end BusRun

/-! ## What is delivered -/

/-- What a call of `publish` has delivered by now, if it began with the subscriptions of `first`
and these are the ones of `last`. -/
structure Delivery.Delivers (delivery : Delivery η) (first last : EventBus η)
    (subject : List Char) (message : EventMessage) : Prop where
  in_order : delivery.called.Sublist (last.publish subject message).1
  returned : delivery.walk.ending = some .exhausted →
    (first.publish subject message).1.Sublist delivery.called
  raised : delivery.walk.ending = some .resized → first.handlers.length < last.handlers.length

theorem Delivery.Follows.delivers {first last : EventBus η} {subject : List Char}
    {message : EventMessage} {i : ℕ} {past : List (BusEvent η)} {delivery : Delivery η}
    (h : delivery.Follows first last subject message i past) :
    delivery.Delivers first last subject message where
  in_order := by
    rw [EventBus.publish_eq_itemsOf, called, h.message_eq]
    exact h.spans.visited.map _
  returned hended := by
    rw [EventBus.publish_eq_itemsOf, called, h.message_eq]
    exact (h.spans.exhausted hended).map _
  raised := h.spans.resized

/-- **Delivery.** Whatever is published, subscribed and cancelled while a call of `publish` waits
for its handlers, those it has called are subscribed, in their order and no subscription twice; if
it returns, all are among them that were subscribed when it was called, and if it raises, a new
pattern has come in. It ends once as many handlers have returned as are subscribed. -/
theorem delivered (driverType : String) (before after : List (BusEvent η)) (subject : List Char)
    (message : EventMessage) :
    let start := (BusRun.new driverType).run before
    let s := (BusRun.new driverType).run (before ++ .publish subject message :: after)
    let i := start.deliveries.length
    ∃ delivery, s.deliveries[i]? = some delivery ∧
      delivery.Delivers start.bus s.bus subject message ∧
        (delivery.walk.ending = some .abandoned → .cancel i ∈ after) ∧
          (delivery.walk.ending = none →
            after.countP (·.resumes i) < (s.bus.publish subject message).1.length) := by
  intro start s i
  have hbegin : (start.step (.publish subject message)).deliveries[i]? =
      some ⟨subject, { message with subject },
        .begin (driverMatches · subject) start.bus.handlers⟩ := by
    simp [BusRun.step, i]
  obtain ⟨delivery, hi, h⟩ :=
    BusRun.follows_run hbegin (start.follows_publish subject message i) after
  have hrun : (start.step (.publish subject message)).run after = s := by
    simp [s, start, BusRun.run]
  rw [hrun] at hi h
  rw [List.nil_append] at h
  refine ⟨delivery, hi, h.delivers, h.cancelled, fun hnone => ?_⟩
  calc after.countP (·.resumes i)
      < delivery.walk.visited.length := h.goes_on hnone
    _ = delivery.called.length := (List.length_map _).symm
    _ ≤ (s.bus.publish subject message).1.length := h.delivers.in_order.length_le

end FlowMesh.Events
