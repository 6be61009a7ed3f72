import FlowMesh.Library.Dict

/-!
# The event bus

`flowmesh_events/event_bus.py`: handlers are subscribed under patterns, and an event is handed to
those whose pattern matches its subject. Patterns and subjects are texts of tokens with dots
between them, lists of characters here. All drivers hand over to the one in memory, whose
`_matches` compares the beginning of the text.

`natsMatches` is what the patterns mean, token by token. `matches_nats_iff` says when the two
agree, and when a handler of one tenant's events is handed those of another.
-/

namespace FlowMesh.Events

/-! ## The code -/

/-- `EventMessage`, without the fields that the bus only carries. -/
structure EventMessage where
  id : String
  tenantId : String
  subject : List Char

local instance lawfulBEq_subject : LawfulBEq (List Char) := inferInstance

/-- `_matches`. -/
def driverMatches (pattern subject : List Char) : Bool :=
  if pattern ∈ [['>'], ['*']] then true
  else if pattern = subject then true
  else if ['.', '*'].isSuffixOf pattern || ['.', '>'].isSuffixOf pattern then
    (pattern.take (pattern.length - 2)).isPrefixOf subject
  else false

variable {η : Type}

/-- `InMemoryDriver`. -/
structure InMemoryDriver (η : Type) where
  handlers : Dict (List Char) (List η) := .empty

namespace InMemoryDriver

/-- `publish`: the handlers that are called, each with the message. What a handler raises is
dropped. -/
def publish (d : InMemoryDriver η) (subject : List Char) (message : EventMessage) :
    List (η × EventMessage) :=
  d.handlers.items.flatMap fun (pattern, handlerList) =>
    if driverMatches pattern subject then handlerList.map fun handler => (handler, message) else []

/-- `subscribe`. -/
def subscribe (d : InMemoryDriver η) (pattern : List Char) (handler : η) : InMemoryDriver η where
  handlers := d.handlers.set pattern ((d.handlers.get? pattern).getD [] ++ [handler])

end InMemoryDriver

/-- The drivers; those for Kafka and NATS have one in memory. -/
inductive EventBrokerDriver (η : Type)
  | memory (driver : InMemoryDriver η)
  | kafka (fallback : InMemoryDriver η)
  | nats (fallback : InMemoryDriver η)

namespace EventBrokerDriver

/-- `publish`. -/
def publish (d : EventBrokerDriver η) (subject : List Char) (message : EventMessage) :
    List (η × EventMessage) :=
  match d with
  | .memory driver => driver.publish subject message
  | .kafka fallback => fallback.publish subject message
  | .nats fallback => fallback.publish subject message

/-- `subscribe`. -/
def subscribe (d : EventBrokerDriver η) (pattern : List Char) (handler : η) :
    EventBrokerDriver η :=
  match d with
  | .memory driver => .memory (driver.subscribe pattern handler)
  | .kafka fallback => .kafka (fallback.subscribe pattern handler)
  | .nats fallback => .nats (fallback.subscribe pattern handler)

/-- The driver for a value of `EVENT_BROKER_DRIVER`. -/
def ofType (driverType : String) : EventBrokerDriver η :=
  if driverType = "kafka" then .kafka {}
  else if driverType = "nats" then .nats {}
  else .memory {}

end EventBrokerDriver

/-- `EventBus`. -/
structure EventBus (η : Type) where
  driver : EventBrokerDriver η
  history : List EventMessage := []

namespace EventBus

/-- `publish`. -/
def publish (bus : EventBus η) (subject : List Char) (message : EventMessage) :
    List (η × EventMessage) × EventBus η :=
  let message := { message with subject }
  let history := bus.history ++ [message]
  (bus.driver.publish subject message,
    { bus with history := if 200 < history.length then history.tail else history })

/-- `subscribe`. -/
def subscribe (bus : EventBus η) (pattern : List Char) (handler : η) : EventBus η :=
  { bus with driver := bus.driver.subscribe pattern handler }

/-- A bus with subscriptions. -/
def withSubscriptions (driverType : String) (subscriptions : List (List Char × η)) : EventBus η :=
  subscriptions.foldl (fun bus p => bus.subscribe p.1 p.2) { driver := .ofType driverType }

end EventBus

/-! ## Tokens -/

/-- The tokens of a text. -/
def tokens (text : List Char) : List (List Char) := text.splitOn '.'

/-- What a pattern means: `*` at its end is exactly one further token, `>` one or more, and all
other tokens are compared. -/
def natsMatches (pattern subject : List Char) : Prop :=
  if (tokens pattern).getLast? = some ['*'] then
    ∃ t, tokens subject = (tokens pattern).dropLast ++ [t]
  else if (tokens pattern).getLast? = some ['>'] then
    ∃ t ts, tokens subject = (tokens pattern).dropLast ++ t :: ts
  else tokens subject = tokens pattern

theorem tokens_injective : Function.Injective tokens := by
  intro text text' h
  have hback := congrArg ['.'].intercalate h
  rwa [tokens, tokens, List.intercalate_splitOn, List.intercalate_splitOn] at hback

theorem tokens_append_cons (text text' : List Char) :
    tokens (text ++ '.' :: text') = tokens text ++ tokens text' :=
  List.splitOn_append_cons_self text text'

theorem not_mem_of_mem_tokens {t text : List Char} (h : t ∈ tokens text) : '.' ∉ t := by
  unfold tokens at h
  induction text generalizing t with
  | nil =>
    simp only [List.splitOn_nil, List.mem_singleton] at h
    simp [h]
  | cons c cs ih =>
    rw [List.splitOn_cons_eq_if_modifyHead] at h
    split at h
    · rcases List.mem_cons.1 h with rfl | ht
      · exact List.not_mem_nil
      · exact ih ht
    · next hc =>
      cases hcs : cs.splitOn '.' with
      | nil => exact absurd hcs (List.splitOn_ne_nil '.' cs)
      | cons t' ts =>
        rw [hcs] at h ih
        rcases List.mem_cons.1 h with rfl | ht
        · have hdot : '.' ≠ c := fun heq => hc (by simp [heq.symm])
          simpa [hdot] using ih List.mem_cons_self
        · exact ih (List.mem_cons_of_mem t' ht)

/-- The tokens of a text, and then others. -/
theorem tokens_eq_append_iff {text subject : List Char} {ts : List (List Char)} (hts : ts ≠ []) :
    tokens subject = tokens text ++ ts ↔
      ∃ rest, subject = text ++ '.' :: rest ∧ tokens rest = ts := by
  constructor
  · intro h
    have hdots : ∀ t ∈ ts, '.' ∉ t := fun t ht =>
      not_mem_of_mem_tokens (h ▸ List.mem_append_right _ ht)
    have hrest : tokens (['.'].intercalate ts) = ts := List.splitOn_intercalate '.' hdots hts
    refine ⟨['.'].intercalate ts, tokens_injective ?_, hrest⟩
    rw [h, tokens_append_cons, hrest]
  · rintro ⟨rest, rfl, rfl⟩
    exact tokens_append_cons text rest

theorem tokens_eq_singleton {text : List Char} (h : '.' ∉ text) : tokens text = [text] :=
  List.splitOn_eq_singleton h

theorem tokens_append_dot (stem : List Char) {t : List Char} (ht : '.' ∉ t) :
    tokens (stem ++ '.' :: t) = tokens stem ++ [t] := by
  rw [tokens_append_cons, tokens_eq_singleton ht]

theorem exists_tokens_eq_singleton_iff {text : List Char} :
    (∃ t, tokens text = [t]) ↔ '.' ∉ text := by
  constructor
  · rintro ⟨t, ht⟩
    have hsame : tokens text = tokens t := by
      rw [ht, tokens_eq_singleton]
      exact not_mem_of_mem_tokens (ht ▸ List.mem_singleton_self t)
    rw [tokens_injective hsame]
    exact not_mem_of_mem_tokens (ht ▸ List.mem_singleton_self t)
  · exact fun h => ⟨text, tokens_eq_singleton h⟩

/-! ## What a pattern means, on the text -/

theorem natsMatches_star_iff (stem subject : List Char) :
    natsMatches (stem ++ ['.', '*']) subject ↔
      ∃ rest, subject = stem ++ '.' :: rest ∧ '.' ∉ rest := by
  unfold natsMatches
  rw [tokens_append_dot stem (t := ['*']) (by decide), List.getLast?_concat, if_pos rfl,
    List.dropLast_concat]
  constructor
  · rintro ⟨t, ht⟩
    obtain ⟨rest, hsubject, hrest⟩ := (tokens_eq_append_iff (List.cons_ne_nil t [])).1 ht
    exact ⟨rest, hsubject, exists_tokens_eq_singleton_iff.1 ⟨t, hrest⟩⟩
  · rintro ⟨rest, rfl, hrest⟩
    exact ⟨rest, tokens_append_dot stem hrest⟩

theorem natsMatches_rest_iff (stem subject : List Char) :
    natsMatches (stem ++ ['.', '>']) subject ↔ ∃ rest, subject = stem ++ '.' :: rest := by
  unfold natsMatches
  have hne : ¬ some ['>'] = some ['*'] := by decide
  rw [tokens_append_dot stem (t := ['>']) (by decide), List.getLast?_concat, if_neg hne,
    if_pos rfl, List.dropLast_concat]
  constructor
  · rintro ⟨t, ts, ht⟩
    obtain ⟨rest, hsubject, -⟩ := (tokens_eq_append_iff (List.cons_ne_nil t ts)).1 ht
    exact ⟨rest, hsubject⟩
  · rintro ⟨rest, rfl⟩
    obtain ⟨t, ts, hts⟩ := List.exists_cons_of_ne_nil (List.splitOn_ne_nil '.' rest)
    refine ⟨t, ts, ?_⟩
    rw [tokens_append_cons]
    exact congrArg (tokens stem ++ ·) hts

/-- A pattern whose last token is `t` is that token, or ends with it behind a dot. -/
theorem eq_of_getLast? {pattern t : List Char} (h : (tokens pattern).getLast? = some t) :
    pattern = t ∨ ∃ stem, pattern = stem ++ '.' :: t := by
  obtain ⟨init, hinit⟩ := List.getLast?_eq_some_iff.1 h
  have ht : '.' ∉ t := not_mem_of_mem_tokens (hinit ▸ List.mem_append_right init List.mem_cons_self)
  by_cases hempty : init = []
  · left
    apply tokens_injective
    rw [hinit, hempty, List.nil_append, tokens_eq_singleton ht]
  · right
    have hdots : ∀ t' ∈ init, '.' ∉ t' := fun t' ht' =>
      not_mem_of_mem_tokens (hinit ▸ List.mem_append_left [t] ht')
    refine ⟨['.'].intercalate init, tokens_injective ?_⟩
    rw [tokens_append_dot _ ht, hinit]
    exact congrArg (· ++ [t]) (List.splitOn_intercalate '.' hdots hempty).symm

/-- A pattern that ends with no wildcard of its own. -/
structure Literal (pattern : List Char) : Prop where
  ne_star : pattern ≠ ['*']
  ne_rest : pattern ≠ ['>']
  not_star : ∀ stem, pattern ≠ stem ++ ['.', '*']
  not_rest : ∀ stem, pattern ≠ stem ++ ['.', '>']

theorem Literal.natsMatches_iff {pattern : List Char} (h : Literal pattern)
    (subject : List Char) : natsMatches pattern subject ↔ pattern = subject := by
  have hstar : (tokens pattern).getLast? ≠ some ['*'] := by
    intro hlast
    rcases eq_of_getLast? hlast with heq | ⟨stem, hstem⟩
    · exact h.ne_star heq
    · exact h.not_star stem hstem
  have hrest : (tokens pattern).getLast? ≠ some ['>'] := by
    intro hlast
    rcases eq_of_getLast? hlast with heq | ⟨stem, hstem⟩
    · exact h.ne_rest heq
    · exact h.not_rest stem hstem
  unfold natsMatches
  rw [if_neg hstar, if_neg hrest, tokens_injective.eq_iff]
  exact eq_comm

/-! ## What the code compares -/

theorem driverMatches_of_stem {stem : List Char} {w : Char} (hw : w = '*' ∨ w = '>')
    (subject : List Char) :
    driverMatches (stem ++ ['.', w]) subject = true ↔ stem <+: subject := by
  have hne : stem ++ ['.', w] ∉ [['>'], ['*']] := by
    intro hmem
    have hlength : (stem ++ ['.', w]).length = 1 := by
      rcases List.mem_pair.1 hmem with h | h <;> rw [h] <;> rfl
    simp at hlength
  have hsuffix : (['.', '*'].isSuffixOf (stem ++ ['.', w]) ||
      ['.', '>'].isSuffixOf (stem ++ ['.', w])) = true := by
    rw [Bool.or_eq_true, List.isSuffixOf_iff_suffix, List.isSuffixOf_iff_suffix]
    rcases hw with rfl | rfl
    · exact .inl (List.suffix_append stem _)
    · exact .inr (List.suffix_append stem _)
  have htake : (stem ++ ['.', w]).take ((stem ++ ['.', w]).length - 2) = stem := by simp
  unfold driverMatches
  rw [if_neg hne, hsuffix, htake]
  by_cases heq : stem ++ ['.', w] = subject
  · rw [if_pos heq, ← heq]
    exact iff_of_true rfl (List.prefix_append stem _)
  · rw [if_neg heq, if_pos rfl, List.isPrefixOf_iff_prefix]

theorem Literal.driverMatches_iff {pattern : List Char} (h : Literal pattern)
    (subject : List Char) : driverMatches pattern subject = true ↔ pattern = subject := by
  have hne : pattern ∉ [['>'], ['*']] := by
    rw [List.mem_pair]
    exact not_or.2 ⟨h.ne_rest, h.ne_star⟩
  have hsuffix : ¬ (['.', '*'].isSuffixOf pattern || ['.', '>'].isSuffixOf pattern) = true := by
    rw [Bool.or_eq_true, List.isSuffixOf_iff_suffix, List.isSuffixOf_iff_suffix]
    rintro (⟨stem, hstem⟩ | ⟨stem, hstem⟩)
    · exact h.not_star stem hstem.symm
    · exact h.not_rest stem hstem.symm
  unfold driverMatches
  rw [if_neg hne, if_neg hsuffix]
  simp

/-- What stands before a wildcard and begins the subject is whole tokens of it: a dot follows, and
behind a `*` no further dot. A `*` alone has no dot to match. -/
def Bounded (pattern subject : List Char) : Prop :=
  (pattern = ['*'] → '.' ∉ subject) ∧
    ∀ stem, stem <+: subject →
      (pattern = stem ++ ['.', '*'] → ∃ rest, subject = stem ++ '.' :: rest ∧ '.' ∉ rest) ∧
        (pattern = stem ++ ['.', '>'] → ∃ rest, subject = stem ++ '.' :: rest)

theorem agree_iff_bounded (pattern subject : List Char) :
    (driverMatches pattern subject = true ↔ natsMatches pattern subject) ↔
      Bounded pattern subject := by
  have hlength : ∀ {stem : List Char} {w w' : Char}, [w'] ≠ stem ++ ['.', w] := by
    intro stem w w' heq
    have hlen := congrArg List.length heq
    simp at hlen
  by_cases hstar : pattern = ['*']
  · subst hstar
    have hnats : natsMatches ['*'] subject ↔ '.' ∉ subject := exists_tokens_eq_singleton_iff
    rw [hnats]
    constructor
    · exact fun h => ⟨fun _ => h.1 rfl, fun stem _ =>
        ⟨fun heq => absurd heq hlength, fun heq => absurd heq hlength⟩⟩
    · exact fun h => iff_of_true rfl (h.1 rfl)
  by_cases hrest : pattern = ['>']
  · subst hrest
    have hnats : natsMatches ['>'] subject :=
      List.exists_cons_of_ne_nil (List.splitOn_ne_nil '.' subject)
    apply iff_of_true
    · exact iff_of_true rfl hnats
    · exact ⟨fun heq => absurd heq hstar, fun stem _ =>
        ⟨fun heq => absurd heq hlength, fun heq => absurd heq hlength⟩⟩
  by_cases hstem : ∃ stem, pattern = stem ++ ['.', '*']
  · obtain ⟨stem, rfl⟩ := hstem
    rw [driverMatches_of_stem (.inl rfl), natsMatches_star_iff]
    constructor
    · refine fun h => ⟨fun heq => absurd heq hstar, fun stem' hstem' =>
        ⟨fun heq => ?_, fun heq => ?_⟩⟩
      · rw [← List.append_cancel_right heq] at hstem' ⊢
        exact h.1 hstem'
      · have hends := (List.append_inj' heq rfl).2
        simp at hends
    · rintro ⟨-, h⟩
      constructor
      · exact fun hprefix => (h stem hprefix).1 rfl
      · rintro ⟨rest, rfl, -⟩
        exact List.prefix_append stem _
  by_cases hstem' : ∃ stem, pattern = stem ++ ['.', '>']
  · obtain ⟨stem, rfl⟩ := hstem'
    rw [driverMatches_of_stem (.inr rfl), natsMatches_rest_iff]
    constructor
    · refine fun h => ⟨fun heq => absurd heq hstar, fun stem' hstem' =>
        ⟨fun heq => ?_, fun heq => ?_⟩⟩
      · have hends := (List.append_inj' heq rfl).2
        simp at hends
      · rw [← List.append_cancel_right heq] at hstem' ⊢
        exact h.1 hstem'
    · rintro ⟨-, h⟩
      constructor
      · exact fun hprefix => (h stem hprefix).2 rfl
      · rintro ⟨rest, rfl⟩
        exact List.prefix_append stem _
  · have hliteral : Literal pattern :=
      ⟨hstar, hrest, not_exists.1 hstem, not_exists.1 hstem'⟩
    apply iff_of_true
    · rw [hliteral.driverMatches_iff, hliteral.natsMatches_iff]
    · exact ⟨fun heq => absurd heq hstar, fun stem _ =>
        ⟨fun heq => absurd heq (hliteral.not_star stem),
          fun heq => absurd heq (hliteral.not_rest stem)⟩⟩

/-! ## Who is called -/

theorem InMemoryDriver.mem_publish {d : InMemoryDriver η} {subject : List Char}
    {message : EventMessage} {handler : η} : (handler, message) ∈ d.publish subject message ↔
      ∃ pattern, handler ∈ (d.handlers.get? pattern).getD [] ∧
        driverMatches pattern subject = true := by
  unfold publish
  rw [List.mem_flatMap]
  constructor
  · rintro ⟨⟨pattern, handlerList⟩, hitem, hcall⟩
    rw [Dict.mem_items_iff] at hitem
    refine ⟨pattern, ?_⟩
    rw [hitem]
    by_cases hmatch : driverMatches pattern subject = true
    · simp only [hmatch, if_true, List.mem_map, Prod.mk.injEq] at hcall
      obtain ⟨handler', hhandler, rfl, -⟩ := hcall
      exact ⟨hhandler, hmatch⟩
    · simp [hmatch] at hcall
  · rintro ⟨pattern, hhandler, hmatch⟩
    cases hget : d.handlers.get? pattern with
    | none =>
      rw [hget] at hhandler
      cases hhandler
    | some handlerList =>
      rw [hget] at hhandler
      refine ⟨(pattern, handlerList), Dict.mem_items_iff.2 hget, ?_⟩
      simp only [hmatch, if_true]
      exact List.mem_map_of_mem hhandler

theorem InMemoryDriver.mem_subscribe {d : InMemoryDriver η} {pattern pattern' : List Char}
    {handler handler' : η} :
    handler' ∈ ((d.subscribe pattern handler).handlers.get? pattern').getD [] ↔
      handler' ∈ (d.handlers.get? pattern').getD [] ∨ pattern' = pattern ∧ handler' = handler := by
  unfold subscribe
  rw [Dict.get?_set]
  split
  · next heq =>
    subst heq
    simp
  · next hne => simp [hne]

/-- The driver in memory that does the work. -/
def EventBrokerDriver.inMemory : EventBrokerDriver η → InMemoryDriver η
  | .memory driver => driver
  | .kafka fallback => fallback
  | .nats fallback => fallback

theorem EventBrokerDriver.inMemory_subscribe (d : EventBrokerDriver η) (pattern : List Char)
    (handler : η) :
    (d.subscribe pattern handler).inMemory = d.inMemory.subscribe pattern handler := by
  cases d <;> rfl

theorem EventBrokerDriver.publish_eq (d : EventBrokerDriver η) (subject : List Char)
    (message : EventMessage) : d.publish subject message = d.inMemory.publish subject message := by
  cases d <;> rfl

/-- The handlers under a pattern. -/
def EventBus.handlersOf (bus : EventBus η) (pattern : List Char) : List η :=
  (bus.driver.inMemory.handlers.get? pattern).getD []

theorem EventBus.mem_withSubscriptions {driverType : String}
    {subscriptions : List (List Char × η)} {pattern : List Char} {handler : η} :
    handler ∈ (withSubscriptions driverType subscriptions).handlersOf pattern ↔
      (pattern, handler) ∈ subscriptions := by
  have hgeneral : ∀ bus : EventBus η,
      handler ∈ (subscriptions.foldl (fun bus p => bus.subscribe p.1 p.2) bus).handlersOf
        pattern ↔ handler ∈ bus.handlersOf pattern ∨ (pattern, handler) ∈ subscriptions := by
    induction subscriptions with
    | nil => simp
    | cons p subscriptions ih =>
      intro bus
      rw [List.foldl_cons, ih, List.mem_cons]
      unfold EventBus.subscribe handlersOf
      rw [EventBrokerDriver.inMemory_subscribe, InMemoryDriver.mem_subscribe, or_assoc,
        Prod.ext_iff]
  have hfresh : (EventBrokerDriver.ofType driverType : EventBrokerDriver η).inMemory = {} := by
    unfold EventBrokerDriver.ofType
    split_ifs <;> rfl
  unfold withSubscriptions
  rw [hgeneral]
  unfold handlersOf
  rw [hfresh]
  simp

/-- Who is handed an event. -/
theorem EventBus.mem_publish {driverType : String} {subscriptions : List (List Char × η)}
    {subject : List Char} {message : EventMessage} {handler : η} :
    (handler, { message with subject }) ∈
        ((withSubscriptions driverType subscriptions).publish subject message).1 ↔
      ∃ pattern, (pattern, handler) ∈ subscriptions ∧ driverMatches pattern subject = true := by
  show (handler, _) ∈ (withSubscriptions driverType subscriptions).driver.publish subject _ ↔ _
  rw [EventBrokerDriver.publish_eq, InMemoryDriver.mem_publish]
  simp only [← @mem_withSubscriptions η driverType]
  rfl

/-! ## Tenants -/

/-- The patterns for all events of a tenant. -/
def tenantPatterns (tenantId : List Char) : List (List Char) :=
  ["events.".toList ++ tenantId ++ ['.', '*'], "events.".toList ++ tenantId ++ ['.', '>']]

/-- A subject of a tenant's events. -/
def tenantSubject (tenantId rest : List Char) : List Char :=
  "events.".toList ++ tenantId ++ '.' :: rest

theorem tenantPatterns_match_iff {a b rest : List Char} (ha : '.' ∉ a) {pattern : List Char}
    (hpattern : pattern ∈ tenantPatterns a) :
    driverMatches pattern (tenantSubject b rest) = true ↔ a <+: b := by
  have hstem : "events.".toList ++ a <+: tenantSubject b rest ↔ a <+: b := by
    unfold tenantSubject
    rw [List.append_assoc, List.prefix_append_right_inj]
    constructor
    · intro h
      have hb : b <+: b ++ '.' :: rest := List.prefix_append b _
      rcases List.prefix_or_prefix_of_prefix h hb with hab | ⟨c, rfl⟩
      · exact hab
      · have hc : c <+: '.' :: rest := (List.prefix_append_right_inj b).1 h
        cases c with
        | nil => simp
        | cons x c =>
          obtain ⟨rfl, -⟩ := List.cons_prefix_cons.1 hc
          simp at ha
    · exact fun h => h.trans (List.prefix_append b _)
  rcases List.mem_pair.1 hpattern with rfl | rfl
  · rw [driverMatches_of_stem (.inl rfl), hstem]
  · rw [driverMatches_of_stem (.inr rfl), hstem]

/-- No handler whose subscriptions are all for one tenant's events is handed one of the other. -/
def Separate (a b : List Char) : Prop :=
  ∀ (η : Type) (driverType : String) (subscriptions : List (List Char × η)) (handler : η)
    (rest : List Char) (message : EventMessage),
    (∀ pattern, (pattern, handler) ∈ subscriptions → pattern ∈ tenantPatterns a) →
      (handler, { message with subject := tenantSubject b rest }) ∉
        ((EventBus.withSubscriptions driverType subscriptions).publish (tenantSubject b rest)
          message).1

theorem separate_iff {a b : List Char} (ha : '.' ∉ a) : Separate a b ↔ ¬ a <+: b := by
  constructor
  · intro h hprefix
    have hcall := h Unit "memory" [("events.".toList ++ a ++ ['.', '*'], ())] () []
      ⟨"", "", []⟩ (by simp [tenantPatterns])
    refine hcall (EventBus.mem_publish.2 ⟨_, List.mem_singleton_self _, ?_⟩)
    exact (tenantPatterns_match_iff ha List.mem_cons_self).2 hprefix
  · intro hprefix η driverType subscriptions handler rest message hown hcall
    obtain ⟨pattern, hmem, hmatch⟩ := EventBus.mem_publish.1 hcall
    exact hprefix ((tenantPatterns_match_iff ha (hown pattern hmem)).1 hmatch)

/-- **Wildcards and tokens.** The code agrees with the meaning of a pattern on exactly the
subjects that begin with whole tokens of it, and the events of two tenants are kept apart exactly
if the id of the one does not begin that of the other. -/
theorem matches_nats_iff (pattern subject a b : List Char) :
    ((driverMatches pattern subject = true ↔ natsMatches pattern subject) ↔
      Bounded pattern subject) ∧
    ('.' ∉ a → '.' ∉ b → a ≠ b → (Separate a b ↔ ¬ a <+: b)) :=
  ⟨agree_iff_bounded pattern subject, fun ha _ _ => separate_iff ha⟩

/-- `acme` and `globex`. -/
theorem separate_acme_globex : Separate "acme".toList "globex".toList :=
  ((matches_nats_iff [] [] "acme".toList "globex".toList).2 (by decide) (by decide) (by decide)).2
    (by decide)

/-- A handler for the events of `acme` is handed a webhook of `acme2`. -/
theorem not_separate_acme2 : ¬ ((∀ pattern subject : List Char, [] ∉ tokens pattern →
      [] ∉ tokens subject →
        (driverMatches pattern subject = true ↔ natsMatches pattern subject)) ∧
    ∀ a b : List Char, '.' ∉ a → '.' ∉ b → a ≠ b → Separate a b) := by
  rintro ⟨-, hall⟩
  have hsep := hall "acme".toList "acme2".toList (by decide) (by decide) (by decide)
  rw [separate_iff (by decide)] at hsep
  exact hsep (by decide)

end FlowMesh.Events
