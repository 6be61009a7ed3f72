import FlowMesh.Commands.HandOut

/-!
# The life cycle of a command

A command is queued, dispatched, and ends with the result that its agent posts. The statements
behind this, `mark_dispatched` and `record_result`, look neither at the status of the command nor
at the agent that posts. So the life cycle is kept in every run of orderly requests
(`life_cycle`): polls that do not select what another one holds, and results that are posted under
the agent's own id, with a terminal status, for a command that is dispatched and that no other
result is about to be written for.

`Change` says what one call of such a request can do; the invariant `Regular` follows from it.
-/

namespace FlowMesh

open Python Database Async

/-- A status that ends a command. -/
def Terminal (status : String) : Prop := status ≠ "QUEUED" ∧ status ≠ "DISPATCHED"

instance (status : String) : Decidable (Terminal status) := inferInstanceAs (Decidable (_ ∧ _))

namespace CommandStore

/-- The request found the command and has neither recorded a result for it nor failed. -/
def Finds (s : CommandStore) (i : ℕ) (id : String) : Prop :=
  (i, CommandEvent.found id) ∈ s.trace ∧ (i, CommandEvent.recorded id) ∉ s.trace ∧
    (i, CommandEvent.failed) ∉ s.trace

/-- How often a result of the command was recorded. -/
def recordings (s : CommandStore) (id : String) : ℕ :=
  s.trace.countP (·.2 = .recorded id)

/-- A result is posted under the agent's own id, with a terminal status, for a command that is
dispatched and that no other request has found. -/
def OwnResult (requests : List AgentsRequest) (i : ℕ) (s : CommandStore)
    (cmd : AgentCommandRecord) : Prop :=
  cmd.status = "DISPATCHED" ∧ (∀ j, j ≠ i → ¬ s.Finds j cmd.id) ∧
    ∀ agentId commandId payload xTenantId,
      requests[i]? = some (.recordCommandResult agentId commandId payload xTenantId) →
        agentId = cmd.agentId ∧ Terminal payload.status

/-- Polls select what no other one holds, and results are the agent's own. -/
def Orderly (requests : List AgentsRequest) (i : ℕ) (_ : Surroundings) :
    AgentsOp → CommandStore → Prop
  | .getPendingCommands tenant agentId limit, s =>
    ∀ cmd ∈ s.pending tenant agentId limit, ∀ j, j ≠ i → ¬ s.Holds j cmd.id
  | .getCommand tenant commandId, s =>
    ∀ cmd, s.command? tenant commandId = some cmd → s.OwnResult requests i cmd
  | _, _ => True

/-! ## What a call can do -/

/-- The request `i` ends the command `cmd` with its result. -/
def EndsWith (requests : List AgentsRequest) (i : ℕ) (cmd cmd' : AgentCommandRecord) : Prop :=
  ∃ payload xTenantId,
    requests[i]? = some (.recordCommandResult cmd.agentId cmd.id payload xTenantId) ∧
      Terminal payload.status ∧
      cmd' = cmd.written payload.status payload.result payload.error cmd

/-- A command moves from queued to dispatched to a result of its own agent. -/
def Lawful (requests : List AgentsRequest) (i : ℕ) (s s' : CommandStore) : Prop :=
  ∀ cmd ∈ s.commands, ∃ cmd' ∈ s'.commands,
    cmd' = cmd ∨ cmd.status = "QUEUED" ∧ cmd' = cmd.markedDispatched ∨
      cmd.status = "DISPATCHED" ∧ EndsWith requests i cmd cmd'

/-- What one call of an orderly request does: its events, and what they say of the rows. -/
structure Change (requests : List AgentsRequest) (i : ℕ) (events : List CommandEvent)
    (s s' : CommandStore) : Prop where
  trace : s'.trace = s.trace ++ events.map (i, ·)
  rows : ∀ cmd ∈ s.commands, cmd ∈ s'.commands ∨
    cmd.status = "QUEUED" ∧ s.Holds i cmd.id ∧ CommandEvent.dispatched cmd.id ∈ events ∧
      cmd.markedDispatched ∈ s'.commands ∨
    cmd.status = "DISPATCHED" ∧ s.Finds i cmd.id ∧ CommandEvent.recorded cmd.id ∈ events ∧
      ∃ cmd' ∈ s'.commands, EndsWith requests i cmd cmd'
  selected : ∀ id, CommandEvent.selected id ∈ events →
    ∃ cmd ∈ s'.commands, cmd.id = id ∧ cmd.status = "QUEUED"
  found : ∀ id, CommandEvent.found id ∈ events → (∀ j, j ≠ i → ¬ s.Finds j id) ∧
    ∃ cmd ∈ s'.commands, cmd.id = id ∧ cmd.status = "DISPATCHED"
  recorded : ∀ id, CommandEvent.recorded id ∈ events →
    (∃ cmd ∈ s.commands, cmd.id = id ∧ cmd.status = "DISPATCHED") ∧
      ∃ cmd ∈ s'.commands, cmd.id = id ∧ Terminal cmd.status
  once : ∀ id, events.count (.recorded id) ≤ 1

/-- The invariant: who holds a command keeps it queued, who found it keeps it dispatched, and
what was recorded has ended. -/
structure Regular (s : CommandStore) : Prop where
  fair : s.Fair
  held : ∀ i id, s.Holds i id → ∃ cmd ∈ s.commands, cmd.id = id ∧ cmd.status = "QUEUED"
  finder : ∀ i j id, s.Finds i id → s.Finds j id → i = j
  found : ∀ i id, s.Finds i id → ∃ cmd ∈ s.commands, cmd.id = id ∧ cmd.status = "DISPATCHED"
  ended : ∀ i id, (i, CommandEvent.recorded id) ∈ s.trace →
    ∃ cmd ∈ s.commands, cmd.id = id ∧ Terminal cmd.status
  once : ∀ id, s.recordings id ≤ 1

variable {requests : List AgentsRequest} {i j : ℕ} {events : List CommandEvent}
  {s s' : CommandStore} {id : String}

theorem EndsWith.id_eq {cmd cmd' : AgentCommandRecord} (h : EndsWith requests i cmd cmd') :
    cmd'.id = cmd.id := by
  obtain ⟨payload, xTenantId, -, -, rfl⟩ := h
  rfl

theorem Change.mem_trace (h : Change requests i events s s') {event : CommandEvent} :
    (j, event) ∈ s'.trace ↔ (j, event) ∈ s.trace ∨ j = i ∧ event ∈ events := by
  rw [h.trace]
  simp [and_comm, eq_comm]

theorem Change.lawful (h : Change requests i events s s') : s.Lawful requests i s' := by
  intro cmd hcmd
  rcases h.rows cmd hcmd with hsame | ⟨hstatus, -, -, hmarked⟩ | ⟨hstatus, -, -, cmd', hmem, hends⟩
  · exact ⟨cmd, hsame, Or.inl rfl⟩
  · exact ⟨_, hmarked, Or.inr (Or.inl ⟨hstatus, rfl⟩)⟩
  · exact ⟨cmd', hmem, Or.inr (Or.inr ⟨hstatus, hends⟩)⟩

/-- A claim after the call was there before or comes from its selection. -/
theorem Change.holds (h : Change requests i events s s') (hj : s'.Holds j id) :
    s.Holds j id ∨ j = i ∧ CommandEvent.selected id ∈ events := by
  obtain ⟨⟨hselected, hfailed⟩, hmarked⟩ := hj
  rcases h.mem_trace.1 hselected with hold | hnew
  · refine Or.inl ⟨⟨hold, fun hmem => hfailed ?_⟩, fun hmem => hmarked ?_⟩
    · exact h.mem_trace.2 (Or.inl hmem)
    · exact h.mem_trace.2 (Or.inl hmem)
  · exact Or.inr hnew

theorem Change.finds (h : Change requests i events s s') (hj : s'.Finds j id) :
    s.Finds j id ∨ j = i ∧ CommandEvent.found id ∈ events := by
  obtain ⟨hfound, hrecorded, hfailed⟩ := hj
  rcases h.mem_trace.1 hfound with hold | hnew
  · refine Or.inl ⟨hold, fun hmem => hrecorded ?_, fun hmem => hfailed ?_⟩
    · exact h.mem_trace.2 (Or.inl hmem)
    · exact h.mem_trace.2 (Or.inl hmem)
  · exact Or.inr hnew

/-- A queued command stays queued, unless the request holds and marks it. -/
theorem Change.keeps_queued (h : Change requests i events s s')
    (hs : ∃ cmd ∈ s.commands, cmd.id = id ∧ cmd.status = "QUEUED") :
    (∃ cmd ∈ s'.commands, cmd.id = id ∧ cmd.status = "QUEUED") ∨
      s.Holds i id ∧ CommandEvent.dispatched id ∈ events := by
  obtain ⟨cmd, hcmd, rfl, hstatus⟩ := hs
  rcases h.rows cmd hcmd with hsame | ⟨-, hholds, hevent, -⟩ | ⟨hdisp, -, -, -⟩
  · exact Or.inl ⟨cmd, hsame, rfl, hstatus⟩
  · exact Or.inr ⟨hholds, hevent⟩
  · rw [hstatus] at hdisp
    exact absurd hdisp (by decide)

/-- A dispatched command stays dispatched, unless the request found it and records its result. -/
theorem Change.keeps_dispatched (h : Change requests i events s s')
    (hs : ∃ cmd ∈ s.commands, cmd.id = id ∧ cmd.status = "DISPATCHED") :
    (∃ cmd ∈ s'.commands, cmd.id = id ∧ cmd.status = "DISPATCHED") ∨
      s.Finds i id ∧ CommandEvent.recorded id ∈ events := by
  obtain ⟨cmd, hcmd, rfl, hstatus⟩ := hs
  rcases h.rows cmd hcmd with hsame | ⟨hqueued, -, -, -⟩ | ⟨-, hfinds, hevent, -⟩
  · exact Or.inl ⟨cmd, hsame, rfl, hstatus⟩
  · rw [hstatus] at hqueued
    exact absurd hqueued (by decide)
  · exact Or.inr ⟨hfinds, hevent⟩

/-- A command that has ended stays as it is. -/
theorem Change.keeps_ended (h : Change requests i events s s')
    (hs : ∃ cmd ∈ s.commands, cmd.id = id ∧ Terminal cmd.status) :
    ∃ cmd ∈ s'.commands, cmd.id = id ∧ Terminal cmd.status := by
  obtain ⟨cmd, hcmd, rfl, hstatus⟩ := hs
  rcases h.rows cmd hcmd with hsame | ⟨hqueued, -⟩ | ⟨hdisp, -⟩
  · exact ⟨cmd, hsame, rfl, hstatus⟩
  · exact absurd hqueued hstatus.1
  · exact absurd hdisp hstatus.2

theorem Regular.change (hs : s.Regular) (hfair : s'.Fair)
    (h : Change requests i events s s') : s'.Regular where
  fair := hfair
  held := by
    intro j id hj
    rcases h.holds hj with hold | ⟨-, hnew⟩
    · rcases h.keeps_queued (hs.held j id hold) with hkept | ⟨hi, hevent⟩
      · exact hkept
      · -- the request that marks the command is the one that holds it
        obtain rfl := hs.fair.exclusive j i id hold.1 hi.1
        exact absurd (h.mem_trace.2 (Or.inr ⟨rfl, hevent⟩)) hj.2
    · exact h.selected id hnew
  finder := by
    intro j k id hj hk
    rcases h.finds hj with hj | ⟨hji, hj⟩
    · rcases h.finds hk with hk | ⟨hki, hk⟩
      · exact hs.finder j k id hj hk
      · by_contra hne
        exact (h.found id hk).1 j (fun hji => hne (hji.trans hki.symm)) hj
    · rcases h.finds hk with hk | ⟨hki, -⟩
      · by_contra hne
        exact (h.found id hj).1 k (fun hki => hne (hji.trans hki.symm)) hk
      · exact hji.trans hki.symm
  found := by
    intro j id hj
    rcases h.finds hj with hold | ⟨-, hnew⟩
    · rcases h.keeps_dispatched (hs.found j id hold) with hkept | ⟨hi, hevent⟩
      · exact hkept
      · obtain rfl := hs.finder j i id hold hi
        exact absurd (h.mem_trace.2 (Or.inr ⟨rfl, hevent⟩)) hj.2.1
    · exact (h.found id hnew).2
  ended := by
    intro j id hj
    rcases h.mem_trace.1 hj with hold | ⟨-, hnew⟩
    · exact h.keeps_ended (hs.ended j id hold)
    · exact (h.recorded id hnew).2
  once := by
    intro id
    have hnew : (events.map (i, ·)).countP (·.2 = CommandEvent.recorded id) =
        events.count (.recorded id) := by
      rw [List.countP_map, List.count]
      refine List.countP_congr fun event _ => ?_
      simp
    rw [recordings, h.trace, List.countP_append, hnew]
    by_cases hmem : CommandEvent.recorded id ∈ events
    · -- before the call the command was dispatched, so nothing was recorded
      have hnone : s.recordings id = 0 := by
        refine List.countP_eq_zero.2 ?_
        rintro ⟨j, event⟩ hmem' hevent
        obtain rfl : event = .recorded id := by simpa using hevent
        obtain ⟨⟨cmd, hcmd, rfl, hstatus⟩, -⟩ := h.recorded _ hmem
        obtain ⟨cmd', hcmd', hid, hended⟩ := hs.ended j _ hmem'
        obtain rfl := Table.eq_of_key_eq hcmd' hcmd hid
        exact hended.2 hstatus
      have honce := h.once id
      rw [recordings] at hnone
      omega
    · have hzero : events.count (.recorded id) = 0 := List.count_eq_zero.2 hmem
      have honce := hs.once id
      rw [recordings] at honce
      omega

/-! ## The statements -/

variable {c : Surroundings} {o : AgentsOp} {uuid : String}

/-- The calls that change no command. -/
def Calm : AgentsOp → Prop
  | .markDispatched _ _ => False
  | .writeResult _ _ _ _ => False
  | _ => True

theorem Change.of_silent (htrace : s'.trace = s.trace)
    (hrows : ∀ cmd ∈ s.commands, cmd ∈ s'.commands) : Change requests i [] s s' where
  trace := by simp [htrace]
  rows cmd hcmd := Or.inl (hrows cmd hcmd)
  selected := nofun
  found := nofun
  recorded := nofun
  once := by simp

theorem change_calm (ho : Calm o) (hG : Orderly requests i c o s) :
    Change requests i (s.events o) s (effect uuid i o s).2 := by
  cases o with
  | markDispatched tenant commandId => exact ho.elim
  | writeResult loaded status result error => exact ho.elim
  | createCommand cmd =>
    refine .of_silent ?_ fun old hold => ?_
    · rw [trace_effect]
      simp [events]
    · simp only [effect]
      rcases Table.insert?_cases s.commands cmd.queued with ⟨h, -⟩ | ⟨t, h, -, hmem⟩
      · rw [h]
        exact hold
      · rw [h]
        exact (hmem old).2 (Or.inl hold)
  | refresh commandId =>
    simp only [effect]
    cases s.commands.get? commandId <;> exact .of_silent rfl fun _ h => h
  | getPendingCommands tenant agentId limit =>
    refine ⟨trace_effect uuid i _ s, fun cmd hcmd => Or.inl hcmd, fun id hid => ?_, fun id hid => ?_,
      fun id hid => ?_, fun id => ?_⟩
    · obtain ⟨cmd, hcmd, hid⟩ := List.mem_map.1 hid
      obtain ⟨hmem, hstatus⟩ := mem_pending hcmd
      exact ⟨cmd, hmem, CommandEvent.selected.inj hid, hstatus⟩
    · simp [events] at hid
    · simp [events] at hid
    · have hnone : CommandEvent.recorded id ∉ s.events (.getPendingCommands tenant agentId limit) := by
        simp [events]
      simp [List.count_eq_zero.2 hnone]
  | getCommand tenant commandId =>
    refine ⟨trace_effect uuid i _ s, fun cmd hcmd => Or.inl hcmd, fun id hid => ?_, fun id hid => ?_,
      fun id hid => ?_, fun id => ?_⟩
    · simp [events] at hid
    · obtain ⟨cmd, hcmd, hid⟩ := List.mem_map.1 hid
      obtain rfl := CommandEvent.found.inj hid
      have hcmd' : s.command? tenant commandId = some cmd := by simpa using hcmd
      obtain ⟨hstatus, hother, -⟩ := hG cmd hcmd'
      exact ⟨hother, cmd, List.mem_of_find?_eq_some hcmd', rfl, hstatus⟩
    · simp [events] at hid
    · have hnone : CommandEvent.recorded id ∉ s.events (.getCommand tenant commandId) := by
        simp [events]
      simp [List.count_eq_zero.2 hnone]
  | _ => exact .of_silent rfl fun _ h => h

/-- A request marks a command that it holds. -/
theorem change_markDispatched (requests : List AgentsRequest) {tenant commandId : String}
    (hs : s.Regular) (hholds : s.Holds i commandId) :
    Change requests i (s.events (.markDispatched tenant commandId)) s
      (effect uuid i (.markDispatched tenant commandId) s).2 := by
  refine ⟨trace_effect uuid i _ s, fun cmd hcmd => ?_, fun id hid => ?_, fun id hid => ?_,
    fun id hid => ?_, fun id => ?_⟩
  · cases hp : addressed tenant commandId cmd with
    | false => exact Or.inl (mem_markDispatched.2 ⟨cmd, hcmd, by simp [hp]⟩)
    | true =>
      obtain ⟨hid, -⟩ := of_decide_eq_true hp
      obtain ⟨cmd', hcmd', hid', hstatus⟩ := hs.held i commandId hholds
      obtain rfl := Table.eq_of_key_eq hcmd' hcmd (hid'.trans hid.symm)
      refine Or.inr (Or.inl ⟨hstatus, by rwa [hid], ?_, ?_⟩)
      · exact List.mem_map_of_mem (List.mem_filter.2 ⟨hcmd, hp⟩)
      · exact mem_markDispatched.2 ⟨cmd', hcmd, by simp [hp]⟩
  · simp [events] at hid
  · simp [events] at hid
  · simp [events] at hid
  · have hnone : CommandEvent.recorded id ∉ s.events (.markDispatched tenant commandId) := by
      simp [events]
    simp [List.count_eq_zero.2 hnone]

/-- A request records its result for a command that it found. -/
theorem change_writeResult {loaded : AgentCommandRecord} {payload : CommandResultRequest}
    {xTenantId : Option String} (hloaded : loaded ∈ s.commands) (hfinds : s.Finds i loaded.id)
    (hstatus : loaded.status = "DISPATCHED")
    (hrequest : requests[i]? =
      some (.recordCommandResult loaded.agentId loaded.id payload xTenantId))
    (hterminal : Terminal payload.status) :
    Change requests i (s.events (.writeResult loaded payload.status payload.result payload.error)) s
      (effect uuid i (.writeResult loaded payload.status payload.result payload.error) s).2 := by
  have hends : EndsWith requests i loaded
      (loaded.written payload.status payload.result payload.error loaded) :=
    ⟨payload, xTenantId, hrequest, hterminal, rfl⟩
  have hwritten : loaded.written payload.status payload.result payload.error loaded ∈
      (effect uuid i (.writeResult loaded payload.status payload.result payload.error) s).2.commands :=
    mem_writeResult.2 ⟨loaded, hloaded, by simp⟩
  have hevents : s.events (.writeResult loaded payload.status payload.result payload.error) =
      [.recorded loaded.id] := by
    rw [events, Table.filter_key hloaded]
    rfl
  have hended : Terminal (loaded.written payload.status payload.result payload.error loaded).status := by
    simp only [AgentCommandRecord.written]
    split_ifs with h
    · rwa [h]
    · exact hterminal
  refine ⟨trace_effect uuid i _ s, fun cmd hcmd => ?_, fun id hid => ?_, fun id hid => ?_,
    fun id hid => ?_, fun id => ?_⟩
  · by_cases hid : cmd.id = loaded.id
    · obtain rfl := Table.eq_of_key_eq hcmd hloaded hid
      exact Or.inr (Or.inr ⟨hstatus, hfinds, by simp [hevents], _, hwritten, hends⟩)
    · exact Or.inl (mem_writeResult.2 ⟨cmd, hcmd, by simp [hid]⟩)
  · simp [events] at hid
  · simp [events] at hid
  · obtain rfl : id = loaded.id := by simpa [hevents] using hid
    exact ⟨⟨loaded, hloaded, rfl, hstatus⟩, _, hwritten, rfl, hended⟩
  · rw [hevents]
    exact List.count_le_length

/-- Marking one command leaves the request the others that it holds. -/
theorem Holds.mark {commandId : String} (h : s.Holds i id) (uuid tenant : String)
    (hne : id ≠ commandId) : (effect uuid i (.markDispatched tenant commandId) s).2.Holds i id := by
  have hclaims : (effect uuid i (.markDispatched tenant commandId) s).2.Claims i id := h.1.effect
  refine ⟨hclaims, fun hmarked => ?_⟩
  rw [trace_effect] at hmarked
  rcases List.mem_append.1 hmarked with hold | hnew
  · exact h.2 hold
  · obtain ⟨event, hevent, heq⟩ := List.mem_map.1 hnew
    obtain ⟨row, hrow, rfl⟩ := List.mem_map.1 hevent
    have hrow' : row.id = commandId := (of_decide_eq_true (List.mem_filter.1 hrow).2).1
    exact hne ((CommandEvent.dispatched.inj (Prod.mk.inj heq).2).symm.trans hrow')

/-- A failure at the end. -/
theorem Change.fail (h : Change requests i events s s') :
    Change requests i (events ++ [.failed]) s (s'.log i [.failed]) where
  trace := by simp [log, h.trace]
  rows cmd hcmd := by
    rcases h.rows cmd hcmd with hsame | ⟨hstatus, hholds, hevent, hmarked⟩ |
      ⟨hstatus, hfinds, hevent, hends⟩
    · exact Or.inl hsame
    · exact Or.inr (Or.inl ⟨hstatus, hholds, List.mem_append_left _ hevent, hmarked⟩)
    · exact Or.inr (Or.inr ⟨hstatus, hfinds, List.mem_append_left _ hevent, hends⟩)
  selected id hid := h.selected id (by simpa using hid)
  found id hid := h.found id (by simpa using hid)
  recorded id hid := h.recorded id (by simpa using hid)
  once id := by simpa [List.count_append] using h.once id

/-- A call whose statement is orderly keeps the invariant. -/
theorem Regular.handle (hs : s.Regular) (hone : OneHolder i c o s)
    (h : Change requests i (s.events o) s (effect c.uuid i o s).2) :
    (handle i c o s).2.Regular ∧ ∃ events, Change requests i events s (handle i c o s).2 := by
  have hchange : ∃ events, Change requests i events s (CommandStore.handle i c o s).2 :=
    handle_keeps (I := fun s' => ∃ events, Change requests i events s s')
      ⟨[], .of_silent rfl fun _ h => h⟩ ⟨_, h⟩ fun _ ⟨events, ht⟩ => ⟨_, ht.fail⟩
  obtain ⟨events, hevents⟩ := hchange
  exact ⟨hs.change (handOut_call hs.fair hone).1 hevents, events, hevents⟩

end CommandStore

/-! ## Requests -/

section Requests

open CommandStore

variable {environment : String} {e : Ed25519} {requests : List AgentsRequest} {i : ℕ}
  {s s' : CommandStore}

/-- The contract of orderly requests. -/
def lifeCycle (requests : List AgentsRequest) : Crew.Contract CommandStore :=
  ⟨Regular, fun i s s' => ∃ events, Change requests i events s s'⟩

theorem oneHolder_of_calm {c : Surroundings} {o : AgentsOp} (ho : Calm o)
    (hG : Orderly requests i c o s) : OneHolder i c o s := by
  cases o with
  | getPendingCommands tenant agentId limit => exact hG
  | writeResult loaded status result error => exact ho.elim
  | _ => trivial

/-- A call that changes no command. -/
theorem lifeCycle_calm {c : Surroundings} {o : AgentsOp} (ho : Calm o) (hs : s.Regular)
    (hG : Orderly requests i c o s) :
    (handle i c o s).2.Regular ∧ ∃ events, Change requests i events s (handle i c o s).2 :=
  hs.handle (oneHolder_of_calm ho hG) (change_calm ho hG)

theorem lifeCycle_readable : Readable (lifeCycle requests) (Orderly requests) where
  extends_of_moves := fun ⟨events, h⟩ => ⟨events, h.trace⟩
  reads _ hinv hG := lifeCycle_calm trivial hinv hG

theorem uses_ask (o : AgentsOp) (ho : Calm o) : (ask o).Uses Calm := Prog.Uses.perform ho

/-- A program of such calls. -/
theorem calm_upholds {α : Type} {p : AgentsM α} (hp : p.Uses Calm) (s : CommandStore) :
    (lifeCycle requests).Upholds handle (Orderly requests) i p (fun _ _ => True) s := by
  induction p generalizing s with
  | pure a => trivial
  | throw exc => trivial
  | call o k ih =>
    intro s' _ hinv c hG
    obtain ⟨hregular, hchange⟩ := lifeCycle_calm hp.1 hinv hG
    exact ⟨hregular, hchange, ih _ (hp.2 _) _⟩

/-- What a request holds, the others leave to it. -/
theorem CommandStore.Holds.rely {id : String} (h : (lifeCycle requests).Rely i s s')
    (hs : s.Holds i id) : s'.Holds i id := by
  refine h.keeps (F := fun s => s.Holds i id) (fun j s s' hne _ hmoves hs => ?_) hs
  have hext : Extends j s s' := lifeCycle_readable.extends_of_moves hmoves
  refine ⟨(hext.claims_iff hne.symm).2 hs.1, fun hmem => hs.2 ?_⟩
  exact (hext.mem_iff hne.symm).1 hmem

/-- A dispatched command that the request found. -/
def Loaded (i : ℕ) (loaded : AgentCommandRecord) (s : CommandStore) : Prop :=
  loaded ∈ s.commands ∧ s.Finds i loaded.id ∧ loaded.status = "DISPATCHED"

theorem Loaded.rely {loaded : AgentCommandRecord} (h : (lifeCycle requests).Rely i s s')
    (hs : Loaded i loaded s) : Loaded i loaded s' := by
  refine h.keeps (fun j s s' hne hinv hmoves hs => ?_) hs
  obtain ⟨hloaded, ⟨hfound, hrecorded, hfailed⟩, hstatus⟩ := hs
  have hext : Extends j s s' := lifeCycle_readable.extends_of_moves hmoves
  obtain ⟨events, hchange⟩ := hmoves
  refine ⟨?_, ⟨(hext.mem_iff hne.symm).2 hfound, fun hmem => hrecorded ?_, fun hmem => hfailed ?_⟩,
    hstatus⟩
  · rcases hchange.rows loaded hloaded with hsame | ⟨hqueued, -⟩ | ⟨-, hfinds, -⟩
    · exact hsame
    · exact absurd (hstatus.symm.trans hqueued) (by decide)
    · exact absurd (hinv.finder j i _ hfinds ⟨hfound, hrecorded, hfailed⟩) hne
  · exact (hext.mem_iff hne.symm).1 hmem
  · exact (hext.mem_iff hne.symm).1 hmem

/-- The loop marks what the request holds. -/
theorem markAll_lifeCycle {tenant : String} {results : List PolledCommand}
    {pending : List AgentCommandRecord} (hnodup : (pending.map (·.id)).Nodup)
    (hpending : ∀ cmd ∈ pending, s.Holds i cmd.id) :
    (lifeCycle requests).Upholds handle (Orderly requests) i (markAll tenant results pending)
      (fun _ _ => True) s := by
  induction pending generalizing results s with
  | nil => trivial
  | cons cmd pending ih =>
    obtain ⟨hfirst, hrest⟩ : cmd.id ∉ pending.map (·.id) ∧ (pending.map (·.id)).Nodup :=
      List.nodup_cons.1 hnodup
    refine .bind (R := fun r s' => ∀ u, r = .ok u → ∀ cmd ∈ pending, s'.Holds i cmd.id)
      (.perform fun s' hrely hinv c _ => ?_) (fun u s' h => ih hrest (h u rfl)) fun _ _ _ => trivial
    have hholds : ∀ cmd' ∈ cmd :: pending, s'.Holds i cmd'.id :=
      fun cmd' hmem => (hpending cmd' hmem).rely hrely
    have hhead : s'.Holds i cmd.id := hholds cmd (List.mem_cons_self ..)
    have hone : OneHolder i c (.markDispatched tenant cmd.id) s' := trivial
    obtain ⟨hregular, hchange⟩ := Regular.handle hinv hone (change_markDispatched requests hinv hhead)
    refine ⟨hregular, hchange, fun u hu cmd' hmem => ?_⟩
    rcases handle_cases i c (.markDispatched tenant cmd.id) s' with ⟨r, -, heq⟩ | ⟨exc, t, -, heq⟩
    · rw [heq]
      refine (hholds cmd' (List.mem_cons_of_mem _ hmem)).mark c.uuid tenant fun hid => hfirst ?_
      rw [← hid]
      exact List.mem_map_of_mem hmem
    · rw [heq] at hu
      cases hu

theorem nodup_pending (s : CommandStore) (tenant agentId : String) (limit : ℕ) :
    ((s.pending tenant agentId limit).map (·.id)).Nodup :=
  s.commands.unique.sublist (((List.take_sublist _ _).trans List.filter_sublist).map _)

theorem pollCommands_lifeCycle (agentId : String) (xTenantId : Option String) (h : Silent i s) :
    (lifeCycle requests).Upholds handle (Orderly requests) i
      (pollCommands environment agentId xTenantId) (fun _ _ => True) s := by
  refine .bind (lifeCycle_readable.agentOfRequest _ _ _ h) (fun agent s h => ?_)
    fun _ _ _ => trivial
  refine .bind (requireTenant_silent _ (h _ rfl)) (fun _ s h => ?_) fun _ _ _ => trivial
  refine .bind (R := fun r s' => ∀ pending, r = .ok pending →
      (pending.map (·.id)).Nodup ∧ ∀ cmd ∈ pending, s'.Holds i cmd.id)
    (.perform fun s' hrely hinv c hG => ?_)
    (fun pending s' hpending => markAll_lifeCycle (hpending _ rfl).1 (hpending _ rfl).2)
    fun _ _ _ => trivial
  have hcalm : Calm (.getPendingCommands agent.tenantId agent.id 10) := trivial
  obtain ⟨hregular, hchange⟩ := lifeCycle_calm hcalm hinv hG
  refine ⟨hregular, hchange, fun pending hr => ?_⟩
  rcases handle_cases i c (.getPendingCommands agent.tenantId agent.id 10) s' with
    ⟨r, hpending, heq⟩ | ⟨exc, t, -, heq⟩
  · rw [heq] at hr ⊢
    obtain rfl : r = pending := Except.ok.inj hr
    obtain rfl : s'.pending agent.tenantId agent.id 10 = r := Except.ok.inj hpending
    have hsilent : Silent i s' := lifeCycle_readable.silent_rely hrely (h _ rfl)
    have htrace : ∀ event, (i, event) ∈
        (effect c.uuid i (.getPendingCommands agent.tenantId agent.id 10) s').2.trace ↔
          event ∈ s'.events (.getPendingCommands agent.tenantId agent.id 10) :=
      fun event => hsilent.mem_trace_effect
    refine ⟨nodup_pending _ _ _ _, fun cmd hcmd => ⟨⟨?_, fun hfailed => ?_⟩, fun hmarked => ?_⟩⟩
    · exact (htrace _).2 (List.mem_map_of_mem hcmd)
    · exact failed_not_mem_events _ s' ((htrace _).1 hfailed)
    · have hevent := (htrace _).1 hmarked
      simp [events] at hevent
  · rw [heq] at hr
    cases hr

theorem recordCommandResult_lifeCycle {agentId commandId : String} {payload : CommandResultRequest}
    {xTenantId : Option String} (h : Silent i s)
    (hrequest : requests[i]? = some (.recordCommandResult agentId commandId payload xTenantId)) :
    (lifeCycle requests).Upholds handle (Orderly requests) i
      (recordCommandResult environment agentId commandId payload xTenantId) (fun _ _ => True) s := by
  refine .bind (lifeCycle_readable.agentOfRequest _ _ _ h) (fun agent s h => ?_)
    fun _ _ _ => trivial
  refine .bind (requireTenant_silent _ (h _ rfl)) (fun _ s h => ?_) fun _ _ _ => trivial
  refine .bind (R := fun r s' => ∀ cmd, r = .ok (some cmd) → Loaded i cmd s' ∧
      cmd.id = commandId ∧ agentId = cmd.agentId ∧ Terminal payload.status)
    (.perform fun s' hrely hinv c hG => ?_) (fun cmd? s' hcmd => ?_) fun _ _ _ => trivial
  · have hcalm : Calm (.getCommand agent.tenantId commandId) := trivial
    obtain ⟨hregular, hchange⟩ := lifeCycle_calm hcalm hinv hG
    refine ⟨hregular, hchange, fun cmd hr => ?_⟩
    rcases handle_cases i c (.getCommand agent.tenantId commandId) s' with
      ⟨r, hget, heq⟩ | ⟨exc, t, -, heq⟩
    · rw [heq] at hr ⊢
      obtain rfl : r = some cmd := Except.ok.inj hr
      have hfind : s'.command? agent.tenantId commandId = some cmd := Except.ok.inj hget
      have hsilent : Silent i s' := lifeCycle_readable.silent_rely hrely (h _ rfl)
      have htrace : ∀ event, (i, event) ∈
          (effect c.uuid i (.getCommand agent.tenantId commandId) s').2.trace ↔
            event ∈ s'.events (.getCommand agent.tenantId commandId) :=
        fun event => hsilent.mem_trace_effect
      have hp : addressed agent.tenantId commandId cmd = true := List.find?_some hfind
      obtain ⟨hstatus, -, hown⟩ := hG cmd hfind
      refine ⟨⟨List.mem_of_find?_eq_some hfind, ⟨?_, fun hrecorded => ?_, fun hfailed => ?_⟩, hstatus⟩,
        (of_decide_eq_true hp).1, hown _ _ _ _ hrequest⟩
      · refine (htrace _).2 ?_
        simp [events, hfind]
      · have hevent := (htrace _).1 hrecorded
        simp [events] at hevent
      · exact failed_not_mem_events _ s' ((htrace _).1 hfailed)
    · rw [heq] at hr
      cases hr
  · cases cmd? with
    | none => trivial
    | some cmd =>
      obtain ⟨hloaded, rfl, rfl, hterminal⟩ := hcmd cmd rfl
      refine .bind (R := fun _ _ => True) (.perform fun s'' hrely hinv c _ => ?_) (fun _ s _ => ?_)
        fun _ _ _ => trivial
      · obtain ⟨hmem, hfinds, hstatus⟩ := hloaded.rely hrely
        have hone : OneHolder i c (.writeResult cmd payload.status payload.result payload.error) s'' :=
          hterminal.1
        obtain ⟨hregular, hchange⟩ := Regular.handle hinv hone
          (change_writeResult hmem hfinds hstatus hrequest hterminal)
        exact ⟨hregular, hchange, trivial⟩
      · exact calm_upholds (.bind (uses_ask (.refresh cmd.id) trivial) fun _ => .ret _) s

theorem code_lifeCycle {request : AgentsRequest} (hrequest : requests[i]? = some request)
    (h : Silent i s) :
    (lifeCycle requests).Upholds handle (Orderly requests) i (request.code environment e)
      (fun _ _ => True) s := by
  have hcreate : ∀ cmd, (createCommand cmd).Uses Calm := fun cmd =>
    .bind (uses_ask (.createCommand cmd) trivial) fun _ => uses_ask (.refresh cmd.id) trivial
  cases request with
  | pollCommands agentId xTenantId => exact pollCommands_lifeCycle agentId xTenantId h
  | recordCommandResult agentId commandId payload xTenantId =>
    exact recordCommandResult_lifeCycle h hrequest
  | createCommand cmd => exact calm_upholds (.bind (hcreate cmd) fun _ => .ret _) s
  | dispatchCommand tenant agentId req =>
    refine calm_upholds (.bind ?_ fun _ =>
      .bind (uses_ask (.getAgentOf tenant agentId) trivial) fun agent? => ?_) s
    · unfold requireTenant
      split_ifs
      · exact .raise _
      · exact .ret _
    · cases agent? with
      | none => exact .raise _
      | some agent =>
        exact .bind (uses_ask .uuid trivial) fun _ => .bind (hcreate _) fun _ => .ret _

end Requests

/-! ## Runs -/

section Runs

open CommandStore

/-- Results are recorded at most once, and every call that the guard allows moves commands from
queued to dispatched to a result of their own agent. -/
def KeepsLifeCycle (G : ℕ → Surroundings → AgentsOp → CommandStore → Prop)
    (requests : List AgentsRequest) (p : AgentsCrew) : Prop :=
  (∀ id, p.state.recordings id ≤ 1) ∧
    ∀ p', Crew.Step handle G p p' → ∃ i, p.state.Lawful requests i p'.state

theorem regular_of_trace_nil {s : CommandStore} (h : s.trace = []) : s.Regular where
  fair := fair_of_trace_nil h
  held i id hi := by simp [Holds, Claims, h] at hi
  finder i j id hi := by simp [Finds, h] at hi
  found i id hi := by simp [Finds, h] at hi
  ended i id hi := by simp [h] at hi
  once id := by simp [recordings, h]

/-- **Commands keep their life cycle** in every run of orderly requests. -/
theorem life_cycle (environment : String) (e : Ed25519) (agents : List AgentRecord)
    (commands : Table AgentCommandRecord String AgentCommandRecord.id)
    (requests : List AgentsRequest) (p : AgentsCrew)
    (hrun : Crew.Runs handle (Orderly requests)
      (incoming environment e ⟨agents, commands, []⟩ requests) p) :
    KeepsLifeCycle (Orderly requests) requests p := by
  have hstart : ∀ i q, (incoming environment e ⟨agents, commands, []⟩ requests).progs[i]? = some q →
      (lifeCycle requests).Upholds handle (Orderly requests) i q (fun _ _ => True)
        ⟨agents, commands, []⟩ := by
    intro i q hq
    obtain ⟨request, hrequest, rfl⟩ := by simpa [incoming] using hq
    exact code_lifeCycle hrequest (by simp [Silent])
  obtain ⟨hregular, hknown⟩ := Crew.Contract.run (C := lifeCycle requests)
    (fun _ _ _ _ _ _ => trivial) (regular_of_trace_nil rfl) hstart hrun
  refine ⟨hregular.once, fun p' hstep => ?_⟩
  cases hstep with
  | @call i c o k hp hG =>
    obtain ⟨-, ⟨events, hchange⟩, -⟩ := hknown i _ hp p.state .refl hregular c hG
    exact ⟨i, hchange.lawful⟩

/-- The agent polls and posts results for the command. -/
def pollAndPost (statuses : List String) : List AgentsRequest :=
  .pollCommands "agent-1" (some "acme") ::
    statuses.map fun status => .recordCommandResult "agent-1" "cmd-1" { status } (some "acme")

/-- A poll and a result. -/
theorem life_cycle_completed : ∃ p : AgentsCrew,
    Crew.Runs handle (Orderly (pollAndPost ["COMPLETED"])) (acmeRequests (pollAndPost ["COMPLETED"]))
      p ∧
      p.state.commands.rows.map (·.status) = ["COMPLETED"] ∧
      KeepsLifeCycle (Orderly (pollAndPost ["COMPLETED"])) (pollAndPost ["COMPLETED"]) p := by
  have hrun : Crew.Runs handle (Orderly (pollAndPost ["COMPLETED"]))
      (acmeRequests (pollAndPost ["COMPLETED"]))
      (Crew.play handle (acmeRequests (pollAndPost ["COMPLETED"])) (smoothly [0, 0, 0, 1, 1, 1, 1])) := by
    refine Crew.runs_play _ ⟨?_, ?_, ?_, ?_, ?_, ?_, ?_, trivial⟩
    · rintro o k ⟨⟩
      trivial
    · rintro o k ⟨⟩ cmd - j - ⟨⟨hselected, -⟩, -⟩
      cases hselected
    · rintro o k ⟨⟩
      trivial
    · rintro o k ⟨⟩
      trivial
    · rintro o k ⟨⟩ cmd hcmd
      cases hcmd
      refine ⟨rfl, fun j _ hfinds => ?_, ?_⟩
      · have hmem : (j, CommandEvent.found "cmd-1") ∈
          [(0, CommandEvent.selected "cmd-1"), (0, .dispatched "cmd-1")] := hfinds.1
        simp at hmem
      · rintro agentId commandId payload xTenantId ⟨⟩
        exact ⟨rfl, by decide⟩
    · rintro o k ⟨⟩
      trivial
    · rintro o k ⟨⟩
      trivial
  exact ⟨_, hrun, rfl, life_cycle _ _ _ _ _ _ hrun⟩

/-- A second result replaces the first. -/
theorem not_life_cycle_secondResult :
    ¬ ∀ environment e agents commands requests (p : AgentsCrew),
      Crew.Runs handle (fun _ _ _ _ => True) (incoming environment e ⟨agents, commands, []⟩ requests)
        p → KeepsLifeCycle (fun _ _ _ _ => True) requests p := by
  intro hall
  have hrun : Crew.Runs handle (fun _ _ _ _ => True)
      (acmeRequests (pollAndPost ["COMPLETED", "FAILED"]))
      (Crew.play handle (acmeRequests (pollAndPost ["COMPLETED", "FAILED"]))
        (smoothly [0, 0, 0, 1, 1, 1, 1, 2, 2, 2, 2])) :=
    Crew.runs_play _ (by simp [smoothly, Crew.Allows])
  have honce := (hall _ _ _ _ _ _ hrun).1 "cmd-1"
  exact absurd honce (by decide +kernel)

end Runs

end FlowMesh
