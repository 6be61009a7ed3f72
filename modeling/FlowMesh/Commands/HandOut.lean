import FlowMesh.Api.Agents

/-!
# Handing out commands

`poll_commands` selects the queued commands of an agent and marks them one by one before it
hands them out. Between the selection and the marks another poll can select the same commands,
and both hand them out. So a command is handed out at most once in every run in which no poll
selects a command that another poll has selected and not yet marked (`handed_out_once`); a result
that is posted with the status `QUEUED` puts a command back into the queue and is excluded too.

The invariant is about claims: a request claims the commands it selected until it fails. No
command is claimed by two requests, and a command that was marked is not queued.
-/

namespace FlowMesh

open Python Database Async

namespace CommandStore

/-- The request selected the command and has not failed. -/
def Claims (s : CommandStore) (i : ℕ) (id : String) : Prop :=
  (i, CommandEvent.selected id) ∈ s.trace ∧ (i, CommandEvent.failed) ∉ s.trace

/-- The request claims the command and has not marked it. -/
def Holds (s : CommandStore) (i : ℕ) (id : String) : Prop :=
  s.Claims i id ∧ (i, CommandEvent.dispatched id) ∉ s.trace

/-- No poll selects a command that another one holds, and no result is posted with the status
`QUEUED`. -/
def OneHolder (i : ℕ) (_ : Surroundings) : AgentsOp → CommandStore → Prop
  | .getPendingCommands tenant agentId limit, s =>
    ∀ cmd ∈ s.pending tenant agentId limit, ∀ j, j ≠ i → ¬ s.Holds j cmd.id
  | .writeResult _ status _ _, _ => status ≠ "QUEUED"
  | _, _ => True

/-- Claims are exclusive, and what was marked is not queued. -/
structure Fair (s : CommandStore) : Prop where
  exclusive : ∀ i j id, s.Claims i id → s.Claims j id → i = j
  marked : ∀ i id, (i, CommandEvent.dispatched id) ∈ s.trace →
    ∃ cmd ∈ s.commands, cmd.id = id ∧ cmd.status ≠ "QUEUED"

variable {i j : ℕ} {c : Surroundings} {o : AgentsOp} {s s' : CommandStore} {id : String}

/-! ## One call -/

/-- Another request's events do not touch a claim. -/
theorem Extends.claims_iff (h : Extends i s s') (hne : j ≠ i) : s'.Claims j id ↔ s.Claims j id := by
  rw [Claims, Claims, h.mem_iff hne, h.mem_iff hne]

theorem Claims.log {events : List CommandEvent} (h : s.Claims j id)
    (hevents : CommandEvent.failed ∉ events) : (s.log i events).Claims j id := by
  refine ⟨mem_trace_log.2 (Or.inl h.1), fun hmem => ?_⟩
  rcases mem_trace_log.1 hmem with hmem | ⟨-, hmem⟩
  · exact h.2 hmem
  · exact hevents hmem

/-- A statement adds no failure. -/
theorem Claims.effect {uuid : String} (h : s.Claims j id) :
    (effect uuid i o s).2.Claims j id := by
  refine ⟨mem_trace_effect.2 (Or.inl h.1), fun hmem => ?_⟩
  rcases mem_trace_effect.1 hmem with hmem | ⟨-, hmem⟩
  · exact h.2 hmem
  · exact failed_not_mem_events o s hmem

/-- A claim after a statement was there before, or is new with the statement. -/
theorem claims_effect {uuid : String} (h : (effect uuid i o s).2.Claims j id) :
    s.Claims j id ∨ j = i ∧ CommandEvent.selected id ∈ s.events o := by
  have hfailed : (j, CommandEvent.failed) ∉ s.trace := fun hmem =>
    h.2 (mem_trace_effect.2 (Or.inl hmem))
  rcases mem_trace_effect.1 h.1 with hmem | hnew
  · exact Or.inl ⟨hmem, hfailed⟩
  · exact Or.inr hnew

/-- What is not queued stays so. -/
def KeepsUnqueued (s s' : CommandStore) : Prop :=
  ∀ cmd ∈ s.commands, cmd.status ≠ "QUEUED" →
    ∃ cmd' ∈ s'.commands, cmd'.id = cmd.id ∧ cmd'.status ≠ "QUEUED"

theorem keepsUnqueued_effect {uuid : String} (hG : OneHolder i c o s) :
    s.KeepsUnqueued (effect uuid i o s).2 := by
  have hsame : ∀ {t : CommandStore}, t.commands = s.commands → s.KeepsUnqueued t := by
    intro t ht cmd hcmd hq
    exact ⟨cmd, by rwa [ht], rfl, hq⟩
  cases o with
  | createCommand cmd =>
    intro old hold hq
    simp only [CommandStore.effect]
    rcases Table.insert?_cases s.commands cmd.queued with ⟨h, -⟩ | ⟨t, h, -, hmem⟩
    · rw [h]
      exact ⟨old, hold, rfl, hq⟩
    · rw [h]
      exact ⟨old, (hmem old).2 (Or.inl hold), rfl, hq⟩
  | markDispatched tenant commandId =>
    intro cmd hcmd hq
    refine ⟨_, mem_markDispatched.2 ⟨cmd, hcmd, rfl⟩, ?_⟩
    split_ifs
    · exact ⟨rfl, by simp [AgentCommandRecord.markedDispatched]⟩
    · exact ⟨rfl, hq⟩
  | writeResult loaded status result error =>
    intro cmd hcmd hq
    refine ⟨_, mem_writeResult.2 ⟨cmd, hcmd, rfl⟩, ?_⟩
    split_ifs
    · refine ⟨rfl, ?_⟩
      simp only [AgentCommandRecord.written]
      split_ifs
      · exact hq
      · exact hG
    · exact ⟨rfl, hq⟩
  | refresh commandId =>
    simp only [CommandStore.effect]
    cases s.commands.get? commandId <;> exact hsame rfl
  | _ => exact hsame rfl

/-- What a statement marks is not queued. -/
theorem marked_effect {uuid : String} (h : CommandEvent.dispatched id ∈ s.events o) :
    ∃ cmd ∈ (effect uuid i o s).2.commands, cmd.id = id ∧ cmd.status ≠ "QUEUED" := by
  cases o with
  | markDispatched tenant commandId =>
    obtain ⟨cmd, hcmd, hid⟩ := List.mem_map.1 h
    obtain ⟨hmem, hp⟩ := List.mem_filter.1 hcmd
    refine ⟨cmd.markedDispatched, mem_markDispatched.2 ⟨cmd, hmem, (if_pos hp).symm⟩,
      CommandEvent.dispatched.inj hid, ?_⟩
    simp [AgentCommandRecord.markedDispatched]
  | _ => simp [events] at h

/-- A command that is selected is claimed by nobody else. -/
theorem Fair.not_claims (h : s.Fair) (hG : OneHolder i c o s)
    (hsel : CommandEvent.selected id ∈ s.events o) (hj : s.Claims j id) : j = i := by
  cases o with
  | getPendingCommands tenant agentId limit =>
    obtain ⟨cmd, hcmd, hid⟩ := List.mem_map.1 hsel
    obtain rfl := CommandEvent.selected.inj hid
    obtain ⟨hmem, hstatus⟩ := mem_pending hcmd
    by_contra hne
    refine hG cmd hcmd j hne ⟨hj, fun hmarked => ?_⟩
    obtain ⟨cmd', hmem', hid', hq⟩ := h.marked j cmd.id hmarked
    obtain rfl := Table.eq_of_key_eq hmem' hmem hid'
    exact hq hstatus
  | _ => simp [events] at hsel

theorem Fair.effect {uuid : String} (h : s.Fair) (hG : OneHolder i c o s) :
    (effect uuid i o s).2.Fair where
  exclusive := by
    intro j k id hj hk
    rcases claims_effect hj with hj | ⟨hji, hj⟩
    · rcases claims_effect hk with hk | ⟨hki, hk⟩
      · exact h.exclusive j k id hj hk
      · exact (h.not_claims hG hk hj).trans hki.symm
    · rcases claims_effect hk with hk | ⟨hki, -⟩
      · exact hji.trans (h.not_claims hG hj hk).symm
      · exact hji.trans hki.symm
  marked := by
    intro j id hj
    rcases mem_trace_effect.1 hj with hj | ⟨-, hj⟩
    · obtain ⟨cmd, hcmd, rfl, hq⟩ := h.marked j id hj
      exact keepsUnqueued_effect hG cmd hcmd hq
    · exact marked_effect hj

theorem Fair.failed (h : s.Fair) : (s.log i [.failed]).Fair where
  exclusive := by
    have hback : ∀ {j id}, (s.log i [.failed]).Claims j id → s.Claims j id := by
      rintro j id ⟨hsel, hfailed⟩
      refine ⟨(mem_trace_log.1 hsel).resolve_right (by simp), fun hmem => hfailed ?_⟩
      exact mem_trace_log.2 (Or.inl hmem)
    intro j k id hj hk
    exact h.exclusive j k id (hback hj) (hback hk)
  marked := by
    intro j id hj
    exact h.marked j id ((mem_trace_log.1 hj).resolve_right (by simp))

/-- Nobody has done anything yet. -/
theorem fair_of_trace_nil (h : s.trace = []) : s.Fair where
  exclusive := by
    rintro j k id ⟨hj, -⟩
    simp [h] at hj
  marked := by
    intro j id hj
    simp [h] at hj

end CommandStore

/-! ## Requests that go on -/

section Silent

open CommandStore Crew

variable {environment : String} {i : ℕ} {s s' : CommandStore} {C : Contract CommandStore}
  {G : ℕ → Surroundings → AgentsOp → CommandStore → Prop}

/-- The request has done nothing yet. -/
def Silent (i : ℕ) (s : CommandStore) : Prop := ∀ event, (i, event) ∉ s.trace

/-- A request that goes on has done nothing yet. -/
def SilentAnswer {α : Type} (i : ℕ) (r : Except PyError α) (s : CommandStore) : Prop :=
  ∀ a, r = .ok a → Silent i s

/-- After its first statement, a request has done only that. -/
theorem Silent.mem_trace_effect {uuid : String} {o : AgentsOp} {event : CommandEvent}
    (h : Silent i s) : (i, event) ∈ (effect uuid i o s).2.trace ↔ event ∈ s.events o := by
  rw [CommandStore.mem_trace_effect]
  simp [h event]

/-- A contract under which the requests tell their events apart and may look up an agent. -/
structure Readable (C : Contract CommandStore)
    (G : ℕ → Surroundings → AgentsOp → CommandStore → Prop) : Prop where
  extends_of_moves : ∀ {i s s'}, C.moves i s s' → Extends i s s'
  reads : ∀ {i c s} (agentId : String), C.inv s → G i c (.getAgent agentId) s →
    C.inv (handle i c (.getAgent agentId) s).2 ∧ C.moves i s (handle i c (.getAgent agentId) s).2

theorem Readable.silent_rely (hC : Readable C G) (h : C.Rely i s s') (hs : Silent i s) :
    Silent i s' := by
  refine h.keeps (fun j s s' hne _ hmoves hs event hmem => ?_) hs
  exact hs event (((hC.extends_of_moves hmoves).mem_iff hne.symm).1 hmem)

/-- The checks in front of a request leave no event. -/
theorem Readable.agentOfRequest (hC : Readable C G) (agentId : String) (xTenantId : Option String)
    (purpose : String) (h : Silent i s) :
    C.Upholds handle G i (agentOfRequest environment agentId xTenantId purpose) (SilentAnswer i)
      s := by
  have hask : C.Upholds handle G i (ask (.getAgent agentId)) (SilentAnswer i) s := by
    refine .perform fun s' hrely hinv c hG => ?_
    obtain ⟨hinv', hmoves⟩ := hC.reads agentId hinv hG
    refine ⟨hinv', hmoves, fun agent? hr => ?_⟩
    rcases handle_cases i c (.getAgent agentId) s' with ⟨r, -, heq⟩ | ⟨exc, t, -, heq⟩
    · rw [heq]
      intro event hmem
      have hevent := (hC.silent_rely hrely h).mem_trace_effect.1 hmem
      cases hevent
    · rw [heq] at hr
      cases hr
  unfold FlowMesh.agentOfRequest
  split_ifs
  · exact .raise nofun
  · refine .bind hask (fun agent? s' h' => ?_) fun _ _ _ => nofun
    cases agent? with
    | none => exact .raise nofun
    | some agent =>
      dsimp only
      split_ifs
      · exact .raise nofun
      · exact .ret fun _ _ => h' _ rfl

theorem requireTenant_silent (tenant : String) (h : Silent i s) :
    C.Upholds handle G i (requireTenant tenant) (SilentAnswer i) s := by
  unfold requireTenant
  split_ifs
  · exact .raise nofun
  · exact .ret fun _ _ => h

end Silent

/-! ## Requests -/

section Requests

open CommandStore

variable {environment : String} {e : Ed25519} {i : ℕ} {s s' : CommandStore}

/-- Claims are exclusive, and a request adds events of its own only. -/
def handOut : Crew.Contract CommandStore := ⟨Fair, Extends⟩

/-- A response contains a command. -/
def Includes (results : List PolledCommand) (id : String) : Prop :=
  ∃ polled ∈ results, Json.lookup "id" polled.command = some (.str id)

/-- A poll answers with commands that it claims. -/
def ClaimsAnswer (i : ℕ) (r : Except PyError AgentsResponse) (s : CommandStore) : Prop :=
  ∀ results, r = .ok (.polled results) → ∀ id, Includes results id → s.Claims i id

theorem CommandStore.Claims.rely {id : String} (h : handOut.Rely i s s') (hs : s.Claims i id) :
    s'.Claims i id :=
  h.keeps (fun _ _ _ hne _ hmoves hs => (Extends.claims_iff hmoves hne.symm).2 hs) hs

/-- Every call keeps the contract. -/
theorem handOut_call {c : Surroundings} {o : AgentsOp} (h : s.Fair) (hG : OneHolder i c o s) :
    (handle i c o s).2.Fair ∧ Extends i s (handle i c o s).2 :=
  ⟨handle_keeps h (h.effect hG) fun _ ht => ht.failed, extends_handle i c o s⟩

/-- One call, and what is known when it answers. -/
theorem handOut_ask {o : AgentsOp} {Q : Except PyError o.Res → CommandStore → Prop}
    (hok : ∀ s' uuid r, handOut.Rely i s s' → (effect uuid i o s').1 = .ok r →
      Q (.ok r) (effect uuid i o s').2) (herr : ∀ exc s', Q (.error exc) s') :
    handOut.Upholds handle OneHolder i (ask o) Q s := by
  refine .perform fun s' hrely hinv c hG => ?_
  obtain ⟨hfair, hmoves⟩ := handOut_call hinv hG
  refine ⟨hfair, hmoves, ?_⟩
  rcases handle_cases i c o s' with ⟨r, hr, h⟩ | ⟨exc, t, -, h⟩
  · rw [h]
    exact hok s' c.uuid r hrely hr
  · rw [h]
    exact herr exc _

/-- Every program keeps the contract. -/
theorem handOut_upholds {α : Type} (p : AgentsM α) (s : CommandStore) :
    handOut.Upholds handle OneHolder i p (fun _ _ => True) s := by
  induction p generalizing s with
  | pure a => trivial
  | throw exc => trivial
  | call o k ih =>
    intro s' _ hinv c hG
    obtain ⟨hfair, hmoves⟩ := handOut_call hinv hG
    exact ⟨hfair, hmoves, ih _ _⟩

/-- A program that keeps the contract and answers otherwise than with commands. -/
theorem handOut_bind {α : Type} {p : AgentsM α} {f : α → AgentsM AgentsResponse}
    (hf : ∀ a s, handOut.Upholds handle OneHolder i (f a) (ClaimsAnswer i) s) :
    handOut.Upholds handle OneHolder i (p >>= f) (ClaimsAnswer i) s :=
  .bind (handOut_upholds p s) (fun a s _ => hf a s) fun _ _ _ => nofun

theorem includes_append {results : List PolledCommand} {cmd : AgentCommandRecord} {id : String}
    (h : Includes (results ++ [⟨cmd.polled, cmd.signature⟩]) id) :
    Includes results id ∨ id = cmd.id := by
  obtain ⟨polled, hmem, hid⟩ := h
  rcases List.mem_append.1 hmem with hmem | hmem
  · exact Or.inl ⟨polled, hmem, hid⟩
  · obtain rfl := List.mem_singleton.1 hmem
    have hlookup : Json.lookup "id" cmd.polled = some (.str cmd.id) := rfl
    exact Or.inr (Json.str.inj (Option.some.inj (hid.symm.trans hlookup)))

/-- The loop hands out what it claims. -/
theorem markAll_upholds {tenant : String} {results : List PolledCommand}
    {pending : List AgentCommandRecord} (hresults : ∀ id, Includes results id → s.Claims i id)
    (hpending : ∀ cmd ∈ pending, s.Claims i cmd.id) :
    handOut.Upholds handle OneHolder i (markAll tenant results pending) (ClaimsAnswer i) s := by
  induction pending generalizing results s with
  | nil =>
    intro results' h id hid
    cases h
    exact hresults id hid
  | cons cmd pending ih =>
    refine .bind (R := fun r s' => ∀ u, r = .ok u →
      ∀ id, s.Claims i id → s'.Claims i id) (handOut_ask ?_ nofun) ?_ fun _ _ _ => nofun
    · intro s' uuid r hrely _ u _ id hid
      exact (hid.rely hrely).effect
    · intro u s' hkeep
      refine ih (fun id hid => hkeep u rfl id ?_) fun cmd' hmem => hkeep u rfl _ (hpending cmd' ?_)
      · rcases includes_append hid with hid | rfl
        · exact hresults id hid
        · exact hpending cmd (List.mem_cons_self ..)
      · exact List.mem_cons_of_mem _ hmem

/-- Looking up an agent keeps the contract. -/
theorem handOut_readable : Readable handOut OneHolder where
  extends_of_moves h := h
  reads _ hinv hG := handOut_call hinv hG

theorem pollCommands_upholds (agentId : String) (xTenantId : Option String) (h : Silent i s) :
    handOut.Upholds handle OneHolder i (pollCommands environment agentId xTenantId)
      (ClaimsAnswer i) s := by
  refine .bind (handOut_readable.agentOfRequest _ _ _ h) (fun agent s h => ?_) fun _ _ _ => nofun
  refine .bind (requireTenant_silent _ (h _ rfl)) (fun _ s h => ?_) fun _ _ _ => nofun
  refine .bind (R := fun r s' => ∀ pending, r = .ok pending → ∀ cmd ∈ pending, s'.Claims i cmd.id)
    (handOut_ask ?_ nofun) ?_ fun _ _ _ => nofun
  · intro s' uuid r hrely hr pending hpending cmd hcmd
    obtain rfl : r = pending := Except.ok.inj hpending
    obtain rfl : s'.pending agent.tenantId agent.id 10 = r := Except.ok.inj hr
    have hsilent : Silent i s' := handOut_readable.silent_rely hrely (h _ rfl)
    refine ⟨hsilent.mem_trace_effect.2 (List.mem_map_of_mem hcmd), fun hfailed => ?_⟩
    exact failed_not_mem_events _ s' (hsilent.mem_trace_effect.1 hfailed)
  · intro pending s' hpending
    refine markAll_upholds (fun id hid => ?_) (hpending pending rfl)
    obtain ⟨polled, hmem, -⟩ := hid
    cases hmem

/-- The other requests answer with something else. -/
theorem code_upholds (request : AgentsRequest) (h : Silent i s) :
    handOut.Upholds handle OneHolder i (request.code environment e) (ClaimsAnswer i) s := by
  cases request with
  | pollCommands agentId xTenantId => exact pollCommands_upholds agentId xTenantId h
  | createCommand cmd => exact handOut_bind fun _ s => .ret nofun
  | dispatchCommand tenant agentId req =>
    refine handOut_bind fun _ s => handOut_bind fun agent? s => ?_
    cases agent? with
    | none => exact .raise nofun
    | some agent => exact handOut_bind fun _ s => handOut_bind fun _ s => .ret nofun
  | recordCommandResult agentId commandId payload xTenantId =>
    refine handOut_bind fun agent s => handOut_bind fun _ s => handOut_bind fun cmd? s => ?_
    cases cmd? with
    | none => exact .raise nofun
    | some cmd => exact handOut_bind fun _ s => handOut_bind fun _ s => .ret nofun

end Requests

/-! ## Runs -/

section Runs

open CommandStore

/-- No command is in the responses of two polls. -/
def HandedOutOnce (p : AgentsCrew) : Prop :=
  ∀ (i j : ℕ) results results' id, i ≠ j → p.progs[i]? = some (Prog.pure (.polled results)) →
    p.progs[j]? = some (Prog.pure (.polled results')) → Includes results id →
    ¬ Includes results' id

/-- **Commands are handed out at most once** in every run in which no poll selects a command that
another one has selected and not yet marked, and no result is posted with the status `QUEUED`. -/
theorem handed_out_once (environment : String) (e : Ed25519) (agents : List AgentRecord)
    (commands : Table AgentCommandRecord String AgentCommandRecord.id)
    (requests : List AgentsRequest) (p : AgentsCrew)
    (hrun : Crew.Runs handle OneHolder (incoming environment e ⟨agents, commands, []⟩ requests) p) :
    HandedOutOnce p := by
  have hstable : ∀ i r s s', handOut.Rely i s s' → ClaimsAnswer i r s → ClaimsAnswer i r s' :=
    fun i r s s' hrely h results hr id hid => (h results hr id hid).rely hrely
  have hstart : ∀ i q, (incoming environment e ⟨agents, commands, []⟩ requests).progs[i]? = some q →
      handOut.Upholds handle OneHolder i q (ClaimsAnswer i) ⟨agents, commands, []⟩ := by
    intro i q hq
    obtain ⟨request, -, rfl⟩ := by simpa [incoming] using hq
    exact code_upholds request (by simp [Silent])
  obtain ⟨hfair, hknown⟩ := Crew.Contract.run hstable (fair_of_trace_nil rfl) hstart hrun
  intro i j results results' id hne hi hj hid hid'
  have hclaim : p.state.Claims i id := hknown i _ hi results rfl id hid
  have hclaim' : p.state.Claims j id := hknown j _ hj results' rfl id hid'
  exact hne (hfair.exclusive i j id hclaim hclaim')

/-- A queued command. -/
def queuedQuery : AgentCommandRecord :=
  DispatchCommandRequest.command .transparent "acme" "agent-1" "cmd-1"
    ⟨"postgres", "orders-db", "query", some "orders", some 50, []⟩

/-- A tenant with one agent and one queued command, and requests to them. -/
def acmeRequests (requests : List AgentsRequest) : AgentsCrew :=
  incoming "production" .transparent ⟨[⟨"agent-1", "acme"⟩], ⟨[queuedQuery], by simp⟩, []⟩ requests

/-- The agent polls twice. -/
def twoPolls : List AgentsRequest := [some "acme", some "acme"].map (.pollCommands "agent-1")

/-- The requests in the order of a schedule, and a database that does not fail. -/
def smoothly (schedule : List ℕ) : List (ℕ × Surroundings) :=
  schedule.map fun i => (i, { uuid := "" })

/-- Two polls, one after the other. -/
theorem handed_out_once_oneByOne : ∃ p : AgentsCrew,
    Crew.Runs handle OneHolder (acmeRequests twoPolls) p ∧
      (∃ results, p.progs[0]? = some (Prog.pure (.polled results)) ∧ Includes results "cmd-1") ∧
      p.progs[1]? = some (Prog.pure (.polled [])) ∧ HandedOutOnce p := by
  have hrun : Crew.Runs handle OneHolder (acmeRequests twoPolls)
      (Crew.play handle (acmeRequests twoPolls) (smoothly [0, 0, 0, 1, 1])) := by
    refine Crew.runs_play _ ⟨?_, ?_, ?_, ?_, ?_, trivial⟩
    · rintro o k ⟨⟩
      trivial
    · rintro o k ⟨⟩ cmd - j - ⟨⟨hselected, -⟩, -⟩
      cases hselected
    · rintro o k ⟨⟩
      trivial
    · rintro o k ⟨⟩
      trivial
    · rintro o k ⟨⟩ cmd hcmd
      cases hcmd
  exact ⟨_, hrun, ⟨_, rfl, _, List.mem_singleton_self _, rfl⟩, rfl,
    handed_out_once _ _ _ _ _ _ hrun⟩

/-- Two polls in lockstep hand out the same command. -/
theorem not_handed_out_once_lockstep :
    ¬ ∀ environment e agents commands agentId (polls : List (Option String)) (p : AgentsCrew),
      Crew.Runs handle (fun _ _ _ _ => True) (incoming environment e ⟨agents, commands, []⟩
        (polls.map (.pollCommands agentId))) p → HandedOutOnce p := by
  intro hall
  have hrun : Crew.Runs handle (fun _ _ _ _ => True) (acmeRequests twoPolls)
      (Crew.play handle (acmeRequests twoPolls) (smoothly [0, 1, 0, 1, 0, 1])) :=
    Crew.runs_play _ (by simp [smoothly, Crew.Allows])
  exact hall _ _ _ _ _ _ _ hrun 0 1 _ _ "cmd-1" (by decide) rfl rfl
    ⟨_, List.mem_singleton_self _, rfl⟩ ⟨_, List.mem_singleton_self _, rfl⟩

end Runs

end FlowMesh
