import FlowMesh.Agent.Process
import FlowMesh.Commands.HandOut

/-!
# The agent's loop

`PollAndExecute` of the agent, `ReportResult`, and the control plane that they talk to. The agent
waits for one poll at a time, but a poll that it has given up goes on at the control plane; results
reach it any number of times or never; other requests come in between, and the daemon is restarted
at any point.

`executed_at_most_once`: no command is executed twice, whatever polls overlap, and what is executed
is a command of the agent as it was created. `recorded_was_executed`: if only the agent reports
results, then what is recorded of a command is the outcome of its one execution.
-/

namespace FlowMesh

open Python Database Async

/-! ## The agent and its control plane -/

/-- `json.NewDecoder(resp.Body).Decode(&commands)`. -/
def decodeCommands (fs : Go.Floats) : List PolledCommand → Option (List SignedCommandEnvelope)
  | [] => some []
  | polled :: results => do
    let command ← Policy.Command.decode fs polled.command
    let commands ← decodeCommands fs results
    return ⟨command, polled.signature⟩ :: commands

/-- A command that was executed, with its result and what was done to the outside world. -/
structure Execution where
  envelope : SignedCommandEnvelope
  result : ExecutionResult
  effects : List Effect

/-- Where the agent is in `PollAndExecute`. -/
inductive AgentPhase
  | idle
  /-- Waiting for the response of a request. -/
  | polling (i : ℕ)
  /-- In the loop over the commands of a response. -/
  | executing (commands : List SignedCommandEnvelope)

/-- The requests at the control plane, and the agent. -/
structure EdgeSystem where
  requests : AgentsCrew
  phase : AgentPhase := .idle
  executed : List Execution := []

/-- What happens next. -/
inductive EdgeEvent
  /-- Somebody else's request comes in. -/
  | arrive (request : AgentsRequest)
  /-- A request makes its next call. -/
  | serve (i : ℕ) (c : Surroundings)
  /-- A tick of the poll timer. -/
  | poll
  /-- The poll fails for the agent: no response, another status, a body that is cut off. -/
  | giveUp
  | receive
  /-- The next command of the response. -/
  | execute (out : Outside)
  /-- A result reaches the control plane, from `ReportResult` or from the buffer. -/
  | report (k : ℕ) (result : Option (List (String × Json))) (error xTenantId : Option String)
  /-- The daemon is restarted. -/
  | restart

/-- The configuration of the agent and of the control plane. -/
structure EdgeSite where
  environment : String
  ed25519 : Ed25519
  floats : Go.Floats
  crypto : Crypto
  cfg : AgentConfig
  rules : Policy.Engine

/-- The header `X-Tenant-ID` of the agent's requests. -/
def AgentConfig.xTenantId (cfg : AgentConfig) : Option String :=
  if cfg.tenantId ≠ "" then some cfg.tenantId else none

/-- A request comes in. -/
def EdgeSystem.arrive (s : EdgeSystem) (code : AgentsM AgentsResponse) : EdgeSystem :=
  { s with requests := s.requests.arrive code }

namespace EdgeSite

variable (d : EdgeSite)

/-- `a.ProcessCommand(envelope)`. -/
def process (out : Outside) (envelope : SignedCommandEnvelope) : Execution :=
  let (result, effects) := processCommand out d.crypto d.cfg d.rules envelope
  ⟨envelope, result, effects⟩

/-- The agent's request for commands. -/
def pollRequest : AgentsRequest := .pollCommands d.cfg.id d.cfg.xTenantId

/-- The request that reports a result. -/
def reportRequest (x : Execution) (result : Option (List (String × Json)))
    (error xTenantId : Option String) : AgentsRequest :=
  .recordCommandResult d.cfg.id x.result.commandId ⟨x.result.status, result, error⟩ xTenantId

/-- What an event does. -/
def step (s : EdgeSystem) : EdgeEvent → EdgeSystem
  | .arrive request => s.arrive (request.code d.environment d.ed25519)
  | .serve i c => { s with requests := s.requests.turn CommandStore.handle i c }
  | .poll =>
    match s.phase with
    | .idle =>
      { s.arrive (d.pollRequest.code d.environment d.ed25519) with
        phase := .polling s.requests.progs.length }
    | _ => s
  | .giveUp =>
    match s.phase with
    | .polling _ => { s with phase := .idle }
    | _ => s
  | .receive =>
    match s.phase with
    | .polling i =>
      match s.requests.progs[i]? with
      | some (.pure (.polled results)) =>
        match decodeCommands d.floats results with
        | none => { s with phase := .idle }
        | some commands => { s with phase := .executing commands }
      | _ => s
    | _ => s
  | .execute out =>
    match s.phase with
    | .executing [] => { s with phase := .idle }
    | .executing (envelope :: commands) =>
      { s with phase := .executing commands, executed := s.executed ++ [d.process out envelope] }
    | _ => s
  | .report k result error xTenantId =>
    match s.executed[k]? with
    | none => s
    | some x =>
      s.arrive ((d.reportRequest x result error xTenantId).code d.environment d.ed25519)
  | .restart => { s with phase := .idle }

/-- What a run of events does. -/
def run (s : EdgeSystem) (events : List EdgeEvent) : EdgeSystem := events.foldl d.step s

end EdgeSite

/-! ## What the control plane keeps of a command -/

/-- The same command later: it is not back in the queue. -/
structure AgentCommandRecord.Continues (cmd cmd' : AgentCommandRecord) : Prop where
  id : cmd'.id = cmd.id
  tenantId : cmd'.tenantId = cmd.tenantId
  agentId : cmd'.agentId = cmd.agentId
  polled : cmd'.polled = cmd.polled
  signature : cmd'.signature = cmd.signature
  unqueued : cmd.status ≠ "QUEUED" → cmd'.status ≠ "QUEUED"

namespace AgentCommandRecord.Continues

variable {cmd cmd' cmd'' : AgentCommandRecord}

theorem refl (cmd : AgentCommandRecord) : cmd.Continues cmd :=
  ⟨rfl, rfl, rfl, rfl, rfl, fun h => h⟩

theorem trans (h : cmd.Continues cmd') (h' : cmd'.Continues cmd'') : cmd.Continues cmd'' where
  id := h'.id.trans h.id
  tenantId := h'.tenantId.trans h.tenantId
  agentId := h'.agentId.trans h.agentId
  polled := h'.polled.trans h.polled
  signature := h'.signature.trans h.signature
  unqueued := h'.unqueued ∘ h.unqueued

end AgentCommandRecord.Continues

/-- The calls that put no command back into the queue. -/
def NoRequeue : AgentsOp → Prop
  | .writeResult _ status _ _ => status ≠ "QUEUED"
  | _ => True

namespace CommandStore

/-- Every command is still there. -/
def Retains (s s' : CommandStore) : Prop :=
  ∀ cmd ∈ s.commands, ∃ cmd' ∈ s'.commands, cmd.Continues cmd'

/-- The command is there, and no longer queued. -/
def Sent (s : CommandStore) (cmd : AgentCommandRecord) : Prop :=
  ∃ cmd' ∈ s.commands, cmd.Continues cmd' ∧ cmd'.status ≠ "QUEUED"

variable {i : ℕ} {c : Surroundings} {o : AgentsOp} {s s' s'' : CommandStore}

theorem Retains.refl (s : CommandStore) : s.Retains s := fun cmd hcmd => ⟨cmd, hcmd, .refl cmd⟩

theorem Retains.trans (h : s.Retains s') (h' : s'.Retains s'') : s.Retains s'' := by
  intro cmd hcmd
  obtain ⟨cmd', hcmd', hsame⟩ := h cmd hcmd
  obtain ⟨cmd'', hcmd'', hsame'⟩ := h' cmd' hcmd'
  exact ⟨cmd'', hcmd'', hsame.trans hsame'⟩

theorem Sent.retains {cmd : AgentCommandRecord} (h : s.Sent cmd) (hs : s.Retains s') :
    s'.Sent cmd := by
  obtain ⟨cmd', hcmd', hsame, hunqueued⟩ := h
  obtain ⟨cmd'', hcmd'', hsame'⟩ := hs cmd' hcmd'
  exact ⟨cmd'', hcmd'', hsame.trans hsame', hsame'.unqueued hunqueued⟩

theorem retains_effect {uuid : String} (ho : NoRequeue o) : s.Retains (effect uuid i o s).2 := by
  have hsame : ∀ {t : CommandStore}, t.commands = s.commands → s.Retains t := by
    intro t ht cmd hcmd
    exact ⟨cmd, by rwa [ht], .refl cmd⟩
  cases o with
  | createCommand cmd =>
    intro old hold
    simp only [effect]
    rcases Table.insert?_cases s.commands cmd.queued with ⟨h, -⟩ | ⟨t, h, -, hmem⟩
    · rw [h]
      exact ⟨old, hold, .refl old⟩
    · rw [h]
      exact ⟨old, (hmem old).2 (Or.inl hold), .refl old⟩
  | markDispatched tenant commandId =>
    intro cmd hcmd
    refine ⟨_, mem_markDispatched.2 ⟨cmd, hcmd, rfl⟩, ?_⟩
    split_ifs
    · exact ⟨rfl, rfl, rfl, rfl, rfl, fun _ => by simp [AgentCommandRecord.markedDispatched]⟩
    · exact .refl cmd
  | writeResult loaded status result error =>
    intro cmd hcmd
    refine ⟨_, mem_writeResult.2 ⟨cmd, hcmd, rfl⟩, ?_⟩
    split_ifs
    · refine ⟨rfl, rfl, rfl, rfl, rfl, fun hq => ?_⟩
      simp only [AgentCommandRecord.written]
      split_ifs
      · exact hq
      · exact ho
    · exact .refl cmd
  | refresh commandId =>
    simp only [effect]
    cases s.commands.get? commandId <;> exact hsame rfl
  | _ => exact hsame rfl

theorem retains_handle (i : ℕ) (c : Surroundings) (s : CommandStore) (ho : NoRequeue o) :
    s.Retains (handle i c o s).2 :=
  handle_keeps (I := s.Retains) (.refl s) (retains_effect ho) fun _ ht => ht

end CommandStore

/-! ## Requests -/

section Requests

open CommandStore Crew

variable {environment : String} {e : Ed25519} {i : ℕ} {s s' : CommandStore}

/-- Requests keep the commands. -/
def retaining : Contract CommandStore := ⟨fun _ => True, fun _ => Retains⟩

/-- A program of a request that keeps the commands, whatever the others do. -/
abbrev Retaining (i : ℕ) {α : Type} (p : AgentsM α) (Q : Except PyError α → CommandStore → Prop)
    (s : CommandStore) : Prop :=
  retaining.Upholds handle (fun _ _ o _ => NoRequeue o) i p Q s

theorem retains_of_rely (h : retaining.Rely i s s') : s.Retains s' := by
  induction h with
  | refl => exact .refl s
  | tail _ hmove ih =>
    obtain ⟨-, j, -, hmove⟩ := hmove
    exact ih.trans hmove

/-- One call, and what is known when it answers. -/
theorem retaining_ask {o : AgentsOp} {Q : Except PyError o.Res → CommandStore → Prop}
    (hok : ∀ s' uuid r, s.Retains s' → (effect uuid i o s').1 = .ok r →
      Q (.ok r) (effect uuid i o s').2) (herr : ∀ exc s', Q (.error exc) s') :
    Retaining i (ask o) Q s := by
  refine .perform fun s' hrely _ c ho => ⟨trivial, retains_handle i c s' ho, ?_⟩
  rcases handle_cases i c o s' with ⟨r, hr, h⟩ | ⟨exc, t, -, h⟩
  · rw [h]
    exact hok s' c.uuid r (retains_of_rely hrely) hr
  · rw [h]
    exact herr exc _

/-! ### The response of a poll -/

/-- The command as it is handed out. -/
def AgentCommandRecord.handedOut (cmd : AgentCommandRecord) : PolledCommand :=
  ⟨cmd.polled, cmd.signature⟩

/-- A poll hands out commands of the agent that are no longer queued, each once, and none of
`known`. -/
def Answered (agentId : String) (known : List String) (r : Except PyError AgentsResponse)
    (s : CommandStore) : Prop :=
  ∀ results, r = .ok (.polled results) → ∃ rows : List AgentCommandRecord,
    results = rows.map (·.handedOut) ∧ (rows.map (·.id)).Nodup ∧
      ∀ cmd ∈ rows, cmd.id ∉ known ∧ cmd.agentId = agentId ∧ s.Sent cmd

/-- The ids of commands that are no longer queued. -/
def CommandStore.Unqueued (s : CommandStore) (known : List String) : Prop :=
  ∀ id ∈ known, ∃ cmd ∈ s.commands, cmd.id = id ∧ cmd.status ≠ "QUEUED"

theorem CommandStore.Unqueued.retains {known : List String} (h : s.Unqueued known)
    (hs : s.Retains s') : s'.Unqueued known := by
  intro id hid
  obtain ⟨cmd, hcmd, rfl, hunqueued⟩ := h id hid
  obtain ⟨cmd', hcmd', hsame⟩ := hs cmd hcmd
  exact ⟨cmd', hcmd', hsame.id, hsame.unqueued hunqueued⟩

/-- The loop marks the commands that it hands out. -/
theorem markAll_retaining {agentId tenant : String} {known : List String}
    (rows : List AgentCommandRecord) {pending : List AgentCommandRecord}
    (hids : ((rows ++ pending).map (·.id)).Nodup)
    (hown : ∀ cmd ∈ rows ++ pending, cmd.id ∉ known ∧ cmd.agentId = agentId)
    (hrows : ∀ cmd ∈ rows, s.Sent cmd)
    (hpending : ∀ cmd ∈ pending, cmd.tenantId = tenant ∧ ∃ cmd' ∈ s.commands, cmd.Continues cmd') :
    Retaining i (markAll tenant (rows.map (·.handedOut)) pending) (Answered agentId known) s := by
  induction pending generalizing rows s with
  | nil =>
    intro results h
    cases h
    rw [List.append_nil] at hids hown
    exact ⟨rows, rfl, hids, fun cmd hcmd => ⟨(hown cmd hcmd).1, (hown cmd hcmd).2, hrows cmd hcmd⟩⟩
  | cons cmd pending ih =>
    obtain ⟨htenant, cmd', hcmd', hsame⟩ := hpending cmd List.mem_cons_self
    refine .bind (R := fun r s' => ∀ u, r = .ok u → s.Retains s' ∧ s'.Sent cmd)
      (retaining_ask ?_ nofun) ?_ fun _ _ _ => nofun
    · intro s' uuid r hs _ u _
      obtain ⟨cmd'', hcmd'', hsame'⟩ := hs cmd' hcmd'
      have hcontinues := hsame.trans hsame'
      have haddressed : addressed tenant cmd.id cmd'' = true :=
        decide_eq_true ⟨hcontinues.id, hcontinues.tenantId.trans htenant⟩
      refine ⟨hs.trans (retains_effect trivial), cmd''.markedDispatched,
        mem_markDispatched.2 ⟨cmd'', hcmd'', (if_pos haddressed).symm⟩, ?_, ?_⟩
      · exact hcontinues.trans ⟨rfl, rfl, rfl, rfl, rfl,
          fun _ => by simp [AgentCommandRecord.markedDispatched]⟩
      · simp [AgentCommandRecord.markedDispatched]
    · intro u s' h
      obtain ⟨hs, hsent⟩ := h u rfl
      have hmap : rows.map (·.handedOut) ++ [⟨cmd.polled, cmd.signature⟩] =
          (rows ++ [cmd]).map (·.handedOut) := by
        rw [List.map_append]
        rfl
      rw [hmap]
      have hassoc : rows ++ [cmd] ++ pending = rows ++ cmd :: pending := by simp
      refine ih (rows ++ [cmd]) (hassoc ▸ hids) (hassoc ▸ hown) (fun old hold => ?_)
        fun old hold => ?_
      · rcases List.mem_append.1 hold with hold | hold
        · exact (hrows old hold).retains hs
        · rwa [List.mem_singleton.1 hold]
      · obtain ⟨htenant, old', hold', hsame⟩ := hpending old (List.mem_cons_of_mem _ hold)
        obtain ⟨old'', hold'', hsame'⟩ := hs old' hold'
        exact ⟨htenant, old'', hold'', hsame.trans hsame'⟩

/-- Commands that are no longer queued are not handed out again. -/
theorem pollCommands_retaining (agentId : String) (xTenantId : Option String) {known : List String}
    (hknown : s.Unqueued known) :
    Retaining i (pollCommands environment agentId xTenantId) (Answered agentId known) s := by
  have hagent : Retaining i (agentOfRequest environment agentId xTenantId "poll commands")
      (fun r s' => ∀ agent, r = .ok agent → agent.id = agentId ∧ s.Retains s') s := by
    unfold agentOfRequest
    split_ifs
    · exact .raise nofun
    · refine .bind (R := fun r s' => ∀ agent?, r = .ok agent? → s.Retains s' ∧
        ∀ agent, agent? = some agent → agent.id = agentId)
        (retaining_ask (fun s' uuid r hs hr agent? h => ?_) nofun) (fun agent? s' h => ?_)
        fun _ _ _ => nofun
      · cases hr
        cases h
        refine ⟨hs.trans (retains_effect trivial), fun agent hagent => ?_⟩
        simpa using List.find?_some hagent
      · obtain ⟨hs, hid⟩ := h agent? rfl
        cases agent? with
        | none => exact .raise nofun
        | some agent =>
          dsimp only
          split_ifs
          · exact .raise nofun
          · refine .ret fun agent' h => ?_
            cases h
            exact ⟨hid agent rfl, hs⟩
  refine .bind hagent (fun agent s₁ h => ?_) fun _ _ _ => nofun
  obtain ⟨hid, hs₁⟩ := h agent rfl
  refine .bind (R := fun r s' => ∀ u, r = .ok u → s'.Unqueued known) ?_ (fun u s₂ h => ?_)
    fun _ _ _ => nofun
  · unfold requireTenant
    split_ifs
    · exact .raise nofun
    · exact .ret fun _ _ => hknown.retains hs₁
  have hs₂ := h u rfl
  refine .bind (R := fun r s' => ∀ pending, r = .ok pending →
    ∃ s₃ : CommandStore, s₃.Unqueued known ∧ s₃.Retains s' ∧
      pending = s₃.pending agent.tenantId agent.id 10)
    (retaining_ask (fun s₃ uuid r hs hr pending h => ?_) nofun) (fun pending s₄ h => ?_)
    fun _ _ _ => nofun
  · cases hr
    cases h
    exact ⟨s₃, hs₂.retains hs, retains_effect trivial, rfl⟩
  · obtain ⟨s₃, hunqueued, hs, rfl⟩ := h pending rfl
    have hsub : (s₃.pending agent.tenantId agent.id 10).Sublist s₃.commands.rows :=
      (List.take_sublist _ _).trans List.filter_sublist
    refine markAll_retaining [] (s₃.commands.unique.sublist (hsub.map _))
      (fun cmd hcmd => ?_) nofun fun cmd hcmd => ?_
    · obtain ⟨hmem, hstatus⟩ := mem_pending hcmd
      obtain ⟨-, hp⟩ := List.mem_filter.1 (List.mem_of_mem_take hcmd)
      refine ⟨fun hid' => ?_, (of_decide_eq_true hp).2.1.trans hid⟩
      -- the command with this id is no longer queued, but this one is
      obtain ⟨cmd', hcmd', heq, hq⟩ := hunqueued _ hid'
      rw [Table.eq_of_key_eq hcmd' hmem heq] at hq
      exact hq hstatus
    · obtain ⟨hmem, hp⟩ := List.mem_filter.1 (List.mem_of_mem_take hcmd)
      exact ⟨(of_decide_eq_true hp).1, hs cmd hmem⟩

end Requests

/-! ## What the agent decodes -/

section Decode

variable {fs : Go.Floats}

theorem id_decode {cmd : AgentCommandRecord} {command : Policy.Command}
    (h : Policy.Command.decode fs cmd.polled = some command) : command.id = cmd.id := by
  unfold Policy.Command.decode at h
  obtain ⟨id, hid, h⟩ := Option.bind_eq_some_iff.1 h
  obtain rfl : cmd.id = id := Option.some.inj hid
  iterate 9 obtain ⟨_, -, h⟩ := Option.bind_eq_some_iff.1 h
  rw [← Option.some.inj h]

/-- The agent decodes all commands of a response, or none. -/
theorem decodeCommands_eq_some {rows : List AgentCommandRecord}
    {commands : List SignedCommandEnvelope}
    (h : decodeCommands fs (rows.map (·.handedOut)) = some commands) :
    commands.map (·.command.id) = rows.map (·.id) ∧ ∀ envelope ∈ commands, ∃ cmd ∈ rows,
      Policy.Command.decode fs cmd.polled = some envelope.command ∧
        envelope.signature = cmd.signature := by
  induction rows generalizing commands with
  | nil =>
    cases h
    exact ⟨rfl, nofun⟩
  | cons cmd rows ih =>
    obtain ⟨command, hcommand, h⟩ := Option.bind_eq_some_iff.1 h
    obtain ⟨rest, hrest, h⟩ := Option.bind_eq_some_iff.1 h
    cases h
    obtain ⟨hids, hrows⟩ := ih hrest
    refine ⟨?_, fun envelope henvelope => ?_⟩
    · rw [List.map_cons, List.map_cons, hids, id_decode hcommand]
    · rcases List.mem_cons.1 henvelope with rfl | henvelope
      · exact ⟨cmd, List.mem_cons_self, hcommand, rfl⟩
      · obtain ⟨cmd', hcmd', h⟩ := hrows envelope henvelope
        exact ⟨cmd', List.mem_cons_of_mem _ hcmd', h⟩

end Decode

/-- A result names its command, and has one of four statuses. -/
theorem result_processCommand (out : Outside) (c : Crypto) (cfg : AgentConfig)
    (rules : Policy.Engine) (envelope : SignedCommandEnvelope) :
    (processCommand out c cfg rules envelope).1.commandId = envelope.command.id ∧
      (processCommand out c cfg rules envelope).1.status ∈
        ["REJECTED_SIGNATURE", "REJECTED_POLICY", "FAILED", "COMPLETED"] := by
  have hexecute : (executeCommand out cfg envelope.command).1.commandId = envelope.command.id ∧
      (executeCommand out cfg envelope.command).1.status ∈
        ["REJECTED_SIGNATURE", "REJECTED_POLICY", "FAILED", "COMPLETED"] := by
    unfold executeCommand
    split_ifs
    · unfold executeHttp
      split
      · exact ⟨rfl, by simp [completed]⟩
      · split_ifs
        · split <;> exact ⟨rfl, by simp [completed]⟩
        · exact ⟨rfl, by simp [completed]⟩
    · unfold executeProcess
      split
      · exact ⟨rfl, by simp [completed]⟩
      · split <;> exact ⟨rfl, by simp [completed]⟩
    · exact ⟨rfl, by simp [completed]⟩
  unfold processCommand
  dsimp only
  split_ifs
  · exact ⟨rfl, by simp⟩
  · split
    · exact ⟨rfl, by simp⟩
    · exact hexecute

/-! ## Runs -/

section Runs

open CommandStore

variable {d : EdgeSite}

/-- The commands of a response that are still to be executed. -/
def AgentPhase.commands : AgentPhase → List SignedCommandEnvelope
  | .executing commands => commands
  | _ => []

/-- What the agent has executed, and what it is going to. -/
def EdgeSystem.taken (t : EdgeSystem) : List SignedCommandEnvelope :=
  t.executed.map (·.envelope) ++ t.phase.commands

/-- The agent has been handed the command. -/
def EdgeSite.Handed (d : EdgeSite) (s : CommandStore) (envelope : SignedCommandEnvelope) : Prop :=
  ∃ cmd ∈ s.commands, cmd.agentId = d.cfg.id ∧ cmd.status ≠ "QUEUED" ∧
    Policy.Command.decode d.floats cmd.polled = some envelope.command ∧
      envelope.signature = cmd.signature

theorem EdgeSite.Handed.retains {s s' : CommandStore} {envelope : SignedCommandEnvelope}
    (h : d.Handed s envelope) (hs : s.Retains s') : d.Handed s' envelope := by
  obtain ⟨cmd, hcmd, hagent, hunqueued, hdecode, hsignature⟩ := h
  obtain ⟨cmd', hcmd', hsame⟩ := hs cmd hcmd
  refine ⟨cmd', hcmd', hsame.agentId.trans hagent, hsame.unqueued hunqueued, ?_, ?_⟩
  · rwa [hsame.polled]
  · rwa [hsame.signature]

/-- What holds at every point of a run. -/
structure EdgeSystem.Sound (d : EdgeSite) (t : EdgeSystem) : Prop where
  /-- No request puts a command back into the queue. -/
  uses : ∀ q ∈ t.requests.progs, q.Uses NoRequeue
  each_once : (t.taken.map (·.command.id)).Nodup
  handed : ∀ envelope ∈ t.taken, d.Handed t.requests.state envelope
  /-- The poll that the agent waits for hands out nothing that the agent has taken. -/
  awaited : ∀ i, t.phase = .polling i → ∃ q, t.requests.progs[i]? = some q ∧
    Retaining i q (Answered d.cfg.id (t.taken.map (·.command.id))) t.requests.state
  results : ∀ x ∈ t.executed, ∃ out, x = d.process out x.envelope

/-- The requests that put no command back into the queue. -/
def AgentsRequest.KeepsQueue : AgentsRequest → Prop
  | .recordCommandResult _ _ payload _ => payload.status ≠ "QUEUED"
  | _ => True

/-- The calls that write no result. -/
def NoResult : AgentsOp → Prop
  | .writeResult _ _ _ _ => False
  | _ => True

theorem uses_agentOfRequest {P : AgentsOp → Prop} (hP : ∀ agentId, P (.getAgent agentId))
    (environment agentId : String) (xTenantId : Option String) (purpose : String) :
    (agentOfRequest environment agentId xTenantId purpose).Uses P := by
  unfold agentOfRequest
  split_ifs
  · exact .raise _
  · refine .bind (.perform (hP agentId)) fun agent? => ?_
    cases agent? with
    | none => exact .raise _
    | some agent =>
      dsimp only
      split_ifs
      · exact .raise _
      · exact .ret _

theorem uses_requireTenant {P : AgentsOp → Prop} (tenant : String) :
    (requireTenant tenant).Uses P := by
  unfold requireTenant
  split_ifs
  · exact .raise _
  · exact .ret _

/-- The calls of a request: only results are written. -/
theorem uses_code {P : AgentsOp → Prop} (environment : String) (e : Ed25519)
    (request : AgentsRequest)
    (hP : ∀ o, NoResult o → P o)
    (hresult : ∀ agentId commandId payload xTenantId,
      request = .recordCommandResult agentId commandId payload xTenantId →
        ∀ loaded, P (.writeResult loaded payload.status payload.result payload.error)) :
    (request.code environment e).Uses P := by
  cases request with
  | dispatchCommand tenant agentId req =>
    refine .bind (uses_requireTenant tenant) fun _ =>
      .bind (.perform (hP _ trivial)) fun agent? => ?_
    cases agent? with
    | none => exact .raise _
    | some agent =>
      exact .bind (.perform (hP _ trivial)) fun uuid =>
        .bind (.bind (.perform (hP _ trivial)) fun _ => .perform (hP _ trivial)) fun _ => .ret _
  | createCommand cmd =>
    exact .bind (.bind (.perform (hP _ trivial)) fun _ => .perform (hP _ trivial)) fun _ => .ret _
  | pollCommands agentId xTenantId =>
    refine .bind (uses_agentOfRequest (fun _ => hP _ trivial) ..) fun agent =>
      .bind (uses_requireTenant _) fun _ => .bind (.perform (hP _ trivial)) fun pending => ?_
    have hmark : ∀ (pending : List AgentCommandRecord) (results : List PolledCommand),
        (markAll agent.tenantId results pending).Uses P := by
      intro pending
      induction pending with
      | nil => exact fun _ => .ret _
      | cons cmd pending ih => exact fun _ => .bind (.perform (hP _ trivial)) fun _ => ih _
    exact hmark pending []
  | recordCommandResult agentId commandId payload xTenantId =>
    refine .bind (uses_agentOfRequest (fun _ => hP _ trivial) ..) fun agent =>
      .bind (uses_requireTenant _) fun _ => .bind (.perform (hP _ trivial)) fun cmd? => ?_
    cases cmd? with
    | none => exact .raise _
    | some cmd =>
      exact .bind (.perform (hresult _ _ _ _ rfl cmd)) fun _ => .bind (.perform (hP _ trivial))
        fun _ => .ret _

theorem AgentsRequest.KeepsQueue.uses {request : AgentsRequest} (h : request.KeepsQueue)
    (environment : String) (e : Ed25519) : (request.code environment e).Uses NoRequeue := by
  refine uses_code environment e request (fun o ho => ?_) fun _ _ payload _ heq _ => ?_
  · cases o with
    | writeResult loaded status result error => exact ho.elim
    | _ => trivial
  · subst heq
    exact h

/-! ### One event -/

namespace EdgeSystem.Sound

variable {t : EdgeSystem}

theorem arrive (h : t.Sound d) {code : AgentsM AgentsResponse} (hcode : code.Uses NoRequeue) :
    (t.arrive code).Sound d where
  uses q hq := by
    rcases List.mem_append.1 hq with hq | hq
    · exact h.uses q hq
    · rwa [List.mem_singleton.1 hq]
  each_once := h.each_once
  handed := h.handed
  awaited i hi := by
    obtain ⟨q, hq, hretaining⟩ := h.awaited i hi
    exact ⟨q, Crew.getElem?_arrive_of_some hq, hretaining⟩
  results := h.results

theorem serve (h : t.Sound d) (i : ℕ) (c : Surroundings) :
    (d.step t (.serve i c)).Sound d := by
  by_cases hcall : ∃ o k, t.requests.progs[i]? = some (.call o k)
  · obtain ⟨o, k, hprog⟩ := hcall
    have huses := h.uses _ (List.mem_of_getElem? hprog)
    have hs : t.requests.state.Retains (handle i c o t.requests.state).2 :=
      retains_handle i c _ huses.1
    simp only [EdgeSite.step]
    rw [Crew.turn_call hprog]
    refine ⟨fun q hq => ?_, h.each_once, fun envelope henvelope => ?_, fun j hj => ?_, h.results⟩
    · rcases List.mem_or_eq_of_mem_set hq with hq | rfl
      · exact h.uses q hq
      · exact huses.2 _
    · exact (h.handed envelope henvelope).retains hs
    · obtain ⟨q, hq, hretaining⟩ := h.awaited j hj
      by_cases hij : i = j
      · subst hij
        obtain rfl := Option.some.inj (hq.symm.trans hprog)
        obtain ⟨-, -, hk⟩ := hretaining _ .refl trivial c huses.1
        refine ⟨_, ?_, hk⟩
        simp [(List.getElem?_eq_some_iff.1 hprog).1]
      · refine ⟨q, by simpa [List.getElem?_set_ne hij] using hq, ?_⟩
        refine hretaining.stable (fun r s s' hrely hanswered results hr => ?_)
          (.single ⟨trivial, i, hij, hs⟩)
        obtain ⟨rows, hresults, hids, hrows⟩ := hanswered results hr
        refine ⟨rows, hresults, hids, fun cmd hcmd => ?_⟩
        obtain ⟨hknown, hagent, hsent⟩ := hrows cmd hcmd
        exact ⟨hknown, hagent, hsent.retains (retains_of_rely hrely)⟩
  · simp only [EdgeSite.step]
    rw [Crew.turn_of_ended fun o k hp => hcall ⟨o, k, hp⟩]
    exact h

/-- The agent waits for nothing, and drops what it has not executed. -/
theorem idle (h : t.Sound d) : EdgeSystem.Sound d { t with phase := .idle } where
  uses := h.uses
  each_once := by
    have hsub : ({ t with phase := .idle } : EdgeSystem).taken.Sublist t.taken := by
      simp [taken, AgentPhase.commands]
    exact h.each_once.sublist (hsub.map _)
  handed envelope henvelope := by
    refine h.handed envelope (List.mem_append_left _ ?_)
    simpa [taken, AgentPhase.commands] using henvelope
  awaited := nofun
  results := h.results

theorem poll (h : t.Sound d) : (d.step t .poll).Sound d := by
  simp only [EdgeSite.step]
  split
  · next hphase =>
    have hkeeps : d.pollRequest.KeepsQueue := trivial
    have harrive := h.arrive (hkeeps.uses d.environment d.ed25519)
    have htaken : ({ t.arrive (d.pollRequest.code d.environment d.ed25519) with
        phase := .polling t.requests.progs.length } : EdgeSystem).taken = t.taken := by
      simp [taken, EdgeSystem.arrive, AgentPhase.commands, hphase]
    refine ⟨harrive.uses, htaken ▸ h.each_once, htaken ▸ h.handed, fun i hi => ?_, h.results⟩
    cases hi
    rw [htaken]
    refine ⟨d.pollRequest.code d.environment d.ed25519, ?_, ?_⟩
    · simp [EdgeSystem.arrive, Crew.arrive]
    · refine pollCommands_retaining _ _ fun id hid => ?_
      obtain ⟨envelope, henvelope, rfl⟩ := List.mem_map.1 hid
      obtain ⟨cmd, hcmd, -, hunqueued, hdecode, -⟩ := h.handed envelope henvelope
      exact ⟨cmd, hcmd, (id_decode hdecode).symm, hunqueued⟩
  · exact h

theorem receive (h : t.Sound d) : (d.step t .receive).Sound d := by
  simp only [EdgeSite.step]
  split
  · next i hphase =>
    obtain ⟨q, hq, hretaining⟩ := h.awaited i hphase
    split
    · next results hprog =>
      obtain rfl := Option.some.inj (hq.symm.trans hprog)
      obtain ⟨rows, rfl, hids, hrows⟩ := hretaining results rfl
      split
      · exact h.idle
      · next commands hcommands =>
        obtain ⟨hmap, hall⟩ := decodeCommands_eq_some hcommands
        have htaken : t.taken = t.executed.map (·.envelope) := by
          simp [taken, AgentPhase.commands, hphase]
        have htaken' : ({ t with phase := .executing commands } : EdgeSystem).taken =
            t.taken ++ commands := by
          rw [htaken]
          rfl
        refine ⟨h.uses, ?_, fun envelope henvelope => ?_, nofun, h.results⟩
        · rw [htaken', List.map_append, hmap]
          refine h.each_once.append hids fun id hid hid' => ?_
          obtain ⟨cmd, hcmd, rfl⟩ := List.mem_map.1 hid'
          exact (hrows cmd hcmd).1 hid
        · rw [htaken'] at henvelope
          rcases List.mem_append.1 henvelope with henvelope | henvelope
          · exact h.handed envelope henvelope
          · obtain ⟨cmd, hcmd, hdecode, hsignature⟩ := hall envelope henvelope
            obtain ⟨-, hagent, cmd', hcmd', hsame, hunqueued⟩ := hrows cmd hcmd
            refine ⟨cmd', hcmd', hsame.agentId.trans hagent, hunqueued, ?_, ?_⟩
            · rwa [hsame.polled]
            · rwa [hsame.signature]
    · exact h
  · exact h

theorem execute (h : t.Sound d) (out : Outside) : (d.step t (.execute out)).Sound d := by
  simp only [EdgeSite.step]
  split
  · exact h.idle
  · next envelope commands hphase =>
    have htaken : ({ t with
        phase := .executing commands
        executed := t.executed ++ [d.process out envelope] } : EdgeSystem).taken = t.taken := by
      simp [taken, AgentPhase.commands, hphase, EdgeSite.process]
    refine ⟨h.uses, htaken ▸ h.each_once, htaken ▸ h.handed, nofun, fun x hx => ?_⟩
    rcases List.mem_append.1 hx with hx | hx
    · exact h.results x hx
    · rw [List.mem_singleton.1 hx]
      exact ⟨out, rfl⟩
  · exact h

theorem status_ne (h : t.Sound d) {x : Execution} (hx : x ∈ t.executed) :
    x.result.status ≠ "QUEUED" := by
  obtain ⟨out, hprocess⟩ := h.results x hx
  have hstatus := (result_processCommand out d.crypto d.cfg d.rules x.envelope).2
  rw [hprocess]
  intro heq
  have hqueued : "QUEUED" ∈ ["REJECTED_SIGNATURE", "REJECTED_POLICY", "FAILED", "COMPLETED"] :=
    heq ▸ hstatus
  simp at hqueued

theorem step (h : t.Sound d) (event : EdgeEvent)
    (hevent : ∀ request, event = .arrive request → request.KeepsQueue) :
    (d.step t event).Sound d := by
  cases event with
  | arrive request => exact h.arrive ((hevent request rfl).uses ..)
  | serve i c => exact h.serve i c
  | poll => exact h.poll
  | giveUp =>
    simp only [EdgeSite.step]
    split
    · exact h.idle
    · exact h
  | receive => exact h.receive
  | execute out => exact h.execute out
  | report k result error xTenantId =>
    simp only [EdgeSite.step]
    split
    · exact h
    · next x hx =>
      have hkeeps : (d.reportRequest x result error xTenantId).KeepsQueue :=
        h.status_ne (List.mem_of_getElem? hx)
      exact h.arrive (hkeeps.uses ..)
  | restart => exact h.idle

theorem run (h : t.Sound d) {events : List EdgeEvent}
    (hevents : ∀ request, .arrive request ∈ events → request.KeepsQueue) :
    (d.run t events).Sound d := by
  induction events generalizing t with
  | nil => exact h
  | cons event events ih =>
    refine ih (h.step event fun request heq => hevents request ?_) fun request hmem =>
      hevents request (List.mem_cons_of_mem _ hmem)
    rw [heq]
    exact List.mem_cons_self

end EdgeSystem.Sound

/-- The control plane before any request, and an agent that has just been started. -/
def EdgeSystem.start (s : CommandStore) : EdgeSystem := { requests := ⟨s, []⟩ }

theorem sound_start (d : EdgeSite) (s : CommandStore) : (EdgeSystem.start s).Sound d where
  uses := nofun
  each_once := List.nodup_nil
  handed := nofun
  awaited := nofun
  results := nofun

/-- **Commands are executed at most once.** Whatever requests come in, in whatever order their
calls are made, and whatever is lost: no command is executed twice by the agent, also where a poll
that it gave up overlaps with a later one; and what is executed is a command of the agent as it was
created, with its signature. The results of others must not be `QUEUED`. -/
theorem executed_at_most_once (d : EdgeSite) (s : CommandStore) (events : List EdgeEvent)
    (hresults : ∀ request, .arrive request ∈ events → request.KeepsQueue) :
    ((d.run (.start s) events).executed.map (·.envelope.command.id)).Nodup ∧
      ∀ x ∈ (d.run (.start s) events).executed,
        ∃ cmd ∈ (d.run (.start s) events).requests.state.commands,
          cmd.agentId = d.cfg.id ∧ cmd.status ≠ "QUEUED" ∧
            Policy.Command.decode d.floats cmd.polled = some x.envelope.command ∧
              x.envelope.signature = cmd.signature := by
  have hsound : (d.run (.start s) events).Sound d := (sound_start d s).run hresults
  refine ⟨?_, fun x hx => hsound.handed x.envelope ?_⟩
  · have honce := hsound.each_once
    rw [EdgeSystem.taken, List.map_append, List.map_map] at honce
    exact honce.of_append_left
  · exact List.mem_append_left _ (List.mem_map_of_mem hx)

/-- A command of the agent's tenant waits in the queue. -/
def queuedAcme : CommandStore :=
  ⟨[⟨"agent-1", "acme"⟩], ⟨[queuedQuery], List.nodup_singleton _⟩, []⟩

/-- The agent of the tenant, with the rules of the daemon and without a key. -/
def acmeSite : EdgeSite where
  environment := "production"
  ed25519 := .transparent
  floats := ⟨fun _ => none, fun _ => none⟩
  crypto := .accepting
  cfg := { ({} : Flags).config with id := "agent-1", tenantId := "acme" }
  rules := daemonRules

/-- The agent gives up a poll that goes on, polls again before it ends, and waits for that one. -/
def overlappingPolls : List EdgeEvent :=
  [.poll, .serve 0 { uuid := "" }, .giveUp, .poll, .serve 1 { uuid := "" },
    .serve 0 { uuid := "" }, .serve 1 { uuid := "" }, .serve 0 { uuid := "" },
    .serve 1 { uuid := "" }, .receive, .execute reachable, .execute reachable, .poll,
    .serve 2 { uuid := "" }, .serve 2 { uuid := "" }, .receive, .execute reachable]

theorem executed_at_most_once_overlapping :
    (acmeSite.run (.start queuedAcme) overlappingPolls).executed.map (·.envelope.command.id) =
        ["cmd-1"] ∧
      ((acmeSite.run (.start queuedAcme) overlappingPolls).executed.map
        (·.envelope.command.id)).Nodup :=
  ⟨rfl, (executed_at_most_once acmeSite queuedAcme overlappingPolls
    (by simp [overlappingPolls])).1⟩

/-! ## What is recorded -/

/-- The status of a command is that of a result in `E`, unless it has none. -/
def StatusIn (E : String → String → Prop) (cmd : AgentCommandRecord) : Prop :=
  cmd.status = "QUEUED" ∨ cmd.status = "DISPATCHED" ∨ E cmd.id cmd.status

/-- Requests record no status that is not in `E`. -/
def recording (E : String → String → Prop) : Crew.Contract CommandStore :=
  ⟨fun s => ∀ cmd ∈ s.commands, StatusIn E cmd, fun _ _ _ => True⟩

variable {E : String → String → Prop}

theorem recording_handle {i : ℕ} {c : Surroundings} {o : AgentsOp} {s : CommandStore}
    (hs : (recording E).inv s)
    (ho : ∀ loaded status result error, o = .writeResult loaded status result error →
      E loaded.id status) : (recording E).inv (handle i c o s).2 := by
  refine handle_keeps hs ?_ fun _ ht => ht
  have hsame : ∀ {t : CommandStore}, t.commands = s.commands → (recording E).inv t := by
    intro t ht cmd hcmd
    exact hs cmd (by rwa [ht] at hcmd)
  cases o with
  | createCommand cmd =>
    intro new hnew
    simp only [effect] at hnew
    rcases Table.insert?_cases s.commands cmd.queued with ⟨h, -⟩ | ⟨t, h, -, hmem⟩
    · rw [h] at hnew
      exact hs new hnew
    · rw [h] at hnew
      rcases (hmem new).1 hnew with hnew | rfl
      · exact hs new hnew
      · exact Or.inl rfl
  | markDispatched tenant commandId =>
    intro cmd hcmd
    obtain ⟨old, hold, rfl⟩ := mem_markDispatched.1 hcmd
    split_ifs
    · exact Or.inr (Or.inl rfl)
    · exact hs old hold
  | writeResult loaded status result error =>
    intro cmd hcmd
    obtain ⟨old, hold, rfl⟩ := mem_writeResult.1 hcmd
    split_ifs with hid
    · by_cases hstatus : loaded.status = status
      · have hsame : (loaded.written status result error old).status = old.status := if_pos hstatus
        unfold StatusIn
        rw [hsame]
        exact hs old hold
      · have hnew : (loaded.written status result error old).status = status := if_neg hstatus
        refine Or.inr (Or.inr ?_)
        rw [hnew]
        exact hid ▸ ho loaded status result error rfl
    · exact hs old hold
  | refresh commandId =>
    simp only [effect]
    cases s.commands.get? commandId <;> exact hsame rfl
  | _ => exact hsame rfl

/-- A program of a request that records nothing but what is in `E`. -/
abbrev Recording (E : String → String → Prop) (i : ℕ) {α : Type} (p : AgentsM α)
    (Q : Except PyError α → CommandStore → Prop) (s : CommandStore) : Prop :=
  (recording E).Upholds handle (fun _ _ _ _ => True) i p Q s

theorem recording_of_uses {α : Type} {p : AgentsM α} (hp : p.Uses NoResult) (i : ℕ)
    (s : CommandStore) : Recording E i p (fun _ _ => True) s := by
  refine .of_uses hp (fun o c s ho hs => ⟨recording_handle hs ?_, trivial⟩) s
  rintro loaded status result error rfl
  exact ho.elim

/-- A result is written to the command that it names. -/
theorem recordCommandResult_recording (environment agentId commandId : String)
    (payload : CommandResultRequest) (xTenantId : Option String) (hE : E commandId payload.status)
    (i : ℕ) (s : CommandStore) :
    Recording E i (recordCommandResult environment agentId commandId payload xTenantId)
      (fun _ _ => True) s := by
  refine .bind (recording_of_uses (uses_agentOfRequest (fun _ => trivial) ..) i s)
    (fun agent s _ => ?_) fun _ _ _ => trivial
  refine .bind (recording_of_uses (uses_requireTenant _) i s) (fun _ s _ => ?_)
    fun _ _ _ => trivial
  refine .bind (R := fun r _ => ∀ cmd, r = .ok (some cmd) → cmd.id = commandId)
    (.perform fun s' _ hs c _ => ⟨recording_handle hs nofun, trivial, fun cmd hr => ?_⟩)
    (fun cmd? s h => ?_) fun _ _ _ => trivial
  · rcases handle_cases i c (.getCommand agent.tenantId commandId) s' with
      ⟨r, hr', h⟩ | ⟨_, _, -, h⟩
    · rw [h] at hr
      obtain rfl : s'.command? agent.tenantId commandId = r := Except.ok.inj hr'
      have hfind : s'.command? agent.tenantId commandId = some cmd := Except.ok.inj hr
      have haddressed : addressed agent.tenantId commandId cmd = true := List.find?_some hfind
      exact (of_decide_eq_true haddressed).1
    · rw [h] at hr
      cases hr
  · cases cmd? with
    | none => exact .raise trivial
    | some cmd =>
      refine .bind (R := fun _ _ => True) (.perform fun s' _ hs c _ => ?_) (fun _ s _ => ?_)
        fun _ _ _ => trivial
      · refine ⟨recording_handle hs ?_, trivial, trivial⟩
        rintro loaded status result error heq
        cases heq
        rwa [h cmd rfl]
      · have huses : (do
            let updated ← ask (.refresh cmd.id)
            return AgentsResponse.recorded commandId updated.status : AgentsM AgentsResponse).Uses
              NoResult := .bind (.perform trivial) fun _ => .ret _
        exact recording_of_uses huses i s

/-- The requests that report a result. -/
def AgentsRequest.Reports : AgentsRequest → Prop
  | .recordCommandResult _ _ _ _ => True
  | _ => False

theorem uses_noResult {request : AgentsRequest} (h : ¬ request.Reports) (environment : String)
    (e : Ed25519) : (request.code environment e).Uses NoResult := by
  refine uses_code environment e request (fun _ ho => ho) fun _ _ _ _ heq => ?_
  rw [heq] at h
  exact absurd trivial h

/-- What is known of requests that record nothing but what is in `E`. -/
def recorded (E : String → String → Prop) :
    Crew.Outline handle (fun _ _ _ _ => True) AgentsResponse :=
  (recording E).outline (Q := fun _ _ _ => True) fun _ _ _ _ _ _ => trivial

namespace EdgeSystem

variable {t : EdgeSystem}

theorem mem_executed_step {x : Execution} (hx : x ∈ t.executed) (event : EdgeEvent) :
    x ∈ (d.step t event).executed := by
  cases event with
  | execute out =>
    simp only [EdgeSite.step]
    split
    · exact hx
    · exact List.mem_append_left _ hx
    · exact hx
  | poll => simp only [EdgeSite.step]; split <;> exact hx
  | giveUp => simp only [EdgeSite.step]; split <;> exact hx
  | receive =>
    simp only [EdgeSite.step]
    split
    · split
      · split <;> exact hx
      · exact hx
    · exact hx
  | report k result error xTenantId => simp only [EdgeSite.step]; split <;> exact hx
  | _ => exact hx

theorem mem_executed_run {x : Execution} (hx : x ∈ t.executed) (events : List EdgeEvent) :
    x ∈ (d.run t events).executed := by
  induction events generalizing t with
  | nil => exact hx
  | cons event events ih => exact ih (mem_executed_step hx event)

/-- One event: what is recorded is of something that is executed. -/
theorem recorded_step (h : (recorded E).Holds t.requests)
    (hexecuted : ∀ x ∈ t.executed, E x.result.commandId x.result.status) (event : EdgeEvent)
    (hevent : ∀ request, event = .arrive request → ¬ request.Reports) :
    (recorded E).Holds (d.step t event).requests := by
  cases event with
  | arrive request =>
    exact h.arrive (recording_of_uses (uses_noResult (hevent request rfl) ..) ..)
  | serve i c => exact h.next fun _ _ _ => trivial
  | poll =>
    simp only [EdgeSite.step]
    split
    · have hreports : ¬ d.pollRequest.Reports := id
      exact h.arrive (recording_of_uses (uses_noResult hreports ..) ..)
    · exact h
  | giveUp => simp only [EdgeSite.step]; split <;> exact h
  | receive =>
    simp only [EdgeSite.step]
    split
    · split
      · split <;> exact h
      · exact h
    · exact h
  | execute out => simp only [EdgeSite.step]; split <;> exact h
  | report k result error xTenantId =>
    simp only [EdgeSite.step]
    split
    · exact h
    · next x hx =>
      exact h.arrive (recordCommandResult_recording _ _ _ _ _
        (hexecuted x (List.mem_of_getElem? hx)) _ _)
  | restart => exact h

theorem recorded_run (h : (recorded E).Holds t.requests) {events : List EdgeEvent}
    (hevents : ∀ request, .arrive request ∈ events → ¬ request.Reports)
    (hexecuted : ∀ x ∈ (d.run t events).executed, E x.result.commandId x.result.status) :
    (recorded E).Holds (d.run t events).requests := by
  induction events generalizing t with
  | nil => exact h
  | cons event events ih =>
    refine ih (recorded_step h (fun x hx => ?_) event fun request heq => ?_)
      (fun request hmem => ?_) hexecuted
    · exact hexecuted x (mem_executed_run (mem_executed_step hx event) events)
    · exact hevents request (heq ▸ List.mem_cons_self)
    · exact hevents request (List.mem_cons_of_mem _ hmem)

end EdgeSystem

/-- **What is recorded was executed.** If only the agent reports results, in whatever order and
however often they come in, a command that has an outcome is one that the agent executed, once, and
the status of the command is that of this execution. -/
theorem recorded_was_executed (d : EdgeSite) (s : CommandStore) (events : List EdgeEvent)
    (hstart : ∀ cmd ∈ s.commands, cmd.status = "QUEUED" ∨ cmd.status = "DISPATCHED")
    (hothers : ∀ request, .arrive request ∈ events → ¬ request.Reports) :
    ∀ cmd ∈ (d.run (.start s) events).requests.state.commands,
      cmd.status = "QUEUED" ∨ cmd.status = "DISPATCHED" ∨
        ∃ x ∈ (d.run (.start s) events).executed,
          Policy.Command.decode d.floats cmd.polled = some x.envelope.command ∧
            (∃ out, x = d.process out x.envelope) ∧ cmd.status = x.result.status ∧
              ∀ x' ∈ (d.run (.start s) events).executed,
                x'.envelope.command.id = cmd.id → x' = x := by
  have hkeeps : ∀ request, .arrive request ∈ events → request.KeepsQueue := by
    intro request hmem
    cases request with
    | recordCommandResult agentId commandId payload xTenantId =>
      exact absurd trivial (hothers _ hmem)
    | _ => trivial
  have hsound : (d.run (.start s) events).Sound d := (sound_start d s).run hkeeps
  set t := d.run (.start s) events
  have hrecorded := EdgeSystem.recorded_run (d := d) (t := .start s)
    (E := fun id status => ∃ x ∈ t.executed, x.result.commandId = id ∧ x.result.status = status)
    ⟨fun cmd hcmd => (hstart cmd hcmd).elim Or.inl fun h => Or.inr (Or.inl h), nofun⟩ hothers
    fun x hx => ⟨x, hx, rfl, rfl⟩
  intro cmd hcmd
  refine (hrecorded.inv cmd hcmd).imp id (Or.imp id ?_)
  rintro ⟨x, hx, hid, hstatus⟩
  obtain ⟨out, hprocess⟩ := hsound.results x hx
  have hcommandId : x.envelope.command.id = cmd.id := by
    rw [← hid, hprocess]
    exact (result_processCommand out d.crypto d.cfg d.rules x.envelope).1.symm
  refine ⟨x, hx, ?_, ⟨out, hprocess⟩, hstatus.symm, fun x' hx' hid' => ?_⟩
  · obtain ⟨cmd', hcmd', -, -, hdecode, -⟩ :=
      hsound.handed x.envelope (List.mem_append_left _ (List.mem_map_of_mem hx))
    rwa [Table.eq_of_key_eq hcmd' hcmd ((id_decode hdecode).symm.trans hcommandId)] at hdecode
  · have honce := hsound.each_once
    rw [EdgeSystem.taken, List.map_append, List.map_map] at honce
    exact List.inj_on_of_nodup_map honce.of_append_left hx' hx (hid'.trans hcommandId.symm)

/-- The agent executes the command, and its result comes in twice. -/
def reportedTwice : List EdgeEvent :=
  [.poll, .serve 0 { uuid := "" }, .serve 0 { uuid := "" }, .serve 0 { uuid := "" }, .receive,
    .execute reachable, .report 0 none none (some "acme"), .report 0 none none none,
    .serve 1 { uuid := "" }, .serve 1 { uuid := "" }, .serve 2 { uuid := "" },
    .serve 1 { uuid := "" }, .serve 1 { uuid := "" }]

theorem recorded_was_executed_reportedTwice :
    ∃ cmd ∈ (acmeSite.run (.start queuedAcme) reportedTwice).requests.state.commands,
      cmd.status = "COMPLETED" ∧
        ∃ x ∈ (acmeSite.run (.start queuedAcme) reportedTwice).executed,
          x.envelope.command.id = "cmd-1" ∧ x.result.status = "COMPLETED" := by
  have hall := recorded_was_executed acmeSite queuedAcme reportedTwice
    (by simp [queuedAcme, queuedQuery, DispatchCommandRequest.command, Table.mem_iff])
    (by simp [reportedTwice])
  obtain ⟨cmd, hcmd, hid, hstatus⟩ : ∃ cmd ∈
      (acmeSite.run (.start queuedAcme) reportedTwice).requests.state.commands,
      cmd.id = "cmd-1" ∧ cmd.status = "COMPLETED" := ⟨_, List.mem_singleton_self _, rfl, rfl⟩
  refine ⟨cmd, hcmd, hstatus, ?_⟩
  rcases hall cmd hcmd with h | h | ⟨x, hx, hdecode, -, h, -⟩
  · rw [hstatus] at h
    simp at h
  · rw [hstatus] at h
    simp at h
  · exact ⟨x, hx, (id_decode hdecode).trans hid, h.symm.trans hstatus⟩

end Runs

end FlowMesh
