import FlowMesh.Agent.Process
import FlowMesh.Library.Crew

/-!
# How the edge agent delivers its results

`ReportResult`, `bufferResult`, `DrainBuffer` and `SendHeartbeat` of the edge agent over the
SQLite table of `buffer.go`. The calls interleave in any way, and each request is answered in any
way: not at all, or with any status. The control plane has recorded a result when it answered a
request that carries it with a 2xx.

Both senders take every status below 500 for a delivery. So a result is safe in every run in which
the control plane answers each result with a 2xx or a 5xx, or not at all (`result_kept`), and it is
lost as soon as a drained result is answered with a 401, which is what the control plane says to a
request without the header `X-Tenant-ID`; `DrainBuffer` never sends it.
-/

namespace Go

/-! ## Through JSON and back -/

section Reread

variable (round : Float64 → Float64)

mutual

/-- What `json.Unmarshal` makes of the text that `json.Marshal` wrote; `round` reads a number. -/
def Value.reread : Value → Value
  | .null => .null
  | .bool b => .bool b
  | .number x => .number (round x)
  | .str s => .str s
  | .list l => .list (rereadItems l)
  | .obj items => .obj (rereadFields items)
termination_by structural v => v

/-- The items of an array. -/
def rereadItems : List Value → List Value
  | [] => []
  | v :: l => v.reread :: rereadItems l
termination_by structural l => l

/-- The members of an object. -/
def rereadFields : List (String × Value) → List (String × Value)
  | [] => []
  | p :: l => rereadField p :: rereadFields l
termination_by structural l => l

/-- One member of an object. -/
def rereadField : String × Value → String × Value
  | (k, v) => (k, v.reread)
termination_by structural p => p

end

end Reread

end Go

namespace FlowMesh

open Async

/-! ## `buffer.go` -/

/-- A row of `offline_buffer`, and a `BufferedEvent` read from it. -/
structure BufferedEvent where
  id : ℕ
  eventType : String
  payload : List (String × Go.Value)

/-- The table `offline_buffer`: ids ascend, and an id is given once. -/
structure Buffer where
  rows : List BufferedEvent
  next : ℕ
  sorted : rows.Pairwise (·.id < ·.id)
  fresh : ∀ ev ∈ rows, ev.id < next

namespace Buffer

/-- The table that `New` creates. -/
def new : Buffer := ⟨[], 1, .nil, nofun⟩

/-- `Enqueue`. -/
def enqueue (b : Buffer) (eventType : String) (payload : List (String × Go.Value)) : Buffer where
  rows := b.rows ++ [⟨b.next, eventType, payload⟩]
  next := b.next + 1
  sorted := by
    refine List.pairwise_append.2 ⟨b.sorted, List.pairwise_singleton _ _, fun ev hev ev' hev' => ?_⟩
    obtain rfl := List.mem_singleton.1 hev'
    exact b.fresh ev hev
  fresh := by
    intro ev hev
    rcases List.mem_append.1 hev with hev | hev
    · exact Nat.lt_succ_of_lt (b.fresh ev hev)
    · obtain rfl := List.mem_singleton.1 hev
      exact Nat.lt_succ_self _

/-- `Peek`: the oldest rows, with their payloads read from JSON. -/
def peek (round : Go.Float64 → Go.Float64) (b : Buffer) (limit : ℕ) : List BufferedEvent :=
  (b.rows.take limit).map fun ev => { ev with payload := Go.rereadFields round ev.payload }

/-- `Delete`. -/
def delete (b : Buffer) (ids : List ℕ) : Buffer where
  rows := b.rows.filter fun ev => ev.id ∉ ids
  next := b.next
  sorted := b.sorted.filter _
  fresh := fun ev hev => b.fresh ev (List.mem_filter.1 hev).1

theorem eq_of_id (b : Buffer) {row row' : BufferedEvent} (h : row ∈ b.rows) (h' : row' ∈ b.rows)
    (hid : row.id = row'.id) : row = row' := by
  have hnodup : (b.rows.map (·.id)).Nodup := List.pairwise_map.2 (b.sorted.imp Nat.ne_of_lt)
  exact List.inj_on_of_nodup_map hnodup h h' hid

end Buffer

/-! ## Requests -/

/-- A `POST` of a result: its URL, the header `X-Tenant-ID`, and the body. -/
structure ResultPost where
  url : String
  tenant : Option String
  body : List (String × Go.Value)

/-- The URL of a command's result. -/
def AgentConfig.resultUrl (cfg : AgentConfig) (cmdId : String) : String :=
  cfg.controlPlaneUrl ++ "/api/v1/agents/" ++ cfg.id ++ "/commands/" ++ cmdId ++ "/result"

/-- The fields of an `ExecutionResult` in JSON. -/
def ExecutionResult.body (res : ExecutionResult) : List (String × Go.Value) :=
  [("command_id", .str res.commandId), ("status", .str res.status)] ++
    (if res.result = [] then [] else [("result", .obj res.result)]) ++
    (if res.error = "" then [] else [("error", .str res.error)]) ++
    [("duration_ms", .number res.durationMs)]

/-- The request of `ReportResult`. -/
def ExecutionResult.post (res : ExecutionResult) (cfg : AgentConfig) : ResultPost where
  url := cfg.resultUrl res.commandId
  tenant := if cfg.tenantId = "" then none else some cfg.tenantId
  body := res.body

/-- The payload of `bufferResult`. -/
def ExecutionResult.payload (res : ExecutionResult) : List (String × Go.Value) :=
  [("command_id", .str res.commandId), ("status", .str res.status), ("error", .str res.error),
    ("result", if res.result = [] then .null else .obj res.result),
    ("duration_ms", .number res.durationMs)]

/-- The request of `DrainBuffer` for a payload; there is none without a command's id, and none
carries a tenant. -/
def drainPost (cfg : AgentConfig) (payload : List (String × Go.Value)) : Option ResultPost :=
  ((Go.Value.lookupStr "command_id" payload).filter (· ≠ "")).map fun cmdId =>
    ⟨cfg.resultUrl cmdId, none, payload⟩

/-! ## Calls -/

/-- What the agent awaits: an answer of the control plane, or the buffer. -/
inductive AgentOp
  | post (p : ResultPost)
  | heartbeat (payload : List (String × Go.Value))
  | enqueue (eventType : String) (payload : List (String × Go.Value))
  | peek (limit : ℕ)
  | delete (ids : List ℕ)

/-- What is answered: the status of a response, or what the buffer returns. -/
def AgentOp.Res : AgentOp → Type
  | .post _ => ℕ
  | .heartbeat _ => ℕ
  | .enqueue _ _ => ℕ
  | .peek _ => List BufferedEvent
  | .delete _ => Unit

/-- The agent's code; the exception is a request that got no response. -/
abbrev AgentM (α : Type) : Type := Prog AgentOp AgentOp.Res Unit α

/-- Make a call and look at its error. -/
def tryCall (o : AgentOp) : AgentM (Except Unit o.Res) := (Prog.perform o).attempt

/-- Send a result; the status of the response, or an error. -/
def sendResult (p : ResultPost) : AgentM (Except Unit ℕ) := tryCall (.post p)

/-- Send a heartbeat; the status of the response, or an error. -/
def postHeartbeat (payload : List (String × Go.Value)) : AgentM (Except Unit ℕ) :=
  tryCall (.heartbeat payload)

section Code

variable (cfg : AgentConfig)

/-- `bufferResult`. -/
def bufferResult (res : ExecutionResult) : AgentM Unit := do
  let _ ← tryCall (.enqueue "command_result" res.payload)

/-- `ReportResult`. -/
def reportResult (res : ExecutionResult) : AgentM Unit := do
  match ← sendResult (res.post cfg) with
  | .error _ => bufferResult res
  | .ok status => if 500 ≤ status then bufferResult res else pure ()

/-- `handleOfflineTelemetry`. -/
def handleOfflineTelemetry (payload : List (String × Go.Value)) : AgentM Unit := do
  let _ ← tryCall (.enqueue "heartbeat" payload)

/-- `SendHeartbeat`. -/
def sendHeartbeat (payload : List (String × Go.Value)) : AgentM Unit := do
  match ← postHeartbeat payload with
  | .error _ => handleOfflineTelemetry payload
  | .ok status => if 500 ≤ status then handleOfflineTelemetry payload else pure ()

/-- The loop of `DrainBuffer` and the deletion behind it. -/
def drainEvents (processedIds : List ℕ) : List BufferedEvent → AgentM Unit
  | [] =>
    if processedIds = [] then pure ()
    else do
      let _ ← tryCall (.delete processedIds)
  | ev :: events =>
    if ev.eventType = "command_result" then
      match drainPost cfg ev.payload with
      | none => drainEvents processedIds events
      | some post => do
        match ← sendResult post with
        | .error _ => drainEvents processedIds events
        | .ok status =>
          if status < 500 then drainEvents (processedIds ++ [ev.id]) events
          else drainEvents processedIds events
    else drainEvents (processedIds ++ [ev.id]) events

/-- `DrainBuffer`. -/
def drainBuffer : AgentM Unit := do
  match ← tryCall (.peek 20) with
  | .error _ => pure ()
  | .ok events => drainEvents cfg [] events

/-- A call of one of the agent's methods. -/
inductive AgentCall
  | reportResult (res : ExecutionResult)
  | drainBuffer
  | sendHeartbeat (payload : List (String × Go.Value))

/-- The code of a call. -/
def AgentCall.code : AgentCall → AgentM Unit
  | .reportResult res => FlowMesh.reportResult cfg res
  | .drainBuffer => FlowMesh.drainBuffer cfg
  | .sendHeartbeat payload => FlowMesh.sendHeartbeat payload

end Code

/-! ## The surroundings -/

/-- The buffer, and the requests that the control plane answered with a 2xx. -/
structure Delivery where
  buffer : Buffer
  recorded : List ResultPost

/-- A 2xx. -/
def isSuccess : Except Unit ℕ → Bool
  | .ok status => 200 ≤ status && status < 300
  | .error _ => false

/-- A working buffer, and a control plane that answers as it likes. -/
def Delivery.handle (round : Go.Float64 → Go.Float64) (_ : ℕ) (answer : Except Unit ℕ) :
    Handler AgentOp AgentOp.Res Unit Delivery
  | .post p, s => (answer, if isSuccess answer then { s with recorded := s.recorded ++ [p] } else s)
  | .heartbeat _, s => (answer, s)
  | .enqueue eventType payload, s =>
    (.ok s.buffer.next, { s with buffer := s.buffer.enqueue eventType payload })
  | .peek limit, s => (.ok (s.buffer.peek round limit), s)
  | .delete ids, s => (.ok (), { s with buffer := s.buffer.delete ids })

/-- The control plane answers a result with a 2xx or a 5xx, or not at all. -/
def ClearAnswers (_ : ℕ) (answer : Except Unit ℕ) (o : AgentOp) (_ : Delivery) : Prop :=
  match o, answer with
  | .post _, .ok status => isSuccess answer = true ∨ 500 ≤ status
  | _, _ => True

section Kept

variable (cfg : AgentConfig) (round : Go.Float64 → Go.Float64)

/-- A buffered result is in the buffer, or its drained request is recorded. -/
def Delivery.KeepsRow (s : Delivery) (payload : List (String × Go.Value)) : Prop :=
  (∃ ev ∈ s.buffer.rows, ev.eventType = "command_result" ∧ ev.payload = payload) ∨
    ∃ post ∈ s.recorded, drainPost cfg (Go.rereadFields round payload) = some post

/-- A result is recorded, or it is in the buffer. -/
def Delivery.Keeps (s : Delivery) (res : ExecutionResult) : Prop :=
  res.post cfg ∈ s.recorded ∨ s.KeepsRow cfg round res.payload

/-- No result is lost: neither one that is in the buffer at the start nor one whose
`ReportResult` has returned. -/
def Delivery.LosesNothing (start : Delivery) (calls : List AgentCall)
    (p : Crew AgentOp AgentOp.Res Unit Delivery Unit) : Prop :=
  (∀ ev ∈ start.buffer.rows, ev.eventType = "command_result" →
    p.state.KeepsRow cfg round ev.payload) ∧
  ∀ (i : ℕ) res, calls[i]? = some (AgentCall.reportResult res) → p.progs[i]? = some (Prog.pure ()) →
    p.state.Keeps cfg round res

end Kept

/-! ## One call -/

section Calls

variable {cfg : AgentConfig} {round : Go.Float64 → Go.Float64} {s s' : Delivery}

theorem tryCall_bind {β : Type} (o : AgentOp) (f : Except Unit o.Res → AgentM β) :
    tryCall o >>= f = .call o f := by
  refine congrArg (Prog.call o) (funext fun r => ?_)
  cases r <;> rfl

theorem sendResult_bind {β : Type} (p : ResultPost) (f : Except Unit ℕ → AgentM β) :
    sendResult p >>= f = .call (.post p) f :=
  tryCall_bind (.post p) f

theorem postHeartbeat_bind {β : Type} (payload : List (String × Go.Value))
    (f : Except Unit ℕ → AgentM β) : postHeartbeat payload >>= f = .call (.heartbeat payload) f :=
  tryCall_bind (.heartbeat payload) f

/-- What no call of the agent undoes: records stay, ids are not given again, no buffered result
is lost. -/
structure Delivery.Moves (cfg : AgentConfig) (round : Go.Float64 → Go.Float64)
    (s s' : Delivery) : Prop where
  recorded : s.recorded ⊆ s'.recorded
  next : s.buffer.next ≤ s'.buffer.next
  rows : ∀ ev ∈ s'.buffer.rows, ev ∈ s.buffer.rows ∨ s.buffer.next ≤ ev.id
  keeps : ∀ payload, s.KeepsRow cfg round payload → s'.KeepsRow cfg round payload

theorem Delivery.Moves.refl (s : Delivery) : s.Moves cfg round s :=
  ⟨fun _ h => h, le_rfl, fun _ h => Or.inl h, fun _ h => h⟩

theorem Delivery.Moves.trans {s'' : Delivery} (h : s.Moves cfg round s')
    (h' : s'.Moves cfg round s'') : s.Moves cfg round s'' := by
  refine ⟨fun _ hmem => h'.recorded (h.recorded hmem), h.next.trans h'.next, fun ev hev => ?_,
    fun payload hkeeps => h'.keeps _ (h.keeps _ hkeeps)⟩
  rcases h'.rows ev hev with hev | hnew
  · exact h.rows ev hev
  · exact Or.inr (h.next.trans hnew)

/-- The row of this id, if it is there, is the one that was read. -/
def Delivery.Seen (round : Go.Float64 → Go.Float64) (s : Delivery) (ev : BufferedEvent) : Prop :=
  ev.id < s.buffer.next ∧ ∀ row ∈ s.buffer.rows, row.id = ev.id →
    row.eventType = ev.eventType ∧ Go.rereadFields round row.payload = ev.payload

/-- The row of this id, if it is there and is a result, is recorded. -/
def Delivery.Processed (cfg : AgentConfig) (round : Go.Float64 → Go.Float64) (s : Delivery)
    (id : ℕ) : Prop :=
  id < s.buffer.next ∧ ∀ row ∈ s.buffer.rows, row.id = id → row.eventType = "command_result" →
    ∃ post ∈ s.recorded, drainPost cfg (Go.rereadFields round row.payload) = some post

theorem Delivery.Seen.moves {ev : BufferedEvent} (h : s.Seen round ev)
    (hmoves : s.Moves cfg round s') : s'.Seen round ev := by
  refine ⟨lt_of_lt_of_le h.1 hmoves.next, fun row hrow hid => ?_⟩
  rcases hmoves.rows row hrow with hrow | hnew
  · exact h.2 row hrow hid
  · exact absurd h.1 (by omega)

theorem Delivery.Processed.moves {id : ℕ} (h : s.Processed cfg round id)
    (hmoves : s.Moves cfg round s') : s'.Processed cfg round id := by
  refine ⟨lt_of_lt_of_le h.1 hmoves.next, fun row hrow hid htype => ?_⟩
  rcases hmoves.rows row hrow with hrow | hnew
  · obtain ⟨post, hpost, hdrain⟩ := h.2 row hrow hid htype
    exact ⟨post, hmoves.recorded hpost, hdrain⟩
  · exact absurd h.1 (by omega)

theorem Delivery.Keeps.moves {res : ExecutionResult} (h : s.Keeps cfg round res)
    (hmoves : s.Moves cfg round s') : s'.Keeps cfg round res := by
  rcases h with h | h
  · exact Or.inl (hmoves.recorded h)
  · exact Or.inr (hmoves.keeps _ h)

/-- An answer to a request adds at most a record. -/
theorem Delivery.moves_post (i : ℕ) (answer : Except Unit ℕ) (p : ResultPost) :
    s.Moves cfg round (handle round i answer (.post p) s).2 := by
  simp only [handle]
  split_ifs
  · refine ⟨fun _ h => List.mem_append_left _ h, le_rfl, fun _ h => Or.inl h, fun payload h => ?_⟩
    rcases h with h | ⟨post, hpost, hdrain⟩
    · exact Or.inl h
    · exact Or.inr ⟨post, List.mem_append_left _ hpost, hdrain⟩
  · exact .refl s

theorem Delivery.moves_enqueue (i : ℕ) (answer : Except Unit ℕ) (eventType : String)
    (payload : List (String × Go.Value)) :
    s.Moves cfg round (handle round i answer (.enqueue eventType payload) s).2 := by
  refine ⟨fun _ h => h, Nat.le_succ _, fun ev hev => ?_, fun payload h => ?_⟩
  · rcases List.mem_append.1 hev with hev | hev
    · exact Or.inl hev
    · obtain rfl := List.mem_singleton.1 hev
      exact Or.inr le_rfl
  · rcases h with ⟨ev, hev, h⟩ | h
    · exact Or.inl ⟨ev, List.mem_append_left _ hev, h⟩
    · exact Or.inr h

/-- Processed rows may go. -/
theorem Delivery.moves_delete (i : ℕ) (answer : Except Unit ℕ) {ids : List ℕ}
    (hids : ∀ id ∈ ids, s.Processed cfg round id) :
    s.Moves cfg round (handle round i answer (.delete ids) s).2 := by
  refine ⟨fun _ h => h, le_rfl, fun ev hev => Or.inl (List.mem_filter.1 hev).1, fun payload h => ?_⟩
  rcases h with ⟨ev, hev, htype, rfl⟩ | h
  · by_cases hmem : ev.id ∈ ids
    · exact Or.inr ((hids ev.id hmem).2 ev hev rfl htype)
    · exact Or.inl ⟨ev, List.mem_filter.2 ⟨hev, by simpa using hmem⟩, htype, rfl⟩
  · exact Or.inr h

/-- A buffered result is kept. -/
theorem Delivery.keeps_enqueue (i : ℕ) (answer : Except Unit ℕ) (res : ExecutionResult) :
    (handle round i answer (.enqueue "command_result" res.payload) s).2.Keeps cfg round res :=
  Or.inr (Or.inl ⟨_, List.mem_append_right _ (List.mem_singleton_self _), rfl, rfl⟩)

/-- What `Peek` returns is what the rows hold. -/
theorem Delivery.seen_peek {limit : ℕ} {ev : BufferedEvent} (hev : ev ∈ s.buffer.peek round limit) :
    s.Seen round ev := by
  obtain ⟨row, hrow, rfl⟩ := List.mem_map.1 hev
  have hmem : row ∈ s.buffer.rows := List.mem_of_mem_take hrow
  refine ⟨s.buffer.fresh row hmem, fun row' hrow' hid => ?_⟩
  obtain rfl := s.buffer.eq_of_id hrow' hmem hid
  exact ⟨rfl, rfl⟩

end Calls

/-! ## All calls -/

section Runs

variable {cfg : AgentConfig} {round : Go.Float64 → Go.Float64} {s s' : Delivery}
  {call : AgentCall} {q : AgentM Unit}

/-- What is known of a call of the agent, by the code that is left of it. -/
inductive AgentCall.Knows (cfg : AgentConfig) (round : Go.Float64 → Go.Float64) (s : Delivery) :
    AgentCall → AgentM Unit → Prop
  | start (call : AgentCall) : Knows cfg round s call (call.code cfg)
  | buffering (res : ExecutionResult) :
      Knows cfg round s (.reportResult res) (FlowMesh.bufferResult res)
  | reported {res : ExecutionResult} (h : s.Keeps cfg round res) :
      Knows cfg round s (.reportResult res) (.pure ())
  | draining {processedIds : List ℕ} {events : List BufferedEvent}
      (hids : ∀ id ∈ processedIds, s.Processed cfg round id)
      (hevents : ∀ ev ∈ events, s.Seen round ev) :
      Knows cfg round s .drainBuffer (drainEvents cfg processedIds events)
  | drained : Knows cfg round s .drainBuffer (.pure ())
  | offline (payload : List (String × Go.Value)) :
      Knows cfg round s (.sendHeartbeat payload) (handleOfflineTelemetry payload)
  | sent (payload : List (String × Go.Value)) :
      Knows cfg round s (.sendHeartbeat payload) (.pure ())

theorem AgentCall.Knows.moves (h : AgentCall.Knows cfg round s call q)
    (hmoves : s.Moves cfg round s') : AgentCall.Knows cfg round s' call q := by
  cases h with
  | start => exact .start call
  | buffering res => exact .buffering res
  | reported h => exact .reported (h.moves hmoves)
  | draining hids hevents =>
    exact .draining (fun id hid => (hids id hid).moves hmoves)
      fun ev hev => (hevents ev hev).moves hmoves
  | drained => exact .drained
  | offline payload => exact .offline payload
  | sent payload => exact .sent payload

/-- What a call of the buffer or the control plane leads to. -/
def AgentCall.Leads (cfg : AgentConfig) (round : Go.Float64 → Go.Float64) (i : ℕ)
    (answer : Except Unit ℕ) (call : AgentCall) (o : AgentOp) (k : Except Unit o.Res → AgentM Unit)
    (s : Delivery) : Prop :=
  AgentCall.Knows cfg round (Delivery.handle round i answer o s).2 call
      (k (Delivery.handle round i answer o s).1) ∧
    s.Moves cfg round (Delivery.handle round i answer o s).2

variable {i : ℕ} {answer : Except Unit ℕ} {o : AgentOp} {k : Except Unit o.Res → AgentM Unit}

/-- A status below 500 means that the result is recorded. -/
theorem recorded_of_clear (round : Go.Float64 → Go.Float64) {p : ResultPost} {status : ℕ}
    (hG : ClearAnswers i (.ok status) (.post p) s) (hlt : ¬ 500 ≤ status) :
    p ∈ (Delivery.handle round i (.ok status) (.post p) s).2.recorded := by
  have hsuccess : isSuccess (.ok status) = true := hG.resolve_right hlt
  simp [Delivery.handle, hsuccess]

theorem reportResult_leads {res : ExecutionResult}
    (hk : reportResult cfg res = .call o k) (hG : ClearAnswers i answer o s) :
    AgentCall.Leads cfg round i answer (.reportResult res) o k s := by
  rw [reportResult, sendResult_bind] at hk
  cases hk
  refine ⟨?_, Delivery.moves_post i answer _⟩
  cases answer with
  | error e => exact .buffering res
  | ok status =>
    simp only [Delivery.handle]
    by_cases hstatus : 500 ≤ status
    · rw [if_pos hstatus]
      exact .buffering res
    · rw [if_neg hstatus]
      exact .reported (Or.inl (recorded_of_clear round hG hstatus))

/-- The loop goes on to its next request or to the deletion. -/
theorem drainEvents_leads {processedIds : List ℕ} {events : List BufferedEvent}
    (hids : ∀ id ∈ processedIds, s.Processed cfg round id)
    (hevents : ∀ ev ∈ events, s.Seen round ev)
    (hk : drainEvents cfg processedIds events = .call o k) (hG : ClearAnswers i answer o s) :
    AgentCall.Leads cfg round i answer .drainBuffer o k s := by
  induction events generalizing processedIds with
  | nil =>
    rw [drainEvents] at hk
    split_ifs at hk with hnil
    rw [tryCall_bind] at hk
    cases hk
    exact ⟨.drained, Delivery.moves_delete i answer hids⟩
  | cons ev events ih =>
    have hev : s.Seen round ev := hevents ev (List.mem_cons_self ..)
    have hrest : ∀ ev ∈ events, s.Seen round ev := fun ev h => hevents ev (List.mem_cons_of_mem _ h)
    rw [drainEvents] at hk
    split_ifs at hk with htype
    · cases hpost : drainPost cfg ev.payload with
      | none =>
        rw [hpost] at hk
        exact ih hids hrest hk
      | some post =>
        rw [hpost] at hk
        simp only [sendResult_bind] at hk
        cases hk
        have hmoves : s.Moves cfg round (Delivery.handle round i answer (.post post) s).2 :=
          Delivery.moves_post i answer post
        have hrest' := fun ev h => (hrest ev h).moves hmoves
        have hids' := fun id h => (hids id h).moves hmoves
        refine ⟨?_, hmoves⟩
        cases answer with
        | error e => exact .draining hids' hrest'
        | ok status =>
          simp only [Delivery.handle]
          by_cases hstatus : status < 500
          · rw [if_pos hstatus]
            refine .draining (fun id hid => ?_) hrest'
            rcases List.mem_append.1 hid with hid | hid
            · exact hids' id hid
            · obtain rfl := List.mem_singleton.1 hid
              have hev' := hev.moves hmoves
              refine ⟨hev'.1, fun row hrow hrid _ => ⟨post, ?_, ?_⟩⟩
              · exact recorded_of_clear round hG (by omega)
              · rw [(hev'.2 row hrow hrid).2, hpost]
          · rw [if_neg hstatus]
            exact .draining hids' hrest'
    · -- a row of another type is processed unsent
      refine ih (fun id hid => ?_) hrest hk
      rcases List.mem_append.1 hid with hid | hid
      · exact hids id hid
      · obtain rfl := List.mem_singleton.1 hid
        exact ⟨hev.1, fun row hrow hrid hresult =>
          absurd ((hev.2 row hrow hrid).1.symm.trans hresult) htype⟩

theorem AgentCall.code_leads (call : AgentCall) (hk : call.code cfg = .call o k)
    (hG : ClearAnswers i answer o s) : AgentCall.Leads cfg round i answer call o k s := by
  cases call with
  | reportResult res => exact reportResult_leads hk hG
  | drainBuffer =>
    rw [code, FlowMesh.drainBuffer, tryCall_bind] at hk
    cases hk
    exact ⟨.draining nofun fun ev hev => Delivery.seen_peek hev, .refl s⟩
  | sendHeartbeat payload =>
    rw [code, FlowMesh.sendHeartbeat, postHeartbeat_bind] at hk
    cases hk
    refine ⟨?_, .refl s⟩
    cases answer with
    | error e => exact .offline payload
    | ok status =>
      simp only [Delivery.handle]
      split_ifs
      · exact .offline payload
      · exact .sent payload

theorem AgentCall.Knows.leads (h : AgentCall.Knows cfg round s call (.call o k))
    (hG : ClearAnswers i answer o s) : AgentCall.Leads cfg round i answer call o k s := by
  generalize hq : (Prog.call o k : AgentM Unit) = q at h
  cases h with
  | start => exact AgentCall.code_leads call hq.symm hG
  | buffering res =>
    rw [bufferResult, tryCall_bind] at hq
    cases hq
    exact ⟨.reported (Delivery.keeps_enqueue i answer res), Delivery.moves_enqueue i answer _ _⟩
  | reported h => cases hq
  | draining hids hevents => exact drainEvents_leads hids hevents hq.symm hG
  | drained => cases hq
  | offline payload =>
    rw [handleOfflineTelemetry, tryCall_bind] at hq
    cases hq
    exact ⟨.sent payload, Delivery.moves_enqueue i answer _ _⟩
  | sent payload => cases hq

/-- A `ReportResult` that has returned has kept its result. -/
theorem AgentCall.Knows.reported_keeps {res : ExecutionResult}
    (h : AgentCall.Knows cfg round s (.reportResult res) (.pure ())) : s.Keeps cfg round res := by
  generalize hcall : AgentCall.reportResult res = call at h
  generalize hq : (Prog.pure () : AgentM Unit) = q at h
  cases h with
  | start =>
    rw [← hcall, code, FlowMesh.reportResult, sendResult_bind] at hq
    cases hq
  | buffering res =>
    rw [bufferResult, tryCall_bind] at hq
    cases hq
  | reported h =>
    cases hcall
    exact h
  | _ => cases hcall

/-- The outline of the agent's calls, from the state `start` on. -/
def deliveryOutline (cfg : AgentConfig) (round : Go.Float64 → Go.Float64) (start : Delivery)
    (calls : List AgentCall) : Crew.Outline (Delivery.handle round) ClearAnswers Unit where
  inv s := start.Moves cfg round s
  known i q s := ∃ call, calls[i]? = some call ∧ AgentCall.Knows cfg round s call q
  moves _ s s' := s.Moves cfg round s'
  call := by
    rintro i answer o k s hinv ⟨call, hcall, hknows⟩ hG
    obtain ⟨hnext, hmoves⟩ := hknows.leads hG
    exact ⟨hinv.trans hmoves, ⟨call, hcall, hnext⟩, hmoves⟩
  stable := by
    rintro i j q s s' - - ⟨call, hcall, hknows⟩ hmoves
    exact ⟨call, hcall, hknows.moves hmoves⟩

end Runs

/-- **No result is lost** in any run in which the control plane answers each result with a 2xx or a
5xx, or not at all. -/
theorem result_kept (cfg : AgentConfig) (round : Go.Float64 → Go.Float64) (start : Delivery)
    (calls : List AgentCall) (p : Crew AgentOp AgentOp.Res Unit Delivery Unit)
    (hrun : Crew.Runs (Delivery.handle round) ClearAnswers ⟨start, calls.map (·.code cfg)⟩ p) :
    start.LosesNothing cfg round calls p := by
  have hstart : (deliveryOutline cfg round start calls).Holds ⟨start, calls.map (·.code cfg)⟩ := by
    refine ⟨.refl start, fun i q hq => ?_⟩
    obtain ⟨call, hcall, rfl⟩ := by simpa using hq
    exact ⟨call, hcall, .start call⟩
  obtain ⟨hinv, hknown⟩ := Crew.Outline.run hstart hrun
  refine ⟨fun ev hev htype => hinv.keeps _ (Or.inl ⟨ev, hev, htype, rfl⟩), fun i res hres hq => ?_⟩
  obtain ⟨call, hcall, hknows⟩ := hknown i _ hq
  obtain rfl := Option.some.inj (hres.symm.trans hcall)
  exact hknows.reported_keeps

/-- A result, and the calls that report it and drain the buffer. -/
def orderResult : ExecutionResult :=
  { commandId := "cmd-1", status := "COMPLETED", durationMs := ⟨1, "1"⟩ }

/-- The agent reports while the control plane is down, and drains its buffer later. -/
def lateReport : Crew AgentOp AgentOp.Res Unit Delivery Unit where
  state := ⟨.new, []⟩
  progs := [AgentCall.reportResult orderResult, .drainBuffer].map (·.code ({} : Flags).config)

/-- Report and drain, with the answers to the two requests. -/
def lateAnswers (reported drained : ℕ) : List (ℕ × Except Unit ℕ) :=
  [(0, .ok reported), (0, .ok reported), (1, .ok drained), (1, .ok drained), (1, .ok drained)]

/-- A control plane that comes back takes the result from the buffer. -/
theorem result_kept_late : ∃ p : Crew AgentOp AgentOp.Res Unit Delivery Unit,
    Crew.Runs (Delivery.handle id) ClearAnswers lateReport p ∧
      p.progs[0]? = some (Prog.pure ()) ∧ p.state.buffer.rows.length = 0 ∧
      lateReport.state.LosesNothing ({} : Flags).config id
        [AgentCall.reportResult orderResult, .drainBuffer] p := by
  have hclear : ∀ i o s status, status = 503 ∨ status = 200 → ClearAnswers i (.ok status) o s := by
    intro i o s status hstatus
    cases o with
    | post p => rcases hstatus with rfl | rfl <;> simp [ClearAnswers, isSuccess]
    | _ => trivial
  have hrun : Crew.Runs (Delivery.handle id) ClearAnswers lateReport
      (Crew.play (Delivery.handle id) lateReport (lateAnswers 503 200)) := by
    refine Crew.runs_play _ ?_
    simp [lateAnswers, Crew.Allows, hclear]
  exact ⟨_, hrun, rfl, rfl, result_kept _ _ _ _ _ hrun⟩

/-- A control plane that comes back and asks for the tenant makes the agent drop the result. -/
theorem not_result_kept_unauthorized :
    ¬ ∀ cfg round (start : Delivery) calls (p : Crew AgentOp AgentOp.Res Unit Delivery Unit),
      Crew.Runs (Delivery.handle round) (fun _ _ _ _ => True)
        ⟨start, calls.map (AgentCall.code cfg)⟩ p → start.LosesNothing cfg round calls p := by
  intro hall
  have hrun : Crew.Runs (Delivery.handle id) (fun _ _ _ _ => True) lateReport
      (Crew.play (Delivery.handle id) lateReport (lateAnswers 503 401)) := by
    refine Crew.runs_play _ ?_
    simp [lateAnswers, Crew.Allows]
  obtain ⟨-, hkeeps⟩ := hall _ _ _ [AgentCall.reportResult orderResult, .drainBuffer] _ hrun
  have hlost : (Crew.play (Delivery.handle id) lateReport (lateAnswers 503 401)).state =
      ⟨⟨[], 2, .nil, nofun⟩, []⟩ := rfl
  have h := hkeeps 0 orderResult rfl rfl
  rw [hlost] at h
  simp [Delivery.Keeps, Delivery.KeepsRow] at h

end FlowMesh
