import Mathlib.Data.List.Pairwise
import FlowMesh.Api.Routers
import FlowMesh.Auth.ApiKeys
import FlowMesh.Library.Crew
import FlowMesh.Library.Table

/-!
# Enrolling agents

`generate_enrollment_token`, `enroll_agent` and `receive_heartbeat` of `routers/agents.py`, and
`AgentRepository` behind them, as programs over the awaited calls. A token is in at most one row;
an enrolment looks it up twice, and clears it with the statement that activates the agent.

`token_single_use`: whatever requests interleave, all enrolments that succeed with a token are of
one agent, and none of them began after another one had ended.
-/

namespace FlowMesh.Fleet

open Python Database Async

/-! ## Rows -/

/-- `AgentConnectorHealth`. -/
structure AgentConnectorHealth where
  name : String
  status : String
  type : String
  deriving DecidableEq

/-- `AgentRecord`. -/
structure AgentRecord where
  id : String
  tenantId : String
  name : String
  version : String
  status : String
  publicKey : Option String
  cpuPercent : ℚ := 0
  memoryPercent : ℚ := 0
  queueDepth : ℤ := 0
  policyStatus : String := "enforced"
  connectors : List AgentConnectorHealth
  lastHeartbeatAt : Option ℤ
  enrollmentToken : Option String

/-- The tokens of some rows. -/
def tokens (rows : List AgentRecord) : List String := rows.filterMap (·.enrollmentToken)

/-- The tables `agents` and `audit_events`. The column `enrollment_token` is unique. -/
structure FleetStore where
  agents : Table AgentRecord String AgentRecord.id
  unique : (tokens agents.rows).Nodup
  audits : List (String × String × String × String) := []

/-! ## Calls -/

/-- `AgentEnrollRequest`. -/
structure AgentEnrollRequest where
  enrollmentToken : String
  name : String
  version : String := "v0.5.0"
  publicKey : Option String := none

/-- `AgentHeartbeatRequest`. -/
structure AgentHeartbeatRequest where
  cpuPercent : ℚ
  memoryPercent : ℚ
  queueDepth : ℤ := 0
  connectors : List AgentConnectorHealth := []

/-- The calls of the three requests. -/
inductive FleetOp
  | tokenUrlsafe
  | uuid
  | now
  | insertAgent (record : AgentRecord)
  | recordAudit (tenant actor action resource : String)
  | byToken (token : String)
  | byTokenOf (tenant token : String)
  | byId (agentId : String)
  | byIdOf (tenant agentId : String)
  | commitEnrolled (loaded : AgentRecord) (payload : AgentEnrollRequest) (now : ℤ)
  | commitHeartbeat (loaded : AgentRecord) (payload : AgentHeartbeatRequest) (now : ℤ)
  | refresh (agentId : String)

/-- What the calls return. -/
abbrev FleetOp.Res : FleetOp → Type
  | .tokenUrlsafe | .uuid => String
  | .now => ℤ
  | .insertAgent _ | .recordAudit _ _ _ _ | .commitEnrolled _ _ _ | .commitHeartbeat _ _ _ => Unit
  | .byToken _ | .byTokenOf _ _ | .byId _ | .byIdOf _ _ => Option AgentRecord
  | .refresh _ => AgentRecord

/-- The code of the router. -/
abbrev FleetM (α : Type) : Type := Prog FleetOp FleetOp.Res PyError α

/-- Await a call. -/
abbrev ask (o : FleetOp) : FleetM o.Res := Prog.perform o

/-- What a request cannot know. -/
structure Surroundings where
  token : String := ""
  uuid : String := ""
  now : ℤ := 0
  /-- The exception of the call, and whether the statement was carried out before it. -/
  fault : Option (PyError × Bool) := none

/-- The token of a draw. -/
def enrollmentToken (random : String) : String := "flm_enroll_" ++ random

/-- A column of an `UPDATE`: one that was not changed since it was loaded is left out. -/
def assigned {β : Type} [DecidableEq β] (loaded new current : β) : β :=
  if new = loaded then current else new

/-- The row after `enroll_agent` of the repository. -/
def AgentRecord.enrolled (loaded : AgentRecord) (payload : AgentEnrollRequest) (now : ℤ)
    (row : AgentRecord) : AgentRecord :=
  { row with
    name := assigned loaded.name (if payload.name = "" then loaded.name else payload.name) row.name
    version := assigned loaded.version
      (if payload.version = "" then loaded.version else payload.version) row.version
    publicKey := assigned loaded.publicKey
      (if payload.publicKey.getD "" = "" then loaded.publicKey else payload.publicKey) row.publicKey
    status := assigned loaded.status "ONLINE" row.status
    lastHeartbeatAt := assigned loaded.lastHeartbeatAt (some now) row.lastHeartbeatAt
    enrollmentToken := assigned loaded.enrollmentToken none row.enrollmentToken }

/-- The row after `update_heartbeat`. -/
def AgentRecord.beaten (loaded : AgentRecord) (payload : AgentHeartbeatRequest) (now : ℤ)
    (row : AgentRecord) : AgentRecord :=
  { row with
    cpuPercent := assigned loaded.cpuPercent payload.cpuPercent row.cpuPercent
    memoryPercent := assigned loaded.memoryPercent payload.memoryPercent row.memoryPercent
    queueDepth := assigned loaded.queueDepth payload.queueDepth row.queueDepth
    status := assigned loaded.status "ONLINE" row.status
    lastHeartbeatAt := assigned loaded.lastHeartbeatAt (some now) row.lastHeartbeatAt
    connectors := assigned loaded.connectors payload.connectors row.connectors }

theorem assigned_eq_or {β : Type} [DecidableEq β] (loaded new current : β) :
    assigned loaded new current = current ∨ assigned loaded new current = new := by
  unfold assigned
  split_ifs
  · exact Or.inl rfl
  · exact Or.inr rfl

namespace AgentRecord

variable (loaded row : AgentRecord) (now : ℤ)

theorem id_enrolled (payload : AgentEnrollRequest) :
    (loaded.enrolled payload now row).id = row.id := rfl

theorem token_enrolled (payload : AgentEnrollRequest) :
    (loaded.enrolled payload now row).enrollmentToken = row.enrollmentToken ∨
      (loaded.enrolled payload now row).enrollmentToken = none := assigned_eq_or ..

theorem id_beaten (payload : AgentHeartbeatRequest) :
    (loaded.beaten payload now row).id = row.id := rfl

theorem token_beaten (payload : AgentHeartbeatRequest) :
    (loaded.beaten payload now row).enrollmentToken = row.enrollmentToken ∨
      (loaded.beaten payload now row).enrollmentToken = none := Or.inl rfl

end AgentRecord

/-- Rewriting rows so that each keeps its token or loses it. -/
theorem tokens_map_sublist {f : AgentRecord → AgentRecord}
    (hf : ∀ row, (f row).enrollmentToken = row.enrollmentToken ∨ (f row).enrollmentToken = none)
    (rows : List AgentRecord) : (tokens (rows.map f)).Sublist (tokens rows) := by
  unfold tokens
  induction rows with
  | nil => exact .slnil
  | cons row rows ih =>
    rw [List.map_cons, List.filterMap_cons, List.filterMap_cons]
    rcases hf row with h | h
    · rw [h]
      cases row.enrollmentToken with
      | none => exact ih
      | some token => exact ih.cons_cons token
    · rw [h]
      cases row.enrollmentToken with
      | none => exact ih
      | some token => exact ih.cons token

namespace FleetStore

/-- `UPDATE agents SET .. WHERE id = ..`. -/
def updateAgent (s : FleetStore) (agentId : String) (f : AgentRecord → AgentRecord)
    (hid : ∀ row, (f row).id = row.id)
    (htoken : ∀ row, (f row).enrollmentToken = row.enrollmentToken ∨
      (f row).enrollmentToken = none) : FleetStore where
  agents := s.agents.update (·.id = agentId) f hid
  unique := by
    refine s.unique.sublist (tokens_map_sublist (fun row => ?_) _)
    split
    · exact htoken row
    · exact Or.inl rfl
  audits := s.audits

/-- `INSERT INTO agents`; both indexes are unique. -/
def insertAgent? (s : FleetStore) (record : AgentRecord) : Option FleetStore :=
  if hid : record.id ∈ s.agents.rows.map (·.id) then none
  else if htoken : (tokens (s.agents.rows ++ [record])).Nodup then
    some ⟨s.agents.push record hid, htoken, s.audits⟩
  else none

/-- The row with a token. -/
def byToken (s : FleetStore) (token : String) : Option AgentRecord :=
  s.agents.rows.find? (·.enrollmentToken = some token)

/-- What the statements do. -/
def effect (c : Surroundings) : Handler FleetOp FleetOp.Res PyError FleetStore
  | .tokenUrlsafe, s => (.ok c.token, s)
  | .uuid, s => (.ok c.uuid, s)
  | .now, s => (.ok c.now, s)
  | .insertAgent record, s =>
    match s.insertAgent? record with
    | some s' => (.ok (), s')
    | none => (.error ⟨.integrityError, "UNIQUE constraint failed: agents"⟩, s)
  | .recordAudit tenant actor action resource, s =>
    (.ok (), { s with audits := s.audits ++ [(tenant, actor, action, resource)] })
  | .byToken token, s => (.ok (s.byToken token), s)
  | .byTokenOf tenant token, s => (.ok ((s.byToken token).filter (·.tenantId = tenant)), s)
  | .byId agentId, s => (.ok (s.agents.get? agentId), s)
  | .byIdOf tenant agentId, s => (.ok ((s.agents.get? agentId).filter (·.tenantId = tenant)), s)
  | .commitEnrolled loaded payload now, s =>
    (.ok (), s.updateAgent loaded.id (loaded.enrolled payload now)
      (loaded.id_enrolled · now payload) (loaded.token_enrolled · now payload))
  | .commitHeartbeat loaded payload now, s =>
    (.ok (), s.updateAgent loaded.id (loaded.beaten payload now)
      (loaded.id_beaten · now payload) (loaded.token_beaten · now payload))
  | .refresh agentId, s =>
    match s.agents.get? agentId with
    | some row => (.ok row, s)
    | none => (.error ⟨.other, "Could not refresh instance"⟩, s)

/-- What the calls do in their surroundings. -/
def handle (_ : ℕ) (c : Surroundings) : Handler FleetOp FleetOp.Res PyError FleetStore
  | o, s =>
    match c.fault with
    | some (e, carriedOut) => (.error e, if carriedOut then (effect c o s).2 else s)
    | none => effect c o s

end FleetStore

/-! ## Requests -/

/-- The user behind a request. -/
structure Auth where
  tenantId : String
  email : String
  role : String

/-- `AgentEnrollResponse`. -/
structure AgentEnrollResponse where
  agentId : String
  tenantId : String
  controlPlanePublicKey : String
  status : String

/-- What the router answers. -/
inductive FleetResponse
  | token (enrollmentToken installCommand : String)
  | enrolled (response : AgentEnrollResponse)
  | acknowledged (agentId : String) (timestamp : Option ℤ)

section Code

/-- `enforce_rbac`. -/
def enforceRbac (auth : Auth) (resource action : String) : FleetM Unit :=
  if isAllowed auth.role resource action then return ()
  else .throw (httpException 403 ("RBAC Forbidden: Role '" ++ auth.role ++ "' cannot perform '" ++
    action ++ "' on resource '" ++ resource ++ "'"))

/-- `AgentRepository(db, tenant_id)`. -/
def agentRepository (tenant : String) : FleetM Unit :=
  if tenant = "" then
    .throw ⟨.valueError, "TenantScopedRepository requires an explicit non-empty tenant_id"⟩
  else return ()

/-- `create_agent` with a token. -/
def createAgent (tenant agentId name version token : String) : FleetM Unit := do
  ask (.insertAgent
    { id := agentId
      tenantId := tenant
      name
      version
      status := "OFFLINE"
      publicKey := none
      connectors := []
      lastHeartbeatAt := none
      enrollmentToken := some token })
  let _ ← ask (.refresh agentId)

/-- `generate_enrollment_token`. -/
def generateEnrollmentToken (auth : Auth) : FleetM FleetResponse := do
  enforceRbac auth "agent" "create"
  agentRepository auth.tenantId
  let random ← ask .tokenUrlsafe
  let token := enrollmentToken random
  let uuid ← ask .uuid
  let tempAgentId := "agent-" ++ String.ofList (uuid.toList.take 8)
  createAgent auth.tenantId tempAgentId ("Pending Agent (" ++ tempAgentId ++ ")") "v0.5.0" token
  ask (.recordAudit auth.tenantId auth.email "agent.generate_enrollment_token"
    ("agent:" ++ tempAgentId))
  return .token token
    ("curl -fsSL https://install.flowmesh.dev | sh -s -- --token " ++ token)

/-- The object of the session for a row: its attributes are those of the first load. -/
def identified (first row : AgentRecord) : AgentRecord := if row.id = first.id then first else row

/-- `enroll_agent`, with `enroll_agent` of the repository; the key is that of the signer. -/
def enrollAgent (publicKey : String) (payload : AgentEnrollRequest) : FleetM FleetResponse := do
  match ← ask (.byToken payload.enrollmentToken) with
  | none => .throw (httpException 404 "Invalid or expired enrollment token")
  | some first => do
    agentRepository first.tenantId
    match ← ask (.byTokenOf first.tenantId payload.enrollmentToken) with
    | none => .throw (httpException 400 "Failed to enroll agent")
    | some row => do
      let agent := identified first row
      let now ← ask .now
      ask (.commitEnrolled agent payload now)
      let enrolled ← ask (.refresh agent.id)
      return .enrolled ⟨enrolled.id, enrolled.tenantId, publicKey, enrolled.status⟩

/-- `receive_heartbeat`, with `update_heartbeat` of the repository. -/
def receiveHeartbeat (agentId : String) (payload : AgentHeartbeatRequest)
    (xTenantId : Option String) : FleetM FleetResponse := do
  match ← (if xTenantId.getD "" = "" then ask (.byId agentId)
      else ask (.byIdOf (xTenantId.getD "") agentId)) with
  | none => .throw (httpException 404 ("Agent '" ++ agentId ++ "' not found"))
  | some first => do
    agentRepository first.tenantId
    match ← ask (.byIdOf first.tenantId first.id) with
    | none => return .acknowledged first.id none
    | some _ => do
      let now ← ask .now
      ask (.commitHeartbeat first payload now)
      let updated ← ask (.refresh first.id)
      return .acknowledged first.id updated.lastHeartbeatAt

/-- A request. -/
inductive FleetRequest
  | generateEnrollmentToken (auth : Auth)
  | enrollAgent (payload : AgentEnrollRequest)
  | receiveHeartbeat (agentId : String) (payload : AgentHeartbeatRequest)
      (xTenantId : Option String)

/-- The code of a request. -/
def FleetRequest.code (publicKey : String) : FleetRequest → FleetM FleetResponse
  | .generateEnrollmentToken auth => Fleet.generateEnrollmentToken auth
  | .enrollAgent payload => Fleet.enrollAgent publicKey payload
  | .receiveHeartbeat agentId payload xTenantId => Fleet.receiveHeartbeat agentId payload xTenantId

/-- Requests in progress. -/
abbrev FleetCrew : Type := Crew FleetOp FleetOp.Res PyError FleetStore FleetResponse

/-- Requests to a store, before any of them is served. -/
def incoming (publicKey : String) (s : FleetStore) (requests : List FleetRequest) : FleetCrew :=
  ⟨s, requests.map (·.code publicKey)⟩

end Code

/-! ## What becomes of a token -/

namespace FleetStore

/-- The agents are still those of their tenants, and no row has come by the token `T`. -/
structure Continues (T : String) (s s' : FleetStore) : Prop where
  kept : ∀ row ∈ s.agents, ∃ row' ∈ s'.agents, row'.id = row.id ∧ row'.tenantId = row.tenantId
  holder : ∀ row' ∈ s'.agents, row'.enrollmentToken = some T →
    ∃ row ∈ s.agents, row.id = row'.id ∧ row.tenantId = row'.tenantId ∧
      row.enrollmentToken = some T

/-- The token is that of the agent `agentId` of a tenant, if it is anybody's. -/
def Held (T agentId tenantId : String) (s : FleetStore) : Prop :=
  ∀ row ∈ s.agents, row.enrollmentToken = some T → row.id = agentId ∧ row.tenantId = tenantId

/-- Nobody has the token. -/
def Spent (T : String) (s : FleetStore) : Prop :=
  ∀ row ∈ s.agents, row.enrollmentToken ≠ some T

variable {T agentId tenantId : String} {s s' s'' : FleetStore}

namespace Continues

theorem refl (T : String) (s : FleetStore) : s.Continues T s where
  kept row hrow := ⟨row, hrow, rfl, rfl⟩
  holder row hrow h := ⟨row, hrow, rfl, rfl, h⟩

theorem trans (h : s.Continues T s') (h' : s'.Continues T s'') : s.Continues T s'' where
  kept row hrow := by
    obtain ⟨row', hrow', hid, htenant⟩ := h.kept row hrow
    obtain ⟨row'', hrow'', hid', htenant'⟩ := h'.kept row' hrow'
    exact ⟨row'', hrow'', hid'.trans hid, htenant'.trans htenant⟩
  holder row'' hrow'' htoken := by
    obtain ⟨row', hrow', hid', htenant', htoken'⟩ := h'.holder row'' hrow'' htoken
    obtain ⟨row, hrow, hid, htenant, htoken⟩ := h.holder row' hrow' htoken'
    exact ⟨row, hrow, hid.trans hid', htenant.trans htenant', htoken⟩

end Continues

theorem Held.continues (hs : s.Held T agentId tenantId) (h : s.Continues T s') :
    s'.Held T agentId tenantId := by
  intro row' hrow' htoken
  obtain ⟨row, hrow, hid, htenant, htoken⟩ := h.holder row' hrow' htoken
  obtain ⟨hid', htenant'⟩ := hs row hrow htoken
  exact ⟨hid.symm.trans hid', htenant.symm.trans htenant'⟩

theorem Spent.continues (hs : s.Spent T) (h : s.Continues T s') : s'.Spent T := by
  intro row' hrow' htoken
  obtain ⟨row, hrow, -, -, htoken⟩ := h.holder row' hrow' htoken
  exact hs row hrow htoken

/-- A token is in one row at most. -/
theorem eq_of_token_eq {row row' : AgentRecord} (hrow : row ∈ s.agents) (hrow' : row' ∈ s.agents)
    (h : row.enrollmentToken = some T) (h' : row'.enrollmentToken = some T) : row = row' := by
  have hpairs := List.pairwise_filterMap.1 s.unique
  have hsymm : Std.Symm fun a b : AgentRecord => ∀ x, a.enrollmentToken = some x →
      ∀ y, b.enrollmentToken = some y → x ≠ y :=
    ⟨fun a b hab x hx y hy heq => hab y hy x hx heq.symm⟩
  by_contra hne
  exact hpairs.forall hrow hrow' hne T h T h' rfl

theorem exists_held (T : String) (s : FleetStore) :
    ∃ agentId tenantId, s.Held T agentId tenantId := by
  cases hrow : s.byToken T with
  | none =>
    refine ⟨"", "", fun row hrow' htoken => ?_⟩
    have hno := List.find?_eq_none.1 hrow row hrow'
    exact absurd (decide_eq_true htoken) hno
  | some row =>
    refine ⟨row.id, row.tenantId, fun row' hrow' htoken' => ?_⟩
    have htoken : row.enrollmentToken = some T := by simpa using List.find?_some hrow
    obtain rfl : row' = row := eq_of_token_eq hrow' (List.mem_of_find?_eq_some hrow) htoken' htoken
    exact ⟨rfl, rfl⟩

/-! ### Calls -/

theorem mem_updateAgent {agentId : String} {f : AgentRecord → AgentRecord}
    (hid : ∀ row, (f row).id = row.id) (htoken : ∀ row, (f row).enrollmentToken =
      row.enrollmentToken ∨ (f row).enrollmentToken = none) {row' : AgentRecord} :
    row' ∈ (s.updateAgent agentId f hid htoken).agents ↔
      ∃ row ∈ s.agents, row' = if row.id = agentId then f row else row := by
  simp only [updateAgent, Table.mem_update, decide_eq_true_eq]

theorem continues_updateAgent {agentId : String} {f : AgentRecord → AgentRecord}
    (hid : ∀ row, (f row).id = row.id) (htenant : ∀ row, (f row).tenantId = row.tenantId)
    (htoken : ∀ row, (f row).enrollmentToken = row.enrollmentToken ∨
      (f row).enrollmentToken = none) :
    s.Continues T (s.updateAgent agentId f hid htoken) where
  kept row hrow := by
    refine ⟨_, (mem_updateAgent hid htoken).2 ⟨row, hrow, rfl⟩, ?_⟩
    split_ifs
    · exact ⟨hid row, htenant row⟩
    · exact ⟨rfl, rfl⟩
  holder row' hrow' h := by
    obtain ⟨row, hrow, rfl⟩ := (mem_updateAgent hid htoken).1 hrow'
    refine ⟨row, hrow, ?_⟩
    split_ifs at h ⊢
    · rcases htoken row with hsame | hnone
      · exact ⟨(hid row).symm, (htenant row).symm, hsame.symm.trans h⟩
      · rw [hnone] at h
        cases h
    · exact ⟨rfl, rfl, h⟩

/-- A call that does not insert an agent with the token `T`. -/
def Sparing (T : String) : FleetOp → Prop
  | .insertAgent record => record.enrollmentToken ≠ some T
  | _ => True

theorem continues_insertAgent? {record : AgentRecord} (hrecord : record.enrollmentToken ≠ some T)
    (h : s.insertAgent? record = some s') : s.Continues T s' := by
  unfold insertAgent? at h
  split_ifs at h
  cases h
  constructor
  · exact fun row hrow => ⟨row, List.mem_append_left _ hrow, rfl, rfl⟩
  · intro row hrow htoken
    rcases List.mem_append.1 hrow with hrow | hrow
    · exact ⟨row, hrow, rfl, rfl, htoken⟩
    · obtain rfl := List.mem_singleton.1 hrow
      exact absurd htoken hrecord

variable {c : Surroundings} {o : FleetOp}

theorem continues_effect (ho : Sparing T o) : s.Continues T (effect c o s).2 := by
  cases o with
  | insertAgent record =>
    simp only [effect]
    cases h : s.insertAgent? record with
    | none => exact .refl T s
    | some s' => exact continues_insertAgent? ho h
  | recordAudit tenant actor action resource =>
    exact ⟨(Continues.refl T s).kept, (Continues.refl T s).holder⟩
  | commitEnrolled loaded payload now =>
    exact continues_updateAgent (loaded.id_enrolled · now payload) (fun _ => rfl)
      (loaded.token_enrolled · now payload)
  | commitHeartbeat loaded payload now =>
    exact continues_updateAgent (loaded.id_beaten · now payload) (fun _ => rfl)
      (loaded.token_beaten · now payload)
  | refresh agentId =>
    simp only [effect]
    cases s.agents.get? agentId <;> exact .refl T s
  | _ => exact .refl T s

theorem handle_cases (i : ℕ) (c : Surroundings) (o : FleetOp) (s : FleetStore) :
    handle i c o s = effect c o s ∨
      ∃ e, (handle i c o s).1 = .error e ∧
        ((handle i c o s).2 = s ∨ (handle i c o s).2 = (effect c o s).2) := by
  unfold handle
  cases c.fault with
  | none => exact Or.inl rfl
  | some fault =>
    obtain ⟨e, carriedOut⟩ := fault
    refine Or.inr ⟨e, rfl, ?_⟩
    cases carriedOut
    · exact Or.inl rfl
    · exact Or.inr rfl

theorem continues_handle (i : ℕ) (ho : Sparing T o) : s.Continues T (handle i c o s).2 := by
  rcases handle_cases i c o s with h | ⟨e, -, h | h⟩
  · rw [h]
    exact continues_effect ho
  · rw [h]
    exact .refl T s
  · rw [h]
    exact continues_effect ho

/-- The statement of an enrolment spends the token. -/
theorem spent_commitEnrolled {loaded : AgentRecord} {payload : AgentEnrollRequest} {now : ℤ}
    (hs : s.Held T loaded.id tenantId) (hloaded : loaded.enrollmentToken = some T) :
    (effect c (.commitEnrolled loaded payload now) s).2.Spent T := by
  intro row' hrow'
  obtain ⟨row, hrow, rfl⟩ := (mem_updateAgent (loaded.id_enrolled · now payload)
    (loaded.token_enrolled · now payload)).1 hrow'
  split_ifs with hid
  · simp [AgentRecord.enrolled, assigned, hloaded]
  · exact fun htoken => hid (hs row hrow htoken).1

end FleetStore

/-! ## What requests do with a token -/

section Requests

open FleetStore Crew

variable {T agentId tenantId : String} {i : ℕ} {s : FleetStore} {α : Type}

/-- Nobody comes by the token. -/
def sparing (T : String) : Contract FleetStore := ⟨fun _ => True, fun _ => Continues T⟩

/-- A call that does not draw the token. -/
def DrawsOther (T : String) : ℕ → Surroundings → FleetOp → FleetStore → Prop :=
  fun _ c _ _ => enrollmentToken c.token ≠ T

/-- A program that does not bring the token into a row, whatever the others do. -/
abbrev Spares (T : String) (i : ℕ) (p : FleetM α) (Q : Except PyError α → FleetStore → Prop)
    (s : FleetStore) : Prop :=
  (sparing T).Upholds handle (DrawsOther T) i p Q s

theorem continues_of_rely {s' : FleetStore} (h : (sparing T).Rely i s s') : s.Continues T s' :=
  h.keeps (F := s.Continues T) (fun _ _ _ _ _ hmove hs => hs.trans hmove) (.refl T s)

/-- One call, and what is known when it answers. -/
theorem spares_ask {o : FleetOp} {P : o.Res → FleetStore → Prop} (ho : Sparing T o)
    (hok : ∀ c s' r, enrollmentToken c.token ≠ T → s.Continues T s' →
      (effect c o s').1 = .ok r → P r (effect c o s').2) :
    Spares T i (ask o) (Contract.Returning P) s := by
  refine .perform fun s' hrely _ c hdraw => ⟨trivial, continues_handle i ho, ?_⟩
  rcases handle_cases i c o s' with h | ⟨e, h, -⟩
  · rw [h]
    cases hr : (effect c o s').1 with
    | error e => trivial
    | ok r => exact hok c s' r hdraw (continues_of_rely hrely) hr
  · rw [h]
    trivial

/-- A program without such an insertion. -/
theorem spares_of_uses {p : FleetM α} (hp : p.Uses (Sparing T)) :
    Spares T i p (fun _ _ => True) s :=
  .of_uses hp (fun _ _ _ ho _ => ⟨trivial, continues_handle i ho⟩) s

theorem spares_enforceRbac {auth : Auth} {resource action : String} :
    Spares T i (enforceRbac auth resource action) (fun _ _ => True) s := by
  unfold enforceRbac
  split_ifs
  · exact .ret trivial
  · exact .raise trivial

theorem spares_agentRepository {tenant : String} :
    Spares T i (agentRepository tenant) (fun _ s' => s' = s) s := by
  unfold agentRepository
  split_ifs
  · exact .raise rfl
  · exact .ret rfl

/-- A new token is another one. -/
theorem spares_generateEnrollmentToken (auth : Auth) :
    Spares T i (generateEnrollmentToken auth) (fun _ _ => True) s := by
  refine .bind spares_enforceRbac (fun _ _ _ => ?_) fun _ _ _ => trivial
  refine .bind spares_agentRepository (fun _ _ _ => ?_) fun _ _ _ => trivial
  refine .bind_returning (P := fun random _ => enrollmentToken random ≠ T)
    (spares_ask trivial fun c s' r hdraw _ hr => ?_) (fun random s' hinsert => ?_)
    fun _ _ => trivial
  · cases hr
    exact hdraw
  · refine spares_of_uses ?_
    refine .bind (.perform trivial) fun uuid => .bind (.bind (.perform ?_) fun _ => ?_) fun _ => ?_
    · exact fun heq => hinsert (Option.some.inj heq)
    · exact .bind (.perform trivial) fun _ => .ret _
    · exact .bind (.perform trivial) fun _ => .ret _

theorem spares_receiveHeartbeat {payload : AgentHeartbeatRequest} {xTenantId : Option String} :
    Spares T i (receiveHeartbeat agentId payload xTenantId) (fun _ _ => True) s := by
  refine spares_of_uses (.bind ?_ fun first? => ?_)
  · split_ifs
    · exact .perform trivial
    · exact .perform trivial
  cases first? with
  | none => exact .raise _
  | some first =>
    refine .bind ?_ fun _ => .bind (.perform trivial) fun row? => ?_
    · unfold agentRepository
      split_ifs
      · exact .raise _
      · exact .ret _
    cases row? with
    | none => exact .ret _
    | some row =>
      exact .bind (.perform trivial) fun _ => .bind (.perform trivial) fun _ =>
        .bind (.perform trivial) fun _ => .ret _

/-- The calls of an enrolment insert nothing. -/
theorem uses_enrollAgent (publicKey : String) (payload : AgentEnrollRequest) :
    (enrollAgent publicKey payload).Uses (Sparing T) := by
  refine .bind (.perform trivial) fun first? => ?_
  cases first? with
  | none => exact .raise _
  | some first =>
    refine .bind ?_ fun _ => .bind (.perform trivial) fun row? => ?_
    · unfold agentRepository
      split_ifs
      · exact .raise _
      · exact .ret _
    cases row? with
    | none => exact .raise _
    | some row =>
      exact .bind (.perform trivial) fun _ => .bind (.perform trivial) fun _ =>
        .bind (.perform trivial) fun _ => .ret _

/-- The holder of the token is in the table. -/
structure Holder (T agentId tenantId : String) (s : FleetStore) : Prop where
  held : s.Held T agentId tenantId
  present : ∃ row ∈ s.agents, row.id = agentId ∧ row.tenantId = tenantId

theorem Holder.continues {s' : FleetStore} (hs : Holder T agentId tenantId s)
    (h : s.Continues T s') : Holder T agentId tenantId s' where
  held := hs.held.continues h
  present := by
    obtain ⟨row, hrow, hid, htenant⟩ := hs.present
    obtain ⟨row', hrow', hid', htenant'⟩ := h.kept row hrow
    exact ⟨row', hrow', hid'.trans hid, htenant'.trans htenant⟩

theorem of_byToken {row : AgentRecord} (h : s.byToken T = some row) :
    row ∈ s.agents ∧ row.enrollmentToken = some T :=
  ⟨List.mem_of_find?_eq_some h, by simpa using List.find?_some h⟩

/-- An enrolment that succeeds is that of the holder, and the token is spent then. -/
def Enrols (T agentId tenantId : String) : FleetResponse → FleetStore → Prop
  | .enrolled answer, s => answer.agentId = agentId ∧ answer.tenantId = tenantId ∧ s.Spent T
  | _, _ => True

/-- The statement that activates the holder. -/
theorem spares_commitEnrolled {agent : AgentRecord} {publicKey : String}
    {payload : AgentEnrollRequest} (htoken : agent.enrollmentToken = some T)
    (hs : Holder T agent.id tenantId s) :
    Spares T i (do
      let now ← ask .now
      ask (.commitEnrolled agent payload now)
      let enrolled ← ask (.refresh agent.id)
      return .enrolled ⟨enrolled.id, enrolled.tenantId, publicKey, enrolled.status⟩ : FleetM _)
      (Contract.Returning (Enrols T agent.id tenantId)) s := by
  refine .bind_returning (P := fun _ s₁ => Holder T agent.id tenantId s₁)
    (spares_ask trivial fun c s₁ r _ hs₁ _ => ?_) (fun now s₁ hholder => ?_) fun _ _ => trivial
  · exact (hs.continues hs₁).continues (continues_effect trivial)
  refine .bind_returning (P := fun _ s₂ => s₂.Spent T ∧ Holder T agent.id tenantId s₂)
    (spares_ask trivial fun c s₂ r _ hs₂ _ => ?_) (fun u s₂ h => ?_) fun _ _ => trivial
  · have hholder := hholder.continues hs₂
    exact ⟨spent_commitEnrolled hholder.held htoken,
      hholder.continues (continues_effect trivial)⟩
  obtain ⟨hspent, hholder⟩ := h
  refine .bind_returning (P := fun enrolled s₃ => enrolled.id = agent.id ∧
      enrolled.tenantId = tenantId ∧ s₃.Spent T)
    (spares_ask trivial fun c s₃ enrolled _ hs₃ hr => ?_) (fun enrolled s₃ h => .ret h)
    fun _ _ => trivial
  simp only [effect] at hr ⊢
  cases hget : s₃.agents.get? agent.id with
  | none =>
    rw [hget] at hr
    cases hr
  | some found =>
    rw [hget] at hr
    cases hr
    obtain ⟨row, hrow, hid, htenant⟩ := (hholder.continues hs₃).present
    obtain ⟨hfound, hfoundId⟩ := Table.get?_eq_some.1 hget
    obtain rfl := Table.eq_of_key_eq hrow hfound (hid.trans hfoundId.symm)
    exact ⟨hid, htenant, hspent.continues hs₃⟩

theorem spares_enrollAgent {publicKey : String} {payload : AgentEnrollRequest}
    (hs : s.Held payload.enrollmentToken agentId tenantId) :
    Spares payload.enrollmentToken i (enrollAgent publicKey payload)
      (Contract.Returning (Enrols payload.enrollmentToken agentId tenantId)) s := by
  generalize hT : payload.enrollmentToken = T at hs ⊢
  unfold enrollAgent
  rw [hT]
  refine .bind_returning (P := fun first? s₁ => ∀ first, first? = some first →
      first.id = agentId ∧ first.enrollmentToken = some T ∧ Holder T agentId tenantId s₁)
    (spares_ask trivial fun c s₁ r _ hs₁ hr first hfirst => ?_) (fun first? s₁ h => ?_)
    fun _ _ => trivial
  · cases hr
    obtain ⟨hmem, htoken⟩ := of_byToken hfirst
    have hheld := hs.continues hs₁
    obtain ⟨hid, htenant⟩ := hheld first hmem htoken
    exact ⟨hid, htoken, hheld, first, hmem, hid, htenant⟩
  cases first? with
  | none => exact .raise trivial
  | some first =>
    obtain ⟨hid, htoken, hholder⟩ := h first rfl
    refine .bind spares_agentRepository (fun _ s₂ h => ?_) fun _ _ _ => trivial
    obtain rfl := h
    refine .bind_returning (P := fun row? s₃ => ∀ row, row? = some row →
        row.enrollmentToken = some T ∧ row.id = agentId ∧ Holder T agentId tenantId s₃)
      (spares_ask trivial fun c s₃ r _ hs₃ hr row hrow => ?_) (fun row? s₃ h => ?_)
      fun _ _ => trivial
    · cases hr
      obtain ⟨hmem, htoken⟩ := of_byToken (Option.filter_eq_some_iff.1 hrow).1
      have hholder := hholder.continues hs₃
      exact ⟨htoken, (hholder.held row hmem htoken).1, hholder⟩
    cases row? with
    | none => exact .raise trivial
    | some row =>
      obtain ⟨htoken', hid', hholder⟩ := h row rfl
      have hagent : (identified first row).id = agentId ∧
          (identified first row).enrollmentToken = some T := by
        unfold identified
        split_ifs
        · exact ⟨hid, htoken⟩
        · exact ⟨hid', htoken'⟩
      obtain ⟨hagentId, htoken⟩ := hagent
      subst hagentId
      exact spares_commitEnrolled htoken hholder

/-- An enrolment that comes when the token is spent does not succeed. -/
theorem spares_enrollAgent_spent {publicKey : String} {payload : AgentEnrollRequest}
    (hs : s.Spent payload.enrollmentToken) :
    Spares payload.enrollmentToken i (enrollAgent publicKey payload)
      (Contract.Returning fun _ _ => False) s := by
  refine .bind_returning (P := fun first? _ => first? = none)
    (spares_ask trivial fun c s₁ r _ hs₁ hr => ?_) (fun first? s₁ h => ?_) fun _ _ => trivial
  · cases hr
    refine List.find?_eq_none.2 fun row hrow htoken => ?_
    exact hs.continues hs₁ row hrow (of_decide_eq_true htoken)
  · rw [h]
    exact .raise trivial

/-- Every request keeps the contract. -/
theorem spares_code {publicKey : String} (request : FleetRequest) :
    Spares T i (request.code publicKey) (fun _ _ => True) s := by
  cases request with
  | generateEnrollmentToken auth => exact spares_generateEnrollmentToken auth
  | enrollAgent payload => exact spares_of_uses (uses_enrollAgent publicKey payload)
  | receiveHeartbeat agentId payload xTenantId => exact spares_receiveHeartbeat

/-! ## Runs -/

/-- A request that presents the token. -/
def FleetRequest.Presents (T : String) : FleetRequest → Prop
  | .enrollAgent payload => payload.enrollmentToken = T
  | _ => False

/-- The request `i` presents the token. -/
def Redeems (requests : List FleetRequest) (T : String) (i : ℕ) : Prop :=
  ∃ request, requests[i]? = some request ∧ request.Presents T

/-- The request `i` has been answered with an agent. -/
def Enrolled (p : FleetCrew) (i : ℕ) (answer : AgentEnrollResponse) : Prop :=
  p.progs[i]? = some (.pure (.enrolled answer))

variable {publicKey : String} {requests : List FleetRequest}
  {schedule : List (ℕ × Surroundings)}

theorem getElem?_incoming {q : FleetM FleetResponse}
    (h : (incoming publicKey s requests).progs[i]? = some q) :
    ∃ request, requests[i]? = some request ∧ q = request.code publicKey := by
  rw [incoming, List.getElem?_map, Option.map_eq_some_iff] at h
  obtain ⟨request, hrequest, rfl⟩ := h
  exact ⟨request, hrequest, rfl⟩

theorem getElem?_incoming_of_some {request : FleetRequest} (h : requests[i]? = some request) :
    (incoming publicKey s requests).progs[i]? = some (request.code publicKey) := by
  rw [incoming, List.getElem?_map, h]
  rfl

theorem runs_of_draws {p : FleetCrew} (hdraws : ∀ x ∈ schedule, enrollmentToken x.2.token ≠ T) :
    Runs handle (DrawsOther T) p (p.play handle schedule) :=
  runs_play handle (allows_of_forall fun x hx _ _ => hdraws x hx)

theorem spares_progs (hdraws : ∀ x ∈ schedule, enrollmentToken x.2.token ≠ T) {q : FleetM _}
    (h : ((incoming publicKey s requests).play handle schedule).progs[i]? = some q) :
    Spares T i q (fun _ _ => True) ((incoming publicKey s requests).play handle schedule).state :=
  ((sparing T).run (Q := fun _ _ _ => True) (fun _ _ _ _ _ h => h) trivial
    (fun _ q hq => by
      obtain ⟨request, -, rfl⟩ := getElem?_incoming hq
      exact spares_code request) (runs_of_draws hdraws)).2 i q h

/-- What is known of the requests that present the token. -/
theorem enrols_of_play (hdraws : ∀ x ∈ schedule, enrollmentToken x.2.token ≠ T)
    (hs : s.Held T agentId tenantId) (hi : Redeems requests T i) {answer : AgentEnrollResponse}
    (h : Enrolled ((incoming publicKey s requests).play handle schedule) i answer) :
    answer.agentId = agentId ∧ answer.tenantId = tenantId ∧
      ((incoming publicKey s requests).play handle schedule).state.Spent T := by
  have hrun := ((sparing T).run
    (Q := fun i r s => Redeems requests T i → Contract.Returning (Enrols T agentId tenantId) r s)
    (fun i r s s' hrely hr hi => ?_) trivial (fun i q hq => ?_) (runs_of_draws hdraws)).2 i _ h
  · exact hrun hi
  · cases r with
    | error e => trivial
    | ok response =>
      have hr := hr hi
      cases response with
      | enrolled answer => exact ⟨hr.1, hr.2.1, hr.2.2.continues (continues_of_rely hrely)⟩
      | _ => trivial
  · obtain ⟨request, hrequest, rfl⟩ := getElem?_incoming hq
    by_cases hT : request.Presents T
    · cases request with
      | enrollAgent payload =>
        obtain rfl : payload.enrollmentToken = T := hT
        exact (spares_enrollAgent hs).mono fun _ _ h _ => h
      | _ => exact hT.elim
    · refine (spares_code request).mono fun r s _ hi => ?_
      obtain ⟨request', hrequest', hT'⟩ := hi
      obtain rfl := Option.some.inj (hrequest.symm.trans hrequest')
      exact absurd hT' hT

/-- A request that is still to come when the token is spent. -/
theorem not_enrolled_of_spent {p : FleetCrew} {request : FleetRequest}
    (hdraws : ∀ x ∈ schedule, enrollmentToken x.2.token ≠ T) (hspent : p.state.Spent T)
    (hprogs : ∀ i q, p.progs[i]? = some q → Spares T i q (fun _ _ => True) p.state)
    (hi : p.progs[i]? = some (request.code publicKey)) (hT : request.Presents T)
    (answer : AgentEnrollResponse) : ¬ Enrolled (p.play handle schedule) i answer := by
  intro h
  refine ((sparing T).run
    (Q := fun j r s => j = i → Contract.Returning (fun _ _ => False) r s)
    (fun j r s s' _ hr hj => ?_) trivial (fun j q hq => ?_) (runs_of_draws hdraws)).2 i _ h rfl
  · cases r with
    | error e => trivial
    | ok response => exact hr hj
  · by_cases hj : j = i
    · subst hj
      obtain rfl := Option.some.inj (hi.symm.trans hq)
      cases request with
      | enrollAgent payload =>
        obtain rfl : payload.enrollmentToken = T := hT
        exact (spares_enrollAgent_spent hspent).mono fun _ _ h _ => h
      | _ => exact hT.elim
    · exact (hprogs j q hq).mono fun _ _ _ h => absurd h hj

/-- **A token is good for one agent, and once.** Whatever requests come in, however their calls
interleave and fail, as long as no draw repeats the token: who enrols with it gets the agent that
it was issued for, and who comes after such an enrolment does not enrol. -/
theorem token_single_use (publicKey : String) (s : FleetStore) (requests : List FleetRequest)
    (T : String) (schedule : List (ℕ × Surroundings))
    (hdraws : ∀ x ∈ schedule, enrollmentToken x.2.token ≠ T) :
    (∀ i answer, Redeems requests T i →
      Enrolled ((incoming publicKey s requests).play handle schedule) i answer →
        ∃ row ∈ s.agents, row.enrollmentToken = some T ∧ answer.agentId = row.id ∧
          answer.tenantId = row.tenantId) ∧
    ∀ before after i j answer answer', schedule = before ++ after → Redeems requests T i →
      Redeems requests T j → j ∉ before.map Prod.fst →
      Enrolled ((incoming publicKey s requests).play handle before) i answer →
        ¬ Enrolled ((incoming publicKey s requests).play handle schedule) j answer' := by
  constructor
  · intro i answer hi h
    cases hrow : s.byToken T with
    | none =>
      have hspent : s.Spent T := fun row hrow' htoken =>
        List.find?_eq_none.1 hrow row hrow' (decide_eq_true htoken)
      obtain ⟨request, hrequest, hT⟩ := hi
      refine absurd h (not_enrolled_of_spent hdraws hspent (fun j q hq => ?_)
        (getElem?_incoming_of_some hrequest) hT answer)
      obtain ⟨request, -, rfl⟩ := getElem?_incoming hq
      exact spares_code request
    | some row =>
      obtain ⟨hmem, htoken⟩ := of_byToken hrow
      have hheld : s.Held T row.id row.tenantId := by
        intro row' hrow' htoken'
        obtain rfl := eq_of_token_eq hrow' hmem htoken' htoken
        exact ⟨rfl, rfl⟩
      obtain ⟨hid, htenant, -⟩ := enrols_of_play hdraws hheld hi h
      exact ⟨row, hmem, htoken, hid, htenant⟩
  · rintro before after i j answer answer' rfl hi ⟨request, hrequest, hT⟩ hj h
    have hbefore : ∀ x ∈ before, enrollmentToken x.2.token ≠ T :=
      fun x hx => hdraws x (List.mem_append_left _ hx)
    obtain ⟨agentId, tenantId, hheld⟩ := exists_held T s
    obtain ⟨-, -, hspent⟩ := enrols_of_play hbefore hheld hi h
    have hprog : ((incoming publicKey s requests).play handle before).progs[j]? =
        some (request.code publicKey) :=
      (getElem?_play_of_not_mem hj).trans (getElem?_incoming_of_some hrequest)
    rw [play_append]
    exact not_enrolled_of_spent (fun x hx => hdraws x (List.mem_append_right _ hx)) hspent
      (fun i q hq => spares_progs hbefore hq) hprog hT answer'

def pendingAgent : AgentRecord where
  id := "agent-1"
  tenantId := "acme"
  name := "Pending Agent (agent-1)"
  version := "v0.5.0"
  status := "OFFLINE"
  publicKey := none
  connectors := []
  lastHeartbeatAt := none
  enrollmentToken := some "flm_enroll_x"

/-- A pending agent. -/
def pendingStore : FleetStore where
  agents := ⟨[pendingAgent], List.nodup_singleton _⟩
  unique := List.nodup_singleton _

/-- Enrolments with its token: two that overlap, and a late one. -/
def enrolments : List FleetRequest :=
  ["edge-1", "edge-2", "edge-3"].map fun name =>
    .enrollAgent { enrollmentToken := "flm_enroll_x", name }

def overlappingTurns : List (ℕ × Surroundings) :=
  [0, 1, 0, 1, 0, 1, 0, 1, 0, 1].map fun i => (i, {})

def lateTurn : List (ℕ × Surroundings) := [(2, {})]

theorem token_single_use_overlapping :
    Enrolled ((incoming "key" pendingStore enrolments).play handle overlappingTurns) 0
        ⟨"agent-1", "acme", "key", "ONLINE"⟩ ∧
      Enrolled ((incoming "key" pendingStore enrolments).play handle overlappingTurns) 1
        ⟨"agent-1", "acme", "key", "ONLINE"⟩ ∧
      ¬ Enrolled ((incoming "key" pendingStore enrolments).play handle
        (overlappingTurns ++ lateTurn)) 2 ⟨"agent-1", "acme", "key", "ONLINE"⟩ :=
  ⟨rfl, rfl, (token_single_use "key" pendingStore enrolments "flm_enroll_x"
    (overlappingTurns ++ lateTurn) (by simp [overlappingTurns, lateTurn, enrollmentToken])).2
    overlappingTurns lateTurn 0 2 _ _ rfl ⟨_, rfl, rfl⟩ ⟨_, rfl, rfl⟩
    (by simp [overlappingTurns]) rfl⟩

end Requests

end FlowMesh.Fleet
