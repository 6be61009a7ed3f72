import FlowMesh.Auth.Context
import FlowMesh.Library.Machine

/-!
# Minting API keys

The permission matrix of `flowmesh_auth/rbac.py`, and `create_api_key` of `routers/api_keys.py`.
The endpoint does not consult the matrix: it lets owners and developers create keys, whatever
role they ask for.

`Minting` is what somebody with one credential can reach by creating keys with it and with the
keys so obtained. Nobody gains a permission that way unless a developer starts, and then exactly
if no request that is granted asks for the role of an owner or an operator (`minted_iff`).
-/

namespace FlowMesh

open Python Database

/-! ## The permission matrix -/

/-- `Role`. -/
inductive Role
  | owner
  | operator
  | developer
  | viewer
  deriving DecidableEq

/-- `Action`. -/
inductive Action
  | create
  | read
  | update
  | delete
  | execute
  | replay
  | rotate
  deriving DecidableEq

/-- `Resource`. -/
inductive Resource
  | tenant
  | user
  | apiKey
  | connection
  | workflow
  | run
  | incident
  | dlq
  | agent
  | audit
  | event
  deriving DecidableEq

/-- `Role.value`. -/
def Role.value : Role → String
  | .owner => "owner"
  | .operator => "operator"
  | .developer => "developer"
  | .viewer => "viewer"

/-- `Action.value`. -/
def Action.value : Action → String
  | .create => "create"
  | .read => "read"
  | .update => "update"
  | .delete => "delete"
  | .execute => "execute"
  | .replay => "replay"
  | .rotate => "rotate"

/-- `Resource.value`. -/
def Resource.value : Resource → String
  | .tenant => "tenant"
  | .user => "user"
  | .apiKey => "api_key"
  | .connection => "connection"
  | .workflow => "workflow"
  | .run => "run"
  | .incident => "incident"
  | .dlq => "dlq"
  | .agent => "agent"
  | .audit => "audit"
  | .event => "event"

/-- All members of `Action`. -/
def Action.all : List Action := [.create, .read, .update, .delete, .execute, .replay, .rotate]

/-- All members of `Resource`. -/
def Resource.all : List Resource :=
  [.tenant, .user, .apiKey, .connection, .workflow, .run, .incident, .dlq, .agent, .audit, .event]

/-- The entries of a role other than the owner. -/
def grantsOf : Role → List (Resource × Action)
  | .owner => []
  | .operator =>
    [(.tenant, .read), (.user, .read), (.apiKey, .read), (.connection, .read),
      (.connection, .update), (.connection, .execute), (.connection, .rotate), (.workflow, .read),
      (.workflow, .execute), (.workflow, .update), (.run, .read), (.run, .execute),
      (.run, .update), (.run, .replay), (.incident, .read), (.incident, .update), (.dlq, .read),
      (.dlq, .replay), (.agent, .read), (.agent, .create), (.agent, .execute), (.agent, .rotate),
      (.audit, .read), (.event, .read)]
  | .developer =>
    [(.tenant, .read), (.user, .read), (.apiKey, .create), (.apiKey, .read),
      (.connection, .create), (.connection, .read), (.connection, .update),
      (.connection, .execute), (.workflow, .create), (.workflow, .read), (.workflow, .update),
      (.workflow, .execute), (.run, .read), (.run, .execute), (.incident, .read), (.dlq, .read),
      (.agent, .read), (.agent, .create), (.agent, .execute), (.audit, .read), (.event, .read)]
  | .viewer =>
    [(.tenant, .read), (.user, .read), (.connection, .read), (.workflow, .read), (.run, .read),
      (.incident, .read), (.dlq, .read), (.agent, .read), (.audit, .read), (.event, .read)]

/-- `_POLICY_MATRIX`. -/
def policyMatrix : List (Role × Resource × Action) :=
  (Resource.all.flatMap fun res => Action.all.map fun act => (.owner, res, act)) ++
    [Role.operator, .developer, .viewer].flatMap fun role => (grantsOf role).map (Prod.mk role)

/-- `is_allowed`. -/
def isAllowed (role resource action : String) : Bool :=
  policyMatrix.any fun p =>
    lower role = p.1.value.toList && lower resource = p.2.1.value.toList &&
      lower action = p.2.2.value.toList

/-- The permissions of a role. -/
def permissions (role : String) : Set (String × String) :=
  {p | isAllowed role p.1 p.2 = true}

/-- The role, in any case. -/
def IsRole (role : String) (r : Role) : Prop := lower role = r.value.toList

instance (role : String) (r : Role) : Decidable (IsRole role r) :=
  inferInstanceAs (Decidable (lower role = r.value.toList))

theorem Resource.mem_all (res : Resource) : res ∈ Resource.all := by
  cases res <;> decide

theorem Action.mem_all (act : Action) : act ∈ Action.all := by
  cases act <;> decide

/-- The matrix has everything for an owner, and the entries of the other roles. -/
theorem mem_policyMatrix {r : Role} {res : Resource} {act : Action} :
    (r, res, act) ∈ policyMatrix ↔ r = .owner ∨ (res, act) ∈ grantsOf r := by
  simp only [policyMatrix, List.mem_append, List.mem_flatMap, List.mem_map, Prod.mk.injEq,
    List.mem_cons, List.not_mem_nil, or_false]
  constructor
  · rintro (⟨res', -, act', -, rfl, rfl, rfl⟩ | ⟨r', -, ⟨res', act'⟩, hgrant, rfl, heq⟩)
    · exact Or.inl rfl
    · cases heq
      exact Or.inr hgrant
  · rintro (rfl | hgrant)
    · exact Or.inl ⟨res, res.mem_all, act, act.mem_all, rfl, rfl, rfl⟩
    · cases r with
      | owner => cases hgrant
      | operator => exact Or.inr ⟨.operator, by simp, (res, act), hgrant, rfl, rfl⟩
      | developer => exact Or.inr ⟨.developer, by simp, (res, act), hgrant, rfl, rfl⟩
      | viewer => exact Or.inr ⟨.viewer, by simp, (res, act), hgrant, rfl, rfl⟩

theorem mem_permissions {role : String} {p : String × String} :
    p ∈ permissions role ↔ ∃ r res act, (r, res, act) ∈ policyMatrix ∧ IsRole role r ∧
      lower p.1 = res.value.toList ∧ lower p.2 = act.value.toList := by
  simp only [permissions, isAllowed, Set.mem_ofPred_eq, List.any_eq_true, Bool.and_eq_true,
    decide_eq_true_eq, IsRole]
  constructor
  · rintro ⟨⟨r, res, act⟩, hmem, ⟨hrole, hres⟩, hact⟩
    exact ⟨r, res, act, hmem, hrole, hres, hact⟩
  · rintro ⟨r, res, act, hmem, hrole, hres, hact⟩
    exact ⟨(r, res, act), hmem, ⟨hrole, hres⟩, hact⟩

/-- An owner may do everything. -/
theorem permissions_subset_owner (role : String) : permissions role ⊆ permissions "owner" := by
  intro p hp
  obtain ⟨r, res, act, -, -, hres, hact⟩ := mem_permissions.1 hp
  exact mem_permissions.2 ⟨.owner, res, act, mem_policyMatrix.2 (Or.inl rfl), rfl, hres, hact⟩

theorem viewer_matrix {res : Resource} {act : Action}
    (h : (Role.viewer, res, act) ∈ policyMatrix) : (Role.developer, res, act) ∈ policyMatrix := by
  have hgrants : ∀ grant ∈ grantsOf .viewer, grant ∈ grantsOf .developer := by decide
  rcases mem_policyMatrix.1 h with howner | hgrant
  · cases howner
  · exact mem_policyMatrix.2 (Or.inr (hgrants _ hgrant))

/-- A developer does not delete tenants. -/
theorem delete_not_mem_developer : ("tenant", "delete") ∉ permissions "developer" :=
  show ¬ isAllowed "developer" "tenant" "delete" = true by decide +kernel

/-- Owners and operators may do more than developers, the others may not. -/
theorem permissions_subset_developer_iff {role : String} :
    permissions role ⊆ permissions "developer" ↔
      ¬ IsRole role .owner ∧ ¬ IsRole role .operator := by
  constructor
  · intro h
    refine ⟨fun hrole => ?_, fun hrole => ?_⟩
    · have hp : ("tenant", "delete") ∈ permissions role :=
        mem_permissions.2 ⟨.owner, .tenant, .delete, mem_policyMatrix.2 (Or.inl rfl), hrole, rfl, rfl⟩
      exact delete_not_mem_developer (h hp)
    · have hp : ("run", "replay") ∈ permissions role :=
        mem_permissions.2 ⟨.operator, .run, .replay, mem_policyMatrix.2 (Or.inr (by decide)), hrole,
          rfl, rfl⟩
      exact absurd (h hp) (show ¬ isAllowed "developer" "run" "replay" = true by decide +kernel)
  · rintro ⟨howner, hoperator⟩ p hp
    obtain ⟨r, res, act, hmem, hrole, hres, hact⟩ := mem_permissions.1 hp
    refine mem_permissions.2 ⟨.developer, res, act, ?_, rfl, hres, hact⟩
    cases r with
    | owner => exact absurd hrole howner
    | operator => exact absurd hrole hoperator
    | developer => exact hmem
    | viewer => exact viewer_matrix hmem

/-! ## `create_api_key` -/

/-- `ApiKeyCreate`. -/
structure ApiKeyCreate where
  name : String
  role : String := "developer"

/-- The bounds of the fields. -/
def ApiKeyCreate.Valid (payload : ApiKeyCreate) : Prop :=
  2 ≤ payload.name.length ∧ payload.name.length ≤ 100

instance (payload : ApiKeyCreate) : Decidable payload.Valid :=
  inferInstanceAs (Decidable (_ ∧ _))

/-- The random parts of a new key. -/
structure KeyDraw where
  tokenUrlsafe : String
  tokenHex : String

/-- `raw_token`. -/
def KeyDraw.rawToken (draw : KeyDraw) : String := "flm_" ++ draw.tokenUrlsafe

theorem rawApiKey_rawToken {x : Option String} (draw : KeyDraw) :
    (AuthHeaders.mk none x (some draw.rawToken)).rawApiKey = some draw.rawToken := by
  have hne : draw.rawToken ≠ "" := by
    intro h
    have hlength := congrArg String.length h
    simp [KeyDraw.rawToken] at hlength
  simp [AuthHeaders.rawApiKey, orElse, hne]

section Create

variable (sec : Security) (environment : String)

/-- The record of a new key. -/
def newApiKey (payload : ApiKeyCreate) (auth : AuthContext) (draw : KeyDraw) : ApiKey where
  id := "key_" ++ draw.tokenHex
  tenantId := auth.tenantId
  name := payload.name
  keyPrefix := tokenPrefix draw.rawToken
  hashedKey := sec.hashSecret draw.rawToken
  role := payload.role
  expiresAt := none
  revoked := false

/-- `create_api_key`: the token, which is shown only now, and the keys. -/
def createApiKey (payload : ApiKeyCreate) (auth : AuthContext) (draw : KeyDraw)
    (keys : Table ApiKey String ApiKey.id) :
    Except PyError (String × Table ApiKey String ApiKey.id) :=
  if ¬ payload.Valid then .error ⟨.validationError, "1 validation error for ApiKeyCreate"⟩
  else if auth.role ∉ ["owner", "developer"] then
    .error (httpException 403 ("Role '" ++ auth.role ++ "' is not authorized to generate API keys"))
  else
    match keys.insert? (newApiKey sec payload auth draw) with
    | none => .error ⟨.integrityError, "UNIQUE constraint failed: api_keys.id"⟩
    | some keys => .ok (draw.rawToken, keys)

/-! ## What a credential reaches -/

/-- A credential: the one at the start, or a key obtained since. -/
inductive Credential
  | start
  | obtained (i : ℕ)

/-- A request with a credential. -/
structure MintRequest where
  credential : Credential
  xTenantId : Option String
  now : ℤ
  payload : ApiKeyCreate
  draw : KeyDraw

/-- The stored keys, the identity at the start, the tokens obtained, and the records of theirs. -/
structure Minting where
  keys : Table ApiKey String ApiKey.id
  start : AuthContext
  tokens : List String
  minted : List ApiKey

namespace Minting

variable (s : Minting)

/-- The identity behind the credential of a request. -/
def authenticate (q : MintRequest) : Except PyError AuthContext :=
  match q.credential with
  | .start => .ok s.start
  | .obtained i =>
    match s.tokens[i]? with
    | some token => getAuthContext sec environment s.keys q.now ⟨none, q.xTenantId, some token⟩
    | none => .error (httpException 401 "Invalid or revoked API key")

/-- Answer a request. -/
def mint (q : MintRequest) : Except PyError String × Minting :=
  match s.authenticate sec environment q with
  | .error e => (.error e, s)
  | .ok auth =>
    match createApiKey sec q.payload auth q.draw s.keys with
    | .error e => (.error e, s)
    | .ok (token, keys) =>
      (.ok token, { s with
        keys
        tokens := s.tokens ++ [token]
        minted := s.minted ++ [newApiKey sec q.payload auth q.draw] })

/-- The request comes with an identity that may create keys, and nothing is wrong with it
otherwise. -/
def Granted (q : MintRequest) : Prop :=
  ∃ auth, s.authenticate sec environment q = .ok auth ∧ auth.role ∈ ["owner", "developer"] ∧
    q.payload.Valid ∧ ∀ k ∈ s.keys, k.id ≠ "key_" ++ q.draw.tokenHex

variable {sec environment s} {q : MintRequest}

variable (sec environment s q) in
/-- What a request does: it adds a key of the role it asks for, or nothing. -/
theorem mint_cases :
    (s.Granted sec environment q ∧ ∃ auth keys,
      (∀ k, k ∈ keys ↔ k ∈ s.keys ∨ k = newApiKey sec q.payload auth q.draw) ∧
      (s.mint sec environment q).2 = { s with
        keys
        tokens := s.tokens ++ [q.draw.rawToken]
        minted := s.minted ++ [newApiKey sec q.payload auth q.draw] }) ∨
    ¬ s.Granted sec environment q ∧ (s.mint sec environment q).2 = s := by
  unfold mint Granted
  cases hauth : s.authenticate sec environment q with
  | error e => exact Or.inr ⟨by simp, rfl⟩
  | ok auth =>
    by_cases hvalid : q.payload.Valid
    · by_cases hrole : auth.role ∈ ["owner", "developer"]
      · rcases s.keys.insert?_cases (newApiKey sec q.payload auth q.draw) with
          ⟨hinsert, hused⟩ | ⟨keys, hinsert, hfresh, hmem⟩
        · right
          refine ⟨?_, by
            simp only [createApiKey, hvalid, hrole, hinsert, not_true_eq_false, if_false]⟩
          rintro ⟨auth', heq, -, -, hunused⟩
          obtain rfl := Except.ok.inj heq
          obtain ⟨k, hk, hid⟩ := List.mem_map.1 hused
          exact hunused k hk hid
        · left
          refine ⟨⟨auth, rfl, hrole, hvalid, fun k hk hid => ?_⟩, auth, keys, hmem, ?_⟩
          · exact hfresh (List.mem_map.2 ⟨k, hk, hid⟩)
          · simp only [createApiKey, hvalid, hrole, hinsert, not_true_eq_false, if_false]
      · right
        refine ⟨?_, by simp only [createApiKey, hvalid, hrole, not_true_eq_false, if_false,
          not_false_eq_true, if_true]⟩
        rintro ⟨auth', heq, hrole', -⟩
        obtain rfl := Except.ok.inj heq
        exact hrole hrole'
    · right
      refine ⟨?_, by simp only [createApiKey, hvalid, not_false_eq_true, if_true]⟩
      rintro ⟨auth', -, -, hvalid', -⟩
      exact hvalid hvalid'

/-! ### Tokens and their records -/

/-- Every token obtained has its record among the stored keys. -/
def Recorded (s : Minting) : Prop :=
  ∀ token ∈ s.tokens, (∃ draw : KeyDraw, token = draw.rawToken) ∧
    ∃ k ∈ s.minted, k ∈ s.keys ∧ k.keyPrefix = tokenPrefix token ∧ k.revoked = false

theorem Recorded.mint (h : s.Recorded) : (s.mint sec environment q).2.Recorded := by
  rcases mint_cases sec environment s q with
    ⟨-, auth, keys, hmem, hnext⟩ | ⟨-, hnext⟩
  · rw [hnext]
    intro token htoken
    rcases List.mem_append.1 htoken with htoken | htoken
    · obtain ⟨hdraw, k, hminted, hk, hpre, hrevoked⟩ := h token htoken
      exact ⟨hdraw, k, List.mem_append_left _ hminted, (hmem k).2 (Or.inl hk), hpre, hrevoked⟩
    · obtain rfl := List.mem_singleton.1 htoken
      exact ⟨⟨q.draw, rfl⟩, _, List.mem_append_right _ (List.mem_singleton_self _),
        (hmem _).2 (Or.inr rfl), rfl, rfl⟩
  · rw [hnext]
    exact h

/-- An identity is the one at the start, or has the role of a key obtained since. -/
theorem Recorded.authenticate (h : s.Recorded) {auth : AuthContext}
    (hauth : s.authenticate sec environment q = .ok auth) :
    auth = s.start ∨ ∃ k ∈ s.minted, auth.role = k.role := by
  unfold Minting.authenticate at hauth
  cases hcredential : q.credential with
  | start =>
    rw [hcredential] at hauth
    exact Or.inl (Except.ok.inj hauth).symm
  | obtained i =>
    rw [hcredential] at hauth
    cases htoken : s.tokens[i]? with
    | none => simp [htoken] at hauth
    | some token =>
      simp only [htoken] at hauth
      obtain ⟨⟨draw, rfl⟩, k, hminted, hk, hpre, hrevoked⟩ :=
        h token (List.mem_of_getElem? htoken)
      obtain ⟨k', hrows, -, hadmit⟩ := (getAuthContext_eq_ok (rawApiKey_rawToken draw)).1 hauth
      have hfound : k ∈ keysOf s.keys draw.rawToken := mem_keysOf.2 ⟨hk, hpre, hrevoked⟩
      rw [hrows] at hfound
      obtain rfl := List.mem_singleton.1 hfound
      obtain ⟨rfl, -⟩ := admitKey_eq_ok.1 hadmit
      exact Or.inr ⟨k, hminted, rfl⟩

/-! ### What is minted in a run -/

/-- Before any key is obtained. -/
def new (keys : Table ApiKey String ApiKey.id) (start : AuthContext) : Minting :=
  ⟨keys, start, [], []⟩

/-- Nobody whose identity may not create keys has obtained any. -/
def Limited (start : AuthContext) (s : Minting) : Prop :=
  s.start = start ∧ s.Recorded ∧ (start.role ∉ ["owner", "developer"] → s.minted = [])

theorem Limited.mint {start : AuthContext} (h : Limited start s) :
    Limited start (s.mint sec environment q).2 := by
  obtain ⟨hstart, hrecorded, hlimit⟩ := h
  rcases mint_cases sec environment s q with
    ⟨⟨auth, hauth, hrole, -⟩, auth', keys, -, hnext⟩ | ⟨-, hnext⟩
  · refine ⟨by rw [hnext, hstart], hrecorded.mint, fun hnone => ?_⟩
    rcases hrecorded.authenticate hauth with rfl | ⟨k, hk, -⟩
    · rw [hstart] at hrole
      exact absurd hrole hnone
    · rw [hlimit hnone] at hk
      cases hk
  · rw [hnext]
    exact ⟨hstart, hrecorded, hlimit⟩

/-- If it is granted, the request does not ask for the role of an owner or an operator. -/
def Modest (sec : Security) (environment : String) (s : Minting) (q : MintRequest) : Prop :=
  s.Granted sec environment q →
    ¬ IsRole q.payload.role .owner ∧ ¬ IsRole q.payload.role .operator

/-- The keys minted so far are within what a developer may do. -/
def Developing (s : Minting) : Prop :=
  ∀ k ∈ s.minted, permissions k.role ⊆ permissions "developer"

theorem developing_mint_iff :
    (s.mint sec environment q).2.Developing ↔ s.Developing ∧ Modest sec environment s q := by
  rcases mint_cases sec environment s q with
    ⟨hgranted, auth, keys, -, hnext⟩ | ⟨hgranted, hnext⟩
  · rw [hnext]
    simp only [Developing, List.forall_mem_append, List.forall_mem_singleton, newApiKey, Modest,
      hgranted, true_imp_iff, permissions_subset_developer_iff]
  · rw [hnext]
    simp [Modest, hgranted]

/-- **Who gains permissions by minting keys**: with any number of requests, each made with the
credential at the start or with a key obtained before, the keys obtained have no permission that
the role at the start does not have, if and only if that role is not `developer` or no granted
request asks, in any case, for the role of an owner or an operator. -/
theorem minted_iff (sec : Security) (environment : String) (keys : Table ApiKey String ApiKey.id)
    (start : AuthContext) (requests : List MintRequest) :
    (∀ k ∈ (Machine.exec (mint sec environment) (new keys start) requests).minted,
        permissions k.role ⊆ permissions start.role) ↔
      (start.role = "developer" →
        Machine.Every (mint sec environment) (Modest sec environment) (new keys start)
          requests) := by
  have hnew : Limited start (new keys start) :=
    ⟨rfl, fun _ h => absurd h List.not_mem_nil, fun _ => rfl⟩
  by_cases hdeveloper : start.role = "developer"
  · have hrun : Developing (Machine.exec (mint sec environment) (new keys start) requests) ↔ _ :=
      Machine.exec_iff_every (J := Limited start) (fun s q h => h.mint)
        (fun s q _ => developing_mint_iff) hnew requests
    have hstart : Developing (new keys start) := fun k hk => absurd hk List.not_mem_nil
    rw [hdeveloper, forall_prop_of_true rfl]
    exact hrun.trans (and_iff_right hstart)
  · refine ⟨fun _ h => absurd h hdeveloper, fun _ k hk => ?_⟩
    by_cases howner : start.role = "owner"
    · rw [howner]
      exact permissions_subset_owner k.role
    · have hrun : Limited start (Machine.exec (mint sec environment) (new keys start) requests) :=
        Machine.exec_invariant (P := fun _ => True) (fun s q _ h => h.mint) hnew fun _ _ => trivial
      rw [hrun.2.2 (by simp [howner, hdeveloper])] at hk
      cases hk

/-- A developer asks for the key of an owner. -/
theorem not_minted_owner :
    ¬ ∀ (sec : Security) (environment : String) (keys : Table ApiKey String ApiKey.id)
      (start : AuthContext) (requests : List MintRequest),
      ∀ k ∈ (Machine.exec (mint sec environment) (new keys start) requests).minted,
        permissions k.role ⊆ permissions start.role := by
  intro h
  have howner := h plainSecurity "production" .empty
    ⟨"user_1", "dev@acme.corp", "acme", "developer"⟩
    [⟨.start, none, 0, ⟨"ci", "owner"⟩, ⟨"AbCdEfGh", "00000001"⟩⟩] _ List.mem_cons_self
  have hp : ("tenant", "delete") ∈ permissions "owner" :=
    mem_permissions.2 ⟨.owner, .tenant, .delete, mem_policyMatrix.2 (Or.inl rfl), rfl, rfl, rfl⟩
  exact delete_not_mem_developer (howner hp)

end Minting

end Create

end FlowMesh
