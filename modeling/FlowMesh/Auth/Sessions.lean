import FlowMesh.Auth.Context
import FlowMesh.Library.Machine

/-!
# Session tokens

`login` of `routers/users.py` and `switch_active_tenant` of `routers/tenants.py`, the two
endpoints that issue session tokens. A login reads the role from the membership of the user; a
switch copies it from the token that it is made with, and asks only whether the target tenant
exists.

`SessionStore` keeps, with each token issued, the memberships at the time of issue. Outside
development every token is backed by a membership exactly if every switch that goes through
leads to a tenant of which the user is a member with the role of the token (`backed_iff`).
-/

namespace FlowMesh

open Python Database

/-! ## Rows -/

/-- `User`. -/
structure User where
  id : String
  email : String
  hashedPassword : Option String

/-- `Membership`. -/
structure Membership where
  id : String
  tenantId : String
  userId : String
  role : String
  deriving DecidableEq

/-- `Tenant`. -/
structure Tenant where
  id : String
  slug : String

/-- A token issued, its payload, and the memberships at the time. -/
structure Issue where
  token : String
  claims : TokenClaims
  memberships : List Membership
  deriving DecidableEq

/-- The tables, and the tokens issued so far. -/
structure SessionStore where
  users : Table User String User.id
  tenants : Table Tenant String Tenant.id
  memberships : Table Membership String Membership.id
  issued : List Issue

/-- The membership backs the token. -/
def Membership.Backs (m : Membership) (c : TokenClaims) : Prop :=
  m.userId = c.sub ∧ m.tenantId = c.tenantId ∧ m.role = c.role

/-- The token was backed by a membership when it was issued. -/
def Issue.Backed (i : Issue) : Prop := ∃ m ∈ i.memberships, m.Backs i.claims

/-! ## Requests -/

/-- `LoginRequest`. -/
structure LoginRequest where
  email : String
  password : String
  tenantId : String := "tenant_acme"
  role : String := "owner"

/-- A request for a token. A switch comes with a token issued before. -/
inductive SessionRequest
  | login (payload : LoginRequest)
  | switch (i : ℕ) (xTenantId : Option String) (now : ℤ) (targetTenantId : String)

/-- The encoding of session tokens, and the interpreter's `str.lower`. -/
structure TokenSecurity extends Security where
  encode : TokenClaims → String
  lower : String → String

/-- A token decodes to the payload it was made from, until it expires, and does not look like an
API key. -/
structure TokenSecurity.Lawful (sec : TokenSecurity) : Prop where
  decode_encode : ∀ c now, sec.decodeAccessToken now (sec.encode c) = some c ∨
    sec.decodeAccessToken now (sec.encode c) = none
  not_isKeyToken : ∀ c, isKeyToken (sec.encode c) = false

/-- `IntegrityError`. -/
def integrityError (column : String) : PyError :=
  ⟨.integrityError, "UNIQUE constraint failed: " ++ column⟩

/-- Insert a row, or fail on its primary key. -/
def insertRow {α κ : Type} {key : α → κ} [DecidableEq κ] (column : String)
    (t : Table α κ key) (a : α) : Except PyError (Table α κ key) :=
  match t.insert? a with
  | some t => .ok t
  | none => .error (integrityError column)

namespace SessionStore

section Requests

variable (sec : TokenSecurity) (environment : String) (keys : Table ApiKey String ApiKey.id)
  (s : SessionStore)

/-- Add a tenant, whose slug must be new as well. -/
def addTenant (t : Tenant) : Except PyError SessionStore :=
  if s.tenants.rows.any (·.slug = t.slug) then .error (integrityError "tenants.slug")
  else do
    let tenants ← insertRow "tenants.id" s.tenants t
    return { s with tenants }

/-- Issue a token. -/
def issue (c : TokenClaims) : String × SessionStore :=
  (sec.encode c, { s with issued := s.issued ++ [⟨sec.encode c, c, s.memberships.rows⟩] })

/-! ### `login` -/

/-- `payload.email.lower().strip()`. -/
def normEmail (email : String) : String := String.ofList (strip (sec.lower email).toList)

/-- The user of a login; in development a new one. -/
def loginUser (payload : LoginRequest) : Except PyError (User × SessionStore) := do
  match ← scalarOneOrNone (s.users.rows.filter (·.email = normEmail sec payload.email)) with
  | some user => return (user, s)
  | none =>
    if isDevelopment environment then do
      let name := (normEmail sec payload.email).toList.takeWhile (· ≠ '@')
      let user : User := ⟨"usr_" ++ String.ofList name, normEmail sec payload.email,
        some (sec.hashSecret payload.password)⟩
      let users ← insertRow "users.id" s.users user
      return (user, { s with users })
    else .error (httpException 401 "Invalid email or password")

/-- Store the hash of the password. -/
def setPassword (user : User) (password : String) : SessionStore :=
  { s with
    users := s.users.update (·.id = user.id)
      (fun u => { u with hashedPassword := some (sec.hashSecret password) }) fun _ => rfl }

/-- The check of the password; a user without one gets this one. -/
def checkPassword (user : User) (password : String) : Except PyError SessionStore :=
  match orElse user.hashedPassword none with
  | some hashed =>
    if sec.verifySecret password hashed then .ok s
    else if isDevelopment environment then .ok (s.setPassword sec user password)
    else .error (httpException 401 "Invalid email or password")
  | none => .ok (s.setPassword sec user password)

/-- In development, the tenant of a login is created if it does not exist. -/
def loginTenant (tenantId : String) : Except PyError SessionStore :=
  match s.tenants.get? tenantId with
  | some _ => .ok s
  | none => if isDevelopment environment then s.addTenant ⟨tenantId, tenantId⟩ else .ok s

/-- The role of a login: that of the membership; in development there is a new membership if there
was none. -/
def loginRole (payload : LoginRequest) (user : User) : Except PyError (String × SessionStore) := do
  match ← scalarOneOrNone (s.memberships.rows.filter fun m =>
      m.userId = user.id && m.tenantId = payload.tenantId) with
  | some membership => return (membership.role, s)
  | none =>
    if isDevelopment environment then do
      let effectiveRole :=
        if payload.role ∈ ["owner", "operator", "developer", "viewer"] then payload.role
        else "developer"
      let memberships ← insertRow "memberships.id" s.memberships
        ⟨"mem_" ++ user.id ++ "_" ++ payload.tenantId, payload.tenantId, user.id, effectiveRole⟩
      return (effectiveRole, { s with memberships })
    else .error (httpException 403 ("User '" ++ normEmail sec payload.email ++
      "' is not a member of tenant '" ++ payload.tenantId ++ "'"))

/-- `login`. -/
def login (payload : LoginRequest) : Except PyError (String × SessionStore) := do
  let (user, s) ← s.loginUser sec environment payload
  let s ← s.checkPassword sec environment user payload.password
  let s ← s.loginTenant environment payload.tenantId
  let (effectiveRole, s) ← s.loginRole sec environment payload user
  return s.issue sec ⟨user.id, payload.tenantId, effectiveRole, normEmail sec payload.email⟩

/-! ### `switch_active_tenant` -/

/-- `_ensure_default_tenants`. -/
def ensureDefaultTenants : Except PyError SessionStore :=
  if isDevelopment environment then
    [Tenant.mk "tenant_acme" "acme-corp", ⟨"tenant_prod", "production-workspace"⟩,
      ⟨"tenant_beta", "beta-logistics"⟩].foldlM (fun s t =>
        match s.tenants.get? t.id with
        | some _ => .ok s
        | none => s.addTenant t) s
  else .ok s

/-- `switch_active_tenant`; the default tenants are committed first. -/
def switchActiveTenant (targetTenantId : String) (auth : AuthContext) :
    Except PyError String × SessionStore :=
  match s.ensureDefaultTenants environment with
  | .error e => (.error e, s)
  | .ok s =>
    match s.tenants.get? targetTenantId with
    | none => (.error (httpException 404 "Tenant not found or membership not granted"), s)
    | some target => (s.issue sec ⟨auth.userId, target.id, auth.role, auth.email⟩).map .ok id

/-- Answer a request; a login that raises is rolled back. -/
def answer (q : SessionRequest) : Except PyError String × SessionStore :=
  match q with
  | .login payload =>
    match s.login sec environment payload with
    | .ok (token, s) => (.ok token, s)
    | .error e => (.error e, s)
  | .switch i xTenantId now targetTenantId =>
    match s.issued[i]? with
    | none => (.error (httpException 401 "Invalid or expired authentication credentials"), s)
    | some issue =>
      match getAuthContext sec.toSecurity environment keys now
        { credentials := some issue.token, xTenantId } with
      | .error e => (.error e, s)
      | .ok auth => s.switchActiveTenant sec environment targetTenantId auth

end Requests

/-! ## Outside development -/

/-- The request, if it is a switch that goes through, leads to a tenant of which the user of the
token is a member with the token's role. -/
def Covered (sec : TokenSecurity) (s : SessionStore) (q : SessionRequest) : Prop :=
  match q with
  | .login _ => True
  | .switch i xTenantId now targetTenantId =>
    ∀ issue, s.issued[i]? = some issue → ∀ c, sec.decodeAccessToken now issue.token = some c →
      (∀ x ∈ orElse xTenantId none, x = c.tenantId) →
        (∃ t ∈ s.tenants, t.id = targetTenantId) →
          ∃ m ∈ s.memberships, m.Backs { c with tenantId := targetTenantId }

variable {sec : TokenSecurity} {environment : String} {keys : Table ApiKey String ApiKey.id}
  {s s' : SessionStore}

/-- All tokens issued so far were backed. -/
def AllBacked (s : SessionStore) : Prop := ∀ i ∈ s.issued, i.Backed

/-- The tokens issued so far are tokens of their payloads. -/
def Encoded (sec : TokenSecurity) (s : SessionStore) : Prop :=
  ∀ i ∈ s.issued, i.token = sec.encode i.claims

theorem allBacked_issue {c : TokenClaims} : (s.issue sec c).2.AllBacked ↔
    s.AllBacked ∧ ∃ m ∈ s.memberships, m.Backs c := by
  simp only [AllBacked, issue, List.forall_mem_append, List.forall_mem_singleton, Issue.Backed,
    Table.mem_iff]

theorem encoded_issue {c : TokenClaims} (h : s.Encoded sec) : (s.issue sec c).2.Encoded sec := by
  simpa only [Encoded, issue, List.forall_mem_append, List.forall_mem_singleton, and_true]

section Login

variable (henv : isDevelopment environment = false) {payload : LoginRequest} {user : User}
include henv

theorem loginUser_eq_ok (h : s.loginUser sec environment payload = .ok (user, s')) : s' = s := by
  simp only [loginUser, henv] at h
  rcases hrow : scalarOneOrNone (s.users.rows.filter (·.email = normEmail sec payload.email)) with
    e | _ | row
  · simp [hrow, bind, Except.bind] at h
  · simp [hrow, bind, Except.bind] at h
  · simp [hrow, bind, Except.bind, pure, Except.pure] at h
    exact h.2.symm

theorem checkPassword_eq_ok {password : String}
    (h : s.checkPassword sec environment user password = .ok s') :
    s'.issued = s.issued ∧ s'.memberships = s.memberships := by
  simp only [checkPassword, henv] at h
  split at h
  · split at h
    · cases h
      exact ⟨rfl, rfl⟩
    · simp at h
  · cases h
    exact ⟨rfl, rfl⟩

theorem loginTenant_eq_ok {tenantId : String} (h : s.loginTenant environment tenantId = .ok s') :
    s' = s := by
  simp only [loginTenant, henv] at h
  split at h
  · cases h
    rfl
  · simp only [Bool.false_eq_true, if_false] at h
    cases h
    rfl

/-- The role of a login is that of a membership. -/
theorem loginRole_eq_ok {role : String}
    (h : s.loginRole sec environment payload user = .ok (role, s')) :
    s' = s ∧ ∃ m ∈ s.memberships, m.userId = user.id ∧ m.tenantId = payload.tenantId ∧
      m.role = role := by
  simp only [loginRole, henv] at h
  rcases hrow : scalarOneOrNone (s.memberships.rows.filter fun m =>
      m.userId = user.id && m.tenantId = payload.tenantId) with e | _ | m
  · simp [hrow, bind, Except.bind] at h
  · simp [hrow, bind, Except.bind] at h
  · simp [hrow, bind, Except.bind, pure, Except.pure] at h
    obtain ⟨rfl, rfl⟩ := h
    have hmem : m ∈ s.memberships.rows.filter fun m =>
        m.userId = user.id && m.tenantId = payload.tenantId := by
      rw [scalarOneOrNone_eq_some.1 hrow]
      exact List.mem_singleton_self m
    obtain ⟨hm, huser⟩ := List.mem_filter.1 hmem
    rw [Bool.and_eq_true, decide_eq_true_iff, decide_eq_true_iff] at huser
    exact ⟨rfl, m, hm, huser.1, huser.2, rfl⟩

variable (sec s payload) in
/-- A login raises, or issues a token that a membership backs. -/
theorem login_cases :
    (∃ e, s.login sec environment payload = .error e) ∨
      ∃ (s' : SessionStore) (c : TokenClaims), s'.issued = s.issued ∧
        (∃ m ∈ s'.memberships, m.Backs c) ∧
          s.login sec environment payload = .ok (s'.issue sec c) := by
  unfold login
  cases huser : s.loginUser sec environment payload with
  | error e => exact Or.inl ⟨e, rfl⟩
  | ok r₁ =>
    obtain ⟨user, s₁⟩ := r₁
    obtain rfl := loginUser_eq_ok henv huser
    simp only [bind, Except.bind]
    cases hpassword : s₁.checkPassword sec environment user payload.password with
    | error e => exact Or.inl ⟨e, rfl⟩
    | ok s₂ =>
      obtain ⟨hissued, -⟩ := checkPassword_eq_ok henv hpassword
      simp only
      cases htenant : s₂.loginTenant environment payload.tenantId with
      | error e => exact Or.inl ⟨e, rfl⟩
      | ok s₃ =>
        obtain rfl := loginTenant_eq_ok henv htenant
        simp only
        cases hrole : s₃.loginRole sec environment payload user with
        | error e => exact Or.inl ⟨e, rfl⟩
        | ok r₄ =>
          obtain ⟨role, s₄⟩ := r₄
          obtain ⟨rfl, m, hm, huser, htenant, hrole⟩ := loginRole_eq_ok henv hrole
          exact Or.inr ⟨s₄, _, hissued, ⟨m, hm, huser, htenant, hrole⟩, rfl⟩

end Login

/-! ### A switch -/

section Switch

variable {i : ℕ} {xTenantId : Option String} {now : ℤ} {targetTenantId : String}

/-- The identity behind a session token. -/
theorem getAuthContext_session (hsec : sec.Lawful) {c : TokenClaims} {auth : AuthContext} :
    getAuthContext sec.toSecurity environment keys now
        { credentials := some (sec.encode c), xTenantId } = .ok auth ↔
      sec.decodeAccessToken now (sec.encode c) = some c ∧
        (∀ x ∈ orElse xTenantId none, x = c.tenantId) ∧
          auth = ⟨c.sub, c.email, c.tenantId, c.role⟩ := by
  have hraw : (AuthHeaders.mk (some (sec.encode c)) xTenantId none).rawApiKey = none := by
    simp [AuthHeaders.rawApiKey, orElse, hsec.not_isKeyToken c]
  simp only [getAuthContext, hraw, sessionContext]
  rcases hsec.decode_encode c now with hdecode | hdecode
  · have hcheck : checkTenant ⟨some (sec.encode c), xTenantId, none⟩ c.tenantId
        "session credentials" = .ok () ↔ ∀ x ∈ orElse xTenantId none, x = c.tenantId :=
      checkTenant_eq_ok
    rw [hdecode, ← hcheck]
    cases htenant : checkTenant ⟨some (sec.encode c), xTenantId, none⟩ c.tenantId
      "session credentials" with
    | error e => simp [htenant, bind, Except.bind]
    | ok u => simp [htenant, bind, Except.bind, pure, Except.pure, eq_comm]
  · simp [hdecode]

/-- A switch to an existing tenant issues a token, any other one does nothing. -/
theorem switchActiveTenant_eq (henv : isDevelopment environment = false) (auth : AuthContext) :
    (s.switchActiveTenant sec environment targetTenantId auth).2 =
      if ∃ t ∈ s.tenants, t.id = targetTenantId then
        (s.issue sec ⟨auth.userId, targetTenantId, auth.role, auth.email⟩).2
      else s := by
  have hdefaults : s.ensureDefaultTenants environment = .ok s := by
    rw [ensureDefaultTenants, henv]
    rfl
  simp only [switchActiveTenant, hdefaults]
  cases htarget : s.tenants.get? targetTenantId with
  | none =>
    rw [if_neg]
    rintro ⟨t, ht, hid⟩
    exact Table.get?_eq_none.1 htarget t ht hid
  | some target =>
    obtain ⟨hmem, rfl⟩ := Table.get?_eq_some.1 htarget
    rw [if_pos ⟨target, hmem, rfl⟩]
    rfl

variable (keys i xTenantId now targetTenantId) in
/-- What a switch with an issued token does. -/
theorem answer_switch (hsec : sec.Lawful) (henv : isDevelopment environment = false)
    (hencoded : s.Encoded sec) :
    (s.answer sec environment keys (.switch i xTenantId now targetTenantId)).2 = s ∧
        (∀ issue c, s.issued[i]? = some issue → sec.decodeAccessToken now issue.token = some c →
          (∀ x ∈ orElse xTenantId none, x = c.tenantId) →
            ¬ ∃ t ∈ s.tenants, t.id = targetTenantId) ∨
      ∃ issue, s.issued[i]? = some issue ∧
        sec.decodeAccessToken now issue.token = some issue.claims ∧
          (∀ x ∈ orElse xTenantId none, x = issue.claims.tenantId) ∧
            (∃ t ∈ s.tenants, t.id = targetTenantId) ∧
              (s.answer sec environment keys (.switch i xTenantId now targetTenantId)).2 =
                (s.issue sec { issue.claims with tenantId := targetTenantId }).2 := by
  simp only [answer]
  cases hissue : s.issued[i]? with
  | none => exact Or.inl ⟨rfl, fun issue c h => by cases h⟩
  | some issue =>
    have htoken : issue.token = sec.encode issue.claims :=
      hencoded issue (List.mem_of_getElem? hissue)
    simp only [htoken]
    cases hauth : getAuthContext sec.toSecurity environment keys now
        { credentials := some (sec.encode issue.claims), xTenantId } with
    | error e =>
      refine Or.inl ⟨rfl, ?_⟩
      rintro _ c ⟨⟩ hdecode hx
      rw [htoken] at hdecode
      have hown : sec.decodeAccessToken now (sec.encode issue.claims) = some issue.claims :=
        (hsec.decode_encode issue.claims now).resolve_right (by simp [hdecode])
      obtain rfl := Option.some.inj (hdecode.symm.trans hown)
      rw [(getAuthContext_session hsec).2 ⟨hown, hx, rfl⟩] at hauth
      cases hauth
    | ok auth =>
      obtain ⟨hdecode, hx, rfl⟩ := (getAuthContext_session hsec).1 hauth
      simp only [switchActiveTenant_eq henv]
      by_cases htarget : ∃ t ∈ s.tenants, t.id = targetTenantId
      · rw [if_pos htarget]
        exact Or.inr ⟨issue, rfl, by rw [htoken]; exact hdecode, hx, htarget, rfl⟩
      · rw [if_neg htarget]
        exact Or.inl ⟨rfl, fun _ _ _ _ _ => htarget⟩

end Switch

/-! ### Whole runs -/

theorem encoded_answer (hsec : sec.Lawful) (henv : isDevelopment environment = false)
    (h : s.Encoded sec) (q : SessionRequest) :
    (s.answer sec environment keys q).2.Encoded sec := by
  cases q with
  | login payload =>
    rcases login_cases sec s henv payload with
      ⟨e, hlogin⟩ | ⟨s', c, hissued, -, hlogin⟩
    · simpa only [answer, hlogin] using h
    · simp only [answer, hlogin]
      refine encoded_issue fun i hi => h i ?_
      rwa [← hissued]
  | switch i xTenantId now targetTenantId =>
    rcases answer_switch keys i xTenantId now targetTenantId hsec henv h with
      ⟨hsame, -⟩ | ⟨issue, -, -, -, -, hnext⟩
    · rwa [hsame]
    · rw [hnext]
      exact encoded_issue h

theorem allBacked_answer_iff (hsec : sec.Lawful) (henv : isDevelopment environment = false)
    (h : s.Encoded sec) (q : SessionRequest) :
    (s.answer sec environment keys q).2.AllBacked ↔ s.AllBacked ∧ s.Covered sec q := by
  cases q with
  | login payload =>
    rcases login_cases sec s henv payload with
      ⟨e, hlogin⟩ | ⟨s', c, hissued, hbacks, hlogin⟩
    · simp [answer, hlogin, Covered]
    · have hkept : s'.AllBacked ↔ s.AllBacked := by rw [AllBacked, AllBacked, hissued]
      simp only [answer, hlogin]
      rw [allBacked_issue, hkept]
      simp [hbacks, Covered]
  | switch i xTenantId now targetTenantId =>
    rcases answer_switch keys i xTenantId now targetTenantId hsec henv h with
      ⟨hsame, hnone⟩ | ⟨issue, hissue, hdecode, hx, htarget, hnext⟩
    · rw [hsame]
      refine (and_iff_left ?_).symm
      intro issue hissue c hdecode hx htarget
      exact absurd htarget (hnone issue c hissue hdecode hx)
    · rw [hnext, allBacked_issue]
      refine and_congr_right fun _ => ⟨?_, fun hcovered => ?_⟩
      · rintro hbacks issue' hissue' c hdecode' - -
        obtain rfl := Option.some.inj (hissue.symm.trans hissue')
        obtain rfl := Option.some.inj (hdecode.symm.trans hdecode')
        exact hbacks
      · exact hcovered issue hissue _ hdecode hx htarget

/-- **When session tokens are backed**: outside development, over every sequence of logins and
switches from any tables, every token issued had a membership with its user, tenant and role when
it was issued, if and only if every switch that goes through leads to a tenant of which the user
of its token is a member with the token's role. -/
theorem backed_iff (sec : TokenSecurity) (environment : String)
    (keys : Table ApiKey String ApiKey.id) (s : SessionStore) (requests : List SessionRequest)
    (hsec : sec.Lawful) (henv : isDevelopment environment = false) (hnone : s.issued = []) :
    (Machine.exec (answer sec environment keys) s requests).AllBacked ↔
      Machine.Every (answer sec environment keys) (Covered sec) s requests := by
  have hstart : s.AllBacked ∧ s.Encoded sec := by
    simp [AllBacked, Encoded, hnone]
  exact (Machine.exec_iff_every (J := Encoded sec) (fun s q h => encoded_answer hsec henv h q)
    (fun s q h => allBacked_answer_iff hsec henv h q) hstart.2 requests).trans
      (and_iff_right hstart.1)

end SessionStore

/-! ## A sample package -/

/-- A field of a sample token. -/
def quoteField (cs : List Char) : List Char := cs.flatMap (fun c => ['x', c]) ++ ['.']

/-- The first field, and what follows it. -/
def unquoteField : List Char → Option (List Char × List Char)
  | '.' :: rest => some ([], rest)
  | 'x' :: c :: rest => (unquoteField rest).map fun r => (c :: r.1, r.2)
  | _ => none

theorem unquoteField_quoteField (cs rest : List Char) :
    unquoteField (quoteField cs ++ rest) = some (cs, rest) := by
  induction cs with
  | nil => rfl
  | cons c cs ih =>
    have hcons : quoteField (c :: cs) ++ rest = 'x' :: c :: (quoteField cs ++ rest) := by
      simp [quoteField]
    rw [hcons, unquoteField, ih]
    rfl

/-- A package whose tokens list the fields of their payload, and do not expire. -/
def sampleSecurity : TokenSecurity where
  hashSecret := id
  lower := id
  encode := fun c => String.ofList ("ey".toList ++ (quoteField c.sub.toList ++
    (quoteField c.tenantId.toList ++ (quoteField c.role.toList ++ quoteField c.email.toList))))
  decodeAccessToken := fun _ token => do
    let (sub, rest) ← unquoteField (token.toList.drop 2)
    let (tenantId, rest) ← unquoteField rest
    let (role, rest) ← unquoteField rest
    let (email, _) ← unquoteField rest
    return ⟨String.ofList sub, String.ofList tenantId, String.ofList role, String.ofList email⟩

theorem lawful_sampleSecurity : sampleSecurity.Lawful where
  decode_encode := by
    intro c now
    have hlast := unquoteField_quoteField c.email.toList []
    rw [List.append_nil] at hlast
    left
    simp [sampleSecurity, unquoteField_quoteField, hlast]
  not_isKeyToken := by
    intro c
    simp only [isKeyToken, sampleSecurity, String.toList_ofList]
    rfl

/-- A developer of one tenant, and a second tenant. -/
def sampleStore (memberships : Table Membership String Membership.id) : SessionStore where
  users := ⟨[⟨"user_1", "dev@acme.corp", some "secret"⟩], by decide⟩
  tenants := ⟨[⟨"acme", "acme-corp"⟩, ⟨"beta", "beta-logistics"⟩], by decide⟩
  memberships
  issued := []

/-- A login, and a switch to the other tenant. -/
def switchToBeta : List SessionRequest :=
  [.login ⟨"dev@acme.corp", "secret", "acme", "developer"⟩, .switch 0 none 0 "beta"]

/-- A member of both tenants. -/
def bothMember : Table Membership String Membership.id :=
  ⟨[⟨"m_1", "acme", "user_1", "developer"⟩, ⟨"m_2", "beta", "user_1", "developer"⟩], by decide⟩

/-- A member of the first tenant only. -/
def acmeMember : Table Membership String Membership.id :=
  ⟨[⟨"m_1", "acme", "user_1", "developer"⟩], by decide⟩

/-- A member of both tenants gets two tokens, which are backed. -/
theorem backed_bothMember :
    (Machine.exec (SessionStore.answer sampleSecurity "production" .empty) (sampleStore bothMember)
      switchToBeta).AllBacked := by
  refine (SessionStore.backed_iff sampleSecurity "production" .empty (sampleStore bothMember)
    switchToBeta lawful_sampleSecurity (by decide) rfl).2 ⟨trivial, ?_, trivial⟩
  let claims : TokenClaims := ⟨"user_1", "acme", "developer", "dev@acme.corp"⟩
  have hfirst : (SessionStore.answer sampleSecurity "production" .empty (sampleStore bothMember)
      (.login ⟨"dev@acme.corp", "secret", "acme", "developer"⟩)).2.issued[0]? =
        some ⟨sampleSecurity.encode claims, claims, bothMember.rows⟩ := by decide
  rintro issue hissue c hdecode - -
  obtain rfl := Option.some.inj (hfirst.symm.trans hissue)
  have hclaims : sampleSecurity.decodeAccessToken 0 (sampleSecurity.encode claims) =
      some claims := by decide
  obtain rfl := Option.some.inj (hclaims.symm.trans hdecode)
  exact ⟨⟨"m_2", "beta", "user_1", "developer"⟩, List.mem_of_getElem? (i := 1) rfl, rfl, rfl, rfl⟩

/-- A member of one tenant gets a token for the other. -/
theorem not_backed_acmeMember :
    ¬ ∀ (sec : TokenSecurity) (environment : String) (keys : Table ApiKey String ApiKey.id)
      (s : SessionStore) (requests : List SessionRequest), sec.Lawful →
        isDevelopment environment = false → s.issued = [] →
          (Machine.exec (SessionStore.answer sec environment keys) s requests).AllBacked := by
  intro h
  have hbacked := h sampleSecurity "production" .empty (sampleStore acmeMember) switchToBeta
    lawful_sampleSecurity (by decide) rfl
  have hsecond : ∃ i ∈ (Machine.exec (SessionStore.answer sampleSecurity "production" .empty)
      (sampleStore acmeMember) switchToBeta).issued,
        i.claims.tenantId = "beta" ∧ i.memberships = acmeMember.rows := by decide
  obtain ⟨i, hi, htenant, hmemberships⟩ := hsecond
  obtain ⟨m, hm, -, htenant', -⟩ := hbacked i hi
  rw [hmemberships] at hm
  obtain rfl := List.mem_singleton.1 hm
  rw [htenant] at htenant'
  revert htenant'
  decide

end FlowMesh
