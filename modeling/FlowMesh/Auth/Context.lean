import FlowMesh.Api.Routers

/-!
# Who makes a request

`get_auth_context` of `app/dependencies.py`: the identity, tenant and role that a request gets
from its API key, from its session token, or, in a development environment, by default. What it
uses of other packages is a parameter: the salted hash of a secret, and the decoding of a session
token (`Security`).

An API key is looked up by the first twelve characters of its token, in the keys of all tenants.
A record answers for its own token and no other (`contextOf_getAuthContext`), but it does so only
if no other record that is not revoked has the same twelve characters, and if its expiry has a
time zone (`authenticates_iff`): every other exception inside the lookup is dropped.
-/

namespace FlowMesh

open Python Database

/-! ## Keys, claims and contexts -/

/-- A `datetime` from the database; some databases give it back without its time zone. -/
structure Datetime where
  instant : ℤ
  aware : Bool

/-- `d < datetime.now(timezone.utc)`. -/
def Datetime.isBefore (d : Datetime) (now : ℤ) : Except PyError Bool :=
  if d.aware then .ok (d.instant < now)
  else .error ⟨.typeError, "can't compare offset-naive and offset-aware datetimes"⟩

/-- `ApiKey`. -/
structure ApiKey where
  id : String
  tenantId : String
  name : String
  keyPrefix : String
  hashedKey : String
  role : String
  expiresAt : Option Datetime
  revoked : Bool

/-- The payload of a session token. -/
structure TokenClaims where
  sub : String
  tenantId : String
  role : String
  email : String
  deriving DecidableEq

/-- `AuthContext`. -/
structure AuthContext where
  userId : String
  email : String
  tenantId : String
  role : String
  deriving DecidableEq

/-- The hash of a secret, and the payload of a session token that is valid at a time. -/
structure Security where
  hashSecret : String → String
  decodeAccessToken : ℤ → String → Option TokenClaims

/-- `verify_secret`. -/
def Security.verifySecret (sec : Security) (secret hashed : String) : Bool :=
  sec.hashSecret secret = hashed

/-- What `get_auth_context` reads of a request. -/
structure AuthHeaders where
  credentials : Option String := none
  xTenantId : Option String := none
  xApiKey : Option String := none

/-- `s.startswith("flm_")`. -/
def isKeyToken (s : String) : Bool := "flm_".toList.isPrefixOf s.toList

/-- `raw_token[:12]`. -/
def tokenPrefix (token : String) : String := String.ofList (token.toList.take 12)

/-- `settings.environment in ("development", "test")`. -/
def isDevelopment (environment : String) : Bool :=
  environment = "development" || environment = "test"

/-! ## `get_auth_context` -/

/-- The context of a key record. -/
def ApiKey.context (k : ApiKey) : AuthContext where
  userId := "api_key_" ++ k.id
  email := "agent-" ++ k.name ++ "@" ++ k.tenantId ++ ".key"
  tenantId := k.tenantId
  role := k.role

/-- `scalar_one_or_none` on the rows of a query. -/
def scalarOneOrNone {α : Type} : List α → Except PyError (Option α)
  | [] => .ok none
  | [a] => .ok (some a)
  | _ => .error ⟨.multipleResultsFound, "Multiple rows were found when one or none was required"⟩

section Context

variable (sec : Security) (environment : String) (keys : Table ApiKey String ApiKey.id) (now : ℤ)
  (headers : AuthHeaders)

/-- `x_api_key or (credentials if they start with "flm_")`. -/
def AuthHeaders.rawApiKey : Option String :=
  (orElse headers.xApiKey (headers.credentials.filter isKeyToken)).filter (· ≠ "")

/-- The tenant that the request asks for is the one of its credentials. -/
def checkTenant (tenantId credentials : String) : Except PyError Unit :=
  match orElse headers.xTenantId none with
  | some x =>
    if x ≠ tenantId then
      .error (httpException 403 ("Cross-tenant access forbidden: X-Tenant-ID '" ++ x ++
        "' does not match " ++ credentials ++ " '" ++ tenantId ++ "'"))
    else .ok ()
  | none => .ok ()

/-- The rows of the lookup. -/
def keysOf (rawApiKey : String) : List ApiKey :=
  keys.rows.filter fun k => k.keyPrefix = tokenPrefix rawApiKey && !k.revoked

/-- A record that the token belongs to: its expiry and its tenant. -/
def admitKey (k : ApiKey) : Except PyError AuthContext := do
  let expired ← match k.expiresAt with
    | none => pure false
    | some e => e.isBefore now
  if expired then .error (httpException 401 "API key has expired")
  else do
    checkTenant headers k.tenantId "API key tenant"
    return k.context

/-- The `try` block of the lookup. -/
def lookupKey (rawApiKey : String) : Except PyError (Option AuthContext) := do
  match ← scalarOneOrNone (keysOf keys rawApiKey) with
  | none => return none
  | some k =>
    if sec.verifySecret rawApiKey k.hashedKey then return some (← admitKey now headers k)
    else return none

/-- The exception is an `HTTPException`. -/
def isHttpException (e : PyError) : Bool :=
  match e.kind with
  | .httpException _ => true
  | _ => false

/-- Authentication by an API key. -/
def apiKeyContext (rawApiKey : String) : Except PyError AuthContext :=
  match lookupKey sec keys now headers rawApiKey with
  | .ok (some auth) => .ok auth
  | .ok none => .error (httpException 401 "Invalid or revoked API key")
  | .error e =>
    if isHttpException e then .error e
    else .error (httpException 401 "Invalid or revoked API key")

/-- Authentication by a session token. -/
def sessionContext (token : String) : Except PyError AuthContext :=
  match sec.decodeAccessToken now token with
  | none => .error (httpException 401 "Invalid or expired authentication credentials")
  | some c => do
    checkTenant headers c.tenantId "session credentials"
    return ⟨c.sub, c.email, c.tenantId, c.role⟩

/-- `get_auth_context`. -/
def getAuthContext : Except PyError AuthContext :=
  match headers.rawApiKey with
  | some rawApiKey => apiKeyContext sec keys now headers rawApiKey
  | none =>
    match headers.credentials with
    | some token => sessionContext sec now headers token
    | none =>
      if isDevelopment environment then
        .ok ⟨"user_dev_01", "alex.dev@acme.corp",
          (orElse headers.xTenantId none).getD "tenant_acme", "owner"⟩
      else .error (httpException 401
        "Authentication required. Provide a valid Bearer token or X-API-Key.")

end Context

/-! ## A key and its token -/

/-- The record is past its expiry. -/
def ApiKey.Expired (k : ApiKey) (now : ℤ) : Prop := ∃ e ∈ k.expiresAt, e.instant < now

/-- The record was stored for the token. -/
structure ApiKey.StoredFor (sec : Security) (k : ApiKey) (token : String) : Prop where
  keyPrefix : k.keyPrefix = tokenPrefix token
  hashedKey : k.hashedKey = sec.hashSecret token

/-- The request asks for the tenant of the record, or for none. -/
def AuthHeaders.Suits (headers : AuthHeaders) (k : ApiKey) : Prop :=
  ∀ x ∈ orElse headers.xTenantId none, x = k.tenantId

section Lookup

variable {sec : Security} {environment : String} {keys : Table ApiKey String ApiKey.id} {now : ℤ}
  {headers : AuthHeaders} {token : String} {k : ApiKey}

theorem scalarOneOrNone_eq_some {α : Type} {l : List α} {a : α} :
    scalarOneOrNone l = .ok (some a) ↔ l = [a] := by
  match l with
  | [] => simp [scalarOneOrNone]
  | [b] => simp [scalarOneOrNone]
  | _ :: _ :: _ => simp [scalarOneOrNone]

theorem mem_keysOf : k ∈ keysOf keys token ↔
    k ∈ keys ∧ k.keyPrefix = tokenPrefix token ∧ k.revoked = false := by
  simp [keysOf, Table.mem_iff]

theorem checkTenant_eq_ok {tenantId credentials : String} :
    checkTenant headers tenantId credentials = .ok () ↔
      ∀ x ∈ orElse headers.xTenantId none, x = tenantId := by
  unfold checkTenant
  cases orElse headers.xTenantId none with
  | none => simp
  | some x =>
    by_cases hx : x = tenantId
    · simp [hx]
    · simp [hx]

/-- A record is admitted exactly if its expiry can be compared and has not passed, and the
request asks for its tenant. -/
theorem admitKey_eq_ok {auth : AuthContext} :
    admitKey now headers k = .ok auth ↔ auth = k.context ∧
      (¬ k.Expired now ∧ ∀ e ∈ k.expiresAt, e.aware = true) ∧ headers.Suits k := by
  have hswap : ∀ a b : AuthContext, (Except.ok a : Except PyError AuthContext) = .ok b ↔ b = a :=
    fun a b => ⟨fun h => (Except.ok.inj h).symm, fun h => congrArg Except.ok h.symm⟩
  have hsuits : headers.Suits k ↔ checkTenant headers k.tenantId "API key tenant" = .ok () :=
    checkTenant_eq_ok.symm
  rw [hsuits]
  simp only [admitKey, ApiKey.Expired]
  cases k.expiresAt with
  | none =>
    cases checkTenant headers k.tenantId "API key tenant" <;>
      simp [bind, Except.bind, pure, Except.pure, hswap]
  | some e =>
    by_cases haware : e.aware = true
    · by_cases hpast : e.instant < now
      · simp [Datetime.isBefore, haware, hpast, bind, Except.bind]
      · cases checkTenant headers k.tenantId "API key tenant" <;>
          simp [Datetime.isBefore, haware, hpast, bind, Except.bind, pure, Except.pure, hswap]
    · simp [Datetime.isBefore, haware, bind, Except.bind]

variable (hkey : headers.rawApiKey = some token)
include hkey

/-- The lookup answers with a context exactly if it finds one row, which is the token's and is
admitted. -/
theorem getAuthContext_eq_ok {auth : AuthContext} :
    getAuthContext sec environment keys now headers = .ok auth ↔
      ∃ k, keysOf keys token = [k] ∧ sec.verifySecret token k.hashedKey = true ∧
        admitKey now headers k = .ok auth := by
  simp only [getAuthContext, hkey, apiKeyContext]
  -- the query finds no row, one row, or too many
  match hrows : keysOf keys token with
  | [] => simp [lookupKey, hrows, scalarOneOrNone, bind, Except.bind, pure, Except.pure]
  | [k] =>
    by_cases hverify : sec.verifySecret token k.hashedKey = true
    · cases hadmit : admitKey now headers k with
      | error e =>
        by_cases hhttp : isHttpException e = true
        · simp [lookupKey, hrows, scalarOneOrNone, hverify, hadmit, hhttp, bind, Except.bind]
        · simp [lookupKey, hrows, scalarOneOrNone, hverify, hadmit, hhttp, bind, Except.bind]
      | ok auth' =>
        simp [lookupKey, hrows, scalarOneOrNone, hverify, hadmit, bind, Except.bind, pure,
          Except.pure]
    · simp [lookupKey, hrows, scalarOneOrNone, hverify, bind, Except.bind, pure, Except.pure]
  | _ :: _ :: _ =>
    simp [lookupKey, hrows, scalarOneOrNone, isHttpException, bind, Except.bind]

omit hkey

/-- The query finds this record and no other. -/
theorem keysOf_eq_singleton : keysOf keys token = [k] ↔
    (k ∈ keys ∧ k.keyPrefix = tokenPrefix token ∧ k.revoked = false) ∧
      ∀ k' ∈ keys, k'.revoked = false → k'.keyPrefix = tokenPrefix token → k' = k := by
  have hnodup : (keysOf keys token).Nodup := (List.Nodup.of_map _ keys.unique).filter _
  rw [← mem_keysOf]
  constructor
  · intro h
    rw [h]
    refine ⟨List.mem_singleton_self k, fun k' hk' hrevoked hpre => ?_⟩
    have hmem : k' ∈ keysOf keys token := mem_keysOf.2 ⟨hk', hpre, hrevoked⟩
    rw [h] at hmem
    exact List.mem_singleton.1 hmem
  · rintro ⟨hmem, hall⟩
    have hone : ∀ k' ∈ keysOf keys token, k' = k := by
      intro k' hk'
      obtain ⟨hin, hpre, hrevoked⟩ := mem_keysOf.1 hk'
      exact hall k' hin hrevoked hpre
    match hrows : keysOf keys token with
    | [] => simp [hrows] at hmem
    | [k'] => rw [hone k' (by simp [hrows])]
    | a :: b :: l =>
      have hab : a = b := (hone a (by simp [hrows])).trans (hone b (by simp [hrows])).symm
      rw [hrows] at hnodup
      simp [hab] at hnodup

theorem context_inj {k' : ApiKey} (hk : k ∈ keys) (hk' : k' ∈ keys)
    (h : k.context = k'.context) : k = k' := by
  have hid : "api_key_" ++ k.id = "api_key_" ++ k'.id := congrArg AuthContext.userId h
  exact keys.eq_of_key_eq hk hk' ((String.append_right_inj "api_key_").1 hid)

variable {tokenOf : ApiKey → String}

/-- When a request with the token gets the context of a record. -/
theorem getAuthContext_eq_context (hinj : Function.Injective sec.hashSecret)
    (hstored : ∀ k ∈ keys, k.StoredFor sec (tokenOf k)) (hkey : headers.rawApiKey = some token)
    (hsuits : ∀ k ∈ keys, tokenOf k = token → headers.Suits k) (hk : k ∈ keys) :
    getAuthContext sec environment keys now headers = .ok k.context ↔
      (tokenOf k = token ∧ k.revoked = false ∧ ¬ k.Expired now) ∧
        (∀ k' ∈ keys, k'.revoked = false → k'.keyPrefix = k.keyPrefix → k' = k) ∧
          ∀ e ∈ k.expiresAt, e.aware = true := by
  have hverify : ∀ k ∈ keys, (sec.verifySecret token k.hashedKey = true ↔ tokenOf k = token) := by
    intro k hk
    rw [Security.verifySecret, decide_eq_true_iff, (hstored k hk).hashedKey, hinj.eq_iff, eq_comm]
  have hpre : tokenOf k = token → k.keyPrefix = tokenPrefix token := by
    rintro rfl
    exact (hstored k hk).keyPrefix
  rw [getAuthContext_eq_ok hkey]
  constructor
  · rintro ⟨k', hrows, htoken, hadmit⟩
    obtain ⟨⟨hk', -, hrevoked⟩, hone⟩ := keysOf_eq_singleton.1 hrows
    have htoken' := (hverify k' hk').1 htoken
    obtain ⟨hcontext, ⟨hexpired, haware⟩, -⟩ := admitKey_eq_ok.1 hadmit
    obtain rfl := context_inj hk hk' hcontext
    refine ⟨⟨htoken', hrevoked, hexpired⟩, fun k' hk' hr hp => ?_, haware⟩
    exact hone k' hk' hr (hp.trans (hpre htoken'))
  · rintro ⟨⟨htoken, hrevoked, hexpired⟩, hone, haware⟩
    have hrows : keysOf keys token = [k] := by
      refine keysOf_eq_singleton.2 ⟨⟨hk, hpre htoken, hrevoked⟩, fun k' hk' hr hp => ?_⟩
      exact hone k' hk' hr (hp.trans (hpre htoken).symm)
    exact ⟨k, hrows, (hverify k hk).2 htoken,
      admitKey_eq_ok.2 ⟨rfl, ⟨hexpired, haware⟩, hsuits k hk htoken⟩⟩

/-- **When a key answers for itself**: whatever keys are stored, a request with a token gets the
context of exactly the records that the token belongs to and that are neither revoked nor
expired, if and only if each such record is the only one that is not revoked with its twelve
characters, and its expiry has a time zone. -/
theorem authenticates_iff (sec : Security) (environment : String)
    (keys : Table ApiKey String ApiKey.id) (now : ℤ) (headers : AuthHeaders) (token : String)
    (tokenOf : ApiKey → String) (hinj : Function.Injective sec.hashSecret)
    (hstored : ∀ k ∈ keys, k.StoredFor sec (tokenOf k)) (hkey : headers.rawApiKey = some token)
    (hsuits : ∀ k ∈ keys, tokenOf k = token → headers.Suits k) :
    (∀ k ∈ keys, getAuthContext sec environment keys now headers = .ok k.context ↔
        tokenOf k = token ∧ k.revoked = false ∧ ¬ k.Expired now) ↔
      ∀ k ∈ keys, tokenOf k = token → k.revoked = false → ¬ k.Expired now →
        (∀ k' ∈ keys, k'.revoked = false → k'.keyPrefix = k.keyPrefix → k' = k) ∧
          ∀ e ∈ k.expiresAt, e.aware = true := by
  constructor
  · intro h k hk htoken hrevoked hexpired
    have hcontext := (h k hk).2 ⟨htoken, hrevoked, hexpired⟩
    exact ((getAuthContext_eq_context hinj hstored hkey hsuits hk).1 hcontext).2
  · intro h k hk
    rw [getAuthContext_eq_context hinj hstored hkey hsuits hk]
    exact and_iff_left_of_imp fun ⟨htoken, hrevoked, hexpired⟩ => h k hk htoken hrevoked hexpired

end Lookup

/-! ## Two keys with one prefix -/

/-- A package that hashes nothing and knows no session. -/
def plainSecurity : Security := ⟨id, fun _ _ => none⟩

/-- A token. -/
def tokenOne : String := "flm_AbCdEfGhIjKlMnOpQrStUvWxYz0123456789-_one00"

/-- A token with the same first twelve characters. -/
def tokenTwo : String := "flm_AbCdEfGhZyXwVuTsRqPoNmLkJi9876543210-_two00"

/-- A key of a tenant, stored for a token. -/
def storedKey (id tenantId token : String) : ApiKey :=
  ⟨id, tenantId, "ci", tokenPrefix token, token, "developer", none, false⟩

/-- A token with other characters. -/
def tokenThree : String := "flm_QpOnMlKjIhGfEdCbA9876543210ZyXwVuTsR-_three"

/-- Keys of two tenants, with tokens that start differently. -/
def apartKeys : Table ApiKey String ApiKey.id :=
  ⟨[storedKey "key_1" "acme" tokenOne, storedKey "key_3" "beta" tokenThree], by decide⟩

/-- Each authenticates its own token. -/
theorem authenticates_apartKeys :
    getAuthContext plainSecurity "production" apartKeys 0
        (AuthHeaders.mk none none (some tokenOne)) =
          .ok (storedKey "key_1" "acme" tokenOne).context ∧
      getAuthContext plainSecurity "production" apartKeys 0
        (AuthHeaders.mk none none (some tokenThree)) =
          .ok (storedKey "key_3" "beta" tokenThree).context := by
  have hkeys : ∀ k ∈ apartKeys, k = storedKey "key_1" "acme" tokenOne ∨
      k = storedKey "key_3" "beta" tokenThree := fun k hk => List.mem_pair.1 hk
  have hprefixes : tokenPrefix tokenOne ≠ tokenPrefix tokenThree := by decide
  have hstored : ∀ k ∈ apartKeys, k.StoredFor plainSecurity k.hashedKey := by
    intro k hk
    rcases hkeys k hk with rfl | rfl <;> exact ⟨rfl, rfl⟩
  have hapart : ∀ k ∈ apartKeys, ∀ k' ∈ apartKeys, k'.keyPrefix = k.keyPrefix → k' = k := by
    intro k hk k' hk' hsame
    rcases hkeys k hk with rfl | rfl <;> rcases hkeys k' hk' with rfl | rfl
    · rfl
    · exact absurd hsame.symm hprefixes
    · exact absurd hsame hprefixes
    · rfl
  have hforever : ∀ k ∈ apartKeys, k.expiresAt = none := by
    intro k hk
    rcases hkeys k hk with rfl | rfl <;> rfl
  have hboth : ∀ token, token ∈ [tokenOne, tokenThree] → ∀ k ∈ apartKeys,
      k.hashedKey = token → getAuthContext plainSecurity "production" apartKeys 0
        (AuthHeaders.mk none none (some token)) = .ok k.context := by
    intro token htoken k hk hhashed
    refine ((authenticates_iff plainSecurity "production" apartKeys 0 _ token ApiKey.hashedKey
      Function.injective_id hstored ?_ ?_).2 ?_ k hk).2 ⟨hhashed, ?_, ?_⟩
    · rcases List.mem_pair.1 htoken with rfl | rfl <;> decide
    · rintro k - - x hx
      cases hx
    · intro k hk _ _ _
      refine ⟨fun k' hk' _ hsame => hapart k hk k' hk' hsame, ?_⟩
      simp [hforever k hk]
    · rcases hkeys k hk with rfl | rfl <;> rfl
    · rintro ⟨e, he, -⟩
      simp [hforever k hk] at he
  exact ⟨hboth tokenOne (by simp) _ List.mem_cons_self rfl,
    hboth tokenThree (by simp) _ (List.mem_cons_of_mem _ List.mem_cons_self) rfl⟩

/-- Two keys of different tenants, with different tokens that start alike. -/
def twoKeys : Table ApiKey String ApiKey.id :=
  ⟨[storedKey "key_1" "acme" tokenOne, storedKey "key_2" "beta" tokenTwo],
    by decide⟩

/-- Neither of them authenticates. -/
theorem not_authenticates_twoKeys :
    ¬ ∀ k ∈ twoKeys, getAuthContext plainSecurity "production" twoKeys 0
        (AuthHeaders.mk none none (some tokenOne)) = .ok k.context ↔
      k.hashedKey = tokenOne ∧ k.revoked = false ∧ ¬ k.Expired 0 := by
  intro h
  have hmem : storedKey "key_1" "acme" tokenOne ∈ twoKeys := List.mem_cons_self
  have hcontext := (h _ hmem).2 ⟨rfl, rfl, fun ⟨e, he, _⟩ => by cases he⟩
  revert hcontext
  decide

end FlowMesh
