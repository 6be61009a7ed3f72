import Mathlib.Algebra.Order.Ring.Rat
import Mathlib.Data.Rat.Floor
import FlowMesh.Library.Dict
import FlowMesh.Library.SlidingWindow

/-!
# The rate limiter

`RateLimitMiddleware.dispatch` of `middleware/rate_limiter.py`. Between reading a window and
writing it back nothing is awaited, so the requests of a process pass one after the other, up to
`call_next`. Times are rational numbers: the sixty seconds are subtracted from a double without
rounding.

There is one window for each tenant and class of endpoints (`windowKey_inj`), and a request touches
no other (`windowOf_dispatch`). So every window runs as the sliding window of the library does, and
`sliding_window` says of a whole run what that amounts to.
-/

namespace FlowMesh.RateLimiter

/-! ## Requests and answers -/

/-- The settings that the limiter reads. -/
structure Settings where
  rateLimitEnabled : Bool := true
  rateLimitPerMinute : ℤ := 100
  rateLimitAuthPerMinute : ℤ := 20

/-- A request with the time at which it arrives. -/
structure HttpRequest where
  path : String
  tenantHeader : Option String := none
  now : ℚ

/-- What becomes of a request: it is handed on, and what comes back gets headers; or it is answered
with the status 429; or `window[0]` of an empty window raises. -/
inductive Decision
  | forward
  | accepted (headers : List (String × String))
  | tooManyRequests (message : String) (retryAfterSeconds : ℤ) (headers : List (String × String))
  | indexError

/-- The request is counted and handed on. -/
def Decision.accepts : Decision → Bool
  | .accepted _ => true
  | _ => false

/-- `_EXEMPT_PATHS`. -/
def exemptPaths : List String :=
  ["/health", "/ready", "/metrics", "/docs", "/redoc", "/openapi.json", "/favicon.ico"]

/-- `path.startswith(start)`. -/
def startsWith (path start : String) : Bool := start.toList.isPrefixOf path.toList

namespace HttpRequest

variable (r : HttpRequest)

/-- The path is exempt. -/
def isExempt : Bool :=
  r.path ∈ exemptPaths || startsWith r.path "/docs" || startsWith r.path "/redoc"

/-- `tenant_id`. -/
def tenantId : String := r.tenantHeader.getD "tenant_default"

/-- `is_auth`. -/
def isAuth : Bool := startsWith r.path "/api/v1/auth" || startsWith r.path "/api/v1/api-keys"

end HttpRequest

/-! ## The limiter -/

/-- `limit`. -/
def Settings.limit (settings : Settings) (isAuth : Bool) : ℤ :=
  if isAuth then settings.rateLimitAuthPerMinute else settings.rateLimitPerMinute

/-- `window_key`. -/
def windowKey (tenantId : String) (isAuth : Bool) : String :=
  "rl:" ++ tenantId ++ ":" ++ if isAuth then "auth" else "general"

/-- `int(x)` of a float. -/
def truncate (x : ℚ) : ℤ := if x < 0 then -⌊-x⌋ else ⌊x⌋

/-- `_window_counters`. -/
abbrev Counters : Type := Dict String (List ℚ)

/-- `_window_counters[key]`. -/
def windowOf (counters : Counters) (key : String) : List ℚ := (counters.get? key).getD []

/-- `dispatch`. -/
def dispatch (settings : Settings) (request : HttpRequest) (counters : Counters) :
    Decision × Counters :=
  if !settings.rateLimitEnabled then (.forward, counters)
  else if request.isExempt then (.forward, counters)
  else
    let limit := settings.limit request.isAuth
    let now := request.now
    let key := windowKey request.tenantId request.isAuth
    let cutoff := now - 60
    let window := (windowOf counters key).dropWhile (· < cutoff)
    let remaining := max 0 (limit - window.length)
    let resetAt := truncate (now + 60)
    if (window.length : ℤ) ≥ limit then
      match window with
      | [] => (.indexError, counters.set key [])
      | first :: rest =>
        let retryAfter := truncate (first + 60 - now) + 1
        (.tooManyRequests ("Rate limit exceeded. Maximum " ++ toString limit ++
            " requests per minute for this tenant.") retryAfter
          [("Retry-After", toString retryAfter), ("X-RateLimit-Limit", toString limit),
            ("X-RateLimit-Remaining", "0"), ("X-RateLimit-Reset", toString resetAt)],
          counters.set key (first :: rest))
    else
      (.accepted [("X-RateLimit-Limit", toString limit),
          ("X-RateLimit-Remaining", toString (if remaining > 0 then remaining - 1 else 0)),
          ("X-RateLimit-Reset", toString resetAt)],
        counters.set key (window ++ [now]))

/-- The requests of a run with what becomes of them. -/
def serve (settings : Settings) : Counters → List HttpRequest → List (HttpRequest × Decision)
  | _, [] => []
  | counters, r :: rs =>
    (r, (dispatch settings r counters).1) :: serve settings (dispatch settings r counters).2 rs

/-- The windows behind a run. -/
def countersAfter (settings : Settings) (counters : Counters) (rs : List HttpRequest) : Counters :=
  rs.foldl (fun counters r => (dispatch settings r counters).2) counters

/-! ## One request -/

/-- The request is counted if it is let pass. -/
def limited (settings : Settings) (r : HttpRequest) : Bool :=
  settings.rateLimitEnabled && !r.isExempt

/-- The request is one of a tenant and of a class of endpoints. -/
def HttpRequest.belongs (tenantId : String) (isAuth : Bool) (r : HttpRequest) : Bool :=
  r.tenantId = tenantId && r.isAuth = isAuth

theorem belongs_iff {tenantId : String} {isAuth : Bool} {r : HttpRequest} :
    r.belongs tenantId isAuth = true ↔ r.tenantId = tenantId ∧ r.isAuth = isAuth := by
  simp [HttpRequest.belongs]

/-- The last characters of two texts are the same. -/
theorem getLast?_of_append_eq {l l' m m' : List Char} (hm : m ≠ []) (hm' : m' ≠ [])
    (h : l ++ m = l' ++ m') : m.getLast? = m'.getLast? := by
  have hlast := congrArg List.getLast? h
  rwa [List.getLast?_append_of_ne_nil _ hm, List.getLast?_append_of_ne_nil _ hm'] at hlast

/-- The key tells tenants and classes apart. -/
theorem windowKey_inj {tenantId tenantId' : String} {isAuth isAuth' : Bool}
    (h : windowKey tenantId isAuth = windowKey tenantId' isAuth') :
    tenantId = tenantId' ∧ isAuth = isAuth' := by
  have hlists := congrArg String.toList h
  unfold windowKey at hlists
  simp only [String.toList_append] at hlists
  have hclass : isAuth = isAuth' := by
    have hlast := fun hm hm' => @getLast?_of_append_eq _ _
      (if isAuth = true then "auth" else "general").toList
      (if isAuth' = true then "auth" else "general").toList hm hm' hlists
    revert hlast
    cases isAuth <;> cases isAuth' <;> decide
  subst hclass
  have hfront := List.append_cancel_right (List.append_cancel_right hlists)
  exact ⟨String.toList_injective (List.append_cancel_left hfront), rfl⟩

section Dispatch

variable {settings : Settings} {r : HttpRequest} (counters : Counters)

theorem dispatch_of_not_limited (h : limited settings r = false) :
    dispatch settings r counters = (.forward, counters) := by
  unfold dispatch
  rcases Bool.and_eq_false_iff.1 h with h | h
  · rw [h]
    rfl
  · rw [Bool.not_eq_false'] at h
    rw [h]
    split <;> rfl

/-- What becomes of a request that is counted: its window is entered, and it is let pass if the
window admits it. -/
theorem dispatch_limited (h : limited settings r = true) :
    (dispatch settings r counters).1.accepts =
        SlidingWindow.admits 60 (settings.limit r.isAuth).toNat r.now
          (windowOf counters (windowKey r.tenantId r.isAuth)) ∧
      (dispatch settings r counters).2 = counters.set (windowKey r.tenantId r.isAuth)
        (SlidingWindow.enter 60 (settings.limit r.isAuth).toNat r.now
          (windowOf counters (windowKey r.tenantId r.isAuth))) := by
  obtain ⟨henabled, hexempt⟩ := Bool.and_eq_true_iff.1 h
  rw [Bool.not_eq_true'] at hexempt
  unfold dispatch SlidingWindow.enter SlidingWindow.admits SlidingWindow.prune
  rw [henabled, hexempt]
  simp only [Bool.not_true, Bool.false_eq_true, if_false]
  generalize (windowOf counters (windowKey r.tenantId r.isAuth)).dropWhile _ = window
  by_cases hfull : (window.length : ℤ) ≥ settings.limit r.isAuth
  · have hnot : ¬ window.length < (settings.limit r.isAuth).toNat := by omega
    rw [if_pos hfull, if_neg (by simpa using hnot), decide_eq_false hnot]
    cases window with
    | nil => exact ⟨rfl, rfl⟩
    | cons first rest => exact ⟨rfl, rfl⟩
  · have hlt : window.length < (settings.limit r.isAuth).toNat := by omega
    rw [if_neg hfull, if_pos (by simpa using hlt), decide_eq_true hlt]
    exact ⟨rfl, rfl⟩

/-- A request enters the window of its tenant and class, and leaves the others alone. -/
theorem windowOf_dispatch (tenantId : String) (isAuth : Bool) :
    windowOf (dispatch settings r counters).2 (windowKey tenantId isAuth) =
      if limited settings r && r.belongs tenantId isAuth then
        SlidingWindow.enter 60 (settings.limit isAuth).toNat r.now
          (windowOf counters (windowKey tenantId isAuth))
      else windowOf counters (windowKey tenantId isAuth) := by
  cases hlimited : limited settings r with
  | false =>
    rw [dispatch_of_not_limited counters hlimited]
    rfl
  | true =>
    rw [(dispatch_limited counters hlimited).2, Bool.true_and]
    by_cases hbelongs : r.belongs tenantId isAuth = true
    · obtain ⟨rfl, rfl⟩ := belongs_iff.1 hbelongs
      rw [if_pos hbelongs]
      unfold windowOf
      rw [Dict.get?_set_self]
      rfl
    · have hkey : windowKey tenantId isAuth ≠ windowKey r.tenantId r.isAuth := by
        intro heq
        obtain ⟨htenant, hclass⟩ := windowKey_inj heq
        exact hbelongs (belongs_iff.2 ⟨htenant.symm, hclass.symm⟩)
      rw [if_neg hbelongs]
      unfold windowOf
      rw [Dict.get?_set_of_ne hkey]

end Dispatch

/-! ## A run -/

section Run

variable (settings : Settings)

theorem serve_append (counters : Counters) (rs rs' : List HttpRequest) :
    serve settings counters (rs ++ rs') =
      serve settings counters rs ++ serve settings (countersAfter settings counters rs) rs' := by
  induction rs generalizing counters with
  | nil => rfl
  | cons r rs ih => exact congrArg _ (ih _)

theorem map_fst_serve (counters : Counters) (rs : List HttpRequest) :
    (serve settings counters rs).map Prod.fst = rs := by
  induction rs generalizing counters with
  | nil => rfl
  | cons r rs ih => exact congrArg _ (ih _)

/-- A request of a tenant and a class that was counted and let pass. -/
def passedOf (tenantId : String) (isAuth : Bool) (p : HttpRequest × Decision) : Bool :=
  p.2.accepts && p.1.belongs tenantId isAuth

/-- The times at which requests of a tenant and a class were let pass. -/
def passedTimes (tenantId : String) (isAuth : Bool) (trace : List (HttpRequest × Decision)) :
    List ℚ :=
  (trace.filter (passedOf tenantId isAuth)).map (·.1.now)

/-- Every window holds the requests of its tenant and class that were let pass, and their times are
sparse. -/
def Kept (counters : Counters) (trace : List (HttpRequest × Decision)) (now : ℚ) : Prop :=
  ∀ tenantId isAuth,
    SlidingWindow.Holds 60 now (windowOf counters (windowKey tenantId isAuth))
        (passedTimes tenantId isAuth trace) ∧
      SlidingWindow.Sparse 60 (settings.limit isAuth).toNat (passedTimes tenantId isAuth trace)

theorem kept_nil (now : ℚ) : Kept settings .empty [] now :=
  fun _ _ => ⟨.nil, SlidingWindow.sparse_nil⟩

variable {settings}

/-- What a request adds to the times of a tenant and a class. -/
theorem passedTimes_snoc (counters : Counters) (trace : List (HttpRequest × Decision))
    (r : HttpRequest) (tenantId : String) (isAuth : Bool) :
    passedTimes tenantId isAuth (trace ++ [(r, (dispatch settings r counters).1)]) =
      if limited settings r && r.belongs tenantId isAuth then
        SlidingWindow.extend 60 (settings.limit isAuth).toNat r.now
          (windowOf counters (windowKey tenantId isAuth)) (passedTimes tenantId isAuth trace)
      else passedTimes tenantId isAuth trace := by
  unfold passedTimes
  rw [List.filter_append, List.map_append]
  cases hlimited : limited settings r with
  | false =>
    rw [dispatch_of_not_limited counters hlimited]
    exact List.append_nil _
  | true =>
    rw [Bool.true_and]
    by_cases hbelongs : r.belongs tenantId isAuth = true
    · obtain ⟨rfl, rfl⟩ := belongs_iff.1 hbelongs
      have haccepts := (dispatch_limited counters hlimited).1
      unfold SlidingWindow.extend
      rw [if_pos hbelongs, ← haccepts]
      cases hdecision : (dispatch settings r counters).1.accepts with
      | false => simp [passedOf, hdecision]
      | true => simp [passedOf, hdecision, hbelongs]
    · simp [passedOf, hbelongs]

/-- **One request** keeps the windows as they should be. -/
theorem Kept.dispatch {counters : Counters} {trace : List (HttpRequest × Decision)} {now : ℚ}
    (h : Kept settings counters trace now) {r : HttpRequest} (hnow : now ≤ r.now) :
    Kept settings (dispatch settings r counters).2
      (trace ++ [(r, (dispatch settings r counters).1)]) r.now := by
  intro tenantId isAuth
  obtain ⟨hholds, hsparse⟩ := h tenantId isAuth
  have hholds' := hholds.mono hnow
  rw [passedTimes_snoc, windowOf_dispatch]
  split
  · exact ⟨hholds'.entered, hholds'.sparse hsparse⟩
  · exact ⟨hholds', hsparse⟩

/-- The same of a whole run. -/
theorem kept_serve {rs : List HttpRequest} (hsorted : rs.Pairwise (·.now ≤ ·.now)) {now : ℚ}
    (hnow : ∀ r ∈ rs, r.now ≤ now) :
    Kept settings (countersAfter settings .empty rs) (serve settings .empty rs) now := by
  induction rs using List.reverseRecOn generalizing now with
  | nil => exact kept_nil settings now
  | append_singleton rs r ih =>
    obtain ⟨hsorted, -, hlast⟩ := List.pairwise_append.1 hsorted
    have hbefore := ih hsorted fun r' hr' => hlast r' hr' r List.mem_cons_self
    have hkept := hbefore.dispatch (r := r) le_rfl
    have hcounters : countersAfter settings .empty (rs ++ [r]) =
        (RateLimiter.dispatch settings r (countersAfter settings .empty rs)).2 := List.foldl_append
    rw [serve_append, hcounters]
    intro tenantId isAuth
    obtain ⟨hholds, hsparse⟩ := hkept tenantId isAuth
    exact ⟨hholds.mono (hnow r (List.mem_append_right _ List.mem_cons_self)), hsparse⟩

/-! ## Tenants and classes apart -/

/-- What becomes of a request depends on its own window. -/
theorem decision_congr {counters counters' : Counters} {r : HttpRequest}
    (h : windowOf counters (windowKey r.tenantId r.isAuth) =
      windowOf counters' (windowKey r.tenantId r.isAuth)) :
    (dispatch settings r counters).1 = (dispatch settings r counters').1 := by
  unfold RateLimiter.dispatch
  dsimp only
  rw [h]
  generalize windowOf counters' (windowKey r.tenantId r.isAuth) = window
  split
  · rfl
  · split
    · rfl
    · split
      · cases window.dropWhile (· < r.now - 60) <;> rfl
      · rfl

/-- The requests of a tenant and a class fare as they would alone. -/
theorem serve_filter (tenantId : String) (isAuth : Bool) (rs : List HttpRequest)
    {counters counters' : Counters} (h : windowOf counters (windowKey tenantId isAuth) =
      windowOf counters' (windowKey tenantId isAuth)) :
    (serve settings counters rs).filter (fun p => p.1.belongs tenantId isAuth) =
      serve settings counters' (rs.filter (·.belongs tenantId isAuth)) := by
  induction rs generalizing counters counters' with
  | nil => rfl
  | cons r rs ih =>
    rw [serve]
    by_cases hbelongs : r.belongs tenantId isAuth = true
    · have hafter : windowOf (dispatch settings r counters).2 (windowKey tenantId isAuth) =
          windowOf (dispatch settings r counters').2 (windowKey tenantId isAuth) := by
        rw [windowOf_dispatch, windowOf_dispatch, h]
      obtain ⟨htenant, hclass⟩ := belongs_iff.1 hbelongs
      have hdecision : (dispatch settings r counters).1 = (dispatch settings r counters').1 :=
        decision_congr (by rw [htenant, hclass, h])
      rw [List.filter_cons_of_pos (p := fun p : HttpRequest × Decision => p.1.belongs _ _) hbelongs,
        List.filter_cons_of_pos hbelongs, serve, ih hafter, hdecision]
    · have hafter : windowOf (dispatch settings r counters).2 (windowKey tenantId isAuth) =
          windowOf counters' (windowKey tenantId isAuth) := by
        rw [windowOf_dispatch, if_neg (by simp [hbelongs]), h]
      rw [List.filter_cons_of_neg (p := fun p : HttpRequest × Decision => p.1.belongs _ _) hbelongs,
        List.filter_cons_of_neg hbelongs, ih hafter]

/-! ## The limit -/

/-- A place in a run: the requests before, and what becomes of the one there. -/
theorem serve_split {counters : Counters} {rs : List HttpRequest} {r : HttpRequest} {d : Decision}
    {before after : List (HttpRequest × Decision)}
    (h : serve settings counters rs = before ++ (r, d) :: after) : ∃ rs' rs'',
      rs = rs' ++ r :: rs'' ∧ before = serve settings counters rs' ∧
        d = (dispatch settings r (countersAfter settings counters rs')).1 := by
  have hrs := map_fst_serve settings counters rs
  rw [h, List.map_append, List.map_cons] at hrs
  rw [← hrs, serve_append, serve] at h
  have hlength : (serve settings counters (before.map Prod.fst)).length = before.length := by
    rw [← List.length_map (f := Prod.fst), map_fst_serve, List.length_map]
  obtain ⟨hbefore, hrest⟩ := List.append_inj h hlength
  exact ⟨_, _, hrs.symm, hbefore.symm, (Prod.ext_iff.1 (List.cons.inj hrest).1).2.symm⟩

theorem countP_passedTimes (tenantId : String) (isAuth : Bool) (p : ℚ → Bool)
    (trace : List (HttpRequest × Decision)) : (passedTimes tenantId isAuth trace).countP p =
      trace.countP fun q => passedOf tenantId isAuth q && p q.1.now := by
  unfold passedTimes
  rw [List.countP_map, List.countP_filter]
  refine List.countP_congr fun q _ => ?_
  rw [Bool.and_comm]
  rfl

theorem exists_bound (rs : List HttpRequest) : ∃ now, ∀ r ∈ rs, r.now ≤ now := by
  induction rs with
  | nil => exact ⟨0, fun r hr => absurd hr List.not_mem_nil⟩
  | cons r rs ih =>
    obtain ⟨now, hnow⟩ := ih
    exact ⟨max r.now now, List.forall_mem_cons.2
      ⟨le_max_left _ _, fun r' hr' => (hnow r' hr').trans (le_max_right _ _)⟩⟩

/-- **The sliding window**: a request that is counted is let pass exactly if fewer requests of its
tenant and class than the limit were let pass within the sixty seconds before it; so no closed
minute has more of them than the limit; and the requests of a tenant and a class fare as if there
were no others. -/
theorem sliding_window (settings : Settings) (hlimit : ∀ isAuth, 1 ≤ settings.limit isAuth)
    (rs : List HttpRequest) (hsorted : rs.Pairwise (·.now ≤ ·.now)) :
    (∀ before r d after, serve settings .empty rs = before ++ (r, d) :: after →
        limited settings r = true → (d.accepts = true ↔
          ((before.countP fun p => passedOf r.tenantId r.isAuth p && r.now - 60 ≤ p.1.now : ℕ) : ℤ)
            < settings.limit r.isAuth)) ∧
      (∀ tenantId isAuth t, (((serve settings .empty rs).countP fun p =>
          passedOf tenantId isAuth p && decide (t ≤ p.1.now ∧ p.1.now ≤ t + 60) : ℕ) : ℤ) ≤
            settings.limit isAuth) ∧
      ∀ tenantId isAuth,
        (serve settings .empty rs).filter (fun p => p.1.belongs tenantId isAuth) =
          serve settings .empty (rs.filter (·.belongs tenantId isAuth)) := by
  refine ⟨fun before r d after hsplit hlimited => ?_, fun tenantId isAuth t => ?_,
    fun tenantId isAuth => serve_filter tenantId isAuth rs rfl⟩
  · obtain ⟨rs', rs'', rfl, rfl, rfl⟩ := serve_split hsplit
    obtain ⟨hbefore, -, hlast⟩ := List.pairwise_append.1 hsorted
    have hkept := @kept_serve settings _ hbefore r.now
      fun r' hr' => hlast r' hr' r List.mem_cons_self
    obtain ⟨hholds, -⟩ := hkept r.tenantId r.isAuth
    rw [(dispatch_limited _ hlimited).1, hholds.admits_iff, countP_passedTimes]
    omega
  · obtain ⟨now, hnow⟩ := exists_bound rs
    obtain ⟨-, hsparse⟩ := @kept_serve settings _ hsorted now hnow tenantId isAuth
    have hcount := hsparse t
    rw [countP_passedTimes] at hcount
    have hpositive := hlimit isAuth
    omega

/-- One request a minute. -/
def oneEach : Settings := { rateLimitPerMinute := 1, rateLimitAuthPerMinute := 1 }

/-- Two requests of a tenant, sixty seconds apart. -/
def minuteApart : List HttpRequest :=
  [{ path := "/api/v1/runs", tenantHeader := some "acme", now := 0 },
    { path := "/api/v1/runs", tenantHeader := some "acme", now := 60 }]

/-- Only one of them is let pass. -/
theorem sliding_window_minuteApart : (((serve oneEach .empty minuteApart).countP fun p =>
    passedOf "acme" false p && decide (0 ≤ p.1.now ∧ p.1.now ≤ 0 + 60) : ℕ) : ℤ) ≤ 1 :=
  (sliding_window oneEach (by decide) minuteApart (by decide +kernel)).2.1 "acme" false 0

end Run

end FlowMesh.RateLimiter
