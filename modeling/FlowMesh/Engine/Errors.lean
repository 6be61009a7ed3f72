import FlowMesh.Workflow.Schema

/-!
# Error categories and backoff

`flowmesh_engine/errors.py`: which exceptions the retry loop of the engine tries again
(`categorizeError`), and how long it waits before it does (`calculateBackoff`). The categories
are read off the text of the exception, keyword by keyword, in the order of the source.
-/

namespace FlowMesh

open Python

/-! ## Categories -/

/-- `ErrorCategory`. -/
inductive ErrorCategory
  | transient
  | permanent
  | circuitOpen
  deriving DecidableEq, Repr

/-- `ErrorCategory.value`. -/
def ErrorCategory.value : ErrorCategory → String
  | .transient => "TRANSIENT"
  | .permanent => "PERMANENT"
  | .circuitOpen => "CIRCUIT_OPEN"

/-- `CircuitBreakerOpenError(connection_id)`. -/
def circuitBreakerOpenError (connectionId : String) : PyError :=
  ⟨.circuitBreakerOpenError, "Circuit breaker is OPEN for connection '" ++ connectionId ++
    "'. Fast-failing downstream traffic."⟩

/-- `permanent_keywords`. -/
def permanentKeywords : List String :=
  ["400", "bad request", "401", "unauthorized", "403", "forbidden", "404", "not found", "422",
    "unprocessable", "validation error", "schema validation", "syntax error", "invalid tag",
    "permission denied", "duplicate key", "cycle detected"]

/-- `transient_keywords`. -/
def transientKeywords : List String :=
  ["500", "internal server error", "502", "bad gateway", "503", "service unavailable", "504",
    "gateway timeout", "429", "rate limit", "too many requests", "timeout", "timed out",
    "connection refused", "connection reset", "network error", "econnrefused",
    "socket read timeout", "deadlock", "temporary failure", "getaddrinfo failed"]

/-- `categorize_error`. -/
def categorizeError (exc : PyError) : ErrorCategory :=
  if exc.kind = .circuitBreakerOpenError then .circuitOpen
  else
    let errStr := lower exc.message
    if contains errStr "circuit breaker is open" || contains errStr "circuit_open" then
      .circuitOpen
    else if permanentKeywords.any (contains errStr) then .permanent
    else if transientKeywords.any (contains errStr) then .transient
    else if exc.kind = .timeoutError ∨ exc.kind = .connectionError then .transient
    else .permanent

/-! ## Retry policies -/

/-- The policy of a node without one. -/
def defaultPolicy : List (String × Json) :=
  [("max_attempts", .int 1), ("backoff", .str "exponential"),
    ("initial_interval_seconds", .float ⟨.finite (1 / 20), "0.05"⟩), ("jitter", .bool false)]

/-- `node.retry or {...}`: an empty dictionary counts as none. -/
def WorkflowNode.policy (n : WorkflowNode) : Retry :=
  match n.retry with
  | none => .dict defaultPolicy
  | some (.dict []) => .dict defaultPolicy
  | some p => p

/-- `max_attempts`. -/
def Retry.maxAttempts (u : Unicode) : Retry → Except PyError ℤ
  | .policy p => .ok p.maxAttempts
  | .dict items => int u ((Json.lookup "max_attempts" items).getD (.int 1))

/-! ## Backoff -/

/-- `x < y` on floats. -/
def FloatVal.lt : FloatVal → FloatVal → Bool
  | .finite p, .finite q => p < q
  | .finite _, .inf => true
  | .negInf, .finite _ => true
  | .negInf, .inf => true
  | _, _ => false

/-- `min(x, y)`: a comparison with `nan` fails, so `nan` stays in front. -/
def FloatVal.min (x y : FloatVal) : FloatVal := if FloatVal.lt y x then y else x

/-- A float times a positive integer. -/
def FloatVal.scale (x : FloatVal) (k : ℤ) : FloatVal :=
  match x with
  | .finite q => .ofRat (q * k)
  | x => x

/-- `round(x, 3)`: halves go to the even neighbour. -/
def FloatVal.round3 : FloatVal → FloatVal
  | .finite q =>
    let f := ⌊q * 1000⌋
    let rest := q * 1000 - f
    let n := if rest < 1 / 2 then f else if 1 / 2 < rest then f + 1 else f + f % 2
    .finite (n / 1000)
  | x => x

/-- `random.uniform(0.5 * x, x)` for the draw `rnd`. -/
def FloatVal.uniformHalf (x : FloatVal) (rnd : ℚ) : FloatVal :=
  match x with
  | .finite q => .finite (q / 2 + q / 2 * rnd)
  | _ => .nan

/-- The settings that `calculate_backoff` reads. -/
structure BackoffSettings where
  backoffType : Json
  initialSec : FloatVal
  maxSec : FloatVal
  useJitter : Bool

/-- The settings of a policy; `float` raises on the entries it cannot convert. -/
def Retry.backoffSettings (u : Unicode) : Retry → Except PyError BackoffSettings
  | .policy p => .ok ⟨.str p.backoff, p.initialIntervalSeconds, p.maxIntervalSeconds, p.jitter⟩
  | .dict items => do
    let initialSec ← float u ((Json.lookup "initial_interval_seconds" items).getD
      (.float ⟨.finite (1 / 2), "0.5"⟩))
    let maxSec ← float u ((Json.lookup "max_interval_seconds" items).getD
      (.float ⟨.finite 30, "30.0"⟩))
    return ⟨(Json.lookup "backoff" items).getD (.str "exponential"), initialSec, maxSec,
      ((Json.lookup "jitter" items).getD (.bool true)).truthy⟩

/-- The interval before jitter; an integer factor past the largest double raises. -/
def BackoffSettings.baseInterval (u : Unicode) (s : BackoffSettings) (attempt : ℕ) :
    Except PyError FloatVal :=
  let attemptIdx := max 1 attempt
  match s.backoffType with
  | .str "fixed" => .ok s.initialSec
  | .str "linear" => do
    let _ ← float u (.int attemptIdx)
    return FloatVal.min s.maxSec (FloatVal.scale s.initialSec attemptIdx)
  | _ => do
    let _ ← float u (.int (2 ^ (attemptIdx - 1)))
    return FloatVal.min s.maxSec (FloatVal.scale s.initialSec (2 ^ (attemptIdx - 1)))

/-- `calculate_backoff`, for the draw `rnd` of the random generator. -/
def calculateBackoff (u : Unicode) (attempt : ℕ) (policy : Retry) (rnd : ℚ) :
    Except PyError FloatVal := do
  let s ← policy.backoffSettings u
  let base ← s.baseInterval u attempt
  if s.useJitter && FloatVal.lt (.finite 0) base then
    return FloatVal.round3 (FloatVal.uniformHalf base rnd)
  return FloatVal.round3 base

/-- Whether `calculate_backoff` raises does not depend on the draw. -/
theorem calculateBackoff_isOk (u : Unicode) (attempt : ℕ) (policy : Retry) (rnd rnd' : ℚ) :
    (calculateBackoff u attempt policy rnd).isOk = (calculateBackoff u attempt policy rnd').isOk := by
  unfold calculateBackoff
  rcases policy.backoffSettings u with e | s
  · rfl
  rcases hb : s.baseInterval u attempt with e | base
  · simp [bind, Except.bind, hb]
  · simp only [bind, Except.bind, hb]
    split <;> rfl

end FlowMesh
