import Mathlib.Data.List.Sort
import FlowMesh.Engine.Errors

/-!
# The policy engine

`policy/engine.py`: rules that are evaluated against the dictionary of a workflow definition, as
it was posted or stored. A rule that raises counts as one without violations. In the mode
`ENFORCE` a definition is allowed if no rule finds an error in it (`allowed_evaluate_iff`).

`max_step_retries` reads `retry_count` and `max_retries` of the nodes (`stated_le_of_allowed`);
the schema has neither.
-/

namespace FlowMesh.PolicyEngine

open Python

/-! ## Violations -/

/-- `PolicySeverity`. -/
inductive PolicySeverity
  | error
  | warning
  | info
  deriving DecidableEq

/-- `PolicyMode`. -/
inductive PolicyMode
  | enforce
  | audit
  deriving DecidableEq

/-- `PolicyViolation`. -/
structure PolicyViolation where
  ruleName : String
  severity : PolicySeverity
  nodeId : Option String := none
  message : String
  remediation : String

/-- `PolicyEvaluationResult`. -/
structure PolicyEvaluationResult where
  allowed : Bool
  mode : PolicyMode
  violationsCount : ℕ
  errorsCount : ℕ
  warningsCount : ℕ
  violations : List PolicyViolation
  evaluatedRulesCount : ℕ

/-- A rule: it finds violations in a definition, or raises. -/
structure PolicyRule where
  name : String
  evaluate : Json → Except PyError (List PolicyViolation)

/-! ## Reading a dictionary -/

/-- An attribute that a value does not have. -/
def attributeError (v : Json) (attr : String) : PyError :=
  ⟨.other, "'" ++ typeName v ++ "' object has no attribute '" ++ attr ++ "'"⟩

/-- `v.get(key, default)`. -/
def get (v : Json) (key : String) (default : Json := .null) : Except PyError Json :=
  match v with
  | .obj items => .ok ((Json.lookup key items).getD default)
  | v => .error (attributeError v "get")

/-- The values that a loop runs over. -/
def iter : Json → Except PyError (List Json)
  | .list l => .ok l
  | .obj items => .ok (items.map fun p => .str p.1)
  | .str s => .ok (s.toList.map fun c => .str (String.ofList [c]))
  | v => .error ⟨.typeError, "'" ++ typeName v ++ "' object is not iterable"⟩

/-- A value as the `node_id` of a violation, as pydantic checks it. -/
def nodeIdOf : Json → Except PyError (Option String)
  | .null => .ok none
  | .str s => .ok (some s)
  | _ => .error ⟨.validationError, "Input should be a valid string"⟩

/-- The nodes of a definition. -/
def nodesOf (workflowDef : Json) : Except PyError (List Json) := do
  iter (← get workflowDef "nodes" (.list []))

/-- The violations of the nodes, one after the other. -/
def overNodes (check : Json → Except PyError (List PolicyViolation)) :
    List Json → Except PyError (List PolicyViolation)
  | [] => .ok []
  | node :: nodes => do
    let found ← check node
    let rest ← overNodes check nodes
    return found ++ rest

/-- A value in an f-string. -/
def text (u : Unicode) (v : Json) : String := String.ofList (str u v)

section Rules

variable (u : Unicode)

/-! ## Timeouts and retries -/

/-- `MaxTimeoutRule`. -/
def maxTimeoutRule (maxAllowedSeconds : ℤ) : PolicyRule where
  name := "max_workflow_timeout"
  evaluate workflowDef := do
    let timeout ← get workflowDef "timeout_seconds"
    match timeout.number? with
    | some x =>
      return if FloatVal.lt (.finite maxAllowedSeconds) x then
        [{ ruleName := "max_workflow_timeout", severity := .error
           message := "Configured timeout " ++ text u timeout ++
             "s exceeds organization limit of " ++ toString maxAllowedSeconds ++ "s."
           remediation := "Set 'timeout_seconds' <= " ++ toString maxAllowedSeconds ++
             " or request policy exception." }]
      else []
    | none => return []

/-- `isinstance(v, int)`, and the number. -/
def integer? : Json → Option ℤ
  | .int n => some n
  | .bool b => some (if b then 1 else 0)
  | _ => none

/-- `node.get("retry_count") or node.get("max_retries")`. -/
def statedRetries (node : Json) : Except PyError Json := do
  let retryCount ← get node "retry_count"
  if retryCount.truthy then return retryCount
  get node "max_retries"

/-- The loop body of `MaxRetriesRule`. -/
def checkRetries (maxAllowedRetries : ℤ) (node : Json) : Except PyError (List PolicyViolation) := do
  let retries ← statedRetries node
  match integer? retries with
  | none => return []
  | some n =>
    if n ≤ maxAllowedRetries then return []
    let nodeId ← nodeIdOf (← get node "id")
    let name ← get node "name" (← get node "id")
    return [{ ruleName := "max_step_retries", severity := .error, nodeId
              message := "Node '" ++ text u name ++ "' specifies " ++ text u retries ++
                " retries, exceeding policy ceiling of " ++ toString maxAllowedRetries ++ "."
              remediation := "Reduce retry count to " ++ toString maxAllowedRetries ++
                " or use circuit breaker fallback." }]

/-- `MaxRetriesRule`. -/
def maxRetriesRule (maxAllowedRetries : ℤ) : PolicyRule where
  name := "max_step_retries"
  evaluate workflowDef := do overNodes (checkRetries u maxAllowedRetries) (← nodesOf workflowDef)

/-! ## Plaintext secrets -/

/-- A part of a pattern: a text, an optional text, one character of a class, or at least so many.
What follows them in the patterns below is not of the class, so that they can take all there are. -/
inductive Piece
  | lit (ignoreCase : Bool) (s : String)
  | opt (s : String)
  | one (cls : Char → Bool)
  | many (least : ℕ) (cls : Char → Bool)

/-- A character where the case is ignored: four characters beyond ASCII count as letters. -/
def foldCase (c : Char) : Char :=
  if c = '\u0130' ∨ c = '\u0131' then 'i'
  else if c = '\u017f' then 's'
  else if c = '\u212a' then 'k'
  else c.toLower

/-- A text at the front, and what follows. -/
def dropText (ignoreCase : Bool) : List Char → List Char → Option (List Char)
  | [], cs => some cs
  | _ :: _, [] => none
  | p :: ps, c :: cs =>
    if (if ignoreCase then foldCase c = foldCase p else c = p) then dropText ignoreCase ps cs
    else none

/-- The pattern matches at the front. -/
def matchesAt : List Piece → List Char → Bool
  | [], _ => true
  | .lit ignoreCase s :: rest, cs =>
    match dropText ignoreCase s.toList cs with
    | some cs => matchesAt rest cs
    | none => false
  | .opt s :: rest, cs => matchesAt rest ((dropText false s.toList cs).getD cs)
  | .one cls :: rest, cs =>
    match cs with
    | c :: cs => cls c && matchesAt rest cs
    | [] => false
  | .many least cls :: rest, cs =>
    least ≤ (cs.takeWhile cls).length && matchesAt rest (cs.dropWhile cls)

/-- `p.search(val)`. -/
def search (p : List Piece) (val : String) : Bool := val.toList.tails.any (matchesAt p)

/-- `[0-9a-zA-Z]`. -/
def isAlphanumeric (c : Char) : Bool :=
  ('0' ≤ c && c ≤ '9') || ('a' ≤ c && c ≤ 'z') || ('A' ≤ c && c ≤ 'Z')

/-- `['"]`. -/
def isQuote (c : Char) : Bool := c = '\'' || c = '"'

/-- `PATTERNS`. -/
def patterns : List (List Piece) :=
  [[.lit false "sk_live_", .many 24 isAlphanumeric],
    [.lit false "ghp_", .many 36 isAlphanumeric],
    [.lit true "bearer", .many 1 isSpace,
      .many 30 fun c => isAlphanumeric (foldCase c) || c = '_' || c = '-' || c = '.'],
    [.lit false "-----BEGIN ", .opt "RSA ", .lit false "PRIVATE KEY-----"],
    [.lit true "password", .one isQuote, .many 0 isSpace, .lit false ":", .many 0 isSpace,
      .one isQuote, .many 6 fun c => !isQuote c, .one isQuote]]

/-- A text in which a pattern is found. -/
def scanText (nodeId : Json) (val : String) : Except PyError (List PolicyViolation) := do
  if patterns.any (search · val) then
    return [{ ruleName := "disallow_plaintext_secrets", severity := .error
              nodeId := ← nodeIdOf nodeId
              message := "Potential hardcoded secret or token detected in node '" ++
                text u nodeId ++ "'."
              remediation := "Store secret in FlowMesh Connections or reference via connection " ++
                "credentials binding." }]
  return []

/-- The keys that are looked at. -/
def sensitiveKeys : List String := ["password", "secret", "api_key", "token"]

/-- A text under a sensitive key that looks like a secret. -/
def isHardcoded (k : String) : Json → Bool
  | .str v => sensitiveKeys.any (fun key => key.toList = lower k) &&
      !"\x7b\x7b".toList.isPrefixOf v.toList && 6 < v.toList.length &&
        !"mock_".toList.isPrefixOf v.toList
  | _ => false

/-- An item of a dictionary, by its key. -/
def scanKey (nodeId : Json) (k : String) (v : Json) : Except PyError (List PolicyViolation) := do
  if isHardcoded k v then
    return [{ ruleName := "disallow_plaintext_secrets", severity := .error
              nodeId := ← nodeIdOf nodeId
              message := "Hardcoded sensitive key '" ++ k ++ "' found in node parameters."
              remediation := "Use Connection Secret binding instead of raw parameter strings." }]
  return []

mutual

/-- `scan_obj`. -/
def scanObj (nodeId : Json) : Json → Except PyError (List PolicyViolation)
  | .str s => scanText u nodeId s
  | .obj items => scanFields nodeId items
  | .list l => scanItems nodeId l
  | _ => .ok []
termination_by structural v => v

/-- The items of a list. -/
def scanItems (nodeId : Json) : List Json → Except PyError (List PolicyViolation)
  | [] => .ok []
  | v :: l => do return (← scanObj nodeId v) ++ (← scanItems nodeId l)
termination_by structural l => l

/-- The items of a dictionary. -/
def scanFields (nodeId : Json) : List (String × Json) → Except PyError (List PolicyViolation)
  | [] => .ok []
  | p :: l => do return (← scanField nodeId p) ++ (← scanFields nodeId l)
termination_by structural l => l

/-- One item of a dictionary. -/
def scanField (nodeId : Json) : String × Json → Except PyError (List PolicyViolation)
  | (k, v) => do return (← scanKey nodeId k v) ++ (← scanObj nodeId v)
termination_by structural p => p

end

/-- The loop body of `DisallowPlaintextSecretsRule`. -/
def checkSecrets (node : Json) : Except PyError (List PolicyViolation) := do
  let nodeId ← get node "id" (.str "unknown_node")
  let found ← scanObj u nodeId (← get node "parameters" (.obj []))
  return found ++ (← scanObj u nodeId (← get node "config" (.obj [])))

/-- `DisallowPlaintextSecretsRule`. -/
def disallowPlaintextSecretsRule : PolicyRule where
  name := "disallow_plaintext_secrets"
  evaluate workflowDef := do overNodes (checkSecrets u) (← nodesOf workflowDef)

/-! ## Dead letters and connectors -/

/-- The types of nodes that do external I/O. -/
def externalTypes : List String :=
  ["connector_action", "http_request", "postgres_query", "rest_call"]

/-- `any(n.get("type") in [...] for n in nodes)`. -/
def hasExternalIo : List Json → Except PyError Bool
  | [] => .ok false
  | n :: nodes => do
    match ← get n "type" with
    | .str s => if s ∈ externalTypes then return true else hasExternalIo nodes
    | _ => hasExternalIo nodes

/-- `RequireDeadLetterQueueRule`. -/
def requireDeadLetterQueueRule : PolicyRule where
  name := "require_dlq_on_external_operations"
  evaluate workflowDef := do
    let hasExternal ← hasExternalIo (← nodesOf workflowDef)
    let enableDlq ← get workflowDef "enable_dlq" (.bool true)
    let dlqTopic ← get workflowDef "dlq_topic"
    let hasDlq := enableDlq.truthy || !(dlqTopic matches .null)
    return if hasExternal && !hasDlq then
      [{ ruleName := "require_dlq_on_external_operations", severity := .warning
         message := "Workflow contains external I/O steps but disables Dead Letter Queue (DLQ) " ++
           "routing."
         remediation := "Enable DLQ in workflow configuration to ensure poison messages can be " ++
           "replayed." }]
    else []

/-- `DEFAULT_ALLOWED`. -/
def defaultAllowed : List String :=
  ["postgres", "rest", "stripe", "webhook", "redis", "rediforge", "sap", "sftp"]

/-- `sorted(list(allowed_types))`, as a text. -/
def sortedText (types : List String) : String :=
  text u (.list ((types.insertionSort (· ≤ ·)).map .str))

/-- The loop body of `AllowedConnectorsRule`. -/
def checkConnector (allowedTypes : List String) (node : Json) :
    Except PyError (List PolicyViolation) := do
  let cType ← get node "connector_type"
  if !cType.truthy then return []
  match cType with
  | .str s =>
    if allowedTypes.any fun allowed => allowed.toList = lower s then return []
    return [{ ruleName := "allowed_connector_types", severity := .error
              nodeId := ← nodeIdOf (← get node "id")
              message := "Connector type '" ++ s ++ "' is not on the approved enterprise " ++
                "connector list."
              remediation := "Use one of the approved types: " ++ sortedText u allowedTypes }]
  | v => .error (attributeError v "lower")

/-- `AllowedConnectorsRule`, with types in lower case. -/
def allowedConnectorsRule (allowedTypes : List String) : PolicyRule where
  name := "allowed_connector_types"
  evaluate workflowDef := do overNodes (checkConnector u allowedTypes) (← nodesOf workflowDef)

/-! ## The engine -/

/-- The rules of `default_policy_engine`. -/
def defaultRules : List PolicyRule :=
  [maxTimeoutRule u 600, maxRetriesRule u 5, disallowPlaintextSecretsRule u,
    requireDeadLetterQueueRule, allowedConnectorsRule u defaultAllowed]

end Rules

/-- What a rule finds; where it raises, nothing. -/
def PolicyRule.found (rule : PolicyRule) (workflowDef : Json) : List PolicyViolation :=
  match rule.evaluate workflowDef with
  | .ok violations => violations
  | .error _ => []

/-- `PolicyEngine.evaluate`. -/
def evaluate (rules : List PolicyRule) (workflowDef : Json) (mode : PolicyMode) :
    PolicyEvaluationResult :=
  let violations := rules.flatMap fun rule => rule.found workflowDef
  let errors := violations.filter fun v => v.severity = .error
  { allowed := !(mode = .enforce && 0 < errors.length)
    mode
    violationsCount := violations.length
    errorsCount := errors.length
    warningsCount := (violations.filter fun v => v.severity = .warning).length
    violations
    evaluatedRulesCount := rules.length }

/-! ## What is allowed -/

section Allowed

variable {rules : List PolicyRule} {workflowDef : Json}

/-- What the mode `ENFORCE` allows: no rule finds an error. -/
theorem allowed_evaluate_iff : (evaluate rules workflowDef .enforce).allowed = true ↔
    ∀ rule ∈ rules, ∀ v ∈ rule.found workflowDef, v.severity ≠ .error := by
  have herrors : (evaluate rules workflowDef .enforce).allowed = true ↔
      ((rules.flatMap fun rule => rule.found workflowDef).filter fun v => v.severity = .error) =
        [] := by
    simp [evaluate, List.filter_eq_nil_iff]
  rw [herrors, List.filter_eq_nil_iff]
  constructor
  · intro h rule hrule v hv
    simpa using h v (List.mem_flatMap.2 ⟨rule, hrule, hv⟩)
  · intro h v hv
    obtain ⟨rule, hrule, hv⟩ := List.mem_flatMap.1 hv
    simpa using h rule hrule v hv

theorem overNodes_ok {check : Json → Except PyError (List PolicyViolation)} {nodes : List Json}
    (h : ∀ node ∈ nodes, ∃ found, check node = .ok found) :
    ∃ all, overNodes check nodes = .ok all ∧
      ∀ node ∈ nodes, ∀ found, check node = .ok found → ∀ v ∈ found, v ∈ all := by
  induction nodes with
  | nil => exact ⟨[], rfl, fun node hnode => absurd hnode List.not_mem_nil⟩
  | cons node nodes ih =>
    rw [List.forall_mem_cons] at h
    obtain ⟨found, hfound⟩ := h.1
    obtain ⟨rest, hrest, hall⟩ := ih h.2
    refine ⟨found ++ rest, ?_, ?_⟩
    · unfold overNodes
      rw [hfound, hrest]
      rfl
    · intro node' hnode' found' hfound' v hv
      rcases List.mem_cons.1 hnode' with rfl | hnode'
      · rw [hfound] at hfound'
        cases hfound'
        exact List.mem_append_left _ hv
      · exact List.mem_append_right _ (hall node' hnode' found' hfound' v hv)

/-- **What `max_step_retries` binds**: in a definition that is allowed, no node states more retries
than the ceiling, where the rule does not raise. -/
theorem stated_le_of_allowed {u : Unicode} {ceiling : ℤ} (hrule : maxRetriesRule u ceiling ∈ rules)
    (hallowed : (evaluate rules workflowDef .enforce).allowed = true) {nodes : List Json}
    (hnodes : nodesOf workflowDef = .ok nodes)
    (hok : ∀ node ∈ nodes, ∃ found, checkRetries u ceiling node = .ok found) {node retries : Json}
    (hnode : node ∈ nodes) (hretries : statedRetries node = .ok retries) {n : ℤ}
    (hn : integer? retries = some n) : n ≤ ceiling := by
  by_contra hlt
  obtain ⟨all, hall, hmem⟩ := overNodes_ok hok
  obtain ⟨found, hfound⟩ := hok node hnode
  have hevaluate : (maxRetriesRule u ceiling).found workflowDef = all := by
    have heval : (maxRetriesRule u ceiling).evaluate workflowDef = .ok all := by
      show (nodesOf workflowDef >>= overNodes (checkRetries u ceiling)) = _
      rw [hnodes]
      exact hall
    unfold PolicyRule.found
    rw [heval]
  -- the violation of the node
  have herror : ∃ v ∈ found, v.severity = .error := by
    unfold checkRetries at hfound
    simp only [hretries, hn, bind, Except.bind, if_neg hlt] at hfound
    repeat' split at hfound
    all_goals cases hfound
    exact ⟨_, List.mem_singleton.2 rfl, rfl⟩
  obtain ⟨v, hv, hseverity⟩ := herror
  refine allowed_evaluate_iff.1 hallowed _ hrule v ?_ hseverity
  rw [hevaluate]
  exact hmem node hnode found hfound v hv

end Allowed

end FlowMesh.PolicyEngine
