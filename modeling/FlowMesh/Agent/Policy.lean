import Mathlib.Logic.Function.Basic
import FlowMesh.Agent.Command

/-!
# The edge agent's policy

`policy.Engine` of the edge agent: rules under the keys `connector:connection`, and `Evaluate`,
which lets a command pass only if a rule is found under its key, allows its operation and its
resource, and its limit is within bounds. `evaluate_eq_ok` says when it passes.

`strings.EqualFold` compares rune by rune under simple case folding; what folds to what is a
parameter (`Go.Unicode`).
-/

namespace Go

/-- What the Unicode tables say of a rune: the representative of its case folding class, and its
upper case. -/
structure Unicode where
  fold : Char → Char
  upper : Char → Char

/-- `strings.EqualFold`. -/
def equalFold (u : Unicode) (s t : String) : Bool := s.toList.map u.fold = t.toList.map u.fold

/-- `strings.ToUpper`. -/
def toUpper (u : Unicode) (s : String) : String := String.ofList (s.toList.map u.upper)

@[simp] theorem equalFold_self (u : Unicode) (s : String) : equalFold u s s = true := by
  simp [equalFold]

theorem equalFold_empty {u : Unicode} {s : String} (h : equalFold u "" s = true) : s = "" := by
  have hmap : [] = s.toList.map u.fold := by simpa [equalFold] using h
  have hnil : s.toList = [] := List.map_eq_nil_iff.1 hmap.symm
  simpa using hnil

/-- `strings.HasSuffix(s, "*")`. -/
def endsWithStar (s : String) : Bool := s.toList.getLast? = some '*'

/-- `strings.TrimSuffix(s, "*")` where `s` ends with a star. -/
def dropStar (s : String) : List Char := s.toList.dropLast

end Go

namespace FlowMesh.Policy

/-- `PolicyRule`. -/
structure PolicyRule where
  allowedOperations : List String
  allowedResources : List String
  maxLimit : ℤ

/-- The rules of an `Engine`, by key. -/
abbrev Engine : Type := String → Option PolicyRule

/-- `fmt.Sprintf("%s:%s", connector, connectionID)`. -/
def ruleKey (connector connectionId : String) : String := connector ++ ":" ++ connectionId

/-- `NewEngine`. -/
def newEngine : Engine := fun _ => none

/-- `AddRule`. -/
def Engine.addRule (rules : Engine) (connector connectionId : String) (rule : PolicyRule) :
    Engine :=
  Function.update rules (ruleKey connector connectionId) (some rule)

theorem Engine.addRule_self (rules : Engine) (connector connectionId : String)
    (rule : PolicyRule) :
    rules.addRule connector connectionId rule (ruleKey connector connectionId) = some rule := by
  rw [addRule, Function.update_self]

section Evaluate

variable (u : Go.Unicode)

/-- The operation is allowed. -/
def PolicyRule.opAllowed (rule : PolicyRule) (operation : String) : Bool :=
  rule.allowedOperations.any fun op => Go.equalFold u op operation || op = "*"

/-- The resource is allowed. -/
def PolicyRule.resAllowed (rule : PolicyRule) (resource : String) : Bool :=
  rule.allowedResources.any fun res =>
    Go.equalFold u res resource || res = "*" ||
      Go.endsWithStar res && (Go.dropStar res).isPrefixOf resource.toList

/-- `Evaluate` once the rule is found. -/
def PolicyRule.check (rule : PolicyRule) (cmd : Policy.Command) : Except String Unit :=
  if rule.opAllowed u cmd.operation = false then
    .error ("policy violation: operation '" ++ cmd.operation ++
      "' is forbidden on connection '" ++ cmd.connectionId ++ "'")
  else if cmd.resource ≠ "" ∧ rule.allowedResources ≠ [] ∧
      rule.resAllowed u cmd.resource = false then
    .error ("policy violation: resource '" ++ cmd.resource ++ "' is not in the allowlist")
  else if 0 < cmd.limit ∧ 0 < rule.maxLimit ∧ rule.maxLimit < cmd.limit then
    .error ("policy violation: requested limit " ++ toString cmd.limit ++
      " exceeds max permitted limit " ++ toString rule.maxLimit)
  else .ok ()

/-- `Evaluate`. -/
def Engine.evaluate (rules : Engine) (cmd : Policy.Command) : Except String Unit :=
  if cmd.connector = "" ∨ cmd.operation = "" then
    .error "policy violation: missing connector or operation"
  else
    match rules (ruleKey cmd.connector cmd.connectionId) with
    | none => .error ("policy violation: connection '" ++ cmd.connectionId ++ "' on connector '" ++
        cmd.connector ++ "' is NOT allowlisted (deny by default)")
    | some rule => rule.check u cmd

variable {u}

theorem PolicyRule.check_eq_ok {rule : PolicyRule} {cmd : Policy.Command} :
    rule.check u cmd = .ok () ↔ rule.opAllowed u cmd.operation = true ∧
      (cmd.resource = "" ∨ rule.allowedResources = [] ∨ rule.resAllowed u cmd.resource = true) ∧
      (cmd.limit ≤ 0 ∨ rule.maxLimit ≤ 0 ∨ cmd.limit ≤ rule.maxLimit) := by
  unfold check
  split_ifs with hop hres hlimit
  · simp [hop]
  · obtain ⟨h₁, h₂, h₃⟩ := hres
    simp [h₁, h₂, h₃]
  · simp only [false_iff]
    omega
  · have hop' : rule.opAllowed u cmd.operation = true := by simpa using hop
    simp only [true_iff, hop']
    refine ⟨trivial, ?_, by omega⟩
    by_contra hno
    push Not at hno
    exact hres ⟨hno.1, hno.2.1, by simpa using hno.2.2⟩

/-- When a command passes. -/
theorem Engine.evaluate_eq_ok {rules : Engine} {cmd : Policy.Command} :
    rules.evaluate u cmd = .ok () ↔ cmd.connector ≠ "" ∧ cmd.operation ≠ "" ∧
      ∃ rule, rules (ruleKey cmd.connector cmd.connectionId) = some rule ∧
        rule.check u cmd = .ok () := by
  unfold evaluate
  split_ifs with hmissing
  · simp only [false_iff]
    rintro ⟨hc, ho, -⟩
    exact hmissing.elim hc ho
  · push Not at hmissing
    cases rules (ruleKey cmd.connector cmd.connectionId) with
    | none => simp
    | some rule => simp [hmissing]

end Evaluate

end FlowMesh.Policy
