import FlowMesh.Api.Scope
import FlowMesh.Engine.Attempts
import FlowMesh.Policy.Engine

/-!
# What the policy binds

`deploy_workflow` stores a definition behind two checks: the pre-flight validation and the default
policy engine in the mode `ENFORCE`. The engine takes the number of attempts from the `retry` of
a node, which no rule of the policy reads. `ceiling_binds_iff` says of which of the definitions that
pass both checks no node is dispatched more often than the ceiling of `max_step_retries` allows.
-/

namespace FlowMesh.Tables

open Python Database Transaction Async PolicyEngine

variable {d : Dialect}

/-! ## The checks of a deployment -/

/-- Why a definition is refused. -/
inductive DeployRefusal
  | preflight (errors : List ValidationError)
  | policy (violations : List PolicyViolation)

/-- `deploy_workflow` up to `deploy_version`: the definition that it goes on with. -/
def deployChecks (py : Pydantic) (u : Unicode) (tenant workflowId : String)
    (definition : Option Json) : Request (Except DeployRefusal Json) := do
  match ← deployPreflight py tenant workflowId definition with
  | .error errors => return .error (.preflight errors)
  | .ok target =>
    let policyRes := evaluate (defaultRules u) target .enforce
    return if policyRes.allowed then .ok target
      else .error (.policy (policyRes.violations.filter fun v => v.severity = .error))

/-- The database lets the definition pass. -/
def Deployable (py : Pydantic) (u : Unicode) (tenant workflowId : String) (definition : Option Json)
    (s : Db d) (target : Json) : Prop :=
  ((deployChecks py u tenant workflowId definition).run (DbOp.handle d) s).1 = .ok (.ok target)

/-- How often the policy lets a node be dispatched: once, and five times again. -/
def policyCeiling : ℕ := 1 + 5

section Checks

variable {py : Pydantic} {u : Unicode} {tenant workflowId : String} {definition : Option Json}
  {s : Db d} {target : Json}

theorem lifted_inv {α : Type} {r : Except PyError α} {a : α}
    (h : ((lifted r).run (DbOp.handle d) s).1 = .ok a) : r = .ok a := by
  cases r with
  | ok b => exact h
  | error e => cases h

/-- What passes the pre-flight validation is accepted by the schema. -/
theorem load_of_preflight
    (h : ((deployPreflight py tenant workflowId definition).run (DbOp.handle d) s).1 =
      .ok (.ok target)) : ∃ definition : WorkflowDefinition, py.load target = .ok definition := by
  unfold deployPreflight at h
  obtain ⟨row, -, hrow⟩ := Prog.run_bind_inv _ h
  rw [hrow] at h
  cases row with
  | none => cases h
  | some wf =>
    obtain ⟨result, hresult, hrest⟩ := Prog.run_bind_inv _ h
    rw [hrest] at h
    unfold validateListed at hresult
    obtain ⟨conns, -, hconns⟩ := Prog.run_bind_inv _ hresult
    rw [hconns] at hresult
    have hvalidate := lifted_inv hresult
    have hanswer : (if result.isValid then Except.ok (targetDefinition definition wf)
        else .error result.errors) = Except.ok target := Except.ok.inj h
    split at hanswer
    · next hvalid =>
      obtain rfl := Except.ok.inj hanswer
      unfold WorkflowValidator.validate at hvalidate
      cases hload : py.load (targetDefinition definition wf) with
      | ok definition => exact ⟨definition, rfl⟩
      | error e =>
        rw [hload] at hvalidate
        obtain rfl := Except.ok.inj hvalidate
        cases hvalid
    · cases hanswer

theorem Deployable.load (h : Deployable py u tenant workflowId definition s target) :
    ∃ definition : WorkflowDefinition, py.load target = .ok definition := by
  unfold Deployable deployChecks at h
  obtain ⟨checked, hchecked, hrest⟩ := Prog.run_bind_inv _ h
  rw [hrest] at h
  cases checked with
  | error errors => cases h
  | ok target' =>
    have hanswer := Except.ok.inj h
    split at hanswer
    · obtain rfl := Except.ok.inj hanswer
      exact load_of_preflight hchecked
    · cases hanswer

/-- A definition that is valid and that the policy allows passes. -/
theorem deployable_of_allowed (htenant : tenant ≠ "") {wf : WorkflowRecord}
    (hwf : wf ∈ inTable .workflows s) (howner : wf.tenantId = tenant)
    (hvalid : (match WorkflowValidator.validate py (targetDefinition definition wf)
        (some ((newestConnections tenant s).map (·.id))) with
      | .ok result => result.isValid
      | .error _ => false) = true)
    (hallowed : (evaluate (defaultRules u) (targetDefinition definition wf) .enforce).allowed =
      true) :
    Deployable py u tenant wf.id definition s (targetDefinition definition wf) := by
  have hpreflight := @run_deployPreflight d py tenant s htenant wf hwf howner definition
  split at hvalid
  · next result hresult =>
    rw [hresult] at hpreflight
    have hchecked : (deployPreflight py tenant wf.id definition).run (DbOp.handle d) s =
        (.ok (.ok (targetDefinition definition wf)),
          ((deployPreflight py tenant wf.id definition).run (DbOp.handle d) s).2) :=
      Prod.ext (hpreflight.trans (congrArg Except.ok (if_pos hvalid))) rfl
    unfold Deployable deployChecks
    rw [Prog.run_bind_ok _ hchecked]
    show Except.ok (if _ then _ else _) = _
    rw [if_pos hallowed]
  · cases hvalid

/-- **When the ceiling binds the engine**: no node of a definition that was let pass is dispatched
more than six times by one `_execute_node`, whatever the outcomes, exactly if the retry policies of
all of its nodes stop there by themselves. -/
theorem ceiling_binds_iff (py : Pydantic) (u : Unicode) (tenant workflowId : String)
    (given : Option Json) (s : Db d) (target : Json)
    (h : Deployable py u tenant workflowId given s target) :
    ∃ definition : WorkflowDefinition, py.load target = .ok definition ∧
      ((∀ node ∈ definition.nodes, node.DispatchedAtMost u policyCeiling) ↔
        ∀ node ∈ definition.nodes, node.policy.Stops u policyCeiling) := by
  obtain ⟨definition, hload⟩ := h.load
  refine ⟨definition, hload, forall₂_congr fun node _ => ?_⟩
  exact dispatchedAtMost_iff u policyCeiling node

/-! ### A charge with many attempts -/

/-- A workflow that charges a card, with so many attempts. -/
def billing (maxAttempts : ℤ) : Json :=
  .obj [("name", .str "Billing"), ("trigger", .obj [("type", .str "manual")]),
    ("nodes", .list [.obj [("id", .str "charge"), ("type", .str "action.http"),
      ("name", .str "Charge the card"), ("config", .obj [("path", .str "/charge")]),
      ("retry", .obj [("max_attempts", .int maxAttempts)])]])]

/-- A node is read; a dictionary as its retry policy stays one. -/
def billingReadNode : Json → Except PyError WorkflowNode
  | .obj [(_, .str id), (_, .str type), (_, .str name), (_, .obj config), (_, .obj retry)] =>
    .ok ⟨id, type, name, none, config, some (.dict retry)⟩
  | _ => .error ⟨.validationError, "Input should be a valid dictionary"⟩

/-- Definitions like it are read; the other fields have their defaults. -/
def billingPydantic : Pydantic where
  dump _ := .null
  read
    | .obj [(_, .str name), (_, .obj [(_, .str type)]), (_, .list nodes)] => do
      return { name, trigger := { type }, nodes := ← nodes.mapM billingReadNode }
    | _ => .error ⟨.validationError, "Input should be a valid dictionary"⟩

/-- The workflow of the tenant `acme`. -/
def billingWorkflow : WorkflowRecord where
  id := "wf_1"
  tenantId := "acme"
  name := "Billing"
  description := ""
  status := "ACTIVE"
  version := 1
  triggerType := "manual"
  definitionJson := billing 3
  createdAt := 0
  updatedAt := 0

/-- It is the only row. -/
def oneWorkflow : Db .sqlite where
  rows := [⟨.workflows, billingWorkflow⟩]
  unique := List.pairwise_singleton _ _

/-- The interpreter's Unicode tables play no part. -/
def plainUnicode : Unicode := ⟨fun _ => true, fun _ => none⟩

theorem deployable_three : Deployable billingPydantic plainUnicode "acme" "wf_1"
    (some (billing 3)) oneWorkflow (billing 3) :=
  @deployable_of_allowed .sqlite billingPydantic plainUnicode "acme" (some (billing 3)) oneWorkflow
    (by decide) billingWorkflow (List.mem_singleton.2 rfl) rfl (by decide +kernel)
    (by decide +kernel)

theorem deployable_twenty : Deployable billingPydantic plainUnicode "acme" "wf_1"
    (some (billing 20)) oneWorkflow (billing 20) :=
  @deployable_of_allowed .sqlite billingPydantic plainUnicode "acme" (some (billing 20)) oneWorkflow
    (by decide) billingWorkflow (List.mem_singleton.2 rfl) rfl (by decide +kernel)
    (by decide +kernel)

/-- What is read of it. -/
theorem nodes_billing {n : ℤ} {definition : WorkflowDefinition}
    (h : billingPydantic.load (billing n) = .ok definition) :
    definition.nodes = [⟨"charge", "action.http", "Charge the card", none,
      [("path", .str "/charge")], some (.dict [("max_attempts", .int n)])⟩] := by
  have hparse : WorkflowDefinition.parse ⟨none, 1, "Billing", "", ⟨"manual", [], .null⟩,
      [⟨"charge", "action.http", "Charge the card", none, [("path", .str "/charge")],
        some (.dict [("max_attempts", .int n)])⟩], []⟩ = .ok definition := h
  unfold WorkflowDefinition.parse at hparse
  split at hparse
  · cases hparse
    rfl
  · cases hparse

/-- Three attempts are within the ceiling. -/
theorem ceiling_binds_three : ∃ definition : WorkflowDefinition,
    billingPydantic.load (billing 3) = .ok definition ∧
      ∀ node ∈ definition.nodes, node.DispatchedAtMost plainUnicode policyCeiling := by
  obtain ⟨definition, hload, hiff⟩ := ceiling_binds_iff _ _ _ _ _ _ _ deployable_three
  refine ⟨definition, hload, hiff.2 ?_⟩
  rw [nodes_billing hload]
  intro node hnode max hmax
  obtain rfl := List.mem_singleton.1 hnode
  obtain rfl := Except.ok.inj hmax
  exact Or.inl (by decide)

/-- Twenty attempts are let pass, and the card is charged more than six times. -/
theorem not_ceiling_binds_twenty : ¬ ∀ (py : Pydantic) (u : Unicode) (tenant workflowId : String)
    (given : Option Json) (s : Db .sqlite) (target : Json) (definition : WorkflowDefinition),
      Deployable py u tenant workflowId given s target → py.load target = .ok definition →
        ∀ node ∈ definition.nodes, node.DispatchedAtMost u policyCeiling := by
  intro hall
  obtain ⟨definition, hload⟩ := deployable_twenty.load
  have hbound := hall _ _ _ _ _ _ _ definition deployable_twenty hload
  rw [nodes_billing hload, List.forall_mem_singleton, dispatchedAtMost_iff] at hbound
  rcases hbound 20 rfl with hle | ⟨attempt, htwo, hseven, hraise⟩
  · exact absurd hle (by decide)
  · have hok : ∀ j ∈ List.range' 2 6, (calculateBackoff plainUnicode j
        (.dict [("max_attempts", .int 20)]) 0).isOk = true := by decide +kernel
    have hlt : attempt < 2 + 6 := Nat.lt_succ_of_le hseven
    have hattempt := hok attempt (List.mem_range'_1.2 ⟨htwo, hlt⟩)
    exact absurd (hattempt.symm.trans hraise) (by decide)

end Checks

end FlowMesh.Tables
