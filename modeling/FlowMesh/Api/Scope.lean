import FlowMesh.Api.Routers
import FlowMesh.Repositories.Requests
import FlowMesh.Workflow.Validation

/-!
# The scope of connections

`validate_workflow`, and `deploy_workflow` up to its pre-flight validation. Both take the available
connections from `list_all`, which gives the first hundred. `scope_exact_iff` says when the nodes
that a request reports for their connections are those whose connection is not one of the tenant's.
-/

namespace FlowMesh.Tables

open Python Database Transaction Async

variable {d : Dialect}

/-! ## The handlers -/

/-- What pydantic makes of a retry policy in a dictionary is left open. -/
def withoutRetry (s : WorkflowSpec) : WorkflowSpec :=
  { s with nodes := s.nodes.map fun n => { n with retry := none } }

/-- A definition that was dumped is read again, but for the retry policies of its nodes. -/
def ReadsBack (py : Pydantic) (payload : WorkflowDefinition) : Prop :=
  ∃ definition : WorkflowDefinition, py.load (py.dump payload.toWorkflowSpec) = .ok definition ∧
    withoutRetry definition.toWorkflowSpec = withoutRetry payload.toWorkflowSpec

section Handlers

variable (py : Pydantic) (tenant : String)

/-- Raise what a computation raises. -/
def lifted {α : Type} : Except PyError α → Request α
  | .ok a => return a
  | .error e => .throw e

/-- The validation against the connections that are listed. -/
def validateListed (definition : Json) : Request ValidationResult := do
  let conns ← getRows tenant .connections (.listAll .connections 0 100)
  lifted (WorkflowValidator.validate py definition (some (conns.map (·.id))))

/-- `validate_workflow`. -/
def validateWorkflow (payload : WorkflowDefinition) : Request ValidationResult :=
  validateListed py tenant (py.dump payload.toWorkflowSpec)

/-- `payload.definition if payload.definition else wf.definition_json`. -/
def targetDefinition (definition : Option Json) (wf : WorkflowRecord) : Json :=
  (definition.getD .null).or wf.definitionJson

/-- `deploy_workflow` up to its pre-flight validation: the errors that it refuses the definition
with, or the definition that it goes on with. -/
def deployPreflight (workflowId : String) (definition : Option Json) :
    Request (Except (List ValidationError) Json) := do
  match ← getRow tenant .workflows (.getById .workflows workflowId) with
  | none => .throw (httpException 404 "Workflow not found")
  | some wf => do
    let result ← validateListed py tenant (targetDefinition definition wf)
    return if result.isValid then .ok (targetDefinition definition wf) else .error result.errors

end Handlers

/-! ## Reports -/

/-- A request that validates a definition. -/
inductive ScopeRequest
  | validate (payload : WorkflowDefinition)
  | deploy (workflowId : String) (definition : Option Json)

/-- The errors that a request reports. -/
def ScopeRequest.errors (py : Pydantic) (tenant : String) (s : Db d) :
    ScopeRequest → List ValidationError
  | .validate payload =>
    match ((validateWorkflow py tenant payload).run (DbOp.handle d) s).1 with
    | .ok result => result.errors
    | .error _ => []
  | .deploy workflowId definition =>
    match ((deployPreflight py tenant workflowId definition).run (DbOp.handle d) s).1 with
    | .ok (.error errors) => errors
    | _ => []

/-- The definition, accepted by the schema, that a request is about. -/
def ScopeRequest.Concerns (py : Pydantic) (tenant : String) (s : Db d)
    (definition : WorkflowDefinition) : ScopeRequest → Prop
  | .validate payload => payload = definition
  | .deploy workflowId given => ∃ wf ∈ inTable .workflows s, wf.id = workflowId ∧
      wf.tenantId = tenant ∧ py.load (targetDefinition given wf) = .ok definition

/-- The connections of the tenant. -/
def connectionsOf (tenant : String) (s : Db d) : List ConnectionRecord :=
  (inTable .connections s).filter fun r => r.tenantId = tenant

/-- The hundred newest connections of the tenant. -/
def newestConnections (tenant : String) (s : Db d) : List ConnectionRecord :=
  (orderBy (TenantScopedRepository.comesFirst .connections) (connectionsOf tenant s)).take 100

/-- The node uses a connection that is not the tenant's. -/
def Foreign (tenant : String) (s : Db d) (n : WorkflowNode) : Prop :=
  ∃ c, n.connectionId = some c ∧ c ≠ "" ∧ ∀ conn ∈ connectionsOf tenant s, conn.id ≠ c

/-- The nodes that are reported for their connections are those that use a connection which is not
the tenant's. -/
def ScopeExact (tenant : String) (s : Db d) (nodes : List WorkflowNode)
    (errors : List ValidationError) : Prop :=
  ∀ n ∈ nodes, (∃ c, .unauthorised n.id n.name c ∈ errors) ↔ Foreign tenant s n

/-- The condition on the definition and the connections:

* if a delay cannot be compared with 0, no node uses a connection which is not the tenant's;
* if all can, a connection of the tenant that a node uses is one of the hundred newest. -/
def Covered (tenant : String) (s : Db d) (nodes : List WorkflowNode) : Prop :=
  ((∃ n ∈ nodes, WorkflowValidator.Incomparable n) → ∀ n ∈ nodes, ¬ Foreign tenant s n) ∧
    ((∀ n ∈ nodes, ¬ WorkflowValidator.Incomparable n) → ∀ n ∈ nodes,
      ∀ conn ∈ connectionsOf tenant s, n.connectionId = some conn.id → conn.id ≠ "" →
        conn ∈ newestConnections tenant s)

section Reports

variable {py : Pydantic} {tenant : String} {s : Db d}

/-- What `list_all` gives. -/
theorem fst_listAll (tenant : String) (s : Db d) :
    (TenantScopedRepository.listAll tenant .connections 0 100 s).1 =
      .ok (newestConnections tenant s, s) := by
  unfold TenantScopedRepository.listAll paginate
  have hnone : ¬ (((0 : ℤ) < 0 ∨ (100 : ℤ) < 0) ∧ (!d.negativeLimits) = true) := by simp
  rw [if_neg hnone, fst_bind, fst_bind, fst_fetchOwn]
  simp only [Bool.and_true]
  rfl

theorem run_validateListed (htenant : tenant ≠ "") (definition : Json) :
    (validateListed py tenant definition).run (DbOp.handle d) s =
      (WorkflowValidator.validate py definition
        (some ((newestConnections tenant s).map (·.id))), s) := by
  have hlist : (getRows tenant .connections (.listAll .connections 0 100)).run (DbOp.handle d) s =
      (.ok (newestConnections tenant s), s) :=
    (run_getRows htenant rfl s).trans (committed_of_ok (fst_listAll tenant s))
  unfold validateListed
  rw [Prog.run_bind_ok _ hlist]
  cases WorkflowValidator.validate py definition
    (some ((newestConnections tenant s).map (·.id))) <;> rfl

/-- A deployment refuses what the validation of the target finds fault with. -/
theorem run_deployPreflight (htenant : tenant ≠ "") {wf : WorkflowRecord}
    (hwf : wf ∈ inTable .workflows s) (howner : wf.tenantId = tenant) (definition : Option Json) :
    ((deployPreflight py tenant wf.id definition).run (DbOp.handle d) s).1 =
      (WorkflowValidator.validate py (targetDefinition definition wf)
        (some ((newestConnections tenant s).map (·.id)))).map fun result =>
          if result.isValid then .ok (targetDefinition definition wf) else .error result.errors := by
  have hget : (TenantScopedRepository.getById tenant .workflows wf.id s).1 = .ok (some wf, s) := by
    have hrow : ((inTable .workflows s).filter fun r => r.owner = tenant && r.entityId = wf.id) =
        [wf] := by
      refine eq_singleton_of_forall_eq ((nodup_inTable _ s).filter _) ?_ fun r hr => ?_
      · exact List.mem_filter.2 ⟨hwf, by simp [Row.owner, Row.entityId, howner]⟩
      · obtain ⟨hr, hown⟩ := List.mem_filter.1 hr
        simp only [Bool.and_eq_true, decide_eq_true_eq] at hown
        exact eq_of_entityId_eq hr hwf hown.2
    unfold TenantScopedRepository.getById
    rw [fst_bind, fst_fetchOwn, hrow]
    rfl
  have hfound : (getRow tenant .workflows (.getById .workflows wf.id)).run (DbOp.handle d) s =
      (.ok (some wf), s) := (run_getRow htenant rfl s).trans (committed_of_ok hget)
  unfold deployPreflight
  rw [Prog.run_bind_ok _ hfound]
  dsimp only
  rcases hvalidate : WorkflowValidator.validate py (targetDefinition definition wf)
    (some ((newestConnections tenant s).map (·.id))) with e | result
  · rw [Prog.run_bind_error _ ((run_validateListed htenant _).trans (by rw [hvalidate])), hvalidate]
    rfl
  · rw [Prog.run_bind_ok _ ((run_validateListed htenant _).trans (by rw [hvalidate])), hvalidate]
    rfl

/-- The errors that a request reports are those of the validation of its definition. -/
theorem errors_eq {definition : WorkflowDefinition} {r : ScopeRequest}
    (hpy : ReadsBack py definition) (htenant : tenant ≠ "") (hr : r.Concerns py tenant s definition) :
    ∃ checked : WorkflowDefinition,
      withoutRetry checked.toWorkflowSpec = withoutRetry definition.toWorkflowSpec ∧
        r.errors py tenant s = match WorkflowValidator.validateDefinition checked
          (some ((newestConnections tenant s).map (·.id))) with
          | .ok result => result.errors
          | .error _ => [] := by
  cases r with
  | validate payload =>
    obtain rfl : payload = definition := hr
    obtain ⟨checked, hload, hsame⟩ := hpy
    refine ⟨checked, hsame, ?_⟩
    unfold ScopeRequest.errors validateWorkflow
    dsimp only
    rw [run_validateListed htenant]
    unfold WorkflowValidator.validate
    rw [hload]
  | deploy workflowId given =>
    obtain ⟨wf, hwf, rfl, howner, hload⟩ := hr
    refine ⟨definition, rfl, ?_⟩
    unfold ScopeRequest.errors
    dsimp only
    rw [run_deployPreflight htenant hwf howner]
    unfold WorkflowValidator.validate
    rw [hload]
    dsimp only
    rcases WorkflowValidator.validateDefinition_cases definition
      ((newestConnections tenant s).map (·.id)) with ⟨-, result, hresult, hvalid, -⟩ | ⟨-, e, he⟩
    · rw [hresult]
      cases herrors : result.errors with
      | nil => simp [Except.map, hvalid, herrors]
      | cons e es => simp [Except.map, hvalid, herrors]
    · rw [he]
      rfl

end Reports

/-! ## When the reports are exact -/

section Exact

variable {tenant : String} {s : Db d}

/-- The checks of the connections do not look at the retry policies. -/
theorem forall_nodes_iff {P : WorkflowNode → Prop} {x y : WorkflowDefinition}
    (h : withoutRetry x.toWorkflowSpec = withoutRetry y.toWorkflowSpec)
    (hP : ∀ n : WorkflowNode, P n ↔ P { n with retry := none }) :
    (∀ n ∈ x.nodes, P n) ↔ ∀ n ∈ y.nodes, P n := by
  have hnodes : x.nodes.map (fun n => { n with retry := none }) =
      y.nodes.map fun n => { n with retry := none } := congrArg WorkflowSpec.nodes h
  have hall : ∀ l : List WorkflowNode, (∀ n ∈ l, P n) ↔
      ∀ n ∈ l.map (fun n : WorkflowNode => { n with retry := none }), P n := by
    intro l
    rw [List.forall_mem_map]
    exact forall₂_congr fun n _ => hP n
  rw [hall x.nodes, hnodes, ← hall]

theorem mem_newestConnections {conn : ConnectionRecord} (h : conn ∈ newestConnections tenant s) :
    conn ∈ connectionsOf tenant s :=
  (List.mem_insertionSort _).1 (List.mem_of_mem_take h)

/-- A connection of the tenant is listed exactly if its id is. -/
theorem id_mem_newest {conn : ConnectionRecord} (hconn : conn ∈ connectionsOf tenant s) :
    conn.id ∈ (newestConnections tenant s).map (·.id) ↔ conn ∈ newestConnections tenant s := by
  refine ⟨fun h => ?_, fun h => List.mem_map_of_mem h⟩
  obtain ⟨conn', hconn', hid⟩ := List.mem_map.1 h
  have hmem := List.mem_of_mem_filter (mem_newestConnections hconn')
  rwa [← eq_of_entityId_eq (t := .connections) hmem (List.mem_of_mem_filter hconn) hid]

theorem foreign_unavailable {n : WorkflowNode} (h : Foreign tenant s n) :
    ∃ c, WorkflowValidator.Unavailable ((newestConnections tenant s).map (·.id)) n c := by
  obtain ⟨c, hc, hne, hnone⟩ := h
  refine ⟨c, hc, hne, fun hmem => ?_⟩
  obtain ⟨conn, hconn, hid⟩ := List.mem_map.1 hmem
  exact hnone conn (mem_newestConnections hconn) hid

/-- The connections that are not available are the foreign ones exactly if those of the tenant are
among the newest. -/
theorem unavailable_iff_foreign (n : WorkflowNode) :
    ((∃ c, WorkflowValidator.Unavailable ((newestConnections tenant s).map (·.id)) n c) ↔
      Foreign tenant s n) ↔
        ∀ conn ∈ connectionsOf tenant s, n.connectionId = some conn.id → conn.id ≠ "" →
          conn ∈ newestConnections tenant s := by
  constructor
  · intro h conn hconn hid hne
    by_contra hnew
    obtain ⟨c, hc, -, hnone⟩ := h.1 ⟨conn.id, hid, hne, fun h => hnew ((id_mem_newest hconn).1 h)⟩
    exact hnone conn hconn (Option.some.inj (hid.symm.trans hc))
  · refine fun h => ⟨?_, foreign_unavailable⟩
    rintro ⟨c, hc, hne, hnew⟩
    refine ⟨c, hc, hne, ?_⟩
    rintro conn hconn rfl
    exact hnew ((id_mem_newest hconn).2 (h conn hconn hc hne))

/-- **When the check of the scope is exact**: a request that validates a definition which the schema
accepts reports exactly the nodes whose connection is not one of the tenant's, if and only if the
connections of the tenant that nodes use are among its hundred newest, or, where a delay cannot be
compared with 0, no node uses a connection which is not the tenant's. -/
theorem scope_exact_iff (py : Pydantic) (tenant : String) (s : Db d) (r : ScopeRequest)
    (definition : WorkflowDefinition) (hpy : ReadsBack py definition) (htenant : tenant ≠ "")
    (hr : r.Concerns py tenant s definition) :
    ScopeExact tenant s definition.nodes (r.errors py tenant s) ↔
      Covered tenant s definition.nodes := by
  obtain ⟨checked, hsame, herrors⟩ := errors_eq hpy htenant hr
  have hcomparable := forall_nodes_iff (P := fun n => ¬ WorkflowValidator.Incomparable n) hsame
    fun _ => Iff.rfl
  rcases WorkflowValidator.validateDefinition_cases checked
    ((newestConnections tenant s).map (·.id)) with
    ⟨hall, result, hresult, -, hmem⟩ | ⟨⟨n, hn, hbad⟩, e, he⟩
  · rw [herrors, hresult]
    -- a node is reported exactly if its connection is not listed
    have hreported : ∀ n ∈ checked.nodes, (∃ c, .unauthorised n.id n.name c ∈ result.errors) ↔
        ∃ c, WorkflowValidator.Unavailable ((newestConnections tenant s).map (·.id)) n c := by
      refine fun n hn => exists_congr fun c => (hmem _ _ _).trans ⟨?_, fun h => ⟨n, hn, h, rfl, rfl⟩⟩
      rintro ⟨m, hm, hc, hid, -⟩
      rwa [← List.inj_on_of_nodup_map checked.nodup_nodeIds hm hn hid]
    have hexact : ScopeExact tenant s definition.nodes result.errors ↔
        ∀ n ∈ checked.nodes, ((∃ c, .unauthorised n.id n.name c ∈ result.errors) ↔
          Foreign tenant s n) := (forall_nodes_iff hsame fun _ => Iff.rfl).symm
    have hcovered : Covered tenant s definition.nodes ↔ ∀ n ∈ checked.nodes,
        ∀ conn ∈ connectionsOf tenant s, n.connectionId = some conn.id → conn.id ≠ "" →
          conn ∈ newestConnections tenant s := by
      have hnone := hcomparable.1 hall
      rw [forall_nodes_iff (P := fun n => ∀ conn ∈ connectionsOf tenant s,
        n.connectionId = some conn.id → conn.id ≠ "" → conn ∈ newestConnections tenant s) hsame
          fun _ => Iff.rfl]
      exact ⟨fun h => h.2 hnone, fun h => ⟨fun ⟨n, hn, hbad⟩ => absurd hbad (hnone n hn), fun _ => h⟩⟩
    rw [hexact, hcovered]
    refine forall₂_congr fun n hn => ?_
    rw [hreported n hn]
    exact unavailable_iff_foreign n
  · rw [herrors, he]
    have hsome : ∃ n ∈ definition.nodes, WorkflowValidator.Incomparable n := by
      by_contra hnone
      exact hcomparable.2 (fun n hn hbad => hnone ⟨n, hn, hbad⟩) n hn hbad
    constructor
    · intro h
      refine ⟨fun _ n hn hforeign => ?_, fun hnone => ?_⟩
      · obtain ⟨c, hc⟩ := (h n hn).2 hforeign
        cases hc
      · obtain ⟨n, hn, hbad⟩ := hsome
        exact absurd hbad (hnone n hn)
    · intro h n hn
      refine ⟨fun ⟨c, hc⟩ => absurd hc List.not_mem_nil, fun hforeign => ?_⟩
      exact absurd hforeign (h.1 hsome n hn)

end Exact

/-! ### A tenant with many connections -/

/-- `model_dump` of the definitions below. -/
def sampleDump (s : WorkflowSpec) : Json :=
  .obj [("name", .str s.name), ("trigger", .obj [("type", .str s.trigger.type)]),
    ("nodes", .list (s.nodes.map fun n => .obj [("id", .str n.id), ("type", .str n.type),
      ("name", .str n.name), ("connection_id", .str (n.connectionId.getD ""))]))]

/-- A node is read. -/
def sampleReadNode : Json → Except PyError WorkflowNode
  | .obj [(_, .str id), (_, .str type), (_, .str name), (_, .str connectionId)] =>
    .ok ⟨id, type, name, some connectionId, [], none⟩
  | _ => .error ⟨.validationError, "Input should be a valid dictionary"⟩

/-- Definitions without edges are read; the other fields have their defaults. -/
def samplePydantic : Pydantic where
  dump := sampleDump
  read
    | .obj [(_, .str name), (_, .obj [(_, .str type)]), (_, .list nodes)] => do
      return { name, trigger := { type }, nodes := ← nodes.mapM sampleReadNode }
    | _ => .error ⟨.validationError, "Input should be a valid dictionary"⟩

/-- The id of a connection. -/
def longId (n : ℕ) : String := String.ofList (List.replicate n 'c')

/-- One workflow node that uses a connection. -/
def nodeUsing (connectionId : String) : WorkflowNode :=
  { id := "n1", type := "action.http", name := "Call", connectionId := some connectionId }

/-- A workflow with one node. -/
def workflowUsing (connectionId : String) : WorkflowDefinition where
  name := "Orders"
  trigger := { type := "trigger.webhook" }
  nodes := [nodeUsing connectionId]
  accepted := ⟨by simp [WorkflowSpec.fieldsOk, WorkflowNode.fieldsOk, nodeUsing], rfl⟩

/-- As many connections of the tenant `acme`, the newest first. -/
def manyConnections (n : ℕ) : Db .sqlite where
  rows := (List.range n).map fun i =>
    ⟨.connections, ⟨longId (i + 1), "acme", "rest", "Orders", .obj [], none, "healthy", -i⟩⟩
  unique := by
    refine List.pairwise_map.2 (List.nodup_range.imp fun {i j} hne hclash => hne ?_)
    rcases hclash with hname | ⟨k, hk, -⟩
    · have hid : longId (i + 1) = longId (j + 1) := congrArg Prod.snd hname
      simpa [longId] using congrArg (fun id => id.toList.length) hid
    · exact absurd hk List.not_mem_nil

theorem readsBack_workflowUsing (connectionId : String) :
    ReadsBack samplePydantic (workflowUsing connectionId) :=
  ⟨workflowUsing connectionId, dif_pos (workflowUsing connectionId).accepted, rfl⟩

/-- A connection that is not one of two is reported. -/
theorem scope_exact_iff_foreign : ScopeExact "acme" (manyConnections 2) [nodeUsing (longId 3)]
    ((ScopeRequest.validate (workflowUsing (longId 3))).errors samplePydantic "acme"
      (manyConnections 2)) := by
  refine (scope_exact_iff samplePydantic "acme" (manyConnections 2)
    (.validate (workflowUsing (longId 3))) (workflowUsing (longId 3)) (readsBack_workflowUsing _)
      (by decide) rfl).2 ⟨?_, ?_⟩
  · rintro ⟨n, hn, hdelay, -⟩
    rw [List.mem_singleton.1 hn] at hdelay
    exact absurd hdelay (by decide)
  · intro _ n hn conn hconn hid
    obtain rfl : n = nodeUsing (longId 3) := List.mem_singleton.1 hn
    have hall : ((connectionsOf "acme" (manyConnections 2)).all fun conn => conn.id ≠ longId 3) =
        true := by decide +kernel
    have hne := of_decide_eq_true (List.all_eq_true.1 hall conn hconn)
    exact absurd (Option.some.inj hid).symm hne

/-- The oldest of a hundred and one connections is reported. -/
theorem not_scope_exact_oldest : ¬ ∀ (py : Pydantic) (tenant : String) (s : Db .sqlite)
    (r : ScopeRequest) (definition : WorkflowDefinition), ReadsBack py definition → tenant ≠ "" →
      r.Concerns py tenant s definition →
        ScopeExact tenant s definition.nodes (r.errors py tenant s) := by
  intro hall
  have hexact := hall samplePydantic "acme" (manyConnections 101)
    (.validate (workflowUsing (longId 101))) _ (readsBack_workflowUsing _) (by decide) rfl
  have hreported : (((ScopeRequest.validate (workflowUsing (longId 101))).errors samplePydantic "acme"
      (manyConnections 101)).any fun
        | .unauthorised nodeId name connectionId =>
          nodeId = "n1" && name = "Call" && connectionId = longId 101
        | _ => false) = true := by decide +kernel
  have hown : ((connectionsOf "acme" (manyConnections 101)).any fun conn => conn.id = longId 101) =
      true := by decide +kernel
  obtain ⟨e, he, hshape⟩ := List.any_eq_true.1 hreported
  cases e with
  | unauthorised nodeId name connectionId =>
    simp only [Bool.and_eq_true, decide_eq_true_eq] at hshape
    obtain ⟨⟨rfl, rfl⟩, rfl⟩ := hshape
    obtain ⟨c, hc, -, hnone⟩ :=
      (hexact (nodeUsing (longId 101)) (List.mem_singleton_self _)).1 ⟨_, he⟩
    obtain ⟨conn, hconn, hid⟩ := List.any_eq_true.1 hown
    exact hnone conn hconn ((of_decide_eq_true hid).trans (Option.some.inj hc))
  | _ => cases hshape

end FlowMesh.Tables
