import Mathlib.Data.List.Nodup
import FlowMesh.Python.Value

/-!
# Workflow definitions

The contract of `flowmesh_workflow/schema.py`. A `WorkflowSpec` is what a `definition_json` column
or a request body holds; `WorkflowDefinition(**json)` is `WorkflowDefinition.parse`, which checks
the field constraints and runs `validate_dag` (distinct node ids, edges between nodes, Kahn's
algorithm). A `WorkflowDefinition` carries the fact that it was accepted, so the engine below
cannot be handed anything else.

What later proofs take from acceptance is at the end: the node ids are distinct
(`nodup_nodeIds`), edges join nodes (`source_mem`, `target_mem`), and some node has no incoming
edge (`startNodes_ne_nil`), so that the traversal never falls back to the first node.
-/

namespace FlowMesh

open Python

/-! ## The models -/

/-- `TriggerSpec`. A stored definition may also carry a `path` beside the `config`; the schema
ignores it, `get_by_trigger_path` reads it. -/
structure TriggerSpec where
  type : String
  config : List (String × Json) := []
  path : Json := .null

/-- `RetryPolicy`. -/
structure RetryPolicy where
  maxAttempts : ℤ := 3
  backoff : String := "exponential"
  initialIntervalSeconds : FloatVal := .finite (1 / 2)
  maxIntervalSeconds : FloatVal := .finite 30
  jitter : Bool := true

/-- `RetryPolicy | Dict[str, Any]`: the arm of the union the parser chose. -/
inductive Retry
  | policy (p : RetryPolicy)
  | dict (items : List (String × Json))

/-- `WorkflowNode`. -/
structure WorkflowNode where
  id : String
  type : String
  name : String
  connectionId : Option String := none
  config : List (String × Json) := []
  retry : Option Retry := none

/-- `WorkflowEdge`. -/
structure WorkflowEdge where
  source : String
  target : String
  condition : Option String := none
  deriving DecidableEq

/-- The fields of a `WorkflowDefinition`. -/
structure WorkflowSpec where
  id : Option String := none
  schemaVersion : ℤ := 1
  name : String
  description : String := ""
  trigger : TriggerSpec
  nodes : List WorkflowNode
  edges : List WorkflowEdge := []

/-! ## Field constraints -/

/-- `x >= q` on floats. -/
def atLeast (q : ℚ) : FloatVal → Bool
  | .finite x => q ≤ x
  | .inf => true
  | _ => false

/-- The field constraints of `RetryPolicy`. -/
def RetryPolicy.fieldsOk (p : RetryPolicy) : Bool :=
  1 ≤ p.maxAttempts && p.maxAttempts ≤ 10 && atLeast 0 p.initialIntervalSeconds &&
    atLeast (1 / 10) p.maxIntervalSeconds

/-- The field constraints of `WorkflowNode`. -/
def WorkflowNode.fieldsOk (n : WorkflowNode) : Bool :=
  n.id ≠ "" && n.name ≠ "" &&
    match n.retry with
    | some (.policy p) => p.fieldsOk
    | _ => true

namespace WorkflowSpec

variable (s : WorkflowSpec)

/-- The field constraints of `WorkflowDefinition`. -/
def fieldsOk : Bool :=
  2 ≤ s.name.toList.length && s.name.toList.length ≤ 100 && s.nodes ≠ [] &&
    s.nodes.all WorkflowNode.fieldsOk

/-! ## The graph -/

/-- The node ids, in the order of the definition. -/
def nodeIds : List String := s.nodes.map (·.id)

/-- `nodes_by_id.get(id)`. -/
def node? (id : String) : Option WorkflowNode := s.nodes.find? (·.id = id)

/-- `outgoing_edges.get(id, [])`. -/
def outgoing (id : String) : List WorkflowEdge := s.edges.filter (·.source = id)

/-- `adjacency[id]`. -/
def adjacency (id : String) : List String := (s.outgoing id).map (·.target)

/-- `incoming_counts[id]`. -/
def incomingCount (id : String) : ℕ := (s.edges.filter (·.target = id)).length

/-- The nodes without incoming edges. -/
def roots : List String := s.nodeIds.filter fun id => s.incomingCount id = 0

/-- Where the traversal starts: the roots, or the first node if there are none. -/
def startNodes : List String :=
  if s.roots = [] then (s.nodeIds.head?).toList else s.roots

/-! ## `validate_dag` -/

/-- The loop over the edges that checks their end points. -/
def checkEdges (ids : List String) : List WorkflowEdge → Except String Unit
  | [] => .ok ()
  | e :: es =>
    if e.source ∉ ids then
      .error ("Edge references non-existent source node: " ++ e.source)
    else if e.target ∉ ids then
      .error ("Edge references non-existent target node: " ++ e.target)
    else checkEdges ids es

/-- The inner loop of Kahn's algorithm: count down the in-degrees of the neighbours and queue
those that reach zero. -/
def release : List String → List String → (String → ℤ) → List String × (String → ℤ)
  | [], queue, deg => (queue, deg)
  | n :: ns, queue, deg =>
    let deg := Function.update deg n (deg n - 1)
    release ns (if deg n = 0 then queue ++ [n] else queue) deg

/-- The outer loop of Kahn's algorithm, counting the nodes it visits; the caller only compares
the count with the number of nodes, which is the fuel. -/
def kahn (adjacency : String → List String) : ℕ → List String → (String → ℤ) → ℕ
  | 0, _, _ => 0
  | _ + 1, [], _ => 0
  | fuel + 1, curr :: queue, deg =>
    let (queue, deg) := release (adjacency curr) queue deg
    kahn adjacency fuel queue deg + 1

/-- `validate_dag`. -/
def validateDag : Except String Unit := do
  unless s.nodeIds.Nodup do
    throw "Duplicate node IDs found in workflow definition"
  checkEdges s.nodeIds s.edges
  if kahn s.adjacency s.nodes.length s.roots (fun id => s.incomingCount id) < s.nodes.length then
    throw ("Cycle detected in workflow DAG. " ++
      "FlowMesh workflows must be directed acyclic graphs.")

/-- The schema accepts the definition. -/
def Accepted : Prop := s.fieldsOk = true ∧ s.validateDag = .ok ()

instance : Decidable s.Accepted :=
  haveI : Decidable (s.validateDag = .ok ()) :=
    match s.validateDag with
    | .ok () => isTrue rfl
    | .error _ => isFalse (fun h => nomatch h)
  inferInstanceAs (Decidable (_ ∧ _))

end WorkflowSpec

/-- `WorkflowDefinition`: a definition the schema accepted. -/
structure WorkflowDefinition extends WorkflowSpec where
  accepted : toWorkflowSpec.Accepted

/-- `WorkflowDefinition(**json)`. -/
def WorkflowDefinition.parse (s : WorkflowSpec) : Except PyError WorkflowDefinition :=
  if h : s.Accepted then .ok ⟨s, h⟩
  else .error ⟨.validationError, match s.validateDag with
    | .error msg => "Value error, " ++ msg
    | .ok _ => "field constraints violated"⟩

/-- `workflow_def.id = id`: the validator does not look at the id. -/
def WorkflowDefinition.withId (d : WorkflowDefinition) (id : String) : WorkflowDefinition :=
  ⟨{ d.toWorkflowSpec with id := some id }, d.accepted⟩

/-! ## What acceptance gives -/

namespace WorkflowSpec

theorem checkEdges_ok {ids : List String} : ∀ {es : List WorkflowEdge},
    checkEdges ids es = .ok () → ∀ e ∈ es, e.source ∈ ids ∧ e.target ∈ ids
  | [], _ => fun e he => absurd he List.not_mem_nil
  | e :: es, h => by
    unfold checkEdges at h
    split at h
    · cases h
    next hsource =>
    split at h
    · cases h
    next htarget =>
    intro e' he'
    rcases List.mem_cons.1 he' with rfl | he'
    · exact ⟨not_not.1 hsource, not_not.1 htarget⟩
    · exact checkEdges_ok h e' he'

/-- The three checks of `validate_dag`. -/
theorem validateDag_ok {s : WorkflowSpec} (h : s.validateDag = .ok ()) :
    s.nodeIds.Nodup ∧ checkEdges s.nodeIds s.edges = .ok () ∧
      s.nodes.length ≤ kahn s.adjacency s.nodes.length s.roots (fun id => s.incomingCount id) := by
  unfold validateDag at h
  by_cases hnd : s.nodeIds.Nodup
  · rcases hce : checkEdges s.nodeIds s.edges with msg | ⟨⟩
    · simp [hnd, hce, bind, Except.bind] at h
    · refine ⟨hnd, rfl, ?_⟩
      by_contra hk
      simp [hnd, hce, bind, Except.bind, not_le.1 hk, throw, throwThe,
        MonadExceptOf.throw] at h
  · simp [hnd, bind, Except.bind, throw, throwThe, MonadExceptOf.throw] at h

end WorkflowSpec

namespace WorkflowDefinition

variable (d : WorkflowDefinition)

theorem nodes_ne_nil : d.nodes ≠ [] := by
  have h := d.accepted.1
  simp only [WorkflowSpec.fieldsOk, Bool.and_eq_true, decide_eq_true_eq] at h
  exact h.1.2

/-- The field constraints of the nodes. -/
theorem fieldsOk_of_mem {n : WorkflowNode} (hn : n ∈ d.nodes) :
    (n.id ≠ "" ∧ n.name ≠ "") ∧
      ∀ p, n.retry = some (.policy p) → 1 ≤ p.maxAttempts ∧ p.maxAttempts ≤ 10 := by
  have h := d.accepted.1
  simp only [WorkflowSpec.fieldsOk, Bool.and_eq_true, List.all_eq_true] at h
  have hnode := h.2 n hn
  simp only [WorkflowNode.fieldsOk, Bool.and_eq_true, decide_eq_true_eq] at hnode
  refine ⟨hnode.1, fun p hp => ?_⟩
  have hpolicy := hnode.2
  rw [hp] at hpolicy
  simp only [RetryPolicy.fieldsOk, Bool.and_eq_true, decide_eq_true_eq] at hpolicy
  exact hpolicy.1.1

/-- The node ids are distinct. -/
theorem nodup_nodeIds : d.nodeIds.Nodup := (WorkflowSpec.validateDag_ok d.accepted.2).1

theorem source_mem {e : WorkflowEdge} (he : e ∈ d.edges) : e.source ∈ d.nodeIds :=
  (WorkflowSpec.checkEdges_ok (WorkflowSpec.validateDag_ok d.accepted.2).2.1 e he).1

theorem target_mem {e : WorkflowEdge} (he : e ∈ d.edges) : e.target ∈ d.nodeIds :=
  (WorkflowSpec.checkEdges_ok (WorkflowSpec.validateDag_ok d.accepted.2).2.1 e he).2

/-- An accepted definition has a root: with none, Kahn's algorithm visits nothing. -/
theorem roots_ne_nil : d.roots ≠ [] := by
  intro hroots
  have hk := (WorkflowSpec.validateDag_ok d.accepted.2).2.2
  rw [hroots] at hk
  have hlen : d.nodes.length ≠ 0 := fun h => d.nodes_ne_nil (List.length_eq_zero_iff.1 h)
  obtain ⟨n, hn⟩ := Nat.exists_eq_succ_of_ne_zero hlen
  rw [hn] at hk
  simp [WorkflowSpec.kahn] at hk

/-- The traversal starts at the roots. -/
theorem startNodes_eq : d.startNodes = d.roots := by
  rw [WorkflowSpec.startNodes, if_neg d.roots_ne_nil]

theorem mem_startNodes {id : String} :
    id ∈ d.startNodes ↔ id ∈ d.nodeIds ∧ ∀ e ∈ d.edges, e.target ≠ id := by
  rw [startNodes_eq, WorkflowSpec.roots, List.mem_filter]
  simp [WorkflowSpec.incomingCount, List.filter_eq_nil_iff]

theorem node?_eq_some {id : String} {n : WorkflowNode} :
    d.node? id = some n ↔ n ∈ d.nodes ∧ n.id = id := by
  constructor
  · intro h
    exact ⟨List.mem_of_find?_eq_some h, by simpa using List.find?_some h⟩
  · rintro ⟨hn, rfl⟩
    rcases hf : d.node? n.id with _ | m
    · have := List.find?_eq_none.1 hf n hn
      simp at this
    · have hm : m.id = n.id := by simpa using List.find?_some hf
      rw [List.inj_on_of_nodup_map d.nodup_nodeIds (List.mem_of_find?_eq_some hf) hn hm]

theorem exists_node {id : String} (h : id ∈ d.nodeIds) : ∃ n, d.node? id = some n := by
  obtain ⟨n, hn, rfl⟩ := List.mem_map.1 h
  exact ⟨n, d.node?_eq_some.2 ⟨hn, rfl⟩⟩

@[simp] theorem withId_nodes (id : String) : (d.withId id).nodes = d.nodes := rfl

@[simp] theorem withId_edges (id : String) : (d.withId id).edges = d.edges := rfl

end WorkflowDefinition

end FlowMesh
