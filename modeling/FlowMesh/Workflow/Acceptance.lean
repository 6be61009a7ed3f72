import FlowMesh.Workflow.Validation

/-!
# What the schema accepts

`validate_dag` of `WorkflowDefinition` (`flowmesh_workflow/schema.py`) is Kahn's algorithm on the
edges of the definition, behind two checks. It accepts exactly the definitions with distinct node
ids, edges between nodes, and no cycle (`validateDag_iff`). The validator of the engine runs the
same algorithm again, and finds no cycle in what the schema accepts (`checkCycles_eq_nil`).
-/

namespace FlowMesh

open Python

/-! ## The algorithm of the schema -/

theorem release_eq (ns queue : List String) (deg : String → ℤ) :
    WorkflowSpec.release ns queue deg = Kahn.release ns queue deg := by
  induction ns generalizing queue deg with
  | nil => rfl
  | cons n ns ih => exact ih _ _

theorem kahn_eq (adjacency : String → List String) (fuel : ℕ) (queue : List String)
    (deg : String → ℤ) : WorkflowSpec.kahn adjacency fuel queue deg =
      (Kahn.visit adjacency fuel queue deg).length := by
  induction fuel generalizing queue deg with
  | zero => rfl
  | succ fuel ih =>
    cases queue with
    | nil => rfl
    | cons curr queue =>
      unfold WorkflowSpec.kahn Kahn.visit
      rw [release_eq]
      exact congrArg (· + 1) (ih _ _)

namespace WorkflowSpec

variable (s : WorkflowSpec)

/-- No node reaches itself along the edges. -/
def Acyclic : Prop := Kahn.Acyclic WorkflowEdge.source WorkflowEdge.target s.edges

/-- Both ends of the edges are nodes. -/
def Joined : Prop := ∀ e ∈ s.edges, e.source ∈ s.nodeIds ∧ e.target ∈ s.nodeIds

variable {s}

theorem checkEdges_iff {ids : List String} {es : List WorkflowEdge} :
    checkEdges ids es = .ok () ↔ ∀ e ∈ es, e.source ∈ ids ∧ e.target ∈ ids := by
  refine ⟨checkEdges_ok, fun h => ?_⟩
  induction es with
  | nil => rfl
  | cons e es ih =>
    rw [List.forall_mem_cons] at h
    unfold checkEdges
    rw [if_neg (not_not.2 h.1.1), if_neg (not_not.2 h.1.2)]
    exact ih h.2

theorem incomingCount_eq (id : String) :
    s.incomingCount id = Kahn.pending WorkflowEdge.source WorkflowEdge.target s.edges [] id := by
  simp [incomingCount, Kahn.pending]

/-- Kahn's algorithm visits every node exactly if there is no cycle. -/
theorem kahn_iff (hids : s.nodeIds.Nodup) (hjoined : s.Joined) :
    s.nodes.length ≤ kahn s.adjacency s.nodes.length s.roots (fun id => s.incomingCount id) ↔
      s.Acyclic := by
  have hlength : s.nodeIds.length = s.nodes.length := List.length_map _
  have hdeg : (fun id => (s.incomingCount id : ℤ)) = fun id =>
      (Kahn.pending WorkflowEdge.source WorkflowEdge.target s.edges [] id : ℤ) := by
    funext id
    rw [incomingCount_eq]
  have hroots : s.roots = s.nodeIds.filter fun id =>
      Kahn.pending WorkflowEdge.source WorkflowEdge.target s.edges [] id = 0 := by
    unfold roots
    congr 1
    funext id
    rw [incomingCount_eq]
  rw [kahn_eq, hdeg, hroots, ← hlength]
  exact Kahn.length_visit_iff hids (fun e he => (hjoined e he).1) (fun e he => (hjoined e he).2)
    le_rfl

/-- **Acceptance is exact**: the schema accepts a definition exactly if its node ids are pairwise
distinct, the ends of its edges are nodes, and its graph has no cycle. -/
theorem validateDag_iff (s : WorkflowSpec) :
    s.validateDag = .ok () ↔ s.nodeIds.Nodup ∧ s.Joined ∧ s.Acyclic := by
  constructor
  · intro h
    obtain ⟨hids, hedges, hkahn⟩ := validateDag_ok h
    have hjoined : s.Joined := checkEdges_iff.1 hedges
    exact ⟨hids, hjoined, (kahn_iff hids hjoined).1 hkahn⟩
  · rintro ⟨hids, hjoined, hacyclic⟩
    have hedges := checkEdges_iff.2 hjoined
    have hkahn := (kahn_iff hids hjoined).2 hacyclic
    unfold validateDag
    simp [hids, hedges, bind, Except.bind, not_lt.2 hkahn, pure, Except.pure]

end WorkflowSpec

/-! ## The algorithm of the validator -/

namespace WorkflowValidator

theorem visit_eq (adjacency : String → List String) (fuel : ℕ) (queue : List String)
    (deg : String → ℤ) : visit adjacency fuel queue deg = Kahn.visit adjacency fuel queue deg := by
  induction fuel generalizing queue deg with
  | zero => rfl
  | succ fuel ih =>
    cases queue with
    | nil => rfl
    | cons curr queue =>
      unfold visit Kahn.visit
      rw [release_eq]
      exact congrArg (curr :: ·) (ih _ _)

variable (d : WorkflowDefinition)

theorem joined_eq : joined d.toWorkflowSpec = d.edges := by
  unfold joined
  rw [List.filter_eq_self]
  intro e he
  simp [d.source_mem he, d.target_mem he]

theorem eraseDups_of_nodup {ids : List String} (h : ids.Nodup) : ids.eraseDups = ids := by
  induction ids with
  | nil => rfl
  | cons id ids ih =>
    obtain ⟨hid, hids⟩ := List.nodup_cons.1 h
    have hfilter : ids.filter (fun b => !b == id) = ids := by
      rw [List.filter_eq_self]
      intro b hb
      have hne : b ≠ id := fun heq => hid (heq ▸ hb)
      simp [hne]
    rw [List.eraseDups_cons, hfilter, ih hids]

theorem nodeSet_eq : nodeSet d.toWorkflowSpec = d.nodeIds := eraseDups_of_nodup d.nodup_nodeIds

/-- The validator visits the nodes as Kahn's algorithm does on all the edges. -/
theorem visitedOrder_eq : visitedOrder d.toWorkflowSpec =
    Kahn.visit (Kahn.neighbours WorkflowEdge.source WorkflowEdge.target d.edges) d.nodeIds.length
      (d.nodeIds.filter fun id =>
        Kahn.pending WorkflowEdge.source WorkflowEdge.target d.edges [] id = 0)
      fun id => Kahn.pending WorkflowEdge.source WorkflowEdge.target d.edges [] id := by
  have hdeg : inDegree d.toWorkflowSpec = fun id =>
      (Kahn.pending WorkflowEdge.source WorkflowEdge.target d.edges [] id : ℤ) := by
    funext id
    simp [inDegree, joined_eq, Kahn.pending]
  have hadjacency : adjacency d.toWorkflowSpec =
      Kahn.neighbours WorkflowEdge.source WorkflowEdge.target d.edges := by
    funext id
    simp [adjacency, joined_eq, Kahn.neighbours]
  unfold visitedOrder
  rw [visit_eq, hadjacency, hdeg, nodeSet_eq]
  simp only [Nat.cast_eq_zero]

/-- The validator finds no cycle in a definition that the schema accepts. -/
theorem checkCycles_eq_nil : checkCycles d.toWorkflowSpec = [] := by
  obtain ⟨hids, hjoined, hacyclic⟩ := WorkflowSpec.validateDag_iff _ |>.1 d.accepted.2
  have hlength : d.nodeIds.length = d.nodes.length := List.length_map _
  have hvisited : d.nodes.length ≤ (visitedOrder d.toWorkflowSpec).length := by
    rw [visitedOrder_eq, ← hlength]
    exact (Kahn.length_visit_iff hids (fun e he => (hjoined e he).1)
      (fun e he => (hjoined e he).2) le_rfl).2 hacyclic
  unfold checkCycles
  rw [if_neg (not_lt.2 hvisited)]

end WorkflowValidator

end FlowMesh
