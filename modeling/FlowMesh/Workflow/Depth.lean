import FlowMesh.Workflow.Acceptance

/-!
# The estimated depth

`_compute_max_depth` of the validator relaxes the distances of the nodes while it counts down their
edges, as one pass over the edges in the order in which `validate` visits the nodes
(`maxDepth_eq`). That order is a topological one, so that the depth is the number of nodes on a
longest path (`maxDepth_isGreatest`).
-/

namespace FlowMesh

/-- The ids of nodes, each with an edge to the next. -/
def WorkflowSpec.Chain (s : WorkflowSpec) (path : List String) : Prop :=
  (∀ id ∈ path, id ∈ s.nodeIds) ∧
    path.IsChain (Kahn.Edge WorkflowEdge.source WorkflowEdge.target s.edges)

namespace WorkflowValidator

variable (d : WorkflowDefinition)

/-- `_compute_max_depth`, as one pass over the edges in the order of `visited_order`. -/
theorem maxDepth_eq : maxDepth d.toWorkflowSpec =
    .ok ((d.nodeIds.map (Kahn.liftAll
      (Kahn.neighbours WorkflowEdge.source WorkflowEdge.target d.edges)
      (visitedOrder d.toWorkflowSpec) fun _ => 1)).foldl max 0) := by
  have hleaving : leaving d.toWorkflowSpec = d.edges := by
    unfold leaving
    rw [List.filter_eq_self]
    exact fun e he => decide_eq_true (d.source_mem he)
  have htargets : ∀ id, ∀ n ∈ Kahn.neighbours WorkflowEdge.source WorkflowEdge.target d.edges id,
      n ∈ d.nodeIds := by
    intro id n hn
    obtain ⟨e, he, rfl⟩ := List.mem_map.1 hn
    exact d.target_mem (List.mem_of_mem_filter he)
  unfold maxDepth
  rw [visitedOrder_eq]
  simp only [hleaving, nodeSet_eq, Kahn.pending_nil, Nat.cast_eq_zero]
  exact congrArg (· >>= fun dist => Except.ok ((d.nodeIds.map dist).foldl max 0))
    (relaxAll_eq htargets _ _ _ _)

/-- `visited_order` has every node, each behind its predecessors. -/
theorem visitedOrder_topological : (visitedOrder d.toWorkflowSpec).Nodup ∧
    (∀ id, id ∈ visitedOrder d.toWorkflowSpec ↔ id ∈ d.nodeIds) ∧
    Kahn.Topological WorkflowEdge.source WorkflowEdge.target d.edges
      (visitedOrder d.toWorkflowSpec) := by
  obtain ⟨hids, hjoined, hacyclic⟩ := WorkflowSpec.validateDag_iff _ |>.1 d.accepted.2
  have htargets : ∀ e ∈ d.edges, e.target ∈ d.nodeIds := fun e he => (hjoined e he).2
  have hstart : Kahn.Visiting WorkflowEdge.source WorkflowEdge.target d.edges d.nodeIds [] _ _ :=
    .start hids
  have hfuel : d.nodeIds.length ≤ d.nodeIds.length + ([] : List String).length := le_rfl
  obtain ⟨deg, hvisited⟩ := hstart.visit htargets hfuel
  rw [visitedOrder_eq]
  refine ⟨List.Nodup.of_append_left hvisited.nodup, fun id => ⟨fun hid => ?_, fun hid => ?_⟩,
    hstart.topological htargets Kahn.topological_nil⟩
  · exact hvisited.subset id (List.mem_append_left _ hid)
  · exact hvisited.mem_of_acyclic (fun e he => (hjoined e he).1) hacyclic id hid

/-- **The estimated depth** of an accepted definition is the number of nodes on a longest path, and
`visited_order` is a topological order that contains each node once. -/
theorem maxDepth_isGreatest (d : WorkflowDefinition) :
    (∃ depth, maxDepth d.toWorkflowSpec = .ok depth ∧
      IsGreatest { n | ∃ path, d.Chain path ∧ path.length = n } depth) ∧
    (visitedOrder d.toWorkflowSpec).Nodup ∧
    (∀ id, id ∈ visitedOrder d.toWorkflowSpec ↔ id ∈ d.nodeIds) ∧
    Kahn.Topological WorkflowEdge.source WorkflowEdge.target d.edges
      (visitedOrder d.toWorkflowSpec) := by
  obtain ⟨hnodup, hmem, horder⟩ := visitedOrder_topological d
  refine ⟨⟨_, maxDepth_eq d, ?_⟩, hnodup, hmem, horder⟩
  have hdist := Kahn.isGreatest_liftAll hnodup horder fun e he => (hmem _).2 (d.source_mem he)
  obtain ⟨hmax, hle⟩ := Kahn.isGreatest_foldl_max (d.nodeIds.map (Kahn.liftAll
    (Kahn.neighbours WorkflowEdge.source WorkflowEdge.target d.edges)
    (visitedOrder d.toWorkflowSpec) fun _ => 1)) 0
  constructor
  · rcases hmax with hzero | hmax
    · rw [hzero]
      exact ⟨[], ⟨fun id hid => absurd hid List.not_mem_nil, List.isChain_nil⟩, rfl⟩
    · obtain ⟨id, hid, heq⟩ := List.mem_map.1 hmax
      obtain ⟨path, hpath, hlength⟩ := (hdist id).1
      rw [← heq, ← hlength]
      exact ⟨path ++ [id], ⟨Kahn.mem_of_isChain (fun e he => d.source_mem he) hpath hid, hpath⟩,
        by simp⟩
  · rintro n ⟨path, ⟨hids, hpath⟩, rfl⟩
    rcases List.eq_nil_or_concat path with rfl | ⟨path, id, rfl⟩
    · exact Nat.zero_le _
    · rw [List.concat_eq_append] at hids hpath ⊢
      have hend := (hdist id).2 ⟨path, hpath, rfl⟩
      rw [List.length_append, List.length_singleton]
      exact hend.trans (hle (Or.inr (List.mem_map_of_mem (hids id (by simp)))))

end WorkflowValidator

end FlowMesh
