import Mathlib.Logic.Relation
import FlowMesh.Library.Fifo
import FlowMesh.Workflow.Acceptance

/-!
# What the validator calls unreachable

The breadth-first search of `validate` finds what can be reached from the entries along the edges
(`mem_reach_iff`): the queue takes each edge at most once, so that the fuel is enough. The entries
are the nodes of a trigger type, and if there are none, the first node that no edge leads to.
`reports_iff` says which nodes a validation reports as unreachable.
-/

namespace FlowMesh

open Python

/-! ## The definition as a graph -/

namespace WorkflowSpec

variable (s : WorkflowSpec)

/-- An edge leads from `x` to `y`. -/
def Leads (x y : String) : Prop := ∃ e ∈ s.edges, e.source = x ∧ e.target = y

/-- The node is of a trigger type. -/
def IsTrigger (id : String) : Prop :=
  ∃ n ∈ s.nodes, "trigger.".toList.isPrefixOf n.type.toList = true ∧ n.id = id

/-- The validator starts from the node: it is a trigger, or there is none and it is the first node
without incoming edges. -/
def IsEntry (id : String) : Prop :=
  s.IsTrigger id ∨ (∀ id', ¬ s.IsTrigger id') ∧ s.roots.head? = some id

/-- Edges lead to the node from where the validator starts. -/
def Entered (id : String) : Prop := ∃ x, s.IsEntry x ∧ Relation.ReflTransGen s.Leads x id

end WorkflowSpec

namespace WorkflowValidator

/-! ## The search -/

section Search

variable {adjacency : String → List String} {queue reachable : List String}

/-- What edges out of `reachable` lead to is in `reachable` or starts in the queue. -/
theorem mem_or_queued {x y : String} (hclosed : ∀ x ∈ reachable, ∀ y ∈ adjacency x,
    y ∈ reachable ∨ y ∈ queue) (hx : x ∈ reachable)
    (hxy : Relation.ReflTransGen (fun a b => b ∈ adjacency a) x y) :
    y ∈ reachable ∨ ∃ z ∈ queue, Relation.ReflTransGen (fun a b => b ∈ adjacency a) z y := by
  induction hxy with
  | refl => exact Or.inl hx
  | @tail a b _ hab ih =>
    rcases ih with ha | ⟨z, hz, hza⟩
    · rcases hclosed a ha b hab with hb | hb
      · exact Or.inl hb
      · exact Or.inr ⟨b, hb, .refl⟩
    · exact Or.inr ⟨z, hz, hza.tail hab⟩

/-- **The breadth-first search is exact**, with an iteration for each queued node and each edge out
of a node that is not reached yet. -/
theorem mem_reach_iff {U : List String} (hU : U.Nodup)
    (hadjacency : ∀ x, ∀ y ∈ adjacency x, y ∈ U) {y : String} (fuel : ℕ)
    (queue reachable : List String) (hqueue : ∀ x ∈ queue, x ∈ U)
    (hclosed : ∀ x ∈ reachable, ∀ y ∈ adjacency x, y ∈ reachable ∨ y ∈ queue)
    (hfuel : queue.length + Fifo.pending U (fun x => (adjacency x).length) reachable ≤ fuel) :
    y ∈ reach adjacency fuel queue reachable ↔
      y ∈ reachable ∨ ∃ x ∈ queue, Relation.ReflTransGen (fun a b => b ∈ adjacency a) x y := by
  induction fuel generalizing queue reachable with
  | zero =>
    obtain rfl : queue = [] := List.length_eq_zero_iff.1 (by omega)
    simp [reach]
  | succ fuel ih =>
    cases queue with
    | nil => simp [reach]
    | cons curr queue =>
      rw [List.forall_mem_cons] at hqueue
      unfold reach
      by_cases hcurr : curr ∈ reachable
      · rw [if_pos hcurr]
        have hclosed' : ∀ x ∈ reachable, ∀ y ∈ adjacency x, y ∈ reachable ∨ y ∈ queue := by
          intro x hx y hy
          rcases hclosed x hx y hy with hy | hy
          · exact Or.inl hy
          · rcases List.mem_cons.1 hy with rfl | hy
            · exact Or.inl hcurr
            · exact Or.inr hy
        rw [ih queue reachable hqueue.2 hclosed' (by simp only [List.length_cons] at hfuel; omega)]
        constructor
        · rintro (hy | ⟨x, hx, hxy⟩)
          · exact Or.inl hy
          · exact Or.inr ⟨x, List.mem_cons_of_mem _ hx, hxy⟩
        · rintro (hy | ⟨x, hx, hxy⟩)
          · exact Or.inl hy
          · rcases List.mem_cons.1 hx with rfl | hx
            · exact mem_or_queued hclosed' hcurr hxy
            · exact Or.inr ⟨x, hx, hxy⟩
      · rw [if_neg hcurr]
        have hpending := Fifo.pending_visit U (fun x => (adjacency x).length) hU hqueue.1 hcurr
        rw [ih (queue ++ adjacency curr) (reachable ++ [curr])]
        · constructor
          · rintro (hy | ⟨x, hx, hxy⟩)
            · rcases List.mem_append.1 hy with hy | hy
              · exact Or.inl hy
              · rw [List.mem_singleton.1 hy]
                exact Or.inr ⟨curr, List.mem_cons_self, .refl⟩
            · rcases List.mem_append.1 hx with hx | hx
              · exact Or.inr ⟨x, List.mem_cons_of_mem _ hx, hxy⟩
              · exact Or.inr ⟨curr, List.mem_cons_self, .head hx hxy⟩
          · rintro (hy | ⟨x, hx, hxy⟩)
            · exact Or.inl (List.mem_append_left _ hy)
            · rcases List.mem_cons.1 hx with rfl | hx
              · rcases Relation.ReflTransGen.cases_head hxy with rfl | ⟨z, hz, hzy⟩
                · exact Or.inl (List.mem_append_right _ (List.mem_singleton.2 rfl))
                · exact Or.inr ⟨z, List.mem_append_right _ hz, hzy⟩
              · exact Or.inr ⟨x, List.mem_append_left _ hx, hxy⟩
        · intro x hx
          rcases List.mem_append.1 hx with hx | hx
          · exact hqueue.2 x hx
          · exact hadjacency curr x hx
        · intro x hx y hy
          rcases List.mem_append.1 hx with hx | hx
          · rcases hclosed x hx y hy with hy | hy
            · exact Or.inl (List.mem_append_left _ hy)
            · rcases List.mem_cons.1 hy with rfl | hy
              · exact Or.inl (List.mem_append_right _ (List.mem_singleton.2 rfl))
              · exact Or.inr (List.mem_append_left _ hy)
          · rw [List.mem_singleton.1 hx] at hy
            exact Or.inr (List.mem_append_right _ hy)
        · simp only [List.length_cons, List.length_append] at hfuel ⊢
          omega

end Search

/-! ## What is reported -/

section Report

variable (d : WorkflowDefinition)

theorem mem_adjacency {x y : String} : y ∈ adjacency d.toWorkflowSpec x ↔ d.Leads x y := by
  unfold adjacency
  rw [joined_eq]
  simp [WorkflowSpec.Leads, and_assoc]

theorem mem_triggerNodes {s : WorkflowSpec} {id : String} :
    id ∈ triggerNodes s ↔ s.IsTrigger id := by
  simp [triggerNodes, WorkflowSpec.IsTrigger, List.mem_eraseDups, and_assoc]

theorem startCandidates_eq (s : WorkflowSpec) : startCandidates s = s.roots := by
  unfold startCandidates WorkflowSpec.roots WorkflowSpec.nodeIds
  rw [List.filter_map]
  congr 1
  apply List.filter_congr
  intro n _
  simp [WorkflowSpec.incomingCount, List.all_eq]

theorem mem_entryNodes {s : WorkflowSpec} {id : String} : id ∈ entryNodes s ↔ s.IsEntry id := by
  unfold entryNodes WorkflowSpec.IsEntry
  rw [startCandidates_eq]
  by_cases h : triggerNodes s = []
  · have hnone : ∀ id, ¬ s.IsTrigger id := by
      intro id hid
      have hmem := mem_triggerNodes.2 hid
      rw [h] at hmem
      exact List.not_mem_nil hmem
    rw [if_pos h]
    cases s.roots with
    | nil => simp [hnone]
    | cons root roots => simp [hnone, eq_comm]
  · rw [if_neg h, mem_triggerNodes]
    obtain ⟨id', hid'⟩ := List.exists_mem_of_ne_nil _ h
    have hsome : ¬ ∀ id, ¬ s.IsTrigger id := fun hnone => hnone id' (mem_triggerNodes.1 hid')
    simp [hsome]

theorem length_entryNodes_le : (entryNodes d.toWorkflowSpec).length ≤ d.nodes.length := by
  unfold entryNodes
  split
  · unfold startCandidates
    rw [List.length_take, List.length_map]
    exact (min_le_right _ _).trans (List.length_filter_le _ _)
  · have hnodup : ((d.nodes.filter fun n =>
        "trigger.".toList.isPrefixOf n.type.toList).map (·.id)).Nodup :=
      d.nodup_nodeIds.sublist (List.filter_sublist.map _)
    unfold triggerNodes
    rw [eraseDups_of_nodup hnodup, List.length_map]
    exact List.length_filter_le _ _

/-- The validator reaches what edges lead to from where it starts. -/
theorem mem_reachable {id : String} : id ∈ reachable d.toWorkflowSpec ↔ d.Entered id := by
  have hadjacency : ∀ x, ∀ y ∈ adjacency d.toWorkflowSpec x, y ∈ d.nodeIds := by
    intro x y hy
    obtain ⟨e, he, -, rfl⟩ := (mem_adjacency d).1 hy
    exact d.target_mem he
  have hentries : ∀ x ∈ entryNodes d.toWorkflowSpec, x ∈ d.nodeIds := by
    intro x hx
    rcases mem_entryNodes.1 hx with ⟨n, hn, -, rfl⟩ | ⟨-, hroot⟩
    · exact List.mem_map_of_mem hn
    · exact List.mem_of_mem_filter (List.mem_of_mem_head? hroot)
  have hedges : Fifo.pending d.nodeIds (fun x => (adjacency d.toWorkflowSpec x).length) [] ≤
      d.edges.length := by
    rw [Fifo.pending_nil]
    simp only [adjacency, joined_eq, List.length_map]
    exact Fifo.sum_outgoing_le d.nodeIds (·.source) d.nodup_nodeIds d.edges
  have hsearch := mem_reach_iff d.nodup_nodeIds hadjacency (y := id)
    (d.nodes.length + d.edges.length) (entryNodes d.toWorkflowSpec) [] hentries
    (fun x hx => absurd hx List.not_mem_nil)
    (Nat.add_le_add (length_entryNodes_le d) hedges)
  refine hsearch.trans ?_
  simp only [List.not_mem_nil, false_or, mem_entryNodes, mem_adjacency]
  rfl

/-- The validation ends with the error that the node is unreachable. -/
def Reports (available : Option (List String)) (id : String) : Prop :=
  ∃ r, validateDefinition d available = .ok r ∧ .unreachable id ∈ r.errors

/-- **What is reported as unreachable**: the nodes that no edges lead to from where the validator
starts, unless it cannot compare a delay. -/
theorem reports_iff {available : Option (List String)} {id : String} (hid : id ∈ d.nodeIds) :
    Reports d available id ↔ ¬ (d.Entered id ∨ ∃ n ∈ d.nodes, Incomparable n) := by
  have hfound : ∀ {types : Findings}, Only .delay types.errors →
      (.unreachable id ∈ (findings d.toWorkflowSpec available types).errors ↔ ¬ d.Entered id) := by
    intro types htypes
    refine (mem_errors_findings htypes).trans ?_
    simp only [kind, checkReachable, sortedSet, List.mem_map, ValidationError.unreachable.injEq,
      exists_eq_right, List.mem_insertionSort, List.mem_eraseDups, List.mem_filter, nodeSet_eq,
      hid, true_and, decide_eq_true_eq, mem_reachable]
  obtain ⟨depth, hdepth⟩ := maxDepth_ok d
  unfold Reports validateDefinition
  rcases checkNodes_cases (s := d.toWorkflowSpec) d.nodes with ⟨hns, f, hf, hdelay⟩ | ⟨hbad, e, he⟩
  · rw [hf, hdepth]
    constructor
    · rintro ⟨r, hr, hmem⟩ (hentered | ⟨n, hn, hbad⟩)
      · cases hr
        exact (hfound hdelay).1 hmem hentered
      · exact hns n hn hbad
    · intro h
      exact ⟨_, rfl, (hfound hdelay).2 fun hentered => h (Or.inl hentered)⟩
  · rw [he]
    refine ⟨?_, fun h => absurd (Or.inr hbad) h⟩
    rintro ⟨r, hr, -⟩
    cases hr

end Report

end WorkflowValidator

end FlowMesh
