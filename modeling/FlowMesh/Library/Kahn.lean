import Mathlib.Data.Fintype.Card
import Mathlib.Data.List.Nodup
import Mathlib.Data.Set.Finite.List
import Mathlib.Logic.Function.Basic
import Mathlib.Logic.Relation
import Mathlib.Order.WellFounded
import Mathlib.Tactic.Common

/-!
# Kahn's algorithm

A directed multigraph is a list of edges with their ends; parallel edges and self-loops are
allowed. Kahn's algorithm keeps a queue of nodes and a count of the edges into each node that come
from nodes not visited yet; it visits the nodes of the queue one after the other, and a node joins
the queue when its count gets to zero.

`Visiting` is the invariant of the loop. Every visited node has its predecessors among the visited
ones, and no visited node is on a cycle; where the queue is empty, every other node has a
predecessor that was not visited either, so that a graph without cycles has no such node. Both
together are `length_visit_iff`: all nodes are visited exactly if the graph is acyclic.
-/

namespace Kahn

variable {α ε : Type} [DecidableEq α]

/-! ## The algorithm -/

/-- Count down the neighbours of a node, and queue those that get to zero. -/
def release : List α → List α → (α → ℤ) → List α × (α → ℤ)
  | [], queue, deg => (queue, deg)
  | n :: ns, queue, deg =>
    let deg := Function.update deg n (deg n - 1)
    release ns (if deg n = 0 then queue ++ [n] else queue) deg

/-- The nodes in the order of their visits. -/
def visit (adjacency : α → List α) : ℕ → List α → (α → ℤ) → List α
  | 0, _, _ => []
  | _ + 1, [], _ => []
  | fuel + 1, curr :: queue, deg =>
    let (queue, deg) := release (adjacency curr) queue deg
    curr :: visit adjacency fuel queue deg

/-! ## Graphs -/

section Graph

variable (source target : ε → α) (edges : List ε)

/-- The neighbours of a node, one for each edge. -/
def neighbours (a : α) : List α := (edges.filter fun e => source e = a).map target

/-- The edges into a node that come from elsewhere than `done`. -/
def pending (done : List α) (a : α) : ℕ :=
  (edges.filter fun e => target e = a ∧ source e ∉ done).length

/-- There is an edge. -/
def Edge (a b : α) : Prop := ∃ e ∈ edges, source e = a ∧ target e = b

/-- No node reaches itself. -/
def Acyclic : Prop := ∀ a, ¬ Relation.TransGen (Edge source target edges) a a

variable {source target edges}

@[simp] theorem pending_nil (a : α) :
    pending source target edges [] a = (edges.filter fun e => target e = a).length := by
  simp [pending]

theorem pending_eq_zero {done : List α} {a : α} :
    pending source target edges done a = 0 ↔ ∀ e ∈ edges, target e = a → source e ∈ done := by
  simp [pending, List.filter_eq_nil_iff]

omit [DecidableEq α] in
/-- Among the nodes with a property, some node has no predecessor with it. -/
theorem Acyclic.exists_first (hacyclic : Acyclic source target edges) {ids : List α}
    {p : α → Prop} (hex : ∃ a ∈ ids, p a) :
    ∃ a ∈ ids, p a ∧ ∀ e ∈ edges, target e = a → source e ∈ ids → ¬ p (source e) := by
  obtain ⟨a, ha, hpa⟩ := hex
  -- the nodes with the property, below what they reach
  let having := { a // a ∈ ids ∧ p a }
  let below : having → having → Prop := fun a b =>
    Relation.TransGen (Edge source target edges) a.1 b.1
  have : Finite having := ((List.finite_toSet ids).subset fun a ha => ha.1).to_subtype
  have : IsTrans having below := ⟨fun _ _ _ => Relation.TransGen.trans⟩
  have : Std.Irrefl below := ⟨fun a => hacyclic a.1⟩
  have hwf : WellFounded below := Finite.wellFounded_of_trans_of_irrefl below
  obtain ⟨⟨m, hm, hpm⟩, -, hmin⟩ := hwf.has_min Set.univ ⟨⟨a, ha, hpa⟩, trivial⟩
  refine ⟨m, hm, hpm, fun e he htarget hsource hp => ?_⟩
  exact hmin ⟨source e, hsource, hp⟩ trivial (Relation.TransGen.single ⟨e, he, rfl, htarget⟩)

/-- A visit takes the edges out of the node off the counts. -/
theorem pending_append {done : List α} {curr : α} (hcurr : curr ∉ done) (a : α) :
    pending source target edges done a = pending source target edges (done ++ [curr]) a +
      (neighbours source target edges curr).count a := by
  unfold pending neighbours
  induction edges with
  | nil => simp
  | cons e edges ih =>
    by_cases htarget : target e = a
    · by_cases hsource : source e = curr
      · simp [htarget, hsource, hcurr] at ih ⊢
        omega
      · by_cases hdone : source e ∈ done
        · simp [htarget, hsource, hdone] at ih ⊢
          omega
        · simp [htarget, hsource, hdone] at ih ⊢
          omega
    · by_cases hsource : source e = curr
      · simp [htarget, hsource] at ih ⊢
        omega
      · simp [htarget, hsource] at ih ⊢
        omega

end Graph

/-! ## One visit -/

theorem release_deg (ns queue : List α) (deg : α → ℤ) :
    (release ns queue deg).2 = fun a => deg a - ns.count a := by
  induction ns generalizing queue deg with
  | nil =>
    funext a
    simp [release]
  | cons n ns ih =>
    unfold release
    rw [ih]
    funext a
    by_cases ha : n = a
    · subst ha
      simp
      omega
    · simp [Function.update_of_ne (Ne.symm ha), List.count_cons_of_ne ha]

/-- The nodes that a visit queues: those whose last edges it counts. -/
theorem release_queue {ns : List α} {deg : α → ℤ} (queue : List α)
    (hdeg : ∀ a, (ns.count a : ℤ) ≤ deg a) :
    ∃ new, (release ns queue deg).1 = queue ++ new ∧ new.Nodup ∧
      ∀ a, a ∈ new ↔ a ∈ ns ∧ deg a = ns.count a := by
  induction ns generalizing queue deg with
  | nil => exact ⟨[], by simp [release], List.nodup_nil, by simp⟩
  | cons n ns ih =>
    have hcount : ∀ a, (ns.count a : ℤ) ≤ Function.update deg n (deg n - 1) a := by
      intro a
      have h := hdeg a
      by_cases ha : a = n
      · subst ha
        simp at h ⊢
        omega
      · rw [List.count_cons_of_ne (Ne.symm ha)] at h
        rwa [Function.update_of_ne ha]
    obtain ⟨new, hqueue, hnodup, hmem⟩ := ih (if Function.update deg n (deg n - 1) n = 0 then
      queue ++ [n] else queue) hcount
    have hn := hdeg n
    rw [List.count_cons_self] at hn
    -- a neighbour other than `n` is queued behind `n` as before
    have hother : ∀ a, a ≠ n → (a ∈ new ↔ a ∈ n :: ns ∧ deg a = (n :: ns).count a) := by
      intro a ha
      rw [hmem, Function.update_of_ne ha, List.count_cons_of_ne (Ne.symm ha), List.mem_cons]
      simp [ha]
    by_cases hzero : deg n - 1 = 0
    · have hnone : n ∉ ns := by
        intro hmem
        have hpos := List.count_pos_iff.2 hmem
        push_cast at hn
        omega
      have hnew : n ∉ new := fun h => hnone ((hmem n).1 h).1
      refine ⟨n :: new, ?_, List.nodup_cons.2 ⟨hnew, hnodup⟩, fun a => ?_⟩
      · unfold release
        simp only [Function.update_self, hzero, if_true] at hqueue ⊢
        rw [hqueue, List.append_assoc]
        rfl
      · by_cases ha : a = n
        · subst ha
          have hcount : (a :: ns).count a = 1 := by
            rw [List.count_cons_self, List.count_eq_zero.2 hnone]
          simp only [List.mem_cons_self, true_and, true_iff, hcount]
          push_cast
          omega
        · rw [List.mem_cons, hother a ha]
          simp [ha]
    · refine ⟨new, ?_, hnodup, fun a => ?_⟩
      · unfold release
        simp only [Function.update_self, hzero, if_false] at hqueue ⊢
        exact hqueue
      · by_cases ha : a = n
        · subst ha
          rw [hmem, Function.update_self, List.count_cons_self]
          push_cast
          constructor
          · rintro ⟨hin, heq⟩
            exact ⟨List.mem_cons_self, by omega⟩
          · rintro ⟨-, heq⟩
            have hpos : 0 < ns.count a := by omega
            exact ⟨List.count_pos_iff.1 hpos, by omega⟩
        · exact hother a ha

/-! ## The loop -/

section Loop

variable {source target : ε → α} {edges : List ε} {ids : List α}

/-- The nodes `done` are visited, in the middle of the loop. -/
structure Visiting (source target : ε → α) (edges : List ε) (ids done queue : List α)
    (deg : α → ℤ) : Prop where
  nodup : (done ++ queue).Nodup
  subset : ∀ a ∈ done ++ queue, a ∈ ids
  counts : ∀ a, deg a = pending source target edges done a
  ready : ∀ a ∈ ids, deg a = 0 ↔ a ∈ done ++ queue
  closed : ∀ e ∈ edges, target e ∈ done → source e ∈ done
  acyclic : ∀ a ∈ done, ¬ Relation.TransGen (Edge source target edges) a a

theorem Visiting.start (hids : ids.Nodup) :
    Visiting source target edges ids []
      (ids.filter fun a => pending source target edges [] a = 0)
      fun a => pending source target edges [] a where
  nodup := hids.filter _
  subset a ha := (List.mem_filter.1 ha).1
  counts _ := rfl
  ready a ha := by simp [ha]
  closed _ _ h := absurd h List.not_mem_nil
  acyclic _ h := absurd h List.not_mem_nil

variable {done queue : List α} {deg : α → ℤ}

/-- What reaches a visited node is visited. -/
theorem Visiting.mem_of_reaches (h : Visiting source target edges ids done queue deg) {a b : α}
    (hab : Relation.TransGen (Edge source target edges) a b) (hb : b ∈ done) : a ∈ done := by
  induction hab using Relation.TransGen.head_induction_on with
  | single hedge =>
    obtain ⟨e, he, rfl, rfl⟩ := hedge
    exact h.closed e he hb
  | head hedge _ ih =>
    obtain ⟨e, he, rfl, rfl⟩ := hedge
    exact h.closed e he ih

theorem Visiting.length_le (h : Visiting source target edges ids done queue deg) :
    (done ++ queue).length ≤ ids.length :=
  (List.subperm_of_subset h.nodup h.subset).length_le

/-- The step of the loop. -/
theorem Visiting.step {curr : α} (h : Visiting source target edges ids done (curr :: queue) deg)
    (htargets : ∀ e ∈ edges, target e ∈ ids) :
    Visiting source target edges ids (done ++ [curr])
      (release (neighbours source target edges curr) queue deg).1
      (release (neighbours source target edges curr) queue deg).2 := by
  have hcurr : curr ∉ done := by
    have hnodup := h.nodup
    simp only [List.nodup_append, List.mem_cons] at hnodup
    exact fun hmem => hnodup.2.2 curr hmem curr (Or.inl rfl) rfl
  have hcounts : ∀ a, deg a = pending source target edges (done ++ [curr]) a +
      (neighbours source target edges curr).count a := by
    intro a
    rw [h.counts a, pending_append hcurr]
    push_cast
    rfl
  have hdeg : ∀ a, ((neighbours source target edges curr).count a : ℤ) ≤ deg a := by
    intro a
    rw [hcounts a]
    omega
  obtain ⟨new, hqueue, hnodup, hnew⟩ := release_queue queue hdeg
  -- the nodes that are queued now had edges left
  have hfresh : ∀ a ∈ new, a ∉ done ++ curr :: queue := by
    intro a ha hmem
    obtain ⟨hneighbour, hcount⟩ := (hnew a).1 ha
    have hpos := List.count_pos_iff.2 hneighbour
    have hzero := (h.ready a (h.subset a hmem)).2 hmem
    omega
  have hcurr_pending : pending source target edges done curr = 0 := by
    have hmem : curr ∈ done ++ curr :: queue := by simp
    have hzero := (h.ready curr (h.subset curr hmem)).2 hmem
    rw [h.counts] at hzero
    omega
  rw [hqueue, release_deg]
  refine ⟨?_, ?_, ?_, ?_, ?_, ?_⟩
  · have hold := h.nodup
    rw [List.append_assoc, List.singleton_append, ← List.cons_append, ← List.append_assoc]
    rw [List.nodup_append]
    refine ⟨hold, hnodup, fun a ha b hb hab => ?_⟩
    subst hab
    exact hfresh a hb ha
  · intro a ha
    simp only [List.mem_append, List.mem_singleton] at ha
    rcases ha with (ha | rfl) | ha | ha
    · exact h.subset a (by simp [ha])
    · exact h.subset a (by simp)
    · exact h.subset a (by simp [ha])
    · obtain ⟨e, he, rfl⟩ := List.mem_map.1 ((hnew a).1 ha).1
      exact htargets e (List.mem_filter.1 he).1
  · intro a
    have hcount := hcounts a
    omega
  · intro a ha
    have hready := h.ready a ha
    have hcount := hcounts a
    have hmem : a ∈ done ++ [curr] ++ (queue ++ new) ↔ a ∈ done ++ curr :: queue ∨ a ∈ new := by
      simp only [List.mem_append, List.mem_cons, List.not_mem_nil, or_false]
      tauto
    rw [hmem, ← hready, hnew, ← List.count_pos_iff]
    omega
  · intro e he htarget
    simp only [List.mem_append, List.mem_singleton] at htarget ⊢
    rcases htarget with htarget | htarget
    · exact Or.inl (h.closed e he htarget)
    · exact Or.inl (pending_eq_zero.1 hcurr_pending e he htarget)
  · intro a ha
    simp only [List.mem_append, List.mem_singleton] at ha
    rcases ha with ha | rfl
    · exact h.acyclic a ha
    · -- the last edge of a cycle comes from a node that is visited, so the node was as well
      intro hcycle
      obtain ⟨b, hab, e, he, rfl, rfl⟩ := Relation.TransGen.tail'_iff.1 hcycle
      have hsource : source e ∈ done := pending_eq_zero.1 hcurr_pending e he rfl
      rcases Relation.reflTransGen_iff_eq_or_transGen.1 hab with heq | hab
      · exact hcurr (heq ▸ hsource)
      · exact hcurr (h.mem_of_reaches hab hsource)

/-- The loop ends with an empty queue. -/
theorem Visiting.visit (htargets : ∀ e ∈ edges, target e ∈ ids) {fuel : ℕ}
    (h : Visiting source target edges ids done queue deg) (hfuel : ids.length ≤ fuel + done.length) :
    ∃ deg', Visiting source target edges ids
      (done ++ Kahn.visit (neighbours source target edges) fuel queue deg) [] deg' := by
  induction fuel generalizing done queue deg with
  | zero =>
    have hlength := h.length_le
    rw [List.length_append] at hlength
    have hqueue : queue = [] := List.length_eq_zero_iff.1 (by omega)
    subst hqueue
    exact ⟨deg, by simpa [Kahn.visit] using h⟩
  | succ fuel ih =>
    cases queue with
    | nil => exact ⟨deg, by simpa [Kahn.visit] using h⟩
    | cons curr queue =>
      obtain ⟨deg', h'⟩ := ih (h.step htargets) (by simp; omega)
      refine ⟨deg', ?_⟩
      rw [List.append_assoc] at h'
      exact h'

/-- Where the queue is empty and a node is left, there is a cycle. -/
theorem Visiting.mem_of_acyclic (h : Visiting source target edges ids done [] deg)
    (hsources : ∀ e ∈ edges, source e ∈ ids) (hacyclic : Acyclic source target edges) :
    ∀ a ∈ ids, a ∈ done := by
  by_contra hleft
  push Not at hleft
  obtain ⟨m, hids, hnot, hfirst⟩ := hacyclic.exists_first hleft
  have hpending : pending source target edges done m ≠ 0 := by
    intro hzero
    have hready := (h.ready m hids).1 (by rw [h.counts, hzero]; rfl)
    rw [List.append_nil] at hready
    exact hnot hready
  rw [Ne, pending_eq_zero] at hpending
  push Not at hpending
  obtain ⟨e, he, htarget, hsource⟩ := hpending
  exact hfirst e he htarget (hsources e he) hsource

/-- **Kahn's algorithm** visits all nodes exactly if the graph is acyclic. -/
theorem length_visit_iff (hids : ids.Nodup) (hsources : ∀ e ∈ edges, source e ∈ ids)
    (htargets : ∀ e ∈ edges, target e ∈ ids) {fuel : ℕ} (hfuel : ids.length ≤ fuel) :
    ids.length ≤ (visit (neighbours source target edges) fuel
        (ids.filter fun a => pending source target edges [] a = 0)
        fun a => pending source target edges [] a).length ↔ Acyclic source target edges := by
  have hstart : Visiting source target edges ids [] _ _ := Visiting.start hids
  obtain ⟨deg, h⟩ := hstart.visit htargets (by simpa using hfuel)
  rw [List.nil_append] at h
  constructor
  · intro hlength a hcycle
    obtain ⟨b, -, e, he, rfl, rfl⟩ := Relation.TransGen.tail'_iff.1 hcycle
    have hall := (List.subperm_of_subset h.nodup h.subset).perm_of_length_le
      (by simpa using hlength)
    have hmem := hall.mem_iff.2 (htargets e he)
    rw [List.append_nil] at hmem
    exact h.acyclic _ hmem hcycle
  · intro hacyclic
    have hmem := h.mem_of_acyclic hsources hacyclic
    exact (List.subperm_of_subset hids hmem).length_le

end Loop

end Kahn
