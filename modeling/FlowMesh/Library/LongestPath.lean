import FlowMesh.Library.Kahn
import Mathlib.Data.List.Chain
import Mathlib.Order.Bounds.Basic

/-!
# Longest paths

The order of the visits of Kahn's algorithm is a topological one: the predecessors of a node come
before it (`topological_visit`). Along such an order, one pass over the edges computes the number
of nodes on a longest path to each node (`isGreatest_liftAll`): a distance is only raised along an
edge, so that there always is a path of this length, and it is final once all the edges into the
node are behind.
-/

namespace Kahn

variable {α ε : Type} [DecidableEq α]

/-! ## Topological orders -/

section Topological

variable (source target : ε → α) (edges : List ε)

omit [DecidableEq α] in
/-- The predecessors of each node come before it. -/
def Topological (order : List α) : Prop :=
  ∀ pre a post, order = pre ++ a :: post → ∀ e ∈ edges, target e = a → source e ∈ pre

variable {source target edges} {ids done queue order : List α} {deg : α → ℤ}

omit [DecidableEq α] in
theorem topological_nil : Topological source target edges [] := by
  intro pre a post h
  simp at h

omit [DecidableEq α] in
theorem Topological.append (h : Topological source target edges order) {a : α}
    (ha : ∀ e ∈ edges, target e = a → source e ∈ order) :
    Topological source target edges (order ++ [a]) := by
  intro pre b post heq e he htarget
  rcases List.eq_nil_or_concat post with rfl | ⟨post, c, rfl⟩
  · obtain ⟨rfl, hab⟩ := List.append_inj' heq rfl
    obtain rfl : a = b := by simpa using hab
    exact ha e he htarget
  · rw [List.concat_eq_append, ← List.cons_append, ← List.append_assoc] at heq
    obtain ⟨rfl, -⟩ := List.append_inj' heq rfl
    exact h pre b post rfl e he htarget

/-- The predecessors of the node in front of the queue are visited. -/
theorem Visiting.source_mem {curr : α}
    (h : Visiting source target edges ids done (curr :: queue) deg) :
    ∀ e ∈ edges, target e = curr → source e ∈ done := by
  have hmem : curr ∈ done ++ curr :: queue := by simp
  have hzero := (h.ready curr (h.subset curr hmem)).2 hmem
  rw [h.counts, Int.natCast_eq_zero] at hzero
  exact pending_eq_zero.1 hzero

/-- The loop visits the nodes in a topological order. -/
theorem Visiting.topological (htargets : ∀ e ∈ edges, target e ∈ ids) {fuel : ℕ}
    (h : Visiting source target edges ids done queue deg)
    (horder : Topological source target edges done) :
    Topological source target edges
      (done ++ Kahn.visit (neighbours source target edges) fuel queue deg) := by
  induction fuel generalizing done queue deg with
  | zero => simpa [Kahn.visit] using horder
  | succ fuel ih =>
    cases queue with
    | nil => simpa [Kahn.visit] using horder
    | cons curr queue =>
      have hrest := ih (h.step htargets) (horder.append h.source_mem)
      rw [List.append_assoc] at hrest
      exact hrest

end Topological

/-! ## Relaxing -/

/-- Raise the distance of `n` along an edge from `curr`. -/
def lift (curr : α) (dist : α → ℕ) (n : α) : α → ℕ :=
  if dist n < dist curr + 1 then Function.update dist n (dist curr + 1) else dist

/-- Raise the distances along the edges out of the nodes of `order`, one after the other. -/
def liftAll (adjacency : α → List α) (order : List α) (dist : α → ℕ) : α → ℕ :=
  order.foldl (fun dist curr => (adjacency curr).foldl (lift curr) dist) dist

theorem liftAll_cons (adjacency : α → List α) (curr : α) (order : List α) (dist : α → ℕ) :
    liftAll adjacency (curr :: order) dist =
      liftAll adjacency order ((adjacency curr).foldl (lift curr) dist) := rfl

theorem lift_eq (curr : α) (dist : α → ℕ) (n a : α) :
    lift curr dist n a = if a = n then max (dist a) (dist curr + 1) else dist a := by
  unfold lift
  by_cases ha : a = n
  · subst ha
    split
    · next hlt => simp [hlt.le]
    · next hle => simp [not_lt.1 hle]
  · split <;> simp [ha]

/-- The edges out of one node; no edge leads back to it. -/
theorem foldl_lift {curr : α} {ns : List α} (hcurr : curr ∉ ns) (dist : α → ℕ) (a : α) :
    ns.foldl (lift curr) dist a =
      if a ∈ ns then max (dist a) (dist curr + 1) else dist a := by
  induction ns generalizing dist with
  | nil => rfl
  | cons n ns ih =>
    rw [List.mem_cons, not_or] at hcurr
    rw [List.foldl_cons, ih hcurr.2, lift_eq, lift_eq, if_neg hcurr.1]
    by_cases han : a = n
    · subst han
      by_cases hmem : a ∈ ns <;> simp [hmem]
    · by_cases hmem : a ∈ ns <;> simp [han, hmem]

section Longest

variable {source target : ε → α} {edges : List ε} {ids order : List α}

/-- A path along the edges that ends at `a`, with so many nodes. -/
def EndsAt (source target : ε → α) (edges : List ε) (a : α) (n : ℕ) : Prop :=
  ∃ path, (path ++ [a]).IsChain (Edge source target edges) ∧ path.length + 1 = n

omit [DecidableEq α] in
theorem endsAt_one (a : α) : EndsAt source target edges a 1 :=
  ⟨[], List.isChain_singleton a, rfl⟩

omit [DecidableEq α] in
theorem EndsAt.step {a b : α} {n : ℕ} (h : EndsAt source target edges a n)
    (hedge : Edge source target edges a b) : EndsAt source target edges b (n + 1) := by
  obtain ⟨path, hpath, rfl⟩ := h
  refine ⟨path ++ [a], ?_, by simp⟩
  rw [List.isChain_append]
  refine ⟨hpath, List.isChain_singleton b, ?_⟩
  simpa using hedge

/-- Raising a distance along an edge leaves a path of that length. -/
theorem endsAt_lift {curr n : α} {dist : α → ℕ} (hedge : Edge source target edges curr n)
    (h : ∀ a, EndsAt source target edges a (dist a)) (a : α) :
    EndsAt source target edges a (lift curr dist n a) := by
  rw [lift_eq]
  split
  · next ha =>
    subst ha
    rcases max_choice (dist a) (dist curr + 1) with hmax | hmax
    · rw [hmax]
      exact h a
    · rw [hmax]
      exact (h curr).step hedge
  · exact h a

/-- The distances are lengths of paths. -/
theorem endsAt_liftAll (order : List α) {dist : α → ℕ}
    (h : ∀ a, EndsAt source target edges a (dist a)) :
    ∀ a, EndsAt source target edges a
      (liftAll (neighbours source target edges) order dist a) := by
  induction order generalizing dist with
  | nil => exact h
  | cons curr order ih =>
    rw [liftAll_cons]
    apply ih
    have hedges : ∀ n ∈ neighbours source target edges curr,
        Edge source target edges curr n := by
      intro n hn
      obtain ⟨e, he, rfl⟩ := List.mem_map.1 hn
      exact ⟨e, (List.mem_filter.1 he).1, by simpa using (List.mem_filter.1 he).2, rfl⟩
    -- along the edges out of this node, one after the other
    generalize neighbours source target edges curr = ns at hedges
    induction ns generalizing dist with
    | nil => exact h
    | cons n ns ihn =>
      rw [List.forall_mem_cons] at hedges
      exact ihn (endsAt_lift hedges.1 h) hedges.2

/-- No distance can be raised any more along the edges out of `done`. -/
def Settled (source target : ε → α) (edges : List ε) (done : List α) (dist : α → ℕ) : Prop :=
  ∀ e ∈ edges, source e ∈ done → dist (source e) + 1 ≤ dist (target e)

/-- What comes before the nodes of a topological order comes before in it. -/
theorem settled_liftAll {pre order : List α} (hnodup : (pre ++ order).Nodup)
    (horder : Topological source target edges (pre ++ order)) {dist : α → ℕ}
    (h : Settled source target edges pre dist) :
    Settled source target edges (pre ++ order)
      (liftAll (neighbours source target edges) order dist) := by
  induction order generalizing pre dist with
  | nil => simpa [liftAll] using h
  | cons curr order ih =>
    have hsplit : pre ++ curr :: order = pre ++ [curr] ++ order := by simp
    rw [hsplit] at hnodup horder ⊢
    have hcurr : curr ∉ pre := by
      intro hmem
      rw [List.append_assoc, List.nodup_append] at hnodup
      exact hnodup.2.2 curr hmem curr (by simp) rfl
    -- no edge leads from this node to itself or to an earlier one
    have hforward : ∀ a ∈ pre ++ [curr], a ∉ neighbours source target edges curr := by
      intro a ha hmem
      obtain ⟨e, he, rfl⟩ := List.mem_map.1 hmem
      obtain ⟨hedge, hsource⟩ := List.mem_filter.1 he
      obtain ⟨before, after, heq⟩ := List.append_of_mem ha
      have hbefore := horder before (target e) (after ++ order)
        (by rw [heq, List.append_assoc]; rfl) e hedge rfl
      rw [of_decide_eq_true hsource] at hbefore
      have hlength := congrArg List.length heq
      simp only [List.length_append, List.length_cons, List.length_nil] at hlength
      have hbelow : before <+: pre := List.prefix_of_prefix_length_le
        (heq ▸ List.prefix_append before _) (List.prefix_append pre [curr]) (by omega)
      exact hcurr (hbelow.subset hbefore)
    rw [liftAll_cons]
    refine ih hnodup horder fun e he hsource => ?_
    have hself := hforward curr (by simp)
    rw [foldl_lift hself, foldl_lift hself, if_neg (hforward _ hsource)]
    rcases List.mem_append.1 hsource with hsource | hsource
    · have hle := h e he hsource
      split <;> omega
    · rw [List.mem_singleton] at hsource
      have hmem : target e ∈ neighbours source target edges curr :=
        List.mem_map_of_mem (List.mem_filter.2 ⟨he, by simp [hsource]⟩)
      rw [if_pos hmem, hsource]
      exact le_max_right _ _

omit [DecidableEq α] in
/-- A path is no longer than the distance of its end, where no distance can be raised. -/
theorem EndsAt.le {dist : α → ℕ} (hpos : ∀ a, 1 ≤ dist a)
    (h : ∀ e ∈ edges, dist (source e) + 1 ≤ dist (target e)) {a : α} {n : ℕ}
    (hends : EndsAt source target edges a n) : n ≤ dist a := by
  obtain ⟨path, hpath, rfl⟩ := hends
  induction path using List.reverseRecOn generalizing a with
  | nil => exact hpos a
  | append_singleton path b ih =>
    rw [List.isChain_append] at hpath
    obtain ⟨e, he, hsource, htarget⟩ : Edge source target edges b a := by simpa using hpath.2.2
    have hstep := h e he
    rw [hsource, htarget] at hstep
    have hlength := ih hpath.1
    rw [List.length_append, List.length_singleton]
    omega

/-- **The distances are those of the longest paths**: one pass over the edges, in a topological
order of all the nodes. -/
theorem isGreatest_liftAll (hnodup : order.Nodup) (horder : Topological source target edges order)
    (hall : ∀ e ∈ edges, source e ∈ order) (a : α) :
    IsGreatest { n | EndsAt source target edges a n }
      (liftAll (neighbours source target edges) order (fun _ => 1) a) := by
  have hends : ∀ b, EndsAt source target edges b
      (liftAll (neighbours source target edges) order (fun _ => 1) b) :=
    endsAt_liftAll order endsAt_one
  have hnone : Settled source target edges [] fun _ => 1 :=
    fun e _ hsource => absurd hsource List.not_mem_nil
  have hsettled := @settled_liftAll α ε _ source target edges [] order hnodup horder _ hnone
  refine ⟨hends a, fun n hn => hn.le (fun b => ?_) fun e he => hsettled e he (hall e he)⟩
  obtain ⟨path, -, hlength⟩ := hends b
  omega

/-- The longest of the longest paths to the nodes. -/
theorem isGreatest_foldl_max (l : List ℕ) (m : ℕ) :
    IsGreatest { n | n = m ∨ n ∈ l } (l.foldl max m) := by
  induction l generalizing m with
  | nil => simp
  | cons k l ih =>
    obtain ⟨hmem, hle⟩ := ih (max m k)
    refine ⟨?_, ?_⟩
    · rcases hmem with hmax | hmem
      · rcases max_choice m k with hm | hk
        · exact Or.inl (hmax.trans hm)
        · exact Or.inr (List.mem_cons.2 (Or.inl (hmax.trans hk)))
      · exact Or.inr (List.mem_cons_of_mem k hmem)
    · have hmax : max m k ≤ l.foldl max (max m k) := hle (Or.inl rfl)
      rintro n (rfl | hn)
      · exact (le_max_left n k).trans hmax
      · rcases List.mem_cons.1 hn with rfl | hn
        · exact (le_max_right m n).trans hmax
        · exact hle (Or.inr hn)

omit [DecidableEq α] in
/-- A path to a node goes through nodes only. -/
theorem mem_of_isChain (hsources : ∀ e ∈ edges, source e ∈ ids) {path : List α} {a : α}
    (hpath : (path ++ [a]).IsChain (Edge source target edges)) (ha : a ∈ ids) :
    ∀ b ∈ path ++ [a], b ∈ ids := by
  induction path using List.reverseRecOn generalizing a with
  | nil => simpa using ha
  | append_singleton path c ih =>
    rw [List.isChain_append] at hpath
    obtain ⟨e, he, rfl, -⟩ : Edge source target edges c a := by simpa using hpath.2.2
    intro b hb
    rcases List.mem_append.1 hb with hb | hb
    · exact ih hpath.1 (hsources e he) b hb
    · rwa [List.mem_singleton.1 hb]

end Longest

end Kahn
