import Mathlib.Data.List.Shortlex
import Mathlib.Data.List.Nodup
import Mathlib.Algebra.BigOperators.Group.List.Basic
import Mathlib.Logic.Function.Iterate
import Mathlib.Tactic.Common

/-!
# First-in first-out traversal of a graph

The loop "take the first queued node, skip it if it was visited, otherwise visit it and queue
the targets of its outgoing edges that are not visited yet". Which edges are followed may depend
on the nodes visited so far (`succ visited x`).

* `visited_prefix`: a step only extends the visited list, so the nodes visited so far are a
  prefix of the final order;
* `queue_iterate_eq_nil`: as many steps as there are queued nodes and edges out of unvisited
  nodes empty the queue;
* `pairwise_precedes`: for edges that do not depend on the past, the order of the traversal is
  the order of the least paths. Number the start nodes and the edges out of each node by their
  position; a path is then a word of numbers, and `x` is visited before `y` exactly when every
  path to `y` is preceded, in the shortlex order of words, by a path to `x`.
-/

namespace Fifo

variable {α : Type} [DecidableEq α]

/-- The queue, and the visited nodes in order. -/
structure Frontier (α : Type) where
  queue : List α
  visited : List α

/-- One iteration of the loop. -/
def step (succ : List α → α → List α) (f : Frontier α) : Frontier α :=
  match f.queue with
  | [] => f
  | x :: q =>
    if x ∈ f.visited then ⟨q, f.visited⟩
    else ⟨q ++ (succ (f.visited ++ [x]) x).filter (· ∉ f.visited ++ [x]), f.visited ++ [x]⟩

variable (succ : List α → α → List α)

@[simp] theorem step_nil (v : List α) : step succ ⟨[], v⟩ = ⟨[], v⟩ := rfl

theorem step_skip {x : α} {q v : List α} (hx : x ∈ v) : step succ ⟨x :: q, v⟩ = ⟨q, v⟩ := by
  simp [step, hx]

theorem step_visit {x : α} {q v : List α} (hx : x ∉ v) :
    step succ ⟨x :: q, v⟩ =
      ⟨q ++ (succ (v ++ [x]) x).filter (· ∉ v ++ [x]), v ++ [x]⟩ := by
  simp [step, hx]

theorem iterate_nil (n : ℕ) (v : List α) : (step succ)^[n] ⟨[], v⟩ = ⟨[], v⟩ :=
  Function.iterate_fixed (step_nil succ v) n

/-! ## What a step keeps -/

theorem visited_prefix_step (f : Frontier α) : f.visited <+: (step succ f).visited := by
  obtain ⟨q, v⟩ := f
  rcases q with _ | ⟨x, q⟩
  · exact List.prefix_rfl
  · by_cases hx : x ∈ v
    · simp [step_skip succ hx]
    · simp [step_visit succ hx]

/-- The visited list only grows. -/
theorem visited_prefix (n : ℕ) (f : Frontier α) : f.visited <+: ((step succ)^[n] f).visited := by
  induction n generalizing f with
  | zero => exact List.prefix_rfl
  | succ n ih =>
    rw [Function.iterate_succ_apply]
    exact (visited_prefix_step succ f).trans (ih _)

theorem nodup_visited_step {f : Frontier α} (hf : f.visited.Nodup) :
    (step succ f).visited.Nodup := by
  obtain ⟨q, v⟩ := f
  rcases q with _ | ⟨x, q⟩
  · exact hf
  · by_cases hx : x ∈ v
    · rwa [step_skip succ hx]
    · rw [step_visit succ hx]
      exact List.Nodup.append hf (List.nodup_singleton x) (List.disjoint_singleton.2 hx)

theorem nodup_visited (n : ℕ) {f : Frontier α} (hf : f.visited.Nodup) :
    ((step succ)^[n] f).visited.Nodup := by
  induction n generalizing f with
  | zero => exact hf
  | succ n ih =>
    rw [Function.iterate_succ_apply]
    exact ih (nodup_visited_step succ hf)

/-! ## Enough steps empty the queue -/

section Fuel

variable (U : List α) (c : α → ℕ)

/-- The edges out of the nodes of `U` that are not visited, `c x` bounding those out of `x`. -/
def pending (v : List α) : ℕ := ((U.filter (· ∉ v)).map c).sum

theorem pending_visit {x : α} {v : List α} (hU : U.Nodup) (hx : x ∈ U) (hv : x ∉ v) :
    pending U c v = c x + pending U c (v ++ [x]) := by
  have hperm : U.filter (· ∉ v) |>.Perm (x :: U.filter (· ∉ v ++ [x])) := by
    refine (List.perm_ext_iff_of_nodup (hU.filter _) ?_).2 fun y => ?_
    · exact List.nodup_cons.2 ⟨by simp, hU.filter _⟩
    · simp only [List.mem_filter, List.mem_cons, List.mem_append, List.not_mem_nil, or_false,
        decide_eq_true_eq, not_or]
      constructor
      · rintro ⟨hy, hyv⟩
        by_cases hyx : y = x
        · exact Or.inl hyx
        · exact Or.inr ⟨hy, hyv, hyx⟩
      · rintro (rfl | ⟨hy, hyv, -⟩)
        · exact ⟨hx, hv⟩
        · exact ⟨hy, hyv⟩
  rw [pending, (hperm.map c).sum_eq, List.map_cons, List.sum_cons, pending]

/-- The edges out of the nodes of `U` are at most all edges. -/
theorem sum_outgoing_le {ε : Type} (source : ε → α) (hU : U.Nodup) (es : List ε) :
    (U.map fun x => (es.filter (source · = x)).length).sum ≤ es.length := by
  induction U generalizing es with
  | nil => exact Nat.zero_le _
  | cons x U ih =>
    obtain ⟨hx, hU⟩ := List.nodup_cons.1 hU
    have hrest : U.map (fun y => (es.filter (source · = y)).length) =
        U.map fun y => ((es.filter (source · ≠ x)).filter (source · = y)).length := by
      refine List.map_congr_left fun y hy => ?_
      rw [List.filter_filter]
      refine congrArg List.length (List.filter_congr fun e _ => ?_)
      by_cases he : source e = y
      · simp [he, show y ≠ x from fun h => hx (h ▸ hy)]
      · simp [he]
    have hsplit : (es.filter (source · = x)).length + (es.filter (source · ≠ x)).length =
        es.length := by
      simpa using (List.length_eq_length_filter_add (l := es) (source · = x)).symm
    rw [List.map_cons, List.sum_cons, hrest]
    have := ih hU (es.filter (source · ≠ x))
    omega

@[simp] theorem pending_nil : pending U c [] = (U.map c).sum := by simp [pending]

/-- `n` steps empty the queue of a traversal inside `U` when `n` bounds the queued nodes and
the edges still to be followed. -/
theorem queue_iterate_eq_nil (hU : U.Nodup) (hsucc : ∀ v x, ∀ y ∈ succ v x, y ∈ U)
    (hc : ∀ v x, (succ v x).length ≤ c x) (n : ℕ) (f : Frontier α) (hq : ∀ x ∈ f.queue, x ∈ U)
    (hn : f.queue.length + pending U c f.visited ≤ n) : ((step succ)^[n] f).queue = [] := by
  induction n generalizing f with
  | zero =>
    have : f.queue.length = 0 := by omega
    exact List.length_eq_zero_iff.1 this
  | succ n ih =>
    obtain ⟨q, v⟩ := f
    rw [Function.iterate_succ_apply]
    rcases q with _ | ⟨x, q⟩
    · rw [step_nil, iterate_nil]
    · simp only [List.length_cons] at hn
      by_cases hx : x ∈ v
      · rw [step_skip succ hx]
        exact ih _ (fun y hy => hq y (List.mem_cons_of_mem x hy)) (by simp only; omega)
      · rw [step_visit succ hx]
        have hlen : ((succ (v ++ [x]) x).filter (· ∉ v ++ [x])).length ≤ c x :=
          (List.length_filter_le _ _).trans (hc _ _)
        have hp := pending_visit U c hU (hq x List.mem_cons_self) hx
        refine ih _ (fun y hy => ?_) (by simp only [List.length_append]; omega)
        rcases List.mem_append.1 hy with hy | hy
        · exact hq y (List.mem_cons_of_mem x hy)
        · exact hsucc _ _ y (List.mem_of_mem_filter hy)

end Fuel

/-! ## The order of the least paths -/

section Shortlex

variable (starts : List α) (next : α → List α)

/-- `Walk starts next w x`: the word `w` is the path that starts at the start node numbered by
its first letter and follows the edges numbered by the others, and it ends at `x`. -/
inductive Walk : List ℕ → α → Prop
  | start {i : ℕ} {x : α} : starts[i]? = some x → Walk [i] x
  | follow {w : List ℕ} {x : α} {i : ℕ} {y : α} :
      Walk w x → (next x)[i]? = some y → Walk (w ++ [i]) y

/-- Every path to `y` is preceded by a path to `x`: one that is shorter, or as long and earlier
in the numbering. -/
def Precedes (x y : α) : Prop :=
  ∀ w, Walk starts next w y → ∃ w', Walk starts next w' x ∧ List.Shortlex (· < ·) w' w

variable {starts next}

theorem shortlex_trans {u v w : List ℕ} (huv : List.Shortlex (· < ·) u v)
    (hvw : List.Shortlex (· < ·) v w) : List.Shortlex (· < ·) u w := by
  rw [List.shortlex_def] at *
  rcases huv with huv | ⟨huv, luv⟩ <;> rcases hvw with hvw | ⟨hvw, lvw⟩
  · exact Or.inl (huv.trans hvw)
  · exact Or.inl (hvw ▸ huv)
  · exact Or.inl (huv ▸ hvw)
  · exact Or.inr ⟨huv.trans hvw, List.lt_trans luv lvw⟩

/-- `u` is `v` or comes before it. -/
def WordLe (u v : List ℕ) : Prop := u = v ∨ List.Shortlex (· < ·) u v

theorem WordLe.trans {u v w : List ℕ} (huv : WordLe u v) (hvw : WordLe v w) : WordLe u w := by
  rcases huv with rfl | huv
  · exact hvw
  · rcases hvw with rfl | hvw
    · exact Or.inr huv
    · exact Or.inr (shortlex_trans huv hvw)

theorem shortlex_concat {u v : List ℕ} (huv : List.Shortlex (· < ·) u v) (i j : ℕ) :
    List.Shortlex (· < ·) (u ++ [i]) (v ++ [j]) := by
  rw [List.shortlex_def] at *
  simp only [List.length_append, List.length_singleton]
  rcases huv with huv | ⟨hlen, hlex⟩
  · exact Or.inl (by omega)
  · refine Or.inr ⟨by omega, ?_⟩
    induction hlex with
    | nil => cases hlen
    | rel h => exact List.Lex.rel h
    | cons _ ih => exact List.Lex.cons (ih (by simpa using hlen))

theorem shortlex_concat_right (w : List ℕ) {i j : ℕ} (hij : i < j) :
    List.Shortlex (· < ·) (w ++ [i]) (w ++ [j]) := by
  refine List.Shortlex.of_lex (by simp) ?_
  induction w with
  | nil => exact List.Lex.rel hij
  | cons _ _ ih => exact List.Lex.cons ih

theorem WordLe.concat {u v : List ℕ} (huv : WordLe u v) (i : ℕ) :
    WordLe (u ++ [i]) (v ++ [i]) := by
  rcases huv with rfl | huv
  · exact Or.inl rfl
  · exact Or.inr (shortlex_concat huv i i)

/-- The targets `l` of the edges out of a node reached by `w`, each with its path. -/
def label (w : List ℕ) (l : List α) : List (List ℕ × α) :=
  l.zipIdx.map fun p => (w ++ [p.2], p.1)

omit [DecidableEq α] in
@[simp] theorem map_snd_label (w : List ℕ) (l : List α) : (label w l).map Prod.snd = l := by
  simp only [label, List.map_map]
  exact List.zipIdx_map_fst 0 l

omit [DecidableEq α] in
theorem mem_label {w : List ℕ} {l : List α} {e : List ℕ × α} :
    e ∈ label w l ↔ ∃ i, l[i]? = some e.2 ∧ e.1 = w ++ [i] := by
  obtain ⟨u, x⟩ := e
  simp only [label, List.mem_map, Prod.mk.injEq, Prod.exists, List.mem_zipIdx_iff_getElem?]
  constructor
  · rintro ⟨y, i, hy, rfl, rfl⟩
    exact ⟨i, hy, rfl⟩
  · rintro ⟨i, hx, rfl⟩
    exact ⟨x, i, hx, rfl, rfl⟩

omit [DecidableEq α] in
theorem sorted_label (w : List ℕ) (l : List α) :
    ((label w l).map Prod.fst).Pairwise (List.Shortlex (· < ·)) := by
  have hmap : (label w l).map Prod.fst = (List.range' 0 l.length).map fun i => w ++ [i] := by
    rw [← List.zipIdx_map_snd 0 l, label, List.map_map, List.map_map]
    rfl
  rw [hmap, List.pairwise_map]
  exact (List.pairwise_lt_range' (n := l.length)).imp fun h => shortlex_concat_right w h

/-- The loop invariant, with every visited and every queued node carrying the path by which it
was reached: the paths come in order, and every edge out of a visited node leads to a node that
is already known by a path that comes no later. -/
structure Labelled (starts : List α) (next : α → List α) (vw qw : List (List ℕ × α)) : Prop where
  walk : ∀ e ∈ vw ++ qw, Walk starts next e.1 e.2
  sorted : ((vw ++ qw).map Prod.fst).Pairwise (List.Shortlex (· < ·))
  nodup : (vw.map Prod.snd).Nodup
  start : ∀ i x, starts[i]? = some x → ∃ e ∈ vw ++ qw, e.2 = x ∧ WordLe e.1 [i]
  closed : ∀ e ∈ vw, ∀ i y, (next e.2)[i]? = some y →
    ∃ e' ∈ vw ++ qw, e'.2 = y ∧ WordLe e'.1 (e.1 ++ [i])
  shape : ∀ e ∈ qw, e.1.length = 1 ∨ ∃ e' ∈ vw, ∃ i, e.1 = e'.1 ++ [i]

omit [DecidableEq α] in
theorem Walk.ne_nil {w : List ℕ} {x : α} (h : Walk starts next w x) : 0 < w.length := by
  cases h <;> simp

variable (starts next) in
omit [DecidableEq α] in
theorem labelled_start : Labelled starts next [] (label [] starts) where
  walk := by
    intro e he
    obtain ⟨i, hi, hw⟩ := mem_label.1 he
    rw [hw]
    exact .start hi
  sorted := sorted_label [] starts
  nodup := List.nodup_nil
  start := fun i x hx => ⟨([i], x), mem_label.2 ⟨i, hx, rfl⟩, rfl, Or.inl rfl⟩
  closed := fun e he => absurd he List.not_mem_nil
  shape := by
    intro e he
    obtain ⟨i, -, hw⟩ := mem_label.1 he
    exact Or.inl (by simp [hw])

namespace Labelled

variable {vw qw rest : List (List ℕ × α)} {q : List ℕ} {x : α}

omit [DecidableEq α] in
/-- A visited path comes before a queued one. -/
theorem shortlex_of_mem (h : Labelled starts next vw qw) {e e' : List ℕ × α} (he : e ∈ vw)
    (he' : e' ∈ qw) : List.Shortlex (· < ·) e.1 e'.1 := by
  have hs := h.sorted
  rw [List.map_append, List.pairwise_append] at hs
  exact hs.2.2 _ (List.mem_map_of_mem he) _ (List.mem_map_of_mem he')

omit [DecidableEq α] in
/-- Skipping a queued node that was visited. -/
theorem skip (h : Labelled starts next vw ((q, x) :: rest)) (hx : x ∈ vw.map Prod.snd) :
    Labelled starts next vw rest := by
  -- a fact that rests on the skipped entry rests on the visit of its node as well
  have known : ∀ {y : α} {b : List ℕ},
      (∃ e ∈ vw ++ (q, x) :: rest, e.2 = y ∧ WordLe e.1 b) →
      ∃ e ∈ vw ++ rest, e.2 = y ∧ WordLe e.1 b := by
    rintro y b ⟨e, he, rfl, hb⟩
    rcases List.mem_append.1 he with he | he
    · exact ⟨e, List.mem_append_left _ he, rfl, hb⟩
    rcases List.mem_cons.1 he with rfl | he
    · obtain ⟨u, hu, hux⟩ := List.mem_map.1 hx
      have hlt := h.shortlex_of_mem hu List.mem_cons_self
      exact ⟨u, List.mem_append_left _ hu, hux, WordLe.trans (Or.inr hlt) hb⟩
    · exact ⟨e, List.mem_append_right _ he, rfl, hb⟩
  have hsub : (vw ++ rest).Sublist (vw ++ (q, x) :: rest) :=
    List.Sublist.append_left (List.sublist_cons_self _ _) _
  exact {
    walk := fun e he => h.walk e (hsub.subset he)
    sorted := h.sorted.sublist (hsub.map _)
    nodup := h.nodup
    start := fun i y hy => known (h.start i y hy)
    closed := fun e he i y hy => known (h.closed e he i y hy)
    shape := fun e he => h.shape e (List.mem_cons_of_mem _ he) }

/-- Visiting a queued node. -/
theorem visit (h : Labelled starts next vw ((q, x) :: rest)) (hx : x ∉ vw.map Prod.snd) :
    Labelled starts next (vw ++ [(q, x)])
      (rest ++ (label q (next x)).filter (·.2 ∉ (vw ++ [(q, x)]).map Prod.snd)) := by
  have hq : 0 < q.length := (h.walk (q, x) (by simp)).ne_nil
  set new := (label q (next x)).filter (·.2 ∉ (vw ++ [(q, x)]).map Prod.snd) with hnew
  have hassoc : vw ++ [(q, x)] ++ (rest ++ new) = (vw ++ (q, x) :: rest) ++ new := by simp
  have hnewmem : ∀ e ∈ new, ∃ i, (next x)[i]? = some e.2 ∧ e.1 = q ++ [i] :=
    fun e he => mem_label.1 (List.mem_of_mem_filter he)
  refine ⟨fun e he => ?_, ?_, ?_, fun i y hy => ?_, fun e he i y hy => ?_, fun e he => ?_⟩
  · rw [hassoc] at he
    rcases List.mem_append.1 he with he | he
    · exact h.walk e he
    · obtain ⟨i, hi, hw⟩ := hnewmem e he
      rw [hw]
      exact .follow (h.walk (q, x) (by simp)) hi
  · rw [hassoc, List.map_append, List.pairwise_append]
    refine ⟨h.sorted, (sorted_label q (next x)).sublist (List.filter_sublist.map _), ?_⟩
    intro u hu v hv
    obtain ⟨e, he, rfl⟩ := List.mem_map.1 hu
    obtain ⟨e', he', rfl⟩ := List.mem_map.1 hv
    obtain ⟨i, -, hw⟩ := hnewmem e' he'
    rw [hw]
    have hqi : List.Shortlex (· < ·) q (q ++ [i]) := .of_length_lt (by simp)
    rcases List.mem_append.1 he with he | he
    · exact shortlex_trans (h.shortlex_of_mem he List.mem_cons_self) hqi
    rcases List.mem_cons.1 he with rfl | he
    · exact hqi
    · -- a queued path is a single start, or one edge longer than a visited path before `q`
      rcases h.shape e (List.mem_cons_of_mem _ he) with hone | ⟨e'', he'', j, hj⟩
      · exact .of_length_lt (by simp; omega)
      · rw [hj]
        exact shortlex_concat (h.shortlex_of_mem he'' List.mem_cons_self) j i
  · rw [List.map_append, List.map_singleton]
    exact List.Nodup.append h.nodup (List.nodup_singleton x) (List.disjoint_singleton.2 hx)
  · obtain ⟨e, he, hey⟩ := h.start i y hy
    exact ⟨e, by rw [hassoc]; exact List.mem_append_left _ he, hey⟩
  · rw [hassoc]
    rcases List.mem_append.1 he with he | he
    · obtain ⟨e', he', hey⟩ := h.closed e he i y hy
      exact ⟨e', List.mem_append_left _ he', hey⟩
    obtain rfl := List.mem_singleton.1 he
    by_cases hyv : y ∈ (vw ++ [(q, x)]).map Prod.snd
    · obtain ⟨e', he', rfl⟩ := List.mem_map.1 hyv
      have hqi : List.Shortlex (· < ·) q (q ++ [i]) := .of_length_lt (by simp)
      refine ⟨e', List.mem_append_left _ ?_, rfl, Or.inr ?_⟩
      · rcases List.mem_append.1 he' with he' | he'
        · exact List.mem_append_left _ he'
        · exact List.mem_append_right _ (List.mem_singleton.1 he' ▸ List.mem_cons_self)
      · rcases List.mem_append.1 he' with he' | he'
        · exact shortlex_trans (h.shortlex_of_mem he' List.mem_cons_self) hqi
        · rw [List.mem_singleton.1 he']
          exact hqi
    · refine ⟨(q ++ [i], y), List.mem_append_right _ ?_, rfl, Or.inl rfl⟩
      exact List.mem_filter.2 ⟨mem_label.2 ⟨i, hy, rfl⟩, by simpa using hyv⟩
  · rcases List.mem_append.1 he with he | he
    · rcases h.shape e (List.mem_cons_of_mem _ he) with hone | ⟨e', he', i, hi⟩
      · exact Or.inl hone
      · exact Or.inr ⟨e', List.mem_append_left _ he', i, hi⟩
    · obtain ⟨i, -, hw⟩ := hnewmem e he
      exact Or.inr ⟨(q, x), by simp, i, hw⟩

/-- One iteration keeps the invariant. -/
theorem step (h : Labelled starts next vw qw) : ∃ vw' qw', Labelled starts next vw' qw' ∧
    Fifo.step (fun _ => next) ⟨qw.map Prod.snd, vw.map Prod.snd⟩ =
      ⟨qw'.map Prod.snd, vw'.map Prod.snd⟩ := by
  rcases qw with _ | ⟨⟨q, x⟩, rest⟩
  · exact ⟨vw, [], h, rfl⟩
  by_cases hx : x ∈ vw.map Prod.snd
  · exact ⟨vw, rest, h.skip hx, step_skip _ hx⟩
  · refine ⟨_, _, h.visit hx, ?_⟩
    rw [List.map_cons, step_visit _ hx]
    simp only [List.map_append, List.map_cons, List.map_nil, Frontier.mk.injEq, and_true,
      List.append_cancel_left_eq]
    rw [← map_snd_label q (next x), List.filter_map, map_snd_label]
    rfl

theorem iterate (n : ℕ) (h : Labelled starts next vw qw) :
    ∃ vw' qw', Labelled starts next vw' qw' ∧
      (Fifo.step (fun _ => next))^[n] ⟨qw.map Prod.snd, vw.map Prod.snd⟩ =
        ⟨qw'.map Prod.snd, vw'.map Prod.snd⟩ := by
  induction n generalizing vw qw with
  | zero => exact ⟨vw, qw, h, rfl⟩
  | succ n ih =>
    obtain ⟨vw₁, qw₁, h₁, hs⟩ := h.step
    obtain ⟨vw₂, qw₂, h₂, hn⟩ := ih h₁
    exact ⟨vw₂, qw₂, h₂, by rw [Function.iterate_succ_apply, hs, hn]⟩

omit [DecidableEq α] in
/-- With the queue empty, every path ends at a visited node, known by a path that comes no
later. -/
theorem complete (h : Labelled starts next vw []) {w : List ℕ} {y : α}
    (hw : Walk starts next w y) : ∃ e ∈ vw, e.2 = y ∧ WordLe e.1 w := by
  induction hw with
  | start hx => simpa using h.start _ _ hx
  | follow _ hy ih =>
    obtain ⟨e, he, rfl, hle⟩ := ih
    obtain ⟨e', he', hey, hle'⟩ := h.closed e he _ _ hy
    exact ⟨e', by simpa using he', hey, hle'.trans (hle.concat _)⟩

end Labelled

/-- A path leads to every queued node. -/
theorem walk_of_queued {k : ℕ} {x : α} {q v : List α}
    (hk : (step fun _ => next)^[k] ⟨starts, []⟩ = ⟨x :: q, v⟩) : ∃ w, Walk starts next w x := by
  obtain ⟨vw, qw, h, hs⟩ := (labelled_start starts next).iterate k
  rw [map_snd_label, List.map_nil, hk, Frontier.mk.injEq] at hs
  have hx : x ∈ qw.map Prod.snd := by
    rw [← hs.1]
    exact List.mem_cons_self
  obtain ⟨e, he, rfl⟩ := List.mem_map.1 hx
  exact ⟨e.1, h.walk e (List.mem_append_right _ he)⟩

/-- A finished traversal has labels for the nodes that it visited. -/
theorem labelled_finished {n : ℕ} (hn : ((step fun _ => next)^[n] ⟨starts, []⟩).queue = []) :
    ∃ vw, Labelled starts next vw [] ∧
      ((step fun _ => next)^[n] ⟨starts, []⟩).visited = vw.map Prod.snd := by
  obtain ⟨vw, qw, h, hs⟩ := (labelled_start starts next).iterate n
  rw [map_snd_label, List.map_nil] at hs
  rw [hs] at hn ⊢
  obtain rfl := List.map_eq_nil_iff.1 hn
  exact ⟨vw, h, rfl⟩

/-- The nodes visited by a finished traversal are those some path leads to. -/
theorem mem_visited_iff {n : ℕ}
    (hn : ((step fun _ => next)^[n] ⟨starts, []⟩).queue = []) {x : α} :
    x ∈ ((step fun _ => next)^[n] ⟨starts, []⟩).visited ↔ ∃ w, Walk starts next w x := by
  obtain ⟨vw, h, hvisited⟩ := labelled_finished hn
  rw [hvisited]
  constructor
  · intro hx
    obtain ⟨e, he, rfl⟩ := List.mem_map.1 hx
    exact ⟨e.1, h.walk e (by simpa using he)⟩
  · rintro ⟨w, hw⟩
    obtain ⟨e, he, rfl, -⟩ := h.complete hw
    exact List.mem_map_of_mem he

/-- **A finished traversal visits the nodes in the order of their least paths.** -/
theorem pairwise_precedes {n : ℕ}
    (hn : ((step fun _ => next)^[n] ⟨starts, []⟩).queue = []) :
    ((step fun _ => next)^[n] ⟨starts, []⟩).visited.Pairwise (Precedes starts next) := by
  obtain ⟨vw, h, hvisited⟩ := labelled_finished hn
  rw [hvisited]
  have hsorted := h.sorted
  rw [List.append_nil, List.pairwise_map] at hsorted
  rw [List.pairwise_map]
  refine hsorted.imp_of_mem fun {e e'} he he' hlt w hw => ?_
  obtain ⟨e'', he'', hnode, hle⟩ := h.complete hw
  obtain rfl := List.inj_on_of_nodup_map h.nodup he'' he' hnode
  refine ⟨e.1, h.walk e (by simpa using he), ?_⟩
  rcases hle with rfl | hle
  · exact hlt
  · exact shortlex_trans hlt hle

omit [DecidableEq α] in
/-- No node that a path leads to precedes itself. -/
theorem Precedes.irrefl_of_walk {x : α} {w : List ℕ} (hw : Walk starts next w x) :
    ¬ Precedes starts next x x := by
  intro h
  have hwf : WellFounded (List.Shortlex (α := ℕ) (· < ·)) := List.Shortlex.wf wellFounded_lt
  induction w using hwf.induction with
  | _ w ih =>
    obtain ⟨w', hw', hlt⟩ := h w hw
    exact ih w' hlt hw'

omit [DecidableEq α] in
theorem Precedes.trans {x y z : α} (hxy : Precedes starts next x y)
    (hyz : Precedes starts next y z) : Precedes starts next x z := by
  intro w hw
  obtain ⟨v, hv, hvw⟩ := hyz w hw
  obtain ⟨u, hu, huv⟩ := hxy v hv
  exact ⟨u, hu, shortlex_trans huv hvw⟩

/-- When a node is taken from the queue for the first time, the nodes visited so far are those
that precede it. -/
theorem mem_visited_iff_precedes {n k : ℕ} {x y : α} {q v : List α} {w : List ℕ}
    (hn : ((step fun _ => next)^[n] ⟨starts, []⟩).queue = [])
    (hk : (step fun _ => next)^[k] ⟨starts, []⟩ = ⟨x :: q, v⟩) (hx : x ∉ v)
    (hy : Walk starts next w y) : y ∈ v ↔ Precedes starts next y x := by
  have hkn : k < n := by
    by_contra hle
    obtain ⟨m, rfl⟩ := Nat.exists_eq_add_of_le (not_lt.1 hle)
    rw [Nat.add_comm, Function.iterate_add_apply] at hk
    rcases hf : (step fun _ => next)^[n] ⟨starts, []⟩ with ⟨qn, vn⟩
    rw [hf] at hn hk
    obtain rfl : qn = [] := hn
    rw [iterate_nil] at hk
    cases hk
  -- the final order starts with what was visited so far, and `x`
  obtain ⟨m, rfl⟩ := Nat.exists_eq_add_of_lt hkn
  have hprefix : v ++ [x] <+: ((step fun _ => next)^[k + m + 1] ⟨starts, []⟩).visited := by
    have hlater := visited_prefix (fun _ => next) m (step (fun _ => next) ⟨x :: q, v⟩)
    rw [step_visit _ hx] at hlater
    rwa [show k + m + 1 = m + (k + 1) by omega, Function.iterate_add_apply,
      Function.iterate_succ_apply', hk, step_visit _ hx]
  have hsorted := pairwise_precedes hn
  have hmem := (mem_visited_iff hn).2 ⟨w, hy⟩
  obtain ⟨rest, hrest⟩ := hprefix
  rw [← hrest] at hsorted hmem
  rw [List.pairwise_append, List.pairwise_append] at hsorted
  constructor
  · intro hyv
    exact hsorted.1.2.2 y hyv x (List.mem_singleton.2 rfl)
  · intro hyx
    rcases List.mem_append.1 hmem with hmem | hmem
    · rcases List.mem_append.1 hmem with hmem | hmem
      · exact hmem
      · rw [List.mem_singleton.1 hmem] at hy hyx
        exact absurd hyx (Precedes.irrefl_of_walk hy)
    · have hxy := hsorted.2.2 x (List.mem_append_right _ (List.mem_singleton.2 rfl)) y hmem
      exact absurd (hyx.trans hxy) (Precedes.irrefl_of_walk hy)

end Shortlex

end Fifo
