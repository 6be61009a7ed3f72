import Mathlib.Data.List.Induction
import Mathlib.Tactic.Common

/-!
# Machines that answer calls

A component that answers one call after the other: `step s c` is its answer to the call `c` in
the state `s`, and the state it goes on with. `exec` and `answers` run it over a sequence of
calls. The rules:

* `exec_invariant`: what every call keeps holds after every sequence of calls;
* `exec_history`: what every call keeps, said of the state together with the calls so far;
* `every_iff_of_invariant`: conditions that agree on every call agree along a run;
* `exec_iff_every`: what a call keeps exactly if it meets a condition, a run keeps exactly if all
  its calls do;
* `forall_prefix_iff_every`: it then holds at every point of the run exactly if they do, and
  `forall_prefix_iff_every_of`, for calls of a kind;
* `exists_simulation`: a machine whose calls another one can follow, one each, under conditions that
  agree, meets the conditions where that one does;
* `exec_of_simulation`, `answers_of_simulation`: a relation of the states of two machines that every
  call keeps; if they agree call by call along it, they give the same answers;
* `answers_iff_throughout`: two machines that agree on a call exactly when it meets a condition,
  which then keeps the relation, give the same answers exactly when all calls meet it.
-/

namespace Machine

variable {σ σ' ι ο ο' : Type}

/-- The state after a sequence of calls. -/
def exec (step : σ → ι → ο × σ) (s : σ) (calls : List ι) : σ :=
  calls.foldl (fun s c => (step s c).2) s

/-- The answers to a sequence of calls. -/
def answers (step : σ → ι → ο × σ) : σ → List ι → List ο
  | _, [] => []
  | s, c :: calls => (step s c).1 :: answers step (step s c).2 calls

variable {step : σ → ι → ο × σ}

@[simp] theorem exec_nil (s : σ) : exec step s [] = s := rfl

@[simp] theorem exec_cons (s : σ) (c : ι) (calls : List ι) :
    exec step s (c :: calls) = exec step (step s c).2 calls := rfl

theorem exec_append (s : σ) (past calls : List ι) :
    exec step s (past ++ calls) = exec step (exec step s past) calls :=
  List.foldl_append

@[simp] theorem exec_concat (s : σ) (past : List ι) (c : ι) :
    exec step s (past ++ [c]) = (step (exec step s past) c).2 :=
  exec_append s past [c]

/-! ## Invariants -/

/-- What every admitted call keeps holds after every sequence of admitted calls. -/
theorem exec_invariant {I : σ → Prop} {P : ι → Prop} (hstep : ∀ s c, P c → I s → I (step s c).2)
    {s : σ} (hs : I s) {calls : List ι} (hcalls : ∀ c ∈ calls, P c) : I (exec step s calls) := by
  induction calls generalizing s with
  | nil => exact hs
  | cons c calls ih =>
    have hc : P c := hcalls c List.mem_cons_self
    exact ih (hstep s c hc hs) fun c' hc' => hcalls c' (List.mem_cons_of_mem c hc')

/-- An invariant of the state and the calls so far, for histories of a kind that is closed under
leaving out the last call. -/
theorem exec_history {Q : List ι → Prop} (hQ : ∀ past c, Q (past ++ [c]) → Q past)
    {J : List ι → σ → Prop} {s : σ} (hs : J [] s)
    (hstep : ∀ past c, Q (past ++ [c]) → J past (exec step s past) →
      J (past ++ [c]) (step (exec step s past) c).2)
    {calls : List ι} (hcalls : Q calls) : J calls (exec step s calls) := by
  induction calls using List.reverseRecOn with
  | nil => exact hs
  | append_singleton past c ih =>
    rw [exec_concat]
    exact hstep past c hcalls (ih (hQ past c hcalls))

/-! ## Conditions along a run -/

/-- Every call meets the condition, in the state that the machine is in before it. -/
def Every (step : σ → ι → ο × σ) (P : σ → ι → Prop) : σ → List ι → Prop
  | _, [] => True
  | s, c :: calls => P s c ∧ Every step P (step s c).2 calls

theorem every_true (s : σ) (calls : List ι) : Every step (fun _ _ => True) s calls := by
  induction calls generalizing s with
  | nil => trivial
  | cons c calls ih => exact ⟨trivial, ih _⟩

theorem Every.mono {P P' : σ → ι → Prop} (hP : ∀ s c, P s c → P' s c) {s : σ} {calls : List ι}
    (h : Every step P s calls) : Every step P' s calls := by
  induction calls generalizing s with
  | nil => trivial
  | cons c calls ih => exact ⟨hP s c h.1, ih h.2⟩

/-- What every call that meets a condition keeps holds all along a run whose calls meet it. -/
theorem Every.of_invariant {I : σ → Prop} {P P' : σ → ι → Prop}
    (hI : ∀ s c, I s → P s c → I (step s c).2) (hP : ∀ s c, I s → P s c → P' s c) {s : σ}
    {calls : List ι} (hs : I s) (h : Every step P s calls) : Every step P' s calls := by
  induction calls generalizing s with
  | nil => trivial
  | cons c calls ih => exact ⟨hP s c hs h.1, ih (hI s c hs h.1) h.2⟩

theorem every_concat {P : σ → ι → Prop} {s : σ} {past : List ι} {c : ι} :
    Every step P s (past ++ [c]) ↔ Every step P s past ∧ P (exec step s past) c := by
  induction past generalizing s with
  | nil => simp [Every]
  | cons c' past ih => simp only [List.cons_append, Every, exec_cons, ih, and_assoc]

/-- Two conditions that agree wherever an invariant holds agree along a run. -/
theorem every_iff_of_invariant {I : σ → Prop} {P P' : σ → ι → Prop}
    (hI : ∀ s c, I s → I (step s c).2) (hP : ∀ s c, I s → (P s c ↔ P' s c)) {s : σ} (hs : I s)
    (calls : List ι) : Every step P s calls ↔ Every step P' s calls := by
  induction calls generalizing s with
  | nil => exact Iff.rfl
  | cons c calls ih => rw [Every, Every, hP s c hs, ih (hI s c hs)]

/-- What a call keeps exactly if it meets a condition, a run keeps exactly if every call does. -/
theorem exec_iff_every {I J : σ → Prop} {P : σ → ι → Prop}
    (hJ : ∀ s c, J s → J (step s c).2) (hI : ∀ s c, J s → (I (step s c).2 ↔ I s ∧ P s c))
    {s : σ} (hs : J s) (calls : List ι) : I (exec step s calls) ↔ I s ∧ Every step P s calls := by
  induction calls generalizing s with
  | nil => simp [Every]
  | cons c calls ih => rw [exec_cons, ih (hJ s c hs), hI s c hs, Every, and_assoc]

/-- What a call of a kind `Q` keeps exactly if it meets a condition holds all along a run of such
calls exactly if every call meets the condition. -/
theorem forall_prefix_iff_every_of {I J : σ → Prop} {P Q : σ → ι → Prop}
    (hJ : ∀ s c, J s → Q s c → J (step s c).2)
    (hI : ∀ s c, J s → Q s c → I s → (I (step s c).2 ↔ P s c))
    {s : σ} (hJs : J s) (hIs : I s) {calls : List ι} (hcalls : Every step Q s calls) :
    (∀ past, past <+: calls → I (exec step s past)) ↔ Every step P s calls := by
  induction calls generalizing s with
  | nil => simp [Every, hIs]
  | cons c calls ih =>
    obtain ⟨hQ, hcalls⟩ := hcalls
    constructor
    · intro h
      have hc : I (step s c).2 := h [c] ⟨calls, rfl⟩
      refine ⟨(hI s c hJs hQ hIs).1 hc, (ih (hJ s c hJs hQ) hc hcalls).1 fun past hpast => ?_⟩
      exact h (c :: past) (List.prefix_cons_inj c |>.2 hpast)
    · rintro ⟨hc, hrest⟩ past hpast
      cases past with
      | nil => exact hIs
      | cons c' past =>
        obtain ⟨rfl, htail⟩ := List.cons_prefix_cons.1 hpast
        exact (ih (hJ s c' hJs hQ) ((hI s c' hJs hQ hIs).2 hc) hcalls).2 hrest past htail

/-- The same for all calls. -/
theorem forall_prefix_iff_every {I J : σ → Prop} {P : σ → ι → Prop}
    (hJ : ∀ s c, J s → J (step s c).2) (hI : ∀ s c, J s → I s → (I (step s c).2 ↔ P s c))
    {s : σ} (hJs : J s) (hIs : I s) (calls : List ι) :
    (∀ past, past <+: calls → I (exec step s past)) ↔ Every step P s calls :=
  forall_prefix_iff_every_of (Q := fun _ _ => True) (fun s c hs _ => hJ s c hs)
    (fun s c hs _ => hI s c hs) hJs hIs (every_true s calls)

/-! ## Simulation -/

/-- Each call of a machine that is of a kind `Q` is followed by one of another machine, along a
relation of their states: then runs of such calls are related, and conditions that agree on the
calls agree along the runs. -/
theorem exists_simulation {ι' : Type} {step' : σ' → ι' → ο' × σ'} {R : σ → σ' → Prop}
    {P Q : σ → ι → Prop} {P' : σ' → ι' → Prop}
    (hstep : ∀ s s' c, R s s' → Q s c →
      ∃ c', R (step s c).2 (step' s' c').2 ∧ (P s c ↔ P' s' c'))
    {s : σ} {s' : σ'} (hs : R s s') {calls : List ι} (hcalls : Every step Q s calls) :
    ∃ calls', R (exec step s calls) (exec step' s' calls') ∧
      (Every step P s calls ↔ Every step' P' s' calls') := by
  induction calls generalizing s s' with
  | nil => exact ⟨[], hs, Iff.rfl⟩
  | cons c calls ih =>
    obtain ⟨c', hnext, hc⟩ := hstep s s' c hs hcalls.1
    obtain ⟨calls', hrun, hiff⟩ := ih hnext hcalls.2
    exact ⟨c' :: calls', hrun, and_congr hc hiff⟩

/-- Two machines along a relation that every call keeps. -/
theorem exec_of_simulation {step' : σ' → ι → ο' × σ'} {R : σ → σ' → Prop}
    (hstep : ∀ s s' c, R s s' → R (step s c).2 (step' s' c).2) {s : σ} {s' : σ'} (hs : R s s')
    (calls : List ι) : R (exec step s calls) (exec step' s' calls) := by
  induction calls generalizing s s' with
  | nil => exact hs
  | cons c calls ih => exact ih (hstep s s' c hs)

/-- Two machines whose answers agree along a relation that every call keeps. -/
theorem answers_of_simulation {step' : σ' → ι → ο' × σ'} {R : σ → σ' → Prop} {f : ο → ο'}
    (hstep : ∀ s s' c, R s s' → f (step s c).1 = (step' s' c).1 ∧ R (step s c).2 (step' s' c).2)
    {s : σ} {s' : σ'} (hs : R s s') (calls : List ι) :
    (answers step s calls).map f = answers step' s' calls := by
  induction calls generalizing s s' with
  | nil => rfl
  | cons c calls ih =>
    obtain ⟨hanswer, hnext⟩ := hstep s s' c hs
    rw [answers, answers, List.map_cons, hanswer, ih hnext]

/-- Every call meets the condition, in the states that the two machines are in before it. -/
def Throughout (step : σ → ι → ο × σ) (step' : σ' → ι → ο' × σ') (P : σ → σ' → ι → Prop) :
    σ → σ' → List ι → Prop
  | _, _, [] => True
  | s, s', c :: calls => P s s' c ∧ Throughout step step' P (step s c).2 (step' s' c).2 calls

/-- Two machines that agree on exactly the calls that meet a condition. The agreement is asked
for on calls of a kind `Q` only, which may depend on the states as well. -/
theorem answers_iff_throughout {step' : σ' → ι → ο' × σ'} {R : σ → σ' → Prop}
    {P Q : σ → σ' → ι → Prop} {f : ο → ο'}
    (hstep : ∀ s s' c, R s s' → Q s s' c → (f (step s c).1 = (step' s' c).1 ↔ P s s' c))
    (hnext : ∀ s s' c, R s s' → Q s s' c → P s s' c → R (step s c).2 (step' s' c).2)
    {s : σ} {s' : σ'} (hs : R s s') {calls : List ι}
    (hcalls : Throughout step step' Q s s' calls) :
    (answers step s calls).map f = answers step' s' calls ↔
      Throughout step step' P s s' calls := by
  induction calls generalizing s s' with
  | nil => simp [answers, Throughout]
  | cons c calls ih =>
    obtain ⟨hc, hcalls⟩ := hcalls
    rw [answers, answers, List.map_cons, List.cons.injEq, hstep s s' c hs hc, Throughout]
    exact and_congr_right fun hP => ih (hnext s s' c hs hc hP) hcalls

end Machine
