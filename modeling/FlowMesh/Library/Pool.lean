import Mathlib.Logic.Relation
import FlowMesh.Library.Async

/-!
# Programs side by side

A pool runs several programs over one shared state, one call at a time and in any order; between
the calls the rest of the system may change the state as long as it leaves an observation
`obs : σ → ο` alone.

The discipline studied here is that of exclusive windows. Some calls are entries; a thread is
engaged from its first entry until it can make no more calls that change the observation. If each
program is quiet until it enters, and from its entry on keeps an invariant `I` of the observation
when the others leave the observation alone, then in every run in which no thread enters while
another is engaged, the invariant holds whenever nobody is engaged, and otherwise the one engaged
thread restores it by running to its end (`Inv.completes`).
-/

namespace Async

variable {Op : Type} {Res : Op → Type} {ε σ ο : Type}

/-- A program, and whether it entered its window. -/
structure Thread (Op : Type) (Res : Op → Type) (ε : Type) where
  prog : Prog Op Res ε Unit
  entered : Bool := false

/-- A shared state and the threads over it. -/
structure Pool (Op : Type) (Res : Op → Type) (ε σ : Type) where
  state : σ
  threads : List (Thread Op Res ε)

/-- What a pool runs under: the handler, the observation that windows protect, the calls that
leave it alone, the calls that open a window, and what is known of the state when a call is
made. -/
structure Setting (Op : Type) (Res : Op → Type) (ε σ ο : Type) where
  handle : Handler Op Res ε σ
  obs : σ → ο
  quiet : Op → Prop
  entry : Op → Bool
  side : Op → σ → Prop
  obs_quiet : ∀ o s, quiet o → obs (handle o s).2 = obs s

namespace Setting

variable (S : Setting Op Res ε σ ο)

/-- The others leave the observation alone. -/
def Same (s s' : σ) : Prop := S.obs s' = S.obs s

/-- The thread is inside its window. -/
def Engaged (t : Thread Op Res ε) : Prop := t.entered = true ∧ ¬ t.prog.Uses S.quiet

/-- One call of one thread, made under the guard `G`, or a change elsewhere. -/
inductive Step (G : Pool Op Res ε σ → ℕ → Prop) : Pool Op Res ε σ → Pool Op Res ε σ → Prop
  | call {p : Pool Op Res ε σ} {i : ℕ} {o : Op} {k : Except ε (Res o) → Prog Op Res ε Unit}
      {entered : Bool} (ht : p.threads[i]? = some ⟨.call o k, entered⟩) (hside : S.side o p.state)
      (hG : G p i) :
      Step G p ⟨(S.handle o p.state).2,
        p.threads.set i ⟨k (S.handle o p.state).1, entered || S.entry o⟩⟩
  | elsewhere {p : Pool Op Res ε σ} {s : σ} (hs : S.Same p.state s) : Step G p ⟨s, p.threads⟩

/-- The guard of exclusive windows: no thread enters while another one is engaged. -/
def Exclusive (p : Pool Op Res ε σ) (i : ℕ) : Prop :=
  ∀ o k, p.threads[i]? = some ⟨.call o k, false⟩ → S.entry o = true →
    ∀ t ∈ p.threads, ¬ S.Engaged t

variable (I : ο → Prop)

/-- The program ends with the invariant, from the state `s` on. -/
def Restores (p : Prog Op Res ε Unit) (s : σ) : Prop :=
  p.Ensures S.handle S.Same (fun _ s' => I (S.obs s')) s

/-- The program is quiet until it enters, and its entry under the invariant leads back to the
invariant. -/
def Waits : Prog Op Res ε Unit → Prop
  | .pure _ => True
  | .throw _ => True
  | .call o k =>
    (S.entry o = true → ∀ s, I (S.obs s) → S.Restores I (.call o k) s) ∧
      (S.entry o = false → S.quiet o ∧ ∀ s, S.side o s → Waits (k (S.handle o s).1))

/-- At most one thread is engaged, and the invariant holds or is what that thread restores. -/
def Window (p : Pool Op Res ε σ) : Prop :=
  (∀ t ∈ p.threads, ¬ S.Engaged t) ∧ I (S.obs p.state) ∨
    ∃ (i : ℕ) (t : Thread Op Res ε), p.threads[i]? = some t ∧ t.entered = true ∧
      S.Restores I t.prog p.state ∧
      ∀ (j : ℕ) (t' : Thread Op Res ε), p.threads[j]? = some t' → S.Engaged t' → j = i

/-- The invariant of a pool with exclusive windows. -/
structure Inv (p : Pool Op Res ε σ) : Prop where
  waits : ∀ t ∈ p.threads, t.entered = false → S.Waits I t.prog
  window : S.Window I p

variable {S I}

theorem Same.trans {a b c : σ} (hab : S.Same a b) (hbc : S.Same b c) : S.Same a c :=
  Eq.trans hbc hab

/-- What the others do does not disturb a window. -/
theorem Restores.same {p : Prog Op Res ε Unit} {s s' : σ} (h : S.Restores I p s)
    (hs : S.Same s s') : S.Restores I p s' := by
  refine Prog.Ensures.stable h hs (fun a b c => Same.trans) fun r s₁ s₂ hI hsame => ?_
  rw [show S.obs s₂ = S.obs s₁ from hsame]
  exact hI

/-- A program that is quiet from `s` on has the invariant at `s` if it ends with it. -/
theorem Restores.of_quiet {p : Prog Op Res ε Unit} {s : σ} (h : S.Restores I p s)
    (hp : p.Uses S.quiet) : I (S.obs s) := by
  have hend : I (S.obs (p.run S.handle s).2) := Prog.Ensures.of_run h fun _ => rfl
  have hsame : S.obs (p.run S.handle s).2 = S.obs s :=
    hp.run_induction S.handle (I := fun s' => S.obs s' = S.obs s)
      (fun o s' ho hs' => (S.obs_quiet o s' ho).trans hs') rfl
  rwa [hsame] at hend

/-- With nobody engaged, the invariant holds. -/
theorem Window.free {p : Pool Op Res ε σ} (h : S.Window I p)
    (hfree : ∀ t ∈ p.threads, ¬ S.Engaged t) : I (S.obs p.state) := by
  rcases h with ⟨-, hI⟩ | ⟨i, t, ht, hen, hrest, -⟩
  · exact hI
  · have hquiet : t.prog.Uses S.quiet := by
      by_contra hno
      exact hfree t (List.mem_of_getElem? ht) ⟨hen, hno⟩
    exact hrest.of_quiet hquiet

/-- A quiet call in front of a program that waits. -/
theorem waits_perform {o : Op} {f : Res o → Prog Op Res ε Unit} (hentry : S.entry o = false)
    (hquiet : S.quiet o)
    (hf : ∀ s a, S.side o s → (S.handle o s).1 = .ok a → S.Waits I (f a)) :
    S.Waits I (Prog.perform o >>= f) := by
  refine ⟨fun h => absurd (hentry.symm.trans h) (by simp), fun _ => ⟨hquiet, fun s hs => ?_⟩⟩
  cases hr : (S.handle o s).1 with
  | error e => trivial
  | ok a => exact hf s a hs hr

theorem inv_start {s : σ} {progs : List (Prog Op Res ε Unit)} (hI : I (S.obs s))
    (hwaits : ∀ p ∈ progs, S.Waits I p) : S.Inv I ⟨s, progs.map (⟨·, false⟩)⟩ where
  waits := by
    intro t ht _
    obtain ⟨p, hp, rfl⟩ := List.mem_map.1 ht
    exact hwaits p hp
  window := by
    refine Or.inl ⟨fun t ht hen => ?_, hI⟩
    obtain ⟨p, hp, rfl⟩ := List.mem_map.1 ht
    cases hen.1

/-! ## One step -/

section Step

variable {s s' : σ} {ts : List (Thread Op Res ε)} {i : ℕ} {t t' : Thread Op Res ε}

theorem getElem?_set_inv {j : ℕ} {u : Thread Op Res ε} (h : (ts.set i t')[j]? = some u) :
    j = i ∧ u = t' ∨ j ≠ i ∧ ts[j]? = some u := by
  by_cases hij : i = j
  · subst hij
    rw [List.getElem?_set_self'] at h
    cases hi : ts[i]? with
    | none => simp [hi] at h
    | some v =>
      simp only [hi, Functor.map, Option.map_some, Option.some.injEq] at h
      exact Or.inl ⟨rfl, h.symm⟩
  · rw [List.getElem?_set_ne hij] at h
    exact Or.inr ⟨fun h => hij h.symm, h⟩

theorem getElem?_set_of_some (ht : ts[i]? = some t) : (ts.set i t')[i]? = some t' := by
  rw [List.getElem?_set_self', ht]
  rfl

/-- A thread inside its window goes on. -/
theorem Window.advance (ht : ts[i]? = some t)
    (hother : ∀ j u, ts[j]? = some u → S.Engaged u → j = i) (hen : t'.entered = true)
    (hrest : S.Restores I t'.prog s') : S.Window I ⟨s', ts.set i t'⟩ := by
  refine Or.inr ⟨i, t', getElem?_set_of_some ht, hen, hrest, fun j u hu heng => ?_⟩
  rcases getElem?_set_inv hu with ⟨rfl, -⟩ | ⟨-, hu⟩
  · rfl
  · exact hother j u hu heng

/-- A thread outside its window makes a quiet call. -/
theorem Window.pass (h : S.Window I ⟨s, ts⟩) (ht : ts[i]? = some t)
    (hobs : S.Same s s') (hout : ¬ S.Engaged t')
    (hself : t.entered = true → S.Restores I t.prog s →
      t'.entered = true ∧ S.Restores I t'.prog s') : S.Window I ⟨s', ts.set i t'⟩ := by
  rcases h with ⟨hfree, hI⟩ | ⟨i₀, t₀, ht₀, hen, hrest, hother⟩
  · refine Or.inl ⟨fun u hu => ?_, ?_⟩
    · rcases List.mem_or_eq_of_mem_set hu with hu | rfl
      · exact hfree u hu
      · exact hout
    · rw [show S.obs s' = S.obs s from hobs]
      exact hI
  · by_cases hi : i₀ = i
    · subst hi
      obtain rfl : t₀ = t := Option.some.inj (ht₀.symm.trans ht)
      obtain ⟨hen', hrest'⟩ := hself hen hrest
      exact Window.advance ht hother hen' hrest'
    · refine Or.inr ⟨i₀, t₀, ?_, hen, hrest.same hobs, fun j u hu heng => ?_⟩
      · rw [List.getElem?_set_ne fun h => hi h.symm]
        exact ht₀
      · rcases getElem?_set_inv hu with ⟨-, rfl⟩ | ⟨-, hu⟩
        · exact absurd heng hout
        · exact hother j u hu heng

end Step

theorem Inv.step {p q : Pool Op Res ε σ} (h : S.Inv I p) (hstep : S.Step S.Exclusive p q) :
    S.Inv I q := by
  cases hstep with
  | elsewhere hs =>
    refine ⟨h.waits, ?_⟩
    rcases h.window with ⟨hfree, hI⟩ | ⟨i, t, ht, hen, hrest, hother⟩
    · exact Or.inl ⟨hfree, by rw [show S.obs _ = _ from hs]; exact hI⟩
    · exact Or.inr ⟨i, t, ht, hen, hrest.same hs, hother⟩
  | @call i o k entered ht hside hG =>
    have hmem : ⟨.call o k, entered⟩ ∈ p.threads := List.mem_of_getElem? ht
    have hlater : ∀ {u : Thread Op Res ε}, (u.entered = false → S.Waits I u.prog) →
        ∀ t ∈ p.threads.set i u, t.entered = false → S.Waits I t.prog := by
      intro u hu t ht' hen
      rcases List.mem_or_eq_of_mem_set ht' with ht' | rfl
      · exact h.waits t ht' hen
      · exact hu hen
    -- the first call of what a thread restores
    have hnext : S.Restores I (.call o k) p.state →
        S.Restores I (k (S.handle o p.state).1) (S.handle o p.state).2 :=
      fun hrest => hrest p.state rfl
    cases entered with
    | true =>
      refine ⟨hlater nofun, ?_⟩
      by_cases heng : S.Engaged ⟨.call o k, true⟩
      · rcases h.window with ⟨hfree, -⟩ | ⟨i₀, t₀, ht₀, hen, hrest, hother⟩
        · exact absurd heng (hfree _ hmem)
        · obtain rfl := hother i _ ht heng
          obtain rfl := Option.some.inj (ht₀.symm.trans ht)
          exact Window.advance ht hother rfl (hnext hrest)
      · have huses : (Prog.call o k).Uses S.quiet := by
          by_contra hno
          exact heng ⟨rfl, hno⟩
        refine h.window.pass ht (S.obs_quiet o _ huses.1) (fun heng' => heng'.2 (huses.2 _)) ?_
        exact fun _ hrest => ⟨rfl, hnext hrest⟩
    | false =>
      have hwaits := h.waits _ hmem rfl
      cases hentry : S.entry o with
      | true =>
        have hfree := hG o k ht hentry
        have hrest := hwaits.1 hentry p.state (h.window.free hfree)
        refine ⟨hlater nofun, Window.advance ht (fun j u hu heng => ?_) rfl (hnext hrest)⟩
        exact absurd heng (hfree u (List.mem_of_getElem? hu))
      | false =>
        obtain ⟨hquiet, hcont⟩ := hwaits.2 hentry
        refine ⟨hlater fun _ => hcont p.state hside, ?_⟩
        refine h.window.pass ht (S.obs_quiet o _ hquiet) (fun heng => by cases heng.1) ?_
        exact nofun

/-- **Exclusive windows keep the invariant**, over every run of the pool. -/
theorem Inv.run {p q : Pool Op Res ε σ} (h : S.Inv I p)
    (hrun : Relation.ReflTransGen (S.Step S.Exclusive) p q) : S.Inv I q := by
  induction hrun with
  | refl => exact h
  | tail _ hstep ih => exact ih.step hstep

/-- Whatever state a run is in, some program leads from it back to the invariant. -/
theorem Inv.completes {p : Pool Op Res ε σ} (h : S.Inv I p) :
    ∃ prog : Prog Op Res ε Unit, I (S.obs (prog.run S.handle p.state).2) := by
  rcases h.window with ⟨-, hI⟩ | ⟨i, t, -, -, hrest, -⟩
  · exact ⟨.pure (), hI⟩
  · exact ⟨t.prog, Prog.Ensures.of_run hrest fun _ => rfl⟩

/-! ## Schedules -/

/-- The thread `i` makes its next call, if there is one. -/
def turn (p : Pool Op Res ε σ) (i : ℕ) : Pool Op Res ε σ :=
  match p.threads[i]? with
  | some ⟨.call o k, entered⟩ =>
    ⟨(S.handle o p.state).2, p.threads.set i ⟨k (S.handle o p.state).1, entered || S.entry o⟩⟩
  | _ => p

/-- The threads make their calls in the order of the schedule. -/
def play (p : Pool Op Res ε σ) (schedule : List ℕ) : Pool Op Res ε σ :=
  schedule.foldl S.turn p

/-- Every turn of the schedule passes the check. -/
def Passes (check : Pool Op Res ε σ → ℕ → Bool) (p : Pool Op Res ε σ) : List ℕ → Bool
  | [] => true
  | i :: schedule => check p i && Passes check (S.turn p i) schedule

/-- A schedule whose turns pass a check that implies the guard is a run. -/
theorem run_play {G : Pool Op Res ε σ → ℕ → Prop} (check : Pool Op Res ε σ → ℕ → Bool)
    (hG : ∀ p i o k entered, check p i = true → p.threads[i]? = some ⟨.call o k, entered⟩ →
      S.side o p.state ∧ G p i) {schedule : List ℕ} {p : Pool Op Res ε σ}
    (h : S.Passes check p schedule = true) :
    Relation.ReflTransGen (S.Step G) p (S.play p schedule) := by
  induction schedule generalizing p with
  | nil => exact .refl
  | cons i schedule ih =>
    obtain ⟨hcheck, hrest⟩ := Bool.and_eq_true_iff.1 h
    have hlater : Relation.ReflTransGen (S.Step G) (S.turn p i) (S.play p (i :: schedule)) :=
      ih hrest
    rcases ht : p.threads[i]? with _ | ⟨_ | _ | ⟨o, k⟩, entered⟩
    case cons.some.call =>
      obtain ⟨hside, hGi⟩ := hG p i o k entered hcheck ht
      refine .head (Step.call ht hside hGi) ?_
      rwa [turn, ht] at hlater
    all_goals
      rw [turn, ht] at hlater
      exact hlater

/-- The thread has no window yet, or has run to its end. -/
def idle (t : Thread Op Res ε) : Bool :=
  match t.prog with
  | .call _ _ => !t.entered
  | _ => true

theorem not_engaged_of_idle {t : Thread Op Res ε} (h : idle t = true) : ¬ S.Engaged t := by
  rintro ⟨hen, huses⟩
  rcases t with ⟨_ | _ | ⟨o, k⟩, entered⟩
  case call =>
    simp only at hen
    simp [idle, hen] at h
  all_goals exact huses trivial

/-- A check for exclusive windows: who enters finds all threads idle. -/
def orderly (p : Pool Op Res ε σ) (i : ℕ) : Bool :=
  match p.threads[i]? with
  | some ⟨.call o _, false⟩ => !S.entry o || p.threads.all idle
  | _ => true

theorem exclusive_of_orderly {p : Pool Op Res ε σ} {i : ℕ} (h : S.orderly p i = true) :
    S.Exclusive p i := by
  intro o k ht hentry t hmem
  simp only [orderly, ht, hentry, Bool.not_true, Bool.false_or] at h
  exact not_engaged_of_idle (List.all_eq_true.1 h t hmem)

end Setting

end Async
