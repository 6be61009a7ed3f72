import Mathlib.Logic.Relation
import FlowMesh.Library.Async

/-!
# Programs that interleave

A crew is any number of programs over one shared state. They make their calls one at a time and
in any order; a program that has ended shows its outcome. What a call does may depend on the
number of the program that makes it and on a choice of the surroundings: an answer of the
network, a fault of a database.

Reasoning is program by program. An `Outline` gives an invariant of the state, what is known of
each program, and what a call of one program may do to the state as the others see it. If each
call keeps the invariant and what is known of its own program, and what is known of the others
survives it, then all of this holds in every state that a run reaches (`Outline.run`).

A `Contract` gives the invariant and the moves only. What is known of a program is then read off
its text: `Contract.Upholds` says that each of its calls keeps the contract, whatever the others
do before it, and that its outcome satisfies a postcondition (`Contract.run`).

Where a call that the guard refuses destroys the property, the guard is exact: along any schedule
the property holds in every state if and only if the guard allows every call (`play_iff`).
-/

namespace Async

variable {Op : Type} {Res : Op → Type} {ε σ α κ : Type}

/-- A shared state and the programs over it. -/
structure Crew (Op : Type) (Res : Op → Type) (ε σ α : Type) where
  state : σ
  progs : List (Prog Op Res ε α)

namespace Crew

variable (handle : ℕ → κ → Handler Op Res ε σ) (G : ℕ → κ → Op → σ → Prop)

/-- One call of one program, made under the guard `G`. -/
inductive Step : Crew Op Res ε σ α → Crew Op Res ε σ α → Prop
  | call {p : Crew Op Res ε σ α} {i : ℕ} {c : κ} {o : Op}
      {k : Except ε (Res o) → Prog Op Res ε α} (hp : p.progs[i]? = some (.call o k))
      (hG : G i c o p.state) :
      Step p ⟨(handle i c o p.state).2, p.progs.set i (k (handle i c o p.state).1)⟩

/-- The states that a run under the guard reaches. -/
def Runs : Crew Op Res ε σ α → Crew Op Res ε σ α → Prop :=
  Relation.ReflTransGen (Step handle G)

/-! ## Proof outlines -/

/-- What is known of the state and of each program, and why the calls keep it. -/
structure Outline (handle : ℕ → κ → Handler Op Res ε σ) (G : ℕ → κ → Op → σ → Prop)
    (α : Type) where
  inv : σ → Prop
  known : ℕ → Prog Op Res ε α → σ → Prop
  moves : ℕ → σ → σ → Prop
  call : ∀ {i c o k s}, inv s → known i (.call o k) s → G i c o s →
    inv (handle i c o s).2 ∧ known i (k (handle i c o s).1) (handle i c o s).2 ∧
      moves i s (handle i c o s).2
  stable : ∀ {i j q s s'}, j ≠ i → inv s → known j q s → moves i s s' → known j q s'

/-- The invariant, and what is known of each program. -/
structure Outline.Holds {handle : ℕ → κ → Handler Op Res ε σ} {G : ℕ → κ → Op → σ → Prop}
    (O : Outline handle G α) (p : Crew Op Res ε σ α) : Prop where
  inv : O.inv p.state
  known : ∀ i q, p.progs[i]? = some q → O.known i q p.state

variable {handle G} {O : Outline handle G α} {p p' : Crew Op Res ε σ α}

theorem getElem?_set_cases {l : List (Prog Op Res ε α)} {i j : ℕ} {q q' : Prog Op Res ε α}
    (h : (l.set i q')[j]? = some q) : j = i ∧ q = q' ∨ j ≠ i ∧ l[j]? = some q := by
  rw [List.getElem?_set] at h
  split_ifs at h with hij hlt
  · exact Or.inl ⟨hij.symm, (Option.some.inj h).symm⟩
  · exact Or.inr ⟨fun h => hij h.symm, h⟩

theorem Outline.Holds.step (h : O.Holds p) (hstep : Step handle G p p') : O.Holds p' := by
  cases hstep with
  | @call i c o k hp hG =>
    obtain ⟨hinv, hknown, hmoves⟩ := O.call h.inv (h.known i _ hp) hG
    refine ⟨hinv, fun j q hq => ?_⟩
    rcases getElem?_set_cases hq with ⟨rfl, rfl⟩ | ⟨hne, hq⟩
    · exact hknown
    · exact O.stable hne h.inv (h.known j q hq) hmoves

/-- **An outline holds in every state that a run reaches.** -/
theorem Outline.run (h : O.Holds p) (hrun : Runs handle G p p') : O.Holds p' := by
  induction hrun with
  | refl => exact h
  | tail _ hstep ih => exact ih.step hstep

/-! ## Programs that come in -/

/-- One more program. -/
def arrive (p : Crew Op Res ε σ α) (q : Prog Op Res ε α) : Crew Op Res ε σ α :=
  { p with progs := p.progs ++ [q] }

theorem getElem?_arrive_of_some {q r : Prog Op Res ε α} {i : ℕ} (h : p.progs[i]? = some r) :
    (p.arrive q).progs[i]? = some r := by
  obtain ⟨hi, -⟩ := List.getElem?_eq_some_iff.1 h
  rwa [arrive, List.getElem?_append_left hi]

theorem getElem?_arrive_cases {q r : Prog Op Res ε α} {i : ℕ}
    (h : (p.arrive q).progs[i]? = some r) :
    p.progs[i]? = some r ∨ i = p.progs.length ∧ r = q := by
  rw [arrive, List.getElem?_append] at h
  split_ifs at h with hi
  · exact Or.inl h
  · rw [List.getElem?_singleton] at h
    split_ifs at h with hi'
    exact Or.inr ⟨by omega, (Option.some.inj h).symm⟩

/-- An outline goes on to hold when a program comes in of which it is known what is needed. -/
theorem Outline.Holds.arrive (h : O.Holds p) {q : Prog Op Res ε α}
    (hq : O.known p.progs.length q p.state) : O.Holds (p.arrive q) where
  inv := h.inv
  known i r hr := by
    rcases getElem?_arrive_cases hr with hr | ⟨rfl, rfl⟩
    · exact h.known i r hr
    · exact hq

/-! ## Contracts -/

/-- An invariant of the state, and what the programs guarantee of their calls. -/
structure Contract (σ : Type) where
  inv : σ → Prop
  moves : ℕ → σ → σ → Prop

namespace Contract

variable (C : Contract σ)

/-- What the others may have done since the program `i` looked last. -/
def Rely (i : ℕ) : σ → σ → Prop :=
  Relation.ReflTransGen fun s s' => C.inv s ∧ ∃ j, j ≠ i ∧ C.moves j s s'

variable (handle G)

/-- Each call of the program keeps the contract if the others do, and its outcome satisfies
`Q`. -/
def Upholds {α : Type} (i : ℕ) : Prog Op Res ε α → (Except ε α → σ → Prop) → σ → Prop
  | .pure a, Q, s => Q (.ok a) s
  | .throw e, Q, s => Q (.error e) s
  | .call o k, Q, s => ∀ s', C.Rely i s s' → C.inv s' → ∀ c, G i c o s' →
      C.inv (handle i c o s').2 ∧ C.moves i s' (handle i c o s').2 ∧
        Upholds i (k (handle i c o s').1) Q (handle i c o s').2

/-- A postcondition of the value that is returned. -/
def Returning {α : Type} (P : α → σ → Prop) : Except ε α → σ → Prop
  | .ok a, s => P a s
  | .error _, _ => True

variable {C handle G} {i : ℕ} {s s' : σ} {Q : Except ε α → σ → Prop}

/-- A fact that no move of the others destroys is there when the program goes on. -/
theorem Rely.keeps {F : σ → Prop} (h : C.Rely i s s')
    (hF : ∀ j s s', j ≠ i → C.inv s → C.moves j s s' → F s → F s') (hs : F s) : F s' := by
  induction h with
  | refl => exact hs
  | tail _ hmove ih =>
    obtain ⟨hinv, j, hj, hmove⟩ := hmove
    exact hF j _ _ hj hinv hmove ih

namespace Upholds

theorem ret {a : α} (hQ : Q (.ok a) s) :
    C.Upholds handle G i (Pure.pure a : Prog Op Res ε α) Q s := hQ

theorem raise {e : ε} (hQ : Q (.error e) s) :
    C.Upholds handle G i (.throw e : Prog Op Res ε α) Q s := hQ

theorem mono {Q' : Except ε α → σ → Prop} {p : Prog Op Res ε α} (hp : C.Upholds handle G i p Q s)
    (hQ : ∀ r s, Q r s → Q' r s) : C.Upholds handle G i p Q' s := by
  induction p generalizing s with
  | pure a => exact hQ _ _ hp
  | throw e => exact hQ _ _ hp
  | call o k ih =>
    intro s' hs hinv c hG
    obtain ⟨hinv', hmoves, hk⟩ := hp s' hs hinv c hG
    exact ⟨hinv', hmoves, ih _ hk⟩

theorem bind {β : Type} {p : Prog Op Res ε β} {f : β → Prog Op Res ε α}
    {R : Except ε β → σ → Prop} (hp : C.Upholds handle G i p R s)
    (hok : ∀ a s, R (.ok a) s → C.Upholds handle G i (f a) Q s)
    (herr : ∀ e s, R (.error e) s → Q (.error e) s) : C.Upholds handle G i (p >>= f) Q s := by
  change C.Upholds handle G i (p.bind f) Q s
  induction p generalizing s with
  | pure a => exact hok _ _ hp
  | throw e => exact herr _ _ hp
  | call o k ih =>
    intro s' hs hinv c hG
    obtain ⟨hinv', hmoves, hk⟩ := hp s' hs hinv c hG
    exact ⟨hinv', hmoves, ih _ hk⟩

/-- A first part of which only the value matters that it returns. -/
theorem bind_returning {β : Type} {p : Prog Op Res ε β} {f : β → Prog Op Res ε α}
    {P : β → σ → Prop} (hp : C.Upholds handle G i p (Returning P) s)
    (hok : ∀ a s, P a s → C.Upholds handle G i (f a) Q s) (herr : ∀ e s, Q (.error e) s) :
    C.Upholds handle G i (p >>= f) Q s :=
  bind hp hok fun e s _ => herr e s

theorem attempt {p : Prog Op Res ε α} {Q : Except ε (Except ε α) → σ → Prop}
    (hp : C.Upholds handle G i p (fun r s => Q (.ok r) s) s) :
    C.Upholds handle G i p.attempt Q s := by
  induction p generalizing s with
  | pure a => exact hp
  | throw e => exact hp
  | call o k ih =>
    intro s' hs hinv c hG
    obtain ⟨hinv', hmoves, hk⟩ := hp s' hs hinv c hG
    exact ⟨hinv', hmoves, ih _ hk⟩

/-- A program that goes on with the outcome of its first part. -/
theorem attempt_bind {β : Type} {p : Prog Op Res ε β} {f : Except ε β → Prog Op Res ε α}
    {R : Except ε β → σ → Prop} (hp : C.Upholds handle G i p R s)
    (hf : ∀ r s, R r s → C.Upholds handle G i (f r) Q s) :
    C.Upholds handle G i (p.attempt >>= f) Q s := by
  refine bind (R := fun a s => ∃ r, a = .ok r ∧ R r s)
    (attempt (hp.mono fun r s h => ⟨r, rfl, h⟩)) ?_ ?_
  · rintro a s ⟨r, ha, hR⟩
    obtain rfl := Except.ok.inj ha
    exact hf a s hR
  · rintro e s ⟨r, he, -⟩
    cases he

/-- One call: the others have moved before it. -/
theorem perform {o : Op} {Q : Except ε (Res o) → σ → Prop}
    (ho : ∀ s', C.Rely i s s' → C.inv s' → ∀ c, G i c o s' →
      C.inv (handle i c o s').2 ∧ C.moves i s' (handle i c o s').2 ∧
        Q (handle i c o s').1 (handle i c o s').2) :
    C.Upholds handle G i (Prog.perform o) Q s := by
  intro s' hs hinv c hG
  obtain ⟨hinv', hmoves, hQ⟩ := ho s' hs hinv c hG
  refine ⟨hinv', hmoves, ?_⟩
  cases hr : (handle i c o s').1 with
  | error e =>
    rw [hr] at hQ
    exact hQ
  | ok r =>
    rw [hr] at hQ
    exact hQ

/-- A program whose calls are refined keeps what it kept, if the refinement of each call does what
the call did. -/
theorem interpret {Op' : Type} {Res' : Op' → Type} {handle' : ℕ → κ → Handler Op' Res' ε σ}
    {G' : ℕ → κ → Op' → σ → Prop} {f : (o : Op) → Prog Op' Res' ε (Res o)} {p : Prog Op Res ε α}
    (hp : C.Upholds handle G i p Q s)
    (hf : ∀ o s (R : Except ε (Res o) → σ → Prop), (∀ s', C.Rely i s s' → C.inv s' → ∀ c,
      G i c o s' → C.inv (handle i c o s').2 ∧ C.moves i s' (handle i c o s').2 ∧
        R (handle i c o s').1 (handle i c o s').2) → C.Upholds handle' G' i (f o) R s) :
    C.Upholds handle' G' i (p.interpret f) Q s := by
  induction p generalizing s with
  | pure a => exact hp
  | throw e => exact hp
  | call o k ih =>
    refine bind (R := fun r s => ∃ r', r = .ok r' ∧ C.Upholds handle' G' i ((k r').interpret f) Q s)
      (attempt (hf o s _ fun s' hs hinv c hG => ?_)) ?_ ?_
    · obtain ⟨hinv', hmoves, hk⟩ := hp s' hs hinv c hG
      exact ⟨hinv', hmoves, _, rfl, ih _ hk⟩
    · rintro r s ⟨r', hr, hk⟩
      obtain rfl := Except.ok.inj hr
      exact hk
    · rintro e s ⟨r', hr, -⟩
      cases hr

/-- A program that makes only calls which keep the contract. -/
theorem of_uses {P : Op → Prop} {p : Prog Op Res ε α} (hp : p.Uses P)
    (hP : ∀ o c s, P o → C.inv s → C.inv (handle i c o s).2 ∧ C.moves i s (handle i c o s).2)
    (s : σ) : C.Upholds handle G i p (fun _ _ => True) s := by
  induction p generalizing s with
  | pure a => trivial
  | throw e => trivial
  | call o k ih =>
    intro s' _ hinv c _
    obtain ⟨hinv', hmoves⟩ := hP o c s' hp.1 hinv
    exact ⟨hinv', hmoves, ih _ (hp.2 _) _⟩

/-- The others may move before the program does. -/
theorem stable {p : Prog Op Res ε α} (hp : C.Upholds handle G i p Q s)
    (hQ : ∀ r s s', C.Rely i s s' → Q r s → Q r s') (hs : C.Rely i s s') :
    C.Upholds handle G i p Q s' := by
  cases p with
  | pure a => exact hQ _ _ _ hs hp
  | throw e => exact hQ _ _ _ hs hp
  | call o k => exact fun s'' hs' => hp s'' (hs.trans hs')

end Upholds

/-- The outline of programs that uphold a contract with postconditions that the others do not
destroy. -/
def outline (C : Contract σ) {Q : ℕ → Except ε α → σ → Prop}
    (hQ : ∀ i r s s', C.Rely i s s' → Q i r s → Q i r s') : Outline handle G α where
  inv := C.inv
  known i q s := C.Upholds handle G i q (Q i) s
  moves i s s' := C.moves i s s'
  call hinv hknown hG := by
    obtain ⟨hinv', hmoves, hk⟩ := hknown _ .refl hinv _ hG
    exact ⟨hinv', hk, hmoves⟩
  stable hne hinv hknown hmoves :=
    hknown.stable (hQ _) (.single ⟨hinv, _, hne.symm, hmoves⟩)

/-- **Programs that uphold a contract keep it in every run**, and have their postconditions when
they end. -/
theorem run {Q : ℕ → Except ε α → σ → Prop} (hQ : ∀ i r s s', C.Rely i s s' → Q i r s → Q i r s')
    (hinv : C.inv p.state)
    (hp : ∀ i q, p.progs[i]? = some q → C.Upholds handle G i q (Q i) p.state)
    (hrun : Runs handle G p p') :
    C.inv p'.state ∧ ∀ i q, p'.progs[i]? = some q → C.Upholds handle G i q (Q i) p'.state := by
  have hstart : (C.outline hQ : Outline handle G α).Holds p := ⟨hinv, hp⟩
  have hend := Outline.run hstart hrun
  exact ⟨hend.inv, hend.known⟩

/-- **One program among others**: if each call of the others that the guard allows keeps the
contract, the program goes on to uphold it, and has its postcondition when it ends. -/
theorem run_among {i : ℕ} {Q : Except ε α → σ → Prop} {q : Prog Op Res ε α}
    (hQ : ∀ r s s', C.Rely i s s' → Q r s → Q r s')
    (hothers : ∀ j c o s, j ≠ i → C.inv s → G j c o s →
      C.inv (handle j c o s).2 ∧ C.moves j s (handle j c o s).2)
    (hinv : C.inv p.state) (hp : p.progs[i]? = some q) (hq : C.Upholds handle G i q Q p.state)
    (hrun : Runs handle G p p') :
    C.inv p'.state ∧ ∀ q', p'.progs[i]? = some q' → C.Upholds handle G i q' Q p'.state := by
  let O : Outline handle G α :=
    { inv := C.inv
      known := fun j q s => j = i → C.Upholds handle G i q Q s
      moves := C.moves
      call := by
        intro j c o k s hinv hknown hG
        by_cases hj : j = i
        · subst hj
          obtain ⟨hinv', hmoves, hk⟩ := hknown rfl s .refl hinv c hG
          exact ⟨hinv', fun _ => hk, hmoves⟩
        · obtain ⟨hinv', hmoves⟩ := hothers j c o s hj hinv hG
          exact ⟨hinv', fun h => absurd h hj, hmoves⟩
      stable := by
        intro j j' q s s' hne hinv hknown hmoves hj
        subst hj
        exact (hknown rfl).stable hQ (.single ⟨hinv, j, hne.symm, hmoves⟩) }
  have hstart : O.Holds p := by
    refine ⟨hinv, fun j q' hq' hj => ?_⟩
    subst hj
    obtain rfl := Option.some.inj (hp.symm.trans hq')
    exact hq
  have hend := Outline.run hstart hrun
  exact ⟨hend.inv, fun q' hq' => hend.known i q' hq' rfl⟩

end Contract

/-! ## Schedules -/

section Schedule

variable (handle)

/-- The program `i` makes its next call, if there is one. -/
def turn (p : Crew Op Res ε σ α) (i : ℕ) (c : κ) : Crew Op Res ε σ α :=
  match p.progs[i]? with
  | some (.call o k) =>
    ⟨(handle i c o p.state).2, p.progs.set i (k (handle i c o p.state).1)⟩
  | _ => p

/-- The programs make their calls in the order of the schedule. -/
def play (p : Crew Op Res ε σ α) : List (ℕ × κ) → Crew Op Res ε σ α
  | [] => p
  | (i, c) :: schedule => play (turn handle p i c) schedule

/-- The guard allows every call of the schedule. -/
def Allows (G : ℕ → κ → Op → σ → Prop) (p : Crew Op Res ε σ α) : List (ℕ × κ) → Prop
  | [] => True
  | (i, c) :: schedule =>
    (∀ o k, p.progs[i]? = some (.call o k) → G i c o p.state) ∧
      Allows G (turn handle p i c) schedule

variable {handle}

theorem turn_call {i : ℕ} {c : κ} {o : Op} {k : Except ε (Res o) → Prog Op Res ε α}
    (hp : p.progs[i]? = some (.call o k)) :
    turn handle p i c =
      ⟨(handle i c o p.state).2, p.progs.set i (k (handle i c o p.state).1)⟩ := by
  rw [turn, hp]

theorem turn_of_ended {i : ℕ} {c : κ} (hp : ∀ o k, p.progs[i]? ≠ some (.call o k)) :
    turn handle p i c = p := by
  unfold turn
  split
  · rename_i o k hcall
    exact absurd hcall (hp o k)
  · rfl

theorem play_append (p : Crew Op Res ε σ α) (schedule schedule' : List (ℕ × κ)) :
    play handle p (schedule ++ schedule') = play handle (play handle p schedule) schedule' := by
  induction schedule generalizing p with
  | nil => rfl
  | cons x schedule ih => exact ih _

theorem getElem?_turn_of_ne {i j : ℕ} {c : κ} (h : j ≠ i) :
    (turn handle p i c).progs[j]? = p.progs[j]? := by
  unfold turn
  split
  · exact List.getElem?_set_ne (Ne.symm h)
  · rfl

/-- A program that is not scheduled stays where it is. -/
theorem getElem?_play_of_not_mem {schedule : List (ℕ × κ)} {j : ℕ}
    (h : j ∉ schedule.map Prod.fst) : (play handle p schedule).progs[j]? = p.progs[j]? := by
  induction schedule generalizing p with
  | nil => rfl
  | cons x schedule ih =>
    rw [List.map_cons, List.mem_cons, not_or] at h
    exact (ih h.2).trans (getElem?_turn_of_ne h.1)

/-- A guard of the surroundings only. -/
theorem allows_of_forall {schedule : List (ℕ × κ)} (h : ∀ x ∈ schedule, ∀ o s, G x.1 x.2 o s) :
    Allows handle G p schedule := by
  induction schedule generalizing p with
  | nil => trivial
  | cons x schedule ih =>
    exact ⟨fun o _ _ => h x List.mem_cons_self o _,
      ih fun y hy => h y (List.mem_cons_of_mem _ hy)⟩

/-- An outline holds after a turn that the guard allows. -/
theorem Outline.Holds.next (h : O.Holds p) {i : ℕ} {c : κ}
    (hG : ∀ o k, p.progs[i]? = some (.call o k) → G i c o p.state) :
    O.Holds (turn handle p i c) := by
  by_cases hcall : ∃ o k, p.progs[i]? = some (.call o k)
  · obtain ⟨o, k, hp⟩ := hcall
    rw [turn_call hp]
    exact h.step (.call hp (hG o k hp))
  · rw [turn_of_ended fun o k hp => hcall ⟨o, k, hp⟩]
    exact h

/-- Whether the guard allows every call of a schedule can be computed if the guard can. -/
instance Allows.decidable [∀ i c o s, Decidable (G i c o s)] :
    (p : Crew Op Res ε σ α) → (schedule : List (ℕ × κ)) → Decidable (Allows handle G p schedule)
  | _, [] => .isTrue trivial
  | p, (i, c) :: schedule =>
    have := Allows.decidable (turn handle p i c) schedule
    have : Decidable (∀ o k, p.progs[i]? = some (.call o k) → G i c o p.state) :=
      match p.progs[i]? with
      | some (.call o k) => decidable_of_iff (G i c o p.state)
        ⟨fun h _ _ heq => by cases heq; exact h, fun h => h o k rfl⟩
      | some (.pure _) => .isTrue (by simp)
      | some (.throw _) => .isTrue (by simp)
      | none => .isTrue (by simp)
    inferInstanceAs (Decidable (_ ∧ _))

variable (handle)

/-- A schedule that the guard allows is a run. -/
theorem runs_play {schedule : List (ℕ × κ)} (h : Allows handle G p schedule) :
    Runs handle G p (play handle p schedule) := by
  induction schedule generalizing p with
  | nil => exact .refl
  | cons x schedule ih =>
    obtain ⟨i, c⟩ := x
    have hrest : Runs handle G (turn handle p i c) (play handle p ((i, c) :: schedule)) := ih h.2
    by_cases hcall : ∃ o k, p.progs[i]? = some (.call o k)
    · obtain ⟨o, k, hp⟩ := hcall
      rw [turn_call hp] at hrest
      exact .head (.call hp (h.1 o k hp)) hrest
    · rw [turn_of_ended fun o k hp => hcall ⟨o, k, hp⟩] at hrest
      exact hrest

/-- Every schedule is a run where nothing is guarded. -/
theorem runs_play_true (p : Crew Op Res ε σ α) (schedule : List (ℕ × κ)) :
    Runs handle (fun _ _ _ _ => True) p (play handle p schedule) :=
  runs_play handle (allows_of_forall fun _ _ _ _ => trivial)

/-- A guard that is exact: where the invariant gives the property, and a call that the guard
refuses destroys it, the property holds all along a schedule exactly if the guard allows it. -/
theorem Outline.Holds.play_iff {P : σ → Prop} {schedule : List (ℕ × κ)} (h : O.Holds p)
    (hP : ∀ s, O.inv s → P s)
    (hG : ∀ i c o k s, O.inv s → O.known i (.call o k) s → P (handle i c o s).2 → G i c o s) :
    (∀ n, P (play handle p (schedule.take n)).state) ↔ Allows handle G p schedule := by
  induction schedule generalizing p with
  | nil =>
    refine ⟨fun _ => trivial, fun _ n => ?_⟩
    rw [List.take_nil]
    exact hP _ h.inv
  | cons x schedule ih =>
    obtain ⟨i, c⟩ := x
    have hsplit : (∀ n, P (play handle p (((i, c) :: schedule).take n)).state) ↔
        ∀ n, P (play handle (turn handle p i c) (schedule.take n)).state := by
      constructor
      · exact fun hall n => hall (n + 1)
      · rintro hall (_ | n)
        · exact hP _ h.inv
        · exact hall n
    rw [hsplit, Allows]
    constructor
    · intro hall
      have hone : ∀ o k, p.progs[i]? = some (.call o k) → G i c o p.state := by
        intro o k hp
        apply hG i c o k p.state h.inv (h.known i _ hp)
        have hfirst := hall 0
        rw [turn_call hp] at hfirst
        exact hfirst
      exact ⟨hone, (ih (h.next hone)).1 hall⟩
    · rintro ⟨hone, hrest⟩
      exact (ih (h.next hone)).2 hrest

end Schedule

end Crew

end Async
