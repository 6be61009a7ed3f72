import FlowMesh.Library.Crew

/-!
# What the programs of a crew notice of each other

Some programs of a crew are watched, and a view is what they may see of the state. A view unwinds
the crew if the calls of the watched programs are answered from the view and change it by what they
see of it, and if no call of the others changes it (`Unwinding`). Then two runs that agree on the
watched programs, on the calls that these make and on what they see at the start end in the same
view, whatever the other programs are and whenever they make their calls (`Unwinding.agree`).
-/

namespace Async

namespace Crew

variable {Op : Type} {Res : Op → Type} {ε σ ρ α κ : Type}
  {handle : ℕ → κ → Handler Op Res ε σ} {G : ℕ → κ → Op → σ → Prop}

/-- The calls of the watched programs cannot tell two states of one view apart, and those of the
other programs do not change the view. -/
structure Unwinding (O : Outline handle G α) (watched : ℕ → Bool) (view : σ → ρ) : Prop where
  seen : ∀ {i c o k s t}, watched i = true → O.known i (.call o k) s → O.known i (.call o k) t →
    G i c o s → G i c o t → view s = view t →
      (handle i c o s).1 = (handle i c o t).1 ∧ view (handle i c o s).2 = view (handle i c o t).2
  hidden : ∀ {i c o k s}, watched i = false → O.known i (.call o k) s → G i c o s →
    view (handle i c o s).2 = view s

/-- The crews agree on the watched programs and on the view. -/
structure Alike (watched : ℕ → Bool) (view : σ → ρ) (p p' : Crew Op Res ε σ α) : Prop where
  view : view p.state = view p'.state
  progs : ∀ i, watched i = true → p.progs[i]? = p'.progs[i]?

variable {O : Outline handle G α} {watched : ℕ → Bool} {view : σ → ρ}
  {p p' : Crew Op Res ε σ α} {i : ℕ} {c : κ}

theorem Alike.symm (h : Alike watched view p p') : Alike watched view p' p :=
  ⟨h.view.symm, fun i hi => (h.progs i hi).symm⟩

namespace Unwinding

/-- A call of another program goes unnoticed. -/
theorem turn_hidden (hU : Unwinding O watched view) (h : O.Holds p) (hi : watched i = false)
    (hG : ∀ o k, p.progs[i]? = some (.call o k) → G i c o p.state)
    (halike : Alike watched view p p') : Alike watched view (turn handle p i c) p' := by
  by_cases hcall : ∃ o k, p.progs[i]? = some (.call o k)
  · obtain ⟨o, k, hp⟩ := hcall
    rw [turn_call hp]
    refine ⟨(hU.hidden hi (h.known i _ hp) (hG o k hp)).trans halike.view, fun j hj => ?_⟩
    have hne : i ≠ j := by
      rintro rfl
      rw [hi] at hj
      cases hj
    rw [List.getElem?_set_ne hne]
    exact halike.progs j hj
  · rw [turn_of_ended fun o k hp => hcall ⟨o, k, hp⟩]
    exact halike

/-- A call of a watched program is the same in both crews. -/
theorem turn_seen (hU : Unwinding O watched view) (h : O.Holds p) (h' : O.Holds p')
    (hi : watched i = true) (hG : ∀ o k, p.progs[i]? = some (.call o k) → G i c o p.state)
    (hG' : ∀ o k, p'.progs[i]? = some (.call o k) → G i c o p'.state)
    (halike : Alike watched view p p') :
    Alike watched view (turn handle p i c) (turn handle p' i c) := by
  have hprog := halike.progs i hi
  by_cases hcall : ∃ o k, p.progs[i]? = some (.call o k)
  · obtain ⟨o, k, hp⟩ := hcall
    have hp' : p'.progs[i]? = some (.call o k) := hprog.symm.trans hp
    obtain ⟨hanswer, hview⟩ := hU.seen hi (h.known i _ hp) (h'.known i _ hp') (hG o k hp)
      (hG' o k hp') halike.view
    rw [turn_call hp, turn_call hp', hanswer]
    refine ⟨hview, fun j hj => ?_⟩
    by_cases hij : i = j
    · subst hij
      rw [List.getElem?_set_self (List.getElem?_eq_some_iff.1 hp).1,
        List.getElem?_set_self (List.getElem?_eq_some_iff.1 hp').1]
    · rw [List.getElem?_set_ne hij, List.getElem?_set_ne hij]
      exact halike.progs j hj
  · have hended : ∀ o k, p.progs[i]? ≠ some (.call o k) := fun o k hp => hcall ⟨o, k, hp⟩
    rw [turn_of_ended hended, turn_of_ended fun o k hp => hended o k (hprog.trans hp)]
    exact halike

/-- **Two runs that agree on what is watched stay alike.** -/
theorem agree (hU : Unwinding O watched view) {schedule schedule' : List (ℕ × κ)}
    (h : O.Holds p) (h' : O.Holds p') (hG : Allows handle G p schedule)
    (hG' : Allows handle G p' schedule')
    (hcalls : (schedule.filter fun x => watched x.1) = schedule'.filter fun x => watched x.1)
    (halike : Alike watched view p p') :
    Alike watched view (play handle p schedule) (play handle p' schedule') := by
  induction schedule generalizing p p' schedule' with
  | nil =>
    -- only calls of other programs are left in the second run
    induction schedule' generalizing p' with
    | nil => exact halike
    | cons x schedule' ih' =>
      obtain ⟨i, c⟩ := x
      cases hi : watched i with
      | false =>
        rw [List.filter_cons_of_neg (by simp [hi])] at hcalls
        exact ih' (h'.next hG'.1) hG'.2 hcalls (hU.turn_hidden h' hi hG'.1 halike.symm).symm
      | true =>
        rw [List.filter_cons_of_pos (by simpa using hi)] at hcalls
        cases hcalls
  | cons x schedule ih =>
    obtain ⟨i, c⟩ := x
    cases hi : watched i with
    | false =>
      rw [List.filter_cons_of_neg (by simp [hi])] at hcalls
      exact ih (h.next hG.1) h' hG.2 hG' hcalls (hU.turn_hidden h hi hG.1 halike)
    | true =>
      rw [List.filter_cons_of_pos (by simpa using hi)] at hcalls
      -- the second run comes to the same call, behind calls of other programs
      induction schedule' generalizing p' with
      | nil => cases hcalls
      | cons y schedule' ih' =>
        obtain ⟨j, d⟩ := y
        cases hj : watched j with
        | false =>
          rw [List.filter_cons_of_neg (a := (j, d)) (by simp [hj])] at hcalls
          exact ih' (h'.next hG'.1) hG'.2 (hU.turn_hidden h' hj hG'.1 halike.symm).symm hcalls
        | true =>
          rw [List.filter_cons_of_pos (a := (j, d)) (by simpa using hj)] at hcalls
          obtain ⟨heq, hrest⟩ := List.cons.inj hcalls
          cases heq
          have hnext : Alike watched view (play handle (turn handle p i c) schedule)
              (play handle (turn handle p' i c) schedule') :=
            ih (h.next hG.1) (h'.next hG'.1) hG.2 hG'.2 hrest
              (hU.turn_seen h h' hi hG.1 hG'.1 halike)
          exact hnext

end Unwinding

end Crew

end Async
