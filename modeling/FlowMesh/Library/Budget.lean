import FlowMesh.Library.Async

/-!
# How many calls a program makes

`AtMost P p n`: whatever is answered, the program makes at most `n` calls of the kind `P`. The
rules follow the program text, as those of `Uses` do; `AtMost.run` says what a handler that counts
such calls finds after a run.

`made` lists the calls of one run; `made_bind` and its companions compute it along the program
text.
-/

namespace Async.Prog

variable {Op : Type} {Res : Op → Type} {ε σ α β : Type}

/-- Whatever is answered, at most `n` calls of the kind `P`. -/
def AtMost (P : Op → Bool) : Prog Op Res ε α → ℕ → Prop
  | .pure _, _ => True
  | .throw _, _ => True
  | .call o k, n =>
    if P o then ∃ m, n = m + 1 ∧ ∀ r, AtMost P (k r) m
    else ∀ r, AtMost P (k r) n

namespace AtMost

variable {P : Op → Bool} {n m : ℕ}

theorem ret (a : α) : AtMost P (Pure.pure a : Prog Op Res ε α) n := trivial

theorem raise (e : ε) : AtMost P (.throw e : Prog Op Res ε α) n := trivial

theorem mono {p : Prog Op Res ε α} (hp : AtMost P p n) (hnm : n ≤ m) : AtMost P p m := by
  induction p generalizing n m with
  | pure a => trivial
  | throw e => trivial
  | call o k ih =>
    unfold AtMost at hp ⊢
    split
    · next ho =>
      rw [if_pos ho] at hp
      obtain ⟨l, rfl, hk⟩ := hp
      obtain ⟨l', rfl⟩ := Nat.exists_eq_add_of_le hnm
      exact ⟨l + l', by omega, fun r => ih r (hk r) (by omega)⟩
    · next ho =>
      rw [if_neg ho] at hp
      exact fun r => ih r (hp r) hnm

/-- A program without such calls. -/
theorem of_uses {p : Prog Op Res ε α} (hp : p.Uses fun o => P o = false) : AtMost P p n := by
  induction p with
  | pure a => trivial
  | throw e => trivial
  | call o k ih =>
    unfold AtMost
    rw [if_neg (by simp [hp.1])]
    exact fun r => ih r (hp.2 r)

/-- One call. -/
theorem perform (o : Op) : AtMost P (Prog.perform o : Prog Op Res ε (Res o)) 1 := by
  unfold Prog.perform AtMost
  split
  · exact ⟨0, rfl, fun r => by cases r <;> trivial⟩
  · intro r
    cases r <;> trivial

theorem bind {p : Prog Op Res ε α} {f : α → Prog Op Res ε β} (hp : AtMost P p n)
    (hf : ∀ a, AtMost P (f a) m) : AtMost P (p >>= f) (n + m) := by
  change AtMost P (p.bind f) (n + m)
  induction p generalizing n with
  | pure a => exact (hf a).mono (by omega)
  | throw e => trivial
  | call o k ih =>
    unfold Prog.bind AtMost
    unfold AtMost at hp
    split
    · next ho =>
      rw [if_pos ho] at hp
      obtain ⟨l, rfl, hk⟩ := hp
      exact ⟨l + m, by omega, fun r => ih r (hk r)⟩
    · next ho =>
      rw [if_neg ho] at hp
      exact fun r => ih r (hp r)

theorem attempt {p : Prog Op Res ε α} (hp : AtMost P p n) : AtMost P p.attempt n := by
  induction p generalizing n with
  | pure a => trivial
  | throw e => trivial
  | call o k ih =>
    unfold Prog.attempt AtMost
    unfold AtMost at hp
    split
    · next ho =>
      rw [if_pos ho] at hp
      obtain ⟨l, rfl, hk⟩ := hp
      exact ⟨l, rfl, fun r => ih r (hk r)⟩
    · next ho =>
      rw [if_neg ho] at hp
      exact fun r => ih r (hp r)

/-- What a handler that counts the calls finds after a run. -/
theorem run {h : Handler Op Res ε σ} {count : σ → ℕ}
    (hcall : ∀ o s, count (h o s).2 ≤ count s + if P o then 1 else 0) {p : Prog Op Res ε α}
    (hp : AtMost P p n) (s : σ) : count (p.run h s).2 ≤ count s + n := by
  induction p generalizing n s with
  | pure a => exact Nat.le_add_right _ _
  | throw e => exact Nat.le_add_right _ _
  | call o k ih =>
    have ho := hcall o s
    unfold AtMost at hp
    split at hp
    · next hP =>
      obtain ⟨m, rfl, hk⟩ := hp
      have hrest := ih _ (hk (h o s).1) (h o s).2
      rw [if_pos hP] at ho
      show count (Prog.run h (k (h o s).1) (h o s).2).2 ≤ _
      omega
    · next hP =>
      have hrest := ih _ (hp (h o s).1) (h o s).2
      rw [if_neg hP] at ho
      show count (Prog.run h (k (h o s).1) (h o s).2).2 ≤ _
      omega

end AtMost

/-! ## The calls of a run -/

section Made

variable (h : Handler Op Res ε σ)

/-- The calls that the program makes when it runs alone from `s`, in order. -/
def made : Prog Op Res ε α → σ → List Op
  | .pure _, _ => []
  | .throw _, _ => []
  | .call o k, s => o :: made (k (h o s).1) (h o s).2

@[simp] theorem made_pure (a : α) (s : σ) : made h (Pure.pure a : Prog Op Res ε α) s = [] := rfl

@[simp] theorem made_throw (e : ε) (s : σ) : made h (.throw e : Prog Op Res ε α) s = [] := rfl

@[simp] theorem made_perform (o : Op) (s : σ) :
    made h (Prog.perform o : Prog Op Res ε (Res o)) s = [o] := by
  unfold Prog.perform made
  cases (h o s).1 <;> rfl

theorem made_bind (p : Prog Op Res ε α) (f : α → Prog Op Res ε β) (s : σ) :
    made h (p >>= f) s = made h p s ++ match (p.run h s).1 with
      | .ok a => made h (f a) (p.run h s).2
      | .error _ => [] := by
  change made h (p.bind f) s = _
  induction p generalizing s with
  | pure a => rfl
  | throw e => rfl
  | call o k ih => exact congrArg (o :: ·) (ih _ _)

theorem made_bind_ok {p : Prog Op Res ε α} {f : α → Prog Op Res ε β} {s s' : σ} {a : α}
    (hp : p.run h s = (.ok a, s')) : made h (p >>= f) s = made h p s ++ made h (f a) s' := by
  rw [made_bind, hp]

@[simp] theorem made_attempt (p : Prog Op Res ε α) (s : σ) :
    made h p.attempt s = made h p s := by
  induction p generalizing s with
  | pure a => rfl
  | throw e => rfl
  | call o k ih => exact congrArg (o :: ·) (ih _ _)

variable {h}

/-- What holds of the calls that a program can make holds of those it makes. -/
theorem Uses.made {P : Op → Prop} {p : Prog Op Res ε α} (hp : p.Uses P) (s : σ) :
    ∀ o ∈ p.made h s, P o := by
  induction p generalizing s with
  | pure a => exact fun o ho => absurd ho List.not_mem_nil
  | throw e => exact fun o ho => absurd ho List.not_mem_nil
  | call o k ih => exact List.forall_mem_cons.2 ⟨hp.1, ih _ (hp.2 _) _⟩

/-- A program that makes at most `n` calls of a kind makes no more of them in a run. -/
theorem AtMost.made {P : Op → Bool} {n : ℕ} {p : Prog Op Res ε α} (hp : AtMost P p n) (s : σ) :
    (p.made h s).countP P ≤ n := by
  induction p generalizing n s with
  | pure a => exact Nat.zero_le n
  | throw e => exact Nat.zero_le n
  | call o k ih =>
    unfold AtMost at hp
    unfold Prog.made
    split at hp
    · next hP =>
      obtain ⟨m, rfl, hk⟩ := hp
      rw [List.countP_cons_of_pos hP]
      exact Nat.succ_le_succ (ih _ (hk _) _)
    · next hP =>
      rw [List.countP_cons_of_neg hP]
      exact ih _ (hp _) _

end Made

end Async.Prog
