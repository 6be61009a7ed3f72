import Mathlib.Logic.Basic
import Mathlib.Tactic.Common

/-!
# Programs with awaited calls

A service handler written with `async`/`await` is a program that computes between its awaited
calls, and that other handlers may overtake at each of them. `Prog Op Res ε α` is the tree of
such a program: it returns a value, raises an exception, or makes a call `o : Op` and goes on
with whatever the call answers (a result in `Res o`, or an exception of its own).

One text has two readings here:

* `Prog.run` executes it alone, against a handler that says what each call does to the shared
  state;
* `Prog.Ensures` reads it among others: between two calls of the program the rest of the system
  may change the state along `rely`, and when the program ends, its outcome satisfies the
  postcondition.

`Prog.Yields` is the first reading as a triple, for runs all of whose calls meet a condition
(`Prog.Along`). `Ensures.of_run` connects the two readings: a program that ensures a postcondition
against some environment ensures it when it runs alone. `Uses` says which calls a program can make
at all, whatever is answered. `interpret` refines the calls of a program to programs over finer
calls.
-/

namespace Async

/-- Programs over the calls `Op`, raising `ε` and returning `α`. -/
inductive Prog (Op : Type) (Res : Op → Type) (ε α : Type) : Type
  | pure (a : α)
  | throw (e : ε)
  | call (o : Op) (k : Except ε (Res o) → Prog Op Res ε α)

/-- What each call answers, and what it does to the shared state. -/
abbrev Handler (Op : Type) (Res : Op → Type) (ε σ : Type) : Type :=
  (o : Op) → σ → Except ε (Res o) × σ

namespace Prog

variable {Op : Type} {Res : Op → Type} {ε σ α β : Type}

/-! ## Sequencing and exceptions -/

/-- Run `p`, then `f` on its value; an exception of `p` skips `f`. -/
protected def bind : Prog Op Res ε α → (α → Prog Op Res ε β) → Prog Op Res ε β
  | .pure a, f => f a
  | .throw e, _ => .throw e
  | .call o k, f => .call o fun r => (k r).bind f

/-- Run `p` inside a `try` block: its exception becomes a value. -/
def attempt : Prog Op Res ε α → Prog Op Res ε (Except ε α)
  | .pure a => .pure (.ok a)
  | .throw e => .pure (.error e)
  | .call o k => .call o fun r => (k r).attempt

instance : Monad (Prog Op Res ε) where
  pure := .pure
  bind := .bind

theorem bind_assoc {γ : Type} (p : Prog Op Res ε α) (f : α → Prog Op Res ε β)
    (g : β → Prog Op Res ε γ) : p >>= f >>= g = p >>= fun a => f a >>= g := by
  change (p.bind f).bind g = p.bind fun a => (f a).bind g
  induction p with
  | pure a => rfl
  | throw e => rfl
  | call o k ih => exact congrArg (Prog.call o) (funext ih)

/-- Make one call and raise the exception it raises. -/
def perform (o : Op) : Prog Op Res ε (Res o) :=
  .call o fun
    | .ok r => .pure r
    | .error e => .throw e

/-! ## Running alone -/

/-- Run a program alone. -/
def run (h : Handler Op Res ε σ) : Prog Op Res ε α → σ → Except ε α × σ
  | .pure a, s => (.ok a, s)
  | .throw e, s => (.error e, s)
  | .call o k, s => run h (k (h o s).1) (h o s).2

variable (h : Handler Op Res ε σ)

@[simp] theorem run_pure (a : α) (s : σ) :
    run h (Pure.pure a : Prog Op Res ε α) s = (.ok a, s) := rfl

@[simp] theorem run_throw (e : ε) (s : σ) :
    run h (.throw e : Prog Op Res ε α) s = (.error e, s) := rfl

@[simp] theorem run_perform (o : Op) (s : σ) :
    run h (perform o : Prog Op Res ε (Res o)) s = h o s := by
  simp only [perform, run]
  rcases h o s with ⟨r | r, s'⟩ <;> rfl

theorem run_bind (p : Prog Op Res ε α) (f : α → Prog Op Res ε β) (s : σ) :
    run h (p >>= f) s = match run h p s with
      | (.ok a, s') => run h (f a) s'
      | (.error e, s') => (.error e, s') := by
  change run h (p.bind f) s = _
  induction p generalizing s with
  | pure a => rfl
  | throw e => rfl
  | call o k ih => exact ih _ _

theorem run_bind_ok {p : Prog Op Res ε α} {f : α → Prog Op Res ε β} {s s' : σ} {a : α}
    (hp : run h p s = (.ok a, s')) : run h (p >>= f) s = run h (f a) s' := by
  rw [run_bind, hp]

theorem run_bind_error {p : Prog Op Res ε α} {f : α → Prog Op Res ε β} {s s' : σ} {e : ε}
    (hp : run h p s = (.error e, s')) : run h (p >>= f) s = (.error e, s') := by
  rw [run_bind, hp]

/-- A sequence that returns has a first part that returned. -/
theorem run_bind_inv {p : Prog Op Res ε α} {f : α → Prog Op Res ε β} {s : σ} {b : β}
    (hb : (run h (p >>= f) s).1 = .ok b) :
    ∃ a, (run h p s).1 = .ok a ∧ run h (p >>= f) s = run h (f a) (run h p s).2 := by
  rcases hp : run h p s with ⟨e | a, s'⟩
  · rw [run_bind_error h hp] at hb
    cases hb
  · exact ⟨a, rfl, run_bind_ok h hp⟩

@[simp] theorem run_attempt (p : Prog Op Res ε α) (s : σ) :
    run h p.attempt s = (.ok (run h p s).1, (run h p s).2) := by
  induction p generalizing s with
  | pure a => rfl
  | throw e => rfl
  | call o k ih => exact ih _ _

/-! ## The calls a program can make -/

/-- Every call the program can make, whatever the earlier ones answered, satisfies `P`. -/
def Uses (P : Op → Prop) : Prog Op Res ε α → Prop
  | .pure _ => True
  | .throw _ => True
  | .call o k => P o ∧ ∀ r, (k r).Uses P

namespace Uses

variable {P P' : Op → Prop}

theorem ret (a : α) : Uses P (Pure.pure a : Prog Op Res ε α) := trivial

theorem raise (e : ε) : Uses P (.throw e : Prog Op Res ε α) := trivial

theorem perform {o : Op} (ho : P o) : Uses P (Prog.perform o : Prog Op Res ε (Res o)) := by
  refine ⟨ho, fun r => ?_⟩
  cases r <;> trivial

theorem bind {p : Prog Op Res ε α} {f : α → Prog Op Res ε β} (hp : Uses P p)
    (hf : ∀ a, Uses P (f a)) : Uses P (p >>= f) := by
  change Uses P (p.bind f)
  induction p with
  | pure a => exact hf a
  | throw e => trivial
  | call o k ih => exact ⟨hp.1, fun r => ih r (hp.2 r)⟩

theorem attempt {p : Prog Op Res ε α} (hp : Uses P p) : Uses P p.attempt := by
  induction p with
  | pure a => trivial
  | throw e => trivial
  | call o k ih => exact ⟨hp.1, fun r => ih r (hp.2 r)⟩

theorem mono {p : Prog Op Res ε α} (hp : Uses P p) (hP : ∀ o, P o → P' o) : Uses P' p := by
  induction p with
  | pure a => trivial
  | throw e => trivial
  | call o k ih => exact ⟨hP o hp.1, fun r => ih r (hp.2 r)⟩

theorem all (hP : ∀ o, P o) (p : Prog Op Res ε α) : Uses P p := by
  induction p with
  | pure a => trivial
  | throw e => trivial
  | call o k ih => exact ⟨hP o, ih⟩

end Uses

/-! ## Running among others -/

/-- `Ensures h rely p Q s`: from `s`, with the others moving along `rely` before each call of
`p`, the outcome of `p` satisfies `Q`. -/
def Ensures (rely : σ → σ → Prop) : Prog Op Res ε α → (Except ε α → σ → Prop) → σ → Prop
  | .pure a, Q, s => Q (.ok a) s
  | .throw e, Q, s => Q (.error e) s
  | .call o k, Q, s => ∀ s', rely s s' → Ensures rely (k (h o s').1) Q (h o s').2

namespace Ensures

variable {h} {rely : σ → σ → Prop} {Q Q' : Except ε α → σ → Prop} {s : σ}

theorem ret {a : α} (hQ : Q (.ok a) s) : Ensures h rely (Pure.pure a : Prog Op Res ε α) Q s := hQ

theorem raise {e : ε} (hQ : Q (.error e) s) :
    Ensures h rely (.throw e : Prog Op Res ε α) Q s := hQ

theorem mono {p : Prog Op Res ε α} (hp : Ensures h rely p Q s) (hQ : ∀ r s, Q r s → Q' r s) :
    Ensures h rely p Q' s := by
  induction p generalizing s with
  | pure a => exact hQ _ _ hp
  | throw e => exact hQ _ _ hp
  | call o k ih => exact fun s' hs => ih _ (hp s' hs)

/-- Fewer moves of the others. -/
theorem narrow {rely' : σ → σ → Prop} {p : Prog Op Res ε α} (hp : Ensures h rely p Q s)
    (hrely : ∀ s s', rely' s s' → rely s s') : Ensures h rely' p Q s := by
  induction p generalizing s with
  | pure a => exact hp
  | throw e => exact hp
  | call o k ih => exact fun s' hs => ih _ (hp s' (hrely s s' hs))

theorem any (p : Prog Op Res ε α) (s : σ) : Ensures h rely p (fun _ _ => True) s := by
  induction p generalizing s with
  | pure a => trivial
  | throw e => trivial
  | call o k ih => exact fun s' _ => ih _ _

/-- Sequencing: what `p` ensures is what `f` starts from. -/
theorem bind {p : Prog Op Res ε α} {f : α → Prog Op Res ε β} {Q : Except ε β → σ → Prop}
    {R : Except ε α → σ → Prop} (hp : Ensures h rely p R s)
    (hok : ∀ a s, R (.ok a) s → Ensures h rely (f a) Q s)
    (herr : ∀ e s, R (.error e) s → Q (.error e) s) : Ensures h rely (p >>= f) Q s := by
  change Ensures h rely (p.bind f) Q s
  induction p generalizing s with
  | pure a => exact hok _ _ hp
  | throw e => exact herr _ _ hp
  | call o k ih => exact fun s' hs => ih _ (hp s' hs)

theorem attempt {p : Prog Op Res ε α} {Q : Except ε (Except ε α) → σ → Prop}
    (hp : Ensures h rely p (fun r s => Q (.ok r) s) s) : Ensures h rely p.attempt Q s := by
  induction p generalizing s with
  | pure a => exact hp
  | throw e => exact hp
  | call o k ih => exact fun s' hs => ih _ (hp s' hs)

theorem perform {o : Op} {Q : Except ε (Res o) → σ → Prop}
    (ho : ∀ s', rely s s' → Q (h o s').1 (h o s').2) : Ensures h rely (Prog.perform o) Q s := by
  intro s' hs
  have hQ := ho s' hs
  cases hr : (h o s').1 with
  | error e =>
    rw [hr] at hQ
    exact hQ
  | ok r =>
    rw [hr] at hQ
    exact hQ

/-- The others may move before the program does. -/
theorem stable {p : Prog Op Res ε α} {s' : σ} (hp : Ensures h rely p Q s) (hs : rely s s')
    (htrans : ∀ a b c, rely a b → rely b c → rely a c)
    (hQ : ∀ r s s', Q r s → rely s s' → Q r s') : Ensures h rely p Q s' := by
  cases p with
  | pure a => exact hQ _ _ _ hp hs
  | throw e => exact hQ _ _ _ hp hs
  | call o k => exact fun s'' hs' => hp s'' (htrans _ _ _ hs hs')

/-- A program that ensures `Q` among others ensures it alone. -/
theorem of_run {p : Prog Op Res ε α} (hp : Ensures h rely p Q s) (hrefl : ∀ s, rely s s) :
    Q (p.run h s).1 (p.run h s).2 := by
  induction p generalizing s with
  | pure a => exact hp
  | throw e => exact hp
  | call o k ih => exact ih _ (hp s (hrefl s))

end Ensures

/-- What every call of a program keeps, the program keeps when it runs alone. -/
theorem Uses.run_induction {I : σ → Prop} {P : Op → Prop} {p : Prog Op Res ε α} (hp : Uses P p)
    (hstep : ∀ o s, P o → I s → I (h o s).2) {s : σ} (hs : I s) : I (p.run h s).2 := by
  induction p generalizing s with
  | pure a => exact hs
  | throw e => exact hs
  | call o k ih => exact ih _ (hp.2 _) (hstep o s hp.1 hs)

/-- What every call keeps, a program that runs alone keeps. -/
theorem run_induction {I : σ → Prop} (hstep : ∀ o s, I s → I (h o s).2) (p : Prog Op Res ε α)
    {s : σ} (hs : I s) : I (p.run h s).2 := by
  induction p generalizing s with
  | pure a => exact hs
  | throw e => exact hs
  | call o k ih => exact ih _ (hstep o s hs)

/-- What every call keeps holds after a sequence if it holds after its first part. -/
theorem run_bind_keeps {I : σ → Prop} (hstep : ∀ o s, I s → I (h o s).2) {p : Prog Op Res ε α}
    {f : α → Prog Op Res ε β} {s : σ} (hp : I (p.run h s).2) : I ((p >>= f).run h s).2 := by
  rw [run_bind]
  rcases hr : run h p s with ⟨e | a, s'⟩ <;> rw [hr] at hp
  · exact hp
  · exact run_induction h hstep (f a) hp

/-! ## The calls of one run -/

/-- Every call that the program makes when it runs alone from `s` satisfies `P`, in the state in
which it is made. -/
def Along (P : Op → σ → Prop) : Prog Op Res ε α → σ → Prop
  | .pure _, _ => True
  | .throw _, _ => True
  | .call o k, s => P o s ∧ Along P (k (h o s).1) (h o s).2

/-- If all its calls satisfy `P`, the program that runs alone from `s` ends in `Φ`. -/
def Yields (P : Op → σ → Prop) (p : Prog Op Res ε α) (Φ : Except ε α → σ → Prop) (s : σ) : Prop :=
  p.Along h P s → Φ (p.run h s).1 (p.run h s).2

section Along

variable {h} {P : Op → σ → Prop} {s : σ}

theorem along_bind_iff {p : Prog Op Res ε α} {f : α → Prog Op Res ε β} :
    (p >>= f).Along h P s ↔
      p.Along h P s ∧ ∀ a, (p.run h s).1 = .ok a → (f a).Along h P (p.run h s).2 := by
  change (p.bind f).Along h P s ↔ _
  induction p generalizing s with
  | pure a => simp [Prog.bind, Along, run]
  | throw e => simp [Prog.bind, Along, run]
  | call o k ih => simp only [Prog.bind, Along, run, ih, and_assoc]

theorem along_attempt_iff {p : Prog Op Res ε α} :
    p.attempt.Along h P s ↔ p.Along h P s := by
  induction p generalizing s with
  | pure a => rfl
  | throw e => rfl
  | call o k ih => simp only [attempt, Along, ih]

theorem along_perform_iff {o : Op} :
    (perform o : Prog Op Res ε (Res o)).Along h P s ↔ P o s := by
  simp only [perform, Along]
  cases (h o s).1 <;> simp [Along]

theorem Along.mono {P' : Op → σ → Prop} {p : Prog Op Res ε α} (hp : p.Along h P s)
    (hP : ∀ o s, P o s → P' o s) : p.Along h P' s := by
  induction p generalizing s with
  | pure a => trivial
  | throw e => trivial
  | call o k ih => exact ⟨hP o s hp.1, ih _ hp.2⟩

theorem Along.all (hP : ∀ o s, P o s) (p : Prog Op Res ε α) (s : σ) : p.Along h P s := by
  induction p generalizing s with
  | pure a => trivial
  | throw e => trivial
  | call o k ih => exact ⟨hP o s, ih _ _⟩

/-- What holds of the calls that a program can make holds of those that it makes. -/
theorem Uses.along {P' : Op → Prop} {p : Prog Op Res ε α} (hp : p.Uses P')
    (hP : ∀ o s, P' o → P o s) (s : σ) : p.Along h P s := by
  induction p generalizing s with
  | pure a => trivial
  | throw e => trivial
  | call o k ih => exact ⟨hP o s hp.1, ih _ (hp.2 _) _⟩

/-- What every call keeps holds at all calls. -/
theorem Along.of_invariant {I : σ → Prop} (hstep : ∀ o s, I s → I (h o s).2)
    (hP : ∀ o s, I s → P o s) (p : Prog Op Res ε α) (hs : I s) : p.Along h P s := by
  induction p generalizing s with
  | pure a => trivial
  | throw e => trivial
  | call o k ih => exact ⟨hP o s hs, ih _ (hstep o s hs)⟩

/-- What every call of a program keeps holds at all its calls. -/
theorem Along.of_uses {I : σ → Prop} {P : Op → Prop} {p : Prog Op Res ε α} (hp : p.Uses P)
    (hstep : ∀ o s, P o → I s → I (h o s).2) (hs : I s) : p.Along h (fun _ s => I s) s := by
  induction p generalizing s with
  | pure a => trivial
  | throw e => trivial
  | call o k ih => exact ⟨hs, ih _ (hp.2 _) (hstep o s hp.1 hs)⟩

/-- A program whose calls are answered from a view of the state ends on the view as it does on
the state. -/
theorem run_view (view : σ → σ) {p : Prog Op Res ε α}
    (hp : p.Along h (fun o s => h o (view s) = ((h o s).1, view (h o s).2)) s) :
    p.run h (view s) = ((p.run h s).1, view (p.run h s).2) := by
  induction p generalizing s with
  | pure a => rfl
  | throw e => rfl
  | call o k ih =>
    obtain ⟨hfirst, hrest⟩ := hp
    simp only [run, hfirst]
    exact ih _ hrest

instance Along.decidable [∀ o s, Decidable (P o s)] :
    (p : Prog Op Res ε α) → (s : σ) → Decidable (p.Along h P s)
  | .pure _, _ => .isTrue trivial
  | .throw _, _ => .isTrue trivial
  | .call o k, s =>
    have := Along.decidable (k (h o s).1) (h o s).2
    inferInstanceAs (Decidable (_ ∧ _))

end Along

namespace Yields

variable {h} {P : Op → σ → Prop} {Φ Φ' : Except ε α → σ → Prop} {s : σ}

theorem of_run {p : Prog Op Res ε α} (hp : Φ (p.run h s).1 (p.run h s).2) :
    Yields h P p Φ s := fun _ => hp

theorem ret {a : α} (hΦ : Φ (.ok a) s) :
    Yields h P (Pure.pure a : Prog Op Res ε α) Φ s := fun _ => hΦ

theorem raise {e : ε} (hΦ : Φ (.error e) s) :
    Yields h P (.throw e : Prog Op Res ε α) Φ s := fun _ => hΦ

theorem mono {p : Prog Op Res ε α} (hp : Yields h P p Φ s) (hΦ : ∀ r s', Φ r s' → Φ' r s') :
    Yields h P p Φ' s := fun halong => hΦ _ _ (hp halong)

theorem bind {p : Prog Op Res ε α} {f : α → Prog Op Res ε β} {Ψ : Except ε α → σ → Prop}
    {Φ : Except ε β → σ → Prop} (hp : Yields h P p Ψ s)
    (hok : ∀ a s', Ψ (.ok a) s' → Yields h P (f a) Φ s')
    (herr : ∀ e s', Ψ (.error e) s' → Φ (.error e) s') : Yields h P (p >>= f) Φ s := by
  intro halong
  obtain ⟨hfirst, hrest⟩ := along_bind_iff.1 halong
  have hΨ := hp hfirst
  rcases hr : run h p s with ⟨e | a, s'⟩ <;> rw [hr] at hΨ hrest
  · rw [run_bind_error h hr]
    exact herr e s' hΨ
  · rw [run_bind_ok h hr]
    exact hok a s' hΨ (hrest a rfl)

theorem attempt {p : Prog Op Res ε α} {Φ : Except ε (Except ε α) → σ → Prop}
    (hp : Yields h P p (fun r s' => Φ (.ok r) s') s) : Yields h P p.attempt Φ s := by
  intro halong
  rw [run_attempt]
  exact hp (along_attempt_iff.1 halong)

theorem perform {o : Op} {Φ : Except ε (Res o) → σ → Prop}
    (ho : P o s → Φ (h o s).1 (h o s).2) : Yields h P (Prog.perform o) Φ s := by
  intro halong
  rw [run_perform]
  exact ho (along_perform_iff.1 halong)

end Yields

/-! ## Refining the calls -/

section Interpret

variable {Op' : Type} {Res' : Op' → Type} (f : (o : Op) → Prog Op' Res' ε (Res o))

/-- Replace each call by the program that carries it out. -/
def interpret : Prog Op Res ε α → Prog Op' Res' ε α
  | .pure a => .pure a
  | .throw e => .throw e
  | .call o k => (f o).attempt.bind fun r => (k r).interpret

theorem interpret_bind (p : Prog Op Res ε α) (g : α → Prog Op Res ε β) :
    (p >>= g).interpret f = p.interpret f >>= fun a => (g a).interpret f := by
  change (p.bind g).interpret f = (p.interpret f).bind fun a => (g a).interpret f
  induction p with
  | pure a => rfl
  | throw e => rfl
  | call o k ih =>
    simp only [Prog.bind, interpret, ih]
    exact (bind_assoc (f o).attempt (fun r => (k r).interpret f) _).symm

theorem interpret_perform (o : Op) : (perform o).interpret f = f o := by
  change (f o).attempt.bind (fun r => interpret f (match r with
    | .ok r => .pure r
    | .error e => .throw e)) = f o
  induction f o with
  | pure a => rfl
  | throw e => rfl
  | call o' k ih => exact congrArg (Prog.call o') (funext ih)

theorem attempt_attempt_bind (p : Prog Op Res ε β) (g : Except ε β → Prog Op Res ε α) :
    (p.attempt.bind g).attempt = p.attempt.bind fun r => (g r).attempt := by
  induction p with
  | pure a => rfl
  | throw e => rfl
  | call o k ih => exact congrArg (Prog.call o) (funext ih)

theorem interpret_attempt (p : Prog Op Res ε α) :
    p.attempt.interpret f = (p.interpret f).attempt := by
  induction p with
  | pure a => rfl
  | throw e => rfl
  | call o k ih =>
    simp only [attempt, interpret, ih]
    exact (attempt_attempt_bind (f o) fun r => (k r).interpret f).symm

/-- The calls of a refined program are those of the programs for its calls. -/
theorem Uses.interpret {P : Op → Prop} {P' : Op' → Prop} {p : Prog Op Res ε α} (hp : p.Uses P)
    (hf : ∀ o, P o → (f o).Uses P') : (p.interpret f).Uses P' := by
  induction p with
  | pure a => trivial
  | throw e => trivial
  | call o k ih => exact (hf o hp.1).attempt.bind fun r => ih r (hp.2 r)

end Interpret

end Prog

end Async
