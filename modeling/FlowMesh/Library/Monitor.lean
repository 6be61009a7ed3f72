import Mathlib.Data.List.Count
import Mathlib.Logic.Relation
import Mathlib.Order.WellFounded
import Mathlib.Tactic.Common

/-!
# Reentrant locks

Any number of threads over the data that a family of locks guards. A thread acts on the data of a
lock, and runs sections under locks, which may be nested; a lock that its thread has already may
be taken again, and is free when it was released as often as it was taken. A section releases its
lock whether it returns or raises. `step` lets one thread make its next step, and is `none` where
that thread is blocked or has returned.

* `exclusive`: two threads in sections under one lock are the same thread;
* `progress`: if nested locks go up, some thread can make a step until all have returned;
* `run_serial`: if the sections of a thread act on the data of their own lock only, then a run is,
  for the data and for what the threads see of it, one in which every outermost section runs in
  one go (`serialStep`).
-/

namespace Monitor

/-- The text of a thread. -/
inductive Code (L σ ρ ε α : Type) : Type
  | ret (r : Except ε α)
  | act (l : L) (f : σ → ρ × σ) (k : ρ → Code L σ ρ ε α)
  | sync (l : L) (body : Code L σ ρ ε α) (k : Except ε α → Code L σ ρ ε α)

/-- The sections that a thread is in, the innermost first: each with its lock and what comes
after it. -/
abbrev Frames (L σ ρ ε α : Type) : Type := List (L × (Except ε α → Code L σ ρ ε α))

/-- The thread that has a lock, and how often it has taken it. -/
structure Hold where
  owner : ℕ
  count : ℕ

/-- A thread: what it does next, and the sections it is in. -/
structure Thread (L σ ρ ε α : Type) where
  code : Code L σ ρ ε α
  frames : Frames L σ ρ ε α

/-- The locks, the data they guard, and the threads. -/
structure State (L σ ρ ε α : Type) where
  locks : L → Option Hold
  data : L → σ
  threads : List (Thread L σ ρ ε α)

/-! ## Steps -/

/-- The thread `t` takes a lock; `none` where it has to wait. -/
def acquire (t : ℕ) : Option Hold → Option Hold
  | none => some ⟨t, 1⟩
  | some h => if h.owner = t then some ⟨t, h.count + 1⟩ else none

/-- The thread `t` releases a lock; `none` if it does not have it. -/
def release (t : ℕ) : Option Hold → Option (Option Hold)
  | none => none
  | some h =>
    if h.owner = t then some (if h.count = 1 then none else some ⟨t, h.count - 1⟩) else none

variable {L σ ρ ε α : Type}

theorem getElem?_set_cases {l : List (Thread L σ ρ ε α)} {t u : ℕ} {a b : Thread L σ ρ ε α}
    (h : (l.set t a)[u]? = some b) : u = t ∧ b = a ∨ u ≠ t ∧ l[u]? = some b := by
  rw [List.getElem?_set] at h
  split_ifs at h with hij hlt
  · exact Or.inl ⟨hij.symm, (Option.some.inj h).symm⟩
  · exact Or.inr ⟨fun h => hij h.symm, h⟩

variable [DecidableEq L]

/-- The next step of the thread `t`. A release of a lock that is not the thread's own raises
`illegal`. -/
def step (illegal : ε) (t : ℕ) (s : State L σ ρ ε α) : Option (State L σ ρ ε α) :=
  match s.threads[t]? with
  | none => none
  | some ⟨.ret _, []⟩ => none
  | some ⟨.ret r, (l, k) :: frames⟩ =>
    match release t (s.locks l) with
    | some h => some
      { s with locks := Function.update s.locks l h, threads := s.threads.set t ⟨k r, frames⟩ }
    | none => some { s with threads := s.threads.set t ⟨k (.error illegal), frames⟩ }
  | some ⟨.act l f k, frames⟩ => some
    { s with
      data := Function.update s.data l (f (s.data l)).2
      threads := s.threads.set t ⟨k (f (s.data l)).1, frames⟩ }
  | some ⟨.sync l body k, frames⟩ =>
    (acquire t (s.locks l)).map fun h =>
      { s with
        locks := Function.update s.locks l (some h)
        threads := s.threads.set t ⟨body, (l, k) :: frames⟩ }

/-- The states that a run reaches, whichever thread makes the next step. -/
def Reaches (illegal : ε) : State L σ ρ ε α → State L σ ρ ε α → Prop :=
  Relation.ReflTransGen fun s s' => ∃ t, step illegal t s = some s'

/-- A run along a schedule of threads; `none` where it asks for a thread that can make no step. -/
def play (illegal : ε) : List ℕ → State L σ ρ ε α → Option (State L σ ρ ε α)
  | [], s => some s
  | t :: schedule, s => (step illegal t s).bind (play illegal schedule)

theorem reaches_of_play {illegal : ε} {schedule : List ℕ} {s s' : State L σ ρ ε α}
    (h : play illegal schedule s = some s') : Reaches illegal s s' := by
  induction schedule generalizing s with
  | nil =>
    cases Option.some.inj h
    exact .refl
  | cons t schedule ih =>
    obtain ⟨s'', hstep, hrest⟩ := Option.bind_eq_some_iff.1 h
    exact (ih hrest).head ⟨t, hstep⟩

/-- The threads before their first steps. -/
def initial (data : L → σ) (codes : List (Code L σ ρ ε α)) : State L σ ρ ε α :=
  ⟨fun _ => none, data, codes.map fun c => ⟨c, []⟩⟩

/-- How often the thread is in a section under `l`. -/
def Thread.depth (th : Thread L σ ρ ε α) (l : L) : ℕ := (th.frames.map Prod.fst).count l

/-- The thread has returned. -/
def Thread.Returned (th : Thread L σ ρ ε α) : Prop := th.frames = [] ∧ ∃ r, th.code = .ret r

/-! ## Who has a lock -/

/-- How often the thread `t` has taken a lock. -/
def held (t : ℕ) : Option Hold → ℕ
  | none => 0
  | some h => if h.owner = t then h.count else 0

/-- A thread has taken each lock as often as it is in a section under it, and a lock that is taken
is a thread's. -/
structure Balanced (s : State L σ ρ ε α) : Prop where
  held_eq : ∀ t th, s.threads[t]? = some th → ∀ l, held t (s.locks l) = th.depth l
  owned : ∀ l h, s.locks l = some h → 0 < h.count ∧ h.owner < s.threads.length

theorem balanced_initial (data : L → σ) (codes : List (Code L σ ρ ε α)) :
    Balanced (initial data codes) where
  held_eq t th hth l := by
    rw [initial, List.getElem?_map, Option.map_eq_some_iff] at hth
    obtain ⟨c, -, rfl⟩ := hth
    rfl
  owned l h hl := by cases hl

theorem held_acquire {t u : ℕ} {o : Option Hold} {h : Hold} (ho : acquire t o = some h) :
    held u (some h) = held u o + if u = t then 1 else 0 := by
  cases o with
  | none =>
    cases Option.some.inj ho
    by_cases hu : u = t
    · simp [held, hu]
    · simp [held, hu, Ne.symm hu]
  | some h' =>
    rw [acquire] at ho
    split_ifs at ho with hown
    cases Option.some.inj ho
    by_cases hu : u = t
    · simp [held, hu, hown]
    · simp [held, hu, hown, Ne.symm hu]

/-- A lock that the thread has taken can be released by it. -/
theorem exists_release {t : ℕ} {o : Option Hold} (ho : 0 < held t o) :
    ∃ o', release t o = some o' ∧ (∀ u, held u o = held u o' + if u = t then 1 else 0) ∧
      ∀ h', o' = some h' → 0 < h'.count ∧ h'.owner = t := by
  cases o with
  | none => exact absurd ho (lt_irrefl 0)
  | some h =>
    simp only [held] at ho
    split_ifs at ho with hown
    · simp only [release, if_pos hown]
      by_cases hcount : h.count = 1
      · refine ⟨none, by rw [if_pos hcount], fun u => ?_, fun h' h => by cases h⟩
        by_cases hu : u = t
        · simp [held, hu, hown, hcount]
        · simp [held, hu, hown, Ne.symm hu]
      · refine ⟨some ⟨t, h.count - 1⟩, by rw [if_neg hcount], fun u => ?_, fun h' h => ?_⟩
        · by_cases hu : u = t
          · simp only [held, hu, hown, if_true]
            omega
          · simp [held, hu, hown, Ne.symm hu]
        · cases Option.some.inj h
          exact ⟨by simp only; omega, rfl⟩
    · exact absurd ho (lt_irrefl 0)

/-- What a step of the thread `t` in a balanced state is: it leaves a section, acts, or enters a
section whose lock is free or its own. -/
inductive Stepped (t : ℕ) (s : State L σ ρ ε α) : State L σ ρ ε α → Prop
  | leave {r : Except ε α} {l : L} {k : Except ε α → Code L σ ρ ε α}
      {frames : Frames L σ ρ ε α} {o : Option Hold}
      (hth : s.threads[t]? = some ⟨.ret r, (l, k) :: frames⟩)
      (ho : release t (s.locks l) = some o)
      (hheld : ∀ u, held u (s.locks l) = held u o + if u = t then 1 else 0)
      (hown : ∀ h, o = some h → 0 < h.count ∧ h.owner = t) :
      Stepped t s ⟨Function.update s.locks l o, s.data, s.threads.set t ⟨k r, frames⟩⟩
  | act {l : L} {f : σ → ρ × σ} {k : ρ → Code L σ ρ ε α}
      {frames : Frames L σ ρ ε α}
      (hth : s.threads[t]? = some ⟨.act l f k, frames⟩) :
      Stepped t s ⟨s.locks, Function.update s.data l (f (s.data l)).2,
        s.threads.set t ⟨k (f (s.data l)).1, frames⟩⟩
  | enter {l : L} {body : Code L σ ρ ε α} {k : Except ε α → Code L σ ρ ε α}
      {frames : Frames L σ ρ ε α} {h : Hold}
      (hth : s.threads[t]? = some ⟨.sync l body k, frames⟩)
      (ho : acquire t (s.locks l) = some h) :
      Stepped t s ⟨Function.update s.locks l (some h), s.data,
        s.threads.set t ⟨body, (l, k) :: frames⟩⟩

theorem Balanced.stepped {illegal : ε} {t : ℕ} {s s' : State L σ ρ ε α} (hs : Balanced s)
    (h : step illegal t s = some s') : Stepped t s s' := by
  unfold step at h
  split at h
  · cases h
  · cases h
  · next r l k frames hth =>
    have hheld : 0 < held t (s.locks l) := by
      rw [hs.held_eq t _ hth l]
      simp [Thread.depth]
    obtain ⟨o, ho, hcount, hown⟩ := exists_release hheld
    rw [ho] at h
    cases Option.some.inj h
    exact .leave hth ho hcount hown
  · next l f k frames hth =>
    cases Option.some.inj h
    exact .act hth
  · next l body k frames hth =>
    obtain ⟨hold, ho, rfl⟩ := Option.map_eq_some_iff.1 h
    exact .enter hth ho

/-- A lock that changes hands as the depths of the threads do. -/
theorem Balanced.update {s : State L σ ρ ε α} (hs : Balanced s) {t : ℕ} {l : L} {o : Option Hold}
    {th th' : Thread L σ ρ ε α} (hth : s.threads[t]? = some th)
    (hother : ∀ l', l' ≠ l → th'.depth l' = th.depth l')
    (hheld : ∀ u, u ≠ t → held u o = held u (s.locks l)) (hme : held t o = th'.depth l)
    (hown : ∀ h, o = some h → 0 < h.count ∧ h.owner < s.threads.length) :
    Balanced ⟨Function.update s.locks l o, s.data, s.threads.set t th'⟩ where
  held_eq u thu hu l' := by
    simp only
    by_cases hl : l' = l
    · subst hl
      rw [Function.update_self]
      rcases getElem?_set_cases hu with ⟨rfl, rfl⟩ | ⟨hne, hu⟩
      · exact hme
      · rw [hheld u hne, hs.held_eq u thu hu]
    · rw [Function.update_of_ne hl]
      rcases getElem?_set_cases hu with ⟨rfl, rfl⟩ | ⟨hne, hu⟩
      · rw [hs.held_eq u th hth, hother l' hl]
      · exact hs.held_eq u thu hu l'
  owned l' h hl' := by
    simp only [List.length_set]
    by_cases hl : l' = l
    · subst hl
      simp only [Function.update_self] at hl'
      exact hown h hl'
    · simp only [Function.update_of_ne hl] at hl'
      exact hs.owned l' h hl'

theorem Balanced.step {illegal : ε} {t : ℕ} {s s' : State L σ ρ ε α} (hs : Balanced s)
    (h : step illegal t s = some s') : Balanced s' := by
  cases hs.stepped h with
  | @leave r l k frames o hth ho hheld hown =>
    have hlen : t < s.threads.length := (List.getElem?_eq_some_iff.1 hth).1
    refine hs.update hth (fun l' hl' => ?_) (fun u hu => ?_) ?_ fun h' ho' => ?_
    · simp [Thread.depth, Ne.symm hl']
    · simp [hheld u, hu]
    · have hdepth := hs.held_eq t _ hth l
      rw [hheld t] at hdepth
      simpa [Thread.depth] using hdepth
    · exact ⟨(hown h' ho').1, (hown h' ho').2 ▸ hlen⟩
  | @act l f k frames hth =>
    refine ⟨fun u th hu l' => ?_, fun l' h hl' => ?_⟩
    · rcases getElem?_set_cases hu with ⟨rfl, rfl⟩ | ⟨-, hu⟩
      · exact hs.held_eq u _ hth l'
      · exact hs.held_eq u th hu l'
    · simpa using hs.owned l' h hl'
  | @enter l body k frames hold hth ho =>
    have hlen : t < s.threads.length := (List.getElem?_eq_some_iff.1 hth).1
    refine hs.update hth (fun l' hl' => ?_) (fun u hu => ?_) ?_ fun h' ho' => ?_
    · simp [Thread.depth, Ne.symm hl']
    · simp [held_acquire ho, hu]
    · rw [held_acquire ho, hs.held_eq t _ hth l]
      simp [Thread.depth]
    · cases Option.some.inj ho'
      have hpos : held t (some hold) ≠ 0 := by simp [held_acquire ho]
      simp only [held] at hpos
      split_ifs at hpos with hown
      · exact ⟨Nat.pos_of_ne_zero hpos, hown ▸ hlen⟩
      · exact absurd rfl hpos

theorem Balanced.run {illegal : ε} {s s' : State L σ ρ ε α} (hs : Balanced s)
    (h : Reaches illegal s s') : Balanced s' := by
  induction h with
  | refl => exact hs
  | tail _ hstep ih =>
    obtain ⟨t, ht⟩ := hstep
    exact ih.step ht

theorem owner_of_held {t : ℕ} {o : Option Hold} (ho : 0 < held t o) :
    ∃ h, o = some h ∧ h.owner = t := by
  cases o with
  | none => exact absurd ho (lt_irrefl 0)
  | some h =>
    simp only [held] at ho
    split_ifs at ho with hown
    · exact ⟨h, rfl, hown⟩
    · exact absurd ho (lt_irrefl 0)

/-- **Two threads in sections under one lock are the same thread.** -/
theorem Balanced.exclusive {s : State L σ ρ ε α} (hs : Balanced s) {t u : ℕ}
    {th thu : Thread L σ ρ ε α} {l : L} (ht : s.threads[t]? = some th)
    (hu : s.threads[u]? = some thu)
    (htl : 0 < th.depth l) (hul : 0 < thu.depth l) : t = u := by
  rw [← hs.held_eq t th ht] at htl
  rw [← hs.held_eq u thu hu] at hul
  obtain ⟨h, hl, rfl⟩ := owner_of_held htl
  obtain ⟨h', hl', rfl⟩ := owner_of_held hul
  rw [hl] at hl'
  rw [Option.some.inj hl']

/-- A lock that no thread is in a section of is free. -/
theorem Balanced.free {s : State L σ ρ ε α} (hs : Balanced s) {l : L}
    (h : ∀ (t : ℕ) (th : Thread L σ ρ ε α), s.threads[t]? = some th → th.depth l = 0) :
    s.locks l = none := by
  cases hl : s.locks l with
  | none => rfl
  | some hold =>
    obtain ⟨hpos, hown⟩ := hs.owned l hold hl
    have hth : s.threads[hold.owner]? = some s.threads[hold.owner] := List.getElem?_eq_getElem hown
    have hdepth := hs.held_eq _ _ hth l
    rw [h _ _ hth, hl] at hdepth
    simp only [held, if_true] at hdepth
    omega

/-! ## No deadlock -/

/-- A thread that can make no step has returned, or is about to take a lock that another thread
has. -/
theorem returned_or_waits {illegal : ε} {t : ℕ} {s : State L σ ρ ε α} {th : Thread L σ ρ ε α}
    (hth : s.threads[t]? = some th) (hstep : step illegal t s = none) :
    th.Returned ∨ ∃ l body k h, th.code = .sync l body k ∧ s.locks l = some h ∧ h.owner ≠ t := by
  obtain ⟨code, frames⟩ := th
  cases code with
  | ret r =>
    cases frames with
    | nil => exact Or.inl ⟨rfl, r, rfl⟩
    | cons f frames =>
      simp only [step, hth] at hstep
      cases ho : release t (s.locks f.1) <;> simp [ho] at hstep
  | act l f k =>
    simp [step, hth] at hstep
  | sync l body k =>
    simp only [step, hth, Option.map_eq_none_iff] at hstep
    cases hl : s.locks l with
    | none => simp [hl, acquire] at hstep
    | some h =>
      simp only [hl, acquire, ite_eq_right_iff, reduceCtorEq, imp_false] at hstep
      exact Or.inr ⟨l, body, k, h, rfl, hl, hstep⟩

section Order

variable [LT L]

/-- Inside sections under the locks `held`, the text takes only locks of these and locks above all
of them. -/
def Code.Ascends : List L → Code L σ ρ ε α → Prop
  | _, .ret _ => True
  | held, .act _ _ k => ∀ v, (k v).Ascends held
  | held, .sync l body k =>
    (l ∈ held ∨ ∀ l' ∈ held, l' < l) ∧ body.Ascends (l :: held) ∧ ∀ r, (k r).Ascends held

/-- What a thread does next takes ascending locks, in the sections it is in and after them. -/
def Ascending : Frames L σ ρ ε α → Code L σ ρ ε α → Prop
  | [], c => c.Ascends []
  | (l, k) :: frames, c =>
    c.Ascends (l :: frames.map Prod.fst) ∧ ∀ r, Ascending frames (k r)

omit [DecidableEq L] in
theorem Ascending.ascends {frames : Frames L σ ρ ε α}
    {c : Code L σ ρ ε α} (h : Ascending frames c) : c.Ascends (frames.map Prod.fst) := by
  cases frames with
  | nil => exact h
  | cons f frames => exact h.1

omit [DecidableEq L] in
theorem Ascending.of_ascends {frames : Frames L σ ρ ε α}
    {c c' : Code L σ ρ ε α} (h : Ascending frames c) (hc : c'.Ascends (frames.map Prod.fst)) :
    Ascending frames c' := by
  cases frames with
  | nil => exact hc
  | cons f frames => exact ⟨hc, h.2⟩

/-- Every thread takes ascending locks. -/
def State.Ascending (s : State L σ ρ ε α) : Prop :=
  ∀ (t : ℕ) (th : Thread L σ ρ ε α), s.threads[t]? = some th → Monitor.Ascending th.frames th.code

theorem State.Ascending.step {illegal : ε} {t : ℕ} {s s' : State L σ ρ ε α} (hs : Balanced s)
    (h : s.Ascending) (hstep : step illegal t s = some s') : s'.Ascending := by
  intro u th hu
  cases hs.stepped hstep with
  | leave hth =>
    rcases getElem?_set_cases hu with ⟨-, rfl⟩ | ⟨-, hu⟩
    · exact (h t _ hth).2 _
    · exact h u th hu
  | act hth =>
    rcases getElem?_set_cases hu with ⟨-, rfl⟩ | ⟨-, hu⟩
    · exact (h t _ hth).of_ascends ((h t _ hth).ascends _)
    · exact h u th hu
  | enter hth =>
    rcases getElem?_set_cases hu with ⟨-, rfl⟩ | ⟨-, hu⟩
    · obtain ⟨-, hbody, hk⟩ := (h t _ hth).ascends
      exact ⟨hbody, fun r => (h t _ hth).of_ascends (hk r)⟩
    · exact h u th hu

theorem State.Ascending.run {illegal : ε} {s s' : State L σ ρ ε α} (hs : Balanced s)
    (h : s.Ascending) (hrun : Reaches illegal s s') : s'.Ascending := by
  induction hrun with
  | refl => exact h
  | tail hrun hstep ih =>
    obtain ⟨t, ht⟩ := hstep
    exact ih.step (hs.run hrun) ht

omit [DecidableEq L] in
theorem ascending_initial {data : L → σ} {codes : List (Code L σ ρ ε α)}
    (h : ∀ c ∈ codes, c.Ascends []) : (initial data codes).Ascending := by
  intro t th hth
  rw [initial, List.getElem?_map, Option.map_eq_some_iff] at hth
  obtain ⟨c, hc, rfl⟩ := hth
  exact h c (List.mem_of_getElem? hc)

/-- **Some thread can make a step until all have returned**, if nested locks go up. -/
theorem Balanced.progress [WellFoundedGT L] {illegal : ε} {s : State L σ ρ ε α} (hs : Balanced s)
    (hasc : s.Ascending) (hstuck : ∀ t, Monitor.step illegal t s = none) :
    ∀ th ∈ s.threads, th.Returned := by
  -- no lock is waited for: the thread that has it would wait for one above
  have hnone : ∀ (l : L) (h : Hold), s.locks l = some h → ∀ t th body k, s.threads[t]? = some th →
      th.code = .sync l body k → h.owner = t := by
    intro l
    induction l using WellFoundedGT.induction with
    | ind l ih =>
      intro h hl t th body k hth hcode
      by_contra hne
      obtain ⟨hpos, hlen⟩ := hs.owned l h hl
      have howner : s.threads[h.owner]? = some s.threads[h.owner] := List.getElem?_eq_getElem hlen
      have hdepth : 0 < (s.threads[h.owner]).depth l := by
        rw [← hs.held_eq _ _ howner, hl]
        simpa [held] using hpos
      have hmem : l ∈ (s.threads[h.owner]).frames.map Prod.fst := List.count_pos_iff.1 hdepth
      rcases returned_or_waits howner (hstuck _) with hret | ⟨l', body', k', h', hcode', hl', hne'⟩
      · rw [hret.1] at hmem
        cases hmem
      · have hnext := (hasc _ _ howner).ascends
        rw [hcode'] at hnext
        rcases hnext.1 with hin | hup
        · -- a lock that the thread has is its own
          have hheld : 0 < held h.owner (s.locks l') := by
            rw [hs.held_eq _ _ howner]
            exact List.count_pos_iff.2 hin
          obtain ⟨h'', hl'', hown⟩ := owner_of_held hheld
          rw [hl'] at hl''
          exact hne' (Option.some.inj hl'' ▸ hown)
        · exact hne' (ih l' (hup l hmem) h' hl' _ _ body' k' howner hcode')
  intro th hmem
  obtain ⟨t, ht, rfl⟩ := List.getElem_of_mem hmem
  have hth : s.threads[t]? = some s.threads[t] := List.getElem?_eq_getElem ht
  rcases returned_or_waits hth (hstuck t) with hret | ⟨l, body, k, h, hcode, hl, hne⟩
  · exact hret
  · exact absurd (hnone l h hl t _ body k hth hcode) hne

end Order

/-! ## One section after the other -/

/-- A text that acts on the data of `l` only and takes no other lock. -/
def Code.Within (l : L) : Code L σ ρ ε α → Prop
  | .ret _ => True
  | .act l' _ k => l' = l ∧ ∀ v, (k v).Within l
  | .sync l' body k => l' = l ∧ body.Within l ∧ ∀ r, (k r).Within l

/-- A text that acts inside sections only, and in each of them on the data of its lock. -/
def Code.Confined : Code L σ ρ ε α → Prop
  | .ret _ => True
  | .act _ _ _ => False
  | .sync l body k => body.Within l ∧ ∀ r, (k r).Confined

omit [DecidableEq L] in
theorem Code.Within.ascends [LT L] {l : L} {held : List L} {c : Code L σ ρ ε α}
    (hl : l ∈ held) (h : c.Within l) : c.Ascends held := by
  induction c generalizing held with
  | ret r => trivial
  | act l' f k ih => exact fun v => ih v hl (h.2 v)
  | sync l' body k ihbody ihk =>
    obtain ⟨rfl, hbody, hk⟩ := h
    exact ⟨Or.inl hl, ihbody (List.mem_cons_of_mem _ hl) hbody, fun r => ihk r hl (hk r)⟩

/-- A text that runs alone on the data of its lock: its outcome, and the data after it. -/
def Code.run : Code L σ ρ ε α → σ → Except ε α × σ
  | .ret r, d => (r, d)
  | .act _ f k, d => (k (f d).1).run (f d).2
  | .sync _ body k, d => (k (body.run d).1).run (body.run d).2

/-- The data, and what the threads do next. -/
@[ext] structure Serial (L σ ρ ε α : Type) where
  data : L → σ
  codes : List (Code L σ ρ ε α)

/-- The thread `t` runs its next section in one go. -/
def serialStep (t : ℕ) (s : Serial L σ ρ ε α) : Option (Serial L σ ρ ε α) :=
  match s.codes[t]? with
  | some (.sync l body k) => some
    { data := Function.update s.data l (body.run (s.data l)).2
      codes := s.codes.set t (k (body.run (s.data l)).1) }
  | _ => none

/-- Section after section. -/
def Serially : Serial L σ ρ ε α → Serial L σ ρ ε α → Prop :=
  Relation.ReflTransGen fun s s' => ∃ t, serialStep t s = some s'

/-- What is left of the sections that a thread is in, run in one go: what the thread does after
them, and the data after them. -/
def settle : Code L σ ρ ε α → Frames L σ ρ ε α → σ → Code L σ ρ ε α × σ
  | c, [], d => (c, d)
  | c, (_, k) :: frames, d => settle (k (c.run d).1) frames (c.run d).2

/-- The thread after the sections it is in. -/
def Thread.settled (data : L → σ) (th : Thread L σ ρ ε α) : Code L σ ρ ε α :=
  match th.frames with
  | [] => th.code
  | (l, _) :: _ => (settle th.code th.frames (data l)).1

/-- The data of `l` after the sections under it. -/
def State.settledData (s : State L σ ρ ε α) (l : L) : σ :=
  match (s.locks l).bind fun h => s.threads[h.owner]? with
  | none => s.data l
  | some th => (settle th.code th.frames (s.data l)).2

/-- A state in which every section that was entered counts as done. -/
def State.settled (s : State L σ ρ ε α) : Serial L σ ρ ε α :=
  ⟨s.settledData, s.threads.map (Thread.settled s.data)⟩

/-- What a thread does next, in sections under one lock and after them. -/
def Inside : Frames L σ ρ ε α → Code L σ ρ ε α → Prop
  | [], c => c.Confined
  | (l, k) :: frames, c =>
    c.Within l ∧ (∀ f ∈ frames, f.1 = l) ∧ ∀ r, Inside frames (k r)

/-- Every thread acts in sections only, and on the data of their lock. -/
def State.Confined (s : State L σ ρ ε α) : Prop :=
  ∀ (t : ℕ) (th : Thread L σ ρ ε α), s.threads[t]? = some th → Inside th.frames th.code

omit [DecidableEq L] in
theorem confined_initial {data : L → σ} {codes : List (Code L σ ρ ε α)}
    (h : ∀ c ∈ codes, c.Confined) : (initial data codes).Confined := by
  intro t th hth
  rw [initial, List.getElem?_map, Option.map_eq_some_iff] at hth
  obtain ⟨c, hc, rfl⟩ := hth
  exact h c (List.mem_of_getElem? hc)

theorem State.Confined.step {illegal : ε} {t : ℕ} {s s' : State L σ ρ ε α} (hs : Balanced s)
    (h : s.Confined) (hstep : step illegal t s = some s') : s'.Confined := by
  intro u th hu
  cases hs.stepped hstep with
  | leave hth =>
    rcases getElem?_set_cases hu with ⟨-, rfl⟩ | ⟨-, hu⟩
    · exact (h t _ hth).2.2 _
    · exact h u th hu
  | @act l f k frames hth =>
    rcases getElem?_set_cases hu with ⟨-, rfl⟩ | ⟨-, hu⟩
    · have hin := h t _ hth
      cases frames with
      | nil => exact hin.elim
      | cons frame frames => exact ⟨hin.1.2 _, hin.2⟩
    · exact h u th hu
  | @enter l body k frames hold hth ho =>
    rcases getElem?_set_cases hu with ⟨-, rfl⟩ | ⟨-, hu⟩
    · have hin := h t _ hth
      cases frames with
      | nil => exact ⟨hin.1, by simp, hin.2⟩
      | cons frame frames =>
        obtain ⟨⟨rfl, hbody, hk⟩, hall, hafter⟩ := hin
        refine ⟨hbody, fun f hf => ?_, fun r => ⟨hk r, hall, hafter⟩⟩
        rcases List.mem_cons.1 hf with rfl | hf
        · rfl
        · exact hall f hf
    · exact h u th hu

theorem State.Confined.run {illegal : ε} {s s' : State L σ ρ ε α} (hs : Balanced s)
    (h : s.Confined) (hrun : Reaches illegal s s') : s'.Confined := by
  induction hrun with
  | refl => exact h
  | tail hrun hstep ih =>
    obtain ⟨t, ht⟩ := hstep
    exact ih.step (hs.run hrun) ht

/-- A thread in a section under `l` is in sections under `l` only. -/
theorem State.Confined.depth_eq_zero {s : State L σ ρ ε α} (h : s.Confined) {t : ℕ}
    {c : Code L σ ρ ε α} {l l' : L} {k : Except ε α → Code L σ ρ ε α}
    {frames : Frames L σ ρ ε α}
    (hth : s.threads[t]? = some ⟨c, (l, k) :: frames⟩) (hne : l' ≠ l) :
    Thread.depth ⟨c, (l, k) :: frames⟩ l' = 0 := by
  have hall : ∀ f ∈ frames, f.1 = l := (h t _ hth).2.1
  rw [Thread.depth, List.count_eq_zero]
  intro hmem
  obtain ⟨f, hf, rfl⟩ := List.mem_map.1 hmem
  rcases List.mem_cons.1 hf with rfl | hf
  · exact hne rfl
  · exact hne (hall f hf)

theorem Balanced.settledData_of_depth {s : State L σ ρ ε α} (hs : Balanced s) {t : ℕ}
    {th : Thread L σ ρ ε α} {l : L} (hth : s.threads[t]? = some th) (hl : 0 < th.depth l) :
    s.settledData l = (settle th.code th.frames (s.data l)).2 := by
  rw [← hs.held_eq t th hth] at hl
  obtain ⟨h, hlock, rfl⟩ := owner_of_held hl
  simp [State.settledData, hlock, hth]

/-- A step of a thread that is in no section under `l`, before or after it. -/
theorem Balanced.settledData_eq {s s' : State L σ ρ ε α} (hs : Balanced s) {t : ℕ}
    {th th' : Thread L σ ρ ε α} {l : L} (hth : s.threads[t]? = some th)
    (hset : s'.threads = s.threads.set t th') (hdepth : th.depth l = 0)
    (hlock : s'.locks l = s.locks l) (hdata : s'.data l = s.data l) :
    s'.settledData l = s.settledData l := by
  rw [State.settledData, State.settledData, hlock, hdata, hset]
  cases hl : s.locks l with
  | none => rfl
  | some h =>
    have hne : t ≠ h.owner := by
      rintro rfl
      have hheld := hs.held_eq _ th hth l
      have hpos := (hs.owned l h hl).1
      rw [hdepth, hl] at hheld
      simp only [held, if_true] at hheld
      omega
    simp [List.getElem?_set_ne hne]

theorem set_eq_self {β : Type} {xs : List β} {t : ℕ} {x : β} (h : xs[t]? = some x) :
    xs.set t x = xs := by
  obtain ⟨ht, rfl⟩ := List.getElem?_eq_some_iff.1 h
  exact List.set_getElem_self ht

omit [DecidableEq L] in
/-- A step of one thread changes what comes after the sections of that thread only, if the others
are in no section under a lock whose data changes. -/
theorem codes_settled {s : State L σ ρ ε α} {locks : L → Option Hold} {data : L → σ} {t : ℕ}
    {th' : Thread L σ ρ ε α}
    (hother : ∀ u thu, u ≠ t → s.threads[u]? = some thu → thu.settled data = thu.settled s.data) :
    (State.settled ⟨locks, data, s.threads.set t th'⟩).codes =
      s.settled.codes.set t (th'.settled data) := by
  refine List.ext_getElem? fun u => ?_
  simp only [State.settled, List.getElem?_map, List.getElem?_set, List.length_map]
  by_cases hu : t = u
  · subst hu
    by_cases ht : t < s.threads.length
    · simp [ht]
    · simp [ht]
  · simp only [hu, if_false]
    cases hthu : s.threads[u]? with
    | none => rfl
    | some thu => exact congrArg some (hother u thu (Ne.symm hu) hthu)

omit [DecidableEq L] in
/-- Where a thread is in sections under `l` only, what comes after them is what is left of them on
the data of `l`. -/
theorem settled_eq_settle {data : L → σ} {c : Code L σ ρ ε α} {frames : Frames L σ ρ ε α} {l : L}
    (hall : ∀ f ∈ frames, f.1 = l) :
    Thread.settled data ⟨c, frames⟩ = (settle c frames (data l)).1 := by
  cases frames with
  | nil => rfl
  | cons f frames =>
    obtain ⟨l', k⟩ := f
    have hl : l' = l := hall _ List.mem_cons_self
    rw [Thread.settled, hl]

/-- The same of the data, where the thread is in a section under `l` or `l` is free. -/
theorem Balanced.settledData_eq_settle {s : State L σ ρ ε α} (hs : Balanced s) {t : ℕ}
    {c : Code L σ ρ ε α} {frames : Frames L σ ρ ε α} {l : L}
    (hth : s.threads[t]? = some ⟨c, frames⟩) (hall : ∀ f ∈ frames, f.1 = l)
    (hfree : frames = [] → s.locks l = none) :
    s.settledData l = (settle c frames (s.data l)).2 := by
  cases frames with
  | nil => simp [State.settledData, hfree rfl, settle]
  | cons f frames =>
    have hl : f.1 = l := hall f List.mem_cons_self
    exact hs.settledData_of_depth hth (by simp [Thread.depth, hl])

theorem settled_leave {s : State L σ ρ ε α} (hs : Balanced s) (hc : s.Confined) {t : ℕ}
    {r : Except ε α} {l : L} {k : Except ε α → Code L σ ρ ε α} {frames : Frames L σ ρ ε α}
    {o : Option Hold} (hth : s.threads[t]? = some ⟨.ret r, (l, k) :: frames⟩)
    (hs' : Balanced ⟨Function.update s.locks l o, s.data, s.threads.set t ⟨k r, frames⟩⟩)
    (hown : ∀ h, o = some h → 0 < h.count ∧ h.owner = t) :
    State.settled ⟨Function.update s.locks l o, s.data, s.threads.set t ⟨k r, frames⟩⟩ =
      s.settled := by
  have hlen : t < s.threads.length := (List.getElem?_eq_some_iff.1 hth).1
  have hth' : (s.threads.set t ⟨k r, frames⟩)[t]? = some ⟨k r, frames⟩ :=
    List.getElem?_set_self hlen
  have hall : ∀ f ∈ frames, f.1 = l := (hc t _ hth).2.1
  have hall' : ∀ f ∈ (l, k) :: frames, f.1 = l := List.forall_mem_cons.2 ⟨rfl, hall⟩
  refine Serial.ext (funext fun l' => ?_) ?_
  · change State.settledData _ l' = s.settledData l'
    by_cases hl : l' = l
    · subst hl
      rw [hs'.settledData_eq_settle hth' hall fun hnil => ?_,
        hs.settledData_eq_settle hth hall' (fun h => by cases h)]
      · rfl
      · -- the outermost section is left: then the lock is free
        have hheld := hs'.held_eq t _ hth' l'
        subst hnil
        simp only [Function.update_self, Thread.depth, List.map_nil, List.count_nil] at hheld ⊢
        cases ho : o with
        | none => rfl
        | some h =>
          obtain ⟨hpos, hmine⟩ := hown h ho
          simp only [ho, held, hmine, if_true] at hheld
          omega
    · exact hs.settledData_eq hth rfl (hc.depth_eq_zero hth hl) (Function.update_of_ne hl _ _) rfl
  · rw [codes_settled fun u thu _ _ => rfl]
    refine set_eq_self ?_
    simp only [State.settled, List.getElem?_map, hth, Option.map_some]
    rw [settled_eq_settle hall', settled_eq_settle hall]
    rfl

theorem settled_act {s : State L σ ρ ε α} (hs : Balanced s) (hc : s.Confined) {t : ℕ} {l : L}
    {f : σ → ρ × σ} {k : ρ → Code L σ ρ ε α} {frames : Frames L σ ρ ε α}
    (hth : s.threads[t]? = some ⟨.act l f k, frames⟩)
    (hs' : Balanced ⟨s.locks, Function.update s.data l (f (s.data l)).2,
      s.threads.set t ⟨k (f (s.data l)).1, frames⟩⟩) :
    State.settled ⟨s.locks, Function.update s.data l (f (s.data l)).2,
      s.threads.set t ⟨k (f (s.data l)).1, frames⟩⟩ = s.settled := by
  have hlen : t < s.threads.length := (List.getElem?_eq_some_iff.1 hth).1
  have hth' : (s.threads.set t ⟨k (f (s.data l)).1, frames⟩)[t]? =
      some ⟨k (f (s.data l)).1, frames⟩ := List.getElem?_set_self hlen
  -- the thread is in a section, which is under the lock of what it acts on
  obtain ⟨l', k', frames, rfl⟩ : ∃ l' k' frames', frames = (l', k') :: frames' := by
    cases frames with
    | nil => exact (hc t _ hth).elim
    | cons frame frames => exact ⟨_, _, _, rfl⟩
  obtain ⟨⟨rfl, -⟩, hall, -⟩ := hc t _ hth
  have hall' : ∀ f ∈ (l, k') :: frames, f.1 = l := List.forall_mem_cons.2 ⟨rfl, hall⟩
  refine Serial.ext (funext fun l' => ?_) ?_
  · change State.settledData _ l' = s.settledData l'
    by_cases hl : l' = l
    · subst hl
      rw [hs'.settledData_eq_settle hth' hall' (fun h => by cases h),
        hs.settledData_eq_settle hth hall' (fun h => by cases h)]
      simp [settle, Code.run]
    · exact hs.settledData_eq hth rfl (hc.depth_eq_zero hth hl) rfl (Function.update_of_ne hl _ _)
  · rw [codes_settled fun u thu hu hthu => ?_]
    · refine set_eq_self ?_
      simp only [State.settled, List.getElem?_map, hth, Option.map_some]
      rw [settled_eq_settle hall', settled_eq_settle hall']
      simp [settle, Code.run]
    · -- no other thread is in a section under `l`
      obtain ⟨c, frames'⟩ := thu
      cases frames' with
      | nil => rfl
      | cons frame frames' =>
        have hne : frame.1 ≠ l := by
          intro hl
          refine hu (hs.exclusive hthu hth (l := l) ?_ ?_)
          · simp [Thread.depth, hl]
          · simp [Thread.depth]
        simp [Thread.settled, Function.update_of_ne hne]

theorem settled_enter {s : State L σ ρ ε α} (hs : Balanced s) (hc : s.Confined) {t : ℕ} {l : L}
    {body : Code L σ ρ ε α} {k : Except ε α → Code L σ ρ ε α} {frames : Frames L σ ρ ε α}
    {h : Hold} (hth : s.threads[t]? = some ⟨.sync l body k, frames⟩)
    (ho : acquire t (s.locks l) = some h)
    (hs' : Balanced ⟨Function.update s.locks l (some h), s.data,
      s.threads.set t ⟨body, (l, k) :: frames⟩⟩) :
    State.settled ⟨Function.update s.locks l (some h), s.data,
        s.threads.set t ⟨body, (l, k) :: frames⟩⟩ = s.settled ∨
      serialStep t s.settled = some (State.settled ⟨Function.update s.locks l (some h), s.data,
        s.threads.set t ⟨body, (l, k) :: frames⟩⟩) := by
  have hlen : t < s.threads.length := (List.getElem?_eq_some_iff.1 hth).1
  have hth' : (s.threads.set t ⟨body, (l, k) :: frames⟩)[t]? = some ⟨body, (l, k) :: frames⟩ :=
    List.getElem?_set_self hlen
  have hin := hc t _ hth
  cases frames with
  | nil =>
    -- an outermost section: its lock is free
    refine Or.inr ?_
    have hfree : s.locks l = none := by
      cases hl : s.locks l with
      | none => rfl
      | some h' =>
        rw [hl, acquire] at ho
        split_ifs at ho with hown
        have hheld := hs.held_eq t _ hth l
        have hpos := (hs.owned l h' hl).1
        simp only [hl, held, hown, if_true, Thread.depth, List.map_nil, List.count_nil] at hheld
        omega
    have hcode : s.settled.codes[t]? = some (.sync l body k) := by
      simp [State.settled, hth, Thread.settled]
    rw [serialStep, hcode]
    refine congrArg some (Serial.ext (funext fun l' => ?_) ?_)
    · change Function.update s.settledData l (body.run (s.settledData l)).2 l' =
        State.settledData _ l'
      have hdata : s.settledData l = s.data l := by simp [State.settledData, hfree]
      by_cases hl : l' = l
      · subst hl
        rw [Function.update_self, hdata, hs'.settledData_eq_settle hth' (by simp)
          fun h => by cases h]
        rfl
      · rw [Function.update_of_ne hl]
        refine Eq.symm ?_
        exact hs.settledData_eq hth rfl rfl (Function.update_of_ne hl _ _) rfl
    · have hdata : s.settledData l = s.data l := by simp [State.settledData, hfree]
      rw [codes_settled fun u thu _ _ => rfl]
      simp only [State.settled, hdata]
      rw [settled_eq_settle (l := l) (by simp)]
      rfl
  | cons frame frames =>
    -- a nested section is part of the one around it
    refine Or.inl ?_
    obtain ⟨l', k'⟩ := frame
    obtain ⟨⟨rfl, -⟩, hall, -⟩ := hin
    have hall' : ∀ f ∈ (l, k') :: frames, f.1 = l := List.forall_mem_cons.2 ⟨rfl, hall⟩
    have hall'' : ∀ f ∈ (l, k) :: (l, k') :: frames, f.1 = l :=
      List.forall_mem_cons.2 ⟨rfl, hall'⟩
    refine Serial.ext (funext fun l' => ?_) ?_
    · change State.settledData _ l' = s.settledData l'
      by_cases hl : l' = l
      · subst hl
        rw [hs'.settledData_eq_settle hth' hall'' (fun h => by cases h),
          hs.settledData_eq_settle hth hall' (fun h => by cases h)]
        rfl
      · exact hs.settledData_eq hth rfl (hc.depth_eq_zero hth hl) (Function.update_of_ne hl _ _)
          rfl
    · rw [codes_settled fun u thu _ _ => rfl]
      refine set_eq_self ?_
      simp only [State.settled, List.getElem?_map, hth, Option.map_some]
      rw [settled_eq_settle hall', settled_eq_settle hall'']
      rfl

/-- **A step leaves the settled state alone, or runs one section in one go.** -/
theorem Balanced.settled_step {illegal : ε} {t : ℕ} {s s' : State L σ ρ ε α} (hs : Balanced s)
    (hc : s.Confined) (hstep : Monitor.step illegal t s = some s') :
    s'.settled = s.settled ∨ serialStep t s.settled = some s'.settled := by
  have hs' : Balanced s' := hs.step hstep
  cases hs.stepped hstep with
  | leave hth _ _ hown => exact Or.inl (settled_leave hs hc hth hs' hown)
  | act hth => exact Or.inl (settled_act hs hc hth hs')
  | enter hth ho => exact settled_enter hs hc hth ho hs'

/-- **A run settles as one in which the sections run one after the other.** -/
theorem Balanced.run_serial {illegal : ε} {s s' : State L σ ρ ε α} (hs : Balanced s)
    (hc : s.Confined) (hrun : Reaches illegal s s') : Serially s.settled s'.settled := by
  induction hrun with
  | refl => exact .refl
  | tail hrun hstep ih =>
    obtain ⟨t, ht⟩ := hstep
    rcases (hs.run hrun).settled_step (hc.run hs hrun) ht with heq | hserial
    · rw [heq]
      exact ih
    · exact ih.tail ⟨t, hserial⟩

omit [DecidableEq L] in
@[simp] theorem settled_initial (data : L → σ) (codes : List (Code L σ ρ ε α)) :
    (initial data codes).settled = ⟨data, codes⟩ := by
  have hcodes : codes.map (Thread.settled data ∘ fun c => ⟨c, []⟩) = codes := List.map_id codes
  simp only [State.settled, initial, List.map_map, hcodes]
  rfl

end Monitor
