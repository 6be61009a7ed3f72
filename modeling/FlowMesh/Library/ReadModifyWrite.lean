import FlowMesh.Library.Machine
import Mathlib.Data.List.Basic
import Mathlib.Logic.Function.Basic

/-!
# Appending by reading and writing back

Any number of parties append to a list that they share, each by looking at it and by putting it back
later with an entry of its own. What another party put in between is lost. `perm_iff_every`: at the
end the list holds what was there and every entry once exactly if each party found, when it put its
list, the one that it had looked at.

What carries this is a count: as long as no entry is lost, the list is as long as it should be, and
a list that was looked at and has been passed since is shorter (`Complete`); with the first entry
that is lost all of them are too short, for good (`Lossy`).
-/

namespace ReadModifyWrite

variable {ι ε : Type}

/-- The list that is shared, the lists that parties have looked at, and who put a list so far. -/
structure Register (ι ε : Type) where
  value : List ε
  seen : ι → Option (List ε)
  log : List ι

/-- A list that nobody has looked at. -/
def Register.init (value : List ε) : Register ι ε := ⟨value, fun _ => none, []⟩

/-- What a party does. -/
inductive Access (ι : Type)
  | look (i : ι)
  | put (i : ι)
  | rest

variable (entry : ι → ε)

/-- A step: a list is put by a party that holds one. -/
def step [DecidableEq ι] (r : Register ι ε) : Access ι → Unit × Register ι ε
  | .look i => ((), { r with seen := Function.update r.seen i (some r.value) })
  | .put i => ((), match r.seen i with
    | some l => ⟨l ++ [entry i], Function.update r.seen i none, r.log ++ [i]⟩
    | none => r)
  | .rest => ((), r)

/-- A party that puts a list finds the one that it looked at. -/
def Fresh (r : Register ι ε) : Access ι → Prop
  | .put i => ∀ l, r.seen i = some l → l = r.value
  | _ => True

section Steps

variable {entry} {v : List ε} {r : Register ι ε}

/-- Nothing is lost so far: what is not the list any more is shorter. -/
structure Complete (entry : ι → ε) (v : List ε) (r : Register ι ε) : Prop where
  value : r.value = v ++ r.log.map entry
  seen : ∀ i l, r.seen i = some l → l = r.value ∨ l.length < r.value.length

/-- Something is lost: every list is too short. -/
structure Lossy (v : List ε) (r : Register ι ε) : Prop where
  value : r.value.length < v.length + r.log.length
  seen : ∀ i l, r.seen i = some l → l.length < v.length + r.log.length

theorem Complete.length (h : Complete entry v r) :
    r.value.length = v.length + r.log.length := by
  rw [h.value, List.length_append, List.length_map]

theorem Lossy.not_perm (h : Lossy v r) : ¬ r.value.Perm (v ++ r.log.map entry) := by
  intro hperm
  have hlength := hperm.length_eq
  rw [List.length_append, List.length_map] at hlength
  exact absurd h.value (by omega)

variable [DecidableEq ι]

/-- A list that was looked at before an update is one of the others', or dropped. -/
theorem seen_update {i j : ι} {l : List ε} {l? : Option (List ε)}
    (h : Function.update r.seen i l? j = some l) : l? = some l ∨ r.seen j = some l := by
  by_cases hj : j = i
  · subst hj
    rw [Function.update_self] at h
    exact Or.inl h
  · rw [Function.update_of_ne hj] at h
    exact Or.inr h

/-- A step with a list that is fresh loses nothing. -/
theorem Complete.step (h : Complete entry v r) {a : Access ι} (ha : Fresh r a) :
    Complete entry v (step entry r a).2 := by
  cases a with
  | look i =>
    refine ⟨h.value, fun j l hl => ?_⟩
    rcases seen_update hl with hl | hl
    · exact Or.inl (Option.some.inj hl).symm
    · exact h.seen j l hl
  | put i =>
    cases hseen : r.seen i with
    | none =>
      simp only [ReadModifyWrite.step, hseen]
      exact h
    | some l =>
      obtain rfl := ha l hseen
      simp only [ReadModifyWrite.step, hseen]
      refine ⟨?_, fun j l hl => Or.inr ?_⟩
      · show r.value ++ [entry i] = v ++ (r.log ++ [i]).map entry
        rw [h.value, List.map_append, List.append_assoc]
        rfl
      · rw [List.length_append, List.length_singleton]
        rcases seen_update hl with hl | hl
        · cases hl
        · rcases h.seen j l hl with rfl | hlt
          · exact Nat.lt_succ_self _
          · exact Nat.lt_succ_of_lt hlt
  | rest => exact h

/-- A list that is too short is put, and no other is too long: something is lost. -/
theorem lossy_put {i : ι} {l : List ε} (hseen : r.seen i = some l)
    (hshort : l.length < v.length + r.log.length)
    (hle : ∀ j l', r.seen j = some l' → l'.length ≤ v.length + r.log.length) :
    Lossy v (ReadModifyWrite.step entry r (.put i)).2 := by
  simp only [ReadModifyWrite.step, hseen]
  constructor
  · simp only [List.length_append, List.length_singleton]
    omega
  · intro j l' hl'
    simp only [List.length_append, List.length_singleton]
    rcases seen_update hl' with hl' | hl'
    · cases hl'
    · exact Nat.lt_succ_of_le (hle j l' hl')

/-- A step with a list that is not fresh loses something. -/
theorem Complete.lossy (h : Complete entry v r) {a : Access ι} (ha : ¬ Fresh r a) :
    Lossy v (ReadModifyWrite.step entry r a).2 := by
  cases a with
  | look i => exact absurd trivial ha
  | rest => exact absurd trivial ha
  | put i =>
    unfold Fresh at ha
    push Not at ha
    obtain ⟨l, hseen, hne⟩ := ha
    refine lossy_put hseen ?_ fun j l' hl' => ?_
    · rw [← h.length]
      exact (h.seen i l hseen).resolve_left hne
    · rw [← h.length]
      rcases h.seen j l' hl' with rfl | hlt
      · exact Nat.le_refl _
      · exact Nat.le_of_lt hlt

/-- What is lost stays lost. -/
theorem Lossy.step (h : Lossy v r) (a : Access ι) :
    Lossy v (ReadModifyWrite.step entry r a).2 := by
  cases a with
  | look i =>
    refine ⟨h.value, fun j l hl => ?_⟩
    rcases seen_update hl with hl | hl
    · exact Option.some.inj hl ▸ h.value
    · exact h.seen j l hl
  | put i =>
    cases hseen : r.seen i with
    | none =>
      simp only [ReadModifyWrite.step, hseen]
      exact h
    | some l =>
      exact lossy_put hseen (h.seen i l hseen) fun j l' hl' => Nat.le_of_lt (h.seen j l' hl')
  | rest => exact h

end Steps

/-- **What is kept**: at the end the list holds what was there and one entry of each list that was
put, exactly if each of these was put while it was still the list that is shared. -/
theorem perm_iff_every [DecidableEq ι] (v : List ε) (accesses : List (Access ι)) :
    (Machine.exec (step entry) (.init v) accesses).value.Perm
        (v ++ (Machine.exec (step entry) (.init v) accesses).log.map entry) ↔
      Machine.Every (step entry) Fresh (.init v) accesses := by
  have hinit : Complete entry v (.init v : Register ι ε) :=
    ⟨(List.append_nil v).symm, fun i l hl => nomatch hl⟩
  have hiff := @Machine.exec_iff_every _ _ _ (step entry)
    (fun r : Register ι ε => r.value.Perm (v ++ r.log.map entry))
    (fun r => Complete entry v r ∨ Lossy v r) Fresh
    (fun r a hr => by
      rcases hr with hr | hr
      · by_cases ha : Fresh r a
        · exact Or.inl (hr.step ha)
        · exact Or.inr (hr.lossy ha)
      · exact Or.inr (hr.step a))
    (fun r a hr => by
      rcases hr with hr | hr
      · by_cases ha : Fresh r a
        · exact iff_of_true (.of_eq (hr.step ha).value) ⟨.of_eq hr.value, ha⟩
        · exact iff_of_false (hr.lossy ha).not_perm fun h => ha h.2
      · exact iff_of_false (hr.step a).not_perm fun h => hr.not_perm h.1)
    (.init v) (Or.inl hinit) accesses
  rw [hiff]
  exact and_iff_right (.of_eq hinit.value)

end ReadModifyWrite
