import Mathlib.Data.List.Lex
import Mathlib.Data.List.TakeDrop
import Mathlib.Data.List.TakeWhile
import Mathlib.Order.Lattice
import Mathlib.Tactic.Common

/-!
# Lists in order

`bisect` on lists that are strictly in order: inserting a value keeps the order
(`pairwise_insort`), and taking one out at the place where it should be takes out exactly the
value (`discard_eq_filter`). What begins at a value and has no gaps in the order is found by
going on from the place of that value while it holds (`takeWhile_drop_bisectLeft`), as the words
with a given beginning are (`prefix_of_le_of_le`).
-/

namespace Bisect

variable {α : Type} [LinearOrder α]

/-- `bisect.insort(l, a)`. -/
def insort (l : List α) (a : α) : List α := l.takeWhile (· ≤ a) ++ a :: l.dropWhile (· ≤ a)

/-- `bisect.bisect_left(l, a)`. -/
def bisectLeft (l : List α) (a : α) : ℕ := (l.takeWhile (· < a)).length

/-- Take the value out of the list, if it is where it should be. -/
def discard (l : List α) (a : α) : List α :=
  if l[bisectLeft l a]? = some a then l.eraseIdx (bisectLeft l a) else l

variable {l : List α} {a b : α}

theorem mem_insort : b ∈ insort l a ↔ b = a ∨ b ∈ l := by
  have hsplit : b ∈ l ↔ b ∈ l.takeWhile (· ≤ a) ∨ b ∈ l.dropWhile (· ≤ a) := by
    rw [← List.mem_append, List.takeWhile_append_dropWhile]
  rw [hsplit]
  simp only [insort, List.mem_append, List.mem_cons]
  tauto

/-- What comes behind the values up to `a` is larger. -/
theorem lt_of_mem_dropWhile (h : l.Pairwise (· < ·)) (hb : b ∈ l.dropWhile (· ≤ a)) : a < b := by
  induction l with
  | nil => cases hb
  | cons x l ih =>
    obtain ⟨hx, hl⟩ := List.pairwise_cons.1 h
    rw [List.dropWhile_cons] at hb
    split at hb
    · exact ih hl hb
    · next hle =>
      have hlt : a < x := not_le.1 (by simpa using hle)
      rcases List.mem_cons.1 hb with rfl | hb
      · exact hlt
      · exact hlt.trans (hx b hb)

theorem pairwise_insort (h : l.Pairwise (· < ·)) (ha : a ∉ l) :
    (insort l a).Pairwise (· < ·) := by
  have hfirst : ∀ b ∈ l.takeWhile (· ≤ a), b < a := by
    intro b hb
    have hle : b ≤ a := by simpa using List.mem_takeWhile_imp hb
    have hne : b ≠ a := fun heq => ha (heq ▸ (List.takeWhile_prefix _).subset hb)
    exact lt_of_le_of_ne hle hne
  unfold insort
  rw [List.pairwise_append, List.pairwise_cons]
  refine ⟨h.sublist (List.takeWhile_sublist _), ⟨fun b hb => lt_of_mem_dropWhile h hb,
    h.sublist (List.dropWhile_sublist _)⟩, fun b hb c hc => ?_⟩
  rcases List.mem_cons.1 hc with rfl | hc
  · exact hfirst b hb
  · exact (hfirst b hb).trans (lt_of_mem_dropWhile h hc)

theorem bisectLeft_cons_of_lt {x : α} (hx : x < a) :
    bisectLeft (x :: l) a = bisectLeft l a + 1 := by
  simp [bisectLeft, hx]

theorem bisectLeft_cons_of_le {x : α} (hx : a ≤ x) : bisectLeft (x :: l) a = 0 := by
  simp [bisectLeft, not_lt.2 hx]

/-- The value is taken out. -/
theorem discard_eq_filter (h : l.Pairwise (· < ·)) (a : α) : discard l a = l.filter (· ≠ a) := by
  induction l with
  | nil => rfl
  | cons x l ih =>
    obtain ⟨hx, hl⟩ := List.pairwise_cons.1 h
    specialize ih hl
    unfold discard at ih ⊢
    rcases lt_trichotomy x a with hlt | rfl | hlt
    · rw [bisectLeft_cons_of_lt hlt, List.getElem?_cons_succ, List.eraseIdx_cons_succ,
        List.filter_cons_of_pos (by simpa using hlt.ne), ← ih]
      split <;> rfl
    · rw [bisectLeft_cons_of_le le_rfl]
      have hrest : l.filter (· ≠ x) = l := by
        rw [List.filter_eq_self]
        intro b hb
        simpa using (hx b hb).ne'
      rw [List.filter_cons_of_neg (by simp), hrest, List.getElem?_cons_zero, if_pos rfl]
      rfl
    · have hrest : (x :: l).filter (· ≠ a) = x :: l := by
        rw [List.filter_eq_self]
        intro b hb
        rcases List.mem_cons.1 hb with rfl | hb
        · simpa using hlt.ne'
        · simpa using (hlt.trans (hx b hb)).ne'
      rw [bisectLeft_cons_of_le hlt.le, hrest, List.getElem?_cons_zero]
      rw [if_neg (by simpa using hlt.ne')]

/-! ## Going on from a place -/

/-- Behind a value that does not have a property without gaps, no value has it. -/
theorem takeWhile_eq_filter (h : l.Pairwise (· < ·)) (hl : ∀ b ∈ l, a ≤ b) {p : α → Bool}
    (hgap : ∀ b c, a ≤ b → b ≤ c → p c = true → p b = true) : l.takeWhile p = l.filter p := by
  induction l with
  | nil => rfl
  | cons x l ih =>
    obtain ⟨hx, hsorted⟩ := List.pairwise_cons.1 h
    obtain ⟨hax, hal⟩ := List.forall_mem_cons.1 hl
    cases hp : p x with
    | true => rw [List.takeWhile_cons_of_pos hp, List.filter_cons_of_pos hp, ih hsorted hal]
    | false =>
      have hrest : l.filter p = [] := by
        rw [List.filter_eq_nil_iff]
        intro b hb hpb
        have hpx := hgap x b hax (hx b hb).le hpb
        simp [hp] at hpx
      simp [hp, hrest]

/-- The values with a property that begins at `a` and has no gaps, in order. -/
theorem takeWhile_drop_bisectLeft (h : l.Pairwise (· < ·)) {p : α → Bool}
    (hle : ∀ b, p b = true → a ≤ b)
    (hgap : ∀ b c, a ≤ b → b ≤ c → p c = true → p b = true) :
    (l.drop (bisectLeft l a)).takeWhile p = l.filter p := by
  induction l with
  | nil => rfl
  | cons x l ih =>
    obtain ⟨hx, hl⟩ := List.pairwise_cons.1 h
    rcases lt_or_ge x a with hlt | hge
    · have hp : ¬ p x = true := fun hp => not_le.2 hlt (hle x hp)
      rw [bisectLeft_cons_of_lt hlt, List.drop_succ_cons, List.filter_cons_of_neg hp, ih hl]
    · rw [bisectLeft_cons_of_le hge, List.drop_zero]
      apply takeWhile_eq_filter (a := a) h _ hgap
      intro b hb
      rcases List.mem_cons.1 hb with rfl | hb
      · exact hge
      · exact hge.trans (hx b hb).le

theorem cons_le_cons_iff {x y : α} {q b : List α} :
    x :: q ≤ y :: b ↔ x < y ∨ x = y ∧ q ≤ b := by
  have hlt : y :: b < x :: q ↔ y < x ∨ y = x ∧ b < q := List.cons_lt_cons_iff
  rw [← not_lt, hlt, not_or, not_and, not_lt, not_lt, le_iff_lt_or_eq]
  constructor
  · rintro ⟨h | rfl, hrest⟩
    · exact Or.inl h
    · exact Or.inr ⟨rfl, hrest rfl⟩
  · rintro (h | ⟨rfl, hrest⟩)
    · exact ⟨Or.inl h, fun heq => absurd heq h.ne'⟩
    · exact ⟨Or.inr rfl, fun _ => hrest⟩

theorem le_of_prefix {q b : List α} (h : q <+: b) : q ≤ b := not_lt.1 (List.not_lt.2 h.le)

/-- What lies between a word and another one that begins with it begins with it. -/
theorem prefix_of_le_of_le {q b c : List α} (hqb : q ≤ b) (hbc : b ≤ c) (hc : q <+: c) :
    q <+: b := by
  induction q generalizing b c with
  | nil => exact List.nil_prefix
  | cons x q ih =>
    obtain ⟨c, rfl⟩ : ∃ c', c = x :: c' := by
      obtain ⟨rest, rfl⟩ := hc
      exact ⟨_, rfl⟩
    cases b with
    | nil => exact absurd hqb (by simp)
    | cons y b =>
      rw [cons_le_cons_iff] at hqb hbc
      have hxy : x = y := by
        rcases hqb with hlt | ⟨heq, -⟩
        · rcases hbc with hlt' | ⟨heq', -⟩
          · exact absurd hlt' hlt.asymm
          · exact heq'.symm
        · exact heq
      subst hxy
      have hqb' : q ≤ b := (hqb.resolve_left (lt_irrefl x)).2
      have hbc' : b ≤ c := (hbc.resolve_left (lt_irrefl x)).2
      rw [List.prefix_cons_inj] at hc ⊢
      exact ih hqb' hbc' hc

end Bisect
