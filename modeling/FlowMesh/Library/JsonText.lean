import Mathlib.Algebra.Group.Nat.Defs
import Mathlib.Data.List.Sort
import Mathlib.Data.String.Basic
import Mathlib.Tactic.Common

/-!
# The layout of JSON texts

What two encoders share: commas between items, brackets and braces, members sorted by their keys,
and four-digit escapes. An encoder adds how it quotes strings and prints numbers.

Texts are lists of characters. A compact object is its members one after the other, so two
objects that differ in one member differ as texts (`object_ne_of_member`), and so do two objects
whose first keys start differently (`object_ne_of_key`).
-/

namespace JsonText

/-- A four-digit escape of a code point. -/
def unicodeEscape (n : ℕ) : List Char :=
  '\\' :: 'u' :: ((List.range 4).map fun i => Nat.digitChar (n / 16 ^ i % 16)).reverse

/-- A quoted string, with an encoder's way to write a character. -/
def quoted (escape : Char → List Char) (s : String) : List Char :=
  '"' :: s.toList.flatMap escape ++ ['"']

/-- Items with commas between them. -/
def commaSep : List (List Char) → List Char
  | [] => []
  | [t] => t
  | t :: ts => t ++ ',' :: commaSep ts

/-- A member of an object. -/
def member (quote : String → List Char) (p : String × List Char) : List Char :=
  quote p.1 ++ ':' :: p.2

/-- An array without white space. -/
def array (items : List (List Char)) : List Char := '[' :: commaSep items ++ [']']

/-- An object without white space. -/
def object (quote : String → List Char) (fields : List (String × List Char)) : List Char :=
  '\x7b' :: commaSep (fields.map (member quote)) ++ ['\x7d']

/-- The members sorted by their keys, code point by code point. -/
def sorted {α : Type} (fields : List (String × α)) : List (String × α) :=
  fields.insertionSort fun p q => p.1 ≤ q.1

/-! ## Texts that differ -/

theorem commaSep_cons_ne_nil {t : List Char} {ts : List (List Char)} (hts : ts ≠ []) :
    commaSep (t :: ts) = t ++ ',' :: commaSep ts := by
  cases ts with
  | nil => exact absurd rfl hts
  | cons t' ts => rfl

/-- Items that agree up to one. -/
theorem commaSep_append_inj {pre post : List (List Char)} {t t' : List Char}
    (h : commaSep (pre ++ t :: post) = commaSep (pre ++ t' :: post)) : t = t' := by
  induction pre with
  | nil =>
    cases post with
    | nil => exact h
    | cons u post => exact List.append_cancel_right h
  | cons u pre ih =>
    refine ih ?_
    have hne : ∀ v : List Char, pre ++ v :: post ≠ [] := by simp
    rw [List.cons_append, List.cons_append, commaSep_cons_ne_nil (hne t),
      commaSep_cons_ne_nil (hne t')] at h
    exact (List.cons.inj (List.append_cancel_left h)).2

variable {quote : String → List Char}

/-- Objects that differ in the value of one member. -/
theorem object_ne_of_member {pre post : List (String × List Char)} {key : String}
    {t t' : List Char} (ht : t ≠ t') :
    object quote (pre ++ (key, t) :: post) ≠ object quote (pre ++ (key, t') :: post) := by
  intro h
  simp only [object, List.map_append, List.map_cons] at h
  have hmember := commaSep_append_inj (List.append_cancel_right (List.cons.inj h).2)
  exact ht (List.cons.inj (List.append_cancel_left hmember)).2

theorem object_cons (p : String × List Char) (fields : List (String × List Char)) :
    ∃ rest, object quote (p :: fields) = '\x7b' :: (quote p.1 ++ rest) := by
  cases fields with
  | nil => exact ⟨':' :: p.2 ++ ['\x7d'], by simp [object, commaSep, member]⟩
  | cons q fields =>
    refine ⟨':' :: p.2 ++ ',' :: commaSep ((q :: fields).map (member quote)) ++ ['\x7d'], ?_⟩
    simp [object, commaSep, member]

/-- Objects whose first keys start differently, whoever wrote them. -/
theorem object_ne_of_key {quote' : String → List Char} {p p' : String × List Char}
    {fields fields' : List (String × List Char)} {c c' : Char} {cs cs' : List Char}
    (hp : quote p.1 = '"' :: c :: cs) (hp' : quote' p'.1 = '"' :: c' :: cs') (hc : c ≠ c') :
    object quote (p :: fields) ≠ object quote' (p' :: fields') := by
  obtain ⟨rest, hrest⟩ : ∃ rest, object quote (p :: fields) = _ := object_cons p fields
  obtain ⟨rest', hrest'⟩ : ∃ rest, object quote' (p' :: fields') = _ := object_cons p' fields'
  rw [hrest, hrest', hp, hp']
  intro h
  simp only [List.cons_append, List.cons.injEq] at h
  exact hc h.2.2.1

/-! ## Sorted members -/

section Sorted

variable {α β : Type}

theorem sorted_map (f : α → β) (fields : List (String × α)) :
    sorted (fields.map fun p => (p.1, f p.2)) = (sorted fields).map fun p => (p.1, f p.2) := by
  have hle : ∀ p ∈ fields, ∀ q ∈ fields, p.1 ≤ q.1 ↔ (p.1, f p.2).1 ≤ (q.1, f q.2).1 :=
    fun _ _ _ _ => Iff.rfl
  exact (List.map_insertionSort _ (fun p q : String × β => p.1 ≤ q.1)
    (fun p => (p.1, f p.2)) fields hle).symm

/-- With keys of their own, members sort to the same list exactly if they are the same members. -/
theorem sorted_eq_iff_perm {fields fields' : List (String × α)}
    (hkeys : (fields.map Prod.fst).Nodup) : sorted fields = sorted fields' ↔ fields.Perm fields' := by
  have hperm := List.perm_insertionSort (fun p q : String × α => p.1 ≤ q.1) fields
  have hperm' := List.perm_insertionSort (fun p q : String × α => p.1 ≤ q.1) fields'
  constructor
  · intro h
    unfold sorted at h
    exact hperm.symm.trans (h ▸ hperm')
  · intro h
    have hsame : ∀ p ∈ fields, ∀ q ∈ fields, p.1 = q.1 → p = q := fun p hp q hq heq =>
      List.inj_on_of_nodup_map hkeys hp hq heq
    refine List.Perm.eq_of_pairwise (fun p q hp hq hle hge => ?_)
      (List.pairwise_insertionSort _ _) (List.pairwise_insertionSort _ _)
      (hperm.trans (h.trans hperm'.symm))
    exact hsame p (hperm.subset hp) q (h.symm.subset (hperm'.subset hq)) (le_antisymm hle hge)

end Sorted

/-- Items behind the first, each behind a comma. -/
theorem commaSep_cons (t : List Char) (ts : List (List Char)) :
    commaSep (t :: ts) = t ++ ts.flatMap (',' :: ·) := by
  induction ts generalizing t with
  | nil => simp [commaSep]
  | cons t' ts ih => rw [commaSep_cons_ne_nil (List.cons_ne_nil _ _), ih, List.flatMap_cons]; rfl

end JsonText
