import Mathlib.Data.List.TakeWhile
import Mathlib.Tactic.Common

/-!
# Scanning a list from the left

A matcher finds something at the front of a list, or not. Scanning a list takes what the matcher
finds, one after the other, and every element where it finds nothing as it is.

* `Lexes` is the relation between a list and its tokens, which has no fuel; `lexes_scan` puts the
  function into it.
* `Lexes.append`: an element that no match can contain splits a list into two, each read on its
  own.
* `Lexes.of_agree`: two matchers read a list alike if they agree on what is found there.
* `readAll` and `readUntil` take match after match and fail where there is none; what was written
  match by match is read again (`readAll_flatMap`, `readUntil_flatMap`).
-/

namespace Scanner

variable {α β : Type}

/-- What a matcher finds at the front of a list, and what follows. -/
abbrev Matcher (α β : Type) := List α → Option (β × List α)

/-- The tokens of a list: elements as they are, and what is found. -/
def scan (m : Matcher α β) : ℕ → List α → List (α ⊕ β)
  | 0, l => l.map .inl
  | _ + 1, [] => []
  | fuel + 1, c :: l =>
    match m (c :: l) with
    | some (b, rest) => .inr b :: scan m fuel rest
    | none => .inl c :: scan m fuel l

/-- A matcher that finds something takes at least one element. -/
def Consumes (m : Matcher α β) : Prop :=
  ∀ l b rest, m l = some (b, rest) → rest.length < l.length

/-- An element that no match contains. -/
def Separates (m : Matcher α β) (c : α) : Prop :=
  ∀ l l', m (l ++ c :: l') = (m l).map fun p => (p.1, p.2 ++ c :: l')

/-- A list and its tokens. -/
inductive Lexes (m : Matcher α β) : List α → List (α ⊕ β) → Prop
  | nil : Lexes m [] []
  | found {l rest : List α} {b : β} {ts : List (α ⊕ β)} : m l = some (b, rest) → Lexes m rest ts →
      Lexes m l (.inr b :: ts)
  | plain {c : α} {l : List α} {ts : List (α ⊕ β)} : m (c :: l) = none → Lexes m l ts →
      Lexes m (c :: l) (.inl c :: ts)

section Lexes

variable {m : Matcher α β}

/-- As much fuel as there are elements is enough. -/
theorem lexes_scan (hm : Consumes m) {fuel : ℕ} {l : List α} (h : l.length ≤ fuel) :
    Lexes m l (scan m fuel l) := by
  induction fuel generalizing l with
  | zero =>
    rw [List.length_eq_zero_iff.1 (Nat.le_zero.1 h)]
    exact .nil
  | succ fuel ih =>
    cases l with
    | nil => exact .nil
    | cons c l =>
      unfold scan
      split
      · next b rest hfound =>
        have hrest := hm _ _ _ hfound
        exact .found hfound (ih (by omega))
      · next hnone => exact .plain hnone (ih (Nat.le_of_succ_le_succ h))

theorem Consumes.nil (hm : Consumes m) : m [] = none := by
  cases h : m [] with
  | none => rfl
  | some p => exact absurd (hm _ _ _ h) (Nat.not_lt_zero _)

/-- A list has its tokens only. -/
theorem Lexes.unique (hm : Consumes m) {l : List α} {ts ts' : List (α ⊕ β)} (h : Lexes m l ts)
    (h' : Lexes m l ts') : ts = ts' := by
  induction h generalizing ts' with
  | nil =>
    cases h' with
    | nil => rfl
    | found hfound => exact absurd (hm.nil.symm.trans hfound) nofun
  | found hfound _ ih =>
    cases h' with
    | nil => exact absurd (hm.nil.symm.trans hfound) nofun
    | found hfound' h' =>
      rw [hfound] at hfound'
      cases hfound'
      rw [ih h']
    | plain hnone => exact absurd (hnone.symm.trans hfound) nofun
  | plain hnone _ ih =>
    cases h' with
    | found hfound => exact absurd (hnone.symm.trans hfound) nofun
    | plain _ h' => rw [ih h']

/-- A list is read in two where no match reaches over. -/
theorem Lexes.concat (hm : Consumes m) {l l' : List α} {ts ts' : List (α ⊕ β)}
    (hl' : ∀ l, l ≠ [] → m (l ++ l') = (m l).map fun p => (p.1, p.2 ++ l'))
    (h : Lexes m l ts) (h' : Lexes m l' ts') : Lexes m (l ++ l') (ts ++ ts') := by
  induction h with
  | nil => exact h'
  | @found l rest b ts hfound _ ih =>
    have hne : l ≠ [] := by
      rintro rfl
      cases hm.nil.symm.trans hfound
    refine .found ?_ ih
    rw [hl' l hne, hfound]
    rfl
  | @plain d l ts hnone _ ih =>
    have hnone' : m (d :: l ++ l') = none := by
      rw [hl' _ (List.cons_ne_nil d l), hnone]
      rfl
    exact .plain hnone' ih

/-- **Where no match can be, a list is read in two.** -/
theorem Lexes.append (hm : Consumes m) {c : α} (hc : Separates m c) {l l' : List α}
    {ts ts' : List (α ⊕ β)} (h : Lexes m l ts) (h' : Lexes m l' ts') :
    Lexes m (l ++ c :: l') (ts ++ .inl c :: ts') := by
  have hnone : m (c :: l') = none := by
    rw [← List.nil_append (c :: l'), hc, hm.nil]
    rfl
  exact h.concat hm (fun l _ => hc l l') (.plain hnone h')

/-- What is found in a list is found at the front of a part of it. -/
theorem Lexes.exists_of_mem {l : List α} {ts : List (α ⊕ β)} (h : Lexes m l ts) {b : β}
    (hb : .inr b ∈ ts) : ∃ l' rest, m l' = some (b, rest) := by
  induction h with
  | nil => cases hb
  | found hfound _ ih =>
    rcases List.mem_cons.1 hb with hb | hb
    · cases hb
      exact ⟨_, _, hfound⟩
    · exact ih hb
  | plain _ _ ih =>
    rcases List.mem_cons.1 hb with hb | hb
    · cases hb
    · exact ih hb

/-- A matcher that finds nothing but what another one finds reads a list as the other one does, if
it finds all that the other one finds there. -/
theorem Lexes.of_agree {m' : Matcher α β} {p : β → Prop}
    (hle : ∀ l b rest, m' l = some (b, rest) → m l = some (b, rest))
    (hge : ∀ l b rest, m l = some (b, rest) → p b → m' l = some (b, rest))
    {l : List α} {ts : List (α ⊕ β)} (h : Lexes m l ts) (hp : ∀ b, .inr b ∈ ts → p b) :
    Lexes m' l ts := by
  induction h with
  | nil => exact .nil
  | found hfound _ ih =>
    have hb := hp _ List.mem_cons_self
    exact .found (hge _ _ _ hfound hb) (ih fun b hb => hp b (List.mem_cons_of_mem _ hb))
  | @plain c l ts hnone _ ih =>
    have hnone' : m' (c :: l) = none := by
      cases hfound : m' (c :: l) with
      | none => rfl
      | some found => exact absurd (hnone.symm.trans (hle _ _ _ hfound)) nofun
    exact .plain hnone' (ih fun b hb => hp b (List.mem_cons_of_mem _ hb))

end Lexes

/-! ## Match after match -/

/-- Read a list to its end. -/
def readAll (m : Matcher α β) : ℕ → List α → Option (List β)
  | _, [] => some []
  | 0, _ => none
  | fuel + 1, l => (m l).bind fun p => (readAll m fuel p.2).map (p.1 :: ·)

/-- Read a list up to an element. -/
def readUntil [DecidableEq α] (m : Matcher α β) (stop : α) : ℕ → List α → Option (List β × List α)
  | 0, _ => none
  | fuel + 1, l =>
    if l.head? = some stop then some ([], l.tail)
    else (m l).bind fun p => (readUntil m stop fuel p.2).map fun r => (p.1 :: r.1, r.2)

/-- What `e` writes for each is read again, in front of what is written for the others. -/
def Reads (m : Matcher α β) (e : β → List α) : List β → Prop
  | [] => True
  | b :: bs => e b ≠ [] ∧ m (e b ++ bs.flatMap e) = some (b, bs.flatMap e) ∧ Reads m e bs

section Reads

variable {m : Matcher α β} {e : β → List α} {bs : List β}

theorem readAll_of_ne_nil {fuel : ℕ} {l : List α} (hl : l ≠ []) :
    readAll m (fuel + 1) l = (m l).bind fun p => (readAll m fuel p.2).map (p.1 :: ·) := by
  cases l with
  | nil => exact absurd rfl hl
  | cons a l => rfl

theorem readAll_flatMap (h : Reads m e bs) {fuel : ℕ} (hfuel : bs.length ≤ fuel) :
    readAll m fuel (bs.flatMap e) = some bs := by
  induction bs generalizing fuel with
  | nil => cases fuel <;> rfl
  | cons b bs ih =>
    obtain ⟨hne, hread, hrest⟩ := h
    obtain ⟨k, rfl⟩ : ∃ k, fuel = k + 1 := ⟨fuel - 1, by simp at hfuel; omega⟩
    have hk : bs.length ≤ k := by simpa using hfuel
    rw [List.flatMap_cons, readAll_of_ne_nil (by simp [hne]), hread, Option.bind_some, ih hrest hk]
    rfl

/-- What is written takes at least one element each. -/
theorem Reads.length_le (h : Reads m e bs) : bs.length ≤ (bs.flatMap e).length := by
  induction bs with
  | nil => exact le_rfl
  | cons b bs ih =>
    obtain ⟨hne, -, hrest⟩ := h
    have hpos := List.length_pos_iff.2 hne
    have hind := ih hrest
    simp only [List.flatMap_cons, List.length_append, List.length_cons]
    omega

theorem readUntil_flatMap [DecidableEq α] {stop : α}
    (hread : ∀ b ∈ bs, ∀ rest, m (e b ++ rest) = some (b, rest))
    (hstop : ∀ b ∈ bs, ∀ rest, (e b ++ rest).head? ≠ some stop) {fuel : ℕ}
    (hfuel : bs.length < fuel) (rest : List α) :
    readUntil m stop fuel (bs.flatMap e ++ stop :: rest) = some (bs, rest) := by
  induction bs generalizing fuel with
  | nil =>
    obtain ⟨k, rfl⟩ : ∃ k, fuel = k + 1 := ⟨fuel - 1, by simp at hfuel; omega⟩
    simp [readUntil]
  | cons b bs ih =>
    obtain ⟨k, rfl⟩ : ∃ k, fuel = k + 1 := ⟨fuel - 1, by simp at hfuel; omega⟩
    have hk : bs.length < k := by simpa using hfuel
    obtain ⟨hb, hbs⟩ := List.forall_mem_cons.1 hread
    obtain ⟨hsb, hsbs⟩ := List.forall_mem_cons.1 hstop
    rw [List.flatMap_cons, List.append_assoc, readUntil, if_neg (hsb _), hb, Option.bind_some,
      ih hbs hsbs hk]
    rfl

end Reads

/-! ## Classes of elements -/

section Classes

variable {p : α → Bool} {l l' : List α} {c : α}

/-- A block of a class, up to the first element outside of it. -/
theorem takeWhile_block (hl : ∀ a ∈ l, p a = true) (hc : p c = false) :
    (l ++ c :: l').takeWhile p = l := by
  rw [List.takeWhile_append_of_pos hl, List.takeWhile_cons_of_neg (by simp [hc]), List.append_nil]

/-- A block of a class, up to what does not begin in it. -/
theorem takeWhile_front (hl : ∀ a ∈ l, p a = true) (hl' : ∀ a, l'.head? = some a → p a = false) :
    (l ++ l').takeWhile p = l := by
  cases l' with
  | nil => rw [List.append_nil, List.takeWhile_eq_self_iff.2 hl]
  | cons a l' => exact takeWhile_block hl (hl' a rfl)

theorem dropWhile_block (hl : ∀ a ∈ l, p a = true) (hc : p c = false) :
    (l ++ c :: l').dropWhile p = c :: l' := by
  rw [List.dropWhile_append_of_pos hl, List.dropWhile_cons_of_neg (by simp [hc])]

theorem dropWhile_front (hl : ∀ a ∈ l, p a = true) (hl' : ∀ a, l'.head? = some a → p a = false) :
    (l ++ l').dropWhile p = l' := by
  cases l' with
  | nil => rw [List.append_nil, List.dropWhile_eq_nil_iff.2 hl]
  | cons a l' => exact dropWhile_block hl (hl' a rfl)

end Classes

end Scanner
