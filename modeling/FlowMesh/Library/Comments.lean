import Mathlib.Data.List.Infix
import Mathlib.Tactic.Common

/-!
# Comments in front of a program

How far a text goes on with comments, blanks and a leading string, before there is code. What a
language has for comments is given by a `Comments`: a marker for a comment up to the end of the line,
and perhaps an opening and a closing marker, which may be nested.

`header` reads a text from a mode on and gives the mode and the place at which code begins, or the
text ends. `header_append` reads a text in two where a letter stands that is in no marker, and
`header_end` says in which modes a text can end.
-/

/-- What a language has for comments. -/
structure Comments (α : Type) where
  isBlank : α → Bool
  /-- The end of a line. -/
  breaks : α → Bool
  /-- Begins a comment up to the end of the line. -/
  line : List α
  /-- Begins and ends a comment; empty where there are none. -/
  opening : List α
  closing : List α
  nested : Bool
  /-- Ends the leading string. -/
  quote : List α
  /-- A letter behind which, in the leading string, the next one stands for itself. -/
  escapes : α → Bool

namespace Comments

/-- Where a text is: between comments, in one up to the end of the line, in a number of others, or in
the leading string. -/
inductive Mode
  | blank
  | line
  | block (depth : ℕ)
  | string
  deriving DecidableEq

variable {α : Type} [DecidableEq α] (L : Comments α)

/-- A marker in front of a text; an empty one is none. -/
def begins (marker text : List α) : Bool := !marker.isEmpty && marker.isPrefixOf text

/-- The mode behind the first letter of a text, and how many more letters belong to it; `none` where
the first letter is code. -/
def next : Mode → List α → Option (Mode × ℕ)
  | .blank, text =>
    if begins L.line text then some (.line, L.line.length - 1)
    else if begins L.opening text then some (.block 1, L.opening.length - 1)
    else if text.head?.any L.isBlank then some (.blank, 0)
    else none
  | .line, text => some (if text.head?.any L.breaks then .blank else .line, 0)
  | .block depth, text =>
    if begins L.closing text then
      some (if depth ≤ 1 then .blank else .block (depth - 1), L.closing.length - 1)
    else if L.nested && begins L.opening text then some (.block (depth + 1), L.opening.length - 1)
    else some (.block depth, 0)
  | .string, text =>
    if text.head?.any L.escapes then some (.string, 1)
    else if begins L.quote text then some (.blank, L.quote.length - 1)
    else some (.string, 0)

/-- The mode at the first letter of code, or at the end, and what is left from there on; `skip` letters
belong to what is already read. -/
def header : Mode → (skip : ℕ) → List α → Mode × ℕ × List α
  | m, skip, [] => (m, skip, [])
  | m, skip + 1, _ :: text => header m skip text
  | m, 0, c :: text =>
    match L.next m (c :: text) with
    | none => (m, 0, c :: text)
    | some (m', skip) => header m' skip text

/-- The code of a text. -/
def code (m : Mode) (skip : ℕ) (text : List α) : List α := (L.header m skip text).2.2

/-- A text without code, behind which a comment other than up to the end of the line, or the leading
string, goes on. -/
def Mode.isOpen : Mode → Bool
  | .blank | .line => false
  | .block _ | .string => true

/-- A letter that is in no marker. -/
structure Separates (sep : α) : Prop where
  line : sep ∉ L.line
  opening : sep ∉ L.opening
  closing : sep ∉ L.closing
  quote : sep ∉ L.quote

variable {L} {sep : α} {m : Mode} {skip : ℕ} {text rest : List α}

/-! ## Reading in two -/

theorem isPrefixOf_append {marker : List α} (h : sep ∉ marker) :
    marker.isPrefixOf (text ++ sep :: rest) = marker.isPrefixOf text := by
  induction marker generalizing text with
  | nil => rfl
  | cons a marker ih =>
    rw [List.mem_cons, not_or] at h
    cases text with
    | nil => simp [List.isPrefixOf, Ne.symm h.1]
    | cons c text => simp only [List.cons_append, List.isPrefixOf, ih h.2]

theorem begins_append {marker : List α} (h : sep ∉ marker) (c : α) :
    begins marker (c :: (text ++ sep :: rest)) = begins marker (c :: text) := by
  unfold begins
  rw [← List.cons_append, isPrefixOf_append h]

theorem next_append (h : L.Separates sep) (c : α) :
    L.next m (c :: (text ++ sep :: rest)) = L.next m (c :: text) := by
  cases m with
  | blank =>
    simp only [next, begins_append h.line, begins_append h.opening]
    rfl
  | line => rfl
  | block depth => simp only [next, begins_append h.closing, begins_append h.opening]
  | string =>
    simp only [next, begins_append h.quote]
    rfl

/-- **A text is read in two** at a letter that is in no marker. -/
theorem header_append (h : L.Separates sep) : L.header m skip (text ++ sep :: rest) =
    if (L.header m skip text).2.2 = [] then
      L.header (L.header m skip text).1 (L.header m skip text).2.1 (sep :: rest)
    else ((L.header m skip text).1, (L.header m skip text).2.1,
      (L.header m skip text).2.2 ++ sep :: rest) := by
  fun_induction header L m skip text with
  | case1 => rfl
  | case2 m skip c text ih => exact ih
  | case3 m c text hnext =>
    rw [if_neg (List.cons_ne_nil c text), List.cons_append, header, next_append h, hnext]
  | case4 m c text m' skip hnext ih =>
    rw [List.cons_append, header, next_append h, hnext]
    exact ih

theorem code_append (h : L.Separates sep) (hcode : L.code m skip text ≠ []) :
    L.code m skip (text ++ sep :: rest) = L.code m skip text ++ sep :: rest := by
  unfold code at *
  rw [header_append h, if_neg hcode]

theorem code_append_nil (h : L.Separates sep) (hcode : L.code m skip text = []) :
    L.code m skip (text ++ sep :: rest) =
      L.code (L.header m skip text).1 (L.header m skip text).2.1 (sep :: rest) := by
  unfold code at *
  rw [header_append h, if_pos hcode]

/-- Code is what is left of a text. -/
theorem code_suffix : L.code m skip text <:+ text := by
  unfold code
  fun_induction header L m skip text with
  | case1 => exact List.suffix_rfl
  | case2 m skip c text ih => exact ih.trans (List.suffix_cons c text)
  | case3 => exact List.suffix_rfl
  | case4 m c text m' skip hnext ih => exact ih.trans (List.suffix_cons c text)

/-! ## Where a text ends -/

theorem length_le_of_begins {marker : List α} (h : begins marker text = true) :
    marker.length ≤ text.length := by
  unfold begins at h
  rw [Bool.and_eq_true, List.isPrefixOf_iff_prefix] at h
  exact h.2.length_le

/-- What a letter can lead to: a marker is read to its end, an escape can be the last letter. -/
theorem next_cases {c : α} {m' : Mode} (h : L.next m (c :: text) = some (m', skip)) :
    ((m' = .blank ∨ m' = .line) ∧ skip ≤ text.length) ∨
      ((∃ depth, m' = .block depth) ∧ (L.opening ≠ [] ∨ ∃ depth, m = .block depth) ∧
        skip ≤ text.length) ∨
      (m = .string ∧ m' = .string ∧ skip ≤ text.length + 1) := by
  have hle : ∀ {marker}, begins marker (c :: text) = true → marker.length - 1 ≤ text.length := by
    intro marker hbegins
    have hlength := length_le_of_begins hbegins
    rw [List.length_cons] at hlength
    omega
  cases m with
  | blank =>
    simp only [next] at h
    split_ifs at h with hline hopening
    · cases h
      exact Or.inl ⟨Or.inr rfl, hle hline⟩
    · cases h
      have hne : L.opening ≠ [] := by
        rintro hnil
        rw [hnil] at hopening
        cases hopening
      exact Or.inr (Or.inl ⟨⟨1, rfl⟩, Or.inl hne, hle hopening⟩)
    · cases h
      exact Or.inl ⟨Or.inl rfl, Nat.zero_le _⟩
  | line =>
    simp only [next, Option.some.injEq, Prod.mk.injEq] at h
    obtain ⟨rfl, rfl⟩ := h
    split_ifs
    · exact Or.inl ⟨Or.inl rfl, Nat.zero_le _⟩
    · exact Or.inl ⟨Or.inr rfl, Nat.zero_le _⟩
  | block depth =>
    simp only [next] at h
    split_ifs at h with hclosing hdepth hopening
    · cases h
      exact Or.inl ⟨Or.inl rfl, hle hclosing⟩
    · cases h
      exact Or.inr (Or.inl ⟨⟨_, rfl⟩, Or.inr ⟨_, rfl⟩, hle hclosing⟩)
    · cases h
      rw [Bool.and_eq_true] at hopening
      exact Or.inr (Or.inl ⟨⟨_, rfl⟩, Or.inr ⟨_, rfl⟩, hle hopening.2⟩)
    · cases h
      exact Or.inr (Or.inl ⟨⟨_, rfl⟩, Or.inr ⟨_, rfl⟩, Nat.zero_le _⟩)
  | string =>
    simp only [next] at h
    split_ifs at h with hescape hquote
    · cases h
      exact Or.inr (Or.inr ⟨rfl, rfl, Nat.le_add_left 1 _⟩)
    · cases h
      exact Or.inl ⟨Or.inl rfl, hle hquote⟩
    · cases h
      exact Or.inr (Or.inr ⟨rfl, rfl, Nat.zero_le _⟩)

/-- A text without code ends with nothing left to skip, or behind an escape. -/
theorem header_end (hskip : skip ≤ text.length ∨ (m = .string ∧ skip = text.length + 1))
    (hcode : L.code m skip text = []) : (L.header m skip text).2.1 = 0 ∨
      ((L.header m skip text).1 = .string ∧ (L.header m skip text).2.1 = 1) := by
  unfold code at hcode
  fun_induction header L m skip text with
  | case1 m skip =>
    rcases hskip with hskip | ⟨hm, hskip⟩
    · exact Or.inl (Nat.le_zero.1 hskip)
    · exact Or.inr ⟨hm, hskip⟩
  | case2 m skip c text ih =>
    refine ih ?_ hcode
    simpa using hskip
  | case3 m c text hnext => cases hcode
  | case4 m c text m' skip hnext ih =>
    refine ih ?_ hcode
    rcases next_cases hnext with ⟨-, hle⟩ | ⟨-, -, hle⟩ | ⟨-, hm', hle⟩
    · exact Or.inl hle
    · exact Or.inl hle
    · rcases Nat.le_succ_iff.1 hle with hle | hle
      · exact Or.inl hle
      · exact Or.inr ⟨hm', hle⟩

/-- Where there are no comments with two markers, a text does not come into one. -/
theorem header_ne_block (hopening : L.opening = []) (hm : ∀ depth, m ≠ .block depth) (depth : ℕ) :
    (L.header m skip text).1 ≠ .block depth := by
  fun_induction header L m skip text with
  | case1 => exact hm depth
  | case2 m skip c text ih => exact ih hm
  | case3 => exact hm depth
  | case4 m c text m' skip hnext ih =>
    refine ih fun d hd => ?_
    subst hd
    rcases next_cases hnext with ⟨hm' | hm', -⟩ | ⟨-, hne | ⟨d', hd'⟩, -⟩ | ⟨-, hm', -⟩
    · cases hm'
    · cases hm'
    · exact hne hopening
    · exact hm d' hd'
    · cases hm'

/-- Nor does a text come into the leading string again. -/
theorem header_ne_string (hm : m ≠ .string) : (L.header m skip text).1 ≠ .string := by
  fun_induction header L m skip text with
  | case1 => exact hm
  | case2 m skip c text ih => exact ih hm
  | case3 => exact hm
  | case4 m c text m' skip hnext ih =>
    refine ih ?_
    rintro rfl
    rcases next_cases hnext with ⟨hm' | hm', -⟩ | ⟨⟨d, hd⟩, -, -⟩ | ⟨hstring, -, -⟩
    · cases hm'
    · cases hm'
    · cases hd
    · exact hm hstring

/-- A comment up to the end of the line takes all of a line. -/
theorem header_line (h : ∀ c ∈ text, L.breaks c = false) :
    L.header .line 0 text = (.line, 0, []) := by
  induction text with
  | nil => rfl
  | cons c text ih =>
    obtain ⟨hc, hrest⟩ := List.forall_mem_cons.1 h
    have hnext : L.next .line (c :: text) = some (.line, 0) := by simp [next, hc]
    rw [header, hnext]
    exact ih hrest

/-- A comment that is not ended takes all of a text. -/
theorem code_block {depth : ℕ} (h : ∀ t ∈ text.tails, begins L.closing t = false) :
    L.code (.block depth) skip text = [] := by
  induction text generalizing depth skip with
  | nil => rfl
  | cons c text ih =>
    have hrest : ∀ t ∈ text.tails, begins L.closing t = false := fun t ht =>
      h t (by simpa using Or.inr ht)
    have hfront := h (c :: text) (by simp)
    cases skip with
    | succ skip => exact ih hrest
    | zero =>
      have hnext : ∃ depth' skip', L.next (.block depth) (c :: text) =
          some (.block depth', skip') := by
        simp only [next, hfront, Bool.false_eq_true, if_false]
        split_ifs
        · exact ⟨_, _, rfl⟩
        · exact ⟨_, _, rfl⟩
      obtain ⟨depth', skip', hnext⟩ := hnext
      unfold code
      rw [header, hnext]
      exact ih hrest

/-- So does a leading string that is not ended. -/
theorem header_string (h : ∀ t ∈ text.tails, begins L.quote t = false) :
    (L.header .string skip text).1 = .string ∧ L.code .string skip text = [] := by
  induction text generalizing skip with
  | nil => exact ⟨rfl, rfl⟩
  | cons c text ih =>
    have hrest : ∀ t ∈ text.tails, begins L.quote t = false := fun t ht =>
      h t (by simpa using Or.inr ht)
    have hfront := h (c :: text) (by simp)
    cases skip with
    | succ skip => exact ih hrest
    | zero =>
      have hnext : ∃ skip', L.next .string (c :: text) = some (.string, skip') := by
        simp only [next, hfront, Bool.false_eq_true, if_false]
        split_ifs
        · exact ⟨_, rfl⟩
        · exact ⟨_, rfl⟩
      obtain ⟨skip', hnext⟩ := hnext
      unfold code
      rw [header, hnext]
      exact ih hrest

end Comments
