import FlowMesh.Library.Scanner

/-!
# Patterns

Patterns over letters, and the places of a text at which they match. What is repeated is a letter of
a class.

* `run` gives the places at which a match can end, in the order in which a backtracking matcher
  comes to them; `search` looks for a match from the front of a text on.
* `mem_run_many`, `mem_run_spelled` and the other lemmas of their kind say where matches end.
* `matches_seq_many`: a repetition takes a whole block where what follows it cannot begin in the
  block; `block_inj` is the fact about lists.
-/

/-- A pattern. -/
inductive Pattern (α : Type)
  | empty
  /-- A letter of a class. -/
  | letter (p : α → Bool)
  /-- Letters of a class, any number of them. -/
  | many (p : α → Bool)
  /-- Between a letter of a word and what is none. -/
  | boundary
  /-- The end of the text. -/
  | ending
  | seq (r s : Pattern α)
  | alt (r s : Pattern α)

/-- A place in a text: the letter in front of it, and what is behind it. -/
abbrev Place (α : Type) := Option α × List α

namespace Pattern

variable {α : Type}

/-- A word, letter by letter. -/
def spelled : List (α → Bool) → Pattern α
  | [] => .empty
  | p :: ps => .seq (.letter p) (spelled ps)

/-- Letters of a class, at least one. -/
def many1 (p : α → Bool) : Pattern α := .seq (.letter p) (.many p)

/-- A pattern, or nothing. -/
def opt (r : Pattern α) : Pattern α := .alt r .empty

/-- One pattern after the other. -/
def cat : List (Pattern α) → Pattern α
  | [] => .empty
  | r :: rs => .seq r (cat rs)

/-- The places behind letters of a class, the last one first. -/
def block (p : α → Bool) : Option α → List α → List (Place α)
  | before, [] => [(before, [])]
  | before, c :: cs =>
    if p c then block p (some c) cs ++ [(before, c :: cs)] else [(before, c :: cs)]

variable (word : α → Bool)

/-- The places at which a match that begins at a place can end. -/
def run : Pattern α → Place α → List (Place α)
  | .empty, k => [k]
  | .letter _, (_, []) => []
  | .letter p, (_, c :: cs) => if p c then [(some c, cs)] else []
  | .many p, k => block p k.1 k.2
  | .boundary, k => if k.1.any word != k.2.head?.any word then [k] else []
  | .ending, k => if k.2.isEmpty then [k] else []
  | .seq r s, k => (run r k).flatMap (run s)
  | .alt r s, k => run r k ++ run s k

/-- A match at a place. -/
def MatchesAt (r : Pattern α) (k : Place α) : Prop := ∃ k', k' ∈ run word r k

/-- A match from a place on. -/
def search (r : Pattern α) : Option α → List α → Bool
  | before, [] => !(run word r (before, [])).isEmpty
  | before, c :: cs => !(run word r (before, c :: cs)).isEmpty || search r (some c) cs

variable {word} {r s : Pattern α} {k k' : Place α} {p : α → Bool}

/-! ## Where matches end -/

theorem mem_run_seq : k' ∈ run word (.seq r s) k ↔ ∃ k'' ∈ run word r k, k' ∈ run word s k'' :=
  List.mem_flatMap

theorem mem_run_alt : k' ∈ run word (.alt r s) k ↔ k' ∈ run word r k ∨ k' ∈ run word s k :=
  List.mem_append

theorem mem_run_letter {before : Option α} {cs : List α} : k' ∈ run word (.letter p) (before, cs) ↔
    ∃ c cs', cs = c :: cs' ∧ p c = true ∧ k' = (some c, cs') := by
  cases cs with
  | nil => simp [run]
  | cons c cs => by_cases hc : p c = true <;> simp [run, hc]

theorem mem_block {before : Option α} {cs : List α} : k' ∈ block p before cs ↔
    ∃ l cs', cs = l ++ cs' ∧ (∀ c ∈ l, p c = true) ∧ k' = (l.getLast?.or before, cs') := by
  induction cs generalizing before with
  | nil =>
    constructor
    · intro h
      exact ⟨[], [], rfl, by simp, List.mem_singleton.1 h⟩
    · rintro ⟨l, cs', hl, -, rfl⟩
      obtain ⟨rfl, rfl⟩ := List.append_eq_nil_iff.1 hl.symm
      exact List.mem_singleton_self _
  | cons c cs ih =>
    unfold block
    constructor
    · intro h
      split_ifs at h with hc
      · rcases List.mem_append.1 h with h | h
        · obtain ⟨l, cs', rfl, hl, rfl⟩ := ih.1 h
          refine ⟨c :: l, cs', rfl, List.forall_mem_cons.2 ⟨hc, hl⟩, ?_⟩
          rw [List.getLast?_cons]
          cases l.getLast? <;> rfl
        · exact ⟨[], c :: cs, rfl, by simp, List.mem_singleton.1 h⟩
      · exact ⟨[], c :: cs, rfl, by simp, List.mem_singleton.1 h⟩
    · rintro ⟨l, cs', hl, hall, rfl⟩
      cases l with
      | nil =>
        cases hl
        split_ifs <;> simp
      | cons a l =>
        obtain ⟨rfl, rfl⟩ := List.cons.inj hl
        obtain ⟨hc, hrest⟩ := List.forall_mem_cons.1 hall
        rw [if_pos hc, List.mem_append]
        refine Or.inl (ih.2 ⟨l, cs', rfl, hrest, ?_⟩)
        rw [List.getLast?_cons]
        cases l.getLast? <;> rfl

/-! ## Matches -/

section Matches

variable {before : Option α} {cs : List α} {ps : List (α → Bool)}

theorem matchesAt_seq : MatchesAt word (.seq r s) k ↔ ∃ k' ∈ run word r k, MatchesAt word s k' := by
  unfold MatchesAt
  simp only [mem_run_seq]
  constructor
  · rintro ⟨k', k'', hr, hs⟩
    exact ⟨k'', hr, k', hs⟩
  · rintro ⟨k'', hr, k', hs⟩
    exact ⟨k', k'', hr, hs⟩

theorem matchesAt_alt :
    MatchesAt word (.alt r s) k ↔ MatchesAt word r k ∨ MatchesAt word s k := by
  unfold MatchesAt
  simp only [mem_run_alt]
  exact exists_or

theorem matchesAt_letter : MatchesAt word (.letter p) (before, cs) ↔
    ∃ c, cs.head? = some c ∧ p c = true := by
  cases cs with
  | nil => simp [MatchesAt, run]
  | cons c cs => by_cases hc : p c = true <;> simp [MatchesAt, run, hc]

theorem matchesAt_ending : MatchesAt word .ending (before, cs) ↔ cs = [] := by
  cases cs <;> simp [MatchesAt, run]

theorem matchesAt_empty : MatchesAt word .empty k := ⟨k, List.mem_singleton_self k⟩

/-- A pattern up to the end. -/
theorem matchesAt_seq_empty : MatchesAt word (.seq r .empty) k ↔ MatchesAt word r k := by
  rw [matchesAt_seq]
  simp only [matchesAt_empty, and_true]
  rfl

/-- The first of several patterns match where all match. -/
theorem matchesAt_of_cat_append (rs ss : List (Pattern α))
    (h : MatchesAt word (cat (rs ++ ss)) k) : MatchesAt word (cat rs) k := by
  induction rs generalizing k with
  | nil => exact matchesAt_empty
  | cons r rs ih =>
    obtain ⟨k', hr, hrest⟩ := matchesAt_seq.1 h
    exact matchesAt_seq.2 ⟨k', hr, ih hrest⟩

theorem matchesAt_boundary_seq : MatchesAt word (.seq .boundary s) (before, cs) ↔
    before.any word ≠ cs.head?.any word ∧ MatchesAt word s (before, cs) := by
  rw [matchesAt_seq]
  by_cases h : before.any word = cs.head?.any word <;> simp [run, h]

theorem matchesAt_letter_seq : MatchesAt word (.seq (.letter p) s) (before, cs) ↔
    ∃ c cs', cs = c :: cs' ∧ p c = true ∧ MatchesAt word s (some c, cs') := by
  rw [matchesAt_seq]
  simp only [mem_run_letter]
  constructor
  · rintro ⟨_, ⟨c, cs', hcs, hc, rfl⟩, h⟩
    exact ⟨c, cs', hcs, hc, h⟩
  · rintro ⟨c, cs', hcs, hc, h⟩
    exact ⟨_, ⟨c, cs', hcs, hc, rfl⟩, h⟩

theorem matchesAt_many_seq : MatchesAt word (.seq (.many p) s) (before, cs) ↔
    ∃ l cs', cs = l ++ cs' ∧ (∀ c ∈ l, p c = true) ∧
      MatchesAt word s (l.getLast?.or before, cs') := by
  rw [matchesAt_seq]
  simp only [run, mem_block]
  constructor
  · rintro ⟨_, ⟨l, cs', hcs, hl, rfl⟩, h⟩
    exact ⟨l, cs', hcs, hl, h⟩
  · rintro ⟨l, cs', hcs, hl, h⟩
    exact ⟨_, ⟨l, cs', hcs, hl, rfl⟩, h⟩

theorem matchesAt_seq_assoc {t : Pattern α} :
    MatchesAt word (.seq (.seq r s) t) k ↔ MatchesAt word (.seq r (.seq s t)) k := by
  simp only [matchesAt_seq, mem_run_seq]
  constructor
  · rintro ⟨k', ⟨k'', hr, hs⟩, ht⟩
    exact ⟨k'', hr, k', hs, ht⟩
  · rintro ⟨k'', hr, k', hs, ht⟩
    exact ⟨k', ⟨k'', hr, hs⟩, ht⟩

theorem matchesAt_many1_seq : MatchesAt word (.seq (many1 p) s) (before, cs) ↔
    ∃ l cs', cs = l ++ cs' ∧ l ≠ [] ∧ (∀ c ∈ l, p c = true) ∧
      MatchesAt word s (l.getLast?, cs') := by
  unfold many1
  rw [matchesAt_seq_assoc, matchesAt_letter_seq]
  simp only [matchesAt_many_seq]
  constructor
  · rintro ⟨c, _, rfl, hc, l, cs', rfl, hl, h⟩
    refine ⟨c :: l, cs', rfl, List.cons_ne_nil c l, List.forall_mem_cons.2 ⟨hc, hl⟩, ?_⟩
    rw [List.getLast?_cons]
    cases hlast : l.getLast? <;> simpa [hlast] using h
  · rintro ⟨l, cs', rfl, hne, hl, h⟩
    cases l with
    | nil => exact absurd rfl hne
    | cons c l =>
      obtain ⟨hc, hrest⟩ := List.forall_mem_cons.1 hl
      refine ⟨c, _, rfl, hc, l, cs', rfl, hrest, ?_⟩
      rw [List.getLast?_cons] at h
      cases hlast : l.getLast? <;> simpa [hlast] using h

/-- A word that is spelled. -/
theorem matchesAt_spelled_seq : MatchesAt word (.seq (spelled ps) s) (before, cs) ↔
    ∃ l cs', cs = l ++ cs' ∧ List.Forall₂ (fun p c => p c = true) ps l ∧
      MatchesAt word s (l.getLast?.or before, cs') := by
  induction ps generalizing before cs with
  | nil =>
    rw [matchesAt_seq]
    simp only [spelled, run, List.mem_singleton, exists_eq_left]
    constructor
    · intro h
      exact ⟨[], cs, rfl, .nil, h⟩
    · rintro ⟨l, cs', rfl, hl, h⟩
      cases hl
      exact h
  | cons p ps ih =>
    unfold spelled
    rw [matchesAt_seq_assoc, matchesAt_letter_seq]
    simp only [ih]
    constructor
    · rintro ⟨c, _, rfl, hc, l, cs', rfl, hl, h⟩
      refine ⟨c :: l, cs', rfl, .cons hc hl, ?_⟩
      rw [List.getLast?_cons]
      cases hlast : l.getLast? <;> simpa [hlast] using h
    · rintro ⟨_, cs', rfl, hl, h⟩
      cases hl with
      | @cons _ c _ l hc hl =>
        refine ⟨c, _, rfl, hc, l, cs', rfl, hl, ?_⟩
        rw [List.getLast?_cons] at h
        cases hlast : l.getLast? <;> simpa [hlast] using h

end Matches

/-! ## Search -/

theorem isEmpty_run_iff : (!(run word r k).isEmpty) = true ↔ MatchesAt word r k := by
  rw [Bool.not_eq_true', List.isEmpty_eq_false_iff_exists_mem]
  rfl

/-- There is a match somewhere. -/
theorem search_iff {before : Option α} {cs : List α} : search word r before cs = true ↔
    ∃ pre post, cs = pre ++ post ∧ MatchesAt word r (pre.getLast?.or before, post) := by
  induction cs generalizing before with
  | nil =>
    rw [search, isEmpty_run_iff]
    constructor
    · intro h
      exact ⟨[], [], rfl, h⟩
    · rintro ⟨pre, post, hcs, h⟩
      obtain ⟨rfl, rfl⟩ := List.append_eq_nil_iff.1 hcs.symm
      exact h
  | cons c cs ih =>
    rw [search, Bool.or_eq_true, isEmpty_run_iff, ih]
    constructor
    · rintro (h | ⟨pre, post, rfl, h⟩)
      · exact ⟨[], c :: cs, rfl, h⟩
      · refine ⟨c :: pre, post, rfl, ?_⟩
        rw [List.getLast?_cons]
        cases hlast : pre.getLast? <;> simpa [hlast] using h
    · rintro ⟨pre, post, hcs, h⟩
      cases pre with
      | nil =>
        rw [hcs]
        exact Or.inl h
      | cons a pre =>
        obtain ⟨rfl, rfl⟩ := List.cons.inj hcs
        refine Or.inr ⟨pre, post, rfl, ?_⟩
        rw [List.getLast?_cons] at h
        cases hlast : pre.getLast? <;> simpa [hlast] using h

/-! ## Blocks -/

/-- What is not in a class, in front. -/
def Outside (p : α → Bool) (l : List α) : Prop := ∀ c, l.head? = some c → p c = false

/-- Two blocks of a class in front of the same text, each up to what is outside of it. -/
theorem block_inj {l l' rest rest' : List α} (hl : ∀ c ∈ l, p c = true) (hl' : ∀ c ∈ l', p c = true)
    (hrest : Outside p rest) (hrest' : Outside p rest') (h : l ++ rest = l' ++ rest') :
    l = l' ∧ rest = rest' := by
  have hll : l = l' := by
    rw [← Scanner.takeWhile_front hl hrest, h, Scanner.takeWhile_front hl' hrest']
  subst hll
  exact ⟨rfl, List.append_cancel_left h⟩

/-- A pattern of which no match begins in a class. -/
def Avoids (word p : α → Bool) (s : Pattern α) : Prop :=
  ∀ before cs, MatchesAt word s (before, cs) → Outside p cs

/-- A repetition takes a whole block. -/
theorem matchesAt_many1_block {before : Option α} {l cs : List α} (hne : l ≠ [])
    (hl : ∀ c ∈ l, p c = true) (hcs : Outside p cs) (hs : Avoids word p s) :
    MatchesAt word (.seq (many1 p) s) (before, l ++ cs) ↔ MatchesAt word s (l.getLast?, cs) := by
  rw [matchesAt_many1_seq]
  constructor
  · rintro ⟨l', cs', heq, -, hl', h⟩
    obtain ⟨rfl, rfl⟩ := block_inj hl hl' hcs (hs _ _ h) heq
    exact h
  · intro h
    exact ⟨l, cs, rfl, hne, hl, h⟩

end Pattern
