import FlowMesh.Library.Scanner
import Mathlib.Data.List.Infix

/-!
# Marked words, cut off

Words of a text are marked by a tag in front and a tag behind, and what comes out is cut off at a
length.

* `Tags.tokens` reads the tags of a text and its letters; `WellMarked` says of what is read that
  the tags stand in pairs around words, not nested.
* `wellMarked_gap` and `wellMarked_word` say what one piece of a marked text adds.
* `shown_iff`: what is shown of a marked text is well marked, and without its tags the beginning of
  the text, exactly if the pieces fit (`Fits`).
-/

/-- Two tags, which begin with the same letter and have it nowhere else. -/
structure Tags (α : Type) where
  start : α
  opening : List α
  closing : List α
  not_mem_opening : start ∉ opening
  not_mem_closing : start ∉ closing
  not_opening_closing : ¬ opening <+: closing
  not_closing_opening : ¬ closing <+: opening

namespace Tags

/-- Which of the two. -/
inductive Tag
  | opening
  | closing
  deriving DecidableEq

variable {α : Type} (T : Tags α)

/-- The tag in front of a word. -/
def openTag : List α := T.start :: T.opening

/-- The tag behind a word. -/
def closeTag : List α := T.start :: T.closing

/-- A tag as it is written. -/
def word : Tag → List α
  | .opening => T.openTag
  | .closing => T.closeTag

theorem word_eq (t : Tag) : ∃ rest, T.word t = T.start :: rest ∧ T.start ∉ rest := by
  cases t with
  | opening => exact ⟨_, rfl, T.not_mem_opening⟩
  | closing => exact ⟨_, rfl, T.not_mem_closing⟩

/-- What no tag goes on with. -/
def Apart (l : List α) : Prop := ∀ c, l.head? = some c → ∀ t, c ∉ (T.word t).tail

variable {T}

/-- What does not stand in a text does not stand in its parts. -/
theorem not_infix_append {l l' l'' : List α} (h : ¬ l <:+: l' ++ l'') :
    ¬ l <:+: l' ∧ ¬ l <:+: l'' :=
  ⟨fun hl => h (hl.trans (List.prefix_append _ _).isInfix),
    fun hl => h (hl.trans (List.suffix_append _ _).isInfix)⟩

theorem apart_nil : T.Apart [] := by
  intro c hc
  cases hc

theorem apart_start (l : List α) : T.Apart (T.start :: l) := by
  rintro c hc t
  cases hc
  obtain ⟨rest, hword, hrest⟩ := T.word_eq t
  rw [hword]
  exact hrest

theorem apart_word (t : Tag) (l : List α) : T.Apart (T.word t ++ l) := by
  obtain ⟨rest, hword, -⟩ := T.word_eq t
  rw [hword]
  exact apart_start _

theorem apart_openTag (l : List α) : T.Apart (T.openTag ++ l) := apart_word .opening l

theorem Apart.take {l : List α} (h : T.Apart l) (n : ℕ) : T.Apart (l.take n) := by
  intro c hc
  cases n with
  | zero => cases hc
  | succ n =>
    rw [List.head?_take, if_neg n.succ_ne_zero] at hc
    exact h c hc

/-- A tag does not reach over into what no tag goes on with. -/
theorem word_prefix_append {t : Tag} {l l' : List α} (hl : l ≠ []) (hl' : T.Apart l')
    (h : T.word t <+: l ++ l') : T.word t <+: l := by
  rcases Nat.lt_or_ge l.length (T.word t).length with hlt | hge
  · have hpre : l <+: T.word t :=
      List.prefix_of_prefix_length_le (List.prefix_append l l') h hlt.le
    obtain ⟨d, hd⟩ := hpre
    obtain ⟨rest, hrest⟩ := h
    rw [← hd, List.append_assoc, List.append_cancel_left_eq] at hrest
    cases d with
    | nil =>
      rw [List.append_nil] at hd
      rw [hd] at hlt
      exact absurd hlt (lt_irrefl _)
    | cons c d =>
      have hhead : l'.head? = some c := by rw [← hrest]; rfl
      refine absurd ?_ (hl' c hhead t)
      rw [← hd]
      cases l with
      | nil => exact absurd rfl hl
      | cons a l => simp
  · exact List.prefix_of_prefix_length_le h (List.prefix_append l l') hge

variable (T) [DecidableEq α]

/-- The tag at the front of a text. -/
def tag? : Scanner.Matcher α Tag := fun l =>
  if T.openTag <+: l then some (.opening, l.drop T.openTag.length)
  else if T.closeTag <+: l then some (.closing, l.drop T.closeTag.length)
  else none

/-- The letters and the tags of a text. -/
def tokens (l : List α) : List (α ⊕ Tag) := Scanner.scan T.tag? l.length l

/-- A text in which no word is marked off from behind. -/
def Untagged (l : List α) : Prop := ¬ T.closeTag <:+: l

instance decidableUntagged (l : List α) : Decidable (T.Untagged l) :=
  inferInstanceAs (Decidable (¬ _))

omit [DecidableEq α] in
/-- Without its tags. -/
def letters (ts : List (α ⊕ Tag)) : List α := ts.filterMap Sum.getLeft?

/-- The tags stand in pairs around words of a kind, and are not nested. -/
inductive WellMarked (p : List α → Prop) : List (α ⊕ Tag) → Prop
  | nil : WellMarked p []
  | letter {c : α} {ts : List (α ⊕ Tag)} : WellMarked p ts → WellMarked p (.inl c :: ts)
  | marked {w : List α} {ts : List (α ⊕ Tag)} : w ≠ [] → p w → WellMarked p ts →
      WellMarked p (.inr .opening :: (w.map .inl ++ .inr .closing :: ts))

/-! ## Reading tags -/

variable {T}

theorem tag?_eq_some {l rest : List α} {t : Tag} :
    T.tag? l = some (t, rest) ↔ l = T.word t ++ rest := by
  have hdrop : ∀ {p : List α}, p <+: l → l = p ++ l.drop p.length := by
    rintro p ⟨r, rfl⟩
    simp
  unfold tag?
  constructor
  · intro h
    split_ifs at h with hopen hclose
    · cases h
      exact hdrop hopen
    · cases h
      exact hdrop hclose
  · rintro rfl
    cases t with
    | opening => exact (if_pos (List.prefix_append _ _)).trans (by rw [word, List.drop_left])
    | closing =>
      have hopen : ¬ T.openTag <+: T.word .closing ++ rest := by
        intro hopen
        rcases List.prefix_or_prefix_of_prefix hopen (List.prefix_append (T.word .closing) rest) with
          hpre | hpre
        · exact T.not_opening_closing (List.cons_prefix_cons.1 hpre).2
        · exact T.not_closing_opening (List.cons_prefix_cons.1 hpre).2
      exact (if_neg hopen).trans
        ((if_pos (List.prefix_append _ _)).trans (by rw [word, List.drop_left]))

theorem consumes_tag? : Scanner.Consumes T.tag? := by
  intro l t rest h
  obtain ⟨rest', hword, -⟩ := T.word_eq t
  rw [tag?_eq_some.1 h, hword, List.length_append, List.length_cons]
  omega

theorem tag?_append {l l' : List α} (hl : l ≠ []) (hl' : T.Apart l') :
    T.tag? (l ++ l') = (T.tag? l).map fun p => (p.1, p.2 ++ l') := by
  cases hfound : T.tag? l with
  | some p =>
    obtain ⟨t, rest⟩ := p
    rw [tag?_eq_some.1 hfound, Option.map_some, tag?_eq_some, List.append_assoc]
  | none =>
    cases hfound' : T.tag? (l ++ l') with
    | none => rfl
    | some p =>
      obtain ⟨t, rest⟩ := p
      have hpre : T.word t <+: l ++ l' := ⟨rest, (tag?_eq_some.1 hfound').symm⟩
      obtain ⟨rest', hrest'⟩ := word_prefix_append hl hl' hpre
      rw [tag?_eq_some.2 hrest'.symm] at hfound
      cases hfound

theorem lexes_tokens (l : List α) : Scanner.Lexes T.tag? l (T.tokens l) :=
  Scanner.lexes_scan consumes_tag? le_rfl

theorem tokens_append {l l' : List α} (hl' : T.Apart l') :
    T.tokens (l ++ l') = T.tokens l ++ T.tokens l' :=
  (lexes_tokens _).unique consumes_tag?
    ((lexes_tokens l).concat consumes_tag? (fun _ hl => tag?_append hl hl') (lexes_tokens l'))

@[simp] theorem tokens_nil : T.tokens [] = [] := rfl

theorem tokens_word (t : Tag) (l : List α) : T.tokens (T.word t ++ l) = .inr t :: T.tokens l :=
  (lexes_tokens _).unique consumes_tag? (.found (tag?_eq_some.2 rfl) (lexes_tokens l))

theorem infix_of_mem {t : Tag} {l : List α} {ts : List (α ⊕ Tag)}
    (h : Scanner.Lexes T.tag? l ts) (ht : .inr t ∈ ts) : T.word t <:+: l := by
  induction h with
  | nil => cases ht
  | found hfound _ ih =>
    rw [tag?_eq_some.1 hfound]
    rcases List.mem_cons.1 ht with ht | ht
    · cases ht
      exact (List.prefix_append _ _).isInfix
    · exact (ih ht).trans (List.suffix_append _ _).isInfix
  | plain _ _ ih =>
    rcases List.mem_cons.1 ht with ht | ht
    · cases ht
    · exact (ih ht).trans (List.suffix_cons _ _).isInfix

/-- The tags that are read are those that are there. -/
theorem mem_tokens_iff {t : Tag} {l : List α} : .inr t ∈ T.tokens l ↔ T.word t <:+: l := by
  constructor
  · exact infix_of_mem (lexes_tokens l)
  · rintro ⟨a, b, rfl⟩
    rw [List.append_assoc, tokens_append (apart_word t b), tokens_word]
    simp

/-- A text without an opening tag: its letters, or its letters up to the first closing tag. -/
theorem tokens_cases {l : List α} (h : ¬ T.openTag <:+: l) :
    T.tokens l = l.map .inl ∨ ∃ v v', l = v ++ (T.closeTag ++ v') ∧
      T.tokens l = v.map .inl ++ .inr .closing :: T.tokens v' := by
  have hlexes := lexes_tokens (T := T) l
  generalize T.tokens l = ts at hlexes
  induction hlexes with
  | nil => exact Or.inl rfl
  | @found l rest t ts hfound hrest _ =>
    have hl := tag?_eq_some.1 hfound
    cases t with
    | opening => exact absurd (hl ▸ (List.prefix_append _ _).isInfix) h
    | closing =>
      refine Or.inr ⟨[], rest, hl, ?_⟩
      rw [hrest.unique consumes_tag? (lexes_tokens rest)]
      rfl
  | @plain c l ts _ _ ih =>
    rcases ih fun hopen => h (hopen.trans (List.suffix_cons _ _).isInfix) with hplain | ⟨v, v', hl, hts⟩
    · exact Or.inl (congrArg _ hplain)
    · exact Or.inr ⟨c :: v, v', congrArg _ hl, congrArg _ hts⟩

theorem untagged_iff {l : List α} (h : ¬ T.openTag <:+: l) :
    T.Untagged l ↔ T.tokens l = l.map .inl := by
  constructor
  · intro hun
    rcases tokens_cases h with hplain | ⟨v, v', hl, -⟩
    · exact hplain
    · exact absurd ⟨v, v', by rw [hl, List.append_assoc]⟩ hun
  · intro hplain hclose
    have hmem : .inr .closing ∈ T.tokens l := mem_tokens_iff.2 hclose
    simp [hplain] at hmem

/-! ## Well-marked texts -/

section WellMarked

variable {p : List α → Prop} {ts ts' : List (α ⊕ Tag)}

omit [DecidableEq α]

@[simp] theorem letters_map_inl (l : List α) : letters (l.map .inl) = l := by
  induction l with
  | nil => rfl
  | cons a l ih => simpa [letters] using ih

theorem letters_append : letters (ts ++ ts') = letters ts ++ letters ts' := List.filterMap_append

@[simp] theorem letters_inr (t : Tag) : letters (.inr t :: ts) = letters ts := rfl

theorem not_wellMarked_closing : ¬ WellMarked p (.inr .closing :: ts) := by
  rintro ⟨⟩

@[simp] theorem wellMarked_letters {l : List α} :
    WellMarked p (l.map .inl ++ ts) ↔ WellMarked p ts := by
  induction l with
  | nil => rfl
  | cons a l ih =>
    rw [List.map_cons, List.cons_append, ← ih]
    constructor
    · rintro ⟨⟩
      assumption
    · exact .letter

theorem wellMarked_map_inl (l : List α) : WellMarked p (l.map .inl) := by
  simpa using (wellMarked_letters (l := l) (p := p)).2 .nil

theorem closing_not_mem_map_inl {l : List α} : Sum.inr Tag.closing ∉ l.map Sum.inl := by
  simp

/-- Letters at the end. -/
theorem wellMarked_append_letters {l : List α} :
    WellMarked p (ts ++ l.map .inl) ↔ WellMarked p ts := by
  constructor
  · intro h
    generalize hall : ts ++ l.map .inl = all at h
    induction h generalizing ts with
    | nil =>
      rw [(List.append_eq_nil_iff.1 hall).1]
      exact .nil
    | letter _ ih =>
      cases ts with
      | nil => exact .nil
      | cons t ts =>
        obtain ⟨rfl, hrest⟩ := List.cons.inj hall
        exact .letter (ih hrest)
    | @marked w ts' hne hp _ ih =>
      cases ts with
      | nil =>
        have hmem : Sum.inr Tag.opening ∈ l.map Sum.inl := by
          rw [← List.nil_append (l.map _), hall]
          exact List.mem_cons_self
        simp at hmem
      | cons t ts =>
        obtain ⟨rfl, hrest⟩ := List.cons.inj hall
        rcases List.append_eq_append_iff.1 hrest with ⟨a, -, ha⟩ | ⟨a, rfl, ha⟩
        · refine absurd ?_ (closing_not_mem_map_inl (l := l))
          rw [ha]
          simp
        · cases a with
          | nil =>
            refine absurd ?_ (closing_not_mem_map_inl (l := l))
            rw [← List.nil_append (l.map _), ← ha]
            exact List.mem_cons_self
          | cons t a =>
            obtain ⟨rfl, hback⟩ := List.cons.inj ha
            exact .marked hne hp (ih hback.symm)
  · intro h
    induction h with
    | nil => exact wellMarked_map_inl l
    | letter _ ih => exact .letter ih
    | marked hne hp _ ih =>
      rw [List.cons_append, List.append_assoc, List.cons_append]
      exact .marked hne hp ih

/-- What follows an opening tag. -/
theorem wellMarked_opening_iff : WellMarked p (.inr .opening :: ts) ↔
    ∃ w ts', ts = w.map .inl ++ .inr .closing :: ts' ∧ w ≠ [] ∧ p w ∧ WellMarked p ts' := by
  constructor
  · intro h
    cases h with
    | marked hne hp hrest => exact ⟨_, _, rfl, hne, hp, hrest⟩
  · rintro ⟨w, ts', rfl, hne, hp, hrest⟩
    exact .marked hne hp hrest

/-- A closing tag where no word is open. -/
theorem not_wellMarked_append_closing (hts : .inr .opening ∉ ts) :
    ¬ WellMarked p (ts ++ .inr .closing :: ts') := by
  intro h
  induction ts with
  | nil => exact not_wellMarked_closing h
  | cons t ts ih =>
    rw [List.mem_cons, not_or] at hts
    rcases t with c | t | t
    · exact ih hts.2 ((wellMarked_letters (l := [c])).1 h)
    · exact hts.1 rfl
    · exact not_wellMarked_closing h

/-- A word ends at the first closing tag. -/
theorem map_inl_append_inj {v w : List α}
    (h : v.map .inl ++ .inr Tag.closing :: ts = w.map .inl ++ .inr Tag.closing :: ts') :
    v = w ∧ ts = ts' := by
  induction v generalizing w with
  | nil =>
    cases w with
    | nil => exact ⟨rfl, (List.cons.inj h).2⟩
    | cons => cases (List.cons.inj h).1
  | cons a v ih =>
    cases w with
    | nil => cases (List.cons.inj h).1
    | cons b w =>
      obtain ⟨hhead, htail⟩ := List.cons.inj h
      obtain ⟨rfl, rfl⟩ := ih htail
      cases hhead
      exact ⟨rfl, rfl⟩

end WellMarked

/-! ## Pieces of a marked text -/

section Pieces

/-- A text: what stands in front of the first marked word, and each marked word with what follows
it. -/
def text : List α → List (List α × List α) → List α
  | gap, [] => gap
  | gap, (w, gap') :: ps => gap ++ (w ++ text gap' ps)

omit [DecidableEq α] in
theorem text_cons (c : α) (gap : List α) (ps : List (List α × List α)) :
    text (c :: gap) ps = c :: text gap ps := by
  cases ps <;> rfl

variable (T)

/-- The text with its marks. -/
def marked : List α → List (List α × List α) → List α
  | gap, [] => gap
  | gap, (w, gap') :: ps => gap ++ (T.openTag ++ (w ++ (T.closeTag ++ marked gap' ps)))

/-- A marked word that is cut off, with `room` letters left: so little of the tag that it is what the
text goes on with there, or, of a word with a closing tag in it, a word up to that tag. -/
def CutFits (p : List α → Prop) (room : ℕ) (w after : List α) : Prop :=
  (room < T.openTag.length ∧ T.openTag.take room <+: after) ∨
    (T.openTag.length ≤ room ∧ ∃ v v',
      (w ++ T.closeTag).take (room - T.openTag.length) = v ++ (T.closeTag ++ v') ∧
        v ≠ [] ∧ p v ∧ T.Untagged v ∧ T.Untagged v' ∧ v ++ v' <+: after)

/-- The length of a marked word. -/
def width (w : List α) : ℕ := T.openTag.length + w.length + T.closeTag.length

/-- The pieces of a text, up to a length: no closing tag in the text, and every marked word with
something in it, and as a whole. -/
def Fits (p : List α → Prop) : ℕ → List α → List (List α × List α) → Prop
  | room, gap, [] => T.Untagged (gap.take room)
  | room, gap, (w, gap') :: ps =>
    T.Untagged (gap.take room) ∧ (gap.length < room →
      if T.width w ≤ room - gap.length then
        w ≠ [] ∧ T.Untagged w ∧ Fits p (room - gap.length - T.width w) gap' ps
      else T.CutFits p (room - gap.length) w (w ++ text gap' ps))

variable {T} {p : List α → Prop}

/-- What a gap adds. -/
theorem wellMarked_gap {gap rest : List α} (hgap : ¬ T.openTag <:+: gap) (hrest : T.Apart rest) :
    WellMarked p (T.tokens (gap ++ rest)) ↔ T.Untagged gap ∧ WellMarked p (T.tokens rest) := by
  rw [tokens_append hrest]
  rcases tokens_cases hgap with hplain | ⟨v, v', hl, hts⟩
  · rw [hplain, wellMarked_letters]
    exact (and_iff_right ((untagged_iff hgap).2 hplain)).symm
  · rw [hts, List.append_assoc, wellMarked_letters]
    have htagged : ¬ T.Untagged gap := fun hun => hun ⟨v, v', by rw [hl, List.append_assoc]⟩
    exact iff_of_false not_wellMarked_closing fun h => htagged h.1

theorem letters_gap {gap rest : List α} (hgap : ¬ T.openTag <:+: gap) (hrest : T.Apart rest)
    (hun : T.Untagged gap) : letters (T.tokens (gap ++ rest)) = gap ++ letters (T.tokens rest) := by
  rw [tokens_append hrest, (untagged_iff hgap).1 hun, letters_append, letters_map_inl]

theorem tokens_closeTag (l l' : List α) :
    T.tokens (l ++ (T.closeTag ++ l')) = T.tokens l ++ .inr .closing :: T.tokens l' :=
  (tokens_append (apart_word .closing l')).trans (congrArg _ (tokens_word .closing l'))

theorem not_mem_tokens {t : Tag} {l : List α} (h : ¬ T.word t <:+: l) : .inr t ∉ T.tokens l :=
  fun hmem => h (mem_tokens_iff.1 hmem)

/-- What an opened word adds, up to where the text is cut off. -/
theorem wellMarked_open {u after : List α} (hu : ¬ T.openTag <:+: u) :
    (WellMarked p (T.tokens (T.openTag ++ u)) ∧ letters (T.tokens (T.openTag ++ u)) <+: after) ↔
      ∃ v v', u = v ++ (T.closeTag ++ v') ∧ v ≠ [] ∧ p v ∧ T.Untagged v ∧ T.Untagged v' ∧
        v ++ v' <+: after := by
  have htokens : T.tokens (T.openTag ++ u) = .inr .opening :: T.tokens u := tokens_word .opening u
  rw [htokens, wellMarked_opening_iff, letters_inr]
  constructor
  · rintro ⟨⟨w, ts, hw, hne, hp, hrest⟩, hafter⟩
    rcases tokens_cases hu with hplain | ⟨v, v', rfl, hts⟩
    · have hmem : .inr Tag.closing ∈ u.map Sum.inl := by
        rw [← hplain, hw]
        simp
      simp at hmem
    · obtain ⟨rfl, rfl⟩ := map_inl_append_inj (hts.symm.trans hw)
      obtain ⟨hnot, hrest'⟩ := not_infix_append hu
      have hnot' := (not_infix_append hrest').2
      have hv : T.tokens v = v.map .inl :=
        List.append_cancel_right ((tokens_closeTag v v').symm.trans hts)
      have hv' : T.Untagged v' := by
        intro hclose
        obtain ⟨a, b, hab⟩ := List.append_of_mem (mem_tokens_iff (t := .closing).2 hclose)
        refine not_wellMarked_append_closing (fun hopen => ?_) (hab ▸ hrest)
        exact not_mem_tokens (t := .opening) hnot' (hab ▸ List.mem_append_left _ hopen)
      refine ⟨v, v', rfl, hne, hp, (untagged_iff hnot).2 hv, hv', ?_⟩
      rwa [hts, letters_append, letters_map_inl, letters_inr, (untagged_iff hnot').1 hv',
        letters_map_inl] at hafter
  · rintro ⟨v, v', rfl, hne, hp, hv, hv', hafter⟩
    obtain ⟨hnot, hrest⟩ := not_infix_append hu
    have hnot' := (not_infix_append hrest).2
    rw [tokens_closeTag, (untagged_iff hnot).1 hv, (untagged_iff hnot').1 hv', letters_append,
      letters_map_inl, letters_inr, letters_map_inl]
    exact ⟨⟨v, _, rfl, hne, hp, wellMarked_map_inl v'⟩, hafter⟩

theorem tokens_marked_word (w rest : List α) :
    T.tokens (T.openTag ++ (w ++ (T.closeTag ++ rest))) =
      .inr .opening :: (T.tokens w ++ .inr .closing :: T.tokens rest) := by
  rw [← tokens_closeTag]
  exact tokens_word .opening _

/-- What a whole word adds. -/
theorem wellMarked_word {w rest : List α} (hw : ¬ T.openTag <:+: w) (hp : w ≠ [] → p w) :
    WellMarked p (T.tokens (T.openTag ++ (w ++ (T.closeTag ++ rest)))) ↔
      w ≠ [] ∧ T.Untagged w ∧ WellMarked p (T.tokens rest) := by
  rw [tokens_marked_word, wellMarked_opening_iff]
  constructor
  · rintro ⟨v, ts, hv, hne, -, hrest⟩
    rcases tokens_cases hw with hplain | ⟨v', w', rfl, hts⟩
    · rw [hplain] at hv
      obtain ⟨rfl, rfl⟩ := map_inl_append_inj hv
      exact ⟨hne, (untagged_iff hw).2 hplain, hrest⟩
    · rw [hts, List.append_assoc, List.cons_append] at hv
      obtain ⟨rfl, rfl⟩ := map_inl_append_inj hv
      have hnot := (not_infix_append (not_infix_append hw).2).2
      exact absurd hrest (not_wellMarked_append_closing (not_mem_tokens (t := .opening) hnot))
  · rintro ⟨hne, hun, hrest⟩
    exact ⟨w, _, by rw [(untagged_iff hw).1 hun], hne, hp hne, hrest⟩

theorem letters_word {w rest : List α} (hw : ¬ T.openTag <:+: w) (hun : T.Untagged w) :
    letters (T.tokens (T.openTag ++ (w ++ (T.closeTag ++ rest)))) =
      w ++ letters (T.tokens rest) := by
  rw [tokens_marked_word, letters_inr, letters_append, letters_inr, (untagged_iff hw).1 hun,
    letters_map_inl]

/-- A beginning of the opening tag that is not all of it. -/
theorem tokens_take_openTag {n : ℕ} (h : n < T.openTag.length) :
    T.tokens (T.openTag.take n) = (T.openTag.take n).map .inl := by
  refine (untagged_iff fun hopen => ?_).1 fun hclose => ?_
  · have hle := hopen.length_le
    rw [List.length_take] at hle
    omega
  · obtain ⟨a, b, hab⟩ := hclose.trans (List.take_prefix _ _).isInfix
    cases a with
    | nil => exact T.not_closing_opening ⟨b, (List.cons.inj hab).2⟩
    | cons c a =>
      refine T.not_mem_opening ?_
      rw [← (List.cons.inj hab).2]
      simp [closeTag]

/-- With its closing tag, a word still has no opening one. -/
theorem not_infix_closeTag {w : List α} (hw : ¬ T.openTag <:+: w) :
    ¬ T.openTag <:+: w ++ T.closeTag := by
  intro h
  have hmem : .inr .opening ∈ T.tokens (w ++ (T.closeTag ++ [])) := by
    rw [List.append_nil]
    exact mem_tokens_iff.2 h
  rw [tokens_closeTag] at hmem
  simp [not_mem_tokens (t := .opening) hw] at hmem

/-- What is shown of a word that is cut off. -/
theorem cut_shown {left : ℕ} {w rest after : List α} (hw : ¬ T.openTag <:+: w)
    (hleft : left < T.width w) :
    (WellMarked p (T.tokens ((T.openTag ++ (w ++ (T.closeTag ++ rest))).take left)) ∧
      letters (T.tokens ((T.openTag ++ (w ++ (T.closeTag ++ rest))).take left)) <+: after) ↔
        T.CutFits p left w after := by
  unfold CutFits
  unfold width at hleft
  rcases Nat.lt_or_ge left T.openTag.length with hlt | hge
  · have htake : (T.openTag ++ (w ++ (T.closeTag ++ rest))).take left = T.openTag.take left := by
      rw [List.take_append_of_le_length hlt.le]
    rw [htake, tokens_take_openTag hlt, letters_map_inl, and_iff_right (wellMarked_map_inl _)]
    simp [hlt, Nat.not_le.2 hlt]
  · have htake : (T.openTag ++ (w ++ (T.closeTag ++ rest))).take left =
        T.openTag ++ (w ++ T.closeTag).take (left - T.openTag.length) := by
      rw [List.take_append, List.take_of_length_le hge, ← List.append_assoc w,
        List.take_append_of_le_length]
      simp only [List.length_append]
      omega
    have hu : ¬ T.openTag <:+: (w ++ T.closeTag).take (left - T.openTag.length) := fun h =>
      not_infix_closeTag hw (h.trans (List.take_prefix _ _).isInfix)
    rw [htake, wellMarked_open hu]
    simp [hge, Nat.not_lt.2 hge]

omit [DecidableEq α] in
/-- What is shown of a text with a whole word in front. -/
theorem take_whole {left : ℕ} {w rest : List α} (hleft : T.width w ≤ left) :
    (T.openTag ++ (w ++ (T.closeTag ++ rest))).take left =
      T.openTag ++ (w ++ (T.closeTag ++ rest.take (left - T.width w))) := by
  unfold width at *
  simp only [List.take_append]
  rw [List.take_of_length_le (by omega), List.take_of_length_le (by omega),
    List.take_of_length_le (by omega)]
  have hlength : left - T.openTag.length - w.length - T.closeTag.length =
      left - (T.openTag.length + w.length + T.closeTag.length) := by
    omega
  rw [hlength]

variable {gap : List α} {ps : List (List α × List α)} {room : ℕ}

/-- **What is shown** of a marked text is well marked and without its tags the beginning of the text,
exactly if the pieces fit. -/
theorem shown_iff (hopen : ¬ T.openTag <:+: text gap ps) (hp : ∀ q ∈ ps, q.1 ≠ [] → p q.1) :
    (WellMarked p (T.tokens ((T.marked gap ps).take room)) ∧
      letters (T.tokens ((T.marked gap ps).take room)) <+: text gap ps) ↔
        T.Fits p room gap ps := by
  induction ps generalizing gap room with
  | nil =>
    have hgap : ¬ T.openTag <:+: gap.take room := fun h =>
      hopen (h.trans (List.take_prefix _ _).isInfix)
    have hiff := wellMarked_gap (p := p) hgap apart_nil
    rw [List.append_nil] at hiff
    simp only [marked, text, Fits, hiff, tokens_nil]
    constructor
    · rintro ⟨⟨hun, -⟩, -⟩
      exact hun
    · intro hun
      refine ⟨⟨hun, .nil⟩, ?_⟩
      rw [(untagged_iff hgap).1 hun, letters_map_inl]
      exact List.take_prefix _ _
  | cons q ps ih =>
    obtain ⟨w, gap'⟩ := q
    obtain ⟨hgap, hrest⟩ := not_infix_append hopen
    obtain ⟨hw, htext⟩ := not_infix_append hrest
    have hgap' : ¬ T.openTag <:+: gap.take room := fun h =>
      hgap (h.trans (List.take_prefix _ _).isInfix)
    have hapart := (apart_openTag (T := T) (w ++ (T.closeTag ++ T.marked gap' ps))).take
      (room - gap.length)
    simp only [marked, text, Fits]
    rw [List.take_append, wellMarked_gap hgap' hapart]
    by_cases hun : T.Untagged (gap.take room)
    · rw [letters_gap hgap' hapart hun]
      by_cases hroom : gap.length < room
      · rw [List.take_of_length_le hroom.le] at hun ⊢
        rw [List.prefix_append_right_inj]
        simp only [hun, hroom, true_and, true_imp_iff]
        split_ifs with hwhole
        · have hrec := @ih gap' (room - gap.length - T.width w) htext
            fun q hq => hp q (List.mem_cons_of_mem _ hq)
          rw [take_whole hwhole, wellMarked_word hw (hp _ List.mem_cons_self), ← hrec]
          constructor
          · rintro ⟨⟨hne, hunw, hmarked⟩, hbegin⟩
            rw [letters_word hw hunw, List.prefix_append_right_inj] at hbegin
            exact ⟨hne, hunw, hmarked, hbegin⟩
          · rintro ⟨hne, hunw, hmarked, hbegin⟩
            rw [letters_word hw hunw, List.prefix_append_right_inj]
            exact ⟨⟨hne, hunw, hmarked⟩, hbegin⟩
        · exact cut_shown hw (Nat.not_le.1 hwhole)
      · have hzero : room - gap.length = 0 := by omega
        have hnil : WellMarked p (T.tokens []) := .nil
        have hbegin : gap.take room ++ letters (T.tokens []) <+: gap ++ (w ++ text gap' ps) := by
          rw [tokens_nil, letters, List.filterMap_nil, List.append_nil]
          exact (List.take_prefix _ _).trans (List.prefix_append _ _)
        simp only [hun, hroom, hzero, List.take_zero, hnil, hbegin, and_self, false_imp_iff]
    · simp [hun]

/-- All of a marked text is well marked only if the pieces fit. -/
theorem fits_of_wellMarked (hopen : ¬ T.openTag <:+: text gap ps)
    (hp : ∀ q ∈ ps, q.1 ≠ [] → p q.1) (hroom : (T.marked gap ps).length ≤ room)
    (h : WellMarked p (T.tokens (T.marked gap ps))) : T.Fits p room gap ps := by
  induction ps generalizing gap room with
  | nil =>
    have hmarked : WellMarked p (T.tokens (gap ++ [])) := by
      rw [List.append_nil]
      exact h
    have hlength : gap.length ≤ room := hroom
    unfold Fits
    rw [List.take_of_length_le hlength]
    exact ((wellMarked_gap hopen apart_nil).1 hmarked).1
  | cons q ps ih =>
    obtain ⟨w, gap'⟩ := q
    obtain ⟨hgap, hrest⟩ := not_infix_append hopen
    obtain ⟨hw, htext⟩ := not_infix_append hrest
    obtain ⟨hun, hmarked⟩ := (wellMarked_gap hgap (apart_openTag _)).1 h
    obtain ⟨hne, hunw, hbehind⟩ := (wellMarked_word hw (hp _ List.mem_cons_self)).1 hmarked
    simp only [marked, List.length_append] at hroom
    have hwidth : T.width w + (T.marked gap' ps).length ≤ room - gap.length := by
      unfold width
      omega
    unfold Fits
    rw [List.take_of_length_le (by omega)]
    refine ⟨hun, fun _ => ?_⟩
    rw [if_pos (by omega)]
    exact ⟨hne, hunw, ih htext (fun q hq => hp q (List.mem_cons_of_mem _ hq)) (by omega) hbehind⟩

/-! ## Cutting off -/

omit [DecidableEq α] in
/-- A text that is too long is cut off, with a sign behind it. -/
def shorten (limit : ℕ) (sign l : List α) : List α :=
  if l.length ≤ limit then l else l.take limit ++ sign

/-- A text without the sign at its end. -/
def unsigned (sign l : List α) : List α :=
  if sign <:+ l then l.take (l.length - sign.length) else l

theorem unsigned_append (sign l : List α) : unsigned sign (l ++ sign) = l := by
  unfold unsigned
  rw [if_pos (List.suffix_append _ _)]
  simp

theorem prefix_unsigned (sign l : List α) : unsigned sign l <+: l := by
  unfold unsigned
  split_ifs
  · exact List.take_prefix _ _
  · exact List.prefix_rfl

/-- **A marked text, cut off**, is well marked and without its tags and the sign the beginning of the
text, exactly if the pieces fit. -/
theorem shorten_iff (limit : ℕ) {sign : List α} (hapart : T.Apart sign)
    (hsign : T.tokens sign = sign.map .inl) (hopen : ¬ T.openTag <:+: text gap ps)
    (hp : ∀ q ∈ ps, q.1 ≠ [] → p q.1) :
    (WellMarked p (T.tokens (shorten limit sign (T.marked gap ps))) ∧
      unsigned sign (letters (T.tokens (shorten limit sign (T.marked gap ps)))) <+: text gap ps) ↔
        T.Fits p limit gap ps := by
  unfold shorten
  split_ifs with hlength
  · constructor
    · rintro ⟨hmarked, -⟩
      exact fits_of_wellMarked hopen hp hlength hmarked
    · intro hfits
      obtain ⟨hmarked, hbegin⟩ := (shown_iff hopen hp).2 hfits
      rw [List.take_of_length_le hlength] at hmarked hbegin
      exact ⟨hmarked, (prefix_unsigned _ _).trans hbegin⟩
  · rw [tokens_append hapart, hsign, wellMarked_append_letters, letters_append, letters_map_inl,
      unsigned_append]
    exact shown_iff hopen hp

end Pieces

end Tags
