import FlowMesh.Scripting.Guardrails
import Mathlib.Data.List.Nodup

/-!
# Unconstrained writes

Two of the patterns for SQL look for a `DELETE` or an `UPDATE` without a `WHERE` clause. A single
statement is given by its parts (`DeleteStatement`, `UpdateStatement`); a `WHERE` clause of its own
stands outside of quotes and parentheses (`hasWhere`).

The pattern for `DELETE` finds a statement if nothing follows its table, the one for `UPDATE` if what
is set stands in one line, with a `WHERE` clause or without (`delete_search_iff`,
`update_search_iff`); both miss a table with its schema. `unconstrained_iff` says for which
statements the check tells whether there is a `WHERE` clause.
-/

namespace FlowMesh.Scripting

open Python

/-! ## Statements -/

/-- A keyword in any case. -/
def Spells (keyword : String) (w : List Char) : Prop :=
  List.Forall₂ (fun a c => ignoringCase a c = true) keyword.toList w

/-- Blanks. -/
def Blank (l : List Char) : Prop := ∀ c ∈ l, isSpace c = true

instance decidableBlank (l : List Char) : Decidable (Blank l) :=
  inferInstanceAs (Decidable (∀ c ∈ l, _))

/-- A text with what is in quotes blanked out. -/
def unquoted : Option Char → List Char → List Char
  | _, [] => []
  | some q, c :: cs => ' ' :: unquoted (if c = q then none else some q) cs
  | none, c :: cs =>
    if c ∈ ['\'', '"'] then ' ' :: unquoted (some c) cs else c :: unquoted none cs

/-- A text with what is in parentheses blanked out. -/
def topLevel : (depth : ℕ) → List Char → List Char
  | _, [] => []
  | depth, c :: cs =>
    if c = '(' then ' ' :: topLevel (depth + 1) cs
    else if c = ')' then ' ' :: topLevel (depth - 1) cs
    else (if depth = 0 then c else ' ') :: topLevel depth cs

section Statements

variable (beyond : Char → Bool)

/-- A `WHERE` clause of the statement itself. -/
def hasWhere (body : List Char) : Bool :=
  (keyword "where").search (isWord beyond) none (topLevel 0 (unquoted none body))

/-- A word. -/
def IsName (w : List Char) : Prop := w ≠ [] ∧ ∀ c ∈ w, isWord beyond c = true

/-- What does not go on with a name. -/
def EndsName (l : List Char) : Prop := ∀ c, l.head? = some c → isWord beyond c = false ∧ c ≠ '.'

/-- A table, plain or with its schema. -/
inductive Table
  | plain (name : {w // IsName beyond w})
  | qualified (schema name : {w // IsName beyond w})

/-- A table as it is written. -/
def Table.text : Table beyond → List Char
  | .plain name => name.val
  | .qualified schema name => schema.val ++ '.' :: name.val

/-- The end of a statement: a semicolon or none, and blanks. -/
structure Ending where
  semicolon : Bool
  trail : List Char
  blank : Blank trail

/-- An end as it is written. -/
def Ending.text (e : Ending) : List Char := (if e.semicolon then [';'] else []) ++ e.trail

/-- A single `DELETE` statement: what follows the table is its body. -/
structure DeleteStatement where
  lead : List Char
  verb : List Char
  gap : List Char
  fromWord : List Char
  gap' : List Char
  table : Table beyond
  body : List Char
  ending : Ending
  lead_blank : Blank lead
  verb_spells : Spells "delete" verb
  gap_blank : gap ≠ [] ∧ Blank gap
  from_spells : Spells "from" fromWord
  gap'_blank : gap' ≠ [] ∧ Blank gap'
  body_apart : EndsName beyond body
  /-- A semicolon stands in quotes. -/
  one : ';' ∉ unquoted none body

/-- A single `UPDATE` statement: what stands between the table and `SET` is another name for it, what
follows `SET` is its body. -/
structure UpdateStatement where
  lead : List Char
  verb : List Char
  gap : List Char
  table : Table beyond
  names : List ({g // g ≠ [] ∧ Blank g} × {w // IsName beyond w ∧ ¬ Spells "set" w})
  gap' : List Char
  setWord : List Char
  body : List Char
  ending : Ending
  lead_blank : Blank lead
  verb_spells : Spells "update" verb
  gap_blank : gap ≠ [] ∧ Blank gap
  gap'_blank : gap' ≠ [] ∧ Blank gap'
  set_spells : Spells "set" setWord
  body_apart : EndsName beyond body

variable {beyond}

/-- A statement behind its verb. -/
def DeleteStatement.rest (d : DeleteStatement beyond) : List Char :=
  d.gap ++ (d.fromWord ++ (d.gap' ++ (d.table.text ++ (d.body ++ d.ending.text))))

/-- A statement as it is written. -/
def DeleteStatement.text (d : DeleteStatement beyond) : List Char := d.lead ++ (d.verb ++ d.rest)

/-- The other name of a table as it is written. -/
def UpdateStatement.alias (u : UpdateStatement beyond) : List Char :=
  u.names.flatMap fun name => name.1.val ++ name.2.val

/-- A statement behind its verb. -/
def UpdateStatement.rest (u : UpdateStatement beyond) : List Char :=
  u.gap ++ (u.table.text ++ (u.alias ++ (u.gap' ++ (u.setWord ++ (u.body ++ u.ending.text)))))

/-- A statement as it is written. -/
def UpdateStatement.text (u : UpdateStatement beyond) : List Char := u.lead ++ (u.verb ++ u.rest)

variable (beyond)

/-- The beginning of a `DELETE` statement. -/
def deleteHead : Pattern Char := .cat [.boundary, anyCase "delete", blanks, anyCase "from"]

/-- The beginning of an `UPDATE` statement. -/
def updateHead : Pattern Char :=
  .cat [.boundary, anyCase "update", blanks, .many1 (isWord beyond), blanks, anyCase "set"]

/-- No statement begins further behind. -/
def Single (head : Pattern Char) (lead text : List Char) : Prop :=
  ∀ pre post, text = pre ++ post → lead.length < pre.length →
    ¬ head.MatchesAt (isWord beyond) (pre.getLast?, post)

/-- A single statement that writes. -/
inductive WriteStatement
  | delete (d : DeleteStatement beyond) (single : Single beyond deleteHead d.lead d.text)
  | update (u : UpdateStatement beyond) (single : Single beyond (updateHead beyond) u.lead u.text)

variable {beyond}

namespace WriteStatement

/-- A statement as it is written. -/
def text : WriteStatement beyond → List Char
  | .delete d _ => d.text
  | .update u _ => u.text

/-- It has a `WHERE` clause. -/
def HasWhere : WriteStatement beyond → Prop
  | .delete d _ => hasWhere beyond d.body = true
  | .update u _ => hasWhere beyond u.body = true

/-- The corresponding risk. -/
def risk : WriteStatement beyond → String
  | .delete _ _ => deleteRisk
  | .update _ _ => updateRisk

end WriteStatement

/-- A table without its schema. -/
def Table.IsPlain : Table beyond → Prop
  | .plain _ => True
  | .qualified _ _ => False

/-- Nothing follows a table without its schema. -/
def DeleteStatement.Bare (d : DeleteStatement beyond) : Prop := d.table.IsPlain ∧ Blank d.body

/-- A table without its schema and another name, and what is set in one line: up to the first
semicolon. -/
def UpdateStatement.OneLine (u : UpdateStatement beyond) : Prop :=
  u.table.IsPlain ∧ u.names = [] ∧ (u.body ++ u.ending.text).head?.any isSpace = true ∧
    '\n' ∉ ((u.body ++ u.ending.text).dropWhile isSpace).takeWhile (· ≠ ';')

/-- When the check tells whether there is a `WHERE` clause. -/
def WriteStatement.Guarded : WriteStatement beyond → Prop
  | .delete d _ => hasWhere beyond d.body = true ∨ d.Bare
  | .update u _ => (hasWhere beyond u.body = true ∧ ¬ u.OneLine) ∨
      (hasWhere beyond u.body = false ∧ u.OneLine)

end Statements

/-! ## Letters of keywords -/

section Letters

variable {beyond : Char → Bool}

theorem isSpace_of_isAlphanum {c : Char} (h : c.isAlphanum = true) : isSpace c = false := by
  delta Char.isAlphanum Char.isAlpha Char.isUpper Char.isLower Char.isDigit at h
  simp [UInt32.le_iff_toNat_le] at h
  simp [isSpace]
  omega

theorem isSpace_of_isWord {c : Char} (h : isWord beyond c = true) : isSpace c = false := by
  unfold isWord at h
  simp only [Bool.or_eq_true, Bool.and_eq_true, Bool.not_eq_true', decide_eq_true_eq] at h
  rcases h with (h | h) | ⟨⟨-, h⟩, -⟩
  · exact isSpace_of_isAlphanum h
  · simp only [List.mem_cons, List.not_mem_nil, or_false] at h
    rcases h with rfl | rfl | rfl | rfl | rfl <;> decide
  · exact h

/-- A letter of a keyword is a letter of a word. -/
theorem isWord_of_ignoringCase {a c : Char} (ha : a.isAlphanum = true)
    (ha' : a.toUpper.isAlphanum = true) (h : ignoringCase a c = true) :
    isWord beyond c = true := by
  unfold ignoringCase at h
  simp only [Bool.or_eq_true, Bool.and_eq_true, decide_eq_true_eq] at h
  unfold isWord
  rcases h with (((rfl | rfl) | ⟨-, rfl | rfl⟩) | ⟨-, rfl⟩) | ⟨-, rfl⟩
  · simp [ha]
  · simp [ha']
  all_goals simp

/-- A keyword as a pattern. -/
theorem matchesAt_anyCase_seq {s : Pattern Char} {keyword : String} {before : Option Char}
    {cs : List Char} : (Pattern.seq (anyCase keyword) s).MatchesAt (isWord beyond) (before, cs) ↔
      ∃ w cs', cs = w ++ cs' ∧ Spells keyword w ∧
        s.MatchesAt (isWord beyond) (w.getLast?.or before, cs') := by
  unfold anyCase Spells
  simp only [Pattern.matchesAt_spelled_seq, List.forall₂_map_left_iff]

end Letters

/-! ## Behind the verb -/

section Matching

variable {beyond : Char → Bool}

/-- Keywords are words of letters. -/
def IsKeyword (keyword : String) : Prop :=
  keyword.toList ≠ [] ∧ ∀ a ∈ keyword.toList, a.isAlphanum = true ∧ a.toUpper.isAlphanum = true

theorem isKeyword_delete : IsKeyword "delete" := ⟨by decide +kernel, by simp⟩

theorem isKeyword_from : IsKeyword "from" := ⟨by decide +kernel, by simp⟩

theorem isKeyword_update : IsKeyword "update" := ⟨by decide +kernel, by simp⟩

theorem isKeyword_where : IsKeyword "where" := ⟨by decide +kernel, by simp⟩

theorem isKeyword_set : IsKeyword "set" := ⟨by decide +kernel, by simp⟩

theorem Spells.isName (beyond : Char → Bool) {keyword : String} {w : List Char}
    (hk : IsKeyword keyword) (h : Spells keyword w) : IsName beyond w := by
  refine ⟨?_, fun c hc => ?_⟩
  · rintro rfl
    exact hk.1 (List.forall₂_nil_right_iff.1 h)
  · obtain ⟨a, ha, hac⟩ : ∃ a ∈ keyword.toList, ignoringCase a c = true := by
      obtain ⟨i, hi, rfl⟩ := List.getElem_of_mem hc
      have hi' : i < keyword.toList.length := h.length_eq ▸ hi
      exact ⟨_, List.getElem_mem hi', h.get hi' hi⟩
    exact isWord_of_ignoringCase (hk.2 a ha).1 (hk.2 a ha).2 hac

/-- A name is no blank in front of a text. -/
theorem IsName.outside {w rest : List Char} (h : IsName beyond w) :
    Pattern.Outside isSpace (w ++ rest) := by
  intro c hc
  cases w with
  | nil => exact absurd rfl h.1
  | cons a w =>
    cases hc
    exact isSpace_of_isWord (h.2 _ List.mem_cons_self)

/-- Two keywords in front of the same text. -/
theorem Spells.append_inj {keyword : String} {w w' rest rest' : List Char}
    (h : Spells keyword w) (h' : Spells keyword w') (heq : w ++ rest = w' ++ rest') :
    w = w' ∧ rest = rest' :=
  List.append_inj heq (h.length_eq.symm.trans h'.length_eq)

/-- Where a pattern does not begin with a blank, and does not match further behind, it is searched for
behind the blanks in front. -/
theorem search_behind_blanks {r : Pattern Char} {lead cs : List Char} (hlead : Blank lead)
    (hr : ∀ before cs, r.MatchesAt (isWord beyond) (before, cs) →
      ∃ c cs', cs = c :: cs' ∧ isSpace c = false)
    (hsingle : ∀ pre post, lead ++ cs = pre ++ post → lead.length < pre.length →
      ¬ r.MatchesAt (isWord beyond) (pre.getLast?, post)) :
    r.search (isWord beyond) none (lead ++ cs) = true ↔
      r.MatchesAt (isWord beyond) (lead.getLast?, cs) := by
  rw [Pattern.search_iff]
  simp only [Option.or_none]
  constructor
  · rintro ⟨pre, post, heq, hmatch⟩
    rcases Nat.lt_trichotomy pre.length lead.length with hlt | hlength | hgt
    · -- a match would begin with a blank
      obtain ⟨d, hd⟩ := List.prefix_of_prefix_length_le ⟨post, heq.symm⟩
        (List.prefix_append lead cs) hlt.le
      obtain ⟨c, post', rfl, hc⟩ := hr _ _ hmatch
      rw [← hd, List.append_assoc, List.append_cancel_left_eq] at heq
      cases d with
      | nil =>
        rw [← hd, List.append_nil] at hlt
        exact absurd hlt (lt_irrefl _)
      | cons a d =>
        obtain ⟨rfl, -⟩ := List.cons.inj heq
        have hblank := hlead a (hd ▸ by simp)
        rw [hc] at hblank
        cases hblank
    · obtain ⟨rfl, rfl⟩ := List.append_inj heq hlength.symm
      exact hmatch
    · exact absurd hmatch (hsingle pre post heq hgt)
  · intro h
    exact ⟨lead, cs, rfl, h⟩

variable {s : Pattern Char} {before : Option Char} {l w cs : List Char} {keyword : String}

/-- A keyword does not begin with a blank. -/
theorem avoids_anyCase (hk : IsKeyword keyword) :
    Pattern.Avoids (isWord beyond) isSpace (.seq (anyCase keyword) s) := by
  intro before cs h
  obtain ⟨w, cs', rfl, hw, -⟩ := matchesAt_anyCase_seq.1 h
  exact (hw.isName beyond hk).outside

/-- Nor does a name. -/
theorem avoids_name :
    Pattern.Avoids (isWord beyond) isSpace (.seq (.many1 (isWord beyond)) s) := by
  intro before cs h
  obtain ⟨w, cs', rfl, hne, hw, -⟩ := Pattern.matchesAt_many1_seq.1 h
  exact IsName.outside ⟨hne, hw⟩

/-- A blank is no letter of a word. -/
theorem Blank.outside (hne : l ≠ []) (hl : Blank l) : Pattern.Outside (isWord beyond) (l ++ cs) := by
  intro c hc
  cases l with
  | nil => exact absurd rfl hne
  | cons a l =>
    cases hc
    by_contra hword
    have hblank := hl _ List.mem_cons_self
    rw [isSpace_of_isWord (by simpa using hword)] at hblank
    cases hblank

theorem avoids_blanks : Pattern.Avoids (isWord beyond) (isWord beyond) (.seq blanks s) := by
  intro before cs h
  obtain ⟨l, cs', rfl, hne, hl, -⟩ := Pattern.matchesAt_many1_seq.1 h
  exact Blank.outside hne hl

theorem matchesAt_keyword (hk : IsKeyword keyword) (hw : Spells keyword w) :
    (Pattern.seq (anyCase keyword) s).MatchesAt (isWord beyond) (before, w ++ cs) ↔
      s.MatchesAt (isWord beyond) (w.getLast?, cs) := by
  have hlast : w.getLast?.or before = w.getLast? := by
    have hne := (hw.isName beyond hk).1
    rw [List.getLast?_eq_some_getLast hne]
    rfl
  rw [matchesAt_anyCase_seq, ← hlast]
  constructor
  · rintro ⟨w', cs', heq, hw', h⟩
    obtain ⟨rfl, rfl⟩ := hw.append_inj hw' heq
    exact h
  · intro h
    exact ⟨w, cs, rfl, hw, h⟩

/-- The end of both patterns. -/
theorem matchesAt_end : (Pattern.seq (.alt (oneOf [';']) .ending) .empty).MatchesAt (isWord beyond)
    (before, cs) ↔ cs.head? = some ';' ∨ cs = [] := by
  rw [Pattern.matchesAt_seq_empty, Pattern.matchesAt_alt, Pattern.matchesAt_ending, oneOf,
    Pattern.matchesAt_letter]
  simp

/-- The end of a statement does not go on with a name. -/
theorem EndsName.outside {body : List Char} (h : EndsName beyond body) (e : Ending) :
    Pattern.Outside (isWord beyond) (body ++ e.text) := by
  intro c hc
  cases body with
  | cons a body =>
    cases hc
    exact (h _ rfl).1
  | nil =>
    obtain ⟨semicolon, trail, hblank⟩ := e
    cases semicolon with
    | true =>
      cases hc
      rfl
    | false =>
      cases trail with
      | nil => cases hc
      | cons a trail =>
        cases hc
        by_contra hword
        have hspace := hblank _ List.mem_cons_self
        rw [isSpace_of_isWord (by simpa using hword)] at hspace
        cases hspace

theorem unquoted_append {l : List Char} (hl : Blank l) (rest : List Char) :
    unquoted none (l ++ rest) = l ++ unquoted none rest := by
  induction l with
  | nil => rfl
  | cons c l ih =>
    obtain ⟨hc, hrest⟩ := List.forall_mem_cons.1 hl
    have hquote : c ∉ ['\'', '"'] := by
      intro hmem
      simp only [List.mem_cons, List.not_mem_nil, or_false] at hmem
      rcases hmem with rfl | rfl <;> cases hc
    rw [List.cons_append, unquoted, if_neg hquote, ih hrest]
    rfl

/-- What is only blank in front of a semicolon, or up to the end. -/
theorem matchesAt_bare {body : List Char} {e : Ending} (hone : ';' ∉ unquoted none body) :
    (Pattern.seq someBlanks (.seq (.alt (oneOf [';']) .ending) .empty)).MatchesAt (isWord beyond)
      (before, body ++ e.text) ↔ Blank body := by
  unfold someBlanks
  simp only [Pattern.matchesAt_many_seq, matchesAt_end]
  obtain ⟨semicolon, trail, hblank⟩ := e
  constructor
  · rintro ⟨l, rest, heq, hl, hrest⟩
    rcases List.append_eq_append_iff.1 heq with ⟨d, rfl, -⟩ | ⟨d, rfl, hd⟩
    · exact fun c hc => hl c (List.mem_append_left _ hc)
    · cases d with
      | nil => rwa [List.append_nil]
      | cons a d =>
        -- a semicolon in the body
        rw [hd] at hrest
        rcases hrest with hrest | hrest
        · cases hrest
          rw [unquoted_append hl] at hone
          exact absurd (List.mem_append_right l List.mem_cons_self) hone
        · cases hrest
  · intro hbody
    cases semicolon with
    | true => exact ⟨body, _, rfl, hbody, Or.inl rfl⟩
    | false =>
      refine ⟨body ++ trail, [], by simp [Ending.text], fun c hc => ?_, Or.inr rfl⟩
      rcases List.mem_append.1 hc with hc | hc
      · exact hbody c hc
      · exact hblank c hc

/-- A pattern that begins with a keyword. -/
theorem exists_of_matchesAt {rs : List (Pattern Char)} (hk : IsKeyword keyword)
    (h : (Pattern.cat (.boundary :: anyCase keyword :: rs)).MatchesAt (isWord beyond) (before, cs)) :
    ∃ c cs', cs = c :: cs' ∧ isSpace c = false := by
  obtain ⟨w, cs', rfl, hw, -⟩ := matchesAt_anyCase_seq.1 (Pattern.matchesAt_boundary_seq.1 h).2
  obtain ⟨hne, hword⟩ := hw.isName beyond hk
  cases w with
  | nil => exact absurd rfl hne
  | cons c w => exact ⟨c, _, rfl, isSpace_of_isWord (hword c List.mem_cons_self)⟩

/-- A name behind blanks begins at a boundary. -/
theorem boundary_behind_blanks {lead : List Char} (hlead : Blank lead) (hw : IsName beyond w)
    (cs : List Char) :
    lead.getLast?.any (isWord beyond) ≠ (w ++ cs).head?.any (isWord beyond) := by
  have hfront : lead.getLast?.any (isWord beyond) = false := by
    cases hlast : lead.getLast? with
    | none => rfl
    | some c =>
      by_contra hword
      have hblank := hlead c (List.mem_of_getLast? hlast)
      rw [isSpace_of_isWord (by simpa using hword)] at hblank
      cases hblank
  rw [hfront]
  cases w with
  | nil => exact absurd rfl hw.1
  | cons c w => simp [hw.2 c List.mem_cons_self]

/-- The verb of a statement, behind the blanks in front of it. -/
theorem matchesAt_verb {lead : List Char} {rs : List (Pattern Char)} (hk : IsKeyword keyword)
    (hlead : Blank lead) (hw : Spells keyword w) :
    (Pattern.cat (.boundary :: anyCase keyword :: rs)).MatchesAt (isWord beyond)
      (lead.getLast?, w ++ cs) ↔ (Pattern.cat rs).MatchesAt (isWord beyond) (w.getLast?, cs) := by
  have hboundary := boundary_behind_blanks hlead (hw.isName beyond hk) cs
  rw [Pattern.cat, Pattern.matchesAt_boundary_seq, and_iff_right hboundary, Pattern.cat,
    matchesAt_keyword hk hw]

/-- Blanks in front of a name. -/
theorem matchesAt_gap {gap : List Char} (hgap : gap ≠ [] ∧ Blank gap)
    (hcs : Pattern.Outside isSpace cs) (hs : Pattern.Avoids (isWord beyond) isSpace s) :
    (Pattern.seq blanks s).MatchesAt (isWord beyond) (before, gap ++ cs) ↔
      s.MatchesAt (isWord beyond) (gap.getLast?, cs) :=
  Pattern.matchesAt_many1_block hgap.1 hgap.2 hcs hs

/-- A table with its schema is not a word. -/
theorem not_matchesAt_dot (hs : ∀ before cs, s.MatchesAt (isWord beyond) (before, cs) →
    cs.head? ≠ some '.') {schema : List Char} (hschema : IsName beyond schema)
    (ha : Pattern.Avoids (isWord beyond) (isWord beyond) s) :
    ¬ (Pattern.seq (.many1 (isWord beyond)) s).MatchesAt (isWord beyond)
      (before, schema ++ '.' :: cs) := by
  have hdot : Pattern.Outside (isWord beyond) ('.' :: cs) := by
    intro c hc
    cases hc
    rfl
  rw [Pattern.matchesAt_many1_block hschema.1 hschema.2 hdot ha]
  intro h
  exact hs _ _ h rfl

/-- A table begins with a name. -/
theorem Table.outside (t : Table beyond) : Pattern.Outside isSpace (t.text ++ cs) := by
  cases t with
  | plain name => exact name.property.outside
  | qualified schema name =>
    rw [Table.text, List.append_assoc]
    exact schema.property.outside

/-- What the check for `DELETE` finds. -/
theorem delete_search_iff (d : DeleteStatement beyond)
    (hsingle : Single beyond deleteHead d.lead d.text) :
    (deletePattern beyond).search (isWord beyond) none d.text = true ↔ d.Bare := by
  have hhead : ∀ k, (deletePattern beyond).MatchesAt (isWord beyond) k →
      deleteHead.MatchesAt (isWord beyond) k := fun k h =>
    Pattern.matchesAt_of_cat_append [.boundary, anyCase "delete", blanks, anyCase "from"]
      [blanks, .many1 (isWord beyond), someBlanks, .alt (oneOf [';']) .ending] h
  -- behind the table, blanks or the end
  have hend : ∀ before cs, (Pattern.seq someBlanks (.seq (.alt (oneOf [';']) .ending)
      .empty)).MatchesAt (isWord beyond) (before, cs) →
        ∀ c, cs.head? = some c → isSpace c = true ∨ c = ';' := by
    intro before cs h c hc
    obtain ⟨l, cs', rfl, hl, hend⟩ := Pattern.matchesAt_many_seq.1 h
    cases l with
    | cons a l =>
      cases hc
      exact Or.inl (hl _ List.mem_cons_self)
    | nil =>
      rcases matchesAt_end.1 hend with hsemi | rfl
      · exact Or.inr (Option.some.inj (hc.symm.trans hsemi))
      · cases hc
  have havoids : Pattern.Avoids (isWord beyond) (isWord beyond) (.seq someBlanks
      (.seq (.alt (oneOf [';']) .ending) .empty)) := by
    intro before cs h c hc
    rcases hend _ _ h c hc with hspace | rfl
    · by_contra hword
      rw [isSpace_of_isWord (by simpa using hword)] at hspace
      cases hspace
    · rfl
  rw [DeleteStatement.text, search_behind_blanks (r := deletePattern beyond) d.lead_blank (fun _ _ h =>
    exists_of_matchesAt isKeyword_delete h) fun pre post heq hlt h =>
      hsingle pre post heq hlt (hhead _ h)]
  unfold deletePattern DeleteStatement.rest DeleteStatement.Bare
  rw [matchesAt_verb isKeyword_delete d.lead_blank d.verb_spells]
  simp only [Pattern.cat]
  rw [matchesAt_gap d.gap_blank (d.from_spells.isName beyond isKeyword_from).outside
    (avoids_anyCase isKeyword_from), matchesAt_keyword isKeyword_from d.from_spells,
    matchesAt_gap d.gap'_blank d.table.outside avoids_name]
  cases htable : d.table with
  | plain name =>
    rw [Table.text, Pattern.matchesAt_many1_block name.property.1 name.property.2
      (d.body_apart.outside d.ending) havoids, matchesAt_bare d.one]
    exact (and_iff_right trivial).symm
  | qualified schema name =>
    rw [Table.text, List.append_assoc, List.cons_append]
    refine iff_of_false (not_matchesAt_dot (fun before cs h hdot => ?_) schema.property havoids)
      fun h => h.1
    rcases hend _ _ h _ hdot with hspace | hsemi
    · cases hspace
    · cases hsemi

/-- Letters in front of the first semicolon. -/
theorem mem_of_mem_takeWhile {c : Char} {l rest : List Char}
    (hrest : rest.head? = some ';' ∨ rest = []) (h : c ∈ (l ++ rest).takeWhile (· ≠ ';')) :
    c ∈ l := by
  induction l with
  | nil =>
    rcases hrest with hrest | rfl
    · cases rest with
      | nil => cases hrest
      | cons a rest =>
        cases hrest
        simp at h
    · cases h
  | cons a l ih =>
    rw [List.cons_append, List.takeWhile_cons] at h
    split at h
    · rcases List.mem_cons.1 h with rfl | h
      · exact List.mem_cons_self
      · exact List.mem_cons_of_mem _ (ih h)
    · cases h

/-- What is in one line behind blanks, up to a semicolon or the end. -/
theorem matchesAt_line : (Pattern.seq blanks (.seq anything (.seq (.alt (oneOf [';']) .ending)
    .empty))).MatchesAt (isWord beyond) (before, cs) ↔
      cs.head?.any isSpace = true ∧ '\n' ∉ (cs.dropWhile isSpace).takeWhile (· ≠ ';') := by
  unfold blanks anything
  simp only [Pattern.matchesAt_many1_seq, Pattern.matchesAt_many_seq, matchesAt_end]
  constructor
  · rintro ⟨g, _, rfl, hne, hg, l, rest, rfl, hl, hrest⟩
    refine ⟨?_, fun hline => ?_⟩
    · cases g with
      | nil => exact absurd rfl hne
      | cons c g => simp [hg c List.mem_cons_self]
    · have hstay : rest.dropWhile isSpace = rest := by
        rcases hrest with hrest | rfl
        · cases rest with
          | nil => rfl
          | cons a rest =>
            cases hrest
            rfl
        · rfl
      have hdrop : (g ++ (l ++ rest)).dropWhile isSpace = l.dropWhile isSpace ++ rest := by
        rw [List.dropWhile_append_of_pos hg, List.dropWhile_append]
        split_ifs with hempty
        · rw [hstay, List.isEmpty_iff.1 hempty, List.nil_append]
        · rfl
      rw [hdrop] at hline
      have hmem := (List.dropWhile_suffix isSpace).subset (mem_of_mem_takeWhile hrest hline)
      cases hl _ hmem
  · rintro ⟨hhead, hline⟩
    refine ⟨cs.takeWhile isSpace, cs.dropWhile isSpace, (List.takeWhile_append_dropWhile).symm, ?_,
      fun c hc => List.mem_takeWhile_imp hc, (cs.dropWhile isSpace).takeWhile (· ≠ ';'),
      (cs.dropWhile isSpace).dropWhile (· ≠ ';'), (List.takeWhile_append_dropWhile).symm,
      fun c hc => ?_, ?_⟩
    · cases cs with
      | nil => cases hhead
      | cons c cs =>
        have hc : isSpace c = true := by simpa using hhead
        simp [hc]
    · have hne : c ≠ '\n' := by
        rintro rfl
        exact hline hc
      simpa [isDot] using hne
    · have hstop := List.head?_dropWhile_not (· ≠ ';') (cs.dropWhile isSpace)
      cases hrest : (cs.dropWhile isSpace).dropWhile (· ≠ ';') with
      | nil => exact Or.inr rfl
      | cons a rest =>
        rw [hrest] at hstop
        exact Or.inl (by simpa using hstop)

/-- Another name of the table is not `SET`. -/
theorem not_matchesAt_other {rest : List Char} (hw : IsName beyond w) (hset : ¬ Spells "set" w)
    (hrest : Pattern.Outside (isWord beyond) rest) :
    ¬ (Pattern.seq (anyCase "set") (.seq blanks s)).MatchesAt (isWord beyond)
      (before, w ++ rest) := by
  intro h
  obtain ⟨l, cs', heq, hl, hblanks⟩ := matchesAt_anyCase_seq.1 h
  obtain ⟨rfl, -⟩ := Pattern.block_inj hw.2 (hl.isName beyond isKeyword_set).2 hrest
    (avoids_blanks _ _ hblanks) heq
  exact hset hl

/-- What the check for `UPDATE` finds. -/
theorem update_search_iff (u : UpdateStatement beyond)
    (hsingle : Single beyond (updateHead beyond) u.lead u.text) :
    (updatePattern beyond).search (isWord beyond) none u.text = true ↔ u.OneLine := by
  have hhead : ∀ k, (updatePattern beyond).MatchesAt (isWord beyond) k →
      (updateHead beyond).MatchesAt (isWord beyond) k := fun k h =>
    Pattern.matchesAt_of_cat_append
      [.boundary, anyCase "update", blanks, .many1 (isWord beyond), blanks, anyCase "set"]
      [blanks, anything, .alt (oneOf [';']) .ending] h
  rw [UpdateStatement.text, search_behind_blanks (r := updatePattern beyond) u.lead_blank
    (fun _ _ h => exists_of_matchesAt isKeyword_update h) fun pre post heq hlt h =>
      hsingle pre post heq hlt (hhead _ h)]
  unfold updatePattern UpdateStatement.rest UpdateStatement.OneLine
  rw [matchesAt_verb isKeyword_update u.lead_blank u.verb_spells]
  simp only [Pattern.cat]
  rw [matchesAt_gap u.gap_blank u.table.outside avoids_name]
  have hset : Pattern.Outside isSpace (u.setWord ++ (u.body ++ u.ending.text)) :=
    (u.set_spells.isName beyond isKeyword_set).outside
  cases htable : u.table with
  | qualified schema name =>
    rw [Table.text, List.append_assoc, List.cons_append]
    refine iff_of_false (not_matchesAt_dot (fun before cs h hdot => ?_) schema.property
      avoids_blanks) fun h => h.1
    obtain ⟨l, cs', rfl, hne, hl, -⟩ := Pattern.matchesAt_many1_seq.1 h
    cases l with
    | nil => exact absurd rfl hne
    | cons a l =>
      cases hdot
      cases hl _ List.mem_cons_self
  | plain name =>
    unfold UpdateStatement.alias
    cases hnames : u.names with
    | nil =>
      rw [Table.text, List.flatMap_nil, List.nil_append,
        Pattern.matchesAt_many1_block name.property.1 name.property.2
          (Blank.outside u.gap'_blank.1 u.gap'_blank.2) avoids_blanks,
        matchesAt_gap u.gap'_blank hset (avoids_anyCase isKeyword_set),
        matchesAt_keyword isKeyword_set u.set_spells, matchesAt_line]
      simp [Table.IsPlain]
    | cons other names =>
      obtain ⟨g, w⟩ := other
      -- what follows the other name begins with a blank
      have hbehind : Pattern.Outside (isWord beyond) (names.flatMap (fun name => name.1.val ++
          name.2.val) ++ (u.gap' ++ (u.setWord ++ (u.body ++ u.ending.text)))) := by
        cases names with
        | nil =>
          rw [List.flatMap_nil, List.nil_append]
          exact Blank.outside u.gap'_blank.1 u.gap'_blank.2
        | cons other names =>
          rw [List.flatMap_cons, List.append_assoc, List.append_assoc]
          exact Blank.outside other.1.property.1 other.1.property.2
      rw [Table.text, List.flatMap_cons, List.append_assoc, List.append_assoc,
        Pattern.matchesAt_many1_block name.property.1 name.property.2
          (Blank.outside g.property.1 g.property.2) avoids_blanks,
        matchesAt_gap g.property w.property.1.outside (avoids_anyCase isKeyword_set)]
      exact iff_of_false (not_matchesAt_other w.property.1 w.property.2 hbehind) fun h => by
        cases h.2.1

/-! ## The check -/

theorem topLevel_of_blank {body : List Char} (h : Blank body) : topLevel 0 body = body := by
  induction body with
  | nil => rfl
  | cons c body ih =>
    obtain ⟨hc, hrest⟩ := List.forall_mem_cons.1 h
    have hopen : c ≠ '(' := by
      rintro rfl
      cases hc
    have hclose : c ≠ ')' := by
      rintro rfl
      cases hc
    rw [topLevel, if_neg hopen, if_neg hclose, if_pos rfl, ih hrest]

/-- Blanks have no `WHERE` clause. -/
theorem hasWhere_of_blank {body : List Char} (h : Blank body) : hasWhere beyond body = false := by
  have hquotes : unquoted none body = body := by
    simpa [unquoted] using unquoted_append h []
  rw [← Bool.not_eq_true]
  unfold hasWhere
  rw [hquotes, topLevel_of_blank h, Pattern.search_iff]
  rintro ⟨pre, post, rfl, hmatch⟩
  obtain ⟨c, post', rfl, hc⟩ := exists_of_matchesAt isKeyword_where hmatch
  have hblank := h c (by simp)
  rw [hc] at hblank
  cases hblank

/-- The warnings for SQL are different, so each stands for its own pattern. -/
theorem mem_detectedRisks (parse : Parser) (code : String) {r : Pattern Char × String}
    (hr : r ∈ dangerousPatterns beyond .sql) :
    r.2 ∈ (validateScriptSafety beyond parse code .sql).detectedRisks ↔
      r.1.search (isWord beyond) none code.toList = true := by
  have hnodup : ((dangerousPatterns beyond .sql).map Prod.snd).Nodup := by
    simp [dangerousPatterns, deleteRisk, updateRisk]
  have hrisks : (validateScriptSafety beyond parse code .sql).detectedRisks =
      ((dangerousPatterns beyond .sql).filter fun p =>
        p.1.search (isWord beyond) none code.toList).map Prod.snd := by
    simp [validateScriptSafety]
  rw [hrisks, List.mem_map]
  constructor
  · rintro ⟨r', hr', hsame⟩
    obtain ⟨hmem, hfound⟩ := List.mem_filter.1 hr'
    rwa [List.inj_on_of_nodup_map hnodup hmem hr hsame] at hfound
  · intro hfound
    exact ⟨r, List.mem_filter.2 ⟨hr, hfound⟩, rfl⟩

/-- **Unconstrained writes**: the check tells whether a single statement has a `WHERE` clause exactly
if the statement is of this form. -/
theorem unconstrained_iff (beyond : Char → Bool) (parse : Parser) (st : WriteStatement beyond) :
    (st.risk ∈ (validateScriptSafety beyond parse (String.ofList st.text) .sql).detectedRisks ↔
      ¬ st.HasWhere) ↔ st.Guarded := by
  cases st with
  | delete d single =>
    have hrisk : deleteRisk ∈ (validateScriptSafety beyond parse (String.ofList d.text)
        .sql).detectedRisks ↔ d.Bare := by
      rw [mem_detectedRisks parse _ (r := (deletePattern beyond, deleteRisk))
        (by simp [dangerousPatterns]),
        String.toList_ofList, delete_search_iff d single]
    have hbare : d.Bare → ¬ hasWhere beyond d.body = true := by
      rintro ⟨-, hblank⟩
      simp [hasWhere_of_blank hblank]
    simp only [WriteStatement.risk, WriteStatement.text, WriteStatement.HasWhere,
      WriteStatement.Guarded, hrisk]
    tauto
  | update u single =>
    have hrisk : updateRisk ∈ (validateScriptSafety beyond parse (String.ofList u.text)
        .sql).detectedRisks ↔ u.OneLine := by
      rw [mem_detectedRisks parse _ (r := (updatePattern beyond, updateRisk))
        (by simp [dangerousPatterns]),
        String.toList_ofList, update_search_iff u single]
    simp only [WriteStatement.risk, WriteStatement.text, WriteStatement.HasWhere,
      WriteStatement.Guarded, hrisk]
    cases hasWhere beyond u.body <;> simp

end Matching

/-- `UPDATE t SET a=0 WHERE b=1;`. -/
def guardedUpdate : UpdateStatement fun _ => false where
  lead := []
  verb := "UPDATE".toList
  gap := [' ']
  table := .plain ⟨['t'], List.cons_ne_nil _ _, List.forall_mem_singleton.2 rfl⟩
  names := []
  gap' := [' ']
  setWord := "SET".toList
  body := " a=0 WHERE b=1".toList
  ending := ⟨true, [], List.forall_mem_nil _⟩
  lead_blank := List.forall_mem_nil _
  verb_spells := by unfold Spells; decide +kernel
  gap_blank := ⟨List.cons_ne_nil _ _, List.forall_mem_singleton.2 rfl⟩
  gap'_blank := ⟨List.cons_ne_nil _ _, List.forall_mem_singleton.2 rfl⟩
  set_spells := by unfold Spells; decide +kernel
  body_apart := by
    rintro c ⟨⟩
    decide

/-- A single statement without blanks in front. -/
theorem single_of_search {beyond : Char → Bool} {head : Pattern Char} {c : Char} {cs : List Char}
    (h : head.search (isWord beyond) (some c) cs = false) : Single beyond head [] (c :: cs) := by
  intro pre post heq hlt hmatch
  cases pre with
  | nil => cases hlt
  | cons a pre =>
    obtain ⟨rfl, hcs⟩ := List.cons.inj heq
    have hfound : head.search (isWord beyond) (some c) cs = true := by
      rw [Pattern.search_iff]
      refine ⟨pre, post, hcs, ?_⟩
      rw [List.getLast?_cons] at hmatch
      cases hlast : pre.getLast? <;> simpa [hlast] using hmatch
    rw [h] at hfound
    cases hfound

/-- A false alarm. -/
theorem not_unconstrained_guarded : ¬ ∀ (beyond : Char → Bool) (parse : Parser)
    (st : WriteStatement beyond),
    st.risk ∈ (validateScriptSafety beyond parse (String.ofList st.text) .sql).detectedRisks ↔
      ¬ st.HasWhere := by
  intro hall
  have hsingle : Single (fun _ => false) (updateHead fun _ => false) guardedUpdate.lead
      guardedUpdate.text := single_of_search (by decide +kernel)
  have hiff := hall (fun _ => false) (fun _ => .ok []) (.update guardedUpdate hsingle)
  have hfound : (updatePattern fun _ => false).search (isWord fun _ => false) none
      (String.ofList guardedUpdate.text).toList = true := by
    decide +kernel
  have hrisk := (mem_detectedRisks (fun _ => .ok []) _ (r := (updatePattern fun _ => false,
    updateRisk)) (by simp [dangerousPatterns])).2 hfound
  have hwhere : hasWhere (fun _ => false) guardedUpdate.body = true := by
    decide +kernel
  exact hiff.1 hrisk hwhere

end FlowMesh.Scripting
