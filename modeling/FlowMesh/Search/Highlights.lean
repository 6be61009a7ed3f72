import FlowMesh.Library.Markup
import FlowMesh.Search.Document
import Mathlib.Data.Finset.Dedup

/-!
# Highlights

`_generate_highlights` (`flowmesh_search/engine.py`) marks the query terms in the fields of a
document, and cuts off what comes out at 140 letters.

The pattern `\b(term|…)\b` is read letter by letter (`pieces`): where a boundary is, the first
alternative that matches up to a boundary is taken. Terms of one letter are left out, and where no
other is left the pattern matches the empty word, at every boundary.

`highlights_wellFormed_iff` says when the snippets are well formed.
-/

namespace FlowMesh.Search

/-! ## The pattern -/

/-- What `re` and `str.lower` take from the Unicode tables. -/
structure Tables where
  /-- `\w`. -/
  isWord : Char → Bool
  /-- A letter of a pattern and a letter of a text, with `re.IGNORECASE`. -/
  same : Char → Char → Bool
  lower : String → String

section Pattern

variable (t : Tables)

/-- `\b`. -/
def boundary (before after : Option Char) : Bool := before.any t.isWord != after.any t.isWord

/-- Equal, ignoring case. -/
def sameWord : List Char → List Char → Bool
  | [], [] => true
  | a :: term, c :: word => t.same a c && sameWord term word
  | _, _ => false

/-- A term in front of a text, up to a boundary. -/
def matchTerm (before : Option Char) (cs term : List Char) : Option (List Char) :=
  let word := cs.take term.length
  if sameWord t term word && boundary t (word.getLast?.or before) (cs.drop term.length).head? then
    some word
  else none

/-- The alternatives of the pattern: `"|".join` of nothing is the empty one. -/
def alternatives (queryTerms : List String) : List (List Char) :=
  match (queryTerms.filter fun term => 2 ≤ term.length).map String.toList with
  | [] => [[]]
  | terms => terms

variable (alts : List (List Char))

/-- What the pattern matches in front of a text. -/
def matchAt (before : Option Char) (cs : List Char) : Option (List Char) :=
  if boundary t before cs.head? then alts.findSome? (matchTerm t before cs) else none

/-- A text by its matches, from left to right; the letters of the last match, if `skip` of them are
left, are passed over. -/
def pieces (before : Option Char) : (skip : ℕ) → List Char →
    List Char × List (List Char × List Char)
  | _, [] =>
    match matchAt t alts before [] with
    | some word => ([], [(word, [])])
    | none => ([], [])
  | 0, c :: cs =>
    match matchAt t alts before (c :: cs) with
    | some [] =>
      -- after an empty match the next letter is passed over
      let r := pieces (some c) 0 cs
      ([], ([], c :: r.1) :: r.2)
    | some (a :: word) =>
      let r := pieces (some c) word.length cs
      ([], (a :: word, r.1) :: r.2)
    | none =>
      let r := pieces (some c) 0 cs
      (c :: r.1, r.2)
  | skip + 1, c :: cs => pieces (some c) skip cs

end Pattern

/-! ## Snippets -/

/-- `<mark>` and `</mark>`. -/
def markTags : Tags Char where
  start := '<'
  opening := ['m', 'a', 'r', 'k', '>']
  closing := ['/', 'm', 'a', 'r', 'k', '>']
  not_mem_opening := by decide
  not_mem_closing := by decide
  not_opening_closing := by decide
  not_closing_opening := by decide

/-- `HighlightSnippet`; the matched terms come from a set. -/
structure HighlightSnippet where
  field : String
  snippet : List Char
  matchedTerms : Finset String

/-- The fields that are searched. -/
def highlightFields (doc : SearchDocument) : List (String × String) :=
  [("title", doc.title), ("description", doc.description.getD ""), ("id", doc.id)]

section Highlights

variable (t : Tables) (queryTerms : List String)

/-- A field by its matches. -/
def fieldPieces (value : String) : List Char × List (List Char × List Char) :=
  pieces t (alternatives queryTerms) none 0 value.toList

/-- `...`. -/
def ellipsis : List Char := ['.', '.', '.']

/-- The loop body over the fields. -/
def highlight (field : String × String) : Option HighlightSnippet :=
  let found := fieldPieces t queryTerms field.2
  if field.2 = "" ∨ found.2 = [] then none
  else some
    { field := field.1
      snippet := Tags.shorten 140 ellipsis (markTags.marked found.1 found.2)
      matchedTerms := (found.2.map fun q => t.lower (String.ofList q.1)).toFinset }

/-- `_generate_highlights`. -/
def generateHighlights (doc : SearchDocument) : List HighlightSnippet :=
  if queryTerms = [] then [] else (highlightFields doc).filterMap (highlight t queryTerms)

/-- A query term, ignoring case. -/
def IsTerm (word : List Char) : Prop := ∃ term ∈ queryTerms, sameWord t term.toList word = true

/-- A well-formed snippet of a field: its tags stand in pairs around query terms, and without them
and the ellipsis it is the beginning of the field. -/
def WellFormed (value : String) (snippet : List Char) : Prop :=
  Tags.WellMarked (IsTerm t queryTerms) (markTags.tokens snippet) ∧
    Tags.unsigned ellipsis (Tags.letters (markTags.tokens snippet)) <+: value.toList

end Highlights

/-! ## The pieces of a field -/

section Pieces

variable {t : Tables} {alts : List (List Char)} {before : Option Char}

theorem length_eq_of_sameWord {term word : List Char} (h : sameWord t term word = true) :
    term.length = word.length := by
  fun_induction sameWord t term word with
  | case1 => rfl
  | case2 a term c word ih =>
    rw [Bool.and_eq_true] at h
    rw [List.length_cons, List.length_cons, ih h.2]
  | case3 => cases h

/-- A match is one of the alternatives, and stands in front of the text. -/
theorem matchAt_spec {cs word : List Char} (h : matchAt t alts before cs = some word) :
    word <+: cs ∧ ∃ term ∈ alts, sameWord t term word = true := by
  unfold matchAt at h
  split_ifs at h
  obtain ⟨term, hterm, hmatch⟩ := List.exists_of_findSome?_eq_some h
  unfold matchTerm at hmatch
  simp only at hmatch
  split_ifs at hmatch with hsame
  cases hmatch
  rw [Bool.and_eq_true] at hsame
  exact ⟨List.take_prefix _ _, term, hterm, hsame.1⟩

/-- The pieces are those of the text. -/
theorem text_pieces (skip : ℕ) (cs : List Char) :
    Tags.text (pieces t alts before skip cs).1 (pieces t alts before skip cs).2 = cs.drop skip := by
  fun_induction pieces t alts before skip cs with
  | case1 _ before word hmatch =>
    rw [List.prefix_nil.1 (matchAt_spec hmatch).1, List.drop_nil]
    rfl
  | case2 => rw [List.drop_nil]; rfl
  | case3 before c cs hmatch r ih => exact (Tags.text_cons _ _ _).trans (congrArg (c :: ·) ih)
  | case4 before c cs a word hmatch r ih =>
    obtain ⟨rfl, hword⟩ := List.cons_prefix_cons.1 (matchAt_spec hmatch).1
    have hdrop : word ++ cs.drop word.length = cs := by
      obtain ⟨rest, rfl⟩ := hword
      rw [List.drop_left]
    exact congrArg (a :: ·) ((congrArg (word ++ ·) ih).trans hdrop)
  | case5 before c cs hmatch r ih => exact (Tags.text_cons _ _ _).trans (congrArg (c :: ·) ih)
  | case6 before skip c cs ih => exact ih

/-- Each marked word is one of the alternatives. -/
theorem of_mem_pieces {skip : ℕ} {cs : List Char} {q : List Char × List Char}
    (h : q ∈ (pieces t alts before skip cs).2) : ∃ term ∈ alts, sameWord t term q.1 = true := by
  fun_induction pieces t alts before skip cs with
  | case1 _ before word hmatch =>
    rw [List.mem_singleton.1 h]
    exact (matchAt_spec hmatch).2
  | case2 => cases h
  | case3 before c cs hmatch r ih =>
    rcases List.mem_cons.1 h with rfl | h
    · exact (matchAt_spec hmatch).2
    · exact ih h
  | case4 before c cs a word hmatch r ih =>
    rcases List.mem_cons.1 h with rfl | h
    · exact (matchAt_spec hmatch).2
    · exact ih h
  | case5 before c cs hmatch r ih => exact ih h
  | case6 before skip c cs ih => exact ih h

/-- An alternative that is not empty is a term. -/
theorem of_mem_alternatives {queryTerms : List String} {alt : List Char}
    (h : alt ∈ alternatives queryTerms) (hne : alt ≠ []) :
    ∃ term ∈ queryTerms, term.toList = alt := by
  unfold alternatives at h
  split at h
  · exact absurd (List.mem_singleton.1 h) hne
  · obtain ⟨term, hterm, halt⟩ := List.mem_map.1 h
    exact ⟨term, List.mem_of_mem_filter hterm, halt⟩

/-- A marked word that is not empty is a query term. -/
theorem isTerm_of_mem {queryTerms : List String} {value : String} {q : List Char × List Char}
    (h : q ∈ (fieldPieces t queryTerms value).2) (hne : q.1 ≠ []) : IsTerm t queryTerms q.1 := by
  obtain ⟨alt, halt, hsame⟩ := of_mem_pieces h
  have haltne : alt ≠ [] := by
    rintro rfl
    exact hne (List.length_eq_zero_iff.1 (length_eq_of_sameWord hsame).symm)
  obtain ⟨term, hterm, rfl⟩ := of_mem_alternatives halt haltne
  exact ⟨term, hterm, hsame⟩

theorem text_fieldPieces (queryTerms : List String) (value : String) :
    Tags.text (fieldPieces t queryTerms value).1 (fieldPieces t queryTerms value).2 =
      value.toList :=
  text_pieces 0 value.toList

end Pieces

/-! ## Well-formed snippets -/

section WellFormed

variable (t : Tables) (queryTerms : List String)

/-- The pieces of a field fit into a snippet. -/
def FieldFits (value : String) : Prop :=
  markTags.Fits (IsTerm t queryTerms) 140 (fieldPieces t queryTerms value).1
    (fieldPieces t queryTerms value).2

variable {t queryTerms}

theorem apart_ellipsis : markTags.Apart ellipsis := by
  rintro c hc (_ | _)
  · cases hc
    decide
  · cases hc
    decide

/-- The snippet of a field. -/
theorem wellFormed_iff {value : String} (hclean : ¬ markTags.openTag <:+: value.toList) :
    WellFormed t queryTerms value (Tags.shorten 140 ellipsis (markTags.marked
      (fieldPieces t queryTerms value).1 (fieldPieces t queryTerms value).2)) ↔
        FieldFits t queryTerms value := by
  have hopen : ¬ markTags.openTag <:+: Tags.text (fieldPieces t queryTerms value).1
      (fieldPieces t queryTerms value).2 := by
    rwa [text_fieldPieces]
  have hiff := Tags.shorten_iff (p := IsTerm t queryTerms) 140 apart_ellipsis (by decide) hopen
    fun q hq hne => isTerm_of_mem hq hne
  rw [text_fieldPieces] at hiff
  exact hiff

theorem fieldPieces_empty : (fieldPieces t queryTerms "").2 = [] := rfl

/-- A field with a match has a snippet, -/
theorem highlight_of_found {f : String × String} (h : (fieldPieces t queryTerms f.2).2 ≠ []) :
    highlight t queryTerms f = some
      { field := f.1
        snippet := Tags.shorten 140 ellipsis (markTags.marked (fieldPieces t queryTerms f.2).1
          (fieldPieces t queryTerms f.2).2)
        matchedTerms :=
          ((fieldPieces t queryTerms f.2).2.map fun q => t.lower (String.ofList q.1)).toFinset } := by
  have hne : f.2 ≠ "" := by
    intro hempty
    rw [hempty] at h
    exact h fieldPieces_empty
  exact if_neg (not_or.2 ⟨hne, h⟩)

/-- and no other field has one. -/
theorem of_highlight_eq_some {f : String × String} {s : HighlightSnippet}
    (h : highlight t queryTerms f = some s) : s.field = f.1 ∧
      (fieldPieces t queryTerms f.2).2 ≠ [] ∧ s.snippet = Tags.shorten 140 ellipsis
        (markTags.marked (fieldPieces t queryTerms f.2).1 (fieldPieces t queryTerms f.2).2) := by
  unfold highlight at h
  simp only at h
  split_ifs at h with hnone
  cases h
  exact ⟨rfl, fun hnil => hnone (Or.inr hnil), rfl⟩

/-- The fields have different names. -/
theorem eq_of_mem_fields {doc : SearchDocument} {f f' : String × String}
    (hf : f ∈ highlightFields doc) (hf' : f' ∈ highlightFields doc) (h : f.1 = f'.1) : f = f' := by
  have hnodup : ((highlightFields doc).map Prod.fst).Nodup := by
    simp [highlightFields]
  exact List.inj_on_of_nodup_map hnodup hf hf' h

/-- **Highlights are well formed** exactly if the pieces of each field with a match fit. -/
theorem highlights_wellFormed_iff (t : Tables) (queryTerms : List String) (doc : SearchDocument)
    (hclean : ∀ f ∈ highlightFields doc, ¬ markTags.openTag <:+: f.2.toList) :
    (∀ f ∈ highlightFields doc, ∀ h ∈ generateHighlights t queryTerms doc, h.field = f.1 →
      WellFormed t queryTerms f.2 h.snippet) ↔
    queryTerms = [] ∨ ∀ f ∈ highlightFields doc, (fieldPieces t queryTerms f.2).2 ≠ [] →
      FieldFits t queryTerms f.2 := by
  have hmem : ∀ h, h ∈ generateHighlights t queryTerms doc ↔ queryTerms ≠ [] ∧
      ∃ f ∈ highlightFields doc, highlight t queryTerms f = some h := by
    intro h
    unfold generateHighlights
    split_ifs with hterms <;> simp [hterms]
  constructor
  · intro hall
    refine or_iff_not_imp_left.2 fun hterms f hf hfound => ?_
    have hsnippet := hall f hf _ ((hmem _).2 ⟨hterms, f, hf, highlight_of_found hfound⟩) rfl
    exact (wellFormed_iff (hclean f hf)).1 hsnippet
  · intro hfits f hf h hh hfield
    obtain ⟨hterms, f', hf', hhighlight⟩ := (hmem h).1 hh
    obtain ⟨hname, hfound, hsnippet⟩ := of_highlight_eq_some hhighlight
    obtain rfl := eq_of_mem_fields hf' hf (hname.symm.trans hfield)
    rw [hsnippet]
    exact (wellFormed_iff (hclean _ hf)).2 ((hfits.resolve_left hterms) _ hf hfound)

end WellFormed

/-! ## Two documents -/

/-- The tables, as far as ASCII. -/
def asciiTables : Tables where
  isWord c := c.isAlphanum || c = '_'
  same a c := a.toLower = c.toLower
  lower s := String.ofList (s.toList.map Char.toLower)

/-- A document with a title only. -/
def untagged (title : String) : SearchDocument where
  id := "-"
  tenantId := "t"
  entityType := "workflow"
  title := title

theorem fieldPieces_salesReport :
    fieldPieces asciiTables ["report"] "Sales Report" = ("Sales ".toList, [("Report".toList, [])]) := by
  decide +kernel

theorem highlights_wellFormed_salesReport :
    generateHighlights asciiTables ["report"] (untagged "Sales Report") ≠ [] ∧
      ∀ f ∈ highlightFields (untagged "Sales Report"),
        ∀ h ∈ generateHighlights asciiTables ["report"] (untagged "Sales Report"), h.field = f.1 →
          WellFormed asciiTables ["report"] f.2 h.snippet := by
  have hfound : (fieldPieces asciiTables ["report"] "Sales Report").2 ≠ [] := by
    rw [fieldPieces_salesReport]
    simp
  refine ⟨List.ne_nil_of_mem (List.mem_filterMap.2 ⟨("title", "Sales Report"),
    List.mem_cons_self, highlight_of_found hfound⟩), ?_⟩
  refine (highlights_wellFormed_iff _ _ _ (by decide +kernel)).2 (Or.inr ?_)
  have hother : ∀ value ∈ ["", "-"], (fieldPieces asciiTables ["report"] value).2 = [] := by
    decide +kernel
  simp only [highlightFields, untagged, List.forall_mem_cons, FieldFits, fieldPieces_salesReport]
  refine ⟨fun _ => ⟨by decide +kernel, fun _ => ?_⟩, fun h => absurd (hother _ (by simp)) h,
    fun h => absurd (hother _ (by simp)) h, by simp⟩
  rw [if_pos (by decide +kernel)]
  exact ⟨by decide +kernel, by decide +kernel, by unfold Tags.Fits; decide +kernel⟩

theorem fieldPieces_short :
    fieldPieces asciiTables ["a"] "x" = ([], [([], ['x']), ([], [])]) := by
  decide +kernel

/-- A term of one letter only. -/
theorem not_highlights_wellFormed_short : ¬ ∀ (t : Tables) (queryTerms : List String)
    (doc : SearchDocument), (∀ f ∈ highlightFields doc, ¬ markTags.openTag <:+: f.2.toList) →
      ∀ f ∈ highlightFields doc, ∀ h ∈ generateHighlights t queryTerms doc, h.field = f.1 →
        WellFormed t queryTerms f.2 h.snippet := by
  intro hall
  have hfound : (fieldPieces asciiTables ["a"] "x").2 ≠ [] := by
    rw [fieldPieces_short]
    simp
  have hhighlight := highlight_of_found (f := ("title", "x")) hfound
  have hwell := hall asciiTables ["a"] (untagged "x") (by decide +kernel) ("title", "x")
    List.mem_cons_self _ (List.mem_filterMap.2 ⟨_, List.mem_cons_self, hhighlight⟩) rfl
  have hfits := (wellFormed_iff (by decide +kernel)).1 hwell
  rw [FieldFits, fieldPieces_short] at hfits
  exact (hfits.2 (by decide)).1 rfl

end FlowMesh.Search
