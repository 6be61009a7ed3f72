import FlowMesh.Search.Document
import Mathlib.Data.List.DropRight

/-!
# Tokens are their own tokens

Tokenizing a token gives the token, and perhaps parts of it behind it (`tokenize_token`): its
characters are those of a word, in lower case, and no separator stands at its ends (`IsToken`).
-/

namespace FlowMesh.Search

/-- What `strip(".:-_")` takes off. -/
def isEdge (c : Char) : Bool := c ∈ ['.', ':', '-', '_']

/-- What the tokenizer leaves as it is. -/
structure IsToken (cs : List Char) : Prop where
  ne_nil : cs ≠ []
  wordChar : ∀ c ∈ cs, isWordChar c = true
  lower : ∀ c ∈ cs, c.toLower = c
  head : ∀ c, cs.head? = some c → isEdge c = false
  last : ∀ c, cs.getLast? = some c → isEdge c = false

/-! ## Characters -/

theorem toNat_lt_of_isAlphanum {c : Char} (h : c.isAlphanum = true) : c.toNat < 128 := by
  delta Char.isAlphanum Char.isAlpha Char.isUpper Char.isLower Char.isDigit at h
  simp [UInt32.le_iff_toNat_le] at h
  omega

/-- ASCII characters in lower case. -/
theorem toLower_ascii : ∀ n < 128,
    (Char.ofNat n).toLower.toLower = (Char.ofNat n).toLower ∧
      ((Char.ofNat n).isAlphanum = true → (Char.ofNat n).toLower.isAlphanum = true) := by
  decide +kernel

theorem isAlphanum_toLower {c : Char} (h : c.isAlphanum = true) : c.toLower.isAlphanum = true := by
  have hascii := (toLower_ascii c.toNat (toNat_lt_of_isAlphanum h)).2
  rw [Char.ofNat_toNat] at hascii
  exact hascii h

theorem isWordChar_of_isAlphanum {c : Char} (h : c.isAlphanum = true) : isWordChar c = true := by
  simp [isWordChar, h]

theorem isEdge_iff {c : Char} : isEdge c = true ↔ c = '.' ∨ c = ':' ∨ c = '-' ∨ c = '_' := by
  simp [isEdge]

theorem not_isEdge_of_isAlphanum {c : Char} (h : c.isAlphanum = true) : isEdge c = false := by
  by_contra hedge
  rw [Bool.not_eq_false, isEdge_iff] at hedge
  rcases hedge with rfl | rfl | rfl | rfl <;> cases h

/-- A character of a word is alphanumeric, or an edge. -/
theorem isWordChar_iff {c : Char} :
    isWordChar c = true ↔ c.isAlphanum = true ∨ isEdge c = true := by
  simp only [isWordChar, isEdge, Bool.or_eq_true, decide_eq_true_eq, List.mem_cons,
    List.not_mem_nil, or_false]
  tauto

theorem toLower_of_isEdge {c : Char} (h : isEdge c = true) : c.toLower = c := by
  rcases isEdge_iff.1 h with rfl | rfl | rfl | rfl <;> rfl

theorem toLower_toLower {c : Char} (h : isWordChar c = true) : c.toLower.toLower = c.toLower := by
  rcases isWordChar_iff.1 h with halnum | hedge
  · have hascii := (toLower_ascii c.toNat (toNat_lt_of_isAlphanum halnum)).1
    rwa [Char.ofNat_toNat] at hascii
  · rw [toLower_of_isEdge hedge, toLower_of_isEdge hedge]

theorem isWordChar_toLower {c : Char} (h : isWordChar c = true) : isWordChar c.toLower = true := by
  rcases isWordChar_iff.1 h with halnum | hedge
  · exact isWordChar_of_isAlphanum (isAlphanum_toLower halnum)
  · rwa [toLower_of_isEdge hedge]

theorem isEdge_toLower {c : Char} (h : isWordChar c = true) (hedge : isEdge c = false) :
    isEdge c.toLower = false := by
  rcases isWordChar_iff.1 h with halnum | hedge'
  · exact not_isEdge_of_isAlphanum (isAlphanum_toLower halnum)
  · rw [hedge] at hedge'
    cases hedge'

/-! ## The parts of a word -/

/-- What `splitOnP` leaves of a list. -/
theorem mem_splitOnP {α : Type} {p : α → Bool} {l part : List α} (hpart : part ∈ l.splitOnP p)
    {a : α} (ha : a ∈ part) : a ∈ l ∧ p a = false := by
  induction l generalizing part with
  | nil =>
    rw [List.splitOnP_nil, List.mem_singleton] at hpart
    rw [hpart] at ha
    cases ha
  | cons x l ih =>
    rw [List.splitOnP_cons_eq_if_modifyHead] at hpart
    split at hpart
    · rcases List.mem_cons.1 hpart with rfl | hpart
      · cases ha
      · exact ⟨List.mem_cons_of_mem _ (ih hpart ha).1, (ih hpart ha).2⟩
    · next hx =>
      cases hsplit : l.splitOnP p with
      | nil => exact absurd hsplit (List.splitOnP_ne_nil p l)
      | cons first rest =>
        rw [hsplit, List.modifyHead_cons] at hpart
        rcases List.mem_cons.1 hpart with rfl | hpart
        · rcases List.mem_cons.1 ha with rfl | ha
          · exact ⟨List.mem_cons_self, by simpa using hx⟩
          · have hfirst := ih (hsplit ▸ List.mem_cons_self) ha
            exact ⟨List.mem_cons_of_mem _ hfirst.1, hfirst.2⟩
        · have hrest := ih (hsplit ▸ List.mem_cons_of_mem _ hpart) ha
          exact ⟨List.mem_cons_of_mem _ hrest.1, hrest.2⟩

/-- The words of a text. -/
theorem of_mem_rawWords {text word : List Char} (h : word ∈ rawWords text) :
    word ≠ [] ∧ ∀ c ∈ word, isWordChar c = true := by
  obtain ⟨hsplit, hne⟩ := List.mem_filter.1 h
  refine ⟨by simpa using hne, fun c hc => ?_⟩
  simpa using (mem_splitOnP hsplit hc).2

theorem rawWords_append (text : List Char) {sep : Char} (hsep : isWordChar sep = false)
    (text' : List Char) : rawWords (text ++ sep :: text') = rawWords text ++ rawWords text' := by
  unfold rawWords
  rw [List.splitOnP_append_cons _ _ (by simp [hsep]), List.filter_append]

/-- A camel-case word is spread out by blanks. -/
theorem mem_camelSplit {word : List Char} {c : Char} (h : c ∈ camelSplit word) :
    c ∈ word ∨ c = ' ' := by
  induction word using camelSplit.induct with
  | case1 a b cs hcamel ih =>
    rw [camelSplit, if_pos hcamel] at h
    simp only [List.mem_cons] at h ⊢
    rcases h with rfl | rfl | rfl | h
    · exact Or.inl (Or.inl rfl)
    · exact Or.inr rfl
    · exact Or.inl (Or.inr (Or.inl rfl))
    · rcases ih h with h | rfl
      · exact Or.inl (Or.inr (Or.inr h))
      · exact Or.inr rfl
  | case2 a b cs hcamel ih =>
    rw [camelSplit, if_neg hcamel] at h
    rcases List.mem_cons.1 h with rfl | h
    · exact Or.inl List.mem_cons_self
    · rcases ih h with h | rfl
      · exact Or.inl (List.mem_cons_of_mem _ h)
      · exact Or.inr rfl
  | case3 cs hshort =>
    rw [camelSplit.eq_2 cs hshort] at h
    exact Or.inl h

/-- The parts of a word are in lower case, and have no separators. -/
theorem of_mem_subTokens {word sub : List Char} (hword : ∀ c ∈ word, isWordChar c = true)
    (h : sub ∈ subTokens word) :
    sub ≠ [] ∧ ∀ c ∈ sub, c.isAlphanum = true ∧ c.toLower = c := by
  obtain ⟨hsplit, hne⟩ := List.mem_filter.1 h
  refine ⟨by simpa using hne, fun c hc => ?_⟩
  obtain ⟨hmem, hblank⟩ := mem_splitOnP hsplit hc
  obtain ⟨low, hlow, rfl⟩ := List.mem_map.1 hmem
  obtain ⟨a, ha, rfl⟩ := List.mem_map.1 hlow
  have hkeep : a ∉ ['_', '-', '.', ':', '/'] := by
    intro hsep
    simp [hsep] at hblank
  have hne : a ≠ ' ' := by
    rintro rfl
    simp at hblank
  rw [if_neg hkeep]
  rcases mem_camelSplit ha with hmem | heq
  · refine ⟨?_, toLower_toLower (hword a hmem)⟩
    rcases isWordChar_iff.1 (hword a hmem) with halnum | hedge
    · exact isAlphanum_toLower halnum
    · refine absurd ?_ hkeep
      simp only [isEdge, decide_eq_true_eq, List.mem_cons, List.not_mem_nil, or_false] at hedge ⊢
      tauto
  · exact absurd heq hne

theorem cleanWord_eq (word : List Char) :
    cleanWord word = ((word.dropWhile isEdge).rdropWhile isEdge).map Char.toLower := rfl

/-! ## What a token is -/

theorem IsToken.of_mem_subTokens {word sub : List Char}
    (hword : ∀ c ∈ word, isWordChar c = true) (h : sub ∈ subTokens word) : IsToken sub := by
  obtain ⟨hne, hchars⟩ := Search.of_mem_subTokens hword h
  have hedge : ∀ c ∈ sub, isEdge c = false := fun c hc => not_isEdge_of_isAlphanum (hchars c hc).1
  exact {
    ne_nil := hne
    wordChar := fun c hc => isWordChar_of_isAlphanum (hchars c hc).1
    lower := fun c hc => (hchars c hc).2
    head := fun c hc => hedge c (List.mem_of_head? hc)
    last := fun c hc => hedge c (List.mem_of_getLast? hc) }

theorem IsToken.cleanWord {word : List Char} (hword : ∀ c ∈ word, isWordChar c = true)
    (hne : cleanWord word ≠ []) : IsToken (cleanWord word) := by
  rw [cleanWord_eq] at hne ⊢
  set front := word.dropWhile isEdge
  set core := front.rdropWhile isEdge with hcore
  have hcorene : core ≠ [] := fun hnil => hne (by rw [hnil]; rfl)
  have hstart : core <+: front := List.rdropWhile_prefix isEdge front
  have hcoreword : ∀ c ∈ core, isWordChar c = true := fun c hc =>
    hword c ((List.dropWhile_suffix isEdge).subset (hstart.subset hc))
  have hhead : ∀ c, core.head? = some c → isEdge c = false := by
    intro c hc
    have hfrontne : front ≠ [] := fun hnil => hcorene (by rw [hcore, hnil]; rfl)
    have hfirst := List.head_dropWhile_not isEdge hfrontne
    rw [List.head?_eq_some_head hcorene, hstart.head hcorene] at hc
    rw [← Option.some.inj hc]
    exact hfirst
  have hlast : ∀ c, core.getLast? = some c → isEdge c = false := by
    intro c hc
    have hend := List.rdropWhile_last_not isEdge front hcorene
    rw [List.getLast?_eq_some_getLast hcorene] at hc
    rw [← Option.some.inj hc]
    simpa using hend
  refine ⟨hne, fun c hc => ?_, fun c hc => ?_, fun c hc => ?_, fun c hc => ?_⟩
  · obtain ⟨a, ha, rfl⟩ := List.mem_map.1 hc
    exact isWordChar_toLower (hcoreword a ha)
  · obtain ⟨a, ha, rfl⟩ := List.mem_map.1 hc
    exact toLower_toLower (hcoreword a ha)
  · rw [List.head?_map, Option.map_eq_some_iff] at hc
    obtain ⟨a, ha, rfl⟩ := hc
    exact isEdge_toLower (hcoreword a (List.mem_of_head? ha)) (hhead a ha)
  · rw [List.getLast?_map, Option.map_eq_some_iff] at hc
    obtain ⟨a, ha, rfl⟩ := hc
    exact isEdge_toLower (hcoreword a (List.mem_of_getLast? ha)) (hlast a ha)

namespace IsToken

variable {cs : List Char}

theorem rawWords_eq (h : IsToken cs) : rawWords cs = [cs] := by
  unfold rawWords
  rw [List.splitOnP_eq_singleton fun c hc => by simp [h.wordChar c hc]]
  simp [h.ne_nil]

theorem cleanWord_self (h : IsToken cs) : Search.cleanWord cs = cs := by
  have hfront : cs.dropWhile isEdge = cs := by
    cases cs with
    | nil => rfl
    | cons c cs => rw [List.dropWhile_cons, h.head c rfl]; rfl
  have hback : cs.rdropWhile isEdge = cs := by
    rw [List.rdropWhile_eq_self_iff]
    intro hne
    simp [h.last _ (List.getLast?_eq_some_getLast hne)]
  rw [cleanWord_eq, hfront, hback]
  conv_rhs => rw [← List.map_id cs]
  exact List.map_congr_left h.lower

end IsToken

/-! ## The tokens of a text -/

/-- What the loop over the words adds for a word. -/
def wordTokens (word : List Char) : List String :=
  if cleanWord word = [] then []
  else String.ofList (cleanWord word) ::
    ((subTokens word).map String.ofList).filter fun sub => !isStopWord sub

theorem mem_addToken {tokens : List String} {token t : String} :
    t ∈ addToken tokens token ↔ t ∈ tokens ∨ t = token := by
  unfold addToken
  split
  · next hmem =>
    constructor
    · exact Or.inl
    · rintro (h | rfl)
      · exact h
      · exact hmem
  · rw [List.mem_append, List.mem_singleton]

/-- The tokens that were there stay in front. -/
theorem prefix_addToken (tokens : List String) (token : String) :
    tokens <+: addToken tokens token := by
  unfold addToken
  split
  · exact List.prefix_rfl
  · exact List.prefix_append _ _

theorem addTokens_spec (added tokens : List String) : tokens <+: added.foldl addToken tokens ∧
    ∀ t, t ∈ added.foldl addToken tokens ↔ t ∈ tokens ∨ t ∈ added := by
  induction added generalizing tokens with
  | nil => exact ⟨List.prefix_rfl, by simp⟩
  | cons token added ih =>
    obtain ⟨hgrows, hmem⟩ := ih (addToken tokens token)
    refine ⟨(prefix_addToken tokens token).trans hgrows, fun t => ?_⟩
    rw [List.foldl_cons, hmem, mem_addToken, List.mem_cons, or_assoc]

theorem addWord_eq (tokens : List String) (word : List Char) :
    addWord tokens word = (wordTokens word).foldl addToken tokens := by
  unfold addWord wordTokens
  simp only
  split <;> rfl

theorem addWords_spec (words : List (List Char)) (tokens : List String) :
    tokens <+: words.foldl addWord tokens ∧
      ∀ t, t ∈ words.foldl addWord tokens ↔ t ∈ tokens ∨ ∃ word ∈ words, t ∈ wordTokens word := by
  induction words generalizing tokens with
  | nil => exact ⟨List.prefix_rfl, by simp⟩
  | cons word words ih =>
    obtain ⟨hgrows, hmem⟩ := ih (addWord tokens word)
    obtain ⟨hgrows', hmem'⟩ := addTokens_spec (wordTokens word) tokens
    rw [← addWord_eq] at hgrows' hmem'
    refine ⟨hgrows'.trans hgrows, fun t => ?_⟩
    rw [List.foldl_cons, hmem, hmem', List.exists_mem_cons_iff, or_assoc]

theorem mem_tokenize {text t : String} :
    t ∈ tokenize text ↔ ∃ word ∈ rawWords text.toList, t ∈ wordTokens word := by
  rw [tokenize, (addWords_spec _ _).2]
  simp

theorem isToken_of_mem_tokenize {text t : String} (h : t ∈ tokenize text) : IsToken t.toList := by
  obtain ⟨word, hword, ht⟩ := mem_tokenize.1 h
  have hchars := (of_mem_rawWords hword).2
  unfold wordTokens at ht
  split at ht
  · cases ht
  next hclean =>
  rcases List.mem_cons.1 ht with rfl | ht
  · rw [String.toList_ofList]
    exact IsToken.cleanWord hchars hclean
  · obtain ⟨sub, hsub, rfl⟩ := List.mem_map.1 (List.mem_of_mem_filter ht)
    rw [String.toList_ofList]
    exact IsToken.of_mem_subTokens hchars hsub

/-- **A token's first token is the token.** -/
theorem tokenize_token {text t : String} (h : t ∈ tokenize text) :
    ∃ rest, tokenize t = t :: rest := by
  have htoken := isToken_of_mem_tokenize h
  have hwords : wordTokens t.toList = t ::
      ((subTokens t.toList).map String.ofList).filter fun sub => !isStopWord sub := by
    rw [wordTokens, htoken.cleanWord_self, if_neg htoken.ne_nil, String.ofList_toList]
  have hstart : [t] <+: tokenize t := by
    rw [tokenize, htoken.rawWords_eq, List.foldl_cons, List.foldl_nil, addWord_eq, hwords]
    exact (addTokens_spec _ [t]).1
  obtain ⟨rest, hrest⟩ := hstart
  exact ⟨rest, hrest.symm⟩

/-- The tokens of a tag are tokens of the tags. -/
theorem tokenize_tag {tags : List String} {tag t : String} (htag : tag ∈ tags)
    (h : t ∈ tokenize tag) : t ∈ tokenize (" ".intercalate tags) := by
  induction tags with
  | nil => cases htag
  | cons first tags ih =>
    cases tags with
    | nil =>
      rw [List.mem_singleton] at htag
      rwa [String.intercalate_singleton, ← htag]
    | cons second tags =>
      have hsplit : rawWords (" ".intercalate (first :: second :: tags)).toList =
          rawWords first.toList ++ rawWords (" ".intercalate (second :: tags)).toList := by
        rw [String.intercalate_cons_cons, String.toList_append, String.toList_append,
          List.append_assoc]
        exact rawWords_append _ (by decide) _
      have heither : t ∈ tokenize first ∨ t ∈ tokenize (" ".intercalate (second :: tags)) := by
        rcases List.mem_cons.1 htag with rfl | htag
        · exact Or.inl h
        · exact Or.inr (ih htag)
      rw [mem_tokenize, hsplit]
      rcases heither with hfirst | hrest
      · obtain ⟨word, hword, ht⟩ := mem_tokenize.1 hfirst
        exact ⟨word, List.mem_append_left _ hword, ht⟩
      · obtain ⟨word, hword, ht⟩ := mem_tokenize.1 hrest
        exact ⟨word, List.mem_append_right _ hword, ht⟩

end FlowMesh.Search
