import FlowMesh.Library.Scanner
import FlowMesh.Engine.Template

/-!
# The templates of a text

`resolve_template` reads a text from the left (`tokens`): it replaces each template by what its
path leads to, and keeps every other character. `matchTemplate_eq_some_iff` says what a template
is, `substitute_eq` that the substitution renders the tokens one by one.
-/

namespace FlowMesh

open Python Scanner

/-! ## What a template is -/

/-- The text of a template with this path. -/
def IsTemplate (path text : List Char) : Prop :=
  ∃ ws ws', (∀ c ∈ ws, isSpace c = true) ∧ (∀ c ∈ ws', isSpace c = true) ∧ path ≠ [] ∧
    (∀ c ∈ path, isPathChar c = true) ∧
      text = '\x7b' :: '\x7b' :: (ws ++ (path ++ (ws' ++ ['\x7d', '\x7d'])))

theorem isSpace_of_isPathChar {c : Char} (h : isPathChar c = true) : isSpace c = false := by
  simp only [isPathChar, Char.isAlphanum] at h
  delta Char.isAlpha Char.isUpper Char.isLower Char.isDigit at h
  simp only [Bool.or_eq_true, Bool.and_eq_true, decide_eq_true_eq, ge_iff_le,
    UInt32.le_iff_toNat_le] at h
  simp only [isSpace, decide_eq_false_iff_not, Char.toNat]
  rcases h with ((⟨_, _⟩ | ⟨_, _⟩) | ⟨_, _⟩) | rfl | rfl
  · simp at *
    omega
  · simp at *
    omega
  · simp at *
    omega
  · decide
  · decide

/-- **A match is a template at the front.** -/
theorem matchTemplate_eq_some_iff {cs path rest : List Char} :
    matchTemplate cs = some (path, rest) ↔ ∃ text, IsTemplate path text ∧ cs = text ++ rest := by
  constructor
  · intro h
    unfold matchTemplate at h
    split at h
    · next cs =>
      dsimp only at h
      split at h
      · next rest' hrest =>
        split at h
        · cases h
        · next hpath =>
          cases h
          refine ⟨_, ⟨cs.takeWhile isSpace, ((cs.dropWhile isSpace).dropWhile isPathChar).takeWhile
            isSpace, fun _ => List.mem_takeWhile_imp, fun _ => List.mem_takeWhile_imp, hpath,
              fun _ => List.mem_takeWhile_imp, rfl⟩, ?_⟩
          simp only [List.cons_append, List.append_assoc, List.nil_append]
          rw [← hrest, List.takeWhile_append_dropWhile, List.takeWhile_append_dropWhile,
            List.takeWhile_append_dropWhile]
      · cases h
    · cases h
  · rintro ⟨_, ⟨ws, ws', hws, hws', hpath, hchars, rfl⟩, rfl⟩
    obtain ⟨c, path, rfl⟩ := List.exists_cons_of_ne_nil hpath
    obtain ⟨d, tail, htail, hd⟩ : ∃ d tail, ws' ++ '\x7d' :: '\x7d' :: rest = d :: tail ∧
        isPathChar d = false := by
      cases ws' with
      | nil => exact ⟨_, _, rfl, rfl⟩
      | cons d ws' =>
        refine ⟨d, _, rfl, Bool.eq_false_iff.2 fun hd => ?_⟩
        rw [List.forall_mem_cons, isSpace_of_isPathChar hd] at hws'
        exact Bool.false_ne_true hws'.1
    have hc := isSpace_of_isPathChar (hchars c List.mem_cons_self)
    have hcs : ws ++ c :: path ++ (ws' ++ '\x7d' :: '\x7d' :: rest) =
        ws ++ c :: (path ++ d :: tail) := by
      rw [htail, List.append_assoc]
      rfl
    have hfront : (ws ++ c :: (path ++ d :: tail)).dropWhile isSpace =
        c :: path ++ d :: tail := dropWhile_block hws hc
    simp only [List.cons_append, List.append_assoc, List.nil_append, matchTemplate] at hcs ⊢
    rw [hcs, hfront, dropWhile_block hchars hd, takeWhile_block hchars hd, ← htail,
      dropWhile_block hws' rfl]
    rfl

/-- A character that stands in no template. -/
def Foreign (c : Char) : Prop :=
  c ≠ '\x7b' ∧ c ≠ '\x7d' ∧ isSpace c = false ∧ isPathChar c = false

theorem IsTemplate.not_mem {path text : List Char} (h : IsTemplate path text) {c : Char}
    (hc : Foreign c) : c ∉ text := by
  obtain ⟨ws, ws', hws, hws', -, hchars, rfl⟩ := h
  obtain ⟨hopen, hclose, hspace, hpath⟩ := hc
  have hspaces : ∀ ws : List Char, (∀ c ∈ ws, isSpace c = true) → c ∉ ws := fun ws hws hmem =>
    Bool.false_ne_true (hspace.symm.trans (hws c hmem))
  have hin : c ∉ path := fun hmem => Bool.false_ne_true (hpath.symm.trans (hchars c hmem))
  simp [hopen, hclose, hspaces ws hws, hspaces ws' hws', hin]

theorem consumes_matchTemplate : Consumes matchTemplate := by
  intro cs path rest h
  obtain ⟨text, ⟨ws, ws', -, -, -, -, rfl⟩, rfl⟩ := matchTemplate_eq_some_iff.1 h
  simp only [List.length_append, List.length_cons]
  omega

/-- A foreign character ends every match. -/
theorem separates_matchTemplate {c : Char} (hc : Foreign c) : Separates matchTemplate c := by
  intro l l'
  cases h : matchTemplate l with
  | some found =>
    obtain ⟨text, htext, rfl⟩ := matchTemplate_eq_some_iff.1 h
    rw [List.append_assoc]
    exact matchTemplate_eq_some_iff.2 ⟨text, htext, rfl⟩
  | none =>
    cases h' : matchTemplate (l ++ c :: l') with
    | none => rfl
    | some found =>
      obtain ⟨text, htext, heq⟩ := matchTemplate_eq_some_iff.1 h'
      rcases List.append_eq_append_iff.1 heq with ⟨as, rfl, hrest⟩ | ⟨bs, rfl, -⟩
      · cases as with
        | nil =>
          rw [List.append_nil] at htext
          rw [matchTemplate_eq_some_iff.2 ⟨l, htext, (List.append_nil l).symm⟩] at h
          cases h
        | cons d as =>
          rw [List.cons_append, List.cons.injEq] at hrest
          refine absurd ?_ (htext.not_mem hc)
          rw [hrest.1]
          exact List.mem_append_right l List.mem_cons_self
      · rw [matchTemplate_eq_some_iff.2 ⟨text, htext, rfl⟩] at h
        cases h

/-! ## Reading a text -/

/-- What `resolve_template` sees in a text: characters, and the paths of templates. -/
def tokens (cs : List Char) : List (Char ⊕ List Char) := scan matchTemplate cs.length cs

theorem lexes_tokens (cs : List Char) : Lexes matchTemplate cs (tokens cs) :=
  lexes_scan consumes_matchTemplate le_rfl

theorem tokens_eq {cs : List Char} {ts : List (Char ⊕ List Char)} (h : Lexes matchTemplate cs ts) :
    tokens cs = ts :=
  (lexes_tokens cs).unique consumes_matchTemplate h

/-- **A foreign character splits a text into two.** -/
theorem tokens_append {c : Char} (hc : Foreign c) (cs cs' : List Char) :
    tokens (cs ++ c :: cs') = tokens cs ++ .inl c :: tokens cs' :=
  tokens_eq ((lexes_tokens cs).append consumes_matchTemplate (separates_matchTemplate hc)
    (lexes_tokens cs'))

/-- What a token is replaced by. -/
def render (u : Unicode) (ctx : Json) : Char ⊕ List Char → List Char
  | .inl c => [c]
  | .inr path => repl u ctx path

/-- `re.sub` of the template pattern. -/
def interpolate (u : Unicode) (ctx : Json) (cs : List Char) : List Char :=
  (tokens cs).flatMap (render u ctx)

theorem substitute_eq (u : Unicode) (ctx : Json) (fuel : ℕ) (cs : List Char) :
    substitute u ctx fuel cs = (scan matchTemplate fuel cs).flatMap (render u ctx) := by
  induction fuel generalizing cs with
  | zero => simp [substitute, scan, render, List.flatMap_map]
  | succ fuel ih =>
    cases cs with
    | nil => rfl
    | cons c cs =>
      unfold substitute scan
      cases matchTemplate (c :: cs) with
      | none => simp [ih, render]
      | some found => simp [ih, render]

theorem interpolate_eq (u : Unicode) (ctx : Json) (cs : List Char) :
    interpolate u ctx cs = substitute u ctx cs.length cs :=
  (substitute_eq u ctx cs.length cs).symm

theorem interpolate_append (u : Unicode) (ctx : Json) {c : Char} (hc : Foreign c)
    (cs cs' : List Char) :
    interpolate u ctx (cs ++ c :: cs') = interpolate u ctx cs ++ c :: interpolate u ctx cs' := by
  simp [interpolate, tokens_append hc, render]

theorem mem_strip {c : Char} (hc : isSpace c = false) {cs : List Char} (h : c ∈ cs) :
    c ∈ strip cs := by
  have hdrop : ∀ l : List Char, c ∈ l → c ∈ l.dropWhile isSpace := by
    intro l hl
    rw [← List.takeWhile_append_dropWhile (p := isSpace) (l := l), List.mem_append] at hl
    exact hl.resolve_left fun htake => Bool.false_ne_true (hc.symm.trans
      (List.mem_takeWhile_imp htake))
  exact List.mem_reverse.2 (hdrop _ (List.mem_reverse.2 (hdrop cs h)))

/-- A text with a foreign character is no template as a whole. -/
theorem resolveString_of_mem (u : Unicode) (ctx : Json) {s : String} {c : Char} (hc : Foreign c)
    (hmem : c ∈ s.toList) :
    resolveString u ctx s = .str (String.ofList (interpolate u ctx s.toList)) := by
  have hstrip : c ∈ strip s.toList := mem_strip hc.2.2.1 hmem
  unfold resolveString
  split
  · next path h =>
    obtain ⟨text, htext, heq⟩ := matchTemplate_eq_some_iff.1 h
    rw [List.append_nil] at heq
    exact absurd (heq ▸ hstrip) (htext.not_mem hc)
  · rw [interpolate_eq]

end FlowMesh
