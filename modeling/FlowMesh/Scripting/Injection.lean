import FlowMesh.Library.Comments
import FlowMesh.Scripting.Generate

/-!
# Prompts in generated scripts

Most templates of `generate_script` have the prompt in a comment up to the end of the line, or in the
docstring with which the script begins. What is executed of a script is what stands behind its
leading comments, blanks and docstring (`executable`).

`promptInert_iff` says for which two prompts the scripts differ in nothing that is executed, and have
nothing of the prompts in it.
-/

namespace FlowMesh.Scripting

open Python

/-! ## Comments of the languages -/

/-- The end of a line. -/
def isNewline (c : Char) : Bool := c ∈ ['\n', '\r']

/-- What the languages have for comments. -/
def comments : ScriptLanguage → Comments Char
  | .powershell =>
    { isBlank c := isSpace c && !(28 ≤ c.toNat && c.toNat ≤ 31)
      breaks := isNewline
      line := ['#']
      opening := ['<', '#']
      closing := ['#', '>']
      nested := false
      quote := []
      escapes _ := false }
  | .bash =>
    { isBlank c := c ∈ [' ', '\t', '\n']
      breaks c := c = '\n'
      line := ['#']
      opening := []
      closing := []
      nested := false
      quote := []
      escapes _ := false }
  | .sql =>
    { isBlank c := c ∈ [' ', '\t', '\n', '\r', '\x0b', '\x0c']
      breaks := isNewline
      line := ['-', '-']
      opening := ['/', '*']
      closing := ['*', '/']
      nested := true
      quote := []
      escapes _ := false }
  | .python =>
    { isBlank c := c ∈ [' ', '\t', '\n', '\r', '\x0c']
      breaks := isNewline
      line := ['#']
      opening := []
      closing := []
      nested := false
      quote := ['"', '"', '"']
      escapes c := c = '\\' }
  | .ansible =>
    { isBlank c := c ∈ [' ', '\n', '\r', '\u0085', '\u2028', '\u2029']
      breaks c := c ∈ ['\n', '\r', '\u0085', '\u2028', '\u2029']
      line := ['#']
      opening := []
      closing := []
      nested := false
      quote := []
      escapes _ := false }

/-- What a script begins with: the quotes of the docstring, or the marker of a document. -/
def beginning : ScriptLanguage → List Char × Comments.Mode
  | .python => (['"', '"', '"'], .string)
  | .ansible => (['-', '-', '-'], .blank)
  | _ => ([], .blank)

/-- What is executed of a script. -/
def executable (language : ScriptLanguage) (code : List Char) : List Char :=
  let start := beginning language
  if start.1.isPrefixOf code then (comments language).code start.2 start.1.length code
  else (comments language).code .blank 0 code

/-- Where the prompt stands. -/
def promptMode : ScriptLanguage → Comments.Mode
  | .python => .string
  | _ => .line

section Prompts

variable (language : ScriptLanguage) (prompt : String)

/-- Every letter of a prompt is in a comment, in the docstring or a blank. -/
def Inside : Prop := (comments language).code (promptMode language) 0 prompt.toList = []

/-- The docstring, or a comment with two markers, goes on behind the prompt. -/
def StaysOpen : Prop :=
  ((comments language).header (promptMode language) 0 prompt.toList).1.isOpen = true

instance decidableInside : Decidable (Inside language prompt) :=
  inferInstanceAs (Decidable (_ = []))

instance decidableStaysOpen : Decidable (StaysOpen language prompt) :=
  inferInstanceAs (Decidable (_ = true))

end Prompts

/-! ## Two requests -/

/-- What stands in front of the prompt. -/
def Template.before (t : Template) : Option (List Char) :=
  t.intent.map fun intent => t.front.flatMap (fun l => l.toList ++ ['\n']) ++ intent.toList

/-- What stands in front of the prompt in a branch. -/
def promptFront : Branch → Option (List Char)
  | .service | .storage => none
  | .general => generalTemplate.before
  | .bash => bashTemplate.before
  | .sql => sqlTemplate.before
  | .python => (pythonTemplate "").before
  | .ansible => ansibleTemplate.before

/-- What is executed begins behind the prompt. -/
def Unexecuted (req : ScriptGenerationRequest) (code : List Char) : Prop :=
  ∀ before, promptFront (branch req) = some before →
    ∃ head, code = head ++ executable req.language code ∧ before ++ req.prompt.toList <+: head

/-- Two scripts differ in nothing that is executed, and none of the prompts is executed. -/
structure PromptInert (req req' : ScriptGenerationRequest) (code code' : List Char) : Prop where
  same : executable req.language code = executable req'.language code'
  unexecuted : Unexecuted req code
  unexecuted' : Unexecuted req' code'

/-! ## Templates with the prompt -/

theorem joinLines_append (front : List String) (l : String) (ls : List String) :
    joinLines (front ++ l :: ls) =
      front.flatMap (fun l => l.toList ++ ['\n']) ++ joinLines (l :: ls) := by
  induction front with
  | nil => rfl
  | cons f front ih =>
    have hcons : joinLines (f :: (front ++ l :: ls)) =
        f.toList ++ '\n' :: joinLines (front ++ l :: ls) := by
      cases front <;> rfl
    rw [List.cons_append, hcons, ih, List.flatMap_cons]
    simp

/-- A script with the prompt in it. -/
theorem joinLines_lines {t : Template} {before : List Char} (h : t.before = some before)
    (hbehind : t.behind ≠ []) (prompt : String) : joinLines (t.lines prompt) =
      before ++ (prompt.toList ++ '\n' :: joinLines t.behind) := by
  obtain ⟨front, intent, behind⟩ := t
  cases intent with
  | none => cases h
  | some intent =>
    cases behind with
    | nil => exact absurd rfl hbehind
    | cons l ls =>
      cases h
      show joinLines (front ++ (intent ++ prompt) :: l :: ls) = _
      rw [joinLines_append]
      simp [joinLines]

theorem separates_newline (language : ScriptLanguage) : (comments language).Separates '\n' := by
  cases language <;> exact ⟨by decide, by decide, by decide, by decide⟩

/-- The parts of a script with the prompt in it. -/
structure Spliced (language : ScriptLanguage) (before behind : List Char) : Prop where
  reach : ∀ rest, executable language (before ++ rest) =
    (comments language).code (promptMode language) 0 rest
  ends : ∃ closed opened, closed ≠ opened ∧
    (comments language).code .blank 0 ('\n' :: behind) = closed ∧
    (comments language).code .line 0 ('\n' :: behind) = closed ∧
    ((comments language).opening ≠ [] → ∀ depth,
      (comments language).code (.block depth) 0 ('\n' :: behind) = opened) ∧
    (promptMode language = .string → ∀ skip ≤ 1,
      (comments language).code .string skip ('\n' :: behind) = opened)

section Spliced

variable {language : ScriptLanguage} {before behind : List Char}

/-- Where a prompt ends that is in a comment. -/
theorem Inside.ends {prompt : String} (h : Inside language prompt) : ∃ m skip,
    (comments language).header (promptMode language) 0 prompt.toList = (m, skip, []) ∧
      (((m = .blank ∨ m = .line) ∧ skip = 0) ∨
        (∃ depth, m = .block depth ∧ (comments language).opening ≠ [] ∧ skip = 0) ∨
        (m = .string ∧ promptMode language = .string ∧ skip ≤ 1)) := by
  have hend := Comments.header_end (Or.inl (Nat.zero_le _)) h
  refine ⟨_, _, Prod.ext rfl (Prod.ext rfl h), ?_⟩
  cases hmode : ((comments language).header (promptMode language) 0 prompt.toList).1 with
  | blank => exact Or.inl ⟨Or.inl hmode, hend.resolve_right fun hs => by simp [hmode] at hs⟩
  | line => exact Or.inl ⟨Or.inr hmode, hend.resolve_right fun hs => by simp [hmode] at hs⟩
  | block depth =>
    refine Or.inr (Or.inl ⟨depth, hmode, fun hopening => ?_, hend.resolve_right fun hs => by
      simp [hmode] at hs⟩)
    refine Comments.header_ne_block hopening (fun d hd => ?_) depth hmode
    cases language <;> cases hd
  | string =>
    refine Or.inr (Or.inr ⟨hmode, ?_, ?_⟩)
    · by_contra hne
      exact Comments.header_ne_string hne hmode
    · rcases hend with hzero | ⟨-, hone⟩
      · exact hzero.le.trans zero_le_one
      · exact hone.le

/-- What is executed, behind a prompt that is in a comment. -/
theorem Spliced.executable_inside (h : Spliced language before behind) : ∃ closed opened,
    closed ≠ opened ∧ ∀ prompt, Inside language prompt →
      executable language (before ++ (prompt.toList ++ '\n' :: behind)) =
        if StaysOpen language prompt then opened else closed := by
  obtain ⟨closed, opened, hne, hblank, hline, hblock, hstring⟩ := h.ends
  refine ⟨closed, opened, hne, fun prompt hin => ?_⟩
  rw [h.reach, Comments.code_append_nil (separates_newline language) hin]
  obtain ⟨m, skip, hheader, hend⟩ := hin.ends
  have hopen : StaysOpen language prompt ↔ m.isOpen = true := by
    unfold StaysOpen
    rw [hheader]
  rw [hheader]
  rcases hend with ⟨rfl | rfl, rfl⟩ | ⟨depth, rfl, hopening, rfl⟩ | ⟨rfl, hmode, hskip⟩
  · rw [if_neg (by simp [hopen, Comments.Mode.isOpen])]
    exact hblank
  · rw [if_neg (by simp [hopen, Comments.Mode.isOpen])]
    exact hline
  · rw [if_pos (by simp [hopen, Comments.Mode.isOpen])]
    exact hblock hopening depth
  · rw [if_pos (by simp [hopen, Comments.Mode.isOpen])]
    exact hstring hmode skip hskip

/-- None of a prompt is executed exactly if all of it is in a comment. -/
theorem Spliced.unexecuted_iff (h : Spliced language before behind) (prompt : String) :
    (∃ head, before ++ (prompt.toList ++ '\n' :: behind) =
      head ++ executable language (before ++ (prompt.toList ++ '\n' :: behind)) ∧
        before ++ prompt.toList <+: head) ↔ Inside language prompt := by
  constructor
  · rintro ⟨head, hcode, hhead⟩
    by_contra hout
    have hexec := h.reach (prompt.toList ++ '\n' :: behind)
    rw [Comments.code_append (separates_newline language) hout] at hexec
    have hlength := congrArg List.length hcode
    have hpos := List.length_pos_iff.2 hout
    have hle := hhead.length_le
    rw [hexec] at hlength
    simp only [List.length_append, List.length_cons] at hlength hle
    omega
  · intro hin
    have hexec := h.reach (prompt.toList ++ '\n' :: behind)
    rw [Comments.code_append_nil (separates_newline language) hin] at hexec
    have hrest : executable language (before ++ (prompt.toList ++ '\n' :: behind)) <:+
        '\n' :: behind := hexec ▸ Comments.code_suffix
    obtain ⟨passed, hpassed⟩ := hrest
    refine ⟨before ++ prompt.toList ++ passed, ?_, List.prefix_append _ _⟩
    rw [List.append_assoc, List.append_assoc, hpassed]

end Spliced

/-! ## The templates -/

/-- Behind a comment up to the end of the line, the rest of a template is code. In a comment that the
prompt leaves open it is none: it has no closing marker. -/
theorem spliced_of_line {language : ScriptLanguage} {before behind : List Char}
    (hmode : promptMode language = .line)
    (hreach : ∀ rest, executable language (before ++ rest) =
      (comments language).code (promptMode language) 0 rest) (hne : behind ≠ [])
    (hblank : (comments language).code .blank 0 ('\n' :: behind) = behind)
    (hline : (comments language).code .line 0 ('\n' :: behind) = behind)
    (hclosing : (comments language).opening ≠ [] → ∀ t ∈ ('\n' :: behind).tails,
      Comments.begins (comments language).closing t = false) :
    Spliced language before behind := by
  refine ⟨hreach, behind, [], hne, hblank, hline, fun hopening depth => ?_, fun hstring => ?_⟩
  · exact Comments.code_block (hclosing hopening)
  · rw [hmode] at hstring
    cases hstring

theorem spliced_general (before : List Char) (h : generalTemplate.before = some before) :
    Spliced .powershell before (joinLines generalTemplate.behind) := by
  cases h
  exact spliced_of_line rfl (fun _ => rfl) (by decide) rfl rfl (fun _ => by decide +kernel)

theorem spliced_bash (before : List Char) (h : bashTemplate.before = some before) :
    Spliced .bash before (joinLines bashTemplate.behind) := by
  cases h
  exact spliced_of_line rfl (fun _ => rfl) (by decide) rfl rfl (fun hopening => absurd rfl hopening)

theorem spliced_sql (before : List Char) (h : sqlTemplate.before = some before) :
    Spliced .sql before (joinLines sqlTemplate.behind) := by
  cases h
  exact spliced_of_line rfl (fun _ => rfl) (by decide) rfl rfl (fun _ => by decide +kernel)

theorem spliced_ansible (before : List Char) (h : ansibleTemplate.before = some before) :
    Spliced .ansible before (joinLines ansibleTemplate.behind) := by
  cases h
  exact spliced_of_line rfl (fun _ => rfl) (by decide) rfl rfl (fun hopening => absurd rfl hopening)

/-- Behind a docstring that is closed by the prompt, the quotes of the template are code. -/
theorem spliced_python (json : String) (before : List Char)
    (h : (pythonTemplate json).before = some before) :
    Spliced .python before (joinLines (pythonTemplate json).behind) := by
  cases h
  refine ⟨fun _ => rfl, joinLines (pythonTemplate json).behind,
    (joinLines (pythonTemplate json).behind).drop 4, fun hsame => ?_, rfl, rfl,
    fun h => absurd rfl h, fun _ skip hskip => ?_⟩
  · cases (List.cons.inj hsame).1
  · obtain rfl | rfl : skip = 0 ∨ skip = 1 := by omega
    · rfl
    · rfl

/-! ## Requests -/

section Requests

variable {format : Data → String} {parameters : List (String × Data)}

/-- The language of a branch. -/
def Branch.language : Branch → ScriptLanguage
  | .service | .storage | .general => .powershell
  | .bash => .bash
  | .sql => .sql
  | .python => .python
  | .ansible => .ansible

theorem language_branch (req : ScriptGenerationRequest) :
    (branch req).language = req.language := by
  obtain ⟨prompt, language, parameters⟩ := req
  cases language with
  | powershell =>
    unfold branch
    simp only
    split_ifs <;> rfl
  | bash | python | sql | ansible => rfl

/-- A template has the prompt nowhere, or is one of those above. -/
theorem template_cases {b : Branch} {t : Template} (h : template format parameters b = .ok t) :
    (promptFront b = none ∧ t.intent = none) ∨
      ∃ before, promptFront b = some before ∧ t.before = some before ∧ t.behind ≠ [] ∧
        Spliced b.language before (joinLines t.behind) := by
  cases b with
  | service | storage =>
    cases h
    exact Or.inl ⟨rfl, rfl⟩
  | general =>
    cases h
    exact Or.inr ⟨_, rfl, rfl, List.cons_ne_nil _ _, spliced_general _ rfl⟩
  | bash =>
    cases h
    exact Or.inr ⟨_, rfl, rfl, List.cons_ne_nil _ _, spliced_bash _ rfl⟩
  | sql =>
    cases h
    exact Or.inr ⟨_, rfl, rfl, List.cons_ne_nil _ _, spliced_sql _ rfl⟩
  | ansible =>
    cases h
    exact Or.inr ⟨_, rfl, rfl, List.cons_ne_nil _ _, spliced_ansible _ rfl⟩
  | python =>
    unfold template at h
    cases hjson : jsonDumps Spelling.ascii (.dict parameters) with
    | error e =>
      rw [hjson] at h
      cases h
    | ok json =>
      rw [hjson] at h
      cases h
      exact Or.inr ⟨_, rfl, rfl, List.cons_ne_nil _ _, spliced_python json _ rfl⟩

/-- The code of a script comes from its template. -/
theorem code_generateScript {beyond : Char → Bool} {parse : Parser} {req : ScriptGenerationRequest}
    {r : ScriptGenerationResult} (h : generateScript format beyond parse req = .ok r) : ∃ t,
    template format req.parameters (branch req) = .ok t ∧
      r.code.toList = joinLines (t.lines req.prompt) := by
  unfold generateScript at h
  cases ht : template format req.parameters (branch req) with
  | error e =>
    rw [ht] at h
    cases h
  | ok t =>
    rw [ht] at h
    cases h
    exact ⟨t, rfl, String.toList_ofList⟩

/-- None of a prompt is executed exactly if all of it is in a comment or in the docstring. -/
theorem unexecuted_iff_inside {beyond : Char → Bool} {parse : Parser}
    {req : ScriptGenerationRequest} {r : ScriptGenerationResult}
    (h : generateScript format beyond parse req = .ok r) (hfront : promptFront (branch req) ≠ none) :
    Unexecuted req r.code.toList ↔ Inside req.language req.prompt := by
  obtain ⟨t, ht, hcode⟩ := code_generateScript h
  rcases template_cases ht with ⟨hnone, -⟩ | ⟨before, hbefore, htbefore, hbehind, hspliced⟩
  · exact absurd hnone hfront
  · rw [language_branch] at hspliced
    rw [joinLines_lines htbefore hbehind] at hcode
    rw [← hspliced.unexecuted_iff, hcode]
    simp [Unexecuted, hbefore]

/-- **Prompts are inert** exactly if the template has them nowhere, or both are in a comment or in the
docstring, which goes on behind both of them or behind none. -/
theorem promptInert_iff (format : Data → String) (beyond : Char → Bool) (parse : Parser)
    (req : ScriptGenerationRequest) (prompt' : String) (r r' : ScriptGenerationResult)
    (hbranch : branch { req with prompt := prompt' } = branch req)
    (hr : generateScript format beyond parse req = .ok r)
    (hr' : generateScript format beyond parse { req with prompt := prompt' } = .ok r') :
    PromptInert req { req with prompt := prompt' } r.code.toList r'.code.toList ↔
      promptFront (branch req) = none ∨
        (Inside req.language req.prompt ∧ Inside req.language prompt' ∧
          (StaysOpen req.language req.prompt ↔ StaysOpen req.language prompt')) := by
  obtain ⟨t, ht, hcode⟩ := code_generateScript hr
  obtain ⟨t', ht', hcode'⟩ := code_generateScript hr'
  rw [hbranch, ht] at ht'
  cases ht'
  rcases template_cases ht with ⟨hnone, hintent⟩ | ⟨before, hfront, hbefore, hbehind, hspliced⟩
  · -- the prompt is nowhere
    have hsame : t.lines prompt' = t.lines req.prompt := by
      unfold Template.lines
      rw [hintent]
    refine iff_of_true ⟨?_, fun before h => ?_, fun before h => ?_⟩ (Or.inl hnone)
    · rw [hcode, hcode', hsame]
    · rw [hnone] at h
      cases h
    · rw [hbranch, hnone] at h
      cases h
  · have hsome : promptFront (branch req) ≠ none := by simp [hfront]
    have hun := unexecuted_iff_inside hr hsome
    have hun' := unexecuted_iff_inside hr' (hbranch ▸ hsome)
    rw [language_branch] at hspliced
    rw [joinLines_lines hbefore hbehind] at hcode hcode'
    obtain ⟨closed, opened, hne, hexec⟩ := hspliced.executable_inside
    have hsame : Inside req.language req.prompt → Inside req.language prompt' →
        (executable req.language r.code.toList = executable req.language r'.code.toList ↔
          (StaysOpen req.language req.prompt ↔ StaysOpen req.language prompt')) := by
      intro hin hin'
      rw [hcode, hcode', hexec _ hin, hexec _ hin']
      by_cases ho : StaysOpen req.language req.prompt <;>
        by_cases ho' : StaysOpen req.language prompt' <;> simp [ho, ho', hne, hne.symm]
    constructor
    · rintro ⟨hexecutable, hunexecuted, hunexecuted'⟩
      have hin := hun.1 hunexecuted
      have hin' := hun'.1 hunexecuted'
      exact Or.inr ⟨hin, hin', (hsame hin hin').1 hexecutable⟩
    · rintro (hnone | ⟨hin, hin', hopen⟩)
      · exact absurd hnone hsome
      · exact ⟨(hsame hin hin').2 hopen, hun.2 hin, hun'.2 hin'⟩

end Requests

/-- A prompt of one line is in the comment. -/
theorem inside_of_one_line {language : ScriptLanguage} {prompt : String}
    (hline : promptMode language = .line)
    (h : ∀ c ∈ prompt.toList, (comments language).breaks c = false) :
    Inside language prompt ∧ ¬ StaysOpen language prompt := by
  unfold Inside StaysOpen Comments.code
  rw [hline, Comments.header_line h]
  exact ⟨rfl, by decide⟩

/-- A prompt without the quotes is in the docstring, which goes on. -/
theorem inside_of_no_quotes {prompt : String}
    (h : ∀ t ∈ prompt.toList.tails, Comments.begins ['"', '"', '"'] t = false) :
    Inside .python prompt ∧ StaysOpen .python prompt := by
  obtain ⟨hmode, hcode⟩ := Comments.header_string (L := comments .python) h
  exact ⟨hcode, by unfold StaysOpen promptMode; rw [hmode]; rfl⟩

/-- A request for Bash. -/
def bashRequest (prompt : String) : ScriptGenerationRequest := ⟨prompt, .bash, []⟩

/-- Two prompts of one line. -/
theorem promptInert_one_line : ∃ r r',
    generateScript (fun _ => "") (fun _ => false) (fun _ => .ok []) (bashRequest "list users") =
      .ok r ∧
    generateScript (fun _ => "") (fun _ => false) (fun _ => .ok []) (bashRequest "# list disks") =
      .ok r' ∧
    PromptInert (bashRequest "list users") (bashRequest "# list disks") r.code.toList
      r'.code.toList := by
  have hin : Inside .bash "list users" ∧ ¬ StaysOpen .bash "list users" :=
    inside_of_one_line rfl (by simp [comments])
  have hin' : Inside .bash "# list disks" ∧ ¬ StaysOpen .bash "# list disks" :=
    inside_of_one_line rfl (by simp [comments])
  exact ⟨_, _, rfl, rfl, (promptInert_iff (fun _ => "") (fun _ => false) (fun _ => .ok [])
    (bashRequest "list users") "# list disks" _ _ rfl rfl rfl).2
      (Or.inr ⟨hin.1, hin'.1, iff_of_false hin.2 hin'.2⟩)⟩

/-- A prompt of two lines. -/
theorem not_promptInert_two_lines : ¬ ∀ (format : Data → String) (beyond : Char → Bool)
    (parse : Parser) (req : ScriptGenerationRequest) (prompt' : String)
    (r r' : ScriptGenerationResult), branch { req with prompt := prompt' } = branch req →
      generateScript format beyond parse req = .ok r →
        generateScript format beyond parse { req with prompt := prompt' } = .ok r' →
          PromptInert req { req with prompt := prompt' } r.code.toList r'.code.toList := by
  intro hall
  have hresult : ∃ r, generateScript (fun _ => "") (fun _ => false) (fun _ => .ok [])
      (bashRequest "x\nrm -rf ~") = .ok r := ⟨_, rfl⟩
  obtain ⟨r', hr'⟩ := hresult
  have hinert := hall _ _ _ (bashRequest "x") "x\nrm -rf ~" _ r' rfl rfl hr'
  have hin : Inside .bash "x\nrm -rf ~" :=
    (unexecuted_iff_inside hr' (by simp [promptFront, branch, bashRequest, Template.before,
      bashTemplate])).1 hinert.unexecuted'
  exact absurd hin (by decide +kernel)

end FlowMesh.Scripting
