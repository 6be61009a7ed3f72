import FlowMesh.Engine.Expressions
import FlowMesh.Python.Words
import FlowMesh.Workflow.Validation

/-!
# The templates that the validator passes

`_check_template_expr` recognises whatever stands between double braces, and `resolve_template`
dotted paths. Both read a text from the left (`expressions` and `tokens`), and they read it alike
exactly if every expression is a path (`tokens_eq_expressions_iff`).

`resolvable_iff` says of which definitions without an error and without a warning about a template
the engine resolves all the templates: those whose expressions are paths, none of them below
`workflow_id`, and whose node ids are names.
-/

namespace FlowMesh

open Python Scanner WorkflowValidator

/-! ## What an expression is -/

/-- **What the validator matches** is the text between double braces, whatever it is. -/
theorem matchExpression_eq_some_iff {cs expr rest : List Char} :
    matchExpression cs = some (expr, rest) ↔ ∃ body, body ≠ [] ∧
      (∀ c ∈ body, c ≠ '\x7b' ∧ c ≠ '\x7d') ∧ strip body = expr ∧
        cs = '\x7b' :: '\x7b' :: (body ++ '\x7d' :: '\x7d' :: rest) := by
  constructor
  · intro h
    unfold matchExpression at h
    split at h
    · next cs =>
      dsimp only at h
      split at h
      · next rest' hrest =>
        split at h
        · cases h
        · next hbody =>
          cases h
          refine ⟨_, hbody, fun c hc => ?_, rfl, ?_⟩
          · simpa using List.mem_takeWhile_imp hc
          · rw [← hrest, List.takeWhile_append_dropWhile]
      · cases h
    · cases h
  · rintro ⟨body, hbody, hchars, rfl, rfl⟩
    have hall : ∀ c ∈ body, (decide (c ≠ '\x7b' ∧ c ≠ '\x7d')) = true := fun c hc =>
      decide_eq_true (hchars c hc)
    simp only [matchExpression]
    rw [takeWhile_block hall (by decide), dropWhile_block hall (by decide)]
    simp [hbody]

/-- A dotted path. -/
def IsPath (expr : List Char) : Prop := expr ≠ [] ∧ ∀ c ∈ expr, isPathChar c = true

/-- A class of characters without the braces. -/
theorem ne_brace {p : Char → Bool} (hopen : p '\x7b' = false) (hclose : p '\x7d' = false) {c : Char}
    (hc : p c = true) : c ≠ '\x7b' ∧ c ≠ '\x7d' := by
  constructor
  · rintro rfl
    exact Bool.false_ne_true (hopen.symm.trans hc)
  · rintro rfl
    exact Bool.false_ne_true (hclose.symm.trans hc)

/-- A template is an expression. -/
theorem matchExpression_of_matchTemplate {cs path rest : List Char}
    (h : matchTemplate cs = some (path, rest)) : matchExpression cs = some (path, rest) := by
  obtain ⟨_, ⟨ws, ws', hws, hws', hne, hchars, rfl⟩, rfl⟩ := matchTemplate_eq_some_iff.1 h
  refine matchExpression_eq_some_iff.2 ⟨ws ++ (path ++ ws'), ?_, ?_, ?_, ?_⟩
  · simp [hne]
  · intro c hc
    rcases List.mem_append.1 hc with hc | hc
    · exact ne_brace rfl rfl (hws c hc)
    · rcases List.mem_append.1 hc with hc | hc
      · exact ne_brace rfl rfl (hchars c hc)
      · exact ne_brace rfl rfl (hws' c hc)
  · exact strip_eq hws hws' hne (isSpace_of_isPathChar (hchars _ (List.head_mem hne)))
      (isSpace_of_isPathChar (hchars _ (List.getLast_mem hne)))
  · simp

/-- An expression is a template if it is a path. -/
theorem matchTemplate_of_matchExpression {cs expr rest : List Char}
    (h : matchExpression cs = some (expr, rest)) (hpath : IsPath expr) :
    matchTemplate cs = some (expr, rest) := by
  obtain ⟨body, -, -, hstrip, rfl⟩ := matchExpression_eq_some_iff.1 h
  obtain ⟨ws, ws', hws, hws', hbody⟩ := exists_of_strip body
  rw [hstrip] at hbody
  subst hbody
  refine matchTemplate_eq_some_iff.2 ⟨_, ⟨ws, ws', hws, hws', hpath.1, hpath.2, rfl⟩, ?_⟩
  simp

theorem consumes_matchExpression : Consumes matchExpression := by
  intro cs expr rest h
  obtain ⟨body, -, -, -, rfl⟩ := matchExpression_eq_some_iff.1 h
  simp only [List.length_cons, List.length_append]
  omega

/-! ## Reading a text -/

/-- What the validator sees in a text: characters, and expressions. -/
def expressions (cs : List Char) : List (Char ⊕ List Char) := scan matchExpression cs.length cs

theorem lexes_expressions (cs : List Char) : Lexes matchExpression cs (expressions cs) :=
  lexes_scan consumes_matchExpression le_rfl

/-- `finditer` gives the expressions. -/
theorem mem_findExpressions {fuel : ℕ} {cs expr : List Char} :
    expr ∈ findExpressions fuel cs ↔ .inr expr ∈ scan matchExpression fuel cs := by
  induction fuel generalizing cs with
  | zero => simp [findExpressions, scan]
  | succ fuel ih =>
    cases cs with
    | nil => simp [findExpressions, scan]
    | cons c cs =>
      unfold findExpressions scan
      cases matchExpression (c :: cs) with
      | none => simp [ih]
      | some found => simp [ih]

/-- **The engine reads a text as the validator does exactly if every expression is a path.** -/
theorem tokens_eq_expressions_iff (cs : List Char) :
    tokens cs = expressions cs ↔ ∀ expr, .inr expr ∈ expressions cs → IsPath expr := by
  constructor
  · intro h expr hexpr
    obtain ⟨l, rest, hmatch⟩ := (lexes_tokens cs).exists_of_mem (h ▸ hexpr)
    obtain ⟨_, ⟨-, -, -, -, hne, hchars, -⟩, -⟩ := matchTemplate_eq_some_iff.1 hmatch
    exact ⟨hne, hchars⟩
  · intro h
    refine tokens_eq ((lexes_expressions cs).of_agree ?_ ?_ h)
    · exact fun _ _ _ => matchExpression_of_matchTemplate
    · exact fun _ _ _ => matchTemplate_of_matchExpression

/-! ## The texts of a definition -/

mutual

/-- The strings of a value, where templates may stand. -/
def texts : Json → List String
  | .str s => [s]
  | .obj items => fieldTexts items
  | .list l => itemTexts l
  | _ => []
termination_by structural v => v

/-- The strings of a list. -/
def itemTexts : List Json → List String
  | [] => []
  | v :: l => texts v ++ itemTexts l
termination_by structural l => l

/-- The strings of the values of a dictionary. -/
def fieldTexts : List (String × Json) → List String
  | [] => []
  | p :: l => fieldText p ++ fieldTexts l
termination_by structural l => l

/-- The strings of one value of a dictionary. -/
def fieldText : String × Json → List String
  | (_, v) => texts v
termination_by structural p => p

end

/-- The texts of a definition that are resolved. -/
def WorkflowSpec.templateTexts (s : WorkflowSpec) : List String :=
  s.nodes.flatMap (fun n => fieldTexts n.config) ++ s.edges.filterMap (·.condition)

section Texts

/-- What is found in some texts. -/
def checkTexts (location : String) (l : List String) : Findings :=
  .concat (l.map fun text => checkTemplateExpr text location)

variable (location : String)

theorem checkTexts_append (l m : List String) : checkTexts location (l ++ m) =
    .concat [checkTexts location l, checkTexts location m] := by
  simp [checkTexts, Findings.concat]

mutual

/-- The check of a value is the check of its texts. -/
theorem checkTemplates_eq : ∀ v : Json, checkTemplates location v = checkTexts location (texts v)
  | .str s => by simp [checkTexts, Findings.concat, texts, checkTemplates]
  | .obj items => checkTemplateFields_eq items
  | .list l => checkTemplateItems_eq l
  | .null => rfl
  | .bool _ => rfl
  | .int _ => rfl
  | .float _ => rfl

theorem checkTemplateItems_eq : ∀ l : List Json,
    checkTemplateItems location l = checkTexts location (itemTexts l)
  | [] => rfl
  | v :: l => by
    rw [checkTemplateItems, itemTexts, checkTexts_append, checkTemplates_eq v,
      checkTemplateItems_eq l]

theorem checkTemplateFields_eq : ∀ l : List (String × Json),
    checkTemplateFields location l = checkTexts location (fieldTexts l)
  | [] => rfl
  | p :: l => by
    rw [checkTemplateFields, fieldTexts, checkTexts_append, checkTemplateField_eq p,
      checkTemplateFields_eq l]

theorem checkTemplateField_eq : ∀ p : String × Json,
    checkTemplateField location p = checkTexts location (fieldText p)
  | (_, v) => checkTemplates_eq v

end

end Texts

/-! ## Definitions that pass -/

/-- A warning about a template. -/
def AboutTemplate : ValidationWarning → Prop
  | .emptyTemplate _ => True
  | .unexpectedRoot .. => True
  | _ => False

/-- `validate` gives no error and no warning about a template. -/
def Passes (d : WorkflowDefinition) (available : Option (List String)) : Prop :=
  ∃ r, validateDefinition d available = .ok r ∧ r.errors = [] ∧ ∀ w ∈ r.warnings, ¬ AboutTemplate w

/-- What is found is among other findings. -/
def Within (f g : Findings) : Prop := f.errors ⊆ g.errors ∧ f.warnings ⊆ g.warnings

theorem Within.trans {f g h : Findings} (hfg : Within f g) (hgh : Within g h) : Within f h :=
  ⟨List.Subset.trans hfg.1 hgh.1, List.Subset.trans hfg.2 hgh.2⟩

theorem within_concat {f : Findings} {l : List Findings} (h : f ∈ l) : Within f (.concat l) :=
  ⟨fun _ he => List.mem_flatMap.2 ⟨f, h, he⟩, fun _ hw => List.mem_flatMap.2 ⟨f, h, hw⟩⟩

/-- What is found in a text of a definition is found in the definition. -/
theorem exists_location {s : WorkflowSpec} {text : String} (h : text ∈ s.templateTexts)
    (hne : text ≠ "") :
    ∃ location, Within (checkTemplateExpr text location) (checkAllTemplates s) := by
  rcases List.mem_append.1 h with h | h
  · obtain ⟨n, hn, htext⟩ := List.mem_flatMap.1 h
    have hcheck : checkTemplates ("node '" ++ n.id ++ "'") (.obj n.config) =
        checkTexts ("node '" ++ n.id ++ "'") (fieldTexts n.config) :=
      checkTemplateFields_eq _ n.config
    have hnode : Within (checkTexts ("node '" ++ n.id ++ "'") (fieldTexts n.config))
        (checkAllTemplates s) :=
      within_concat (List.mem_append_left _ (List.mem_map.2 ⟨n, hn, hcheck⟩))
    have htext' : checkTemplateExpr text ("node '" ++ n.id ++ "'") ∈
        (fieldTexts n.config).map (checkTemplateExpr · ("node '" ++ n.id ++ "'")) :=
      List.mem_map.2 ⟨text, htext, rfl⟩
    exact ⟨_, (within_concat htext').trans hnode⟩
  · obtain ⟨e, he, hcondition⟩ := List.mem_filterMap.1 h
    refine ⟨"edge " ++ e.source ++ "->" ++ e.target, within_concat (List.mem_append_right _ ?_)⟩
    refine List.mem_map.2 ⟨e, he, ?_⟩
    rw [hcondition]
    exact if_neg hne

theorem Passes.within {d : WorkflowDefinition} {available : Option (List String)}
    (h : Passes d available) {f : Findings} (hf : Within f (checkAllTemplates d.toWorkflowSpec)) :
    f.errors = [] ∧ ∀ w ∈ f.warnings, ¬ AboutTemplate w := by
  obtain ⟨r, hr, herrors, hwarnings⟩ := h
  obtain ⟨depth, hdepth⟩ := maxDepth_ok d
  unfold validateDefinition at hr
  rw [hdepth] at hr
  rcases checkNodes_cases (s := d.toWorkflowSpec) d.nodes with ⟨-, types, htypes, -⟩ | ⟨-, e, he⟩
  · rw [htypes] at hr
    have hall : Within f (findings d.toWorkflowSpec available types) :=
      hf.trans (within_concat (by simp))
    cases hr
    have hnone : (findings d.toWorkflowSpec available types).errors = [] := herrors
    have herrors' : f.errors ⊆ [] := hnone ▸ hall.1
    exact ⟨List.subset_nil.1 herrors', fun w hw => hwarnings w (hall.2 hw)⟩
  · rw [he] at hr
    cases hr

/-- What passing says of an expression. -/
theorem Passes.expression {d : WorkflowDefinition} {available : Option (List String)}
    (h : Passes d available) {text : String} (htext : text ∈ d.templateTexts) {expr : List Char}
    (hexpr : .inr expr ∈ expressions text.toList) : expr ≠ [] ∧
      (String.ofList (rootOf expr) ∈ validRootPaths ∨ (rootOf expr).head? = some '$') := by
  have hne : text ≠ "" := by
    rintro rfl
    cases hexpr
  obtain ⟨location, hwithin⟩ := exists_location htext hne
  obtain ⟨herrors, hwarnings⟩ := h.within hwithin
  unfold checkTemplateExpr at herrors hwarnings
  dsimp only at herrors hwarnings
  split at herrors
  · cases herrors
  · split at herrors
    · cases herrors
    · next hopen hclose =>
      rw [if_neg hopen, if_neg hclose] at hwarnings
      have hroot : ∀ w ∈ checkRoot location expr, ¬ AboutTemplate w := fun w hw =>
        hwarnings w (List.mem_flatMap.2 ⟨expr, mem_findExpressions.2 hexpr, hw⟩)
      unfold checkRoot at hroot
      dsimp only at hroot
      split at hroot
      · exact absurd trivial (hroot _ List.mem_cons_self)
      · next hexpr =>
        split at hroot
        · exact absurd trivial (hroot _ List.mem_cons_self)
        · next hvalid => exact ⟨hexpr, by simpa [or_iff_not_imp_left] using hvalid⟩

/-! ## The outputs of the nodes -/

/-- The template of the output of a node. -/
def outputTemplate (id : String) : String := "\x7b\x7b steps." ++ id ++ ".output \x7d\x7d"

/-- Its path. -/
def outputPath (id : String) : List Char :=
  "steps".toList ++ '.' :: (id.toList ++ '.' :: "output".toList)

theorem toList_outputTemplate (id : String) : (outputTemplate id).toList =
    '\x7b' :: '\x7b' :: ([' '] ++ (outputPath id ++ ([' '] ++ ['\x7d', '\x7d']))) := by
  have hparts : ∀ {opening name steps closing output : List Char},
      opening = '\x7b' :: '\x7b' :: ' ' :: (steps ++ ['.']) →
        closing = '.' :: (output ++ [' ', '\x7d', '\x7d']) → opening ++ name ++ closing =
          '\x7b' :: '\x7b' :: ([' '] ++ (steps ++ '.' :: (name ++ '.' :: output) ++
            ([' '] ++ ['\x7d', '\x7d']))) := by
    rintro _ name steps _ output rfl rfl
    simp
  rw [outputTemplate, String.toList_append, String.toList_append]
  exact hparts rfl rfl

theorem strip_outputTemplate (id : String) :
    strip (outputTemplate id).toList = (outputTemplate id).toList := by
  refine strip_self (by simp [toList_outputTemplate]) ?_ ?_
  · simp only [toList_outputTemplate, List.head_cons]
    rfl
  · simp [toList_outputTemplate]
    rfl

/-- A name: the characters of a path but the dot. -/
def IsName (id : String) : Prop := ∀ c ∈ id.toList, isPathChar c = true ∧ c ≠ '.'

instance (id : String) : Decidable (IsName id) := List.decidableBAll _ _

theorem splitDots_append {cs cs' : List Char} (h : '.' ∉ cs) :
    splitDots (cs ++ '.' :: cs') = cs :: splitDots cs' := by
  induction cs with
  | nil => rfl
  | cons c cs ih =>
    rw [List.mem_cons, not_or] at h
    rw [List.cons_append, splitDots, if_neg (Ne.symm h.1), ih h.2]

theorem outputPath_ne_nil (id : String) : outputPath id ≠ [] :=
  List.append_ne_nil_of_left_ne_nil (by decide) _

theorem isPathChar_outputPath {id : String} (h : ∀ c ∈ id.toList, isPathChar c = true) :
    ∀ c ∈ outputPath id, isPathChar c = true := by
  have hsteps : ∀ c ∈ "steps".toList, isPathChar c = true := List.all_eq_true.1 rfl
  have houtput : ∀ c ∈ "output".toList, isPathChar c = true := List.all_eq_true.1 rfl
  intro c hc
  rcases List.mem_append.1 hc with hc | hc
  · exact hsteps c hc
  · rcases List.mem_cons.1 hc with rfl | hc
    · rfl
    · rcases List.mem_append.1 hc with hc | hc
      · exact h c hc
      · rcases List.mem_cons.1 hc with rfl | hc
        · rfl
        · exact houtput c hc

theorem strip_outputPath {ws ws' : List Char} (hws : ∀ c ∈ ws, isSpace c = true)
    (hws' : ∀ c ∈ ws', isSpace c = true) (id : String) :
    strip (ws ++ (outputPath id ++ ws')) = outputPath id := by
  refine strip_eq hws hws' (outputPath_ne_nil id) rfl ?_
  have hlast : (outputPath id).getLast (outputPath_ne_nil id) = 't' :=
    (List.getLast_append_of_ne_nil _ (List.cons_ne_nil _ _)).trans <|
      (List.getLast_cons (List.append_ne_nil_of_right_ne_nil _ (List.cons_ne_nil _ _))).trans <|
        List.getLast_append_of_ne_nil _ (List.cons_ne_nil _ _)
  rw [hlast]
  rfl

/-- The template of an output is one as a whole exactly if the id has characters of paths. -/
theorem matchTemplate_outputTemplate {id : String} {path : List Char} :
    matchTemplate (outputTemplate id).toList = some (path, []) ↔
      path = outputPath id ∧ ∀ c ∈ id.toList, isPathChar c = true := by
  have hspace : ∀ c ∈ [' '], isSpace c = true := List.all_eq_true.1 rfl
  rw [matchTemplate_eq_some_iff, toList_outputTemplate]
  constructor
  · rintro ⟨_, ⟨ws, ws', hws, hws', hne, hchars, rfl⟩, heq⟩
    have hinner : [' '] ++ (outputPath id ++ [' ']) = ws ++ (path ++ ws') := by
      simp only [List.append_nil, List.cons.injEq, true_and] at heq
      have hall : [' '] ++ (outputPath id ++ [' ']) ++ ['\x7d', '\x7d'] =
          ws ++ (path ++ ws') ++ ['\x7d', '\x7d'] := by simpa using heq
      exact List.append_cancel_right hall
    have hstrip := congrArg strip hinner
    rw [strip_outputPath hspace hspace, strip_eq hws hws' hne
      (isSpace_of_isPathChar (hchars _ (List.head_mem hne)))
      (isSpace_of_isPathChar (hchars _ (List.getLast_mem hne)))] at hstrip
    subst hstrip
    refine ⟨rfl, fun c hc => hchars c ?_⟩
    exact List.mem_append_right _ (List.mem_cons_of_mem _ (List.mem_append_left _ hc))
  · rintro ⟨rfl, hid⟩
    exact ⟨_, ⟨[' '], [' '], hspace, hspace, outputPath_ne_nil id, isPathChar_outputPath hid, rfl⟩,
      (List.append_nil _).symm⟩

theorem getNested_outputPath (ctx : Context) {id : String} (hdot : '.' ∉ id.toList) :
    getNested ctx.toJson (splitDots (outputPath id)) =
      ((ctx.step? id).map (·.output)).getD .null := by
  have hparts : splitDots (outputPath id) = ["steps".toList, id.toList, "output".toList] := by
    have hlast : splitDots "output".toList = ["output".toList] := rfl
    have hid : splitDots (id.toList ++ '.' :: "output".toList) =
        [id.toList, "output".toList] := (splitDots_append hdot).trans (congrArg _ hlast)
    exact (splitDots_append (by decide)).trans (congrArg _ hid)
  have hlookup : Json.lookup id (ctx.steps.map fun p => (p.1, Context.StepData.toJson p.2)) =
      (ctx.step? id).map Context.StepData.toJson := by
    unfold Json.lookup Context.step?
    rw [List.find?_map, Option.map_map, Option.map_map]
    rfl
  have hsteps : getNested ctx.toJson (splitDots (outputPath id)) =
      getNested (.obj (ctx.steps.map fun p => (p.1, Context.StepData.toJson p.2)))
        [id.toList, "output".toList] := by
    rw [hparts]
    rfl
  rw [hsteps, getNested, String.ofList_toList, hlookup]
  cases ctx.step? id with
  | none => rfl
  | some data => rfl

/-- **A node whose id is a name has its output where the template looks.** -/
theorem resolve_outputTemplate (u : Unicode) {id : String} (h : IsName id) {ctx : Context}
    {data : StepData} (hdata : ctx.step? id = some data) :
    resolveTemplate u ctx.toJson (.str (outputTemplate id)) = data.output := by
  have hmatch := matchTemplate_outputTemplate.2 ⟨rfl, fun c hc => (h c hc).1⟩
  have hdot : '.' ∉ id.toList := fun hmem => (h '.' hmem).2 rfl
  have hresolve : resolveString u ctx.toJson (outputTemplate id) =
      getNested ctx.toJson (splitDots (outputPath id)) := by
    rw [resolveString, strip_outputTemplate, hmatch]
  change resolveString u ctx.toJson (outputTemplate id) = data.output
  rw [hresolve, getNested_outputPath ctx hdot, hdata]
  rfl

/-- Only a dot in the id leads elsewhere. -/
theorem getNested_outputPath_of_dot {id : String} (hdot : '.' ∈ id.toList) (ctx : Context)
    (hctx : ∀ p ∈ ctx.steps, p.1 = id) :
    getNested ctx.toJson (splitDots (outputPath id)) = .null := by
  obtain ⟨as, bs, hid, has⟩ := List.eq_append_cons_of_mem hdot
  have hparts : splitDots (outputPath id) =
      "steps".toList :: as :: splitDots (bs ++ '.' :: "output".toList) := by
    have hinner : id.toList ++ '.' :: "output".toList =
        as ++ '.' :: (bs ++ '.' :: "output".toList) := by
      rw [hid, List.append_assoc, List.cons_append]
    have hid' : splitDots (id.toList ++ '.' :: "output".toList) =
        as :: splitDots (bs ++ '.' :: "output".toList) := hinner ▸ splitDots_append has
    exact (splitDots_append (by decide)).trans (congrArg _ hid')
  have hne : String.ofList as ≠ id := by
    rintro rfl
    rw [String.toList_ofList] at hdot
    exact has hdot
  have hlookup : Json.lookup (String.ofList as)
      (ctx.steps.map fun p => (p.1, Context.StepData.toJson p.2)) = none := by
    unfold Json.lookup
    rw [Option.map_eq_none_iff, List.find?_eq_none]
    intro q hq hkey
    obtain ⟨p, hp, rfl⟩ := List.mem_map.1 hq
    exact hne ((by simpa using hkey : p.1 = String.ofList as).symm.trans (hctx p hp))
  have hsteps : getNested ctx.toJson (splitDots (outputPath id)) =
      getNested (.obj (ctx.steps.map fun p => (p.1, Context.StepData.toJson p.2)))
        (as :: splitDots (bs ++ '.' :: "output".toList)) := by
    rw [hparts]
    rfl
  rw [hsteps, getNested, hlookup]

/-- And only such a node. -/
theorem isName_of_resolve (u : Unicode) {id : String} (h : ∀ (ctx : Context) (data : StepData),
    ctx.step? id = some data →
      resolveTemplate u ctx.toJson (.str (outputTemplate id)) = data.output) : IsName id := by
  let data : StepData := ⟨.bool true, ⟨.finite 1, "1.0"⟩⟩
  let ctx : Context := ⟨.null, [(id, data)], "", ""⟩
  have hctx : resolveString u ctx.toJson (outputTemplate id) = .bool true :=
    h ctx data (by simp [ctx, Context.step?])
  unfold resolveString at hctx
  rw [strip_outputTemplate] at hctx
  split at hctx
  · next path hmatch =>
    obtain ⟨rfl, hchars⟩ := matchTemplate_outputTemplate.1 hmatch
    refine fun c hc => ⟨hchars c hc, ?_⟩
    rintro rfl
    rw [getNested_outputPath_of_dot hc ctx (by simp [ctx])] at hctx
    cases hctx
  · cases hctx

/-! ## What a text resolves to -/

/-- What a text resolves to if its expressions are what is replaced. -/
def resolveAsRead (u : Unicode) (ctx : Json) (text : String) : Json :=
  match matchExpression (strip text.toList) with
  | some (expr, []) => getNested ctx (splitDots expr)
  | _ => .str (String.ofList ((expressions text.toList).flatMap (render u ctx)))

theorem matchExpression_space {c : Char} (hc : isSpace c = true) (cs : List Char) :
    matchExpression (c :: cs) = none := by
  cases h : matchExpression (c :: cs) with
  | none => rfl
  | some found =>
    obtain ⟨body, -, -, -, heq⟩ := matchExpression_eq_some_iff.1 h
    rw [List.cons.injEq] at heq
    rw [heq.1] at hc
    cases hc

theorem lexes_spaces {ws cs : List Char} {ts : List (Char ⊕ List Char)}
    (hws : ∀ c ∈ ws, isSpace c = true) (h : Lexes matchExpression cs ts) :
    Lexes matchExpression (ws ++ cs) (ws.map .inl ++ ts) := by
  induction ws with
  | nil => exact h
  | cons c ws ih =>
    rw [List.forall_mem_cons] at hws
    exact .plain (matchExpression_space hws.1 _) (ih hws.2)

/-- An expression that is a text as a whole, but for white space, is one of its expressions. -/
theorem mem_expressions_of_strip {cs expr : List Char}
    (h : matchExpression (strip cs) = some (expr, [])) : .inr expr ∈ expressions cs := by
  obtain ⟨ws, ws', hws, -, hcs⟩ := exists_of_strip cs
  obtain ⟨body, hne, hbody, hstrip, heq⟩ := matchExpression_eq_some_iff.1 h
  have hfront : matchExpression (strip cs ++ ws') = some (expr, ws') := by
    refine matchExpression_eq_some_iff.2 ⟨body, hne, hbody, hstrip, ?_⟩
    rw [heq]
    simp
  have hlexes : Lexes matchExpression cs (ws.map .inl ++ .inr expr :: expressions ws') := by
    have hws' := lexes_spaces hws (.found hfront (lexes_expressions ws'))
    rwa [← hcs] at hws'
  rw [(lexes_expressions cs).unique consumes_matchExpression hlexes]
  exact List.mem_append_right _ List.mem_cons_self

/-- A text that the engine reads as the validator does resolves accordingly. -/
theorem resolveString_eq_resolveAsRead (u : Unicode) (ctx : Json) {text : String}
    (h : tokens text.toList = expressions text.toList) :
    resolveString u ctx text = resolveAsRead u ctx text := by
  have hwhole : ∀ expr, matchTemplate (strip text.toList) = some (expr, []) ↔
      matchExpression (strip text.toList) = some (expr, []) := by
    refine fun expr => ⟨matchExpression_of_matchTemplate, fun hexpr => ?_⟩
    exact matchTemplate_of_matchExpression hexpr
      ((tokens_eq_expressions_iff _).1 h expr (mem_expressions_of_strip hexpr))
  unfold resolveString resolveAsRead
  rw [← h, ← interpolate, interpolate_eq]
  split
  · next path hpath => rw [(hwhole path).1 hpath]
  · next hnone =>
    split
    · next expr hexpr => exact absurd ((hwhole expr).2 hexpr) (hnone expr)
    · rfl

/-! ## Roots -/

/-- The keys of the dictionary that templates look into. -/
def rootKeys (ctx : Context) : List String :=
  match ctx.toJson with
  | .obj items => items.map (·.1)
  | _ => []

theorem rootKeys_eq (ctx : Context) : rootKeys ctx = ["input", "steps", "tenant_id", "trace_id"] :=
  rfl

theorem head?_splitDots (cs : List Char) :
    (splitDots cs).head? = some (cs.takeWhile (· ≠ '.')) := by
  induction cs with
  | nil => rfl
  | cons c cs ih =>
    rw [splitDots]
    by_cases hc : c = '.'
    · simp [hc]
    · rw [if_neg hc, List.takeWhile_cons_of_pos (by simpa using hc)]
      cases hparts : splitDots cs with
      | nil => simp [hparts] at ih
      | cons w ws =>
        rw [hparts, List.head?_cons, Option.some.injEq] at ih
        rw [List.head?_cons, ih]

/-- A text of path characters has nothing to strip. -/
theorem strip_of_path {cs : List Char} (h : ∀ c ∈ cs, isPathChar c = true) : strip cs = cs :=
  strip_of_forall fun c hc => isSpace_of_isPathChar (h c hc)

theorem rootOf_of_path {expr : List Char} (h : ∀ c ∈ expr, isPathChar c = true) :
    rootOf expr = expr.takeWhile (· ≠ '.') := by
  have hroot : ∀ c ∈ expr.takeWhile (· ≠ '.'), isPathChar c = true := fun c hc =>
    h c (List.takeWhile_subset _ hc)
  have hbracket : (expr.takeWhile (· ≠ '.')).takeWhile (· ≠ '[') = expr.takeWhile (· ≠ '.') := by
    refine List.takeWhile_eq_self_iff.2 fun c hc => decide_eq_true ?_
    rintro rfl
    exact absurd (hroot _ hc) (by decide)
  rw [rootOf, hbracket, strip_of_path hroot]

/-- The root of a path is its first part. -/
theorem head?_splitDots_of_path {expr : List Char} (h : ∀ c ∈ expr, isPathChar c = true) :
    (splitDots expr).head? = some (rootOf expr) := by
  rw [head?_splitDots, rootOf_of_path h]

/-! ## Definitions whose templates are resolved -/

/-- **Accepted templates are resolvable**: the engine reads every text as the validator does and
replaces what it recognises, the root of every expression is a key of the context, and the template
of the output of a node gives the output once the node has one. -/
structure Resolvable (u : Unicode) (s : WorkflowSpec) : Prop where
  recognised : ∀ text ∈ s.templateTexts, tokens text.toList = expressions text.toList
  substituted : ∀ text ∈ s.templateTexts, ∀ ctx : Context,
    resolveTemplate u ctx.toJson (.str text) = resolveAsRead u ctx.toJson text
  rooted : ∀ text ∈ s.templateTexts, ∀ expr, .inr expr ∈ expressions text.toList →
    ∀ ctx, ∀ root ∈ (splitDots expr).head?, String.ofList root ∈ rootKeys ctx
  outputs : ∀ n ∈ s.nodes, ∀ (ctx : Context) data, ctx.step? n.id = some data →
    resolveTemplate u ctx.toJson (.str (outputTemplate n.id)) = data.output

/-- The expressions are paths, none of them below `workflow_id`, and the ids of the nodes are
names. -/
structure PlainTemplates (s : WorkflowSpec) : Prop where
  paths : ∀ text ∈ s.templateTexts, ∀ expr, .inr expr ∈ expressions text.toList →
    ∀ c ∈ expr, isPathChar c = true
  roots : ∀ text ∈ s.templateTexts, ∀ expr, .inr expr ∈ expressions text.toList →
    String.ofList (rootOf expr) ≠ "workflow_id"
  names : ∀ n ∈ s.nodes, IsName n.id

/-- **The engine resolves the templates of a definition that passes** exactly if they are plain. -/
theorem resolvable_iff (u : Unicode) {d : WorkflowDefinition} {available : Option (List String)}
    (h : Passes d available) : Resolvable u d.toWorkflowSpec ↔ PlainTemplates d.toWorkflowSpec := by
  constructor
  · intro hresolvable
    have hpaths : ∀ text ∈ d.templateTexts, ∀ expr, .inr expr ∈ expressions text.toList →
        ∀ c ∈ expr, isPathChar c = true := fun text htext expr hexpr =>
      ((tokens_eq_expressions_iff _).1 (hresolvable.recognised text htext) expr hexpr).2
    refine ⟨hpaths, fun text htext expr hexpr hroot => ?_, fun n hn => ?_⟩
    · have hkey := hresolvable.rooted text htext expr hexpr ⟨.null, [], "", ""⟩ (rootOf expr)
        (head?_splitDots_of_path (hpaths text htext expr hexpr))
      rw [hroot, rootKeys_eq] at hkey
      exact absurd hkey (by decide)
    · exact isName_of_resolve u (hresolvable.outputs n hn)
  · intro hplain
    have hrecognised : ∀ text ∈ d.templateTexts, tokens text.toList = expressions text.toList :=
      fun text htext => (tokens_eq_expressions_iff _).2 fun expr hexpr =>
        ⟨(h.expression htext hexpr).1, hplain.paths text htext expr hexpr⟩
    refine ⟨hrecognised, fun text htext ctx => ?_, fun text htext expr hexpr ctx root hroot => ?_,
      fun n hn ctx data hdata => resolve_outputTemplate u (hplain.names n hn) hdata⟩
    · exact resolveString_eq_resolveAsRead u ctx.toJson (hrecognised text htext)
    · have hpath := hplain.paths text htext expr hexpr
      rw [head?_splitDots_of_path hpath] at hroot
      cases hroot
      rcases (h.expression htext hexpr).2 with hvalid | hdollar
      · have hne := hplain.roots text htext expr hexpr
        rw [rootKeys_eq]
        simp only [validRootPaths, List.mem_cons, List.not_mem_nil, or_false, hne] at hvalid ⊢
        exact hvalid
      · have hmem : '$' ∈ rootOf expr := List.mem_of_mem_head? hdollar
        rw [rootOf_of_path hpath] at hmem
        exact absurd (hpath _ (List.takeWhile_subset _ hmem)) (by decide)

/-- A webhook that fetches an order. -/
def orderWorkflow : WorkflowDefinition where
  id := some "wf_order"
  name := "order"
  trigger := { type := "webhook" }
  nodes := [
    { id := "hook", type := "trigger.webhook", name := "Hook" },
    { id := "fetch", type := "action.http", name := "Fetch",
      config := [("path", .str "/orders/\x7b\x7b input.order_id \x7d\x7d")] }]
  edges := [⟨"hook", "fetch", none⟩]
  accepted := by decide

theorem passes_order : Passes orderWorkflow none :=
  ⟨_, rfl, rfl, fun _ hw => absurd hw List.not_mem_nil⟩

theorem plainTemplates_order : PlainTemplates orderWorkflow.toWorkflowSpec := by
  have hread : ∀ text ∈ orderWorkflow.templateTexts, ∀ expr,
      .inr expr ∈ expressions text.toList → expr = "input.order_id".toList := by
    intro text htext expr hexpr
    have hfound : (expressions text.toList).filterMap Sum.getRight? =
        ["input.order_id".toList] := by
      rw [List.mem_singleton.1 htext]
      rfl
    have hmem : expr ∈ (expressions text.toList).filterMap Sum.getRight? :=
      List.mem_filterMap.2 ⟨_, hexpr, rfl⟩
    rw [hfound] at hmem
    exact List.mem_singleton.1 hmem
  refine ⟨fun text htext expr hexpr => ?_, fun text htext expr hexpr => ?_, by decide⟩
  · rw [hread text htext expr hexpr]
    exact List.all_eq_true.1 rfl
  · rw [hread text htext expr hexpr]
    decide

/-- The templates of the order are resolved. -/
theorem resolvable_order :
    Resolvable ⟨fun _ => true, fun _ => none⟩ orderWorkflow.toWorkflowSpec :=
  (resolvable_iff _ passes_order).2 plainTemplates_order

/-- The same with a hyphen in the id of the node and in the name of a field, and with the id of the
workflow. -/
def hyphenWorkflow : WorkflowDefinition where
  id := some "wf_order"
  name := "order"
  trigger := { type := "webhook" }
  nodes := [
    { id := "hook", type := "trigger.webhook", name := "Hook" },
    { id := "fetch-order", type := "action.http", name := "Fetch",
      config := [("path",
        .str "/\x7b\x7b workflow_id \x7d\x7d/\x7b\x7b input.order-id \x7d\x7d")] }]
  edges := [⟨"hook", "fetch-order", none⟩]
  accepted := by decide

theorem passes_hyphen : Passes hyphenWorkflow none :=
  ⟨_, rfl, rfl, fun _ hw => absurd hw List.not_mem_nil⟩

/-- The validator has nothing to say about the hyphens, the engine does not resolve the field. -/
theorem not_resolvable_hyphen : Passes hyphenWorkflow none ∧
    ¬ Resolvable ⟨fun _ => true, fun _ => none⟩ hyphenWorkflow.toWorkflowSpec := by
  refine ⟨passes_hyphen, fun h => ?_⟩
  exact absurd (h.recognised _ List.mem_cons_self) (by decide)

end FlowMesh
