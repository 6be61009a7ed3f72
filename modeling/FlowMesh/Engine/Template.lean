import FlowMesh.Workflow.Schema

/-!
# The execution context and its templates

The context that `WorkflowEngine.execute` builds, the interpolation of `resolve_template`
(a whole-string template gives the value itself, an embedded one its `str`), and
`evaluate_condition`, which decides whether an edge is followed. Python's recursion limit is left
out: a value may be nested to any depth.
-/

namespace FlowMesh

open Python

/-! ## The context -/

/-- An entry of `context["steps"]`. -/
structure StepData where
  output : Json
  durationMs : PyFloat

/-- The execution context. -/
structure Context where
  input : Json
  steps : List (String × StepData)
  tenantId : String
  traceId : String

namespace Context

/-- `context["steps"].get(id)`. -/
def step? (ctx : Context) (id : String) : Option StepData :=
  (ctx.steps.find? (·.1 = id)).map (·.2)

/-- `context["steps"][id] = data`: an existing key keeps its place. -/
def put (ctx : Context) (id : String) (data : StepData) : Context :=
  { ctx with
    steps := if ctx.steps.any (·.1 = id) then
        ctx.steps.map fun p => if p.1 = id then (id, data) else p
      else ctx.steps ++ [(id, data)] }

/-- The entry of `context["steps"]` as a dictionary. -/
def StepData.toJson (s : StepData) : Json :=
  .obj [("output", s.output), ("duration_ms", .float s.durationMs)]

/-- The context as the dictionary that templates look into. -/
def toJson (ctx : Context) : Json :=
  .obj [("input", ctx.input), ("steps", .obj (ctx.steps.map fun p => (p.1, StepData.toJson p.2))),
    ("tenant_id", .str ctx.tenantId), ("trace_id", .str ctx.traceId)]

end Context

/-! ## Templates -/

/-- `_get_nested` on the parts of the path; the empty string of a missing part is a key like any
other. -/
def getNested : Json → List (List Char) → Json
  | v, [] => v
  | .obj items, part :: parts =>
    match Json.lookup (String.ofList part) items with
    | some v => getNested v parts
    | none => .null
  | _, _ :: _ => .null

/-- The characters of a template's path. -/
def isPathChar (c : Char) : Bool := c.isAlphanum ∨ c = '_' ∨ c = '.'

/-- A match of the template pattern at the front: the path, and what follows. The three character
classes are disjoint, so the greedy match is the only one. -/
def matchTemplate : List Char → Option (List Char × List Char)
  | '\x7b' :: '\x7b' :: cs =>
    let cs := cs.dropWhile isSpace
    let path := cs.takeWhile isPathChar
    match (cs.dropWhile isPathChar).dropWhile isSpace with
    | '\x7d' :: '\x7d' :: rest => if path = [] then none else some (path, rest)
    | _ => none
  | _ => none

/-- What a template inside a longer text is replaced by. -/
def repl (u : Unicode) (ctx : Json) (path : List Char) : List Char :=
  match getNested ctx (splitDots path) with
  | .null => []
  | v => str u v

/-- `re.sub`, scanning from the left; the fuel is the length of the text. -/
def substitute (u : Unicode) (ctx : Json) : ℕ → List Char → List Char
  | 0, cs => cs
  | _ + 1, [] => []
  | fuel + 1, c :: cs =>
    match matchTemplate (c :: cs) with
    | some (path, rest) => repl u ctx path ++ substitute u ctx fuel rest
    | none => c :: substitute u ctx fuel cs

/-- `resolve_template` of a string. -/
def resolveString (u : Unicode) (ctx : Json) (s : String) : Json :=
  match matchTemplate (strip s.toList) with
  | some (path, []) => getNested ctx (splitDots path)
  | _ => .str (String.ofList (substitute u ctx s.toList.length s.toList))

mutual

/-- `resolve_template`. -/
def resolveTemplate (u : Unicode) (ctx : Json) : Json → Json
  | .str s => resolveString u ctx s
  | .obj items => .obj (resolveFields u ctx items)
  | .list l => .list (resolveItems u ctx l)
  | v => v
termination_by structural v => v

/-- The items of a list. -/
def resolveItems (u : Unicode) (ctx : Json) : List Json → List Json
  | [] => []
  | v :: l => resolveTemplate u ctx v :: resolveItems u ctx l
termination_by structural l => l

/-- The values of a dictionary. -/
def resolveFields (u : Unicode) (ctx : Json) : List (String × Json) → List (String × Json)
  | [] => []
  | p :: l => resolveField u ctx p :: resolveFields u ctx l
termination_by structural l => l

/-- One item of a dictionary. -/
def resolveField (u : Unicode) (ctx : Json) : String × Json → String × Json
  | (k, v) => (k, resolveTemplate u ctx v)
termination_by structural p => p

end

/-- `resolve_template(node.config, context)`. -/
def resolveConfig (u : Unicode) (n : WorkflowNode) (ctx : Context) : List (String × Json) :=
  resolveFields u ctx.toJson n.config

/-! ## Conditions -/

/-- `evaluate_condition(edge.condition or "", context)`. -/
def evaluateCondition (u : Unicode) (e : WorkflowEdge) (ctx : Context) : Bool :=
  match e.condition with
  | none => true
  | some "" => true
  | some expr =>
    match resolveString u ctx.toJson expr with
    | .bool b => b
    | v =>
      let text := lower (String.ofList (str u v))
      if text ∈ ["true".toList, "1".toList, "yes".toList] then true
      else if text ∈ ["false".toList, "0".toList, "no".toList, "none".toList, "null".toList, []] then
        false
      else v.truthy

/-! ## What a context knows -/

namespace Context

@[simp] theorem put_input (ctx : Context) (id : String) (data : StepData) :
    (ctx.put id data).input = ctx.input := rfl

@[simp] theorem put_tenantId (ctx : Context) (id : String) (data : StepData) :
    (ctx.put id data).tenantId = ctx.tenantId := rfl

@[simp] theorem put_traceId (ctx : Context) (id : String) (data : StepData) :
    (ctx.put id data).traceId = ctx.traceId := rfl

/-- A new key goes to the end. -/
theorem put_of_none {ctx : Context} {id : String} (h : ctx.step? id = none) (data : StepData) :
    ctx.put id data = { ctx with steps := ctx.steps ++ [(id, data)] } := by
  have hany : ctx.steps.any (·.1 = id) = false := by
    simpa [step?] using h
  simp only [put, hany, Bool.false_eq_true, if_false]

theorem find?_replace {α : Type} (l : List (String × α)) (key key' : String) (v : α) :
    (l.map fun p => if p.1 = key then (key, v) else p).find? (·.1 = key') =
      if key = key' then (l.find? (·.1 = key')).map fun _ => (key, v)
      else l.find? (·.1 = key') := by
  induction l with
  | nil => simp
  | cons p l ih =>
    simp only [List.map_cons, List.find?_cons]
    by_cases hp : p.1 = key
    · by_cases hkey : key = key' <;> simp_all
    · by_cases hkey : key = key'
      · subst hkey
        simp_all
      · simp_all

/-- What is found after an assignment, whether it replaces or appends. -/
theorem find?_assign {α : Type} (l : List (String × α)) (key key' : String) (v : α) :
    (if l.any (·.1 = key) then l.map fun p => if p.1 = key then (key, v) else p
      else l ++ [(key, v)]).find? (·.1 = key') =
      if key = key' then some (key, v) else l.find? (·.1 = key') := by
  split
  · next hany =>
    rw [find?_replace]
    by_cases hkey : key = key'
    · subst hkey
      have hsome : (l.find? (·.1 = key)).isSome = true := by
        rw [List.find?_isSome]
        exact List.any_eq_true.1 hany
      obtain ⟨q, hq⟩ := Option.isSome_iff_exists.1 hsome
      simp [hq]
    · simp [hkey]
  · next hany =>
    rw [List.find?_append]
    have hnone : l.find? (·.1 = key) = none := by
      rw [List.find?_eq_none]
      intro p hp hpkey
      exact hany (List.any_eq_true.2 ⟨p, hp, hpkey⟩)
    by_cases hkey : key = key'
    · subst hkey
      simp [hnone]
    · simp [hkey]

@[simp] theorem step?_put (ctx : Context) (id id' : String) (data : StepData) :
    (ctx.put id data).step? id' = if id = id' then some data else ctx.step? id' := by
  unfold put step?
  dsimp only
  rw [find?_assign]
  split <;> rfl

end Context

end FlowMesh
