import Mathlib.Data.List.Forall2
import Mathlib.Data.List.Induction
import FlowMesh.Python.Holes
import FlowMesh.Engine.Expressions

/-!
# Templates and data

`_execute_node` resolves the templates of the configuration, and the branch of `transform` in
`_dispatch_node_type` resolves those of the mapping once more, when it holds data already. What is
resolved once inserts the data as it is, which is said with holes (`Holed`): the configuration for
a context with holes has holes itself (`resolveConfig_fill`), whatever the string in the holes is.

`insertsVerbatim_iff` says when this is true of a node as a whole: exactly if a transformation
leaves the string out of its mapping. The argument is about lengths (`not_mem_of_fixed`): a text
that is resolved again loses what stands in its holes if that is a template without a value.
-/

namespace FlowMesh

open Python

/-! ## Dispatch -/

/-- The branch of `transform`; the payload of a run is a dictionary, and nothing else is copied. -/
def transform (resolve : Json → Json) (resolvedConfig : List (String × Json)) :
    Json → Except PyError Json
  | .obj inputData =>
    match Json.lookup "mapping" resolvedConfig with
    | none => .ok (.obj inputData)
    | some (.obj mapping) =>
      .ok (.obj (mapping.foldl (fun output p => Json.assign p.1 (resolve p.2) output) inputData))
    | some v => .error ⟨.other, "'" ++ typeName v ++ "' object has no attribute 'items'"⟩
  | v => .error ⟨.typeError, "'" ++ typeName v ++ "' object cannot be copied into a dictionary"⟩

/-- The other branches of `_dispatch_node_type`: what executes a node whose connection leads to an
agent or a registered connector, and the branches of the other types. They read the resolved
configuration and the input, and resolve no template. -/
structure Handlers where
  connected : WorkflowNode → Option (List (String × Json) → Json → Except PyError Json)
  byType : WorkflowNode → List (String × Json) → Json → Except PyError Json

/-- `_dispatch_node_type`. -/
def Handlers.dispatch (h : Handlers) (resolve : Json → Json) (node : WorkflowNode)
    (resolvedConfig : List (String × Json)) (input : Json) : Except PyError Json :=
  match h.connected node with
  | some execute => execute resolvedConfig input
  | none =>
    if lower node.type = "transform".toList then transform resolve resolvedConfig input
    else h.byType node resolvedConfig input

/-- The output of a node, as `_execute_node` has it from the dispatch. -/
def Handlers.output (h : Handlers) (u : Unicode) (node : WorkflowNode) (context : Context) :
    Except PyError Json :=
  h.dispatch (resolveTemplate u context.toJson) node (resolveConfig u node context) context.input

namespace Handlers

variable {h : Handlers} {node : WorkflowNode}

theorem dispatch_connected {execute : List (String × Json) → Json → Except PyError Json}
    (hconnected : h.connected node = some execute) (resolve : Json → Json) :
    h.dispatch resolve node = execute := by
  funext config input
  rw [dispatch, hconnected]

theorem dispatch_transform (hconnected : h.connected node = none)
    (htype : lower node.type = "transform".toList) (resolve : Json → Json) :
    h.dispatch resolve node = transform resolve := by
  funext config input
  simp only [dispatch, hconnected, htype, if_true]

theorem dispatch_byType (hconnected : h.connected node = none)
    (htype : lower node.type ≠ "transform".toList) (resolve : Json → Json) :
    h.dispatch resolve node = h.byType node := by
  funext config input
  simp only [dispatch, hconnected, htype, if_false]

end Handlers

/-! ## Contexts with holes -/

/-- A context whose input and outputs have holes. -/
structure HoledContext where
  input : Holed
  steps : List (String × Holed × PyFloat)
  tenantId : String
  traceId : String

namespace HoledContext

/-- The context, with `s` in the holes. -/
def fill (u : Unicode) (s : String) (K : HoledContext) : Context where
  input := K.input.fill u s
  steps := K.steps.map fun p => (p.1, ⟨p.2.1.fill u s, p.2.2⟩)
  tenantId := K.tenantId
  traceId := K.traceId

/-- The dictionary that templates look into. -/
def toHoled (K : HoledContext) : Holed :=
  .obj [("input", K.input),
    ("steps", .obj (K.steps.map fun p =>
      (p.1, .obj [("output", p.2.1), ("duration_ms", .float p.2.2)]))),
    ("tenant_id", .const (.str K.tenantId)), ("trace_id", .const (.str K.traceId))]

/-- A context without holes. -/
def const (context : Context) : HoledContext where
  input := .const context.input
  steps := context.steps.map fun p => (p.1, .const p.2.output, p.2.durationMs)
  tenantId := context.tenantId
  traceId := context.traceId

theorem fill_const (u : Unicode) (s : String) (context : Context) :
    (const context).fill u s = context := by
  have hsteps : (context.steps.map fun p =>
      ((p.1, ⟨(Holed.const p.2.output).fill u s, p.2.durationMs⟩) : String × StepData)) =
        context.steps := by
    simp only [Python.fill_const]
    exact List.map_id _
  simp only [const, fill, Python.fill_const, List.map_map, Function.comp_def] at hsteps ⊢
  rw [hsteps]

theorem toJson_fill (u : Unicode) (s : String) (K : HoledContext) :
    (K.fill u s).toJson = K.toHoled.fill u s := by
  have hsteps : ((K.fill u s).steps.map fun p => (p.1, Context.StepData.toJson p.2)) =
      fillFields u s (K.steps.map fun p =>
        (p.1, .obj [("output", p.2.1), ("duration_ms", .float p.2.2)])) := by
    rw [fillFields_eq_map, fill, List.map_map, List.map_map]
    rfl
  simp only [Context.toJson, toHoled, Holed.fill, fillFields, fillField, hsteps, Python.fill_const]
  rfl

end HoledContext

/-! ## What is resolved once -/

section Once

variable (u : Unicode) (ctx : Holed)

/-- `_get_nested` of a dictionary with holes. -/
def holedNested : Holed → List (List Char) → Holed
  | v, [] => v
  | .obj items, part :: parts =>
    match Holed.lookup (String.ofList part) items with
    | some v => holedNested v parts
    | none => .null
  | _, _ :: _ => .null

/-- What a template inside a longer text is replaced by. -/
def holedRepl (path : List Char) : List Piece :=
  match holedNested ctx (splitDots path) with
  | .null => []
  | v => v.text u

/-- The text behind the substitution of its templates. -/
def holedSubstitute : ℕ → List Char → List Piece
  | 0, cs => cs.map .char
  | _ + 1, [] => []
  | fuel + 1, c :: cs =>
    match matchTemplate (c :: cs) with
    | some (path, rest) => holedRepl u ctx path ++ holedSubstitute fuel rest
    | none => .char c :: holedSubstitute fuel cs

/-- `resolve_template` of a string, in a context with holes. -/
def resolveHoledString (text : String) : Holed :=
  match matchTemplate (strip text.toList) with
  | some (path, []) => holedNested ctx (splitDots path)
  | _ => .str (holedSubstitute u ctx text.toList.length text.toList)

mutual

/-- `resolve_template`, in a context with holes. -/
def resolveHoled : Json → Holed
  | .str text => resolveHoledString u ctx text
  | .obj items => .obj (resolveHoledFields items)
  | .list l => .list (resolveHoledItems l)
  | v => .const v
termination_by structural v => v

/-- The items of a list. -/
def resolveHoledItems : List Json → List Holed
  | [] => []
  | v :: l => resolveHoled v :: resolveHoledItems l
termination_by structural l => l

/-- The values of a dictionary. -/
def resolveHoledFields : List (String × Json) → List (String × Holed)
  | [] => []
  | p :: l => resolveHoledField p :: resolveHoledFields l
termination_by structural l => l

/-- One item of a dictionary. -/
def resolveHoledField : String × Json → String × Holed
  | (k, v) => (k, resolveHoled v)
termination_by structural p => p

end

variable (s : String)

theorem getNested_fill (parts : List (List Char)) : ∀ v : Holed,
    getNested (v.fill u s) parts = (holedNested v parts).fill u s := by
  induction parts with
  | nil =>
    intro v
    cases v <;> rfl
  | cons part parts ih =>
    intro v
    cases v with
    | obj items =>
      rw [Holed.fill, getNested, holedNested, lookup_fillFields]
      cases Holed.lookup (String.ofList part) items with
      | none => rfl
      | some v => exact ih v
    | _ => rfl

theorem repl_fill (path : List Char) :
    repl u (ctx.fill u s) path = fillText u s (holedRepl u ctx path) := by
  unfold repl holedRepl
  rw [getNested_fill]
  cases holedNested ctx (splitDots path) with
  | null => rfl
  | _ => exact (fillText_text u s _).symm

theorem substitute_fill (fuel : ℕ) (cs : List Char) :
    substitute u (ctx.fill u s) fuel cs = fillText u s (holedSubstitute u ctx fuel cs) := by
  induction fuel generalizing cs with
  | zero => exact (fillText_map_char cs).symm
  | succ fuel ih =>
    cases cs with
    | nil => rfl
    | cons c cs =>
      unfold substitute holedSubstitute
      cases matchTemplate (c :: cs) with
      | none => simp [ih]
      | some found =>
        obtain ⟨path, rest⟩ := found
        simp [ih, repl_fill]

theorem resolveString_fill (text : String) :
    resolveString u (ctx.fill u s) text = (resolveHoledString u ctx text).fill u s := by
  have hembedded : Json.str (String.ofList (substitute u (ctx.fill u s) text.toList.length
      text.toList)) =
        (Holed.str (holedSubstitute u ctx text.toList.length text.toList)).fill u s := by
    rw [substitute_fill, Holed.fill]
  unfold resolveString resolveHoledString
  rcases matchTemplate (strip text.toList) with _ | ⟨path, _ | ⟨c, rest⟩⟩
  · exact hembedded
  · exact getNested_fill u s _ ctx
  · exact hembedded

mutual

/-- **Resolving commutes with the filling of holes**: the string in the holes is never looked
into. -/
theorem resolveTemplate_fill : ∀ v : Json,
    resolveTemplate u (ctx.fill u s) v = (resolveHoled u ctx v).fill u s
  | .str text => resolveString_fill u ctx s text
  | .obj items => congrArg Json.obj (resolveFields_fill items)
  | .list l => congrArg Json.list (resolveItems_fill l)
  | .null => rfl
  | .bool _ => rfl
  | .int _ => rfl
  | .float _ => rfl

theorem resolveItems_fill : ∀ l : List Json,
    resolveItems u (ctx.fill u s) l = fillItems u s (resolveHoledItems u ctx l)
  | [] => rfl
  | v :: l => by
    rw [resolveItems, resolveHoledItems, fillItems, resolveTemplate_fill v, resolveItems_fill l]

theorem resolveFields_fill : ∀ l : List (String × Json),
    resolveFields u (ctx.fill u s) l = fillFields u s (resolveHoledFields u ctx l)
  | [] => rfl
  | p :: l => by
    rw [resolveFields, resolveHoledFields, fillFields, resolveField_fill p, resolveFields_fill l]

theorem resolveField_fill : ∀ p : String × Json,
    resolveField u (ctx.fill u s) p = fillField u s (resolveHoledField u ctx p)
  | (k, v) => by rw [resolveField, resolveHoledField, fillField, resolveTemplate_fill v]

end

end Once

/-- The resolved configuration in a context with holes. -/
theorem resolveConfig_fill (u : Unicode) (s : String) (node : WorkflowNode) (K : HoledContext) :
    resolveConfig u node (K.fill u s) =
      fillFields u s (resolveHoledFields u K.toHoled node.config) := by
  rw [resolveConfig, K.toJson_fill, resolveFields_fill]

/-! ## Texts that stay as they are -/

section Fixed

variable {u : Unicode} (K : HoledContext)

/-- The text between the holes. -/
theorem exists_segments (t : List (Option Char)) : ∃ (cs : List Char) (l : List (List Char)),
    l.length = t.count none ∧ ∀ s, plug s t = cs ++ l.flatMap (s.toList ++ ·) := by
  induction t with
  | nil => exact ⟨[], [], rfl, fun _ => rfl⟩
  | cons o t ih =>
    obtain ⟨cs, l, hlen, hplug⟩ := ih
    cases o with
    | none =>
      refine ⟨[], cs :: l, by simp [hlen], fun s => ?_⟩
      rw [List.flatMap_cons, List.nil_append, List.append_assoc, ← hplug]
      rfl
    | some c =>
      refine ⟨c :: cs, l, by simp [hlen], fun s => ?_⟩
      rw [List.cons_append, ← hplug]
      rfl

/-- A bare string between two foreign characters. -/
def probe (mid : String) : String := "#" ++ mid ++ "#"

theorem foreign_hash : Foreign '#' := ⟨by decide, by decide, by decide, by decide⟩

/-- A text with probes is read segment by segment. -/
theorem interpolate_probes (ctx : Json) (mid : String) (cs : List Char) (l : List (List Char)) :
    interpolate u ctx (cs ++ l.flatMap ((probe mid).toList ++ ·)) = interpolate u ctx cs ++
      l.flatMap fun cs => '#' :: (interpolate u ctx mid.toList ++ '#' :: interpolate u ctx cs) := by
  have hprobe : (probe mid).toList = '#' :: (mid.toList ++ ['#']) := by
    simp [probe]
  induction l generalizing cs with
  | nil => simp
  | cons cs' l ih =>
    have hcs : cs ++ (cs' :: l).flatMap ((probe mid).toList ++ ·) =
        cs ++ '#' :: (mid.toList ++ '#' :: (cs' ++ l.flatMap ((probe mid).toList ++ ·))) := by
      simp [hprobe]
    rw [hcs, interpolate_append u ctx foreign_hash, interpolate_append u ctx foreign_hash, ih cs']
    simp

/-- The length of what a text is interpolated to is affine in the length of a bare string. -/
theorem length_interpolate (cs : List Char) : ∃ a e : ℕ, ∀ s, Bare s →
    (interpolate u (K.fill u s).toJson cs).length + e = a + e * s.toList.length := by
  let t := textPlaces u (holedSubstitute u K.toHoled cs.length cs)
  refine ⟨t.length, t.count none, fun s hs => ?_⟩
  rw [interpolate_eq, K.toJson_fill, substitute_fill, fillText_eq_plug (.inl hs), length_plug]

theorem length_interpolate_segments (l : List (List Char)) : ∃ a e : ℕ, ∀ s, Bare s →
    (l.flatMap (interpolate u (K.fill u s).toJson)).length + e = a + e * s.toList.length := by
  induction l with
  | nil => exact ⟨0, 0, by simp⟩
  | cons cs l ih =>
    obtain ⟨a, e, h⟩ := length_interpolate (u := u) K cs
    obtain ⟨a', e', h'⟩ := ih
    refine ⟨a + a', e + e', fun s hs => ?_⟩
    have hcs := h s hs
    have hl := h' s hs
    rw [List.flatMap_cons, List.length_append, Nat.add_mul]
    omega

/-- A path that leads nowhere is replaced by nothing. -/
theorem interpolate_nowhere (s : String) :
    interpolate u (K.fill u s).toJson "\x7b\x7b z \x7d\x7d".toList = [] := by
  have htokens : tokens "\x7b\x7b z \x7d\x7d".toList = [.inr ['z']] := by decide
  have hrepl : repl u (K.fill u s).toJson ['z'] = [] := by
    rfl
  rw [interpolate, htokens, List.flatMap_singleton, render, hrepl]

/-- **A text that stays as it is for every string has no hole**: with a longer string it would grow
as much as the string in its holes, with a template it would lose it. -/
theorem not_mem_of_fixed {t : List (Option Char)} (h : ∀ s, Bare s →
    resolveString u (K.fill u s).toJson (String.ofList (plug s t)) =
      .str (String.ofList (plug s t))) : none ∉ t := by
  intro hmem
  obtain ⟨cs, l, hlen, hplug⟩ := exists_segments t
  have hpos : 0 < l.length := hlen ▸ List.count_pos_iff.2 hmem
  obtain ⟨a, e, hcs⟩ := length_interpolate (u := u) K cs
  obtain ⟨a', e', hl⟩ := length_interpolate_segments (u := u) K l
  have hlength : ∀ mid : String, (probe mid).toList.length = mid.toList.length + 2 := by
    intro mid
    simp [probe]
  -- what the text's length says for the probe with `mid`
  have hprobe : ∀ mid : String, Bare (probe mid) →
      a + e * (mid.toList.length + 2) + (a' + e' * (mid.toList.length + 2)) + l.length *
        (interpolate u (K.fill u (probe mid)).toJson mid.toList).length =
          cs.length + l.flatten.length + l.length * mid.toList.length + (e + e') := by
    intro mid hmid
    have hhash : '#' ∈ (String.ofList (plug (probe mid) t)).toList := by
      obtain ⟨c, l, rfl⟩ := List.exists_cons_of_length_pos hpos
      rw [String.toList_ofList, hplug]
      simp [probe]
    have hfixed := h (probe mid) hmid
    rw [resolveString_of_mem u _ foreign_hash hhash, String.toList_ofList, Json.str.injEq,
      String.ofList_inj, hplug, interpolate_probes] at hfixed
    have hsum := congrArg List.length hfixed
    have hcs' := hcs (probe mid) hmid
    have hl' := hl (probe mid) hmid
    generalize (K.fill u (probe mid)).toJson = ctx at hsum hcs' hl' ⊢
    simp only [List.length_append, List.length_flatMap, List.length_cons, List.length_flatten,
      List.map_const', List.sum_map_add, List.sum_replicate_nat, Nat.mul_add, hlength]
      at hsum hcs' hl' ⊢
    omega
  -- a longer string shows that the rest has no hole, and the template that the text has none
  have hshort := hprobe "" (by decide)
  have hlong := hprobe "#" (by decide)
  have hlost := hprobe "\x7b\x7b z \x7d\x7d" (by decide)
  rw [interpolate_nowhere] at hlost
  change _ + l.length * 0 = _ + l.length * 0 + _ at hshort
  change _ + l.length * 1 = _ + l.length * 1 + _ at hlong
  change _ + l.length * 0 = _ + l.length * 7 + _ at hlost
  simp at hshort hlong hlost
  omega

mutual

/-- A value that stays as it is for every string has no hole. -/
theorem fill_eq_of_fixed : ∀ v : Holed,
    (∀ s, resolveTemplate u (K.fill u s).toJson (v.fill u s) = v.fill u s) →
      ∃ w, ∀ s, v.fill u s = w
  | .null, _ => ⟨.null, fun _ => rfl⟩
  | .bool b, _ => ⟨.bool b, fun _ => rfl⟩
  | .int n, _ => ⟨.int n, fun _ => rfl⟩
  | .float x, _ => ⟨.float x, fun _ => rfl⟩
  | .str l, h => by
    have hnone : none ∉ textPlaces u l := by
      refine not_mem_of_fixed (u := u) K fun s hs => ?_
      rw [← fillText_eq_plug (.inl hs)]
      exact h s
    obtain ⟨cs, segments, hlen, hplug⟩ := exists_segments (textPlaces u l)
    rw [List.count_eq_zero_of_not_mem hnone, List.length_eq_zero_iff] at hlen
    refine ⟨.str (String.ofList cs), fun s => ?_⟩
    rw [Holed.fill, fillText_eq_plug (.inr hnone), hplug, hlen, List.flatMap_nil, List.append_nil]
  | .list l, h => by
    obtain ⟨ws, hws⟩ := fillItems_eq_of_fixed l fun s => Json.list.inj (h s)
    exact ⟨.list ws, fun s => congrArg Json.list (hws s)⟩
  | .obj items, h => by
    obtain ⟨ws, hws⟩ := fillFields_eq_of_fixed items fun s => Json.obj.inj (h s)
    exact ⟨.obj ws, fun s => congrArg Json.obj (hws s)⟩

theorem fillItems_eq_of_fixed : ∀ l : List Holed,
    (∀ s, resolveItems u (K.fill u s).toJson (fillItems u s l) = fillItems u s l) →
      ∃ ws, ∀ s, fillItems u s l = ws
  | [], _ => ⟨[], fun _ => rfl⟩
  | v :: l, h => by
    obtain ⟨w, hw⟩ := fill_eq_of_fixed v fun s => (List.cons.inj (h s)).1
    obtain ⟨ws, hws⟩ := fillItems_eq_of_fixed l fun s => (List.cons.inj (h s)).2
    exact ⟨w :: ws, fun s => by rw [fillItems, hw, hws]⟩

theorem fillFields_eq_of_fixed : ∀ l : List (String × Holed),
    (∀ s, resolveFields u (K.fill u s).toJson (fillFields u s l) = fillFields u s l) →
      ∃ ws, ∀ s, fillFields u s l = ws
  | [], _ => ⟨[], fun _ => rfl⟩
  | p :: l, h => by
    obtain ⟨w, hw⟩ := fillField_eq_of_fixed p fun s => (List.cons.inj (h s)).1
    obtain ⟨ws, hws⟩ := fillFields_eq_of_fixed l fun s => (List.cons.inj (h s)).2
    exact ⟨w :: ws, fun s => by rw [fillFields, hw, hws]⟩

theorem fillField_eq_of_fixed : ∀ p : String × Holed,
    (∀ s, resolveField u (K.fill u s).toJson (fillField u s p) = fillField u s p) →
      ∃ w, ∀ s, fillField u s p = w
  | (k, v), h => by
    obtain ⟨w, hw⟩ := fill_eq_of_fixed v fun s => congrArg Prod.snd (h s)
    exact ⟨(k, w), fun s => by rw [fillField, hw]⟩

end

end Fixed

/-! ## What is resolved twice -/

section Twice

/-- What a dictionary reads after an assignment. -/
theorem lookup_assign (key key' : String) (v : Json) (items : List (String × Json)) :
    Json.lookup key' (Json.assign key v items) =
      if key = key' then some v else Json.lookup key' items := by
  unfold Json.assign Json.lookup
  rw [Context.find?_assign]
  split <;> rfl

/-- The loop of the transformation over the mapping. -/
def assignAll (resolve : Json → Json) (mapping output : List (String × Json)) :
    List (String × Json) :=
  mapping.foldl (fun output p => Json.assign p.1 (resolve p.2) output) output

/-- Behind the loop, the last value of a key is there. -/
theorem lookup_assignAll {resolve : Json → Json} {mapping : List (String × Json)} {key : String}
    {v : Json} (h : Json.lookup key mapping.reverse = some v) (output : List (String × Json)) :
    Json.lookup key (assignAll resolve mapping output) = some (resolve v) := by
  induction mapping using List.reverseRecOn with
  | nil => cases h
  | append_singleton mapping p ih =>
    rw [assignAll, List.foldl_append, List.foldl_cons, List.foldl_nil, lookup_assign]
    rw [List.reverse_append, List.reverse_singleton, List.singleton_append] at h
    unfold Json.lookup at h
    rw [List.find?_cons] at h
    by_cases hkey : p.1 = key
    · simp only [hkey, decide_true, Option.map_some, Option.some.injEq] at h
      rw [if_pos hkey, h]
    · simp only [hkey, decide_false] at h
      rw [if_neg hkey]
      exact ih h

theorem lookup_append {key : String} {l m : List (String × Json)} :
    Json.lookup key (l ++ m) = (Json.lookup key l).or (Json.lookup key m) := by
  unfold Json.lookup
  rw [List.find?_append]
  cases l.find? (·.1 = key) <;> rfl

/-- Two outputs that agree but for the keys that are still to be assigned. -/
def AgreeBut (mapping output output' : List (String × Json)) : Prop :=
  List.Forall₂ (fun p q => p.1 = q.1 ∧ (p.1 ∉ mapping.map (·.1) → p.2 = q.2)) output output'

theorem AgreeBut.refl (mapping output : List (String × Json)) : AgreeBut mapping output output :=
  List.forall₂_same.2 fun _ _ => ⟨rfl, fun _ => rfl⟩

/-- An assignment, where the values are the same unless the key is assigned again. -/
theorem AgreeBut.assign {mapping output output' : List (String × Json)} {p : String × Json}
    (h : AgreeBut (p :: mapping) output output') {v : Json}
    (hv : p.1 ∉ mapping.map (·.1) → v = p.2) :
    AgreeBut mapping (Json.assign p.1 v output) (Json.assign p.1 p.2 output') := by
  have hkeys : output.map (·.1) = output'.map (·.1) := by
    induction h with
    | nil => rfl
    | cons hpq _ ih => rw [List.map_cons, List.map_cons, hpq.1, ih]
  have hany : output.any (·.1 = p.1) = output'.any (·.1 = p.1) := by
    have hmap : ∀ l : List (String × Json), l.any (·.1 = p.1) = (l.map (·.1)).any (· = p.1) := by
      intro l
      rw [List.any_map]
      rfl
    rw [hmap, hmap, hkeys]
  unfold Json.assign
  rw [hany]
  split
  · refine List.forall₂_map_left_iff.2 (List.forall₂_map_right_iff.2 (h.imp fun q q' hq => ?_))
    by_cases hkey : q.1 = p.1
    · rw [if_pos hkey, if_pos (hq.1 ▸ hkey)]
      exact ⟨rfl, hv⟩
    · rw [if_neg hkey, if_neg (hq.1 ▸ hkey)]
      refine ⟨hq.1, fun hmem => hq.2 ?_⟩
      rw [List.map_cons, List.mem_cons]
      exact not_or.2 ⟨hkey, hmem⟩
  · next hnone =>
    have hfresh : ∀ q ∈ output, q.1 ≠ p.1 := by
      intro q hq hkey
      rw [← hany] at hnone
      exact hnone (List.any_eq_true.2 ⟨q, hq, by simpa using hkey⟩)
    refine List.rel_append ?_ (.cons ⟨rfl, hv⟩ .nil)
    refine ((List.forall₂_and_left _ _).2 ⟨hfresh, h⟩).imp ?_
    rintro q q' ⟨hkey, hsame, hvalue⟩
    refine ⟨hsame, fun hmem => hvalue ?_⟩
    rw [List.map_cons, List.mem_cons]
    exact not_or.2 ⟨hkey, hmem⟩

/-- The loop, where the last value of each key stays as it is. -/
theorem assignAll_congr {resolve : Json → Json} {mapping : List (String × Json)}
    (h : ∀ key v, Json.lookup key mapping.reverse = some v → resolve v = v)
    {output output' : List (String × Json)} (hout : AgreeBut mapping output output') :
    assignAll resolve mapping output = assignAll id mapping output' := by
  induction mapping generalizing output output' with
  | nil =>
    have heq : List.Forall₂ Eq output output' :=
      hout.imp fun p q hpq => Prod.ext hpq.1 (hpq.2 List.not_mem_nil)
    exact List.forall₂_eq_eq_eq ▸ heq
  | cons p mapping ih =>
    have hlast : ∀ key, Json.lookup key (p :: mapping).reverse =
        (Json.lookup key mapping.reverse).or (Json.lookup key [p]) := by
      intro key
      rw [List.reverse_cons, lookup_append]
    refine ih (fun key v hkey => h key v ?_) (hout.assign fun hmem => h p.1 p.2 ?_)
    · rw [hlast, hkey]
      rfl
    · have hnone : Json.lookup p.1 mapping.reverse = none := by
        unfold Json.lookup
        rw [Option.map_eq_none_iff, List.find?_eq_none]
        intro q hq hkey
        rw [List.mem_reverse] at hq
        exact hmem (List.mem_map.2 ⟨q, hq, by simpa using hkey⟩)
      rw [hlast, hnone]
      simp [Json.lookup]

/-- An output that stays the same through the loop had nothing to resolve. -/
theorem resolve_eq_of_assignAll {resolve : Json → Json} {mapping output : List (String × Json)}
    (h : assignAll resolve mapping output = assignAll id mapping output) {key : String} {v : Json}
    (hkey : Json.lookup key mapping.reverse = some v) : resolve v = v := by
  have hresolved := @lookup_assignAll resolve mapping key v hkey output
  rw [h, lookup_assignAll hkey output] at hresolved
  exact (Option.some.inj hresolved).symm

/-- A transformation resolves nothing exactly if what its mapping gives stays as it is. -/
theorem transform_eq_iff {resolve : Json → Json} {config : List (String × Json)} {input : Json} :
    transform resolve config input = transform id config input ↔ ∀ items, input = .obj items →
      ∀ mapping, Json.lookup "mapping" config = some (.obj mapping) →
        ∀ key v, Json.lookup key mapping.reverse = some v → resolve v = v := by
  constructor
  · rintro h items rfl mapping hmapping key v hkey
    rw [transform, transform, hmapping] at h
    exact resolve_eq_of_assignAll (Json.obj.inj (Except.ok.inj h)) hkey
  · intro h
    cases input with
    | obj items =>
      cases hmapping : Json.lookup "mapping" config with
      | none => rw [transform, transform, hmapping]
      | some v =>
        cases v with
        | obj mapping =>
          have hall := assignAll_congr (h items rfl mapping hmapping) (AgreeBut.refl mapping items)
          rw [transform, transform, hmapping]
          exact congrArg (Except.ok ∘ Json.obj) hall
        | _ => rw [transform, transform, hmapping]
    | _ => rfl

end Twice

/-! ## Nodes -/

/-- The loop over a mapping with holes. -/
def holedAssignAll (mapping output : List (String × Holed)) : List (String × Holed) :=
  mapping.foldl (fun output p => Holed.assign p.1 p.2 output) output

section Nodes

variable (u : Unicode)

theorem assignAll_fillFields (s : String) (mapping output : List (String × Holed)) :
    assignAll id (fillFields u s mapping) (fillFields u s output) =
      fillFields u s (holedAssignAll mapping output) := by
  induction mapping generalizing output with
  | nil => rfl
  | cons p mapping ih =>
    obtain ⟨key, v⟩ := p
    rw [holedAssignAll, List.foldl_cons, ← holedAssignAll, ← ih, ← assign_fillFields]
    rfl

/-- What passes on values: the output has holes where the configuration and the input have them,
and is the same besides. -/
def PassesOn (f : List (String × Json) → Json → Except PyError Json) : Prop :=
  ∀ (config : List (String × Holed)) (input : Holed), ∃ output : Except PyError Holed,
    ∀ s, f (fillFields u s config) (input.fill u s) = output.map (·.fill u s)

/-- A transformation that resolves nothing passes on values. -/
theorem passesOn_transform : PassesOn u (transform id) := by
  intro config input
  obtain ⟨items, rfl⟩ | hinput : (∃ items, input = .obj items) ∨
      ∀ s, transform id (fillFields u s config) (input.fill u s) =
        .error ⟨.typeError, "'" ++ typeName (input.fill u "") ++
          "' object cannot be copied into a dictionary"⟩ := by
    cases input with
    | obj items => exact .inl ⟨items, rfl⟩
    | _ => exact .inr fun _ => rfl
  · cases hmapping : Holed.lookup "mapping" config with
    | none =>
      refine ⟨.ok (.obj items), fun s => ?_⟩
      rw [Holed.fill, transform, lookup_fillFields, hmapping]
      rfl
    | some v =>
      have hlookup : ∀ s, Json.lookup "mapping" (fillFields u s config) = some (v.fill u s) :=
        fun s => by rw [lookup_fillFields, hmapping, Option.map_some]
      obtain ⟨mapping, rfl⟩ | hv : (∃ mapping, v = .obj mapping) ∨
          ∀ s, transform id (fillFields u s config) (.obj (fillFields u s items)) =
            .error ⟨.other, "'" ++ typeName (v.fill u "") ++
              "' object has no attribute 'items'"⟩ := by
        cases v with
        | obj mapping => exact .inl ⟨mapping, rfl⟩
        | _ =>
          refine .inr fun s => ?_
          rw [transform, hlookup]
          rfl
      · refine ⟨.ok (.obj (holedAssignAll mapping items)), fun s => ?_⟩
        rw [Holed.fill, transform, hlookup]
        exact congrArg (Except.ok ∘ Json.obj) (assignAll_fillFields u s mapping items)
      · exact ⟨.error _, hv⟩
  · exact ⟨.error _, hinput⟩

/-- **Data is never interpreted as a template**, for a node in a context with holes: whatever the
string in the holes is, the configuration holds it where the templates put it, the dispatch expands
nothing more, and the output holds it where the configuration and the input do. -/
structure InsertsVerbatim (h : Handlers) (node : WorkflowNode) (K : HoledContext) : Prop where
  config : ∃ config : List (String × Holed), ∀ s,
    resolveConfig u node (K.fill u s) = fillFields u s config
  once : ∀ s, h.output u node (K.fill u s) =
    h.dispatch id node (resolveConfig u node (K.fill u s)) (K.fill u s).input
  output : (∀ execute, h.connected node = some execute → PassesOn u execute) →
    PassesOn u (h.byType node) → ∃ output : Except PyError Holed, ∀ s,
      h.output u node (K.fill u s) = output.map (·.fill u s)

/-- The node is no transformation of a dictionary by a mapping, or the mapping gives values that
have no hole, and in which the context finds nothing to expand. -/
def LeavesOut (h : Handlers) (node : WorkflowNode) (K : HoledContext) : Prop :=
  h.connected node = none → lower node.type = "transform".toList →
    ∀ items, K.input = .obj items → ∀ mapping,
      Holed.lookup "mapping" (resolveHoledFields u K.toHoled node.config) = some (.obj mapping) →
        ∀ key v, Holed.lookup key mapping.reverse = some v → ∃ w, ∀ s,
          v.fill u s = w ∧ resolveTemplate u (K.fill u s).toJson w = w

variable {u}

/-- A mapping that leaves the string out is resolved once. -/
theorem LeavesOut.once {h : Handlers} {node : WorkflowNode} {K : HoledContext}
    (hout : LeavesOut u h node K) (s : String) : h.output u node (K.fill u s) =
      h.dispatch id node (resolveConfig u node (K.fill u s)) (K.fill u s).input := by
  rw [Handlers.output]
  cases hconnected : h.connected node with
  | some execute =>
    rw [Handlers.dispatch_connected hconnected, Handlers.dispatch_connected hconnected]
  | none =>
    by_cases htype : lower node.type = "transform".toList
    · rw [Handlers.dispatch_transform hconnected htype,
        Handlers.dispatch_transform hconnected htype, transform_eq_iff]
      intro items hitems mapping hmapping key v hkey
      obtain ⟨items, hinput, rfl⟩ := exists_of_fill_eq_obj hitems
      rw [resolveConfig_fill, lookup_fillFields, Option.map_eq_some_iff] at hmapping
      obtain ⟨v₀, hlookup, hv₀⟩ := hmapping
      obtain ⟨mapping, rfl, rfl⟩ := exists_of_fill_eq_obj hv₀
      rw [fillFields_reverse, lookup_fillFields, Option.map_eq_some_iff] at hkey
      obtain ⟨v₁, hkey, rfl⟩ := hkey
      obtain ⟨w, hw⟩ := hout hconnected htype items hinput mapping hlookup key v₁ hkey
      rw [(hw s).1, (hw s).2]
    · rw [Handlers.dispatch_byType hconnected htype, Handlers.dispatch_byType hconnected htype]

/-- **Data is never interpreted as a template** exactly if a transformation leaves the string out
of its mapping: what the mapping gives is resolved again. -/
theorem insertsVerbatim_iff (u : Unicode) (h : Handlers) (node : WorkflowNode) (K : HoledContext) :
    InsertsVerbatim u h node K ↔ LeavesOut u h node K := by
  constructor
  · intro hverbatim hconnected htype items hinput mapping hmapping key v hkey
    have hfixed : ∀ s, resolveTemplate u (K.fill u s).toJson (v.fill u s) = v.fill u s := by
      intro s
      have honce := hverbatim.once s
      rw [Handlers.output, Handlers.dispatch_transform hconnected htype,
        Handlers.dispatch_transform hconnected htype] at honce
      have hlookup : Json.lookup "mapping" (resolveConfig u node (K.fill u s)) =
          some (.obj (fillFields u s mapping)) := by
        rw [resolveConfig_fill, lookup_fillFields, hmapping]
        rfl
      refine transform_eq_iff.1 honce (fillFields u s items) ?_ _ hlookup key _ ?_
      · exact congrArg (·.fill u s) hinput
      · rw [fillFields_reverse, lookup_fillFields, hkey]
        rfl
    obtain ⟨w, hw⟩ := fill_eq_of_fixed K v hfixed
    refine ⟨w, fun s => ⟨hw s, ?_⟩⟩
    rw [← hw s, hfixed]
  · intro hout
    refine ⟨⟨_, fun s => resolveConfig_fill u s node K⟩, hout.once, fun hconnected hbyType => ?_⟩
    have hpass : PassesOn u (h.dispatch id node) := by
      cases hexecute : h.connected node with
      | some execute =>
        rw [Handlers.dispatch_connected hexecute]
        exact hconnected execute hexecute
      | none =>
        by_cases htransform : lower node.type = "transform".toList
        · rw [Handlers.dispatch_transform hexecute htransform]
          exact passesOn_transform u
        · rw [Handlers.dispatch_byType hexecute htransform]
          exact hbyType
    obtain ⟨output, houtput⟩ := hpass (resolveHoledFields u K.toHoled node.config) K.input
    refine ⟨output, fun s => ?_⟩
    rw [hout.once, resolveConfig_fill]
    exact houtput s

/-- A transformation that copies a string of the input. -/
def noteNode : WorkflowNode where
  id := "note"
  type := "transform"
  name := "Note"
  config := [("mapping", .obj [("note", .str "\x7b\x7b input.x \x7d\x7d")])]

/-- The string stands at `x`. -/
def noteContext : HoledContext where
  input := .obj [("x", .str [.hole])]
  steps := []
  tenantId := "acme"
  traceId := "trace"

/-- No agent and no connector executes a node. -/
def plainHandlers : Handlers := ⟨fun _ => none, fun _ config _ => .ok (.obj config)⟩

/-- Characters beyond ASCII are printed, and are no digits. -/
def printedUnicode : Unicode := ⟨fun _ => true, fun _ => none⟩

theorem output_note : plainHandlers.output printedUnicode noteNode
    (noteContext.fill printedUnicode "\x7b\x7b tenant_id \x7d\x7d") =
      .ok (.obj [("x", .str "\x7b\x7b tenant_id \x7d\x7d"), ("note", .str "acme")]) := rfl

/-- The string of the input is a template, and the note is the id of the tenant. -/
theorem not_insertsVerbatim_note :
    ¬ InsertsVerbatim printedUnicode plainHandlers noteNode noteContext := by
  intro h
  have honce := h.once "\x7b\x7b tenant_id \x7d\x7d"
  have hcopied : plainHandlers.dispatch id noteNode
      (resolveConfig printedUnicode noteNode
        (noteContext.fill printedUnicode "\x7b\x7b tenant_id \x7d\x7d"))
      (noteContext.fill printedUnicode "\x7b\x7b tenant_id \x7d\x7d").input =
        .ok (.obj [("x", .str "\x7b\x7b tenant_id \x7d\x7d"),
          ("note", .str "\x7b\x7b tenant_id \x7d\x7d")]) := rfl
  rw [output_note, hcopied] at honce
  simp at honce

end Nodes

end FlowMesh
