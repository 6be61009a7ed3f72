import Mathlib.Data.List.Sort
import FlowMesh.Library.LongestPath
import FlowMesh.Workflow.Schema

/-!
# Pre-flight validation

`WorkflowValidator` of `validation.py`: what it finds in a definition that the schema accepts, and
the statistics that it gives. The findings of a stage are kept as data (`ValidationError`,
`ValidationWarning`), `message` gives their texts. A stage that raises ends the validation: a delay
is compared with 0 whatever it is, and the longest path is looked up by node.

`mem_errors_findings` says which stage an error comes from.
-/

namespace FlowMesh

open Python

/-! ## Findings -/

/-- An error of the validator. -/
inductive ValidationError
  | schema (e : PyError)
  | duplicateNode (id : String)
  | missingSource (source : String)
  | missingTarget (target : String)
  | cycle (ids : List String)
  | noEntry
  | unreachable (id : String)
  | unauthorised (nodeId name connectionId : String)
  | unclosedTemplate (location text : String)
  | unmatchedClosing (location text : String)
  | negativeDelay (nodeId : String) (seconds : Json)

/-- `text[:50]`. -/
def excerpt (text : String) : String := String.ofList (text.toList.take 50)

/-- The text of an error. -/
def ValidationError.message (u : Unicode) : ValidationError → String
  | .schema e => "Schema validation failed: " ++ e.message
  | .duplicateNode id => "Duplicate node ID detected: '" ++ id ++ "'"
  | .missingSource source => "Edge source '" ++ source ++ "' references a non-existent node"
  | .missingTarget target => "Edge target '" ++ target ++ "' references a non-existent node"
  | .cycle ids => "Cyclic dependency detected involving nodes: " ++ ", ".intercalate ids ++
      ". FlowMesh workflows must be directed acyclic graphs (DAGs)."
  | .noEntry => "Workflow has no entry node (in-degree 0)."
  | .unreachable id =>
    "Unreachable node detected: '" ++ id ++ "' cannot be reached from any trigger node."
  | .unauthorised nodeId name connectionId =>
    "Node '" ++ nodeId ++ "' (" ++ name ++ ") references connection '" ++ connectionId ++
      "' which does not exist or is not authorized within the tenant scope."
  | .unclosedTemplate location text =>
    "Unclosed template expression '\x7b\x7b' in " ++ location ++ ": " ++ excerpt text
  | .unmatchedClosing location text =>
    "Unmatched template closing '\x7d\x7d' in " ++ location ++ ": " ++ excerpt text
  | .negativeDelay nodeId seconds =>
    "Delay node '" ++ nodeId ++ "' cannot have negative sleep duration: " ++
      String.ofList (str u seconds) ++ "s"

/-- A warning of the validator. -/
inductive ValidationWarning
  | startNodes (ids : List String)
  | terminalNodes (ids : List String)
  | emptyTemplate (location : String)
  | unexpectedRoot (expr location root : String)
  | parallelNode (id : String)
  | httpNode (id : String)

/-- `VALID_ROOT_PATHS`. -/
def validRootPaths : List String := ["input", "steps", "tenant_id", "trace_id", "workflow_id"]

/-- The text of a warning. -/
def ValidationWarning.message : ValidationWarning → String
  | .startNodes ids => "Workflow defines " ++ toString ids.length ++ " starting/trigger nodes (" ++
      ", ".intercalate ids ++ "). Ensure multiple ingress paths are intended."
  | .terminalNodes ids =>
    "Multiple terminal branch ends detected: " ++ ", ".intercalate ids ++ "."
  | .emptyTemplate location => "Empty template expression '\x7b\x7b\x7d\x7d' found in " ++ location
  | .unexpectedRoot expr location root =>
    "Template expression '\x7b\x7b " ++ expr ++ " \x7d\x7d' in " ++ location ++
      " uses unexpected root '" ++ root ++ "'. Expected one of: " ++
        ", ".intercalate validRootPaths ++ "."
  | .parallelNode id =>
    "Parallel node '" ++ id ++ "' has no outgoing edges and no branch definitions."
  | .httpNode id => "HTTP node '" ++ id ++ "' has no endpoint or path specified in config."

/-- What a stage appends to the errors and to the warnings. -/
structure Findings where
  errors : List ValidationError := []
  warnings : List ValidationWarning := []

/-- What stages append one after the other. -/
def Findings.concat (l : List Findings) : Findings :=
  ⟨l.flatMap (·.errors), l.flatMap (·.warnings)⟩

/-- `sorted(set(ids))`. -/
def sortedSet (ids : List String) : List String := ids.eraseDups.insertionSort (· ≤ ·)

/-! ## Templates -/

/-- A match of `TEMPLATE_REGEX` at the front: its group, stripped, and what follows. The group
runs up to the next brace, less the white space that the pattern takes before it. -/
def matchExpression : List Char → Option (List Char × List Char)
  | '\x7b' :: '\x7b' :: cs =>
    let body := cs.takeWhile fun c => c ≠ '\x7b' ∧ c ≠ '\x7d'
    match cs.dropWhile fun c => c ≠ '\x7b' ∧ c ≠ '\x7d' with
    | '\x7d' :: '\x7d' :: rest => if body = [] then none else some (strip body, rest)
    | _ => none
  | _ => none

/-- `TEMPLATE_REGEX.finditer`, scanning from the left; the fuel is the length of the text. -/
def findExpressions : ℕ → List Char → List (List Char)
  | 0, _ => []
  | _ + 1, [] => []
  | fuel + 1, c :: cs =>
    match matchExpression (c :: cs) with
    | some (expr, rest) => expr :: findExpressions fuel rest
    | none => findExpressions fuel cs

/-- `expr.split(".")[0].split("[")[0].strip()`. -/
def rootOf (expr : List Char) : List Char :=
  strip ((expr.takeWhile (· ≠ '.')).takeWhile (· ≠ '['))

/-- What is said of one expression. -/
def checkRoot (location : String) (expr : List Char) : List ValidationWarning :=
  let root := rootOf expr
  if expr = [] then [.emptyTemplate location]
  else if String.ofList root ∉ validRootPaths ∧ root.head? ≠ some '$' then
    [.unexpectedRoot (String.ofList expr) location (String.ofList root)]
  else []

/-- `_check_template_expr`. -/
def checkTemplateExpr (text location : String) : Findings :=
  let cs := text.toList
  let opens := contains cs "\x7b\x7b"
  let closes := contains cs "\x7d\x7d"
  if opens && !closes then { errors := [.unclosedTemplate location text] }
  else if closes && !opens then { errors := [.unmatchedClosing location text] }
  else { warnings := (findExpressions cs.length cs).flatMap (checkRoot location) }

mutual

/-- `_check_templates_in_dict`. -/
def checkTemplates (location : String) : Json → Findings
  | .str s => checkTemplateExpr s location
  | .obj items => checkTemplateFields location items
  | .list l => checkTemplateItems location l
  | _ => ⟨[], []⟩
termination_by structural v => v

/-- The items of a list. -/
def checkTemplateItems (location : String) : List Json → Findings
  | [] => ⟨[], []⟩
  | v :: l => .concat [checkTemplates location v, checkTemplateItems location l]
termination_by structural l => l

/-- The values of a dictionary. -/
def checkTemplateFields (location : String) : List (String × Json) → Findings
  | [] => ⟨[], []⟩
  | p :: l => .concat [checkTemplateField location p, checkTemplateFields location l]
termination_by structural l => l

/-- One value of a dictionary. -/
def checkTemplateField (location : String) : String × Json → Findings
  | (_, v) => checkTemplates location v
termination_by structural p => p

end

/-! ## The stages -/

namespace WorkflowValidator

variable (s : WorkflowSpec)

/-- The node ids, each once. -/
def nodeSet : List String := s.nodeIds.eraseDups

/-- The loop over the nodes that collects their ids. -/
def checkIds : List String → List String → List ValidationError
  | [], _ => []
  | id :: ids, seen => (if id ∈ seen then [.duplicateNode id] else []) ++ checkIds ids (id :: seen)

/-- The loop over the edges that checks their end points. -/
def checkEndpoints : List ValidationError :=
  s.edges.flatMap fun e => (if e.source ∉ s.nodeIds then [.missingSource e.source] else []) ++
    (if e.target ∉ s.nodeIds then [.missingTarget e.target] else [])

/-- The edges between nodes. -/
def joined : List WorkflowEdge :=
  s.edges.filter fun e => e.source ∈ s.nodeIds && e.target ∈ s.nodeIds

/-- `adjacency[id]`. -/
def adjacency (id : String) : List String := ((joined s).filter (·.source = id)).map (·.target)

/-- `in_degree[id]`. -/
def inDegree (id : String) : ℤ := ((joined s).filter (·.target = id)).length

/-- Kahn's algorithm, with the nodes in the order of their visits; every node is queued at most
once, and the fuel is their number. -/
def visit (adjacency : String → List String) : ℕ → List String → (String → ℤ) → List String
  | 0, _, _ => []
  | _ + 1, [], _ => []
  | fuel + 1, curr :: queue, deg =>
    let (queue, deg) := WorkflowSpec.release (adjacency curr) queue deg
    curr :: visit adjacency fuel queue deg

/-- `visited_order`. -/
def visitedOrder : List String :=
  visit (adjacency s) (nodeSet s).length ((nodeSet s).filter fun id => inDegree s id = 0)
    (inDegree s)

/-- The check for cycles. -/
def checkCycles : List ValidationError :=
  if (visitedOrder s).length < s.nodes.length then
    [.cycle (sortedSet ((nodeSet s).filter (· ∉ visitedOrder s)))]
  else []

/-- The nodes of a trigger type. -/
def triggerNodes : List String :=
  ((s.nodes.filter fun n => "trigger.".toList.isPrefixOf n.type.toList).map (·.id)).eraseDups

/-- The nodes that no edge leads to. -/
def startCandidates : List String :=
  (s.nodes.filter fun n => s.edges.all fun e => e.target ≠ n.id).map (·.id)

/-- `trigger_node_ids`: the trigger nodes, or else the first node that no edge leads to. -/
def entryNodes : List String :=
  if triggerNodes s = [] then (startCandidates s).take 1 else triggerNodes s

/-- The check for an entry. -/
def checkEntry : List ValidationError :=
  if triggerNodes s = [] ∧ startCandidates s = [] then [.noEntry] else []

/-- The breadth-first search; the queue takes the entries and, once for each node, the ends of its
edges, and the fuel is the number of nodes and edges. -/
def reach (adjacency : String → List String) : ℕ → List String → List String → List String
  | 0, _, reachable => reachable
  | _ + 1, [], reachable => reachable
  | fuel + 1, curr :: queue, reachable =>
    if curr ∈ reachable then reach adjacency fuel queue reachable
    else reach adjacency fuel (queue ++ adjacency curr) (reachable ++ [curr])

/-- `reachable`. -/
def reachable : List String :=
  reach (adjacency s) (s.nodes.length + s.edges.length) (entryNodes s) []

/-- The check for unreachable nodes. -/
def checkReachable : List ValidationError :=
  (sortedSet ((nodeSet s).filter (· ∉ reachable s))).map .unreachable

/-- The warning about several entries. -/
def checkEntries : List ValidationWarning :=
  if 1 < (entryNodes s).length then [.startNodes (sortedSet (entryNodes s))] else []

/-- The warning about several ends. -/
def checkDeadEnds : List ValidationWarning :=
  let deadEnds := (s.nodes.filter fun n => adjacency s n.id = [] ∧ n.id ∈ reachable s).map (·.id)
  if 1 < deadEnds.length then [.terminalNodes (deadEnds.insertionSort (· ≤ ·))] else []

/-- The check that the connection of a node is available. -/
def checkConnection (available : List String) (n : WorkflowNode) : List ValidationError :=
  match n.connectionId with
  | some c => if c ≠ "" ∧ c ∉ available then [.unauthorised n.id n.name c] else []
  | none => []

/-- The check of the connections. -/
def checkConnections : Option (List String) → List ValidationError
  | none => []
  | some available => s.nodes.flatMap (checkConnection available)

/-- The check of the templates of the nodes and the conditions of the edges. -/
def checkAllTemplates : Findings :=
  .concat (s.nodes.map (fun n => checkTemplates ("node '" ++ n.id ++ "'") (.obj n.config)) ++
    s.edges.map fun e => match e.condition with
      | some condition =>
        if condition = "" then ⟨[], []⟩
        else checkTemplateExpr condition ("edge " ++ e.source ++ "->" ++ e.target)
      | none => ⟨[], []⟩)

/-- `node.config.get("seconds", 0)`. -/
def delayOf (n : WorkflowNode) : Json := (Json.lookup "seconds" n.config).getD (.int 0)

/-- The name of the type of a value. -/
def typeName : Json → String
  | .null => "NoneType"
  | .bool _ => "bool"
  | .int _ => "int"
  | .float _ => "float"
  | .str _ => "str"
  | .list _ => "list"
  | .obj _ => "dict"

/-- `x < 0` on floats. -/
def isNegative : FloatVal → Bool
  | .finite q => q < 0
  | .negInf => true
  | _ => false

/-- The check of a node by its type. -/
def checkNode (n : WorkflowNode) : Except PyError Findings :=
  if n.type = "control.parallel" then
    .ok { warnings := if adjacency s n.id = [] ∧ Json.lookup "branches" n.config = none then
      [.parallelNode n.id] else [] }
  else if n.type = "control.delay" then
    match (delayOf n).number? with
    | some seconds =>
      .ok { errors := if isNegative seconds then [.negativeDelay n.id (delayOf n)] else [] }
    | none => .error ⟨.typeError,
        "'<' not supported between instances of '" ++ typeName (delayOf n) ++ "' and 'int'"⟩
  else if n.type = "action.http" then
    .ok { warnings :=
      if !((Json.lookup "path" n.config).getD .null).truthy ∧
          !((Json.lookup "endpoint" n.config).getD .null).truthy then [.httpNode n.id] else [] }
  else .ok ⟨[], []⟩

/-- The loop over the nodes that checks them by their types. -/
def checkNodes : List WorkflowNode → Except PyError Findings
  | [] => .ok ⟨[], []⟩
  | n :: ns => do
    let found ← checkNode s n
    let rest ← checkNodes ns
    return .concat [found, rest]

/-! ## The longest path -/

/-- The inner loop of `_compute_max_depth`: a neighbour that is no node has no distance. -/
def relax (curr : String) : List String → List String → (String → ℤ) → (String → ℕ) →
    Except PyError (List String × (String → ℤ) × (String → ℕ))
  | [], queue, deg, dist => .ok (queue, deg, dist)
  | n :: ns, queue, deg, dist =>
    if n ∉ s.nodeIds then .error ⟨.other, "'" ++ n ++ "'"⟩
    else
      let dist := if dist n < dist curr + 1 then Function.update dist n (dist curr + 1) else dist
      let deg := Function.update deg n (deg n - 1)
      relax curr ns (if deg n = 0 then queue ++ [n] else queue) deg dist

/-- The outer loop; every node is queued at most once, and the fuel is their number. -/
def relaxAll (adjacency : String → List String) : ℕ → List String → (String → ℤ) →
    (String → ℕ) → Except PyError (String → ℕ)
  | 0, _, _, dist => .ok dist
  | _ + 1, [], _, dist => .ok dist
  | fuel + 1, curr :: queue, deg, dist => do
    let (queue, deg, dist) ← relax s curr (adjacency curr) queue deg dist
    relaxAll adjacency fuel queue deg dist

/-- The edges that leave a node. -/
def leaving : List WorkflowEdge := s.edges.filter fun e => e.source ∈ s.nodeIds

/-- `_compute_max_depth`. -/
def maxDepth : Except PyError ℕ := do
  let deg : String → ℤ := fun id => ((leaving s).filter (·.target = id)).length
  let dist ← relaxAll s (fun id => ((leaving s).filter (·.source = id)).map (·.target))
    (nodeSet s).length ((nodeSet s).filter fun id => deg id = 0) deg fun _ => 1
  return ((nodeSet s).map dist).foldl max 0

end WorkflowValidator

/-! ## `validate` -/

/-- `ValidationResult`. -/
structure ValidationResult where
  isValid : Bool
  errors : List ValidationError
  warnings : List ValidationWarning
  stats : List (String × Json)

/-- What pydantic makes of dictionaries: the fields that it reads from one, and `model_dump`. -/
structure Pydantic where
  read : Json → Except PyError WorkflowSpec
  dump : WorkflowSpec → Json

/-- `WorkflowDefinition(**definition)`. -/
def Pydantic.load (py : Pydantic) (definition : Json) : Except PyError WorkflowDefinition := do
  WorkflowDefinition.parse (← py.read definition)

namespace WorkflowValidator

/-- All that is found in a definition, besides what the types of its nodes give. -/
def findings (s : WorkflowSpec) (available : Option (List String)) (types : Findings) : Findings :=
  .concat [{ errors := checkIds s.nodeIds [] ++ checkEndpoints s ++ checkCycles s ++ checkEntry s ++
      checkReachable s, warnings := checkEntries s ++ checkDeadEnds s },
    { errors := checkConnections s available }, checkAllTemplates s, types]

/-- `stats`. -/
def statistics (s : WorkflowSpec) (depth : ℕ) : List (String × Json) :=
  [("node_count", .int s.nodes.length), ("edge_count", .int s.edges.length),
    ("trigger_type", .str s.trigger.type),
    ("node_types", .list ((sortedSet (s.nodes.map (·.type))).map .str)),
    ("has_approval_gate", .bool (s.nodes.any (·.type = "action.approval"))),
    ("estimated_depth", .int depth), ("reachable_node_count", .int (reachable s).length)]

/-- `validate` of a definition that the schema accepted. -/
def validateDefinition (d : WorkflowDefinition) (available : Option (List String)) :
    Except PyError ValidationResult := do
  let types ← checkNodes d.toWorkflowSpec d.nodes
  let depth ← maxDepth d.toWorkflowSpec
  let found := findings d.toWorkflowSpec available types
  return ⟨found.errors.isEmpty, found.errors, found.warnings, statistics d.toWorkflowSpec depth⟩

/-- `validate` of a dictionary. -/
def validate (py : Pydantic) (definition : Json) (available : Option (List String)) :
    Except PyError ValidationResult :=
  match py.load definition with
  | .ok d => validateDefinition d available
  | .error e => .ok ⟨false, [.schema e], [], [("node_count", .int 0), ("edge_count", .int 0)]⟩

/-! ## The longest path -/

section Depth

variable {s : WorkflowSpec}

/-- The inner loop counts down as Kahn's algorithm does, and raises the distances. -/
theorem relax_eq {curr : String} {ns : List String} (h : ∀ n ∈ ns, n ∈ s.nodeIds)
    (queue : List String) (deg : String → ℤ) (dist : String → ℕ) :
    relax s curr ns queue deg dist = .ok ((Kahn.release ns queue deg).1,
      (Kahn.release ns queue deg).2, ns.foldl (Kahn.lift curr) dist) := by
  induction ns generalizing queue deg dist with
  | nil => rfl
  | cons n ns ih =>
    rw [List.forall_mem_cons] at h
    unfold relax
    rw [if_neg (not_not.2 h.1)]
    exact ih h.2 _ _ _

/-- The loop is one pass over the edges in the order of the visits. -/
theorem relaxAll_eq {adjacency : String → List String}
    (h : ∀ id, ∀ n ∈ adjacency id, n ∈ s.nodeIds) (fuel : ℕ) (queue : List String)
    (deg : String → ℤ) (dist : String → ℕ) :
    relaxAll s adjacency fuel queue deg dist =
      .ok (Kahn.liftAll adjacency (Kahn.visit adjacency fuel queue deg) dist) := by
  induction fuel generalizing queue deg dist with
  | zero => rfl
  | succ fuel ih =>
    cases queue with
    | nil => rfl
    | cons curr queue =>
      unfold relaxAll
      rw [relax_eq (h curr)]
      exact ih _ _ _

end Depth

/-- A definition that the schema accepts has a longest path. -/
theorem maxDepth_ok (d : WorkflowDefinition) : ∃ n, maxDepth d.toWorkflowSpec = .ok n := by
  have htargets : ∀ id, ∀ n ∈ ((leaving d.toWorkflowSpec).filter (·.source = id)).map (·.target),
      n ∈ d.nodeIds := by
    intro id n hn
    obtain ⟨e, he, rfl⟩ := List.mem_map.1 hn
    exact d.target_mem (List.mem_of_mem_filter (List.mem_of_mem_filter he))
  unfold maxDepth
  simp only [relaxAll_eq htargets]
  exact ⟨_, rfl⟩

/-! ## Which stage an error comes from -/

/-- What an error is about. -/
inductive ErrorKind
  | schema
  | graph
  | reachability
  | scope
  | template
  | delay

/-- The kind of an error. -/
def kind : ValidationError → ErrorKind
  | .schema _ => .schema
  | .duplicateNode _ => .graph
  | .missingSource _ => .graph
  | .missingTarget _ => .graph
  | .cycle _ => .graph
  | .noEntry => .graph
  | .unreachable _ => .reachability
  | .unauthorised .. => .scope
  | .unclosedTemplate .. => .template
  | .unmatchedClosing .. => .template
  | .negativeDelay .. => .delay

/-- All the errors are of one kind. -/
def Only (k : ErrorKind) (errors : List ValidationError) : Prop := ∀ e ∈ errors, kind e = k

namespace Only

variable {k : ErrorKind} {l m : List ValidationError}

theorem nil : Only k [] := fun _ he => absurd he List.not_mem_nil

theorem singleton {e : ValidationError} (h : kind e = k) : Only k [e] := by
  intro e' he'
  rwa [List.mem_singleton.1 he']

theorem ite {p : Prop} [Decidable p] (hl : Only k l) (hm : Only k m) :
    Only k (if p then l else m) := by
  split
  · exact hl
  · exact hm

theorem append (hl : Only k l) (hm : Only k m) : Only k (l ++ m) := by
  intro e he
  exact (List.mem_append.1 he).elim (hl e) (hm e)

theorem flatMap {α : Type} {l : List α} {f : α → List ValidationError}
    (h : ∀ a ∈ l, Only k (f a)) : Only k (l.flatMap f) := by
  intro e he
  obtain ⟨a, ha, he⟩ := List.mem_flatMap.1 he
  exact h a ha e he

theorem concat {l : List Findings} (h : ∀ f ∈ l, Only k f.errors) :
    Only k (Findings.concat l).errors := flatMap h

/-- Errors of one kind have none of another. -/
theorem not_mem (h : Only k l) {e : ValidationError} (he : kind e ≠ k) : e ∉ l :=
  fun hmem => he (h e hmem)

end Only

theorem only_templateExpr (text location : String) :
    Only .template (checkTemplateExpr text location).errors := by
  unfold checkTemplateExpr
  dsimp only
  split
  · exact .singleton rfl
  · split
    · exact .singleton rfl
    · exact .nil

mutual

theorem only_templates (location : String) :
    ∀ v : Json, Only .template (checkTemplates location v).errors
  | .str s => only_templateExpr s location
  | .obj items => only_templateFields location items
  | .list l => only_templateItems location l
  | .null => .nil
  | .bool _ => .nil
  | .int _ => .nil
  | .float _ => .nil

theorem only_templateItems (location : String) :
    ∀ l : List Json, Only .template (checkTemplateItems location l).errors
  | [] => .nil
  | v :: l => by
    refine .concat fun f hf => ?_
    rcases List.mem_cons.1 hf with rfl | hf
    · exact only_templates location v
    · rw [List.mem_singleton.1 hf]
      exact only_templateItems location l

theorem only_templateFields (location : String) :
    ∀ l : List (String × Json), Only .template (checkTemplateFields location l).errors
  | [] => .nil
  | p :: l => by
    refine .concat fun f hf => ?_
    rcases List.mem_cons.1 hf with rfl | hf
    · exact only_templateField location p
    · rw [List.mem_singleton.1 hf]
      exact only_templateFields location l

theorem only_templateField (location : String) :
    ∀ p : String × Json, Only .template (checkTemplateField location p).errors
  | (_, v) => only_templates location v

end

section Stages

variable {s : WorkflowSpec}

theorem only_checkIds (ids seen : List String) : Only .graph (checkIds ids seen) := by
  induction ids generalizing seen with
  | nil => exact .nil
  | cons id ids ih => exact .append (.ite (.singleton rfl) .nil) (ih _)

variable (s) in
theorem only_graph :
    Only .graph (checkIds s.nodeIds [] ++ checkEndpoints s ++ checkCycles s ++ checkEntry s) := by
  have hendpoints : Only .graph (checkEndpoints s) := .flatMap fun e _ =>
    .append (.ite (.singleton rfl) .nil) (.ite (.singleton rfl) .nil)
  exact .append (.append (.append (only_checkIds _ _) hendpoints) (.ite (.singleton rfl) .nil))
    (.ite (.singleton rfl) .nil)

variable (s) in
theorem only_checkReachable : Only .reachability (checkReachable s) := by
  intro e he
  obtain ⟨id, -, rfl⟩ := List.mem_map.1 he
  rfl

variable (s) in
theorem only_checkConnections (available : Option (List String)) :
    Only .scope (checkConnections s available) := by
  cases available with
  | none => exact .nil
  | some available =>
    refine .flatMap fun n _ => ?_
    unfold checkConnection
    split
    · exact .ite (.singleton rfl) .nil
    · exact .nil

variable (s) in
theorem only_checkAllTemplates : Only .template (checkAllTemplates s).errors := by
  refine .concat fun f hf => ?_
  rcases List.mem_append.1 hf with hf | hf
  · obtain ⟨n, -, rfl⟩ := List.mem_map.1 hf
    exact only_templates _ _
  · obtain ⟨e, -, rfl⟩ := List.mem_map.1 hf
    split
    · split
      · exact .nil
      · exact only_templateExpr _ _
    · exact .nil

/-- The errors of a kind are those of its stage. -/
theorem mem_errors_findings {available : Option (List String)} {types : Findings}
    (htypes : Only .delay types.errors) {e : ValidationError} :
    e ∈ (findings s available types).errors ↔ match kind e with
      | .schema => False
      | .graph => e ∈ checkIds s.nodeIds [] ++ checkEndpoints s ++ checkCycles s ++ checkEntry s
      | .reachability => e ∈ checkReachable s
      | .scope => e ∈ checkConnections s available
      | .template => e ∈ (checkAllTemplates s).errors
      | .delay => e ∈ types.errors := by
  have hsplit : e ∈ (findings s available types).errors ↔
      (e ∈ checkIds s.nodeIds [] ++ checkEndpoints s ++ checkCycles s ++ checkEntry s ∨
        e ∈ checkReachable s) ∨ e ∈ checkConnections s available ∨
        e ∈ (checkAllTemplates s).errors ∨ e ∈ types.errors := by
    change e ∈ List.flatMap _ _ ↔ _
    simp only [List.flatMap_cons, List.flatMap_nil, List.append_nil, List.mem_append]
  have hgraph := @Only.not_mem _ _ (only_graph s) e
  have hreach := @Only.not_mem _ _ (only_checkReachable s) e
  have hscope := @Only.not_mem _ _ (only_checkConnections s available) e
  have htemplate := @Only.not_mem _ _ (only_checkAllTemplates s) e
  have hdelay := @Only.not_mem _ _ htypes e
  rw [hsplit]
  cases hk : kind e <;> simp_all

end Stages

/-! ## Errors about connections -/

section Stages

variable {s : WorkflowSpec}

/-- The validator cannot compare the delay of the node with 0. -/
def Incomparable (n : WorkflowNode) : Prop :=
  n.type = "control.delay" ∧ (delayOf n).number? = none

theorem checkNode_cases (n : WorkflowNode) :
    (¬ Incomparable n ∧ ∃ f, checkNode s n = .ok f ∧ Only .delay f.errors) ∨
      Incomparable n ∧ ∃ e, checkNode s n = .error e := by
  unfold checkNode
  split
  next h => exact Or.inl ⟨fun hn => absurd (h.symm.trans hn.1) (by decide), _, rfl, .nil⟩
  next =>
    split
    next hdelay =>
      cases hseconds : (delayOf n).number? with
      | some seconds =>
        have hcomparable : ¬ Incomparable n := fun hn => nomatch hseconds.symm.trans hn.2
        exact Or.inl ⟨hcomparable, _, rfl, .ite (.singleton rfl) .nil⟩
      | none => exact Or.inr ⟨⟨hdelay, hseconds⟩, _, rfl⟩
    next hdelay =>
      left
      refine ⟨fun hn => hdelay hn.1, ?_⟩
      split
      · exact ⟨_, rfl, .nil⟩
      · exact ⟨_, rfl, .nil⟩

theorem checkNodes_cases (ns : List WorkflowNode) :
    ((∀ n ∈ ns, ¬ Incomparable n) ∧ ∃ f, checkNodes s ns = .ok f ∧ Only .delay f.errors) ∨
      (∃ n ∈ ns, Incomparable n) ∧ ∃ e, checkNodes s ns = .error e := by
  induction ns with
  | nil => exact Or.inl ⟨fun _ hn => absurd hn List.not_mem_nil, _, rfl, .nil⟩
  | cons n ns ih =>
    unfold checkNodes
    rcases checkNode_cases (s := s) n with ⟨hn, f, hf, hoff⟩ | ⟨hn, e, he⟩
    · rcases ih with ⟨hns, g, hg, hgoff⟩ | ⟨⟨m, hm, hbad⟩, e, he⟩
      · left
        refine ⟨List.forall_mem_cons.2 ⟨hn, hns⟩, .concat [f, g], by rw [hf, hg]; rfl, ?_⟩
        refine .concat fun h hh => ?_
        rcases List.mem_cons.1 hh with rfl | hh
        · exact hoff
        · rwa [List.mem_singleton.1 hh]
      · right
        exact ⟨⟨m, List.mem_cons_of_mem n hm, hbad⟩, e, by rw [hf, he]; rfl⟩
    · right
      exact ⟨⟨n, List.mem_cons_self, hn⟩, e, by rw [he]; rfl⟩

end Stages

/-- The node uses a connection that is not available. -/
def Unavailable (available : List String) (n : WorkflowNode) (c : String) : Prop :=
  n.connectionId = some c ∧ c ≠ "" ∧ c ∉ available

theorem mem_checkConnections {s : WorkflowSpec} {available : List String} {e : ValidationError} :
    e ∈ checkConnections s (some available) ↔
      ∃ n ∈ s.nodes, ∃ c, Unavailable available n c ∧ e = .unauthorised n.id n.name c := by
  unfold checkConnections
  rw [List.mem_flatMap]
  refine exists_congr fun n => and_congr_right fun _ => ?_
  unfold checkConnection Unavailable
  cases n.connectionId with
  | none => simp
  | some c =>
    by_cases hc : c ≠ "" ∧ c ∉ available
    · simp [hc]
    · dsimp only
      rw [if_neg hc]
      simp only [List.not_mem_nil, Option.some.injEq, false_iff, not_exists]
      rintro c' ⟨⟨rfl, hc'⟩, -⟩
      exact hc hc'

/-- **What a validation says of the connections**: it reports the nodes whose connection is not
available, unless it cannot compare a delay. -/
theorem validateDefinition_cases (d : WorkflowDefinition) (available : List String) :
    ((∀ n ∈ d.nodes, ¬ Incomparable n) ∧
      ∃ r, validateDefinition d (some available) = .ok r ∧ r.isValid = r.errors.isEmpty ∧
        ∀ i m c, .unauthorised i m c ∈ r.errors ↔
          ∃ n ∈ d.nodes, Unavailable available n c ∧ n.id = i ∧ n.name = m) ∨
      (∃ n ∈ d.nodes, Incomparable n) ∧
        ∃ e, validateDefinition d (some available) = .error e := by
  obtain ⟨depth, hdepth⟩ := maxDepth_ok d
  unfold validateDefinition
  rcases checkNodes_cases (s := d.toWorkflowSpec) d.nodes with ⟨hns, f, hf, hoff⟩ | ⟨hbad, e, he⟩
  · left
    rw [hf, hdepth]
    refine ⟨hns, _, rfl, rfl, fun i m c => ?_⟩
    refine (mem_errors_findings hoff).trans (mem_checkConnections.trans ?_)
    refine exists_congr fun n => and_congr_right fun _ => ?_
    constructor
    · rintro ⟨c', hc', heq⟩
      cases heq
      exact ⟨hc', rfl, rfl⟩
    · rintro ⟨hc, rfl, rfl⟩
      exact ⟨c, hc, rfl⟩
  · right
    rw [he]
    exact ⟨hbad, e, rfl⟩

/-! ## Validations that raise -/

/-- `validate` of a dictionary or of a definition. -/
def validateInput (py : Pydantic) (input : Json ⊕ WorkflowDefinition)
    (available : Option (List String)) : Except PyError ValidationResult :=
  match input with
  | .inl definition => validate py definition available
  | .inr d => validateDefinition d available

/-- The definition that is looked into: the schema may refuse a dictionary. -/
def subject (py : Pydantic) : Json ⊕ WorkflowDefinition → Option WorkflowDefinition
  | .inl definition => (py.load definition).toOption
  | .inr d => some d

theorem validateDefinition_isOk (d : WorkflowDefinition) (available : Option (List String)) :
    (validateDefinition d available).isOk = true ↔ ∀ n ∈ d.nodes, ¬ Incomparable n := by
  obtain ⟨depth, hdepth⟩ := maxDepth_ok d
  unfold validateDefinition
  rcases checkNodes_cases (s := d.toWorkflowSpec) d.nodes with ⟨hns, f, hf, -⟩ | ⟨hbad, e, he⟩
  · rw [hf, hdepth]
    exact ⟨fun _ => hns, fun _ => rfl⟩
  · rw [he]
    obtain ⟨n, hn, hn'⟩ := hbad
    refine ⟨fun hok => ?_, fun hall => absurd hn' (hall n hn)⟩
    cases hok

/-- **When the validation returns**: exactly if the delays of the definition that is looked into
are numbers. -/
theorem validateInput_isOk_iff (py : Pydantic) (input : Json ⊕ WorkflowDefinition)
    (available : Option (List String)) :
    (validateInput py input available).isOk = true ↔
      ∀ d, subject py input = some d → ∀ n ∈ d.nodes, n.type = "control.delay" →
        (delayOf n).number? ≠ none := by
  have hcomparable : ∀ d : WorkflowDefinition, (∀ n ∈ d.nodes, ¬ Incomparable n) ↔
      ∀ n ∈ d.nodes, n.type = "control.delay" → (delayOf n).number? ≠ none :=
    fun d => forall₂_congr fun n _ => not_and
  cases input with
  | inr d =>
    refine (validateDefinition_isOk d available).trans ((hcomparable d).trans ?_)
    simp [subject]
  | inl definition =>
    simp only [validateInput, validate, subject]
    cases py.load definition with
    | error e =>
      refine ⟨fun _ d hd => ?_, fun _ => rfl⟩
      cases hd
    | ok d =>
      refine (validateDefinition_isOk d available).trans ((hcomparable d).trans ?_)
      simp [Except.toOption]

/-- A delay that is to be taken from the input. -/
def delayWorkflow : WorkflowDefinition where
  id := some "wf_delay"
  name := "delay"
  trigger := { type := "webhook" }
  nodes := [
    { id := "wait", type := "control.delay", name := "Wait",
      config := [("seconds", .str "\x7b\x7b input.seconds \x7d\x7d")] }]
  edges := []
  accepted := by decide

theorem not_isOk_validate_delay :
    ¬ ∀ py input available, (validateInput py input available).isOk = true := by
  intro h
  have hdelay := h ⟨fun _ => .error ⟨.other, ""⟩, fun _ => .null⟩ (.inr delayWorkflow) none
  have hraise : validateDefinition delayWorkflow none =
      .error ⟨.typeError, "'<' not supported between instances of 'str' and 'int'"⟩ := rfl
  rw [validateInput, hraise] at hdelay
  cases hdelay

end WorkflowValidator

end FlowMesh
