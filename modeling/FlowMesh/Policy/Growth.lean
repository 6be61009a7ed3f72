import FlowMesh.Policy.Secrets

/-!
# Policies on a growing definition

A rule that raises counts as one without violations, so a node that makes a rule raise hides what
the rule has found in the other nodes. Of the rules of the default engine, on the nodes of the
schema, this is `allowed_connector_types` alone: it lowers the connector type of a node without
asking whether it is a text. `grows_iff` says when a further node hides nothing.
-/

namespace FlowMesh.PolicyEngine

open Python

/-! ## One node more -/

/-- An item of a definition, with a node more in the list of the nodes. -/
def appendTo (node : Json) (p : String × Json) : String × Json :=
  (p.1, match p.2 with
    | .list nodes => if p.1 = "nodes" then .list (nodes ++ [node]) else .list nodes
    | v => v)

/-- A definition with a node more. -/
def withNode (node : Json) : Json → Json
  | .obj items => .obj (items.map (appendTo node))
  | v => v

theorem lookup_appendTo (node : Json) (key : String) (items : List (String × Json)) :
    Json.lookup key (items.map (appendTo node)) =
      (Json.lookup key items).map fun v => (appendTo node (key, v)).2 := by
  induction items with
  | nil => rfl
  | cons p items ih =>
    unfold Json.lookup at ih ⊢
    rw [List.map_cons, List.find?_cons, List.find?_cons]
    by_cases hkey : p.1 = key
    · subst hkey
      simp [appendTo]
    · simpa [appendTo, hkey] using ih

section Growth

variable {workflowDef node : Json}

theorem isObj_withNode : (withNode node workflowDef).isObj = workflowDef.isObj := by
  cases workflowDef <;> rfl

/-- The other fields stay as they are. -/
theorem field_withNode {key : String} (hkey : key ≠ "nodes") (default : Json) :
    field (withNode node workflowDef) key default = field workflowDef key default := by
  cases workflowDef with
  | obj items =>
    show (Json.lookup key (items.map (appendTo node))).getD default = (Json.lookup key items).getD _
    rw [lookup_appendTo]
    cases Json.lookup key items with
    | none => rfl
    | some v => cases v <;> simp [appendTo, hkey]
  | _ => rfl

theorem lookup_nodes_withNode (h : ListsNodes workflowDef) :
    Json.lookup "nodes" (fieldsOf (withNode node workflowDef)) =
      some (.list (listedNodes workflowDef ++ [node])) := by
  have hlisted := h.listed
  cases workflowDef with
  | obj items =>
    show Json.lookup "nodes" (items.map (appendTo node)) = _
    rw [lookup_appendTo]
    have hlookup : Json.lookup "nodes" items = some (.list (listedNodes (.obj items))) := hlisted
    rw [hlookup]
    rfl
  | _ => cases hlisted

theorem listedNodes_withNode (h : ListsNodes workflowDef) :
    listedNodes (withNode node workflowDef) = listedNodes workflowDef ++ [node] := by
  unfold listedNodes field
  rw [lookup_nodes_withNode h]
  rfl

theorem ListsNodes.withNode (h : ListsNodes workflowDef) {id : String} (hnode : IsNode id node) :
    ListsNodes (withNode node workflowDef) where
  isObj := isObj_withNode.trans h.isObj
  listed := by rw [listedNodes_withNode h, lookup_nodes_withNode h]
  isNode := by
    rw [listedNodes_withNode h]
    intro n hn
    rcases List.mem_append.1 hn with hn | hn
    · exact h.isNode n hn
    · exact ⟨id, List.mem_singleton.1 hn ▸ hnode⟩

/-! ## A rule that goes from node to node -/

/-- A rule that looks at the nodes one by one. -/
def PolicyRule.ByNodes (rule : PolicyRule) (check : Json → Except PyError (List PolicyViolation)) :
    Prop :=
  ∀ workflowDef, rule.evaluate workflowDef = do overNodes check (← nodesOf workflowDef)

section ByNodes

variable {rule : PolicyRule} {check : Json → Except PyError (List PolicyViolation)}

theorem overNodes_cons (node : Json) (nodes : List Json) : overNodes check (node :: nodes) = do
    return (← check node) ++ (← overNodes check nodes) := rfl

theorem overNodes_append (nodes nodes' : List Json) : overNodes check (nodes ++ nodes') = do
    return (← overNodes check nodes) ++ (← overNodes check nodes') := by
  induction nodes with
  | nil =>
    rw [List.nil_append]
    cases overNodes check nodes' <;> rfl
  | cons node nodes ih =>
    rw [List.cons_append, overNodes_cons, overNodes_cons, ih]
    cases check node with
    | error e => rfl
    | ok found =>
      cases overNodes check nodes with
      | error e => rfl
      | ok rest =>
        cases overNodes check nodes' with
        | error e => rfl
        | ok rest' => exact congrArg Except.ok (List.append_assoc found rest rest').symm

theorem evaluate_byNodes (hrule : rule.ByNodes check) (h : ListsNodes workflowDef) :
    rule.evaluate workflowDef = overNodes check (listedNodes workflowDef) := by
  rw [hrule, h.nodesOf_eq]
  rfl

/-- Behind one node more, the violations so far are followed by those of the node, if the check of
the node goes through; otherwise there is none. -/
theorem evaluate_withNode (hrule : rule.ByNodes check) (h : ListsNodes workflowDef) {id : String}
    (hnode : IsNode id node) : rule.evaluate (withNode node workflowDef) = do
      return (← rule.evaluate workflowDef) ++ (← overNodes check [node]) := by
  rw [evaluate_byNodes hrule (h.withNode hnode), listedNodes_withNode h, overNodes_append,
    evaluate_byNodes hrule h]

/-- A rule loses nothing to a node whose check goes through. -/
theorem found_subset_withNode (hrule : rule.ByNodes check) (h : ListsNodes workflowDef)
    {id : String} (hnode : IsNode id node) (hcheck : ∃ found, check node = .ok found) :
    rule.found workflowDef ⊆ rule.found (withNode node workflowDef) := by
  obtain ⟨found, hfound⟩ := hcheck
  intro v hv
  unfold PolicyRule.found at hv ⊢
  rw [evaluate_withNode hrule h hnode, overNodes_cons, hfound]
  cases hevaluate : rule.evaluate workflowDef with
  | error e =>
    rw [hevaluate] at hv
    exact absurd hv List.not_mem_nil
  | ok before =>
    rw [hevaluate] at hv
    exact List.mem_append_left _ hv

/-- A rule loses everything to a node whose check raises. -/
theorem found_withNode_of_raises (hrule : rule.ByNodes check) (h : ListsNodes workflowDef)
    {id : String} (hnode : IsNode id node) (hcheck : ∀ found, check node ≠ .ok found) :
    rule.found (withNode node workflowDef) = [] := by
  unfold PolicyRule.found
  rw [evaluate_withNode hrule h hnode]
  unfold overNodes
  cases hcheck' : check node with
  | ok found => exact absurd hcheck' (hcheck found)
  | error e => cases rule.evaluate workflowDef <;> rfl

/-- What the violations of the nodes come from. -/
theorem overNodes_inv {nodes : List Json} {all : List PolicyViolation}
    (h : overNodes check nodes = .ok all) : (∀ node ∈ nodes, ∃ found, check node = .ok found) ∧
      ∀ v ∈ all, ∃ node ∈ nodes, ∃ found, check node = .ok found ∧ v ∈ found := by
  induction nodes generalizing all with
  | nil =>
    cases h
    exact ⟨fun node hnode => absurd hnode List.not_mem_nil, fun v hv => absurd hv List.not_mem_nil⟩
  | cons node nodes ih =>
    rw [overNodes_cons] at h
    cases hfound : check node with
    | error e =>
      rw [hfound] at h
      cases h
    | ok found =>
      cases hrest : overNodes check nodes with
      | error e =>
        rw [hfound, hrest] at h
        cases h
      | ok rest =>
        rw [hfound, hrest] at h
        cases h
        obtain ⟨hok, hfrom⟩ := ih hrest
        refine ⟨List.forall_mem_cons.2 ⟨⟨found, hfound⟩, hok⟩, fun v hv => ?_⟩
        rcases List.mem_append.1 hv with hv | hv
        · exact ⟨node, List.mem_cons_self, found, hfound, hv⟩
        · obtain ⟨node', hnode', hfrom'⟩ := hfrom v hv
          exact ⟨node', List.mem_cons_of_mem _ hnode', hfrom'⟩

/-- A rule finds something if the check of every node goes through and that of one finds
something. -/
theorem mem_found_byNodes (hrule : rule.ByNodes check) (h : ListsNodes workflowDef)
    {v : PolicyViolation} : v ∈ rule.found workflowDef ↔
      (∀ node ∈ listedNodes workflowDef, ∃ found, check node = .ok found) ∧
        ∃ node ∈ listedNodes workflowDef, ∃ found, check node = .ok found ∧ v ∈ found := by
  unfold PolicyRule.found
  rw [evaluate_byNodes hrule h]
  constructor
  · intro hv
    cases hall : overNodes check (listedNodes workflowDef) with
    | error e =>
      rw [hall] at hv
      cases hv
    | ok all =>
      rw [hall] at hv
      obtain ⟨hok, hfrom⟩ := overNodes_inv hall
      exact ⟨hok, hfrom v hv⟩
  · rintro ⟨hok, node, hnode, found, hfound, hv⟩
    obtain ⟨all, hall, hmem⟩ := overNodes_ok hok
    rw [hall]
    exact hmem node hnode found hfound v hv

end ByNodes

/-! ## The rules of the default engine -/

section Rules

variable (u : Unicode)

theorem maxRetriesRule_byNodes (ceiling : ℤ) :
    (maxRetriesRule u ceiling).ByNodes (checkRetries u ceiling) := fun _ => rfl

theorem disallowPlaintextSecretsRule_byNodes :
    (disallowPlaintextSecretsRule u).ByNodes (checkSecrets u) := fun _ => rfl

theorem allowedConnectorsRule_byNodes (types : List String) :
    (allowedConnectorsRule u types).ByNodes (checkConnector u types) := fun _ => rfl

/-- The check of the retries goes through. -/
theorem checkRetries_spec (ceiling : ℤ) {id : String} (hnode : IsNode id node) :
    ∃ found, checkRetries u ceiling node = .ok found ∧
      ∀ v ∈ found, v.ruleName = "max_step_retries" := by
  have hstated : ∃ retries, statedRetries node = .ok retries := by
    unfold statedRetries
    simp only [get_of_isObj hnode.isObj, bind, Except.bind]
    split
    · exact ⟨_, rfl⟩
    · exact ⟨_, rfl⟩
  obtain ⟨retries, hretries⟩ := hstated
  unfold checkRetries
  simp only [hretries, get_of_isObj hnode.isObj, hnode.field_id, nodeIdOf, bind, Except.bind]
  cases integer? retries with
  | none => exact ⟨[], rfl, fun v hv => absurd hv List.not_mem_nil⟩
  | some n =>
    dsimp only
    split
    · exact ⟨[], rfl, fun v hv => absurd hv List.not_mem_nil⟩
    · exact ⟨_, rfl, fun v hv => List.mem_singleton.1 hv ▸ rfl⟩

/-- The connector that a node names. -/
def connectorOf (node : Json) : Json := field node "connector_type" .null

/-- A node names its connector by a text, or does not name one. -/
def NamedByText (node : Json) : Prop :=
  (connectorOf node).truthy = true → ∃ s, connectorOf node = .str s

/-- A node names a connector that is not on the list. -/
def Unapproved (types : List String) (node : Json) : Prop :=
  ∃ s, connectorOf node = .str s ∧ s ≠ "" ∧ ∀ allowed ∈ types, allowed.toList ≠ lower s

/-- The check of the connector, if it is named by a text. -/
theorem checkConnector_spec (types : List String) {id : String} (hnode : IsNode id node)
    (h : NamedByText node) : ∃ found, checkConnector u types node = .ok found ∧
      (found ≠ [] ↔ Unapproved types node) ∧
      ∀ v ∈ found, v.ruleName = "allowed_connector_types" ∧ v.severity = .error := by
  unfold checkConnector
  simp only [get_of_isObj hnode.isObj, hnode.field_id, nodeIdOf, bind, Except.bind]
  unfold NamedByText at h
  unfold Unapproved
  rw [show field node "connector_type" .null = connectorOf node from rfl]
  generalize connectorOf node = c at h ⊢
  have hnil : ∀ {p : Prop}, ¬ p → ∃ found : List PolicyViolation,
      (pure [] : Except PyError _) = .ok found ∧ (found ≠ [] ↔ p) ∧
        ∀ v ∈ found, v.ruleName = "allowed_connector_types" ∧ v.severity = .error :=
    fun hp => ⟨[], rfl, iff_of_false (not_not.2 rfl) hp, fun v hv => absurd hv List.not_mem_nil⟩
  by_cases htruthy : c.truthy = true
  · obtain ⟨s, rfl⟩ := h htruthy
    have hs : s ≠ "" := of_decide_eq_true htruthy
    rw [if_neg (by simp [htruthy])]
    dsimp only
    split
    · next hany =>
      refine hnil ?_
      rintro ⟨t, ht, -, hnone⟩
      cases ht
      obtain ⟨allowed, hallowed, heq⟩ := List.any_eq_true.1 hany
      exact hnone allowed hallowed (of_decide_eq_true heq)
    · next hany =>
      refine ⟨_, rfl, iff_of_true (List.cons_ne_nil _ _) ⟨s, rfl, hs, ?_⟩,
        fun v hv => List.mem_singleton.1 hv ▸ ⟨rfl, rfl⟩⟩
      intro allowed hallowed heq
      exact hany (List.any_eq_true.2 ⟨allowed, hallowed, decide_eq_true heq⟩)
  · rw [if_pos (by simp [htruthy])]
    refine hnil ?_
    rintro ⟨s, rfl, hs, -⟩
    exact htruthy (decide_eq_true hs)

/-- The check of the connector raises if it is not named by a text. -/
theorem checkConnector_raises {types : List String} {id : String} (hnode : IsNode id node)
    (h : ¬ NamedByText node) (found : List PolicyViolation) :
    checkConnector u types node ≠ .ok found := by
  unfold NamedByText at h
  push Not at h
  obtain ⟨htruthy, hs⟩ := h
  unfold checkConnector
  simp only [get_of_isObj hnode.isObj, bind, Except.bind]
  rw [show field node "connector_type" .null = connectorOf node from rfl]
  rw [if_neg (by simp [htruthy])]
  split
  · next s heq => exact absurd heq (hs s)
  · nofun

/-- When the rule for the connectors finds something. -/
theorem found_connectors_iff (types : List String) (h : ListsNodes workflowDef) :
    (allowedConnectorsRule u types).found workflowDef ≠ [] ↔
      (∀ node ∈ listedNodes workflowDef, NamedByText node) ∧
        ∃ node ∈ listedNodes workflowDef, Unapproved types node := by
  have hmem := @mem_found_byNodes workflowDef _ _ (allowedConnectorsRule_byNodes u types) h
  constructor
  · intro hne
    obtain ⟨v, hv⟩ := List.exists_mem_of_ne_nil _ hne
    obtain ⟨hok, node, hnode, found, hfound, hv⟩ := hmem.1 hv
    have htext : ∀ node ∈ listedNodes workflowDef, NamedByText node := by
      intro node hnode
      obtain ⟨id, hid⟩ := h.isNode node hnode
      obtain ⟨found, hfound⟩ := hok node hnode
      by_contra hn
      exact checkConnector_raises u hid hn found hfound
    refine ⟨htext, node, hnode, ?_⟩
    obtain ⟨id, hid⟩ := h.isNode node hnode
    obtain ⟨found', hfound', hiff, -⟩ := checkConnector_spec u types hid (htext node hnode)
    obtain rfl : found = found' := Except.ok.inj (hfound.symm.trans hfound')
    exact hiff.1 (List.ne_nil_of_mem hv)
  · rintro ⟨htext, node, hnode, hbad⟩
    have hok : ∀ node ∈ listedNodes workflowDef,
        ∃ found, checkConnector u types node = .ok found := by
      intro node hnode
      obtain ⟨id, hid⟩ := h.isNode node hnode
      obtain ⟨found, hfound, -⟩ := checkConnector_spec u types hid (htext node hnode)
      exact ⟨found, hfound⟩
    obtain ⟨id, hid⟩ := h.isNode node hnode
    obtain ⟨found, hfound, hiff, -⟩ := checkConnector_spec u types hid (htext node hnode)
    obtain ⟨v, hv⟩ := List.exists_mem_of_ne_nil found (hiff.2 hbad)
    exact List.ne_nil_of_mem (hmem.2 ⟨hok, node, hnode, found, hfound, hv⟩)

theorem ruleName_connectors (types : List String) (h : ListsNodes workflowDef) :
    ∀ v ∈ (allowedConnectorsRule u types).found workflowDef,
      v.ruleName = "allowed_connector_types" := by
  intro v hv
  obtain ⟨-, node, hnode, found, hfound, hv⟩ :=
    (mem_found_byNodes (allowedConnectorsRule_byNodes u types) h).1 hv
  obtain ⟨id, hid⟩ := h.isNode node hnode
  have htext : NamedByText node := by
    by_contra hn
    exact checkConnector_raises u hid hn found hfound
  obtain ⟨found', hfound', -, hall⟩ := checkConnector_spec u types hid htext
  obtain rfl : found = found' := Except.ok.inj (hfound.symm.trans hfound')
  exact (hall v hv).1

/-! ### The rules for a whole definition -/

theorem found_maxTimeout (limit : ℤ) (hobj : workflowDef.isObj = true) :
    (maxTimeoutRule u limit).found (withNode node workflowDef) =
      (maxTimeoutRule u limit).found workflowDef := by
  unfold PolicyRule.found maxTimeoutRule
  simp only [get_of_isObj hobj, get_of_isObj (isObj_withNode.trans hobj),
    field_withNode (show "timeout_seconds" ≠ "nodes" by decide)]

theorem ruleName_maxTimeout (limit : ℤ) (hobj : workflowDef.isObj = true) :
    ∀ v ∈ (maxTimeoutRule u limit).found workflowDef, v.ruleName = "max_workflow_timeout" := by
  unfold PolicyRule.found maxTimeoutRule
  simp only [get_of_isObj hobj, bind, Except.bind]
  cases (field workflowDef "timeout_seconds" .null).number? with
  | none => exact fun v hv => absurd hv List.not_mem_nil
  | some x =>
    dsimp only [pure, Except.pure]
    split
    · exact fun v hv => List.mem_singleton.1 hv ▸ rfl
    · exact fun v hv => absurd hv List.not_mem_nil

/-- A node that does external I/O. -/
def isExternal (node : Json) : Bool :=
  match field node "type" .null with
  | .str s => s ∈ externalTypes
  | _ => false

theorem hasExternalIo_eq {nodes : List Json} (hnodes : ∀ n ∈ nodes, n.isObj = true) :
    hasExternalIo nodes = .ok (nodes.any isExternal) := by
  induction nodes with
  | nil => rfl
  | cons n nodes ih =>
    rw [List.forall_mem_cons] at hnodes
    have hstep : hasExternalIo (n :: nodes) =
        if isExternal n = true then .ok true else hasExternalIo nodes := by
      conv_lhs => unfold hasExternalIo
      unfold isExternal
      rw [get_of_isObj hnodes.1]
      simp only [bind, Except.bind]
      generalize field n "type" .null = c
      cases c with
      | str s => exact if_congr decide_eq_true_iff.symm rfl rfl
      | _ => rfl
    rw [hstep, List.any_cons, ih hnodes.2]
    cases isExternal n <;> rfl

/-- There is external I/O, and no queue for dead letters. -/
def lacksQueue (workflowDef : Json) : Bool :=
  (listedNodes workflowDef).any isExternal &&
    !((field workflowDef "enable_dlq" (.bool true)).truthy ||
      !(field workflowDef "dlq_topic" .null matches .null))

theorem evaluate_requireDeadLetterQueue (h : ListsNodes workflowDef) :
    requireDeadLetterQueueRule.evaluate workflowDef = .ok (if lacksQueue workflowDef then
      [{ ruleName := "require_dlq_on_external_operations", severity := .warning
         message := "Workflow contains external I/O steps but disables Dead Letter Queue (DLQ) " ++
           "routing."
         remediation := "Enable DLQ in workflow configuration to ensure poison messages can be " ++
           "replayed." }]
      else []) := by
  have hobj : ∀ n ∈ listedNodes workflowDef, n.isObj = true := fun n hn =>
    (h.isNode n hn).elim fun _ hid => hid.isObj
  unfold requireDeadLetterQueueRule
  simp only [h.nodesOf_eq, get_of_isObj h.isObj, hasExternalIo_eq hobj, bind, Except.bind]
  rfl

theorem lacksQueue_withNode (h : ListsNodes workflowDef) (hlacks : lacksQueue workflowDef = true) :
    lacksQueue (withNode node workflowDef) = true := by
  unfold lacksQueue at hlacks ⊢
  rw [Bool.and_eq_true] at hlacks ⊢
  rw [listedNodes_withNode h, List.any_append, hlacks.1,
    field_withNode (show "enable_dlq" ≠ "nodes" by decide),
    field_withNode (show "dlq_topic" ≠ "nodes" by decide)]
  exact ⟨rfl, hlacks.2⟩

theorem found_requireDeadLetterQueue (h : ListsNodes workflowDef) {id : String}
    (hnode : IsNode id node) : requireDeadLetterQueueRule.found workflowDef ⊆
      requireDeadLetterQueueRule.found (withNode node workflowDef) := by
  intro v hv
  unfold PolicyRule.found at hv ⊢
  rw [evaluate_requireDeadLetterQueue h] at hv
  rw [evaluate_requireDeadLetterQueue (h.withNode hnode)]
  dsimp only at hv ⊢
  split at hv
  · next hlacks =>
    rw [if_pos (lacksQueue_withNode h hlacks)]
    exact hv
  · exact absurd hv List.not_mem_nil

/-! ### All of them -/

/-- Only the rule for the connectors finds violations under its name. -/
theorem mem_found_of_ruleName (h : ListsNodes workflowDef) {rule : PolicyRule}
    (hrule : rule ∈ defaultRules u) {v : PolicyViolation} (hv : v ∈ rule.found workflowDef)
    (hname : v.ruleName = "allowed_connector_types") :
    v ∈ (allowedConnectorsRule u defaultAllowed).found workflowDef := by
  have hother : v.ruleName ≠ "allowed_connector_types" → v ∈ (allowedConnectorsRule u
      defaultAllowed).found workflowDef := fun hne => absurd hname hne
  simp only [defaultRules, List.mem_cons, List.not_mem_nil, or_false] at hrule
  rcases hrule with rfl | rfl | rfl | rfl | rfl
  · refine hother ?_
    rw [ruleName_maxTimeout u 600 h.isObj v hv]
    decide
  · refine hother ?_
    obtain ⟨-, n, hn, found, hfound, hv⟩ :=
      (mem_found_byNodes (maxRetriesRule_byNodes u 5) h).1 hv
    obtain ⟨id, hid⟩ := h.isNode n hn
    obtain ⟨found', hfound', hall⟩ := checkRetries_spec u 5 hid
    obtain rfl : found = found' := Except.ok.inj (hfound.symm.trans hfound')
    rw [hall v hv]
    decide
  · refine hother ?_
    obtain ⟨found, hfound, hall, -⟩ := @scanned_iff u _ h
    unfold PolicyRule.found at hv
    rw [hfound] at hv
    rw [(hall v hv).1]
    decide
  · refine hother ?_
    unfold PolicyRule.found at hv
    rw [evaluate_requireDeadLetterQueue h] at hv
    dsimp only at hv
    split at hv
    · rw [List.mem_singleton.1 hv]
      decide
    · exact absurd hv List.not_mem_nil
  · exact hv

/-- The rules other than the one for the connectors lose nothing to a node. -/
theorem found_subset_of_ne (h : ListsNodes workflowDef) {id : String} (hnode : IsNode id node)
    {rule : PolicyRule} (hrule : rule ∈ defaultRules u)
    (hne : rule ≠ allowedConnectorsRule u defaultAllowed) :
    rule.found workflowDef ⊆ rule.found (withNode node workflowDef) := by
  simp only [defaultRules, List.mem_cons, List.not_mem_nil, or_false] at hrule
  rcases hrule with rfl | rfl | rfl | rfl | rfl
  · rw [found_maxTimeout u 600 h.isObj]
    exact List.Subset.refl _
  · obtain ⟨found, hfound, -⟩ := checkRetries_spec u 5 hnode
    exact found_subset_withNode (maxRetriesRule_byNodes u 5) h hnode ⟨found, hfound⟩
  · obtain ⟨found, hfound, -⟩ := checkSecrets_spec u id hnode
    exact found_subset_withNode (disallowPlaintextSecretsRule_byNodes u) h hnode ⟨found, hfound⟩
  · exact found_requireDeadLetterQueue h hnode
  · exact absurd rfl hne

end Rules

/-! ## When a node hides nothing -/

theorem mem_violations {rules : List PolicyRule} {mode : PolicyMode} {v : PolicyViolation} :
    v ∈ (evaluate rules workflowDef mode).violations ↔
      ∃ rule ∈ rules, v ∈ rule.found workflowDef := List.mem_flatMap

/-- A node hides nothing: what is found without it is found with it, and what is not allowed
without it is not allowed with it. -/
def Grows (u : Unicode) (workflowDef node : Json) (mode : PolicyMode) : Prop :=
  (∀ v ∈ (evaluate (defaultRules u) workflowDef mode).violations,
      v ∈ (evaluate (defaultRules u) (withNode node workflowDef) mode).violations) ∧
    ((evaluate (defaultRules u) workflowDef .enforce).allowed = false →
      (evaluate (defaultRules u) (withNode node workflowDef) .enforce).allowed = false)

/-- A definition with more violations is not allowed either. -/
theorem not_allowed_of_subset {rules : List PolicyRule} {workflowDef' : Json}
    (h : ∀ rule ∈ rules, rule.found workflowDef ⊆ rule.found workflowDef')
    (hallowed : (evaluate rules workflowDef .enforce).allowed = false) :
    (evaluate rules workflowDef' .enforce).allowed = false := by
  rw [Bool.eq_false_iff] at hallowed ⊢
  intro hallowed'
  rw [ne_eq, allowed_evaluate_iff] at hallowed
  rw [allowed_evaluate_iff] at hallowed'
  exact hallowed fun rule hrule v hv => hallowed' rule hrule v (h rule hrule hv)

/-- **When a node hides nothing**: if the nodes so far all name their connectors by texts, and one
of these is not approved, the further node names its own by a text, or none. -/
theorem grows_iff (py : Pydantic) (hpy : ChecksNodes py) (u : Unicode) (workflowDef : Json)
    (d : WorkflowDefinition) (hload : py.load workflowDef = .ok d) (id : String) (node : Json)
    (hnode : IsNode id node) (mode : PolicyMode) : Grows u workflowDef node mode ↔
      ((∀ n ∈ listedNodes workflowDef, NamedByText n) →
        (∃ n ∈ listedNodes workflowDef, Unapproved defaultAllowed n) → NamedByText node) := by
  have hlists := hpy.listsNodes hload
  have hbyNodes := allowedConnectorsRule_byNodes u defaultAllowed
  constructor
  · intro hgrows htext hbad
    by_contra hn
    have hlost := found_withNode_of_raises hbyNodes hlists hnode (checkConnector_raises u hnode hn)
    obtain ⟨v, hv⟩ := List.exists_mem_of_ne_nil _
      ((found_connectors_iff u defaultAllowed hlists).2 ⟨htext, hbad⟩)
    have hrule : allowedConnectorsRule u defaultAllowed ∈ defaultRules u := by
      simp [defaultRules]
    obtain ⟨rule, hrule', hv'⟩ := mem_violations.1
      (hgrows.1 v (mem_violations.2 ⟨_, hrule, hv⟩))
    have hkept := mem_found_of_ruleName u (hlists.withNode hnode) hrule' hv'
      (ruleName_connectors u defaultAllowed hlists v hv)
    rw [hlost] at hkept
    exact absurd hkept List.not_mem_nil
  · intro hcondition
    have hsubset : ∀ rule ∈ defaultRules u,
        rule.found workflowDef ⊆ rule.found (withNode node workflowDef) := by
      intro rule hrule
      by_cases hconnectors : rule = allowedConnectorsRule u defaultAllowed
      · subst hconnectors
        by_cases htext : NamedByText node
        · obtain ⟨found, hfound, -⟩ := checkConnector_spec u defaultAllowed hnode htext
          exact found_subset_withNode hbyNodes hlists hnode ⟨found, hfound⟩
        · have hnil : (allowedConnectorsRule u defaultAllowed).found workflowDef = [] := by
            by_contra hne
            obtain ⟨hall, hbad⟩ := (found_connectors_iff u defaultAllowed hlists).1 hne
            exact htext (hcondition hall hbad)
          rw [hnil]
          exact List.nil_subset _
      · exact found_subset_of_ne u hlists hnode hrule hconnectors
    refine ⟨fun v hv => ?_, not_allowed_of_subset hsubset⟩
    obtain ⟨rule, hrule, hv⟩ := mem_violations.1 hv
    exact mem_violations.2 ⟨rule, hrule, hsubset rule hrule hv⟩

/-! ### A node that hides a connector -/

/-- A node with a connector type. -/
def connectorNode (id : String) (connectorType : Json) : Json :=
  .obj [("id", .str id), ("type", .str "action.http"), ("name", .str "Call a service"),
    ("connector_type", connectorType)]

/-- A workflow with a connector that is not approved. -/
def importing : Json :=
  .obj [("name", .str "Import"), ("trigger", .obj [("type", .str "manual")]),
    ("nodes", .list [connectorNode "import" (.str "ftp")])]

theorem isNode_connectorNode (id : String) (connectorType : Json) :
    IsNode id (connectorNode id connectorType) := ⟨rfl, rfl⟩

theorem isOk_load_importing : (nodesPydantic.load importing).isOk = true := by decide +kernel

/-- A node with an approved connector hides nothing. -/
theorem grows_approved : Grows ⟨fun _ => true, fun _ => none⟩ importing
    (connectorNode "store" (.str "postgres")) .enforce := by
  cases hload : nodesPydantic.load importing with
  | ok d =>
    exact (grows_iff nodesPydantic checksNodes_nodesPydantic _ importing d hload "store" _
      (isNode_connectorNode _ _) .enforce).2 fun _ _ _ => ⟨"postgres", rfl⟩
  | error e =>
    have hok := isOk_load_importing
    rw [hload] at hok
    cases hok

/-- A node with a number as its connector type makes the definition allowed. -/
theorem not_grows_number : ¬ ∀ (py : Pydantic) (u : Unicode) (workflowDef : Json)
    (d : WorkflowDefinition) (id : String) (node : Json) (mode : PolicyMode), ChecksNodes py →
      py.load workflowDef = .ok d → IsNode id node → Grows u workflowDef node mode := by
  intro hall
  cases hload : nodesPydantic.load importing with
  | ok d =>
    have hgrows := hall nodesPydantic ⟨fun _ => true, fun _ => none⟩ importing d "store"
      (connectorNode "store" (.int 5)) .enforce checksNodes_nodesPydantic hload
      (isNode_connectorNode _ _)
    have hblocked := hgrows.2 (by decide +kernel)
    exact absurd hblocked (by decide +kernel)
  | error e =>
    have hok := isOk_load_importing
    rw [hload] at hok
    cases hok

end Growth

end FlowMesh.PolicyEngine
