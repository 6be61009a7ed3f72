import FlowMesh.Repositories.Requests

/-!
# Webhook routing

`get_by_trigger_path` goes through the active workflows of a tenant in the order of the database and
gives the first one that listens on the path. A webhook trigger listens on its configured path, as
it stands or in the normalised form of the request; a trigger without a path listens on everything.

In definitions that the schema accepts no test raises, and `routed_first` says what is found.
-/

namespace FlowMesh.Tables

open Python Database Transaction WorkflowRepository

variable {d : Dialect}

/-! ## Triggers -/

/-- A field of a dictionary. -/
def member (v : Json) (key : String) (default : Json) : Json :=
  match v with
  | .obj items => (Json.lookup key items).getD default
  | _ => default

/-- `trigger`. -/
def triggerOf (wf : WorkflowRecord) : Json := member wf.definitionJson "trigger" (.obj [])

/-- `t_path`. -/
def pathOf (wf : WorkflowRecord) : Json :=
  (member (member (triggerOf wf) "config" (.obj [])) "path" .null).or
    (member (triggerOf wf) "path" .null)

/-- What the schema promises of `trigger: TriggerSpec`: dictionaries. -/
structure HasTrigger (wf : WorkflowRecord) : Prop where
  definition : wf.definitionJson.isObj = true
  trigger : (triggerOf wf).isObj = true
  config : (member (triggerOf wf) "config" (.obj [])).isObj = true

/-- A workflow with a webhook trigger. -/
def IsWebhook (wf : WorkflowRecord) : Prop :=
  member (triggerOf wf) "type" (.str "") = .str "webhook"

/-- A webhook whose configured path is the one of the request, or its normalised form. -/
def RoutedTo (path : String) (wf : WorkflowRecord) : Prop :=
  IsWebhook wf ∧ ∃ p, pathOf wf = .str p ∧ (p = path ∨ p = String.ofList ('/' :: stripSlashes path))

/-- A webhook without a path, which listens on everything. -/
def CatchesAll (wf : WorkflowRecord) : Prop := IsWebhook wf ∧ (pathOf wf).truthy = false

theorem getKey_of_isObj {v : Json} (h : v.isObj = true) (key : String) (default : Json) :
    getKey v key default = .ok (member v key default) := by
  cases v with
  | obj items => rfl
  | _ => cases h

theorem eq_str_iff {v : Json} {s : String} : v.eq (.str s) = true ↔ v = .str s := by
  cases v with
  | str t => simp [Json.eq]
  | _ => simp [Json.eq, Json.number?]

/-- What the test says of a workflow. -/
theorem listensOn_spec (path : String) {wf : WorkflowRecord} (h : HasTrigger wf) :
    ∃ b, listensOn path wf = .ok b ∧ (b = true ↔ RoutedTo path wf ∨ CatchesAll wf) := by
  have htest : listensOn path wf = .ok ((member (triggerOf wf) "type" (.str "")).eq
      (.str "webhook") && ((pathOf wf).eq (.str (String.ofList ('/' :: stripSlashes path))) ||
        (pathOf wf).eq (.str path) || !(pathOf wf).truthy)) := by
    have htrigger : getKey wf.definitionJson "trigger" (.obj []) = .ok (triggerOf wf) :=
      getKey_of_isObj h.definition _ _
    unfold listensOn pathOf Json.or
    simp only [htrigger, getKey_of_isObj h.trigger, getKey_of_isObj h.config, bind, Except.bind]
    split <;> rfl
  refine ⟨_, htest, ?_⟩
  rw [Bool.and_eq_true, Bool.or_eq_true, Bool.or_eq_true, eq_str_iff, eq_str_iff, eq_str_iff,
    Bool.not_eq_true']
  unfold RoutedTo CatchesAll IsWebhook
  constructor
  · rintro ⟨htype, (hpath | hpath) | hpath⟩
    · exact Or.inl ⟨htype, _, hpath, Or.inr rfl⟩
    · exact Or.inl ⟨htype, _, hpath, Or.inl rfl⟩
    · exact Or.inr ⟨htype, hpath⟩
  · rintro (⟨htype, p, hpath, rfl | rfl⟩ | ⟨htype, hpath⟩)
    · exact ⟨htype, Or.inl (Or.inr hpath)⟩
    · exact ⟨htype, Or.inl (Or.inl hpath)⟩
    · exact ⟨htype, Or.inr hpath⟩

/-! ## The scan -/

/-- The active workflows of a tenant, in the order of the database. -/
def activeWorkflows (tenant : String) (s : Db d) : List WorkflowRecord :=
  (inTable .workflows s).filter fun wf => wf.tenantId = tenant && wf.status = "active"

/-- The loop gives the first workflow that listens. -/
theorem firstListening_spec {path : String} {wfs : List WorkflowRecord}
    (hwfs : ∀ wf ∈ wfs, HasTrigger wf) (h : ∃ wf ∈ wfs, RoutedTo path wf) :
    ∃ before wf after, wfs = before ++ wf :: after ∧
      firstListening path wfs = .ok (some wf) ∧ (RoutedTo path wf ∨ CatchesAll wf) ∧
      ∀ wf' ∈ before, ¬ RoutedTo path wf' ∧ ¬ CatchesAll wf' := by
  induction wfs with
  | nil =>
    obtain ⟨wf, hwf, -⟩ := h
    exact absurd hwf List.not_mem_nil
  | cons wf wfs ih =>
    rw [List.forall_mem_cons] at hwfs
    obtain ⟨b, htest, hb⟩ := listensOn_spec path hwfs.1
    have hloop : firstListening path (wf :: wfs) =
        if b = true then .ok (some wf) else firstListening path wfs := by
      conv_lhs => unfold firstListening
      rw [htest]
      rfl
    by_cases hlistens : b = true
    · rw [hloop, if_pos hlistens]
      exact ⟨[], wf, wfs, rfl, rfl, hb.1 hlistens, fun wf' hwf' => absurd hwf' List.not_mem_nil⟩
    · have hnot := not_or.1 (mt hb.2 hlistens)
      have hrest : ∃ wf ∈ wfs, RoutedTo path wf := by
        obtain ⟨wf', hwf', hrouted⟩ := h
        rcases List.mem_cons.1 hwf' with rfl | hwf'
        · exact absurd hrouted hnot.1
        · exact ⟨wf', hwf', hrouted⟩
      obtain ⟨before, wf', after, rfl, hfirst, hwf', hbefore⟩ := ih hwfs.2 hrest
      refine ⟨wf :: before, wf', after, rfl, ?_, hwf', List.forall_mem_cons.2 ⟨hnot, hbefore⟩⟩
      rw [hloop, if_neg hlistens, hfirst]

/-- What the query gives. -/
theorem fst_getByTriggerPath (tenant path : String) (s : Db d) {wf? : Option WorkflowRecord}
    (h : firstListening path (activeWorkflows tenant s) = .ok wf?) :
    (getByTriggerPath tenant path s).1 = .ok (wf?, s) := by
  unfold getByTriggerPath
  rw [fst_bind, fst_fetchOwn]
  have hactive : (inTable .workflows s).filter (fun r : Row .workflows =>
      r.owner = tenant && r.status = "active") = activeWorkflows tenant s := rfl
  dsimp only
  rw [hactive, h]
  rfl

/-- **Where a webhook goes**: if an active workflow listens on the path by its configuration, then
the first active workflow that does so, or that has no path, is the one that is found. -/
theorem routed_first (tenant path : String) (s : Db d)
    (hwfs : ∀ wf ∈ activeWorkflows tenant s, HasTrigger wf)
    (h : ∃ wf ∈ activeWorkflows tenant s, RoutedTo path wf) :
    ∃ before wf after, activeWorkflows tenant s = before ++ wf :: after ∧
      (getByTriggerPath tenant path s).1 = .ok (some wf, s) ∧
      (RoutedTo path wf ∨ CatchesAll wf) ∧
      ∀ wf' ∈ before, ¬ RoutedTo path wf' ∧ ¬ CatchesAll wf' := by
  obtain ⟨before, wf, after, hsplit, hfirst, hwf, hbefore⟩ := firstListening_spec hwfs h
  exact ⟨before, wf, after, hsplit, fst_getByTriggerPath tenant path s hfirst, hwf, hbefore⟩

/-! ### Two webhooks -/

/-- A webhook with a given configuration. -/
def hookWorkflow (id : String) (config : List (String × Json)) : WorkflowRecord where
  id
  tenantId := "acme"
  name := id
  description := ""
  status := "active"
  version := 1
  triggerType := "webhook"
  definitionJson := .obj [("trigger", .obj [("type", .str "webhook"), ("config", .obj config)])]
  createdAt := 0
  updatedAt := 0

/-- A webhook for orders. -/
def ordersHook : WorkflowRecord := hookWorkflow "wf_orders" [("path", .str "/orders")]

/-- A webhook without a path. -/
def anyHook : WorkflowRecord := hookWorkflow "wf_any" []

/-- The webhook without a path is the older one. -/
def anyFirst : Db .sqlite where
  rows := [⟨.workflows, anyHook⟩, ⟨.workflows, ordersHook⟩]
  unique := by
    rw [List.pairwise_pair]
    decide +kernel

/-- The webhook with a path is the older one. -/
def ordersFirst : Db .sqlite where
  rows := [⟨.workflows, ordersHook⟩, ⟨.workflows, anyHook⟩]
  unique := by
    rw [List.pairwise_pair]
    decide +kernel

theorem hasTrigger_hookWorkflow (id : String) (config : List (String × Json)) :
    HasTrigger (hookWorkflow id config) := ⟨rfl, rfl, rfl⟩

theorem routedTo_ordersHook : RoutedTo "/orders" ordersHook := ⟨rfl, "/orders", rfl, Or.inl rfl⟩

/-- A request for orders goes to one of the two, by their order. -/
theorem routed_first_orders : ∃ before wf after,
    activeWorkflows "acme" ordersFirst = before ++ wf :: after ∧
      (getByTriggerPath "acme" "/orders" ordersFirst).1 = .ok (some wf, ordersFirst) ∧
      (RoutedTo "/orders" wf ∨ CatchesAll wf) ∧
      ∀ wf' ∈ before, ¬ RoutedTo "/orders" wf' ∧ ¬ CatchesAll wf' := by
  have hactive : activeWorkflows "acme" ordersFirst = [ordersHook, anyHook] := rfl
  refine routed_first "acme" "/orders" ordersFirst ?_ ?_
  · rw [hactive]
    intro wf hwf
    rcases List.mem_pair.1 hwf with rfl | rfl
    · exact hasTrigger_hookWorkflow _ _
    · exact hasTrigger_hookWorkflow _ _
  · rw [hactive]
    exact ⟨ordersHook, List.mem_cons_self, routedTo_ordersHook⟩

/-- Where the webhook without a path is older, it gets the requests for orders. -/
theorem not_routed_path : ¬ ∀ (tenant path : String) (s : Db .sqlite),
    (∀ wf ∈ activeWorkflows tenant s, HasTrigger wf) →
      (∃ wf ∈ activeWorkflows tenant s, RoutedTo path wf) →
        ∃ wf, (getByTriggerPath tenant path s).1 = .ok (some wf, s) ∧ ∃ p, pathOf wf = .str p ∧
          stripSlashes p = stripSlashes path := by
  intro hall
  have hactive : activeWorkflows "acme" anyFirst = [anyHook, ordersHook] := rfl
  obtain ⟨wf, hwf, p, hp, -⟩ := hall "acme" "/orders" anyFirst
    (by
      rw [hactive]
      intro wf hwf
      rcases List.mem_pair.1 hwf with rfl | rfl
      · exact hasTrigger_hookWorkflow _ _
      · exact hasTrigger_hookWorkflow _ _)
    (by
      rw [hactive]
      exact ⟨ordersHook, List.mem_cons_of_mem _ List.mem_cons_self, routedTo_ordersHook⟩)
  have hfirst : firstListening "/orders" (activeWorkflows "acme" anyFirst) =
      .ok (some anyHook) := by
    rw [hactive]
    rfl
  have hany := hwf.symm.trans (fst_getByTriggerPath "acme" "/orders" anyFirst hfirst)
  obtain rfl : wf = anyHook := Option.some.inj (Prod.ext_iff.1 (Except.ok.inj hany)).1
  cases hp

end FlowMesh.Tables
