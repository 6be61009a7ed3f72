import Mathlib.Data.List.Find
import Mathlib.Data.List.Induction
import FlowMesh.Agent.Policy

/-!
# Whose rule decides

`AddRule` keeps a rule under the text `connector:connectionID`, and different pairs of a connector
and a connection may have one text: `("a:b", "c")` and `("a", "b:c")` do. `Permits` says what a
rule allows and `Allowed` what the rules of the command's own pair do. `evaluate_iff_allowed_iff`
says when `Evaluate` decides by these: when the last rule under the text is one of the pair, or
decides as the last one of the pair. Connectors without a colon share no text
(`evaluate_of_no_colon`).
-/

namespace FlowMesh.Policy

/-- A call of `AddRule`. -/
structure RuleAddition where
  connector : String
  connectionId : String
  rule : PolicyRule

/-- An engine after calls of `AddRule`. -/
def addRules (adds : List RuleAddition) : Engine :=
  adds.foldl (fun rules a => rules.addRule a.connector a.connectionId a.rule) newEngine

/-- The last call of a kind. -/
def lastAddition (p : RuleAddition → Bool) (adds : List RuleAddition) : Option RuleAddition :=
  adds.reverse.find? p

/-- The call is for the pair of the command. -/
def RuleAddition.isFor (cmd : Policy.Command) (a : RuleAddition) : Bool :=
  a.connector = cmd.connector ∧ a.connectionId = cmd.connectionId

/-- The call is for a pair with the text of the command's. -/
def RuleAddition.sharesKey (cmd : Policy.Command) (a : RuleAddition) : Bool :=
  ruleKey a.connector a.connectionId = ruleKey cmd.connector cmd.connectionId

/-- What a rule allows. -/
structure Permits (u : Go.Unicode) (rule : PolicyRule) (cmd : Policy.Command) : Prop where
  operation : ∃ op ∈ rule.allowedOperations, Go.equalFold u op cmd.operation ∨ op = "*"
  resource : cmd.resource ≠ "" → rule.allowedResources ≠ [] → ∃ res ∈ rule.allowedResources,
    Go.equalFold u res cmd.resource ∨ res = "*" ∨
      ∃ stem, res.toList = stem ++ ['*'] ∧ stem <+: cmd.resource.toList
  limit : 0 < rule.maxLimit → 0 < cmd.limit → cmd.limit ≤ rule.maxLimit

/-- A rule was added for the command's pair, and the last such rule permits the command. -/
def Allowed (u : Go.Unicode) (adds : List RuleAddition) (cmd : Policy.Command) : Prop :=
  ∃ a, lastAddition (·.isFor cmd) adds = some a ∧ Permits u a.rule cmd

/-! ## What is found -/

@[simp] theorem addRules_concat (adds : List RuleAddition) (a : RuleAddition) :
    addRules (adds ++ [a]) = (addRules adds).addRule a.connector a.connectionId a.rule := by
  simp [addRules]

/-- Under a key there is the rule that was added last under it. -/
theorem addRules_apply (adds : List RuleAddition) (key : String) :
    addRules adds key =
      (lastAddition (fun a => ruleKey a.connector a.connectionId = key) adds).map (·.rule) := by
  induction adds using List.reverseRecOn with
  | nil => rfl
  | append_singleton adds a ih =>
    rw [addRules_concat, Engine.addRule]
    unfold lastAddition at ih ⊢
    rw [List.reverse_concat, List.find?_cons]
    by_cases hkey : ruleKey a.connector a.connectionId = key
    · simp [hkey]
    · rw [Function.update_of_ne (Ne.symm hkey), ih]
      simp [hkey]

/-- The last call of a kind is the last one of a narrower kind, if it is of it. -/
theorem lastAddition_of_imp {p q : RuleAddition → Bool} {adds : List RuleAddition}
    {a : RuleAddition} (himp : ∀ a, p a = true → q a = true) (hq : lastAddition q adds = some a)
    (hp : p a = true) : lastAddition p adds = some a := by
  unfold lastAddition at hq ⊢
  rw [List.find?_eq_some_iff_append] at hq ⊢
  obtain ⟨-, before, after, happend, hbefore⟩ := hq
  refine ⟨hp, before, after, happend, fun a' ha' => ?_⟩
  have hnot := hbefore a' ha'
  simp only [Bool.not_eq_true'] at hnot ⊢
  by_contra hpa
  rw [himp a' (by simpa using hpa)] at hnot
  exact absurd hnot (by decide)

theorem RuleAddition.sharesKey_of_isFor {cmd : Policy.Command} {a : RuleAddition}
    (h : a.isFor cmd = true) : a.sharesKey cmd = true := by
  simp only [isFor, sharesKey, decide_eq_true_eq] at h ⊢
  rw [h.1, h.2]

theorem lastAddition_isFor {cmd : Policy.Command} {adds : List RuleAddition} {a : RuleAddition}
    (ha : lastAddition (·.sharesKey cmd) adds = some a) (hfor : a.isFor cmd = true) :
    lastAddition (·.isFor cmd) adds = some a :=
  lastAddition_of_imp (fun _ => RuleAddition.sharesKey_of_isFor) ha hfor

/-! ## What is decided -/

variable {u : Go.Unicode} {rule : PolicyRule} {cmd : Policy.Command}

theorem opAllowed_iff : rule.opAllowed u cmd.operation = true ↔
    ∃ op ∈ rule.allowedOperations, Go.equalFold u op cmd.operation ∨ op = "*" := by
  simp [PolicyRule.opAllowed]

/-- A stem before a trailing star. -/
theorem endsWithStar_iff {res : String} : Go.endsWithStar res = true ∧
    (Go.dropStar res).isPrefixOf cmd.resource.toList = true ↔
      ∃ stem, res.toList = stem ++ ['*'] ∧ stem <+: cmd.resource.toList := by
  simp only [Go.endsWithStar, Go.dropStar, decide_eq_true_eq, List.isPrefixOf_iff_prefix]
  constructor
  · rintro ⟨hlast, hprefix⟩
    exact ⟨_, (List.dropLast_append_getLast? '*' hlast).symm, hprefix⟩
  · rintro ⟨stem, hres, hprefix⟩
    rw [hres]
    exact ⟨by simp, by simpa using hprefix⟩

theorem resAllowed_iff : rule.resAllowed u cmd.resource = true ↔
    ∃ res ∈ rule.allowedResources, Go.equalFold u res cmd.resource ∨ res = "*" ∨
      ∃ stem, res.toList = stem ++ ['*'] ∧ stem <+: cmd.resource.toList := by
  simp only [PolicyRule.resAllowed, List.any_eq_true, Bool.or_eq_true, Bool.and_eq_true,
    endsWithStar_iff, decide_eq_true_eq, or_assoc]

theorem check_iff_permits : rule.check u cmd = .ok () ↔ Permits u rule cmd := by
  rw [PolicyRule.check_eq_ok, opAllowed_iff, resAllowed_iff]
  constructor
  · rintro ⟨hop, hres, hlimit⟩
    exact ⟨hop, fun h h' => hres.resolve_left h |>.resolve_left h', by omega⟩
  · rintro ⟨hop, hres, hlimit⟩
    refine ⟨hop, ?_, by omega⟩
    by_cases hempty : cmd.resource = ""
    · exact Or.inl hempty
    · by_cases hall : rule.allowedResources = []
      · exact Or.inr (Or.inl hall)
      · exact Or.inr (Or.inr (hres hempty hall))

/-- `Evaluate` decides by the rule that was added last under the command's key. -/
theorem evaluate_addRules {adds : List RuleAddition} (hconnector : cmd.connector ≠ "")
    (hoperation : cmd.operation ≠ "") : (addRules adds).evaluate u cmd = .ok () ↔
      ∃ a, lastAddition (·.sharesKey cmd) adds = some a ∧ Permits u a.rule cmd := by
  rw [Engine.evaluate_eq_ok, addRules_apply]
  simp only [ne_eq, hconnector, hoperation, not_false_eq_true, true_and, check_iff_permits,
    Option.map_eq_some_iff]
  constructor
  · rintro ⟨_, ⟨a, ha, rfl⟩, hpermits⟩
    exact ⟨a, ha, hpermits⟩
  · rintro ⟨a, ha, hpermits⟩
    exact ⟨_, ⟨a, ha, rfl⟩, hpermits⟩

/-- **Whose rule decides**: a command is decided by the rules of its own pair exactly if the rule
that was added last under the key is one of these, or decides as they do. -/
theorem evaluate_iff_allowed_iff (u : Go.Unicode) (adds : List RuleAddition) (cmd : Policy.Command)
    (hconnector : cmd.connector ≠ "") (hoperation : cmd.operation ≠ "") :
    ((addRules adds).evaluate u cmd = .ok () ↔ Allowed u adds cmd) ↔
      ∀ a, lastAddition (·.sharesKey cmd) adds = some a →
        a.isFor cmd = true ∨ (Permits u a.rule cmd ↔ Allowed u adds cmd) := by
  rw [evaluate_addRules hconnector hoperation]
  constructor
  · intro hexact a ha
    right
    rw [← hexact, ha]
    simp
  · intro hlast
    cases hfound : lastAddition (·.sharesKey cmd) adds with
    | none =>
      have hnone : lastAddition (·.isFor cmd) adds = none := by
        unfold lastAddition at hfound ⊢
        rw [List.find?_eq_none] at hfound ⊢
        exact fun a ha hfor => hfound a ha (RuleAddition.sharesKey_of_isFor hfor)
      simp [Allowed, hnone]
    | some a =>
      rcases hlast a hfound with hfor | hsame
      · simp [Allowed, lastAddition_isFor hfound hfor]
      · simpa using hsame

/-! ### Connectors without a colon -/

/-- What stands before the first colon. -/
theorem append_colon_inj {l l' r r' : List Char} (hl : ':' ∉ l) (hl' : ':' ∉ l')
    (h : l ++ ':' :: r = l' ++ ':' :: r') : l = l' ∧ r = r' := by
  induction l generalizing l' with
  | nil =>
    cases l' with
    | nil => exact ⟨rfl, (List.cons.inj h).2⟩
    | cons c' l' =>
      have hc : ':' = c' := (List.cons.inj h).1
      exact absurd (hc ▸ List.mem_cons_self) hl'
  | cons c l ih =>
    cases l' with
    | nil =>
      have hc : c = ':' := (List.cons.inj h).1
      exact absurd (hc ▸ List.mem_cons_self) hl
    | cons c' l' =>
      obtain ⟨hc, htail⟩ := List.cons.inj h
      have hrest := ih (fun hm => hl (List.mem_cons_of_mem c hm))
        (fun hm => hl' (List.mem_cons_of_mem c' hm)) htail
      exact ⟨by rw [hc, hrest.1], hrest.2⟩

/-- Where no connector has a colon, a command is decided by the rules of its own pair. -/
theorem evaluate_of_no_colon (u : Go.Unicode) {adds : List RuleAddition} {cmd : Policy.Command}
    (hconnector : cmd.connector ≠ "") (hoperation : cmd.operation ≠ "")
    (hcmd : ':' ∉ cmd.connector.toList) (hadds : ∀ a ∈ adds, ':' ∉ a.connector.toList) :
    (addRules adds).evaluate u cmd = .ok () ↔ Allowed u adds cmd := by
  have hkey : ∀ a ∈ adds, a.sharesKey cmd = a.isFor cmd := by
    intro a ha
    rw [Bool.eq_iff_iff]
    constructor
    · intro hshares
      have hlists : a.connector.toList ++ ':' :: a.connectionId.toList =
          cmd.connector.toList ++ ':' :: cmd.connectionId.toList := by
        have heq := congrArg String.toList (of_decide_eq_true hshares)
        simpa [ruleKey] using heq
      obtain ⟨hc, hi⟩ := append_colon_inj (hadds a ha) hcmd hlists
      exact decide_eq_true ⟨String.toList_injective hc, String.toList_injective hi⟩
    · exact RuleAddition.sharesKey_of_isFor
  rw [evaluate_addRules hconnector hoperation, Allowed]
  have hsame : lastAddition (·.sharesKey cmd) adds = lastAddition (·.isFor cmd) adds := by
    unfold lastAddition
    exact List.find?_congr fun a ha => hkey a (List.mem_reverse.1 ha)
  rw [hsame]

/-! ### Two pairs with one key -/

/-- The tables of a rune that folds to itself. -/
def plainUnicode : Go.Unicode := ⟨id, id⟩

/-- A rule for everything on the connection `x` of the connector `db:main`. -/
def everythingOnMain : List RuleAddition := [⟨"db:main", "x", ⟨["*"], [], 0⟩⟩]

/-- A command for a connection of the connector `db`, for which there is no rule. -/
def deleteOnDb : Policy.Command :=
  ⟨"cmd-1", "", "db", "main:x", "delete", "", 0, none, "", ""⟩

theorem not_evaluate_iff_allowed : ¬ ∀ (u : Go.Unicode) (adds : List RuleAddition)
    (cmd : Policy.Command), cmd.connector ≠ "" → cmd.operation ≠ "" →
      ((addRules adds).evaluate u cmd = .ok () ↔ Allowed u adds cmd) := by
  intro hall
  have hok : (addRules everythingOnMain).evaluate plainUnicode deleteOnDb = .ok () := by
    decide +kernel
  obtain ⟨a, ha, -⟩ := (hall plainUnicode everythingOnMain deleteOnDb
    (by decide +kernel) (by decide +kernel)).1 hok
  have hnone : lastAddition (·.isFor deleteOnDb) everythingOnMain = none := by decide +kernel
  rw [hnone] at ha
  cases ha

/-- The same command with a rule of its own pair, added later. -/
theorem evaluate_iff_allowed_own :
    (addRules (everythingOnMain ++ [⟨"db", "main:x", ⟨["select"], [], 0⟩⟩])).evaluate plainUnicode
        deleteOnDb = .ok () ↔
      Allowed plainUnicode (everythingOnMain ++ [⟨"db", "main:x", ⟨["select"], [], 0⟩⟩])
        deleteOnDb := by
  apply (evaluate_iff_allowed_iff plainUnicode _ deleteOnDb (by decide +kernel)
    (by decide +kernel)).2
  intro a ha
  have hlast : lastAddition (·.sharesKey deleteOnDb)
      (everythingOnMain ++ [⟨"db", "main:x", ⟨["select"], [], 0⟩⟩]) =
        some ⟨"db", "main:x", ⟨["select"], [], 0⟩⟩ := rfl
  rw [hlast] at ha
  cases ha
  exact Or.inl (by decide +kernel)

end FlowMesh.Policy
