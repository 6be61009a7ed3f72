import FlowMesh.Enterprise.Outbox
import FlowMesh.Library.Dict

/-!
# Data contracts

`DataPlatformSchemaEngine` (`services/enterprise-worker`): a contract maps fields to the names of
their types. `validateContract` checks a payload against a contract, `detectDrift` compares two
contracts by the names alone. `String.toUpperCase` is a parameter here.

`accepts_iff` and `severity_ne_critical_iff` say what each of the two amounts to; together they give
that drift that is not critical is backward compatible (`backward_compatible`).
-/

namespace FlowMesh.Enterprise

/-! ## Payloads -/

/-- An object, as far as the checks go: what it is an instance of, and its class. -/
structure PayloadValue where
  isCharSequence : Bool := false
  isNumber : Bool := false
  isBoolean : Bool := false
  isMap : Bool := false
  isCollection : Bool := false
  simpleName : String

/-- A contract; `null` is `none`. -/
abbrev Contract : Type := Option (Dict String String)

/-- A payload; `null` is `none`, also as a value. -/
abbrev Payload : Type := Option (Dict String (Option PayloadValue))

/-! ## `validateContract` -/

/-- `ContractValidationResult`. -/
structure ContractValidationResult where
  valid : Bool
  missingFields : List String
  typeViolations : List String
  validatedAt : ℕ

/-- The `switch` over the expected type; a type that is not known takes everything. -/
def typeMatches (expectedType : String) (val : PayloadValue) : Bool :=
  if expectedType ∈ ["STRING", "VARCHAR", "TEXT"] then val.isCharSequence
  else if expectedType ∈ ["NUMBER", "INTEGER", "BIGINT", "LONG"] then val.isNumber
  else if expectedType = "BOOLEAN" then val.isBoolean
  else if expectedType ∈ ["OBJECT", "JSON"] then val.isMap
  else if expectedType ∈ ["ARRAY", "LIST"] then val.isCollection
  else true

section Upper

variable (upper : String → String)

/-- The loop body over the entries of a contract, with the lists `missing` and `violations`. -/
def checkEntry (payload : Dict String (Option PayloadValue)) (acc : List String × List String)
    (entry : String × String) : List String × List String :=
  let expectedType := upper entry.2
  match payload.get? entry.1 with
  | some (some val) =>
    if typeMatches expectedType val then acc
    else (acc.1, acc.2 ++ ["Field '" ++ entry.1 ++ "' expected " ++ expectedType ++
      " but found " ++ val.simpleName])
  | _ => (acc.1 ++ [entry.1], acc.2)

/-- `validateContract`. -/
def validateContract (now : ℕ) (contract : Contract) (payload : Payload) :
    Except JavaException ContractValidationResult :=
  match contract with
  | none => .ok ⟨true, [], [], now⟩
  | some contract =>
    if contract.items = [] then .ok ⟨true, [], [], now⟩
    else
      match payload with
      | none => .error ⟨"java.lang.NullPointerException",
          "Cannot invoke \"java.util.Map.containsKey(Object)\" because \"payload\" is null"⟩
      | some payload =>
        let found := contract.items.foldl (checkEntry upper payload) ([], [])
        .ok ⟨found.1.isEmpty && found.2.isEmpty, found.1, found.2, now⟩

/-! ## `detectDrift` -/

/-- `DriftSeverity`. -/
inductive ContractDrift
  | compatible
  | nonBreakingAdditive
  | criticalBreaking
  deriving DecidableEq

/-- `SchemaDriftReport`. -/
structure ContractDriftReport where
  severity : ContractDrift
  addedFields : List String
  removedFields : List String
  alteredTypes : Dict String String
  analyzedAt : ℕ
  recommendation : String

/-- The loop body over the fields of the incoming contract, with `added` and `altered`. -/
def checkIncoming (baseline : Dict String String) (acc : List String × Dict String String)
    (entry : String × String) : List String × Dict String String :=
  match baseline.get? entry.1 with
  | none => (acc.1 ++ [entry.1], acc.2)
  | some base =>
    let baseType := upper base
    let inType := upper entry.2
    if baseType ≠ inType then (acc.1, acc.2.set entry.1 (baseType ++ " -> " ++ inType)) else acc

/-- `detectDrift`. -/
def detectDrift (now : ℕ) (baseline incoming : Contract) : ContractDriftReport :=
  let baseline := baseline.getD .empty
  let incoming := incoming.getD .empty
  let found := incoming.items.foldl (checkIncoming upper baseline) ([], .empty)
  let removed := baseline.keys.filter fun field => field ∉ incoming.keys
  let (severity, recommendation) :=
    if !removed.isEmpty || !found.2.items.isEmpty then
      (ContractDrift.criticalBreaking, "Reject pipeline ingestion: Downstream consumer queries " ++
        "will fail due to dropped columns or type changes.")
    else if !found.1.isEmpty then
      (.nonBreakingAdditive, "Safe to proceed: Schema expanded with new additive columns. " ++
        "Update metadata catalog.")
    else (.compatible, "Schema contracts match 100%. No evolution actions required.")
  { severity
    addedFields := found.1
    removedFields := removed
    alteredTypes := found.2
    analyzedAt := now
    recommendation }

/-! ## What is accepted -/

/-- `validateContract` accepts the payload. -/
def Accepts (now : ℕ) (contract : Contract) (payload : Payload) : Prop :=
  ∃ result, validateContract upper now contract payload = .ok result ∧ result.valid = true

/-- A payload has a value under a field that matches a type. -/
def Provides (payload : Payload) (field type : String) : Prop :=
  ∃ values val, payload = some values ∧ values.get? field = some (some val) ∧
    typeMatches (upper type) val = true

variable {upper}

/-- The loop finds nothing if every entry is provided. -/
theorem foldl_checkEntry_iff {values : Dict String (Option PayloadValue)}
    (entries : List (String × String)) (acc : List String × List String) :
    entries.foldl (checkEntry upper values) acc = ([], []) ↔
      acc = ([], []) ∧ ∀ e ∈ entries, Provides upper (some values) e.1 e.2 := by
  induction entries generalizing acc with
  | nil => simp
  | cons e entries ih =>
    rw [List.foldl_cons, ih, List.forall_mem_cons, ← and_assoc]
    refine and_congr_left fun _ => ?_
    unfold checkEntry Provides
    cases hget : values.get? e.1 with
    | none => simp [hget]
    | some v =>
      cases v with
      | none => simp [hget]
      | some val =>
        by_cases hmatches : typeMatches (upper e.2) val = true
        · simp [hget, hmatches]
        · simp [hget, hmatches]

/-- **What is accepted**: a payload that provides every field of the contract. -/
theorem accepts_iff {now : ℕ} {contract : Contract} {payload : Payload} :
    Accepts upper now contract payload ↔
      ∀ e ∈ (contract.getD .empty).items, Provides upper payload e.1 e.2 := by
  unfold Accepts validateContract
  cases contract with
  | none => simp [Dict.empty]
  | some contract =>
    show _ ↔ ∀ e ∈ contract.items, _
    dsimp only
    split
    · next hempty => simp [hempty]
    · next hentries =>
      cases payload with
      | none =>
        obtain ⟨e, he⟩ := List.exists_mem_of_ne_nil _ hentries
        refine iff_of_false ?_ fun h => ?_
        · rintro ⟨result, hresult, -⟩
          cases hresult
        · obtain ⟨values, val, hnone, -⟩ := h e he
          cases hnone
      | some values =>
        have hloop := @foldl_checkEntry_iff upper values contract.items ([], [])
        have hnil : (([], []) : List String × List String) = ([], []) := rfl
        rw [← and_iff_right (a := (([], []) : List String × List String) = ([], []))
          (b := ∀ e ∈ contract.items, Provides upper (some values) e.1 e.2) hnil, ← hloop]
        constructor
        · rintro ⟨result, hresult, hvalid⟩
          obtain rfl := Except.ok.inj hresult
          obtain ⟨hmissing, hviolations⟩ := Bool.and_eq_true_iff.1 hvalid
          exact Prod.ext (List.isEmpty_iff.1 hmissing) (List.isEmpty_iff.1 hviolations)
        · intro hfound
          refine ⟨_, rfl, ?_⟩
          dsimp only
          rw [hfound]
          rfl

/-! ## What is not critical -/

theorem items_set_ne_nil {d : Dict String String} (k v : String) : (d.set k v).items ≠ [] :=
  List.ne_nil_of_mem (Dict.mem_items_iff.2 (Dict.get?_set_self k v))

/-- No type is altered if the fields of both contracts have the same types. -/
theorem foldl_checkIncoming_iff {baseline : Dict String String} (entries : List (String × String))
    (acc : List String × Dict String String) :
    (entries.foldl (checkIncoming upper baseline) acc).2.items = [] ↔
      acc.2.items = [] ∧
        ∀ e ∈ entries, ∀ base, baseline.get? e.1 = some base → upper base = upper e.2 := by
  induction entries generalizing acc with
  | nil => simp
  | cons e entries ih =>
    rw [List.foldl_cons, ih, List.forall_mem_cons, ← and_assoc]
    refine and_congr_left fun _ => ?_
    unfold checkIncoming
    cases baseline.get? e.1 with
    | none => simp
    | some base =>
      dsimp only
      split
      · next hne =>
        refine iff_of_false (items_set_ne_nil _ _) ?_
        rintro ⟨-, hsame⟩
        exact hne (hsame base rfl)
      · next hsame => simp [not_not.1 hsame]

/-- **What is not critical**: an incoming contract that keeps every field of the baseline, with the
same type up to case. -/
theorem severity_ne_critical_iff {now : ℕ} {baseline incoming : Contract} :
    (detectDrift upper now baseline incoming).severity ≠ .criticalBreaking ↔
      ∀ e ∈ (baseline.getD .empty).items, ∃ type, (incoming.getD .empty).get? e.1 = some type ∧
        upper e.2 = upper type := by
  generalize hbase : baseline.getD .empty = base
  generalize hincoming : incoming.getD .empty = inc
  have hseverity : (detectDrift upper now baseline incoming).severity ≠ .criticalBreaking ↔
      base.keys.filter (fun field => field ∉ inc.keys) = [] ∧
        (inc.items.foldl (checkIncoming upper base) ([], .empty)).2.items = [] := by
    unfold detectDrift
    rw [hbase, hincoming, ← List.isEmpty_iff, ← List.isEmpty_iff]
    dsimp only
    cases (base.keys.filter fun field => field ∉ inc.keys).isEmpty
    · simp
    cases (inc.items.foldl (checkIncoming upper base) ([], .empty)).2.items.isEmpty
    · simp
    · cases (inc.items.foldl (checkIncoming upper base) ([], .empty)).1.isEmpty <;> simp
  rw [hseverity, foldl_checkIncoming_iff, List.filter_eq_nil_iff]
  constructor
  · rintro ⟨hkeys, -, htypes⟩ e he
    have hkey : e.1 ∈ inc.keys := by
      simpa using hkeys e.1 (List.mem_map_of_mem he)
    obtain ⟨type, htype⟩ := Dict.mem_keys_iff.1 hkey
    exact ⟨type, htype, htypes (e.1, type) (Dict.mem_items_iff.2 htype) e.2
      (Dict.mem_items_iff.1 he)⟩
  · intro h
    refine ⟨fun field hfield => ?_, rfl, fun e he base' hbase' => ?_⟩
    · obtain ⟨type, htype⟩ := Dict.mem_keys_iff.1 hfield
      obtain ⟨type', htype', -⟩ := h (field, type) (Dict.mem_items_iff.2 htype)
      have hkey : field ∈ inc.keys := Dict.mem_keys_iff.2 ⟨type', htype'⟩
      simpa using hkey
    · obtain ⟨type, htype, hsame⟩ := h (e.1, base') (Dict.mem_items_iff.2 hbase')
      rw [hsame]
      exact congrArg upper (Option.some.inj (htype.symm.trans (Dict.mem_items_iff.1 he)))

/-- **Drift that is not critical is backward compatible**: what is accepted under the incoming
contract is accepted under the baseline; a contract accepts what provides all of its fields. -/
theorem backward_compatible (upper : String → String) (now : ℕ) (baseline incoming : Contract)
    (h : (detectDrift upper now baseline incoming).severity ≠ .criticalBreaking)
    (payload : Payload) (haccepts : Accepts upper now incoming payload) :
    Accepts upper now baseline payload ∧ ∀ contract, Accepts upper now contract payload ↔
      ∀ e ∈ (contract.getD .empty).items, Provides upper payload e.1 e.2 := by
  refine ⟨?_, fun contract => accepts_iff⟩
  rw [accepts_iff] at haccepts ⊢
  intro e he
  obtain ⟨type, htype, hsame⟩ := severity_ne_critical_iff.1 h e he
  obtain ⟨values, val, hvalues, hval, hmatches⟩ := haccepts (e.1, type) (Dict.mem_items_iff.2 htype)
  rw [← hsame] at hmatches
  exact ⟨values, val, hvalues, hval, hmatches⟩

/-- ASCII letters in upper case. -/
def upperLetters (s : String) : String := String.ofList (s.toList.map Char.toUpper)

/-- A contract for amounts. -/
def amounts : Dict String String := ⟨[("amount", "NUMBER")], List.nodup_singleton _⟩

/-- The same contract in small letters, with a further field. -/
def annotatedAmounts : Dict String String :=
  ⟨[("amount", "number"), ("note", "text")], by decide⟩

/-- A payload with both fields. -/
def annotatedPayload : Dict String (Option PayloadValue) :=
  ⟨[("amount", some { isNumber := true, simpleName := "Integer" }),
    ("note", some { isCharSequence := true, simpleName := "String" })], by decide⟩

theorem provides_annotatedPayload : ∀ e ∈ annotatedAmounts.items,
    Provides upperLetters (some annotatedPayload) e.1 e.2 := by
  intro e he
  rcases List.mem_pair.1 he with rfl | rfl
  · exact ⟨_, _, rfl, Dict.mem_items_iff.1 List.mem_cons_self, by decide +kernel⟩
  · exact ⟨_, _, rfl, Dict.mem_items_iff.1 (List.mem_cons_of_mem _ List.mem_cons_self),
      by decide +kernel⟩

theorem severity_annotatedAmounts : (detectDrift upperLetters 0 (some amounts)
    (some annotatedAmounts)).severity ≠ .criticalBreaking := by
  refine severity_ne_critical_iff.2 fun e he => ?_
  obtain rfl : e = ("amount", "NUMBER") := List.mem_singleton.1 he
  exact ⟨"number", Dict.mem_items_iff.1 List.mem_cons_self, by decide +kernel⟩

/-- A payload with a note is accepted without it. -/
theorem backward_compatible_amounts :
    Accepts upperLetters 0 (some amounts) (some annotatedPayload) :=
  (backward_compatible upperLetters 0 (some amounts) (some annotatedAmounts)
    severity_annotatedAmounts (some annotatedPayload) (accepts_iff.2 provides_annotatedPayload)).1

end Upper

end FlowMesh.Enterprise
