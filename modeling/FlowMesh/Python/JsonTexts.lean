import FlowMesh.Library.Dict
import FlowMesh.Python.JsonLetters

/-!
# JSON texts of values

`json.dumps` and `json.loads` on whole values: the tokens of `json.dump` as letters, and back. A
key that stands twice in an object is read once, with its last value (`Data.collected`).

`jsonLoads_jsonDumps` is the round trip, for every spelling.
-/

namespace Python

/-! ## Dictionaries -/

mutual

/-- Every object as `dict(pairs)`: the last value of a key, in the place of its first. -/
def Data.collected : Data → Data
  | .null => .null
  | .bool b => .bool b
  | .int n => .int n
  | .float x => .float x
  | .str s => .str s
  | .list l => .list (collectedItems l)
  | .dict items => .dict (Dict.collect Prod.fst (collectedFields items)).values
  | .object typeName => .object typeName
termination_by structural v => v

/-- The items of a list. -/
def Data.collectedItems : List Data → List Data
  | [] => []
  | v :: l => v.collected :: collectedItems l
termination_by structural l => l

/-- The items of a dictionary. -/
def Data.collectedFields : List (String × Data) → List (String × Data)
  | [] => []
  | p :: items => collectedField p :: collectedFields items
termination_by structural items => items

/-- An item of a dictionary. -/
def Data.collectedField : String × Data → String × Data
  | (k, v) => (k, v.collected)
termination_by structural p => p

end

mutual

/-- Every dictionary has every key once. -/
def Data.Distinct : Data → Prop
  | .list l => DistinctItems l
  | .dict items => (items.map Prod.fst).Nodup ∧ DistinctFields items
  | _ => True
termination_by structural v => v

/-- The items of a list. -/
def Data.DistinctItems : List Data → Prop
  | [] => True
  | v :: l => v.Distinct ∧ DistinctItems l
termination_by structural l => l

/-- The items of a dictionary. -/
def Data.DistinctFields : List (String × Data) → Prop
  | [] => True
  | p :: items => DistinctField p ∧ DistinctFields items
termination_by structural items => items

/-- An item of a dictionary. -/
def Data.DistinctField : String × Data → Prop
  | (_, v) => v.Distinct
termination_by structural p => p

end

mutual

theorem Data.collected_of_distinct (v : Data) (h : v.Distinct) : v.collected = v := by
  cases v with
  | null | bool _ | int _ | float _ | str _ | object _ => rfl
  | list l => rw [collected, collectedItems_of_distinct l h]
  | dict items =>
    obtain ⟨hkeys, hfields⟩ := h
    have hitems : (Dict.collect Prod.fst items).items = items.map fun p => (p.1, p) :=
      Dict.items_collect hkeys
    rw [collected, collectedFields_of_distinct items hfields, Dict.values, hitems, List.map_map]
    exact congrArg _ (List.map_id items)

theorem Data.collectedItems_of_distinct (l : List Data) (h : DistinctItems l) :
    collectedItems l = l := by
  cases l with
  | nil => rfl
  | cons v l =>
    rw [collectedItems, collected_of_distinct v h.1, collectedItems_of_distinct l h.2]

theorem Data.collectedFields_of_distinct (items : List (String × Data)) (h : DistinctFields items) :
    collectedFields items = items := by
  cases items with
  | nil => rfl
  | cons p items =>
    rw [collectedFields, collectedField_of_distinct p h.1, collectedFields_of_distinct items h.2]

theorem Data.collectedField_of_distinct (p : String × Data) (h : DistinctField p) :
    collectedField p = p := by
  obtain ⟨k, v⟩ := p
  rw [collectedField, collected_of_distinct v h]

end

/-! ## Tokens of values -/

/-- What ends a value follows, or nothing. -/
def EndsValue (rest : List Token) : Prop := ∀ t, rest.head? = some t → t.closes = true

theorem spaced_cons {t : Token} {rest : List Token} (h : Spaced rest) (hends : EndsValue rest) :
    Spaced (t :: rest) := ⟨fun _ => hends, h⟩

theorem spaced_separator {t : Token} {rest : List Token} (ht : t.isNumber = false)
    (h : Spaced rest) : Spaced (t :: rest) := by
  refine ⟨fun hnumber => ?_, h⟩
  rw [ht] at hnumber
  cases hnumber

/-- A separator, or what follows the last item. -/
theorem endsValue_dumpItems {l : List Data} (h : (dumpItems false l).error = none)
    {rest : List Token} (hends : EndsValue rest) :
    EndsValue ((dumpItems false l).tokens ++ rest) := by
  cases l with
  | nil => exact hends
  | cons v l =>
    obtain ⟨-, hrest⟩ := Written.andThen_ok_iff.1 h
    rw [dumpItems_cons (Written.andThen_ok_iff.1 hrest).1]
    rintro t ht
    cases ht
    rfl

theorem endsValue_dumpFields {items : List (String × Data)}
    (h : (dumpFields false items).error = none) {rest : List Token} (hends : EndsValue rest) :
    EndsValue ((dumpFields false items).tokens ++ rest) := by
  cases items with
  | nil => exact hends
  | cons p items =>
    obtain ⟨k, v⟩ := p
    obtain ⟨-, hrest⟩ := Written.andThen_ok_iff.1 h
    have hv := (Written.andThen_ok_iff.1 (Written.andThen_ok_iff.1 hrest).1).2
    rw [dumpFields_cons hv]
    rintro t ht
    cases ht
    rfl

mutual

theorem spaced_dump (v : Data) (h : v.Serialisable) {rest : List Token} (hrest : Spaced rest)
    (hends : EndsValue rest) : Spaced ((dump v).tokens ++ rest) := by
  cases v with
  | null | bool _ | int _ | float _ | str _ => exact spaced_cons hrest hends
  | object typeName => cases h
  | list l =>
    obtain ⟨hitems, -⟩ := Written.andThen_ok_iff.1 (Written.andThen_ok_iff.1 h).2
    have hclose : EndsValue (.rbracket :: rest) := by simp [EndsValue, Token.closes]
    rw [dump_list hitems, List.cons_append, List.append_assoc]
    exact spaced_separator rfl
      (spaced_dumpItems l true hitems (spaced_separator rfl hrest) hclose)
  | dict items =>
    obtain ⟨hitems, -⟩ := Written.andThen_ok_iff.1 (Written.andThen_ok_iff.1 h).2
    have hclose : EndsValue (.rbrace :: rest) := by simp [EndsValue, Token.closes]
    rw [dump_dict hitems, List.cons_append, List.append_assoc]
    exact spaced_separator rfl
      (spaced_dumpFields items true hitems (spaced_separator rfl hrest) hclose)

theorem spaced_dumpItems (l : List Data) (first : Bool) (h : (dumpItems first l).error = none)
    {rest : List Token} (hrest : Spaced rest) (hends : EndsValue rest) :
    Spaced ((dumpItems first l).tokens ++ rest) := by
  cases l with
  | nil => exact hrest
  | cons v l =>
    obtain ⟨hv, hl⟩ := Written.andThen_ok_iff.1 (Written.andThen_ok_iff.1 h).2
    rw [dumpItems_cons hv, List.append_assoc, List.append_assoc]
    have hvalue := spaced_dump v hv (spaced_dumpItems l false hl hrest hends)
      (endsValue_dumpItems hl hends)
    cases first
    · exact spaced_separator rfl hvalue
    · exact hvalue

theorem spaced_dumpFields (items : List (String × Data)) (first : Bool)
    (h : (dumpFields first items).error = none) {rest : List Token} (hrest : Spaced rest)
    (hends : EndsValue rest) : Spaced ((dumpFields first items).tokens ++ rest) := by
  cases items with
  | nil => exact hrest
  | cons p items =>
    obtain ⟨hp, hl⟩ := Written.andThen_ok_iff.1 (Written.andThen_ok_iff.1 h).2
    have hfield := spaced_dumpField p hp (spaced_dumpFields items false hl hrest hends)
      (endsValue_dumpFields hl hends)
    rw [dumpFields, Written.andThen_of_ok rfl, Written.andThen_of_ok hp, List.append_assoc,
      List.append_assoc]
    cases first
    · exact spaced_separator rfl hfield
    · exact hfield

theorem spaced_dumpField (p : String × Data) (h : (dumpField p).error = none) {rest : List Token}
    (hrest : Spaced rest) (hends : EndsValue rest) : Spaced ((dumpField p).tokens ++ rest) := by
  obtain ⟨k, v⟩ := p
  have hv := (Written.andThen_ok_iff.1 h).2
  rw [dumpField, Written.andThen_of_ok rfl]
  exact spaced_separator rfl (spaced_separator rfl (spaced_dump v hv hrest hends))

end

/-! ## Texts -/

/-- `json.dumps`. -/
def jsonDumps (sp : Spelling) (v : Data) : Except PyError String :=
  match (dump v).error with
  | none => .ok (String.ofList (sp.spell (dump v).tokens))
  | some e => .error e

/-- `json.loads`. -/
def jsonLoads (float : String → PyFloat) (text : String) : Except PyError Data :=
  match tokens? float text.toList with
  | none => .error ⟨.valueError, "Expecting value"⟩
  | some ts => (load ts).map Data.collected

/-- The floats of a value are read back from their `repr`. -/
def Data.Legible (float : String → PyFloat) (v : Data) : Prop :=
  ∀ t ∈ (dump v).tokens, t.Legible float

theorem legible_token {float : String → PyFloat} {v : Data} {t : Token}
    (hdump : (dump v).tokens = [t]) (ht : t.Legible float) : v.Legible float := by
  intro t' ht'
  rw [hdump, List.mem_singleton] at ht'
  rwa [ht']

theorem legible_list {float : String → PyFloat} {l : List Data}
    (h : ∀ v ∈ l, v.Serialisable ∧ v.Legible float) : (Data.list l).Legible float := by
  have hitems : ∀ first, ∀ t ∈ (dumpItems first l).tokens, t.Legible float := by
    induction l with
    | nil => simp [dumpItems]
    | cons v l ih =>
      obtain ⟨⟨hv, hlegible⟩, hl⟩ := List.forall_mem_cons.1 h
      intro first t ht
      rw [dumpItems_cons hv, List.mem_append, List.mem_append] at ht
      rcases ht with ht | ht | ht
      · cases first <;> simp [separator] at ht
        rw [ht]
        trivial
      · exact hlegible t ht
      · exact ih hl false t ht
  have hserialisable := serialisable_list.2 fun v hv => (h v hv).1
  intro t ht
  rw [dump_list (Written.andThen_ok_iff.1 (Written.andThen_ok_iff.1 hserialisable).2).1] at ht
  simp only [List.mem_cons, List.mem_append, List.not_mem_nil, or_false] at ht
  rcases ht with rfl | ht | rfl
  · trivial
  · exact hitems true t ht
  · trivial

theorem legible_dict {float : String → PyFloat} {items : List (String × Data)}
    (h : ∀ p ∈ items, p.2.Serialisable ∧ p.2.Legible float) :
    (Data.dict items).Legible float := by
  have hfields : ∀ first, ∀ t ∈ (dumpFields first items).tokens, t.Legible float := by
    induction items with
    | nil => simp [dumpFields]
    | cons p items ih =>
      obtain ⟨k, v⟩ := p
      obtain ⟨⟨hv, hlegible⟩, hl⟩ := List.forall_mem_cons.1 h
      intro first t ht
      rw [dumpFields_cons hv, List.mem_append, List.mem_cons, List.mem_cons, List.mem_append] at ht
      rcases ht with ht | rfl | rfl | ht | ht
      · cases first <;> simp [separator] at ht
        rw [ht]
        trivial
      · trivial
      · trivial
      · exact hlegible t ht
      · exact ih hl false t ht
  have hserialisable := serialisable_dict.2 fun p hp => (h p hp).1
  intro t ht
  rw [dump_dict (Written.andThen_ok_iff.1 (Written.andThen_ok_iff.1 hserialisable).2).1] at ht
  simp only [List.mem_cons, List.mem_append, List.not_mem_nil, or_false] at ht
  rcases ht with rfl | ht | rfl
  · trivial
  · exact hfields true t ht
  · trivial

/-- The tokens of a value are read from its text. -/
theorem tokens?_dump {float : String → PyFloat} (sp : Spelling) {v : Data} (h : v.Serialisable)
    (hlegible : v.Legible float) :
    tokens? float (sp.spell (dump v).tokens) = some (dump v).tokens := by
  have hspaced : Spaced ((dump v).tokens ++ []) := spaced_dump v h trivial fun t ht => by cases ht
  rw [List.append_nil] at hspaced
  exact tokens?_spell sp hspaced hlegible

/-- **What was dumped is loaded**, for every spelling. -/
theorem jsonLoads_jsonDumps {float : String → PyFloat} (sp : Spelling) {v : Data}
    (h : v.Serialisable) (hdistinct : v.Distinct) (hlegible : v.Legible float) :
    (jsonDumps sp v).bind (jsonLoads float) = .ok v := by
  have herror : (dump v).error = none := h
  have hloads : jsonLoads float (String.ofList (sp.spell (dump v).tokens)) = .ok v := by
    rw [jsonLoads, String.toList_ofList, tokens?_dump sp h hlegible]
    simp only
    rw [load_dump h]
    exact congrArg _ (v.collected_of_distinct hdistinct)
  rw [jsonDumps, herror]
  exact hloads

end Python
