import FlowMesh.Python.Value

/-!
# JSON files

`json.dump` writes a value piece by piece, and raises in the middle where it comes to an object
that it does not know; what it has written by then is in the file (`dump`). `json.load` reads a
file to its end (`load`). A file is the list of its tokens here: white space, and the letters of
the tokens, are left out, and the keys of a dictionary are distinct where it was written. A tuple,
which is read as a list, and a key that is no text, which is read as one, are left out of `Data`.

`load_dump` says that what was written is read again, `load_of_incomplete` that no file is read
that ends before the value does.
-/

namespace Python

/-- What `json.dump` is given: `object` is a value that it does not know. -/
inductive Data
  | null
  | bool (b : Bool)
  | int (n : ℤ)
  | float (x : PyFloat)
  | str (s : String)
  | list (l : List Data)
  | dict (items : List (String × Data))
  | object (typeName : String)

/-- `bool(v)`. -/
def Data.truthy : Data → Bool
  | .null => false
  | .bool b => b
  | .int n => n ≠ 0
  | .float x => x.val ≠ .finite 0
  | .str s => s ≠ ""
  | .list l => !l.isEmpty
  | .dict items => !items.isEmpty
  | .object _ => true

/-- The tokens of a file. -/
inductive Token
  | lbracket
  | rbracket
  | lbrace
  | rbrace
  | comma
  | colon
  | null
  | bool (b : Bool)
  | int (n : ℤ)
  | float (x : PyFloat)
  | str (s : String)
  deriving DecidableEq

/-! ## Writing -/

/-- What was written, and the exception that ended it. -/
structure Written where
  tokens : List Token
  error : Option PyError := none

namespace Written

/-- Write on, unless something was raised. -/
def andThen (w w' : Written) : Written :=
  match w.error with
  | none => ⟨w.tokens ++ w'.tokens, w'.error⟩
  | some _ => w

theorem andThen_of_ok {w : Written} (hw : w.error = none) (w' : Written) :
    w.andThen w' = ⟨w.tokens ++ w'.tokens, w'.error⟩ := by
  unfold andThen
  rw [hw]

theorem andThen_ok_iff {w w' : Written} :
    (w.andThen w').error = none ↔ w.error = none ∧ w'.error = none := by
  unfold andThen
  cases hw : w.error <;> simp [hw]

end Written

/-- The separator before an item that is not the first. -/
def separator (first : Bool) : Written := ⟨if first then [] else [.comma], none⟩

mutual

/-- `json.dump`. -/
def dump : Data → Written
  | .null => ⟨[.null], none⟩
  | .bool b => ⟨[.bool b], none⟩
  | .int n => ⟨[.int n], none⟩
  | .float x => ⟨[.float x], none⟩
  | .str s => ⟨[.str s], none⟩
  | .list l => (Written.mk [.lbracket] none).andThen
      ((dumpItems true l).andThen ⟨[.rbracket], none⟩)
  | .dict items => (Written.mk [.lbrace] none).andThen
      ((dumpFields true items).andThen ⟨[.rbrace], none⟩)
  | .object typeName =>
    ⟨[], some ⟨.typeError, "Object of type " ++ typeName ++ " is not JSON serializable"⟩⟩
termination_by structural v => v

/-- The items of a list. -/
def dumpItems (first : Bool) : List Data → Written
  | [] => ⟨[], none⟩
  | v :: l => (separator first).andThen ((dump v).andThen (dumpItems false l))
termination_by structural l => l

/-- The items of a dictionary. -/
def dumpFields (first : Bool) : List (String × Data) → Written
  | [] => ⟨[], none⟩
  | p :: items => (separator first).andThen ((dumpField p).andThen (dumpFields false items))
termination_by structural items => items

/-- An item of a dictionary. -/
def dumpField : String × Data → Written
  | (k, v) => (Written.mk [.str k, .colon] none).andThen (dump v)
termination_by structural p => p

end

/-- All that `json.dump` is given is known to it. -/
def Data.Serialisable (v : Data) : Prop := (dump v).error = none

/-- A list is known to `json.dump` if all its items are. -/
theorem serialisable_list {l : List Data} :
    (Data.list l).Serialisable ↔ ∀ v ∈ l, v.Serialisable := by
  have hitems : ∀ first, (dumpItems first l).error = none ↔ ∀ v ∈ l, v.Serialisable := by
    induction l with
    | nil => simp [dumpItems]
    | cons v l ih =>
      intro first
      rw [dumpItems, Written.andThen_ok_iff, Written.andThen_ok_iff, ih false,
        List.forall_mem_cons]
      simp [separator, Data.Serialisable]
  unfold Data.Serialisable
  rw [dump, Written.andThen_ok_iff, Written.andThen_ok_iff, hitems]
  simp [Data.Serialisable]

/-- A dictionary is known to `json.dump` if all its values are. -/
theorem serialisable_dict {items : List (String × Data)} :
    (Data.dict items).Serialisable ↔ ∀ p ∈ items, p.2.Serialisable := by
  have hfields : ∀ first, (dumpFields first items).error = none ↔
      ∀ p ∈ items, p.2.Serialisable := by
    induction items with
    | nil => simp [dumpFields]
    | cons p items ih =>
      intro first
      have hfield : (dumpField p).error = none ↔ p.2.Serialisable := by
        rw [dumpField, Written.andThen_ok_iff]
        simp [Data.Serialisable]
      rw [dumpFields, Written.andThen_ok_iff, Written.andThen_ok_iff, ih false,
        List.forall_mem_cons, hfield]
      simp [separator]
  unfold Data.Serialisable
  rw [dump, Written.andThen_ok_iff, Written.andThen_ok_iff, hfields]
  simp [Data.Serialisable]

/-! ### The tokens of a value -/

section ValueTokens

variable {l : List Data} {items : List (String × Data)}

theorem dump_list (h : (dumpItems true l).error = none) :
    (dump (.list l)).tokens = .lbracket :: ((dumpItems true l).tokens ++ [.rbracket]) := by
  rw [dump, Written.andThen_of_ok rfl, Written.andThen_of_ok h]
  rfl

theorem dump_dict (h : (dumpFields true items).error = none) :
    (dump (.dict items)).tokens = .lbrace :: ((dumpFields true items).tokens ++ [.rbrace]) := by
  rw [dump, Written.andThen_of_ok rfl, Written.andThen_of_ok h]
  rfl

theorem dumpItems_cons {v : Data} (h : v.Serialisable) (first : Bool) :
    (dumpItems first (v :: l)).tokens =
      (separator first).tokens ++ ((dump v).tokens ++ (dumpItems false l).tokens) := by
  rw [dumpItems, Written.andThen_of_ok rfl, Written.andThen_of_ok h]

theorem dumpFields_cons {k : String} {v : Data} (h : v.Serialisable) (first : Bool) :
    (dumpFields first ((k, v) :: items)).tokens = (separator first).tokens ++
      (.str k :: .colon :: ((dump v).tokens ++ (dumpFields false items).tokens)) := by
  have hfield : dumpField (k, v) = ⟨.str k :: .colon :: (dump v).tokens, none⟩ := by
    rw [dumpField, Written.andThen_of_ok rfl]
    exact congrArg _ h
  rw [dumpFields, Written.andThen_of_ok rfl, hfield, Written.andThen_of_ok rfl]
  rfl

end ValueTokens

/-! ## Reading -/

/-- The tokens behind a separator, which the first item does not have. -/
def skipSeparator (first : Bool) (ts : List Token) : Option (List Token) :=
  if first then some ts
  else match ts with
    | .comma :: ts => some ts
    | _ => none

mutual

/-- Read a value. -/
def parse : ℕ → List Token → Option (Data × List Token)
  | 0, _ => none
  | _ + 1, [] => none
  | fuel + 1, t :: ts =>
    match t with
    | .null => some (.null, ts)
    | .bool b => some (.bool b, ts)
    | .int n => some (.int n, ts)
    | .float x => some (.float x, ts)
    | .str s => some (.str s, ts)
    | .lbracket => (parseItems fuel true ts).map fun r => (.list r.1, r.2)
    | .lbrace => (parseFields fuel true ts).map fun r => (.dict r.1, r.2)
    | _ => none
termination_by structural fuel => fuel

/-- Read items up to the end of their list. -/
def parseItems : ℕ → Bool → List Token → Option (List Data × List Token)
  | 0, _, _ => none
  | fuel + 1, first, ts =>
    if ts.head? = some .rbracket then some ([], ts.tail)
    else
      (skipSeparator first ts).bind fun ts =>
        (parse fuel ts).bind fun r =>
          (parseItems fuel false r.2).map fun rs => (r.1 :: rs.1, rs.2)
termination_by structural fuel => fuel

/-- Read items up to the end of their dictionary. -/
def parseFields : ℕ → Bool → List Token → Option (List (String × Data) × List Token)
  | 0, _, _ => none
  | fuel + 1, first, ts =>
    if ts.head? = some .rbrace then some ([], ts.tail)
    else
      (skipSeparator first ts).bind fun ts =>
        (parseField fuel ts).bind fun r =>
          (parseFields fuel false r.2).map fun rs => (r.1 :: rs.1, rs.2)
termination_by structural fuel => fuel

/-- Read a key and its value. -/
def parseField : ℕ → List Token → Option ((String × Data) × List Token)
  | 0, _ => none
  | fuel + 1, ts =>
    match ts with
    | .str k :: .colon :: ts => (parse fuel ts).map fun r => ((k, r.1), r.2)
    | _ => none
termination_by structural fuel => fuel

end

/-- `json.load`. -/
def load (ts : List Token) : Except PyError Data :=
  match parse (2 * ts.length) ts with
  | some (v, []) => .ok v
  | _ => .error ⟨.valueError, "Expecting value"⟩

/-! ## What was written is read -/

theorem dump_head (v : Data) : (dump v).tokens.head? ≠ some .rbracket ∧
    (dump v).tokens.head? ≠ some .rbrace := by
  cases v <;> simp [dump, Written.andThen]

theorem length_dump_pos {v : Data} (h : v.Serialisable) : 0 < (dump v).tokens.length := by
  cases v <;> simp_all [dump, Written.andThen, Data.Serialisable]

theorem dumpField_tokens (p : String × Data) :
    ∃ ts, (dumpField p).tokens = .str p.1 :: .colon :: ts := by
  obtain ⟨k, v⟩ := p
  rw [dumpField, Written.andThen_of_ok rfl]
  exact ⟨(dump v).tokens, rfl⟩

theorem skipSeparator_separator (first : Bool) (ts : List Token) :
    skipSeparator first ((separator first).tokens ++ ts) = some ts := by
  cases first <;> rfl

mutual

theorem parse_dump (v : Data) (h : v.Serialisable) {fuel : ℕ}
    (hfuel : 2 * (dump v).tokens.length ≤ fuel) (rest : List Token) :
    parse fuel ((dump v).tokens ++ rest) = some (v, rest) := by
  have hpos := length_dump_pos h
  obtain ⟨k, rfl⟩ : ∃ k, fuel = k + 1 := ⟨fuel - 1, by omega⟩
  cases v with
  | null => rfl
  | bool b => rfl
  | int n => rfl
  | float x => rfl
  | str s => rfl
  | object typeName => cases h
  | list l =>
    obtain ⟨-, hrest⟩ := Written.andThen_ok_iff.1 h
    obtain ⟨hitems, -⟩ := Written.andThen_ok_iff.1 hrest
    rw [dump_list hitems] at hfuel ⊢
    simp only [List.length_cons, List.length_append, List.length_nil] at hfuel
    have hk : 2 * (dumpItems true l).tokens.length + 1 ≤ k := by omega
    have hparse := parseItems_dumpItems l true hitems hk rest
    simp only [List.cons_append, List.append_assoc, List.nil_append, parse]
    rw [hparse]
    rfl
  | dict items =>
    obtain ⟨-, hrest⟩ := Written.andThen_ok_iff.1 h
    obtain ⟨hitems, -⟩ := Written.andThen_ok_iff.1 hrest
    rw [dump_dict hitems] at hfuel ⊢
    simp only [List.length_cons, List.length_append, List.length_nil] at hfuel
    have hk : 2 * (dumpFields true items).tokens.length + 1 ≤ k := by omega
    have hparse := parseFields_dumpFields items true hitems hk rest
    simp only [List.cons_append, List.append_assoc, List.nil_append, parse]
    rw [hparse]
    rfl

theorem parseItems_dumpItems (l : List Data) (first : Bool) (h : (dumpItems first l).error = none)
    {fuel : ℕ} (hfuel : 2 * (dumpItems first l).tokens.length + 1 ≤ fuel) (rest : List Token) :
    parseItems fuel first ((dumpItems first l).tokens ++ .rbracket :: rest) = some (l, rest) := by
  obtain ⟨k, rfl⟩ : ∃ k, fuel = k + 1 := ⟨fuel - 1, by omega⟩
  cases l with
  | nil => rfl
  | cons v l =>
    obtain ⟨-, hrest⟩ := Written.andThen_ok_iff.1 h
    obtain ⟨hv, hl⟩ := Written.andThen_ok_iff.1 hrest
    have hpos := length_dump_pos hv
    rw [dumpItems_cons hv] at hfuel ⊢
    simp only [List.length_append] at hfuel
    have hhead : ((separator first).tokens ++ ((dump v).tokens ++ (dumpItems false l).tokens) ++
        Token.rbracket :: rest).head? ≠ some .rbracket := by
      cases first
      · simp [separator]
      · have hne := (dump_head v).1
        cases hd : (dump v).tokens with
        | nil => simp [hd] at hpos
        | cons t ts => simpa [separator, hd] using hne
    unfold parseItems
    rw [if_neg hhead, List.append_assoc, skipSeparator_separator, Option.bind_some,
      List.append_assoc, parse_dump v hv (by omega), Option.bind_some,
      parseItems_dumpItems l false hl (by omega)]
    rfl

theorem parseFields_dumpFields (items : List (String × Data)) (first : Bool)
    (h : (dumpFields first items).error = none) {fuel : ℕ}
    (hfuel : 2 * (dumpFields first items).tokens.length + 1 ≤ fuel) (rest : List Token) :
    parseFields fuel first ((dumpFields first items).tokens ++ .rbrace :: rest) =
      some (items, rest) := by
  obtain ⟨k, rfl⟩ : ∃ k, fuel = k + 1 := ⟨fuel - 1, by omega⟩
  cases items with
  | nil => rfl
  | cons p items =>
    obtain ⟨-, hrest⟩ := Written.andThen_ok_iff.1 h
    obtain ⟨hp, hl⟩ := Written.andThen_ok_iff.1 hrest
    have htokens : (dumpFields first (p :: items)).tokens =
        (separator first).tokens ++ ((dumpField p).tokens ++ (dumpFields false items).tokens) := by
      rw [dumpFields, Written.andThen_of_ok rfl, Written.andThen_of_ok hp]
    rw [htokens] at hfuel ⊢
    simp only [List.length_append] at hfuel
    obtain ⟨ts, hts⟩ := dumpField_tokens p
    have hhead : ((separator first).tokens ++ ((dumpField p).tokens ++
        (dumpFields false items).tokens) ++ Token.rbrace :: rest).head? ≠ some .rbrace := by
      cases first <;> simp [separator, hts]
    have hpos : 0 < (dumpField p).tokens.length := by simp [hts]
    unfold parseFields
    rw [if_neg hhead, List.append_assoc, skipSeparator_separator, Option.bind_some,
      List.append_assoc, parseField_dumpField p hp (by omega), Option.bind_some,
      parseFields_dumpFields items false hl (by omega)]
    rfl

theorem parseField_dumpField (p : String × Data) (h : (dumpField p).error = none) {fuel : ℕ}
    (hfuel : 2 * (dumpField p).tokens.length ≤ fuel) (rest : List Token) :
    parseField fuel ((dumpField p).tokens ++ rest) = some (p, rest) := by
  obtain ⟨k, v⟩ := p
  obtain ⟨-, hv⟩ := Written.andThen_ok_iff.1 h
  have htokens : (dumpField (k, v)).tokens = .str k :: .colon :: (dump v).tokens := by
    rw [dumpField, Written.andThen_of_ok rfl]
    rfl
  rw [htokens] at hfuel ⊢
  simp only [List.length_cons] at hfuel
  obtain ⟨n, rfl⟩ : ∃ n, fuel = n + 1 := ⟨fuel - 1, by omega⟩
  simp only [List.cons_append, parseField]
  rw [parse_dump v hv (by omega)]
  rfl

end

/-- What was written is read again. -/
theorem load_dump {v : Data} (h : v.Serialisable) : load (dump v).tokens = .ok v := by
  have hparse := parse_dump v h le_rfl []
  rw [List.append_nil] at hparse
  unfold load
  rw [hparse]

/-! ## A file that ends too early -/

/-- How much deeper one is behind a token. -/
def Token.rise : Token → ℤ
  | .lbracket | .lbrace => 1
  | .rbracket | .rbrace => -1
  | _ => 0

/-- How deep one is behind tokens. -/
def depth (ts : List Token) : ℤ := (ts.map Token.rise).sum

@[simp] theorem depth_nil : depth [] = 0 := rfl

@[simp] theorem depth_cons (t : Token) (ts : List Token) : depth (t :: ts) = t.rise + depth ts :=
  List.sum_cons

@[simp] theorem depth_append (ts ts' : List Token) : depth (ts ++ ts') = depth ts + depth ts' := by
  simp [depth]

/-- Reading a value leaves the depth as it is, reading the end of a list or dictionary is one
less. -/
theorem depth_of_parse (fuel : ℕ) :
    (∀ ts v rest, parse fuel ts = some (v, rest) → depth rest = depth ts) ∧
      (∀ first ts l rest, parseItems fuel first ts = some (l, rest) →
        depth rest = depth ts + 1) ∧
      (∀ first ts items rest, parseFields fuel first ts = some (items, rest) →
        depth rest = depth ts + 1) ∧
      (∀ ts p rest, parseField fuel ts = some (p, rest) → depth rest = depth ts) := by
  induction fuel with
  | zero => simp [parse, parseItems, parseFields, parseField]
  | succ fuel ih =>
    obtain ⟨ihvalue, ihitems, ihfields, ihfield⟩ := ih
    have hskip : ∀ {first ts ts'}, skipSeparator first ts = some ts' → depth ts' = depth ts := by
      intro first ts ts' h
      unfold skipSeparator at h
      split at h
      · cases h
        rfl
      · split at h
        · cases h
          simp [Token.rise]
        · cases h
    refine ⟨fun ts v rest h => ?_, fun first ts l rest h => ?_, fun first ts items rest h => ?_,
      fun ts p rest h => ?_⟩
    · cases ts with
      | nil => cases h
      | cons t ts =>
        cases t with
        | lbracket =>
          obtain ⟨⟨l, rest'⟩, hitems, heq⟩ := Option.map_eq_some_iff.1 h
          cases heq
          rw [ihitems _ _ _ _ hitems, depth_cons]
          exact add_comm _ _
        | lbrace =>
          obtain ⟨⟨items, rest'⟩, hfields, heq⟩ := Option.map_eq_some_iff.1 h
          cases heq
          rw [ihfields _ _ _ _ hfields, depth_cons]
          exact add_comm _ _
        | rbracket | rbrace | comma | colon => cases h
        | null | bool _ | int _ | float _ | str _ =>
          cases h
          simp [Token.rise]
    · unfold parseItems at h
      split at h
      · next hclose =>
        obtain ⟨ts', rfl⟩ := List.head?_eq_some_iff.1 hclose
        cases h
        simp [Token.rise]
      · obtain ⟨ts', hsep, h⟩ := Option.bind_eq_some_iff.1 h
        obtain ⟨⟨v, rest'⟩, hvalue, h⟩ := Option.bind_eq_some_iff.1 h
        obtain ⟨⟨l', rest''⟩, hitems, heq⟩ := Option.map_eq_some_iff.1 h
        cases heq
        rw [ihitems _ _ _ _ hitems, ihvalue _ _ _ hvalue, hskip hsep]
    · unfold parseFields at h
      split at h
      · next hclose =>
        obtain ⟨ts', rfl⟩ := List.head?_eq_some_iff.1 hclose
        cases h
        simp [Token.rise]
      · obtain ⟨ts', hsep, h⟩ := Option.bind_eq_some_iff.1 h
        obtain ⟨⟨p, rest'⟩, hfield, h⟩ := Option.bind_eq_some_iff.1 h
        obtain ⟨⟨items', rest''⟩, hfields, heq⟩ := Option.map_eq_some_iff.1 h
        cases heq
        rw [ihfields _ _ _ _ hfields, ihfield _ _ _ hfield, hskip hsep]
    · unfold parseField at h
      split at h
      · obtain ⟨⟨v, rest'⟩, hvalue, heq⟩ := Option.map_eq_some_iff.1 h
        cases heq
        rw [ihvalue _ _ _ hvalue]
        simp [Token.rise]
      · cases h

/-- What is read ends as deep as it begins. -/
theorem depth_of_load {ts : List Token} {v : Data} (h : load ts = .ok v) :
    ts ≠ [] ∧ depth ts = 0 := by
  unfold load at h
  split at h
  · next hparse =>
    constructor
    · rintro rfl
      cases hparse
    · rw [← (depth_of_parse _).1 _ _ _ hparse, depth_nil]
  · cases h

/-- Nothing is closed that was not opened. -/
def NeverBelow (ts : List Token) : Prop := ∀ p, p <+: ts → 0 ≤ depth p

theorem NeverBelow.append {ts ts' : List Token} (h : NeverBelow ts) (hdepth : depth ts = 0)
    (h' : NeverBelow ts') : NeverBelow (ts ++ ts') := by
  intro p hp
  rcases List.prefix_or_prefix_of_prefix hp (List.prefix_append ts ts') with hle | ⟨q, rfl⟩
  · exact h p hle
  · have hq : q <+: ts' := (List.prefix_append_right_inj ts).1 hp
    rw [depth_append, hdepth, zero_add]
    exact h' q hq

namespace Written

/-- What was written is never below its beginning, and as deep in the end if nothing was
raised. -/
structure Balanced (w : Written) : Prop where
  neverBelow : NeverBelow w.tokens
  depth_eq : w.error = none → depth w.tokens = 0

theorem Balanced.andThen {w w' : Written} (h : w.Balanced) (h' : w'.Balanced) :
    (w.andThen w').Balanced := by
  cases herror : w.error with
  | none =>
    rw [andThen_of_ok herror]
    have hdepth := h.depth_eq herror
    refine ⟨h.neverBelow.append hdepth h'.neverBelow, fun herror' => ?_⟩
    rw [depth_append, hdepth, zero_add]
    exact h'.depth_eq herror'
  | some e =>
    have hend : w.andThen w' = w := by
      unfold Written.andThen
      rw [herror]
    rw [hend]
    exact h

theorem balanced_of_flat {w : Written} (h : ∀ t ∈ w.tokens, t.rise = 0) : w.Balanced := by
  have hflat : ∀ p, p <+: w.tokens → depth p = 0 := by
    intro p hp
    apply List.sum_eq_zero
    intro n hn
    obtain ⟨t, ht, rfl⟩ := List.mem_map.1 hn
    exact h t (hp.subset ht)
  exact ⟨fun p hp => (hflat p hp).ge, fun _ => hflat _ List.prefix_rfl⟩

/-- What is between brackets. -/
def within (opening closing : Token) (w : Written) : Written :=
  (Written.mk [opening] none).andThen (w.andThen ⟨[closing], none⟩)

/-- One is inside the brackets until the end. -/
theorem Balanced.within_pos {opening closing : Token} {w : Written} (h : w.Balanced)
    (hopening : opening.rise = 1) {p : List Token} (hp : p <+: (w.within opening closing).tokens)
    (hne : p ≠ []) (hend : p ≠ (w.within opening closing).tokens ∨
      (w.within opening closing).error ≠ none) : 0 < depth p := by
  obtain ⟨t, q, rfl⟩ := List.exists_cons_of_ne_nil hne
  unfold within at hp hend
  rw [andThen_of_ok rfl] at hp hend
  obtain ⟨rfl, hq⟩ := List.cons_prefix_cons.1 hp
  have hinside : q <+: w.tokens := by
    cases herror : w.error with
    | none =>
      rw [andThen_of_ok herror] at hq hend
      rcases List.prefix_concat_iff.1 hq with rfl | hlt
      · simp at hend
      · exact hlt
    | some e =>
      unfold Written.andThen at hq
      rwa [herror] at hq
  rw [depth_cons, hopening]
  have hnonneg := h.neverBelow q hinside
  omega

theorem Balanced.within {opening closing : Token} {w : Written} (h : w.Balanced)
    (hopening : opening.rise = 1) (hclosing : closing.rise = -1) :
    (w.within opening closing).Balanced := by
  have hdepth : (w.within opening closing).error = none →
      depth (w.within opening closing).tokens = 0 := by
    intro herror
    obtain ⟨-, hrest⟩ := andThen_ok_iff.1 herror
    obtain ⟨hw, -⟩ := andThen_ok_iff.1 hrest
    unfold Written.within
    rw [andThen_of_ok rfl, andThen_of_ok hw]
    simp [hopening, hclosing, h.depth_eq hw]
  refine ⟨fun p hp => ?_, hdepth⟩
  by_cases hne : p = []
  · rw [hne, depth_nil]
  · by_cases hend : p ≠ (w.within opening closing).tokens ∨
        (w.within opening closing).error ≠ none
    · exact (h.within_pos hopening hp hne hend).le
    · push Not at hend
      rw [hend.1, hdepth hend.2]

end Written

theorem balanced_separator (first : Bool) : (separator first).Balanced :=
  Written.balanced_of_flat (by cases first <;> simp [separator, Token.rise])

mutual

theorem balanced_dump (v : Data) : (dump v).Balanced := by
  cases v with
  | null | bool _ | int _ | float _ | str _ | object _ =>
    apply Written.balanced_of_flat
    simp [dump, Token.rise]
  | list l => exact (balanced_dumpItems l true).within rfl rfl
  | dict items => exact (balanced_dumpFields items true).within rfl rfl

theorem balanced_dumpItems (l : List Data) (first : Bool) : (dumpItems first l).Balanced := by
  cases l with
  | nil => exact Written.balanced_of_flat (by simp [dumpItems])
  | cons v l =>
    exact (balanced_separator first).andThen
      ((balanced_dump v).andThen (balanced_dumpItems l false))

theorem balanced_dumpFields (items : List (String × Data)) (first : Bool) :
    (dumpFields first items).Balanced := by
  cases items with
  | nil => exact Written.balanced_of_flat (by simp [dumpFields])
  | cons p items =>
    exact (balanced_separator first).andThen
      ((balanced_dumpField p).andThen (balanced_dumpFields items false))

theorem balanced_dumpField (p : String × Data) : (dumpField p).Balanced := by
  obtain ⟨k, v⟩ := p
  have hkey : (Written.mk [.str k, .colon] none).Balanced :=
    Written.balanced_of_flat (by simp [Token.rise])
  exact hkey.andThen (balanced_dump v)

end

/-- No file is read that ends before the value does. -/
theorem load_of_incomplete {v : Data} {p : List Token} (hp : p <+: (dump v).tokens)
    (hend : p ≠ (dump v).tokens ∨ (dump v).error ≠ none) : ∃ e, load p = .error e := by
  cases hload : load p with
  | error e => exact ⟨e, rfl⟩
  | ok v' =>
    exfalso
    obtain ⟨hne, hdepth⟩ := depth_of_load hload
    cases v with
    | null | bool _ | int _ | float _ | str _ | object _ =>
      obtain ⟨t, q, rfl⟩ := List.exists_cons_of_ne_nil hne
      simp_all [dump]
    | list l =>
      have hpos := (balanced_dumpItems l true).within_pos rfl hp hne hend
      omega
    | dict items =>
      have hpos := (balanced_dumpFields items true).within_pos rfl hp hne hend
      omega

end Python
