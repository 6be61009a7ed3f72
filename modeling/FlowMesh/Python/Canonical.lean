import FlowMesh.Python.JsonTexts

/-!
# Canonical JSON

`dumps` sorts the members of every object, so its text is that of a value with sorted members
(`Json.canon`, `dumps_eq_text`). The text is read back token by token, so values with the same
text have the same sorted form; and this is the same exactly for values that are equal but for the
order of their members (`Json.Same`, `canon_eq_iff`).
-/

namespace Python

open JsonText

/-! ## Values up to the order of their members -/

namespace Json

mutual

/-- Equal as JSON values: the members of objects come in any order. -/
def Same : Json → Json → Prop
  | .null, w => w = .null
  | .bool b, w => w = .bool b
  | .int n, w => w = .int n
  | .float x, w => w = .float x
  | .str s, w => w = .str s
  | .list l, w => ∃ m, w = .list m ∧ SameItems l m
  | .obj items, w =>
    ∃ items', w = .obj items' ∧ items.length = items'.length ∧ SameFields items items'
termination_by structural v => v

/-- Equal items, one by one. -/
def SameItems : List Json → List Json → Prop
  | [], m => m = []
  | v :: l, m => ∃ w m', m = w :: m' ∧ Same v w ∧ SameItems l m'
termination_by structural l => l

/-- Every member of the first object is one of the second. -/
def SameFields : List (String × Json) → List (String × Json) → Prop
  | [], _ => True
  | p :: items, items' => SameField p items' ∧ SameFields items items'
termination_by structural items => items

/-- One member of the first object is one of the second. -/
def SameField : String × Json → List (String × Json) → Prop
  | (k, v), items' => ∃ w, (k, w) ∈ items' ∧ Same v w
termination_by structural p => p

end

mutual

/-- A value without floats, whose objects have every key once. -/
def Plain : Json → Prop
  | .float _ => False
  | .list l => PlainItems l
  | .obj items => (items.map Prod.fst).Nodup ∧ PlainFields items
  | _ => True
termination_by structural v => v

/-- The items of a list. -/
def PlainItems : List Json → Prop
  | [] => True
  | v :: l => Plain v ∧ PlainItems l
termination_by structural l => l

/-- The members of an object. -/
def PlainFields : List (String × Json) → Prop
  | [] => True
  | p :: items => PlainField p ∧ PlainFields items
termination_by structural items => items

/-- A member of an object. -/
def PlainField : String × Json → Prop
  | (_, v) => Plain v
termination_by structural p => p

end

mutual

/-- The value with the members of every object sorted. -/
def canon : Json → Data
  | .null => .null
  | .bool b => .bool b
  | .int n => .int n
  | .float x => .float x
  | .str s => .str s
  | .list l => .list (canonItems l)
  | .obj items => .dict (sorted (canonFields items))
termination_by structural v => v

/-- The items of a list. -/
def canonItems : List Json → List Data
  | [] => []
  | v :: l => canon v :: canonItems l
termination_by structural l => l

/-- The members of an object. -/
def canonFields : List (String × Json) → List (String × Data)
  | [] => []
  | p :: items => canonField p :: canonFields items
termination_by structural items => items

/-- A member of an object. -/
def canonField : String × Json → String × Data
  | (k, v) => (k, canon v)
termination_by structural p => p

end

theorem canonFields_eq_map (items : List (String × Json)) :
    canonFields items = items.map fun p => (p.1, p.2.canon) := by
  induction items with
  | nil => rfl
  | cons p items ih =>
    obtain ⟨k, v⟩ := p
    rw [canonFields, ih, canonField, List.map_cons]

theorem plainFields_iff {items : List (String × Json)} :
    PlainFields items ↔ ∀ p ∈ items, p.2.Plain := by
  induction items with
  | nil => simp [PlainFields]
  | cons p items ih =>
    obtain ⟨k, v⟩ := p
    rw [PlainFields, ih, List.forall_mem_cons, PlainField]

theorem keys_canonFields (items : List (String × Json)) :
    (canonFields items).map Prod.fst = items.map Prod.fst := by
  rw [canonFields_eq_map, List.map_map]
  rfl

theorem mem_sorted {α : Type} {fields : List (String × α)} {p : String × α} :
    p ∈ sorted fields ↔ p ∈ fields := List.mem_insertionSort _

/-! ## The sorted form -/

/-- Members with keys of their own are the same in any order if there are as many, and each is
among the others. -/
theorem perm_iff_subset {α : Type} {fields fields' : List (String × α)}
    (hkeys : (fields.map Prod.fst).Nodup) :
    fields.Perm fields' ↔ fields.length = fields'.length ∧ ∀ p ∈ fields, p ∈ fields' := by
  constructor
  · exact fun h => ⟨h.length_eq, fun p hp => h.subset hp⟩
  · rintro ⟨hlength, hsub⟩
    exact (List.subperm_of_subset (List.Nodup.of_map _ hkeys) hsub).perm_of_length_le hlength.ge

mutual

/-- **Values have the same sorted form exactly if they are the same.** -/
theorem canon_eq_iff (v : Json) (hv : v.Plain) (w : Json) (hw : w.Plain) :
    v.canon = w.canon ↔ v.Same w := by
  cases v with
  | null | bool _ | int _ | str _ => cases w <;> simp [canon, Same, eq_comm]
  | float x => cases hv
  | list l =>
    cases w with
    | list m =>
      have hitems := canonItems_eq_iff l hv m hw
      simpa [canon, Same] using hitems
    | _ => simp [canon, Same]
  | obj items =>
    cases w with
    | obj items' =>
      have hfields := canonFields_subset_iff items hv.2 items' hw.2
      have hkeys : ((canonFields items).map Prod.fst).Nodup := by
        rw [keys_canonFields]
        exact hv.1
      have hlength : ∀ items : List (String × Json), (canonFields items).length = items.length :=
        fun items => by rw [canonFields_eq_map, List.length_map]
      simp only [canon, Same, Data.dict.injEq, sorted_eq_iff_perm hkeys, perm_iff_subset hkeys,
        hlength, hfields, Json.obj.injEq, exists_eq_left']
    | _ => simp [canon, Same]
termination_by structural v

theorem canonItems_eq_iff (l : List Json) (hl : PlainItems l) (m : List Json)
    (hm : PlainItems m) : canonItems l = canonItems m ↔ SameItems l m := by
  cases l with
  | nil => cases m <;> simp [canonItems, SameItems]
  | cons v l =>
    cases m with
    | nil => simp [canonItems, SameItems]
    | cons w m =>
      have hhead := canon_eq_iff v hl.1 w hm.1
      have htail := canonItems_eq_iff l hl.2 m hm.2
      simp only [canonItems, SameItems, List.cons.injEq, hhead, htail]
      constructor
      · rintro ⟨hvw, hlm⟩
        exact ⟨w, m, ⟨rfl, rfl⟩, hvw, hlm⟩
      · rintro ⟨w, m, ⟨rfl, rfl⟩, hvw, hlm⟩
        exact ⟨hvw, hlm⟩
termination_by structural l

theorem canonFields_subset_iff (items : List (String × Json)) (hitems : PlainFields items)
    (items' : List (String × Json)) (hitems' : PlainFields items') :
    (∀ p ∈ canonFields items, p ∈ canonFields items') ↔ SameFields items items' := by
  cases items with
  | nil => simp [canonFields, SameFields]
  | cons p items =>
    rw [canonFields, List.forall_mem_cons, SameFields,
      canonFields_subset_iff items hitems.2 items' hitems',
      mem_canonFields_iff p hitems.1 items' hitems']
termination_by structural items

theorem mem_canonFields_iff (p : String × Json) (hp : PlainField p)
    (items' : List (String × Json)) (hitems' : PlainFields items') :
    canonField p ∈ canonFields items' ↔ SameField p items' := by
  obtain ⟨k, v⟩ := p
  have hvalue : ∀ w, (k, w) ∈ items' → (v.canon = w.canon ↔ v.Same w) := fun w hw =>
    canon_eq_iff v hp w (plainFields_iff.1 hitems' _ hw)
  rw [canonField, canonFields_eq_map, List.mem_map, SameField]
  constructor
  · rintro ⟨⟨k', w⟩, hw, heq⟩
    obtain ⟨rfl, hcanon⟩ := Prod.ext_iff.1 heq
    exact ⟨w, hw, (hvalue w hw).1 hcanon.symm⟩
  · rintro ⟨w, hw, hsame⟩
    exact ⟨(k, w), hw, by rw [(hvalue w hw).2 hsame]⟩
termination_by structural p

end

end Json

/-! ## The text of the sorted form -/

/-- The compact text of a value, as letters. -/
def Data.compact (v : Data) : List Char := Spelling.compact.spell (dump v).tokens

theorem spell_append (sp : Spelling) (ts ts' : List Token) :
    sp.spell (ts ++ ts') = sp.spell ts ++ sp.spell ts' := List.flatMap_append

theorem spell_cons (sp : Spelling) (t : Token) (ts : List Token) :
    sp.spell (t :: ts) = sp.letters t ++ sp.spell ts := List.flatMap_cons

/-- Items behind others. -/
theorem spell_dumpItems {l : List Data} (h : ∀ v ∈ l, v.Serialisable) :
    Spelling.compact.spell (dumpItems false l).tokens =
      (l.map Data.compact).flatMap (',' :: ·) := by
  induction l with
  | nil => rfl
  | cons v l ih =>
    obtain ⟨hv, hl⟩ := List.forall_mem_cons.1 h
    rw [dumpItems_cons hv, spell_append, spell_append, ih hl]
    rfl

theorem compact_list {l : List Data} (h : ∀ v ∈ l, v.Serialisable) :
    (Data.list l).compact = array (l.map Data.compact) := by
  have herror := serialisable_list.2 h
  have hitems := (Written.andThen_ok_iff.1 (Written.andThen_ok_iff.1 herror).2).1
  have hinside : Spelling.compact.spell (dumpItems true l).tokens =
      commaSep (l.map Data.compact) := by
    cases l with
    | nil => rfl
    | cons v l =>
      obtain ⟨hv, hl⟩ := List.forall_mem_cons.1 h
      rw [dumpItems_cons hv, spell_append, spell_append, spell_dumpItems hl, List.map_cons,
        commaSep_cons]
      rfl
  rw [Data.compact, dump_list hitems, spell_cons, spell_append, hinside]
  rfl

/-- A member, as letters. -/
theorem spell_field (k : String) (v : Data) (ts : List Token) :
    Spelling.compact.spell (.str k :: .colon :: ((dump v).tokens ++ ts)) =
      member dumpsStr (k, v.compact) ++ Spelling.compact.spell ts := by
  rw [spell_cons, spell_cons, spell_append]
  simp [member, Spelling.letters, Spelling.compact, dumpsStr, Data.compact]

/-- Members behind others. -/
theorem spell_dumpFields {items : List (String × Data)} (h : ∀ p ∈ items, p.2.Serialisable) :
    Spelling.compact.spell (dumpFields false items).tokens =
      ((items.map fun p => (p.1, p.2.compact)).map (member dumpsStr)).flatMap (',' :: ·) := by
  induction items with
  | nil => rfl
  | cons p items ih =>
    obtain ⟨k, v⟩ := p
    obtain ⟨hv, hl⟩ := List.forall_mem_cons.1 h
    rw [dumpFields_cons hv, spell_append, spell_field, ih hl]
    rfl

theorem compact_dict {items : List (String × Data)} (h : ∀ p ∈ items, p.2.Serialisable) :
    (Data.dict items).compact = object dumpsStr (items.map fun p => (p.1, p.2.compact)) := by
  have herror := serialisable_dict.2 h
  have hitems := (Written.andThen_ok_iff.1 (Written.andThen_ok_iff.1 herror).2).1
  have hinside : Spelling.compact.spell (dumpFields true items).tokens =
      commaSep ((items.map fun p => (p.1, p.2.compact)).map (member dumpsStr)) := by
    cases items with
    | nil => rfl
    | cons p items =>
      obtain ⟨k, v⟩ := p
      obtain ⟨hv, hl⟩ := List.forall_mem_cons.1 h
      have htokens : (dumpFields true ((k, v) :: items)).tokens = _ := dumpFields_cons hv true
      rw [htokens, spell_append, spell_field, spell_dumpFields hl, List.map_cons, List.map_cons,
        commaSep_cons]
      rfl
  rw [Data.compact, dump_dict hitems, spell_cons, spell_append, hinside]
  rfl

namespace Json

mutual

theorem serialisable_canon (v : Json) : v.canon.Serialisable := by
  cases v with
  | null | bool _ | int _ | float _ | str _ => rfl
  | list l => exact serialisable_list.2 (serialisable_canonItems l)
  | obj items =>
    exact serialisable_dict.2 fun p hp => serialisable_canonFields items p (mem_sorted.1 hp)
termination_by structural v

theorem serialisable_canonItems (l : List Json) : ∀ v ∈ canonItems l, v.Serialisable := by
  cases l with
  | nil => simp [canonItems]
  | cons v l =>
    exact List.forall_mem_cons.2 ⟨serialisable_canon v, serialisable_canonItems l⟩
termination_by structural l

theorem serialisable_canonFields (items : List (String × Json)) :
    ∀ p ∈ canonFields items, p.2.Serialisable := by
  cases items with
  | nil => simp [canonFields]
  | cons p items =>
    exact List.forall_mem_cons.2 ⟨serialisable_canonField p, serialisable_canonFields items⟩
termination_by structural items

theorem serialisable_canonField (p : String × Json) : (canonField p).2.Serialisable := by
  obtain ⟨k, v⟩ := p
  exact serialisable_canon v
termination_by structural p

end

mutual

/-- **The text of a value is that of its sorted form.** -/
theorem dumps_eq_compact (v : Json) : dumps v = v.canon.compact := by
  cases v with
  | bool b => cases b <;> simp [dumps, canon, Data.compact, dump, Spelling.spell, Spelling.letters]
  | null | int _ | float _ | str _ =>
    simp [dumps, canon, Data.compact, dump, Spelling.spell, Spelling.letters, dumpsStr,
      Spelling.compact]
  | list l =>
    rw [dumps, canon, compact_list (serialisable_canonItems l), dumpsItems_eq_map l]
  | obj items =>
    have hsorted : ∀ p ∈ sorted (canonFields items), p.2.Serialisable := fun p hp =>
      serialisable_canonFields items p (mem_sorted.1 hp)
    rw [dumps, canon, compact_dict hsorted, dumpsFields_eq_map items, sorted_map]
termination_by structural v

theorem dumpsItems_eq_map (l : List Json) : dumpsItems l = (canonItems l).map Data.compact := by
  cases l with
  | nil => rfl
  | cons v l => rw [dumpsItems, dumps_eq_compact v, dumpsItems_eq_map l, canonItems, List.map_cons]
termination_by structural l

theorem dumpsFields_eq_map (items : List (String × Json)) :
    dumpsFields items = (canonFields items).map fun p => (p.1, p.2.compact) := by
  cases items with
  | nil => rfl
  | cons p items =>
    rw [dumpsFields, dumpsField_eq p, dumpsFields_eq_map items, canonFields, List.map_cons]
termination_by structural items

theorem dumpsField_eq (p : String × Json) :
    dumpsField p = ((canonField p).1, (canonField p).2.compact) := by
  obtain ⟨k, v⟩ := p
  rw [dumpsField, dumps_eq_compact v, canonField]
termination_by structural p

end

mutual

/-- No float is in the way of reading the text. -/
theorem legible_canon (float : String → PyFloat) (v : Json) (h : v.Plain) :
    v.canon.Legible float := by
  cases v with
  | null | bool _ | int _ | str _ => exact legible_token rfl trivial
  | float x => cases h
  | list l =>
    exact legible_list fun v hv =>
      ⟨serialisable_canonItems l v hv, legible_canonItems float l h v hv⟩
  | obj items =>
    exact legible_dict fun p hp => ⟨serialisable_canonFields items p (mem_sorted.1 hp),
      legible_canonFields float items h.2 p (mem_sorted.1 hp)⟩
termination_by structural v

theorem legible_canonItems (float : String → PyFloat) (l : List Json) (h : PlainItems l) :
    ∀ v ∈ canonItems l, v.Legible float := by
  cases l with
  | nil => simp [canonItems]
  | cons v l =>
    exact List.forall_mem_cons.2 ⟨legible_canon float v h.1, legible_canonItems float l h.2⟩
termination_by structural l

theorem legible_canonFields (float : String → PyFloat) (items : List (String × Json))
    (h : PlainFields items) : ∀ p ∈ canonFields items, p.2.Legible float := by
  cases items with
  | nil => simp [canonFields]
  | cons p items =>
    exact List.forall_mem_cons.2
      ⟨legible_canonField float p h.1, legible_canonFields float items h.2⟩
termination_by structural items

theorem legible_canonField (float : String → PyFloat) (p : String × Json) (h : PlainField p) :
    (canonField p).2.Legible float := by
  obtain ⟨k, v⟩ := p
  exact legible_canon float v h
termination_by structural p

end

/-- The sorted form is read back from the text. -/
theorem canon_inj_of_compact {v w : Json} (hv : v.Plain) (hw : w.Plain)
    (h : v.canon.compact = w.canon.compact) : v.canon = w.canon := by
  have hread : ∀ u : Json, u.Plain →
      tokens? (fun text => ⟨.nan, text⟩) u.canon.compact = some (dump u.canon).tokens :=
    fun u hu => tokens?_dump .compact (serialisable_canon u) (legible_canon _ u hu)
  have htokens : (dump v.canon).tokens = (dump w.canon).tokens := by
    apply Option.some.inj
    rw [← hread v hv, ← hread w hw, h]
  have hload := load_dump (serialisable_canon v)
  rw [htokens, load_dump (serialisable_canon w)] at hload
  exact (Except.ok.inj hload).symm

/-- **Canonical texts are equal exactly for the same values.** -/
theorem dumps_eq_iff {v w : Json} (hv : v.Plain) (hw : w.Plain) :
    dumps v = dumps w ↔ v.Same w := by
  rw [← canon_eq_iff v hv w hw, dumps_eq_compact, dumps_eq_compact]
  constructor
  · exact canon_inj_of_compact hv hw
  · intro h
    rw [h]

end Json

end Python
