import FlowMesh.Python.Value

/-!
# Values with a hole

A text with holes is made of characters, of places for a string that is given later, and of texts
in the quotes of a `repr`. A value with holes has such texts in the place of its strings. `fill`
gives the value for one string. The operations on values that do not look into their strings are
repeated here on values with holes, where they cannot know the string, and `fill` carries one to
the other.
-/

namespace Python

/-! ## Texts -/

/-- A piece of a text with holes. -/
inductive Piece
  | char (c : Char)
  | hole
  | quoted (l : List Piece)

mutual

/-- The characters of a piece, with `s` in the hole. -/
def Piece.fill (u : Unicode) (s : String) : Piece → List Char
  | .char c => [c]
  | .hole => s.toList
  | .quoted l => reprStr u (String.ofList (fillText u s l))
termination_by structural p => p

/-- The characters of a text. -/
def fillText (u : Unicode) (s : String) : List Piece → List Char
  | [] => []
  | p :: l => p.fill u s ++ fillText u s l
termination_by structural l => l

end

section Text

variable {u : Unicode} {s : String}

@[simp] theorem fillText_nil : fillText u s [] = [] := rfl

@[simp] theorem fillText_cons (p : Piece) (l : List Piece) :
    fillText u s (p :: l) = p.fill u s ++ fillText u s l := rfl

@[simp] theorem fill_char (c : Char) : (Piece.char c).fill u s = [c] := rfl

@[simp] theorem fill_hole : Piece.hole.fill u s = s.toList := rfl

@[simp] theorem fill_quoted (l : List Piece) :
    (Piece.quoted l).fill u s = reprStr u (String.ofList (fillText u s l)) := rfl

@[simp] theorem fillText_append (l m : List Piece) :
    fillText u s (l ++ m) = fillText u s l ++ fillText u s m := by
  induction l with
  | nil => rfl
  | cons p l ih => simp [ih]

/-- A text without holes. -/
@[simp] theorem fillText_map_char (cs : List Char) : fillText u s (cs.map .char) = cs := by
  induction cs with
  | nil => rfl
  | cons c cs ih => simp [ih]

end Text

/-! ## Texts without quotes -/

/-- A text where a hole has no characters of its own. -/
def plug (s : String) (t : List (Option Char)) : List Char :=
  t.flatMap fun o => o.elim s.toList ([·])

/-- The text in the quotes of a `repr`, with the holes left as they are. -/
def quotedPlaces (u : Unicode) (t : List (Option Char)) : List (Option Char) :=
  let quote := if some '\'' ∈ t ∧ some '"' ∉ t then '"' else '\''
  some quote :: t.flatMap (fun o => o.elim [none] fun c => (reprChar u quote c).map some) ++
    [some quote]

mutual

/-- A piece without quotes. -/
def Piece.places (u : Unicode) : Piece → List (Option Char)
  | .char c => [some c]
  | .hole => [none]
  | .quoted l => quotedPlaces u (textPlaces u l)
termination_by structural p => p

/-- A text without quotes. -/
def textPlaces (u : Unicode) : List Piece → List (Option Char)
  | [] => []
  | p :: l => p.places u ++ textPlaces u l
termination_by structural l => l

end

/-- A string that `repr` copies into its quotes. -/
def Bare (s : String) : Prop :=
  ∀ c ∈ s.toList, c ≠ '\'' ∧ c ≠ '"' ∧ c ≠ '\\' ∧ 32 ≤ c.toNat ∧ c.toNat < 127

instance (s : String) : Decidable (Bare s) := List.decidableBAll _ _

section Places

variable {u : Unicode} {s : String}

theorem plug_append (t t' : List (Option Char)) : plug s (t ++ t') = plug s t ++ plug s t' :=
  List.flatMap_append

theorem plug_map_some (cs : List Char) : plug s (cs.map some) = cs := by
  induction cs with
  | nil => rfl
  | cons c cs ih => exact congrArg (c :: ·) ih

theorem length_plug (s : String) (t : List (Option Char)) :
    (plug s t).length + t.count none = t.length + t.count none * s.toList.length := by
  induction t with
  | nil => simp [plug]
  | cons o t ih =>
    rw [← List.singleton_append, plug_append, List.length_append, List.length_append,
      List.count_append, Nat.add_mul]
    cases o with
    | none =>
      have hplug : (plug s [none]).length = s.toList.length := congrArg _ (List.append_nil _)
      rw [hplug, List.count_singleton_self]
      simp
      omega
    | some c =>
      have hplug : (plug s [some c]).length = 1 := rfl
      have hcount : [some c].count none = 0 := rfl
      rw [hplug, hcount]
      simp
      omega

/-- What stands in the text does not come from the string. -/
theorem mem_plug {t : List (Option Char)} (h : Bare s ∨ none ∉ t) {c : Char}
    (hc : c = '\'' ∨ c = '"') : c ∈ plug s t ↔ some c ∈ t := by
  constructor
  · intro hmem
    obtain ⟨_ | d, ho, hd⟩ := List.mem_flatMap.1 hmem
    · rcases h with hs | hnone
      · have hbare := hs c hd
        rcases hc with rfl | rfl
        · exact absurd rfl hbare.1
        · exact absurd rfl hbare.2.1
      · exact absurd ho hnone
    · rw [List.mem_singleton.1 hd]
      exact ho
  · exact fun hmem => List.mem_flatMap.2 ⟨some c, hmem, List.mem_singleton_self c⟩

theorem reprChar_bare (hs : Bare s) {quote c : Char} (hquote : quote = '\'' ∨ quote = '"')
    (hc : c ∈ s.toList) : reprChar u quote c = [c] := by
  obtain ⟨hsingle, hdouble, hslash, hlow, hhigh⟩ := hs c hc
  have hne : c ≠ quote := by
    rcases hquote with rfl | rfl
    · exact hsingle
    · exact hdouble
  have hcontrol : ∀ d : Char, d.toNat < 32 → c ≠ d := by
    rintro d hd rfl
    omega
  unfold reprChar
  simp only [hne, hslash, or_self, if_false, hcontrol '\n' (by decide), hcontrol '\r' (by decide),
    hcontrol '\t' (by decide)]
  rw [if_neg (by omega), if_pos hhigh]

theorem reprStr_plug {t : List (Option Char)} (h : Bare s ∨ none ∉ t) :
    reprStr u (String.ofList (plug s t)) = plug s (quotedPlaces u t) := by
  unfold reprStr quotedPlaces
  simp only [String.toList_ofList, List.contains_iff_mem, mem_plug h (.inl rfl),
    mem_plug h (.inr rfl)]
  generalize hq : (if some '\'' ∈ t ∧ some '"' ∉ t then '"' else '\'') = quote
  have hquote : quote = '\'' ∨ quote = '"' := by
    rw [← hq]
    split
    · exact .inr rfl
    · exact .inl rfl
  have hbody : (plug s t).flatMap (reprChar u quote) =
      plug s (t.flatMap fun o => o.elim [none] fun c => (reprChar u quote c).map some) := by
    unfold plug
    rw [List.flatMap_assoc, List.flatMap_assoc]
    refine List.flatMap_congr fun o ho => ?_
    cases o with
    | none =>
      rcases h with hs | hnone
      · have hcopy : s.toList.flatMap (reprChar u quote) = s.toList.flatMap ([·]) :=
          List.flatMap_congr fun c hc => reprChar_bare hs hquote hc
        simp [hcopy]
      · exact absurd ho hnone
    | some c => simpa [plug] using (plug_map_some (s := s) (reprChar u quote c)).symm
  rw [hbody, plug_append]
  rfl

mutual

theorem Piece.fill_eq_plug : ∀ {p : Piece}, Bare s ∨ none ∉ p.places u →
    p.fill u s = plug s (p.places u)
  | .char _, _ => rfl
  | .hole, _ => (List.append_nil _).symm
  | .quoted l, h => by
    have hl : Bare s ∨ none ∉ textPlaces u l := by
      refine h.imp_right fun hnone hmem => hnone ?_
      refine List.mem_append_left _ (List.mem_cons_of_mem _ (List.mem_flatMap.2 ⟨none, hmem, ?_⟩))
      exact List.mem_singleton_self none
    rw [fill_quoted, fillText_eq_plug hl, reprStr_plug hl, Piece.places]

/-- A text with holes, for bare strings, and for every string if it has no hole. -/
theorem fillText_eq_plug : ∀ {l : List Piece}, Bare s ∨ none ∉ textPlaces u l →
    fillText u s l = plug s (textPlaces u l)
  | [], _ => rfl
  | p :: l, h => by
    rw [textPlaces, List.mem_append, not_or] at h
    rw [fillText_cons, textPlaces, plug_append, p.fill_eq_plug (h.imp_right And.left),
      fillText_eq_plug (h.imp_right And.right)]

end

end Places

/-! ## Values -/

/-- A value with holes in its strings. -/
inductive Holed
  | null
  | bool (b : Bool)
  | int (n : ℤ)
  | float (x : PyFloat)
  | str (l : List Piece)
  | list (l : List Holed)
  | obj (items : List (String × Holed))

mutual

/-- The value, with `s` in the holes. -/
def Holed.fill (u : Unicode) (s : String) : Holed → Json
  | .null => .null
  | .bool b => .bool b
  | .int n => .int n
  | .float x => .float x
  | .str l => .str (String.ofList (fillText u s l))
  | .list l => .list (fillItems u s l)
  | .obj items => .obj (fillFields u s items)
termination_by structural v => v

/-- The items of a list. -/
def fillItems (u : Unicode) (s : String) : List Holed → List Json
  | [] => []
  | v :: l => v.fill u s :: fillItems u s l
termination_by structural l => l

/-- The values of a dictionary. -/
def fillFields (u : Unicode) (s : String) : List (String × Holed) → List (String × Json)
  | [] => []
  | p :: l => fillField u s p :: fillFields u s l
termination_by structural l => l

/-- One item of a dictionary. -/
def fillField (u : Unicode) (s : String) : String × Holed → String × Json
  | (k, v) => (k, v.fill u s)
termination_by structural p => p

end

mutual

/-- A value without holes. -/
def Holed.const : Json → Holed
  | .null => .null
  | .bool b => .bool b
  | .int n => .int n
  | .float x => .float x
  | .str s => .str (s.toList.map .char)
  | .list l => .list (constItems l)
  | .obj items => .obj (constFields items)
termination_by structural v => v

/-- The items of a list. -/
def constItems : List Json → List Holed
  | [] => []
  | v :: l => .const v :: constItems l
termination_by structural l => l

/-- The values of a dictionary. -/
def constFields : List (String × Json) → List (String × Holed)
  | [] => []
  | p :: l => constField p :: constFields l
termination_by structural l => l

/-- One item of a dictionary. -/
def constField : String × Json → String × Holed
  | (k, v) => (k, .const v)
termination_by structural p => p

end

section Const

variable (u : Unicode) (s : String)

mutual

@[simp] theorem fill_const : ∀ v : Json, (Holed.const v).fill u s = v
  | .null => rfl
  | .bool _ => rfl
  | .int _ => rfl
  | .float _ => rfl
  | .str t => by simp [Holed.const, Holed.fill]
  | .list l => congrArg Json.list (fillItems_const l)
  | .obj items => congrArg Json.obj (fillFields_const items)

theorem fillItems_const : ∀ l : List Json, fillItems u s (constItems l) = l
  | [] => rfl
  | v :: l => by rw [constItems, fillItems, fill_const v, fillItems_const l]

theorem fillFields_const : ∀ l : List (String × Json), fillFields u s (constFields l) = l
  | [] => rfl
  | p :: l => by rw [constFields, fillFields, fillField_const p, fillFields_const l]

theorem fillField_const : ∀ p : String × Json, fillField u s (constField p) = p
  | (k, v) => by rw [constField, fillField, fill_const v]

end

end Const

/-! ## Dictionaries -/

namespace Holed

/-- `d.get(key)`. -/
def lookup (key : String) (items : List (String × Holed)) : Option Holed :=
  (items.find? (·.1 = key)).map (·.2)

/-- `d[key] = v`. -/
def assign (key : String) (v : Holed) (items : List (String × Holed)) : List (String × Holed) :=
  if items.any (·.1 = key) then items.map fun p => if p.1 = key then (key, v) else p
  else items ++ [(key, v)]

end Holed

section Dictionary

variable {u : Unicode} {s : String}

theorem fillFields_eq_map (items : List (String × Holed)) :
    fillFields u s items = items.map fun p => (p.1, p.2.fill u s) := by
  induction items with
  | nil => rfl
  | cons p items ih => rw [fillFields, ih, List.map_cons, fillField]

theorem fillFields_reverse (items : List (String × Holed)) :
    (fillFields u s items).reverse = fillFields u s items.reverse := by
  rw [fillFields_eq_map, fillFields_eq_map, List.map_reverse]

/-- A dictionary is one before its holes are filled. -/
theorem exists_of_fill_eq_obj {v : Holed} {items : List (String × Json)}
    (h : v.fill u s = .obj items) : ∃ l, v = .obj l ∧ items = fillFields u s l := by
  cases v with
  | obj l => exact ⟨l, rfl, (Json.obj.inj h).symm⟩
  | _ => cases h

theorem lookup_fillFields (key : String) (items : List (String × Holed)) :
    Json.lookup key (fillFields u s items) = (Holed.lookup key items).map (·.fill u s) := by
  unfold Json.lookup Holed.lookup
  rw [fillFields_eq_map, List.find?_map, Option.map_map, Option.map_map]
  rfl

theorem assign_fillFields (key : String) (v : Holed) (items : List (String × Holed)) :
    Json.assign key (v.fill u s) (fillFields u s items) =
      fillFields u s (Holed.assign key v items) := by
  unfold Json.assign Holed.assign
  simp only [fillFields_eq_map, List.any_map, Function.comp_def]
  split
  · rw [List.map_map, List.map_map]
    refine List.map_congr_left fun p _ => ?_
    simp only [Function.comp_apply]
    split <;> rfl
  · rw [List.map_append]
    rfl

end Dictionary

/-! ## `repr` and `str` -/

mutual

/-- `repr(v)`. -/
def Holed.repr (u : Unicode) : Holed → List Piece
  | .null => "None".toList.map .char
  | .bool true => "True".toList.map .char
  | .bool false => "False".toList.map .char
  | .int n => (toString n).toList.map .char
  | .float x => x.repr.toList.map .char
  | .str l => [.quoted l]
  | .list l => .char '[' :: holedItems u l ++ [.char ']']
  | .obj items => .char '\x7b' :: holedFields u items ++ [.char '\x7d']
termination_by structural v => v

/-- The items of a list, separated by commas. -/
def holedItems (u : Unicode) : List Holed → List Piece
  | [] => []
  | [v] => v.repr u
  | v :: l => v.repr u ++ [.char ',', .char ' '] ++ holedItems u l
termination_by structural l => l

/-- The items of a dictionary, separated by commas. -/
def holedFields (u : Unicode) : List (String × Holed) → List Piece
  | [] => []
  | [p] => holedField u p
  | p :: l => holedField u p ++ [.char ',', .char ' '] ++ holedFields u l
termination_by structural l => l

/-- One item of a dictionary. -/
def holedField (u : Unicode) : String × Holed → List Piece
  | (k, v) => (reprStr u k).map .char ++ [.char ':', .char ' '] ++ v.repr u
termination_by structural p => p

end

section Repr

variable (u : Unicode) (s : String)

mutual

theorem fillText_repr : ∀ v : Holed, fillText u s (v.repr u) = repr u (v.fill u s)
  | .null => fillText_map_char _
  | .bool true => fillText_map_char _
  | .bool false => fillText_map_char _
  | .int _ => fillText_map_char _
  | .float _ => fillText_map_char _
  | .str _ => List.append_nil _
  | .list l => by
    change fillText u s (.char '[' :: holedItems u l ++ [.char ']']) =
      '[' :: reprItems u (fillItems u s l) ++ [']']
    simp [fillText_items l]
  | .obj items => by
    change fillText u s (.char '\x7b' :: holedFields u items ++ [.char '\x7d']) =
      '\x7b' :: reprFields u (fillFields u s items) ++ ['\x7d']
    simp [fillText_fields items]

theorem fillText_items : ∀ l : List Holed,
    fillText u s (holedItems u l) = reprItems u (fillItems u s l)
  | [] => rfl
  | [v] => fillText_repr v
  | v :: w :: l => by
    rw [holedItems, fillItems, fillItems, reprItems]
    · simp [fillText_repr v, fillText_items (w :: l), fillItems]
    · simp
    · simp

theorem fillText_fields : ∀ l : List (String × Holed),
    fillText u s (holedFields u l) = reprFields u (fillFields u s l)
  | [] => rfl
  | [p] => fillText_field p
  | p :: q :: l => by
    rw [holedFields, fillFields, fillFields, reprFields]
    · simp [fillText_field p, fillText_fields (q :: l), fillFields]
    · simp
    · simp

theorem fillText_field : ∀ p : String × Holed,
    fillText u s (holedField u p) = reprField u (fillField u s p)
  | (k, v) => by simp [holedField, fillField, reprField, fillText_repr v]

end

end Repr

/-- `str(v)`. -/
def Holed.text (u : Unicode) : Holed → List Piece
  | .str l => l
  | v => v.repr u

theorem fillText_text (u : Unicode) (s : String) (v : Holed) :
    fillText u s (v.text u) = str u (v.fill u s) := by
  cases v with
  | str l => simp [Holed.text, Holed.fill, str]
  | _ => exact fillText_repr u s _

end Python
