import FlowMesh.Library.Dict
import FlowMesh.Python.Value
import Mathlib.Data.List.Dedup

/-!
# Cleaning records

`DataFrameEngine.clean_records` (`flowmesh_transform/dataframe_engine.py`) has two ways: through a
data frame, where pandas is installed, and a loop of its own. pandas is an argument (`Pandas`), and
`Pandas.Documented` is what its documentation says of the functions that are called.

The two ways give the same records exactly under the conditions of `Agreeable`
(`paths_agree_iff`): a frame has all columns in all rows, knows no required field and fills no
default that is not a column, and takes a number that is none (NaN) for a missing value. What pandas
does not say is left open: how many rows a frame without columns gives, what becomes of an integer
beyond the integers that a float holds, and with which values it fills a column.
-/

namespace FlowMesh.Transform

open Python

/-- A record. -/
abbrev Record := Dict String Json

/-- A value as `==` compares it: a float without a fraction is equal to an integer. -/
def asCompared : Json → Json
  | .float ⟨.finite q, text⟩ => if q.den = 1 then .int q.num else .float ⟨.finite q, text⟩
  | v => v

/-- What a record reads as. Records that read the same are equal dictionaries. -/
def reading (r : Record) (c : String) : Option Json := (r.get? c).map asCompared

/-- `v is None`, for what `d.get(key)` gives. -/
def isNone : Option Json → Bool
  | none | some .null => true
  | some _ => false

/-- A number that is none. -/
def isNaN : Json → Bool
  | .float x => x.val = .nan
  | _ => false

/-- What a frame takes for missing: what is not there, `None` and NaN. -/
def isMissing : Option Json → Bool
  | none => true
  | some v => isNone (some v) || isNaN v

/-- An integer beyond the integers that a float holds. -/
def IsWide : Json → Prop
  | .int n => 2 ^ 53 < |n|
  | _ => False

/-! ## pandas -/

/-- The functions of pandas that are called. -/
structure Pandas where
  Frame : Type
  /-- `pd.DataFrame(records)`. -/
  dataFrame : List Record → Frame
  /-- `df.columns`. -/
  columns : Frame → List String
  /-- `df.dropna(subset=subset)`. -/
  dropna : List String → Frame → Frame
  /-- `df.fillna(value=values)`. -/
  fillna : Record → Frame → Except PyError Frame
  /-- `df.to_dict(orient="records")`, with missing cells as `None`. -/
  toDict : Frame → List Record
  /-- What a value of a record is in the column of its key. -/
  stored : List Record → String → Json → Json
  /-- What the missing cells of a column are filled with, as it compares, if a value is given. -/
  replacement : Frame → String → Json → Except PyError Json

/-- A cell of a frame. -/
def cell (stored : Json → Json) : Option Json → Json
  | none => .null
  | some v => if isMissing (some v) then .null else stored v

/-- A cell, once the missing ones are filled. -/
def fillCell (replacement : Json → Except PyError Json) (value : Option Json) (v : Json) : Json :=
  match value with
  | none => v
  | some d => if isNone (some v) then (replacement d).toOption.getD v else v

/-- The documentation of pandas: a frame has the keys of all records as columns, `dropna` leaves out
the rows that miss a value in one of the columns given, and `fillna` fills the missing cells of the
columns for which a value is given. A row is a dictionary of the columns, and its values are read as
they compare: an integer is a float in a column in which others are missing. -/
structure Pandas.Documented (pd : Pandas) : Prop where
  mem_columns : ∀ records c,
    c ∈ pd.columns (pd.dataFrame records) ↔ ∃ r ∈ records, c ∈ r.keys
  toDict_keys : ∀ f, ∀ row ∈ pd.toDict f, ∀ c, c ∉ pd.columns f → row.get? c = none
  toDict_dataFrame : ∀ records, pd.columns (pd.dataFrame records) ≠ [] →
    (pd.toDict (pd.dataFrame records)).map reading = records.map fun r c =>
      if c ∈ pd.columns (pd.dataFrame records) then
        some (asCompared (cell (pd.stored records c) (r.get? c)))
      else none
  stored_present : ∀ records c v, isMissing (some v) = false →
    isNone (some (pd.stored records c v)) = false
  stored_eq : ∀ records c v, ¬ IsWide v → asCompared (pd.stored records c v) = asCompared v
  columns_dropna : ∀ subset f, pd.columns (pd.dropna subset f) = pd.columns f
  toDict_dropna : ∀ subset f, (∀ c ∈ subset, c ∈ pd.columns f) →
    (pd.toDict (pd.dropna subset f)).map reading =
      ((pd.toDict f).map reading).filter fun row => subset.all fun c => !isNone (row c)
  fillna_error : ∀ values f c v e, c ∈ pd.columns f → values.get? c = some v →
    pd.replacement f c v = .error e → ∃ e', pd.fillna values f = .error e'
  fillna_ok : ∀ values f,
    (∀ c v, c ∈ pd.columns f → values.get? c = some v → ∃ w, pd.replacement f c v = .ok w) →
      ∃ f', pd.fillna values f = .ok f' ∧ (pd.toDict f').map reading =
        ((pd.toDict f).map reading).map fun row c =>
          (row c).map (fillCell (pd.replacement f c) (values.get? c))
  replacement_missing : ∀ f c v w, pd.replacement f c v = .ok w → isNaN w = false

/-! ## The two ways -/

section Paths

variable (records : List Record) (requiredFields : List String) (defaultValues : Record)

/-- The frame without the rows that miss a required field, of those that are columns. -/
def requiredFrame (pd : Pandas) : pd.Frame :=
  let df := pd.dataFrame records
  if requiredFields = [] then df
  else pd.dropna (requiredFields.filter fun f => f ∈ pd.columns df) df

/-- The frame with defaults. -/
def filledFrame (pd : Pandas) (df : pd.Frame) : Except PyError pd.Frame :=
  if defaultValues.items = [] then .ok df else pd.fillna defaultValues df

/-- The way through a data frame. -/
def cleanFrame (pd : Pandas) : Except PyError (List Record) := do
  let df ← filledFrame defaultValues pd (requiredFrame records requiredFields pd)
  return pd.toDict df

/-- The loop body over `defaults.items()`. -/
def fillDefault (row : Record) (entry : String × Json) : Record :=
  if isNone (row.get? entry.1) then row.set entry.1 entry.2 else row

/-- `sanitized_row`. -/
def sanitized (row : Record) : Record := defaultValues.items.foldl fillDefault row

/-- A row that has all required fields. -/
def hasRequired (row : Record) : Bool := !requiredFields.any fun f => isNone (row.get? f)

/-- The fallback. -/
def cleanPlain : List Record :=
  (records.filter (hasRequired requiredFields)).map (sanitized defaultValues)

/-- `clean_records`, where pandas is installed and where it is not. -/
def cleanRecords (pandas : Option Pandas) : Except PyError (List Record) :=
  match pandas, records with
  | some pd, _ :: _ => cleanFrame records requiredFields defaultValues pd
  | _, _ => .ok (cleanPlain records requiredFields defaultValues)

/-- Both ways give the same records. -/
def PathsAgree (pd : Pandas) : Prop :=
  ∃ l l', cleanRecords records requiredFields defaultValues (some pd) = .ok l ∧
    cleanRecords records requiredFields defaultValues none = .ok l' ∧
      l.map reading = l'.map reading

/-- A key of some record. -/
def IsColumn (c : String) : Prop := ∃ r ∈ records, c ∈ r.keys

instance decidableIsColumn (c : String) : Decidable (IsColumn records c) :=
  inferInstanceAs (Decidable (∃ r ∈ records, c ∈ r.keys))

/-- A record that a frame keeps: it misses no value in a column that is required. -/
def FrameKeeps (r : Record) : Prop :=
  ∀ f ∈ requiredFields, IsColumn records f → isMissing (r.get? f) = false

instance decidableFrameKeeps (r : Record) : Decidable (FrameKeeps records requiredFields r) :=
  inferInstanceAs (Decidable (∀ f ∈ requiredFields, IsColumn records f → _))

/-- The number of rows of the frame. -/
def rowCount (pd : Pandas) : ℕ := (pd.toDict (pd.dataFrame records)).length

/-- When the two ways give the same records. -/
structure Agreeable (pd : Pandas) : Prop where
  /-- pandas can fill with every default of a column. -/
  fillable : ∀ c v, IsColumn records c → defaultValues.get? c = some v →
    ∃ w, pd.replacement (requiredFrame records requiredFields pd) c v = .ok w
  /-- Both keep the same records, if there is a column, -/
  kept : (∃ r ∈ records, r.keys ≠ []) → ∀ r ∈ records,
    FrameKeeps records requiredFields r ↔ hasRequired requiredFields r = true
  /-- and as many, if there is none. -/
  bare : records ≠ [] → (∀ r ∈ records, r.keys = []) →
    rowCount records pd = (records.filter (hasRequired requiredFields)).length
  /-- In what is kept, a default is for a column, -/
  known : ∀ r ∈ records, hasRequired requiredFields r = true →
    ∀ c ∈ defaultValues.keys, IsColumn records c
  /-- a key that is not there has a default, -/
  given : ∀ r ∈ records, hasRequired requiredFields r = true →
    ∀ c, IsColumn records c → c ∉ r.keys → c ∈ defaultValues.keys
  /-- no value is NaN, -/
  numbers : ∀ r ∈ records, hasRequired requiredFields r = true →
    ∀ c v, r.get? c = some v → isNaN v = false
  /-- a wide integer is not rounded, -/
  wide : ∀ r ∈ records, hasRequired requiredFields r = true →
    ∀ c v, r.get? c = some v → IsWide v → asCompared (pd.stored records c v) = asCompared v
  /-- and what is missing is filled with the default itself. -/
  filled : ∀ r ∈ records, hasRequired requiredFields r = true →
    ∀ c v, IsColumn records c → defaultValues.get? c = some v → isNone (r.get? c) = true →
      pd.replacement (requiredFrame records requiredFields pd) c v = .ok (asCompared v)

end Paths

/-! ## Values as they compare -/

@[simp] theorem asCompared_null : asCompared .null = .null := rfl

@[simp] theorem isNone_asCompared (v : Json) : isNone (some (asCompared v)) = isNone (some v) := by
  fun_cases asCompared v <;> simp_all [isNone]

@[simp] theorem isNaN_asCompared (v : Json) : isNaN (asCompared v) = isNaN v := by
  fun_cases asCompared v <;> simp_all [isNaN]

@[simp] theorem asCompared_asCompared (v : Json) : asCompared (asCompared v) = asCompared v := by
  fun_cases asCompared v <;> simp_all [asCompared]

/-! ## The fallback -/

/-- What the fallback makes of a value. -/
def plainCell (value v : Option Json) : Option Json :=
  match value with
  | none => v
  | some d => if isNone v then some d else v

theorem plainCell_of_present {x : Json} (h : isNone (some x) = false) (value : Option Json) :
    plainCell value (some x) = some x := by
  cases value <;> simp [plainCell, h]

theorem get?_fillDefault (row : Record) (entry : String × Json) (c : String) :
    (fillDefault row entry).get? c =
      plainCell (if c = entry.1 then some entry.2 else none) (row.get? c) := by
  unfold fillDefault plainCell
  by_cases hc : c = entry.1
  · subst hc
    cases hnone : isNone (row.get? entry.1) <;> simp
  · cases hnone : isNone (row.get? entry.1) <;> simp [hc, Dict.get?_set]

theorem get?_foldl_fillDefault {items : List (String × Json)} (h : (items.map Prod.fst).Nodup)
    (row : Record) (c : String) : (items.foldl fillDefault row).get? c =
      plainCell ((items.find? (·.1 = c)).map Prod.snd) (row.get? c) := by
  induction items generalizing row with
  | nil => rfl
  | cons entry items ih =>
    obtain ⟨hnew, hrest⟩ := List.nodup_cons.1 h
    rw [List.foldl_cons, ih hrest, get?_fillDefault]
    by_cases hc : c = entry.1
    · subst hc
      have hnone : items.find? (·.1 = entry.1) = none := by
        rw [List.find?_eq_none]
        intro p hp
        have hne : p.1 ≠ entry.1 := fun heq => hnew (heq ▸ List.mem_map_of_mem hp)
        simpa using hne
      rw [hnone, if_pos rfl, List.find?_cons_of_pos (by simp)]
      rfl
    · have hne : ¬ entry.1 = c := fun heq => hc heq.symm
      rw [if_neg hc, List.find?_cons_of_neg (by simpa using hne)]
      rfl

/-- A row of the fallback. -/
theorem reading_sanitized (defaultValues row : Record) : reading (sanitized defaultValues row) =
    fun c => (plainCell (defaultValues.get? c) (row.get? c)).map asCompared := by
  funext c
  exact congrArg _ (get?_foldl_fillDefault defaultValues.nodup row c)

/-! ## The data frame -/

section Frame

variable {pd : Pandas} {records : List Record} {requiredFields : List String}
  {defaultValues : Record}

/-- What the frame makes of a value. -/
def frameCell (pd : Pandas) (records : List Record) (f : pd.Frame) (value : Option Json)
    (c : String) (v : Option Json) : Option Json :=
  if IsColumn records c then
    some (fillCell (pd.replacement f c) value (asCompared (cell (pd.stored records c) v)))
  else none

theorem cell_of_missing {v : Option Json} (h : isMissing v = true) (stored : Json → Json) :
    cell stored v = .null := by
  cases v with
  | none => rfl
  | some x => simp [cell, h]

theorem fillCell_null {replacement : Json → Except PyError Json} {d w : Json}
    (h : replacement d = .ok w) : fillCell replacement (some d) .null = w := by
  simp [fillCell, isNone, h, Except.toOption]

theorem fillCell_of_present {v : Json} (h : isNone (some v) = false)
    (replacement : Json → Except PyError Json) (value : Option Json) :
    fillCell replacement value v = v := by
  cases value <;> simp [fillCell, h]

theorem Pandas.Documented.mem_columns_iff (h : pd.Documented) {c : String} :
    c ∈ pd.columns (pd.dataFrame records) ↔ IsColumn records c := h.mem_columns records c

theorem Pandas.Documented.columns_ne_nil_iff (h : pd.Documented) :
    pd.columns (pd.dataFrame records) ≠ [] ↔ ∃ r ∈ records, r.keys ≠ [] := by
  constructor
  · intro hne
    obtain ⟨c, hc⟩ := List.exists_mem_of_ne_nil _ hne
    obtain ⟨r, hr, hkey⟩ := h.mem_columns_iff.1 hc
    exact ⟨r, hr, List.ne_nil_of_mem hkey⟩
  · rintro ⟨r, hr, hne⟩
    obtain ⟨c, hc⟩ := List.exists_mem_of_ne_nil _ hne
    exact List.ne_nil_of_mem (h.mem_columns_iff.2 ⟨r, hr, hc⟩)

theorem Pandas.Documented.columns_requiredFrame (h : pd.Documented) {c : String} :
    c ∈ pd.columns (requiredFrame records requiredFields pd) ↔ IsColumn records c := by
  unfold requiredFrame
  simp only
  split_ifs
  · exact h.mem_columns_iff
  · rw [h.columns_dropna]
    exact h.mem_columns_iff

theorem Pandas.Documented.isNone_cell (h : pd.Documented) (c : String) (v : Option Json) :
    isNone (some (cell (pd.stored records c) v)) = isMissing v := by
  cases v with
  | none => rfl
  | some x =>
    show isNone (some (if isMissing (some x) then .null else pd.stored records c x)) = _
    split_ifs with hmissing
    · rw [hmissing]
      rfl
    · rw [h.stored_present records c x (by simpa using hmissing)]
      simpa using hmissing

/-- The rows that are left: no required field leaves every row. -/
theorem Pandas.Documented.dropped_rows (h : pd.Documented) :
    (pd.toDict (requiredFrame records requiredFields pd)).map reading =
      ((pd.toDict (pd.dataFrame records)).map reading).filter fun row =>
        (requiredFields.filter fun f => f ∈ pd.columns (pd.dataFrame records)).all
          fun c => !isNone (row c) := by
  unfold requiredFrame
  simp only
  split_ifs with hnil
  · subst hnil
    simp
  · exact h.toDict_dropna _ _ fun c hc => by simpa using (List.mem_filter.1 hc).2

/-- The rows that are left, read off the records. -/
theorem Pandas.Documented.requiredFrame_rows (h : pd.Documented)
    (hsome : ∃ r ∈ records, r.keys ≠ []) :
    (pd.toDict (requiredFrame records requiredFields pd)).map reading =
      (records.filter fun r => FrameKeeps records requiredFields r).map fun r c =>
        if IsColumn records c then some (asCompared (cell (pd.stored records c) (r.get? c)))
        else none := by
  have hmem : ∀ c, c ∈ pd.columns (pd.dataFrame records) ↔ IsColumn records c :=
    fun c => h.mem_columns_iff
  rw [h.dropped_rows, h.toDict_dataFrame records (h.columns_ne_nil_iff.2 hsome), List.filter_map]
  simp only [hmem]
  congr 1
  apply List.filter_congr
  intro r _
  rw [Bool.eq_iff_iff]
  simp only [Function.comp_apply, List.all_filter, List.all_eq_true]
  rw [decide_eq_true_iff]
  refine forall₂_congr fun f _ => ?_
  by_cases hf : IsColumn records f <;> simp [hf, h.isNone_cell]

/-- The rows of a frame without columns: nothing is in them, and none is dropped. -/
theorem Pandas.Documented.requiredFrame_bare (h : pd.Documented)
    (hnone : ¬ ∃ r ∈ records, r.keys ≠ []) :
    (pd.toDict (requiredFrame records requiredFields pd)).map reading =
      List.replicate (rowCount records pd) fun _ => none := by
  have hcolumns : pd.columns (pd.dataFrame records) = [] := by
    by_contra hne
    exact hnone (h.columns_ne_nil_iff.1 hne)
  rw [h.dropped_rows, hcolumns]
  simp only [List.not_mem_nil, decide_false, List.filter_false, List.all_nil, List.filter_true]
  rw [List.eq_replicate_iff]
  refine ⟨List.length_map .., fun row hrow => ?_⟩
  obtain ⟨r, hr, rfl⟩ := List.mem_map.1 hrow
  funext c
  have hget := h.toDict_keys _ r hr c (by simp [hcolumns])
  simp [reading, hget]

/-- Filling, also with no values. -/
theorem Pandas.Documented.filledFrame_rows (h : pd.Documented) {f : pd.Frame}
    (hfillable : ∀ c v, c ∈ pd.columns f → defaultValues.get? c = some v →
      ∃ w, pd.replacement f c v = .ok w) :
    ∃ f', filledFrame defaultValues pd f = .ok f' ∧ (pd.toDict f').map reading =
      ((pd.toDict f).map reading).map fun row c =>
        (row c).map (fillCell (pd.replacement f c) (defaultValues.get? c)) := by
  unfold filledFrame
  split_ifs with hnil
  · have hnone : ∀ c, defaultValues.get? c = none := fun c => by simp [Dict.get?, hnil]
    have hfill : ∀ c, fillCell (pd.replacement f c) none = id := fun _ => rfl
    refine ⟨f, rfl, ?_⟩
    simp only [hnone, hfill, Option.map_id]
    exact (List.map_id _).symm
  · exact h.fillna_ok _ _ hfillable

/-- What is to come out of the frame. -/
def frameRows (pd : Pandas) (records : List Record) (requiredFields : List String)
    (defaultValues : Record) : List (String → Option Json) :=
  if ∃ r ∈ records, r.keys ≠ [] then
    (records.filter fun r => FrameKeeps records requiredFields r).map fun r c =>
      frameCell pd records (requiredFrame records requiredFields pd) (defaultValues.get? c) c
        (r.get? c)
  else List.replicate (rowCount records pd) fun _ => none

/-- What comes out of the frame. -/
theorem Pandas.Documented.cleanFrame_rows (h : pd.Documented)
    (hfillable : ∀ c v, IsColumn records c → defaultValues.get? c = some v →
      ∃ w, pd.replacement (requiredFrame records requiredFields pd) c v = .ok w) :
    ∃ l, cleanFrame records requiredFields defaultValues pd = .ok l ∧
      l.map reading = frameRows pd records requiredFields defaultValues := by
  have hcolumns : ∀ c v, c ∈ pd.columns (requiredFrame records requiredFields pd) →
      defaultValues.get? c = some v →
        ∃ w, pd.replacement (requiredFrame records requiredFields pd) c v = .ok w :=
    fun c v hc => hfillable c v (h.columns_requiredFrame.1 hc)
  obtain ⟨f', hok, hrows⟩ := h.filledFrame_rows hcolumns
  refine ⟨pd.toDict f', ?_, ?_⟩
  · unfold cleanFrame
    rw [hok]
    rfl
  · unfold frameRows
    rw [hrows]
    split_ifs with hsome
    · rw [h.requiredFrame_rows hsome, List.map_map]
      apply List.map_congr_left
      intro r _
      funext c
      unfold frameCell
      by_cases hc : IsColumn records c <;> simp [hc]
    · rw [h.requiredFrame_bare hsome, List.map_replicate]
      rfl

/-- A default of a column with which pandas cannot fill. -/
theorem Pandas.Documented.cleanFrame_error (h : pd.Documented) {c : String} {v : Json}
    {e : PyError} (hc : IsColumn records c) (hv : defaultValues.get? c = some v)
    (he : pd.replacement (requiredFrame records requiredFields pd) c v = .error e) :
    ∃ e', cleanFrame records requiredFields defaultValues pd = .error e' := by
  have hne : defaultValues.items ≠ [] := by
    intro hnil
    simp [Dict.get?, hnil] at hv
  have hcolumn : c ∈ pd.columns (requiredFrame records requiredFields pd) :=
    h.columns_requiredFrame.2 hc
  obtain ⟨e', he'⟩ := h.fillna_error defaultValues _ c v e hcolumn hv he
  refine ⟨e', ?_⟩
  unfold cleanFrame filledFrame
  rw [if_neg hne, he']
  rfl

/-! ## Both ways -/

/-- A value is NaN, it is `None`, or it is there. -/
theorem value_cases (x : Json) : isNaN x = true ∧ isNone (some x) = false ∨
    x = .null ∨ isMissing (some x) = false ∧ isNaN x = false ∧ isNone (some x) = false := by
  cases hx : isNaN x with
  | true => exact Or.inl ⟨rfl, by cases x <;> first | rfl | cases hx⟩
  | false =>
    right
    cases hnull : isNone (some x) with
    | true => exact Or.inl (by cases x <;> first | rfl | cases hnull)
    | false => exact Or.inr ⟨by simp [isMissing, hx, hnull], rfl, rfl⟩

/-- The frame has no NaN, and the fallback keeps it. -/
theorem Pandas.Documented.fillCell_ne_of_isNaN (h : pd.Documented) {f : pd.Frame}
    {value : Option Json} {c : String} {x : Json} (hnumber : isNaN x = true)
    (hfillable : ∀ d, value = some d → ∃ w, pd.replacement f c d = .ok w) :
    fillCell (pd.replacement f c) value .null ≠ asCompared x := by
  have hne : ∀ w, isNaN w = false → w ≠ asCompared x := by
    rintro w hw rfl
    rw [isNaN_asCompared, hnumber] at hw
    cases hw
  cases value with
  | none => exact hne .null rfl
  | some d =>
    obtain ⟨w, hw⟩ := hfillable d rfl
    rw [fillCell_null hw]
    exact hne w (h.replacement_missing f c d w hw)

/-- A column keeps a value that is there exactly if it keeps it as a wide integer. -/
theorem Pandas.Documented.stored_eq_iff (h : pd.Documented) (records : List Record) (c : String)
    (x : Json) : asCompared (pd.stored records c x) = asCompared x ↔
      (IsWide x → asCompared (pd.stored records c x) = asCompared x) := by
  refine ⟨fun heq _ => heq, fun hwide => ?_⟩
  by_cases hx : IsWide x
  · exact hwide hx
  · exact h.stored_eq records c x hx

/-- The two ways make the same of a value: where there is no column there is no default, where there
is no value there is one, the column keeps the value, and pandas fills with the default itself. -/
theorem Pandas.Documented.frameCell_eq_iff (h : pd.Documented) {f : pd.Frame}
    {value : Option Json} {c : String} {v : Option Json}
    (hfillable : ∀ d, IsColumn records c → value = some d → ∃ w, pd.replacement f c d = .ok w)
    (hcolumn : v ≠ none → IsColumn records c) :
    frameCell pd records f value c v = (plainCell value v).map asCompared ↔
      (value ≠ none → IsColumn records c) ∧ (IsColumn records c → v = none → value ≠ none) ∧
        (∀ x, v = some x → isNaN x = false) ∧
          (∀ x, v = some x → IsWide x → asCompared (pd.stored records c x) = asCompared x) ∧
            ∀ d, IsColumn records c → value = some d → isNone v = true →
              pd.replacement f c d = .ok (asCompared d) := by
  by_cases hc : IsColumn records c
  · have hfill : ∀ d, value = some d → ∃ w, pd.replacement f c d = .ok w :=
      fun d hd => hfillable d hc hd
    have hleft : frameCell pd records f value c v =
        some (fillCell (pd.replacement f c) value (asCompared (cell (pd.stored records c) v))) :=
      if_pos hc
    rw [hleft]
    rcases v with _ | x
    · rw [cell_of_missing rfl, asCompared_null]
      cases value with
      | none => simp [hc, plainCell]
      | some d =>
        obtain ⟨w, hw⟩ := hfill d rfl
        simp [hc, plainCell, isNone, fillCell_null hw, hw]
    · rcases value_cases x with ⟨hnumber, hsome⟩ | rfl | ⟨hpresent, hnumber, hsome⟩
      · rw [cell_of_missing (by simp [isMissing, hnumber]), asCompared_null,
          plainCell_of_present hsome]
        refine iff_of_false ?_ fun hall => ?_
        · simpa using h.fillCell_ne_of_isNaN hnumber hfill
        · rw [hall.2.2.1 x rfl] at hnumber
          cases hnumber
      · rw [cell_of_missing rfl, asCompared_null]
        cases value with
        | none => simp [hc, plainCell, fillCell, isNaN, IsWide]
        | some d =>
          obtain ⟨w, hw⟩ := hfill d rfl
          simp [hc, plainCell, isNone, fillCell_null hw, hw, isNaN, IsWide]
      · have hcell : cell (pd.stored records c) (some x) = pd.stored records c x := by
          simp [cell, hpresent]
        have hthere : isNone (some (asCompared (pd.stored records c x))) = false := by
          rw [isNone_asCompared]
          exact h.stored_present records c x hpresent
        rw [hcell, fillCell_of_present hthere, plainCell_of_present hsome]
        simp [hc, hnumber, hsome, ← h.stored_eq_iff]
  · have hv : v = none := by
      by_contra hne
      exact hc (hcolumn hne)
    have hleft : frameCell pd records f value c v = none := if_neg hc
    subst hv
    rw [hleft]
    cases value <;> simp [hc, plainCell, isNone]

/-- A record that a frame keeps has all required fields, if they are columns; otherwise no record
has them. -/
theorem hasRequired_of_frameKeeps (records : List Record) (requiredFields : List String) :
    (∀ r ∈ records, FrameKeeps records requiredFields r → hasRequired requiredFields r = true) ∨
      ∀ r ∈ records, hasRequired requiredFields r = false := by
  by_cases hall : ∀ f ∈ requiredFields, IsColumn records f
  · left
    intro r _ hkeeps
    simp only [hasRequired, Bool.not_eq_true', List.any_eq_false]
    intro f hf hnone
    have hpresent := hkeeps f hf (hall f hf)
    cases hget : r.get? f with
    | none =>
      rw [hget] at hpresent
      cases hpresent
    | some x =>
      rw [hget] at hnone hpresent
      simp [isMissing, hnone] at hpresent
  · right
    intro r hr
    obtain ⟨f, hf, hcolumn⟩ : ∃ f ∈ requiredFields, ¬ IsColumn records f := by
      simpa using hall
    have hget : r.get? f = none := Dict.get?_eq_none_iff.2 fun hmem => hcolumn ⟨r, hr, hmem⟩
    simp only [hasRequired, Bool.not_eq_false', List.any_eq_true]
    exact ⟨f, hf, by rw [hget]; rfl⟩

/-- Two ways to keep rows, of which one keeps all that the other keeps or nothing, keep as many
exactly if they keep the same. -/
theorem length_filter_eq_iff {α : Type} {l : List α} {p q : α → Bool}
    (h : (∀ a ∈ l, p a = true → q a = true) ∨ ∀ a ∈ l, q a = false) :
    (l.filter p).length = (l.filter q).length ↔ ∀ a ∈ l, p a = q a := by
  constructor
  · intro hlength
    rcases h with himp | hnone
    · have hsub : l.filter p = (l.filter q).filter p := by
        rw [List.filter_filter]
        apply List.filter_congr
        intro a ha
        cases hp : p a <;> simp [himp a ha, hp]
      rw [hsub] at hlength
      have hall := List.length_filter_eq_length_iff.1 hlength
      intro a ha
      cases hq : q a with
      | true => exact hall a (List.mem_filter.2 ⟨ha, hq⟩)
      | false =>
        by_contra hp
        have hqa := himp a ha (by simpa using hp)
        simp [hq] at hqa
    · have hq : l.filter q = [] := by
        rw [List.filter_eq_nil_iff]
        intro a ha
        simp [hnone a ha]
      rw [hq, List.length_nil, List.length_eq_zero_iff, List.filter_eq_nil_iff] at hlength
      intro a ha
      rw [hnone a ha]
      simpa using hlength a ha
  · intro heq
    rw [List.filter_congr heq]

/-- What is kept and changed in two such ways is the same exactly if the same is kept, and what is
kept is changed to the same. -/
theorem map_filter_eq_iff {α β : Type} {l : List α} {p q : α → Bool} {f g : α → β}
    (h : (∀ a ∈ l, p a = true → q a = true) ∨ ∀ a ∈ l, q a = false) :
    (l.filter p).map f = (l.filter q).map g ↔
      (∀ a ∈ l, p a = q a) ∧ ∀ a ∈ l, q a = true → f a = g a := by
  constructor
  · intro heq
    have hlength : (l.filter p).length = (l.filter q).length := by
      simpa using congrArg List.length heq
    have hsame := (length_filter_eq_iff h).1 hlength
    rw [List.filter_congr hsame, List.map_inj_left] at heq
    exact ⟨hsame, fun a ha hq => heq a (List.mem_filter.2 ⟨ha, hq⟩)⟩
  · rintro ⟨hsame, heq⟩
    rw [List.filter_congr hsame, List.map_inj_left]
    intro a ha
    exact heq a (List.mem_filter.1 ha).1 (List.mem_filter.1 ha).2

/-- With a frame that can be filled. -/
theorem Pandas.Documented.agree_iff_of_fillable (h : pd.Documented)
    (hfillable : ∀ c v, IsColumn records c → defaultValues.get? c = some v →
      ∃ w, pd.replacement (requiredFrame records requiredFields pd) c v = .ok w) :
    (∃ l, cleanFrame records requiredFields defaultValues pd = .ok l ∧
      l.map reading = (cleanPlain records requiredFields defaultValues).map reading) ↔
    (if ∃ r ∈ records, r.keys ≠ [] then ∀ r ∈ records,
        decide (FrameKeeps records requiredFields r) = hasRequired requiredFields r
      else rowCount records pd = (records.filter (hasRequired requiredFields)).length) ∧
      ∀ r ∈ records, hasRequired requiredFields r = true → ∀ c,
        frameCell pd records (requiredFrame records requiredFields pd) (defaultValues.get? c) c
          (r.get? c) = (plainCell (defaultValues.get? c) (r.get? c)).map asCompared := by
  obtain ⟨l, hok, hrows⟩ := h.cleanFrame_rows hfillable
  have hkept := hasRequired_of_frameKeeps records requiredFields
  have hplain : (cleanPlain records requiredFields defaultValues).map reading =
      (records.filter (hasRequired requiredFields)).map fun r c =>
        (plainCell (defaultValues.get? c) (r.get? c)).map asCompared := by
    unfold cleanPlain
    rw [List.map_map]
    apply List.map_congr_left
    intro r _
    exact reading_sanitized defaultValues r
  rw [hok, hplain]
  simp only [Except.ok.injEq, exists_eq_left', hrows, frameRows]
  split_ifs with hsome
  · rw [map_filter_eq_iff (by simpa using hkept)]
    simp only [funext_iff]
  · have hcell : ∀ c, ¬ IsColumn records c := by
      rintro c ⟨r, hr, hc⟩
      exact hsome ⟨r, hr, List.ne_nil_of_mem hc⟩
    rw [eq_comm, List.eq_replicate_iff, List.length_map]
    simp only [List.forall_mem_map, List.mem_filter, and_imp, funext_iff, frameCell, hcell,
      if_false, eq_comm]

/-- **The two ways** give the same records exactly under these conditions. -/
theorem paths_agree_iff (h : pd.Documented) (records : List Record) (requiredFields : List String)
    (defaultValues : Record) : PathsAgree records requiredFields defaultValues pd ↔
      Agreeable records requiredFields defaultValues pd := by
  have hpaths : PathsAgree records requiredFields defaultValues pd ↔ records = [] ∨
      ∃ l, cleanFrame records requiredFields defaultValues pd = .ok l ∧
        l.map reading = (cleanPlain records requiredFields defaultValues).map reading := by
    cases records <;> simp [PathsAgree, cleanRecords]
  rw [hpaths]
  constructor
  · rintro (rfl | hagree)
    · exact ⟨fun c v hc => absurd hc (by simp [IsColumn]), by simp, by simp, by simp, by simp,
        by simp, by simp, by simp⟩
    · have hfillable : ∀ c v, IsColumn records c → defaultValues.get? c = some v →
          ∃ w, pd.replacement (requiredFrame records requiredFields pd) c v = .ok w := by
        intro c v hc hv
        cases hw : pd.replacement (requiredFrame records requiredFields pd) c v with
        | ok w => exact ⟨w, rfl⟩
        | error e =>
          obtain ⟨e', he'⟩ := h.cleanFrame_error hc hv hw
          obtain ⟨l, hl, -⟩ := hagree
          cases he'.symm.trans hl
      obtain ⟨hsame, hcells⟩ := (h.agree_iff_of_fillable hfillable).1 hagree
      have hcell : ∀ r ∈ records, hasRequired requiredFields r = true → ∀ c, _ :=
        fun r hr hreq c => (h.frameCell_eq_iff (fun d hc hd => hfillable c d hc hd)
          (fun hne => ⟨r, hr, Dict.get?_ne_none_iff.1 hne⟩)).1 (hcells r hr hreq c)
      refine ⟨hfillable, fun hsome r hr => ?_, fun _ hnone => ?_, fun r hr hreq c hc => ?_,
        fun r hr hreq c hc hnot => ?_, fun r hr hreq c v hv => ?_, fun r hr hreq c v hv hwide => ?_,
        fun r hr hreq c v hc hv hnone => ?_⟩
      · rw [if_pos hsome] at hsame
        rw [← hsame r hr, decide_eq_true_eq]
      · rwa [if_neg (by simpa using hnone)] at hsame
      · exact (hcell r hr hreq c).1 (Dict.get?_ne_none_iff.2 hc)
      · have hsome := (hcell r hr hreq c).2.1 hc (Dict.get?_eq_none_iff.2 hnot)
        exact Dict.get?_ne_none_iff.1 hsome
      · exact (hcell r hr hreq c).2.2.1 v hv
      · exact (hcell r hr hreq c).2.2.2.1 v hv hwide
      · exact (hcell r hr hreq c).2.2.2.2 v hc hv hnone
  · intro hagreeable
    by_cases hempty : records = []
    · exact Or.inl hempty
    right
    rw [h.agree_iff_of_fillable hagreeable.fillable]
    refine ⟨?_, fun r hr hreq c => ?_⟩
    · split_ifs with hsome
      · intro r hr
        rw [Bool.eq_iff_iff, decide_eq_true_eq]
        exact hagreeable.kept hsome r hr
      · exact hagreeable.bare hempty (by simpa using hsome)
    · rw [h.frameCell_eq_iff (fun d hc hd => hagreeable.fillable c d hc hd)
        fun hne => ⟨r, hr, Dict.get?_ne_none_iff.1 hne⟩]
      refine ⟨fun hd => ?_, fun hc hv => ?_, fun x hx => hagreeable.numbers r hr hreq c x hx,
        fun x hx hwide => hagreeable.wide r hr hreq c x hx hwide,
        fun d hc hd hnone => hagreeable.filled r hr hreq c d hc hd hnone⟩
      · exact hagreeable.known r hr hreq c (Dict.get?_ne_none_iff.1 hd)
      · have hkey := hagreeable.given r hr hreq c hc (Dict.get?_eq_none_iff.1 hv)
        exact Dict.get?_ne_none_iff.2 hkey

end Frame

/-! ## Frames as grids -/

/-- A frame: its columns, and the cells of its rows. -/
structure Grid where
  columns : List String
  nodup : columns.Nodup
  rows : List (String → Json)

namespace Grid

/-- The cells of a row, as far as there are columns. -/
def read (g : Grid) (row : String → Json) (c : String) : Option Json :=
  if c ∈ g.columns then some (asCompared (row c)) else none

/-- A row as a record. -/
def record (g : Grid) (row : String → Json) : Record where
  items := g.columns.map fun c => (c, row c)
  nodup := by
    rw [List.map_map]
    exact (List.map_id _).symm ▸ g.nodup

theorem reading_record (g : Grid) (row : String → Json) : reading (g.record row) = g.read row := by
  funext c
  unfold reading read
  split_ifs with hc
  · have hget : (g.record row).get? c = some (row c) :=
      Dict.mem_items_iff.1 (List.mem_map.2 ⟨c, hc, rfl⟩)
    rw [hget]
    rfl
  · have hget : (g.record row).get? c = none := by
      rw [Dict.get?_eq_none_iff]
      simpa [Dict.keys, record, Function.comp_def] using hc
    rw [hget]
    rfl

/-- What a default fills with: a list with nothing, a dictionary with the values of its own keys, of
which no row is one, and anything else with itself. -/
def replacement : Json → Except PyError Json
  | .list _ => .error ⟨.typeError, "\"value\" parameter must be a scalar or dict"⟩
  | .obj _ => .ok .null
  | v => .ok (asCompared (cell id (some v)))

/-- The exception of the first default that fills nothing. -/
def refuses (values : Record) (c : String) : Option PyError :=
  (values.get? c).bind fun v =>
    match replacement v with
    | .ok _ => none
    | .error e => some e

/-- The rows that miss nothing in the columns given. -/
def drop (subset : List String) (g : Grid) : Grid :=
  { g with rows := g.rows.filter fun row => subset.all fun c => !isNone (g.read row c) }

/-- The rows with their missing cells filled. -/
def fill (values : Record) (g : Grid) : Grid :=
  { g with rows := g.rows.map fun row c => fillCell replacement (values.get? c) (row c) }

/-- The functions on grids. -/
def pandas : Pandas where
  Frame := Grid
  dataFrame records :=
    { columns := (records.flatMap (·.keys)).reverse.dedup.reverse
      nodup := List.nodup_reverse.2 (List.nodup_dedup _)
      rows := records.map fun r c => cell id (r.get? c) }
  columns := columns
  dropna := drop
  fillna values g :=
    match g.columns.findSome? (refuses values) with
    | some e => .error e
    | none => .ok (g.fill values)
  toDict g := g.rows.map g.record
  stored _ _ v := v
  replacement _ _ := replacement

theorem map_reading_toDict (g : Grid) : (pandas.toDict g).map reading = g.rows.map g.read := by
  show (g.rows.map g.record).map reading = _
  rw [List.map_map]
  exact List.map_congr_left fun row _ => g.reading_record row

theorem refuses_eq_none_iff {values : Record} {c : String} :
    refuses values c = none ↔ ∀ v, values.get? c = some v → ∃ w, replacement v = .ok w := by
  unfold refuses
  rw [Option.bind_eq_none_iff]
  refine forall₂_congr fun v _ => ?_
  cases replacement v <;> simp

theorem isNaN_cell (v : Option Json) : isNaN (cell id v) = false := by
  cases v with
  | none => rfl
  | some v =>
    show isNaN (if isMissing (some v) then .null else v) = false
    split_ifs with hv
    · rfl
    · simp only [isMissing, Bool.or_eq_true, not_or, Bool.not_eq_true] at hv
      exact hv.2

/-- What fills a cell is no NaN, and as it compares. -/
theorem replacement_ok {v w : Json} (h : replacement v = .ok w) :
    isNaN w = false ∧ asCompared w = w := by
  cases v with
  | list _ => cases h
  | obj _ =>
    cases h
    exact ⟨rfl, rfl⟩
  | null | bool _ | int _ | float _ | str _ =>
    cases h
    exact ⟨by rw [isNaN_asCompared]; exact isNaN_cell _, asCompared_asCompared _⟩

theorem fillCell_asCompared (value : Option Json) (v : Json) :
    asCompared (fillCell replacement value v) = fillCell replacement value (asCompared v) := by
  cases value with
  | none => rfl
  | some d =>
    unfold fillCell
    simp only [isNone_asCompared]
    split_ifs
    · cases hd : replacement d with
      | ok w => exact (replacement_ok hd).2
      | error e => rfl
    · rfl

theorem reading_dataFrame (records : List Record) :
    (pandas.toDict (pandas.dataFrame records)).map reading = records.map fun r c =>
      if c ∈ pandas.columns (pandas.dataFrame records) then some (asCompared (cell id (r.get? c)))
      else none := by
  refine (map_reading_toDict (g := pandas.dataFrame records)).trans ?_
  show (records.map _).map _ = _
  rw [List.map_map]
  rfl

theorem reading_drop (subset : List String) (g : Grid) :
    (pandas.toDict (drop subset g)).map reading =
      ((pandas.toDict g).map reading).filter fun row => subset.all fun c => !isNone (row c) := by
  rw [map_reading_toDict, map_reading_toDict, List.filter_map]
  rfl

theorem reading_fill (values : Record) (g : Grid) : (pandas.toDict (g.fill values)).map reading =
    ((pandas.toDict g).map reading).map fun row c =>
      (row c).map (fillCell replacement (values.get? c)) := by
  rw [map_reading_toDict, map_reading_toDict]
  simp only [fill, List.map_map]
  apply List.map_congr_left
  intro row _
  funext c
  by_cases hc : c ∈ g.columns <;> simp [read, hc, fillCell_asCompared]

/-- Grids behave as documented. -/
theorem pandas_documented : pandas.Documented where
  mem_columns records c := by
    show c ∈ (records.flatMap (·.keys)).reverse.dedup.reverse ↔ _
    simp
  toDict_keys g row hrow c hc := by
    obtain ⟨cells, -, rfl⟩ := List.mem_map.1 hrow
    have hread := (congrFun (reading_record g cells) c).trans (if_neg hc)
    simpa [reading] using hread
  toDict_dataFrame records _ := reading_dataFrame records
  stored_present _ _ v hv := by
    simp only [isMissing, Bool.or_eq_false_iff] at hv
    exact hv.1
  stored_eq _ _ _ _ := rfl
  columns_dropna _ _ := rfl
  toDict_dropna subset g _ := reading_drop subset g
  fillna_error values g c v e hc hv he := by
    cases hrefuses : g.columns.findSome? (refuses values) with
    | some e' => exact ⟨e', by simp [pandas, hrefuses]⟩
    | none =>
      have hnone := List.findSome?_eq_none_iff.1 hrefuses c hc
      obtain ⟨w, hw⟩ := refuses_eq_none_iff.1 hnone v hv
      have herror : replacement v = .error e := he
      cases herror.symm.trans hw
  fillna_ok values g hfillable := by
    have hrefuses : g.columns.findSome? (refuses values) = none := by
      rw [List.findSome?_eq_none_iff]
      intro c hc
      exact refuses_eq_none_iff.2 fun v hv => hfillable c v hc hv
    exact ⟨fill values g, by simp [pandas, hrefuses], reading_fill values g⟩
  replacement_missing _ _ _ _ hw := (replacement_ok hw).1

end Grid

/-- A record that misses an address, and one that has it. -/
def contacts : List Record :=
  [⟨[("id", .int 1), ("email", .null)], by decide⟩,
    ⟨[("id", .int 2), ("email", .str "a")], by decide⟩]

/-- Records of the same keys, an address for those that have none. -/
theorem paths_agree_contacts :
    PathsAgree contacts ["id"] ⟨[("email", .str "-")], by decide⟩ Grid.pandas := by
  have hdefault : ∀ {c v}, (⟨[("email", Json.str "-")], by decide⟩ : Record).get? c = some v →
      c = "email" ∧ v = .str "-" := by
    intro c v hv
    simpa using Dict.mem_items_iff.2 hv
  have hkeys : ∀ r ∈ contacts, r.keys = ["id", "email"] := by decide
  have hcolumn : ∀ r ∈ contacts, ∀ c, IsColumn contacts c → c ∈ r.keys := by
    rintro r hr c ⟨r', hr', hc⟩
    rw [hkeys r hr, ← hkeys r' hr']
    exact hc
  have hvalue : ∀ r ∈ contacts, ∀ c v, r.get? c = some v →
      v = .int 1 ∨ v = .null ∨ v = .int 2 ∨ v = .str "a" := by
    intro r hr c v hv
    have hitem := Dict.mem_items_iff.2 hv
    simp only [contacts, List.mem_cons, List.not_mem_nil, or_false] at hr
    rcases hr with rfl | rfl
    · simp only [List.mem_cons, Prod.mk.injEq, List.not_mem_nil, or_false] at hitem
      rcases hitem with ⟨-, rfl⟩ | ⟨-, rfl⟩ <;> simp
    · simp only [List.mem_cons, Prod.mk.injEq, List.not_mem_nil, or_false] at hitem
      rcases hitem with ⟨-, rfl⟩ | ⟨-, rfl⟩ <;> simp
  have hbare : ¬ ∀ r ∈ contacts, r.keys = [] := by decide
  refine (paths_agree_iff Grid.pandas_documented _ _ _).2
    { fillable := fun c v _ hv => ?_
      kept := fun _ => by decide
      bare := fun _ hnone => absurd hnone hbare
      known := by decide
      given := fun r hr _ c hc hnot => absurd (hcolumn r hr c hc) hnot
      numbers := fun r hr _ c v hv => ?_
      wide := fun _ _ _ _ _ _ _ => rfl
      filled := fun r _ _ c v _ hv _ => ?_ }
  · obtain ⟨rfl, rfl⟩ := hdefault hv
    exact ⟨_, rfl⟩
  · rcases hvalue r hr c v hv with rfl | rfl | rfl | rfl <;> rfl
  · obtain ⟨rfl, rfl⟩ := hdefault hv
    rfl

/-- A required field that no record has. -/
theorem not_pathsAgree_missing : ¬ ∀ (pd : Pandas), pd.Documented → ∀ (records : List Record)
    (requiredFields : List String) (defaultValues : Record),
      PathsAgree records requiredFields defaultValues pd := by
  intro hall
  obtain ⟨l, l', hl, hl', hsame⟩ := hall Grid.pandas Grid.pandas_documented
    [⟨[("id", .int 1)], by decide⟩] ["email"] Dict.empty
  cases hl
  cases hl'
  cases hsame

end FlowMesh.Transform
