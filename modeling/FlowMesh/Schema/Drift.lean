import Mathlib.Data.Nat.Basic
import Mathlib.Order.Lattice
import FlowMesh.Library.Dict

/-!
# Schema drift

`SchemaDriftDetector.detect` of `schema/drift.py` compares two discovered schemas. Tables and
columns are put into dictionaries under their names in lower case, so the last one of a name counts,
and `schema_name` is not looked at. `str.lower` is a parameter here.

Each loop appends to the changes what it finds and counts it by hand: `mem_changes_iff` says what is
found, and `sound_compareTables` that the counters are right.
-/

namespace FlowMesh.SchemaDrift

/-! ## The models -/

/-- `ColumnInfo`. -/
structure ColumnInfo where
  name : String
  dataType : String
  nullable : Bool := true
  isPrimaryKey : Bool := false

/-- `TableInfo`. -/
structure TableInfo where
  schemaName : String
  tableName : String
  columns : List ColumnInfo

/-- `DiscoveryGraph`; the relationships and the metadata play no part. -/
structure DiscoveryGraph where
  entities : List TableInfo := []

/-- `DriftChangeType`. -/
inductive DriftChangeType
  | tableAdded
  | tableDropped
  | columnAdded
  | columnDropped
  | typeChanged
  | nullabilityChanged
  | primaryKeyChanged
  deriving DecidableEq

/-- `DriftSeverity`. -/
inductive DriftSeverity
  | none
  | info
  | warning
  | critical
  deriving DecidableEq

/-- `DriftChange`. -/
structure DriftChange where
  changeType : DriftChangeType
  severity : DriftSeverity
  tableName : String
  columnName : Option String := .none
  oldValue : Option String
  newValue : Option String
  description : String

/-- `DriftReport`. -/
structure DriftReport where
  connectionId : String
  hasDrift : Bool
  highestSeverity : DriftSeverity
  breakingChangesCount : ℕ
  warningsCount : ℕ
  changes : List DriftChange
  baselineEntitiesCount : ℕ
  currentEntitiesCount : ℕ
  evaluatedAt : String

/-! ## The changes -/

/-- A truth value in an f-string. -/
def text (b : Bool) : String := if b then "True" else "False"

/-- `TABLE_DROPPED`. -/
def tableDropped (baseTbl : TableInfo) : DriftChange where
  changeType := .tableDropped
  severity := .critical
  tableName := baseTbl.tableName
  oldValue := some baseTbl.tableName
  newValue := .none
  description := "Table '" ++ baseTbl.tableName ++ "' was dropped from upstream database."

/-- `TABLE_ADDED`. -/
def tableAdded (curTbl : TableInfo) : DriftChange where
  changeType := .tableAdded
  severity := .warning
  tableName := curTbl.tableName
  oldValue := .none
  newValue := some curTbl.tableName
  description := "New table '" ++ curTbl.tableName ++ "' was discovered upstream."

/-- `COLUMN_DROPPED`. -/
def columnDropped (baseTbl : TableInfo) (bCol : ColumnInfo) : DriftChange where
  changeType := .columnDropped
  severity := .critical
  tableName := baseTbl.tableName
  columnName := some bCol.name
  oldValue := some (bCol.name ++ " (" ++ bCol.dataType ++ ")")
  newValue := .none
  description := "Column '" ++ bCol.name ++ "' (" ++ bCol.dataType ++ ") was removed from '" ++
    baseTbl.tableName ++ "'."

/-- `COLUMN_ADDED`. -/
def columnAdded (baseTbl curTbl : TableInfo) (cCol : ColumnInfo) : DriftChange where
  changeType := .columnAdded
  severity := if !cCol.nullable then .critical else .warning
  tableName := curTbl.tableName
  columnName := some cCol.name
  oldValue := .none
  newValue := some (cCol.name ++ " (" ++ cCol.dataType ++ ")")
  description :=
    if !cCol.nullable then
      "New NOT NULL column '" ++ cCol.name ++ "' (" ++ cCol.dataType ++ ") added to '" ++
        baseTbl.tableName ++ "'. May break workflow inserts."
    else
      "New optional column '" ++ cCol.name ++ "' (" ++ cCol.dataType ++ ") added to '" ++
        baseTbl.tableName ++ "'."

/-- `TYPE_CHANGED`. -/
def typeChanged (baseTbl : TableInfo) (bCol cCol : ColumnInfo) : DriftChange where
  changeType := .typeChanged
  severity := .critical
  tableName := baseTbl.tableName
  columnName := some bCol.name
  oldValue := some bCol.dataType
  newValue := some cCol.dataType
  description := "Column '" ++ bCol.name ++ "' data type changed from '" ++ bCol.dataType ++
    "' to '" ++ cCol.dataType ++ "'."

/-- `NULLABILITY_CHANGED`. -/
def nullabilityChanged (baseTbl : TableInfo) (bCol cCol : ColumnInfo) : DriftChange where
  changeType := .nullabilityChanged
  severity := if bCol.nullable && !cCol.nullable then .critical else .warning
  tableName := baseTbl.tableName
  columnName := some bCol.name
  oldValue := some ("nullable=" ++ text bCol.nullable)
  newValue := some ("nullable=" ++ text cCol.nullable)
  description :=
    if bCol.nullable && !cCol.nullable then
      "Column '" ++ bCol.name ++ "' changed from nullable to NOT NULL (breaking constraint)."
    else "Column '" ++ bCol.name ++ "' constraint relaxed to nullable."

/-- `PRIMARY_KEY_CHANGED`. -/
def primaryKeyChanged (baseTbl : TableInfo) (bCol cCol : ColumnInfo) : DriftChange where
  changeType := .primaryKeyChanged
  severity := .critical
  tableName := baseTbl.tableName
  columnName := some bCol.name
  oldValue := some ("pk=" ++ text bCol.isPrimaryKey)
  newValue := some ("pk=" ++ text cCol.isPrimaryKey)
  description := "Primary key status on column '" ++ bCol.name ++ "' was modified."

/-! ## The loops -/

/-- The changes so far and the two counters. -/
@[ext] structure Tally where
  changes : List DriftChange := []
  breakingCount : ℕ := 0
  warningsCount : ℕ := 0

namespace Tally

/-- A change is appended, and counted as breaking. -/
def breaking (t : Tally) (c : DriftChange) : Tally :=
  { t with changes := t.changes ++ [c], breakingCount := t.breakingCount + 1 }

/-- A change is appended, and counted as a warning. -/
def warning (t : Tally) (c : DriftChange) : Tally :=
  { t with changes := t.changes ++ [c], warningsCount := t.warningsCount + 1 }

end Tally

/-- The loop body for the dropped tables. -/
def checkDroppedTable (currentTables : Dict String TableInfo) (t : Tally)
    (p : String × TableInfo) : Tally :=
  if p.1 ∉ currentTables.keys then t.breaking (tableDropped p.2) else t

/-- The loop body for the added tables. -/
def checkAddedTable (baselineTables : Dict String TableInfo) (t : Tally) (p : String × TableInfo) :
    Tally :=
  if p.1 ∉ baselineTables.keys then t.warning (tableAdded p.2) else t

/-- The loop body for the dropped columns. -/
def checkDroppedColumn (baseTbl : TableInfo) (curCols : Dict String ColumnInfo) (t : Tally)
    (p : String × ColumnInfo) : Tally :=
  if p.1 ∉ curCols.keys then t.breaking (columnDropped baseTbl p.2) else t

/-- The loop body for the added columns. -/
def checkAddedColumn (baseTbl curTbl : TableInfo) (baseCols : Dict String ColumnInfo) (t : Tally)
    (p : String × ColumnInfo) : Tally :=
  if p.1 ∉ baseCols.keys then
    if !p.2.nullable then t.breaking (columnAdded baseTbl curTbl p.2)
    else t.warning (columnAdded baseTbl curTbl p.2)
  else t

section Lower

variable (lower : String → String)

/-- The types of two columns. -/
def checkType (baseTbl : TableInfo) (bCol cCol : ColumnInfo) (t : Tally) : Tally :=
  if lower bCol.dataType ≠ lower cCol.dataType then t.breaking (typeChanged baseTbl bCol cCol)
  else t

/-- Whether two columns may be null. -/
def checkNullability (baseTbl : TableInfo) (bCol cCol : ColumnInfo) (t : Tally) : Tally :=
  if bCol.nullable ≠ cCol.nullable then
    if bCol.nullable && !cCol.nullable then t.breaking (nullabilityChanged baseTbl bCol cCol)
    else t.warning (nullabilityChanged baseTbl bCol cCol)
  else t

/-- Whether two columns are part of the primary key. -/
def checkPrimaryKey (baseTbl : TableInfo) (bCol cCol : ColumnInfo) (t : Tally) : Tally :=
  if bCol.isPrimaryKey ≠ cCol.isPrimaryKey then t.breaking (primaryKeyChanged baseTbl bCol cCol)
  else t

/-- The loop body for the columns of both tables. -/
def checkCommonColumn (baseTbl : TableInfo) (curCols : Dict String ColumnInfo) (t : Tally)
    (p : String × ColumnInfo) : Tally :=
  match curCols.get? p.1 with
  | some cCol => checkPrimaryKey baseTbl p.2 cCol
      (checkNullability baseTbl p.2 cCol (checkType lower baseTbl p.2 cCol t))
  | .none => t

/-- The columns of a table. -/
def columnsOf (tbl : TableInfo) : Dict String ColumnInfo :=
  .collect (fun c => lower c.name) tbl.columns

/-- The loop body for the tables of both schemas. -/
def checkCommonTable (currentTables : Dict String TableInfo) (t : Tally) (p : String × TableInfo) :
    Tally :=
  match currentTables.get? p.1 with
  | some curTbl =>
    let baseCols := columnsOf lower p.2
    let curCols := columnsOf lower curTbl
    let t := baseCols.items.foldl (checkDroppedColumn p.2 curCols) t
    let t := curCols.items.foldl (checkAddedColumn p.2 curTbl baseCols) t
    baseCols.items.foldl (checkCommonColumn lower p.2 curCols) t
  | .none => t

/-- The tables of a schema. -/
def tablesOf (graph : DiscoveryGraph) : Dict String TableInfo :=
  .collect (fun t => lower t.tableName) graph.entities

/-- The three loops over the tables. -/
def compareTables (baseline current : DiscoveryGraph) : Tally :=
  let baselineTables := tablesOf lower baseline
  let currentTables := tablesOf lower current
  let t := baselineTables.items.foldl (checkDroppedTable currentTables) {}
  let t := currentTables.items.foldl (checkAddedTable baselineTables) t
  baselineTables.items.foldl (checkCommonTable lower currentTables) t

/-- `SchemaDriftDetector.detect`, at a given time. -/
def detect (evaluatedAt connectionId : String) (baseline current : DiscoveryGraph) : DriftReport :=
  let t := compareTables lower baseline current
  { connectionId
    hasDrift := 0 < t.changes.length
    highestSeverity :=
      if 0 < t.breakingCount then .critical else if 0 < t.warningsCount then .warning else .none
    breakingChangesCount := t.breakingCount
    warningsCount := t.warningsCount
    changes := t.changes
    baselineEntitiesCount := baseline.entities.length
    currentEntitiesCount := current.entities.length
    evaluatedAt }

end Lower

/-! ## The counters -/

/-- The counters are right, and all changes are counted. -/
structure Tally.Sound (t : Tally) : Prop where
  breaking : t.breakingCount = t.changes.countP (·.severity = .critical)
  warnings : t.warningsCount = t.changes.countP (·.severity = .warning)
  severity : ∀ c ∈ t.changes, c.severity = .critical ∨ c.severity = .warning

section Counters

variable {t : Tally} {c : DriftChange}

theorem sound_empty : ({} : Tally).Sound := ⟨rfl, rfl, fun _ hc => absurd hc List.not_mem_nil⟩

theorem Tally.Sound.addBreaking (h : t.Sound) (hc : c.severity = .critical) :
    (t.breaking c).Sound where
  breaking := by
    simp [Tally.breaking, List.countP_append, h.breaking, hc]
  warnings := by
    simp [Tally.breaking, List.countP_append, h.warnings, hc]
  severity := by
    intro c' hc'
    rcases List.mem_append.1 hc' with hc' | hc'
    · exact h.severity c' hc'
    · exact Or.inl (List.mem_singleton.1 hc' ▸ hc)

theorem Tally.Sound.addWarning (h : t.Sound) (hc : c.severity = .warning) :
    (t.warning c).Sound where
  breaking := by
    simp [Tally.warning, List.countP_append, h.breaking, hc]
  warnings := by
    simp [Tally.warning, List.countP_append, h.warnings, hc]
  severity := by
    intro c' hc'
    rcases List.mem_append.1 hc' with hc' | hc'
    · exact h.severity c' hc'
    · exact Or.inr (List.mem_singleton.1 hc' ▸ hc)

/-- A loop keeps the counters right if its body does. -/
theorem sound_foldl {β : Type} {step : Tally → β → Tally}
    (hstep : ∀ t p, t.Sound → (step t p).Sound) (l : List β) {t : Tally} (h : t.Sound) :
    (l.foldl step t).Sound := by
  induction l generalizing t with
  | nil => exact h
  | cons p l ih => exact ih (hstep t p h)

theorem sound_checkDroppedTable (tables : Dict String TableInfo) (t : Tally)
    (p : String × TableInfo) (h : t.Sound) : (checkDroppedTable tables t p).Sound := by
  unfold checkDroppedTable
  split
  · exact h.addBreaking rfl
  · exact h

theorem sound_checkAddedTable (tables : Dict String TableInfo) (t : Tally) (p : String × TableInfo)
    (h : t.Sound) : (checkAddedTable tables t p).Sound := by
  unfold checkAddedTable
  split
  · exact h.addWarning rfl
  · exact h

theorem sound_checkDroppedColumn (baseTbl : TableInfo) (cols : Dict String ColumnInfo) (t : Tally)
    (p : String × ColumnInfo) (h : t.Sound) : (checkDroppedColumn baseTbl cols t p).Sound := by
  unfold checkDroppedColumn
  split
  · exact h.addBreaking rfl
  · exact h

theorem sound_checkAddedColumn (baseTbl curTbl : TableInfo) (cols : Dict String ColumnInfo)
    (t : Tally) (p : String × ColumnInfo) (h : t.Sound) :
    (checkAddedColumn baseTbl curTbl cols t p).Sound := by
  unfold checkAddedColumn
  split
  · split
    · next hnull => exact h.addBreaking (if_pos hnull)
    · next hnull => exact h.addWarning (if_neg hnull)
  · exact h

variable (lower : String → String)

theorem sound_checkCommonColumn (baseTbl : TableInfo) (cols : Dict String ColumnInfo) (t : Tally)
    (p : String × ColumnInfo) (h : t.Sound) : (checkCommonColumn lower baseTbl cols t p).Sound := by
  unfold checkCommonColumn
  cases cols.get? p.1 with
  | none => exact h
  | some cCol =>
    have htype : (checkType lower baseTbl p.2 cCol t).Sound := by
      unfold checkType
      split
      · exact h.addBreaking rfl
      · exact h
    have hnull :
        (checkNullability baseTbl p.2 cCol (checkType lower baseTbl p.2 cCol t)).Sound := by
      unfold checkNullability
      split
      · split
        · next hnull => exact htype.addBreaking (if_pos hnull)
        · next hnull => exact htype.addWarning (if_neg hnull)
      · exact htype
    show (checkPrimaryKey baseTbl p.2 cCol _).Sound
    unfold checkPrimaryKey
    split
    · exact hnull.addBreaking rfl
    · exact hnull

theorem sound_checkCommonTable (tables : Dict String TableInfo) (t : Tally)
    (p : String × TableInfo) (h : t.Sound) : (checkCommonTable lower tables t p).Sound := by
  unfold checkCommonTable
  cases tables.get? p.1 with
  | none => exact h
  | some curTbl =>
    have hdropped := sound_foldl (sound_checkDroppedColumn p.2 (columnsOf lower curTbl))
      (columnsOf lower p.2).items h
    have hadded := sound_foldl (sound_checkAddedColumn p.2 curTbl (columnsOf lower p.2))
      (columnsOf lower curTbl).items hdropped
    exact sound_foldl (sound_checkCommonColumn lower p.2 (columnsOf lower curTbl)) _ hadded

/-- The counters are right at the end. -/
theorem sound_compareTables (baseline current : DiscoveryGraph) :
    (compareTables lower baseline current).Sound := by
  have hdropped := sound_foldl (sound_checkDroppedTable (tablesOf lower current))
    (tablesOf lower baseline).items sound_empty
  have hadded := sound_foldl (sound_checkAddedTable (tablesOf lower baseline))
    (tablesOf lower current).items hdropped
  exact sound_foldl (sound_checkCommonTable lower (tablesOf lower current)) _ hadded

end Counters

/-! ## What is found -/

section Found

/-- A loop finds what its body finds. -/
theorem mem_foldl {β : Type} {step : Tally → β → Tally} {New : β → DriftChange → Prop}
    (hstep : ∀ t p c, c ∈ (step t p).changes ↔ c ∈ t.changes ∨ New p c) (l : List β) (t : Tally)
    (c : DriftChange) : c ∈ (l.foldl step t).changes ↔ c ∈ t.changes ∨ ∃ p ∈ l, New p c := by
  induction l generalizing t with
  | nil => simp
  | cons p l ih =>
    rw [List.foldl_cons, ih, hstep, List.exists_mem_cons_iff, or_assoc]

/-- A body that appends a change under a condition. -/
theorem mem_ite {cond : Prop} [Decidable cond] {t t' : Tally} {c d : DriftChange}
    (h : t'.changes = t.changes ++ [d]) :
    c ∈ (if cond then t' else t).changes ↔ c ∈ t.changes ∨ (cond ∧ c = d) := by
  split
  · next hcond => simp [h, hcond]
  · next hcond => simp [hcond]

theorem mem_checkDroppedTable (tables : Dict String TableInfo) (t : Tally) (p : String × TableInfo)
    (c : DriftChange) : c ∈ (checkDroppedTable tables t p).changes ↔
      c ∈ t.changes ∨ (p.1 ∉ tables.keys ∧ c = tableDropped p.2) := mem_ite rfl

theorem mem_checkAddedTable (tables : Dict String TableInfo) (t : Tally) (p : String × TableInfo)
    (c : DriftChange) : c ∈ (checkAddedTable tables t p).changes ↔
      c ∈ t.changes ∨ (p.1 ∉ tables.keys ∧ c = tableAdded p.2) := mem_ite rfl

theorem mem_checkDroppedColumn (baseTbl : TableInfo) (cols : Dict String ColumnInfo) (t : Tally)
    (p : String × ColumnInfo) (c : DriftChange) :
    c ∈ (checkDroppedColumn baseTbl cols t p).changes ↔
      c ∈ t.changes ∨ (p.1 ∉ cols.keys ∧ c = columnDropped baseTbl p.2) := mem_ite rfl

theorem mem_checkAddedColumn (baseTbl curTbl : TableInfo) (cols : Dict String ColumnInfo)
    (t : Tally) (p : String × ColumnInfo) (c : DriftChange) :
    c ∈ (checkAddedColumn baseTbl curTbl cols t p).changes ↔
      c ∈ t.changes ∨ (p.1 ∉ cols.keys ∧ c = columnAdded baseTbl curTbl p.2) := by
  refine mem_ite ?_
  split <;> rfl

variable (lower : String → String)

/-- What is found in a column of both tables. -/
def ColumnChange (baseTbl : TableInfo) (bCol cCol : ColumnInfo) (c : DriftChange) : Prop :=
  (lower bCol.dataType ≠ lower cCol.dataType ∧ c = typeChanged baseTbl bCol cCol) ∨
    (bCol.nullable ≠ cCol.nullable ∧ c = nullabilityChanged baseTbl bCol cCol) ∨
      (bCol.isPrimaryKey ≠ cCol.isPrimaryKey ∧ c = primaryKeyChanged baseTbl bCol cCol)

theorem mem_checkCommonColumn (baseTbl : TableInfo) (cols : Dict String ColumnInfo) (t : Tally)
    (p : String × ColumnInfo) (c : DriftChange) :
    c ∈ (checkCommonColumn lower baseTbl cols t p).changes ↔
      c ∈ t.changes ∨
        ∃ cCol, cols.get? p.1 = some cCol ∧ ColumnChange lower baseTbl p.2 cCol c := by
  unfold checkCommonColumn
  cases cols.get? p.1 with
  | none => simp
  | some cCol =>
    have htype : c ∈ (checkType lower baseTbl p.2 cCol t).changes ↔ c ∈ t.changes ∨
        (lower p.2.dataType ≠ lower cCol.dataType ∧ c = typeChanged baseTbl p.2 cCol) :=
      mem_ite rfl
    have hnull : ∀ t, c ∈ (checkNullability baseTbl p.2 cCol t).changes ↔ c ∈ t.changes ∨
        (p.2.nullable ≠ cCol.nullable ∧ c = nullabilityChanged baseTbl p.2 cCol) := by
      refine fun t => mem_ite ?_
      split <;> rfl
    have hkey : ∀ t, c ∈ (checkPrimaryKey baseTbl p.2 cCol t).changes ↔ c ∈ t.changes ∨
        (p.2.isPrimaryKey ≠ cCol.isPrimaryKey ∧ c = primaryKeyChanged baseTbl p.2 cCol) :=
      fun t => mem_ite rfl
    simp only [hkey, hnull, htype, Option.some.injEq, exists_eq_left']
    unfold ColumnChange
    tauto

/-- What is found in a table of both schemas. -/
def TableChange (baseTbl curTbl : TableInfo) (c : DriftChange) : Prop :=
  (∃ p ∈ (columnsOf lower baseTbl).items, p.1 ∉ (columnsOf lower curTbl).keys ∧
      c = columnDropped baseTbl p.2) ∨
    (∃ p ∈ (columnsOf lower curTbl).items, p.1 ∉ (columnsOf lower baseTbl).keys ∧
      c = columnAdded baseTbl curTbl p.2) ∨
    ∃ p ∈ (columnsOf lower baseTbl).items, ∃ cCol, (columnsOf lower curTbl).get? p.1 = some cCol ∧
      ColumnChange lower baseTbl p.2 cCol c

theorem mem_checkCommonTable (tables : Dict String TableInfo) (t : Tally) (p : String × TableInfo)
    (c : DriftChange) : c ∈ (checkCommonTable lower tables t p).changes ↔
      c ∈ t.changes ∨ ∃ curTbl, tables.get? p.1 = some curTbl ∧
        TableChange lower p.2 curTbl c := by
  unfold checkCommonTable
  cases tables.get? p.1 with
  | none => simp
  | some curTbl =>
    dsimp only
    rw [mem_foldl (mem_checkCommonColumn lower p.2 (columnsOf lower curTbl)),
      mem_foldl (mem_checkAddedColumn p.2 curTbl (columnsOf lower p.2)),
      mem_foldl (mem_checkDroppedColumn p.2 (columnsOf lower curTbl)), or_assoc, or_assoc]
    simp only [Option.some.injEq, exists_eq_left']
    rfl

/-- **What is reported**: the dropped tables, the added ones, and what is found in those of both
schemas. -/
theorem mem_changes_iff (baseline current : DiscoveryGraph) (c : DriftChange) :
    c ∈ (compareTables lower baseline current).changes ↔
      (∃ p ∈ (tablesOf lower baseline).items, p.1 ∉ (tablesOf lower current).keys ∧
          c = tableDropped p.2) ∨
        (∃ p ∈ (tablesOf lower current).items, p.1 ∉ (tablesOf lower baseline).keys ∧
          c = tableAdded p.2) ∨
        ∃ p ∈ (tablesOf lower baseline).items, ∃ curTbl,
          (tablesOf lower current).get? p.1 = some curTbl ∧ TableChange lower p.2 curTbl c := by
  unfold compareTables
  dsimp only
  rw [mem_foldl (mem_checkCommonTable lower (tablesOf lower current)),
    mem_foldl (mem_checkAddedTable (tablesOf lower baseline)),
    mem_foldl (mem_checkDroppedTable (tablesOf lower current)), or_assoc, or_assoc]
  simp only [List.not_mem_nil, false_or]

end Found

/-! ## No drift -/

section NoDrift

variable (lower : String → String)

/-- The table that counts for a name: the last one that is listed. -/
def tableNamed (graph : DiscoveryGraph) (name : String) : Option TableInfo :=
  graph.entities.reverse.find? (lower ·.tableName = name)

/-- The column that counts for a name. -/
def columnNamed (tbl : TableInfo) (name : String) : Option ColumnInfo :=
  tbl.columns.reverse.find? (lower ·.name = name)

/-- Two columns of the same type, up to case, and the same flags. -/
structure SameColumn (b c : ColumnInfo) : Prop where
  dataType : lower b.dataType = lower c.dataType
  nullable : b.nullable = c.nullable
  isPrimaryKey : b.isPrimaryKey = c.isPrimaryKey

/-- Two tables with the same columns under each name. -/
def SameTable (b c : TableInfo) : Prop :=
  ∀ name, Option.Rel (SameColumn lower) (columnNamed lower b name) (columnNamed lower c name)

/-- Two schemas with the same tables under each name. -/
def SameSchema (baseline current : DiscoveryGraph) : Prop :=
  ∀ name, Option.Rel (SameTable lower) (tableNamed lower baseline name)
    (tableNamed lower current name)

theorem get?_tablesOf (graph : DiscoveryGraph) (name : String) :
    (tablesOf lower graph).get? name = tableNamed lower graph name := Dict.get?_collect _ _ _

theorem get?_columnsOf (tbl : TableInfo) (name : String) :
    (columnsOf lower tbl).get? name = columnNamed lower tbl name := Dict.get?_collect _ _ _

/-- Two dictionaries whose items agree, key by key. -/
theorem rel_iff {ν : Type} {r : ν → ν → Prop} {d d' : Dict String ν} :
    (∀ k, Option.Rel r (d.get? k) (d'.get? k)) ↔
      (∀ p ∈ d.items, p.1 ∈ d'.keys) ∧ (∀ p ∈ d'.items, p.1 ∈ d.keys) ∧
        ∀ p ∈ d.items, ∀ w, d'.get? p.1 = some w → r p.2 w := by
  constructor
  · intro h
    refine ⟨fun p hp => ?_, fun p hp => ?_, fun p hp w hw => ?_⟩
    · have hrel := h p.1
      rw [Dict.mem_items_iff.1 hp] at hrel
      rw [Dict.mem_keys_iff]
      cases hget : d'.get? p.1 with
      | none =>
        rw [hget] at hrel
        cases hrel
      | some w => exact ⟨w, rfl⟩
    · have hrel := h p.1
      rw [Dict.mem_items_iff.1 hp] at hrel
      rw [Dict.mem_keys_iff]
      cases hget : d.get? p.1 with
      | none =>
        rw [hget] at hrel
        cases hrel
      | some w => exact ⟨w, rfl⟩
    · have hrel := h p.1
      rw [Dict.mem_items_iff.1 hp, hw] at hrel
      cases hrel with
      | some hr => exact hr
  · rintro ⟨hkeys, hkeys', hr⟩ k
    cases hget : d.get? k with
    | none =>
      cases hget' : d'.get? k with
      | none => exact .none
      | some w =>
        obtain ⟨v, hv⟩ := Dict.mem_keys_iff.1 (hkeys' (k, w) (Dict.mem_items_iff.2 hget'))
        rw [hget] at hv
        cases hv
    | some v =>
      have hitem := Dict.mem_items_iff.2 hget
      obtain ⟨w, hw⟩ := Dict.mem_keys_iff.1 (hkeys (k, v) hitem)
      rw [hw]
      exact .some (hr (k, v) hitem w hw)

/-- A column of both tables in which nothing is found. -/
theorem sameColumn_iff (baseTbl : TableInfo) (b c : ColumnInfo) :
    SameColumn lower b c ↔ ∀ change, ¬ ColumnChange lower baseTbl b c change := by
  constructor
  · rintro h change (⟨hne, -⟩ | ⟨hne, -⟩ | ⟨hne, -⟩)
    · exact hne h.dataType
    · exact hne h.nullable
    · exact hne h.isPrimaryKey
  · intro h
    refine ⟨?_, ?_, ?_⟩
    · by_contra hne
      exact h _ (Or.inl ⟨hne, rfl⟩)
    · by_contra hne
      exact h _ (Or.inr (Or.inl ⟨hne, rfl⟩))
    · by_contra hne
      exact h _ (Or.inr (Or.inr ⟨hne, rfl⟩))

/-- A table of both schemas in which nothing is found. -/
theorem sameTable_iff (b c : TableInfo) :
    SameTable lower b c ↔ ∀ change, ¬ TableChange lower b c change := by
  unfold SameTable
  simp only [← get?_columnsOf]
  rw [rel_iff]
  constructor
  · rintro ⟨hkeys, hkeys', hsame⟩ change
      (⟨p, hp, hnot, -⟩ | ⟨p, hp, hnot, -⟩ | ⟨p, hp, cCol, hget, hchange⟩)
    · exact hnot (hkeys p hp)
    · exact hnot (hkeys' p hp)
    · exact (sameColumn_iff lower b p.2 cCol).1 (hsame p hp cCol hget) change hchange
  · intro h
    refine ⟨fun p hp => ?_, fun p hp => ?_, fun p hp cCol hget => ?_⟩
    · by_contra hnot
      exact h _ (Or.inl ⟨p, hp, hnot, rfl⟩)
    · by_contra hnot
      exact h _ (Or.inr (Or.inl ⟨p, hp, hnot, rfl⟩))
    · refine (sameColumn_iff lower b p.2 cCol).2 fun change hchange => ?_
      exact h change (Or.inr (Or.inr ⟨p, hp, cCol, hget, hchange⟩))

theorem sameSchema_iff (baseline current : DiscoveryGraph) : SameSchema lower baseline current ↔
    (compareTables lower baseline current).changes = [] := by
  unfold SameSchema
  simp only [← get?_tablesOf]
  rw [rel_iff, List.eq_nil_iff_forall_not_mem]
  simp only [mem_changes_iff]
  constructor
  · rintro ⟨hkeys, hkeys', hsame⟩ change
      (⟨p, hp, hnot, -⟩ | ⟨p, hp, hnot, -⟩ | ⟨p, hp, curTbl, hget, hchange⟩)
    · exact hnot (hkeys p hp)
    · exact hnot (hkeys' p hp)
    · exact (sameTable_iff lower p.2 curTbl).1 (hsame p hp curTbl hget) change hchange
  · intro h
    refine ⟨fun p hp => ?_, fun p hp => ?_, fun p hp curTbl hget => ?_⟩
    · by_contra hnot
      exact h _ (Or.inl ⟨p, hp, hnot, rfl⟩)
    · by_contra hnot
      exact h _ (Or.inr (Or.inl ⟨p, hp, hnot, rfl⟩))
    · refine (sameTable_iff lower p.2 curTbl).2 fun change hchange => ?_
      exact h change (Or.inr (Or.inr ⟨p, hp, curTbl, hget, hchange⟩))

variable {lower} in
theorem hasDrift_eq_false_iff {evaluatedAt connectionId : String}
    {baseline current : DiscoveryGraph} :
    (detect lower evaluatedAt connectionId baseline current).hasDrift = false ↔
      (compareTables lower baseline current).changes = [] := by
  show decide (0 < (compareTables lower baseline current).changes.length) = false ↔ _
  rw [decide_eq_false_iff_not, not_lt, Nat.le_zero, List.length_eq_zero_iff]

/-- **When there is no drift**: exactly if both schemas have the same tables up to case, by
`table_name` alone, with the same columns, and for each name the table and the column that are
listed last agree. -/
theorem no_drift_iff (evaluatedAt connectionId : String) (baseline current : DiscoveryGraph) :
    (detect lower evaluatedAt connectionId baseline current).hasDrift = false ↔
      SameSchema lower baseline current := by
  rw [hasDrift_eq_false_iff, sameSchema_iff]

/-- A table in a given schema. -/
def usersTable (schemaName : String) : TableInfo :=
  ⟨schemaName, "Users", [{ name := "id", dataType := "INT" }]⟩

/-- A table that moves to another schema is no drift. -/
theorem not_no_drift_schema : ¬ ∀ (lower : String → String) (evaluatedAt connectionId : String)
    (baseline current : DiscoveryGraph),
      (detect lower evaluatedAt connectionId baseline current).hasDrift = false →
        ∀ schemaName tableName,
          (∃ t ∈ baseline.entities, lower t.schemaName = schemaName ∧
              lower t.tableName = tableName) ↔
            ∃ t ∈ current.entities, lower t.schemaName = schemaName ∧
              lower t.tableName = tableName := by
  intro hall
  have hsame := hall String.toLower "2026-01-01T00:00:00+00:00" "conn_1" ⟨[usersTable "public"]⟩
    ⟨[usersTable "audit"]⟩ (by decide +kernel) "public" "users"
  obtain ⟨t, ht, hschema, -⟩ := hsame.1 ⟨_, List.mem_singleton.2 rfl, by decide +kernel,
    by decide +kernel⟩
  obtain rfl := List.mem_singleton.1 ht
  exact absurd hschema (by decide +kernel)

end NoDrift

/-! ## The report -/

section Report

/-- How severe a change is. -/
def DriftSeverity.rank : DriftSeverity → ℕ
  | .none => 0
  | .info => 1
  | .warning => 2
  | .critical => 3

/-- The more severe one of two. -/
def DriftSeverity.max (a b : DriftSeverity) : DriftSeverity := if a.rank ≤ b.rank then b else a

/-- The maximum severity of some changes; `NONE` if there are none. -/
def maxSeverity : List DriftChange → DriftSeverity
  | [] => .none
  | c :: changes => c.severity.max (maxSeverity changes)

theorem maxSeverity_eq {changes : List DriftChange}
    (h : ∀ c ∈ changes, c.severity = .critical ∨ c.severity = .warning) :
    maxSeverity changes = if 0 < changes.countP (·.severity = .critical) then .critical
      else if 0 < changes.countP (·.severity = .warning) then .warning else .none := by
  induction changes with
  | nil => rfl
  | cons c changes ih =>
    rw [List.forall_mem_cons] at h
    rw [maxSeverity, ih h.2, List.countP_cons, List.countP_cons]
    rcases h.1 with hc | hc
    · rw [hc]
      simp only [decide_true, if_true, Nat.succ_pos]
      split
      · rfl
      · split <;> rfl
    · rw [hc]
      simp only [reduceCtorEq, decide_false, Bool.false_eq_true, if_false, Nat.add_zero,
        decide_true, if_true, Nat.succ_pos]
      split
      · rfl
      · split <;> rfl

/-- Every change is counted once. -/
theorem countP_add_countP {changes : List DriftChange}
    (h : ∀ c ∈ changes, c.severity = .critical ∨ c.severity = .warning) :
    changes.countP (·.severity = .critical) + changes.countP (·.severity = .warning) =
      changes.length := by
  rw [List.length_eq_countP_add_countP (fun c : DriftChange => decide (c.severity = .critical))]
  congr 1
  refine List.countP_congr fun c hc => ?_
  rcases h c hc with hseverity | hseverity <;> simp [hseverity]

/-- A report whose figures are those of its changes. -/
structure DriftReport.Consistent (r : DriftReport) : Prop where
  breaking : r.breakingChangesCount = r.changes.countP (·.severity = .critical)
  warnings : r.warningsCount = r.changes.countP (·.severity = .warning)
  total : r.breakingChangesCount + r.warningsCount = r.changes.length
  highest : r.highestSeverity = maxSeverity r.changes
  drift : r.hasDrift = true ↔ r.changes ≠ []

/-- A change of a table, or of one of its columns, is reported. -/
def DriftReport.Reports (r : DriftReport) (changeType : DriftChangeType) (tableName : String)
    (columnName : Option String) : Prop :=
  ∃ c ∈ r.changes, c.changeType = changeType ∧ c.tableName = tableName ∧ c.columnName = columnName

variable (lower : String → String) (evaluatedAt connectionId : String)
  (baseline current : DiscoveryGraph)

theorem consistent_detect :
    (detect lower evaluatedAt connectionId baseline current).Consistent := by
  have hsound := sound_compareTables lower baseline current
  refine ⟨hsound.breaking, hsound.warnings, ?_, ?_, ?_⟩
  · show (compareTables lower baseline current).breakingCount +
      (compareTables lower baseline current).warningsCount = _
    rw [hsound.breaking, hsound.warnings]
    exact countP_add_countP hsound.severity
  · show (if _ then _ else _) = maxSeverity (compareTables lower baseline current).changes
    rw [hsound.breaking, hsound.warnings]
    exact (maxSeverity_eq hsound.severity).symm
  · rw [← Bool.not_eq_false, hasDrift_eq_false_iff]
    rfl

theorem sameSchema_self : SameSchema lower baseline baseline := by
  intro name
  cases tableNamed lower baseline name with
  | none => exact .none
  | some tbl =>
    refine .some fun column => ?_
    cases columnNamed lower tbl column with
    | none => exact .none
    | some col => exact .some ⟨rfl, rfl, rfl⟩

/-- Changes of other types are found inside a table of both schemas. -/
theorem TableChange.changeType {b c : TableInfo} {change : DriftChange}
    (h : TableChange lower b c change) :
    change.changeType ≠ .tableDropped ∧ change.changeType ≠ .tableAdded := by
  obtain ⟨p, -, -, rfl⟩ | ⟨p, -, -, rfl⟩ | ⟨p, -, cCol, -, ⟨-, rfl⟩ | ⟨-, rfl⟩ | ⟨-, rfl⟩⟩ := h
  all_goals exact ⟨nofun, nofun⟩

theorem reports_tableDropped_iff {tableName : String} {columnName : Option String} :
    (detect lower evaluatedAt connectionId baseline current).Reports .tableDropped tableName
        columnName ↔
      ∃ p ∈ (tablesOf lower baseline).items, p.1 ∉ (tablesOf lower current).keys ∧
        p.2.tableName = tableName ∧ columnName = none := by
  constructor
  · rintro ⟨c, hc, htype, hname, hcolumn⟩
    obtain ⟨p, hp, hnot, rfl⟩ | ⟨p, -, -, rfl⟩ | ⟨p, -, curTbl, -, hchange⟩ :=
      (mem_changes_iff lower baseline current c).1 hc
    · exact ⟨p, hp, hnot, hname, hcolumn.symm⟩
    · cases htype
    · exact absurd htype (hchange.changeType lower).1
  · rintro ⟨p, hp, hnot, hname, rfl⟩
    exact ⟨_, (mem_changes_iff lower baseline current _).2 (Or.inl ⟨p, hp, hnot, rfl⟩), rfl, hname,
      rfl⟩

theorem reports_tableAdded_iff {tableName : String} {columnName : Option String} :
    (detect lower evaluatedAt connectionId baseline current).Reports .tableAdded tableName
        columnName ↔
      ∃ p ∈ (tablesOf lower current).items, p.1 ∉ (tablesOf lower baseline).keys ∧
        p.2.tableName = tableName ∧ columnName = none := by
  constructor
  · rintro ⟨c, hc, htype, hname, hcolumn⟩
    obtain ⟨p, -, -, rfl⟩ | ⟨p, hp, hnot, rfl⟩ | ⟨p, -, curTbl, -, hchange⟩ :=
      (mem_changes_iff lower baseline current c).1 hc
    · cases htype
    · exact ⟨p, hp, hnot, hname, hcolumn.symm⟩
    · exact absurd htype (hchange.changeType lower).2
  · rintro ⟨p, hp, hnot, hname, rfl⟩
    exact ⟨_, (mem_changes_iff lower baseline current _).2 (Or.inr (Or.inl ⟨p, hp, hnot, rfl⟩)),
      rfl, hname, rfl⟩

/-- A column of the one table that the other one, of the same name, does not have. -/
def Lacks (one other : DiscoveryGraph) (tableName : String) (columnName : Option String) : Prop :=
  ∃ k b c, (tablesOf lower one).get? k = some b ∧ (tablesOf lower other).get? k = some c ∧
    ∃ q ∈ (columnsOf lower b).items, q.1 ∉ (columnsOf lower c).keys ∧ b.tableName = tableName ∧
      some q.2.name = columnName

theorem reports_columnDropped_iff {tableName : String} {columnName : Option String} :
    (detect lower evaluatedAt connectionId baseline current).Reports .columnDropped tableName
        columnName ↔ Lacks lower baseline current tableName columnName := by
  constructor
  · rintro ⟨c, hc, htype, hname, hcolumn⟩
    obtain ⟨p, -, -, rfl⟩ | ⟨p, -, -, rfl⟩ | ⟨p, hp, curTbl, hcur, hchange⟩ :=
      (mem_changes_iff lower baseline current c).1 hc
    · cases htype
    · cases htype
    · obtain ⟨q, hq, hnot, rfl⟩ | ⟨q, -, -, rfl⟩ |
        ⟨q, -, cCol, -, ⟨-, rfl⟩ | ⟨-, rfl⟩ | ⟨-, rfl⟩⟩ := hchange
      · exact ⟨p.1, p.2, curTbl, Dict.mem_items_iff.1 hp, hcur, q, hq, hnot, hname, hcolumn⟩
      all_goals cases htype
  · rintro ⟨k, b, curTbl, hb, hcur, q, hq, hnot, hname, hcolumn⟩
    have hchange : TableChange lower b curTbl (columnDropped b q.2) := Or.inl ⟨q, hq, hnot, rfl⟩
    exact ⟨_, (mem_changes_iff lower baseline current _).2
      (Or.inr (Or.inr ⟨(k, b), Dict.mem_items_iff.2 hb, curTbl, hcur, hchange⟩)), rfl, hname,
      hcolumn⟩

theorem reports_columnAdded_iff {tableName : String} {columnName : Option String} :
    (detect lower evaluatedAt connectionId baseline current).Reports .columnAdded tableName
        columnName ↔ Lacks lower current baseline tableName columnName := by
  constructor
  · rintro ⟨c, hc, htype, hname, hcolumn⟩
    obtain ⟨p, -, -, rfl⟩ | ⟨p, -, -, rfl⟩ | ⟨p, hp, curTbl, hcur, hchange⟩ :=
      (mem_changes_iff lower baseline current c).1 hc
    · cases htype
    · cases htype
    · obtain ⟨q, -, -, rfl⟩ | ⟨q, hq, hnot, rfl⟩ |
        ⟨q, -, cCol, -, ⟨-, rfl⟩ | ⟨-, rfl⟩ | ⟨-, rfl⟩⟩ := hchange
      · cases htype
      · exact ⟨p.1, curTbl, p.2, hcur, Dict.mem_items_iff.1 hp, q, hq, hnot, hname, hcolumn⟩
      all_goals cases htype
  · rintro ⟨k, curTbl, b, hcur, hb, q, hq, hnot, hname, hcolumn⟩
    have hchange : TableChange lower b curTbl (columnAdded b curTbl q.2) :=
      Or.inr (Or.inl ⟨q, hq, hnot, rfl⟩)
    exact ⟨_, (mem_changes_iff lower baseline current _).2
      (Or.inr (Or.inr ⟨(k, b), Dict.mem_items_iff.2 hb, curTbl, hcur, hchange⟩)), rfl, hname,
      hcolumn⟩

/-- **The report is consistent**: its figures are those of its changes, a schema has not drifted
from itself, and what is dropped in one direction is what is added in the other: the tables, and the
columns of the others, that only the baseline has. -/
theorem report_consistent :
    (detect lower evaluatedAt connectionId baseline current).Consistent ∧
      (detect lower evaluatedAt connectionId baseline baseline).changes = [] ∧
      ∀ tableName columnName,
        ((detect lower evaluatedAt connectionId baseline current).Reports .tableDropped tableName
            columnName ↔
          (detect lower evaluatedAt connectionId current baseline).Reports .tableAdded tableName
            columnName) ∧
        ((detect lower evaluatedAt connectionId baseline current).Reports .columnDropped tableName
            columnName ↔
          (detect lower evaluatedAt connectionId current baseline).Reports .columnAdded tableName
            columnName) ∧
        ((detect lower evaluatedAt connectionId baseline current).Reports .tableDropped tableName
            columnName ↔
          ∃ p ∈ (tablesOf lower baseline).items, p.1 ∉ (tablesOf lower current).keys ∧
            p.2.tableName = tableName ∧ columnName = none) ∧
        ((detect lower evaluatedAt connectionId baseline current).Reports .columnDropped tableName
            columnName ↔ Lacks lower baseline current tableName columnName) := by
  refine ⟨consistent_detect lower _ _ _ _, ?_, fun tableName columnName => ⟨?_, ?_, ?_, ?_⟩⟩
  · exact (sameSchema_iff lower baseline baseline).1 (sameSchema_self lower baseline)
  · rw [reports_tableDropped_iff, reports_tableAdded_iff]
  · rw [reports_columnDropped_iff, reports_columnAdded_iff]
  · exact reports_tableDropped_iff lower _ _ _ _
  · exact reports_columnDropped_iff lower _ _ _ _

end Report

end FlowMesh.SchemaDrift
