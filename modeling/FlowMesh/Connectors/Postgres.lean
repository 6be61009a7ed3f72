import FlowMesh.Engine.DirectConnector
import FlowMesh.Engine.Retry

/-!
# Inserting a batch of records

`PostgresConnector.execute` for `insert` (`connectors/postgres/connector.py`): the columns are those
of the first record, and the records are inserted one after the other, each by a statement of its
own. No transaction is opened, so each statement commits by itself.

A failed insert leaves nothing behind exactly if it failed at the first record
(`allOrNothing_iff`). The engine (`_execute_node`) tries a failed insert again, so what the attempts
before left is there a second time: before every attempt behind failed ones the table is as it was
exactly if all of them failed at the first record (`storedBefore_eq_iff`).
-/

namespace FlowMesh.Postgres

open Python Tables

/-- A record: its columns and values, in order. -/
abbrev Record := List (String × Json)

/-- A statement with its arguments. -/
structure Statement where
  sql : String
  args : List Json

/-- What the connector finds when it is called: whether `_try_asyncpg_connection` gets a
connection, and for each statement, given the rows that are stored by then, what it raises if it
fails. A statement that does not fail stores its row, and one that fails stores nothing. -/
structure Session where
  connected : Bool
  refuses : List Statement → Statement → Option PyError
  production : Bool := false
  durationMs : PyFloat := ⟨.finite 1, "1.0"⟩

/-- `", ".join(texts)`. -/
def joined (texts : List String) : String := ", ".intercalate texts

/-- `insert_sql`. -/
def insertSql (table : String) (cols : List String) : String :=
  "INSERT INTO " ++ table ++ " (" ++ joined cols ++ ") VALUES (" ++
    joined ((List.range cols.length).map fun i => "$" ++ toString (i + 1)) ++ ")"

section Insert

variable (u : Unicode) (s : Session)

/-- `[rec[c] for c in cols]`. -/
def rowValues (cols : List String) (record : Record) : Except PyError (List Json) :=
  cols.mapM fun c =>
    match Json.lookup c record with
    | some v => .ok v
    | none => .error ⟨.other, String.ofList (reprStr u c)⟩

/-- The loop body over `records`: the row that is stored. -/
def insertRecord (table : String) (cols : List String) (stored : List Statement)
    (record : Record) : Except PyError Statement := do
  let vals ← rowValues u cols record
  match s.refuses stored ⟨insertSql table cols, vals⟩ with
  | some e => .error e
  | none => .ok ⟨insertSql table cols, vals⟩

/-- The loop over `records`: how it ends, and what is stored then. -/
def insertRecords (table : String) (cols : List String) :
    List Record → List Statement → Except PyError Unit × List Statement
  | [], stored => (.ok (), stored)
  | record :: records, stored =>
    match insertRecord u s table cols stored record with
    | .error e => (.error e, stored)
    | .ok row => insertRecords table cols records (stored ++ [row])

/-- `insert`, without a connection or without records. -/
def insertOffline (config : List (String × Json)) (table : String) (records : List Record) :
    OperationResult :=
  let host := (Json.lookup "host" config).getD .null
  if !((Json.lookup "mock" config).getD .null).truthy && host.truthy && s.production then
    ⟨false, s.durationMs, .null, some ("PostgreSQL connection to " ++ String.ofList (str u host) ++
      ":" ++ String.ofList (str u ((Json.lookup "port" config).getD (.int 5432))) ++
      " failed for insert."), 0⟩
  else
    ⟨true, s.durationMs, .obj [("inserted_table", .str table),
      ("inserted_count", .int records.length), ("engine", .str "sandbox_logged")], none,
      records.length⟩

/-- What is returned behind the loop. -/
def loopResult (table : String) (count : ℕ) : Except PyError Unit → OperationResult
  | .ok () => ⟨true, s.durationMs, .obj [("inserted_table", .str table),
      ("inserted_count", .int count), ("engine", .str "live_asyncpg")], none, count⟩
  | .error e => ⟨false, s.durationMs, .null, some e.message, 0⟩

/-- `PostgresConnector.execute` for `insert`: its result, and what is stored then. -/
def insert (config : List (String × Json)) (table : String) (records : List Record)
    (stored : List Statement) : OperationResult × List Statement :=
  match s.connected, records with
  | true, first :: _ =>
    let loop := insertRecords u s table (first.map Prod.fst) records stored
    (loopResult s table records.length loop.1, loop.2)
  | _, _ => (insertOffline u s config table records, stored)

end Insert

/-! ## All or nothing -/

/-- A failed operation stored nothing. -/
def AllOrNothing (stored : List Statement) (r : OperationResult × List Statement) : Prop :=
  r.1.success = false → r.2 = stored

/-- All records are inserted, one after the other. -/
def Session.TakesAll (u : Unicode) (s : Session) (table : String) (cols : List String) :
    List Record → List Statement → Prop
  | [], _ => True
  | record :: records, stored => ∃ row, insertRecord u s table cols stored record = .ok row ∧
      s.TakesAll u table cols records (stored ++ [row])

/-- With a connection: if the first record is inserted, so are all behind it. -/
def Session.FailsFirst (u : Unicode) (s : Session) (table : String) (records : List Record)
    (stored : List Statement) : Prop :=
  match s.connected, records with
  | true, first :: rest => ∀ row,
    insertRecord u s table (first.map Prod.fst) stored first = .ok row →
      s.TakesAll u table (first.map Prod.fst) rest (stored ++ [row])
  | _, _ => True

section Proofs

variable {u : Unicode} {s : Session} {table : String} {cols : List String} {records : List Record}
  {stored : List Statement}

/-- What the loop stores comes behind what was stored. -/
theorem prefix_insertRecords :
    stored <+: (insertRecords u s table cols records stored).2 := by
  induction records generalizing stored with
  | nil => exact List.prefix_rfl
  | cons record records ih =>
    unfold insertRecords
    split
    · exact List.prefix_rfl
    · exact (List.prefix_append _ _).trans ih

/-- The loop ends well exactly if all records are inserted. -/
theorem insertRecords_ok_iff :
    (insertRecords u s table cols records stored).1 = .ok () ↔
      s.TakesAll u table cols records stored := by
  induction records generalizing stored with
  | nil => exact iff_of_true rfl trivial
  | cons record records ih =>
    unfold insertRecords Session.TakesAll
    cases hrow : insertRecord u s table cols stored record with
    | error e => simp
    | ok row => simpa using ih

/-- A loop that inserted its first record has stored something. -/
theorem insertRecords_ne {record : Record} {row : Statement}
    (h : insertRecord u s table cols stored record = .ok row) :
    (insertRecords u s table cols (record :: records) stored).2 ≠ stored := by
  have hcons : insertRecords u s table cols (record :: records) stored =
      insertRecords u s table cols records (stored ++ [row]) := by
    rw [insertRecords, h]
  intro heq
  have hbegin : stored ++ [row] <+: (insertRecords u s table cols records (stored ++ [row])).2 :=
    prefix_insertRecords
  have hlength := hbegin.length_le
  rw [← hcons, heq, List.length_append, List.length_singleton] at hlength
  omega

/-- **All or nothing**: an insert that fails stores nothing exactly if, where the first record can
be inserted, all can. -/
theorem allOrNothing_iff (config : List (String × Json)) :
    AllOrNothing stored (insert u s config table records stored) ↔
      s.FailsFirst u table records stored := by
  unfold AllOrNothing Session.FailsFirst insert
  cases hconnected : s.connected with
  | false => simp
  | true =>
    cases records with
    | nil => simp
    | cons first rest =>
      simp only
      cases hrow : insertRecord u s table (first.map Prod.fst) stored first with
      | error e =>
        have hloop : insertRecords u s table (first.map Prod.fst) (first :: rest) stored =
            (.error e, stored) := by rw [insertRecords, hrow]
        rw [hloop]
        simp
      | ok row =>
        have hne : (insertRecords u s table (first.map Prod.fst) (first :: rest) stored).2 ≠
            stored := insertRecords_ne hrow
        have hok : (insertRecords u s table (first.map Prod.fst) (first :: rest) stored).1 =
            .ok () ↔ s.TakesAll u table (first.map Prod.fst) (first :: rest) stored :=
          insertRecords_ok_iff
        rw [Session.TakesAll, hrow] at hok
        simp only [Except.ok.injEq, exists_eq_left', forall_eq'] at hok ⊢
        rw [← hok]
        generalize insertRecords u s table (first.map Prod.fst) (first :: rest) stored = r at hne
        obtain ⟨outcome, stored'⟩ := r
        cases outcome with
        | ok => simp [loopResult]
        | error e => simpa [loopResult] using hne

end Proofs

/-! ## Trying again -/

section Retries

variable (u : Unicode) (sessions : ℕ → Session) (config : List (String × Json)) (table : String)
  (records : List Record) (stored : List Statement) (p : Script)

/-- What is stored before the attempt behind so many ones. -/
def storedBefore : ℕ → List Statement
  | 0 => stored
  | k + 1 => (insert u (sessions k) config table records (storedBefore k)).2

/-- What the branch of `_dispatch_node_type` for `action.db_write` makes of the result. -/
def dispatchDbWrite (res : OperationResult) : Except PyError DispatchResult :=
  if res.success then .ok ⟨res.data.or (.obj []), res.durationMs⟩
  else .error ⟨.runtimeError, (orElse res.error none).getD "Database operation failed"⟩

/-- What the world answers to one `_execute_node` of a node that inserts the records. -/
def insertScript : Script :=
  let result := fun k => (insert u (sessions k) config table records
    (storedBefore u sessions config table records stored k)).1
  { p with dispatch := fun k => dispatchDbWrite (result k) }

variable {u sessions config table records stored p} {workflowId : String} {node : WorkflowNode}
  {k : ℕ}

theorem prefix_insert {s : Session} {rows : List Statement} :
    rows <+: (insert u s config table records rows).2 := by
  unfold insert
  split
  · exact prefix_insertRecords
  · exact List.prefix_rfl

theorem prefix_storedBefore (k : ℕ) :
    stored <+: storedBefore u sessions config table records stored k := by
  induction k with
  | zero => exact List.prefix_rfl
  | succ k ih => exact ih.trans prefix_insert

/-- An attempt that is tried again failed. -/
theorem success_eq_false
    (h : (insertScript u sessions config table records stored p).Reaches u workflowId node (k + 1)) :
    (insert u (sessions k) config table records
      (storedBefore u sessions config table records stored k)).1.success = false := by
  obtain ⟨exc, hexc, -⟩ := h k (Nat.lt_succ_self k)
  unfold insertScript dispatchDbWrite at hexc
  simp only at hexc
  split at hexc
  · cases hexc
  · next hsuccess => simpa using hsuccess

/-- **Trying again**: when the engine has come to another attempt because all those before failed,
the table is as it was before them exactly if each of them failed at its first record. -/
theorem storedBefore_eq_iff
    (h : (insertScript u sessions config table records stored p).Reaches u workflowId node k) :
    storedBefore u sessions config table records stored k = stored ↔
      ∀ j < k, (sessions j).FailsFirst u table records
        (storedBefore u sessions config table records stored j) := by
  induction k with
  | zero => exact iff_of_true rfl fun j hj => absurd hj (Nat.not_lt_zero j)
  | succ k ih =>
    set before := storedBefore u sessions config table records stored k with hbefore
    have hafter : storedBefore u sessions config table records stored (k + 1) =
        (insert u (sessions k) config table records before).2 := rfl
    -- the attempt failed, so it left the table as it was exactly if it failed at the first record
    have hone : (insert u (sessions k) config table records before).2 = before ↔
        (sessions k).FailsFirst u table records before := by
      rw [← allOrNothing_iff config, AllOrNothing, success_eq_false h]
      simp
    have hreaches := ih fun j hj => h j (Nat.lt_succ_of_lt hj)
    rw [Nat.forall_lt_succ_right, ← hreaches, ← hone, hafter]
    constructor
    · intro heq
      have hback : before <+: stored := heq ▸ prefix_insert
      have hsame : before = stored := hback.eq_of_length_le (prefix_storedBefore k).length_le
      exact ⟨hsame, heq.trans hsame.symm⟩
    · rintro ⟨hsame, heq⟩
      exact heq.trans hsame

end Retries

/-- **Failed inserts**: one that fails stores nothing, and the attempts that the engine makes behind
failed ones find the table as it was, exactly as far as those that fail do so at their first
record. -/
theorem failedInsert_iff (u : Unicode) (config : List (String × Json)) (table : String)
    (records : List Record) (stored : List Statement) :
    (∀ s : Session, AllOrNothing stored (insert u s config table records stored) ↔
      s.FailsFirst u table records stored) ∧
    ∀ (sessions : ℕ → Session) (p : Script) (workflowId : String) (node : WorkflowNode) (k : ℕ),
      (insertScript u sessions config table records stored p).Reaches u workflowId node k →
        (storedBefore u sessions config table records stored k = stored ↔
          ∀ j < k, (sessions j).FailsFirst u table records
            (storedBefore u sessions config table records stored j)) := by
  constructor
  · intro s
    exact allOrNothing_iff config
  · intro sessions p workflowId node k hreaches
    exact storedBefore_eq_iff hreaches

/-- The texts of numbers play no part here. -/
def plainUnicode : Unicode := ⟨fun _ => true, fun _ => none⟩

/-- Two orders. -/
def twoOrders : List Record :=
  [[("id", .str "ord_1"), ("total_cents", .int 500)],
    [("id", .str "ord_2"), ("total_cents", .int 600)]]

/-- A node that inserts them, with two attempts. -/
def insertNode : WorkflowNode where
  id := "insert"
  type := "action.db_write"
  name := "Insert"
  retry := some (.policy { maxAttempts := 2, backoff := "fixed", jitter := false })

/-- Sessions in which the statement times out that comes behind so many rows. -/
def timingOut (n : ℕ) (_attempt : ℕ) : Session where
  connected := true
  refuses rows _ := if rows.length = n then some ⟨.timeoutError, "timed out"⟩ else none

/-- Nothing raises but the inserts. -/
def calmScript : Script where
  dispatch := fun _ => .error ⟨.timeoutError, "timed out"⟩
  fault := fun _ _ => none
  circuitState := .closed
  circuitFailure := fun _ => .closed
  random := fun _ => 0
  elapsedMs := fun _ => ⟨.finite 1, "1.0"⟩

theorem dispatch_timingOut {n : ℕ} (hn : n < 2) :
    dispatchDbWrite (insert plainUnicode (timingOut n 0) [] "orders" twoOrders []).1 =
      .error ⟨.runtimeError, "timed out"⟩ := by
  obtain rfl | rfl : n = 0 ∨ n = 1 := by omega
  · rfl
  · rfl

/-- The engine comes to a second attempt. -/
theorem reaches_timingOut {n : ℕ} (hn : n < 2) :
    (insertScript plainUnicode (timingOut n) [] "orders" twoOrders [] calmScript).Reaches
      plainUnicode "wf" insertNode 1 := by
  intro j hj
  obtain rfl : j = 0 := by omega
  have hpause : calmScript.pauseError plainUnicode insertNode 1 = none := by decide +kernel
  exact ⟨_, dispatch_timingOut hn, by decide +kernel, rfl, hpause⟩

/-- The second attempt finds the table as it was if the first has failed at the first order, and not
if it has failed at the second. -/
theorem failedInsert_iff_timingOut :
    storedBefore plainUnicode (timingOut 0) [] "orders" twoOrders [] 1 = [] ∧
      storedBefore plainUnicode (timingOut 1) [] "orders" twoOrders [] 1 ≠ [] := by
  constructor
  · refine ((failedInsert_iff plainUnicode [] "orders" twoOrders []).2 (timingOut 0) calmScript "wf"
      insertNode 1 (reaches_timingOut (by omega))).2 fun j hj row hrow => ?_
    obtain rfl : j = 0 := by omega
    cases hrow
  · intro h
    have hfirst := ((failedInsert_iff plainUnicode [] "orders" twoOrders []).2 (timingOut 1)
      calmScript "wf" insertNode 1 (reaches_timingOut (by omega))).1 h 0 (by omega) _ rfl
    obtain ⟨row, hrow, -⟩ := hfirst
    cases hrow

/-- The second record has no total: the first one is stored, and the insert fails. -/
theorem not_allOrNothing_missing : ¬ ∀ (u : Unicode) (s : Session) (config : List (String × Json))
    (table : String) (records : List Record) (stored : List Statement),
    AllOrNothing stored (insert u s config table records stored) := by
  intro hall
  have hstored := hall plainUnicode ⟨true, fun _ _ => none, false, ⟨.inf, "inf"⟩⟩ [] "orders"
    [[("id", .str "ord_1"), ("total_cents", .int 500)], [("id", .str "ord_2")]] []
    (by decide +kernel)
  have hne : ∀ row : Statement, [row] ≠ [] := fun row => List.cons_ne_nil row []
  exact hne _ hstored

end FlowMesh.Postgres
