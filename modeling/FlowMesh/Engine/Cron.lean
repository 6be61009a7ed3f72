import FlowMesh.Python.DateTime
import FlowMesh.Python.Words
import Mathlib.Data.List.Dedup
import Mathlib.Data.List.Sort

/-!
# Cron schedules

`CronScheduleParser` of `flowmesh_engine/scheduler.py`, on texts, and the rule of cron, on the
grammar of its expressions (`CronExpression`). `due_iff` says at which minutes the two agree on an
expression. They part in three ways: a list that begins with `*/n` is taken for one step and cannot
be read, Sunday is 0 but not 7, and both days have to match, while the rule is content with one of
them if both fields are restricted.

Which fields count as restricted is a parameter of the rule, since readings of it differ on fields
as `*/2`.
-/

namespace FlowMesh.Scheduler

open Python

/-! ## `CronScheduleParser` -/

namespace CronScheduleParser

/-- `SPECIAL_SCHEDULES`. -/
def specialSchedules : List (String × String) :=
  [("@hourly", "0 * * * *"), ("@daily", "0 0 * * *"), ("@midnight", "0 0 * * *"),
    ("@weekly", "0 0 * * 0"), ("@monthly", "0 0 1 * *")]

/-- `range(start, stop)`. -/
def range (start stop : ℤ) : List ℤ := (List.range (stop - start).toNat).map fun i : ℕ => start + i

variable (u : Unicode)

/-- `parse_cron_field` of a field that is not split at commas. -/
def parsePart (field : List Char) (minVal maxVal : ℤ) : Except PyError (List ℤ) := do
  if field = ['*'] then
    return range minVal (maxVal + 1)
  else if ['*', '/'].isPrefixOf field then
    let step ← readInt u (field.drop 2)
    if step = 0 then throw ⟨.other, "integer modulo by zero"⟩
    return (range minVal (maxVal + 1)).filter fun x => Int.fmod (x - minVal) step = 0
  else if '-' ∈ field then
    match ← (field.splitOn '-').mapM (readInt u) with
    | [start, stop] => return range start (stop + 1)
    | _ => throw ⟨.valueError, "too many values to unpack (expected 2)"⟩
  else
    return [← readInt u field]

/-- `parse_cron_field`. The branches for `*` and `*/N` come before the one for lists, and a part of
a list has no comma, so that the recursion ends there. -/
def parseCronField (field : List Char) (minVal maxVal : ℤ) : Except PyError (List ℤ) := do
  if ',' ∈ field ∧ ¬['*', '/'].isPrefixOf field then
    let result ← (field.splitOn ',').mapM fun part => parsePart u part minVal maxVal
    return result.flatten.dedup.insertionSort (· ≤ ·)
  else
    parsePart u field minVal maxVal

/-- The `try` block of `is_due`. -/
def matchesAll (minutePart hourPart domPart monthPart dowPart : List Char) (now : DateTime) :
    Except PyError Bool := do
  let minutes ← parseCronField u minutePart 0 59
  let hours ← parseCronField u hourPart 0 23
  let doms ← parseCronField u domPart 1 31
  let months ← parseCronField u monthPart 1 12
  let dows ← parseCronField u dowPart 0 6
  let currDow := (now.weekday + 1) % 7
  return (minutes.contains now.minute && hours.contains now.hour && doms.contains now.day &&
    months.contains now.month && dows.contains currDow)

/-- `is_due`. -/
def isDue (expression : String) (now : DateTime) : Bool :=
  let expr := strip ((specialSchedules.lookup expression).getD expression).toList
  match split expr with
  | [minutePart, hourPart, domPart, monthPart, dowPart] =>
    match matchesAll u minutePart hourPart domPart monthPart dowPart now with
    | .ok due => due
    | .error _ => false
  | _ => true

end CronScheduleParser

/-! ## The rule of cron -/

/-- An item of a field. -/
inductive CronItem
  | star
  | step (n : Numeral)
  | value (a : Numeral)
  | range (a b : Numeral)

namespace CronItem

/-- What is written. -/
def text : CronItem → List Char
  | star => ['*']
  | step n => '*' :: '/' :: n.digits
  | value a => a.digits
  | range a b => a.digits ++ '-' :: b.digits

/-- The numerals that are written. -/
def numerals : CronItem → List Numeral
  | star => []
  | step n => [n]
  | value a => [a]
  | range a b => [a, b]

/-- A step is positive, and values are in the range of the field. -/
def Within (lo hi : ℕ) : CronItem → Prop
  | star => True
  | step n => 1 ≤ n.value
  | value a => lo ≤ a.value ∧ a.value ≤ hi
  | range a b => (lo ≤ a.value ∧ a.value ≤ hi) ∧ lo ≤ b.value ∧ b.value ≤ hi

instance Within.decidable (lo hi : ℕ) : (item : CronItem) → Decidable (item.Within lo hi)
  | star => .isTrue trivial
  | step n => inferInstanceAs (Decidable (1 ≤ n.value))
  | value a => inferInstanceAs (Decidable (lo ≤ a.value ∧ a.value ≤ hi))
  | range a b => inferInstanceAs
    (Decidable ((lo ≤ a.value ∧ a.value ≤ hi) ∧ lo ≤ b.value ∧ b.value ≤ hi))

/-- The item matches a value of a field whose first value is `lo`. -/
def Matches (lo v : ℕ) : CronItem → Prop
  | star => True
  | step n => (v - lo) % n.value = 0
  | value a => v = a.value
  | range a b => a.value ≤ v ∧ v ≤ b.value

end CronItem

/-- A field: items, with commas between them. -/
structure CronField (lo hi : ℕ) where
  items : List CronItem
  ne_nil : items ≠ []
  within : ∀ item ∈ items, item.Within lo hi

namespace CronField

variable {lo hi : ℕ} (f : CronField lo hi)

/-- What is written. -/
def text : List Char := [','].intercalate (f.items.map CronItem.text)

/-- The field matches a value. -/
def Matches (v : ℕ) : Prop := ∃ item ∈ f.items, item.Matches lo v

/-- `parse_cron_field` can read the field: it is not a list that begins with a step, and no numeral
has more digits than `int` reads. -/
def Readable : Prop :=
  (∀ n item rest, f.items ≠ .step n :: item :: rest) ∧
    ∀ item ∈ f.items, ∀ n ∈ item.numerals, n.digits.length ≤ 4300

end CronField

/-- A five-field expression; Sunday is 0 and 7. -/
structure CronExpression where
  minute : CronField 0 59
  hour : CronField 0 23
  dayOfMonth : CronField 1 31
  month : CronField 1 12
  dayOfWeek : CronField 0 7

/-- The day of the week, from Sunday on. -/
def currDow (now : DateTime) : ℕ := (now.weekday + 1) % 7

namespace CronExpression

variable (e : CronExpression)

/-- The text consists of the five fields, with white space between them. -/
def Writes (expression : String) : Prop :=
  split expression.toList =
    [e.minute.text, e.hour.text, e.dayOfMonth.text, e.month.text, e.dayOfWeek.text]

instance Writes.decidable (expression : String) : Decidable (e.Writes expression) :=
  inferInstanceAs (Decidable (_ = _))

/-- The day matches: if both fields for it are restricted, one of them is enough. -/
def MatchesDay (restricted : List CronItem → Bool) (now : DateTime) : Prop :=
  let dom := e.dayOfMonth.Matches now.day
  let dow := e.dayOfWeek.Matches (currDow now) ∨ currDow now = 0 ∧ e.dayOfWeek.Matches 7
  if restricted e.dayOfMonth.items ∧ restricted e.dayOfWeek.items then dom ∨ dow else dom ∧ dow

/-- **The rule**: minute, hour, month and day match. -/
def Due (restricted : List CronItem → Bool) (now : DateTime) : Prop :=
  e.minute.Matches now.minute ∧ e.hour.Matches now.hour ∧ e.month.Matches now.month ∧
    e.MatchesDay restricted now

/-- All fields can be read. -/
def Readable : Prop :=
  e.minute.Readable ∧ e.hour.Readable ∧ e.dayOfMonth.Readable ∧ e.month.Readable ∧
    e.dayOfWeek.Readable

end CronExpression

/-! ## Items and fields as they are read -/

section Read

variable {u : Unicode} {lo hi : ℕ}

open CronScheduleParser

theorem mem_range {start stop v : ℤ} : v ∈ range start stop ↔ start ≤ v ∧ v < stop := by
  unfold CronScheduleParser.range
  rw [List.mem_map]
  constructor
  · rintro ⟨i, hi, rfl⟩
    rw [List.mem_range] at hi
    omega
  · rintro ⟨hstart, hstop⟩
    refine ⟨(v - start).toNat, List.mem_range.2 (by omega), by omega⟩

theorem not_mem_digits {c : Char} (hc : ¬('0' ≤ c ∧ c ≤ '9')) (n : Numeral) : c ∉ n.digits :=
  fun h => hc (n.decimal c h)

theorem CronItem.comma_notMem (item : CronItem) : ',' ∉ item.text := by
  have hdigits : ∀ n : Numeral, ',' ∉ n.digits := not_mem_digits (by decide)
  cases item <;> simp [CronItem.text, hdigits]

theorem CronItem.isSpace_text (item : CronItem) : ∀ c ∈ item.text, isSpace c = false := by
  have hdigits : ∀ n : Numeral, ∀ c ∈ n.digits, isSpace c = false :=
    fun n c hc => isSpace_decimal (n.decimal c hc)
  intro c hc
  cases item with
  | star =>
    obtain rfl := List.mem_singleton.1 hc
    rfl
  | step n =>
    rcases List.mem_cons.1 hc with rfl | hc
    · rfl
    · rcases List.mem_cons.1 hc with rfl | hc
      · rfl
      · exact hdigits n c hc
  | value a => exact hdigits a c hc
  | range a b =>
    rcases List.mem_append.1 hc with hc | hc
    · exact hdigits a c hc
    · rcases List.mem_cons.1 hc with rfl | hc
      · rfl
      · exact hdigits b c hc

theorem isSpace_intercalate (items : List CronItem) :
    ∀ c ∈ [','].intercalate (items.map CronItem.text), isSpace c = false := by
  induction items with
  | nil => nofun
  | cons item items ih =>
    cases items with
    | nil =>
      rw [List.map_cons, List.map_nil, List.intercalate_singleton]
      exact item.isSpace_text
    | cons item' items =>
      intro c hc
      rw [List.map_cons, List.map_cons, List.intercalate_cons_cons, List.mem_append,
        List.mem_append, List.mem_singleton] at hc
      rcases hc with (hc | rfl) | hc
      · exact item.isSpace_text c hc
      · rfl
      · exact ih c hc

/-- A text that begins with a digit is neither `*` nor a step. -/
theorem not_star_of_digits (n : Numeral) (rest : List Char) :
    n.digits ++ rest ≠ ['*'] ∧ ¬['*', '/'].isPrefixOf (n.digits ++ rest) = true := by
  obtain ⟨c, ds, hds⟩ := List.exists_cons_of_ne_nil n.ne_nil
  have hc : c ≠ '*' := ne_of_decimal (n.decimal c (hds ▸ List.mem_cons_self)) (by decide)
  rw [hds, List.cons_append]
  exact ⟨fun h => hc (List.cons.inj h).1, fun h => hc (by simp at h; exact h.1.symm)⟩

theorem parsePart_step (n : Numeral) (minVal maxVal : ℤ) :
    parsePart u (CronItem.step n).text minVal maxVal = (do
      let step ← readInt u n.digits
      if step = 0 then throw ⟨.other, "integer modulo by zero"⟩
      return (range minVal (maxVal + 1)).filter fun x => Int.fmod (x - minVal) step = 0) := by
  unfold parsePart CronItem.text
  rw [if_neg (by simp), if_pos (by simp)]
  rfl

theorem parsePart_value (a : Numeral) (minVal maxVal : ℤ) :
    parsePart u (CronItem.value a).text minVal maxVal = (do return [← readInt u a.digits]) := by
  obtain ⟨hstar, hstep⟩ := not_star_of_digits a []
  rw [List.append_nil] at hstar hstep
  unfold parsePart CronItem.text
  rw [if_neg hstar, if_neg hstep, if_neg (not_mem_digits (by decide) a)]

theorem parsePart_range (a b : Numeral) (minVal maxVal : ℤ) :
    parsePart u (CronItem.range a b).text minVal maxVal = (do
      let start ← readInt u a.digits
      let stop ← readInt u b.digits
      return range start (stop + 1)) := by
  obtain ⟨hstar, hstep⟩ := not_star_of_digits a ('-' :: b.digits)
  have hdash : ∀ n : Numeral, '-' ∉ n.digits := not_mem_digits (by decide)
  have hsplit : (a.digits ++ '-' :: b.digits).splitOn '-' = [a.digits, b.digits] := by
    rw [List.splitOn_append_cons_self_of_not_mem (hdash a), List.splitOn_eq_singleton (hdash b)]
  unfold parsePart CronItem.text
  rw [if_neg hstar, if_neg hstep, if_pos (by simp), hsplit, List.mapM_cons, List.mapM_cons,
    List.mapM_nil]
  rcases readInt u a.digits with e | start
  · rfl
  · rcases readInt u b.digits with e | stop <;> rfl

/-- An item that can be read gives the values that match. -/
theorem parsePart_text (u : Unicode) (hi : ℕ) {hi' : ℕ} {item : CronItem}
    (hwithin : item.Within lo hi')
    (hshort : ∀ n ∈ item.numerals, n.digits.length ≤ 4300) :
    ∃ l, parsePart u item.text lo hi = .ok l ∧
      ∀ v : ℕ, lo ≤ v → v ≤ hi → ((v : ℤ) ∈ l ↔ item.Matches lo v) := by
  cases item with
  | star =>
    refine ⟨range lo (hi + 1), rfl, fun v hlo hhi => ?_⟩
    rw [mem_range]
    exact iff_of_true ⟨by omega, by omega⟩ trivial
  | step n =>
    have hn : (n.value : ℤ) ≠ 0 := by
      have : 1 ≤ n.value := hwithin
      omega
    rw [parsePart_step, readInt_numeral u (hshort n List.mem_cons_self)]
    refine ⟨(range lo (hi + 1)).filter fun x => Int.fmod (x - lo) n.value = 0, if_neg hn,
      fun v hlo hhi => ?_⟩
    have hdvd : Int.fmod ((v : ℤ) - lo) n.value = 0 ↔ (v - lo) % n.value = 0 := by
      rw [Int.fmod_eq_emod_of_nonneg _ (Int.natCast_nonneg _), ← Nat.cast_sub hlo,
        ← Int.natCast_mod, Int.natCast_eq_zero]
    rw [List.mem_filter, mem_range, decide_eq_true_eq, hdvd]
    exact and_iff_right ⟨by omega, by omega⟩
  | value a =>
    rw [parsePart_value, readInt_numeral u (hshort a List.mem_cons_self)]
    refine ⟨_, rfl, fun v _ _ => ?_⟩
    rw [List.mem_singleton, Nat.cast_inj]
    rfl
  | range a b =>
    rw [parsePart_range, readInt_numeral u (hshort a List.mem_cons_self),
      readInt_numeral u (hshort b (by simp [CronItem.numerals]))]
    refine ⟨_, rfl, fun v _ _ => ?_⟩
    rw [mem_range]
    unfold CronItem.Matches
    omega

/-- An item with a numeral that is too long cannot be read. -/
theorem parsePart_text_error {item : CronItem}
    (hlong : ¬∀ n ∈ item.numerals, n.digits.length ≤ 4300) (minVal maxVal : ℤ) :
    ∃ e, parsePart u item.text minVal maxVal = .error e := by
  push Not at hlong
  obtain ⟨n, hn, hlength⟩ := hlong
  obtain ⟨e, he⟩ := readInt_numeral_error u hlength
  cases item with
  | star => cases hn
  | step m =>
    obtain rfl := List.mem_singleton.1 hn
    exact ⟨e, by rw [parsePart_step, he]; rfl⟩
  | value a =>
    obtain rfl := List.mem_singleton.1 hn
    exact ⟨e, by rw [parsePart_value, he]; rfl⟩
  | range a b =>
    rw [parsePart_range]
    rcases List.mem_cons.1 hn with rfl | hn
    · exact ⟨e, by rw [he]; rfl⟩
    · obtain rfl := List.mem_singleton.1 hn
      rw [he]
      rcases readInt u a.digits with e' | start
      · exact ⟨e', rfl⟩
      · exact ⟨e, rfl⟩

/-- The parts of a list, read one after the other. -/
theorem mapM_parsePart (u : Unicode) (hi : ℕ) {hi' : ℕ} {items : List CronItem}
    (hwithin : ∀ item ∈ items, item.Within lo hi')
    (hshort : ∀ item ∈ items, ∀ n ∈ item.numerals, n.digits.length ≤ 4300) :
    ∃ ls, (items.map CronItem.text).mapM (fun part => parsePart u part lo hi) = .ok ls ∧
      ∀ v : ℕ, lo ≤ v → v ≤ hi → ((v : ℤ) ∈ ls.flatten ↔ ∃ item ∈ items, item.Matches lo v) := by
  induction items with
  | nil => exact ⟨[], rfl, fun v _ _ => by simp⟩
  | cons item items ih =>
    obtain ⟨l, hl, hmem⟩ := parsePart_text u hi (hwithin item List.mem_cons_self)
      (hshort item List.mem_cons_self)
    obtain ⟨ls, hls, hmems⟩ := ih (fun i hi => hwithin i (List.mem_cons_of_mem _ hi))
      fun i hi => hshort i (List.mem_cons_of_mem _ hi)
    refine ⟨l :: ls, ?_, fun v hlo hhi => ?_⟩
    · rw [List.map_cons, List.mapM_cons, hl, hls]
      rfl
    · rw [List.flatten_cons, List.mem_append, hmem v hlo hhi, hmems v hlo hhi]
      simp only [List.mem_cons, exists_eq_or_imp]

theorem mapM_parsePart_error {items : List CronItem}
    (hlong : ¬∀ item ∈ items, ∀ n ∈ item.numerals, n.digits.length ≤ 4300) (minVal maxVal : ℤ) :
    ∃ e, (items.map CronItem.text).mapM (fun part => parsePart u part minVal maxVal) =
      .error e := by
  induction items with
  | nil => exact absurd (fun _ h => absurd h List.not_mem_nil) hlong
  | cons item items ih =>
    rw [List.map_cons, List.mapM_cons]
    by_cases hitem : ∀ n ∈ item.numerals, n.digits.length ≤ 4300
    · have hitems : ¬∀ i ∈ items, ∀ n ∈ i.numerals, n.digits.length ≤ 4300 := fun h =>
        hlong (List.forall_mem_cons.2 ⟨hitem, h⟩)
      obtain ⟨e, he⟩ := ih hitems
      rcases parsePart u item.text minVal maxVal with e' | l
      · exact ⟨e', rfl⟩
      · exact ⟨e, by rw [he]; rfl⟩
    · obtain ⟨e, he⟩ := parsePart_text_error (u := u) hitem minVal maxVal
      exact ⟨e, by rw [he]; rfl⟩

namespace CronField

variable (f : CronField lo hi)

/-- A field of one item. -/
theorem parseCronField_singleton {item : CronItem} (hitems : f.items = [item])
    (minVal maxVal : ℤ) :
    parseCronField u f.text minVal maxVal = parsePart u item.text minVal maxVal := by
  have htext : f.text = item.text := by simp [text, hitems]
  unfold parseCronField
  rw [htext, if_neg fun h => item.comma_notMem h.1]

theorem text_cons_cons {item item' : CronItem} {rest : List CronItem}
    (hitems : f.items = item :: item' :: rest) : f.text = item.text ++
      ',' :: [','].intercalate ((item' :: rest).map CronItem.text) := by
  rw [text, hitems, List.map_cons, List.map_cons, List.intercalate_cons_cons, List.append_assoc]
  rfl

/-- A list that begins with a step is taken for a step. -/
theorem parseCronField_step (hu : AsciiDecimals u) {n : Numeral} {item : CronItem}
    {rest : List CronItem} (hitems : f.items = .step n :: item :: rest) (minVal maxVal : ℤ) :
    ∃ e, parseCronField u f.text minVal maxVal = .error e := by
  obtain ⟨e, he⟩ := readInt_comma_error hu n (isSpace_intercalate (item :: rest))
  refine ⟨e, ?_⟩
  have htext : f.text = '*' :: '/' :: (n.digits ++
    ',' :: [','].intercalate ((item :: rest).map CronItem.text)) := f.text_cons_cons hitems
  unfold parseCronField parsePart
  rw [htext, if_neg (by simp), if_neg (by simp), if_pos (by simp), List.drop_succ_cons,
    List.drop_succ_cons, List.drop_zero, he]
  rfl

/-- Another list is split. -/
theorem parseCronField_list {item item' : CronItem} {rest : List CronItem}
    (hitems : f.items = item :: item' :: rest) (hstep : ∀ n, item ≠ .step n)
    (minVal maxVal : ℤ) :
    parseCronField u f.text minVal maxVal = (do
      let result ← (f.items.map CronItem.text).mapM fun part => parsePart u part minVal maxVal
      return result.flatten.dedup.insertionSort (· ≤ ·)) := by
  have hprefix : ¬['*', '/'].isPrefixOf f.text = true := by
    rw [f.text_cons_cons hitems]
    cases item with
    | star => simp [CronItem.text]
    | step n => exact absurd rfl (hstep n)
    | value a => exact (not_star_of_digits a _).2
    | range a b =>
      rw [CronItem.text, List.append_assoc]
      exact (not_star_of_digits a _).2
  have hcomma : ',' ∈ f.text := by
    rw [f.text_cons_cons hitems]
    exact List.mem_append_right _ List.mem_cons_self
  have hsplit : f.text.splitOn ',' = f.items.map CronItem.text := by
    apply List.splitOn_intercalate
    · intro l hl
      obtain ⟨item, -, rfl⟩ := List.mem_map.1 hl
      exact item.comma_notMem
    · simp [f.ne_nil]
  unfold parseCronField
  rw [if_pos ⟨hcomma, hprefix⟩, hsplit]

/-- A field that can be read gives the values that match. -/
theorem parseCronField_text (u : Unicode) (hi : ℕ) {hi' : ℕ} (f : CronField lo hi')
    (hreadable : f.Readable) :
    ∃ l, parseCronField u f.text lo hi = .ok l ∧
      ∀ v : ℕ, lo ≤ v → v ≤ hi → ((v : ℤ) ∈ l ↔ f.Matches v) := by
  obtain ⟨hfirst, hshort⟩ := hreadable
  rcases hitems : f.items with _ | ⟨item, _ | ⟨item', rest⟩⟩
  · exact absurd hitems f.ne_nil
  · have hmem : item ∈ f.items := hitems ▸ List.mem_cons_self
    obtain ⟨l, hl, hmatches⟩ := parsePart_text u hi (f.within item hmem) (hshort item hmem)
    refine ⟨l, (f.parseCronField_singleton hitems _ _).trans hl, fun v hlo hhi => ?_⟩
    rw [hmatches v hlo hhi, Matches, hitems]
    simp only [List.mem_singleton, exists_eq_left]
  · obtain ⟨ls, hls, hmatches⟩ := mapM_parsePart u hi f.within hshort
    have hstep : ∀ n, item ≠ .step n := fun n hn => hfirst n item' rest (hn ▸ hitems)
    refine ⟨ls.flatten.dedup.insertionSort (· ≤ ·), ?_, fun v hlo hhi => ?_⟩
    · rw [f.parseCronField_list hitems hstep, hls]
      rfl
    · rw [List.mem_insertionSort, List.mem_dedup, hmatches v hlo hhi]
      rfl

theorem parseCronField_error (hu : AsciiDecimals u) (hreadable : ¬f.Readable)
    (minVal maxVal : ℤ) : ∃ e, parseCronField u f.text minVal maxVal = .error e := by
  rcases hitems : f.items with _ | ⟨item, _ | ⟨item', rest⟩⟩
  · exact absurd hitems f.ne_nil
  · have hlong : ¬∀ n ∈ item.numerals, n.digits.length ≤ 4300 := by
      intro h
      refine hreadable ⟨fun n item' rest h' => ?_, fun i hi => ?_⟩
      · rw [hitems] at h'
        cases h'
      · rw [hitems, List.mem_singleton] at hi
        exact hi ▸ h
    rw [f.parseCronField_singleton hitems]
    exact parsePart_text_error hlong minVal maxVal
  · by_cases hstep : ∃ n, item = .step n
    · obtain ⟨n, rfl⟩ := hstep
      exact f.parseCronField_step hu hitems minVal maxVal
    · have hstep : ∀ n, item ≠ .step n := fun n hn => hstep ⟨n, hn⟩
      have hlong : ¬∀ item ∈ f.items, ∀ n ∈ item.numerals, n.digits.length ≤ 4300 := by
        refine fun h => hreadable ⟨fun n i rest' h' => ?_, h⟩
        rw [hitems] at h'
        exact hstep n (List.cons.inj h').1
      obtain ⟨e, he⟩ := mapM_parsePart_error (u := u) hlong minVal maxVal
      rw [f.parseCronField_list hitems hstep, he]
      exact ⟨e, rfl⟩

end CronField

end Read

/-! ## When a schedule is due -/

/-- The fields of a date are in the ranges of the fields of an expression. -/
theorem bounds (now : DateTime) : now.minute ≤ 59 ∧ now.hour ≤ 23 ∧ (1 ≤ now.day ∧ now.day ≤ 31) ∧
    1 ≤ now.month ∧ now.month ≤ 12 := by
  have hdays : daysInMonth now.year now.month ≤ 31 := by
    unfold daysInMonth
    split_ifs <;> omega
  have hvalid := now.valid
  simp only [isDateTime, Bool.and_eq_true, decide_eq_true_eq] at hvalid
  omega

section Due

variable {u : Unicode} {e : CronExpression}

open CronScheduleParser

/-- A field gives a value exactly if it can be read and matches. -/
theorem contains_parseCronField (hu : AsciiDecimals u) {lo hi hi' v : ℕ} (f : CronField lo hi')
    (hlo : lo ≤ v) (hhi : v ≤ hi) {minVal maxVal : ℤ} (hmin : minVal = lo) (hmax : maxVal = hi) :
    (∃ l, parseCronField u f.text minVal maxVal = .ok l ∧ l.contains (v : ℤ) = true) ↔
      f.Readable ∧ f.Matches v := by
  subst hmin hmax
  by_cases hreadable : f.Readable
  · obtain ⟨l, hl, hmatches⟩ := f.parseCronField_text u hi hreadable
    simp only [hl, Except.ok.injEq, exists_eq_left', List.contains_iff_mem, hmatches v hlo hhi,
      hreadable, true_and]
  · obtain ⟨e, he⟩ := f.parseCronField_error hu hreadable lo hi
    simp [he, hreadable]

/-- All fields have to be read, and to give their value. -/
theorem matchesAll_iff (minutePart hourPart domPart monthPart dowPart : List Char)
    (now : DateTime) :
    matchesAll u minutePart hourPart domPart monthPart dowPart now = .ok true ↔
      (∃ l, parseCronField u minutePart 0 59 = .ok l ∧ l.contains (now.minute : ℤ) = true) ∧
      (∃ l, parseCronField u hourPart 0 23 = .ok l ∧ l.contains (now.hour : ℤ) = true) ∧
      (∃ l, parseCronField u domPart 1 31 = .ok l ∧ l.contains (now.day : ℤ) = true) ∧
      (∃ l, parseCronField u monthPart 1 12 = .ok l ∧ l.contains (now.month : ℤ) = true) ∧
      ∃ l, parseCronField u dowPart 0 6 = .ok l ∧ l.contains (currDow now : ℤ) = true := by
  unfold matchesAll
  rcases parseCronField u minutePart 0 59 with e | minutes
  · simp [bind, Except.bind]
  rcases parseCronField u hourPart 0 23 with e | hours
  · simp [bind, Except.bind]
  rcases parseCronField u domPart 1 31 with e | doms
  · simp [bind, Except.bind]
  rcases parseCronField u monthPart 1 12 with e | months
  · simp [bind, Except.bind]
  rcases parseCronField u dowPart 0 6 with e | dows
  · simp [bind, Except.bind]
  simp [bind, Except.bind, pure, Except.pure, and_assoc, currDow]

/-- A five-field text is no alias. -/
theorem lookup_specialSchedules {expression : String} (h : e.Writes expression) :
    specialSchedules.lookup expression = none := by
  have hfive : (split expression.toList).length = 5 := congrArg List.length h
  have hone : ∀ p ∈ specialSchedules, (split p.1.toList).length = 1 := by decide +kernel
  refine List.lookup_eq_none_iff.2 fun p hp => bne_iff_ne.2 ?_
  rintro rfl
  have := hone p hp
  omega

/-- **When a schedule is due**: all fields can be read, and all match, Sunday as 0. -/
theorem isDue_iff (hu : AsciiDecimals u) {expression : String} (h : e.Writes expression)
    (now : DateTime) :
    isDue u expression now = true ↔ e.Readable ∧ e.minute.Matches now.minute ∧
      e.hour.Matches now.hour ∧ e.dayOfMonth.Matches now.day ∧ e.month.Matches now.month ∧
        e.dayOfWeek.Matches (currDow now) := by
  obtain ⟨hminute, hhour, ⟨hday, hday'⟩, hmonth, hmonth'⟩ := bounds now
  have hdow : currDow now ≤ 6 := Nat.le_of_lt_succ (Nat.mod_lt _ (by omega))
  have hwhole : isDue u expression now = true ↔ matchesAll u e.minute.text e.hour.text
      e.dayOfMonth.text e.month.text e.dayOfWeek.text now = .ok true := by
    unfold isDue
    rw [lookup_specialSchedules h, Option.getD_none]
    dsimp only
    rw [split_strip, h]
    dsimp only
    split
    · next due hdue => rw [hdue, Except.ok.injEq]
    · next err herr => simp [herr]
  rw [hwhole, matchesAll_iff]
  rw [contains_parseCronField hu e.minute (Nat.zero_le _) hminute,
    contains_parseCronField hu e.hour (Nat.zero_le _) hhour,
    contains_parseCronField hu e.dayOfMonth hday hday',
    contains_parseCronField hu e.month hmonth hmonth',
    contains_parseCronField hu e.dayOfWeek (Nat.zero_le _) hdow]
  · constructor
    · rintro ⟨⟨h₁, hminute⟩, ⟨h₂, hhour⟩, ⟨h₃, hday⟩, ⟨h₄, hmonth⟩, h₅, hdow⟩
      exact ⟨⟨h₁, h₂, h₃, h₄, h₅⟩, hminute, hhour, hday, hmonth, hdow⟩
    · rintro ⟨⟨h₁, h₂, h₃, h₄, h₅⟩, hminute, hhour, hday, hmonth, hdow⟩
      exact ⟨⟨h₁, hminute⟩, ⟨h₂, hhour⟩, ⟨h₃, hday⟩, ⟨h₄, hmonth⟩, h₅, hdow⟩
  all_goals rfl

/-- A schedule is due only when the rule says so. -/
theorem due_of_isDue (restricted : List CronItem → Bool) (hu : AsciiDecimals u)
    {expression : String} (h : e.Writes expression) {now : DateTime}
    (hdue : isDue u expression now = true) : e.Due restricted now := by
  obtain ⟨-, hminute, hhour, hday, hmonth, hdow⟩ := (isDue_iff hu h now).1 hdue
  refine ⟨hminute, hhour, hmonth, ?_⟩
  unfold CronExpression.MatchesDay
  split
  · exact Or.inl hday
  · exact ⟨hday, Or.inl hdow⟩

/-- **When the parser keeps to the rule**: at a minute that the rule does not name, and at one that
it names if all fields can be read and both fields for the day match, Sunday as 0. -/
theorem due_iff (restricted : List CronItem → Bool) (hu : AsciiDecimals u) {expression : String}
    (h : e.Writes expression) (now : DateTime) :
    (isDue u expression now = true ↔ e.Due restricted now) ↔
      (e.Due restricted now → e.Readable ∧ e.dayOfMonth.Matches now.day ∧
        e.dayOfWeek.Matches (currDow now)) := by
  constructor
  · intro hiff hdue
    obtain ⟨hreadable, -, -, hday, -, hdow⟩ := (isDue_iff hu h now).1 (hiff.2 hdue)
    exact ⟨hreadable, hday, hdow⟩
  · intro hmeets
    refine ⟨due_of_isDue restricted hu h, fun hdue => ?_⟩
    obtain ⟨hreadable, hday, hdow⟩ := hmeets hdue
    obtain ⟨hminute, hhour, hmonth, -⟩ := hdue
    exact (isDue_iff hu h now).2 ⟨hreadable, hminute, hhour, hday, hmonth, hdow⟩

/-! ### Two schedules -/

/-- Tables without decimal digits beyond ASCII. -/
def asciiTables : Unicode := ⟨fun _ => true, fun _ => none⟩

/-- A numeral of one digit. -/
def digit (d : Fin 10) : Numeral where
  digits := [Nat.digitChar d]
  ne_nil := List.cons_ne_nil _ _
  decimal c hc := by
    obtain rfl := List.mem_singleton.1 hc
    revert d
    decide

/-- A field of one item. -/
def CronField.single {lo hi : ℕ} (item : CronItem) (h : item.Within lo hi) : CronField lo hi :=
  ⟨[item], List.cons_ne_nil _ _, fun i hi => by
    obtain rfl := List.mem_singleton.1 hi
    exact h⟩

theorem CronField.readable_of_single {lo hi : ℕ} {f : CronField lo hi} {item : CronItem}
    (hf : f.items = [item]) (hshort : ∀ n ∈ item.numerals, n.digits.length ≤ 4300) :
    f.Readable := by
  unfold Readable
  rw [hf]
  constructor
  · intro n item' rest hitems
    cases hitems
  · intro i hi
    obtain rfl := List.mem_singleton.1 hi
    exact hshort

/-- Midnight, on a day of the week. -/
def midnightOn (d : Fin 8) : CronExpression where
  minute := .single (.value (digit 0)) (by decide)
  hour := .single (.value (digit 0)) (by decide)
  dayOfMonth := .single .star trivial
  month := .single .star trivial
  dayOfWeek := .single (.value (digit (d.castLE (by omega)))) (by
    revert d
    decide)

/-- Every field but `*` is restricted. -/
def unlessStar : List CronItem → Bool
  | [.star] => false
  | _ => true

/-- Midnight of a Sunday. -/
def sunday : DateTime := ⟨2026, 7, 19, 0, 0, 0, 0, some 0, by decide⟩

theorem due_sunday : isDue asciiTables "0 0 * * 0" sunday = true ↔
    (midnightOn 0).Due unlessStar sunday := by
  refine (due_iff unlessStar (fun _ _ => rfl) (by decide +kernel) sunday).2 fun _ => ⟨?_, ?_, ?_⟩
  · have hdigit : ∀ d n, n ∈ (CronItem.value (digit d)).numerals → n.digits.length ≤ 4300 := by
      intro d n hn
      obtain rfl := List.mem_singleton.1 hn
      exact Nat.le_of_ble_eq_true rfl
    exact ⟨CronField.readable_of_single rfl (hdigit 0), CronField.readable_of_single rfl (hdigit 0),
      CronField.readable_of_single rfl nofun, CronField.readable_of_single rfl nofun,
      CronField.readable_of_single rfl (hdigit _)⟩
  · exact ⟨.star, List.mem_cons_self, trivial⟩
  · exact ⟨_, List.mem_cons_self, rfl⟩

/-- 7 is Sunday as well. -/
theorem not_due_seven : ¬ ∀ (u : Unicode) (e : CronExpression) (expression : String),
    e.Writes expression → ∀ now, isDue u expression now = true ↔ e.Due unlessStar now := by
  intro h
  have hiff := h asciiTables (midnightOn 7) "0 0 * * 7" (by decide +kernel) sunday
  have hdue : (midnightOn 7).Due unlessStar sunday := by
    refine ⟨⟨_, List.mem_cons_self, rfl⟩, ⟨_, List.mem_cons_self, rfl⟩,
      ⟨.star, List.mem_cons_self, trivial⟩, ⟨.star, List.mem_cons_self, trivial⟩, Or.inr ⟨?_, ?_⟩⟩
    · rfl
    · exact ⟨_, List.mem_cons_self, rfl⟩
  have hisDue := hiff.2 hdue
  revert hisDue
  decide +kernel

end Due

end FlowMesh.Scheduler
