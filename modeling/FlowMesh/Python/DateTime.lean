import FlowMesh.Python.Value

/-!
# Dates

`datetime` with its `isoformat`, and `datetime.fromisoformat` on the texts that `isoformat` gives;
other texts count as invalid here. `fromisoformat_isoformat` says that the text of a date leads
back to it.
-/

namespace Python

/-! ## Digits -/

/-- The last `k` decimal digits of `n`. -/
def pad : ℕ → ℕ → List Char
  | 0, _ => []
  | k + 1, n => Nat.digitChar (n / 10 ^ k % 10) :: pad k n

/-- The value of a decimal digit. -/
def decimal? (c : Char) : Option ℕ :=
  if '0' ≤ c ∧ c ≤ '9' then some (c.toNat - '0'.toNat) else none

/-- Read `k` digits behind the value of those before them. -/
def readDigits : ℕ → ℕ → List Char → Option (ℕ × List Char)
  | 0, acc, cs => some (acc, cs)
  | _ + 1, _, [] => none
  | k + 1, acc, c :: cs => (decimal? c).bind fun n => readDigits k (10 * acc + n) cs

theorem decimal?_digitChar {n : ℕ} (hn : n < 10) : decimal? (Nat.digitChar n) = some n := by
  have hall : ∀ n < 10, decimal? (Nat.digitChar n) = some n := by decide
  exact hall n hn

theorem readDigits_pad (k acc n : ℕ) (rest : List Char) :
    readDigits k acc (pad k n ++ rest) = some (acc * 10 ^ k + n % 10 ^ k, rest) := by
  induction k generalizing acc with
  | zero => simp [readDigits, pad, Nat.mod_one]
  | succ k ih =>
    have hdigit : n / 10 ^ k % 10 < 10 := Nat.mod_lt _ (by omega)
    unfold pad
    rw [List.cons_append, readDigits, decimal?_digitChar hdigit, Option.bind_some, ih,
      Nat.mod_pow_succ]
    congr 2
    ring

theorem readDigits_pad_of_lt {k n : ℕ} (hn : n < 10 ^ k) (rest : List Char) :
    readDigits k 0 (pad k n ++ rest) = some (n, rest) := by
  rw [readDigits_pad, Nat.zero_mul, Nat.zero_add, Nat.mod_eq_of_lt hn]

/-! ## Dates -/

/-- `calendar.monthrange`, the second part. -/
def daysInMonth (year month : ℕ) : ℕ :=
  if month = 2 then
    if year % 4 = 0 ∧ (year % 100 ≠ 0 ∨ year % 400 = 0) then 29 else 28
  else if month ∈ [4, 6, 9, 11] then 30 else 31

/-- The microseconds of a day. -/
def dayMicroseconds : ℕ := 86400000000

/-- What `datetime` asks of its fields. -/
def isDateTime (year month day hour minute second microsecond : ℕ) (offset : Option ℤ) : Bool :=
  1 ≤ year && year ≤ 9999 && 1 ≤ month && month ≤ 12 && 1 ≤ day && day ≤ daysInMonth year month &&
    hour < 24 && minute < 60 && second < 60 && microsecond < 1000000 &&
      offset.all fun o => o.natAbs < dayMicroseconds

/-- `datetime`; the offset from UTC is in microseconds. -/
structure DateTime where
  year : ℕ
  month : ℕ
  day : ℕ
  hour : ℕ
  minute : ℕ
  second : ℕ
  microsecond : ℕ
  offset : Option ℤ
  valid : isDateTime year month day hour minute second microsecond offset = true
  deriving DecidableEq

namespace DateTime

/-- `toordinal`: the first of January of the year 1 is day 1. -/
def toordinal (d : DateTime) : ℕ :=
  let y := d.year - 1
  y * 365 + y / 4 - y / 100 + y / 400 +
    ((List.range (d.month - 1)).map fun i => daysInMonth d.year (i + 1)).sum + d.day

/-- `weekday`: 0 is Monday. -/
def weekday (d : DateTime) : ℕ := (d.toordinal + 6) % 7

/-! ## Texts -/

/-- The microseconds, where there are any. -/
def microText (us : ℕ) : List Char := if us = 0 then [] else '.' :: pad 6 us

/-- The text of a span, with seconds only where there are any. -/
def spanText (n : ℕ) : List Char :=
  pad 2 (n / 3600000000) ++ ':' :: pad 2 (n / 60000000 % 60) ++
    if n % 60000000 = 0 then []
    else ':' :: pad 2 (n / 1000000 % 60) ++ microText (n % 1000000)

/-- The text of an offset. -/
def offsetText : Option ℤ → List Char
  | none => []
  | some o => (if o < 0 then '-' else '+') :: spanText o.natAbs

/-- Three numbers with a separator between them. -/
def tripleText (width : ℕ) (sep : Char) (a b c : ℕ) : List Char :=
  pad width a ++ sep :: pad 2 b ++ sep :: pad 2 c

/-- `isoformat`. -/
def isoformat (d : DateTime) : String :=
  String.ofList (tripleText 4 '-' d.year d.month d.day ++
    'T' :: tripleText 2 ':' d.hour d.minute d.second ++ microText d.microsecond ++
      offsetText d.offset)

/-- The next character is `c`. -/
def expect (c : Char) : List Char → Option (List Char)
  | [] => none
  | c' :: cs => if c' = c then some cs else none

/-- Microseconds, where there are any. -/
def readMicro : List Char → Option (ℕ × List Char)
  | '.' :: cs => readDigits 6 0 cs
  | cs => some (0, cs)

/-- A span, to the end. -/
def readSpan (cs : List Char) : Option ℕ := do
  let (h, cs) ← readDigits 2 0 cs
  let cs ← expect ':' cs
  let (m, cs) ← readDigits 2 0 cs
  match cs with
  | [] => return (h * 60 + m) * 60000000
  | c :: cs => do
    let cs ← expect ':' (c :: cs)
    let (s, cs) ← readDigits 2 0 cs
    let (us, cs) ← readMicro cs
    if cs = [] then return (h * 60 + m) * 60000000 + s * 1000000 + us else none

/-- An offset, to the end. -/
def readOffset : List Char → Option (Option ℤ)
  | [] => some none
  | c :: cs =>
    if c = '+' then (readSpan cs).map fun n : ℕ => some (n : ℤ)
    else if c = '-' then (readSpan cs).map fun n : ℕ => some (-(n : ℤ))
    else none

/-- Three numbers with a separator between them. -/
def readTriple (width : ℕ) (sep : Char) (cs : List Char) : Option (ℕ × ℕ × ℕ × List Char) := do
  let (a, cs) ← readDigits width 0 cs
  let cs ← expect sep cs
  let (b, cs) ← readDigits 2 0 cs
  let cs ← expect sep cs
  let (c, cs) ← readDigits 2 0 cs
  return (a, b, c, cs)

/-- The fields of a text. -/
def read (cs : List Char) : Option DateTime := do
  let (year, month, day, cs) ← readTriple 4 '-' cs
  let cs ← expect 'T' cs
  let (hour, minute, second, cs) ← readTriple 2 ':' cs
  let (microsecond, cs) ← readMicro cs
  let offset ← readOffset cs
  if valid : isDateTime year month day hour minute second microsecond offset = true then
    return { year, month, day, hour, minute, second, microsecond, offset, valid }
  else none

/-- `datetime.fromisoformat`. -/
def fromisoformat (text : String) : Except PyError DateTime :=
  match read text.toList with
  | some d => .ok d
  | none => .error ⟨.valueError, "Invalid isoformat string: '" ++ text ++ "'"⟩

/-! ## The way back -/

theorem expect_cons (c : Char) (cs : List Char) : expect c (c :: cs) = some cs := if_pos rfl

theorem readMicro_microText {us : ℕ} (hus : us < 1000000) {rest : List Char}
    (hrest : rest.head? ≠ some '.') : readMicro (microText us ++ rest) = some (us, rest) := by
  unfold microText
  split
  · next hzero =>
    subst hzero
    rw [List.nil_append]
    unfold readMicro
    split
    · simp at hrest
    · rfl
  · exact readDigits_pad_of_lt hus rest

theorem readSpan_spanText {n : ℕ} (hn : n < dayMicroseconds) : readSpan (spanText n) = some n := by
  have hhour : n / 3600000000 < 10 ^ 2 := by
    unfold dayMicroseconds at hn
    omega
  have hminute : n / 60000000 % 60 < 10 ^ 2 := by omega
  have hsecond : n / 1000000 % 60 < 10 ^ 2 := by omega
  unfold readSpan spanText
  simp only [List.append_assoc, List.cons_append, readDigits_pad_of_lt hhour,
    readDigits_pad_of_lt hminute, expect_cons, Option.bind_eq_bind, Option.bind_some]
  by_cases hzero : n % 60000000 = 0
  · simp only [hzero, if_true]
    show some _ = _
    congr 1
    omega
  · have hlt : n % 1000000 < 1000000 := by omega
    have hend : ([] : List Char).head? ≠ some '.' := by simp
    have hmicro := readMicro_microText hlt hend
    rw [List.append_nil] at hmicro
    simp only [hzero, if_false, expect_cons, Option.bind_some, readDigits_pad_of_lt hsecond,
      hmicro, if_true]
    show some _ = _
    congr 1
    omega

theorem readOffset_offsetText {offset : Option ℤ}
    (h : ∀ o, offset = some o → o.natAbs < dayMicroseconds) :
    readOffset (offsetText offset) = some offset := by
  cases offset with
  | none => rfl
  | some o =>
    have hspan := readSpan_spanText (h o rfl)
    unfold offsetText
    by_cases hneg : o < 0
    · have habs : -(o.natAbs : ℤ) = o := by omega
      have hminus : ('-' : Char) ≠ '+' := by decide
      simp only [hneg, if_true, readOffset, hminus, if_false, hspan, Option.map_some, habs]
    · have habs : (o.natAbs : ℤ) = o := by omega
      simp only [hneg, if_false, readOffset, if_true, hspan, Option.map_some, habs]

theorem readTriple_tripleText {width : ℕ} {sep : Char} {a b c : ℕ} (ha : a < 10 ^ width)
    (hb : b < 10 ^ 2) (hc : c < 10 ^ 2) (rest : List Char) :
    readTriple width sep (tripleText width sep a b c ++ rest) = some (a, b, c, rest) := by
  unfold readTriple tripleText
  simp only [List.append_assoc, List.cons_append, readDigits_pad_of_lt ha,
    readDigits_pad_of_lt hb, readDigits_pad_of_lt hc, expect_cons, Option.bind_eq_bind,
    Option.bind_some]
  rfl

theorem head?_offsetText (offset : Option ℤ) : (offsetText offset).head? ≠ some '.' := by
  cases offset with
  | none => simp [offsetText]
  | some o => by_cases hneg : o < 0 <;> simp [offsetText, hneg]

theorem read_isoformat (d : DateTime) : read d.isoformat.toList = some d := by
  have hvalid := d.valid
  simp only [isDateTime, Bool.and_eq_true, decide_eq_true_eq] at hvalid
  obtain ⟨⟨⟨⟨⟨⟨⟨⟨⟨⟨-, hyear⟩, -⟩, hmonth⟩, -⟩, hday⟩, hhour⟩, hminute⟩, hsecond⟩, hmicro⟩,
    hoffset⟩ := hvalid
  have hdays : daysInMonth d.year d.month ≤ 31 := by
    unfold daysInMonth
    split_ifs <;> omega
  have hyear : d.year < 10 ^ 4 := by omega
  have hmonth : d.month < 10 ^ 2 := by omega
  have hday : d.day < 10 ^ 2 := by omega
  have hhour : d.hour < 10 ^ 2 := by omega
  have hminute : d.minute < 10 ^ 2 := by omega
  have hsecond : d.second < 10 ^ 2 := by omega
  have hback : readOffset (offsetText d.offset) = some d.offset := by
    apply readOffset_offsetText
    intro o ho
    rw [ho] at hoffset
    simpa using hoffset
  unfold isoformat read
  rw [String.toList_ofList]
  simp only [List.append_assoc, List.cons_append, readTriple_tripleText hyear hmonth hday,
    readTriple_tripleText hhour hminute hsecond, expect_cons, Option.bind_eq_bind,
    Option.bind_some, readMicro_microText hmicro (head?_offsetText d.offset), hback]
  exact dif_pos d.valid

/-- The text of a date leads back to it. -/
theorem fromisoformat_isoformat (d : DateTime) : fromisoformat d.isoformat = .ok d := by
  unfold fromisoformat
  rw [read_isoformat]

/-- The text of a date is not empty. -/
theorem isoformat_ne_empty (d : DateTime) : d.isoformat ≠ "" := by
  intro h
  have hread := read_isoformat d
  rw [h] at hread
  cases hread

end DateTime

end Python
