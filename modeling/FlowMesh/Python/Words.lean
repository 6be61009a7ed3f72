import FlowMesh.Python.Value
import Mathlib.Data.List.TakeWhile

/-!
# Words and numbers of a text

`str.strip`, `str.split` without an argument, and `int` with the limit that it puts on the length of
a text. `split_strip` says that white space around a text does not matter to its words, and
`readInt_digits` what `int` makes of decimal digits.
-/

namespace Python

/-! ## White space -/

/-- What `strip` takes away is white space. -/
theorem exists_of_strip (cs : List Char) : ∃ ws ws', (∀ c ∈ ws, isSpace c = true) ∧
    (∀ c ∈ ws', isSpace c = true) ∧ cs = ws ++ (strip cs ++ ws') := by
  refine ⟨cs.takeWhile isSpace, ((cs.dropWhile isSpace).reverse.takeWhile isSpace).reverse,
    fun _ => List.mem_takeWhile_imp, fun c hc => List.mem_takeWhile_imp (List.mem_reverse.1 hc), ?_⟩
  rw [strip, ← List.reverse_append, List.takeWhile_append_dropWhile, List.reverse_reverse,
    List.takeWhile_append_dropWhile]

theorem dropWhile_append_of_head {cs : List Char} (hne : cs ≠ [])
    (h : isSpace (cs.head hne) = false) (cs' : List Char) :
    (cs ++ cs').dropWhile isSpace = cs ++ cs' := by
  obtain ⟨c, cs, rfl⟩ := List.exists_cons_of_ne_nil hne
  rw [List.cons_append, List.dropWhile_cons_of_neg]
  rw [List.head_cons] at h
  simp [h]

/-- A text between white space that neither begins nor ends with white space. -/
theorem strip_eq {ws ws' cs : List Char} (hws : ∀ c ∈ ws, isSpace c = true)
    (hws' : ∀ c ∈ ws', isSpace c = true) (hne : cs ≠ []) (hhead : isSpace (cs.head hne) = false)
    (hlast : isSpace (cs.getLast hne) = false) : strip (ws ++ (cs ++ ws')) = cs := by
  have hback : ∀ c ∈ ws'.reverse, isSpace c = true := fun c hc => hws' c (List.mem_reverse.1 hc)
  have hreverse := @dropWhile_append_of_head cs.reverse (by simpa using hne)
    (by rwa [List.head_reverse]) []
  rw [List.append_nil] at hreverse
  rw [strip, List.dropWhile_append_of_pos hws, dropWhile_append_of_head hne hhead,
    List.reverse_append, List.dropWhile_append_of_pos hback, hreverse, List.reverse_reverse]

theorem strip_self {cs : List Char} (hne : cs ≠ []) (hhead : isSpace (cs.head hne) = false)
    (hlast : isSpace (cs.getLast hne) = false) : strip cs = cs := by
  have hstrip := @strip_eq [] [] cs nofun nofun hne hhead hlast
  rwa [List.nil_append, List.append_nil] at hstrip

/-- A text without white space has nothing to strip. -/
theorem strip_of_forall {cs : List Char} (h : ∀ c ∈ cs, isSpace c = false) : strip cs = cs := by
  by_cases hne : cs = []
  · rw [hne]
    rfl
  · exact strip_self hne (h _ (List.head_mem hne)) (h _ (List.getLast_mem hne))

/-- `str.split()`. -/
def split (cs : List Char) : List (List Char) := (cs.splitOnP isSpace).filter (· ≠ [])

theorem split_append_cons (cs cs' : List Char) {c : Char} (hc : isSpace c = true) :
    split (cs ++ c :: cs') = split cs ++ split cs' := by
  rw [split, List.splitOnP_append_cons cs cs' hc, List.filter_append]
  rfl

theorem split_cons {c : Char} (hc : isSpace c = true) (cs : List Char) :
    split (c :: cs) = split cs :=
  split_append_cons [] cs hc

theorem split_space_append {ws : List Char} (hws : ∀ c ∈ ws, isSpace c = true) (cs : List Char) :
    split (ws ++ cs) = split cs := by
  induction ws with
  | nil => rfl
  | cons w ws ih =>
    rw [List.cons_append, split_cons (hws w List.mem_cons_self)]
    exact ih fun c hc => hws c (List.mem_cons_of_mem w hc)

theorem split_append_space {ws : List Char} (hws : ∀ c ∈ ws, isSpace c = true) (cs : List Char) :
    split (cs ++ ws) = split cs := by
  cases ws with
  | nil => rw [List.append_nil]
  | cons w ws =>
    have htail : split ws = [] := by
      have hspace := split_space_append (fun c hc => hws c (List.mem_cons_of_mem w hc)) []
      rwa [List.append_nil] at hspace
    rw [split_append_cons cs ws (hws w List.mem_cons_self), htail, List.append_nil]

theorem split_strip (cs : List Char) : split (strip cs) = split cs := by
  obtain ⟨ws, ws', hws, hws', hcs⟩ := exists_of_strip cs
  rw [hcs, split_space_append hws, split_append_space hws', ← hcs]

/-! ## Numbers -/

/-- `int(s)`, which reads no more than 4300 digits. -/
def readInt (u : Unicode) (cs : List Char) : Except PyError ℤ :=
  let n := (digitRun u (sign (strip cs)).2).1.length
  if 4300 < n then .error ⟨.valueError, "Exceeds the limit (4300 digits) for integer string " ++
    "conversion: value has " ++ toString n ++
      " digits; use sys.set_int_max_str_digits() to increase the limit"⟩
  else intOfString u (String.ofList cs)

/-- Decimal digits, at least one. -/
structure Numeral where
  digits : List Char
  ne_nil : digits ≠ []
  decimal : ∀ c ∈ digits, '0' ≤ c ∧ c ≤ '9'

/-- The number that the digits denote. -/
def Numeral.value (n : Numeral) : ℕ := ofDigits (n.digits.map fun c => c.toNat - 48)

/-- The tables know no decimal digits in ASCII but those from 0 to 9. -/
def AsciiDecimals (u : Unicode) : Prop := ∀ c : Char, c.toNat < 128 → u.decimal c = none

section Digits

variable {u : Unicode} {c : Char}

theorem digit?_decimal (hc : '0' ≤ c ∧ c ≤ '9') : digit? u c = some (c.toNat - 48) := if_pos hc

theorem ne_of_decimal {c' : Char} (hc : '0' ≤ c ∧ c ≤ '9') (hc' : ¬('0' ≤ c' ∧ c' ≤ '9')) :
    c ≠ c' := by
  rintro rfl
  exact hc' hc

theorem isSpace_decimal (hc : '0' ≤ c ∧ c ≤ '9') : isSpace c = false := by
  have hlow : 48 ≤ c.toNat := hc.1
  have hhigh : c.toNat ≤ 57 := hc.2
  simp only [isSpace, decide_eq_false_iff_not]
  omega

theorem digitRun_cons {d : ℕ} {cs : List Char} (hcs : cs.head? ≠ some '_')
    (hd : digit? u c = some d) :
    digitRun u (c :: cs) = (d :: (digitRun u cs).1, (digitRun u cs).2) := by
  rw [digitRun.eq_3]
  · rw [hd]
  · rintro cs' rfl
    exact hcs rfl

/-- Digits, and then something that is none. -/
theorem digitRun_append {ds : List Char} (hds : ∀ c ∈ ds, '0' ≤ c ∧ c ≤ '9') {rest : List Char}
    (hhead : rest.head? ≠ some '_') (hrest : digitRun u rest = ([], rest)) :
    digitRun u (ds ++ rest) = (ds.map fun c => c.toNat - 48, rest) := by
  induction ds with
  | nil => exact hrest
  | cons c ds ih =>
    have htail := ih fun c hc => hds c (List.mem_cons_of_mem _ hc)
    have hnext : (ds ++ rest).head? ≠ some '_' := by
      cases ds with
      | nil => exact hhead
      | cons c' ds =>
        intro h
        have hc' := hds c' (List.mem_cons_of_mem _ List.mem_cons_self)
        exact ne_of_decimal hc' (by decide) (Option.some.inj h)
    rw [List.cons_append, digitRun_cons hnext (digit?_decimal (hds c List.mem_cons_self)), htail]
    rfl

variable {n : Numeral}

/-- What `int` finds at the front of a text that begins with a numeral. -/
theorem digitRun_numeral (u : Unicode) (n : Numeral) (rest : List Char)
    (hspace : ∀ c ∈ rest, isSpace c = false) (hhead : rest.head? ≠ some '_')
    (hrest : digitRun u rest = ([], rest)) :
    sign (strip (n.digits ++ rest)) = (false, n.digits ++ rest) ∧
      digitRun u (n.digits ++ rest) = (n.digits.map fun c => c.toNat - 48, rest) := by
  refine ⟨?_, digitRun_append n.decimal hhead hrest⟩
  rw [strip_of_forall]
  · obtain ⟨c, ds, hds⟩ := List.exists_cons_of_ne_nil n.ne_nil
    have hc : '0' ≤ c ∧ c ≤ '9' := n.decimal c (hds ▸ List.mem_cons_self)
    rw [hds, List.cons_append, sign.eq_3]
    · rintro cs ⟨⟩
      exact absurd hc (by decide)
    · rintro cs ⟨⟩
      exact absurd hc (by decide)
  · intro c hc
    rcases List.mem_append.1 hc with hc | hc
    · exact isSpace_decimal (n.decimal c hc)
    · exact hspace c hc

theorem readInt_numeral (u : Unicode) (h : n.digits.length ≤ 4300) :
    readInt u n.digits = .ok (n.value : ℤ) := by
  obtain ⟨hsign, hrun⟩ := digitRun_numeral u n [] nofun nofun rfl
  rw [List.append_nil] at hsign hrun
  obtain ⟨c, ds, hds⟩ := List.exists_cons_of_ne_nil n.ne_nil
  unfold readInt intOfString
  rw [String.toList_ofList, hsign]
  dsimp only
  rw [hrun, List.length_map, if_neg (by omega), Numeral.value, hds]
  rfl

theorem readInt_numeral_error (u : Unicode) (h : 4300 < n.digits.length) :
    ∃ e, readInt u n.digits = .error e := by
  obtain ⟨hsign, hrun⟩ := digitRun_numeral u n [] nofun nofun rfl
  rw [List.append_nil] at hsign hrun
  unfold readInt
  rw [hsign, hrun]
  dsimp only
  rw [List.length_map, if_pos h]
  exact ⟨_, rfl⟩

/-- A numeral and more is no number. -/
theorem readInt_comma_error (hu : AsciiDecimals u) (n : Numeral) {rest : List Char}
    (hspace : ∀ c ∈ rest, isSpace c = false) :
    ∃ e, readInt u (n.digits ++ ',' :: rest) = .error e := by
  have hcomma : digitRun u (',' :: rest) = ([], ',' :: rest) := by
    have hnone : digit? u ',' = none := (if_neg (by decide)).trans (hu ',' (by decide))
    cases rest with
    | nil => simp [digitRun, hnone]
    | cons c rest =>
      by_cases hc : c = '_'
      · subst hc
        simp [digitRun, hnone]
      · rw [digitRun.eq_3 _ _ _ fun cs hcs => hc (List.cons.inj hcs).1, hnone]
  obtain ⟨hsign, hrun⟩ := digitRun_numeral u n (',' :: rest)
    (fun c hc => by
      rcases List.mem_cons.1 hc with rfl | hc
      · decide
      · exact hspace c hc) (by simp) hcomma
  obtain ⟨c, ds, hds⟩ := List.exists_cons_of_ne_nil n.ne_nil
  unfold readInt intOfString
  rw [String.toList_ofList, hsign]
  dsimp only
  rw [hrun, hds]
  split
  · exact ⟨_, rfl⟩
  · exact ⟨_, rfl⟩

end Digits

end Python
