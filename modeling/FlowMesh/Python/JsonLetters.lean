import FlowMesh.Library.Scanner
import FlowMesh.Python.Encoder
import FlowMesh.Python.JsonStream

/-!
# The letters of JSON texts

`json.dumps` spells the tokens that `json.dump` writes, and `json.loads` reads tokens from letters
before it reads values from tokens. A `Spelling` is what the arguments of `json.dumps` choose:
what stands behind separators, and how characters are escaped.

What was spelled is read again (`tokens?_spell`), as no number stands before another token without
a separator (`Spaced`). `float(text)` is the interpreter's, so a float counts as legible if the
interpreter reads its `repr` back.
-/

namespace Python

open JsonText Scanner

/-! ## Reading letters -/

/-- `WHITESPACE`. -/
def isBlank (c : Char) : Bool := c ∈ [' ', '\t', '\n', '\r']

/-- The value of a hexadecimal digit. -/
def hexDigit? (c : Char) : Option ℕ :=
  if c.isDigit then some (c.toNat - 48)
  else if 'a' ≤ c ∧ c ≤ 'f' then some (c.toNat - 87)
  else if 'A' ≤ c ∧ c ≤ 'F' then some (c.toNat - 55)
  else none

/-- `_decode_uXXXX`. -/
def decodeUXXXX : Matcher Char ℕ
  | a :: b :: c :: d :: rest => do
    let a ← hexDigit? a
    let b ← hexDigit? b
    let c ← hexDigit? c
    let d ← hexDigit? d
    return (((a * 16 + b) * 16 + c) * 16 + d, rest)
  | _ => none

/-- `BACKSLASH`. -/
def backslash (c : Char) : Option Char :=
  if c = '"' ∨ c = '\\' ∨ c = '/' then some c
  else if c = 'b' then some '\x08'
  else if c = 'f' then some '\x0c'
  else if c = 'n' then some '\n'
  else if c = 'r' then some '\r'
  else if c = 't' then some '\t'
  else none

/-- What follows `\u`. A surrogate that is left alone is not a character here. -/
def readUnicode : Matcher Char Char := fun l => do
  let (uni, rest) ← decodeUXXXX l
  if 0xd800 ≤ uni ∧ uni ≤ 0xdbff then
    if rest.take 2 = ['\\', 'u'] then
      let (uni2, rest) ← decodeUXXXX (rest.drop 2)
      if 0xdc00 ≤ uni2 ∧ uni2 ≤ 0xdfff then
        return (Char.ofNat (0x10000 + ((uni - 0xd800) * 0x400 + (uni2 - 0xdc00))), rest)
      else none
    else none
  else if 0xdc00 ≤ uni ∧ uni ≤ 0xdfff then none
  else return (Char.ofNat uni, rest)

/-- A character of a string. -/
def readChar : Matcher Char Char
  | [] => none
  | c :: rest =>
    if c = '\\' then
      match rest with
      | [] => none
      | esc :: rest =>
        if esc = 'u' then readUnicode rest else (backslash esc).map fun c => (c, rest)
    else if c.toNat < 32 then none
    else some (c, rest)

/-- `scanstring`, behind the opening quote. -/
def scanstring : Matcher Char String := fun l =>
  (readUntil readChar '"' (l.length + 1) l).map fun p => (String.ofList p.1, p.2)

/-! ### Numbers -/

/-- The groups of `NUMBER_RE`. -/
structure NumberText where
  integer : List Char
  frac : List Char
  exp : List Char

/-- What the groups cover. -/
def NumberText.text (t : NumberText) : List Char := t.integer ++ t.frac ++ t.exp

/-- `[0-9]+`. -/
def readDigitChars : Matcher Char (List Char) := fun l =>
  let digits := l.takeWhile Char.isDigit
  if digits = [] then none else some (digits, l.dropWhile Char.isDigit)

/-- `-?(?:0|[1-9][0-9]*)`. -/
def readInteger : Matcher Char (List Char) := fun l =>
  let (minus, body) := if l.head? = some '-' then (['-'], l.tail) else ([], l)
  if body.head? = some '0' then some (minus ++ ['0'], body.tail)
  else (readDigitChars body).map fun p => (minus ++ p.1, p.2)

/-- `(\.[0-9]+)?`. -/
def readFrac (l : List Char) : List Char × List Char :=
  if l.head? = some '.' then ((readDigitChars l.tail).map fun p => ('.' :: p.1, p.2)).getD ([], l)
  else ([], l)

/-- `[-+]?`. -/
def readSign : List Char → List Char × List Char
  | [] => ([], [])
  | c :: rest => if c = '+' ∨ c = '-' then ([c], rest) else ([], c :: rest)

/-- `([eE][-+]?[0-9]+)?`. -/
def readExp : List Char → List Char × List Char
  | [] => ([], [])
  | c :: rest =>
    if c = 'e' ∨ c = 'E' then
      ((readDigitChars (readSign rest).2).map fun p => (c :: (readSign rest).1 ++ p.1, p.2)).getD
        ([], c :: rest)
    else ([], c :: rest)

/-- `NUMBER_RE.match`. -/
def readNumber : Matcher Char NumberText := fun l => do
  let (integer, rest) ← readInteger l
  let (frac, rest) := readFrac rest
  let (exp, rest) := readExp rest
  return (⟨integer, frac, exp⟩, rest)

/-- `int(integer)`. -/
def intValue (integer : List Char) : ℤ :=
  if integer.head? = some '-' then -(Nat.ofDigitChars 10 integer.tail 0 : ℤ)
  else Nat.ofDigitChars 10 integer 0

/-- The token of a number. -/
def NumberText.token (float : String → PyFloat) (t : NumberText) : Token :=
  if t.frac = [] ∧ t.exp = [] then .int (intValue t.integer)
  else .float (float (String.ofList t.text))

/-! ### Tokens -/

/-- The tokens of one character. -/
def punctuation (c : Char) : Option Token :=
  if c = '[' then some .lbracket
  else if c = ']' then some .rbracket
  else if c = '\x7b' then some .lbrace
  else if c = '\x7d' then some .rbrace
  else if c = ',' then some .comma
  else if c = ':' then some .colon
  else none

/-- The words that stand for values. -/
def constants : List (List Char × Token) :=
  [("null".toList, .null), ("true".toList, .bool true), ("false".toList, .bool false),
    ("NaN".toList, .float ⟨.nan, "nan"⟩), ("Infinity".toList, .float ⟨.inf, "inf"⟩),
    ("-Infinity".toList, .float ⟨.negInf, "-inf"⟩)]

/-- A word that stands for a value. -/
def readConstant : Matcher Char Token := fun l =>
  (constants.find? fun p => p.1.isPrefixOf l).map fun p => (p.2, l.drop p.1.length)

section Tokens

variable (float : String → PyFloat)

/-- A token. -/
def readToken : Matcher Char Token
  | [] => none
  | c :: rest =>
    match punctuation c with
    | some t => some (t, rest)
    | none =>
      if c = '"' then (scanstring rest).map fun p => (.str p.1, p.2)
      else (readConstant (c :: rest)).or
        ((readNumber (c :: rest)).map fun p => (p.1.token float, p.2))

/-- A token, and the white space behind it. -/
def readNext : Matcher Char Token := fun l =>
  (readToken float l).map fun p => (p.1, p.2.dropWhile isBlank)

/-- The tokens of a text. -/
def tokens? (text : List Char) : Option (List Token) :=
  let text := text.dropWhile isBlank
  readAll (readNext float) text.length text

end Tokens

example : tokens? (fun text => ⟨.finite 0, text⟩) "[-12, \x7b\"a\\u00e9\": 1.5e3\x7d ]".toList =
    some [.lbracket, .int (-12), .comma, .lbrace, .str "aé", .colon, .float ⟨.finite 0, "1.5e3"⟩,
      .rbrace, .rbracket] := by decide +kernel

/-! ## Characters -/

theorem hexDigit?_digitChar : ∀ d < 16, hexDigit? (Nat.digitChar d) = some d := by decide

theorem unicodeEscape_eq (n : ℕ) : unicodeEscape n = ['\\', 'u', Nat.digitChar (n / 4096 % 16),
    Nat.digitChar (n / 256 % 16), Nat.digitChar (n / 16 % 16), Nat.digitChar (n % 16)] := by
  simp [unicodeEscape, List.range_succ]

/-- Four digits are read again. -/
theorem decodeUXXXX_unicodeEscape {n : ℕ} (hn : n < 65536) (rest : List Char) :
    decodeUXXXX ((unicodeEscape n).drop 2 ++ rest) = some (n, rest) := by
  have hlt : ∀ k, k % 16 < 16 := fun k => Nat.mod_lt k (by decide)
  have hsum : ((n / 4096 % 16 * 16 + n / 256 % 16) * 16 + n / 16 % 16) * 16 + n % 16 = n := by omega
  rw [unicodeEscape_eq]
  simp [decodeUXXXX, hexDigit?_digitChar, hlt, hsum]

/-- A character is no surrogate. -/
theorem toNat_of_char (c : Char) :
    c.toNat < 0xd800 ∨ 0xdfff < c.toNat ∧ c.toNat < 0x110000 := c.valid

theorem readChar_escape (n : ℕ) (rest : List Char) :
    readChar (unicodeEscape n ++ rest) = readUnicode ((unicodeEscape n).drop 2 ++ rest) := by
  rw [unicodeEscape_eq]
  rfl

theorem readChar_unicodeEscape {c : Char} (hc : c.toNat < 65536) (rest : List Char) :
    readChar (unicodeEscape c.toNat ++ rest) = some (c, rest) := by
  have hchar := toNat_of_char c
  have hhigh : ¬(0xd800 ≤ c.toNat ∧ c.toNat ≤ 0xdbff) := by omega
  have hlow : ¬(0xdc00 ≤ c.toNat ∧ c.toNat ≤ 0xdfff) := by omega
  rw [readChar_escape]
  simp [readUnicode, decodeUXXXX_unicodeEscape hc, hhigh, hlow, Char.ofNat_toNat]

/-- A pair of surrogates. -/
theorem readChar_surrogates {high low : ℕ} (hhigh : 0xd800 ≤ high ∧ high ≤ 0xdbff)
    (hlow : 0xdc00 ≤ low ∧ low ≤ 0xdfff) (rest : List Char) :
    readChar (unicodeEscape high ++ (unicodeEscape low ++ rest)) =
      some (Char.ofNat (0x10000 + ((high - 0xd800) * 0x400 + (low - 0xdc00))), rest) := by
  have htake : (unicodeEscape low ++ rest).take 2 = ['\\', 'u'] := by
    rw [unicodeEscape_eq]
    rfl
  have hdrop : (unicodeEscape low ++ rest).drop 2 = (unicodeEscape low).drop 2 ++ rest := by
    rw [unicodeEscape_eq]
    rfl
  have hhigh' : high < 65536 := by omega
  have hlow' : low < 65536 := by omega
  simp only [readChar_escape, readUnicode, decodeUXXXX_unicodeEscape hhigh', Option.bind_eq_bind,
    Option.bind_some, if_pos hhigh, if_pos htake, hdrop, decodeUXXXX_unicodeEscape hlow',
    if_pos hlow, Option.pure_def]

/-- A character is read as `escapeChar` writes it. -/
theorem readChar_escapeChar (c : Char) (rest : List Char) :
    readChar (escapeChar c ++ rest) = some (c, rest) := by
  unfold escapeChar
  split_ifs with hquote hn hr ht hf hb hcontrol
  · rcases hquote with rfl | rfl <;> rfl
  · subst hn; rfl
  · subst hr; rfl
  · subst ht; rfl
  · subst hf; rfl
  · subst hb; rfl
  · exact readChar_unicodeEscape (by omega) rest
  · rw [not_or] at hquote
    simp [readChar, hquote.2, hcontrol]

theorem head?_escapeChar (c : Char) : (escapeChar c).head? ≠ some '"' := by
  unfold escapeChar
  split_ifs with hquote hn hr ht hf hb hcontrol
  · simp
  · simp
  · simp
  · simp
  · simp
  · simp
  · simp [unicodeEscape_eq]
  · rw [not_or] at hquote
    simp [hquote.1]

/-- A character of an ASCII text: what is beyond is escaped, with a pair of surrogates from 65536
on. -/
def escapeAscii (c : Char) : List Char :=
  if c.toNat < 127 then escapeChar c
  else if c.toNat < 0x10000 then unicodeEscape c.toNat
  else
    let n := c.toNat - 0x10000
    unicodeEscape (0xd800 + n / 0x400) ++ unicodeEscape (0xdc00 + n % 0x400)

theorem readChar_escapeAscii (c : Char) (rest : List Char) :
    readChar (escapeAscii c ++ rest) = some (c, rest) := by
  unfold escapeAscii
  split_ifs with hascii hbmp
  · exact readChar_escapeChar c rest
  · exact readChar_unicodeEscape hbmp rest
  · have hchar := toNat_of_char c
    have hhigh : 0xd800 ≤ 0xd800 + (c.toNat - 0x10000) / 0x400 ∧
        0xd800 + (c.toNat - 0x10000) / 0x400 ≤ 0xdbff := by omega
    have hlow : 0xdc00 ≤ 0xdc00 + (c.toNat - 0x10000) % 0x400 ∧
        0xdc00 + (c.toNat - 0x10000) % 0x400 ≤ 0xdfff := by omega
    have hsum : 0x10000 + ((0xd800 + (c.toNat - 0x10000) / 0x400 - 0xd800) * 0x400 +
        (0xdc00 + (c.toNat - 0x10000) % 0x400 - 0xdc00)) = c.toNat := by omega
    rw [List.append_assoc, readChar_surrogates hhigh hlow, hsum, Char.ofNat_toNat]

theorem head?_escapeAscii (c : Char) : (escapeAscii c).head? ≠ some '"' := by
  unfold escapeAscii
  split_ifs
  · exact head?_escapeChar c
  · simp [unicodeEscape_eq]
  · simp [unicodeEscape_eq]

/-! ## Spelling -/

/-- What the arguments of `json.dumps` choose: what stands behind `,` and `:`, and the escapes. -/
structure Spelling where
  blank : List Char
  escape : Char → List Char
  blank_isBlank : ∀ c ∈ blank, isBlank c = true
  readChar_escape : ∀ c rest, readChar (escape c ++ rest) = some (c, rest)
  head?_escape : ∀ c, (escape c).head? ≠ some '"'

theorem isBlank_of_space (c : Char) (h : c ∈ [' ']) : isBlank c = true := by
  rw [List.mem_singleton.1 h]
  rfl

theorem isBlank_of_nothing (c : Char) (h : c ∈ ([] : List Char)) : isBlank c = true := by
  cases h

/-- The defaults. -/
def Spelling.ascii : Spelling where
  blank := [' ']
  escape := escapeAscii
  blank_isBlank := isBlank_of_space
  readChar_escape := readChar_escapeAscii
  head?_escape := head?_escapeAscii

/-- `separators=(',', ':'), ensure_ascii=False`. -/
def Spelling.compact : Spelling where
  blank := []
  escape := escapeChar
  blank_isBlank := isBlank_of_nothing
  readChar_escape := readChar_escapeChar
  head?_escape := head?_escapeChar

namespace Spelling

variable (sp : Spelling)

/-- The letters of a token. -/
def letters : Token → List Char
  | .lbracket => ['[']
  | .rbracket => [']']
  | .lbrace => ['\x7b']
  | .rbrace => ['\x7d']
  | .comma => ',' :: sp.blank
  | .colon => ':' :: sp.blank
  | .null => "null".toList
  | .bool true => "true".toList
  | .bool false => "false".toList
  | .int n => (toString n).toList
  | .float x => dumpsFloat x
  | .str s => quoted sp.escape s

/-- The letters of a text. -/
def spell (ts : List Token) : List Char := ts.flatMap sp.letters

end Spelling

/-! ## What was spelled is read -/

theorem scanstring_quoted (sp : Spelling) (str : String) (rest : List Char) :
    scanstring (str.toList.flatMap sp.escape ++ '"' :: rest) = some (str, rest) := by
  have hne : ∀ c, sp.escape c ≠ [] := by
    intro c hnil
    have hread := sp.readChar_escape c []
    rw [hnil] at hread
    cases hread
  have hstop : ∀ c ∈ str.toList, ∀ rest, (sp.escape c ++ rest).head? ≠ some '"' := by
    intro c _ rest
    rw [List.head?_append_of_ne_nil _ (hne c)]
    exact sp.head?_escape c
  have hlength : str.toList.length ≤ (str.toList.flatMap sp.escape).length := by
    induction str.toList with
    | nil => exact le_rfl
    | cons c cs ih =>
      have hpos := List.length_pos_iff.2 (hne c)
      simp only [List.flatMap_cons, List.length_append, List.length_cons]
      omega
  unfold scanstring
  rw [readUntil_flatMap (fun c _ rest => sp.readChar_escape c rest) hstop
    (by rw [List.length_append, List.length_cons]; omega)]
  simp

/-! ### Numbers -/

/-- No digit follows. -/
def NoDigit (rest : List Char) : Prop := ∀ c, rest.head? = some c → c.isDigit = false

/-- What ends a value follows, or nothing. -/
def Closed (rest : List Char) : Prop := ∀ c, rest.head? = some c → c = ',' ∨ c = ']' ∨ c = '\x7d'

/-- `[0-9]+`. -/
structure IsDigits (digits : List Char) : Prop where
  ne_nil : digits ≠ []
  digit : ∀ c ∈ digits, c.isDigit = true

/-- The groups of a match of `NUMBER_RE`. -/
structure NumberText.Matched (t : NumberText) : Prop where
  integer : ∃ minus digits, t.integer = minus ++ digits ∧ (minus = [] ∨ minus = ['-']) ∧
    IsDigits digits ∧ (digits.head? = some '0' → digits = ['0'])
  frac : t.frac = [] ∨ ∃ digits, t.frac = '.' :: digits ∧ IsDigits digits
  exp : t.exp = [] ∨ ∃ e sign digits, t.exp = e :: sign ++ digits ∧ (e = 'e' ∨ e = 'E') ∧
    (sign = [] ∨ sign = ['+'] ∨ sign = ['-']) ∧ IsDigits digits

section Numbers

variable {digits rest : List Char}

theorem IsDigits.exists_cons (h : IsDigits digits) :
    ∃ c cs, digits = c :: cs ∧ c.isDigit = true := by
  obtain ⟨c, cs, rfl⟩ := List.exists_cons_of_ne_nil h.ne_nil
  exact ⟨c, cs, rfl, h.digit c List.mem_cons_self⟩

theorem ne_of_isDigit {c c' : Char} (h : c.isDigit = true) (h' : c'.isDigit = false) : c ≠ c' := by
  rintro rfl
  rw [h] at h'
  cases h'

theorem readDigitChars_append (h : IsDigits digits) (hrest : NoDigit rest) :
    readDigitChars (digits ++ rest) = some (digits, rest) := by
  unfold readDigitChars
  rw [takeWhile_front h.digit hrest, dropWhile_front h.digit hrest]
  exact if_neg h.ne_nil

theorem readInteger_append {minus : List Char} (hminus : minus = [] ∨ minus = ['-'])
    (h : IsDigits digits) (hzero : digits.head? = some '0' → digits = ['0'])
    (hrest : NoDigit rest) : readInteger (minus ++ digits ++ rest) = some (minus ++ digits, rest) := by
  obtain ⟨c, cs, rfl, hc⟩ := h.exists_cons
  have hne : c ≠ '-' := ne_of_isDigit hc rfl
  have hsplit : (if (minus ++ c :: cs ++ rest).head? = some '-' then
      (['-'], (minus ++ c :: cs ++ rest).tail) else ([], minus ++ c :: cs ++ rest)) =
        (minus, c :: cs ++ rest) := by
    rcases hminus with rfl | rfl <;> simp [hne]
  unfold readInteger
  rw [hsplit]
  simp only
  by_cases hlead : c = '0'
  · subst hlead
    have hcs : cs = [] := by simpa using hzero rfl
    subst hcs
    rfl
  · rw [if_neg (by simpa using hlead), readDigitChars_append h hrest]
    rfl

theorem readFrac_append {frac : List Char}
    (h : frac = [] ∨ ∃ digits, frac = '.' :: digits ∧ IsDigits digits) (hrest : NoDigit rest)
    (hpoint : rest.head? ≠ some '.') : readFrac (frac ++ rest) = (frac, rest) := by
  rcases h with rfl | ⟨digits, rfl, hdigits⟩
  · exact if_neg hpoint
  · simp [readFrac, readDigitChars_append hdigits hrest]

theorem readSign_append {sign : List Char} (h : sign = [] ∨ sign = ['+'] ∨ sign = ['-'])
    (hdigits : IsDigits digits) (rest : List Char) :
    readSign (sign ++ digits ++ rest) = (sign, digits ++ rest) := by
  obtain ⟨c, cs, rfl, hc⟩ := hdigits.exists_cons
  have hplus : c ≠ '+' := ne_of_isDigit hc rfl
  have hminus : c ≠ '-' := ne_of_isDigit hc rfl
  rcases h with rfl | rfl | rfl <;> simp [readSign, hplus, hminus]

theorem readExp_append {exp : List Char}
    (h : exp = [] ∨ ∃ e sign digits, exp = e :: sign ++ digits ∧ (e = 'e' ∨ e = 'E') ∧
      (sign = [] ∨ sign = ['+'] ∨ sign = ['-']) ∧ IsDigits digits) (hrest : NoDigit rest)
    (hexp : ∀ c, rest.head? = some c → c ≠ 'e' ∧ c ≠ 'E') : readExp (exp ++ rest) = (exp, rest) := by
  rcases h with rfl | ⟨e, sign, digits, rfl, he, hsign, hdigits⟩
  · cases rest with
    | nil => rfl
    | cons c rest => simp [readExp, hexp c rfl]
  · rw [List.cons_append, List.cons_append, readExp, if_pos he, readSign_append hsign hdigits,
      readDigitChars_append hdigits hrest]
    rfl

/-- A number that a separator follows. -/
theorem readNumber_append {t : NumberText} (h : t.Matched) (hrest : Closed rest) :
    readNumber (t.text ++ rest) = some (t, rest) := by
  obtain ⟨minus, digits, hinteger, hminus, hdigits, hzero⟩ := h.integer
  have hheadRest : ∀ c, rest.head? = some c →
      c.isDigit = false ∧ c ≠ '.' ∧ c ≠ 'e' ∧ c ≠ 'E' := by
    intro c hc
    rcases hrest c hc with rfl | rfl | rfl <;> decide
  have hheadExp : ∀ c, (t.exp ++ rest).head? = some c → c.isDigit = false ∧ c ≠ '.' := by
    intro c hc
    rcases h.exp with hexp | ⟨e, sign, ds, hexp, he, -, -⟩
    · rw [hexp] at hc
      exact ⟨(hheadRest c hc).1, (hheadRest c hc).2.1⟩
    · rw [hexp] at hc
      obtain rfl : e = c := Option.some.inj hc
      rcases he with rfl | rfl <;> decide
  have hheadFrac : NoDigit (t.frac ++ (t.exp ++ rest)) := by
    intro c hc
    rcases h.frac with hfrac | ⟨ds, hfrac, -⟩
    · rw [hfrac] at hc
      exact (hheadExp c hc).1
    · rw [hfrac] at hc
      obtain rfl : '.' = c := Option.some.inj hc
      rfl
  unfold readNumber NumberText.text
  rw [List.append_assoc, List.append_assoc, hinteger,
    readInteger_append hminus hdigits hzero hheadFrac]
  simp only [Option.bind_eq_bind, Option.bind_some]
  rw [readFrac_append h.frac (fun c hc => (hheadExp c hc).1) fun hpoint => (hheadExp '.' hpoint).2 rfl]
  simp only
  rw [readExp_append h.exp (fun c hc => (hheadRest c hc).1) fun c hc => (hheadRest c hc).2.2]
  simp only [Option.pure_def, ← hinteger]

end Numbers

/-- The digits of a natural number. -/
theorem isDigits_toDigits (n : ℕ) : IsDigits (Nat.toDigits 10 n) where
  ne_nil := Nat.toDigits_ne_nil
  digit _ hc := Nat.isDigit_of_mem_toDigits (by decide) (by decide) hc

theorem head?_toDigits {n : ℕ} (h : (Nat.toDigits 10 n).head? = some '0') :
    Nat.toDigits 10 n = ['0'] := by
  induction n using Nat.strongRecOn with
  | ind n ih =>
    by_cases hlt : n < 10
    · rw [Nat.toDigits_of_lt_base hlt] at h ⊢
      simpa using h
    · rw [Nat.toDigits_of_base_le (by decide) (not_lt.1 hlt),
        List.head?_append_of_ne_nil _ Nat.toDigits_ne_nil] at h
      have hfirst := ih (n / 10) (by omega) h
      have hzero := congrArg (fun cs => Nat.ofDigitChars 10 cs 0) hfirst
      simp only [Nat.ofDigitChars_ten_toDigits] at hzero
      have hval : Nat.ofDigitChars 10 ['0'] 0 = 0 := by decide
      omega

/-- An integer's text is a match, and denotes the integer. -/
theorem exists_numberText (n : ℤ) : ∃ t : NumberText, t.Matched ∧ t.text = (toString n).toList ∧
    t.frac = [] ∧ t.exp = [] ∧ intValue t.integer = n := by
  have hmatched : ∀ (m : ℕ) (minus : List Char), (minus = [] ∨ minus = ['-']) →
      NumberText.Matched ⟨minus ++ Nat.toDigits 10 m, [], []⟩ := fun m minus hminus =>
    ⟨⟨minus, _, rfl, hminus, isDigits_toDigits m, head?_toDigits⟩, Or.inl rfl, Or.inl rfl⟩
  cases n with
  | ofNat m =>
    refine ⟨_, hmatched m [] (Or.inl rfl), ?_, rfl, rfl, ?_⟩
    · have htext : toString (Int.ofNat m) = m.repr := rfl
      rw [htext, Nat.toList_repr]
      simp [NumberText.text]
    · obtain ⟨c, cs, hcs, hc⟩ := (isDigits_toDigits m).exists_cons
      have hne : c ≠ '-' := ne_of_isDigit hc rfl
      have hhead : (Nat.toDigits 10 m).head? ≠ some '-' := by simp [hcs, hne]
      rw [List.nil_append, intValue, if_neg hhead, Nat.ofDigitChars_ten_toDigits]
      rfl
  | negSucc m =>
    refine ⟨_, hmatched (m + 1) ['-'] (Or.inr rfl), ?_, rfl, rfl, ?_⟩
    · have htext : toString (Int.negSucc m) = "-" ++ (m + 1).repr := rfl
      rw [htext, String.toList_append, Nat.toList_repr]
      simp [NumberText.text]
    · have hvalue : intValue (['-'] ++ Nat.toDigits 10 (m + 1)) =
          -(Nat.ofDigitChars 10 (Nat.toDigits 10 (m + 1)) 0 : ℤ) := rfl
      rw [hvalue, Nat.ofDigitChars_ten_toDigits]
      rfl

/-! ### Tokens -/

section Tokens

variable (float : String → PyFloat)

/-- A float whose `repr` the interpreter reads back. -/
def PyFloat.Legible (x : PyFloat) : Prop :=
  ∃ q t, x.val = .finite q ∧ NumberText.Matched t ∧ (t.frac ≠ [] ∨ t.exp ≠ []) ∧
    t.text = x.repr.toList ∧ float x.repr = x

/-- A token that is read back. -/
def Token.Legible : Token → Prop
  | .float x => x.Legible float
  | _ => True

/-- An integer or a float. -/
def Token.isNumber : Token → Bool
  | .int _ | .float _ => true
  | _ => false

/-- What ends a value. -/
def Token.closes : Token → Bool
  | .comma | .rbracket | .rbrace => true
  | _ => false

variable {float}

/-- A number's letters: they begin with no blank, no quote and no letter of a word. -/
theorem NumberText.Matched.exists_cons {t : NumberText} (h : t.Matched) : ∃ c cs,
    t.text = c :: cs ∧ (c.isDigit = true ∨ c = '-' ∧ ∃ d ds, cs = d :: ds ∧ d.isDigit = true) := by
  obtain ⟨minus, digits, hinteger, hminus, hdigits, -⟩ := h.integer
  obtain ⟨d, ds, rfl, hd⟩ := hdigits.exists_cons
  rcases hminus with rfl | rfl
  · exact ⟨d, ds ++ t.frac ++ t.exp, by simp [NumberText.text, hinteger], Or.inl hd⟩
  · exact ⟨'-', d :: ds ++ t.frac ++ t.exp, by simp [NumberText.text, hinteger],
      Or.inr ⟨rfl, d, ds ++ t.frac ++ t.exp, by simp, hd⟩⟩

theorem head_constants : ∀ p ∈ constants, (p.1.head?.any fun c => !c.isDigit) = true := by
  decide

/-- A number is not taken for something else. -/
theorem readToken_number {t : NumberText} (h : t.Matched) {rest : List Char} (hrest : Closed rest) :
    readToken float (t.text ++ rest) = some (t.token float, rest) := by
  have hread := readNumber_append h hrest
  obtain ⟨c, cs, htext, hc⟩ := h.exists_cons
  rw [htext, List.cons_append] at hread ⊢
  have hpunctuation : punctuation c = none := by
    rcases hc with hc | ⟨rfl, -⟩
    · unfold punctuation
      split_ifs <;> first | rfl | (subst_vars; cases hc)
    · rfl
  have hquote : c ≠ '"' := by
    rcases hc with hc | ⟨rfl, -⟩
    · exact ne_of_isDigit hc rfl
    · decide
  have hconstant : readConstant (c :: (cs ++ rest)) = none := by
    rcases hc with hc | ⟨rfl, d, ds, rfl, hd⟩
    · simp only [readConstant, Option.map_eq_none_iff, List.find?_eq_none,
        List.isPrefixOf_iff_prefix]
      rintro ⟨word, constant⟩ hmem hprefix
      have hword := head_constants _ hmem
      cases word with
      | nil => cases hword
      | cons c' word =>
        obtain rfl := (List.cons_prefix_cons.1 hprefix).1
        simp [hc] at hword
    · have hne : 'I' ≠ d := (ne_of_isDigit hd rfl).symm
      simp [readConstant, constants, List.isPrefixOf, hne]
  rw [readToken, hpunctuation]
  simp only [if_neg hquote, hconstant, hread, Option.none_or, Option.map_some]

/-- What is read in front of the letters that follow. -/
theorem readNext_letters {sp : Spelling} {t : Token} (ht : t.Legible float) {rest : List Char}
    (hblank : ∀ c, rest.head? = some c → isBlank c = false)
    (hclosed : t.isNumber = true → Closed rest) :
    readNext float (sp.letters t ++ rest) = some (t, rest) := by
  have hrest : rest.dropWhile isBlank = rest := dropWhile_front (l := []) (by simp) hblank
  have hsep : (sp.blank ++ rest).dropWhile isBlank = rest := dropWhile_front sp.blank_isBlank hblank
  have hnumber : ∀ u : NumberText, u.Matched → t.isNumber = true →
      readNext float (u.text ++ rest) = some (u.token float, rest) := by
    intro u hu hn
    rw [readNext, readToken_number hu (hclosed hn), Option.map_some, hrest]
  cases t with
  | lbracket | rbracket | lbrace | rbrace =>
    simp [readNext, Spelling.letters, readToken, punctuation, hrest]
  | comma | colon => simp [readNext, Spelling.letters, readToken, punctuation, hsep]
  | null =>
    simp [readNext, Spelling.letters, readToken, punctuation, readConstant, constants, hrest]
  | bool b =>
    cases b <;>
      simp [readNext, Spelling.letters, readToken, punctuation, readConstant, constants, hrest]
  | int n =>
    obtain ⟨u, hu, htext, hfrac, hexp, hvalue⟩ := exists_numberText n
    have hread := hnumber u hu rfl
    rwa [htext, NumberText.token, if_pos ⟨hfrac, hexp⟩, hvalue] at hread
  | float x =>
    obtain ⟨q, u, hval, hu, hne, htext, hfloat⟩ := ht
    have hread := hnumber u hu rfl
    have hparts : ¬(u.frac = [] ∧ u.exp = []) := by tauto
    have hletters : sp.letters (.float x) = x.repr.toList := by
      rw [Spelling.letters, dumpsFloat, hval]
    rwa [NumberText.token, if_neg hparts, htext, String.ofList_toList, hfloat, ← hletters] at hread
  | str s =>
    have hscan := scanstring_quoted sp s rest
    have hletters : sp.letters (.str s) ++ rest =
        '"' :: (s.toList.flatMap sp.escape ++ '"' :: rest) := by
      simp [Spelling.letters, quoted]
    rw [hletters]
    simp [readNext, readToken, punctuation, hscan, hrest]

/-! ### Texts -/

/-- A number stands at the end, or before a token that ends a value. -/
def Spaced : List Token → Prop
  | [] => True
  | t :: ts => (t.isNumber = true → ∀ t', ts.head? = some t' → t'.closes = true) ∧ Spaced ts

theorem isBlank_of_isDigit {c : Char} (h : c.isDigit = true) : isBlank c = false := by
  by_contra hblank
  simp only [isBlank, decide_eq_true_eq, Bool.not_eq_false, List.mem_cons, List.not_mem_nil,
    or_false] at hblank
  rcases hblank with rfl | rfl | rfl | rfl <;> cases h

theorem NumberText.Matched.not_isBlank {t : NumberText} (h : t.Matched) :
    ∃ c cs, t.text = c :: cs ∧ isBlank c = false := by
  obtain ⟨c, cs, htext, hc⟩ := h.exists_cons
  refine ⟨c, cs, htext, ?_⟩
  rcases hc with hc | ⟨rfl, -⟩
  · exact isBlank_of_isDigit hc
  · decide

/-- The first letter of a token. -/
theorem letters_cons (sp : Spelling) {t : Token} (ht : t.Legible float) :
    ∃ c cs, sp.letters t = c :: cs ∧ isBlank c = false ∧
      (t.closes = true → c = ',' ∨ c = ']' ∨ c = '\x7d') := by
  have hno : ∀ {P : Prop}, false = true → P := fun h => by cases h
  cases t with
  | lbracket | lbrace | colon | null => exact ⟨_, _, rfl, by decide, hno⟩
  | rbracket | rbrace | comma => exact ⟨_, _, rfl, by decide, by simp⟩
  | bool b => cases b <;> exact ⟨_, _, rfl, by decide, hno⟩
  | int n =>
    obtain ⟨u, hu, htext, -, -, -⟩ := exists_numberText n
    obtain ⟨c, cs, hcons, hblank⟩ := hu.not_isBlank
    exact ⟨c, cs, htext.symm.trans hcons, hblank, hno⟩
  | float x =>
    obtain ⟨q, u, hval, hu, -, htext, -⟩ := ht
    obtain ⟨c, cs, hcons, hblank⟩ := hu.not_isBlank
    have hletters : sp.letters (.float x) = x.repr.toList := by
      rw [Spelling.letters, dumpsFloat, hval]
    exact ⟨c, cs, hletters.trans (htext.symm.trans hcons), hblank, hno⟩
  | str s => exact ⟨_, _, rfl, by decide, hno⟩

/-- What the letters of a text begin with. -/
theorem head?_spell (sp : Spelling) {ts : List Token} (hts : ∀ t ∈ ts, t.Legible float) {c : Char}
    (hc : (sp.spell ts).head? = some c) :
    ∃ t, ts.head? = some t ∧ isBlank c = false ∧
      (t.closes = true → c = ',' ∨ c = ']' ∨ c = '\x7d') := by
  cases ts with
  | nil => cases hc
  | cons t ts =>
    obtain ⟨c', cs, hcons, hblank, hcloses⟩ := letters_cons sp (hts t List.mem_cons_self)
    rw [Spelling.spell, List.flatMap_cons, hcons] at hc
    obtain rfl : c' = c := Option.some.inj hc
    exact ⟨t, rfl, hblank, hcloses⟩

theorem reads_spell (sp : Spelling) {ts : List Token} (hspaced : Spaced ts)
    (hts : ∀ t ∈ ts, t.Legible float) : Reads (readNext float) sp.letters ts := by
  induction ts with
  | nil => trivial
  | cons t ts ih =>
    obtain ⟨ht, hrest⟩ := List.forall_mem_cons.1 hts
    obtain ⟨c, cs, hcons, -, -⟩ := letters_cons sp ht
    refine ⟨by simp [hcons], readNext_letters ht (fun c hc => ?_) fun hnumber c hc => ?_,
      ih hspaced.2 hrest⟩
    · obtain ⟨t', -, hblank, -⟩ := head?_spell sp hrest hc
      exact hblank
    · obtain ⟨t', ht', -, hcloses⟩ := head?_spell sp hrest hc
      exact hcloses (hspaced.1 hnumber t' ht')

/-- **What was spelled is read again.** -/
theorem tokens?_spell (sp : Spelling) {ts : List Token} (hspaced : Spaced ts)
    (hts : ∀ t ∈ ts, t.Legible float) : tokens? float (sp.spell ts) = some ts := by
  have hreads := reads_spell sp hspaced hts
  have hfront : (sp.spell ts).dropWhile isBlank = sp.spell ts := by
    refine dropWhile_front (l := []) (by simp) fun c hc => ?_
    obtain ⟨t', -, hblank, -⟩ := head?_spell sp hts hc
    exact hblank
  unfold tokens?
  simp only [hfront]
  exact readAll_flatMap hreads hreads.length_le

end Tokens

end Python
