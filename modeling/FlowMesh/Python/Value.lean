import Mathlib.Algebra.Field.Rat
import Mathlib.Data.Rat.Floor
import Mathlib.Tactic.Common

/-!
# Python values

The values the control plane passes around are decoded JSON: `None`, booleans, integers, floats,
strings, lists and dictionaries in insertion order. This file gives the built-in operations that
the modelled code applies to them: truth value, `str` and `repr`, `int`, `float`, `strip`,
`split` and substring search, and the exceptions they raise.

Floats are kept with their exact value and the text of their `repr`; rounding to doubles is not
modelled, overflow to infinity is. What `repr` and `int` take from the interpreter's Unicode
tables beyond ASCII is a parameter (`Unicode`).
-/

namespace Python

/-! ## Exceptions -/

/-- The exception classes the modelled code raises or tells apart. -/
inductive ExcKind
  | valueError
  | typeError
  | overflowError
  | runtimeError
  | timeoutError
  | connectionError
  | circuitBreakerOpenError
  | validationError
  | integrityError
  | multipleResultsFound
  | httpException (status : ℕ)
  | other
  deriving DecidableEq, Repr

/-- An exception: its class, and what `str` gives for it. -/
structure PyError where
  kind : ExcKind
  message : String
  deriving DecidableEq, Repr

/-! ## Values -/

/-- The value of a float. -/
inductive FloatVal
  | finite (q : ℚ)
  | inf
  | negInf
  | nan
  deriving DecidableEq

/-- A float: its value, and its shortest `repr`. -/
structure PyFloat where
  val : FloatVal
  repr : String
  deriving DecidableEq

/-- A decoded JSON value. A dictionary lists its items in insertion order, every key once. -/
inductive Json
  | null
  | bool (b : Bool)
  | int (n : ℤ)
  | float (x : PyFloat)
  | str (s : String)
  | list (l : List Json)
  | obj (items : List (String × Json))
  deriving Inhabited

namespace Json

/-- `isinstance(v, dict)`. -/
def isObj : Json → Bool
  | .obj _ => true
  | _ => false

/-- `bool(v)`. -/
def truthy : Json → Bool
  | .null => false
  | .bool b => b
  | .int n => n ≠ 0
  | .float x => x.val ≠ .finite 0
  | .str s => s ≠ ""
  | .list l => !l.isEmpty
  | .obj items => !items.isEmpty

/-- `v or w`. -/
def or (v w : Json) : Json := if v.truthy then v else w

/-- `d.get(key)` on the items of a dictionary. -/
def lookup (key : String) (items : List (String × Json)) : Option Json :=
  (items.find? (·.1 = key)).map (·.2)

/-- `d[key] = v`: an existing key keeps its place. -/
def assign (key : String) (v : Json) (items : List (String × Json)) : List (String × Json) :=
  if items.any (·.1 = key) then items.map fun p => if p.1 = key then (key, v) else p
  else items ++ [(key, v)]

/-- The number that a value counts as in a comparison. -/
def number? : Json → Option FloatVal
  | .bool b => some (.finite (if b then 1 else 0))
  | .int n => some (.finite n)
  | .float x => some x.val
  | _ => none

mutual

/-- `v == w`; objects are compared without regard to the order of their items. -/
def eq : Json → Json → Bool
  | .null, w => match w with
    | .null => true
    | _ => false
  | .str s, w => match w with
    | .str t => s = t
    | _ => false
  | .list l, w => match w with
    | .list m => eqItems l m
    | _ => false
  | .obj l, w => match w with
    | .obj m => l.length = m.length && eqFields l m
    | _ => false
  | .bool b, w => number? (.bool b) = number? w
  | .int n, w => number? (.int n) = number? w
  | .float x, w => x.val ≠ .nan && number? (.float x) = number? w
termination_by structural v => v

/-- The items of two lists, one by one. -/
def eqItems : List Json → List Json → Bool
  | [], m => m.isEmpty
  | v :: l, m => match m with
    | w :: m => eq v w && eqItems l m
    | [] => false
termination_by structural l => l

/-- Every item of the first object is an item of the second. -/
def eqFields : List (String × Json) → List (String × Json) → Bool
  | [], _ => true
  | p :: l, m => eqField p m && eqFields l m
termination_by structural l => l

/-- One item of the first object is an item of the second. -/
def eqField : String × Json → List (String × Json) → Bool
  | (k, v), m => match lookup k m with
    | some w => eq v w
    | none => false
termination_by structural p => p

end

end Json

/-! ## Characters and strings -/

/-- What the interpreter's Unicode tables say of a character beyond ASCII. -/
structure Unicode where
  isPrintable : Char → Bool
  decimal : Char → Option ℕ

/-- `str.isspace` of one character, which is also what `\s` matches. -/
def isSpace (c : Char) : Bool :=
  let n := c.toNat
  (9 ≤ n ∧ n ≤ 13) ∨ (28 ≤ n ∧ n ≤ 32) ∨ n = 0x85 ∨ n = 0xa0 ∨ n = 0x1680 ∨
    (0x2000 ≤ n ∧ n ≤ 0x200a) ∨ n = 0x2028 ∨ n = 0x2029 ∨ n = 0x202f ∨ n = 0x205f ∨ n = 0x3000

/-- `str.strip`. -/
def strip (cs : List Char) : List Char :=
  ((cs.dropWhile isSpace).reverse.dropWhile isSpace).reverse

/-- `str.lower` as far as ASCII words are concerned: the Kelvin sign is the one character
beyond ASCII whose lower case is an ASCII letter. -/
def lower (s : String) : List Char :=
  s.toList.map fun c => if c = '\u212a' then 'k' else c.toLower

/-- `sub in s`. -/
def contains (s : List Char) (sub : String) : Bool :=
  s.tails.any fun t => sub.toList.isPrefixOf t

/-- `s.split(".")` on characters. -/
def splitDots : List Char → List (List Char)
  | [] => [[]]
  | c :: cs =>
    if c = '.' then [] :: splitDots cs
    else match splitDots cs with
      | [] => [[c]]
      | w :: ws => (c :: w) :: ws

/-- The last `k` hexadecimal digits of `n`. -/
def hexDigits (k n : ℕ) : List Char :=
  ((List.range k).map fun i => Nat.digitChar (n / 16 ^ i % 16)).reverse

/-- One character inside the quotes of a `repr`. -/
def reprChar (u : Unicode) (quote c : Char) : List Char :=
  let n := c.toNat
  if c = quote ∨ c = '\\' then ['\\', c]
  else if c = '\n' then ['\\', 'n']
  else if c = '\r' then ['\\', 'r']
  else if c = '\t' then ['\\', 't']
  else if n < 32 ∨ n = 127 then '\\' :: 'x' :: hexDigits 2 n
  else if n < 127 then [c]
  else if u.isPrintable c then [c]
  else if n < 0x100 then '\\' :: 'x' :: hexDigits 2 n
  else if n < 0x10000 then '\\' :: 'u' :: hexDigits 4 n
  else '\\' :: 'U' :: hexDigits 8 n

/-- `repr` of a string: single quotes unless only double quotes avoid an escape. -/
def reprStr (u : Unicode) (s : String) : List Char :=
  let quote := if s.toList.contains '\'' ∧ ¬ s.toList.contains '"' then '"' else '\''
  quote :: s.toList.flatMap (reprChar u quote) ++ [quote]

mutual

/-- `repr(v)`. -/
def repr (u : Unicode) : Json → List Char
  | .null => "None".toList
  | .bool true => "True".toList
  | .bool false => "False".toList
  | .int n => (toString n).toList
  | .float x => x.repr.toList
  | .str s => reprStr u s
  | .list l => '[' :: reprItems u l ++ [']']
  | .obj items => '\x7b' :: reprFields u items ++ ['\x7d']
termination_by structural v => v

/-- The items of a list, separated by commas. -/
def reprItems (u : Unicode) : List Json → List Char
  | [] => []
  | [v] => repr u v
  | v :: l => repr u v ++ [',', ' '] ++ reprItems u l
termination_by structural l => l

/-- The items of a dictionary, separated by commas. -/
def reprFields (u : Unicode) : List (String × Json) → List Char
  | [] => []
  | [p] => reprField u p
  | p :: l => reprField u p ++ [',', ' '] ++ reprFields u l
termination_by structural l => l

/-- One item of a dictionary. -/
def reprField (u : Unicode) : String × Json → List Char
  | (k, v) => reprStr u k ++ [':', ' '] ++ repr u v
termination_by structural p => p

end

/-- `str(v)`. -/
def str (u : Unicode) : Json → List Char
  | .str s => s.toList
  | v => repr u v

/-! ## Numbers -/

/-- The value of a decimal digit. -/
def digit? (u : Unicode) (c : Char) : Option ℕ :=
  if '0' ≤ c ∧ c ≤ '9' then some (c.toNat - 48) else u.decimal c

/-- Digits from the front, with single underscores between digits, and the rest. -/
def digitRun (u : Unicode) : List Char → List ℕ × List Char
  | [] => ([], [])
  | c :: '_' :: cs =>
    match digit? u c with
    | none => ([], c :: '_' :: cs)
    | some d =>
      match digitRun u cs with
      | ([], _) => ([d], '_' :: cs)
      | (ds, rest) => (d :: ds, rest)
  | c :: cs =>
    match digit? u c with
    | none => ([], c :: cs)
    | some d => (d :: (digitRun u cs).1, (digitRun u cs).2)

/-- The number a list of decimal digits denotes. -/
def ofDigits (ds : List ℕ) : ℕ := ds.foldl (fun n d => 10 * n + d) 0

/-- An optional sign: whether it is negative, and the rest. -/
def sign : List Char → Bool × List Char
  | '-' :: cs => (true, cs)
  | '+' :: cs => (false, cs)
  | cs => (false, cs)

/-- `int(s)` of a string. -/
def intOfString (u : Unicode) (s : String) : Except PyError ℤ :=
  let (neg, body) := sign (strip s.toList)
  match digitRun u body with
  | (d :: ds, []) => .ok (if neg then -(ofDigits (d :: ds) : ℤ) else ofDigits (d :: ds))
  | _ => .error ⟨.valueError,
      String.ofList ("invalid literal for int() with base 10: ".toList ++ reprStr u s)⟩

/-- The type name in the messages of `int` and `float`. -/
def typeName : Json → String
  | .null => "NoneType"
  | .bool _ => "bool"
  | .int _ => "int"
  | .float _ => "float"
  | .str _ => "str"
  | .list _ => "list"
  | .obj _ => "dict"

/-- `int(v)`. -/
def int (u : Unicode) : Json → Except PyError ℤ
  | .int n => .ok n
  | .bool b => .ok (if b then 1 else 0)
  | .float x =>
    match x.val with
    | .finite q => .ok (if q < 0 then -⌊-q⌋ else ⌊q⌋)
    | .nan => .error ⟨.valueError, "cannot convert float NaN to integer"⟩
    | _ => .error ⟨.overflowError, "cannot convert float infinity to integer"⟩
  | .str s => intOfString u s
  | v => .error ⟨.typeError, "int() argument must be a string, a bytes-like object or a " ++
      "real number, not '" ++ typeName v ++ "'"⟩

/-- The least magnitude that no longer rounds to a finite double. -/
def floatLimit : ℕ := 2 ^ 1024 - 2 ^ 970

/-- A rational as a float: past the largest double it is an infinity. -/
def FloatVal.ofRat (q : ℚ) : FloatVal :=
  if (floatLimit : ℚ) ≤ q then .inf else if q ≤ -(floatLimit : ℚ) then .negInf else .finite q

/-- The exponent part of a float literal. -/
def exponent (u : Unicode) : List Char → Option ℤ
  | [] => some 0
  | c :: cs =>
    if c = 'e' ∨ c = 'E' then
      let (neg, body) := sign cs
      match digitRun u body with
      | (d :: ds, []) => some (if neg then -(ofDigits (d :: ds) : ℤ) else ofDigits (d :: ds))
      | _ => none
    else none

/-- An unsigned float literal. -/
def unsignedFloat (u : Unicode) (cs : List Char) : Option FloatVal :=
  let word := cs.map Char.toLower
  if word = "inf".toList ∨ word = "infinity".toList then some .inf
  else if word = "nan".toList then some .nan
  else
    let (whole, rest) := digitRun u cs
    let (frac, tail) := match rest with
      | '.' :: more => digitRun u more
      | _ => ([], rest)
    if whole = [] ∧ frac = [] then none
    else (exponent u tail).map fun e =>
      .ofRat ((ofDigits (whole ++ frac) : ℚ) * (10 : ℚ) ^ (e - (frac.length : ℤ)))

/-- Negation of a float. -/
def FloatVal.neg : FloatVal → FloatVal
  | .finite q => .finite (-q)
  | .inf => .negInf
  | .negInf => .inf
  | .nan => .nan

/-- `float(v)`. -/
def float (u : Unicode) : Json → Except PyError FloatVal
  | .int n =>
    if floatLimit ≤ n.natAbs then .error ⟨.overflowError, "int too large to convert to float"⟩
    else .ok (.finite n)
  | .bool b => .ok (.finite (if b then 1 else 0))
  | .float x => .ok x.val
  | .str s =>
    let (neg, body) := sign (strip s.toList)
    match unsignedFloat u body with
    | some x => .ok (if neg then x.neg else x)
    | none => .error ⟨.valueError,
        String.ofList ("could not convert string to float: ".toList ++ reprStr u s)⟩
  | v => .error ⟨.typeError, "float() argument must be a string or a real number, not '" ++
      typeName v ++ "'"⟩

end Python
