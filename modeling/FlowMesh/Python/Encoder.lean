import FlowMesh.Library.JsonText
import FlowMesh.Python.Value

/-!
# `json.dumps`

`json.dumps(data, sort_keys=True, separators=(',', ':'), ensure_ascii=False)` on decoded JSON
values: the members of every dictionary are sorted by their keys, strings keep all characters
that JSON allows in a string, and floats are written as their `repr`.
-/

namespace Python

open JsonText

/-- One character inside the quotes. -/
def escapeChar (c : Char) : List Char :=
  if c = '"' ∨ c = '\\' then ['\\', c]
  else if c = '\n' then ['\\', 'n']
  else if c = '\r' then ['\\', 'r']
  else if c = '\t' then ['\\', 't']
  else if c = '\x0c' then ['\\', 'f']
  else if c = '\x08' then ['\\', 'b']
  else if c.toNat < 32 then unicodeEscape c.toNat
  else [c]

/-- A string. -/
def dumpsStr (s : String) : List Char := quoted escapeChar s

/-- A float. -/
def dumpsFloat (x : PyFloat) : List Char :=
  match x.val with
  | .finite _ => x.repr.toList
  | .inf => "Infinity".toList
  | .negInf => "-Infinity".toList
  | .nan => "NaN".toList

mutual

/-- `json.dumps(v, sort_keys=True, separators=(',', ':'), ensure_ascii=False)`. -/
def dumps : Json → List Char
  | .null => "null".toList
  | .bool true => "true".toList
  | .bool false => "false".toList
  | .int n => (toString n).toList
  | .float x => dumpsFloat x
  | .str s => dumpsStr s
  | .list l => array (dumpsItems l)
  | .obj items => object dumpsStr (sorted (dumpsFields items))
termination_by structural v => v

/-- The items of a list. -/
def dumpsItems : List Json → List (List Char)
  | [] => []
  | v :: l => dumps v :: dumpsItems l
termination_by structural l => l

/-- The values of a dictionary, under their keys. -/
def dumpsFields : List (String × Json) → List (String × List Char)
  | [] => []
  | p :: l => dumpsField p :: dumpsFields l
termination_by structural l => l

/-- The value of one member, under its key. -/
def dumpsField : String × Json → String × List Char
  | (k, v) => (k, dumps v)
termination_by structural p => p

end

example : dumps (.obj [("b", .list [.int 2, .null]), ("a", .str "x\ny")]) =
    "\x7b\"a\":\"x\\ny\",\"b\":[2,null]\x7d".toList := by decide +kernel

end Python
