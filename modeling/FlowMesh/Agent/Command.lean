import FlowMesh.Python.Encoder

/-!
# Commands on the edge

The values that Go's `encoding/json` decodes into an `interface{}`, how it writes them back, and
`policy.Command` with its field tags: fields in the order of the struct, `limit`, `trace_id` and
`span_id` left out when they are zero, map keys sorted, and the characters that HTML or
JavaScript would trip over escaped.

A JSON number becomes a `float64`. How a number is rounded to one and how it is printed is a
parameter (`Go.Floats`).
-/

namespace Go

open JsonText Python

/-- A `float64`: its value, and its text in JSON. -/
structure Float64 where
  val : ℚ
  text : String
  deriving DecidableEq

/-- How numbers become a `float64`; `none` is a number out of range. -/
structure Floats where
  ofInt : ℤ → Option Float64
  ofFloat : PyFloat → Option Float64

/-- What is inside a decoded `interface{}`. -/
inductive Value
  | null
  | bool (b : Bool)
  | number (x : Float64)
  | str (s : String)
  | list (l : List Value)
  | obj (items : List (String × Value))
  deriving Inhabited

/-! ## Decoding -/

section Decode

variable (fs : Floats)

mutual

/-- `json.Unmarshal` into an `interface{}`. -/
def decode : Json → Option Value
  | .null => some .null
  | .bool b => some (.bool b)
  | .int n => (fs.ofInt n).map .number
  | .float x =>
    match x.val with
    | .finite _ => (fs.ofFloat x).map .number
    | _ => none
  | .str s => some (.str s)
  | .list l => (decodeItems l).map .list
  | .obj items => (decodeFields items).map .obj
termination_by structural v => v

/-- The items of an array. -/
def decodeItems : List Json → Option (List Value)
  | [] => some []
  | v :: l => (decode v).bind fun v => (decodeItems l).map (v :: ·)
termination_by structural l => l

/-- The members of an object. -/
def decodeFields : List (String × Json) → Option (List (String × Value))
  | [] => some []
  | p :: l => (decodeField p).bind fun p => (decodeFields l).map (p :: ·)
termination_by structural l => l

/-- One member of an object. -/
def decodeField : String × Json → Option (String × Value)
  | (k, v) => (decode v).map (k, ·)
termination_by structural p => p

end

end Decode

/-! ## Encoding -/

/-- One character inside the quotes, as `json.Marshal` writes it. -/
def escapeChar (c : Char) : List Char :=
  if c = '"' ∨ c = '\\' then ['\\', c]
  else if c = '\n' then ['\\', 'n']
  else if c = '\r' then ['\\', 'r']
  else if c = '\t' then ['\\', 't']
  else if c = '\x0c' then ['\\', 'f']
  else if c = '\x08' then ['\\', 'b']
  else if c.toNat < 32 ∨ c = '<' ∨ c = '>' ∨ c = '&' ∨ c = '\u2028' ∨ c = '\u2029' then
    unicodeEscape c.toNat
  else [c]

/-- A string. -/
def marshalStr (s : String) : List Char := quoted escapeChar s

mutual

/-- `json.Marshal` of what is inside an `interface{}`. -/
def marshal : Value → List Char
  | .null => "null".toList
  | .bool true => "true".toList
  | .bool false => "false".toList
  | .number x => x.text.toList
  | .str s => marshalStr s
  | .list l => array (marshalItems l)
  | .obj items => object marshalStr (sorted (marshalFields items))
termination_by structural v => v

/-- The items of a slice. -/
def marshalItems : List Value → List (List Char)
  | [] => []
  | v :: l => marshal v :: marshalItems l
termination_by structural l => l

/-- The values of a map, under their keys. -/
def marshalFields : List (String × Value) → List (String × List Char)
  | [] => []
  | p :: l => marshalField p :: marshalFields l
termination_by structural l => l

/-- One value of a map, under its key. -/
def marshalField : String × Value → String × List Char
  | (k, v) => (k, marshal v)
termination_by structural p => p

end

/-- `m[key].(string)`. -/
def Value.lookupStr (key : String) (items : List (String × Value)) : Option String :=
  match items.find? (·.1 = key) with
  | some (_, .str s) => some s
  | _ => none

end Go

namespace FlowMesh

open JsonText Python

/-! ## `policy.Command` -/

/-- `policy.Command`; the payload is `none` where the map is `nil`. -/
structure Policy.Command where
  id : String
  type : String
  connector : String
  connectionId : String
  operation : String
  resource : String
  limit : ℤ
  payload : Option (List (String × Go.Value))
  traceId : String
  spanId : String

namespace Policy.Command

/-- A string field: missing or `null`, it stays empty. -/
def stringField (key : String) (items : List (String × Json)) : Option String :=
  match Json.lookup key items with
  | none => some ""
  | some .null => some ""
  | some (.str s) => some s
  | some _ => none

/-- An `int` field: missing or `null`, it stays 0. -/
def intField (key : String) (items : List (String × Json)) : Option ℤ :=
  match Json.lookup key items with
  | none => some 0
  | some .null => some 0
  | some (.int n) => if -2 ^ 63 ≤ n ∧ n < 2 ^ 63 then some n else none
  | some _ => none

/-- A map field: missing or `null`, it stays `nil`. -/
def mapField (fs : Go.Floats) (key : String) (items : List (String × Json)) :
    Option (Option (List (String × Go.Value))) :=
  match Json.lookup key items with
  | none => some none
  | some .null => some none
  | some (.obj fields) => (Go.decodeFields fs fields).map some
  | some _ => none

/-- `json.Unmarshal` of an object into a `policy.Command`. -/
def decode (fs : Go.Floats) (items : List (String × Json)) : Option Policy.Command := do
  let id ← stringField "id" items
  let type ← stringField "type" items
  let connector ← stringField "connector" items
  let connectionId ← stringField "connection_id" items
  let operation ← stringField "operation" items
  let resource ← stringField "resource" items
  let limit ← intField "limit" items
  let payload ← mapField fs "payload" items
  let traceId ← stringField "trace_id" items
  let spanId ← stringField "span_id" items
  return { id, type, connector, connectionId, operation, resource, limit, payload, traceId, spanId }

/-- The fields that `json.Marshal` writes, in the order of the struct. -/
def fields (cmd : Policy.Command) : List (String × List Char) :=
  [("id", Go.marshalStr cmd.id), ("type", Go.marshalStr cmd.type),
    ("connector", Go.marshalStr cmd.connector),
    ("connection_id", Go.marshalStr cmd.connectionId),
    ("operation", Go.marshalStr cmd.operation), ("resource", Go.marshalStr cmd.resource)] ++
  (if cmd.limit = 0 then [] else [("limit", (toString cmd.limit).toList)]) ++
  [("payload", Go.marshal ((cmd.payload.map Go.Value.obj).getD .null))] ++
  (if cmd.traceId = "" then [] else [("trace_id", Go.marshalStr cmd.traceId)]) ++
  (if cmd.spanId = "" then [] else [("span_id", Go.marshalStr cmd.spanId)])

/-- `CanonicalizeJSON`. -/
def canonicalizeJSON (cmd : Policy.Command) : String :=
  String.ofList (object Go.marshalStr cmd.fields)

end Policy.Command

end FlowMesh
