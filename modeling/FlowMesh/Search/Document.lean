import FlowMesh.Library.Dict
import FlowMesh.Python.DateTime
import FlowMesh.Python.JsonStream

/-!
# Documents of the search engine

`SearchDocument` (`flowmesh_search/models.py`), and `CodeAwareTokenizer`
(`flowmesh_search/tokenizer.py`), which gives the terms under which a document is found. The
tokens are ASCII, so the character classes of the patterns are those of `Char`.
-/

namespace FlowMesh.Search

open Python

/-! ## Documents -/

/-- `SearchDocument`. -/
structure SearchDocument where
  id : String
  tenantId : String
  entityType : String
  title : String
  description : Option String := some ""
  tags : List String := []
  status : Option String := none
  url : Option String := none
  payload : List (String × Data) := []
  createdAt : Option DateTime := none
  updatedAt : Option DateTime := none

/-! ## Tokens -/

/-- `STOP_WORDS`. -/
def stopWords : List String :=
  ["a", "an", "and", "are", "as", "at", "be", "by", "for", "from", "has", "he", "in", "is", "it",
    "its", "of", "on", "that", "the", "to", "was", "were", "will", "with"]

/-- A character of `WORD_TOKEN_REGEX`. -/
def isWordChar (c : Char) : Bool := c.isAlphanum || c ∈ ['_', '-', '.', ':']

/-- `WORD_TOKEN_REGEX.findall(text)`. -/
def rawWords (text : List Char) : List (List Char) :=
  (text.splitOnP fun c => !isWordChar c).filter (· ≠ [])

/-- `word.strip(".:-_").lower()`. -/
def cleanWord (word : List Char) : List Char :=
  let isEdge := fun c : Char => c ∈ ['.', ':', '-', '_']
  (((word.dropWhile isEdge).reverse.dropWhile isEdge).reverse).map Char.toLower

/-- `CAMEL_CASE_REGEX.sub(r"\1 \2", word)`. -/
def camelSplit : List Char → List Char
  | c :: c' :: cs =>
    if c.isLower && c'.isUpper then c :: ' ' :: c' :: camelSplit cs else c :: camelSplit (c' :: cs)
  | cs => cs

/-- `separated.lower().split()`; the parts of a word have no other white space. -/
def subTokens (word : List Char) : List (List Char) :=
  let separated := (camelSplit word).map fun c => if c ∈ ['_', '-', '.', ':', '/'] then ' ' else c
  ((separated.map Char.toLower).splitOnP (· = ' ')).filter (· ≠ [])

/-- `if token not in tokens: tokens.append(token)`. -/
def addToken (tokens : List String) (token : String) : List String :=
  if token ∈ tokens then tokens else tokens ++ [token]

/-- A part that the stop words leave out. -/
def isStopWord (sub : String) : Bool := 2 < sub.length && sub ∈ stopWords

/-- The loop over the words. -/
def addWord (tokens : List String) (word : List Char) : List String :=
  let clean := cleanWord word
  if clean = [] then tokens
  else (((subTokens word).map String.ofList).filter fun sub => !isStopWord sub).foldl addToken
    (addToken tokens (String.ofList clean))

/-- `tokenize`. -/
def tokenize (text : String) : List String := (rawWords text.toList).foldl addWord []

/-- `tokenize_with_positions`. -/
def tokenizeWithPositions (text : String) : List (String × ℕ) := (tokenize text).zipIdx

example : tokenize "The orderId of order_42" =
    ["the", "orderid", "order", "id", "of", "order_42", "42"] := by decide +kernel

end FlowMesh.Search
