import FlowMesh.Library.Regex
import FlowMesh.Python.Value

/-!
# Guardrails for scripts

`DANGEROUS_PATTERNS` and `validate_script_safety` (`flowmesh_ai_scripting/engine.py`). The patterns
are those of `Library.Regex`; the classes of letters beyond ASCII and Python's parser are arguments.
-/

namespace FlowMesh.Scripting

open Python

/-- `ScriptLanguage`. -/
inductive ScriptLanguage
  | powershell
  | bash
  | python
  | sql
  | ansible
  deriving DecidableEq

/-! ## Letters -/

/-- A letter of a pattern, in lower case, and a letter of a text, with `(?i)`: four letters beyond
ASCII have one in ASCII as their lower case, or count as its equal. -/
def ignoringCase (a c : Char) : Bool :=
  c = a || c = a.toUpper || (a = 'i' && (c = '\u0130' || c = '\u0131')) ||
    (a = 's' && c = '\u017f') || (a = 'k' && c = '\u212a')

/-- `\w`, given the letters beyond ASCII. -/
def isWord (beyond : Char → Bool) (c : Char) : Bool :=
  c.isAlphanum || c ∈ ['_', '\u0130', '\u0131', '\u017f', '\u212a'] ||
    (128 ≤ c.toNat && !isSpace c && beyond c)

/-- `.` -/
def isDot (c : Char) : Bool := c ≠ '\n'

/-- `[a-b]`. -/
def inRange (a b c : Char) : Bool := a ≤ c && c ≤ b

/-- A text in a pattern. -/
def exactly (s : String) : Pattern Char := .spelled (s.toList.map fun a c => c = a)

/-- A text in a pattern with `(?i)`. -/
def anyCase (s : String) : Pattern Char := .spelled (s.toList.map ignoringCase)

/-- `\s+`. -/
def blanks : Pattern Char := .many1 isSpace

/-- `\s*`. -/
def someBlanks : Pattern Char := .many isSpace

/-- `.*`. -/
def anything : Pattern Char := .many isDot

/-- A letter out of some. -/
def oneOf (cs : List Char) : Pattern Char := .letter (· ∈ cs)

/-! ## Patterns -/

section Patterns

variable (beyond : Char → Bool)

/-- `\bkeyword\b` with `(?i)`. -/
def keyword (s : String) : Pattern Char := .cat [.boundary, anyCase s, .boundary]

/-- `DELETE` and its table, up to the end. -/
def deletePattern : Pattern Char :=
  .cat [.boundary, anyCase "delete", blanks, anyCase "from", blanks, .many1 (isWord beyond),
    someBlanks, .alt (oneOf [';']) .ending]

/-- `UPDATE`, its table and `SET`, up to the end. -/
def updatePattern : Pattern Char :=
  .cat [.boundary, anyCase "update", blanks, .many1 (isWord beyond), blanks, anyCase "set", blanks,
    anything, .alt (oneOf [';']) .ending]

/-- The warning of `deletePattern`. -/
def deleteRisk : String := "Critical: Unconstrained DELETE statement without WHERE clause"

/-- The warning of `updatePattern`. -/
def updateRisk : String := "Critical: Unconstrained UPDATE statement without WHERE clause"

/-- A drive, or the root. -/
def rootPath : Pattern Char :=
  .alt (.cat [.letter fun c => "cdefghijklmnopqrstuvwxyz".toList.any (ignoringCase · c),
    exactly ":\\"]) (exactly "/")

/-- A quote, or none. -/
def optQuote : Pattern Char := .opt (oneOf ['\'', '"'])

/-- `DANGEROUS_PATTERNS`. -/
def dangerousPatterns : ScriptLanguage → List (Pattern Char × String)
  | .powershell =>
    [(keyword "format-volume", "High risk: Volume formatting destroys filesystem data"),
      (.cat [.boundary, anyCase "remove-item", .boundary, anything, anyCase "-recurse", anything,
        .opt (anyCase "-force"), blanks, rootPath],
        "Critical: Recursive deletion of system root drive"),
      (.cat [.boundary, anyCase "set-executionpolicy", .boundary, blanks, anyCase "unrestricted"],
        "Security risk: Disabling execution policies exposes host to untrusted code"),
      (.cat [.boundary, anyCase "stop-computer", .opt (anyCase "t"), .boundary],
        "High risk: Machine shutdown/reboot"),
      (keyword "clear-disk", "Critical risk: Disk partition wipe")]
  | .bash =>
    [(.cat [.boundary, exactly "rm", blanks, exactly "-", oneOf ['r', 'f'], .opt (oneOf ['r', 'f']),
        blanks, .alt (exactly "/") (.alt (exactly "$HOME") (.alt (exactly "*") (exactly "/*")))],
        "Critical: Recursive deletion of root, home, or wildcard paths"),
      (.cat [.boundary, exactly "mkfs", .opt (.seq (exactly ".") (.many1 (isWord beyond))), blanks,
        exactly "/dev/"], "Critical: Formatting raw block devices"),
      (.cat [.boundary, exactly "dd", blanks, exactly "if=", anything, exactly "of=/dev/",
        oneOf ['s', 'v', 'h'], exactly "d", .letter (inRange 'a' 'z')],
        "Critical: Raw disk overwriting with dd"),
      (.cat [exactly ":()", someBlanks, exactly "\x7b", someBlanks, exactly ":", someBlanks,
        exactly "|", someBlanks, exactly ":", someBlanks, exactly "&", someBlanks, exactly "\x7d",
        someBlanks, exactly ";", someBlanks, exactly ":"], "Critical: Fork bomb pattern"),
      (.cat [.boundary, exactly "chmod", blanks, exactly "-R", blanks, exactly "777", blanks,
        exactly "/"], "Security risk: Wide open world-writable root permissions")]
  | .sql =>
    [(.cat [.boundary, anyCase "drop", blanks, .alt (anyCase "database") (anyCase "schema"),
        .boundary], "Critical: Dropping database or schema"),
      (.cat [.boundary, anyCase "drop", blanks, anyCase "table", .boundary],
        "High risk: Dropping database tables"),
      (.cat [.boundary, anyCase "truncate", blanks, anyCase "table", .boundary],
        "High risk: Truncating table contents"),
      (deletePattern beyond, deleteRisk),
      (updatePattern beyond, updateRisk)]
  | .python =>
    [(.cat [.boundary, exactly "os.system(", oneOf ['\'', '"'], exactly "rm", blanks, exactly "-rf"],
        "Critical: Invoking shell recursive deletion via os.system"),
      (.cat [.boundary, exactly "shutil.rmtree(", oneOf ['\'', '"', '/'], exactly ")"],
        "Critical: Deleting root directory via shutil"),
      (.cat [.boundary, exactly "exec", someBlanks, exactly "("],
        "Security risk: Dynamic arbitrary code execution via exec()"),
      (.cat [.boundary, exactly "eval", someBlanks, exactly "("],
        "Security risk: Dynamic expression evaluation via eval()")]
  | .ansible =>
    [(.cat [.boundary, anyCase "state:", someBlanks, anyCase "absent", .boundary, anything,
        anyCase "path:", someBlanks, optQuote,
        .alt (anyCase "/") (.alt (anyCase "/etc") (anyCase "/var")), optQuote],
        "Critical: Deleting critical system paths via file module"),
      (.cat [.boundary, anyCase "command:", someBlanks, anyCase "rm", blanks, anyCase "-rf", blanks,
        anyCase "/"], "Critical: Raw shell deletion command in playbook")]

end Patterns

/-! ## Validation -/

/-- `ScriptValidationResult`. -/
structure ScriptValidationResult where
  isSafe : Bool
  riskScore : ℚ
  detectedRisks : List String
  suggestedModifications : List String
  language : ScriptLanguage

/-- What `ast.parse` and `ast.walk` give: the names that are called, or `e.msg` and `e.lineno`. -/
abbrev Parser := String → Except (String × String) (List String)

/-- A warning that a call adds. -/
def addCall (risks : List String) (name : String) : List String :=
  let msg := "Security warning: Dynamic code execution via '" ++ name ++ "()'"
  if name ∈ ["eval", "exec"] ∧ msg ∉ risks then risks ++ [msg] else risks

/-- What the parser adds to the warnings. -/
def addParsed (parse : Parser) (code : String) (risks : List String) : List String :=
  match parse code with
  | .ok names => names.foldl addCall risks
  | .error (msg, lineno) =>
    risks ++ ["Syntax Error in Python AST validation: " ++ msg ++ " at line " ++ lineno]

/-- `risk_score`. -/
def riskScore (risks : List String) : ℚ :=
  let critical := risks.countP fun r => contains r.toList "Critical" || contains r.toList "High risk"
  if risks = [] then 0 else min 1 (2 / 5 * risks.length + 3 / 10 * critical)

/-- What is suggested where there is a risk. -/
def suggestion : ScriptLanguage → List String
  | .powershell => ["Ensure cmdlets use -WhatIf or -Confirm where modifying system state."]
  | .sql => ["Always include an explicit WHERE clause or use transactional rollback blocks."]
  | .bash => ["Quote all variables (e.g. \"$TARGET_DIR\") to prevent glob expansion hazards."]
  | _ => []

/-- `validate_script_safety`. -/
def validateScriptSafety (beyond : Char → Bool) (parse : Parser) (code : String)
    (language : ScriptLanguage) : ScriptValidationResult :=
  let found := (dangerousPatterns beyond language).filter fun p =>
    p.1.search (isWord beyond) none code.toList
  let warnings := found.map Prod.snd
  let risks := if language = .python ∧ strip code.toList ≠ [] then addParsed parse code warnings
    else warnings
  { isSafe := risks.isEmpty
    riskScore := riskScore risks
    detectedRisks := risks
    suggestedModifications := if risks = [] then [] else suggestion language
    language := language }

end FlowMesh.Scripting
