import FlowMesh.Python.JsonTexts
import FlowMesh.Scripting.Guardrails

/-!
# Generated scripts

`generate_script` (`flowmesh_ai_scripting/engine.py`) writes a script from a template. The template is
chosen by the language, for PowerShell also by words of the prompt; most of them have the prompt
itself in one of their lines (`Template.intent`).
-/

namespace FlowMesh.Scripting

open Python

/-- `ScriptGenerationRequest`. -/
structure ScriptGenerationRequest where
  prompt : String
  language : ScriptLanguage
  parameters : List (String × Data)

/-- `ScriptGenerationResult`. -/
structure ScriptGenerationResult where
  code : String
  language : ScriptLanguage
  explanation : String
  safety : ScriptValidationResult
  parametersSchema : List (String × Data)
  idempotent : Bool

/-! ## Templates -/

/-- The branches of `generate_script`. -/
inductive Branch
  | service
  | storage
  | general
  | bash
  | sql
  | python
  | ansible
  deriving DecidableEq

/-- The branch of a request. -/
def branch (req : ScriptGenerationRequest) : Branch :=
  let promptLower := lower req.prompt
  match req.language with
  | .powershell =>
    if contains promptLower "service" || contains promptLower "restart" then .service
    else if contains promptLower "disk" || contains promptLower "storage" ||
      contains promptLower "metric" then .storage
    else .general
  | .bash => .bash
  | .sql => .sql
  | .python => .python
  | .ansible => .ansible

/-- `code_lines`: the lines in front of the one with the prompt, what stands there in front of it, and
the lines behind it. -/
structure Template where
  front : List String
  intent : Option String
  behind : List String

/-- The lines of a template. -/
def Template.lines (t : Template) (prompt : String) : List String :=
  match t.intent with
  | none => t.front ++ t.behind
  | some intent => t.front ++ (intent ++ prompt) :: t.behind

/-- `"\n".join(lines)`. -/
def joinLines : List String → List Char
  | [] => []
  | [l] => l.toList
  | l :: ls => l.toList ++ '\n' :: joinLines ls

/-- PowerShell, for a service. -/
def serviceTemplate (svc : String) : Template where
  front :=
    ["# FlowMesh AI-Generated PowerShell Script: Service Watchdog & Safe Restart",
     "[CmdletBinding()]",
     "param(",
     "    [string]$ServiceName = '" ++ svc ++ "'",
     ")",
     "$ErrorActionPreference = 'Stop'",
     "try \x7b",
     "    Write-Host \"Checking status of service '$ServiceName'...\"",
     "    $svcObj = Get-Service -Name $ServiceName",
     "    if ($svcObj.Status -ne 'Running') \x7b",
     "        Write-Warning \"Service '$ServiceName' is $($svcObj.Status). Restarting safely...\"",
     "        Restart-Service -Name $ServiceName -Force",
     "        Start-Sleep -Seconds 2",
     "    \x7d",
     "    $final = Get-Service -Name $ServiceName | Select-Object -Property Name, Status, StartType",
     "    $final | ConvertTo-Json -Compress",
     "\x7d catch \x7b",
     "    Write-Error \"Failed to orchestrate service '$ServiceName': $($_.Exception.Message)\"",
     "    exit 1",
     "\x7d"]
  intent := none
  behind := []

/-- PowerShell, for disks. -/
def storageTemplate : Template where
  front :=
    ["# FlowMesh AI-Generated PowerShell Script: System Storage Introspection",
     "[CmdletBinding()]",
     "$ErrorActionPreference = 'Stop'",
     "try \x7b",
     "    $disks = Get-CimInstance Win32_LogicalDisk | Where-Object \x7b $_.DriveType -eq 3 \x7d " ++
       "| ForEach-Object \x7b",
     "        [PSCustomObject]@\x7b",
     "            Drive = $_.DeviceID",
     "            FreeGB = [math]::Round($_.FreeSpace / 1GB, 2)",
     "            TotalGB = [math]::Round($_.Size / 1GB, 2)",
     "            PercentFree = [math]::Round(($_.FreeSpace / $_.Size) * 100, 1)",
     "        \x7d",
     "    \x7d",
     "    $disks | ConvertTo-Json -Compress",
     "\x7d catch \x7b",
     "    Write-Error \"Storage query failed: $($_.Exception.Message)\"",
     "    exit 1",
     "\x7d"]
  intent := none
  behind := []

/-- PowerShell, for anything else. -/
def generalTemplate : Template where
  front :=
    ["# FlowMesh AI-Generated PowerShell Script"]
  intent := some "# Intent: "
  behind :=
    ["[CmdletBinding()]",
     "param([hashtable]$InputParams = @\x7b\x7d)",
     "$ErrorActionPreference = 'Stop'",
     "try \x7b",
     "    Write-Host 'Executing FlowMesh task safely...'",
     "    [PSCustomObject]@\x7b status = 'OK'; timestamp = (Get-Date).ToString('o') \x7d " ++
       "| ConvertTo-Json -Compress",
     "\x7d catch \x7b",
     "    Write-Error \"Execution error: $($_.Exception.Message)\"",
     "    exit 1",
     "\x7d"]

/-- Bash. -/
def bashTemplate : Template where
  front :=
    ["#!/usr/bin/env bash",
     "# FlowMesh AI-Generated Bash Script"]
  intent := some "# Intent: "
  behind :=
    ["set -euo pipefail",
     "IFS=$'\\n\\t'",
     "",
     "log() \x7b echo \"[$(date -u +'%Y-%m-%dT%H:%M:%SZ')] $*\"; \x7d",
     "",
     "log 'Starting task execution...'",
     "TARGET_VAR=\"$\x7b1:-default\x7d\"",
     "log \"Operating on target: $\x7bTARGET_VAR\x7d\"",
     "echo '\x7b\"status\":\"SUCCESS\",\"code\":0\x7d'"]

/-- SQL. -/
def sqlTemplate : Template where
  front :=
    ["-- FlowMesh AI-Generated SQL Transformation"]
  intent := some "-- Intent: "
  behind :=
    ["BEGIN TRANSACTION;",
     "",
     "SELECT ",
     "    o.id AS order_id,",
     "    o.customer_id,",
     "    o.amount,",
     "    o.status,",
     "    COALESCE(c.tier, 'Standard') AS customer_tier",
     "FROM orders o",
     "LEFT JOIN customers c ON o.customer_id = c.id",
     "WHERE o.created_at >= NOW() - INTERVAL '30 days'",
     "ORDER BY o.amount DESC;",
     "",
     "COMMIT;"]

/-- Python, with the parameters as JSON. -/
def pythonTemplate (json : String) : Template where
  front :=
    ["\"\"\"",
     "FlowMesh AI-Generated Python Task"]
  intent := some "Intent: "
  behind :=
    ["\"\"\"",
     "import sys",
     "import json",
     "from datetime import datetime, timezone",
     "",
     "def execute_task(params: dict) -> dict:",
     "    \"\"\"Safe execution function with parameter validation.\"\"\"",
     "    data = params.get(\"payload\", [])",
     "    cleaned = [x for x in data if x is not None]",
     "    return \x7b",
     "        \"status\": \"SUCCESS\",",
     "        \"records_processed\": len(cleaned),",
     "        \"executed_at\": datetime.now(timezone.utc).isoformat(),",
     "    \x7d",
     "",
     "if __name__ == \"__main__\":",
     "    try:",
     "        result = execute_task(" ++ json ++ ")",
     "        print(json.dumps(result))",
     "    except Exception as exc:",
     "        print(json.dumps(\x7b\"status\": \"ERROR\", \"error\": str(exc)\x7d), file=sys.stderr)",
     "        sys.exit(1)"]

/-- Ansible. -/
def ansibleTemplate : Template where
  front :=
    ["---",
     "# FlowMesh AI-Generated Ansible Playbook"]
  intent := some "# Intent: "
  behind :=
    ["- name: Orchestrate Enterprise Systems",
     "  hosts: all",
     "  gather_facts: yes",
     "  tasks:",
     "    - name: Verify Host Reachability",
     "      ansible.builtin.ping:",
     "",
     "    - name: Ensure Target Service is Running",
     "      ansible.builtin.service:",
     "        name: '\x7b\x7b target_service | default(\"sshd\") \x7d\x7d'",
     "        state: started",
     "        enabled: yes",
     "      when: ansible_os_family == 'RedHat' or ansible_os_family == 'Debian'"]

section Requests

variable (format : Data → String) (parameters : List (String × Data))

/-- `req.parameters.get("service_name", "Spooler")`, as an f-string writes it. -/
def serviceName : String :=
  format (((parameters.find? (·.1 = "service_name")).map Prod.snd).getD (.str "Spooler"))

/-- The template of a branch; `json.dumps` can fail. -/
def template : Branch → Except PyError Template
  | .service => .ok (serviceTemplate (serviceName format parameters))
  | .storage => .ok storageTemplate
  | .general => .ok generalTemplate
  | .bash => .ok bashTemplate
  | .sql => .ok sqlTemplate
  | .python => (jsonDumps Spelling.ascii (.dict parameters)).map pythonTemplate
  | .ansible => .ok ansibleTemplate

/-- `explanation`. -/
def explanation : Branch → String
  | .service => "Monitors service '" ++ serviceName format parameters ++
    "', ensures running state with structured JSON result output."
  | .storage => "Introspects local fixed drives and outputs structured capacity metrics via CIM."
  | .general => "General-purpose PowerShell task wrapper with structured error handling."
  | .bash =>
    "Bash script with strict error settings (set -euo pipefail) and formatted logging."
  | .sql => "Transactional SQL query with index-friendly date interval filtering and joins."
  | .python =>
    "Pure Python execution module with strict typing, error trapping, and JSON stdio."
  | .ansible => "Idempotent Ansible playbook with OS conditionals and service verification."

variable (beyond : Char → Bool) (parse : Parser)

/-- `generate_script`. -/
def generateScript (req : ScriptGenerationRequest) : Except PyError ScriptGenerationResult := do
  let t ← template format req.parameters (branch req)
  let code := String.ofList (joinLines (t.lines req.prompt))
  return { code := code
           language := req.language
           explanation := explanation format req.parameters (branch req)
           safety := validateScriptSafety beyond parse code req.language
           parametersSchema := req.parameters
           idempotent := true }

end Requests

end FlowMesh.Scripting
