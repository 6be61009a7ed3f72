import FlowMesh.Agent.Policy
import FlowMesh.Commands.Signing

/-!
# What the edge agent executes

`ProcessCommand` of the edge agent: the signature check, the policy check, and the two kinds of
effects behind them, an HTTP request or a process. The effects are returned beside the result, so
that a statement can be about what was done to the outside world. `main` and `Enroll` say with
which configuration the daemon starts.

What the outside world answers is a parameter (`Outside`), as are the cryptographic primitives
(`Crypto`). `effects_cases` sums up the code: an effect comes from the payload of a command that
passed both checks; the signature check is skipped where no public key is configured.

* The daemon executes only what is signed and allowed exactly if it starts with a public key
  (`authorised_iff`).
* Method, URL and program come from the payload, which the policy does not look at; so the policy
  bounds the effects exactly if it allows none (`bounded_iff`).
-/

namespace Go

/-- `unicode.IsSpace`. -/
def isSpace (c : Char) : Bool :=
  let n := c.toNat
  (9 ≤ n ∧ n ≤ 13) ∨ n = 32 ∨ n = 0x85 ∨ n = 0xa0 ∨ n = 0x1680 ∨
    (0x2000 ≤ n ∧ n ≤ 0x200a) ∨ n = 0x2028 ∨ n = 0x2029 ∨ n = 0x202f ∨ n = 0x205f ∨ n = 0x3000

/-- `strings.Fields` on runes, with the word that is being read. -/
def fieldsFrom : List Char → List Char → List String
  | word, [] => if word = [] then [] else [String.ofList word]
  | word, c :: cs =>
    if isSpace c then
      if word = [] then fieldsFrom [] cs else String.ofList word :: fieldsFrom [] cs
    else fieldsFrom (word ++ [c]) cs

/-- `strings.Fields`. -/
def fields (s : String) : List String := fieldsFrom [] s.toList

/-- An `int` in JSON. -/
def Value.int (n : ℤ) : Value := .number ⟨n, toString n⟩

end Go

namespace FlowMesh

/-! ## `crypto.go` -/

/-- The primitives of the agent's signature check: base64, and Ed25519 on raw bytes. -/
structure Crypto where
  decode64 : String → Option (List UInt8)
  ed25519Verify : List UInt8 → String → List UInt8 → Bool
  decode64_empty : decode64 "" = some []

/-- `VerifySignature`; an error counts as a rejection. -/
def Crypto.verifySignature (c : Crypto) (publicKeyB64 data signatureB64 : String) : Bool :=
  match c.decode64 publicKeyB64, c.decode64 signatureB64 with
  | some publicKey, some signature =>
    publicKey.length = 32 && signature.length = 64 && c.ed25519Verify publicKey data signature
  | _, _ => false

/-- Without a key, nothing verifies. -/
theorem Crypto.verifySignature_empty (c : Crypto) (data signature : String) :
    c.verifySignature "" data signature = false := by
  unfold verifySignature
  rw [c.decode64_empty]
  cases c.decode64 signature <;> rfl

/-! ## `ProcessCommand` -/

/-- The fields of `Config` that the modelled code reads. -/
structure AgentConfig where
  id : String
  tenantId : String
  name : String
  version : String
  controlPlaneUrl : String
  enrollmentToken : String
  controlPlanePublicKey : String

/-- `SignedCommandEnvelope`. -/
structure SignedCommandEnvelope where
  command : Policy.Command
  signature : String

/-- `ExecutionResult`. -/
structure ExecutionResult where
  commandId : String
  status : String
  result : List (String × Go.Value) := []
  error : String := ""
  durationMs : Go.Float64

/-- What the agent does to the outside world. -/
inductive Effect
  | http (method url : String) (headers : List (String × String)) (body : Option String)
  | exec (program : String) (args : List String)

/-- What the outside world answers, the clock, and Go's `%v`. -/
structure Outside where
  unicode : Go.Unicode
  /-- `http.NewRequest` accepts the method and the URL. -/
  newRequest : String → String → Bool
  /-- The status code and the body of the response, or the error of the transport. -/
  send : Effect → Except String (ℤ × String)
  /-- The combined output of a process, and the error of its execution. -/
  run : Effect → String × Option String
  format : Go.Value → String
  elapsedMs : Go.Float64

section Process

variable (out : Outside) (c : Crypto) (cfg : AgentConfig) (rules : Policy.Engine)

/-- The result of a command that was executed. -/
def resultMap (cmd : Policy.Command) : List (String × Go.Value) :=
  [("rows_affected", .int cmd.limit), ("execution_plane", .str "edge_agent"),
    ("agent_id", .str cfg.id), ("connector", .str cmd.connector),
    ("connection_id", .str cmd.connectionId), ("operation", .str cmd.operation),
    ("trace_id", .str cmd.traceId), ("span_id", .str cmd.spanId)]

/-- `if s, ok := cmd.Payload[key].(string); ok && s != ""`. -/
def payloadStr (cmd : Policy.Command) (key : String) : Option String :=
  (Go.Value.lookupStr key (cmd.payload.getD [])).filter (· ≠ "")

/-- The headers of the payload. -/
def payloadHeaders (cmd : Policy.Command) : List (String × String) :=
  match (cmd.payload.getD []).find? (·.1 = "headers") with
  | some (_, .obj headers) => headers.map fun p => (p.1, out.format p.2)
  | _ => []

/-- The method of the request. -/
def payloadMethod (cmd : Policy.Command) : String :=
  ((payloadStr cmd "method").map (Go.toUpper out.unicode)).getD "GET"

/-- The request of the payload. -/
def payloadRequest (cmd : Policy.Command) (targetUrl : String) : Effect :=
  .http (payloadMethod out cmd) targetUrl (payloadHeaders out cmd) (payloadStr cmd "body")

/-- The result of a command whose execution ended well. -/
def completed (cmd : Policy.Command) (extra : List (String × Go.Value)) : ExecutionResult :=
  { commandId := cmd.id
    status := "COMPLETED"
    result := resultMap cfg cmd ++ extra
    durationMs := out.elapsedMs }

/-- The branch of the connectors `http` and `rest`. -/
def executeHttp (cmd : Policy.Command) : ExecutionResult × List Effect :=
  match payloadStr cmd "url" with
  | none => (completed out cfg cmd [], [])
  | some targetUrl =>
    if out.newRequest (payloadMethod out cmd) targetUrl then
      match out.send (payloadRequest out cmd targetUrl) with
      | .error e =>
        ({ commandId := cmd.id, status := "FAILED", error := e, durationMs := out.elapsedMs },
          [payloadRequest out cmd targetUrl])
      | .ok (statusCode, body) =>
        (completed out cfg cmd [("status_code", .int statusCode), ("response_body", .str body)],
          [payloadRequest out cmd targetUrl])
    else (completed out cfg cmd [], [])

/-- The process of a command line: words after the first are its arguments. -/
def commandProcess (commandStr : String) : Effect :=
  match Go.fields commandStr with
  | program :: arg :: args => .exec program (arg :: args)
  | _ => .exec commandStr []

/-- The branch of the connectors `exec` and `shell`. -/
def executeProcess (cmd : Policy.Command) : ExecutionResult × List Effect :=
  match payloadStr cmd "command" with
  | none => (completed out cfg cmd [], [])
  | some commandStr =>
    match out.run (commandProcess commandStr) with
    | (output, some e) =>
      (completed out cfg cmd [("error", .str e), ("exit_code", .int 1), ("output", .str output)],
        [commandProcess commandStr])
    | (output, none) =>
      (completed out cfg cmd [("exit_code", .int 0), ("output", .str output)],
        [commandProcess commandStr])

/-- `ProcessCommand` behind both checks. -/
def executeCommand (cmd : Policy.Command) : ExecutionResult × List Effect :=
  if cmd.connector = "http" ∨ cmd.connector = "rest" then executeHttp out cfg cmd
  else if cmd.connector = "exec" ∨ cmd.connector = "shell" then executeProcess out cfg cmd
  else (completed out cfg cmd [], [])

/-- The signature check; it is skipped where no public key is configured. -/
def signatureAccepted (envelope : SignedCommandEnvelope) : Bool :=
  cfg.controlPlanePublicKey = "" ||
    verifyCommandPayload c.verifySignature cfg.controlPlanePublicKey envelope.command
      envelope.signature

/-- `ProcessCommand`: the result, and what was done to the outside world. -/
def processCommand (envelope : SignedCommandEnvelope) : ExecutionResult × List Effect :=
  let cmd := envelope.command
  if signatureAccepted c cfg envelope = false then
    ({ commandId := cmd.id
       status := "REJECTED_SIGNATURE"
       error := "Cryptographic signature verification failed: " ++
         "command not signed by authorized Control Plane key"
       durationMs := out.elapsedMs }, [])
  else
    match rules.evaluate out.unicode cmd with
    | .error e =>
      ({ commandId := cmd.id
         status := "REJECTED_POLICY"
         error := "Agent policy violation: " ++ e
         durationMs := out.elapsedMs }, [])
    | .ok () => executeCommand out cfg cmd

/-! ### The effects of a command -/

variable {out c cfg rules} {cmd : Policy.Command} {effect : Effect}

theorem mem_executeHttp : effect ∈ (executeHttp out cfg cmd).2 ↔
    ∃ url, payloadStr cmd "url" = some url ∧
      out.newRequest (payloadMethod out cmd) url = true ∧
      effect = payloadRequest out cmd url := by
  unfold executeHttp
  cases payloadStr cmd "url" with
  | none => simp
  | some url =>
    simp only [Option.some.injEq, exists_eq_left']
    by_cases hnew : out.newRequest (payloadMethod out cmd) url = true
    · rw [if_pos hnew]
      cases out.send (payloadRequest out cmd url) <;> simp [hnew]
    · rw [if_neg hnew]
      simp [hnew]

theorem mem_executeProcess : effect ∈ (executeProcess out cfg cmd).2 ↔
    ∃ commandStr, payloadStr cmd "command" = some commandStr ∧
      effect = commandProcess commandStr := by
  unfold executeProcess
  cases payloadStr cmd "command" with
  | none => simp
  | some commandStr =>
    simp only [Option.some.injEq, exists_eq_left']
    rcases out.run (commandProcess commandStr) with ⟨output, e | e⟩ <;> simp

/-- An effect is the request or the process of a command's payload. -/
theorem mem_executeCommand : effect ∈ (executeCommand out cfg cmd).2 ↔
    (cmd.connector = "http" ∨ cmd.connector = "rest") ∧ effect ∈ (executeHttp out cfg cmd).2 ∨
      (cmd.connector = "exec" ∨ cmd.connector = "shell") ∧
        effect ∈ (executeProcess out cfg cmd).2 := by
  unfold executeCommand
  split_ifs with hhttp hexec
  · have hno : ¬ (cmd.connector = "exec" ∨ cmd.connector = "shell") := by
      rcases hhttp with h | h <;> simp [h]
    simp [hhttp, hno]
  · simp [hhttp, hexec]
  · simp [hhttp, hexec]

/-- Effects come from a command that passed both checks. -/
theorem mem_processCommand {envelope : SignedCommandEnvelope} :
    effect ∈ (processCommand out c cfg rules envelope).2 ↔
      signatureAccepted c cfg envelope = true ∧
      rules.evaluate out.unicode envelope.command = .ok () ∧
      effect ∈ (executeCommand out cfg envelope.command).2 := by
  unfold processCommand
  cases hsig : signatureAccepted c cfg envelope with
  | false => simp
  | true =>
    cases heval : rules.evaluate out.unicode envelope.command with
    | error e => simp [heval]
    | ok r => simp [heval]

end Process

/-! ## `main` -/

/-- The flags of the daemon. -/
structure Flags where
  id : String := "agent-prod-01"
  tenant : String := "tenant_acme"
  name : String := "production-01"
  controlPlaneUrl : String := "http://localhost:8000"
  token : String := ""
  pubkey : String := ""

/-- How the enrolment request ends; the body is `none` if it is no JSON object. -/
inductive Enrolment
  | failed
  | answered (status : ℕ) (body : Option (List (String × Go.Value)))

/-- `if s, ok := res[key].(string); ok && s != ""`. -/
def responseStr (key : String) (res : List (String × Go.Value)) : Option String :=
  (Go.Value.lookupStr key res).filter (· ≠ "")

/-- `Enroll`; `none` is an error. -/
def AgentConfig.enroll (cfg : AgentConfig) (enrolment : Enrolment) : Option AgentConfig :=
  if cfg.enrollmentToken = "" then none
  else
    match enrolment with
    | .failed => none
    | .answered status body =>
      if status ≠ 200 ∧ status ≠ 201 then none
      else body.map fun res =>
        { cfg with
          id := (responseStr "agent_id" res).getD cfg.id
          tenantId := (responseStr "tenant_id" res).getD cfg.tenantId
          controlPlanePublicKey :=
            (responseStr "control_plane_public_key" res).getD cfg.controlPlanePublicKey }

/-- The configuration of the flags. -/
def Flags.config (flags : Flags) : AgentConfig where
  id := flags.id
  tenantId := flags.tenant
  name := flags.name
  version := "v0.5.0"
  controlPlaneUrl := flags.controlPlaneUrl
  enrollmentToken := flags.token
  controlPlanePublicKey := flags.pubkey

/-- The configuration with which `main` starts the agent: a failed enrolment leaves the local
one. -/
def Flags.daemon (flags : Flags) (enrolment : Enrolment) : AgentConfig :=
  if flags.token ≠ "" then (flags.config.enroll enrolment).getD flags.config else flags.config

/-- The rules that `main` adds. -/
def daemonRules : Policy.Engine :=
  (Policy.newEngine.addRule "postgres" "orders-db"
    ⟨["read", "query"], ["orders", "customers", "order_items"], 500⟩).addRule "rest"
    "warehouse-api" ⟨["GET", "POST"], ["/shipments", "/inventory", "/shipments/*"], 100⟩

/-! ## Signed and allowed -/

/-- Effects only behind a verified signature and a passed policy. -/
def Authorised (out : Outside) (c : Crypto) (cfg : AgentConfig) (rules : Policy.Engine)
    (envelope : SignedCommandEnvelope) : Prop :=
  (processCommand out c cfg rules envelope).2 ≠ [] →
    verifyCommandPayload c.verifySignature cfg.controlPlanePublicKey envelope.command
      envelope.signature = true ∧
    rules.evaluate out.unicode envelope.command = .ok ()

/-- The enrolment was accepted, and its response names a public key. -/
def Enrolment.PublishesKey : Enrolment → Prop
  | .failed => False
  | .answered status body =>
    (status = 200 ∨ status = 201) ∧
      ∃ res, body = some res ∧ (responseStr "control_plane_public_key" res).isSome

/-- With a public key, the signature check is made. -/
theorem authorised_of_key {out : Outside} {c : Crypto} {cfg : AgentConfig} {rules : Policy.Engine}
    (hkey : cfg.controlPlanePublicKey ≠ "") (envelope : SignedCommandEnvelope) :
    Authorised out c cfg rules envelope := by
  intro heffects
  obtain ⟨effect, heffect⟩ := List.exists_mem_of_ne_nil _ heffects
  obtain ⟨hsig, heval, -⟩ := mem_processCommand.1 heffect
  exact ⟨by simpa [signatureAccepted, hkey] using hsig, heval⟩

theorem responseStr_ne_empty {key s : String} {res : List (String × Go.Value)}
    (h : responseStr key res = some s) : s ≠ "" := by
  simpa using (Option.filter_eq_some_iff.1 h).2

/-- When the daemon starts with a public key. -/
theorem daemon_key (flags : Flags) (enrolment : Enrolment) :
    (flags.daemon enrolment).controlPlanePublicKey ≠ "" ↔
      flags.pubkey ≠ "" ∨ flags.token ≠ "" ∧ enrolment.PublishesKey := by
  unfold Flags.daemon
  by_cases htoken : flags.token = ""
  · simp [htoken, Flags.config]
  · rw [if_pos htoken]
    cases enrolment with
    | failed => simp [AgentConfig.enroll, Flags.config, Enrolment.PublishesKey, htoken]
    | answered status body =>
      by_cases hstatus : status = 200 ∨ status = 201
      · have hok : ¬ (status ≠ 200 ∧ status ≠ 201) := by omega
        cases body with
        | none => simp [AgentConfig.enroll, Flags.config, Enrolment.PublishesKey]
        | some res =>
          cases hkey : responseStr "control_plane_public_key" res with
          | none =>
            simp [AgentConfig.enroll, Flags.config, Enrolment.PublishesKey, htoken, hok, hkey]
          | some key =>
            have hne := responseStr_ne_empty hkey
            simp [AgentConfig.enroll, Flags.config, Enrolment.PublishesKey, htoken, hok, hkey, hne,
              hstatus]
      · have hrejected : status ≠ 200 ∧ status ≠ 201 := by omega
        simp [AgentConfig.enroll, Flags.config, Enrolment.PublishesKey, hrejected]

/-- A request to the warehouse that nobody signed, for a URL of the sender's choice. -/
def unsignedRequest (url : String) : SignedCommandEnvelope where
  command :=
    { id := "cmd-1"
      type := "connector.execute"
      connector := "rest"
      connectionId := "warehouse-api"
      operation := "GET"
      resource := "/shipments"
      limit := 0
      payload := some [("url", .str url)]
      traceId := ""
      spanId := "" }
  signature := ""

/-- An outside world that accepts every request. -/
def reachable : Outside where
  unicode := ⟨Char.toLower, Char.toUpper⟩
  newRequest := fun _ _ => true
  send := fun _ => .ok (200, "")
  run := fun _ => ("", none)
  format := fun _ => ""
  elapsedMs := ⟨0, "0"⟩

theorem evaluate_unsignedRequest (u : Go.Unicode) (url : String) :
    daemonRules.evaluate u (unsignedRequest url).command = .ok () := by
  have hrule : daemonRules (Policy.ruleKey "rest" "warehouse-api") =
      some ⟨["GET", "POST"], ["/shipments", "/inventory", "/shipments/*"], 100⟩ :=
    Policy.Engine.addRule_self ..
  refine Policy.Engine.evaluate_eq_ok.2 ⟨by simp [unsignedRequest], by simp [unsignedRequest], _,
    hrule, Policy.PolicyRule.check_eq_ok.2 ⟨?_, Or.inr (Or.inr ?_), Or.inl ?_⟩⟩
  · simp [Policy.PolicyRule.opAllowed, unsignedRequest]
  · simp [Policy.PolicyRule.resAllowed, unsignedRequest]
  · exact le_rfl

/-- The request is made if the signature is not checked. -/
theorem unsignedRequest_executed (c : Crypto) {cfg : AgentConfig}
    (hkey : cfg.controlPlanePublicKey = "") (url : String) (hurl : url ≠ "") :
    .http "GET" url [] none ∈ (processCommand reachable c cfg daemonRules (unsignedRequest url)).2 := by
  refine mem_processCommand.2 ⟨by simp [signatureAccepted, hkey],
    evaluate_unsignedRequest _ url, ?_⟩
  refine mem_executeCommand.2 (Or.inl ⟨Or.inr rfl, mem_executeHttp.2 ⟨url, ?_, rfl, rfl⟩⟩)
  simp [payloadStr, unsignedRequest, Go.Value.lookupStr, hurl]

/-- **Authenticated and authorised execution**: whatever the flags and however the enrolment
ends, the daemon executes only what is signed and allowed if and only if it was given a public
key, by a flag or by the enrolment. -/
theorem authorised_iff (c : Crypto) (flags : Flags) (enrolment : Enrolment) :
    (∀ out envelope, Authorised out c (flags.daemon enrolment) daemonRules envelope) ↔
      flags.pubkey ≠ "" ∨ flags.token ≠ "" ∧ enrolment.PublishesKey := by
  rw [← daemon_key]
  constructor
  · intro hall hkey
    have hexecuted := unsignedRequest_executed c hkey "http://10.0.0.1/" (by simp)
    have hverified := (hall reachable _ (List.ne_nil_of_mem hexecuted)).1
    rw [hkey, verifyCommandPayload, c.verifySignature_empty] at hverified
    cases hverified
  · exact fun hkey out envelope => authorised_of_key hkey envelope

/-- Primitives with which the signature "signature" verifies under every key. -/
def Crypto.accepting : Crypto where
  decode64 := fun s =>
    some (if s = "" then [] else List.replicate (if s = "signature" then 64 else 32) 0)
  ed25519Verify := fun _ _ _ => true
  decode64_empty := rfl

/-- Started without flags, the daemon executes what nobody signed. -/
theorem not_authorised_default :
    ¬ ∀ (c : Crypto) (flags : Flags) enrolment out envelope,
      Authorised out c (flags.daemon enrolment) daemonRules envelope := by
  intro hall
  have hkey : (({} : Flags).daemon .failed).controlPlanePublicKey = "" := rfl
  have hexecuted := unsignedRequest_executed .accepting hkey "http://10.0.0.1/" (by simp)
  have hverified := (hall .accepting {} .failed reachable _ (List.ne_nil_of_mem hexecuted)).1
  rw [hkey, verifyCommandPayload, Crypto.verifySignature_empty] at hverified
  cases hverified

/-! ## What the policy bounds -/

/-- What an effect is directed at: the method and the URL, or the program. -/
inductive Target
  | url (method url : String)
  | program (program : String)

/-- The target of an effect. -/
def Effect.target : Effect → Target
  | .http method url _ _ => .url method url
  | .exec program _ => .program program

/-- The command without its payload: all that `Evaluate` looks at. -/
def Policy.Command.checked (cmd : Policy.Command) : Policy.Command := { cmd with payload := none }

/-- Signed commands that differ only in their payloads have effects on the same targets. -/
def Bounded (rules : Policy.Engine) : Prop :=
  ∀ (out : Outside) (c : Crypto) (cfg : AgentConfig) (e₁ e₂ : SignedCommandEnvelope),
    verifyCommandPayload c.verifySignature cfg.controlPlanePublicKey e₁.command e₁.signature =
      true →
    verifyCommandPayload c.verifySignature cfg.controlPlanePublicKey e₂.command e₂.signature =
      true →
    e₁.command.checked = e₂.command.checked →
    ∀ x₁ ∈ (processCommand out c cfg rules e₁).2, ∀ x₂ ∈ (processCommand out c cfg rules e₂).2,
      x₁.target = x₂.target

/-- The connectors that have effects. -/
def effectful : List String := ["http", "rest", "exec", "shell"]

/-- No rule for a connector that has effects allows an operation. -/
def AllowsNone (rules : Policy.Engine) : Prop :=
  ∀ connector ∈ effectful, ∀ connectionId rule,
    rules (Policy.ruleKey connector connectionId) = some rule →
      ∀ op ∈ rule.allowedOperations, op = ""

/-- Effects are those of connectors that have effects. -/
theorem connector_of_effect {out : Outside} {cfg : AgentConfig} {cmd : Policy.Command}
    {effect : Effect} (h : effect ∈ (executeCommand out cfg cmd).2) : cmd.connector ∈ effectful := by
  rcases mem_executeCommand.1 h with ⟨hc, -⟩ | ⟨hc, -⟩ <;> rcases hc with hc | hc <;>
    simp [effectful, hc]

/-- Where no operation is allowed, nothing is executed. -/
theorem not_mem_of_allowsNone {out : Outside} {c : Crypto} {cfg : AgentConfig}
    {rules : Policy.Engine} (h : AllowsNone rules) {envelope : SignedCommandEnvelope}
    {effect : Effect} : effect ∉ (processCommand out c cfg rules envelope).2 := by
  intro heffect
  obtain ⟨-, heval, hexec⟩ := mem_processCommand.1 heffect
  obtain ⟨-, hop, rule, hrule, hcheck⟩ := Policy.Engine.evaluate_eq_ok.1 heval
  obtain ⟨op, hmem, hallowed⟩ := List.any_eq_true.1 (Policy.PolicyRule.check_eq_ok.1 hcheck).1
  obtain rfl := h _ (connector_of_effect hexec) _ rule hrule op hmem
  have hfold : Go.equalFold out.unicode "" envelope.command.operation = true := by
    simpa using hallowed
  exact hop (Go.equalFold_empty hfold)

/-- A signed command whose payload names a target. -/
def signedFor (connector connectionId operation target : String) : SignedCommandEnvelope where
  command :=
    { id := "cmd-1"
      type := "connector.execute"
      connector
      connectionId
      operation
      resource := ""
      limit := 0
      payload := some [("url", .str target), ("command", .str target)]
      traceId := ""
      spanId := "" }
  signature := "signature"

/-- An agent with a public key. -/
def keyedConfig : AgentConfig := { ({} : Flags).config with controlPlanePublicKey := "key" }

theorem signedFor_verifies (connector connectionId operation target : String) :
    verifyCommandPayload Crypto.accepting.verifySignature keyedConfig.controlPlanePublicKey
      (signedFor connector connectionId operation target).command
      (signedFor connector connectionId operation target).signature = true := by
  simp [verifyCommandPayload, Crypto.verifySignature, Crypto.accepting, keyedConfig, signedFor]

/-- The target that a connector makes of a word. -/
def targetOf (connector word : String) : Target :=
  if connector = "http" ∨ connector = "rest" then .url "GET" word else .program word

section Executed

variable {rules : Policy.Engine} {connector connectionId op : String} {rule : Policy.PolicyRule}

theorem evaluate_signedFor (hconnector : connector ∈ effectful)
    (hrule : rules (Policy.ruleKey connector connectionId) = some rule)
    (hop : op ∈ rule.allowedOperations) (hne : op ≠ "") (u : Go.Unicode) (target : String) :
    rules.evaluate u (signedFor connector connectionId op target).command = .ok () := by
  have hconnector' : connector ≠ "" := by
    rintro rfl
    simp [effectful] at hconnector
  refine Policy.Engine.evaluate_eq_ok.2 ⟨hconnector', hne, rule, hrule, ?_⟩
  refine Policy.PolicyRule.check_eq_ok.2 ⟨?_, Or.inl rfl, Or.inl le_rfl⟩
  exact List.any_eq_true.2 ⟨op, hop, by simp [signedFor]⟩

/-- The word in the payload becomes the target. -/
theorem signedFor_executed (hconnector : connector ∈ effectful)
    (hrule : rules (Policy.ruleKey connector connectionId) = some rule)
    (hop : op ∈ rule.allowedOperations) (hne : op ≠ "") {word : String} (hword : word ≠ "")
    (hfields : Go.fields word = [word]) :
    ∃ x ∈ (processCommand reachable .accepting keyedConfig rules
      (signedFor connector connectionId op word)).2, x.target = targetOf connector word := by
  have hsig : signatureAccepted .accepting keyedConfig (signedFor connector connectionId op word) =
      true := by
    rw [signatureAccepted, signedFor_verifies, Bool.or_true]
  have heval := evaluate_signedFor hconnector hrule hop hne reachable.unicode word
  have hurl : payloadStr (signedFor connector connectionId op word).command "url" = some word := by
    simp [payloadStr, signedFor, Go.Value.lookupStr, hword]
  have hcommand : payloadStr (signedFor connector connectionId op word).command "command" =
      some word := by
    simp [payloadStr, signedFor, Go.Value.lookupStr, hword]
  by_cases hhttp : connector = "http" ∨ connector = "rest"
  · refine ⟨_, mem_processCommand.2 ⟨hsig, heval, mem_executeCommand.2 (Or.inl ⟨hhttp,
      mem_executeHttp.2 ⟨word, hurl, rfl, rfl⟩⟩)⟩, ?_⟩
    rw [targetOf, if_pos hhttp]
    rfl
  · have hexec : connector = "exec" ∨ connector = "shell" := by
      simp only [effectful, List.mem_cons, List.not_mem_nil, or_false] at hconnector
      tauto
    refine ⟨_, mem_processCommand.2 ⟨hsig, heval, mem_executeCommand.2 (Or.inr ⟨hexec,
      mem_executeProcess.2 ⟨word, hcommand, rfl⟩⟩)⟩, ?_⟩
    rw [targetOf, if_neg hhttp, commandProcess, hfields]
    rfl

theorem targetOf_injective (connector : String) : Function.Injective (targetOf connector) := by
  intro w w' h
  unfold targetOf at h
  split_ifs at h
  · exact (Target.url.inj h).2
  · exact Target.program.inj h

/-- One allowed operation is enough for two targets. -/
theorem not_bounded_of_allowed (hconnector : connector ∈ effectful)
    (hrule : rules (Policy.ruleKey connector connectionId) = some rule)
    (hop : op ∈ rule.allowedOperations) (hne : op ≠ "") : ¬ Bounded rules := by
  intro hbounded
  have hexecuted : ∀ word : String, word ≠ "" → Go.fields word = [word] →
      ∃ x ∈ (processCommand reachable .accepting keyedConfig rules
        (signedFor connector connectionId op word)).2, x.target = targetOf connector word :=
    fun word => signedFor_executed hconnector hrule hop hne
  obtain ⟨x₁, hx₁, ht₁⟩ := hexecuted "http://a/" (by simp) (by decide +kernel)
  obtain ⟨x₂, hx₂, ht₂⟩ := hexecuted "http://b/" (by simp) (by decide +kernel)
  have htarget : x₁.target = x₂.target :=
    hbounded reachable .accepting keyedConfig (signedFor connector connectionId op "http://a/")
      (signedFor connector connectionId op "http://b/") (signedFor_verifies ..)
      (signedFor_verifies ..) rfl x₁ hx₁ x₂ hx₂
  rw [ht₁, ht₂] at htarget
  exact absurd (targetOf_injective connector htarget) (by simp)

end Executed

/-- **The policy bounds the effects exactly if it allows none**: as soon as a rule for a connector
that has effects allows an operation, two signed commands that look the same to the policy have
effects on different targets. -/
theorem bounded_iff (rules : Policy.Engine) : Bounded rules ↔ AllowsNone rules := by
  constructor
  · intro hbounded connector hconnector connectionId rule hrule op hop
    by_contra hne
    exact not_bounded_of_allowed hconnector hrule hop hne hbounded
  · intro hnone out c cfg e₁ e₂ _ _ _ x₁ hx₁
    exact absurd hx₁ (not_mem_of_allowsNone hnone)

/-- With the daemon's own rules, `GET` is allowed on the warehouse, and goes wherever the payload
says. -/
theorem not_bounded_daemonRules : ¬ ∀ rules, Bounded rules := by
  intro hall
  have hrule : daemonRules (Policy.ruleKey "rest" "warehouse-api") =
      some ⟨["GET", "POST"], ["/shipments", "/inventory", "/shipments/*"], 100⟩ :=
    Policy.Engine.addRule_self ..
  have hop : "GET" ∈ ["GET", "POST"] := by simp
  exact not_bounded_of_allowed (by simp [effectful]) hrule hop (by simp) (hall daemonRules)

end FlowMesh
