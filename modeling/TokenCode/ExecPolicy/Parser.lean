/-
Rules files and how a session loads them (`execpolicy/src/parser.rs`, `core/src/exec_policy.rs`).

A rules file is a Starlark program that calls the builtins `prefix_rule`, `network_rule` and
`host_executable`. What the Starlark evaluator makes of a text, and how a shell splits an example,
is the parameter `Starlark`; the builtins are modelled: each checks its arguments and then adds to
the policy. The examples of a file are checked when the whole file has been read.

A session reads the rules files of its layers in order and overlays the rules that the managed
requirements set. If a file does not parse, it goes on with the empty policy.
-/
import TokenCode.ExecPolicy.Policy

namespace TokenCode.ExecPolicy

open Permissions (AbsolutePathBuf Host absolutizeFrom resolvePathAgainstBase)

/-! ### Calls of the builtins -/

/-- A Starlark value, as far as the builtins look at it; `getType` names the type of the others. -/
inductive Value where
  | str (text : Text)
  | list (items : List Value)
  | other (type : Text)

namespace Value

def getType : Value → Text
  | str _ => "string".toList
  | list _ => "list".toList
  | other type => type

end Value

inductive Call where
  | prefixRule (pattern : List Value) (decision : Option Text) (examples : Option (List Value))
      (counterexamples : Option (List Value)) (justification : Option Text)
  | networkRule (host protocol decision : Text) (justification : Option Text)
  | hostExecutable (name : Text) (paths : List Value)

/-- What the parser takes from other libraries. -/
structure Starlark where
  /-- The calls of a program, `none` if the evaluator rejects it. -/
  evaluate : Text → Option (List Call)
  /-- `shlex::split`. -/
  split : Text → Option (List Text)

inductive Error where
  | invalidDecision (raw : Text)
  | invalidPattern (message : Text)
  | invalidExample (message : Text)
  | invalidRule (message : Text)
  | exampleDidNotMatch (rules : List PrefixRule) (examples : List (List Text))
  | exampleDidMatch (rule : RuleMatch) (example_ : List Text)
  | starlark
deriving DecidableEq, Repr

def Decision.parse (raw : Text) : Except Error Decision :=
  if raw = "allow".toList then .ok .allow
  else if raw = "prompt".toList then .ok .prompt
  else if raw = "forbidden".toList then .ok .forbidden
  else .error (.invalidDecision raw)

/-- `parse_network_rule_decision`. -/
def parseNetworkRuleDecision (raw : Text) : Except Error Decision :=
  if raw = "deny".toList then .ok .forbidden else Decision.parse raw

/-- The justification of a rule, which may not be blank. -/
def parseJustification (justification : Option Text) : Except Error (Option Text) :=
  match justification with
  | some raw =>
    if Text.trim raw = [] then .error (.invalidRule "justification cannot be empty".toList)
    else .ok (some raw)
  | none => .ok none

/-- The words of a list, with the error for one that is not a string. -/
def unpackStrings (message : Text) (error : Text → Error) (items : List Value) :
    Except Error (List Text) :=
  items.mapM fun item =>
    match item with
    | .str text => .ok text
    | value => .error (error (message ++ value.getType ++ ")".toList))

def parsePatternToken : Value → Except Error PatternToken
  | .str text => .ok (.single text)
  | .list items => do
    let tokens ← unpackStrings "pattern alternative must be a string (got ".toList
      .invalidPattern items
    match tokens with
    | [] => .error (.invalidPattern "pattern alternatives cannot be empty".toList)
    | [single] => .ok (.single single)
    | _ => .ok (.alts tokens)
  | .other type =>
    .error (.invalidPattern
      ("pattern element must be a string or list of strings (got ".toList ++ type ++ ")".toList))

def parsePattern (pattern : List Value) : Except Error (List PatternToken) := do
  let tokens ← pattern.mapM parsePatternToken
  if tokens = [] then .error (.invalidPattern "pattern cannot be empty".toList) else .ok tokens

def parseExample (starlark : Starlark) : Value → Except Error (List Text)
  | .str raw =>
    match starlark.split raw with
    | none => .error (.invalidExample "example string has invalid shell syntax".toList)
    | some [] => .error (.invalidExample "example cannot be an empty string".toList)
    | some tokens => .ok tokens
  | .list items => do
    let tokens ← unpackStrings "example tokens must be strings (got ".toList .invalidExample items
    if tokens = [] then .error (.invalidExample "example cannot be an empty list".toList)
    else .ok tokens
  | .other type =>
    .error (.invalidExample
      ("example must be a string or list of strings (got ".toList ++ type ++ ")".toList))

/-- `examples.map(parse_examples).transpose()?.unwrap_or_default()`. -/
def parseExamples (starlark : Starlark) (examples : Option (List Value)) :
    Except Error (List (List Text)) :=
  (examples.getD []).mapM (parseExample starlark)

/-! ### The builtins -/

inductive NetworkRuleProtocol where
  | http
  | https
  | socks5Tcp
  | socks5Udp
deriving DecidableEq, Repr

def NetworkRuleProtocol.parse (raw : Text) : Except Error NetworkRuleProtocol :=
  if raw = "http".toList then .ok .http
  else if raw ∈ ["https".toList, "https_connect".toList, "http-connect".toList] then .ok .https
  else if raw = "socks5_tcp".toList then .ok .socks5Tcp
  else if raw = "socks5_udp".toList then .ok .socks5Udp
  else .error (.invalidRule
    ("network_rule protocol must be one of http, https, socks5_tcp, socks5_udp (got ".toList
      ++ raw ++ ")".toList))

def isPort (port : Text) : Bool := !port.isEmpty && port.all Char.isDigit

/-- The host without brackets and port, in `normalize_network_rule_host`. -/
def stripNetworkRulePort (raw host : Text) : Except Error Text :=
  match host with
  | '[' :: stripped =>
    if ']' ∈ stripped then
      let rest := (stripped.dropWhile (· ≠ ']')).tail
      if rest = [] ∨ (rest.head? = some ':' ∧ isPort rest.tail) then
        .ok (stripped.takeWhile (· ≠ ']'))
      else
        .error (.invalidRule ("network_rule host contains an unsupported suffix: ".toList ++ raw))
    else .error (.invalidRule "network_rule host has an invalid bracketed IPv6 literal".toList)
  | _ =>
    let candidate := host.takeWhile (· ≠ ':')
    if host.count ':' = 1 ∧ candidate ≠ [] ∧ isPort (host.dropWhile (· ≠ ':')).tail then
      .ok candidate
    else .ok host

def normalizeNetworkRuleHost (raw : Text) : Except Error Text := do
  let host := Text.trim raw
  if host = [] then
    .error (.invalidRule "network_rule host cannot be empty".toList)
  else if "://".toList <:+: host ∨ '/' ∈ host ∨ '?' ∈ host ∨ '#' ∈ host then
    .error (.invalidRule
      "network_rule host must be a hostname or IP literal (without scheme or path)".toList)
  else
    let stripped ← stripNetworkRulePort raw host
    let normalized := (Text.trim (stripped.rdropWhile (· == '.'))).map Char.toLower
    if normalized = [] then
      .error (.invalidRule "network_rule host cannot be empty".toList)
    else if '*' ∈ normalized then
      .error (.invalidRule
        "network_rule host must be a specific host; wildcards are not allowed".toList)
    else if normalized.any Text.isWhitespace then
      .error (.invalidRule "network_rule host cannot contain whitespace".toList)
    else .ok normalized

/-- `validate_host_executable_name`: the name is one component of a path and not more. -/
def validateHostExecutableName (name : Text) : Except Error Unit :=
  if name = [] then .error (.invalidRule "host_executable name cannot be empty".toList)
  else if '/' ∈ name ∨ name = ".".toList ∨ name = "..".toList then
    .error (.invalidRule
      ("host_executable name must be a bare executable name (got ".toList ++ name ++ ")".toList))
  else .ok ()

structure PendingExampleValidation where
  rules : List PrefixRule
  positives : List (List Text)
  negatives : List (List Text)
deriving DecidableEq, Repr

/-- What a call adds to the policy that is being built. -/
inductive Addition where
  | rules (validation : PendingExampleValidation)
  | networkRule
  | hostExecutable (name : Text) (paths : List AbsolutePathBuf)
deriving DecidableEq, Repr

/-- `prefix_rule`: one rule for each alternative of the first token. -/
def prefixRule (starlark : Starlark) (pattern : List Value) (decision : Option Text)
    (examples counterexamples : Option (List Value)) (justification : Option Text) :
    Except Error Addition := do
  let decision ← match decision with
    | some raw => Decision.parse raw
    | none => .ok .allow
  let justification ← parseJustification justification
  let patternTokens ← parsePattern pattern
  let positives ← parseExamples starlark examples
  let negatives ← parseExamples starlark counterexamples
  match patternTokens with
  | [] => .error (.invalidPattern "pattern cannot be empty".toList)
  | firstToken :: rest =>
    let rules := firstToken.alternatives.map fun first => ⟨⟨first, rest⟩, decision, justification⟩
    .ok (.rules ⟨rules, positives, negatives⟩)

/-- `network_rule`; of the rule itself nothing that is modelled here depends. -/
def networkRule (host protocol decision : Text) (justification : Option Text) :
    Except Error Addition := do
  let _ ← NetworkRuleProtocol.parse protocol
  let _ ← parseNetworkRuleDecision decision
  let _ ← parseJustification justification
  let _ ← normalizeNetworkRuleHost host
  .ok .networkRule

/-- One path of `host_executable`: it is absolute and its base name is the declared one. -/
def parseHostExecutablePath (name : Text) (parsedPaths : List AbsolutePathBuf) :
    Value → Except Error (List AbsolutePathBuf)
  | .str raw =>
    let path := absolutizeFrom raw []
    if raw.head? ≠ some '/' then
      .error (.invalidRule
        ("host_executable paths must be absolute (got ".toList ++ raw ++ ")".toList))
    else if executablePathLookupKey path ≠ some name then
      .error (.invalidRule ("host_executable path `".toList ++ raw ++
        "` must have basename `".toList ++ name ++ "`".toList))
    else if parsedPaths.any (· == path) then .ok parsedPaths
    else .ok (parsedPaths ++ [path])
  | value =>
    .error (.invalidRule
      ("host_executable paths must be strings (got ".toList ++ value.getType ++ ")".toList))

def hostExecutable (name : Text) (paths : List Value) : Except Error Addition := do
  validateHostExecutableName name
  let parsedPaths ← paths.foldlM (parseHostExecutablePath name) []
  .ok (.hostExecutable name parsedPaths)

def Call.run (starlark : Starlark) : Call → Except Error Addition
  | .prefixRule pattern decision examples counterexamples justification =>
    ExecPolicy.prefixRule starlark pattern decision examples counterexamples justification
  | .networkRule host protocol decision justification =>
    ExecPolicy.networkRule host protocol decision justification
  | .hostExecutable name paths => ExecPolicy.hostExecutable name paths

/-! ### The policy builder -/

structure PolicyBuilder where
  rulesByProgram : List PrefixRule
  hostExecutablesByName : AList fun _ : Text => List AbsolutePathBuf
  pendingExampleValidations : List PendingExampleValidation

namespace PolicyBuilder

def new : PolicyBuilder := ⟨[], ∅, []⟩

def add (builder : PolicyBuilder) : Addition → PolicyBuilder
  | .rules validation =>
    { builder with
      pendingExampleValidations := builder.pendingExampleValidations ++ [validation]
      rulesByProgram := builder.rulesByProgram ++ validation.rules }
  | .networkRule => builder
  | .hostExecutable name paths =>
    { builder with hostExecutablesByName := builder.hostExecutablesByName.insert name paths }

def build (builder : PolicyBuilder) : Policy :=
  ⟨builder.rulesByProgram, builder.hostExecutablesByName⟩

end PolicyBuilder

section

variable (host : Host) (cwd : AbsolutePathBuf)

/-- `validate_not_match_examples`. -/
def validateNotMatchExamples (policy : Policy) (negatives : List (List Text)) : Except Error Unit :=
  negatives.forM fun example_ =>
    match policy.matchesForCommandWithOptions host cwd example_ none ⟨true⟩ with
    | [] => .ok ()
    | rule :: _ => .error (.exampleDidMatch rule example_)

/-- `validate_match_examples`. -/
def validateMatchExamples (policy : Policy) (rules : List PrefixRule)
    (positives : List (List Text)) : Except Error Unit :=
  let unmatchedExamples := positives.filter fun example_ =>
    (policy.matchesForCommandWithOptions host cwd example_ none ⟨true⟩).isEmpty
  if unmatchedExamples.isEmpty then .ok () else .error (.exampleDidNotMatch rules unmatchedExamples)

/-- `validate_pending_examples_from`: each call's examples against its own rules. -/
def validatePendingExamples (hostExecutablesByName : AList fun _ : Text => List AbsolutePathBuf)
    (validations : List PendingExampleValidation) : Except Error Unit :=
  validations.forM fun validation => do
    let policy : Policy := ⟨validation.rules, hostExecutablesByName⟩
    validateNotMatchExamples host cwd policy validation.negatives
    validateMatchExamples host cwd policy validation.rules validation.positives

/-- `PolicyParser::parse`. -/
def PolicyBuilder.parse (starlark : Starlark) (builder : PolicyBuilder) (contents : Text) :
    Except Error PolicyBuilder := do
  let calls ← match starlark.evaluate contents with
    | some calls => .ok calls
    | none => .error .starlark
  let additions ← calls.mapM (Call.run starlark)
  let parsed := additions.foldl PolicyBuilder.add builder
  validatePendingExamples host cwd parsed.hostExecutablesByName
    (parsed.pendingExampleValidations.drop builder.pendingExampleValidations.length)
  .ok parsed

/-! ### Loading the policy of a session -/

inductive ConfigLayerSource where
  | user
  | project
  | other
deriving DecidableEq, Repr

structure RulesFile where
  path : Text
  contents : Text
deriving DecidableEq, Repr

/-- An enabled layer of the configuration with the files that `collect_policy_files` finds. -/
structure ConfigLayer where
  name : ConfigLayerSource
  files : List RulesFile
deriving DecidableEq, Repr

/-- The layers, the one with the lowest precedence first. -/
structure ConfigLayerStack where
  layers : List ConfigLayer
  ignoreUserAndProjectExecPolicyRules : Bool
  requirements : Option Policy
deriving DecidableEq

/-- `ExecPolicyError::ParsePolicy`; errors of reading end the session's start. -/
structure ParsePolicyError where
  path : Text
  source : Error
deriving DecidableEq, Repr

/-- Whether the rules of a layer are left out. -/
def ConfigLayerSource.skipped (ignoreRules : Bool) (name : ConfigLayerSource) : Bool :=
  ignoreRules && (name == .user || name == .project)

def ConfigLayerStack.policyFiles (configStack : ConfigLayerStack) : List RulesFile :=
  (configStack.layers.filter fun layer =>
    !layer.name.skipped configStack.ignoreUserAndProjectExecPolicyRules).flatMap ConfigLayer.files

/-- The loop over the files in `load_exec_policy`. -/
def parseFiles (starlark : Starlark) (files : List RulesFile) (builder : PolicyBuilder) :
    Except ParsePolicyError PolicyBuilder :=
  files.foldlM (fun builder file =>
    (builder.parse host cwd starlark file.contents).mapError fun source => ⟨file.path, source⟩)
    builder

/-- The policy of the rules files alone. -/
def parsedPolicy (starlark : Starlark) (configStack : ConfigLayerStack) :
    Except ParsePolicyError Policy :=
  (parseFiles host cwd starlark configStack.policyFiles .new).map PolicyBuilder.build

/-- The overlay of the requirements. -/
def ConfigLayerStack.overlay (configStack : ConfigLayerStack) (policy : Policy) : Policy :=
  match configStack.requirements with
  | none => policy
  | some requirementsPolicy => policy.mergeOverlay requirementsPolicy

def loadExecPolicy (starlark : Starlark) (configStack : ConfigLayerStack) :
    Except ParsePolicyError Policy :=
  (parsedPolicy host cwd starlark configStack).map configStack.overlay

def loadExecPolicyWithWarning (starlark : Starlark) (configStack : ConfigLayerStack) :
    Policy × Option ParsePolicyError :=
  match loadExecPolicy host cwd starlark configStack with
  | .ok policy => (policy, none)
  | .error err => (.empty, some err)

end

end TokenCode.ExecPolicy
