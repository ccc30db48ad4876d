/-
Amendments of the rules (`append_amendment_and_update` in `core/src/exec_policy.rs`,
`execpolicy/src/amend.rs`).

When the user approves an amendment, a line for it is appended to `default.rules`, and the policy in
memory gets the rule, unless it already allows the words of the amendment. After a restart the
policy is read from the files again. The two policies decide alike exactly if the rules files
parse and the rule is added to both or to none of them, or never decides (`amendment_survives_iff`).
A line that is there already is not appended, even if it stands inside a string.
It can be added to the file only: the policy may allow the words through the base name of the
program, and an exact rule then hides the stricter rules for that base name.
-/
import TokenCode.ExecPolicy.Parser
import TokenCode.Lib.Results

namespace TokenCode.ExecPolicy

open Option hiding or_assoc
open List Permissions Policy

/-! ### The line of an amendment -/

/-- A hexadecimal digit, as serde_json writes it. -/
def hexDigit (n : ℕ) : Char := "0123456789abcdef".toList.getD n '0'

/-- A character in a JSON string. -/
def escapeChar (c : Char) : Text :=
  if c = '"' then ['\\', '"']
  else if c = '\\' then ['\\', '\\']
  else if c = '\x08' then ['\\', 'b']
  else if c = '\t' then ['\\', 't']
  else if c = '\n' then ['\\', 'n']
  else if c = '\x0c' then ['\\', 'f']
  else if c = '\r' then ['\\', 'r']
  else if c.toNat < 0x20 then
    ['\\', 'u', '0', '0', hexDigit (c.toNat / 16), hexDigit (c.toNat % 16)]
  else [c]

/-- `serde_json::to_string` of a string. -/
def toJsonString (text : Text) : Text := ['"'] ++ text.flatMap escapeChar ++ ['"']

/-- The line that `blocking_append_allow_prefix_rule` writes. -/
def allowRuleLine (words : List Text) : Text :=
  "prefix_rule(pattern=[".toList ++ ", ".toList.intercalate (words.map toJsonString)
    ++ "], decision=\"allow\")".toList

/-- `append_locked_line`, on the contents of the file. -/
def appendLockedLine (contents line : Text) : Text :=
  if line ∈ Text.lines contents then contents
  else
    contents ++ (if contents ≠ [] ∧ contents.getLast? ≠ some '\n' then ['\n'] else [])
      ++ line ++ ['\n']

/-- `blocking_append_allow_prefix_rule`; `defaultRules` is `none` if the file does not exist. -/
def blockingAppendAllowPrefixRule (defaultRules : Option Text) (words : List Text) : Option Text :=
  if words = [] then none else some (appendLockedLine (defaultRules.getD []) (allowRuleLine words))

/-! ### The amendment -/

/-- `is_policy_match`. -/
def RuleMatch.isPolicyMatch : RuleMatch → Bool
  | .prefixRuleMatch .. => true
  | .heuristicsRuleMatch .. => false

section

variable (host : Host) (cwd : AbsolutePathBuf)

/-- Whether the policy already allows the words. -/
def Policy.alreadyAllowed (policy : Policy) (words : List Text) : Bool :=
  match policy.checkMultipleWithOptions host cwd [words] (fun _ => .forbidden) ⟨true⟩ with
  | none => false
  | some existingEvaluation =>
    existingEvaluation.decision == .allow &&
      existingEvaluation.matchedRules.any fun ruleMatch =>
        ruleMatch.isPolicyMatch && ruleMatch.decision == .allow

/-- `append_amendment_and_update`: the policy in memory and the contents of `default.rules`. -/
def appendAmendmentAndUpdate (currentPolicy : Policy) (defaultRules : Option Text)
    (words : List Text) : Option (Policy × Text) := do
  let contents ← blockingAppendAllowPrefixRule defaultRules words
  if currentPolicy.alreadyAllowed host cwd words then return (currentPolicy, contents)
  let updatedPolicy ← currentPolicy.addPrefixRule words .allow
  return (updatedPolicy, contents)

end

/-! ### The files on disk -/

/-- A rules file of a layer: `default.rules`, to which amendments are appended, or another one. -/
inductive RulesSource where
  | defaultRules
  | file (rulesFile : RulesFile)
deriving DecidableEq, Repr

/-- The file, if it exists. -/
def RulesSource.files (defaultRules : Option Text) : RulesSource → List RulesFile
  | .defaultRules => defaultRules.toList.map fun contents => ⟨"default.rules".toList, contents⟩
  | .file rulesFile => [rulesFile]

/-- What a session finds apart from the contents of `default.rules`. -/
structure Disk where
  layers : List (ConfigLayerSource × List RulesSource)
  ignoreUserAndProjectExecPolicyRules : Bool
  requirements : Option Policy

variable (disk : Disk)

namespace Disk

def configStack (disk : Disk) (defaultRules : Option Text) : ConfigLayerStack :=
  ⟨disk.layers.map fun layer => ⟨layer.1, layer.2.flatMap (·.files defaultRules)⟩,
    disk.ignoreUserAndProjectExecPolicyRules, disk.requirements⟩

/-- The files that are read, in order. -/
def sources (disk : Disk) : List RulesSource :=
  (disk.layers.filter fun layer =>
    !layer.1.skipped disk.ignoreUserAndProjectExecPolicyRules).flatMap Prod.snd

lemma policyFiles_configStack (defaultRules : Option Text) :
    (disk.configStack defaultRules).policyFiles = disk.sources.flatMap (·.files defaultRules) := by
  simp only [ConfigLayerStack.policyFiles, configStack, sources, List.filter_map,
    flatMap_map, flatMap_assoc]
  rfl

end Disk

/-! ### The rule of an amendment -/

/-- The rule that an amendment adds. -/
def allowRule (words : List Text) : PrefixRule :=
  ⟨⟨words.headD [], words.tail.map .single⟩, .allow, none⟩

/-- The call that the line of an amendment encodes. -/
def allowCall (words : List Text) : Call :=
  .prefixRule (words.map .str) (some "allow".toList) none none none

/-- The parser reads the line of an amendment as the rule that it encodes: where the line is
appended it adds this call. -/
def ReadsBack (starlark : Starlark) (defaultRules : Option Text) (words : List Text) : Prop :=
  allowRuleLine words ∉ Text.lines (defaultRules.getD []) →
    starlark.evaluate (appendLockedLine (defaultRules.getD []) (allowRuleLine words)) =
      (defaultRules.elim (some []) starlark.evaluate).map (· ++ [allowCall words])

/-- The line is appended to `default.rules`, or the file makes its call already. -/
def MakesCall (starlark : Starlark) (defaultRules : Option Text) (words : List Text) : Prop :=
  allowRuleLine words ∉ Text.lines (defaultRules.getD []) ∨
    ∃ calls, starlark.evaluate (defaultRules.getD []) = some calls ∧ allowCall words ∈ calls

variable {words : List Text}

namespace Policy

/-- The policy with one more rule. -/
def withRule (policy : Policy) (rule : PrefixRule) : Policy :=
  { policy with rulesByProgram := policy.rulesByProgram ++ [rule] }

lemma addPrefixRule_eq (policy : Policy) (h : words ≠ []) :
    policy.addPrefixRule words .allow = some (policy.withRule (allowRule words)) := by
  cases words with
  | nil => exact absurd rfl h
  | cons first rest => rfl

end Policy

lemma run_allowCall (starlark : Starlark) (h : words ≠ []) :
    (allowCall words).run starlark = .ok (.rules ⟨[allowRule words], [], []⟩) := by
  have htokens : ∀ texts : List Text, (texts.map Value.str).mapM parsePatternToken =
      .ok (texts.map PatternToken.single) := by
    intro texts
    induction texts with
    | nil => rfl
    | cons text rest ih =>
      simp only [map_cons, mapM_cons, ih]
      rfl
  cases words with
  | nil => exact absurd rfl h
  | cons first rest =>
    simp only [allowCall, Call.run, prefixRule, parsePattern, htokens]
    rfl

/-! ### Reading the files with and without the rule -/

/-- The second builder has the rule more, where `added` holds. -/
structure Extends (rule : PrefixRule) (added : Prop) (builder extended : PolicyBuilder) :
    Prop where
  hosts : extended.hostExecutablesByName = builder.hostExecutablesByName
  rules : ∀ other, other ∈ extended.rulesByProgram ↔
    other ∈ builder.rulesByProgram ∨ added ∧ other = rule

/-- The examples that an addition brings. -/
def Addition.validations : Addition → List PendingExampleValidation
  | .rules validation => [validation]
  | .networkRule => []
  | .hostExecutable _ _ => []

variable (additions : List Addition) {defaultRules : Option Text}

section

variable {host : Host} {cwd : AbsolutePathBuf} {starlark : Starlark} {rule : PrefixRule}
  {added : Prop} {builder extended : PolicyBuilder} (h : Extends rule added builder extended)
include h

lemma Extends.add (addition : Addition) :
    Extends rule added (builder.add addition) (extended.add addition) := by
  cases addition with
  | rules validation =>
    refine ⟨h.hosts, fun other => ?_⟩
    simp only [PolicyBuilder.add, mem_append, h.rules]
    exact or_right_comm
  | networkRule => exact h
  | hostExecutable name paths =>
    exact ⟨by simp only [PolicyBuilder.add, h.hosts], h.rules⟩

lemma Extends.foldl_add :
    Extends rule added (additions.foldl .add builder) (additions.foldl .add extended) := by
  induction additions generalizing builder extended with
  | nil => exact h
  | cons addition additions ih => exact ih (h.add addition)

omit h

variable (builder)

open Addition (validations)

lemma foldl_add : (additions.foldl .add builder).pendingExampleValidations =
        builder.pendingExampleValidations ++ additions.flatMap validations ∧
      (additions.foldl .add builder).rulesByProgram = builder.rulesByProgram ++
        (additions.flatMap validations).flatMap PendingExampleValidation.rules := by
  induction additions generalizing builder with
  | nil => simp
  | cons addition additions ih =>
    rw [foldl_cons, (ih _).1, (ih _).2]
    cases addition <;> simp [PolicyBuilder.add, validations]

/-- Reading the calls of a file, with the examples that it brings. -/
def PolicyBuilder.parseCalls (host : Host) (cwd : AbsolutePathBuf) (starlark : Starlark)
    (builder : PolicyBuilder) (calls : List Call) : Except Error PolicyBuilder := do
  let additions ← calls.mapM (Call.run starlark)
  validatePendingExamples host cwd (additions.foldl .add builder).hostExecutablesByName
    (additions.flatMap Addition.validations)
  .ok (additions.foldl .add builder)

/-- The same for what the evaluator makes of a file. -/
def PolicyBuilder.parseEvaluated (host : Host) (cwd : AbsolutePathBuf) (starlark : Starlark)
    (builder : PolicyBuilder) : Option (List Call) → Except Error PolicyBuilder
  | none => .error .starlark
  | some calls => builder.parseCalls host cwd starlark calls

lemma parse_eq (contents : Text) : builder.parse host cwd starlark contents =
      builder.parseEvaluated host cwd starlark (starlark.evaluate contents) := by
  unfold PolicyBuilder.parse PolicyBuilder.parseEvaluated PolicyBuilder.parseCalls
  cases starlark.evaluate contents with
  | none => rfl
  | some calls =>
    simp only [(foldl_add _ _).1, drop_left]
    rfl

variable {builder}

lemma Extends.parseCalls (h : Extends rule added builder extended) (calls : List Call) :
    BothOk (Extends rule added) (builder.parseCalls host cwd starlark calls)
      (extended.parseCalls host cwd starlark calls) := by
  unfold PolicyBuilder.parseCalls
  cases calls.mapM (Call.run starlark) with
  | error err => trivial
  | ok additions =>
    have hfold := h.foldl_add additions
    simp only [bind, Except.bind, hfold.hosts]
    cases validatePendingExamples host cwd _ (additions.flatMap validations) with
    | error err => trivial
    | ok _ => exact hfold

lemma Extends.parse (h : Extends rule added builder extended) (contents : Text) :
    BothOk (Extends rule added) (builder.parse host cwd starlark contents)
      (extended.parse host cwd starlark contents) := by
  simp only [parse_eq]
  cases starlark.evaluate contents with
  | none => trivial
  | some calls => exact h.parseCalls calls

lemma validatePendingExamples_concat (host : Host) (cwd : AbsolutePathBuf)
    (hosts : AList fun _ : Text => List AbsolutePathBuf)
    (validations : List PendingExampleValidation) (rules : List PrefixRule) :
    validatePendingExamples host cwd hosts (validations ++ [⟨rules, [], []⟩]) =
      validatePendingExamples host cwd hosts validations := by
  simp only [validatePendingExamples, List.forM_eq_forM, forM_append]
  cases (forM validations _ : Except Error Unit) <;> rfl

variable (hwords : words ≠ [])
include hwords

/-- A last call that allows some words only adds its rule. -/
lemma parseCalls_concat (builder : PolicyBuilder) (calls : List Call) :
    builder.parseCalls host cwd starlark (calls ++ [allowCall words]) =
      (builder.parseCalls host cwd starlark calls).map
        (·.add (.rules ⟨[allowRule words], [], []⟩)) := by
  unfold PolicyBuilder.parseCalls
  rw [mapM_append]
  cases calls.mapM (Call.run starlark) with
  | error err => rfl
  | ok additions =>
    have hlast : [allowCall words].mapM (Call.run starlark) =
        .ok [.rules ⟨[allowRule words], [], []⟩] := by
      simp only [mapM_cons, mapM_nil, run_allowCall starlark hwords]
      rfl
    simp only [hlast, bind, Except.bind, pure, Except.pure, foldl_append, foldl_cons,
      foldl_nil, flatMap_append, flatMap_cons, flatMap_nil, append_nil,
      validations, validatePendingExamples_concat]
    simp only [PolicyBuilder.add]
    cases validatePendingExamples host cwd _ (additions.flatMap validations) <;> rfl

/-- The rules of a call are among those of the file. -/
lemma mem_rules_of_parseCalls {calls : List Call}
    (hmem : allowCall words ∈ calls) {parsed : PolicyBuilder}
    (h : builder.parseCalls host cwd starlark calls = .ok parsed) :
    allowRule words ∈ parsed.rulesByProgram := by
  unfold PolicyBuilder.parseCalls at h
  cases hadditions : calls.mapM (Call.run starlark) with
  | error err => simp [hadditions, bind, Except.bind] at h
  | ok additions =>
    obtain ⟨addition, haddition, hrun⟩ := exists_mem_of_mapM hadditions hmem
    rw [run_allowCall starlark hwords] at hrun
    obtain rfl := Except.ok.inj hrun
    simp only [hadditions, bind, Except.bind] at h
    cases hvalid : validatePendingExamples host cwd
        (additions.foldl .add builder).hostExecutablesByName
        (additions.flatMap validations) with
    | error err => simp [hvalid] at h
    | ok _ =>
      obtain rfl : additions.foldl .add builder = parsed := by simpa [hvalid] using h
      rw [(foldl_add _ _).2, mem_append, mem_flatMap]
      refine .inr ⟨⟨[allowRule words], [], []⟩, ?_, mem_singleton_self _⟩
      exact mem_flatMap.2 ⟨_, haddition, mem_singleton_self _⟩

/-- A file whose calls end with the call of the amendment, against the file without it. -/
lemma parseEvaluated_append (builder : PolicyBuilder) (calls : Option (List Call)) :
    builder.parseEvaluated host cwd starlark (calls.map (· ++ [allowCall words])) =
      (builder.parseEvaluated host cwd starlark calls).map
        (·.add (.rules ⟨[allowRule words], [], []⟩)) := by
  cases calls with
  | none => rfl
  | some calls => exact parseCalls_concat hwords builder calls

omit hwords

lemma Extends.add_rule (h : Extends rule added builder extended) :
    Extends rule True builder (extended.add (.rules ⟨[rule], [], []⟩)) := by
  refine ⟨h.hosts, fun other => ?_⟩
  simp only [PolicyBuilder.add, mem_append, h.rules, mem_singleton, true_and]
  constructor
  · rintro ((hother | ⟨-, rfl⟩) | rfl)
    exacts [.inl hother, .inr rfl, .inr rfl]
  · rintro (hother | rfl)
    exacts [.inl (.inl hother), .inr rfl]

lemma Extends.of_mem (h : Extends rule added builder extended)
    (hmem : rule ∈ builder.rulesByProgram) : Extends rule True builder extended := by
  refine ⟨h.hosts, fun other => (h.rules other).trans ?_⟩
  constructor
  · rintro (hother | ⟨-, rfl⟩)
    exacts [.inl hother, .inr ⟨trivial, rfl⟩]
  · rintro (hother | ⟨-, rfl⟩)
    exacts [.inl hother, .inl hmem]

variable (host cwd)

/-- One file of the disk, before and after the amendment. -/
lemma Extends.parseFiles_source (hwords : words ≠ []) (hreads : ReadsBack starlark defaultRules words)
    (h : Extends (allowRule words) added builder extended) (source : RulesSource) :
    BothOk (Extends (allowRule words)
        (added ∨ source = .defaultRules ∧ MakesCall starlark defaultRules words))
      (parseFiles host cwd starlark (source.files defaultRules) builder)
      (parseFiles host cwd starlark
        (source.files (some (appendLockedLine (defaultRules.getD []) (allowRuleLine words))))
        extended) := by
  have hsingle : ∀ (file : RulesFile) (start : PolicyBuilder),
      parseFiles host cwd starlark [file] start =
        (start.parse host cwd starlark file.contents).mapError (⟨file.path, ·⟩) := by
    intro file start
    simp [parseFiles]
  cases source with
  | file rulesFile =>
    simp only [RulesSource.files, hsingle, reduceCtorEq, false_and, or_false]
    exact (h.parse rulesFile.contents).mapError _ _
  | defaultRules =>
    simp only [RulesSource.files, toList_some, map_cons, map_nil, hsingle, true_and]
    by_cases hline : allowRuleLine words ∈ Text.lines (defaultRules.getD [])
    · -- The line is there: the file stays as it is, and makes the call or does not.
      have hcontents : appendLockedLine (defaultRules.getD []) (allowRuleLine words) =
          defaultRules.getD [] := if_pos hline
      cases defaultRules with
      | none => exact absurd hline not_mem_nil
      | some contents =>
        simp only [getD_some] at hcontents hline
        simp only [toList_some, map_cons, map_nil, hsingle, getD_some, hcontents]
        refine ((h.parse contents).mono fun parsed _ hparsed hextends => ?_).mapError _ _
        rw [parse_eq] at hparsed
        cases hcalls : starlark.evaluate contents with
        | none => exact nomatch hcalls ▸ hparsed
        | some calls =>
          rw [hcalls] at hparsed
          have hmakes : MakesCall starlark (some contents) words ↔ allowCall words ∈ calls := by
            simp [MakesCall, hline, hcalls]
          by_cases hcall : allowCall words ∈ calls
          · simpa [hmakes, hcall] using
              hextends.of_mem (mem_rules_of_parseCalls hwords hcall hparsed)
          · simpa [hmakes, hcall] using hextends
    · -- The line is appended: the file makes one call more.
      have hmakes : MakesCall starlark defaultRules words := .inl hline
      simp only [hmakes, or_true]
      rw [parse_eq, hreads hline, parseEvaluated_append hwords]
      cases defaultRules with
      | none => exact h.add_rule
      | some contents =>
        simp only [toList_some, map_cons, map_nil, hsingle, elim_some]
        rw [← parse_eq]
        exact ((h.parse contents).map_right fun _ _ hparsed => hparsed.add_rule).mapError _ _

/-- **The files before and after an amendment.**  Either both fail to parse, or the second policy
has the rule more, if `default.rules` is read and makes the call. -/
theorem Extends.parseFiles_sources (hwords : words ≠ []) (hreads : ReadsBack starlark defaultRules words)
    (sources : List RulesSource) (h : Extends (allowRule words) added builder extended) :
    BothOk (Extends (allowRule words)
        (added ∨ .defaultRules ∈ sources ∧ MakesCall starlark defaultRules words))
      (parseFiles host cwd starlark (sources.flatMap (·.files defaultRules)) builder)
      (parseFiles host cwd starlark (sources.flatMap
          (·.files (some (appendLockedLine (defaultRules.getD []) (allowRuleLine words)))))
        extended) := by
  -- By induction on the files, each read with its own step.
  induction sources generalizing added builder extended with
  | nil =>
    have hnone : Extends (allowRule words)
        (added ∨ RulesSource.defaultRules ∈ [] ∧ MakesCall starlark defaultRules words) builder
          extended := by
      simpa using h
    exact hnone
  | cons source sources ih =>
    simp only [flatMap_cons, parseFiles, foldlM_append]
    refine BothOk.bind (h.parseFiles_source host cwd hwords hreads source)
      fun parsed parsed' hparsed => ?_
    have hrest := ih hparsed
    rwa [or_assoc, ← or_and_right, eq_comm, ← mem_cons] at hrest

end

/-! ### What one more rule changes -/

/-- The rule never decides a command: where no exact rule of the policy matches, a command that the
rule matches is allowed anyway, and for the others the rule brings no match through the base name
where there was none. -/
def NeverDecides (host : Host) (cwd : AbsolutePathBuf) (policy : Policy) (rule : PrefixRule) :
    Prop :=
  ∀ cmd, policy.matchExactRules cmd = [] →
    if (rule.matchCommand cmd).isSome then
      strictest (policy.hostMatches host cwd ⟨true⟩ cmd) = some .allow
    else
      policy.hostMatches host cwd ⟨true⟩ cmd = [] →
        (policy.withRule rule).hostMatches host cwd ⟨true⟩ cmd = []

section

variable {host : Host} {cwd : AbsolutePathBuf} {policy : Policy} {rule : PrefixRule}
  {cmd : List Text}

lemma matchExactRules_withRule (policy : Policy) (rule : PrefixRule) (cmd : List Text) :
    (policy.withRule rule).matchExactRules cmd =
      policy.matchExactRules cmd ++ (rule.matchCommand cmd).toList := by
  cases cmd with
  | nil =>
    cases hmatch : rule.matchCommand [] with
    | none => rfl
    | some ruleMatch => exact nomatch PrefixRule.head?_of_matchCommand hmatch
  | cons first args =>
    simp only [matchExactRules, rulesFor, withRule, filter_append, filterMap_append]
    cases hmatch : rule.matchCommand (first :: args) with
    | none =>
      simp only [filter_cons, filter_nil]
      split_ifs <;> simp [hmatch]
    | some ruleMatch =>
      have hfirst := some.inj (PrefixRule.head?_of_matchCommand hmatch)
      simp [← hfirst, hmatch]

section

variable (hallow : rule.decision = .allow)
include hallow

/-- The matches of the rule itself allow. -/
lemma decision_of_mem_toList {command : List Text} :
    ∀ ruleMatch ∈ (rule.matchCommand command).toList, ruleMatch.decision = .allow := by
  intro ruleMatch hmem
  rw [mem_toList] at hmem
  exact (PrefixRule.decision_of_matchCommand hmem).trans hallow

/-- Where there are matches through the base name, one more rule that allows does not count. -/
lemma strictest_hostMatches_withRule (h : policy.hostMatches host cwd ⟨true⟩ cmd ≠ []) :
    strictest ((policy.withRule rule).hostMatches host cwd ⟨true⟩ cmd) =
      strictest (policy.hostMatches host cwd ⟨true⟩ cmd) := by
  simp only [hostMatches, if_true, matchHostExecutableRules_eq] at h ⊢
  cases hresolved : resolvedCommand host cwd cmd with
  | none => rfl
  | some resolved =>
    obtain ⟨program, basename, command⟩ := resolved
    have hadmits : (policy.withRule rule).admits basename program =
        policy.admits basename program := rfl
    simp only [hresolved] at h
    simp only [hadmits]
    split_ifs at h ⊢
    · rw [matchExactRules_withRule, map_append]
      refine strictest_append_allow h fun ruleMatch hmem => ?_
      obtain ⟨inner, hinner, rfl⟩ := List.mem_map.1 hmem
      rw [RuleMatch.decision_withResolvedProgram]
      exact decision_of_mem_toList hallow inner hinner
    · exact absurd rfl h

/-- One more rule that allows leaves every decision as it is exactly if it never decides. -/
theorem ruleDecision_withRule_iff :
    (∀ cmd, (policy.withRule rule).ruleDecision host cwd ⟨true⟩ cmd =
      policy.ruleDecision host cwd ⟨true⟩ cmd) ↔ NeverDecides host cwd policy rule := by
  refine forall_congr' fun cmd => ?_
  have hwith := matchExactRules_withRule policy rule cmd
  by_cases hexact : policy.matchExactRules cmd = []
  · simp only [hexact, forall_const]
    rw [ruleDecision_of_not_exact hexact]
    rw [hexact, nil_append] at hwith
    cases hmatch : rule.matchCommand cmd with
    | some ruleMatch =>
      have hdecision : strictest [ruleMatch] = some .allow := by
        rw [← (PrefixRule.decision_of_matchCommand hmatch).trans hallow]
        rfl
      rw [hmatch, toList_some] at hwith
      rw [ruleDecision_of_exact (by simp [hwith]), hwith, hdecision]
      simp [eq_comm]
    | none =>
      rw [hmatch, toList_none] at hwith
      rw [ruleDecision_of_not_exact hwith]
      by_cases hhost : policy.hostMatches host cwd ⟨true⟩ cmd = []
      · simp [hhost, strictest]
      · simp [hhost, strictest_hostMatches_withRule hallow hhost]
  · -- An exact match of the policy decides at least as strictly.
    refine iff_of_true ?_ fun h => absurd h hexact
    rw [ruleDecision_of_exact (by simp [hwith, hexact]), hwith, ruleDecision_of_exact hexact]
    exact strictest_append_allow hexact (decision_of_mem_toList hallow)

end

end

/-! ### The policy in memory and the policy that is read again -/

variable {policy : Policy} {user updated : Policy} {rule : PrefixRule}

section

variable (host : Host) (cwd : AbsolutePathBuf) (starlark : Starlark)

/-- The policy of a session that starts with these files. -/
def Disk.loadedPolicy (disk : Disk) (defaultRules : Option Text) : Policy :=
  (loadExecPolicyWithWarning host cwd starlark (disk.configStack defaultRules)).1

variable {host cwd starlark}

lemma Disk.loadedPolicy_of_ok {disk : Disk}
    (h : parsedPolicy host cwd starlark (disk.configStack defaultRules) = .ok user) :
    disk.loadedPolicy host cwd starlark defaultRules =
      (disk.configStack defaultRules).overlay user := by
  simp [loadedPolicy, loadExecPolicyWithWarning, loadExecPolicy, h, Except.map]

lemma Disk.loadedPolicy_of_error {disk : Disk} {err : ParsePolicyError}
    (h : parsedPolicy host cwd starlark (disk.configStack defaultRules) = .error err) :
    disk.loadedPolicy host cwd starlark defaultRules = .empty := by
  simp [loadedPolicy, loadExecPolicyWithWarning, loadExecPolicy, h, Except.map]

/-- The matches of rules are matches of the policy, not of the fallback. -/
lemma isPolicyMatch_of_mem {cmd : List Text} {options : MatchOptions} {ruleMatch : RuleMatch}
    (h : ruleMatch ∈ policy.matchedRules host cwd options cmd) :
    ruleMatch.isPolicyMatch = true := by
  have hexact : ∀ command, ∀ found ∈ policy.matchExactRules command,
      found.isPolicyMatch = true := by
    intro command found hfound
    obtain ⟨rule, -, hrule⟩ := mem_matchExactRules.1 hfound
    obtain ⟨matchedPrefix, -, rfl⟩ := map_eq_some_iff.1 hrule
    rfl
  unfold matchedRules hostMatches at h
  rw [matchHostExecutableRules_eq] at h
  split_ifs at h
  · exact hexact cmd ruleMatch h
  · cases hresolved : resolvedCommand host cwd cmd with
    | none => simp [hresolved] at h
    | some resolved =>
      simp only [hresolved] at h
      split_ifs at h
      · obtain ⟨found, hfound, rfl⟩ := List.mem_map.1 h
        have hpolicy := hexact _ found hfound
        cases found with
        | prefixRuleMatch => rfl
        | heuristicsRuleMatch => exact nomatch hpolicy
      · exact absurd h not_mem_nil
  · exact absurd h not_mem_nil

/-- The words are already allowed if the rules decide so. -/
lemma alreadyAllowed_iff : policy.alreadyAllowed host cwd words = true ↔
      policy.ruleDecision host cwd ⟨true⟩ words = some .allow := by
  unfold alreadyAllowed ruleDecision
  simp only [checkMultipleWithOptions, flatMap_cons, flatMap_nil, append_nil,
    matchesForCommandWithOptions_none, Evaluation.fromMatches]
  unfold matchesForCommandWithOptions
  cases hfound : policy.matchedRules host cwd ⟨true⟩ words with
  | nil =>
    -- The fallback forbids.
    exact iff_of_false nofun nofun
  | cons first rest =>
    cases hdecision : strictest (first :: rest) with
    | none => simp at hdecision
    | some decision =>
      simp only [map_some, Bool.and_eq_true, beq_iff_eq, some.injEq, and_iff_left_iff_imp]
      rintro rfl
      obtain ⟨⟨ruleMatch, hmem, hallow⟩, -⟩ := strictest_eq_some_iff.1 hdecision
      refine List.any_eq_true.2 ⟨ruleMatch, hmem, ?_⟩
      simp [hallow, isPolicyMatch_of_mem (hfound ▸ hmem)]

/-- The policies of the rules files before and after the amendment. -/
lemma parsedPolicy_appended (hwords : words ≠ [])
    (hreads : ReadsBack starlark defaultRules words) (disk : Disk) {contents : Text}
    (hcontents : contents = appendLockedLine (defaultRules.getD []) (allowRuleLine words)) :
    BothOk (fun user user' => user'.hostExecutablesByName = user.hostExecutablesByName ∧
        ∀ rule, rule ∈ user'.rulesByProgram ↔ rule ∈ user.rulesByProgram ∨
          (.defaultRules ∈ disk.sources ∧ MakesCall starlark defaultRules words) ∧
            rule = allowRule words)
      (parsedPolicy host cwd starlark (disk.configStack defaultRules))
      (parsedPolicy host cwd starlark (disk.configStack (some contents))) := by
  have hstart : Extends (allowRule words) False .new .new := ⟨rfl, by simp⟩
  have hread := hstart.parseFiles_sources host cwd hwords hreads disk.sources
  rw [← hcontents] at hread
  unfold parsedPolicy
  simp only [Disk.policyFiles_configStack]
  revert hread
  cases parseFiles host cwd starlark (disk.sources.flatMap (·.files defaultRules)) .new <;>
    cases parseFiles host cwd starlark (disk.sources.flatMap (·.files (some contents))) .new
  case error.error => exact fun _ => trivial
  case error.ok => exact False.elim
  case ok.error => exact False.elim
  case ok.ok builder extended =>
    intro hread
    exact ⟨hread.hosts, fun rule => by simpa [PolicyBuilder.build] using hread.rules rule⟩

/-- The overlay of the requirements keeps what the rules files add. -/
lemma overlay_appended (before after : Option Text) {user' : Policy} {φ : Prop}
    (hhosts : user'.hostExecutablesByName = user.hostExecutablesByName)
    (hrules : ∀ other, other ∈ user'.rulesByProgram ↔
      other ∈ user.rulesByProgram ∨ φ ∧ other = rule) :
    ((disk.configStack after).overlay user').hostExecutablesByName =
        ((disk.configStack before).overlay user).hostExecutablesByName ∧
      ∀ other, other ∈ ((disk.configStack after).overlay user').rulesByProgram ↔
        other ∈ ((disk.configStack before).overlay user).rulesByProgram ∨ φ ∧ other = rule := by
  unfold ConfigLayerStack.overlay
  simp only [Disk.configStack]
  cases disk.requirements with
  | none => exact ⟨hhosts, hrules⟩
  | some requirements =>
    refine ⟨by simp only [mergeOverlay, hhosts], fun other => ?_⟩
    simp only [mergeOverlay, mem_append, hrules]
    exact or_right_comm

/-- A policy that may have got the rule in memory, against one that may have got it on disk. -/
lemma ruleDecision_eq_iff {after : Policy}
    (hallow : rule.decision = .allow) {allowed loads : Prop} [Decidable allowed] [Decidable loads]
    (hupdated : updated = if allowed then policy else policy.withRule rule)
    (hhosts : after.hostExecutablesByName = policy.hostExecutablesByName)
    (hrules : ∀ other, other ∈ after.rulesByProgram ↔
      other ∈ policy.rulesByProgram ∨ loads ∧ other = rule) :
    (∀ cmd, updated.ruleDecision host cwd ⟨true⟩ cmd = after.ruleDecision host cwd ⟨true⟩ cmd) ↔
      (allowed ↔ ¬ loads) ∨ NeverDecides host cwd policy rule := by
  have hafter : ∀ cmd, after.ruleDecision host cwd ⟨true⟩ cmd =
      if loads then (policy.withRule rule).ruleDecision host cwd ⟨true⟩ cmd
      else policy.ruleDecision host cwd ⟨true⟩ cmd := by
    intro cmd
    split_ifs with hloads
    · refine ruleDecision_congr host cwd _ cmd (fun other => ?_) hhosts
      simp [hrules, hloads, withRule]
    · refine ruleDecision_congr host cwd _ cmd (fun other => ?_) hhosts
      simp [hrules, hloads]
  simp only [hafter, hupdated, ← ruleDecision_withRule_iff hallow]
  by_cases hallowed : allowed <;> by_cases hloads : loads <;> simp [hallowed, hloads]
  exact forall_congr' fun cmd => eq_comm

/-- The rule of an amendment matches its words. -/
lemma isSome_matchCommand_allowRule (h : words ≠ []) :
    ((allowRule words).matchCommand words).isSome = true := by
  cases words with
  | nil => exact absurd rfl h
  | cons first rest =>
    have hall : ((rest.map PatternToken.single).zip rest).all
        (fun pair => pair.1.isMatch pair.2) = true := by
      induction rest with
      | nil => rfl
      | cons word rest ih => simpa [PatternToken.isMatch] using ih
    simp [PrefixRule.matchCommand, PrefixPattern.matchesPrefix, allowRule, hall]

/-- What a successful amendment leaves in memory and on disk. -/
lemma appendAmendmentAndUpdate_eq {contents : Text}
    (h : appendAmendmentAndUpdate host cwd policy defaultRules words = some (updated, contents)) :
    words ≠ [] ∧ contents = appendLockedLine (defaultRules.getD []) (allowRuleLine words) ∧
      updated = if policy.ruleDecision host cwd ⟨true⟩ words = some .allow then policy
        else policy.withRule (allowRule words) := by
  unfold appendAmendmentAndUpdate blockingAppendAllowPrefixRule at h
  by_cases hwords : words = []
  · simp [hwords] at h
  · rw [if_neg hwords] at h
    by_cases hallowed : policy.alreadyAllowed host cwd words = true
    · rw [if_pos (alreadyAllowed_iff.1 hallowed)]
      simp only [hallowed, if_true, bind_eq_bind, bind_some, Option.pure_def,
        some.injEq, Prod.mk.injEq] at h
      exact ⟨hwords, h.2.symm, h.1.symm⟩
    · rw [if_neg (mt alreadyAllowed_iff.2 hallowed)]
      simp [hallowed, policy.addPrefixRule_eq hwords] at h
      exact ⟨hwords, h.2.symm, h.1.symm⟩

end

/-- **When an amendment means the same after a restart.**  The policy in memory and the policy that
is read from the files decide every command alike exactly if the rules files parse and the rule is
added to both or to none of them, or never decides: it is added in memory unless the words are
already allowed, and on disk it counts if `default.rules` is read, and the line was not among its
lines or makes its call there. -/
theorem amendment_survives_iff (host : Host) (cwd : AbsolutePathBuf) (starlark : Starlark)
    (disk : Disk) (defaultRules : Option Text) (words : List Text) (updated : Policy)
    (contents : Text) (hreads : ReadsBack starlark defaultRules words)
    (happend : appendAmendmentAndUpdate host cwd
      (disk.loadedPolicy host cwd starlark defaultRules) defaultRules words =
        some (updated, contents)) : (∀ cmd, updated.ruleDecision host cwd ⟨true⟩ cmd =
        (disk.loadedPolicy host cwd starlark (some contents)).ruleDecision host cwd ⟨true⟩ cmd) ↔
      (∃ user, parsedPolicy host cwd starlark (disk.configStack defaultRules) = .ok user) ∧
        (((disk.loadedPolicy host cwd starlark defaultRules).ruleDecision host cwd ⟨true⟩ words =
            some .allow ↔ ¬ (.defaultRules ∈ disk.sources ∧ MakesCall starlark defaultRules words)) ∨
          NeverDecides host cwd (disk.loadedPolicy host cwd starlark defaultRules)
            (allowRule words)) := by
  obtain ⟨hwords, hcontents, hupdated⟩ := appendAmendmentAndUpdate_eq happend
  have hboth : BothOk _ (parsedPolicy host cwd starlark _) (parsedPolicy host cwd starlark _) :=
    parsedPolicy_appended hwords hreads disk hcontents
  cases hbefore : parsedPolicy host cwd starlark (disk.configStack defaultRules) with
  | error err =>
    cases hafter : parsedPolicy host cwd starlark (disk.configStack (some contents)) with
    | ok user' => exact (hbefore ▸ hafter ▸ hboth : BothOk _ (.error err) (.ok user')).elim
    | error err' =>
      -- Both policies are empty, and only the one in memory gets the rule.
      rw [Disk.loadedPolicy_of_error hbefore] at hupdated
      rw [Disk.loadedPolicy_of_error hafter]
      refine iff_of_false (fun hall => ?_) fun ⟨⟨_, hparsed⟩, _⟩ => nomatch hparsed
      rw [ruleDecision_empty, if_neg nofun] at hupdated
      rw [hupdated, ruleDecision_withRule_iff rfl] at hall
      have hdecides := hall words (by cases words <;> rfl)
      rw [if_pos (isSome_matchCommand_allowRule hwords)] at hdecides
      rw [hostMatches_empty] at hdecides
      exact nomatch hdecides
  | ok user =>
    cases hafter : parsedPolicy host cwd starlark (disk.configStack (some contents)) with
    | error err' => exact (hbefore ▸ hafter ▸ hboth : BothOk _ (.ok user) (.error err')).elim
    | ok user' =>
      rw [hbefore, hafter] at hboth
      rw [Disk.loadedPolicy_of_ok hbefore] at hupdated ⊢
      rw [Disk.loadedPolicy_of_ok hafter]
      obtain ⟨hhosts, hrules⟩ :=
        overlay_appended disk defaultRules (some contents) hboth.1 hboth.2
      classical
      rw [ruleDecision_eq_iff rfl hupdated hhosts hrules]
      simp

/-! ### An amendment that changes its meaning -/

/-- Calls that allow `git` but ask for `git status --x`. -/
def gitCalls : List Call :=
  [.prefixRule [.str "git".toList] (some "allow".toList) none none none,
    .prefixRule [.str "git".toList, .str "status".toList, .str "--x".toList]
      (some "prompt".toList) none none none]

/-- The words of the amendment. -/
def gitStatus : List Text := ["/usr/bin/git".toList, "status".toList]

/-- The rules file of these calls. -/
def gitRules : Text :=
  "prefix_rule(pattern=[\"git\"], decision=\"allow\")\n".toList ++
    "prefix_rule(pattern=[\"git\", \"status\", \"--x\"], decision=\"prompt\")\n".toList

/-- What the evaluator makes of that file and of a `default.rules` with the line for the words. -/
def gitStarlark (words : List Text) : Starlark where
  evaluate contents :=
    if contents = allowRuleLine words ++ ['\n'] then some [allowCall words]
    else if contents = gitRules then some gitCalls
    else none
  split _ := none

/-- A user layer with one rules file and no `default.rules` yet. -/
def gitDisk : Disk where
  layers := [(.user, [.defaultRules, .file ⟨"git.rules".toList, gitRules⟩])]
  ignoreUserAndProjectExecPolicyRules := false
  requirements := none

lemma readsBack_git (words : List Text) : ReadsBack (gitStarlark words) none words :=
  fun _ => if_pos rfl

lemma appendAmendmentAndUpdate_git : appendAmendmentAndUpdate plainHost []
        (gitDisk.loadedPolicy plainHost [] (gitStarlark gitStatus) none) none gitStatus =
      some (gitDisk.loadedPolicy plainHost [] (gitStarlark gitStatus) none,
        allowRuleLine gitStatus ++ ['\n']) := by
  have hallowed : (gitDisk.loadedPolicy plainHost [] (gitStarlark gitStatus)
      none).alreadyAllowed plainHost [] gitStatus = true := by
    decide +kernel
  rw [appendAmendmentAndUpdate, hallowed]
  rfl

/-- After the amendment `/usr/bin/git status --x` needs an approval; after a restart it does not. -/
theorem amendment_allows_more_after_restart :
    ReadsBack (gitStarlark gitStatus) none gitStatus ∧ ∃ updated contents,
      appendAmendmentAndUpdate Permissions.plainHost []
          (gitDisk.loadedPolicy Permissions.plainHost [] (gitStarlark gitStatus) none) none
            gitStatus = some (updated, contents) ∧
      updated.ruleDecision Permissions.plainHost [] ⟨true⟩ (gitStatus ++ ["--x".toList]) =
        some .prompt ∧
      (gitDisk.loadedPolicy Permissions.plainHost [] (gitStarlark gitStatus)
        (some contents)).ruleDecision Permissions.plainHost [] ⟨true⟩
          (gitStatus ++ ["--x".toList]) = some .allow :=
  ⟨readsBack_git gitStatus, _, _, appendAmendmentAndUpdate_git, by decide +kernel,
    by decide +kernel⟩

lemma appendAmendmentAndUpdate_ls : appendAmendmentAndUpdate plainHost []
        (gitDisk.loadedPolicy plainHost [] (gitStarlark ["ls".toList]) none) none ["ls".toList] =
      some ((gitDisk.loadedPolicy plainHost [] (gitStarlark ["ls".toList])
        none).withRule (allowRule ["ls".toList]), allowRuleLine ["ls".toList] ++ ['\n']) := by
  have hallowed : (gitDisk.loadedPolicy plainHost [] (gitStarlark ["ls".toList])
      none).alreadyAllowed plainHost [] ["ls".toList] = false := by
    decide +kernel
  rw [appendAmendmentAndUpdate, hallowed]
  rfl

/-- An amendment for a command without rules keeps its meaning. -/
theorem amendment_survives_ls : ∃ updated contents,
      appendAmendmentAndUpdate Permissions.plainHost []
          (gitDisk.loadedPolicy Permissions.plainHost [] (gitStarlark ["ls".toList]) none) none
            ["ls".toList] = some (updated, contents) ∧
      ∀ cmd, updated.ruleDecision Permissions.plainHost [] ⟨true⟩ cmd =
        (gitDisk.loadedPolicy Permissions.plainHost [] (gitStarlark ["ls".toList])
          (some contents)).ruleDecision Permissions.plainHost [] ⟨true⟩ cmd := by
  have hparsed : (parsedPolicy plainHost [] (gitStarlark ["ls".toList])
      (gitDisk.configStack none)).toOption.isSome = true := by
    decide +kernel
  have hparses : ∃ user, parsedPolicy plainHost [] (gitStarlark ["ls".toList])
      (gitDisk.configStack none) = .ok user := by
    revert hparsed
    cases parsedPolicy plainHost [] (gitStarlark ["ls".toList]) (gitDisk.configStack none) with
    | error err => exact nofun
    | ok user => exact fun _ => ⟨user, rfl⟩
  refine ⟨_, _, appendAmendmentAndUpdate_ls, ?_⟩
  refine (amendment_survives_iff _ _ _ gitDisk none _ _ _ (readsBack_git _)
    appendAmendmentAndUpdate_ls).2 ⟨hparses, .inl (iff_of_false ?_ ?_)⟩
  · decide +kernel
  · exact not_not_intro ⟨by decide, .inl not_mem_nil⟩

end TokenCode.ExecPolicy
