/-
Rules about the commands that may run (`execpolicy/src/{decision, rule, policy}.rs`), on a POSIX
system.

A prefix rule gives a decision to the commands that begin with its pattern. A command is first
looked up under its program as it is written; only if no such rule matches, the program is resolved
to an absolute path and the rules for its base name are tried, unless the base name is declared to
stand for other executables. Among the rules that match the strictest one decides.
-/
import TokenCode.Permissions.Policy

namespace TokenCode.ExecPolicy

open List

open Permissions (AbsolutePathBuf Host resolvePathAgainstBase)

inductive Decision where
  | allow
  | prompt
  | forbidden
deriving DecidableEq, Repr

namespace Decision

/-- The derived order, `allow` the weakest. -/
def strictness : Decision → ℕ
  | allow => 0
  | prompt => 1
  | forbidden => 2

lemma strictness_injective : Function.Injective strictness := by
  intro a b h
  cases a <;> cases b <;> first | rfl | cases h

instance : LinearOrder Decision := LinearOrder.lift' strictness strictness_injective

lemma allow_le (decision : Decision) : allow ≤ decision := by
  cases decision <;> decide

end Decision

/-! ### Rules -/

inductive PatternToken where
  | single (expected : Text)
  | alts (alternatives : List Text)
deriving DecidableEq, Repr

namespace PatternToken

/-- `PatternToken::matches`. -/
def isMatch : PatternToken → Text → Bool
  | single expected, token => expected == token
  | alts alternatives, token => alternatives.any (· == token)

def alternatives : PatternToken → List Text
  | single expected => [expected]
  | alts alternatives => alternatives

end PatternToken

structure PrefixPattern where
  first : Text
  rest : List PatternToken
deriving DecidableEq, Repr

def PrefixPattern.matchesPrefix (pattern : PrefixPattern) (cmd : List Text) : Option (List Text) :=
  let patternLength := pattern.rest.length + 1
  if cmd.length < patternLength ∨ cmd.head? ≠ some pattern.first then none
  else if (pattern.rest.zip cmd.tail).all fun (patternToken, cmdToken) =>
      patternToken.isMatch cmdToken then
    some (cmd.take patternLength)
  else none

inductive RuleMatch where
  | prefixRuleMatch (matchedPrefix : List Text) (decision : Decision)
      (resolvedProgram : Option AbsolutePathBuf) (justification : Option Text)
  | heuristicsRuleMatch (command : List Text) (decision : Decision)
deriving DecidableEq, Repr

namespace RuleMatch

def decision : RuleMatch → Decision
  | prefixRuleMatch _ decision _ _ => decision
  | heuristicsRuleMatch _ decision => decision

def withResolvedProgram (resolvedProgram : AbsolutePathBuf) : RuleMatch → RuleMatch
  | prefixRuleMatch matchedPrefix decision _ justification =>
    prefixRuleMatch matchedPrefix decision (some resolvedProgram) justification
  | other => other

@[simp]
lemma decision_withResolvedProgram (program : AbsolutePathBuf) (ruleMatch : RuleMatch) :
    (ruleMatch.withResolvedProgram program).decision = ruleMatch.decision := by
  cases ruleMatch <;> rfl

end RuleMatch

structure PrefixRule where
  pattern : PrefixPattern
  decision : Decision
  justification : Option Text
deriving DecidableEq, Repr

variable {rule : PrefixRule} {ruleMatch : RuleMatch}

namespace PrefixRule

def program (rule : PrefixRule) : Text := rule.pattern.first

/-- `PrefixRule::matches`. -/
def matchCommand (rule : PrefixRule) (cmd : List Text) : Option RuleMatch :=
  (rule.pattern.matchesPrefix cmd).map fun matchedPrefix =>
    .prefixRuleMatch matchedPrefix rule.decision none rule.justification

lemma decision_of_matchCommand {cmd : List Text}
    (h : rule.matchCommand cmd = some ruleMatch) : ruleMatch.decision = rule.decision := by
  obtain ⟨matchedPrefix, -, rfl⟩ := Option.map_eq_some_iff.1 h
  rfl

/-- A rule only matches commands whose first word is its program. -/
lemma head?_of_matchCommand {cmd : List Text}
    (h : rule.matchCommand cmd = some ruleMatch) : cmd.head? = some rule.program := by
  obtain ⟨matchedPrefix, hmatched, -⟩ := Option.map_eq_some_iff.1 h
  simp only [PrefixPattern.matchesPrefix, Option.ite_none_left_eq_some, not_or, not_not] at hmatched
  exact hmatched.1.2

end PrefixRule

/-! ### Policies -/

structure MatchOptions where
  resolveHostExecutables : Bool := false
deriving DecidableEq, Repr

/-- A policy. `rulesByProgram` lists the rules in the order of their insertion: the source keeps
them in one list for each program. -/
structure Policy where
  rulesByProgram : List PrefixRule
  hostExecutablesByName : AList fun _ : Text => List AbsolutePathBuf
deriving DecidableEq

namespace Policy

def empty : Policy := ⟨[], ∅⟩

/-- `rules_by_program.get_vec`. -/
def rulesFor (policy : Policy) (program : Text) : List PrefixRule :=
  policy.rulesByProgram.filter (·.program == program)

/-- `add_prefix_rule`, which rejects an empty list of words. -/
def addPrefixRule (policy : Policy) (words : List Text) (decision : Decision) : Option Policy :=
  match words with
  | [] => none
  | first :: rest =>
    some { policy with
      rulesByProgram := policy.rulesByProgram ++ [⟨⟨first, rest.map .single⟩, decision, none⟩] }

/-- `merge_overlay`: the rules of both, and for the host executables the overlay's word. -/
def mergeOverlay (policy overlay : Policy) : Policy :=
  ⟨policy.rulesByProgram ++ overlay.rulesByProgram,
    overlay.hostExecutablesByName ∪ policy.hostExecutablesByName⟩

/-- `match_exact_rules`, empty for an empty command. -/
def matchExactRules (policy : Policy) (cmd : List Text) : List RuleMatch :=
  match cmd with
  | [] => []
  | first :: _ => (policy.rulesFor first).filterMap (·.matchCommand cmd)

end Policy

/-- `executable_path_lookup_key`: the file name of the path. -/
def executablePathLookupKey (path : AbsolutePathBuf) : Option Text := path.getLast?

variable {xs ys : List RuleMatch}

section

-- The system, and the working directory of the process, against which a relative program resolves.
variable (host : Host) (cwd : AbsolutePathBuf)

namespace Policy

/-- Whether the declarations let the base name stand for the program. -/
def admits (policy : Policy) (basename : Text) (program : AbsolutePathBuf) : Bool :=
  match policy.hostExecutablesByName.lookup basename with
  | some paths => paths.any (· == program)
  | none => true

/-- `match_host_executable_rules`. -/
def matchHostExecutableRules (policy : Policy) (cmd : List Text) : List RuleMatch :=
  match cmd with
  | [] => []
  | first :: args =>
    let program := resolvePathAgainstBase host first cwd
    match executablePathLookupKey program with
    | none => []
    | some basename =>
      if policy.admits basename program then
        ((policy.rulesFor basename).filterMap (·.matchCommand (basename :: args))).map
          (·.withResolvedProgram program)
      else []

/-- The matches through host executables that the options ask for. -/
def hostMatches (policy : Policy) (options : MatchOptions) (cmd : List Text) : List RuleMatch :=
  if options.resolveHostExecutables then policy.matchHostExecutableRules host cwd cmd else []

/-- The rules that match: the exact ones, and only without them those for the base name. -/
def matchedRules (policy : Policy) (options : MatchOptions) (cmd : List Text) : List RuleMatch :=
  if policy.matchExactRules cmd ≠ [] then policy.matchExactRules cmd
  else policy.hostMatches host cwd options cmd

/-- `matches_for_command_with_options`. -/
def matchesForCommandWithOptions (policy : Policy) (cmd : List Text)
    (heuristicsFallback : Option (List Text → Decision)) (options : MatchOptions) :
    List RuleMatch :=
  match policy.matchedRules host cwd options cmd, heuristicsFallback with
  | [], some fallback => [.heuristicsRuleMatch cmd (fallback cmd)]
  | matchedRules, _ => matchedRules

end Policy

/-- The strictest decision of some matches. -/
def strictest (matchedRules : List RuleMatch) : Option Decision :=
  (matchedRules.map RuleMatch.decision).max?

lemma strictest_eq_some_iff {matchedRules : List RuleMatch} {decision : Decision} :
    strictest matchedRules = some decision ↔
      (∃ ruleMatch ∈ matchedRules, ruleMatch.decision = decision) ∧
        ∀ ruleMatch ∈ matchedRules, ruleMatch.decision ≤ decision := by
  simp [strictest, max?_eq_some_iff]

@[simp]
lemma strictest_eq_none_iff {matchedRules : List RuleMatch} :
    strictest matchedRules = none ↔ matchedRules = [] := by
  simp [strictest]

/-- Only the decisions that occur count. -/
lemma strictest_congr
    (h : ∀ decision, decision ∈ xs.map RuleMatch.decision ↔ decision ∈ ys.map RuleMatch.decision) :
    strictest xs = strictest ys := by
  ext decision
  simp only [strictest, max?_eq_some_iff, h]

/-- A match that allows does not change the decision of others. -/
lemma strictest_append_allow (hxs : xs ≠ []) (hys : ∀ ruleMatch ∈ ys, ruleMatch.decision = .allow) :
    strictest (xs ++ ys) = strictest xs := by
  obtain ⟨decision, hdecision⟩ :=
    Option.ne_none_iff_exists'.1 (mt strictest_eq_none_iff.1 hxs)
  obtain ⟨⟨ruleMatch, hmem, hruleMatch⟩, hmax⟩ := strictest_eq_some_iff.1 hdecision
  rw [hdecision, strictest_eq_some_iff]
  refine ⟨⟨ruleMatch, mem_append_left _ hmem, hruleMatch⟩, fun other hother => ?_⟩
  rcases mem_append.1 hother with hx | hy
  · exact hmax other hx
  · exact hys other hy ▸ decision.allow_le

structure Evaluation where
  decision : Decision
  matchedRules : List RuleMatch
deriving DecidableEq, Repr

/-- `Evaluation::from_matches`; `none` where the source panics. -/
def Evaluation.fromMatches (matchedRules : List RuleMatch) : Option Evaluation :=
  (strictest matchedRules).map fun decision => ⟨decision, matchedRules⟩

namespace Policy

def checkMultipleWithOptions (policy : Policy) (commands : List (List Text))
    (heuristicsFallback : List Text → Decision) (options : MatchOptions) : Option Evaluation :=
  Evaluation.fromMatches <| commands.flatMap fun command =>
    policy.matchesForCommandWithOptions host cwd command (some heuristicsFallback) options

/-- The decision of the rules that match, if there are any. -/
def ruleDecision (policy : Policy) (options : MatchOptions) (cmd : List Text) : Option Decision :=
  strictest (policy.matchesForCommandWithOptions host cwd cmd none options)

variable {host cwd} {policy : Policy} {options : MatchOptions} {cmd : List Text}

lemma matchesForCommandWithOptions_none :
    policy.matchesForCommandWithOptions host cwd cmd none options =
      policy.matchedRules host cwd options cmd := by
  unfold matchesForCommandWithOptions
  cases policy.matchedRules host cwd options cmd <;> rfl

/-- Matches of exact rules decide alone. -/
lemma ruleDecision_of_exact (h : policy.matchExactRules cmd ≠ []) :
    policy.ruleDecision host cwd options cmd = strictest (policy.matchExactRules cmd) := by
  simp [ruleDecision, matchesForCommandWithOptions_none, matchedRules, h]

/-- Without a match of an exact rule the host executables decide. -/
lemma ruleDecision_of_not_exact (h : policy.matchExactRules cmd = []) :
    policy.ruleDecision host cwd options cmd =
      strictest (policy.hostMatches host cwd options cmd) := by
  simp [ruleDecision, matchesForCommandWithOptions_none, matchedRules, h]

/-! #### Which rules match

A match is described by the rule it comes from, so that the order of the rules does not matter. -/

lemma mem_matchExactRules : ruleMatch ∈ policy.matchExactRules cmd ↔
      ∃ rule ∈ policy.rulesByProgram, rule.matchCommand cmd = some ruleMatch := by
  cases cmd with
  | nil =>
    simp only [matchExactRules, not_mem_nil, false_iff]
    rintro ⟨rule, -, hrule⟩
    exact nomatch PrefixRule.head?_of_matchCommand hrule
  | cons first args =>
    simp only [matchExactRules, rulesFor, mem_filterMap, mem_filter, beq_iff_eq]
    constructor
    · rintro ⟨rule, ⟨hmem, -⟩, hrule⟩
      exact ⟨rule, hmem, hrule⟩
    · rintro ⟨rule, hmem, hrule⟩
      have hfirst := PrefixRule.head?_of_matchCommand hrule
      exact ⟨rule, ⟨hmem, (Option.some.inj hfirst).symm⟩, hrule⟩

end Policy

/-- The program of a command with its base name, and the command under that name. -/
def resolvedCommand (cmd : List Text) : Option (AbsolutePathBuf × Text × List Text) :=
  match cmd with
  | [] => none
  | first :: args =>
    let program := resolvePathAgainstBase host first cwd
    (executablePathLookupKey program).map fun basename => (program, basename, basename :: args)

namespace Policy

/-- The matches through host executables are those of the command under its base name. -/
lemma matchHostExecutableRules_eq (policy : Policy) (cmd : List Text) :
    policy.matchHostExecutableRules host cwd cmd =
      match resolvedCommand host cwd cmd with
      | none => []
      | some (program, basename, command) =>
        if policy.admits basename program then
          (policy.matchExactRules command).map (·.withResolvedProgram program)
        else [] := by
  cases cmd with
  | nil => rfl
  | cons first args =>
    simp only [matchHostExecutableRules, resolvedCommand]
    cases executablePathLookupKey (resolvePathAgainstBase host first cwd) <;> rfl

variable (options : MatchOptions) (cmd : List Text)

/-- The order of the rules, and how often a rule occurs, does not matter. -/
lemma ruleDecision_congr {policy other : Policy}
    (hrules : ∀ rule, rule ∈ policy.rulesByProgram ↔ rule ∈ other.rulesByProgram)
    (hhosts : policy.hostExecutablesByName = other.hostExecutablesByName) :
    policy.ruleDecision host cwd options cmd = other.ruleDecision host cwd options cmd := by
  have hexact : ∀ command ruleMatch, ruleMatch ∈ policy.matchExactRules command ↔
      ruleMatch ∈ other.matchExactRules command := by
    intro command ruleMatch
    simp only [mem_matchExactRules, hrules]
  have hempty : ∀ command, policy.matchExactRules command = [] ↔
      other.matchExactRules command = [] := by
    intro command
    simp only [eq_nil_iff_forall_not_mem, hexact]
  have hadmits : ∀ basename program,
      policy.admits basename program = other.admits basename program := by
    intro basename program
    simp only [admits, hhosts]
  by_cases h : policy.matchExactRules cmd = []
  · rw [ruleDecision_of_not_exact h, ruleDecision_of_not_exact ((hempty cmd).1 h)]
    unfold hostMatches
    rw [matchHostExecutableRules_eq, matchHostExecutableRules_eq]
    split_ifs
    · cases resolvedCommand host cwd cmd with
      | none => rfl
      | some resolved =>
        simp only [hadmits]
        split_ifs
        · exact strictest_congr fun decision => by simp [hexact]
        · rfl
    · rfl
  · rw [ruleDecision_of_exact h, ruleDecision_of_exact (mt (hempty cmd).2 h)]
    exact strictest_congr fun decision => by simp [hexact]

/-! #### The empty policy -/

lemma hostMatches_empty : empty.hostMatches host cwd options cmd = [] := by
  have hexact : ∀ command, empty.matchExactRules command = [] := by
    intro command
    cases command <;> rfl
  unfold hostMatches
  rw [matchHostExecutableRules_eq]
  split_ifs
  · cases resolvedCommand host cwd cmd <;> simp [hexact]
  · rfl

lemma ruleDecision_empty : empty.ruleDecision host cwd options cmd = none := by
  rw [ruleDecision_of_not_exact (by cases cmd <;> rfl), hostMatches_empty]
  rfl

end Policy

end

end TokenCode.ExecPolicy
