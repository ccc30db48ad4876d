/-
Managed rules as a floor.

The requirements of an administrator are overlaid on the rules files of the user. For a command
that an exact rule of the requirements matches, the loaded policy is at least as strict as the
requirements alone. A rule that the requirements only reach through the base name of the program
can be lost in three ways: a rules file does not parse, a rules file has an exact rule for the
program, or a rules file declares the base name to stand for other executables
(`managedFloor_iff`).
-/
import TokenCode.ExecPolicy.Parser

namespace TokenCode.ExecPolicy

open Policy

open Permissions (AbsolutePathBuf Host)

/-- Where the floor has a decision, the actual one is at least as strict. -/
def AtLeast (floor actual : Option Decision) : Prop :=
  ∀ decision, floor = some decision → ∃ actualDecision, actual = some actualDecision ∧
    decision ≤ actualDecision

instance (floor actual : Option Decision) : Decidable (AtLeast floor actual) :=
  match floor, actual with
  | none, _ => .isTrue (by simp [AtLeast])
  | some _, none => .isFalse (by simp [AtLeast])
  | some floor, some actual => decidable_of_iff (floor ≤ actual) (by simp [AtLeast])

lemma atLeast_none_left (actual : Option Decision) : AtLeast none actual :=
  fun _ h => nomatch h

lemma atLeast_none_right {floor : Option Decision} : AtLeast floor none ↔ floor = none := by
  cases floor <;> simp [AtLeast]

/-- More matches are at least as strict. -/
lemma atLeast_strictest_of_subset {xs ys : List RuleMatch} (h : xs ⊆ ys) :
    AtLeast (strictest xs) (strictest ys) := by
  intro decision hdecision
  obtain ⟨⟨ruleMatch, hmem, rfl⟩, -⟩ := strictest_eq_some_iff.1 hdecision
  have hys : strictest ys ≠ none :=
    mt strictest_eq_none_iff.1 (List.ne_nil_of_mem (h hmem))
  obtain ⟨actual, hactual⟩ := Option.ne_none_iff_exists'.1 hys
  exact ⟨actual, hactual, (strictest_eq_some_iff.1 hactual).2 ruleMatch (h hmem)⟩

/-! ### The overlay -/

namespace Policy

/-- Whether the policy has a `host_executable` declaration for the base name. -/
def declares (policy : Policy) (basename : Text) : Prop :=
  basename ∈ policy.hostExecutablesByName

instance (policy : Policy) (basename : Text) : Decidable (policy.declares basename) :=
  inferInstanceAs (Decidable (basename ∈ policy.hostExecutablesByName))

variable (policy overlay : Policy)

lemma matchExactRules_mergeOverlay (cmd : List Text) :
    (policy.mergeOverlay overlay).matchExactRules cmd =
      policy.matchExactRules cmd ++ overlay.matchExactRules cmd := by
  cases cmd <;> simp [matchExactRules, mergeOverlay, rulesFor]

/-- The declarations of the overlay come first. -/
lemma admits_mergeOverlay (basename : Text) (program : AbsolutePathBuf) :
    (policy.mergeOverlay overlay).admits basename program =
      if overlay.declares basename then overlay.admits basename program
      else policy.admits basename program := by
  by_cases h : overlay.declares basename
  · rw [if_pos h]
    unfold admits mergeOverlay
    rw [AList.lookup_union_left h]
  · rw [if_neg h]
    unfold admits mergeOverlay
    rw [AList.lookup_union_right h]

end Policy

/-! ### When the floor holds -/

section

variable (host : Host) (cwd : AbsolutePathBuf) (options : MatchOptions)

/-- The rules of the user leave the decision of the requirements in force: the requirements have an
exact rule, or the exact rules of the user that hide theirs are as strict, or no exact rule hides
theirs and the user's declarations do not take the program away from its base name. -/
def KeepsFloor (user requirements : Policy) (cmd : List Text) : Prop :=
  requirements.matchExactRules cmd ≠ [] ∨
    (user.matchExactRules cmd ≠ [] ∧
      AtLeast (strictest (requirements.hostMatches host cwd options cmd))
        (strictest (user.matchExactRules cmd))) ∨
    (user.matchExactRules cmd = [] ∧ ∀ resolved ∈ resolvedCommand host cwd cmd,
      requirements.declares resolved.2.1 ∨ user.admits resolved.2.1 resolved.1 = true)

variable {host cwd options} {user requirements : Policy} {cmd : List Text}

/-- Matches through host executables, from a command whose program resolves and is admitted. -/
lemma Policy.exists_of_hostMatches {policy : Policy}
    (h : policy.hostMatches host cwd options cmd ≠ []) :
    ∃ program basename command, resolvedCommand host cwd cmd = some (program, basename, command) ∧
      options.resolveHostExecutables = true ∧ policy.admits basename program = true := by
  unfold hostMatches at h
  rw [matchHostExecutableRules_eq] at h
  split_ifs at h with hoptions
  · cases hresolved : resolvedCommand host cwd cmd with
    | none => simp [hresolved] at h
    | some resolved =>
      obtain ⟨program, basename, command⟩ := resolved
      refine ⟨program, basename, command, rfl, hoptions, ?_⟩
      by_contra hadmits
      simp [hresolved, hadmits] at h
  · exact absurd rfl h

lemma Policy.hostMatches_of_resolved {policy : Policy} {program : AbsolutePathBuf}
    {basename : Text} {command : List Text}
    (hresolved : resolvedCommand host cwd cmd = some (program, basename, command))
    (hoptions : options.resolveHostExecutables = true) : policy.hostMatches host cwd options cmd =
      if policy.admits basename program then
        (policy.matchExactRules command).map (·.withResolvedProgram program) else [] := by
  rw [hostMatches, if_pos hoptions, matchHostExecutableRules_eq, hresolved]

/-- Without exact matches the overlay keeps the matches of the requirements exactly if the
declarations of both still admit the program. -/
lemma atLeast_hostMatches_mergeOverlay
    (hhost : requirements.hostMatches host cwd options cmd ≠ []) :
    AtLeast (strictest (requirements.hostMatches host cwd options cmd))
        (strictest ((user.mergeOverlay requirements).hostMatches host cwd options cmd)) ↔
      ∀ resolved ∈ resolvedCommand host cwd cmd,
        requirements.declares resolved.2.1 ∨ user.admits resolved.2.1 resolved.1 = true := by
  obtain ⟨program, basename, command, hresolved, hoptions, hadmits⟩ :=
    exists_of_hostMatches hhost
  have hmerged : (user.mergeOverlay requirements).admits basename program = true ↔
      requirements.declares basename ∨ user.admits basename program = true := by
    rw [admits_mergeOverlay]
    split_ifs with hdeclares <;> simp [hdeclares, hadmits]
  simp only [hresolved, Option.mem_def, Option.some.injEq, forall_eq', ← hmerged]
  rw [hostMatches_of_resolved hresolved hoptions, if_pos hadmits] at hhost ⊢
  rw [hostMatches_of_resolved hresolved hoptions]
  constructor
  · intro hfloor
    by_contra hnot
    rw [if_neg hnot] at hfloor
    exact hhost (strictest_eq_none_iff.1 (atLeast_none_right.1 hfloor))
  · intro hall
    rw [if_pos hall, matchExactRules_mergeOverlay]
    exact atLeast_strictest_of_subset (List.map_subset _ (List.subset_append_right _ _))

lemma atLeast_mergeOverlay (hsome : requirements.ruleDecision host cwd options cmd ≠ none) :
    AtLeast (requirements.ruleDecision host cwd options cmd)
        ((user.mergeOverlay requirements).ruleDecision host cwd options cmd) ↔
      KeepsFloor host cwd options user requirements cmd := by
  have hmerged := matchExactRules_mergeOverlay user requirements cmd
  unfold KeepsFloor
  by_cases hexact : requirements.matchExactRules cmd = []
  · rw [ruleDecision_of_not_exact hexact] at hsome ⊢
    rw [hexact, List.append_nil] at hmerged
    by_cases huser : user.matchExactRules cmd = []
    · rw [ruleDecision_of_not_exact (hmerged.trans huser),
        atLeast_hostMatches_mergeOverlay (mt strictest_eq_none_iff.2 hsome)]
      simp [hexact, huser]
    · rw [ruleDecision_of_exact (hmerged ▸ huser), hmerged]
      simp [hexact, huser]
  · refine iff_of_true ?_ (.inl hexact)
    rw [ruleDecision_of_exact hexact, ruleDecision_of_exact (by simp [hmerged, hexact]), hmerged]
    exact atLeast_strictest_of_subset (List.subset_append_right _ _)

end

/-- **When managed rules are a floor.**  The policy of a session is at least as strict on a command
as the requirements alone exactly if the requirements do not decide the command, or every rules file
parses and the rules files keep the floor for it. -/
theorem managedFloor_iff (host : Host) (cwd : AbsolutePathBuf) (starlark : Starlark)
    (layers : List ConfigLayer) (ignoreRules : Bool) (requirements : Policy)
    (options : MatchOptions) (cmd : List Text) :
    AtLeast (requirements.ruleDecision host cwd options cmd)
        ((loadExecPolicyWithWarning host cwd starlark
          ⟨layers, ignoreRules, some requirements⟩).1.ruleDecision host cwd options cmd) ↔
      requirements.ruleDecision host cwd options cmd = none ∨
        ∃ user, parsedPolicy host cwd starlark ⟨layers, ignoreRules, some requirements⟩ = .ok user ∧
          KeepsFloor host cwd options user requirements cmd := by
  by_cases hnone : requirements.ruleDecision host cwd options cmd = none
  · rw [hnone]
    exact iff_of_true (atLeast_none_left _) (.inl rfl)
  · simp only [hnone, false_or, loadExecPolicyWithWarning, loadExecPolicy]
    cases parsedPolicy host cwd starlark ⟨layers, ignoreRules, some requirements⟩ with
    | error err =>
      -- The empty policy decides nothing.
      simp [Except.map, ruleDecision_empty, atLeast_none_right, hnone]
    | ok user =>
      simpa [Except.map, ConfigLayerStack.overlay] using atLeast_mergeOverlay hnone

/-! ### Rules files that break the floor -/

/-- Requirements that forbid `rm`. -/
def forbidRm : Policy := ⟨[⟨⟨"rm".toList, []⟩, .forbidden, none⟩], ∅⟩

/-- A rules file that allows `/usr/bin/rm`. -/
def rmRules : Text := "prefix_rule(pattern=[\"/usr/bin/rm\"], decision=\"allow\")\n".toList

/-- What the evaluator makes of that file. -/
def rmStarlark : Starlark where
  evaluate contents :=
    if contents = rmRules then
      some [.prefixRule [.str "/usr/bin/rm".toList] (some "allow".toList) none none none]
    else none
  split _ := none

/-- A user layer with this file. -/
def userLayer : ConfigLayer := ⟨.user, [⟨"default.rules".toList, rmRules⟩]⟩

/-- The rules file allows what the requirements forbid. -/
theorem managedFloor_hidden_by_exact_rule :
    ¬ AtLeast (forbidRm.ruleDecision Permissions.plainHost [] ⟨true⟩ ["/usr/bin/rm".toList])
      ((loadExecPolicyWithWarning Permissions.plainHost [] rmStarlark
        ⟨[userLayer], false, some forbidRm⟩).1.ruleDecision Permissions.plainHost [] ⟨true⟩
          ["/usr/bin/rm".toList]) := by
  decide +kernel

end TokenCode.ExecPolicy
