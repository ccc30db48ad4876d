/-
Managed constraints on the configuration of the network proxy (`network-proxy/src/state.rs`,
`network-proxy/src/config.rs`).

A configuration is accepted if no setting goes beyond what the managed configuration allows. The
allow list is compared pattern by pattern, or, where the managed configuration settles whether it may
be extended, as a set of texts; so is the deny list.
-/
import TokenCode.NetworkProxy.Policy
import TokenCode.Lib.Steps

namespace TokenCode.NetworkProxy

open DomainPattern

/-! ### The configuration -/

inductive NetworkMode where
  | limited
  | full
deriving DecidableEq, Repr

/-- `network_mode_rank`. -/
def networkModeRank : NetworkMode → ℕ
  | .limited => 0
  | .full => 1

/-- The debug form of a mode. -/
def NetworkMode.name : NetworkMode → Text
  | .limited => "Limited".toList
  | .full => "Full".toList

inductive NetworkDomainPermission where
  | none
  | allow
  | deny
deriving DecidableEq, Repr

/-- The derived order: of two entries for one pattern the later variant wins. -/
def NetworkDomainPermission.rank : NetworkDomainPermission → ℕ
  | .none => 0
  | .allow => 1
  | .deny => 2

structure NetworkDomainPermissionEntry where
  pattern : Text
  permission : NetworkDomainPermission
deriving DecidableEq, Repr

/-- One entry in `effective_entries`: the first occurrence of a pattern keeps its place. -/
def upsertEntry (entries : List NetworkDomainPermissionEntry)
    (entry : NetworkDomainPermissionEntry) : List NetworkDomainPermissionEntry :=
  if entries.any (·.pattern == entry.pattern) then
    entries.map fun existing =>
      if existing.pattern = entry.pattern ∧ existing.permission.rank < entry.permission.rank then
        entry
      else existing
  else entries ++ [entry]

/-- `effective_entries`. -/
def effectiveEntries (entries : List NetworkDomainPermissionEntry) :
    List NetworkDomainPermissionEntry :=
  entries.foldl upsertEntry []

/-- The settings that the constraints look at. -/
structure NetworkProxyConfig where
  enabled : Bool
  mode : NetworkMode
  allowUpstreamProxy : Bool
  dangerouslyAllowNonLoopbackProxy : Bool
  dangerouslyAllowAllUnixSockets : Bool
  allowLocalBinding : Bool
  /-- The entries of `domains`, none if the setting is absent. -/
  domains : List NetworkDomainPermissionEntry
  allowUnixSockets : List Text
  /-- The error of `validate_mitm_hook_config`. -/
  mitmHookError : Option Text
deriving DecidableEq, Repr

namespace NetworkProxyConfig

/-- `domain_entries`, empty where the source has `None`. -/
def domainEntries (config : NetworkProxyConfig) (permission : NetworkDomainPermission) :
    List Text :=
  ((effectiveEntries config.domains).filter (·.permission == permission)).map (·.pattern)

def allowedDomains (config : NetworkProxyConfig) : List Text := config.domainEntries .allow

def deniedDomains (config : NetworkProxyConfig) : List Text := config.domainEntries .deny

end NetworkProxyConfig

structure NetworkProxyConstraints where
  enabled : Option Bool := none
  mode : Option NetworkMode := none
  allowUpstreamProxy : Option Bool := none
  dangerouslyAllowNonLoopbackProxy : Option Bool := none
  dangerouslyAllowAllUnixSockets : Option Bool := none
  allowedDomains : Option (List Text) := none
  allowlistExpansionEnabled : Option Bool := none
  deniedDomains : Option (List Text) := none
  denylistExpansionEnabled : Option Bool := none
  allowUnixSockets : Option (List Text) := none
  allowLocalBinding : Option Bool := none
deriving DecidableEq, Repr

/-! ### Validation -/

/-- `NetworkProxyConstraintError::InvalidValue`; texts that the source prints as a list are kept as a
list. -/
structure NetworkProxyConstraintError where
  fieldName : Text
  candidate : List Text
  allowed : List Text
deriving DecidableEq, Repr

def invalidValue (fieldName candidate allowed : Text) : NetworkProxyConstraintError :=
  ⟨fieldName, [candidate], [allowed]⟩

/-- A flag that the managed configuration may switch off. -/
def validateFlag (fieldName : Text) (allowed : Option Bool) (candidate : Bool) :
    Except NetworkProxyConstraintError Unit :=
  if candidate ∧ allowed = some false then
    .error (invalidValue fieldName "true".toList "false (disabled by managed config)".toList)
  else .ok ()

def validateMode (maxMode : Option NetworkMode) (candidate : NetworkMode) :
    Except NetworkProxyConstraintError Unit :=
  match maxMode with
  | none => .ok ()
  | some maxMode =>
    if networkModeRank candidate > networkModeRank maxMode then
      .error (invalidValue "network.mode".toList candidate.name
        (maxMode.name ++ " or more restrictive".toList))
    else .ok ()

/-- `validate_non_global_wildcard_domain_patterns`. -/
def validateNonGlobalWildcardDomainPatterns (parsers : Parsers) (fieldName : Text)
    (patterns : List Text) : Except NetworkProxyConstraintError Unit :=
  match patterns.find? (isGlobalWildcardDomainPattern parsers) with
  | some pattern =>
    .error (invalidValue fieldName (Text.trim pattern)
      "exact hosts or scoped wildcards like *.example.com or **.example.com".toList)
  | none => .ok ()

/-- `HashSet` of the lower-cased entries, as the list of its members. -/
def lowercased (entries : List Text) : List Text := entries.map toAsciiLowercase

/-- The entries of the first set that are not in the second. -/
def missingEntries (required present : List Text) : List Text := required.filter (· ∉ present)

/-- The check of the allow list, by the setting for its extension. -/
def validateAllowedDomains (parsers : Parsers) (expansion : Option Bool)
    (managed allowed denied : List Text) : Except NetworkProxyConstraintError Unit :=
  let fieldName := "network.allowed_domains".toList
  match expansion with
  | some true =>
    let missing := missingEntries (lowercased managed) (lowercased allowed ++ lowercased denied)
    if missing.isEmpty then .ok ()
    else .error ⟨fieldName, ["missing managed allowed_domains entries".toList], missing⟩
  | some false =>
    let expected := missingEntries (lowercased managed) (lowercased denied)
    if (missingEntries (lowercased allowed) expected).isEmpty ∧
        (missingEntries expected (lowercased allowed)).isEmpty then .ok ()
    else .error ⟨fieldName, allowed, ["must match managed allowed_domains".toList]⟩
  | none =>
    let managedPatterns := managed.map (DomainPattern.parseForConstraints parsers)
    let invalid := allowed.filter fun entry =>
      !managedPatterns.any (·.allows (DomainPattern.parseForConstraints parsers entry))
    if invalid.isEmpty then .ok ()
    else .error ⟨fieldName, invalid, ["subset of managed allowed_domains".toList]⟩

/-- The check of the deny list. -/
def validateDeniedDomains (expansion : Option Bool) (managed denied : List Text) :
    Except NetworkProxyConstraintError Unit :=
  let fieldName := "network.denied_domains".toList
  let missing := missingEntries (lowercased managed) (lowercased denied)
  match expansion with
  | some false =>
    if missing.isEmpty ∧ (missingEntries (lowercased denied) (lowercased managed)).isEmpty then
      .ok ()
    else .error ⟨fieldName, denied, ["must match managed denied_domains".toList]⟩
  | _ =>
    if missing.isEmpty then .ok ()
    else .error ⟨fieldName, ["missing managed denied_domains entries".toList], missing⟩

def validateUnixSockets (managed : Option (List Text)) (candidate : List Text) :
    Except NetworkProxyConstraintError Unit :=
  match managed with
  | none => .ok ()
  | some managed =>
    let invalid := candidate.filter fun entry => toAsciiLowercase entry ∉ lowercased managed
    if invalid.isEmpty then .ok ()
    else .error ⟨"network.allow_unix_sockets".toList, invalid,
      ["subset of managed allow_unix_sockets".toList]⟩

def validateMitmHooks (mitmHookError : Option Text) : Except NetworkProxyConstraintError Unit :=
  match mitmHookError with
  | some err =>
    .error (invalidValue "network.mitm_hooks".toList err "valid MITM hook configuration".toList)
  | none => .ok ()

/-- The allow list, if it is managed. -/
def validateAllowlist (parsers : Parsers) (config : NetworkProxyConfig)
    (constraints : NetworkProxyConstraints) : Except NetworkProxyConstraintError Unit :=
  match constraints.allowedDomains with
  | none => .ok ()
  | some allowedDomains => do
    validateNonGlobalWildcardDomainPatterns parsers "network.allowed_domains".toList allowedDomains
    validateAllowedDomains parsers constraints.allowlistExpansionEnabled allowedDomains
      config.allowedDomains config.deniedDomains

/-- The deny list, if it is managed. -/
def validateDenylist (parsers : Parsers) (config : NetworkProxyConfig)
    (constraints : NetworkProxyConstraints) : Except NetworkProxyConstraintError Unit :=
  match constraints.deniedDomains with
  | none => .ok ()
  | some deniedDomains => do
    validateNonGlobalWildcardDomainPatterns parsers "network.denied_domains".toList deniedDomains
    validateDeniedDomains constraints.denylistExpansionEnabled deniedDomains config.deniedDomains

/-- `validate_policy_against_constraints`. -/
def validatePolicyAgainstConstraints (parsers : Parsers) (config : NetworkProxyConfig)
    (constraints : NetworkProxyConstraints) : Except NetworkProxyConstraintError Unit := do
  validateMitmHooks config.mitmHookError
  validateNonGlobalWildcardDomainPatterns parsers "network.denied_domains".toList
    config.deniedDomains
  validateFlag "network.enabled".toList constraints.enabled config.enabled
  validateMode constraints.mode config.mode
  validateFlag "network.allow_upstream_proxy".toList constraints.allowUpstreamProxy
    config.allowUpstreamProxy
  validateFlag "network.dangerously_allow_non_loopback_proxy".toList
    constraints.dangerouslyAllowNonLoopbackProxy config.dangerouslyAllowNonLoopbackProxy
  validateFlag "network.dangerously_allow_all_unix_sockets".toList
    (some (constraints.dangerouslyAllowAllUnixSockets.getD constraints.allowUnixSockets.isNone))
    config.dangerouslyAllowAllUnixSockets
  validateFlag "network.allow_local_binding".toList constraints.allowLocalBinding
    config.allowLocalBinding
  validateAllowlist parsers config constraints
  validateDenylist parsers config constraints
  validateUnixSockets constraints.allowUnixSockets config.allowUnixSockets

/-! ### What an accepted configuration satisfies -/

variable {managed : List Text}

section

variable {parsers : Parsers} {config : NetworkProxyConfig} {constraints : NetworkProxyConstraints}

lemma validateNonGlobalWildcardDomainPatterns_eq_ok {fieldName : Text} {patterns : List Text} :
    validateNonGlobalWildcardDomainPatterns parsers fieldName patterns = .ok () ↔
      ∀ pattern ∈ patterns, isGlobalWildcardDomainPattern parsers pattern = false := by
  unfold validateNonGlobalWildcardDomainPatterns
  cases hfind : patterns.find? (isGlobalWildcardDomainPattern parsers) with
  | none => simpa using hfind
  | some pattern =>
    simp only [reduceCtorEq, false_iff]
    intro hall
    have hpattern := hall pattern (List.mem_of_find?_eq_some hfind)
    simp [List.find?_some hfind] at hpattern

lemma validateAllowedDomains_none_eq_ok {allowed denied : List Text} :
    validateAllowedDomains parsers none managed allowed denied = .ok () ↔
      ∀ entry ∈ allowed, ∃ pattern ∈ managed, (parseForConstraints parsers pattern).allows
          (parseForConstraints parsers entry) = true := by
  simp [validateAllowedDomains]

lemma missingEntries_eq_nil {required present : List Text} :
    (missingEntries required present).isEmpty ↔ required ⊆ present := by
  simp [missingEntries, List.subset_def]

lemma validateDeniedDomains_eq_ok {expansion : Option Bool} {denied : List Text}
    (h : validateDeniedDomains expansion managed denied = .ok ()) :
    lowercased managed ⊆ lowercased denied := by
  unfold validateDeniedDomains at h
  by_contra hmissing
  rw [← missingEntries_eq_nil] at hmissing
  split at h <;> simp [hmissing] at h

section

variable (h : validatePolicyAgainstConstraints parsers config constraints = .ok ())
include h

/-- The conditions on the domains, from the whole validation. -/
lemma validatePolicyAgainstConstraints_domains :
    validateNonGlobalWildcardDomainPatterns parsers "network.denied_domains".toList
        config.deniedDomains = .ok () ∧ validateAllowlist parsers config constraints = .ok () ∧
      validateDenylist parsers config constraints = .ok () := by
  simp only [validatePolicyAgainstConstraints, except_bind_eq_ok] at h
  obtain ⟨_, -, _, hdenied, _, -, _, -, _, -, _, -, _, -, _, -, _, hallow, _, hdeny, -⟩ := h
  exact ⟨hdenied, hallow, hdeny⟩

/-- Every entry of an accepted allow list is compared with the managed patterns. -/
lemma exists_allows_of_accepted (hmanaged : constraints.allowedDomains = some managed)
    (hexpansion : constraints.allowlistExpansionEnabled = none) :
    ∀ entry ∈ config.allowedDomains, ∃ pattern ∈ managed,
      (parseForConstraints parsers pattern).allows (parseForConstraints parsers entry) = true := by
  have hallow := (validatePolicyAgainstConstraints_domains h).2.1
  simp only [validateAllowlist, hmanaged, hexpansion, except_bind_eq_ok] at hallow
  obtain ⟨_, -, hallowed⟩ := hallow
  exact validateAllowedDomains_none_eq_ok.1 hallowed

/-- An accepted deny list has the managed entries, and none of the two lists has a global
wildcard. -/
lemma denied_of_accepted (hmanaged : constraints.deniedDomains = some managed) :
    lowercased managed ⊆ lowercased config.deniedDomains ∧
      (∀ pattern ∈ managed, isGlobalWildcardDomainPattern parsers pattern = false) ∧
      ∀ pattern ∈ config.deniedDomains, isGlobalWildcardDomainPattern parsers pattern = false := by
  obtain ⟨hwild, -, hdeny⟩ := validatePolicyAgainstConstraints_domains h
  simp only [validateDenylist, hmanaged, except_bind_eq_ok] at hdeny
  obtain ⟨_, hwildManaged, hdenied⟩ := hdeny
  exact ⟨validateDeniedDomains_eq_ok hdenied,
    validateNonGlobalWildcardDomainPatterns_eq_ok.1 hwildManaged,
    validateNonGlobalWildcardDomainPatterns_eq_ok.1 hwild⟩

end

end

end TokenCode.NetworkProxy
