/-
Whether an accepted configuration stays within the managed one.

On domains in normal form `DomainPattern.allows` is containment of the sets of hosts
(`DomainPattern.covered_iff`). The deny list of an accepted configuration therefore always contains
the managed one, and its allow list stays within the managed one as far as the constraints see the
hosts. For patterns with a port, or with an IPv6 address, they see the empty domain and accept any
host for any other (`accepted_within_managed_iff`).
-/
import TokenCode.NetworkProxy.Constraints
import TokenCode.NetworkProxy.HostPattern

namespace TokenCode.NetworkProxy

open List DomainPattern

/-! ### Patterns as sets of hosts -/

/-- A domain in normal form. -/
structure NormalDomain (domain : Text) : Prop where
  lowercase : toAsciiLowercase domain = domain
  head : domain.head? ≠ some '.'
  last : domain.getLast? ≠ some '.'

variable {pattern part : DomainPattern} {host d : Text}

namespace DomainPattern

def domain : DomainPattern → Text
  | apexAndSubdomains domain => domain
  | subdomainsOnly domain => domain
  | exact domain => domain

/-- The host itself, its strict subdomains, or both. -/
def Matches (pattern : DomainPattern) (host : Text) : Prop :=
  match pattern with
  | exact domain => toAsciiLowercase host = domain
  | subdomainsOnly domain => toAsciiLowercase host ∈ Below '.' domain
  | apexAndSubdomains domain =>
    toAsciiLowercase host = domain ∨ toAsciiLowercase host ∈ Below '.' domain

/-- The parts that are compiled to one glob each. -/
def parts : DomainPattern → List DomainPattern
  | apexAndSubdomains domain => [exact domain, subdomainsOnly domain]
  | pattern => [pattern]

lemma matches_iff_parts : pattern.Matches host ↔ ∃ part ∈ pattern.parts, part.Matches host := by
  cases pattern <;> simp [parts, Matches]

lemma domain_of_mem_parts (h : part ∈ pattern.parts) :
    part.domain = pattern.domain ∧ ∀ domain, part ≠ apexAndSubdomains domain := by
  cases pattern <;> simp only [parts, mem_cons, not_mem_nil, or_false] at h
  case apexAndSubdomains domain => rcases h with rfl | rfl <;> exact ⟨rfl, nofun⟩
  case subdomainsOnly domain =>
    subst h
    exact ⟨rfl, nofun⟩
  case exact domain =>
    subst h
    exact ⟨rfl, nofun⟩

section

variable {c d : Text}

lemma normalizeDomain_of_normal (h : NormalDomain d) : normalizeDomain d = d := by
  rw [normalizeDomain, trimEndDots_of_getLast? h.last, h.lowercase]

variable (hc : NormalDomain c)
include hc

lemma suffix_iff_mem_below : '.' :: d <:+ c ↔ c ∈ Below '.' d := by
  constructor
  · rintro ⟨front, rfl⟩
    refine ⟨front, ?_, rfl⟩
    rintro rfl
    exact hc.head rfl
  · rintro ⟨front, -, rfl⟩
    exact suffix_append front _

variable (hd : NormalDomain d)
include hd

lemma isSubdomainOrEqual_iff : isSubdomainOrEqual c d = true ↔ c = d ∨ c ∈ Below '.' d := by
  simp [isSubdomainOrEqual, normalizeDomain_of_normal hc, normalizeDomain_of_normal hd,
    suffix_iff_mem_below hc]

lemma isStrictSubdomain_iff : isStrictSubdomain c d = true ↔ c ∈ Below '.' d := by
  have hne : c ∈ Below '.' d → c ≠ d := by
    rintro ⟨front, -, hfront⟩ rfl
    have hlength := congrArg List.length hfront
    simp only [length_append, length_cons] at hlength
    omega
  simp only [isStrictSubdomain, normalizeDomain_of_normal hc, normalizeDomain_of_normal hd,
    Bool.and_eq_true, bne_iff_ne, isSuffixOf_iff_suffix, suffix_iff_mem_below hc]
  exact and_iff_right_of_imp hne

lemma domainEq_iff : domainEq c d = true ↔ c = d := by
  simp [domainEq, normalizeDomain_of_normal hc, normalizeDomain_of_normal hd]

end

variable {managed candidate : DomainPattern} (hm : NormalDomain managed.domain)
include hm

/-- What a managed pattern allows lies within it. -/
lemma matches_of_allows (hc : NormalDomain candidate.domain)
    (hallows : managed.allows candidate = true) (h : candidate.Matches host) :
    managed.Matches host := by
  cases managed <;> cases candidate <;> simp only [allows, domain, Matches] at *
  case apexAndSubdomains.apexAndSubdomains =>
    rcases (isSubdomainOrEqual_iff hc hm).1 hallows with rfl | hbelow
    · exact h
    · rcases h with rfl | h
      exacts [.inr hbelow, .inr (mem_below_trans h hbelow)]
  case apexAndSubdomains.subdomainsOnly =>
    rcases (isSubdomainOrEqual_iff hc hm).1 hallows with rfl | hbelow
    exacts [.inr h, .inr (mem_below_trans h hbelow)]
  case apexAndSubdomains.exact =>
    exact h ▸ (isSubdomainOrEqual_iff hc hm).1 hallows
  case subdomainsOnly.apexAndSubdomains =>
    have hbelow := (isStrictSubdomain_iff hc hm).1 hallows
    rcases h with rfl | h
    exacts [hbelow, mem_below_trans h hbelow]
  case subdomainsOnly.subdomainsOnly =>
    rcases (isSubdomainOrEqual_iff hc hm).1 hallows with rfl | hbelow
    exacts [h, mem_below_trans h hbelow]
  case subdomainsOnly.exact => exact h ▸ (isStrictSubdomain_iff hc hm).1 hallows
  case exact.apexAndSubdomains => exact absurd hallows nofun
  case exact.subdomainsOnly => exact absurd hallows nofun
  case exact.exact => exact h.trans ((domainEq_iff hc hm).1 hallows)

/-- A single host that matches within an exact pattern. -/
lemma allows_exact_of_matches (hd : NormalDomain d)
    (h : managed.Matches d) : managed.allows (exact d) = true := by
  cases managed <;> simp only [Matches, domain, hd.lowercase] at h hm
  case apexAndSubdomains => exact (isSubdomainOrEqual_iff hd hm).2 h
  case subdomainsOnly => exact (isStrictSubdomain_iff hd hm).2 h
  case exact => exact (domainEq_iff hd hm).2 h

omit hm in
/-- A subdomain in one label of lower case letters. -/
lemma toAsciiLowercase_label (n : ℕ) (hd : NormalDomain d) :
    toAsciiLowercase (List.replicate (n + 1) 'a' ++ '.' :: d) =
      List.replicate (n + 1) 'a' ++ '.' :: d := by
  have hdlower := hd.lowercase
  simp only [toAsciiLowercase] at hdlower
  simp [toAsciiLowercase, hdlower]

/-- A long subdomain in one label: what matches it allows all subdomains. -/
lemma allows_subdomainsOnly_of_matches {n : ℕ}
    (hd : NormalDomain d) (hlong : managed.domain.length < n + 1)
    (h : managed.Matches (List.replicate (n + 1) 'a' ++ '.' :: d)) :
    managed.allows (subdomainsOnly d) = true := by
  have hlower := toAsciiLowercase_label n hd
  have hdots : '.' ∉ List.replicate (n + 1) 'a' := by simp
  have hne : List.replicate (n + 1) 'a' ++ '.' :: d ≠ managed.domain := by
    intro heq
    have hlength := congrArg List.length heq
    simp only [length_append, length_replicate, length_cons] at hlength
    omega
  have hbelow : ∀ e : Text, List.replicate (n + 1) 'a' ++ '.' :: d ∈ Below '.' e →
      d = e ∨ d ∈ Below '.' e := fun e he =>
    (eq_or_mem_below_of_front hdots he).imp_right (suffix_iff_mem_below hd).1
  cases managed <;> simp only [Matches, hlower] at h <;> simp only [domain] at hm hne
  case apexAndSubdomains =>
    exact (isSubdomainOrEqual_iff hd hm).2 (hbelow _ (h.resolve_left hne))
  case subdomainsOnly => exact (isSubdomainOrEqual_iff hd hm).2 (hbelow _ h)
  case exact => exact absurd h hne

omit hm

/-- **Containment of patterns.**  A part of a pattern lies within some managed patterns together
exactly if one of them allows it. -/
theorem covered_iff {patterns : List DomainPattern}
    (hpatterns : ∀ managed ∈ patterns, NormalDomain managed.domain)
    (hpart : NormalDomain part.domain) (hapex : ∀ domain, part ≠ apexAndSubdomains domain) :
    (∀ host, part.Matches host → ∃ managed ∈ patterns, managed.Matches host) ↔
      ∃ managed ∈ patterns, managed.allows part = true := by
  constructor
  · intro hcovered
    cases part with
    | apexAndSubdomains domain => exact absurd rfl (hapex domain)
    | exact domain =>
      obtain ⟨managed, hmem, hmatches⟩ := hcovered domain hpart.lowercase
      exact ⟨managed, hmem, allows_exact_of_matches (hpatterns managed hmem) hpart hmatches⟩
    | subdomainsOnly d =>
      obtain ⟨n, hlong⟩ := exists_length_lt (patterns.map domain)
      obtain ⟨managed, hmem, hmatches⟩ := hcovered (List.replicate (n + 1) 'a' ++ '.' :: d)
        ⟨List.replicate (n + 1) 'a', by simp, toAsciiLowercase_label n hpart⟩
      exact ⟨managed, hmem, allows_subdomainsOnly_of_matches (hpatterns managed hmem) hpart
        (hlong _ (mem_map_of_mem hmem)) hmatches⟩
  · rintro ⟨managed, hmem, hallows⟩ host hmatches
    exact ⟨managed, hmem, matches_of_allows (hpatterns managed hmem) hpart hallows hmatches⟩

end DomainPattern

/-! ### Compiled patterns as sets of hosts -/

lemma map_globToken {text : Text} (h : ∀ c ∈ text, IsNameChar c) :
    text.map globToken = text.map .literal := by
  refine map_congr_left fun c hc => ?_
  obtain ⟨-, hstar, hquestion, -⟩ := (h c hc).plain
  simp [globToken, hstar, hquestion]

variable {domain : Text}

/-- A name is a glob that matches itself, and after `?*.` its strict subdomains. -/
lemma globIsMatch_name (hchars : ∀ c ∈ domain, IsNameChar c)
    (hlower : toAsciiLowercase domain = domain) (host : Text) :
    (globIsMatch domain host = true ↔ toAsciiLowercase host = domain) ∧
      (globIsMatch ("?*.".toList ++ domain) host = true ↔
        toAsciiLowercase host ∈ Below '.' domain) := by
  have hwild : toAsciiLowercase ("?*.".toList ++ domain) = '?' :: '*' :: ('.' :: domain) := by
    rw [toAsciiLowercase, map_append]
    change _ ++ toAsciiLowercase domain = _
    rw [hlower]
    rfl
  have htokens : ('?' :: '*' :: ('.' :: domain)).map globToken =
      .any :: .zeroOrMore :: ('.' :: domain).map .literal := by
    rw [map_cons, map_cons, map_globToken]
    · rfl
    · intro c hc
      rcases mem_cons.1 hc with rfl | hc
      exacts [by decide, hchars c hc]
  constructor
  · rw [globIsMatch, hlower, map_globToken hchars, GlobToken.isMatch_map_literal]
  · rw [globIsMatch, hwild, htokens, GlobToken.isMatch_any_zeroOrMore]
    rfl

namespace HostPattern

variable {parsers : Parsers} {pattern : HostPattern}

lemma domain_reading (pattern : HostPattern) : pattern.reading.domain = pattern.host := by
  unfold reading
  cases pattern.wildcard <;> rfl

variable (hwf : pattern.WellFormed parsers)
include hwf

lemma WellFormed.normalDomain : NormalDomain pattern.reading.domain := by
  rw [domain_reading]
  exact ⟨toAsciiLowercase_toAsciiLowercase _, hwf.head_host, pattern.last_host⟩

/-- The compiled lists read a pattern by its host. -/
lemma WellFormed.patternMatches_iff (host : Text) :
    PatternMatches parsers pattern.text host ↔ pattern.reading.Matches host := by
  obtain ⟨hexact, hbelow⟩ := globIsMatch_name (fun _ => hwf.mem_host)
    (toAsciiLowercase_toAsciiLowercase _) host
  have hread := hwf.parse_normalized
  unfold PatternMatches expandDomainPattern
  rw [hwf.normalizePattern_text, hread]
  unfold reading
  cases pattern.wildcard <;> simp [Wildcard.pattern, DomainPattern.Matches]
  exacts [hexact, hbelow, or_congr hexact hbelow]

end HostPattern

/-! ### Accepted configurations -/

section

variable {parsers : Parsers} {config : NetworkProxyConfig} {constraints : NetworkProxyConstraints}
  {allowed managed : List HostPattern}

/-- The compiled allow lists, as sets of hosts. -/
lemma isMatch_allowlist {patterns : List HostPattern}
    (hwf : ∀ pattern ∈ patterns, pattern.WellFormed parsers) {globs : GlobSet}
    (h : compileAllowlistGlobset parsers (patterns.map HostPattern.text) = .ok globs)
    (host : Text) :
    globs.isMatch host = true ↔ ∃ pattern ∈ patterns, pattern.reading.Matches host := by
  rw [compileAllowlistGlobset_eq] at h
  obtain rfl := Except.ok.inj h
  rw [isMatch_compiled]
  simp only [mem_map, exists_exists_and_eq_and]
  exact exists_congr fun pattern => and_congr_right fun hmem =>
    (hwf pattern hmem).patternMatches_iff host

open DomainPattern in
/-- The empty domain has no subdomains in normal form. -/
lemma not_allows_of_empty (wildcard other : Wildcard) (hd : NormalDomain domain)
    (hne : domain ≠ []) : ¬ (wildcard.pattern []).allows (other.pattern domain) = true := by
  have hempty : NormalDomain [] := ⟨rfl, nofun, nofun⟩
  have hbelow : domain ∉ Below '.' [] := by
    rintro ⟨front, -, rfl⟩
    exact hd.last (by simp)
  cases wildcard <;> cases other <;>
    simp [Wildcard.pattern, allows, domainEq_iff hd hempty, isSubdomainOrEqual_iff hd hempty,
      isStrictSubdomain_iff hd hempty, hne, hbelow]

/-- A pattern whose host the constraints see lies within the pattern that allows it. -/
lemma matches_of_readable (hcolons : parsers.RejectsColons) {entry pattern : HostPattern}
    (hentry : entry.WellFormed parsers) (hpattern : pattern.WellFormed parsers)
    (hreadable : entry.Readable) (hallows : (parseForConstraints parsers pattern.text).allows
      (parseForConstraints parsers entry.text) = true) :
    pattern.reading.allows entry.reading = true := by
  rw [hentry.parseForConstraints_text hcolons, hpattern.parseForConstraints_text hcolons,
    if_pos hreadable] at hallows
  by_cases hother : pattern.Readable
  · rwa [if_pos hother] at hallows
  · rw [if_neg hother] at hallows
    exact absurd hallows (not_allows_of_empty _ _ (entry.domain_reading ▸ hentry.normalDomain)
      hentry.host_ne_nil)

/-- The deny list contains the managed one. -/
lemma isMatch_denylist {deniedDomains : List Text}
    (haccept : validatePolicyAgainstConstraints parsers config constraints = .ok ())
    (hdenied : constraints.deniedDomains = some deniedDomains) :
    ∃ managedDeny deny, compileDenylistGlobset parsers deniedDomains = .ok managedDeny ∧
      compileDenylistGlobset parsers config.deniedDomains = .ok deny ∧
      ∀ host, managedDeny.isMatch host = true → deny.isMatch host = true := by
  obtain ⟨hsubset, hmanaged, hconfig⟩ := denied_of_accepted haccept hdenied
  refine ⟨_, _, compileDenylistGlobset_eq hmanaged, compileDenylistGlobset_eq hconfig, ?_⟩
  intro host hmatch
  rw [isMatch_compiled] at hmatch ⊢
  obtain ⟨pattern, hmem, hpattern⟩ := hmatch
  obtain ⟨entry, hentry, heq⟩ := mem_map.1 (hsubset (mem_map_of_mem hmem))
  exact ⟨entry, hentry, (patternMatches_congr heq host).2 hpattern⟩

/-- The allow list stays within the managed one if the unreadable entries do. -/
lemma allowlist_within_iff (hcolons : parsers.RejectsColons)
    (hallowed : ∀ pattern ∈ allowed, pattern.WellFormed parsers)
    (hmanaged : ∀ pattern ∈ managed, pattern.WellFormed parsers)
    (hchecked : ∀ entry ∈ allowed, ∃ pattern ∈ managed,
      (parseForConstraints parsers pattern.text).allows
        (parseForConstraints parsers entry.text) = true) :
    (∀ host, (∃ entry ∈ allowed, entry.reading.Matches host) →
        ∃ pattern ∈ managed, pattern.reading.Matches host) ↔
      ∀ entry ∈ allowed, ¬ entry.Readable → ∀ part ∈ entry.reading.parts,
        ∃ pattern ∈ managed, pattern.reading.allows part = true := by
  have hnormal : ∀ other ∈ managed.map HostPattern.reading, NormalDomain other.domain := by
    intro other hother
    obtain ⟨pattern, hmem, rfl⟩ := mem_map.1 hother
    exact (hmanaged pattern hmem).normalDomain
  have hpart : ∀ entry ∈ allowed, ∀ part ∈ entry.reading.parts,
      ((∀ host, part.Matches host → ∃ pattern ∈ managed, pattern.reading.Matches host) ↔
        ∃ pattern ∈ managed, pattern.reading.allows part = true) := by
    intro entry hentry part hmem
    obtain ⟨hdomain, hapex⟩ := domain_of_mem_parts hmem
    have hcovered := covered_iff hnormal (hdomain ▸ (hallowed entry hentry).normalDomain) hapex
    simpa using hcovered
  constructor
  · intro hwithin entry hentry _ part hmem
    refine (hpart entry hentry part hmem).1 fun host hmatches => hwithin host ⟨entry, hentry, ?_⟩
    exact matches_iff_parts.2 ⟨part, hmem, hmatches⟩
  · rintro hunreadable host ⟨entry, hentry, hmatches⟩
    by_cases hreadable : entry.Readable
    · obtain ⟨pattern, hpattern, hallows⟩ := hchecked entry hentry
      exact ⟨pattern, hpattern, matches_of_allows
        (hmanaged pattern hpattern).normalDomain (hallowed entry hentry).normalDomain
        (matches_of_readable hcolons (hallowed entry hentry) (hmanaged pattern hpattern) hreadable
          hallows) hmatches⟩
    · obtain ⟨part, hmem, hmatch⟩ := matches_iff_parts.1 hmatches
      exact (hpart entry hentry part hmem).2 (hunreadable entry hentry hreadable part hmem) host
        hmatch

end

/-- **When an accepted configuration stays within the managed one.**  Its deny list always contains
the managed one.  Its allow list lies within the managed one exactly if every part of an entry with a
port or with an IPv6 address is allowed by a managed pattern, both read as they are compiled. -/
theorem accepted_within_managed_iff (parsers : Parsers) (hcolons : parsers.RejectsColons)
    (config : NetworkProxyConfig) (constraints : NetworkProxyConstraints)
    (allowed managed : List HostPattern) (deniedDomains : List Text)
    (hallowed : ∀ pattern ∈ allowed, pattern.WellFormed parsers)
    (hmanaged : ∀ pattern ∈ managed, pattern.WellFormed parsers)
    (hconfig : config.allowedDomains = allowed.map HostPattern.text)
    (hconstraints : constraints.allowedDomains = some (managed.map HostPattern.text))
    (hexpansion : constraints.allowlistExpansionEnabled = none)
    (hdenied : constraints.deniedDomains = some deniedDomains)
    (haccept : validatePolicyAgainstConstraints parsers config constraints = .ok ()) :
    (∃ allow managedAllow deny managedDeny,
      compileAllowlistGlobset parsers config.allowedDomains = .ok allow ∧
      compileAllowlistGlobset parsers (managed.map HostPattern.text) = .ok managedAllow ∧
      compileDenylistGlobset parsers config.deniedDomains = .ok deny ∧
      compileDenylistGlobset parsers deniedDomains = .ok managedDeny ∧
      (∀ host, allow.isMatch host = true → managedAllow.isMatch host = true) ∧
      ∀ host, managedDeny.isMatch host = true → deny.isMatch host = true) ↔
    ∀ entry ∈ allowed, ¬ entry.Readable → ∀ part ∈ entry.reading.parts,
      ∃ pattern ∈ managed, pattern.reading.allows part = true := by
  have hchecked := exists_allows_of_accepted haccept hconstraints hexpansion
  rw [hconfig] at hchecked ⊢
  simp only [mem_map, forall_exists_index, and_imp, forall_apply_eq_imp_iff₂,
    exists_exists_and_eq_and] at hchecked
  rw [← allowlist_within_iff hcolons hallowed hmanaged hchecked]
  constructor
  · rintro ⟨allow, managedAllow, -, -, hallow, hmanagedAllow, -, -, hwithin, -⟩ host hmatches
    rw [← isMatch_allowlist hmanaged hmanagedAllow]
    exact hwithin host ((isMatch_allowlist hallowed hallow host).2 hmatches)
  · intro hwithin
    obtain ⟨managedDeny, deny, hmanagedDeny, hdeny, hcontains⟩ := isMatch_denylist haccept hdenied
    refine ⟨_, _, deny, managedDeny, compileAllowlistGlobset_eq _ _, compileAllowlistGlobset_eq _ _,
      hdeny, hmanagedDeny, fun host hmatch => ?_, hcontains⟩
    rw [isMatch_allowlist hmanaged (compileAllowlistGlobset_eq _ _)]
    exact hwithin host ((isMatch_allowlist hallowed (compileAllowlistGlobset_eq _ _) host).1 hmatch)

/-! ### Examples -/

/-- Parsers that know no addresses and accept every text without colons. -/
def plainParsers : Parsers where
  isIpAddr _ := false
  urlHost text :=
    if ':' ∈ text ∧ ¬ (text.head? = some '[' ∧ text.getLast? = some ']') then none
    else some (toAsciiLowercase text)

lemma plainParsers_rejectsColons : plainParsers.RejectsColons := fun _ hcolon hends =>
  if_pos ⟨hcolon, hends⟩

/-- A configuration that only has an allow list. -/
def allowConfig (pattern : HostPattern) : NetworkProxyConfig where
  enabled := true
  mode := .full
  allowUpstreamProxy := false
  dangerouslyAllowNonLoopbackProxy := false
  dangerouslyAllowAllUnixSockets := false
  allowLocalBinding := false
  domains := [⟨pattern.text, .allow⟩]
  allowUnixSockets := []
  mitmHookError := none

/-- Constraints that only manage the two lists. -/
def allowConstraints (pattern : HostPattern) : NetworkProxyConstraints where
  allowedDomains := some [pattern.text]
  deniedDomains := some []

/-- `**.example.com` allows `api.example.com.`, whose last dot does not count. -/
theorem accepted_within_managed_example : ∃ allow managedAllow deny managedDeny,
      compileAllowlistGlobset plainParsers
        (allowConfig ⟨.none, .domain, "api.example.com.".toList, none⟩).allowedDomains = .ok allow ∧
      compileAllowlistGlobset plainParsers
        ([⟨.apexAndSubdomains, .domain, "example.com".toList, none⟩].map HostPattern.text) =
          .ok managedAllow ∧ compileDenylistGlobset plainParsers
        (allowConfig ⟨.none, .domain, "api.example.com.".toList, none⟩).deniedDomains = .ok deny ∧
      compileDenylistGlobset plainParsers [] = .ok managedDeny ∧
      (∀ host, allow.isMatch host = true → managedAllow.isMatch host = true) ∧
      ∀ host, managedDeny.isMatch host = true → deny.isMatch host = true := by
  have hwf : ∀ (wildcard : Wildcard) (name : Text), name ≠ [] → name.head? ≠ some '.' →
      (∀ c ∈ name, IsNameChar c) → ':' ∉ name →
        HostPattern.WellFormed plainParsers ⟨wildcard, .domain, name, none⟩ := by
    intro wildcard name hne hhead hchars hcolon
    exact ⟨hne, hhead, hchars, nofun, hcolon,
      if_neg fun h => hcolon ((List.rdropWhile_prefix _ _).subset h.1)⟩
  refine (accepted_within_managed_iff plainParsers plainParsers_rejectsColons
    (allowConfig ⟨.none, .domain, "api.example.com.".toList, none⟩)
    (allowConstraints ⟨.apexAndSubdomains, .domain, "example.com".toList, none⟩)
    [⟨.none, .domain, "api.example.com.".toList, none⟩]
    [⟨.apexAndSubdomains, .domain, "example.com".toList, none⟩] [] ?_ ?_ rfl rfl rfl rfl ?_).2 ?_
  · simpa using hwf .none "api.example.com.".toList (by decide) (by decide)
      (by simp [IsNameChar]) (by decide)
  · simpa using hwf .apexAndSubdomains "example.com".toList (by decide) (by decide)
      (by simp [IsNameChar]) (by decide)
  · decide +kernel
  · simp [HostPattern.Readable]

/-- With a port, the managed list says nothing: `good.com:443` lets `evil.com:443` pass. -/
theorem accepted_beyond_managed : plainParsers.RejectsColons ∧
      validatePolicyAgainstConstraints plainParsers
        (allowConfig ⟨.none, .domain, "evil.com".toList, some "443".toList⟩)
        (allowConstraints ⟨.none, .domain, "good.com".toList, some "443".toList⟩) = .ok () ∧
      ∃ allow managedAllow, compileAllowlistGlobset plainParsers
          (allowConfig ⟨.none, .domain, "evil.com".toList, some "443".toList⟩).allowedDomains =
            .ok allow ∧
        compileAllowlistGlobset plainParsers ["good.com:443".toList] = .ok managedAllow ∧
        allow.isMatch "evil.com".toList = true ∧ managedAllow.isMatch "evil.com".toList = false :=
  ⟨plainParsers_rejectsColons, by decide +kernel, _, _, compileAllowlistGlobset_eq _ _,
    compileAllowlistGlobset_eq _ _, by decide +kernel, by decide +kernel⟩

end TokenCode.NetworkProxy
