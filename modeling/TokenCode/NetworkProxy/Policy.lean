/-
Domain patterns of the network proxy (`network-proxy/src/policy.rs`).

A pattern is read twice. The allow and deny lists that are enforced are globs: a pattern is
normalised (case, port, brackets, trailing dots) and expanded (`compileGlobsetWithPolicy`). Managed
constraints compare patterns without compiling them: `DomainPattern.parseForConstraints` parses the
domain with the `url` crate, and takes the empty domain for what that rejects.

The parsers of other libraries (`url::Host::parse`, `IpAddr`) are the parameter `Parsers`. Of the
syntax of globs only `?` and `*` is modelled, which is all that a pattern with a host contains.
-/
import TokenCode.Lib.Glob
import TokenCode.Lib.Text

namespace TokenCode.NetworkProxy

/-- What the policy takes from other libraries. -/
structure Parsers where
  /-- `str::parse::<IpAddr>` succeeds. -/
  isIpAddr : Text → Bool
  /-- `url::Host::parse`, printed again. -/
  urlHost : Text → Option Text

/-- `to_ascii_lowercase`. -/
def toAsciiLowercase (text : Text) : Text := text.map Char.toLower

/-- `trim_end_matches('.')`. -/
def trimEndDots (text : Text) : Text := text.rdropWhile (· == '.')

/-- `str::split_once`. -/
def splitOnce (delimiter : Text) : Text → Option (Text × Text)
  | [] => if delimiter = [] then some ([], []) else none
  | c :: rest =>
    if delimiter <+: c :: rest then some ([], (c :: rest).drop delimiter.length)
    else (splitOnce delimiter rest).map fun (before, after) => (c :: before, after)

inductive DomainPattern where
  | apexAndSubdomains (domain : Text)
  | subdomainsOnly (domain : Text)
  | exact (domain : Text)
deriving DecidableEq, Repr

/-- The wildcard at the start of a pattern. -/
inductive Wildcard where
  | none
  | subdomainsOnly
  | apexAndSubdomains
deriving DecidableEq, Repr

namespace Wildcard

def text : Wildcard → Text
  | none => []
  | subdomainsOnly => "*.".toList
  | apexAndSubdomains => "**.".toList

/-- The pattern with the wildcard and a domain. -/
def pattern : Wildcard → Text → DomainPattern
  | none => .exact
  | subdomainsOnly => .subdomainsOnly
  | apexAndSubdomains => .apexAndSubdomains

end Wildcard

/-- `strip_prefix("**.")`, and `strip_prefix("*.")` if that fails. -/
def stripWildcard (pattern : Text) : Wildcard × Text :=
  match pattern.dropPrefix? "**.".toList, pattern.dropPrefix? "*.".toList with
  | some domain, _ => (.apexAndSubdomains, domain)
  | none, some domain => (.subdomainsOnly, domain)
  | none, none => (.none, pattern)

section

variable (parsers : Parsers)

def normalizeIpLiteral (host : Text) : Option Text :=
  if parsers.isIpAddr host then some host
  else
    ["%25".toList, "%".toList].findSome? fun delimiter =>
      match splitOnce delimiter host with
      | some (ip, scope) => if parsers.isIpAddr ip then some (ip ++ '%' :: scope) else none
      | none => none

def normalizeDnsHostOrIpLiteral (host : Text) : Text :=
  let host := trimEndDots (toAsciiLowercase host)
  (normalizeIpLiteral parsers host).getD host

def normalizeHost (host : Text) : Text :=
  let host := Text.trim host
  if host.head? = some '[' ∧ ']' ∈ host then
    normalizeDnsHostOrIpLiteral parsers (host.takeWhile (· ≠ ']')).tail
  else if host.count ':' = 1 then
    normalizeDnsHostOrIpLiteral parsers (host.takeWhile (· ≠ ':'))
  else normalizeDnsHostOrIpLiteral parsers host

def normalizePattern (pattern : Text) : Text :=
  let pattern := Text.trim pattern
  if pattern = ['*'] then ['*']
  else (stripWildcard pattern).1.text ++ normalizeHost parsers (stripWildcard pattern).2

end

/-! ### Patterns as data -/

def normalizeDomain (domain : Text) : Text := toAsciiLowercase (trimEndDots domain)

def domainEq (left right : Text) : Bool := normalizeDomain left == normalizeDomain right

def isSubdomainOrEqual (child parent : Text) : Bool :=
  normalizeDomain child == normalizeDomain parent ||
    ('.' :: normalizeDomain parent).isSuffixOf (normalizeDomain child)

def isStrictSubdomain (child parent : Text) : Bool :=
  normalizeDomain child != normalizeDomain parent &&
    ('.' :: normalizeDomain parent).isSuffixOf (normalizeDomain child)

namespace DomainPattern

/-- `parse_domain`. -/
def parseDomain (domain : Text) (build : Text → DomainPattern) : DomainPattern :=
  let domain := Text.trim domain
  if domain = [] then exact [] else build domain

def parse (input : Text) : DomainPattern :=
  let input := Text.trim input
  if input = [] then exact []
  else
    match stripWildcard input with
    | (.none, _) => exact input
    | (wildcard, domain) => parseDomain domain wildcard.pattern

/-- `parse_domain_for_constraints`: what `url::Host::parse` rejects becomes the empty domain. -/
def parseDomainForConstraints (parsers : Parsers) (domain : Text) : Text :=
  let domain := trimEndDots (Text.trim domain)
  if domain = [] then []
  else
    let host :=
      if domain.head? = some '[' ∧ domain.getLast? = some ']' then domain.tail.dropLast else domain
    if '*' ∈ host ∨ '?' ∈ host ∨ '%' ∈ host then domain
    else (parsers.urlHost host).getD []

def parseForConstraints (parsers : Parsers) (input : Text) : DomainPattern :=
  let input := Text.trim input
  if input = [] then exact []
  else
    (stripWildcard input).1.pattern (parseDomainForConstraints parsers (stripWildcard input).2)

def allows : DomainPattern → DomainPattern → Bool
  | exact domain, exact candidate => domainEq candidate domain
  | exact _, _ => false
  | subdomainsOnly domain, exact candidate => isStrictSubdomain candidate domain
  | subdomainsOnly domain, subdomainsOnly candidate => isSubdomainOrEqual candidate domain
  | subdomainsOnly domain, apexAndSubdomains candidate => isStrictSubdomain candidate domain
  | apexAndSubdomains domain, exact candidate => isSubdomainOrEqual candidate domain
  | apexAndSubdomains domain, subdomainsOnly candidate => isSubdomainOrEqual candidate domain
  | apexAndSubdomains domain, apexAndSubdomains candidate => isSubdomainOrEqual candidate domain

end DomainPattern

/-! ### Compiled lists -/

/-- `expand_domain_pattern`. -/
def expandDomainPattern (pattern : Text) : List Text :=
  match DomainPattern.parse pattern with
  | .exact domain => [domain]
  | .subdomainsOnly domain => ["?*.".toList ++ domain]
  | .apexAndSubdomains domain => [domain, "?*.".toList ++ domain]

def isGlobalWildcardDomainPattern (parsers : Parsers) (pattern : Text) : Bool :=
  (expandDomainPattern (normalizePattern parsers pattern)).any (· == ['*'])

inductive GlobalWildcard where
  | allow
  | reject
deriving DecidableEq, Repr

/-- A set of globs, by their texts. -/
abbrev GlobSet := List Text

/-- The message for a list that may not contain `*`. -/
def globalWildcardError : Text :=
  ("unsupported global wildcard domain pattern \"*\"; use exact hosts or scoped wildcards like " ++
    "*.example.com or **.example.com").toList

/-- One pattern in `compile_globset_with_policy`: its candidates that have not been seen. -/
def addPattern (parsers : Parsers) (globs : GlobSet) (pattern : Text) : GlobSet :=
  (expandDomainPattern (normalizePattern parsers pattern)).foldl
    (fun globs candidate => if candidate ∈ globs then globs else globs ++ [candidate]) globs

def compileGlobsetWithPolicy (parsers : Parsers) (patterns : List Text)
    (globalWildcard : GlobalWildcard) : Except Text GlobSet :=
  patterns.foldlM (fun globs pattern =>
    if globalWildcard = .reject ∧ isGlobalWildcardDomainPattern parsers pattern then
      .error globalWildcardError
    else .ok (addPattern parsers globs pattern)) []

def compileAllowlistGlobset (parsers : Parsers) (patterns : List Text) : Except Text GlobSet :=
  compileGlobsetWithPolicy parsers patterns .allow

def compileDenylistGlobset (parsers : Parsers) (patterns : List Text) : Except Text GlobSet :=
  compileGlobsetWithPolicy parsers patterns .reject

/-- A character of a glob. -/
def globToken (c : Char) : GlobToken Char :=
  if c = '?' then .any else if c = '*' then .zeroOrMore else .literal c

/-- Matching with `case_insensitive(true)`. -/
def globIsMatch (glob host : Text) : Bool :=
  GlobToken.isMatch ((toAsciiLowercase glob).map globToken) (toAsciiLowercase host)

def GlobSet.isMatch (globs : GlobSet) (host : Text) : Bool := globs.any (globIsMatch · host)

end TokenCode.NetworkProxy
