/-
Patterns with a host, and the two ways in which they are read.

A host is a domain that the `url` crate accepts, or an IPv6 address, in brackets or not; it may be
followed by a port, and a wildcard may stand before it. The compiled lists always see the host
(`patternMatches_iff`). The comparison with the constraints sees it only if it is a domain without
a port; otherwise it sees the empty domain (`parseForConstraints_text`).
-/
import TokenCode.NetworkProxy.Compiled

namespace TokenCode.NetworkProxy

open List

/-! ### Hosts -/

/-- The characters of hosts and ports: letters, digits and `-`, `.`, `:`, `_`. -/
def IsNameChar (c : Char) : Prop :=
  97 ≤ c.toNat ∧ c.toNat ≤ 122 ∨ 65 ≤ c.toNat ∧ c.toNat ≤ 90 ∨ 48 ≤ c.toNat ∧ c.toNat ≤ 58 ∨
    c.toNat = 45 ∨ c.toNat = 46 ∨ c.toNat = 95

instance (c : Char) : Decidable (IsNameChar c) := inferInstanceAs (Decidable (_ ∨ _))

/-- How a host is written. -/
inductive HostForm where
  | domain
  | bracketed
  | bareIpv6
deriving DecidableEq, Repr

structure HostPattern where
  wildcard : Wildcard
  form : HostForm
  name : Text
  port : Option Text
deriving DecidableEq, Repr

namespace HostPattern

/-- The port with its colon. -/
def portText (pattern : HostPattern) : Text := pattern.port.elim [] (':' :: ·)

/-- The host with its brackets and port. -/
def hostText (pattern : HostPattern) : Text :=
  match pattern.form with
  | .bracketed => '[' :: (pattern.name ++ ']' :: pattern.portText)
  | _ => pattern.name ++ pattern.portText

def text (pattern : HostPattern) : Text := pattern.wildcard.text ++ pattern.hostText

/-- The host that the compiled lists see: dots at its end do not count. -/
def host (pattern : HostPattern) : Text := toAsciiLowercase (trimEndDots pattern.name)

/-- The pattern that the compiled lists see. -/
def reading (pattern : HostPattern) : DomainPattern := pattern.wildcard.pattern pattern.host

/-- The comparison with the constraints sees the host. -/
def Readable (pattern : HostPattern) : Prop := pattern.form = .domain ∧ pattern.port = none

instance (pattern : HostPattern) : Decidable pattern.Readable := inferInstanceAs (Decidable (_ ∧ _))

/-- A host in one of the three forms, with a port of digits. -/
structure WellFormed (parsers : Parsers) (pattern : HostPattern) : Prop where
  name_ne_nil : pattern.name ≠ []
  head : pattern.name.head? ≠ some '.'
  chars : ∀ c ∈ pattern.name, IsNameChar c
  port : ∀ port ∈ pattern.port, ∀ c ∈ port, 48 ≤ c.toNat ∧ c.toNat ≤ 57
  form : match pattern.form with
    | .domain => ':' ∉ pattern.name ∧ parsers.urlHost (trimEndDots pattern.name) = some pattern.host
    | .bracketed => ':' ∈ pattern.name
    | .bareIpv6 => 2 ≤ pattern.name.count ':' ∧ pattern.port = none

end HostPattern

/-- `url::Host::parse` rejects a text with a colon outside brackets. -/
def Parsers.RejectsColons (parsers : Parsers) : Prop :=
  ∀ text : Text, ':' ∈ text → ¬ (text.head? = some '[' ∧ text.getLast? = some ']') →
    parsers.urlHost text = none

/-! ### The characters of a pattern -/

variable {c : Char}

/-- What is needed to know about the characters of a host. -/
lemma IsNameChar.plain (h : IsNameChar c) :
    Text.isWhitespace c = false ∧ c ≠ '*' ∧ c ≠ '?' ∧ c ≠ '%' ∧ c ≠ '[' ∧ c ≠ ']' := by
  refine ⟨?_, ?_, ?_, ?_, ?_, ?_⟩
  · have hrange : 45 ≤ c.toNat ∧ c.toNat ≤ 122 := by
      unfold IsNameChar at h
      omega
    rw [Bool.eq_false_iff]
    simp only [Text.isWhitespace, ne_eq, Bool.or_eq_true, Bool.and_eq_true, decide_eq_true_eq,
      beq_iff_eq]
    omega
  all_goals
    rintro rfl
    revert h
    decide

lemma IsNameChar.toLower (h : IsNameChar c) : IsNameChar c.toLower := by
  unfold IsNameChar at h ⊢
  rw [toNat_toLower]
  split_ifs <;> omega

lemma trim_of_forall {text : Text} (h : ∀ c ∈ text, Text.isWhitespace c = false) :
    Text.trim text = text :=
  Text.Trimmed.trim_eq ⟨fun c hc => h c (mem_of_head? hc), fun c hc => h c (mem_of_getLast? hc)⟩

lemma trimEndDots_of_getLast? {text : Text} (h : text.getLast? ≠ some '.') :
    trimEndDots text = text := by
  induction text using reverseRecOn with
  | nil => rfl
  | append_singleton text c _ =>
    have hc : ¬ c = '.' := by simpa using h
    simp [trimEndDots, hc]

lemma getLast?_trimEndDots (text : Text) : (trimEndDots text).getLast? ≠ some '.' := by
  induction text using reverseRecOn with
  | nil => simp [trimEndDots]
  | append_singleton text c ih =>
    rw [trimEndDots, rdropWhile_concat]
    split_ifs with hc
    · exact ih
    · simpa using hc

lemma mem_trimEndDots {text : Text} (hc : c ∈ text) (hdot : c ≠ '.') : c ∈ trimEndDots text := by
  induction text using reverseRecOn with
  | nil => exact hc
  | append_singleton text last ih =>
    rw [trimEndDots, rdropWhile_concat]
    split_ifs with hlast
    · refine ih ((mem_append.1 hc).resolve_right fun hmem => hdot ?_)
      rw [mem_singleton.1 hmem]
      exact beq_iff_eq.1 hlast
    · exact hc

/-- What does not begin with a dot has the same beginning without the dots at its end. -/
lemma head?_trimEndDots {text : Text} (h : text.head? ≠ some '.') :
    (trimEndDots text).head? = text.head? := by
  cases text with
  | nil => rfl
  | cons c text =>
    have hc : c ∈ trimEndDots (c :: text) := mem_trimEndDots mem_cons_self fun hdot => h (hdot ▸ rfl)
    obtain ⟨d, rest, hrest⟩ := exists_cons_of_ne_nil (ne_nil_of_mem hc)
    have hfront : d :: rest <+: c :: text := hrest ▸ rdropWhile_prefix _ _
    rw [hrest, head?_cons, head?_cons, (cons_prefix_cons.1 hfront).1]

lemma splitOnce_eq_none {delimiter text : Text} (hc : c ∈ delimiter) (h : c ∉ text) :
    splitOnce delimiter text = none := by
  induction text with
  | nil => simp [splitOnce, ne_nil_of_mem hc]
  | cons d text ih =>
    have hnot : ¬ delimiter <+: d :: text := fun hsub => h (hsub.subset hc)
    simp [splitOnce, hnot, ih fun hmem => h (mem_cons_of_mem _ hmem)]

/-- Everything before the first occurrence. -/
lemma takeWhile_ne_append {x : Char} {front : Text} (h : x ∉ front) (rest : Text) :
    (front ++ x :: rest).takeWhile (fun c => decide (c ≠ x)) = front := by
  have hfront : ∀ c ∈ front, decide (c ≠ x) = true := fun c hc =>
    decide_eq_true fun heq : c = x => h (heq ▸ hc)
  rw [takeWhile_append_of_pos hfront]
  simp

lemma isWhitespace_of_mem_wildcard {wildcard : Wildcard} (h : c ∈ wildcard.text) :
    Text.isWhitespace c = false := by
  revert c
  cases wildcard <;> simp [Wildcard.text, Text.isWhitespace]

lemma stripWildcard_append (wildcard : Wildcard) {rest : Text} (hne : rest ≠ [])
    (hstar : ∀ c ∈ rest, c ≠ '*') : stripWildcard (wildcard.text ++ rest) = (wildcard, rest) := by
  obtain ⟨c, tail, rfl⟩ := exists_cons_of_ne_nil hne
  have hc : c ≠ '*' := hstar c mem_cons_self
  unfold stripWildcard
  cases wildcard <;> simp [Wildcard.text, List.dropPrefix?, hc]

namespace HostPattern

variable {parsers : Parsers} {pattern : HostPattern}

lemma exists_front (pattern : HostPattern) : ∃ front, pattern.hostText = front ++ pattern.portText := by
  unfold hostText
  split
  exacts [⟨'[' :: (pattern.name ++ [']']), by simp⟩, ⟨pattern.name, rfl⟩]

section

variable (hwf : pattern.WellFormed parsers)
include hwf

lemma WellFormed.mem_portText (hc : c ∈ pattern.portText) : IsNameChar c ∧ c ≠ '.' := by
  unfold portText at hc
  cases hport : pattern.port with
  | none => simp [hport] at hc
  | some port =>
    rw [hport, Option.elim_some, mem_cons] at hc
    rcases hc with rfl | hc
    · decide
    · have hdigit := hwf.port port hport c hc
      refine ⟨.inr (.inr (.inl ⟨hdigit.1, by omega⟩)), ?_⟩
      rintro rfl
      exact absurd hdigit.1 (by decide)

lemma WellFormed.mem_hostText (hc : c ∈ pattern.hostText) : IsNameChar c ∨ c = '[' ∨ c = ']' := by
  unfold hostText at hc
  split at hc
  · simp only [mem_cons, mem_append] at hc
    rcases hc with rfl | hc | rfl | hc
    exacts [.inr (.inl rfl), .inl (hwf.chars c hc), .inr (.inr rfl), .inl (hwf.mem_portText hc).1]
  · rcases mem_append.1 hc with hc | hc
    exacts [.inl (hwf.chars c hc), .inl (hwf.mem_portText hc).1]

lemma WellFormed.hostText_plain (hc : c ∈ pattern.hostText) :
    Text.isWhitespace c = false ∧ c ≠ '*' ∧ c ≠ '?' ∧ c ≠ '%' := by
  rcases hwf.mem_hostText hc with hname | rfl | rfl
  · obtain ⟨hspace, hstar, hquestion, hpercent, -, -⟩ := hname.plain
    exact ⟨hspace, hstar, hquestion, hpercent⟩
  · decide
  · decide

lemma WellFormed.hostText_ne_nil : pattern.hostText ≠ [] := by
  unfold hostText
  split
  · exact cons_ne_nil _ _
  · exact append_ne_nil_of_left_ne_nil hwf.name_ne_nil _

/-- Only a host without brackets and port can end with dots. -/
lemma WellFormed.trimEndDots_hostText (h : pattern.form = .bracketed ∨ pattern.port ≠ none) :
    trimEndDots pattern.hostText = pattern.hostText := by
  refine trimEndDots_of_getLast? fun hdot => ?_
  cases hport : pattern.port with
  | none =>
    have hform := h.resolve_right fun hne => hne hport
    simp [hostText, hform, portText, hport, getLast?_cons] at hdot
  | some port =>
    obtain ⟨front, htext⟩ := pattern.exists_front
    rw [htext, getLast?_append_of_ne_nil _ (by simp [portText, hport])] at hdot
    exact (hwf.mem_portText (mem_of_getLast? hdot)).2 rfl

lemma WellFormed.head?_trimEndDots_hostText :
    (trimEndDots pattern.hostText).head? = pattern.hostText.head? := by
  refine head?_trimEndDots ?_
  obtain ⟨c, rest, hname⟩ := exists_cons_of_ne_nil hwf.name_ne_nil
  have hhead := hwf.head
  unfold hostText
  split
  · simp
  · simpa [hname] using hhead

lemma WellFormed.stripWildcard_text :
    stripWildcard pattern.text = (pattern.wildcard, pattern.hostText) :=
  stripWildcard_append _ hwf.hostText_ne_nil fun _ hc => (hwf.hostText_plain hc).2.1

lemma WellFormed.trim_text : Text.trim pattern.text = pattern.text := by
  refine trim_of_forall fun c hc => ?_
  rcases mem_append.1 hc with hwild | hhost
  exacts [isWhitespace_of_mem_wildcard hwild, (hwf.hostText_plain hhost).1]

lemma WellFormed.trim_hostText : Text.trim pattern.hostText = pattern.hostText :=
  trim_of_forall fun _ hc => (hwf.hostText_plain hc).1

lemma WellFormed.head_host : pattern.host.head? ≠ some '.' := by
  refine mt (head?_toAsciiLowercase (by decide) _).1 ?_
  rw [head?_trimEndDots hwf.head]
  exact hwf.head

lemma WellFormed.host_ne_nil : pattern.host ≠ [] := by
  have hhead := head?_trimEndDots hwf.head
  intro hnil
  rw [map_eq_nil_iff.1 hnil, head?_nil, eq_comm, head?_eq_none_iff] at hhead
  exact hwf.name_ne_nil hhead

lemma WellFormed.mem_host (hc : c ∈ pattern.host) : IsNameChar c := by
  obtain ⟨d, hd, rfl⟩ := mem_map.1 hc
  exact (hwf.chars d ((List.rdropWhile_prefix _ _).subset hd)).toLower

omit hwf in
lemma last_host (pattern : HostPattern) : pattern.host.getLast? ≠ some '.' := by
  have hlast := getLast?_trimEndDots pattern.name
  simp only [host, toAsciiLowercase, getLast?_map]
  cases hname : (trimEndDots pattern.name).getLast? with
  | none => simp
  | some c =>
    have hc : ¬ c = '.' := by simpa [hname] using hlast
    simpa [toLower_eq_iff (show Punctuation '.' by decide)] using hc

/-! #### The compiled lists see the host -/

lemma WellFormed.normalizeDnsHostOrIpLiteral_name :
    normalizeDnsHostOrIpLiteral parsers pattern.name = pattern.host := by
  have hpercent : '%' ∉ pattern.host := fun hc => (hwf.mem_host hc).plain.2.2.2.1 rfl
  have hscope : normalizeIpLiteral parsers pattern.host = some pattern.host ∨
      normalizeIpLiteral parsers pattern.host = none := by
    unfold normalizeIpLiteral
    split_ifs
    · exact .inl rfl
    · have hlong := splitOnce_eq_none (show '%' ∈ "%25".toList by simp) hpercent
      have hshort := splitOnce_eq_none (show '%' ∈ "%".toList by simp) hpercent
      exact .inr (by simp only [findSome?_cons, findSome?_nil, hlong, hshort])
  have hdots : trimEndDots (toAsciiLowercase pattern.name) = pattern.host :=
    Caseless.rdropWhile (fun c => by simp [toLower_eq_iff (show Punctuation '.' by decide)]) _
  rw [normalizeDnsHostOrIpLiteral, hdots]
  rcases hscope with h | h <;> simp [h]

lemma WellFormed.count_portText :
    pattern.portText.count ':' = if pattern.port = none then 0 else 1 := by
  unfold portText
  cases hport : pattern.port with
  | none => rfl
  | some port =>
    have hcolon : ':' ∉ port := by
      intro hc
      exact absurd (hwf.port port hport ':' hc).2 (by decide)
    simp [count_eq_zero_of_not_mem hcolon]

/-- A host without brackets does not begin with one. -/
lemma WellFormed.head?_hostText (hform : pattern.form ≠ .bracketed) :
    pattern.hostText = pattern.name ++ pattern.portText ∧
      pattern.hostText.head? ≠ some '[' := by
  have htext : pattern.hostText = pattern.name ++ pattern.portText := by
    unfold hostText
    cases h : pattern.form <;> first | rfl | exact absurd h hform
  refine ⟨htext, fun hhead => ?_⟩
  obtain ⟨c, rest, hname⟩ := List.exists_cons_of_ne_nil hwf.name_ne_nil
  rw [htext, hname, List.cons_append, List.head?_cons, Option.some.injEq] at hhead
  exact (hwf.chars c (hname ▸ List.mem_cons_self)).plain.2.2.2.2.1 hhead

lemma WellFormed.normalizeHost_hostText :
    normalizeHost parsers pattern.hostText = pattern.host := by
  have hcount := hwf.count_portText
  have hform := hwf.form
  unfold normalizeHost
  rw [hwf.trim_hostText]
  cases h : pattern.form with
  | bracketed =>
    have hclose : ']' ∉ '[' :: pattern.name := by
      simpa using fun hc => (hwf.chars ']' hc).plain.2.2.2.2.2 rfl
    have htext : pattern.hostText = '[' :: (pattern.name ++ ']' :: pattern.portText) := by
      simp [hostText, h]
    have hinside : (pattern.hostText.takeWhile (· ≠ ']')).tail = pattern.name := by
      rw [htext, ← cons_append, takeWhile_ne_append hclose]
      rfl
    rw [if_pos (by simp [htext]), hinside, hwf.normalizeDnsHostOrIpLiteral_name]
  | domain =>
    obtain ⟨htext, hhead⟩ := hwf.head?_hostText (by simp [h])
    simp only [h] at hform
    rw [if_neg fun hand => hhead hand.1, htext, count_append,
      count_eq_zero_of_not_mem hform.1, hcount]
    cases hport : pattern.port with
    | none => simp [portText, hport, hwf.normalizeDnsHostOrIpLiteral_name]
    | some port =>
      rw [portText, hport, Option.elim_some, takeWhile_ne_append hform.1]
      simp [hwf.normalizeDnsHostOrIpLiteral_name]
  | bareIpv6 =>
    obtain ⟨htext, hhead⟩ := hwf.head?_hostText (by simp [h])
    simp only [h] at hform
    have hmany : pattern.name.count ':' ≠ 1 := by omega
    rw [if_neg fun hand => hhead hand.1, htext]
    simp [portText, hform.2, hmany, hwf.normalizeDnsHostOrIpLiteral_name]

lemma WellFormed.normalizePattern_text :
    normalizePattern parsers pattern.text = pattern.wildcard.text ++ pattern.host := by
  have hstar : pattern.text ≠ ['*'] := by
    intro heq
    have hstrip := hwf.stripWildcard_text
    rw [heq] at hstrip
    have hhost : ['*'] = pattern.hostText := congrArg Prod.snd hstrip
    exact (hwf.hostText_plain (hhost ▸ mem_singleton_self '*')).2.1 rfl
  simp only [normalizePattern, hwf.trim_text, if_neg hstar, hwf.stripWildcard_text,
    hwf.normalizeHost_hostText]

lemma WellFormed.parse_normalized :
    DomainPattern.parse (pattern.wildcard.text ++ pattern.host) = pattern.reading := by
  have hspace : ∀ c ∈ pattern.host, Text.isWhitespace c = false := fun c hc =>
    (hwf.mem_host hc).plain.1
  have htrim : Text.trim (pattern.wildcard.text ++ pattern.host) =
      pattern.wildcard.text ++ pattern.host := by
    refine trim_of_forall fun c hc => ?_
    rcases mem_append.1 hc with hwild | hhost
    exacts [isWhitespace_of_mem_wildcard hwild, hspace c hhost]
  have hstrip := stripWildcard_append pattern.wildcard hwf.host_ne_nil
    fun c hc => (hwf.mem_host hc).plain.2.1
  have hne : pattern.wildcard.text ++ pattern.host ≠ [] := by simp [hwf.host_ne_nil]
  simp only [DomainPattern.parse, htrim, if_neg hne, hstrip, reading]
  cases pattern.wildcard <;>
    simp [DomainPattern.parseDomain, trim_of_forall hspace, hwf.host_ne_nil, Wildcard.pattern,
      Wildcard.text]

/-! #### The constraints see the host of a domain without port -/

/-- A host with a port does not end with a bracket. -/
lemma WellFormed.getLast?_of_port {port : Text} (hport : pattern.port = some port) :
    pattern.hostText.getLast? ≠ some ']' ∧ ':' ∈ pattern.hostText := by
  have hportText : pattern.portText = ':' :: port := by simp [portText, hport]
  obtain ⟨front, htext⟩ := pattern.exists_front
  refine ⟨fun hlast => ?_, by simp [htext, hportText]⟩
  rw [htext, List.getLast?_append_of_ne_nil _ (by simp [hportText])] at hlast
  exact (hwf.mem_portText (List.mem_of_getLast? hlast)).1.plain.2.2.2.2.2 rfl

section

variable (hcolons : parsers.RejectsColons)
include hcolons

/-- What is not readable is rejected, with or without its brackets. -/
lemma WellFormed.rejected (hnot : ¬ pattern.Readable) {text : Text}
    (htext : text = trimEndDots pattern.hostText) : parsers.urlHost
      (if text.head? = some '[' ∧ text.getLast? = some ']' then text.tail.dropLast else text) =
        none := by
  have hform := hwf.form
  by_cases hends : text.head? = some '[' ∧ text.getLast? = some ']'
  · rw [if_pos hends]
    have hbracketed : pattern.form = .bracketed := by
      by_contra hother
      rw [htext, hwf.head?_trimEndDots_hostText] at hends
      exact (hwf.head?_hostText hother).2 hends.1
    rw [hwf.trimEndDots_hostText (.inl hbracketed)] at htext
    subst htext
    have hport : pattern.port = none := by
      cases hport : pattern.port with
      | none => rfl
      | some port => exact absurd hends.2 (hwf.getLast?_of_port hport).1
    have hinside : pattern.hostText.tail.dropLast = pattern.name := by
      simp [hostText, hbracketed, portText, hport]
    -- Without the brackets the address has colons.
    simp only [hbracketed] at hform
    rw [hinside]
    refine hcolons _ hform fun hbrackets => ?_
    exact (hwf.chars '[' (mem_of_head? hbrackets.1)).plain.2.2.2.2.1 rfl
  · rw [if_neg hends]
    refine hcolons _ ?_ hends
    rw [htext]
    refine mem_trimEndDots ?_ (by decide)
    cases hport : pattern.port with
    | some port => exact (hwf.getLast?_of_port hport).2
    | none =>
      have hname : ':' ∈ pattern.name := by
        cases h : pattern.form with
        | domain => exact absurd ⟨h, hport⟩ hnot
        | bracketed => simpa only [h] using hform
        | bareIpv6 =>
          simp only [h] at hform
          exact count_pos_iff.1 (by omega)
      unfold hostText
      split <;> simp [hname]

lemma WellFormed.parseDomainForConstraints_hostText :
    DomainPattern.parseDomainForConstraints parsers pattern.hostText =
      if pattern.Readable then pattern.host else [] := by
  have hplain : ∀ text : Text, (∀ c ∈ text, c ∈ pattern.hostText) →
      ¬ ('*' ∈ text ∨ '?' ∈ text ∨ '%' ∈ text) := by
    rintro text hsub (hc | hc | hc)
    exacts [(hwf.hostText_plain (hsub _ hc)).2.1 rfl, (hwf.hostText_plain (hsub _ hc)).2.2.1 rfl,
      (hwf.hostText_plain (hsub _ hc)).2.2.2 rfl]
  have hsub : ∀ c ∈ trimEndDots pattern.hostText, c ∈ pattern.hostText := fun c hc =>
    (List.rdropWhile_prefix _ _).subset hc
  have hne : trimEndDots pattern.hostText ≠ [] := by
    intro hnil
    have hhead := hwf.head?_trimEndDots_hostText
    rw [hnil, head?_nil, eq_comm, head?_eq_none_iff] at hhead
    exact hwf.hostText_ne_nil hhead
  simp only [DomainPattern.parseDomainForConstraints, hwf.trim_hostText, if_neg hne]
  rw [if_neg (hplain _ fun c hc => by
    split_ifs at hc
    exacts [hsub c (mem_of_mem_tail (mem_of_mem_dropLast hc)), hsub c hc])]
  by_cases hreadable : pattern.Readable
  · have hform := hwf.form
    simp only [hreadable.1] at hform
    obtain ⟨htext, hhead⟩ := hwf.head?_hostText (by simp [hreadable.1])
    rw [if_neg fun hends => hhead (hwf.head?_trimEndDots_hostText ▸ hends.1), htext, if_pos hreadable]
    simp [portText, hreadable.2, hform.2]
  · rw [hwf.rejected hcolons hreadable rfl, if_neg hreadable]
    rfl

lemma WellFormed.parseForConstraints_text : DomainPattern.parseForConstraints parsers pattern.text =
      pattern.wildcard.pattern (if pattern.Readable then pattern.host else []) := by
  have hne : pattern.text ≠ [] := append_ne_nil_of_right_ne_nil _ hwf.hostText_ne_nil
  simp only [DomainPattern.parseForConstraints, hwf.trim_text, if_neg hne, hwf.stripWildcard_text,
    hwf.parseDomainForConstraints_hostText hcolons]

end

end

end HostPattern

end TokenCode.NetworkProxy
