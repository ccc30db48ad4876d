/-
Compiled lists of patterns.

A host matches a compiled list if it matches a candidate of one of the patterns
(`isMatch_foldl_addPattern`), and two patterns that differ in case only are compiled alike
(`normalizePattern_toAsciiLowercase`).
-/
import TokenCode.NetworkProxy.Policy

namespace TokenCode.NetworkProxy

open List

/-! ### The candidates of a list -/

/-- The host matches a candidate of the pattern. -/
def PatternMatches (parsers : Parsers) (pattern host : Text) : Prop :=
  ∃ candidate ∈ expandDomainPattern (normalizePattern parsers pattern),
    globIsMatch candidate host = true

variable {pattern : Text}

section

variable {parsers : Parsers} {patterns : List Text}

lemma mem_addPattern {globs : GlobSet} {glob : Text} : glob ∈ addPattern parsers globs pattern ↔
      glob ∈ globs ∨ glob ∈ expandDomainPattern (normalizePattern parsers pattern) := by
  unfold addPattern
  generalize expandDomainPattern (normalizePattern parsers pattern) = candidates
  induction candidates generalizing globs with
  | nil => simp
  | cons candidate candidates ih =>
    rw [foldl_cons, ih]
    split_ifs with hseen
    · simp only [mem_cons]
      constructor
      · rintro (h | h)
        exacts [.inl h, .inr (.inr h)]
      · rintro (h | rfl | h)
        exacts [.inl h, .inl hseen, .inr h]
    · simp [or_assoc]

lemma isMatch_foldl_addPattern (patterns : List Text) (globs : GlobSet) (host : Text) :
    (patterns.foldl (addPattern parsers) globs).isMatch host = true ↔
      globs.isMatch host = true ∨ ∃ pattern ∈ patterns, PatternMatches parsers pattern host := by
  induction patterns generalizing globs with
  | nil => simp
  | cons pattern patterns ih =>
    have hstep : (addPattern parsers globs pattern).isMatch host = true ↔
        globs.isMatch host = true ∨ PatternMatches parsers pattern host := by
      simp [GlobSet.isMatch, mem_addPattern, PatternMatches, or_and_right, exists_or]
    rw [foldl_cons, ih, hstep]
    simp [or_assoc]

/-- A list without global wildcards compiles in any case. -/
lemma compileGlobsetWithPolicy_eq_ok {globalWildcard : GlobalWildcard}
    (h : globalWildcard = .reject →
      ∀ pattern ∈ patterns, isGlobalWildcardDomainPattern parsers pattern = false) :
    compileGlobsetWithPolicy parsers patterns globalWildcard =
      .ok (patterns.foldl (addPattern parsers) []) := by
  unfold compileGlobsetWithPolicy
  generalize ([] : GlobSet) = globs
  induction patterns generalizing globs with
  | nil => rfl
  | cons pattern patterns ih =>
    have hpattern : ¬ (globalWildcard = .reject ∧
        isGlobalWildcardDomainPattern parsers pattern = true) := by
      rintro ⟨hreject, hwild⟩
      exact absurd ((h hreject pattern mem_cons_self).symm.trans hwild) nofun
    rw [foldlM_cons, if_neg hpattern]
    exact ih (fun hreject other hother => h hreject other (mem_cons_of_mem _ hother)) _

lemma compileAllowlistGlobset_eq (parsers : Parsers) (patterns : List Text) :
    compileAllowlistGlobset parsers patterns = .ok (patterns.foldl (addPattern parsers) []) :=
  compileGlobsetWithPolicy_eq_ok nofun

lemma compileDenylistGlobset_eq
    (h : ∀ pattern ∈ patterns, isGlobalWildcardDomainPattern parsers pattern = false) :
    compileDenylistGlobset parsers patterns = .ok (patterns.foldl (addPattern parsers) []) :=
  compileGlobsetWithPolicy_eq_ok fun _ => h

/-- What a compiled list matches. -/
lemma isMatch_compiled (patterns : List Text) (host : Text) :
    GlobSet.isMatch (patterns.foldl (addPattern parsers) []) host = true ↔
      ∃ pattern ∈ patterns, PatternMatches parsers pattern host := by
  rw [isMatch_foldl_addPattern]
  simp [GlobSet.isMatch]

end

/-! ### Upper and lower case -/

lemma toNat_toLower (c : Char) :
    c.toLower.toNat = if 65 ≤ c.toNat ∧ c.toNat ≤ 90 then c.toNat + 32 else c.toNat := by
  have hupper : (c.val ≥ 'A'.val ∧ c.val ≤ 'Z'.val) ↔ 65 ≤ c.toNat ∧ c.toNat ≤ 90 := Iff.rfl
  unfold Char.toLower
  split_ifs with h h' h'
  · change (c.val + 32).toNat = c.toNat + 32
    change (c.toNat + 32) % 2 ^ 32 = c.toNat + 32
    exact Nat.mod_eq_of_lt (by omega)
  · exact absurd (hupper.1 h) h'
  · exact absurd (hupper.2 h') h
  · rfl

variable {x : Char}

/-- A character that is not a letter is the lower case of itself only. -/
lemma toLower_eq_iff {c : Char} (hx : x.toNat < 65 ∨ 90 < x.toNat ∧ x.toNat < 97) :
    c.toLower = x ↔ c = x := by
  have hlower := toNat_toLower c
  constructor
  · rintro rfl
    refine Char.ext (UInt32.toNat_inj.1 ?_)
    change c.toNat = c.toLower.toNat
    split_ifs at hlower <;> omega
  · rintro rfl
    refine Char.ext (UInt32.toNat_inj.1 ?_)
    change c.toLower.toNat = c.toNat
    split_ifs at hlower <;> omega

lemma isWhitespace_toLower (c : Char) : Text.isWhitespace c.toLower = Text.isWhitespace c := by
  have hlower := toNat_toLower c
  split_ifs at hlower with hupper
  · simp only [Text.isWhitespace, hlower]
    grind
  · simp only [Text.isWhitespace, hlower]

variable (text : Text)

@[simp]
lemma toAsciiLowercase_toAsciiLowercase :
    toAsciiLowercase (toAsciiLowercase text) = toAsciiLowercase text := by
  simp [toAsciiLowercase]

variable {p : Char → Bool} (parsers : Parsers)

section

/-- A condition on characters that does not depend on their case. -/
def Caseless (p : Char → Bool) : Prop := ∀ c : Char, p c.toLower = p c

variable (h : Caseless p)
include h

lemma Caseless.comp_toLower : p ∘ Char.toLower = p := funext h

lemma Caseless.takeWhile (text : Text) :
    (toAsciiLowercase text).takeWhile p = toAsciiLowercase (text.takeWhile p) := by
  rw [toAsciiLowercase, takeWhile_map, h.comp_toLower]
  rfl

lemma Caseless.dropWhile (text : Text) :
    (toAsciiLowercase text).dropWhile p = toAsciiLowercase (text.dropWhile p) := by
  rw [toAsciiLowercase, dropWhile_map, h.comp_toLower]
  rfl

lemma Caseless.rdropWhile (text : Text) :
    (toAsciiLowercase text).rdropWhile p = toAsciiLowercase (text.rdropWhile p) := by
  have hreverse : (toAsciiLowercase text).reverse = toAsciiLowercase text.reverse := by
    simp [toAsciiLowercase]
  unfold List.rdropWhile
  rw [hreverse, h.dropWhile]
  simp [toAsciiLowercase]

omit h

lemma trim_toAsciiLowercase :
    Text.trim (toAsciiLowercase text) = toAsciiLowercase (Text.trim text) := by
  have h : Caseless Text.isWhitespace := isWhitespace_toLower
  unfold Text.trim Text.trimEnd Text.trimStart
  rw [h.dropWhile, h.rdropWhile]

/-- A character that is not a letter, as the punctuation of patterns. -/
def Punctuation (x : Char) : Prop := x.toNat < 65 ∨ 90 < x.toNat ∧ x.toNat < 97

instance (x : Char) : Decidable (Punctuation x) := inferInstanceAs (Decidable (_ ∨ _))

lemma dropPrefix?_toAsciiLowercase {front : Text} (h : ∀ x ∈ front, Punctuation x) (text : Text) :
    (toAsciiLowercase text).dropPrefix? front = (text.dropPrefix? front).map toAsciiLowercase := by
  induction front generalizing text with
  | nil => simp
  | cons x front ih =>
    cases text with
    | nil => rfl
    | cons c text =>
      have hx : (c.toLower == x) = (c == x) := by
        rw [Bool.eq_iff_iff, beq_iff_eq, beq_iff_eq]
        exact toLower_eq_iff (h x mem_cons_self)
      have hrest := ih (forall_mem_cons.1 h).2 text
      simp only [toAsciiLowercase, map_cons, List.dropPrefix?, hx] at hrest ⊢
      split_ifs
      · exact hrest
      · rfl

lemma stripWildcard_toAsciiLowercase : stripWildcard (toAsciiLowercase text) =
      ((stripWildcard text).1, toAsciiLowercase (stripWildcard text).2) := by
  unfold stripWildcard
  rw [dropPrefix?_toAsciiLowercase (by simp [Punctuation]),
    dropPrefix?_toAsciiLowercase (by simp [Punctuation])]
  cases text.dropPrefix? "**.".toList <;> cases text.dropPrefix? "*.".toList <;> rfl

variable (hx : Punctuation x)
include hx

lemma mem_toAsciiLowercase (text : Text) : x ∈ toAsciiLowercase text ↔ x ∈ text := by
  simp [toAsciiLowercase, toLower_eq_iff hx]

lemma head?_toAsciiLowercase (text : Text) :
    (toAsciiLowercase text).head? = some x ↔ text.head? = some x := by
  cases text with
  | nil => rfl
  | cons c text => simp [toAsciiLowercase, toLower_eq_iff hx]

lemma count_toAsciiLowercase (text : Text) : (toAsciiLowercase text).count x = text.count x := by
  induction text with
  | nil => rfl
  | cons c text ih =>
    have hc : (c.toLower == x) = (c == x) := by
      rw [Bool.eq_iff_iff, beq_iff_eq, beq_iff_eq]
      exact toLower_eq_iff hx
    simp only [toAsciiLowercase, map_cons, count_cons, hc] at ih ⊢
    rw [ih]

lemma caseless_ne : Caseless fun c => decide (c ≠ x) := by
  intro c
  simp [toLower_eq_iff hx]

omit hx

lemma normalizeHost_toAsciiLowercase (host : Text) :
    normalizeHost parsers (toAsciiLowercase host) = normalizeHost parsers host := by
  have hdns : ∀ text, normalizeDnsHostOrIpLiteral parsers (toAsciiLowercase text) =
      normalizeDnsHostOrIpLiteral parsers text := by
    intro text
    simp [normalizeDnsHostOrIpLiteral]
  have htail : ∀ text, (toAsciiLowercase text).tail = toAsciiLowercase text.tail := by
    intro text
    simp [toAsciiLowercase]
  have hopen : Punctuation '[' := by decide
  have hclose : Punctuation ']' := by decide
  have hcolon : Punctuation ':' := by decide
  simp only [normalizeHost, trim_toAsciiLowercase, head?_toAsciiLowercase hopen,
    mem_toAsciiLowercase hclose, count_toAsciiLowercase hcolon, (caseless_ne hclose).takeWhile,
    (caseless_ne hcolon).takeWhile, htail, hdns]

/-- Patterns that differ in case only are normalised alike. -/
lemma normalizePattern_toAsciiLowercase (pattern : Text) :
    normalizePattern parsers (toAsciiLowercase pattern) = normalizePattern parsers pattern := by
  have hstar : Punctuation '*' := by decide
  have hglobal : ∀ text, toAsciiLowercase text = ['*'] ↔ text = ['*'] := by
    intro text
    simp [toAsciiLowercase, toLower_eq_iff hstar]
  simp only [normalizePattern, trim_toAsciiLowercase, hglobal, stripWildcard_toAsciiLowercase,
    normalizeHost_toAsciiLowercase]

lemma patternMatches_congr {parsers : Parsers} {other : Text}
    (h : toAsciiLowercase pattern = toAsciiLowercase other) (host : Text) :
    PatternMatches parsers pattern host ↔ PatternMatches parsers other host := by
  unfold PatternMatches
  rw [← normalizePattern_toAsciiLowercase, h, normalizePattern_toAsciiLowercase]

end

end TokenCode.NetworkProxy
