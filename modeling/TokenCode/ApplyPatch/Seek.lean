/-
What `seek_sequence` finds (`apply-patch/src/seek_sequence.rs`).

Without the end-of-file flag the search meets its documentation: it returns the first match at the
strictest of the four levels that has one. With the flag only the position at the end of the file
is tried: the search neither falls back to the lines from `start` on, as documented, nor does it
respect `start`.
-/
import TokenCode.ApplyPatch.DeriveContents

namespace TokenCode.ApplyPatch

open List Text

/-- What of a line is compared, the strictest comparison first. -/
def seekViews : List (Text → Text) := [id, trimEnd, trim, normalise]

section

variable (lines pattern : List Text)

/-- The pattern matches the lines from `i` on, up to `view`. -/
def MatchesAt (view : Text → Text) (i : ℕ) : Prop :=
  i + pattern.length ≤ lines.length ∧
    ((lines.drop i).take pattern.length).map view = pattern.map view

/-- The result of a search at or behind `start`: the first match at the first of the views that has
one. -/
def FirstMatch (start : ℕ) : Option ℕ → Prop
  | none => ∀ view ∈ seekViews, ∀ j, start ≤ j → ¬ MatchesAt lines pattern view j
  | some i => ∃ stricter view looser, seekViews = stricter ++ view :: looser ∧
      (∀ v ∈ stricter, ∀ j, start ≤ j → ¬ MatchesAt lines pattern v j) ∧
      start ≤ i ∧ MatchesAt lines pattern view i ∧
      ∀ j, start ≤ j → j < i → ¬ MatchesAt lines pattern view j

/-- The pattern matches the end of the lines, at some level. -/
def MatchesEnd : Prop :=
  ∃ view ∈ seekViews, MatchesAt lines pattern view (lines.length - pattern.length)

/-- **The documented result of a search.**  With the end-of-file flag a match at the end of the
lines comes first; what is found lies inside the lines, at or behind `start`. -/
structure SeekContract (start : ℕ) (eof : Bool) (found : Option ℕ) : Prop where
  plain : eof = false → FirstMatch lines pattern start found
  atEnd : eof = true → MatchesEnd lines pattern → found = some (lines.length - pattern.length)
  fallback : eof = true → ¬ MatchesEnd lines pattern →
    found = seekSequence lines pattern start false
  bounds : ∀ i ∈ found, start ≤ i ∧ i + pattern.length ≤ lines.length

instance (view : Text → Text) (i : ℕ) : Decidable (MatchesAt lines pattern view i) :=
  inferInstanceAs (Decidable (_ ∧ _))

instance : Decidable (MatchesEnd lines pattern) :=
  inferInstanceAs (Decidable (∃ _ ∈ _, _))

variable {lines pattern} {start i : ℕ} {view : Text → Text}

/-! ### One pass -/

lemma mem_positions : i ∈ (List.range (lines.length - pattern.length + 1)).drop start ↔
    start ≤ i ∧ i ≤ lines.length - pattern.length := by
  rw [range_eq_range', drop_range', mem_range'_1]
  omega

lemma seekPass_bounds (h : seekPass lines pattern start view = some i) :
    start ≤ i ∧ i ≤ lines.length - pattern.length :=
  mem_positions.1 (mem_of_find?_eq_some h)

variable (hlong : pattern.length ≤ lines.length)
include hlong

lemma seekPass_eq_none_iff : seekPass lines pattern start view = none ↔
      ∀ j, start ≤ j → ¬ MatchesAt lines pattern view j := by
  simp only [seekPass, find?_eq_none, mem_positions, decide_eq_true_iff, MatchesAt, not_and]
  constructor
  · intro h j hstart hbound
    exact h j ⟨hstart, by omega⟩
  · intro h j hj
    exact h j hj.1 (by omega)

lemma seekPass_eq_some_iff :
    seekPass lines pattern start view = some i ↔ start ≤ i ∧ MatchesAt lines pattern view i ∧
        ∀ j, start ≤ j → j < i → ¬ MatchesAt lines pattern view j := by
  rw [seekPass, range_eq_range', drop_range', find?_range'_eq_some]
  simp only [decide_eq_true_iff, mem_range'_1, MatchesAt, not_and, Bool.not_eq_true',
    decide_eq_false_iff_not]
  constructor
  · rintro ⟨hmatch, hmem, hfirst⟩
    exact ⟨by omega, ⟨by omega, hmatch⟩, fun j hstart hlt _ => hfirst j (by omega) hlt⟩
  · rintro ⟨hstart, ⟨hbound, hmatch⟩, hfirst⟩
    exact ⟨hmatch, by omega, fun j hj hlt => hfirst j (by omega) hlt (by omega)⟩

/-! ### The four passes -/

omit hlong in
/-- The passes are tried one after another. -/
lemma seekSequence_eq (hne : pattern ≠ []) (hlong : pattern.length ≤ lines.length) (eof : Bool) :
    seekSequence lines pattern start eof = seekViews.findSome? (seekPass lines pattern
      (if eof then lines.length - pattern.length else start)) := by
  rw [seekSequence, if_neg hne, if_neg (by omega)]
  simp only [hlong, and_true, seekViews, findSome?_cons, findSome?_nil]
  generalize (if eof = true then lines.length - pattern.length else start) = searchStart
  cases seekPass lines pattern searchStart id <;>
    cases seekPass lines pattern searchStart trimEnd <;>
    cases seekPass lines pattern searchStart trim <;>
    cases seekPass lines pattern searchStart normalise <;> rfl

/-- The passes from any position on find the first match behind it. -/
lemma firstMatch_iff (found : Option ℕ) :
    seekViews.findSome? (seekPass lines pattern start) = found ↔
      FirstMatch lines pattern start found := by
  cases found with
  | none => simp [seekPass_eq_none_iff hlong, FirstMatch]
  | some i =>
    simp only [findSome?_eq_some_iff, seekPass_eq_none_iff hlong, seekPass_eq_some_iff hlong,
      FirstMatch]
    constructor
    · rintro ⟨stricter, view, looser, hviews, hfound, hstricter⟩
      exact ⟨stricter, view, looser, hviews, hstricter, hfound⟩
    · rintro ⟨stricter, view, looser, hviews, hstricter, hfound⟩
      exact ⟨stricter, view, looser, hviews, hfound, hstricter⟩

omit hlong

lemma not_matchesAt_of_short (hshort : lines.length < pattern.length) :
    ¬ MatchesAt lines pattern view i := fun h => by
  have hbound := h.1
  omega

lemma seekSequence_short (hshort : lines.length < pattern.length) (start : ℕ) (eof : Bool) :
    seekSequence lines pattern start eof = none := by
  have hne : pattern ≠ [] := by
    rintro rfl
    cases hshort
  rw [seekSequence, if_neg hne, if_pos hshort]

variable (hne : pattern ≠ [])
include hne

/-- Without the end-of-file flag the first match is found. -/
lemma firstMatch_seekSequence (start : ℕ) :
    FirstMatch lines pattern start (seekSequence lines pattern start false) := by
  by_cases hlong : pattern.length ≤ lines.length
  · rw [seekSequence_eq hne hlong]
    exact (firstMatch_iff hlong _).1 rfl
  · rw [seekSequence_short (by omega)]
    exact fun view _ j _ => not_matchesAt_of_short (by omega)

/-- With the end-of-file flag nothing but the end of the lines is tried. -/
lemma seekSequence_eof_of_matchesEnd (start : ℕ) (h : MatchesEnd lines pattern) :
    seekSequence lines pattern start true = some (lines.length - pattern.length) := by
  obtain ⟨view, hview, hmatch⟩ := h
  have hlong : pattern.length ≤ lines.length := by
    have hbound := hmatch.1
    omega
  rw [seekSequence_eq hne hlong]
  cases hfound : seekViews.findSome? (seekPass lines pattern
      (if true then lines.length - pattern.length else start)) with
  | none =>
    have hnone := (firstMatch_iff hlong none).1 hfound
    exact absurd hmatch (hnone view hview _ le_rfl)
  | some i =>
    obtain ⟨_, _, _, -, -, hstart, hat, -⟩ := (firstMatch_iff hlong (some i)).1 hfound
    have hbound := hat.1
    have hbehind : lines.length - pattern.length ≤ i := hstart
    exact congrArg some (by omega)

lemma seekSequence_eof_of_not_matchesEnd (start : ℕ)
    (h : ¬ MatchesEnd lines pattern) : seekSequence lines pattern start true = none := by
  by_cases hlong : pattern.length ≤ lines.length
  · rw [seekSequence_eq hne hlong, firstMatch_iff hlong]
    intro view hview j hstart hmatch
    have hbound := hmatch.1
    have hbehind : lines.length - pattern.length ≤ j := hstart
    obtain rfl : j = lines.length - pattern.length := by omega
    exact h ⟨view, hview, hmatch⟩
  · exact seekSequence_short (by omega) start true

omit hne

lemma FirstMatch.bounds (h : FirstMatch lines pattern start (some i)) :
    start ≤ i ∧ i + pattern.length ≤ lines.length := by
  obtain ⟨_, _, _, -, -, hstart, hat, -⟩ := h
  exact ⟨hstart, hat.1⟩

/-- **When a search meets its documentation.**  Every search without the end-of-file flag does.  One
with the flag does exactly if the pattern matches the end of the lines at or behind `start`, or
matches neither there nor anywhere from `start` on. -/
theorem seekSequence_contract_iff (lines pattern : List Text) (start : ℕ) (eof : Bool)
    (hne : pattern ≠ []) :
    SeekContract lines pattern start eof (seekSequence lines pattern start eof) ↔ (eof = true →
        (MatchesEnd lines pattern → start ≤ lines.length - pattern.length) ∧
        (¬ MatchesEnd lines pattern →
          ∀ view ∈ seekViews, ∀ j, start ≤ j → ¬ MatchesAt lines pattern view j)) := by
  cases eof with
  | false =>
    have hfirst := @firstMatch_seekSequence lines pattern hne start
    refine ⟨fun _ h => (by cases h), fun _ => ⟨fun _ => hfirst, ?_, ?_, ?_⟩⟩
    · intro h
      cases h
    · intro h
      cases h
    · intro i hi
      rw [hi] at hfirst
      exact hfirst.bounds
  | true =>
    constructor
    · intro h _
      refine ⟨fun hend => ?_, fun hend => ?_⟩
      · exact (h.bounds _ (seekSequence_eof_of_matchesEnd hne start hend)).1
      · have hnone := h.fallback rfl hend
        rw [seekSequence_eof_of_not_matchesEnd hne start hend] at hnone
        have hfirst := @firstMatch_seekSequence lines pattern hne start
        rwa [← hnone] at hfirst
    · intro h
      obtain ⟨hstart, hnowhere⟩ := h rfl
      refine ⟨fun h => (by cases h), fun _ => seekSequence_eof_of_matchesEnd hne start, ?_, ?_⟩
      · intro _ hend
        rw [seekSequence_eof_of_not_matchesEnd hne start hend]
        cases hfound : seekSequence lines pattern start false with
        | none => rfl
        | some i =>
          have hfirst := @firstMatch_seekSequence lines pattern hne start
          rw [hfound] at hfirst
          obtain ⟨stricter, view, _, hviews, -, hbehind, hat, -⟩ := hfirst
          exact absurd hat (hnowhere hend view (by simp [hviews]) i hbehind)
      · intro i hi
        by_cases hend : MatchesEnd lines pattern
        · rw [seekSequence_eof_of_matchesEnd hne start hend] at hi
          obtain rfl := Option.some.inj hi
          refine ⟨hstart hend, ?_⟩
          obtain ⟨_, -, hat⟩ := hend
          exact hat.1
        · rw [seekSequence_eof_of_not_matchesEnd hne start hend] at hi
          cases hi

end

theorem seekSequence_contract_iff_no_eof :
    seekSequence [['b'], ['a', ' ']] [['a']] 0 false = some 1 ∧
      SeekContract [['b'], ['a', ' ']] [['a']] 0 false (some 1) :=
  ⟨by decide, (seekSequence_contract_iff [['b'], ['a', ' ']] [['a']] 0 false (by decide)).2
    fun h => by cases h⟩

/-- A pattern marked as the end of the file is not found in front of the last line, and one that is
found may lie before `start`. -/
theorem eof_search_breaks_contract : (seekSequence [['a'], ['b']] [['a']] 0 true = none ∧
      seekSequence [['a'], ['b']] [['a']] 0 false = some 0 ∧
      ¬ SeekContract [['a'], ['b']] [['a']] 0 true none) ∧
    (seekSequence [['a']] [['a']] 1 true = some 0 ∧
      ¬ SeekContract [['a']] [['a']] 1 true (some 0)) := by
  refine ⟨⟨by decide, by decide, fun h => ?_⟩, by decide, fun h => ?_⟩
  · have hnone := h.fallback rfl (by decide)
    revert hnone
    decide
  · exact absurd (h.bounds 0 rfl).1 (by decide)

end TokenCode.ApplyPatch
