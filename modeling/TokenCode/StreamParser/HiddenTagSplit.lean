/-
How a text with inline tags is to be split.

`Split` is the reference: the leftmost opener, and of several at one place the longest, begins a
tag, and the first closer of the tag ends it. Every text has exactly one split.
-/
import TokenCode.StreamParser.InlineHiddenTag

namespace TokenCode.StreamParser

open Text Occurrences

variable {T : Type}

def openers (specs : List (InlineTagSpec T)) : List Text := specs.map (·.opener)

/-- The tag has the longest opener that the text begins with, and comes first among such tags. -/
def Best (specs : List (InlineTagSpec T)) (text : Text) (spec : InlineTagSpec T) : Prop :=
  ∃ before after, specs = before ++ spec :: after ∧
    (∀ other ∈ before, other.opener <+: text → other.opener.length < spec.opener.length) ∧
    (∀ other ∈ after, other.opener <+: text → other.opener.length ≤ spec.opener.length)

/-- The next tag of a text, with what is before and after its opener. -/
structure NextOpen (specs : List (InlineTagSpec T)) (text before : Text) (spec : InlineTagSpec T)
    (after : Text) : Prop where
  first : First (openers specs) text before spec.opener after
  best : Best specs (spec.opener ++ after) spec

/-- The split of a text, inside a tag or outside. -/
inductive Split (specs : List (InlineTagSpec T)) :
    Option (ActiveTag T) → Text → StreamTextChunk (ExtractedInlineTag T) → Prop where
  | visible {text : Text} (hfree : Free (openers specs) text) : Split specs none text ⟨text, []⟩
  | opened {text before after : Text} {spec : InlineTagSpec T}
      {out : StreamTextChunk (ExtractedInlineTag T)} (hnext : NextOpen specs text before spec after)
      (hrest : Split specs (some ⟨spec.tag, spec.closer, []⟩) after out) :
      Split specs none text (.append ⟨before, []⟩ out)
  | closed {active : ActiveTag T} {text content after : Text}
      {out : StreamTextChunk (ExtractedInlineTag T)}
      (hfirst : First [active.closer] text content active.closer after)
      (hrest : Split specs none after out) :
      Split specs (some active) text (.append ⟨[], [⟨active.tag, active.content ++ content⟩]⟩ out)
  | unclosed {active : ActiveTag T} {text : Text} (hfree : Free [active.closer] text) :
      Split specs (some active) text ⟨[], [⟨active.tag, active.content ++ text⟩]⟩

/-! ### There is one split -/

variable {specs : List (InlineTagSpec T)} {text before after : Text} {spec : InlineTagSpec T}

lemma Best.mem (h : Best specs text spec) : spec ∈ specs := by
  obtain ⟨before, after, rfl, -, -⟩ := h
  simp

lemma Best.unique {spec' : InlineTagSpec T} (h : Best specs text spec) (h' : Best specs text spec')
    (hspec : spec.opener <+: text) (hspec' : spec'.opener <+: text) : spec = spec' := by
  obtain ⟨before, after, rfl, hbefore, hafter⟩ := h
  obtain ⟨before', after', hspecs, hbefore', hafter'⟩ := h'
  rcases List.append_eq_append_iff.1 hspecs with ⟨more, rfl, hmore⟩ | ⟨more, rfl, hmore⟩
  · cases more with
    | nil => exact (List.cons.inj hmore).1
    | cons first more =>
      -- the first tag is before the second, and none is longer
      obtain ⟨rfl, rfl⟩ := List.cons.inj hmore
      have hlt := hbefore' spec (by simp) hspec
      have hle := hafter spec' (by simp) hspec'
      omega
  · cases more with
    | nil => exact (List.cons.inj hmore).1.symm
    | cons first more =>
      obtain ⟨rfl, rfl⟩ := List.cons.inj hmore
      have hlt := hbefore spec' (by simp) hspec'
      have hle := hafter' spec (by simp) hspec
      omega

variable (h : NextOpen specs text before spec after)
include h

lemma NextOpen.unique {before' after' : Text} {spec' : InlineTagSpec T}
    (h' : NextOpen specs text before' spec' after') :
    before = before' ∧ spec = spec' ∧ after = after' := by
  obtain rfl := h.first.before_eq h'.first
  have hdrop := h.first.drop.symm.trans h'.first.drop
  obtain rfl : spec = spec' := by
    refine h.best.unique ?_ (List.prefix_append _ _) ?_
    · rw [hdrop]
      exact h'.best
    · rw [hdrop]
      exact List.prefix_append _ _
  exact ⟨rfl, rfl, (h.first.unique h'.first).2⟩

lemma NextOpen.not_free : ¬ Free (openers specs) text :=
  fun hfree => hfree _ h.first.mem h.first.occurs

omit h

lemma First.not_free {words : List Text} {word : Text} (h : First words text before word after) :
    ¬ Free words text :=
  fun hfree => hfree _ h.mem h.occurs

/-- **The split is determined by the text.** -/
theorem Split.unique {active : Option (ActiveTag T)}
    {out out' : StreamTextChunk (ExtractedInlineTag T)} (h : Split specs active text out)
    (h' : Split specs active text out') : out = out' := by
  induction h generalizing out' with
  | visible hfree =>
    cases h' with
    | visible => rfl
    | opened hnext => exact absurd hfree hnext.not_free
  | opened hnext hrest ih =>
    cases h' with
    | visible hfree => exact absurd hfree hnext.not_free
    | opened hnext' hrest' =>
      obtain ⟨rfl, rfl, rfl⟩ := hnext.unique hnext'
      rw [ih hrest']
  | closed hfirst hrest ih =>
    cases h' with
    | closed hfirst' hrest' =>
      obtain ⟨rfl, rfl⟩ := hfirst.unique hfirst'
      rw [ih hrest']
    | unclosed hfree => exact absurd hfree (First.not_free hfirst)
  | unclosed hfree =>
    cases h' with
    | closed hfirst' => exact absurd hfree (First.not_free hfirst')
    | unclosed => rfl

end TokenCode.StreamParser
