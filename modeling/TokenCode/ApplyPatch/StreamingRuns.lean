/-
Runs of the streaming patch parser.

A run feeds deltas with `push_delta` up to and including the first error. The first result says
that how the text is split into deltas cannot be seen (`outcome_flatten`), the second that the
hunks shown while the text arrives only grow: the hunks of a later delta are the earlier ones and
possibly more, where the last of the earlier ones may have been extended (`HunkExtends`).
-/
import TokenCode.ApplyPatch.StreamingSteps

namespace TokenCode.ApplyPatch

open List Text

/-! ### How a hunk may be extended -/

/-- Lines are added at the end of a chunk, and its end-of-file flag may be set. -/
structure ChunkExtends (c c' : UpdateFileChunk) : Prop where
  context : c'.changeContext = c.changeContext
  old : c.oldLines <+: c'.oldLines
  new : c.newLines <+: c'.newLines
  eof : c.isEndOfFile = true → c'.isEndOfFile = true

/-- How the last hunk of a patch may grow while the patch is read. -/
inductive HunkExtends : Hunk → Hunk → Prop
  | delete (path : Text) : HunkExtends (.deleteFile path) (.deleteFile path)
  | add (path : Text) {contents contents' : Text} (h : contents <+: contents') :
      HunkExtends (.addFile path contents) (.addFile path contents')
  | update (path : Text) {movePath movePath' : Option Text} {chunks chunks' : List UpdateFileChunk}
      (hmove : movePath = none ∨ movePath' = movePath) (hchunks : Grows ChunkExtends chunks chunks') :
      HunkExtends (.updateFile path movePath chunks) (.updateFile path movePath' chunks')

/-- The hunks `hs'` extend the hunks `hs`. -/
def HunksExtend (hs hs' : List Hunk) : Prop := Grows HunkExtends hs hs'

lemma ChunkExtends.trans {a b c : UpdateFileChunk} (h : ChunkExtends a b) (h' : ChunkExtends b c) :
    ChunkExtends a c :=
  ⟨h'.context.trans h.context, h.old.trans h'.old, h.new.trans h'.new, fun ha => h'.eof (h.eof ha)⟩

lemma HunkExtends.trans {a b c : Hunk} (h : HunkExtends a b) (h' : HunkExtends b c) :
    HunkExtends a c := by
  cases h with
  | delete path => exact h'
  | add path hc =>
    cases h' with
    | add _ hc' => exact .add path (hc.trans hc')
  | update path hmove hchunks =>
    cases h' with
    | update _ hmove' hchunks' =>
      refine .update path ?_ (hchunks.trans (fun _ _ _ h h' => h.trans h') hchunks')
      rcases hmove with hmove | rfl
      · exact Or.inl hmove
      · exact hmove'

lemma HunksExtend.refl (hs : List Hunk) : HunksExtend hs hs := Grows.refl hs

lemma HunksExtend.trans {a b c : List Hunk} (h : HunksExtend a b) (h' : HunksExtend b c) :
    HunksExtend a c :=
  Grows.trans (R := HunkExtends) (fun _ _ _ => HunkExtends.trans) h h'

variable (p : StreamingPatchParser) {st : StreamingParserState}

namespace StreamingPatchParser

/-! ### One line extends the hunks -/

lemma changeLastChunk_grows (chunks : List UpdateFileChunk)
    (change : UpdateFileChunk → UpdateFileChunk) (h : ∀ c, ChunkExtends c (change c)) :
    Grows ChunkExtends chunks (changeLastChunk chunks change) := by
  rcases chunks.eq_nil_or_concat with rfl | ⟨init, c, rfl⟩
  · exact Grows.append [] _
  · simpa [changeLastChunk] using Grows.last init (h c)

lemma LineEffect.chunks_grows (effect : LineEffect) (cs : List UpdateFileChunk) :
    Grows ChunkExtends cs (effect.chunks cs) := by
  cases effect with
  | skip | moveTo path => exact Grows.refl cs
  | openChunk ctx => exact Grows.append cs _
  | endOfFile =>
    simp only [LineEffect.chunks]
    split_ifs
    · exact Grows.refl cs
    · apply changeLastChunk_grows
      intro c
      exact ⟨rfl, prefix_refl _, prefix_refl _, fun _ => rfl⟩
  | context line =>
    simp only [LineEffect.chunks]
    apply changeLastChunk_grows
    intro c
    exact ⟨rfl, prefix_append _ _, prefix_append _ _, id⟩
  | added line =>
    simp only [LineEffect.chunks]
    apply changeLastChunk_grows
    intro c
    exact ⟨rfl, prefix_refl _, prefix_append _ _, id⟩
  | removed line =>
    simp only [LineEffect.chunks]
    apply changeLastChunk_grows
    intro c
    exact ⟨rfl, prefix_append _ _, prefix_refl _, id⟩

/-- A header keeps the hunks and may open one more. -/
lemma HeaderStep.keeps {p : StreamingPatchParser} {trimmed : Text}
    (h : HeaderStep p trimmed st) : p.state.hunks <+: st.hunks := by
  cases h with
  | environment | endPatch => exact prefix_refl _
  | hunk header => exact prefix_append _ _

open HunksExtend (refl)

/-- **A line extends the hunks.** -/
lemma LineStep.extends {p : StreamingPatchParser} {line : Text}
    (h : LineStep p line st) : HunksExtend p.state.hunks st.hunks := by
  cases h with
  | beginPatch => exact refl _
  | header _ _ h => exact Or.inl (handleHunkHeadersAndEndPatch_step h).keeps
  | content init path contents added _ hhunks =>
    rw [hhunks, List.append_assoc]
    exact Grows.last init (.add path (prefix_append contents _))
  | change n init path movePath chunks effect _ hhunks heffect =>
    have hmove : movePath = none ∨ effect.movePath movePath = movePath := by
      cases effect with
      | moveTo path => exact Or.inl (updateEffect_eq_ok_iff.1 heffect).moveTo_first.2
      | _ => exact Or.inr rfl
    rw [hhunks]
    exact Grows.last init (.update path hmove (effect.chunks_grows chunks))
  | trailing => exact refl _

lemma runLine_extends (line : Text) : HunksExtend p.state.hunks (runLine p line).1.state.hunks := by
  unfold runLine
  rcases h : processLine (nextLine p) line with e | st
  · exact refl _
  · exact (processLine_step h).extends

lemma pushChar_extends (ch : Char) : HunksExtend p.state.hunks (pushChar p ch).1.state.hunks := by
  unfold pushChar
  split_ifs
  · exact runLine_extends p _
  · exact refl _

lemma pushChars_extends (s : Text) : HunksExtend p.state.hunks (pushChars p s).1.state.hunks :=
  steps_related (R := fun p p' : StreamingPatchParser => HunksExtend p.state.hunks p'.state.hunks)
    (fun p => refl p.state.hunks) (fun _ _ _ h h' => h.trans h') pushChar_extends p s

/-! ### Runs -/

/-- Feed the deltas with `push_delta`, up to and including the first error. -/
def pushDeltas : StreamingPatchParser → List Text → StreamingPatchParser × Option ParseError
  | p, [] => (p, none)
  | p, delta :: deltas =>
    match pushDelta p delta with
    | (p', .ok _) => pushDeltas p' deltas
    | (p', .error e) => (p', some e)

/-- The results of `push_delta` on the deltas, up to and including the first error. -/
def pushResults : StreamingPatchParser → List Text → List (Except ParseError (List Hunk))
  | _, [] => []
  | p, delta :: deltas =>
    match pushDelta p delta with
    | (p', .ok hunks) => .ok hunks :: pushResults p' deltas
    | (_, .error e) => [.error e]

/-- What a run is observed by: the error that stopped it, the result of `finish` afterwards, and
the hunks, the environment and the line number the parser ends with. -/
structure Outcome where
  pushError : Option ParseError
  finished : Except ParseError (List Hunk)
  hunks : List Hunk
  environmentId : Option Text
  lineNumber : ℕ

/-- The outcome of feeding `deltas` and then calling `finish`. -/
def outcome (p : StreamingPatchParser) (deltas : List Text) : Outcome :=
  let pushed := pushDeltas p deltas
  let finished := finish pushed.1
  ⟨pushed.2, finished.2, finished.1.state.hunks, finished.1.environmentId, finished.1.lineNumber⟩

variable (deltas : List Text)

/-- Feeding deltas is running the loop of `push_delta` over all their characters. -/
lemma pushDeltas_eq_pushChars : pushDeltas p deltas = pushChars p deltas.flatten := by
  have hsteps : pushDeltas p deltas = steps (steps pushChar) p deltas := by
    induction deltas generalizing p with
    | nil => rfl
    | cons delta deltas ih =>
      rcases hp : steps pushChar p delta with ⟨p', _ | e⟩
      · rw [steps_cons_ok hp, ← ih]
        simp [pushDeltas, pushDelta, pushChars, hp]
      · rw [steps_cons_error hp]
        simp [pushDeltas, pushDelta, pushChars, hp]
  rw [hsteps, steps_flatten]
  rfl

/-- The hunks of the results of a run extend the ones it starts from. -/
lemma pushResults_extend {p : StreamingPatchParser} {deltas : List Text} {hunks : List Hunk}
    (h : .ok hunks ∈ pushResults p deltas) : HunksExtend p.state.hunks hunks := by
  induction deltas generalizing p with
  | nil => simp [pushResults] at h
  | cons delta deltas ih =>
    have hpush := pushChars_extends p delta
    rcases hp : pushChars p delta with ⟨p', _ | e⟩
    · rw [hp] at hpush
      simp only [pushResults, pushDelta, hp, mem_cons, Except.ok.injEq] at h
      rcases h with rfl | h
      · exact hpush
      · exact hpush.trans (ih h)
    · simp [pushResults, pushDelta, hp] at h

/-- Along a run the results extend one another. -/
lemma pushResults_pairwise : (pushResults p deltas).Pairwise fun r r' =>
      ∀ hs hs', r = .ok hs → r' = .ok hs' → HunksExtend hs hs' := by
  induction deltas generalizing p with
  | nil => exact Pairwise.nil
  | cons delta deltas ih =>
    rcases hp : pushChars p delta with ⟨p', _ | e⟩
    · simp only [pushResults, pushDelta, hp]
      refine Pairwise.cons ?_ (ih p')
      rintro r' hr' hs hs' hr rfl
      obtain rfl : p'.state.hunks = hs := by simpa using hr
      exact pushResults_extend hr'
    · simp [pushResults, pushDelta, hp]

/-- **The streaming parser cannot see how its text is split, and what it shows only grows.**
Feeding any deltas and finishing gives what feeding the whole text in one delta gives; and of any
two successful results of one run, the later hunks extend the earlier ones. -/
theorem streaming_chunking_monotone (deltas : List Text) :
    outcome default deltas = outcome default [deltas.flatten] ∧
      ∀ i j : ℕ, i < j → ∀ hs hs' : List Hunk, (pushResults default deltas)[i]? = some (.ok hs) →
        (pushResults default deltas)[j]? = some (.ok hs') → HunksExtend hs hs' := by
  constructor
  · simp [outcome, pushDeltas_eq_pushChars]
  · intro i j hij hs hs' hi hj
    obtain ⟨hil, hi⟩ := List.getElem?_eq_some_iff.1 hi
    obtain ⟨hjl, hj⟩ := List.getElem?_eq_some_iff.1 hj
    exact pairwise_iff_getElem.1 (pushResults_pairwise default deltas) i j hil hjl hij hs hs' hi hj

end StreamingPatchParser

end TokenCode.ApplyPatch
