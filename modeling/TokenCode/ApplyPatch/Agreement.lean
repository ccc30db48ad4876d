/-
When the streaming parser and `parse_patch` agree.

`parse_patch` cuts the trimmed text with `str::lines`, which takes one carriage return off each
line, joins the lines and feeds them to the streaming parser, which takes off another one. So the
two readings of a text can differ only where a line of the text ends in `\r\r\n` and the line is
stored: as file content of an `Add File` hunk, or as a context, added or removed line of an
`Update File` hunk. Besides, `finish` takes the end marker for the whole patch when the text has
one line only.

The proof runs the two parsers in parallel. They go through the same modes, and the hunks that
they build have the same shape (`HunkLike`).
-/
import TokenCode.ApplyPatch.Parser
import TokenCode.ApplyPatch.StreamingRuns

namespace TokenCode.ApplyPatch

open List Text

variable {p q p' : StreamingPatchParser} {line : Text} {st : StreamingParserState} {ls : List Text}
  {cs cs' : List UpdateFileChunk} {effect : LineEffect} {hunks : List Hunk}
  {t trimmed first blanks : Text} {n : ℕ} {mids : List Text}

namespace StreamingPatchParser

/-! ### The shape of a text that is accepted -/

lemma trim_of_trimEnd_eq_endPatch {l : Text} (h : trimEnd l = endPatchMarker) :
    trim l = endPatchMarker := by
  rw [← trim_trimEnd, h]
  decide

variable (h : LineStep p line st)
include h

/-- The only line that closes a patch is the end marker. -/
lemma LineStep.ended (hp : p.state.mode ≠ .endedPatch) (hst : st.mode = .endedPatch) :
    trim line = endPatchMarker ∧ ensureUpdateHunkIsNotEmpty p endPatchMarker = .ok () ∧
      st = { p.state with mode := .endedPatch } := by
  cases h with
  | beginPatch => simp at hst
  | content | change => exact absurd hst hp
  | trailing hmode => exact absurd hmode hp
  | header hmode hended h =>
    cases handleHunkHeadersAndEndPatch_step h with
    | environment id _ => exact absurd hst hp
    | endPatch htrimmed hens =>
      refine ⟨?_, by rw [← htrimmed]; exact hens, rfl⟩
      cases hm : p.state.mode <;> rw [hm] at htrimmed
      case updateFile n => exact trim_of_trimEnd_eq_endPatch htrimmed
      all_goals exact htrimmed
    | hunk header hheader =>
      rcases hunkHeader_cases hheader with ⟨path, rfl⟩ | ⟨path, rfl⟩ | ⟨path, rfl⟩ <;>
        simp [pushHunk] at hst

/-- Before the begin marker nothing else is accepted. -/
lemma LineStep.beginMarker (hp : p.state.mode = .notStarted) : trim line = beginPatchMarker := by
  cases h with
  | beginPatch _ hline => exact hline
  | header hmode => exact absurd hp hmode
  | content _ _ _ _ hmode | change _ _ _ _ _ _ hmode | trailing hmode => simp [hmode] at hp

/-- After the end marker only blank lines are accepted, and they change nothing. -/
lemma LineStep.afterEnd (hp : p.state.mode = .endedPatch) : trim line = [] ∧ st = p.state := by
  cases h with
  | trailing _ hline => exact ⟨hline, rfl⟩
  | beginPatch hmode => simp [hp] at hmode
  | header _ hmode => exact absurd hp hmode
  | content _ _ _ _ hmode | change _ _ _ _ _ _ hmode => simp [hp] at hmode

omit h

/-- After the end marker the lines of a run are blank. -/
lemma runLines_afterEnd (h : runLines p ls = (q, none)) (hp : p.state.mode = .endedPatch) :
    (∀ l ∈ ls, trim l = []) ∧ q.state = p.state := by
  induction ls generalizing p with
  | nil =>
    obtain rfl : p = q := by simpa [runLines] using h
    exact ⟨by simp, rfl⟩
  | cons l ls ih =>
    obtain ⟨r, hr, h⟩ := steps_cons_eq_ok h
    obtain ⟨st, hst, rfl⟩ := runLine_eq_ok hr
    obtain ⟨hblank, rfl⟩ := (processLine_step hst).afterEnd hp
    obtain ⟨hblanks, hq⟩ := ih h hp
    exact ⟨by simpa [hblank] using hblanks, hq⟩

/-- A run that closes the patch has a line at which it does. -/
lemma runLines_ended (h : runLines default ls = (q, none)) (hq : q.state.mode = .endedPatch) :
    ∃ pre e blanks q₁ r, ls = pre ++ e :: blanks ∧ runLines default pre = (q₁, none) ∧
      q₁.state.mode ≠ .endedPatch ∧ runLine q₁ e = (r, none) ∧ r.state.mode = .endedPatch ∧
      runLines r blanks = (q, none) := by
  -- induction on the lines from the end: the last line closes the patch, or it was closed before
  induction ls using reverseRecOn generalizing q with
  | nil =>
    obtain rfl : default = q := by simpa [runLines] using h
    exact absurd hq (by decide)
  | append_singleton ls l ih =>
    obtain ⟨s, hs, hl⟩ := steps_append_eq_ok h
    by_cases hmode : s.state.mode = .endedPatch
    · obtain ⟨pre, e, blanks, q₁, r, rfl, hpre, hq₁, he, hr, hblanks⟩ := ih hs hmode
      refine ⟨pre, e, blanks ++ [l], q₁, r, by simp, hpre, hq₁, he, hr, ?_⟩
      rw [runLines, steps_append_ok hblanks]
      exact hl
    · obtain ⟨r, hr, hnil⟩ := steps_cons_eq_ok hl
      obtain rfl : r = q := by simpa using hnil
      exact ⟨ls, l, [], s, r, rfl, hs, hmode, hr, hq, rfl⟩

/-! ### Lines that are stored -/

/-- The line of an update hunk is part of the chunk, not a marker or a header. -/
def LineEffect.isContent : LineEffect → Bool
  | .context _ | .added _ | .removed _ => true
  | _ => false

/-- The line is stored: as content of an added file, or in a chunk of an update. -/
def storesLine (p : StreamingPatchParser) (line : Text) : Bool :=
  match p.state.mode, p.state.hunks.getLast? with
  | .addFile, _ => handleHunkHeadersAndEndPatch p (trim line) = .ok none
  | .updateFile _, some (.updateFile _ movePath chunks) =>
    handleHunkHeadersAndEndPatch p (trimEnd line) = .ok none &&
      match updateEffect p.lineNumber line movePath chunks with
      | .ok effect => effect.isContent
      | .error _ => false
  | _, _ => false

/-- Some line of the run is stored with a carriage return at its end. -/
def keepsCr : StreamingPatchParser → List Text → Bool
  | _, [] => false
  | p, l :: ls =>
    (storesLine (nextLine p) l && l.getLast? == some '\r') || keepsCr (runLine p l).1 ls

lemma keepsCr_append {xs : List Text} (h : runLines p xs = (q, none)) (ys : List Text) :
    keepsCr p (xs ++ ys) = (keepsCr p xs || keepsCr q ys) := by
  induction xs generalizing p with
  | nil =>
    obtain rfl : p = q := by simpa [runLines] using h
    simp [keepsCr]
  | cons x xs ih =>
    obtain ⟨r, hr, h⟩ := steps_cons_eq_ok h
    simp [keepsCr, hr, ih h, Bool.or_assoc]

/-- A header is not stored. -/
lemma storesLine_of_header
    (h : handleHunkHeadersAndEndPatch p (headerText p.state.mode line) = .ok (some st)) :
    storesLine p line = false := by
  unfold storesLine
  split <;> simp_all [headerText]

/-- A line that closes the patch, or follows its end, is not stored. -/
lemma LineStep.storesLine_of_ended (h : LineStep p line st) (hst : st.mode = .endedPatch) :
    storesLine p line = false := by
  cases h with
  | beginPatch => simp at hst
  | content _ _ _ _ hmode => exact absurd (hmode.symm.trans hst) (by simp)
  | change _ _ _ _ _ _ hmode => exact absurd (hmode.symm.trans hst) (by simp)
  | trailing hmode => simp [storesLine, hmode]
  | header hmode hended h => exact storesLine_of_header h

/-- After the end of the patch nothing is stored. -/
lemma keepsCr_ended
    (h : runLines p ls = (q, none)) (hp : p.state.mode = .endedPatch) : keepsCr p ls = false := by
  induction ls generalizing p with
  | nil => rfl
  | cons l ls ih =>
    obtain ⟨r, hr, h⟩ := steps_cons_eq_ok h
    have hmode : r.state.mode = .endedPatch := by
      have hone : runLines p [l] = (r, none) := steps_cons_ok hr []
      rw [(runLines_afterEnd hone hp).2]
      exact hp
    have hstores : storesLine (nextLine p) l = false := by simp [storesLine, hp]
    simp [keepsCr, hstores, hr, ih h hmode]

/-! ### The shape of an accepted text -/

/-- The text `t` is `pre`, the end marker `e` and blanks; `q` is the parser after `pre`. -/
structure Accepted (t : Text) (pre : List Text) (e blanks : Text) (q : StreamingPatchParser) :
    Prop where
  text : t = unlines pre ++ (e ++ blanks)
  blank : Blank blanks
  noNewline : ∀ l ∈ pre, '\n' ∉ l
  noNewlineEnd : '\n' ∉ e
  endMarker : trim e = endPatchMarker
  run : runLines default (pre.map stripCr) = (q, none)
  notEmpty : ensureUpdateHunkIsNotEmpty (nextLine q) endPatchMarker = .ok ()
  /-- Only a text of one line is accepted without a begin marker. -/
  newline : '\n' ∈ t → pre ≠ []
  keeps : keepsCr default ((cut t).1.map stripCr) = keepsCr default (pre.map stripCr)

/-- What `finish` accepts: the end marker, or blanks after it. -/
lemma finish_eq_ok (h : finish p = (p', .ok hunks)) :
    (p.state.mode = .endedPatch ∧ Blank p.lineBuffer ∧ p'.state = p.state ∧ hunks = p.state.hunks) ∨
      (trim p.lineBuffer = endPatchMarker ∧
        ensureUpdateHunkIsNotEmpty (nextLine p) endPatchMarker = .ok () ∧
        p'.state = { p.state with mode := .endedPatch } ∧ hunks = p.state.hunks) := by
  have hline : finishLine p = (p', none) ∧ p'.state.mode = .endedPatch ∧
      hunks = p'.state.hunks := by
    unfold finish at h
    rcases hf : finishLine p with ⟨r, _ | e⟩
    · simp only [hf] at h
      split_ifs at h with hmode
      · obtain ⟨rfl, h⟩ := Prod.mk.inj h
        exact ⟨rfl, hmode, by simpa using h.symm⟩
      · simp at h
    · simp [hf] at h
  obtain ⟨hline, hmode, rfl⟩ := hline
  unfold finishLine at hline
  split_ifs at hline with hnil hend
  · obtain rfl : p = p' := by simpa using hline
    exact Or.inl ⟨hmode, by simp [hnil, Blank], rfl, rfl⟩
  · right
    rw [hend] at hline
    split at hline
    · rename_i hens
      cases hline
      exact ⟨hend, hens, rfl, rfl⟩
    · simp at hline
  · left
    obtain ⟨st, hst, rfl⟩ := runLine_eq_ok hline
    have hstep := processLine_step hst
    by_cases hp : p.state.mode = .endedPatch
    · obtain ⟨hblank, rfl⟩ := hstep.afterEnd hp
      exact ⟨hp, trim_eq_nil_iff.1 hblank, rfl, rfl⟩
    · exact absurd (hstep.ended hp hmode).1 hend

lemma accepted (hpush : pushChars default t = (p, none)) (hfinish : finish p = (p', .ok hunks)) :
    ∃ pre e blanks q, Accepted t pre e blanks q ∧ hunks = q.state.hunks ∧
      p'.environmentId = q.state.environmentId := by
  obtain ⟨q, hrun, rfl⟩ := pushChars_default_eq_ok hpush
  obtain ⟨hls, htail⟩ := cut_no_newline t
  have htext := unlines_cut t
  rcases finish_eq_ok hfinish with ⟨hended, hblank, hp', rfl⟩ | ⟨hend, hens, hp', rfl⟩
  · -- the end marker is a line of the text
    obtain ⟨pre', e', blanks', q₁, r, hcut, hpre, hq₁, he, hr, hblanks⟩ := runLines_ended hrun hended
    obtain ⟨pre, rest, hcut', rfl, hrest⟩ := map_eq_append_iff.1 hcut
    obtain ⟨e, bs, rfl, rfl, rfl⟩ := map_eq_cons_iff.1 hrest
    obtain ⟨st, hst, rfl⟩ := runLine_eq_ok he
    have hstep := processLine_step hst
    obtain ⟨hend, hens, rfl⟩ := hstep.ended hq₁ hr
    obtain ⟨hbs, hq⟩ := runLines_afterEnd hblanks rfl
    rw [hcut'] at hls htext
    have hbs' : Blank (unlines bs) := by
      intro c hc
      obtain ⟨b, hb, hc⟩ := mem_flatMap.1 hc
      have hb' : Blank b := trim_eq_nil_iff.1 (by
        rw [← trim_stripCr]
        exact hbs _ (mem_map_of_mem hb))
      rcases mem_append.1 hc with hc | hc
      · exact hb' c hc
      · rw [mem_singleton.1 hc]
        decide
    refine ⟨pre, e, '\n' :: unlines bs ++ (cut t).2, q₁, ⟨?_, ?_, ?_, ?_, ?_, hpre, hens, ?_, ?_⟩,
      congrArg (·.hunks) hq, congrArg (·.environmentId) (hp'.trans hq)⟩
    · refine htext.symm.trans ?_
      simp [unlines]
    · intro c hc
      rcases mem_append.1 hc with hc | hc
      · rcases mem_cons.1 hc with rfl | hc
        · decide
        · exact hbs' c hc
      · exact hblank c hc
    · exact fun l hl => hls l (mem_append_left _ hl)
    · exact hls e (by simp)
    · rw [← trim_stripCr, hend]
    · -- the first line of the text is the begin marker
      rintro - rfl
      obtain rfl : default = q₁ := by simpa [runLines] using hpre
      have hbegin := hstep.beginMarker rfl
      rw [hend] at hbegin
      exact absurd hbegin (by decide)
    · rw [hcut, keepsCr_append hpre, keepsCr, he, keepsCr_ended hblanks rfl,
        hstep.storesLine_of_ended rfl]
      simp
  · -- the end marker is the tail of the text
    refine ⟨(cut t).1, (cut t).2, [], q, ⟨by simpa using htext.symm, by simp [Blank], hls, htail,
      hend, hrun, hens, ?_, rfl⟩, rfl, congrArg (·.environmentId) hp'⟩
    intro hnl hnil
    rw [← htext, hnil] at hnl
    exact htail (by simpa [unlines] using hnl)

/-! ### Two runs, line by line -/

/-- Chunks that can differ only in what their lines say. -/
structure ChunkLike (c c' : UpdateFileChunk) : Prop where
  changeContext : c'.changeContext = c.changeContext
  oldLines : c'.oldLines.length = c.oldLines.length
  newLines : c'.newLines.length = c.newLines.length
  isEndOfFile : c'.isEndOfFile = c.isEndOfFile

/-- Hunks that can differ only in what their lines say, where the second one has lost some of the
content. -/
inductive HunkLike : Hunk → Hunk → Prop
  | add (path : Text) {contents contents' : Text} (h : contents'.length ≤ contents.length) :
      HunkLike (.addFile path contents) (.addFile path contents')
  | delete (path : Text) : HunkLike (.deleteFile path) (.deleteFile path)
  | update (path : Text) (movePath : Option Text) {chunks chunks' : List UpdateFileChunk}
      (h : List.Forall₂ ChunkLike chunks chunks') :
      HunkLike (.updateFile path movePath chunks) (.updateFile path movePath chunks')

structure StateLike (st st' : StreamingParserState) : Prop where
  mode : st'.mode = st.mode
  hunks : List.Forall₂ HunkLike st.hunks st'.hunks
  environmentId : st'.environmentId = st.environmentId

lemma ChunkLike.refl (c : UpdateFileChunk) : ChunkLike c c := ⟨rfl, rfl, rfl, rfl⟩

lemma ChunkLike.isEmpty {c c' : UpdateFileChunk} (h : ChunkLike c c') : c'.isEmpty = c.isEmpty := by
  have hempty : ∀ {xs ys : List Text}, ys.length = xs.length → ys.isEmpty = xs.isEmpty := by
    intro xs ys hlen
    cases xs <;> cases ys <;> simp_all
  rw [UpdateFileChunk.isEmpty, UpdateFileChunk.isEmpty, hempty h.oldLines, hempty h.newLines]

/-- Related lists are empty together, or end in related elements. -/
lemma forall₂_last {α β : Type} {R : α → β → Prop} {xs : List α} {ys : List β}
    (h : List.Forall₂ R xs ys) :
    (xs = [] ∧ ys = []) ∨ ∃ as x bs y, xs = as ++ [x] ∧ ys = bs ++ [y] ∧
      List.Forall₂ R as bs ∧ R x y := by
  induction h with
  | nil => exact Or.inl ⟨rfl, rfl⟩
  | @cons x y xs ys hxy h ih =>
    right
    rcases ih with ⟨rfl, rfl⟩ | ⟨as, x', bs, y', rfl, rfl, hab, hxy'⟩
    · exact ⟨[], x, [], y, rfl, rfl, .nil, hxy⟩
    · exact ⟨x :: as, x', y :: bs, y', rfl, rfl, .cons hxy hab, hxy'⟩

/-- The tests that `process_line` makes on the chunks do not look at their lines. -/
lemma chunksLike_tests (h : List.Forall₂ ChunkLike cs cs') :
    (cs' = [] ↔ cs = []) ∧ atEof cs' = atEof cs ∧ lastIsEmpty cs' = lastIsEmpty cs := by
  rcases forall₂_last h with ⟨rfl, rfl⟩ | ⟨as, c, bs, c', rfl, rfl, -, hc⟩
  · simp
  · simp [atEof, lastIsEmpty, hc.isEmpty, hc.isEndOfFile]

section

variable (hlike : StateLike p.state p'.state)
include hlike

variable (hn : p'.lineNumber = p.lineNumber)
include hn

lemma ensureUpdateHunkIsNotEmpty_like (line : Text) :
    ensureUpdateHunkIsNotEmpty p' line = ensureUpdateHunkIsNotEmpty p line := by
  rcases forall₂_last hlike.hunks with ⟨h1, h2⟩ | ⟨as, k, bs, k', h1, h2, -, hk⟩
  · simp [ensureUpdateHunkIsNotEmpty, h1, h2]
  · cases hk with
    | add | delete => simp [ensureUpdateHunkIsNotEmpty, h1, h2]
    | update path movePath hchunks =>
      rcases forall₂_last hchunks with ⟨rfl, rfl⟩ | ⟨cs, c, cs', c', rfl, rfl, -, hc⟩
      · simp [ensureUpdateHunkIsNotEmpty, h1, h2, hlike.mode, hn]
      · simp [ensureUpdateHunkIsNotEmpty, h1, h2, hc.isEmpty, hn]

/-- A header does the same in both runs. -/
lemma HeaderStep.like
    (h : HeaderStep p trimmed st) : ∃ st', HeaderStep p' trimmed st' ∧ StateLike st st' ∧
      (st.hunks = st'.hunks ↔ p.state.hunks = p'.state.hunks) := by
  have hens := ensureUpdateHunkIsNotEmpty_like hlike hn trimmed
  cases h with
  | environment id hmode hid hnone hne =>
    exact ⟨_, .environment id (by rw [hlike.mode, hmode]) hid (by rw [hlike.environmentId, hnone])
      hne, ⟨hlike.mode, hlike.hunks, rfl⟩, Iff.rfl⟩
  | endPatch htrimmed hok =>
    exact ⟨_, .endPatch htrimmed (by rw [hens, hok]), ⟨rfl, hlike.hunks, hlike.environmentId⟩,
      Iff.rfl⟩
  | hunk header hheader hok =>
    have hself : HunkLike header.1 header.1 := by
      rcases hunkHeader_cases hheader with ⟨path, rfl⟩ | ⟨path, rfl⟩ | ⟨path, rfl⟩
      · exact .add path le_rfl
      · exact .delete path
      · exact .update path none .nil
    refine ⟨_, .hunk header (by rw [hn, hheader]) (by rw [hens, hok]),
      ⟨rfl, rel_append hlike.hunks (.cons hself .nil), hlike.environmentId⟩, ?_⟩
    simp [pushHunk]

lemma handleHunkHeadersAndEndPatch_none_like
    (h : handleHunkHeadersAndEndPatch p trimmed = .ok none) :
    handleHunkHeadersAndEndPatch p' trimmed = .ok none := by
  rw [handleHunkHeadersAndEndPatch_eq_none_iff] at h ⊢
  rwa [hlike.mode, hn]

end

lemma StateLike.last {st' : StreamingParserState} (h : StateLike st st') {init : List Hunk}
    {hunk : Hunk} (hhunks : st.hunks = init ++ [hunk]) :
    ∃ init' hunk', st'.hunks = init' ++ [hunk'] ∧ List.Forall₂ HunkLike init init' ∧
      HunkLike hunk hunk' := by
  rcases forall₂_last h.hunks with ⟨h1, -⟩ | ⟨as, x, bs, y, h1, h2, hab, hxy⟩
  · rw [h1] at hhunks
    simp at hhunks
  · rw [h1, append_singleton_inj] at hhunks
    obtain ⟨rfl, rfl⟩ := hhunks
    exact ⟨bs, y, h2, hab, hxy⟩

/-- The effect with one more carriage return taken off the stored line. -/
def LineEffect.stripCr : LineEffect → LineEffect
  | .context line => .context (Text.stripCr line)
  | .added line => .added (Text.stripCr line)
  | .removed line => .removed (Text.stripCr line)
  | effect => effect

lemma contentEffect_stripCr (h : contentEffect n line cs = .ok effect) (n' : ℕ)
    (cs' : List UpdateFileChunk) : contentEffect n' (stripCr line) cs' = .ok effect.stripCr ∧
      (effect.stripCr = effect ↔ stripCr line = line) := by
  unfold contentEffect at h
  split at h
  · cases h
    exact ⟨rfl, by simp [LineEffect.stripCr]⟩
  case h_5 => split at h <;> simp at h
  all_goals
    cases h
    rw [stripCr_cons (by decide)]
    exact ⟨rfl, by simp [LineEffect.stripCr]⟩

lemma contentEffect_isContent (h : contentEffect n line cs = .ok effect) :
    effect.isContent = true := by
  unfold contentEffect at h
  repeat' split at h
  all_goals
    first
    | cases h
      rfl
    | simp at h

section

variable (hcs : List.Forall₂ ChunkLike cs cs')
include hcs

open LineEffect (isContent)

/-- A line has the same effect in both runs, up to the line that it stores. -/
lemma EffectStep.like {m : Option Text}
    (h : EffectStep n line m cs effect) : EffectStep n (stripCr line) m cs' effect.stripCr ∧
      (effect.stripCr = effect ↔ (effect.isContent = true → stripCr line = line)) := by
  obtain ⟨hnil, heof', hempty⟩ := chunksLike_tests hcs
  have htrim := trimEnd_stripCr line
  cases h with
  | skip heof hline =>
    exact ⟨.skip (by rw [heof', heof]) (by rw [htrim, hline]),
      by simp [LineEffect.stripCr, isContent]⟩
  | moveTo path hchunks hmove hline =>
    exact ⟨.moveTo path (hnil.2 hchunks) hmove (by rw [htrim, hline]),
      by simp [LineEffect.stripCr, isContent]⟩
  | openEmpty hlast hline =>
    exact ⟨.openEmpty (by rw [hempty, hlast]) (by rw [htrim, hline]),
      by simp [LineEffect.stripCr, isContent]⟩
  | openContext ctx hlast hline =>
    exact ⟨.openContext ctx (by rw [hempty, hlast]) (by rw [htrim, hline]),
      by simp [LineEffect.stripCr, isContent]⟩
  | endOfFile heof hlast hline =>
    exact ⟨.endOfFile (by rw [heof', heof]) (by rw [hempty, hlast]) (by rw [htrim, hline]),
      by simp [LineEffect.stripCr, isContent]⟩
  | content heof hmove hheader hline h =>
    obtain ⟨hstrip, hiff⟩ := contentEffect_stripCr h n cs'
    refine ⟨.content (by rw [heof', heof]) (fun h1 h2 => ?_) (by rw [htrim, hheader])
      (by rw [htrim]; exact hline) hstrip, ?_⟩
    · rw [htrim]
      exact hmove (hnil.1 h1) h2
    · rw [hiff, contentEffect_isContent h]
      simp

lemma changeLastChunk_like {f f' : UpdateFileChunk → UpdateFileChunk} {P : Prop}
    (hf : ∀ c c', ChunkLike c c' → ChunkLike (f c) (f' c') ∧ (f c = f' c' ↔ c = c' ∧ P)) :
    List.Forall₂ ChunkLike (changeLastChunk cs f) (changeLastChunk cs' f') ∧
      (changeLastChunk cs f = changeLastChunk cs' f' ↔ cs = cs' ∧ P) := by
  rcases forall₂_last hcs with ⟨rfl, rfl⟩ | ⟨as, c, bs, c', rfl, rfl, hab, hc⟩
  · have h := hf _ _ (ChunkLike.refl (.opened none))
    simpa [changeLastChunk] using h
  · have h := hf c c' hc
    refine ⟨by simpa [changeLastChunk] using rel_append hab (.cons h.1 .nil), ?_⟩
    simp [changeLastChunk, h.2, and_assoc]

/-- The chunks of the two runs after a line. -/
lemma LineEffect.chunks_like (effect : LineEffect) :
    List.Forall₂ ChunkLike (effect.chunks cs) (effect.stripCr.chunks cs') ∧
      (effect.chunks cs = effect.stripCr.chunks cs' ↔ cs = cs' ∧ effect.stripCr = effect) := by
  cases effect with
  | skip | moveTo path => exact ⟨hcs, by simp [chunks, stripCr]⟩
  | openChunk ctx =>
    exact ⟨rel_append hcs (.cons (.refl _) .nil), by simp [chunks, stripCr]⟩
  | endOfFile =>
    have hnil := (chunksLike_tests hcs).1
    simp only [chunks, stripCr, hnil]
    split_ifs with h
    · exact ⟨hcs, by simp⟩
    · refine changeLastChunk_like hcs fun c c' hc => ⟨⟨hc.1, hc.2, hc.3, rfl⟩, ?_⟩
      have heof := hc.isEndOfFile
      cases c
      cases c'
      simp_all
  | context line | added line | removed line =>
    simp only [chunks, stripCr]
    refine changeLastChunk_like hcs ?_
    intro c c' hc
    refine ⟨⟨hc.1, by simp [hc.2], by simp [hc.3], hc.4⟩, ?_⟩
    cases c
    cases c'
    simp only [UpdateFileChunk.mk.injEq, append_singleton_inj]
    grind

end

/-- **One line in both runs.**  The hunks stay alike, and they are the same when they were before
and the line is not stored with a carriage return at its end. -/
lemma LineStep.like (hlike : StateLike p.state p'.state) (hn : p'.lineNumber = p.lineNumber)
    (h : LineStep p line st) : ∃ st', LineStep p' (stripCr line) st' ∧ StateLike st st' ∧
      (st.hunks = st'.hunks ↔ p.state.hunks = p'.state.hunks ∧
        (storesLine p line && line.getLast? == some '\r') = false) := by
  cases h with
  | beginPatch hmode hline =>
    refine ⟨_, .beginPatch (hlike.mode.trans hmode) (by rw [trim_stripCr, hline]),
      ⟨rfl, hlike.hunks, hlike.environmentId⟩, ?_⟩
    simp [storesLine, hmode]
  | header hmode hended h =>
    obtain ⟨st', hst', hlike', hiff⟩ := (handleHunkHeadersAndEndPatch_eq_some_iff.1 h).like hlike hn
    have htext : headerText p'.state.mode (stripCr line) = headerText p.state.mode line := by
      rw [hlike.mode]
      cases p.state.mode <;> simp [headerText, trim_stripCr, trimEnd_stripCr]
    refine ⟨st', .header (by rwa [hlike.mode]) (by rwa [hlike.mode]) ?_, hlike', ?_⟩
    · rw [htext]
      exact handleHunkHeadersAndEndPatch_eq_some_iff.2 hst'
    · rw [hiff, storesLine_of_header h]
      simp
  | content init path contents added hmode hhunks hline h =>
    obtain ⟨init', hunk', hhunks', hinit, hhunk⟩ := hlike.last hhunks
    obtain ⟨contents', hlen, rfl⟩ : ∃ contents', contents'.length ≤ contents.length ∧
        hunk' = .addFile path contents' := by
      cases hhunk with
      | add _ hlen => exact ⟨_, hlen, rfl⟩
    have hstores : storesLine p line = true := by simp [storesLine, hmode, h]
    have hstrip : stripCr line = '+' :: stripCr added := by
      rw [hline, stripCr_cons (by decide)]
    have hnone := handleHunkHeadersAndEndPatch_none_like hlike hn h
    rw [← trim_stripCr] at hnone
    have hle := length_stripCr_le added
    refine ⟨_, .content init' path contents' (stripCr added) (hlike.mode.trans hmode) hhunks'
      hstrip hnone, ⟨hlike.mode, rel_append hinit (.cons (.add path (by simp; omega)) .nil),
      hlike.environmentId⟩, ?_⟩
    have hcr : (line.getLast? == some '\r') = false ↔ stripCr added = added := by
      rw [beq_eq_false_iff_ne, ← stripCr_eq_self_iff, hstrip, hline]
      simp
    rw [hhunks, hhunks', hstores, Bool.true_and, hcr, append_singleton_inj,
      append_singleton_inj, Hunk.addFile.injEq, Hunk.addFile.injEq, and_assoc, and_assoc]
    refine and_congr_right fun _ => and_congr_right fun _ => ?_
    -- both the content and the line can only have become shorter
    constructor
    · intro heq
      have heq' := append_cancel_right heq
      have hlens := congrArg List.length heq'
      simp only [length_append] at hlens
      obtain ⟨h1, h2⟩ := append_inj heq' (by omega)
      exact ⟨h1, h2.symm⟩
    · rintro ⟨rfl, h2⟩
      rw [h2]
  | change n init path movePath chunks effect hmode hhunks heffect h =>
    obtain ⟨init', hunk', hhunks', hinit, hhunk⟩ := hlike.last hhunks
    obtain ⟨chunks', hchunks, rfl⟩ : ∃ chunks', List.Forall₂ ChunkLike chunks chunks' ∧
        hunk' = .updateFile path movePath chunks' := by
      cases hhunk with
      | update _ _ hchunks => exact ⟨_, hchunks, rfl⟩
    rw [updateEffect_eq_ok_iff, ← hn] at heffect
    obtain ⟨heffect', hiff⟩ := heffect.like hchunks
    obtain ⟨hlike', hiff'⟩ := LineEffect.chunks_like hchunks effect
    have hmove : effect.stripCr.movePath movePath = effect.movePath movePath := by
      cases effect <;> rfl
    have hnone := handleHunkHeadersAndEndPatch_none_like hlike hn h
    rw [← trimEnd_stripCr] at hnone
    have hstep := LineStep.change n init' path movePath chunks' effect.stripCr
      (hlike.mode.trans hmode) hhunks' (updateEffect_eq_ok_iff.2 heffect') hnone
    rw [hmove] at hstep
    refine ⟨_, hstep, ⟨hlike.mode, rel_append hinit (.cons (.update path _ hlike') .nil),
      hlike.environmentId⟩, ?_⟩
    have hstores : storesLine p line = effect.isContent := by
      rw [hn, ← updateEffect_eq_ok_iff] at heffect
      simp [storesLine, hmode, hhunks, h, heffect]
    have hcr : (effect.isContent && line.getLast? == some '\r') = false ↔
        effect.stripCr = effect := by
      rw [hiff, Bool.and_eq_false_imp, beq_eq_false_iff_ne, ← stripCr_eq_self_iff]
    rw [hhunks, hhunks', hstores, hcr]
    simp [hiff', and_assoc]
  | trailing hmode hline =>
    refine ⟨_, .trailing (hlike.mode.trans hmode) (by rw [trim_stripCr, hline]), hlike, ?_⟩
    simp [storesLine, hmode]

/-- **Two runs.**  A run goes through with one more carriage return taken off each line, and gives
the same hunks exactly when none was stored. -/
lemma runLines_like (hlike : StateLike p.state p'.state) (hn : p'.lineNumber = p.lineNumber)
    (h : runLines p ls = (q, none)) :
    ∃ q', runLines p' (ls.map stripCr) = (q', none) ∧ StateLike q.state q'.state ∧
      q'.lineNumber = q.lineNumber ∧ (q.state.hunks = q'.state.hunks ↔
        p.state.hunks = p'.state.hunks ∧ keepsCr p ls = false) := by
  induction ls generalizing p p' with
  | nil =>
    obtain rfl : p = q := by simpa [runLines] using h
    exact ⟨p', rfl, hlike, hn, by simp [keepsCr]⟩
  | cons l ls ih =>
    obtain ⟨r, hr, h⟩ := steps_cons_eq_ok h
    obtain ⟨st, hst, rfl⟩ := runLine_eq_ok hr
    have hn' : (nextLine p').lineNumber = (nextLine p).lineNumber := congrArg (· + 1) hn
    have hlike₁ : StateLike (nextLine p).state (nextLine p').state := hlike
    obtain ⟨st', hst', hlike', hiff⟩ := (processLine_eq_ok_iff.1 hst).like hlike₁ hn'
    have hr' := runLine_ok (processLine_eq_ok_iff.2 hst')
    have hlike₂ : StateLike ({ nextLine p with state := st } : StreamingPatchParser).state
        ({ nextLine p' with state := st' } : StreamingPatchParser).state := hlike'
    obtain ⟨q', hq', hlikeq, hnq, hiffq⟩ := ih hlike₂ hn' h
    refine ⟨q', ?_, hlikeq, hnq, ?_⟩
    · rw [runLines, map_cons, steps_cons_ok hr']
      exact hq'
    · rw [hiffq, keepsCr, hr, Bool.or_eq_false_iff, ← and_assoc]
      exact and_congr_left fun _ => hiff

/-! ### Agreement -/

/-- An accepted text of more than one line starts with the begin marker. -/
lemma Accepted.started {e : Text} (h : Accepted t (first :: mids) e blanks q) :
    trim first = beginPatchMarker ∧ runLines started (mids.map stripCr) = (q, none) ∧
      keepsCr default ((first :: mids).map stripCr) =
        keepsCr StreamingPatchParser.started (mids.map stripCr) := by
  obtain ⟨r, hr, hrun⟩ := steps_cons_eq_ok h.run
  obtain ⟨st, hst, -⟩ := runLine_eq_ok hr
  have hfirst : trim (stripCr first) = beginPatchMarker :=
    (processLine_step hst).beginMarker rfl
  have hbegin := runLine_beginPatch hfirst
  obtain rfl : r = StreamingPatchParser.started := by
    have heq := hr.symm.trans hbegin
    simpa using heq
  refine ⟨by rw [← trim_stripCr, hfirst], hrun, ?_⟩
  have hstores : storesLine (nextLine default) (stripCr first) = false := rfl
  rw [map_cons, keepsCr, hbegin, hstores]
  simp

/-- `parse_patch` of an accepted text of more than one line. -/
lemma Accepted.parsePatch_eq {e : Text} (h : Accepted t (first :: mids) e blanks q) :
    ∃ args, parsePatch t = .ok args ∧ args.environmentId = q.state.environmentId ∧
      (args.hunks = q.state.hunks ↔ keepsCr default ((first :: mids).map stripCr) = false) := by
  obtain ⟨hfirst, hrun, hkeeps⟩ := h.started
  have hfirst' : ¬ Blank first := by
    rw [← trim_eq_nil_iff, hfirst]
    decide
  have he : ¬ Blank e := by
    rw [← trim_eq_nil_iff, h.endMarker]
    decide
  have hnl : ∀ l ∈ first :: mids ++ [e], '\n' ∉ l := by
    intro l hl
    rcases mem_append.1 hl with hl | hl
    · exact h.noNewline l hl
    · rw [mem_singleton.1 hl]
      exact h.noNewlineEnd
  have hlines := lines_trim_unlines hfirst' he h.blank hnl
  rw [← h.text] at hlines
  -- the boundary lines of the trimmed text
  have hfirst'' : trim (stripCr (trimStart first)) = beginPatchMarker := by
    rw [trim_stripCr, trim_trimStart, hfirst]
  have hlast : trim (trimEnd e) = endPatchMarker := by rw [trim_trimEnd, h.endMarker]
  have hnl' : ∀ l ∈ stripCr (trimStart first) :: mids.map stripCr ++ [trimEnd e],
      '\n' ∉ l := by
    rw [← hlines]
    exact lines_no_newline _
  have hbound : checkPatchBoundariesLenient (lines (trim t)) =
      .ok (stripCr (trimStart first) :: mids.map stripCr ++ [trimEnd e]) := by
    rw [hlines, checkPatchBoundariesLenient, checkPatchBoundariesStrict_eq hfirst'' hlast]
  -- the lines between, with one more carriage return taken off
  have hself : StateLike StreamingPatchParser.started.state StreamingPatchParser.started.state :=
    ⟨rfl, .nil, rfl⟩
  obtain ⟨q', hq', hlike, hn, hiff⟩ := runLines_like hself rfl hrun
  have hend : ensureUpdateHunkIsNotEmpty (nextLine q') endPatchMarker = .ok () := by
    have hlike' : StateLike (nextLine q).state (nextLine q').state := hlike
    rw [ensureUpdateHunkIsNotEmpty_like hlike' (congrArg (· + 1) hn)]
    exact h.notEmpty
  refine ⟨_, parsePatch_of_lines hbound hnl' hfirst'' hlast hq' hend, hlike.environmentId, ?_⟩
  rw [hkeeps, eq_comm, hiff]
  simp

/-- **When the two parsers agree.**  A text on which the streaming parser succeeds, fed in any
deltas, is accepted by `parse_patch` with the same hunks and environment exactly when it has more
than one line and no line is stored with a carriage return at its end. -/
theorem streaming_agrees_iff {deltas : List Text} {p p' : StreamingPatchParser}
    {hunks : List Hunk} (hpush : pushDeltas default deltas = (p, none))
    (hfinish : finish p = (p', .ok hunks)) :
    (∃ args, parsePatch deltas.flatten = .ok args ∧ args.hunks = hunks ∧
        args.environmentId = p'.environmentId) ↔ '\n' ∈ deltas.flatten ∧
        keepsCr default ((cut deltas.flatten).1.map Text.stripCr) = false := by
  rw [pushDeltas_eq_pushChars] at hpush
  obtain ⟨pre, e, blanks, q, haccepted, rfl, henv⟩ := accepted hpush hfinish
  rw [henv, haccepted.keeps]
  cases pre with
  | nil =>
    -- one line: the end marker, which is no patch for `parse_patch`
    have htrim : trim deltas.flatten = endPatchMarker := by
      rw [haccepted.text]
      simpa [unlines, trim_append_of_blank e haccepted.blank] using haccepted.endMarker
    have hparse : ∀ args, parsePatch deltas.flatten ≠ .ok args := by
      intro args
      have hbound : checkPatchBoundariesLenient (lines endPatchMarker) =
          .error (.invalidPatchError firstLineMessage) := by decide
      simp [parsePatch, parsePatchText, htrim, hbound, bind, Except.bind]
    have hnl : '\n' ∉ deltas.flatten := fun hnl => haccepted.newline hnl rfl
    simp [hparse, hnl]
  | cons first mids =>
    have hnl : '\n' ∈ deltas.flatten := by
      rw [haccepted.text]
      simp [unlines]
    obtain ⟨args, hargs, hargsEnv, hiff⟩ := haccepted.parsePatch_eq
    constructor
    · rintro ⟨args', hargs', hhunks, -⟩
      obtain rfl : args = args' := by simpa [hargs] using hargs'
      exact ⟨hnl, hiff.1 hhunks⟩
    · rintro ⟨-, hkeeps⟩
      exact ⟨args, hargs, hiff.2 hkeeps, hargsEnv⟩

/-- A patch with `\r\n` line endings, cut in the middle of a line ending. -/
def crlfDeltas : List Text :=
  ["*** Begin Patch\r\n*** Add File: a\r".toList, "\n+x\r\n*** End Patch\r\n".toList]

theorem streaming_agrees_crlf : ∃ args, parsePatch crlfDeltas.flatten = .ok args ∧
      args.hunks = [.addFile "a".toList "x\n".toList] ∧ args.environmentId = none := by
  have hpush : pushDeltas default crlfDeltas = ((pushDeltas default crlfDeltas).1, none) := by
    decide +kernel
  have hfinish : finish (pushDeltas default crlfDeltas).1 =
      ((finish (pushDeltas default crlfDeltas).1).1, .ok [.addFile "a".toList "x\n".toList]) := by
    decide +kernel
  have henv : (finish (pushDeltas default crlfDeltas).1).1.environmentId = none := by
    decide +kernel
  exact (streaming_agrees_iff hpush hfinish).2 ⟨by decide +kernel, by decide +kernel⟩

/-- A patch with a content line that ends in `\r\r\n`. -/
def doubleCrPatch : Text := "*** Begin Patch\n*** Add File: a\n+x\r\r\n*** End Patch\n".toList

/-- The streaming parser keeps a carriage return that `parse_patch` drops. -/
theorem streaming_disagrees_doubleCr : (pushDeltas default [doubleCrPatch]).2 = none ∧
      (finish (pushDeltas default [doubleCrPatch]).1).2 = .ok [.addFile "a".toList "x\r\n".toList] ∧
      (parsePatch doubleCrPatch).map (·.hunks) = .ok [.addFile "a".toList "x\n".toList] := by
  decide +kernel

end StreamingPatchParser

end TokenCode.ApplyPatch
