/-
What one line can do to the streaming parser.

`HeaderStep` and `LineStep` list the ways in which a line is accepted, with everything that is
known in each of them; `handleHunkHeadersAndEndPatch_step` and `processLine_step` say that there
is no other. Facts about runs are proved by cases on these.
-/
import TokenCode.ApplyPatch.StreamingParser

namespace TokenCode.ApplyPatch.StreamingPatchParser

open Text

/-- The ways in which a line is accepted as a header, an environment or the end of the patch. -/
inductive HeaderStep (p : StreamingPatchParser) (trimmed : Text) : StreamingParserState → Prop
  | environment (id : Text) (hmode : p.state.mode = .startedPatch)
      (hid : trimmed.dropPrefix? environmentIdMarker = some id)
      (hnone : p.state.environmentId = none) (hne : trim id ≠ []) :
      HeaderStep p trimmed { p.state with environmentId := some (trim id) }
  | endPatch (htrimmed : trimmed = endPatchMarker)
      (hens : ensureUpdateHunkIsNotEmpty p trimmed = .ok ()) :
      HeaderStep p trimmed { p.state with mode := .endedPatch }
  | hunk (header : Hunk × StreamingParserMode)
      (hheader : hunkHeader p.lineNumber trimmed = some header)
      (hens : ensureUpdateHunkIsNotEmpty p trimmed = .ok ()) :
      HeaderStep p trimmed (pushHunk p header)

variable {n : ℕ} {trimmed : Text} {header : Hunk × StreamingParserMode}
  (h : hunkHeader n trimmed = some header)
include h

/-- The headers open the modes of their hunks. -/
lemma hunkHeader_cases : (∃ path, header = (.addFile path [], .addFile)) ∨
      (∃ path, header = (.deleteFile path, .deleteFile)) ∨
      (∃ path, header = (.updateFile path none [], .updateFile n)) := by
  unfold hunkHeader at h
  split at h
  · rename_i path _
    exact Or.inl ⟨path, by simpa using h.symm⟩
  · split at h
    · rename_i path _
      exact Or.inr (Or.inl ⟨path, by simpa using h.symm⟩)
    · split at h
      · rename_i path _
        exact Or.inr (Or.inr ⟨path, by simpa using h.symm⟩)
      · simp at h

variable {p : StreamingPatchParser} {st : StreamingParserState}

omit h in
lemma handleHunkHeadersAndEndPatch_step (h : handleHunkHeadersAndEndPatch p trimmed = .ok (some st)) :
    HeaderStep p trimmed st := by
  unfold handleHunkHeadersAndEndPatch at h
  split at h
  · rename_i id hid
    split_ifs at h with h1 h2
    cases h
    by_cases hmode : p.state.mode = .startedPatch
    · rw [if_pos hmode] at hid
      exact .environment id hmode hid (by simpa using h1) h2
    · rw [if_neg hmode] at hid
      simp at hid
  · split_ifs at h with htrimmed
    · obtain ⟨⟨⟩, hens, h⟩ := except_bind_eq_ok.1 h
      cases h
      exact .endPatch htrimmed hens
    · split at h
      · rename_i header hheader
        obtain ⟨⟨⟩, hens, h⟩ := except_bind_eq_ok.1 h
        cases h
        exact .hunk header hheader hens
      · simp at h

/-- A line that opens a hunk starts with one of the three markers. -/
lemma hunkHeader_split :
    ∃ path, trimmed = addFileMarker ++ path ∨ trimmed = deleteFileMarker ++ path ∨
      trimmed = updateFileMarker ++ path := by
  unfold hunkHeader at h
  split at h
  · rename_i path hpath
    exact ⟨path, Or.inl (dropPrefix?_eq_some.1 hpath)⟩
  · split at h
    · rename_i path hpath
      exact ⟨path, Or.inr (Or.inl (dropPrefix?_eq_some.1 hpath))⟩
    · split at h
      · rename_i path hpath
        exact ⟨path, Or.inr (Or.inr (dropPrefix?_eq_some.1 hpath))⟩
      · simp at h

/-- The markers exclude each other. -/
lemma hunkHeader_excludes :
    trimmed.dropPrefix? environmentIdMarker = none ∧ trimmed ≠ endPatchMarker := by
  obtain ⟨path, rfl | rfl | rfl⟩ := hunkHeader_split h
  all_goals
    exact ⟨Text.Apart.dropPrefix?_eq_none (by decide) path, Text.Apart.append_ne (by decide) path⟩

omit h

/-- **What a header does.** -/
theorem handleHunkHeadersAndEndPatch_eq_some_iff :
    handleHunkHeadersAndEndPatch p trimmed = .ok (some st) ↔ HeaderStep p trimmed st := by
  refine ⟨handleHunkHeadersAndEndPatch_step, fun h => ?_⟩
  cases h with
  | environment id hmode hid hnone hne =>
    simp [handleHunkHeadersAndEndPatch, hmode, hid, hnone, hne]
  | endPatch htrimmed hens =>
    have henv : endPatchMarker.dropPrefix? environmentIdMarker = none := by decide
    subst htrimmed
    simp [handleHunkHeadersAndEndPatch, henv, hens, bind, Except.bind, pure, Except.pure]
  | hunk header hheader hens =>
    obtain ⟨henv, hend⟩ := hunkHeader_excludes hheader
    simp [handleHunkHeadersAndEndPatch, henv, hend, hheader, hens, bind, Except.bind, pure,
      Except.pure]

/-- A line that is no header. -/
lemma handleHunkHeadersAndEndPatch_eq_none_iff : handleHunkHeadersAndEndPatch p trimmed = .ok none ↔
      (p.state.mode = .startedPatch → trimmed.dropPrefix? environmentIdMarker = none) ∧
        trimmed ≠ endPatchMarker ∧ hunkHeader p.lineNumber trimmed = none := by
  constructor
  · intro h
    unfold handleHunkHeadersAndEndPatch at h
    split at h
    · split_ifs at h
      simp at h
    · rename_i henv
      split_ifs at h with hend
      · obtain ⟨⟨⟩, hens, h⟩ := except_bind_eq_ok.1 h
        simp [pure, Except.pure] at h
      · refine ⟨fun hmode => by simpa [hmode] using henv, hend, ?_⟩
        split at h
        · obtain ⟨⟨⟩, hens, h⟩ := except_bind_eq_ok.1 h
          simp [pure, Except.pure] at h
        · assumption
  · rintro ⟨henv, hend, hheader⟩
    by_cases hmode : p.state.mode = .startedPatch
    · simp [handleHunkHeadersAndEndPatch, henv hmode, hend, hheader]
    · simp [handleHunkHeadersAndEndPatch, hmode, hend, hheader]

/-- The text in which a line is compared with the headers: inside an update hunk a leading blank
belongs to the line. -/
def headerText : StreamingParserMode → Text → Text
  | .updateFile _, line => trimEnd line
  | _, line => trim line

/-- The ways in which a line is accepted. -/
inductive LineStep (p : StreamingPatchParser) (line : Text) : StreamingParserState → Prop
  | beginPatch (hmode : p.state.mode = .notStarted) (hline : trim line = beginPatchMarker) :
      LineStep p line { p.state with mode := .startedPatch }
  | header {st : StreamingParserState} (hmode : p.state.mode ≠ .notStarted)
      (hended : p.state.mode ≠ .endedPatch)
      (h : handleHunkHeadersAndEndPatch p (headerText p.state.mode line) = .ok (some st)) :
      LineStep p line st
  | content (init : List Hunk) (path contents added : Text) (hmode : p.state.mode = .addFile)
      (hhunks : p.state.hunks = init ++ [.addFile path contents]) (hline : line = '+' :: added)
      (h : handleHunkHeadersAndEndPatch p (trim line) = .ok none) :
      LineStep p line
        { p.state with hunks := init ++ [.addFile path (contents ++ added ++ ['\n'])] }
  | change (n : ℕ) (init : List Hunk) (path : Text) (movePath : Option Text)
      (chunks : List UpdateFileChunk) (effect : LineEffect)
      (hmode : p.state.mode = .updateFile n)
      (hhunks : p.state.hunks = init ++ [.updateFile path movePath chunks])
      (heffect : updateEffect p.lineNumber line movePath chunks = .ok effect)
      (h : handleHunkHeadersAndEndPatch p (trimEnd line) = .ok none) :
      LineStep p line
        { p.state with
          hunks := init ++
            [.updateFile path (effect.movePath movePath) (effect.chunks chunks)] }
  | trailing (hmode : p.state.mode = .endedPatch) (hline : trim line = []) :
      LineStep p line p.state

variable {line : Text}

lemma processLine_step (h : processLine p line = .ok st) : LineStep p line st := by
  simp only [processLine] at h
  split at h
  · rename_i hmode
    split_ifs at h with hline
    cases h
    exact .beginPatch hmode hline
  case h_6 hmode =>
    split_ifs at h with hline
    cases h
    exact .trailing hmode hline
  -- in the other modes the line is a header, or else the mode reads it
  all_goals
    rename_i hmode
    rw [except_bind_eq_ok] at h
    obtain ⟨_ | st', hr, h⟩ := h
    rotate_left
    · cases h
      exact .header (by simp [hmode]) (by simp [hmode]) (by simpa [hmode, headerText] using hr)
  · simp at h
  · simp only at h
    split at h
    · rename_i added path contents hlast
      cases h
      obtain ⟨init, hinit⟩ := List.getLast?_eq_some_iff.1 hlast
      have hstep := LineStep.content init path contents added hmode hinit rfl hr
      simpa [hinit] using hstep
    · simp at h
  · simp at h
  · simp only at h
    split at h
    · rename_i path movePath chunks hlast
      rw [except_bind_eq_ok] at h
      obtain ⟨effect, heffect, h⟩ := h
      cases h
      obtain ⟨init, hinit⟩ := List.getLast?_eq_some_iff.1 hlast
      have hstep := LineStep.change _ init path movePath chunks effect hmode hinit heffect hr
      simpa [hinit] using hstep
    · simp at h

/-- **What a line does.** -/
theorem processLine_eq_ok_iff : processLine p line = .ok st ↔ LineStep p line st := by
  refine ⟨processLine_step, fun h => ?_⟩
  cases h with
  | beginPatch hmode hline => simp [processLine, hmode, hline]
  | header hmode hended h =>
    cases hm : p.state.mode <;> rw [hm] at h
    case notStarted => exact absurd hm hmode
    case endedPatch => exact absurd hm hended
    all_goals
      simp only [headerText] at h
      simp [processLine, hm, h, bind, Except.bind, pure, Except.pure]
  | content init path contents added hmode hhunks hline h =>
    subst hline
    simp [processLine, hmode, h, hhunks, bind, Except.bind, pure, Except.pure]
  | change n init path movePath chunks effect hmode hhunks heffect h =>
    simp [processLine, hmode, h, hhunks, heffect, bind, Except.bind, pure, Except.pure]
  | trailing hmode hline => simp [processLine, hmode, hline]

/-! ### Lines of an update hunk -/

lemma isContextHeader_iff {updateLine : Text} :
    isContextHeader updateLine = true ↔ updateLine = emptyChangeContextMarker ∨
      ∃ changeContext, updateLine = changeContextMarker ++ changeContext := by
  rw [isContextHeader, Bool.or_eq_true, beq_iff_eq, List.isPrefixOf_iff_prefix]
  constructor
  all_goals
    rintro (h | ⟨changeContext, h⟩)
    · exact Or.inl h
    · exact Or.inr ⟨changeContext, h.symm⟩

/-- The ways in which a line of an update hunk is accepted. -/
inductive EffectStep (n : ℕ) (line : Text) (movePath : Option Text)
    (chunks : List UpdateFileChunk) : LineEffect → Prop
  | skip (heof : atEof chunks = true) (hline : trimEnd line = []) :
      EffectStep n line movePath chunks .skip
  | moveTo (path : Text) (hchunks : chunks = []) (hmove : movePath = none)
      (hline : trimEnd line = moveToMarker ++ path) :
      EffectStep n line movePath chunks (.moveTo path)
  | openEmpty (hlast : lastIsEmpty chunks = false)
      (hline : trimEnd line = emptyChangeContextMarker) :
      EffectStep n line movePath chunks (.openChunk none)
  | openContext (changeContext : Text) (hlast : lastIsEmpty chunks = false)
      (hline : trimEnd line = changeContextMarker ++ changeContext) :
      EffectStep n line movePath chunks (.openChunk (some changeContext))
  | endOfFile (heof : atEof chunks = false) (hlast : lastIsEmpty chunks = false)
      (hline : trimEnd line = eofMarker) :
      EffectStep n line movePath chunks .endOfFile
  | content {effect : LineEffect} (heof : atEof chunks = false)
      (hmove : chunks = [] → movePath = none → (trimEnd line).dropPrefix? moveToMarker = none)
      (hheader : isContextHeader (trimEnd line) = false) (hline : trimEnd line ≠ eofMarker)
      (h : contentEffect n line chunks = .ok effect) :
      EffectStep n line movePath chunks effect

variable {chunks : List UpdateFileChunk}

/-- **What a line of an update hunk does.** -/
theorem updateEffect_eq_ok_iff {movePath : Option Text} {effect : LineEffect} :
    updateEffect n line movePath chunks = .ok effect ↔
      EffectStep n line movePath chunks effect := by
  constructor
  · intro h
    simp only [updateEffect] at h
    split at h
    · rename_i hskip
      cases h
      exact .skip hskip.1 hskip.2
    split at h
    · simp at h
    rename_i hskip heof
    split at h
    · rename_i path hpath
      cases h
      split_ifs at hpath with hfirst
      exact .moveTo path hfirst.1 hfirst.2 (dropPrefix?_eq_some.1 hpath)
    rename_i hmove
    split at h
    · simp at h
    rename_i hheader
    -- what is left is a context header, or the last chunk is still open
    split at h
    · rename_i hline
      cases h
      exact .openEmpty (by simpa [isContextHeader_iff, hline] using hheader) hline
    rename_i hempty
    split at h
    · rename_i changeContext hctx
      cases h
      have hline := dropPrefix?_eq_some.1 hctx
      exact .openContext changeContext (by simpa [isContextHeader_iff, hline] using hheader) hline
    rename_i hctx
    have hno : isContextHeader (trimEnd line) = false := by
      rw [Bool.eq_false_iff, Ne, isContextHeader_iff]
      rintro (hline | ⟨changeContext, hline⟩)
      · exact hempty hline
      · rw [dropPrefix?_eq_some.2 hline] at hctx
        simp at hctx
    have heof' : atEof chunks = false := by simpa [hno] using heof
    split at h
    · rename_i hline
      split_ifs at h with hlast
      cases h
      exact .endOfFile heof' (by simpa using hlast) hline
    · rename_i hline
      exact .content heof' (fun h1 h2 => by simpa [h1, h2] using hmove) hno hline h
  · intro h
    cases h with
    | skip heof hline => simp [updateEffect, heof, hline]
    | moveTo path hchunks hmove hline =>
      have hpath := dropPrefix?_eq_some.2 hline
      simp [updateEffect, hchunks, hmove, hpath, atEof]
    | openEmpty hlast hline =>
      have hmark : emptyChangeContextMarker.dropPrefix? moveToMarker = none := by decide
      have hheader : isContextHeader emptyChangeContextMarker = true := by decide
      have hne : emptyChangeContextMarker ≠ [] := by decide
      simp [updateEffect, hline, hlast, hmark, hheader, hne]
    | openContext changeContext hlast hline =>
      have hmark : (changeContextMarker ++ changeContext).dropPrefix? moveToMarker = none :=
        Text.Apart.dropPrefix?_eq_none (by decide) _
      have hheader := isContextHeader_iff.2 (Or.inr ⟨changeContext, hline⟩)
      rw [hline] at hheader
      have hne : changeContextMarker ++ changeContext ≠ emptyChangeContextMarker := by
        simp [changeContextMarker, emptyChangeContextMarker]
      have hnil : changeContextMarker ++ changeContext ≠ [] := by simp [changeContextMarker]
      have hctx := dropPrefix?_eq_some.2 (rfl : changeContextMarker ++ changeContext = _)
      simp [updateEffect, hline, hlast, hmark, hheader, hne, hnil, hctx]
    | endOfFile heof hlast hline =>
      have hmark : eofMarker.dropPrefix? moveToMarker = none := by decide
      have hheader : isContextHeader eofMarker = false := by decide
      have hne : eofMarker ≠ emptyChangeContextMarker := by decide
      have hctx : eofMarker.dropPrefix? changeContextMarker = none := by decide
      simp [updateEffect, hline, hlast, heof, hmark, hheader, hne, hctx]
    | content heof hmove hheader hline h =>
      have hctx : (trimEnd line).dropPrefix? changeContextMarker = none := by
        rw [Option.eq_none_iff_forall_ne_some]
        intro ctx hctx
        rw [isContextHeader_iff.2 (Or.inr ⟨ctx, dropPrefix?_eq_some.1 hctx⟩)] at hheader
        simp at hheader
      have hempty : trimEnd line ≠ emptyChangeContextMarker := by
        intro hempty
        rw [isContextHeader_iff.2 (Or.inl hempty)] at hheader
        simp at hheader
      have hmove' : (if chunks = [] ∧ movePath = none then
          (trimEnd line).dropPrefix? moveToMarker else none) = none := by
        split_ifs with hfirst
        · exact hmove hfirst.1 hfirst.2
        · rfl
      simp [updateEffect, heof, hmove', hheader, hempty, hctx, hline, h]

lemma contentEffect_ne_moveTo (n : ℕ) (line path : Text) (cs : List UpdateFileChunk) :
    contentEffect n line cs ≠ .ok (.moveTo path) := by
  unfold contentEffect
  intro h
  repeat' split at h
  all_goals simp at h

/-- A destination is only taken before the first chunk, and only once. -/
lemma EffectStep.moveTo_first {path : Text} {movePath : Option Text}
    (h : EffectStep n line movePath chunks (.moveTo path)) : chunks = [] ∧ movePath = none := by
  cases h with
  | moveTo _ hchunks hmove => exact ⟨hchunks, hmove⟩
  | content _ _ _ _ h => exact absurd h (contentEffect_ne_moveTo n line path chunks)

end TokenCode.ApplyPatch.StreamingPatchParser
