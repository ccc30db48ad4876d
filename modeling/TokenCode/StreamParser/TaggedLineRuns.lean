/-
The parser of tagged lines reads a text in chunks as it would be read as a whole.

At every moment the text that is still to come determines what the parser will hand out: the reading
of the line that it keeps back and of the text (`ahead`). A character moves segments from what is
ahead to what has been handed out (`parseLoop_spec`), up to the joining of adjacent texts (`Same`).
-/
import TokenCode.StreamParser.TaggedLine

namespace TokenCode.StreamParser

open List Text

variable {T : Type} [DecidableEq T]

/-! ### Segments up to the joining of texts -/

/-- The segments are the same, wherever they are pushed. -/
def Same (a b : List (TaggedLineSegment T)) : Prop :=
  ∀ segments, a.foldl pushSegment segments = b.foldl pushSegment segments

lemma Same.refl (a : List (TaggedLineSegment T)) : Same a a := fun _ => rfl

variable {a b : List (TaggedLineSegment T)}

lemma Same.symm (h : Same a b) : Same b a :=
  fun segments => (h segments).symm

lemma Same.trans {c : List (TaggedLineSegment T)} (h : Same a b) (h' : Same b c) : Same a c :=
  fun segments => (h segments).trans (h' segments)

lemma Same.append {a' b' : List (TaggedLineSegment T)} (h : Same a a') (h' : Same b b') :
    Same (a ++ b) (a' ++ b') := by
  intro segments
  rw [foldl_append, foldl_append, h, h']

lemma Same.coalesce_eq (h : Same a b) : coalesce a = coalesce b := h []

variable (activeTag : Option T) (segments : List (TaggedLineSegment T))

lemma pushSegment_text_nil : pushSegment segments (textSegment activeTag []) = segments := by
  cases activeTag <;> simp [textSegment, pushSegment]

/-- Texts of the same kind are joined. -/
lemma pushSegment_text_append
    (a b : Text) : pushSegment (pushSegment segments (textSegment activeTag a))
      (textSegment activeTag b) = pushSegment segments (textSegment activeTag (a ++ b)) := by
  rcases a with _ | ⟨c, a⟩
  · rw [pushSegment_text_nil, nil_append]
  rcases b with _ | ⟨d, b⟩
  · rw [pushSegment_text_nil, append_nil]
  rcases segments.eq_nil_or_concat' with rfl | ⟨init, last, rfl⟩
  · cases activeTag <;> simp [textSegment, pushSegment]
  · cases activeTag with
    | none => cases last <;> simp [textSegment, pushSegment]
    | some tag =>
      cases last with
      | tagDelta existing text =>
        by_cases h : existing = tag <;> simp [textSegment, pushSegment, h]
      | _ => simp [textSegment, pushSegment]

lemma same_text_nil : Same [textSegment activeTag []] [] :=
  pushSegment_text_nil activeTag

lemma same_text_append (a b : Text) :
    Same [textSegment activeTag a, textSegment activeTag b] [textSegment activeTag (a ++ b)] :=
  fun segments => pushSegment_text_append activeTag segments a b

variable (segment : TaggedLineSegment T)

/-- What pushing a segment does: it is left out, joined to the last one, or appended. -/
lemma pushSegment_cases : pushSegment segments segment = segments ++ [segment] ∨
      (∃ activeTag, segment = textSegment activeTag [] ∧ pushSegment segments segment = segments) ∨
      ∃ activeTag init a b, segments = init ++ [textSegment activeTag a] ∧
        segment = textSegment activeTag b ∧
        pushSegment segments segment = init ++ [textSegment activeTag (a ++ b)] := by
  cases segment with
  | tagStart tag | tagEnd tag => exact .inl rfl
  | normal text =>
    rcases text with _ | ⟨c, text⟩
    · exact .inr (.inl ⟨none, rfl, rfl⟩)
    rcases segments.eq_nil_or_concat' with rfl | ⟨init, last, rfl⟩
    · exact .inl rfl
    cases last with
    | normal existing =>
      exact .inr (.inr ⟨none, init, existing, c :: text, rfl, rfl, by simp [pushSegment, textSegment]⟩)
    | _ => exact .inl (by simp [pushSegment])
  | tagDelta tag text =>
    rcases text with _ | ⟨c, text⟩
    · exact .inr (.inl ⟨some tag, rfl, rfl⟩)
    rcases segments.eq_nil_or_concat' with rfl | ⟨init, last, rfl⟩
    · exact .inl rfl
    cases last with
    | tagDelta existingTag existing =>
      by_cases h : existingTag = tag
      · subst h
        exact .inr (.inr ⟨some existingTag, init, existing, c :: text, rfl, rfl,
          by simp [pushSegment, textSegment]⟩)
      · exact .inl (by simp [pushSegment, h])
    | _ => exact .inl (by simp [pushSegment])

/-- It does not matter whether segments were joined before. -/
lemma same_pushSegment : Same (pushSegment segments segment) (segments ++ [segment]) := by
  rcases pushSegment_cases segments segment with h | ⟨activeTag, rfl, h⟩ |
    ⟨activeTag, init, a, b, rfl, rfl, h⟩
  · rw [h]
    exact .refl _
  · rw [h]
    simpa using (Same.refl segments).append (same_text_nil activeTag).symm
  · rw [h, List.append_assoc]
    exact (Same.refl init).append (same_text_append activeTag a b).symm

/-! ### Lines -/

lemma TaggedLineParser.slugOf_eq (line : Text) : slugOf line = trim line := by
  unfold slugOf
  split
  next h =>
    obtain ⟨l, rfl⟩ : ∃ l, line = l ++ ['\n'] :=
      ⟨line.dropLast, (dropLast_append_getLast? _ h).symm⟩
    rw [dropLast_concat, trim_append_of_blank _ blank_newline]
    rfl
  next => rfl

/-- A line is closed as the reading says. -/
lemma TaggedLineParser.closeLine_eq (p : TaggedLineParser T) (line : Text)
    (segments : List (TaggedLineSegment T)) : p.closeLine line segments =
      ({ p with activeTag := (readLine p.specs p.activeTag line).2 },
        pushSegment segments (readLine p.specs p.activeTag line).1) := by
  obtain ⟨specs, activeTag, detectTag, lineBuffer⟩ := p
  simp only [closeLine, slugOf_eq, readLine, pushText]
  rcases activeTag with _ | active
  · rcases matchOpen specs (trim line) with _ | tag
    · rcases matchClose specs (trim line) with _ | tag <;> simp [textSegment]
    · rfl
  · rcases hclose : matchClose specs (trim line) with _ | tag
    · simp [textSegment]
    · by_cases h : active = tag
      · subst h
        simp
      · have h' : ¬ tag = active := fun h' => h h'.symm
        simp [h, h', textSegment]

/-- A line that begins unlike every tag is text. -/
lemma readLine_of_not_isTagBeginning {specs : List (TagSpec T)} {line : Text}
    (hblank : ¬ Blank line) (h : isTagBeginning specs (trimStart line) = false)
    (activeTag : Option T) (rest : Text) :
    readLine specs activeTag (line ++ rest) = (textSegment activeTag (line ++ rest), activeTag) := by
  have hnot : ∀ spec ∈ specs, ¬ spec.opener = trim (line ++ rest) ∧
      ¬ spec.closer = trim (line ++ rest) := by
    intro spec hspec
    have hbegins := trim_prefix_trim_append hblank rest
    simp only [isTagBeginning, any_eq_false, Bool.or_eq_true, isPrefixOf_iff_prefix, not_or] at h
    refine ⟨fun heq => (h spec hspec).1 ?_, fun heq => (h spec hspec).2 ?_⟩
    all_goals exact heq ▸ hbegins
  have hopen : matchOpen specs (trim (line ++ rest)) = none := by
    simpa [matchOpen] using fun spec hspec => (hnot spec hspec).1
  have hclose : matchClose specs (trim (line ++ rest)) = none := by
    simpa [matchClose] using fun spec hspec => (hnot spec hspec).2
  cases activeTag with
  | none => simp [readLine, hopen, textSegment]
  | some tag => simp [readLine, hclose, textSegment]

/-! ### What is ahead of the parser -/

/-- The segments of a text that begins in the middle of a line of text. -/
def readMidLine (specs : List (TagSpec T)) (activeTag : Option T) (text : Text) :
    List (TaggedLineSegment T) :=
  match splitInclusive text with
  | [] => readLines specs activeTag []
  | line :: lines => textSegment activeTag line :: readLines specs activeTag lines

variable (specs : List (TagSpec T))

lemma readLines_cons (activeTag : Option T) (line : Text)
    (lines : List Text) : readLines specs activeTag (line :: lines) =
      (readLine specs activeTag line).1 ::
        readLines specs (readLine specs activeTag line).2 lines := by
  cases activeTag <;> rfl

/-- The rest of a line of text, piece by piece. -/
lemma same_readMidLine (activeTag : Option T) {piece : Text} (hpiece : '\n' ∉ piece) (text : Text) :
    Same (readMidLine specs activeTag (piece ++ text))
      (textSegment activeTag piece :: readMidLine specs activeTag text) := by
  rcases hne : piece with _ | ⟨c, rest⟩
  · exact ((same_text_nil activeTag).symm.append (.refl _))
  · rw [← hne, readMidLine, splitInclusive_append hpiece (by simp [hne]), readMidLine]
    rcases splitInclusive text with _ | ⟨line, lines⟩
    · exact .refl _
    · exact (same_text_append activeTag piece line).symm.append (.refl _)

/-- A line is text once it begins unlike every tag. -/
lemma same_readLines_of_not_isTagBeginning {specs : List (TagSpec T)} {line : Text}
    (hline : '\n' ∉ line) (hblank : ¬ Blank line)
    (h : isTagBeginning specs (trimStart line) = false) (activeTag : Option T) (text : Text) :
    Same (readLines specs activeTag (splitInclusive (line ++ text)))
      (textSegment activeTag line :: readMidLine specs activeTag text) := by
  have hne : line ≠ [] := fun hnil => hblank (by simp [hnil, Blank])
  have htext := readLine_of_not_isTagBeginning hblank h activeTag
  rw [splitInclusive_append hline hne, readMidLine]
  rcases splitInclusive text with _ | ⟨first, lines⟩
  · have hnil := htext []
    rw [append_nil] at hnil
    rw [readLines_cons, hnil]
    exact .refl _
  · rw [readLines_cons, htext]
    exact (same_text_append activeTag line first).symm.append (.refl _)

namespace TaggedLineParser

/-- What the parser will hand out for a text that is to come. -/
def ahead (p : TaggedLineParser T) (text : Text) : List (TaggedLineSegment T) :=
  if p.detectTag then readLines p.specs p.activeTag (splitInclusive (p.lineBuffer ++ text))
  else readMidLine p.specs p.activeTag text

/-- The parser keeps back the beginning of a line, and nothing in the middle of a line of text. -/
structure Waits (p : TaggedLineParser T) : Prop where
  oneLine : '\n' ∉ p.lineBuffer
  keepsBack : p.detectTag = false → p.lineBuffer = []

variable {p : TaggedLineParser T}

omit [DecidableEq T] in
lemma waits_new_line {specs : List (TagSpec T)} {activeTag : Option T} :
    (⟨specs, activeTag, true, []⟩ : TaggedLineParser T).Waits :=
  ⟨by simp, by simp⟩

lemma same_pushText (p : TaggedLineParser T) (text : Text)
    (segments rest : List (TaggedLineSegment T)) :
    Same (p.pushText text segments ++ rest) (segments ++ textSegment p.activeTag text :: rest) := by
  simpa [pushText] using (same_pushSegment segments (textSegment p.activeTag text)).append
    (.refl rest)

lemma same_empty_run (segments rest : List (TaggedLineSegment T)) :
    Same (segments ++ textSegment activeTag [] :: rest) (segments ++ rest) :=
  (Same.refl segments).append ((same_text_nil activeTag).append (.refl rest))

variable (hp : p.Waits)
include hp

/-- One character moves segments from what is ahead to what is handed out. -/
lemma parseLoop_cons {run : Text} (hrun : run ≠ [] → p.detectTag = false)
    (segments : List (TaggedLineSegment T)) (ch : Char) : ∃ p' run' segments', (∀ delta,
        p.parseLoop run segments (ch :: delta) = parseLoop p' run' segments' delta) ∧
      p'.Waits ∧ (run' ≠ [] → p'.detectTag = false) ∧ ∀ text,
        Same (segments ++ textSegment p.activeTag run :: p.ahead (ch :: text))
          (segments' ++ textSegment p'.activeTag run' :: p'.ahead text) := by
  obtain ⟨specs, activeTag, detectTag, lineBuffer⟩ := p
  cases detectTag with
  | true =>
    obtain rfl : run = [] := by
      by_contra hne
      exact absurd (hrun hne) (by simp)
    by_cases hch : ch = '\n'
    · -- the line is complete
      subst hch
      have hclose := closeLine_eq ⟨specs, activeTag, true, []⟩ (lineBuffer ++ ['\n']) segments
      refine ⟨⟨specs, (readLine specs activeTag (lineBuffer ++ ['\n'])).2, true, []⟩, [],
        pushSegment segments (readLine specs activeTag (lineBuffer ++ ['\n'])).1, fun delta => ?_,
        waits_new_line, by simp, fun text => ?_⟩
      · simp [parseLoop, finishLine, hclose]
      · refine (same_empty_run _ _ _).trans (.trans ?_ (same_empty_run _ _ _).symm)
        simp only [ahead, if_true, splitInclusive_line hp.oneLine, readLines_cons, nil_append]
        simpa using (same_pushSegment segments _).symm.append (.refl _)
    · have hline : '\n' ∉ lineBuffer ++ [ch] := by
        simpa [Ne.symm hch] using hp.oneLine
      by_cases hkeep : (trimStart (lineBuffer ++ [ch])).isEmpty ||
          isTagBeginning specs (trimStart (lineBuffer ++ [ch]))
      · refine ⟨⟨specs, activeTag, true, lineBuffer ++ [ch]⟩, [], segments, fun delta => ?_,
          ⟨hline, by simp⟩, by simp, fun text => ?_⟩
        · simp [parseLoop, hch, hkeep]
        · simp [ahead, Same.refl]
      · -- the line is text after all
        refine ⟨⟨specs, activeTag, false, []⟩, [], pushSegment segments
          (textSegment activeTag (lineBuffer ++ [ch])), fun delta => ?_, ⟨by simp, by simp⟩,
          by simp, fun text => ?_⟩
        · simp [parseLoop, hch, hkeep, pushText]
        · simp only [Bool.or_eq_true, List.isEmpty_iff, not_or, trimStart_eq_nil_iff,
            Bool.not_eq_true] at hkeep
          have htext := same_readLines_of_not_isTagBeginning hline hkeep.1 hkeep.2 activeTag text
          refine (same_empty_run _ _ _).trans (.trans ?_ (same_empty_run _ _ _).symm)
          refine .trans ?_ (same_pushText ⟨specs, activeTag, false, []⟩ _ _ _).symm
          simpa [ahead] using (Same.refl segments).append htext
  | false =>
    obtain rfl : lineBuffer = [] := hp.keepsBack rfl
    by_cases hch : ch = '\n'
    · subst hch
      refine ⟨⟨specs, activeTag, true, []⟩, [], pushSegment segments
        (textSegment activeTag (run ++ ['\n'])), fun delta => ?_, waits_new_line, by simp,
        fun text => ?_⟩
      · simp [parseLoop, pushText]
      · refine .trans ?_ (same_empty_run _ _ _).symm
        refine .trans ?_ (same_pushText ⟨specs, activeTag, true, []⟩ _ _ _).symm
        have hline : readMidLine specs activeTag ('\n' :: text) =
            textSegment activeTag ['\n'] :: readLines specs activeTag (splitInclusive text) := by
          rfl
        simpa [ahead, hline] using (Same.refl segments).append
          ((same_text_append activeTag run ['\n']).append (.refl _))
    · refine ⟨⟨specs, activeTag, false, []⟩, run ++ [ch], segments, fun delta => ?_, hp, by simp,
        fun text => ?_⟩
      · simp [parseLoop, hch]
      · have hpiece := same_readMidLine specs activeTag (show '\n' ∉ [ch] by simp [Ne.symm hch]) text
        refine (Same.refl segments).append (.trans ((Same.refl [_]).append hpiece) ?_)
        exact (same_text_append activeTag run [ch]).append (.refl _)

/-- **A text moves segments from what is ahead to what is handed out.** -/
lemma parseLoop_spec {run : Text} (hrun : run ≠ [] → p.detectTag = false)
    (segments : List (TaggedLineSegment T)) (delta : Text) :
    (p.parseLoop run segments delta).1.Waits ∧ ∀ text,
      Same (segments ++ textSegment p.activeTag run :: p.ahead (delta ++ text))
        ((p.parseLoop run segments delta).2 ++ (p.parseLoop run segments delta).1.ahead text) := by
  induction delta generalizing p run segments with
  | nil =>
    refine ⟨hp, fun text => ?_⟩
    rcases run with _ | ⟨c, run⟩
    · exact same_empty_run _ _ _
    · exact (same_pushText p (c :: run) segments (p.ahead text)).symm
  | cons ch delta ih =>
    obtain ⟨p', run', segments', hloop, hp', hrun', hstep⟩ := parseLoop_cons hp hrun segments ch
    obtain ⟨hwaits, hspec⟩ := ih hp' hrun' segments'
    rw [hloop]
    exact ⟨hwaits, fun text => (hstep (delta ++ text)).trans (hspec text)⟩

lemma parse_spec (chunk : Text) : (p.parse chunk).1.Waits ∧ ∀ text,
    Same (p.ahead (chunk ++ text)) ((p.parse chunk).2 ++ (p.parse chunk).1.ahead text) := by
  obtain ⟨hwaits, hspec⟩ := parseLoop_spec hp (fun hne => absurd rfl hne) [] chunk
  exact ⟨hwaits, fun text => (same_empty_run p.activeTag [] _).symm.trans (hspec text)⟩

omit hp in
/-- A block that is open at the end is closed. -/
lemma same_close (activeTag : Option T) (segments : List (TaggedLineSegment T)) :
    Same (segments ++ readLines specs activeTag [])
      (match activeTag with
        | some tag => pushSegment segments (.tagEnd tag)
        | none => segments) := by
  cases activeTag with
  | none => simpa [readLines] using Same.refl segments
  | some tag => exact (same_pushSegment segments (.tagEnd tag)).symm

/-- Finishing hands out what is ahead without any more text. -/
lemma finish_spec : Same (p.ahead []) p.finish.2 := by
  obtain ⟨specs, activeTag, detectTag, lineBuffer⟩ := p
  rcases hbuffer : lineBuffer with _ | ⟨c, rest⟩
  · have hahead : (⟨specs, activeTag, detectTag, []⟩ : TaggedLineParser T).ahead [] =
        readLines specs activeTag [] := by
      cases detectTag <;> rfl
    rw [hahead]
    exact same_close specs activeTag []
  · obtain rfl : detectTag = true := by
      by_contra hdetect
      exact absurd (hp.keepsBack (Bool.eq_false_of_not_eq_true hdetect)) (by simp [hbuffer])
    rw [← hbuffer]
    have hempty : lineBuffer.isEmpty = false := by simp [hbuffer]
    have hne : lineBuffer ≠ [] := by simp [hbuffer]
    have hline : splitInclusive lineBuffer = [lineBuffer] := by
      simpa using splitInclusive_append hp.oneLine hne []
    have hahead : (⟨specs, activeTag, true, lineBuffer⟩ : TaggedLineParser T).ahead [] =
        (readLine specs activeTag lineBuffer).1 ::
          readLines specs (readLine specs activeTag lineBuffer).2 [] := by
      simp [ahead, hline, readLines_cons]
    rw [hahead]
    have hclose := closeLine_eq ⟨specs, activeTag, true, []⟩ lineBuffer []
    have hfinish : (⟨specs, activeTag, true, lineBuffer⟩ : TaggedLineParser T).finish.2 =
        match (readLine specs activeTag lineBuffer).2 with
        | some tag => pushSegment (pushSegment [] (readLine specs activeTag lineBuffer).1)
            (.tagEnd tag)
        | none => pushSegment [] (readLine specs activeTag lineBuffer).1 := by
      cases htag : (readLine specs activeTag lineBuffer).2 with
      | none | some tag => simp [finish, hempty, hclose, htag]
    rw [hfinish]
    refine .trans ?_ (same_close specs _ _)
    exact (same_pushSegment [] _).symm.append (.refl _)

/-- **Chunks are read like the whole text.** -/
theorem same_collect (chunks : List Text) : Same (p.collect chunks) (p.ahead chunks.flatten) := by
  induction chunks generalizing p with
  | nil => exact (finish_spec hp).symm
  | cons chunk chunks ih =>
    obtain ⟨hwaits, hspec⟩ := parse_spec hp chunk
    exact ((Same.refl _).append (ih hwaits)).trans (hspec chunks.flatten).symm

end TaggedLineParser

/-! ### Blocks -/

/-- Blocks are opened and closed in turn, and text is inside a block exactly where it says so. -/
def Alternates : Option T → List (TaggedLineSegment T) → Prop
  | activeTag, [] => activeTag = none
  | activeTag, .normal _ :: segments => activeTag = none ∧ Alternates none segments
  | activeTag, .tagStart tag :: segments => activeTag = none ∧ Alternates (some tag) segments
  | activeTag, .tagDelta tag _ :: segments =>
    activeTag = some tag ∧ Alternates (some tag) segments
  | activeTag, .tagEnd tag :: segments => activeTag = some tag ∧ Alternates none segments

lemma alternates_readLines (activeTag : Option T) (lines : List Text) :
    Alternates activeTag (readLines specs activeTag lines) := by
  induction lines generalizing activeTag with
  | nil => cases activeTag <;> simp [readLines, Alternates]
  | cons line lines ih =>
    rw [readLines_cons]
    cases activeTag with
    | none | some tag =>
      simp only [readLine]
      split
      all_goals exact ⟨rfl, ih _⟩

omit [DecidableEq T] in
lemma alternates_text_append (outer : Option T) (a b : Text)
    (segments : List (TaggedLineSegment T)) :
    Alternates outer (textSegment activeTag a :: textSegment activeTag b :: segments) ↔
      Alternates outer (textSegment activeTag (a ++ b) :: segments) := by
  cases activeTag <;> simp [textSegment, Alternates]

variable {outer : Option T}

omit [DecidableEq T] in
/-- Where the blocks stand after segments. -/
lemma Alternates.congr {init : List (TaggedLineSegment T)}
    (h : ∀ outer, Alternates outer a → Alternates outer b)
    (hinit : Alternates outer (init ++ a)) : Alternates outer (init ++ b) := by
  induction init generalizing outer with
  | nil => exact h outer hinit
  | cons segment init ih =>
    cases segment <;> exact ⟨hinit.1, ih hinit.2⟩

/-- Joining texts keeps the blocks. -/
lemma alternates_pushSegment {rest : List (TaggedLineSegment T)}
    (h : Alternates outer (segments ++ segment :: rest)) :
    Alternates outer (pushSegment segments segment ++ rest) := by
  rcases pushSegment_cases segments segment with heq | ⟨activeTag, rfl, heq⟩ |
    ⟨activeTag, init, a, b, rfl, rfl, heq⟩
  · simpa [heq] using h
  · rw [heq]
    refine Alternates.congr (fun outer hrest => ?_) h
    cases activeTag with
    | none | some tag => exact hrest.1 ▸ hrest.2
  · rw [heq, List.append_assoc]
    rw [List.append_assoc] at h
    exact Alternates.congr (fun outer => (alternates_text_append activeTag outer a b rest).1) h

lemma alternates_foldl_pushSegment {segments more : List (TaggedLineSegment T)}
    (h : Alternates outer (segments ++ more)) :
    Alternates outer (more.foldl pushSegment segments) := by
  induction more generalizing segments with
  | nil => simpa using h
  | cons segment more ih => exact ih (alternates_pushSegment segments segment h)

/-- The text outside of the blocks. -/
def normalText (segments : List (TaggedLineSegment T)) : Text :=
  segments.flatMap fun
    | .normal text => text
    | _ => []

omit [DecidableEq T] in
lemma normalText_append (more : List (TaggedLineSegment T)) :
    normalText (segments ++ more) = normalText segments ++ normalText more :=
  flatMap_append

lemma normalText_pushSegment :
    normalText (pushSegment segments segment) = normalText (segments ++ [segment]) := by
  rcases pushSegment_cases segments segment with heq | ⟨activeTag, rfl, heq⟩ |
    ⟨activeTag, init, a, b, rfl, rfl, heq⟩
  · rw [heq]
  all_goals
    rw [heq]
    cases activeTag <;> simp [normalText, textSegment]

lemma normalText_coalesce : normalText (coalesce segments) = normalText segments := by
  induction segments using reverseRecOn with
  | nil => rfl
  | append_singleton segments segment ih =>
    rw [coalesce, foldl_append, foldl_cons, foldl_nil, normalText_pushSegment,
      normalText_append, normalText_append, ← coalesce, ih]

end TokenCode.StreamParser
