/-
The parser of streamed assistant text (`utils/stream-parser/src/assistant_text.rs`, `citation.rs`
and `proposed_plan.rs`).

Two incremental parsers are stacked: the first hides citations, and in plan mode the second, which
gets what the first has left visible, takes out the proposed plan. The main result,
`collect_planMode`, says that together they read every text as it would be read as a whole, however
it is cut into chunks.
-/
import TokenCode.StreamParser.HiddenTagRuns
import TokenCode.StreamParser.TaggedLineRuns

namespace TokenCode.StreamParser

open Text InlineHiddenTagParser

inductive CitationTag where
  | citation
deriving DecidableEq, Repr

inductive PlanTag where
  | proposedPlan
deriving DecidableEq, Repr

/-- `ProposedPlanSegment`. -/
inductive ProposedPlanSegment where
  | normal (text : Text)
  | proposedPlanStart
  | proposedPlanDelta (text : Text)
  | proposedPlanEnd
deriving DecidableEq, Repr

/-! ### Citations -/

/-- The tag of a citation. -/
def citationSpecs : List (InlineTagSpec CitationTag) :=
  [⟨.citation, "<oai-mem-citation>".toList, "</oai-mem-citation>".toList⟩]

/-- `CitationStreamParser`. -/
structure CitationStreamParser where
  inner : InlineHiddenTagParser CitationTag

namespace CitationStreamParser

/-- `new`. -/
def new : CitationStreamParser := ⟨.start citationSpecs (by decide)⟩

/-- The chunk with the bodies of the citations. -/
def mapChunk (chunk : StreamTextChunk (ExtractedInlineTag CitationTag)) : StreamTextChunk Text :=
  ⟨chunk.visibleText, chunk.extracted.map (·.content)⟩

/-- `push_str`. -/
def pushStr (p : CitationStreamParser) (chunk : Text) :
    CitationStreamParser × StreamTextChunk Text :=
  (⟨(p.inner.pushStr chunk).1⟩, mapChunk (p.inner.pushStr chunk).2)

/-- `finish`. -/
def finish (p : CitationStreamParser) : CitationStreamParser × StreamTextChunk Text :=
  (⟨p.inner.finish.1⟩, mapChunk p.inner.finish.2)

end CitationStreamParser

/-! ### The proposed plan -/

/-- The tag of a proposed plan. -/
def planSpecs : List (TagSpec PlanTag) :=
  [⟨"<proposed_plan>".toList, "</proposed_plan>".toList, .proposedPlan⟩]

/-- `ProposedPlanParser`. -/
structure ProposedPlanParser where
  parser : TaggedLineParser PlanTag

/-- The segment of a plan for a segment of tagged lines. -/
def toPlanSegment : TaggedLineSegment PlanTag → ProposedPlanSegment
  | .normal text => .normal text
  | .tagStart .proposedPlan => .proposedPlanStart
  | .tagDelta .proposedPlan text => .proposedPlanDelta text
  | .tagEnd .proposedPlan => .proposedPlanEnd

/-- `map_segments`. -/
def mapSegments (segments : List (TaggedLineSegment PlanTag)) :
    StreamTextChunk ProposedPlanSegment where
  visibleText := segments.flatMap fun segment =>
    match toPlanSegment segment with
    | .normal text => text
    | _ => []
  extracted := segments.map toPlanSegment

namespace ProposedPlanParser

/-- `new`. -/
def new : ProposedPlanParser := ⟨.new planSpecs⟩

/-- `push_str`. -/
def pushStr (p : ProposedPlanParser) (chunk : Text) :
    ProposedPlanParser × StreamTextChunk ProposedPlanSegment :=
  (⟨(p.parser.parse chunk).1⟩, mapSegments (p.parser.parse chunk).2)

/-- `finish`. -/
def finish (p : ProposedPlanParser) : ProposedPlanParser × StreamTextChunk ProposedPlanSegment :=
  (⟨p.parser.finish.1⟩, mapSegments p.parser.finish.2)

end ProposedPlanParser

/-! ### Assistant text -/

/-- `AssistantTextChunk`. -/
structure AssistantTextChunk where
  visibleText : Text
  citations : List Text
  planSegments : List ProposedPlanSegment
deriving DecidableEq, Repr

/-- One chunk after the other. -/
def AssistantTextChunk.append (a b : AssistantTextChunk) : AssistantTextChunk :=
  ⟨a.visibleText ++ b.visibleText, a.citations ++ b.citations, a.planSegments ++ b.planSegments⟩

/-- `AssistantTextStreamParser`. -/
structure AssistantTextStreamParser where
  planMode : Bool
  citations : CitationStreamParser
  plan : ProposedPlanParser

namespace AssistantTextStreamParser

/-- `new`. -/
def new (planMode : Bool) : AssistantTextStreamParser := ⟨planMode, .new, .new⟩

/-- `parse_visible_text`. -/
def parseVisibleText (p : AssistantTextStreamParser) (visibleText : Text) :
    AssistantTextStreamParser × AssistantTextChunk :=
  if p.planMode then
    let (plan, planChunk) := p.plan.pushStr visibleText
    ({ p with plan := plan }, ⟨planChunk.visibleText, [], planChunk.extracted⟩)
  else (p, ⟨visibleText, [], []⟩)

/-- `push_str`. -/
def pushStr (p : AssistantTextStreamParser) (chunk : Text) :
    AssistantTextStreamParser × AssistantTextChunk :=
  let (citations, citationChunk) := p.citations.pushStr chunk
  let (p, out) := parseVisibleText { p with citations := citations } citationChunk.visibleText
  (p, { out with citations := citationChunk.extracted })

/-- `finish`. -/
def finish (p : AssistantTextStreamParser) : AssistantTextStreamParser × AssistantTextChunk :=
  let (citations, citationChunk) := p.citations.finish
  let (p, out) := parseVisibleText { p with citations := citations } citationChunk.visibleText
  let (p, out) :=
    if p.planMode then
      let (plan, tail) := p.plan.finish
      -- an empty tail adds nothing
      ({ p with plan := plan },
        { out with
          visibleText := out.visibleText ++ tail.visibleText
          planSegments := out.planSegments ++ tail.extracted })
    else (p, out)
  (p, { out with citations := citationChunk.extracted })

/-- Push the chunks, finish, and put together what was handed out. -/
def collect (p : AssistantTextStreamParser) : List Text → AssistantTextChunk
  | [] => p.finish.2
  | chunk :: chunks => (p.pushStr chunk).2.append ((p.pushStr chunk).1.collect chunks)

end AssistantTextStreamParser

/-! ### The stacked parsers -/

/-- The visible texts that a parser of inline tags hands out one after the other. -/
def InlineHiddenTagParser.visiblePieces {T : Type} (p : InlineHiddenTagParser T) :
    List Text → List Text
  | [] => [p.finish.2.visibleText]
  | chunk :: chunks =>
    (p.pushStr chunk).2.visibleText :: (p.pushStr chunk).1.visiblePieces chunks

lemma InlineHiddenTagParser.flatten_visiblePieces {T : Type} (p : InlineHiddenTagParser T)
    (chunks : List Text) : (p.visiblePieces chunks).flatten = (p.collect chunks).visibleText := by
  induction chunks generalizing p with
  | nil => simp [visiblePieces, collect]
  | cons chunk chunks ih => simp [visiblePieces, collect, ih, StreamTextChunk.append]

variable (segments : List (TaggedLineSegment PlanTag))

lemma visibleText_mapSegments : (mapSegments segments).visibleText = normalText segments := by
  refine congrArg (List.flatMap · segments) ?_
  funext segment
  rcases segment with text | ⟨⟩ | ⟨⟨⟩, text⟩ | ⟨⟩ <;> rfl

lemma extracted_mapSegments : (mapSegments segments).extracted = segments.map toPlanSegment := rfl

/-- The second parser gets the visible pieces of the first one. -/
lemma AssistantTextStreamParser.collect_eq (inner : InlineHiddenTagParser CitationTag)
    (parser : TaggedLineParser PlanTag) (chunks : List Text) :
    collect ⟨true, ⟨inner⟩, ⟨parser⟩⟩ chunks =
      ⟨normalText (parser.collect (inner.visiblePieces chunks)),
        (inner.collect chunks).extracted.map (·.content),
        (parser.collect (inner.visiblePieces chunks)).map toPlanSegment⟩ := by
  induction chunks generalizing inner parser with
  | nil =>
    simp [collect, finish, parseVisibleText, CitationStreamParser.finish,
      CitationStreamParser.mapChunk, ProposedPlanParser.pushStr, ProposedPlanParser.finish,
      visiblePieces, InlineHiddenTagParser.collect,
      TaggedLineParser.collect, visibleText_mapSegments, normalText_append, extracted_mapSegments]
  | cons chunk chunks ih =>
    simp [collect, pushStr, parseVisibleText, CitationStreamParser.pushStr,
      CitationStreamParser.mapChunk, ProposedPlanParser.pushStr,
      visiblePieces, InlineHiddenTagParser.collect,
      TaggedLineParser.collect, visibleText_mapSegments, normalText_append, extracted_mapSegments,
      AssistantTextChunk.append, StreamTextChunk.append, ih]

/-- The segment of tagged lines for a segment of a plan. -/
def ofPlanSegment : ProposedPlanSegment → TaggedLineSegment PlanTag
  | .normal text => .normal text
  | .proposedPlanStart => .tagStart .proposedPlan
  | .proposedPlanDelta text => .tagDelta .proposedPlan text
  | .proposedPlanEnd => .tagEnd .proposedPlan

lemma map_ofPlanSegment_toPlanSegment :
    (segments.map toPlanSegment).map ofPlanSegment = segments := by
  rw [List.map_map]
  refine (List.map_congr_left fun segment _ => ?_).trans (List.map_id segments)
  rcases segment with text | ⟨⟨⟩⟩ | ⟨⟨⟩, text⟩ | ⟨⟨⟩⟩ <;> rfl

open InlineHiddenTagParser (start)

/-- **Assistant text in plan mode is read like the whole text.**  However the text is cut into
chunks: the citations are those of the split of the whole text, and the segments, up to the joining
of adjacent texts, those of the lines of its visible text.  Blocks are opened and closed in turn,
and the visible text is the text outside of the blocks. -/
theorem collect_planMode (chunks : List Text) : ∃ out, Split citationSpecs none chunks.flatten out ∧
      ((AssistantTextStreamParser.new true).collect chunks).citations =
        out.extracted.map (·.content) ∧
      ((AssistantTextStreamParser.new true).collect chunks).visibleText =
        normalText (readText planSpecs out.visibleText) ∧
      coalesce (((AssistantTextStreamParser.new true).collect chunks).planSegments.map
        ofPlanSegment) = coalesce (readText planSpecs out.visibleText) ∧
      Alternates none (coalesce (readText planSpecs out.visibleText)) := by
  have hdelimited : Delimited citationSpecs := by decide
  have hsplit : Split citationSpecs none chunks.flatten
      ((start citationSpecs hdelimited).collect chunks) :=
    collect_split (start_waits hdelimited) chunks
      (Or.inl (Occurrences.unnested_singleton (by decide)))
  have hcollect := AssistantTextStreamParser.collect_eq
    (start citationSpecs hdelimited) (.new planSpecs) chunks
  have hsame : Same (TaggedLineParser.collect (.new planSpecs)
      ((start citationSpecs hdelimited).visiblePieces chunks))
      (readText planSpecs
        ((start citationSpecs hdelimited).collect chunks).visibleText) := by
    have hpieces := TaggedLineParser.same_collect (p := .new planSpecs)
      TaggedLineParser.waits_new_line
      ((start citationSpecs hdelimited).visiblePieces chunks)
    rwa [flatten_visiblePieces] at hpieces
  refine ⟨_, hsplit, ?_, ?_, ?_, ?_⟩
  · exact congrArg AssistantTextChunk.citations hcollect
  · rw [← normalText_coalesce, ← hsame.coalesce_eq, normalText_coalesce]
    exact congrArg AssistantTextChunk.visibleText hcollect
  · rw [← hsame.coalesce_eq]
    refine congrArg coalesce ?_
    refine (congrArg (List.map ofPlanSegment)
      (congrArg AssistantTextChunk.planSegments hcollect)).trans ?_
    exact map_ofPlanSegment_toPlanSegment _
  · exact alternates_foldl_pushSegment (alternates_readLines planSpecs none _)

end TokenCode.StreamParser
