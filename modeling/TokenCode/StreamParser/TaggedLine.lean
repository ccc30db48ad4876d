/-
The parser of blocks whose tags stand alone on a line
(`utils/stream-parser/src/tagged_line_parser.rs`).

The parser keeps back a line as long as it may still become a tag. A line that is one begins or
ends a block; everything else is text, inside the block or outside.
-/
import TokenCode.Lib.Text

namespace TokenCode.StreamParser

open Text

/-- `TagSpec`. -/
structure TagSpec (T : Type) where
  opener : Text
  closer : Text
  tag : T
deriving DecidableEq, Repr

/-- `TaggedLineSegment`. -/
inductive TaggedLineSegment (T : Type) where
  | normal (text : Text)
  | tagStart (tag : T)
  | tagDelta (tag : T) (text : Text)
  | tagEnd (tag : T)
deriving DecidableEq, Repr

/-- `TaggedLineParser`. -/
structure TaggedLineParser (T : Type) where
  specs : List (TagSpec T)
  activeTag : Option T
  detectTag : Bool
  lineBuffer : Text
deriving DecidableEq, Repr

section

variable {T : Type} [DecidableEq T]

open TaggedLineSegment

/-- `push_segment`. -/
def pushSegment (segments : List (TaggedLineSegment T)) :
    TaggedLineSegment T → List (TaggedLineSegment T)
  | .normal delta =>
    if delta.isEmpty then segments
    else match segments.getLast? with
      | some (.normal existing) => segments.dropLast ++ [.normal (existing ++ delta)]
      | _ => segments ++ [.normal delta]
  | .tagDelta tag delta =>
    if delta.isEmpty then segments
    else match segments.getLast? with
      | some (.tagDelta existingTag existing) =>
        if existingTag = tag then segments.dropLast ++ [.tagDelta existingTag (existing ++ delta)]
        else segments ++ [.tagDelta tag delta]
      | _ => segments ++ [.tagDelta tag delta]
  | segment => segments ++ [segment]

/-- `match_open`. -/
def matchOpen (specs : List (TagSpec T)) (slug : Text) : Option T :=
  (specs.find? fun spec => spec.opener == slug).map (·.tag)

/-- `match_close`. -/
def matchClose (specs : List (TagSpec T)) (slug : Text) : Option T :=
  (specs.find? fun spec => spec.closer == slug).map (·.tag)

/-- `is_tag_prefix`. -/
def isTagBeginning (specs : List (TagSpec T)) (slug : Text) : Bool :=
  let slug := trimEnd slug
  specs.any fun spec => slug.isPrefixOf spec.opener || slug.isPrefixOf spec.closer

/-- The segment of a text, inside a block or outside. -/
def textSegment (activeTag : Option T) (text : Text) : TaggedLineSegment T :=
  match activeTag with
  | some tag => .tagDelta tag text
  | none => .normal text

namespace TaggedLineParser

/-- `new`. -/
def new (specs : List (TagSpec T)) : TaggedLineParser T := ⟨specs, none, true, []⟩

/-- `push_text`. -/
def pushText (p : TaggedLineParser T) (text : Text) (segments : List (TaggedLineSegment T)) :
    List (TaggedLineSegment T) :=
  pushSegment segments (textSegment p.activeTag text)

/-- What a complete line is compared with. -/
def slugOf (line : Text) : Text :=
  let withoutNewline := if line.getLast? = some '\n' then line.dropLast else line
  trimEnd (trimStart withoutNewline)

/-- The line is a tag that is due, or it is text: what `finish_line` and `finish` have in
common. -/
def closeLine (p : TaggedLineParser T) (line : Text) (segments : List (TaggedLineSegment T)) :
    TaggedLineParser T × List (TaggedLineSegment T) :=
  match matchOpen p.specs (slugOf line), p.activeTag with
  | some tag, none => ({ p with activeTag := some tag }, pushSegment segments (.tagStart tag))
  | _, activeTag =>
    match matchClose p.specs (slugOf line) with
    | some tag =>
      if activeTag = some tag then
        ({ p with activeTag := none }, pushSegment segments (.tagEnd tag))
      else (p, p.pushText line segments)
    | none => (p, p.pushText line segments)

/-- `finish_line`. -/
def finishLine (p : TaggedLineParser T) (segments : List (TaggedLineSegment T)) :
    TaggedLineParser T × List (TaggedLineSegment T) :=
  closeLine { p with lineBuffer := [], detectTag := true } p.lineBuffer segments

/-- The loop of `parse`, with the text of the current line that is to be handed out. -/
def parseLoop (p : TaggedLineParser T) (run : Text) (segments : List (TaggedLineSegment T)) :
    Text → TaggedLineParser T × List (TaggedLineSegment T)
  | [] => (p, if run.isEmpty then segments else p.pushText run segments)
  | ch :: delta =>
    if p.detectTag then
      let segments := if run.isEmpty then segments else p.pushText run segments
      let lineBuffer := p.lineBuffer ++ [ch]
      if ch = '\n' then
        let (p, segments) := finishLine { p with lineBuffer := lineBuffer } segments
        parseLoop p [] segments delta
      else
        let slug := trimStart lineBuffer
        if slug.isEmpty || isTagBeginning p.specs slug then
          parseLoop { p with lineBuffer := lineBuffer } [] segments delta
        else
          parseLoop { p with lineBuffer := [], detectTag := false } []
            (p.pushText lineBuffer segments) delta
    else
      let run := run ++ [ch]
      if ch = '\n' then
        parseLoop { p with detectTag := true } [] (p.pushText run segments) delta
      else parseLoop p run segments delta

/-- `parse`. -/
def parse (p : TaggedLineParser T) (delta : Text) :
    TaggedLineParser T × List (TaggedLineSegment T) :=
  parseLoop p [] [] delta

/-- `finish`. -/
def finish (p : TaggedLineParser T) : TaggedLineParser T × List (TaggedLineSegment T) :=
  let (p, segments) :=
    if p.lineBuffer.isEmpty then (p, [])
    else closeLine { p with lineBuffer := [] } p.lineBuffer []
  let segments := match p.activeTag with
    | some tag => pushSegment segments (.tagEnd tag)
    | none => segments
  ({ p with activeTag := none, detectTag := true }, segments)

/-- Parse the chunks, finish, and put together what was handed out. -/
def collect (p : TaggedLineParser T) : List Text → List (TaggedLineSegment T)
  | [] => p.finish.2
  | chunk :: chunks => (p.parse chunk).2 ++ (p.parse chunk).1.collect chunks

end TaggedLineParser

/-! ### The text as a whole -/

/-- The tag that a line is, when `activeTag` is the open block: the opener of a block if none is
open, the closer of the open one. -/
def readLine (specs : List (TagSpec T)) (activeTag : Option T) (line : Text) :
    TaggedLineSegment T × Option T :=
  match activeTag with
  | none =>
    match matchOpen specs (trim line) with
    | some tag => (.tagStart tag, some tag)
    | none => (.normal line, none)
  | some tag =>
    if matchClose specs (trim line) = some tag then (.tagEnd tag, none)
    else (.tagDelta tag line, some tag)

/-- The segments of lines. A block that is open at the end is closed there. -/
def readLines (specs : List (TagSpec T)) : Option T → List Text → List (TaggedLineSegment T)
  | none, [] => []
  | some tag, [] => [.tagEnd tag]
  | activeTag, line :: lines =>
    (readLine specs activeTag line).1 :: readLines specs (readLine specs activeTag line).2 lines

/-- The offline reading of a text. -/
def readText (specs : List (TagSpec T)) (text : Text) : List (TaggedLineSegment T) :=
  readLines specs none (splitInclusive text)

/-- Adjacent texts of the same kind are one text. -/
def coalesce (segments : List (TaggedLineSegment T)) : List (TaggedLineSegment T) :=
  segments.foldl pushSegment []

end

end TokenCode.StreamParser
