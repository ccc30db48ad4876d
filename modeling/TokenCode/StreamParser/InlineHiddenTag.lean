/-
The parser that hides inline tags in a streamed text
(`utils/stream-parser/src/inline_hidden_tag.rs`).

The parser has a list of tags with literal opening and closing delimiters. It keeps back what may
still become a delimiter, and hands out the visible text and the extracted tags.
-/
import TokenCode.Lib.Text
import TokenCode.Lib.Occurrences

namespace TokenCode.StreamParser

open Text Occurrences

/-- `InlineTagSpec`. -/
structure InlineTagSpec (T : Type) where
  tag : T
  opener : Text
  closer : Text
deriving DecidableEq, Repr

/-- `ExtractedInlineTag`. -/
structure ExtractedInlineTag (T : Type) where
  tag : T
  content : Text
deriving DecidableEq, Repr

/-- `ActiveTag`. -/
structure ActiveTag (T : Type) where
  tag : T
  closer : Text
  content : Text
deriving DecidableEq, Repr

/-- `StreamTextChunk`. -/
structure StreamTextChunk (E : Type) where
  visibleText : Text
  extracted : List E
deriving DecidableEq, Repr

/-- One chunk after the other. -/
def StreamTextChunk.append {E : Type} (a b : StreamTextChunk E) : StreamTextChunk E :=
  ⟨a.visibleText ++ b.visibleText, a.extracted ++ b.extracted⟩

/-- The chunk without anything. -/
def StreamTextChunk.empty {E : Type} : StreamTextChunk E := ⟨[], []⟩

namespace StreamTextChunk

variable {E : Type}

lemma append_assoc (a b c : StreamTextChunk E) : (a.append b).append c = a.append (b.append c) := by
  simp [append]

end StreamTextChunk

/-- The delimiters are not empty; the constructor asks for this. -/
def Delimited {T : Type} (specs : List (InlineTagSpec T)) : Prop :=
  specs ≠ [] ∧ ∀ spec ∈ specs, spec.opener ≠ [] ∧ spec.closer ≠ []

instance {T : Type} (specs : List (InlineTagSpec T)) : Decidable (Delimited specs) :=
  decidable_of_iff (specs.isEmpty = false ∧ ∀ spec ∈ specs, spec.opener ≠ [] ∧ spec.closer ≠ [])
    (by simp [Delimited])

/-- `InlineHiddenTagParser`. -/
structure InlineHiddenTagParser (T : Type) where
  specs : List (InlineTagSpec T)
  delimited : Delimited specs
  pending : Text
  active : Option (ActiveTag T)

/-- `longest_suffix_prefix_len`, for the beginnings of at most `k` characters. -/
def longestFrom (s needle : Text) : ℕ → ℕ
  | 0 => 0
  | k + 1 => if needle.take (k + 1) <:+ s then k + 1 else longestFrom s needle k

/-- `longest_suffix_prefix_len`. -/
def longestSuffixPrefixLen (s needle : Text) : ℕ :=
  longestFrom s needle (min s.length (needle.length - 1))

namespace InlineHiddenTagParser

variable {T : Type}

/-- `new`. -/
def new (specs : List (InlineTagSpec T)) : Option (InlineHiddenTagParser T) :=
  if h : Delimited specs then some ⟨specs, h, [], none⟩ else none

/-- What `find_next_open` compares: the place, then the longer opener, then the index. -/
abbrev openOrder (candidate : ℕ × ℕ × ℕ) : ℕ ×ₗ ℕᵒᵈ ×ₗ ℕ :=
  toLex (candidate.1, toLex (OrderDual.toDual candidate.2.1, candidate.2.2))

/-- The place, the length and the index of every opener that occurs. -/
def openCandidates (specs : List (InlineTagSpec T)) (pending : Text) : List (ℕ × ℕ × ℕ) :=
  specs.zipIdx.filterMap fun indexed =>
    (find indexed.1.opener pending).map fun pos => (pos, indexed.1.opener.length, indexed.2)

/-- `find_next_open`. -/
def findNextOpen (specs : List (InlineTagSpec T)) (pending : Text) : Option (ℕ × ℕ) :=
  ((openCandidates specs pending).argmin openOrder).map fun candidate =>
    (candidate.1, candidate.2.2)

/-- `max_open_prefix_suffix_len`. -/
def maxOpenPrefixSuffixLen (specs : List (InlineTagSpec T)) (pending : Text) : ℕ :=
  (specs.map fun spec => longestSuffixPrefixLen pending spec.opener).foldr max 0

/-- The loop of `push_str`. Every round but the last takes a delimiter from the pending text, so
there are no more rounds than characters. -/
def loop (specs : List (InlineTagSpec T)) :
    ℕ → Text → Option (ActiveTag T) → Text × Option (ActiveTag T) ×
      StreamTextChunk (ExtractedInlineTag T)
  | 0, pending, active => (pending, active, .empty)
  | rounds + 1, pending, some active =>
    match find active.closer pending with
    | some closeIdx =>
      let (pending', active', out) := loop specs rounds
        (pending.drop (closeIdx + active.closer.length)) none
      (pending', active',
        .append ⟨[], [⟨active.tag, active.content ++ pending.take closeIdx⟩]⟩ out)
    | none =>
      let take := pending.length - longestSuffixPrefixLen pending active.closer
      (pending.drop take, some { active with content := active.content ++ pending.take take },
        .empty)
  | rounds + 1, pending, none =>
    match findNextOpen specs pending with
    | some (openIdx, specIdx) =>
      match specs[specIdx]? with
      | some spec =>
        let (pending', active', out) := loop specs rounds
          (pending.drop (openIdx + spec.opener.length)) (some ⟨spec.tag, spec.closer, []⟩)
        (pending', active', .append ⟨pending.take openIdx, []⟩ out)
      | none => (pending, none, .empty)
    | none =>
      let take := pending.length - maxOpenPrefixSuffixLen specs pending
      (pending.drop take, none, ⟨pending.take take, []⟩)

/-- `push_str`. -/
def pushStr (p : InlineHiddenTagParser T) (chunk : Text) :
    InlineHiddenTagParser T × StreamTextChunk (ExtractedInlineTag T) :=
  let pending := p.pending ++ chunk
  let (pending', active', out) := loop p.specs (pending.length + 1) pending p.active
  ({ p with pending := pending', active := active' }, out)

/-- `finish`. -/
def finish (p : InlineHiddenTagParser T) :
    InlineHiddenTagParser T × StreamTextChunk (ExtractedInlineTag T) :=
  match p.active with
  | some active =>
    ({ p with pending := [], active := none },
      ⟨[], [⟨active.tag, active.content ++ p.pending⟩]⟩)
  | none => ({ p with pending := [] }, ⟨p.pending, []⟩)

/-- Push the chunks, finish, and put together what was handed out. -/
def collect (p : InlineHiddenTagParser T) : List Text → StreamTextChunk (ExtractedInlineTag T)
  | [] => p.finish.2
  | chunk :: chunks => (p.pushStr chunk).2.append ((p.pushStr chunk).1.collect chunks)

end InlineHiddenTagParser

end TokenCode.StreamParser
