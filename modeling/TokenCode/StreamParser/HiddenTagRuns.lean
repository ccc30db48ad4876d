/-
The runs of the parser for inline tags.

A text that is pushed as a whole is split as the reference says. Pushed in chunks it is split in
the same way, for every text and all chunks, exactly if no opener lies inside a proper beginning of
an opener: otherwise the shorter one is taken before the longer one is complete
(`collect_split_iff`).
-/
import TokenCode.StreamParser.HiddenTagSplit

namespace TokenCode.StreamParser

open List Text Occurrences

variable {T : Type}

/-! ### What is kept back -/

variable {s needle : Text} {n : ℕ}

lemma le_longestFrom {k : ℕ} (hk : k ≤ n) (hsuffix : needle.take k <:+ s) :
    k ≤ longestFrom s needle n := by
  induction n with
  | zero => omega
  | succ n ih =>
    unfold longestFrom
    split_ifs with hn
    · exact hk
    · rcases Nat.lt_or_eq_of_le hk with hlt | rfl
      · exact ih (by omega)
      · exact absurd hsuffix hn

/-- Every end of the text that is a proper beginning of the word is kept back. -/
lemma le_longestSuffixPrefixLen {j : ℕ} (hbegins : s.drop j <+: needle.dropLast) :
    s.length - j ≤ longestSuffixPrefixLen s needle := by
  have htake : needle.take (s.length - j) = s.drop j := by
    rw [← length_drop]
    exact (prefix_iff_eq_take.1 (hbegins.trans (List.dropLast_prefix needle))).symm
  refine le_longestFrom (le_min (by omega) ?_) ?_
  · have hlength := hbegins.length_le
    rw [length_drop, length_dropLast] at hlength
    exact hlength
  · rw [htake]
    exact drop_suffix j s

variable {words : List Text}

/-- What is not kept back is safe. -/
lemma safe_of_keep {keep : ℕ} (hkeep : ∀ word ∈ words, longestSuffixPrefixLen s word ≤ keep) :
    Safe words s (s.length - keep) := by
  refine ⟨by omega, fun j hj word hword hbegins => ?_⟩
  have hle := le_longestSuffixPrefixLen hbegins
  have hkept := hkeep word hword
  omega

lemma safe_closer (closer s : Text) :
    Safe [closer] s (s.length - longestSuffixPrefixLen s closer) :=
  safe_of_keep fun word hword => by rw [mem_singleton.1 hword]

variable {specs : List (InlineTagSpec T)} {pending : Text} {spec : InlineTagSpec T}

namespace InlineHiddenTagParser

lemma safe_openers (specs : List (InlineTagSpec T)) (s : Text) :
    Safe (openers specs) s (s.length - maxOpenPrefixSuffixLen specs s) := by
  refine safe_of_keep fun word hword => ?_
  obtain ⟨spec, hspec, rfl⟩ := mem_map.1 hword
  unfold maxOpenPrefixSuffixLen
  clear hword
  induction specs with
  | nil => cases hspec
  | cons first specs ih =>
    rcases mem_cons.1 hspec with rfl | hspec
    · exact le_max_left _ _
    · exact (ih hspec).trans (le_max_right _ _)

/-! ### The next opener -/

/-- An opener that begins somewhere is a candidate, at that place or before. -/
lemma exists_candidate
    {idx j : ℕ} (hspec : specs[idx]? = some spec) (hbegins : spec.opener <+: pending.drop j) :
    ∃ pos ≤ j, (pos, spec.opener.length, idx) ∈ openCandidates specs pending := by
  cases hfind : find spec.opener pending with
  | none =>
    exact absurd (hbegins.isInfix.trans (drop_suffix j pending).isInfix) (find_eq_none_iff.1 hfind)
  | some pos =>
    refine ⟨pos, ?_, ?_⟩
    · by_contra hlt
      exact (find_eq_some hfind).2 j (by omega) hbegins
    · exact mem_filterMap.2 ⟨(spec, idx), mk_mem_zipIdx_iff_getElem?.2 hspec, by simp [hfind]⟩

lemma openOrder_le_iff {a b : ℕ × ℕ × ℕ} : openOrder a ≤ openOrder b ↔
      a.1 < b.1 ∨ a.1 = b.1 ∧ (b.2.1 < a.2.1 ∨ a.2.1 = b.2.1 ∧ a.2.2 ≤ b.2.2) := by
  simp [openOrder, Prod.Lex.toLex_le_toLex]

/-- The opener that is found is the next one. -/
lemma nextOpen_of_findNextOpen {pos idx : ℕ} (h : findNextOpen specs pending = some (pos, idx)) :
    ∃ spec, specs[idx]? = some spec ∧ NextOpen specs pending (pending.take pos) spec
      (pending.drop (pos + spec.opener.length)) := by
  obtain ⟨⟨pos', length, idx'⟩, hargmin, heq⟩ := Option.map_eq_some_iff.1 h
  obtain ⟨rfl, rfl⟩ := Prod.mk.inj heq
  obtain ⟨⟨spec, idx⟩, hmem, hcandidate⟩ := mem_filterMap.1 (argmin_mem hargmin)
  obtain ⟨pos, hfind, hcandidate⟩ := Option.map_eq_some_iff.1 hcandidate
  simp only [Prod.mk.injEq] at hcandidate
  obtain ⟨rfl, rfl, rfl⟩ := hcandidate
  have hspec : specs[idx]? = some spec := mk_mem_zipIdx_iff_getElem?.1 hmem
  have hfirst := first_of_find hfind
  -- no candidate is better
  have hmin : ∀ {other : InlineTagSpec T} {idx' j : ℕ}, specs[idx']? = some other →
      other.opener <+: pending.drop j → j ≤ pos → j = pos ∧
        (other.opener.length < spec.opener.length ∨
          spec.opener.length = other.opener.length ∧ idx ≤ idx') := by
    intro other idx' j hother hbegins hj
    obtain ⟨pos', hpos', hcandidate⟩ := exists_candidate hother hbegins
    have hle := openOrder_le_iff.1 (le_of_mem_argmin hcandidate hargmin)
    simp only at hle
    omega
  have hdrop : pending.drop pos = spec.opener ++ pending.drop (pos + spec.opener.length) := by
    obtain ⟨after, hafter⟩ := (find_eq_some hfind).1
    rw [← drop_drop, ← hafter, drop_left]
  refine ⟨spec, hspec, ⟨?_, hfirst.split, fun j hj word hword hbegins => ?_⟩, ?_⟩
  · exact mem_map_of_mem (mem_of_getElem? hspec)
  · obtain ⟨other, hother, rfl⟩ := mem_map.1 hword
    obtain ⟨idx', hidx'⟩ := getElem?_of_mem hother
    have hlt : j < pos := lt_of_lt_of_le hj (by simp)
    have heq := (hmin hidx' hbegins hlt.le).1
    omega
  · rw [← hdrop]
    obtain ⟨hlength, hget⟩ := List.getElem?_eq_some_iff.1 hspec
    refine ⟨specs.take idx, specs.drop (idx + 1), ?_, fun other hother hbegins => ?_,
      fun other hother hbegins => ?_⟩
    · rw [← hget, cons_getElem_drop_succ, take_append_drop]
    · obtain ⟨idx', hlt, hidx'⟩ := mem_take_iff_getElem.1 hother
      have hmin' := (hmin (List.getElem?_eq_some_iff.2 ⟨_, hidx'⟩) hbegins le_rfl).2
      omega
    · obtain ⟨idx', hlt, hidx'⟩ := mem_drop_iff_getElem.1 hother
      have hmin' := (hmin (List.getElem?_eq_some_iff.2 ⟨_, hidx'⟩) hbegins le_rfl).2
      omega

lemma free_of_findNextOpen
    (h : findNextOpen specs pending = none) : Free (openers specs) pending := by
  intro word hword hin
  obtain ⟨spec, hspec, rfl⟩ := mem_map.1 hword
  obtain ⟨idx, hidx⟩ := getElem?_of_mem hspec
  obtain ⟨j, -, hbegins⟩ := infix_iff_exists_drop.1 hin
  obtain ⟨pos, -, hcandidate⟩ := exists_candidate hidx hbegins
  rw [findNextOpen, Option.map_eq_none_iff, argmin_eq_none] at h
  rw [h] at hcandidate
  cases hcandidate

end InlineHiddenTagParser

/-! ### Rounds -/

/-- Whatever follows: if the rest is split from the new state on, then the text is split from the
old state on, with the output in front. -/
def Hands (specs : List (InlineTagSpec T)) (rest : Text) (active : Option (ActiveTag T))
    (pending : Text) (out : StreamTextChunk (ExtractedInlineTag T))
    (active' : Option (ActiveTag T)) (pending' : Text) : Prop :=
  ∀ o, Split specs active' (pending' ++ rest) o → Split specs active (pending ++ rest) (out.append o)

variable {specs : List (InlineTagSpec T)} {rest pending : Text}
  {out : StreamTextChunk (ExtractedInlineTag T)}

lemma Hands.trans {active active' active'' : Option (ActiveTag T)} {pending' pending'' : Text}
    {out' : StreamTextChunk (ExtractedInlineTag T)}
    (h : Hands specs rest active pending out active' pending')
    (h' : Hands specs rest active' pending' out' active'' pending'') :
    Hands specs rest active pending (out.append out') active'' pending'' := by
  intro o ho
  rw [StreamTextChunk.append_assoc]
  exact h _ (h' o ho)

variable {active : ActiveTag T}

/-- A closer that is complete ends the tag. -/
lemma hands_closed (hcloser : active.closer ≠ []) {i : ℕ}
    (hfind : find active.closer pending = some i) : Hands specs rest (some active) pending
      ⟨[], [⟨active.tag, active.content ++ pending.take i⟩]⟩ none
      (pending.drop (i + active.closer.length)) :=
  fun _ ho => .closed ((first_of_find hfind).append (unnested_singleton hcloser) rest) ho

/-- Without a closer, what cannot become one is content. -/
lemma hands_content (hfree : Free [active.closer] pending)
    (hsafe : Safe [active.closer] pending n) : Hands specs rest (some active) pending .empty
      (some { active with content := active.content ++ pending.take n }) (pending.drop n) := by
  intro o ho
  cases ho with
  | closed hfirst hrest =>
    rw [List.append_assoc]
    exact .closed (hsafe.first hfree hfirst) hrest
  | unclosed hfree' =>
    rw [List.append_assoc, ← List.append_assoc (pending.take n), take_append_drop]
    exact .unclosed (hsafe.free hfree hfree')

variable {before after : Text}

lemma NextOpen.append
    (h : NextOpen specs pending before spec after) (hunnested : Unnested (openers specs)) (rest : Text) :
    NextOpen specs (pending ++ rest) before spec (after ++ rest) := by
  have hdrop : spec.opener ++ (after ++ rest) = (pending ++ rest).drop before.length :=
    (h.first.append hunnested rest).drop.symm
  -- an opener at this place that is there with the rest is there without it
  have hinside : ∀ other ∈ specs, other.opener <+: spec.opener ++ (after ++ rest) →
      other.opener <+: spec.opener ++ after := by
    intro other hother hbegins
    rw [hdrop] at hbegins
    rw [← h.first.drop]
    exact h.first.prefix_of_append hunnested le_rfl (mem_map_of_mem hother) hbegins
  obtain ⟨first, last, hspecs, hfirst, hlast⟩ := h.best
  refine ⟨h.first.append hunnested rest, first, last, hspecs, fun other hother hbegins => ?_,
    fun other hother hbegins => ?_⟩
  · exact hfirst other hother (hinside other (by simp [hspecs, hother]) hbegins)
  · exact hlast other hother (hinside other (by simp [hspecs, hother]) hbegins)

/-- An opener that is complete begins a tag, if no other one can still take its place. -/
lemma hands_opened (hnext : NextOpen specs pending before spec after)
    (hrest : Unnested (openers specs) ∨ rest = []) :
    Hands specs rest none pending ⟨before, []⟩ (some ⟨spec.tag, spec.closer, []⟩) after := by
  intro o ho
  rcases hrest with hunnested | rfl
  · exact .opened (hnext.append hunnested rest) ho
  · rw [append_nil] at ho ⊢
    exact .opened hnext ho

/-- Without an opener, what cannot become one is visible. -/
lemma hands_visible (hfree : Free (openers specs) pending)
    (hsafe : Safe (openers specs) pending n) :
    Hands specs rest none pending ⟨pending.take n, []⟩ none (pending.drop n) := by
  intro o ho
  cases ho with
  | visible hfree' =>
    have hout : (⟨pending.take n, []⟩ : StreamTextChunk (ExtractedInlineTag T)).append
        ⟨pending.drop n ++ rest, []⟩ = ⟨pending ++ rest, []⟩ := by
      simp [StreamTextChunk.append, ← List.append_assoc]
    rw [hout]
    exact .visible (hsafe.free hfree hfree')
  | @opened _ before after spec out hnext hrest =>
    rw [← StreamTextChunk.append_assoc]
    exact .opened ⟨hsafe.first hfree hnext.first, hnext.best⟩ hrest

/-- No delimiter that the parser waits for is in the pending text. -/
def Settled (specs : List (InlineTagSpec T)) (pending : Text) : Option (ActiveTag T) → Prop
  | some active => Free [active.closer] pending ∧ active.closer ≠ []
  | none => Free (openers specs) pending

namespace InlineHiddenTagParser

/-- The loop ends in a settled state and hands over what it has put out. -/
lemma loop_spec (hdelimited : Delimited specs) {rounds : ℕ} {active : Option (ActiveTag T)}
    (hactive : ∀ a, active = some a → a.closer ≠ []) (hrounds : pending.length < rounds) :
    Settled specs (loop specs rounds pending active).1 (loop specs rounds pending active).2.1 ∧
      ∀ rest, (Unnested (openers specs) ∨ rest = []) →
        Hands specs rest active pending (loop specs rounds pending active).2.2
          (loop specs rounds pending active).2.1 (loop specs rounds pending active).1 := by
  induction rounds generalizing pending active with
  | zero => omega
  | succ rounds ih =>
    cases active with
    | some active =>
      have hcloser := hactive active rfl
      unfold loop
      cases hfind : find active.closer pending with
      | some i =>
        have hfirst := first_of_find hfind
        obtain ⟨hsettled, hhands⟩ := @ih (pending.drop (i + active.closer.length)) none (by simp)
          (by
            have hlength := congrArg List.length hfirst.split
            have hpos := length_pos_iff.2 hcloser
            simp only [length_append] at hlength
            omega)
        exact ⟨hsettled, fun rest hrest => (hands_closed hcloser hfind).trans (hhands rest hrest)⟩
      | none =>
        have hfree : Free [active.closer] pending := by
          simpa [Free] using find_eq_none_iff.1 hfind
        exact ⟨⟨hfree.drop _, hcloser⟩,
          fun rest _ => hands_content hfree (safe_closer active.closer pending)⟩
    | none =>
      unfold loop
      cases hfind : findNextOpen specs pending with
      | some found =>
        obtain ⟨pos, idx⟩ := found
        obtain ⟨spec, hspec, hnext⟩ := nextOpen_of_findNextOpen hfind
        obtain ⟨hopener, hcloser⟩ := hdelimited.2 spec (mem_of_getElem? hspec)
        simp only [hspec]
        obtain ⟨hsettled, hhands⟩ := @ih (pending.drop (pos + spec.opener.length))
          (some ⟨spec.tag, spec.closer, []⟩) (by simpa using hcloser)
          (by
            have hlength := congrArg List.length hnext.first.split
            have hpos := length_pos_iff.2 hopener
            simp only [length_append] at hlength
            omega)
        exact ⟨hsettled, fun rest hrest => (hands_opened hnext hrest).trans (hhands rest hrest)⟩
      | none =>
        have hfree := free_of_findNextOpen hfind
        exact ⟨hfree.drop _, fun rest _ => hands_visible hfree (safe_openers specs pending)⟩

/-! ### Chunks -/

variable {p : InlineHiddenTagParser T}

/-- The parser waits for a delimiter that it has not got. -/
def Waits (p : InlineHiddenTagParser T) : Prop := Settled p.specs p.pending p.active

lemma pushStr_spec (hp : p.Waits) (chunk : Text) :
    (p.pushStr chunk).1.specs = p.specs ∧ (p.pushStr chunk).1.Waits ∧
      ∀ rest, (Unnested (openers p.specs) ∨ rest = []) →
        Hands p.specs rest p.active (p.pending ++ chunk) (p.pushStr chunk).2
          (p.pushStr chunk).1.active (p.pushStr chunk).1.pending := by
  have hactive : ∀ a, p.active = some a → a.closer ≠ [] := by
    intro a ha
    rw [Waits, ha] at hp
    exact hp.2
  exact ⟨rfl, loop_spec p.delimited hactive (Nat.lt_succ_self _)⟩

lemma finish_split (hp : p.Waits) : Split p.specs p.active p.pending p.finish.2 := by
  unfold Waits at hp
  unfold finish
  cases hactive : p.active with
  | some active =>
    rw [hactive] at hp
    exact .unclosed hp.1
  | none =>
    rw [hactive] at hp
    exact .visible hp

/-- Chunks after which nothing can change are split like the text. -/
lemma collect_split (hp : p.Waits) (chunks : List Text)
    (hchunks : Unnested (openers p.specs) ∨ chunks.length ≤ 1) :
    Split p.specs p.active (p.pending ++ chunks.flatten) (p.collect chunks) := by
  induction chunks generalizing p with
  | nil => simpa [collect] using finish_split hp
  | cons chunk chunks ih =>
    obtain ⟨hspecs, hwaits, hhands⟩ := pushStr_spec hp chunk
    rw [flatten_cons, ← List.append_assoc]
    refine hhands chunks.flatten ?_ _ ?_
    · refine hchunks.imp_right fun hlength => ?_
      obtain rfl : chunks = [] := length_eq_zero_iff.1 (by simpa using hlength)
      rfl
    · refine ih hwaits ?_
      exact hchunks.imp_right fun hlength => (Nat.le_succ _).trans hlength

/-! ### Openers inside openers -/

/-- The parser before the first chunk. -/
def start (specs : List (InlineTagSpec T)) (h : Delimited specs) : InlineHiddenTagParser T :=
  ⟨specs, h, [], none⟩

lemma eq_start {p : InlineHiddenTagParser T} (h : new specs = some p) :
    ∃ hspecs, p = start specs hspecs := by
  unfold new at h
  split_ifs at h with hspecs
  exact ⟨hspecs, (Option.some.inj h).symm⟩

variable (h : Delimited specs)
include h

lemma nil_notMem_openers : [] ∉ openers specs := by
  intro hmem
  obtain ⟨spec, hspec, heq⟩ := mem_map.1 hmem
  exact (h.2 spec hspec).1 heq

lemma start_waits : (start specs h).Waits := by
  intro word hword hin
  obtain rfl := infix_nil.1 hin
  exact nil_notMem_openers h hword

/-- When an opener is complete with the last character, it begins a tag at once. -/
lemma pushStr_opener {text : Text} (htext : ¬ Free (openers specs) text)
    (hshortest : Free (openers specs) text.dropLast) :
    ∃ before spec, NextOpen specs text before spec [] ∧ (start specs h).pushStr text =
        (⟨specs, h, [], some ⟨spec.tag, spec.closer, []⟩⟩, ⟨before, []⟩) := by
  cases hfind : findNextOpen specs text with
  | none => exact absurd (free_of_findNextOpen hfind) htext
  | some found =>
    obtain ⟨pos, idx⟩ := found
    obtain ⟨spec, hspec, hnext⟩ := nextOpen_of_findNextOpen hfind
    obtain ⟨hopener, hcloser⟩ := h.2 spec (mem_of_getElem? hspec)
    -- an opener with something after it would be complete before the last character
    have hafter : text.drop (pos + spec.opener.length) = [] := by
      by_contra hne
      refine hshortest spec.opener hnext.first.mem ?_
      rw [hnext.first.split, ← List.append_assoc, dropLast_append_of_ne_nil hne]
      exact ⟨_, _, rfl⟩
    rw [hafter] at hnext
    refine ⟨text.take pos, spec, hnext, ?_⟩
    obtain ⟨c, rest, rfl⟩ : ∃ c rest, text = c :: rest := by
      refine exists_cons_of_ne_nil fun hnil => hopener ?_
      have hsplit := hnext.first.split
      simpa [hnil] using hsplit
    have hfindCloser : find spec.closer ([] : Text) = none := by simp [find, hcloser]
    simp [pushStr, start, loop, hfind, hspec, hafter, hfindCloser, StreamTextChunk.append,
      StreamTextChunk.empty]

end InlineHiddenTagParser

section

variable {text : Text}

lemma Split.extracted_ne_nil (h : Split specs (some active) text out) : out.extracted ≠ [] := by
  cases h with
  | closed => simp [StreamTextChunk.append]
  | unclosed => simp

/-- A text outside a tag puts something out. -/
lemma Split.eq_nil (h : Split specs none text .empty) : text = [] := by
  generalize hout : StreamTextChunk.empty = out at h
  cases h with
  | visible => exact (congrArg StreamTextChunk.visibleText hout).symm
  | opened hnext hrest =>
    have hextracted := congrArg StreamTextChunk.extracted hout
    exact absurd hextracted.symm
      (by simpa [StreamTextChunk.append, StreamTextChunk.empty] using hrest.extracted_ne_nil)

/-- A tag without content and nothing else: the text is the closer. -/
lemma Split.eq_closer {tag : T} (hactive : active.content = [])
    (htext : text ≠ []) (h : Split specs (some active) text ⟨[], [⟨tag, []⟩]⟩) :
    text = active.closer := by
  generalize hout : (⟨[], [⟨tag, []⟩]⟩ : StreamTextChunk (ExtractedInlineTag T)) = out at h
  cases h with
  | @closed _ _ content after out hfirst hrest =>
    simp only [StreamTextChunk.append, nil_append, singleton_append,
      StreamTextChunk.mk.injEq, cons.injEq, ExtractedInlineTag.mk.injEq, hactive] at hout
    obtain ⟨hvisible, ⟨-, rfl⟩, hextracted⟩ := hout
    have hempty : out = .empty := by
      rcases out with ⟨visible, extracted⟩
      simp_all [StreamTextChunk.empty]
    rw [hempty] at hrest
    have hsplit := hfirst.split
    rwa [hrest.eq_nil, append_nil] at hsplit
  | unclosed hfree =>
    simp only [StreamTextChunk.mk.injEq, cons.injEq, ExtractedInlineTag.mk.injEq, hactive,
      nil_append] at hout
    exact absurd hout.2.1.2.symm htext

/-- Of the openers that a text begins with, one is the best. -/
lemma exists_best (h : ∃ spec ∈ specs, spec.opener <+: text) :
    ∃ spec, Best specs text spec ∧ spec.opener <+: text := by
  induction specs with
  | nil => simp at h
  | cons first specs ih =>
    by_cases hrest : ∃ spec ∈ specs, spec.opener <+: text
    · obtain ⟨spec, ⟨before, after, rfl, hbefore, hafter⟩, hspec⟩ := ih hrest
      by_cases hfirst : first.opener <+: text ∧ spec.opener.length ≤ first.opener.length
      · refine ⟨first, ⟨[], _, rfl, by simp, fun other hother hbegins => ?_⟩, hfirst.1⟩
        rcases mem_append.1 hother with hmem | hmem
        · exact (hbefore other hmem hbegins).le.trans hfirst.2
        · rcases mem_cons.1 hmem with rfl | hmem
          · exact hfirst.2
          · exact (hafter other hmem hbegins).trans hfirst.2
      · refine ⟨spec, ⟨first :: before, after, rfl, fun other hother hbegins => ?_, hafter⟩, hspec⟩
        rcases mem_cons.1 hother with rfl | hmem
        · exact lt_of_not_ge fun hle => hfirst ⟨hbegins, hle⟩
        · exact hbefore other hmem hbegins
    · obtain ⟨spec, hspec, hbegins⟩ := h
      rcases mem_cons.1 hspec with rfl | hmem
      · refine ⟨spec, ⟨[], specs, rfl, by simp, fun other hother hother' => ?_⟩, hbegins⟩
        exact absurd ⟨other, hother, hother'⟩ hrest
      · exact absurd ⟨spec, hmem, hbegins⟩ hrest

/-- The shortest beginning of a text with a word in it. -/
lemma exists_shortest (hwords : [] ∉ words) (h : ¬ Free words text) :
    ∃ a, a <+: text ∧ ¬ Free words a ∧ Free words a.dropLast := by
  induction text using reverseRecOn with
  | nil =>
    refine absurd (fun word hword hin => hwords ?_) h
    rwa [infix_nil.1 hin] at hword
  | append_singleton text c ih =>
    by_cases hfree : Free words text
    · exact ⟨text ++ [c], prefix_refl _, h, by simpa using hfree⟩
    · obtain ⟨a, hbegin, ha⟩ := ih hfree
      exact ⟨a, hbegin.trans (prefix_append _ _), ha⟩

open Classical in
/-- Among the words with a word inside, there is one that no word goes on from. -/
lemma exists_longest_overlap (h : ¬ Unnested words) : ∃ word ∈ words, ¬ Free words word.dropLast ∧
      ∀ other ∈ words, word <+: other → other.length ≤ word.length := by
  obtain ⟨inner, hinner, outer, houter, hin⟩ : ∃ inner ∈ words, ∃ outer ∈ words,
      inner <:+: outer.dropLast := by
    simpa [Unnested] using h
  have hnonempty : (words.toFinset.filter fun word => ¬ Free words word.dropLast).Nonempty :=
    ⟨outer, by simpa using ⟨houter, fun hfree => hfree inner hinner hin⟩⟩
  obtain ⟨word, hword, hmax⟩ := Finset.exists_max_image _ List.length hnonempty
  simp only [Finset.mem_filter, mem_toFinset] at hword hmax
  refine ⟨word, hword.1, hword.2, fun other hother hbegins => ?_⟩
  by_contra hlonger
  -- the other word has the same word inside
  refine hlonger (hmax other ⟨hother, fun hfree => hword.2 fun w hw hwin => ?_⟩)
  refine hfree w hw (hwin.trans ?_)
  refine (List.dropLast_prefix word).isInfix.trans (List.IsPrefix.isInfix ?_)
  refine prefix_of_prefix_length_le hbegins (List.dropLast_prefix other) ?_
  rw [length_dropLast]
  omega

/-- The opener that no opener goes on from is the next one of every text that it begins. -/
lemma exists_nextOpen {word : Text} (hword : word ∈ openers specs)
    (hlongest : ∀ other ∈ openers specs, word <+: other → other.length ≤ word.length) :
    ∃ spec ∈ specs, ∀ rest, NextOpen specs (word ++ rest) [] spec rest := by
  obtain ⟨spec₀, hspec₀, hopener₀⟩ := mem_map.1 hword
  -- the best one does not depend on what follows, since it is the word itself
  have hbest : ∀ rest, ∃ spec, Best specs (word ++ rest) spec ∧ spec.opener = word := by
    intro rest
    obtain ⟨spec, hbest, hbegins⟩ :=
      @exists_best T specs (word ++ rest) ⟨spec₀, hspec₀, by simp [hopener₀]⟩
    refine ⟨spec, hbest, ?_⟩
    have hmem : spec.opener ∈ openers specs := mem_map_of_mem hbest.mem
    have hle : word.length ≤ spec.opener.length := by
      obtain ⟨before, after, hspecs, hbefore, hafter⟩ := hbest
      rw [hspecs] at hspec₀
      rcases mem_append.1 hspec₀ with hmem₀ | hmem₀
      · exact hopener₀ ▸ (hbefore spec₀ hmem₀ (by simp [hopener₀])).le
      · rcases mem_cons.1 hmem₀ with rfl | hmem₀
        · rw [hopener₀]
        · exact hopener₀ ▸ hafter spec₀ hmem₀ (by simp [hopener₀])
    have hbegin : word <+: spec.opener :=
      prefix_of_prefix_length_le (prefix_append _ _) hbegins hle
    exact (hbegin.eq_of_length (le_antisymm hle (hlongest _ hmem hbegin))).symm
  obtain ⟨spec, ⟨before, after, hspecs, hbefore, hafter⟩, hopener⟩ := hbest []
  refine ⟨spec, by simp [hspecs], fun rest => ?_⟩
  obtain ⟨spec', hbest', hopener'⟩ := hbest rest
  have hfirst : First (openers specs) (word ++ rest) [] word rest := ⟨hword, rfl, by simp⟩
  rw [append_nil] at hbefore hafter
  -- a best one for a longer text is one for the word, so the two are the same
  have hsame : spec' = spec := by
    obtain ⟨before', after', hspecs', hbefore'', hafter''⟩ := hbest'
    have hword' : Best specs word spec' :=
      ⟨before', after', hspecs',
        fun other hother hbegins => hbefore'' other hother (hbegins.trans (prefix_append _ _)),
        fun other hother hbegins => hafter'' other hother (hbegins.trans (prefix_append _ _))⟩
    exact hword'.unique ⟨before, after, hspecs, hbefore, hafter⟩ (by rw [hopener']) (by rw [hopener])
  subst hsame
  exact ⟨by rw [hopener]; exact hfirst, by rw [hopener]; exact hbest'⟩

end

namespace InlineHiddenTagParser

variable (h : Delimited specs)

/-- A text that is pushed as a whole is split as it should be. -/
lemma collect_whole (text : Text) : Split specs none text ((start specs h).collect [text]) := by
  have hsplit := collect_split (start_waits h) [text] (Or.inr le_rfl)
  simpa [start] using hsplit

/-- If openers are nested, there are chunks after which the inner opener has been taken and the
outer one is not seen any more. -/
lemma exists_chunks_ne (hnested : ¬ Unnested (openers specs)) :
    ∃ chunks, (start specs h).collect chunks ≠ (start specs h).collect [chunks.flatten] := by
  obtain ⟨word, hword, hinner, hlongest⟩ := exists_longest_overlap hnested
  obtain ⟨outer, houter, hnext⟩ := exists_nextOpen hword hlongest
  obtain ⟨a, ha, hnotFree, hshortest⟩ := exists_shortest (nil_notMem_openers h) hinner
  obtain ⟨before, spec, hspec, hpush⟩ := pushStr_opener h hnotFree hshortest
  obtain ⟨b, hb⟩ := ha.trans (List.dropLast_prefix word)
  have hbne : b ≠ [] := by
    rintro rfl
    rw [append_nil] at hb
    have hlength := ha.length_le
    rw [hb, length_dropLast] at hlength
    have hpos := length_pos_iff.2 fun hnil => nil_notMem_openers h (hnil ▸ hword)
    omega
  have hcloser := (h.2 outer houter).2
  have hcloser' := (h.2 spec hspec.best.mem).2
  by_contra hall
  push Not at hall
  -- whatever follows the outer opener: inside the inner tag, it is split in the same way
  have hagree : ∀ rest extracted,
      Split specs (some ⟨outer.tag, outer.closer, []⟩) rest ⟨[], extracted⟩ →
      Split specs (some ⟨spec.tag, spec.closer, []⟩) (b ++ rest) ⟨[], extracted⟩ := by
    intro rest extracted hrest
    have hwhole := (Split.opened (hnext rest) hrest).unique (collect_whole h (word ++ rest))
    have hinside : Split specs (some ⟨spec.tag, spec.closer, []⟩) (b ++ rest)
        (collect ⟨specs, h, [], some ⟨spec.tag, spec.closer, []⟩⟩ [b ++ rest]) := by
      have hsplit := collect_split (p := ⟨specs, h, [], some ⟨spec.tag, spec.closer, []⟩⟩)
        ⟨by simp [Free, hcloser'], hcloser'⟩ [b ++ rest] (Or.inr le_rfl)
      simpa using hsplit
    have hchunks := hall [a, b ++ rest]
    have htext : [a, b ++ rest].flatten = word ++ rest := by simp [← hb]
    rw [htext, ← hwhole, collect, hpush] at hchunks
    rcases hcollected : collect ⟨specs, h, [], some ⟨spec.tag, spec.closer, []⟩⟩ [b ++ rest] with
      ⟨visible, tags⟩
    rw [hcollected] at hchunks hinside
    simp only [StreamTextChunk.append, StreamTextChunk.mk.injEq, nil_append,
      append_eq_nil_iff] at hchunks
    obtain ⟨⟨-, rfl⟩, rfl⟩ := hchunks
    exact hinside
  -- nothing follows: what is left of the outer opener is the inner closer
  have hleft : b = spec.closer := by
    have hsplit := hagree [] [⟨outer.tag, []⟩] (.unclosed (by simp [Free, hcloser]))
    rw [append_nil] at hsplit
    exact hsplit.eq_closer rfl hbne
  -- the outer closer follows: it is visible after the inner closer
  have hlonger : b ++ outer.closer = spec.closer := by
    have hfirst : First [outer.closer] outer.closer [] outer.closer [] := ⟨by simp, by simp, by simp⟩
    have hsplit := hagree outer.closer [⟨outer.tag, []⟩]
      (.closed hfirst (.visible fun word hword hin =>
        nil_notMem_openers h (infix_nil.1 hin ▸ hword)))
    exact hsplit.eq_closer rfl (by simp [hbne])
  rw [← hleft] at hlonger
  exact hcloser (append_right_eq_self.1 hlonger)

/-- **The split of a streamed text.**  A text that is pushed as a whole is split as the reference
says.  It is split in the same way for all texts and all chunks exactly if no opener lies inside a
proper beginning of an opener. -/
theorem collect_split_iff (specs : List (InlineTagSpec T)) (p : InlineHiddenTagParser T)
    (hp : new specs = some p) : (∀ text, Split specs none text (p.collect [text])) ∧
    ((∀ chunks, p.collect chunks = p.collect [chunks.flatten] ∧
      Split specs none chunks.flatten (p.collect chunks)) ↔ Unnested (openers specs)) := by
  obtain ⟨h, rfl⟩ := eq_start hp
  refine ⟨collect_whole h, fun hall => ?_, fun hunnested chunks => ?_⟩
  · by_contra hnested
    obtain ⟨chunks, hne⟩ := exists_chunks_ne h hnested
    exact hne (hall chunks).1
  · have hsplit : Split specs none chunks.flatten ((start specs h).collect chunks) := by
      simpa [start] using collect_split (start_waits h) chunks (Or.inl hunnested)
    exact ⟨hsplit.unique (collect_whole h chunks.flatten), hsplit⟩

/-- Two tags whose openers are not nested. -/
def plainTags : List (InlineTagSpec Bool) :=
  [⟨false, "<a>".toList, "</a>".toList⟩, ⟨true, "<ab>".toList, "</ab>".toList⟩]

theorem collect_split_plainTags :
    (start plainTags (by decide)).collect ["x<a".toList, "b>y</".toList, "ab>z".toList] =
      (start plainTags (by decide)).collect ["x<ab>y</ab>z".toList] :=
  (((collect_split_iff plainTags (start plainTags (by decide)) rfl).2.2 (by decide)) _).1

/-- Two tags, the opener of one being the beginning of that of the other. -/
def nestedTags : List (InlineTagSpec Bool) :=
  [⟨false, "<a".toList, "</a>".toList⟩, ⟨true, "<ab".toList, "</ab>".toList⟩]

/-- The shorter opener is taken at the end of the first chunk; in the whole text the longer one
is. -/
theorem collect_nestedTags :
    (start nestedTags (by decide)).collect ["<a".toList, "b".toList] = ⟨[], [⟨false, ['b']⟩]⟩ ∧
      (start nestedTags (by decide)).collect ["<ab".toList] = ⟨[], [⟨true, []⟩]⟩ := by
  decide +kernel

end InlineHiddenTagParser

end TokenCode.StreamParser
