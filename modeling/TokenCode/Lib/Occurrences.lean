/-
Occurrences of words in a text that is not complete yet.

A word of a finite set occurs first at some place (`First`). When the text goes on, the place
stays the first one if no word lies inside a proper beginning of another (`Unnested`, which a single
word satisfies). When no word occurs so far, a word can still begin where the text ends with a
proper beginning of it; before that place nothing can begin (`Safe`).
-/
import Mathlib

namespace TokenCode.Occurrences

open List

variable {α : Type}

/-! ### Finding a word -/

/-- The place of the first occurrence (`str::find`). -/
def find [DecidableEq α] (word : List α) : List α → Option ℕ
  | [] => if word = [] then some 0 else none
  | c :: text => if word <+: c :: text then some 0 else (find word text).map (· + 1)

variable {word text : List α}

/-- The word occurs at the place and at none before. -/
lemma find_eq_some [DecidableEq α] {i : ℕ} (h : find word text = some i) :
    word <+: text.drop i ∧ ∀ j < i, ¬ word <+: text.drop j := by
  induction text generalizing i with
  | nil =>
    unfold find at h
    split_ifs at h with hword
    obtain rfl := Option.some.inj h
    simp [hword]
  | cons c text ih =>
    unfold find at h
    split_ifs at h with hword
    · obtain rfl := Option.some.inj h
      exact ⟨hword, by simp⟩
    · obtain ⟨k, hk, rfl⟩ := Option.map_eq_some_iff.1 h
      obtain ⟨hat, hbefore⟩ := ih hk
      refine ⟨hat, fun j hj => ?_⟩
      cases j with
      | zero => exact hword
      | succ j => exact hbefore j (by omega)

lemma find_eq_none_iff [DecidableEq α] : find word text = none ↔ ¬ word <:+: text := by
  induction text with
  | nil => simp [find]
  | cons c text ih =>
    unfold find
    rw [infix_cons_iff]
    split_ifs with hword
    · simp [hword]
    · simp [hword, ih]

/-- A word occurs where it begins at some place. -/
lemma infix_iff_exists_drop : word <:+: text ↔ ∃ j ≤ text.length, word <+: text.drop j := by
  constructor
  · rintro ⟨before, after, rfl⟩
    exact ⟨before.length, by simp, by simp⟩
  · rintro ⟨j, -, h⟩
    exact h.isInfix.trans (drop_suffix j text).isInfix

/-! ### The first word -/

/-- No word of the set occurs in the text. -/
def Free (words : List (List α)) (text : List α) : Prop := ∀ word ∈ words, ¬ word <:+: text

lemma Free.drop {words : List (List α)} (h : Free words text) (n : ℕ) : Free words (text.drop n) :=
  fun word hword hin => h word hword (hin.trans (drop_suffix n text).isInfix)

/-- The word is one of the set, and no word of the set begins before it. -/
structure First (words : List (List α)) (text before word after : List α) : Prop where
  mem : word ∈ words
  split : text = before ++ (word ++ after)
  none_before : ∀ j < before.length, ∀ other ∈ words, ¬ other <+: text.drop j

variable {words : List (List α)} {text before word after rest : List α}

lemma First.drop (h : First words text before word after) :
    text.drop before.length = word ++ after := by
  simp [h.split]

lemma First.occurs (h : First words text before word after) : word <:+: text :=
  ⟨before, after, by rw [h.split, List.append_assoc]⟩

variable {before' after' : List α} {word' : List α}

section

variable (h : First words text before word after)
include h

variable (h' : First words text before' word' after')
include h'

lemma First.length_le : before'.length ≤ before.length := by
  by_contra hlt
  refine h'.none_before before.length (by omega) word h.mem ?_
  rw [h.drop]
  exact prefix_append _ _

/-- There is one first place. -/
lemma First.before_eq : before = before' := by
  have hlength := le_antisymm (h'.length_le h) (h.length_le h')
  have hsplit := h.split.symm.trans h'.split
  exact (append_inj hsplit hlength).1

omit h'

/-- For a given word there is one way to split at the first place. -/
lemma First.unique
    (h' : First words text before' word after') : before = before' ∧ after = after' := by
  obtain rfl := h.before_eq h'
  have hsplit := h.split.symm.trans h'.split
  exact ⟨rfl, append_cancel_left (append_cancel_left hsplit)⟩

end

lemma first_of_find [DecidableEq α] {i : ℕ} (h : find word text = some i) :
    First [word] text (text.take i) word (text.drop (i + word.length)) := by
  obtain ⟨⟨after, hafter⟩, hbefore⟩ := find_eq_some h
  have hdrop : text.drop (i + word.length) = after := by
    rw [← drop_drop, ← hafter, drop_left]
  refine ⟨by simp, ?_, fun j hj other hother => ?_⟩
  · rw [hdrop, hafter, take_append_drop]
  · rw [mem_singleton.1 hother]
    exact hbefore j (lt_of_lt_of_le hj (by simp))

/-! ### Texts that go on -/

/-- A word at the beginning of a longer text lies in the text or goes over its end. -/
lemma prefix_append_cases (h : word <+: text ++ rest) : word <+: text ∨ text <+: word.dropLast := by
  rcases prefix_or_prefix_of_prefix h (prefix_append text rest) with h' | ⟨more, rfl⟩
  · exact Or.inl h'
  · by_cases hmore : more = []
    · simp [hmore]
    · rw [dropLast_append_of_ne_nil hmore]
      exact Or.inr (prefix_append _ _)

/-- No word lies inside a proper beginning of a word. -/
def Unnested (words : List (List α)) : Prop :=
  ∀ word ∈ words, ∀ other ∈ words, ¬ word <:+: other.dropLast

instance [DecidableEq α] (words : List (List α)) : Decidable (Unnested words) :=
  inferInstanceAs (Decidable (∀ word ∈ words, ∀ other ∈ words, ¬ word <:+: other.dropLast))

lemma unnested_singleton (hword : word ≠ []) : Unnested [word] := by
  intro w hw other hother hin
  rw [mem_singleton.1 hw, mem_singleton.1 hother] at hin
  have hlength := hin.length_le
  have hpos := length_pos_iff.2 hword
  rw [length_dropLast] at hlength
  omega

variable {j : ℕ}

/-- A word of a longer text that begins no later than the first one lies in the text. -/
lemma First.prefix_of_append (h : First words text before word after) (hunnested : Unnested words)
    (hj : j ≤ before.length) {other : List α} (hother : other ∈ words)
    (hbegins : other <+: (text ++ rest).drop j) : other <+: text.drop j := by
  have hlength : j ≤ text.length := by
    rw [h.split, length_append]
    omega
  rw [drop_append_of_le_length hlength] at hbegins
  refine (prefix_append_cases hbegins).resolve_right fun hover => ?_
  -- the first word would lie in the beginning of the other one
  refine hunnested word h.mem other hother (List.IsInfix.trans ?_ hover.isInfix)
  refine ⟨before.drop j, after, ?_⟩
  rw [h.split, drop_append_of_le_length hj, List.append_assoc]

/-- **The first word stays the first when the text goes on.** -/
theorem First.append (h : First words text before word after) (hunnested : Unnested words)
    (rest : List α) : First words (text ++ rest) before word (after ++ rest) := by
  refine ⟨h.mem, by simp [h.split], fun j hj other hother hbegins => ?_⟩
  exact h.none_before j hj other hother (h.prefix_of_append hunnested hj.le hother hbegins)

/-- No word can begin at the first `n` places, whatever comes after the text. -/
def Safe (words : List (List α)) (text : List α) (n : ℕ) : Prop :=
  n ≤ text.length ∧ ∀ j < n, ∀ word ∈ words, ¬ text.drop j <+: word.dropLast

variable {n : ℕ} (h : Safe words text n)
include h

lemma Safe.not_begins (hfree : Free words text)
    (hj : j < n) (hword : word ∈ words) (rest : List α) : ¬ word <+: (text ++ rest).drop j := by
  intro hbegins
  rw [drop_append_of_le_length (hj.le.trans h.1)] at hbegins
  rcases prefix_append_cases hbegins with hinside | hover
  · exact hfree word hword (hinside.isInfix.trans (drop_suffix j text).isInfix)
  · exact h.2 j hj word hword hover

omit h in
lemma drop_append_take (hn : n ≤ text.length) :
    (text ++ rest).drop (n + j) = (text.drop n ++ rest).drop j := by
  rw [← drop_drop, drop_append_of_le_length hn]

/-- The safe places can be given away before the text goes on. -/
theorem Safe.first (hfree : Free words text)
    (hfirst : First words (text.drop n ++ rest) before word after) :
    First words (text ++ rest) (text.take n ++ before) word after := by
  refine ⟨hfirst.mem, ?_, fun j hj other hother => ?_⟩
  · rw [List.append_assoc, ← hfirst.split, ← List.append_assoc, take_append_drop]
  · rcases Nat.lt_or_ge j n with hlt | hge
    · exact h.not_begins hfree hlt hother rest
    · obtain ⟨k, rfl⟩ := Nat.exists_eq_add_of_le hge
      rw [drop_append_take h.1]
      refine hfirst.none_before k ?_ other hother
      rw [length_append, length_take_of_le h.1] at hj
      omega

lemma Safe.free (hfree : Free words text)
    (hrest : Free words (text.drop n ++ rest)) : Free words (text ++ rest) := by
  intro word hword hin
  obtain ⟨j, -, hbegins⟩ := infix_iff_exists_drop.1 hin
  rcases Nat.lt_or_ge j n with hlt | hge
  · exact h.not_begins hfree hlt hword rest hbegins
  · obtain ⟨k, rfl⟩ := Nat.exists_eq_add_of_le hge
    rw [drop_append_take h.1] at hbegins
    exact hrest word hword (hbegins.isInfix.trans (drop_suffix k _).isInfix)

end TokenCode.Occurrences
