/-
Globs with `?` and `*`, and the sets of words that end alike.

A glob without wildcards matches one word, and `?*` followed by a word matches the proper extensions
of that word to the left. `Below sep d` is the set of the words that end with `sep :: d` and have
something before it, like the subdomains of a domain. Where one word of `Below sep d` lies in another
such set, all of them do, unless a separator stands in front (`eq_or_mem_below_of_front`).
-/
import Mathlib

namespace TokenCode

open List

variable {α : Type}

/-! ### Globs -/

inductive GlobToken (α : Type) where
  | literal (a : α)
  /-- `?` -/
  | any
  /-- `*` -/
  | zeroOrMore
deriving DecidableEq, Repr

namespace GlobToken

/-- Whether the glob matches the whole word. -/
def isMatch [DecidableEq α] : List (GlobToken α) → List α → Bool
  | [], word => word.isEmpty
  | literal a :: glob, word =>
    match word with
    | [] => false
    | b :: rest => a = b && isMatch glob rest
  | any :: glob, word =>
    match word with
    | [] => false
    | _ :: rest => isMatch glob rest
  | zeroOrMore :: glob, word =>
    -- The star takes any number of letters.
    word.tails.any (isMatch glob)

variable [DecidableEq α] (letters word : List α)

lemma isMatch_map_literal : isMatch (letters.map literal) word = true ↔ word = letters := by
  induction letters generalizing word with
  | nil => simp [isMatch]
  | cons a letters ih =>
    cases word with
    | nil => simp [isMatch]
    | cons b rest =>
      simp only [map_cons, isMatch, Bool.and_eq_true, decide_eq_true_eq, ih, cons.injEq]
      exact and_congr_left fun _ => eq_comm

/-- `?*` before some letters. -/
lemma isMatch_any_zeroOrMore : isMatch (any :: zeroOrMore :: letters.map literal) word = true ↔
      ∃ front, front ≠ [] ∧ word = front ++ letters := by
  cases word with
  | nil =>
    simp only [isMatch, Bool.false_eq_true, false_iff]
    rintro ⟨front, hfront, hword⟩
    exact hfront (append_eq_nil_iff.1 hword.symm).1
  | cons a rest =>
    simp only [isMatch, any_eq_true, mem_tails, isMatch_map_literal]
    constructor
    · rintro ⟨_, ⟨middle, rfl⟩, rfl⟩
      exact ⟨a :: middle, nofun, rfl⟩
    · rintro ⟨front, hfront, hword⟩
      cases front with
      | nil => exact absurd rfl hfront
      | cons b middle =>
        obtain ⟨rfl, rfl⟩ := cons.inj hword
        exact ⟨letters, ⟨middle, rfl⟩, rfl⟩

end GlobToken

/-! ### Words that end alike -/

/-- The words that end with the separator and `d`, with something before. -/
def Below (sep : α) (d : List α) : Set (List α) :=
  {word | ∃ front, front ≠ [] ∧ word = front ++ sep :: d}

/-- What lies below a word below `d` lies below `d`. -/
lemma mem_below_trans {sep : α} {d e word : List α} (hword : word ∈ Below sep e)
    (he : e ∈ Below sep d) : word ∈ Below sep d := by
  obtain ⟨front, hfront, rfl⟩ := hword
  obtain ⟨middle, -, rfl⟩ := he
  exact ⟨front ++ sep :: middle, by simp, by simp⟩

/-- A word below `d` whose front has no separator: what else it lies below contains `Below sep d`. -/
lemma eq_or_mem_below_of_front {sep : α} {d e front : List α} (hsep : sep ∉ front)
    (h : front ++ sep :: d ∈ Below sep e) : d = e ∨ sep :: e <:+ d := by
  obtain ⟨other, -, heq⟩ := h
  rcases append_eq_append_iff.1 heq with ⟨middle, hother, htail⟩ | ⟨middle, hfront, htail⟩
  · cases middle with
    | nil => exact .inl (cons.inj htail).2
    | cons a rest => exact .inr ⟨rest, (cons.inj htail).2.symm⟩
  · cases middle with
    | nil => exact .inl (cons.inj htail).2.symm
    | cons a rest =>
      -- The separator before `e` would stand in the front.
      obtain ⟨rfl, -⟩ := cons.inj htail
      exact absurd (hfront ▸ mem_append_right other mem_cons_self) hsep

/-- A length beyond some words. -/
lemma exists_length_lt (words : List (List α)) : ∃ n, ∀ word ∈ words, word.length < n + 1 := by
  refine ⟨(words.map List.length).sum, fun word hword => Nat.lt_succ_of_le ?_⟩
  exact single_le_sum (by simp) _ (mem_map_of_mem hword)

end TokenCode
