/-
The most specific entry for a path.

Entries are attached to paths, and an entry is about every path below its own. The entry with the
longest path wins, and among those with the same path the one of the highest rank. Two entries
about one path have comparable paths, so the winner is known as soon as one entry is at least as
specific as every other (`map_rank_winner`), and it stays the winner for the paths in between
(`Wins.of_between`).
-/
import Mathlib

namespace TokenCode.Nearest

variable {ε α β : Type} [LinearOrder β] (path : ε → List α) (rank : ε → β)

/-- Longer paths come first, then higher ranks; the root of a path counts as one component. -/
def key (entry : ε) : ℕ ×ₗ β := toLex ((path entry).length + 1, rank entry)

/-- The entry is about the target, and at least as specific as every other. -/
structure Wins (entries : List ε) (target : List α) (entry : ε) : Prop where
  mem : entry ∈ entries
  covers : path entry <+: target
  max : ∀ other ∈ entries, path other <+: target → key path rank other ≤ key path rank entry

section

variable {path rank} {entries more : List ε} {target below : List α} {entry other : ε}

lemma length_le_of_key_le (h : key path rank entry ≤ key path rank other) :
    (path entry).length ≤ (path other).length := by
  rcases Prod.Lex.toLex_le_toLex.1 h with h | ⟨h, -⟩
  · exact Nat.le_of_lt (Nat.succ_lt_succ_iff.1 h)
  · exact Nat.le_of_eq (Nat.succ.inj h)

variable (h : Wins path rank entries target entry)
include h

/-- The winner is below every other entry about the target. -/
lemma Wins.path_le (hother : other ∈ entries)
    (hcovers : path other <+: target) : path other <+: path entry :=
  List.prefix_of_prefix_length_le hcovers h.covers
    (length_le_of_key_le (h.max other hother hcovers))

lemma Wins.eq (h' : Wins path rank more target other)
    (hentry : entry ∈ more) (hother : other ∈ entries) :
    path entry = path other ∧ rank entry = rank other := by
  have hkey : key path rank entry = key path rank other :=
    le_antisymm (h'.max entry hentry h.covers) (h.max other hother h'.covers)
  have hpair := toLex_inj.1 hkey
  refine ⟨?_, (Prod.ext_iff.1 hpair).2⟩
  have hlength : (path entry).length = (path other).length :=
    Nat.succ.inj (Prod.ext_iff.1 hpair).1
  exact (List.prefix_of_prefix_length_le h.covers h'.covers hlength.le).eq_of_length hlength

omit h

/-- The winner wins for every path between its own and the target. -/
lemma Wins.of_between (h : Wins path rank entries below entry) (hcovers : path entry <+: target)
    (htarget : target <+: below) : Wins path rank entries target entry :=
  ⟨h.mem, hcovers, fun other hother hother' => h.max other hother (hother'.trans htarget)⟩

end

variable [DecidableEq α]

/-- The entry with the greatest key, the last one of several. -/
def winner (entries : List ε) (target : List α) : Option ε :=
  (entries.filter fun entry => path entry <+: target).reverse.argmax (key path rank)

variable {path rank} {entries more : List ε} {target : List α} {entry : ε}

lemma wins_of_winner (h : winner path rank entries target = some entry) :
    Wins path rank entries target entry := by
  have hmem := List.argmax_mem h
  simp only [List.mem_reverse, List.mem_filter, decide_eq_true_eq] at hmem
  refine ⟨hmem.1, hmem.2, fun other hother hcovers => ?_⟩
  have hother : other ∈ (entries.filter fun entry => path entry <+: target).reverse := by
    simp [hother, hcovers]
  exact List.le_of_mem_argmax hother h

lemma winner_eq_none : winner path rank entries target = none ↔
    ∀ entry ∈ entries, ¬ path entry <+: target := by
  simp [winner]

/-- **The rank of the winner.** -/
theorem map_rank_winner (h : Wins path rank entries target entry) :
    (winner path rank entries target).map rank = some (rank entry) := by
  cases hwinner : winner path rank entries target with
  | none => exact absurd h.covers (winner_eq_none.1 hwinner entry h.mem)
  | some other =>
    have hother := wins_of_winner hwinner
    rw [Option.map_some, (hother.eq h hother.mem h.mem).2]

/-- The rank of the winner does not depend on the order of the entries. -/
lemma map_rank_winner_congr (h : ∀ entry, entry ∈ entries ↔ entry ∈ more) (target : List α) :
    (winner path rank entries target).map rank = (winner path rank more target).map rank := by
  cases hwinner : winner path rank entries target with
  | none =>
    rw [winner_eq_none.2 fun entry hentry => winner_eq_none.1 hwinner entry ((h entry).2 hentry)]
  | some entry =>
    have hwins := wins_of_winner hwinner
    have hmore : Wins path rank more target entry := ⟨(h entry).1 hwins.mem, hwins.covers,
      fun other hother => hwins.max other ((h other).2 hother)⟩
    rw [map_rank_winner hmore, Option.map_some]

end TokenCode.Nearest
