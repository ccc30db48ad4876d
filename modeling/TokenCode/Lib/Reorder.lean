/-
Buffers that put numbered items back into their order.

Items that arrive early wait in a map by their numbers. `drain next` takes out the items from number
`next` on, as far as there is no gap. If the items that wait are entries of a sequence, what is taken
out is the next piece of it (`Buffers.drain`), and the rest still waits for a number that is missing.
`firstGap` finds the first number that is missing among some that are sorted.
-/
import TokenCode.Lib.Maps
import TokenCode.Lib.SortedMap

namespace TokenCode.Reorder

open List SortedMap

variable {β : Type}

/-- Items by their numbers. -/
abbrev Waiting (β : Type) := List ((_ : ℕ) × β)

variable {next : ℕ} {waiting : Waiting β}

lemma length_kerase_lt {item : β}
    (h : dlookup next waiting = some item) : (kerase next waiting).length < waiting.length := by
  have hmem : (⟨next, item⟩ : (_ : ℕ) × β) ∈ waiting := of_mem_dlookup h
  have hlength : (kerase next waiting).length = waiting.length - 1 :=
    length_eraseP_of_mem hmem (by simp)
  have hpos := length_pos_of_mem hmem
  omega

/-- Take out the items from `next` on: the items, the first number that is missing, and the rest. -/
def drain (next : ℕ) (waiting : Waiting β) : List β × ℕ × Waiting β :=
  match h : dlookup next waiting with
  | none => ([], next, waiting)
  | some item =>
    let rest := drain (next + 1) (kerase next waiting)
    (item :: rest.1, rest.2)
termination_by waiting.length
decreasing_by exact length_kerase_lt h

lemma drain_of_none (h : dlookup next waiting = none) :
    drain next waiting = ([], next, waiting) := by
  rw [drain]
  split
  · rfl
  · simp_all

lemma drain_of_some {item : β} (h : dlookup next waiting = some item) :
    drain next waiting = (item :: (drain (next + 1) (kerase next waiting)).1,
      (drain (next + 1) (kerase next waiting)).2) := by
  rw [drain]
  split
  · simp_all
  · rename_i found hfound
    obtain rfl : item = found := Option.some.inj (h.symm.trans hfound)
    rfl

/-- The number of the items that are taken out. -/
lemma drain_length (next : ℕ) (waiting : Waiting β) :
    (drain next waiting).2.1 = next + (drain next waiting).1.length := by
  fun_induction drain next waiting with
  | case1 => rfl
  | case2 next waiting item hfound rest ih =>
    rw [ih, length_cons]
    exact Nat.add_right_comm next 1 _

/-- Only what waits is taken out. -/
lemma isSome_of_lt_drain {number : ℕ} (hge : next ≤ number)
    (hlt : number < (drain next waiting).2.1) : (dlookup number waiting).isSome := by
  fun_induction drain next waiting with
  | case1 => exact absurd hlt (not_lt.2 hge)
  | case2 next waiting item hfound rest ih =>
    rcases hge.eq_or_lt with rfl | hgt
    · rw [hfound]
      rfl
    · have hrest := ih hgt hlt
      rwa [dlookup_kerase_ne hgt.ne'] at hrest

/-- A sum over what waits is split between the items that are taken out and the rest. -/
lemma sum_drain (weight : β → ℕ) (next : ℕ) (waiting : Waiting β) :
    ((drain next waiting).1.map weight).sum +
        ((drain next waiting).2.2.map fun entry => weight entry.2).sum =
      (waiting.map fun entry => weight entry.2).sum := by
  fun_induction drain next waiting with
  | case1 => simp
  | case2 next waiting item hfound rest ih =>
    rw [map_cons, sum_cons, Nat.add_assoc, ih, ← sum_map_kerase weight hfound]

/-! ### Items of a sequence -/

/-- The rest of a sequence begins with its next piece. -/
lemma drop_eq_append_drop {items piece : List β} {later : ℕ}
    (h : items.take next ++ piece = items.take later) :
    items.drop next = piece ++ items.drop later := by
  have hall : items.take next ++ items.drop next = items.take next ++ (piece ++ items.drop later) := by
    rw [take_append_drop, ← append_assoc, h, take_append_drop]
  exact append_cancel_left hall

/-- The items that wait are entries of `items` from number `next` on. -/
structure Buffers (items : List β) (next : ℕ) (waiting : Waiting β) : Prop where
  sorted : Sorted waiting
  item : ∀ number item, dlookup number waiting = some item →
    next ≤ number ∧ items[number]? = some item

variable {items : List β} {next number : ℕ} {waiting : Waiting β} {item : β}

lemma buffers_nil (items : List β) (next : ℕ) : Buffers items next [] :=
  ⟨sorted_nil, fun _ _ h => nomatch h⟩

section

variable (h : Buffers items next waiting)
include h

lemma Buffers.insert (hnumber : next ≤ number) (hitem : items[number]? = some item) :
    Buffers items next (insertEntry number item waiting) := by
  refine ⟨h.sorted.insertEntry number item, fun other found hfound => ?_⟩
  rw [dlookup_insertEntry] at hfound
  split_ifs at hfound with heq
  · obtain rfl := Option.some.inj hfound
    exact heq ▸ ⟨hnumber, hitem⟩
  · exact h.item other found hfound

/-- More items do not disturb those that wait. -/
lemma Buffers.append (more : List β) : Buffers (items ++ more) next waiting := by
  refine ⟨h.sorted, fun other found hfound => ?_⟩
  obtain ⟨hle, hitem⟩ := h.item other found hfound
  exact ⟨hle, by rw [getElem?_append_left (List.getElem?_eq_some_iff.1 hitem).1, hitem]⟩

lemma Buffers.kerase : Buffers items (next + 1) (List.kerase next waiting) := by
  refine ⟨h.sorted.kerase next, fun other found hfound => ?_⟩
  rw [h.sorted.dlookup_kerase] at hfound
  split_ifs at hfound with heq
  obtain ⟨hle, hitem⟩ := h.item other found hfound
  exact ⟨by omega, hitem⟩

/-- **What is taken out is the next piece of the sequence**, and what remains waits for a number that
has not arrived. -/
theorem Buffers.drain :
    items.take next ++ (drain next waiting).1 = items.take (drain next waiting).2.1 ∧
      next ≤ (drain next waiting).2.1 ∧
      Buffers items (drain next waiting).2.1 (drain next waiting).2.2 ∧
      dlookup (drain next waiting).2.1 (drain next waiting).2.2 = none ∧
      ∀ number, dlookup number (drain next waiting).2.2 =
        if number < (drain next waiting).2.1 then none else dlookup number waiting := by
  -- By induction along the loop: each round takes one item out.
  fun_induction Reorder.drain next waiting with
  | case1 next waiting hfound =>
    refine ⟨append_nil _, le_rfl, h, hfound, fun number => ?_⟩
    split_ifs with hlt
    · cases hnumber : dlookup number waiting with
      | none => rfl
      | some item => exact absurd (h.item number item hnumber).1 (Nat.not_le.2 hlt)
    · rfl
  | case2 next waiting item hfound rest ih =>
    obtain ⟨htake, hle, hbuffers, hnone, hrest⟩ := ih h.kerase
    have hitem : items.take (next + 1) = items.take next ++ [item] := by
      rw [take_add_one, (h.item next item hfound).2]
      rfl
    refine ⟨?_, (Nat.le_succ next).trans hle, hbuffers, hnone, fun number => ?_⟩
    · rw [← htake, hitem, append_assoc]
      rfl
    · rw [hrest, h.sorted.dlookup_kerase]
      split_ifs with hlt heq
      · rfl
      · omega
      · rfl

/-- A number that waits is taken out once all numbers before it wait too. -/
lemma Buffers.lt_drain {target : ℕ}
    (hall : ∀ number, next ≤ number → number < target → (dlookup number waiting).isSome) :
    target ≤ (Reorder.drain next waiting).2.1 := by
  obtain ⟨-, hle, -, hnone, hrest⟩ := h.drain
  by_contra hlt
  have hsome := hall _ hle (not_le.1 hlt)
  rw [hrest, if_neg (lt_irrefl _)] at hnone
  simp [hnone] at hsome

end

/-! ### The first number that is missing -/

/-- The first number that is not in the set. -/
def firstMissing (numbers : Finset ℕ) : ℕ := Nat.find (Infinite.exists_notMem_finset numbers)

lemma firstMissing_eq {numbers : Finset ℕ} {next : ℕ} (hnext : next ∉ numbers)
    (hbefore : ∀ number < next, number ∈ numbers) : firstMissing numbers = next :=
  (Nat.find_eq_iff _).2 ⟨hnext, fun number hlt => not_not.2 (hbefore number hlt)⟩

/-- The first number from `expected` on that is not in the sorted list. -/
def firstGap (expected : ℕ) : List ℕ → ℕ
  | [] => expected
  | number :: numbers => if number ≠ expected then expected else firstGap (expected + 1) numbers

lemma firstGap_spec {expected : ℕ} {numbers : List ℕ} (hsorted : numbers.Pairwise (· < ·))
    (hge : ∀ number ∈ numbers, expected ≤ number) :
    firstGap expected numbers ∉ numbers ∧ expected ≤ firstGap expected numbers ∧
      ∀ number, expected ≤ number → number < firstGap expected numbers → number ∈ numbers := by
  induction numbers generalizing expected with
  | nil => exact ⟨not_mem_nil, le_rfl, fun number hle hlt => absurd hlt (not_lt.2 hle)⟩
  | cons head numbers ih =>
    rw [firstGap]
    split_ifs with hhead
    · refine ⟨fun hmem => ?_, le_rfl, fun number hle hlt => absurd hlt (not_lt.2 hle)⟩
      rcases mem_cons.1 hmem with rfl | hmem
      · exact hhead rfl
      · have hlt := rel_of_pairwise_cons hsorted hmem
        have hle := hge head mem_cons_self
        omega
    · obtain rfl : head = expected := not_not.1 hhead
      have hge' : ∀ number ∈ numbers, head + 1 ≤ number := fun number hmem =>
        rel_of_pairwise_cons hsorted hmem
      obtain ⟨hnot, hle, hall⟩ := ih hsorted.of_cons hge'
      refine ⟨fun hmem => ?_, by omega, fun number hnumber hlt => ?_⟩
      · rcases mem_cons.1 hmem with heq | hmem
        · omega
        · exact hnot hmem
      · rcases hnumber.eq_or_lt with rfl | hlt'
        · exact mem_cons_self
        · exact mem_cons_of_mem _ (hall number hlt' hlt)

/-! ### How many numbers are missing -/

/-- The numbers up to `target` that are missing, counted by those that are there. -/
lemma card_missing {last target : ℕ} {numbers : List ℕ} (hnodup : numbers.Nodup)
    (hrange : ∀ number ∈ numbers, last < number ∧ number ≤ target) :
    (Finset.Ioc last target \ numbers.toFinset).card = (target - last) - numbers.length := by
  have hsubset : numbers.toFinset ⊆ Finset.Ioc last target := by
    intro number hnumber
    exact Finset.mem_Ioc.2 (hrange number (mem_toFinset.1 hnumber))
  rw [Finset.card_sdiff_of_subset hsubset, Nat.card_Ioc, toFinset_card_of_nodup hnodup]

end TokenCode.Reorder
