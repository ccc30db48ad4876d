/-
Cutting a list into pieces.

`chunks size items` are the consecutive pieces of `size` items, the last one with what is left.
Glued together they are the list again (`flatten_chunks`), none is longer than `size`, and there are
no more than needed (`length_chunks`).
-/
import Mathlib.Algebra.Order.Floor.Div
import Mathlib.Data.List.Lemmas

namespace TokenCode

variable {α : Type}

/-- The pieces of a list; a size of 0 gives none. -/
def chunks (size : ℕ) (items : List α) : List (List α) :=
  if _h : items = [] ∨ size = 0 then []
  else items.take size :: chunks size (items.drop size)
termination_by items.length
decreasing_by
  have hpos := List.length_pos_of_ne_nil (not_or.1 _h).1
  rw [List.length_drop]
  omega

variable {size : ℕ}

lemma chunks_nil : chunks size ([] : List α) = [] := by simp [chunks]

lemma chunks_of_ne_nil {items : List α} (hsize : 0 < size) (hitems : items ≠ []) :
    chunks size items = items.take size :: chunks size (items.drop size) := by
  rw [chunks, dif_neg (by simp [hitems, Nat.ne_of_gt hsize])]

/-- The pieces of a list make up the list. -/
theorem flatten_chunks (hsize : 0 < size) (items : List α) :
    (chunks size items).flatten = items := by
  fun_induction chunks size items with
  | case1 items hnone => exact (hnone.resolve_right hsize.ne').symm
  | case2 items _ ih => rw [List.flatten_cons, ih, List.take_append_drop]

/-- No piece is longer than `size`. -/
lemma length_le_of_mem_chunks {items piece : List α} (hpiece : piece ∈ chunks size items) :
    piece.length ≤ size := by
  fun_induction chunks size items with
  | case1 => cases hpiece
  | case2 items _ ih =>
    rcases List.mem_cons.1 hpiece with rfl | hpiece
    · exact List.length_take_le size items
    · exact ih hpiece

/-- How many pieces there are. -/
lemma length_chunks (hsize : 0 < size) (items : List α) :
    (chunks size items).length = items.length ⌈/⌉ size := by
  fun_induction chunks size items with
  | case1 items hnone =>
    obtain rfl := hnone.resolve_right hsize.ne'
    simp
  | case2 items hsome ih =>
    have hpos := List.length_pos_of_ne_nil (not_or.1 hsome).1
    rw [List.length_cons, ih, List.length_drop, Nat.ceilDiv_eq_add_pred_div,
      Nat.ceilDiv_eq_add_pred_div,
      Nat.div_eq_sub_div hsize (show size ≤ items.length + size - 1 by omega)]
    rcases Nat.le_total size items.length with hle | hle
    · congr 2
      omega
    · rw [Nat.div_eq_of_lt (by omega), Nat.div_eq_of_lt (by omega)]

end TokenCode
