/-
Runs of a machine that may stop with an error, and lists that only grow.

A machine reads its input one piece at a time. A step gives the next state and possibly an
error, and after an error nothing more is read; the state stays as the failed step left it.
The main results are

* `steps_flatten`: reading pieces that are themselves read in one go is reading their
  concatenation, so that such a machine cannot see how its input is split;
* `steps_invariant` and `steps_related`: what one step preserves, a whole run preserves.

`Grows R xs ys` says that `ys` is `xs` with more elements at the end, where the last element
of `xs` may have been replaced by an `R`-later one.
-/
import Mathlib

namespace TokenCode

open List

variable {σ α ε : Type*}

/-- Feed `xs` to `step` from the state `s`, up to and including the first error. -/
def steps (step : σ → α → σ × Option ε) : σ → List α → σ × Option ε
  | s, [] => (s, none)
  | s, x :: xs =>
    match step s x with
    | (s', none) => steps step s' xs
    | (s', some e) => (s', some e)

variable {s s' : σ} {xs : List α}

section

variable {step : σ → α → σ × Option ε}

@[simp] lemma steps_nil (s : σ) : steps step s [] = (s, none) := rfl

lemma steps_cons_ok {x : α} (h : step s x = (s', none)) (xs : List α) :
    steps step s (x :: xs) = steps step s' xs := by
  simp [steps, h]

lemma steps_cons_error {x : α} {e : ε} (h : step s x = (s', some e)) (xs : List α) :
    steps step s (x :: xs) = (s', some e) := by
  simp [steps, h]

/-- A run without error starts with a step without error. -/
lemma steps_cons_eq_ok {x : α} (h : steps step s (x :: xs) = (s', none)) :
    ∃ t, step s x = (t, none) ∧ steps step t xs = (s', none) := by
  rcases hx : step s x with ⟨t, _ | e⟩
  · exact ⟨t, rfl, by rw [← steps_cons_ok hx]; exact h⟩
  · rw [steps_cons_error hx] at h
    simp at h

lemma steps_append (xs ys : List α) : steps step s (xs ++ ys) =
    match steps step s xs with
    | (s', none) => steps step s' ys
    | (s', some e) => (s', some e) := by
  induction xs generalizing s with
  | nil => rfl
  | cons x xs ih =>
    rcases hx : step s x with ⟨t, _ | e⟩
    · rw [cons_append, steps_cons_ok hx, steps_cons_ok hx, ih]
    · rw [cons_append, steps_cons_error hx, steps_cons_error hx]

lemma steps_append_ok (h : steps step s xs = (s', none)) (ys : List α) :
    steps step s (xs ++ ys) = steps step s' ys := by
  rw [steps_append, h]

lemma steps_append_error {e : ε} (h : steps step s xs = (s', some e)) (ys : List α) :
    steps step s (xs ++ ys) = (s', some e) := by
  rw [steps_append, h]

/-- A run without error over `xs ++ ys` passes through the end of `xs`. -/
lemma steps_append_eq_ok {ys : List α} (h : steps step s (xs ++ ys) = (s', none)) :
    ∃ t, steps step s xs = (t, none) ∧ steps step t ys = (s', none) := by
  rcases hx : steps step s xs with ⟨t, _ | e⟩
  · exact ⟨t, rfl, by rw [← steps_append_ok hx ys]; exact h⟩
  · rw [steps_append_error hx] at h
    simp at h

/-- **The split of the input is invisible.**  Feeding lists of pieces, each of them in one go,
is feeding their concatenation. -/
theorem steps_flatten (s : σ) (xss : List (List α)) :
    steps (steps step) s xss = steps step s xss.flatten := by
  induction xss generalizing s with
  | nil => rfl
  | cons xs xss ih =>
    rw [flatten_cons]
    rcases hx : steps step s xs with ⟨t, _ | e⟩
    · rw [steps_cons_ok hx, ih, steps_append_ok hx]
    · rw [steps_cons_error hx, steps_append_error hx]

/-- What every step preserves holds at the end of every run. -/
theorem steps_invariant {P : σ → Prop} (hstep : ∀ s x, P s → P (step s x).1) (hs : P s) (xs : List α) :
    P (steps step s xs).1 := by
  induction xs generalizing s with
  | nil => exact hs
  | cons x xs ih =>
    have hx := hstep s x hs
    rcases h : step s x with ⟨t, _ | e⟩
    · rw [steps_cons_ok h]
      rw [h] at hx
      exact ih hx
    · rw [steps_cons_error h]
      rwa [h] at hx

/-- A run relates its ends by any preorder that relates the ends of every step. -/
theorem steps_related {R : σ → σ → Prop} (hrefl : ∀ s, R s s)
    (htrans : ∀ s t u, R s t → R t u → R s u) (hstep : ∀ s x, R s (step s x).1)
    (s : σ) (xs : List α) : R s (steps step s xs).1 :=
  steps_invariant (P := R s) (fun t x ht => htrans s t _ ht (hstep t x)) (hrefl s) xs

end

/-- A computation that may fail gives `b` when its parts succeed one after the other. -/
lemma except_bind_eq_ok {α β : Type} {x : Except ε α} {f : α → Except ε β} {b : β} :
    (x >>= f) = .ok b ↔ ∃ a, x = .ok a ∧ f a = .ok b := by
  cases x with
  | error | ok => simp [bind, Except.bind]

/-! ### Growing lists -/

/-- `ys` is `xs` with elements added at the end, where the last element of `xs` may have been
replaced by one that is `R`-later. -/
def Grows (R : α → α → Prop) (xs ys : List α) : Prop :=
  xs <+: ys ∨
    ∃ init x y rest, xs = init ++ [x] ∧ ys = init ++ y :: rest ∧ R x y

section

variable {R : α → α → Prop}

lemma Grows.refl (xs : List α) : Grows R xs xs := Or.inl (prefix_refl xs)

lemma Grows.append (xs ys : List α) : Grows R xs (xs ++ ys) := Or.inl (prefix_append xs ys)

lemma Grows.last {x y : α} (init : List α) (h : R x y) : Grows R (init ++ [x]) (init ++ [y]) :=
  Or.inr ⟨init, x, y, [], rfl, rfl, h⟩

lemma Grows.trans (hR : ∀ x y z, R x y → R y z → R x z) {ys zs : List α}
    (h : Grows R xs ys) (h' : Grows R ys zs) : Grows R xs zs := by
  rcases h with h | ⟨init, x, y, rest, rfl, rfl, hxy⟩
  · rcases h' with h' | ⟨init', y', z, rest', rfl, rfl, hyz⟩
    · exact Or.inl (h.trans h')
    · -- the last element of `ys` is beyond `xs`, or it is the last one of `xs`
      rcases prefix_concat_iff.1 h with h | h
      · exact Or.inr ⟨init', y', z, rest', h, rfl, hyz⟩
      · exact Or.inl (h.trans (prefix_append init' (z :: rest')))
  · rcases h' with ⟨more, rfl⟩ | ⟨init', y', z, rest', h1, rfl, hyz⟩
    · exact Or.inr ⟨init, x, y, rest ++ more, rfl, by simp, hxy⟩
    · rcases rest.eq_nil_or_concat with rfl | ⟨rest₀, w, rfl⟩
      · -- `y` is the last element of `ys`, and grows once more
        obtain ⟨rfl, h2⟩ := append_inj' h1 rfl
        obtain rfl : y = y' := by simpa using h2
        exact Or.inr ⟨init, x, z, rest', rfl, rfl, hR x y z hxy hyz⟩
      · have h1' : (init ++ y :: rest₀) ++ [w] = init' ++ [y'] := by simpa using h1
        obtain ⟨rfl, -⟩ := append_inj' h1' rfl
        exact Or.inr ⟨init, x, y, rest₀ ++ z :: rest', rfl, by simp, hxy⟩

end

end TokenCode
