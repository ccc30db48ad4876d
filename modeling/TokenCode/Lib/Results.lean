/-
Two computations that may fail, side by side.

`BothOk R x y` says that both fail or that both return and their values are related: the second
computation is a variant of the first one, and a run of steps keeps the relation if each step does
(`BothOk.bind`).
-/
import TokenCode.Lib.Maps

namespace TokenCode

variable {ε α β γ δ : Type}

/-- Both results are errors, or both are values that are related. -/
def BothOk (R : α → β → Prop) : Except ε α → Except ε β → Prop
  | .ok a, .ok b => R a b
  | .error _, .error _ => True
  | _, _ => False

variable {R : α → β → Prop} {x : Except ε α} {y : Except ε β} (h : BothOk R x y)
include h

lemma BothOk.bind {S : γ → δ → Prop} {f : α → Except ε γ} {g : β → Except ε δ}
    (hstep : ∀ a b, R a b → BothOk S (f a) (g b)) : BothOk S (x >>= f) (y >>= g) := by
  cases x <;> cases y <;> first | exact h.elim | trivial | exact hstep _ _ h

lemma BothOk.mapError {ε' : Type} (f g : ε → ε') : BothOk R (x.mapError f) (y.mapError g) := by
  cases x <;> cases y <;> first | exact h.elim | exact h

/-- What is known about the first value sharpens the relation. -/
lemma BothOk.mono {S : α → β → Prop} (himp : ∀ a b, x = .ok a → R a b → S a b) : BothOk S x y := by
  cases x <;> cases y <;> first | exact h.elim | trivial | exact himp _ _ rfl h

/-- The second value may be changed afterwards. -/
lemma BothOk.map_right {S : α → γ → Prop}
    {g : β → γ} (himp : ∀ a b, R a b → S a (g b)) : BothOk S x (y.map g) := by
  cases x <;> cases y <;> first | exact h.elim | trivial | exact himp _ _ h

omit h

variable {f : α → Except ε β} {xs : List α} {ys : List β}

/-- `mapM` collects one value for each element. -/
lemma forall₂_of_mapM (h : xs.mapM f = .ok ys) : List.Forall₂ (fun x y => f x = .ok y) xs ys := by
  induction xs generalizing ys with
  | nil =>
    obtain rfl := Except.ok.inj h
    exact .nil
  | cons z zs ih =>
    rw [List.mapM_cons] at h
    cases hz : f z with
    | error err => simp [hz, bind, Except.bind] at h
    | ok y =>
      cases hzs : zs.mapM f with
      | error err => simp [hz, hzs, bind, Except.bind] at h
      | ok rest =>
        obtain rfl : y :: rest = ys := by
          simpa [hz, hzs, bind, Except.bind, pure, Except.pure] using h
        exact .cons hz (ih hzs)

lemma exists_mem_of_mapM (h : xs.mapM f = .ok ys) {x : α} (hx : x ∈ xs) : ∃ y ∈ ys, f x = .ok y :=
  forall₂_mem_left (forall₂_of_mapM h) hx

/-- Values that are determined by their elements. -/
lemma eq_map_of_mapM {g : α → β}
    (hg : ∀ x y, f x = .ok y → y = g x) (h : xs.mapM f = .ok ys) : ys = xs.map g := by
  have hpairs := forall₂_of_mapM h
  clear h
  induction hpairs with
  | nil => rfl
  | cons hy _ ih => rw [List.map_cons, ← hg _ _ hy, ih]

end TokenCode
