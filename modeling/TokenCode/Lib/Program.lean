/-
Programs that change a state and may fail, and a Hoare logic for them.

The state survives a failure: this is how code with `&mut` arguments and early returns behaves.
`Triple P x Q E` says that a run of `x` from a state with `P` ends with `Q` when it returns and
with `E` when it fails. The rules follow the way programs are put together, so that a proof reads
like the program that it is about.
-/
import Mathlib

namespace TokenCode

/-- A program on states `σ` that returns an `α` or fails with an `ε`. -/
abbrev Program (σ ε α : Type) := ExceptT ε (StateM σ) α

namespace Program

variable {σ ε ε' α β : Type}

/-- The result of a program, and the state it leaves behind. -/
def exec (x : Program σ ε α) (s : σ) : Except ε α × σ := x.run s

/-- Change the state. -/
def update (f : σ → σ) : Program σ ε Unit := fun s => (.ok (), f s)

/-- Look at the state. -/
def inspect (f : σ → α) : Program σ ε α := fun s => (.ok (f s), s)

/-- Take the failure of a program for a value. -/
def attempt (x : Program σ ε α) : Program σ ε' (Except ε α) := fun s =>
  (.ok (x.exec s).1, (x.exec s).2)

/-- Report a failure in other words. -/
def mapError (f : ε → ε') (x : Program σ ε α) : Program σ ε' α := fun s =>
  ((x.exec s).1.mapError f, (x.exec s).2)

/-- A result that is known already. -/
def ofExcept (r : Except ε α) : Program σ ε α := fun s => (r, s)

/-! ### Execution -/

@[simp] lemma exec_throw (e : ε) (s : σ) : (throw e : Program σ ε α).exec s = (.error e, s) := rfl

@[simp] lemma exec_attempt (x : Program σ ε α) (s : σ) :
    (attempt x : Program σ ε' (Except ε α)).exec s = (.ok (x.exec s).1, (x.exec s).2) := rfl

@[simp] lemma exec_mapError (f : ε → ε') (x : Program σ ε α) (s : σ) :
    (mapError f x).exec s = ((x.exec s).1.mapError f, (x.exec s).2) := rfl

lemma exec_bind (x : Program σ ε α) (f : α → Program σ ε β) (s : σ) :
    (x >>= f).exec s =
      match x.exec s with
      | (.ok a, s') => (f a).exec s'
      | (.error e, s') => (.error e, s') := by
  show (ExceptT.bindCont f (x.run s).1) (x.run s).2 = _
  unfold exec
  rcases x.run s with ⟨_ | a, s'⟩ <;> rfl

variable {x : Program σ ε α} {s s' : σ} {a : α}

lemma exec_bind_ok (h : x.exec s = (.ok a, s'))
    (f : α → Program σ ε β) : (x >>= f).exec s = (f a).exec s' := by
  rw [exec_bind, h]

variable {e : ε}

lemma exec_bind_error (h : x.exec s = (.error e, s'))
    (f : α → Program σ ε β) : (x >>= f).exec s = (.error e, s') := by
  rw [exec_bind, h]

/-! ### Triples -/

/-- From a state with `P`, the program returns with `Q` or fails with `E`. -/
def Triple (P : σ → Prop) (x : Program σ ε α) (Q : α → σ → Prop) (E : ε → σ → Prop) : Prop :=
  ∀ s, P s → match x.exec s with
    | (.ok a, s') => Q a s'
    | (.error e, s') => E e s'

variable {P P' : σ → Prop} {Q Q' : α → σ → Prop} {E E' : ε → σ → Prop}

lemma Triple.ok (h : Triple P x Q E) (hs : P s) (hx : x.exec s = (.ok a, s')) : Q a s' := by
  have h' := h s hs
  rwa [hx] at h'

lemma Triple.error (h : Triple P x Q E) (hs : P s) (hx : x.exec s = (.error e, s')) : E e s' := by
  have h' := h s hs
  rwa [hx] at h'

lemma Triple.intro (hok : ∀ s a s', P s → x.exec s = (.ok a, s') → Q a s')
    (herror : ∀ s e s', P s → x.exec s = (.error e, s') → E e s') : Triple P x Q E := by
  intro s hs
  rcases hx : x.exec s with ⟨e | a, s'⟩
  · exact herror s e s' hs hx
  · exact hok s a s' hs hx

theorem Triple.pure (h : ∀ s, P s → Q a s) : Triple P (pure a : Program σ ε α) Q E :=
  fun s hs => h s hs

theorem Triple.throw (h : ∀ s, P s → E e s) : Triple P (throw e : Program σ ε α) Q E :=
  fun s hs => h s hs

theorem Triple.update {f : σ → σ} {Q : Unit → σ → Prop} (h : ∀ s, P s → Q () (f s)) :
    Triple P (update f : Program σ ε Unit) Q E :=
  fun s hs => h s hs

theorem Triple.inspect {f : σ → α} (h : ∀ s, P s → Q (f s) s) :
    Triple P (inspect f : Program σ ε α) Q E :=
  fun s hs => h s hs

theorem Triple.ofExcept {r : Except ε α} (hok : ∀ a, r = .ok a → ∀ s, P s → Q a s)
    (herror : ∀ e, r = .error e → ∀ s, P s → E e s) :
    Triple P (ofExcept r : Program σ ε α) Q E := by
  intro s hs
  cases r with
  | ok a => exact hok a rfl s hs
  | error e => exact herror e rfl s hs

/-- **Sequencing.** -/
theorem Triple.bind {f : α → Program σ ε β} {R : β → σ → Prop}
    (hx : Triple P x Q E) (hf : ∀ a, Triple (Q a) (f a) R E) : Triple P (x >>= f) R E := by
  intro s hs
  rcases h : x.exec s with ⟨e | a, s'⟩
  · rw [exec_bind_error h]
    exact hx.error hs h
  · rw [exec_bind_ok h]
    exact hf a s' (hx.ok hs h)

variable (h : Triple P x Q E)
include h

/-- **Consequence.** -/
theorem Triple.mono (hP : ∀ s, P' s → P s)
    (hQ : ∀ a s, Q a s → Q' a s) (hE : ∀ e s, E e s → E' e s) : Triple P' x Q' E' :=
  Triple.intro (fun _ a s' hs hx => hQ a s' (h.ok (hP _ hs) hx))
    (fun _ e s' hs hx => hE e s' (h.error (hP _ hs) hx))

theorem Triple.pre (hP : ∀ s, P' s → P s) : Triple P' x Q E :=
  h.mono hP (fun _ _ h => h) fun _ _ h => h

theorem Triple.post (hQ : ∀ a s, Q a s → Q' a s) : Triple P x Q' E :=
  h.mono (fun _ h => h) hQ fun _ _ h => h

theorem Triple.onError (hE : ∀ e s, E e s → E' e s) : Triple P x Q E' :=
  h.mono (fun _ h => h) (fun _ _ h => h) hE

omit h

/-- A fact that does not depend on the state may be used in the proof. -/
theorem Triple.assume {φ : Prop} (h : φ → Triple P x Q E) : Triple (fun s => φ ∧ P s) x Q E :=
  fun s hs => h hs.1 s hs.2

/-- An attempt never fails. -/
theorem Triple.attempt {E : ε → σ → Prop} {E' : ε' → σ → Prop} (h : Triple P x Q E) :
    Triple P (attempt x : Program σ ε' (Except ε α))
      (fun r s => match r with
        | .ok a => Q a s
        | .error e => E e s) E' := by
  intro s hs
  rcases hx : x.exec s with ⟨e | a, s'⟩
  · rw [exec_attempt, hx]
    exact h.error hs hx
  · rw [exec_attempt, hx]
    exact h.ok hs hx

theorem Triple.mapError {f : ε → ε'} {E' : ε' → σ → Prop}
    (h : Triple P x Q fun e s => E' (f e) s) : Triple P (mapError f x) Q E' := by
  intro s hs
  rcases hx : x.exec s with ⟨e | a, s'⟩
  · rw [exec_mapError, hx]
    exact h.error hs hx
  · rw [exec_mapError, hx]
    exact h.ok hs hx

end Program

end TokenCode
