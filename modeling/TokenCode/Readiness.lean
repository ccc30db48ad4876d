/-
The readiness flag (`utils/readiness/src/lib.rs`).

A flag becomes ready once, and whoever makes it ready then sends `true` on a watch channel, on which
a send without a receiver is lost. A call of `wait_ready` tests the flag before it subscribes to
the channel. So a waiter misses the news exactly if the one send comes in between and finds no
other receiver (`waiters_served_iff`, `waiter_misses_readiness`).
-/
import Mathlib.Data.Int.Notation
import Mathlib.Data.List.Induction

namespace TokenCode.Readiness

/-- A call on the flag. -/
inductive Op
  | subscribe
  | markReady (token : ℤ)
  | isReady
  | waitReady
  deriving DecidableEq

/-- What a call returns. -/
inductive Outcome
  | bool (value : Bool)
  | token (token : ℤ)
  | tokenLockFailed
  | flagAlreadyReady
  | unit
  deriving DecidableEq

/-- What a call does next. -/
inductive Phase
  /-- the first `load_ready` -/
  | loading
  | locking
  /-- `load_ready` at the end of `is_ready` -/
  | rechecking
  /-- `tx.send(true)` -/
  | sending
  /-- `tx.subscribe()` -/
  | subscribing
  /-- `rx.borrow()`, at first or when `rx.changed()` returns -/
  | borrowing
  | done (outcome : Outcome)
  deriving DecidableEq

/-- The call waits: its test is behind it. -/
def Phase.Waits (phase : Phase) : Prop := phase = .subscribing ∨ phase = .borrowing

instance (phase : Phase) : Decidable phase.Waits := inferInstanceAs (Decidable (_ ∨ _))

/-- A call takes its turn. Whether it gets the lock, and which fresh token `subscribe` finds in its
loop, is left to the schedule. -/
structure Turn (ι : Type*) where
  call : ι
  contended : Bool := false
  token : ℤ := 1

/-- The flag, its channel with the number of its receivers, and the calls. -/
structure System (ι : Type*) where
  ready : Bool := false
  tokens : List ℤ := []
  value : Bool := false
  receivers : ℕ := 0
  phase : ι → Phase := fun _ => .loading

variable {ι : Type*} [DecidableEq ι]

namespace System

def goto (s : System ι) (i : ι) (phase : Phase) : System ι :=
  { s with phase := Function.update s.phase i phase }

def makeReady (s : System ι) (i : ι) : System ι :=
  { s.goto i .sending with ready := true, tokens := [] }

/-- A send without a receiver fails, and leaves the value as it is. -/
def send (s : System ι) (i : ι) (outcome : Outcome) : System ι :=
  { s.goto i (.done outcome) with value := s.value || decide (0 < s.receivers) }

end System

variable (op : ι → Op)

/-- What the test of the flag leads to. -/
def tested : Op → Bool → Phase
  | .waitReady, true => .done .unit
  | .waitReady, false => .subscribing
  | _, ready => .done (.bool ready)

/-- The section under the lock. -/
def lockSection (s : System ι) (turn : Turn ι) : System ι :=
  match op turn.call with
  | .subscribe =>
    if turn.contended then s.goto turn.call (.done .tokenLockFailed)
    else if s.ready then s.goto turn.call (.done .flagAlreadyReady)
    else { s.goto turn.call (.done (.token turn.token)) with tokens := turn.token :: s.tokens }
  | .markReady token =>
    if turn.contended then s.goto turn.call (.done .tokenLockFailed)
    else if token ∈ s.tokens then s.makeReady turn.call
    else s.goto turn.call (.done (.bool false))
  | test =>
    -- `try_lock` of `is_ready`
    if turn.contended ∨ s.tokens ≠ [] then s.goto turn.call .rechecking
    else if s.ready then s.goto turn.call (tested test true)
    else s.makeReady turn.call

/-- The call goes on by one step. -/
def step (s : System ι) (turn : Turn ι) : System ι :=
  match s.phase turn.call with
  | .loading =>
    match op turn.call, s.ready with
    | .subscribe, true => s.goto turn.call (.done .flagAlreadyReady)
    | .markReady _, true => s.goto turn.call (.done (.bool false))
    | .markReady token, false =>
      s.goto turn.call (if token = 0 then .done (.bool false) else .locking)
    | test, true => s.goto turn.call (tested test true)
    | _, false => s.goto turn.call .locking
  | .locking => lockSection op s turn
  | .rechecking => s.goto turn.call (tested (op turn.call) s.ready)
  | .sending => s.send turn.call (if op turn.call = .waitReady then .unit else .bool true)
  | .subscribing => { s.goto turn.call .borrowing with receivers := s.receivers + 1 }
  | .borrowing =>
    if s.value then { s.goto turn.call (.done .unit) with receivers := s.receivers - 1 } else s
  | .done _ => s

def run (schedule : List (Turn ι)) : System ι := schedule.foldl (step op) {}

/-! ### The one broadcast -/

/-- How far the news has come. Before it is sent, the receivers are those of the calls that have
subscribed; afterwards `t` is the state in which it was sent. -/
inductive News (Sent : System ι → Prop) (s : System ι) : Prop
  | unready (hready : s.ready = false) (hphase : ∀ i, s.phase i ≠ .sending) (hvalue : s.value = false)
      (hreceivers : 0 < s.receivers ↔ ∃ i, s.phase i = .borrowing)
  | pending (i : ι) (hready : s.ready = true) (htokens : s.tokens = [])
      (hphase : ∀ j, s.phase j = .sending ↔ j = i) (hvalue : s.value = false)
      (hreceivers : 0 < s.receivers ↔ ∃ i, s.phase i = .borrowing)
  | sent (t : System ι) (hsent : Sent t) (hready : s.ready = true) (htokens : s.tokens = [])
      (hphase : ∀ i, s.phase i ≠ .sending) (hvalue : s.value = true ↔ ∃ i, t.phase i = .borrowing)
      (hwaits : s.value = false → ∀ i, (s.phase i).Waits ↔ t.phase i = .subscribing)

variable {op} {Sent : System ι → Prop} {s : System ι} {i : ι}

section

variable {P : Phase → Prop} {phase : Phase}

/-- A call that goes from a phase to another one changes nothing about a property of neither. -/
lemma goto_iff (h : P phase ↔ P (s.phase i)) (j : ι) : P ((s.goto i phase).phase j) ↔ P (s.phase j) := by
  by_cases hji : j = i
  · subst hji
    simpa [System.goto] using h
  · simp [System.goto, hji]

lemma exists_goto_iff (h : P phase ↔ P (s.phase i)) :
    (∃ j, P ((s.goto i phase).phase j)) ↔ ∃ j, P (s.phase j) :=
  exists_congr (goto_iff h)

end

omit [DecidableEq ι] in
lemma News.mono {Sent' : System ι → Prop} (h : News Sent s) (hmono : ∀ t, Sent t → Sent' t) :
    News Sent' s := by
  cases h with
  | unready hready hphase hvalue hreceivers => exact .unready hready hphase hvalue hreceivers
  | pending i hready htokens hphase hvalue hreceivers =>
    exact .pending i hready htokens hphase hvalue hreceivers
  | sent t hsent hready htokens hphase hvalue hwaits =>
    exact .sent t (hmono t hsent) hready htokens hphase hvalue hwaits

/-- The call has not come to its end, and does not wait. -/
def Phase.Early (phase : Phase) : Prop := phase = .loading ∨ phase = .locking ∨ phase = .rechecking

lemma Phase.Early.ne {phase : Phase} (h : phase.Early) :
    phase ≠ .sending ∧ phase ≠ .borrowing ∧ ¬ phase.Waits := by
  rcases h with rfl | rfl | rfl <;> simp [Phase.Waits]

variable (h : News Sent s)
include h

/-- Steps that neither make the flag ready nor send. Once it is ready no call begins to wait. -/
lemma News.move (hi : (s.phase i).Early) {phase : Phase}
    (hphase : phase ≠ .sending ∧ phase ≠ .borrowing) {tokens : List ℤ}
    (hready : s.ready = true → ¬ phase.Waits ∧ tokens = s.tokens) :
    News Sent { s.goto i phase with tokens } := by
  obtain ⟨hsending, hborrowing, hwaiting⟩ := hi.ne
  have hsame := goto_iff (P := (· = .sending)) (iff_of_false hphase.1 hsending)
  have hreceive := exists_goto_iff (P := (· = .borrowing)) (iff_of_false hphase.2 hborrowing)
  cases h with
  | unready hunready hnone hvalue hreceivers =>
    exact .unready hunready (fun j => mt (hsame j).1 (hnone j)) hvalue (hreceivers.trans hreceive.symm)
  | pending k hready' htokens hone hvalue hreceivers =>
    exact .pending k hready' ((hready hready').2.trans htokens) (fun j => (hsame j).trans (hone j))
      hvalue (hreceivers.trans hreceive.symm)
  | sent t hsent hready' htokens hnone hvalue hwaits =>
    refine .sent t hsent hready' ((hready hready').2.trans htokens) (fun j => mt (hsame j).1 (hnone j))
      hvalue fun hfalse j => ?_
    exact (goto_iff (P := Phase.Waits) (iff_of_false (hready hready').1 hwaiting) j).trans
      (hwaits hfalse j)

/-- A call that waits gets its receiver. -/
lemma News.subscribe (hi : s.phase i = .subscribing) :
    News Sent { s.goto i .borrowing with receivers := s.receivers + 1 } := by
  have hsame : ∀ j, (s.goto i .borrowing).phase j = .sending ↔ s.phase j = .sending :=
    goto_iff (P := (· = .sending)) (by simp [hi])
  have hholds : (s.goto i .borrowing).phase i = .borrowing := Function.update_self i _ s.phase
  cases h with
  | unready hready hnone hvalue hreceivers =>
    exact .unready hready (fun j => mt (hsame j).1 (hnone j)) hvalue
      (iff_of_true (Nat.succ_pos _) ⟨i, hholds⟩)
  | pending k hready htokens hone hvalue hreceivers =>
    exact .pending k hready htokens (fun j => (hsame j).trans (hone j)) hvalue
      (iff_of_true (Nat.succ_pos _) ⟨i, hholds⟩)
  | sent t hsent hready htokens hnone hvalue hwaits =>
    refine .sent t hsent hready htokens (fun j => mt (hsame j).1 (hnone j)) hvalue fun hfalse j => ?_
    exact (goto_iff (P := Phase.Waits) (by simp [hi, Phase.Waits]) j).trans (hwaits hfalse j)

/-- A receiver finds the value. -/
lemma News.receive (hi : s.phase i = .borrowing) (htrue : s.value = true) :
    News Sent { s.goto i (.done .unit) with receivers := s.receivers - 1 } := by
  have hsame : ∀ j, (s.goto i (.done .unit)).phase j = .sending ↔ s.phase j = .sending :=
    goto_iff (P := (· = .sending)) (by simp [hi])
  cases h with
  | unready _ _ hvalue _ => exact absurd htrue (Bool.eq_false_iff.1 hvalue)
  | pending _ _ _ _ hvalue _ => exact absurd htrue (Bool.eq_false_iff.1 hvalue)
  | sent t hsent hready htokens hnone hvalue hwaits =>
    exact .sent t hsent hready htokens (fun j => mt (hsame j).1 (hnone j)) hvalue
      fun hfalse => absurd htrue (Bool.eq_false_iff.1 hfalse)

lemma News.makeReady (hi : (s.phase i).Early) (hnew : s.ready = false ∨ s.tokens ≠ []) :
    News Sent (s.makeReady i) := by
  cases h with
  | unready hready hnone hvalue hreceivers =>
    refine .pending i rfl rfl (fun j => ?_) hvalue ?_
    · by_cases hji : j = i <;> simp [System.makeReady, System.goto, hji, hnone]
    · refine hreceivers.trans (exists_goto_iff (P := (· = .borrowing)) ?_).symm
      exact iff_of_false (by simp) hi.ne.2.1
  | pending k hready hempty => simp [hready, hempty] at hnew
  | sent t _ hready hempty => simp [hready, hempty] at hnew

/-- The news reaches the stored value if there is a receiver. The calls that wait afterwards without
it are those that have not subscribed yet. -/
lemma News.send (hi : s.phase i = .sending) (outcome : Outcome) :
    News (fun t => Sent t ∨ t = s) (s.send i outcome) := by
  cases h with
  | unready hready hnone => exact absurd hi (hnone i)
  | sent t _ hready hempty hnone => exact absurd hi (hnone i)
  | pending k hready hempty hone hvalue hreceivers =>
    have hsent : (s.send i outcome).value = true ↔ ∃ j, s.phase j = .borrowing := by
      simpa [System.send, hvalue] using hreceivers
    refine .sent s (.inr rfl) hready hempty (fun j hj => ?_) hsent fun hfalse j => ?_
    · by_cases hji : j = i
      · subst hji
        simp [System.send, System.goto] at hj
      · -- the call that sends is the only one
        have hj : s.phase j = .sending := by simpa [System.send, System.goto, hji] using hj
        exact hji (((hone j).1 hj).trans ((hone i).1 hi).symm)
    · have hnone : s.phase j ≠ .borrowing := fun hj =>
        Bool.eq_false_iff.1 hfalse (hsent.2 ⟨j, hj⟩)
      refine (goto_iff (P := Phase.Waits) (by simp [hi, Phase.Waits]) j).trans ?_
      simp [Phase.Waits, hnone]

omit h in
lemma tested_ne (test : Op) (ready : Bool) :
    tested test ready ≠ .sending ∧ tested test ready ≠ .borrowing := by
  cases test <;> cases ready <;> simp [tested]

omit h in
lemma not_waits_tested (test : Op) : ¬ (tested test true).Waits := by
  cases test <;> simp [tested, Phase.Waits]

lemma News.lockSection (turn : Turn ι) (hi : (s.phase turn.call).Early) :
    News Sent (lockSection op s turn) := by
  unfold Readiness.lockSection
  split
  · split_ifs with hcontended hready
    · exact h.move hi (by simp) fun _ => ⟨by simp [Phase.Waits], rfl⟩
    · exact h.move hi (by simp) fun _ => ⟨by simp [Phase.Waits], rfl⟩
    · exact h.move hi (by simp) fun h => absurd h hready
  · split_ifs with hcontended htoken
    · exact h.move hi (by simp) fun _ => ⟨by simp [Phase.Waits], rfl⟩
    · exact h.makeReady hi (.inr (List.ne_nil_of_mem htoken))
    · exact h.move hi (by simp) fun _ => ⟨by simp [Phase.Waits], rfl⟩
  · split_ifs with htry hready
    · exact h.move hi (by simp) fun _ => ⟨by simp [Phase.Waits], rfl⟩
    · exact h.move hi (tested_ne _ _) fun _ => ⟨not_waits_tested _, rfl⟩
    · exact h.makeReady hi (.inl (Bool.eq_false_iff.2 hready))

lemma News.step (turn : Turn ι) :
    News (fun t => Sent t ∨ t = s ∧ s.phase turn.call = .sending) (step op s turn) := by
  unfold Readiness.step
  split
  case h_4 hphase => exact (h.send hphase _).mono fun t => Or.imp_right fun ht => ⟨ht, hphase⟩
  all_goals refine (?_ : News Sent _).mono fun _ => .inl
  case h_1 hphase =>
    have hi : (s.phase turn.call).Early := .inl hphase
    split
    · exact h.move hi (by simp) fun _ => ⟨by simp [Phase.Waits], rfl⟩
    · exact h.move hi (by simp) fun _ => ⟨by simp [Phase.Waits], rfl⟩
    · exact h.move hi (by split_ifs <;> simp) fun _ => ⟨by split_ifs <;> simp [Phase.Waits], rfl⟩
    · exact h.move hi (tested_ne _ _) fun _ => ⟨not_waits_tested _, rfl⟩
    · exact h.move hi (by simp) fun _ => ⟨by simp [Phase.Waits], rfl⟩
  case h_2 hphase => exact h.lockSection turn (.inr (.inl hphase))
  case h_3 hphase =>
    exact h.move (.inr (.inr hphase)) (tested_ne _ _) fun hready =>
      ⟨hready ▸ not_waits_tested _, rfl⟩
  case h_5 hphase => exact h.subscribe hphase
  case h_6 hphase =>
    split_ifs with hvalue
    · exact h.receive hphase hvalue
    · exact h
  case h_7 hphase => exact h

omit h

/-- The state `t` of the run is the one in which the news is sent. -/
def SentAt (op : ι → Op) (schedule : List (Turn ι)) (t : System ι) : Prop :=
  ∃ before turn after, schedule = before ++ turn :: after ∧ run op before = t ∧
    t.phase turn.call = .sending

lemma news_run (op : ι → Op) (schedule : List (Turn ι)) :
    News (SentAt op schedule) (run op schedule) := by
  induction schedule using List.reverseRecOn with
  | nil => exact .unready rfl (by simp [run]) rfl (by simp [run])
  | append_singleton schedule turn ih =>
    rw [run, List.foldl_append]
    refine (ih.step turn).mono fun t ht => ?_
    rcases ht with ⟨before, first, after, rfl, hrun, hphase⟩ | ⟨rfl, hphase⟩
    · exact ⟨before, first, after ++ [turn], by simp, hrun, hphase⟩
    · exact ⟨schedule, turn, [], rfl, rfl, hphase⟩

/-- **When no waiter misses readiness.**  Once the flag is ready and nobody is about to send, the news
was sent in some state of the run. Every call that waits has, or will create, a receiver with the
value `true` if and only if in that state some call had its receiver, or none stood between its test
and its subscription. -/
theorem waiters_served_iff {schedule : List (Turn ι)} (hready : (run op schedule).ready = true)
    (hquiet : ∀ i, (run op schedule).phase i ≠ .sending) :
    ∃ t, SentAt op schedule t ∧
      ((∀ i, ((run op schedule).phase i).Waits → (run op schedule).value = true) ↔
        (∃ i, t.phase i = .borrowing) ∨ ∀ i, t.phase i ≠ .subscribing) := by
  cases news_run op schedule with
  | unready hunready => simp [hunready] at hready
  | pending i _ _ hone => exact absurd ((hone i).2 rfl) (hquiet i)
  | sent t hsent _ _ _ hvalue hwaits =>
    refine ⟨t, hsent, ?_⟩
    rw [← hvalue]
    cases hstored : (run op schedule).value with
    | true => simp
    | false =>
      have hleft := hwaits hstored
      simp [hleft]

/-- A subscriber, a waiter, and a call that makes the flag ready. -/
def calls : Fin 3 → Op
  | 0 => .subscribe
  | 1 => .waitReady
  | 2 => .markReady 1

def runCalls (order : List (Fin 3)) : System (Fin 3) := run calls (order.map fun i => ⟨i, false, 1⟩)

/-- The waiter subscribes before the news is sent. -/
theorem waiters_served_iff_receiver :
    let s := runCalls [0, 0, 1, 1, 1, 1, 2, 2, 2]
    (s.phase 1).Waits ∧ s.value = true ∧
      ∃ t, SentAt calls ([0, 0, 1, 1, 1, 1, 2, 2, 2].map fun i => ⟨i, false, 1⟩) t ∧
        ((∃ i, t.phase i = .borrowing) ∨ ∀ i, t.phase i ≠ .subscribing) := by
  intro s
  have hvalue : s.value = true := by decide
  have hready : s.ready = true := by decide
  obtain ⟨t, hsent, hserved⟩ := waiters_served_iff hready (by decide)
  exact ⟨by decide, hvalue, t, hsent, hserved.1 fun _ _ => hvalue⟩

/-- The waiter tests the flag, the flag is made ready and the news sent, the waiter subscribes. -/
theorem waiter_misses_readiness :
    let s := runCalls [0, 0, 1, 1, 1, 2, 2, 2]
    let s' := runCalls [0, 0, 1, 1, 1, 2, 2, 2, 1, 1]
    s.ready = true ∧ s.phase 2 = .done (.bool true) ∧ s.phase 1 = .subscribing ∧ s.value = false ∧
      s'.phase 1 = .borrowing ∧ s'.value = false := by
  decide

end TokenCode.Readiness
