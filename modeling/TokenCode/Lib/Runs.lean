/-
Lists in runs, and calls that are answered at once.

A list is cut into runs: stretches whose neighbours belong together (`Runs`). A program that adds
each element either to its last group or to a new one builds such runs (`exists_runs_foldl`).

In an exchange some elements call and others answer a call. Answers come at once when nothing but
elements of the caller's side, and then other answers, stands between a call and its answer
(`Prompt`). For an exchange in which every call has exactly one answer this says that the answer
is found in the stretch of answers behind the caller's run (`forall_mem_lead_iff`).
-/
import Mathlib

namespace TokenCode

open List

/-! ### Runs -/

section

variable {α β : Type*} {r : α → α → Prop}

/-- Stretches of a list whose neighbours are related, while the ends of two of them are not. -/
structure Runs (r : α → α → Prop) (runs : List (List α)) : Prop where
  ne_nil : [] ∉ runs
  inside : ∀ run ∈ runs, run.IsChain r
  between : runs.IsChain fun a b => ∀ x ∈ a.getLast?, ∀ y ∈ b.head?, ¬ r x y

variable {runs before after : List (List α)} {run : List α} {a : α}

lemma Runs.nil : Runs r [] := ⟨by simp, by simp, .nil⟩

lemma Runs.tail (h : Runs r (run :: runs)) : Runs r runs :=
  ⟨fun hmem => h.ne_nil (mem_cons_of_mem _ hmem),
    fun other hother => h.inside other (mem_cons_of_mem _ hother), h.between.tail⟩

lemma Runs.of_append (h : Runs r (before ++ after)) : Runs r after := by
  induction before with
  | nil => exact h
  | cons run before ih => exact ih h.tail

lemma Runs.concat_new (h : Runs r runs) (hnew : ∀ x ∈ runs.flatten.getLast?, ¬ r x a) :
    Runs r (runs ++ [[a]]) := by
  refine ⟨by simpa using h.ne_nil, ?_, ?_⟩
  · intro run hrun
    rcases mem_append.1 hrun with hrun | hrun
    · exact h.inside run hrun
    · obtain rfl := mem_singleton.1 hrun
      exact .singleton a
  · refine isChain_append.2 ⟨h.between, .singleton _, ?_⟩
    intro last hlast first hfirst x hx y hy
    obtain rfl : [a] = first := by simpa using hfirst
    obtain rfl : a = y := by simpa using hy
    refine hnew x ?_
    obtain ⟨front, rfl⟩ := getLast?_eq_some_iff.1 hlast
    have hne : last ≠ [] := fun hnil => h.ne_nil (by simp [hnil])
    rw [flatten_append, flatten_singleton, getLast?_append_of_ne_nil _ hne]
    exact hx

lemma Runs.concat_same (h : Runs r (runs ++ [run])) (hsame : ∀ x ∈ run.getLast?, r x a) :
    Runs r (runs ++ [run ++ [a]]) := by
  have hne : run ≠ [] := fun hnil => h.ne_nil (by simp [hnil])
  have hfront : [] ∉ runs := fun hmem => h.ne_nil (mem_append_left _ hmem)
  obtain ⟨hruns, -, hends⟩ := isChain_append.1 h.between
  refine ⟨by simpa using hfront, ?_, isChain_append.2 ⟨hruns, .singleton _, ?_⟩⟩
  · intro other hother
    rcases mem_append.1 hother with hother | hother
    · exact h.inside other (mem_append_left _ hother)
    · obtain rfl := mem_singleton.1 hother
      refine isChain_append.2 ⟨h.inside run (by simp), .singleton _, fun x hx y hy => ?_⟩
      obtain rfl : a = y := by simpa using hy
      exact hsame x hx
  · intro last hlast first hfirst x hx y hy
    obtain rfl : run ++ [a] = first := by simpa using hfirst
    rw [head?_append_of_ne_nil _ hne] at hy
    exact hends last hlast run (by simp) x hx y hy

lemma flatten_eq_append_cons {front back : List α} (h : runs.flatten = front ++ a :: back) :
    ∃ before left right after, runs = before ++ (left ++ a :: right) :: after ∧
      front = before.flatten ++ left ∧ back = right ++ after.flatten := by
  induction runs generalizing front with
  | nil => simp at h
  | cons run runs ih =>
    rcases append_eq_append_iff.1 h with ⟨mid, rfl, hmid⟩ | ⟨mid, rfl, hmid⟩
    · obtain ⟨before, left, right, after, rfl, rfl, rfl⟩ := ih hmid
      exact ⟨run :: before, left, right, after, rfl, by simp, rfl⟩
    · cases mid with
      | nil =>
        obtain ⟨before, left, right, after, rfl, hnil, rfl⟩ := @ih [] hmid.symm
        exact ⟨(front ++ []) :: before, left, right, after, rfl, by simpa using hnil, rfl⟩
      | cons b mid =>
        obtain ⟨rfl, rfl⟩ := cons.inj hmid
        exact ⟨[], front, mid, runs, rfl, rfl, rfl⟩

/-- **A fold that adds to the last group or opens a new one** builds the groups from runs. -/
theorem exists_runs_foldl {step : List β → α → List β} {group : List α → β} {base : List β}
    {P : α → Prop}
    (hsame : ∀ (runs : List (List α)) (run : List α) (x a : α), Runs r (runs ++ [run]) →
      run.getLast? = some x → r x a → (∀ y ∈ run, P y) → P a →
        step (base ++ (runs ++ [run]).map group) a = base ++ (runs ++ [run ++ [a]]).map group)
    (hnew : ∀ (runs : List (List α)) (a : α), Runs r runs →
      (∀ x ∈ runs.flatten.getLast?, ¬ r x a) → (∀ y ∈ runs.flatten, P y) → P a →
        step (base ++ runs.map group) a = base ++ (runs ++ [[a]]).map group)
    {l : List α} (hl : ∀ a ∈ l, P a) :
    ∃ runs, Runs r runs ∧ runs.flatten = l ∧ l.foldl step base = base ++ runs.map group := by
  induction l using reverseRecOn with
  | nil => exact ⟨[], .nil, rfl, by simp⟩
  | append_singleton l a ih =>
    obtain ⟨runs, hruns, rfl, hfold⟩ := ih fun y hy => hl y (mem_append_left _ hy)
    have ha : P a := hl a (by simp)
    have hruns' : ∀ y ∈ runs.flatten, P y := fun y hy => hl y (mem_append_left _ hy)
    rw [foldl_append, foldl_cons, foldl_nil, hfold]
    by_cases hlast : ∃ x ∈ runs.flatten.getLast?, r x a
    · obtain ⟨x, hx, hrel⟩ := hlast
      have hne : runs ≠ [] := by
        rintro rfl
        simp at hx
      obtain ⟨front, run, rfl⟩ := (eq_nil_or_concat' runs).resolve_left hne
      have hrun : run ≠ [] := fun hnil => hruns.ne_nil (by simp [hnil])
      rw [flatten_append, flatten_singleton, getLast?_append_of_ne_nil _ hrun] at hx
      refine ⟨front ++ [run ++ [a]], hruns.concat_same ?_, by simp,
        hsame _ _ x a hruns hx hrel (fun y hy => hruns' y (by simp [hy])) ha⟩
      intro y hy
      rwa [← Option.mem_unique hx hy]
    · have hfresh : ∀ x ∈ runs.flatten.getLast?, ¬ r x a := fun x hx hrel => hlast ⟨x, hx, hrel⟩
      exact ⟨runs ++ [[a]], hruns.concat_new hfresh, by simp, hnew runs a hruns hfresh hruns' ha⟩

end

/-! ### Calls and answers -/

/-- What an element does in an exchange: it calls, it answers, or it is something else from the
side of the callers or from the other side. -/
inductive Move (κ : Type*) where
  | call (key : κ)
  | answer (key : κ)
  | left
  | right

namespace Move

variable {κ : Type*}

def isLeft : Move κ → Bool
  | .call _ | .left => true
  | .answer _ | .right => false

def isAnswer : Move κ → Bool
  | .answer _ => true
  | .call _ | .left | .right => false

def callKey : Move κ → Option κ
  | .call key => some key
  | .answer _ | .left | .right => none

def answerKey : Move κ → Option κ
  | .answer key => some key
  | .call _ | .left | .right => none

variable {m : Move κ} {key : κ}

lemma isLeft_of_callKey (h : m.callKey = some key) : m.isLeft = true := by
  cases m <;> simp_all [callKey, isLeft]

lemma answerKey_of_callKey (h : m.callKey = some key) : m.answerKey = none := by
  cases m <;> simp_all [callKey, answerKey]

lemma isAnswer_of_answerKey (h : m.answerKey = some key) : m.isAnswer = true := by
  cases m <;> simp_all [answerKey, isAnswer]

lemma isLeft_of_isAnswer (h : m.isAnswer = true) : m.isLeft = false := by
  cases m <;> simp_all [isAnswer, isLeft]

end Move

section

variable {α κ : Type*} (move : α → Move κ)

/-- The element is from the side of the callers. -/
def leftAt (a : α) : Bool := (move a).isLeft

/-- The element is an answer. -/
def answersAt (a : α) : Bool := (move a).isAnswer

/-- The key that the element calls. -/
def callAt (a : α) : Option κ := (move a).callKey

/-- The key that the element answers. -/
def answerAt (a : α) : Option κ := (move a).answerKey

/-- The answers that come right behind the rest of the caller's run. -/
def lead (rest : List α) : List κ :=
  ((rest.dropWhile (leftAt move)).takeWhile (answersAt move)).filterMap
    (answerAt move)

/-- Every call has exactly one answer, behind it, and no key is called twice. -/
structure Answered (l : List α) : Prop where
  distinct : (l.filterMap (callAt move)).Nodup
  answers : (l.filterMap (callAt move)).Perm (l.filterMap (answerAt move))
  later : ∀ before after, l = before ++ after →
    ∀ key ∈ before.filterMap (answerAt move),
      key ∈ before.filterMap (callAt move)

/-- Between a call and its answer there are only elements of the caller's side and then answers. -/
def Prompt (l : List α) : Prop :=
  ∀ before x between y after key, l = before ++ x :: (between ++ y :: after) →
    callAt move x = some key → answerAt move y = some key →
      ∃ lefts answers, between = lefts ++ answers ∧ (∀ a ∈ lefts, leftAt move a = true) ∧
        ∀ a ∈ answers, answersAt move a = true

variable {move} {l before rest : List α} {x y : α} {key : κ}

lemma Answered.nodup_answers (h : Answered move l) : (l.filterMap (answerAt move)).Nodup :=
  h.answers.nodup_iff.1 h.distinct

/-- The answer to a call stands behind it. -/
lemma Answered.exists_answer (h : Answered move l) (hl : l = before ++ x :: rest)
    (hx : callAt move x = some key) :
    ∃ between y after, rest = between ++ y :: after ∧ answerAt move y = some key := by
  have hmem : key ∈ l.filterMap (answerAt move) := by
    rw [← h.answers.mem_iff, hl, mem_filterMap]
    exact ⟨x, by simp, hx⟩
  have hnot : key ∉ before.filterMap (answerAt move) := by
    -- an answer in front of the call would have another call in front of it
    intro hbefore
    have hcalled := h.later before (x :: rest) hl key hbefore
    have hdistinct := h.distinct
    rw [hl, filterMap_append, nodup_append] at hdistinct
    exact hdistinct.2.2 key hcalled key (mem_filterMap.2 ⟨x, mem_cons_self, hx⟩) rfl
  have hself : answerAt move x = none := Move.answerKey_of_callKey hx
  rw [hl, filterMap_append, mem_append, filterMap_cons_none hself] at hmem
  obtain ⟨y, hy, hkey⟩ := mem_filterMap.1 (hmem.resolve_left hnot)
  obtain ⟨between, after, hrest⟩ := append_of_mem hy
  exact ⟨between, y, after, hrest, hkey⟩

/-- An answer of a duplicate-free list of answers stands at one place. -/
lemma answer_place_unique {between after between' after' : List α} {y' : α}
    (hnodup : (rest.filterMap (answerAt move)).Nodup)
    (hrest : rest = between ++ y :: after) (hrest' : rest = between' ++ y' :: after')
    (hy : answerAt move y = some key) (hy' : answerAt move y' = some key) : between = between' := by
  rw [hrest] at hrest' hnodup
  rw [filterMap_append, filterMap_cons_some hy, nodup_append] at hnodup
  obtain ⟨-, hafter, hbetween⟩ := hnodup
  rcases append_eq_append_iff.1 hrest' with ⟨mid, hmid, htail⟩ | ⟨mid, hmid, htail⟩
  · cases mid with
    | nil => simpa using hmid.symm
    | cons z mid =>
      -- the second place lies behind the first
      have hbehind : after = mid ++ y' :: after' := (cons.inj htail).2
      refine absurd ?_ (nodup_cons.1 hafter).1
      rw [hbehind]
      exact mem_filterMap.2 ⟨y', by simp, hy'⟩
  · cases mid with
    | nil => simpa using hmid
    | cons z mid =>
      -- the second place lies in front of the first
      obtain rfl : y' = z := (cons.inj htail).1
      refine absurd rfl (hbetween key ?_ key (by simp))
      rw [hmid]
      exact mem_filterMap.2 ⟨y', by simp, hy'⟩

/-- What leads behind a stretch of the caller's side. -/
lemma lead_append {lefts answers after : List α} (hlefts : ∀ a ∈ lefts, leftAt move a = true)
    (hafter : ∀ a ∈ (answers ++ after).head?, leftAt move a = false)
    (hanswers : ∀ a ∈ answers, answersAt move a = true) : lead move (lefts ++ (answers ++ after)) =
      answers.filterMap (answerAt move) ++
        (after.takeWhile (answersAt move)).filterMap (answerAt move) := by
  have hdrop : (answers ++ after).dropWhile (leftAt move) = answers ++ after := by
    cases hlist : answers ++ after with
    | nil => rfl
    | cons a as =>
      simp [hafter a (by simp [hlist])]
  rw [lead, dropWhile_append_of_pos hlefts, hdrop, takeWhile_append_of_pos hanswers,
    filterMap_append]

lemma exists_append_of_mem_takeWhile {p : α → Bool} (h : x ∈ l.takeWhile p) :
    ∃ front back, l = front ++ x :: back ∧ ∀ a ∈ front, p a = true := by
  obtain ⟨front, back, htake⟩ := append_of_mem h
  refine ⟨front, back ++ l.dropWhile p, ?_, fun a ha => ?_⟩
  · have hl : l.takeWhile p ++ l.dropWhile p = l := takeWhile_append_dropWhile
    rw [htake] at hl
    simpa using hl.symm
  · exact mem_takeWhile_imp (htake ▸ mem_append_left _ ha)

lemma exists_lead_of_mem (h : key ∈ lead move rest) :
    ∃ lefts answers y after, rest = lefts ++ answers ++ y :: after ∧
      answerAt move y = some key ∧ (∀ a ∈ lefts, leftAt move a = true) ∧
      ∀ a ∈ answers, answersAt move a = true := by
  obtain ⟨y, hy, hkey⟩ := mem_filterMap.1 h
  obtain ⟨answers, after, hdrop, hanswers⟩ := exists_append_of_mem_takeWhile hy
  refine ⟨rest.takeWhile (leftAt move), answers, y, after, ?_, hkey,
    fun a ha => mem_takeWhile_imp ha, hanswers⟩
  have hrest : rest.takeWhile (leftAt move) ++ rest.dropWhile (leftAt move) = rest :=
    takeWhile_append_dropWhile
  rw [hdrop] at hrest
  simpa using hrest.symm

/-- **Every answer is in the stretch behind the caller's run** exactly if the answers are prompt. -/
theorem forall_mem_lead_iff (h : Answered move l) :
    (∀ before x rest key, l = before ++ x :: rest → callAt move x = some key →
      key ∈ lead move rest) ↔ Prompt move l := by
  have hnodup : ∀ {before rest : List α} {x : α}, l = before ++ x :: rest →
      (rest.filterMap (answerAt move)).Nodup := by
    intro before rest x hl
    have hall := h.nodup_answers
    rw [hl] at hall
    exact hall.sublist (Sublist.filterMap _
      ((sublist_cons_self x rest).trans (sublist_append_right before _)))
  constructor
  · intro hlead before x between y after key hl hx hy
    obtain ⟨lefts, answers, y', after', hrest, hy', hlefts, hanswers⟩ :=
      exists_lead_of_mem (hlead before x _ key hl hx)
    exact ⟨lefts, answers, answer_place_unique (hnodup hl) rfl hrest hy hy', hlefts, hanswers⟩
  · intro hprompt before x rest key hl hx
    obtain ⟨between, y, after, rfl, hy⟩ := h.exists_answer hl hx
    obtain ⟨lefts, answers, rfl, hlefts, hanswers⟩ :=
      hprompt before x between y after key hl hx hy
    have hyAnswer : answersAt move y = true := Move.isAnswer_of_answerKey hy
    rw [List.append_assoc, lead_append hlefts ?_ hanswers]
    · refine mem_append_right _ (mem_filterMap.2 ⟨y, ?_, hy⟩)
      rw [takeWhile_cons_of_pos hyAnswer]
      exact mem_cons_self
    · intro a ha
      cases answers with
      | nil =>
        obtain rfl : y = a := by simpa using ha
        exact Move.isLeft_of_isAnswer hyAnswer
      | cons b answers =>
        obtain rfl : b = a := by simpa using ha
        exact Move.isLeft_of_isAnswer (hanswers b mem_cons_self)

/-! ### Runs of an exchange -/

section

variable {r : α → α → Prop} {runs after : List (List α)} {run : List α}

/-- The relation keeps the side of the callers together and apart from the rest. -/
def KeepsLeft (move : α → Move κ) (r : α → α → Prop) : Prop :=
  ∀ x y, leftAt move x = true ∨ leftAt move y = true →
    (r x y ↔ leftAt move x = true ∧ leftAt move y = true)

lemma KeepsLeft.forall_leftAt (hr : KeepsLeft move r) (hrun : run.IsChain r) :
    (∀ y ∈ run, leftAt move y = true) ∨ ∀ y ∈ run, leftAt move y = false := by
  induction run with
  | nil => exact .inl (by simp)
  | cons a run ih =>
    obtain ⟨hhead, hrest⟩ := isChain_cons.1 hrun
    cases run with
    | nil => cases ha : leftAt move a <;> simp [ha]
    | cons b run =>
      have hab : r a b := hhead b (by simp)
      rcases ih hrest with hall | hnone
      · have hb := hall b mem_cons_self
        have ha := ((hr a b (.inr hb)).1 hab).1
        exact .inl (forall_mem_cons.2 ⟨ha, hall⟩)
      · refine .inr (forall_mem_cons.2 ⟨?_, hnone⟩)
        by_contra ha
        have hb := ((hr a b (.inl (by simpa using ha))).1 hab).2
        rw [hnone b mem_cons_self] at hb
        cases hb

/-- A run with an element of the caller's side is from that side, and what follows is not. -/
lemma Runs.leftAt_run (h : Runs r (runs ++ run :: after)) (hr : KeepsLeft move r) (hx : x ∈ run)
    (hleft : leftAt move x = true) :
    (∀ y ∈ run, leftAt move y = true) ∧ ∀ z ∈ after.flatten.head?, leftAt move z = false := by
  have hall : ∀ y ∈ run, leftAt move y = true := by
    refine (hr.forall_leftAt (h.inside run (by simp))).resolve_right fun hnone => ?_
    rw [hnone x hx] at hleft
    cases hleft
  refine ⟨hall, fun z hz => ?_⟩
  cases after with
  | nil => simp at hz
  | cons next after =>
    have hne : next ≠ [] := fun hnil => h.ne_nil (by simp [hnil])
    rw [flatten_cons, head?_append_of_ne_nil _ hne] at hz
    have hbetween := (isChain_append_cons_cons.1 h.between).2.1
    have hrun : run ≠ [] := ne_nil_of_mem hx
    have hlast := hbetween (run.getLast hrun) (getLast?_eq_some_getLast hrun ▸ rfl) z hz
    by_contra hz'
    exact hlast ((hr _ z (.inr (by simpa using hz'))).2
      ⟨hall _ (getLast_mem hrun), by simpa using hz'⟩)

/-- The answers that lead behind a call are those at the head of what follows its run. -/
lemma Runs.lead_eq {front back : List α} (h : Runs r (runs ++ (front ++ x :: back) :: after))
    (hr : KeepsLeft move r) (hleft : leftAt move x = true) : lead move (back ++ after.flatten) =
      (after.flatten.takeWhile (answersAt move)).filterMap (answerAt move) := by
  obtain ⟨hall, hafter⟩ := h.leftAt_run hr (by simp : x ∈ front ++ x :: back) hleft
  have hlead := @lead_append _ _ move back [] after.flatten (fun a ha => hall a (by simp [ha]))
    (by simpa using hafter) (by simp)
  simpa using hlead

/-- The answers at the head of what follows a run. -/
def answersAhead (move : α → Move κ) (after : List (List α)) : List κ :=
  (after.flatten.takeWhile (answersAt move)).filterMap (answerAt move)

lemma answersAhead_sublist (after : List (List α)) :
    (answersAhead move after).Sublist (after.flatten.filterMap (answerAt move)) :=
  (takeWhile_sublist _).filterMap _

/-- Every call of a run is answered at the head of what follows the run, exactly if the answers are
prompt. -/
lemma Runs.forall_mem_answersAhead_iff (h : Runs r runs) (hr : KeepsLeft move r)
    (hanswered : Answered move runs.flatten) : (∀ before run after, runs = before ++ run :: after →
      ∀ key ∈ run.filterMap (callAt move), key ∈ answersAhead move after) ↔
        Prompt move runs.flatten := by
  rw [← forall_mem_lead_iff hanswered]
  constructor
  · intro hall before x rest key hl hx
    obtain ⟨front, left, back, after, rfl, -, rfl⟩ := flatten_eq_append_cons hl
    rw [h.lead_eq hr (Move.isLeft_of_callKey hx)]
    exact hall front _ after rfl key (mem_filterMap.2 ⟨x, by simp, hx⟩)
  · rintro hall before run after rfl key hmem
    obtain ⟨x, hx, hkey⟩ := mem_filterMap.1 hmem
    obtain ⟨front, back, rfl⟩ := append_of_mem hx
    have hlead := hall (before.flatten ++ front) x (back ++ after.flatten) key (by simp) hkey
    rwa [h.lead_eq hr (Move.isLeft_of_callKey hkey)] at hlead

/-- An answer ahead of a run has its call in front of it. -/
lemma Answered.mem_calls_of_mem_answersAhead {before : List α}
    (hanswered : Answered move (before ++ after.flatten)) (hkey : key ∈ answersAhead move after) :
    key ∈ before.filterMap (callAt move) := by
  obtain ⟨y, hy, hanswer⟩ := mem_filterMap.1 hkey
  obtain ⟨answers, tail, hsplit, hanswers⟩ := exists_append_of_mem_takeWhile hy
  have hlater := hanswered.later (before ++ (answers ++ [y])) tail (by simp [hsplit]) key
    (mem_filterMap.2 ⟨y, by simp, hanswer⟩)
  rw [filterMap_append, mem_append] at hlater
  refine hlater.resolve_right fun hmem => ?_
  obtain ⟨a, ha, hcall⟩ := mem_filterMap.1 hmem
  have hisAnswer : answersAt move a = true := by
    rcases mem_append.1 ha with ha | ha
    · exact hanswers a ha
    · rw [mem_singleton.1 ha]
      exact Move.isAnswer_of_answerKey hanswer
  have hleft : leftAt move a = true := Move.isLeft_of_callKey hcall
  rw [leftAt, Move.isLeft_of_isAnswer hisAnswer] at hleft
  cases hleft

/-- The answers ahead do not reach behind the next run of the caller's side. -/
lemma answersAhead_subset_of_left {mid : List (List α)} (hrun : run ≠ [])
    (hleft : ∀ a ∈ run, leftAt move a = true) (hkey : key ∈ answersAhead move (mid ++ run :: after)) :
    key ∈ mid.flatten.filterMap (answerAt move) := by
  obtain ⟨first, others, rfl⟩ := exists_cons_of_ne_nil hrun
  have hstop : ¬ answersAt move first = true := fun hisAnswer => by
    have hno := hleft first mem_cons_self
    rw [leftAt, Move.isLeft_of_isAnswer hisAnswer] at hno
    cases hno
  rw [answersAhead, flatten_append, flatten_cons, cons_append, takeWhile_append] at hkey
  split_ifs at hkey
  · rwa [takeWhile_cons_of_neg hstop, append_nil] at hkey
  · exact ((takeWhile_sublist _).filterMap _).subset hkey

/-- **The answers ahead of a run with calls are exactly its answers**, for every such run, exactly
if the answers are prompt. -/
theorem Runs.forall_perm_answersAhead_iff (h : Runs r runs) (hr : KeepsLeft move r)
    (hanswered : Answered move runs.flatten) :
    (∀ before run after, runs = before ++ run :: after → run.filterMap (callAt move) ≠ [] →
      (answersAhead move after).Perm (run.filterMap (callAt move))) ↔ Prompt move runs.flatten := by
  rw [← h.forall_mem_answersAhead_iff hr hanswered]
  constructor
  · intro hall before run after hruns key hkey
    exact (hall before run after hruns (ne_nil_of_mem hkey)).mem_iff.2 hkey
  · rintro hall before run after rfl hcalls
    have hnodupAnswers := hanswered.nodup_answers
    have hnodupCalls := hanswered.distinct
    rw [flatten_append, flatten_cons] at hnodupAnswers hnodupCalls
    refine (perm_ext_iff_of_nodup ?_ ?_).2 fun key => ⟨fun hkey => ?_, hall _ _ _ rfl key⟩
    · rw [← List.append_assoc, filterMap_append] at hnodupAnswers
      exact (hnodupAnswers.of_append_right).sublist (answersAhead_sublist after)
    · rw [filterMap_append, filterMap_append] at hnodupCalls
      exact (hnodupCalls.of_append_right).of_append_left
    -- An answer to an earlier run would stand in front of this run as well.
    obtain ⟨caller, hcaller⟩ := exists_mem_of_ne_nil _ hcalls
    obtain ⟨x, hx, hcall⟩ := mem_filterMap.1 hcaller
    have hleft := (h.leftAt_run hr hx (Move.isLeft_of_callKey hcall)).1
    have hcalled : key ∈ (before.flatten ++ run).filterMap (callAt move) :=
      Answered.mem_calls_of_mem_answersAhead
        (by simpa using hanswered : Answered move (before.flatten ++ run ++ after.flatten)) hkey
    rw [filterMap_append, mem_append] at hcalled
    refine hcalled.resolve_left fun hbefore => ?_
    obtain ⟨earlier, hearlier, hcall'⟩ := mem_filterMap.1 hbefore
    obtain ⟨left, right, hbetween⟩ := append_of_mem hearlier
    obtain ⟨front, left', back, mid, rfl, -, -⟩ := flatten_eq_append_cons hbetween
    have hmid := answersAhead_subset_of_left (ne_nil_of_mem hx) hleft
      (hall front (left' ++ earlier :: back) (mid ++ run :: after) (by simp) key
        (mem_filterMap.2 ⟨earlier, by simp, hcall'⟩))
    rw [← List.append_assoc, filterMap_append, nodup_append] at hnodupAnswers
    refine hnodupAnswers.2.2 key ?_ key ((answersAhead_sublist after).subset hkey) rfl
    simp only [flatten_append, flatten_cons, filterMap_append, mem_append]
    exact .inl (.inr (.inr hmid))

end

end

end TokenCode
