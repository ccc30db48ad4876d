/-
The outcome of a code-mode cell.

A cell has one terminal outcome, its writes are merged just in case it completes, and one caller of
`terminate` at most receives the terminal event (`one_outcome`). Its output is observed once and in
order (`output_observed_once`). Both follow from the stages of the cell and from what the callers of
`terminate` are told.
-/
import TokenCode.CodeMode.Stages

namespace TokenCode.CodeMode

open List CellState

variable {Item Value : Type}

/-! ### The callers of `terminate` -/

/-- The terminal events that callers of `terminate` have received. -/
def terminatorTerminals (handed : Handed Item) : List (CellEvent Item) :=
  handed.filterMap fun delivery =>
    match delivery.1 with
    | .terminator _ => terminalOf delivery.2
    | .observer _ => none

lemma terminatorTerminals_append (handed new : Handed Item) :
    terminatorTerminals (handed ++ new) = terminatorTerminals handed ++ terminatorTerminals new :=
  filterMap_append

/-- Callers of `terminate` are among those who receive. -/
lemma terminatorTerminals_eq_nil {handed : Handed Item} (h : terminals handed = []) :
    terminatorTerminals handed = [] := by
  rw [terminals, filterMap_eq_nil_iff] at h
  refine filterMap_eq_nil_iff.2 fun delivery hdelivery => ?_
  split
  · exact h delivery hdelivery
  · rfl

/-- Callers of `terminate` get terminal events, one of them at most, or errors. Whoever has called
has an answer, is waited for, or is gone. -/
structure Answers (terminators : ℕ) (cell : CellState Item) : Prop where
  once : (terminatorTerminals cell.channels.handed).length ≤ 1
  terminal : ∀ id event, (.terminator id, .ok event) ∈ cell.channels.handed →
    event.isTerminal = true
  answered : ∀ id < terminators, (∃ response, (.terminator id, response) ∈ cell.channels.handed) ∨
    cell.phase = .terminating id ∨ .terminator id ∈ cell.channels.dropped

/-- Nothing that concerns the callers of `terminate` happens. -/
structure Quiet (before after : CellState Item) : Prop where
  dropped : before.channels.dropped ⊆ after.channels.dropped
  handed : ∃ new, after.channels.handed = before.channels.handed ++ new ∧
    ∀ delivery ∈ new, ∃ id, delivery.1 = .observer id
  waiting : ∀ id, before.phase = .terminating id → after.phase = .terminating id

variable {terminators : ℕ}

lemma Answers.of_quiet {before after : CellState Item}
    (h : Answers terminators before) (hquiet : Quiet before after) : Answers terminators after := by
  obtain ⟨new, hhanded, hnew⟩ := hquiet.handed
  have hnone : terminatorTerminals new = [] :=
    filterMap_eq_nil_iff.2 fun delivery hdelivery => by
      obtain ⟨id, hid⟩ := hnew delivery hdelivery
      rw [hid]
  constructor
  case once =>
    rw [hhanded, terminatorTerminals_append, hnone, append_nil]
    exact h.once
  case terminal =>
    intro id event hmem
    rw [hhanded, mem_append] at hmem
    rcases hmem with hold | hmem
    · exact h.terminal id event hold
    · obtain ⟨other, hother⟩ := hnew _ hmem
      cases hother
  case answered =>
    intro id hid
    rcases h.answered id hid with ⟨response, hmem⟩ | hwaiting | hgone
    · exact .inl ⟨response, hhanded ▸ mem_append_left _ hmem⟩
    · exact .inr (.inl (hquiet.waiting id hwaiting))
    · exact .inr (.inr (hquiet.dropped hgone))

variable {cell : CellState Item}

/-- A caller is told something. -/
lemma Answers.reply (h : Answers terminators cell)
    {id : ℕ} {response : Response Item} (hresponse : ∀ event, response = .ok event →
      event.isTerminal = true ∧ terminals cell.channels.handed = [])
    (phase : CellPhase Item) (cancelled : Bool)
    (hphase : ∀ other, cell.phase = .terminating other → other = id ∨ phase = .terminating other) :
    Answers terminators ⟨phase, cancelled, cell.channels.reply (.terminator id) response⟩ := by
  constructor
  case once =>
    change (terminatorTerminals (_ ++ _)).length ≤ 1
    rw [terminatorTerminals_append]
    cases response with
    | error error => exact (append_nil _).symm ▸ h.once
    | ok event =>
      obtain ⟨hterminal, hnone⟩ := hresponse event rfl
      rw [terminatorTerminals_eq_nil hnone]
      simp [terminatorTerminals, terminalOf, hterminal]
  case terminal =>
    intro other event hmem
    rcases mem_append.1 hmem with hold | hnew
    · exact h.terminal other event hold
    · obtain ⟨-, hevent⟩ := Prod.mk.inj (mem_singleton.1 hnew)
      exact (hresponse event hevent.symm).1
  case answered =>
    intro other hother
    rcases h.answered other hother with ⟨answer, hmem⟩ | hwaiting | hgone
    · exact .inl ⟨answer, mem_append_left _ hmem⟩
    · rcases hphase other hwaiting with rfl | hsame
      · exact .inl ⟨response, mem_append_right _ (mem_singleton_self _)⟩
      · exact .inr (.inl hsame)
    · exact .inr (.inr hgone)

/-- Another caller comes and has its answer, or is waited for. -/
lemma Answers.succ (h : Answers terminators cell)
    (hnew : (∃ response, (.terminator terminators, response) ∈ cell.channels.handed) ∨
      cell.phase = .terminating terminators) : Answers (terminators + 1) cell := by
  refine ⟨h.once, h.terminal, fun id hid => ?_⟩
  rcases Nat.lt_succ_iff_lt_or_eq.1 hid with hlt | rfl
  · exact h.answered id hlt
  · rcases hnew with hanswer | hwaiting
    · exact .inl hanswer
    · exact .inr (.inl hwaiting)

/-! ### Quiet steps -/

lemma Quiet.refl (cell : CellState Item) : Quiet cell cell :=
  ⟨fun _ h => h, ⟨[], by simp, by simp⟩, fun _ h => h⟩

lemma Quiet.trans {a b c : CellState Item} (h : Quiet a b) (h' : Quiet b c) : Quiet a c := by
  obtain ⟨first, hfirst, hobservers⟩ := h.handed
  obtain ⟨second, hsecond, hobservers'⟩ := h'.handed
  refine ⟨fun _ hmem => h'.dropped (h.dropped hmem), ⟨first ++ second, ?_, ?_⟩, fun id hid =>
    h'.waiting id (h.waiting id hid)⟩
  · rw [hsecond, hfirst, List.append_assoc]
  · exact fun delivery hdelivery => (mem_append.1 hdelivery).elim (hobservers delivery)
      (hobservers' delivery)

variable (responseTx : ℕ) (response : Response Item)

/-- An observer is told something, and the phase is not one that waits. -/
lemma quiet_reply {phase : CellPhase Item}
    {cancelled : Bool} (hphase : ∀ id, cell.phase = .terminating id → phase = .terminating id) :
    Quiet cell ⟨phase, cancelled, cell.channels.reply (.observer responseTx) response⟩ :=
  ⟨fun _ h => h, ⟨[(.observer responseTx, response)], rfl, by simp⟩, hphase⟩

lemma quiet_send :
    Quiet cell { cell with channels := (cell.channels.send (.observer responseTx) response).2 } := by
  rcases cell.channels.send_eq (.observer responseTx) response with hsend | ⟨hsend, -⟩
  · rw [hsend]
    exact quiet_reply responseTx response fun _ h => h
  · rw [hsend]
    exact Quiet.refl cell

lemma quiet_commitCompletion (event : CellEvent Item) (items : Option (List Item)) :
    Quiet cell (cell.commitCompletion event items).2 := by
  unfold commitCompletion
  split
  · next hphase =>
    split_ifs
    · exact Quiet.refl cell
    · exact ⟨fun _ h => h, ⟨[], by simp, by simp⟩, fun id h => by cases hphase.symm.trans h⟩
  · exact Quiet.refl cell

lemma quiet_deliverCompletion (responseTx : Option ℕ) :
    Quiet cell (cell.deliverCompletion responseTx).2 := by
  unfold deliverCompletion
  split
  · next pending event hphase =>
    cases responseTx with
    | none => exact Quiet.refl cell
    | some responseTx =>
      dsimp only
      rcases cell.channels.send_eq (.observer responseTx) (.ok event) with hsend | ⟨hsend, -⟩
      · rw [hsend]
        exact quiet_reply responseTx _ fun id h => by cases hphase.symm.trans h
      · rw [hsend]
        exact Quiet.refl cell
  · exact Quiet.refl cell

lemma quiet_observeCompleted (items : Option (List Item)) (event : CellEvent Item) (responseTx : ℕ)
    (hphase : ∀ id, cell.phase ≠ .terminating id) :
    Quiet cell (cell.observeCompleted items event responseTx).2 := by
  unfold observeCompleted
  rcases cell.channels.send_eq (.observer responseTx) (.ok (event.prependInitialYield items)) with
    hsend | ⟨hsend, -⟩
  · rw [hsend]
    exact quiet_reply responseTx _ fun id h => absurd h (hphase id)
  · rw [hsend]
    exact Quiet.refl cell

variable (mode : ObserveMode)

lemma quiet_routeObservation :
    Quiet cell (cell.routeObservation mode responseTx).2 := by
  unfold routeObservation
  split
  · exact Quiet.refl cell
  · next items event hphase =>
    cases mode with
    | yieldAfter duration =>
      rcases cell.channels.send_eq (.observer responseTx) (.ok (.yielded items)) with
        hsend | ⟨hsend, -⟩
      · rw [hsend]
        exact quiet_reply responseTx _ fun id h => by cases hphase.symm.trans h
      · rw [hsend]
        exact Quiet.refl cell
    | pendingFrontier =>
      exact quiet_observeCompleted _ _ _ fun id h => by cases hphase.symm.trans h
  · next event hphase =>
    exact quiet_observeCompleted _ _ _ fun id h => by cases hphase.symm.trans h
  all_goals exact quiet_send responseTx _

variable (writes : StoredValueWrites Value) (errorText : Option Text)

namespace System

variable {system middle next : System Item Value}

/-- A step that does not concern the callers of `terminate`. -/
structure QuietStep (system next : System Item Value) : Prop where
  cell : Quiet system.cell next.cell
  terminators : next.terminators = system.terminators

lemma QuietStep.refl (system : System Item Value) : QuietStep system system := ⟨Quiet.refl _, rfl⟩

lemma QuietStep.trans (h : QuietStep system middle) (h' : QuietStep middle next) :
    QuietStep system next :=
  ⟨h.cell.trans h'.cell, h'.terminators.trans h.terminators⟩

lemma quietStep_setActor (system : System Item Value) (actor : Actor Item) :
    QuietStep system (system.setActor actor) := ⟨Quiet.refl _, rfl⟩

lemma quietStep_offerPending : QuietStep system (system.offerPending responseTx) := by
  have hsend := @quiet_send _ system.cell responseTx
    (.ok (.pending system.actor.contentItems system.actor.pendingToolCallIds))
  unfold offerPending
  split
  all_goals
    next heq =>
    rw [heq] at hsend
    exact ⟨hsend, rfl⟩

lemma quietStep_offerYield : QuietStep system system.offerYield := by
  unfold offerYield
  split
  · exact quietStep_setActor system _
  · next observer _ =>
    have hsend := @quiet_send _ system.cell observer.responseTx
      (.ok (.yielded system.actor.contentItems))
    split
    all_goals
      next heq =>
      rw [heq] at hsend
      exact ⟨hsend, rfl⟩

lemma quietStep_startObservation : QuietStep system (system.startObservation mode responseTx) := by
  unfold startObservation
  dsimp only
  split_ifs
  · exact ⟨quiet_send responseTx _, rfl⟩
  · exact (quietStep_setActor system _).trans (quietStep_offerPending responseTx)
  all_goals exact quietStep_setActor system _

lemma quietStep_onRuntimeEnd : QuietStep system (system.onRuntimeEnd writes errorText) := by
  unfold onRuntimeEnd
  split_ifs
  all_goals exact ⟨Quiet.refl _, rfl⟩

lemma quietStep_onEvent (event : RuntimeEvent Item Value) :
    QuietStep system (system.onEvent event) := by
  cases event with
  | pending =>
    dsimp only [onEvent]
    split
    · exact (quietStep_setActor system _).trans (quietStep_offerPending _)
    · exact quietStep_setActor system _
  | yieldRequested =>
    dsimp only [onEvent]
    split_ifs
    · exact quietStep_offerYield
    · exact QuietStep.refl system
  | result writes errorText =>
    exact (quietStep_setActor system _).trans (quietStep_onRuntimeEnd writes errorText)
  | _ => exact ⟨Quiet.refl _, rfl⟩

lemma quietStep_route : QuietStep system (system.route mode responseTx) := by
  have hroute := @quiet_routeObservation _ system.cell responseTx mode
  unfold route
  split
  · next running after heq =>
    rw [heq] at hroute
    have hfirst : QuietStep system { system with cell := after, control := .select } := ⟨hroute, rfl⟩
    exact hfirst.trans (quietStep_startObservation running mode)
  all_goals
    next heq =>
    rw [heq] at hroute
    exact ⟨hroute, rfl⟩

lemma quietStep_complete : QuietStep system (system.complete writes errorText) := by
  have hcommit : Quiet system.cell (hostCommitCompletion system.cell
      (.completed system.actor.contentItems errorText)).2 := by
    unfold hostCommitCompletion
    split_ifs
    · exact Quiet.refl _
    · exact quiet_commitCompletion _ _
  unfold complete
  split
  all_goals
    next heq =>
    rw [heq] at hcommit
    exact ⟨hcommit, rfl⟩

lemma quietStep_deliver (rejected : Option (CellEvent Item)) :
    QuietStep system (system.deliver rejected) := by
  have hdeliver := @quiet_deliverCompletion _ system.cell
    (system.actor.observer.map Observer.responseTx)
  unfold deliver
  split
  all_goals
    next heq =>
      rw [heq] at hdeliver
      exact ⟨hdeliver, rfl⟩

/-- What holds of a phase that has a completion, or in which a caller is waited for. -/
lemma terminals_of_phase (h : Stage system.view) :
    (∀ items event, system.cell.phase = .completed items event →
      terminals system.cell.channels.handed = [] ∧
        (event.prependInitialYield items).isTerminal = true) ∧
    ∀ id, system.cell.phase = .terminating id → terminals system.cell.channels.handed = [] := by
  have hopened : system.cell.phase.isOpen = true → terminals system.cell.channels.handed = [] →
      (∀ items event, system.cell.phase = .completed items event →
        terminals system.cell.channels.handed = [] ∧
          (event.prependInitialYield items).isTerminal = true) ∧
      ∀ id, system.cell.phase = .terminating id → terminals system.cell.channels.handed = [] :=
    fun hopen hterminals => ⟨fun items event hphase => by simp [hphase, CellPhase.isOpen] at hopen,
      fun _ _ => hterminals⟩
  cases h with
  | active h | stopping h => exact hopened h.phase h.terminals
  | committed h =>
    obtain ⟨event, hphase, -, hfits, -⟩ := h.phase
    have hcompleted : system.cell.phase = .completed none event := hphase
    refine ⟨fun items other hother => ⟨h.terminals, ?_⟩, fun id hid => ?_⟩
    · obtain ⟨rfl, rfl⟩ := CellPhase.completed.inj (hother.symm.trans hcompleted)
      exact hfits.1
    · cases hid.symm.trans hcompleted
  | claimed h =>
    obtain ⟨event, hphase, -⟩ := h.phase
    have hclaimed : system.cell.phase = .completionClaimed event := hphase
    exact ⟨fun items other hother => (nomatch hother.symm.trans hclaimed),
      fun id hid => (nomatch hid.symm.trans hclaimed)⟩
  | handing h | done h =>
    have hburied : system.cell.phase = .tombstone := h.phase
    exact ⟨fun items other hother => (nomatch hother.symm.trans hburied),
      fun id hid => (nomatch hid.symm.trans hburied)⟩

section

variable (h : Answers system.terminators system.cell)
include h

variable (hstage : Stage system.view)
include hstage

lemma answers_terminate : Answers system.terminate.terminators system.terminate.cell := by
  have hreply : ∀ error, system.cell.requestTermination system.terminators = { system.cell with
      channels := system.cell.channels.reply (.terminator system.terminators) (.error error) } →
      Answers (system.terminators + 1) (system.cell.requestTermination system.terminators) :=
    fun error hrequest => by
      rw [hrequest]
      refine (h.reply ?_ _ _ fun _ hid => .inr hid).succ
        (.inl ⟨_, mem_append_right _ (mem_singleton_self _)⟩)
      exact fun _ hok => nomatch hok
  change Answers (system.terminators + 1) (system.cell.requestTermination system.terminators)
  cases hphase : system.cell.phase with
  | running =>
    have hrequest : system.cell.requestTermination system.terminators =
        ⟨.terminating system.terminators, true, system.cell.channels⟩ := by
      simp [requestTermination, hphase]
    rw [hrequest]
    refine Answers.succ ⟨h.once, h.terminal, fun id hid => ?_⟩ (.inr rfl)
    rcases h.answered id hid with hanswer | hwaiting | hgone
    · exact .inl hanswer
    · cases hphase.symm.trans hwaiting
    · exact .inr (.inr hgone)
  | terminating _ => exact hreply .alreadyTerminating (by simp [requestTermination, hphase])
  | completed items event =>
    obtain ⟨hterminals, hterminal⟩ := (terminals_of_phase hstage).1 items event hphase
    have hrequest : system.cell.requestTermination system.terminators =
        ⟨.completionClaimed (event.prependInitialYield items), true, system.cell.channels.reply
          (.terminator system.terminators) (.ok (event.prependInitialYield items))⟩ := by
      simp [requestTermination, hphase]
    rw [hrequest]
    refine (h.reply (fun other hother => ?_) _ _ fun id hid => ?_).succ
      (.inl ⟨_, mem_append_right _ (mem_singleton_self _)⟩)
    · obtain rfl := Except.ok.inj hother
      exact ⟨hterminal, hterminals⟩
    · cases hphase.symm.trans hid
  | completionClaimed _ =>
    exact hreply .alreadyTerminating (by simp [requestTermination, hphase])
  | tombstone => exact hreply .closed (by simp [requestTermination, hphase])

lemma answers_finish (observerTx : Option ℕ) (items : List Item) :
    Answers (system.finish observerTx items).terminators (system.finish observerTx items).cell := by
  have hcell : (system.finish observerTx items).cell =
      (system.cell.finishTermination (.terminated items)).2 ∧
        (system.finish observerTx items).terminators = system.terminators := by
    unfold finish
    generalize system.cell.finishTermination (.terminated items) = finished
    obtain ⟨event, cell⟩ := finished
    cases event <;> cases observerTx <;> exact ⟨rfl, rfl⟩
  have hother : (∀ id, system.cell.phase ≠ .terminating id) →
      Answers system.terminators ⟨.tombstone, true, system.cell.channels⟩ := fun hphase =>
    h.of_quiet ⟨fun _ hmem => hmem, ⟨[], by simp, by simp⟩, fun id hid => absurd hid (hphase id)⟩
  rw [hcell.1, hcell.2]
  cases hphase : system.cell.phase with
  | terminating waiting =>
    have hterminals := (terminals_of_phase hstage).2 waiting hphase
    have hfinish : (system.cell.finishTermination (.terminated items)).2 = ⟨.tombstone, true,
        (system.cell.channels.send (.terminator waiting) (.ok (.terminated items))).2⟩ := by
      rw [finishTermination, hphase]
    rw [hfinish]
    rcases system.cell.channels.send_eq (.terminator waiting) (.ok (.terminated items)) with
      hsend | ⟨hsend, hgone⟩
    · rw [hsend]
      refine h.reply (fun event hevent => ?_) _ _ fun id hid => ?_
      · obtain rfl := Except.ok.inj hevent
        exact ⟨rfl, hterminals⟩
      · exact .inl (CellPhase.terminating.inj (hid.symm.trans hphase))
    · rw [hsend]
      refine ⟨h.once, h.terminal, fun id hid => ?_⟩
      rcases h.answered id hid with hanswer | hwaiting | hdropped
      · exact .inl hanswer
      · obtain rfl := CellPhase.terminating.inj (hwaiting.symm.trans hphase)
        exact .inr (.inr hgone)
      · exact .inr (.inr hdropped)
  | _ =>
    rw [finishTermination, hphase]
    refine hother fun id hid => ?_
    rw [hphase] at hid
    cases hid

omit hstage in
lemma answers_quietStep (hquiet : QuietStep system next) : Answers next.terminators next.cell := by
  rw [hquiet.terminators]
  exact h.of_quiet hquiet.cell

lemma answers_step (hstep : Step system next) : Answers next.terminators next.cell := by
  cases hstep with
  | terminate => exact answers_terminate h hstage
  | beginObserve mode =>
    unfold beginObserve
    dsimp only
    split_ifs
    · exact h
    · exact h.of_quiet (quiet_reply _ _ fun _ hid => hid)
  | sendObserve before after mode responseTx _ =>
    unfold sendObserve
    split_ifs
    · exact h
    · exact h.of_quiet (quiet_reply _ _ fun _ hid => hid)
  | shutdown => exact h.of_quiet ⟨fun _ hmem => hmem, ⟨[], by simp, by simp⟩, fun _ hid => hid⟩
  | drop receiver =>
    exact h.of_quiet ⟨fun _ hmem => mem_cons_of_mem _ hmem,
      ⟨[], (append_nil _).symm, by simp⟩, fun _ hid => hid⟩
  | emit event _ _ | exit => exact h
  | cancelled _ _ _ =>
    unfold onCancelled
    dsimp only
    split_ifs
    · exact h
    · exact h
  | command mode responseTx rest _ _ _ =>
    unfold onCommand
    split_ifs
    · exact h
    · exact h
  | route mode responseTx _ => exact answers_quietStep h (quietStep_route responseTx mode)
  | noCommands _ _ _ =>
    exact h.of_quiet ⟨fun _ hmem => hmem, ⟨[], by simp, by simp⟩, fun _ hid => hid⟩
  | timer _ _ => exact answers_quietStep h quietStep_offerYield
  | event event rest _ _ _ =>
    have hshorter : QuietStep system { system with events := rest } := ⟨Quiet.refl _, rfl⟩
    exact answers_quietStep h (hshorter.trans (quietStep_onEvent event))
  | exited _ _ _ _ => exact answers_quietStep h (quietStep_onRuntimeEnd _ _)
  | complete writes errorText _ => exact answers_quietStep h (quietStep_complete writes errorText)
  | deliver rejectedEvent _ => exact answers_quietStep h (quietStep_deliver rejectedEvent)
  | finish observerTx contentItems _ => exact answers_finish h hstage observerTx contentItems
  | hand observerTx event _ => exact h.of_quiet (quiet_send observerTx _)
  | close hcontrol =>
    have hphase : system.cell.phase = .tombstone := (hstage.of_closing hcontrol).phase
    exact h.of_quiet ⟨fun _ hmem => hmem, ⟨[], (append_nil _).symm, by simp⟩,
      fun id hid => nomatch hphase.symm.trans hid⟩

end

lemma Reachable.answers (h : Reachable system) : Answers system.terminators system.cell := by
  induction h with
  | start mode => exact ⟨Nat.zero_le _, nofun, nofun⟩
  | step hreachable hstep ih => exact answers_step ih hreachable.stage hstep

/-! ### The outcome -/

/-- Every terminal event that was handed over is the same and fits what was merged. -/
lemma outcome_of_stage (h : Stage system.view) :
    ∃ event, ∀ other ∈ terminals system.cell.channels.handed,
      other = event ∧ Fits system.view other := by
  have hnone : terminals system.cell.channels.handed = [] →
      ∃ event, ∀ other ∈ terminals system.cell.channels.handed,
        other = event ∧ Fits system.view other := fun hterminals =>
    ⟨.terminated [], by simp [hterminals]⟩
  cases h with
  | active h | stopping h | committed h => exact hnone h.terminals
  | claimed h =>
    obtain ⟨event, -, hfits, hall⟩ := h.phase
    refine ⟨event, fun other hother => ?_⟩
    obtain rfl := hall other hother
    exact ⟨rfl, hfits⟩
  | handing h =>
    obtain ⟨-, event, -, hfits, hall, -⟩ := h.control
    refine ⟨event, fun other hother => ?_⟩
    obtain rfl := hall other hother
    exact ⟨rfl, hfits⟩
  | done h => exact h.outcome

/-- **While the runtime lives** nothing is merged and no output is lost. -/
theorem emitted_eq (h : Reachable system) (hloop : system.control.inLoop = true)
    (hopen : system.actor.runtimeClosed = false) : system.merged = [] ∧ system.emitted =
      observed system.cell.channels.handed ++ system.actor.contentItems ++ itemsOf system.events := by
  have hactive := h.stage.active_of_inLoop hloop hopen
  exact ⟨hactive.merged, hactive.items⟩

/-- A run in which one item was handed to the observer, one is held and one not yet received. -/
lemma exists_yielded : ∃ system : System ℕ ℕ, Reachable system ∧ system.control = .select ∧
    system.actor.runtimeClosed = false ∧
    system.cell.channels.handed = [(.observer 0, .ok (.yielded [7]))] ∧
    system.actor.contentItems = [8] ∧ system.events = [.contentItem 9] := by
  have h : Reachable (start (.yieldAfter 0) : System ℕ ℕ) := .start _
  have h := h.step (.emit _ (.contentItem 7) rfl nofun)
  have h := h.step (.emit _ .yieldRequested rfl nofun)
  have h := h.step (.emit _ (.contentItem 8) rfl nofun)
  have h := h.step (.event _ _ _ rfl rfl rfl)
  have h := h.step (.event _ _ _ rfl rfl rfl)
  have h := h.step (.event _ _ _ rfl rfl rfl)
  have h := h.step (.emit _ (.contentItem 9) rfl nofun)
  exact ⟨_, h, rfl, rfl, rfl, rfl, rfl⟩

theorem emitted_eq_yielded : ∃ system : System ℕ ℕ, Reachable system ∧
    observed system.cell.channels.handed = [7] ∧ system.actor.contentItems = [8] ∧
    itemsOf system.events = [9] ∧ system.merged = [] ∧ system.emitted = [7, 8, 9] := by
  obtain ⟨system, h, hcontrol, hopen, hhanded, hitems, hevents⟩ := exists_yielded
  obtain ⟨hmerged, hemitted⟩ := emitted_eq h (by rw [hcontrol]; rfl) hopen
  rw [hhanded, hitems, hevents] at hemitted
  exact ⟨system, h, by rw [hhanded]; rfl, hitems, by rw [hevents]; rfl, hmerged, hemitted⟩

/-- A run: the runtime emits an item and completes, and between the commit and the delivery the cell
is terminated. The caller and the first observer get the completion. -/
lemma exists_claimed : ∃ system : System ℕ ℕ, Reachable system ∧
    system.cell.channels.handed = [(.terminator 0, .ok (.completed [7] none)),
      (.observer 0, .ok (.completed [7] none))] ∧
    system.emitted = [7] ∧ system.runtime.result = some ∅ := by
  have h : Reachable (start (.yieldAfter 0) : System ℕ ℕ) := .start _
  have h := h.step (.emit _ (.contentItem 7) rfl nofun)
  have h := h.step (.emit _ (.result ∅ none) rfl nofun)
  have h := h.step (.event _ _ _ rfl rfl rfl)
  have h := h.step (.event _ _ _ rfl rfl rfl)
  have h := h.step (.complete _ _ _ rfl)
  have h := h.step (.terminate _)
  have h := h.step (.deliver _ _ rfl)
  have h := h.step (.finish _ _ _ rfl)
  have h := h.step (.hand _ _ _ rfl)
  exact ⟨_, h, rfl, rfl, rfl⟩

/-- **A cell has one terminal outcome and commits with it.**  All terminal events are of one kind; if
the cell has completed its writes have been merged once, and if it was terminated never; and of the
callers of `terminate` one at most receives a terminal event, while everyone else gets an error
unless they are waited for or gone. -/
theorem one_outcome (h : Reachable system) :
    (∀ a ∈ terminals system.cell.channels.handed, ∀ b ∈ terminals system.cell.channels.handed,
      a.isCompleted = b.isCompleted) ∧ (∀ event ∈ terminals system.cell.channels.handed,
      system.merged = if event.isCompleted then [system.runtime.result.getD ∅] else []) ∧
    (terminatorTerminals system.cell.channels.handed).length ≤ 1 ∧ ∀ id < system.terminators,
      (∃ event, (.terminator id, .ok event) ∈ system.cell.channels.handed ∧
        event.isTerminal = true) ∨
      (∃ error, (.terminator id, .error error) ∈ system.cell.channels.handed) ∨
      system.cell.phase = .terminating id ∨ .terminator id ∈ system.cell.channels.dropped := by
  obtain ⟨event, hall⟩ := outcome_of_stage h.stage
  have hanswers := h.answers
  refine ⟨fun a ha b hb => ?_, fun other hother => (hall other hother).2.2, hanswers.once,
    fun id hid => ?_⟩
  · rw [(hall a ha).1, (hall b hb).1]
  · rcases hanswers.answered id hid with ⟨error | event, hmem⟩ | hwaiting
    · exact .inr (.inl ⟨error, hmem⟩)
    · exact .inl ⟨event, hmem, hanswers.terminal id event hmem⟩
    · exact .inr (.inr hwaiting)

theorem one_outcome_claimed : ∃ system : System ℕ ℕ, Reachable system ∧
    (terminals system.cell.channels.handed).length = 2 ∧
    (terminatorTerminals system.cell.channels.handed).length ≤ 1 ∧ system.merged = [∅] := by
  obtain ⟨system, h, hhanded, -, hresult⟩ := exists_claimed
  obtain ⟨-, hmerged, honce, -⟩ := one_outcome h
  refine ⟨system, h, by rw [hhanded]; rfl, honce, ?_⟩
  have hterminal : (.completed [7] none : CellEvent ℕ) ∈ terminals system.cell.channels.handed := by
    rw [hhanded]
    exact mem_cons_self
  rw [hmerged _ hterminal, hresult]
  rfl

/-- **Cell output is observed once and in order.**  What was handed over is the beginning of what the
runtime has emitted, and all of it once a terminal event was handed over; then the runtime has
ended. -/
theorem output_observed_once (h : Reachable system) :
    observed system.cell.channels.handed <+: system.emitted ∧
    (terminals system.cell.channels.handed ≠ [] →
      observed system.cell.channels.handed = system.emitted ∧ system.runtime.ended = true) := by
  have hstage := h.stage
  cases hstage with
  | active h =>
    exact ⟨⟨_, (h.items.trans (List.append_assoc _ _ _)).symm⟩, fun hne => absurd h.terminals hne⟩
  | stopping h =>
    obtain ⟨items, -, hitems⟩ := h.items
    exact ⟨⟨items, hitems.symm⟩, fun hne => absurd h.terminals hne⟩
  | committed h =>
    obtain ⟨event, -, -, -, hitems⟩ := h.phase
    exact ⟨⟨_, hitems.symm⟩, fun hne => absurd h.terminals hne⟩
  | claimed h =>
    have hitems : system.emitted = observed system.cell.channels.handed := h.items
    exact ⟨hitems ▸ prefix_refl _, fun _ => ⟨hitems.symm, h.ended⟩⟩
  | handing h =>
    obtain ⟨-, event, -, hfits, -, hemitted⟩ := h.control
    have hitems : system.emitted = observed system.cell.channels.handed ++
        outputOf (!(terminals system.cell.channels.handed).isEmpty) (.ok event) := hemitted
    refine ⟨⟨_, hitems.symm⟩, fun hne => ⟨?_, h.ended⟩⟩
    simp [hitems, outputOf, hfits.1, hne]
  | done h => exact ⟨h.items, fun hne => ⟨(h.all hne).symm, h.ended⟩⟩

theorem output_observed_once_claimed : ∃ system : System ℕ ℕ, Reachable system ∧
    (terminals system.cell.channels.handed).length = 2 ∧
    observed system.cell.channels.handed = [7] := by
  obtain ⟨system, h, hhanded, hemitted, -⟩ := exists_claimed
  have hterminals : terminals system.cell.channels.handed =
      [.completed [7] none, .completed [7] none] := by
    rw [hhanded]
    rfl
  refine ⟨system, h, by rw [hterminals]; rfl, ?_⟩
  rw [((output_observed_once h).2 (by rw [hterminals]; simp)).1, hemitted]

end System

end TokenCode.CodeMode
