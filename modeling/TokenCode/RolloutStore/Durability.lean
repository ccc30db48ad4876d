/-
What an acknowledged rollout file holds.

As long as no write has left a part of a line and no flush has failed behind a line, the file is
what it was at the beginning, followed by the lines of the items that the writer has done (`Holds`).
So when a barrier is acknowledged, loading the file returns what was there earlier and every item
once and in order (`load_after_ack`), unless the file began with an unfinished line or has not been
created. Otherwise acknowledged items are lost (`torn_write_loses_item`) or doubled.
-/
import TokenCode.RolloutStore.Writer

namespace TokenCode.RolloutStore

open List Text Recorder

variable {Item : Type}

/-! ### The file -/

/-- The lines, each ended by a newline. -/
def terminated (lines : List Bytes) : Bytes := lines.flatMap (· ++ [newline])

def IsLine (format : LineFormat Item) (line : Bytes) (item : Item) : Prop :=
  ∃ time, line = format.encode time item

/-- The file is `old`, followed by lines of these items. -/
def Holds (format : LineFormat Item) (old : Bytes) (done : List Item) (disk : Disk) : Prop :=
  ∃ lines, List.Forall₂ (IsLine format) lines done ∧ disk.file.getD [] = old ++ terminated lines

/-- Nothing was torn, and no flush has failed behind a line. -/
def Disk.Clean (disk : Disk) : Prop := disk.torn = false ∧ disk.repeated = false

variable {format : LineFormat Item} {old : Bytes} {done : List Item} {disk : Disk} {item : Item}

lemma Holds.of_file_eq {next : Disk} (h : Holds format old done disk)
    (hfile : next.file.getD [] = disk.file.getD []) : Holds format old done next := by
  obtain ⟨lines, hlines, hdisk⟩ := h
  exact ⟨lines, hlines, hfile.trans hdisk⟩

lemma Holds.concat {next : Disk} (h : Holds format old done disk) {time : ℕ}
    (hfile : next.file.getD [] = disk.file.getD [] ++ (format.encode time item ++ [newline])) :
    Holds format old (done ++ [item]) next := by
  obtain ⟨lines, hlines, hdisk⟩ := h
  refine ⟨lines ++ [format.encode time item], rel_append hlines (.cons ⟨time, rfl⟩ .nil), ?_⟩
  rw [hfile, hdisk]
  simp [terminated]

/-- After a write there is a file. -/
lemma isSome_writeLine (format : LineFormat Item) (disk : Disk) (item : Item) :
    (disk.writeLine format item).2.file.isSome = true := by
  unfold Disk.writeLine Disk.writeAll
  dsimp only
  cases disk.nextFate with
  | fail count => rfl
  | ok =>
    dsimp only
    split
    all_goals rfl

lemma clean_of_writeLine (format : LineFormat Item) (disk : Disk) (item : Item)
    (h : (disk.writeLine format item).2.Clean) : disk.Clean := by
  unfold Disk.writeLine Disk.writeAll at h
  dsimp only at h
  cases hfate : disk.nextFate with
  | fail count =>
    rw [hfate] at h
    exact ⟨(Bool.or_eq_false_iff.1 h.1).1, h.2⟩
  | ok =>
    rw [hfate] at h
    dsimp only at h
    split at h
    · exact h
    · cases h.2

/-- On a disk that stays clean a line is written, or nothing of it. -/
lemma Holds.writeLine (h : Holds format old done disk) (item : Item)
    (hclean : (disk.writeLine format item).2.Clean) :
    ((disk.writeLine format item).1 = true →
      Holds format old (done ++ [item]) (disk.writeLine format item).2) ∧
    ((disk.writeLine format item).1 = false →
      Holds format old done (disk.writeLine format item).2) := by
  unfold Disk.writeLine Disk.writeAll at hclean ⊢
  dsimp only at hclean ⊢
  cases hfate : disk.nextFate with
  | fail count =>
    rw [hfate] at hclean
    have hpart := (Bool.or_eq_false_iff.1 hclean.1).2
    simp only [decide_eq_false_iff_not, not_not] at hpart
    exact ⟨nofun, fun _ => h.of_file_eq (by simp [hpart])⟩
  | ok =>
    rw [hfate] at hclean
    dsimp only at hclean ⊢
    set written : Disk := { disk.advance with
      file := some (disk.file.getD [] ++ (format.encode disk.clock item ++ [newline]))
      clock := disk.clock + 1 }
    cases hflush : written.nextFate with
    | ok => exact ⟨fun _ => h.concat rfl, nofun⟩
    | fail count =>
      rw [hflush] at hclean
      cases hclean.2

lemma writePendingItems_spec (format : LineFormat Item) (items : List Item) (disk : Disk) :
    let after := Disk.writePendingItems format items disk
    (after.1 = true → after.2.1 = []) ∧ (after.2.2.Clean → disk.Clean) ∧
      (disk.file.isSome = true → after.2.2.file.isSome = true) := by
  induction items generalizing disk with
  | nil => exact ⟨fun _ => rfl, id, id⟩
  | cons item items ih =>
    have hbefore := clean_of_writeLine format disk item
    have hfile := isSome_writeLine format disk item
    dsimp only [Disk.writePendingItems]
    cases hwrite : disk.writeLine format item with
    | mk ok next =>
      rw [hwrite] at hbefore hfile
      cases ok with
      | false => exact ⟨nofun, hbefore, fun _ => hfile⟩
      | true =>
        obtain ⟨hall, hclean, hsome⟩ := ih next
        exact ⟨hall, fun hafter => hbefore (hclean hafter), fun _ => hsome hfile⟩

/-- On a disk that stays clean the items are written from the first one on. -/
lemma Holds.writePendingItems {items : List Item} (h : Holds format old done disk)
    (hclean : (Disk.writePendingItems format items disk).2.2.Clean) :
    ∃ written, items = written ++ (Disk.writePendingItems format items disk).2.1 ∧
      Holds format old (done ++ written) (Disk.writePendingItems format items disk).2.2 := by
  induction items generalizing disk done with
  | nil => exact ⟨[], rfl, by simpa [Disk.writePendingItems] using h⟩
  | cons item items ih =>
    have hline := h.writeLine item
    dsimp only [Disk.writePendingItems] at hclean ⊢
    cases hwrite : disk.writeLine format item with
    | mk ok next =>
      rw [hwrite] at hline hclean
      cases ok with
      | false => exact ⟨[], rfl, by simpa using (hline hclean).2 rfl⟩
      | true =>
        have hnext := (hline ((writePendingItems_spec format items next).2.1 hclean)).1 rfl
        obtain ⟨written, hitems, hholds⟩ := ih hnext hclean
        exact ⟨item :: written, congrArg _ hitems, by simpa using hholds⟩

/-! ### The writer -/

/-- What holds of the writer when these items are expected in the file: some are done, the others it
still has, as long as the disk is clean. A file that is not deferred is there. -/
structure Recorded (format : LineFormat Item) (old : Bytes) (expected : List Item)
    (recorder : Recorder Item) : Prop where
  holds : recorder.disk.Clean → ∃ done,
    expected = done ++ (recorder.sessionMeta.toList ++ recorder.pendingItems) ∧
      Holds format old done recorder.disk
  writer : recorder.writer = true → recorder.deferredLogFileInfo = false
  file : recorder.deferredLogFileInfo = false → recorder.disk.file.isSome = true

variable {expected : List Item} {recorder : Recorder Item}

section

variable (h : Recorded format old expected recorder)
include h

lemma Recorded.ensureWriterOpen :
    let after := recorder.ensureWriterOpen
    Recorded format old expected after.2 ∧ (after.1 = true → after.2.writer = true) := by
  unfold Recorder.ensureWriterOpen Disk.openLogFile
  dsimp only
  split_ifs with hwriter
  · exact ⟨h, fun _ => hwriter⟩
  · cases hfate : recorder.disk.nextFate with
    | ok =>
      refine ⟨⟨fun hclean => ?_, fun _ => rfl, fun _ => rfl⟩, fun _ => rfl⟩
      obtain ⟨done, hexpected, hholds⟩ := h.holds hclean
      exact ⟨done, hexpected, hholds.of_file_eq rfl⟩
    | fail count => exact ⟨⟨h.holds, h.writer, h.file⟩, nofun⟩

lemma Recorded.flushWriter : Recorded format old expected recorder.flushWriter.2 := by
  unfold Recorder.flushWriter Disk.flush
  cases hfate : recorder.disk.nextFate with
  | ok | fail count => exact ⟨h.holds, h.writer, h.file⟩

omit h in
/-- What holds after one operation, and what the next one needs and brings. -/
lemma andThen_spec {R P Q : Recorder Item → Prop} {first : Bool × Recorder Item}
    {next : Recorder Item → Bool × Recorder Item}
    (hfirst : R first.2 ∧ (first.1 = true → P first.2)) (hnext : ∀ current, R current → P current →
      R (next current).2 ∧ ((next current).1 = true → Q (next current).2)) :
    R (andThen first next).2 ∧ ((andThen first next).1 = true → Q (andThen first next).2) := by
  unfold andThen
  split_ifs with hok
  · exact hnext first.2 hfirst.1 (hfirst.2 hok)
  · exact ⟨hfirst.1, fun htrue => absurd htrue hok⟩

lemma Recorded.enterRecoveryMode : Recorded format old expected recorder.enterRecoveryMode :=
  ⟨h.holds, nofun, h.file⟩

lemma Recorded.writeSessionMetaIfNeeded (hwriter : recorder.writer = true) :
    let after := recorder.writeSessionMetaIfNeeded format
    Recorded format old expected after.2 ∧ after.2.writer = true ∧
      (after.1 = true → after.2.sessionMeta = none) := by
  have hopened := h.writer hwriter
  unfold Recorder.writeSessionMetaIfNeeded
  dsimp only
  cases hmeta : recorder.sessionMeta with
  | none => exact ⟨h, hwriter, fun _ => hmeta⟩
  | some sessionMeta =>
    have hfile := isSome_writeLine format recorder.disk sessionMeta
    have hbefore := clean_of_writeLine format recorder.disk sessionMeta
    have hline := fun done (hdone : Holds format old done recorder.disk) =>
      hdone.writeLine sessionMeta
    have hholds := h.holds
    rw [hmeta] at hholds
    dsimp only
    cases hwrite : recorder.disk.writeLine format sessionMeta with
    | mk ok disk =>
      rw [hwrite] at hfile hbefore hline
      cases ok with
      | true =>
        refine ⟨⟨fun hclean => ?_, h.writer, fun _ => hfile⟩, hwriter, fun _ => rfl⟩
        obtain ⟨done, hexpected, hdone⟩ := hholds (hbefore hclean)
        exact ⟨done ++ [sessionMeta], by simpa using hexpected, (hline done hdone hclean).1 rfl⟩
      | false =>
        refine ⟨⟨fun hclean => ?_, h.writer, fun _ => hfile⟩, hwriter, nofun⟩
        obtain ⟨done, hexpected, hdone⟩ := hholds (hbefore hclean)
        exact ⟨done, by simpa [hmeta] using hexpected, (hline done hdone hclean).2 rfl⟩

lemma Recorded.writePendingItemsOnce (hwriter : recorder.writer = true)
    (hmeta : recorder.sessionMeta = none) :
    let after := recorder.writePendingItemsOnce format
    Recorded format old expected after.2 ∧ after.2.sessionMeta = none ∧
      (after.1 = true → after.2.pendingItems = []) := by
  obtain ⟨hall, hbefore, hfile⟩ :=
    writePendingItems_spec format recorder.pendingItems recorder.disk
  refine ⟨⟨fun hclean => ?_, h.writer, fun _ => hfile (h.file (h.writer hwriter))⟩, hmeta, hall⟩
  obtain ⟨done, hexpected, hdone⟩ := h.holds (hbefore hclean)
  obtain ⟨written, hitems, hholds⟩ := hdone.writePendingItems hclean
  refine ⟨done ++ written, ?_, hholds⟩
  rw [hmeta, Option.toList_none, nil_append] at hexpected
  simp only [Recorder.writePendingItemsOnce, hmeta, Option.toList_none, nil_append]
  rw [hexpected, List.append_assoc, ← hitems]

/-- After a pass that succeeds nothing is left to be written. -/
lemma Recorded.writePendingOnce :
    let after := recorder.writePendingOnce format
    Recorded format old expected after.2 ∧
      (after.1 = true → after.2.sessionMeta = none ∧ after.2.pendingItems = []) := by
  let Ready : Recorder Item → Prop := fun current =>
    current.writer = true ∧ current.sessionMeta = none
  let Written : Recorder Item → Prop := fun current =>
    current.sessionMeta = none ∧ current.pendingItems = []
  have hmeta := andThen_spec (R := Recorded format old expected)
    (P := fun current => current.writer = true) (Q := Ready) h.ensureWriterOpen
    fun current hcurrent hwriter => by
      obtain ⟨hrecorded, hopen, hnone⟩ := hcurrent.writeSessionMetaIfNeeded hwriter
      exact ⟨hrecorded, fun hok => ⟨hopen, hnone hok⟩⟩
  have hitems := andThen_spec (R := Recorded format old expected) (P := Ready) (Q := Written) hmeta
    fun current hcurrent hready => by
      obtain ⟨hrecorded, hnone, hall⟩ := hcurrent.writePendingItemsOnce hready.1 hready.2
      exact ⟨hrecorded, fun hok => ⟨hnone, hall hok⟩⟩
  exact andThen_spec (R := Recorded format old expected) (P := Written) (Q := Written) hitems
    fun current hcurrent hwritten => ⟨hcurrent.flushWriter, fun _ => hwritten⟩

lemma Recorded.writePendingWithRecovery :
    let after := recorder.writePendingWithRecovery format
    Recorded format old expected after.2 ∧
      (after.1 = true → after.2.sessionMeta = none ∧ after.2.pendingItems = []) := by
  obtain ⟨hfirst, hwritten⟩ := h.writePendingOnce
  unfold Recorder.writePendingWithRecovery
  dsimp only at hfirst hwritten ⊢
  split
  · next heq =>
    rw [heq] at hfirst hwritten
    exact ⟨hfirst, hwritten⟩
  · next failed heq =>
    rw [heq] at hfirst
    obtain ⟨hsecond, hrewritten⟩ := hfirst.enterRecoveryMode.writePendingOnce
    dsimp only at hsecond hrewritten
    split
    · next heq =>
      rw [heq] at hsecond hrewritten
      exact ⟨hsecond, hrewritten⟩
    · next heq =>
      rw [heq] at hsecond
      exact ⟨hsecond.enterRecoveryMode, nofun⟩

/-- A flush that succeeds has nothing to write, or has written everything. -/
lemma Recorded.flushPending :
    let after := recorder.flushPending format
    Recorded format old expected after.2 ∧
      (after.1 = true → after.2.deferredLogFileInfo = true ∨
        after.2.sessionMeta = none ∧ after.2.pendingItems = []) := by
  unfold Recorder.flushPending
  dsimp only
  split_ifs with hdeferred
  · refine ⟨h, fun _ => .inl ?_⟩
    have hboth := hdeferred.1
    rw [isDeferred, Bool.and_eq_true] at hboth
    exact hboth.2
  · obtain ⟨hrecorded, hwritten⟩ := h.writePendingWithRecovery
    exact ⟨hrecorded, fun hok => .inr (hwritten hok)⟩

lemma Recorded.addItems (items : List Item) :
    Recorded format old (expected ++ items) (recorder.addItems format items) := by
  have hadded : Recorded format old (expected ++ items)
      { recorder with pendingItems := recorder.pendingItems ++ items } := by
    refine ⟨fun hclean => ?_, h.writer, h.file⟩
    obtain ⟨done, hexpected, hdone⟩ := h.holds hclean
    exact ⟨done, by simp [hexpected], hdone⟩
  unfold Recorder.addItems
  dsimp only
  split_ifs
  · exact hadded
  · have hflush := hadded.flushPending
    split
    · next heq =>
      rw [heq] at hflush
      exact hflush.1
    · next heq =>
      rw [heq] at hflush
      exact hflush.1.enterRecoveryMode

/-- A command adds what is expected; after an acknowledgement nothing is left to be written, unless
the file is still deferred. -/
lemma Recorded.handle (cmd : RolloutCmd Item)
    (hstopped : recorder.stopped = false) :
    let after := recorder.handle format cmd
    Recorded format old (expected ++ addedBy [cmd]) after.2 ∧
      (after.1 = some true → after.2.deferredLogFileInfo = true ∨
        after.2.sessionMeta = none ∧ after.2.pendingItems = []) := by
  have hsame : ∀ {next : Recorder Item}, Recorded format old expected next →
      Recorded format old (expected ++ []) next := fun hnext => (append_nil expected).symm ▸ hnext
  unfold Recorder.handle
  rw [if_neg (by simp [hstopped])]
  cases cmd with
  | addItems items =>
    refine ⟨?_, nofun⟩
    have hadded := h.addItems items
    simpa [addedBy] using hadded
  | persist =>
    obtain ⟨hrecorded, hwritten⟩ := h.writePendingWithRecovery
    exact ⟨hsame hrecorded, fun hack => .inr (hwritten (Option.some.inj hack))⟩
  | flush =>
    obtain ⟨hrecorded, hwritten⟩ := h.flushPending
    exact ⟨hsame hrecorded, fun hack => hwritten (Option.some.inj hack)⟩
  | shutdown =>
    obtain ⟨hrecorded, hwritten⟩ := h.flushPending
    exact ⟨hsame ⟨hrecorded.holds, hrecorded.writer, hrecorded.file⟩,
      fun hack => hwritten (Option.some.inj hack)⟩

end

lemma run_of_stopped (hstopped : recorder.stopped = true) (cmds : List (RolloutCmd Item)) :
    recorder.run format cmds = recorder := by
  induction cmds with
  | nil => rfl
  | cons cmd cmds ih =>
    have hhandle : recorder.handle format cmd = (none, recorder) := if_pos hstopped
    rw [Recorder.run, foldl_cons, hhandle]
    exact ih

lemma Recorded.run (h : Recorded format old expected recorder) (cmds : List (RolloutCmd Item))
    (hstopped : (recorder.run format cmds).stopped = false) :
    Recorded format old (expected ++ addedBy cmds) (recorder.run format cmds) := by
  induction cmds generalizing recorder expected with
  | nil =>
    rw [addedBy, flatMap_nil, append_nil]
    exact h
  | cons cmd cmds ih =>
    have hrunning : recorder.stopped = false := by
      by_contra hstop
      rw [Bool.not_eq_false] at hstop
      rw [run_of_stopped hstop] at hstopped
      cases hstop.symm.trans hstopped
    have hsplit : addedBy (cmd :: cmds) = addedBy [cmd] ++ addedBy cmds := by simp [addedBy]
    rw [hsplit, ← List.append_assoc]
    exact ih (h.handle cmd hrunning).1 hstopped

/-! ### Loading the file -/

lemma cutLines_append {bytes : Bytes} (h : (cutLines bytes).2 = []) (more : Bytes) :
    cutLines (bytes ++ more) = ((cutLines bytes).1 ++ (cutLines more).1, (cutLines more).2) := by
  induction bytes with
  | nil => rfl
  | cons byte bytes ih =>
    rw [cons_append]
    by_cases hbyte : byte = newline
    · simp only [cutLines, hbyte, if_true] at h ⊢
      rw [ih h, cons_append]
    · simp only [cutLines, hbyte, if_false] at h ⊢
      cases hlines : (cutLines bytes).1 with
      | nil => simp [hlines] at h
      | cons line lines =>
        rw [hlines] at h
        rw [ih h, hlines]
        rfl

lemma cutLines_concat {line : Bytes} (h : newline ∉ line) :
    cutLines (line ++ [newline]) = ([line], []) := by
  induction line with
  | nil => rfl
  | cons byte line ih =>
    obtain ⟨hbyte, hline⟩ := not_or.1 (mem_cons.not.1 h)
    simp only [cons_append, cutLines, if_neg (Ne.symm hbyte), ih hline]

lemma cutLines_terminated {lines : List Bytes} (h : ∀ line ∈ lines, newline ∉ line) :
    cutLines (terminated lines) = (lines, []) := by
  induction lines with
  | nil => rfl
  | cons line lines ih =>
    obtain ⟨hline, hlines⟩ := forall_mem_cons.1 h
    have hfirst := cutLines_concat hline
    rw [terminated, flatMap_cons, cutLines_append (by rw [hfirst]), hfirst, ← terminated, ih hlines]
    rfl

section

variable (hformat : format.Faithful)
include hformat

/-- Lines of items are read one after the other. -/
lemma foldlM_readLine {lines : List Bytes} (h : List.Forall₂ (IsLine format) lines done)
    (loading : Loading Item) : ∃ after,
      (lines.map stripCr).foldlM (Loading.readLine format) loading = .ok after ∧
        after.items = loading.items ++ done.map format.readBack ∧
        (lines ≠ [] ∨ loading.sawNonEmptyLine = true → after.sawNonEmptyLine = true) := by
  induction h generalizing loading with
  | nil => exact ⟨loading, rfl, (append_nil _).symm, fun h => h.resolve_left fun hne => hne rfl⟩
  | @cons line item lines done hline _ ih =>
    obtain ⟨time, rfl⟩ := hline
    have hstrip : stripCr (format.encode time item) = format.encode time item :=
      if_neg (hformat.cr time item)
    have hread : loading.readLine format (format.encode time item) = .ok { loading with
        items := loading.items ++ [format.readBack item]
        threadId := loading.threadId.or (format.threadIdOf (format.readBack item))
        sawNonEmptyLine := true } := by
      simp only [Loading.readLine, hformat.read_encode]
    obtain ⟨after, hafter, hitems, hseen⟩ := ih { loading with
        items := loading.items ++ [format.readBack item]
        threadId := loading.threadId.or (format.threadIdOf (format.readBack item))
        sawNonEmptyLine := true }
    refine ⟨after, ?_, by simpa using hitems, fun _ => hseen (.inr rfl)⟩
    rw [map_cons, hstrip, foldlM_cons, hread]
    exact hafter

/-- A file that ends at the start of a line, and lines of items behind it. -/
lemma load_append {lines : List Bytes} (h : List.Forall₂ (IsLine format) lines done)
    (hlines : lines ≠ []) (hold : (cutLines old).2 = []) {earlier : List Item}
    (hearlier : old = [] ∧ earlier = [] ∨
      (loadRolloutItems format (some old)).map Prod.fst = .ok earlier) :
    (loadRolloutItems format (some (old ++ terminated lines))).map Prod.fst =
      .ok (earlier ++ done.map format.readBack) := by
  have hnewline : ∀ line ∈ lines, newline ∉ line := by
    intro line hline
    obtain ⟨index, hindex, rfl⟩ := getElem_of_mem hline
    obtain ⟨time, htime⟩ := h.get hindex (h.length_eq ▸ hindex)
    rw [get_eq_getElem] at htime
    exact htime ▸ hformat.newline time _
  have hall : linesOf (old ++ terminated lines) = linesOf old ++ lines.map stripCr := by
    simp [linesOf, cutLines_append hold, cutLines_terminated hnewline, hold]
  obtain ⟨first, hfirst, hitems⟩ : ∃ first : Loading Item,
      (linesOf old).foldlM (Loading.readLine format) ⟨[], none, 0, false⟩ = .ok first ∧
        first.items = earlier := by
    rcases hearlier with ⟨rfl, rfl⟩ | hload
    · exact ⟨_, rfl, rfl⟩
    · rw [loadRolloutItems] at hload
      cases hfold : (linesOf old).foldlM (Loading.readLine format) ⟨[], none, 0, false⟩ with
      | error error =>
        rw [hfold] at hload
        cases hload
      | ok first =>
        rw [hfold] at hload
        refine ⟨first, rfl, ?_⟩
        simp only [Except.bind] at hload
        split at hload
        · exact Except.ok.inj hload
        · cases hload
  obtain ⟨after, hafter, hafterItems, hseen⟩ := foldlM_readLine hformat h first
  rw [loadRolloutItems, hall, foldlM_append, hfirst]
  simp only [Except.bind, bind, hafter, hseen (.inl hlines), if_true, Except.map, hafterItems,
    hitems]

end

/-! ### Acknowledged items -/

/-- The writer of a new session, or of one that is resumed from a file with these items. -/
inductive Start (format : LineFormat Item) : Recorder Item → List Item → Prop
  | create (sessionMeta : Item) (fates : List Fate) : Start format (.create sessionMeta fates) []
  | resume (file : Bytes) (fates : List Fate) (earlier : List Item) :
    (loadRolloutItems format (some file)).map Prod.fst = .ok earlier →
      Start format (.resume file fates) earlier

lemma Start.recorded {start : Recorder Item} {earlier : List Item}
    (h : Start format start earlier) :
    Recorded format (start.disk.file.getD []) start.sessionMeta.toList start := by
  cases h with
  | create sessionMeta fates =>
    exact ⟨fun _ => ⟨[], rfl, [], .nil, rfl⟩, nofun, nofun⟩
  | resume file fates earlier hload =>
    exact ⟨fun _ => ⟨[], rfl, [], .nil, (append_nil _).symm⟩, fun _ => rfl, fun _ => rfl⟩

/-- **What an acknowledged rollout file holds.**  When a barrier is acknowledged, loading the file
returns what was there earlier, the session meta of a new session and every item that was added, in
order and each once: if the file has been created, it did not begin with an unfinished line (or
nothing was to be written), no write has left a part of a line and no flush has failed behind a
line. -/
theorem load_after_ack (hformat : format.Faithful) {start : Recorder Item} {earlier : List Item}
    (hstart : Start format start earlier) (cmds : List (RolloutCmd Item)) (cmd : RolloutCmd Item)
    (hack : ((start.run format cmds).handle format cmd).1 = some true)
    (hend : (cutLines (start.disk.file.getD [])).2 = [] ∨
      start.sessionMeta.toList ++ addedBy cmds = [])
    (hopened : ((start.run format cmds).handle format cmd).2.deferredLogFileInfo = false)
    (hclean : ((start.run format cmds).handle format cmd).2.disk.Clean) :
    (loadRolloutItems format ((start.run format cmds).handle format cmd).2.disk.file).map Prod.fst =
      .ok (earlier ++ (start.sessionMeta.toList ++ addedBy cmds).map format.readBack) := by
  have hrunning : (start.run format cmds).stopped = false := by
    by_contra hstop
    unfold Recorder.handle at hack
    rw [if_pos (Bool.not_eq_false _ ▸ hstop)] at hack
    cases hack
  have hnothing : addedBy [cmd] = [] := by
    cases cmd with
    | addItems items =>
      rw [Recorder.handle, if_neg (by simp [hrunning])] at hack
      cases hack
    | _ => rfl
  obtain ⟨hrecorded, hbarrier⟩ := (hstart.recorded.run cmds hrunning).handle cmd hrunning
  rw [hnothing, append_nil] at hrecorded
  obtain ⟨hmeta, hpending⟩ := (hbarrier hack).resolve_left fun hdeferred =>
    nomatch hopened.symm.trans hdeferred
  obtain ⟨file, hfile⟩ := Option.isSome_iff_exists.1 (hrecorded.file hopened)
  obtain ⟨done, hexpected, lines, hlines, hholds⟩ := hrecorded.holds hclean
  rw [hmeta, hpending, Option.toList_none, append_nil, append_nil] at hexpected
  rw [hfile, Option.getD_some] at hholds
  rw [hfile, hexpected, hholds]
  rcases eq_or_ne lines [] with rfl | hne
  · -- nothing was written: the file is the one that was resumed
    obtain rfl := forall₂_nil_left_iff.1 hlines
    cases hstart with
    | create sessionMeta fates => cases hexpected
    | resume file fates earlier hload => simpa [terminated, Recorder.resume] using hload
  · have hold := hend.resolve_right fun hempty => by
      rw [hexpected] at hempty
      exact hne (forall₂_nil_right_iff.1 (hempty ▸ hlines))
    refine load_append hformat hlines hne hold ?_
    cases hstart with
    | create sessionMeta fates => exact .inl ⟨rfl, rfl⟩
    | resume file fates earlier hload => exact .inr hload

/-- Two items as lines of five bytes, with an é of two bytes in the first one. -/
def shortFormat : LineFormat Bool where
  encode := fun _ item => if item then [123, 195, 169, 49, 125] else [123, 102, 49, 50, 125]
  read := fun line =>
    if line = [123, 195, 169, 49, 125] then .item true
    else if line = [123, 102, 49, 50, 125] then .item false
    else if line.toByteArray.validateUTF8 then .invalid
    else .notUtf8
  readBack := id
  threadIdOf := fun _ => none

lemma shortFormat_faithful : shortFormat.Faithful where
  read_encode := fun _ item => by cases item <;> rfl
  newline := fun _ item => by cases item <;> simp [shortFormat, RolloutStore.newline]
  cr := fun _ item => by cases item <;> simp [shortFormat, carriageReturn]

/-- A session whose operations all succeed, resumed for one more item. -/
theorem load_after_ack_resumed : (loadRolloutItems shortFormat
    (((Recorder.resume [123, 195, 169, 49, 125, 10] []).run shortFormat
      [.addItems [false]]).handle shortFormat .flush).2.disk.file).map Prod.fst =
        .ok [true, false] :=
  load_after_ack shortFormat_faithful (.resume [123, 195, 169, 49, 125, 10] [] [true] rfl)
    [.addItems [false]] .flush rfl (.inl rfl) rfl ⟨rfl, rfl⟩

/-- The write of the second line fails after its first byte; the line that is written again is
behind that byte and cannot be read. If the first line is cut inside of its é, the file cannot be
loaded at all. -/
theorem torn_write_loses_item :
    let lost := ((Recorder.create true [.ok, .ok, .ok, .fail 1]).run shortFormat
      [.addItems [false]]).handle shortFormat .persist
    let broken := ((Recorder.create true [.ok, .fail 2]).run shortFormat
      [.addItems [false]]).handle shortFormat .persist
    lost.1 = some true ∧
      (loadRolloutItems shortFormat lost.2.disk.file).map Prod.fst = .ok [true] ∧
    broken.1 = some true ∧
      loadRolloutItems shortFormat broken.2.disk.file = .error invalidUtf8 :=
  ⟨rfl, rfl, rfl, rfl⟩

end TokenCode.RolloutStore
