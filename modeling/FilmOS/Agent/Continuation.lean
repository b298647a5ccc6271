import FilmOS.Agent.Terminal

/-!
# What a session goes on with

When a run ends, its failure is recorded on its item, and the run of the next screenshot is queued,
if one waits. Here is what these steps need in order to return. The record finds its item as long as
the run is open (`recordFailure_returns`), and it leaves every other item as it waits
(`awaits_recordFailure`); the review finds the active item (`advanceReview_returns`); the command of
the next run is entered exactly when its key is free (`queueRecognition_returns_iff`). So a run can
be failed exactly when no screenshot waits or the key is free (`failLocked_returns_iff`).

And here is what they leave behind: a run for the next screenshot, or no screenshot that waits
(`continueRecognition_leaves`).
-/

set_option autoImplicit false
set_option relaxedAutoImplicit false

namespace FilmOS.Agent

open Transaction AgentDb

variable {call : Call} {later : Time} {db db' : AgentDb} {w w' : Workspace} {run : AgentRun}

/-! ### What is left alone -/

/-- Giving up tool calls leaves the runs, the items and the screenshots alone. -/
theorem rows_abandonCalls (runId : Id) (code : String) (w : Workspace) :
    (w.abandonCalls call runId code).runs = w.runs ∧
      (w.abandonCalls call runId code).items = w.items ∧
      (w.abandonCalls call runId code).attachments = w.attachments := by
  unfold Workspace.abandonCalls
  generalize w.toolCalls.rows.filter _ = toolCalls
  induction toolCalls generalizing w with
  | nil => exact ⟨rfl, rfl, rfl⟩
  | cons toolCall toolCalls ih =>
    rw [List.foldl_cons]
    exact ih _

theorem items_markFailed (call : Call) (later : Time) (run : AgentRun) (code message : String)
    (w : Workspace) : (w.markFailed call later run code message).items = w.items ∧
      (w.markFailed call later run code message).attachments = w.attachments :=
  (rows_abandonCalls run.id code _).2

/-- An item waits as before, when the screenshots are as before. -/
theorem awaits_congr (hattachments : w'.attachments = w.attachments) (item : OrderIntakeItem) :
    w'.Awaits item ↔ w.Awaits item := by
  unfold Workspace.Awaits Workspace.unarchived
  rw [hattachments]

/-! ### The failure of a recognition -/

/-- A failure is recorded when the run has its item. -/
theorem recordFailure_returns (call : Call)
    (hitem : ∀ itemId ∈ run.workItemId, ∃ item ∈ w.items.rows, itemId = item.id) :
    ∃ v, recordFailure call run w = .ok v := by
  unfold recordFailure
  by_cases hfailed : run.status = .failed
  · rw [if_pos hfailed]
    cases hid : run.workItemId with
    | none => exact ⟨w, rfl⟩
    | some itemId =>
      obtain ⟨item, hmem, rfl⟩ := hitem itemId hid
      have hfind : w.items.find? item.id = some item :=
        (Table.find?_eq_some_iff _).mpr ⟨hmem, rfl⟩
      simp only [hfind]
      split_ifs
      · exact ⟨_, rfl⟩
      · exact ⟨_, rfl⟩
  · rw [if_neg hfailed]
    exact ⟨w, rfl⟩

/-- Another item than that of the run waits as before. -/
theorem awaits_recordFailure (h : recordFailure call run w = .ok w') {item : OrderIntakeItem}
    (hitem : item ∈ w.items.rows) (hne : run.workItemId ≠ some item.id) :
    item ∈ w'.items.rows ∧ (w'.Awaits item ↔ w.Awaits item) := by
  unfold recordFailure at h
  by_cases hfailed : run.status = .failed
  · rw [if_pos hfailed] at h
    cases hid : run.workItemId with
    | none =>
      rw [hid] at h
      obtain rfl := Except.ok.inj h
      exact ⟨hitem, Iff.rfl⟩
    | some itemId =>
      rw [hid] at h hne
      cases hfind : w.items.find? itemId with
      | none =>
        simp only [hfind] at h
        cases h
      | some found =>
        simp only [hfind] at h
        split_ifs at h
        · obtain rfl := Except.ok.inj h
          exact ⟨hitem, Iff.rfl⟩
        · obtain rfl := Except.ok.inj h
          have hother : item.id ≠ itemId := fun heq ↦ hne (congrArg some heq.symm)
          exact ⟨List.mem_map.mpr ⟨item, hitem, if_neg hother⟩, awaits_congr rfl item⟩
  · rw [if_neg hfailed] at h
    obtain rfl := Except.ok.inj h
    exact ⟨hitem, Iff.rfl⟩

/-! ### The next screenshot -/

theorem nextScreenshot_eq_none_iff :
    w.nextScreenshot = none ↔ ∀ item ∈ w.items.rows, ¬ w.Awaits item := by
  unfold Workspace.nextScreenshot
  rw [firstBy_eq_none_iff, List.filter_eq_nil_iff]
  refine forall₂_congr fun item _ ↦ ?_
  unfold Workspace.Awaits
  rw [Bool.and_eq_true, decide_eq_true_eq]

/-- The command for the next screenshot is entered exactly when its key is free. -/
theorem queueRecognition_returns_iff {runId : Id} {pending : OrderIntakeItem}
    (hissued : ∀ id ∈ w.runs.keys, id ∈ db.board.issued) :
    (∃ w' db', queueRecognition call runId pending w db = .ok w' db') ↔
      db.commands.find? (w.session.userId, recognizeAfterKey runId) = none := by
  unfold queueRecognition
  constructor
  · rintro ⟨w', db', h⟩
    obtain ⟨commandId, db₁, hfirst, h⟩ := bind_eq_ok.mp h
    obtain ⟨followingId, db₂, hsecond, h⟩ := bind_eq_ok.mp h
    obtain ⟨w₁, hrun, h⟩ := checked_bind_eq_ok.mp h
    obtain ⟨_, db₃, hcommand, -⟩ := bind_eq_ok.mp h
    obtain ⟨-, rfl⟩ := generateId_eq_ok.mp hfirst
    obtain ⟨-, rfl⟩ := generateId_eq_ok.mp hsecond
    obtain ⟨runs, -, rfl⟩ := Workspace.addRun_eq_ok.mp hrun
    obtain ⟨commands, hinsert, -⟩ := addCommand_eq_ok.mp hcommand
    have hkey := ((Table.insert?_eq_some_iff _ _ _).mp hinsert).1
    exact (Table.find?_eq_none_iff _).mpr fun row hrow hrowKey ↦
      hkey ((Table.mem_keys _).mpr ⟨row, hrow, hrowKey⟩)
  · intro hfree
    obtain ⟨commandId, db₁, hfirst⟩ : ∃ id db₁, generateId call db = .ok id db₁ := ⟨_, _, rfl⟩
    obtain ⟨followingId, db₂, hsecond⟩ : ∃ id db₂, generateId call db₁ = .ok id db₂ := ⟨_, _, rfl⟩
    have hfresh := fresh_generateId hsecond
    obtain ⟨-, rfl⟩ := generateId_eq_ok.mp hfirst
    obtain ⟨-, rfl⟩ := generateId_eq_ok.mp hsecond
    let following := newRun call w followingId
      { kind := .resumeItem, eventSeq := w.session.lastEventSeq
        messageId := pending.sourceMessageId, commandId := some commandId
        workItemId := some pending.id }
    have hnew : following.id ∉ w.runs.keys := fun hmem ↦
      hfresh.1 (List.mem_cons_of_mem _ (hissued _ hmem))
    obtain ⟨runs, hruns, -⟩ := Table.exists_insert?_of_notMem hnew
    let command : AgentCommand :=
      { id := commandId, userId := w.session.userId, sessionId := w.session.id
        idempotencyKey := recognizeAfterKey runId, kind := .recognizeItem
        requestHash := .recognizeAfter runId pending.id, targetId := some pending.id
        expectedRevision := none, resultRunId := some followingId, httpStatus := 202
        result := .recognitionQueued followingId pending.id }
    have hkey : Keyed.key command ∉ db.commands.keys := by
      intro hmem
      obtain ⟨row, hrow, hrowKey⟩ := (Table.mem_keys _).mp hmem
      exact (Table.find?_eq_none_iff _).mp hfree row hrow hrowKey
    obtain ⟨commands, hcommands, -⟩ := Table.exists_insert?_of_notMem hkey
    refine ⟨_, _, bind_eq_ok.mpr ⟨commandId, _, hfirst, bind_eq_ok.mpr ⟨followingId, _, hsecond,
      checked_bind_eq_ok.mpr ⟨{ w with runs }, Workspace.addRun_eq_ok.mpr ⟨runs, hruns, rfl⟩,
        bind_eq_ok.mpr ⟨(), _, addCommand_eq_ok.mpr ⟨commands, hcommands, rfl⟩,
          pure_eq_ok.mpr ⟨rfl, rfl⟩⟩⟩⟩⟩⟩

/-! ### The review -/

/-- The review goes on when the active item is there. -/
theorem advanceReview_returns (call : Call) (hdesk : w.desk.Sound) :
    ∃ v, advanceReview call w = .ok v := by
  unfold advanceReview
  cases hcurrent : w.session.activeWorkItemId with
  | none => exact ⟨_, rfl⟩
  | some id =>
    obtain ⟨case, hcase, hid⟩ := hdesk.current_mem id hcurrent
    obtain ⟨item, hitem, rfl⟩ := List.mem_map.mp hcase
    have hfind : w.items.find? id = some item := (Table.find?_eq_some_iff _).mpr ⟨hitem, hid⟩
    simp only [hfind]
    split_ifs
    · exact ⟨_, rfl⟩
    · exact ⟨_, rfl⟩

/-! ### The end of a run -/

/-- A screenshot other than that of the run waits, and the command for it cannot be entered. -/
def AgentDb.FollowUpTaken (db : AgentDb) (w : Workspace) (run : AgentRun) : Prop :=
  run.config.intakeWorkbench = true ∧
    (∃ item ∈ w.items.rows, w.Awaits item ∧ run.workItemId ≠ some item.id) ∧
    db.commands.find? (w.session.userId, recognizeAfterKey run.id) ≠ none

/-- An open run of the recognition queue has its item. -/
theorem exists_item_of_isOpen (htraced : w.Traced) (hrun : run ∈ w.runs.rows)
    (hopen : run.status.IsOpen) (hworkbench : run.config.intakeWorkbench = true) :
    ∃ item ∈ w.items.rows, run.workItemId = some item.id := by
  refine htraced.sources run hrun hworkbench ?_
  by_contra hdeleted
  rw [Bool.not_eq_false] at hdeleted
  exact htraced.deleted run hrun hdeleted hopen

/-- After the failure was recorded a screenshot waits exactly when another one than that of the run
waited before. -/
theorem awaits_of_failed (hsound : w.Sound) (hrun : run ∈ w.runs.rows) (hopen : run.status.IsOpen)
    (hworkbench : run.config.intakeWorkbench = true) {code message : String} {v : Workspace}
    (h : recordFailure call (failedRun later code message run)
      (w.markFailed call later run code message) = .ok v) :
    (∃ item ∈ v.items.rows, v.Awaits item) ↔
      ∃ item ∈ w.items.rows, w.Awaits item ∧ run.workItemId ≠ some item.id := by
  obtain ⟨hitems, hattachments⟩ := items_markFailed call later run code message w
  obtain ⟨own, hown, hid⟩ := exists_item_of_isOpen hsound.traced hrun hopen hworkbench
  have hmarked : w.Changes .worker (fun _ ↦ False) (w.markFailed call later run code message) :=
    markFailed_changes trivial
  have hrecorded : (w.markFailed call later run code message).Changes .worker (fun _ ↦ False) v :=
    recordFailure_changes h
  constructor
  · rintro ⟨item, hitem, hawaits⟩
    have hchanges : w.Changes .worker (fun _ ↦ False) v := hmarked.trans hrecorded
    have hwaiting : item.id ∈ w.awaiting := hchanges.awaiting (fun h ↦ h) item.id
      (Workspace.mem_awaiting.mpr ⟨item, hitem, hawaits, rfl⟩)
    obtain ⟨old, hold, hwaits, hold_id⟩ := Workspace.mem_awaiting.mp hwaiting
    refine ⟨old, hold, hwaits, fun hsame ↦ ?_⟩
    have hitemId : (failedRun later code message run).workItemId = some item.id :=
      hsame.trans (congrArg some hold_id)
    obtain ⟨attempted, hattempted, hattemptedId, hstarted⟩ :=
      recordFailure_attempted (hmarked.traced hsound.traced) rfl hitemId h
    obtain rfl := v.items.eq_of_key_eq hattempted hitem hattemptedId
    exact hstarted hawaits.2.2.2
  · rintro ⟨item, hitem, hawaits, hne⟩
    rw [← hitems] at hitem
    obtain ⟨hmem, hsame⟩ := awaits_recordFailure h hitem hne
    exact ⟨item, hmem, hsame.mpr ((awaits_congr hattachments item).mpr hawaits)⟩

/-- A run can be failed exactly when no command is in the way of the run that would follow it. -/
theorem failLocked_returns_iff (call : Call) (later : Time) (hsound : db.Sound)
    (hw : w ∈ db.workspaces.rows)
    (hrun : run ∈ w.runs.rows) (hopen : run.status.IsOpen) (hactive : w.session.status = .active)
    (code message : String) :
    (∃ w' db', failLocked call later w run code message db = .ok w' db') ↔
      ¬ db.FollowUpTaken w run := by
  have hsoundw := hsound.workspace w hw
  have hmarked : w.Changes .worker (fun _ ↦ False) (w.markFailed call later run code message) :=
    markFailed_changes trivial
  have hstatus : (w.markFailed call later run code message).session.status = .active :=
    (hmarked.status_eq fun h ↦ h).trans hactive
  have hreads : (∃ w' db', failLocked call later w run code message db = .ok w' db') ↔
      ∃ v db', continueRecognition call (failedRun later code message run)
        (w.markFailed call later run code message) db = .ok v db' := by
    constructor
    · rintro ⟨w', db', h⟩
      obtain ⟨v, hcontinue, -⟩ := failLocked_eq_ok.mp h
      exact ⟨v, db', hcontinue⟩
    · rintro ⟨v, db', hcontinue⟩
      exact ⟨_, db', failLocked_eq_ok.mpr ⟨v, hcontinue, rfl⟩⟩
  rw [hreads]
  unfold continueRecognition
  by_cases hworkbench : run.config.intakeWorkbench = true
  · have hskip : ¬ ((failedRun later code message run).config.intakeWorkbench = false ∨
        (w.markFailed call later run code message).session.status ≠ .active) := by
      rw [not_or, not_not]
      exact ⟨fun h ↦ Bool.false_ne_true (h.symm.trans hworkbench), hstatus⟩
    rw [if_neg hskip]
    have hitem : ∀ itemId ∈ (failedRun later code message run).workItemId,
        ∃ item ∈ (w.markFailed call later run code message).items.rows, itemId = item.id := by
      obtain ⟨item, hitem, hid⟩ := exists_item_of_isOpen hsoundw.traced hrun hopen hworkbench
      intro itemId hitemId
      refine ⟨item, ?_, Option.some.inj (hitemId.symm.trans hid)⟩
      rw [(items_markFailed call later run code message w).1]
      exact hitem
    obtain ⟨v, hrecord⟩ := recordFailure_returns call hitem
    have hrecorded : w.Changes .worker (fun _ ↦ False) v :=
      hmarked.trans (recordFailure_changes hrecord)
    have hawaits := awaits_of_failed hsoundw hrun hopen hworkbench hrecord
    rw [returns_checked_bind hrecord]
    cases hnext : v.nextScreenshot with
    | none =>
      obtain ⟨v', hadvance⟩ := advanceReview_returns call (hsoundw.desk.moves hrecorded.desk)
      refine iff_of_true ⟨v', db, checked_eq_ok.mpr ⟨hadvance, rfl⟩⟩ ?_
      rintro ⟨-, hwaits, -⟩
      obtain ⟨item, hmem, hwaits⟩ := hawaits.mpr hwaits
      exact nextScreenshot_eq_none_iff.mp hnext item hmem hwaits
    | some pending =>
      have hissued : ∀ id ∈ v.runs.keys, id ∈ db.board.issued := fun id hid ↦
        hsound.issued w hw id ((hrecorded.uses (Or.inl hid)).resolve_left not_false)
      refine (queueRecognition_returns_iff hissued).trans ?_
      rw [hrecorded.owner.2.1]
      unfold AgentDb.FollowUpTaken
      have hwaits := hawaits.mp ⟨pending, nextScreenshot_eq_some hnext⟩
      constructor
      · rintro hfree ⟨-, -, htaken⟩
        exact htaken hfree
      · intro hnot
        by_contra htaken
        exact hnot ⟨hworkbench, hwaits, htaken⟩
  · have hskip : (failedRun later code message run).config.intakeWorkbench = false ∨
        (w.markFailed call later run code message).session.status ≠ .active :=
      Or.inl (Bool.eq_false_of_not_eq_true hworkbench)
    rw [if_pos hskip]
    exact iff_of_true ⟨_, db, rfl⟩ fun htaken ↦ hworkbench htaken.1

/-! ### What is left behind -/

theorem runs_recordFailure (h : recordFailure call run w = .ok w') : w'.runs = w.runs := by
  unfold recordFailure at h
  split at h
  · rw [← Except.ok.inj h]
  · split at h
    · cases h
    · split_ifs at h
      · rw [← Except.ok.inj h]
      · rw [← Except.ok.inj h]
        rfl

theorem runs_selectReady (w : Workspace) : (w.selectReady call).runs = w.runs := by
  unfold Workspace.selectReady
  split
  · rfl
  · rfl

theorem runs_advanceReview (h : advanceReview call w = .ok w') : w'.runs = w.runs := by
  unfold advanceReview at h
  split at h
  · rw [← Except.ok.inj h, runs_selectReady]
  · split at h
    · cases h
    · split_ifs at h
      · rw [← Except.ok.inj h]
      · rw [← Except.ok.inj h, runs_selectReady]
        rfl

/-- The next screenshot is being recognised, or none waits. -/
def Workspace.Served (w : Workspace) : Prop :=
  (∃ next ∈ w.runs.rows, next.status.IsOpen ∧
    ∃ item ∈ w.items.rows, w.Awaits item ∧ next.workItemId = some item.id) ∨
  (∀ run ∈ w.runs.rows, ¬ run.status.IsOpen) ∧ w.awaiting = []

/-- The run for the next screenshot is there, and the screenshot waits as before. -/
theorem queueRecognition_ok {runId : Id} {pending : OrderIntakeItem}
    (hpending : pending ∈ w.items.rows) (hawaits : w.Awaits pending)
    (h : queueRecognition call runId pending w db = .ok w' db') :
    (∀ row ∈ w.runs.rows, row ∈ w'.runs.rows) ∧ w'.Served := by
  unfold queueRecognition at h
  obtain ⟨commandId, db₁, -, h⟩ := bind_eq_ok.mp h
  obtain ⟨followingId, db₂, -, h⟩ := bind_eq_ok.mp h
  obtain ⟨w₁, hrun, h⟩ := checked_bind_eq_ok.mp h
  obtain ⟨_, db₃, -, h⟩ := bind_eq_ok.mp h
  obtain ⟨rfl, rfl⟩ := pure_eq_ok.mp h
  obtain ⟨runs, hinsert, rfl⟩ := Workspace.addRun_eq_ok.mp hrun
  have hrows := ((Table.insert?_eq_some_iff _ _ _).mp hinsert).2
  constructor
  · intro row hrow
    show row ∈ runs.rows
    rw [hrows]
    exact List.mem_append_left _ hrow
  · have hmem := List.mem_append_right w.runs.rows (List.mem_singleton_self
      (newRun call w followingId
        { kind := .resumeItem, eventSeq := w.session.lastEventSeq
          messageId := pending.sourceMessageId, commandId := some commandId
          workItemId := some pending.id }))
    rw [← hrows] at hmem
    exact Or.inl ⟨_, hmem, Or.inl rfl, pending, hpending, hawaits, rfl⟩

/-- After a run of the recognition queue a screenshot that waits is left behind only when a run was
queued for one. -/
theorem continueRecognition_leaves (hidle : w.Idle) (hactive : w.session.status = .active)
    (hworkbench : run.config.intakeWorkbench = true)
    (h : continueRecognition call run w db = .ok w' db') :
    (∀ row ∈ w.runs.rows, row ∈ w'.runs.rows) ∧ w'.Served ∧
      ∃ w₁, recordFailure call run w = .ok w₁ ∧ w₁.Changes .following (Fresh db db') w' := by
  unfold continueRecognition at h
  have hskip : ¬ (run.config.intakeWorkbench = false ∨ w.session.status ≠ .active) := by
    rw [not_or, not_not]
    exact ⟨fun h ↦ Bool.false_ne_true (h.symm.trans hworkbench), hactive⟩
  rw [if_neg hskip] at h
  obtain ⟨w₁, hrecord, h⟩ := checked_bind_eq_ok.mp h
  have hrecorded : w.Changes {} (fun _ ↦ False) w₁ := recordFailure_changes hrecord
  have hrows : ∀ row ∈ w.runs.rows, row ∈ w₁.runs.rows := by
    rw [runs_recordFailure hrecord]
    exact fun _ h ↦ h
  cases hnext : w₁.nextScreenshot with
  | some pending =>
    simp only [hnext] at h
    obtain ⟨hpending, hawaits⟩ := nextScreenshot_eq_some hnext
    obtain ⟨hkept, hserved⟩ := queueRecognition_ok hpending hawaits h
    refine ⟨fun row hrow ↦ hkept row (hrows row hrow), hserved, w₁, hrecord, ?_⟩
    refine (queueRecognition_makes trivial ?_ ?_ hpending h).changes
    · unfold Workspace.Idle
      rw [hrecorded.jobs_eq (fun h ↦ h) (fun h ↦ h)]
      exact hidle
    · exact (hrecorded.status_eq fun h ↦ h).trans hactive
  | none =>
    simp only [hnext] at h
    obtain ⟨hadvance, rfl⟩ := checked_eq_ok.mp h
    have hchanges : w₁.Changes .following (Fresh db db) w' := advanceReview_changes trivial hadvance
    have hruns : w'.runs = w.runs :=
      (runs_advanceReview hadvance).trans (runs_recordFailure hrecord)
    refine ⟨?_, Or.inr ⟨?_, ?_⟩, w₁, hrecord, hchanges⟩
    · rw [hruns]
      exact fun _ h ↦ h
    · rw [hruns]
      exact fun row hrow ↦ Workspace.isOpen_of_job hrow hidle
    · rw [List.eq_nil_iff_forall_not_mem]
      intro id hid
      obtain ⟨item, hitem, hawaits, -⟩ :=
        Workspace.mem_awaiting.mp (hchanges.awaiting (fun h ↦ h) id hid)
      exact nextScreenshot_eq_none_iff.mp hnext item hitem hawaits

end FilmOS.Agent
