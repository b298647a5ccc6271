import FilmOS.Agent.Statements

/-!
# The recognition queue

What happens to a session when a run has ended is permitted changes: items move, and one further run
may be queued, together with the command that enters it. `continueRecognition_makes` collects them.
The failure of the run is on its item then (`recordFailure_attempted`).
-/

set_option autoImplicit false
set_option relaxedAutoImplicit false

namespace FilmOS.Agent

open Transaction AgentDb

/-! ### Items and runs -/

namespace Workspace

variable {permit : Permit} {fresh : Id → Prop} {u w w' : Workspace} {item : OrderIntakeItem}

theorem firstItem_eq_some {condition : OrderIntakeItem → Bool}
    (h : w.firstItem condition = some item) :
    item ∈ w.items.rows ∧ w.unarchived item ∧ condition item := by
  have hmem := List.mem_filter.mp (mem_of_firstBy_eq_some h)
  rw [Bool.and_eq_true] at hmem
  exact hmem

theorem addRun_eq_ok {run : AgentRun} :
    w.addRun run = .ok w' ↔ ∃ runs, w.runs.insert? run = some runs ∧ w' = { w with runs } := by
  unfold addRun
  cases w.runs.insert? run with
  | none => simp
  | some runs => simp [eq_comm]

theorem addItem_eq_ok :
    w.addItem item = .ok w' ↔ ∃ items, w.items.insert? item = some items ∧
      w' = { w with items } := by
  unfold addItem
  cases w.items.insert? item with
  | none => simp
  | some items => simp [eq_comm]

/-- A queued run of an idle and active session. -/
theorem Changes.addRun (h : u.Changes permit fresh w) {run : AgentRun}
    (hadd : w.addRun run = .ok w') (hqueue : permit.queue) (hfresh : fresh run.id) (hidle : w.Idle)
    (hactive : w.session.status = .active) (hreply : run.reply = none ∨ permit.letter)
    (hstatus : run.status = .queued) (htoken : run.leaseToken = none)
    (hplan : run.generatedPlanId = none) (hsource : run.config.sourceDeleted = false)
    (hitem : run.config.intakeWorkbench = true → ∃ item ∈ w.items.rows,
      run.workItemId = some item.id) : u.Changes permit fresh w' := by
  obtain ⟨runs, hinsert, rfl⟩ := addRun_eq_ok.mp hadd
  exact h.tail (.addRun w run runs hinsert hqueue hfresh hstatus htoken hidle hactive hreply hplan
    hsource hitem)

/-- An item that waits on an unarchived screenshot is selected, when none is. -/
theorem Changes.activate (h : u.Changes permit fresh w) (hitem : item ∈ w.items.rows)
    (hpick : permit.pick) (hphase : item.status.phase = .waiting)
    (hnone : w.session.activeWorkItemId = none) (hunarchived : w.unarchived item)
    (hwork : item.status = .pending ∨ permit.work) :
    u.Changes permit fresh (w.activate item.id) :=
  h.tail (.activate w item hitem hphase hnone hunarchived hpick hwork)

/-- The active item is put aside, or ends. -/
theorem Changes.release (h : u.Changes permit fresh w) (hitem : item ∈ w.items.rows)
    (hpick : permit.pick) (hcurrent : w.session.activeWorkItemId = some item.id)
    {status : ItemStatus} (hstatus : status ≠ .active)
    (hwork : status = .pending → item.recognitionStatus ≠ .notStarted) :
    u.Changes permit fresh (w.release item.id status) :=
  h.tail (.release w item hitem hcurrent status hstatus hpick hwork)

/-- A recognition that a change of the item records. -/
theorem attempted_setItem (change : OrderIntakeItem → OrderIntakeItem)
    (hid : ∀ item, (change item).id = item.id) (hitem : item ∈ w.items.rows)
    (hstarted : (change item).recognitionStatus ≠ .notStarted) :
    (w.setItem item.id change hid).Attempted item.id :=
  ⟨change item, mem_setItem.mpr ⟨item, hitem, if_pos rfl⟩, hid item, hstarted⟩

end Workspace

theorem reply_newRun {call : Call} {w : Workspace} {id : Id} {trigger : Trigger}
    (h : trigger.kind ≠ .message) : (newRun call w id trigger).reply = none :=
  if_neg h

variable {call : Call} {db db' : AgentDb} {permit : Permit} {fresh : Id → Prop}
  {w w' : Workspace}

/-! ### The review -/

/-- The selection of the next recognised item, when none is active. -/
theorem selectReady_changes (hpick : permit.pick) (hnone : w.session.activeWorkItemId = none) :
    w.Changes permit fresh (w.selectReady call) := by
  unfold Workspace.selectReady
  cases hfirst : w.firstItem (fun item ↦
      item.status = .pending ∧ item.recognitionStatus = .succeeded) with
  | none => exact .refl
  | some item =>
    obtain ⟨hitem, hunarchived, hcondition⟩ := Workspace.firstItem_eq_some hfirst
    rw [decide_eq_true_eq] at hcondition
    have hphase : item.status.phase = .waiting := by
      rw [hcondition.1]
      rfl
    exact (((Workspace.Changes.activate .refl hitem hpick hphase hnone hunarchived
      (Or.inl hcondition.1)).reviseItem item.id).append call _ rfl (by decide))

/-- The review goes on. -/
theorem advanceReview_changes (hpick : permit.pick) (h : advanceReview call w = .ok w') :
    w.Changes permit fresh w' := by
  unfold advanceReview at h
  cases hcurrent : w.session.activeWorkItemId with
  | none =>
    rw [hcurrent] at h
    obtain rfl := Except.ok.inj h
    exact selectReady_changes hpick hcurrent
  | some id =>
    rw [hcurrent] at h
    cases hfind : w.items.find? id with
    | none =>
      simp only [hfind] at h
      cases h
    | some current =>
      simp only [hfind] at h
      split_ifs at h with hfailed
      · obtain rfl := Except.ok.inj h
        exact .refl
      · obtain rfl := Except.ok.inj h
        obtain ⟨hitem, rfl⟩ := (Table.find?_eq_some_iff _).mp hfind
        have hwork : current.recognitionStatus ≠ .notStarted := by
          rw [not_not] at hfailed
          rw [hfailed]
          decide
        have hrelease : w.Changes permit fresh ((w.release current.id .pending).reviseItem
            current.id) :=
          (Workspace.Changes.release .refl hitem hpick hcurrent (by decide)
            fun _ ↦ hwork).reviseItem current.id
        exact hrelease.trans (selectReady_changes hpick rfl)

/-! ### The failure of a recognition -/

/-- The item of the run as a recorded failure leaves it. -/
theorem recordFailure_changes {run : AgentRun} (h : recordFailure call run w = .ok w') :
    w.Changes permit fresh w' := by
  unfold recordFailure at h
  split at h
  · obtain rfl := Except.ok.inj h
    exact .refl
  · next itemId _ =>
    cases hfind : w.items.find? itemId with
    | none =>
      simp only [hfind] at h
      cases h
    | some item =>
      simp only [hfind] at h
      split_ifs at h
      · obtain rfl := Except.ok.inj h
        exact .refl
      · obtain rfl := Except.ok.inj h
        obtain ⟨hitem, rfl⟩ := (Table.find?_eq_some_iff _).mp hfind
        refine .tail ?_ (.append _ .system call .recognitionFailed _
          { runId := some run.id, workItemId := some item.id } rfl (Or.inl rfl)
          fun _ itemId hid ↦ ?_)
        · refine Workspace.Changes.editItem .refl _ _ _ fun _ ↦ ⟨?_, ?_, ?_, ?_, fun _ ↦ ?_⟩ <;>
            simp [OrderIntakeItem.origin]
        · obtain rfl := Option.some.inj hid
          exact Workspace.attempted_setItem _ _ hitem (by simp)

/-- The failure of a run is on its item, when failures are recorded for recognitions that were
made. -/
theorem recordFailure_attempted {run : AgentRun} (htraced : w.Traced) {itemId : Id}
    (hfailed : run.status = .failed) (hitem : run.workItemId = some itemId)
    (h : recordFailure call run w = .ok w') : w'.Attempted itemId := by
  unfold recordFailure at h
  rw [if_pos hfailed, hitem] at h
  cases hfind : w.items.find? itemId with
  | none =>
    simp only [hfind] at h
    cases h
  | some item =>
    simp only [hfind] at h
    obtain ⟨hmem, rfl⟩ := (Table.find?_eq_some_iff _).mp hfind
    split_ifs at h with hrecorded
    · obtain rfl := Except.ok.inj h
      rcases hrecorded with hsucceeded | hrecorded
      · refine ⟨item, hmem, rfl, ?_⟩
        rw [hsucceeded]
        decide
      · obtain ⟨event, hevent, hcondition⟩ := List.any_eq_true.mp hrecorded
        obtain ⟨hkind, -, hevent'⟩ := of_decide_eq_true hcondition
        exact htraced.failures event hevent hkind item.id hevent'
    · obtain rfl := Except.ok.inj h
      exact Workspace.attempted_setItem (fun item ↦
        { item with
          recognitionStatus := .failed, lastErrorCode := run.errorCode
          revision := item.revision + 1 }) (fun _ ↦ rfl) hmem (by simp)

/-! ### A further run -/

/-- The command is the one that follows a run. -/
def AgentCommand.Follows (runId : Id) (command : AgentCommand) : Prop :=
  (∃ itemId, command.requestHash = .recognizeAfter runId itemId) ∧
    command.idempotencyKey = recognizeAfterKey runId

theorem nextScreenshot_eq_some {pending : OrderIntakeItem} (h : w.nextScreenshot = some pending) :
    pending ∈ w.items.rows ∧ w.Awaits pending := by
  unfold Workspace.nextScreenshot at h
  have hmem := List.mem_filter.mp (mem_of_firstBy_eq_some h)
  rw [Bool.and_eq_true, decide_eq_true_eq] at hmem
  exact hmem

theorem queueRecognition_makes {runId : Id} {pending : OrderIntakeItem} (hqueue : permit.queue)
    (hidle : w.Idle) (hactive : w.session.status = .active) (hpending : pending ∈ w.items.rows)
    (h : queueRecognition call runId pending w db = .ok w' db') :
    Makes (AgentCommand.Follows runId) permit db db' w w' := by
  unfold queueRecognition at h
  obtain ⟨commandId, db₁, hcommandId, h⟩ := bind_eq_ok.mp h
  obtain ⟨followingId, db₂, hfollowingId, h⟩ := bind_eq_ok.mp h
  obtain ⟨w₁, hrun, h⟩ := checked_bind_eq_ok.mp h
  obtain ⟨_, db₃, hcommand, h⟩ := bind_eq_ok.mp h
  obtain ⟨rfl, rfl⟩ := pure_eq_ok.mp h
  have hfirst : Prepares (AgentCommand.Follows runId) permit db db₁ :=
    prepares_generateId hcommandId
  have hsecond := hfirst.trans (prepares_generateId hfollowingId)
  have hfresh : Fresh db db₂ followingId := hfirst.fresh_left (fresh_generateId hfollowingId)
  have hchanges : w.Changes permit (Fresh db db₂) w₁ :=
    Workspace.Changes.addRun .refl hrun hqueue hfresh hidle hactive
      (Or.inl (reply_newRun (by simp))) rfl rfl rfl rfl fun _ ↦ ⟨pending, hpending, rfl⟩
  refine Makes.prepare ⟨hsecond, hchanges.append call _ rfl (by decide)⟩
    (prepares_addCommand hcommand ?_)
  exact ⟨⟨pending.id, rfl⟩, rfl⟩

/-- After a run has ended items may move, and a further run may be queued. -/
theorem continueRecognition_makes {run : AgentRun} (hqueue : permit.queue) (hpick : permit.pick)
    (hidle : w.Idle) (h : continueRecognition call run w db = .ok w' db') :
    Makes (AgentCommand.Follows run.id) permit db db' w w' := by
  unfold continueRecognition at h
  split_ifs at h with hskip
  · obtain ⟨rfl, rfl⟩ := pure_eq_ok.mp h
    exact .refl db w
  · rw [not_or, not_not] at hskip
    obtain ⟨w₁, hrecord, h⟩ := checked_bind_eq_ok.mp h
    refine Makes.trans ⟨.refl db, recordFailure_changes hrecord⟩ ?_
    -- The record touches neither the runs nor the status.
    have hrecorded : w.Changes {} (fun _ ↦ False) w₁ := recordFailure_changes hrecord
    cases hnext : w₁.nextScreenshot with
    | some pending =>
      simp only [hnext] at h
      refine queueRecognition_makes hqueue ?_ ?_ (nextScreenshot_eq_some hnext).1 h
      · unfold Workspace.Idle
        rw [hrecorded.jobs_eq (fun h ↦ h) (fun h ↦ h)]
        exact hidle
      · exact (hrecorded.status_eq fun h ↦ h).trans hskip.2
    | none =>
      simp only [hnext] at h
      obtain ⟨hadvance, rfl⟩ := checked_eq_ok.mp h
      exact ⟨.refl db, advanceReview_changes hpick hadvance⟩

end FilmOS.Agent
