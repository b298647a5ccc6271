import FilmOS.Agent.Continuation

/-!
# The chain of recognitions

The end of a run of the recognition queue enters the run of the next screenshot, whose end enters
the next one, and so on. Three things keep the chain from going on for ever or from stopping early.
When such a run has succeeded or failed, a recognition was made on its item (`Workspace.Worked`): a
failure is recorded on the item by the run itself or by its end, and a result comes from a
recognition that succeeded (`Faithful`, which is assumed of the executors). The end of the run
leaves the run of a screenshot that waits, or no screenshot that waits (`Workspace.Served`). And as
long as a run is open no further screenshot comes to wait, so each run of the chain leaves fewer of
them than the one before (`recognition_chain`).
-/

set_option autoImplicit false
set_option relaxedAutoImplicit false

namespace FilmOS.Agent

open Transaction AgentDb

variable {call : Call} {later : Time} {db db' : AgentDb} {permit : Permit} {fresh : Id → Prop}
  {w w' : Workspace} {run : AgentRun}

/-! ### Items that were worked on -/

/-- A run has ended by itself: it was not cancelled. -/
def RunStatus.Finished (status : RunStatus) : Prop := status = .succeeded ∨ status = .failed

instance (status : RunStatus) : Decidable status.Finished := inferInstanceAs (Decidable (_ ∨ _))

/-- A run of the recognition queue has finished. -/
def AgentRun.Recognized (run : AgentRun) : Prop :=
  run.config.intakeWorkbench = true ∧ run.status.Finished

namespace Workspace

/-- On the items of the finished runs of the recognition queue, all but one of them, a recognition
was made. -/
def WorkedBut (skipped : Option Id) (w : Workspace) : Prop :=
  ∀ run ∈ w.runs.rows, skipped ≠ some run.id → run.Recognized →
    ∀ itemId ∈ run.workItemId, w.Attempted itemId

/-- On the items of the finished runs of the recognition queue a recognition was made. -/
abbrev Worked (w : Workspace) : Prop := w.WorkedBut none

/-- Where a finished run comes from in a change, when no run may end: it had finished before. -/
theorem Change.finished_origin (h : Change permit fresh w w') (hruns : ¬ permit.runs)
    {later : AgentRun} (hlater : later ∈ w'.runs.rows) (hfinished : later.Recognized) :
    ∃ run ∈ w.runs.rows, run.id = later.id ∧ run.Recognized ∧
      ∀ itemId ∈ later.workItemId, itemId ∈ run.workItemId := by
  cases h with
  | markRun id change hid hmarks hjob hended hplan =>
    obtain ⟨run, hrun, rfl⟩ := mem_setRun.mp hlater
    refine ⟨run, hrun, ?_⟩
    by_cases hkey : run.id = id
    · rw [if_pos hkey] at hfinished ⊢
      have hstage := congrArg Job.stage (hjob.resolve_right hruns run)
      have hstatus : (change run).status = run.status := RunStatus.stage_injective hstage
      obtain ⟨hid', -, -, hitem, hconfig⟩ := hmarks run
      refine ⟨hid'.symm, ⟨hconfig ▸ hfinished.1, hstatus ▸ hfinished.2⟩, fun itemId hitemId ↦ ?_⟩
      rwa [← hitem]
    · rw [if_neg hkey] at hfinished ⊢
      exact ⟨rfl, hfinished, fun _ h ↦ h⟩
  | addRun run runs hinsert hqueue hfresh hstatus =>
    have hrows := ((Table.insert?_eq_some_iff _ _ _).mp hinsert).2
    change later ∈ runs.rows at hlater
    rw [hrows] at hlater
    rcases List.mem_append.mp hlater with hold | hlast
    · exact ⟨later, hold, rfl, hfinished, fun _ h ↦ h⟩
    · rw [List.mem_singleton.mp hlast] at hfinished
      rcases hfinished.2 with hended | hended
      · rw [hstatus] at hended
        cases hended
      · rw [hstatus] at hended
        cases hended
  | removeScreenshot attachmentId =>
    obtain ⟨run, hrun, rfl⟩ := mem_runs_removeScreenshot.mp hlater
    refine ⟨run, hrun, rfl, ⟨?_, hfinished.2⟩, fun itemId h ↦ (Option.filter_eq_some_iff.mp h).1⟩
    have hworkbench := hfinished.1
    dsimp only at hworkbench
    split_ifs at hworkbench
    · exact hworkbench
    · exact hworkbench
  | _ => exact ⟨later, hlater, rfl, hfinished, fun _ h ↦ h⟩

/-- Every change in which no run may end keeps what was worked on. -/
theorem Change.workedBut (h : Change permit fresh w w') (hruns : ¬ permit.runs)
    {skipped : Option Id} (hworked : w.WorkedBut skipped) : w'.WorkedBut skipped := by
  intro later hlater hskipped hfinished itemId hitem
  obtain ⟨run, hrun, hid, hold, hitems⟩ := h.finished_origin hruns hlater hfinished
  have hattempted := hworked run hrun (hid ▸ hskipped) hold itemId (hitems itemId hitem)
  rcases h.attempted hattempted with hattempted | hforgotten
  · exact hattempted
  · exact absurd hitem (hforgotten.2 later hlater)

theorem Changes.workedBut (h : Changes permit fresh w w') (hruns : ¬ permit.runs)
    {skipped : Option Id} (hworked : w.WorkedBut skipped) : w'.WorkedBut skipped := by
  induction h with
  | refl => exact hworked
  | tail _ hchange ih => exact hchange.workedBut hruns ih

end Workspace

/-! ### The end of a run -/

/-- What becomes of a session in a step: what was worked on stays so, and the end of a run of the
recognition queue serves the next screenshot. -/
structure Workspace.Chains (w w' : Workspace) : Prop where
  worked : w.Worked → w'.Worked
  ended : ∀ run ∈ w.runs.rows, run.status.IsOpen → ∀ run' ∈ w'.runs.rows, run'.id = run.id →
    run'.Recognized → run'.workItemId = run.workItemId ∧ w'.Served

theorem RunStatus.not_finished_of_isOpen {status : RunStatus} (h : status.IsOpen) :
    ¬ status.Finished := by
  rcases h with rfl | rfl
  · decide
  · decide

theorem Workspace.Chains.refl (w : Workspace) : w.Chains w where
  worked h := h
  ended run hrun hopen run' hrun' hid hrecognized := by
    obtain rfl := w.runs.eq_of_key_eq hrun' hrun hid
    exact absurd hrecognized.2 (RunStatus.not_finished_of_isOpen hopen)

/-- The rows of a session after its open run was marked in some way. -/
structure Workspace.Marks (w v : Workspace) (run marked : AgentRun) : Prop where
  id : marked.id = run.id
  item : marked.workItemId = run.workItemId
  config : marked.config = run.config
  finished : marked.status.Finished
  runs : ∀ row, row ∈ v.runs.rows ↔ row = marked ∨ row ∈ w.runs.rows ∧ row.id ≠ run.id
  items : v.items = w.items

/-- The marked run aside, what was worked on stays so. -/
theorem Workspace.Marks.workedBut {v : Workspace} {marked : AgentRun} (h : w.Marks v run marked)
    (hworked : w.Worked) : v.WorkedBut (some run.id) := by
  intro row hrow hskipped hrecognized itemId hitem
  rcases (h.runs row).mp hrow with rfl | ⟨hold, -⟩
  · exact absurd (congrArg some h.id.symm) hskipped
  · obtain ⟨item, hmem, hid, hstarted⟩ := hworked row hold (fun h ↦ by cases h) hrecognized itemId
      hitem
    exact ⟨item, h.items ▸ hmem, hid, hstarted⟩

theorem marks_setRun (hrun : run ∈ w.runs.rows) (change : AgentRun → AgentRun)
    (hid : ∀ run, (change run).id = run.id) (row : AgentRun) :
    row ∈ (w.setRun run.id change hid).runs.rows ↔
      row = change run ∨ row ∈ w.runs.rows ∧ row.id ≠ run.id := by
  rw [Workspace.mem_setRun]
  constructor
  · rintro ⟨old, hold, rfl⟩
    by_cases hkey : old.id = run.id
    · rw [if_pos hkey, w.runs.eq_of_key_eq hold hrun hkey]
      exact Or.inl rfl
    · rw [if_neg hkey]
      exact Or.inr ⟨hold, hkey⟩
  · rintro (rfl | ⟨hold, hkey⟩)
    · exact ⟨run, hrun, if_pos rfl⟩
    · exact ⟨row, hold, if_neg hkey⟩

/-- After its run was marked, the session goes on. -/
theorem Workspace.Marks.chains {v u : Workspace} {marked : AgentRun} (h : w.Marks v run marked)
    (hsound : w.Sound) (hrun : run ∈ w.runs.rows) (hopen : run.status.IsOpen) (hidle : v.Idle)
    (hactive : v.session.status = .active)
    (hattempted : marked.config.intakeWorkbench = true → ∀ w₁, recordFailure call marked v =
      .ok w₁ → ∀ itemId ∈ marked.workItemId, w₁.Attempted itemId)
    (hcontinue : continueRecognition call marked v db = .ok u db') :
    w.Chains u := by
  have honly : ∀ other ∈ w.runs.rows, other.status.IsOpen → other = run :=
    fun other hother hopen' ↦ hsound.runsSound.one_open other hother run hrun hopen' hopen
  by_cases hworkbench : marked.config.intakeWorkbench = true
  · obtain ⟨hkept, hserved, w₁, hrecord, hchanges⟩ :=
      continueRecognition_leaves hidle hactive hworkbench hcontinue
    constructor
    · intro hworked
      have hrecorded : v.Changes {} (fun _ ↦ False) w₁ := recordFailure_changes hrecord
      have hbut := hrecorded.workedBut (fun h ↦ h) (h.workedBut hworked)
      refine hchanges.workedBut (fun h ↦ h) fun row hrow hskipped hrecognized itemId hitem ↦ ?_
      by_cases hkey : row.id = run.id
      · rw [runs_recordFailure hrecord] at hrow
        rcases (h.runs row).mp hrow with rfl | ⟨-, hne⟩
        · exact hattempted hworkbench w₁ hrecord itemId hitem
        · exact absurd hkey hne
      · exact hbut row hrow (fun h ↦ hkey (Option.some.inj h).symm) hrecognized itemId hitem
    · intro other hother hopen' run' hrun' hid hrecognized
      obtain rfl := honly other hother hopen'
      have hmarked : marked ∈ u.runs.rows := hkept marked ((h.runs marked).mpr (Or.inl rfl))
      obtain rfl := u.runs.eq_of_key_eq hrun' hmarked (hid.trans h.id.symm)
      exact ⟨h.item, hserved⟩
  · unfold continueRecognition at hcontinue
    rw [if_pos (Or.inl (Bool.eq_false_of_not_eq_true hworkbench))] at hcontinue
    obtain ⟨rfl, rfl⟩ := pure_eq_ok.mp hcontinue
    constructor
    · intro hworked row hrow hskipped hrecognized itemId hitem
      rcases (h.runs row).mp hrow with rfl | ⟨-, hne⟩
      · exact absurd hrecognized.1 hworkbench
      · exact h.workedBut hworked row hrow (fun h ↦ hne (Option.some.inj h).symm) hrecognized itemId
          hitem
    · intro other hother hopen' run' hrun' hid hrecognized
      obtain rfl := honly other hother hopen'
      rcases (h.runs run').mp hrun' with rfl | ⟨-, hne⟩
      · exact absurd hrecognized.1 hworkbench
      · exact absurd hid hne

theorem marks_markFailed (hrun : run ∈ w.runs.rows) (code message : String) :
    w.Marks (w.markFailed call later run code message) run (failedRun later code message run) where
  id := rfl
  item := rfl
  config := rfl
  finished := Or.inr rfl
  runs row := by
    have hruns : (w.markFailed call later run code message).runs =
        (w.setRun run.id (failedRun later code message) (id_failedRun later code message)).runs :=
      (rows_abandonCalls run.id code _).1
    rw [hruns]
    exact marks_setRun hrun (failedRun later code message) _ row
  items := (rows_abandonCalls run.id code _).2.1

/-- A run that fails has its failure on its item. -/
theorem chains_failLocked (hsound : db.Sound) (hw : w ∈ db.workspaces.rows)
    (hrun : run ∈ w.runs.rows) (hopen : run.status.IsOpen) {code message : String}
    (h : failLocked call later w run code message db = .ok w' db') :
    w.Chains w' ∧ w'.session.id = w.session.id ∧ db'.workspaces = db.workspaces := by
  have hsoundw := hsound.workspace w hw
  obtain ⟨v, hcontinue, rfl⟩ := failLocked_eq_ok.mp h
  have hmarked : w.Changes .worker (fun _ ↦ False) (w.markFailed call later run code message) :=
    markFailed_changes trivial
  have hjobs : (w.markFailed call later run code message).dispatch.jobs =
      (w.dispatch.setJob run.id (.ended .failed) none).jobs := by
    rw [dispatch_markFailed]
  have hactive : w.session.status = .active := by
    refine hsoundw.attended.resolve_left fun hidle ↦ ?_
    exact Workspace.isOpen_of_job hrun hidle hopen
  have hidle := idle_of_marked hsoundw hrun hopen hjobs
  have hchains : w.Chains v := by
    refine (marks_markFailed hrun code message).chains hsoundw hrun hopen hidle
      ((hmarked.status_eq fun h ↦ h).trans hactive) ?_ hcontinue
    intro _ w₁ hrecord itemId hitem
    exact recordFailure_attempted (hmarked.traced hsoundw.traced) rfl hitem hrecord
  have hmakes : Makes (AgentCommand.Follows (failedRun later code message run).id) .following db db'
      (w.markFailed call later run code message) v :=
    continueRecognition_makes trivial trivial hidle hcontinue
  exact ⟨⟨hchains.worked, hchains.ended⟩, hmakes.changes.owner.1.trans hmarked.owner.1,
    hmakes.prepares.workspaces⟩

/-- A run that succeeded records no failure. -/
theorem recordFailure_of_succeeded (h : run.status = .succeeded) :
    recordFailure call run w = .ok w := by
  unfold recordFailure
  rw [if_neg]
  rw [h]
  decide

/-! ### The steps -/

/-- The executors return a result for a run of the recognition queue only when the recognition of
its item succeeded. -/
def Faithful (db : AgentDb) (input : AgentInput) : Prop :=
  ∀ context result, input.op = .finalize context result → ∀ w ∈ db.workspaces.rows,
    ∀ run ∈ w.runs.rows, w.session.id = context.sessionId → run.id = context.runId →
      Holds context input.call.now w run → run.config.intakeWorkbench = true →
        ∀ itemId ∈ run.workItemId, ∃ item ∈ w.items.rows, item.id = itemId ∧
          item.recognitionStatus = .succeeded

/-- What becomes of all sessions in a step. -/
def AgentDb.Chains (db db' : AgentDb) : Prop :=
  ∀ w' ∈ db'.workspaces.rows,
    (∃ w ∈ db.workspaces.rows, w'.session.id = w.session.id ∧ w.Chains w') ∨
      w'.session.id ∉ db.board.issued ∧ w'.Worked

theorem AgentDb.Chains.refl (db : AgentDb) : db.Chains db :=
  fun w hw ↦ Or.inl ⟨w, hw, rfl, .refl w⟩

/-- One session is saved. -/
theorem AgentDb.Chains.put (hw : w ∈ db.workspaces.rows) (h : w.Chains w')
    (hid : w'.session.id = w.session.id) (hdb : db'.workspaces = db.workspaces.put w') :
    db.Chains db' := by
  intro u hu
  rw [hdb] at hu
  rcases (Table.mem_put _).mp hu with rfl | ⟨hold, -⟩
  · exact Or.inl ⟨w, hw, hid, h⟩
  · exact Or.inl ⟨u, hold, rfl, .refl u⟩

/-- Without a permit for the end of runs no run finishes, and what was worked on stays so. -/
theorem AgentDb.Progress.chains (hsound : db.Sound) (h : Progress permit db db')
    (hruns : ¬ permit.runs) : db.Chains db' := by
  intro w' hw'
  rcases h.evolves w' hw' with ⟨w, hw, hevolves⟩ | ⟨session, hfresh, -, hevolves⟩
  · refine Or.inl ⟨w, hw, hevolves.session_id, hevolves.changes.workedBut hruns, ?_⟩
    intro run hrun hopen run' hrun' hid hrecognized
    obtain ⟨-, -, hqueues⟩ := hevolves.changes.dispatch hruns
    have hmem : run'.job ∈ w.dispatch.jobs := by
      refine hqueues.mem (List.mem_map_of_mem hrun') ?_
      exact List.mem_map.mpr ⟨run.job, List.mem_map_of_mem hrun, hid.symm⟩
    have hjob : run'.job = run.job :=
      List.inj_on_of_nodup_map (hsound.workspace w hw).dispatch.ids_nodup hmem
        (List.mem_map_of_mem hrun) hid
    have hstatus : run'.status = run.status := RunStatus.stage_injective (congrArg Job.stage hjob)
    exact absurd (hstatus ▸ hrecognized.2) (RunStatus.not_finished_of_isOpen hopen)
  · refine Or.inr ⟨hevolves.session_id ▸ hfresh.1, ?_⟩
    exact hevolves.changes.workedBut hruns fun _ h ↦ absurd h List.not_mem_nil

/-- A run is marked in a way that does not finish it, and nothing else changes. -/
theorem chains_of_unfinished {v : Workspace} {marked : AgentRun}
    (hrows : ∀ row, row ∈ v.runs.rows ↔ row = marked ∨ row ∈ w.runs.rows ∧ row.id ≠ run.id)
    (hitems : v.items = w.items) (hmarked : ¬ marked.status.Finished) : w.Chains v := by
  constructor
  · intro hworked row hrow hskipped hrecognized itemId hitem
    rcases (hrows row).mp hrow with rfl | ⟨hold, -⟩
    · exact absurd hrecognized.2 hmarked
    · unfold Workspace.Attempted
      rw [hitems]
      exact hworked row hold hskipped hrecognized itemId hitem
  · intro other hother hopen run' hrun' hid hrecognized
    rcases (hrows run').mp hrun' with rfl | ⟨hold, -⟩
    · exact absurd hrecognized.2 hmarked
    · obtain rfl := w.runs.eq_of_key_eq hold hother hid
      exact absurd hrecognized.2 (RunStatus.not_finished_of_isOpen hopen)

/-- A run that is leased stays open. -/
theorem chains_claimed (hrun : run ∈ w.runs.rows) (now : Time) (workerId : String) (token : Id) :
    w.Chains ((w.setRun run.id (claimedRun now workerId token)).append call .runStarted []
      { runId := some run.id }) :=
  chains_of_unfinished (marks_setRun hrun (claimedRun now workerId token) fun _ ↦ rfl) rfl
    (RunStatus.not_finished_of_isOpen (Or.inr rfl))

theorem chains_claim (hsound : db.Sound) {workerId : String} {candidates skipped : List Id}
    {claimed : Option RunContext}
    (h : claim call later workerId candidates skipped db = .ok claimed db') : db.Chains db' := by
  unfold claim at h
  simp only [get_bind_eq_ok] at h
  cases hclaimable : claimable db candidates skipped with
  | none =>
    simp only [hclaimable, pure_eq_ok] at h
    obtain ⟨-, rfl⟩ := h
    exact .refl _
  | some w =>
    simp only [hclaimable] at h
    obtain ⟨hw, -⟩ := mem_claimable hclaimable
    obtain ⟨run, hfind, h⟩ := orRaise_bind_eq_ok.mp h
    have hrun := List.mem_of_find?_eq_some hfind
    have hqueued : run.status = .queued := by simpa using List.find?_some hfind
    split_ifs at h
    · obtain ⟨w', db₁, hfail, h⟩ := bind_eq_ok.mp h
      obtain ⟨_, db₂, hsave, h⟩ := bind_eq_ok.mp h
      obtain rfl := save_eq_ok.mp hsave
      obtain ⟨-, rfl⟩ := pure_eq_ok.mp h
      obtain ⟨hchains, hid, hworkspaces⟩ :=
        chains_failLocked hsound hw hrun (Or.inl hqueued) hfail
      exact .put hw hchains hid (congrArg (Table.put · w') hworkspaces)
    · obtain ⟨token, db₁, htoken, h⟩ := bind_eq_ok.mp h
      obtain ⟨_, db₂, hsave, h⟩ := bind_eq_ok.mp h
      obtain rfl := save_eq_ok.mp hsave
      obtain ⟨-, rfl⟩ := pure_eq_ok.mp h
      obtain ⟨-, rfl⟩ := generateId_eq_ok.mp htoken
      exact .put hw (chains_claimed hrun call.now workerId token) rfl rfl

theorem chains_failRun (hsound : db.Sound) {context : RunContext} {code message : String} {u : Unit}
    (h : failRun call later context code message db = .ok u db') : db.Chains db' := by
  unfold failRun at h
  obtain ⟨⟨w, run⟩, db₁, hlock, h⟩ := bind_eq_ok.mp h
  obtain ⟨⟨hw, -⟩, ⟨hrun, -⟩, hholds, rfl⟩ := lockRun_eq_ok.mp hlock
  obtain ⟨w', db₂, hfail, h⟩ := bind_eq_ok.mp h
  obtain rfl := save_eq_ok.mp h
  obtain ⟨hchains, hid, hworkspaces⟩ := chains_failLocked hsound hw hrun hholds.isOpen hfail
  exact .put hw hchains hid (congrArg (Table.put · w') hworkspaces)

/-- A run that succeeds has recognised its item, when the executors are faithful. -/
theorem chains_finalize (hsound : db.Sound) {context : RunContext} {result : RunResult}
    {messageId : Id} (hfaithful : Faithful db ⟨call, later, .finalize context result⟩)
    (h : finalize call later context result db = .ok messageId db') : db.Chains db' := by
  obtain ⟨w, run, db₁, v, db₂, _, hlock, hid, hcontinue, rfl, rfl⟩ := finalize_ok h
  obtain ⟨⟨hw, hsession⟩, ⟨hrun, hrunId⟩, hholds, -⟩ := lockRun_eq_ok.mp hlock
  have hsoundw := hsound.workspace w hw
  have hopen := hholds.isOpen
  have hfresh := fresh_generateId hid
  have hnew : ¬ w.Uses messageId := fun huses ↦ hfresh.1 (hsound.issued w hw _ huses)
  have hmarked : w.Changes .worker (Fresh db db₁)
      (w.markSucceeded call later run messageId result) :=
    markSucceeded_changes trivial hfresh hnew
  have hjobs : (w.markSucceeded call later run messageId result).dispatch.jobs =
      (w.dispatch.setJob run.id (.ended .succeeded) none).jobs := by
    rw [dispatch_markSucceeded]
  have hidle := idle_of_marked hsoundw hrun hopen hjobs
  have hmarks : w.Marks (w.markSucceeded call later run messageId result) run
      (succeededRun later result.outcome messageId run) :=
    ⟨rfl, rfl, rfl, Or.inl rfl,
      marks_setRun hrun (succeededRun later result.outcome messageId) (fun _ ↦ rfl), rfl⟩
  have hchains : w.Chains v := by
    refine hmarks.chains hsoundw hrun hopen hidle
      ((hmarked.status_eq fun h ↦ h).trans hholds.active) ?_ hcontinue
    intro hworkbench w₁ hrecord itemId hitem
    obtain ⟨item, hmem, hitemId, hsucceeded⟩ :=
      hfaithful context result rfl w hw run hrun hsession hrunId hholds hworkbench itemId hitem
    rw [recordFailure_of_succeeded rfl] at hrecord
    obtain rfl := Except.ok.inj hrecord
    refine ⟨item, hmem, hitemId, ?_⟩
    rw [hsucceeded]
    decide
  have hmakes : Makes (AgentCommand.Follows (succeededRun later result.outcome messageId run).id)
      .following db₁ db₂ (w.markSucceeded call later run messageId result) v :=
    continueRecognition_makes trivial trivial hidle hcontinue
  have hprepared : db₁.workspaces = db.workspaces := by
    rw [(generateId_eq_ok.mp hid).2]
  have hfinal : w.Chains ((v.revise.append call .runSucceeded
      [("outcome", .text result.outcome.text), ("message_id", .text messageId)]
      { runId := some run.id }).announce call) := ⟨hchains.worked, hchains.ended⟩
  exact .put hw hfinal (hmakes.changes.owner.1.trans hmarked.owner.1)
    (congrArg (Table.put · _) (hmakes.prepares.workspaces.trans hprepared))

/-- The watchdog ends a run of the session, or leaves the session; it leaves the others in any
case. -/
theorem chains_expireSession (hsound : db.Sound) {sessionId : Id} {count : ℕ}
    (h : expireSession call later sessionId db = .ok count db') :
    ∀ w' ∈ db'.workspaces.rows, ∃ w ∈ db.workspaces.rows, w'.session.id = w.session.id ∧
      w.Chains w' ∧ (w.session.id ≠ sessionId → w' = w) := by
  rcases expireSession_ok h with
    rfl | ⟨w, run, code, message, v, db₁, ⟨hw, hid⟩, hrun, hopen, hfail, rfl⟩
  · exact fun u hu ↦ ⟨u, hu, rfl, .refl u, fun _ ↦ rfl⟩
  · obtain ⟨hchains, hsession, hworkspaces⟩ := chains_failLocked hsound hw hrun hopen hfail
    intro u hu
    have hput : u ∈ (db.workspaces.put v).rows := by
      rwa [← hworkspaces]
    rcases (Table.mem_put _).mp hput with rfl | ⟨hold, -⟩
    · exact ⟨w, hw, hsession, hchains, fun hne ↦ absurd hid hne⟩
    · exact ⟨u, hold, rfl, .refl u, fun _ ↦ rfl⟩

/-- Every session is ended at most once by the watchdog. -/
theorem chains_expireSessions (sessionIds : List Id) : ∀ {db db' : AgentDb} {count : ℕ}, db.Sound →
    sessionIds.Nodup → expireSessions call later sessionIds db = .ok count db' →
      ∀ w' ∈ db'.workspaces.rows, ∃ w ∈ db.workspaces.rows, w'.session.id = w.session.id ∧
        w.Chains w' ∧ (w.session.id ∉ sessionIds → w' = w) := by
  induction sessionIds with
  | nil =>
    intro db db' count _ _ h
    obtain ⟨-, rfl⟩ := pure_eq_ok.mp h
    exact fun w hw ↦ ⟨w, hw, rfl, .refl w, fun _ ↦ rfl⟩
  | cons sessionId sessionIds ih =>
    intro db db' count hsound hnodup h w' hw'
    obtain ⟨first, db₁, hfirst, h⟩ := bind_eq_ok.mp h
    obtain ⟨rest, db₂, hrest, h⟩ := bind_eq_ok.mp h
    obtain ⟨-, rfl⟩ := pure_eq_ok.mp h
    obtain ⟨hnew, hnodup⟩ := List.nodup_cons.mp hnodup
    have hsound₁ := hsound.progress (progress_expireSession hsound hfirst)
    obtain ⟨v, hv, hvid, hlater, hlaterSame⟩ := ih hsound₁ hnodup hrest w' hw'
    obtain ⟨w, hw, hwid, hearlier, hearlierSame⟩ := chains_expireSession hsound hfirst v hv
    refine ⟨w, hw, hvid.trans hwid, ?_, fun hnot ↦ ?_⟩
    · by_cases hthis : w.session.id = sessionId
      · rw [hlaterSame (hwid.trans hthis ▸ hnew)]
        exact hearlier
      · rw [← hearlierSame hthis]
        exact hlater
    · rw [List.mem_cons, not_or] at hnot
      rw [hlaterSame (hwid ▸ hnot.2), hearlierSame hnot.1]

theorem chains_expireRuns (hsound : db.Sound) {limit count : ℕ} {candidates skipped : List Id}
    (h : expireRuns call later limit candidates skipped db = .ok count db') : db.Chains db' := by
  unfold expireRuns at h
  rw [get_bind_eq_ok] at h
  have hnodup : ((orderBy id (db.workspaces.keys.filter (fun sessionId ↦
      sessionId ∈ candidates ∧ sessionId ∉ skipped))).take limit).Nodup := by
    refine List.Nodup.sublist (List.take_sublist _ _) ?_
    exact (orderBy_perm id _).nodup_iff.mpr (db.workspaces.nodup.filter _)
  intro w' hw'
  obtain ⟨w, hw, hid, hchains, -⟩ := chains_expireSessions _ hsound hnodup h w' hw'
  exact Or.inl ⟨w, hw, hid, hchains⟩

/-! ### The deletion of a session -/

/-- The open run of a session that is deleted is cancelled, which is no result. -/
theorem chains_cancelOpenRun (w : Workspace) : w.Chains (cancelOpenRun call w) := by
  unfold cancelOpenRun
  cases hopenRun : w.openRun with
  | none => exact .refl w
  | some run =>
    have hrun : run ∈ w.runs.rows := List.mem_of_find?_eq_some hopenRun
    have hsame : (w.markCancelled call run).runs =
          (w.setRun run.id (cancelledRun call.now) (id_cancelledRun call.now)).runs ∧
        (w.markCancelled call run).items = w.items ∧ _ := rows_abandonCalls run.id _ _
    obtain ⟨hruns, hitems, -⟩ := hsame
    have hcancelled : ¬ (cancelledRun call.now run).status.Finished := by
      show ¬ RunStatus.cancelled.Finished
      decide
    have hrows : ∀ row, row ∈ (w.markCancelled call run).runs.rows ↔
        row = cancelledRun call.now run ∨ row ∈ w.runs.rows ∧ row.id ≠ run.id := by
      rw [hruns]
      exact marks_setRun hrun (cancelledRun call.now) fun _ ↦ rfl
    have hmarked : w.Chains (w.markCancelled call run) :=
      chains_of_unfinished hrows hitems hcancelled
    exact ⟨hmarked.worked, hmarked.ended⟩

theorem chains_deleteSession (hsound : db.Sound) {sessionId userId : Id} {key : String}
    {result : CommandResult}
    (h : changeStatus call sessionId userId key .delete db = .ok result db') : db.Chains db' := by
  unfold changeStatus at h
  rw [get_bind_eq_ok] at h
  cases hold : db.commands.find? (userId, key) with
  | some old =>
    simp only [hold] at h
    obtain ⟨-, h⟩ := require_bind_eq_ok.mp h
    obtain ⟨-, rfl⟩ := pure_eq_ok.mp h
    exact .refl _
  | none =>
    simp only [hold] at h
    obtain ⟨w, db₁, hfound, h⟩ := bind_eq_ok.mp h
    obtain ⟨⟨hw, rfl⟩, -, -, -, rfl⟩ := requireSession_eq_ok.mp hfound
    obtain ⟨commandId, db₂, hcommandId, h⟩ := bind_eq_ok.mp h
    obtain ⟨⟨w₁, kind⟩, db₃, henter, h⟩ := bind_eq_ok.mp h
    obtain ⟨_, db₄, hsave, h⟩ := bind_eq_ok.mp h
    obtain rfl := save_eq_ok.mp hsave
    obtain ⟨_, db₅, hcommand, h⟩ := bind_eq_ok.mp h
    obtain ⟨-, rfl⟩ := pure_eq_ok.mp h
    obtain ⟨_, db₆, hjobs, henter⟩ := bind_eq_ok.mp henter
    obtain ⟨hentered, rfl⟩ := pure_eq_ok.mp henter
    obtain ⟨rfl, rfl⟩ := Prod.mk.inj hentered
    have hfirst : Prepares (fun _ ↦ True) .cleaning db db₂ := prepares_generateId hcommandId
    have hsecond : Prepares (fun _ ↦ True) .cleaning db₂ db₆ := prepares_addGcJobs trivial _ hjobs
    have hlast : Prepares (fun _ ↦ True) .cleaning _ db₅ := prepares_addCommand hcommand trivial
    let v : Workspace := { w with session :=
      { w.session with status := .deleting, deletionRequestedAt := some call.now } }
    have hcancelled : v.Chains (cancelOpenRun call v) := chains_cancelOpenRun v
    have hdispatch : v.dispatch.Sound RunEnd.answered := (hsound.workspace w hw).dispatch
    have hmoves : v.Changes .worker (fun _ ↦ False) (cancelOpenRun call v) :=
      (cancelOpenRun_moves hdispatch trivial).1
    have hchains : w.Chains ((cancelOpenRun call v).revise.appendBy (.user userId) call
        .sessionDeleting [] { commandId := some commandId }) :=
      ⟨hcancelled.worked, hcancelled.ended⟩
    exact .put hw hchains hmoves.owner.1 (hlast.workspaces.trans (congrArg (Table.put · _)
      (hsecond.workspaces.trans hfirst.workspaces)))

/-- Every step chains, when the executors are faithful. -/
theorem chains_step (hsound : db.Sound) {input : AgentInput} (hfaithful : Faithful db input) :
    db.Chains (step db input) := by
  have hcommit : ∀ {α : Type} {body : Txn Failure AgentDb α},
      (∀ a db', body db = .ok a db' → db.Chains db') → db.Chains (commit body db) := by
    intro α body h
    rcases commit_cases body db with heq | ⟨a, db', hok, heq⟩
    · rw [heq]
      exact .refl db
    · rw [heq]
      exact h a db' hok
  have hprogress := progress_step hsound input
  obtain ⟨call, later, op⟩ := input
  cases op with
  | claim => exact hcommit fun _ _ ↦ chains_claim hsound
  | failRun => exact hcommit fun _ _ ↦ chains_failRun hsound
  | finalize => exact hcommit fun _ _ ↦ chains_finalize hsound hfaithful
  | expireRuns => exact hcommit fun _ _ ↦ chains_expireRuns hsound
  | changeStatus sessionId userId key change =>
    by_cases hdelete : change = .delete
    · rw [hdelete]
      exact hcommit fun _ _ ↦ chains_deleteSession hsound
    · exact hprogress.chains hsound hdelete
  | _ => exact hprogress.chains hsound fun h ↦ h

/-! ### From one run of the chain to the next -/

/-- As long as the run that was open is still open it keeps its item, and no further item waits. -/
structure Stays (w₀ : Workspace) (run₀ : AgentRun) (db : AgentDb) : Prop where
  sound : db.Sound
  issued : run₀.id ∈ db.board.issued
  stays : ∀ w ∈ db.workspaces.rows, w.session.id = w₀.session.id → ∀ run ∈ w.runs.rows,
    run.id = run₀.id → run.status.IsOpen →
      run.workItemId = run₀.workItemId ∧ ∀ id ∈ w.awaiting, id ∈ w₀.awaiting

theorem Stays.step {w₀ : Workspace} {run₀ : AgentRun} (h : Stays w₀ run₀ db) (input : AgentInput) :
    Stays w₀ run₀ (step db input) := by
  have hprogress := progress_step h.sound input
  refine ⟨h.sound.step input, hprogress.issued h.issued, ?_⟩
  intro w' hw' hid run' hrun' hrunId hopen'
  obtain ⟨w, hw, hevolves, hkey⟩ := hprogress.evolves_of_run hw' hrun' (hrunId ▸ h.issued)
  obtain ⟨run, hrun, hsame, hopen, hitem, -⟩ :=
    hevolves.changes.open_run (h.sound.workspace w hw).traced hrun' hopen' hkey
  obtain ⟨hfirstItem, hawaiting⟩ :=
    h.stays w hw (hevolves.session_id.symm.trans hid) run hrun (hsame.trans hrunId) hopen
  refine ⟨hitem.trans hfirstItem, fun id hmem ↦ hawaiting id ?_⟩
  exact hevolves.awaiting hrun hopen id hmem

/-! ### Every run of the system -/

/-- In a step, an open run of the recognition queue finishes. -/
structure Finishes (db db' : AgentDb) (w w' : Workspace) (run run' : AgentRun) : Prop where
  before : w ∈ db.workspaces.rows
  after : w' ∈ db'.workspaces.rows
  session : w'.session.id = w.session.id
  mem_before : run ∈ w.runs.rows
  isOpen : run.status.IsOpen
  mem_after : run' ∈ w'.runs.rows
  id : run'.id = run.id
  recognized : run'.Recognized

/-- The session goes on with a screenshot that waits, which no finished run worked on, or with none
that waits. -/
structure Workspace.GoesOn (w : Workspace) : Prop where
  next : ∀ next ∈ w.runs.rows, next.status.IsOpen → ∃ item ∈ w.items.rows, w.Awaits item ∧
    next.workItemId = some item.id ∧
      ∀ done ∈ w.runs.rows, done.Recognized → done.workItemId ≠ some item.id
  rest : (∀ run ∈ w.runs.rows, ¬ run.status.IsOpen) → w.awaiting = []

/-- The chain of recognitions from a state on: it leaves no item of a finished run without a
recognition, it goes on as long as a screenshot waits, and a run whose screenshot waited leaves
fewer of them. -/
structure AgentDb.ChainEnds (db : AgentDb) : Prop where
  worked : ∀ w ∈ db.workspaces.rows, w.Worked
  goesOn : ∀ input, Faithful db input → ∀ w w' run run',
    Finishes db (step db input) w w' run run' → w'.GoesOn
  fewer : ∀ further input, System.Meets step Faithful db (further ++ [input]) →
    ∀ w₀ ∈ db.workspaces.rows, ∀ run₀ ∈ w₀.runs.rows, run₀.status.IsOpen →
      ∀ item ∈ w₀.items.rows, w₀.Awaits item → run₀.workItemId = some item.id →
        ∀ w w' run run', Finishes (System.run step db further)
            (System.run step db (further ++ [input])) w w' run run' →
          w.session.id = w₀.session.id → run.id = run₀.id →
            w'.awaiting.length < w₀.awaiting.length

theorem AgentDb.Chains.worked (h : db.Chains db') (hworked : ∀ w ∈ db.workspaces.rows, w.Worked) :
    ∀ w' ∈ db'.workspaces.rows, w'.Worked := by
  intro w' hw'
  rcases h w' hw' with ⟨w, hw, -, hchains⟩ | ⟨-, hnew⟩
  · exact hchains.worked (hworked w hw)
  · exact hnew

/-- The session whose run finishes is the one that the step changes. -/
theorem AgentDb.Chains.finishes (h : db.Chains db') (hsound : db.Sound) {run' : AgentRun}
    (hfinishes : Finishes db db' w w' run run') :
    run'.workItemId = run.workItemId ∧ w'.Served := by
  rcases h w' hfinishes.after with ⟨v, hv, hid, hchains⟩ | ⟨hnew, -⟩
  · obtain rfl := AgentDb.workspace_eq hv hfinishes.before (hid.symm.trans hfinishes.session)
    exact hchains.ended run hfinishes.mem_before hfinishes.isOpen run' hfinishes.mem_after
      hfinishes.id hfinishes.recognized
  · rw [hfinishes.session] at hnew
    exact absurd (hsound.session_issued w hfinishes.before) hnew

theorem Workspace.Served.goesOn (h : w.Served) (hsound : w.Sound) (hworked : w.Worked) :
    w.GoesOn where
  next next hnext hopen := by
    rcases h with ⟨found, hfound, hfoundOpen, item, hitem, hawaits, hid⟩ | ⟨hidle, -⟩
    · obtain rfl := hsound.runsSound.one_open found hfound next hnext hfoundOpen hopen
      refine ⟨item, hitem, hawaits, hid, fun done hdone hrecognized hsame ↦ ?_⟩
      obtain ⟨attempted, hattempted, hattemptedId, hstarted⟩ :=
        hworked done hdone (fun h ↦ by cases h) hrecognized item.id hsame
      obtain rfl := w.items.eq_of_key_eq hattempted hitem hattemptedId
      exact hstarted hawaits.2.2.2
    · exact absurd hopen (hidle next hnext)
  rest hidle := by
    rcases h with ⟨next, hnext, hopen, -⟩ | ⟨-, hnone⟩
    · exact absurd hopen (hidle next hnext)
    · exact hnone

theorem Workspace.nodup_awaiting (w : Workspace) : w.awaiting.Nodup :=
  w.items.nodup.sublist (List.filter_sublist.map _)

/-- A run whose item waited leaves fewer items that wait. -/
theorem Stays.fewer {w₀ : Workspace} {run₀ : AgentRun} (h : Stays w₀ run₀ db)
    (hchains : db.Chains db') (hprogress : Progress permit db db')
    (hworked : ∀ w ∈ db.workspaces.rows, w.Worked) {item : OrderIntakeItem}
    (hitem : item ∈ w₀.items.rows) (hawaits : w₀.Awaits item)
    (hrun₀ : run₀.workItemId = some item.id) {run' : AgentRun}
    (hfinishes : Finishes db db' w w' run run') (hsession : w.session.id = w₀.session.id)
    (hid : run.id = run₀.id) : w'.awaiting.length < w₀.awaiting.length := by
  obtain ⟨hkept, hawaiting⟩ :=
    h.stays w hfinishes.before hsession run hfinishes.mem_before hid hfinishes.isOpen
  obtain ⟨v, hv, hevolves, hkey⟩ := hprogress.evolves_of_run hfinishes.after hfinishes.mem_after
    (hfinishes.id.trans hid ▸ h.issued)
  obtain rfl := AgentDb.workspace_eq hv hfinishes.before
    (hevolves.session_id.symm.trans hfinishes.session)
  obtain ⟨hsameItem, -⟩ := hchains.finishes h.sound hfinishes
  have hsubset : ∀ id ∈ w'.awaiting, id ∈ w₀.awaiting := fun id hmem ↦
    hawaiting id (hevolves.awaiting hfinishes.mem_before hfinishes.isOpen id hmem)
  have hmem : item.id ∈ w₀.awaiting := Workspace.mem_awaiting.mpr ⟨item, hitem, hawaits, rfl⟩
  have hgone : item.id ∉ w'.awaiting := by
    intro hwaits
    obtain ⟨later, hlater, hlaterAwaits, hlaterId⟩ := Workspace.mem_awaiting.mp hwaits
    obtain ⟨attempted, hattempted, hattemptedId, hstarted⟩ :=
      hchains.worked hworked w' hfinishes.after run' hfinishes.mem_after (fun h ↦ by cases h)
        hfinishes.recognized item.id (hsameItem.trans (hkept.trans hrun₀))
    obtain rfl := w'.items.eq_of_key_eq hattempted hlater (hattemptedId.trans hlaterId.symm)
    exact hstarted hlaterAwaits.2.2.2
  have hsubperm : (item.id :: w'.awaiting).Subperm w₀.awaiting := by
    refine List.subperm_of_subset (List.nodup_cons.mpr ⟨hgone, w'.nodup_awaiting⟩) ?_
    exact List.cons_subset.mpr ⟨hmem, hsubset⟩
  exact hsubperm.length_le

/-- The invariant: a recognition was made on the item of every finished run. -/
structure AgentDb.Recognizing (db : AgentDb) : Prop where
  sound : db.Sound
  worked : ∀ w ∈ db.workspaces.rows, w.Worked

theorem AgentDb.Recognizing.step (h : db.Recognizing) {input : AgentInput}
    (hfaithful : Faithful db input) : (Agent.step db input).Recognizing :=
  ⟨h.sound.step input, (chains_step h.sound hfaithful).worked h.worked⟩

theorem AgentDb.Recognizing.of_run (h : db.Recognizing) {inputs : List AgentInput}
    (hfaithful : System.Meets Agent.step Faithful db inputs) :
    (System.run Agent.step db inputs).Recognizing :=
  System.invariant_run (fun _ _ h hinput ↦ h.step hinput) inputs db h hfaithful

/-- With faithful executors the chain of recognitions ends and skips nothing, from every state that
a run of the system reaches. -/
theorem recognition_chain {board : Board} {inputs : List AgentInput}
    (hfaithful : System.Meets step Faithful (.start board) inputs) :
    (System.run step (.start board) inputs).ChainEnds := by
  have hstart : (AgentDb.start board).Recognizing :=
    ⟨.start board, fun _ h ↦ absurd h List.not_mem_nil⟩
  have hreached := hstart.of_run hfaithful
  obtain ⟨hsound, hworked⟩ := hreached
  constructor
  · exact hworked
  · intro input hinput w w' run run' hfinishes
    have hchains := chains_step hsound hinput
    exact (hchains.finishes hsound hfinishes).2.goesOn
      ((hsound.step input).workspace w' hfinishes.after)
      (hchains.worked hworked w' hfinishes.after)
  · intro further input hmeets w₀ hw₀ run₀ hrun₀ hopen item hitem hawaits hrunItem w w' run run'
      hfinishes hsession hid
    obtain ⟨hfurther, hlast, -⟩ := System.meets_append.mp hmeets
    have hfirst : Stays w₀ run₀ (System.run step (.start board) inputs) := by
      refine ⟨hsound, hsound.run_issued ⟨w₀, hw₀, hrun₀⟩, fun v hv hvid run hrun hrunId _ ↦ ?_⟩
      obtain rfl := AgentDb.workspace_eq hv hw₀ hvid
      obtain rfl := v.runs.eq_of_key_eq hrun hrun₀ hrunId
      exact ⟨rfl, fun _ h ↦ h⟩
    have hstays : Stays w₀ run₀
        (System.run step (System.run step (.start board) inputs) further) :=
      System.invariant_run_all (fun _ input h ↦ h.step input) further _ hfirst
    obtain ⟨hsound', hworked'⟩ := AgentDb.Recognizing.of_run ⟨hsound, hworked⟩ hfurther
    rw [System.run_append] at hfinishes
    exact hstays.fewer (chains_step hsound' hlast) (progress_step hsound' input) hworked' hitem
      hawaits hrunItem hfinishes hsession hid

/-- The call that saves what was recognised in a screenshot. -/
def savingCall : ToolRequest := ⟨"extract_order", "extract_order", "", ["extract_order"]⟩

/-- The order of a screenshot in which nothing could be read. -/
def unreadOrder : RecognizedOrder := ⟨.blank, [], [], []⟩

/-- The recognition of the first of two screenshots is saved. -/
def firstSaved : List AgentInput :=
  twoScreenshots ++
    [⟨⟨5, "20260101", IdSource.longer⟩, 5, .startTool firstContext savingCall⟩,
      ⟨⟨6, "20260101", IdSource.longer⟩, 6,
        .runTool firstContext "ffffffffff" savingCall (.extractOrder unreadOrder [] 2)⟩]

/-- The run of the first screenshot returns its result. -/
def firstFinal : AgentInput :=
  ⟨⟨7, "20260101", IdSource.longer⟩, 7, .finalize firstContext ⟨"done", .answered⟩⟩

theorem faithful_firstFinal :
    Faithful (System.run step (.start Board.empty) firstSaved) firstFinal := by
  rintro _ _ ⟨⟩ w hw run hrun - hid - -
  have hsaved : ∀ w ∈ (System.run step (.start Board.empty) firstSaved).workspaces.rows,
      ∀ run ∈ w.runs.rows, run.id = firstContext.runId → ∀ itemId ∈ run.workItemId,
        ∃ item ∈ w.items.rows, item.id = itemId ∧ item.recognitionStatus = .succeeded := by
    decide +kernel
  exact hsaved w hw run hrun hid

/-- The first of the two runs has succeeded, and the chain has gone on with the second one. -/
theorem recognition_chain_sample :
    ((System.run step (.start Board.empty) (firstSaved ++ [firstFinal])).workspaces.rows.map
      fun w ↦ w.runs.rows.map (fun run ↦ (run.workItemId, run.status))) =
        [[(some "ffffff", .succeeded), (some "fffffff", .queued)]] ∧
    (System.run step (.start Board.empty) (firstSaved ++ [firstFinal])).ChainEnds := by
  refine ⟨by decide +kernel, recognition_chain (System.meets_append.mpr ⟨?_, ?_, trivial⟩)⟩
  · refine ⟨?_, ?_, ?_, ?_, ?_, ?_, ?_, trivial⟩
    all_goals
      rintro _ _ ⟨⟩
  · exact faithful_firstFinal

end FilmOS.Agent
