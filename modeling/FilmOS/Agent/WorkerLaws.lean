import FilmOS.Agent.Worker
import FilmOS.Agent.WorkflowLaws

/-!
# Workers make progress

Every operation of a worker and of the watchdog, when it returns, has made progress: a claim leases
a queued run, a failure and a success end the open run and may queue a further one, and everything
else leaves the runs as they are. `lockRun_eq_ok` is the guard that the statements of a worker
share, and `progress_end` puts the end of a run and the run queued after it together into moves of
the dispatcher.
-/

set_option autoImplicit false
set_option relaxedAutoImplicit false

namespace FilmOS.Agent

open Transaction AgentDb

variable {call : Call} {later : Time} {context : RunContext} {db db' : AgentDb}

/-! ### The guard -/

/-- A worker gets its run when the run is leased to it and the time has not passed. -/
theorem lockRun_eq_ok {found : Workspace × AgentRun} :
    lockRun call context db = .ok found db' ↔
      (found.1 ∈ db.workspaces.rows ∧ found.1.session.id = context.sessionId) ∧
        (found.2 ∈ found.1.runs.rows ∧ found.2.id = context.runId) ∧
        Holds context call.now found.1 found.2 ∧ db = db' := by
  unfold lockRun
  simp only [get_bind_eq_ok, orRaise_bind_eq_ok, require_bind_eq_ok, pure_eq_ok,
    Table.find?_eq_some_iff, key_workspace, key_run]
  constructor
  · rintro ⟨w, hw, run, hrun, hholds, rfl, rfl⟩
    exact ⟨hw, hrun, hholds, rfl⟩
  · rintro ⟨hw, hrun, hholds, rfl⟩
    exact ⟨found.1, hw, found.2, hrun, hholds, rfl, rfl⟩

/-- A run that cannot be locked is lost, and that is the only failure. -/
theorem ends_lockRun : Ends (lockRun call context) db
    (fun found db' ↦ db' = db ∧ db.workspaces.find? context.sessionId = some found.1)
    (fun failure _ ↦ failure = .leaseLost) := by
  unfold lockRun
  have hget : Ends (get : Txn Failure AgentDb AgentDb) db (fun t db' ↦ t = db ∧ db' = db)
      (fun failure _ ↦ failure = .leaseLost) := ⟨rfl, rfl⟩
  refine hget.bind ?_
  rintro t t' ⟨ht, ht'⟩
  rw [ht, ht']
  have hsession : Ends (orRaise (db.workspaces.find? context.sessionId) .leaseLost :
      Txn Failure AgentDb Workspace) db
      (fun w db' ↦ db' = db ∧ db.workspaces.find? context.sessionId = some w)
      (fun failure _ ↦ failure = .leaseLost) := ends_orRaise (fun w hw ↦ ⟨rfl, hw⟩) fun _ ↦ rfl
  refine hsession.bind ?_
  rintro w t ⟨ht, hw⟩
  rw [ht]
  have hrun : Ends (orRaise (w.runs.find? context.runId) .leaseLost : Txn Failure AgentDb AgentRun)
      db (fun _ db' ↦ db' = db) (fun failure _ ↦ failure = .leaseLost) :=
    ends_orRaise (fun _ _ ↦ rfl) fun _ ↦ rfl
  refine hrun.bind ?_
  rintro run t ht
  rw [ht]
  have hholds : Ends (require (Holds context call.now w run) .leaseLost : Txn Failure AgentDb Unit)
      db (fun _ db' ↦ db' = db) (fun failure _ ↦ failure = .leaseLost) :=
    ends_require (fun _ ↦ rfl) fun _ ↦ rfl
  refine hholds.bind ?_
  rintro _ t ht
  rw [ht]
  exact ends_pure ⟨rfl, hw⟩

theorem Holds.isOpen {now : Time} {w : Workspace} {run : AgentRun}
    (h : Holds context now w run) : run.status.IsOpen :=
  Or.inr h.running

/-! ### The end of a run -/

/-- What a worker may do: claim runs, end them and queue the next one, and move items. -/
def Permit.worker : Permit := { runs := True, queue := True, pick := True }

/-- What may happen in between, when a run has just ended. -/
def Permit.following : Permit := { queue := True, pick := True }

theorem Workspace.uses_of_run {w : Workspace} {run : AgentRun} (hrun : run ∈ w.runs.rows) :
    w.Uses run.id :=
  Or.inl ((Table.mem_keys _).mpr ⟨run, hrun, rfl⟩)

/-- A run of a session, marked in a way that keeps what it was queued for. -/
theorem Workspace.Changes.markRun {permit : Permit} {fresh : Id → Prop} {u w : Workspace}
    (h : u.Changes permit fresh w) (hruns : permit.runs) (id : Id) (change : AgentRun → AgentRun)
    (hid : ∀ run, (change run).id = run.id) (hmarks : ∀ run : AgentRun, run.Marks (change run))
    (hended : ∀ run ∈ w.runs.rows, run.id = id → ¬ run.status.IsOpen →
      ¬ (change run).status.IsOpen)
    (hplan : ∀ run, (change run).generatedPlanId = run.generatedPlanId) :
    u.Changes permit fresh (w.setRun id change hid) :=
  h.tail (.markRun w id change hid hmarks (Or.inr hruns) hended (Or.inl hplan))

/-- The started tool calls of a run that has ended are given up. -/
theorem abandonCalls_changes {permit : Permit} {fresh : Id → Prop} {w : Workspace} {runId : Id}
    {code : String} (hended : ∀ run ∈ w.runs.rows, run.id = runId → ¬ run.status.IsOpen) :
    w.Changes permit fresh (w.abandonCalls call runId code) := by
  unfold Workspace.abandonCalls
  -- The induction is over the calls that are still to be given up, which are started until then.
  have hfold : ∀ (toolCalls : List AgentToolCall) (v : Workspace), v.runs = w.runs →
      (toolCalls.map AgentToolCall.id).Nodup →
      (∀ toolCall ∈ toolCalls, toolCall ∈ v.toolCalls.rows ∧ toolCall.runId = runId ∧
        toolCall.status = .started) →
      v.Changes permit fresh (toolCalls.foldl (fun w toolCall ↦
        (w.setToolCall toolCall.id (fun row ↦
          { row with status := .abandoned, errorCode := some code })).append call .toolAbandoned
          [("error_code", .text code)] { runId := some runId, toolCallId := some toolCall.id })
            v) := by
    intro toolCalls
    induction toolCalls with
    | nil => exact fun _ _ _ _ ↦ .refl
    | cons toolCall toolCalls ih =>
      intro v hruns hnodup hstarted
      rw [List.map_cons, List.nodup_cons] at hnodup
      obtain ⟨hmem, hrunId, hstatus⟩ := hstarted toolCall List.mem_cons_self
      have honly : ∀ row ∈ v.toolCalls.rows, row.id = toolCall.id → row = toolCall :=
        fun row hrow hid ↦ v.toolCalls.eq_of_key_eq hrow hmem hid
      refine Relation.ReflTransGen.trans (Workspace.Changes.append (.single (.setToolCall v
        toolCall.id _ ?_ ?_ ?_ ?_)) call _ rfl (by decide)) (ih _ hruns hnodup.2 ?_)
      · exact fun _ ↦ rfl
      · exact fun _ ↦ ⟨rfl, rfl, rfl, rfl, rfl⟩
      · intro row hrow hid
        rw [honly row hrow hid]
        exact Or.inl ⟨hstatus, rfl⟩
      · intro row hrow hid _ run hrun hrunId'
        rw [honly row hrow hid] at hrunId'
        exact hended run (hruns ▸ hrun) (hrunId'.trans hrunId)
      · intro other hother
        obtain ⟨hmem', hrest⟩ := hstarted other (List.mem_cons_of_mem _ hother)
        refine ⟨List.mem_map.mpr ⟨other, hmem', if_neg fun hid ↦ ?_⟩, hrest⟩
        exact hnodup.1 (hid ▸ List.mem_map_of_mem hother)
  refine hfold _ w rfl ?_ ?_
  · exact w.toolCalls.nodup.sublist (List.filter_sublist.map _)
  · intro toolCall htoolCall
    obtain ⟨hmem, hcondition⟩ := List.mem_filter.mp htoolCall
    exact ⟨hmem, of_decide_eq_true hcondition⟩

/-- The end of the open run of a session, and what is queued after it. -/
theorem dispatch_end {fresh : Id → Prop} {w v v' : Workspace} {run : AgentRun}
    (hrun : run ∈ w.runs.rows) (hopen : run.status.IsOpen) (outcome : RunEnd)
    (hmarked : v.dispatch = { w.dispatch.setJob run.id (.ended outcome) none with
      answers := w.dispatch.answers ++ if outcome.answered then [run.id] else [] })
    (hfollowing : v'.dispatch.endings = v.dispatch.endings ∧
      v'.dispatch.answers = v.dispatch.answers ∧
      Dispatch.Queues fresh v.dispatch.jobs v'.dispatch.jobs) :
    Dispatch.Moves fresh RunEnd.answered w.dispatch
        { v'.dispatch with endings := v'.dispatch.endings ++ [(run.id, outcome)] } ∧
      ∀ job ∈ v'.dispatch.jobs, job.id = run.id → job.Ended := by
  obtain ⟨hendings, hanswers, hqueues⟩ := hfollowing
  rw [hmarked] at hendings hanswers hqueues
  have hjob : run.job ∈ w.dispatch.jobs := List.mem_map_of_mem hrun
  have hopen' : ¬ run.job.Ended := fun hended ↦ ended_job_iff.mp hended hopen
  have heq : ({ v'.dispatch with
      endings := v'.dispatch.endings ++ [(run.id, outcome)] } : Dispatch Id Id RunEnd) =
      { w.dispatch.finish RunEnd.answered run.job.id outcome with jobs := v'.dispatch.jobs } := by
    refine Dispatch.ext rfl ?_ hanswers
    exact congrArg (· ++ [(run.id, outcome)]) hendings
  rw [heq]
  refine ⟨Dispatch.Queues.finish hjob hopen' hqueues, fun job hmem hid ↦ ?_⟩
  exact Dispatch.Queues.ended hjob hqueues hmem hid

/-- After its open run was marked as ended, a session is idle. -/
theorem idle_of_marked {w v : Workspace} {run : AgentRun} (hsound : w.Sound)
    (hrun : run ∈ w.runs.rows) (hopen : run.status.IsOpen) {outcome : RunEnd}
    (hjobs : v.dispatch.jobs = (w.dispatch.setJob run.id (.ended outcome) none).jobs) : v.Idle := by
  have hjob : run.job ∈ w.dispatch.jobs := List.mem_map_of_mem hrun
  have hopen' : ¬ run.job.Ended := fun hended ↦ ended_job_iff.mp hended hopen
  unfold Workspace.Idle
  rw [hjobs]
  exact hsound.dispatch.idle_finish hjob hopen' outcome

/-- A session whose open run has ended is saved, with the command that follows the run. -/
theorem progress_end (hsound : db.Sound) {w w' : Workspace} {run : AgentRun}
    (hw : w ∈ db.workspaces.rows) (hrun : run ∈ w.runs.rows) (hopen : run.status.IsOpen)
    (h : Makes (AgentCommand.Follows run.id) .worker db db' w w')
    (hdispatch : Dispatch.Moves (Fresh db db') RunEnd.answered w.dispatch w'.dispatch)
    (hended : ∀ job ∈ w'.dispatch.jobs, job.id = run.id → job.Ended)
    (hrevision : w.session.stateRevision < w'.session.stateRevision) :
    Progress .worker db { db' with workspaces := db'.workspaces.put w' } := by
  have hsoundw := hsound.workspace w hw
  have hevolves : w.Evolves .worker (Fresh db db') w' := by
    refine ⟨h.changes, hdispatch, ?_, Or.inr hrevision, fun hattended ↦ ?_, Or.inr False.elim⟩
    · rw [h.changes.inbox fun h ↦ h]
    · refine Or.inr ((h.changes.status_eq fun h ↦ h).trans (hattended.resolve_left fun hidle ↦ ?_))
      exact Workspace.isOpen_of_job hrun hidle hopen
  refine Makes.save hsound h.prepares hw hevolves fun command hcommand ↦ ?_
  obtain ⟨⟨itemId, hrequest⟩, hkey⟩ := hcommand
  have huses := Workspace.uses_of_run hrun
  refine Or.inr ⟨run.id, itemId, hrequest, hkey, ?_, ?_⟩
  · exact h.prepares.issued (hsound.issued w hw run.id huses)
  · intro w'' hw'' job hjob hid
    rcases (Table.mem_put _).mp hw'' with rfl | ⟨hw'', hne⟩
    · exact hended job hjob hid
    · -- An identifier belongs to one session, and this is another one.
      rw [h.prepares.workspaces] at hw''
      have huses'' : w''.Uses run.id := by
        obtain ⟨other, hother, rfl⟩ := List.mem_map.mp hjob
        exact Or.inl ((Table.mem_keys _).mpr ⟨other, hother, hid⟩)
      rw [hsound.apart w'' hw'' w hw run.id huses'' huses] at hne
      exact absurd hevolves.session_id.symm hne

/-! ### Failure -/

theorem id_failedRun (later : Time) (code message : String) (run : AgentRun) :
    (failedRun later code message run).id = run.id := rfl

/-- The session of a run as it is after the run was marked as failed. -/
def Workspace.markFailed (call : Call) (later : Time) (run : AgentRun) (code message : String)
    (w : Workspace) : Workspace :=
  (w.setRun run.id (failedRun later code message)
    (id_failedRun later code message)).abandonCalls call run.id code

theorem dispatch_markFailed (call : Call) (later : Time) (w : Workspace) (run : AgentRun)
    (code message : String) :
    (w.markFailed call later run code message).dispatch =
      w.dispatch.setJob run.id (.ended .failed) none := by
  have hview : (w.markFailed call later run code message).view =
      w.view.onDispatch (Dispatch.setJob run.id (.ended .failed) none) := by
    unfold Workspace.markFailed
    rw [Workspace.view_abandonCalls]
    exact Workspace.view_setRun_stage w run.id (failedRun later code message) (fun _ ↦ rfl)
      (.ended .failed) none (fun _ ↦ rfl) (fun _ ↦ rfl)
  exact congrArg View.dispatch hview

theorem not_isOpen_failed : ¬ RunStatus.failed.IsOpen := by decide

theorem markFailed_changes {permit : Permit} {fresh : Id → Prop} (hruns : permit.runs)
    {w : Workspace} {run : AgentRun} {code message : String} :
    w.Changes permit fresh (w.markFailed call later run code message) := by
  have hmark : w.Changes permit fresh (w.setRun run.id (failedRun later code message)) :=
    Workspace.Changes.markRun .refl hruns run.id (failedRun later code message) (fun _ ↦ rfl)
      (fun _ ↦ ⟨rfl, rfl, rfl, rfl, rfl⟩) (fun _ _ _ _ ↦ not_isOpen_failed) fun _ ↦ rfl
  refine hmark.trans (abandonCalls_changes fun other hother hid ↦ ?_)
  obtain ⟨old, -, rfl⟩ := Workspace.mem_setRun.mp hother
  by_cases hkey : old.id = run.id
  · rw [if_pos hkey]
    exact not_isOpen_failed
  · rw [if_neg hkey] at hid
    exact absurd hid hkey

/-- What `failLocked` does: the run is marked, the queue goes on, and the events follow. -/
theorem failLocked_eq_ok {w w' : Workspace} {run : AgentRun} {code message : String} :
    failLocked call later w run code message db = .ok w' db' ↔
      ∃ v, continueRecognition call (failedRun later code message run)
          (w.markFailed call later run code message) db = .ok v db' ∧
        w' = (v.revise.append call .runFailed
          [("error_code", .text code), ("message", .text message)]
          { runId := some run.id }).announce call := by
  unfold failLocked
  simp only [bind_eq_ok, pure_eq_ok]
  constructor
  · rintro ⟨v, db₁, hcontinue, rfl, rfl⟩
    exact ⟨v, hcontinue, rfl⟩
  · rintro ⟨v, hcontinue, rfl⟩
    exact ⟨v, db', hcontinue, rfl, rfl⟩

/-- The dispatcher after the event that reports the end of a run. -/
theorem dispatch_report (call : Call) (v : Workspace) (kind : EventKind) {outcome : RunEnd}
    (hkind : kind.ending = some outcome) (payload : Payload) (runId : Id) :
    ((v.revise.append call kind payload { runId := some runId }).announce call).dispatch =
      { v.dispatch with endings := v.dispatch.endings ++ [(runId, outcome)] } := by
  have hview := Workspace.view_announce
    (v.revise.append call kind payload { runId := some runId }) call
  rw [Workspace.append, Workspace.view_appendBy_ending, hkind] at hview
  exact congrArg View.dispatch hview

/-- A run that fails makes progress. -/
theorem progress_fail (hsound : db.Sound) {w w' : Workspace} {run : AgentRun}
    {code message : String} (hw : w ∈ db.workspaces.rows) (hrun : run ∈ w.runs.rows)
    (hopen : run.status.IsOpen)
    (h : failLocked call later w run code message db = .ok w' db') :
    Progress .worker db { db' with workspaces := db'.workspaces.put w' } := by
  obtain ⟨v, hcontinue, rfl⟩ := failLocked_eq_ok.mp h
  have hmarked := dispatch_markFailed call later w run code message
  have hidle := idle_of_marked (hsound.workspace w hw) hrun hopen (congrArg Dispatch.jobs hmarked)
  have hnext : ∀ permit : Permit, permit.queue → permit.pick →
      Makes (AgentCommand.Follows (failedRun later code message run).id) permit db db'
        (w.markFailed call later run code message) v :=
    fun _ hqueue hpick ↦ continueRecognition_makes hqueue hpick hidle hcontinue
  have hmakes : Makes (AgentCommand.Follows run.id) .worker db db' w v :=
    Makes.trans ⟨.refl db, markFailed_changes trivial⟩ (hnext .worker trivial trivial)
  obtain ⟨hmoves, hended⟩ := dispatch_end hrun hopen .failed
    (hmarked.trans (Dispatch.ext rfl rfl (List.append_nil _).symm))
    ((hnext .following trivial trivial).changes.dispatch fun h ↦ h)
  have hreport := dispatch_report call v .runFailed rfl
    [("error_code", .text code), ("message", .text message)] run.id
  refine progress_end hsound hw hrun hopen (hmakes.change ?_) ?_ ?_ ?_
  · exact ((Workspace.Changes.revise .refl).report trivial call _ rfl (by decide)).announce call
  · rw [hreport]
    exact hmoves
  · rw [hreport]
    exact hended
  · exact Nat.lt_succ_of_le hmakes.changes.revision_le

theorem progress_failRun (hsound : db.Sound) {code message : String} {u : Unit}
    (h : failRun call later context code message db = .ok u db') : Progress .worker db db' := by
  unfold failRun at h
  obtain ⟨⟨w, run⟩, db₁, hlock, h⟩ := bind_eq_ok.mp h
  obtain ⟨⟨hw, -⟩, ⟨hrun, -⟩, hholds, rfl⟩ := lockRun_eq_ok.mp hlock
  obtain ⟨w', db₂, hfail, h⟩ := bind_eq_ok.mp h
  obtain rfl := save_eq_ok.mp h
  exact progress_fail hsound hw hrun hholds.isOpen hfail

/-! ### Success -/

/-- The session of a run as it is after the run was answered and marked as succeeded. -/
def Workspace.markSucceeded (call : Call) (later : Time) (run : AgentRun) (messageId : Id)
    (result : RunResult) (w : Workspace) : Workspace :=
  (addAnswer call messageId run result.text w).setRun run.id
    (succeededRun later result.outcome messageId)

theorem dispatch_markSucceeded (call : Call) (later : Time) (w : Workspace) (run : AgentRun)
    (messageId : Id) (result : RunResult) :
    (w.markSucceeded call later run messageId result).dispatch =
      { w.dispatch.setJob run.id (.ended .succeeded) none with
        answers := w.dispatch.answers ++ [run.id] } := by
  have hview : (w.markSucceeded call later run messageId result).view =
      w.view.onDispatch (fun d ↦
        { d.setJob run.id (.ended .succeeded) none with answers := d.answers ++ [run.id] }) := by
    unfold Workspace.markSucceeded
    rw [Workspace.view_setRun_stage _ run.id (succeededRun later result.outcome messageId)
      (fun _ ↦ rfl) (.ended .succeeded) none (fun _ ↦ rfl) (fun _ ↦ rfl)]
    unfold addAnswer
    rw [Workspace.view_appendBy _ _ _ _ _ rfl, Workspace.view_addMessage]
    simp [View.onDispatch, Dispatch.setJob, ChatMessage.answer, ChatMessage.letter, Workspace.view]
  exact congrArg View.dispatch hview

/-- The message and its event. -/
theorem Workspace.Changes.post {permit : Permit} {fresh : Id → Prop} {u w : Workspace}
    (h : u.Changes permit fresh w) (message : ChatMessage) (actor : Actor) (call : Call)
    {kind : EventKind} (payload : Payload) {refs : References} (hfresh : fresh message.id)
    (hnew : ¬ w.Uses message.id) (hanswer : message.answer = none ∨ permit.runs)
    (hletter : message.letter = none ∨ permit.letter)
    (hkind : kind = .messageAccepted ∨ kind = .messageCompleted)
    (hrefs : refs.messageId = some message.id)
    (hseq : message.eventSeq = w.session.lastEventSeq + 1) :
    u.Changes permit fresh ((w.addMessage message).appendBy actor call kind payload refs) :=
  h.tail (.post w message actor call kind payload refs hfresh
    (fun hmem ↦ hnew (Or.inr (Or.inr (Or.inl hmem)))) hseq hrefs hkind hanswer hletter)

theorem markSucceeded_changes {permit : Permit} {fresh : Id → Prop} (hruns : permit.runs)
    {w : Workspace} {run : AgentRun} {messageId : Id} {result : RunResult}
    (hfresh : fresh messageId) (hnew : ¬ w.Uses messageId) :
    w.Changes permit fresh (w.markSucceeded call later run messageId result) := by
  unfold Workspace.markSucceeded addAnswer
  exact (Workspace.Changes.post .refl _ .agent call _ hfresh hnew (Or.inr hruns) (Or.inl rfl)
    (Or.inr rfl) rfl rfl).markRun hruns run.id (succeededRun later result.outcome messageId)
      (fun _ ↦ rfl) (fun _ ↦ ⟨rfl, rfl, rfl, rfl, rfl⟩)
      (fun _ _ _ _ ↦ by simp [succeededRun, RunStatus.IsOpen]) fun _ ↦ rfl

/-- What `finalize` does, when it returns. -/
theorem finalize_ok {result : RunResult} {messageId : Id}
    (h : finalize call later context result db = .ok messageId db') :
    ∃ w run db₁ v db₂ w', lockRun call context db = .ok (w, run) db ∧
      generateId call db = .ok messageId db₁ ∧
      continueRecognition call (succeededRun later result.outcome messageId run)
        (w.markSucceeded call later run messageId result) db₁ = .ok v db₂ ∧
      w' = (v.revise.append call .runSucceeded
        [("outcome", .text result.outcome.text), ("message_id", .text messageId)]
        { runId := some run.id }).announce call ∧
      db' = { db₂ with workspaces := db₂.workspaces.put w' } := by
  unfold finalize at h
  obtain ⟨-, h⟩ := require_bind_eq_ok.mp h
  obtain ⟨⟨w, run⟩, db₁, hlock, h⟩ := bind_eq_ok.mp h
  obtain ⟨-, -, -, rfl⟩ := lockRun_eq_ok.mp hlock
  obtain ⟨id, db₂, hid, h⟩ := bind_eq_ok.mp h
  obtain ⟨v, db₃, hcontinue, h⟩ := bind_eq_ok.mp h
  obtain ⟨_, db₄, hsave, h⟩ := bind_eq_ok.mp h
  obtain rfl := save_eq_ok.mp hsave
  obtain ⟨rfl, rfl⟩ := pure_eq_ok.mp h
  exact ⟨w, run, db₂, v, db₃, _, hlock, hid, hcontinue, rfl, rfl⟩

theorem progress_finalize (hsound : db.Sound) {result : RunResult} {messageId : Id}
    (h : finalize call later context result db = .ok messageId db') : Progress .worker db db' := by
  obtain ⟨w, run, db₁, v, db₂, _, hlock, hid, hcontinue, rfl, rfl⟩ := finalize_ok h
  obtain ⟨⟨hw, -⟩, ⟨hrun, -⟩, hholds, -⟩ := lockRun_eq_ok.mp hlock
  have hopen := hholds.isOpen
  have hmarked := dispatch_markSucceeded call later w run messageId result
  have hjobs : (w.markSucceeded call later run messageId result).dispatch.jobs =
      (w.dispatch.setJob run.id (.ended .succeeded) none).jobs := by
    rw [hmarked]
  have hidle := idle_of_marked (hsound.workspace w hw) hrun hopen hjobs
  have hfirst : Prepares (AgentCommand.Follows run.id) .worker db db₁ := prepares_generateId hid
  have hfresh := fresh_generateId hid
  have hnew : ¬ w.Uses messageId := fun huses ↦ hfresh.1 (hsound.issued w hw _ huses)
  have hnext : ∀ permit : Permit, permit.queue → permit.pick →
      Makes (AgentCommand.Follows (succeededRun later result.outcome messageId run).id) permit
        db₁ db₂ (w.markSucceeded call later run messageId result) v :=
    fun _ hqueue hpick ↦ continueRecognition_makes hqueue hpick hidle hcontinue
  have hmakes : Makes (AgentCommand.Follows run.id) .worker db db₂ w v :=
    Makes.trans ⟨hfirst, markSucceeded_changes trivial hfresh hnew⟩ (hnext .worker trivial trivial)
  obtain ⟨hendings, hanswers, hqueues⟩ :=
    (hnext .following trivial trivial).changes.dispatch fun h ↦ h
  obtain ⟨hmoves, hended⟩ := dispatch_end hrun hopen .succeeded hmarked
    ⟨hendings, hanswers, hqueues.mono fun _ ↦ hfirst.fresh_left⟩
  have hreport := dispatch_report call v .runSucceeded rfl
    [("outcome", .text result.outcome.text), ("message_id", .text messageId)] run.id
  refine progress_end hsound hw hrun hopen (hmakes.change ?_) ?_ ?_ ?_
  · exact ((Workspace.Changes.revise .refl).report trivial call _ rfl (by decide)).announce call
  · rw [hreport]
    exact hmoves
  · rw [hreport]
    exact hended
  · exact Nat.lt_succ_of_le hmakes.changes.revision_le

/-! ### Claims and leases -/

theorem mem_claimable {candidates skipped : List Id} {w : Workspace}
    (h : claimable db candidates skipped = some w) :
    w ∈ db.workspaces.rows ∧ w.session.status = .active ∧ w.session.id ∈ candidates ∧
      w.session.id ∉ skipped := by
  obtain ⟨before, sessionId, after, hcandidates, hfound, -⟩ := List.findSome?_eq_some_iff.mp h
  obtain ⟨hfind, hopen⟩ := Option.filter_eq_some_iff.mp hfound
  obtain ⟨hactive, hfree⟩ := of_decide_eq_true hopen
  obtain ⟨hw, hid⟩ := (Table.find?_eq_some_iff _).mp hfind
  refine ⟨hw, hactive, ?_, hfree⟩
  rw [hcandidates, show w.session.id = sessionId from hid]
  exact List.mem_append_right _ List.mem_cons_self

/-- A run of a session is leased. -/
theorem evolves_claimed {fresh : Id → Prop} {w : Workspace} {run : AgentRun}
    (hrun : run ∈ w.runs.rows) (hqueued : run.status = .queued) (now : Time) (workerId : String)
    (token : Id) :
    w.Evolves .worker fresh ((w.setRun run.id (claimedRun now workerId token)).append call
      .runStarted [] { runId := some run.id }) := by
  have hchanges : w.Changes .worker fresh ((w.setRun run.id (claimedRun now workerId token)).append
      call .runStarted [] { runId := some run.id }) := by
    refine (Workspace.Changes.markRun .refl trivial run.id (claimedRun now workerId token)
      (fun _ ↦ rfl) (fun _ ↦ ⟨rfl, rfl, rfl, rfl, rfl⟩) (fun other hother hid hclosed ↦ ?_)
      fun _ ↦ rfl).append call _ rfl (by decide)
    rw [w.runs.eq_of_key_eq hother hrun hid, hqueued] at hclosed
    exact absurd (Or.inl rfl) hclosed
  have hview : ((w.setRun run.id (claimedRun now workerId token)).append call .runStarted []
      { runId := some run.id }).view =
        w.view.onDispatch (Dispatch.setJob run.id .leased (some token)) := by
    rw [Workspace.view_append _ _ _ _ rfl]
    exact Workspace.view_setRun_stage w run.id (claimedRun now workerId token) (fun _ ↦ rfl)
      .leased (some token) (fun _ ↦ rfl) (fun _ ↦ rfl)
  refine ⟨hchanges, ?_, ?_, Or.inl rfl, fun hattended ↦ ?_, Or.inr False.elim⟩
  · have hdispatch : ((w.setRun run.id (claimedRun now workerId token)).append call .runStarted []
        { runId := some run.id }).dispatch = w.dispatch.lease run.id token :=
      congrArg View.dispatch hview
    rw [hdispatch]
    refine .single (.lease w.dispatch run.job token (List.mem_map_of_mem hrun) ?_)
    unfold AgentRun.job
    rw [hqueued]
    rfl
  · rw [hchanges.inbox fun h ↦ h]
  · refine Or.inr (hattended.resolve_left fun hidle ↦ ?_)
    refine Workspace.isOpen_of_job hrun hidle ?_
    rw [hqueued]
    exact Or.inl rfl

theorem progress_claim (hsound : db.Sound) {workerId : String} {candidates skipped : List Id}
    {claimed : Option RunContext}
    (h : claim call later workerId candidates skipped db = .ok claimed db') :
    Progress .worker db db' := by
  unfold claim at h
  simp only [get_bind_eq_ok] at h
  cases hclaimable : claimable db candidates skipped with
  | none =>
    simp only [hclaimable, pure_eq_ok] at h
    obtain ⟨-, rfl⟩ := h
    exact .refl _
  | some w =>
    simp only [hclaimable] at h
    obtain ⟨hw, -⟩ := mem_claimable hclaimable
    obtain ⟨run, hfind, h⟩ := orRaise_bind_eq_ok.mp h
    have hrun := List.mem_of_find?_eq_some hfind
    have hqueued : run.status = .queued := by simpa using List.find?_some hfind
    split_ifs at h
    · obtain ⟨w', db₁, hfail, h⟩ := bind_eq_ok.mp h
      obtain ⟨_, db₂, hsave, h⟩ := bind_eq_ok.mp h
      obtain rfl := save_eq_ok.mp hsave
      obtain ⟨-, rfl⟩ := pure_eq_ok.mp h
      exact progress_fail hsound hw hrun (Or.inl hqueued) hfail
    · obtain ⟨token, db₁, htoken, h⟩ := bind_eq_ok.mp h
      obtain ⟨_, db₂, hsave, h⟩ := bind_eq_ok.mp h
      obtain rfl := save_eq_ok.mp hsave
      obtain ⟨-, rfl⟩ := pure_eq_ok.mp h
      exact Makes.save hsound (prepares_generateId htoken) hw
        (evolves_claimed hrun hqueued call.now workerId token) fun _ hc ↦ Or.inl hc

/-- A run of a session, marked in a way that keeps its stage and its token. -/
theorem Workspace.Changes.noteRun {permit : Permit} {fresh : Id → Prop} {u w : Workspace}
    (h : u.Changes permit fresh w) (id : Id) (change : AgentRun → AgentRun)
    (hid : ∀ run, (change run).id = run.id) (hmarks : ∀ run : AgentRun, run.Marks (change run))
    (hjob : ∀ run, (change run).job = run.job)
    (hplan : ∀ run, (change run).generatedPlanId = run.generatedPlanId) :
    u.Changes permit fresh (w.setRun id change hid) := by
  refine h.tail (.markRun w id change hid hmarks (Or.inl hjob) (fun run _ _ hended ↦ ?_)
    (Or.inl hplan))
  rw [← ended_job_iff, hjob run, ended_job_iff]
  exact hended

theorem progress_heartbeat (hsound : db.Sound) {u : Unit}
    (h : heartbeat call later context db = .ok u db') : Progress {} db db' := by
  unfold heartbeat at h
  obtain ⟨⟨w, run⟩, db₁, hlock, h⟩ := bind_eq_ok.mp h
  obtain ⟨⟨hw, -⟩, -, -, rfl⟩ := lockRun_eq_ok.mp hlock
  obtain rfl := save_eq_ok.mp h
  refine progress_quiet hsound hw ?_ (.refl db) id id id id id
  exact Workspace.Changes.noteRun .refl run.id (fun run ↦
    { run with
      heartbeatAt := some later
      leaseExpiresAt := run.deadlineAt.map (min (later + seconds leaseSeconds)) })
    (fun _ ↦ rfl) (fun _ ↦ ⟨rfl, rfl, rfl, rfl, rfl⟩) (fun _ ↦ rfl) fun _ ↦ rfl

theorem progress_appendDelta (hsound : db.Sound) {text : String} {chunkIndex : ℤ} {u : Unit}
    (h : appendDelta call context text chunkIndex db = .ok u db') : Progress {} db db' := by
  unfold appendDelta at h
  obtain ⟨-, h⟩ := require_bind_eq_ok.mp h
  obtain ⟨⟨w, run⟩, db₁, hlock, h⟩ := bind_eq_ok.mp h
  obtain ⟨⟨hw, -⟩, -, -, rfl⟩ := lockRun_eq_ok.mp hlock
  obtain rfl := save_eq_ok.mp h
  exact progress_quiet hsound hw (Workspace.Changes.appendBy .refl .agent call _ rfl (by decide))
    (.refl db) id id id id id

/-! ### The watchdog -/

/-- What `expireSession` does: nothing, or it fails the open run. -/
theorem expireSession_ok {sessionId : Id} {count : ℕ}
    (h : expireSession call later sessionId db = .ok count db') :
    db' = db ∨ ∃ w run code message w' db₁, (w ∈ db.workspaces.rows ∧ w.session.id = sessionId) ∧
      run ∈ w.runs.rows ∧ run.status.IsOpen ∧
      failLocked call later w run code message db = .ok w' db₁ ∧
      db' = { db₁ with workspaces := db₁.workspaces.put w' } := by
  unfold expireSession at h
  simp only [get_bind_eq_ok] at h
  cases hfind : (db.workspaces.find? sessionId).bind (fun w ↦ w.openRun.map (w, ·)) with
  | none =>
    simp only [hfind, pure_eq_ok] at h
    exact Or.inl h.2.symm
  | some found =>
    obtain ⟨w, run⟩ := found
    obtain ⟨w', hw, hpair⟩ := Option.bind_eq_some_iff.mp hfind
    obtain ⟨run', hrun, heq⟩ := Option.map_eq_some_iff.mp hpair
    obtain ⟨rfl, rfl⟩ := Prod.mk.inj heq
    have hopen : run'.status.IsOpen := by simpa using List.find?_some hrun
    simp only [hfind] at h
    cases hexpiry : expiry call.now run' with
    | none =>
      simp only [hexpiry, pure_eq_ok] at h
      exact Or.inl h.2.symm
    | some reason =>
      simp only [hexpiry] at h
      obtain ⟨w'', db₁, hfail, h⟩ := bind_eq_ok.mp h
      obtain ⟨_, db₂, hsave, h⟩ := bind_eq_ok.mp h
      obtain rfl := save_eq_ok.mp hsave
      obtain ⟨-, rfl⟩ := pure_eq_ok.mp h
      exact Or.inr ⟨w', run', reason.1, reason.2, w'', db₁, mem_of_find? hw,
        List.mem_of_find?_eq_some hrun, hopen, hfail, rfl⟩

theorem progress_expireSession (hsound : db.Sound) {sessionId : Id} {count : ℕ}
    (h : expireSession call later sessionId db = .ok count db') : Progress .worker db db' := by
  rcases expireSession_ok h with
    rfl | ⟨w, run, code, message, w', db₁, ⟨hw, -⟩, hrun, hopen, hfail, rfl⟩
  · exact .refl _
  · exact progress_fail hsound hw hrun hopen hfail

theorem progress_expireSessions (sessionIds : List Id) :
    ∀ {db db' : AgentDb} {count : ℕ}, db.Sound →
      expireSessions call later sessionIds db = .ok count db' → Progress .worker db db' := by
  induction sessionIds with
  | nil =>
    intro db db' count _ h
    obtain ⟨-, rfl⟩ := pure_eq_ok.mp h
    exact .refl _
  | cons sessionId sessionIds ih =>
    intro db db' count hsound h
    obtain ⟨first, db₁, hfirst, h⟩ := bind_eq_ok.mp h
    obtain ⟨rest, db₂, hrest, h⟩ := bind_eq_ok.mp h
    obtain ⟨-, rfl⟩ := pure_eq_ok.mp h
    have hprogress := progress_expireSession hsound hfirst
    exact hprogress.trans (ih (hsound.progress hprogress) hrest)

theorem progress_expireRuns (hsound : db.Sound) {limit count : ℕ} {candidates skipped : List Id}
    (h : expireRuns call later limit candidates skipped db = .ok count db') :
    Progress .worker db db' := by
  unfold expireRuns at h
  rw [get_bind_eq_ok] at h
  exact progress_expireSessions _ hsound h

end FilmOS.Agent
