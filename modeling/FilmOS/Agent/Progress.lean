import FilmOS.Agent.Invariants
import FilmOS.Agent.Workflow

/-!
# What a transaction may do

`Workspace.Evolves` is what an operation does to one session: permitted changes, which amount to
moves of its runs and its inbox and leave a run open in an active session only, and a new revision
whenever another item becomes the active one; work for recognition comes up in an idle session only.
`AgentDb.Progress` is what one transaction does to the database: every session evolves or is new, a
drawn identifier is used in one session, and every new command is the caller's own or follows a run
that has ended.

Both are closed under composition. `AgentDb.Sound` collects the invariants, and `Sound.progress`
says that progress keeps them. A transaction prepares (`Makes`) until it saves a workspace
(`Makes.save`); that is how an operation is shown to make progress.
-/

set_option autoImplicit false
set_option relaxedAutoImplicit false

namespace FilmOS.Agent

open Transaction

/-! ### One session -/

namespace Workspace

/-- What an operation does to a session. -/
structure Evolves (permit : Permit) (fresh : Id → Prop) (w w' : Workspace) : Prop where
  changes : Changes permit fresh w w'
  dispatch : Dispatch.Moves fresh RunEnd.answered w.dispatch w'.dispatch
  inbox : Inbox.Moves fresh w.inbox w'.inbox
  current : w'.session.activeWorkItemId = w.session.activeWorkItemId ∨
    w.session.stateRevision < w'.session.stateRevision
  attended : w.Attended → w'.Attended
  work : w' = w ∨ (permit.work → w.Idle)

variable {permit : Permit} {fresh fresh' : Id → Prop} {u v w : Workspace}

theorem Evolves.refl (w : Workspace) : Evolves permit fresh w w :=
  ⟨.refl, .refl, .refl, Or.inl rfl, fun h ↦ h, Or.inl rfl⟩

theorem Evolves.trans (huv : Evolves permit fresh u v) (hvw : Evolves permit fresh v w) :
    Evolves permit fresh u w where
  changes := huv.changes.trans hvw.changes
  dispatch := huv.dispatch.trans hvw.dispatch
  inbox := huv.inbox.trans hvw.inbox
  current := by
    rcases hvw.current with hvw' | hlt
    · rcases huv.current with huv' | hlt
      · exact Or.inl (hvw'.trans huv')
      · exact Or.inr (lt_of_lt_of_le hlt hvw.changes.revision_le)
    · exact Or.inr (lt_of_le_of_lt huv.changes.revision_le hlt)
  attended h := hvw.attended (huv.attended h)
  work := by
    rcases huv.work with rfl | huv
    · exact hvw.work
    · exact Or.inr huv

theorem Evolves.mono (hfresh : ∀ id, fresh id → fresh' id) (h : Evolves permit fresh v w) :
    Evolves permit fresh' v w :=
  ⟨h.changes.mono hfresh, h.dispatch.mono hfresh, h.inbox.mono hfresh, h.current, h.attended,
    h.work⟩

theorem Evolves.session_id (h : Evolves permit fresh v w) : w.session.id = v.session.id :=
  h.changes.owner.1

/-- Changes that neither end runs, nor accept messages, nor change the status of the session. -/
theorem Evolves.of_changes (h : Changes permit fresh v w) (hruns : ¬ permit.runs)
    (hletter : ¬ permit.letter) (hstatus : ¬ permit.status)
    (hcurrent : w.session.activeWorkItemId = v.session.activeWorkItemId ∨
      v.session.stateRevision < w.session.stateRevision) (hwork : permit.work → v.Idle) :
    Evolves permit fresh v w where
  changes := h
  dispatch := h.dispatch_moves hruns
  inbox := by
    rw [h.inbox hletter]
  current := hcurrent
  attended := h.attended hruns hstatus
  work := Or.inr hwork

/-- Changes of an idle session that neither queue runs nor accept messages. -/
theorem Evolves.of_idle (h : Changes permit fresh v w) (hruns : ¬ permit.runs)
    (hletter : ¬ permit.letter) (hqueue : ¬ permit.queue) (hidle : v.Idle)
    (hcurrent : w.session.activeWorkItemId = v.session.activeWorkItemId ∨
      v.session.stateRevision < w.session.stateRevision) : Evolves permit fresh v w where
  changes := h
  dispatch := h.dispatch_moves hruns
  inbox := by
    rw [h.inbox hletter]
  current := hcurrent
  attended _ := by
    refine Or.inl ?_
    unfold Idle
    rw [h.jobs_eq hruns hqueue]
    exact hidle
  work := Or.inr fun _ ↦ hidle

/-- The invariants of a session. -/
structure Sound (w : Workspace) : Prop where
  dispatch : w.dispatch.Sound RunEnd.answered
  desk : w.desk.Sound
  inbox : w.inbox.Sound
  logged : w.Logged
  traced : w.Traced
  receipts : w.Receipts
  attended : w.Attended

theorem Sound.evolves (hsound : v.Sound) (h : Evolves permit fresh v w) : w.Sound where
  dispatch := hsound.dispatch.moves h.dispatch
  desk := hsound.desk.moves h.changes.desk
  inbox := hsound.inbox.moves h.inbox
  logged := h.changes.logged hsound.logged
  traced := h.changes.traced hsound.traced
  receipts := h.changes.receipts hsound.receipts
  attended := h.attended hsound.attended

/-- A session as it is created. -/
structure IsNew (session : ChatSession) : Prop where
  active : session.status = .active
  current : session.activeWorkItemId = none
  plan : session.activePlanId = none
  seq : session.lastEventSeq = 0
  workbench : session.state.intakeWorkbench = none

theorem Sound.blank {session : ChatSession} (hnew : IsNew session) : (blank session).Sound where
  dispatch := Dispatch.Sound.empty
  desk := by
    unfold Workspace.desk Workspace.blank
    rw [hnew.current]
    exact Desk.Sound.empty _
  inbox := Inbox.Sound.empty
  logged := by
    refine ⟨?_, List.nodup_nil, fun _ h ↦ absurd h List.not_mem_nil,
      fun _ h ↦ absurd h List.not_mem_nil⟩
    change [] = List.range' 1 session.lastEventSeq
    rw [hnew.seq]
    rfl
  traced := by
    refine ⟨fun _ h ↦ absurd h List.not_mem_nil, fun h ↦ ?_, fun _ h ↦ absurd h List.not_mem_nil,
      fun _ h ↦ absurd h List.not_mem_nil⟩
    change session.state.intakeWorkbench = some true at h
    rw [hnew.workbench] at h
    cases h
  receipts := ⟨fun _ h ↦ absurd h List.not_mem_nil, fun _ h ↦ absurd h List.not_mem_nil,
    fun _ h ↦ absurd h List.not_mem_nil⟩
  attended := Or.inr hnew.active

/-- In a step from a session with an open run no further item comes to wait. -/
theorem Evolves.awaiting (h : Evolves permit fresh v w) {run : AgentRun} (hrun : run ∈ v.runs.rows)
    (hopen : run.status.IsOpen) : ∀ id ∈ w.awaiting, id ∈ v.awaiting := by
  rcases h.work with rfl | hwork
  · exact fun id hid ↦ hid
  · refine h.changes.awaiting fun hpermit ↦ ?_
    exact isOpen_of_job hrun (hwork hpermit) hopen

theorem not_uses_blank (session : ChatSession) (id : Id) : ¬ (blank session).Uses id := by
  rintro (h | h | h | h) <;> cases h

end Workspace

/-! ### The database -/

/-- The identifier was drawn in between. -/
def Fresh (db db' : AgentDb) (id : Id) : Prop := id ∉ db.board.issued ∧ id ∈ db'.board.issued

/-- The command follows a run that has ended. -/
def AgentDb.FollowUp (db : AgentDb) (command : AgentCommand) : Prop :=
  ∃ runId itemId, command.requestHash = .recognizeAfter runId itemId ∧
    command.idempotencyKey = recognizeAfterKey runId ∧ runId ∈ db.board.issued ∧
    ∀ w ∈ db.workspaces.rows, ∀ job ∈ w.dispatch.jobs, job.id = runId → job.Ended

/-- The plans of a session. -/
def AgentDb.plansOf (db : AgentDb) (sessionId : Id) : List SchedulePlan :=
  db.board.plans.rows.filter (·.sessionId = sessionId)

/-- What one transaction does. -/
structure AgentDb.Progress (permit : Permit) (db db' : AgentDb) : Prop where
  issued : db.board.issued ⊆ db'.board.issued
  evolves : ∀ w' ∈ db'.workspaces.rows,
    (∃ w ∈ db.workspaces.rows, w.Evolves permit (Fresh db db') w') ∨
      ∃ session, Fresh db db' session.id ∧ Workspace.IsNew session ∧
        (Workspace.blank session).Evolves permit (Fresh db db') w'
  apart : ∀ w₁ ∈ db'.workspaces.rows, ∀ w₂ ∈ db'.workspaces.rows, ∀ id, Fresh db db' id →
    w₁.Uses id → w₂.Uses id → w₁ = w₂
  commands : ∀ command ∈ db'.commands.rows,
    command ∈ db.commands.rows ∨ permit.command command ∨ db'.FollowUp command
  kept : ∀ command ∈ db.commands.rows, command.sessionId ∈ db'.workspaces.keys →
    ¬ Fresh db db' command.sessionId → command ∈ db'.commands.rows
  orders : ¬ permit.order → db'.board.orders.keys = db.board.orders.keys
  plans : ¬ permit.plan → ∀ sessionId ∈ db'.workspaces.keys, ¬ Fresh db db' sessionId →
    db'.plansOf sessionId = db.plansOf sessionId
  plans_subset : ¬ permit.plan → ∀ plan ∈ db'.board.plans.rows, plan ∈ db.board.plans.rows
  jobs : ¬ permit.files → db'.gcJobs = db.gcJobs
  sessions : ¬ permit.files → db.workspaces.keys ⊆ db'.workspaces.keys

/-- The invariants of the database: those of every session, and every identifier in use was drawn
and belongs to one session. -/
structure AgentDb.Sound (db : AgentDb) : Prop where
  workspace : ∀ w ∈ db.workspaces.rows, w.Sound
  session_issued : ∀ w ∈ db.workspaces.rows, w.session.id ∈ db.board.issued
  issued : ∀ w ∈ db.workspaces.rows, ∀ id, w.Uses id → id ∈ db.board.issued
  apart : ∀ w₁ ∈ db.workspaces.rows, ∀ w₂ ∈ db.workspaces.rows, ∀ id,
    w₁.Uses id → w₂.Uses id → w₁ = w₂

variable {permit : Permit} {db db₁ db₂ : AgentDb}

/-- Sessions with one identifier are one session. -/
theorem AgentDb.workspace_eq {w w' : Workspace} (hw : w ∈ db.workspaces.rows)
    (hw' : w' ∈ db.workspaces.rows) (hid : w.session.id = w'.session.id) : w = w' :=
  db.workspaces.eq_of_key_eq hw hw' hid

namespace AgentDb.Progress

theorem refl (db : AgentDb) : Progress permit db db where
  issued := List.Subset.refl _
  evolves w hw := Or.inl ⟨w, hw, .refl _⟩
  apart _ _ _ _ _ hfresh := absurd hfresh.2 hfresh.1
  commands _ h := Or.inl h
  kept _ h _ _ := h
  orders _ := rfl
  plans _ _ _ _ := rfl
  plans_subset _ _ h := h
  jobs _ := rfl
  sessions _ := List.Subset.refl _

/-- A command that follows a run still does later. -/
theorem followUp (h : Progress permit db db₁) {command : AgentCommand}
    (hcommand : db.FollowUp command) : db₁.FollowUp command := by
  obtain ⟨runId, itemId, hrequest, hkey, hissued, hended⟩ := hcommand
  refine ⟨runId, itemId, hrequest, hkey, h.issued hissued, fun w' hw' job hjob hid ↦ ?_⟩
  have hold : ∀ w : Workspace, w.Evolves permit (Fresh db db₁) w' →
      ∃ earlier ∈ w.dispatch.jobs, earlier.id = runId ∧ earlier.Precedes job := by
    intro w hevolves
    rcases hevolves.dispatch.origin job hjob with hfresh | ⟨earlier, hearlier, heq, hprecedes⟩
    · exact absurd (hid ▸ hissued) hfresh.1
    · exact ⟨earlier, hearlier, heq.trans hid, hprecedes⟩
  rcases h.evolves w' hw' with ⟨w, hw, hevolves⟩ | ⟨session, -, -, hevolves⟩
  · obtain ⟨earlier, hearlier, heq, hprecedes⟩ := hold w hevolves
    obtain ⟨outcome, hstage⟩ := hended w hw earlier hearlier heq
    unfold Job.Precedes at hprecedes
    rw [hstage] at hprecedes
    exact ⟨outcome, hprecedes⟩
  · obtain ⟨earlier, hearlier, -, -⟩ := hold _ hevolves
    cases hearlier

/-- An identifier that a session uses was drawn in between, or the session used it before. -/
theorem uses (h : Progress permit db db₁) {w' : Workspace} (hw' : w' ∈ db₁.workspaces.rows)
    {id : Id} (huses : w'.Uses id) :
    Fresh db db₁ id ∨ ∃ w ∈ db.workspaces.rows, w.Uses id ∧ w'.session.id = w.session.id := by
  rcases h.evolves w' hw' with ⟨w, hw, hevolves⟩ | ⟨session, -, -, hevolves⟩
  · rcases hevolves.changes.uses huses with hfresh | huses
    · exact Or.inl hfresh
    · exact Or.inr ⟨w, hw, huses, hevolves.session_id⟩
  · rcases hevolves.changes.uses huses with hfresh | huses
    · exact Or.inl hfresh
    · exact absurd huses (Workspace.not_uses_blank session id)

/-- A run that was drawn before was there before, in the same session. -/
theorem evolves_of_run (h : Progress permit db db₁) {w' : Workspace}
    (hw' : w' ∈ db₁.workspaces.rows)
    {later : AgentRun} (hlater : later ∈ w'.runs.rows) (hissued : later.id ∈ db.board.issued) :
    ∃ w ∈ db.workspaces.rows, w.Evolves permit (Fresh db db₁) w' ∧ later.id ∈ w.runs.keys := by
  have hold : ∀ v : Workspace, v.Evolves permit (Fresh db db₁) w' → later.id ∈ v.runs.keys := by
    intro v hevolves
    rcases hevolves.dispatch.origin later.job (List.mem_map_of_mem hlater) with hfresh | horigin
    · exact absurd hissued hfresh.1
    · obtain ⟨job, hjob, hid, -⟩ := horigin
      obtain ⟨run, hrun, rfl⟩ := List.mem_map.mp hjob
      exact (Table.mem_keys _).mpr ⟨run, hrun, hid⟩
  rcases h.evolves w' hw' with ⟨w, hw, hevolves⟩ | ⟨session, -, -, hevolves⟩
  · exact ⟨w, hw, hevolves, hold w hevolves⟩
  · exact absurd (hold _ hevolves) List.not_mem_nil

/-- A session is new, or was there before. -/
theorem session_origin (h : Progress permit db db₁) {sessionId : Id}
    (hsession : sessionId ∈ db₁.workspaces.keys) :
    Fresh db db₁ sessionId ∨ sessionId ∈ db.workspaces.keys := by
  obtain ⟨w', hw', rfl⟩ := (Table.mem_keys _).mp hsession
  rcases h.evolves w' hw' with ⟨w, hw, hevolves⟩ | ⟨session, hfresh, -, hevolves⟩
  · exact Or.inr ((Table.mem_keys _).mpr ⟨w, hw, hevolves.session_id.symm⟩)
  · rw [key_workspace, hevolves.session_id]
    exact Or.inl hfresh

/-- A session that uses an identifier is the only one, when it was before. -/
theorem eq_of_uses (h : Progress permit db db₁) {id : Id}
    (hdb : ¬ Fresh db db₁ id → ∀ w₁ ∈ db.workspaces.rows, ∀ w₂ ∈ db.workspaces.rows,
      w₁.Uses id → w₂.Uses id → w₁ = w₂)
    {w₁ w₂ : Workspace} (hw₁ : w₁ ∈ db₁.workspaces.rows) (hw₂ : w₂ ∈ db₁.workspaces.rows)
    (huses₁ : w₁.Uses id) (huses₂ : w₂.Uses id) : w₁ = w₂ := by
  by_cases hfresh : Fresh db db₁ id
  · exact h.apart w₁ hw₁ w₂ hw₂ id hfresh huses₁ huses₂
  · rcases h.uses hw₁ huses₁ with hfresh' | ⟨w₁', hw₁', huses₁', hid₁⟩
    · exact absurd hfresh' hfresh
    · rcases h.uses hw₂ huses₂ with hfresh' | ⟨w₂', hw₂', huses₂', hid₂⟩
      · exact absurd hfresh' hfresh
      · refine AgentDb.workspace_eq hw₁ hw₂ ?_
        rw [hid₁, hid₂, hdb hfresh w₁' hw₁' w₂' hw₂' huses₁' huses₂']

theorem fresh_trans (h : Progress permit db db₁) (h' : Progress permit db₁ db₂) (id : Id) :
    Fresh db db₂ id ↔ Fresh db db₁ id ∨ Fresh db₁ db₂ id := by
  constructor
  · intro hfresh
    by_cases hmem : id ∈ db₁.board.issued
    · exact Or.inl ⟨hfresh.1, hmem⟩
    · exact Or.inr ⟨hmem, hfresh.2⟩
  · rintro (hfresh | hfresh)
    · exact ⟨hfresh.1, h'.issued hfresh.2⟩
    · exact ⟨fun hmem ↦ hfresh.1 (h.issued hmem), hfresh.2⟩

theorem trans (h : Progress permit db db₁) (h' : Progress permit db₁ db₂) :
    Progress permit db db₂ := by
  have hfirst : ∀ id, Fresh db db₁ id → Fresh db db₂ id :=
    fun id hid ↦ (h.fresh_trans h' id).mpr (Or.inl hid)
  have hsecond : ∀ id, Fresh db₁ db₂ id → Fresh db db₂ id :=
    fun id hid ↦ (h.fresh_trans h' id).mpr (Or.inr hid)
  have hsession : ∀ sessionId ∈ db₂.workspaces.keys, ¬ Fresh db db₂ sessionId →
      sessionId ∈ db₁.workspaces.keys ∧ ¬ Fresh db db₁ sessionId ∧ ¬ Fresh db₁ db₂ sessionId := by
    intro sessionId hmem hnot
    rcases h'.session_origin hmem with hfresh | hold
    · exact absurd (hsecond _ hfresh) hnot
    · exact ⟨hold, fun hfresh ↦ hnot (hfirst _ hfresh), fun hfresh ↦ hnot (hsecond _ hfresh)⟩
  constructor
  · exact List.Subset.trans h.issued h'.issued
  · intro w₂ hw₂
    rcases h'.evolves w₂ hw₂ with ⟨w₁, hw₁, hlater⟩ | ⟨session, hfresh, hnew, hlater⟩
    · rcases h.evolves w₁ hw₁ with ⟨w, hw, hearlier⟩ | ⟨session, hfresh, hnew, hearlier⟩
      · exact Or.inl ⟨w, hw, (hearlier.mono hfirst).trans (hlater.mono hsecond)⟩
      · exact Or.inr ⟨session, hfirst _ hfresh, hnew,
          (hearlier.mono hfirst).trans (hlater.mono hsecond)⟩
    · exact Or.inr ⟨session, hsecond _ hfresh, hnew, hlater.mono hsecond⟩
  · intro w₁ hw₁ w₂ hw₂ id hfresh huses₁ huses₂
    refine h'.eq_of_uses ?_ hw₁ hw₂ huses₁ huses₂
    intro hnot w₁' hw₁' w₂' hw₂' huses₁' huses₂'
    rcases (h.fresh_trans h' id).mp hfresh with hfresh | hfresh
    · exact h.apart w₁' hw₁' w₂' hw₂' id hfresh huses₁' huses₂'
    · exact absurd hfresh hnot
  · intro command hcommand
    rcases h'.commands command hcommand with hold | hnew
    · rcases h.commands command hold with hold | hpermit | hfollow
      · exact Or.inl hold
      · exact Or.inr (Or.inl hpermit)
      · exact Or.inr (Or.inr (h'.followUp hfollow))
    · exact Or.inr hnew
  · intro command hcommand hmem hnot
    obtain ⟨hmem₁, hnot₁, hnot₂⟩ := hsession _ hmem hnot
    exact h'.kept command (h.kept command hcommand hmem₁ hnot₁) hmem hnot₂
  · exact fun hnone ↦ (h'.orders hnone).trans (h.orders hnone)
  · intro hnone sessionId hmem hnot
    obtain ⟨hmem₁, hnot₁, hnot₂⟩ := hsession _ hmem hnot
    exact (h'.plans hnone sessionId hmem hnot₂).trans (h.plans hnone sessionId hmem₁ hnot₁)
  · exact fun hnone plan hplan ↦ h.plans_subset hnone plan (h'.plans_subset hnone plan hplan)
  · exact fun hnone ↦ (h'.jobs hnone).trans (h.jobs hnone)
  · exact fun hnone ↦ List.Subset.trans (h.sessions hnone) (h'.sessions hnone)

end AgentDb.Progress

/-- Progress keeps the invariants. -/
theorem AgentDb.Sound.progress (hsound : db.Sound) (h : Progress permit db db₁) : db₁.Sound := by
  constructor
  · intro w' hw'
    rcases h.evolves w' hw' with ⟨w, hw, hevolves⟩ | ⟨session, -, hnew, hevolves⟩
    · exact (hsound.workspace w hw).evolves hevolves
    · exact (Workspace.Sound.blank hnew).evolves hevolves
  · intro w' hw'
    rcases h.evolves w' hw' with ⟨w, hw, hevolves⟩ | ⟨session, hfresh, -, hevolves⟩
    · rw [hevolves.session_id]
      exact h.issued (hsound.session_issued w hw)
    · rw [hevolves.session_id]
      exact hfresh.2
  · intro w' hw' id huses
    rcases h.uses hw' huses with hfresh | ⟨w, hw, huses, -⟩
    · exact hfresh.2
    · exact h.issued (hsound.issued w hw id huses)
  · intro w₁ hw₁ w₂ hw₂ id huses₁ huses₂
    refine h.eq_of_uses ?_ hw₁ hw₂ huses₁ huses₂
    exact fun _ w₁' hw₁' w₂' hw₂' ↦ hsound.apart w₁' hw₁' w₂' hw₂' id

/-! ### Within a transaction -/

/-- What a transaction does before it saves a workspace: it draws identifiers, enters commands, and
works on the board. -/
structure AgentDb.Prepares (command : AgentCommand → Prop) (permit : Permit) (db db' : AgentDb) :
    Prop where
  workspaces : db'.workspaces = db.workspaces
  issued : db.board.issued ⊆ db'.board.issued
  commands : ∀ c ∈ db'.commands.rows, c ∈ db.commands.rows ∨ command c
  kept : ∀ c ∈ db.commands.rows, c ∈ db'.commands.rows
  orders : ¬ permit.order → db'.board.orders.keys = db.board.orders.keys
  plans : ¬ permit.plan → db'.board.plans = db.board.plans
  jobs : ¬ permit.files → db'.gcJobs = db.gcJobs

namespace AgentDb.Prepares

variable {command command' : AgentCommand → Prop}

theorem refl (db : AgentDb) : Prepares command permit db db :=
  ⟨rfl, List.Subset.refl _, fun _ h ↦ Or.inl h, fun _ h ↦ h, fun _ ↦ rfl, fun _ ↦ rfl, fun _ ↦ rfl⟩

theorem trans (h : Prepares command permit db db₁) (h' : Prepares command permit db₁ db₂) :
    Prepares command permit db db₂ where
  workspaces := h'.workspaces.trans h.workspaces
  issued := List.Subset.trans h.issued h'.issued
  commands c hc := (h'.commands c hc).elim (h.commands c) Or.inr
  kept c hc := h'.kept c (h.kept c hc)
  orders hnone := (h'.orders hnone).trans (h.orders hnone)
  plans hnone := (h'.plans hnone).trans (h.plans hnone)
  jobs hnone := (h'.jobs hnone).trans (h.jobs hnone)

theorem fresh_left (h : Prepares command permit db db₁) {id : Id} (hid : Fresh db₁ db₂ id) :
    Fresh db db₂ id :=
  ⟨fun hmem ↦ hid.1 (h.issued hmem), hid.2⟩

theorem fresh_right (h : Prepares command permit db₁ db₂) {id : Id} (hid : Fresh db db₁ id) :
    Fresh db db₂ id :=
  ⟨hid.1, h.issued hid.2⟩

theorem plansOf (h : Prepares command permit db db₁) (hnone : ¬ permit.plan) (sessionId : Id) :
    db₁.plansOf sessionId = db.plansOf sessionId := by
  unfold AgentDb.plansOf
  rw [h.plans hnone]

theorem plans_subset (h : Prepares command permit db db₁) (hnone : ¬ permit.plan) :
    ∀ plan ∈ db₁.board.plans.rows, plan ∈ db.board.plans.rows := by
  rw [h.plans hnone]
  exact fun _ hplan ↦ hplan

end AgentDb.Prepares

/-- What a transaction has done to a workspace that it has not saved yet. -/
structure AgentDb.Makes (command : AgentCommand → Prop) (permit : Permit) (db db' : AgentDb)
    (w w' : Workspace) : Prop where
  prepares : Prepares command permit db db'
  changes : w.Changes permit (Fresh db db') w'

namespace AgentDb.Makes

variable {command : AgentCommand → Prop} {u v w w' : Workspace}

theorem refl (db : AgentDb) (w : Workspace) : Makes command permit db db w w :=
  ⟨.refl db, .refl⟩

theorem trans (h : Makes command permit db db₁ u v) (h' : Makes command permit db₁ db₂ v w) :
    Makes command permit db db₂ u w :=
  ⟨h.prepares.trans h'.prepares,
    (h.changes.mono fun _ ↦ h'.prepares.fresh_right).trans
      (h'.changes.mono fun _ ↦ h.prepares.fresh_left)⟩

/-- The database changes, the workspace does not. -/
theorem prepare (h : Makes command permit db db₁ u v) (h' : Prepares command permit db₁ db₂) :
    Makes command permit db db₂ u v :=
  h.trans ⟨h', .refl⟩

/-- The workspace changes, the database does not. -/
theorem change (h : Makes command permit db db₁ u v)
    (h' : v.Changes permit (Fresh db db₁) w) : Makes command permit db db₁ u w :=
  ⟨h.prepares, h.changes.trans h'⟩

/-- An identifier that the workspace uses was drawn. -/
theorem issued (hsound : db.Sound) (hw : w ∈ db.workspaces.rows)
    (h : Makes command permit db db₁ w w') {id : Id} (huses : w'.Uses id) :
    id ∈ db₁.board.issued := by
  rcases h.changes.uses huses with hfresh | huses
  · exact hfresh.2
  · exact h.prepares.issued (hsound.issued w hw id huses)

/-- A workspace is saved. -/
theorem save (hsound : db.Sound) (h : Prepares command permit db db₁)
    (hw : w ∈ db.workspaces.rows) (hevolves : w.Evolves permit (Fresh db db₁) w')
    (hcommand : ∀ c, command c → permit.command c ∨
      ({ db₁ with workspaces := db₁.workspaces.put w' } : AgentDb).FollowUp c) :
    Progress permit db { db₁ with workspaces := db₁.workspaces.put w' } := by
  have hmem : ∀ w'' ∈ (db₁.workspaces.put w').rows, w'' = w' ∨ w'' ∈ db.workspaces.rows := by
    intro w'' hw''
    rw [h.workspaces] at hw''
    exact ((Table.mem_put _).mp hw'').imp_right And.left
  constructor
  · exact h.issued
  · intro w'' hw''
    rcases hmem w'' hw'' with rfl | hold
    · exact Or.inl ⟨w, hw, hevolves⟩
    · exact Or.inl ⟨w'', hold, .refl _⟩
  · intro w₁ hw₁ w₂ hw₂ id hfresh huses₁ huses₂
    have hnew : ∀ w'' ∈ (db₁.workspaces.put w').rows, w''.Uses id → w'' = w' := by
      intro w'' hw'' huses
      rcases hmem w'' hw'' with rfl | hold
      · rfl
      · exact absurd (hsound.issued w'' hold id huses) hfresh.1
    rw [hnew w₁ hw₁ huses₁, hnew w₂ hw₂ huses₂]
  · exact fun c hc ↦ (h.commands c hc).imp_right (hcommand c)
  · exact fun c hc _ _ ↦ h.kept c hc
  · exact h.orders
  · exact fun hnone sessionId _ _ ↦ h.plansOf hnone sessionId
  · exact h.plans_subset
  · exact h.jobs
  · intro _ sessionId hmem
    obtain ⟨v, hv, rfl⟩ := (Table.mem_keys _).mp hmem
    refine (Table.mem_keys _).mpr ?_
    by_cases hid : Keyed.key v = Keyed.key w'
    · exact ⟨w', (Table.mem_put _).mpr (Or.inl rfl), hid.symm⟩
    · exact ⟨v, (Table.mem_put _).mpr (Or.inr ⟨h.workspaces ▸ hv, hid⟩), rfl⟩

end AgentDb.Makes

/-- Nothing was saved yet. -/
theorem AgentDb.Prepares.progress (hsound : db.Sound)
    (h : Prepares permit.command permit db db₁) : Progress permit db db₁ where
  issued := h.issued
  evolves w hw := Or.inl ⟨w, h.workspaces ▸ hw, .refl _⟩
  apart w hw _ _ id hfresh huses _ :=
    absurd (hsound.issued w (h.workspaces ▸ hw) id huses) hfresh.1
  commands c hc := (h.commands c hc).imp_right Or.inl
  kept c hc _ _ := h.kept c hc
  orders := h.orders
  plans hnone sessionId _ _ := h.plansOf hnone sessionId
  plans_subset := h.plans_subset
  jobs := h.jobs
  sessions _ := by
    rw [h.workspaces]
    exact List.Subset.refl _

/-- A workspace is saved that no run ended in, no message was accepted for, and whose status
stayed. -/
theorem AgentDb.Makes.progress (hsound : db.Sound) {w w' : Workspace}
    (h : Makes permit.command permit db db₁ w w') (hw : w ∈ db.workspaces.rows)
    (hruns : ¬ permit.runs) (hletter : ¬ permit.letter) (hstatus : ¬ permit.status)
    (hcurrent : w'.session.activeWorkItemId = w.session.activeWorkItemId ∨
      w.session.stateRevision < w'.session.stateRevision) (hwork : permit.work → w.Idle) :
    Progress permit db { db₁ with workspaces := db₁.workspaces.put w' } :=
  Makes.save hsound h.prepares hw (.of_changes h.changes hruns hletter hstatus hcurrent hwork)
    fun _ hc ↦ Or.inl hc

/-- An idle session is saved in which no run was queued and no message was accepted. -/
theorem AgentDb.Makes.progress_idle (hsound : db.Sound) {w w' : Workspace}
    (h : Makes permit.command permit db db₁ w w') (hw : w ∈ db.workspaces.rows)
    (hruns : ¬ permit.runs) (hletter : ¬ permit.letter) (hqueue : ¬ permit.queue)
    (hidle : w.Idle)
    (hcurrent : w'.session.activeWorkItemId = w.session.activeWorkItemId ∨
      w.session.stateRevision < w'.session.stateRevision) :
    Progress permit db { db₁ with workspaces := db₁.workspaces.put w' } :=
  Makes.save hsound h.prepares hw (.of_idle h.changes hruns hletter hqueue hidle hcurrent)
    fun _ hc ↦ Or.inl hc

/-- An operation that leaves the runs, the inbox and the active item as they are. -/
theorem progress_quiet (hsound : db.Sound) {w w' : Workspace}
    (hw : w ∈ db.workspaces.rows) (h : w.Changes permit (Fresh db db₁) w')
    (hprepares : AgentDb.Prepares permit.command permit db db₁) (hruns : ¬ permit.runs)
    (hletter : ¬ permit.letter) (hstatus : ¬ permit.status) (hpick : ¬ permit.pick)
    (hwork : ¬ permit.work) :
    AgentDb.Progress permit db { db₁ with workspaces := db₁.workspaces.put w' } :=
  AgentDb.Makes.progress hsound ⟨hprepares, h⟩ hw hruns hletter hstatus
    (Or.inl (h.current_eq hpick)) fun hpermit ↦ absurd hpermit hwork

/-- More is prepared after a workspace was saved. -/
theorem AgentDb.Progress.prepare (hsound : db.Sound) (h : Progress permit db db₁)
    (h' : Prepares permit.command permit db₁ db₂) : Progress permit db db₂ :=
  h.trans (h'.progress (hsound.progress h))

end FilmOS.Agent
