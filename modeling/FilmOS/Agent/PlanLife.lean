import FilmOS.Agent.System

/-!
# The drafts of a session

A session has one draft at most: the plan that it points to. A run generates a plan, which takes the
place of the draft; its owner edits the draft, applies it or closes it, or queues a run that may
replace it. `AgentDb.PlansSound` is the invariant, and `step_plans` what one call does to the plans
of a session: nothing, unless it is a command of the owner on the draft of an idle session
(`AgentOp.OnPlan`) or the generation of an open run, which puts a draft aside only when its retry
intent names the draft in the revision that it has (`ReplacesPlan`).

`plans_run` collects what holds in every run of the system: the draft is the active plan; every plan
has its own run, which keeps a note of it; a plan that is no draft any more is never touched again.
-/

set_option autoImplicit false
set_option relaxedAutoImplicit false

namespace FilmOS.Agent

open Transaction AgentDb Scheduling

variable {call : Call} {later : Time} {db db' db₁ db₂ : AgentDb} {permit : Permit}
  {fresh : Id → Prop} {w w' w₁ w₂ : Workspace}

/-! ### The runs and their plans -/

/-- Without a permit for plans, the pointer stays, and every run keeps its plan. -/
theorem Workspace.Change.keeps_plan (h : w.Change permit fresh w') (hplan : ¬ permit.plan) :
    w'.session.activePlanId = w.session.activePlanId ∧ ∀ run ∈ w.runs.rows,
      ∃ later ∈ w'.runs.rows, later.id = run.id ∧
        later.generatedPlanId = run.generatedPlanId := by
  constructor
  · cases h with
    | setPlan id hpermit => exact absurd hpermit hplan
    | _ => rfl
  · intro run hrun
    obtain ⟨later, hlater, hid⟩ :=
      (Table.mem_keys _).mp (h.runs_keys ((Table.mem_keys _).mpr ⟨run, hrun, rfl⟩))
    rcases h.run_origin later hlater with ⟨-, -, hnew, -⟩ | ⟨earlier, hearlier, hcontinues⟩
    · exact absurd ((Table.mem_keys _).mpr ⟨run, hrun, hid.symm⟩) hnew
    · obtain rfl := w.runs.eq_of_key_eq hearlier hrun (hcontinues.id.symm.trans hid)
      exact ⟨later, hlater, hid, hcontinues.plan.resolve_right hplan⟩

theorem Workspace.Changes.keeps_plan (h : w.Changes permit fresh w') (hplan : ¬ permit.plan) :
    w'.session.activePlanId = w.session.activePlanId ∧ ∀ run ∈ w.runs.rows,
      ∃ later ∈ w'.runs.rows, later.id = run.id ∧
        later.generatedPlanId = run.generatedPlanId := by
  induction h with
  | refl => exact ⟨rfl, fun run hrun ↦ ⟨run, hrun, rfl, rfl⟩⟩
  | tail _ hchange ih =>
    obtain ⟨hactive, hruns⟩ := hchange.keeps_plan hplan
    refine ⟨hactive.trans ih.1, fun run hrun ↦ ?_⟩
    obtain ⟨middle, hmiddle, hid, hgenerated⟩ := ih.2 run hrun
    obtain ⟨later, hlater, hid', hgenerated'⟩ := hruns middle hmiddle
    exact ⟨later, hlater, hid'.trans hid, hgenerated'.trans hgenerated⟩

/-- What becomes of the plans of a session depends on the business tables, and on the pointer and
the runs of the session. -/
theorem PlanStep.congr (h : PlanStep fresh db db₁ w w₁) (hboard : db₂.board = db₁.board)
    (hid : w₂.session.id = w₁.session.id)
    (hactive : w₂.session.activePlanId = w₁.session.activePlanId) (hruns : w₂.runs = w₁.runs) :
    PlanStep fresh db db₂ w w₂ := by
  have hplans : ∀ sessionId, db₂.plansOf sessionId = db₁.plansOf sessionId := by
    intro sessionId
    unfold AgentDb.plansOf
    rw [hboard]
  constructor
  · have hdesk : db₂.planDesk w₂ = db₁.planDesk w₁ := by
      unfold AgentDb.planDesk
      rw [hid, hactive, hplans]
    rw [hdesk]
    exact h.moves
  · intro hnoted plan hplan
    rw [hid, hplans] at hplan
    rw [hruns]
    exact h.noted hnoted plan hplan
  · rw [hruns]
    exact h.notes
  · rw [hplans]
    exact h.kept
  · rw [hplans]
    exact h.settled
  · rw [hplans]
    exact h.created

/-! ### The invariant -/

/-- The draft of a session is its active plan, and every plan was generated by a run that keeps a
note of it. -/
structure AgentDb.PlansSound (db : AgentDb) : Prop where
  desk : ∀ w ∈ db.workspaces.rows, (db.planDesk w).Sound
  noted : ∀ w ∈ db.workspaces.rows, db.PlansNoted w
  created : ∀ w ∈ db.workspaces.rows, ∀ plan ∈ db.plansOf w.session.id, plan.createdByRunId.isSome
  issued : ∀ plan ∈ db.board.plans.rows, plan.sessionId ∈ db.board.issued

/-- Who changed the plans of a session: its owner, by a command on the draft of the idle session, or
a run of the session, by the generation of its plan. -/
def AgentOp.OnPlan (planId userId : Id) : AgentOp → Prop
  | .patchPlan id user _ _ => id = planId ∧ user = userId
  | .planCommand id user _ _ _ => id = planId ∧ user = userId
  | _ => False

/-- Why the plans of a session are as they are after a call. -/
def PlanCause (op : AgentOp) (db db' : AgentDb) (w w' : Workspace) : Prop :=
  (db'.plansOf w.session.id = db.plansOf w.session.id ∧
      w'.session.activePlanId = w.session.activePlanId) ∨
    (w.Idle ∧ ∃ planId ∈ w.session.activePlanId, op.OnPlan planId w.session.userId) ∨
    ∃ context callId request run, op = .runTool context callId request .generate ∧
      context.runId = run.id ∧ ReplacesPlan run db db' w w'

/-- What a call does to the plans: what it does to the plans of a session that was there, while a
new session has none. -/
structure AgentDb.StepsPlans (op : AgentOp) (db db' : AgentDb) : Prop where
  issued : db.board.issued ⊆ db'.board.issued
  step : ∀ w' ∈ db'.workspaces.rows,
    (∃ w ∈ db.workspaces.rows, w'.session.id = w.session.id ∧
      PlanStep (Fresh db db') db db' w w' ∧ PlanCause op db db' w w') ∨
      Fresh db db' w'.session.id ∧ w'.session.activePlanId = none ∧
        db'.plansOf w'.session.id = []
  owned : ∀ plan ∈ db'.board.plans.rows, plan.sessionId ∈ db'.board.issued

theorem AgentDb.PlansSound.step {op : AgentOp} (hplans : db.PlansSound)
    (h : StepsPlans op db db') : db'.PlansSound where
  desk w' hw' := by
    rcases h.step w' hw' with ⟨w, hw, -, hstep, -⟩ | ⟨-, hactive, hnone⟩
    · exact (hplans.desk w hw).moves hstep.moves
    · unfold AgentDb.planDesk
      rw [hactive, hnone]
      exact Desk.Sound.empty _
  noted w' hw' := by
    rcases h.step w' hw' with ⟨w, hw, -, hstep, -⟩ | ⟨-, -, hnone⟩
    · exact hstep.noted (hplans.noted w hw)
    · intro plan hplan
      rw [hnone] at hplan
      cases hplan
  created w' hw' plan hplan := by
    rcases h.step w' hw' with ⟨w, hw, hid, hstep, -⟩ | ⟨-, -, hnone⟩
    · rw [hid] at hplan
      rcases hstep.created plan hplan with hcreated | ⟨earlier, hearlier, hcreated⟩
      · exact hcreated
      · exact hcreated ▸ hplans.created w hw earlier hearlier
    · rw [hnone] at hplan
      cases hplan
  issued := h.owned

/-! ### Calls that leave the plans alone -/

theorem stepsPlans_quiet {op : AgentOp} (hsound : db.Sound) (hplans : db.PlansSound)
    (h : Progress permit db db') (hplan : ¬ permit.plan) : StepsPlans op db db' where
  issued := h.issued
  step w' hw' := by
    rcases h.evolves w' hw' with ⟨w, hw, hevolves⟩ | ⟨session, hfresh, hnew, hevolves⟩
    · have hid := hevolves.session_id
      obtain ⟨hactive, hnotes⟩ := hevolves.changes.keeps_plan hplan
      have hsame : db'.plansOf w.session.id = db.plansOf w.session.id := by
        refine h.plans hplan _ ((Table.mem_keys _).mpr ⟨w', hw', hid⟩) fun hfresh ↦ ?_
        exact hfresh.1 (hsound.session_issued w hw)
      exact Or.inl ⟨w, hw, hid, .of_eq hid hactive hsame hnotes, Or.inl ⟨hsame, hactive⟩⟩
    · have hid : w'.session.id = session.id := hevolves.session_id
      refine Or.inr ⟨hid ▸ hfresh, (hevolves.changes.keeps_plan hplan).1.trans hnew.plan, ?_⟩
      refine List.eq_nil_iff_forall_not_mem.mpr fun plan hmem ↦ ?_
      obtain ⟨hrow, hsession⟩ := mem_plansOf.mp hmem
      refine hfresh.1 ?_
      rw [← hid, ← hsession]
      exact hplans.issued plan (h.plans_subset hplan plan hrow)
  owned plan hrow := h.issued (hplans.issued plan (h.plans_subset hplan plan hrow))

theorem stepsPlans_same {op : AgentOp} (hsound : db.Sound) (hplans : db.PlansSound) :
    StepsPlans op db db :=
  have hsame : Progress {} db db := .refl db
  stepsPlans_quiet hsound hplans hsame id

/-! ### Calls that change the plans of one session -/

/-- One workspace is saved after work on its plans. -/
theorem stepsPlans_save {op : AgentOp} (hsound : db.Sound) (hplans : db.PlansSound)
    (hworkspaces : db'.workspaces = db.workspaces.put w') (hw : w ∈ db.workspaces.rows)
    (hissued : db.board.issued ⊆ db'.board.issued) (hid : w'.session.id = w.session.id)
    (hwork : PlanStep (Fresh db db') db db' w w')
    (hothers : ∀ sessionId, sessionId ≠ w.session.id →
      db'.plansOf sessionId = db.plansOf sessionId)
    (hcause : PlanCause op db db' w w') : StepsPlans op db db' where
  issued := hissued
  step other hother := by
    rw [hworkspaces] at hother
    rcases (Table.mem_put _).mp hother with rfl | ⟨hold, hne⟩
    · exact Or.inl ⟨w, hw, hid, hwork, hcause⟩
    · have hsame := hothers other.session.id fun heq ↦ hne (heq.trans hid.symm)
      exact Or.inl ⟨other, hold, rfl,
        .of_eq rfl rfl hsame fun run hrun ↦ ⟨run, hrun, rfl, rfl⟩, Or.inl ⟨hsame, rfl⟩⟩
  owned plan hrow := by
    by_cases hsession : plan.sessionId = w.session.id
    · rw [hsession]
      exact hissued (hsound.session_issued w hw)
    · have hmem : plan ∈ db'.plansOf plan.sessionId := mem_plansOf.mpr ⟨hrow, rfl⟩
      rw [hothers _ hsession] at hmem
      exact hissued (hplans.issued plan (mem_plansOf.mp hmem).1)

theorem stepsPlans_patchPlan (hsound : db.Sound) (hplans : db.PlansSound) {planId userId : Id}
    {expected : ℕ} {tasks : List DraftTask} {edited : SchedulePlan}
    (h : patchPlan call planId userId expected tasks db = .ok edited db') :
    StepsPlans (.patchPlan planId userId expected tasks) db db' := by
  obtain ⟨w, w', plan, db₁, ⟨hw, hidle⟩, hplan, ⟨rfl, hsession, rfl⟩, ⟨hdraft, hcreated⟩, -,
    hprepares, hchanges, rfl⟩ := patchPlan_ok h
  have hprepared : Prepares (fun _ ↦ False) .drafting db db₁ := hprepares _ _ trivial
  have hactive : w.session.activePlanId = some plan.id := by
    refine ((hplans.desk w hw).inHand_iff (planCase plan) ?_).mp (by rw [planCase, hdraft]; rfl)
    exact mem_planDesk.mpr ⟨plan, hplan, hsession, hcreated, rfl⟩
  have hwork : PlanWork (Fresh db db₁) db db₁ w w' :=
    hchanges.work hplan hsession (by simp) hactive
  exact stepsPlans_save hsound hplans (congrArg (fun rows ↦ Table.put rows w') hprepared.workspaces)
    hw hprepared.issued hchanges.session (hwork.toPlanStep.congr rfl rfl rfl rfl) hwork.others
    (Or.inr (Or.inl ⟨hidle, plan.id, hactive, rfl, rfl⟩))

theorem stepsPlans_planCommand (hsound : db.Sound) (hplans : db.PlansSound) {planId userId : Id}
    {key : String} {kind : CommandKind} {payload : ActionPayload} {result : CommandResult}
    (h : planCommand call planId userId key kind payload db = .ok result db') :
    StepsPlans (.planCommand planId userId key kind payload) db db' := by
  have hreplay := h
  unfold planCommand at hreplay
  rcases replaying_ok hreplay with ⟨row, -, -, -, rfl⟩ | ⟨hfree, -⟩
  · exact stepsPlans_same hsound hplans
  · obtain ⟨row, db₁, hcommanded, -, hrow, hbefore⟩ := planCommand_ok hsound hfree h
    rcases hbefore with hprepares | ⟨w, w', plan, db₂, ⟨hw, hidle⟩, hplan, ⟨rfl, hsession, rfl⟩,
      hactive, hmakes, rfl⟩
    · have hall := (hprepares { command := Commanded userId key (.planCommand kind planId payload)
        }).trans (prepares_addCommand hrow hcommanded)
      exact stepsPlans_quiet hsound hplans (hall.progress hsound) id
    · obtain ⟨⟨hprepared, -⟩, status, hstatus, hchanges⟩ :=
        hmakes { plan := True, queue := True } trivial trivial
      obtain ⟨commands, -, rfl⟩ := addCommand_eq_ok.mp hrow
      have hwork : PlanWork (Fresh db db₂) db db₂ w w' :=
        hchanges.work hplan hsession hstatus hactive
      exact stepsPlans_save hsound hplans
        (congrArg (fun rows ↦ Table.put rows w') hprepared.workspaces) hw hprepared.issued
        hchanges.session (hwork.toPlanStep.congr rfl rfl rfl rfl) hwork.others
        (Or.inr (Or.inl ⟨hidle, plan.id, hactive, rfl, rfl⟩))

theorem stepsPlans_generate (hsound : db.Sound) (hplans : db.PlansSound) {context : RunContext}
    {callId : Id} {request : ToolRequest} {result : ToolResult}
    (h : runTool call later context callId request .generate db = .ok result db') :
    StepsPlans (.runTool context callId request .generate) db db' := by
  obtain ⟨w, run, w₁, w', db₁, ⟨hw, -⟩, ⟨hrun, hid⟩, hholds, -, -, hperform, -, rfl, rfl⟩ :=
    runTool_ok h
  have hmakes : Makes (fun _ ↦ False) .drafting db db₁ w w₁ :=
    perform_makes (fun _ ↦ trivial) hperform
  obtain ⟨hwork, hcause⟩ := generate_work (hplans.desk w hw) hrun hholds.isOpen hperform
  refine stepsPlans_save hsound hplans
    (congrArg (fun rows ↦ Table.put rows _) hmakes.prepares.workspaces) hw hmakes.prepares.issued
    hmakes.changes.owner.1 (hwork.toPlanStep.congr rfl rfl rfl rfl) hwork.others ?_
  rcases hcause with ⟨rfl, rfl⟩ | hreplaces
  · exact Or.inl ⟨rfl, rfl⟩
  · exact Or.inr (Or.inr ⟨context, callId, request, run, rfl, hid.symm, hreplaces.run_mem,
      hreplaces.isOpen, hreplaces.first, hreplaces.notes, hreplaces.asked⟩)

/-! ### One call -/

theorem stepsPlans_commit {α : Type} {op : AgentOp} {body : Txn Failure AgentDb α}
    (hsound : db.Sound) (hplans : db.PlansSound)
    (h : ∀ a db', body db = .ok a db' → StepsPlans op db db') :
    StepsPlans op db (commit body db) := by
  rcases commit_cases body db with heq | ⟨a, db', hok, heq⟩
  · rw [heq]
    exact stepsPlans_same hsound hplans
  · rw [heq]
    exact h a db' hok

/-- What every call does to the plans. -/
theorem step_plans (hsound : db.Sound) (hplans : db.PlansSound) (input : AgentInput) :
    StepsPlans input.op db (step db input) := by
  have hquiet : ¬ input.op.permit.plan → StepsPlans input.op db (step db input) :=
    stepsPlans_quiet hsound hplans (progress_step hsound input)
  obtain ⟨call, later, op⟩ := input
  cases op with
  | patchPlan => exact stepsPlans_commit hsound hplans fun _ _ ↦ stepsPlans_patchPlan hsound hplans
  | planCommand =>
    exact stepsPlans_commit hsound hplans fun _ _ ↦ stepsPlans_planCommand hsound hplans
  | runTool context callId request operation =>
    cases operation with
    | generate =>
      exact stepsPlans_commit hsound hplans fun _ _ ↦ stepsPlans_generate hsound hplans
    | _ => exact hquiet id
  | _ => exact hquiet id

/-! ### Every run -/

theorem AgentDb.PlansSound.start (board : Board) : (AgentDb.start board).PlansSound where
  desk _ h := absurd h List.not_mem_nil
  noted _ h := absurd h List.not_mem_nil
  created _ h := absurd h List.not_mem_nil
  issued _ h := absurd h List.not_mem_nil

/-- The plans of every session are in order: the draft is the active plan, and a plan and its run
name each other. -/
structure AgentDb.PlansInOrder (db : AgentDb) : Prop where
  draft : ∀ w ∈ db.workspaces.rows, ∀ plan ∈ db.plansOf w.session.id,
    plan.status = .draft ↔ w.session.activePlanId = some plan.id
  pointer : ∀ w ∈ db.workspaces.rows, ∀ planId ∈ w.session.activePlanId,
    ∃ plan ∈ db.plansOf w.session.id, plan.id = planId
  origin : ∀ w ∈ db.workspaces.rows, ∀ plan ∈ db.plansOf w.session.id,
    ∃ run ∈ w.runs.rows, plan.createdByRunId = some run.id ∧ run.generatedPlanId = some plan.id
  once : ∀ w ∈ db.workspaces.rows, ∀ plan ∈ db.plansOf w.session.id,
    ∀ other ∈ db.plansOf w.session.id, other.createdByRunId = plan.createdByRunId → other = plan

theorem planPhase_eq_inHand {status : PlanStatus} :
    planPhase status = .inHand ↔ status = .draft := by
  cases status <;> simp [planPhase]

theorem AgentDb.PlansSound.origin (h : db.PlansSound) (hw : w ∈ db.workspaces.rows)
    {plan : SchedulePlan} (hplan : plan ∈ db.plansOf w.session.id) : ∃ run ∈ w.runs.rows,
      plan.createdByRunId = some run.id ∧ run.generatedPlanId = some plan.id := by
  obtain ⟨runId, hrunId⟩ := Option.isSome_iff_exists.mp (h.created w hw plan hplan)
  obtain ⟨run, hrun, rfl, hgenerated⟩ := h.noted w hw plan hplan runId hrunId
  exact ⟨run, hrun, hrunId, hgenerated⟩

/-- The draft of a session is its active plan. -/
theorem AgentDb.PlansSound.draft_iff (h : db.PlansSound) (hw : w ∈ db.workspaces.rows)
    {plan : SchedulePlan} (hplan : plan ∈ db.plansOf w.session.id) :
    plan.status = .draft ↔ w.session.activePlanId = some plan.id := by
  obtain ⟨hrow, hsession⟩ := mem_plansOf.mp hplan
  have hcase : planCase plan ∈ (db.planDesk w).cases :=
    mem_planDesk.mpr ⟨plan, hrow, hsession, h.created w hw plan hplan, rfl⟩
  exact planPhase_eq_inHand.symm.trans ((h.desk w hw).inHand_iff (planCase plan) hcase)

theorem AgentDb.PlansSound.inOrder (h : db.PlansSound) : db.PlansInOrder where
  draft _ hw _ hplan := h.draft_iff hw hplan
  pointer w hw planId hplanId := by
    obtain ⟨case, hcase, hid⟩ := (h.desk w hw).current_mem planId hplanId
    obtain ⟨plan, hplan, hsession, -, rfl⟩ := mem_planDesk.mp hcase
    exact ⟨plan, mem_plansOf.mpr ⟨hplan, hsession⟩, hid⟩
  origin _ hw _ hplan := h.origin hw hplan
  once w hw plan hplan other hother hsame := by
    obtain ⟨run, hrun, hcreated, hgenerated⟩ := h.origin hw hplan
    obtain ⟨run', hrun', hcreated', hgenerated'⟩ := h.origin hw hother
    have hid : run'.id = run.id :=
      Option.some.inj (hcreated'.symm.trans (hsame.trans hcreated))
    obtain rfl := w.runs.eq_of_key_eq hrun' hrun hid
    exact db.board.plans.eq_of_key_eq (mem_plansOf.mp hother).1 (mem_plansOf.mp hplan).1
      (Option.some.inj (hgenerated'.symm.trans hgenerated))

/-- What a later state keeps of the plans: while its session is there, a plan is, with its run; when
it is no draft any more, it stays as it is; and every run keeps its plan. -/
structure AgentDb.KeepsPlans (db db' : AgentDb) : Prop where
  issued : db.board.issued ⊆ db'.board.issued
  sessions : ∀ w' ∈ db'.workspaces.rows, w'.session.id ∈ db.board.issued →
    ∃ w ∈ db.workspaces.rows, w.session.id = w'.session.id ∧
      ∀ run ∈ w.runs.rows, ∀ planId ∈ run.generatedPlanId,
        ∃ later ∈ w'.runs.rows, later.id = run.id ∧ later.generatedPlanId = some planId
  kept : ∀ sessionId ∈ db'.workspaces.keys, ∀ plan ∈ db.plansOf sessionId,
    ∃ later ∈ db'.plansOf sessionId, later.id = plan.id ∧
      later.createdByRunId = plan.createdByRunId
  settled : ∀ sessionId ∈ db'.workspaces.keys, ∀ plan ∈ db.plansOf sessionId,
    plan.status ≠ .draft → plan ∈ db'.plansOf sessionId

theorem AgentDb.KeepsPlans.refl (db : AgentDb) : KeepsPlans db db where
  issued := List.Subset.refl _
  sessions w hw _ := ⟨w, hw, rfl, fun run hrun _ h ↦ ⟨run, hrun, rfl, h⟩⟩
  kept _ _ plan hplan := ⟨plan, hplan, rfl, rfl⟩
  settled _ _ _ hplan _ := hplan

/-- What two calls after each other keep, as long as plans belong to sessions that were created. -/
theorem AgentDb.KeepsPlans.trans {db₃ : AgentDb} (hplans : db.PlansSound) (h : KeepsPlans db db₂)
    (h' : KeepsPlans db₂ db₃) : KeepsPlans db db₃ := by
  have hmiddle : ∀ sessionId ∈ db₃.workspaces.keys, ∀ plan ∈ db.plansOf sessionId,
      sessionId ∈ db₂.workspaces.keys := by
    intro sessionId hsession plan hplan
    obtain ⟨hrow, rfl⟩ := mem_plansOf.mp hplan
    obtain ⟨w₃, hw₃, hid⟩ := (Table.mem_keys _).mp hsession
    have hissued : w₃.session.id ∈ db₂.board.issued :=
      h.issued ((show w₃.session.id = plan.sessionId from hid) ▸ hplans.issued plan hrow)
    obtain ⟨w₂, hw₂, hid', -⟩ := h'.sessions w₃ hw₃ hissued
    exact (Table.mem_keys _).mpr ⟨w₂, hw₂, hid'.trans hid⟩
  constructor
  · exact List.Subset.trans h.issued h'.issued
  · intro w₃ hw₃ hissued
    obtain ⟨w₂, hw₂, hid, hruns⟩ := h'.sessions w₃ hw₃ (h.issued hissued)
    obtain ⟨w, hw, hid', hruns'⟩ := h.sessions w₂ hw₂ (hid ▸ hissued)
    refine ⟨w, hw, hid'.trans hid, fun run hrun planId hplanId ↦ ?_⟩
    obtain ⟨middle, hmem, hrunId, hgenerated⟩ := hruns' run hrun planId hplanId
    obtain ⟨later, hlater, hrunId', hgenerated'⟩ := hruns middle hmem planId hgenerated
    exact ⟨later, hlater, hrunId'.trans hrunId, hgenerated'⟩
  · intro sessionId hsession plan hplan
    obtain ⟨middle, hmem, hid, hcreated⟩ :=
      h.kept sessionId (hmiddle sessionId hsession plan hplan) plan hplan
    obtain ⟨later, hlater, hid', hcreated'⟩ := h'.kept sessionId hsession middle hmem
    exact ⟨later, hlater, hid'.trans hid, hcreated'.trans hcreated⟩
  · intro sessionId hsession plan hplan hdraft
    refine h'.settled sessionId hsession plan ?_ hdraft
    exact h.settled sessionId (hmiddle sessionId hsession plan hplan) plan hplan hdraft

/-- What one call keeps. -/
theorem AgentDb.PlansSound.keeps {op : AgentOp} (hplans : db.PlansSound)
    (h : StepsPlans op db db') : KeepsPlans db db' := by
  have hstep : ∀ w' ∈ db'.workspaces.rows, w'.session.id ∈ db.board.issued →
      ∃ w ∈ db.workspaces.rows, w'.session.id = w.session.id ∧
        PlanStep (Fresh db db') db db' w w' := by
    intro w' hw' hissued
    rcases h.step w' hw' with ⟨w, hw, hid, hstep, -⟩ | ⟨hfresh, -⟩
    · exact ⟨w, hw, hid, hstep⟩
    · exact absurd hissued hfresh.1
  have hsession : ∀ sessionId ∈ db'.workspaces.keys, ∀ plan ∈ db.plansOf sessionId,
      ∃ w ∈ db.workspaces.rows, ∃ w', w.session.id = sessionId ∧
        PlanStep (Fresh db db') db db' w w' := by
    intro sessionId hsession plan hplan
    obtain ⟨hrow, rfl⟩ := mem_plansOf.mp hplan
    obtain ⟨w', hw', hid⟩ := (Table.mem_keys _).mp hsession
    have hid : w'.session.id = plan.sessionId := hid
    obtain ⟨w, hw, hsame, hstep⟩ := hstep w' hw' (hid ▸ hplans.issued plan hrow)
    exact ⟨w, hw, w', hsame.symm.trans hid, hstep⟩
  constructor
  · exact h.issued
  · intro w' hw' hissued
    obtain ⟨w, hw, hid, hstep⟩ := hstep w' hw' hissued
    exact ⟨w, hw, hid.symm, hstep.notes⟩
  · intro sessionId hmem plan hplan
    obtain ⟨w, hw, w', rfl, hstep⟩ := hsession sessionId hmem plan hplan
    exact hstep.kept plan hplan
  · intro sessionId hmem plan hplan hdraft
    obtain ⟨w, hw, w', rfl, hstep⟩ := hsession sessionId hmem plan hplan
    exact hstep.settled plan hplan fun hactive ↦ hdraft ((hplans.draft_iff hw hplan).mpr hactive)

/-- In every state that a run of the system reaches, the plans are in order; every later state keeps
them; and the next call changes the plans of a session only by a command of its owner on its draft
while it is idle, or by the generation of a run of it, which replaces only the draft that it was
asked to replace. -/
theorem plans_run (board : Board) (inputs : List AgentInput) :
    (System.run step (.start board) inputs).PlansInOrder ∧
    (∀ further, KeepsPlans (System.run step (.start board) inputs)
      (System.run step (.start board) (inputs ++ further))) ∧
    ∀ input, ∀ w ∈ (System.run step (.start board) inputs).workspaces.rows,
      ∀ w' ∈ (step (System.run step (.start board) inputs) input).workspaces.rows,
        w'.session.id = w.session.id → PlanCause input.op (System.run step (.start board) inputs)
          (step (System.run step (.start board) inputs) input) w w' := by
  have hstep : ∀ (db : AgentDb) (input : AgentInput), db.Sound ∧ db.PlansSound →
      (step db input).Sound ∧ (step db input).PlansSound :=
    fun db input h ↦ ⟨h.1.step input, h.2.step (step_plans h.1 h.2 input)⟩
  have hrun := System.invariant_run_all hstep inputs _ ⟨.start board, .start board⟩
  refine ⟨hrun.2.inOrder, fun further ↦ ?_, fun input w hw w' hw' hid ↦ ?_⟩
  · rw [System.run_append]
    generalize System.run step (.start board) inputs = db at hrun
    induction further generalizing db with
    | nil => exact .refl db
    | cons input further ih =>
      exact .trans hrun.2 (hrun.2.keeps (step_plans hrun.1 hrun.2 input))
        (ih _ (hstep _ input hrun))
  · rcases (step_plans hrun.1 hrun.2 input).step w' hw' with ⟨v, hv, hsame, -, hcause⟩ | ⟨hfresh, -⟩
    · obtain rfl := AgentDb.workspace_eq hv hw (hsame.symm.trans hid)
      exact hcause
    · exact absurd (hid ▸ hrun.1.session_issued w hw) hfresh.1

end FilmOS.Agent
