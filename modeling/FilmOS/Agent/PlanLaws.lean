import FilmOS.Agent.PlanEdits
import FilmOS.Agent.WorkerLaws

/-!
# Work on plans makes progress

The plans that the runs of a session generated are a desk of their own: the draft is the case in
hand, and the pointer of the session names it (`AgentDb.planDesk`). `PlanWork` is what the work on
the plans of one session does: moves on that desk, while the plans of the other sessions stay, and
every new plan is noted at the run that generated it. Generation (`generate_work`) puts the
previous draft aside for the new one; a command of the user settles the draft or leaves it
(`planCommand_ok`).
-/

set_option autoImplicit false
set_option relaxedAutoImplicit false

namespace FilmOS.Agent

open Transaction AgentDb Scheduling

/-! ### The plans of a session as a desk -/

/-- How a plan ended. -/
inductive PlanEnd
  | applied
  | closed
  | superseded
deriving DecidableEq, Repr

def planPhase : PlanStatus → Phase PlanEnd
  | .draft => .inHand
  | .applied => .settled .applied
  | .closed => .settled .closed
  | .superseded => .settled .superseded

/-- A plan as a case that comes from its run. -/
def planCase (plan : SchedulePlan) : Case Id (Option Id) PlanEnd :=
  ⟨plan.id, planPhase plan.status, plan.createdByRunId⟩

/-- The plans of a session that its runs generated, and the pointer to the draft. -/
def AgentDb.planDesk (db : AgentDb) (w : Workspace) : Desk Id (Option Id) PlanEnd where
  cases := ((db.plansOf w.session.id).filter (·.createdByRunId.isSome)).map planCase
  current := w.session.activePlanId
  shelved := fun _ ↦ False

variable {call : Call} {db db' : AgentDb} {permit : Permit} {fresh : Id → Prop}
  {w w' : Workspace} {command : AgentCommand → Prop}

theorem mem_planDesk {case : Case Id (Option Id) PlanEnd} :
    case ∈ (db.planDesk w).cases ↔ ∃ plan ∈ db.board.plans.rows,
      plan.sessionId = w.session.id ∧ plan.createdByRunId.isSome ∧ planCase plan = case := by
  unfold AgentDb.planDesk AgentDb.plansOf
  simp only [List.mem_map, List.mem_filter, decide_eq_true_eq, and_assoc]

/-! ### Rewriting one plan -/

theorem rows_updatePlan (plans : Table SchedulePlan) (planId : Id)
    (change : SchedulePlan → SchedulePlan) (hid : ∀ plan, (change plan).id = plan.id) :
    (plans.update planId change hid).rows =
      plans.rows.map fun plan ↦ if plan.id = planId then change plan else plan :=
  Table.rows_update _ _ _ hid

/-- One plan is rewritten: it stays what it is, and its status stays or becomes the given one. -/
def RewritesPlan (planId : Id) (status : Option PlanStatus) (plans plans' : Table SchedulePlan) :
    Prop :=
  ∃ change : SchedulePlan → SchedulePlan, plans'.rows = plans.rows.map change ∧
    (∀ plan, plan.id ≠ planId → change plan = plan) ∧
    ∀ plan, (change plan).id = plan.id ∧ (change plan).sessionId = plan.sessionId ∧
      (change plan).createdByRunId = plan.createdByRunId ∧
      (plan.id = planId → (change plan).status = status.getD plan.status)

theorem RewritesPlan.refl (planId : Id) (plans : Table SchedulePlan) :
    RewritesPlan planId none plans plans :=
  ⟨id, (List.map_id _).symm, fun _ _ ↦ rfl, fun _ ↦ ⟨rfl, rfl, rfl, fun _ ↦ rfl⟩⟩

/-- A row that is changed further keeps the status it got. -/
theorem RewritesPlan.update {planId : Id} {status : Option PlanStatus}
    {plans plans' : Table SchedulePlan} (h : RewritesPlan planId status plans plans')
    (change : SchedulePlan → SchedulePlan) (hid : ∀ plan, (change plan).id = plan.id)
    (hkeeps : ∀ plan, (change plan).sessionId = plan.sessionId ∧
      (change plan).createdByRunId = plan.createdByRunId ∧ (change plan).status = plan.status) :
    RewritesPlan planId status plans (plans'.update planId change hid) := by
  obtain ⟨first, hrows, hothers, hfirst⟩ := h
  refine ⟨fun plan ↦ if (first plan).id = planId then change (first plan) else first plan, ?_,
    ?_, ?_⟩
  · rw [Table.rows_update, hrows, List.map_map]
    rfl
  · intro plan hne
    have hfirst : first plan = plan := hothers plan hne
    simp only [hfirst, if_neg hne]
  · intro plan
    obtain ⟨hid', hsession, hrun, hstatus⟩ := hfirst plan
    obtain ⟨hsession', hrun', hstatus'⟩ := hkeeps (first plan)
    simp only [hid']
    split_ifs with hkey
    · exact ⟨(hid _).trans hid', hsession'.trans hsession, hrun'.trans hrun,
        fun h ↦ hstatus'.trans (hstatus h)⟩
    · exact ⟨hid', hsession, hrun, fun h ↦ absurd h hkey⟩

/-- A row gets a status. -/
theorem RewritesPlan.settle (planId : Id) (status : PlanStatus) (plans : Table SchedulePlan)
    (change : SchedulePlan → SchedulePlan) (hid : ∀ plan, (change plan).id = plan.id)
    (hkeeps : ∀ plan, (change plan).sessionId = plan.sessionId ∧
      (change plan).createdByRunId = plan.createdByRunId ∧ (change plan).status = status) :
    RewritesPlan planId (some status) plans (plans.update planId change hid) := by
  refine ⟨fun plan ↦ if plan.id = planId then change plan else plan, ?_, ?_, ?_⟩
  · exact rows_updatePlan _ _ _ _
  · exact fun plan hne ↦ if_neg hne
  · intro plan
    obtain ⟨hsession, hrun, hstatus⟩ := hkeeps plan
    by_cases hkey : plan.id = planId
    · simp only [if_pos hkey]
      exact ⟨hid plan, hsession, hrun, fun _ ↦ hstatus⟩
    · simp only [if_neg hkey]
      exact ⟨trivial, trivial, trivial, fun h ↦ absurd h hkey⟩

/-- The plans of a session after one plan was rewritten. -/
theorem RewritesPlan.plansOf {planId : Id} {status : Option PlanStatus}
    (h : RewritesPlan planId status db.board.plans db'.board.plans) :
    ∃ change : SchedulePlan → SchedulePlan,
      (∀ sessionId, db'.plansOf sessionId = (db.plansOf sessionId).map change) ∧
      (∀ plan, plan.id ≠ planId → change plan = plan) ∧
      ∀ plan, (change plan).id = plan.id ∧ (change plan).createdByRunId = plan.createdByRunId ∧
        (plan.id = planId → (change plan).status = status.getD plan.status) := by
  obtain ⟨change, hrows, hothers, hkeeps⟩ := h
  refine ⟨change, fun sessionId ↦ ?_, hothers, fun plan ↦ ?_⟩
  · unfold AgentDb.plansOf
    rw [hrows, List.filter_map]
    congr 1
    refine List.filter_congr fun plan _ ↦ ?_
    simp only [Function.comp_apply, (hkeeps plan).2.1]
  · exact ⟨(hkeeps plan).1, (hkeeps plan).2.2⟩

/-- The plans of a session that does not have the plan stay as they are. -/
theorem RewritesPlan.plansOf_eq {planId : Id} {status : Option PlanStatus}
    (h : RewritesPlan planId status db.board.plans db'.board.plans) {sessionId : Id}
    (hother : ∀ plan ∈ db.plansOf sessionId, plan.id ≠ planId) :
    db'.plansOf sessionId = db.plansOf sessionId := by
  obtain ⟨change, hplans, hothers, -⟩ := h.plansOf
  rw [hplans]
  exact (List.map_congr_left fun plan hplan ↦ hothers plan (hother plan hplan)).trans
    (List.map_id _)

/-- The plans of a session are kept when one plan is rewritten, and the others stay as they are. -/
theorem RewritesPlan.plansOf_kept {planId : Id} {status : Option PlanStatus}
    (h : RewritesPlan planId status db.board.plans db'.board.plans) {sessionId : Id}
    {plan : SchedulePlan} (hplan : plan ∈ db.plansOf sessionId) :
    (∃ later ∈ db'.plansOf sessionId, later.id = plan.id ∧
      later.createdByRunId = plan.createdByRunId) ∧
      (plan.id ≠ planId → plan ∈ db'.plansOf sessionId) := by
  obtain ⟨change, hplans, hothers, hkeeps⟩ := h.plansOf
  have hlater : change plan ∈ db'.plansOf sessionId := by
    rw [hplans]
    exact List.mem_map_of_mem hplan
  refine ⟨⟨change plan, hlater, (hkeeps plan).1, (hkeeps plan).2.1⟩, fun hne ↦ ?_⟩
  rw [hothers plan hne] at hlater
  exact hlater

/-- The plans of a session come from its plans before one plan was rewritten. -/
theorem RewritesPlan.plansOf_origin {planId : Id} {status : Option PlanStatus}
    (h : RewritesPlan planId status db.board.plans db'.board.plans) {sessionId : Id}
    {later : SchedulePlan} (hlater : later ∈ db'.plansOf sessionId) :
    ∃ plan ∈ db.plansOf sessionId, plan.id = later.id ∧
      plan.createdByRunId = later.createdByRunId := by
  obtain ⟨change, hplans, -, hkeeps⟩ := h.plansOf
  rw [hplans] at hlater
  obtain ⟨old, hold, rfl⟩ := List.mem_map.mp hlater
  exact ⟨old, hold, (hkeeps old).1.symm, (hkeeps old).2.1.symm⟩

/-- The cases of the plan desk after one plan was rewritten. -/
theorem RewritesPlan.cases {planId : Id} {status : Option PlanStatus}
    (h : RewritesPlan planId status db.board.plans db'.board.plans)
    (hsession : w'.session.id = w.session.id) :
    (db'.planDesk w').cases = (db.planDesk w).cases.map (fun case ↦
      if case.id = planId then { case with phase := (status.map planPhase).getD case.phase }
      else case) := by
  obtain ⟨change, hplans, hothers, hkeeps⟩ := h.plansOf
  unfold AgentDb.planDesk
  rw [hsession, hplans, List.filter_map, List.map_map, List.map_map]
  have hfilter : ((fun plan : SchedulePlan ↦ plan.createdByRunId.isSome) ∘ change) =
      fun plan ↦ plan.createdByRunId.isSome := by
    funext plan
    simp only [Function.comp_apply, (hkeeps plan).2.1]
  rw [hfilter]
  refine List.map_congr_left fun plan _ ↦ ?_
  simp only [Function.comp_apply]
  by_cases hkey : plan.id = planId
  · obtain ⟨hid, hrun, hstatus⟩ := hkeeps plan
    unfold planCase
    rw [if_pos hkey, hid, hrun, hstatus hkey]
    cases status <;> rfl
  · rw [hothers plan hkey]
    exact (if_neg hkey).symm

/-! ### What work on plans does -/

/-- Every plan of a session is noted at the run that generated it. -/
def AgentDb.PlansNoted (db : AgentDb) (w : Workspace) : Prop :=
  ∀ plan ∈ db.plansOf w.session.id, ∀ runId ∈ plan.createdByRunId,
    ∃ run ∈ w.runs.rows, run.id = runId ∧ run.generatedPlanId = some plan.id

/-- A run that has no plan yet generates one: the draft that it puts aside is the one that its
retry intent names, in the revision that it names. -/
structure ReplacesPlan (run : AgentRun) (db db' : AgentDb) (w w' : Workspace) : Prop where
  run_mem : run ∈ w.runs.rows
  isOpen : run.status.IsOpen
  first : run.generatedPlanId = none
  notes : ∃ later ∈ w'.runs.rows, later.id = run.id ∧
    later.generatedPlanId = w'.session.activePlanId
  asked : ∀ plan ∈ db.plansOf w.session.id, plan ∈ db'.plansOf w.session.id ∨
    ∃ intent ∈ run.config.retryIntent,
      intent.planId = plan.id ∧ intent.expectedRevision = plan.revision

/-- What becomes of the plans of a session in a step: only the active plan changes, and no plan
goes. -/
structure PlanStep (fresh : Id → Prop) (db db' : AgentDb) (w w' : Workspace) : Prop where
  moves : Desk.Moves fresh (db.planDesk w) (db'.planDesk w')
  noted : db.PlansNoted w → db'.PlansNoted w'
  notes : ∀ run ∈ w.runs.rows, ∀ planId ∈ run.generatedPlanId,
    ∃ later ∈ w'.runs.rows, later.id = run.id ∧ later.generatedPlanId = some planId
  kept : ∀ plan ∈ db.plansOf w.session.id, ∃ later ∈ db'.plansOf w.session.id,
    later.id = plan.id ∧ later.createdByRunId = plan.createdByRunId
  settled : ∀ plan ∈ db.plansOf w.session.id, w.session.activePlanId ≠ some plan.id →
    plan ∈ db'.plansOf w.session.id
  created : ∀ plan ∈ db'.plansOf w.session.id, plan.createdByRunId.isSome ∨
    ∃ earlier ∈ db.plansOf w.session.id, earlier.createdByRunId = plan.createdByRunId

/-- What the work on the plans of one session does: the plans of the other sessions stay. -/
structure PlanWork (fresh : Id → Prop) (db db' : AgentDb) (w w' : Workspace) : Prop extends
    PlanStep fresh db db' w w' where
  others : ∀ sessionId, sessionId ≠ w.session.id → db'.plansOf sessionId = db.plansOf sessionId

/-- No plan of the session was touched, and the runs keep their plans. -/
theorem PlanStep.of_eq (hsession : w'.session.id = w.session.id)
    (hactive : w'.session.activePlanId = w.session.activePlanId)
    (hplans : db'.plansOf w.session.id = db.plansOf w.session.id)
    (hnotes : ∀ run ∈ w.runs.rows, ∃ later ∈ w'.runs.rows, later.id = run.id ∧
      later.generatedPlanId = run.generatedPlanId) : PlanStep fresh db db' w w' where
  moves := by
    have hdesk : db'.planDesk w' = db.planDesk w := by
      unfold AgentDb.planDesk
      rw [hsession, hactive, hplans]
    rw [hdesk]
  noted := by
    intro hnoted plan hplan runId hrunId
    rw [hsession, hplans] at hplan
    obtain ⟨run, hrun, hid, hgenerated⟩ := hnoted plan hplan runId hrunId
    obtain ⟨later, hlater, hid', hgenerated'⟩ := hnotes run hrun
    exact ⟨later, hlater, hid'.trans hid, hgenerated'.trans hgenerated⟩
  notes := by
    intro run hrun planId hplanId
    obtain ⟨later, hlater, hid, hgenerated⟩ := hnotes run hrun
    exact ⟨later, hlater, hid, hgenerated.trans hplanId⟩
  kept plan hplan := ⟨plan, hplans ▸ hplan, rfl, rfl⟩
  settled plan hplan _ := hplans ▸ hplan
  created plan hplan := Or.inr ⟨plan, hplans ▸ hplan, rfl⟩

/-- No plan was touched, and the runs keep their plans. -/
theorem PlanWork.of_eq (hsession : w'.session.id = w.session.id)
    (hactive : w'.session.activePlanId = w.session.activePlanId)
    (hplans : ∀ sessionId, db'.plansOf sessionId = db.plansOf sessionId)
    (hnotes : ∀ run ∈ w.runs.rows, ∃ later ∈ w'.runs.rows, later.id = run.id ∧
      later.generatedPlanId = run.generatedPlanId) : PlanWork fresh db db' w w' where
  toPlanStep := .of_eq hsession hactive (hplans _) hnotes
  others sessionId _ := hplans sessionId

/-! ### Generation -/

theorem withDraftIds_frame {known : ProposedTask → Option Id} (tasks : List ProposedTask) :
    ∀ {db db' : AgentDb} {tasks' : List ProposedTask},
      withDraftIds call known tasks db = .ok tasks' db' →
        ∃ issued, db.board.issued ⊆ issued ∧
          db' = { db with board := { db.board with issued } } := by
  induction tasks with
  | nil =>
    intro db db' tasks' h
    obtain ⟨-, rfl⟩ := pure_eq_ok.mp h
    exact ⟨db.board.issued, List.Subset.refl _, rfl⟩
  | cons task rest ih =>
    intro db db' tasks' h
    unfold withDraftIds at h
    cases htruthy : truthy (known task) with
    | some old =>
      simp only [htruthy, pure_bind] at h
      obtain ⟨others, db₁, hothers, h⟩ := bind_eq_ok.mp h
      obtain ⟨-, rfl⟩ := pure_eq_ok.mp h
      exact ih hothers
    | none =>
      simp only [htruthy] at h
      obtain ⟨id, db₁, hid, h⟩ := bind_eq_ok.mp h
      obtain ⟨-, rfl⟩ := generateId_eq_ok.mp hid
      obtain ⟨others, db₂, hothers, h⟩ := bind_eq_ok.mp h
      obtain ⟨-, rfl⟩ := pure_eq_ok.mp h
      obtain ⟨issued, hsubset, rfl⟩ := ih hothers
      exact ⟨issued, List.Subset.trans (List.subset_cons_self _ _) hsubset, rfl⟩

/-- A created plan is a new draft of its session. -/
theorem createSchedulePlan_frame {sessionId userId : Id} {orderIds : Option (List Id)}
    {board board' : Board} {plan : SchedulePlan}
    (h : createSchedulePlan call sessionId userId orderIds board = .ok plan board') :
    plan.sessionId = sessionId ∧ plan.status = .draft ∧ plan.id ∉ board.issued ∧
      plan.id ∉ board.plans.keys ∧ ∃ plans : Table SchedulePlan,
        plans.rows = board.plans.rows ++ [plan] ∧
        board' = { board with plans, issued := plan.id :: board.issued } := by
  unfold createSchedulePlan Board.generateId at h
  simp only [get_bind_eq_ok, set_bind_eq_ok, orRaise_bind_eq_ok, checked_bind_eq_ok, pure_eq_ok,
    bind_assoc, pure_bind] at h
  obtain ⟨orders, -, proposal, -, plans, hinsert, rfl, rfl⟩ := h
  obtain ⟨hkey, hrows⟩ := (Table.insert?_eq_some_iff _ _ _).mp hinsert
  exact ⟨rfl, rfl, fun hmem ↦ call.source.fresh board.usedIds (board.issued_subset_usedIds hmem),
    hkey, plans, hrows, rfl⟩

/-- A plan as its replacement leaves it. -/
def supersededPlan (call : Call) (planId : Id) (plan : SchedulePlan) : SchedulePlan :=
  { plan with status := .superseded, supersededById := some planId, updatedAt := call.now }

theorem id_supersededPlan (call : Call) (planId : Id) (plan : SchedulePlan) :
    (supersededPlan call planId plan).id = plan.id := rfl

/-- The plans after the previous draft was put aside. -/
def PutsAside (previous : Option SchedulePlan) (plans plans' : Table SchedulePlan) : Prop :=
  match previous with
  | none => plans' = plans
  | some previous => RewritesPlan previous.id (some .superseded) plans plans'

/-- The previous draft is put aside for a plan that was just created. -/
theorem supersede_frame {runId : Id} {plan : SchedulePlan} {previous : Option SchedulePlan}
    {old : Table SchedulePlan} (hrows : db.board.plans.rows = old.rows ++ [plan])
    (hkey : plan.id ∉ old.keys) (hprevious : ∀ plan ∈ previous, plan ∈ old.rows)
    (h : supersede call runId plan previous w db = .ok w' db') :
    ∃ aside : Table SchedulePlan, PutsAside previous old aside ∧
      db'.board.plans.rows = aside.rows ++ [plan] ∧
      db' = { db with board := { db.board with plans := db'.board.plans } } ∧
      (∀ (permit : Permit) (fresh : Id → Prop), w.Changes permit fresh w') ∧ w'.runs = w.runs := by
  unfold supersede at h
  cases previous with
  | none =>
    obtain ⟨rfl, rfl⟩ := pure_eq_ok.mp h
    exact ⟨old, rfl, hrows, rfl, fun _ _ ↦ .refl, rfl⟩
  | some previous =>
    unfold setPlanRow at h
    simp only [modify_bind_eq_ok, pure_eq_ok] at h
    obtain ⟨rfl, rfl⟩ := h
    refine ⟨old.update previous.id (supersededPlan call plan.id) (id_supersededPlan call plan.id),
      ?_, ?_, rfl, fun _ _ ↦ Workspace.Changes.append .refl call _ rfl (by decide), rfl⟩
    · exact .settle previous.id .superseded _ (supersededPlan call plan.id) _
        fun _ ↦ ⟨rfl, rfl, rfl⟩
    · have hne : plan.id ≠ previous.id := by
        intro heq
        exact hkey ((Table.mem_keys _).mpr ⟨previous, hprevious previous rfl, heq.symm⟩)
      refine (rows_updatePlan db.board.plans previous.id (supersededPlan call plan.id)
        (id_supersededPlan call plan.id)).trans ?_
      rw [rows_updatePlan, hrows, List.map_append]
      simp [hne]

/-- A run with the plan that it generated. -/
def notedRun (planId : Id) (run : AgentRun) : AgentRun :=
  { run with generatedPlanId := some planId }

theorem id_notedRun (planId : Id) (run : AgentRun) : (notedRun planId run).id = run.id := rfl

/-- A plan with the run that generated it. -/
def generatedPlan (runId : Id) (tasks : List ProposedTask) (plan : SchedulePlan) : SchedulePlan :=
  { plan with createdByRunId := some runId, tasks }

theorem id_generatedPlan (runId : Id) (tasks : List ProposedTask) (plan : SchedulePlan) :
    (generatedPlan runId tasks plan).id = plan.id := rfl

/-- A session with a new plan, generated by a run. -/
structure HasGenerated (runId planId : Id) (w w' : Workspace) : Prop where
  changes : ∀ (permit : Permit) (fresh : Id → Prop), permit.plan → w.Changes permit fresh w'
  active : w'.session.activePlanId = some planId
  runs : w'.runs = (w.setRun runId (notedRun planId) (id_notedRun planId)).runs

/-- A new draft of a session takes the place of the previous one. -/
structure GeneratesPlan (runId : Id) (previous : Option SchedulePlan) (db db' : AgentDb)
    (w w' : Workspace) (plan : SchedulePlan) : Prop where
  fresh : Fresh db db' plan.id
  isNew : plan.id ∉ db.board.plans.keys
  session : plan.sessionId = w.session.id
  draft : plan.status = .draft
  run : plan.createdByRunId = some runId
  plans : ∃ aside : Table SchedulePlan, PutsAside previous db.board.plans aside ∧
    db'.board.plans.rows = aside.rows ++ [plan]
  issued : db.board.issued ⊆ db'.board.issued
  frame : db' = { db with board :=
    { db.board with plans := db'.board.plans, issued := db'.board.issued } }
  workspace : HasGenerated runId plan.id w w'

/-- What the generation of a plan does: nothing when no order waits, or a new draft takes the place
of the previous one. -/
theorem generateAnew_ok {run : AgentRun} {previous : Option SchedulePlan} {result : ToolResult}
    (hprevious : ∀ plan ∈ previous, plan ∈ db.board.plans.rows)
    (h : generateAnew call run previous w db = .ok (w', result) db') :
    (w' = w ∧ db' = db) ∨ ∃ plan, GeneratesPlan run.id previous db db' w w' plan := by
  unfold generateAnew at h
  rw [get_bind_eq_ok] at h
  split_ifs at h with hnone
  · obtain ⟨heq, rfl⟩ := pure_eq_ok.mp h
    exact Or.inl ⟨(Prod.mk.inj heq).1.symm, rfl⟩
  · obtain ⟨created, db₁, hboard, h⟩ := bind_eq_ok.mp h
    obtain ⟨board, hcreated, rfl⟩ := onBoard_eq_ok.mp hboard
    obtain ⟨hsession, hdraft, hissued, hkey, plans, hrows, rfl⟩ := createSchedulePlan_frame hcreated
    obtain ⟨w₁, db₂, hsupersede, h⟩ := bind_eq_ok.mp h
    obtain ⟨aside, haside, hlast, hframe, hchanges, hruns⟩ :=
      supersede_frame hrows hkey hprevious hsupersede
    obtain ⟨tasks, db₃, htasks, h⟩ := bind_eq_ok.mp h
    obtain ⟨issued, hsubset, rfl⟩ := withDraftIds_frame created.tasks htasks
    unfold setPlanRow at h
    simp only [modify_bind_eq_ok, pure_eq_ok, Prod.mk.injEq] at h
    obtain ⟨⟨rfl, -⟩, rfl⟩ := h
    have hold : created.id :: db.board.issued ⊆ issued := by
      rw [hframe] at hsubset
      exact hsubset
    have hnew : ∀ plan ∈ aside.rows, plan.id ≠ created.id := by
      intro plan hplan heq
      have hnodup : (db₂.board.plans.rows.map SchedulePlan.id).Nodup := db₂.board.plans.nodup
      rw [hlast, List.map_append] at hnodup
      refine List.disjoint_of_nodup_append hnodup (List.mem_map_of_mem hplan) ?_
      simp [heq]
    refine Or.inr ⟨generatedPlan run.id tasks created, ⟨hissued, hold List.mem_cons_self⟩, hkey,
      hsession, hdraft, rfl, ⟨aside, haside, ?_⟩,
      List.Subset.trans (List.subset_cons_self _ _) hold, ?_, ?_, rfl, ?_⟩
    · refine (rows_updatePlan db₂.board.plans created.id (generatedPlan run.id tasks)
        (id_generatedPlan run.id tasks)).trans ?_
      rw [hlast, List.map_append]
      congr 1
      · exact (List.map_congr_left fun plan hplan ↦ if_neg (hnew plan hplan)).trans (List.map_id _)
      · simp
    · rw [hframe]
    · intro permit fresh hplan
      have hmarked : w.Changes permit fresh
          (w₁.setRun run.id (notedRun created.id) (id_notedRun created.id)) :=
        (hchanges permit fresh).tail (.markRun w₁ run.id (notedRun created.id) (fun _ ↦ rfl)
          (fun _ ↦ ⟨rfl, rfl, rfl, rfl, rfl⟩) (Or.inl fun _ ↦ rfl) (fun _ _ _ h ↦ h)
          (Or.inr hplan))
      have hset : w.Changes permit fresh
          ((w₁.setRun run.id (notedRun created.id) (id_notedRun created.id)).setPlan
            (some created.id)) := hmarked.tail (.setPlan _ _ hplan)
      exact ((Workspace.Changes.revise hset).append call _ rfl (by decide)).announce call
    · change w₁.runs.update run.id (notedRun created.id) (id_notedRun created.id) = _
      rw [hruns]
      rfl

/-! ### Generation on the desk -/

/-- The database with other plans. -/
def AgentDb.withPlans (plans : Table SchedulePlan) (db : AgentDb) : AgentDb :=
  { db with board := { db.board with plans } }

theorem plansOf_append (db : AgentDb) {plan : SchedulePlan} {aside : Table SchedulePlan}
    (hrows : db'.board.plans.rows = aside.rows ++ [plan]) (sessionId : Id) :
    db'.plansOf sessionId = (db.withPlans aside).plansOf sessionId ++
      if plan.sessionId = sessionId then [plan] else [] := by
  unfold AgentDb.plansOf AgentDb.withPlans
  rw [hrows, List.filter_append]
  congr 1
  by_cases hsession : plan.sessionId = sessionId <;> simp [hsession]

/-- The draft that a session points to is one of its plans. -/
theorem AgentDb.mem_plansOf_active (hdesk : (db.planDesk w).Sound) {planId : Id}
    (hactive : w.session.activePlanId = some planId) :
    ∃ plan, db.board.plans.find? planId = some plan ∧ plan.sessionId = w.session.id ∧
      plan.createdByRunId.isSome := by
  obtain ⟨case, hcase, hid⟩ := hdesk.current_mem planId hactive
  obtain ⟨plan, hplan, hsession, hrun, rfl⟩ := mem_planDesk.mp hcase
  exact ⟨plan, (Table.find?_eq_some_iff _).mpr ⟨hplan, hid⟩, hsession, hrun⟩

/-- The previous draft, read under the pointer of the session, is put aside on the desk. -/
theorem PutsAside.moves {previous : Option SchedulePlan} {aside : Table SchedulePlan}
    (hdesk : (db.planDesk w).Sound)
    (hprevious : w.session.activePlanId.bind db.board.plans.find? = previous)
    (h : PutsAside previous db.board.plans aside) :
    Desk.Moves fresh (db.planDesk w) ((db.withPlans aside).planDesk (w.setPlan none)) ∧
      (∀ sessionId, sessionId ≠ w.session.id →
        (db.withPlans aside).plansOf sessionId = db.plansOf sessionId) ∧
      ∀ plan ∈ (db.withPlans aside).plansOf w.session.id, ∃ old ∈ db.plansOf w.session.id,
        old.id = plan.id ∧ old.createdByRunId = plan.createdByRunId := by
  cases hactive : w.session.activePlanId with
  | none =>
    rw [hactive, Option.bind_none] at hprevious
    subst hprevious
    obtain rfl : aside = db.board.plans := h
    have hplans : ∀ sessionId,
        (db.withPlans db.board.plans).plansOf sessionId = db.plansOf sessionId := fun _ ↦ rfl
    refine ⟨?_, fun sessionId _ ↦ hplans sessionId, fun plan hplan ↦ ?_⟩
    · have hsame : (db.withPlans db.board.plans).planDesk (w.setPlan none) = db.planDesk w :=
        Desk.ext rfl hactive.symm rfl
      rw [hsame]
    · rw [hplans] at hplan
      exact ⟨plan, hplan, rfl, rfl⟩
  | some planId =>
    obtain ⟨plan, hfind, hsession, -⟩ := mem_plansOf_active hdesk hactive
    rw [hactive, Option.bind_some, hfind] at hprevious
    subst hprevious
    obtain ⟨hmem, rfl⟩ := (Table.find?_eq_some_iff _).mp hfind
    have hrewrites : RewritesPlan plan.id (some .superseded) db.board.plans
        (db.withPlans aside).board.plans := h
    refine ⟨?_, fun sessionId hne ↦ hrewrites.plansOf_eq fun other hother hid ↦ ?_,
      fun later hlater ↦ ?_⟩
    · have hreleased : (db.withPlans aside).planDesk (w.setPlan none) =
          (db.planDesk w).release plan.id (.settled .superseded) :=
        Desk.ext (hrewrites.cases rfl) rfl rfl
      rw [hreleased]
      exact .single (.release _ _ _ hactive (by simp))
    · unfold AgentDb.plansOf at hother
      obtain ⟨hother, hsession'⟩ := List.mem_filter.mp hother
      rw [decide_eq_true_eq] at hsession'
      rw [db.board.plans.eq_of_key_eq hother hmem hid, hsession] at hsession'
      exact hne hsession'.symm
    · exact hrewrites.plansOf_origin hlater

/-- No plan goes when the previous draft is put aside, and the others stay as they are. -/
theorem PutsAside.kept {previous : Option SchedulePlan} {aside : Table SchedulePlan}
    (h : PutsAside previous db.board.plans aside) {sessionId : Id} {plan : SchedulePlan}
    (hplan : plan ∈ db.plansOf sessionId) :
    (∃ later ∈ (db.withPlans aside).plansOf sessionId, later.id = plan.id ∧
      later.createdByRunId = plan.createdByRunId) ∧
      ((∀ old ∈ previous, old.id ≠ plan.id) → plan ∈ (db.withPlans aside).plansOf sessionId) := by
  cases previous with
  | none =>
    obtain rfl : aside = db.board.plans := h
    exact ⟨⟨plan, hplan, rfl, rfl⟩, fun _ ↦ hplan⟩
  | some previous =>
    have hrewrites : RewritesPlan previous.id (some .superseded) db.board.plans
        (db.withPlans aside).board.plans := h
    obtain ⟨hkept, hsame⟩ := hrewrites.plansOf_kept hplan
    exact ⟨hkept, fun hne ↦ hsame (hne previous rfl).symm⟩

/-- The previous draft is the plan that the session points to. -/
theorem active_of_previous {previous : SchedulePlan}
    (h : w.session.activePlanId.bind db.board.plans.find? = some previous) :
    w.session.activePlanId = some previous.id ∧ ∀ plan ∈ db.board.plans.rows,
      previous.id = plan.id → plan = previous := by
  obtain ⟨planId, hactive, hfind⟩ := Option.bind_eq_some_iff.mp h
  obtain ⟨hmem, rfl⟩ := (Table.find?_eq_some_iff _).mp hfind
  exact ⟨hactive, fun _ hplan hid ↦ db.board.plans.eq_of_key_eq hplan hmem hid.symm⟩

theorem AgentDb.mem_plansOf {sessionId : Id} {plan : SchedulePlan} :
    plan ∈ db.plansOf sessionId ↔ plan ∈ db.board.plans.rows ∧ plan.sessionId = sessionId := by
  unfold AgentDb.plansOf
  rw [List.mem_filter, decide_eq_true_eq]

/-- The runs of a session after one of them was noted to have generated a plan. -/
theorem mem_runs_generated {runId planId : Id} (h : HasGenerated runId planId w w')
    {later : AgentRun} : later ∈ w'.runs.rows ↔
      ∃ run ∈ w.runs.rows, (if run.id = runId then notedRun planId run else run) = later := by
  rw [h.runs]
  exact Workspace.mem_setRun

/-- The generation of a plan is work on the plans of its session. -/
theorem GeneratesPlan.work {run : AgentRun} {previous : Option SchedulePlan} {plan : SchedulePlan}
    (hdesk : (db.planDesk w).Sound) (hrun : run ∈ w.runs.rows)
    (hnone : run.generatedPlanId = none)
    (hprevious : w.session.activePlanId.bind db.board.plans.find? = previous)
    (h : GeneratesPlan run.id previous db db' w w' plan) :
    PlanWork (Fresh db db') db db' w w' := by
  obtain ⟨aside, haside, hrows⟩ := h.plans
  obtain ⟨hmoves, hothers, horigins⟩ := haside.moves hdesk hprevious
  have hplans := plansOf_append db hrows
  have hsession : w'.session.id = w.session.id :=
    (h.workspace.changes { plan := True } (fun _ ↦ False) trivial).owner.1
  have hnoted : notedRun plan.id run ∈ w'.runs.rows :=
    (mem_runs_generated h.workspace).mpr ⟨run, hrun, if_pos rfl⟩
  -- A run that has generated a plan before is another one.
  have hkept : ∀ other ∈ w.runs.rows, other.generatedPlanId ≠ none → other ∈ w'.runs.rows := by
    intro other hother hgenerated
    refine (mem_runs_generated h.workspace).mpr ⟨other, hother, if_neg fun hid ↦ hgenerated ?_⟩
    rw [w.runs.eq_of_key_eq hother hrun hid, hnone]
  have hlast : ∀ {plan : SchedulePlan}, plan ∈ (db.withPlans aside).plansOf w.session.id →
      plan ∈ db'.plansOf w.session.id := by
    intro plan hplan
    rw [hplans]
    exact List.mem_append_left _ hplan
  refine ⟨⟨?_, ?_, ?_, ?_, ?_, ?_⟩, ?_⟩
  · have hcase : db'.planDesk w' =
        ⟨((db.withPlans aside).planDesk (w.setPlan none)).cases ++
          [⟨plan.id, .inHand, some run.id⟩], some plan.id, fun _ ↦ False⟩ := by
      refine Desk.ext ?_ h.workspace.active rfl
      change ((db'.plansOf w'.session.id).filter _).map planCase =
        (((db.withPlans aside).plansOf w.session.id).filter _).map planCase ++ _
      rw [hsession, hplans, if_pos h.session, List.filter_append, List.map_append]
      congr 1
      rw [List.filter_cons_of_pos (by simp [h.run]), List.filter_nil, List.map_singleton]
      unfold planCase
      rw [h.draft, h.run]
      rfl
    rw [hcase]
    refine hmoves.begin h.fresh ?_ rfl fun hfalse ↦ hfalse
    intro hmem
    obtain ⟨case, hcase, hid⟩ := List.mem_map.mp hmem
    obtain ⟨other, hother, -, -, rfl⟩ := mem_planDesk.mp hcase
    have hnodup : (db'.board.plans.rows.map SchedulePlan.id).Nodup := db'.board.plans.nodup
    rw [hrows, List.map_append] at hnodup
    refine List.disjoint_of_nodup_append hnodup (List.mem_map_of_mem hother) ?_
    rw [show other.id = plan.id from hid]
    exact List.mem_singleton_self _
  · intro hbefore later hlater runId hrunId
    rw [hsession, hplans, if_pos h.session, List.mem_append] at hlater
    rcases hlater with hlater | hlast
    · obtain ⟨old, hold, hid, hcreated⟩ := horigins later hlater
      obtain ⟨other, hother, hid', hgenerated⟩ := hbefore old hold runId (hcreated ▸ hrunId)
      exact ⟨other, hkept other hother (by simp [hgenerated]), hid', hid ▸ hgenerated⟩
    · rw [List.mem_singleton.mp hlast] at hrunId ⊢
      rw [h.run] at hrunId
      exact ⟨_, hnoted, Option.some.inj hrunId, rfl⟩
  · intro other hother planId hplanId
    exact ⟨other, hkept other hother (by simp [Option.mem_def.mp hplanId]), rfl, hplanId⟩
  · intro other hother
    obtain ⟨later, hlater, hid, hcreated⟩ := (haside.kept hother).1
    exact ⟨later, hlast hlater, hid, hcreated⟩
  · intro other hother hactive
    refine hlast ((haside.kept hother).2 fun old hold hid ↦ hactive ?_)
    rw [Option.mem_def.mp hold] at hprevious
    exact (active_of_previous hprevious).1.trans (congrArg some hid)
  · intro other hother
    rw [hplans, if_pos h.session, List.mem_append, List.mem_singleton] at hother
    rcases hother with hother | rfl
    · obtain ⟨old, hold, -, hcreated⟩ := horigins other hother
      exact Or.inr ⟨old, hold, hcreated⟩
    · exact Or.inl (by simp [h.run])
  · intro sessionId hne
    rw [hplans, if_neg (h.session ▸ hne.symm), List.append_nil]
    exact hothers sessionId hne

/-- The generation of a plan puts the draft aside that the run was asked to replace. -/
theorem GeneratesPlan.replaces {run : AgentRun} {previous : Option SchedulePlan}
    {plan : SchedulePlan} (hrun : run ∈ w.runs.rows) (hopen : run.status.IsOpen)
    (hnone : run.generatedPlanId = none)
    (hprevious : w.session.activePlanId.bind db.board.plans.find? = previous)
    (hintent : ∀ old ∈ previous, ∃ intent ∈ run.config.retryIntent,
      intent.planId = old.id ∧ intent.expectedRevision = old.revision)
    (h : GeneratesPlan run.id previous db db' w w' plan) : ReplacesPlan run db db' w w' := by
  obtain ⟨aside, haside, hrows⟩ := h.plans
  refine ⟨hrun, hopen, hnone, ⟨notedRun plan.id run, ?_, rfl, h.workspace.active.symm⟩, ?_⟩
  · exact (mem_runs_generated h.workspace).mpr ⟨run, hrun, if_pos rfl⟩
  intro other hother
  by_cases hsame : ∀ old ∈ previous, old.id ≠ other.id
  · refine Or.inl ?_
    rw [plansOf_append db hrows]
    exact List.mem_append_left _ ((haside.kept hother).2 hsame)
  · push Not at hsame
    obtain ⟨old, hold, hid⟩ := hsame
    obtain ⟨intent, hmem, hplanId, hrevision⟩ := hintent old hold
    rw [Option.mem_def.mp hold] at hprevious
    obtain rfl := (active_of_previous hprevious).2 _ (mem_plansOf.mp hother).1 hid
    exact Or.inr ⟨intent, hmem, hplanId, hrevision⟩

/-- A run that may replace a plan was asked to, in the revision that the plan has. -/
theorem checkPrevious_ok {run : AgentRun} {previous : SchedulePlan}
    (h : checkPrevious run previous = .ok none) : ∃ intent ∈ run.config.retryIntent,
      intent.planId = previous.id ∧ intent.expectedRevision = previous.revision := by
  unfold checkPrevious at h
  cases hintent : run.config.retryIntent with
  | none => simp [hintent] at h
  | some intent =>
    simp only [hintent, except_bind_eq_ok, ensure_eq_ok] at h
    obtain ⟨_, hsame, -⟩ := h
    exact ⟨intent, rfl, hsame⟩

/-- What `generate` does: nothing, or it generates the plan of a run that has none. -/
theorem generate_ok {run : AgentRun} {result : ToolResult}
    (h : generate call run w db = .ok (w', result) db') :
    (w' = w ∧ db' = db) ∨ run.generatedPlanId = none ∧ ∃ previous plan,
      w.session.activePlanId.bind db.board.plans.find? = previous ∧
        (∀ old ∈ previous, ∃ intent ∈ run.config.retryIntent,
          intent.planId = old.id ∧ intent.expectedRevision = old.revision) ∧
        GeneratesPlan run.id previous db db' w w' plan := by
  unfold generate at h
  rw [get_bind_eq_ok] at h
  cases hgenerated : run.generatedPlanId with
  | some planId =>
    simp only [hgenerated, orRaise_bind_eq_ok, pure_eq_ok, Prod.mk.injEq] at h
    obtain ⟨plan, -, ⟨rfl, -⟩, rfl⟩ := h
    exact Or.inl ⟨rfl, rfl⟩
  | none =>
    simp only [hgenerated] at h
    cases hprevious : w.session.activePlanId.bind db.board.plans.find? with
    | none =>
      simp only [hprevious] at h
      have hnone : ∀ plan ∈ (none : Option SchedulePlan), plan ∈ db.board.plans.rows :=
        fun plan hplan ↦ absurd hplan (Option.not_mem_none plan)
      rcases generateAnew_ok hnone h with hsame | ⟨plan, hgenerates⟩
      · exact Or.inl hsame
      · exact Or.inr ⟨rfl, none, plan, rfl, fun old hold ↦ absurd hold (Option.not_mem_none old),
          hgenerates⟩
    | some previous =>
      simp only [hprevious] at h
      obtain ⟨answer, hcheck, h⟩ := checked_bind_eq_ok.mp h
      obtain ⟨planId, -, hfind⟩ := Option.bind_eq_some_iff.mp hprevious
      have hmem : ∀ plan ∈ some previous, plan ∈ db.board.plans.rows := by
        intro plan hplan
        obtain rfl := Option.some.inj hplan
        exact ((Table.find?_eq_some_iff _).mp hfind).1
      cases answer with
      | some answer =>
        obtain ⟨heq, rfl⟩ := pure_eq_ok.mp h
        exact Or.inl ⟨(Prod.mk.inj heq).1.symm, rfl⟩
      | none =>
        rcases generateAnew_ok hmem h with hsame | ⟨plan, hgenerates⟩
        · exact Or.inl hsame
        · refine Or.inr ⟨rfl, some previous, plan, rfl, fun old hold ↦ ?_, hgenerates⟩
          obtain rfl := Option.some.inj hold
          exact checkPrevious_ok hcheck

theorem generate_makes {run : AgentRun} {result : ToolResult} (hplan : permit.plan)
    (h : generate call run w db = .ok (w', result) db') : Makes command permit db db' w w' := by
  rcases generate_ok h with ⟨rfl, rfl⟩ | ⟨-, previous, plan, -, -, hgenerates⟩
  · exact .refl _ _
  · refine ⟨?_, hgenerates.workspace.changes permit (Fresh db db') hplan⟩
    obtain ⟨-, -, -, -, -, -, hissued, hframe, -⟩ := hgenerates
    rw [hframe]
    exact ⟨rfl, hissued, fun _ h ↦ Or.inl h, fun _ h ↦ h, fun _ ↦ rfl, fun h ↦ absurd hplan h,
      fun _ ↦ rfl⟩

/-- The generation of a plan by an open run is work on the plans of its session, and replaces the
draft that the run was asked to replace. -/
theorem generate_work {run : AgentRun} {result : ToolResult} (hdesk : (db.planDesk w).Sound)
    (hrun : run ∈ w.runs.rows) (hopen : run.status.IsOpen)
    (h : generate call run w db = .ok (w', result) db') :
    PlanWork (Fresh db db') db db' w w' ∧ ((w' = w ∧ db' = db) ∨ ReplacesPlan run db db' w w') := by
  rcases generate_ok h with hsame | ⟨hnone, previous, plan, hprevious, hintent, hgenerates⟩
  · obtain ⟨rfl, rfl⟩ := hsame
    exact ⟨.of_eq rfl rfl (fun _ ↦ rfl) fun run hrun ↦ ⟨run, hrun, rfl, rfl⟩, Or.inl ⟨rfl, rfl⟩⟩
  · exact ⟨hgenerates.work hdesk hrun hnone hprevious,
      Or.inr (hgenerates.replaces hrun hopen hnone hprevious hintent)⟩

/-! ### Commands on a plan -/

/-- The plan that a user changes, and its session. -/
theorem requirePlan_session {planId userId : Id} {plan : SchedulePlan}
    (h : requirePlan planId userId db = .ok (w, plan) db') :
    w ∈ db.workspaces.rows ∧ plan.sessionId = w.session.id ∧ w.session.userId = userId ∧
      w.session.status = .active ∧ w.session.agentType = .scheduling := by
  unfold requirePlan at h
  simp only [get_bind_eq_ok, orRaise_bind_eq_ok] at h
  obtain ⟨found, -, h⟩ := h
  obtain ⟨v, db₁, hsession, h⟩ := bind_eq_ok.mp h
  obtain ⟨⟨hw, hid⟩, huser, -, hactive, -⟩ := requireSession_eq_ok.mp hsession
  obtain ⟨htype, h⟩ := require_bind_eq_ok.mp h
  obtain ⟨heq, -⟩ := pure_eq_ok.mp h
  obtain ⟨rfl, rfl⟩ := Prod.mk.inj heq
  exact ⟨hw, hid.symm, huser, hactive rfl, htype⟩

/-- What a change of one plan of an idle session leaves: the runs, and all other plans. -/
structure ChangesPlan (planId : Id) (status : Option PlanStatus) (db db' : AgentDb)
    (w w' : Workspace) : Prop where
  rewrites : RewritesPlan planId status db.board.plans db'.board.plans
  session : w'.session.id = w.session.id
  active : w'.session.activePlanId = if status = none then w.session.activePlanId else none
  runs : ∀ run ∈ w.runs.rows, run ∈ w'.runs.rows

/-- A change of the active plan of a session is work on its plans. -/
theorem ChangesPlan.work {plan : SchedulePlan} {status : Option PlanStatus}
    (hplan : plan ∈ db.board.plans.rows) (hsession : plan.sessionId = w.session.id)
    (hstatus : status ≠ some .draft) (hactive : w.session.activePlanId = some plan.id)
    (h : ChangesPlan plan.id status db db' w w') : PlanWork fresh db db' w w' where
  moves := by
    have hcases := h.rewrites.cases h.session
    cases status with
    | none =>
      have hsame : db'.planDesk w' = db.planDesk w := by
        refine Desk.ext (hcases.trans ?_) h.active rfl
        refine (List.map_congr_left fun case _ ↦ ?_).trans (List.map_id _)
        split_ifs <;> rfl
      rw [hsame]
    | some status =>
      have hreleased : db'.planDesk w' = (db.planDesk w).release plan.id (planPhase status) :=
        Desk.ext hcases h.active rfl
      rw [hreleased]
      refine .single (.release _ _ _ hactive ?_)
      cases status <;> simp [planPhase] at hstatus ⊢
  others := by
    intro sessionId hne
    refine h.rewrites.plansOf_eq fun other hother hid ↦ hne ?_
    unfold AgentDb.plansOf at hother
    obtain ⟨hother, hsession'⟩ := List.mem_filter.mp hother
    rw [decide_eq_true_eq] at hsession'
    rw [← hsession', db.board.plans.eq_of_key_eq hother hplan hid, hsession]
  noted := by
    intro hnoted later hlater runId hrunId
    obtain ⟨change, hplans, -, hkeeps⟩ := h.rewrites.plansOf
    rw [h.session, hplans] at hlater
    obtain ⟨old, hold, rfl⟩ := List.mem_map.mp hlater
    obtain ⟨hid, hcreated, -⟩ := hkeeps old
    obtain ⟨run, hrun, hrunId', hgenerated⟩ := hnoted old hold runId (hcreated ▸ hrunId)
    exact ⟨run, h.runs run hrun, hrunId', hid ▸ hgenerated⟩
  notes run hrun planId hplanId := ⟨run, h.runs run hrun, rfl, hplanId⟩
  kept _ hmem := (h.rewrites.plansOf_kept hmem).1
  settled other hmem hother :=
    (h.rewrites.plansOf_kept hmem).2 fun hid ↦ hother (hactive.trans (congrArg some hid.symm))
  created later hlater := by
    obtain ⟨old, hold, -, hcreated⟩ := h.rewrites.plansOf_origin hlater
    exact Or.inr ⟨old, hold, hcreated⟩

/-! ### Edits of a draft -/

/-- What the edit of a plan may do. -/
def Permit.drafting : Permit := { plan := True }

theorem prepares_boardWork {board : Board} (hplan : permit.plan)
    (hissued : db.board.issued ⊆ board.issued)
    (horders : board.orders.keys = db.board.orders.keys) :
    Prepares command permit db { db with board } :=
  ⟨rfl, hissued, fun _ h ↦ Or.inl h, fun _ h ↦ h, fun _ ↦ horders, fun h ↦ absurd hplan h,
    fun _ ↦ rfl⟩

theorem prepares_setPlanRow (hplan : permit.plan) {planId : Id}
    {change : SchedulePlan → SchedulePlan} {hid : ∀ plan, (change plan).id = plan.id} {u : Unit}
    (h : setPlanRow planId change hid db = .ok u db') : Prepares command permit db db' := by
  unfold setPlanRow at h
  obtain rfl := modify_eq_ok.mp h
  exact prepares_boardWork hplan (List.Subset.refl _) rfl

theorem prepares_withDraftIds {known : ProposedTask → Option Id} {tasks tasks' : List ProposedTask}
    (hplan : permit.plan) (h : withDraftIds call known tasks db = .ok tasks' db') :
    Prepares command permit db db' := by
  obtain ⟨issued, hissued, rfl⟩ := withDraftIds_frame tasks h
  exact prepares_boardWork hplan hissued rfl

/-- What `patchPlan` does to the plan, and the session that it saves. -/
theorem patchPlan_ok {planId userId : Id} {expected : ℕ} {tasks : List DraftTask}
    {edited : SchedulePlan} (h : patchPlan call planId userId expected tasks db = .ok edited db') :
    ∃ w w' plan db₁, (w ∈ db.workspaces.rows ∧ w.Idle) ∧ plan ∈ db.board.plans.rows ∧
      (plan.id = planId ∧ plan.sessionId = w.session.id ∧ w.session.userId = userId) ∧
      (plan.status = .draft ∧ plan.createdByRunId.isSome) ∧
      (∀ (permit : Permit) (fresh : Id → Prop), w.Changes permit fresh w') ∧
      (∀ (command : AgentCommand → Prop) (permit : Permit), permit.plan →
        Prepares command permit db db₁) ∧
      ChangesPlan plan.id none db db₁ w w' ∧
      db' = { db₁ with workspaces := db₁.workspaces.put w' } := by
  unfold patchPlan at h
  obtain ⟨⟨w, plan⟩, db₁, hfound, hrest⟩ := bind_eq_ok.mp h
  clear h
  obtain ⟨hfind, hcreated, rfl⟩ := requirePlan_ok hfound
  obtain ⟨hw, hsession, huser, -⟩ := requirePlan_session hfound
  obtain ⟨hplan, rfl⟩ := (Table.find?_eq_some_iff _).mp hfind
  obtain ⟨_, db₂, hcheck, h⟩ := bind_eq_ok.mp hrest
  obtain ⟨hidle, rfl⟩ := requireIdle_eq_ok.mp hcheck
  obtain ⟨_, hdraft, h⟩ := checked_bind_eq_ok.mp h
  obtain ⟨first, db₃, hedit, h⟩ := bind_eq_ok.mp h
  obtain ⟨board, hedited, rfl⟩ := onBoard_eq_ok.mp hedit
  obtain ⟨_, adjusted, unassigned, -, -, -, -, -, -, rfl⟩ :=
    updateScheduleDraft_ok (rephrase_eq_ok.mp hedited)
  obtain ⟨numbered, db₄, hnumbered, h⟩ := bind_eq_ok.mp h
  obtain ⟨issued, -, rfl⟩ := withDraftIds_frame first.tasks hnumbered
  obtain ⟨_, db₅, hset, h⟩ := bind_eq_ok.mp h
  obtain ⟨_, db₆, hsave, h⟩ := bind_eq_ok.mp h
  obtain rfl := save_eq_ok.mp hsave
  obtain ⟨-, rfl⟩ := pure_eq_ok.mp h
  unfold setPlanRow at hset
  have hplans := congrArg (fun db : AgentDb ↦ db.board.plans) (modify_eq_ok.mp hset)
  refine ⟨w, w.appendBy (.user userId) call .planUpdated
    [("plan_id", .text plan.id), ("revision", .number (plan.revision + 1))] {}, plan, db₅,
    ⟨hw, hidle⟩, hplan, ⟨rfl, hsession, huser⟩, ⟨(ensure_eq_ok.mp hdraft).1, hcreated⟩,
    fun _ _ ↦ Workspace.Changes.appendBy .refl (.user userId) call _ rfl (by decide),
    fun _ _ hpermit ↦ ?_, ⟨?_, rfl, rfl, fun _ h ↦ h⟩, rfl⟩
  · refine Prepares.trans ?_
      ((prepares_withDraftIds hpermit hnumbered).trans (prepares_setPlanRow hpermit hset))
    exact prepares_boardWork hpermit (List.Subset.refl _) rfl
  · rw [← hplans]
    exact ((RewritesPlan.refl plan.id db₁.board.plans).update
      (fun row ↦ { row with tasks := adjusted, unassigned }) (fun _ ↦ rfl)
      fun _ ↦ ⟨rfl, rfl, rfl⟩).update
      (fun row ↦ { row with
        tasks := numbered, revision := row.revision + 1, updatedAt := call.now }) (fun _ ↦ rfl)
      fun _ ↦ ⟨rfl, rfl, rfl⟩

theorem progress_patchPlan (hsound : db.Sound) {planId userId : Id} {expected : ℕ}
    {tasks : List DraftTask} {edited : SchedulePlan}
    (h : patchPlan call planId userId expected tasks db = .ok edited db') :
    Progress .drafting db db' := by
  obtain ⟨w, w', plan, db₁, ⟨hw, -⟩, -, -, -, hchanges, hprepares, -, rfl⟩ := patchPlan_ok h
  exact progress_quiet hsound hw (hchanges _ _) (hprepares _ _ trivial) id id id id id

/-! ### The board under an application -/

theorem keys_assignOrders (ids : List Id) (status : OrderStatus) (taskId : Option Id)
    (board : Board) :
    (board.assignOrders call ids status taskId).orders.keys = board.orders.keys := by
  unfold Board.assignOrders Board.changeOrders
  rw [Table.keys_mapRows]

theorem writeTasks_frame {planId : Id} (tasks : List ValidatedTask) :
    ∀ {positions : Id → ℤ} {board board' : Board} {ids : List Id},
      writeTasks call planId tasks positions board = .ok ids board' →
        board'.orders.keys = board.orders.keys ∧ board.issued ⊆ board'.issued := by
  induction tasks with
  | nil =>
    intro positions board board' ids h
    obtain ⟨-, rfl⟩ := pure_eq_ok.mp h
    exact ⟨rfl, List.Subset.refl _⟩
  | cons task rest ih =>
    intro positions board board' ids h
    unfold writeTasks at h
    obtain ⟨taskId, middle, hadd, h⟩ := bind_eq_ok.mp h
    obtain ⟨taskId', middle', hadd', -, tasks, -, rfl⟩ := Board.exists_addTask call task.machine.id
      (positions task.machine.id) (some s!"智能排产方案 {planId}") board
    rw [hadd'] at hadd
    injection hadd with _ hmiddle
    subst hmiddle
    rw [modify_bind_eq_ok] at h
    obtain ⟨others, last, hothers, h⟩ := bind_eq_ok.mp h
    obtain ⟨-, rfl⟩ := pure_eq_ok.mp h
    obtain ⟨hkeys, hissued⟩ := ih hothers
    refine ⟨hkeys.trans (keys_assignOrders _ _ _ _), ?_⟩
    exact List.Subset.trans (List.subset_cons_self _ _) hissued

/-- An application leaves which orders there are, and settles the plan. -/
theorem applySchedulePlan_frame {planId userId : Id} {allowV2 : Bool} {board board' : Board}
    {applied : AppliedResult}
    (h : applySchedulePlan call planId userId allowV2 board = .ok applied board') :
    board'.orders.keys = board.orders.keys ∧ board.issued ⊆ board'.issued ∧
      RewritesPlan planId (some .applied) board.plans board'.plans := by
  have hframe : board'.orders.keys = board.orders.keys ∧ board.issued ⊆ board'.issued := by
    unfold applySchedulePlan at h
    obtain ⟨result, middle, hchecked, hwritten⟩ := bind_eq_ok.mp h
    obtain rfl := (readOnly_checkedPlan planId userId allowV2).state_eq hchecked
    unfold writePlan at hwritten
    rw [get_bind_eq_ok] at hwritten
    obtain ⟨ids, last, hwrite, hlast⟩ := bind_eq_ok.mp hwritten
    simp only [modify_bind_eq_ok, pure_eq_ok] at hlast
    obtain ⟨-, rfl⟩ := hlast
    have hwritten := writeTasks_frame _ hwrite
    exact hwritten
  rcases applySchedulePlan_cases call planId userId allowV2 board with
    ⟨failure, herror⟩ | ⟨plan, newTasks, board₁, hfind, -, hok, hexact⟩
  · rw [herror] at h
    cases h
  · rw [hok] at h
    injection h with _ hboard
    subst hboard
    obtain ⟨-, rfl⟩ := (Table.find?_eq_some_iff _).mp hfind
    refine ⟨hframe.1, hframe.2, ?_⟩
    rw [hexact.applied]
    exact .settle plan.id .applied _ (markApplied call) (fun _ ↦ rfl) fun _ ↦ ⟨rfl, rfl, rfl⟩

/-! ### What a command does to its plan -/

/-- What a command on a plan may do beyond entering itself. -/
def Permit.planning (userId : Id) (key : String) (request : CommandRequest) : Permit where
  command := Commanded userId key request
  plan := True
  queue := True

/-- What was made of a plan and its session by a command. -/
structure MakesOfPlan (command : AgentCommand → Prop) (permit : Permit) (planId : Id)
    (db db' : AgentDb) (w w' : Workspace) : Prop where
  makes : Makes command permit db db' w w'
  work : ∃ status, status ≠ some .draft ∧ ChangesPlan planId status db db' w w'

theorem applyPlan_makes (hsound : db.Sound) (hplan : permit.plan) (hw : w ∈ db.workspaces.rows)
    {commandId userId : Id} {plan : SchedulePlan} {effect : PlanEffect}
    (h : applyPlan call commandId userId plan w db = .ok effect db') :
    MakesOfPlan command permit plan.id db db' w effect.workspace := by
  unfold applyPlan at h
  obtain ⟨-, h⟩ := require_bind_eq_ok.mp h
  obtain ⟨applied, db₁, hboard, h⟩ := bind_eq_ok.mp h
  obtain ⟨board, hbody, rfl⟩ := onBoard_eq_ok.mp hboard
  obtain ⟨horders, hissued, hrewrites⟩ := applySchedulePlan_frame (rephrase_eq_ok.mp hbody)
  obtain ⟨_, db₂, hset, h⟩ := bind_eq_ok.mp h
  obtain ⟨messageId, db₃, hmessageId, h⟩ := bind_eq_ok.mp h
  obtain ⟨rfl, rfl⟩ := pure_eq_ok.mp h
  have hprepares : Prepares command permit db db₂ :=
    (prepares_boardWork hplan hissued horders).trans (prepares_setPlanRow hplan hset)
  have hstate : w.Changes permit (Fresh db db₂) ((w.setPlan none).setState
      { w.session.state with
        schedulingOrderIds := some (plan.unassigned.map UnassignedOrder.orderId) }) :=
    .tail (.single (.setPlan w none hplan)) (.setState _ _ (Or.inl rfl))
  have hfirst : Makes command permit db db₂ w (((w.setPlan none).setState
      { w.session.state with
        schedulingOrderIds := some (plan.unassigned.map UnassignedOrder.orderId) }).append call
      .planApplied (appliedPayload plan.id applied) { commandId := some commandId }) :=
    ⟨hprepares, hstate.append call _ rfl (by decide)⟩
  have hfresh := fresh_generateId hmessageId
  constructor
  · refine hfirst.trans ⟨prepares_generateId hmessageId, ?_⟩
    exact Workspace.Changes.post .refl _ .system call _ hfresh
      (fun huses ↦ hfresh.1 (hfirst.issued hsound hw huses)) (Or.inl rfl) (Or.inl rfl) (Or.inr rfl)
      rfl rfl
  · refine ⟨some .applied, by simp, ?_, rfl, rfl, fun _ h ↦ h⟩
    obtain ⟨-, rfl⟩ := generateId_eq_ok.mp hmessageId
    unfold setPlanRow at hset
    obtain rfl := modify_eq_ok.mp hset
    exact hrewrites.update (fun row ↦
      { row with appliedResult := some applied, revision := row.revision + 1 }) (fun _ ↦ rfl)
      fun _ ↦ ⟨rfl, rfl, rfl⟩

theorem closePlan_makes (hplan : permit.plan) {commandId : Id} {payload : ActionPayload}
    {plan : SchedulePlan} {effect : PlanEffect}
    (h : closePlan call commandId payload plan w db = .ok effect db') :
    MakesOfPlan command permit plan.id db db' w effect.workspace := by
  unfold closePlan at h
  obtain ⟨-, h⟩ := require_bind_eq_ok.mp h
  obtain ⟨_, db₁, hset, h⟩ := bind_eq_ok.mp h
  obtain ⟨rfl, rfl⟩ := pure_eq_ok.mp h
  have hset' : w.Changes permit (Fresh db db₁) (w.setPlan none) :=
    .single (.setPlan w none hplan)
  refine ⟨⟨prepares_setPlanRow hplan hset, hset'.append call _ rfl (by decide)⟩, some .closed,
    by simp, ?_, rfl, rfl, fun _ h ↦ h⟩
  unfold setPlanRow at hset
  obtain rfl := modify_eq_ok.mp hset
  exact .settle plan.id .closed _ (fun row ↦
    { row with status := .closed, closedAt := some call.now, revision := row.revision + 1 })
    (fun _ ↦ rfl) fun _ ↦ ⟨rfl, rfl, rfl⟩

theorem replacePlan_makes (hsound : w.Sound) (hqueue : permit.queue) (hidle : w.Idle)
    (hactive : w.session.status = .active) (htype : w.session.agentType = .scheduling)
    {commandId userId : Id} {plan : SchedulePlan} {effect : PlanEffect}
    (h : replacePlan call commandId userId plan w db = .ok effect db') :
    MakesOfPlan command permit plan.id db db' w effect.workspace := by
  unfold replacePlan at h
  obtain ⟨runId, db₁, hrunId, h⟩ := bind_eq_ok.mp h
  obtain ⟨w₁, hrun, h⟩ := checked_bind_eq_ok.mp h
  obtain ⟨rfl, rfl⟩ := pure_eq_ok.mp h
  have haccepted : w.Changes permit (Fresh db db₁) (w.appendBy (.user userId) call .commandAccepted
      [("kind", .text "REPLACE_PLAN")] { commandId := some commandId }) :=
    Workspace.Changes.appendBy .refl _ call _ rfl (by decide)
  have hqueued := haccepted.addRun hrun hqueue (fresh_generateId hrunId) hidle hactive
    (Or.inl rfl) rfl rfl rfl rfl ?_
  · obtain ⟨runs, hinsert, rfl⟩ := Workspace.addRun_eq_ok.mp hrun
    have hrows := ((Table.insert?_eq_some_iff _ _ _).mp hinsert).2
    refine ⟨⟨prepares_generateId hrunId, hqueued.append call _ rfl (by decide)⟩, none,
      by simp, ?_, rfl, rfl, ?_⟩
    · obtain ⟨-, rfl⟩ := generateId_eq_ok.mp hrunId
      exact .refl _ _
    · intro run hmem
      change run ∈ runs.rows
      rw [hrows]
      exact List.mem_append_left _ hmem
  · -- The run of a scheduling session is no run of the recognition queue.
    intro hworkbench
    have hstate : w.session.state.intakeWorkbench = some true := by
      change w.session.state.intakeWorkbench.getD false = true at hworkbench
      cases hsome : w.session.state.intakeWorkbench with
      | none => simp [hsome] at hworkbench
      | some value => simpa [hsome] using hworkbench
    rw [hsound.traced.workbench hstate] at htype
    cases htype

theorem changePlan_makes (hsound : db.Sound) (hplan : permit.plan) (hqueue : permit.queue)
    (hw : w ∈ db.workspaces.rows) (hidle : w.Idle) (hactive : w.session.status = .active)
    (htype : w.session.agentType = .scheduling) {kind : CommandKind} {commandId userId : Id}
    {payload : ActionPayload} {plan : SchedulePlan} {effect : PlanEffect}
    (h : changePlan call kind commandId userId payload plan w db = .ok effect db') :
    MakesOfPlan command permit plan.id db db' w effect.workspace ∧
      w.session.activePlanId = some plan.id := by
  unfold changePlan at h
  obtain ⟨_, -, h⟩ := checked_bind_eq_ok.mp h
  obtain ⟨hpointer, h⟩ := require_bind_eq_ok.mp h
  obtain ⟨first, db₁, heffect, h⟩ := bind_eq_ok.mp h
  obtain ⟨_, db₂, hset, h⟩ := bind_eq_ok.mp h
  obtain ⟨rfl, rfl⟩ := pure_eq_ok.mp h
  have hfirst : MakesOfPlan command permit plan.id db db₁ w first.workspace := by
    unfold planEffect at heffect
    cases kind with
    | applyPlan => exact applyPlan_makes hsound hplan hw heffect
    | closePlan => exact closePlan_makes hplan heffect
    | replacePlan =>
      exact replacePlan_makes (hsound.workspace w hw) hqueue hidle hactive htype heffect
    | _ => cases heffect
  obtain ⟨hmakes, status, hstatus, hrewrites, hsession, hpointer', hruns⟩ := hfirst
  refine ⟨⟨(hmakes.prepare (prepares_setPlanRow hplan hset)).change
    ((Workspace.Changes.revise .refl).announce call), status, hstatus, ?_, hsession, hpointer',
    hruns⟩, hpointer⟩
  unfold setPlanRow at hset
  obtain rfl := modify_eq_ok.mp hset
  exact hrewrites.update (fun row ↦ { row with updatedAt := call.now }) (fun _ ↦ rfl)
    fun _ ↦ ⟨rfl, rfl, rfl⟩

/-- The command row of a plan command. -/
theorem recordPlanCommand_ok {commandId userId : Id} {key : String} {kind : CommandKind}
    {payload : ActionPayload} {planId : Id} {planRevision : ℕ} {existing : Bool}
    {effect : PlanEffect} {result : CommandResult}
    (h : recordPlanCommand commandId userId key kind payload planId planRevision existing
      effect db = .ok result db') :
    ∃ row, Commanded userId key (.planCommand kind planId payload) row ∧ row.result = result ∧
      addCommand row db = .ok () db' := by
  unfold recordPlanCommand at h
  obtain ⟨_, db₁, hcommand, h⟩ := bind_eq_ok.mp h
  obtain ⟨rfl, rfl⟩ := pure_eq_ok.mp h
  exact ⟨_, ⟨rfl, rfl, rfl⟩, rfl, hcommand⟩

/-- What `planCommand` does when it is carried out: it enters itself, and it may change the plan of
an idle session. -/
theorem planCommand_ok (hsound : db.Sound) {planId userId : Id} {key : String} {kind : CommandKind}
    {payload : ActionPayload} {result : CommandResult}
    (hfree : db.commands.find? (userId, key) = none)
    (h : planCommand call planId userId key kind payload db = .ok result db') :
    ∃ row db₁, Commanded userId key (.planCommand kind planId payload) row ∧ row.result = result ∧
      addCommand row db₁ = .ok () db' ∧
      ((∀ permit : Permit, Prepares permit.command permit db db₁) ∨ ∃ w w' plan db₂,
        (w ∈ db.workspaces.rows ∧ w.Idle) ∧ plan ∈ db.board.plans.rows ∧
        (plan.id = planId ∧ plan.sessionId = w.session.id ∧ w.session.userId = userId) ∧
        w.session.activePlanId = some plan.id ∧
        (∀ permit : Permit, permit.plan → permit.queue →
          MakesOfPlan permit.command permit plan.id db db₂ w w') ∧
        db₁ = { db₂ with workspaces := db₂.workspaces.put w' }) := by
  unfold planCommand at h
  rcases replaying_ok h with ⟨row, hrow, -⟩ | ⟨-, hbody⟩
  · rw [hfree] at hrow
    cases hrow
  · obtain ⟨⟨w, plan⟩, db₁, hfound, hrest⟩ := bind_eq_ok.mp hbody
    clear h hbody
    obtain ⟨hfind, -, rfl⟩ := requirePlan_ok hfound
    obtain ⟨hw, hsession, huser, hactive, htype⟩ := requirePlan_session hfound
    obtain ⟨hplan, rfl⟩ := (Table.find?_eq_some_iff _).mp hfind
    obtain ⟨_, db₂, hcheck, h⟩ := bind_eq_ok.mp hrest
    obtain ⟨hidle, rfl⟩ := requireIdle_eq_ok.mp hcheck
    obtain ⟨commandId, db₃, hcommandId, h⟩ := bind_eq_ok.mp h
    have hid : ∀ permit : Permit, Prepares permit.command permit db₁ db₃ :=
      fun _ ↦ prepares_generateId hcommandId
    by_cases hexisting : kind = .applyPlan ∧ plan.status = .applied
    · rw [if_pos hexisting] at h
      obtain ⟨row, hcommanded, hresult, hrow⟩ := recordPlanCommand_ok h
      exact ⟨row, db₃, hcommanded, hresult, hrow, Or.inl hid⟩
    · rw [if_neg hexisting] at h
      obtain ⟨effect, db₄, hchange, h⟩ := bind_eq_ok.mp h
      obtain ⟨_, db₅, hsave, h⟩ := bind_eq_ok.mp h
      obtain rfl := save_eq_ok.mp hsave
      obtain ⟨row, hcommanded, hresult, hrow⟩ := recordPlanCommand_ok h
      have hsound₃ : db₃.Sound := hsound.progress ((hid {}).progress hsound)
      have hw₃ : w ∈ db₃.workspaces.rows := (hid {}).workspaces.symm ▸ hw
      have hchanged : ∀ permit : Permit, permit.plan → permit.queue →
          MakesOfPlan permit.command permit plan.id db₃ db₄ w effect.workspace ∧
            w.session.activePlanId = some plan.id := fun _ hplan hqueue ↦
        changePlan_makes hsound₃ hplan hqueue hw₃ hidle hactive htype hchange
      have hpointer := (hchanged { plan := True, queue := True } trivial trivial).2
      refine ⟨row, _, hcommanded, hresult, hrow,
        Or.inr ⟨w, effect.workspace, plan, db₄, ⟨hw, hidle⟩,
        hplan, ⟨rfl, hsession, huser⟩, hpointer, fun permit hpermit hqueue ↦ ?_, rfl⟩⟩
      obtain ⟨⟨hmakes, status, hstatus, hwork⟩, -⟩ := hchanged permit hpermit hqueue
      refine ⟨Makes.trans ⟨hid permit, .refl⟩ hmakes, status, hstatus, ?_⟩
      obtain ⟨-, rfl⟩ := generateId_eq_ok.mp hcommandId
      exact ⟨hwork.rewrites, hwork.session, hwork.active, hwork.runs⟩

theorem progress_planCommand (hsound : db.Sound) {planId userId : Id} {key : String}
    {kind : CommandKind} {payload : ActionPayload} {result : CommandResult}
    (h : planCommand call planId userId key kind payload db = .ok result db') :
    Progress (.planning userId key (.planCommand kind planId payload)) db db' := by
  have hreplay := h
  unfold planCommand at hreplay
  rcases replaying_ok hreplay with ⟨row, -, -, -, rfl⟩ | ⟨hfree, -⟩
  · exact .refl _
  · obtain ⟨row, db₁, hcommanded, -, hrow, hbefore⟩ := planCommand_ok hsound hfree h
    have hcommand : Prepares (Permit.planning userId key (.planCommand kind planId payload)).command
        (.planning userId key (.planCommand kind planId payload)) db₁ db' :=
      prepares_addCommand hrow hcommanded
    rcases hbefore with hprepares | ⟨w, w', plan, db₂, ⟨hw, -⟩, -, -, -, hmakes, rfl⟩
    · exact ((hprepares _).trans hcommand).progress hsound
    · have hmakes := (hmakes (.planning userId key (.planCommand kind planId payload)) trivial
        trivial).makes
      exact (hmakes.progress hsound hw (fun h ↦ h) (fun h ↦ h) (fun h ↦ h)
        (Or.inl (hmakes.changes.current_eq fun h ↦ h)) False.elim).prepare hsound hcommand

end FilmOS.Agent
