import FilmOS.Agent.System

/-!
# The life of a run

What the moves of a dispatcher say about the rows. In every session that a run of the system reaches
one run at most is open, a run that has ended has exactly one terminal event and one that is open
has none, and no run has two answers (`Workspace.RunsSound`). Whatever happens, a run that had ended
keeps its status, and two tokens that a run ever shows are one (`AgentDb.Follows`).

A run leaves the queue when it is claimed and does not come back, so no run is claimed twice. All
effects of workers go through `lockRun`, hence a call that changes anything holds the lease
(`leases_of_step_ne`). `runs_live_once` puts the four together.
-/

set_option autoImplicit false
set_option relaxedAutoImplicit false

namespace FilmOS.Agent

open Transaction AgentDb

/-! ### The runs of a session -/

/-- The ends of a run that the events of its session report. -/
def Workspace.reportedEnds (runId : Id) (w : Workspace) : List RunEnd :=
  w.events.filterMap (fun event ↦ if event.refs.runId = some runId then event.kind.ending else none)

/-- The messages of the assistant for a run. -/
def Workspace.answersFor (runId : Id) (w : Workspace) : List ChatMessage :=
  w.messages.filter (fun message ↦ message.origin = .agent ∧ message.runId = some runId)

/-- What the rows of a session say about its runs. -/
structure Workspace.RunsSound (w : Workspace) : Prop where
  one_open : ∀ run ∈ w.runs.rows, ∀ other ∈ w.runs.rows, run.status.IsOpen → other.status.IsOpen →
    run = other
  reported : ∀ run ∈ w.runs.rows, ∀ outcome, run.status.stage = .ended outcome →
    w.reportedEnds run.id = [outcome]
  unreported : ∀ run ∈ w.runs.rows, run.status.IsOpen → w.reportedEnds run.id = []
  answered : ∀ runId, (w.answersFor runId).length ≤ 1
  leased : ∀ run ∈ w.runs.rows, run.leaseToken.isSome ↔ run.status = .running

/-- In a list without repeated keys, a key that is there has one value. -/
theorem filterMap_key_eq_singleton {κ β : Type} [DecidableEq κ] {pairs : List (κ × β)}
    (hnodup : (pairs.map Prod.fst).Nodup) {key : κ} {value : β} (h : (key, value) ∈ pairs) :
    pairs.filterMap (fun pair ↦ if pair.1 = key then some pair.2 else none) = [value] := by
  induction pairs with
  | nil => cases h
  | cons pair pairs ih =>
    obtain ⟨hnew, hnodup⟩ := List.nodup_cons.mp hnodup
    rcases List.mem_cons.mp h with heq | h
    · rw [← heq] at hnew ⊢
      simp only [List.filterMap_cons, if_true]
      rw [List.filterMap_eq_nil_iff.mpr]
      intro other hother
      refine if_neg fun hkey ↦ hnew ?_
      exact List.mem_map.mpr ⟨other, hother, hkey⟩
    · have hne : pair.1 ≠ key := fun hkey ↦ hnew (hkey ▸ List.mem_map_of_mem h)
      simp only [List.filterMap_cons, hne, if_false]
      exact ih hnodup h

theorem reportedEnds_eq (runId : Id) (w : Workspace) :
    w.reportedEnds runId = w.dispatch.endings.filterMap
      (fun pair ↦ if pair.1 = runId then some pair.2 else none) := by
  unfold Workspace.reportedEnds Workspace.dispatch
  rw [List.filterMap_filterMap]
  refine List.filterMap_congr fun event _ ↦ ?_
  unfold SessionEvent.ending
  cases event.kind.ending with
  | none => simp
  | some outcome =>
    cases event.refs.runId with
    | none => simp
    | some id => simp

theorem answersFor_length (runId : Id) (w : Workspace) :
    (w.answersFor runId).length = w.dispatch.answers.count runId := by
  unfold Workspace.answersFor Workspace.dispatch List.count
  rw [List.countP_filterMap, List.countP_eq_length_filter]
  congr 1
  refine List.filter_congr fun message _ ↦ ?_
  unfold ChatMessage.answer
  by_cases horigin : message.origin = .agent
  · cases message.runId with
    | none => simp [horigin]
    | some id => simp [horigin, beq_eq_decide]
  · simp [horigin]

/-- The invariant of the dispatcher, read off the rows. -/
theorem Workspace.Sound.runsSound {w : Workspace} (hsound : w.Sound) : w.RunsSound where
  one_open run hrun other hother hopen hopen' := by
    have hjobs := hsound.dispatch.one_open run.job (List.mem_map_of_mem hrun) other.job
      (List.mem_map_of_mem hother) (fun h ↦ ended_job_iff.mp h hopen)
      (fun h ↦ ended_job_iff.mp h hopen')
    exact w.runs.eq_of_key_eq hrun hother (congrArg Job.id hjobs)
  reported run hrun outcome hstage := by
    rw [reportedEnds_eq]
    refine filterMap_key_eq_singleton hsound.dispatch.endings_nodup ?_
    exact (hsound.dispatch.mem_endings run.id outcome).mpr
      ⟨run.job, List.mem_map_of_mem hrun, rfl, hstage⟩
  unreported run hrun hopen := by
    rw [reportedEnds_eq, List.filterMap_eq_nil_iff]
    rintro ⟨id, outcome⟩ hending
    refine if_neg fun hid ↦ ?_
    obtain ⟨job, hjob, hjobId, hstage⟩ := (hsound.dispatch.mem_endings id outcome).mp hending
    have heq : job = run.job := List.inj_on_of_nodup_map hsound.dispatch.ids_nodup hjob
      (List.mem_map_of_mem hrun) (hjobId.trans hid)
    exact ended_job_iff.mp ⟨outcome, heq ▸ hstage⟩ hopen
  answered runId := by
    rw [answersFor_length]
    exact List.nodup_iff_count_le_one.mp hsound.dispatch.answers_nodup runId
  leased run hrun := by
    refine (hsound.dispatch.token_iff run.job (List.mem_map_of_mem hrun)).trans ?_
    unfold AgentRun.job
    cases run.status <;> simp [RunStatus.stage]

/-! ### From one state to a later one -/

/-- The run is stored. -/
def AgentDb.HasRun (db : AgentDb) (run : AgentRun) : Prop :=
  ∃ w ∈ db.workspaces.rows, run ∈ w.runs.rows

/-- The later state has drawn what the earlier one had drawn, and its runs follow those that were
stored before. -/
structure AgentDb.Follows (db db' : AgentDb) : Prop where
  issued : db.board.issued ⊆ db'.board.issued
  origin : ∀ run', db'.HasRun run' → run'.id ∈ db.board.issued →
    ∃ run, db.HasRun run ∧ run.id = run'.id ∧ run.job.Precedes run'.job

variable {call : Call} {later : Time} {db db' : AgentDb} {permit : Permit}

theorem AgentDb.Sound.run_issued (hsound : db.Sound) {run : AgentRun} (hrun : db.HasRun run) :
    run.id ∈ db.board.issued := by
  obtain ⟨w, hw, hrun⟩ := hrun
  exact hsound.issued w hw run.id (Or.inl ((Table.mem_keys _).mpr ⟨run, hrun, rfl⟩))

/-- A run is known by its identifier. -/
theorem AgentDb.Sound.run_eq (hsound : db.Sound) {run other : AgentRun} (hrun : db.HasRun run)
    (hother : db.HasRun other) (hid : run.id = other.id) : run = other := by
  obtain ⟨w, hw, hrun⟩ := hrun
  obtain ⟨v, hv, hother⟩ := hother
  have huses : w.Uses run.id := Or.inl ((Table.mem_keys _).mpr ⟨run, hrun, rfl⟩)
  have huses' : v.Uses run.id := Or.inl ((Table.mem_keys _).mpr ⟨other, hother, hid.symm⟩)
  obtain rfl := hsound.apart w hw v hv run.id huses huses'
  exact w.runs.eq_of_key_eq hrun hother hid

theorem AgentDb.Follows.refl (db : AgentDb) : db.Follows db where
  issued := List.Subset.refl _
  origin run hrun _ := ⟨run, hrun, rfl, .refl _⟩

theorem AgentDb.Follows.trans {db₁ db₂ : AgentDb} (h : db.Follows db₁) (h' : db₁.Follows db₂) :
    db.Follows db₂ where
  issued := List.Subset.trans h.issued h'.issued
  origin run₂ hrun₂ hissued := by
    obtain ⟨run₁, hrun₁, hid₁, hprecedes₁⟩ := h'.origin run₂ hrun₂ (h.issued hissued)
    obtain ⟨run, hrun, hid, hprecedes⟩ := h.origin run₁ hrun₁ (hid₁ ▸ hissued)
    exact ⟨run, hrun, hid.trans hid₁, hprecedes.trans hprecedes₁⟩

/-- The runs after a transaction follow those before it. -/
theorem AgentDb.Progress.follows (h : Progress permit db db') : db.Follows db' where
  issued := h.issued
  origin run' hrun' hissued := by
    obtain ⟨w', hw', hrun'⟩ := hrun'
    have horigin : ∀ w : Workspace, w.Evolves permit (Fresh db db') w' →
        ∃ run ∈ w.runs.rows, run.id = run'.id ∧ run.job.Precedes run'.job := by
      intro w hevolves
      rcases hevolves.dispatch.origin run'.job (List.mem_map_of_mem hrun') with hfresh | hold
      · exact absurd hissued hfresh.1
      · obtain ⟨job, hjob, hid, hprecedes⟩ := hold
        obtain ⟨run, hrun, rfl⟩ := List.mem_map.mp hjob
        exact ⟨run, hrun, hid, hprecedes⟩
    rcases h.evolves w' hw' with ⟨w, hw, hevolves⟩ | ⟨session, -, -, hevolves⟩
    · obtain ⟨run, hrun, hid, hprecedes⟩ := horigin w hevolves
      exact ⟨run, ⟨w, hw, hrun⟩, hid, hprecedes⟩
    · obtain ⟨run, hrun, -, -⟩ := horigin _ hevolves
      cases hrun

theorem follows_run (hsound : db.Sound) (inputs : List AgentInput) :
    db.Follows (System.run step db inputs) :=
  System.related_run Follows.refl (fun _ _ _ h h' ↦ h.trans h') (fun _ input h ↦ h.step input)
    (fun _ input h ↦ (progress_step h input).follows) inputs db hsound

/-- A run that had ended keeps its status, and a run that was leased keeps its token as long as it
has one. -/
structure RunLater (run run' : AgentRun) : Prop where
  status : ¬ run.status.IsOpen → run'.status = run.status
  token : ∀ token ∈ run.leaseToken, ∀ token' ∈ run'.leaseToken, token' = token

theorem RunStatus.stage_injective : Function.Injective RunStatus.stage := by
  intro status status' h
  cases status <;> cases status' <;> first | rfl | cases h

/-- What the order of the jobs says about the rows. -/
theorem AgentDb.Follows.runLater (h : db.Follows db') (hsound : db.Sound) (hsound' : db'.Sound)
    {run run' : AgentRun} (hrun : db.HasRun run) (hrun' : db'.HasRun run')
    (hid : run'.id = run.id) : RunLater run run' := by
  obtain ⟨found, hfound, hfoundId, hprecedes⟩ := h.origin run' hrun'
    (hid ▸ hsound.run_issued hrun)
  obtain rfl := hsound.run_eq hfound hrun (hfoundId.trans hid)
  constructor
  · intro hended
    obtain ⟨outcome, hstage⟩ := ended_job_iff.mpr hended
    unfold Job.Precedes at hprecedes
    rw [hstage] at hprecedes
    exact RunStatus.stage_injective (hprecedes.trans hstage.symm)
  · intro token htoken token' htoken'
    obtain ⟨w, hw, hrow⟩ := hrun
    have hrunning := ((hsound.workspace w hw).runsSound.leased found hrow).mp
      (Option.isSome_iff_exists.mpr ⟨token, htoken⟩)
    have hstage : found.job.stage = .leased := by
      unfold AgentRun.job
      rw [hrunning]
      rfl
    unfold Job.Precedes at hprecedes
    rw [hstage] at hprecedes
    rcases hprecedes with hsame | hended
    · have htokens : run'.leaseToken = found.leaseToken := congrArg Job.token hsame
      rw [htokens, htoken] at htoken'
      exact (Option.some.inj htoken').symm
    · obtain ⟨w', hw', hrow'⟩ := hrun'
      have hrunning' := ((hsound'.workspace w' hw').runsSound.leased run' hrow').mp
        (Option.isSome_iff_exists.mpr ⟨token', htoken'⟩)
      exact absurd (Or.inr hrunning') (ended_job_iff.mp hended)

/-! ### Claims -/

/-- The claims that a call commits: the run, and the token it is leased under. -/
def claims (db : AgentDb) (input : AgentInput) : List (Id × Id) :=
  match input.op with
  | .claim workerId candidates skipped =>
    match claim input.call input.later workerId candidates skipped db with
    | .ok (some context) _ => [(context.runId, context.leaseToken)]
    | _ => []
  | _ => []

/-- What a claim finds and leaves: a queued run, which is leased under the token. -/
theorem claim_some {workerId : String} {candidates skipped : List Id} {context : RunContext}
    (h : claim call later workerId candidates skipped db = .ok (some context) db') :
    (∃ run, db.HasRun run ∧ run.id = context.runId ∧ run.status = .queued) ∧
      ∃ run', db'.HasRun run' ∧ run'.id = context.runId ∧ run'.status = .running ∧
        run'.leaseToken = some context.leaseToken := by
  unfold claim at h
  simp only [get_bind_eq_ok] at h
  cases hclaimable : claimable db candidates skipped with
  | none =>
    simp only [hclaimable, pure_eq_ok] at h
    cases h.1
  | some w =>
    simp only [hclaimable] at h
    obtain ⟨hw, -⟩ := mem_claimable hclaimable
    obtain ⟨run, hfind, h⟩ := orRaise_bind_eq_ok.mp h
    have hrun := List.mem_of_find?_eq_some hfind
    have hqueued : run.status = .queued := by simpa using List.find?_some hfind
    split_ifs at h
    · obtain ⟨w', db₁, -, h⟩ := bind_eq_ok.mp h
      obtain ⟨_, db₂, -, h⟩ := bind_eq_ok.mp h
      cases (pure_eq_ok.mp h).1
    · obtain ⟨token, db₁, -, h⟩ := bind_eq_ok.mp h
      obtain ⟨_, db₂, hsave, h⟩ := bind_eq_ok.mp h
      obtain rfl := save_eq_ok.mp hsave
      obtain ⟨hcontext, rfl⟩ := pure_eq_ok.mp h
      obtain rfl := Option.some.inj hcontext
      refine ⟨⟨run, ⟨w, hw, hrun⟩, rfl, hqueued⟩, ?_⟩
      have hrow : claimedRun call.now workerId token run ∈
          (w.setRun run.id (claimedRun call.now workerId token)).runs.rows :=
        Workspace.mem_setRun.mpr ⟨run, hrun, if_pos rfl⟩
      exact ⟨_, ⟨_, (Table.mem_put _).mpr (Or.inl rfl), hrow⟩, rfl, rfl, rfl⟩

/-- A call claims nothing, or a run that was queued and is leased under the token afterwards. -/
theorem claims_cases (db : AgentDb) (input : AgentInput) :
    claims db input = [] ∨ ∃ claimed, claims db input = [claimed] ∧
      (∃ run, db.HasRun run ∧ run.id = claimed.1 ∧ run.status = .queued) ∧
      ∃ run', (step db input).HasRun run' ∧ run'.job = ⟨claimed.1, .leased, some claimed.2⟩ := by
  obtain ⟨call, later, op⟩ := input
  cases op with
  | claim workerId candidates skipped =>
    cases hclaim : claim call later workerId candidates skipped db with
    | error failure db' =>
      refine Or.inl ?_
      simp only [claims, hclaim]
    | ok found db' =>
      cases found with
      | none =>
        refine Or.inl ?_
        simp only [claims, hclaim]
      | some context =>
        obtain ⟨hbefore, run', hrun', hid, hstatus, htoken⟩ := claim_some hclaim
        refine Or.inr ⟨(context.runId, context.leaseToken), ?_, hbefore, run', ?_, ?_⟩
        · simp only [claims, hclaim]
        · change (commit (claim call later workerId candidates skipped) db).HasRun run'
          rw [commit_of_ok hclaim]
          exact hrun'
        · unfold AgentRun.job
          rw [hid, hstatus, htoken]
          rfl
  | _ => exact Or.inl rfl

/-- What is known of the runs that were claimed: no run twice, and each is leased under its token or
has ended. -/
structure Claimed (db : AgentDb) (past : List (Id × Id)) : Prop where
  sound : db.Sound
  once : (past.map Prod.fst).Nodup
  issued : ∀ claimed ∈ past, claimed.1 ∈ db.board.issued
  taken : ∀ claimed ∈ past, ∀ run, db.HasRun run → run.id = claimed.1 →
    run.job = ⟨claimed.1, .leased, some claimed.2⟩ ∨ run.job.Ended

/-- One call keeps it. -/
theorem Claimed.step {past : List (Id × Id)} (h : Claimed db past) (input : AgentInput) :
    Claimed (step db input) (past ++ claims db input) := by
  have hprogress := progress_step h.sound input
  have hsound := h.sound.step input
  have hfollows := hprogress.follows
  have hpast : ∀ claimed ∈ past, ∀ run', (Agent.step db input).HasRun run' → run'.id = claimed.1 →
      run'.job = ⟨claimed.1, .leased, some claimed.2⟩ ∨ run'.job.Ended := by
    intro claimed hclaimed run' hrun' hid
    obtain ⟨run, hrun, hrunId, hprecedes⟩ := hfollows.origin run' hrun'
      (hid ▸ h.issued claimed hclaimed)
    unfold Job.Precedes at hprecedes
    rcases h.taken claimed hclaimed run hrun (hrunId.trans hid) with hjob | ⟨outcome, hended⟩
    · rw [hjob] at hprecedes
      exact hprecedes
    · rw [hended] at hprecedes
      exact Or.inr ⟨outcome, hprecedes⟩
  have hissued : ∀ claimed ∈ past, claimed.1 ∈ (Agent.step db input).board.issued :=
    fun claimed hclaimed ↦ hfollows.issued (h.issued claimed hclaimed)
  rcases claims_cases db input with hnone | ⟨new, hnew, ⟨run, hrun, hid, hqueued⟩, run',
    hrun', hjob⟩
  · rw [hnone, List.append_nil]
    exact ⟨hsound, h.once, hissued, hpast⟩
  · have hid' : run'.id = new.1 := congrArg Job.id hjob
    have hunclaimed : new.1 ∉ past.map Prod.fst := by
      intro hmem
      obtain ⟨claimed, hclaimed, heq⟩ := List.mem_map.mp hmem
      have hstage : run.job.stage = .queued := congrArg RunStatus.stage hqueued
      rcases h.taken claimed hclaimed run hrun (hid.trans heq.symm) with hleased | ⟨_, hended⟩
      · rw [hleased] at hstage
        cases hstage
      · rw [hended] at hstage
        cases hstage
    rw [hnew]
    refine ⟨hsound, ?_, ?_, ?_⟩
    · rw [List.map_append]
      refine h.once.append (List.nodup_singleton _) ?_
      exact List.disjoint_singleton.mpr hunclaimed
    · intro claimed hclaimed
      rcases List.mem_append.mp hclaimed with hclaimed | hlast
      · exact hissued claimed hclaimed
      · rw [List.mem_singleton.mp hlast, ← hid']
        exact hsound.run_issued hrun'
    · intro claimed hclaimed later hlater hlaterId
      rcases List.mem_append.mp hclaimed with hclaimed | hlast
      · exact hpast claimed hclaimed later hlater hlaterId
      · rw [List.mem_singleton.mp hlast] at hlaterId ⊢
        rw [hsound.run_eq hlater hrun' (hlaterId.trans hid'.symm)]
        exact Or.inl hjob

/-! ### The lease as a guard -/

/-- The context with which a call acts for a run. -/
def AgentOp.context : AgentOp → Option RunContext
  | .heartbeat context | .failRun context .. | .finalize context _ | .appendDelta context ..
  | .countModel context _ | .reportProgress context _ | .decideAdmittance context _
  | .recognitionFailed context _ | .startTool context _ | .runTool context ..
  | .failTool context .. => some context
  | _ => none

/-- The run of the context is stored, is running under the token of the context, and neither its
lease nor its deadline has passed. -/
def AgentDb.Leases (db : AgentDb) (context : RunContext) (now : Time) : Prop :=
  ∃ run, db.HasRun run ∧ run.id = context.runId ∧ run.status = .running ∧
    run.leaseToken = some context.leaseToken ∧ (∃ expires ∈ run.leaseExpiresAt, now < expires) ∧
    ∃ deadline ∈ run.deadlineAt, now < deadline

theorem leases_of_lockRun {context : RunContext} {found : Workspace × AgentRun}
    (h : lockRun call context db = .ok found db') : db.Leases context call.now := by
  obtain ⟨⟨hw, -⟩, ⟨hrun, hid⟩, hholds, -⟩ := lockRun_eq_ok.mp h
  have hpassed : ∀ time : Option Time, time.any (call.now < ·) → ∃ t ∈ time, call.now < t := by
    intro time htime
    obtain ⟨t, ht, hlt⟩ := (Option.any_eq_true _ _).mp htime
    exact ⟨t, ht, of_decide_eq_true hlt⟩
  exact ⟨found.2, ⟨found.1, hw, hrun⟩, hid, hholds.running, hholds.token,
    hpassed _ hholds.lease, hpassed _ hholds.deadline⟩

/-- A body that begins by locking the run commits nothing without the lease. -/
theorem leases_of_lockRun_bind {context : RunContext} {α : Type}
    {rest : Workspace × AgentRun → Txn Failure AgentDb α}
    (h : commit (lockRun call context >>= rest) db ≠ db) : db.Leases context call.now := by
  rcases commit_cases (lockRun call context >>= rest) db with heq | ⟨_, _, hok, -⟩
  · exact absurd heq h
  · obtain ⟨found, db₁, hlock, -⟩ := bind_eq_ok.mp hok
    exact leases_of_lockRun hlock

/-- The same when the arguments are checked first. -/
theorem leases_of_require_bind {context : RunContext} {α : Type} {condition : Prop}
    [Decidable condition] {failure : Failure} {rest : Workspace × AgentRun → Txn Failure AgentDb α}
    (h : commit (require condition failure >>= fun _ ↦ lockRun call context >>= rest) db ≠ db) :
    db.Leases context call.now := by
  rcases commit_cases (require condition failure >>= fun _ ↦ lockRun call context >>= rest) db with
    heq | ⟨_, _, hok, -⟩
  · exact absurd heq h
  · obtain ⟨-, hok⟩ := require_bind_eq_ok.mp hok
    obtain ⟨found, db₁, hlock, -⟩ := bind_eq_ok.mp hok
    exact leases_of_lockRun hlock

/-- Whatever a worker does with a context is without effect unless the context holds the lease. -/
theorem leases_of_step_ne {input : AgentInput} {context : RunContext}
    (hcontext : input.op.context = some context) (h : step db input ≠ db) :
    db.Leases context input.call.now := by
  obtain ⟨call, later, op⟩ := input
  cases op <;> cases hcontext <;> first
    | exact leases_of_lockRun_bind h
    | exact leases_of_require_bind h

/-! ### Every run of the system -/

/-- In every state that a run of the system reaches, the runs of every session are sound; from every
state to every later one they keep their ends and their tokens; no run is claimed twice; and a call
for a run that does not hold its lease changes nothing. -/
theorem runs_live_once (board : Board) (inputs : List AgentInput) :
    (∀ w ∈ (System.run step (.start board) inputs).workspaces.rows, w.RunsSound) ∧
    ((System.outputs step claims (.start board) inputs).map Prod.fst).Nodup ∧
    (∀ further run run', (System.run step (.start board) inputs).HasRun run →
      (System.run step (.start board) (inputs ++ further)).HasRun run' → run'.id = run.id →
        RunLater run run') ∧
    ∀ input context, input.op.context = some context →
      step (System.run step (.start board) inputs) input ≠ System.run step (.start board) inputs →
        (System.run step (.start board) inputs).Leases context input.call.now := by
  have hsound := sound_run board inputs
  refine ⟨fun w hw ↦ (hsound.workspace w hw).runsSound, ?_, ?_, ?_⟩
  · have hstart : Claimed (.start board) [] :=
      ⟨.start board, List.nodup_nil, fun _ h ↦ absurd h List.not_mem_nil,
        fun _ h ↦ absurd h List.not_mem_nil⟩
    exact (System.history_run (fun _ input _ h ↦ h.step input) inputs _ [] hstart).once
  · intro further run run' hrun hrun' hid
    rw [System.run_append] at hrun'
    exact (follows_run hsound further).runLater hsound (System.run_append step _ inputs further ▸
      sound_run board (inputs ++ further)) hrun hrun' hid
  · exact fun input context hcontext hne ↦ leases_of_step_ne hcontext hne

end FilmOS.Agent
