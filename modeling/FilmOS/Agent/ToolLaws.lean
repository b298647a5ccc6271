import FilmOS.Agent.ItemLaws
import FilmOS.Agent.PlanLaws
import FilmOS.Agent.Tools

/-!
# What a run does under its lease makes progress

A run counts its model calls, reports, and calls tools, each under its lease. The effect of a tool
call and its receipt are saved together: `runTool_ok` says what was saved, and `progress_runTool`
that it is progress. The first transaction of a call enters a receipt under a call key that the run
has not used (`startTool_ok`).
-/

set_option autoImplicit false
set_option relaxedAutoImplicit false

namespace FilmOS.Agent

open Transaction AgentDb

variable {call : Call} {later : Time} {context : RunContext} {db db' : AgentDb} {permit : Permit}
  {w w' : Workspace} {command : AgentCommand → Prop}

/-! ### Progress of a run -/

theorem progress_countModel (hsound : db.Sound) {stage : String} {u : Unit}
    (h : countModel call context stage db = .ok u db') : Progress {} db db' := by
  unfold countModel at h
  obtain ⟨⟨w, run⟩, db₁, hlock, h⟩ := bind_eq_ok.mp h
  obtain ⟨⟨hw, -⟩, -, -, rfl⟩ := lockRun_eq_ok.mp hlock
  obtain ⟨-, h⟩ := require_bind_eq_ok.mp h
  obtain rfl := save_eq_ok.mp h
  refine progress_quiet hsound hw ?_ (.refl db) id id id id id
  exact (Workspace.Changes.noteRun .refl run.id
    (fun run ↦ { run with modelCallCount := run.modelCallCount + 1 }) (fun _ ↦ rfl)
    (fun _ ↦ ⟨rfl, rfl, rfl, rfl, rfl⟩) (fun _ ↦ rfl) fun _ ↦ rfl).append call _ rfl (by decide)

theorem progress_reportProgress (hsound : db.Sound) {payload : Payload} {u : Unit}
    (h : reportProgress call context payload db = .ok u db') : Progress {} db db' := by
  unfold reportProgress at h
  obtain ⟨⟨w, run⟩, db₁, hlock, h⟩ := bind_eq_ok.mp h
  obtain ⟨⟨hw, -⟩, -, -, rfl⟩ := lockRun_eq_ok.mp hlock
  obtain rfl := save_eq_ok.mp h
  exact progress_quiet hsound hw (Workspace.Changes.append .refl call _ rfl (by decide))
    (.refl db) id id id id id

theorem progress_decideAdmittance (hsound : db.Sound) {admission : Payload} {u : Unit}
    (h : decideAdmittance call context admission db = .ok u db') : Progress {} db db' := by
  unfold decideAdmittance at h
  obtain ⟨⟨w, run⟩, db₁, hlock, h⟩ := bind_eq_ok.mp h
  obtain ⟨⟨hw, -⟩, -, -, rfl⟩ := lockRun_eq_ok.mp hlock
  obtain rfl := save_eq_ok.mp h
  exact progress_quiet hsound hw (Workspace.Changes.append .refl call _ rfl (by decide))
    (.refl db) id id id id id

/-- The failure of a recognition is recorded on the item of the run. -/
theorem progress_recognitionFailed (hsound : db.Sound) {code : String} {u : Unit}
    (h : recognitionFailed call context code db = .ok u db') : Progress {} db db' := by
  unfold recognitionFailed at h
  obtain ⟨⟨w, run⟩, db₁, hlock, h⟩ := bind_eq_ok.mp h
  obtain ⟨⟨hw, -⟩, -, -, rfl⟩ := lockRun_eq_ok.mp hlock
  obtain ⟨item, hfind, h⟩ := orRaise_bind_eq_ok.mp h
  obtain ⟨itemId, -, hitem⟩ := Option.bind_eq_some_iff.mp hfind
  obtain ⟨hmem, -⟩ := (Table.find?_eq_some_iff _).mp hitem
  obtain rfl := save_eq_ok.mp h
  refine progress_quiet hsound hw ?_ (.refl db) id id id id id
  refine .tail (Workspace.Changes.editItem .refl item.id (fun item ↦
    { item with
      recognitionStatus := .failed, lastErrorCode := some code, revision := item.revision + 1 })
    (fun _ ↦ rfl) fun _ ↦ ⟨rfl, rfl, rfl, rfl, fun _ ↦ by simp⟩)
    (.append _ .system call .recognitionFailed _ _ rfl (Or.inl rfl) fun _ itemId hid ↦ ?_)
  obtain rfl := Option.some.inj hid
  exact Workspace.attempted_setItem _ _ hmem (by simp)

/-! ### Tool calls -/

/-- The session with the receipt of a call that was started. -/
structure StartsCall (callId : Id) (run : AgentRun) (request : ToolRequest) (w w' : Workspace) :
    Prop where
  changes : ∀ (permit : Permit) (fresh : Id → Prop), fresh callId → w.Changes permit fresh w'
  receipts : w'.toolCalls.rows = w.toolCalls.rows ++
    [{ id := callId, runId := run.id, callKey := request.callKey, toolName := request.toolName
       argsHash := request.argsHash, status := .started, result := none, errorCode := none }]

/-- What the first transaction of a tool call does: it answers from the receipt of the call key, or
enters a receipt under a call key that the run has not used. -/
theorem startTool_ok {request : ToolRequest} {start : ToolStart}
    (h : startTool call context request db = .ok start db') :
    ∃ w run, (w ∈ db.workspaces.rows ∧ w.session.id = context.sessionId) ∧
      (run ∈ w.runs.rows ∧ run.id = context.runId) ∧ Holds context call.now w run ∧
      ((∃ receipt ∈ w.toolCalls.rows, receipt.runId = run.id ∧ receipt.callKey = request.callKey ∧
          receipt.argsHash = request.argsHash ∧ receipt.toolName = request.toolName ∧
          receipt.status = .succeeded ∧ start = .finished receipt.result ∧ db' = db) ∨
        ∃ callId w' db₁, start = .started callId ∧ generateId call db = .ok callId db₁ ∧
          (∀ receipt ∈ w.toolCalls.rows,
            ¬ (receipt.runId = run.id ∧ receipt.callKey = request.callKey)) ∧
          StartsCall callId run request w w' ∧
          db' = { db₁ with workspaces := db₁.workspaces.put w' }) := by
  unfold startTool at h
  obtain ⟨-, h⟩ := require_bind_eq_ok.mp h
  obtain ⟨⟨w, run⟩, db₁, hlock, h⟩ := bind_eq_ok.mp h
  obtain ⟨hw, hrun, hholds, rfl⟩ := lockRun_eq_ok.mp hlock
  refine ⟨w, run, hw, hrun, hholds, ?_⟩
  cases hfind : w.toolCalls.rows.find?
      (fun row ↦ row.runId = run.id ∧ row.callKey = request.callKey) with
  | some existing =>
    simp only [hfind] at h
    obtain ⟨⟨hargs, htool⟩, h⟩ := require_bind_eq_ok.mp h
    obtain ⟨hstatus, h⟩ := require_bind_eq_ok.mp h
    obtain ⟨rfl, rfl⟩ := pure_eq_ok.mp h
    have hkey := List.find?_some hfind
    rw [decide_eq_true_eq] at hkey
    exact Or.inl ⟨existing, List.mem_of_find?_eq_some hfind, hkey.1, hkey.2, hargs, htool, hstatus,
      rfl, rfl⟩
  | none =>
    simp only [hfind] at h
    obtain ⟨-, h⟩ := require_bind_eq_ok.mp h
    obtain ⟨callId, db₂, hcallId, h⟩ := bind_eq_ok.mp h
    obtain ⟨w₁, hadd, h⟩ := checked_bind_eq_ok.mp h
    obtain ⟨_, db₃, hsave, h⟩ := bind_eq_ok.mp h
    obtain rfl := save_eq_ok.mp hsave
    obtain ⟨rfl, rfl⟩ := pure_eq_ok.mp h
    have hnew : ∀ receipt ∈ w.toolCalls.rows,
        ¬ (receipt.runId = run.id ∧ receipt.callKey = request.callKey) := by
      intro receipt hreceipt hsame
      have hnone := List.find?_eq_none.mp hfind receipt hreceipt
      simp [hsame.1, hsame.2] at hnone
    refine Or.inr ⟨callId, _, db₂, rfl, hcallId, hnew, ⟨fun permit fresh hfresh ↦ ?_, ?_⟩, rfl⟩
    · unfold Workspace.addToolCall at hadd
      cases hinsert : w.toolCalls.insert?
          { id := callId, runId := run.id, callKey := request.callKey, toolName := request.toolName
            argsHash := request.argsHash, status := .started, result := none
            errorCode := none } with
      | none => simp [hinsert] at hadd
      | some toolCalls =>
        simp only [hinsert, Except.ok.injEq] at hadd
        subst hadd
        have hadded : w.Changes permit fresh { w with toolCalls } :=
          .single (.addToolCall w _ toolCalls hinsert hfresh rfl
            ((Table.mem_keys _).mpr ⟨run, hrun.1, rfl⟩) hnew)
        exact (Workspace.Changes.noteRun hadded run.id
          (fun run ↦ { run with toolCallCount := run.toolCallCount + 1 }) (fun _ ↦ rfl)
          (fun _ ↦ ⟨rfl, rfl, rfl, rfl, rfl⟩) (fun _ ↦ rfl) fun _ ↦ rfl).appendBy .agent call _
            rfl (by decide)
    · unfold Workspace.addToolCall at hadd
      split at hadd
      · next toolCalls hinsert =>
        obtain rfl := Except.ok.inj hadd
        exact ((Table.insert?_eq_some_iff _ _ _).mp hinsert).2
      · cases hadd

theorem progress_startTool (hsound : db.Sound) {request : ToolRequest} {start : ToolStart}
    (h : startTool call context request db = .ok start db') : Progress {} db db' := by
  obtain ⟨w, run, ⟨hw, -⟩, -, -, hfinished | hstarted⟩ := startTool_ok h
  · obtain ⟨receipt, -, -, -, -, -, -, -, rfl⟩ := hfinished
    exact .refl _
  · obtain ⟨callId, w', db₁, -, hcallId, -, hstarts, rfl⟩ := hstarted
    exact progress_quiet hsound hw (hstarts.changes _ _ (fresh_generateId hcallId))
      (prepares_generateId hcallId) id id id id id

/-- The operation generates a plan. -/
def ToolOperation.Generates : ToolOperation → Prop
  | .generate => True
  | _ => False

/-- What a tool call may do: settle its receipt, and generate a plan when that is the operation. -/
def Permit.tool (callId : Id) (operation : ToolOperation) : Permit where
  call := (· = callId)
  plan := operation.Generates

theorem perform_makes {run : AgentRun} {operation : ToolOperation} {result : ToolResult}
    (hplan : operation.Generates → permit.plan)
    (h : operation.perform call context run w db = .ok (w', result) db') :
    Makes command permit db db' w w' := by
  cases operation with
  | read answer =>
    obtain ⟨heq, rfl⟩ := pure_eq_ok.mp h
    obtain ⟨rfl, -⟩ := Prod.mk.inj heq
    exact .refl _ _
  | patchDraft expected patch =>
    unfold ToolOperation.perform at h
    obtain ⟨item, -, h⟩ := checked_bind_eq_ok.mp h
    rw [get_bind_eq_ok] at h
    obtain ⟨w₁, hpatch, h⟩ := checked_bind_eq_ok.mp h
    obtain ⟨item', -, h⟩ := checked_bind_eq_ok.mp h
    obtain ⟨heq, rfl⟩ := pure_eq_ok.mp h
    obtain ⟨rfl, -⟩ := Prod.mk.inj heq
    exact ⟨.refl _, patchDraft_changes hpatch⟩
  | extractOrder first further expected =>
    unfold ToolOperation.perform at h
    obtain ⟨item, -, h⟩ := checked_bind_eq_ok.mp h
    obtain ⟨w₁, db₁, hextract, h⟩ := bind_eq_ok.mp h
    obtain ⟨item', -, h⟩ := checked_bind_eq_ok.mp h
    obtain ⟨heq, rfl⟩ := pure_eq_ok.mp h
    obtain ⟨rfl, -⟩ := Prod.mk.inj heq
    exact saveScreenshotExtraction_makes hextract
  | generate => exact generate_makes (hplan trivial) h

/-- The receipt of a call is settled with a permit for it. -/
theorem setToolCall_changes {permit : Permit} {fresh : Id → Prop} {callId : Id}
    (hcall : permit.call callId) (change : AgentToolCall → AgentToolCall)
    (hid : ∀ receipt, (change receipt).id = receipt.id)
    (hsame : ∀ receipt : AgentToolCall, receipt.Same (change receipt))
    (hsettled : ∀ receipt, (change receipt).status ≠ .abandoned) :
    w.Changes permit fresh (w.setToolCall callId change hid) :=
  .single (.setToolCall w callId change hid hsame (fun _ _ _ ↦ Or.inr hcall)
    fun receipt _ _ habandoned ↦ absurd habandoned (hsettled receipt))

/-- What the second transaction of a tool call does: its operation and its receipt are saved
together, while the lease lasts. -/
theorem runTool_ok {callId : Id} {request : ToolRequest} {operation : ToolOperation}
    {result : ToolResult} (h : runTool call later context callId request operation db =
    .ok result db') :
    ∃ w run w₁ w' db₁, (w ∈ db.workspaces.rows ∧ w.session.id = context.sessionId) ∧
      (run ∈ w.runs.rows ∧ run.id = context.runId) ∧ Holds context call.now w run ∧
      run.deadlineAt.any (later < ·) ∧ run.leaseExpiresAt.any (later < ·) ∧
      operation.perform call context run w db = .ok (w₁, result) db₁ ∧
      callId ∈ w₁.toolCalls.keys ∧
      w' = (w₁.setToolCall callId (fun row ↦
          { row with status := .succeeded, result := some result })).appendBy .agent call
        .toolSucceeded [("tool_name", .text request.toolName)]
        { runId := some run.id, toolCallId := some callId } ∧
      db' = { db₁ with workspaces := db₁.workspaces.put w' } := by
  unfold runTool at h
  obtain ⟨⟨w, run⟩, db₁, hlock, h⟩ := bind_eq_ok.mp h
  obtain ⟨hw, hrun, hholds, rfl⟩ := lockRun_eq_ok.mp hlock
  obtain ⟨⟨w₁, answer⟩, db₂, hperform, h⟩ := bind_eq_ok.mp h
  obtain ⟨⟨hdeadline, hlease⟩, h⟩ := require_bind_eq_ok.mp h
  obtain ⟨hkey, h⟩ := require_bind_eq_ok.mp h
  obtain ⟨_, db₃, hsave, h⟩ := bind_eq_ok.mp h
  obtain rfl := save_eq_ok.mp hsave
  obtain ⟨rfl, rfl⟩ := pure_eq_ok.mp h
  exact ⟨w, run, w₁, _, db₂, hw, hrun, hholds, hdeadline, hlease, hperform, hkey, rfl, rfl⟩

theorem progress_runTool (hsound : db.Sound) {callId : Id} {request : ToolRequest}
    {operation : ToolOperation} {result : ToolResult}
    (h : runTool call later context callId request operation db = .ok result db') :
    Progress (.tool callId operation) db db' := by
  obtain ⟨w, run, w₁, w', db₁, ⟨hw, -⟩, -, -, -, -, hperform, -, rfl, rfl⟩ := runTool_ok h
  have hmakes : Makes (Permit.tool callId operation).command (.tool callId operation) db db₁ w w₁ :=
    perform_makes (fun h ↦ h) hperform
  refine progress_quiet hsound hw ?_ hmakes.prepares id id id id id
  refine Workspace.Changes.appendBy (hmakes.changes.trans ?_) .agent call _ rfl (by decide)
  exact setToolCall_changes rfl _ _ (fun _ ↦ ⟨rfl, rfl, rfl, rfl, rfl⟩) fun _ ↦ by simp

/-- What the third transaction of a tool call does. -/
theorem failTool_ok {callId : Id} {request : ToolRequest} {u : Unit}
    (h : failTool call context callId request db = .ok u db') :
    ∃ w run w', (w ∈ db.workspaces.rows ∧ w.session.id = context.sessionId) ∧
      (run ∈ w.runs.rows ∧ run.id = context.runId) ∧ Holds context call.now w run ∧
      w' = (w.setToolCall callId (fun row ↦
          { row with status := .failed, errorCode := some "TOOL_FAILED" })).appendBy .agent call
        .toolFailed [("tool_name", .text request.toolName), ("error_code", .text "TOOL_FAILED")]
        { runId := some run.id, toolCallId := some callId } ∧
      db' = { db with workspaces := db.workspaces.put w' } := by
  unfold failTool at h
  obtain ⟨⟨w, run⟩, db₁, hlock, h⟩ := bind_eq_ok.mp h
  obtain ⟨hw, hrun, hholds, rfl⟩ := lockRun_eq_ok.mp hlock
  obtain ⟨-, h⟩ := require_bind_eq_ok.mp h
  exact ⟨w, run, _, hw, hrun, hholds, rfl, (save_eq_ok.mp h).symm⟩

theorem progress_failTool (hsound : db.Sound) {callId : Id} {request : ToolRequest} {u : Unit}
    (h : failTool call context callId request db = .ok u db') :
    Progress { call := (· = callId) } db db' := by
  obtain ⟨w, run, w', ⟨hw, -⟩, -, -, rfl, rfl⟩ := failTool_ok h
  refine progress_quiet hsound hw (Workspace.Changes.appendBy ?_ .agent call _ rfl (by decide))
    (.refl db) id id id id id
  exact setToolCall_changes rfl _ _ (fun _ ↦ ⟨rfl, rfl, rfl, rfl, rfl⟩) fun _ ↦ by simp

end FilmOS.Agent
