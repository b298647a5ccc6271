import FilmOS.Agent.State
import FilmOS.Scheduling.Service

/-!
# Plans of a scheduling session

A run generates a plan for the session once; a plan that is already there is replaced only by a run
that was asked to replace that revision of it. The user edits the draft under its revision, and
applies it, closes it or asks for its replacement, when no run is open. Only the application touches
orders and production tasks.
-/

set_option autoImplicit false
set_option relaxedAutoImplicit false

namespace FilmOS.Scheduling

open Transaction Production Numeral

/-! ### Editing a draft -/

/-- A task of an edited draft. -/
structure DraftTask where
  machineId : Id
  orderIds : List Id
deriving DecidableEq

/-- `plan_revision`, the hash taken to be free of collisions. -/
def planRevision (plan : SchedulePlan) : List ProposedTask × List UnassignedOrder :=
  (plan.tasks, plan.unassigned)

/-- A task of an edited draft, validated; `assigned` are the orders of the tasks before it. -/
def adjustedTask (board : Board) (plan : SchedulePlan) (assigned : List Id) (task : DraftTask) :
    Except Failure ProposedTask := do
  match board.loadMachines.find? (fun machine ↦ machine.machine.id = task.machineId) with
  | none => .error (.http 409 "机器不存在或已停用")
  | some loaded =>
    let machine := loaded.machine
    ensure ((∀ id ∈ task.orderIds, id ∉ assigned) ∧ task.orderIds.Nodup)
      (.http 409 "草案中存在重复订单")
    ensure (∀ id ∈ task.orderIds, id ∈ plan.inputOrderIds ∧ id ∈ board.loadOrders.map Order.id)
      (.http 409 "订单不属于本草案")
    let batch := task.orderIds.filterMap (fun id ↦ board.loadOrders.find? (·.id = id))
    let width ← validateMachineBatch machine batch
    return {
      draftTaskId := none
      machineId := machine.id
      machineName := machine.name
      orderIds := task.orderIds
      orderNos := batch.map Order.orderNo
      totalWidth := width
      widthUtilization := roundTo 4 (width / machine.maxWidth)
      totalQuantityKg := batchQuantityKg batch
      totalQuantityM := totalQuantityM batch
      reason := "人工调整；已通过机器能力与合并规则校验" }

/-- The tasks of an edited draft one after another. -/
def adjustedTasks (board : Board) (plan : SchedulePlan) :
    List DraftTask → List Id → Except Failure (List ProposedTask)
  | [], _ => return []
  | task :: rest, assigned => do
    let adjusted ← adjustedTask board plan assigned task
    let others ← adjustedTasks board plan rest (assigned ++ task.orderIds)
    return adjusted :: others

/-- An input order that an edited draft leaves out. -/
def unassignedOrder (board : Board) (id : Id) : Except Failure UnassignedOrder :=
  match board.loadOrders.find? (·.id = id) with
  | none => .error (.keyError id)
  | some order => .ok ⟨id, order.orderNo, "尚未安排到草案任务"⟩

/-- `update_schedule_draft`. -/
def updateScheduleDraft (planId userId : Id)
    (revision : List ProposedTask × List UnassignedOrder) (tasks : List DraftTask)
    (allowV2 : Bool) : Txn Failure Board SchedulePlan := do
  let board ← get
  let plan ← orRaise
    ((board.plans.find? planId).filter (fun plan ↦
      plan.createdById = userId ∧ (plan.createdByRunId = none ∨ allowV2)))
    (.http 404 "排产方案不存在")
  require (plan.status = .draft ∧ revision = planRevision plan)
    (.http 409 "草案已被修改或执行，请重新加载")
  require (¬ PlanIsStale board plan) (.http 409 "生产数据已变化，请重新生成方案")
  let adjusted ← checked (adjustedTasks board plan tasks [])
  let unassigned ← checked
    ((plan.inputOrderIds.filter (· ∉ adjusted.flatMap ProposedTask.orderIds)).mapM
      (unassignedOrder board))
  set { board with
    plans := board.plans.update planId (fun row ↦ { row with tasks := adjusted, unassigned }) }
  return { plan with tasks := adjusted, unassigned }

end FilmOS.Scheduling

namespace FilmOS.Agent

open Transaction Scheduling

/-- `require_plan`, for a change. -/
def requirePlan (planId userId : Id) : Txn Failure AgentDb (Workspace × SchedulePlan) := do
  let db ← get
  let plan ← orRaise ((db.board.plans.find? planId).filter (·.createdByRunId.isSome))
    (.refused "RESOURCE_NOT_FOUND" "排产草案不存在" 404)
  let w ← requireSession plan.sessionId userId true
  require (w.session.agentType = .scheduling) (.refused "WRONG_AGENT_TYPE" "此会话不支持排产" 422)
  return (w, plan)

/-- `require_revision` of a plan. -/
def requireDraft (plan : SchedulePlan) (expected : ℕ) : Except Failure Unit :=
  ensure (plan.status = .draft ∧ plan.revision = expected)
    (conflict "DRAFT_REVISION_CONFLICT" "草案已改变，请读取最新版本")

/-- Changes the plan with an identifier. -/
def setPlanRow (planId : Id) (change : SchedulePlan → SchedulePlan)
    (hid : ∀ plan, (change plan).id = plan.id := by intro _; rfl) : Txn Failure AgentDb Unit :=
  modify (fun db ↦
    { db with board := { db.board with plans := db.board.plans.update planId change hid } })

/-- Every task with the identifier known for it, or a fresh one. -/
def withDraftIds (call : Call) (known : ProposedTask → Option Id) :
    List ProposedTask → Txn Failure AgentDb (List ProposedTask)
  | [] => return []
  | task :: rest => do
    let id ← match truthy (known task) with
      | some id => pure id
      | none => generateId call
    let others ← withDraftIds call known rest
    return { task with draftTaskId := some id } :: others

/-! ### Generation -/

/-- The plan that a run may replace: none when the session has none. -/
def checkPrevious (run : AgentRun) (previous : SchedulePlan) :
    Except Failure (Option ToolResult) :=
  match run.config.retryIntent with
  | none => .ok (some (.plan previous none true))
  | some intent => do
    ensure (intent.planId = previous.id ∧ intent.expectedRevision = previous.revision)
      (conflict "DRAFT_REVISION_CONFLICT" "原草案已更新，请重新确认替换")
    return none

/-- The previous plan is superseded by its replacement. -/
def supersede (call : Call) (runId : Id) (plan : SchedulePlan) (previous : Option SchedulePlan)
    (w : Workspace) : Txn Failure AgentDb Workspace :=
  match previous with
  | none => return w
  | some previous => do
    setPlanRow previous.id (fun row ↦
      { row with status := .superseded, supersededById := some plan.id, updatedAt := call.now })
    return w.append call .planSuperseded
      [("plan_id", .text previous.id), ("replacement_id", .text plan.id)] { runId := some runId }

/-- A new plan for the session, in the place of the previous one. -/
def generateAnew (call : Call) (run : AgentRun) (previous : Option SchedulePlan) (w : Workspace) :
    Txn Failure AgentDb (Workspace × ToolResult) := do
  let db ← get
  if db.board.loadOrders = [] then
    return (w, .noPending)
  else
    let plan ← onBoard
      (createSchedulePlan call w.session.id w.session.userId run.config.selectedOrderIds)
    let w ← supersede call run.id plan previous w
    let tasks ← withDraftIds call (fun _ ↦ none) plan.tasks
    setPlanRow plan.id (fun row ↦ { row with createdByRunId := some run.id, tasks })
    let w := w.setRun run.id (fun row ↦ { row with generatedPlanId := some plan.id })
    let w := (w.setPlan (some plan.id)).revise
    let w := w.append call .planGenerated
      [("plan_id", .text plan.id), ("revision", .number plan.revision)] { runId := some run.id }
    return (w.announce call,
      .plan { plan with createdByRunId := some run.id, tasks }
        (some (if tasks = [] then .noFeasible else .draftReady)) false)

/-- `generate`. -/
def generate (call : Call) (run : AgentRun) (w : Workspace) :
    Txn Failure AgentDb (Workspace × ToolResult) := do
  let db ← get
  match run.generatedPlanId with
  | some planId =>
    let plan ← orRaise (db.board.plans.find? planId) .attributeError
    return (w, .plan plan none false)
  | none =>
    match w.session.activePlanId.bind db.board.plans.find? with
    | none => generateAnew call run none w
    | some previous =>
      match ← checked (checkPrevious run previous) with
      | some result => return (w, result)
      | none => generateAnew call run (some previous) w

/-! ### Changes by the user -/

/-- How an edit that the scheduling service refused is reported. -/
def patchFailure : Failure → Failure
  | .http status detail =>
    .refused (if "变化".toList <:+: detail.toList then "PLAN_STALE" else "INPUT_INVALID")
      detail status
  | failure => failure

/-- The identifier that a draft has for the orders of a task on its machine. -/
def knownDraftId (plan : SchedulePlan) (task : ProposedTask) : Option Id :=
  (plan.tasks.reverse.find? (fun known ↦
    known.machineId = task.machineId ∧ known.orderIds = task.orderIds)).bind
      ProposedTask.draftTaskId

/-- `patch_plan`. -/
def patchPlan (call : Call) (planId userId : Id) (expected : ℕ) (tasks : List DraftTask) :
    Txn Failure AgentDb SchedulePlan := do
  let (w, plan) ← requirePlan planId userId
  requireIdle w
  checked (requireDraft plan expected)
  let edited ← onBoard (rephrase patchFailure
    (updateScheduleDraft planId userId (planRevision plan) tasks true))
  let tasks ← withDraftIds call (knownDraftId plan) edited.tasks
  setPlanRow planId (fun row ↦
    { row with tasks, revision := row.revision + 1, updatedAt := call.now })
  save (w.appendBy (.user userId) call .planUpdated
    [("plan_id", .text planId), ("revision", .number (plan.revision + 1))] {})
  return { edited with tasks, revision := plan.revision + 1, updatedAt := call.now }

/-- How an application that the scheduling service refused is reported. -/
def applyFailure : Failure → Failure
  | .http status detail => .refused "PLAN_STALE" detail status
  | failure => failure

/-- What a command has done to its plan: the workspace, and the run or the application that came of
it. -/
structure PlanEffect where
  workspace : Workspace
  runId : Option Id
  applied : Option AppliedResult

/-- What the events of an application tell. -/
def appliedPayload (planId : Id) (applied : AppliedResult) : Payload :=
  [("plan_id", .text planId), ("task_ids", .texts applied.taskIds),
    ("task_count", .number applied.taskCount), ("order_count", .number applied.orderCount)]

/-- The message that an application leaves. -/
def appliedMessage (w : Workspace) (messageId commandId : Id) (applied : AppliedResult) :
    ChatMessage where
  id := messageId
  clientMessageId := none
  requestHash := none
  origin := .business
  content := s!"排产成功：创建{applied.taskCount}个生产任务，安排{applied.orderCount}张订单。"
  actions := []
  runId := none
  commandId := some commandId
  workItemId := none
  eventSeq := w.session.lastEventSeq + 1

/-- `APPLY_PLAN`. -/
def applyPlan (call : Call) (commandId userId : Id) (plan : SchedulePlan) (w : Workspace) :
    Txn Failure AgentDb PlanEffect := do
  require (plan.tasks ≠ []) (.refused "NO_FEASIBLE" "没有可下发的排产任务" 422)
  let applied ← onBoard (rephrase applyFailure (applySchedulePlan call plan.id userId true))
  setPlanRow plan.id (fun row ↦
    { row with appliedResult := some applied, revision := row.revision + 1 })
  let w := (w.setPlan none).setState
    { w.session.state with
      schedulingOrderIds := some (plan.unassigned.map UnassignedOrder.orderId) }
  let w := w.append call .planApplied (appliedPayload plan.id applied)
    { commandId := some commandId }
  let messageId ← generateId call
  let message := appliedMessage w messageId commandId applied
  let w := (w.addMessage message).append call .messageCompleted
    [("role", .text "assistant"), ("text", .text message.content), ("attachment_ids", .texts [])]
    { messageId := some messageId, commandId := some commandId }
  return ⟨w, none, some applied⟩

/-- `CLOSE_PLAN`. -/
def closePlan (call : Call) (commandId : Id) (payload : ActionPayload) (plan : SchedulePlan)
    (w : Workspace) : Txn Failure AgentDb PlanEffect := do
  require payload.confirmed (.refused "INPUT_INVALID" "请明确确认关闭草案" 422)
  setPlanRow plan.id (fun row ↦
    { row with status := .closed, closedAt := some call.now, revision := row.revision + 1 })
  let w := (w.setPlan none).append call .planClosed [("plan_id", .text plan.id)]
    { commandId := some commandId }
  return ⟨w, none, none⟩

/-- The run that replaces a plan. -/
def replacementRun (call : Call) (w : Workspace) (runId commandId : Id) (plan : SchedulePlan)
    (eventSeq : ℕ) : AgentRun :=
  let run := newRun call w runId { kind := .replacePlan, eventSeq, commandId := some commandId }
  { run with
    config :=
      { run.config with
        retryIntent := some ⟨plan.id, plan.revision⟩
        schedulingWorkbench := plan.selected
        selectedOrderIds := if plan.selected then some plan.inputOrderIds else none } }

/-- `REPLACE_PLAN`. -/
def replacePlan (call : Call) (commandId userId : Id) (plan : SchedulePlan) (w : Workspace) :
    Txn Failure AgentDb PlanEffect := do
  let w := w.appendBy (.user userId) call .commandAccepted [("kind", .text "REPLACE_PLAN")]
    { commandId := some commandId }
  let runId ← generateId call
  let w ← checked (w.addRun (replacementRun call w runId commandId plan w.session.lastEventSeq))
  let w := w.append call .runQueued [] { runId := some runId, commandId := some commandId }
  return ⟨w, some runId, none⟩

/-- What a command does to its plan. -/
def planEffect (call : Call) (kind : CommandKind) (commandId userId : Id) (payload : ActionPayload)
    (plan : SchedulePlan) (w : Workspace) : Txn Failure AgentDb PlanEffect :=
  match kind with
  | .applyPlan => applyPlan call commandId userId plan w
  | .closePlan => closePlan call commandId payload plan w
  | .replacePlan => replacePlan call commandId userId plan w
  | _ => throw (.valueError "unsupported plan command")

/-- The command row and the result of a command on a plan. -/
def recordPlanCommand (commandId userId : Id) (key : String) (kind : CommandKind)
    (payload : ActionPayload) (planId : Id) (planRevision : ℕ) (returnedExisting : Bool)
    (effect : PlanEffect) : Txn Failure AgentDb CommandResult := do
  let session := effect.workspace.session
  let result : CommandResult := .planChanged commandId kind planId effect.runId returnedExisting
    effect.applied session.stateRevision planRevision session.lastEventSeq
  addCommand
    { id := commandId, userId, sessionId := session.id, idempotencyKey := key, kind
      requestHash := .planCommand kind planId payload, targetId := some planId
      expectedRevision := some payload.expectedRevision, resultRunId := effect.runId
      httpStatus := if effect.runId.isSome then 202 else 200, result }
  return result

/-- The command on a draft that is the active plan of its session. -/
def changePlan (call : Call) (kind : CommandKind) (commandId userId : Id) (payload : ActionPayload)
    (plan : SchedulePlan) (w : Workspace) : Txn Failure AgentDb PlanEffect := do
  checked (requireDraft plan payload.expectedRevision)
  require (w.session.activePlanId = some plan.id) (conflict "ACTION_STALE" "该草案不是当前工作区")
  let effect ← planEffect call kind commandId userId payload plan w
  setPlanRow plan.id (fun row ↦ { row with updatedAt := call.now })
  return { effect with workspace := effect.workspace.revise.announce call }

/-- `plan_command`. -/
def planCommand (call : Call) (planId userId : Id) (key : String) (kind : CommandKind)
    (payload : ActionPayload) : Txn Failure AgentDb CommandResult :=
  replaying userId key (.planCommand kind planId payload) do
    let (w, plan) ← requirePlan planId userId
    requireIdle w
    let commandId ← generateId call
    if kind = .applyPlan ∧ plan.status = .applied then
      recordPlanCommand commandId userId key kind payload planId plan.revision true
        ⟨w, none, plan.appliedResult⟩
    else
      let effect ← changePlan call kind commandId userId payload plan w
      save effect.workspace
      recordPlanCommand commandId userId key kind payload planId
        (if kind = .replacePlan then plan.revision else plan.revision + 1) false effect

end FilmOS.Agent
