import FilmOS.Agent.Workflow
import FilmOS.Agent.Recognition

/-!
# Commands on work items

The commands that a user gives on a work item of an idle session: confirm it, which creates the
formal order, put it aside, give it up, have its screenshot recognised, or select it for review; and
the selection of the next item in the queue. A confirmation of an item whose order exists returns
that order.
-/

set_option autoImplicit false
set_option relaxedAutoImplicit false

namespace FilmOS.Agent

open Transaction

/-- The workspace that holds an item. -/
def workspaceOfItem (db : AgentDb) (itemId : Id) : Option Workspace :=
  db.workspaces.rows.find? (fun w ↦ itemId ∈ w.items.keys)

/-- `require_item`, for a change. -/
def requireItem (itemId userId : Id) : Txn Failure AgentDb (Workspace × OrderIntakeItem) := do
  let db ← get
  let found ← orRaise (workspaceOfItem db itemId)
    (.refused "RESOURCE_NOT_FOUND" "订单工作项不存在" 404)
  let w ← requireSession found.session.id userId true
  require (w.session.agentType = .orderIntake) (.refused "WRONG_AGENT_TYPE" "此会话不支持录单" 422)
  let item ← orRaise (w.items.find? itemId) .noResultFound
  let attachment ← orRaise (w.attachments.find? item.sourceAttachmentId) .attributeError
  require (attachment.intakeArchivedAt = none)
    (conflict "SCREENSHOT_ARCHIVED" "截图已归档，请先恢复后再处理")
  return (w, item)

/-- The draft patch of a user. -/
def patchItem (call : Call) (itemId userId : Id) (expected : ℕ) (patch : DraftPatch) :
    Txn Failure AgentDb Unit := do
  let (w, item) ← requireItem itemId userId
  let db ← get
  let w ← checked (patchDraft call db.board item expected patch .user none w)
  save w

/-- What a command has done to its item: the workspace, and the run or the order that came of it. -/
structure ItemEffect where
  workspace : Workspace
  runId : Option Id
  order : Option OrderRef

/-- `CONFIRM_ORDER`. -/
def confirmOrder (call : Call) (commandId : Id) (item : OrderIntakeItem) (w : Workspace) :
    Txn Failure AgentDb ItemEffect := do
  require (item.status = .active ∧ w.session.activeWorkItemId = some item.id)
    (conflict "ACTION_STALE" "请先选择此订单进行核对")
  let db ← get
  require (∀ issue ∈ validateDraft db.board item.draft, issue.severity ≠ .blocking)
    (.refused "DRAFT_INCOMPLETE" "请先补齐并核对订单字段" 422)
  let order ← onBoard (createFromWorkspaceDraft call item.draft)
  let w := (w.release item.id .created).setItem item.id (fun row ↦
    { row with orderId := some order.id })
  let w := w.append call .workItemCreated
    [("id", .text order.id), ("order_no", .text order.orderNo)]
    { commandId := some commandId, workItemId := some item.id }
  return ⟨w, none, some ⟨order.id, order.orderNo⟩⟩

/-- `DEFER_ITEM`. -/
def deferItem (call : Call) (commandId : Id) (item : OrderIntakeItem) (w : Workspace) :
    Txn Failure AgentDb ItemEffect := do
  require (item.status = .active ∧ w.session.activeWorkItemId = some item.id)
    (conflict "ACTION_STALE" "只有当前订单可以暂放")
  let w := (w.release item.id .deferred).append call .workItemDeferred []
    { commandId := some commandId, workItemId := some item.id }
  return ⟨w, none, none⟩

/-- `CLOSE_ITEM`. -/
def closeItem (call : Call) (commandId : Id) (payload : ActionPayload) (item : OrderIntakeItem)
    (w : Workspace) : Txn Failure AgentDb ItemEffect := do
  require payload.confirmed (.refused "INPUT_INVALID" "请明确确认放弃" 422)
  let w :=
    if w.session.activeWorkItemId = some item.id then w.release item.id .closed
    else w.setItemStatus item.id .closed
  let w := w.append call .workItemClosed []
    { commandId := some commandId, workItemId := some item.id }
  return ⟨w, none, none⟩

/-- `RECOGNIZE_ITEM`. -/
def recognizeItem (call : Call) (commandId : Id) (item : OrderIntakeItem) (w : Workspace) :
    Txn Failure AgentDb ItemEffect := do
  require (item.recognitionStatus ≠ .succeeded)
    (conflict "ACTION_STALE" "此截图已识别，请核对已有草稿")
  let w := w.setState { w.session.state with intakeWorkbench := some true }
  let runId ← generateId call
  let run := newRun call w runId
    { kind := .resumeItem, eventSeq := w.session.lastEventSeq, messageId := item.sourceMessageId,
      commandId := some commandId, workItemId := some item.id }
  let w ← checked (w.addRun run)
  let w := w.append call .runQueued [] { runId := some runId, workItemId := some item.id }
  return ⟨w, some runId, none⟩

/-- The active item, if any, is put aside for another one. -/
def deferCurrent (call : Call) (commandId : Id) (w : Workspace) : Except Failure Workspace :=
  match w.session.activeWorkItemId with
  | none => .ok w
  | some previousId =>
    match w.items.find? previousId with
    | none => .error .attributeError
    | some previous =>
      .ok (((w.release previous.id .deferred).reviseItem previous.id).append call .workItemDeferred
        [] { commandId := some commandId, workItemId := some previous.id })

/-- A run for an item that was selected before it was recognised. -/
def runForSelected (call : Call) (kind : TriggerKind) (commandId : Id) (item : OrderIntakeItem)
    (w : Workspace) : Txn Failure AgentDb (Workspace × Option Id) :=
  if item.recognitionStatus = .succeeded then return (w, none)
  else do
    let runId ← generateId call
    let run := newRun call w runId
      { kind, eventSeq := w.session.lastEventSeq, messageId := item.sourceMessageId,
        commandId := some commandId, workItemId := some item.id }
    let w ← checked (w.addRun run)
    return (w.append call .runQueued [] { runId := some runId, commandId := some commandId },
      some runId)

/-- `SELECT_ITEM`. -/
def selectItem (call : Call) (commandId : Id) (payload : ActionPayload) (item : OrderIntakeItem)
    (w : Workspace) : Txn Failure AgentDb ItemEffect := do
  let expected ← orRaise payload.expectedStateRevision (.keyError "expected_state_revision")
  requireRevision w expected
  require (item.status = .pending ∨ item.status = .deferred)
    (conflict "ACTION_STALE" "该订单当前不可切换")
  let w ← checked (deferCurrent call commandId w)
  let w := (w.activate item.id).append call .workItemActivated []
    { commandId := some commandId, workItemId := some item.id }
  let (w, runId) ← runForSelected call .resumeItem commandId item w
  return ⟨w, runId, none⟩

/-- What a command does to its item. -/
def itemEffect (call : Call) (kind : CommandKind) (commandId : Id) (payload : ActionPayload)
    (item : OrderIntakeItem) (w : Workspace) : Txn Failure AgentDb ItemEffect :=
  match kind with
  | .confirmOrder => confirmOrder call commandId item w
  | .deferItem => deferItem call commandId item w
  | .closeItem => closeItem call commandId payload item w
  | .recognizeItem => recognizeItem call commandId item w
  | .selectItem => selectItem call commandId payload item w
  | _ => throw (.valueError "unsupported work item command")

/-- After the commands that end the review of an item, the next one may be selected at once. -/
def Advances (kind : CommandKind) (payload : ActionPayload) : Prop :=
  payload.advance ∧ (kind = .confirmOrder ∨ kind = .deferItem ∨ kind = .closeItem)

instance (kind : CommandKind) (payload : ActionPayload) : Decidable (Advances kind payload) :=
  inferInstanceAs (Decidable (_ ∧ _))

/-- The message that a confirmation leaves, which offers the next item of the queue unless one was
selected. -/
def confirmationMessage (w : Workspace) (messageId commandId itemId : Id) (advance : Bool)
    (order : OrderRef) : ChatMessage :=
  let next := w.firstItem (fun item ↦ item.status = .pending)
  { id := messageId, clientMessageId := none, requestHash := none, origin := .business
    content :=
      s!"已创建订单 {order.orderNo}。" ++
        if advance then ""
        else if next.isSome then "是否处理下一单？"
        else "暂无待处理订单；已暂存的草稿可从截图与订单列表继续。"
    actions :=
      if advance then []
      else (next.map (fun item ↦ ⟨w.session.id, w.session.stateRevision, item.id⟩)).toList
    runId := none, commandId := some commandId, workItemId := some itemId
    eventSeq := w.session.lastEventSeq + 1 }

/-- The message of a confirmation, and its event. -/
def confirm (call : Call) (commandId itemId : Id) (advance : Bool) (order : Option OrderRef)
    (w : Workspace) : Txn Failure AgentDb Workspace :=
  match order with
  | none => return w
  | some order => do
    let messageId ← generateId call
    let message := confirmationMessage w messageId commandId itemId advance order
    return (w.addMessage message).append call .messageCompleted
      [("role", .text "assistant"), ("text", .text message.content), ("attachment_ids", .texts [])]
      { messageId := some messageId, commandId := some commandId, workItemId := some itemId }

/-- The command on an item that is neither created nor closed. -/
def changeItem (call : Call) (kind : CommandKind) (commandId : Id) (payload : ActionPayload)
    (item : OrderIntakeItem) (w : Workspace) : Txn Failure AgentDb ItemEffect := do
  checked (requireItemRevision item payload.expectedRevision)
  require (item.status ≠ .created ∧ item.status ≠ .closed)
    (conflict "WORK_ITEM_CLOSED" "该订单工作项已结束")
  let effect ← itemEffect call kind commandId payload item w
  let w := effect.workspace.reviseItem item.id
  let w ← if Advances kind payload then checked (advanceReview call w) else pure w
  let w := w.revise.announce call
  let w ← confirm call commandId item.id payload.advance effect.order w
  return { effect with workspace := w }

/-- The command row and the result of a command on an item. -/
def recordItemCommand (commandId userId : Id) (key : String) (kind : CommandKind)
    (payload : ActionPayload) (itemId : Id) (itemRevision : ℕ) (returnedExisting : Bool)
    (effect : ItemEffect) : Txn Failure AgentDb CommandResult := do
  let session := effect.workspace.session
  let result : CommandResult := .itemChanged commandId kind itemId effect.runId returnedExisting
    effect.order session.stateRevision itemRevision session.lastEventSeq
  addCommand
    { id := commandId, userId, sessionId := session.id, idempotencyKey := key, kind
      requestHash := .itemCommand kind itemId payload, targetId := some itemId
      expectedRevision := some payload.expectedRevision, resultRunId := effect.runId
      httpStatus := if effect.runId.isSome then 202 else 200, result }
  return result

/-- `item_command`. -/
def itemCommand (call : Call) (itemId userId : Id) (key : String) (kind : CommandKind)
    (payload : ActionPayload) : Txn Failure AgentDb CommandResult :=
  replaying userId key (.itemCommand kind itemId payload) do
    let (w, item) ← requireItem itemId userId
    requireIdle w
    let commandId ← generateId call
    if kind = .confirmOrder ∧ item.status = .created then
      let db ← get
      let order ← orRaise (item.orderId.bind db.board.orders.find?)
        (conflict "ORDER_DELETED" "正式订单已删除，识别记录保留，不能重复创建")
      recordItemCommand commandId userId key kind payload itemId item.revision true
        ⟨w, none, some ⟨order.id, order.orderNo⟩⟩
    else
      let effect ← changeItem call kind commandId payload item w
      save effect.workspace
      recordItemCommand commandId userId key kind payload itemId (item.revision + 1) false effect

/-- `next_item`. -/
def nextItem (call : Call) (sessionId userId : Id) (key : String) (expectedStateRevision : ℕ)
    (expectedNextItemId : Id) : Txn Failure AgentDb CommandResult :=
  replaying userId key (.nextItem sessionId expectedStateRevision expectedNextItemId) do
    let w ← requireSession sessionId userId true
    require (w.session.agentType = .orderIntake)
      (.refused "WRONG_AGENT_TYPE" "排单助手没有下一张截图" 422)
    requireIdle w
    requireRevision w expectedStateRevision
    require (w.session.activeWorkItemId = none)
      (conflict "ACTION_STALE" "请先结束或暂放当前订单")
    let item ← orRaise
      ((w.firstItem (fun item ↦ item.status = .pending)).filter (·.id = expectedNextItemId))
      (conflict "ACTION_STALE" "待处理队列已改变，请刷新")
    let commandId ← generateId call
    let w := ((w.activate item.id).reviseItem item.id).revise
    let w := w.append call .workItemActivated [("revision", .number (item.revision + 1))]
      { commandId := some commandId, workItemId := some item.id }
    let (w, runId) ← runForSelected call .nextItem commandId item w
    save w
    let result : CommandResult :=
      .nextItem commandId runId item.id w.session.stateRevision w.session.lastEventSeq
    addCommand
      { id := commandId, userId, sessionId, idempotencyKey := key, kind := .nextItem
        requestHash := .nextItem sessionId expectedStateRevision expectedNextItemId
        targetId := some item.id, expectedRevision := none, resultRunId := runId
        httpStatus := if runId.isSome then 202 else 200, result }
    return result

end FilmOS.Agent
