import FilmOS.Agent.State

/-!
# Sessions

Creation of a session, acceptance of a message, the retry of a failed run, and the archiving,
restoring and deletion of a session. An accepted message is stored together with the run that will
answer it; sent again under its client identifier, it is answered from the stored rows.

A deletion only marks the session and hands its files to the clean-up; the rows go once all files
are gone.
-/

set_option autoImplicit false
set_option relaxedAutoImplicit false

namespace FilmOS.Agent

open Transaction

/-- The body of a request for a session. -/
structure CreateSession where
  agentType : AgentType
  title : Option String

/-- The title of a session that was not given one. -/
def AgentType.defaultTitle : AgentType → String
  | .orderIntake => "录入订单"
  | .scheduling => "智能排单"

/-- A new session. -/
def newSession (call : Call) (id userId : Id) (body : CreateSession) : ChatSession where
  id
  userId
  agentType := body.agentType
  status := .active
  title := (truthy body.title).getD body.agentType.defaultTitle
  stateRevision := 1
  state := ⟨none, none⟩
  activeWorkItemId := none
  activePlanId := none
  lastEventSeq := 0
  createdAt := call.now
  updatedAt := call.now
  archivedAt := none
  deletionRequestedAt := none

/-- The name of an agent type. -/
def AgentType.text : AgentType → String
  | .orderIntake => "ORDER_INTAKE"
  | .scheduling => "SCHEDULING"

/-- `create_session`. -/
def createSession (call : Call) (userId : Id) (key : String) (body : CreateSession) :
    Txn Failure AgentDb CommandResult :=
  let request : CommandRequest := .createSession body.agentType body.title
  replaying userId key request do
    let sessionId ← generateId call
    let commandId ← generateId call
    let w := (Workspace.blank (newSession call sessionId userId body)).appendBy (.user userId) call
      .sessionCreated [("agent_type", .text body.agentType.text)] { commandId := some commandId }
    let db ← get
    let workspaces ← orRaise (db.workspaces.insert? w) (.integrityError "chat_sessions_pkey")
    set { db with workspaces }
    let result : CommandResult := .sessionCreated (sessionDto w.session) w.session.lastEventSeq
    addCommand
      { id := commandId, userId, sessionId, idempotencyKey := key, kind := .createSession
        requestHash := request, targetId := none, expectedRevision := none, resultRunId := none
        httpStatus := 201, result }
    return result

/-- `workspace`: the active session of a type that the user works in, or a new one. -/
def enterWorkspace (call : Call) (userId : Id) (key : String) (agentType : AgentType) :
    Txn Failure AgentDb SessionDto := do
  let db ← get
  match firstBy (fun w : Workspace ↦
      toLex (w.session.activePlanId.isNone, toLex (w.session.createdAt, w.session.id)))
    (db.workspaces.rows.filter (fun w ↦
      w.session.userId = userId ∧ w.session.agentType = agentType ∧
        w.session.status = .active)) with
  | some w => return sessionDto w.session
  | none =>
    match ← createSession call userId key ⟨agentType, none⟩ with
    | .sessionCreated session _ => return session
    | _ => throw (.keyError "session")

/-! ### Messages -/

/-- The body of a message: text or screenshots, no screenshot twice. -/
structure SendMessage where
  clientMessageId : String
  content : String
  attachmentIds : List Id
  expectedStateRevision : ℕ
  targetWorkItemId : Option Id
  nonempty : content ≠ "" ∨ attachmentIds ≠ []
  distinct : attachmentIds.Nodup
deriving DecidableEq

/-- What a message asks for: an answer, the recognition of its screenshots, or a plan for selected
orders. -/
inductive MessageMode
  | chat
  | recognize
  | schedule (orderIds : List Id)
deriving DecidableEq

/-- Only screenshots are to be recognised. -/
def MessageMode.recognizeOnly : MessageMode → Bool
  | .recognize => true
  | _ => false

/-- The orders to plan, when a plan is asked for. -/
def MessageMode.scheduleOrderIds : MessageMode → Option (List Id)
  | .schedule orderIds => some orderIds
  | _ => none

/-- What the hash of a message covers. -/
def messageRequest (body : SendMessage) (mode : MessageMode) : MessageRequest where
  content := body.content
  attachmentIds := body.attachmentIds
  expectedStateRevision := body.expectedStateRevision
  targetWorkItemId := body.targetWorkItemId
  recognizeOnly := mode.recognizeOnly
  selectedOrderIds := mode.scheduleOrderIds

/-- The runs that a message triggered. -/
def Workspace.messageRuns (w : Workspace) (messageId : Id) : List AgentRun :=
  w.runs.rows.filter (fun run ↦ run.triggerMessageId = some messageId ∧ run.triggerKind = .message)

/-- The items of a message, in the order of the queue. -/
def Workspace.messageItems (w : Workspace) (messageId : Id) : List OrderIntakeItem :=
  orderBy Workspace.queuePlace (w.items.rows.filter (·.sourceMessageId = messageId))

/-- The answer to a message that was accepted before, rebuilt from the rows. -/
def replayMessage (w : Workspace) (existing : ChatMessage) (request : MessageRequest) :
    Except Failure Accepted := do
  ensure (existing.requestHash = some request)
    (conflict "IDEMPOTENCY_MISMATCH" "该消息标识已用于不同内容")
  match w.messageRuns existing.id with
  | [run] =>
    match run.config.acceptedStateRevision with
    | some revision => return acceptedDto existing run (w.messageItems existing.id) revision
    | none => .error (.keyError "accepted_state_revision")
  | _ => .error .noResultFound

/-- The session for a recognition: an order session, and screenshots without text. -/
def openWorkbench (w : Workspace) (body : SendMessage) (mode : MessageMode) :
    Except Failure Workspace :=
  if mode.recognizeOnly then
    if w.session.agentType = .orderIntake ∧ body.attachmentIds ≠ [] ∧ body.content = "" then
      .ok (w.setState { w.session.state with intakeWorkbench := some true })
    else .error (.refused "INPUT_INVALID" "请选择要识别的订单截图" 422)
  else .ok w

/-- The session for a plan of selected orders, which must all wait. -/
def selectOrders (board : Board) (w : Workspace) (mode : MessageMode) : Except Failure Workspace :=
  match mode.scheduleOrderIds with
  | none => .ok w
  | some orderIds => do
    ensure (w.session.agentType = .scheduling)
      (.refused "WRONG_AGENT_TYPE" "此工作区不支持排单" 422)
    ensure (w.session.activePlanId = none) (conflict "PLAN_EXISTS" "请先处理当前排单草稿")
    ensure (orderIds ≠ [] ∧ orderIds.Nodup ∧ ∀ id ∈ orderIds, id ∈ board.loadOrders.map Order.id)
      (conflict "ORDER_SELECTION_STALE" "部分订单已不在待排列表，请刷新后重新选择")
    return w.setState { w.session.state with schedulingOrderIds := some orderIds }

/-- The message is about the item that is active now. -/
def checkTarget (w : Workspace) (body : SendMessage) : Except Failure Unit := do
  ensure (body.targetWorkItemId = none ∨ body.targetWorkItemId = w.session.activeWorkItemId)
    (conflict "ACTION_STALE" "当前订单已切换，请刷新后重试")
  ensure (body.attachmentIds ≠ [] ∨ body.targetWorkItemId = w.session.activeWorkItemId)
    (conflict "ACTION_STALE" "请刷新当前订单后再补充信息")
  ensure (body.attachmentIds = [] ∨ w.session.agentType = .orderIntake)
    (.refused "IMAGE_NOT_ALLOWED" "排单助手不接受图片" 422)

/-- An uploaded screenshot that was not sent and has not expired. -/
def stagedAttachment (now : Time) (w : Workspace) (id : Id) : Except Failure ChatAttachment :=
  match w.attachments.find? id with
  | none => .error (.refused "RESOURCE_NOT_FOUND" "附件不存在" 404)
  | some attachment =>
    if attachment.status = .staged ∧ attachment.available ∧ attachment.expiresAt.any (now < ·) then
      .ok attachment
    else .error (conflict "ATTACHMENT_UNAVAILABLE" "附件已使用或过期，请重新上传")

/-- The item for a screenshot of a message. -/
def screenshotItem (call : Call) (id messageId attachmentId : Id) (position : ℤ) :
    OrderIntakeItem where
  id
  sourceMessageId := messageId
  sourceAttachmentId := attachmentId
  sourceOrderIndex := 1
  queuePosition := position
  status := .pending
  revision := 1
  recognitionStatus := .notStarted
  draft := .blank
  issues := []
  provenance := Table.empty
  orderId := none
  lastErrorCode := none
  createdAt := call.now

/-- Binds the screenshots of a message, from the given index on, and queues an item for each. -/
def bindAttachments (call : Call) (messageId : Id) (position : ℤ) :
    List ChatAttachment → ℕ → Workspace → Txn Failure AgentDb (Workspace × List OrderIntakeItem)
  | [], _, w => return (w, [])
  | attachment :: rest, index, w => do
    let w := w.setAttachment attachment.id (fun row ↦
      { row with
        messageId := some messageId, position := some index, status := .bound, expiresAt := none })
    let itemId ← generateId call
    let item := screenshotItem call itemId messageId attachment.id (position + index + 1)
    let w ← checked (w.addItem item)
    let w := w.append call .workItemQueued [("position", .number item.queuePosition)]
      { workItemId := some itemId }
    let (w, items) ← bindAttachments call messageId position rest (index + 1) w
    return (w, item :: items)

/-- The first item that waits becomes the active one, when a message brought items and no item is
active. -/
def activateFirst (call : Call) (items : List OrderIntakeItem) (w : Workspace) :
    Except Failure Workspace :=
  if items ≠ [] ∧ w.session.activeWorkItemId = none then
    match w.firstItem (fun item ↦ item.status = .pending) with
    | none => .error .noResultFound
    | some first =>
      .ok (((w.activate first.id).reviseItem first.id).append call .workItemActivated
        [("revision", .number (first.revision + 1))] { workItemId := some first.id })
  else .ok w

/-- The item that the run of a message is about. -/
def messageItem (w : Workspace) (mode : MessageMode) (queuedOnly : Bool)
    (items : List OrderIntakeItem) : Option Id :=
  if mode.recognizeOnly then items.head?.map OrderIntakeItem.id
  else if queuedOnly then none
  else w.session.activeWorkItemId

/-- The configuration of the run of a message. -/
def messageConfig (w : Workspace) (mode : MessageMode) (queuedOnly : Bool) : RunConfig :=
  { newConfig w queuedOnly with
    acceptedStateRevision := some (w.session.stateRevision + 1)
    intakeWorkbench := mode.recognizeOnly
    schedulingWorkbench := mode.scheduleOrderIds.isSome
    selectedOrderIds := mode.scheduleOrderIds }

/-- The message of a user. -/
def userMessage (w : Workspace) (messageId : Id) (body : SendMessage) (mode : MessageMode) :
    ChatMessage where
  id := messageId
  clientMessageId := some body.clientMessageId
  requestHash := some (messageRequest body mode)
  origin := .user
  content := body.content
  actions := []
  runId := none
  commandId := none
  workItemId := if body.attachmentIds = [] then w.session.activeWorkItemId else none
  eventSeq := w.session.lastEventSeq + 1

/-- The message with its event. -/
def addUserMessage (call : Call) (userId messageId : Id) (body : SendMessage) (mode : MessageMode)
    (w : Workspace) : Workspace :=
  (w.addMessage (userMessage w messageId body mode)).appendBy (.user userId) call .messageAccepted
    [("role", .text "user"), ("text", .text body.content),
      ("attachment_ids", .texts body.attachmentIds)] { messageId := some messageId }

/-- The run that answers a message. -/
def messageRun (call : Call) (w : Workspace) (runId messageId : Id) (mode : MessageMode)
    (queuedOnly : Bool) (eventSeq : ℕ) (items : List OrderIntakeItem) : AgentRun :=
  { newRun call w runId
      { kind := .message, eventSeq, messageId := some messageId
        workItemId := messageItem w mode queuedOnly items, queuedOnly } with
    config := messageConfig w mode queuedOnly }

/-- The greatest position in the queue. -/
def Workspace.lastPosition (w : Workspace) : ℤ :=
  (maxOf (w.items.rows.map OrderIntakeItem.queuePosition)).getD 0

/-- The rows of a message that passed the checks: the message, its items, and its run. -/
def enterMessage (call : Call) (userId : Id) (body : SendMessage) (mode : MessageMode)
    (attachments : List ChatAttachment) (w : Workspace) : Txn Failure AgentDb Accepted := do
  let messageId ← generateId call
  let message := userMessage w messageId body mode
  let queuedOnly := decide (attachments ≠ [] ∧ w.session.activeWorkItemId ≠ none)
  let position := w.lastPosition
  let w := addUserMessage call userId messageId body mode w
  let (w, items) ← bindAttachments call messageId position attachments 0 w
  let w ← checked (activateFirst call items w)
  let runId ← generateId call
  let run := messageRun call w runId messageId mode queuedOnly message.eventSeq items
  let w ← checked (w.addRun run)
  let w := w.revise
  let w := w.append call .runQueued [] { runId := some runId }
  let w := w.announce call
  save w
  return acceptedDto message run items w.session.stateRevision

/-- `accept_message`. -/
def acceptMessage (call : Call) (sessionId userId : Id) (body : SendMessage) (mode : MessageMode) :
    Txn Failure AgentDb Accepted := do
  let w ← requireSession sessionId userId true
  match w.messages.find? (·.clientMessageId = some body.clientMessageId) with
  | some existing => checked (replayMessage w existing (messageRequest body mode))
  | none =>
    let w ← checked (openWorkbench w body mode)
    requireIdle w
    requireRevision w body.expectedStateRevision
    let db ← get
    let w ← checked (selectOrders db.board w mode)
    checked (checkTarget w body)
    let attachments ← checked (body.attachmentIds.mapM (stagedAttachment call.now w))
    enterMessage call userId body mode attachments w

/-! ### Retries -/

/-- The workspace that holds a run. -/
def workspaceOfRun (db : AgentDb) (runId : Id) : Option Workspace :=
  db.workspaces.rows.find? (fun w ↦ runId ∈ w.runs.keys)

/-- The run that was queued last. -/
def Workspace.latestRun (w : Workspace) : Option AgentRun :=
  maxBy (fun run : AgentRun ↦ toLex (run.queuedAt, run.id)) w.runs.rows

/-- The plan to be replaced is still the one the run was asked to replace. -/
def checkReplacement (board : Board) (w : Workspace) (original : AgentRun) :
    Except Failure Unit :=
  match original.config.retryIntent with
  | none => .ok ()
  | some intent =>
    ensure ((board.plans.find? intent.planId).any (fun plan ↦
        w.session.activePlanId = some plan.id ∧ plan.revision = intent.expectedRevision))
      (conflict "DRAFT_REVISION_CONFLICT" "替换目标已更新，请重新确认替换")

/-- The run that repeats a failed one. -/
def retriedRun (call : Call) (w : Workspace) (runId commandId : Id) (original : AgentRun) :
    AgentRun :=
  let run := newRun call w runId
    { kind := .retry, eventSeq := original.inputEventSeq, messageId := original.triggerMessageId,
      commandId := some commandId, workItemId := original.workItemId
      queuedOnly := original.config.queuedOnly }
  { run with
    retryOfRunId := some original.id
    config :=
      { run.config with
        intakeWorkbench := original.config.intakeWorkbench
        schedulingWorkbench := original.config.schedulingWorkbench
        selectedOrderIds := original.config.selectedOrderIds
        retryIntent := original.config.retryIntent } }

/-- `retry_run`. -/
def retryRun (call : Call) (runId userId : Id) (key : String) (expected : ℕ) :
    Txn Failure AgentDb CommandResult :=
  replaying userId key (.retryRun runId expected) do
    let db ← get
    let found ← orRaise (workspaceOfRun db runId)
      (.refused "RESOURCE_NOT_FOUND" "执行记录不存在" 404)
    let w ← requireSession found.session.id userId true
    requireIdle w
    requireRevision w expected
    let original ← orRaise (w.runs.find? runId) .noResultFound
    require (original.config.sourceDeleted = false)
      (conflict "ACTION_STALE" "原截图已删除，无法重试旧执行")
    require (original.status = .failed ∧ w.latestRun.map AgentRun.id = some runId)
      (conflict "ACTION_STALE" "只能重试最近一次失败的执行")
    require (original.workItemId = none ∨ original.workItemId = w.session.activeWorkItemId)
      (conflict "ACTION_STALE" "该订单已切换，无法重试旧执行")
    let commandId ← generateId call
    let w := w.appendBy (.user userId) call .commandAccepted [("kind", .text "RETRY_RUN")]
      { commandId := some commandId }
    let eventCursor := w.session.lastEventSeq
    let newId ← generateId call
    let db ← get
    checked (checkReplacement db.board w original)
    let run := retriedRun call w newId commandId original
    let w ← checked (w.addRun run)
    let w := w.revise
    let w := w.append call .runQueued [] { runId := some newId, commandId := some commandId }
    let w := w.announce call
    save w
    let result : CommandResult :=
      .runRetried commandId (runDto run) w.session.stateRevision eventCursor
    addCommand
      { id := commandId, userId, sessionId := w.session.id, idempotencyKey := key
        kind := .retryRun, requestHash := .retryRun runId expected, targetId := some runId
        expectedRevision := none, resultRunId := some newId, httpStatus := 202, result }
    return result

/-! ### Status -/

/-- The commands that change the status of a session. -/
inductive StatusChange
  | archive
  | restore
  | delete
deriving DecidableEq, Repr

def StatusChange.kind : StatusChange → CommandKind
  | .archive => .archiveSession
  | .restore => .restoreSession
  | .delete => .deleteSession

/-- The open run of a deleted session is cancelled, and its started tool calls are given up. -/
def cancelOpenRun (call : Call) (w : Workspace) : Workspace :=
  match w.openRun with
  | none => w
  | some run =>
    let w := w.setRun run.id (fun run ↦
      { run with
        status := .cancelled, finishedAt := some call.now, leaseToken := none
        leaseExpiresAt := none })
    (w.abandonCalls call run.id "SESSION_DELETING").append call .runCancelled []
      { runId := some run.id }

/-- The session in its new status, and the event that tells it. -/
def enterStatus (call : Call) (change : StatusChange) (w : Workspace) :
    Txn Failure AgentDb (Workspace × EventKind) :=
  match change with
  | .delete => do
    let w := { w with session :=
      { w.session with status := .deleting, deletionRequestedAt := some call.now } }
    addGcJobs call w.session.id w.attachments.rows
    return (cancelOpenRun call w, .sessionDeleting)
  | .archive => do
    requireIdle w
    return ({ w with session :=
      { w.session with status := .archived, archivedAt := some call.now } }, .sessionArchived)
  | .restore => do
    requireIdle w
    return ({ w with session := { w.session with status := .active, archivedAt := none } },
      .sessionRestored)

/-- `change_status`: a repeated command is answered whatever became of the session. -/
def changeStatus (call : Call) (sessionId userId : Id) (key : String) (change : StatusChange) :
    Txn Failure AgentDb CommandResult := do
  let db ← get
  let request : CommandRequest := .changeStatus change.kind sessionId
  match db.commands.find? (userId, key) with
  | some old =>
    require (old.requestHash = request) (conflict "IDEMPOTENCY_MISMATCH" "该操作标识已用于不同请求")
    return old.result
  | none =>
    let w ← requireSession sessionId userId false
    let commandId ← generateId call
    let (w, kind) ← enterStatus call change w
    let w := w.revise.appendBy (.user userId) call kind [] { commandId := some commandId }
    save w
    let result : CommandResult := .statusChanged commandId w.session.status w.session.stateRevision
      w.session.lastEventSeq
    addCommand
      { id := commandId, userId, sessionId, idempotencyKey := key, kind := change.kind
        requestHash := request, targetId := none, expectedRevision := none, resultRunId := none
        httpStatus := if change = .delete then 202 else 200, result }
    return result

/-! ### The end of a deletion -/

/-- The rows of a session whose files are all gone, removed together with its commands and plans. -/
def finishSession (db : AgentDb) (sessionId : Id) : AgentDb :=
  if db.gcJobs.rows.any (fun job ↦ job.sessionId = some sessionId ∧ job.status ≠ .succeeded) then db
  else
    { db with
      workspaces := db.workspaces.erase sessionId
      commands := db.commands.filter (·.sessionId ≠ sessionId)
      gcJobs := db.gcJobs.mapRows
        (fun job ↦ { job with sessionId := job.sessionId.filter (· ≠ sessionId) }) (fun _ ↦ rfl)
      board := { db.board with plans := db.board.plans.filter (·.sessionId ≠ sessionId) } }

/-- `finish_deletions`, on the sessions that nobody else holds. -/
def finishDeletions (skipped : List Id) (db : AgentDb) : AgentDb :=
  ((orderBy id ((db.workspaces.rows.filter (fun w ↦
    w.session.status = .deleting ∧ w.session.id ∉ skipped)).map (·.session.id))).take 100).foldl
    finishSession db

/-- `collect_once`: one file is removed, or the attempt fails. -/
def collectOnce (call : Call) (skipped : List Id) (unlinked : Bool) (db : AgentDb) : AgentDb :=
  match firstBy (fun job : AgentFileGcJob ↦ toLex (job.nextAttemptAt, job.id))
    (db.gcJobs.rows.filter (fun job ↦
      job.status ≠ .succeeded ∧ job.nextAttemptAt ≤ call.now ∧ job.id ∉ skipped)) with
  | none => db
  | some job =>
    { db with
      gcJobs := db.gcJobs.update job.id (fun row ↦
        let attempts := row.attempts + 1
        if unlinked then { row with attempts, status := .succeeded, lastErrorCode := none }
        else
          { row with
            attempts, status := .failed, lastErrorCode := some "FILE_DELETE_FAILED"
            nextAttemptAt := call.now + seconds (min 3600 (2 ^ min attempts 12)) })
        (fun _ ↦ by split_ifs <;> rfl) }

end FilmOS.Agent
