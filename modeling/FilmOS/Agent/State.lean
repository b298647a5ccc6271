import FilmOS.Agent.Records

/-!
# Access to a session and changes of its rows

The statements that the agent services share: reading a session under its lock, the checks for an
open run and for the revision, the replay of a stored command, and the changes of a workspace out of
which the operations are made. An operation reads the workspace, computes the changed one, and saves
it; a workspace that was not saved has no effect.

Two partial unique indexes are no guards here, on the open run and on the active item of a session:
the invariants of the sessions say that no operation could violate them.
-/

set_option autoImplicit false
set_option relaxedAutoImplicit false

namespace FilmOS.Agent

open Transaction

/-- `fail` with its default status. -/
def conflict (code message : String) : Failure := .refused code message 409

/-- A session without any rows. -/
def Workspace.blank (session : ChatSession) : Workspace where
  session
  items := Table.empty
  attachments := Table.empty
  runs := Table.empty
  messages := []
  events := []
  toolCalls := Table.empty

namespace Workspace

/-! ### Reading -/

/-- `open_run`. -/
def openRun (w : Workspace) : Option AgentRun := w.runs.rows.find? (·.status.IsOpen)

/-- The screenshot of an item exists and is not archived. -/
def unarchived (w : Workspace) (item : OrderIntakeItem) : Bool :=
  (w.attachments.find? item.sourceAttachmentId).any (·.intakeArchivedAt.isNone)

/-- The place of an item in the queue: screenshots by position, the orders of one screenshot by
index. -/
def queuePlace (item : OrderIntakeItem) : ℤ ×ₗ ℕ :=
  toLex (item.queuePosition, item.sourceOrderIndex)

/-- The first item in the queue that satisfies a condition, on a screenshot that is not archived. -/
def firstItem (w : Workspace) (condition : OrderIntakeItem → Bool) : Option OrderIntakeItem :=
  firstBy queuePlace (w.items.rows.filter (fun item ↦ w.unarchived item && condition item))

/-! ### Writing -/

/-- `append_event`, by an actor. -/
def appendBy (actor : Actor) (call : Call) (kind : EventKind) (payload : Payload)
    (refs : References) (w : Workspace) : Workspace :=
  { w with
    session :=
      { w.session with lastEventSeq := w.session.lastEventSeq + 1, updatedAt := call.now }
    events := w.events ++ [⟨w.session.lastEventSeq + 1, kind, payload, actor, refs⟩] }

/-- `append_event`, by the system. -/
def append (call : Call) (kind : EventKind) (payload : Payload) (refs : References)
    (w : Workspace) : Workspace :=
  w.appendBy .system call kind payload refs

/-- `session.state_revision += 1`. -/
def revise (w : Workspace) : Workspace :=
  { w with session := { w.session with stateRevision := w.session.stateRevision + 1 } }

/-- The event that announces the revision of the session. -/
def announce (call : Call) (w : Workspace) : Workspace :=
  w.append call .sessionStateChanged [("state_revision", .number w.session.stateRevision)] {}

/-- Changes the state column of the session. -/
def setState (state : SessionState) (w : Workspace) : Workspace :=
  { w with session := { w.session with state } }

/-- Sets the pointer to the active item. -/
def setCurrent (id : Option Id) (w : Workspace) : Workspace :=
  { w with session := { w.session with activeWorkItemId := id } }

/-- Sets the pointer to the active plan. -/
def setPlan (id : Option Id) (w : Workspace) : Workspace :=
  { w with session := { w.session with activePlanId := id } }

/-- Changes the item with an identifier. -/
def setItem (id : Id) (change : OrderIntakeItem → OrderIntakeItem)
    (hid : ∀ item, (change item).id = item.id := by intro _; rfl) (w : Workspace) : Workspace :=
  { w with items := w.items.update id change hid }

/-- Changes the status of an item. -/
def setItemStatus (id : Id) (status : ItemStatus) (w : Workspace) : Workspace :=
  w.setItem id (fun item ↦ { item with status })

/-- `item.revision += 1`. -/
def reviseItem (id : Id) (w : Workspace) : Workspace :=
  w.setItem id (fun item ↦ { item with revision := item.revision + 1 })

/-- Makes an item the active one. -/
def activate (id : Id) (w : Workspace) : Workspace :=
  (w.setItemStatus id .active).setCurrent (some id)

/-- Gives the active item another status. -/
def release (id : Id) (status : ItemStatus) (w : Workspace) : Workspace :=
  (w.setItemStatus id status).setCurrent none

/-- Changes the run with an identifier. -/
def setRun (id : Id) (change : AgentRun → AgentRun)
    (hid : ∀ run, (change run).id = run.id := by intro _; rfl) (w : Workspace) : Workspace :=
  { w with runs := w.runs.update id change hid }

/-- Changes the screenshot with an identifier. -/
def setAttachment (id : Id) (change : ChatAttachment → ChatAttachment)
    (hid : ∀ attachment, (change attachment).id = attachment.id := by intro _; rfl)
    (w : Workspace) : Workspace :=
  { w with attachments := w.attachments.update id change hid }

/-- Adds a message, before its event: it carries the number of the next event. -/
def addMessage (message : ChatMessage) (w : Workspace) : Workspace :=
  { w with messages := w.messages ++ [message] }

/-- Changes the tool call with an identifier. -/
def setToolCall (id : Id) (change : AgentToolCall → AgentToolCall)
    (hid : ∀ toolCall, (change toolCall).id = toolCall.id := by intro _; rfl)
    (w : Workspace) : Workspace :=
  { w with toolCalls := w.toolCalls.update id change hid }

/-- Adds a run and flushes it. -/
def addRun (run : AgentRun) (w : Workspace) : Except Failure Workspace :=
  match w.runs.insert? run with
  | some runs => .ok { w with runs }
  | none => .error (.integrityError "agent_runs_pkey")

/-- Adds an item and flushes it. -/
def addItem (item : OrderIntakeItem) (w : Workspace) : Except Failure Workspace :=
  match w.items.insert? item with
  | some items => .ok { w with items }
  | none => .error (.integrityError "order_intake_items_pkey")

/-- Adds a screenshot and flushes it. -/
def addAttachment (attachment : ChatAttachment) (w : Workspace) : Except Failure Workspace :=
  match w.attachments.insert? attachment with
  | some attachments => .ok { w with attachments }
  | none => .error (.integrityError "chat_attachments_pkey")

/-- Adds a tool call and flushes it. -/
def addToolCall (toolCall : AgentToolCall) (w : Workspace) : Except Failure Workspace :=
  match w.toolCalls.insert? toolCall with
  | some toolCalls => .ok { w with toolCalls }
  | none => .error (.integrityError "agent_tool_calls_pkey")

/-- The started tool calls of a run are given up, each with an event. -/
def abandonCalls (call : Call) (runId : Id) (code : String) (w : Workspace) : Workspace :=
  (w.toolCalls.rows.filter (fun toolCall ↦ toolCall.runId = runId ∧
    toolCall.status = .started)).foldl (fun w toolCall ↦
      (w.setToolCall toolCall.id (fun row ↦
        { row with status := .abandoned, errorCode := some code })).append call .toolAbandoned
        [("error_code", .text code)] { runId := some runId, toolCallId := some toolCall.id }) w

end Workspace

/-! ### Access to the database -/

/-- A transaction body on the business tables, as part of one on the agent tables. -/
def onBoard {α : Type} (body : Txn Failure Board α) : Txn Failure AgentDb α := fun db ↦
  match body db.board with
  | .ok a board => .ok a { db with board }
  | .error e board => .error e { db with board }

/-- `generate_id`. -/
def generateId (call : Call) : Txn Failure AgentDb Id := onBoard (Board.generateId call)

/-- Writes a workspace back. -/
def save (w : Workspace) : Txn Failure AgentDb Unit :=
  modify (fun db ↦ { db with workspaces := db.workspaces.put w })

/-- Adds a command and flushes it: the key of a user is unique. -/
def addCommand (command : AgentCommand) : Txn Failure AgentDb Unit := do
  let db ← get
  let commands ← orRaise (db.commands.insert? command)
    (.integrityError "uq_agent_commands_user_key")
  set { db with commands }

/-- Adds a clean-up job and flushes it. -/
def addGcJob (call : Call) (sessionId : Option Id) (attachment : ChatAttachment) :
    Txn Failure AgentDb Unit := do
  let id ← generateId call
  let db ← get
  let gcJobs ← orRaise
    (db.gcJobs.insert? ⟨id, sessionId, some attachment.id, attachment.storageKey, .pending, 0,
      call.now, none⟩)
    (.integrityError "agent_file_gc_jobs_pkey")
  set { db with gcJobs }

/-- Jobs for the files of some screenshots. -/
def addGcJobs (call : Call) (sessionId : Id) : List ChatAttachment → Txn Failure AgentDb Unit
  | [] => return ()
  | attachment :: rest => do
    addGcJob call (some sessionId) attachment
    addGcJobs call sessionId rest

/-- `require_session`. -/
def requireSession (sessionId userId : Id) (writable : Bool) : Txn Failure AgentDb Workspace := do
  let db ← get
  let w ← orRaise ((db.workspaces.find? sessionId).filter (·.session.userId = userId))
    (.refused "RESOURCE_NOT_FOUND" "会话不存在" 404)
  require (w.session.status ≠ .deleting) (.refused "SESSION_DELETING" "会话正在删除" 410)
  require (writable → w.session.status = .active) (conflict "SESSION_ARCHIVED" "请先恢复会话")
  return w

/-- `require_idle`. -/
def requireIdle (w : Workspace) : Txn Failure AgentDb Unit :=
  require (w.openRun = none) (conflict "SESSION_BUSY" "本轮仍在处理，请稍后再试")

/-- `require_revision`. -/
def requireRevision (w : Workspace) (expected : ℕ) : Txn Failure AgentDb Unit :=
  require (w.session.stateRevision = expected)
    (conflict "SESSION_STATE_CHANGED" "会话状态已更新，请刷新后重试")

/-- `command_replay`, and the request itself when there is nothing to replay. -/
def replaying (userId : Id) (key : String) (request : CommandRequest)
    (body : Txn Failure AgentDb CommandResult) : Txn Failure AgentDb CommandResult := do
  let db ← get
  match db.commands.find? (userId, key) with
  | none => body
  | some command =>
    require (command.requestHash = request)
      (conflict "IDEMPOTENCY_MISMATCH" "该操作标识已用于不同请求")
    let _ ← requireSession command.sessionId userId false
    return command.result

/-! ### Runs -/

def graphVersion : String := "v2-2026-09-15-02"

/-- The graph that executes the runs of a session. -/
def AgentType.graphKey : AgentType → String
  | .orderIntake => "order_intake"
  | .scheduling => "scheduling"

/-- What starts a run, and what it is about. -/
structure Trigger where
  kind : TriggerKind
  eventSeq : ℕ
  messageId : Option Id := none
  commandId : Option Id := none
  workItemId : Option Id := none
  queuedOnly : Bool := false

/-- The configuration of a new run. -/
def newConfig (w : Workspace) (queuedOnly : Bool) : RunConfig where
  queuedOnly
  intakeWorkbench := w.session.state.intakeWorkbench.getD false
  schedulingWorkbench := false
  selectedOrderIds := none
  acceptedStateRevision := none
  retryIntent := none
  sourceDeleted := false
  runTimeoutSeconds := 180
  queueTimeoutSeconds := 120

/-- `new_run`. -/
def newRun (call : Call) (w : Workspace) (id : Id) (trigger : Trigger) : AgentRun where
  id
  triggerKind := trigger.kind
  triggerMessageId := trigger.messageId
  triggerCommandId := trigger.commandId
  workItemId := trigger.workItemId
  retryOfRunId := none
  status := .queued
  outcome := none
  inputEventSeq := trigger.eventSeq
  graphKey := w.session.agentType.graphKey
  graphVersion := graphVersion
  config := newConfig w trigger.queuedOnly
  outputMessageId := none
  generatedPlanId := none
  errorCode := none
  errorMessage := none
  workerId := none
  leaseToken := none
  leaseExpiresAt := none
  heartbeatAt := none
  deadlineAt := none
  modelCallCount := 0
  toolCallCount := 0
  queuedAt := call.now
  startedAt := none
  finishedAt := none

/-! ### Projections -/

def sessionDto (session : ChatSession) : SessionDto where
  id := session.id
  agentType := session.agentType
  status := session.status
  title := session.title
  stateRevision := session.stateRevision
  state := session.state
  activeWorkItemId := session.activeWorkItemId
  activePlanId := session.activePlanId
  lastEventSeq := session.lastEventSeq
  createdAt := session.createdAt
  updatedAt := session.updatedAt

def runDto (run : AgentRun) : RunDto where
  id := run.id
  status := run.status
  outcome := run.outcome
  triggerKind := run.triggerKind
  triggerMessageId := run.triggerMessageId
  workItemId := run.workItemId
  retryOfRunId := run.retryOfRunId
  outputMessageId := run.outputMessageId
  errorCode := run.errorCode
  errorMessage := run.errorMessage
  queuedAt := run.queuedAt
  startedAt := run.startedAt
  finishedAt := run.finishedAt

/-- What an accepted message returns. -/
structure Accepted where
  messageId : Id
  runId : Id
  runStatus : RunStatus
  workItemIds : List Id
  stateRevision : ℕ
  eventCursor : ℕ
deriving DecidableEq

/-- `accepted_dto`. -/
def acceptedDto (message : ChatMessage) (run : AgentRun) (items : List OrderIntakeItem)
    (revision : ℕ) : Accepted where
  messageId := message.id
  runId := run.id
  runStatus := .queued
  workItemIds := items.map OrderIntakeItem.id
  stateRevision := revision
  eventCursor := message.eventSeq

end FilmOS.Agent
