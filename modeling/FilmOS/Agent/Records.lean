import FilmOS.Agent.Drafts

/-!
# Rows of the agent tables

Sessions, work items, screenshots, runs, messages, events, tool calls and commands, with the columns
that the modelled services read or return. The rows of one session belong together: every
transaction locks the session row first, and no reference leaves the session. So a `Workspace` is a
session with its rows, and the database is a table of workspaces together with the commands, which
are unique for a user and an idempotency key, the clean-up jobs, and the business tables.

`canonical_hash` is taken to be free of collisions: a request hash is the request that was hashed.
Random keys of rows that nothing refers to (events) are left out, and so are the sessions of the
former assistant (`LEGACY`), which no query of these services returns.
-/

set_option autoImplicit false
set_option relaxedAutoImplicit false

namespace FilmOS.Agent

open Transaction

/-! ### Kinds and states -/

inductive AgentType
  | orderIntake
  | scheduling
deriving DecidableEq, Repr

inductive SessionStatus
  | active
  | archived
  | deleting
deriving DecidableEq, Repr

inductive RunStatus
  | queued
  | running
  | succeeded
  | failed
  | cancelled
deriving DecidableEq, Repr

/-- `OPEN_RUN_STATUSES`. -/
def RunStatus.IsOpen (status : RunStatus) : Prop := status = .queued ∨ status = .running

instance (status : RunStatus) : Decidable status.IsOpen := inferInstanceAs (Decidable (_ ∨ _))

inductive RunOutcome
  | answered
  | needsInput
  | outOfScope
  | queuedOnly
  | draftReady
  | noPending
  | noFeasible
  | limitReached
deriving DecidableEq, Repr

inductive TriggerKind
  | message
  | nextItem
  | resumeItem
  | retry
  | replacePlan
deriving DecidableEq, Repr

inductive ItemStatus
  | pending
  | active
  | deferred
  | created
  | closed
deriving DecidableEq, Repr

inductive RecognitionStatus
  | notStarted
  | succeeded
  | failed
deriving DecidableEq, Repr

inductive AttachmentStatus
  | staged
  | bound
deriving DecidableEq, Repr

inductive MessageOrigin
  | user
  | agent
  | business
deriving DecidableEq, Repr

inductive ToolStatus
  | started
  | succeeded
  | failed
  | abandoned
deriving DecidableEq, Repr

/-- `EVENT_KINDS`. -/
inductive EventKind
  | sessionCreated
  | sessionArchived
  | sessionRestored
  | sessionDeleting
  | sessionStateChanged
  | messageAccepted
  | messageCompleted
  | commandAccepted
  | runQueued
  | runStarted
  | runProgress
  | runSucceeded
  | runFailed
  | runCancelled
  | admittanceDecided
  | workItemQueued
  | workItemActivated
  | workItemDeferred
  | workItemClosed
  | workItemCreated
  | recognitionCompleted
  | recognitionFailed
  | draftUpdated
  | planGenerated
  | planUpdated
  | planSuperseded
  | planClosed
  | planApplied
  | toolStarted
  | toolSucceeded
  | toolFailed
  | toolAbandoned
  | assistantDelta
deriving DecidableEq, Repr

/-- `COMMAND_KINDS`. -/
inductive CommandKind
  | recognizeItem
  | archiveScreenshot
  | restoreScreenshot
  | deleteScreenshot
  | createSession
  | nextItem
  | selectItem
  | deferItem
  | closeItem
  | confirmOrder
  | applyPlan
  | replacePlan
  | closePlan
  | retryRun
  | archiveSession
  | restoreSession
  | deleteSession
deriving DecidableEq, Repr

/-! ### Events -/

/-- A value in the payload of an event. -/
inductive PayloadValue
  | text (value : String)
  | texts (values : List String)
  | number (value : ℤ)
  | flag (value : Bool)
deriving DecidableEq

abbrev Payload := List (String × PayloadValue)

/-- Who caused an event. -/
inductive Actor
  | user (id : Id)
  | agent
  | system
deriving DecidableEq

/-- The rows of the session that an event refers to. -/
structure References where
  runId : Option Id := none
  messageId : Option Id := none
  commandId : Option Id := none
  workItemId : Option Id := none
  toolCallId : Option Id := none
deriving DecidableEq

structure SessionEvent where
  seq : ℕ
  kind : EventKind
  payload : Payload
  actor : Actor
  refs : References
deriving DecidableEq

/-! ### Sessions -/

/-- The state column of a session: the keys that the services write. -/
structure SessionState where
  intakeWorkbench : Option Bool
  schedulingOrderIds : Option (List Id)
deriving DecidableEq

structure ChatSession where
  id : Id
  userId : Id
  agentType : AgentType
  status : SessionStatus
  title : String
  stateRevision : ℕ
  state : SessionState
  activeWorkItemId : Option Id
  activePlanId : Option Id
  lastEventSeq : ℕ
  createdAt : Time
  updatedAt : Time
  archivedAt : Option Time
  deletionRequestedAt : Option Time
deriving DecidableEq

/-! ### Runs -/

/-- An authorised replacement of a plan. -/
structure RetryIntent where
  planId : Id
  expectedRevision : ℕ
deriving DecidableEq

/-- The configuration snapshot of a run: the keys that the services read. -/
structure RunConfig where
  queuedOnly : Bool
  intakeWorkbench : Bool
  schedulingWorkbench : Bool
  selectedOrderIds : Option (List Id)
  acceptedStateRevision : Option ℕ
  retryIntent : Option RetryIntent
  sourceDeleted : Bool
  runTimeoutSeconds : ℤ
  queueTimeoutSeconds : ℤ
deriving DecidableEq

structure AgentRun where
  id : Id
  triggerKind : TriggerKind
  triggerMessageId : Option Id
  triggerCommandId : Option Id
  workItemId : Option Id
  retryOfRunId : Option Id
  status : RunStatus
  outcome : Option RunOutcome
  inputEventSeq : ℕ
  graphKey : String
  graphVersion : String
  config : RunConfig
  outputMessageId : Option Id
  generatedPlanId : Option Id
  errorCode : Option String
  errorMessage : Option String
  workerId : Option String
  leaseToken : Option Id
  leaseExpiresAt : Option Time
  heartbeatAt : Option Time
  deadlineAt : Option Time
  modelCallCount : ℕ
  toolCallCount : ℕ
  queuedAt : Time
  startedAt : Option Time
  finishedAt : Option Time
deriving DecidableEq

/-! ### Work items and screenshots -/

/-- Where the value of a draft field comes from. -/
inductive ProvenanceSource
  | user
  | extraction
deriving DecidableEq, Repr

structure Provenance where
  source : ProvenanceSource
  sourceMessageId : Id
  sourceAttachmentId : Id
  sourceRunId : Option Id
deriving DecidableEq

structure OrderIntakeItem where
  id : Id
  sourceMessageId : Id
  sourceAttachmentId : Id
  sourceOrderIndex : ℕ
  queuePosition : ℤ
  status : ItemStatus
  revision : ℕ
  recognitionStatus : RecognitionStatus
  draft : OrderDraft
  issues : List Issue
  provenance : Dict Provenance
  orderId : Option Id
  lastErrorCode : Option String
  createdAt : Time
deriving DecidableEq

/-- What the inspection of an uploaded image finds. -/
structure ImageFile where
  sha256 : String
  mimeType : String
  byteSize : ℕ
  widthPx : ℕ
  heightPx : ℕ
deriving DecidableEq

structure ChatAttachment where
  id : Id
  clientUploadId : String
  messageId : Option Id
  position : Option ℕ
  status : AttachmentStatus
  file : ImageFile
  storageKey : String
  intakeArchivedAt : Option Time
  intakeRevision : ℕ
  available : Bool
  expiresAt : Option Time
  createdAt : Time
deriving DecidableEq

/-! ### Requests and their results -/

/-- What the hash of an accepted message covers. -/
structure MessageRequest where
  content : String
  attachmentIds : List Id
  expectedStateRevision : ℕ
  targetWorkItemId : Option Id
  recognizeOnly : Bool
  selectedOrderIds : Option (List Id)
deriving DecidableEq

/-- The payload of a command on a work item or a plan, defaults left out. -/
structure ActionPayload where
  expectedRevision : ℕ
  advance : Bool
  confirmed : Bool
  expectedStateRevision : Option ℕ
deriving DecidableEq

/-- What the hash of a command covers: the operation with its payload. -/
inductive CommandRequest
  | createSession (agentType : AgentType) (title : Option String)
  | retryRun (runId : Id) (expectedStateRevision : ℕ)
  | changeStatus (kind : CommandKind) (sessionId : Id)
  | itemCommand (kind : CommandKind) (itemId : Id) (payload : ActionPayload)
  | nextItem (sessionId : Id) (expectedStateRevision : ℕ) (expectedNextItemId : Id)
  | archiveScreenshot (kind : CommandKind) (attachmentId : Id) (archived : Bool)
      (expectedRevision : ℕ)
  | deleteScreenshot (attachmentId : Id) (expectedRevision : ℕ)
  | planCommand (kind : CommandKind) (planId : Id) (payload : ActionPayload)
  | recognizeAfter (runId itemId : Id)
deriving DecidableEq

/-- `session_dto`. -/
structure SessionDto where
  id : Id
  agentType : AgentType
  status : SessionStatus
  title : String
  stateRevision : ℕ
  state : SessionState
  activeWorkItemId : Option Id
  activePlanId : Option Id
  lastEventSeq : ℕ
  createdAt : Time
  updatedAt : Time
deriving DecidableEq

/-- `run_dto`. -/
structure RunDto where
  id : Id
  status : RunStatus
  outcome : Option RunOutcome
  triggerKind : TriggerKind
  triggerMessageId : Option Id
  workItemId : Option Id
  retryOfRunId : Option Id
  outputMessageId : Option Id
  errorCode : Option String
  errorMessage : Option String
  queuedAt : Time
  startedAt : Option Time
  finishedAt : Option Time
deriving DecidableEq

/-- The order in the result of a confirmation. -/
structure OrderRef where
  id : Id
  orderNo : String
deriving DecidableEq

/-- The stored result of a command. -/
inductive CommandResult
  | sessionCreated (session : SessionDto) (eventCursor : ℕ)
  | runRetried (commandId : Id) (run : RunDto) (stateRevision eventCursor : ℕ)
  | statusChanged (commandId : Id) (status : SessionStatus) (stateRevision eventCursor : ℕ)
  | itemChanged (commandId : Id) (kind : CommandKind) (itemId : Id) (runId : Option Id)
      (returnedExisting : Bool) (order : Option OrderRef)
      (stateRevision itemRevision eventCursor : ℕ)
  | nextItem (commandId : Id) (runId : Option Id) (itemId : Id) (stateRevision eventCursor : ℕ)
  | screenshotArchived (attachmentId : Id) (archived : Bool) (revision : ℕ)
  | screenshotDeleted (attachmentId : Id)
  | planChanged (commandId : Id) (kind : CommandKind) (planId : Id) (runId : Option Id)
      (returnedExisting : Bool) (applied : Option AppliedResult)
      (stateRevision planRevision eventCursor : ℕ)
  | recognitionQueued (runId itemId : Id)
deriving DecidableEq

/-- A command that was carried out, under the idempotency key of its user. -/
structure AgentCommand where
  id : Id
  userId : Id
  sessionId : Id
  idempotencyKey : String
  kind : CommandKind
  requestHash : CommandRequest
  targetId : Option Id
  expectedRevision : Option ℕ
  resultRunId : Option Id
  httpStatus : ℕ
  result : CommandResult
deriving DecidableEq

/-! ### Messages and tool calls -/

/-- The action that a confirmation offers. -/
structure NextItemAction where
  sessionId : Id
  expectedStateRevision : ℕ
  expectedNextItemId : Id
deriving DecidableEq

structure ChatMessage where
  id : Id
  clientMessageId : Option String
  requestHash : Option MessageRequest
  origin : MessageOrigin
  content : String
  actions : List NextItemAction
  runId : Option Id
  commandId : Option Id
  workItemId : Option Id
  eventSeq : ℕ
deriving DecidableEq

/-- What a tool returns, and the snapshots that it may return. -/
inductive ToolResult
  | facts
  | item (item : OrderIntakeItem) (recognizedOrders : Option ℕ)
  | plan (plan : SchedulePlan) (outcome : Option RunOutcome) (replacementRequired : Bool)
  | noPending
deriving DecidableEq

structure AgentToolCall where
  id : Id
  runId : Id
  callKey : String
  toolName : String
  argsHash : String
  status : ToolStatus
  result : Option ToolResult
  errorCode : Option String
deriving DecidableEq

/-! ### Clean-up jobs -/

inductive GcStatus
  | pending
  | succeeded
  | failed
deriving DecidableEq, Repr

structure AgentFileGcJob where
  id : Id
  sessionId : Option Id
  attachmentId : Option Id
  storageKey : String
  status : GcStatus
  attempts : ℕ
  nextAttemptAt : Time
  lastErrorCode : Option String
deriving DecidableEq

/-! ### Tables -/

instance : Keyed Id OrderIntakeItem := ⟨OrderIntakeItem.id⟩
instance : Keyed Id ChatAttachment := ⟨ChatAttachment.id⟩
instance : Keyed Id AgentRun := ⟨AgentRun.id⟩
instance : Keyed Id AgentToolCall := ⟨AgentToolCall.id⟩
instance : Keyed Id AgentFileGcJob := ⟨AgentFileGcJob.id⟩
instance : Keyed (Id × String) AgentCommand :=
  ⟨fun command ↦ (command.userId, command.idempotencyKey)⟩

@[simp] theorem key_item (item : OrderIntakeItem) : Keyed.key item = item.id := rfl
@[simp] theorem key_attachment (attachment : ChatAttachment) :
    Keyed.key attachment = attachment.id := rfl
@[simp] theorem key_run (run : AgentRun) : Keyed.key run = run.id := rfl
@[simp] theorem key_toolCall (call : AgentToolCall) : Keyed.key call = call.id := rfl
@[simp] theorem key_command (command : AgentCommand) :
    Keyed.key command = (command.userId, command.idempotencyKey) := rfl

/-- A session with its rows. -/
structure Workspace where
  session : ChatSession
  items : Table OrderIntakeItem
  attachments : Table ChatAttachment
  runs : Table AgentRun
  messages : List ChatMessage
  events : List SessionEvent
  toolCalls : Table AgentToolCall

instance : Keyed Id Workspace := ⟨fun workspace ↦ workspace.session.id⟩

@[simp] theorem key_workspace (workspace : Workspace) :
    Keyed.key workspace = workspace.session.id := rfl

/-- The agent tables and the business tables. -/
structure AgentDb where
  workspaces : Table Workspace
  commands : Table AgentCommand
  gcJobs : Table AgentFileGcJob
  board : Board

end FilmOS.Agent
