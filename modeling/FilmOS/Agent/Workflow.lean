import FilmOS.Agent.State

/-!
# The recognition queue

What happens to the work items of a session when its run has ended: the failure of a recognition is
recorded on the item, the next screenshot that was not recognised yet gets a run of its own, and
when there is none the next recognised draft is selected for review.

The run of the next screenshot is entered as a command of the session's user, under a key made from
the identifier of the run that ended.
-/

set_option autoImplicit false
set_option relaxedAutoImplicit false

namespace FilmOS.Agent

open Transaction

/-- Selects the first recognised item that waits, if any. -/
def Workspace.selectReady (call : Call) (w : Workspace) : Workspace :=
  match w.firstItem (fun item ↦ item.status = .pending ∧ item.recognitionStatus = .succeeded) with
  | none => w
  | some item =>
    ((w.activate item.id).reviseItem item.id).append call .workItemActivated
      [("revision", .number (item.revision + 1))] { workItemId := some item.id }

/-- `advance_review`: a selected item whose recognition failed goes back to the queue first. -/
def advanceReview (call : Call) (w : Workspace) : Except Failure Workspace :=
  match w.session.activeWorkItemId with
  | none => .ok (w.selectReady call)
  | some id =>
    match w.items.find? id with
    | none => .error .attributeError
    | some current =>
      if current.recognitionStatus ≠ .failed then .ok w
      else .ok (((w.release id .pending).reviseItem id).selectReady call)

/-- The recognition of an item was already recorded as failed by the run. -/
def Workspace.failureRecorded (w : Workspace) (runId itemId : Id) : Bool :=
  w.events.any (fun event ↦
    event.kind = .recognitionFailed ∧ event.refs.runId = some runId ∧
      event.refs.workItemId = some itemId)

/-- The failure of a run on its item, unless the recognition succeeded or the run recorded a failure
itself. -/
def recordFailure (call : Call) (run : AgentRun) (w : Workspace) : Except Failure Workspace :=
  match if run.status = .failed then run.workItemId else none with
  | none => .ok w
  | some itemId =>
    match w.items.find? itemId with
    | none => .error .attributeError
    | some item =>
      if item.recognitionStatus = .succeeded ∨ w.failureRecorded run.id itemId then .ok w
      else
        .ok ((w.setItem itemId (fun item ↦
          { item with
            recognitionStatus := .failed
            lastErrorCode := run.errorCode
            revision := item.revision + 1 })).append call .recognitionFailed
          [("error_code", .text (run.errorCode.getD ""))]
          { runId := some run.id, workItemId := some itemId })

/-- The next screenshot to recognise: the first order of a screenshot that is not archived, which
was neither closed, created nor put aside, and on which no recognition was made. -/
def Workspace.nextScreenshot (w : Workspace) : Option OrderIntakeItem :=
  firstBy OrderIntakeItem.queuePosition (w.items.rows.filter (fun item ↦
    w.unarchived item && decide ((item.status = .pending ∨ item.status = .active) ∧
      item.sourceOrderIndex = 1 ∧ item.recognitionStatus = .notStarted)))

/-- The idempotency key of the command that follows a run. -/
def recognizeAfterKey (runId : Id) : String := "recognize-after:" ++ runId

/-- The run and the command for the next screenshot, after a run ended. -/
def queueRecognition (call : Call) (runId : Id) (pending : OrderIntakeItem) (w : Workspace) :
    Txn Failure AgentDb Workspace := do
  let commandId ← generateId call
  let followingId ← generateId call
  let following := newRun call w followingId
    { kind := .resumeItem, eventSeq := w.session.lastEventSeq, messageId := pending.sourceMessageId,
      commandId := some commandId, workItemId := some pending.id }
  let w ← checked (w.addRun following)
  addCommand
    { id := commandId, userId := w.session.userId, sessionId := w.session.id
      idempotencyKey := recognizeAfterKey runId, kind := .recognizeItem
      requestHash := .recognizeAfter runId pending.id, targetId := some pending.id
      expectedRevision := none, resultRunId := some followingId, httpStatus := 202
      result := .recognitionQueued followingId pending.id }
  return w.append call .runQueued [] { runId := some followingId, workItemId := some pending.id }

/-- `continue_recognition`, after the run has ended. -/
def continueRecognition (call : Call) (run : AgentRun) (w : Workspace) :
    Txn Failure AgentDb Workspace := do
  if run.config.intakeWorkbench = false ∨ w.session.status ≠ .active then
    return w
  else
    let w ← checked (recordFailure call run w)
    match w.nextScreenshot with
    | some pending => queueRecognition call run.id pending w
    | none => checked (advanceReview call w)

end FilmOS.Agent
