import FilmOS.Agent.State

/-!
# Screenshots

Upload, archive, restore and deletion of the screenshots of a session, and the clean-up of uploads
that were never sent. Archiving puts the active item aside when it belongs to the screenshot.
Restoring one screenshot of an archived session restores the session and archives all its other
screenshots in its place. A deletion removes the work items of the screenshot; runs, messages and
events that referred to them stay.
-/

set_option autoImplicit false
set_option relaxedAutoImplicit false

namespace FilmOS.Agent

open Transaction

/-- The workspace that holds a screenshot. -/
def workspaceOfAttachment (db : AgentDb) (attachmentId : Id) : Option Workspace :=
  db.workspaces.rows.find? (fun w ↦ attachmentId ∈ w.attachments.keys)

/-- The extension of the file for an image. -/
def fileExtension (mimeType : String) : String := if mimeType = "image/png" then ".png" else ".jpg"

/-- `upload`. `inspected` is the outcome of `inspect_image` on the content with the given digest. -/
def upload (call : Call) (sessionId userId : Id) (clientUploadId sha256 : String)
    (inspected : Except Failure ImageFile) : Txn Failure AgentDb ChatAttachment := do
  let w ← requireSession sessionId userId true
  require (w.session.agentType = .orderIntake)
    (.refused "IMAGE_NOT_ALLOWED" "排单助手不接受图片" 422)
  match w.attachments.rows.find? (·.clientUploadId = clientUploadId) with
  | some old =>
    require (old.file.sha256 = sha256) (conflict "IDEMPOTENCY_MISMATCH" "该上传标识已用于不同图片")
    return old
  | none =>
    requireIdle w
    let file ← checked inspected
    let id ← generateId call
    let attachment : ChatAttachment :=
      { id, clientUploadId, messageId := none, position := none, status := .staged
        file := { file with sha256 }, storageKey := id ++ fileExtension file.mimeType
        intakeArchivedAt := none, intakeRevision := 0, available := true
        expiresAt := some (call.now + seconds (24 * 60 * 60)), createdAt := call.now }
    save (← checked (w.addAttachment attachment))
    return attachment

/-! ### Archiving -/

/-- Every other screenshot of an archived session is archived in the place of the session. -/
def archiveSiblings (call : Call) (attachmentId : Id) (w : Workspace) : Workspace :=
  { w with
    attachments := w.attachments.mapRows
      (fun sibling ↦
        if sibling.status = .bound ∧ sibling.id ≠ attachmentId ∧
            sibling.intakeArchivedAt = none then { sibling with
            intakeArchivedAt := some (w.session.archivedAt.getD call.now)
            intakeRevision := sibling.intakeRevision + 1 }
        else sibling)
      (fun sibling ↦ by split_ifs <;> rfl) }

/-- An archived session is restored for one of its screenshots. -/
def restoreForScreenshot (call : Call) (userId commandId attachmentId : Id) (w : Workspace) :
    Workspace :=
  let w := archiveSiblings call attachmentId w
  let w := { w with session := { w.session with status := .active, archivedAt := none } }
  w.appendBy (.user userId) call .sessionRestored [("source_attachment_id", .text attachmentId)]
    { commandId := some commandId }

/-- The active item is put aside when its screenshot is archived. -/
def deferArchived (call : Call) (commandId : Id) (w : Workspace) : Except Failure Workspace :=
  match w.session.activeWorkItemId with
  | none => .ok w
  | some itemId =>
    match w.items.find? itemId with
    | none => .ok w
    | some current =>
      match w.attachments.find? current.sourceAttachmentId with
      | none => .error .attributeError
      | some source =>
        if source.intakeArchivedAt = none then .ok w
        else
          .ok (((w.release current.id .deferred).reviseItem current.id).append call
            .workItemDeferred [] { workItemId := some current.id, commandId := some commandId })

/-- `archive_screenshot`: archives a screenshot, or restores it. -/
def archiveScreenshot (call : Call) (attachmentId userId : Id) (key : String) (archived : Bool)
    (expectedRevision : ℕ) : Txn Failure AgentDb CommandResult :=
  let kind : CommandKind := if archived then .archiveScreenshot else .restoreScreenshot
  let action := if archived then "ARCHIVE_SCREENSHOT" else "RESTORE_SCREENSHOT"
  let request : CommandRequest := .archiveScreenshot kind attachmentId archived expectedRevision
  replaying userId key request do
    let db ← get
    let found ← orRaise (workspaceOfAttachment db attachmentId)
      (.refused "RESOURCE_NOT_FOUND" "截图不存在" 404)
    let w ← requireSession found.session.id userId false
    let attachment ← orRaise (w.attachments.find? attachmentId) .noResultFound
    require (w.session.agentType = .orderIntake ∧ attachment.status = .bound)
      (.refused "RESOURCE_NOT_FOUND" "订单截图不存在" 404)
    requireIdle w
    require (attachment.intakeRevision = expectedRevision)
      (conflict "SCREENSHOT_REVISION_CONFLICT" "截图已更新，请刷新后重试")
    let commandId ← generateId call
    let w :=
      if archived = false ∧ w.session.status = .archived then
        restoreForScreenshot call userId commandId attachmentId w
      else w
    let w := w.setAttachment attachmentId (fun row ↦
      { row with
        intakeArchivedAt := if archived then some call.now else none
        intakeRevision := row.intakeRevision + 1 })
    let w ← checked (deferArchived call commandId w)
    let w := w.revise
    let w := w.appendBy (.user userId) call .sessionStateChanged
      [("state_revision", .number w.session.stateRevision), ("action", .text action),
        ("source_attachment_id", .text attachmentId)] { commandId := some commandId }
    save w
    let result : CommandResult :=
      .screenshotArchived attachmentId archived (expectedRevision + 1)
    addCommand
      { id := commandId, userId, sessionId := w.session.id, idempotencyKey := key, kind
        requestHash := request, targetId := some attachmentId
        expectedRevision := some expectedRevision, resultRunId := none, httpStatus := 200, result }
    return result

/-! ### Deletion -/

/-- The items of a screenshot. -/
def itemsOf (w : Workspace) (attachmentId : Id) : List Id :=
  (w.items.rows.filter (·.sourceAttachmentId = attachmentId)).map OrderIntakeItem.id

/-- A reference to one of the removed items, set to null. -/
def withoutItems (removed : List Id) (workItemId : Option Id) : Option Id :=
  workItemId.filter (· ∉ removed)

/-- The screenshot and its items removed, with all references to the items set to null. -/
def removeScreenshot (attachmentId : Id) (w : Workspace) : Workspace :=
  let removed := itemsOf w attachmentId
  { w with
    session :=
      { w.session with activeWorkItemId := withoutItems removed w.session.activeWorkItemId }
    runs := w.runs.mapRows
      (fun run ↦
        { run with
          config :=
            if run.workItemId.any (· ∈ removed) then { run.config with sourceDeleted := true }
            else run.config
          workItemId := withoutItems removed run.workItemId })
      (fun _ ↦ rfl)
    messages := w.messages.map (fun message ↦
      { message with workItemId := withoutItems removed message.workItemId })
    events := w.events.map (fun event ↦
      { event with
        refs := { event.refs with workItemId := withoutItems removed event.refs.workItemId } })
    items := w.items.filter (fun item ↦ item.id ∉ removed)
    attachments := w.attachments.erase attachmentId }

/-- `delete_screenshot`. -/
def deleteScreenshot (call : Call) (attachmentId userId : Id) (key : String)
    (expectedRevision : ℕ) : Txn Failure AgentDb CommandResult :=
  let request : CommandRequest := .deleteScreenshot attachmentId expectedRevision
  replaying userId key request do
    let db ← get
    let found ← orRaise (workspaceOfAttachment db attachmentId)
      (.refused "RESOURCE_NOT_FOUND" "截图不存在" 404)
    let w ← requireSession found.session.id userId false
    let attachment ← orRaise (w.attachments.find? attachmentId)
      (.refused "RESOURCE_NOT_FOUND" "订单截图不存在" 404)
    require (w.session.agentType = .orderIntake ∧ attachment.status = .bound)
      (.refused "RESOURCE_NOT_FOUND" "订单截图不存在" 404)
    requireIdle w
    require (attachment.intakeRevision = expectedRevision)
      (conflict "SCREENSHOT_REVISION_CONFLICT" "截图已更新，请刷新后重试")
    require (attachment.intakeArchivedAt ≠ none ∨ w.session.status = .archived)
      (conflict "SCREENSHOT_NOT_ARCHIVED" "请先归档截图，再删除")
    let w := removeScreenshot attachmentId w
    addGcJob call (some w.session.id) attachment
    let commandId ← generateId call
    let w := w.revise
    let w := w.appendBy (.user userId) call .sessionStateChanged
      [("state_revision", .number w.session.stateRevision), ("action", .text "DELETE_SCREENSHOT"),
        ("source_attachment_id", .text attachmentId)] { commandId := some commandId }
    save w
    let result : CommandResult := .screenshotDeleted attachmentId
    addCommand
      { id := commandId, userId, sessionId := w.session.id, idempotencyKey := key
        kind := .deleteScreenshot, requestHash := request, targetId := some attachmentId
        expectedRevision := some expectedRevision, resultRunId := none, httpStatus := 200, result }
    return result

/-! ### Clean-up -/

/-- The uploads of a session that expired unsent. -/
def expiredUploads (now : Time) (w : Workspace) : List ChatAttachment :=
  w.attachments.rows.filter (fun attachment ↦
    attachment.status = .staged ∧ attachment.expiresAt.any (· ≤ now))

/-- Removes the expired uploads of one session and counts them. -/
def sweepSession (call : Call) (sessionId : Id) : Txn Failure AgentDb ℕ := do
  let db ← get
  match db.workspaces.find? sessionId with
  | none => return 0
  | some w =>
    let expired := expiredUploads call.now w
    addGcJobs call sessionId expired
    save { w with
      attachments := w.attachments.filter (fun attachment ↦ attachment ∉ expired) }
    return expired.length

/-- The sessions of a list one after another. -/
def sweepSessions (call : Call) : List Id → Txn Failure AgentDb ℕ
  | [] => return 0
  | sessionId :: rest => do
    let count ← sweepSession call sessionId
    let counts ← sweepSessions call rest
    return count + counts

/-- `sweep_staged`, on the candidate sessions that nobody else holds. -/
def sweepStaged (call : Call) (candidates skipped : List Id) : Txn Failure AgentDb ℕ := do
  let db ← get
  sweepSessions call
    ((orderBy id ((db.workspaces.rows.filter (fun w ↦
      w.session.status ≠ .deleting ∧ w.session.id ∈ candidates ∧ w.session.id ∉ skipped)).map
        (·.session.id))).take 100)

end FilmOS.Agent
