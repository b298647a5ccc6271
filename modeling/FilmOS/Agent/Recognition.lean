import FilmOS.Agent.State

/-!
# Drafts of a session and what recognition writes into them

`patchDraft` changes the draft of a work item under its revision; a user changes the active item
only, recognition also one that waits. `saveScreenshotExtraction` saves all orders that were found
on one screenshot, the first into its item and every further one into an item of its own, or
nothing.

What the matching and normalising services make of one recognised order is an argument, a
`RecognizedOrder`: a proposed draft and the issues found on the way.
-/

set_option autoImplicit false
set_option relaxedAutoImplicit false

namespace FilmOS.Agent

open Transaction

/-- `require_item_revision`. -/
def requireItemRevision (item : OrderIntakeItem) (expected : ℕ) : Except Failure Unit :=
  ensure (item.revision = expected)
    (conflict "DRAFT_REVISION_CONFLICT" "草稿已更新，请读取最新内容后重试")

/-- The field name after the prefix of specification entries. -/
def specKey (field : String) : String :=
  if "spec_params.".toList.isPrefixOf field.toList then
    String.ofList (field.toList.drop "spec_params.".length)
  else field

/-- An inference that a patch leaves as it was. -/
def retained (prior draft : DraftFields) (issue : Issue) : Bool :=
  (issue.code = "UNIT_INFERRED" ∧
      prior.specParams.get? (specKey issue.field) = draft.specParams.get? (specKey issue.field)) ∨
    (issue.code = "ENTITY_INFERRED" ∧ prior.SameIn issue.field draft)

/-- The item after a patch was merged into its draft. -/
def patchedItem (board : Board) (draft : OrderDraft) (patch : DraftPatch)
    (source : ProvenanceSource) (runId : Option Id) (item : OrderIntakeItem) : OrderIntakeItem :=
  { item with
    draft
    issues := validateDraft board draft ++
      item.issues.filter (retained item.draft.fields draft.fields)
    provenance := item.provenance.update (patch.paths.map (fun path ↦
      (path, ⟨source, item.sourceMessageId, item.sourceAttachmentId, runId⟩)))
    revision := item.revision + 1 }

/-- Who changes a draft: its run, or the user of the session. -/
def draftActor (w : Workspace) (runId : Option Id) : Actor :=
  if runId.isSome then .agent else .user w.session.userId

/-- `patch_draft`. -/
def patchDraft (call : Call) (board : Board) (item : OrderIntakeItem) (expected : ℕ)
    (patch : DraftPatch) (source : ProvenanceSource) (runId : Option Id) (w : Workspace) :
    Except Failure Workspace := do
  requireItemRevision item expected
  ensure
    ((source = .extraction ∧ (item.status = .pending ∨ item.status = .active)) ∨
      (item.status = .active ∧ w.session.activeWorkItemId = some item.id))
    (conflict "WORK_ITEM_CLOSED" "只有当前核对中的订单可以修改")
  let draft ← mergePatch item.draft patch
  return (w.setItem item.id (patchedItem board draft patch source runId)).appendBy
    (draftActor w runId) call .draftUpdated [("revision", .number (item.revision + 1))]
    { workItemId := some item.id, runId }

/-! ### Recognition -/

/-- What is made of one order that was recognised on a screenshot. -/
structure RecognizedOrder where
  proposed : DraftFields
  inferenceIssues : List Issue
  matchIssues : List Issue
  warnings : List String

/-- The issues for the warnings of a recognised order. -/
def RecognizedOrder.warningIssues (order : RecognizedOrder) : List Issue :=
  order.warnings.map (fun warning ↦ ⟨"source", "RECOGNITION_WARNING", warning, .warning⟩)

/-- A path of the draft was written by the user. -/
def OrderIntakeItem.userWrote (item : OrderIntakeItem) (path : String) : Bool :=
  (item.provenance.get? path).any (·.source = .user)

/-- The patch that a recognised order makes: every field that the user did not write. A formula that
the user chose in part is left alone altogether. -/
def extractionPatch (item : OrderIntakeItem) (proposed : DraftFields) : DraftPatch :=
  let unlessWritten {α : Type} (path : String) (value : α) : Option α :=
    if item.userWrote path then none else some value
  let formula := item.userWrote "formula_id" || item.userWrote "formula_mode"
  { customerId := unlessWritten "customer_id" proposed.customerId
    productId := unlessWritten "product_id" proposed.productId
    specParams := some (Dict.ofList ((proposed.specParams.rows.filter (fun entry ↦
      !item.userWrote ("spec_params." ++ entry.1))).map (fun entry ↦ (entry.1, some entry.2))))
    quantity := unlessWritten "quantity" proposed.quantity
    unit := unlessWritten "unit" proposed.unit
    formulaMode := if formula then none else some proposed.formulaMode
    formulaId := if formula then none else some proposed.formulaId
    extraNotes := unlessWritten "extra_notes" proposed.extraNotes
    others := [] }

/-- The item with the issues that were found when its order was recognised. -/
def withRecognitionIssues (order : RecognizedOrder) (item : OrderIntakeItem) : OrderIntakeItem :=
  { item with
    issues := item.issues ++
      (order.inferenceIssues ++ order.matchIssues).filter (fun issue ↦
        !item.userWrote issue.field) ++ order.warningIssues }

/-- `save_extraction`. -/
def saveExtraction (call : Call) (board : Board) (item : OrderIntakeItem) (order : RecognizedOrder)
    (expected : ℕ) (runId : Id) (w : Workspace) : Except Failure Workspace := do
  requireItemRevision item expected
  let recognised (row : OrderIntakeItem) : OrderIntakeItem :=
    { row with recognitionStatus := .succeeded, lastErrorCode := none }
  let w ← patchDraft call board (recognised item) expected (extractionPatch item order.proposed)
    .extraction (some runId) (w.setItem item.id recognised)
  return (w.setItem item.id (withRecognitionIssues order)).append call .recognitionCompleted
    [("revision", .number (item.revision + 1))] { runId := some runId, workItemId := some item.id }

/-- The item for a further order of a screenshot. -/
def siblingItem (call : Call) (board : Board) (item : OrderIntakeItem) (index : ℕ) (id runId : Id)
    (draft : OrderDraft) (order : RecognizedOrder) : OrderIntakeItem where
  id
  sourceMessageId := item.sourceMessageId
  sourceAttachmentId := item.sourceAttachmentId
  sourceOrderIndex := index
  queuePosition := item.queuePosition
  status := .pending
  revision := 1
  recognitionStatus := .succeeded
  draft
  issues := validateDraft board draft ++ order.inferenceIssues ++ order.matchIssues ++
    order.warningIssues
  provenance := Dict.ofList
    (["schema_version", "customer_id", "product_id", "spec_params", "quantity", "unit",
      "formula_mode", "formula_id", "extra_notes"].map (fun field ↦
        (field, ⟨.extraction, item.sourceMessageId, item.sourceAttachmentId, some runId⟩)))
  orderId := none
  lastErrorCode := none
  createdAt := call.now

/-- The items for the further orders of a screenshot, numbered from `index`. -/
def addSiblings (call : Call) (item : OrderIntakeItem) (runId : Id) :
    List RecognizedOrder → ℕ → Workspace → Txn Failure AgentDb Workspace
  | [], _, w => return w
  | order :: rest, index, w => do
    let draft ← orRaise (OrderDraft.modelValidate order.proposed) (.valueError "OrderDraft")
    let siblingId ← generateId call
    let db ← get
    let w ← checked (w.addItem (siblingItem call db.board item index siblingId runId draft order))
    let w := w.append call .workItemQueued
      [("position", .number item.queuePosition), ("source_order_index", .number index)]
      { runId := some runId, workItemId := some siblingId }
    let w := w.append call .recognitionCompleted [("revision", .number 1)]
      { runId := some runId, workItemId := some siblingId }
    addSiblings call item runId rest (index + 1) w

/-- `save_screenshot_extraction`: one or more orders of one screenshot. -/
def saveScreenshotExtraction (call : Call) (item : OrderIntakeItem) (first : RecognizedOrder)
    (further : List RecognizedOrder) (expected : ℕ) (runId : Id) (w : Workspace) :
    Txn Failure AgentDb Workspace := do
  checked (requireItemRevision item expected)
  require (item.sourceOrderIndex = 1 ∧ item.recognitionStatus ≠ .succeeded)
    (conflict "ACTION_STALE" "此截图已识别，请使用已保存的订单草稿")
  require (∀ other ∈ w.items.rows,
      ¬ (other.sourceAttachmentId = item.sourceAttachmentId ∧ 1 < other.sourceOrderIndex))
    (conflict "ACTION_STALE" "此截图已有订单草稿")
  let db ← get
  let w ← checked (saveExtraction call db.board item first expected runId w)
  let w ← addSiblings call item runId further 2 w
  let w := w.revise
  return w.append call .sessionStateChanged
    [("state_revision", .number w.session.stateRevision)] { runId := some runId }

end FilmOS.Agent
