import FilmOS.Agent.Plans
import FilmOS.Agent.Recognition
import FilmOS.Agent.Worker

/-!
# What a run does under its lease

Between its claim and its end a run counts its model calls, reports progress and calls tools. A tool
call is entered as started in one transaction and carried out in another, in which its effect and
its receipt commit together; when that one fails, a third marks the call as failed. A call that was
already made under the same key is answered from its receipt.
-/

set_option autoImplicit false
set_option relaxedAutoImplicit false

namespace FilmOS.Agent

open Transaction

def maxModelCalls : ℕ := 10

def maxToolCalls : ℕ := 8

/-! ### Progress -/

/-- `count_model`. -/
def countModel (call : Call) (context : RunContext) (stage : String) :
    Txn Failure AgentDb Unit := do
  let (w, run) ← lockRun call context
  require (run.modelCallCount < maxModelCalls) (.runtimeError "model call limit")
  let w := w.setRun run.id (fun run ↦ { run with modelCallCount := run.modelCallCount + 1 })
  save (w.append call .runProgress [("stage", .text stage)] { runId := some run.id })

/-- An event that tells the progress of a run. -/
def reportProgress (call : Call) (context : RunContext) (payload : Payload) :
    Txn Failure AgentDb Unit := do
  let (w, run) ← lockRun call context
  save (w.append call .runProgress payload { runId := some run.id })

/-- The event for the decision on the admittance of an input. -/
def decideAdmittance (call : Call) (context : RunContext) (admission : Payload) :
    Txn Failure AgentDb Unit := do
  let (w, run) ← lockRun call context
  save (w.append call .admittanceDecided admission { runId := some run.id })

/-- `_recognition_failed`. -/
def recognitionFailed (call : Call) (context : RunContext) (code : String) :
    Txn Failure AgentDb Unit := do
  let (w, run) ← lockRun call context
  let item ← orRaise (context.workItemId.bind w.items.find?) .attributeError
  let w := w.setItem item.id (fun item ↦
    { item with
      recognitionStatus := .failed, lastErrorCode := some code, revision := item.revision + 1 })
  save (w.append call .recognitionFailed [("error_code", .text code)]
    { runId := some run.id, workItemId := some item.id })

/-! ### Tool calls -/

/-- A tool call as the executor asks for it, with the digest of its arguments. -/
structure ToolRequest where
  callKey : String
  toolName : String
  argsHash : String
  allowedTools : List String

/-- The registered operations: those that only read, and those that change a draft, save what was
recognised, or generate a plan. -/
inductive ToolOperation
  | read (result : ToolResult)
  | patchDraft (expected : ℕ) (patch : DraftPatch)
  | extractOrder (first : RecognizedOrder) (further : List RecognizedOrder) (expected : ℕ)
  | generate

/-- What the first transaction of a tool call finds: the receipt of an earlier one, or nothing, and
then the call is started. -/
inductive ToolStart
  | finished (result : Option ToolResult)
  | started (callId : Id)

/-- The first transaction of `perform_tool`. -/
def startTool (call : Call) (context : RunContext) (request : ToolRequest) :
    Txn Failure AgentDb ToolStart := do
  require (request.toolName ∈ request.allowedTools ∧ request.callKey ≠ "" ∧
      request.callKey.length ≤ 128)
    (conflict "TOOL_NOT_ALLOWED" "此助手不能使用该工具")
  let (w, run) ← lockRun call context
  match w.toolCalls.rows.find? (fun row ↦ row.runId = run.id ∧ row.callKey = request.callKey) with
  | some existing =>
    require (existing.argsHash = request.argsHash ∧ existing.toolName = request.toolName)
      (conflict "TOOL_CALL_CONFLICT" "工具调用标识冲突")
    require (existing.status = .succeeded)
      (conflict "TOOL_CALL_INCOMPLETE" "该工具调用已执行或未完成，请重试本轮")
    return .finished existing.result
  | none =>
    require (run.toolCallCount < maxToolCalls)
      (conflict "TOOL_LIMIT_REACHED" "本轮工具调用已达上限")
    let callId ← generateId call
    let w ← checked (w.addToolCall
      { id := callId, runId := run.id, callKey := request.callKey, toolName := request.toolName
        argsHash := request.argsHash, status := .started, result := none, errorCode := none })
    let w := w.setRun run.id (fun run ↦ { run with toolCallCount := run.toolCallCount + 1 })
    save (w.appendBy .agent call .toolStarted [("tool_name", .text request.toolName)]
      { runId := some run.id, toolCallId := some callId })
    return .started callId

/-- The item of a run, as an operation reads it. -/
def contextItem (context : RunContext) (w : Workspace) : Except Failure OrderIntakeItem :=
  match context.workItemId.bind w.items.find? with
  | none => .error .attributeError
  | some item => .ok item

/-- What an operation does, and what it returns. -/
def ToolOperation.perform (call : Call) (context : RunContext) (run : AgentRun) (w : Workspace) :
    ToolOperation → Txn Failure AgentDb (Workspace × ToolResult)
  | .read result => return (w, result)
  | .patchDraft expected patch => do
    let item ← checked (contextItem context w)
    let db ← get
    let w ← checked (Agent.patchDraft call db.board item expected patch .user
      (some context.runId) w)
    let item ← checked (contextItem context w)
    return (w, .item item none)
  | .extractOrder first further expected => do
    let item ← checked (contextItem context w)
    let w ← saveScreenshotExtraction call item first further expected context.runId w
    let item ← checked (contextItem context w)
    return (w, .item item (some (further.length + 1)))
  | .generate => Agent.generate call run w

/-- The second transaction of `perform_tool`: the operation with its receipt. -/
def runTool (call : Call) (later : Time) (context : RunContext) (callId : Id)
    (request : ToolRequest) (operation : ToolOperation) : Txn Failure AgentDb ToolResult := do
  let (w, run) ← lockRun call context
  let (w, result) ← operation.perform call context run w
  require (run.deadlineAt.any (later < ·) ∧ run.leaseExpiresAt.any (later < ·)) .leaseLost
  require (callId ∈ w.toolCalls.keys) .attributeError
  let w := w.setToolCall callId (fun row ↦
    { row with status := .succeeded, result := some result })
  save (w.appendBy .agent call .toolSucceeded [("tool_name", .text request.toolName)]
    { runId := some run.id, toolCallId := some callId })
  return result

/-- The third transaction of `perform_tool`, when the second one failed. -/
def failTool (call : Call) (context : RunContext) (callId : Id) (request : ToolRequest) :
    Txn Failure AgentDb Unit := do
  let (w, run) ← lockRun call context
  require (callId ∈ w.toolCalls.keys) .attributeError
  let w := w.setToolCall callId (fun row ↦
    { row with status := .failed, errorCode := some "TOOL_FAILED" })
  save (w.appendBy .agent call .toolFailed
    [("tool_name", .text request.toolName), ("error_code", .text "TOOL_FAILED")]
    { runId := some run.id, toolCallId := some callId })

end FilmOS.Agent
