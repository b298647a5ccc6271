import FilmOS.Agent.ModelIO
import FilmOS.Agent.SchedulingGraph

/-!
# The capabilities of the graphs

What the graphs ask, the capabilities do: transactions under the lease of the run, calls of the text
and vision models, and tool calls, each of which is entered, carried out, and marked as failed in
transactions of its own (`performTool`). An `Effect` is one such step; what it does in the database
is the operation of that name, and what a model answers is anything at all. `orderCapability` and
`schedulingCapability` carry out the queries of the two graphs, remembering what the capability
object keeps between them (`Memory`).

The texts that go to the models and the JSON texts of results are parameters (`Wording`), as are the
checks of the tool arguments (`OrderTools`) and of what a vision model answered (`ImageReader`).
-/

set_option autoImplicit false
set_option relaxedAutoImplicit false

namespace FilmOS.Agent

open Script

/-! ### Effects -/

/-- What the operation of a tool does in its transaction. -/
inductive ToolWork
  | readDraft
  | search (table query : String) (limit : ℕ)
  | patchDraft (expected : ℕ) (patch : DraftPatch)
  | extractOrder (first : RecognizedOrder) (further : List RecognizedOrder) (expected : ℕ)
  | generate
  | readBoard
  | readPlan

/-- What `recognize` reads before it asks the vision model. -/
structure ImageSource where
  path : String
  mimeType : String
  text : String
  catalog : String
  manualFields : Bool

/-- An error of a schema: the path to the field. -/
structure SchemaError where
  loc : List String
deriving DecidableEq

/-- What the second request to the vision model is told about the first answer. -/
inductive Correction
  | none
  | wellFormed
  | fields (errors : List SchemaError)

/-- The answer of the vision model: a JSON object, a `VisionError`, or another `HTTPException`. -/
inductive VisionAnswer
  | response (json : String)
  | error (code : String)
  | refused

/-- The reply of the model that decides on the admittance, with the admission that its content is
validated to. -/
structure AdmissionReply where
  finishReason : Option String
  callsTools : Bool
  admission : Option Admission

/-- The active plan, and whether it is out of date. -/
structure CurrentPlan where
  plan : Option SchedulePlan
  stale : Bool

/-- One step of a capability outside itself. -/
inductive Effect (F : Type)
  | load
  | countModel (stage : String)
  | modelSettings
  | usage
  | decide (admission : Admission)
  | report (payload : Payload)
  | recognitionFailed (code : String)
  | currentItem
  | currentPlan
  | source (item : OrderIntakeItem)
  | readFile (path : String)
  | askAdmission (loaded : Loaded F)
  | vision (source : ImageSource) (image : String) (modelId : String) (correction : Correction)
  | askMain (input : ModelInput)
  | explain (input : ModelInput)
  | stream (input : ModelInput)
  | startTool (request : ToolRequest)
  | runTool (callId : Id) (request : ToolRequest) (work : ToolWork)
  | failTool (callId : Id) (request : ToolRequest)

/-- What comes back. -/
abbrev Reply {F : Type} : Effect F → Type
  | .load => Loaded F
  | .currentItem => OrderIntakeItem
  | .currentPlan => CurrentPlan
  | .source _ => ImageSource
  | .readFile _ => String
  | .askAdmission _ => AdmissionReply
  | .vision _ _ _ _ => VisionAnswer
  | .askMain _ => ModelReply
  | .explain _ => String
  | .stream _ => String
  | .startTool _ => ToolStart
  | .runTool _ _ _ => ToolResult
  | _ => Unit

abbrev Work (F α : Type) := Script Failure (Reply (F := F)) α

abbrev Deed (F : Type) := Event Failure (Reply (F := F))

/-- Do it; what it raises is raised. -/
def perform {F : Type} (effect : Effect F) : Work F (Reply effect) := Script.query effect

/-- What a capability object keeps: whether its model was set up, and whether a plan may be
generated. -/
structure Memory where
  model : Bool := false
  generationAllowed : Option Bool := none

/-! ### Parameters -/

/-- The texts for the models and of the results, by what is current. -/
structure Wording (F C : Type) where
  message : GraphMessage → ModelMessage
  system : C → Memory → Loaded F → String
  composing : String
  facts : C → Loaded F → List GraphMessage → ModelMessage
  result : ToolResult → String
  refusal : String → String

/-- The arguments of the order tools as their schemas validate them, and the digest of arguments:
`AgentInput`, `SearchArgs` and `DraftPatch`. -/
structure OrderTools where
  noArgs : String → Bool
  searchArgs : String → Option (String × ℕ)
  draftPatch : String → Option (ℕ × DraftPatch)
  digest : ToolWork → String

/-- The orders read from a screenshot. -/
structure Recognized where
  first : RecognizedOrder
  further : List RecognizedOrder

/-- What a validated answer of the vision model is read as: by the schema of the request, and with
the fields of the choices cleared. -/
structure ImageReader where
  read : ImageSource → String → Except (List SchemaError) Recognized
  sanitize : ImageSource → String → List SchemaError → Except Failure Recognized

section Work

variable {F C : Type}

/-! ### Models and tools -/

/-- `_model`: the model is set up once. -/
def getClient (memory : Memory) : Work F Memory :=
  if memory.model then pure memory
  else do
    let _ ← perform .modelSettings
    return { memory with model := true }

/-- `AdmissionResponseError`. -/
def admissionResponseError : Failure :=
  .runtimeError "输入范围判断返回了无效结果，请重试；输入和草稿已保留"

/-- `parse_admission`. -/
def parseAdmission (reply : AdmissionReply) : Except Failure Admission :=
  if reply.finishReason ∈ [some "length", some "content_filter"] ∨ reply.callsTools then
    .error admissionResponseError
  else reply.admission.elim (.error admissionResponseError) .ok

/-- `admit_input`. -/
def admitInput (loaded : Loaded F) (memory : Memory) : Work F (Admission × Memory) := do
  let _ ← perform (.countModel "ADMITTANCE")
  let memory ← getClient memory
  let reply : AdmissionReply ← perform (.askAdmission loaded)
  let _ ← perform .usage
  let admission ← ofExcept (parseAdmission reply)
  return (admission, memory)

/-- The main model is asked with as many messages as fit. -/
def askMain (wording : Wording F C) (current : C) (messages : List GraphMessage) (loaded : Loaded F)
    (memory : Memory) : Work F ModelReply := do
  let input ← ofExcept
    (boundedMessages (wording.system current memory loaded) (messages.map wording.message))
  let reply : ModelReply ← perform (.askMain input)
  let _ ← perform .usage
  return reply

/-- `stream_response`, whose deltas are persisted on the way. -/
def composeText (wording : Wording F C) (current : C) (messages : List GraphMessage)
    (loaded : Loaded F) (memory : Memory) : Work F (String × Memory) := do
  let memory ← getClient memory
  let input ← ofExcept (boundedMessages wording.composing [wording.facts current loaded messages])
  let text : String ← perform (.stream input)
  return (text, memory)

/-- An operation failed: its call is marked as failed, unless the lease is lost. -/
def reportFailure (callId : Id) (request : ToolRequest) (failure : Failure) :
    Work F ToolResult := do
  match ← (perform (F := F) (.failTool callId request)).attempt with
  | .ok _ => .raise failure
  | .error .leaseLost => .raise failure
  | .error other => .raise other

/-- `perform_tool`. -/
def performTool (request : ToolRequest) (work : ToolWork) : Work F ToolResult := do
  let start : ToolStart ← perform (.startTool request)
  match start with
  | .finished result => ofExcept (result.elim (.error (.typeError "NoneType")) .ok)
  | .started callId =>
    match ← (perform (F := F) (.runTool callId request work)).attempt with
    | .ok result => return result
    | .error failure => reportFailure callId request failure

/-- The code that a tool reports for an exception: that of a detail that has one. Any other
exception that is not an `HTTPException` is raised on. -/
def toolErrorCode (plain : String) : Failure → Option String
  | .refused code _ _ => some code
  | .http _ _ => some plain
  | _ => none

/-- A tool call whose refusal is told to the model. -/
def answerTool (wording : Wording F C) (plain : String) (script : Work F ToolResult) :
    Work F String := do
  match ← script.attempt with
  | .ok result => return wording.result result
  | .error failure =>
    match toolErrorCode plain failure with
    | some code => return wording.refusal code
    | none => .raise failure

end Work

/-! ### The order capabilities -/

abbrev OrderWork (α : Type) := Work OrderFacts α

/-- The admission of an input: a command needs none. -/
def orderAdmission (loaded : Loaded OrderFacts) (memory : Memory) :
    OrderWork (Admission × Memory) :=
  if loaded.triggerKind = .nextItem ∨ loaded.triggerKind = .resumeItem then
    pure ({ decision := .allow, reasonCode := .inScope }, memory)
  else admitInput loaded memory

/-- `admit`. -/
def admitOrder (loaded : Loaded OrderFacts) (memory : Memory) : OrderWork (Admission × Memory) := do
  let decided ← orderAdmission loaded memory
  let _ ← perform (.decide decided.1)
  return decided

/-- The payload of `recognition_diagnostic`. -/
def diagnostic (code : String) (attempt : ℕ) (errors : Option (List SchemaError)) : Payload :=
  [("stage", .text "RECOGNITION_ERROR"), ("code", .text code),
      ("attempt", .number (attempt + 1))] ++
    (errors.map fun errors ↦
      ("errors", PayloadValue.texts (errors.map fun error ↦ ".".intercalate error.loc))).toList

/-- `_recognition_failed`, and the end of the recognition. -/
def giveUp (code message : String) : OrderWork (Recognized ⊕ Correction) := do
  let _ ← perform (.recognitionFailed code)
  .raise (.runtimeError message)

/-- The errors concern the choice of a customer or a product only. -/
def choicesOnly (errors : List SchemaError) : Bool :=
  errors.all fun error ↦ "customer_match" ∈ error.loc ∨ "product_match" ∈ error.loc

/-- One attempt at a screenshot: what was read, or what the next attempt is told. -/
def attemptImage (reader : ImageReader) (source : ImageSource) (image modelId : String)
    (attempt : ℕ) (correction : Correction) : OrderWork (Recognized ⊕ Correction) := do
  let _ ← perform (.countModel "EXTRACTING")
  let answer : VisionAnswer ← perform (.vision source image modelId correction)
  match answer with
  | .error code =>
    let _ ← perform (.report (diagnostic code attempt none))
    if code ∉ ["JSON_INVALID", "RESPONSE_INVALID", "OUTPUT_TRUNCATED"] ∨ 0 < attempt then
      giveUp code "extraction unavailable"
    else return .inr .wellFormed
  | .refused =>
    let _ ← perform (.report
      (diagnostic "SCHEMA_INVALID" attempt (some [⟨["invalid_json_response"]⟩])))
    if 0 < attempt then giveUp "EXTRACTION_INVALID" "extraction invalid"
    else return .inr (.fields [⟨["invalid_json_response"]⟩])
  | .response json =>
    match reader.read source json with
    | .ok recognized => return .inl recognized
    | .error errors =>
      let _ ← perform (.report (diagnostic "SCHEMA_INVALID" attempt (some errors)))
      if 0 < attempt then
        if choicesOnly errors then
          let recognized ← ofExcept (reader.sanitize source json errors)
          return .inl recognized
        else giveUp "EXTRACTION_INVALID" "extraction invalid"
      else return .inr (.fields errors)

/-- The two attempts at a screenshot. -/
def readImage (reader : ImageReader) (source : ImageSource) (image modelId : String) :
    OrderWork Recognized := do
  match ← attemptImage reader source image modelId 0 .none with
  | .inl recognized => return recognized
  | .inr correction =>
    match ← attemptImage reader source image modelId 1 correction with
    | .inl recognized => return recognized
    | .inr _ => .raise .attributeError

/-- A warning for every order. -/
def Recognized.warn (recognized : Recognized) (warning : String) : Recognized where
  first := { recognized.first with warnings := recognized.first.warnings ++ [warning] }
  further := recognized.further.map fun order ↦
    { order with warnings := order.warnings ++ [warning] }

/-- The digest of the arguments of `extract_order`. -/
def extraction (tools : OrderTools) (recognized : Recognized) (expected : ℕ) :
    ToolRequest × ToolWork :=
  let work := ToolWork.extractOrder recognized.first recognized.further expected
  (⟨"extract_order", "extract_order", tools.digest work, ["extract_order"]⟩, work)

/-- The snapshot in the result of a tool. -/
def ToolResult.itemFacts : ToolResult → Except Failure ItemFacts
  | .item row count => .ok ⟨row, count⟩
  | _ => .error (.typeError "recognition_status")

/-- What was read is saved, or given up for the draft that is there when that was changed since. -/
def saveRecognized (tools : OrderTools) (recognized : Recognized) (item : OrderIntakeItem)
    (workbench : Bool) : OrderWork ItemFacts := do
  let (request, work) := extraction tools recognized item.revision
  match ← (performTool (F := OrderFacts) request work).attempt with
  | .ok result => ofExcept result.itemFacts
  | .error failure =>
    if ¬ workbench ∧ toolErrorCode "" failure = some "DRAFT_REVISION_CONFLICT" then
      let current : OrderIntakeItem ← perform .currentItem
      return ⟨current, none⟩
    else .raise failure

/-- `recognize`. -/
def recognize (reader : ImageReader) (tools : OrderTools) (loaded : Loaded OrderFacts) :
    OrderWork ItemFacts := do
  let facts ← ofExcept (loaded.facts.item.elim (.error (.typeError "NoneType")) .ok)
  let source : ImageSource ← perform (.source facts.item)
  let image : String ← perform (.readFile source.path)
  let recognized ← readImage reader source image loaded.facts.visionModelId
  let _ ← perform .usage
  let _ ← perform (.report [("stage", .text "MATCHING")])
  let recognized := if source.manualFields then
    recognized.warn "部分基础资料候选较多，请手动选择对应客户或产品。" else recognized
  saveRecognized tools recognized facts.item loaded.workbench

/-- The item that the prompts of the conversation speak of. -/
def Loaded.discussed (loaded : Loaded OrderFacts) : Except Failure ItemFacts :=
  loaded.facts.item.elim (.error .attributeError) .ok

/-- `main`. -/
def mainOrder (wording : Wording OrderFacts OrderIntakeItem) (messages : List GraphMessage)
    (loaded : Loaded OrderFacts) (memory : Memory) : OrderWork (ModelReply × Memory) := do
  let _ ← perform (.countModel "DRAFTING")
  let memory ← getClient memory
  let current : OrderIntakeItem ← perform .currentItem
  let _ ← ofExcept loaded.discussed
  let reply ← askMain wording current messages loaded memory
  return (reply, memory)

/-- The names in `TOOL_SCHEMAS`. -/
def orderToolNames : List String :=
  ["read_current_draft", "search_customers", "search_products", "search_formulas",
    "patch_current_draft"]

/-- A search in a table. -/
def searchWork (tools : OrderTools) (table args : String) : Option ToolWork :=
  (tools.searchArgs args).map fun (query, limit) ↦ .search table query limit

/-- The work of an order tool, by its name and its validated arguments. -/
def orderWork (tools : OrderTools) : String → Option (String → Option ToolWork)
  | "read_current_draft" => some fun args ↦ if tools.noArgs args then some .readDraft else none
  | "search_customers" => some (searchWork tools "customers")
  | "search_products" => some (searchWork tools "products")
  | "search_formulas" => some (searchWork tools "formulas")
  | "patch_current_draft" => some fun args ↦
    (tools.draftPatch args).map fun (expected, patch) ↦ .patchDraft expected patch
  | _ => none

/-- The request for a tool call. A call without an identifier has no key to be found under. -/
def ToolCall.request (call : ToolCall) (digest : String) (allowed : List String) : ToolRequest :=
  ⟨call.id.getD "", call.name, digest, allowed⟩

/-- `tool`. -/
def toolOrder (wording : Wording OrderFacts OrderIntakeItem) (tools : OrderTools)
    (call : ToolCall) : OrderWork String :=
  match orderWork tools call.name with
  | none => pure (wording.refusal "TOOL_NOT_ALLOWED")
  | some validate =>
    match validate call.args with
    | none => pure (wording.refusal "INPUT_INVALID")
    | some work =>
      answerTool wording "INPUT_INVALID"
        (performTool (call.request (tools.digest work) orderToolNames) work)

/-- `compose`. -/
def composeOrder (wording : Wording OrderFacts OrderIntakeItem) (messages : List GraphMessage)
    (loaded : Loaded OrderFacts) (memory : Memory) : OrderWork (String × Memory) := do
  let _ ← perform (.countModel "EXPLAINING")
  let current : OrderIntakeItem ← perform .currentItem
  let _ ← ofExcept loaded.discussed
  composeText wording current messages loaded memory

/-- `OrderCapabilities`. -/
def orderCapability (wording : Wording OrderFacts OrderIntakeItem) (tools : OrderTools)
    (reader : ImageReader) (memory : Memory) :
    (q : Query OrderFacts) → OrderWork (Answer q × Memory)
  | .load => do
    let loaded : Loaded OrderFacts ← perform .load
    return (loaded, memory)
  | .admittance loaded => admitOrder loaded memory
  | .recognize loaded => do
    let item ← recognize reader tools loaded
    return (item, memory)
  | .main messages loaded => mainOrder wording messages loaded memory
  | .tool call => do
    let result ← toolOrder wording tools call
    return (result, memory)
  | .compose messages loaded => composeOrder wording messages loaded memory
  | _ => .raise .attributeError

/-! ### The scheduling capabilities -/

abbrev SchedulingWork (α : Type) := Work SchedulingFacts α

/-- `load`. -/
def loadScheduling (memory : Memory) : SchedulingWork (Loaded SchedulingFacts × Memory) := do
  let loaded : Loaded SchedulingFacts ← perform .load
  return (loaded, { memory with generationAllowed := some loaded.workbench })

/-- The input was admitted as asking for a plan. -/
def Admission.allowsGeneration (admission : Admission) : Bool :=
  admission.decision = .allow ∧ admission.requestedOperation = .generate

/-- The admission of an input: an authorised replacement of a plan asks for a plan. -/
def schedulingAdmission (loaded : Loaded SchedulingFacts) (memory : Memory) :
    SchedulingWork (Admission × Memory) :=
  if loaded.triggerKind = .replacePlan ∨ loaded.facts.retryIntent.isSome then
    pure ({ decision := .allow, reasonCode := .inScope, requestedOperation := .generate }, memory)
  else admitInput loaded memory

/-- `admit`. -/
def admitScheduling (loaded : Loaded SchedulingFacts) (memory : Memory) :
    SchedulingWork (Admission × Memory) := do
  let decided ← schedulingAdmission loaded memory
  let memory := { decided.2 with generationAllowed := some decided.1.allowsGeneration }
  let _ ← perform (.decide decided.1)
  return (decided.1, memory)

/-- The work of a scheduling tool, by its name. -/
def schedulingWork : String → Option ToolWork
  | "read_board" => some .readBoard
  | "read_draft" => some .readPlan
  | "generate_draft" => some .generate
  | _ => none

/-- `TOOL_NAMES`. -/
def schedulingToolNames : List String := ["read_board", "read_draft", "generate_draft"]

/-- Whether a tool may be called: a plan is generated only where that was authorised. -/
def generationGate (name : String) (memory : Memory) : Except Failure Bool :=
  if name = "generate_draft" then memory.generationAllowed.elim (.error .attributeError) .ok
  else .ok true

/-- A tool is carried out: the code of a refusal, or the result. -/
def attemptTool (request : ToolRequest) (work : ToolWork) :
    SchedulingWork (String ⊕ ToolResult) := do
  match ← (performTool (F := SchedulingFacts) request work).attempt with
  | .ok result => return .inr result
  | .error failure =>
    match toolErrorCode "TOOL_FAILED" failure with
    | some code => return .inl code
    | none => .raise failure

/-- The tools of a scheduling run, up to the answer. -/
def scheduleTool (call : ToolCall) (memory : Memory) : SchedulingWork (String ⊕ ToolResult) :=
  match schedulingWork call.name with
  | none => pure (.inl "TOOL_NOT_ALLOWED")
  | some work =>
    if call.args ≠ "{}" then pure (.inl "TOOL_NOT_ALLOWED")
    else do
      let allowed ← ofExcept (generationGate call.name memory)
      if allowed then attemptTool (call.request "{}" schedulingToolNames) work
      else return .inl "GENERATION_NOT_AUTHORIZED"

/-- `tool`. -/
def toolScheduling (wording : Wording SchedulingFacts CurrentPlan) (call : ToolCall)
    (memory : Memory) : SchedulingWork String := do
  match ← scheduleTool call memory with
  | .inl code => return wording.refusal code
  | .inr result => return wording.result result

/-- What the graph reads of the result of a generation. -/
def ToolResult.generated : ToolResult → Generated
  | .plan _ outcome replacementRequired =>
    ⟨none, some (outcome.getD .draftReady), replacementRequired⟩
  | .noPending => ⟨none, some .noPending, false⟩
  | _ => ⟨none, none, false⟩

/-- `generate`. -/
def generatePlanDraft (memory : Memory) : SchedulingWork Generated := do
  match ← scheduleTool ⟨some "generate_draft", "generate_draft", "{}"⟩ memory with
  | .inl code => return ⟨some code, none, false⟩
  | .inr result => return result.generated

/-- `main`. -/
def mainScheduling (wording : Wording SchedulingFacts CurrentPlan) (messages : List GraphMessage)
    (loaded : Loaded SchedulingFacts) (memory : Memory) : SchedulingWork (ModelReply × Memory) := do
  let _ ← perform (.countModel "READING_BOARD")
  let memory ← getClient memory
  let current : CurrentPlan ← perform .currentPlan
  let reply ← askMain wording current messages loaded memory
  return (reply, memory)

/-- `compose`. -/
def composeScheduling (wording : Wording SchedulingFacts CurrentPlan) (messages : List GraphMessage)
    (loaded : Loaded SchedulingFacts) (memory : Memory) : SchedulingWork (String × Memory) := do
  let _ ← perform (.countModel "EXPLAINING")
  let current : CurrentPlan ← perform .currentPlan
  composeText wording current messages loaded memory

/-- The texts about a plan: what the model is asked to explain, and what is said without it. -/
structure PlanWording extends Wording SchedulingFacts CurrentPlan where
  explaining : CurrentPlan → String
  fallback : CurrentPlan → String

/-- What the model says of the plan. -/
def explainPlan (wording : PlanWording) (plan : CurrentPlan) (memory : Memory) :
    SchedulingWork (String × Memory) := do
  let _ ← perform (.countModel "EXPLAINING")
  let memory ← getClient memory
  let input ← ofExcept (boundedMessages (wording.explaining plan) [])
  let text : String ← perform (.explain input)
  let _ ← perform .usage
  return (String.ofList (text.toList.take 400), memory)

/-- `explain_workbench`: without an explanation the plan is still good, so that only a lost lease is
raised. -/
def explainWorkbenchPlan (wording : PlanWording) (memory : Memory) :
    SchedulingWork (String × Memory) := do
  let plan : CurrentPlan ← perform .currentPlan
  match ← (explainPlan wording plan memory).attempt with
  | .ok (text, memory) => return (if text = "" then wording.fallback plan else text, memory)
  | .error .leaseLost => .raise .leaseLost
  | .error _ => return (wording.fallback plan, memory)

/-- `SchedulingCapabilities`. -/
def schedulingCapability (wording : PlanWording) (memory : Memory) :
    (q : Query SchedulingFacts) → SchedulingWork (Answer q × Memory)
  | .load => loadScheduling memory
  | .admittance loaded => admitScheduling loaded memory
  | .generate => do
    let answer ← generatePlanDraft memory
    return (answer, memory)
  | .explainWorkbench => explainWorkbenchPlan wording memory
  | .main messages loaded => mainScheduling wording.toWording messages loaded memory
  | .tool call => do
    let result ← toolScheduling wording.toWording call memory
    return (result, memory)
  | .compose messages loaded => composeScheduling wording.toWording messages loaded memory
  | _ => .raise .attributeError

end FilmOS.Agent
