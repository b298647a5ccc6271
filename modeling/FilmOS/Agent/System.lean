import FilmOS.Agent.ScreenshotLaws
import FilmOS.Agent.SessionLaws
import FilmOS.Agent.ToolLaws
import FilmOS.Board.Orders
import FilmOS.Library.Run

/-!
# The agent services as one system

The state is the database, an input is one call of a service with the clock as it is read, and a
step is the committed transaction of that call: the body when it returns, nothing when it raises.
Users, workers, the watchdog and the clean-up are calls in any order, with any arguments; a worker
that was lost is a context that is used later. The other services work on the business tables
(`BoardWork`), and an order that they delete is taken from the item that it was created from.

`AgentOp.progress` says that every step makes the progress that its call permits, and so
`sound_run` that the invariants hold in every state that a run reaches.
-/

set_option autoImplicit false
set_option relaxedAutoImplicit false

namespace FilmOS.Agent

open Transaction AgentDb Scheduling

/-! ### Calls -/

/-- Work of the other services on the business tables: it takes no identifier back, and schedule
plans belong to the agent services alone. -/
structure BoardWork where
  change : Board → Board
  plans : ∀ board, (change board).plans = board.plans
  issued : ∀ board, board.issued ⊆ (change board).issued

/-- `delete_order` of the order service. -/
def BoardWork.deleteOrder (orderId : Id) : BoardWork where
  change := commit (OrderService.deleteOrder orderId)
  plans board := by
    rcases commit_cases (OrderService.deleteOrder orderId) board with heq | ⟨_, board', hok, heq⟩
    · rw [heq]
    · obtain ⟨-, -, -, rfl⟩ := OrderService.deleteOrder_ok hok
      rw [heq]
  issued board := by
    rcases commit_cases (OrderService.deleteOrder orderId) board with heq | ⟨_, board', hok, heq⟩
    · rw [heq]
      exact List.Subset.refl _
    · obtain ⟨-, -, -, rfl⟩ := OrderService.deleteOrder_ok hok
      rw [heq]
      exact List.Subset.refl _

/-- The items of a session without the orders that do not exist (any more): the foreign key sets
them to null. -/
def Workspace.unbind (kept : Id → Bool) (w : Workspace) : Workspace :=
  { w with
    items := w.items.mapRows
      (fun item ↦ { item with orderId := item.orderId.filter kept }) (fun _ ↦ rfl) }

theorem key_unbind (kept : Id → Bool) (w : Workspace) :
    Keyed.key (w.unbind kept) = Keyed.key w := rfl

/-- The work of another service, as one transaction. -/
def BoardWork.apply (work : BoardWork) (db : AgentDb) : AgentDb :=
  let board := work.change db.board
  { db with
    board
    workspaces := db.workspaces.mapRows
      (Workspace.unbind (fun orderId ↦ decide (orderId ∈ board.orders.keys))) (key_unbind _) }

/-- The calls of the services with their arguments. -/
inductive AgentOp
  | createSession (userId : Id) (key : String) (body : CreateSession)
  | enterWorkspace (userId : Id) (key : String) (agentType : AgentType)
  | acceptMessage (sessionId userId : Id) (body : SendMessage) (mode : MessageMode)
  | retryRun (runId userId : Id) (key : String) (expected : ℕ)
  | changeStatus (sessionId userId : Id) (key : String) (change : StatusChange)
  | patchItem (itemId userId : Id) (expected : ℕ) (patch : DraftPatch)
  | itemCommand (itemId userId : Id) (key : String) (kind : CommandKind) (payload : ActionPayload)
  | nextItem (sessionId userId : Id) (key : String) (expected : ℕ) (nextId : Id)
  | upload (sessionId userId : Id) (clientUploadId sha256 : String)
      (inspected : Except Failure ImageFile)
  | archiveScreenshot (attachmentId userId : Id) (key : String) (archived : Bool) (expected : ℕ)
  | deleteScreenshot (attachmentId userId : Id) (key : String) (expected : ℕ)
  | patchPlan (planId userId : Id) (expected : ℕ) (tasks : List DraftTask)
  | planCommand (planId userId : Id) (key : String) (kind : CommandKind) (payload : ActionPayload)
  | claim (workerId : String) (candidates skipped : List Id)
  | heartbeat (context : RunContext)
  | failRun (context : RunContext) (code message : String)
  | finalize (context : RunContext) (result : RunResult)
  | appendDelta (context : RunContext) (text : String) (chunkIndex : ℤ)
  | expireRuns (limit : ℕ) (candidates skipped : List Id)
  | countModel (context : RunContext) (stage : String)
  | reportProgress (context : RunContext) (payload : Payload)
  | decideAdmittance (context : RunContext) (admission : Payload)
  | recognitionFailed (context : RunContext) (code : String)
  | startTool (context : RunContext) (request : ToolRequest)
  | runTool (context : RunContext) (callId : Id) (request : ToolRequest) (operation : ToolOperation)
  | failTool (context : RunContext) (callId : Id) (request : ToolRequest)
  | sweepStaged (candidates skipped : List Id)
  | finishDeletions (skipped : List Id)
  | collectOnce (skipped : List Id) (unlinked : Bool)
  | board (work : BoardWork)

namespace AgentOp

/-- The durable database after a call. -/
def apply (call : Call) (later : Time) : AgentOp → AgentDb → AgentDb
  | createSession userId key body => commit (Agent.createSession call userId key body)
  | enterWorkspace userId key agentType => commit (Agent.enterWorkspace call userId key agentType)
  | acceptMessage sessionId userId body mode =>
    commit (Agent.acceptMessage call sessionId userId body mode)
  | retryRun runId userId key expected => commit (Agent.retryRun call runId userId key expected)
  | changeStatus sessionId userId key change =>
    commit (Agent.changeStatus call sessionId userId key change)
  | patchItem itemId userId expected patch =>
    commit (Agent.patchItem call itemId userId expected patch)
  | itemCommand itemId userId key kind payload =>
    commit (Agent.itemCommand call itemId userId key kind payload)
  | nextItem sessionId userId key expected nextId =>
    commit (Agent.nextItem call sessionId userId key expected nextId)
  | upload sessionId userId clientUploadId sha256 inspected =>
    commit (Agent.upload call sessionId userId clientUploadId sha256 inspected)
  | archiveScreenshot attachmentId userId key archived expected =>
    commit (Agent.archiveScreenshot call attachmentId userId key archived expected)
  | deleteScreenshot attachmentId userId key expected =>
    commit (Agent.deleteScreenshot call attachmentId userId key expected)
  | patchPlan planId userId expected tasks =>
    commit (Agent.patchPlan call planId userId expected tasks)
  | planCommand planId userId key kind payload =>
    commit (Agent.planCommand call planId userId key kind payload)
  | claim workerId candidates skipped => commit (Agent.claim call later workerId candidates skipped)
  | heartbeat context => commit (Agent.heartbeat call later context)
  | failRun context code message => commit (Agent.failRun call later context code message)
  | finalize context result => commit (Agent.finalize call later context result)
  | appendDelta context text chunkIndex => commit (Agent.appendDelta call context text chunkIndex)
  | expireRuns limit candidates skipped =>
    commit (Agent.expireRuns call later limit candidates skipped)
  | countModel context stage => commit (Agent.countModel call context stage)
  | reportProgress context payload => commit (Agent.reportProgress call context payload)
  | decideAdmittance context admission => commit (Agent.decideAdmittance call context admission)
  | recognitionFailed context code => commit (Agent.recognitionFailed call context code)
  | startTool context request => commit (Agent.startTool call context request)
  | runTool context callId request operation =>
    commit (Agent.runTool call later context callId request operation)
  | failTool context callId request => commit (Agent.failTool call context callId request)
  | sweepStaged candidates skipped => commit (Agent.sweepStaged call candidates skipped)
  | finishDeletions skipped => Agent.finishDeletions skipped
  | collectOnce skipped unlinked => Agent.collectOnce call skipped unlinked
  | board work => work.apply

/-- What a call may do. -/
def permit : AgentOp → Permit
  | createSession userId key body => .enter userId key (.createSession body.agentType body.title)
  | enterWorkspace userId key agentType => .enter userId key (.createSession agentType none)
  | acceptMessage .. => .message
  | retryRun runId userId key expected => .queueing userId key (.retryRun runId expected)
  | changeStatus sessionId userId key change => .changeStatus userId key change sessionId
  | itemCommand itemId userId key kind payload => .item userId key kind payload itemId
  | nextItem sessionId userId key expected nextId =>
    .next userId key (.nextItem sessionId expected nextId)
  | upload .. => .upload
  | archiveScreenshot attachmentId userId key archived expected =>
    .screenshot userId key (archiveRequest attachmentId archived expected)
  | deleteScreenshot attachmentId userId key expected =>
    .screenshot userId key (.deleteScreenshot attachmentId expected)
  | patchPlan .. => .drafting
  | planCommand planId userId key kind payload =>
    .planning userId key (.planCommand kind planId payload)
  | claim .. | failRun .. | finalize .. | expireRuns .. => .worker
  | runTool _ callId _ operation => .tool callId operation
  | failTool _ callId _ => { call := (· = callId) }
  | sweepStaged .. | finishDeletions _ | collectOnce .. => .cleaning
  | board _ => { order := True }
  | _ => {}

end AgentOp

variable {call : Call} {later : Time} {db db' : AgentDb} {permit : Permit}

/-! ### One step -/

theorem uses_unbind {kept : Id → Bool} {w : Workspace} {id : Id} (h : (w.unbind kept).Uses id) :
    w.Uses id := by
  unfold Workspace.Uses Workspace.unbind at h
  rw [Table.keys_mapRows] at h
  exact h

/-- The work of another service makes progress. -/
theorem BoardWork.progress (hsound : db.Sound) (work : BoardWork) :
    Progress { order := True } db (work.apply db) := by
  have hmem : ∀ w' ∈ (work.apply db).workspaces.rows, ∃ w ∈ db.workspaces.rows,
      w.unbind (fun orderId ↦ decide (orderId ∈ (work.change db.board).orders.keys)) = w' :=
    fun w' hw' ↦ List.mem_map.mp hw'
  have hplans : (work.apply db).board.plans = db.board.plans := work.plans db.board
  constructor
  · exact work.issued db.board
  · intro w' hw'
    obtain ⟨w, hw, rfl⟩ := hmem w' hw'
    exact Or.inl ⟨w, hw, .of_changes (.single (.unbind w _)) (fun h ↦ h) (fun h ↦ h) (fun h ↦ h)
      (Or.inl rfl) False.elim⟩
  · intro w₁ hw₁ _ _ id hfresh huses _
    obtain ⟨w, hw, rfl⟩ := hmem w₁ hw₁
    exact absurd (hsound.issued w hw id (uses_unbind huses)) hfresh.1
  · exact fun _ h ↦ Or.inl h
  · exact fun _ h _ _ ↦ h
  · exact fun h ↦ absurd trivial h
  · intro _ sessionId _ _
    unfold AgentDb.plansOf
    rw [hplans]
  · rw [hplans]
    exact fun _ _ h ↦ h
  · exact fun _ ↦ rfl
  · intro _
    exact (Table.keys_mapRows db.workspaces _ (key_unbind _)).symm ▸ List.Subset.refl _

theorem progress_commit {α : Type} {body : Txn Failure AgentDb α}
    (h : ∀ a db', body db = .ok a db' → Progress permit db db') :
    Progress permit db (commit body db) := by
  rcases commit_cases body db with heq | ⟨a, db', hok, heq⟩
  · rw [heq]
    exact .refl db
  · rw [heq]
    exact h a db' hok

/-- Every call makes the progress that it permits. -/
theorem AgentOp.progress (hsound : db.Sound) (op : AgentOp) :
    Progress op.permit db (op.apply call later db) := by
  cases op with
  | createSession => exact progress_commit fun _ _ ↦ progress_createSession hsound
  | enterWorkspace => exact progress_commit fun _ _ ↦ progress_enterWorkspace hsound
  | acceptMessage => exact progress_commit fun _ _ ↦ progress_acceptMessage hsound
  | retryRun => exact progress_commit fun _ _ ↦ progress_retryRun hsound
  | changeStatus => exact progress_commit fun _ _ ↦ progress_changeStatus hsound
  | patchItem => exact progress_commit fun _ _ ↦ progress_patchItem hsound
  | itemCommand => exact progress_commit fun _ _ ↦ progress_itemCommand hsound
  | nextItem => exact progress_commit fun _ _ ↦ progress_nextItem hsound
  | upload => exact progress_commit fun _ _ ↦ progress_upload hsound
  | archiveScreenshot => exact progress_commit fun _ _ ↦ progress_archiveScreenshot hsound
  | deleteScreenshot => exact progress_commit fun _ _ ↦ progress_deleteScreenshot hsound
  | patchPlan => exact progress_commit fun _ _ ↦ progress_patchPlan hsound
  | planCommand => exact progress_commit fun _ _ ↦ progress_planCommand hsound
  | claim => exact progress_commit fun _ _ ↦ progress_claim hsound
  | heartbeat => exact progress_commit fun _ _ ↦ progress_heartbeat hsound
  | failRun => exact progress_commit fun _ _ ↦ progress_failRun hsound
  | finalize => exact progress_commit fun _ _ ↦ progress_finalize hsound
  | appendDelta => exact progress_commit fun _ _ ↦ progress_appendDelta hsound
  | expireRuns => exact progress_commit fun _ _ ↦ progress_expireRuns hsound
  | countModel => exact progress_commit fun _ _ ↦ progress_countModel hsound
  | reportProgress => exact progress_commit fun _ _ ↦ progress_reportProgress hsound
  | decideAdmittance => exact progress_commit fun _ _ ↦ progress_decideAdmittance hsound
  | recognitionFailed => exact progress_commit fun _ _ ↦ progress_recognitionFailed hsound
  | startTool => exact progress_commit fun _ _ ↦ progress_startTool hsound
  | runTool => exact progress_commit fun _ _ ↦ progress_runTool hsound
  | failTool => exact progress_commit fun _ _ ↦ progress_failTool hsound
  | sweepStaged => exact progress_commit fun _ _ ↦ progress_sweepStaged hsound
  | finishDeletions skipped => exact progress_finishDeletions skipped hsound
  | collectOnce skipped unlinked => exact progress_collectOnce call skipped unlinked hsound
  | board work => exact work.progress hsound

/-! ### Runs -/

/-- A call with the two readings of the clock in its transaction. -/
structure AgentInput where
  call : Call
  later : Time
  op : AgentOp

/-- One committed call. -/
def step (db : AgentDb) (input : AgentInput) : AgentDb := input.op.apply input.call input.later db

/-- The database before any session was created. A plan belongs to a session, so there is none. -/
def AgentDb.start (board : Board) : AgentDb where
  workspaces := Table.empty
  commands := Table.empty
  gcJobs := Table.empty
  board := { board with plans := Table.empty }

theorem AgentDb.Sound.start (board : Board) : (AgentDb.start board).Sound where
  workspace _ h := absurd h List.not_mem_nil
  session_issued _ h := absurd h List.not_mem_nil
  issued _ h := absurd h List.not_mem_nil
  apart _ h := absurd h List.not_mem_nil

theorem progress_step (hsound : db.Sound) (input : AgentInput) :
    Progress input.op.permit db (step db input) :=
  input.op.progress hsound

theorem AgentDb.Sound.step (hsound : db.Sound) (input : AgentInput) : (step db input).Sound :=
  hsound.progress (progress_step hsound input)

/-- The invariants hold in every state that a run reaches. -/
theorem sound_run (board : Board) (inputs : List AgentInput) :
    (System.run step (AgentDb.start board) inputs).Sound :=
  System.invariant_run_all (fun _ input h ↦ h.step input) inputs _ (.start board)

end FilmOS.Agent
