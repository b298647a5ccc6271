import FilmOS.Agent.Workflow

/-!
# Workers

A worker claims a queued run for a limited time under a fresh lease token, renews the lease, and
ends the run. Every statement of a worker on a claimed run goes through `lockRun`, which refuses a
context whose token is not the current one or whose time has passed. A watchdog fails the runs whose
worker went silent and those that nobody claimed.

`call.now` is the clock as the transaction first reads it, `later` a second reading. The subquery
for candidate sessions is evaluated on the snapshot of its statement, which may be older than the
rows that are then locked; so the candidates are an argument, and so are the sessions that others
hold locked, which are skipped.
-/

set_option autoImplicit false
set_option relaxedAutoImplicit false

namespace FilmOS.Agent

open Transaction PythonText

def leaseSeconds : ℤ := 30

/-- What a worker remembers of the run it claimed. -/
structure RunContext where
  runId : Id
  sessionId : Id
  userId : Id
  workItemId : Option Id
  leaseToken : Id
  graphKey : String
  graphVersion : String
  inputEventSeq : ℕ
deriving DecidableEq

/-- What an executor returns. -/
structure RunResult where
  text : String
  outcome : RunOutcome

/-- The run is leased to the context, and the time has not passed. -/
structure Holds (context : RunContext) (now : Time) (w : Workspace) (run : AgentRun) : Prop where
  active : w.session.status = .active
  running : run.status = .running
  user : w.session.userId = context.userId
  token : run.leaseToken = some context.leaseToken
  lease : run.leaseExpiresAt.any (now < ·)
  deadline : run.deadlineAt.any (now < ·)
  item : run.workItemId = context.workItemId
  selected : run.workItemId = none ∨ w.session.activeWorkItemId = run.workItemId ∨
    run.config.intakeWorkbench

instance (context : RunContext) (now : Time) (w : Workspace) (run : AgentRun) :
    Decidable (Holds context now w run) :=
  decidable_of_iff
    (w.session.status = .active ∧ run.status = .running ∧ w.session.userId = context.userId ∧
      run.leaseToken = some context.leaseToken ∧ run.leaseExpiresAt.any (now < ·) ∧
      run.deadlineAt.any (now < ·) ∧ run.workItemId = context.workItemId ∧
      (run.workItemId = none ∨ w.session.activeWorkItemId = run.workItemId ∨
        run.config.intakeWorkbench))
    ⟨fun ⟨h₁, h₂, h₃, h₄, h₅, h₆, h₇, h₈⟩ ↦ ⟨h₁, h₂, h₃, h₄, h₅, h₆, h₇, h₈⟩,
      fun h ↦ ⟨h.active, h.running, h.user, h.token, h.lease, h.deadline, h.item, h.selected⟩⟩

/-- `lock_run`. -/
def lockRun (call : Call) (context : RunContext) : Txn Failure AgentDb (Workspace × AgentRun) := do
  let db ← get
  let w ← orRaise (db.workspaces.find? context.sessionId) .leaseLost
  let run ← orRaise (w.runs.find? context.runId) .leaseLost
  require (Holds context call.now w run) .leaseLost
  return (w, run)

/-- A run as it is after it failed. -/
def failedRun (finishedAt : Time) (code message : String) (run : AgentRun) : AgentRun :=
  { run with
    status := .failed, errorCode := some code, errorMessage := some message
    finishedAt := some finishedAt, leaseToken := none, leaseExpiresAt := none }

/-- `_fail_locked`. -/
def failLocked (call : Call) (later : Time) (w : Workspace) (run : AgentRun)
    (code message : String) : Txn Failure AgentDb Workspace := do
  let w := w.setRun run.id (failedRun later code message)
  let w := w.abandonCalls call run.id code
  let w ← continueRecognition call (failedRun later code message run) w
  let w := w.revise
  let w := w.append call .runFailed [("error_code", .text code), ("message", .text message)]
    { runId := some run.id }
  return w.announce call

/-- The session that `claim` locks. The candidates are in the order of the snapshot of the
statement, which sorts them by what it sees of them; a session that somebody else holds is skipped,
and one that is not active any more when it is locked. -/
def claimable (db : AgentDb) (candidates skipped : List Id) : Option Workspace :=
  candidates.findSome? (fun sessionId ↦
    (db.workspaces.find? sessionId).filter (fun w ↦
      w.session.status = .active ∧ w.session.id ∉ skipped))

/-- A run as it is after a worker claimed it. -/
def claimedRun (now : Time) (workerId : String) (token : Id) (run : AgentRun) : AgentRun :=
  { run with
    status := .running, workerId := some workerId, leaseToken := some token
    startedAt := some now, heartbeatAt := some now
    leaseExpiresAt := some (now + seconds leaseSeconds)
    deadlineAt := some (now + seconds run.config.runTimeoutSeconds) }

/-- `claim`. -/
def claim (call : Call) (later : Time) (workerId : String) (candidates skipped : List Id) :
    Txn Failure AgentDb (Option RunContext) := do
  let db ← get
  match claimable db candidates skipped with
  | none => return none
  | some w =>
    let run ← orRaise (w.runs.rows.find? (·.status = .queued)) .noResultFound
    if run.queuedAt + seconds run.config.queueTimeoutSeconds ≤ call.now then
      let w ← failLocked call later w run "QUEUE_TIMEOUT" "等待执行超时，请重试"
      save w
      return none
    else
      let token ← generateId call
      let w := w.setRun run.id (claimedRun call.now workerId token)
      save (w.append call .runStarted [] { runId := some run.id })
      return some
        { runId := run.id, sessionId := w.session.id, userId := w.session.userId
          workItemId := run.workItemId, leaseToken := token, graphKey := run.graphKey
          graphVersion := run.graphVersion, inputEventSeq := run.inputEventSeq }

/-- `heartbeat`. -/
def heartbeat (call : Call) (later : Time) (context : RunContext) : Txn Failure AgentDb Unit := do
  let (w, run) ← lockRun call context
  save (w.setRun run.id (fun run ↦
    { run with
      heartbeatAt := some later
      leaseExpiresAt := run.deadlineAt.map (min (later + seconds leaseSeconds)) }))

/-- `fail_run`. -/
def failRun (call : Call) (later : Time) (context : RunContext) (code message : String) :
    Txn Failure AgentDb Unit := do
  let (w, run) ← lockRun call context
  let w ← failLocked call later w run code message
  save w

/-- A run as it is after it succeeded. -/
def succeededRun (finishedAt : Time) (outcome : RunOutcome) (messageId : Id) (run : AgentRun) :
    AgentRun :=
  { run with
    status := .succeeded, outcome := some outcome, outputMessageId := some messageId
    finishedAt := some finishedAt, leaseToken := none, leaseExpiresAt := none }

/-- The name of an outcome. -/
def RunOutcome.text : RunOutcome → String
  | .answered => "ANSWERED"
  | .needsInput => "NEEDS_INPUT"
  | .outOfScope => "OUT_OF_SCOPE"
  | .queuedOnly => "QUEUED_ONLY"
  | .draftReady => "DRAFT_READY"
  | .noPending => "NO_PENDING"
  | .noFeasible => "NO_FEASIBLE"
  | .limitReached => "LIMIT_REACHED"

/-- The assistant message with the answer of a run, and its event. -/
def addAnswer (call : Call) (messageId : Id) (run : AgentRun) (text : String) (w : Workspace) :
    Workspace :=
  (w.addMessage
    { id := messageId, clientMessageId := none, requestHash := none, origin := .agent
      content := text, actions := [], runId := some run.id, commandId := none
      workItemId := run.workItemId, eventSeq := w.session.lastEventSeq + 1 }).appendBy .agent call
    .messageCompleted [("role", .text "assistant"), ("text", .text text),
      ("attachment_ids", .texts [])]
    { runId := some run.id, messageId := some messageId, workItemId := run.workItemId }

/-- `finalize`. -/
def finalize (call : Call) (later : Time) (context : RunContext) (result : RunResult) :
    Txn Failure AgentDb Id := do
  require (strip result.text ≠ "" ∧ result.text.length ≤ 20000)
    (.valueError "invalid final response")
  let (w, run) ← lockRun call context
  let messageId ← generateId call
  let w := addAnswer call messageId run result.text w
  let w := w.setRun run.id (succeededRun later result.outcome messageId)
  let w ← continueRecognition call (succeededRun later result.outcome messageId run) w
  let w := w.revise
  let w := w.append call .runSucceeded
    [("outcome", .text result.outcome.text), ("message_id", .text messageId)]
      { runId := some run.id }
  save (w.announce call)
  return messageId

/-- `append_delta`. -/
def appendDelta (call : Call) (context : RunContext) (text : String) (chunkIndex : ℤ) :
    Txn Failure AgentDb Unit := do
  require (text ≠ "" ∧ text.length ≤ 4096 ∧ 0 ≤ chunkIndex) (.valueError "invalid delta")
  let (w, _) ← lockRun call context
  save (w.appendBy .agent call .assistantDelta
    [("text", .text text), ("chunk_index", .number chunkIndex)] { runId := some context.runId })

/-! ### The watchdog -/

/-- Why a run is expired, if it is. -/
def expiry (now : Time) (run : AgentRun) : Option (String × String) :=
  if run.status = .queued then some ("QUEUE_TIMEOUT", "等待执行超时，请重试")
  else if run.deadlineAt.any (· ≤ now) then some ("RUN_TIMEOUT", "本轮处理超时，输入和草稿已保留")
  else if run.leaseExpiresAt.any (· ≤ now) then some ("WORKER_LOST", "执行中断，输入和草稿已保留")
  else none

/-- Fails the open run of one session when it is expired, and counts it. -/
def expireSession (call : Call) (later : Time) (sessionId : Id) : Txn Failure AgentDb ℕ := do
  let db ← get
  match (db.workspaces.find? sessionId).bind (fun w ↦ w.openRun.map (w, ·)) with
  | none => return 0
  | some (w, run) =>
    match expiry call.now run with
    | none => return 0
    | some (code, message) =>
      let w ← failLocked call later w run code message
      save w
      return 1

/-- The sessions of a list one after another. -/
def expireSessions (call : Call) (later : Time) : List Id → Txn Failure AgentDb ℕ
  | [] => return 0
  | sessionId :: rest => do
    let count ← expireSession call later sessionId
    let counts ← expireSessions call later rest
    return count + counts

/-- `expire_runs`: `candidates` are the sessions that the subquery of the statement gives, with a
run that its snapshot shows as expired, and `skipped` those that another transaction holds. -/
def expireRuns (call : Call) (later : Time) (limit : ℕ) (candidates skipped : List Id) :
    Txn Failure AgentDb ℕ := do
  let db ← get
  expireSessions call later
    ((orderBy id (db.workspaces.keys.filter (fun sessionId ↦
      sessionId ∈ candidates ∧ sessionId ∉ skipped))).take limit)

end FilmOS.Agent
