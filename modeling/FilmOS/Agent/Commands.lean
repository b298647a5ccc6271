import FilmOS.Agent.PlanLaws
import FilmOS.Agent.System

/-!
# Commands under a key

Eight services carry out commands that a client sends under a key of its own, and sends again when
it does not get an answer. Each looks for the key first, does its work, and enters the command with
its result as the last thing of the transaction (`enters_save`, `ClientCommand.answered`).

`commands_once` is what clients rely on in every state that a run of the system reaches: a request
changes nothing, or its key was unused and its command is there afterwards, with the result that was
returned; a command that is there stays as long as its session does; and a request under its key
changes nothing: it is refused when it is another request, and answered with the stored result when
it is the same and its user can read the session, which the user owns and which is not being
deleted.
-/

set_option autoImplicit false
set_option relaxedAutoImplicit false

namespace FilmOS.Agent

open Transaction AgentDb

/-! ### The commands -/

/-- The commands that a client sends under a key. -/
inductive ClientCommand
  | createSession (body : CreateSession)
  | retryRun (runId : Id) (expected : ℕ)
  | changeStatus (sessionId : Id) (change : StatusChange)
  | itemCommand (itemId : Id) (kind : CommandKind) (payload : ActionPayload)
  | nextItem (sessionId : Id) (expected : ℕ) (nextId : Id)
  | archiveScreenshot (attachmentId : Id) (archived : Bool) (expected : ℕ)
  | deleteScreenshot (attachmentId : Id) (expected : ℕ)
  | planCommand (planId : Id) (kind : CommandKind) (payload : ActionPayload)

namespace ClientCommand

/-- What the hash of the request covers. -/
def request : ClientCommand → CommandRequest
  | createSession body => .createSession body.agentType body.title
  | retryRun runId expected => .retryRun runId expected
  | changeStatus sessionId change => .changeStatus change.kind sessionId
  | itemCommand itemId kind payload => .itemCommand kind itemId payload
  | nextItem sessionId expected nextId => .nextItem sessionId expected nextId
  | archiveScreenshot attachmentId archived expected =>
    archiveRequest attachmentId archived expected
  | deleteScreenshot attachmentId expected => .deleteScreenshot attachmentId expected
  | planCommand planId kind payload => .planCommand kind planId payload

/-- The call of the service. -/
def op (userId : Id) (key : String) : ClientCommand → AgentOp
  | createSession body => .createSession userId key body
  | retryRun runId expected => .retryRun runId userId key expected
  | changeStatus sessionId change => .changeStatus sessionId userId key change
  | itemCommand itemId kind payload => .itemCommand itemId userId key kind payload
  | nextItem sessionId expected nextId => .nextItem sessionId userId key expected nextId
  | archiveScreenshot attachmentId archived expected =>
    .archiveScreenshot attachmentId userId key archived expected
  | deleteScreenshot attachmentId expected => .deleteScreenshot attachmentId userId key expected
  | planCommand planId kind payload => .planCommand planId userId key kind payload

/-- The transaction of the service. -/
def body (call : Call) (userId : Id) (key : String) :
    ClientCommand → Txn Failure AgentDb CommandResult
  | createSession body => Agent.createSession call userId key body
  | retryRun runId expected => Agent.retryRun call runId userId key expected
  | changeStatus sessionId change => Agent.changeStatus call sessionId userId key change
  | itemCommand itemId kind payload => Agent.itemCommand call itemId userId key kind payload
  | nextItem sessionId expected nextId => Agent.nextItem call sessionId userId key expected nextId
  | archiveScreenshot attachmentId archived expected =>
    Agent.archiveScreenshot call attachmentId userId key archived expected
  | deleteScreenshot attachmentId expected =>
    Agent.deleteScreenshot call attachmentId userId key expected
  | planCommand planId kind payload => Agent.planCommand call planId userId key kind payload

theorem step_op (command : ClientCommand) (db : AgentDb) (call : Call) (later : Time) (userId : Id)
    (key : String) :
    step db ⟨call, later, command.op userId key⟩ = commit (command.body call userId key) db := by
  cases command <;> rfl

end ClientCommand

/-! ### Bodies that enter their command -/

/-- The command is there with its result, and so is its session. -/
def AgentDb.Answered (db : AgentDb) (userId : Id) (key : String) (request : CommandRequest)
    (result : CommandResult) : Prop :=
  ∃ row ∈ db.commands.rows, Commanded userId key request row ∧ row.result = result ∧
    row.sessionId ∈ db.workspaces.keys

/-- The body enters its command with the result that it returns. -/
def Enters (userId : Id) (key : String) (request : CommandRequest)
    (body : Txn Failure AgentDb CommandResult) : Prop :=
  ∀ db result db', body db = .ok result db' → db'.Answered userId key request result

variable {call : Call} {db db' : AgentDb} {userId : Id} {key : String} {request : CommandRequest}
  {result : CommandResult}

theorem Enters.bind {α : Type} {x : Txn Failure AgentDb α}
    {f : α → Txn Failure AgentDb CommandResult} (h : ∀ a, Enters userId key request (f a)) :
    Enters userId key request (x >>= f) := by
  intro db result db' hok
  obtain ⟨a, db₁, -, hrest⟩ := bind_eq_ok.mp hok
  exact h a db₁ result db' hrest

/-- A command that is entered in a session that is there. -/
theorem answered_addCommand {row : AgentCommand}
    (h : (addCommand row >>= fun _ ↦ (return row.result)) db = .ok result db')
    (hrow : Commanded userId key request row) (hsession : row.sessionId ∈ db.workspaces.keys) :
    db'.Answered userId key request result := by
  obtain ⟨_, db₁, hcommand, h⟩ := bind_eq_ok.mp h
  obtain ⟨rfl, rfl⟩ := pure_eq_ok.mp h
  obtain ⟨commands, hinsert, rfl⟩ := addCommand_eq_ok.mp hcommand
  refine ⟨row, ?_, hrow, rfl, hsession⟩
  change row ∈ commands.rows
  rw [((Table.insert?_eq_some_iff _ _ _).mp hinsert).2]
  exact List.mem_append_right _ (List.mem_singleton_self row)

/-- A command that is entered in the session that was just saved. -/
theorem enters_save {w : Workspace} {row : AgentCommand} (hrow : Commanded userId key request row)
    (hsession : row.sessionId = w.session.id) :
    Enters userId key request (save w >>= fun _ ↦ addCommand row >>=
      fun _ ↦ (return row.result)) := by
  intro db result db' hok
  obtain ⟨_, db₁, hsave, hok⟩ := bind_eq_ok.mp hok
  obtain rfl := save_eq_ok.mp hsave
  refine answered_addCommand hok hrow ((Table.mem_keys _).mpr ⟨w, ?_, hsession.symm⟩)
  exact (Table.mem_put _).mpr (Or.inl rfl)

/-- A body that runs when the key is unused, and enters its command. -/
theorem replaying_answered {body : Txn Failure AgentDb CommandResult}
    (h : replaying userId key request body db = .ok result db')
    (hbody : Enters userId key request body) :
    db' = db ∨ db.commands.find? (userId, key) = none ∧ db'.Answered userId key request result := by
  rcases replaying_ok h with ⟨-, -, -, -, hsame⟩ | ⟨hunused, h⟩
  · exact Or.inl hsame
  · exact Or.inr ⟨hunused, hbody db result db' h⟩

theorem createSession_answered {body : CreateSession}
    (h : createSession call userId key body db = .ok result db') :
    db' = db ∨ db.commands.find? (userId, key) = none ∧
      db'.Answered userId key (.createSession body.agentType body.title) result := by
  unfold createSession at h
  refine replaying_answered h (.bind fun sessionId ↦ .bind fun commandId ↦ ?_)
  intro db result db' h
  rw [get_bind_eq_ok] at h
  obtain ⟨workspaces, hinsert, h⟩ := orRaise_bind_eq_ok.mp h
  rw [set_bind_eq_ok] at h
  refine answered_addCommand h ⟨rfl, rfl, rfl⟩ ?_
  change sessionId ∈ workspaces.rows.map Keyed.key
  rw [((Table.insert?_eq_some_iff _ _ _).mp hinsert).2, List.map_append]
  exact List.mem_append_right _ (List.mem_singleton_self _)

theorem retryRun_answered {runId : Id} {expected : ℕ}
    (h : retryRun call runId userId key expected db = .ok result db') :
    db' = db ∨ db.commands.find? (userId, key) = none ∧
      db'.Answered userId key (.retryRun runId expected) result := by
  unfold retryRun at h
  refine replaying_answered h ?_
  iterate 14 refine .bind fun _ ↦ ?_
  exact enters_save ⟨rfl, rfl, rfl⟩ rfl

theorem archiveScreenshot_answered {attachmentId : Id} {archived : Bool} {expected : ℕ}
    (h : archiveScreenshot call attachmentId userId key archived expected db = .ok result db') :
    db' = db ∨ db.commands.find? (userId, key) = none ∧
      db'.Answered userId key (archiveRequest attachmentId archived expected) result := by
  unfold archiveScreenshot at h
  refine replaying_answered h ?_
  iterate 9 refine .bind fun _ ↦ ?_
  exact enters_save ⟨rfl, rfl, rfl⟩ rfl

theorem deleteScreenshot_answered {attachmentId : Id} {expected : ℕ}
    (h : deleteScreenshot call attachmentId userId key expected db = .ok result db') :
    db' = db ∨ db.commands.find? (userId, key) = none ∧
      db'.Answered userId key (.deleteScreenshot attachmentId expected) result := by
  unfold deleteScreenshot at h
  refine replaying_answered h ?_
  iterate 10 refine .bind fun _ ↦ ?_
  exact enters_save ⟨rfl, rfl, rfl⟩ rfl

theorem id_enterStatus {change : StatusChange} {w : Workspace} {entered : Workspace × EventKind}
    (h : enterStatus call change w db = .ok entered db') :
    entered.1.session.id = w.session.id := by
  cases change with
  | delete =>
    obtain ⟨_, db₁, -, h⟩ := bind_eq_ok.mp h
    obtain ⟨rfl, -⟩ := pure_eq_ok.mp h
    exact id_cancelOpenRun call _
  | archive =>
    obtain ⟨_, db₁, -, h⟩ := bind_eq_ok.mp h
    obtain ⟨rfl, -⟩ := pure_eq_ok.mp h
    rfl
  | restore =>
    obtain ⟨_, db₁, -, h⟩ := bind_eq_ok.mp h
    obtain ⟨rfl, -⟩ := pure_eq_ok.mp h
    rfl

theorem changeStatus_answered {sessionId : Id} {change : StatusChange}
    (h : changeStatus call sessionId userId key change db = .ok result db') :
    db' = db ∨ db.commands.find? (userId, key) = none ∧
      db'.Answered userId key (.changeStatus change.kind sessionId) result := by
  unfold changeStatus at h
  rw [get_bind_eq_ok] at h
  cases hold : db.commands.find? (userId, key) with
  | some old =>
    simp only [hold] at h
    obtain ⟨-, h⟩ := require_bind_eq_ok.mp h
    obtain ⟨-, rfl⟩ := pure_eq_ok.mp h
    exact Or.inl rfl
  | none =>
    simp only [hold] at h
    refine Or.inr ⟨rfl, ?_⟩
    obtain ⟨w, db₁, hfound, h⟩ := bind_eq_ok.mp h
    obtain ⟨⟨hw, rfl⟩, -, -, -, rfl⟩ := requireSession_eq_ok.mp hfound
    obtain ⟨commandId, db₂, hcommandId, h⟩ := bind_eq_ok.mp h
    obtain ⟨⟨w₁, kind⟩, db₃, henter, h⟩ := bind_eq_ok.mp h
    obtain ⟨_, db₄, hsave, h⟩ := bind_eq_ok.mp h
    obtain rfl := save_eq_ok.mp hsave
    refine answered_addCommand h ⟨rfl, rfl, rfl⟩ ?_
    have hid : w₁.session.id = w.session.id := id_enterStatus henter
    refine (Table.mem_keys _).mpr ⟨_, (Table.mem_put _).mpr (Or.inl rfl), ?_⟩
    exact hid

theorem itemCommand_answered {itemId : Id} {kind : CommandKind} {payload : ActionPayload}
    (h : itemCommand call itemId userId key kind payload db = .ok result db') :
    db' = db ∨ db.commands.find? (userId, key) = none ∧
      db'.Answered userId key (.itemCommand kind itemId payload) result := by
  unfold itemCommand at h
  refine replaying_answered h ?_
  intro db result db' h
  obtain ⟨⟨w, item⟩, db₁, hfound, h⟩ := bind_eq_ok.mp h
  obtain ⟨⟨hw, -⟩, -, -, -, rfl⟩ := requireItem_ok hfound
  obtain ⟨_, db₂, hcheck, h⟩ := bind_eq_ok.mp h
  obtain ⟨-, rfl⟩ := requireIdle_eq_ok.mp hcheck
  obtain ⟨commandId, db₃, hcommandId, h⟩ := bind_eq_ok.mp h
  obtain ⟨-, rfl⟩ := generateId_eq_ok.mp hcommandId
  split_ifs at h
  · rw [get_bind_eq_ok] at h
    obtain ⟨order, -, h⟩ := orRaise_bind_eq_ok.mp h
    exact answered_addCommand h ⟨rfl, rfl, rfl⟩ ((Table.mem_keys _).mpr ⟨w, hw, rfl⟩)
  · obtain ⟨effect, db₄, -, h⟩ := bind_eq_ok.mp h
    exact enters_save (w := effect.workspace) ⟨rfl, rfl, rfl⟩ rfl _ _ _ h

theorem id_runForSelected {kind : TriggerKind} {commandId : Id} {item : OrderIntakeItem}
    {w : Workspace} {found : Workspace × Option Id}
    (h : runForSelected call kind commandId item w db = .ok found db') :
    found.1.session.id = w.session.id := by
  unfold runForSelected at h
  split_ifs at h
  · obtain ⟨rfl, -⟩ := pure_eq_ok.mp h
    rfl
  · obtain ⟨runId, db₁, -, h⟩ := bind_eq_ok.mp h
    obtain ⟨w₁, hadd, h⟩ := checked_bind_eq_ok.mp h
    obtain ⟨rfl, -⟩ := pure_eq_ok.mp h
    unfold Workspace.addRun at hadd
    split at hadd
    · obtain rfl := Except.ok.inj hadd
      rfl
    · cases hadd

theorem nextItem_answered {sessionId : Id} {expected : ℕ} {nextId : Id}
    (h : nextItem call sessionId userId key expected nextId db = .ok result db') :
    db' = db ∨ db.commands.find? (userId, key) = none ∧
      db'.Answered userId key (.nextItem sessionId expected nextId) result := by
  unfold nextItem at h
  refine replaying_answered h ?_
  intro db result db' h
  obtain ⟨w, db₁, hfound, h⟩ := bind_eq_ok.mp h
  obtain ⟨⟨hw, rfl⟩, -, -, -, rfl⟩ := requireSession_eq_ok.mp hfound
  obtain ⟨-, h⟩ := require_bind_eq_ok.mp h
  obtain ⟨_, db₂, -, h⟩ := bind_eq_ok.mp h
  obtain ⟨_, db₃, -, h⟩ := bind_eq_ok.mp h
  obtain ⟨-, h⟩ := require_bind_eq_ok.mp h
  obtain ⟨item, -, h⟩ := orRaise_bind_eq_ok.mp h
  obtain ⟨commandId, db₄, -, h⟩ := bind_eq_ok.mp h
  obtain ⟨⟨w₁, runId⟩, db₅, hrun, h⟩ := bind_eq_ok.mp h
  have hid : w.session.id = w₁.session.id := (id_runForSelected hrun).symm
  exact enters_save (w := w₁) ⟨rfl, rfl, rfl⟩ hid _ _ _ h

theorem planCommand_answered {planId : Id} {kind : CommandKind} {payload : ActionPayload}
    (h : planCommand call planId userId key kind payload db = .ok result db') :
    db' = db ∨ db.commands.find? (userId, key) = none ∧
      db'.Answered userId key (.planCommand kind planId payload) result := by
  unfold planCommand at h
  refine replaying_answered h ?_
  intro db result db' h
  obtain ⟨⟨w, plan⟩, db₁, hfound, h⟩ := bind_eq_ok.mp h
  obtain ⟨hw, -⟩ := requirePlan_session hfound
  obtain rfl : db = db₁ := (requirePlan_ok hfound).2.2.symm
  obtain ⟨_, db₂, hcheck, h⟩ := bind_eq_ok.mp h
  obtain ⟨-, rfl⟩ := requireIdle_eq_ok.mp hcheck
  obtain ⟨commandId, db₃, hcommandId, h⟩ := bind_eq_ok.mp h
  obtain ⟨-, rfl⟩ := generateId_eq_ok.mp hcommandId
  split at h
  · exact answered_addCommand h ⟨rfl, rfl, rfl⟩ ((Table.mem_keys _).mpr ⟨w, hw, rfl⟩)
  · obtain ⟨effect, db₄, -, h⟩ := bind_eq_ok.mp h
    exact enters_save (w := effect.workspace) ⟨rfl, rfl, rfl⟩ rfl _ _ _ h

/-- A command changes nothing, or it enters itself under a key that was unused. -/
theorem ClientCommand.answered (command : ClientCommand)
    (h : command.body call userId key db = .ok result db') :
    db' = db ∨ db.commands.find? (userId, key) = none ∧
      db'.Answered userId key command.request result := by
  cases command with
  | createSession => exact createSession_answered h
  | retryRun => exact retryRun_answered h
  | changeStatus => exact changeStatus_answered h
  | itemCommand => exact itemCommand_answered h
  | nextItem => exact nextItem_answered h
  | archiveScreenshot => exact archiveScreenshot_answered h
  | deleteScreenshot => exact deleteScreenshot_answered h
  | planCommand => exact planCommand_answered h

/-! ### Requests under a key that was used -/

/-- Why the session of a repeated command cannot be read by its user: there is no such session of
the user, or it is being deleted. -/
def SessionInaccessible (db : AgentDb) (sessionId userId : Id) (failure : Failure) : Prop :=
  (failure = .refused "RESOURCE_NOT_FOUND" "会话不存在" 404 ∧
    ∀ w ∈ db.workspaces.rows, w.session.id = sessionId → w.session.userId ≠ userId) ∨
  (failure = .refused "SESSION_DELETING" "会话正在删除" 410 ∧
    ∃ w ∈ db.workspaces.rows, w.session.id = sessionId ∧ w.session.userId = userId ∧
      w.session.status = .deleting)

/-- How a request is answered under a key that was used: with the stored result, when it is the same
request and its session can be read, and not at all otherwise. -/
def Repeats (db : AgentDb) (row : AgentCommand) (request : CommandRequest)
    (body : Txn Failure AgentDb CommandResult) : Prop :=
  Ends body db
    (fun result db' ↦ row.requestHash = request ∧ result = row.result ∧ db' = db)
    (fun failure _ ↦
      row.requestHash = request ∧ SessionInaccessible db row.sessionId row.userId failure ∨
      row.requestHash ≠ request ∧
        failure = conflict "IDEMPOTENCY_MISMATCH" "该操作标识已用于不同请求")

theorem ends_requireSession (db : AgentDb) (sessionId userId : Id) :
    Ends (requireSession sessionId userId false) db (fun _ db' ↦ db' = db)
      (fun failure _ ↦ SessionInaccessible db sessionId userId failure) := by
  unfold requireSession
  have hfound : Ends (orRaise ((db.workspaces.find? sessionId).filter (·.session.userId = userId))
      (.refused "RESOURCE_NOT_FOUND" "会话不存在" 404) : Txn Failure AgentDb Workspace) db
      (fun w db' ↦ db' = db ∧ w ∈ db.workspaces.rows ∧ w.session.id = sessionId ∧
        w.session.userId = userId)
      (fun failure _ ↦ SessionInaccessible db sessionId userId failure) := by
    refine ends_orRaise (fun w hw ↦ ?_) fun hnone ↦ Or.inl ⟨rfl, fun w hw hid howner ↦ ?_⟩
    · obtain ⟨hw, howner⟩ := Option.filter_eq_some_iff.mp hw
      obtain ⟨hmem, hid⟩ := (db.workspaces.find?_eq_some_iff).mp hw
      exact ⟨rfl, hmem, hid, of_decide_eq_true howner⟩
    · rw [db.workspaces.find?_of_mem hw hid, Option.filter_some,
        if_pos (decide_eq_true howner)] at hnone
      cases hnone
  refine hfound.bind fun w db' hw ↦ ?_
  have hopen : Ends (require (w.session.status ≠ .deleting)
      (.refused "SESSION_DELETING" "会话正在删除" 410) : Txn Failure AgentDb Unit) db'
      (fun _ later ↦ later = db)
      (fun failure _ ↦ SessionInaccessible db sessionId userId failure) := by
    refine ends_require (fun _ ↦ hw.1) fun hdeleting ↦
      Or.inr ⟨rfl, w, hw.2.1, hw.2.2.1, hw.2.2.2, ?_⟩
    exact not_not.mp hdeleting
  refine hopen.bind fun _ later hlater ↦ ?_
  have hactive : Ends (require (false = true → w.session.status = .active)
      (conflict "SESSION_ARCHIVED" "请先恢复会话") : Txn Failure AgentDb Unit) later
      (fun _ last ↦ last = db)
      (fun failure _ ↦ SessionInaccessible db sessionId userId failure) :=
    ends_require (fun _ ↦ hlater) fun hnot ↦ absurd (fun h ↦ (nomatch h)) hnot
  exact hactive.bind fun _ last hlast ↦ ends_pure hlast

/-- The check that a repeated request is the same. -/
theorem Repeats.of_same {row : AgentCommand} {f : Unit → Txn Failure AgentDb CommandResult}
    (h : row.requestHash = request → Ends (f ()) db
      (fun result db' ↦ result = row.result ∧ db' = db)
      (fun failure _ ↦ SessionInaccessible db row.sessionId row.userId failure)) :
    Repeats db row request (require (row.requestHash = request)
      (conflict "IDEMPOTENCY_MISMATCH" "该操作标识已用于不同请求") >>= f) := by
  have hsame : Ends (require (row.requestHash = request)
      (conflict "IDEMPOTENCY_MISMATCH" "该操作标识已用于不同请求") : Txn Failure AgentDb Unit) db
      (fun _ db' ↦ row.requestHash = request ∧ db' = db)
      (fun failure _ ↦
        row.requestHash = request ∧ SessionInaccessible db row.sessionId row.userId failure ∨
        row.requestHash ≠ request ∧
          failure = conflict "IDEMPOTENCY_MISMATCH" "该操作标识已用于不同请求") :=
    ends_require (fun heq ↦ ⟨heq, rfl⟩) fun hne ↦ Or.inr ⟨hne, rfl⟩
  refine hsame.bind ?_
  rintro ⟨⟩ _ ⟨heq, rfl⟩
  exact (h heq).mono (fun _ _ hresult ↦ ⟨heq, hresult⟩) fun _ _ hfailure ↦ Or.inl ⟨heq, hfailure⟩

theorem repeats_replaying {row : AgentCommand} {body : Txn Failure AgentDb CommandResult}
    (hrow : db.commands.find? (userId, key) = some row) :
    Repeats db row request (replaying userId key request body) := by
  have hbody : replaying userId key request body db =
      (require (row.requestHash = request)
        (conflict "IDEMPOTENCY_MISMATCH" "该操作标识已用于不同请求") >>= fun _ ↦ do
          let _ ← requireSession row.sessionId userId false
          return row.result) db := by
    unfold replaying
    rw [get_bind_apply]
    simp only [hrow]
  obtain ⟨-, hkey⟩ := (db.commands.find?_eq_some_iff).mp hrow
  obtain rfl : row.userId = userId := congrArg Prod.fst hkey
  unfold Repeats Ends
  rw [hbody]
  refine Repeats.of_same fun _ ↦ (ends_requireSession db row.sessionId row.userId).bind ?_
  exact fun _ _ hsame ↦ ends_pure ⟨rfl, hsame⟩

theorem repeats_changeStatus {row : AgentCommand} {sessionId : Id} {change : StatusChange}
    (hrow : db.commands.find? (userId, key) = some row) :
    Repeats db row (.changeStatus change.kind sessionId)
      (changeStatus call sessionId userId key change) := by
  have hbody : changeStatus call sessionId userId key change db =
      (require (row.requestHash = .changeStatus change.kind sessionId)
        (conflict "IDEMPOTENCY_MISMATCH" "该操作标识已用于不同请求") >>= fun _ ↦
          (return row.result : Txn Failure AgentDb CommandResult)) db := by
    unfold changeStatus
    rw [get_bind_apply]
    simp only [hrow]
  unfold Repeats Ends
  rw [hbody]
  exact Repeats.of_same fun _ ↦ ends_pure ⟨rfl, rfl⟩

theorem ClientCommand.repeats (command : ClientCommand) {row : AgentCommand}
    (hrow : db.commands.find? (userId, key) = some row) :
    Repeats db row command.request (command.body call userId key) := by
  cases command with
  | changeStatus => exact repeats_changeStatus hrow
  | _ => exact repeats_replaying hrow

/-! ### Commands stay -/

/-- Commands stay while their sessions do, and no session comes back. -/
structure KeepsCommands (db db' : AgentDb) : Prop where
  issued : db.board.issued ⊆ db'.board.issued
  sessions : ∀ sessionId ∈ db'.workspaces.keys, sessionId ∈ db.board.issued →
    sessionId ∈ db.workspaces.keys
  commands : ∀ row ∈ db.commands.rows, row.sessionId ∈ db.board.issued →
    row.sessionId ∈ db'.workspaces.keys → row ∈ db'.commands.rows

theorem KeepsCommands.refl (db : AgentDb) : KeepsCommands db db :=
  ⟨List.Subset.refl _, fun _ h _ ↦ h, fun _ h _ _ ↦ h⟩

theorem KeepsCommands.trans {db₁ db₂ db₃ : AgentDb} (h : KeepsCommands db₁ db₂)
    (h' : KeepsCommands db₂ db₃) : KeepsCommands db₁ db₃ where
  issued := List.Subset.trans h.issued h'.issued
  sessions _ hid hissued := h.sessions _ (h'.sessions _ hid (h.issued hissued)) hissued
  commands row hrow hissued hlater :=
    h'.commands row
      (h.commands row hrow hissued (h'.sessions row.sessionId hlater (h.issued hissued)))
      (h.issued hissued) hlater

theorem keepsCommands_progress {permit : Permit} (h : Progress permit db db') :
    KeepsCommands db db' where
  issued := h.issued
  sessions _ hid hissued := (h.session_origin hid).resolve_left fun hfresh ↦ hfresh.1 hissued
  commands row hrow hissued hlater := h.kept row hrow hlater fun hfresh ↦ hfresh.1 hissued

theorem keepsCommands_run (hsound : db.Sound) (inputs : List AgentInput) :
    KeepsCommands db (System.run step db inputs) :=
  System.related_run KeepsCommands.refl (fun _ _ _ ↦ .trans) (fun _ input h ↦ h.step input)
    (fun _ input h ↦ keepsCommands_progress (progress_step h input)) inputs db hsound

/-! ### Every run -/

theorem commands_effect (db : AgentDb) (call : Call) (later : Time) (userId : Id) (key : String)
    (command : ClientCommand) :
    step db ⟨call, later, command.op userId key⟩ = db ∨
      ∃ result, command.body call userId key db =
          .ok result (step db ⟨call, later, command.op userId key⟩) ∧
        db.commands.find? (userId, key) = none ∧
        (step db ⟨call, later, command.op userId key⟩).Answered userId key command.request
          result := by
  rw [command.step_op]
  rcases commit_cases (command.body call userId key) db with heq | ⟨result, db', hok, heq⟩
  · exact Or.inl heq
  · rw [heq]
    rcases command.answered hok with rfl | ⟨hunused, hanswered⟩
    · exact Or.inl rfl
    · exact Or.inr ⟨result, hok, hunused, hanswered⟩

/-- A command that is there stays as long as its session does. -/
theorem command_kept (hsound : db.Sound) (further : List AgentInput) {row : AgentCommand}
    (hrow : row ∈ db.commands.rows) (hsession : row.sessionId ∈ db.workspaces.keys)
    (hlater : row.sessionId ∈ (System.run step db further).workspaces.keys) :
    row ∈ (System.run step db further).commands.rows := by
  obtain ⟨w, hw, hid⟩ := (Table.mem_keys _).mp hsession
  refine (keepsCommands_run hsound further).commands row hrow ?_ hlater
  rw [← hid]
  exact hsound.session_issued w hw

/-- Commands take effect once. -/
structure AgentDb.CommandsOnce (db : AgentDb) : Prop where
  effect : ∀ call later userId key (command : ClientCommand),
    step db ⟨call, later, command.op userId key⟩ = db ∨
      ∃ result, command.body call userId key db =
          .ok result (step db ⟨call, later, command.op userId key⟩) ∧
        db.commands.find? (userId, key) = none ∧
        (step db ⟨call, later, command.op userId key⟩).Answered userId key command.request result
  once : ∀ call later userId key (command : ClientCommand),
    step db ⟨call, later, command.op userId key⟩ ≠ db →
      ∃ row ∈ (step db ⟨call, later, command.op userId key⟩).commands.rows,
        Commanded userId key command.request row ∧ ∀ further,
          row.sessionId ∈ (System.run step db
              (⟨call, later, command.op userId key⟩ :: further)).workspaces.keys →
            ∀ call' later' (repeated : ClientCommand),
              step (System.run step db (⟨call, later, command.op userId key⟩ :: further))
                  ⟨call', later', repeated.op userId key⟩ =
                System.run step db (⟨call, later, command.op userId key⟩ :: further)
  kept : ∀ further, ∀ row ∈ db.commands.rows, row.sessionId ∈ db.workspaces.keys →
    row.sessionId ∈ (System.run step db further).workspaces.keys →
      row ∈ (System.run step db further).commands.rows
  repeated : ∀ row ∈ db.commands.rows, ∀ call (command : ClientCommand),
    Repeats db row command.request (command.body call row.userId row.idempotencyKey)
  answered : ∀ row ∈ db.commands.rows, ∀ w ∈ db.workspaces.rows, w.session.id = row.sessionId →
    w.session.userId = row.userId → w.session.status ≠ .deleting →
      ∀ call (command : ClientCommand), command.request = row.requestHash →
        command.body call row.userId row.idempotencyKey db = .ok row.result db

/-- The same request is answered with the stored result, when the session is there, the user's and
not being deleted. -/
theorem Repeats.answered {row : AgentCommand} {body : Txn Failure AgentDb CommandResult}
    (h : Repeats db row request body) (hsame : request = row.requestHash) {w : Workspace}
    (hw : w ∈ db.workspaces.rows) (hid : w.session.id = row.sessionId)
    (howner : w.session.userId = row.userId) (hstatus : w.session.status ≠ .deleting) :
    body db = .ok row.result db := by
  cases hbody : body db with
  | ok result db' =>
    obtain ⟨-, rfl, rfl⟩ := h.of_ok hbody
    rfl
  | error failure db' =>
    rcases h.of_error hbody with ⟨-, ⟨-, hnone⟩ | ⟨-, v, hv, hvid, -, hdeleting⟩⟩ | ⟨hother, -⟩
    · exact absurd howner (hnone w hw hid)
    · obtain rfl := AgentDb.workspace_eq hv hw (hvid.trans hid.symm)
      exact absurd hdeleting hstatus
    · exact absurd hsame.symm hother

theorem AgentDb.Sound.commandsOnce (hsound : db.Sound) : db.CommandsOnce where
  effect := commands_effect db
  once call later userId key command hchanged := by
    obtain ⟨result, -, -, row, hrow, hcommanded, -, hsession⟩ :=
      (commands_effect db call later userId key command).resolve_left hchanged
    refine ⟨row, hrow, hcommanded, fun further hlater call' later' repeated ↦ ?_⟩
    have hkept := command_kept (hsound.step _) further hrow hsession hlater
    refine (commands_effect _ call' later' userId key repeated).resolve_right ?_
    rintro ⟨_, -, hunused, -⟩
    refine (Table.find?_eq_none_iff _).mp hunused row hkept ?_
    exact Prod.ext hcommanded.1 hcommanded.2.1
  kept _ _ hrow hsession hlater := command_kept hsound _ hrow hsession hlater
  repeated row hrow call command := command.repeats (Table.find?_of_mem _ hrow rfl)
  answered row hrow w hw hid howner hstatus call command hsame :=
    (command.repeats (Table.find?_of_mem _ hrow rfl)).answered hsame hw hid howner hstatus

/-- In every state that a run of the system reaches, commands take effect once. -/
theorem commands_once (board : Board) (inputs : List AgentInput) :
    (System.run step (.start board) inputs).CommandsOnce :=
  (sound_run board inputs).commandsOnce

end FilmOS.Agent
