import FilmOS.Agent.RunLife
import FilmOS.Board.Runs

/-!
# That a run can always be ended

When a run ends, the run of the next screenshot is entered as a command under the key
`recognize-after:` with the identifier of the run that ended, in the keys of the session's user.
Users choose the keys of their own commands among the same texts, and a command under that key makes
the end of the run fail: the worker cannot finish it, the worker cannot fail it, and the watchdog
stops at it for all sessions (`blocked_by_key`).

`Clear` is the condition that no client takes such a key of an open run of its own that has a
further screenshot to go on with (`HasFollowUp`), or of a run that is still to come. In every run of
the system in which all calls meet it, no end of a run meets a command in its way
(`terminal_never_blocked`): as long as a run is open no further screenshot comes to wait, so a key
that was harmless when it was taken stays so.
-/

set_option autoImplicit false
set_option relaxedAutoImplicit false

namespace FilmOS.Agent

open Transaction AgentDb PythonText

variable {call : Call} {later : Time} {db db' : AgentDb} {permit : Permit}

/-! ### Keys -/

/-- The user and the idempotency key of a request of a client. -/
def AgentOp.client : AgentOp → Option (Id × String)
  | .createSession userId key _ | .enterWorkspace userId key _ | .retryRun _ userId key _
  | .changeStatus _ userId key _ | .itemCommand _ userId key .. | .nextItem _ userId key ..
  | .archiveScreenshot _ userId key .. | .deleteScreenshot _ userId key _
  | .planCommand _ userId key .. => some (userId, key)
  | _ => none

/-- The run is open and one of the recognition queue, and a screenshot of its session waits, so that
its end may enter a command under its key. -/
structure Workspace.HasFollowUp (w : Workspace) (run : AgentRun) : Prop where
  isOpen : run.status.IsOpen
  workbench : run.config.intakeWorkbench = true
  waits : w.awaiting ≠ []

/-- The identifier was drawn, and it is not that of a run of the user that has a follow-up. -/
structure AgentDb.Spent (db : AgentDb) (userId runId : Id) : Prop where
  issued : runId ∈ db.board.issued
  settled : ∀ w ∈ db.workspaces.rows, w.session.userId = userId → ∀ run ∈ w.runs.rows,
    run.id = runId → ¬ w.HasFollowUp run

/-- A client does not use the key that belongs to the end of a run of its own that has a follow-up,
or to a run that is still to come. -/
def Clear (db : AgentDb) (input : AgentInput) : Prop :=
  ∀ client ∈ input.op.client, ∀ runId, client.2 = recognizeAfterKey runId → db.Spent client.1 runId

/-- The invariant: a command under the key of a run is of a run without a follow-up. -/
structure AgentDb.Unblocked (db : AgentDb) : Prop where
  sound : db.Sound
  spent : ∀ command ∈ db.commands.rows, ∀ runId,
    command.idempotencyKey = recognizeAfterKey runId → db.Spent command.userId runId

theorem recognizeAfterKey_injective : Function.Injective recognizeAfterKey := by
  intro runId runId' h
  have hlists := congrArg String.toList h
  unfold recognizeAfterKey at hlists
  rw [String.toList_append, String.toList_append] at hlists
  exact String.toList_injective (List.append_cancel_left hlists)

theorem AgentDb.Spent.progress {userId runId : Id} (hspent : db.Spent userId runId)
    (hsound : db.Sound) (h : Progress permit db db') : db'.Spent userId runId where
  issued := h.issued hspent.issued
  settled w' hw' huser run' hrun' hid hfollowUp := by
    obtain ⟨w, hw, hevolves, hkey⟩ := h.evolves_of_run hw' hrun' (hid ▸ hspent.issued)
    obtain ⟨run, hrun, hsame, hopen, -, hconfig⟩ :=
      hevolves.changes.open_run (hsound.workspace w hw).traced hrun' hfollowUp.isOpen hkey
    have huser' : w.session.userId = userId := hevolves.changes.owner.2.1.symm.trans huser
    have hwaits : w'.awaiting ⊆ w.awaiting := fun id hid ↦ hevolves.awaiting hrun hopen id hid
    refine hspent.settled w hw huser' run hrun (hsame.trans hid) ⟨hopen, ?_, fun hnone ↦ ?_⟩
    · rw [← hconfig]
      exact hfollowUp.workbench
    · rw [hnone] at hwaits
      exact hfollowUp.waits (List.subset_nil.mp hwaits)

theorem AgentDb.FollowUp.spent {command : AgentCommand} (h : db.FollowUp command) {runId : Id}
    (hkey : command.idempotencyKey = recognizeAfterKey runId) (userId : Id) :
    db.Spent userId runId := by
  obtain ⟨followed, itemId, -, hfollowed, hissued, hended⟩ := h
  obtain rfl := recognizeAfterKey_injective (hfollowed.symm.trans hkey)
  refine ⟨hissued, fun w hw _ run hrun hid hfollowUp ↦ ?_⟩
  exact ended_job_iff.mp (hended w hw run.job (List.mem_map_of_mem hrun) hid) hfollowUp.isOpen

/-- The invariant is kept by transactions whose commands leave the keys of open runs alone. -/
theorem AgentDb.Unblocked.progress (h : db.Unblocked) (hprogress : Progress permit db db')
    (hcommand : ∀ command, permit.command command → ∀ runId,
      command.idempotencyKey = recognizeAfterKey runId → db.Spent command.userId runId) :
    db'.Unblocked where
  sound := h.sound.progress hprogress
  spent command hmem runId hkey := by
    rcases hprogress.commands command hmem with hold | hnew | hfollow
    · exact (h.spent command hold runId hkey).progress h.sound hprogress
    · exact (hcommand command hnew runId hkey).progress h.sound hprogress
    · exact hfollow.spent hkey command.userId

theorem AgentDb.Unblocked.step (h : db.Unblocked) {input : AgentInput} (hclear : Clear db input) :
    (step db input).Unblocked := by
  refine h.progress (progress_step h.sound input) ?_
  obtain ⟨call, later, op⟩ := input
  have hclient : ∀ {userId : Id} {key : String} {request : CommandRequest},
      op.client = some (userId, key) → ∀ command, Commanded userId key request command →
        ∀ runId, command.idempotencyKey = recognizeAfterKey runId →
          db.Spent command.userId runId := by
    rintro userId key request hop command ⟨rfl, rfl, -⟩ runId hkey
    exact hclear _ hop runId hkey
  cases op with
  | createSession | enterWorkspace | retryRun | changeStatus | itemCommand | nextItem
  | archiveScreenshot | deleteScreenshot | planCommand => exact hclient rfl
  | _ => exact fun _ hcommand ↦ False.elim hcommand

/-! ### The end of a run -/

/-- The failure of a command whose key is taken. -/
def keyTaken : Failure := .integrityError "uq_agent_commands_user_key"

/-- A body ends without meeting a command in its way. -/
abbrev Unhindered {α : Type} (body : Txn Failure AgentDb α) (db : AgentDb) : Prop :=
  Ends body db (fun _ _ ↦ True) (fun failure _ ↦ failure ≠ keyTaken)

theorem ends_generateId {returns : Id → AgentDb → Prop} {raises : Failure → AgentDb → Prop}
    (h : ∀ id board, returns id { db with board }) :
    Ends (generateId call) db returns raises :=
  h _ _

theorem unhindered_addCommand {command : AgentCommand}
    (hfree : db.commands.find? (command.userId, command.idempotencyKey) = none) :
    Unhindered (addCommand command) db := by
  have hinsert : (db.commands.insert? command).isSome := by
    unfold Table.insert?
    rw [dif_neg]
    · rfl
    · intro hkey
      obtain ⟨row, hrow, hrowKey⟩ := (Table.mem_keys _).mp hkey
      exact (Table.find?_eq_none_iff _).mp hfree row hrow hrowKey
  obtain ⟨commands, hcommands⟩ := Option.isSome_iff_exists.mp hinsert
  have hok : addCommand command db = .ok () { db with commands } :=
    addCommand_eq_ok.mpr ⟨commands, hcommands, rfl⟩
  exact ends_of_ok hok trivial

theorem ends_addRun {w : Workspace} {run : AgentRun} :
    Ends (checked (w.addRun run) : Txn Failure AgentDb Workspace) db
      (fun w' db' ↦ w'.session = w.session ∧ db' = db) (fun failure _ ↦ failure ≠ keyTaken) := by
  unfold Workspace.addRun
  cases w.runs.insert? run with
  | some runs => exact ends_checked (fun w' h ↦ ⟨Except.ok.inj h ▸ rfl, rfl⟩) (fun _ h ↦ nomatch h)
  | none => exact ends_checked (fun _ h ↦ nomatch h) (fun _ h ↦ Except.error.inj h ▸ by decide)

theorem unhindered_queueRecognition {runId : Id} {pending : OrderIntakeItem} {w : Workspace}
    (hfree : db.commands.find? (w.session.userId, recognizeAfterKey runId) = none) :
    Unhindered (queueRecognition call runId pending w) db := by
  have hid : ∀ s : AgentDb, s.commands = db.commands →
      Ends (generateId call) s (fun _ s' ↦ s'.commands = db.commands)
        (fun failure _ ↦ failure ≠ keyTaken) :=
    fun s hs ↦ ends_generateId fun _ _ ↦ hs
  unfold queueRecognition
  refine (hid db rfl).bind fun commandId s₁ hs₁ ↦ (hid s₁ hs₁).bind fun followingId s₂ hs₂ ↦ ?_
  refine ends_addRun.bind fun w' s₃ ⟨hsession, hs₃⟩ ↦ ?_
  obtain rfl := hs₃
  refine Ends.bind (unhindered_addCommand ?_) fun _ _ _ ↦ ends_pure trivial
  rw [hs₂]
  change db.commands.find? (w'.session.userId, _) = none
  rw [hsession]
  exact hfree

theorem unhindered_checked {α : Type} {value : Except Failure α}
    (h : ∀ failure, value = .error failure → failure = .attributeError) :
    Unhindered (checked value) db :=
  ends_checked (fun _ _ ↦ trivial) fun failure herror ↦ by
    rw [h failure herror]
    decide

theorem recordFailure_error {run : AgentRun} {w : Workspace} {failure : Failure}
    (h : recordFailure call run w = .error failure) : failure = .attributeError := by
  unfold recordFailure at h
  split at h
  · cases h
  · split at h
    · exact (Except.error.inj h).symm
    · split_ifs at h

theorem advanceReview_error {w : Workspace} {failure : Failure}
    (h : advanceReview call w = .error failure) : failure = .attributeError := by
  unfold advanceReview at h
  split at h
  · cases h
  · split at h
    · exact (Except.error.inj h).symm
    · split_ifs at h

theorem unhindered_continueRecognition {run : AgentRun} {w : Workspace}
    (hfree : run.config.intakeWorkbench = true → w.awaiting ≠ [] →
      db.commands.find? (w.session.userId, recognizeAfterKey run.id) = none) :
    Unhindered (continueRecognition call run w) db := by
  unfold continueRecognition
  split_ifs with hskip
  · exact ends_pure trivial
  · have hworkbench : run.config.intakeWorkbench = true :=
      Bool.eq_true_of_not_eq_false fun hno ↦ hskip (Or.inl hno)
    have hrecord : Ends (checked (recordFailure call run w) : Txn Failure AgentDb Workspace) db
        (fun w' db' ↦ w.Changes {} (fun _ ↦ False) w' ∧ db' = db)
        (fun failure _ ↦ failure ≠ keyTaken) := by
      refine ends_checked (fun w' h ↦ ⟨recordFailure_changes h, rfl⟩) fun failure h ↦ ?_
      rw [recordFailure_error h]
      decide
    refine hrecord.bind fun w' s ⟨hchanges, hs⟩ ↦ ?_
    obtain rfl := hs
    cases hnext : w'.nextScreenshot with
    | some pending =>
      -- The screenshot waited before the failure was recorded.
      obtain ⟨hpending, hawaits⟩ := nextScreenshot_eq_some hnext
      have hwaits : pending.id ∈ w.awaiting := hchanges.awaiting (fun h ↦ h) pending.id
        (Workspace.mem_awaiting.mpr ⟨pending, hpending, hawaits, rfl⟩)
      refine unhindered_queueRecognition ?_
      rw [hchanges.owner.2.1]
      exact hfree hworkbench (List.ne_nil_of_mem hwaits)
    | none => exact unhindered_checked fun _ h ↦ advanceReview_error h

/-- No command is in the way of the end of an open run that goes on with a screenshot. -/
theorem AgentDb.Unblocked.free (h : db.Unblocked) {w : Workspace} (hw : w ∈ db.workspaces.rows)
    {run : AgentRun} (hrun : run ∈ w.runs.rows) (hopen : run.status.IsOpen)
    (hworkbench : run.config.intakeWorkbench = true) (hwaits : w.awaiting ≠ []) :
    db.commands.find? (w.session.userId, recognizeAfterKey run.id) = none := by
  cases hfind : db.commands.find? (w.session.userId, recognizeAfterKey run.id) with
  | none => rfl
  | some command =>
    obtain ⟨hmem, hkey⟩ := (Table.find?_eq_some_iff _).mp hfind
    obtain ⟨huser, hkey⟩ := Prod.mk.inj hkey
    exact absurd ⟨hopen, hworkbench, hwaits⟩
      ((h.spent command hmem run.id hkey).settled w hw huser.symm run hrun rfl)

theorem unhindered_failLocked {w : Workspace} {run : AgentRun} {code message : String}
    (hfree : run.config.intakeWorkbench = true → w.awaiting ≠ [] →
      db.commands.find? (w.session.userId, recognizeAfterKey run.id) = none) :
    Unhindered (failLocked call later w run code message) db := by
  have hmarked : w.Changes .worker (fun _ ↦ False) (w.markFailed call later run code message) :=
    markFailed_changes trivial
  have hawaiting : (w.markFailed call later run code message).awaiting ⊆ w.awaiting :=
    fun id hid ↦ hmarked.awaiting (fun h ↦ h) id hid
  unfold failLocked
  refine Ends.bind (unhindered_continueRecognition fun hworkbench hwaits ↦ ?_) fun _ _ _ ↦
    ends_pure trivial
  change db.commands.find? ((w.markFailed call later run code message).session.userId, _) = none
  rw [hmarked.owner.2.1]
  refine hfree hworkbench fun hnone ↦ hwaits (List.subset_nil.mp ?_)
  rwa [hnone] at hawaiting

theorem unhindered_save (w : Workspace) : Unhindered (save w) db := trivial

/-- What a worker finds under its lease, or it has lost the run. -/
theorem ends_lockRun_open {context : RunContext} : Ends (lockRun call context) db
    (fun found db' ↦ db' = db ∧ found.1 ∈ db.workspaces.rows ∧ found.2 ∈ found.1.runs.rows ∧
      found.2.status.IsOpen) (fun failure _ ↦ failure ≠ keyTaken) := by
  refine ends_of_results (fun found s hok ↦ ?_) fun failure s herror ↦ ?_
  · obtain ⟨⟨hw, -⟩, ⟨hrun, -⟩, hholds, hsame⟩ := lockRun_eq_ok.mp hok
    exact ⟨hsame.symm, hw, hrun, hholds.isOpen⟩
  · rw [ends_lockRun.of_error herror]
    decide

theorem AgentDb.Unblocked.unhindered_failRun (h : db.Unblocked) (context : RunContext)
    (code message : String) : Unhindered (failRun call later context code message) db := by
  unfold failRun
  refine ends_lockRun_open.bind ?_
  rintro ⟨w, run⟩ s ⟨rfl, hw, hrun, hopen⟩
  exact Ends.bind (unhindered_failLocked (h.free hw hrun hopen)) fun w' _ _ ↦ unhindered_save w'

theorem AgentDb.Unblocked.unhindered_finalize (h : db.Unblocked) (context : RunContext)
    (result : RunResult) : Unhindered (finalize call later context result) db := by
  unfold finalize
  have hvalid : Ends (require (strip result.text ≠ "" ∧ result.text.length ≤ 20000)
      (.valueError "invalid final response") : Txn Failure AgentDb Unit) db (fun _ s ↦ s = db)
      (fun failure _ ↦ failure ≠ keyTaken) := ends_require (fun _ ↦ rfl) fun _ ↦ by decide
  refine hvalid.bind ?_
  rintro _ s rfl
  refine ends_lockRun_open.bind ?_
  rintro ⟨w, run⟩ s' ⟨rfl, hw, hrun, hopen⟩
  have hfree := h.free hw hrun hopen
  have hid : Ends (generateId call) s' (fun _ s ↦ s.commands = s'.commands)
      (fun failure _ ↦ failure ≠ keyTaken) := ends_generateId fun _ _ ↦ rfl
  refine hid.bind fun messageId s hcommands ↦ ?_
  refine Ends.bind (unhindered_continueRecognition fun hworkbench hwaits ↦ ?_) fun w' s₂ _ ↦
    Ends.bind (unhindered_save _) fun _ _ _ ↦ ends_pure trivial
  rw [hcommands]
  exact hfree hworkbench hwaits

theorem AgentDb.Unblocked.unhindered_claim (h : db.Unblocked) (workerId : String)
    (candidates skipped : List Id) :
    Unhindered (claim call later workerId candidates skipped) db := by
  unfold claim
  have hget : Ends (get : Txn Failure AgentDb AgentDb) db (fun t s ↦ t = db ∧ s = db)
      (fun failure _ ↦ failure ≠ keyTaken) := ⟨rfl, rfl⟩
  refine hget.bind ?_
  rintro t s ⟨rfl, rfl⟩
  cases hclaimable : claimable s candidates skipped with
  | none => exact ends_pure trivial
  | some w =>
    obtain ⟨hw, -⟩ := mem_claimable hclaimable
    have hfound : Ends (orRaise (w.runs.rows.find? (·.status = .queued)) .noResultFound :
        Txn Failure AgentDb AgentRun) s
        (fun run s' ↦ s' = s ∧ run ∈ w.runs.rows ∧ run.status = .queued)
        (fun failure _ ↦ failure ≠ keyTaken) := by
      refine ends_orRaise (fun run hrun ↦ ⟨rfl, List.mem_of_find?_eq_some hrun, ?_⟩)
        fun _ ↦ by decide
      simpa using List.find?_some hrun
    refine hfound.bind ?_
    rintro run s' ⟨rfl, hrun, hqueued⟩
    split_ifs
    · exact Ends.bind (unhindered_failLocked (h.free hw hrun (Or.inl hqueued))) fun w' _ _ ↦
        Ends.bind (unhindered_save w') fun _ _ _ ↦ ends_pure trivial
    · have htoken : Unhindered (generateId call) s' := ends_generateId fun _ _ ↦ trivial
      exact htoken.bind fun token s _ ↦ Ends.bind (unhindered_save _) fun _ _ _ ↦ ends_pure trivial

theorem AgentDb.Unblocked.unhindered_expireSession (h : db.Unblocked) (sessionId : Id) :
    Unhindered (expireSession call later sessionId) db := by
  unfold expireSession
  have hget : Ends (get : Txn Failure AgentDb AgentDb) db (fun t s ↦ t = db ∧ s = db)
      (fun failure _ ↦ failure ≠ keyTaken) := ⟨rfl, rfl⟩
  refine hget.bind ?_
  rintro t s ⟨rfl, rfl⟩
  cases hfind : (s.workspaces.find? sessionId).bind (fun w ↦ w.openRun.map (w, ·)) with
  | none => exact ends_pure trivial
  | some found =>
    obtain ⟨w, run⟩ := found
    obtain ⟨w', hw, hpair⟩ := Option.bind_eq_some_iff.mp hfind
    obtain ⟨run', hrun, heq⟩ := Option.map_eq_some_iff.mp hpair
    obtain ⟨rfl, rfl⟩ := Prod.mk.inj heq
    have hopen : run'.status.IsOpen := by simpa using List.find?_some hrun
    dsimp only
    split
    · exact ends_pure trivial
    · have hfree := h.free (mem_of_find? hw).1 (List.mem_of_find?_eq_some hrun) hopen
      exact Ends.bind (unhindered_failLocked hfree) fun w' _ _ ↦
        Ends.bind (unhindered_save w') fun _ _ _ ↦ ends_pure trivial

/-- The watchdog goes on with the next session in a state without blocked runs. -/
theorem AgentDb.Unblocked.unhindered_expireSessions (h : db.Unblocked) (sessionIds : List Id) :
    Unhindered (expireSessions call later sessionIds) db := by
  induction sessionIds generalizing db with
  | nil => exact ends_pure trivial
  | cons sessionId sessionIds ih =>
    unfold expireSessions
    have hfirst : Ends (expireSession call later sessionId) db (fun _ s ↦ s.Unblocked)
        (fun failure _ ↦ failure ≠ keyTaken) := by
      refine ends_of_results (fun count s hok ↦ ?_) fun failure s herror ↦ ?_
      · exact h.progress (progress_expireSession h.sound hok) fun _ hcommand ↦ False.elim hcommand
      · exact (h.unhindered_expireSession sessionId).of_error herror
    exact hfirst.bind fun count s hs ↦ Ends.bind (ih hs) fun _ _ _ ↦ ends_pure trivial

theorem AgentDb.Unblocked.unhindered_expireRuns (h : db.Unblocked) (limit : ℕ)
    (candidates skipped : List Id) :
    Unhindered (expireRuns call later limit candidates skipped) db :=
  h.unhindered_expireSessions _

/-! ### Every run of the system -/

/-- No end of a run fails because its key is taken: not when the worker finishes it or fails it, nor
when it has waited too long, nor when the watchdog finds it. -/
structure AgentDb.Terminable (db : AgentDb) : Prop where
  finalize : ∀ call later context result s,
    Agent.finalize call later context result db ≠ .error keyTaken s
  failRun : ∀ call later context code message s,
    Agent.failRun call later context code message db ≠ .error keyTaken s
  claim : ∀ call later workerId candidates skipped s,
    Agent.claim call later workerId candidates skipped db ≠ .error keyTaken s
  expireRuns : ∀ call later limit candidates skipped s,
    Agent.expireRuns call later limit candidates skipped db ≠ .error keyTaken s

theorem AgentDb.Unblocked.terminable (h : db.Unblocked) : db.Terminable where
  finalize _ _ context result _ herror := (h.unhindered_finalize context result).of_error herror rfl
  failRun _ _ context code message _ herror :=
    (h.unhindered_failRun context code message).of_error herror rfl
  claim _ _ workerId candidates skipped _ herror :=
    (h.unhindered_claim workerId candidates skipped).of_error herror rfl
  expireRuns _ _ limit candidates skipped _ herror :=
    (h.unhindered_expireRuns limit candidates skipped).of_error herror rfl

/-- As long as no client takes the key that belongs to a run of its own that has a follow-up or to a
run that is still to come, every run can be ended in every state that is reached. -/
theorem terminal_never_blocked {board : Board} {inputs : List AgentInput}
    (hclear : System.Meets step Clear (.start board) inputs) :
    (System.run step (.start board) inputs).Terminable := by
  have hstart : (AgentDb.start board).Unblocked :=
    ⟨.start board, fun _ h ↦ absurd h List.not_mem_nil⟩
  exact (System.invariant_run (fun _ _ h hinput ↦ h.step hinput) inputs _ hstart hclear).terminable

/-- Two screenshots are sent for recognition, and a worker claims the run of the first one. -/
def twoScreenshots : List AgentInput :=
  [⟨⟨0, "20260101", IdSource.longer⟩, 0,
      .createSession "user" "session" ⟨.orderIntake, none⟩⟩,
    ⟨⟨1, "20260101", IdSource.longer⟩, 1,
      .upload "f" "user" "first" "sha" (.ok ⟨"sha", "image/png", 1, 1, 1⟩)⟩,
    ⟨⟨2, "20260101", IdSource.longer⟩, 2,
      .upload "f" "user" "second" "other" (.ok ⟨"other", "image/png", 1, 1, 1⟩)⟩,
    ⟨⟨3, "20260101", IdSource.longer⟩, 3,
      .acceptMessage "f" "user" ⟨"message", "", ["fff", "ffff"], 1, none, by decide, by decide⟩
        .recognize⟩,
    ⟨⟨4, "20260101", IdSource.longer⟩, 4, .claim "worker" ["f"] []⟩]

/-- The user asks for a further session, under the key that belongs to the end of the run. -/
def keyTaking : AgentInput :=
  ⟨⟨5, "20260101", IdSource.longer⟩, 5,
    .createSession "user" (recognizeAfterKey "ffffffff") ⟨.orderIntake, none⟩⟩

/-- What the worker knows of the run of the first screenshot. -/
def firstContext : RunContext :=
  ⟨"ffffffff", "f", "user", some "ffffff", "fffffffff", "", "", 2⟩

/-- The failure that a body raises. -/
def raised {α : Type} : EStateM.Result Failure AgentDb α → Option Failure
  | .ok _ _ => none
  | .error failure _ => some failure

/-- The run cannot be ended any more: its worker can neither finish nor fail it, and the watchdog
stops at it. -/
theorem blocked_by_key :
    raised (finalize ⟨6, "20260101", IdSource.longer⟩ 6 firstContext ⟨"done", .answered⟩
      (System.run step (.start Board.empty) (twoScreenshots ++ [keyTaking]))) = some keyTaken ∧
    raised (failRun ⟨6, "20260101", IdSource.longer⟩ 6 firstContext "GRAPH_FAILED" "failed"
      (System.run step (.start Board.empty) (twoScreenshots ++ [keyTaking]))) = some keyTaken ∧
    raised (expireRuns ⟨seconds 700, "20260101", IdSource.longer⟩ (seconds 700) 10 ["f"] []
      (System.run step (.start Board.empty) (twoScreenshots ++ [keyTaking]))) = some keyTaken := by
  refine ⟨?_, ?_, ?_⟩
  · decide +kernel
  · decide +kernel
  · decide +kernel

/-- A key that a client has chosen otherwise is no key of a run. -/
theorem session_ne_recognizeAfterKey (runId : Id) : "session" ≠ recognizeAfterKey runId := by
  intro h
  have hlists := congrArg String.toList h
  unfold recognizeAfterKey at hlists
  rw [String.toList_append] at hlists
  cases hlists

/-- Without the request that takes its key, every run of the two screenshots can be ended. -/
theorem terminal_never_blocked_sample :
    (System.run step (.start Board.empty) twoScreenshots).Terminable := by
  refine terminal_never_blocked ⟨?_, ?_, ?_, ?_, ?_, trivial⟩
  · rintro _ ⟨rfl⟩ runId hkey
    exact absurd hkey (session_ne_recognizeAfterKey runId)
  all_goals
    rintro _ ⟨⟩

end FilmOS.Agent
