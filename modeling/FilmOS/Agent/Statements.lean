import FilmOS.Agent.Progress

/-!
# The shared statements

What the statements that all agent services share have done when they returned: reading a session
under its lock, drawing an identifier, entering a command or a clean-up job, and answering a
repeated command.
-/

set_option autoImplicit false
set_option relaxedAutoImplicit false

namespace FilmOS.Agent

open Transaction AgentDb

variable {call : Call} {db db' : AgentDb} {command : AgentCommand → Prop}
  {permit : Permit}

/-! ### Reading -/

theorem mem_of_find? {w : Workspace} {sessionId : Id} (h : db.workspaces.find? sessionId = some w) :
    w ∈ db.workspaces.rows ∧ w.session.id = sessionId :=
  (Table.find?_eq_some_iff _).mp h

/-- A session is read when it is the user's, is not being deleted, and is active when it is to be
changed. -/
theorem requireSession_eq_ok {sessionId userId : Id} {writable : Bool} {w : Workspace} :
    requireSession sessionId userId writable db = .ok w db' ↔
      (w ∈ db.workspaces.rows ∧ w.session.id = sessionId) ∧ w.session.userId = userId ∧
        w.session.status ≠ .deleting ∧ (writable → w.session.status = .active) ∧ db = db' := by
  unfold requireSession
  simp only [get_bind_eq_ok, orRaise_bind_eq_ok, require_bind_eq_ok, pure_eq_ok,
    Option.filter_eq_some_iff, decide_eq_true_eq, Table.find?_eq_some_iff, key_workspace]
  constructor
  · rintro ⟨found, ⟨hfind, huser⟩, hdeleting, hactive, rfl, rfl⟩
    exact ⟨hfind, huser, hdeleting, hactive, rfl⟩
  · rintro ⟨hfind, huser, hdeleting, hactive, rfl⟩
    exact ⟨w, ⟨hfind, huser⟩, hdeleting, hactive, rfl, rfl⟩

theorem openRun_eq_none_iff {w : Workspace} :
    w.openRun = none ↔ w.Idle := by
  unfold Workspace.openRun Workspace.Idle Workspace.dispatch
  simp only [List.find?_eq_none, decide_eq_true_eq, List.forall_mem_map, ended_job_iff]

@[simp] theorem requireIdle_eq_ok {w : Workspace} {u : Unit} :
    requireIdle w db = .ok u db' ↔ w.Idle ∧ db = db' := by
  unfold requireIdle
  rw [require_eq_ok, openRun_eq_none_iff]

/-! ### Writing -/

theorem onBoard_eq_ok {α : Type} {body : Txn Failure Board α} {a : α} :
    onBoard body db = .ok a db' ↔
      ∃ board, body db.board = .ok a board ∧ db' = { db with board } := by
  unfold onBoard
  cases body db.board with
  | ok b board =>
    simp only [EStateM.Result.ok.injEq]
    constructor
    · rintro ⟨rfl, rfl⟩
      exact ⟨board, ⟨rfl, rfl⟩, rfl⟩
    · rintro ⟨board', ⟨rfl, rfl⟩, rfl⟩
      exact ⟨rfl, rfl⟩
  | error e board => simp

/-- Work on the board prepares, when it takes no identifier back. -/
theorem prepares_onBoard {α : Type} {body : Txn Failure Board α} {a : α}
    (h : onBoard body db = .ok a db')
    (hboard : ∀ board, body db.board = .ok a board →
      db.board.issued ⊆ board.issued ∧
        (¬ permit.order → board.orders.keys = db.board.orders.keys) ∧
        (¬ permit.plan → board.plans = db.board.plans)) :
    Prepares command permit db db' := by
  obtain ⟨board, hbody, rfl⟩ := onBoard_eq_ok.mp h
  obtain ⟨hissued, horders, hplans⟩ := hboard board hbody
  exact ⟨rfl, hissued, fun _ h ↦ Or.inl h, fun _ h ↦ h, horders, hplans, fun _ ↦ rfl⟩

theorem generateId_eq_ok {id : Id} :
    generateId call db = .ok id db' ↔ id = call.source.pick db.board.usedIds ∧
      db' = { db with board := { db.board with issued := id :: db.board.issued } } := by
  unfold generateId Board.generateId
  rw [onBoard_eq_ok]
  simp only [get_bind_eq_ok, set_bind_eq_ok, pure_eq_ok]
  constructor
  · rintro ⟨board, ⟨rfl, rfl⟩, rfl⟩
    exact ⟨rfl, rfl⟩
  · rintro ⟨rfl, rfl⟩
    exact ⟨_, ⟨rfl, rfl⟩, rfl⟩

theorem prepares_generateId {id : Id} (h : generateId call db = .ok id db') :
    Prepares command permit db db' := by
  obtain ⟨-, rfl⟩ := generateId_eq_ok.mp h
  exact ⟨rfl, List.subset_cons_self _ _, fun _ h ↦ Or.inl h, fun _ h ↦ h, fun _ ↦ rfl,
    fun _ ↦ rfl, fun _ ↦ rfl⟩

/-- A drawn identifier is fresh. -/
theorem fresh_generateId {id : Id} (h : generateId call db = .ok id db') : Fresh db db' id := by
  obtain ⟨rfl, rfl⟩ := generateId_eq_ok.mp h
  exact ⟨fun hmem ↦ call.source.fresh db.board.usedIds (db.board.issued_subset_usedIds hmem),
    List.mem_cons_self⟩

theorem addCommand_eq_ok {row : AgentCommand} {u : Unit} :
    addCommand row db = .ok u db' ↔
      ∃ commands, db.commands.insert? row = some commands ∧ db' = { db with commands } := by
  unfold addCommand
  simp only [get_bind_eq_ok, orRaise_bind_eq_ok, set_eq_ok]
  exact exists_congr fun commands ↦ and_congr_right fun _ ↦ eq_comm

theorem prepares_addCommand {row : AgentCommand} {u : Unit} (h : addCommand row db = .ok u db')
    (hrow : command row) : Prepares command permit db db' := by
  obtain ⟨commands, hinsert, rfl⟩ := addCommand_eq_ok.mp h
  have hrows := ((Table.insert?_eq_some_iff _ _ _).mp hinsert).2
  refine ⟨rfl, List.Subset.refl _, fun c hc ↦ ?_, fun c hc ↦ ?_, fun _ ↦ rfl, fun _ ↦ rfl,
    fun _ ↦ rfl⟩
  · rw [hrows] at hc
    rcases List.mem_append.mp hc with hc | hc
    · exact Or.inl hc
    · rw [List.mem_singleton.mp hc]
      exact Or.inr hrow
  · change c ∈ commands.rows
    rw [hrows]
    exact List.mem_append_left _ hc

/-- What the clean-up may do. -/
def Permit.cleaning : Permit := { files := True }

theorem prepares_addGcJob (hfiles : permit.files) {sessionId : Option Id}
    {attachment : ChatAttachment} {u : Unit}
    (h : addGcJob call sessionId attachment db = .ok u db') : Prepares command permit db db' := by
  unfold addGcJob at h
  obtain ⟨id, db₁, hid, h⟩ := bind_eq_ok.mp h
  simp only [get_bind_eq_ok, orRaise_bind_eq_ok, set_eq_ok] at h
  obtain ⟨gcJobs, -, rfl⟩ := h
  exact (prepares_generateId hid).trans
    ⟨rfl, List.Subset.refl _, fun _ h ↦ Or.inl h, fun _ h ↦ h, fun _ ↦ rfl, fun _ ↦ rfl,
      fun hnone ↦ absurd hfiles hnone⟩

theorem prepares_addGcJobs (hfiles : permit.files) {sessionId : Id}
    (attachments : List ChatAttachment) :
    ∀ {db db' : AgentDb} {u : Unit}, addGcJobs call sessionId attachments db = .ok u db' →
      Prepares command permit db db' := by
  induction attachments with
  | nil =>
    intro db db' u h
    obtain ⟨-, rfl⟩ := pure_eq_ok.mp h
    exact .refl db
  | cons attachment attachments ih =>
    intro db db' u h
    obtain ⟨_, db₁, hjob, h⟩ := bind_eq_ok.mp h
    exact (prepares_addGcJob hfiles hjob).trans (ih h)

theorem save_eq_ok {w : Workspace} {u : Unit} :
    save w db = .ok u db' ↔ { db with workspaces := db.workspaces.put w } = db' :=
  modify_eq_ok

/-! ### Repeated commands -/

/-- The command of a user under a key. -/
def Commanded (userId : Id) (key : String) (request : CommandRequest) (command : AgentCommand) :
    Prop :=
  command.userId = userId ∧ command.idempotencyKey = key ∧ command.requestHash = request

/-- A repeated command is answered from its row and changes nothing; any other is carried out. -/
theorem replaying_ok {userId : Id} {key : String} {request : CommandRequest}
    {body : Txn Failure AgentDb CommandResult} {result : CommandResult}
    (h : replaying userId key request body db = .ok result db') :
    (∃ row, db.commands.find? (userId, key) = some row ∧ row.requestHash = request ∧
      row.result = result ∧ db' = db) ∨
      db.commands.find? (userId, key) = none ∧ body db = .ok result db' := by
  unfold replaying at h
  simp only [get_bind_eq_ok] at h
  cases hfind : db.commands.find? (userId, key) with
  | none =>
    rw [hfind] at h
    exact Or.inr ⟨rfl, h⟩
  | some row =>
    rw [hfind] at h
    obtain ⟨hrequest, h⟩ := require_bind_eq_ok.mp h
    obtain ⟨w, db₁, hsession, h⟩ := bind_eq_ok.mp h
    obtain ⟨-, -, -, -, rfl⟩ := requireSession_eq_ok.mp hsession
    obtain ⟨rfl, rfl⟩ := pure_eq_ok.mp h
    exact Or.inl ⟨row, rfl, hrequest, rfl, rfl⟩

/-- A command makes progress when its body does. -/
theorem progress_replaying {userId : Id} {key : String}
    {request : CommandRequest} {body : Txn Failure AgentDb CommandResult} {result : CommandResult}
    (h : replaying userId key request body db = .ok result db')
    (hbody : body db = .ok result db' → Progress permit db db') : Progress permit db db' := by
  rcases replaying_ok h with ⟨row, -, -, -, rfl⟩ | ⟨-, h⟩
  · exact .refl _
  · exact hbody h

end FilmOS.Agent
