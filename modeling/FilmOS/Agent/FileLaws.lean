import FilmOS.Agent.Files
import FilmOS.Agent.Terminal
import FilmOS.Library.Vault

/-!
# Files are kept and given up

The sessions are folders of a vault, their clean-up jobs are its removal jobs (`Storage.vault`), and
every step of the storage is a sequence of moves of the vault (`Storage.Sound.step_moves`). A call
that may not touch files leaves the folders as they are (`folder_progress`); the calls that may are
read one by one: upload, deletion of a screenshot and of a session, the sweeps and the end of a
deletion.

`files_kept` says what follows: as long as its session is not being deleted, the file of a
screenshot is there, was never unlinked and can be read; the storage keys of the screenshots are
distinct, and those of the jobs are, so neither unique constraint is ever violated; and a session is
gone only when every file that it ever owned is.
-/

set_option autoImplicit false
set_option relaxedAutoImplicit false

namespace FilmOS.Agent

open Transaction AgentDb

variable {call : Call} {db db' : AgentDb} {permit : Permit} {w w' : Workspace}

/-! ### The vault -/

/-- A session as a folder. -/
def Workspace.folder (w : Workspace) : Folder String where
  closing := decide (w.session.status = .deleting)
  files := w.attachments.rows.map ChatAttachment.storageKey

/-- A clean-up job as the removal of a file. -/
def AgentFileGcJob.removal (job : AgentFileGcJob) : RemovalJob Id Id String where
  id := job.id
  file := job.storageKey
  owner := job.sessionId
  done := decide (job.status = .succeeded)

/-- The sessions as folders. -/
def AgentDb.folder (db : AgentDb) (id : Id) : Option (Folder String) :=
  (db.workspaces.find? id).map Workspace.folder

/-- The clean-up jobs as removals. -/
def AgentDb.removals (db : AgentDb) : List (RemovalJob Id Id String) :=
  db.gcJobs.rows.map AgentFileGcJob.removal

/-- The storage as a vault. -/
def Storage.vault (s : Storage) : Vault Id Id String where
  folders := s.db.folder
  jobs := s.db.removals
  disk := {name | name ∈ s.files.keys}
  written := {name | name ∈ s.written}
  drafts := {name | name ∈ s.uploads}
  listed := {name | ∃ keys ∈ s.sweeps, name ∈ keys}
  unlinked := {name | name ∈ s.unlinked}

theorem folder_eq_some_iff {id : Id} {folder : Folder String} : db.folder id = some folder ↔
    ∃ w ∈ db.workspaces.rows, w.session.id = id ∧ w.folder = folder := by
  unfold AgentDb.folder
  rw [Option.map_eq_some_iff]
  exact exists_congr fun w ↦ by rw [Table.find?_eq_some_iff, key_workspace, and_assoc]

theorem folder_of_mem (hw : w ∈ db.workspaces.rows) : db.folder w.session.id = some w.folder :=
  folder_eq_some_iff.mpr ⟨w, hw, rfl, rfl⟩

theorem folder_put (db : AgentDb) (w : Workspace) :
    ({ db with workspaces := db.workspaces.put w } : AgentDb).folder =
      Function.update db.folder w.session.id (some w.folder) := by
  funext id
  unfold AgentDb.folder
  rw [Table.find?_put, Function.update_apply, key_workspace]
  by_cases hid : id = w.session.id
  · rw [if_pos hid, if_pos hid.symm]
    rfl
  · rw [if_neg hid, if_neg (Ne.symm hid)]

theorem folder_congr (h : db'.workspaces = db.workspaces) : db'.folder = db.folder := by
  unfold AgentDb.folder
  rw [h]

/-! ### Calls that leave files alone -/

theorem Workspace.Change.folder {fresh : Id → Prop} (h : w.Change permit fresh w')
    (hfiles : ¬ permit.files) : w'.folder = w.folder := by
  cases h with
  | enter status archivedAt deletionRequestedAt hstatus hclosing =>
    unfold Workspace.folder
    rw [decide_eq_decide.mpr (hclosing.resolve_right hfiles)]
  | setAttachment id change hid harchived hstored =>
    have hkeys : (w.setAttachment id change hid).attachments.rows.map ChatAttachment.storageKey =
        w.attachments.rows.map ChatAttachment.storageKey :=
      Table.map_update _ _ _ hid hstored
    unfold Workspace.folder
    rw [hkeys]
    rfl
  | shelve attachments hopen hwork hstored =>
    unfold Workspace.folder
    rw [hstored.resolve_right hfiles]
  | removeScreenshot attachmentId hidle hopen hpick hpermit => exact absurd hpermit hfiles
  | _ => rfl

theorem Workspace.Changes.folder {fresh : Id → Prop} (h : w.Changes permit fresh w')
    (hfiles : ¬ permit.files) : w'.folder = w.folder := by
  induction h with
  | refl => rfl
  | tail _ hchange ih => exact (hchange.folder hfiles).trans ih

theorem folder_blank {session : ChatSession} (hnew : Workspace.IsNew session) :
    (Workspace.blank session).folder = ⟨false, []⟩ := by
  unfold Workspace.folder Workspace.blank
  rw [hnew.active]
  rfl

/-- A call that leaves files alone keeps the folders, and new ones are empty. -/
theorem folder_progress (hsound : db.Sound) (h : Progress permit db db') (hfiles : ¬ permit.files)
    (id : Id) : db'.folder id = db.folder id ∨
      db.folder id = none ∧ db'.folder id = some ⟨false, []⟩ := by
  cases hfolder : db'.folder id with
  | none =>
    refine Or.inl ?_
    cases hbefore : db.folder id with
    | none => rfl
    | some folder =>
      obtain ⟨w, hw, rfl, -⟩ := folder_eq_some_iff.mp hbefore
      obtain ⟨w', hw', hkey⟩ := (Table.mem_keys _).mp
        (h.sessions hfiles ((Table.mem_keys _).mpr ⟨w, hw, rfl⟩))
      rw [← show w'.session.id = w.session.id from hkey, folder_of_mem hw'] at hfolder
      cases hfolder
  | some folder =>
    obtain ⟨w', hw', rfl, rfl⟩ := folder_eq_some_iff.mp hfolder
    rcases h.evolves w' hw' with ⟨w, hw, hevolves⟩ | ⟨session, hfresh, hnew, hevolves⟩
    · rw [hevolves.session_id, folder_of_mem hw, hevolves.changes.folder hfiles]
      exact Or.inl rfl
    · refine Or.inr ⟨?_, ?_⟩
      · cases hbefore : db.folder w'.session.id with
        | none => rfl
        | some folder =>
          obtain ⟨w, hw, hid, -⟩ := folder_eq_some_iff.mp hbefore
          rw [hevolves.session_id] at hid
          exact absurd (hid ▸ hsound.session_issued w hw) hfresh.1
      · rw [hevolves.changes.folder hfiles, folder_blank hnew]

/-- Such a call is an event of the vault. -/
theorem move_progress (s : Storage) (hsound : s.db.Sound) (h : Progress permit s.db db)
    (hfiles : ¬ permit.files) : Vault.Move s.vault { s with db }.vault := by
  have hvault : { s with db }.vault = { s.vault with folders := db.folder } := by
    unfold Storage.vault AgentDb.removals
    rw [h.jobs hfiles]
  rw [hvault]
  exact .create s.vault db.folder (folder_progress hsound h hfiles)

/-! ### Jobs -/

theorem generateId_files {id : Id} (h : generateId call db = .ok id db') :
    db'.workspaces = db.workspaces ∧ db'.removals = db.removals := by
  obtain ⟨-, rfl⟩ := generateId_eq_ok.mp h
  exact ⟨rfl, rfl⟩

theorem addCommand_files {row : AgentCommand} {u : Unit} (h : addCommand row db = .ok u db') :
    db'.workspaces = db.workspaces ∧ db'.removals = db.removals := by
  obtain ⟨commands, -, rfl⟩ := addCommand_eq_ok.mp h
  exact ⟨rfl, rfl⟩

theorem removals_insert? {job : AgentFileGcJob} {gcJobs : Table AgentFileGcJob}
    (h : db.gcJobs.insert? job = some gcJobs) :
    ({ db with gcJobs } : AgentDb).removals = db.removals ++ [job.removal] := by
  unfold AgentDb.removals
  rw [((Table.insert?_eq_some_iff _ _ _).mp h).2, List.map_append, List.map_singleton]

/-- A job for the file of a screenshot. -/
theorem addGcJob_files {sessionId : Option Id} {attachment : ChatAttachment} {u : Unit}
    (h : addGcJob call sessionId attachment db = .ok u db') :
    db'.workspaces = db.workspaces ∧ ∃ jobs, db'.removals = db.removals ++ jobs ∧
      Vault.Orders sessionId [attachment.storageKey] jobs := by
  unfold addGcJob at h
  obtain ⟨id, db₁, hid, h⟩ := bind_eq_ok.mp h
  simp only [get_bind_eq_ok, orRaise_bind_eq_ok, set_eq_ok] at h
  obtain ⟨gcJobs, hinsert, rfl⟩ := h
  obtain ⟨hworkspaces, hremovals⟩ := generateId_files hid
  refine ⟨hworkspaces, _, (removals_insert? hinsert).trans (by rw [hremovals]), rfl, ?_, ?_⟩
  · intro job hjob
    rw [List.mem_singleton.mp hjob]
    rfl
  · intro job hjob
    rw [List.mem_singleton.mp hjob]
    rfl

theorem addGcJobs_files {sessionId : Id} (attachments : List ChatAttachment) :
    ∀ {db db' : AgentDb} {u : Unit}, addGcJobs call sessionId attachments db = .ok u db' →
      db'.workspaces = db.workspaces ∧ ∃ jobs, db'.removals = db.removals ++ jobs ∧
        Vault.Orders (some sessionId) (attachments.map ChatAttachment.storageKey) jobs := by
  induction attachments with
  | nil =>
    intro db db' u h
    obtain ⟨-, rfl⟩ := pure_eq_ok.mp h
    exact ⟨rfl, [], (List.append_nil _).symm, rfl, fun _ h ↦ (nomatch h), fun _ h ↦ (nomatch h)⟩
  | cons attachment attachments ih =>
    intro db db' u h
    obtain ⟨_, db₁, hjob, h⟩ := bind_eq_ok.mp h
    obtain ⟨hworkspaces, first, hfirst, hsingle⟩ := addGcJob_files hjob
    obtain ⟨hrest, jobs, hjobs, horders⟩ := ih h
    refine ⟨hrest.trans hworkspaces, first ++ jobs, ?_, hsingle.append horders⟩
    rw [hjobs, hfirst, List.append_assoc]

/-! ### Screenshots that are taken away -/

/-- The storage keys that stay, when they are distinct. -/
theorem map_storageKey_filter {attachments : List ChatAttachment}
    (hnodup : (attachments.map ChatAttachment.storageKey).Nodup) {kept : ChatAttachment → Bool}
    {gone : List ChatAttachment} (hgone : gone ⊆ attachments)
    (hkept : ∀ attachment ∈ attachments, kept attachment = decide (attachment ∉ gone)) :
    (attachments.filter kept).map ChatAttachment.storageKey =
      (attachments.map ChatAttachment.storageKey).filter
        (· ∉ gone.map ChatAttachment.storageKey) := by
  rw [List.filter_map]
  refine congrArg _ (List.filter_congr fun attachment hattachment ↦ ?_)
  rw [hkept attachment hattachment]
  refine decide_eq_decide.mpr (not_congr ⟨List.mem_map_of_mem, fun hkey ↦ ?_⟩)
  obtain ⟨other, hother, hsame⟩ := List.mem_map.mp hkey
  exact List.inj_on_of_nodup_map hnodup (hgone hother) hattachment hsame ▸ hother

/-- A folder from which screenshots are taken. -/
theorem folder_without (hnodup : w.folder.files.Nodup) {gone : List ChatAttachment}
    (hgone : gone ⊆ w.attachments.rows) (hsession : w'.session.status = w.session.status)
    {kept : ChatAttachment → Bool} (hrows : w'.attachments.rows = w.attachments.rows.filter kept)
    (hkept : ∀ attachment ∈ w.attachments.rows, kept attachment = decide (attachment ∉ gone)) :
    w'.folder = { w.folder with
      files := w.folder.files.filter (· ∉ gone.map ChatAttachment.storageKey) } := by
  unfold Workspace.folder
  rw [hsession, hrows, map_storageKey_filter hnodup hgone hkept]

/-- The event of a session whose screenshots are taken away. -/
theorem move_without (s : Storage) (hs : s.vault.Sound) (hw : w ∈ s.db.workspaces.rows)
    (hopen : w.session.status ≠ .deleting) (gone : List ChatAttachment)
    (hgone : gone.Sublist w.attachments.rows) {jobs : List (RemovalJob Id Id String)}
    (horders : Vault.Orders (some w.session.id) (gone.map ChatAttachment.storageKey) jobs)
    (w' : Workspace) (hid : w'.session.id = w.session.id)
    (hsession : w'.session.status = w.session.status) {kept : ChatAttachment → Bool}
    (hrows : w'.attachments.rows = w.attachments.rows.filter kept)
    (hkept : ∀ attachment ∈ w.attachments.rows, kept attachment = decide (attachment ∉ gone))
    (hfolder : db.folder = Function.update s.db.folder w'.session.id (some w'.folder))
    (hremovals : db.removals = s.db.removals ++ jobs) : Vault.Move s.vault { s with db }.vault := by
  have hnodup : w.folder.files.Nodup := hs.nodup w.session.id w.folder (folder_of_mem hw)
  have hdetach := Vault.Move.detach s.vault w.session.id w.folder (folder_of_mem hw)
    (decide_eq_false hopen) (gone.map ChatAttachment.storageKey)
    (hgone.map ChatAttachment.storageKey).subset
    (hnodup.sublist (hgone.map ChatAttachment.storageKey)) jobs horders
  rw [← folder_without hnodup hgone.subset hsession hrows hkept, ← hid] at hdetach
  have hvault : { s with db }.vault =
      { s.vault.setFolder w'.session.id w'.folder with jobs := s.vault.jobs ++ jobs } := by
    unfold Storage.vault Vault.setFolder
    rw [hfolder, hremovals]
  rw [hvault]
  exact hdetach

/-! ### Deletions -/

theorem folder_cancelOpenRun (call : Call) (w : Workspace) :
    (cancelOpenRun call w).folder = w.folder := by
  unfold cancelOpenRun
  cases w.openRun with
  | none => rfl
  | some run =>
    have hchanges : w.Changes { runs := True } (fun _ ↦ False) (w.markCancelled call run) :=
      markCancelled_changes trivial
    exact hchanges.folder id

/-- The deletion of a session gives all its files up. -/
theorem moves_changeStatus (s : Storage) {sessionId userId : Id} {key : String}
    {result : CommandResult}
    (h : changeStatus call sessionId userId key .delete s.db = .ok result db) :
    Vault.Moves s.vault { s with db }.vault := by
  unfold changeStatus at h
  rw [get_bind_eq_ok] at h
  cases hold : s.db.commands.find? (userId, key) with
  | some old =>
    simp only [hold] at h
    obtain ⟨-, h⟩ := require_bind_eq_ok.mp h
    obtain ⟨-, rfl⟩ := pure_eq_ok.mp h
    exact .refl
  | none =>
    simp only [hold] at h
    obtain ⟨w, db₁, hfound, h⟩ := bind_eq_ok.mp h
    obtain ⟨⟨hw, -⟩, -, hopen, -, rfl⟩ := requireSession_eq_ok.mp hfound
    obtain ⟨commandId, db₂, hcommandId, h⟩ := bind_eq_ok.mp h
    obtain ⟨⟨w₁, kind⟩, db₃, henter, h⟩ := bind_eq_ok.mp h
    obtain ⟨_, db₄, hjobs, henter⟩ := bind_eq_ok.mp henter
    obtain ⟨hentered, rfl⟩ := pure_eq_ok.mp henter
    obtain ⟨rfl, rfl⟩ := Prod.mk.inj hentered
    obtain ⟨_, db₅, hsave, h⟩ := bind_eq_ok.mp h
    obtain rfl := save_eq_ok.mp hsave
    obtain ⟨_, db₆, hcommand, h⟩ := bind_eq_ok.mp h
    obtain ⟨-, rfl⟩ := pure_eq_ok.mp h
    obtain ⟨hworkspaces₁, hremovals₁⟩ := generateId_files hcommandId
    obtain ⟨hworkspaces₂, jobs, hremovals₂, horders⟩ := addGcJobs_files _ hjobs
    obtain ⟨hworkspaces₃, hremovals₃⟩ := addCommand_files hcommand
    have hclose := Vault.Move.close s.vault w.session.id w.folder (folder_of_mem hw)
      (decide_eq_false hopen) jobs horders
    have hvault : { s with db := db₆ }.vault =
        { s.vault.setFolder w.session.id { w.folder with closing := true } with
          jobs := s.vault.jobs ++ jobs } := by
      unfold Storage.vault Vault.setFolder
      rw [folder_congr hworkspaces₃, folder_put, folder_congr (hworkspaces₂.trans hworkspaces₁),
        hremovals₃]
      change ({ s.vault with
        folders := Function.update s.db.folder (cancelOpenRun call _).session.id
          (some (cancelOpenRun call _).folder)
        jobs := db₄.removals } : Vault Id Id String) = _
      rw [folder_cancelOpenRun, id_cancelOpenRun, hremovals₂, hremovals₁]
      rfl
    rw [hvault]
    exact .single hclose

/-- The deletion of a screenshot gives its file up. -/
theorem moves_deleteScreenshot (s : Storage) (hs : s.vault.Sound) {attachmentId userId : Id}
    {key : String} {expected : ℕ} {result : CommandResult}
    (h : deleteScreenshot call attachmentId userId key expected s.db = .ok result db) :
    Vault.Moves s.vault { s with db }.vault := by
  unfold deleteScreenshot at h
  rcases replaying_ok h with ⟨-, -, -, -, rfl⟩ | ⟨-, h⟩
  · exact .refl
  rw [get_bind_eq_ok] at h
  obtain ⟨found, -, h⟩ := orRaise_bind_eq_ok.mp h
  obtain ⟨w, db₁, hfound, h⟩ := bind_eq_ok.mp h
  obtain ⟨⟨hw, -⟩, -, hopen, -, rfl⟩ := requireSession_eq_ok.mp hfound
  obtain ⟨attachment, hattachment, h⟩ := orRaise_bind_eq_ok.mp h
  obtain ⟨-, h⟩ := require_bind_eq_ok.mp h
  obtain ⟨_, db₂, hcheck, h⟩ := bind_eq_ok.mp h
  obtain ⟨-, rfl⟩ := requireIdle_eq_ok.mp hcheck
  obtain ⟨-, h⟩ := require_bind_eq_ok.mp h
  obtain ⟨-, h⟩ := require_bind_eq_ok.mp h
  obtain ⟨_, db₃, hjob, h⟩ := bind_eq_ok.mp h
  obtain ⟨commandId, db₄, hcommandId, h⟩ := bind_eq_ok.mp h
  obtain ⟨_, db₅, hsave, h⟩ := bind_eq_ok.mp h
  obtain rfl := save_eq_ok.mp hsave
  obtain ⟨_, db₆, hcommand, h⟩ := bind_eq_ok.mp h
  obtain ⟨-, rfl⟩ := pure_eq_ok.mp h
  obtain ⟨hworkspaces₁, jobs, hremovals₁, horders⟩ := addGcJob_files hjob
  obtain ⟨hworkspaces₂, hremovals₂⟩ := generateId_files hcommandId
  obtain ⟨hworkspaces₃, hremovals₃⟩ := addCommand_files hcommand
  obtain ⟨hmem, hkey⟩ := (Table.find?_eq_some_iff _).mp hattachment
  refine .single (move_without s hs hw hopen [attachment] (List.singleton_sublist.mpr hmem) horders
    (removeScreenshot attachmentId w) rfl rfl rfl (fun other hother ↦ ?_) ?_ ?_)
  · refine decide_eq_decide.mpr (not_congr ⟨fun hid ↦ List.mem_singleton.mpr ?_, fun heq ↦ ?_⟩)
    · exact w.attachments.eq_of_key_eq hother hmem (hid.trans hkey.symm)
    · rw [List.mem_singleton.mp heq]
      exact hkey
  · rw [folder_congr hworkspaces₃, folder_put, folder_congr (hworkspaces₂.trans hworkspaces₁)]
    rfl
  · rw [hremovals₃]
    exact hremovals₂.trans hremovals₁

/-! ### Expired uploads -/

theorem moves_sweepSession (s : Storage) (hs : s.vault.Sound) {sessionId : Id}
    (hopen : ∀ w ∈ s.db.workspaces.rows, w.session.id = sessionId → w.session.status ≠ .deleting)
    {count : ℕ} (h : sweepSession call sessionId s.db = .ok count db) :
    Vault.Moves s.vault { s with db }.vault := by
  unfold sweepSession at h
  rw [get_bind_eq_ok] at h
  cases hfind : s.db.workspaces.find? sessionId with
  | none =>
    simp only [hfind, pure_eq_ok] at h
    obtain ⟨-, rfl⟩ := h
    exact .refl
  | some w =>
    simp only [hfind] at h
    obtain ⟨hw, rfl⟩ := mem_of_find? hfind
    obtain ⟨_, db₁, hjobs, h⟩ := bind_eq_ok.mp h
    obtain ⟨_, db₂, hsave, h⟩ := bind_eq_ok.mp h
    obtain rfl := save_eq_ok.mp hsave
    obtain ⟨-, rfl⟩ := pure_eq_ok.mp h
    obtain ⟨hworkspaces, jobs, hremovals, horders⟩ := addGcJobs_files _ hjobs
    refine .single (move_without s hs hw (hopen w hw rfl) (expiredUploads call.now w)
      List.filter_sublist horders { w with
        attachments := w.attachments.filter (fun attachment ↦
          attachment ∉ expiredUploads call.now w) } rfl rfl rfl (fun _ _ ↦ rfl) ?_ hremovals)
    rw [folder_put, folder_congr hworkspaces]

/-- A swept session keeps its status. -/
theorem sweepSession_status {sessionId : Id} {count : ℕ}
    (h : sweepSession call sessionId db = .ok count db') (w' : Workspace)
    (hw' : w' ∈ db'.workspaces.rows) : ∃ w ∈ db.workspaces.rows,
      w'.session.id = w.session.id ∧ w'.session.status = w.session.status := by
  unfold sweepSession at h
  rw [get_bind_eq_ok] at h
  cases hfind : db.workspaces.find? sessionId with
  | none =>
    simp only [hfind, pure_eq_ok] at h
    obtain ⟨-, rfl⟩ := h
    exact ⟨w', hw', rfl, rfl⟩
  | some w =>
    simp only [hfind] at h
    obtain ⟨_, db₁, hjobs, h⟩ := bind_eq_ok.mp h
    obtain ⟨_, db₂, hsave, h⟩ := bind_eq_ok.mp h
    obtain rfl := save_eq_ok.mp hsave
    obtain ⟨-, rfl⟩ := pure_eq_ok.mp h
    rw [(addGcJobs_files _ hjobs).1] at hw'
    rcases (Table.mem_put _).mp hw' with rfl | ⟨hold, -⟩
    · exact ⟨w, (mem_of_find? hfind).1, rfl, rfl⟩
    · exact ⟨w', hold, rfl, rfl⟩

theorem moves_sweepSessions (sessionIds : List Id) :
    ∀ (s : Storage), s.vault.Sound →
      (∀ sessionId ∈ sessionIds, ∀ w ∈ s.db.workspaces.rows, w.session.id = sessionId →
        w.session.status ≠ .deleting) →
      ∀ {db : AgentDb} {count : ℕ}, sweepSessions call sessionIds s.db = .ok count db →
        Vault.Moves s.vault { s with db }.vault := by
  induction sessionIds with
  | nil =>
    intro s _ _ db count h
    obtain ⟨-, rfl⟩ := pure_eq_ok.mp h
    exact .refl
  | cons sessionId sessionIds ih =>
    intro s hs hopen db count h
    obtain ⟨first, db₁, hfirst, h⟩ := bind_eq_ok.mp h
    obtain ⟨rest, db₂, hrest, h⟩ := bind_eq_ok.mp h
    obtain ⟨-, rfl⟩ := pure_eq_ok.mp h
    have hmoves := moves_sweepSession s hs (hopen sessionId List.mem_cons_self) hfirst
    refine hmoves.trans (ih { s with db := db₁ } (hs.moves hmoves) ?_ hrest)
    intro id hid w₁ hw₁ hkey
    obtain ⟨w, hw, hsame⟩ := sweepSession_status hfirst w₁ hw₁
    rw [hsame.2]
    exact hopen id (List.mem_cons_of_mem _ hid) w hw (hsame.1.symm.trans hkey)

theorem moves_sweepStaged (s : Storage) (hs : s.vault.Sound) {candidates skipped : List Id}
    {count : ℕ} (h : sweepStaged call candidates skipped s.db = .ok count db) :
    Vault.Moves s.vault { s with db }.vault := by
  unfold sweepStaged at h
  rw [get_bind_eq_ok] at h
  refine moves_sweepSessions _ s hs (fun sessionId hmem w hw hid ↦ ?_) h
  obtain ⟨w', hw', hid'⟩ := List.mem_map.mp ((mem_orderBy _ _ _).mp (List.mem_of_mem_take hmem))
  obtain ⟨hw', hchosen⟩ := List.mem_filter.mp hw'
  have hopen : w'.session.status ≠ .deleting ∧ _ := of_decide_eq_true hchosen
  rw [AgentDb.workspace_eq hw hw' (hid.trans hid'.symm)]
  exact hopen.1

/-! ### The end of a deletion -/

theorem folder_erase (db : AgentDb) (sessionId : Id) :
    ({ db with workspaces := db.workspaces.erase sessionId } : AgentDb).folder =
      Function.update db.folder sessionId none := by
  funext id
  rw [Function.update_apply]
  unfold AgentDb.folder Table.erase
  rw [Table.find?_filter]
  split_ifs with hid
  · cases hfind : db.workspaces.find? id with
    | none => rfl
    | some w =>
      have hkey : ¬ (decide (Keyed.key w ≠ sessionId) = true) := by
        rw [((Table.find?_eq_some_iff _).mp hfind).2, hid]
        simp
      rw [Option.filter_some_neg (by simpa using hkey)]
      rfl
  · cases hfind : db.workspaces.find? id with
    | none => rfl
    | some w =>
      rw [Option.filter_some_pos]
      rw [((Table.find?_eq_some_iff _).mp hfind).2]
      exact decide_eq_true hid

/-- The removal of a session is an event of the vault, when it was being deleted. -/
theorem moves_finishSession (s : Storage) (hs : s.vault.Sound) {sessionId : Id}
    (hclosing : ∀ w ∈ s.db.workspaces.rows, w.session.id = sessionId →
      w.session.status = .deleting) :
    Vault.Moves s.vault { s with db := finishSession s.db sessionId }.vault := by
  unfold finishSession
  split_ifs with hpending
  · exact .refl
  · have hdone : ∀ job ∈ s.vault.jobs, job.owner = some sessionId → job.done = true := by
      intro job hjob howner
      obtain ⟨row, hrow, rfl⟩ := List.mem_map.mp hjob
      by_contra hnot
      exact hpending (List.any_eq_true.mpr ⟨row, hrow, decide_eq_true
        ⟨howner, fun hstatus ↦ hnot (decide_eq_true hstatus)⟩⟩)
    have hvault : { s with
        db :=
          { s.db with
            workspaces := s.db.workspaces.erase sessionId
            commands := s.db.commands.filter (·.sessionId ≠ sessionId)
            gcJobs := s.db.gcJobs.mapRows
              (fun job ↦ { job with sessionId := job.sessionId.filter (· ≠ sessionId) })
                (fun _ ↦ rfl)
            board := { s.db.board with
              plans := s.db.board.plans.filter (·.sessionId ≠ sessionId) } } }.vault =
        { s.vault with
          folders := Function.update s.vault.folders sessionId none
          jobs := s.vault.jobs.map (RemovalJob.orphan sessionId) } := by
      have hjobs : (s.db.gcJobs.rows.map (fun job ↦
          { job with sessionId := job.sessionId.filter (· ≠ sessionId) })).map
            AgentFileGcJob.removal =
          (s.db.gcJobs.rows.map AgentFileGcJob.removal).map (RemovalJob.orphan sessionId) := by
        rw [List.map_map, List.map_map]
        rfl
      unfold Storage.vault AgentDb.removals
      rw [← folder_erase, ← hjobs]
      rfl
    rw [hvault]
    cases hfolder : s.vault.folders sessionId with
    | some folder =>
      obtain ⟨w, hw, hid, rfl⟩ := folder_eq_some_iff.mp hfolder
      exact .single (.remove s.vault sessionId w.folder hfolder
        (decide_eq_true (hclosing w hw hid)) hdone)
    | none =>
      -- The session is gone already, and no job names it.
      have hjobs : s.vault.jobs.map (RemovalJob.orphan sessionId) = s.vault.jobs := by
        refine (List.map_congr_left fun job hjob ↦ ?_).trans (List.map_id _)
        have howner : job.owner.filter (fun owner ↦ decide (owner ≠ sessionId)) = job.owner := by
          cases howner : job.owner with
          | none => rfl
          | some owner =>
            refine Option.filter_some_pos (decide_eq_true ?_)
            rintro rfl
            obtain ⟨folder, hthere⟩ := hs.owner job hjob owner howner
            rw [hfolder] at hthere
            cases hthere
        unfold RemovalJob.orphan
        rw [howner]
        rfl
      rw [hjobs, ← hfolder, Function.update_eq_self]

theorem moves_finishSessions (sessionIds : List Id) :
    ∀ (s : Storage), s.vault.Sound →
      (∀ sessionId ∈ sessionIds, ∀ w ∈ s.db.workspaces.rows, w.session.id = sessionId →
        w.session.status = .deleting) →
      Vault.Moves s.vault { s with db := sessionIds.foldl finishSession s.db }.vault := by
  induction sessionIds with
  | nil => exact fun s _ _ ↦ .refl
  | cons sessionId sessionIds ih =>
    intro s hs hclosing
    have hmoves := moves_finishSession s hs (hclosing sessionId List.mem_cons_self)
    refine hmoves.trans (ih { s with db := finishSession s.db sessionId } (hs.moves hmoves) ?_)
    intro id hid w hw
    refine hclosing id (List.mem_cons_of_mem _ hid) w ?_
    change w ∈ (finishSession s.db sessionId).workspaces.rows at hw
    unfold finishSession at hw
    split_ifs at hw
    · exact hw
    · exact (List.mem_filter.mp hw).1

theorem moves_finishDeletions (s : Storage) (hs : s.vault.Sound) (skipped : List Id) :
    Vault.Moves s.vault { s with db := finishDeletions skipped s.db }.vault := by
  unfold finishDeletions
  refine moves_finishSessions _ s hs fun sessionId hmem w hw hid ↦ ?_
  obtain ⟨w', hw', hid'⟩ := List.mem_map.mp ((mem_orderBy _ _ _).mp (List.mem_of_mem_take hmem))
  obtain ⟨hw', hchosen⟩ := List.mem_filter.mp hw'
  have hclosing : w'.session.status = .deleting ∧ _ := of_decide_eq_true hchosen
  rw [AgentDb.workspace_eq hw hw' (hid.trans hid'.symm)]
  exact hclosing.1

/-! ### Uploads -/

/-- An upload answers with a screenshot that is there, or adds one to an open session. -/
theorem upload_files {sessionId userId : Id} {clientUploadId sha256 : String}
    {inspected : Except Failure ImageFile} {attachment : ChatAttachment}
    (h : upload call sessionId userId clientUploadId sha256 inspected db = .ok attachment db') :
    (∃ w ∈ db.workspaces.rows, attachment ∈ w.attachments.rows) ∨
      ∃ w ∈ db.workspaces.rows, w.session.status ≠ .deleting ∧
        db'.folder = Function.update db.folder w.session.id
          (some { w.folder with files := w.folder.files ++ [attachment.storageKey] }) ∧
        db'.removals = db.removals := by
  unfold upload at h
  obtain ⟨w, db₁, hfound, h⟩ := bind_eq_ok.mp h
  obtain ⟨⟨hw, -⟩, -, hopen, -, rfl⟩ := requireSession_eq_ok.mp hfound
  obtain ⟨-, h⟩ := require_bind_eq_ok.mp h
  cases hold : w.attachments.rows.find? (·.clientUploadId = clientUploadId) with
  | some old =>
    simp only [hold] at h
    obtain ⟨-, h⟩ := require_bind_eq_ok.mp h
    obtain ⟨rfl, -⟩ := pure_eq_ok.mp h
    exact Or.inl ⟨w, hw, List.mem_of_find?_eq_some hold⟩
  | none =>
    simp only [hold] at h
    obtain ⟨_, db₂, hcheck, h⟩ := bind_eq_ok.mp h
    obtain ⟨-, rfl⟩ := requireIdle_eq_ok.mp hcheck
    obtain ⟨file, -, h⟩ := checked_bind_eq_ok.mp h
    obtain ⟨id, db₃, hid, h⟩ := bind_eq_ok.mp h
    obtain ⟨w₁, hadd, h⟩ := checked_bind_eq_ok.mp h
    obtain ⟨_, db₄, hsave, h⟩ := bind_eq_ok.mp h
    obtain rfl := save_eq_ok.mp hsave
    obtain ⟨rfl, rfl⟩ := pure_eq_ok.mp h
    obtain ⟨hworkspaces, hremovals⟩ := generateId_files hid
    refine Or.inr ⟨w, hw, hopen, ?_, hremovals⟩
    unfold Workspace.addAttachment at hadd
    split at hadd
    · next attachments hinsert =>
      obtain rfl := Except.ok.inj hadd
      rw [folder_put, folder_congr hworkspaces]
      unfold Workspace.folder
      rw [((Table.insert?_eq_some_iff _ _ _).mp hinsert).2, List.map_append, List.map_singleton]
    · cases hadd

theorem drafts_endUpload (s : Storage) (name : String) :
    (s.endUpload name).vault = { s.vault with drafts := s.vault.drafts \ {name} } := by
  have hdrafts : {other | other ∈ s.uploads.filter (· ≠ name)} =
      {other | other ∈ s.uploads} \ {name} := by
    ext other
    simp
  unfold Storage.vault Storage.endUpload
  rw [hdrafts]

theorem disk_deleteFile (s : Storage) (name : String) :
    (s.deleteFile name).vault = { s.vault with
      disk := s.vault.disk \ {name}, unlinked := insert name s.vault.unlinked } := by
  have hdisk : {other | other ∈ (s.files.erase name).keys} =
      {other | other ∈ s.files.keys} \ {name} := by
    ext other
    simp only [Set.mem_ofPred_eq, Set.mem_sdiff, Set.mem_singleton_iff, Table.mem_keys]
    constructor
    · rintro ⟨file, hfile, rfl⟩
      obtain ⟨hmem, hne⟩ := List.mem_filter.mp hfile
      exact ⟨⟨file, hmem, rfl⟩, of_decide_eq_true hne⟩
    · rintro ⟨⟨file, hmem, rfl⟩, hne⟩
      exact ⟨file, List.mem_filter.mpr ⟨hmem, decide_eq_true hne⟩, rfl⟩
  have hunlinked : {other | other ∈ name :: s.unlinked} =
      insert name {other | other ∈ s.unlinked} := by
    ext other
    simp
  unfold Storage.vault Storage.deleteFile
  rw [hdisk, hunlinked]

theorem disk_writeFile (s : Storage) (name : String) (now : Time) :
    (s.writeFile name now).vault = { s.vault with
      disk := insert name s.vault.disk, written := insert name s.vault.written } := by
  have hdisk : {other | other ∈ (s.files.put ⟨name, now⟩).keys} =
      insert name {other | other ∈ s.files.keys} := by
    ext other
    simp only [Set.mem_ofPred_eq, Set.mem_insert_iff, Table.mem_keys]
    constructor
    · rintro ⟨file, hfile, rfl⟩
      rcases (Table.mem_put _).mp hfile with rfl | ⟨hmem, -⟩
      · exact Or.inl rfl
      · exact Or.inr ⟨file, hmem, rfl⟩
    · intro hother
      by_cases hname : other = name
      · exact ⟨⟨name, now⟩, (Table.mem_put _).mpr (Or.inl rfl), hname.symm⟩
      · obtain ⟨file, hmem, rfl⟩ := hother.resolve_left hname
        exact ⟨file, (Table.mem_put _).mpr (Or.inr ⟨hmem, hname⟩), rfl⟩
  have hwritten : {other | other ∈ name :: s.written} =
      insert name {other | other ∈ s.written} := by
    ext other
    simp
  unfold Storage.vault Storage.writeFile
  rw [hdisk, hwritten]

/-! ### Orphans -/

theorem progress_sweepOrphan (hsound : db.Sound) {storageKey : String} {count : ℕ}
    (h : sweepOrphan call storageKey db = .ok count db') : Progress .cleaning db db' := by
  unfold sweepOrphan at h
  obtain ⟨id, db₁, hid, h⟩ := bind_eq_ok.mp h
  have hfirst : Prepares Permit.cleaning.command .cleaning db db₁ := prepares_generateId hid
  rw [get_bind_eq_ok] at h
  split_ifs at h
  · obtain ⟨-, rfl⟩ := pure_eq_ok.mp h
    exact hfirst.progress hsound
  · obtain ⟨gcJobs, -, h⟩ := orRaise_bind_eq_ok.mp h
    rw [set_bind_eq_ok] at h
    obtain ⟨-, rfl⟩ := pure_eq_ok.mp h
    have hsecond : Prepares Permit.cleaning.command .cleaning db₁ { db₁ with gcJobs } :=
      ⟨rfl, List.Subset.refl _, fun _ h ↦ Or.inl h, fun _ h ↦ h, fun _ ↦ rfl, fun _ ↦ rfl,
        fun hnone ↦ absurd trivial hnone⟩
    exact (hfirst.trans hsecond).progress hsound

/-- A file that is swept has a job before, or gets one. -/
theorem sweepOrphan_files {storageKey : String} {count : ℕ}
    (h : sweepOrphan call storageKey db = .ok count db') : db'.workspaces = db.workspaces ∧
      ((∃ job ∈ db.removals, job.file = storageKey) ∧ db'.removals = db.removals ∨
        (∀ job ∈ db.removals, job.file ≠ storageKey) ∧ ∃ jobs, db'.removals = db.removals ++ jobs ∧
          Vault.Orders none [storageKey] jobs) := by
  have hmem : storageKey ∈ db.gcJobs.rows.map AgentFileGcJob.storageKey ↔
      ∃ job ∈ db.removals, job.file = storageKey := by
    constructor
    · intro hkey
      obtain ⟨row, hrow, rfl⟩ := List.mem_map.mp hkey
      exact ⟨row.removal, List.mem_map_of_mem hrow, rfl⟩
    · rintro ⟨job, hjob, rfl⟩
      obtain ⟨row, hrow, rfl⟩ := List.mem_map.mp hjob
      exact List.mem_map_of_mem hrow
  unfold sweepOrphan at h
  obtain ⟨id, db₁, hid, h⟩ := bind_eq_ok.mp h
  obtain ⟨-, rfl⟩ := generateId_eq_ok.mp hid
  rw [get_bind_eq_ok] at h
  split_ifs at h with hknown
  · obtain ⟨-, rfl⟩ := pure_eq_ok.mp h
    exact ⟨rfl, Or.inl ⟨hmem.mp hknown, rfl⟩⟩
  · obtain ⟨gcJobs, hinsert, h⟩ := orRaise_bind_eq_ok.mp h
    rw [set_bind_eq_ok] at h
    obtain ⟨-, rfl⟩ := pure_eq_ok.mp h
    refine ⟨rfl, Or.inr ⟨fun job hjob hsame ↦ hknown (hmem.mpr ⟨job, hjob, hsame⟩), _,
      removals_insert? hinsert, rfl, ?_, ?_⟩⟩
    · intro job hjob
      rw [List.mem_singleton.mp hjob]
      rfl
    · intro job hjob
      rw [List.mem_singleton.mp hjob]
      rfl

/-- Sweeping files that were found old and that no session owns. -/
theorem sweepKeys_moves (keys : List String) :
    ∀ (s : Storage), s.db.Sound → (∀ key ∈ keys, key ∈ s.vault.listed) →
      (∀ key ∈ keys, ∀ id folder, s.db.folder id = some folder → key ∉ folder.files) →
      ∀ {db : AgentDb} {count : ℕ}, sweepKeys call keys s.db = .ok count db →
        db.Sound ∧ Vault.Moves s.vault { s with db }.vault := by
  induction keys with
  | nil =>
    intro s hsound _ _ db count h
    obtain ⟨-, rfl⟩ := pure_eq_ok.mp h
    exact ⟨hsound, .refl⟩
  | cons key keys ih =>
    intro s hsound hlisted hunowned db count h
    obtain ⟨first, db₁, hfirst, h⟩ := bind_eq_ok.mp h
    obtain ⟨rest, db₂, hrest, h⟩ := bind_eq_ok.mp h
    obtain ⟨-, rfl⟩ := pure_eq_ok.mp h
    obtain ⟨hworkspaces, hjobs⟩ := sweepOrphan_files hfirst
    have hfolder : db₁.folder = s.db.folder := folder_congr hworkspaces
    have hmoves : Vault.Moves s.vault { s with db := db₁ }.vault := by
      rcases hjobs with ⟨-, hremovals⟩ | ⟨hjobless, jobs, hremovals, horders⟩
      · have hvault : { s with db := db₁ }.vault = s.vault := by
          unfold Storage.vault
          rw [hfolder, hremovals]
        rw [hvault]
      · have hvault : { s with db := db₁ }.vault =
            { s.vault with jobs := s.vault.jobs ++ jobs } := by
          unfold Storage.vault
          rw [hfolder, hremovals]
        rw [hvault]
        refine .single (.sweep s.vault [key] ?_ ?_ ?_ (List.nodup_singleton key) jobs horders)
        · intro other hother
          rw [List.mem_singleton.mp hother]
          exact hlisted key List.mem_cons_self
        · intro other hother
          rw [List.mem_singleton.mp hother]
          exact hunowned key List.mem_cons_self
        · intro other hother
          rw [List.mem_singleton.mp hother]
          exact hjobless
    obtain ⟨hlater, hmore⟩ := ih { s with db := db₁ }
      (hsound.progress (progress_sweepOrphan hsound hfirst))
      (fun other hother ↦ hlisted other (List.mem_cons_of_mem _ hother))
      (fun other hother id folder hthere ↦ hunowned other (List.mem_cons_of_mem _ hother) id folder
        (hfolder ▸ hthere)) hrest
    exact ⟨hlater, hmoves.trans hmore⟩

theorem mem_storageKeys {key : String} : key ∈ db.storageKeys ↔
    ∃ id folder, db.folder id = some folder ∧ key ∈ folder.files := by
  unfold AgentDb.storageKeys
  rw [List.mem_flatMap]
  constructor
  · rintro ⟨w, hw, hkey⟩
    exact ⟨w.session.id, w.folder, folder_of_mem hw, hkey⟩
  · rintro ⟨id, folder, hfolder, hkey⟩
    obtain ⟨w, hw, -, rfl⟩ := folder_eq_some_iff.mp hfolder
    exact ⟨w, hw, hkey⟩

theorem moves_sweepOrphans (s : Storage) (hsound : s.db.Sound) {keys : List String}
    (hkeys : keys ∈ s.sweeps) :
    (commit (sweepOrphans call keys) s.db).Sound ∧
      Vault.Moves s.vault { s with db := commit (sweepOrphans call keys) s.db }.vault := by
  rcases commit_cases (sweepOrphans call keys) s.db with heq | ⟨count, db, hok, heq⟩
  · rw [heq]
    exact ⟨hsound, .refl⟩
  · rw [heq]
    unfold sweepOrphans at hok
    rw [get_bind_eq_ok] at hok
    refine sweepKeys_moves _ s hsound (fun key hkey ↦ ?_) (fun key hkey id folder hfolder hmem ↦ ?_)
      hok
    · exact ⟨keys, hkeys, (List.mem_filter.mp hkey).1⟩
    · exact of_decide_eq_true (List.mem_filter.mp hkey).2
        (mem_storageKeys.mpr ⟨id, folder, hfolder, hmem⟩)

/-! ### Jobs that are attempted -/

theorem mem_of_dueJob {skipped : List Id} {job : AgentFileGcJob}
    (h : dueJob call skipped db = some job) : job ∈ db.gcJobs.rows ∧ job.status ≠ .succeeded := by
  obtain ⟨hmem, hdue⟩ := List.mem_filter.mp
    ((mem_orderBy _ _ _).mp (List.mem_of_mem_head? (Option.mem_def.mpr h)))
  have hdue : job.status ≠ .succeeded ∧ _ := of_decide_eq_true hdue
  exact ⟨hmem, hdue.1⟩

/-- An attempt settles its job, when the file was unlinked, and leaves all other jobs as they
are. -/
theorem removals_collectOnce {skipped : List Id} (unlinked : Bool) {job : AgentFileGcJob}
    (h : dueJob call skipped db = some job) :
    (collectOnce call skipped unlinked db).workspaces = db.workspaces ∧
      (collectOnce call skipped unlinked db).removals =
        if unlinked then db.removals.map (RemovalJob.finish job.id) else db.removals := by
  obtain ⟨hjob, hpending⟩ := mem_of_dueJob h
  unfold dueJob at h
  unfold collectOnce
  simp only [h]
  refine ⟨trivial, ?_⟩
  unfold AgentDb.removals
  rw [Table.rows_update, List.map_map]
  cases unlinked with
  | true =>
    rw [if_pos rfl, List.map_map]
    refine List.map_congr_left fun row hrow ↦ ?_
    by_cases hid : row.id = job.id
    · simp [AgentFileGcJob.removal, RemovalJob.finish, Keyed.key, hid]
    · simp [AgentFileGcJob.removal, RemovalJob.finish, Keyed.key, hid]
  | false =>
    refine List.map_congr_left fun row hrow ↦ ?_
    by_cases hid : row.id = job.id
    · obtain rfl := db.gcJobs.eq_of_key_eq hrow hjob hid
      simp [AgentFileGcJob.removal, Keyed.key, hpending]
    · simp [Keyed.key, hid]

/-! ### Every step -/

/-- The invariant: that of the database, and that of the vault. -/
structure Storage.Sound (s : Storage) : Prop where
  db : s.db.Sound
  vault : s.vault.Sound

theorem Storage.Sound.start (board : Board) : (Storage.start board).Sound where
  db := .start board
  vault := by
    constructor <;> simp [Storage.start, Storage.vault, AgentDb.start, AgentDb.folder,
      AgentDb.removals, Table.find?, Table.keys, Vault.Known]

/-- A call that leaves the directory alone. -/
theorem moves_other {s : Storage} (hs : s.Sound) (input : AgentInput)
    (houtside : ¬ input.op.TouchesDisk) :
    Vault.Moves s.vault { s with db := Agent.step s.db input }.vault := by
  by_cases hfiles : input.op.permit.files
  · obtain ⟨call, later, op⟩ := input
    cases op with
    | changeStatus sessionId userId key change =>
      obtain rfl : change = .delete := hfiles
      change Vault.Moves s.vault { s with
        db := commit (changeStatus call sessionId userId key .delete) s.db }.vault
      rcases commit_cases (changeStatus call sessionId userId key .delete) s.db with
        heq | ⟨result, db, hok, heq⟩
      · rw [heq]
      · rw [heq]
        exact moves_changeStatus s hok
    | deleteScreenshot attachmentId userId key expected =>
      change Vault.Moves s.vault { s with
        db := commit (deleteScreenshot call attachmentId userId key expected) s.db }.vault
      rcases commit_cases (deleteScreenshot call attachmentId userId key expected) s.db with
        heq | ⟨result, db, hok, heq⟩
      · rw [heq]
      · rw [heq]
        exact moves_deleteScreenshot s hs.vault hok
    | archiveScreenshot =>
      obtain ⟨_, _, hrequest⟩ := hfiles
      cases hrequest
    | sweepStaged candidates skipped =>
      change Vault.Moves s.vault
        { s with db := commit (sweepStaged call candidates skipped) s.db }.vault
      rcases commit_cases (sweepStaged call candidates skipped) s.db with
        heq | ⟨result, db, hok, heq⟩
      · rw [heq]
      · rw [heq]
        exact moves_sweepStaged s hs.vault hok
    | finishDeletions skipped => exact moves_finishDeletions s hs.vault skipped
    | upload => exact absurd trivial houtside
    | collectOnce => exact absurd trivial houtside
    | _ => exact False.elim hfiles
  · exact .single (move_progress s hs.db (progress_step hs.db input) hfiles)

theorem moves_findOld {s : Storage} {now : Time} (htimely : s.Timely (.findOld now)) :
    Vault.Move s.vault (s.step (.findOld now)).vault := by
  have hlisted : {name | ∃ keys ∈ s.sweeps ++ [oldKeys now s.files], name ∈ keys} =
      {name | ∃ keys ∈ s.sweeps, name ∈ keys} ∪ {name | name ∈ oldKeys now s.files} := by
    ext name
    simp [or_and_right, exists_or]
  have hvault : (s.step (.findOld now)).vault =
      { s.vault with listed := s.vault.listed ∪ {name | name ∈ oldKeys now s.files} } := by
    exact congrArg (fun listed ↦ ({ s.vault with listed } : Vault Id Id String)) hlisted
  rw [hvault]
  refine .list s.vault _ (fun name hname ↦ ?_) fun name hname hdraft ↦ ?_
  · obtain ⟨file, hfile, rfl⟩ := List.mem_map.mp hname
    exact (Table.mem_keys _).mpr ⟨file, (List.mem_filter.mp hfile).1, rfl⟩
  · obtain ⟨file, hfile, rfl⟩ := List.mem_map.mp hname
    obtain ⟨hmem, hold⟩ := List.mem_filter.mp hfile
    exact absurd (of_decide_eq_true hold).2 (not_lt.mpr (htimely file hmem hdraft))

/-- Every step is a sequence of events of the vault, and keeps the invariant of the database. -/
theorem Storage.Sound.step_moves {s : Storage} (hs : s.Sound) (input : StorageInput)
    (htimely : s.Timely input) :
    (s.step input).db.Sound ∧ Vault.Moves s.vault (s.step input).vault := by
  cases input with
  | other input houtside => exact ⟨hs.db.step input, moves_other hs input houtside⟩
  | write name now =>
    unfold Storage.step
    dsimp only
    split_ifs with hwritten
    · exact ⟨hs.db, .refl⟩
    · have hdrafts : {other | other ∈ name :: s.uploads} =
          insert name {other | other ∈ s.uploads} := by
        ext other
        simp
      have hvault : { s.writeFile name now with uploads := name :: s.uploads }.vault =
          { (s.writeFile name now).vault with drafts := insert name s.vault.drafts } :=
        congrArg (fun drafts ↦ ({ (s.writeFile name now).vault with drafts } : Vault Id Id String))
          hdrafts
      rw [hvault, disk_writeFile]
      exact ⟨hs.db, .single (.write s.vault name hwritten)⟩
  | leave name now =>
    unfold Storage.step
    dsimp only
    split_ifs with hwritten
    · exact ⟨hs.db, .refl⟩
    · rw [disk_writeFile]
      exact ⟨hs.db, .single (.leave s.vault name hwritten)⟩
  | commitUpload call sessionId userId clientUploadId sha256 inspected =>
    unfold Storage.step
    dsimp only
    cases hok : upload call sessionId userId clientUploadId sha256 inspected s.db with
    | error => exact ⟨hs.db, .refl⟩
    | ok attachment db =>
      dsimp only
      split_ifs with hdraft
      · refine ⟨hs.db.progress (progress_upload hs.db hok), ?_⟩
        rcases upload_files hok with ⟨w, hw, hold⟩ | ⟨w, hw, hopen, hfolder, hremovals⟩
        · exact absurd (List.mem_map_of_mem hold) ((hs.vault.drafts _ hdraft).unowned
            w.session.id w.folder (folder_of_mem hw))
        · have hattach := Vault.Move.attach s.vault w.session.id w.folder (folder_of_mem hw)
            (decide_eq_false hopen) attachment.storageKey hdraft
          have hvault : { s.endUpload attachment.storageKey with db }.vault =
              { (s.endUpload attachment.storageKey).vault with
                folders := db.folder, jobs := db.removals } := rfl
          rw [hvault, drafts_endUpload, hfolder, hremovals]
          exact .single hattach
      · exact ⟨hs.db, .refl⟩
  | failUpload name =>
    unfold Storage.step
    dsimp only
    split_ifs with hdraft
    · rw [drafts_endUpload, disk_deleteFile]
      exact ⟨hs.db, .single (.discard s.vault name hdraft)⟩
    · exact ⟨hs.db, .refl⟩
  | loseUpload name =>
    change s.db.Sound ∧ Vault.Moves s.vault (s.endUpload name).vault
    rw [drafts_endUpload]
    exact ⟨hs.db, .single (.abandon s.vault name)⟩
  | findOld now => exact ⟨hs.db, .single (moves_findOld htimely)⟩
  | sweepOrphans call keys =>
    unfold Storage.step
    dsimp only
    split_ifs with hkeys
    · obtain ⟨hsound, hmoves⟩ : (commit (sweepOrphans call keys) s.db).Sound ∧ _ :=
        moves_sweepOrphans s hs.db hkeys
      refine ⟨hsound, hmoves.tail (.forget _ _ ?_)⟩
      rintro name ⟨others, hothers, hname⟩
      exact ⟨others, List.mem_of_mem_erase hothers, hname⟩
    · exact ⟨hs.db, .refl⟩
  | collectOnce call skipped unlinked =>
    unfold Storage.step
    dsimp only
    cases hdue : dueJob call skipped s.db with
    | none => exact ⟨hs.db, .refl⟩
    | some job =>
      obtain ⟨hworkspaces, hremovals⟩ := removals_collectOnce unlinked hdue
      have hsound : (Agent.collectOnce call skipped unlinked s.db).Sound :=
        hs.db.progress (progress_collectOnce call skipped unlinked hs.db)
      have hjob : job.removal ∈ s.vault.jobs := List.mem_map_of_mem (mem_of_dueJob hdue).1
      cases unlinked with
      | true =>
        have hvault : { s.deleteFile job.storageKey with
              db := Agent.collectOnce call skipped true s.db }.vault =
            { (s.deleteFile job.storageKey).vault with
              folders := s.db.folder, jobs := s.db.removals.map (RemovalJob.finish job.id) } := by
          rw [← folder_congr hworkspaces, ← hremovals.trans (if_pos rfl)]
          rfl
        refine ⟨hsound, ?_⟩
        change Vault.Moves s.vault { s.deleteFile job.storageKey with
          db := Agent.collectOnce call skipped true s.db }.vault
        rw [hvault, disk_deleteFile]
        refine .tail (.single (.unlink s.vault job.removal hjob)) (.settle _ job.id ?_)
        intro other hother hid
        refine Or.inl ?_
        obtain ⟨row, hrow, rfl⟩ := List.mem_map.mp hother
        exact congrArg AgentFileGcJob.storageKey
          (s.db.gcJobs.eq_of_key_eq hrow (mem_of_dueJob hdue).1 hid)
      | false =>
        have hvault : { s with db := Agent.collectOnce call skipped false s.db }.vault =
          s.vault := by
          unfold Storage.vault
          rw [folder_congr hworkspaces, hremovals.trans (if_neg Bool.false_ne_true)]
        refine ⟨hsound, ?_⟩
        change Vault.Moves s.vault { s with db := Agent.collectOnce call skipped false s.db }.vault
        rw [hvault]
  | loseAttempt call skipped =>
    unfold Storage.step
    dsimp only
    cases hdue : dueJob call skipped s.db with
    | none => exact ⟨hs.db, .refl⟩
    | some job =>
      refine ⟨hs.db, ?_⟩
      dsimp only
      rw [disk_deleteFile]
      exact .single (.unlink s.vault job.removal (List.mem_map_of_mem (mem_of_dueJob hdue).1))

theorem Storage.Sound.step {s : Storage} (hs : s.Sound) {input : StorageInput}
    (htimely : s.Timely input) : (s.step input).Sound :=
  ⟨(hs.step_moves input htimely).1, hs.vault.moves (hs.step_moves input htimely).2⟩

/-! ### Every run -/

/-- Sound storages with what the vault may have done between them. -/
theorem Storage.Sound.run {s : Storage} (hs : s.Sound) (inputs : List StorageInput)
    (h : System.Meets Storage.step Storage.Timely s inputs) :
    (System.run Storage.step s inputs).Sound ∧
      Vault.Moves s.vault (System.run Storage.step s inputs).vault := by
  induction inputs generalizing s with
  | nil => exact ⟨hs, .refl⟩
  | cons input inputs ih =>
    obtain ⟨hsound, hmoves⟩ := ih (hs.step h.1) h.2
    exact ⟨hsound, (hs.step_moves input h.1).2.trans hmoves⟩

/-- The files of the screenshots are kept. -/
structure Storage.KeepsFiles (s : Storage) : Prop where
  there : ∀ w ∈ s.db.workspaces.rows, w.session.status ≠ .deleting →
    ∀ attachment ∈ w.attachments.rows,
      attachment.storageKey ∈ s.files.keys ∧ attachment.storageKey ∉ s.unlinked
  readable : ∀ attachmentId userId w, workspaceOfAttachment s.db attachmentId = some w →
    w.session.userId = userId → w.session.status ≠ .deleting →
      ∀ attachment, w.attachments.find? attachmentId = some attachment → attachment.available →
        ownedFile s.files attachmentId userId s.db =
          .ok (attachment.storageKey, attachment.file.mimeType) s.db
  attachments_distinct : s.db.storageKeys.Nodup
  jobs_distinct : (s.db.gcJobs.rows.map AgentFileGcJob.storageKey).Nodup

theorem Storage.Sound.there {s : Storage} (hs : s.Sound) (hw : w ∈ s.db.workspaces.rows)
    (hopen : w.session.status ≠ .deleting) {attachment : ChatAttachment}
    (hattachment : attachment ∈ w.attachments.rows) :
    attachment.storageKey ∈ s.files.keys ∧ attachment.storageKey ∉ s.unlinked := by
  obtain ⟨hdisk, hunlinked, -⟩ := hs.vault.kept w.session.id w.folder (folder_of_mem hw)
    (decide_eq_false hopen) attachment.storageKey (List.mem_map_of_mem hattachment)
  exact ⟨hdisk, hunlinked⟩

theorem Storage.Sound.attachments_distinct {s : Storage} (hs : s.Sound) :
    s.db.storageKeys.Nodup := by
  unfold AgentDb.storageKeys
  rw [List.nodup_flatMap]
  refine ⟨fun w hw ↦ hs.vault.nodup w.session.id w.folder (folder_of_mem hw), ?_⟩
  have hkeys : s.db.workspaces.rows.Pairwise (fun w w' ↦ w.session.id ≠ w'.session.id) :=
    List.pairwise_map.mp s.db.workspaces.nodup
  refine hkeys.imp_of_mem fun hw hw' hne key hkey hkey' ↦ hne ?_
  exact hs.vault.apart _ _ (folder_of_mem hw) _ _ (folder_of_mem hw') key hkey hkey'

theorem Storage.Sound.keepsFiles {s : Storage} (hs : s.Sound) : s.KeepsFiles where
  there _ hw hopen _ hattachment := hs.there hw hopen hattachment
  readable attachmentId userId w hfound huser hopen attachment hattachment havailable := by
    have hw : w ∈ s.db.workspaces.rows := List.mem_of_find?_eq_some hfound
    have hthere := hs.there hw hopen ((Table.find?_eq_some_iff _).mp hattachment).1
    unfold ownedFile
    rw [get_bind_eq_ok]
    refine orRaise_bind_eq_ok.mpr ⟨w, hfound, ?_⟩
    refine bind_eq_ok.mpr ⟨w, s.db, requireSession_eq_ok.mpr ⟨⟨hw, rfl⟩, huser, hopen, ?_, rfl⟩, ?_⟩
    · exact fun h ↦ (nomatch h)
    · refine orRaise_bind_eq_ok.mpr ⟨attachment, hattachment, ?_⟩
      exact require_bind_eq_ok.mpr ⟨⟨havailable, hthere.1⟩, rfl⟩
  attachments_distinct := hs.attachments_distinct
  jobs_distinct := by
    have hsingle := hs.vault.single
    unfold Storage.vault AgentDb.removals at hsingle
    rwa [List.map_map] at hsingle

/-- A session is gone only when all files are gone that it ever owned. -/
def Storage.Outlives (s later : Storage) : Prop :=
  ∀ w ∈ s.db.workspaces.rows, w.session.id ∉ later.db.workspaces.keys →
    ∀ attachment ∈ w.attachments.rows,
      attachment.storageKey ∈ later.unlinked ∧ attachment.storageKey ∉ later.files.keys

theorem Storage.Sound.outlives {s later : Storage} (hs : s.Sound) (hlater : later.Sound)
    (hmoves : Vault.Moves s.vault later.vault) : s.Outlives later := by
  intro w hw hgone attachment hattachment
  have htracks : Vault.Tracks w.session.id attachment.storageKey s.vault :=
    Or.inl ⟨w.folder, folder_of_mem hw, List.mem_map_of_mem hattachment⟩
  have hnone : later.vault.folders w.session.id = none := by
    cases hfolder : later.vault.folders w.session.id with
    | none => rfl
    | some folder =>
      obtain ⟨w', hw', hid, -⟩ := folder_eq_some_iff.mp hfolder
      exact absurd ((Table.mem_keys _).mpr ⟨w', hw', hid⟩) hgone
  have hunlinked := hlater.vault.unlinked_of_gone (htracks.moves hs.vault hmoves) hnone
  exact ⟨hunlinked, hlater.vault.gone _ hunlinked⟩

/-- Whatever uploads, deletions, sweeps and clean-ups come between each other, and wherever they are
lost: the file of a screenshot is there and can be read as long as its session is not being deleted,
and a session is gone only when all its files are. -/
theorem files_kept (board : Board) (inputs : List StorageInput)
    (h : System.Meets Storage.step Storage.Timely (.start board) inputs) :
    (System.run Storage.step (.start board) inputs).KeepsFiles ∧
      ∀ earlier, earlier <+: inputs →
        (System.run Storage.step (.start board) earlier).Outlives
          (System.run Storage.step (.start board) inputs) := by
  have hsound : (Storage.start board).Sound := .start board
  refine ⟨(hsound.run inputs h).1.keepsFiles, ?_⟩
  rintro earlier ⟨further, rfl⟩
  obtain ⟨hfirst, hsecond⟩ := System.meets_append.mp h
  obtain ⟨hmiddle, -⟩ := hsound.run earlier hfirst
  obtain ⟨hlast, hmoves⟩ := hmiddle.run further hsecond
  rw [System.run_append]
  exact hmiddle.outlives hlast hmoves

/-- A screenshot is uploaded while a sweep reads the directory. Later its session is deleted, the
file is unlinked, and the session goes. -/
def screenshotLife : List StorageInput :=
  [.other ⟨⟨0, "20260101", IdSource.longer⟩, 0,
      .createSession "user" "session" ⟨.orderIntake, none⟩⟩ id,
    .write "fff.png" 1,
    .findOld (seconds 60),
    .commitUpload ⟨1, "20260101", IdSource.longer⟩ "f" "user" "first" "sha"
      (.ok ⟨"sha", "image/png", 1, 1, 1⟩),
    .sweepOrphans ⟨2, "20260101", IdSource.longer⟩ [],
    .other ⟨⟨3, "20260101", IdSource.longer⟩, 3, .changeStatus "f" "user" "delete" .delete⟩ id,
    .collectOnce ⟨4, "20260101", IdSource.longer⟩ [] true,
    .other ⟨⟨5, "20260101", IdSource.longer⟩, 5, .finishDeletions []⟩ id]

/-- The file is there from its upload on, and gone with the session at the end. -/
theorem files_kept_screenshotLife :
    ((System.run Storage.step (.start .empty) (screenshotLife.take 5)).db.storageKeys =
      ["fff.png"] ∧
      (System.run Storage.step (.start .empty) screenshotLife).db.workspaces.keys = []) ∧
    (System.run Storage.step (.start .empty) screenshotLife).KeepsFiles ∧
      ∀ earlier, earlier <+: screenshotLife →
        (System.run Storage.step (.start .empty) earlier).Outlives
          (System.run Storage.step (.start .empty) screenshotLife) := by
  refine ⟨⟨by decide +kernel, by decide +kernel⟩, files_kept .empty screenshotLife ?_⟩
  refine ⟨trivial, trivial, ?_, trivial, trivial, trivial, trivial, trivial, trivial⟩
  change ∀ file ∈ [(⟨"fff.png", 1⟩ : StoredFile)], file.name ∈ ["fff.png"] →
    seconds 60 - seconds 86400 ≤ file.modifiedAt
  decide

end FilmOS.Agent
