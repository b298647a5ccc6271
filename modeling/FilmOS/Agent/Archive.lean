import FilmOS.Agent.ScreenshotLaws
import FilmOS.Agent.ScreenshotList
import FilmOS.Agent.System

/-!
# Archiving one screenshot

A screenshot is archived when it was archived itself or when its session was. `Workspace.archive` is
the set of the screenshots of a session that are archived in either way, and `Rearranges` what a
command on one screenshot may do: the set gains or loses that screenshot, the active item is put
aside when its screenshot is now archived itself, and everything else about the items stays.

`archiveScreenshot_rearranges` says that an accepted command does this in every reachable state,
also when it restores one screenshot of an archived session, and that a command that is not accepted
changes nothing.
-/

set_option autoImplicit false
set_option relaxedAutoImplicit false

namespace FilmOS.Agent

open Transaction AgentDb

/-! ### The archive of a session -/

/-- The bound screenshots of a session that are archived, themselves or with the session. -/
def Workspace.archive (w : Workspace) : Set Id :=
  {id | ∃ attachment ∈ w.attachments.rows, attachment.id = id ∧ attachment.status = .bound ∧
    effectivelyArchived w.session attachment = true}

/-- The screenshot of an item is archived itself. -/
def Workspace.sourceShelved (w : Workspace) (item : OrderIntakeItem) : Bool :=
  (w.attachments.find? item.sourceAttachmentId).any (·.intakeArchivedAt.isSome)

/-- An item as it is once its screenshot may have been archived. -/
def Workspace.putAside (w : Workspace) (item : OrderIntakeItem) : OrderIntakeItem :=
  if item.status = .active ∧ w.sourceShelved item then
    { item with status := .deferred, revision := item.revision + 1 }
  else item

/-- The archive of a session gains one screenshot, or loses it, and its items stay as they are but
for an active one whose screenshot is now archived. -/
structure Rearranges (archived : Bool) (attachmentId : Id) (w w' : Workspace) : Prop where
  session : w'.session.id = w.session.id
  archive : w'.archive =
    if archived then insert attachmentId w.archive else w.archive \ {attachmentId}
  items : w'.items.rows = w.items.rows.map w'.putAside

/-- The command is accepted: its key is new, and it returns. -/
def ArchiveAccepted (call : Call) (attachmentId userId : Id) (key : String) (archived : Bool)
    (expected : ℕ) (db : AgentDb) : Prop :=
  db.commands.find? (userId, key) = none ∧ ∃ result db',
    archiveScreenshot call attachmentId userId key archived expected db = .ok result db'

variable {call : Call} {attachmentId commandId userId : Id} {archived : Bool} {w v w' : Workspace}

theorem mem_archive {id : Id} : id ∈ w.archive ↔ ∃ attachment ∈ w.attachments.rows,
    attachment.id = id ∧ attachment.status = .bound ∧
      (attachment.intakeArchivedAt.isSome ∨ w.session.status = .archived) := by
  unfold Workspace.archive effectivelyArchived
  simp only [Set.mem_ofPred_eq, Bool.or_eq_true, decide_eq_true_eq]

/-- The archive of a session reads its screenshots and its status. -/
theorem archive_congr (hattachments : v.attachments = w.attachments)
    (hstatus : v.session.status = w.session.status) : v.archive = w.archive := by
  ext id
  rw [mem_archive, mem_archive, hattachments, hstatus]

/-! ### The screenshots after a command -/

/-- The screenshots of an archived session are archived in its place when one of them is
restored. -/
def restoring (archived : Bool) (w : Workspace) : Prop :=
  archived = false ∧ w.session.status = .archived

instance (archived : Bool) (w : Workspace) : Decidable (restoring archived w) :=
  inferInstanceAs (Decidable (_ ∧ _))

/-- Archiving a screenshot does not rename it. -/
theorem id_marked (call : Call) (archived : Bool) (row : ChatAttachment) :
    { row with
      intakeArchivedAt := if archived then some call.now else none
      intakeRevision := row.intakeRevision + 1 }.id = row.id :=
  rfl

/-- The session with its screenshots as the command leaves them. -/
def Workspace.mark (call : Call) (userId commandId attachmentId : Id) (archived : Bool)
    (w : Workspace) : Workspace :=
  (if restoring archived w then restoreForScreenshot call userId commandId attachmentId w
    else w).setAttachment attachmentId (fun row ↦
      { row with
        intakeArchivedAt := if archived then some call.now else none
        intakeRevision := row.intakeRevision + 1 }) (id_marked call archived)

/-- What a command on one screenshot makes of a screenshot: the one that was named is archived or
not, the bound ones besides it are archived when the session is restored for it, and otherwise
stay. -/
structure Marks (archived : Bool) (attachmentId : Id) (restoring : Prop)
    (row later : ChatAttachment) : Prop where
  id : later.id = row.id
  status : later.status = row.status
  named : row.id = attachmentId → later.intakeArchivedAt.isSome = archived
  sibling : row.id ≠ attachmentId → restoring → row.status = .bound →
    later.intakeArchivedAt.isSome
  other : row.id ≠ attachmentId → ¬ restoring → later = row

/-- The mark on the screenshot that was named comes after those on its siblings. -/
theorem marks_named {restoring : Prop} {sibling : ChatAttachment → ChatAttachment}
    (hid : ∀ row, (sibling row).id = row.id) (hstatus : ∀ row, (sibling row).status = row.status)
    (hrestoring : ∀ row, row.id ≠ attachmentId → restoring → row.status = .bound →
      (sibling row).intakeArchivedAt.isSome)
    (hother : ∀ row, ¬ restoring → sibling row = row) (row : ChatAttachment) :
    Marks archived attachmentId restoring row
      (if (sibling row).id = attachmentId then
        { sibling row with
          intakeArchivedAt := if archived then some call.now else none
          intakeRevision := (sibling row).intakeRevision + 1 }
      else sibling row) := by
  by_cases hnamed : row.id = attachmentId
  · rw [if_pos ((hid row).trans hnamed)]
    refine ⟨hid row, hstatus row, fun _ ↦ ?_, fun hne ↦ absurd hnamed hne,
      fun hne ↦ absurd hnamed hne⟩
    cases archived
    · rfl
    · rfl
  · rw [if_neg (hid row ▸ hnamed)]
    exact ⟨hid row, hstatus row, fun h ↦ absurd h hnamed, fun hne ↦ hrestoring row hne,
      fun _ ↦ hother row⟩

/-- The screenshots of a marked session. -/
theorem attachments_mark (w : Workspace) : ∃ marked : ChatAttachment → ChatAttachment,
    (w.mark call userId commandId attachmentId archived).attachments.rows =
        w.attachments.rows.map marked ∧
      ∀ row, Marks archived attachmentId (restoring archived w) row (marked row) := by
  unfold Workspace.mark Workspace.setAttachment
  by_cases hrestoring : restoring archived w
  · rw [if_pos hrestoring]
    refine ⟨_, List.map_map, marks_named ?_ ?_ ?_ fun _ hnot ↦ absurd hrestoring hnot⟩
    · intro row
      split_ifs
      · rfl
      · rfl
    · intro row
      split_ifs
      · rfl
      · rfl
    · intro row hne _ hbound
      split_ifs with hcondition
      · rfl
      · exact Option.isSome_iff_ne_none.mpr fun hnone ↦ hcondition ⟨hbound, hne, hnone⟩
  · rw [if_neg hrestoring]
    exact ⟨_, rfl, marks_named (fun _ ↦ rfl) (fun _ ↦ rfl) (fun _ _ h ↦ absurd h hrestoring)
      fun _ _ ↦ rfl⟩

theorem status_mark_of_restoring (h : restoring archived w) :
    (w.mark call userId commandId attachmentId archived).session.status = .active := by
  unfold Workspace.mark
  rw [if_pos h]
  rfl

theorem status_mark_of_not_restoring (h : ¬ restoring archived w) :
    (w.mark call userId commandId attachmentId archived).session.status = w.session.status := by
  unfold Workspace.mark
  rw [if_neg h]
  rfl

/-- Which screenshots are archived after the command, themselves or with the session. -/
theorem archived_mark_iff {row later : ChatAttachment}
    (h : Marks archived attachmentId (restoring archived w) row later)
    (hbound : row.status = .bound) : (later.intakeArchivedAt.isSome ∨
        (w.mark call userId commandId attachmentId archived).session.status = .archived) ↔
      if archived then
        row.id = attachmentId ∨ row.intakeArchivedAt.isSome ∨ w.session.status = .archived
      else row.id ≠ attachmentId ∧
        (row.intakeArchivedAt.isSome ∨ w.session.status = .archived) := by
  by_cases hrestoring : restoring archived w
  · obtain ⟨harchived, hsession⟩ := id hrestoring
    rw [status_mark_of_restoring hrestoring]
    by_cases hid : row.id = attachmentId
    · simp [harchived, hid, h.named hid]
    · simp [harchived, hid, h.sibling hid hrestoring hbound, hsession]
  · rw [status_mark_of_not_restoring hrestoring]
    by_cases hid : row.id = attachmentId
    · cases harchived : archived with
      | true => simp [hid, h.named hid, harchived]
      | false =>
        have hopen : w.session.status ≠ .archived := fun hsession ↦ hrestoring ⟨harchived, hsession⟩
        simp [hid, h.named hid, harchived, hopen]
    · rw [h.other hid hrestoring]
      simp [hid]

/-- The archive gains the screenshot that was named, or loses it. -/
theorem archive_mark {attachment : ChatAttachment} (hmem : attachment ∈ w.attachments.rows)
    (hid : attachment.id = attachmentId) (hbound : attachment.status = .bound) :
    (w.mark call userId commandId attachmentId archived).archive =
      if archived then insert attachmentId w.archive else w.archive \ {attachmentId} := by
  obtain ⟨marked, hrows, hmarks⟩ := @attachments_mark call attachmentId commandId
    userId archived w
  have hmark : ∀ id, id ∈ (w.mark call userId commandId attachmentId archived).archive ↔
      ∃ row ∈ w.attachments.rows, row.id = id ∧ row.status = .bound ∧ if archived then
        row.id = attachmentId ∨ row.intakeArchivedAt.isSome ∨ w.session.status = .archived
      else row.id ≠ attachmentId ∧
        (row.intakeArchivedAt.isSome ∨ w.session.status = .archived) := by
    intro id
    rw [mem_archive, hrows]
    constructor
    · rintro ⟨_, hlater, hrow, hstatus, harchived⟩
      obtain ⟨row, hmem, rfl⟩ := List.mem_map.mp hlater
      have hstatus' : row.status = .bound := (hmarks row).status.symm.trans hstatus
      exact ⟨row, hmem, (hmarks row).id.symm.trans hrow, hstatus',
        (archived_mark_iff (hmarks row) hstatus').mp harchived⟩
    · rintro ⟨row, hmem, hrow, hstatus, harchived⟩
      exact ⟨marked row, List.mem_map_of_mem hmem, (hmarks row).id.trans hrow,
        (hmarks row).status.trans hstatus, (archived_mark_iff (hmarks row) hstatus).mpr harchived⟩
  ext id
  rw [hmark]
  cases harchived : archived with
  | true =>
    simp only [if_true, Set.mem_insert_iff, mem_archive]
    constructor
    · rintro ⟨row, hrow, rfl, hstatus, hnamed | hrest⟩
      · exact Or.inl hnamed
      · exact Or.inr ⟨row, hrow, rfl, hstatus, hrest⟩
    · rintro (rfl | ⟨row, hrow, hrowId, hstatus, hrest⟩)
      · exact ⟨attachment, hmem, hid, hbound, Or.inl hid⟩
      · exact ⟨row, hrow, hrowId, hstatus, Or.inr hrest⟩
  | false =>
    simp only [Bool.false_eq_true, if_false, Set.mem_sdiff, Set.mem_singleton_iff, mem_archive]
    constructor
    · rintro ⟨row, hrow, rfl, hstatus, hne, hrest⟩
      exact ⟨⟨row, hrow, rfl, hstatus, hrest⟩, hne⟩
    · rintro ⟨⟨row, hrow, rfl, hstatus, hrest⟩, hne⟩
      exact ⟨row, hrow, rfl, hstatus, hne, hrest⟩

/-! ### The items after a command -/

/-- When no active item is on a screenshot that is archived itself, every item stays. -/
theorem map_putAside_of_not_shelved (h : ∀ item ∈ w.items.rows, item.status = .active →
    v.sourceShelved item = false) : w.items.rows.map v.putAside = w.items.rows := by
  refine (List.map_congr_left fun item hitem ↦ ?_).trans (List.map_id _)
  unfold Workspace.putAside
  refine if_neg ?_
  rintro ⟨hactive, hshelved⟩
  rw [h item hitem hactive] at hshelved
  cases hshelved

/-- The active item is put aside exactly when its screenshot is now archived itself. -/
theorem items_deferArchived (hdesk : w.desk.Sound) (hitems : v.items = w.items)
    (hcurrent : v.session.activeWorkItemId = w.session.activeWorkItemId)
    (h : deferArchived call commandId v = .ok w') :
    w'.attachments = v.attachments ∧ w'.session.status = v.session.status ∧
      w'.session.id = v.session.id ∧ w'.items.rows = w.items.rows.map w'.putAside := by
  -- When nothing is put aside, the active item is not on a screenshot that is archived itself.
  have hstays : (∀ item ∈ w.items.rows, item.status = .active → v.sourceShelved item = false) →
      v.attachments = v.attachments ∧ v.session.status = v.session.status ∧
        v.session.id = v.session.id ∧ v.items.rows = w.items.rows.map v.putAside := by
    intro hnot
    rw [map_putAside_of_not_shelved hnot, hitems]
    exact ⟨rfl, rfl, rfl, rfl⟩
  unfold deferArchived at h
  cases hpointer : v.session.activeWorkItemId with
  | none =>
    simp only [hpointer] at h
    obtain rfl := Except.ok.inj h
    refine hstays fun item hitem hactive ↦ ?_
    rw [Workspace.active_iff_current hdesk hitem, ← hcurrent, hpointer] at hactive
    cases hactive
  | some itemId =>
    simp only [hpointer, hitems] at h
    have hpointer' : w.session.activeWorkItemId = some itemId := hcurrent.symm.trans hpointer
    obtain ⟨current, hfind⟩ : ∃ current, w.items.find? itemId = some current := by
      obtain ⟨case, hcase, hid⟩ := hdesk.current_mem itemId hpointer'
      obtain ⟨item, hitem, rfl⟩ := List.mem_map.mp hcase
      exact ⟨item, (Table.find?_eq_some_iff _).mpr ⟨hitem, hid⟩⟩
    obtain ⟨hmem, rfl⟩ := (Table.find?_eq_some_iff _).mp hfind
    simp only [hfind] at h
    have honly : ∀ item ∈ w.items.rows, item.status = .active → item = current := by
      intro item hitem hactive
      rw [Workspace.active_iff_current hdesk hitem, hpointer'] at hactive
      exact w.items.eq_of_key_eq hitem hmem (Option.some.inj hactive).symm
    cases hsource : v.attachments.find? current.sourceAttachmentId with
    | none =>
      simp only [hsource] at h
      cases h
    | some source =>
      simp only [hsource] at h
      have hshelved : v.sourceShelved current = source.intakeArchivedAt.isSome := by
        unfold Workspace.sourceShelved
        rw [hsource, Option.any_some]
      by_cases harchived : source.intakeArchivedAt = none
      · rw [if_pos harchived] at h
        obtain rfl := Except.ok.inj h
        refine hstays fun item hitem hactive ↦ ?_
        rw [honly item hitem hactive, hshelved, harchived]
        rfl
      · rw [if_neg harchived] at h
        obtain rfl := Except.ok.inj h
        refine ⟨rfl, rfl, rfl, ?_⟩
        change (v.items.rows.map _).map _ = _
        rw [hitems, List.map_map]
        refine List.map_congr_left fun item hitem ↦ ?_
        by_cases hid : item.id = current.id
        · have hitem' : item = current := w.items.eq_of_key_eq hitem hmem hid
          have hactive : current.status = .active :=
            (Workspace.active_iff_current hdesk hmem).mpr hpointer'
          have hput : v.putAside current =
              { current with status := .deferred, revision := current.revision + 1 } := by
            unfold Workspace.putAside
            refine if_pos ⟨hactive, ?_⟩
            rw [hshelved]
            exact Option.isSome_iff_ne_none.mpr harchived
          rw [hitem']
          refine Eq.trans ?_ hput.symm
          simp only [Function.comp_apply, key_item, if_true]
        · have hput : v.putAside item = item := by
            unfold Workspace.putAside
            exact if_neg fun hcondition ↦ hid (congrArg _ (honly item hitem hcondition.1))
          refine Eq.trans ?_ hput.symm
          simp only [Function.comp_apply, key_item, if_neg hid]

/-! ### The command -/

theorem items_mark (w : Workspace) :
    (w.mark call userId commandId attachmentId archived).items = w.items ∧
      (w.mark call userId commandId attachmentId archived).session.activeWorkItemId =
        w.session.activeWorkItemId ∧
      (w.mark call userId commandId attachmentId archived).session.id = w.session.id := by
  unfold Workspace.mark
  by_cases h : restoring archived w
  · rw [if_pos h]
    exact ⟨rfl, rfl, rfl⟩
  · rw [if_neg h]
    exact ⟨rfl, rfl, rfl⟩

/-- The session that a command on one screenshot saves. -/
theorem rearranges_of_deferArchived (hdesk : w.desk.Sound) {attachment : ChatAttachment}
    (hmem : attachment ∈ w.attachments.rows) (hid : attachment.id = attachmentId)
    (hbound : attachment.status = .bound) (h : deferArchived call commandId
      (w.mark call userId commandId attachmentId archived) = .ok w') :
    Rearranges archived attachmentId w w' := by
  have hitems : (w.mark call userId commandId attachmentId archived).items = w.items :=
    (items_mark w).1
  obtain ⟨hattachments, hstatus, hsession, hrows⟩ :=
    items_deferArchived hdesk hitems (items_mark w).2.1 h
  refine ⟨hsession.trans (items_mark w).2.2, ?_, hrows⟩
  rw [archive_congr hattachments hstatus]
  exact archive_mark hmem hid hbound

/-- What is read of a session is not changed by its log and its revision. -/
theorem Rearranges.congr (h : Rearranges archived attachmentId w v)
    (hattachments : w'.attachments = v.attachments) (hitems : w'.items = v.items)
    (hstatus : w'.session.status = v.session.status) (hid : w'.session.id = v.session.id) :
    Rearranges archived attachmentId w w' := by
  refine ⟨hid.trans h.session, ?_, ?_⟩
  · rw [archive_congr hattachments hstatus]
    exact h.archive
  · have hput : w'.putAside = v.putAside := by
      funext item
      unfold Workspace.putAside Workspace.sourceShelved
      rw [hattachments]
    rw [hitems, hput]
    exact h.items

/-- What a command on one screenshot does. Accepted, it comes from the owner of an idle session,
under the revision of the screenshot, and changes the archive and the active item of that session,
no other session and no order. Otherwise it changes nothing. -/
structure ArchiveEffect (call : Call) (attachmentId userId : Id) (key : String) (archived : Bool)
    (expected : ℕ) (db db' : AgentDb) : Prop where
  accepted : ArchiveAccepted call attachmentId userId key archived expected db →
    ∃ w ∈ db.workspaces.rows, ∃ w' ∈ db'.workspaces.rows, Rearranges archived attachmentId w w' ∧
      (w.session.userId = userId ∧ w.openRun = none ∧ ∃ attachment ∈ w.attachments.rows,
        attachment.id = attachmentId ∧ attachment.status = .bound ∧
          attachment.intakeRevision = expected) ∧
      (∀ other, other.session.id ≠ w.session.id →
        (other ∈ db'.workspaces.rows ↔ other ∈ db.workspaces.rows)) ∧
      db'.board.orders = db.board.orders
  otherwise : ¬ ArchiveAccepted call attachmentId userId key archived expected db → db' = db

variable {db db' : AgentDb} {key : String} {expected : ℕ} {result : CommandResult}

/-- What a returning command with a new key has done. -/
theorem archiveScreenshot_ok (hsound : db.Sound) (hkey : db.commands.find? (userId, key) = none)
    (h : archiveScreenshot call attachmentId userId key archived expected db = .ok result db') :
    ∃ w ∈ db.workspaces.rows, ∃ w' ∈ db'.workspaces.rows, Rearranges archived attachmentId w w' ∧
      (w.session.userId = userId ∧ w.openRun = none ∧ ∃ attachment ∈ w.attachments.rows,
        attachment.id = attachmentId ∧ attachment.status = .bound ∧
          attachment.intakeRevision = expected) ∧
      (∀ other, other.session.id ≠ w.session.id →
        (other ∈ db'.workspaces.rows ↔ other ∈ db.workspaces.rows)) ∧
      db'.board.orders = db.board.orders := by
  unfold archiveScreenshot at h
  rcases replaying_ok h with ⟨row, hrow, -⟩ | ⟨-, h⟩
  · rw [hkey] at hrow
    cases hrow
  rw [get_bind_eq_ok] at h
  obtain ⟨found, -, h⟩ := orRaise_bind_eq_ok.mp h
  obtain ⟨w, db₁, hfound, h⟩ := bind_eq_ok.mp h
  obtain ⟨⟨hw, -⟩, huser, -, -, rfl⟩ := requireSession_eq_ok.mp hfound
  obtain ⟨attachment, hattachment, h⟩ := orRaise_bind_eq_ok.mp h
  obtain ⟨⟨-, hbound⟩, h⟩ := require_bind_eq_ok.mp h
  obtain ⟨_, db₂, hcheck, h⟩ := bind_eq_ok.mp h
  obtain ⟨hidle, rfl⟩ := requireIdle_eq_ok.mp hcheck
  obtain ⟨hrevision, h⟩ := require_bind_eq_ok.mp h
  obtain ⟨commandId, db₃, hcommandId, h⟩ := bind_eq_ok.mp h
  obtain ⟨-, rfl⟩ := generateId_eq_ok.mp hcommandId
  obtain ⟨w₁, hdefer, h⟩ := checked_bind_eq_ok.mp h
  obtain ⟨_, db₄, hsave, h⟩ := bind_eq_ok.mp h
  obtain rfl := save_eq_ok.mp hsave
  obtain ⟨_, db₅, hcommand, h⟩ := bind_eq_ok.mp h
  obtain ⟨commands, -, rfl⟩ := addCommand_eq_ok.mp hcommand
  obtain ⟨-, rfl⟩ := pure_eq_ok.mp h
  obtain ⟨hmem, hid⟩ := (Table.find?_eq_some_iff _).mp hattachment
  have hrearranges : Rearranges archived attachmentId w w₁ :=
    rearranges_of_deferArchived (hsound.workspace w hw).desk hmem hid hbound hdefer
  refine ⟨w, hw, _, (Table.mem_put _).mpr (Or.inl rfl), hrearranges.congr rfl rfl rfl rfl,
    ⟨huser, openRun_eq_none_iff.mpr hidle, attachment, hmem, hid, hbound, hrevision⟩,
    fun other hother ↦ ?_, rfl⟩
  refine (Table.mem_put _).trans ⟨fun h ↦ ?_, fun h ↦ Or.inr ⟨h, fun hsame ↦ ?_⟩⟩
  · rcases h with rfl | ⟨h, -⟩
    · exact absurd hrearranges.session hother
    · exact h
  · exact hother (hsame.trans hrearranges.session)

/-- In every reachable state, an accepted command to archive a screenshot adds it to the archive of
its session, and one to restore it takes it out, also when the whole session was archived. Drafts,
orders and the other items stay, and a command that is not accepted changes nothing. -/
theorem archiveScreenshot_rearranges (board : Board) (inputs : List AgentInput) (call : Call)
    (later : Time) (attachmentId userId : Id) (key : String) (archived : Bool) (expected : ℕ) :
    ArchiveEffect call attachmentId userId key archived expected
      (System.run step (AgentDb.start board) inputs)
      (step (System.run step (AgentDb.start board) inputs)
        ⟨call, later, .archiveScreenshot attachmentId userId key archived expected⟩) := by
  have hsound := sound_run board inputs
  generalize System.run step (AgentDb.start board) inputs = db at hsound ⊢
  change ArchiveEffect _ _ _ _ _ _ db
    (commit (archiveScreenshot call attachmentId userId key archived expected) db)
  constructor
  · rintro ⟨hkey, result, db', h⟩
    rw [commit_of_ok h]
    exact archiveScreenshot_ok hsound hkey h
  · intro hnot
    rcases commit_cases (archiveScreenshot call attachmentId userId key archived expected) db with
      hsame | ⟨result, db', hok, hcommit⟩
    · exact hsame
    · -- A command that returns without being accepted is a repetition of an earlier one.
      rw [hcommit]
      rcases replaying_ok hok with ⟨row, -, -, -, hsame⟩ | ⟨hkey, -⟩
      · exact hsame
      · exact absurd ⟨hkey, result, db', hok⟩ hnot

end FilmOS.Agent
