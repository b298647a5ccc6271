import FilmOS.Agent.WorkerLaws

/-!
# Screenshots make progress

Uploading, archiving, restoring and deleting a screenshot, and the clean-up of unsent uploads. While
a screenshot is archived the active item may still be on it; it is put aside before the transaction
ends, so the changes are counted as if it had been put aside first (`deferArchived_changes`).
-/

set_option autoImplicit false
set_option relaxedAutoImplicit false

namespace FilmOS.Agent

open Transaction AgentDb

variable {call : Call} {db db' : AgentDb} {permit : Permit} {fresh : Id → Prop}
  {w w' : Workspace} {command : AgentCommand → Prop}

/-! ### Screenshots that are taken away -/

namespace Workspace

theorem shelved_filter {kept : ChatAttachment → Bool} {origin : ItemOrigin}
    (h : ({ w with attachments := w.attachments.filter kept } : Workspace).shelved origin) :
    w.shelved origin := by
  unfold shelved at h ⊢
  rw [Table.find?_filter] at h
  obtain ⟨attachment, hfound, harchived⟩ := (Option.any_eq_true _ _).mp h
  rw [Option.filter_eq_some_iff] at hfound
  exact (Option.any_eq_true _ _).mpr ⟨attachment, hfound.1, harchived⟩

theorem unarchived_filter {kept : ChatAttachment → Bool} {item : OrderIntakeItem}
    (h : ({ w with attachments := w.attachments.filter kept } : Workspace).unarchived item) :
    w.unarchived item := by
  unfold unarchived at h ⊢
  rw [Table.find?_filter] at h
  obtain ⟨attachment, hfound, harchived⟩ := (Option.any_eq_true _ _).mp h
  rw [Option.filter_eq_some_iff] at hfound
  exact (Option.any_eq_true _ _).mpr ⟨attachment, hfound.1, harchived⟩

/-- The case in hand is the active item. -/
theorem active_of_inHand (hdesk : w.desk.Sound) {case : Case Id ItemOrigin ItemEnd}
    (hcase : case ∈ w.desk.cases) (hphase : case.phase = .inHand) :
    ∃ item ∈ w.items.rows, w.session.activeWorkItemId = some item.id ∧
      item.origin = case.origin := by
  obtain ⟨item, hitem, rfl⟩ := List.mem_map.mp hcase
  exact ⟨item, hitem, (hdesk.inHand_iff item.case hcase).mp hphase, rfl⟩

end Workspace

/-! ### Upload -/

/-- An upload brings up a screenshot. -/
def Permit.upload : Permit := { work := True, files := True }

theorem progress_upload (hsound : db.Sound) {sessionId userId : Id} {clientUploadId sha256 : String}
    {inspected : Except Failure ImageFile} {uploaded : ChatAttachment}
    (h : upload call sessionId userId clientUploadId sha256 inspected db = .ok uploaded db') :
    Progress .upload db db' := by
  unfold upload at h
  obtain ⟨w, db₁, hfound, h⟩ := bind_eq_ok.mp h
  obtain ⟨⟨hw, -⟩, -, -, -, rfl⟩ := requireSession_eq_ok.mp hfound
  obtain ⟨-, h⟩ := require_bind_eq_ok.mp h
  cases hold : w.attachments.rows.find? (·.clientUploadId = clientUploadId) with
  | some old =>
    simp only [hold] at h
    obtain ⟨-, h⟩ := require_bind_eq_ok.mp h
    obtain ⟨-, rfl⟩ := pure_eq_ok.mp h
    exact .refl _
  | none =>
    simp only [hold] at h
    obtain ⟨_, db₂, hcheck, h⟩ := bind_eq_ok.mp h
    obtain ⟨hidle, rfl⟩ := requireIdle_eq_ok.mp hcheck
    obtain ⟨file, -, h⟩ := checked_bind_eq_ok.mp h
    obtain ⟨id, db₃, hid, h⟩ := bind_eq_ok.mp h
    obtain ⟨w₁, hadd, h⟩ := checked_bind_eq_ok.mp h
    obtain ⟨_, db₄, hsave, h⟩ := bind_eq_ok.mp h
    obtain rfl := save_eq_ok.mp hsave
    obtain ⟨-, rfl⟩ := pure_eq_ok.mp h
    have hview := Workspace.view_addAttachment hadd rfl
    obtain ⟨attachments, rfl⟩ : ∃ attachments, w₁ = { w with attachments } := by
      unfold Workspace.addAttachment at hadd
      split at hadd
      · next attachments _ => exact ⟨attachments, (Except.ok.inj hadd).symm⟩
      · cases hadd
    have hshelved : ({ w with attachments } : Workspace).shelved = w.shelved :=
      congrArg (fun view ↦ view.desk.shelved) hview
    have hchanges : w.Changes .upload (Fresh db db₃) { w with attachments } := by
      refine .single (.shelve w attachments (fun case hcase hphase ↦ ?_) (Or.inr trivial)
        (Or.inr trivial))
      rw [hshelved]
      exact (hsound.workspace w hw).desk.not_shelved case hcase hphase
    exact Makes.progress_idle hsound ⟨prepares_generateId hid, hchanges⟩ hw False.elim False.elim
      False.elim hidle
      (Or.inl rfl)

/-! ### Archiving -/

/-- Other screenshots are archived, and the active item is put aside when its screenshot is. -/
theorem deferArchived_changes (hdesk : w.desk.Sound) {attachments : Table ChatAttachment}
    {commandId : Id} (hpick : permit.pick) (hwork : permit.work)
    (hstored : attachments.rows.map ChatAttachment.storageKey =
      w.attachments.rows.map ChatAttachment.storageKey)
    (h : deferArchived call commandId { w with attachments } = .ok w') :
    w.Changes permit fresh w' := by
  have hshelve : ∀ {v : Workspace}, w.Changes permit fresh v → v.desk.Sound →
      v.attachments = w.attachments →
      (∀ item ∈ v.items.rows, v.session.activeWorkItemId = some item.id →
        ¬ ({ v with attachments } : Workspace).shelved item.origin) →
      w.Changes permit fresh { v with attachments } := by
    intro v hchanges hsound hsame hopen
    refine hchanges.tail (.shelve v attachments (fun case hcase hphase ↦ ?_) (Or.inr hwork)
      (Or.inl (hsame ▸ hstored)))
    obtain ⟨item, hitem, hcurrent, horigin⟩ := Workspace.active_of_inHand hsound hcase hphase
    rw [← horigin]
    exact hopen item hitem hcurrent
  unfold deferArchived at h
  dsimp only at h
  cases hcurrent : w.session.activeWorkItemId with
  | none =>
    simp only [hcurrent] at h
    obtain rfl := Except.ok.inj h
    refine hshelve .refl hdesk rfl fun item _ hitem ↦ ?_
    rw [hcurrent] at hitem
    cases hitem
  | some itemId =>
    simp only [hcurrent] at h
    cases hfind : w.items.find? itemId with
    | none =>
      simp only [hfind] at h
      obtain rfl := Except.ok.inj h
      refine hshelve .refl hdesk rfl fun item hitem hid ↦ ?_
      rw [hcurrent] at hid
      exact absurd (Option.some.inj hid).symm ((Table.find?_eq_none_iff _).mp hfind item hitem)
    | some current =>
      simp only [hfind] at h
      obtain ⟨hmem, rfl⟩ := (Table.find?_eq_some_iff _).mp hfind
      cases hsource : attachments.find? current.sourceAttachmentId with
      | none =>
        simp only [hsource] at h
        cases h
      | some source =>
        simp only [hsource] at h
        split_ifs at h with harchived
        · obtain rfl := Except.ok.inj h
          refine hshelve .refl hdesk rfl fun item hitem hid ↦ ?_
          rw [hcurrent] at hid
          rw [w.items.eq_of_key_eq hitem hmem (Option.some.inj hid).symm]
          unfold Workspace.shelved OrderIntakeItem.origin
          simp [hsource, harchived]
        · obtain rfl := Except.ok.inj h
          -- The item is put aside first, and nothing is in hand when the screenshots are archived.
          have hreleased : w.Changes permit fresh ((((w.release current.id .deferred).reviseItem
              current.id).append call .workItemDeferred []
              { workItemId := some current.id, commandId := some commandId })) :=
            ((Workspace.Changes.release .refl hmem hpick hcurrent (by decide)
              (by simp)).reviseItem current.id).append call _ rfl (by decide)
          exact hshelve hreleased (hdesk.moves hreleased.desk) rfl fun _ _ hid ↦ by cases hid

/-- What a command on a screenshot may do beyond entering itself. -/
def Permit.screenshot (userId : Id) (key : String) (request : CommandRequest) : Permit where
  command := Commanded userId key request
  pick := True
  work := True
  status := True
  files := ∃ attachmentId expected, request = .deleteScreenshot attachmentId expected

/-- The session as it is once it was restored for a screenshot, with the screenshots of before. -/
theorem restoreForScreenshot_changes {userId commandId attachmentId : Id} (hstatus : permit.status)
    (hopen : w.session.status ≠ .deleting) :
    ∃ v attachments, w.Changes permit fresh v ∧
      attachments.rows.map ChatAttachment.storageKey =
        v.attachments.rows.map ChatAttachment.storageKey ∧
      restoreForScreenshot call userId commandId attachmentId w = { v with attachments } := by
  have hentered : w.Changes permit fresh
      { w with session := { w.session with status := .active, archivedAt := none } } :=
    .single (.enter w .active none w.session.deletionRequestedAt hstatus
      (Or.inl ⟨fun h ↦ (nomatch h), fun h ↦ absurd h hopen⟩))
  have hrestored : w.Changes permit fresh
      (Workspace.appendBy (.user userId) call .sessionRestored
        [("source_attachment_id", .text attachmentId)] { commandId := some commandId }
        { w with session := { w.session with status := .active, archivedAt := none } }) :=
    hentered.appendBy (.user userId) call _ rfl (by decide)
  refine ⟨_, (archiveSiblings call attachmentId w).attachments, hrestored, ?_, rfl⟩
  unfold archiveSiblings
  rw [Table.rows_mapRows, List.map_map]
  refine List.map_congr_left fun sibling _ ↦ ?_
  rw [Function.comp_apply]
  split_ifs <;> rfl

/-- The request to archive a screenshot, or to restore it. -/
def archiveRequest (attachmentId : Id) (archived : Bool) (expected : ℕ) : CommandRequest :=
  .archiveScreenshot (if archived then .archiveScreenshot else .restoreScreenshot) attachmentId
    archived expected

theorem progress_archiveScreenshot (hsound : db.Sound) {attachmentId userId : Id} {key : String}
    {archived : Bool} {expected : ℕ} {result : CommandResult}
    (h : archiveScreenshot call attachmentId userId key archived expected db = .ok result db') :
    Progress (.screenshot userId key (archiveRequest attachmentId archived expected)) db db' := by
  unfold archiveScreenshot at h
  refine progress_replaying h fun h ↦ ?_
  rw [get_bind_eq_ok] at h
  obtain ⟨found, -, h⟩ := orRaise_bind_eq_ok.mp h
  obtain ⟨w, db₁, hfound, h⟩ := bind_eq_ok.mp h
  obtain ⟨⟨hw, -⟩, -, hdeleting, -, rfl⟩ := requireSession_eq_ok.mp hfound
  obtain ⟨attachment, -, h⟩ := orRaise_bind_eq_ok.mp h
  obtain ⟨-, h⟩ := require_bind_eq_ok.mp h
  obtain ⟨_, db₂, hcheck, h⟩ := bind_eq_ok.mp h
  obtain ⟨hidle, rfl⟩ := requireIdle_eq_ok.mp hcheck
  obtain ⟨-, h⟩ := require_bind_eq_ok.mp h
  obtain ⟨commandId, db₃, hcommandId, h⟩ := bind_eq_ok.mp h
  obtain ⟨w₁, hdefer, h⟩ := checked_bind_eq_ok.mp h
  obtain ⟨_, db₄, hsave, h⟩ := bind_eq_ok.mp h
  obtain rfl := save_eq_ok.mp hsave
  obtain ⟨_, db₅, hcommand, h⟩ := bind_eq_ok.mp h
  obtain ⟨-, rfl⟩ := pure_eq_ok.mp h
  have hdeferred : w.Changes
      (.screenshot userId key (archiveRequest attachmentId archived expected)) (Fresh db db₃)
        w₁ := by
    have hdesk := (hsound.workspace w hw).desk
    by_cases hrestore : archived = false ∧ w.session.status = .archived
    · rw [if_pos hrestore] at hdefer
      have hrestored : ∃ v attachments,
          w.Changes (.screenshot userId key (archiveRequest attachmentId archived expected))
            (Fresh db db₃) v ∧
          attachments.rows.map ChatAttachment.storageKey =
            v.attachments.rows.map ChatAttachment.storageKey ∧
          restoreForScreenshot call userId commandId attachmentId w = { v with attachments } :=
        restoreForScreenshot_changes trivial hdeleting
      obtain ⟨v, attachments, hchanges, hstored, heq⟩ := hrestored
      rw [heq] at hdefer
      refine hchanges.trans (deferArchived_changes (hdesk.moves hchanges.desk) trivial trivial ?_
        hdefer)
      exact Eq.trans (Table.map_update _ attachments _ _ fun _ ↦ rfl) hstored
    · rw [if_neg hrestore] at hdefer
      refine deferArchived_changes hdesk trivial trivial ?_ hdefer
      exact Table.map_update _ w.attachments _ _ fun _ ↦ rfl
  refine AgentDb.Progress.prepare hsound ?_ (prepares_addCommand hcommand ⟨rfl, rfl, rfl⟩)
  refine Makes.progress_idle hsound ⟨prepares_generateId hcommandId, ?_⟩ hw False.elim False.elim
    False.elim hidle ?_
  · exact hdeferred.revise.appendBy (.user userId) call _ rfl (by decide)
  · exact Or.inr (Nat.lt_succ_of_le hdeferred.revision_le)

/-! ### Deletion -/

theorem progress_deleteScreenshot (hsound : db.Sound) {attachmentId userId : Id} {key : String}
    {expected : ℕ} {result : CommandResult}
    (h : deleteScreenshot call attachmentId userId key expected db = .ok result db') :
    Progress (.screenshot userId key (.deleteScreenshot attachmentId expected)) db db' := by
  unfold deleteScreenshot at h
  refine progress_replaying h fun h ↦ ?_
  rw [get_bind_eq_ok] at h
  obtain ⟨found, -, h⟩ := orRaise_bind_eq_ok.mp h
  obtain ⟨w, db₁, hfound, h⟩ := bind_eq_ok.mp h
  obtain ⟨⟨hw, -⟩, -, -, -, rfl⟩ := requireSession_eq_ok.mp hfound
  obtain ⟨attachment, -, h⟩ := orRaise_bind_eq_ok.mp h
  obtain ⟨-, h⟩ := require_bind_eq_ok.mp h
  obtain ⟨_, db₂, hcheck, h⟩ := bind_eq_ok.mp h
  obtain ⟨hidle, rfl⟩ := requireIdle_eq_ok.mp hcheck
  obtain ⟨-, h⟩ := require_bind_eq_ok.mp h
  obtain ⟨-, h⟩ := require_bind_eq_ok.mp h
  obtain ⟨_, db₃, hjob, h⟩ := bind_eq_ok.mp h
  obtain ⟨commandId, db₄, hcommandId, h⟩ := bind_eq_ok.mp h
  obtain ⟨_, db₅, hsave, h⟩ := bind_eq_ok.mp h
  obtain rfl := save_eq_ok.mp hsave
  obtain ⟨_, db₆, hcommand, h⟩ := bind_eq_ok.mp h
  obtain ⟨-, rfl⟩ := pure_eq_ok.mp h
  have hremoved : w.Changes (.screenshot userId key (.deleteScreenshot attachmentId expected))
      (Fresh db db₄) (removeScreenshot attachmentId w) :=
    .single (.removeScreenshot w attachmentId hidle
      (hsound.workspace w hw).desk.not_shelved trivial ⟨attachmentId, expected, rfl⟩)
  refine AgentDb.Progress.prepare hsound ?_ (prepares_addCommand hcommand ⟨rfl, rfl, rfl⟩)
  have hfirst : Prepares (Commanded userId key (.deleteScreenshot attachmentId expected))
      (.screenshot userId key (.deleteScreenshot attachmentId expected)) db db₃ :=
    prepares_addGcJob ⟨attachmentId, expected, rfl⟩ hjob
  refine Makes.progress_idle hsound ⟨hfirst.trans (prepares_generateId hcommandId), ?_⟩ hw
    False.elim False.elim False.elim hidle ?_
  · exact hremoved.revise.appendBy (.user userId) call _ rfl (by decide)
  · exact Or.inr (Nat.lt_succ_of_le hremoved.revision_le)

/-! ### Clean-up -/

theorem progress_sweepSession (hsound : db.Sound) {sessionId : Id} {count : ℕ}
    (h : sweepSession call sessionId db = .ok count db') : Progress .cleaning db db' := by
  unfold sweepSession at h
  rw [get_bind_eq_ok] at h
  cases hfind : db.workspaces.find? sessionId with
  | none =>
    simp only [hfind, pure_eq_ok] at h
    obtain ⟨-, rfl⟩ := h
    exact .refl _
  | some w =>
    simp only [hfind] at h
    obtain ⟨hw, -⟩ := mem_of_find? hfind
    obtain ⟨_, db₁, hjobs, h⟩ := bind_eq_ok.mp h
    obtain ⟨_, db₂, hsave, h⟩ := bind_eq_ok.mp h
    obtain rfl := save_eq_ok.mp hsave
    obtain ⟨-, rfl⟩ := pure_eq_ok.mp h
    refine progress_quiet hsound hw ?_ (prepares_addGcJobs trivial _ hjobs) id id id id id
    refine .single (.shelve w _ (fun case hcase hphase hshelved ↦ ?_)
      (Or.inl fun item _ ↦ Workspace.unarchived_filter) (Or.inr trivial))
    exact (hsound.workspace w hw).desk.not_shelved case hcase hphase
      (Workspace.shelved_filter hshelved)

theorem progress_sweepSessions (sessionIds : List Id) :
    ∀ {db db' : AgentDb} {count : ℕ}, db.Sound →
      sweepSessions call sessionIds db = .ok count db' → Progress .cleaning db db' := by
  induction sessionIds with
  | nil =>
    intro db db' count _ h
    obtain ⟨-, rfl⟩ := pure_eq_ok.mp h
    exact .refl _
  | cons sessionId sessionIds ih =>
    intro db db' count hsound h
    obtain ⟨first, db₁, hfirst, h⟩ := bind_eq_ok.mp h
    obtain ⟨rest, db₂, hrest, h⟩ := bind_eq_ok.mp h
    obtain ⟨-, rfl⟩ := pure_eq_ok.mp h
    have hprogress := progress_sweepSession hsound hfirst
    exact hprogress.trans (ih (hsound.progress hprogress) hrest)

theorem progress_sweepStaged (hsound : db.Sound) {candidates skipped : List Id} {count : ℕ}
    (h : sweepStaged call candidates skipped db = .ok count db') : Progress .cleaning db db' := by
  unfold sweepStaged at h
  rw [get_bind_eq_ok] at h
  exact progress_sweepSessions _ hsound h

end FilmOS.Agent
