import FilmOS.Agent.RunLife

/-!
# The life of a work item

What the moves of a desk say about the rows. In every session that a run of the system reaches the
pointer of the session is the identifier of the one item that is active, and the screenshot of that
item is not archived (`Workspace.ItemsSound`). An item that was created or closed stays so while it
is there, and when another item becomes the active one the session gets a new revision
(`items_keep_state`).
-/

set_option autoImplicit false
set_option relaxedAutoImplicit false

namespace FilmOS.Agent

open Transaction AgentDb

/-! ### The items of a session -/

/-- What the rows of a session say about its items. -/
structure Workspace.ItemsSound (w : Workspace) : Prop where
  one_active : ∀ item ∈ w.items.rows, ∀ other ∈ w.items.rows, item.status = .active →
    other.status = .active → item = other
  current : ∀ itemId, w.session.activeWorkItemId = some itemId ↔
    ∃ item ∈ w.items.rows, item.id = itemId ∧ item.status = .active
  unarchived : ∀ item ∈ w.items.rows, item.status = .active → ∀ attachment ∈ w.attachments.rows,
    attachment.id = item.sourceAttachmentId → attachment.intakeArchivedAt = none

/-- The invariant of the desk, read off the rows. -/
theorem Workspace.Sound.itemsSound {w : Workspace} (hsound : w.Sound) : w.ItemsSound where
  one_active item hitem other hother hactive hactive' := by
    have hcurrent := (Workspace.active_iff_current hsound.desk hitem).mp hactive
    have hcurrent' := (Workspace.active_iff_current hsound.desk hother).mp hactive'
    exact w.items.eq_of_key_eq hitem hother (Option.some.inj (hcurrent.symm.trans hcurrent'))
  current itemId := by
    constructor
    · intro hcurrent
      obtain ⟨case, hcase, hid⟩ := hsound.desk.current_mem itemId hcurrent
      obtain ⟨item, hitem, rfl⟩ := List.mem_map.mp hcase
      refine ⟨item, hitem, hid, (Workspace.active_iff_current hsound.desk hitem).mpr ?_⟩
      exact hcurrent.trans (congrArg some hid.symm)
    · rintro ⟨item, hitem, rfl, hactive⟩
      exact (Workspace.active_iff_current hsound.desk hitem).mp hactive
  unarchived item hitem hactive attachment hattachment hid := by
    have hphase : item.case.phase = .inHand := by
      unfold OrderIntakeItem.case
      rw [hactive]
      rfl
    have hopen := hsound.desk.not_shelved item.case (List.mem_map_of_mem hitem) hphase
    have hfind : w.attachments.find? item.sourceAttachmentId = some attachment :=
      (Table.find?_eq_some_iff _).mpr ⟨hattachment, hid⟩
    by_contra harchived
    refine hopen ?_
    change (w.attachments.find? item.sourceAttachmentId).any (·.intakeArchivedAt.isSome) = true
    rw [hfind]
    exact Option.isSome_iff_ne_none.mpr harchived

/-! ### From one state to a later one -/

/-- The item is stored. -/
def AgentDb.HasItem (db : AgentDb) (item : OrderIntakeItem) : Prop :=
  ∃ w ∈ db.workspaces.rows, item ∈ w.items.rows

/-- The later state has drawn what the earlier one had drawn, and its items are cases that evolved
from those that were stored before. -/
structure AgentDb.Continues (db db' : AgentDb) : Prop where
  issued : db.board.issued ⊆ db'.board.issued
  origin : ∀ item', db'.HasItem item' → item'.id ∈ db.board.issued →
    ∃ item, db.HasItem item ∧ item.id = item'.id ∧ item.case.Precedes item'.case

variable {call : Call} {later : Time} {db db' : AgentDb} {permit : Permit}

theorem AgentDb.Sound.item_issued (hsound : db.Sound) {item : OrderIntakeItem}
    (hitem : db.HasItem item) : item.id ∈ db.board.issued := by
  obtain ⟨w, hw, hitem⟩ := hitem
  exact hsound.issued w hw item.id (Or.inr (Or.inl ((Table.mem_keys _).mpr ⟨item, hitem, rfl⟩)))

/-- An item is known by its identifier. -/
theorem AgentDb.Sound.item_eq (hsound : db.Sound) {item other : OrderIntakeItem}
    (hitem : db.HasItem item) (hother : db.HasItem other) (hid : item.id = other.id) :
    item = other := by
  obtain ⟨w, hw, hitem⟩ := hitem
  obtain ⟨v, hv, hother⟩ := hother
  have huses : w.Uses item.id := Or.inr (Or.inl ((Table.mem_keys _).mpr ⟨item, hitem, rfl⟩))
  have huses' : v.Uses item.id :=
    Or.inr (Or.inl ((Table.mem_keys _).mpr ⟨other, hother, hid.symm⟩))
  obtain rfl := hsound.apart w hw v hv item.id huses huses'
  exact w.items.eq_of_key_eq hitem hother hid

theorem AgentDb.Continues.refl (db : AgentDb) : db.Continues db where
  issued := List.Subset.refl _
  origin item hitem _ := ⟨item, hitem, rfl, .refl _⟩

theorem AgentDb.Continues.trans {db₁ db₂ : AgentDb} (h : db.Continues db₁)
    (h' : db₁.Continues db₂) : db.Continues db₂ where
  issued := List.Subset.trans h.issued h'.issued
  origin item₂ hitem₂ hissued := by
    obtain ⟨item₁, hitem₁, hid₁, hprecedes₁⟩ := h'.origin item₂ hitem₂ (h.issued hissued)
    obtain ⟨item, hitem, hid, hprecedes⟩ := h.origin item₁ hitem₁ (hid₁ ▸ hissued)
    exact ⟨item, hitem, hid.trans hid₁, hprecedes.trans hprecedes₁⟩

/-- The items after a transaction evolved from those before it. -/
theorem AgentDb.Progress.continues (h : Progress permit db db') (hsound : db.Sound) :
    db.Continues db' where
  issued := h.issued
  origin item' hitem' hissued := by
    obtain ⟨w', hw', hitem'⟩ := hitem'
    have horigin : ∀ w : Workspace, w.Sound → w.Evolves permit (Fresh db db') w' →
        ∃ item ∈ w.items.rows, item.id = item'.id ∧ item.case.Precedes item'.case := by
      intro w hw hevolves
      rcases hevolves.changes.desk.origin hw.desk item'.case (List.mem_map_of_mem hitem') with
        hfresh | ⟨case, hcase, hid, hprecedes⟩
      · exact absurd hissued hfresh.1
      · obtain ⟨item, hitem, rfl⟩ := List.mem_map.mp hcase
        exact ⟨item, hitem, hid, hprecedes⟩
    rcases h.evolves w' hw' with ⟨w, hw, hevolves⟩ | ⟨session, -, hnew, hevolves⟩
    · obtain ⟨item, hitem, hid, hprecedes⟩ := horigin w (hsound.workspace w hw) hevolves
      exact ⟨item, ⟨w, hw, hitem⟩, hid, hprecedes⟩
    · obtain ⟨item, hitem, -, -⟩ := horigin _ (.blank hnew) hevolves
      cases hitem

theorem continues_run (hsound : db.Sound) (inputs : List AgentInput) :
    db.Continues (System.run step db inputs) :=
  System.related_run Continues.refl (fun _ _ _ h h' ↦ h.trans h') (fun _ input h ↦ h.step input)
    (fun _ input h ↦ (progress_step h input).continues h) inputs db hsound

/-- An item that was created or closed stays so. -/
theorem AgentDb.Continues.status_eq (h : db.Continues db') (hsound : db.Sound)
    {item item' : OrderIntakeItem} (hitem : db.HasItem item) (hitem' : db'.HasItem item')
    (hid : item'.id = item.id) (hended : item.status = .created ∨ item.status = .closed) :
    item'.status = item.status := by
  obtain ⟨found, hfound, hfoundId, hprecedes⟩ := h.origin item' hitem'
    (hid ▸ hsound.item_issued hitem)
  obtain rfl := hsound.item_eq hfound hitem (hfoundId.trans hid)
  have hphase : ∀ outcome, found.status.phase = .settled outcome →
      item'.status.phase = .settled outcome := hprecedes.2
  rcases hended with hstatus | hstatus
  · rw [hstatus] at hphase ⊢
    have hlater := hphase .created rfl
    cases hstatus' : item'.status <;> rw [hstatus'] at hlater <;> first | rfl | cases hlater
  · rw [hstatus] at hphase ⊢
    have hlater := hphase .closed rfl
    cases hstatus' : item'.status <;> rw [hstatus'] at hlater <;> first | rfl | cases hlater

/-- The session gets a new revision when another item becomes the active one. -/
theorem revision_lt_of_current_ne (hsound : db.Sound) (h : Progress permit db db')
    {w w' : Workspace} (hw : w ∈ db.workspaces.rows) (hw' : w' ∈ db'.workspaces.rows)
    (hid : w'.session.id = w.session.id)
    (hcurrent : w'.session.activeWorkItemId ≠ w.session.activeWorkItemId) :
    w.session.stateRevision < w'.session.stateRevision := by
  rcases h.evolves w' hw' with ⟨v, hv, hevolves⟩ | ⟨session, hfresh, -, hevolves⟩
  · obtain rfl := AgentDb.workspace_eq hv hw (hevolves.session_id.symm.trans hid)
    exact hevolves.current.resolve_left hcurrent
  · have hsession : session.id = w.session.id := hevolves.session_id.symm.trans hid
    exact absurd (hsession ▸ hsound.session_issued w hw) hfresh.1

/-- In every state that a run of the system reaches, the items of every session are sound; from
every state to every later one the items that were created or closed stay so; and no step changes
the pointer of a session without a new revision. -/
theorem items_keep_state (board : Board) (inputs : List AgentInput) :
    (∀ w ∈ (System.run step (.start board) inputs).workspaces.rows, w.ItemsSound) ∧
    (∀ further item item', (System.run step (.start board) inputs).HasItem item →
      (System.run step (.start board) (inputs ++ further)).HasItem item' → item'.id = item.id →
        item.status = .created ∨ item.status = .closed → item'.status = item.status) ∧
    ∀ input, ∀ w ∈ (System.run step (.start board) inputs).workspaces.rows,
      ∀ w' ∈ (step (System.run step (.start board) inputs) input).workspaces.rows,
        w'.session.id = w.session.id →
          w'.session.activeWorkItemId ≠ w.session.activeWorkItemId →
            w.session.stateRevision < w'.session.stateRevision := by
  have hsound := sound_run board inputs
  refine ⟨fun w hw ↦ (hsound.workspace w hw).itemsSound, ?_, ?_⟩
  · intro further item item' hitem hitem' hid hended
    rw [System.run_append] at hitem'
    exact (continues_run hsound further).status_eq hsound hitem hitem' hid hended
  · intro input w hw w' hw' hid hcurrent
    exact revision_lt_of_current_ne hsound (progress_step hsound input) hw hw' hid hcurrent

end FilmOS.Agent
