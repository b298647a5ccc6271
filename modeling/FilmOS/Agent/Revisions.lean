import FilmOS.Agent.System
import FilmOS.Library.Versioned

/-!
# Revisions of work items

The revision of an item stands for its draft, its status and the status of its recognition.
`OrderIntakeItem.Follows` is what an operation may do to an item: any of the three changes only
together with the revision. An operation that changes an item first and counts the revision up later
owes it in between; `ItemsFollow.pay` is where it is counted.
-/

set_option autoImplicit false
set_option relaxedAutoImplicit false

namespace FilmOS.Agent

open Transaction AgentDb

/-- What the revision of an item stands for. -/
def OrderIntakeItem.cell (item : OrderIntakeItem) :
    Versioned (OrderDraft × ItemStatus × RecognitionStatus) where
  version := item.revision
  content := (item.draft, item.status, item.recognitionStatus)

/-- The draft was read by `OrderDraft.model_validate`. -/
def OrderDraft.Validated (draft : OrderDraft) : Prop :=
  ∃ candidate, OrderDraft.modelValidate candidate = some draft

theorem OrderDraft.validated_blank : OrderDraft.blank.Validated := ⟨.blank, by decide⟩

theorem validated_mergePatch {draft merged : OrderDraft} {patch : DraftPatch}
    (h : mergePatch draft patch = .ok merged) : merged.Validated := by
  unfold mergePatch at h
  split_ifs at h
  cases hmerged : OrderDraft.modelValidate (patch.applyTo draft) with
  | none =>
    rw [hmerged] at h
    cases h
  | some other =>
    rw [hmerged] at h
    obtain rfl := Except.ok.inj h
    exact ⟨_, hmerged⟩

/-- The item later on: what changed is told by its revision, or is still owed. The draft is another
one only where drafts are written. -/
structure OrderIntakeItem.Follows (redrafts owed : Prop) (item later : OrderIntakeItem) : Prop where
  id : later.id = item.id
  revision_le : item.revision ≤ later.revision
  told : owed ∨ item.cell.Tells later.cell
  draft : later.draft = item.draft ∨ redrafts ∧ later.draft.Validated

namespace OrderIntakeItem.Follows

variable {redrafts redrafts' owed owed' : Prop} {item later last : OrderIntakeItem}

theorem refl (item : OrderIntakeItem) : item.Follows redrafts owed item :=
  ⟨rfl, le_rfl, Or.inr (.refl _), Or.inl rfl⟩

theorem trans (h : item.Follows redrafts owed later) (h' : later.Follows redrafts owed last) :
    item.Follows redrafts owed last where
  id := h'.id.trans h.id
  revision_le := h.revision_le.trans h'.revision_le
  told := by
    rcases h.told with howed | htold
    · exact Or.inl howed
    · exact h'.told.imp_right htold.trans
  draft := by
    rcases h'.draft with hdraft | hdraft
    · rw [hdraft]
      exact h.draft
    · exact Or.inr hdraft

theorem mono (hredrafts : redrafts → redrafts') (howed : owed → owed')
    (h : item.Follows redrafts owed later) : item.Follows redrafts' owed' later :=
  ⟨h.id, h.revision_le, h.told.imp_left howed, h.draft.imp_right fun hdraft ↦
    ⟨hredrafts hdraft.1, hdraft.2⟩⟩

theorem validated (h : item.Follows redrafts owed later) (hitem : item.draft.Validated) :
    later.draft.Validated := by
  rcases h.draft with hdraft | hdraft
  · rw [hdraft]
    exact hitem
  · exact hdraft.2

/-- Nothing that the revision stands for has changed. -/
theorem of_cell (hid : later.id = item.id) (hcell : later.cell = item.cell) :
    item.Follows redrafts owed later where
  id := hid
  revision_le := (congrArg Versioned.version hcell).ge
  told := Or.inr (Or.inr hcell.symm)
  draft := Or.inl (congrArg (fun cell ↦ cell.content.1) hcell)

/-- A change together with the revision. -/
theorem of_lt (hid : later.id = item.id) (hrevision : item.revision < later.revision)
    (hdraft : later.draft = item.draft ∨ redrafts ∧ later.draft.Validated) :
    item.Follows redrafts owed later :=
  ⟨hid, hrevision.le, Or.inr (Or.inl hrevision), hdraft⟩

end OrderIntakeItem.Follows

/-- The items of a session later on: every one is new or follows one that was there, and all that
were there still are. -/
structure ItemsFollow (redrafts : Prop) (owed fresh : Id → Prop)
    (items items' : Table OrderIntakeItem) : Prop where
  origin : ∀ later ∈ items'.rows, fresh later.id ∧ later.draft.Validated ∨
    ∃ item ∈ items.rows, item.Follows redrafts (owed item.id) later
  kept : items.keys ⊆ items'.keys

namespace ItemsFollow

variable {redrafts redrafts' : Prop} {owed owed' fresh fresh' : Id → Prop}
  {items items' items'' : Table OrderIntakeItem} {id : Id}

theorem refl (items : Table OrderIntakeItem) : ItemsFollow redrafts owed fresh items items :=
  ⟨fun item hitem ↦ Or.inr ⟨item, hitem, .refl item⟩, List.Subset.refl _⟩

theorem trans (h : ItemsFollow redrafts owed fresh items items')
    (h' : ItemsFollow redrafts owed fresh items' items'') :
    ItemsFollow redrafts owed fresh items items'' := by
  refine ⟨fun last hlast ↦ ?_, List.Subset.trans h.kept h'.kept⟩
  rcases h'.origin last hlast with hfresh | ⟨later, hlater, hfollows'⟩
  · exact Or.inl hfresh
  · rcases h.origin later hlater with ⟨hfresh, hdraft⟩ | ⟨item, hitem, hfollows⟩
    · left
      rw [hfollows'.id]
      exact ⟨hfresh, hfollows'.validated hdraft⟩
    · rw [hfollows.id] at hfollows'
      exact Or.inr ⟨item, hitem, hfollows.trans hfollows'⟩

theorem mono (hredrafts : redrafts → redrafts') (howed : ∀ id, owed id → owed' id)
    (hfresh : ∀ id, fresh id → fresh' id) (h : ItemsFollow redrafts owed fresh items items') :
    ItemsFollow redrafts' owed' fresh' items items' := by
  refine ⟨fun later hlater ↦ ?_, h.kept⟩
  rcases h.origin later hlater with ⟨hid, hdraft⟩ | ⟨item, hitem, hfollows⟩
  · exact Or.inl ⟨hfresh _ hid, hdraft⟩
  · exact Or.inr ⟨item, hitem, hfollows.mono hredrafts (howed _)⟩

/-- Nothing is owed for any item. -/
theorem settled (h : ItemsFollow redrafts (fun _ ↦ False) fresh items items') :
    ItemsFollow redrafts owed fresh items items' :=
  h.mono (fun h ↦ h) (fun _ h ↦ h.elim) fun _ h ↦ h

/-- One item is changed. -/
theorem update (change : OrderIntakeItem → OrderIntakeItem)
    (hid : ∀ item, (change item).id = item.id)
    (hchange : ∀ item ∈ items.rows, item.id = id →
      item.Follows redrafts (owed item.id) (change item)) :
    ItemsFollow redrafts owed fresh items (items.update id change hid) := by
  refine ⟨fun later hlater ↦ ?_, fun id hmem ↦ (Table.keys_update items _ change hid).symm ▸ hmem⟩
  obtain ⟨item, hitem, rfl⟩ := (Table.mem_update _).mp hlater
  refine Or.inr ⟨item, hitem, ?_⟩
  by_cases hkey : Keyed.key item = id
  · rw [if_pos hkey]
    exact hchange item hitem hkey
  · rw [if_neg hkey]
    exact .refl item

/-- One item is changed in what its revision stands for. -/
theorem owe (change : OrderIntakeItem → OrderIntakeItem)
    (hid : ∀ item, (change item).id = item.id)
    (hrevision : ∀ item, (change item).revision = item.revision)
    (hdraft : ∀ item, (change item).draft = item.draft) :
    ItemsFollow redrafts (· = id) fresh items (items.update id change hid) :=
  update change hid fun item _ hkey ↦
    ⟨hid item, (hrevision item).ge, Or.inl hkey, Or.inl (hdraft item)⟩

/-- The revision of the item for which it is owed is counted up. -/
theorem pay (h : ItemsFollow redrafts (· = id) fresh items items')
    (change : OrderIntakeItem → OrderIntakeItem) (hid : ∀ item, (change item).id = item.id)
    (hrevision : ∀ item ∈ items'.rows, item.id = id → item.revision < (change item).revision)
    (hdraft : ∀ item ∈ items'.rows, item.id = id →
      (change item).draft = item.draft ∨ redrafts ∧ (change item).draft.Validated) :
    ItemsFollow redrafts (fun _ ↦ False) fresh items (items'.update id change hid) := by
  refine ⟨fun last hlast ↦ ?_,
    fun key hmem ↦ (Table.keys_update items' id change hid).symm ▸ h.kept hmem⟩
  obtain ⟨later, hlater, rfl⟩ := (Table.mem_update _).mp hlast
  by_cases hkey : Keyed.key later = id
  · rw [if_pos hkey]
    have hpaid : later.Follows redrafts False (change later) :=
      .of_lt (hid later) (hrevision later hlater hkey) (hdraft later hlater hkey)
    rcases h.origin later hlater with ⟨hfresh, hvalidated⟩ | ⟨item, hitem, hfollows⟩
    · left
      rw [hid later]
      exact ⟨hfresh, hpaid.validated hvalidated⟩
    · refine Or.inr ⟨item, hitem, .of_lt (hpaid.id.trans hfollows.id) ?_ ?_⟩
      · exact lt_of_le_of_lt hfollows.revision_le (hrevision later hlater hkey)
      · exact ((hfollows.mono (fun h ↦ h) fun _ ↦ trivial).trans
          (hpaid.mono (fun h ↦ h) fun h ↦ h.elim)).draft
  · rw [if_neg hkey]
    rcases h.origin later hlater with hfresh | ⟨item, hitem, hfollows⟩
    · exact Or.inl hfresh
    · refine Or.inr ⟨item, hitem, hfollows.mono (fun h ↦ h) fun howed ↦ ?_⟩
      exact absurd (hfollows.id.trans howed) hkey

/-- A new item is added. -/
theorem insert (item : OrderIntakeItem) (hfresh : fresh item.id) (hdraft : item.draft.Validated)
    (hinsert : items.insert? item = some items') :
    ItemsFollow redrafts owed fresh items items' := by
  have hrows := ((Table.insert?_eq_some_iff _ _ _).mp hinsert).2
  refine ⟨fun later hlater ↦ ?_, ?_⟩
  swap
  · unfold Table.keys
    rw [hrows, List.map_append]
    exact List.subset_append_left _ _
  rw [hrows] at hlater
  rcases List.mem_append.mp hlater with hlater | hlater
  · exact Or.inr ⟨later, hlater, .refl later⟩
  · obtain rfl := List.mem_singleton.mp hlater
    exact Or.inl ⟨hfresh, hdraft⟩

/-- A revision that is passed stays passed. -/
theorem lt_revision (h : ItemsFollow redrafts owed fresh items items') (hfresh : ¬ fresh id) {n : ℕ}
    (hlt : ∀ item ∈ items.rows, item.id = id → n < item.revision) :
    ∀ later ∈ items'.rows, later.id = id → n < later.revision := by
  intro later hlater hid
  rcases h.origin later hlater with ⟨hnew, -⟩ | ⟨item, hitem, hfollows⟩
  · exact absurd (hid ▸ hnew) hfresh
  · exact lt_of_lt_of_le (hlt item hitem (hfollows.id.symm.trans hid)) hfollows.revision_le

/-- Where no draft is written, an item that was there keeps its draft. -/
theorem draft_eq (h : ItemsFollow False owed fresh items items') (hfresh : ¬ fresh id)
    {later : OrderIntakeItem} (hlater : later ∈ items'.rows) (hid : later.id = id) :
    ∃ item ∈ items.rows, item.id = id ∧ later.draft = item.draft := by
  rcases h.origin later hlater with ⟨hnew, -⟩ | ⟨item, hitem, hfollows⟩
  · exact absurd (hid ▸ hnew) hfresh
  · exact ⟨item, hitem, hfollows.id.symm.trans hid, hfollows.draft.resolve_right And.left⟩

/-- A revision that is counted up passes the one that an item had. -/
theorem lt_revision_update (h : ItemsFollow redrafts owed fresh items items') (hfresh : ¬ fresh id)
    (change : OrderIntakeItem → OrderIntakeItem) (hid : ∀ item, (change item).id = item.id)
    (hrevision : ∀ item, item.revision < (change item).revision) {item : OrderIntakeItem}
    (hitem : item ∈ items.rows) (hkey : item.id = id) :
    ∀ later ∈ (items'.update id change hid).rows, later.id = id → item.revision <
      later.revision := by
  intro later hlater hlaterId
  obtain ⟨row, hrow, rfl⟩ := (Table.mem_update _).mp hlater
  have hrowId : row.id = id := by
    by_cases hrowKey : Keyed.key row = id
    · exact hrowKey
    · rw [if_neg hrowKey] at hlaterId
      exact hlaterId
  rw [if_pos (show Keyed.key row = id from hrowId)]
  rcases h.origin row hrow with ⟨hnew, -⟩ | ⟨old, hold, hfollows⟩
  · exact absurd (hrowId ▸ hnew) hfresh
  · have hsame : old = item :=
      items.eq_of_key_eq hold hitem ((hfollows.id.symm.trans hrowId).trans hkey.symm)
    rw [hsame] at hfollows
    exact lt_of_le_of_lt hfollows.revision_le (hrevision row)

end ItemsFollow

/-! ### Moves of an item -/

variable {call : Call} {db db' : AgentDb} {w w' : Workspace} {redrafts : Prop}
  {owed fresh : Id → Prop} {items : Table OrderIntakeItem}

theorem items_abandonCalls (runId : Id) (code : String) :
    (w.abandonCalls call runId code).items = w.items := by
  unfold Workspace.abandonCalls
  generalize w.toolCalls.rows.filter _ = toolCalls
  induction toolCalls generalizing w with
  | nil => rfl
  | cons toolCall toolCalls ih =>
    rw [List.foldl_cons, ih]
    rfl

theorem items_addRun {run : AgentRun} (h : w.addRun run = .ok w') : w'.items = w.items := by
  obtain ⟨runs, -, rfl⟩ := Workspace.addRun_eq_ok.mp h
  rfl

/-- An item gets another status, which is owed to its revision. -/
theorem setItemStatus_owes (id : Id) (status : ItemStatus) :
    ItemsFollow redrafts (· = id) fresh w.items (w.setItemStatus id status).items :=
  ItemsFollow.owe (fun item ↦ { item with status }) (fun _ ↦ rfl) (fun _ ↦ rfl) fun _ ↦ rfl

theorem reviseItem_follows {id : Id} (h : ItemsFollow redrafts (· = id) fresh items w.items) :
    ItemsFollow redrafts (fun _ ↦ False) fresh items (w.reviseItem id).items :=
  h.pay (fun item ↦ { item with revision := item.revision + 1 }) (fun _ ↦ rfl)
    (fun _ _ _ ↦ Nat.lt_succ_self _) fun _ _ _ ↦ Or.inl rfl

theorem activate_follows (id : Id) :
    ItemsFollow redrafts (fun _ ↦ False) fresh w.items ((w.activate id).reviseItem id).items :=
  reviseItem_follows (w := w.activate id) (setItemStatus_owes id .active)

theorem release_follows (id : Id) (status : ItemStatus) :
    ItemsFollow redrafts (fun _ ↦ False) fresh w.items
      ((w.release id status).reviseItem id).items :=
  reviseItem_follows (w := w.release id status) (setItemStatus_owes id status)

/-! ### The review and the recognition queue -/

theorem selectReady_follows :
    ItemsFollow redrafts (fun _ ↦ False) fresh w.items (w.selectReady call).items := by
  unfold Workspace.selectReady
  cases w.firstItem (fun item ↦ item.status = .pending ∧ item.recognitionStatus = .succeeded) with
  | none => exact .refl _
  | some item => exact activate_follows item.id

theorem advanceReview_follows (h : advanceReview call w = .ok w') :
    ItemsFollow redrafts (fun _ ↦ False) fresh w.items w'.items := by
  unfold advanceReview at h
  cases hcurrent : w.session.activeWorkItemId with
  | none =>
    rw [hcurrent] at h
    obtain rfl := Except.ok.inj h
    exact selectReady_follows
  | some id =>
    rw [hcurrent] at h
    cases hfind : w.items.find? id with
    | none =>
      simp only [hfind] at h
      cases h
    | some current =>
      simp only [hfind] at h
      split_ifs at h
      · obtain rfl := Except.ok.inj h
        exact .refl _
      · obtain rfl := Except.ok.inj h
        exact (release_follows id .pending).trans selectReady_follows

theorem recordFailure_follows {run : AgentRun} (h : recordFailure call run w = .ok w') :
    ItemsFollow redrafts (fun _ ↦ False) fresh w.items w'.items := by
  unfold recordFailure at h
  split at h
  · obtain rfl := Except.ok.inj h
    exact .refl _
  · next itemId _ =>
    cases hfind : w.items.find? itemId with
    | none =>
      simp only [hfind] at h
      cases h
    | some item =>
      simp only [hfind] at h
      split_ifs at h
      · obtain rfl := Except.ok.inj h
        exact .refl _
      · obtain rfl := Except.ok.inj h
        exact ItemsFollow.update (fun item : OrderIntakeItem ↦
          { item with
            recognitionStatus := .failed, lastErrorCode := run.errorCode
            revision := item.revision + 1 })
          (fun _ ↦ rfl) fun _ _ _ ↦ .of_lt rfl (Nat.lt_succ_self _) (Or.inl rfl)

theorem continueRecognition_follows {run : AgentRun}
    (h : continueRecognition call run w db = .ok w' db') :
    ItemsFollow redrafts (fun _ ↦ False) fresh w.items w'.items := by
  unfold continueRecognition at h
  split_ifs at h
  · obtain ⟨rfl, -⟩ := pure_eq_ok.mp h
    exact .refl _
  · obtain ⟨w₁, hrecord, h⟩ := checked_bind_eq_ok.mp h
    refine (recordFailure_follows hrecord).trans ?_
    cases hnext : w₁.nextScreenshot with
    | some pending =>
      simp only [hnext] at h
      unfold queueRecognition at h
      obtain ⟨commandId, db₁, -, h⟩ := bind_eq_ok.mp h
      obtain ⟨followingId, db₂, -, h⟩ := bind_eq_ok.mp h
      obtain ⟨w₂, hrun, h⟩ := checked_bind_eq_ok.mp h
      obtain ⟨_, db₃, -, h⟩ := bind_eq_ok.mp h
      obtain ⟨rfl, -⟩ := pure_eq_ok.mp h
      change ItemsFollow _ _ _ w₁.items w₂.items
      rw [items_addRun hrun]
      exact .refl _
    | none =>
      simp only [hnext] at h
      obtain ⟨hadvance, -⟩ := checked_eq_ok.mp h
      exact advanceReview_follows hadvance

theorem failLocked_follows {later : Time} {run : AgentRun} {code message : String}
    (h : failLocked call later w run code message db = .ok w' db') :
    ItemsFollow redrafts (fun _ ↦ False) fresh w.items w'.items := by
  obtain ⟨v, hcontinue, rfl⟩ := failLocked_eq_ok.mp h
  have hfollows : ItemsFollow redrafts (fun _ ↦ False) fresh
      (w.markFailed call later run code message).items v.items :=
    continueRecognition_follows hcontinue
  unfold Workspace.markFailed at hfollows
  rw [items_abandonCalls] at hfollows
  exact hfollows

/-! ### Drafts -/

/-- What `patchDraft` does, when it accepts the patch. -/
theorem patchDraft_ok {board : Board} {item : OrderIntakeItem} {expected : ℕ} {patch : DraftPatch}
    {source : ProvenanceSource} {runId : Option Id}
    (h : patchDraft call board item expected patch source runId w = .ok w') :
    item.revision = expected ∧ ∃ draft, mergePatch item.draft patch = .ok draft ∧
      w'.items =
        (w.setItem item.id (patchedItem board draft patch source runId) (fun _ ↦ rfl)).items := by
  unfold patchDraft at h
  simp only [except_bind_eq_ok, except_pure_eq_ok] at h
  obtain ⟨_, hrevision, _, -, draft, hmerge, rfl⟩ := h
  refine ⟨?_, draft, hmerge, rfl⟩
  unfold requireItemRevision at hrevision
  exact (ensure_eq_ok.mp hrevision)

end FilmOS.Agent
