import FilmOS.Agent.Items
import FilmOS.Agent.WorkerLaws

/-!
# Drafts and commands on work items make progress

A draft is edited, a recognition is saved, and a command moves items, creates an order or queues a
run: each is a chain of permitted changes, followed step by step along the code. `itemCommand` and
`nextItem` then enter their command.
-/

set_option autoImplicit false
set_option relaxedAutoImplicit false

namespace FilmOS.Agent

open Transaction AgentDb

variable {call : Call} {db db' : AgentDb} {permit : Permit} {fresh : Id → Prop}
  {w w' : Workspace} {command : AgentCommand → Prop}

/-! ### Drafts -/

theorem patchDraft_changes {board : Board} {item : OrderIntakeItem} {expected : ℕ}
    {patch : DraftPatch} {source : ProvenanceSource} {runId : Option Id}
    (h : patchDraft call board item expected patch source runId w = .ok w') :
    w.Changes permit fresh w' := by
  unfold patchDraft at h
  simp only [except_bind_eq_ok, except_pure_eq_ok] at h
  obtain ⟨_, -, _, -, draft, -, rfl⟩ := h
  exact (Workspace.Changes.editItem .refl item.id (patchedItem board draft patch source runId)
    (fun _ ↦ rfl) fun _ ↦ ⟨rfl, rfl, rfl, rfl, fun h ↦ h⟩).appendBy _ call _ rfl (by decide)

theorem saveExtraction_changes {board : Board} {item : OrderIntakeItem} {order : RecognizedOrder}
    {expected : ℕ} {runId : Id}
    (h : saveExtraction call board item order expected runId w = .ok w') :
    w.Changes permit fresh w' := by
  unfold saveExtraction at h
  simp only [except_bind_eq_ok, except_pure_eq_ok] at h
  obtain ⟨_, -, w₁, hpatch, rfl⟩ := h
  have hrecognised : w.Changes permit fresh (w.setItem item.id (fun row ↦
      { row with recognitionStatus := .succeeded, lastErrorCode := none })) :=
    Workspace.Changes.editItem .refl item.id _ _ fun _ ↦ ⟨rfl, rfl, rfl, rfl, fun _ ↦ by simp⟩
  have hpatched := hrecognised.trans (patchDraft_changes hpatch)
  exact (Workspace.Changes.editItem hpatched item.id (withRecognitionIssues order) (fun _ ↦ rfl)
    fun _ ↦ ⟨rfl, rfl, rfl, rfl, fun h ↦ h⟩).append call _ rfl (by decide)

theorem addSiblings_makes {item : OrderIntakeItem} {runId : Id} (orders : List RecognizedOrder) :
    ∀ {index : ℕ} {db db' : AgentDb} {w w' : Workspace},
      addSiblings call item runId orders index w db = .ok w' db' →
        Makes command permit db db' w w' := by
  induction orders with
  | nil =>
    intro index db db' w w' h
    obtain ⟨rfl, rfl⟩ := pure_eq_ok.mp h
    exact .refl db w
  | cons order orders ih =>
    intro index db db' w w' h
    unfold addSiblings at h
    obtain ⟨draft, -, h⟩ := orRaise_bind_eq_ok.mp h
    obtain ⟨siblingId, db₁, hsiblingId, h⟩ := bind_eq_ok.mp h
    rw [get_bind_eq_ok] at h
    obtain ⟨w₁, hitem, h⟩ := checked_bind_eq_ok.mp h
    obtain ⟨items, hinsert, rfl⟩ := Workspace.addItem_eq_ok.mp hitem
    have hadded : w.Changes permit (Fresh db db₁) { w with items } :=
      .single (.addItem w _ items hinsert (fresh_generateId hsiblingId) rfl rfl
        (Or.inl (by simp [siblingItem])))
    exact Makes.trans ⟨prepares_generateId hsiblingId,
      (hadded.append call _ rfl (by decide)).append call _ rfl (by decide)⟩ (ih h)

theorem saveScreenshotExtraction_makes {item : OrderIntakeItem} {first : RecognizedOrder}
    {further : List RecognizedOrder} {expected : ℕ} {runId : Id}
    (h : saveScreenshotExtraction call item first further expected runId w db = .ok w' db') :
    Makes command permit db db' w w' := by
  unfold saveScreenshotExtraction at h
  obtain ⟨_, -, h⟩ := checked_bind_eq_ok.mp h
  obtain ⟨-, h⟩ := require_bind_eq_ok.mp h
  obtain ⟨-, h⟩ := require_bind_eq_ok.mp h
  rw [get_bind_eq_ok] at h
  obtain ⟨w₁, hfirst, h⟩ := checked_bind_eq_ok.mp h
  obtain ⟨w₂, db₁, hsiblings, h⟩ := bind_eq_ok.mp h
  obtain ⟨rfl, rfl⟩ := pure_eq_ok.mp h
  refine Makes.change (Makes.trans ⟨.refl db, saveExtraction_changes hfirst⟩
    (addSiblings_makes further hsiblings)) ?_
  exact (Workspace.Changes.revise .refl).append call _ rfl (by decide)

/-- The session and the item that a user changes. -/
theorem requireItem_ok {itemId userId : Id} {found : Workspace × OrderIntakeItem}
    (h : requireItem itemId userId db = .ok found db') :
    (found.1 ∈ db.workspaces.rows ∧ found.1.session.userId = userId ∧
        found.1.session.status = .active ∧ found.1.session.agentType = .orderIntake) ∧
      found.2 ∈ found.1.items.rows ∧ found.2.id = itemId ∧ found.1.unarchived found.2 ∧
      db = db' := by
  unfold requireItem at h
  rw [get_bind_eq_ok] at h
  obtain ⟨_, -, h⟩ := orRaise_bind_eq_ok.mp h
  obtain ⟨w, db₁, hsession, h⟩ := bind_eq_ok.mp h
  obtain ⟨⟨hw, -⟩, huser, -, hactive, rfl⟩ := requireSession_eq_ok.mp hsession
  obtain ⟨htype, h⟩ := require_bind_eq_ok.mp h
  obtain ⟨item, hitem, h⟩ := orRaise_bind_eq_ok.mp h
  obtain ⟨attachment, hattachment, h⟩ := orRaise_bind_eq_ok.mp h
  obtain ⟨harchived, h⟩ := require_bind_eq_ok.mp h
  obtain ⟨rfl, rfl⟩ := pure_eq_ok.mp h
  obtain ⟨hmem, hid⟩ := (Table.find?_eq_some_iff _).mp hitem
  refine ⟨⟨hw, huser, hactive rfl, htype⟩, hmem, hid, ?_, rfl⟩
  unfold Workspace.unarchived
  rw [hattachment]
  simp [harchived]

theorem progress_patchItem (hsound : db.Sound) {itemId userId : Id} {expected : ℕ}
    {patch : DraftPatch} {u : Unit}
    (h : patchItem call itemId userId expected patch db = .ok u db') : Progress {} db db' := by
  unfold patchItem at h
  obtain ⟨⟨w, item⟩, db₁, hitem, h⟩ := bind_eq_ok.mp h
  obtain ⟨⟨hw, -⟩, -, -, -, rfl⟩ := requireItem_ok hitem
  rw [get_bind_eq_ok] at h
  obtain ⟨w₁, hpatch, h⟩ := checked_bind_eq_ok.mp h
  obtain rfl := save_eq_ok.mp h
  exact progress_quiet hsound hw (patchDraft_changes hpatch) (.refl _) id id id id id

/-! ### Effects of the commands -/

/-- A case that is not in hand waits or is settled. -/
theorem Workspace.Sound.waiting (hsound : w.Sound) {item : OrderIntakeItem}
    (hitem : item ∈ w.items.rows) (hcurrent : w.session.activeWorkItemId ≠ some item.id)
    (hcreated : item.status ≠ .created) (hclosed : item.status ≠ .closed) :
    item.status.phase = .waiting := by
  have hhand := hsound.desk.inHand_iff item.case (List.mem_map_of_mem hitem)
  cases hstatus : item.status with
  | pending => rfl
  | deferred => rfl
  | active =>
    refine absurd (hhand.mp ?_) hcurrent
    unfold OrderIntakeItem.case
    rw [hstatus]
    rfl
  | created => exact absurd hstatus hcreated
  | closed => exact absurd hstatus hclosed

theorem confirmOrder_makes {commandId : Id} {item : OrderIntakeItem} {effect : ItemEffect}
    (hpick : permit.pick) (horder : permit.order)
    (hbond : ∀ order ∈ effect.order, permit.bond (item.id, order.id))
    (hitem : item ∈ w.items.rows) (h : confirmOrder call commandId item w db = .ok effect db') :
    Makes command permit db db' w effect.workspace := by
  unfold confirmOrder at h
  obtain ⟨⟨-, hcurrent⟩, h⟩ := require_bind_eq_ok.mp h
  rw [get_bind_eq_ok] at h
  obtain ⟨-, h⟩ := require_bind_eq_ok.mp h
  obtain ⟨order, db₁, hcreate, h⟩ := bind_eq_ok.mp h
  obtain ⟨rfl, rfl⟩ := pure_eq_ok.mp h
  refine ⟨prepares_onBoard hcreate fun board hboard ↦ ?_, ?_⟩
  · obtain ⟨-, hplans, id, hissued⟩ := createFromWorkspaceDraft_ok hboard
    rw [hissued]
    exact ⟨List.subset_cons_self _ _, fun hnone ↦ absurd horder hnone, fun _ ↦ hplans⟩
  · have hreleased : w.Changes permit (Fresh db db₁) (w.release item.id .created) :=
      Workspace.Changes.release .refl hitem hpick hcurrent (by decide) (by simp)
    have hbound : w.Changes permit (Fresh db db₁) ((w.release item.id .created).setItem item.id
        (fun row ↦ { row with orderId := some order.id })) :=
      hreleased.tail (.bind _ item.id order.id (hbond _ rfl))
    exact hbound.append call _ rfl (by decide)

theorem deferItem_makes {commandId : Id} {item : OrderIntakeItem} {effect : ItemEffect}
    (hpick : permit.pick) (hitem : item ∈ w.items.rows)
    (h : deferItem call commandId item w db = .ok effect db') :
    Makes command permit db db' w effect.workspace := by
  unfold deferItem at h
  obtain ⟨⟨-, hcurrent⟩, h⟩ := require_bind_eq_ok.mp h
  obtain ⟨rfl, rfl⟩ := pure_eq_ok.mp h
  exact ⟨.refl db, (Workspace.Changes.release .refl hitem hpick hcurrent (by decide)
    (by simp)).append call _ rfl (by decide)⟩

theorem closeItem_makes (hsound : w.Sound) {commandId : Id} {payload : ActionPayload}
    {item : OrderIntakeItem} {effect : ItemEffect} (hpick : permit.pick)
    (hitem : item ∈ w.items.rows) (hcreated : item.status ≠ .created)
    (hclosed : item.status ≠ .closed)
    (h : closeItem call commandId payload item w db = .ok effect db') :
    Makes command permit db db' w effect.workspace := by
  unfold closeItem at h
  obtain ⟨-, h⟩ := require_bind_eq_ok.mp h
  obtain ⟨rfl, rfl⟩ := pure_eq_ok.mp h
  refine ⟨.refl db, Workspace.Changes.append ?_ call _ rfl (by decide)⟩
  by_cases hcurrent : w.session.activeWorkItemId = some item.id
  · rw [if_pos hcurrent]
    exact .release .refl hitem hpick hcurrent (by decide) (by simp)
  · rw [if_neg hcurrent]
    exact .single (.close w item hitem (hsound.waiting hitem hcurrent hcreated hclosed))

theorem recognizeItem_makes {commandId : Id} {item : OrderIntakeItem} {effect : ItemEffect}
    (hqueue : permit.queue) (hidle : w.Idle) (hactive : w.session.status = .active)
    (htype : w.session.agentType = .orderIntake) (hitem : item ∈ w.items.rows)
    (h : recognizeItem call commandId item w db = .ok effect db') :
    Makes command permit db db' w effect.workspace := by
  unfold recognizeItem at h
  obtain ⟨-, h⟩ := require_bind_eq_ok.mp h
  obtain ⟨runId, db₁, hrunId, h⟩ := bind_eq_ok.mp h
  obtain ⟨w₁, hrun, h⟩ := checked_bind_eq_ok.mp h
  obtain ⟨rfl, rfl⟩ := pure_eq_ok.mp h
  have hstate : w.Changes permit (Fresh db db₁)
      (w.setState { w.session.state with intakeWorkbench := some true }) :=
    .single (.setState w _ (Or.inr htype))
  refine ⟨prepares_generateId hrunId, Workspace.Changes.append ?_ call _ rfl (by decide)⟩
  exact hstate.addRun hrun hqueue (fresh_generateId hrunId) hidle hactive
    (Or.inl (reply_newRun (by simp))) rfl rfl rfl rfl fun _ ↦ ⟨item, hitem, rfl⟩

/-- A run for a selected item. -/
theorem runForSelected_makes {kind : TriggerKind} {commandId : Id} {item : OrderIntakeItem}
    {found : Workspace × Option Id} (hqueue : permit.queue) (hkind : kind ≠ .message)
    (hidle : w.Idle) (hactive : w.session.status = .active)
    (hitem : ∃ row ∈ w.items.rows, row.id = item.id)
    (h : runForSelected call kind commandId item w db = .ok found db') :
    Makes command permit db db' w found.1 := by
  unfold runForSelected at h
  split_ifs at h
  · obtain ⟨rfl, rfl⟩ := pure_eq_ok.mp h
    exact .refl db w
  · obtain ⟨runId, db₁, hrunId, h⟩ := bind_eq_ok.mp h
    obtain ⟨w₁, hrun, h⟩ := checked_bind_eq_ok.mp h
    obtain ⟨rfl, rfl⟩ := pure_eq_ok.mp h
    obtain ⟨row, hrow, hid⟩ := hitem
    refine ⟨prepares_generateId hrunId, Workspace.Changes.append ?_ call _ rfl (by decide)⟩
    exact Workspace.Changes.addRun .refl hrun hqueue (fresh_generateId hrunId) hidle hactive
      (Or.inl (reply_newRun hkind)) rfl rfl rfl rfl
      fun _ ↦ ⟨row, hrow, congrArg some hid.symm⟩

theorem runForSelected_revision_le {kind : TriggerKind} {commandId : Id} {item : OrderIntakeItem}
    {found : Workspace × Option Id}
    (h : runForSelected call kind commandId item w db = .ok found db') :
    w.session.stateRevision ≤ found.1.session.stateRevision := by
  unfold runForSelected at h
  split_ifs at h
  · obtain ⟨rfl, -⟩ := pure_eq_ok.mp h
    exact le_rfl
  · obtain ⟨runId, db₁, -, h⟩ := bind_eq_ok.mp h
    obtain ⟨w₁, hrun, h⟩ := checked_bind_eq_ok.mp h
    obtain ⟨rfl, -⟩ := pure_eq_ok.mp h
    obtain ⟨runs, -, rfl⟩ := Workspace.addRun_eq_ok.mp hrun
    exact le_rfl

/-- The active item is put aside, and every other item and the screenshots stay as they are. -/
theorem deferCurrent_ok {commandId : Id} (hpick : permit.pick)
    (h : deferCurrent call commandId w = .ok w') :
    w.Changes permit fresh w' ∧ w'.session.activeWorkItemId = none ∧
      w'.attachments = w.attachments ∧ ∀ item ∈ w.items.rows,
        w.session.activeWorkItemId ≠ some item.id → item ∈ w'.items.rows := by
  unfold deferCurrent at h
  cases hcurrent : w.session.activeWorkItemId with
  | none =>
    rw [hcurrent] at h
    obtain rfl := Except.ok.inj h
    exact ⟨.refl, hcurrent, rfl, fun item hitem _ ↦ hitem⟩
  | some previousId =>
    rw [hcurrent] at h
    cases hfind : w.items.find? previousId with
    | none =>
      simp only [hfind] at h
      cases h
    | some previous =>
      simp only [hfind] at h
      obtain rfl := Except.ok.inj h
      obtain ⟨hprevious, rfl⟩ := (Table.find?_eq_some_iff _).mp hfind
      refine ⟨?_, rfl, rfl, fun item hitem hne ↦ ?_⟩
      · exact ((Workspace.Changes.release .refl hprevious hpick hcurrent (by decide)
          (by simp)).reviseItem previous.id).append call _ rfl (by decide)
      · have hne' : item.id ≠ previous.id := fun heq ↦ hne (congrArg some heq.symm)
        refine List.mem_map.mpr ⟨item, List.mem_map.mpr ⟨item, hitem, if_neg hne'⟩, if_neg hne'⟩

/-- An item that waits is not the active one. -/
theorem Workspace.Sound.not_current (hsound : w.Sound) {item : OrderIntakeItem}
    (hitem : item ∈ w.items.rows) (hphase : item.status.phase = .waiting) :
    w.session.activeWorkItemId ≠ some item.id := by
  intro hcurrent
  have hhand := (hsound.desk.inHand_iff item.case (List.mem_map_of_mem hitem)).mpr hcurrent
  have hphase' : item.case.phase = .waiting := hphase
  rw [hphase'] at hhand
  cases hhand

theorem selectItem_makes (hsound : w.Sound) {commandId : Id} {payload : ActionPayload}
    {item : OrderIntakeItem} {effect : ItemEffect} (hpick : permit.pick) (hqueue : permit.queue)
    (hwork : permit.work) (hidle : w.Idle) (hactive : w.session.status = .active)
    (hitem : item ∈ w.items.rows) (hunarchived : w.unarchived item)
    (h : selectItem call commandId payload item w db = .ok effect db') :
    Makes command permit db db' w effect.workspace := by
  unfold selectItem at h
  obtain ⟨expected, -, h⟩ := orRaise_bind_eq_ok.mp h
  obtain ⟨_, db₁, hrevision, h⟩ := bind_eq_ok.mp h
  obtain ⟨-, rfl⟩ := require_eq_ok.mp hrevision
  obtain ⟨hstatus, h⟩ := require_bind_eq_ok.mp h
  obtain ⟨w₁, hdefer, h⟩ := checked_bind_eq_ok.mp h
  obtain ⟨found, db₂, hrun, h⟩ := bind_eq_ok.mp h
  obtain ⟨rfl, rfl⟩ := pure_eq_ok.mp h
  have hphase : item.status.phase = .waiting := by
    rcases hstatus with hstatus | hstatus <;> rw [hstatus] <;> rfl
  have hselected : ∀ (permit : Permit), permit.pick → permit.work → ∀ fresh : Id → Prop,
      w.Changes permit fresh ((w₁.activate item.id).append call .workItemActivated []
        { commandId := some commandId, workItemId := some item.id }) ∧ item ∈ w₁.items.rows := by
    intro permit hpick hwork fresh
    obtain ⟨hchanges, hnone, hattachments, hothers⟩ := deferCurrent_ok hpick hdefer
    have hmem := hothers item hitem (hsound.not_current hitem hphase)
    have hunarchived' : w₁.unarchived item := by
      unfold Workspace.unarchived
      rw [hattachments]
      exact hunarchived
    exact ⟨(hchanges.activate hmem hpick hphase hnone hunarchived' (Or.inr hwork)).append call _
      rfl (by decide), hmem⟩
  obtain ⟨hchanges, hmem⟩ := hselected permit hpick hwork (Fresh db db)
  obtain ⟨hquiet, -⟩ := hselected { pick := True, work := True } trivial trivial fun _ ↦ False
  refine Makes.trans ⟨.refl db, hchanges⟩ (runForSelected_makes hqueue (by simp) ?_ ?_ ?_ hrun)
  · unfold Workspace.Idle
    rw [hquiet.jobs_eq (fun h ↦ h) fun h ↦ h]
    exact hidle
  · exact (hquiet.status_eq fun h ↦ h).trans hactive
  · exact ⟨_, List.mem_map.mpr ⟨item, hmem, if_pos rfl⟩, rfl⟩

/-- What a command on an item may do beyond entering itself. -/
def Permit.item (userId : Id) (key : String) (kind : CommandKind) (payload : ActionPayload)
    (itemId : Id) : Permit where
  command := Commanded userId key (.itemCommand kind itemId payload)
  bond b := kind = .confirmOrder ∧ b.1 = itemId
  order := kind = .confirmOrder
  queue := True
  pick := True
  work := True

theorem itemEffect_makes (hsound : w.Sound) {userId : Id} {key : String} {kind : CommandKind}
    {commandId : Id} {payload : ActionPayload} {item : OrderIntakeItem} {effect : ItemEffect}
    (hidle : w.Idle) (hactive : w.session.status = .active)
    (htype : w.session.agentType = .orderIntake) (hitem : item ∈ w.items.rows)
    (hunarchived : w.unarchived item) (hcreated : item.status ≠ .created)
    (hclosed : item.status ≠ .closed)
    (h : itemEffect call kind commandId payload item w db = .ok effect db') :
    Makes command (.item userId key kind payload item.id) db db' w effect.workspace := by
  unfold itemEffect at h
  cases kind with
  | confirmOrder => exact confirmOrder_makes trivial rfl (fun _ _ ↦ ⟨rfl, rfl⟩) hitem h
  | deferItem => exact deferItem_makes trivial hitem h
  | closeItem => exact closeItem_makes hsound trivial hitem hcreated hclosed h
  | recognizeItem => exact recognizeItem_makes trivial hidle hactive htype hitem h
  | selectItem =>
    exact selectItem_makes hsound trivial trivial trivial hidle hactive hitem hunarchived h
  | _ => cases h

/-! ### Commands -/

/-- A business message about a command is neither an answer nor a letter. -/
theorem confirm_makes {commandId itemId : Id} {advance : Bool} {order : Option OrderRef}
    (hissued : ∀ id, w.Uses id → id ∈ db.board.issued)
    (h : confirm call commandId itemId advance order w db = .ok w' db') :
    Makes command permit db db' w w' := by
  unfold confirm at h
  cases order with
  | none =>
    obtain ⟨rfl, rfl⟩ := pure_eq_ok.mp h
    exact .refl db w
  | some order =>
    obtain ⟨messageId, db₁, hmessageId, h⟩ := bind_eq_ok.mp h
    obtain ⟨rfl, rfl⟩ := pure_eq_ok.mp h
    have hfresh := fresh_generateId hmessageId
    refine ⟨prepares_generateId hmessageId, ?_⟩
    exact Workspace.Changes.post .refl _ .system call _ hfresh
      (fun huses ↦ hfresh.1 (hissued messageId huses)) (Or.inl rfl) (Or.inl rfl) (Or.inr rfl) rfl
      rfl

/-- The message of a confirmation leaves the revision as it is. -/
theorem revision_confirm {commandId itemId : Id} {advance : Bool} {order : Option OrderRef}
    (h : confirm call commandId itemId advance order w db = .ok w' db') :
    w'.session.stateRevision = w.session.stateRevision := by
  unfold confirm at h
  cases order with
  | none =>
    obtain ⟨rfl, -⟩ := pure_eq_ok.mp h
    rfl
  | some order =>
    obtain ⟨messageId, db₁, -, h⟩ := bind_eq_ok.mp h
    obtain ⟨rfl, -⟩ := pure_eq_ok.mp h
    rfl

/-- A command on an item is its effect, and then the review goes on and the effect is confirmed. -/
theorem changeItem_ok {kind : CommandKind} {commandId : Id} {payload : ActionPayload}
    {item : OrderIntakeItem} {effect : ItemEffect}
    (h : changeItem call kind commandId payload item w db = .ok effect db') :
    (item.status ≠ .created ∧ item.status ≠ .closed) ∧ ∃ first db₁,
      itemEffect call kind commandId payload item w db = .ok first db₁ ∧
      effect.order = first.order ∧
      first.workspace.session.stateRevision < effect.workspace.session.stateRevision ∧
      ∀ (command : AgentCommand → Prop) (permit : Permit), permit.pick →
        (∀ id, first.workspace.Uses id → id ∈ db₁.board.issued) →
          Makes command permit db₁ db' first.workspace effect.workspace := by
  unfold changeItem at h
  obtain ⟨_, -, h⟩ := checked_bind_eq_ok.mp h
  obtain ⟨hstatus, h⟩ := require_bind_eq_ok.mp h
  obtain ⟨first, db₁, heffect, h⟩ := bind_eq_ok.mp h
  refine ⟨hstatus, first, db₁, heffect, ?_⟩
  have hrest : ∀ {w₂ : Workspace},
      (∀ permit : Permit, permit.pick →
        first.workspace.Changes permit (Fresh db₁ db₁) w₂) →
      ∀ {db₃ : AgentDb} {w₃ : Workspace},
        confirm call commandId item.id payload.advance first.order (w₂.revise.announce call) db₁ =
          .ok w₃ db₃ →
        first.workspace.session.stateRevision < w₃.session.stateRevision ∧
          ∀ (command : AgentCommand → Prop) (permit : Permit), permit.pick →
            (∀ id, first.workspace.Uses id → id ∈ db₁.board.issued) →
              Makes command permit db₁ db₃ first.workspace w₃ := by
    intro w₂ hreviewed db₃ w₃ hconfirm
    have hannounced : ∀ permit : Permit, permit.pick →
        first.workspace.Changes permit (Fresh db₁ db₁) (w₂.revise.announce call) :=
      fun permit hpick ↦ (hreviewed permit hpick).revise.announce call
    constructor
    · rw [revision_confirm hconfirm]
      exact Nat.lt_succ_of_le (hreviewed { pick := True } trivial).revision_le
    · intro command permit hpick hissued
      refine Makes.trans ⟨.refl db₁, hannounced permit hpick⟩ (confirm_makes (fun id huses ↦ ?_)
        hconfirm)
      rcases (hannounced permit hpick).uses huses with hfresh | hold
      · exact absurd hfresh.2 hfresh.1
      · exact hissued id hold
  split_ifs at h
  · obtain ⟨w₂, hadvance, h⟩ := checked_bind_eq_ok.mp h
    obtain ⟨w₃, db₃, hconfirm, h⟩ := bind_eq_ok.mp h
    obtain ⟨rfl, rfl⟩ := pure_eq_ok.mp h
    refine ⟨rfl, hrest (fun permit hpick ↦ ?_) hconfirm⟩
    exact (Workspace.Changes.reviseItem .refl item.id).trans (advanceReview_changes hpick hadvance)
  · obtain ⟨w₂, db₂, hsame, h⟩ := bind_eq_ok.mp h
    obtain ⟨rfl, rfl⟩ := pure_eq_ok.mp hsame
    obtain ⟨w₃, db₃, hconfirm, h⟩ := bind_eq_ok.mp h
    obtain ⟨rfl, rfl⟩ := pure_eq_ok.mp h
    exact ⟨rfl, hrest (fun permit hpick ↦ .reviseItem .refl item.id) hconfirm⟩

theorem changeItem_makes (hsound : db.Sound) {userId : Id} {key : String} {kind : CommandKind}
    {commandId : Id} {payload : ActionPayload} {item : OrderIntakeItem} {effect : ItemEffect}
    (hw : w ∈ db.workspaces.rows) (hidle : w.Idle) (hactive : w.session.status = .active)
    (htype : w.session.agentType = .orderIntake) (hitem : item ∈ w.items.rows)
    (hunarchived : w.unarchived item)
    (h : changeItem call kind commandId payload item w db = .ok effect db') :
    Makes command (.item userId key kind payload item.id) db db' w effect.workspace ∧
      w.session.stateRevision < effect.workspace.session.stateRevision := by
  obtain ⟨⟨hcreated, hclosed⟩, first, db₁, heffect, -, hrevision, hrest⟩ := changeItem_ok h
  have hfirst : Makes command (.item userId key kind payload item.id) db db₁ w first.workspace :=
    itemEffect_makes (hsound.workspace w hw) hidle hactive htype hitem hunarchived hcreated hclosed
      heffect
  exact ⟨hfirst.trans (hrest _ _ trivial fun id huses ↦ hfirst.issued hsound hw huses),
    lt_of_le_of_lt hfirst.changes.revision_le hrevision⟩

theorem prepares_recordItemCommand {commandId userId : Id} {key : String} {kind : CommandKind}
    {payload : ActionPayload} {itemId : Id} {itemRevision : ℕ} {existing : Bool}
    {effect : ItemEffect} {result : CommandResult}
    (h : recordItemCommand commandId userId key kind payload itemId itemRevision existing
      effect db = .ok result db') :
    Prepares (Commanded userId key (.itemCommand kind itemId payload)) permit db db' := by
  unfold recordItemCommand at h
  obtain ⟨_, db₁, hcommand, h⟩ := bind_eq_ok.mp h
  obtain ⟨-, rfl⟩ := pure_eq_ok.mp h
  exact prepares_addCommand hcommand ⟨rfl, rfl, rfl⟩

theorem progress_itemCommand (hsound : db.Sound) {itemId userId : Id} {key : String}
    {kind : CommandKind} {payload : ActionPayload} {result : CommandResult}
    (h : itemCommand call itemId userId key kind payload db = .ok result db') :
    Progress (.item userId key kind payload itemId) db db' := by
  unfold itemCommand at h
  refine progress_replaying h fun h ↦ ?_
  obtain ⟨⟨w, item⟩, db₁, hfound, h⟩ := bind_eq_ok.mp h
  obtain ⟨⟨hw, -, hactive, htype⟩, hitem, rfl, hunarchived, rfl⟩ := requireItem_ok hfound
  obtain ⟨_, db₂, hcheck, h⟩ := bind_eq_ok.mp h
  obtain ⟨hidle, rfl⟩ := requireIdle_eq_ok.mp hcheck
  obtain ⟨commandId, db₃, hcommandId, h⟩ := bind_eq_ok.mp h
  have hid : Prepares (Permit.item userId key kind payload item.id).command
      (.item userId key kind payload item.id) db db₃ := prepares_generateId hcommandId
  split_ifs at h
  · rw [get_bind_eq_ok] at h
    obtain ⟨order, -, h⟩ := orRaise_bind_eq_ok.mp h
    exact (hid.trans (prepares_recordItemCommand h)).progress hsound
  · obtain ⟨effect, db₄, hchange, h⟩ := bind_eq_ok.mp h
    obtain ⟨_, db₅, hsave, h⟩ := bind_eq_ok.mp h
    obtain rfl := save_eq_ok.mp hsave
    have hsound₃ : db₃.Sound := hsound.progress (hid.progress hsound)
    have hw₃ : w ∈ db₃.workspaces.rows := hid.workspaces.symm ▸ hw
    have hchanged : Makes (Permit.item userId key kind payload item.id).command
        (.item userId key kind payload item.id) db₃ db₄ w effect.workspace ∧
          w.session.stateRevision < effect.workspace.session.stateRevision :=
      changeItem_makes hsound₃ hw₃ hidle hactive htype hitem hunarchived hchange
    obtain ⟨hmakes, hrevision⟩ := hchanged
    have hsaved := Makes.progress hsound (Makes.trans ⟨hid, .refl⟩ hmakes) hw (fun h ↦ h)
      (fun h ↦ h) (fun h ↦ h) (Or.inr hrevision) fun _ ↦ hidle
    exact hsaved.prepare hsound (prepares_recordItemCommand h)

/-- What the selection of the next item may do beyond entering itself. -/
def Permit.next (userId : Id) (key : String) (request : CommandRequest) : Permit where
  command := Commanded userId key request
  queue := True
  pick := True

theorem progress_nextItem (hsound : db.Sound) {sessionId userId : Id} {key : String}
    {expected : ℕ} {nextId : Id} {result : CommandResult}
    (h : nextItem call sessionId userId key expected nextId db = .ok result db') :
    Progress (.next userId key (.nextItem sessionId expected nextId)) db db' := by
  unfold nextItem at h
  refine progress_replaying h fun h ↦ ?_
  obtain ⟨w, db₁, hfound, h⟩ := bind_eq_ok.mp h
  obtain ⟨⟨hw, -⟩, -, -, hactive, rfl⟩ := requireSession_eq_ok.mp hfound
  obtain ⟨-, h⟩ := require_bind_eq_ok.mp h
  obtain ⟨_, db₂, hcheck, h⟩ := bind_eq_ok.mp h
  obtain ⟨hidle, rfl⟩ := requireIdle_eq_ok.mp hcheck
  obtain ⟨_, db₃, hrevision, h⟩ := bind_eq_ok.mp h
  obtain ⟨-, rfl⟩ := require_eq_ok.mp hrevision
  obtain ⟨hnone, h⟩ := require_bind_eq_ok.mp h
  obtain ⟨item, hnext, h⟩ := orRaise_bind_eq_ok.mp h
  obtain ⟨commandId, db₄, hcommandId, h⟩ := bind_eq_ok.mp h
  obtain ⟨⟨w₁, runId⟩, db₅, hrun, h⟩ := bind_eq_ok.mp h
  obtain ⟨_, db₆, hsave, h⟩ := bind_eq_ok.mp h
  obtain rfl := save_eq_ok.mp hsave
  obtain ⟨_, db₇, hcommand, h⟩ := bind_eq_ok.mp h
  obtain ⟨-, rfl⟩ := pure_eq_ok.mp h
  obtain ⟨hitem, hunarchived, hpending⟩ :=
    Workspace.firstItem_eq_some (Option.filter_eq_some_iff.mp hnext).1
  rw [decide_eq_true_eq] at hpending
  have hphase : item.status.phase = .waiting := by
    rw [hpending]
    rfl
  -- The selection itself neither ends a run nor changes the status of the session.
  have hselected : ∀ (permit : Permit), permit.pick → ∀ fresh : Id → Prop,
      w.Changes permit fresh ((((w.activate item.id).reviseItem item.id).revise).append call
        .workItemActivated [("revision", .number (item.revision + 1))]
        { commandId := some commandId, workItemId := some item.id }) := by
    intro permit hpick fresh
    exact (((Workspace.Changes.activate .refl hitem hpick hphase hnone hunarchived
      (Or.inl hpending)).reviseItem item.id).revise).append call _ rfl (by decide)
  have hquiet := hselected { pick := True } trivial fun _ ↦ False
  have hid : Prepares (Permit.next userId key (.nextItem sessionId expected nextId)).command
      (.next userId key (.nextItem sessionId expected nextId)) db db₄ :=
    prepares_generateId hcommandId
  have hmakes : Makes (Permit.next userId key (.nextItem sessionId expected nextId)).command
      (.next userId key (.nextItem sessionId expected nextId)) db db₅ w w₁ := by
    refine Makes.trans ⟨hid, hselected _ trivial _⟩
      (runForSelected_makes trivial (by simp) ?_ ?_ ?_ hrun)
    · unfold Workspace.Idle
      rw [hquiet.jobs_eq (fun h ↦ h) fun h ↦ h]
      exact hidle
    · exact (hquiet.status_eq fun h ↦ h).trans (hactive rfl)
    · refine ⟨_, List.mem_map.mpr ⟨_, List.mem_map.mpr ⟨item, hitem, if_pos rfl⟩, if_pos rfl⟩, rfl⟩
  have hsaved := hmakes.progress hsound hw (fun h ↦ h) (fun h ↦ h) (fun h ↦ h) ?_ False.elim
  · exact hsaved.prepare hsound (prepares_addCommand hcommand ⟨rfl, rfl, rfl⟩)
  · refine Or.inr (lt_of_lt_of_le (Nat.lt_succ_self w.session.stateRevision) ?_)
    exact (runForSelected_revision_le hrun)

end FilmOS.Agent
