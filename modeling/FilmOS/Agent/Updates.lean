import FilmOS.Agent.RevisionLaws

/-!
# No lost updates

A user, a model and a recognition write an item under the revision that they read. `KeepsUpdates`
says what the writers of a session can rely on, over any run: what changed in an item is told by its
revision, an accepted write is applied to what its writer read, a refused one leaves the item as it
is, and of two writers that read the same revision one is refused (`keepsUpdates_run`).
-/

set_option autoImplicit false
set_option relaxedAutoImplicit false

namespace FilmOS.Agent

open Transaction AgentDb

/-! ### Writers -/

/-- The item that a call writes under a revision, and the revision that its caller holds. -/
def AgentOp.write : AgentOp → Option (Id × ℕ)
  | .patchItem itemId _ expected _ => some (itemId, expected)
  | .itemCommand itemId _ _ _ payload => some (itemId, payload.expectedRevision)
  | .runTool context _ _ (.patchDraft expected _) => context.workItemId.map (·, expected)
  | .runTool context _ _ (.extractOrder _ _ expected) => context.workItemId.map (·, expected)
  | _ => none

/-- What a call writes into the draft of its item: a patch, what was recognised, or nothing. -/
def AgentOp.Drafts (item : OrderIntakeItem) (draft : OrderDraft) : AgentOp → Prop
  | .patchItem _ _ _ patch => mergePatch item.draft patch = .ok draft
  | .runTool _ _ _ (.patchDraft _ patch) => mergePatch item.draft patch = .ok draft
  | .runTool _ _ _ (.extractOrder first _ _) =>
    mergePatch item.draft (extractionPatch item first.proposed) = .ok draft
  | _ => draft = item.draft

/-- The write is accepted: the call returns, and neither repeats an earlier one nor returns the
order that exists. -/
def AgentInput.Accepted (input : AgentInput) (db : AgentDb) : Prop :=
  match input.op with
  | .patchItem itemId userId expected patch =>
    ∃ db', patchItem input.call itemId userId expected patch db = .ok () db'
  | .itemCommand itemId userId key kind payload =>
    db.commands.find? (userId, key) = none ∧ ∃ result db',
      itemCommand input.call itemId userId key kind payload db = .ok result db' ∧
        ¬ result.ReturnsExisting
  | .runTool context callId request operation =>
    ∃ result db',
      runTool input.call input.later context callId request operation db = .ok result db'
  | _ => False

variable {call : Call} {later : Time} {context : RunContext} {db db' : AgentDb} {w w' : Workspace}

/-- An item is in one session, once. -/
theorem AgentDb.Sound.shows_eq (hsound : db.Sound) {item other : OrderIntakeItem}
    (hitem : db.Shows item) (hother : db.Shows other) (hid : other.id = item.id) :
    other = item := by
  obtain ⟨w, hw, hmem⟩ := hitem
  obtain ⟨v, hv, hmem'⟩ := hother
  have huses : ∀ {u : Workspace} {row : OrderIntakeItem}, row ∈ u.items.rows → u.Uses row.id :=
    fun hrow ↦ Or.inr (Or.inl ((Table.mem_keys _).mpr ⟨_, hrow, rfl⟩))
  have hsame : v = w := hsound.apart v hv w hw item.id (hid ▸ huses hmem') (huses hmem)
  subst hsame
  exact v.items.eq_of_key_eq hmem' hmem hid

theorem AgentDb.Sound.shows_issued (hsound : db.Sound) {item : OrderIntakeItem}
    (hitem : db.Shows item) : item.id ∈ db.board.issued := by
  obtain ⟨w, hw, hmem⟩ := hitem
  exact hsound.issued w hw _ (Or.inr (Or.inl ((Table.mem_keys _).mpr ⟨item, hmem, rfl⟩)))

/-- An item that is there before and after was followed. -/
theorem AgentDb.Tells.cell_tells (hsound : db.Sound) (h : Tells True db db')
    {item last : OrderIntakeItem} (hitem : db.Shows item) (hlast : db'.Shows last)
    (hid : last.id = item.id) : item.cell.Tells last.cell := by
  rcases h last hlast with ⟨hfresh, -⟩ | ⟨old, hold, hfollows⟩
  · exact absurd (hid ▸ hsound.shows_issued hitem) hfresh.1
  · obtain rfl := hsound.shows_eq hitem hold (hfollows.id.symm.trans hid)
    exact hfollows.told.resolve_left fun h ↦ h

/-- The session that an accepted write has saved shows the item as it was written. -/
theorem shows_of_writes {α : Type} {body : Txn Failure AgentDb α} {a : α} {db₁ : AgentDb}
    {redrafts : Prop} {merges : OrderDraft → Prop} {expected : ℕ} {item : OrderIntakeItem}
    (hok : body db = .ok a db') (hsaved : w' ∈ db'.workspaces.rows) (hitem : item ∈ w.items.rows)
    (hwrites : WritesItem redrafts merges (Fresh db db₁) expected item w w') :
    ∃ last, (commit body db).Shows last ∧ last.id = item.id ∧
      Versioned.Swaps expected item.cell last.cell ∧ merges last.draft := by
  rw [commit_of_ok hok]
  obtain ⟨last, hlast, hid⟩ := (Table.mem_keys _).mp
    (hwrites.follows.kept ((Table.mem_keys _).mpr ⟨item, hitem, rfl⟩))
  exact ⟨last, ⟨w', hsaved, hlast⟩, hid, ⟨hwrites.read, hwrites.told last hlast hid⟩,
    hwrites.merged last hlast hid⟩

/-- What a tool call that writes an item does to it. -/
theorem perform_writes (hsound : db.Sound) (hw : w ∈ db.workspaces.rows) {run : AgentRun}
    {callId itemId : Id} {request : ToolRequest} {operation : ToolOperation} {expected : ℕ}
    {result : ToolResult}
    (hwrite : (AgentOp.runTool context callId request operation).write = some (itemId, expected))
    (h : operation.perform call context run w db = .ok (w', result) db') :
    ∃ item, item ∈ w.items.rows ∧ item.id = itemId ∧
      WritesItem True (fun draft ↦
        (AgentOp.runTool context callId request operation).Drafts item draft) (Fresh db db')
        expected item w w' := by
  cases operation with
  | patchDraft revision patch =>
    obtain ⟨id, hcontext, hpair⟩ := Option.map_eq_some_iff.mp hwrite
    obtain ⟨rfl, rfl⟩ := Prod.mk.inj hpair
    obtain ⟨item, hfound, h⟩ := checked_bind_eq_ok.mp h
    obtain ⟨hitem, hid⟩ := contextItem_ok hfound
    rw [get_bind_eq_ok] at h
    obtain ⟨w₁, hpatch, h⟩ := checked_bind_eq_ok.mp h
    obtain ⟨item', -, h⟩ := checked_bind_eq_ok.mp h
    obtain ⟨heq, rfl⟩ := pure_eq_ok.mp h
    obtain ⟨rfl, -⟩ := Prod.mk.inj heq
    rw [hcontext] at hid
    exact ⟨item, hitem, (Option.some.inj hid).symm,
      patchDraft_writes (not_fresh_item hsound hw hitem) hitem rfl rfl (.refl _) hpatch⟩
  | extractOrder first further revision =>
    obtain ⟨id, hcontext, hpair⟩ := Option.map_eq_some_iff.mp hwrite
    obtain ⟨rfl, rfl⟩ := Prod.mk.inj hpair
    obtain ⟨item, hfound, h⟩ := checked_bind_eq_ok.mp h
    obtain ⟨hitem, hid⟩ := contextItem_ok hfound
    obtain ⟨w₁, db₁, hextract, h⟩ := bind_eq_ok.mp h
    obtain ⟨item', -, h⟩ := checked_bind_eq_ok.mp h
    obtain ⟨heq, rfl⟩ := pure_eq_ok.mp h
    obtain ⟨rfl, -⟩ := Prod.mk.inj heq
    rw [hcontext] at hid
    exact ⟨item, hitem, (Option.some.inj hid).symm,
      (saveScreenshotExtraction_writes (not_fresh_item hsound hw hitem) hitem hextract).2⟩
  | _ => cases hwrite

/-- An accepted write changes its item from the expected revision on. -/
theorem accepted_writes (hsound : db.Sound) {input : AgentInput} {itemId : Id} {expected : ℕ}
    (hwrite : input.op.write = some (itemId, expected)) (h : input.Accepted db) :
    ∃ item last, db.Shows item ∧ item.id = itemId ∧ (step db input).Shows last ∧
      last.id = itemId ∧ Versioned.Swaps expected item.cell last.cell ∧
      input.op.Drafts item last.draft := by
  obtain ⟨call, later, op⟩ := input
  cases op with
  | patchItem id userId revision patch =>
    obtain ⟨rfl, rfl⟩ := Prod.mk.inj (Option.some.inj hwrite)
    obtain ⟨db', hok⟩ := h
    obtain ⟨w, item, w', ⟨hw, hitem, hid⟩, rfl, hwrites⟩ := patchItem_ok hsound hok
    obtain ⟨last, hlast, hlastId, hswaps, hdraft⟩ :=
      shows_of_writes hok ((Table.mem_put db.workspaces).mpr (Or.inl rfl)) hitem hwrites
    exact ⟨item, last, ⟨w, hw, hitem⟩, hid, hlast, hlastId.trans hid, hswaps, hdraft⟩
  | itemCommand id userId key kind payload =>
    obtain ⟨rfl, rfl⟩ := Prod.mk.inj (Option.some.inj hwrite)
    obtain ⟨hfree, result, db', hok, hexisting⟩ := h
    obtain ⟨w, item, db₁, ⟨hw, hitem, hid⟩, ⟨hreturns, -⟩ | ⟨w', -, -, hprepared, hwrites⟩⟩ :=
      itemCommand_ok hsound hfree hok
    · exact absurd hreturns hexisting
    · have hsaved : w' ∈ db'.workspaces.rows := by
        rw [hprepared.workspaces]
        exact (Table.mem_put db₁.workspaces).mpr (Or.inl rfl)
      obtain ⟨last, hlast, hlastId, hswaps, hdraft⟩ := shows_of_writes hok hsaved hitem hwrites
      exact ⟨item, last, ⟨w, hw, hitem⟩, hid, hlast, hlastId.trans hid, hswaps, hdraft⟩
  | runTool context callId request operation =>
    obtain ⟨result, db', hok⟩ := h
    obtain ⟨w, run, w₁, w', db₁, ⟨hw, -⟩, -, -, -, -, hperform, -, hw', rfl⟩ := runTool_ok hok
    obtain ⟨item, hitem, hid, hwrites⟩ := perform_writes hsound hw hwrite hperform
    have hitems : w'.items = w₁.items := by
      rw [hw']
      rfl
    have hall : WritesItem True (fun draft ↦
        (AgentOp.runTool context callId request operation).Drafts item draft) (Fresh db db₁)
        expected item w w' :=
      hwrites.trans (hitems ▸ .refl _) (not_fresh_item hsound hw hitem)
    obtain ⟨last, hlast, hlastId, hswaps, hdraft⟩ :=
      shows_of_writes hok ((Table.mem_put db₁.workspaces).mpr (Or.inl rfl)) hitem hall
    exact ⟨item, last, ⟨w, hw, hitem⟩, hid, hlast, hlastId.trans hid, hswaps, hdraft⟩
  | _ => cases hwrite

/-- A write that is not accepted leaves all sessions as they are. -/
theorem workspaces_of_refused (hsound : db.Sound) {input : AgentInput} {itemId : Id} {expected : ℕ}
    (hwrite : input.op.write = some (itemId, expected)) (h : ¬ input.Accepted db) :
    (step db input).workspaces = db.workspaces := by
  obtain ⟨call, later, op⟩ := input
  cases op with
  | patchItem id userId revision patch =>
    rcases commit_cases (patchItem call id userId revision patch) db with heq | ⟨u, db', hok, -⟩
    · exact congrArg AgentDb.workspaces heq
    · exact absurd ⟨db', hok⟩ h
  | itemCommand id userId key kind payload =>
    rcases commit_cases (itemCommand call id userId key kind payload) db with
      heq | ⟨result, db', hok, heq⟩
    · exact congrArg AgentDb.workspaces heq
    · refine (congrArg AgentDb.workspaces heq).trans ?_
      have hreplay := hok
      unfold itemCommand at hreplay
      rcases replaying_ok hreplay with ⟨row, -, -, -, rfl⟩ | ⟨hfree, -⟩
      · rfl
      · obtain ⟨w, item, db₁, -, ⟨-, hprepared⟩ | ⟨w', hexisting, -⟩⟩ :=
          itemCommand_ok hsound hfree hok
        · exact hprepared.workspaces
        · exact absurd ⟨hfree, result, db', hok, hexisting⟩ h
  | runTool context callId request operation =>
    rcases commit_cases (runTool call later context callId request operation) db with
      heq | ⟨result, db', hok, -⟩
    · exact congrArg AgentDb.workspaces heq
    · exact absurd ⟨result, db', hok⟩ h
  | _ => cases hwrite

/-! ### Runs -/

/-- What the writers of items can rely on, from a state on through any further calls. -/
structure AgentDb.KeepsUpdates (db : AgentDb) (inputs : List AgentInput) : Prop where
  /-- Whatever changes in an item, its revision tells. -/
  told : ∀ item last, db.Shows item → (System.run step db inputs).Shows last → last.id = item.id →
    item.cell.Tells last.cell
  /-- An accepted write is applied to what its writer read under the revision. -/
  applied : ∀ input itemId expected, input.op.write = some (itemId, expected) →
    input.Accepted (System.run step db inputs) →
      ∃ item last, (System.run step db inputs).Shows item ∧ item.id = itemId ∧
        (∀ read, db.Shows read → read.id = itemId → read.revision = expected →
          read.cell = item.cell) ∧
        (step (System.run step db inputs) input).Shows last ∧ last.id = itemId ∧
        Versioned.Swaps expected item.cell last.cell ∧ input.op.Drafts item last.draft
  /-- After an accepted write another one under the same revision is refused, and leaves the item as
  it is. -/
  once : ∀ first second itemId expected, first.op.write = some (itemId, expected) →
    second.op.write = some (itemId, expected) → first.Accepted db →
      ¬ second.Accepted (System.run step (step db first) inputs) ∧
        ∀ item, (step (System.run step (step db first) inputs) second).Shows item ↔
          (System.run step (step db first) inputs).Shows item

/-- No update of an item is lost, from any state that a run reaches on. -/
theorem keepsUpdates_run (board : Board) (earlier inputs : List AgentInput) :
    (System.run step (AgentDb.start board) earlier).KeepsUpdates inputs := by
  have hsound := sound_run board earlier
  generalize System.run step (AgentDb.start board) earlier = db at hsound ⊢
  have hlater : ∀ {db : AgentDb}, db.Sound → (System.run step db inputs).Sound := fun hsound ↦
    System.invariant_run_all (fun _ input h ↦ h.step input) inputs _ hsound
  refine ⟨fun item last hitem hlast hid ↦ ?_, fun input itemId expected hwrite haccepted ↦ ?_,
    fun first second itemId expected hfirst hsecond haccepted ↦ ?_⟩
  · exact (tells_run hsound inputs).cell_tells hsound hitem hlast hid
  · obtain ⟨item, last, hitem, hid, hlast, hlastId, hswaps, hdraft⟩ :=
      accepted_writes (hlater hsound) hwrite haccepted
    refine ⟨item, last, hitem, hid, fun read hread hreadId hrevision ↦ ?_, hlast, hlastId, hswaps,
      hdraft⟩
    exact hswaps.applied ((tells_run hsound inputs).cell_tells hsound hread hitem
      (hid.trans hreadId.symm)) hrevision
  · have hsound₁ : (step db first).Sound := hsound.step first
    have hrefused : ¬ second.Accepted (System.run step (step db first) inputs) := by
      intro hagain
      obtain ⟨item, last, hitem, hid, hlast, hlastId, hswaps, -⟩ :=
        accepted_writes hsound hfirst haccepted
      obtain ⟨other, other', hother, hotherId, -, -, hswaps', -⟩ :=
        accepted_writes (hlater hsound₁) hsecond hagain
      exact hswaps.excludes ((tells_run hsound₁ inputs).cell_tells hsound₁ hlast hother
        (hotherId.trans hlastId.symm)) hswaps'
    refine ⟨hrefused, fun item ↦ ?_⟩
    unfold AgentDb.Shows
    rw [workspaces_of_refused (hlater hsound₁) hsecond hrefused]

end FilmOS.Agent
