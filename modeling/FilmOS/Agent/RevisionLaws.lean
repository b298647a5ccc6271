import FilmOS.Agent.Revisions

/-!
# Every change of an item is told by its revision

`AgentDb.Tells` says it of two states of the database: an item that is there later is new, or
follows the item that was there. Every call of a service keeps it.
-/

set_option autoImplicit false
set_option relaxedAutoImplicit false

namespace FilmOS.Agent

open Transaction AgentDb Scheduling

/-- The database has the item. -/
def AgentDb.Shows (db : AgentDb) (item : OrderIntakeItem) : Prop :=
  ∃ w ∈ db.workspaces.rows, item ∈ w.items.rows

/-- An item that is there later is new, or follows one that was there. -/
def AgentDb.Tells (redrafts : Prop) (db db' : AgentDb) : Prop :=
  ∀ later, db'.Shows later → Fresh db db' later.id ∧ later.draft.Validated ∨
    ∃ item, db.Shows item ∧ item.Follows redrafts False later

variable {call : Call} {later : Time} {context : RunContext} {db db' db₁ db₂ : AgentDb}
  {w w' : Workspace} {redrafts : Prop}

/-! ### Transactions -/

/-- Everything is permitted. -/
def Permit.any : Permit where
  command _ := True
  bond _ := True
  call _ := True
  order := True
  plan := True
  runs := True
  letter := True
  queue := True
  pick := True
  work := True
  status := True
  files := True

/-- Only the workspaces are followed here: whatever else was prepared does not matter. -/
abbrev AgentDb.Prepared (db db' : AgentDb) : Prop := Prepares Permit.any.command .any db db'

namespace AgentDb.Tells

theorem refl (db : AgentDb) : Tells redrafts db db :=
  fun item hitem ↦ Or.inr ⟨item, hitem, .refl item⟩

theorem mono {redrafts' : Prop} (hredrafts : redrafts → redrafts') (h : Tells redrafts db db₁) :
    Tells redrafts' db db₁ := by
  intro item hitem
  rcases h item hitem with hfresh | ⟨earlier, hearlier, hfollows⟩
  · exact Or.inl hfresh
  · exact Or.inr ⟨earlier, hearlier, hfollows.mono hredrafts fun h ↦ h⟩

theorem trans (hissued : db.board.issued ⊆ db₁.board.issued)
    (hissued' : db₁.board.issued ⊆ db₂.board.issued) (h : Tells redrafts db db₁)
    (h' : Tells redrafts db₁ db₂) : Tells redrafts db db₂ := by
  intro last hlast
  rcases h' last hlast with ⟨hfresh, hdraft⟩ | ⟨item, hitem, hfollows'⟩
  · exact Or.inl ⟨⟨fun hmem ↦ hfresh.1 (hissued hmem), hfresh.2⟩, hdraft⟩
  · rcases h item hitem with ⟨hfresh, hdraft⟩ | ⟨first, hfirst, hfollows⟩
    · left
      rw [hfollows'.id]
      exact ⟨⟨hfresh.1, hissued' hfresh.2⟩, hfollows'.validated hdraft⟩
    · exact Or.inr ⟨first, hfirst, hfollows.trans hfollows'⟩

/-- A workspace is saved whose items follow those it had. -/
theorem save (h : Prepared db db₁) (hw : w ∈ db.workspaces.rows)
    (hfollows : ItemsFollow redrafts (fun _ ↦ False) (Fresh db db₁) w.items w'.items) :
    Tells redrafts db { db₁ with workspaces := db₁.workspaces.put w' } := by
  rintro item ⟨v, hv, hitem⟩
  rcases (Table.mem_put _).mp hv with rfl | ⟨hold, -⟩
  · rcases hfollows.origin item hitem with hfresh | ⟨earlier, hearlier, hitem'⟩
    · exact Or.inl hfresh
    · exact Or.inr ⟨earlier, ⟨w, hw, hearlier⟩, hitem'⟩
  · rw [h.workspaces] at hold
    exact Or.inr ⟨item, ⟨v, hold, hitem⟩, .refl item⟩

/-- A workspace is saved with the items that it had. -/
theorem saveSame (h : Prepared db db₁) (hw : w ∈ db.workspaces.rows) (hitems : w'.items = w.items) :
    Tells redrafts db { db₁ with workspaces := db₁.workspaces.put w' } := by
  refine save h hw ?_
  rw [hitems]
  exact .refl _

/-- More is prepared after a workspace was saved. -/
theorem prepare (h : Tells redrafts db db₁) (h' : Prepared db₁ db₂) : Tells redrafts db db₂ := by
  rintro item ⟨w, hw, hitem⟩
  rw [h'.workspaces] at hw
  rcases h item ⟨w, hw, hitem⟩ with ⟨hfresh, hdraft⟩ | hold
  · exact Or.inl ⟨⟨hfresh.1, h'.issued hfresh.2⟩, hdraft⟩
  · exact Or.inr hold

theorem of_prepared (h : Prepared db db₁) : Tells redrafts db db₁ := (refl db).prepare h

/-- Sessions disappear with their items. -/
theorem of_subset (h : ∀ w ∈ db₁.workspaces.rows, w ∈ db.workspaces.rows) :
    Tells redrafts db db₁ := by
  rintro item ⟨w, hw, hitem⟩
  exact Or.inr ⟨item, ⟨w, h w hw, hitem⟩, .refl item⟩

theorem replaying {userId : Id} {key : String} {request : CommandRequest}
    {body : Txn Failure AgentDb CommandResult} {result : CommandResult}
    (h : replaying userId key request body db = .ok result db')
    (hbody : body db = .ok result db' → Tells redrafts db db') : Tells redrafts db db' := by
  rcases replaying_ok h with ⟨row, -, -, -, rfl⟩ | ⟨-, h⟩
  · exact .refl _
  · exact hbody h

end AgentDb.Tells

/-! ### Sessions and messages -/

theorem tells_createSession {userId : Id} {key : String} {body : CreateSession}
    {result : CommandResult} (h : createSession call userId key body db = .ok result db') :
    Tells redrafts db db' := by
  unfold createSession at h
  refine Tells.replaying h fun h ↦ ?_
  obtain ⟨sessionId, db₁, hsessionId, h⟩ := bind_eq_ok.mp h
  obtain ⟨commandId, db₂, hcommandId, h⟩ := bind_eq_ok.mp h
  rw [get_bind_eq_ok] at h
  obtain ⟨workspaces, hinsert, h⟩ := orRaise_bind_eq_ok.mp h
  rw [set_bind_eq_ok] at h
  obtain ⟨_, db₃, hcommand, h⟩ := bind_eq_ok.mp h
  obtain ⟨-, rfl⟩ := pure_eq_ok.mp h
  have hprepared : Prepared db db₂ :=
    (prepares_generateId hsessionId).trans (prepares_generateId hcommandId)
  refine Tells.prepare ?_ (prepares_addCommand hcommand trivial)
  rintro item ⟨w, hw, hitem⟩
  rw [((Table.insert?_eq_some_iff _ _ _).mp hinsert).2, hprepared.workspaces] at hw
  rcases List.mem_append.mp hw with hw | hw
  · exact Or.inr ⟨item, ⟨w, hw, hitem⟩, .refl item⟩
  · obtain rfl := List.mem_singleton.mp hw
    cases hitem

theorem tells_enterWorkspace {userId : Id} {key : String} {agentType : AgentType}
    {dto : SessionDto} (h : enterWorkspace call userId key agentType db = .ok dto db') :
    Tells redrafts db db' := by
  unfold enterWorkspace at h
  rw [get_bind_eq_ok] at h
  cases hfound : firstBy (fun w : Workspace ↦
      toLex (w.session.activePlanId.isNone, toLex (w.session.createdAt, w.session.id)))
    (db.workspaces.rows.filter (fun w ↦
      w.session.userId = userId ∧ w.session.agentType = agentType ∧
        w.session.status = .active)) with
  | some w =>
    simp only [hfound, pure_eq_ok] at h
    obtain ⟨-, rfl⟩ := h
    exact .refl _
  | none =>
    simp only [hfound] at h
    obtain ⟨result, db₁, hcreate, h⟩ := bind_eq_ok.mp h
    have htells : Tells redrafts db db₁ := tells_createSession hcreate
    cases result with
    | sessionCreated session cursor =>
      obtain ⟨-, rfl⟩ := pure_eq_ok.mp h
      exact htells
    | _ => cases h

/-- Every screenshot of a message gets a new item. -/
theorem bindAttachments_follows {messageId : Id} {position : ℤ}
    (attachments : List ChatAttachment) :
    ∀ {index : ℕ} {db db' : AgentDb} {w : Workspace} {bound : Workspace × List OrderIntakeItem},
      bindAttachments call messageId position attachments index w db = .ok bound db' →
        Prepared db db' ∧
          ItemsFollow redrafts (fun _ ↦ False) (Fresh db db') w.items bound.1.items := by
  induction attachments with
  | nil =>
    intro index db db' w bound h
    obtain ⟨rfl, rfl⟩ := pure_eq_ok.mp h
    exact ⟨.refl db, .refl _⟩
  | cons attachment attachments ih =>
    intro index db db' w bound h
    obtain ⟨itemId, db₁, hitemId, h⟩ := bind_eq_ok.mp h
    obtain ⟨w₁, hadd, h⟩ := checked_bind_eq_ok.mp h
    obtain ⟨⟨w₂, items⟩, db₂, hrest, h⟩ := bind_eq_ok.mp h
    obtain ⟨rfl, rfl⟩ := pure_eq_ok.mp h
    obtain ⟨hprepared, hfollows⟩ := ih hrest
    have hfirst : Prepared db db₁ := prepares_generateId hitemId
    obtain ⟨table, hinsert, rfl⟩ := Workspace.addItem_eq_ok.mp hadd
    refine ⟨hfirst.trans hprepared, ItemsFollow.trans ?_
      (hfollows.mono (fun h ↦ h) (fun _ h ↦ h) fun _ ↦ hfirst.fresh_left)⟩
    exact ItemsFollow.insert _ (hprepared.fresh_right (fresh_generateId hitemId))
      OrderDraft.validated_blank hinsert

theorem tells_acceptMessage {sessionId userId : Id} {body : SendMessage} {mode : MessageMode}
    {accepted : Accepted} (h : acceptMessage call sessionId userId body mode db =
    .ok accepted db') : Tells redrafts db db' := by
  obtain ⟨w, hw, -, -, -, hcases⟩ := acceptMessage_ok h
  rcases hcases with ⟨_, -, -, rfl⟩ | ⟨state, attachments, -, -, -, -, h⟩
  · exact .refl _
  · obtain ⟨messageId, db₁, bound, db₂, w₃, runId, db₃, w₄, hmessageId, hbound, hactivate, hrunId,
      hrun, rfl, -⟩ := enterMessage_ok h
    have hfirst : Prepared db db₁ := prepares_generateId hmessageId
    have hlast : Prepared db₂ db₃ := prepares_generateId hrunId
    have hadded : Prepared db₁ db₂ ∧
        ItemsFollow redrafts (fun _ ↦ False) (Fresh db₁ db₂) _ bound.1.items :=
      bindAttachments_follows attachments hbound
    obtain ⟨hprepared, hfollows⟩ := hadded
    have hactivated : ItemsFollow redrafts (fun _ ↦ False) (Fresh db db₃)
      bound.1.items w₄.items := by
      rw [items_addRun hrun]
      rcases activateFirst_ok hactivate with rfl | ⟨first, -, -, -, -, rfl⟩
      · exact .refl _
      · exact activate_follows first.id
    refine Tells.save ((hfirst.trans hprepared).trans hlast) hw (ItemsFollow.trans ?_ hactivated)
    exact hfollows.mono (fun h ↦ h) (fun _ h ↦ h) fun _ hid ↦
      hlast.fresh_right (hfirst.fresh_left hid)

theorem tells_retryRun {runId userId : Id} {key : String} {expected : ℕ} {result : CommandResult}
    (h : retryRun call runId userId key expected db = .ok result db') : Tells redrafts db db' := by
  unfold retryRun at h
  refine Tells.replaying h fun h ↦ ?_
  rw [get_bind_eq_ok] at h
  obtain ⟨found, -, h⟩ := orRaise_bind_eq_ok.mp h
  obtain ⟨w, db₁, hfound, h⟩ := bind_eq_ok.mp h
  obtain ⟨⟨hw, -⟩, -, -, -, rfl⟩ := requireSession_eq_ok.mp hfound
  obtain ⟨_, db₂, hcheck, h⟩ := bind_eq_ok.mp h
  obtain ⟨-, rfl⟩ := requireIdle_eq_ok.mp hcheck
  obtain ⟨_, db₃, hrevision, h⟩ := bind_eq_ok.mp h
  obtain ⟨-, rfl⟩ := require_eq_ok.mp hrevision
  obtain ⟨original, -, h⟩ := orRaise_bind_eq_ok.mp h
  obtain ⟨-, h⟩ := require_bind_eq_ok.mp h
  obtain ⟨-, h⟩ := require_bind_eq_ok.mp h
  obtain ⟨-, h⟩ := require_bind_eq_ok.mp h
  obtain ⟨commandId, db₄, hcommandId, h⟩ := bind_eq_ok.mp h
  obtain ⟨newId, db₅, hnewId, h⟩ := bind_eq_ok.mp h
  rw [get_bind_eq_ok] at h
  obtain ⟨_, -, h⟩ := checked_bind_eq_ok.mp h
  obtain ⟨w₁, hrun, h⟩ := checked_bind_eq_ok.mp h
  obtain ⟨_, db₆, hsave, h⟩ := bind_eq_ok.mp h
  obtain rfl := save_eq_ok.mp hsave
  obtain ⟨_, db₇, hcommand, h⟩ := bind_eq_ok.mp h
  obtain ⟨-, rfl⟩ := pure_eq_ok.mp h
  have hitems := items_addRun hrun
  refine Tells.prepare ?_ (prepares_addCommand hcommand trivial)
  exact .saveSame ((prepares_generateId hcommandId).trans (prepares_generateId hnewId)) hw hitems

theorem items_cancelOpenRun : (cancelOpenRun call w).items = w.items := by
  unfold cancelOpenRun
  cases w.openRun with
  | none => rfl
  | some run => exact items_abandonCalls run.id "SESSION_DELETING"

theorem enterStatus_same {change : StatusChange} {entered : Workspace × EventKind}
    (h : enterStatus call change w db = .ok entered db') :
    Prepared db db' ∧ entered.1.items = w.items := by
  cases change with
  | delete =>
    obtain ⟨_, db₁, hjobs, h⟩ := bind_eq_ok.mp h
    obtain ⟨rfl, rfl⟩ := pure_eq_ok.mp h
    exact ⟨prepares_addGcJobs trivial _ hjobs, items_cancelOpenRun⟩
  | archive =>
    obtain ⟨_, db₁, hcheck, h⟩ := bind_eq_ok.mp h
    obtain ⟨-, rfl⟩ := requireIdle_eq_ok.mp hcheck
    obtain ⟨rfl, rfl⟩ := pure_eq_ok.mp h
    exact ⟨.refl _, rfl⟩
  | restore =>
    obtain ⟨_, db₁, hcheck, h⟩ := bind_eq_ok.mp h
    obtain ⟨-, rfl⟩ := requireIdle_eq_ok.mp hcheck
    obtain ⟨rfl, rfl⟩ := pure_eq_ok.mp h
    exact ⟨.refl _, rfl⟩

theorem tells_changeStatus {sessionId userId : Id} {key : String} {change : StatusChange}
    {result : CommandResult} (h : changeStatus call sessionId userId key change db =
    .ok result db') : Tells redrafts db db' := by
  unfold changeStatus at h
  rw [get_bind_eq_ok] at h
  cases hold : db.commands.find? (userId, key) with
  | some old =>
    simp only [hold] at h
    obtain ⟨-, h⟩ := require_bind_eq_ok.mp h
    obtain ⟨-, rfl⟩ := pure_eq_ok.mp h
    exact .refl _
  | none =>
    simp only [hold] at h
    obtain ⟨w, db₁, hfound, h⟩ := bind_eq_ok.mp h
    obtain ⟨⟨hw, -⟩, -, -, -, rfl⟩ := requireSession_eq_ok.mp hfound
    obtain ⟨commandId, db₂, hcommandId, h⟩ := bind_eq_ok.mp h
    obtain ⟨⟨w₁, kind⟩, db₃, henter, h⟩ := bind_eq_ok.mp h
    obtain ⟨_, db₄, hsave, h⟩ := bind_eq_ok.mp h
    obtain rfl := save_eq_ok.mp hsave
    obtain ⟨_, db₅, hcommand, h⟩ := bind_eq_ok.mp h
    obtain ⟨-, rfl⟩ := pure_eq_ok.mp h
    obtain ⟨hprepared, hitems⟩ := enterStatus_same henter
    refine Tells.prepare ?_ (prepares_addCommand hcommand trivial)
    exact .saveSame ((prepares_generateId hcommandId).trans hprepared) hw hitems

theorem tells_finishDeletions (skipped : List Id) :
    Tells redrafts db (finishDeletions skipped db) := by
  have hfold : ∀ (sessionIds : List Id) (db : AgentDb),
      ∀ w ∈ (sessionIds.foldl finishSession db).workspaces.rows, w ∈ db.workspaces.rows := by
    intro sessionIds
    induction sessionIds with
    | nil => exact fun db w hw ↦ hw
    | cons sessionId sessionIds ih =>
      intro db w hw
      have hmem := ih (finishSession db sessionId) w hw
      unfold finishSession at hmem
      split_ifs at hmem
      · exact hmem
      · exact (List.mem_filter.mp hmem).1
  exact .of_subset (hfold _ db)

theorem tells_collectOnce (skipped : List Id) (unlinked : Bool) :
    Tells redrafts db (collectOnce call skipped unlinked db) := by
  refine .of_subset fun w hw ↦ ?_
  unfold collectOnce at hw
  split at hw
  · exact hw
  · exact hw

/-! ### Plans -/

theorem tells_patchPlan {planId userId : Id} {expected : ℕ} {tasks : List DraftTask}
    {edited : SchedulePlan} (h : patchPlan call planId userId expected tasks db = .ok edited db') :
    Tells redrafts db db' := by
  unfold patchPlan at h
  obtain ⟨⟨w, plan⟩, db₁, hfound, hrest⟩ := bind_eq_ok.mp h
  clear h
  obtain ⟨-, -, rfl⟩ := requirePlan_ok hfound
  obtain ⟨hw, -⟩ := requirePlan_session hfound
  obtain ⟨_, db₂, hcheck, h⟩ := bind_eq_ok.mp hrest
  obtain ⟨-, rfl⟩ := requireIdle_eq_ok.mp hcheck
  obtain ⟨_, -, h⟩ := checked_bind_eq_ok.mp h
  obtain ⟨first, db₃, hedit, h⟩ := bind_eq_ok.mp h
  obtain ⟨board, hedited, rfl⟩ := onBoard_eq_ok.mp hedit
  obtain ⟨_, adjusted, unassigned, -, -, -, -, -, -, rfl⟩ :=
    updateScheduleDraft_ok (rephrase_eq_ok.mp hedited)
  obtain ⟨numbered, db₄, hnumbered, h⟩ := bind_eq_ok.mp h
  obtain ⟨_, db₅, hset, h⟩ := bind_eq_ok.mp h
  obtain ⟨_, db₆, hsave, h⟩ := bind_eq_ok.mp h
  obtain rfl := save_eq_ok.mp hsave
  obtain ⟨-, rfl⟩ := pure_eq_ok.mp h
  refine .saveSame (Prepares.trans ?_
    ((prepares_withDraftIds trivial hnumbered).trans (prepares_setPlanRow trivial hset))) hw rfl
  exact prepares_boardWork trivial (List.Subset.refl _) rfl

theorem planEffect_same {kind : CommandKind} {commandId userId : Id} {payload : ActionPayload}
    {plan : SchedulePlan} {effect : PlanEffect}
    (h : planEffect call kind commandId userId payload plan w db = .ok effect db') :
    effect.workspace.items = w.items := by
  cases kind with
  | applyPlan =>
    obtain ⟨_, db₁, -, h⟩ := bind_eq_ok.mp h
    obtain ⟨applied, db₂, -, h⟩ := bind_eq_ok.mp h
    obtain ⟨_, db₃, -, h⟩ := bind_eq_ok.mp h
    obtain ⟨messageId, db₄, -, h⟩ := bind_eq_ok.mp h
    obtain ⟨rfl, -⟩ := pure_eq_ok.mp h
    rfl
  | closePlan =>
    obtain ⟨_, db₁, -, h⟩ := bind_eq_ok.mp h
    obtain ⟨_, db₂, -, h⟩ := bind_eq_ok.mp h
    obtain ⟨rfl, -⟩ := pure_eq_ok.mp h
    rfl
  | replacePlan =>
    obtain ⟨runId, db₁, -, h⟩ := bind_eq_ok.mp h
    obtain ⟨w₁, hrun, h⟩ := checked_bind_eq_ok.mp h
    obtain ⟨rfl, -⟩ := pure_eq_ok.mp h
    have hitems := items_addRun hrun
    exact hitems
  | _ => cases h

theorem tells_planCommand (hsound : db.Sound) {planId userId : Id} {key : String}
    {kind : CommandKind} {payload : ActionPayload} {result : CommandResult}
    (h : planCommand call planId userId key kind payload db = .ok result db') :
    Tells redrafts db db' := by
  unfold planCommand at h
  refine Tells.replaying h fun hbody ↦ ?_
  obtain ⟨⟨w, plan⟩, db₁, hfound, hrest⟩ := bind_eq_ok.mp hbody
  clear h hbody
  obtain ⟨-, -, rfl⟩ := requirePlan_ok hfound
  obtain ⟨hw, -, -, hactive, htype⟩ := requirePlan_session hfound
  obtain ⟨_, db₂, hcheck, h⟩ := bind_eq_ok.mp hrest
  obtain ⟨hidle, rfl⟩ := requireIdle_eq_ok.mp hcheck
  obtain ⟨commandId, db₃, hcommandId, h⟩ := bind_eq_ok.mp h
  have hid : Prepared db₁ db₃ := prepares_generateId hcommandId
  by_cases hexisting : kind = .applyPlan ∧ plan.status = .applied
  · rw [if_pos hexisting] at h
    obtain ⟨row, -, -, hrow⟩ := recordPlanCommand_ok h
    exact .of_prepared (hid.trans (prepares_addCommand hrow trivial))
  · rw [if_neg hexisting] at h
    obtain ⟨effect, db₄, hchange, h⟩ := bind_eq_ok.mp h
    obtain ⟨_, db₅, hsave, h⟩ := bind_eq_ok.mp h
    obtain rfl := save_eq_ok.mp hsave
    obtain ⟨row, -, -, hrow⟩ := recordPlanCommand_ok h
    have hsound₃ : db₃.Sound := by
      have hprogress : Progress .any db₁ db₃ := Prepares.progress hsound hid
      exact hsound.progress hprogress
    have hchanged : MakesOfPlan Permit.any.command .any plan.id db₃ db₄ w effect.workspace ∧
        w.session.activePlanId = some plan.id :=
      changePlan_makes hsound₃ trivial trivial (hid.workspaces.symm ▸ hw)
        hidle hactive htype hchange
    refine Tells.prepare ?_ (prepares_addCommand hrow trivial)
    refine .saveSame (hid.trans hchanged.1.makes.prepares) hw ?_
    unfold changePlan at hchange
    obtain ⟨_, -, hchange⟩ := checked_bind_eq_ok.mp hchange
    obtain ⟨-, hchange⟩ := require_bind_eq_ok.mp hchange
    obtain ⟨first, db₆, heffect, hchange⟩ := bind_eq_ok.mp hchange
    obtain ⟨_, db₇, -, hchange⟩ := bind_eq_ok.mp hchange
    obtain ⟨rfl, -⟩ := pure_eq_ok.mp hchange
    have hitems := planEffect_same heffect
    exact hitems

/-! ### Screenshots -/

theorem tells_upload {sessionId userId : Id} {clientUploadId sha256 : String}
    {inspected : Except Failure ImageFile} {uploaded : ChatAttachment}
    (h : upload call sessionId userId clientUploadId sha256 inspected db = .ok uploaded db') :
    Tells redrafts db db' := by
  unfold upload at h
  obtain ⟨w, db₁, hfound, h⟩ := bind_eq_ok.mp h
  obtain ⟨⟨hw, -⟩, -, -, -, rfl⟩ := requireSession_eq_ok.mp hfound
  obtain ⟨-, h⟩ := require_bind_eq_ok.mp h
  cases hold : w.attachments.rows.find? (·.clientUploadId = clientUploadId) with
  | some old =>
    simp only [hold] at h
    obtain ⟨-, h⟩ := require_bind_eq_ok.mp h
    obtain ⟨-, rfl⟩ := pure_eq_ok.mp h
    exact .refl _
  | none =>
    simp only [hold] at h
    obtain ⟨_, db₂, hcheck, h⟩ := bind_eq_ok.mp h
    obtain ⟨-, rfl⟩ := requireIdle_eq_ok.mp hcheck
    obtain ⟨file, -, h⟩ := checked_bind_eq_ok.mp h
    obtain ⟨id, db₃, hid, h⟩ := bind_eq_ok.mp h
    obtain ⟨w₁, hadd, h⟩ := checked_bind_eq_ok.mp h
    obtain ⟨_, db₄, hsave, h⟩ := bind_eq_ok.mp h
    obtain rfl := save_eq_ok.mp hsave
    obtain ⟨-, rfl⟩ := pure_eq_ok.mp h
    refine .saveSame (prepares_generateId hid) hw ?_
    unfold Workspace.addAttachment at hadd
    split at hadd
    · obtain rfl := Except.ok.inj hadd
      rfl
    · cases hadd

theorem deferArchived_follows {commandId : Id} {fresh : Id → Prop}
    (h : deferArchived call commandId w = .ok w') :
    ItemsFollow redrafts (fun _ ↦ False) fresh w.items w'.items := by
  unfold deferArchived at h
  cases hcurrent : w.session.activeWorkItemId with
  | none =>
    simp only [hcurrent] at h
    obtain rfl := Except.ok.inj h
    exact .refl _
  | some itemId =>
    simp only [hcurrent] at h
    cases hfind : w.items.find? itemId with
    | none =>
      simp only [hfind] at h
      obtain rfl := Except.ok.inj h
      exact .refl _
    | some current =>
      simp only [hfind] at h
      cases hsource : w.attachments.find? current.sourceAttachmentId with
      | none =>
        simp only [hsource] at h
        cases h
      | some source =>
        simp only [hsource] at h
        split_ifs at h
        · obtain rfl := Except.ok.inj h
          exact .refl _
        · obtain rfl := Except.ok.inj h
          exact release_follows current.id .deferred

theorem tells_archiveScreenshot {attachmentId userId : Id} {key : String} {archived : Bool}
    {expected : ℕ} {result : CommandResult}
    (h : archiveScreenshot call attachmentId userId key archived expected db = .ok result db') :
    Tells redrafts db db' := by
  unfold archiveScreenshot at h
  refine Tells.replaying h fun h ↦ ?_
  rw [get_bind_eq_ok] at h
  obtain ⟨found, -, h⟩ := orRaise_bind_eq_ok.mp h
  obtain ⟨w, db₁, hfound, h⟩ := bind_eq_ok.mp h
  obtain ⟨⟨hw, -⟩, -, -, -, rfl⟩ := requireSession_eq_ok.mp hfound
  obtain ⟨attachment, -, h⟩ := orRaise_bind_eq_ok.mp h
  obtain ⟨-, h⟩ := require_bind_eq_ok.mp h
  obtain ⟨_, db₂, hcheck, h⟩ := bind_eq_ok.mp h
  obtain ⟨-, rfl⟩ := requireIdle_eq_ok.mp hcheck
  obtain ⟨-, h⟩ := require_bind_eq_ok.mp h
  obtain ⟨commandId, db₃, hcommandId, h⟩ := bind_eq_ok.mp h
  obtain ⟨w₁, hdefer, h⟩ := checked_bind_eq_ok.mp h
  obtain ⟨_, db₄, hsave, h⟩ := bind_eq_ok.mp h
  obtain rfl := save_eq_ok.mp hsave
  obtain ⟨_, db₅, hcommand, h⟩ := bind_eq_ok.mp h
  obtain ⟨-, rfl⟩ := pure_eq_ok.mp h
  have hitems : ∀ v : Workspace, v.items = w.items → deferArchived call commandId
      (v.setAttachment attachmentId (fun row ↦
        { row with
          intakeArchivedAt := if archived then some call.now else none
          intakeRevision := row.intakeRevision + 1 })) = .ok w₁ →
      ItemsFollow redrafts (fun _ ↦ False) (Fresh db db₃) w.items w₁.items := by
    intro v hv hdefer
    rw [← hv]
    have hfollows : ItemsFollow redrafts (fun _ ↦ False) (Fresh db db₃) _ w₁.items :=
      deferArchived_follows hdefer
    exact hfollows
  refine Tells.prepare ?_ (prepares_addCommand hcommand trivial)
  refine .save (prepares_generateId hcommandId) hw ?_
  refine hitems _ ?_ hdefer
  split_ifs
  · rfl
  · rfl

theorem tells_deleteScreenshot {attachmentId userId : Id} {key : String} {expected : ℕ}
    {result : CommandResult}
    (h : deleteScreenshot call attachmentId userId key expected db = .ok result db') :
    Tells redrafts db db' := by
  unfold deleteScreenshot at h
  refine Tells.replaying h fun h ↦ ?_
  rw [get_bind_eq_ok] at h
  obtain ⟨found, -, h⟩ := orRaise_bind_eq_ok.mp h
  obtain ⟨w, db₁, hfound, h⟩ := bind_eq_ok.mp h
  obtain ⟨⟨hw, -⟩, -, -, -, rfl⟩ := requireSession_eq_ok.mp hfound
  obtain ⟨attachment, -, h⟩ := orRaise_bind_eq_ok.mp h
  obtain ⟨-, h⟩ := require_bind_eq_ok.mp h
  obtain ⟨_, db₂, hcheck, h⟩ := bind_eq_ok.mp h
  obtain ⟨-, rfl⟩ := requireIdle_eq_ok.mp hcheck
  obtain ⟨-, h⟩ := require_bind_eq_ok.mp h
  obtain ⟨-, h⟩ := require_bind_eq_ok.mp h
  obtain ⟨_, db₃, hjob, h⟩ := bind_eq_ok.mp h
  obtain ⟨commandId, db₄, hcommandId, h⟩ := bind_eq_ok.mp h
  obtain ⟨_, db₅, hsave, h⟩ := bind_eq_ok.mp h
  obtain rfl := save_eq_ok.mp hsave
  obtain ⟨_, db₆, hcommand, h⟩ := bind_eq_ok.mp h
  obtain ⟨-, rfl⟩ := pure_eq_ok.mp h
  refine Tells.prepare ?_ (prepares_addCommand hcommand trivial)
  have hgiven : Prepared db db₃ := prepares_addGcJob trivial hjob
  have hprepared : Prepared db db₄ := hgiven.trans (prepares_generateId hcommandId)
  rintro item ⟨v, hv, hitem⟩
  rcases (Table.mem_put _).mp hv with rfl | ⟨hold, -⟩
  · exact Or.inr ⟨item, ⟨w, hw, (List.mem_filter.mp hitem).1⟩, .refl item⟩
  · rw [hprepared.workspaces] at hold
    exact Or.inr ⟨item, ⟨v, hold, hitem⟩, .refl item⟩

theorem tells_sweepSession {sessionId : Id} {count : ℕ}
    (h : sweepSession call sessionId db = .ok count db') : Tells redrafts db db' := by
  unfold sweepSession at h
  rw [get_bind_eq_ok] at h
  cases hfind : db.workspaces.find? sessionId with
  | none =>
    simp only [hfind, pure_eq_ok] at h
    obtain ⟨-, rfl⟩ := h
    exact .refl _
  | some w =>
    simp only [hfind] at h
    obtain ⟨_, db₁, hjobs, h⟩ := bind_eq_ok.mp h
    obtain ⟨_, db₂, hsave, h⟩ := bind_eq_ok.mp h
    obtain rfl := save_eq_ok.mp hsave
    obtain ⟨-, rfl⟩ := pure_eq_ok.mp h
    exact .saveSame (prepares_addGcJobs trivial _ hjobs) (mem_of_find? hfind).1 rfl

theorem tells_sweepSessions (sessionIds : List Id) :
    ∀ {db db' : AgentDb} {count : ℕ}, db.Sound →
      sweepSessions call sessionIds db = .ok count db' → Tells redrafts db db' := by
  induction sessionIds with
  | nil =>
    intro db db' count _ h
    obtain ⟨-, rfl⟩ := pure_eq_ok.mp h
    exact .refl _
  | cons sessionId sessionIds ih =>
    intro db db' count hsound h
    obtain ⟨first, db₁, hfirst, h⟩ := bind_eq_ok.mp h
    obtain ⟨rest, db₂, hrest, h⟩ := bind_eq_ok.mp h
    obtain ⟨-, rfl⟩ := pure_eq_ok.mp h
    have hprogress := progress_sweepSession hsound hfirst
    have hsound₁ := hsound.progress hprogress
    exact (tells_sweepSession hfirst).trans hprogress.issued
      (progress_sweepSessions sessionIds hsound₁ hrest).issued (ih hsound₁ hrest)

/-! ### Workers -/

theorem tells_heartbeat {u : Unit} (h : heartbeat call later context db = .ok u db') :
    Tells redrafts db db' := by
  obtain ⟨⟨w, run⟩, db₁, hlock, h⟩ := bind_eq_ok.mp h
  obtain ⟨⟨hw, -⟩, -, -, rfl⟩ := lockRun_eq_ok.mp hlock
  obtain rfl := save_eq_ok.mp h
  exact .saveSame (.refl _) hw rfl

theorem tells_appendDelta {text : String} {chunkIndex : ℤ} {u : Unit}
    (h : appendDelta call context text chunkIndex db = .ok u db') : Tells redrafts db db' := by
  obtain ⟨-, h⟩ := require_bind_eq_ok.mp h
  obtain ⟨⟨w, run⟩, db₁, hlock, h⟩ := bind_eq_ok.mp h
  obtain ⟨⟨hw, -⟩, -, -, rfl⟩ := lockRun_eq_ok.mp hlock
  obtain rfl := save_eq_ok.mp h
  exact .saveSame (.refl _) hw rfl

theorem tells_countModel {stage : String} {u : Unit}
    (h : countModel call context stage db = .ok u db') : Tells redrafts db db' := by
  obtain ⟨⟨w, run⟩, db₁, hlock, h⟩ := bind_eq_ok.mp h
  obtain ⟨⟨hw, -⟩, -, -, rfl⟩ := lockRun_eq_ok.mp hlock
  obtain ⟨-, h⟩ := require_bind_eq_ok.mp h
  obtain rfl := save_eq_ok.mp h
  exact .saveSame (.refl _) hw rfl

theorem tells_reportProgress {payload : Payload} {u : Unit}
    (h : reportProgress call context payload db = .ok u db') : Tells redrafts db db' := by
  obtain ⟨⟨w, run⟩, db₁, hlock, h⟩ := bind_eq_ok.mp h
  obtain ⟨⟨hw, -⟩, -, -, rfl⟩ := lockRun_eq_ok.mp hlock
  obtain rfl := save_eq_ok.mp h
  exact .saveSame (.refl _) hw rfl

theorem tells_decideAdmittance {admission : Payload} {u : Unit}
    (h : decideAdmittance call context admission db = .ok u db') : Tells redrafts db db' := by
  obtain ⟨⟨w, run⟩, db₁, hlock, h⟩ := bind_eq_ok.mp h
  obtain ⟨⟨hw, -⟩, -, -, rfl⟩ := lockRun_eq_ok.mp hlock
  obtain rfl := save_eq_ok.mp h
  exact .saveSame (.refl _) hw rfl

theorem tells_recognitionFailed {code : String} {u : Unit}
    (h : recognitionFailed call context code db = .ok u db') : Tells redrafts db db' := by
  obtain ⟨⟨w, run⟩, db₁, hlock, h⟩ := bind_eq_ok.mp h
  obtain ⟨⟨hw, -⟩, -, -, rfl⟩ := lockRun_eq_ok.mp hlock
  obtain ⟨item, -, h⟩ := orRaise_bind_eq_ok.mp h
  obtain rfl := save_eq_ok.mp h
  refine .save (.refl _) hw ?_
  exact ItemsFollow.update (fun item : OrderIntakeItem ↦
    { item with
      recognitionStatus := .failed, lastErrorCode := some code, revision := item.revision + 1 })
    (fun _ ↦ rfl) fun _ _ _ ↦ .of_lt rfl (Nat.lt_succ_self _) (Or.inl rfl)

/-- What is queued for the next screenshot prepares. -/
theorem continueRecognition_prepared {run : AgentRun}
    (h : continueRecognition call run w db = .ok w' db') : Prepared db db' := by
  unfold continueRecognition at h
  split_ifs at h
  · obtain ⟨-, rfl⟩ := pure_eq_ok.mp h
    exact .refl _
  · obtain ⟨w₁, -, h⟩ := checked_bind_eq_ok.mp h
    cases hnext : w₁.nextScreenshot with
    | some pending =>
      simp only [hnext] at h
      obtain ⟨commandId, db₁, hcommandId, h⟩ := bind_eq_ok.mp h
      obtain ⟨followingId, db₂, hfollowingId, h⟩ := bind_eq_ok.mp h
      obtain ⟨w₂, -, h⟩ := checked_bind_eq_ok.mp h
      obtain ⟨_, db₃, hcommand, h⟩ := bind_eq_ok.mp h
      obtain ⟨-, rfl⟩ := pure_eq_ok.mp h
      exact (prepares_generateId hcommandId).trans
        ((prepares_generateId hfollowingId).trans (prepares_addCommand hcommand trivial))
    | none =>
      simp only [hnext] at h
      obtain ⟨-, rfl⟩ := checked_eq_ok.mp h
      exact .refl _

theorem tells_fail {run : AgentRun} {code message : String} (hw : w ∈ db.workspaces.rows)
    (h : failLocked call later w run code message db = .ok w' db₁) :
    Tells redrafts db { db₁ with workspaces := db₁.workspaces.put w' } := by
  obtain ⟨v, hcontinue, -⟩ := failLocked_eq_ok.mp h
  exact .save (continueRecognition_prepared hcontinue) hw (failLocked_follows h)

theorem tells_failRun {code message : String} {u : Unit}
    (h : failRun call later context code message db = .ok u db') : Tells redrafts db db' := by
  obtain ⟨⟨w, run⟩, db₁, hlock, h⟩ := bind_eq_ok.mp h
  obtain ⟨⟨hw, -⟩, -, -, rfl⟩ := lockRun_eq_ok.mp hlock
  obtain ⟨w', db₂, hfail, h⟩ := bind_eq_ok.mp h
  obtain rfl := save_eq_ok.mp h
  exact tells_fail hw hfail

theorem tells_finalize {result : RunResult} {messageId : Id}
    (h : finalize call later context result db = .ok messageId db') : Tells redrafts db db' := by
  obtain ⟨w, run, db₁, v, db₂, _, hlock, hid, hcontinue, rfl, rfl⟩ := finalize_ok h
  obtain ⟨⟨hw, -⟩, -, -, -⟩ := lockRun_eq_ok.mp hlock
  refine .save ((prepares_generateId hid).trans (continueRecognition_prepared hcontinue)) hw ?_
  have hfollows : ItemsFollow redrafts (fun _ ↦ False) (Fresh db db₂)
      (w.markSucceeded call later run messageId result).items v.items :=
    continueRecognition_follows hcontinue
  exact hfollows

theorem tells_claim {workerId : String} {candidates skipped : List Id} {claimed : Option RunContext}
    (h : claim call later workerId candidates skipped db = .ok claimed db') :
    Tells redrafts db db' := by
  unfold claim at h
  simp only [get_bind_eq_ok] at h
  cases hclaimable : claimable db candidates skipped with
  | none =>
    simp only [hclaimable, pure_eq_ok] at h
    obtain ⟨-, rfl⟩ := h
    exact .refl _
  | some w =>
    simp only [hclaimable] at h
    obtain ⟨hw, -⟩ := mem_claimable hclaimable
    obtain ⟨run, -, h⟩ := orRaise_bind_eq_ok.mp h
    split_ifs at h
    · obtain ⟨w', db₁, hfail, h⟩ := bind_eq_ok.mp h
      obtain ⟨_, db₂, hsave, h⟩ := bind_eq_ok.mp h
      obtain rfl := save_eq_ok.mp hsave
      obtain ⟨-, rfl⟩ := pure_eq_ok.mp h
      exact tells_fail hw hfail
    · obtain ⟨token, db₁, htoken, h⟩ := bind_eq_ok.mp h
      obtain ⟨_, db₂, hsave, h⟩ := bind_eq_ok.mp h
      obtain rfl := save_eq_ok.mp hsave
      obtain ⟨-, rfl⟩ := pure_eq_ok.mp h
      exact .saveSame (prepares_generateId htoken) hw rfl

theorem tells_expireSessions (sessionIds : List Id) :
    ∀ {db db' : AgentDb} {count : ℕ}, db.Sound →
      expireSessions call later sessionIds db = .ok count db' → Tells redrafts db db' := by
  induction sessionIds with
  | nil =>
    intro db db' count _ h
    obtain ⟨-, rfl⟩ := pure_eq_ok.mp h
    exact .refl _
  | cons sessionId sessionIds ih =>
    intro db db' count hsound h
    obtain ⟨first, db₁, hfirst, h⟩ := bind_eq_ok.mp h
    obtain ⟨rest, db₂, hrest, h⟩ := bind_eq_ok.mp h
    obtain ⟨-, rfl⟩ := pure_eq_ok.mp h
    have hprogress := progress_expireSession hsound hfirst
    have hsound₁ := hsound.progress hprogress
    have htells : Tells redrafts db db₁ := by
      rcases expireSession_ok hfirst with rfl |
        ⟨w, run, code, message, w', db₂, ⟨hw, -⟩, -, -, hfail, rfl⟩
      · exact .refl _
      · exact tells_fail hw hfail
    exact htells.trans hprogress.issued (progress_expireSessions sessionIds hsound₁ hrest).issued
      (ih hsound₁ hrest)

/-! ### Items -/

theorem patchDraft_follows {board : Board} {item : OrderIntakeItem} {expected : ℕ}
    {patch : DraftPatch} {source : ProvenanceSource} {runId : Option Id} {fresh : Id → Prop}
    {items : Table OrderIntakeItem}
    (hitems : ItemsFollow True (· = item.id) fresh items w.items)
    (h : patchDraft call board item expected patch source runId w = .ok w') :
    ItemsFollow True (fun _ ↦ False) fresh items w'.items := by
  obtain ⟨-, draft, hmerge, heq⟩ := patchDraft_ok h
  rw [heq]
  exact hitems.pay (patchedItem board draft patch source runId) (fun _ ↦ rfl)
    (fun _ _ _ ↦ Nat.lt_succ_self _)
    fun _ _ _ ↦ Or.inr ⟨trivial, validated_mergePatch hmerge⟩

theorem tells_patchItem {itemId userId : Id} {expected : ℕ} {patch : DraftPatch} {u : Unit}
    (h : patchItem call itemId userId expected patch db = .ok u db') : Tells True db db' := by
  unfold patchItem at h
  obtain ⟨⟨w, item⟩, db₁, hitem, h⟩ := bind_eq_ok.mp h
  obtain ⟨⟨hw, -⟩, -, -, -, rfl⟩ := requireItem_ok hitem
  rw [get_bind_eq_ok] at h
  obtain ⟨w₁, hpatch, h⟩ := checked_bind_eq_ok.mp h
  obtain rfl := save_eq_ok.mp h
  exact .save (.refl _) hw (patchDraft_follows (.refl _) hpatch)

theorem saveExtraction_follows {board : Board} {item : OrderIntakeItem} {order : RecognizedOrder}
    {expected : ℕ} {runId : Id} {fresh : Id → Prop}
    (h : saveExtraction call board item order expected runId w = .ok w') :
    ItemsFollow True (fun _ ↦ False) fresh w.items w'.items := by
  unfold saveExtraction at h
  simp only [except_bind_eq_ok, except_pure_eq_ok] at h
  obtain ⟨_, -, w₁, hpatch, rfl⟩ := h
  have hpatched : ItemsFollow True (fun _ ↦ False) fresh w.items w₁.items :=
    patchDraft_follows (ItemsFollow.owe (fun row : OrderIntakeItem ↦
      { row with recognitionStatus := .succeeded, lastErrorCode := none }) (fun _ ↦ rfl)
      (fun _ ↦ rfl) fun _ ↦ rfl) hpatch
  exact hpatched.trans (ItemsFollow.update (withRecognitionIssues order) (fun _ ↦ rfl)
    fun _ _ _ ↦ .of_cell rfl rfl)

theorem addSiblings_follows {item : OrderIntakeItem} {runId : Id} (orders : List RecognizedOrder) :
    ∀ {index : ℕ} {db db' : AgentDb} {w w' : Workspace},
      addSiblings call item runId orders index w db = .ok w' db' →
        Prepared db db' ∧ ItemsFollow redrafts (fun _ ↦ False) (Fresh db db') w.items w'.items := by
  induction orders with
  | nil =>
    intro index db db' w w' h
    obtain ⟨rfl, rfl⟩ := pure_eq_ok.mp h
    exact ⟨.refl db, .refl _⟩
  | cons order orders ih =>
    intro index db db' w w' h
    unfold addSiblings at h
    obtain ⟨draft, hdraft, h⟩ := orRaise_bind_eq_ok.mp h
    obtain ⟨siblingId, db₁, hsiblingId, h⟩ := bind_eq_ok.mp h
    rw [get_bind_eq_ok] at h
    obtain ⟨w₁, hitem, h⟩ := checked_bind_eq_ok.mp h
    obtain ⟨items, hinsert, rfl⟩ := Workspace.addItem_eq_ok.mp hitem
    obtain ⟨hprepared, hfollows⟩ := ih h
    have hfirst : Prepared db db₁ := prepares_generateId hsiblingId
    refine ⟨hfirst.trans hprepared, ItemsFollow.trans ?_
      (hfollows.mono (fun h ↦ h) (fun _ h ↦ h) fun _ ↦ hfirst.fresh_left)⟩
    exact ItemsFollow.insert _ (hprepared.fresh_right (fresh_generateId hsiblingId)) ⟨_, hdraft⟩
      hinsert

theorem saveScreenshotExtraction_follows {item : OrderIntakeItem} {first : RecognizedOrder}
    {further : List RecognizedOrder} {expected : ℕ} {runId : Id}
    (h : saveScreenshotExtraction call item first further expected runId w db = .ok w' db') :
    Prepared db db' ∧ ItemsFollow True (fun _ ↦ False) (Fresh db db') w.items w'.items := by
  unfold saveScreenshotExtraction at h
  obtain ⟨_, -, h⟩ := checked_bind_eq_ok.mp h
  obtain ⟨-, h⟩ := require_bind_eq_ok.mp h
  obtain ⟨-, h⟩ := require_bind_eq_ok.mp h
  rw [get_bind_eq_ok] at h
  obtain ⟨w₁, hfirst, h⟩ := checked_bind_eq_ok.mp h
  obtain ⟨w₂, db₁, hsiblings, h⟩ := bind_eq_ok.mp h
  obtain ⟨rfl, rfl⟩ := pure_eq_ok.mp h
  obtain ⟨hprepared, hfollows⟩ := addSiblings_follows further hsiblings
  exact ⟨hprepared, (saveExtraction_follows hfirst).trans hfollows⟩

/-! ### Commands on items -/

theorem runForSelected_same {kind : TriggerKind} {commandId : Id} {item : OrderIntakeItem}
    {found : Workspace × Option Id}
    (h : runForSelected call kind commandId item w db = .ok found db') :
    Prepared db db' ∧ found.1.items = w.items := by
  unfold runForSelected at h
  split_ifs at h
  · obtain ⟨rfl, rfl⟩ := pure_eq_ok.mp h
    exact ⟨.refl _, rfl⟩
  · obtain ⟨runId, db₁, hrunId, h⟩ := bind_eq_ok.mp h
    obtain ⟨w₁, hrun, h⟩ := checked_bind_eq_ok.mp h
    obtain ⟨rfl, rfl⟩ := pure_eq_ok.mp h
    have hitems := items_addRun hrun
    exact ⟨prepares_generateId hrunId, hitems⟩

theorem deferCurrent_follows {commandId : Id} {fresh : Id → Prop}
    (h : deferCurrent call commandId w = .ok w') :
    ItemsFollow redrafts (fun _ ↦ False) fresh w.items w'.items := by
  unfold deferCurrent at h
  cases hcurrent : w.session.activeWorkItemId with
  | none =>
    rw [hcurrent] at h
    obtain rfl := Except.ok.inj h
    exact .refl _
  | some previousId =>
    rw [hcurrent] at h
    cases hfind : w.items.find? previousId with
    | none =>
      simp only [hfind] at h
      cases h
    | some previous =>
      simp only [hfind] at h
      obtain rfl := Except.ok.inj h
      exact release_follows previous.id .deferred

/-- A command changes its item, and owes that to its revision. -/
theorem itemEffect_owes {kind : CommandKind} {commandId : Id} {payload : ActionPayload}
    {item : OrderIntakeItem} {effect : ItemEffect} {fresh : Id → Prop}
    (h : itemEffect call kind commandId payload item w db = .ok effect db') :
    Prepared db db' ∧
      ItemsFollow redrafts (· = item.id) fresh w.items effect.workspace.items := by
  cases kind with
  | confirmOrder =>
    obtain ⟨-, h⟩ := require_bind_eq_ok.mp h
    rw [get_bind_eq_ok] at h
    obtain ⟨-, h⟩ := require_bind_eq_ok.mp h
    obtain ⟨order, db₁, hcreate, h⟩ := bind_eq_ok.mp h
    obtain ⟨rfl, rfl⟩ := pure_eq_ok.mp h
    refine ⟨prepares_onBoard hcreate fun board hboard ↦ ?_, ?_⟩
    · obtain ⟨-, hplans, id, hissued⟩ := createFromWorkspaceDraft_ok hboard
      rw [hissued]
      exact ⟨List.subset_cons_self _ _, fun hnone ↦ absurd trivial hnone, fun _ ↦ hplans⟩
    · exact (setItemStatus_owes item.id .created).trans
        (ItemsFollow.update (fun row : OrderIntakeItem ↦ { row with orderId := some order.id })
          (fun _ ↦ rfl) fun _ _ _ ↦ .of_cell rfl rfl)
  | deferItem =>
    obtain ⟨-, h⟩ := require_bind_eq_ok.mp h
    obtain ⟨rfl, rfl⟩ := pure_eq_ok.mp h
    exact ⟨.refl _, setItemStatus_owes item.id .deferred⟩
  | closeItem =>
    obtain ⟨-, h⟩ := require_bind_eq_ok.mp h
    obtain ⟨rfl, rfl⟩ := pure_eq_ok.mp h
    refine ⟨.refl _, ?_⟩
    change ItemsFollow _ _ _ _ (if w.session.activeWorkItemId = some item.id then
      w.release item.id .closed else w.setItemStatus item.id .closed).items
    split_ifs
    · exact setItemStatus_owes item.id .closed
    · exact setItemStatus_owes item.id .closed
  | recognizeItem =>
    obtain ⟨-, h⟩ := require_bind_eq_ok.mp h
    obtain ⟨runId, db₁, hrunId, h⟩ := bind_eq_ok.mp h
    obtain ⟨w₁, hrun, h⟩ := checked_bind_eq_ok.mp h
    obtain ⟨rfl, rfl⟩ := pure_eq_ok.mp h
    have hitems := items_addRun hrun
    refine ⟨prepares_generateId hrunId, ?_⟩
    change ItemsFollow _ _ _ _ w₁.items
    rw [hitems]
    exact .refl _
  | selectItem =>
    obtain ⟨expected, -, h⟩ := orRaise_bind_eq_ok.mp h
    obtain ⟨_, db₁, hrevision, h⟩ := bind_eq_ok.mp h
    obtain ⟨-, rfl⟩ := require_eq_ok.mp hrevision
    obtain ⟨-, h⟩ := require_bind_eq_ok.mp h
    obtain ⟨w₁, hdefer, h⟩ := checked_bind_eq_ok.mp h
    obtain ⟨found, db₂, hrun, h⟩ := bind_eq_ok.mp h
    obtain ⟨rfl, rfl⟩ := pure_eq_ok.mp h
    obtain ⟨hprepared, hitems⟩ := runForSelected_same hrun
    refine ⟨hprepared, ?_⟩
    change ItemsFollow _ _ _ _ found.1.items
    rw [hitems]
    exact (deferCurrent_follows hdefer).settled.trans (setItemStatus_owes item.id .active)
  | _ => cases h

theorem confirm_same {commandId itemId : Id} {advance : Bool} {order : Option OrderRef}
    (h : confirm call commandId itemId advance order w db = .ok w' db') :
    Prepared db db' ∧ w'.items = w.items := by
  unfold confirm at h
  cases order with
  | none =>
    obtain ⟨rfl, rfl⟩ := pure_eq_ok.mp h
    exact ⟨.refl _, rfl⟩
  | some order =>
    obtain ⟨messageId, db₁, hmessageId, h⟩ := bind_eq_ok.mp h
    obtain ⟨rfl, rfl⟩ := pure_eq_ok.mp h
    exact ⟨prepares_generateId hmessageId, rfl⟩

/-- What the write of an item has done to its session: the item had the expected revision, and has a
greater one and the draft that was written. -/
structure WritesItem (redrafts : Prop) (merges : OrderDraft → Prop) (fresh : Id → Prop)
    (expected : ℕ) (item : OrderIntakeItem) (w w' : Workspace) : Prop where
  read : item.revision = expected
  follows : ItemsFollow redrafts (fun _ ↦ False) fresh w.items w'.items
  told : ∀ later ∈ w'.items.rows, later.id = item.id → expected < later.revision
  merged : ∀ later ∈ w'.items.rows, later.id = item.id → merges later.draft

theorem WritesItem.trans {merges : OrderDraft → Prop} {fresh : Id → Prop} {expected : ℕ}
    {item : OrderIntakeItem} {w'' : Workspace}
    (h : WritesItem redrafts merges fresh expected item w w')
    (h' : ItemsFollow False (fun _ ↦ False) fresh w'.items w''.items) (hid : ¬ fresh item.id) :
    WritesItem redrafts merges fresh expected item w w'' where
  read := h.read
  follows := h.follows.trans (h'.mono False.elim (fun _ h ↦ h) fun _ h ↦ h)
  told := h'.lt_revision hid h.told
  merged last hlast hlastId := by
    obtain ⟨later, hlater, hlaterId, hdraft⟩ := h'.draft_eq hid hlast hlastId
    rw [hdraft]
    exact h.merged later hlater hlaterId

/-- What a command that is carried out does to the items: it was given for the revision that its
item had, and counts it up. -/
theorem changeItem_writes {kind : CommandKind} {commandId : Id} {payload : ActionPayload}
    {item : OrderIntakeItem} {effect : ItemEffect} {fresh : Id → Prop} (hfresh : ¬ fresh item.id)
    (hitem : item ∈ w.items.rows)
    (h : changeItem call kind commandId payload item w db = .ok effect db') :
    Prepared db db' ∧
      WritesItem redrafts (· = item.draft) fresh payload.expectedRevision item w
        effect.workspace := by
  unfold changeItem at h
  obtain ⟨_, hrevision, h⟩ := checked_bind_eq_ok.mp h
  have hrevision : item.revision = payload.expectedRevision := ensure_eq_ok.mp hrevision
  obtain ⟨-, h⟩ := require_bind_eq_ok.mp h
  obtain ⟨first, db₁, heffect, h⟩ := bind_eq_ok.mp h
  obtain ⟨hprepared, howes⟩ := itemEffect_owes heffect
  have hrevised : WritesItem redrafts (· = item.draft) fresh payload.expectedRevision item w
      (first.workspace.reviseItem item.id) := by
    have hfollows : ItemsFollow False (fun _ ↦ False) fresh w.items
        (first.workspace.reviseItem item.id).items := reviseItem_follows howes
    refine ⟨hrevision, hfollows.mono False.elim (fun _ h ↦ h) fun _ h ↦ h, ?_, ?_⟩
    · rw [← hrevision]
      exact howes.lt_revision_update hfresh
        (fun item ↦ { item with revision := item.revision + 1 }) (fun _ ↦ rfl)
        (fun _ ↦ Nat.lt_succ_self _) hitem rfl
    · intro later hlater hid
      obtain ⟨old, hold, holdId, hdraft⟩ := hfollows.draft_eq hfresh hlater hid
      rw [hdraft, w.items.eq_of_key_eq hold hitem holdId]
  have hrest : ∀ {w₂ : Workspace},
      WritesItem redrafts (· = item.draft) fresh payload.expectedRevision item w w₂ →
      ∀ {db₃ : AgentDb} {w₃ : Workspace},
        confirm call commandId item.id payload.advance first.order (w₂.revise.announce call) db₁ =
          .ok w₃ db₃ →
        Prepared db db₃ ∧
          WritesItem redrafts (· = item.draft) fresh payload.expectedRevision item w w₃ := by
    intro w₂ hwrites db₃ w₃ hconfirm
    obtain ⟨hprepared', hitems⟩ := confirm_same hconfirm
    refine ⟨hprepared.trans hprepared', hwrites.trans ?_ hfresh⟩
    rw [hitems]
    exact .refl _
  split_ifs at h
  · obtain ⟨w₂, hadvance, h⟩ := checked_bind_eq_ok.mp h
    obtain ⟨w₃, db₃, hconfirm, h⟩ := bind_eq_ok.mp h
    obtain ⟨rfl, rfl⟩ := pure_eq_ok.mp h
    exact hrest (hrevised.trans (advanceReview_follows hadvance) hfresh) hconfirm
  · obtain ⟨w₂, db₂, hsame, h⟩ := bind_eq_ok.mp h
    obtain ⟨rfl, rfl⟩ := pure_eq_ok.mp hsame
    obtain ⟨w₃, db₃, hconfirm, h⟩ := bind_eq_ok.mp h
    obtain ⟨rfl, rfl⟩ := pure_eq_ok.mp h
    exact hrest hrevised hconfirm

theorem prepared_recordItemCommand {commandId userId : Id} {key : String} {kind : CommandKind}
    {payload : ActionPayload} {itemId : Id} {itemRevision : ℕ} {existing : Bool}
    {effect : ItemEffect} {result : CommandResult}
    (h : recordItemCommand commandId userId key kind payload itemId itemRevision existing
      effect db = .ok result db') : Prepared db db' := by
  unfold recordItemCommand at h
  obtain ⟨_, db₁, hcommand, h⟩ := bind_eq_ok.mp h
  obtain ⟨-, rfl⟩ := pure_eq_ok.mp h
  exact prepares_addCommand hcommand trivial

/-- The result says that an order existed already. -/
def CommandResult.ReturnsExisting : CommandResult → Prop
  | .itemChanged _ _ _ _ existing _ _ _ _ => existing
  | _ => False

/-- What a command on an item does that is not a repeated one: it returns the order that exists, or
writes the item. -/
theorem itemCommand_ok (hsound : db.Sound) {itemId userId : Id} {key : String} {kind : CommandKind}
    {payload : ActionPayload} {result : CommandResult}
    (hfree : db.commands.find? (userId, key) = none)
    (h : itemCommand call itemId userId key kind payload db = .ok result db') :
    ∃ w item db₁, (w ∈ db.workspaces.rows ∧ item ∈ w.items.rows ∧ item.id = itemId) ∧
      ((result.ReturnsExisting ∧ Prepared db db') ∨
        ∃ w', ¬ result.ReturnsExisting ∧ Prepared db db₁ ∧
          Prepared { db₁ with workspaces := db₁.workspaces.put w' } db' ∧
          WritesItem False (· = item.draft) (Fresh db db₁) payload.expectedRevision item w w') := by
  unfold itemCommand at h
  rcases replaying_ok h with ⟨row, hrow, -⟩ | ⟨-, hbody⟩
  · rw [hfree] at hrow
    cases hrow
  · clear h
    obtain ⟨⟨w, item⟩, db₁, hfound, hrest⟩ := bind_eq_ok.mp hbody
    clear hbody
    obtain ⟨⟨hw, -⟩, hitem, hid, -, rfl⟩ := requireItem_ok hfound
    obtain ⟨_, db₂, hcheck, h⟩ := bind_eq_ok.mp hrest
    obtain ⟨-, rfl⟩ := requireIdle_eq_ok.mp hcheck
    obtain ⟨commandId, db₃, hcommandId, h⟩ := bind_eq_ok.mp h
    have hprepared : Prepared db db₃ := prepares_generateId hcommandId
    by_cases hexisting : kind = .confirmOrder ∧ item.status = .created
    · rw [if_pos hexisting, get_bind_eq_ok] at h
      obtain ⟨order, -, h⟩ := orRaise_bind_eq_ok.mp h
      refine ⟨w, item, db₃, ⟨hw, hitem, hid⟩, Or.inl ⟨?_, ?_⟩⟩
      · obtain ⟨_, db₄, -, h⟩ := bind_eq_ok.mp h
        obtain ⟨rfl, -⟩ := pure_eq_ok.mp h
        rfl
      · exact hprepared.trans (prepared_recordItemCommand h)
    · rw [if_neg hexisting] at h
      obtain ⟨effect, db₄, hchange, h⟩ := bind_eq_ok.mp h
      obtain ⟨_, db₅, hsave, h⟩ := bind_eq_ok.mp h
      obtain rfl := save_eq_ok.mp hsave
      have hold : ¬ Fresh db db₄ item.id := fun hfresh ↦
        hfresh.1 (hsound.issued w hw item.id
          (Or.inr (Or.inl ((Table.mem_keys _).mpr ⟨item, hitem, rfl⟩))))
      obtain ⟨hprepared', hwrites⟩ := changeItem_writes hold hitem hchange
      refine ⟨w, item, db₄, ⟨hw, hitem, hid⟩, Or.inr ⟨effect.workspace, ?_, ?_, ?_, hwrites⟩⟩
      · obtain ⟨_, db₆, -, h⟩ := bind_eq_ok.mp h
        obtain ⟨rfl, -⟩ := pure_eq_ok.mp h
        exact Bool.false_ne_true
      · exact hprepared.trans hprepared'
      · exact prepared_recordItemCommand h

theorem tells_itemCommand (hsound : db.Sound) {itemId userId : Id} {key : String}
    {kind : CommandKind} {payload : ActionPayload} {result : CommandResult}
    (h : itemCommand call itemId userId key kind payload db = .ok result db') :
    Tells redrafts db db' := by
  have hreplay := h
  unfold itemCommand at hreplay
  rcases replaying_ok hreplay with ⟨row, -, -, -, rfl⟩ | ⟨hfree, -⟩
  · exact .refl _
  · obtain ⟨w, item, db₁, ⟨hw, -⟩, ⟨-, hprepared⟩ | ⟨w', -, hprepared, hlast, hwrites⟩⟩ :=
      itemCommand_ok hsound hfree h
    · exact .of_prepared hprepared
    · exact Tells.prepare (.save hprepared hw
        (hwrites.follows.mono False.elim (fun _ h ↦ h) fun _ h ↦ h)) hlast

theorem tells_nextItem {sessionId userId : Id} {key : String} {expected : ℕ} {nextId : Id}
    {result : CommandResult}
    (h : nextItem call sessionId userId key expected nextId db = .ok result db') :
    Tells redrafts db db' := by
  unfold nextItem at h
  refine Tells.replaying h fun h ↦ ?_
  obtain ⟨w, db₁, hfound, h⟩ := bind_eq_ok.mp h
  obtain ⟨⟨hw, -⟩, -, -, -, rfl⟩ := requireSession_eq_ok.mp hfound
  obtain ⟨-, h⟩ := require_bind_eq_ok.mp h
  obtain ⟨_, db₂, hcheck, h⟩ := bind_eq_ok.mp h
  obtain ⟨-, rfl⟩ := requireIdle_eq_ok.mp hcheck
  obtain ⟨_, db₃, hrevision, h⟩ := bind_eq_ok.mp h
  obtain ⟨-, rfl⟩ := require_eq_ok.mp hrevision
  obtain ⟨-, h⟩ := require_bind_eq_ok.mp h
  obtain ⟨item, -, h⟩ := orRaise_bind_eq_ok.mp h
  obtain ⟨commandId, db₄, hcommandId, h⟩ := bind_eq_ok.mp h
  obtain ⟨⟨w₁, runId⟩, db₅, hrun, h⟩ := bind_eq_ok.mp h
  obtain ⟨_, db₆, hsave, h⟩ := bind_eq_ok.mp h
  obtain rfl := save_eq_ok.mp hsave
  obtain ⟨_, db₇, hcommand, h⟩ := bind_eq_ok.mp h
  obtain ⟨-, rfl⟩ := pure_eq_ok.mp h
  obtain ⟨hprepared, hitems⟩ := runForSelected_same hrun
  refine Tells.prepare ?_ (prepares_addCommand hcommand trivial)
  refine .save ((prepares_generateId hcommandId).trans hprepared) hw ?_
  dsimp only at hitems
  rw [hitems]
  exact activate_follows item.id

/-! ### Writes of drafts -/

theorem not_fresh_item (hsound : db.Sound) (hw : w ∈ db.workspaces.rows) {item : OrderIntakeItem}
    (hitem : item ∈ w.items.rows) : ¬ Fresh db db' item.id := fun hfresh ↦
  hfresh.1 (hsound.issued w hw item.id
    (Or.inr (Or.inl ((Table.mem_keys _).mpr ⟨item, hitem, rfl⟩))))

/-- A patch that is accepted was given for the revision of its item, and is merged into its
draft. -/
theorem patchDraft_writes {board : Board} {item : OrderIntakeItem} {expected : ℕ}
    {patch : DraftPatch} {source : ProvenanceSource} {runId : Option Id} {fresh : Id → Prop}
    {old : OrderIntakeItem} {v : Workspace} (hfresh : ¬ fresh item.id) (hold : old ∈ v.items.rows)
    (hid : old.id = item.id) (hrevision : old.revision = item.revision)
    (hitems : ItemsFollow True (· = item.id) fresh v.items w.items)
    (h : patchDraft call board item expected patch source runId w = .ok w') :
    WritesItem True (fun draft ↦ mergePatch item.draft patch = .ok draft)
      fresh expected old v w' := by
  obtain ⟨hread, draft, hmerge, heq⟩ := patchDraft_ok h
  refine ⟨hrevision.trans hread, patchDraft_follows hitems h, ?_, ?_⟩
  · rw [heq, hid, ← hread, ← hrevision]
    exact hitems.lt_revision_update hfresh (patchedItem board draft patch source runId)
      (fun _ ↦ rfl) (fun _ ↦ Nat.lt_succ_self _) hold hid
  · intro later hlater hlaterId
    rw [heq] at hlater
    obtain ⟨row, -, rfl⟩ := List.mem_map.mp hlater
    by_cases hkey : Keyed.key row = item.id
    · rw [if_pos hkey]
      exact hmerge
    · rw [if_neg hkey] at hlaterId
      exact absurd (hlaterId.trans hid) hkey

theorem patchItem_ok (hsound : db.Sound) {itemId userId : Id} {expected : ℕ} {patch : DraftPatch}
    {u : Unit} (h : patchItem call itemId userId expected patch db = .ok u db') :
    ∃ w item w', (w ∈ db.workspaces.rows ∧ item ∈ w.items.rows ∧ item.id = itemId) ∧
      db' = { db with workspaces := db.workspaces.put w' } ∧
      WritesItem True (fun draft ↦ mergePatch item.draft patch = .ok draft) (Fresh db db) expected
        item w w' := by
  unfold patchItem at h
  obtain ⟨⟨w, item⟩, db₁, hfound, h⟩ := bind_eq_ok.mp h
  obtain ⟨⟨hw, -⟩, hitem, hid, -, rfl⟩ := requireItem_ok hfound
  rw [get_bind_eq_ok] at h
  obtain ⟨w₁, hpatch, h⟩ := checked_bind_eq_ok.mp h
  obtain rfl := save_eq_ok.mp h
  exact ⟨w, item, w₁, ⟨hw, hitem, hid⟩, rfl,
    patchDraft_writes (not_fresh_item hsound hw hitem) hitem rfl rfl (.refl _) hpatch⟩

/-- What was recognised is merged into the draft that had the expected revision. -/
theorem saveScreenshotExtraction_writes {item : OrderIntakeItem} {first : RecognizedOrder}
    {further : List RecognizedOrder} {expected : ℕ} {runId : Id} (hfresh : ¬ Fresh db db' item.id)
    (hitem : item ∈ w.items.rows)
    (h : saveScreenshotExtraction call item first further expected runId w db = .ok w' db') :
    Prepared db db' ∧ WritesItem True
      (fun draft ↦ mergePatch item.draft (extractionPatch item first.proposed) = .ok draft)
      (Fresh db db') expected item w w' := by
  unfold saveScreenshotExtraction at h
  obtain ⟨_, -, h⟩ := checked_bind_eq_ok.mp h
  obtain ⟨-, h⟩ := require_bind_eq_ok.mp h
  obtain ⟨-, h⟩ := require_bind_eq_ok.mp h
  rw [get_bind_eq_ok] at h
  obtain ⟨w₁, hfirst, h⟩ := checked_bind_eq_ok.mp h
  obtain ⟨w₂, db₁, hsiblings, h⟩ := bind_eq_ok.mp h
  obtain ⟨rfl, rfl⟩ := pure_eq_ok.mp h
  obtain ⟨hprepared, hfollows⟩ := addSiblings_follows further hsiblings
  refine ⟨hprepared, WritesItem.trans ?_ hfollows hfresh⟩
  unfold saveExtraction at hfirst
  simp only [except_bind_eq_ok, except_pure_eq_ok] at hfirst
  obtain ⟨_, -, w₃, hpatch, rfl⟩ := hfirst
  have hrecognised : ItemsFollow True (· = item.id) (Fresh db db₁) w.items
      (w.setItem item.id (fun row ↦
        { row with recognitionStatus := .succeeded, lastErrorCode := none })).items :=
    ItemsFollow.owe (fun row : OrderIntakeItem ↦
      { row with recognitionStatus := .succeeded, lastErrorCode := none }) (fun _ ↦ rfl)
      (fun _ ↦ rfl) fun _ ↦ rfl
  exact WritesItem.trans (patchDraft_writes hfresh hitem rfl rfl hrecognised hpatch)
    (ItemsFollow.update (withRecognitionIssues first) (fun _ ↦ rfl) fun _ _ _ ↦ .of_cell rfl rfl)
    hfresh

/-! ### Tool calls -/

theorem contextItem_ok {item : OrderIntakeItem} (h : contextItem context w = .ok item) :
    item ∈ w.items.rows ∧ context.workItemId = some item.id := by
  unfold contextItem at h
  cases hfind : context.workItemId.bind w.items.find? with
  | none =>
    rw [hfind] at h
    cases h
  | some found =>
    rw [hfind] at h
    obtain rfl := Except.ok.inj h
    obtain ⟨itemId, hid, hfound⟩ := Option.bind_eq_some_iff.mp hfind
    obtain ⟨hmem, rfl⟩ := (Table.find?_eq_some_iff _).mp hfound
    exact ⟨hmem, hid⟩

theorem generate_same {run : AgentRun} {result : ToolResult}
    (h : generate call run w db = .ok (w', result) db') :
    Prepared db db' ∧ w'.items = w.items := by
  refine ⟨(generate_makes trivial h).prepares, ?_⟩
  have hanew : ∀ {previous : Option SchedulePlan},
      generateAnew call run previous w db = .ok (w', result) db' → w'.items = w.items := by
    intro previous h
    unfold generateAnew at h
    rw [get_bind_eq_ok] at h
    split_ifs at h
    · obtain ⟨heq, -⟩ := pure_eq_ok.mp h
      obtain ⟨rfl, -⟩ := Prod.mk.inj heq
      rfl
    · obtain ⟨plan, db₁, -, h⟩ := bind_eq_ok.mp h
      obtain ⟨w₁, db₂, haside, h⟩ := bind_eq_ok.mp h
      obtain ⟨tasks, db₃, -, h⟩ := bind_eq_ok.mp h
      obtain ⟨_, db₄, -, h⟩ := bind_eq_ok.mp h
      obtain ⟨heq, -⟩ := pure_eq_ok.mp h
      obtain ⟨rfl, -⟩ := Prod.mk.inj heq
      change w₁.items = w.items
      unfold supersede at haside
      cases previous with
      | none =>
        obtain ⟨rfl, -⟩ := pure_eq_ok.mp haside
        rfl
      | some previous =>
        obtain ⟨_, db₅, -, haside⟩ := bind_eq_ok.mp haside
        obtain ⟨rfl, -⟩ := pure_eq_ok.mp haside
        rfl
  unfold generate at h
  rw [get_bind_eq_ok] at h
  cases hgenerated : run.generatedPlanId with
  | some planId =>
    simp only [hgenerated, orRaise_bind_eq_ok, pure_eq_ok, Prod.mk.injEq] at h
    obtain ⟨plan, -, ⟨rfl, -⟩, -⟩ := h
    rfl
  | none =>
    simp only [hgenerated] at h
    cases hprevious : w.session.activePlanId.bind db.board.plans.find? with
    | none =>
      simp only [hprevious] at h
      exact hanew h
    | some previous =>
      simp only [hprevious] at h
      obtain ⟨answer, -, h⟩ := checked_bind_eq_ok.mp h
      cases answer with
      | some answer =>
        obtain ⟨heq, -⟩ := pure_eq_ok.mp h
        obtain ⟨rfl, -⟩ := Prod.mk.inj heq
        rfl
      | none => exact hanew h

theorem perform_follows {run : AgentRun} {operation : ToolOperation} {result : ToolResult}
    (h : operation.perform call context run w db = .ok (w', result) db') :
    Prepared db db' ∧ ItemsFollow True (fun _ ↦ False) (Fresh db db') w.items w'.items := by
  cases operation with
  | read answer =>
    obtain ⟨heq, rfl⟩ := pure_eq_ok.mp h
    obtain ⟨rfl, -⟩ := Prod.mk.inj heq
    exact ⟨.refl _, .refl _⟩
  | patchDraft expected patch =>
    obtain ⟨item, -, h⟩ := checked_bind_eq_ok.mp h
    rw [get_bind_eq_ok] at h
    obtain ⟨w₁, hpatch, h⟩ := checked_bind_eq_ok.mp h
    obtain ⟨item', -, h⟩ := checked_bind_eq_ok.mp h
    obtain ⟨heq, rfl⟩ := pure_eq_ok.mp h
    obtain ⟨rfl, -⟩ := Prod.mk.inj heq
    exact ⟨.refl _, patchDraft_follows (.refl _) hpatch⟩
  | extractOrder first further expected =>
    obtain ⟨item, -, h⟩ := checked_bind_eq_ok.mp h
    obtain ⟨w₁, db₁, hextract, h⟩ := bind_eq_ok.mp h
    obtain ⟨item', -, h⟩ := checked_bind_eq_ok.mp h
    obtain ⟨heq, rfl⟩ := pure_eq_ok.mp h
    obtain ⟨rfl, -⟩ := Prod.mk.inj heq
    exact saveScreenshotExtraction_follows hextract
  | generate =>
    obtain ⟨hprepared, hitems⟩ := generate_same h
    refine ⟨hprepared, ?_⟩
    rw [hitems]
    exact .refl _

theorem tells_runTool {callId : Id} {request : ToolRequest} {operation : ToolOperation}
    {result : ToolResult}
    (h : runTool call later context callId request operation db = .ok result db') :
    Tells True db db' := by
  obtain ⟨w, run, w₁, w', db₁, ⟨hw, -⟩, -, -, -, -, hperform, -, rfl, rfl⟩ := runTool_ok h
  obtain ⟨hprepared, hfollows⟩ := perform_follows hperform
  exact .save hprepared hw hfollows

theorem tells_startTool {request : ToolRequest} {start : ToolStart}
    (h : startTool call context request db = .ok start db') : Tells redrafts db db' := by
  unfold startTool at h
  obtain ⟨-, h⟩ := require_bind_eq_ok.mp h
  obtain ⟨⟨w, run⟩, db₁, hlock, h⟩ := bind_eq_ok.mp h
  obtain ⟨⟨hw, -⟩, -, -, rfl⟩ := lockRun_eq_ok.mp hlock
  cases hfind : w.toolCalls.rows.find?
      (fun row ↦ row.runId = run.id ∧ row.callKey = request.callKey) with
  | some existing =>
    simp only [hfind] at h
    obtain ⟨-, h⟩ := require_bind_eq_ok.mp h
    obtain ⟨-, h⟩ := require_bind_eq_ok.mp h
    obtain ⟨-, rfl⟩ := pure_eq_ok.mp h
    exact .refl _
  | none =>
    simp only [hfind] at h
    obtain ⟨-, h⟩ := require_bind_eq_ok.mp h
    obtain ⟨callId, db₂, hcallId, h⟩ := bind_eq_ok.mp h
    obtain ⟨w₁, hadd, h⟩ := checked_bind_eq_ok.mp h
    obtain ⟨_, db₃, hsave, h⟩ := bind_eq_ok.mp h
    obtain rfl := save_eq_ok.mp hsave
    obtain ⟨-, rfl⟩ := pure_eq_ok.mp h
    refine .saveSame (prepares_generateId hcallId) hw ?_
    unfold Workspace.addToolCall at hadd
    split at hadd
    · obtain rfl := Except.ok.inj hadd
      rfl
    · cases hadd

theorem tells_failTool {callId : Id} {request : ToolRequest} {u : Unit}
    (h : failTool call context callId request db = .ok u db') : Tells redrafts db db' := by
  obtain ⟨w, run, w', ⟨hw, -⟩, -, -, rfl, rfl⟩ := failTool_ok h
  exact .saveSame (.refl _) hw rfl

theorem tells_boardWork (work : BoardWork) : Tells redrafts db (work.apply db) := by
  rintro item ⟨w', hw', hitem⟩
  obtain ⟨w, hw, rfl⟩ := List.mem_map.mp hw'
  obtain ⟨old, hold, rfl⟩ := List.mem_map.mp hitem
  exact Or.inr ⟨old, ⟨w, hw, hold⟩, .of_cell rfl rfl⟩

/-! ### Steps and runs -/

theorem tells_commit {α : Type} {body : Txn Failure AgentDb α}
    (h : ∀ a db', body db = .ok a db' → Tells True db db') : Tells True db (commit body db) := by
  rcases commit_cases body db with heq | ⟨a, db', hok, heq⟩
  · rw [heq]
    exact .refl db
  · rw [heq]
    exact h a db' hok

/-- Every call tells what it changes in an item by the revision. -/
theorem tells_step (hsound : db.Sound) (input : AgentInput) : Tells True db (step db input) := by
  obtain ⟨call, later, op⟩ := input
  cases op with
  | createSession => exact tells_commit fun _ _ ↦ tells_createSession
  | enterWorkspace => exact tells_commit fun _ _ ↦ tells_enterWorkspace
  | acceptMessage => exact tells_commit fun _ _ ↦ tells_acceptMessage
  | retryRun => exact tells_commit fun _ _ ↦ tells_retryRun
  | changeStatus => exact tells_commit fun _ _ ↦ tells_changeStatus
  | patchItem => exact tells_commit fun _ _ ↦ tells_patchItem
  | itemCommand => exact tells_commit fun _ _ ↦ tells_itemCommand hsound
  | nextItem => exact tells_commit fun _ _ ↦ tells_nextItem
  | upload => exact tells_commit fun _ _ ↦ tells_upload
  | archiveScreenshot => exact tells_commit fun _ _ ↦ tells_archiveScreenshot
  | deleteScreenshot => exact tells_commit fun _ _ ↦ tells_deleteScreenshot
  | patchPlan => exact tells_commit fun _ _ ↦ tells_patchPlan
  | planCommand => exact tells_commit fun _ _ ↦ tells_planCommand hsound
  | claim => exact tells_commit fun _ _ ↦ tells_claim
  | heartbeat => exact tells_commit fun _ _ ↦ tells_heartbeat
  | failRun => exact tells_commit fun _ _ ↦ tells_failRun
  | finalize => exact tells_commit fun _ _ ↦ tells_finalize
  | appendDelta => exact tells_commit fun _ _ ↦ tells_appendDelta
  | expireRuns =>
    refine tells_commit fun _ _ h ↦ ?_
    unfold expireRuns at h
    rw [get_bind_eq_ok] at h
    exact tells_expireSessions _ hsound h
  | countModel => exact tells_commit fun _ _ ↦ tells_countModel
  | reportProgress => exact tells_commit fun _ _ ↦ tells_reportProgress
  | decideAdmittance => exact tells_commit fun _ _ ↦ tells_decideAdmittance
  | recognitionFailed => exact tells_commit fun _ _ ↦ tells_recognitionFailed
  | startTool => exact tells_commit fun _ _ ↦ tells_startTool
  | runTool => exact tells_commit fun _ _ ↦ tells_runTool
  | failTool => exact tells_commit fun _ _ ↦ tells_failTool
  | sweepStaged =>
    refine tells_commit fun _ _ h ↦ ?_
    unfold sweepStaged at h
    rw [get_bind_eq_ok] at h
    exact tells_sweepSessions _ hsound h
  | finishDeletions skipped => exact tells_finishDeletions skipped
  | collectOnce skipped unlinked => exact tells_collectOnce skipped unlinked
  | board work => exact tells_boardWork work

/-- Every run tells what it changes in an item by the revision. -/
theorem tells_run (hsound : db.Sound) (inputs : List AgentInput) :
    Tells True db (System.run step db inputs) := by
  have hrelated := @System.related_run _ _ step AgentDb.Sound
    (fun db db' ↦ db.board.issued ⊆ db'.board.issued ∧ Tells True db db')
      (fun _ ↦ ⟨List.Subset.refl _, .refl _⟩)
    (fun _ _ _ h h' ↦ ⟨List.Subset.trans h.1 h'.1, h.2.trans h.1 h'.1 h'.2⟩)
    (fun _ input h ↦ h.step input)
    (fun _ input h ↦ ⟨(progress_step h input).issued, tells_step h input⟩) inputs db hsound
  exact hrelated.2

end FilmOS.Agent
