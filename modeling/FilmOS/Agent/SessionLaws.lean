import FilmOS.Agent.Sessions
import FilmOS.Agent.WorkerLaws

/-!
# Sessions make progress

Creating a session, accepting a message, retrying a run, changing the status of a session, and the
end of a deletion. An accepted message is one letter with one reply, whatever else its transaction
does (`enterMessage_evolves`); the deletion of a session ends its open run.
-/

set_option autoImplicit false
set_option relaxedAutoImplicit false

namespace FilmOS.Agent

open Transaction AgentDb

variable {call : Call} {db db' : AgentDb} {permit : Permit} {fresh : Id → Prop}
  {w w' : Workspace} {command : AgentCommand → Prop}

/-! ### Creation -/

/-- What a command may do that only enters itself. -/
def Permit.enter (userId : Id) (key : String) (request : CommandRequest) : Permit where
  command := Commanded userId key request

theorem isNew_newSession (call : Call) (id userId : Id) (body : CreateSession) :
    Workspace.IsNew (newSession call id userId body) :=
  ⟨rfl, rfl, rfl, rfl, rfl⟩

/-- A session without runs, items, messages and tool calls is added. -/
theorem progress_insert (hsound : db.Sound) {db₁ : AgentDb} {session : ChatSession}
    {workspaces : Table Workspace} (hprepares : Prepares permit.command permit db db₁)
    (hfresh : Fresh db db₁ session.id) (hnew : Workspace.IsNew session)
    (hevolves : (Workspace.blank session).Evolves permit (Fresh db db₁) w)
    (hblank : ∀ id, ¬ w.Uses id) (hinsert : db₁.workspaces.insert? w = some workspaces) :
    Progress permit db { db₁ with workspaces } := by
  have hrows : workspaces.rows = db.workspaces.rows ++ [w] := by
    rw [((Table.insert?_eq_some_iff _ _ _).mp hinsert).2, hprepares.workspaces]
  have hmem : ∀ w' ∈ workspaces.rows, w' ∈ db.workspaces.rows ∨ w' = w := by
    intro w' hw'
    rw [hrows] at hw'
    exact (List.mem_append.mp hw').imp_right List.mem_singleton.mp
  constructor
  · exact hprepares.issued
  · intro w' hw'
    rcases hmem w' hw' with hold | rfl
    · exact Or.inl ⟨w', hold, .refl _⟩
    · exact Or.inr ⟨session, hfresh, hnew, hevolves⟩
  · intro w₁ hw₁ w₂ hw₂ id hid huses₁ huses₂
    rcases hmem w₁ hw₁ with hold | rfl
    · exact absurd (hsound.issued w₁ hold id huses₁) hid.1
    · exact absurd huses₁ (hblank id)
  · exact fun c hc ↦ (hprepares.commands c hc).imp_right Or.inl
  · exact fun c hc _ _ ↦ hprepares.kept c hc
  · exact hprepares.orders
  · exact fun hnone sessionId _ _ ↦ hprepares.plansOf hnone sessionId
  · exact hprepares.plans_subset
  · exact hprepares.jobs
  · intro _ sessionId hmem
    obtain ⟨v, hv, rfl⟩ := (Table.mem_keys _).mp hmem
    refine (Table.mem_keys _).mpr ⟨v, ?_, rfl⟩
    change v ∈ workspaces.rows
    rw [hrows]
    exact List.mem_append_left _ hv

theorem progress_createSession (hsound : db.Sound) {userId : Id} {key : String}
    {body : CreateSession} {result : CommandResult}
    (h : createSession call userId key body db = .ok result db') :
    Progress (.enter userId key (.createSession body.agentType body.title)) db db' := by
  unfold createSession at h
  refine progress_replaying h fun h ↦ ?_
  obtain ⟨sessionId, db₁, hsessionId, h⟩ := bind_eq_ok.mp h
  obtain ⟨commandId, db₂, hcommandId, h⟩ := bind_eq_ok.mp h
  rw [get_bind_eq_ok] at h
  obtain ⟨workspaces, hinsert, h⟩ := orRaise_bind_eq_ok.mp h
  rw [set_bind_eq_ok] at h
  obtain ⟨_, db₃, hcommand, h⟩ := bind_eq_ok.mp h
  obtain ⟨-, rfl⟩ := pure_eq_ok.mp h
  have hfirst : Prepares (Commanded userId key (.createSession body.agentType body.title))
      (.enter userId key (.createSession body.agentType body.title)) db db₁ :=
    prepares_generateId hsessionId
  have hsecond : Prepares (Commanded userId key (.createSession body.agentType body.title))
      (.enter userId key (.createSession body.agentType body.title)) db₁ db₂ :=
    prepares_generateId hcommandId
  refine AgentDb.Progress.prepare hsound ?_ (prepares_addCommand hcommand ⟨rfl, rfl, rfl⟩)
  refine progress_insert hsound (hfirst.trans hsecond)
    (hsecond.fresh_right (fresh_generateId hsessionId))
      (isNew_newSession call sessionId userId body)
    ?_ ?_ hinsert
  · exact .of_changes (Workspace.Changes.appendBy .refl (.user userId) call _ rfl (by decide)) id id
      id (Or.inl rfl) False.elim
  · exact Workspace.not_uses_blank (newSession call sessionId userId body)

/-- `workspace` reads a session or creates one. -/
theorem progress_enterWorkspace (hsound : db.Sound) {userId : Id} {key : String}
    {agentType : AgentType} {dto : SessionDto}
    (h : enterWorkspace call userId key agentType db = .ok dto db') :
    Progress (.enter userId key (.createSession agentType none)) db db' := by
  unfold enterWorkspace at h
  rw [get_bind_eq_ok] at h
  cases hfound : firstBy (fun w : Workspace ↦
      toLex (w.session.activePlanId.isNone, toLex (w.session.createdAt, w.session.id)))
    (db.workspaces.rows.filter (fun w ↦
      w.session.userId = userId ∧ w.session.agentType = agentType ∧
        w.session.status = .active)) with
  | some w =>
    simp only [hfound, pure_eq_ok] at h
    obtain ⟨-, rfl⟩ := h
    exact .refl _
  | none =>
    simp only [hfound] at h
    obtain ⟨result, db₁, hcreate, h⟩ := bind_eq_ok.mp h
    have hprogress := progress_createSession hsound hcreate
    cases result with
    | sessionCreated session cursor =>
      obtain ⟨-, rfl⟩ := pure_eq_ok.mp h
      exact hprogress
    | _ => cases h

/-! ### Messages -/

/-- What the acceptance of a message may do. -/
def Permit.message : Permit := { letter := True, queue := True, pick := True, work := True }

theorem Workspace.Changes.addItem {u : Workspace} (h : u.Changes permit fresh w)
    {item : OrderIntakeItem} (hadd : w.addItem item = .ok w') (hfresh : fresh item.id)
    (hstatus : item.status = .pending) (horder : item.orderId = none)
    (hwork : item.recognitionStatus ≠ .notStarted ∨ permit.work) : u.Changes permit fresh w' := by
  obtain ⟨items, hinsert, rfl⟩ := Workspace.addItem_eq_ok.mp hadd
  exact h.tail (.addItem w item items hinsert hfresh hstatus horder hwork)

/-- The screenshots of a message are bound, and every one gets an item. -/
theorem bindAttachments_ok {messageId : Id} {position : ℤ} (attachments : List ChatAttachment) :
    ∀ {index : ℕ} {db db' : AgentDb} {w : Workspace} {bound : Workspace × List OrderIntakeItem},
      bindAttachments call messageId position attachments index w db = .ok bound db' →
        (∀ (command : AgentCommand → Prop) (permit : Permit), permit.work →
          Makes command permit db db' w bound.1) ∧ w.items.keys ⊆ bound.1.items.keys ∧
          bound.2.length = attachments.length ∧ ∀ item ∈ bound.2, item.id ∈ bound.1.items.keys := by
  induction attachments with
  | nil =>
    intro index db db' w bound h
    obtain ⟨rfl, rfl⟩ := pure_eq_ok.mp h
    exact ⟨fun _ _ _ ↦ .refl db w, List.Subset.refl _, rfl, fun _ h ↦ absurd h List.not_mem_nil⟩
  | cons attachment attachments ih =>
    intro index db db' w bound h
    obtain ⟨itemId, db₁, hitemId, h⟩ := bind_eq_ok.mp h
    obtain ⟨w₁, hadd, h⟩ := checked_bind_eq_ok.mp h
    obtain ⟨⟨w₂, items⟩, db₂, hrest, h⟩ := bind_eq_ok.mp h
    obtain ⟨rfl, rfl⟩ := pure_eq_ok.mp h
    obtain ⟨hmakes, hkeys, hlength, hmem⟩ := ih hrest
    obtain ⟨table, -, hrows, heq⟩ := Workspace.addItem_ok hadd
    have hids : w₁.items.keys = w.items.keys ++ [itemId] := by
      unfold Table.keys
      rw [heq, hrows, List.map_append]
      rfl
    refine ⟨fun command permit hwork ↦ ?_, ?_, ?_, ?_⟩
    · have hbound : w.Changes permit (Fresh db db₁) (w.setAttachment attachment.id (fun row ↦
          { row with
            messageId := some messageId, position := some index, status := .bound
            expiresAt := none })) :=
        .single (.setAttachment w attachment.id (fun row ↦
          { row with
            messageId := some messageId, position := some index, status := .bound
            expiresAt := none }) (fun _ ↦ rfl) (fun _ ↦ rfl) fun _ ↦ rfl)
      have hadded : w.Changes permit (Fresh db db₁) w₁ :=
        hbound.addItem hadd (fresh_generateId hitemId) rfl rfl (Or.inr hwork)
      exact Makes.trans ⟨prepares_generateId hitemId, hadded.append call _ rfl (by decide)⟩
        (hmakes command permit hwork)
    · refine List.Subset.trans ?_ hkeys
      change w.items.keys ⊆ w₁.items.keys
      rw [hids]
      exact List.subset_append_left _ _
    · exact congrArg Nat.succ hlength
    · intro item hitem
      rcases List.mem_cons.mp hitem with rfl | hitem
      · refine hkeys ?_
        change itemId ∈ w₁.items.keys
        rw [hids]
        exact List.mem_append_right _ (List.mem_singleton_self _)
      · exact hmem item hitem

@[simp] theorem Workspace.items_append (kind : EventKind) (payload : Payload) (refs : References) :
    (w.append call kind payload refs).items = w.items := rfl

@[simp] theorem Workspace.keys_reviseItem (id : Id) : (w.reviseItem id).items.keys = w.items.keys :=
  Table.keys_update w.items id (fun item ↦ { item with revision := item.revision + 1 }) fun _ ↦ rfl

@[simp] theorem Workspace.keys_activate (id : Id) : (w.activate id).items.keys = w.items.keys :=
  Table.keys_update w.items id (fun item ↦ { item with status := .active }) fun _ ↦ rfl

/-- What `activateFirst` does: nothing, or it selects the first item that waits. -/
theorem activateFirst_ok {items : List OrderIntakeItem} (h : activateFirst call items w = .ok w') :
    w' = w ∨ ∃ first, first ∈ w.items.rows ∧ w.unarchived first ∧ first.status = .pending ∧
      w.session.activeWorkItemId = none ∧
      w' = ((w.activate first.id).reviseItem first.id).append call .workItemActivated
        [("revision", .number (first.revision + 1))] { workItemId := some first.id } := by
  unfold activateFirst at h
  split_ifs at h with hfree
  · cases hfirst : w.firstItem (fun item ↦ item.status = .pending) with
    | none =>
      simp only [hfirst] at h
      cases h
    | some first =>
      simp only [hfirst] at h
      obtain ⟨hitem, hunarchived, hpending⟩ := Workspace.firstItem_eq_some hfirst
      rw [decide_eq_true_eq] at hpending
      exact Or.inr ⟨first, hitem, hunarchived, hpending, hfree.2, (Except.ok.inj h).symm⟩
  · exact Or.inl (Except.ok.inj h).symm

theorem activateFirst_changes {items : List OrderIntakeItem} (hpick : permit.pick)
    (h : activateFirst call items w = .ok w') : w.Changes permit fresh w' := by
  rcases activateFirst_ok h with rfl | ⟨first, hitem, hunarchived, hpending, hnone, rfl⟩
  · exact .refl
  · have hphase : first.status.phase = .waiting := by
      rw [hpending]
      rfl
    exact ((Workspace.Changes.activate .refl hitem hpick hphase hnone hunarchived
      (Or.inl hpending)).reviseItem first.id).append call _ rfl (by decide)

theorem keys_activateFirst {items : List OrderIntakeItem}
    (h : activateFirst call items w = .ok w') : w'.items.keys = w.items.keys := by
  rcases activateFirst_ok h with rfl | ⟨first, -, -, -, -, rfl⟩
  · rfl
  · rw [Workspace.items_append, Workspace.keys_reviseItem, Workspace.keys_activate]

/-- The message of a user as a letter. -/
def userLetter (w : Workspace) (messageId : Id) (body : SendMessage) (mode : MessageMode) :
    Letter String Id (Option MessageRequest × ℕ) :=
  ⟨body.clientMessageId, messageId, some (messageRequest body mode), w.session.lastEventSeq + 1⟩

/-- A client identifier that no message has is the key of no letter. -/
theorem key_notMem_letters {clientMessageId : String}
    (h : w.messages.find? (·.clientMessageId = some clientMessageId) = none) :
    clientMessageId ∉ w.inbox.letters.map Letter.key := by
  intro hmem
  obtain ⟨letter, hletter, rfl⟩ := List.mem_map.mp hmem
  obtain ⟨message, hmessage, heq⟩ := List.mem_filterMap.mp hletter
  obtain ⟨key, hkey, rfl⟩ := Option.map_eq_some_iff.mp heq
  exact List.find?_eq_none.mp h message hmessage (by simpa using hkey)

theorem id_notMem_letters {messageId : Id} (h : ¬ w.Uses messageId) :
    messageId ∉ w.inbox.letters.map Letter.id := by
  intro hmem
  obtain ⟨letter, hletter, rfl⟩ := List.mem_map.mp hmem
  obtain ⟨message, hmessage, heq⟩ := List.mem_filterMap.mp hletter
  obtain ⟨key, -, rfl⟩ := Option.map_eq_some_iff.mp heq
  exact h (Or.inr (Or.inr (Or.inl (List.mem_map_of_mem hmessage))))

/-- What the acceptance of a message has done to a session before the run is added. -/
theorem enterMessage_ok {userId : Id} {body : SendMessage} {mode : MessageMode}
    {attachments : List ChatAttachment} {accepted : Accepted}
    (h : enterMessage call userId body mode attachments w db = .ok accepted db') :
    ∃ messageId db₁ bound db₂ w₃ runId db₃ w₄, generateId call db = .ok messageId db₁ ∧
      bindAttachments call messageId w.lastPosition attachments 0
        (addUserMessage call userId messageId body mode w) db₁ = .ok bound db₂ ∧
      activateFirst call bound.2 bound.1 = .ok w₃ ∧ generateId call db₂ = .ok runId db₃ ∧
      w₃.addRun (messageRun call w₃ runId messageId mode
        (decide (attachments ≠ [] ∧ w.session.activeWorkItemId ≠ none))
        (w.session.lastEventSeq + 1) bound.2) = .ok w₄ ∧
      db' = { db₃ with workspaces :=
        db₃.workspaces.put ((w₄.revise.append call .runQueued [] { runId := some runId }).announce
          call) } ∧
      accepted = acceptedDto (userMessage w messageId body mode)
        (messageRun call w₃ runId messageId mode
          (decide (attachments ≠ [] ∧ w.session.activeWorkItemId ≠ none))
          (w.session.lastEventSeq + 1) bound.2) bound.2 (w₄.session.stateRevision + 1) := by
  unfold enterMessage at h
  obtain ⟨messageId, db₁, hmessageId, h⟩ := bind_eq_ok.mp h
  obtain ⟨bound, db₂, hbound, h⟩ := bind_eq_ok.mp h
  obtain ⟨w₃, hactivate, h⟩ := checked_bind_eq_ok.mp h
  obtain ⟨runId, db₃, hrunId, h⟩ := bind_eq_ok.mp h
  obtain ⟨w₄, hrun, h⟩ := checked_bind_eq_ok.mp h
  obtain ⟨_, db₄, hsave, h⟩ := bind_eq_ok.mp h
  obtain rfl := save_eq_ok.mp hsave
  obtain ⟨rfl, rfl⟩ := pure_eq_ok.mp h
  exact ⟨messageId, db₁, bound, db₂, w₃, runId, db₃, w₄, hmessageId, hbound, hactivate,
    hrunId, hrun, rfl, rfl⟩

theorem addUserMessage_changes {userId messageId : Id} {body : SendMessage} {mode : MessageMode}
    (hletter : permit.letter) (hfresh : fresh messageId) (hnew : ¬ w.Uses messageId) :
    w.Changes permit fresh (addUserMessage call userId messageId body mode w) :=
  Workspace.Changes.post .refl (userMessage w messageId body mode) (.user userId) call _ hfresh hnew
    (Or.inl rfl) (Or.inr hletter) (Or.inl rfl) rfl rfl

theorem inbox_addUserMessage {userId messageId : Id} {body : SendMessage} {mode : MessageMode} :
    (addUserMessage call userId messageId body mode w).inbox =
      { w.inbox with letters := w.inbox.letters ++ [userLetter w messageId body mode] } := by
  have hview := Workspace.view_addMessage w (userMessage w messageId body mode)
  exact congrArg View.inbox hview

/-- A message that passed the checks is one letter with one reply, and its run is queued. -/
theorem enterMessage_evolves {w₀ : Workspace} (hentered : w₀.Changes .message (fun _ ↦ False) w)
    (hinbox : w.inbox = w₀.inbox) (hidle₀ : w₀.Idle) (hidle : w.Idle)
    (hactive : w.session.status = .active) (hissued : ∀ id, w.Uses id → id ∈ db.board.issued)
    {userId : Id} {body : SendMessage} {mode : MessageMode} {attachments : List ChatAttachment}
    {accepted : Accepted}
    (hunknown : w.messages.find? (·.clientMessageId = some body.clientMessageId) = none)
    (hscreenshots : mode.recognizeOnly = true → attachments ≠ [])
    (h : enterMessage call userId body mode attachments w db = .ok accepted db') :
    ∃ db₁ w', Prepares Permit.message.command .message db db₁ ∧
      db' = { db₁ with workspaces := db₁.workspaces.put w' } ∧
      w₀.Evolves .message (Fresh db db₁) w' ∧ w'.inbox = w₀.inbox.accept
        ⟨body.clientMessageId, accepted.messageId,
          some (messageRequest body mode), accepted.eventCursor⟩
        (accepted.runId, some accepted.stateRevision) := by
  obtain ⟨messageId, db₁, bound, db₂, w₃, runId, db₃, w₄, hmessageId, hbound, hactivate,
    hrunId, hrun, rfl, rfl⟩ := enterMessage_ok h
  have hfresh := fresh_generateId hmessageId
  have hnew : ¬ w.Uses messageId := fun huses ↦ hfresh.1 (hissued messageId huses)
  -- Binding the screenshots and selecting the first item need no permit for letters and runs.
  obtain ⟨hmade, -, hlength, hmem⟩ := bindAttachments_ok attachments hbound
  have hitems : ∀ permit : Permit, permit.pick → permit.work →
      Makes Permit.message.command permit db₁ db₂ (addUserMessage call userId messageId body mode w)
        w₃ :=
    fun permit hpick hwork ↦ (hmade _ permit hwork).change (activateFirst_changes hpick hactivate)
  have hfiled : ∀ permit : Permit, permit.letter → permit.pick → permit.work →
      Makes Permit.message.command permit db db₂ w w₃ :=
    fun permit hletter hpick hwork ↦ Makes.trans
      ⟨prepares_generateId hmessageId, addUserMessage_changes hletter hfresh hnew⟩
      (hitems permit hpick hwork)
  have hmakes := hfiled .message trivial trivial trivial
  have hrest : Prepares Permit.message.command .message db₁ db₂ :=
    (hitems .message trivial trivial).prepares
  have hquiet := (hfiled { letter := True, pick := True, work := True } trivial trivial
    trivial).changes
  have hidle₃ : w₃.Idle := by
    unfold Workspace.Idle
    rw [hquiet.jobs_eq (fun h ↦ h) fun h ↦ h]
    exact hidle
  have hactive₃ : w₃.session.status = .active := (hquiet.status_eq fun h ↦ h).trans hactive
  have hprepares : Prepares Permit.message.command .message db db₃ :=
    hmakes.prepares.trans (prepares_generateId hrunId)
  have hadded : w.Changes .message (Fresh db db₃) w₄ := by
    refine Workspace.Changes.addRun
      (hmakes.changes.mono fun _ ↦ (prepares_generateId hrunId : Prepares Permit.message.command
        .message db₂ db₃).fresh_right) hrun trivial
      (hmakes.prepares.fresh_left (fresh_generateId hrunId)) hidle₃ hactive₃ (Or.inr trivial)
      rfl rfl rfl rfl ?_
    -- A run of the recognition queue is about the first screenshot of its message.
    intro hworkbench
    change mode.recognizeOnly = true at hworkbench
    obtain ⟨item, items, hitems'⟩ : ∃ item items, bound.2 = item :: items := by
      refine List.exists_cons_of_ne_nil fun hnil ↦ hscreenshots hworkbench ?_
      rw [hnil] at hlength
      exact List.length_eq_zero_iff.mp hlength.symm
    have hkey : item.id ∈ w₃.items.keys := by
      rw [keys_activateFirst hactivate]
      exact hmem item (hitems' ▸ List.mem_cons_self)
    obtain ⟨row, hrow, hid⟩ := (Table.mem_keys _).mp hkey
    refine ⟨row, hrow, ?_⟩
    change messageItem w₃ mode _ bound.2 = some row.id
    unfold messageItem
    rw [if_pos hworkbench, hitems', ← key_item row, hid]
    rfl
  have hchanges : w₀.Changes .message (Fresh db db₃) w₄ :=
    (hentered.mono fun _ ↦ False.elim).trans hadded
  have hall : w₀.Changes .message (Fresh db db₃)
      ((w₄.revise.append call .runQueued [] { runId := some runId }).announce call) :=
    (hchanges.revise.append call _ rfl (by decide)).announce call
  have hreply : (messageRun call w₃ runId messageId mode
      (decide (attachments ≠ [] ∧ w.session.activeWorkItemId ≠ none))
      (w.session.lastEventSeq + 1) bound.2).reply =
        some (messageId, runId, some (w₃.session.stateRevision + 1)) := if_pos rfl
  have hinbox₄ : ((w₄.revise.append call .runQueued [] { runId := some runId }).announce
      call).inbox = w₀.inbox.accept (userLetter w messageId body mode)
        (runId, some (w₃.session.stateRevision + 1)) := by
    have hview := (Workspace.view_addRun w₃ hrun rfl rfl).2
    rw [hreply] at hview
    have hinbox₃ : w₃.inbox =
        { w.inbox with letters := w.inbox.letters ++ [userLetter w messageId body mode] } :=
      ((hitems { pick := True, work := True } trivial trivial).changes.inbox fun h ↦ h).trans
        inbox_addUserMessage
    refine (congrArg View.inbox hview).trans ?_
    rw [hinbox₃, hinbox]
    rfl
  have hsession₄ : w₄.session = w₃.session := by
    obtain ⟨runs, -, -, rfl⟩ := Workspace.addRun_ok hrun
    rfl
  refine ⟨db₃, _, hprepares, rfl, ⟨hall, hall.dispatch_moves fun h ↦ h, ?_, Or.inr ?_,
    hall.attended (fun h ↦ h) fun h ↦ h, Or.inr fun _ ↦ hidle₀⟩, ?_⟩
  · rw [hinbox₄]
    refine .single (.accept w₀.inbox _ _ ?_ ?_ ?_)
    · rw [← hinbox]
      exact key_notMem_letters hunknown
    · exact (hrest.trans (prepares_generateId hrunId)).fresh_right hfresh
    · rw [← hinbox]
      exact id_notMem_letters hnew
  · exact Nat.lt_succ_of_le (hentered.revision_le.trans hadded.revision_le)
  · rw [hinbox₄, ← hsession₄]
    rfl

/-- The session for a recognition keeps everything but its state column. -/
theorem openWorkbench_ok {body : SendMessage} {mode : MessageMode}
    (h : openWorkbench w body mode = .ok w') :
    (∃ state, w' = w.setState state ∧ ∀ permit fresh, w.Changes permit fresh w') ∧
      (mode.recognizeOnly = true → body.attachmentIds ≠ []) := by
  unfold openWorkbench at h
  split_ifs at h with hmode hcondition
  · obtain rfl := Except.ok.inj h
    exact ⟨⟨_, rfl, fun _ _ ↦ .single (.setState w _ (Or.inr hcondition.1))⟩,
      fun _ ↦ hcondition.2.1⟩
  · obtain rfl := Except.ok.inj h
    exact ⟨⟨w.session.state, rfl, fun _ _ ↦ .refl⟩, fun hmode' ↦ absurd hmode' hmode⟩

/-- The session for a plan of selected orders keeps everything but its state column. -/
theorem selectOrders_ok {board : Board} {mode : MessageMode}
    (h : selectOrders board w mode = .ok w') :
    ∃ state, w' = w.setState state ∧ ∀ permit fresh, w.Changes permit fresh w' := by
  unfold selectOrders at h
  cases horders : mode.scheduleOrderIds with
  | none =>
    simp only [horders] at h
    obtain rfl := Except.ok.inj h
    exact ⟨w.session.state, rfl, fun _ _ ↦ .refl⟩
  | some orderIds =>
    simp only [horders, except_bind_eq_ok, except_pure_eq_ok] at h
    obtain ⟨_, -, _, -, _, -, rfl⟩ := h
    exact ⟨_, rfl, fun _ _ ↦ .single (.setState w _ (Or.inl rfl))⟩

/-- What `acceptMessage` does: it answers a repeated message, or enters a new one into an idle
session. -/
theorem acceptMessage_ok {sessionId userId : Id} {body : SendMessage} {mode : MessageMode}
    {accepted : Accepted} (h : acceptMessage call sessionId userId body mode db =
    .ok accepted db') :
    ∃ w, w ∈ db.workspaces.rows ∧ w.session.id = sessionId ∧ w.session.userId = userId ∧
      w.session.status = .active ∧
      ((∃ existing, w.messages.find? (·.clientMessageId = some body.clientMessageId) =
          some existing ∧
          replayMessage w existing (messageRequest body mode) = .ok accepted ∧ db' = db) ∨
        ∃ state attachments, w.messages.find?
          (·.clientMessageId = some body.clientMessageId) = none ∧
          w.Idle ∧ (∀ permit fresh, w.Changes permit fresh (w.setState state)) ∧
          (mode.recognizeOnly = true → attachments ≠ []) ∧
          enterMessage call userId body mode attachments (w.setState state) db =
            .ok accepted db') := by
  unfold acceptMessage at h
  obtain ⟨w, db₁, hfound, h⟩ := bind_eq_ok.mp h
  obtain ⟨⟨hw, hid⟩, huser, -, hactive, rfl⟩ := requireSession_eq_ok.mp hfound
  refine ⟨w, hw, hid, huser, hactive rfl, ?_⟩
  cases hexisting : w.messages.find? (·.clientMessageId = some body.clientMessageId) with
  | some existing =>
    simp only [hexisting] at h
    obtain ⟨hreplay, rfl⟩ := checked_eq_ok.mp h
    exact Or.inl ⟨existing, rfl, hreplay, rfl⟩
  | none =>
    simp only [hexisting] at h
    obtain ⟨w₁, hopen, h⟩ := checked_bind_eq_ok.mp h
    obtain ⟨_, db₂, hcheck, h⟩ := bind_eq_ok.mp h
    obtain ⟨hidle, rfl⟩ := requireIdle_eq_ok.mp hcheck
    obtain ⟨_, db₃, hrevision, h⟩ := bind_eq_ok.mp h
    obtain ⟨-, rfl⟩ := require_eq_ok.mp hrevision
    rw [get_bind_eq_ok] at h
    obtain ⟨w₂, hselect, h⟩ := checked_bind_eq_ok.mp h
    obtain ⟨_, -, h⟩ := checked_bind_eq_ok.mp h
    obtain ⟨attachments, hattachments, h⟩ := checked_bind_eq_ok.mp h
    obtain ⟨⟨state, rfl, hopened⟩, hscreenshots⟩ := openWorkbench_ok hopen
    obtain ⟨state', rfl, hselected⟩ := selectOrders_ok hselect
    refine Or.inr ⟨state', attachments, rfl, hidle, fun permit fresh ↦
      (hopened permit fresh).trans (hselected permit fresh), fun hmode hnil ↦ ?_, h⟩
    have hlength := (forall₂_of_mapM_eq_ok hattachments).length_eq
    rw [hnil] at hlength
    exact hscreenshots hmode (List.length_eq_zero_iff.mp hlength)

theorem progress_acceptMessage (hsound : db.Sound) {sessionId userId : Id} {body : SendMessage}
    {mode : MessageMode} {accepted : Accepted}
    (h : acceptMessage call sessionId userId body mode db = .ok accepted db') :
    Progress .message db db' := by
  obtain ⟨w, hw, -, -, hactive, hcases⟩ := acceptMessage_ok h
  rcases hcases with ⟨_, -, -, rfl⟩ | ⟨state, attachments, hunknown, hidle, hstate, hscreenshots, h⟩
  · exact .refl _
  · obtain ⟨db₁, w', hprepares, rfl, hevolves, -⟩ := enterMessage_evolves (hstate _ _)
      rfl hidle hidle hactive (hsound.issued w hw) hunknown hscreenshots h
    exact Makes.save hsound hprepares hw hevolves fun _ hc ↦ Or.inl hc

/-! ### Retries -/

/-- What a command may do that queues a run. -/
def Permit.queueing (userId : Id) (key : String) (request : CommandRequest) : Permit where
  command := Commanded userId key request
  queue := True

theorem progress_retryRun (hsound : db.Sound) {runId userId : Id} {key : String} {expected : ℕ}
    {result : CommandResult} (h : retryRun call runId userId key expected db = .ok result db') :
    Progress (.queueing userId key (.retryRun runId expected)) db db' := by
  unfold retryRun at h
  refine progress_replaying h fun h ↦ ?_
  rw [get_bind_eq_ok] at h
  obtain ⟨found, -, h⟩ := orRaise_bind_eq_ok.mp h
  obtain ⟨w, db₁, hfound, h⟩ := bind_eq_ok.mp h
  obtain ⟨⟨hw, -⟩, -, -, hactive, rfl⟩ := requireSession_eq_ok.mp hfound
  obtain ⟨_, db₂, hcheck, h⟩ := bind_eq_ok.mp h
  obtain ⟨hidle, rfl⟩ := requireIdle_eq_ok.mp hcheck
  obtain ⟨_, db₃, hrevision, h⟩ := bind_eq_ok.mp h
  obtain ⟨-, rfl⟩ := require_eq_ok.mp hrevision
  obtain ⟨original, horiginal, h⟩ := orRaise_bind_eq_ok.mp h
  obtain ⟨hsource, h⟩ := require_bind_eq_ok.mp h
  obtain ⟨-, h⟩ := require_bind_eq_ok.mp h
  obtain ⟨-, h⟩ := require_bind_eq_ok.mp h
  obtain ⟨commandId, db₄, hcommandId, h⟩ := bind_eq_ok.mp h
  obtain ⟨newId, db₅, hnewId, h⟩ := bind_eq_ok.mp h
  rw [get_bind_eq_ok] at h
  obtain ⟨_, -, h⟩ := checked_bind_eq_ok.mp h
  obtain ⟨w₁, hrun, h⟩ := checked_bind_eq_ok.mp h
  obtain ⟨_, db₆, hsave, h⟩ := bind_eq_ok.mp h
  obtain rfl := save_eq_ok.mp hsave
  obtain ⟨_, db₇, hcommand, h⟩ := bind_eq_ok.mp h
  obtain ⟨-, rfl⟩ := pure_eq_ok.mp h
  have hfirst : Prepares (Commanded userId key (.retryRun runId expected))
      (.queueing userId key (.retryRun runId expected)) db db₄ := prepares_generateId hcommandId
  have hprepares := hfirst.trans (prepares_generateId hnewId)
  have hmem : original ∈ w.runs.rows := ((Table.find?_eq_some_iff _).mp horiginal).1
  -- A repeated run of the recognition queue still has its item.
  have hadded : w.Changes (.queueing userId key (.retryRun runId expected)) (Fresh db db₅) w₁ := by
    refine Workspace.Changes.addRun
      (Workspace.Changes.appendBy .refl (.user userId) call _ rfl (by decide)) hrun trivial
      (hfirst.fresh_left (fresh_generateId hnewId)) hidle (hactive rfl)
      (Or.inl (if_neg (by simp [retriedRun, newRun]))) rfl rfl rfl rfl ?_
    intro hworkbench
    exact (hsound.workspace w hw).traced.sources original hmem hworkbench hsource
  refine AgentDb.Progress.prepare hsound ?_ (prepares_addCommand hcommand ⟨rfl, rfl, rfl⟩)
  refine Makes.progress hsound ⟨hprepares, ?_⟩ hw id id id ?_ False.elim
  · exact (hadded.revise.append call _ rfl (by decide)).announce call
  · exact Or.inr (Nat.lt_succ_of_le hadded.revision_le)

/-! ### Status -/

/-- A run as it is after it was cancelled. -/
def cancelledRun (finishedAt : Time) (run : AgentRun) : AgentRun :=
  { run with
    status := .cancelled, finishedAt := some finishedAt, leaseToken := none,
      leaseExpiresAt := none }

theorem id_cancelledRun (finishedAt : Time) (run : AgentRun) :
    (cancelledRun finishedAt run).id = run.id := rfl

theorem not_isOpen_cancelled : ¬ RunStatus.cancelled.IsOpen := by decide

/-- The session of a run as it is after the run was marked as cancelled. -/
def Workspace.markCancelled (call : Call) (run : AgentRun) (w : Workspace) : Workspace :=
  (w.setRun run.id (cancelledRun call.now) (id_cancelledRun call.now)).abandonCalls call run.id
    "SESSION_DELETING"

theorem dispatch_markCancelled (call : Call) (run : AgentRun) (w : Workspace) :
    (w.markCancelled call run).dispatch = w.dispatch.setJob run.id (.ended .cancelled) none := by
  have hview : (w.markCancelled call run).view =
      w.view.onDispatch (Dispatch.setJob run.id (.ended .cancelled) none) := by
    unfold Workspace.markCancelled
    rw [Workspace.view_abandonCalls]
    exact Workspace.view_setRun_stage w run.id (cancelledRun call.now) (fun _ ↦ rfl)
      (.ended .cancelled) none (fun _ ↦ rfl) (fun _ ↦ rfl)
  exact congrArg View.dispatch hview

theorem markCancelled_changes (hruns : permit.runs) {run : AgentRun} :
    w.Changes permit fresh (w.markCancelled call run) := by
  have hmark : w.Changes permit fresh (w.setRun run.id (cancelledRun call.now)) :=
    Workspace.Changes.markRun .refl hruns run.id (cancelledRun call.now) (fun _ ↦ rfl)
      (fun _ ↦ ⟨rfl, rfl, rfl, rfl, rfl⟩) (fun _ _ _ _ ↦ not_isOpen_cancelled) fun _ ↦ rfl
  refine hmark.trans (abandonCalls_changes fun other hother hid ↦ ?_)
  obtain ⟨old, -, rfl⟩ := Workspace.mem_setRun.mp hother
  by_cases hkey : old.id = run.id
  · rw [if_pos hkey]
    exact not_isOpen_cancelled
  · rw [if_neg hkey] at hid
    exact absurd hid hkey

theorem id_cancelOpenRun (call : Call) (w : Workspace) :
    (cancelOpenRun call w).session.id = w.session.id := by
  unfold cancelOpenRun
  cases w.openRun with
  | none => rfl
  | some run =>
    have hchanges : w.Changes { runs := True } (fun _ ↦ False) (w.markCancelled call run) :=
      markCancelled_changes trivial
    exact hchanges.owner.1

/-- Once the open run of a session was cancelled, no run is open. -/
theorem cancelOpenRun_moves (hsound : w.dispatch.Sound RunEnd.answered) (hruns : permit.runs) :
    w.Changes permit fresh (cancelOpenRun call w) ∧
      Dispatch.Moves fresh RunEnd.answered w.dispatch (cancelOpenRun call w).dispatch ∧
      (cancelOpenRun call w).Idle := by
  unfold cancelOpenRun
  cases hopenRun : w.openRun with
  | none => exact ⟨.refl, .refl, openRun_eq_none_iff.mp hopenRun⟩
  | some run =>
    have hrun : run ∈ w.runs.rows := List.mem_of_find?_eq_some hopenRun
    have hopen : run.status.IsOpen := by simpa using List.find?_some hopenRun
    have hmarked := dispatch_markCancelled call run w
    have hjob : run.job ∈ w.dispatch.jobs := List.mem_map_of_mem hrun
    have hopen' : ¬ run.job.Ended := fun hended ↦ ended_job_iff.mp hended hopen
    have hreport : ((w.markCancelled call run).append call .runCancelled []
        { runId := some run.id }).dispatch =
          w.dispatch.finish RunEnd.answered run.job.id .cancelled := by
      have hview := Workspace.view_appendBy_ending (w.markCancelled call run) call .system
        .runCancelled [] { runId := some run.id }
      refine (congrArg View.dispatch hview).trans ?_
      change { (w.markCancelled call run).dispatch with
        endings := (w.markCancelled call run).dispatch.endings ++ [(run.id, RunEnd.cancelled)] } = _
      rw [hmarked]
      exact Dispatch.ext rfl rfl (List.append_nil _).symm
    refine ⟨(markCancelled_changes hruns).report hruns call [] rfl (by decide), ?_, ?_⟩
    · change Dispatch.Moves fresh RunEnd.answered w.dispatch
        ((w.markCancelled call run).append call .runCancelled [] { runId := some run.id }).dispatch
      rw [hreport]
      exact .single (.finish w.dispatch run.job .cancelled hjob hopen')
    · change ((w.markCancelled call run).append call .runCancelled []
        { runId := some run.id }).Idle
      unfold Workspace.Idle
      rw [hreport]
      exact hsound.idle_finish hjob hopen' .cancelled

/-- What a change of the status of a session may do beyond entering itself. -/
def Permit.changeStatus (userId : Id) (key : String) (change : StatusChange) (sessionId : Id) :
    Permit where
  command := Commanded userId key (.changeStatus change.kind sessionId)
  runs := change = .delete
  status := True
  files := change = .delete

/-- A session that is being deleted, with its open run cancelled. -/
theorem evolves_deleting {v : Workspace} (hentered : w.Changes permit fresh v)
    (hsound : v.dispatch.Sound RunEnd.answered) (hdispatch : v.dispatch = w.dispatch)
    (hruns : permit.runs) (hletter : ¬ permit.letter) (hwork : ¬ permit.work) (actor : Actor)
    (payload : Payload) {refs : References} (hmessage : refs.messageId = none) :
    w.Evolves permit fresh
      ((cancelOpenRun call v).revise.appendBy actor call .sessionDeleting payload refs) := by
  have hcancelled : v.Changes permit fresh (cancelOpenRun call v) ∧
      Dispatch.Moves fresh RunEnd.answered v.dispatch (cancelOpenRun call v).dispatch ∧
      (cancelOpenRun call v).Idle := cancelOpenRun_moves hsound hruns
  obtain ⟨hchanges, hmoves, hidle⟩ := hcancelled
  have hall : w.Changes permit fresh (cancelOpenRun call v) := hentered.trans hchanges
  have hlast : ((cancelOpenRun call v).revise.appendBy actor call .sessionDeleting payload
      refs).dispatch = (cancelOpenRun call v).dispatch :=
    congrArg View.dispatch
      (Workspace.view_appendBy (cancelOpenRun call v).revise call actor payload refs rfl)
  have hfinal := hall.revise.appendBy actor call payload hmessage
    (by decide : EventKind.sessionDeleting.Plain)
  refine ⟨hfinal, ?_, ?_, Or.inr (Nat.lt_succ_of_le hall.revision_le), fun _ ↦ Or.inl ?_,
    Or.inr fun h ↦ absurd h hwork⟩
  · rw [hlast, ← hdispatch]
    exact hmoves
  · rw [hfinal.inbox hletter]
  · unfold Workspace.Idle
    rw [hlast]
    exact hidle

/-- The session in its new status, and the event that tells it. -/
theorem enterStatus_evolves (hsound : w.Sound) {change : StatusChange}
    {entered : Workspace × EventKind} (hpermit : permit.runs ↔ change = .delete)
    (hstatus : permit.status) (hfiles : permit.files ↔ change = .delete)
    (hopen : w.session.status ≠ .deleting) (hletter : ¬ permit.letter) (hqueue : ¬ permit.queue)
    (hwork : ¬ permit.work) (h : enterStatus call change w db = .ok entered db') :
    Prepares command permit db db' ∧ ∀ actor payload refs, refs.messageId = none →
      w.Evolves permit (Fresh db db')
        (entered.1.revise.appendBy actor call entered.2 payload refs) := by
  -- A session without an open run enters another status.
  have hidle : ∀ status archivedAt, ∀ kind : EventKind, kind.ending = none →
      kind ≠ .recognitionFailed → change ≠ .delete → status ≠ .deleting → w.Idle →
      ∀ actor payload refs, refs.messageId = none → w.Evolves permit (Fresh db db)
        ((({ w with session := { w.session with status, archivedAt } } : Workspace).revise).appendBy
          actor call kind payload refs) := by
    intro status archivedAt kind hkind hfailed hchange hclosing hidle actor payload refs hmessage
    have hentered : w.Changes permit (Fresh db db)
        { w with session := { w.session with status, archivedAt } } :=
      .single (.enter w status archivedAt w.session.deletionRequestedAt hstatus
        (Or.inl ⟨fun h ↦ absurd h hclosing, fun h ↦ absurd h hopen⟩))
    refine .of_idle (hentered.revise.appendBy actor call payload hmessage ⟨hkind, hfailed⟩) ?_
      hletter hqueue hidle (Or.inr (Nat.lt_succ_self _))
    exact fun hruns ↦ hchange (hpermit.mp hruns)
  cases change with
  | delete =>
    obtain ⟨_, db₁, hjobs, h⟩ := bind_eq_ok.mp h
    obtain ⟨rfl, rfl⟩ := pure_eq_ok.mp h
    refine ⟨prepares_addGcJobs (hfiles.mpr rfl) _ hjobs, fun actor payload refs hmessage ↦ ?_⟩
    have hentered : w.Changes permit (Fresh db db₁)
        { w with session :=
          { w.session with status := .deleting, deletionRequestedAt := some call.now } } :=
      .single (.enter w .deleting w.session.archivedAt (some call.now) hstatus
        (Or.inr (hfiles.mpr rfl)))
    exact evolves_deleting hentered hsound.dispatch rfl (hpermit.mpr rfl) hletter hwork actor
      payload hmessage
  | archive =>
    obtain ⟨_, db₁, hcheck, h⟩ := bind_eq_ok.mp h
    obtain ⟨hidle', rfl⟩ := requireIdle_eq_ok.mp hcheck
    obtain ⟨rfl, rfl⟩ := pure_eq_ok.mp h
    exact ⟨.refl _, hidle .archived (some call.now) .sessionArchived rfl (by decide) (by decide)
      (by decide) hidle'⟩
  | restore =>
    obtain ⟨_, db₁, hcheck, h⟩ := bind_eq_ok.mp h
    obtain ⟨hidle', rfl⟩ := requireIdle_eq_ok.mp hcheck
    obtain ⟨rfl, rfl⟩ := pure_eq_ok.mp h
    exact ⟨.refl _, hidle .active none .sessionRestored rfl (by decide) (by decide) (by decide)
      hidle'⟩

theorem progress_changeStatus (hsound : db.Sound) {sessionId userId : Id} {key : String}
    {change : StatusChange} {result : CommandResult}
    (h : changeStatus call sessionId userId key change db = .ok result db') :
    Progress (.changeStatus userId key change sessionId) db db' := by
  unfold changeStatus at h
  rw [get_bind_eq_ok] at h
  cases hold : db.commands.find? (userId, key) with
  | some old =>
    simp only [hold] at h
    obtain ⟨-, h⟩ := require_bind_eq_ok.mp h
    obtain ⟨-, rfl⟩ := pure_eq_ok.mp h
    exact .refl _
  | none =>
    simp only [hold] at h
    obtain ⟨w, db₁, hfound, h⟩ := bind_eq_ok.mp h
    obtain ⟨⟨hw, rfl⟩, -, hdeleting, -, rfl⟩ := requireSession_eq_ok.mp hfound
    obtain ⟨commandId, db₂, hcommandId, h⟩ := bind_eq_ok.mp h
    obtain ⟨⟨w₁, kind⟩, db₃, henter, h⟩ := bind_eq_ok.mp h
    obtain ⟨_, db₄, hsave, h⟩ := bind_eq_ok.mp h
    obtain rfl := save_eq_ok.mp hsave
    obtain ⟨_, db₅, hcommand, h⟩ := bind_eq_ok.mp h
    obtain ⟨-, rfl⟩ := pure_eq_ok.mp h
    have hid : Prepares (Commanded userId key (.changeStatus change.kind w.session.id))
        (.changeStatus userId key change w.session.id) db db₂ := prepares_generateId hcommandId
    have hentered : Prepares (Commanded userId key (.changeStatus change.kind w.session.id))
        (.changeStatus userId key change w.session.id) db₂ db₃ ∧
        ∀ actor payload refs, refs.messageId = none →
          w.Evolves (.changeStatus userId key change w.session.id) (Fresh db₂ db₃)
            (w₁.revise.appendBy actor call kind payload refs) :=
      enterStatus_evolves (hsound.workspace w hw) Iff.rfl trivial Iff.rfl hdeleting id id id henter
    obtain ⟨hprepares, hevolves⟩ := hentered
    refine AgentDb.Progress.prepare hsound ?_ (prepares_addCommand hcommand ⟨rfl, rfl, rfl⟩)
    exact Makes.save hsound (hid.trans hprepares) hw
      ((hevolves (.user userId) [] { commandId := some commandId } rfl).mono
        fun _ ↦ hid.fresh_left) fun _ hc ↦ Or.inl hc

/-! ### The end of a deletion -/

/-- The rows of a session are removed, and everything else stays. -/
theorem progress_finishSession (hsound : db.Sound) (sessionId : Id) :
    Progress .cleaning db (finishSession db sessionId) := by
  unfold finishSession
  split_ifs
  · exact .refl _
  · have hmem : ∀ w ∈ (db.workspaces.erase sessionId).rows,
        w ∈ db.workspaces.rows ∧ w.session.id ≠ sessionId := by
      intro w hw
      obtain ⟨hw, hne⟩ := List.mem_filter.mp hw
      exact ⟨hw, by simpa using hne⟩
    have hkeys : ∀ key ∈ (db.workspaces.erase sessionId).keys, key ≠ sessionId := by
      intro key hkey
      obtain ⟨w, hw, rfl⟩ := (Table.mem_keys _).mp hkey
      exact (hmem w hw).2
    constructor
    · exact List.Subset.refl _
    · exact fun w hw ↦ Or.inl ⟨w, (hmem w hw).1, .refl _⟩
    · intro w hw _ _ id hfresh huses _
      exact absurd (hsound.issued w (hmem w hw).1 id huses) hfresh.1
    · exact fun command hcommand ↦ Or.inl (List.mem_filter.mp hcommand).1
    · intro command hcommand hkey _
      exact List.mem_filter.mpr ⟨hcommand, by simpa using hkeys _ hkey⟩
    · exact fun _ ↦ rfl
    · intro _ key hkey _
      unfold AgentDb.plansOf
      change (db.board.plans.rows.filter _).filter _ = _
      rw [List.filter_filter]
      refine List.filter_congr fun plan _ ↦ ?_
      by_cases hplan : plan.sessionId = key
      · simp [hplan, hkeys key hkey]
      · simp [hplan]
    · exact fun _ plan hplan ↦ (List.mem_filter.mp hplan).1
    · exact fun hnone ↦ absurd trivial hnone
    · exact fun hnone ↦ absurd trivial hnone

theorem progress_finishDeletions (skipped : List Id) (hsound : db.Sound) :
    Progress .cleaning db (finishDeletions skipped db) := by
  unfold finishDeletions
  have hfold : ∀ (sessionIds : List Id) (db : AgentDb), db.Sound →
      Progress .cleaning db (sessionIds.foldl finishSession db) := by
    intro sessionIds
    induction sessionIds with
    | nil => exact fun db _ ↦ .refl db
    | cons sessionId sessionIds ih =>
      intro db hsound
      have hfirst := progress_finishSession hsound sessionId
      exact hfirst.trans (ih _ (hsound.progress hfirst))
  exact hfold _ db hsound

theorem progress_collectOnce (call : Call) (skipped : List Id) (unlinked : Bool)
    (hsound : db.Sound) : Progress .cleaning db (collectOnce call skipped unlinked db) := by
  have hjobs : ∀ gcJobs : Table AgentFileGcJob, Progress .cleaning db { db with gcJobs } :=
    fun gcJobs ↦
    Prepares.progress hsound
      ⟨rfl, List.Subset.refl _, fun _ h ↦ Or.inl h, fun _ h ↦ h, fun _ ↦ rfl, fun _ ↦ rfl,
        fun hnone ↦ absurd trivial hnone⟩
  unfold collectOnce
  split
  · exact .refl _
  · exact hjobs _

end FilmOS.Agent
