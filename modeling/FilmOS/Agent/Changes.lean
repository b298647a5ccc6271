import FilmOS.Agent.Views

/-!
# The changes that operations are made of

Every operation of the services changes a session in a few small ways: it appends an event, changes
the status of an item, adds a run. `Workspace.Change` lists them, each with the condition under
which the operations make it, and a `Permit` says which of them an operation may make at all. What
holds of every session is then shown for one change and follows for all operations: that the items
move on the desk (`Changes.desk`), that runs are queued and continue (`Changes.dispatch`,
`Change.run_origin`), and that an item keeps its place and gets an order with a permit only
(`Change.items`, `Changes.bonds`).

Two things are left to the operations: the moves of the runs when one of them ends, and of the inbox
when a message is accepted, each of which takes several changes.
-/

set_option autoImplicit false
set_option relaxedAutoImplicit false

namespace FilmOS.Agent

/-- What a transaction may do: the commands it may enter, the items that may get an order, the tool
calls that it may settle in any way, and whether it may enter and remove formal orders, work on
plans, end runs, accept messages, queue runs, change the active item, bring up work for recognition,
change the status of a session, and take files in or give them up. -/
structure Permit where
  command : AgentCommand → Prop := fun _ ↦ False
  bond : Id × Id → Prop := fun _ ↦ False
  call : Id → Prop := fun _ ↦ False
  order : Prop := False
  plan : Prop := False
  runs : Prop := False
  letter : Prop := False
  queue : Prop := False
  pick : Prop := False
  work : Prop := False
  status : Prop := False
  files : Prop := False

/-- Events of this kind report neither the end of a run nor a failed recognition. -/
def EventKind.Plain (kind : EventKind) : Prop := kind.ending = none ∧ kind ≠ .recognitionFailed

instance (kind : EventKind) : Decidable kind.Plain := inferInstanceAs (Decidable (_ ∧ _))

/-- The item as it may be edited: it stays what it is and where it is, and a recognition that was
made is not unmade. -/
structure OrderIntakeItem.Edits (item later : OrderIntakeItem) : Prop where
  id : later.id = item.id
  status : later.status = item.status
  origin : later.origin = item.origin
  orderId : later.orderId = item.orderId
  started : item.recognitionStatus ≠ .notStarted → later.recognitionStatus ≠ .notStarted

/-- The run as it may be marked: what it was queued for stays. -/
structure AgentRun.Marks (run later : AgentRun) : Prop where
  id : later.id = run.id
  triggerKind : later.triggerKind = run.triggerKind
  triggerMessageId : later.triggerMessageId = run.triggerMessageId
  workItemId : later.workItemId = run.workItemId
  config : later.config = run.config

/-- The receipt of the same tool call. -/
structure AgentToolCall.Same (toolCall later : AgentToolCall) : Prop where
  id : later.id = toolCall.id
  runId : later.runId = toolCall.runId
  callKey : later.callKey = toolCall.callKey
  toolName : later.toolName = toolCall.toolName
  argsHash : later.argsHash = toolCall.argsHash

theorem AgentToolCall.Same.refl (toolCall : AgentToolCall) : toolCall.Same toolCall :=
  ⟨rfl, rfl, rfl, rfl, rfl⟩

namespace Workspace

/-- A recognition was made on an item, with or without success. -/
def Attempted (w : Workspace) (itemId : Id) : Prop :=
  ∃ item ∈ w.items.rows, item.id = itemId ∧ item.recognitionStatus ≠ .notStarted

/-- The changes out of which the operations are made; `fresh` are the identifiers that the operation
has drawn. -/
inductive Change (permit : Permit) (fresh : Id → Prop) : Workspace → Workspace → Prop
  | append (w : Workspace) (actor : Actor) (call : Call) (kind : EventKind) (payload : Payload)
      (refs : References) (hmessage : refs.messageId = none)
      (hending : kind.ending = none ∨ permit.runs)
      (hfailed : kind = .recognitionFailed → ∀ itemId ∈ refs.workItemId, w.Attempted itemId) :
      Change permit fresh w (w.appendBy actor call kind payload refs)
  | post (w : Workspace) (message : ChatMessage) (actor : Actor) (call : Call) (kind : EventKind)
      (payload : Payload) (refs : References) (hfresh : fresh message.id)
      (hnew : message.id ∉ w.messages.map ChatMessage.id)
      (hseq : message.eventSeq = w.session.lastEventSeq + 1)
      (hrefs : refs.messageId = some message.id)
      (hkind : kind = .messageAccepted ∨ kind = .messageCompleted)
      (hanswer : message.answer = none ∨ permit.runs)
      (hletter : message.letter = none ∨ permit.letter) :
      Change permit fresh w ((w.addMessage message).appendBy actor call kind payload refs)
  | revise (w : Workspace) : Change permit fresh w w.revise
  | setState (w : Workspace) (state : SessionState)
      (hworkbench : state.intakeWorkbench = w.session.state.intakeWorkbench ∨
        w.session.agentType = .orderIntake) : Change permit fresh w (w.setState state)
  | setPlan (w : Workspace) (id : Option Id) (hplan : permit.plan) :
      Change permit fresh w (w.setPlan id)
  | enter (w : Workspace) (status : SessionStatus) (archivedAt deletionRequestedAt : Option Time)
      (hstatus : permit.status)
      (hclosing : (status = .deleting ↔ w.session.status = .deleting) ∨ permit.files) :
      Change permit fresh w
        { w with session := { w.session with status, archivedAt, deletionRequestedAt } }
  | editItem (w : Workspace) (id : Id) (change : OrderIntakeItem → OrderIntakeItem)
      (hid : ∀ item, (change item).id = item.id) (hedits : ∀ item : OrderIntakeItem,
        item.Edits (change item)) :
      Change permit fresh w (w.setItem id change hid)
  | bind (w : Workspace) (id orderId : Id) (hbond : permit.bond (id, orderId)) :
      Change permit fresh w (w.setItem id (fun item ↦ { item with orderId := some orderId }))
  | unbind (w : Workspace) (kept : Id → Bool) :
      Change permit fresh w
        { w with
          items := w.items.mapRows
            (fun item ↦ { item with orderId := item.orderId.filter kept }) (fun _ ↦ rfl) }
  | activate (w : Workspace) (item : OrderIntakeItem) (hitem : item ∈ w.items.rows)
      (hphase : item.status.phase = .waiting) (hnone : w.session.activeWorkItemId = none)
      (hunarchived : w.unarchived item) (hpick : permit.pick)
      (hwork : item.status = .pending ∨ permit.work) : Change permit fresh w (w.activate item.id)
  | release (w : Workspace) (item : OrderIntakeItem) (hitem : item ∈ w.items.rows)
      (hcurrent : w.session.activeWorkItemId = some item.id) (status : ItemStatus)
      (hstatus : status ≠ .active) (hpick : permit.pick)
      (hwork : status = .pending → item.recognitionStatus ≠ .notStarted) :
      Change permit fresh w (w.release item.id status)
  | close (w : Workspace) (item : OrderIntakeItem) (hitem : item ∈ w.items.rows)
      (hphase : item.status.phase = .waiting) :
      Change permit fresh w (w.setItemStatus item.id .closed)
  | markRun (w : Workspace) (id : Id) (change : AgentRun → AgentRun)
      (hid : ∀ run, (change run).id = run.id)
      (hmarks : ∀ run : AgentRun, run.Marks (change run))
      (hjob : (∀ run, (change run).job = run.job) ∨ permit.runs)
      (hended : ∀ run ∈ w.runs.rows, run.id = id → ¬ run.status.IsOpen →
        ¬ (change run).status.IsOpen)
      (hplan : (∀ run, (change run).generatedPlanId = run.generatedPlanId) ∨ permit.plan) :
      Change permit fresh w (w.setRun id change hid)
  | addRun (w : Workspace) (run : AgentRun) (runs : Table AgentRun)
      (hinsert : w.runs.insert? run = some runs) (hqueue : permit.queue) (hfresh : fresh run.id)
      (hstatus : run.status = .queued) (htoken : run.leaseToken = none)
      (hidle : ∀ job ∈ w.dispatch.jobs, job.Ended) (hactive : w.session.status = .active)
      (hreply : run.reply = none ∨ permit.letter) (hplan : run.generatedPlanId = none)
      (hsource : run.config.sourceDeleted = false)
      (hitem : run.config.intakeWorkbench = true → ∃ item ∈ w.items.rows,
        run.workItemId = some item.id) :
      Change permit fresh w { w with runs }
  | addItem (w : Workspace) (item : OrderIntakeItem) (items : Table OrderIntakeItem)
      (hinsert : w.items.insert? item = some items) (hfresh : fresh item.id)
      (hstatus : item.status = .pending) (horder : item.orderId = none)
      (hwork : item.recognitionStatus ≠ .notStarted ∨ permit.work) :
      Change permit fresh w { w with items }
  | setAttachment (w : Workspace) (id : Id) (change : ChatAttachment → ChatAttachment)
      (hid : ∀ attachment, (change attachment).id = attachment.id)
      (harchived : ∀ attachment,
        (change attachment).intakeArchivedAt = attachment.intakeArchivedAt)
      (hstored : ∀ attachment, (change attachment).storageKey = attachment.storageKey) :
      Change permit fresh w (w.setAttachment id change hid)
  | shelve (w : Workspace) (attachments : Table ChatAttachment)
      (hopen : ∀ case ∈ w.desk.cases, case.phase = .inHand →
        ¬ ({ w with attachments } : Workspace).shelved case.origin)
      (hwork : (∀ item ∈ w.items.rows, ({ w with attachments } : Workspace).unarchived item →
        w.unarchived item) ∨ permit.work)
      (hstored : attachments.rows.map ChatAttachment.storageKey =
        w.attachments.rows.map ChatAttachment.storageKey ∨ permit.files) :
      Change permit fresh w { w with attachments }
  | removeScreenshot (w : Workspace) (attachmentId : Id)
      (hidle : ∀ job ∈ w.dispatch.jobs, job.Ended)
      (hopen : ∀ case ∈ w.desk.cases, case.phase = .inHand → ¬ w.desk.shelved case.origin)
      (hpick : permit.pick) (hfiles : permit.files) :
      Change permit fresh w (removeScreenshot attachmentId w)
  | addToolCall (w : Workspace) (toolCall : AgentToolCall) (toolCalls : Table AgentToolCall)
      (hinsert : w.toolCalls.insert? toolCall = some toolCalls) (hfresh : fresh toolCall.id)
      (hstatus : toolCall.status = .started) (hrun : toolCall.runId ∈ w.runs.keys)
      (hkey : ∀ other ∈ w.toolCalls.rows,
        ¬ (other.runId = toolCall.runId ∧ other.callKey = toolCall.callKey)) :
      Change permit fresh w { w with toolCalls }
  | setToolCall (w : Workspace) (id : Id) (change : AgentToolCall → AgentToolCall)
      (hid : ∀ toolCall, (change toolCall).id = toolCall.id)
      (hsame : ∀ toolCall : AgentToolCall, toolCall.Same (change toolCall))
      (hstarted : ∀ toolCall ∈ w.toolCalls.rows, toolCall.id = id →
        toolCall.status = .started ∧ (change toolCall).status = .abandoned ∨ permit.call id)
      (habandoned : ∀ toolCall ∈ w.toolCalls.rows, toolCall.id = id →
        (change toolCall).status = .abandoned → ∀ run ∈ w.runs.rows, run.id = toolCall.runId →
          ¬ run.status.IsOpen) :
      Change permit fresh w (w.setToolCall id change hid)

/-- Any number of changes. -/
abbrev Changes (permit : Permit) (fresh : Id → Prop) : Workspace → Workspace → Prop :=
  Relation.ReflTransGen (Change permit fresh)

variable {permit : Permit} {fresh fresh' : Id → Prop} {w w' : Workspace}

/-! ### What no change touches -/

theorem Change.owner (h : Change permit fresh w w') :
    w'.session.id = w.session.id ∧ w'.session.userId = w.session.userId ∧
      w'.session.agentType = w.session.agentType := by
  cases h <;> exact ⟨rfl, rfl, rfl⟩

/-- A session keeps its identifier, its user and its kind. -/
theorem Changes.owner (h : Changes permit fresh w w') :
    w'.session.id = w.session.id ∧ w'.session.userId = w.session.userId ∧
      w'.session.agentType = w.session.agentType := by
  induction h with
  | refl => exact ⟨rfl, rfl, rfl⟩
  | tail _ hchange ih =>
    obtain ⟨hid, huser, htype⟩ := hchange.owner
    exact ⟨hid.trans ih.1, huser.trans ih.2.1, htype.trans ih.2.2⟩

theorem Change.revision_le (h : Change permit fresh w w') :
    w.session.stateRevision ≤ w'.session.stateRevision := by
  cases h with
  | revise => exact Nat.le_succ _
  | _ => exact le_rfl

/-- The revision of a session never goes back. -/
theorem Changes.revision_le (h : Changes permit fresh w w') :
    w.session.stateRevision ≤ w'.session.stateRevision := by
  induction h with
  | refl => exact le_rfl
  | tail _ hchange ih => exact ih.trans hchange.revision_le

theorem Change.status_eq (h : Change permit fresh w w') (hstatus : ¬ permit.status) :
    w'.session.status = w.session.status := by
  cases h with
  | enter _ _ _ hpermit => exact absurd hpermit hstatus
  | _ => rfl

theorem Changes.status_eq (h : Changes permit fresh w w') (hstatus : ¬ permit.status) :
    w'.session.status = w.session.status := by
  induction h with
  | refl => rfl
  | tail _ hchange ih => exact (hchange.status_eq hstatus).trans ih

/-! ### The desk -/

theorem not_shelved_of_unarchived {item : OrderIntakeItem} (h : w.unarchived item) :
    ¬ w.shelved item.origin := by
  unfold unarchived at h
  unfold shelved OrderIntakeItem.origin
  cases hfind : w.attachments.find? item.sourceAttachmentId with
  | none => simp
  | some attachment =>
    rw [hfind, Option.any_some] at h
    simpa using h

theorem mem_itemsOf {attachmentId id : Id} :
    id ∈ itemsOf w attachmentId ↔
      ∃ item ∈ w.items.rows, item.sourceAttachmentId = attachmentId ∧ item.id = id := by
  unfold itemsOf
  simp only [List.mem_map, List.mem_filter, decide_eq_true_eq, and_assoc]

/-- The desk without the items of a screenshot. -/
theorem desk_removeScreenshot (attachmentId : Id) :
    (removeScreenshot attachmentId w).desk =
      (w.desk.discard (fun case ↦ case.id ∈ itemsOf w attachmentId)).shelve
        (removeScreenshot attachmentId w).shelved := by
  have hcases : (removeScreenshot attachmentId w).desk.cases =
      w.desk.cases.filter (fun case ↦ !decide (case.id ∈ itemsOf w attachmentId)) := by
    change (w.items.rows.filter _).map OrderIntakeItem.case =
      (w.items.rows.map OrderIntakeItem.case).filter _
    rw [List.filter_map]
    congr 1
    refine List.filter_congr fun item _ ↦ ?_
    by_cases hitem : item.id ∈ itemsOf w attachmentId <;> simp [OrderIntakeItem.case, hitem]
  have hcurrent : withoutItems (itemsOf w attachmentId) w.session.activeWorkItemId =
      (w.desk.discard (fun case ↦ decide (case.id ∈ itemsOf w attachmentId))).current := by
    unfold withoutItems Desk.discard desk
    cases hcurrent : w.session.activeWorkItemId with
    | none => simp
    | some id =>
      by_cases hid : id ∈ itemsOf w attachmentId
      · obtain ⟨item, hitem, -, rfl⟩ := mem_itemsOf.mp hid
        have hany : (w.items.rows.map OrderIntakeItem.case).any (fun case ↦
            decide (some item.id = some case.id ∧ decide (case.id ∈ itemsOf w attachmentId))) := by
          rw [List.any_eq_true]
          exact ⟨item.case, List.mem_map_of_mem hitem,
            decide_eq_true ⟨rfl, decide_eq_true hid⟩⟩
        rw [if_pos hany]
        simp [hid]
      · have hany : ¬ (w.items.rows.map OrderIntakeItem.case).any (fun case ↦
            decide (some id = some case.id ∧ decide (case.id ∈ itemsOf w attachmentId))) := by
          rw [List.any_eq_true]
          rintro ⟨case, -, hcase⟩
          simp only [Option.some.injEq, decide_eq_true_eq] at hcase
          exact hid (hcase.1 ▸ hcase.2)
        rw [if_neg hany]
        simp [hid]
  exact congrArg₂ (fun cases current ↦
    (⟨cases, current, (removeScreenshot attachmentId w).shelved⟩ : Desk Id ItemOrigin ItemEnd))
    hcases hcurrent

/-- A screenshot that was removed is archived no more, and the others are as before. -/
theorem shelved_removeScreenshot {attachmentId : Id} {origin : ItemOrigin}
    (h : (removeScreenshot attachmentId w).shelved origin) : w.shelved origin := by
  unfold shelved removeScreenshot Table.erase at h
  rw [Table.find?_filter] at h
  unfold shelved
  cases hfind : w.attachments.find? origin.attachmentId with
  | none => simp [hfind] at h
  | some attachment =>
    rw [hfind, Option.any_eq_true] at h
    obtain ⟨found, hfound, harchived⟩ := h
    rw [Option.filter_eq_some_iff] at hfound
    obtain rfl := Option.some.inj hfound.1
    simpa using harchived

theorem Change.desk (h : Change permit fresh w w') : Desk.Moves fresh w.desk w'.desk := by
  have hsame : ∀ {v : Workspace}, v.view = w.view → Desk.Moves fresh w.desk v.desk := by
    intro v hview
    have hdesk : v.desk = w.desk := congrArg View.desk hview
    rw [hdesk]
  cases h with
  | append actor call kind payload refs hmessage hending hfailed => exact .refl
  | post message actor call kind payload refs hfresh hnew hseq hrefs hkind hanswer hletter =>
    exact .refl
  | revise => exact .refl
  | setState state hworkbench => exact .refl
  | setPlan id hplan => exact .refl
  | enter status archivedAt deletionRequestedAt hstatus => exact .refl
  | editItem id change hid hedits =>
    refine hsame (view_setItem w id hid (fun item ↦ ?_) fun item ↦ (hedits item).orderId)
    unfold OrderIntakeItem.case
    rw [(hedits item).id, (hedits item).status, (hedits item).origin]
  | bind id orderId hbond =>
    have hid : ∀ item : OrderIntakeItem,
        ({ item with orderId := some orderId } : OrderIntakeItem).id = item.id := fun _ ↦ rfl
    have hdesk := congrArg View.desk (view_setItem_case w id hid (fun _ ↦ rfl))
    change (w.setItem id _ _).desk = w.desk at hdesk
    rw [hdesk]
  | unbind kept =>
    have hdesk : ({ w with
        items := w.items.mapRows
          (fun item ↦ { item with orderId := item.orderId.filter kept }) (fun _ ↦ rfl) } :
          Workspace).desk = w.desk := by
      unfold Workspace.desk
      rw [Table.rows_mapRows, List.map_map]
      rfl
    rw [hdesk]
  | activate item hitem hphase hnone hunarchived hpick hwork =>
    have hdesk : (w.activate item.id).desk = w.desk.take item.id :=
      congrArg View.desk (view_activate w item.id)
    rw [hdesk]
    exact .single (.take w.desk item.case (List.mem_map_of_mem hitem) hphase hnone
      (not_shelved_of_unarchived hunarchived))
  | release item hitem hcurrent status hstatus hpick hwork =>
    have hdesk : (w.release item.id status).desk = w.desk.release item.id status.phase :=
      congrArg View.desk (view_release w item.id status)
    rw [hdesk]
    refine .single (.release w.desk item.id status.phase hcurrent ?_)
    cases status <;> simp [ItemStatus.phase] at hstatus ⊢
  | close item hitem hphase =>
    have hdesk : (w.setItemStatus item.id .closed).desk =
        w.desk.setPhase item.id (.settled .closed) :=
      congrArg View.desk (view_setItemStatus w item.id .closed)
    rw [hdesk]
    exact .single (.settle w.desk item.case .closed (List.mem_map_of_mem hitem) hphase)
  | markRun id change hid hmarks hjob hended hplan => exact .refl
  | addRun run runs => exact .refl
  | addItem item items hinsert hfresh hstatus horder hwork =>
    have hadd : w.addItem item = .ok { w with items } := by
      unfold Workspace.addItem
      rw [hinsert]
    obtain ⟨hnew, hview⟩ := view_addItem w hadd hstatus horder
    have hdesk : ({ w with items } : Workspace).desk = w.desk.add item.id item.origin :=
      congrArg View.desk hview
    rw [hdesk]
    exact .single (.add w.desk item.id item.origin hfresh hnew)
  | setAttachment id change hid harchived => exact hsame (view_setAttachment w id hid harchived)
  | shelve attachments hopen hwork => exact .single (.shelve w.desk _ hopen)
  | removeScreenshot attachmentId hidle hopen hpick =>
    rw [desk_removeScreenshot]
    refine .tail (.single (.discard w.desk _)) (.shelve _ _ fun case hcase hphase hshelved ↦ ?_)
    exact hopen case (List.mem_filter.mp hcase).1 hphase (shelved_removeScreenshot hshelved)
  | addToolCall toolCall toolCalls => exact .refl
  | setToolCall id change hid hsame => exact .refl

/-- The items of a session move on its desk. -/
theorem Changes.desk (h : Changes permit fresh w w') : Desk.Moves fresh w.desk w'.desk := by
  induction h with
  | refl => exact .refl
  | tail _ hchange ih => exact ih.trans hchange.desk

theorem Change.current_eq (h : Change permit fresh w w') (hpick : ¬ permit.pick) :
    w'.session.activeWorkItemId = w.session.activeWorkItemId := by
  cases h with
  | activate _ _ _ _ _ hpermit => exact absurd hpermit hpick
  | release _ _ _ _ _ hpermit => exact absurd hpermit hpick
  | removeScreenshot _ _ _ hpermit => exact absurd hpermit hpick
  | _ => rfl

theorem Changes.current_eq (h : Changes permit fresh w w') (hpick : ¬ permit.pick) :
    w'.session.activeWorkItemId = w.session.activeWorkItemId := by
  induction h with
  | refl => rfl
  | tail _ hchange ih => exact (hchange.current_eq hpick).trans ih

/-! ### The runs -/

theorem dispatch_removeScreenshot (attachmentId : Id) :
    (removeScreenshot attachmentId w).dispatch = w.dispatch := by
  unfold dispatch removeScreenshot
  simp only [Table.rows_mapRows, List.map_map, List.filterMap_map]
  rfl

theorem dispatch_addRun {run : AgentRun} {runs : Table AgentRun}
    (hinsert : w.runs.insert? run = some runs) (hstatus : run.status = .queued)
    (htoken : run.leaseToken = none) :
    run.id ∉ w.dispatch.jobs.map Job.id ∧
      ({ w with runs } : Workspace).dispatch = w.dispatch.queue run.id := by
  have hadd : w.addRun run = .ok { w with runs } := by
    unfold addRun
    rw [hinsert]
  obtain ⟨hnew, hview⟩ := view_addRun w hadd hstatus htoken
  exact ⟨hnew, congrArg View.dispatch hview⟩

/-- An event that reports no end, after a message that is no answer. -/
theorem dispatch_post {message : ChatMessage} (actor : Actor) (call : Call) {kind : EventKind}
    (payload : Payload) (refs : References) (hending : kind.ending = none)
    (hanswer : message.answer = none) :
    ((w.addMessage message).appendBy actor call kind payload refs).dispatch = w.dispatch := by
  have hview := view_appendBy (w.addMessage message) call actor payload refs hending
  rw [view_addMessage, hanswer] at hview
  have hdispatch : ((w.addMessage message).appendBy actor call kind payload refs).dispatch =
      { w.dispatch with answers := w.dispatch.answers ++ [] } := congrArg View.dispatch hview
  rw [hdispatch, List.append_nil]

theorem Change.dispatch (h : Change permit fresh w w') (hruns : ¬ permit.runs) :
    w'.dispatch.endings = w.dispatch.endings ∧ w'.dispatch.answers = w.dispatch.answers ∧
      Dispatch.Queues fresh w.dispatch.jobs w'.dispatch.jobs := by
  have hsame : ∀ {v : Workspace}, v.dispatch = w.dispatch →
      v.dispatch.endings = w.dispatch.endings ∧ v.dispatch.answers = w.dispatch.answers ∧
        Dispatch.Queues fresh w.dispatch.jobs v.dispatch.jobs := by
    intro v heq
    rw [heq]
    exact ⟨rfl, rfl, .refl⟩
  cases h with
  | append actor call kind payload refs hmessage hending hfailed =>
    exact hsame (congrArg View.dispatch
      (view_appendBy w call actor payload refs (hending.resolve_right hruns)))
  | post message actor call kind payload refs hfresh hnew hseq hrefs hkind hanswer hletter =>
    refine hsame (dispatch_post actor call payload refs ?_ (hanswer.resolve_right hruns))
    rcases hkind with rfl | rfl <;> rfl
  | markRun id change hid hmarks hjob hended hplan =>
    refine hsame ?_
    unfold Workspace.dispatch setRun
    rw [Table.map_update _ _ _ hid (hjob.resolve_right hruns)]
  | addRun run runs hinsert hqueue hfresh hstatus htoken hidle =>
    obtain ⟨hnew, hdispatch⟩ := dispatch_addRun hinsert hstatus htoken
    rw [hdispatch]
    exact ⟨rfl, rfl, .single (.queue _ run.id hfresh hnew hidle)⟩
  | removeScreenshot attachmentId => exact hsame (dispatch_removeScreenshot attachmentId)
  | _ => exact hsame rfl

/-- Runs are queued, unless the operation may do more to them. -/
theorem Changes.dispatch (h : Changes permit fresh w w') (hruns : ¬ permit.runs) :
    w'.dispatch.endings = w.dispatch.endings ∧ w'.dispatch.answers = w.dispatch.answers ∧
      Dispatch.Queues fresh w.dispatch.jobs w'.dispatch.jobs := by
  induction h with
  | refl => exact ⟨rfl, rfl, .refl⟩
  | tail _ hchange ih =>
    obtain ⟨hendings, hanswers, hqueues⟩ := hchange.dispatch hruns
    exact ⟨hendings.trans ih.1, hanswers.trans ih.2.1, ih.2.2.trans hqueues⟩

theorem Changes.dispatch_moves (h : Changes permit fresh w w') (hruns : ¬ permit.runs) :
    Dispatch.Moves fresh RunEnd.answered w.dispatch w'.dispatch := by
  obtain ⟨hendings, hanswers, hqueues⟩ := h.dispatch hruns
  have heq : w'.dispatch = { w.dispatch with jobs := w'.dispatch.jobs } :=
    Dispatch.ext rfl hendings hanswers
  rw [heq]
  exact hqueues.moves

theorem Change.jobs_eq (h : Change permit fresh w w') (hruns : ¬ permit.runs)
    (hqueue : ¬ permit.queue) : w'.dispatch.jobs = w.dispatch.jobs := by
  cases h with
  | markRun id change hid hmarks hjob hended hplan =>
    unfold Workspace.dispatch setRun
    exact Table.map_update _ _ _ hid (hjob.resolve_right hruns)
  | addRun _ _ _ hpermit => exact absurd hpermit hqueue
  | removeScreenshot attachmentId =>
    exact congrArg Dispatch.jobs (dispatch_removeScreenshot attachmentId)
  | _ => rfl

/-- The runs stay as they are, when none may be queued. -/
theorem Changes.jobs_eq (h : Changes permit fresh w w') (hruns : ¬ permit.runs)
    (hqueue : ¬ permit.queue) : w'.dispatch.jobs = w.dispatch.jobs := by
  induction h with
  | refl => rfl
  | tail _ hchange ih => exact (hchange.jobs_eq hruns hqueue).trans ih

/-! ### The inbox -/

theorem Change.inbox (h : Change permit fresh w w') (hletter : ¬ permit.letter) :
    w'.inbox = w.inbox := by
  cases h with
  | post message actor call kind payload refs hfresh hnew hseq hrefs hkind hanswer hmessage =>
    have hview := view_addMessage w message
    rw [hmessage.resolve_right hletter] at hview
    have hinbox : (w.addMessage message).inbox =
        { w.inbox with letters := w.inbox.letters ++ [] } := congrArg View.inbox hview
    rw [List.append_nil] at hinbox
    exact hinbox
  | markRun id change hid hmarks hjob hended hplan =>
    have hreply : ∀ run, (change run).reply = run.reply := by
      intro run
      unfold AgentRun.reply
      rw [(hmarks run).id, (hmarks run).triggerKind, (hmarks run).triggerMessageId,
        (hmarks run).config]
    unfold Workspace.inbox setRun
    rw [Table.filterMap_update _ _ _ hid hreply]
  | addRun run runs hinsert hqueue hfresh hstatus htoken hidle hactive hreply =>
    have hrows := ((Table.insert?_eq_some_iff _ _ _).mp hinsert).2
    unfold Workspace.inbox
    rw [hrows, List.filterMap_append]
    simp [hreply.resolve_right hletter]
  | removeScreenshot attachmentId =>
    unfold Workspace.inbox Agent.removeScreenshot
    simp only [Table.rows_mapRows, List.filterMap_map]
    congr 1
    refine List.filterMap_congr fun run _ ↦ ?_
    unfold AgentRun.reply
    simp only [Function.comp_apply]
    split_ifs <;> rfl
  | _ => rfl

theorem Changes.inbox (h : Changes permit fresh w w') (hletter : ¬ permit.letter) :
    w'.inbox = w.inbox := by
  induction h with
  | refl => rfl
  | tail _ hchange ih => exact (hchange.inbox hletter).trans ih

/-! ### The items -/

/-- How an item may evolve: it keeps its place, a recognition is not unmade, and an order is lost or
comes with a permit. -/
structure Follows (permit : Permit) (item later : OrderIntakeItem) : Prop where
  id : later.id = item.id
  origin : later.origin = item.origin
  started : item.recognitionStatus ≠ .notStarted → later.recognitionStatus ≠ .notStarted
  order : ∀ orderId ∈ later.orderId, item.orderId = some orderId ∨ permit.bond (item.id, orderId)

theorem Follows.refl (item : OrderIntakeItem) : Follows permit item item :=
  ⟨rfl, rfl, fun h ↦ h, fun _ h ↦ Or.inl h⟩

theorem Follows.trans {a b c : OrderIntakeItem} (hab : Follows permit a b)
    (hbc : Follows permit b c) : Follows permit a c where
  id := hbc.id.trans hab.id
  origin := hbc.origin.trans hab.origin
  started h := hbc.started (hab.started h)
  order orderId h := by
    rcases hbc.order orderId h with h | h
    · exact hab.order orderId h
    · exact Or.inr (hab.id ▸ h)

theorem mem_setItem {id : Id} {change : OrderIntakeItem → OrderIntakeItem}
    {hid : ∀ item, (change item).id = item.id} {later : OrderIntakeItem} :
    later ∈ (w.setItem id change hid).items.rows ↔
      ∃ item ∈ w.items.rows, (if item.id = id then change item else item) = later := by
  change later ∈ (w.items.update id change hid).rows ↔ _
  exact Table.mem_update w.items

/-- A change of one item, after which every item follows itself. -/
theorem follows_setItem {id : Id} {change : OrderIntakeItem → OrderIntakeItem}
    {hid : ∀ item, (change item).id = item.id}
    (hfollows : ∀ item, item.id = id → Follows permit item (change item)) :
    (∀ later ∈ (w.setItem id change hid).items.rows, ∃ item ∈ w.items.rows,
        Follows permit item later) ∧
      ∀ item ∈ w.items.rows, ∃ later ∈ (w.setItem id change hid).items.rows,
        Follows permit item later := by
  have hif : ∀ item : OrderIntakeItem,
      Follows permit item (if item.id = id then change item else item) := by
    intro item
    split_ifs with hkey
    · exact hfollows item hkey
    · exact .refl item
  constructor
  · intro later hlater
    obtain ⟨item, hitem, rfl⟩ := mem_setItem.mp hlater
    exact ⟨item, hitem, hif item⟩
  · intro item hitem
    exact ⟨_, mem_setItem.mpr ⟨item, hitem, rfl⟩, hif item⟩

/-- No event and no run refers to an item. -/
def Forgotten (w : Workspace) (itemId : Id) : Prop :=
  (∀ event ∈ w.events, event.refs.workItemId ≠ some itemId) ∧
    ∀ run ∈ w.runs.rows, run.workItemId ≠ some itemId

theorem forgotten_removeScreenshot {attachmentId itemId : Id}
    (hremoved : itemId ∈ itemsOf w attachmentId) :
    (removeScreenshot attachmentId w).Forgotten itemId := by
  have hwithout : ∀ workItemId : Option Id,
      withoutItems (itemsOf w attachmentId) workItemId ≠ some itemId := by
    intro workItemId heq
    have hkept := (Option.filter_eq_some_iff.mp heq).2
    simp [hremoved] at hkept
  constructor
  · intro event hevent
    obtain ⟨old, -, rfl⟩ := List.mem_map.mp hevent
    exact hwithout old.refs.workItemId
  · intro run hrun
    obtain ⟨old, -, rfl⟩ := List.mem_map.mp hrun
    exact hwithout old.workItemId

/-- Where the items come from in a change, and what becomes of them: an item follows itself, or is
forgotten. -/
theorem Change.items (h : Change permit fresh w w') :
    (∀ later ∈ w'.items.rows, (fresh later.id ∧ later.orderId = none) ∨
        ∃ item ∈ w.items.rows, Follows permit item later) ∧
      ∀ item ∈ w.items.rows, (∃ later ∈ w'.items.rows, Follows permit item later) ∨
        w'.Forgotten item.id := by
  have hsame : ∀ {v : Workspace},
      (∀ later ∈ v.items.rows, ∃ item ∈ w.items.rows, Follows permit item later) ∧
        (∀ item ∈ w.items.rows, ∃ later ∈ v.items.rows, Follows permit item later) →
      (∀ later ∈ v.items.rows, (fresh later.id ∧ later.orderId = none) ∨
          ∃ item ∈ w.items.rows, Follows permit item later) ∧
        ∀ item ∈ w.items.rows, (∃ later ∈ v.items.rows, Follows permit item later) ∨
          v.Forgotten item.id :=
    fun h ↦ ⟨fun later hlater ↦ Or.inr (h.1 later hlater),
      fun item hitem ↦ Or.inl (h.2 item hitem)⟩
  have hstatus : ∀ (id : Id) (status : ItemStatus),
      (∀ later ∈ (w.setItemStatus id status).items.rows, ∃ item ∈ w.items.rows,
          Follows permit item later) ∧
        ∀ item ∈ w.items.rows, ∃ later ∈ (w.setItemStatus id status).items.rows,
          Follows permit item later :=
    fun id status ↦ follows_setItem fun item _ ↦ ⟨rfl, rfl, fun h ↦ h, fun _ h ↦ Or.inl h⟩
  cases h with
  | editItem id change hid hedits =>
    refine hsame (follows_setItem fun item _ ↦ ?_)
    obtain ⟨hid', -, horigin, horder, hstarted⟩ := hedits item
    exact ⟨hid', horigin, hstarted, fun _ h ↦ Or.inl (horder ▸ h)⟩
  | bind id orderId hbond =>
    refine hsame (follows_setItem fun item hitem ↦ ⟨rfl, rfl, fun h ↦ h, fun other hother ↦ ?_⟩)
    obtain rfl := Option.some.inj hother
    exact Or.inr (hitem ▸ hbond)
  | unbind kept =>
    have hfollows : ∀ item : OrderIntakeItem, Follows permit item
        { item with orderId := item.orderId.filter kept } :=
      fun item ↦ ⟨rfl, rfl, fun h ↦ h, fun _ h ↦ Or.inl (Option.filter_eq_some_iff.mp h).1⟩
    refine hsame ⟨fun later hlater ↦ ?_, fun item hitem ↦ ?_⟩
    · obtain ⟨item, hitem, rfl⟩ := List.mem_map.mp hlater
      exact ⟨item, hitem, hfollows item⟩
    · exact ⟨_, List.mem_map_of_mem hitem, hfollows item⟩
  | activate item => exact hsame (hstatus item.id .active)
  | release item _ _ status => exact hsame (hstatus item.id status)
  | close item => exact hsame (hstatus item.id .closed)
  | addItem item items hinsert hfresh _ horder _ =>
    have hrows := ((Table.insert?_eq_some_iff _ _ _).mp hinsert).2
    constructor
    · intro later hlater
      rw [hrows] at hlater
      rcases List.mem_append.mp hlater with hlater | hlast
      · exact Or.inr ⟨later, hlater, .refl later⟩
      · rw [List.mem_singleton.mp hlast]
        exact Or.inl ⟨hfresh, horder⟩
    · intro old hold
      refine Or.inl ⟨old, ?_, .refl old⟩
      rw [hrows]
      exact List.mem_append_left _ hold
  | removeScreenshot attachmentId =>
    refine ⟨fun later hlater ↦ Or.inr ⟨later, (List.mem_filter.mp hlater).1, .refl later⟩, ?_⟩
    intro item hitem
    by_cases hremoved : item.id ∈ itemsOf w attachmentId
    · exact Or.inr (forgotten_removeScreenshot hremoved)
    · refine Or.inl ⟨item, List.mem_filter.mpr ⟨hitem, ?_⟩, .refl item⟩
      simpa using hremoved
  | _ => exact hsame ⟨fun later hlater ↦ ⟨later, hlater, .refl later⟩,
      fun item hitem ↦ ⟨item, hitem, .refl item⟩⟩

theorem mem_bonds {b : Id × Id} :
    b ∈ w.bonds ↔ ∃ item ∈ w.items.rows, item.id = b.1 ∧ item.orderId = some b.2 := by
  unfold bonds
  rw [List.mem_filterMap]
  constructor
  · rintro ⟨item, hitem, hb⟩
    obtain ⟨orderId, horder, rfl⟩ := Option.map_eq_some_iff.mp hb
    exact ⟨item, hitem, rfl, horder⟩
  · rintro ⟨item, hitem, hid, horder⟩
    exact ⟨item, hitem, by rw [horder, Option.map_some, hid]⟩

/-- An item gets an order with a permit only. -/
theorem Change.bonds (h : Change permit fresh w w') :
    ∀ b ∈ w'.bonds, b ∈ w.bonds ∨ permit.bond b := by
  intro b hb
  obtain ⟨later, hlater, hid, horder⟩ := mem_bonds.mp hb
  rcases h.items.1 later hlater with ⟨-, hnone⟩ | ⟨item, hitem, hfollows⟩
  · rw [hnone] at horder
    cases horder
  · rcases hfollows.order b.2 horder with hold | hbond
    · exact Or.inl (mem_bonds.mpr ⟨item, hitem, hfollows.id.symm.trans hid, hold⟩)
    · rw [← hfollows.id, hid] at hbond
      exact Or.inr hbond

theorem Changes.bonds (h : Changes permit fresh w w') :
    ∀ b ∈ w'.bonds, b ∈ w.bonds ∨ permit.bond b := by
  induction h with
  | refl => exact fun b hb ↦ Or.inl hb
  | tail _ hchange ih =>
    intro b hb
    rcases hchange.bonds b hb with hb | hb
    · exact ih b hb
    · exact Or.inr hb

/-- A recognition that was made stays made, while the item is there. -/
theorem Change.attempted (h : Change permit fresh w w') {itemId : Id}
    (hattempted : w.Attempted itemId) :
    w'.Attempted itemId ∨ w'.Forgotten itemId := by
  obtain ⟨item, hitem, rfl, hstarted⟩ := hattempted
  rcases h.items.2 item hitem with ⟨later, hlater, hfollows⟩ | hforgotten
  · exact Or.inl ⟨later, hlater, hfollows.id, hfollows.started hstarted⟩
  · exact Or.inr hforgotten

/-! ### The evolution of a run -/

/-- How a run may evolve: it keeps what it was queued for, up to the loss of its item, and once
ended it stays ended. -/
structure Continues (permit : Permit) (run later : AgentRun) : Prop where
  id : later.id = run.id
  reply : later.reply = run.reply
  config : later.config = run.config ∨
    later.config = { run.config with sourceDeleted := true }
  item : later.workItemId = run.workItemId ∨
    later.workItemId = none ∧ later.config.sourceDeleted = true
  deleted : later.config.sourceDeleted = true → run.config.sourceDeleted = true ∨
    ¬ later.status.IsOpen
  ended : ¬ run.status.IsOpen → ¬ later.status.IsOpen
  plan : later.generatedPlanId = run.generatedPlanId ∨ permit.plan

theorem Continues.refl (run : AgentRun) : Continues permit run run :=
  ⟨rfl, rfl, Or.inl rfl, Or.inl rfl, Or.inl, fun h ↦ h, Or.inl rfl⟩

theorem mem_setRun {id : Id} {change : AgentRun → AgentRun}
    {hid : ∀ run, (change run).id = run.id} {later : AgentRun} :
    later ∈ (w.setRun id change hid).runs.rows ↔
      ∃ run ∈ w.runs.rows, (if run.id = id then change run else run) = later := by
  change later ∈ (w.runs.update id change hid).rows ↔ _
  exact Table.mem_update w.runs

/-- A run as the removal of a screenshot leaves it. -/
theorem mem_runs_removeScreenshot {attachmentId : Id} {later : AgentRun} :
    later ∈ (Agent.removeScreenshot attachmentId w).runs.rows ↔ ∃ run ∈ w.runs.rows,
      { run with
        config :=
          if run.workItemId.any (· ∈ itemsOf w attachmentId) then
            { run.config with sourceDeleted := true }
          else run.config
        workItemId := withoutItems (itemsOf w attachmentId) run.workItemId } = later :=
  List.mem_map

theorem isOpen_of_job {run : AgentRun} (hrun : run ∈ w.runs.rows)
    (hidle : ∀ job ∈ w.dispatch.jobs, job.Ended) : ¬ run.status.IsOpen :=
  ended_job_iff.mp (hidle run.job (List.mem_map_of_mem hrun))

/-- Where the runs come from in a change: they are new and queued, or continue. -/
theorem Change.run_origin (h : Change permit fresh w w') :
    ∀ later ∈ w'.runs.rows,
      (permit.queue ∧ fresh later.id ∧ later.id ∉ w.runs.keys ∧ later.status = .queued ∧
        later.generatedPlanId = none ∧ later.config.sourceDeleted = false ∧
        w'.session.status = .active ∧ w.items = w'.items ∧
        (later.config.intakeWorkbench = true →
          ∃ item ∈ w.items.rows, later.workItemId = some item.id)) ∨
        ∃ run ∈ w.runs.rows, Continues permit run later := by
  intro later hlater
  cases h with
  | markRun id change hid hmarks hjob hended hplan =>
    obtain ⟨run, hrun, rfl⟩ := mem_setRun.mp hlater
    refine Or.inr ⟨run, hrun, ?_⟩
    split_ifs with hkey
    · obtain ⟨hid', hkind, hmessage, hitem, hconfig⟩ := hmarks run
      refine ⟨hid', ?_, Or.inl hconfig, Or.inl hitem, ?_, hended run hrun hkey, ?_⟩
      · unfold AgentRun.reply
        rw [hid', hkind, hmessage, hconfig]
      · rw [hconfig]
        exact Or.inl
      · rcases hplan with hplan | hplan
        · exact Or.inl (hplan run)
        · exact Or.inr hplan
    · exact .refl run
  | addRun run runs hinsert hqueue hfresh hstatus htoken hidle hactive hreply hplan hsource hitem =>
    obtain ⟨hkey, hrows⟩ := (Table.insert?_eq_some_iff _ _ _).mp hinsert
    change later ∈ runs.rows at hlater
    rw [hrows] at hlater
    rcases List.mem_append.mp hlater with hlater | hlast
    · exact Or.inr ⟨later, hlater, .refl later⟩
    · obtain rfl := List.mem_singleton.mp hlast
      exact Or.inl ⟨hqueue, hfresh, hkey, hstatus, hplan, hsource, hactive, rfl, hitem⟩
  | removeScreenshot attachmentId hidle =>
    obtain ⟨run, hrun, rfl⟩ := mem_runs_removeScreenshot.mp hlater
    refine Or.inr ⟨run, hrun, rfl, ?_, ?_, ?_, fun _ ↦ Or.inr ?_, fun h ↦ h, Or.inl rfl⟩
    · unfold AgentRun.reply
      split_ifs <;> rfl
    · change (if _ then _ else _) = _ ∨ (if _ then _ else _) = _
      split_ifs
      · exact Or.inr rfl
      · exact Or.inl rfl
    · change withoutItems _ _ = _ ∨ withoutItems _ _ = _ ∧ (ite _ _ _ : RunConfig).sourceDeleted = _
      unfold withoutItems
      cases run.workItemId with
      | none => exact Or.inl rfl
      | some itemId =>
        by_cases hremoved : itemId ∈ itemsOf w attachmentId
        · exact Or.inr ⟨by simp [hremoved], by simp [hremoved]⟩
        · exact Or.inl (by simp [hremoved])
    · exact (isOpen_of_job hrun hidle : ¬ run.status.IsOpen)
  | _ => exact Or.inr ⟨later, hlater, .refl later⟩

/-- A run is never removed. -/
theorem Change.runs_keys (h : Change permit fresh w w') : w.runs.keys ⊆ w'.runs.keys := by
  cases h with
  | markRun id change hid =>
    have hkeys : (w.setRun id change hid).runs.keys = w.runs.keys := Table.keys_update _ _ _ hid
    exact hkeys.symm ▸ List.Subset.refl _
  | addRun run runs hinsert =>
    have hrows := ((Table.insert?_eq_some_iff _ _ _).mp hinsert).2
    intro id hid
    unfold Table.keys
    rw [hrows, List.map_append]
    exact List.mem_append_left _ hid
  | removeScreenshot attachmentId =>
    have hkeys : (Agent.removeScreenshot attachmentId w).runs.keys = w.runs.keys := by
      unfold Table.keys Agent.removeScreenshot
      rw [Table.rows_mapRows, List.map_map]
      rfl
    exact hkeys.symm ▸ List.Subset.refl _
  | _ => exact List.Subset.refl _

/-! ### Identifiers in use -/

/-- The identifiers of the runs, items, messages and tool calls of a session. -/
def Uses (w : Workspace) (id : Id) : Prop :=
  id ∈ w.runs.keys ∨ id ∈ w.items.keys ∨ id ∈ w.messages.map ChatMessage.id ∨ id ∈ w.toolCalls.keys

/-- An identifier that a session uses is fresh, or was used before. -/
theorem Change.uses (h : Change permit fresh w w') {id : Id} (hid : w'.Uses id) :
    fresh id ∨ w.Uses id := by
  have hitems : id ∈ w'.items.keys → fresh id ∨ w.Uses id := by
    intro hid
    obtain ⟨later, hlater, rfl⟩ := (Table.mem_keys _).mp hid
    rcases h.items.1 later hlater with ⟨hfresh, -⟩ | ⟨item, hitem, hfollows⟩
    · exact Or.inl hfresh
    · exact Or.inr (Or.inr (Or.inl ((Table.mem_keys _).mpr ⟨item, hitem, hfollows.id.symm⟩)))
  have hruns : id ∈ w'.runs.keys → fresh id ∨ w.Uses id := by
    intro hid
    obtain ⟨later, hlater, rfl⟩ := (Table.mem_keys _).mp hid
    rcases h.run_origin later hlater with ⟨-, hfresh, -⟩ | ⟨run, hrun, hcontinues⟩
    · exact Or.inl hfresh
    · exact Or.inr (Or.inl ((Table.mem_keys _).mpr ⟨run, hrun, hcontinues.id.symm⟩))
  have hmessages : id ∈ w'.messages.map ChatMessage.id → fresh id ∨ w.Uses id := by
    intro hid
    cases h with
    | post message _ _ _ _ _ hfresh =>
      change id ∈ (w.messages ++ [message]).map ChatMessage.id at hid
      rw [List.map_append, List.mem_append] at hid
      rcases hid with hid | hlast
      · exact Or.inr (Or.inr (Or.inr (Or.inl hid)))
      · rw [List.map_singleton, List.mem_singleton] at hlast
        exact Or.inl (hlast ▸ hfresh)
    | removeScreenshot attachmentId =>
      refine Or.inr (Or.inr (Or.inr (Or.inl ?_)))
      simpa [Agent.removeScreenshot] using hid
    | _ => exact Or.inr (Or.inr (Or.inr (Or.inl hid)))
  have hcalls : id ∈ w'.toolCalls.keys → fresh id ∨ w.Uses id := by
    intro hid
    cases h with
    | addToolCall toolCall toolCalls hinsert hfresh =>
      have hrows := ((Table.insert?_eq_some_iff _ _ _).mp hinsert).2
      obtain ⟨later, hlater, rfl⟩ := (Table.mem_keys _).mp hid
      change later ∈ toolCalls.rows at hlater
      rw [hrows] at hlater
      rcases List.mem_append.mp hlater with hlater | hlast
      · exact Or.inr (Or.inr (Or.inr (Or.inr ((Table.mem_keys _).mpr ⟨later, hlater, rfl⟩))))
      · rw [List.mem_singleton.mp hlast]
        exact Or.inl hfresh
    | setToolCall callId change hcallId =>
      have hkeys : (w.setToolCall callId change hcallId).toolCalls.keys = w.toolCalls.keys :=
        Table.keys_update _ _ _ hcallId
      rw [hkeys] at hid
      exact Or.inr (Or.inr (Or.inr (Or.inr hid)))
    | _ => exact Or.inr (Or.inr (Or.inr (Or.inr hid)))
  rcases hid with hid | hid | hid | hid
  · exact hruns hid
  · exact hitems hid
  · exact hmessages hid
  · exact hcalls hid

theorem Changes.uses (h : Changes permit fresh w w') {id : Id} (hid : w'.Uses id) :
    fresh id ∨ w.Uses id := by
  induction h with
  | refl => exact Or.inr hid
  | tail _ hchange ih =>
    rcases hchange.uses hid with hfresh | hid
    · exact Or.inl hfresh
    · exact ih hid

/-! ### Open runs of active sessions -/

/-- No run is open. -/
def Idle (w : Workspace) : Prop := ∀ job ∈ w.dispatch.jobs, job.Ended

/-- A run is open in an active session only. -/
def Attended (w : Workspace) : Prop := w.Idle ∨ w.session.status = .active

theorem Change.attended (h : Change permit fresh w w') (hruns : ¬ permit.runs)
    (hstatus : ¬ permit.status) (hattended : w.Attended) : w'.Attended := by
  rcases hattended with hidle | hactive
  · cases h with
    | addRun _ _ _ _ _ _ _ _ hactive => exact Or.inr hactive
    | markRun id change hid hmarks hjob =>
      have hjobs : (w.setRun id change hid).dispatch.jobs = w.dispatch.jobs :=
        Table.map_update _ _ _ hid (hjob.resolve_right hruns)
      refine Or.inl ?_
      unfold Idle
      rw [hjobs]
      exact hidle
    | removeScreenshot attachmentId =>
      have hjobs : (Agent.removeScreenshot attachmentId w).dispatch.jobs = w.dispatch.jobs :=
        congrArg Dispatch.jobs (dispatch_removeScreenshot attachmentId)
      refine Or.inl ?_
      unfold Idle
      rw [hjobs]
      exact hidle
    | _ => exact Or.inl hidle
  · exact Or.inr ((h.status_eq hstatus).trans hactive)

theorem Changes.attended (h : Changes permit fresh w w') (hruns : ¬ permit.runs)
    (hstatus : ¬ permit.status) (hattended : w.Attended) : w'.Attended := by
  induction h with
  | refl => exact hattended
  | tail _ hchange ih => exact hchange.attended hruns hstatus ih

/-! ### Chains of changes -/

section Chains

variable {w₁ : Workspace}

theorem Changes.mono (hfresh : ∀ id, fresh id → fresh' id) (h : Changes permit fresh w w') :
    Changes permit fresh' w w' := by
  refine Relation.ReflTransGen.mono ?_ _ _ h
  intro a b hchange
  cases hchange with
  | append actor call kind payload refs hmessage hending hfailed =>
    exact .append a actor call kind payload refs hmessage hending hfailed
  | post message actor call kind payload refs hid hnew hseq hrefs hkind hanswer hletter =>
    exact .post a message actor call kind payload refs (hfresh _ hid) hnew hseq hrefs hkind hanswer
      hletter
  | revise => exact .revise a
  | setState state hworkbench => exact .setState a state hworkbench
  | setPlan id hplan => exact .setPlan a id hplan
  | enter status archivedAt deletionRequestedAt hstatus hclosing =>
    exact .enter a status archivedAt deletionRequestedAt hstatus hclosing
  | editItem id change hid hedits => exact .editItem a id change hid hedits
  | bind id orderId hbond => exact .bind a id orderId hbond
  | unbind kept => exact .unbind a kept
  | activate item hitem hphase hnone hunarchived hpick hwork =>
    exact .activate a item hitem hphase hnone hunarchived hpick hwork
  | release item hitem hcurrent status hstatus hpick hwork =>
    exact .release a item hitem hcurrent status hstatus hpick hwork
  | close item hitem hphase => exact .close a item hitem hphase
  | markRun id change hid hmarks hjob hended hplan =>
    exact .markRun a id change hid hmarks hjob hended hplan
  | addRun run runs hinsert hqueue hid hstatus htoken hidle hactive hreply hplan hsource hitem =>
    exact .addRun a run runs hinsert hqueue (hfresh _ hid) hstatus htoken hidle hactive hreply hplan
      hsource hitem
  | addItem item items hinsert hid hstatus horder hwork =>
    exact .addItem a item items hinsert (hfresh _ hid) hstatus horder hwork
  | setAttachment id change hid harchived hstored =>
    exact .setAttachment a id change hid harchived hstored
  | shelve attachments hopen hwork hstored => exact .shelve a attachments hopen hwork hstored
  | removeScreenshot attachmentId hidle hopen hpick hfiles =>
    exact .removeScreenshot a attachmentId hidle hopen hpick hfiles
  | addToolCall toolCall toolCalls hinsert hid hstatus hrun hkey =>
    exact .addToolCall a toolCall toolCalls hinsert (hfresh _ hid) hstatus hrun hkey
  | setToolCall id change hid hsame hstarted habandoned =>
    exact .setToolCall a id change hid hsame hstarted habandoned

/-- An event that reports no end of a run and no failed recognition, and carries no message. -/
theorem Changes.appendBy (h : Changes permit fresh w w₁) (actor : Actor) (call : Call)
    {kind : EventKind} (payload : Payload) {refs : References} (hmessage : refs.messageId = none)
    (hplain : kind.Plain) : Changes permit fresh w (w₁.appendBy actor call kind payload refs) :=
  .tail h (.append w₁ actor call kind payload refs hmessage (Or.inl hplain.1)
    fun hfailed ↦ absurd hfailed hplain.2)

theorem Changes.append (h : Changes permit fresh w w₁) (call : Call) {kind : EventKind}
    (payload : Payload) {refs : References} (hmessage : refs.messageId = none)
    (hplain : kind.Plain) : Changes permit fresh w (w₁.append call kind payload refs) :=
  h.appendBy .system call payload hmessage hplain

theorem Changes.announce (h : Changes permit fresh w w₁) (call : Call) :
    Changes permit fresh w (w₁.announce call) :=
  h.append call _ rfl (by decide)

theorem Changes.revise (h : Changes permit fresh w w₁) : Changes permit fresh w w₁.revise :=
  .tail h (.revise w₁)

/-- The event that reports the end of a run, when runs may end. -/
theorem Changes.report (h : Changes permit fresh w w₁) (hruns : permit.runs) (call : Call)
    {kind : EventKind} (payload : Payload) {refs : References}
    (hmessage : refs.messageId = none) (hkind : kind ≠ .recognitionFailed) :
    Changes permit fresh w (w₁.append call kind payload refs) :=
  .tail h (.append w₁ .system call kind payload refs hmessage (Or.inr hruns)
    fun hfailed ↦ absurd hfailed hkind)

theorem Changes.editItem (h : Changes permit fresh w w₁) (id : Id)
    (change : OrderIntakeItem → OrderIntakeItem) (hid : ∀ item, (change item).id = item.id)
    (hedits : ∀ item : OrderIntakeItem, item.Edits (change item)) :
    Changes permit fresh w (w₁.setItem id change hid) :=
  .tail h (.editItem w₁ id change hid hedits)

theorem Changes.reviseItem (h : Changes permit fresh w w₁) (id : Id) :
    Changes permit fresh w (w₁.reviseItem id) :=
  h.editItem id _ _ fun _ ↦ ⟨rfl, rfl, rfl, rfl, fun h ↦ h⟩

end Chains

end Workspace

end FilmOS.Agent
