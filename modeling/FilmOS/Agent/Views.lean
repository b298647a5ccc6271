import FilmOS.Agent.Items
import FilmOS.Agent.Screenshots
import FilmOS.Agent.Sessions
import FilmOS.Agent.Tools
import FilmOS.Library.Dispatch
import FilmOS.Library.Desk
import FilmOS.Library.Inbox

/-!
# What a session is about

A session is three things at once: a dispatcher of runs, a desk with work items, and an inbox of
messages. `View` is the product of the three abstract components, with the revision of the session
and the orders that its items were turned into; `Workspace.view` reads it off the rows.

Every primitive change of a workspace is a change of its view, or none. The simp lemmas below say
which, so the view after an operation is computed from the view before it.
-/

set_option autoImplicit false
set_option relaxedAutoImplicit false

namespace FilmOS.Agent

/-! ### Runs as jobs -/

/-- How a run ended. -/
inductive RunEnd
  | succeeded
  | failed
  | cancelled
deriving DecidableEq, Repr

/-- The runs that leave an answer. -/
def RunEnd.answered (outcome : RunEnd) : Bool := outcome = .succeeded

def RunStatus.stage : RunStatus → Stage RunEnd
  | .queued => .queued
  | .running => .leased
  | .succeeded => .ended .succeeded
  | .failed => .ended .failed
  | .cancelled => .ended .cancelled

/-- A run as a job. -/
def AgentRun.job (run : AgentRun) : Job Id Id RunEnd := ⟨run.id, run.status.stage, run.leaseToken⟩

/-- The end that an event of this kind reports. -/
@[simp] def EventKind.ending : EventKind → Option RunEnd
  | .runSucceeded => some .succeeded
  | .runFailed => some .failed
  | .runCancelled => some .cancelled
  | _ => none

/-- The end of a run that an event reports. -/
def SessionEvent.ending (event : SessionEvent) : Option (Id × RunEnd) :=
  event.kind.ending.bind (fun outcome ↦ event.refs.runId.map (·, outcome))

/-- The run that a message answers for. -/
def ChatMessage.answer (message : ChatMessage) : Option Id :=
  if message.origin = .agent then message.runId else none

/-- The runs of a session, their terminal events, and the answers of the assistant. -/
def Workspace.dispatch (w : Workspace) : Dispatch Id Id RunEnd where
  jobs := w.runs.rows.map AgentRun.job
  endings := w.events.filterMap SessionEvent.ending
  answers := w.messages.filterMap ChatMessage.answer

theorem ended_job_iff {run : AgentRun} : run.job.Ended ↔ ¬ run.status.IsOpen := by
  unfold Job.Ended AgentRun.job RunStatus.IsOpen
  cases run.status <;> simp [RunStatus.stage]

/-! ### Work items as cases -/

/-- Where a work item comes from: its message, its screenshot, and its place in the queue. -/
structure ItemOrigin where
  messageId : Id
  attachmentId : Id
  position : ℤ
  index : ℕ
deriving DecidableEq

/-- How a work item ended. -/
inductive ItemEnd
  | created
  | closed
deriving DecidableEq, Repr

def ItemStatus.phase : ItemStatus → Phase ItemEnd
  | .pending => .waiting
  | .active => .inHand
  | .deferred => .waiting
  | .created => .settled .created
  | .closed => .settled .closed

def OrderIntakeItem.origin (item : OrderIntakeItem) : ItemOrigin :=
  ⟨item.sourceMessageId, item.sourceAttachmentId, item.queuePosition, item.sourceOrderIndex⟩

/-- A work item as a case. -/
def OrderIntakeItem.case (item : OrderIntakeItem) : Case Id ItemOrigin ItemEnd :=
  ⟨item.id, item.status.phase, item.origin⟩

/-- The screenshot of an origin is archived. -/
def Workspace.shelved (w : Workspace) (origin : ItemOrigin) : Prop :=
  (w.attachments.find? origin.attachmentId).any (·.intakeArchivedAt.isSome)

/-- The items of a session, the pointer to the active one, and the archived screenshots. -/
def Workspace.desk (w : Workspace) : Desk Id ItemOrigin ItemEnd where
  cases := w.items.rows.map OrderIntakeItem.case
  current := w.session.activeWorkItemId
  shelved := w.shelved

/-- The orders that the items were turned into. -/
def Workspace.bonds (w : Workspace) : List (Id × Id) :=
  w.items.rows.filterMap (fun item ↦ item.orderId.map (item.id, ·))

/-! ### Messages as letters -/

/-- An accepted message as a letter: its request, and the number of its event. -/
def ChatMessage.letter (message : ChatMessage) :
    Option (Letter String Id (Option MessageRequest × ℕ)) :=
  message.clientMessageId.map (⟨·, message.id, message.requestHash, message.eventSeq⟩)

/-- The run that a message triggered as its reply, with the revision that was answered. -/
def AgentRun.reply (run : AgentRun) : Option (Id × Id × Option ℕ) :=
  if run.triggerKind = .message then
    run.triggerMessageId.map (·, run.id, run.config.acceptedStateRevision)
  else none

/-- The accepted messages, and the runs that were queued to answer them. -/
def Workspace.inbox (w : Workspace) :
    Inbox String Id (Option MessageRequest × ℕ) (Id × Option ℕ) where
  letters := w.messages.filterMap ChatMessage.letter
  replies := w.runs.rows.filterMap AgentRun.reply

/-! ### The view -/

/-- The abstract state of a session: whose it is, its revision, and its three components. -/
structure View where
  owner : Id × Id × AgentType
  revision : ℕ
  dispatch : Dispatch Id Id RunEnd
  desk : Desk Id ItemOrigin ItemEnd
  inbox : Inbox String Id (Option MessageRequest × ℕ) (Id × Option ℕ)
  bonds : List (Id × Id)

def Workspace.view (w : Workspace) : View where
  owner := (w.session.id, w.session.userId, w.session.agentType)
  revision := w.session.stateRevision
  dispatch := w.dispatch
  desk := w.desk
  inbox := w.inbox
  bonds := w.bonds

namespace View

/-- A change of the desk. -/
def onDesk (change : Desk Id ItemOrigin ItemEnd → Desk Id ItemOrigin ItemEnd) (v : View) : View :=
  { v with desk := change v.desk }

/-- A change of the dispatcher. -/
def onDispatch (change : Dispatch Id Id RunEnd → Dispatch Id Id RunEnd) (v : View) : View :=
  { v with dispatch := change v.dispatch }

/-- The end of a run is reported, if any. -/
def report (ending : Option (Id × RunEnd)) (v : View) : View :=
  v.onDispatch (fun d ↦ { d with endings := d.endings ++ ending.toList })

theorem report_none (v : View) : v.report none = v := by
  unfold report onDispatch
  simp

end View

/-! ### Primitive changes -/

namespace Workspace

variable (w : Workspace) (call : Call)

/-- An event records the end that it reports, if any. -/
theorem view_appendBy_ending (actor : Actor) (kind : EventKind) (payload : Payload)
    (refs : References) :
    (w.appendBy actor call kind payload refs).view = w.view.report
      (kind.ending.bind (fun outcome ↦ refs.runId.map (·, outcome))) := by
  have hendings : (w.appendBy actor call kind payload refs).dispatch.endings =
      w.dispatch.endings ++
        (kind.ending.bind (fun outcome ↦ refs.runId.map (·, outcome))).toList := by
    unfold dispatch appendBy
    rw [List.filterMap_append, List.filterMap_cons, List.filterMap_nil]
    unfold SessionEvent.ending
    cases kind.ending.bind (fun outcome ↦ refs.runId.map (·, outcome)) <;> rfl
  exact congrArg (fun endings ↦ { w.view with dispatch := { w.dispatch with endings } }) hendings

/-- An event that reports no end is not seen. -/
@[simp] theorem view_appendBy (actor : Actor) {kind : EventKind} (payload : Payload)
    (refs : References) (hkind : kind.ending = none) :
    (w.appendBy actor call kind payload refs).view = w.view := by
  rw [view_appendBy_ending, hkind]
  exact View.report_none w.view

@[simp] theorem view_append {kind : EventKind} (payload : Payload) (refs : References)
    (hkind : kind.ending = none) : (w.append call kind payload refs).view = w.view :=
  view_appendBy w call .system payload refs hkind

@[simp] theorem view_announce : (w.announce call).view = w.view :=
  view_append w call _ _ rfl

@[simp] theorem view_setState (state : SessionState) : (w.setState state).view = w.view := rfl

@[simp] theorem view_setPlan (id : Option Id) : (w.setPlan id).view = w.view := rfl

@[simp] theorem view_setToolCall (id : Id) (change : AgentToolCall → AgentToolCall)
    (hid : ∀ toolCall, (change toolCall).id = toolCall.id) :
    (w.setToolCall id change hid).view = w.view := rfl

@[simp] theorem view_abandonCalls (runId : Id) (code : String) :
    (w.abandonCalls call runId code).view = w.view := by
  unfold abandonCalls
  generalize w.toolCalls.rows.filter _ = toolCalls
  induction toolCalls generalizing w with
  | nil => rfl
  | cons toolCall toolCalls ih =>
    rw [List.foldl_cons, ih, view_append _ _ _ _ rfl, view_setToolCall]

/-! ### Added rows -/

variable {w} in
theorem addRun_ok {run : AgentRun} {w' : Workspace} (h : w.addRun run = .ok w') :
    ∃ runs : Table AgentRun, run.id ∉ w.runs.keys ∧ runs.rows = w.runs.rows ++ [run] ∧
      w' = { w with runs } := by
  unfold addRun at h
  split at h
  · next runs hinsert =>
    obtain ⟨hkey, hrows⟩ := (Table.insert?_eq_some_iff _ _ _).mp hinsert
    exact ⟨runs, hkey, hrows, (Except.ok.inj h).symm⟩
  · cases h

variable {w} in
theorem addItem_ok {item : OrderIntakeItem} {w' : Workspace} (h : w.addItem item = .ok w') :
    ∃ items : Table OrderIntakeItem, item.id ∉ w.items.keys ∧
      items.rows = w.items.rows ++ [item] ∧ w' = { w with items } := by
  unfold addItem at h
  split at h
  · next items hinsert =>
    obtain ⟨hkey, hrows⟩ := (Table.insert?_eq_some_iff _ _ _).mp hinsert
    exact ⟨items, hkey, hrows, (Except.ok.inj h).symm⟩
  · cases h

variable {w} in
/-- A new screenshot that is not archived is not seen. -/
theorem view_addAttachment {attachment : ChatAttachment} {w' : Workspace}
    (h : w.addAttachment attachment = .ok w') (harchived : attachment.intakeArchivedAt = none) :
    w'.view = w.view := by
  unfold addAttachment at h
  split at h
  · next attachments hinsert =>
    obtain rfl := Except.ok.inj h
    have hshelved : ({ w with attachments } : Workspace).shelved = w.shelved := by
      funext origin
      obtain ⟨hkey, -⟩ := (Table.insert?_eq_some_iff _ _ _).mp hinsert
      unfold shelved
      rw [Table.find?_insert? hinsert]
      split_ifs with hid
      · have hnone : w.attachments.find? origin.attachmentId = none := by
          rw [Table.find?_eq_none_iff]
          intro row hrow hrowId
          exact hkey ((Table.mem_keys _).mpr ⟨row, hrow, hrowId.trans hid.symm⟩)
        simp [hnone, harchived]
      · rfl
    exact congrArg (fun shelved ↦ { w.view with desk := { w.desk with shelved } }) hshelved
  · cases h

/-! ### Changes of items -/

/-- A change of an item that keeps its status can be seen in its order only. -/
theorem view_setItem_case (id : Id) {change : OrderIntakeItem → OrderIntakeItem}
    (hid : ∀ item, (change item).id = item.id) (hcase : ∀ item, (change item).case = item.case) :
    (w.setItem id change hid).view = { w.view with bonds := (w.setItem id change hid).bonds } := by
  have hdesk : (w.setItem id change hid).desk = w.desk := by
    unfold desk setItem
    rw [Table.map_update _ _ _ hid hcase]
    rfl
  exact congrArg (fun desk ↦ { w.view with desk, bonds := (w.setItem id change hid).bonds }) hdesk

/-- A change of an item that keeps its status and its order is not seen. -/
theorem view_setItem (id : Id) {change : OrderIntakeItem → OrderIntakeItem}
    (hid : ∀ item, (change item).id = item.id) (hcase : ∀ item, (change item).case = item.case)
    (horder : ∀ item, (change item).orderId = item.orderId) :
    (w.setItem id change hid).view = w.view := by
  have hbonds : (w.setItem id change hid).bonds = w.bonds :=
    Table.filterMap_update _ _ _ hid fun item ↦ by rw [horder, hid]
  rw [view_setItem_case w id hid hcase, hbonds]
  rfl

@[simp] theorem view_reviseItem (id : Id) : (w.reviseItem id).view = w.view :=
  view_setItem w id _ (fun _ ↦ rfl) (fun _ ↦ rfl)

@[simp] theorem view_setItemStatus (id : Id) (status : ItemStatus) :
    (w.setItemStatus id status).view = w.view.onDesk (Desk.setPhase id status.phase) := by
  have hdesk : (w.setItemStatus id status).desk = w.desk.setPhase id status.phase := by
    unfold desk Desk.setPhase setItemStatus setItem
    rw [Table.rows_update, List.map_map, List.map_map]
    congr 1
    refine List.map_congr_left fun item _ ↦ ?_
    by_cases hitem : item.id = id
    · simp [hitem, OrderIntakeItem.case, OrderIntakeItem.origin]
    · simp [hitem, OrderIntakeItem.case]
  have hbonds : (w.setItemStatus id status).bonds = w.bonds := by
    refine Table.filterMap_update (fun item : OrderIntakeItem ↦ item.orderId.map (item.id, ·))
      w.items id ?_ ?_ <;> exact fun _ ↦ rfl
  unfold view View.onDesk
  rw [hdesk, hbonds]
  rfl

@[simp] theorem view_activate (id : Id) :
    (w.activate id).view = w.view.onDesk (Desk.take id) := by
  have h := view_setItemStatus w id .active
  unfold activate
  change { (w.setItemStatus id .active).view with
    desk := { (w.setItemStatus id .active).desk with current := some id } } = _
  rw [show (w.setItemStatus id .active).desk = (w.setItemStatus id .active).view.desk from rfl, h]
  rfl

@[simp] theorem view_release (id : Id) (status : ItemStatus) :
    (w.release id status).view = w.view.onDesk (Desk.release id status.phase) := by
  have h := view_setItemStatus w id status
  unfold release
  change { (w.setItemStatus id status).view with
    desk := { (w.setItemStatus id status).desk with current := none } } = _
  rw [show (w.setItemStatus id status).desk = (w.setItemStatus id status).view.desk from rfl, h]
  rfl

/-- A new item that waits and has no order. -/
theorem view_addItem {item : OrderIntakeItem} {w' : Workspace} (h : w.addItem item = .ok w')
    (hstatus : item.status = .pending) (horder : item.orderId = none) :
    item.id ∉ w.desk.cases.map Case.id ∧
      w'.view = w.view.onDesk (Desk.add item.id item.origin) := by
  obtain ⟨items, hkey, hrows, rfl⟩ := addItem_ok h
  have hdesk : ({ w with items } : Workspace).desk = w.desk.add item.id item.origin := by
    unfold desk Desk.add
    rw [hrows, List.map_append]
    simp only [OrderIntakeItem.case, hstatus, ItemStatus.phase, List.map_cons, List.map_nil]
    rfl
  have hbonds : ({ w with items } : Workspace).bonds = w.bonds := by
    unfold bonds
    rw [hrows, List.filterMap_append]
    simp [horder]
  refine ⟨?_, ?_⟩
  · unfold desk
    rw [List.map_map]
    exact hkey
  · exact congrArg₂ (fun desk bonds ↦ { w.view with desk, bonds }) hdesk hbonds

/-! ### Changes of runs -/

/-- A run gets another stage and token. -/
theorem view_setRun_stage (id : Id) (change : AgentRun → AgentRun)
    (hid : ∀ run, (change run).id = run.id) (stage : Stage RunEnd) (token : Option Id)
    (hjob : ∀ run, (change run).job = ⟨run.id, stage, token⟩)
    (hreply : ∀ run, (change run).reply = run.reply) :
    (w.setRun id change hid).view = w.view.onDispatch (Dispatch.setJob id stage token) := by
  have hdispatch : (w.setRun id change hid).dispatch = w.dispatch.setJob id stage token := by
    unfold dispatch setRun Dispatch.setJob
    rw [Table.rows_update, List.map_map, List.map_map]
    congr 1
    refine List.map_congr_left fun run _ ↦ ?_
    change (if run.id = id then change run else run).job =
      if run.id = id then ⟨id, stage, token⟩ else run.job
    by_cases hrun : run.id = id
    · rw [if_pos hrun, if_pos hrun, hjob, hrun]
    · rw [if_neg hrun, if_neg hrun]
  have hinbox : (w.setRun id change hid).inbox = w.inbox := by
    unfold inbox setRun
    rw [Table.filterMap_update _ _ _ hid hreply]
  unfold view View.onDispatch
  rw [hdispatch, hinbox]
  rfl

/-- A new run is queued, and is the reply to the message that triggered it, if any. -/
theorem view_addRun {run : AgentRun} {w' : Workspace} (h : w.addRun run = .ok w')
    (hstatus : run.status = .queued) (htoken : run.leaseToken = none) :
    run.id ∉ w.dispatch.jobs.map Job.id ∧
      w'.view = { w.view.onDispatch (Dispatch.queue run.id) with
        inbox := { w.inbox with replies := w.inbox.replies ++ run.reply.toList } } := by
  obtain ⟨runs, hkey, hrows, rfl⟩ := addRun_ok h
  have hdispatch : ({ w with runs } : Workspace).dispatch = w.dispatch.queue run.id := by
    unfold dispatch Dispatch.queue
    rw [hrows, List.map_append]
    simp [AgentRun.job, hstatus, htoken, RunStatus.stage]
  have hinbox : ({ w with runs } : Workspace).inbox =
      { w.inbox with replies := w.inbox.replies ++ run.reply.toList } := by
    unfold inbox
    rw [hrows, List.filterMap_append]
    cases hreply : run.reply <;> simp [hreply]
  refine ⟨?_, ?_⟩
  · unfold dispatch
    rw [List.map_map]
    exact hkey
  · exact congrArg₂ (fun dispatch inbox ↦ { w.view with dispatch, inbox }) hdispatch hinbox

/-! ### Messages -/

/-- A message may be an answer or a letter. -/
theorem view_addMessage (message : ChatMessage) :
    (w.addMessage message).view =
      { w.view with
        dispatch := { w.dispatch with answers := w.dispatch.answers ++ message.answer.toList }
        inbox := { w.inbox with letters := w.inbox.letters ++ message.letter.toList } } := by
  have hdispatch : (w.addMessage message).dispatch =
      { w.dispatch with answers := w.dispatch.answers ++ message.answer.toList } := by
    unfold dispatch addMessage
    rw [List.filterMap_append]
    cases hanswer : message.answer <;> simp [hanswer]
  have hinbox : (w.addMessage message).inbox =
      { w.inbox with letters := w.inbox.letters ++ message.letter.toList } := by
    unfold inbox addMessage
    rw [List.filterMap_append]
    cases hletter : message.letter <;> simp [hletter]
  exact congrArg₂ (fun dispatch inbox ↦ { w.view with dispatch, inbox }) hdispatch hinbox

/-! ### Screenshots -/

/-- A change of a screenshot that leaves it archived or not, as it was, is not seen. -/
theorem view_setAttachment (id : Id) {change : ChatAttachment → ChatAttachment}
    (hid : ∀ attachment, (change attachment).id = attachment.id)
    (harchived : ∀ attachment,
      (change attachment).intakeArchivedAt = attachment.intakeArchivedAt) :
    (w.setAttachment id change hid).view = w.view := by
  have hshelved : (w.setAttachment id change hid).shelved = w.shelved := by
    funext origin
    unfold shelved setAttachment
    rw [Table.find?_update _ id change hid]
    cases w.attachments.find? origin.attachmentId with
    | none => rfl
    | some attachment =>
      simp only [Option.map_some, Option.any_some]
      split_ifs
      · rw [harchived]
      · rfl
  exact congrArg (fun shelved ↦ { w.view with desk := { w.desk with shelved } }) hshelved

end Workspace

end FilmOS.Agent
