import FilmOS.Agent.Changes

/-!
# Invariants of the rows of a session

Three invariants that every single change keeps, and so every operation. The log of a session is
numbered without gaps, and every message is carried by one event (`Logged`). The failure of a
recognition is recorded only for an item on which a recognition was made, and a run of the
recognition queue has its item as long as its screenshot is there (`Traced`). A call key of a run
has one receipt, and a receipt is given up only after its run has ended (`Receipts`).

The screenshots that wait for recognition (`awaiting`) get fewer in every change without a permit
for new work.
-/

set_option autoImplicit false
set_option relaxedAutoImplicit false

namespace FilmOS.Agent.Workspace

variable {permit : Permit} {fresh : Id → Prop} {w w' : Workspace}

/-! ### The log -/

/-- The events of a session are numbered from one on, and every message has the number of the one
event that carries its identifier. -/
structure Logged (w : Workspace) : Prop where
  seqs : w.events.map SessionEvent.seq = List.range' 1 w.session.lastEventSeq
  message_ids : (w.messages.map ChatMessage.id).Nodup
  posted : ∀ message ∈ w.messages, ∃ event,
    w.events.filter (fun event ↦ event.refs.messageId = some message.id) = [event] ∧
      event.seq = message.eventSeq ∧
      (event.kind = .messageAccepted ∨ event.kind = .messageCompleted)
  carried : ∀ event ∈ w.events, ∀ id ∈ event.refs.messageId, id ∈ w.messages.map ChatMessage.id

theorem Logged.append (h : w.Logged) (actor : Actor) (call : Call) (kind : EventKind)
    (payload : Payload) {refs : References} (hmessage : refs.messageId = none) :
    (w.appendBy actor call kind payload refs).Logged where
  seqs := by
    change (w.events ++ [_]).map SessionEvent.seq = List.range' 1 (w.session.lastEventSeq + 1)
    rw [List.map_append, h.seqs, List.range'_concat, Nat.one_mul, Nat.add_comm 1]
    rfl
  message_ids := h.message_ids
  posted := by
    intro message hmem
    obtain ⟨event, hfilter, hevent⟩ := h.posted message hmem
    refine ⟨event, ?_, hevent⟩
    change (w.events ++ [_]).filter _ = _
    rw [List.filter_append, hfilter]
    simp [hmessage]
  carried := by
    intro event hevent id hid
    rcases List.mem_append.mp hevent with hevent | hlast
    · exact h.carried event hevent id hid
    · rw [List.mem_singleton.mp hlast, hmessage] at hid
      cases hid

theorem Logged.post (h : w.Logged) {message : ChatMessage} (actor : Actor) (call : Call)
    {kind : EventKind} (payload : Payload) {refs : References}
    (hnew : message.id ∉ w.messages.map ChatMessage.id)
    (hseq : message.eventSeq = w.session.lastEventSeq + 1)
    (hrefs : refs.messageId = some message.id)
    (hkind : kind = .messageAccepted ∨ kind = .messageCompleted) :
    ((w.addMessage message).appendBy actor call kind payload refs).Logged where
  seqs := by
    change (w.events ++ [_]).map SessionEvent.seq = List.range' 1 (w.session.lastEventSeq + 1)
    rw [List.map_append, h.seqs, List.range'_concat, Nat.one_mul, Nat.add_comm 1]
    rfl
  message_ids := by
    change ((w.messages ++ [message]).map ChatMessage.id).Nodup
    rw [List.map_append]
    exact h.message_ids.append (List.nodup_singleton _) (by simpa using hnew)
  posted := by
    intro other hother
    rcases List.mem_append.mp hother with hold | hlast
    · obtain ⟨event, hfilter, hevent⟩ := h.posted other hold
      refine ⟨event, ?_, hevent⟩
      change (w.events ++ [_]).filter _ = _
      have hne : message.id ≠ other.id := by
        intro heq
        rw [heq] at hnew
        exact hnew (List.mem_map_of_mem hold)
      rw [List.filter_append, hfilter]
      simp [hrefs, hne]
    · rw [List.mem_singleton.mp hlast]
      refine ⟨⟨w.session.lastEventSeq + 1, kind, payload, actor, refs⟩, ?_, hseq.symm, hkind⟩
      have hnone : w.events.filter (fun event ↦ event.refs.messageId = some message.id) = [] := by
        rw [List.filter_eq_nil_iff]
        intro event hevent heq
        exact hnew (h.carried event hevent message.id (of_decide_eq_true heq))
      change (w.events ++ [_]).filter _ = _
      rw [List.filter_append, hnone]
      simp [hrefs, addMessage]
  carried := by
    intro event hevent id hid
    change id ∈ (w.messages ++ [message]).map ChatMessage.id
    rw [List.map_append, List.mem_append]
    rcases List.mem_append.mp hevent with hevent | hlast
    · exact Or.inl (h.carried event hevent id hid)
    · rw [List.mem_singleton.mp hlast, hrefs] at hid
      exact Or.inr (List.mem_singleton.mpr (Option.some.inj hid).symm)

/-- Every change keeps the log in order. -/
theorem Change.logged (h : Change permit fresh w w') (hlogged : w.Logged) : w'.Logged := by
  cases h with
  | append actor call kind payload refs hmessage =>
    exact hlogged.append actor call kind payload hmessage
  | post message actor call kind payload refs hfresh hnew hseq hrefs hkind =>
    exact hlogged.post actor call payload hnew hseq hrefs hkind
  | removeScreenshot attachmentId =>
    obtain ⟨hseqs, hids, hposted, hcarried⟩ := hlogged
    constructor
    · simpa [Agent.removeScreenshot, Function.comp_def] using hseqs
    · simpa [Agent.removeScreenshot, Function.comp_def] using hids
    · intro message hmessage
      obtain ⟨old, hold, rfl⟩ := List.mem_map.mp hmessage
      obtain ⟨event, hfilter, hseq, hkind⟩ := hposted old hold
      refine ⟨{ event with
        refs := { event.refs with
          workItemId := withoutItems (itemsOf w attachmentId) event.refs.workItemId } },
        ?_, hseq, hkind⟩
      change (w.events.map _).filter _ = [_]
      rw [List.filter_map]
      exact congrArg (List.map _) hfilter
    · intro event hevent id hid
      obtain ⟨old, hold, rfl⟩ := List.mem_map.mp hevent
      simpa [Agent.removeScreenshot, Function.comp_def] using hcarried old hold id hid
  | _ => exact ⟨hlogged.seqs, hlogged.message_ids, hlogged.posted, hlogged.carried⟩

theorem Changes.logged (h : Changes permit fresh w w') (hlogged : w.Logged) : w'.Logged := by
  induction h with
  | refl => exact hlogged
  | tail _ hchange ih => exact hchange.logged ih

/-! ### Failures and sources -/

/-- What can be traced back: a recorded failure to a recognition that was made, and a run of the
recognition queue to its item, unless the screenshot was deleted. -/
structure Traced (w : Workspace) : Prop where
  failures : ∀ event ∈ w.events, event.kind = .recognitionFailed →
    ∀ itemId ∈ event.refs.workItemId, w.Attempted itemId
  workbench : w.session.state.intakeWorkbench = some true → w.session.agentType = .orderIntake
  sources : ∀ run ∈ w.runs.rows, run.config.intakeWorkbench = true →
    run.config.sourceDeleted = false → ∃ item ∈ w.items.rows, run.workItemId = some item.id
  deleted : ∀ run ∈ w.runs.rows, run.config.sourceDeleted = true → ¬ run.status.IsOpen

/-- Where the events come from in a change. A failure is recorded for a recognition that was
made. -/
theorem Change.event_origin (h : Change permit fresh w w') :
    ∀ event ∈ w'.events,
      (∃ old ∈ w.events, old.kind = event.kind ∧
        ∀ itemId ∈ event.refs.workItemId, itemId ∈ old.refs.workItemId) ∨
      (event.kind = .recognitionFailed → ∀ itemId ∈ event.refs.workItemId, w.Attempted itemId) := by
  intro event hevent
  cases h with
  | append actor call kind payload refs hmessage hending hfailed =>
    rcases List.mem_append.mp hevent with hold | hlast
    · exact Or.inl ⟨event, hold, rfl, fun _ h ↦ h⟩
    · rw [List.mem_singleton.mp hlast]
      exact Or.inr hfailed
  | post message actor call kind payload refs _ _ _ _ hkind =>
    rcases List.mem_append.mp hevent with hold | hlast
    · exact Or.inl ⟨event, hold, rfl, fun _ h ↦ h⟩
    · rw [List.mem_singleton.mp hlast]
      refine Or.inr fun hfailed ↦ ?_
      rcases hkind with rfl | rfl <;> cases hfailed
  | removeScreenshot attachmentId =>
    obtain ⟨old, hold, rfl⟩ := List.mem_map.mp hevent
    exact Or.inl ⟨old, hold, rfl, fun itemId h ↦ (Option.filter_eq_some_iff.mp h).1⟩
  | _ => exact Or.inl ⟨event, hevent, rfl, fun _ h ↦ h⟩

/-- Every change keeps what can be traced back. -/
theorem Change.traced (h : Change permit fresh w w') (htraced : w.Traced) : w'.Traced := by
  constructor
  · intro event hevent hkind itemId hitem
    have hattempted : w.Attempted itemId := by
      rcases h.event_origin event hevent with ⟨old, hold, hsame, hitems⟩ | hnew
      · exact htraced.failures old hold (hsame.trans hkind) itemId (hitems itemId hitem)
      · exact hnew hkind itemId hitem
    rcases h.attempted hattempted with hattempted | hforgotten
    · exact hattempted
    · exact absurd hitem (hforgotten.1 event hevent)
  · intro hworkbench
    obtain ⟨-, -, htype⟩ := h.owner
    rw [htype]
    cases h with
    | setState state hstate =>
      rcases hstate with hsame | horders
      · exact htraced.workbench (hsame.symm.trans hworkbench)
      · exact horders
    | _ => exact htraced.workbench hworkbench
  · intro later hlater hworkbench hsource
    rcases h.run_origin later hlater with
      ⟨-, -, -, -, -, -, -, hitems, hitem⟩ | ⟨run, hrun, hcontinues⟩
    · rw [← hitems]
      exact hitem hworkbench
    · have hitem : later.workItemId = run.workItemId := by
        rcases hcontinues.item with hitem | ⟨-, hdeleted⟩
        · exact hitem
        · rw [hsource] at hdeleted
          cases hdeleted
      have hconfig : run.config.intakeWorkbench = true ∧ run.config.sourceDeleted = false := by
        rcases hcontinues.config with hconfig | hconfig
        · rw [← hconfig]
          exact ⟨hworkbench, hsource⟩
        · rw [hconfig] at hsource
          cases hsource
      obtain ⟨item, hmem, hid⟩ := htraced.sources run hrun hconfig.1 hconfig.2
      rcases h.items.2 item hmem with ⟨next, hnext, hfollows⟩ | hforgotten
      · exact ⟨next, hnext, by rw [hitem, hid, hfollows.id]⟩
      · exact absurd (hitem.trans hid) (hforgotten.2 later hlater)
  · intro later hlater hdeleted
    rcases h.run_origin later hlater with
      ⟨-, -, -, -, -, hsource, -⟩ | ⟨run, hrun, hcontinues⟩
    · rw [hsource] at hdeleted
      cases hdeleted
    · rcases hcontinues.deleted hdeleted with hdeleted | hended
      · exact hcontinues.ended (htraced.deleted run hrun hdeleted)
      · exact hended

theorem Changes.traced (h : Changes permit fresh w w') (htraced : w.Traced) : w'.Traced := by
  induction h with
  | refl => exact htraced
  | tail _ hchange ih => exact hchange.traced ih

theorem Changes.runs_keys (h : Changes permit fresh w w') : w.runs.keys ⊆ w'.runs.keys := by
  induction h with
  | refl => exact List.Subset.refl _
  | tail _ hchange ih => exact List.Subset.trans ih hchange.runs_keys

/-- An open run was open before, and keeps its item and its configuration. -/
theorem Changes.open_run (h : Changes permit fresh w w') (htraced : w.Traced) {later : AgentRun}
    (hlater : later ∈ w'.runs.rows) (hopen : later.status.IsOpen) (hold : later.id ∈ w.runs.keys) :
    ∃ run ∈ w.runs.rows, run.id = later.id ∧ run.status.IsOpen ∧
      later.workItemId = run.workItemId ∧ later.config = run.config := by
  induction h generalizing later with
  | refl => exact ⟨later, hlater, rfl, hopen, rfl, rfl⟩
  | @tail u v hchanges hchange ih =>
    have hu : u.Traced := Changes.traced hchanges htraced
    rcases hchange.run_origin later hlater with ⟨-, -, hnew, -⟩ | ⟨run, hrun, hcontinues⟩
    · exact absurd (Changes.runs_keys hchanges hold) hnew
    · have hrunOpen : run.status.IsOpen := by
        by_contra hended
        exact hcontinues.ended hended hopen
      have hkept : ¬ later.config.sourceDeleted = true := by
        intro hdeleted
        rcases hcontinues.deleted hdeleted with hbefore | hended
        · exact hu.deleted run hrun hbefore hrunOpen
        · exact hended hopen
      have hitem : later.workItemId = run.workItemId :=
        hcontinues.item.resolve_right fun hlost ↦ hkept hlost.2
      have hconfig : later.config = run.config :=
        hcontinues.config.resolve_right fun hlost ↦ hkept (hlost ▸ rfl)
      obtain ⟨first, hfirst, hid, hfirstOpen, hfirstItem, hfirstConfig⟩ :=
        ih hrun hrunOpen (hcontinues.id ▸ hold)
      exact ⟨first, hfirst, hid.trans hcontinues.id.symm, hfirstOpen, hitem.trans hfirstItem,
        hconfig.trans hfirstConfig⟩

/-! ### Receipts -/

/-- A call key of a run has one receipt, and a receipt is given up only after its run has ended. -/
structure Receipts (w : Workspace) : Prop where
  runs : ∀ toolCall ∈ w.toolCalls.rows, toolCall.runId ∈ w.runs.keys
  unique : ∀ a ∈ w.toolCalls.rows, ∀ b ∈ w.toolCalls.rows,
    a.runId = b.runId → a.callKey = b.callKey → a = b
  abandoned : ∀ toolCall ∈ w.toolCalls.rows, toolCall.status = .abandoned →
    ∀ run ∈ w.runs.rows, run.id = toolCall.runId → ¬ run.status.IsOpen

theorem mem_setToolCall {id : Id} {change : AgentToolCall → AgentToolCall}
    {hid : ∀ toolCall, (change toolCall).id = toolCall.id} {later : AgentToolCall} :
    later ∈ (w.setToolCall id change hid).toolCalls.rows ↔ ∃ toolCall ∈ w.toolCalls.rows,
      (if toolCall.id = id then change toolCall else toolCall) = later := by
  change later ∈ (w.toolCalls.update id change hid).rows ↔ _
  exact Table.mem_update w.toolCalls

/-- What becomes of a receipt in a change: it may be given up while it is started, or be settled
with a permit. -/
theorem Change.toolCall_origin (h : Change permit fresh w w') :
    ∀ later ∈ w'.toolCalls.rows,
      (fresh later.id ∧ later.status = .started ∧ later.runId ∈ w.runs.keys ∧
        w'.runs = w.runs ∧
        (∀ other ∈ w'.toolCalls.rows, other.runId = later.runId → other.callKey = later.callKey →
          other = later)) ∨
      ∃ toolCall ∈ w.toolCalls.rows, toolCall.Same later ∧
        (later = toolCall ∨
          (toolCall.status = .started ∧ later.status = .abandoned ∨ permit.call toolCall.id) ∧
          w'.runs = w.runs ∧ (later.status = .abandoned → ∀ run ∈ w.runs.rows,
            run.id = toolCall.runId → ¬ run.status.IsOpen)) := by
  intro later hlater
  cases h with
  | addToolCall toolCall toolCalls hinsert hfresh hstatus hrun hkey =>
    have hrows := ((Table.insert?_eq_some_iff _ _ _).mp hinsert).2
    change later ∈ toolCalls.rows at hlater
    rw [hrows] at hlater
    rcases List.mem_append.mp hlater with hlater | hlast
    · exact Or.inr ⟨later, hlater, .refl later, Or.inl rfl⟩
    · obtain rfl := List.mem_singleton.mp hlast
      refine Or.inl ⟨hfresh, hstatus, hrun, rfl, fun other hother hrunId hcallKey ↦ ?_⟩
      change other ∈ toolCalls.rows at hother
      rw [hrows] at hother
      rcases List.mem_append.mp hother with hother | hlast
      · exact absurd ⟨hrunId, hcallKey⟩ (hkey other hother)
      · exact List.mem_singleton.mp hlast
  | setToolCall id change hid hsame hstarted habandoned =>
    obtain ⟨toolCall, htoolCall, rfl⟩ := mem_setToolCall.mp hlater
    refine Or.inr ⟨toolCall, htoolCall, ?_⟩
    split_ifs with hkey
    · refine ⟨hsame toolCall, Or.inr ⟨?_, rfl, habandoned toolCall htoolCall hkey⟩⟩
      rw [hkey]
      exact hstarted toolCall htoolCall hkey
    · exact ⟨.refl toolCall, Or.inl rfl⟩
  | _ => exact Or.inr ⟨later, hlater, .refl later, Or.inl rfl⟩

/-- Every change keeps the receipts in order. -/
theorem Change.receipts (h : Change permit fresh w w') (hreceipts : w.Receipts) :
    w'.Receipts := by
  constructor
  · intro later hlater
    rcases h.toolCall_origin later hlater with ⟨-, -, hrun, hruns, -⟩ | ⟨toolCall, hold, hsame, -⟩
    · rw [hruns]
      exact hrun
    · rw [hsame.runId]
      exact h.runs_keys (hreceipts.runs toolCall hold)
  · intro a ha b hb hrunId hcallKey
    rcases h.toolCall_origin a ha with ⟨-, -, -, -, honly⟩ | ⟨olda, holda, hsamea, -⟩
    · exact (honly b hb hrunId.symm hcallKey.symm).symm
    · rcases h.toolCall_origin b hb with ⟨-, -, -, -, honly⟩ | ⟨oldb, holdb, hsameb, -⟩
      · exact honly a ha hrunId hcallKey
      · rw [hsamea.runId, hsameb.runId] at hrunId
        rw [hsamea.callKey, hsameb.callKey] at hcallKey
        have hold := hreceipts.unique olda holda oldb holdb hrunId hcallKey
        refine w'.toolCalls.eq_of_key_eq ha hb ?_
        rw [key_toolCall, key_toolCall, hsamea.id, hsameb.id, hold]
  · intro later hlater habandoned run hrun hid
    rcases h.toolCall_origin later hlater with
      ⟨-, hstarted, -⟩ | ⟨toolCall, hold, hsame, rfl | ⟨-, hruns, hended⟩⟩
    · rw [hstarted] at habandoned
      cases habandoned
    · rcases h.run_origin run hrun with ⟨-, -, hnew, -⟩ | ⟨earlier, hearlier, hcontinues⟩
      · rw [hid] at hnew
        exact absurd (hreceipts.runs later hold) hnew
      · refine hcontinues.ended (hreceipts.abandoned later hold habandoned earlier hearlier ?_)
        exact hcontinues.id.symm.trans hid
    · rw [hruns] at hrun
      exact hended habandoned run hrun (hid.trans hsame.runId)

theorem Changes.receipts (h : Changes permit fresh w w') (hreceipts : w.Receipts) :
    w'.Receipts := by
  induction h with
  | refl => exact hreceipts
  | tail _ hchange ih => exact hchange.receipts ih

/-! ### Work for recognition -/

/-- An item waits for recognition: the first order of a screenshot that is not archived, which was
neither closed, created nor put aside, and on which no recognition was made. -/
def Awaits (w : Workspace) (item : OrderIntakeItem) : Prop :=
  w.unarchived item ∧ (item.status = .pending ∨ item.status = .active) ∧
    item.sourceOrderIndex = 1 ∧ item.recognitionStatus = .notStarted

instance (w : Workspace) (item : OrderIntakeItem) : Decidable (w.Awaits item) :=
  inferInstanceAs (Decidable (_ ∧ _))

/-- The items that wait for recognition. -/
def awaiting (w : Workspace) : List Id :=
  (w.items.rows.filter (fun item ↦ w.Awaits item)).map OrderIntakeItem.id

theorem mem_awaiting {id : Id} :
    id ∈ w.awaiting ↔ ∃ item ∈ w.items.rows, w.Awaits item ∧ item.id = id := by
  unfold awaiting
  simp only [List.mem_map, List.mem_filter, decide_eq_true_eq, and_assoc]

theorem unarchived_eq {item later : OrderIntakeItem} (horigin : later.origin = item.origin) :
    w.unarchived later = w.unarchived item := by
  have hattachment : later.sourceAttachmentId = item.sourceAttachmentId :=
    congrArg ItemOrigin.attachmentId horigin
  unfold unarchived
  rw [hattachment]

theorem unarchived_removeScreenshot {attachmentId : Id} {item : OrderIntakeItem}
    (h : (Agent.removeScreenshot attachmentId w).unarchived item) : w.unarchived item := by
  unfold unarchived Agent.removeScreenshot Table.erase at h
  rw [Table.find?_filter] at h
  unfold unarchived
  cases hfind : w.attachments.find? item.sourceAttachmentId with
  | none => simp [hfind] at h
  | some attachment =>
    rw [hfind, Option.any_eq_true] at h
    obtain ⟨found, hfound, harchived⟩ := h
    rw [Option.filter_eq_some_iff] at hfound
    obtain rfl := Option.some.inj hfound.1
    simpa using harchived

theorem unarchived_setAttachment {id : Id} {change : ChatAttachment → ChatAttachment}
    {hid : ∀ attachment, (change attachment).id = attachment.id}
    (harchived : ∀ attachment,
      (change attachment).intakeArchivedAt = attachment.intakeArchivedAt) (item : OrderIntakeItem) :
    (w.setAttachment id change hid).unarchived item = w.unarchived item := by
  unfold unarchived setAttachment
  rw [Table.find?_update _ id change hid]
  cases w.attachments.find? item.sourceAttachmentId with
  | none => rfl
  | some attachment =>
    simp only [Option.map_some, Option.any_some]
    split_ifs
    · rw [harchived]
    · rfl

/-- An item whose status changes to one that does not wait, or that waited before. -/
theorem awaits_setItemStatus {item : OrderIntakeItem} (hitem : item ∈ w.items.rows)
    {status : ItemStatus}
    (hstatus : (status = .pending ∨ status = .active) → item.recognitionStatus = .notStarted →
      item.status = .pending ∨ item.status = .active) :
    ∀ id ∈ (w.setItemStatus item.id status).awaiting, id ∈ w.awaiting := by
  intro id hid
  obtain ⟨later, hlater, ⟨hunarchived, hwaits, hindex, hstarted⟩, rfl⟩ := mem_awaiting.mp hid
  obtain ⟨old, hold, rfl⟩ := mem_setItem.mp hlater
  by_cases hkey : old.id = item.id
  · obtain rfl := w.items.eq_of_key_eq hold hitem hkey
    simp only [if_true] at hunarchived hwaits hindex hstarted ⊢
    exact mem_awaiting.mpr ⟨old, hold, ⟨hunarchived, hstatus hwaits hstarted, hindex,
      hstarted⟩, rfl⟩
  · rw [if_neg hkey] at hunarchived hwaits hindex hstarted ⊢
    exact mem_awaiting.mpr ⟨old, hold, ⟨hunarchived, hwaits, hindex, hstarted⟩, rfl⟩

/-- Without a permit for new work, no further item comes to wait for recognition. -/
theorem Change.awaiting (h : Change permit fresh w w') (hwork : ¬ permit.work) :
    ∀ id ∈ w'.awaiting, id ∈ w.awaiting := by
  cases h with
  | editItem id change hid hedits =>
    intro itemId hitemId
    obtain ⟨later, hlater, ⟨hunarchived, hwaits, hindex, hstarted⟩, rfl⟩ :=
      mem_awaiting.mp hitemId
    obtain ⟨old, hold, rfl⟩ := mem_setItem.mp hlater
    by_cases hkey : old.id = id
    · rw [if_pos hkey] at hunarchived hwaits hindex hstarted ⊢
      obtain ⟨hid', hstatus, horigin, -, hattempted⟩ := hedits old
      refine mem_awaiting.mpr ⟨old, hold, ⟨?_, hstatus ▸ hwaits, ?_, ?_⟩, hid'.symm⟩
      · rwa [← unarchived_eq horigin]
      · exact (congrArg ItemOrigin.index horigin).symm.trans hindex
      · by_contra hne
        exact hattempted hne hstarted
    · rw [if_neg hkey] at hunarchived hwaits hindex hstarted ⊢
      exact mem_awaiting.mpr ⟨old, hold, ⟨hunarchived, hwaits, hindex, hstarted⟩, rfl⟩
  | bind id orderId =>
    intro itemId hitemId
    obtain ⟨later, hlater, hawaits, rfl⟩ := mem_awaiting.mp hitemId
    obtain ⟨old, hold, rfl⟩ := mem_setItem.mp hlater
    refine mem_awaiting.mpr ⟨old, hold, ?_, by split_ifs <;> rfl⟩
    split_ifs at hawaits <;> exact hawaits
  | unbind kept =>
    intro itemId hitemId
    obtain ⟨later, hlater, hawaits, rfl⟩ := mem_awaiting.mp hitemId
    obtain ⟨old, hold, rfl⟩ := List.mem_map.mp hlater
    exact mem_awaiting.mpr ⟨old, hold, hawaits, rfl⟩
  | activate item hitem hphase hnone hunarchived hpick hpending =>
    exact awaits_setItemStatus hitem fun _ _ ↦ Or.inl (hpending.resolve_right hwork)
  | release item hitem hcurrent status hstatus hpick hpending =>
    refine awaits_setItemStatus hitem fun hwaits hstarted ↦ ?_
    rcases hwaits with rfl | rfl
    · exact absurd hstarted (hpending rfl)
    · exact absurd rfl hstatus
  | close item hitem =>
    refine awaits_setItemStatus hitem fun hwaits ↦ ?_
    rcases hwaits with hwaits | hwaits <;> cases hwaits
  | addItem item items hinsert hfresh hstatus horder hstarted =>
    have hrows := ((Table.insert?_eq_some_iff _ _ _).mp hinsert).2
    intro itemId hitemId
    obtain ⟨later, hlater, hawaits, rfl⟩ := mem_awaiting.mp hitemId
    change later ∈ items.rows at hlater
    rw [hrows] at hlater
    rcases List.mem_append.mp hlater with hold | hlast
    · exact mem_awaiting.mpr ⟨later, hold, hawaits, rfl⟩
    · rw [List.mem_singleton.mp hlast] at hawaits
      exact absurd hawaits.2.2.2 (hstarted.resolve_right hwork)
  | setAttachment id change hid harchived =>
    intro itemId hitemId
    obtain ⟨item, hitem, ⟨hunarchived, hrest⟩, rfl⟩ := mem_awaiting.mp hitemId
    refine mem_awaiting.mpr ⟨item, hitem, ⟨?_, hrest⟩, rfl⟩
    rwa [← unarchived_setAttachment harchived item]
  | shelve attachments hopen hless =>
    intro itemId hitemId
    obtain ⟨item, hitem, ⟨hunarchived, hrest⟩, rfl⟩ := mem_awaiting.mp hitemId
    exact mem_awaiting.mpr
      ⟨item, hitem, ⟨hless.resolve_right hwork item hitem hunarchived, hrest⟩, rfl⟩
  | removeScreenshot attachmentId =>
    intro itemId hitemId
    obtain ⟨item, hitem, ⟨hunarchived, hrest⟩, rfl⟩ := mem_awaiting.mp hitemId
    exact mem_awaiting.mpr ⟨item, (List.mem_filter.mp hitem).1,
      ⟨unarchived_removeScreenshot hunarchived, hrest⟩, rfl⟩
  | _ => exact fun id hid ↦ hid

theorem Changes.awaiting (h : Changes permit fresh w w') (hwork : ¬ permit.work) :
    ∀ id ∈ w'.awaiting, id ∈ w.awaiting := by
  induction h with
  | refl => exact fun id hid ↦ hid
  | tail _ hchange ih => exact fun id hid ↦ ih id (hchange.awaiting hwork id hid)

/-! ### The active item -/

/-- The item that is active is the one that the session points to. -/
theorem active_iff_current (hdesk : w.desk.Sound) {item : OrderIntakeItem}
    (hitem : item ∈ w.items.rows) :
    item.status = .active ↔ w.session.activeWorkItemId = some item.id := by
  rw [← show item.case.phase = .inHand ↔ w.session.activeWorkItemId = some item.id from
    hdesk.inHand_iff item.case (List.mem_map_of_mem hitem)]
  change _ ↔ item.status.phase = .inHand
  cases item.status <;> simp [ItemStatus.phase]

end FilmOS.Agent.Workspace
