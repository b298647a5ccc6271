import FilmOS.Agent.ItemLife

/-!
# Messages under a client identifier

A client sends a message under an identifier of its own, and sends it again when it does not get an
answer. The answer to a repeated message is not stored but rebuilt from the rows: the message, the
run that it triggered, and the items that have it as their source. The message and the run are a
letter of the inbox and its reply, which stay (`Accepted.Filed`); the items are not, for a
screenshot may be deleted and a recognition adds the further orders of a screenshot.

`messages_once` says for every state that a run of the system reaches, and every acceptance in it,
what repeating the message does later: it changes nothing; the same content is answered with the
same message, run, revision and cursor, and the items of the first answer that are still there come
in their first order (`Accepted.Repeats`); other content is refused.
-/

set_option autoImplicit false
set_option relaxedAutoImplicit false

namespace FilmOS.Agent

open Transaction AgentDb

variable {call : Call} {later : Time} {db db' db₁ db₂ : AgentDb} {permit : Permit}
  {w w' : Workspace} {body : SendMessage} {mode : MessageMode} {accepted : Accepted}

/-! ### The letter and its reply -/

/-- The letter of a message and its reply, as an answer reports them. -/
structure Accepted.Filed (accepted : Accepted) (key : String) (request : MessageRequest)
    (w : Workspace) : Prop where
  letter : w.inbox.letters.find? (·.key = key) =
    some ⟨key, accepted.messageId, some request, accepted.eventCursor⟩
  reply : w.inbox.replies.filter (·.1 = accepted.messageId) =
    [(accepted.messageId, accepted.runId, some accepted.stateRevision)]

theorem Accepted.Filed.moves {key : String} {request : MessageRequest} {fresh : Id → Prop}
    (h : accepted.Filed key request w) (hsound : w.inbox.Sound)
    (hmoves : Inbox.Moves fresh w.inbox w'.inbox) : accepted.Filed key request w' :=
  ⟨hmoves.find?_letter h.letter, hmoves.filter_replies hsound h.reply⟩

/-- A letter is found by its key exactly where its message is. -/
theorem find?_letters (w : Workspace) (key : String) :
    w.inbox.letters.find? (·.key = key) =
      (w.messages.find? (·.clientMessageId = some key)).bind ChatMessage.letter := by
  unfold Workspace.inbox
  rw [List.find?_filterMap]
  congr 1
  refine congrArg (fun p ↦ w.messages.find? p) (funext fun message ↦ ?_)
  unfold ChatMessage.letter
  cases message.clientMessageId <;> simp

/-- The replies to a message are those of the runs that it triggered. -/
theorem filter_replies_eq (w : Workspace) (messageId : Id) :
    w.inbox.replies.filter (·.1 = messageId) =
      (w.messageRuns messageId).map
        (fun run ↦ (messageId, run.id, run.config.acceptedStateRevision)) := by
  unfold Workspace.inbox Workspace.messageRuns
  dsimp only
  induction w.runs.rows with
  | nil => rfl
  | cons run rest ih =>
    by_cases htriggered : run.triggerMessageId = some messageId ∧ run.triggerKind = .message
    · have hreply : run.reply = some (messageId, run.id, run.config.acceptedStateRevision) := by
        unfold AgentRun.reply
        rw [if_pos htriggered.2, htriggered.1]
        rfl
      rw [List.filterMap_cons_some hreply, List.filter_cons_of_pos (by simp),
        List.filter_cons_of_pos (by simpa using htriggered), List.map_cons, ih]
    · rw [List.filter_cons_of_neg (by simpa using htriggered), ← ih]
      cases hreply : run.reply with
      | none => rw [List.filterMap_cons_none hreply]
      | some entry =>
        refine (congrArg (List.filter _) (List.filterMap_cons_some hreply)).trans
          (List.filter_cons_of_neg ?_)
        unfold AgentRun.reply at hreply
        split_ifs at hreply with hkind
        obtain ⟨id, hid, rfl⟩ := Option.map_eq_some_iff.mp hreply
        simp only [decide_eq_true_eq]
        rintro rfl
        exact htriggered ⟨hid, hkind⟩

/-- The answer to a repeated message: the first one, with the items as they are now. -/
def Accepted.again (accepted : Accepted) (w : Workspace) : Accepted :=
  { accepted with
    runStatus := .queued
    workItemIds := (w.messageItems accepted.messageId).map OrderIntakeItem.id }

/-- A message that is filed is found under its key, and answered again when the request is the
same. -/
theorem Accepted.Filed.replay {key : String} {request : MessageRequest}
    (h : accepted.Filed key request w) : ∃ existing,
      w.messages.find? (·.clientMessageId = some key) = some existing ∧
        ∀ other, replayMessage w existing other = if other = request then .ok (accepted.again w)
          else .error (conflict "IDEMPOTENCY_MISMATCH" "该消息标识已用于不同内容") := by
  have hletter := h.letter
  rw [find?_letters] at hletter
  obtain ⟨existing, hfind, hexisting⟩ := Option.bind_eq_some_iff.mp hletter
  obtain ⟨_, -, heq⟩ := Option.map_eq_some_iff.mp hexisting
  obtain ⟨-, hid, hbody⟩ := Letter.mk.inj heq
  obtain ⟨hrequest, hseq⟩ := Prod.mk.inj hbody
  refine ⟨existing, hfind, fun other ↦ ?_⟩
  have hreply := h.reply
  rw [filter_replies_eq, ← hid] at hreply
  obtain ⟨run, hruns, hrun⟩ := List.map_eq_singleton_iff.mp hreply
  obtain ⟨hrunId, hrevision⟩ := Prod.mk.inj (Prod.mk.inj hrun).2
  unfold replayMessage
  rw [hrequest, hruns]
  by_cases hsame : other = request
  · simp only [hsame, if_true, ensure, hrevision]
    unfold acceptedDto Accepted.again
    rw [hid, hseq, hrunId]
    rfl
  · rw [if_neg hsame]
    simp only [Option.some.injEq, Ne.symm hsame, ensure, if_false]
    rfl

/-- Repeating a message that is filed changes nothing. It is answered again when the request is the
same, and refused when it is not, or when the sender may not write to the session. -/
theorem acceptMessage_repeated {request : MessageRequest} {userId : Id}
    (hw : w ∈ db.workspaces.rows) (h : accepted.Filed body.clientMessageId request w) :
    (∀ answer db', acceptMessage call w.session.id userId body mode db = .ok answer db' →
      db' = db ∧ messageRequest body mode = request ∧ answer = accepted.again w) ∧
    (w.session.userId = userId → w.session.status = .active → messageRequest body mode = request →
      acceptMessage call w.session.id userId body mode db = .ok (accepted.again w) db) := by
  obtain ⟨existing, hfind, hreplay⟩ := h.replay
  have hbody : ∀ answer db', acceptMessage call w.session.id userId body mode db = .ok answer db' ↔
      (w.session.userId = userId ∧ w.session.status = .active) ∧
        replayMessage w existing (messageRequest body mode) = .ok answer ∧ db = db' := by
    intro answer db'
    unfold acceptMessage
    rw [bind_eq_ok]
    constructor
    · rintro ⟨v, db₁, hfound, hanswer⟩
      obtain ⟨⟨hv, hid⟩, huser, -, hactive, rfl⟩ := requireSession_eq_ok.mp hfound
      obtain rfl := workspace_eq hv hw hid
      simp only [hfind] at hanswer
      exact ⟨⟨huser, hactive rfl⟩, checked_eq_ok.mp hanswer⟩
    · rintro ⟨⟨huser, hactive⟩, hanswer⟩
      refine ⟨w, db, requireSession_eq_ok.mpr ⟨⟨hw, rfl⟩, huser, ?_, fun _ ↦ hactive, rfl⟩, ?_⟩
      · rw [hactive]
        decide
      · simp only [hfind]
        exact checked_eq_ok.mpr hanswer
  constructor
  · intro answer db' hanswer
    obtain ⟨-, hreplayed, hdb⟩ := (hbody answer db').mp hanswer
    rw [hreplay] at hreplayed
    split_ifs at hreplayed with hsame
    exact ⟨hdb.symm, hsame, (Except.ok.inj hreplayed).symm⟩
  · intro huser hactive hsame
    exact (hbody _ _).mpr ⟨⟨huser, hactive⟩, (hreplay _).trans (if_pos hsame), rfl⟩

/-! ### The items of the first answer -/

/-- The items of the first answer: rows of the session with the message as their source, one for
each screenshot, in the order of the queue. -/
def Accepted.Queues (accepted : Accepted) (w : Workspace) : Prop :=
  ∃ items : List OrderIntakeItem, items.map OrderIntakeItem.id = accepted.workItemIds ∧
    accepted.workItemIds.Nodup ∧ items.Pairwise (·.queuePosition < ·.queuePosition) ∧
    ∀ item ∈ items, item.sourceMessageId = accepted.messageId ∧ item.sourceOrderIndex = 1 ∧
      ∃ row ∈ w.items.rows, row.id = item.id ∧ row.origin = item.origin

/-- The items that a message brings are new rows behind all others, in the order of its
screenshots. -/
theorem bindAttachments_items {messageId : Id} {position : ℤ} (attachments : List ChatAttachment) :
    ∀ {index : ℕ} {db db' : AgentDb} {w : Workspace} {bound : Workspace × List OrderIntakeItem},
      bindAttachments call messageId position attachments index w db = .ok bound db' →
        bound.1.items.rows = w.items.rows ++ bound.2 ∧
        (∀ item ∈ bound.2, item.sourceMessageId = messageId ∧ item.sourceOrderIndex = 1 ∧
          position + index < item.queuePosition) ∧
        bound.2.Pairwise (·.queuePosition < ·.queuePosition) := by
  induction attachments with
  | nil =>
    intro index db db' w bound h
    obtain ⟨rfl, rfl⟩ := pure_eq_ok.mp h
    exact ⟨(List.append_nil _).symm, fun _ h ↦ absurd h List.not_mem_nil, .nil⟩
  | cons attachment attachments ih =>
    intro index db db' w bound h
    obtain ⟨itemId, db₁, hitemId, h⟩ := bind_eq_ok.mp h
    obtain ⟨w₁, hadd, h⟩ := checked_bind_eq_ok.mp h
    obtain ⟨⟨w₂, items⟩, db₂, hrest, h⟩ := bind_eq_ok.mp h
    obtain ⟨rfl, rfl⟩ := pure_eq_ok.mp h
    obtain ⟨hrows, hitems, hsorted⟩ := ih hrest
    obtain ⟨table, -, hadded, rfl⟩ := Workspace.addItem_ok hadd
    refine ⟨?_, ?_, ?_⟩
    · refine hrows.trans ?_
      change table.rows ++ items = w.items.rows ++ (_ :: items)
      rw [hadded, List.append_assoc]
      rfl
    · intro item hitem
      rcases List.mem_cons.mp hitem with rfl | hitem
      · exact ⟨rfl, rfl, Int.lt_succ _⟩
      · obtain ⟨hsource, hindex, hlt⟩ := hitems item hitem
        exact ⟨hsource, hindex, by push_cast at hlt; omega⟩
    · refine List.pairwise_cons.mpr ⟨fun item hitem ↦ ?_, hsorted⟩
      have hlt := (hitems item hitem).2.2
      change position + index + 1 < item.queuePosition
      push_cast at hlt
      omega

/-- A change of one item that leaves where it comes from leaves where all items come from. -/
theorem setItem_origin (id : Id) (change : OrderIntakeItem → OrderIntakeItem)
    (hid : ∀ item, (change item).id = item.id)
    (horigin : ∀ item, (change item).origin = item.origin)
    {item : OrderIntakeItem} (hitem : item ∈ w.items.rows) :
    ∃ row ∈ (w.setItem id change hid).items.rows, row.id = item.id ∧ row.origin = item.origin := by
  refine ⟨_, Workspace.mem_setItem.mpr ⟨item, hitem, rfl⟩, ?_⟩
  split_ifs
  · exact ⟨hid item, horigin item⟩
  · exact ⟨rfl, rfl⟩

/-- Selecting the first item leaves where the items come from. -/
theorem activateFirst_origin {items : List OrderIntakeItem}
    (h : activateFirst call items w = .ok w') {item : OrderIntakeItem}
    (hitem : item ∈ w.items.rows) :
    ∃ row ∈ w'.items.rows, row.id = item.id ∧ row.origin = item.origin := by
  rcases activateFirst_ok h with rfl | ⟨first, -, -, -, -, rfl⟩
  · exact ⟨item, hitem, rfl, rfl⟩
  · obtain ⟨active, hactive, hid, horigin⟩ : ∃ row ∈ (w.activate first.id).items.rows,
        row.id = item.id ∧ row.origin = item.origin :=
      setItem_origin first.id (fun item ↦ { item with status := .active }) (fun _ ↦ rfl)
        (fun _ ↦ rfl) hitem
    obtain ⟨revised, hrevised, hid', horigin'⟩ :
        ∃ row ∈ ((w.activate first.id).reviseItem first.id).items.rows,
          row.id = active.id ∧ row.origin = active.origin :=
      setItem_origin first.id (fun item ↦ { item with revision := item.revision + 1 })
        (fun _ ↦ rfl) (fun _ ↦ rfl) hactive
    exact ⟨revised, hrevised, hid'.trans hid, horigin'.trans horigin⟩

/-- What the entry of a message leaves of its items. -/
theorem enterMessage_queues {userId : Id} {attachments : List ChatAttachment}
    (h : enterMessage call userId body mode attachments w db = .ok accepted db') :
    accepted.runStatus = .queued ∧ ∃ last ∈ db'.workspaces.rows, last.session.id = w.session.id ∧
      accepted.Queues last := by
  obtain ⟨messageId, db₁, bound, db₂, w₃, runId, db₃, w₄, -, hbound, hactivate, -, hrun, rfl,
    rfl⟩ :=
    enterMessage_ok h
  refine ⟨rfl, _, (Table.mem_put _).mpr (Or.inl rfl), ?_, bound.2, rfl, ?_, ?_⟩
  · have hbinds := ((bindAttachments_ok attachments hbound).1 (fun _ ↦ False) .message
      trivial).changes.owner.1
    have hactivated : Workspace.Changes .message (fun _ ↦ True) bound.1 w₃ :=
      activateFirst_changes trivial hactivate
    have hselects := hactivated.owner.1
    obtain ⟨runs, -, -, rfl⟩ := Workspace.addRun_ok hrun
    exact hselects.trans hbinds
  · have hnodup : (bound.1.items.rows.map OrderIntakeItem.id).Nodup := bound.1.items.nodup
    rw [(bindAttachments_items attachments hbound).1, List.map_append] at hnodup
    exact (List.nodup_append.mp hnodup).2.1
  · obtain ⟨hrows, hitems, hsorted⟩ := bindAttachments_items attachments hbound
    refine ⟨hsorted, fun item hitem ↦ ?_⟩
    obtain ⟨hsource, hindex, -⟩ := hitems item hitem
    obtain ⟨row, hrow, hid, horigin⟩ :=
      activateFirst_origin hactivate (hrows ▸ List.mem_append_right _ hitem)
    obtain ⟨runs, -, -, rfl⟩ := Workspace.addRun_ok hrun
    exact ⟨hsource, hindex, row, hrow, hid, horigin⟩

/-- What the acceptance of a message leaves in its session. -/
theorem acceptMessage_new (hsound : db.Sound) {sessionId userId : Id}
    (h : acceptMessage call sessionId userId body mode db = .ok accepted db') :
    db' = db ∨ accepted.runStatus = .queued ∧ ∃ w ∈ db'.workspaces.rows, w.session.id = sessionId ∧
      accepted.Filed body.clientMessageId (messageRequest body mode) w ∧ accepted.Queues w := by
  obtain ⟨w, hw, hid, -, hactive, hcases⟩ := acceptMessage_ok h
  rcases hcases with ⟨_, -, -, rfl⟩ | ⟨state, attachments, hunknown, hidle, hstate, hscreenshots, h⟩
  · exact Or.inl rfl
  · obtain ⟨hstatus, last, hlast, hlastId, hqueues⟩ := enterMessage_queues h
    obtain ⟨db₁, w', -, rfl, hevolves, hinbox⟩ := enterMessage_evolves (hstate _ _) rfl hidle
      hidle hactive (hsound.issued w hw) hunknown hscreenshots h
    obtain rfl : last = w' := workspace_eq hlast ((Table.mem_put _).mpr (Or.inl rfl))
      (hlastId.trans hevolves.session_id.symm)
    have hlastSound : last.inbox.Sound := ((hsound.workspace w hw).evolves hevolves).inbox
    refine Or.inr ⟨hstatus, last, hlast, hevolves.session_id.trans hid, ⟨?_, ?_⟩, hqueues⟩
    · rw [hinbox] at hlastSound ⊢
      exact hlastSound.find?_accept
    · rw [hinbox] at hlastSound ⊢
      exact hlastSound.filter_accept

/-! ### Later states -/

/-- What a later state keeps of the messages: the inbox of a session only grows. -/
structure AgentDb.KeepsMessages (db db' : AgentDb) : Prop where
  continues : db.Continues db'
  sessions : ∀ w' ∈ db'.workspaces.rows, w'.session.id ∈ db.board.issued →
    ∃ w ∈ db.workspaces.rows, w.session.id = w'.session.id ∧
      Inbox.Moves (fun _ ↦ True) w.inbox w'.inbox

theorem AgentDb.KeepsMessages.refl (db : AgentDb) : KeepsMessages db db :=
  ⟨.refl db, fun w hw _ ↦ ⟨w, hw, rfl, .refl⟩⟩

theorem AgentDb.KeepsMessages.trans (h : KeepsMessages db db₁) (h' : KeepsMessages db₁ db₂) :
    KeepsMessages db db₂ where
  continues := h.continues.trans h'.continues
  sessions w₂ hw₂ hissued := by
    obtain ⟨w₁, hw₁, hid₁, hmoves₁⟩ := h'.sessions w₂ hw₂ (h.continues.issued hissued)
    obtain ⟨w, hw, hid, hmoves⟩ := h.sessions w₁ hw₁ (hid₁ ▸ hissued)
    exact ⟨w, hw, hid.trans hid₁, hmoves.trans hmoves₁⟩

theorem keepsMessages_run (hsound : db.Sound) (inputs : List AgentInput) :
    KeepsMessages db (System.run step db inputs) := by
  refine System.related_run KeepsMessages.refl (fun _ _ _ h h' ↦ h.trans h')
    (fun _ input h ↦ h.step input) (fun db input h ↦ ⟨(progress_step h input).continues h, ?_⟩)
    inputs db hsound
  intro w' hw' hissued
  rcases (progress_step h input).evolves w' hw' with ⟨w, hw, hevolves⟩ |
    ⟨session, hfresh, -, hevolves⟩
  · exact ⟨w, hw, hevolves.session_id.symm, hevolves.inbox.mono fun _ _ ↦ trivial⟩
  · have hid : w'.session.id = session.id := hevolves.session_id
    exact absurd (hid ▸ hissued) hfresh.1

/-- The items of a message as they come in the queue. -/
theorem mem_messageItems {messageId : Id} {row : OrderIntakeItem} :
    row ∈ w.messageItems messageId ↔ row ∈ w.items.rows ∧ row.sourceMessageId = messageId := by
  unfold Workspace.messageItems
  rw [mem_orderBy, List.mem_filter, decide_eq_true_eq]

theorem nodup_messageItems (w : Workspace) (messageId : Id) :
    ((w.messageItems messageId).map OrderIntakeItem.id).Nodup := by
  have hnodup : ((w.items.rows.filter (·.sourceMessageId = messageId)).map
    OrderIntakeItem.id).Nodup :=
    w.items.nodup.sublist (List.filter_sublist.map _)
  exact ((orderBy_perm Workspace.queuePlace _).map OrderIntakeItem.id).nodup_iff.mpr hnodup

/-- The places in the queue that identifiers had, compared. -/
def Before (items : List OrderIntakeItem) (a b : Id) : Prop :=
  ∃ x ∈ items, ∃ y ∈ items, x.id = a ∧ y.id = b ∧ x.queuePosition ≤ y.queuePosition

theorem before_antisymm {items : List OrderIntakeItem} (hids : (items.map OrderIntakeItem.id).Nodup)
    (hsorted : items.Pairwise (·.queuePosition < ·.queuePosition)) {a b : Id}
    (hab : Before items a b) (hba : Before items b a) : a = b := by
  obtain ⟨x, hx, y, hy, rfl, rfl, hle⟩ := hab
  obtain ⟨y', hy', x', hx', hyid, hxid, hge⟩ := hba
  obtain rfl := List.inj_on_of_nodup_map hids hy' hy hyid
  obtain rfl := List.inj_on_of_nodup_map hids hx' hx hxid
  have hpositions : (items.map OrderIntakeItem.queuePosition).Nodup :=
    List.pairwise_map.mpr (hsorted.imp ne_of_lt)
  exact congrArg OrderIntakeItem.id
    (List.inj_on_of_nodup_map hpositions hx hy (le_antisymm hle hge))

/-- The items of the first answer that are there later come in their first order among those of the
message. -/
theorem Accepted.Queues.again (hqueues : accepted.Queues w) (hsound : db.Sound)
    (hw : w ∈ db.workspaces.rows) (h : db.Continues db') (hw' : w' ∈ db'.workspaces.rows) :
    (accepted.again w').workItemIds.filter (· ∈ accepted.workItemIds) =
      accepted.workItemIds.filter (· ∈ w'.items.keys) := by
  obtain ⟨items, hids, hnodup, hsorted, hitems⟩ := hqueues
  -- A later row of an item of the first answer comes from the same place.
  have horigin : ∀ row ∈ w'.items.rows, ∀ item ∈ items, row.id = item.id →
      row.sourceMessageId = accepted.messageId ∧ row.queuePosition = item.queuePosition ∧
        row.sourceOrderIndex = 1 := by
    intro row hrow item hitem hid
    obtain ⟨hsource, hindex, first, hfirst, hfirstId, hfirstOrigin⟩ := hitems item hitem
    obtain ⟨old, hold, holdId, hprecedes⟩ := h.origin row ⟨w', hw', hrow⟩
      (hid ▸ hfirstId ▸ hsound.item_issued ⟨w, hw, hfirst⟩)
    obtain rfl := hsound.item_eq hold ⟨w, hw, hfirst⟩ (holdId.trans (hid.trans hfirstId.symm))
    have hsame : row.origin = item.origin := hprecedes.1.trans hfirstOrigin
    unfold OrderIntakeItem.origin at hsame
    obtain ⟨hmessage, -, hposition, hplace⟩ := ItemOrigin.mk.inj hsame
    exact ⟨hmessage.trans hsource, hposition, hplace.trans hindex⟩
  rw [← hids] at hnodup
  change ((w'.messageItems accepted.messageId).map OrderIntakeItem.id).filter _ = _
  rw [← hids]
  refine List.Perm.eq_of_pairwise (fun a b _ _ ↦ before_antisymm hnodup hsorted) ?_ ?_ ?_
  · rw [List.filter_map, List.pairwise_map]
    have hplaces : (w'.messageItems accepted.messageId).Pairwise
        (fun a b ↦ Workspace.queuePlace a ≤ Workspace.queuePlace b) := pairwise_orderBy _ _
    refine (hplaces.filter _).imp_of_mem fun ha hb hle ↦ ?_
    obtain ⟨ha, hida⟩ := List.mem_filter.mp ha
    obtain ⟨hb, hidb⟩ := List.mem_filter.mp hb
    obtain ⟨x, hx, hxid⟩ := List.mem_map.mp (of_decide_eq_true hida)
    obtain ⟨y, hy, hyid⟩ := List.mem_map.mp (of_decide_eq_true hidb)
    obtain ⟨-, hposition, -⟩ := horigin _ (mem_messageItems.mp ha).1 x hx hxid.symm
    obtain ⟨-, hposition', -⟩ := horigin _ (mem_messageItems.mp hb).1 y hy hyid.symm
    refine ⟨x, hx, y, hy, hxid, hyid, ?_⟩
    rw [← hposition, ← hposition']
    rcases Prod.Lex.toLex_le_toLex.mp hle with hlt | ⟨heq, -⟩
    · exact le_of_lt hlt
    · exact le_of_eq heq
  · rw [List.filter_map, List.pairwise_map]
    refine (hsorted.filter _).imp_of_mem fun ha hb hlt ↦ ?_
    exact ⟨_, (List.mem_filter.mp ha).1, _, (List.mem_filter.mp hb).1, rfl, rfl, le_of_lt hlt⟩
  · rw [List.perm_ext_iff_of_nodup ((nodup_messageItems _ _).filter _) (hnodup.filter _)]
    intro id
    rw [List.mem_filter, List.mem_filter, decide_eq_true_eq, decide_eq_true_eq]
    constructor
    · rintro ⟨hmem, hfirst⟩
      obtain ⟨row, hrow, rfl⟩ := List.mem_map.mp hmem
      exact ⟨hfirst, (Table.mem_keys _).mpr ⟨row, (mem_messageItems.mp hrow).1, rfl⟩⟩
    · rintro ⟨hfirst, hkey⟩
      obtain ⟨row, hrow, hid⟩ := (Table.mem_keys _).mp hkey
      obtain ⟨item, hitem, rfl⟩ := List.mem_map.mp hfirst
      obtain ⟨hsource, -⟩ := horigin row hrow item hitem hid
      exact ⟨List.mem_map.mpr ⟨row, mem_messageItems.mpr ⟨hrow, hsource⟩, hid⟩, hfirst⟩

/-! ### Every run -/

/-- An answer repeats the first one: it names the same message, run, revision and cursor, and the
items of the first answer that are still there, in their order. -/
structure Accepted.Repeats (accepted answer : Accepted) (w : Workspace) : Prop where
  message : answer.messageId = accepted.messageId
  run : answer.runId = accepted.runId
  status : answer.runStatus = accepted.runStatus
  revision : answer.stateRevision = accepted.stateRevision
  cursor : answer.eventCursor = accepted.eventCursor
  items : answer.workItemIds.filter (· ∈ accepted.workItemIds) =
    accepted.workItemIds.filter (· ∈ w.items.keys)

/-- What a state does with a message that was accepted before, when it comes again under its
identifier: nothing; it is answered when its content is the same and its sender may write to the
session. -/
structure AgentDb.Remembers (db : AgentDb) (accepted : Accepted) (sessionId : Id)
    (key : String) (request : MessageRequest) : Prop where
  unchanged : ∀ w ∈ db.workspaces.rows, w.session.id = sessionId →
    ∀ call userId body mode, body.clientMessageId = key → ∀ answer db',
      acceptMessage call sessionId userId body mode db = .ok answer db' →
        db' = db ∧ messageRequest body mode = request ∧ accepted.Repeats answer w
  answered : ∀ w ∈ db.workspaces.rows, w.session.id = sessionId → w.session.status = .active →
    ∀ call body mode, body.clientMessageId = key → messageRequest body mode = request →
      ∃ answer, acceptMessage call sessionId w.session.userId body mode db = .ok answer db

/-- Messages take effect once: an acceptance that changes anything is remembered by every later
state. -/
def AgentDb.MessagesOnce (db : AgentDb) : Prop :=
  ∀ call sessionId userId body mode accepted db',
    acceptMessage call sessionId userId body mode db = .ok accepted db' → db' = db ∨
      ∀ further, (System.run step db' further).Remembers accepted sessionId body.clientMessageId
        (messageRequest body mode)

/-- A session in which a message is filed remembers it. -/
theorem remembers_of_filed {sessionId : Id} {key : String} {request : MessageRequest}
    (hstatus : accepted.runStatus = .queued)
    (hfiled : ∀ w ∈ db.workspaces.rows, w.session.id = sessionId →
      accepted.Filed key request w ∧ (accepted.again w).workItemIds.filter
        (· ∈ accepted.workItemIds) = accepted.workItemIds.filter (· ∈ w.items.keys)) :
    db.Remembers accepted sessionId key request where
  unchanged := by
    rintro w hw rfl call userId body mode rfl answer db' hanswer
    obtain ⟨hletter, hitems⟩ := hfiled w hw rfl
    obtain ⟨hdb, hrequest, rfl⟩ := (acceptMessage_repeated hw hletter).1 answer db' hanswer
    exact ⟨hdb, hrequest, rfl, rfl, hstatus.symm, rfl, rfl, hitems⟩
  answered := by
    rintro w hw rfl hactive call body mode rfl hrequest
    exact ⟨_, (acceptMessage_repeated hw (hfiled w hw rfl).1).2 rfl hactive hrequest⟩

theorem AgentDb.Sound.messagesOnce (hsound : db.Sound) : db.MessagesOnce := by
  intro call sessionId userId body mode accepted db' haccepted
  have hsound' : db'.Sound := hsound.progress (progress_acceptMessage hsound haccepted)
  refine (acceptMessage_new hsound haccepted).imp_right ?_
  rintro ⟨hstatus, w, hw, rfl, hfiled, hqueues⟩ further
  have hkeeps := keepsMessages_run hsound' further
  refine remembers_of_filed hstatus fun w' hw' hid ↦ ?_
  obtain ⟨v, hv, hsame, hmoves⟩ := hkeeps.sessions w' hw' (hid ▸ hsound'.session_issued w hw)
  obtain rfl := workspace_eq hv hw (hsame.trans hid)
  exact ⟨hfiled.moves (hsound'.workspace v hv).inbox hmoves,
    hqueues.again hsound' hv hkeeps.continues hw'⟩

/-- In every state that a run of the system reaches, messages take effect once. -/
theorem messages_once (board : Board) (inputs : List AgentInput) :
    (System.run step (.start board) inputs).MessagesOnce :=
  (sound_run board inputs).messagesOnce

end FilmOS.Agent
