import FilmOS.Agent.ItemLife

/-!
# One order for one item

The orders that come of an item are those that the commands on it add to the orders of the board
(`confirmed`). A confirmation that adds an order leaves the item created (`confirmItem_ok`), created
items stay created, and a created item gets no further order: so no item occurs twice in the history
of orders, also when its order was deleted in between (`orders_created_once`). `Minted` is the
invariant of that history. It says in addition that an item has the order that came of it or none,
and that the stored result of a confirmation names that order; so a repeated confirmation returns it
or changes nothing.
-/

set_option autoImplicit false
set_option relaxedAutoImplicit false

namespace FilmOS.Agent

open Transaction AgentDb

variable {call : Call} {later : Time} {db db' : AgentDb} {permit : Permit}

/-! ### A confirmation -/

/-- The order that a result names. -/
def CommandResult.order : CommandResult → Option OrderRef
  | .itemChanged _ _ _ _ _ order _ _ _ => order
  | _ => none

/-- What a confirmation may do: one bond, of the item and its new order. -/
def Permit.minting (itemId orderId : Id) : Permit where
  bond b := b = (itemId, orderId)
  order := True
  pick := True

/-- The confirmation of an item adds one order, leaves the item created, and binds it to the
order. -/
theorem confirmItem_ok (hsound : db.Sound) {w : Workspace} (hw : w ∈ db.workspaces.rows)
    {commandId : Id} {payload : ActionPayload} {item : OrderIntakeItem} {effect : ItemEffect}
    (hitem : item ∈ w.items.rows)
    (h : changeItem call .confirmOrder commandId payload item w db = .ok effect db') :
    item.status ≠ .created ∧ ∃ order : OrderRef, effect.order = some order ∧
      db'.board.orders.keys = db.board.orders.keys ++ [order.id] ∧
      Makes (fun _ ↦ False) (.minting item.id order.id) db db' w effect.workspace ∧
      ∀ later ∈ effect.workspace.items.rows, later.id = item.id → later.status = .created := by
  obtain ⟨⟨hcreated, -⟩, first, db₁, heffect, horder, -, hrest⟩ := changeItem_ok h
  refine ⟨hcreated, ?_⟩
  change confirmOrder call commandId item w db = .ok first db₁ at heffect
  have hconfirm := heffect
  unfold confirmOrder at hconfirm
  obtain ⟨⟨-, hcurrent⟩, hconfirm⟩ := require_bind_eq_ok.mp hconfirm
  rw [get_bind_eq_ok] at hconfirm
  obtain ⟨-, hconfirm⟩ := require_bind_eq_ok.mp hconfirm
  obtain ⟨order, db₂, hcreate, hconfirm⟩ := bind_eq_ok.mp hconfirm
  obtain ⟨hfirst, hsame⟩ := pure_eq_ok.mp hconfirm
  obtain rfl := hsame
  have hreference : first.order = some ⟨order.id, order.orderNo⟩ := by rw [← hfirst]
  have hmakes : Makes (fun _ ↦ False) (.minting item.id order.id) db db₂ w first.workspace := by
    refine confirmOrder_makes trivial trivial (fun found hfound ↦ ?_) hitem heffect
    rw [hreference] at hfound
    rw [← Option.some.inj hfound]
    rfl
  have hissued : ∀ id, first.workspace.Uses id → id ∈ db₂.board.issued :=
    fun id huses ↦ hmakes.issued hsound hw huses
  refine ⟨⟨order.id, order.orderNo⟩, horder.trans hreference, ?_, ?_, ?_⟩
  · obtain ⟨board, hboard, rfl⟩ := onBoard_eq_ok.mp hcreate
    have hkeys := (hrest (fun _ ↦ False) { pick := True } trivial hissued).prepares.orders id
    unfold Table.keys at hkeys ⊢
    rw [hkeys, (createFromWorkspaceDraft_ok hboard).1, List.map_append]
    rfl
  · exact hmakes.trans (hrest _ _ trivial hissued)
  · -- The row that the confirmation leaves is settled, and what follows does not unsettle it.
    intro row hrow hid
    have hsound₁ : first.workspace.desk.Sound :=
      (hsound.workspace w hw).desk.moves hmakes.changes.desk
    have hsettled : ∃ settled ∈ first.workspace.items.rows, settled.id = item.id ∧
        settled.status = .created := by
      have hreleased : { item with status := .created } ∈ (w.release item.id .created).items.rows :=
        List.mem_map.mpr ⟨item, hitem, if_pos rfl⟩
      rw [← hfirst]
      exact ⟨_, List.mem_map.mpr ⟨_, hreleased, if_pos rfl⟩, rfl, rfl⟩
    obtain ⟨settled, hmem, hsettledId, hstatus⟩ := hsettled
    have hmoves := (hrest (fun _ ↦ False) { pick := True } trivial hissued).changes.desk
    rcases hmoves.origin hsound₁ row.case (List.mem_map_of_mem hrow) with hfresh | ⟨case, hcase,
      hcaseId, hprecedes⟩
    · have huses : first.workspace.Uses item.id :=
        Or.inr (Or.inl ((Table.mem_keys _).mpr ⟨settled, hmem, hsettledId⟩))
      have hrowIssued : row.id ∈ db₂.board.issued := by
        rw [hid]
        exact hissued item.id huses
      exact absurd hrowIssued hfresh.1
    · have hsame : case = settled.case := List.inj_on_of_nodup_map hsound₁.ids_nodup hcase
        (List.mem_map_of_mem hmem) (hcaseId.trans (hid.trans hsettledId.symm))
      have hphase : case.phase = .settled .created := by
        rw [hsame]
        exact congrArg ItemStatus.phase hstatus
      have hlater : row.status.phase = .settled .created := hprecedes.2 .created hphase
      cases hrowStatus : row.status <;> rw [hrowStatus] at hlater <;> first | rfl | cases hlater

/-- The command row of a command on an item holds its request and its result. -/
theorem recordItemCommand_ok {commandId userId : Id} {key : String} {kind : CommandKind}
    {payload : ActionPayload} {itemId : Id} {itemRevision : ℕ} {existing : Bool}
    {effect : ItemEffect} {result : CommandResult}
    (h : recordItemCommand commandId userId key kind payload itemId itemRevision existing
      effect db = .ok result db') :
    result.order = effect.order ∧ db'.board = db.board ∧ db'.workspaces = db.workspaces ∧
      ∀ command ∈ db'.commands.rows, command ∈ db.commands.rows ∨
        command.requestHash = .itemCommand kind itemId payload ∧ command.result = result := by
  unfold recordItemCommand at h
  obtain ⟨_, db₁, hadd, h⟩ := bind_eq_ok.mp h
  obtain ⟨rfl, rfl⟩ := pure_eq_ok.mp h
  obtain ⟨commands, hinsert, rfl⟩ := addCommand_eq_ok.mp hadd
  refine ⟨rfl, rfl, rfl, fun command hcommand ↦ ?_⟩
  rw [((Table.insert?_eq_some_iff _ _ _).mp hinsert).2] at hcommand
  rcases List.mem_append.mp hcommand with hold | hlast
  · exact Or.inl hold
  · rw [List.mem_singleton.mp hlast]
    exact Or.inr ⟨rfl, rfl⟩

/-- The request of a confirmation of the item. -/
def Confirms (itemId : Id) (command : AgentCommand) : Prop :=
  ∃ payload, command.requestHash = .itemCommand .confirmOrder itemId payload

/-- What a confirmation does: it repeats a stored one, or returns the order that the item has, or
adds an order. In the last two cases its command is stored with its result. -/
inductive Confirmation (itemId : Id) (result : CommandResult) (db db' : AgentDb) : Prop
  | repeated (command : AgentCommand) (hcommand : command ∈ db.commands.rows)
      (hconfirms : Confirms itemId command) (hresult : command.result = result) (hsame : db' = db)
  | existing (item : OrderIntakeItem) (order : OrderRef) (hitem : db.HasItem item)
      (hid : item.id = itemId) (hbound : item.orderId = some order.id)
      (horder : result.order = some order) (hworkspaces : db'.workspaces = db.workspaces)
      (hkeys : db'.board.orders.keys = db.board.orders.keys)
      (hcommands : ∀ command ∈ db'.commands.rows, command ∈ db.commands.rows ∨
        Confirms itemId command ∧ command.result = result)
  | added (w w' : Workspace) (item : OrderIntakeItem) (order : OrderRef)
      (hw : w ∈ db.workspaces.rows) (hitem : item ∈ w.items.rows) (hid : item.id = itemId)
      (hstatus : item.status ≠ .created) (horder : result.order = some order)
      (hkeys : db'.board.orders.keys = db.board.orders.keys ++ [order.id])
      (hworkspaces : db'.workspaces = db.workspaces.put w')
      (hsession : w'.session.id = w.session.id)
      (hbonds : ∀ bond ∈ w'.bonds, bond ∈ w.bonds ∨ bond = (itemId, order.id))
      (hcreated : ∀ row ∈ w'.items.rows, row.id = itemId → row.status = .created)
      (hcommands : ∀ command ∈ db'.commands.rows, command ∈ db.commands.rows ∨
        Confirms itemId command ∧ command.result = result)

theorem itemCommand_confirmation (hsound : db.Sound) {itemId userId : Id} {key : String}
    {payload : ActionPayload} {result : CommandResult}
    (h : itemCommand call itemId userId key .confirmOrder payload db = .ok result db') :
    Confirmation itemId result db db' := by
  unfold itemCommand at h
  rcases replaying_ok h with ⟨command, hfind, hrequest, hresult, hsame⟩ | ⟨-, hbody⟩
  · exact .repeated command ((Table.find?_eq_some_iff _).mp hfind).1 ⟨payload, hrequest⟩
      hresult hsame
  · clear h
    obtain ⟨⟨w, item⟩, db₁, hfound, h⟩ := bind_eq_ok.mp hbody
    obtain ⟨⟨hw, -⟩, hitem, rfl, -, rfl⟩ := requireItem_ok hfound
    obtain ⟨_, db₂, hcheck, h⟩ := bind_eq_ok.mp h
    obtain ⟨-, rfl⟩ := requireIdle_eq_ok.mp hcheck
    obtain ⟨commandId, db₃, hcommandId, h⟩ := bind_eq_ok.mp h
    have hprepares : Prepares ({} : Permit).command {} db db₃ := prepares_generateId hcommandId
    have hkeys₃ := hprepares.orders id
    have hcommands₃ : ∀ command ∈ db₃.commands.rows, command ∈ db.commands.rows :=
      fun command hcommand ↦ (hprepares.commands command hcommand).resolve_right id
    split_ifs at h with hexisting
    · rw [get_bind_eq_ok] at h
      obtain ⟨order, hbound, h⟩ := orRaise_bind_eq_ok.mp h
      obtain ⟨horder, hboard, hworkspaces, hcommands⟩ := recordItemCommand_ok h
      obtain ⟨orderId, horderId, hfind⟩ := Option.bind_eq_some_iff.mp hbound
      obtain rfl := ((Table.find?_eq_some_iff _).mp hfind).2
      refine .existing item ⟨order.id, order.orderNo⟩ ⟨w, hw, hitem⟩ rfl horderId horder ?_ ?_ ?_
      · exact hworkspaces.trans hprepares.workspaces
      · rw [hboard, hkeys₃]
      · intro command hcommand
        refine (hcommands command hcommand).imp (hcommands₃ command) fun hnew ↦ ?_
        exact ⟨⟨payload, hnew.1⟩, hnew.2⟩
    · obtain ⟨effect, db₄, hchange, h⟩ := bind_eq_ok.mp h
      obtain ⟨_, db₅, hsave, h⟩ := bind_eq_ok.mp h
      obtain rfl := save_eq_ok.mp hsave
      obtain ⟨horder, hboard, hworkspaces, hcommands⟩ := recordItemCommand_ok h
      have hsound₃ : db₃.Sound := hsound.progress (Prepares.progress hsound hprepares)
      have hw₃ : w ∈ db₃.workspaces.rows := hprepares.workspaces.symm ▸ hw
      obtain ⟨hstatus, order, heffect, hkeys, hmakes, hcreated⟩ :=
        confirmItem_ok hsound₃ hw₃ hitem hchange
      refine .added w effect.workspace item order hw hitem rfl hstatus (horder.trans heffect) ?_ ?_
        hmakes.changes.owner.1 ?_ hcreated ?_
      · rw [hboard]
        exact hkeys.trans (congrArg (· ++ [order.id]) hkeys₃)
      · rw [hworkspaces, hmakes.prepares.workspaces, hprepares.workspaces]
      · exact hmakes.changes.bonds
      · intro command hcommand
        rcases hcommands command hcommand with hold | hnew
        · exact Or.inl (hcommands₃ command
            ((hmakes.prepares.commands command hold).resolve_right id))
        · exact Or.inr ⟨⟨payload, hnew.1⟩, hnew.2⟩

/-! ### The history of orders -/

/-- The orders that a later state has and an earlier one had not. -/
def newOrders (db db' : AgentDb) : List Id :=
  db'.board.orders.keys.filter (· ∉ db.board.orders.keys)

theorem newOrders_eq_nil (h : db'.board.orders.keys = db.board.orders.keys) :
    newOrders db db' = [] := by
  unfold newOrders
  rw [h, List.filter_eq_nil_iff]
  simp

/-- The orders that a call creates from an item: those that a command on the item adds. -/
def confirmed (db : AgentDb) (input : AgentInput) : List (Id × Id) :=
  match input.op with
  | .itemCommand itemId .. => (newOrders db (step db input)).map (itemId, ·)
  | _ => []

/-- What is known of the orders that were created: no item has two, an item that has one is created
and is bound to it or to none, and a stored confirmation names it. -/
structure Minted (db : AgentDb) (past : List (Id × Id)) : Prop where
  sound : db.Sound
  once : (past.map Prod.fst).Nodup
  issued : ∀ minted ∈ past, minted.1 ∈ db.board.issued
  created : ∀ minted ∈ past, ∀ item, db.HasItem item → item.id = minted.1 → item.status = .created
  bonds : ∀ item, db.HasItem item → ∀ orderId ∈ item.orderId, (item.id, orderId) ∈ past
  commands : ∀ command ∈ db.commands.rows, ∀ itemId, Confirms itemId command →
    ∃ order, command.result.order = some order ∧ (itemId, order.id) ∈ past

variable {past : List (Id × Id)}

/-- An order that came of an item is the one order that did. -/
theorem Minted.unique (h : Minted db past) {itemId orderId orderId' : Id}
    (hmem : (itemId, orderId) ∈ past) (hmem' : (itemId, orderId') ∈ past) : orderId = orderId' :=
  congrArg Prod.snd (List.inj_on_of_nodup_map h.once hmem hmem' rfl)

theorem Minted.keep_created (h : Minted db past) (hprogress : Progress permit db db') :
    ∀ minted ∈ past, ∀ item, db'.HasItem item → item.id = minted.1 → item.status = .created := by
  intro minted hminted item' hitem' hid
  have hcontinues := hprogress.continues h.sound
  obtain ⟨item, hitem, hitemId, -⟩ := hcontinues.origin item' hitem'
    (hid ▸ h.issued minted hminted)
  have hcreated := h.created minted hminted item hitem (hitemId.trans hid)
  exact (hcontinues.status_eq h.sound hitem hitem' hitemId.symm (Or.inl hcreated)).trans hcreated

/-- A transaction that may neither bind an item nor store a confirmation. -/
theorem Minted.keep (h : Minted db past) (hprogress : Progress permit db db')
    (hbond : ∀ bond, ¬ permit.bond bond)
    (hcommand : ∀ command, permit.command command → ∀ itemId, ¬ Confirms itemId command) :
    Minted db' past where
  sound := h.sound.progress hprogress
  once := h.once
  issued minted hminted := hprogress.issued (h.issued minted hminted)
  created := h.keep_created hprogress
  bonds item hitem orderId horder := by
    obtain ⟨w', hw', hitem⟩ := hitem
    have hmem : (item.id, orderId) ∈ w'.bonds :=
      Workspace.mem_bonds.mpr ⟨item, hitem, rfl, horder⟩
    rcases hprogress.evolves w' hw' with ⟨w, hw, hevolves⟩ | ⟨session, -, -, hevolves⟩
    · rcases hevolves.changes.bonds _ hmem with hold | hnew
      · obtain ⟨old, hold, hid, horder⟩ := Workspace.mem_bonds.mp hold
        have hsame : old.id = item.id := hid
        exact hsame ▸ h.bonds old ⟨w, hw, hold⟩ orderId horder
      · exact absurd hnew (hbond _)
    · rcases hevolves.changes.bonds _ hmem with hold | hnew
      · cases hold
      · exact absurd hnew (hbond _)
  commands command hmem itemId hconfirms := by
    rcases hprogress.commands command hmem with hold | hnew | ⟨runId, followed, hrequest, -⟩
    · exact h.commands command hold itemId hconfirms
    · exact absurd hconfirms (hcommand command hnew itemId)
    · obtain ⟨payload, hconfirms⟩ := hconfirms
      rw [hrequest] at hconfirms
      cases hconfirms

/-- A confirmation appends the order that it adds, if any. -/
theorem Minted.confirm (h : Minted db past) (hprogress : Progress permit db db') {itemId : Id}
    {result : CommandResult} (hconfirmation : Confirmation itemId result db db') :
    Minted db' (past ++ (newOrders db db').map (itemId, ·)) := by
  have hissued : ∀ minted ∈ past, minted.1 ∈ db'.board.issued :=
    fun minted hminted ↦ hprogress.issued (h.issued minted hminted)
  have hsound := h.sound.progress hprogress
  cases hconfirmation with
  | repeated command hcommand hconfirms hresult hsame =>
    rw [newOrders_eq_nil (hsame ▸ rfl), List.map_nil, List.append_nil, hsame]
    exact h
  | existing item order hitem hid hbound horder hworkspaces hkeys hcommands =>
    have hitems : ∀ other, db'.HasItem other → db.HasItem other := by
      rintro other ⟨w, hw, hother⟩
      exact ⟨w, hworkspaces ▸ hw, hother⟩
    have hmem : (itemId, order.id) ∈ past := hid ▸ h.bonds item hitem order.id hbound
    rw [newOrders_eq_nil hkeys, List.map_nil, List.append_nil]
    refine ⟨hsound, h.once, hissued, h.keep_created hprogress,
      fun other hother ↦ h.bonds other (hitems other hother), ?_⟩
    intro command hcommand confirmedId hconfirms
    rcases hcommands command hcommand with hold | ⟨⟨payload, hrequest⟩, hresult⟩
    · exact h.commands command hold confirmedId hconfirms
    · obtain ⟨payload', hrequest'⟩ := hconfirms
      rw [hrequest] at hrequest'
      injection hrequest' with _ hsame
      exact ⟨order, hresult ▸ horder, hsame ▸ hmem⟩
  | added w w' item order hw hitem hid hstatus horder hkeys hworkspaces hsession hbonds hcreated
      hcommands =>
    have hfreshOrder : order.id ∉ db.board.orders.keys := by
      have hnodup : db'.board.orders.keys.Nodup := db'.board.orders.nodup
      rw [hkeys] at hnodup
      exact fun hmem ↦ (List.disjoint_of_nodup_append hnodup) hmem List.mem_cons_self
    have hnew : (newOrders db db').map (itemId, ·) = [(itemId, order.id)] := by
      unfold newOrders
      rw [hkeys, List.filter_append, List.filter_eq_nil_iff.mpr (by simp), List.nil_append,
        List.filter_cons_of_pos (by simpa using hfreshOrder)]
      rfl
    have hunminted : itemId ∉ past.map Prod.fst := by
      intro hmem
      obtain ⟨minted, hminted, heq⟩ := List.mem_map.mp hmem
      exact hstatus (h.created minted hminted item ⟨w, hw, hitem⟩ (hid.trans heq.symm))
    -- A row of the later state is of the session that was written, or was there before.
    have hrows : ∀ row, db'.HasItem row → row ∈ w'.items.rows ∨
        ∃ v ∈ db.workspaces.rows, row ∈ v.items.rows ∧ v.session.id ≠ w.session.id := by
      rintro row ⟨v, hv, hrow⟩
      rw [hworkspaces] at hv
      rcases (Table.mem_put _).mp hv with rfl | ⟨hold, hne⟩
      · exact Or.inl hrow
      · exact Or.inr ⟨v, hold, hrow, fun heq ↦ hne (heq.trans hsession.symm)⟩
    rw [hnew]
    constructor
    · exact hsound
    · rw [List.map_append]
      exact h.once.append (List.nodup_singleton _) (List.disjoint_singleton.mpr hunminted)
    · intro minted hminted
      rcases List.mem_append.mp hminted with hold | hlast
      · exact hissued minted hold
      · rw [List.mem_singleton.mp hlast, ← hid]
        exact hprogress.issued (h.sound.item_issued ⟨w, hw, hitem⟩)
    · intro minted hminted row hrow hrowId
      rcases List.mem_append.mp hminted with hold | hlast
      · exact h.keep_created hprogress minted hold row hrow hrowId
      · rw [List.mem_singleton.mp hlast] at hrowId
        rcases hrows row hrow with hwritten | ⟨v, hv, hmem, hne⟩
        · exact hcreated row hwritten hrowId
        · have huses : v.Uses itemId := Or.inr (Or.inl ((Table.mem_keys _).mpr ⟨row, hmem, hrowId⟩))
          have huses' : w.Uses itemId := Or.inr (Or.inl ((Table.mem_keys _).mpr ⟨item, hitem, hid⟩))
          exact absurd (congrArg (·.session.id) (h.sound.apart v hv w hw itemId huses huses')) hne
    · intro row hrow orderId horderId
      rcases hrows row hrow with hwritten | ⟨v, hv, hmem, -⟩
      · rcases hbonds (row.id, orderId) (Workspace.mem_bonds.mpr
          ⟨row, hwritten, rfl, horderId⟩) with hold | hlast
        · obtain ⟨old, hold, hid, hbound⟩ := Workspace.mem_bonds.mp hold
          have hsame : old.id = row.id := hid
          exact List.mem_append_left _ (hsame ▸ h.bonds old ⟨w, hw, hold⟩ orderId hbound)
        · rw [hlast]
          exact List.mem_append_right _ List.mem_cons_self
      · exact List.mem_append_left _ (h.bonds row ⟨v, hv, hmem⟩ orderId horderId)
    · intro command hcommand confirmedId hconfirms
      rcases hcommands command hcommand with hold | ⟨⟨payload, hrequest⟩, hresult⟩
      · obtain ⟨found, hfound, hmem⟩ := h.commands command hold confirmedId hconfirms
        exact ⟨found, hfound, List.mem_append_left _ hmem⟩
      · obtain ⟨payload', hrequest'⟩ := hconfirms
        rw [hrequest] at hrequest'
        injection hrequest' with _ hsame
        exact ⟨order, hresult ▸ horder, hsame ▸ List.mem_append_right _ List.mem_cons_self⟩

/-- One call appends the orders that it creates from an item. -/
theorem Minted.step (h : Minted db past) (input : AgentInput) :
    Minted (step db input) (past ++ confirmed db input) := by
  have hprogress := progress_step h.sound input
  obtain ⟨call, later, op⟩ := input
  have hquiet : (∀ bond, ¬ op.permit.bond bond) →
      (∀ command, op.permit.command command → ∀ itemId, ¬ Confirms itemId command) →
      confirmed db ⟨call, later, op⟩ = [] →
        Minted (Agent.step db ⟨call, later, op⟩) (past ++ confirmed db ⟨call, later, op⟩) := by
    intro hbond hcommand hnone
    rw [hnone, List.append_nil]
    exact h.keep hprogress hbond hcommand
  have hother : ∀ {userId : Id} {key : String} {request : CommandRequest},
      (∀ itemId payload, request ≠ .itemCommand .confirmOrder itemId payload) →
      ∀ command, Commanded userId key request command → ∀ itemId, ¬ Confirms itemId command := by
    rintro userId key request hrequest command ⟨-, -, hsame⟩ itemId ⟨payload, hconfirms⟩
    exact hrequest itemId payload (hsame.symm.trans hconfirms)
  cases op with
  | itemCommand itemId userId key kind payload =>
    by_cases hkind : kind = .confirmOrder
    · obtain rfl := hkind
      rcases commit_cases (itemCommand call itemId userId key .confirmOrder payload) db with
        heq | ⟨result, db', hok, heq⟩
      · change Minted (commit _ db) (past ++ (newOrders db (commit _ db)).map (itemId, ·))
        rw [heq, newOrders_eq_nil rfl, List.map_nil, List.append_nil]
        exact h
      · change Minted (commit _ db) (past ++ (newOrders db (commit _ db)).map (itemId, ·))
        rw [heq]
        exact h.confirm (progress_itemCommand h.sound hok) (itemCommand_confirmation h.sound hok)
    · refine hquiet (fun bond hbond ↦ hkind hbond.1) (hother fun _ _ heq ↦ ?_) ?_
      · injection heq with heq
        exact hkind heq
      · change (newOrders db _).map (itemId, ·) = []
        rw [newOrders_eq_nil (hprogress.orders hkind), List.map_nil]
  | createSession | enterWorkspace | retryRun | changeStatus | nextItem | archiveScreenshot
  | deleteScreenshot | planCommand => exact hquiet (fun _ ↦ id) (hother fun _ _ ↦ nofun) rfl
  | _ => exact hquiet (fun _ ↦ id) (fun _ hcommand ↦ False.elim hcommand) rfl

/-! ### Every run of the system -/

theorem minted_run (board : Board) (inputs : List AgentInput) :
    Minted (System.run step (.start board) inputs)
      (System.outputs step confirmed (.start board) inputs) := by
  have hstart : Minted (.start board) [] :=
    ⟨.start board, List.nodup_nil, fun _ h ↦ absurd h List.not_mem_nil,
      fun _ h ↦ absurd h List.not_mem_nil, fun _ ⟨_, h, _⟩ ↦ absurd h List.not_mem_nil,
      fun _ h ↦ absurd h List.not_mem_nil⟩
  exact System.history_run (fun _ input _ h ↦ h.step input) inputs _ [] hstart

/-- A confirmation of an item from which an order was created returns that order, and adds none. -/
theorem Minted.returns (h : Minted db past) {itemId orderId : Id}
    (hminted : (itemId, orderId) ∈ past)
    {userId : Id} {key : String} {payload : ActionPayload} {result : CommandResult}
    (hok : itemCommand call itemId userId key .confirmOrder payload db = .ok result db') :
    result.order.map OrderRef.id = some orderId ∧
      db'.board.orders.keys = db.board.orders.keys := by
  cases itemCommand_confirmation h.sound hok with
  | repeated command hcommand hconfirms hresult hsame =>
    obtain ⟨order, horder, hmem⟩ := h.commands command hcommand itemId hconfirms
    rw [← hresult, horder, hsame]
    exact ⟨congrArg some (h.unique hmem hminted), rfl⟩
  | existing item order hitem hid hbound horder hworkspaces hkeys hcommands =>
    have hmem : (itemId, order.id) ∈ past := hid ▸ h.bonds item hitem order.id hbound
    rw [horder, hkeys]
    exact ⟨congrArg some (h.unique hmem hminted), rfl⟩
  | added w w' item order hw hitem hid hstatus =>
    exact absurd (h.created _ hminted item ⟨w, hw, hitem⟩ hid) hstatus

/-- Over every history, at most one order is created from an item, whatever becomes of the order; a
confirmation of an item from which an order was created returns that order and adds none, or changes
nothing; and no order comes up except from an item or by the work of the other services. -/
theorem orders_created_once (board : Board) (inputs : List AgentInput) :
    ((System.outputs step confirmed (.start board) inputs).map Prod.fst).Nodup ∧
    (∀ itemId orderId, (itemId, orderId) ∈ System.outputs step confirmed (.start board) inputs →
      ∀ call later userId key payload,
        (∃ result db', itemCommand call itemId userId key .confirmOrder payload
            (System.run step (.start board) inputs) = .ok result db' ∧
          result.order.map OrderRef.id = some orderId ∧
          db'.board.orders.keys = (System.run step (.start board) inputs).board.orders.keys) ∨
        step (System.run step (.start board) inputs)
            ⟨call, later, .itemCommand itemId userId key .confirmOrder payload⟩ =
          System.run step (.start board) inputs) ∧
    ∀ input, (∀ work, input.op ≠ .board work) →
      ∀ orderId ∈ (step (System.run step (.start board) inputs) input).board.orders.keys,
        orderId ∈ (System.run step (.start board) inputs).board.orders.keys ∨
          ∃ itemId,
            (itemId, orderId) ∈ confirmed (System.run step (.start board) inputs) input := by
  have h := minted_run board inputs
  refine ⟨h.once, ?_, ?_⟩
  · intro itemId orderId hminted call later userId key payload
    rcases commit_cases (itemCommand call itemId userId key .confirmOrder payload)
      (System.run step (.start board) inputs) with heq | ⟨result, db', hok, -⟩
    · exact Or.inr heq
    · exact Or.inl ⟨result, db', hok, h.returns hminted hok⟩
  · intro input hwork orderId horder
    have hprogress := progress_step h.sound input
    obtain ⟨call, later, op⟩ := input
    cases op with
    | itemCommand itemId userId key kind payload =>
      by_cases hold : orderId ∈ (System.run step (.start board) inputs).board.orders.keys
      · exact Or.inl hold
      · refine Or.inr ⟨itemId, List.mem_map.mpr ⟨orderId, ?_, rfl⟩⟩
        exact List.mem_filter.mpr ⟨horder, decide_eq_true hold⟩
    | board work => exact absurd rfl (hwork work)
    | _ => exact Or.inl (hprogress.orders id ▸ horder)

end FilmOS.Agent
