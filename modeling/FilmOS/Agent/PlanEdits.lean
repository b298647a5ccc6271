import FilmOS.Agent.Plans
import FilmOS.Agent.Statements
import FilmOS.Scheduling.Acceptance

/-!
# Edits of a draft

An edit replaces the tasks of a draft by a list that the client sends. What it may not do is lose an
order or schedule one twice: `SoundDraft` says that the tasks of a plan and its unassigned rows hold
the input orders each once, and that the draft identifiers of the tasks are distinct. It holds of a
plan as `create_schedule_plan` and `generate` leave it (`soundDraft_created`,
`soundDraft_generated`) and is kept by `update_schedule_draft` (`updateScheduleDraft_ok`) and by the
renumbering in `patch_plan` (`withDraftIds_ok`).

`draft_edits` is the account of one edit of a draft that was created and edited in any way before,
with any changes elsewhere in between (`Drafted`).
-/

set_option autoImplicit false
set_option relaxedAutoImplicit false

namespace FilmOS.Scheduling

open Transaction Production

/-! ### Sound drafts -/

/-- The tasks of a plan and its unassigned rows hold its input orders, each once; the tasks have
orders; and their draft identifiers, among `issued`, are distinct. A plan that no run created has no
draft identifiers. -/
structure SoundDraft (issued : List Id) (plan : SchedulePlan) : Prop where
  nodup : plan.inputOrderIds.Nodup
  perm : (plan.tasks.flatMap ProposedTask.orderIds ++
    plan.unassigned.map UnassignedOrder.orderId).Perm plan.inputOrderIds
  nonempty : ∀ task ∈ plan.tasks, task.orderIds ≠ []
  distinct : (plan.tasks.filterMap ProposedTask.draftTaskId).Nodup
  drawn : ∀ task ∈ plan.tasks, ∀ id, task.draftTaskId = some id → id ∈ issued ∧ id ≠ ""
  unnumbered : plan.createdByRunId = none → ∀ task ∈ plan.tasks, task.draftTaskId = none

/-- The parts of a plan that an edit is about. -/
def draftContent (plan : SchedulePlan) :
    Option Id × List Id × List ProposedTask × List UnassignedOrder :=
  (plan.createdByRunId, plan.inputOrderIds, plan.tasks, plan.unassigned)

theorem SoundDraft.of_content_eq {issued issued' : List Id} {plan plan' : SchedulePlan}
    (h : SoundDraft issued plan) (hcontent : draftContent plan' = draftContent plan)
    (hissued : issued ⊆ issued') : SoundDraft issued' plan' := by
  unfold draftContent at hcontent
  simp only [Prod.mk.injEq] at hcontent
  obtain ⟨hrun, hinput, htasks, hunassigned⟩ := hcontent
  constructor
  · exact hinput ▸ h.nodup
  · rw [hinput, htasks, hunassigned]
    exact h.perm
  · exact htasks ▸ h.nonempty
  · exact htasks ▸ h.distinct
  · intro task htask id hid
    rw [htasks] at htask
    obtain ⟨hmem, hne⟩ := h.drawn task htask id hid
    exact ⟨hissued hmem, hne⟩
  · rw [hrun, htasks]
    exact h.unnumbered

/-- No two tasks in different places share their list of orders. -/
theorem pairwise_orderIds {tasks : List ProposedTask}
    (hnodup : (tasks.flatMap ProposedTask.orderIds).Nodup)
    (hnonempty : ∀ task ∈ tasks, task.orderIds ≠ []) :
    tasks.Pairwise (fun first second ↦ first.orderIds ≠ second.orderIds) := by
  refine (List.nodup_flatMap.mp hnodup).2.imp_of_mem ?_
  intro first second hfirst _ hdisjoint hsame
  obtain ⟨id, hid⟩ := List.exists_mem_of_ne_nil _ (hnonempty first hfirst)
  exact hdisjoint hid (hsame ▸ hid)

/-- A plan has one task at most for a list of orders. -/
theorem SoundDraft.eq_of_orderIds {issued : List Id} {plan : SchedulePlan}
    (h : SoundDraft issued plan) {first second : ProposedTask} (hfirst : first ∈ plan.tasks)
    (hsecond : second ∈ plan.tasks) (hsame : first.orderIds = second.orderIds) :
    first = second := by
  have hnodup := (h.perm.nodup_iff.mpr h.nodup).of_append_left
  have hpairwise := pairwise_orderIds hnodup h.nonempty
  have : Std.Symm fun first second : ProposedTask ↦ first.orderIds ≠ second.orderIds :=
    ⟨fun _ _ h ↦ h.symm⟩
  by_contra hne
  exact hpairwise.forall hfirst hsecond hne hsame

/-- A draft identifier belongs to one task. -/
theorem eq_of_draftTaskId {tasks : List ProposedTask}
    (hnodup : (tasks.filterMap ProposedTask.draftTaskId).Nodup) {first second : ProposedTask}
    (hfirst : first ∈ tasks) (hsecond : second ∈ tasks) {id : Id}
    (hfirstId : first.draftTaskId = some id) (hsecondId : second.draftTaskId = some id) :
    first = second := by
  have hpairwise := List.pairwise_filterMap.mp hnodup
  have : Std.Symm fun first second : ProposedTask ↦
      ∀ a, first.draftTaskId = some a → ∀ b, second.draftTaskId = some b → a ≠ b :=
    ⟨fun _ _ h a ha b hb heq ↦ h b hb a ha heq.symm⟩
  by_contra hne
  exact hpairwise.forall hfirst hsecond hne id hfirstId id hsecondId rfl

/-! ### The edit of the scheduling service -/

/-- The validator accepts the orders of a task on its machine, with the width that it records. -/
def PassesValidator (board : Board) (task : ProposedTask) : Prop :=
  ∃ machine batch, board.machines.find? task.machineId = some machine ∧
    (∀ order ∈ batch, order ∈ board.orders.rows) ∧ batch.map Order.id = task.orderIds ∧
    validateMachineBatch machine batch = .ok task.totalWidth

/-- The orders of the identifiers, all found. -/
theorem map_id_filterMap_find? {orders : List Order} {ids : List Id}
    (h : ∀ id ∈ ids, id ∈ orders.map Order.id) :
    (ids.filterMap (fun id ↦ orders.find? (·.id = id))).map Order.id = ids := by
  induction ids with
  | nil => rfl
  | cons id ids ih =>
    obtain ⟨order, horder, hid⟩ := List.mem_map.mp (h id List.mem_cons_self)
    cases hfind : orders.find? (·.id = id) with
    | none =>
      have hnone := List.find?_eq_none.mp hfind order horder
      exact absurd hid (by simpa using hnone)
    | some found =>
      have hfound : found.id = id := by simpa using List.find?_some hfind
      rw [List.filterMap_cons, hfind, List.map_cons, hfound,
        ih fun other hother ↦ h other (List.mem_cons_of_mem _ hother)]

/-- An accepted task of an edit. -/
structure AdjustedTo (board : Board) (plan : SchedulePlan) (task : DraftTask)
    (adjusted : ProposedTask) : Prop where
  machineId_eq : adjusted.machineId = task.machineId
  orderIds_eq : adjusted.orderIds = task.orderIds
  draftTaskId_eq : adjusted.draftTaskId = none
  nonempty : adjusted.orderIds ≠ []
  nodup : adjusted.orderIds.Nodup
  input : ∀ id ∈ adjusted.orderIds, id ∈ plan.inputOrderIds
  accepted : PassesValidator board adjusted

theorem adjustedTask_ok {board : Board} {plan : SchedulePlan} {assigned : List Id}
    {task : DraftTask} {adjusted : ProposedTask}
    (h : adjustedTask board plan assigned task = .ok adjusted) :
    AdjustedTo board plan task adjusted ∧ ∀ id ∈ adjusted.orderIds, id ∉ assigned := by
  unfold adjustedTask at h
  cases hfind : board.loadMachines.find? (fun machine ↦ machine.machine.id = task.machineId) with
  | none =>
    rw [hfind] at h
    cases h
  | some loaded =>
    rw [hfind] at h
    simp only [except_bind_eq_ok, ensure_eq_ok, exists_const] at h
    obtain ⟨⟨hapart, hnodup⟩, hfound, width, hwidth, h⟩ := h
    obtain rfl := Except.ok.inj h
    have hid : loaded.machine.id = task.machineId := by simpa using List.find?_some hfind
    have hids := map_id_filterMap_find? fun id hmem ↦ (hfound id hmem).2
    have hmachine : loaded.machine ∈ board.machines.rows := by
      obtain ⟨row, hrow, heq⟩ := List.mem_map.mp (List.mem_of_find?_eq_some hfind)
      rw [← heq]
      exact (List.mem_filter.mp ((mem_orderBy _ _ _).mp hrow)).1
    refine ⟨⟨hid, rfl, rfl, ?_, hnodup, fun id hmem ↦ (hfound id hmem).1, ?_⟩, hapart⟩
    · have hne := ((validateMachineBatch_eq_ok_iff _ _ _).mp hwidth).nonempty
      intro hnil
      exact hne (by rw [show task.orderIds = [] from hnil]; rfl)
    · refine ⟨loaded.machine, _, ?_, fun order horder ↦ ?_, hids, hwidth⟩
      · exact board.machines.find?_of_mem hmachine rfl
      · obtain ⟨id, -, hsome⟩ := List.mem_filterMap.mp horder
        exact (List.mem_filter.mp ((mem_orderBy _ _ _).mp (List.mem_of_find?_eq_some hsome))).1

/-- The accepted tasks of an edit, none of whose orders is in two of them or was assigned before. -/
theorem adjustedTasks_ok {board : Board} {plan : SchedulePlan} {tasks : List DraftTask} :
    ∀ {assigned : List Id} {adjusted : List ProposedTask},
      adjustedTasks board plan tasks assigned = .ok adjusted →
      List.Forall₂ (AdjustedTo board plan) tasks adjusted ∧
        (adjusted.flatMap ProposedTask.orderIds).Nodup ∧
        ∀ id ∈ adjusted.flatMap ProposedTask.orderIds, id ∉ assigned := by
  induction tasks with
  | nil =>
    intro assigned adjusted h
    obtain rfl := Except.ok.inj h
    refine ⟨List.Forall₂.nil, ?_, ?_⟩
    · exact List.nodup_nil
    · intro id hid
      cases hid
  | cons task tasks ih =>
    intro assigned adjusted h
    unfold adjustedTasks at h
    simp only [except_bind_eq_ok, except_pure_eq_ok] at h
    obtain ⟨first, hfirst, others, hothers, rfl⟩ := h
    obtain ⟨hadjusted, hapart⟩ := adjustedTask_ok hfirst
    obtain ⟨hrest, hnodup, hothersApart⟩ := ih hothers
    refine ⟨List.Forall₂.cons hadjusted hrest, ?_, ?_⟩
    · rw [List.flatMap_cons]
      refine List.Nodup.append hadjusted.nodup hnodup fun id hid hother ↦ ?_
      refine hothersApart id hother (List.mem_append_right _ ?_)
      rwa [← hadjusted.orderIds_eq]
    · intro id hid
      rw [List.flatMap_cons, List.mem_append] at hid
      rcases hid with hid | hid
      · exact hapart id hid
      · exact fun hmem ↦ hothersApart id hid (List.mem_append_left _ hmem)

theorem orderId_unassignedOrder {board : Board} {id : Id} {row : UnassignedOrder}
    (h : unassignedOrder board id = .ok row) : row.orderId = id := by
  unfold unassignedOrder at h
  split at h
  · cases h
  · rw [← Except.ok.inj h]

/-- What an accepted edit puts in the place of the tasks and the unassigned rows. -/
theorem updateScheduleDraft_ok {planId userId : Id}
    {revision : List ProposedTask × List UnassignedOrder} {tasks : List DraftTask} {allowV2 : Bool}
    {board board' : Board} {edited : SchedulePlan}
    (h : updateScheduleDraft planId userId revision tasks allowV2 board = .ok edited board') :
    ∃ plan adjusted unassigned, board.plans.find? planId = some plan ∧
      (plan.createdByRunId = none ∨ allowV2 = true) ∧
      List.Forall₂ (AdjustedTo board plan) tasks adjusted ∧
      (adjusted.flatMap ProposedTask.orderIds).Nodup ∧
      unassigned.map UnassignedOrder.orderId =
        plan.inputOrderIds.filter (· ∉ adjusted.flatMap ProposedTask.orderIds) ∧
      edited = { plan with tasks := adjusted, unassigned } ∧
      board' = { board with
        plans := board.plans.update planId
          (fun row ↦ { row with tasks := adjusted, unassigned }) } := by
  unfold updateScheduleDraft at h
  simp only [get_bind_eq_ok, orRaise_bind_eq_ok, require_bind_eq_ok, checked_bind_eq_ok,
    set_bind_eq_ok, pure_eq_ok, Option.filter_eq_some_iff, decide_eq_true_eq] at h
  obtain ⟨plan, ⟨hfind, -, hallow⟩, -, -, adjusted, hadjusted, unassigned, hunassigned, rfl,
    rfl⟩ := h
  obtain ⟨hall, hnodup, -⟩ := adjustedTasks_ok hadjusted
  refine ⟨plan, adjusted, unassigned, hfind, hallow, hall, hnodup, ?_, rfl, rfl⟩
  have hrows := (forall₂_of_mapM_eq_ok hunassigned).imp fun _ _ ↦ orderId_unassignedOrder
  generalize plan.inputOrderIds.filter (· ∉ adjusted.flatMap ProposedTask.orderIds) = ids at hrows
  clear hunassigned
  induction hrows with
  | nil => rfl
  | cons hid _ ih => rw [List.map_cons, hid, ih]

theorem exists_left_of_forall₂ {α β : Type} {R : α → β → Prop} {as : List α} {bs : List β}
    (h : List.Forall₂ R as bs) : ∀ b ∈ bs, ∃ a ∈ as, R a b := by
  induction h with
  | nil =>
    intro b hb
    cases hb
  | cons hab _ ih =>
    intro b hb
    rcases List.mem_cons.mp hb with rfl | hb
    · exact ⟨_, List.mem_cons_self, hab⟩
    · obtain ⟨a, ha, hR⟩ := ih b hb
      exact ⟨a, List.mem_cons_of_mem _ ha, hR⟩

/-- An edit keeps the account of the input orders; its tasks have no draft identifiers. -/
theorem SoundDraft.edited {issued : List Id} {board : Board} {plan : SchedulePlan}
    (h : SoundDraft issued plan) {tasks : List DraftTask} {adjusted : List ProposedTask}
    {unassigned : List UnassignedOrder}
    (hall : List.Forall₂ (AdjustedTo board plan) tasks adjusted)
    (hnodup : (adjusted.flatMap ProposedTask.orderIds).Nodup)
    (hunassigned : unassigned.map UnassignedOrder.orderId =
      plan.inputOrderIds.filter (· ∉ adjusted.flatMap ProposedTask.orderIds)) :
    SoundDraft issued { plan with tasks := adjusted, unassigned } := by
  have hadjusted := exists_left_of_forall₂ hall
  have hnone : adjusted.filterMap ProposedTask.draftTaskId = [] := by
    refine List.filterMap_eq_nil_iff.mpr fun new hnew ↦ ?_
    obtain ⟨task, -, hto⟩ := hadjusted new hnew
    exact hto.draftTaskId_eq
  constructor
  · exact h.nodup
  · refine (List.perm_ext_iff_of_nodup ?_ h.nodup).mpr fun id ↦ ?_
    · refine List.Nodup.append hnodup ?_ fun id hid hother ↦ ?_
      · rw [hunassigned]
        exact h.nodup.filter _
      · rw [hunassigned, List.mem_filter, decide_eq_true_eq] at hother
        exact hother.2 hid
    · rw [hunassigned, List.mem_append, List.mem_filter, decide_eq_true_eq]
      constructor
      · rintro (hid | ⟨hid, -⟩)
        · obtain ⟨new, hnew, hid⟩ := List.mem_flatMap.mp hid
          obtain ⟨task, -, hto⟩ := hadjusted new hnew
          exact hto.input id hid
        · exact hid
      · intro hid
        by_cases hmem : id ∈ adjusted.flatMap ProposedTask.orderIds
        · exact .inl hmem
        · exact .inr ⟨hid, hmem⟩
  · intro new hnew
    obtain ⟨task, -, hto⟩ := hadjusted new hnew
    exact hto.nonempty
  · exact hnone.symm ▸ List.nodup_nil
  · intro new hnew id hid
    obtain ⟨task, -, hto⟩ := hadjusted new hnew
    rw [hto.draftTaskId_eq] at hid
    cases hid
  · intro _ new hnew
    obtain ⟨task, -, hto⟩ := hadjusted new hnew
    exact hto.draftTaskId_eq

/-- The unassigned rows of a created draft are those of the planner's proposal. -/
theorem unassigned_createSchedulePlan {call : Call} {sessionId userId : Id}
    {orderIds : Option (List Id)} {board board' : Board} {plan : SchedulePlan}
    (h : createSchedulePlan call sessionId userId orderIds board = .ok plan board')
    {orders : List Order} {proposal : Proposal}
    (horders : plannedOrders board orderIds = .ok orders)
    (hproposal : buildTasks orders board.loadMachines = .ok proposal) :
    plan.unassigned = proposal.unassigned := by
  unfold createSchedulePlan Board.generateId at h
  simp only [get_bind_eq_ok, set_bind_eq_ok, orRaise_bind_eq_ok, checked_bind_eq_ok, pure_eq_ok,
    bind_assoc, pure_bind] at h
  obtain ⟨orders', horders', proposal', hproposal', plans, hinsert, rfl, rfl⟩ := h
  obtain rfl := Except.ok.inj (horders.symm.trans horders')
  obtain rfl := Except.ok.inj (hproposal.symm.trans hproposal')
  rfl

/-- A plan is sound as it is created. -/
theorem soundDraft_created {call : Call} {sessionId userId : Id} {orderIds : Option (List Id)}
    {board board' : Board} {plan : SchedulePlan}
    (h : createSchedulePlan call sessionId userId orderIds board = .ok plan board') :
    board'.plans.find? plan.id = some plan ∧ SoundDraft board'.issued plan := by
  obtain ⟨orders, proposal, plans, issued, horders, hproposal, -, -, -, hinput, htasks, -, hinsert,
    hboard⟩ := createSchedulePlan_ok h
  have hunassigned := unassigned_createSchedulePlan h horders hproposal
  rw [hboard]
  obtain ⟨hnodup, hrows⟩ := plannedOrders_ok horders
  obtain ⟨other, hother, hplanned⟩ := buildTasks_planned orders board.loadMachines hnodup
  obtain rfl := Except.ok.inj (hproposal.symm.trans hother)
  have hnone : ∀ task ∈ plan.tasks, task.draftTaskId = none := by
    intro task htask
    rw [htasks] at htask
    obtain ⟨machine, -, batch, -, hfor⟩ := hplanned.taskFor task htask
    exact hfor.draftTaskId_eq
  refine ⟨?_, ?_, ?_, ?_, ?_, ?_, fun _ ↦ hnone⟩
  · rw [Table.find?_insert? hinsert, key_schedulePlan, if_pos rfl]
  · rwa [hinput]
  · rw [htasks, hunassigned, hinput]
    exact hplanned.perm
  · intro task htask
    rw [htasks] at htask
    obtain ⟨machine, -, batch, -, hfor⟩ := hplanned.taskFor task htask
    rw [hfor.orderIds_eq]
    simpa using hfor.producible.nonempty
  · rw [List.filterMap_eq_nil_iff.mpr hnone]
    exact List.nodup_nil
  · intro task htask id hid
    rw [hnone task htask] at hid
    cases hid

end FilmOS.Scheduling

namespace FilmOS.Agent

open Transaction Production Scheduling

/-! ### Draft identifiers -/

/-- The identifiers drawn in a call are no empty texts: they have 32 hexadecimal digits. -/
def DrawsText (call : Call) : Prop := ∀ seen, call.source.pick seen ≠ ""

/-- A task with the identifier known for it, or with one drawn for it. -/
structure NumberedAs (known : ProposedTask → Option Id) (issued issued' : List Id)
    (task : ProposedTask) (id : Id) (task' : ProposedTask) : Prop where
  task_eq : task' = { task with draftTaskId := some id }
  drawn : id ∈ issued'
  ne_empty : id ≠ ""
  id_eq : truthy (known task) = some id ∨ (truthy (known task) = none ∧ id ∉ issued)

/-- Tasks that are known under distinct identifiers get distinct identifiers. -/
theorem withDraftIds_ok {call : Call} (hcall : DrawsText call) {known : ProposedTask → Option Id}
    {tasks : List ProposedTask} :
    ∀ {db db' : AgentDb} {tasks' : List ProposedTask},
      withDraftIds call known tasks db = .ok tasks' db' →
      (∀ task ∈ tasks, ∀ id, truthy (known task) = some id → id ∈ db.board.issued) →
      tasks.Pairwise (fun first second ↦
        ∀ id, truthy (known first) = some id → truthy (known second) ≠ some id) →
      ∃ issued, db.board.issued ⊆ issued ∧ db' = { db with board := { db.board with issued } } ∧
        List.Forall₂ (fun task task' ↦ ∃ id, NumberedAs known db.board.issued issued task id task')
          tasks tasks' ∧
        (tasks'.filterMap ProposedTask.draftTaskId).Nodup := by
  induction tasks with
  | nil =>
    intro db db' tasks' h _ _
    obtain ⟨rfl, rfl⟩ := pure_eq_ok.mp h
    exact ⟨db.board.issued, List.Subset.refl _, rfl, List.Forall₂.nil, List.nodup_nil⟩
  | cons task rest ih =>
    intro db db' tasks' h hknown hpairwise
    obtain ⟨hfirst, hrest⟩ := List.pairwise_cons.mp hpairwise
    -- what the first task adds to the identifiers that were drawn
    obtain ⟨id, issued, hsubset, hnumbered, h⟩ : ∃ id issued, db.board.issued ⊆ issued ∧
        NumberedAs known db.board.issued issued task id { task with draftTaskId := some id } ∧
        (do
          let others ← withDraftIds call known rest
          return { task with draftTaskId := some id } :: others : Txn Failure AgentDb _)
            { db with board := { db.board with issued } } = .ok tasks' db' := by
      unfold withDraftIds at h
      cases htruthy : truthy (known task) with
      | some old =>
        simp only [htruthy, pure_bind] at h
        refine ⟨old, db.board.issued, List.Subset.refl _, ⟨rfl, ?_, ?_, .inl htruthy⟩, h⟩
        · exact hknown task List.mem_cons_self old htruthy
        · exact (truthy_eq_some_iff.mp htruthy).2
      | none =>
        simp only [htruthy] at h
        obtain ⟨id, middle, hid, h⟩ := bind_eq_ok.mp h
        have hfresh := (fresh_generateId hid).1
        obtain ⟨hpick, rfl⟩ := generateId_eq_ok.mp hid
        refine ⟨id, _, List.subset_cons_self _ _, ⟨rfl, List.mem_cons_self, ?_,
          .inr ⟨htruthy, hfresh⟩⟩, h⟩
        rw [hpick]
        exact hcall _
    obtain ⟨others, last, hothers, h⟩ := bind_eq_ok.mp h
    obtain ⟨rfl, rfl⟩ := pure_eq_ok.mp h
    obtain ⟨issued', hsubset', rfl, hall, hnodup⟩ := ih hothers
      (fun other hother known hsome ↦
        hsubset (hknown other (List.mem_cons_of_mem _ hother) known hsome)) hrest
    refine ⟨issued', List.Subset.trans hsubset hsubset', rfl, List.Forall₂.cons ⟨id, ?_⟩ ?_, ?_⟩
    · exact ⟨rfl, hsubset' hnumbered.drawn, hnumbered.ne_empty, hnumbered.id_eq⟩
    · refine hall.imp fun other other' hother ↦ ?_
      obtain ⟨otherId, heq, hdrawn, hne, hidEq⟩ := hother
      exact ⟨otherId, heq, hdrawn, hne, hidEq.imp_right fun h ↦ ⟨h.1, fun hmem ↦ h.2
        (hsubset hmem)⟩⟩
    · refine List.nodup_cons.mpr ⟨fun hmem ↦ ?_, hnodup⟩
      obtain ⟨other', hother', hsome⟩ := List.mem_filterMap.mp hmem
      obtain ⟨other, hother, otherId, hotherNumbered⟩ := exists_left_of_forall₂ hall other' hother'
      rw [hotherNumbered.task_eq] at hsome
      obtain rfl := Option.some.inj hsome
      rcases hotherNumbered.id_eq with hotherKnown | ⟨-, hfresh⟩
      · rcases hnumbered.id_eq with hfirstKnown | ⟨-, hfresh⟩
        · exact hfirst other hother _ hfirstKnown hotherKnown
        · exact hfresh (hknown other (List.mem_cons_of_mem _ hother) _ hotherKnown)
      · exact hfresh hnumbered.drawn

/-! ### The edits -/

/-- What an accepted edit does to a draft; it leaves orders, tasks and machines. -/
structure EditedTo (board board' : Board) (plan plan' : SchedulePlan) : Prop where
  run_eq : plan'.createdByRunId = plan.createdByRunId
  input_eq : plan'.inputOrderIds = plan.inputOrderIds
  sound : SoundDraft board'.issued plan'
  accepted : ∀ task ∈ plan'.tasks, PassesValidator board' task
  orders_eq : board'.orders = board.orders
  tasks_eq : board'.tasks = board.tasks
  machines_eq : board'.machines = board.machines
  issued : board.issued ⊆ board'.issued

/-- A task that stays with its orders on its machine keeps its draft identifier. -/
def KeepsDraftIds (plan plan' : SchedulePlan) : Prop :=
  ∀ task ∈ plan.tasks, ∀ task' ∈ plan'.tasks, task'.machineId = task.machineId →
    task'.orderIds = task.orderIds → ∀ id, task.draftTaskId = some id → task'.draftTaskId = some id

theorem passesValidator_of_frame {board board' : Board} {task : ProposedTask}
    (h : PassesValidator board task)
    (hmachines : board'.machines = board.machines) (horders : board'.orders = board.orders) :
    PassesValidator board' task := by
  unfold PassesValidator
  rwa [hmachines, horders]

theorem editedTo_updateScheduleDraft {planId userId : Id}
    {revision : List ProposedTask × List UnassignedOrder} {tasks : List DraftTask} {allowV2 : Bool}
    {board board' : Board} {edited : SchedulePlan}
    (h : updateScheduleDraft planId userId revision tasks allowV2 board = .ok edited board')
    (hsound : ∀ plan, board.plans.find? planId = some plan → SoundDraft board.issued plan) :
    ∃ plan, board.plans.find? planId = some plan ∧ board'.plans.find? planId = some edited ∧
      EditedTo board board' plan edited ∧ (∀ task ∈ edited.tasks, task.draftTaskId = none) ∧
      (allowV2 = false → KeepsDraftIds plan edited) := by
  obtain ⟨plan, adjusted, unassigned, hfind, hallow, hall, hnodup, hunassigned, rfl, rfl⟩ :=
    updateScheduleDraft_ok h
  have hadjusted := exists_left_of_forall₂ hall
  refine ⟨plan, hfind, ?_, ⟨rfl, rfl, (hsound plan hfind).edited hall hnodup hunassigned, ?_, rfl,
    rfl, rfl, List.Subset.refl _⟩, fun new hnew ↦ ?_, fun hlegacy ↦ ?_⟩
  · have hrow := Table.find?_update_self board.plans planId
      (fun row ↦ { row with tasks := adjusted, unassigned }) (fun _ ↦ rfl)
    rw [hfind] at hrow
    exact hrow
  · intro new hnew
    obtain ⟨task, -, hto⟩ := hadjusted new hnew
    exact passesValidator_of_frame hto.accepted rfl rfl
  · obtain ⟨task, -, hto⟩ := hadjusted new hnew
    exact hto.draftTaskId_eq
  · intro task htask new _ _ _ id hid
    have hrun := hallow.resolve_right (by simp [hlegacy])
    rw [(hsound plan hfind).unnumbered hrun task htask] at hid
    cases hid

theorem requirePlan_ok {planId userId : Id} {db db' : AgentDb} {w : Workspace} {plan : SchedulePlan}
    (h : requirePlan planId userId db = .ok (w, plan) db') :
    db.board.plans.find? planId = some plan ∧ plan.createdByRunId.isSome ∧ db' = db := by
  unfold requirePlan at h
  simp only [get_bind_eq_ok, orRaise_bind_eq_ok, Option.filter_eq_some_iff] at h
  obtain ⟨found, ⟨hfind, hrun⟩, h⟩ := h
  obtain ⟨w', middle, hsession, h⟩ := bind_eq_ok.mp h
  obtain ⟨-, -, -, -, rfl⟩ := requireSession_eq_ok.mp hsession
  simp only [require_bind_eq_ok, pure_eq_ok, Prod.mk.injEq] at h
  obtain ⟨-, ⟨rfl, rfl⟩, rfl⟩ := h
  exact ⟨hfind, hrun, rfl⟩

/-- The identifier known for a task with the machine and the orders of a task of the plan. -/
theorem knownDraftId_eq {issued : List Id} {plan : SchedulePlan} (h : SoundDraft issued plan)
    {task new : ProposedTask} (htask : task ∈ plan.tasks)
    (hmachine : new.machineId = task.machineId)
    (horders : new.orderIds = task.orderIds) : knownDraftId plan new = task.draftTaskId := by
  unfold knownDraftId
  cases hfind : plan.tasks.reverse.find? (fun known ↦
      known.machineId = new.machineId ∧ known.orderIds = new.orderIds) with
  | none =>
    have hnone : ¬ (task.machineId = new.machineId ∧ task.orderIds = new.orderIds) := by
      simpa using List.find?_eq_none.mp hfind task (List.mem_reverse.mpr htask)
    exact absurd ⟨hmachine.symm, horders.symm⟩ hnone
  | some found =>
    have hmem := List.mem_reverse.mp (List.mem_of_find?_eq_some hfind)
    have hsame : found.machineId = new.machineId ∧ found.orderIds = new.orderIds := by
      simpa using List.find?_some hfind
    rw [h.eq_of_orderIds hmem htask (hsame.2.trans horders)]
    rfl

/-- A known identifier is that of a task of the plan for the same orders. -/
theorem exists_of_knownDraftId {plan : SchedulePlan} {new : ProposedTask} {id : Id}
    (h : truthy (knownDraftId plan new) = some id) :
    ∃ task ∈ plan.tasks, task.orderIds = new.orderIds ∧ task.draftTaskId = some id := by
  obtain ⟨hknown, -⟩ := truthy_eq_some_iff.mp h
  obtain ⟨task, hfind, hid⟩ := Option.bind_eq_some_iff.mp hknown
  have hsame : task.machineId = new.machineId ∧ task.orderIds = new.orderIds := by
    simpa using List.find?_some hfind
  exact ⟨task, List.mem_reverse.mp (List.mem_of_find?_eq_some hfind), hsame.2, hid⟩

theorem orderIds_numbered {known : ProposedTask → Option Id} {issued issued' : List Id}
    {tasks tasks' : List ProposedTask}
    (h : List.Forall₂ (fun task task' ↦ ∃ id, NumberedAs known issued issued' task id task')
      tasks tasks') :
    tasks'.flatMap ProposedTask.orderIds = tasks.flatMap ProposedTask.orderIds := by
  induction h with
  | nil => rfl
  | cons hfirst _ ih =>
    obtain ⟨id, hid⟩ := hfirst
    rw [List.flatMap_cons, List.flatMap_cons, ih, hid.task_eq]

/-- A draft whose tasks were renumbered is sound, and its tasks are those of before. -/
theorem soundDraft_numbered {known : ProposedTask → Option Id} {issued issued' : List Id}
    {plan : SchedulePlan} {tasks' : List ProposedTask} {runId : Option Id}
    (h : SoundDraft issued plan)
    (hall : List.Forall₂ (fun task task' ↦ ∃ id, NumberedAs known issued issued' task id task')
      plan.tasks tasks')
    (hdistinct : (tasks'.filterMap ProposedTask.draftTaskId).Nodup) (hrun : runId.isSome) :
    SoundDraft issued' { plan with tasks := tasks', createdByRunId := runId } := by
  have hnumbered := exists_left_of_forall₂ hall
  have hids := orderIds_numbered hall
  constructor
  · exact h.nodup
  · change (tasks'.flatMap ProposedTask.orderIds ++ _).Perm _
    rw [hids]
    exact h.perm
  · intro task' htask'
    obtain ⟨task, htask, id, hid⟩ := hnumbered task' htask'
    rw [hid.task_eq]
    exact h.nonempty task htask
  · exact hdistinct
  · intro task' htask' id hid
    obtain ⟨task, htask, other, hother⟩ := hnumbered task' htask'
    rw [hother.task_eq] at hid
    obtain rfl := Option.some.inj hid
    exact ⟨hother.drawn, hother.ne_empty⟩
  · intro hnone
    rw [show runId = none from hnone] at hrun
    cases hrun

/-- An accepted `patch_plan`. -/
theorem editedTo_patchPlan {call : Call} (hcall : DrawsText call) {planId userId : Id}
    {expected : ℕ} {tasks : List DraftTask} {db db' : AgentDb} {result : SchedulePlan}
    (hop : patchPlan call planId userId expected tasks db = .ok result db')
    (hsound : ∀ plan, db.board.plans.find? planId = some plan → SoundDraft db.board.issued plan) :
    ∃ plan plan', db.board.plans.find? planId = some plan ∧
      db'.board.plans.find? planId = some plan' ∧ EditedTo db.board db'.board plan plan' ∧
      (∀ task ∈ plan'.tasks, task.draftTaskId.isSome) ∧ KeepsDraftIds plan plan' := by
  unfold patchPlan at hop
  obtain ⟨⟨w, plan⟩, _, hplan, hrest⟩ := bind_eq_ok.mp hop
  obtain ⟨hfind, hrun, rfl⟩ := requirePlan_ok hplan
  obtain ⟨_, same, hidle, hchecks⟩ := bind_eq_ok.mp hrest
  obtain ⟨-, rfl⟩ := requireIdle_eq_ok.mp hidle
  rw [checked_bind_eq_ok] at hchecks
  obtain ⟨-, -, hedit⟩ := hchecks
  obtain ⟨edited, _, hboard, hnumber⟩ := bind_eq_ok.mp hedit
  obtain ⟨board, hedited, rfl⟩ := onBoard_eq_ok.mp hboard
  rw [rephrase_eq_ok] at hedited
  obtain ⟨old, hold, hnew, heditedTo, -, -⟩ := editedTo_updateScheduleDraft hedited hsound
  obtain rfl := Option.some.inj (hfind.symm.trans hold)
  obtain ⟨tasks', _, htasks, hwrite⟩ := bind_eq_ok.mp hnumber
  have hplanSound := hsound plan hfind
  have hordersApart := pairwise_orderIds
    ((heditedTo.sound.perm.nodup_iff.mpr heditedTo.sound.nodup).of_append_left)
    heditedTo.sound.nonempty
  obtain ⟨issued, hissued, rfl, hall, hdistinct⟩ := withDraftIds_ok hcall htasks
    (fun task _ id hknown ↦ by
      obtain ⟨own, hown, -, hid⟩ := exists_of_knownDraftId hknown
      exact heditedTo.issued (hplanSound.drawn own hown id hid).1)
    (hordersApart.imp fun {first second} hapart id hfirst hsecond ↦ by
      obtain ⟨own, hown, hownOrders, hid⟩ := exists_of_knownDraftId hfirst
      obtain ⟨other, hother, hotherOrders, hid'⟩ := exists_of_knownDraftId hsecond
      obtain rfl := eq_of_draftTaskId hplanSound.distinct hown hother hid hid'
      exact hapart (hownOrders.symm.trans hotherOrders))
  unfold setPlanRow save at hwrite
  simp only [modify_bind_eq_ok, pure_eq_ok] at hwrite
  obtain ⟨-, rfl⟩ := hwrite
  have hnumbered := exists_left_of_forall₂ hall
  have hrow := Table.find?_update_self board.plans planId
    (fun row ↦
      { row with tasks := tasks', revision := row.revision + 1, updatedAt := call.now })
        (fun _ ↦ rfl)
  rw [hnew] at hrow
  have hsoundNew := soundDraft_numbered heditedTo.sound hall hdistinct
    (heditedTo.run_eq.symm ▸ hrun)
  refine ⟨plan, _, hfind, hrow, ⟨heditedTo.run_eq, heditedTo.input_eq,
    hsoundNew.of_content_eq rfl (List.Subset.refl _), ?_, heditedTo.orders_eq, heditedTo.tasks_eq,
    heditedTo.machines_eq, List.Subset.trans heditedTo.issued hissued⟩, ?_, ?_⟩
  · intro task' htask'
    obtain ⟨task, htask, id, hid⟩ := hnumbered task' htask'
    rw [hid.task_eq]
    exact passesValidator_of_frame (heditedTo.accepted task htask) rfl rfl
  · intro task' htask'
    obtain ⟨task, htask, id, hid⟩ := hnumbered task' htask'
    rw [hid.task_eq]
    rfl
  · intro task htask task' htask' hmachine horders id hid
    obtain ⟨between, hbetween, newId, hnewId⟩ := hnumbered task' htask'
    rw [hnewId.task_eq] at hmachine horders ⊢
    have hmachine : between.machineId = task.machineId := hmachine
    have horders : between.orderIds = task.orderIds := horders
    have hknown : truthy (knownDraftId plan between) = some id := by
      rw [knownDraftId_eq hplanSound htask hmachine horders]
      exact truthy_eq_some_iff.mpr ⟨hid, (hplanSound.drawn task htask id hid).2⟩
    rcases hnewId.id_eq with hsame | ⟨hnone, -⟩
    · exact hsame.symm.trans hknown
    · rw [hknown] at hnone
      cases hnone

/-- Superseding the previous plan leaves what an edit of a plan is about. -/
theorem supersede_ok (planId : Id) {call : Call} {runId : Id} {plan : SchedulePlan}
    {previous : Option SchedulePlan} {w w' : Workspace} {db db' : AgentDb}
    (h : supersede call runId plan previous w db = .ok w' db') :
    (db'.board.plans.find? planId).map draftContent =
        (db.board.plans.find? planId).map draftContent ∧
      db'.board.issued = db.board.issued := by
  unfold supersede at h
  cases previous with
  | none =>
    obtain ⟨-, rfl⟩ := pure_eq_ok.mp h
    exact ⟨rfl, rfl⟩
  | some previous =>
    unfold setPlanRow at h
    simp only [modify_bind_eq_ok, pure_eq_ok] at h
    obtain ⟨-, rfl⟩ := h
    refine ⟨?_, rfl⟩
    have hrow := Table.find?_update db.board.plans previous.id
      (fun row ↦ { row with
        status := .superseded, supersededById := some plan.id, updatedAt := call.now })
      (fun _ ↦ rfl) planId
    refine (congrArg (Option.map draftContent) hrow).trans ?_
    cases db.board.plans.find? planId with
    | none => rfl
    | some row =>
      simp only [Option.map_some]
      split_ifs <;> rfl

/-- A plan is sound as a run leaves it that generated it. -/
theorem soundDraft_generateAnew {call : Call} (hcall : DrawsText call) {run : AgentRun}
    {previous : Option SchedulePlan} {w w' : Workspace} {db db' : AgentDb} {plan : SchedulePlan}
    {outcome : Option RunOutcome} {replacement : Bool}
    (hop : generateAnew call run previous w db = .ok (w', .plan plan outcome replacement) db') :
    ∃ row, db'.board.plans.find? plan.id = some row ∧ SoundDraft db'.board.issued row := by
  unfold generateAnew at hop
  rw [get_bind_eq_ok] at hop
  split_ifs at hop with hnone
  · obtain ⟨heq, -⟩ := pure_eq_ok.mp hop
    cases heq
  · obtain ⟨created, _, hboard, hrest⟩ := bind_eq_ok.mp hop
    obtain ⟨board, hcreated, rfl⟩ := onBoard_eq_ok.mp hboard
    obtain ⟨hfind, hsound⟩ := soundDraft_created hcreated
    obtain ⟨w₁, middle, hsupersede, hnumber⟩ := bind_eq_ok.mp hrest
    obtain ⟨hcontent, hissuedSame⟩ := supersede_ok created.id hsupersede
    rw [show (({ db with board := board } : AgentDb).board.plans.find? created.id) = some created
      from hfind, Option.map_some, Option.map_eq_some_iff] at hcontent
    obtain ⟨row, hrow, hrowContent⟩ := hcontent
    obtain ⟨tasks', _, htasks, hwrite⟩ := bind_eq_ok.mp hnumber
    obtain ⟨issued, -, rfl, hall, hdistinct⟩ := withDraftIds_ok hcall htasks
      (fun _ _ _ h ↦ by cases h) (List.pairwise_of_forall fun _ _ _ h ↦ by cases h)
    unfold setPlanRow at hwrite
    simp only [modify_bind_eq_ok, pure_eq_ok, Prod.mk.injEq, ToolResult.plan.injEq] at hwrite
    obtain ⟨⟨-, rfl, -, -⟩, rfl⟩ := hwrite
    have hlater := Table.find?_update_self middle.board.plans created.id
      (fun row ↦ { row with createdByRunId := some run.id, tasks := tasks' }) (fun _ ↦ rfl)
    rw [hrow] at hlater
    refine ⟨_, hlater, ?_⟩
    rw [hissuedSame] at hall
    have hnumbered : SoundDraft issued
        { created with tasks := tasks', createdByRunId := some run.id } :=
      soundDraft_numbered hsound hall hdistinct rfl
    refine hnumbered.of_content_eq ?_ (List.Subset.refl _)
    unfold draftContent at hrowContent ⊢
    simp only [Prod.mk.injEq] at hrowContent ⊢
    exact ⟨trivial, hrowContent.2.1, trivial, hrowContent.2.2.2⟩

theorem soundDraft_generated {call : Call} (hcall : DrawsText call) {run : AgentRun}
    {w w' : Workspace} {db db' : AgentDb} {plan : SchedulePlan} {outcome : RunOutcome}
    (hop : generate call run w db = .ok (w', .plan plan (some outcome) false) db') :
    ∃ row, db'.board.plans.find? plan.id = some row ∧ SoundDraft db'.board.issued row := by
  unfold generate at hop
  rw [get_bind_eq_ok] at hop
  cases hgenerated : run.generatedPlanId with
  | some planId =>
    simp only [hgenerated, orRaise_bind_eq_ok, pure_eq_ok] at hop
    obtain ⟨row, -, heq, -⟩ := hop
    cases heq
  | none =>
    simp only [hgenerated] at hop
    cases hprevious : w.session.activePlanId.bind db.board.plans.find? with
    | none =>
      simp only [hprevious] at hop
      exact soundDraft_generateAnew hcall hop
    | some previous =>
      simp only [hprevious, checked_bind_eq_ok] at hop
      obtain ⟨result, hresult, hrest⟩ := hop
      cases result with
      | none => exact soundDraft_generateAnew hcall hrest
      | some result =>
        obtain ⟨heq, -⟩ := pure_eq_ok.mp hrest
        cases heq
        unfold checkPrevious at hresult
        split at hresult
        · cases hresult
        · simp only [except_bind_eq_ok, except_pure_eq_ok] at hresult
          obtain ⟨-, -, hnone⟩ := hresult
          cases hnone

/-! ### Sequences of edits -/

/-- A call that edits a draft. Only `patch_plan` sets `allow_v2` in the edit that it makes. -/
inductive DraftEdit
  | patchPlan (userId : Id) (expected : ℕ) (tasks : List DraftTask)
  | updateScheduleDraft (userId : Id) (revision : List ProposedTask × List UnassignedOrder)
      (tasks : List DraftTask) (allowV2 : Bool)

/-- The edit as the body of a transaction. -/
def DraftEdit.body (call : Call) (planId : Id) : DraftEdit → Txn Failure AgentDb SchedulePlan
  | .patchPlan userId expected tasks => Agent.patchPlan call planId userId expected tasks
  | .updateScheduleDraft userId revision tasks allowV2 =>
    onBoard (Scheduling.updateScheduleDraft planId userId revision tasks allowV2)

/-- The edit is one of those that callers can make: plans of runs are edited by `patch_plan`, the
others without `allow_v2`. -/
def DraftEdit.OnOwnSide : DraftEdit → Prop
  | .patchPlan _ _ _ => True
  | .updateScheduleDraft _ _ _ allowV2 => allowV2 = false

/-- The edit is of a plan that a run created, whose tasks have draft identifiers. -/
def DraftEdit.OfRun : DraftEdit → Prop
  | .patchPlan _ _ _ => True
  | .updateScheduleDraft _ _ _ _ => False

/-- What an accepted edit leaves of a draft. -/
theorem editedTo_edit {call : Call} (hcall : DrawsText call) {planId : Id} {edit : DraftEdit}
    {db db' : AgentDb} {result : SchedulePlan} (h : edit.body call planId db = .ok result db')
    (hsound : ∀ plan, db.board.plans.find? planId = some plan → SoundDraft db.board.issued plan) :
    ∃ plan plan', db.board.plans.find? planId = some plan ∧
      db'.board.plans.find? planId = some plan' ∧ EditedTo db.board db'.board plan plan' ∧
      (edit.OfRun → ∀ task ∈ plan'.tasks, task.draftTaskId.isSome) ∧
      (edit.OnOwnSide → KeepsDraftIds plan plan') := by
  cases edit with
  | patchPlan userId expected tasks =>
    obtain ⟨plan, plan', hfind, hfind', hedited, hsome, hkeeps⟩ := editedTo_patchPlan hcall h hsound
    exact ⟨plan, plan', hfind, hfind', hedited, fun _ ↦ hsome, fun _ ↦ hkeeps⟩
  | updateScheduleDraft userId revision tasks allowV2 =>
    obtain ⟨board, hedited, rfl⟩ := onBoard_eq_ok.mp h
    obtain ⟨plan, hfind, hfind', heditedTo, -, hkeeps⟩ :=
      editedTo_updateScheduleDraft hedited hsound
    exact ⟨plan, result, hfind, hfind', heditedTo, fun hrun ↦ hrun.elim, hkeeps⟩

/-- What happens elsewhere leaves the tasks of the plan, and forgets no identifier. -/
def LeavesDraft (planId : Id) (db db' : AgentDb) : Prop :=
  (db'.board.plans.find? planId).map draftContent =
      (db.board.plans.find? planId).map draftContent ∧
    db.board.issued ⊆ db'.board.issued

/-- The states of the database after a plan was created, by a call or by a run, and edited in any
way, whatever happened elsewhere. -/
inductive Drafted (planId : Id) : AgentDb → Prop
  | created {call : Call} {sessionId userId : Id} {orderIds : Option (List Id)} {db : AgentDb}
      {board : Board} {plan : SchedulePlan}
      (h : createSchedulePlan call sessionId userId orderIds db.board = .ok plan board)
      (hid : plan.id = planId) : Drafted planId { db with board }
  | generated {call : Call} (hcall : DrawsText call) {run : AgentRun} {w w' : Workspace}
      {db db' : AgentDb} {plan : SchedulePlan} {outcome : RunOutcome}
      (h : generate call run w db = .ok (w', .plan plan (some outcome) false) db')
      (hid : plan.id = planId) : Drafted planId db'
  | edited {db : AgentDb} (h : Drafted planId db) {call : Call} (hcall : DrawsText call)
      (edit : DraftEdit) : Drafted planId (commit (edit.body call planId) db)
  | elsewhere {db db' : AgentDb} (h : Drafted planId db) (hleaves : LeavesDraft planId db db') :
      Drafted planId db'

/-- A draft is sound whatever the sequence of edits. -/
theorem Drafted.sound {planId : Id} {db : AgentDb} (h : Drafted planId db) :
    ∃ plan, db.board.plans.find? planId = some plan ∧ SoundDraft db.board.issued plan := by
  induction h with
  | created h hid =>
    obtain ⟨hfind, hsound⟩ := soundDraft_created h
    exact ⟨_, hid ▸ hfind, hsound⟩
  | generated hcall h hid =>
    obtain ⟨row, hfind, hsound⟩ := soundDraft_generated hcall h
    exact ⟨row, hid ▸ hfind, hsound⟩
  | @edited db _ call hcall edit ih =>
    rcases commit_cases (edit.body call planId) db with heq | ⟨result, db', hok, heq⟩
    · rwa [heq]
    · rw [heq]
      obtain ⟨plan, hfind, hsound⟩ := ih
      obtain ⟨_, plan', -, hfind', hedited, -, -⟩ := editedTo_edit hcall hok fun row hrow ↦ by
        rwa [← Option.some.inj (hfind.symm.trans hrow)]
      exact ⟨plan', hfind', hedited.sound⟩
  | @elsewhere db db' _ hleaves ih =>
    obtain ⟨plan, hfind, hsound⟩ := ih
    obtain ⟨hcontent, hissued⟩ := hleaves
    rw [hfind, Option.map_some, Option.map_eq_some_iff] at hcontent
    obtain ⟨plan', hfind', hsame⟩ := hcontent
    exact ⟨plan', hfind', hsound.of_content_eq hsame hissued⟩

/-- Every edit of a draft either is refused and changes nothing, or leaves a draft whose tasks and
unassigned rows hold the input orders of the plan each once, whose tasks the validator accepts with
their widths, and whose draft identifiers are distinct and stay with the groups of orders that stay.
No edit changes an order or a production task. -/
theorem draft_edits {planId : Id} {db : AgentDb} (h : Drafted planId db) {call : Call}
    (hcall : DrawsText call) (edit : DraftEdit) :
    (∃ failure db', edit.body call planId db = .error failure db' ∧
      commit (edit.body call planId) db = db) ∨
    ∃ result db' plan plan', edit.body call planId db = .ok result db' ∧
      commit (edit.body call planId) db = db' ∧
      db.board.plans.find? planId = some plan ∧ db'.board.plans.find? planId = some plan' ∧
      plan'.inputOrderIds = plan.inputOrderIds ∧
      (plan'.tasks.flatMap ProposedTask.orderIds ++
        plan'.unassigned.map UnassignedOrder.orderId).Perm plan'.inputOrderIds ∧
      (∀ task ∈ plan'.tasks, PassesValidator db'.board task) ∧
      (plan'.tasks.filterMap ProposedTask.draftTaskId).Nodup ∧
      (edit.OfRun → ∀ task ∈ plan'.tasks, task.draftTaskId.isSome) ∧
      (edit.OnOwnSide → KeepsDraftIds plan plan') ∧
      db'.board.orders = db.board.orders ∧ db'.board.tasks = db.board.tasks := by
  obtain ⟨plan, hfind, hsound⟩ := h.sound
  cases hbody : edit.body call planId db with
  | error failure db' => exact .inl ⟨failure, db', rfl, commit_of_error hbody⟩
  | ok result db' =>
    obtain ⟨old, plan', hold, hfind', hedited, hsome, hkeeps⟩ :=
      editedTo_edit hcall hbody fun row hrow ↦ by
      rwa [← Option.some.inj (hfind.symm.trans hrow)]
    exact .inr ⟨result, db', old, plan', rfl, commit_of_ok hbody, hold, hfind', hedited.input_eq,
      hedited.sound.perm, hedited.accepted, hedited.sound.distinct, hsome, hkeeps,
      hedited.orders_eq, hedited.tasks_eq⟩

theorem drawsText_longer (now : Time) (today : String) :
    DrawsText ⟨now, today, IdSource.longer⟩ := by
  intro seen h
  have hlength := congrArg String.length h
  simp [IdSource.longer] at hlength

/-- A draft for two orders that share a task is split into two tasks. -/
theorem draft_edits_sample :
    ∃ created board, createSchedulePlan ⟨0, "20260101", IdSource.longer⟩ "session" "user" none
        sampleBoard = .ok created board ∧
      let db : AgentDb := ⟨Table.empty, Table.empty, Table.empty, board⟩
      let call : Call := ⟨1, "20260102", IdSource.longer⟩
      let edit : DraftEdit :=
        .updateScheduleDraft "user" (planRevision created) [⟨"m", ["a"]⟩, ⟨"m", ["b"]⟩] false
      (∃ failure db', edit.body call created.id db = .error failure db' ∧
        commit (edit.body call created.id) db = db) ∨
      ∃ result db' plan plan', edit.body call created.id db = .ok result db' ∧
        commit (edit.body call created.id) db = db' ∧
        db.board.plans.find? created.id = some plan ∧
        db'.board.plans.find? created.id = some plan' ∧
        plan'.inputOrderIds = plan.inputOrderIds ∧
        (plan'.tasks.flatMap ProposedTask.orderIds ++
          plan'.unassigned.map UnassignedOrder.orderId).Perm plan'.inputOrderIds ∧
        (∀ task ∈ plan'.tasks, PassesValidator db'.board task) ∧
        (plan'.tasks.filterMap ProposedTask.draftTaskId).Nodup ∧
        (edit.OfRun → ∀ task ∈ plan'.tasks, task.draftTaskId.isSome) ∧
        (edit.OnOwnSide → KeepsDraftIds plan plan') ∧
        db'.board.orders = db.board.orders ∧ db'.board.tasks = db.board.tasks := by
  obtain ⟨created, board, hcreated, -, -⟩ := exists_sampleDraft
  let before : AgentDb := ⟨Table.empty, Table.empty, Table.empty, sampleBoard⟩
  have hdrafted : Drafted created.id { before with board } := Drafted.created hcreated rfl
  exact ⟨created, board, hcreated, draft_edits hdrafted (drawsText_longer 1 "20260102") _⟩

end FilmOS.Agent
