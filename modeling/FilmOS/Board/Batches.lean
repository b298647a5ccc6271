import FilmOS.Board.Queues

/-!
# Tasks are valid batches

What a machine makes of the orders of one task depends only on their traits (`Order.traits`), the
unit, the width and the signature, and not on their order (`Producible.of_perm`). So a task stays a
valid batch as long as its orders keep their traits and none joins or leaves it unchecked. `Batched`
is the invariant, for the tasks that have orders. The operations validate every list of orders that
becomes a task's: what is put together (`batched_createTask`, `batched_applySchedulePlan`), what an
order joins and what it leaves behind (`batched_moveOrder`), and what comes to another machine
(`batched_moveTask`); an order can be edited outside the tasks only (`batched_updateOrder`).

`batches_run` is the invariant over runs in which master data is held fixed (`KeepsMasterData`).
-/

set_option autoImplicit false
set_option relaxedAutoImplicit false

namespace FilmOS

open Transaction Production Scheduling ProductionService OrderService

/-! ### What production depends on -/

/-- What the rules read of an order. -/
def Order.traits (order : Order) : String × Option ℚ × ProductionSignature :=
  (order.unit, (orderProfile order).width, productionSignature order)

theorem Order.traits_eq_iff {first second : Order} :
    first.traits = second.traits ↔ first.unit = second.unit ∧
      (orderProfile first).width = (orderProfile second).width ∧
        productionSignature first = productionSignature second := by
  simp only [Order.traits, Prod.mk.injEq]

/-- A status, a task and an update time are not traits. -/
@[simp] theorem Order.traits_assigned (order : Order) (status : OrderStatus) (taskId : Option Id)
    (updatedAt : Time) :
    Order.traits { order with status, taskId, updatedAt } = order.traits := by
  unfold Order.traits orderProfile productionSignature rawMaterial rawThickness
  rfl

/-- What a machine can produce as one task it can produce in any order, and with any orders that
have the same traits. -/
theorem Production.Producible.of_perm {machine : Machine} {orders orders' : List Order} {total : ℚ}
    (h : Producible machine orders total)
    (hperm : (orders'.map Order.traits).Perm (orders.map Order.traits)) :
    Producible machine orders' total := by
  have halike : ∀ order' ∈ orders', ∃ order ∈ orders, order.traits = order'.traits := by
    intro order' horder'
    exact List.mem_map.mp (hperm.mem_iff.mp (List.mem_map_of_mem horder'))
  have hlength : orders'.length = orders.length := by
    have := hperm.length_eq
    rwa [List.length_map, List.length_map] at this
  have htotal : totalWidth orders' = totalWidth orders := by
    have hsum : ∀ orders : List Order, totalWidth orders =
        ((orders.map Order.traits).map (fun traits ↦ traits.2.1.getD 0)).sum := by
      intro orders
      simp only [totalWidth, List.map_map, Function.comp_def, Order.traits]
    rw [hsum, hsum]
    exact (hperm.map _).sum_eq
  constructor
  · exact h.active
  · intro hnil
    refine h.nonempty (List.length_eq_zero_iff.mp ?_)
    rw [← hlength, hnil]
    rfl
  · intro first hfirst second hsecond
    obtain ⟨a, ha, hfirstAlike⟩ := halike first hfirst
    obtain ⟨b, hb, hsecondAlike⟩ := halike second hsecond
    rw [← (Order.traits_eq_iff.mp hfirstAlike).1, ← (Order.traits_eq_iff.mp hsecondAlike).1]
    exact h.sameUnit a ha b hb
  · intro order' horder'
    obtain ⟨order, horder, halike⟩ := halike order' horder'
    rw [← (Order.traits_eq_iff.mp halike).2.2]
    exact h.supported order horder
  · intro order' horder'
    obtain ⟨order, horder, halike⟩ := halike order' horder'
    rw [← (Order.traits_eq_iff.mp halike).2.1]
    exact h.sized order horder
  · intro hmany first hfirst second hsecond
    obtain ⟨a, ha, hfirstAlike⟩ := halike first hfirst
    obtain ⟨b, hb, hsecondAlike⟩ := halike second hsecond
    unfold Mergeable
    rw [← (Order.traits_eq_iff.mp hfirstAlike).2.2, ← (Order.traits_eq_iff.mp hsecondAlike).2.2]
    exact h.mergeable (hlength ▸ hmany) a ha b hb
  · rw [htotal]
    exact h.total_eq
  · exact h.minWidth_le
  · exact h.le_maxWidth

/-- Lists of the same orders, up to what production does not depend on, have the same traits. -/
theorem perm_traits {orders orders' : List Order} (hnodup : (orders.map Order.id).Nodup)
    (hnodup' : (orders'.map Order.id).Nodup)
    (h : ∀ order ∈ orders, ∃ order' ∈ orders', order'.id = order.id ∧ order'.traits = order.traits)
    (h' : ∀ order' ∈ orders', ∃ order ∈ orders, order.id = order'.id) :
    (orders'.map Order.traits).Perm (orders.map Order.traits) := by
  have hpairs : ∀ orders : List Order, orders.map Order.traits =
      (orders.map (fun order ↦ (order.id, order.traits))).map Prod.snd := by
    intro orders
    rw [List.map_map]
    rfl
  have hpairsNodup : ∀ orders : List Order, (orders.map Order.id).Nodup →
      (orders.map (fun order ↦ (order.id, order.traits))).Nodup := by
    intro orders hnodup
    refine List.Nodup.of_map Prod.fst ?_
    rwa [List.map_map]
  rw [hpairs, hpairs]
  refine List.Perm.map Prod.snd ((List.perm_ext_iff_of_nodup (hpairsNodup _ hnodup')
    (hpairsNodup _ hnodup)).mpr fun pair ↦ ?_)
  constructor
  · intro hmem
    obtain ⟨order', horder', rfl⟩ := List.mem_map.mp hmem
    obtain ⟨order, horder, hid⟩ := h' order' horder'
    obtain ⟨other, hother, hotherId, htraits⟩ := h order horder
    obtain rfl := List.inj_on_of_nodup_map hnodup' hother horder' (hotherId.trans hid)
    exact List.mem_map.mpr ⟨order, horder, by rw [hid, htraits]⟩
  · intro hmem
    obtain ⟨order, horder, rfl⟩ := List.mem_map.mp hmem
    obtain ⟨order', horder', hid, htraits⟩ := h order horder
    exact List.mem_map.mpr ⟨order', horder', by rw [hid, htraits]⟩

/-! ### Where the orders go -/

/-- The orders of the later board are those of the earlier one, with their traits, each in the task
that `place` gives for it and the task it was in. -/
def Relocates (place : Id → Option Id → Option Id) (board board' : Board) : Prop :=
  ∃ g : Order → Order, board'.orders.rows = board.orders.rows.map g ∧
    ∀ order, (g order).id = order.id ∧ (g order).traits = order.traits ∧
      (g order).taskId = place order.id order.taskId

theorem relocates_of_orders_eq {board board' : Board} (h : board'.orders = board.orders) :
    Relocates (fun _ taskId ↦ taskId) board board' :=
  ⟨id, by rw [h, List.map_id], fun _ ↦ ⟨rfl, rfl, rfl⟩⟩

theorem Relocates.trans {first second : Id → Option Id → Option Id} {board middle board' : Board}
    (h : Relocates first board middle) (h' : Relocates second middle board') :
    Relocates (fun id taskId ↦ second id (first id taskId)) board board' := by
  obtain ⟨f, hrows, hf⟩ := h
  obtain ⟨g, hrows', hg⟩ := h'
  refine ⟨g ∘ f, by rw [hrows', hrows, List.map_map], fun order ↦ ?_⟩
  obtain ⟨hid, htraits, hplace⟩ := hf order
  obtain ⟨hid', htraits', hplace'⟩ := hg (f order)
  exact ⟨hid'.trans hid, htraits'.trans htraits, hplace'.trans (by rw [hplace, hid])⟩

/-- A change of orders that leaves their traits, in terms of their tasks. -/
theorem relocates_changeOrders (call : Call) (ids : List Id) {change : Order → Order}
    (hid : ∀ order, (change order).id = order.id)
    (htraits : ∀ order, (change order).traits = order.traits) {f : Option Id → Option Id}
    (hplace : ∀ order, (change order).taskId = f order.taskId) (board : Board) :
    Relocates (fun id taskId ↦ if id ∈ ids then f taskId else taskId) board
      (board.changeOrders call ids change hid) := by
  refine ⟨_, rfl, fun order ↦ ?_⟩
  dsimp only
  by_cases hmem : order.id ∈ ids
  · rw [if_pos hmem, if_pos hmem]
    unfold stamped
    split_ifs with hsame
    · rw [← hplace, hsame]
      exact ⟨rfl, rfl, rfl⟩
    · exact ⟨hid order, (Order.traits_assigned (change order) (change order).status
        (change order).taskId call.now).trans (htraits order), hplace order⟩
  · rw [if_neg hmem, if_neg hmem]
    exact ⟨rfl, rfl, rfl⟩

theorem relocates_assignOrders (call : Call) (ids : List Id) (status : OrderStatus)
    (taskId : Option Id) (board : Board) :
    Relocates (fun id old ↦ if id ∈ ids then taskId else old) board
      (board.assignOrders call ids status taskId) := by
  refine relocates_changeOrders call ids (fun _ ↦ ?_) (fun order ↦ ?_) (fun _ ↦ ?_) board
  · rfl
  · exact Order.traits_assigned order status taskId order.updatedAt
  · rfl

theorem relocates_setOrderStatus (call : Call) (ids : List Id) (status : OrderStatus)
    (board : Board) : Relocates (fun _ taskId ↦ taskId) board
      (board.setOrderStatus call ids status) := by
  have h : Relocates (fun id old ↦ if id ∈ ids then old else old) board
      (board.setOrderStatus call ids status) := by
    refine relocates_changeOrders call ids (fun _ ↦ ?_) (fun order ↦ ?_) (fun _ ↦ ?_) board
    · rfl
    · exact Order.traits_assigned order status order.taskId order.updatedAt
    · rfl
  simpa only [ite_self] using h

theorem relocates_deleteTask (call : Call) (loaded : LoadedTask) (board : Board) :
    Relocates (fun id taskId ↦ if id ∈ loaded.orders.map Order.id then none else taskId) board
      (board.deleteTask call loaded) := by
  have h : Relocates (fun id taskId ↦ if id ∈ loaded.orders.map Order.id then none else taskId)
      board (board.changeOrders call (loaded.orders.map Order.id)
        (fun order ↦ { order with taskId := none }) (fun _ ↦ rfl)) := by
    refine relocates_changeOrders call _ (fun _ ↦ ?_) (fun order ↦ ?_) (fun _ ↦ ?_) board
    · rfl
    · exact Order.traits_assigned order order.status none order.updatedAt
    · rfl
  exact h

theorem nodup_ordersOf (board : Board) (taskId : Id) :
    ((board.ordersOf taskId).map Order.id).Nodup :=
  board.orders.nodup.sublist (List.filter_sublist.map _)

/-- What a task holds afterwards: the orders that are placed in it. -/
theorem Relocates.perm {place : Id → Option Id → Option Id} {board board' : Board}
    (h : Relocates place board board') {taskId : Id} {orders : List Order}
    (hnodup : (orders.map Order.id).Nodup) (hmem : ∀ order ∈ orders, order ∈ board.orders.rows)
    (hplace : ∀ order ∈ board.orders.rows,
      place order.id order.taskId = some taskId ↔ order ∈ orders) :
    ((board'.ordersOf taskId).map Order.traits).Perm (orders.map Order.traits) := by
  obtain ⟨g, hrows, hg⟩ := h
  refine perm_traits hnodup (nodup_ordersOf board' taskId) (fun order horder ↦ ?_)
    (fun order' horder' ↦ ?_)
  · obtain ⟨hid, htraits, htaskId⟩ := hg order
    refine ⟨g order, mem_ordersOf.mpr ⟨?_, ?_⟩, hid, htraits⟩
    · rw [hrows]
      exact List.mem_map_of_mem (hmem order horder)
    · rw [htaskId]
      exact (hplace order (hmem order horder)).mpr horder
  · obtain ⟨hrow, htaskId⟩ := mem_ordersOf.mp horder'
    rw [hrows] at hrow
    obtain ⟨order, horder, rfl⟩ := List.mem_map.mp hrow
    rw [(hg order).2.2] at htaskId
    exact ⟨order, (hplace order horder).mp htaskId, (hg order).1.symm⟩

/-! ### The invariant -/

/-- Every task that has orders is a valid batch for its machine. -/
def Batched (board : Board) : Prop :=
  ∀ task ∈ board.tasks.rows, board.ordersOf task.id ≠ [] →
    ∃ machine total, board.machines.find? task.machineId = some machine ∧
      Producible machine (board.ordersOf task.id) total

/-- A task of the later board is one of the earlier board with the same orders, or was checked. -/
def Accounted (board board' : Board) (task : ProductionTask) : Prop :=
  (∃ old ∈ board.tasks.rows, old.id = task.id ∧ old.machineId = task.machineId ∧
    ((board'.ordersOf task.id).map Order.traits).Perm ((board.ordersOf task.id).map Order.traits)) ∨
  ∃ machine orders total, board.machines.find? task.machineId = some machine ∧
    Producible machine orders total ∧
      ((board'.ordersOf task.id).map Order.traits).Perm (orders.map Order.traits)

theorem Batched.of_accounted {board board' : Board} (h : Batched board)
    (hmachines : ∀ id machine, board.machines.find? id = some machine →
      board'.machines.find? id = some machine)
    (htasks : ∀ task ∈ board'.tasks.rows, board'.ordersOf task.id ≠ [] →
      Accounted board board' task) : Batched board' := by
  intro task htask hne
  rcases htasks task htask hne with ⟨old, hold, hid, hmachine, hperm⟩ |
    ⟨machine, orders, total, hmachine, hproducible, hperm⟩
  · have hnonempty : board.ordersOf old.id ≠ [] := by
      intro hnil
      rw [hid] at hnil
      rw [hnil, List.map_nil, List.perm_nil, List.map_eq_nil_iff] at hperm
      exact hne hperm
    obtain ⟨machine, total, hfind, hproducible⟩ := h old hold hnonempty
    rw [hid] at hproducible
    exact ⟨machine, total, hmachines _ _ (hmachine ▸ hfind), hproducible.of_perm hperm⟩
  · exact ⟨machine, total, hmachines _ _ hmachine, hproducible.of_perm hperm⟩

/-- A task keeps its orders when none joins or leaves it. -/
theorem Relocates.accounted {place : Id → Option Id → Option Id} {board board' : Board}
    (h : Relocates place board board') {task old : ProductionTask} (hold : old ∈ board.tasks.rows)
    (hid : old.id = task.id) (hmachine : old.machineId = task.machineId)
    (hplace : ∀ order ∈ board.orders.rows,
      place order.id order.taskId = some task.id ↔ order.taskId = some task.id) :
    Accounted board board' task := by
  refine .inl ⟨old, hold, hid, hmachine, ?_⟩
  refine h.perm (nodup_ordersOf board task.id) (fun order horder ↦ (mem_ordersOf.mp horder).1) ?_
  intro order horder
  rw [hplace order horder, mem_ordersOf]
  exact (and_iff_right horder).symm

/-- The tasks of the later board are tasks of the earlier one, on the same machines. -/
def StaysOn (board board' : Board) : Prop :=
  ∀ slot' ∈ board'.slots, ∃ slot ∈ board.slots,
    slot.taskId = slot'.taskId ∧ slot.machineId = slot'.machineId

theorem StaysOn.trans {board middle board' : Board} (h : StaysOn board middle)
    (h' : StaysOn middle board') : StaysOn board board' := by
  intro slot' hslot'
  obtain ⟨between, hbetween, hid', hmachine'⟩ := h' slot' hslot'
  obtain ⟨slot, hslot, hid, hmachine⟩ := h between hbetween
  exact ⟨slot, hslot, hid.trans hid', hmachine.trans hmachine'⟩

theorem staysOn_changeTasks (call : Call) (ids : List Id) {change : ProductionTask → ProductionTask}
    (hid : ∀ task, (change task).id = task.id) {f : Slot → Slot}
    (hf : ∀ task, (change task).slot = f task.slot)
    (hkeep : ∀ slot, (f slot).taskId = slot.taskId ∧ (f slot).machineId = slot.machineId)
    (board : Board) : StaysOn board (board.changeTasks call ids change hid) := by
  intro slot' hslot'
  rw [Board.slots_changeTasks call ids hid hf] at hslot'
  obtain ⟨slot, hslot, rfl⟩ := Slot.mem_change.mp hslot'
  refine ⟨slot, hslot, ?_⟩
  split_ifs
  · exact ⟨(hkeep slot).1.symm, (hkeep slot).2.symm⟩
  · exact ⟨rfl, rfl⟩

theorem staysOn_renumber (call : Call) (ids : List Id) (board : Board) :
    StaysOn board (board.renumber call ids) := by
  intro slot' hslot'
  rw [Board.slots_renumber] at hslot'
  obtain ⟨slot, hslot, hid, hmachine, -⟩ := Slot.mem_renumber hslot'
  exact ⟨slot, hslot, hid.symm, hmachine.symm⟩

/-- The tasks stay valid batches when each stays on its machine and no order changes its task. -/
theorem Batched.of_same {board board' : Board} (h : Batched board)
    (hmachines : board'.machines = board.machines) (htasks : StaysOn board board')
    (horders : Relocates (fun _ taskId ↦ taskId) board board') : Batched board' := by
  refine h.of_accounted (fun id machine hfind ↦ hmachines ▸ hfind) fun task htask _ ↦ ?_
  obtain ⟨slot, hslot, hid, hmachine⟩ := htasks task.slot (Board.mem_slots.mpr ⟨task, htask, rfl⟩)
  obtain ⟨old, hold, rfl⟩ := Board.mem_slots.mp hslot
  exact horders.accounted hold hid hmachine fun _ _ ↦ Iff.rfl

/-! ### The operations -/

/-- What the addition of a task changes. -/
theorem addTask_ok {call : Call} {machineId : Id} {position : ℤ} {notes : Option String}
    {board board' : Board} {id : Id}
    (h : Board.addTask call machineId position notes board = .ok id board') :
    id ∉ board.usedIds ∧ ∃ tasks : Table ProductionTask, tasks.rows = board.tasks.rows ++
        [⟨id, machineId, position, .waiting, notes, call.now⟩] ∧
      board' = { board with tasks, issued := id :: board.issued } := by
  obtain ⟨id', board'', hadd, hused, tasks, hrows, rfl⟩ :=
    Board.exists_addTask call machineId position notes board
  rw [h] at hadd
  cases hadd
  exact ⟨hused, tasks, hrows, rfl⟩

theorem mem_usedIds_of_task {board : Board} {task : ProductionTask}
    (htask : task ∈ board.tasks.rows) : task.id ∈ board.usedIds :=
  board.tasks_subset_usedIds ((Table.mem_keys _).mpr ⟨task, htask, rfl⟩)

/-- The orders found for distinct identifiers are distinct. -/
theorem nodup_filterMap_find? {orders : Table Order} {ids : List Id} (hnodup : ids.Nodup) :
    ((ids.filterMap orders.find?).map Order.id).Nodup := by
  refine hnodup.sublist ?_
  clear hnodup
  induction ids with
  | nil => exact List.Sublist.refl _
  | cons id ids ih =>
    rw [List.filterMap_cons]
    cases hfind : orders.find? id with
    | none => exact ih.cons id
    | some order =>
      have hid : order.id = id := ((orders.find?_eq_some_iff).mp hfind).2
      rw [List.map_cons, hid]
      exact ih.cons_cons id

theorem batched_createTask {call : Call} {machineId : Id} {orderIds : List Id}
    {board board' : Board} {taskId : Id} (h : Batched board)
    (hop : createTask call machineId orderIds board = .ok taskId board') : Batched board' := by
  obtain ⟨-, hnodup, -, hplannable, machine, total, hmachine, hvalid, middle, hadd, rfl⟩ :=
    createTask_ok hop
  obtain ⟨hfresh, tasks, hrows, rfl⟩ := addTask_ok hadd
  have hfound : ∀ order ∈ board.orders.rows,
      order.id ∈ orderIds ↔ order ∈ orderIds.filterMap board.orders.find? := by
    intro order horder
    have hfind : board.orders.find? order.id = some order := board.orders.find?_of_mem horder rfl
    constructor
    · exact fun hmem ↦ List.mem_filterMap.mpr ⟨order.id, hmem, hfind⟩
    · intro hmem
      obtain ⟨id, hid, hfind'⟩ := List.mem_filterMap.mp hmem
      rwa [show order.id = id from ((board.orders.find?_eq_some_iff).mp hfind').2]
  have hplaced : Relocates (fun id old ↦ if id ∈ orderIds then some taskId else old) board
      (({ board with tasks, issued := taskId :: board.issued } : Board).assignOrders call orderIds
        .producing (some taskId)) :=
    (relocates_of_orders_eq rfl).trans (relocates_assignOrders call orderIds _ _
      { board with tasks, issued := taskId :: board.issued })
  refine h.of_accounted (fun _ _ hfind ↦ hfind) fun task htask _ ↦ ?_
  have htask : task ∈ tasks.rows := htask
  rw [hrows] at htask
  rcases List.mem_append.mp htask with htask | htask
  · refine hplaced.accounted htask rfl rfl fun order horder ↦ ?_
    by_cases hmem : order.id ∈ orderIds
    · have hfree := (hplannable order ((hfound order horder).mp hmem)).2
      rw [if_pos hmem, hfree]
      refine iff_of_false (fun heq ↦ hfresh ?_) (fun heq ↦ by cases heq)
      rw [Option.some.inj heq]
      exact mem_usedIds_of_task htask
    · rw [if_neg hmem]
  · rw [List.mem_singleton.mp htask]
    refine .inr ⟨machine, orderIds.filterMap board.orders.find?, total, hmachine,
      (validateMachineBatch_eq_ok_iff _ _ _).mp hvalid, ?_⟩
    refine hplaced.perm (nodup_filterMap_find? hnodup) (fun order horder ↦ ?_) fun order horder ↦ ?_
    · obtain ⟨id, -, hfind⟩ := List.mem_filterMap.mp horder
      exact ((board.orders.find?_eq_some_iff).mp hfind).1
    · rw [← hfound order horder]
      by_cases hmem : order.id ∈ orderIds
      · exact iff_of_true (if_pos hmem) hmem
      · rw [if_neg hmem]
        refine iff_of_false (fun htaskId ↦ hfresh ?_) hmem
        exact Board.mem_usedIds_of_taskId horder htaskId

/-- A renumbering leaves the orders and the machines of the tasks. -/
theorem batched_renumber {board : Board} (h : Batched board) (call : Call) (ids : List Id) :
    Batched (board.renumber call ids) :=
  h.of_same rfl (staysOn_renumber call ids board) (relocates_of_orders_eq rfl)

theorem batched_normalizeQueue {board : Board} (h : Batched board) (call : Call) (machineId : Id) :
    Batched (board.normalizeQueue call machineId) :=
  batched_renumber h call _

theorem batched_updateTask {call : Call} {taskId : Id} {fields : TaskFields} {board board' : Board}
    {u : Unit} (h : Batched board) (hop : updateTask call taskId fields board = .ok u board') :
    Batched board' := by
  rcases updateTask_ok hop with rfl | ⟨task, machine, status, -, -, -, -, rfl⟩
  · exact h
  · have hstatus := relocates_setOrderStatus call ((board.ordersOf task.id).map Order.id)
      (orderStatusFor status) board
    refine h.of_same rfl (staysOn_changeTasks call [taskId] (fun _ ↦ ?_)
      (f := fun slot ↦ { slot with position := resumedPosition board task status, status })
      (fun _ ↦ ?_) (fun _ ↦ ?_) (board.setOrderStatus call _ _)) hstatus
    · rfl
    · rfl
    · exact ⟨rfl, rfl⟩

theorem batched_deleteTask {call : Call} {taskId : Id} {board board' : Board} {u : Unit}
    (h : Batched board) (hop : deleteTask call taskId board = .ok u board') : Batched board' := by
  obtain ⟨task, hfind, -, rfl⟩ := deleteTask_ok hop
  obtain ⟨htask, rfl⟩ := (board.tasks.find?_eq_some_iff).mp hfind
  refine batched_normalizeQueue ?_ call task.machineId
  have hplaced := (relocates_assignOrders call ((board.ordersOf task.id).map Order.id) .pending none
    board).trans (relocates_deleteTask call (board.loadTask task)
      (board.assignOrders call ((board.ordersOf task.id).map Order.id) .pending none))
  change Relocates (fun id old ↦ if id ∈ (board.ordersOf task.id).map Order.id then none else
    if id ∈ (board.ordersOf task.id).map Order.id then none else old) _ _ at hplaced
  refine h.of_accounted (fun _ _ hfind ↦ hfind) fun other hother _ ↦ ?_
  have hother : other ∈ (board.tasks.erase task.id).rows := hother
  obtain ⟨hother, hne⟩ := List.mem_filter.mp hother
  have hne : other.id ≠ task.id := of_decide_eq_true hne
  refine hplaced.accounted hother rfl rfl fun order horder ↦ ?_
  by_cases hmem : order.id ∈ (board.ordersOf task.id).map Order.id
  · obtain ⟨own, hown, hid⟩ := List.mem_map.mp hmem
    obtain ⟨hrow, htaskId⟩ := mem_ordersOf.mp hown
    rw [board.orders.eq_of_key_eq hrow horder hid] at htaskId
    rw [if_pos hmem, htaskId]
    exact iff_of_false (fun heq ↦ by cases heq) (fun heq ↦ hne (Option.some.inj heq).symm)
  · rw [if_neg hmem, if_neg hmem]

/-- The machine can produce the orders as one task. -/
def Fits (board : Board) (machineId : Id) (orders : List Order) : Prop :=
  ∃ machine total, board.machines.find? machineId = some machine ∧ Producible machine orders total

theorem fits_of_accepting {board : Board} {p : Machine → Bool} {machineId : Id}
    {orders : List Order} (h : Accepting (board.machines.rows.filter p) machineId orders) :
    Fits board machineId orders := by
  obtain ⟨machine, hfind, total, hvalid⟩ := h
  have hmem := (List.mem_filter.mp (List.mem_of_find?_eq_some hfind)).1
  have hid : machine.id = machineId := by simpa using List.find?_some hfind
  exact ⟨machine, total, board.machines.find?_of_mem hmem hid,
    (validateMachineBatch_eq_ok_iff _ _ _).mp hvalid⟩

/-- Where a move brings its order: to an existing task, to a new task, or outside the tasks. -/
theorem placeOrder_ok {call : Call} {move : OrderMove} {target : Option LoadedTask}
    {board middle : Board} {u : Unit} (h : placeOrder call move target board = .ok u middle) :
    (∃ loaded, target = some loaded ∧
      middle = board.assignOrders call [move.orderId] .producing (some loaded.task.id)) ∨
    (∃ machineId taskId opened, target = none ∧ move.targetMachineId = some machineId ∧
      Board.addTask call machineId (Board.nextPosition (board.activeTasks machineId)) none board =
        .ok taskId opened ∧
      middle = opened.assignOrders call [move.orderId] .producing (some taskId)) ∨
    (target = none ∧ move.targetMachineId = none ∧
      middle = board.assignOrders call [move.orderId] .pending none) := by
  unfold placeOrder at h
  cases target with
  | some loaded =>
    rw [modify_eq_ok] at h
    exact .inl ⟨loaded, rfl, h.symm⟩
  | none =>
    cases hmachine : move.targetMachineId with
    | some machineId =>
      simp only [hmachine, get_bind_eq_ok] at h
      obtain ⟨taskId, opened, hadd, h⟩ := bind_eq_ok.mp h
      rw [modify_eq_ok] at h
      exact .inr (.inl ⟨machineId, taskId, opened, rfl, rfl, hadd, h.symm⟩)
    | none =>
      simp only [hmachine, modify_eq_ok] at h
      exact .inr (.inr ⟨rfl, rfl, h.symm⟩)

section Move

variable {board middle : Board} {order : Order} {place : Option Id}

/-- The tasks that a moved order does not come to: one that it leaves keeps the others. -/
theorem accounted_of_left (horder : order ∈ board.orders.rows)
    (hplaced : Relocates (fun id old ↦ if id ∈ [order.id] then place else old) board middle)
    {task : ProductionTask} (htask : task ∈ board.tasks.rows) (hne : place ≠ some task.id)
    (hnonempty : middle.ordersOf task.id ≠ [])
    (hremaining : order.taskId = some task.id →
      (board.ordersOf task.id).filter (·.id ≠ order.id) ≠ [] →
        Fits board task.machineId ((board.ordersOf task.id).filter (·.id ≠ order.id))) :
    Accounted board middle task := by
  have hsame : ∀ other ∈ board.orders.rows, other.id = order.id → other = order :=
    fun other hother hid ↦ board.orders.eq_of_key_eq hother horder hid
  by_cases hleaves : order.taskId = some task.id
  · have hperm : ((middle.ordersOf task.id).map Order.traits).Perm
        (((board.ordersOf task.id).filter (·.id ≠ order.id)).map Order.traits) := by
      refine hplaced.perm ((nodup_ordersOf board task.id).sublist (List.filter_sublist.map _))
        (fun other hother ↦ (mem_ordersOf.mp (List.mem_filter.mp hother).1).1) ?_
      intro other hother
      rw [List.mem_filter, mem_ordersOf, decide_eq_true_eq]
      simp only [List.mem_singleton]
      by_cases hid : other.id = order.id
      · rw [if_pos hid]
        exact iff_of_false hne (fun h ↦ h.2 hid)
      · rw [if_neg hid]
        exact ⟨fun h ↦ ⟨⟨hother, h⟩, hid⟩, fun h ↦ h.1.2⟩
    have hne' : (board.ordersOf task.id).filter (·.id ≠ order.id) ≠ [] := by
      intro hnil
      rw [hnil, List.map_nil, List.perm_nil, List.map_eq_nil_iff] at hperm
      exact hnonempty hperm
    obtain ⟨machine, total, hmachine, hproducible⟩ := hremaining hleaves hne'
    exact .inr ⟨machine, _, total, hmachine, hproducible, hperm⟩
  · refine hplaced.accounted htask rfl rfl fun other hother ↦ ?_
    simp only [List.mem_singleton]
    by_cases hid : other.id = order.id
    · rw [if_pos hid, hsame other hother hid]
      exact iff_of_false hne hleaves
    · rw [if_neg hid]

/-- A task that a moved order comes to. -/
theorem accounted_of_joined (horder : order ∈ board.orders.rows) {task : ProductionTask}
    (hplaced : Relocates (fun id old ↦ if id ∈ [order.id] then some task.id else old) board middle)
    (hapart : order.taskId ≠ some task.id)
    (hfits : Fits board task.machineId (board.ordersOf task.id ++ [order])) :
    Accounted board middle task := by
  obtain ⟨machine, total, hmachine, hproducible⟩ := hfits
  refine .inr ⟨machine, _, total, hmachine, hproducible, hplaced.perm ?_ ?_ ?_⟩
  · rw [List.map_append, List.map_singleton]
    refine List.Nodup.append (nodup_ordersOf board task.id) (List.nodup_singleton _) ?_
    intro id hid hown
    obtain ⟨other, hother, heq⟩ := List.mem_map.mp hid
    obtain ⟨hrow, htaskId⟩ := mem_ordersOf.mp hother
    rw [List.mem_singleton] at hown
    rw [board.orders.eq_of_key_eq hrow horder (heq.trans hown)] at htaskId
    exact hapart htaskId
  · intro other hother
    rcases List.mem_append.mp hother with hother | hother
    · exact (mem_ordersOf.mp hother).1
    · rwa [List.mem_singleton.mp hother]
  · intro other hother
    simp only [List.mem_append, List.mem_singleton, mem_ordersOf]
    by_cases hid : other.id = order.id
    · rw [if_pos hid]
      exact iff_of_true rfl (.inr (board.orders.eq_of_key_eq hother horder hid))
    · rw [if_neg hid]
      refine ⟨fun htaskId ↦ .inl ⟨hother, htaskId⟩, ?_⟩
      rintro (⟨-, htaskId⟩ | rfl)
      · exact htaskId
      · exact absurd rfl hid

end Move

/-- An order that is placed where it fits, and leaves behind what fits, leaves valid batches. -/
theorem batched_placeOrder {call : Call} {move : OrderMove} {target : Option LoadedTask}
    {board middle : Board} {order : Order} {u : Unit} (h : Batched board)
    (hop : placeOrder call move target board = .ok u middle) (horder : order ∈ board.orders.rows)
    (hid : order.id = move.orderId)
    (htarget : ∀ loaded, target = some loaded → ∃ task ∈ board.tasks.rows,
      loaded = board.loadTask task ∧ order.taskId ≠ some task.id ∧
        Fits board task.machineId (board.ordersOf task.id ++ [order]))
    (hmachine : ∀ machineId, target = none → move.targetMachineId = some machineId →
      Fits board machineId [order])
    (hremaining : ∀ task ∈ board.tasks.rows, order.taskId = some task.id →
      (board.ordersOf task.id).filter (·.id ≠ order.id) ≠ [] →
        Fits board task.machineId ((board.ordersOf task.id).filter (·.id ≠ order.id))) :
    Batched middle := by
  rcases placeOrder_ok hop with ⟨loaded, rfl, rfl⟩ |
    ⟨machineId, taskId, opened, rfl, htargetMachine, hadd, rfl⟩ | ⟨rfl, -, rfl⟩
  · obtain ⟨goal, hgoal, rfl, hapart, hfits⟩ := htarget loaded rfl
    have hplaced := relocates_assignOrders call [order.id] .producing (some goal.id) board
    rw [← hid]
    refine h.of_accounted (fun _ _ hfind ↦ hfind) fun task htask hnonempty ↦ ?_
    by_cases hgoalTask : goal.id = task.id
    · obtain rfl := board.tasks.eq_of_key_eq hgoal htask hgoalTask
      exact accounted_of_joined horder hplaced hapart hfits
    · exact accounted_of_left horder hplaced htask (fun heq ↦ hgoalTask (Option.some.inj heq))
        hnonempty (hremaining task htask)
  · obtain ⟨hfresh, tasks, hrows, rfl⟩ := addTask_ok hadd
    have hplaced : Relocates (fun id old ↦ if id ∈ [order.id] then some taskId else old) board
        (({ board with tasks, issued := taskId :: board.issued } : Board).assignOrders call
          [order.id] .producing (some taskId)) :=
      (relocates_of_orders_eq rfl).trans (relocates_assignOrders call [order.id] _ _
        { board with tasks, issued := taskId :: board.issued })
    rw [← hid]
    refine h.of_accounted (fun _ _ hfind ↦ hfind) fun task htask hnonempty ↦ ?_
    have htask : task ∈ tasks.rows := htask
    rw [hrows] at htask
    rcases List.mem_append.mp htask with htask | htask
    · refine accounted_of_left horder hplaced htask (fun heq ↦ hfresh ?_) hnonempty
        (hremaining task htask)
      rw [Option.some.inj heq]
      exact mem_usedIds_of_task htask
    · rw [List.mem_singleton.mp htask]
      obtain ⟨machine, total, hfind, hproducible⟩ := hmachine machineId rfl htargetMachine
      refine .inr ⟨machine, [order], total, hfind, hproducible,
        hplaced.perm (List.nodup_singleton _) ?_ fun other hother ↦ ?_⟩
      · intro other hother
        rwa [List.mem_singleton.mp hother]
      · simp only [List.mem_singleton]
        by_cases hother' : other.id = order.id
        · rw [if_pos hother']
          exact iff_of_true rfl (board.orders.eq_of_key_eq hother horder hother')
        · rw [if_neg hother']
          refine iff_of_false (fun htaskId ↦ hfresh ?_) (fun heq ↦ hother' (heq ▸ rfl))
          exact Board.mem_usedIds_of_taskId hother htaskId
  · have hplaced := relocates_assignOrders call [order.id] .pending none board
    rw [← hid]
    refine h.of_accounted (fun _ _ hfind ↦ hfind) fun task htask hnonempty ↦ ?_
    exact accounted_of_left horder hplaced htask (fun heq ↦ by cases heq) hnonempty
      (hremaining task htask)

/-- A move of the only order of a task: the task goes, and no task gets the order. -/
theorem batched_removeSource {call : Call} {move : OrderMove} {target : Option LoadedTask}
    {board middle : Board} {order : Order} {source : ProductionTask} {u : Unit} (h : Batched board)
    (hop : placeOrder call move target board = .ok u middle) (hid : order.id = move.orderId)
    (hsource : board.ordersOf source.id = [order]) :
    Batched (middle.deleteTask call (board.loadTask source)) := by
  have honly := List.mem_singleton_self order
  rw [← hsource, mem_ordersOf] at honly
  obtain ⟨horder, htaskId⟩ := honly
  have hids : (board.loadTask source).orders.map Order.id = [order.id] := by
    change (board.ordersOf source.id).map Order.id = _
    rw [hsource]
    rfl
  have hdeleted := relocates_deleteTask call (board.loadTask source) middle
  rw [hids] at hdeleted
  obtain ⟨place, hplaced, hmachines, htasks⟩ : ∃ place : Option Id,
      Relocates (fun id old ↦ if id ∈ [order.id] then place else old) board middle ∧
        middle.machines = board.machines ∧
          ∀ task ∈ middle.tasks.rows, task ∈ board.tasks.rows ∨ task.id ∉ board.usedIds := by
    rcases placeOrder_ok hop with ⟨loaded, -, rfl⟩ | ⟨machineId, taskId, opened, -, -, hadd, rfl⟩ |
      ⟨-, -, rfl⟩
    · rw [← hid]
      exact ⟨_, relocates_assignOrders call [order.id] _ _ board, rfl, fun _ htask ↦ .inl htask⟩
    · obtain ⟨hfresh, tasks, hrows, rfl⟩ := addTask_ok hadd
      rw [← hid]
      refine ⟨_, (relocates_of_orders_eq rfl).trans (relocates_assignOrders call [order.id] _ _ _),
        rfl, fun task htask ↦ ?_⟩
      have htask : task ∈ tasks.rows := htask
      rw [hrows] at htask
      rcases List.mem_append.mp htask with htask | htask
      · exact .inl htask
      · rw [List.mem_singleton.mp htask]
        exact .inr hfresh
    · rw [← hid]
      exact ⟨_, relocates_assignOrders call [order.id] _ _ board, rfl, fun _ htask ↦ .inl htask⟩
  have hboth := hplaced.trans hdeleted
  have hkept : ∀ other ∈ board.orders.rows, ∀ taskId,
      (if other.id ∈ [order.id] then none else
        if other.id ∈ [order.id] then place else other.taskId) = some taskId →
          other.taskId = some taskId := by
    intro other _ taskId heq
    by_cases hmem : other.id ∈ [order.id]
    · rw [if_pos hmem] at heq
      cases heq
    · rwa [if_neg hmem, if_neg hmem] at heq
  refine h.of_accounted (fun _ _ hfind ↦ hmachines ▸ hfind) fun task htask hnonempty ↦ ?_
  have htask : task ∈ (middle.tasks.erase source.id).rows := htask
  obtain ⟨htask, hne⟩ := List.mem_filter.mp htask
  have hne : task.id ≠ source.id := of_decide_eq_true hne
  rcases htasks task htask with hold | hfresh
  · refine hboth.accounted hold rfl rfl fun other hother ↦ ⟨hkept other hother task.id, ?_⟩
    intro hin
    have hmem : other.id ∉ [order.id] := by
      intro hmem
      rw [board.orders.eq_of_key_eq hother horder (List.mem_singleton.mp hmem), htaskId] at hin
      exact hne (Option.some.inj hin).symm
    rwa [if_neg hmem, if_neg hmem]
  · -- a task opened for the order has lost it again
    exfalso
    obtain ⟨g, hrows, hg⟩ := hboth
    obtain ⟨other', hother'⟩ := List.exists_mem_of_ne_nil _ hnonempty
    obtain ⟨hrow, hin⟩ := mem_ordersOf.mp hother'
    rw [hrows] at hrow
    obtain ⟨other, hother, rfl⟩ := List.mem_map.mp hrow
    rw [(hg other).2.2] at hin
    exact hfresh (Board.mem_usedIds_of_taskId hother (hkept other hother task.id hin))

theorem batched_normalizeQueues {board : Board} (h : Batched board) (call : Call)
    (move : OrderMove) (source : Option LoadedTask) :
    Batched (normalizeQueues call move source board) := by
  unfold normalizeQueues
  dsimp only
  generalize (source.map (·.task.machineId)).toList ++ _ = machineIds
  induction machineIds generalizing board with
  | nil => exact h
  | cons machineId machineIds ih => exact ih (batched_normalizeQueue h call machineId)

/-- What remains of the source of a move is nothing, or fits its machine. -/
theorem requireRemaining_fits {board board' : Board} {p : Machine → Bool} {order : Order}
    {task : ProductionTask} {u : Unit}
    (h : requireRemaining (board.machines.rows.filter p) order (some (board.loadTask task)) board =
      .ok u board') (hne : (board.ordersOf task.id).filter (·.id ≠ order.id) ≠ []) :
    Fits board task.machineId ((board.ordersOf task.id).filter (·.id ≠ order.id)) := by
  unfold requireRemaining lockedMachine at h
  dsimp only at h
  have hsome : remainingOrders (board.loadTask task) order ≠ [] := hne
  rw [if_neg hsome] at h
  simp only [orRaise_bind_eq_ok, checked_bind_eq_ok, pure_eq_ok] at h
  obtain ⟨machine, hfind, total, hvalid, -⟩ := h
  exact fits_of_accepting ⟨machine, hfind, total, hvalid⟩

/-- A move validates what the order joins and what it leaves behind. -/
theorem batched_moveOrder {call : Call} {move : OrderMove} {board board' : Board} {u : Unit}
    (h : Batched board) (hop : moveOrder call move board = .ok u board') : Batched board' := by
  obtain ⟨-, hop⟩ := moveOrder_eq_ok.mp hop
  split_ifs at hop with hsame
  · rwa [← hop]
  obtain ⟨-, -, order, source, target, middle, hfind, hsource, htarget, hremaining, hplace,
    rfl⟩ := hop
  obtain ⟨horder, hid⟩ := (board.orders.find?_eq_some_iff).mp hfind
  refine batched_normalizeQueues ?_ call move source
  have hgoal : ∀ loaded, target = some loaded → ∃ task ∈ board.tasks.rows,
      loaded = board.loadTask task ∧ truthy move.targetTaskId = some task.id ∧
        Fits board task.machineId (board.ordersOf task.id ++ [order]) := by
    rintro loaded rfl
    rcases (targetOf_eq_ok.mp htarget).2 with ⟨-, hnone, -⟩ |
      ⟨task, htask, htargetId, heq, -, haccepting⟩
    · cases hnone
    · exact ⟨task, htask, Option.some.inj heq, htargetId, fits_of_accepting haccepting⟩
  have hmachine : ∀ machineId, target = none → move.targetMachineId = some machineId →
      Fits board machineId [order] := by
    rintro machineId rfl htargetMachine
    rcases (targetOf_eq_ok.mp htarget).2 with ⟨-, -, haccepting⟩ | ⟨_, -, -, heq, -⟩
    · exact fits_of_accepting (haccepting machineId htargetMachine)
    · cases heq
  rcases (sourceOf_eq_ok.mp hsource).2 with ⟨-, rfl, hplannable⟩ |
    ⟨task, htask, hsourceId, rfl, -, htaskId⟩
  · refine batched_placeOrder h hplace horder hid (fun loaded hloaded ↦ ?_) hmachine
      fun task _ htaskId _ ↦ ?_
    · obtain ⟨goal, hgoalTask, hloaded, -, hfits⟩ := hgoal loaded hloaded
      exact ⟨goal, hgoalTask, hloaded, by rw [hplannable.2]; simp, hfits⟩
    · rw [hplannable.2] at htaskId
      cases htaskId
  · unfold removeSource
    dsimp only
    split_ifs with hlength
    · exact batched_removeSource h hplace hid
        (ordersOf_eq_singleton (mem_ordersOf.mpr ⟨horder, htaskId⟩) hlength)
    · refine batched_placeOrder h hplace horder hid (fun loaded hloaded ↦ ?_) hmachine
        fun other hother hotherId hne ↦ ?_
      · obtain ⟨goal, hgoalTask, hloaded, hgoalId, hfits⟩ := hgoal loaded hloaded
        refine ⟨goal, hgoalTask, hloaded, fun heq ↦ hsame ⟨by rw [hsourceId]; rfl, ?_⟩, hfits⟩
        rw [← Option.some.inj (htaskId.symm.trans heq)] at hgoalId
        rw [(truthy_eq_some_iff.mp hsourceId).1, (truthy_eq_some_iff.mp hgoalId).1]
      · obtain rfl := board.tasks.eq_of_key_eq htask hother
          (Option.some.inj (htaskId.symm.trans hotherId))
        exact requireRemaining_fits hremaining hne

theorem batched_reorderTasks {call : Call} {machineId : Id} {orderedTaskIds : List Id}
    {board board' : Board} {u : Unit} (h : Batched board)
    (hop : reorderTasks call machineId orderedTaskIds board = .ok u board') : Batched board' := by
  rw [reorderTasks_ok hop]
  exact batched_renumber h call _

/-- What the change of a task's machine does to the tasks. -/
theorem machineId_changeTasks {call : Call} {taskId targetMachineId : Id} {board : Board}
    {row : ProductionTask} (hrow : row ∈ (board.changeTasks call [taskId]
      (fun row ↦ { row with machineId := targetMachineId }) (fun _ ↦ rfl)).tasks.rows) :
    ∃ old ∈ board.tasks.rows, old.id = row.id ∧
      row.machineId = if old.id = taskId then targetMachineId else old.machineId := by
  have hslot := Board.mem_slots.mpr ⟨row, hrow, rfl⟩
  have hslots : (board.changeTasks call [taskId]
      (fun row ↦ { row with machineId := targetMachineId }) (fun _ ↦ rfl)).slots =
        Slot.change [taskId] (fun slot ↦ { slot with machineId := targetMachineId })
          board.slots := by
    refine Board.slots_changeTasks call [taskId] (fun _ ↦ ?_) (fun _ ↦ ?_) board
    · rfl
    · rfl
  rw [hslots] at hslot
  obtain ⟨slot, hslot, heq⟩ := Slot.mem_change.mp hslot
  obtain ⟨old, hold, rfl⟩ := Board.mem_slots.mp hslot
  simp only [List.mem_singleton] at heq
  by_cases hid : old.id = taskId
  · rw [if_pos (show old.slot.taskId = taskId from hid)] at heq
    refine ⟨old, hold, ?_, ?_⟩
    · exact congrArg Slot.taskId heq
    · rw [if_pos hid]
      exact (congrArg Slot.machineId heq).symm
  · rw [if_neg (show ¬ old.slot.taskId = taskId from hid)] at heq
    refine ⟨old, hold, ?_, ?_⟩
    · exact congrArg Slot.taskId heq
    · rw [if_neg hid]
      exact (congrArg Slot.machineId heq).symm

/-- A moved task fits its new machine; the others stay on theirs. -/
theorem batched_moveTask {call : Call} {taskId targetMachineId : Id} {targetIndex : ℕ}
    {board board' : Board} {u : Unit} (h : Batched board)
    (hop : moveTask call taskId targetMachineId targetIndex board = .ok u board') :
    Batched board' := by
  obtain ⟨task, machine, total, hfind, -, hmachineMem, hmachineId, hvalid, hboard⟩ :=
    moveTask_ok hop
  obtain ⟨htask, hid⟩ := (board.tasks.find?_eq_some_iff).mp hfind
  rw [hboard]
  split_ifs with hsame
  · exact batched_renumber h call _
  · set moved := board.changeTasks call [taskId]
      (fun row ↦ { row with machineId := targetMachineId }) (fun _ ↦ rfl) with hmoved
    have hbatched : Batched moved := by
      refine h.of_accounted (fun _ _ hfind ↦ hfind) fun row hrow _ ↦ ?_
      obtain ⟨old, hold, holdId, hrowMachine⟩ := machineId_changeTasks hrow
      by_cases hown : old.id = taskId
      · obtain rfl := board.tasks.eq_of_key_eq htask hold (hid.trans hown.symm)
        rw [if_pos hown] at hrowMachine
        refine .inr ⟨machine, board.ordersOf task.id, total, ?_, ?_, ?_⟩
        · rw [hrowMachine]
          exact board.machines.find?_of_mem hmachineMem hmachineId
        · exact (validateMachineBatch_eq_ok_iff _ _ _).mp hvalid
        · rw [holdId]
          exact List.Perm.refl _
      · rw [if_neg hown] at hrowMachine
        refine .inl ⟨old, hold, holdId, hrowMachine.symm, ?_⟩
        exact List.Perm.refl _
    exact batched_renumber (batched_renumber hbatched call _) call _

/-- The tasks stay valid batches when tasks, machines and the orders of each task stay. -/
theorem Batched.of_ordersOf_eq {board board' : Board} (h : Batched board)
    (hmachines : ∀ id machine, board.machines.find? id = some machine →
      board'.machines.find? id = some machine)
    (htasks : board'.tasks = board.tasks)
    (horders : ∀ taskId, board'.ordersOf taskId = board.ordersOf taskId) : Batched board' := by
  intro task htask hne
  rw [htasks] at htask
  rw [horders] at hne ⊢
  obtain ⟨machine, total, hfind, hproducible⟩ := h task htask hne
  exact ⟨machine, total, hmachines _ _ hfind, hproducible⟩

/-- A change of orders outside the tasks leaves the orders of each task. -/
theorem ordersOf_of_map {board board' : Board} {g : Order → Order}
    (hrows : board'.orders.rows = board.orders.rows.map g)
    (hg : ∀ row ∈ board.orders.rows, g row = row ∨ (row.taskId = none ∧ (g row).taskId = none))
    (taskId : Id) : board'.ordersOf taskId = board.ordersOf taskId := by
  unfold Board.ordersOf
  rw [hrows]
  generalize board.orders.rows = rows at hg
  induction rows with
  | nil => rfl
  | cons row rows ih =>
    have hrest := ih fun other hother ↦ hg other (List.mem_cons_of_mem _ hother)
    rw [List.map_cons, List.filter_cons, List.filter_cons, hrest]
    rcases hg row List.mem_cons_self with hsame | ⟨hnone, hnone'⟩
    · rw [hsame]
    · rw [hnone, hnone']
      rfl

/-- A change without an effect on the listed orders changes nothing. -/
theorem changeOrders_eq_self {call : Call} {ids : List Id} {change : Order → Order}
    {hid : ∀ order, (change order).id = order.id} {board : Board}
    (h : ∀ row ∈ board.orders.rows, row.id ∈ ids → change row = row) :
    board.changeOrders call ids change hid = board := by
  have horders : (board.changeOrders call ids change hid).orders = board.orders := by
    refine Table.ext ?_
    refine (List.map_congr_left fun row hrow ↦ ?_).trans (List.map_id _)
    split_ifs with hmem
    · unfold stamped
      rw [if_pos (h row hrow hmem), id]
    · rfl
  calc board.changeOrders call ids change hid
      = { board with orders := (board.changeOrders call ids change hid).orders } := rfl
    _ = board := by rw [horders]

/-- An update that gives no field changes nothing. -/
theorem updateOrder_none {call : Call} {orderId : Id} {board board' : Board} {u : Unit}
    (h : updateOrder call orderId OrderFields.none board = .ok u board') : board' = board := by
  unfold updateOrder at h
  simp only [get_bind_eq_ok, require_bind_eq_ok, orRaise_bind_eq_ok, checked_bind_eq_ok] at h
  obtain ⟨order, hfind, -, -, formula, hformula, h⟩ := h
  simp only [OrderFields.none, pure_bind, checked_bind_eq_ok, set_eq_ok] at h
  obtain ⟨quantity, hquantity, customer, hcustomer, product, hproduct, rfl⟩ := h
  obtain rfl := Except.ok.inj hcustomer
  obtain rfl := Except.ok.inj hproduct
  have hquantity : quantity = (order.quantity, order.unit) := (Except.ok.inj hquantity).symm
  have hformula : formula = (order.formulaId, order.formulaSnapshot) :=
    (Except.ok.inj hformula).symm
  subst hquantity hformula
  refine changeOrders_eq_self fun row hrow hmem ↦ ?_
  obtain ⟨horder, hid⟩ := (board.orders.find?_eq_some_iff).mp hfind
  obtain rfl := board.orders.eq_of_key_eq hrow horder ((List.mem_singleton.mp hmem).trans hid.symm)
  rfl

theorem batched_updateOrder {call : Call} {orderId : Id} {fields : OrderFields}
    {board board' : Board} {u : Unit} (h : Batched board)
    (hop : updateOrder call orderId fields board = .ok u board') : Batched board' := by
  obtain ⟨order, hfind, hfree, change, hid, -, hchange, heq⟩ := updateOrder_ok hop
  by_cases hnone : fields = OrderFields.none
  · rw [hnone] at hop
    rwa [updateOrder_none hop]
  · obtain ⟨horder, horderId⟩ := (board.orders.find?_eq_some_iff).mp hfind
    rw [heq]
    refine h.of_ordersOf_eq (fun _ _ hmachine ↦ hmachine) rfl
      (ordersOf_of_map rfl fun row hrow ↦ ?_)
    by_cases hmem : row.id ∈ [orderId]
    · have hrowNone : row.taskId = none := by
        rw [board.orders.eq_of_key_eq hrow horder
          ((List.mem_singleton.mp hmem).trans horderId.symm)]
        exact hfree.resolve_right hnone
      refine .inr ⟨hrowNone, ?_⟩
      rw [if_pos hmem]
      unfold stamped
      split_ifs
      · exact hrowNone
      · change (change row).taskId = none
        rw [hchange, hrowNone, ite_self]
    · exact .inl (if_neg hmem)

theorem batched_createOrderRecord {call : Call} {request : OrderRequest} {board board' : Board}
    {order : Order} (h : Batched board)
    (hop : createOrderRecord call request board = .ok order board') : Batched board' := by
  obtain ⟨-, hnone, hrows, htasks, hmachines, -⟩ := createOrderRecord_ok hop
  refine h.of_ordersOf_eq (fun _ _ hmachine ↦ hmachines ▸ hmachine) htasks fun taskId ↦ ?_
  unfold Board.ordersOf
  rw [hrows, List.filter_append, List.filter_cons_of_neg (by simp [hnone]), List.filter_nil,
    List.append_nil]

theorem batched_deleteOrder {orderId : Id} {board board' : Board} {u : Unit} (h : Batched board)
    (hop : deleteOrder orderId board = .ok u board') : Batched board' := by
  obtain ⟨order, hfind, hnone, rfl⟩ := deleteOrder_ok hop
  obtain ⟨horder, rfl⟩ := (board.orders.find?_eq_some_iff).mp hfind
  refine h.of_ordersOf_eq (fun _ _ hmachine ↦ hmachine) rfl fun taskId ↦ ?_
  change ((board.orders.rows.filter _).filter _) = board.orders.rows.filter _
  rw [List.filter_filter]
  refine List.filter_congr fun row hrow ↦ ?_
  by_cases hid : row.id = order.id
  · rw [board.orders.eq_of_key_eq hrow horder hid, hnone]
    simp
  · simp [hid]

/-- What is related to one list of the same elements and to another is related through them. -/
theorem exists_of_forall₂ {α β γ : Type} {R : α → β → Prop} {S : α → γ → Prop} {as : List α}
    {bs : List β} {cs : List γ} (h : List.Forall₂ R as bs) (h' : List.Forall₂ S as cs) :
    ∀ c ∈ cs, ∃ a b, a ∈ as ∧ b ∈ bs ∧ R a b ∧ S a c := by
  induction h generalizing cs with
  | nil =>
    cases h'
    intro c hc
    cases hc
  | cons hab _ ih =>
    cases h' with
    | cons hac hrest =>
      intro c hc
      rcases List.mem_cons.mp hc with rfl | hc
      · exact ⟨_, _, List.mem_cons_self, List.mem_cons_self, hab, hac⟩
      · obtain ⟨a, b, ha, hb, hR, hS⟩ := ih hrest c hc
        exact ⟨a, b, List.mem_cons_of_mem _ ha, List.mem_cons_of_mem _ hb, hR, hS⟩

theorem exists_right_of_forall₂ {α γ : Type} {S : α → γ → Prop} {as : List α} {cs : List γ}
    (h : List.Forall₂ S as cs) : ∀ a ∈ as, ∃ c ∈ cs, S a c := by
  induction h with
  | nil =>
    intro a ha
    cases ha
  | cons hac _ ih =>
    intro a ha
    rcases List.mem_cons.mp ha with rfl | ha
    · exact ⟨_, List.mem_cons_self, hac⟩
    · obtain ⟨c, hc, hS⟩ := ih a ha
      exact ⟨c, List.mem_cons_of_mem _ hc, hS⟩

section Applied

variable {call : Call} {plan : SchedulePlan} {newTasks : List ProductionTask} {board board' : Board}
  {order' : Order}

/-- An order that the plan assigns comes from no task to one of the new tasks. -/
theorem assigned_applied (happlied : AppliedExactly call plan newTasks board board')
    (horder' : order' ∈ board'.orders.rows)
    (hmem : order'.id ∈ plan.tasks.flatMap ProposedTask.orderIds) :
    ∃ new : ProductionTask, order'.taskId = some new.id ∧ new.id ∉ board.tasks.keys ∧
      ∃ order, board.orders.find? order'.id = some order ∧ order.taskId = none := by
  obtain ⟨task, htask, hid⟩ := List.mem_flatMap.mp hmem
  obtain ⟨new, -, hcreated⟩ := exists_right_of_forall₂ happlied.created task htask
  obtain ⟨order, hfind, hplannable, -⟩ := hcreated.takes order'.id hid
  exact ⟨new, (hcreated.holds order' horder').mpr hid, hcreated.isNew, order, hfind, hplannable.2⟩

/-- An application leaves the orders of the tasks there were. -/
theorem ordersOf_applied (happlied : AppliedExactly call plan newTasks board board')
    {task : ProductionTask} (htask : task ∈ board.tasks.rows) :
    ((board'.ordersOf task.id).map Order.traits).Perm
      ((board.ordersOf task.id).map Order.traits) := by
  refine perm_traits (nodup_ordersOf board task.id) (nodup_ordersOf board' task.id)
    (fun order horder ↦ ?_) (fun order' horder' ↦ ?_)
  · obtain ⟨hrow, htaskId⟩ := mem_ordersOf.mp horder
    have hfind : board.orders.find? order.id = some order := board.orders.find?_of_mem hrow rfl
    have hnotMem : order.id ∉ plan.tasks.flatMap ProposedTask.orderIds := by
      intro hmem
      obtain ⟨planned, hplanned, hid⟩ := List.mem_flatMap.mp hmem
      obtain ⟨new, -, hcreated⟩ := exists_right_of_forall₂ happlied.created planned hplanned
      obtain ⟨other, hother, hplannable, -⟩ := hcreated.takes order.id hid
      obtain rfl := Option.some.inj (hfind.symm.trans hother)
      rw [hplannable.2] at htaskId
      cases htaskId
    rw [← happlied.others order.id hnotMem] at hfind
    exact ⟨order, mem_ordersOf.mpr ⟨(board'.orders.find?_eq_some_iff.mp hfind).1, htaskId⟩,
      rfl, rfl⟩
  · obtain ⟨hrow, htaskId⟩ := mem_ordersOf.mp horder'
    by_cases hmem : order'.id ∈ plan.tasks.flatMap ProposedTask.orderIds
    · obtain ⟨new, hnew, hisNew, -⟩ := assigned_applied happlied hrow hmem
      rw [← Option.some.inj (htaskId.symm.trans hnew)] at hisNew
      exact absurd ((Table.mem_keys _).mpr ⟨task, htask, rfl⟩) hisNew
    · have hfind : board'.orders.find? order'.id = some order' :=
        board'.orders.find?_of_mem hrow rfl
      rw [happlied.others order'.id hmem] at hfind
      exact ⟨order', mem_ordersOf.mpr ⟨(board.orders.find?_eq_some_iff.mp hfind).1, htaskId⟩, rfl⟩

/-- A new task holds the orders that were validated for it. -/
theorem ordersOf_created {task : ProposedTask} {validated : ValidatedTask} {new : ProductionTask}
    (hvalid : IsValidated board task validated) (hnodup : (validated.orders.map Order.id).Nodup)
    (hcreated : CreatedFor call board board'.orders task new) :
    ((board'.ordersOf new.id).map Order.traits).Perm (validated.orders.map Order.traits) := by
  refine perm_traits hnodup (nodup_ordersOf board' new.id) (fun order horder ↦ ?_)
    (fun order' horder' ↦ ?_)
  · have hmem : order.id ∈ task.orderIds := hvalid.ids_eq ▸ List.mem_map_of_mem horder
    obtain ⟨row, hfind, -, hlater⟩ := hcreated.takes order.id hmem
    have hrow : board.orders.find? order.id = some order :=
      board.orders.find?_of_mem (hvalid.orders_mem order horder) rfl
    obtain rfl := Option.some.inj (hrow.symm.trans hfind)
    refine ⟨_, mem_ordersOf.mpr ⟨(board'.orders.find?_eq_some_iff.mp hlater).1, rfl⟩, rfl, ?_⟩
    exact Order.traits_assigned order .producing (some new.id) call.now
  · obtain ⟨hrow, htaskId⟩ := mem_ordersOf.mp horder'
    have hmem := (hcreated.holds order' hrow).mp htaskId
    rw [← hvalid.ids_eq] at hmem
    exact List.mem_map.mp hmem

end Applied

/-- An application validates each task that it creates, and leaves the others. -/
theorem batched_applySchedulePlan {call : Call} {planId userId : Id} {allowV2 : Bool}
    {board board' : Board} {result : AppliedResult} (h : Batched board)
    (hop : applySchedulePlan call planId userId allowV2 board = .ok result board') :
    Batched board' := by
  unfold applySchedulePlan at hop
  obtain ⟨checked, same, hchecked, hplan⟩ := bind_eq_ok.mp hop
  obtain rfl := (readOnly_checkedPlan planId userId allowV2).state_eq hchecked
  obtain ⟨newTasks, written, hwrite, happlied⟩ := writePlan_ok call hchecked
  obtain ⟨-, -, -, -, hvalid, hnodup, -⟩ := checkedPlan_ok hchecked
  rw [hwrite] at hplan
  cases hplan
  refine h.of_accounted (fun _ _ hmachine ↦ ?_) fun task htask hne ↦ ?_
  · rw [happlied.frame]
    exact hmachine
  · rw [happlied.tasks_eq] at htask
    rcases List.mem_append.mp htask with htask | htask
    · exact .inl ⟨task, htask, rfl, rfl, ordersOf_applied happlied htask⟩
    · obtain ⟨planned, validated, -, hmem, hisValid, hcreated⟩ :=
        exists_of_forall₂ hvalid happlied.created task htask
      obtain ⟨total, htotal⟩ := hisValid.valid
      have hnodupTask : (validated.orders.map Order.id).Nodup := by
        rw [CheckedPlan.assigned, List.map_flatMap, List.nodup_flatMap] at hnodup
        exact hnodup.1 validated hmem
      refine .inr ⟨validated.machine, validated.orders, total, ?_,
        (validateMachineBatch_eq_ok_iff _ _ _).mp htotal,
          ordersOf_created hisValid hnodupTask hcreated⟩
      rw [hcreated.onMachine.1]
      exact hisValid.machine_eq

/-! ### Runs -/

theorem batched_commit {α : Type} {body : Txn Failure Board α} {board : Board} (h : Batched board)
    (hbody : ∀ a board', body board = .ok a board' → Batched board') :
    Batched (commit body board) := by
  rcases commit_cases body board with heq | ⟨a, board', hok, heq⟩
  · rwa [heq]
  · rw [heq]
    exact hbody a board' hok

/-- Master data is held fixed: machines and the products of orders may be added to, not changed. -/
def BoardOp.KeepsMasterData (board : Board) : BoardOp → Prop
  | .maintain _ products _ machines =>
    (∀ machine ∈ board.machines.rows, machines.find? machine.id = some machine) ∧
      ∀ order ∈ board.orders.rows, ∀ product, products.find? order.product.id = some product →
        product = order.product
  | _ => True

theorem batched_maintain {customers : Table Customer} {products : Table Product}
    {formulas : Table Formula} {machines : Table Machine} {board : Board} (h : Batched board)
    (hkeeps : BoardOp.KeepsMasterData board (.maintain customers products formulas machines)) :
    Batched (board.maintain customers products formulas machines) := by
  obtain ⟨hmachines, hproducts⟩ := hkeeps
  refine h.of_ordersOf_eq (fun id machine hfind ↦ ?_) rfl
    (ordersOf_of_map rfl fun order horder ↦ .inl ?_)
  · obtain ⟨hmem, rfl⟩ := (board.machines.find?_eq_some_iff).mp hfind
    exact hmachines machine hmem
  · have hproduct : (products.find? order.product.id).getD order.product = order.product := by
      cases hfind : products.find? order.product.id with
      | none => rfl
      | some product => exact hproducts order horder product hfind
    rw [hproduct]

/-- Every step that keeps master data leaves valid batches. -/
theorem batched_step (board : Board) (input : Call × BoardOp) (h : Batched board)
    (hkeeps : input.2.KeepsMasterData board) : Batched (board.step input) := by
  obtain ⟨call, op⟩ := input
  cases op with
  | createOrder request => exact batched_commit h fun _ _ ↦ batched_createOrderRecord h
  | updateOrder orderId fields => exact batched_commit h fun _ _ ↦ batched_updateOrder h
  | deleteOrder orderId => exact batched_commit h fun _ _ ↦ batched_deleteOrder h
  | createTask machineId orderIds => exact batched_commit h fun _ _ ↦ batched_createTask h
  | updateTask taskId fields => exact batched_commit h fun _ _ ↦ batched_updateTask h
  | deleteTask taskId => exact batched_commit h fun _ _ ↦ batched_deleteTask h
  | moveOrder move => exact batched_commit h fun _ _ ↦ batched_moveOrder h
  | moveTask taskId targetMachineId targetIndex =>
    exact batched_commit h fun _ _ ↦ batched_moveTask h
  | reorderTasks machineId orderedTaskIds => exact batched_commit h fun _ _ ↦ batched_reorderTasks h
  | createPlan sessionId userId orderIds =>
    refine batched_commit h fun _ board' hop ↦ ?_
    obtain ⟨-, -, plans, issued, -, -, -, -, -, -, -, -, -, rfl⟩ := createSchedulePlan_ok hop
    exact h.of_ordersOf_eq (fun _ _ hmachine ↦ hmachine) rfl fun _ ↦ rfl
  | applyPlan planId userId allowV2 => exact batched_commit h fun _ _ ↦ batched_applySchedulePlan h
  | changePlan planChange => exact h.of_ordersOf_eq (fun _ _ hmachine ↦ hmachine) rfl fun _ ↦ rfl
  | maintain customers products formulas machines => exact batched_maintain h hkeeps

/-- Two orders share what one task has to share. -/
def SharesBatch (first second : Order) : Prop :=
  (first.unit = "m" ↔ second.unit = "m") ∧
    (productionSignature first).material = (productionSignature second).material ∧
    (productionSignature first).categoryId = (productionSignature second).categoryId ∧
    (productionSignature first).thickness = (productionSignature second).thickness ∧
    PythonText.casefold (productionSignature first).pattern =
      PythonText.casefold (productionSignature second).pattern

theorem Production.Producible.sharesBatch {machine : Machine} {orders : List Order} {total : ℚ}
    (h : Producible machine orders total) {first second : Order} (hfirst : first ∈ orders)
    (hsecond : second ∈ orders) : SharesBatch first second := by
  by_cases hmany : 1 < orders.length
  · obtain ⟨-, -, hsame⟩ := h.mergeable hmany first hfirst second hsecond
    unfold SameSignature ProductionSignature.mergeKey at hsame
    simp only [Prod.mk.injEq] at hsame
    exact ⟨h.sameUnit first hfirst second hsecond, hsame⟩
  · have heq : first = second := by
      match orders, hmany with
      | [_], _ => exact (List.mem_singleton.mp hfirst).trans (List.mem_singleton.mp hsecond).symm
      | [], _ => cases hfirst
      | _ :: _ :: _, hmany => simp at hmany
    rw [heq]
    exact ⟨Iff.rfl, rfl, rfl, rfl, rfl⟩

/-- In every state that a run from the empty board reaches with master data held fixed, every task
that has orders is a valid batch for its machine. -/
theorem batches_run (inputs : List (Call × BoardOp))
    (hkeeps : System.Meets Board.step (fun board input ↦ input.2.KeepsMasterData board) Board.empty
      inputs) :
    let board := System.run Board.step Board.empty inputs
    ∀ task ∈ board.tasks.rows, board.ordersOf task.id ≠ [] →
      ∃ machine total, board.machines.find? task.machineId = some machine ∧
        validateMachineBatch machine (board.ordersOf task.id) = .ok total ∧
        (∀ first ∈ board.ordersOf task.id, ∀ second ∈ board.ordersOf task.id,
          SharesBatch first second) ∧
        machine.minWidth ≤ totalWidth (board.ordersOf task.id) ∧
        totalWidth (board.ordersOf task.id) ≤ machine.maxWidth := by
  intro board task htask hne
  have hempty : Batched Board.empty := fun task htask ↦ (List.not_mem_nil htask).elim
  have h : Batched board := System.invariant_run batched_step inputs Board.empty hempty hkeeps
  obtain ⟨machine, total, hmachine, hproducible⟩ := h task htask hne
  have htotal := hproducible.total_eq
  exact ⟨machine, total, hmachine, (validateMachineBatch_eq_ok_iff _ _ _).mpr hproducible,
    fun _ hfirst _ hsecond ↦ hproducible.sharesBatch hfirst hsecond,
    htotal ▸ hproducible.minWidth_le, htotal ▸ hproducible.le_maxWidth⟩

/-- Two orders of one formula are entered and put together as one task. -/
def batchingRun : List (Call × BoardOp) :=
  [.maintain (Table.empty.put ⟨"customer", "customer"⟩)
      (Table.empty.put ⟨"product", "product", ⟨"film", "film"⟩⟩)
      (Table.empty.put ⟨"formula", "formula", "product", Dict.ofList [], "PVC", none, none⟩)
      (Table.empty.put (sampleMachine "m1")),
    .createOrder ⟨"customer", "product", Dict.ofList [("宽幅", "500mm"), ("厚度", "20μm")], 10, "m",
      some "formula", none⟩,
    .createOrder ⟨"customer", "product", Dict.ofList [("宽幅", "300mm"), ("厚度", "20μm")], 10, "m",
      some "formula", none⟩,
    .createTask "m1" ["f", "ff"]].map
      (fun op ↦ (⟨0, "20260101", IdSource.longer⟩, op))

theorem batches_run_sample :
    let board := System.run Board.step Board.empty batchingRun
    (∃ task ∈ board.tasks.rows, (board.ordersOf task.id).length = 2) ∧
    ∀ task ∈ board.tasks.rows, board.ordersOf task.id ≠ [] →
      ∃ machine total, board.machines.find? task.machineId = some machine ∧
        validateMachineBatch machine (board.ordersOf task.id) = .ok total ∧
        (∀ first ∈ board.ordersOf task.id, ∀ second ∈ board.ordersOf task.id,
          SharesBatch first second) ∧
        machine.minWidth ≤ totalWidth (board.ordersOf task.id) ∧
        totalWidth (board.ordersOf task.id) ≤ machine.maxWidth := by
  refine ⟨by decide +kernel, batches_run batchingRun ⟨⟨?_, ?_⟩, trivial, trivial, trivial, trivial⟩⟩
  · exact fun machine hmachine ↦ (List.not_mem_nil hmachine).elim
  · exact fun order horder ↦ (List.not_mem_nil horder).elim

end FilmOS
