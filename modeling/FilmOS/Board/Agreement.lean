import FilmOS.Board.Ledger
import FilmOS.Board.Orders
import FilmOS.Scheduling.Service
import FilmOS.Library.Run

/-!
# Orders and tasks agree

The production flow keeps orders and tasks in step: an order has no task exactly while it is
pending, it is done exactly when its task is, and no task is empty (`Agreement`). Each operation of
the order, production and scheduling services keeps the agreement, except one: a move of the only
order of a task to another task or machine. There the source is deleted after the order was sent to
its new place, and deleting it takes the task from every order loaded with it, the moved one
included (`StrandsOrder`). `linked_moveOrder_iff` shows that a move keeps the agreement exactly when
it does not strand its order, and `agreement_run_iff` that a run does exactly when no move in it
strands its order.
-/

set_option autoImplicit false
set_option relaxedAutoImplicit false

namespace FilmOS

open Transaction Production Scheduling ProductionService OrderService

/-! ### The agreement -/

/-- Orders and tasks agree. -/
structure Agreement (board : Board) : Prop where
  /-- An order has no task exactly when it is pending. -/
  pending_iff : ∀ order ∈ board.orders.rows, order.taskId = none ↔ order.status = .pending
  /-- The task of an order exists. -/
  task_exists : ∀ order ∈ board.orders.rows, ∀ taskId, order.taskId = some taskId →
    ∃ task ∈ board.tasks.rows, task.id = taskId
  /-- An order is done exactly when its task is. -/
  done_iff : ∀ order ∈ board.orders.rows, order.status = .done ↔
    ∃ task ∈ board.tasks.rows, order.taskId = some task.id ∧ task.status = .done
  /-- An order is in production exactly when its task waits or is in production. -/
  producing_iff : ∀ order ∈ board.orders.rows, order.status = .producing ↔
    ∃ task ∈ board.tasks.rows, order.taskId = some task.id ∧
      (task.status = .waiting ∨ task.status = .producing)
  /-- No task is without orders. -/
  task_inhabited : ∀ task ∈ board.tasks.rows, ∃ order ∈ board.orders.rows,
    order.taskId = some task.id

/-- The task of an order is one row: two tasks with one identifier are the same. -/
theorem task_eq_of_taskId {board : Board} {order : Order} {task task' : ProductionTask}
    (htask : task ∈ board.tasks.rows) (htask' : task' ∈ board.tasks.rows)
    (h : order.taskId = some task.id) (h' : order.taskId = some task'.id) : task = task' :=
  board.tasks.eq_of_key_eq htask htask' (Option.some.inj (h.symm.trans h'))

/-- Orders and tasks agree exactly when the ledger is linked. -/
theorem agreement_iff_linked (board : Board) : Agreement board ↔ board.ledger.Linked := by
  constructor
  · intro h
    constructor
    · intro entry hentry
      obtain ⟨order, horder, rfl⟩ := Board.mem_ledger_entries.mp hentry
      cases htask : order.taskId with
      | none => exact Or.inl ⟨htask, (h.pending_iff order horder).mp htask⟩
      | some taskId =>
        obtain ⟨task, hmem, rfl⟩ := h.task_exists order horder taskId htask
        refine Or.inr ⟨(task.id, task.status), Board.mem_ledger_tasks.mpr ⟨task, hmem, rfl⟩,
          htask, ?_⟩
        change order.status = orderStatusFor task.status
        cases hstatus : task.status with
        | waiting => exact (h.producing_iff order horder).mpr ⟨task, hmem, htask, Or.inl hstatus⟩
        | producing => exact (h.producing_iff order horder).mpr ⟨task, hmem, htask, Or.inr hstatus⟩
        | done => exact (h.done_iff order horder).mpr ⟨task, hmem, htask, hstatus⟩
    · intro task htask
      obtain ⟨row, hrow, rfl⟩ := Board.mem_ledger_tasks.mp htask
      obtain ⟨order, horder, hid⟩ := h.task_inhabited row hrow
      exact ⟨order.entry, Board.mem_ledger_entries.mpr ⟨order, horder, rfl⟩, hid⟩
  · rintro ⟨hplaced, hinhabited⟩
    have hcases : ∀ order ∈ board.orders.rows,
        (order.taskId = none ∧ order.status = .pending) ∨
          ∃ task ∈ board.tasks.rows, order.taskId = some task.id ∧
            order.status = orderStatusFor task.status := by
      intro order horder
      rcases hplaced order.entry (Board.mem_ledger_entries.mpr ⟨order, horder, rfl⟩) with
        hpending | ⟨task, htask, hid, hstatus⟩
      · exact Or.inl hpending
      · obtain ⟨row, hrow, rfl⟩ := Board.mem_ledger_tasks.mp htask
        exact Or.inr ⟨row, hrow, hid, hstatus⟩
    have hstatus_of : ∀ order ∈ board.orders.rows, ∀ task ∈ board.tasks.rows,
        order.taskId = some task.id → order.status = orderStatusFor task.status := by
      intro order horder task htask hid
      rcases hcases order horder with ⟨hnone, -⟩ | ⟨task', htask', hid', hstatus⟩
      · rw [hnone] at hid
        cases hid
      · rw [task_eq_of_taskId htask htask' hid hid']
        exact hstatus
    refine ⟨?_, ?_, ?_, ?_, ?_⟩
    · intro order horder
      rcases hcases order horder with ⟨hnone, hpending⟩ | ⟨task, -, hid, hstatus⟩
      · exact ⟨fun _ ↦ hpending, fun _ ↦ hnone⟩
      · rw [hid, hstatus]
        cases task.status <;> simp [orderStatusFor]
    · intro order horder taskId htaskId
      rcases hcases order horder with ⟨hnone, -⟩ | ⟨task, htask, hid, -⟩
      · rw [hnone] at htaskId
        cases htaskId
      · exact ⟨task, htask, Option.some.inj (hid.symm.trans htaskId)⟩
    · intro order horder
      constructor
      · intro hdone
        rcases hcases order horder with ⟨-, hpending⟩ | ⟨task, htask, hid, hstatus⟩
        · rw [hdone] at hpending
          cases hpending
        · refine ⟨task, htask, hid, ?_⟩
          rw [hdone] at hstatus
          cases hs : task.status <;> rw [hs] at hstatus <;> first | rfl | cases hstatus
      · rintro ⟨task, htask, hid, hdone⟩
        rw [hstatus_of order horder task htask hid, hdone]
        rfl
    · intro order horder
      constructor
      · intro hproducing
        rcases hcases order horder with ⟨-, hpending⟩ | ⟨task, htask, hid, hstatus⟩
        · rw [hproducing] at hpending
          cases hpending
        · refine ⟨task, htask, hid, ?_⟩
          rw [hproducing] at hstatus
          cases hs : task.status <;> rw [hs] at hstatus <;> simp [orderStatusFor] at hstatus ⊢
      · rintro ⟨task, htask, hid, hs | hs⟩ <;>
          rw [hstatus_of order horder task htask hid, hs] <;> rfl
    · intro task htask
      obtain ⟨entry, hentry, hid⟩ :=
        hinhabited (task.id, task.status) (Board.mem_ledger_tasks.mpr ⟨task, htask, rfl⟩)
      obtain ⟨order, horder, rfl⟩ := Board.mem_ledger_entries.mp hentry
      exact ⟨order, horder, hid⟩

/-! ### The order service -/

/-- The entries with the identifier of an order are its own. -/
theorem entry_eq_of_orderId {board : Board} {order : Order} (horder : order ∈ board.orders.rows)
    {entry : Entry} (hentry : entry ∈ board.ledger.entries) (h : entry.orderId = order.id) :
    entry = order.entry := by
  obtain ⟨other, hother, rfl⟩ := Board.mem_ledger_entries.mp hentry
  rw [board.orders.eq_of_key_eq hother horder h]

/-- A created order enters the ledger as a pending one. -/
theorem linked_createOrderRecord {call : Call} {request : OrderRequest} {board board' : Board}
    {order : Order} (h : createOrderRecord call request board = .ok order board')
    (hlinked : board.ledger.Linked) : board'.ledger.Linked := by
  obtain ⟨hpending, hnone, hrows, htasks, -, -⟩ := createOrderRecord_ok h
  have hledger : board'.ledger = board.ledger.addOrder order.id := by
    unfold Board.ledger Ledger.addOrder
    rw [Ledger.mk.injEq, hrows, htasks, List.map_append, List.map_singleton]
    refine ⟨?_, rfl⟩
    unfold Order.entry
    rw [hpending, hnone]
  rw [hledger]
  exact ⟨hlinked.1.addOrder order.id, hlinked.2.addOrder order.id⟩

/-- An update leaves the ledger alone: only an order that is already pending outside every task is
sent back to the pending ones. -/
theorem linked_updateOrder {call : Call} {orderId : Id} {fields : OrderFields}
    {board board' : Board} {u : Unit} (h : updateOrder call orderId fields board = .ok u board')
    (hlinked : board.ledger.Linked) : board'.ledger.Linked := by
  obtain ⟨order, hfind, hfree, change, hid, hstatus, htask, rfl⟩ := updateOrder_ok h
  obtain ⟨horder, rfl⟩ := (board.orders.find?_eq_some_iff).mp hfind
  have hentry : ∀ row, (change row).entry = if fields.status = none then row.entry
      else { row.entry with status := .pending, taskId := none } := by
    intro row
    unfold Order.entry
    rw [hid, hstatus, htask]
    split_ifs <;> rfl
  rw [Board.ledger_changeOrders call _ hid (f := fun entry ↦ if fields.status = none then entry
      else { entry with status := .pending, taskId := none }) hentry, Ledger.change_eq_self]
  · exact hlinked
  · intro entry hmem hin
    obtain rfl := entry_eq_of_orderId horder hmem (List.mem_singleton.mp hin)
    split_ifs with hnone
    · rfl
    · have hfreeOrder : order.taskId = none :=
        hfree.resolve_right fun heq ↦ hnone (by rw [heq]; rfl)
      rcases hlinked.1 order.entry hmem with ⟨htaskNone, hpending⟩ | ⟨task, -, htaskId, -⟩
      · rw [← hpending, ← htaskNone]
      · have : order.taskId = some task.1 := htaskId
        rw [hfreeOrder] at this
        cases this

/-- A deleted order was outside every task. -/
theorem linked_deleteOrder {orderId : Id} {board board' : Board} {u : Unit}
    (h : deleteOrder orderId board = .ok u board') (hlinked : board.ledger.Linked) :
    board'.ledger.Linked := by
  obtain ⟨order, hfind, hnone, rfl⟩ := deleteOrder_ok h
  obtain ⟨horder, hid⟩ := (board.orders.find?_eq_some_iff).mp hfind
  have hledger : ({ board with orders := board.orders.erase orderId } : Board).ledger =
      board.ledger.removeOrder orderId := by
    unfold Board.ledger Ledger.removeOrder
    rw [Ledger.mk.injEq]
    refine ⟨?_, rfl⟩
    rw [List.filter_map]
    rfl
  rw [hledger]
  refine ⟨hlinked.1.removeOrder _, hlinked.2.removeOrder ?_⟩
  intro entry hentry heq
  rw [entry_eq_of_orderId horder hentry (heq.trans hid.symm)]
  exact hnone

/-! ### The production service -/

/-- The entries of a task's orders are those with its identifier as their task. -/
theorem mem_ordersOf_iff {board : Board} (taskId : Id) {entry : Entry}
    (hentry : entry ∈ board.ledger.entries) :
    entry.orderId ∈ (board.ordersOf taskId).map Order.id ↔ entry.taskId = some taskId := by
  obtain ⟨order, horder, rfl⟩ := Board.mem_ledger_entries.mp hentry
  unfold Board.ordersOf
  rw [List.mem_map]
  constructor
  · rintro ⟨other, hother, hid⟩
    obtain ⟨hmem, htask⟩ := List.mem_filter.mp hother
    rw [← board.orders.eq_of_key_eq hmem horder hid, Order.taskId_entry]
    simpa using htask
  · intro htask
    rw [Order.taskId_entry] at htask
    exact ⟨order, List.mem_filter.mpr ⟨horder, by simpa using htask⟩, rfl⟩

/-- The waiting orders of a new task leave no task without orders. -/
theorem linked_createTask {call : Call} {machineId : Id} {orderIds : List Id}
    {board board' : Board} {taskId : Id}
    (h : createTask call machineId orderIds board = .ok taskId board')
    (hlinked : board.ledger.Linked) : board'.ledger.Linked := by
  obtain ⟨hne, -, hkeys, hplannable, -, -, -, -, middle, hadd, rfl⟩ := createTask_ok h
  rw [Board.ledger_assignOrders, Board.ledger_addTask hadd]
  refine hlinked.openTask (hlinked.2.spares ?_) ?_
  · intro entry hentry hmem
    obtain ⟨order, horder, rfl⟩ := Board.mem_ledger_entries.mp hentry
    refine (hplannable order (List.mem_filterMap.mpr ⟨order.id, hmem, ?_⟩)).2
    exact board.orders.find?_of_mem (k := order.id) horder rfl
  · obtain ⟨id, hid⟩ := List.exists_mem_of_ne_nil orderIds hne
    obtain ⟨order, horder, hkey⟩ := (board.orders.mem_keys).mp (hkeys id hid)
    refine ⟨order.entry, Board.mem_ledger_entries.mpr ⟨order, horder, rfl⟩, ?_⟩
    rw [Order.orderId_entry, show order.id = id from hkey]
    exact hid

/-- A task changes its status together with its orders. -/
theorem linked_updateTask {call : Call} {taskId : Id} {fields : TaskFields} {board board' : Board}
    {u : Unit} (h : updateTask call taskId fields board = .ok u board')
    (hlinked : board.ledger.Linked) : board'.ledger.Linked := by
  rcases updateTask_ok h with rfl | ⟨task, machine, status, htask, -, -, -, rfl⟩
  · exact hlinked
  · obtain ⟨-, rfl⟩ := (board.tasks.find?_eq_some_iff).mp htask
    rw [Board.ledger_changeTasks_status call _ status, Board.ledger_setOrderStatus]
    · exact hlinked.setTask fun entry hentry ↦ mem_ordersOf_iff task.id hentry
    · exact fun _ ↦ rfl

/-- A deleted task sends its orders back to the pending ones. -/
theorem linked_deleteTask {call : Call} {taskId : Id} {board board' : Board} {u : Unit}
    (h : deleteTask call taskId board = .ok u board') (hlinked : board.ledger.Linked) :
    board'.ledger.Linked := by
  obtain ⟨task, -, -, rfl⟩ := deleteTask_ok h
  rw [Board.ledger_normalizeQueue, Board.ledger_deleteTask, Board.ledger_assignOrders]
  exact hlinked.dissolve fun entry hentry ↦ mem_ordersOf_iff task.id hentry

/-- Reordering leaves the ledger alone. -/
theorem ledger_reorderTasks {call : Call} {machineId : Id} {orderedTaskIds : List Id}
    {board board' : Board} {u : Unit}
    (h : reorderTasks call machineId orderedTaskIds board = .ok u board') :
    board'.ledger = board.ledger := by
  rw [reorderTasks_ok h, Board.ledger_renumber]

/-- Moving a task leaves the ledger alone. -/
theorem ledger_moveTask {call : Call} {taskId targetMachineId : Id} {targetIndex : ℕ}
    {board board' : Board} {u : Unit}
    (h : moveTask call taskId targetMachineId targetIndex board = .ok u board') :
    board'.ledger = board.ledger := by
  obtain ⟨task, machine, total, -, -, -, -, -, hboard⟩ := moveTask_ok h
  rw [hboard]
  split_ifs
  · rw [Board.ledger_renumber]
  · rw [Board.ledger_renumber, Board.ledger_renumber, Board.ledger_changeTasks]
    exact fun _ ↦ rfl

end FilmOS
