import FilmOS.Scheduling.Fingerprint

/-!
# The board

`Board` holds the tables that the order, production and scheduling services read and write. Its
operations below are the statements those services issue: queries with their ordering, the draw of a
fresh identifier, and the writes on orders and tasks with the update times they renew.

Deleting a task sets the task of an order to null when the order is in the collection that was
loaded with the task, whatever task was assigned to it since; that is how the object-relational
mapper flushes the deletion of the one side of a relationship without delete cascade.
-/

set_option autoImplicit false
set_option relaxedAutoImplicit false

namespace FilmOS

open Transaction Scheduling

inductive PlanStatus
  | draft
  | applied
  | superseded
  | closed
deriving DecidableEq, Repr

/-- What the application of a plan returns. -/
structure AppliedResult where
  planId : Id
  taskIds : List Id
  taskCount : ℕ
  orderCount : ℕ
deriving DecidableEq

structure SchedulePlan where
  id : Id
  sessionId : Id
  createdById : Id
  createdByRunId : Option Id
  status : PlanStatus
  inputOrderIds : List Id
  fingerprint : Fingerprint
  tasks : List ProposedTask
  unassigned : List UnassignedOrder
  appliedAt : Option Time
  revision : ℕ
  appliedResult : Option AppliedResult
  supersededById : Option Id
  updatedAt : Time
  closedAt : Option Time
deriving DecidableEq

instance : Keyed Id SchedulePlan := ⟨SchedulePlan.id⟩

/-- Whether a plan was computed for selected orders. -/
def SchedulePlan.selected (plan : SchedulePlan) : Bool :=
  (expected? plan.fingerprint scopeKey).isSome

@[simp] theorem key_schedulePlan (plan : SchedulePlan) : Keyed.key plan = plan.id := rfl

/-- The business tables, the sequence of order numbers, and the identifiers drawn so far. -/
structure Board where
  customers : Table Customer
  products : Table Product
  formulas : Table Formula
  machines : Table Machine
  orders : Table Order
  tasks : Table ProductionTask
  plans : Table SchedulePlan
  orderNumber : ℕ
  issued : List Id
deriving DecidableEq

namespace Board

/-! ### Queries -/

/-- The orders of a task, as its `orders` collection is loaded. -/
def ordersOf (board : Board) (taskId : Id) : List Order :=
  board.orders.rows.filter (fun order ↦ order.taskId = some taskId)

/-- A task loaded with its orders. -/
def loadTask (board : Board) (task : ProductionTask) : LoadedTask :=
  ⟨task, board.ordersOf task.id⟩

/-- A machine loaded with its tasks and their orders. -/
def loadMachine (board : Board) (machine : Machine) : LoadedMachine :=
  ⟨machine, (board.tasks.rows.filter (·.machineId = machine.id)).map board.loadTask⟩

/-- `load_orders`: the orders that wait to be planned. -/
def loadOrders (board : Board) : List Order :=
  orderBy (fun order ↦ toLex (order.createdAt, order.id))
    (board.orders.rows.filter (fun order ↦ order.IsPlannable))

/-- `load_machines`: the active machines with their queues. -/
def loadMachines (board : Board) : List LoadedMachine :=
  (orderBy (fun machine ↦ toLex (machine.name, machine.id))
    (board.machines.rows.filter (·.isActive))).map board.loadMachine

/-- The tasks of a machine that are not done. -/
def activeTasks (board : Board) (machineId : Id) : List ProductionTask :=
  board.tasks.rows.filter (fun task ↦ task.machineId = machineId ∧ task.status ≠ .done)

/-- `_active_queue`. -/
def activeQueue (board : Board) (machineId : Id) : List ProductionTask :=
  orderBy (fun task ↦ toLex (task.position, task.id)) (board.activeTasks machineId)

/-- `(max_position or 0) + 1` over some tasks. -/
def nextPosition (tasks : List ProductionTask) : ℤ :=
  (maxOf (tasks.map ProductionTask.position)).getD 0 + 1

/-- The position behind some tasks is behind each of them. -/
theorem lt_nextPosition {tasks : List ProductionTask} {task : ProductionTask} (h : task ∈ tasks) :
    task.position < nextPosition tasks := by
  have hmem : task.position ∈ tasks.map ProductionTask.position := List.mem_map_of_mem h
  unfold nextPosition
  cases hmax : maxOf (tasks.map ProductionTask.position) with
  | none =>
    rw [maxOf, List.max?_eq_none_iff] at hmax
    rw [hmax] at hmem
    cases hmem
  | some m =>
    have hle := le_of_maxOf hmax hmem
    rw [Option.getD_some]
    omega

/-! ### Identifiers -/

/-- The identifiers in use: those drawn so far, those of the rows, and those orders refer to. -/
def usedIds (board : Board) : List Id :=
  board.issued ++ board.orders.keys ++ board.orders.rows.filterMap Order.taskId ++
    board.tasks.keys ++ board.plans.keys

theorem issued_subset_usedIds (board : Board) : board.issued ⊆ board.usedIds := by
  intro id hid
  simp [usedIds, hid]

theorem orders_subset_usedIds (board : Board) : board.orders.keys ⊆ board.usedIds := by
  intro id hid
  simp [usedIds, hid]

theorem tasks_subset_usedIds (board : Board) : board.tasks.keys ⊆ board.usedIds := by
  intro id hid
  simp [usedIds, hid]

theorem mem_usedIds_of_taskId {board : Board} {order : Order} {taskId : Id}
    (horder : order ∈ board.orders.rows) (htaskId : order.taskId = some taskId) :
    taskId ∈ board.usedIds := by
  unfold usedIds
  simp only [List.mem_append, List.mem_filterMap]
  exact Or.inl (Or.inl (Or.inr ⟨order, horder, htaskId⟩))

/-- `generate_id`. -/
def generateId (call : Call) : Txn Failure Board Id := do
  let board ← get
  let id := call.source.pick board.usedIds
  set { board with issued := id :: board.issued }
  return id

/-! ### Writes -/

/-- Changes the orders with the listed identifiers, renewing the update time of those the change
has an effect on. -/
def changeOrders (call : Call) (ids : List Id) (change : Order → Order)
    (hid : ∀ order, (change order).id = order.id) (board : Board) : Board :=
  { board with
    orders := board.orders.mapRows
      (fun order ↦
        if order.id ∈ ids then stamped (fun o ↦ { o with updatedAt := call.now }) change order
        else order)
      (fun order ↦ by
        unfold stamped
        split_ifs
        · rfl
        · exact hid order
        · rfl) }

/-- Changes the tasks with the listed identifiers, renewing the update time of those the change
has an effect on. -/
def changeTasks (call : Call) (ids : List Id) (change : ProductionTask → ProductionTask)
    (hid : ∀ task, (change task).id = task.id) (board : Board) : Board :=
  { board with
    tasks := board.tasks.mapRows
      (fun task ↦
        if task.id ∈ ids then stamped (fun t ↦ { t with updatedAt := call.now }) change task
        else task)
      (fun task ↦ by
        unfold stamped
        split_ifs
        · rfl
        · exact hid task
        · rfl) }

/-- Gives the orders with the listed identifiers a status and a task. -/
def assignOrders (call : Call) (ids : List Id) (status : OrderStatus) (taskId : Option Id)
    (board : Board) : Board :=
  board.changeOrders call ids (fun order ↦ { order with status, taskId }) (fun _ ↦ rfl)

/-- Gives the orders with the listed identifiers a status. -/
def setOrderStatus (call : Call) (ids : List Id) (status : OrderStatus) (board : Board) : Board :=
  board.changeOrders call ids (fun order ↦ { order with status }) (fun _ ↦ rfl)

/-- Sets the task of every order in a loaded collection to null, and removes the task: the flush of
`db.delete(task)`. -/
def deleteTask (call : Call) (loaded : LoadedTask) (board : Board) : Board :=
  let detached := board.changeOrders call (loaded.orders.map Order.id)
    (fun order ↦ { order with taskId := none }) (fun _ ↦ rfl)
  { detached with tasks := detached.tasks.erase loaded.task.id }

/-- Numbers the tasks with the listed identifiers from one, in the order of the list. -/
def renumber (call : Call) (ids : List Id) (board : Board) : Board :=
  board.changeTasks call ids (fun task ↦ { task with position := ids.idxOf task.id + 1 })
    (fun _ ↦ rfl)

/-- `_normalize_queue`. -/
def normalizeQueue (call : Call) (machineId : Id) (board : Board) : Board :=
  board.renumber call ((board.activeQueue machineId).map ProductionTask.id)

/-- Adds a waiting task for a machine and flushes it. -/
def addTask (call : Call) (machineId : Id) (position : ℤ) (notes : Option String) :
    Txn Failure Board Id := do
  let id ← generateId call
  let board ← get
  let tasks ← orRaise
    (board.tasks.insert? { id, machineId, position, status := .waiting, notes,
                           updatedAt := call.now })
    (.integrityError "production_tasks_pkey")
  set { board with tasks }
  return id

/-- Adding a task never fails: it draws a fresh identifier and appends a waiting task. -/
theorem exists_addTask (call : Call) (machineId : Id) (position : ℤ) (notes : Option String)
    (board : Board) :
    ∃ id board', addTask call machineId position notes board = .ok id board' ∧
      id ∉ board.usedIds ∧
      ∃ tasks : Table ProductionTask,
        tasks.rows = board.tasks.rows ++
          [⟨id, machineId, position, .waiting, notes, call.now⟩] ∧
        board' = { board with tasks, issued := id :: board.issued } := by
  have hused := call.source.fresh board.usedIds
  have hfresh : call.source.pick board.usedIds ∉ board.tasks.keys :=
    fun hmem ↦ hused (board.tasks_subset_usedIds hmem)
  obtain ⟨tasks, htasks, hrows⟩ := Table.exists_insert?_of_notMem
    (r := (⟨call.source.pick board.usedIds, machineId, position, .waiting, notes, call.now⟩ :
      ProductionTask)) hfresh
  refine ⟨call.source.pick board.usedIds, _, ?_, hused, tasks, hrows, rfl⟩
  unfold addTask generateId
  simp only [get_bind_eq_ok, set_bind_eq_ok, orRaise_bind_eq_ok, pure_eq_ok, bind_assoc, pure_bind]
  exact ⟨tasks, htasks, trivial, rfl⟩

end Board

end FilmOS
