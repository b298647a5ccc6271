import FilmOS.Board.State

/-!
# The production service

The operations on production tasks: creation from pending orders, the flow of a task from waiting
through producing to done and back, withdrawal of a task, moves of orders and tasks, and the order
of a machine's queue. Each is the body of one transaction; the advisory lock that each takes first
serialises them and is not modelled.
-/

set_option autoImplicit false
set_option relaxedAutoImplicit false

namespace FilmOS.ProductionService

open Transaction Production Scheduling

/-! ### Locked rows -/

/-- `_lock_machine`. -/
def lockMachine (board : Board) (machineId : Id) : Txn Failure Board Machine :=
  orRaise (board.machines.find? machineId) (.http 404 "机器不存在")

/-- `_lock_machines`. -/
def lockMachines (board : Board) (ids : List Id) : Txn Failure Board (List Machine) := do
  require (∀ id ∈ ids, id ∈ board.machines.keys) (.http 404 "机器不存在")
  return board.machines.rows.filter (·.id ∈ ids)

/-- `_lock_orders`. -/
def lockOrders (board : Board) (ids : List Id) : Txn Failure Board Unit :=
  require (∀ id ∈ ids, id ∈ board.orders.keys) (.http 404 "订单不存在")

/-- `_lock_tasks`, of one task. -/
def lockTask (board : Board) (taskId : Id) : Txn Failure Board LoadedTask :=
  orRaise ((board.tasks.find? taskId).map board.loadTask) (.http 404 "生产任务不存在")

/-- A machine among the locked ones. -/
def lockedMachine (machines : List Machine) (machineId : Id) : Txn Failure Board Machine :=
  orRaise (machines.find? (·.id = machineId)) (.keyError machineId)

/-- `_require_waiting`. -/
def requireWaiting (task : ProductionTask) : Txn Failure Board Unit :=
  require (task.status = .waiting) (.http 409 "运行中或已完成的生产任务不能再拆分、合并、移动或删除")

/-! ### Tasks -/

/-- `create_task`. -/
def createTask (call : Call) (machineId : Id) (orderIds : List Id) : Txn Failure Board Id := do
  require (machineId ≠ "" ∧ orderIds ≠ []) (.http 400 "machineId 和 orderIds 为必填项")
  require orderIds.Nodup (.http 400 "生产任务中不能包含重复订单")
  let board ← get
  let machine ← lockMachine board machineId
  lockOrders board orderIds
  let orders := orderIds.filterMap board.orders.find?
  refuse (orders.find? (fun order ↦ ¬ order.IsPlannable)) fun order ↦
    .http 409 s!"订单 {order.orderNo} 已被其他生产任务占用"
  let _ ← checked (validateMachineBatch machine orders)
  let position := Board.nextPosition (board.activeTasks machineId)
  let taskId ← Board.addTask call machineId position none
  modify (Board.assignOrders call orderIds .producing (some taskId))
  return taskId

/-- The fields of a task update. `unsupported` says that a field other than these was given. -/
structure TaskFields where
  status : Option TaskStatus
  expectedStatus : Option TaskStatus
  expectedUpdatedAt : Option Time
  expectedOrderIds : Option (List Id)
  unsupported : Bool

/-- The expectations of an update on the task and its orders. -/
def TaskFields.Matches (fields : TaskFields) (loaded : LoadedTask) : Prop :=
  (∀ status ∈ fields.expectedStatus, status = loaded.task.status) ∧
    (∀ time ∈ fields.expectedUpdatedAt, time = loaded.task.updatedAt) ∧
    ∀ ids ∈ fields.expectedOrderIds,
      (∀ id ∈ ids, id ∈ loaded.orders.map Order.id) ∧
        ∀ id ∈ loaded.orders.map Order.id, id ∈ ids

instance (fields : TaskFields) (loaded : LoadedTask) : Decidable (fields.Matches loaded) :=
  inferInstanceAs (Decidable (_ ∧ _ ∧ _))

/-- The allowed changes of a task's status. -/
def allowed : TaskStatus → List TaskStatus
  | .waiting => [.producing]
  | .producing => [.done, .waiting]
  | .done => [.producing]

/-- The status of the orders of a task with a given status. -/
def orderStatusFor : TaskStatus → OrderStatus
  | .waiting => .producing
  | .producing => .producing
  | .done => .done

/-- The checks on a task that starts or resumes: its batch is valid, and the machine produces
nothing else. -/
def requireStartable (board : Board) (machine : Machine) (loaded : LoadedTask)
    (status : TaskStatus) : Except Failure Unit :=
  if status = .producing then do
    let _ ← validateMachineBatch machine loaded.orders
    ensure (∀ other ∈ board.tasks.rows, other.machineId = loaded.task.machineId →
        other.status = .producing → other.id = loaded.task.id)
      (.http 409 "该机器已有生产中的任务，请先完成当前任务")
  else .ok ()

/-- The position of a task after a change of status: a task that resumes goes to the end of the
queue. -/
def resumedPosition (board : Board) (task : ProductionTask) (status : TaskStatus) : ℤ :=
  if status = .producing ∧ task.status = .done then
    Board.nextPosition (board.activeQueue task.machineId)
  else task.position

/-- `update_task`. -/
def updateTask (call : Call) (taskId : Id) (fields : TaskFields) : Txn Failure Board Unit := do
  require (fields.unsupported = false) (.http 400 "任务队列或订单变更请使用原子看板操作接口")
  let status ← orRaise fields.status (.http 400 "没有可更新的任务字段")
  let board ← get
  let initial ← orRaise (board.tasks.find? taskId) (.http 404 "生产任务不存在")
  let machine ← lockMachine board initial.machineId
  let loaded ← lockTask board taskId
  require (fields.Matches loaded) (.http 409 "生产任务或关联订单已变化，请刷新后重新确认")
  if status = loaded.task.status then return ()
  else
    require (status ∈ allowed loaded.task.status)
      (.http 409 "请按“待生产 → 生产中 → 已完成”流转；生产中可撤回待生产，已完成只能恢复生产")
    checked (requireStartable board machine loaded status)
    let position := resumedPosition board loaded.task status
    modify (Board.setOrderStatus call (loaded.orders.map Order.id) (orderStatusFor status))
    modify (Board.changeTasks call [taskId]
      (fun task ↦ { task with position, status, updatedAt := call.now }) (fun _ ↦ rfl))

/-- `delete_task`. -/
def deleteTask (call : Call) (taskId : Id) : Txn Failure Board Unit := do
  let board ← get
  let initial ← orRaise (board.tasks.find? taskId) (.http 404 "生产任务不存在")
  let _ ← lockMachine board initial.machineId
  let loaded ← lockTask board taskId
  requireWaiting loaded.task
  lockOrders board (loaded.orders.map Order.id)
  modify (Board.assignOrders call (loaded.orders.map Order.id) .pending none)
  modify (Board.deleteTask call loaded)
  modify (Board.normalizeQueue call loaded.task.machineId)

/-! ### Moving orders -/

/-- The arguments of a move of an order. -/
structure OrderMove where
  orderId : Id
  sourceTaskId : Option Id
  targetTaskId : Option Id
  targetMachineId : Option Id
deriving DecidableEq

/-- The tasks a move names. -/
def OrderMove.taskIds (move : OrderMove) : List Id :=
  (truthy move.sourceTaskId).toList ++ (truthy move.targetTaskId).toList

/-- The machines a move concerns: those of its tasks, and the one it names. -/
def OrderMove.machineIds (board : Board) (move : OrderMove) : List Id :=
  (move.taskIds.filterMap board.tasks.find?).map ProductionTask.machineId ++
    (truthy move.targetMachineId).toList

/-- The task a move takes the order from, or the check that the order waits to be planned. -/
def sourceOf (board : Board) (move : OrderMove) (order : Order) :
    Txn Failure Board (Option LoadedTask) :=
  match truthy move.sourceTaskId with
  | none => do
    require order.IsPlannable (.http 409 s!"订单 {order.orderNo} 已不在待排产区，请刷新后重试")
    return none
  | some sourceId => do
    let source ← lockTask board sourceId
    requireWaiting source.task
    require (order.taskId = some source.task.id)
      (.http 409 s!"订单 {order.orderNo} 已不在原生产任务中，请刷新后重试")
    return some source

/-- The task a move brings the order to, the batch there being valid with it. Where no task is
named but a machine is, the order alone must be valid on that machine. -/
def targetOf (board : Board) (move : OrderMove) (machines : List Machine) (order : Order) :
    Txn Failure Board (Option LoadedTask) :=
  match truthy move.targetTaskId, move.targetMachineId with
  | some targetId, _ => do
    let target ← lockTask board targetId
    requireWaiting target.task
    let machine ← lockedMachine machines target.task.machineId
    let _ ← checked (validateMachineBatch machine (target.orders ++ [order]))
    return some target
  | none, some machineId => do
    let machine ← lockedMachine machines machineId
    let _ ← checked (validateMachineBatch machine [order])
    return none
  | none, none => return none

/-- The orders that remain in the source of a move. -/
def remainingOrders (source : LoadedTask) (order : Order) : List Order :=
  source.orders.filter (·.id ≠ order.id)

/-- What remains of the source must stay valid, unless nothing remains. -/
def requireRemaining (machines : List Machine) (order : Order) :
    Option LoadedTask → Txn Failure Board Unit
  | none => pure ()
  | some source =>
    if remainingOrders source order = [] then pure ()
    else do
      let machine ← lockedMachine machines source.task.machineId
      let _ ← checked (validateMachineBatch machine (remainingOrders source order))

/-- Gives the order its new place: the target task, a new task on the target machine, or the orders
that wait to be planned. -/
def placeOrder (call : Call) (move : OrderMove) (target : Option LoadedTask) :
    Txn Failure Board Unit :=
  match target, move.targetMachineId with
  | some target, _ =>
    modify (Board.assignOrders call [move.orderId] .producing (some target.task.id))
  | none, some machineId => do
    let board ← get
    let position := Board.nextPosition (board.activeTasks machineId)
    let taskId ← Board.addTask call machineId position none
    modify (Board.assignOrders call [move.orderId] .producing (some taskId))
  | none, none => modify (Board.assignOrders call [move.orderId] .pending none)

/-- Removes the source when the moved order was its only one. -/
def removeSource (call : Call) (source : Option LoadedTask) (board : Board) : Board :=
  match source with
  | none => board
  | some source =>
    if source.orders.length = 1 then board.deleteTask call source else board

/-- Renumbers the queue of the source's machine, and that of the target machine when it is named
and another one. -/
def normalizeQueues (call : Call) (move : OrderMove) (source : Option LoadedTask) (board : Board) :
    Board :=
  let sourceMachineId := source.map (·.task.machineId)
  let targetMachineId := move.targetMachineId.filter (fun id ↦ some id ≠ sourceMachineId)
  (sourceMachineId.toList ++ targetMachineId.toList).foldl
    (fun board machineId ↦ board.normalizeQueue call machineId) board

/-- `move_order`. -/
def moveOrder (call : Call) (move : OrderMove) : Txn Failure Board Unit := do
  require ((truthy move.targetTaskId).isNone ∨ (truthy move.targetMachineId).isNone)
    (.http 400 "订单只能移动到已有任务或新机器任务中的一种")
  if (truthy move.sourceTaskId).isSome ∧ move.sourceTaskId = move.targetTaskId then return ()
  else
    let board ← get
    require (∀ id ∈ move.taskIds, id ∈ board.tasks.keys) (.http 404 "生产任务不存在")
    let machines ← lockMachines board (move.machineIds board)
    let order ← orRaise (board.orders.find? move.orderId) (.http 404 "订单不存在")
    let source ← sourceOf board move order
    let target ← targetOf board move machines order
    requireRemaining machines order source
    placeOrder call move target
    modify (removeSource call source)
    modify (normalizeQueues call move source)

/-! ### Moving tasks -/

/-- `move_task`. -/
def moveTask (call : Call) (taskId targetMachineId : Id) (targetIndex : ℕ) :
    Txn Failure Board Unit := do
  let board ← get
  let initial ← orRaise (board.tasks.find? taskId) (.http 404 "生产任务不存在")
  let machines ← lockMachines board [initial.machineId, targetMachineId]
  let loaded ← lockTask board taskId
  requireWaiting loaded.task
  lockOrders board (loaded.orders.map Order.id)
  let machine ← lockedMachine machines targetMachineId
  let _ ← checked (validateMachineBatch machine loaded.orders)
  let sourceMachineId := loaded.task.machineId
  let sourceQueue := ((board.activeQueue sourceMachineId).map ProductionTask.id).filter (· ≠ taskId)
  if targetMachineId = sourceMachineId then
    modify (Board.renumber call
      (sourceQueue.insertIdx (min targetIndex sourceQueue.length) taskId))
  else
    let targetQueue := (board.activeQueue targetMachineId).map ProductionTask.id
    modify (Board.changeTasks call [taskId]
      (fun task ↦ { task with machineId := targetMachineId }) (fun _ ↦ rfl))
    modify (Board.renumber call sourceQueue)
    modify (Board.renumber call
      (targetQueue.insertIdx (min targetIndex targetQueue.length) taskId))

/-- `reorder_tasks`. -/
def reorderTasks (call : Call) (machineId : Id) (orderedTaskIds : List Id) :
    Txn Failure Board Unit := do
  require orderedTaskIds.Nodup (.http 400 "任务排序中不能包含重复任务")
  let board ← get
  let _ ← lockMachine board machineId
  let current := (board.activeQueue machineId).map ProductionTask.id
  require ((∀ id ∈ orderedTaskIds, id ∈ current) ∧ (∀ id ∈ current, id ∈ orderedTaskIds) ∧
      orderedTaskIds.length = current.length)
    (.http 409 "机器任务队列已发生变化，请刷新后重新排序")
  modify (Board.renumber call orderedTaskIds)

/-! ### What the operations do -/

/-- The waiting orders of a creation request become the orders of a new task. -/
theorem createTask_ok {call : Call} {machineId : Id} {orderIds : List Id} {board board' : Board}
    {taskId : Id} (h : createTask call machineId orderIds board = .ok taskId board') :
    orderIds ≠ [] ∧ orderIds.Nodup ∧ (∀ id ∈ orderIds, id ∈ board.orders.keys) ∧
      (∀ order ∈ orderIds.filterMap board.orders.find?, order.IsPlannable) ∧
      ∃ machine total, board.machines.find? machineId = some machine ∧
        validateMachineBatch machine (orderIds.filterMap board.orders.find?) = .ok total ∧
        ∃ middle, Board.addTask call machineId (Board.nextPosition (board.activeTasks machineId))
            none board = .ok taskId middle ∧
          board' = middle.assignOrders call orderIds .producing (some taskId) := by
  unfold createTask lockMachine lockOrders at h
  simp only [get_bind_eq_ok, require_bind_eq_ok, orRaise_bind_eq_ok, refuse_bind_eq_ok,
    checked_bind_eq_ok] at h
  obtain ⟨⟨-, hne⟩, hnodup, machine, hmachine, hkeys, hfree, total, hvalid, h⟩ := h
  obtain ⟨id, middle, hadd, h⟩ := bind_eq_ok.mp h
  simp only [modify_bind_eq_ok, pure_eq_ok] at h
  obtain ⟨rfl, rfl⟩ := h
  refine ⟨hne, hnodup, hkeys, ?_, machine, total, hmachine, hvalid, middle, hadd, rfl⟩
  intro order horder
  simpa using List.find?_eq_none.mp hfree order horder

/-- What the checks on a starting task establish. -/
theorem requireStartable_eq_ok {board : Board} {machine : Machine} {loaded : LoadedTask}
    {status : TaskStatus} {u : Unit} (h : requireStartable board machine loaded status = .ok u)
    (hstatus : status = .producing) :
    (∃ total, validateMachineBatch machine loaded.orders = .ok total) ∧
      ∀ other ∈ board.tasks.rows, other.machineId = loaded.task.machineId →
        other.status = .producing → other.id = loaded.task.id := by
  unfold requireStartable at h
  rw [if_pos hstatus] at h
  simp only [except_bind_eq_ok, ensure_eq_ok] at h
  obtain ⟨total, hvalid, hothers⟩ := h
  exact ⟨⟨total, hvalid⟩, hothers⟩

/-- A task update changes nothing, or the status of the task together with that of its orders. -/
theorem updateTask_ok {call : Call} {taskId : Id} {fields : TaskFields} {board board' : Board}
    {u : Unit} (h : updateTask call taskId fields board = .ok u board') :
    board' = board ∨
      ∃ task machine status, board.tasks.find? taskId = some task ∧
        board.machines.find? task.machineId = some machine ∧ status ∈ allowed task.status ∧
        requireStartable board machine (board.loadTask task) status = .ok () ∧
        board' = (board.setOrderStatus call ((board.ordersOf task.id).map Order.id)
          (orderStatusFor status)).changeTasks call [taskId]
            (fun row ↦ { row with position := resumedPosition board task status, status,
                                  updatedAt := call.now }) (fun _ ↦ rfl) := by
  unfold updateTask lockMachine lockTask at h
  simp only [get_bind_eq_ok, require_bind_eq_ok, orRaise_bind_eq_ok] at h
  obtain ⟨-, status, -, task, htask, machine, hmachine, loaded, hloaded, -, h⟩ := h
  rw [htask] at hloaded
  obtain rfl := Option.some.inj hloaded
  by_cases hsame : status = (board.loadTask task).task.status
  · rw [if_pos hsame] at h
    exact Or.inl (pure_eq_ok.mp h).2.symm
  · rw [if_neg hsame] at h
    simp only [require_bind_eq_ok, checked_bind_eq_ok, modify_bind_eq_ok, modify_eq_ok] at h
    obtain ⟨hallowed, _, hstart, rfl⟩ := h
    exact Or.inr ⟨task, machine, status, htask, hmachine, hallowed, hstart, rfl⟩

/-- A deleted task was waiting; its orders go back to the pending ones. -/
theorem deleteTask_ok {call : Call} {taskId : Id} {board board' : Board} {u : Unit}
    (h : deleteTask call taskId board = .ok u board') :
    ∃ task, board.tasks.find? taskId = some task ∧ task.status = .waiting ∧
      board' = ((board.assignOrders call ((board.ordersOf task.id).map Order.id) .pending
        none).deleteTask call (board.loadTask task)).normalizeQueue call task.machineId := by
  unfold deleteTask lockMachine lockTask requireWaiting lockOrders at h
  simp only [get_bind_eq_ok, require_bind_eq_ok, orRaise_bind_eq_ok, modify_bind_eq_ok,
    modify_eq_ok] at h
  obtain ⟨task, htask, machine, -, loaded, hloaded, hwaiting, -, rfl⟩ := h
  rw [htask] at hloaded
  obtain rfl := Option.some.inj hloaded
  exact ⟨task, htask, hwaiting, rfl⟩

/-- Moves of tasks and reorderings only change machines and positions of tasks. -/
theorem reorderTasks_ok {call : Call} {machineId : Id} {orderedTaskIds : List Id}
    {board board' : Board} {u : Unit}
    (h : reorderTasks call machineId orderedTaskIds board = .ok u board') :
    board' = board.renumber call orderedTaskIds := by
  unfold reorderTasks lockMachine at h
  simp only [get_bind_eq_ok, require_bind_eq_ok, orRaise_bind_eq_ok, modify_eq_ok] at h
  obtain ⟨-, machine, -, -, rfl⟩ := h
  rfl

/-- A moved task waits, and its orders are a valid batch on the target machine. The task goes to
its index in the queue of that machine, and the queues of both machines are renumbered. -/
theorem moveTask_ok {call : Call} {taskId targetMachineId : Id} {targetIndex : ℕ}
    {board board' : Board} {u : Unit}
    (h : moveTask call taskId targetMachineId targetIndex board = .ok u board') :
    ∃ task machine total, board.tasks.find? taskId = some task ∧ task.status = .waiting ∧
      machine ∈ board.machines.rows ∧ machine.id = targetMachineId ∧
      validateMachineBatch machine (board.ordersOf task.id) = .ok total ∧
      let sourceQueue := ((board.activeQueue task.machineId).map ProductionTask.id).filter
        (· ≠ taskId)
      let targetQueue := (board.activeQueue targetMachineId).map ProductionTask.id
      board' =
        if targetMachineId = task.machineId then
          board.renumber call (sourceQueue.insertIdx (min targetIndex sourceQueue.length) taskId)
        else
          ((board.changeTasks call [taskId] (fun row ↦ { row with machineId := targetMachineId })
            (fun _ ↦ rfl)).renumber call sourceQueue).renumber call
              (targetQueue.insertIdx (min targetIndex targetQueue.length) taskId) := by
  unfold moveTask lockMachines lockTask requireWaiting lockOrders lockedMachine at h
  simp only [get_bind_eq_ok, require_bind_eq_ok, orRaise_bind_eq_ok, checked_bind_eq_ok,
    bind_assoc, pure_bind] at h
  obtain ⟨task, htask, -, loaded, hloaded, hwaiting, -, machine, hmachine, total, hvalid, h⟩ := h
  rw [htask] at hloaded
  obtain rfl := Option.some.inj hloaded
  have hid : machine.id = targetMachineId := by simpa using List.find?_some hmachine
  have hmem := (List.mem_filter.mp (List.mem_of_find?_eq_some hmachine)).1
  refine ⟨task, machine, total, htask, hwaiting, hmem, hid, hvalid, ?_⟩
  by_cases hsame : targetMachineId = (board.loadTask task).task.machineId
  · rw [if_pos hsame] at h
    exact (modify_eq_ok.mp h).symm.trans (if_pos hsame).symm
  · rw [if_neg hsame] at h
    simp only [modify_bind_eq_ok, modify_eq_ok] at h
    exact h.symm.trans (if_neg hsame).symm

/-- The source of a move is no task, the order being plannable, or the waiting task of the order. -/
theorem sourceOf_eq_ok {board board' : Board} {move : OrderMove} {order : Order}
    {source : Option LoadedTask} :
    sourceOf board move order board = .ok source board' ↔
      board = board' ∧
      ((truthy move.sourceTaskId = none ∧ source = none ∧ order.IsPlannable) ∨
        ∃ task ∈ board.tasks.rows, truthy move.sourceTaskId = some task.id ∧
          source = some (board.loadTask task) ∧ task.status = .waiting ∧
          order.taskId = some task.id) := by
  unfold sourceOf
  cases hsource : truthy move.sourceTaskId with
  | none =>
    simp only [require_bind_eq_ok, pure_eq_ok]
    grind
  | some sourceId =>
    unfold lockTask requireWaiting
    simp only [orRaise_bind_eq_ok, require_bind_eq_ok, pure_eq_ok]
    constructor
    · rintro ⟨loaded, hloaded, hwaiting, htask, rfl, rfl⟩
      obtain ⟨task, hfind, rfl⟩ := Option.map_eq_some_iff.mp hloaded
      obtain ⟨hmem, hid⟩ := (Table.find?_eq_some_iff _).mp hfind
      exact ⟨rfl, Or.inr ⟨task, hmem, by rw [← hid]; rfl, rfl, hwaiting, htask⟩⟩
    · rintro ⟨rfl, ⟨hnone, -⟩ | ⟨task, hmem, hid, rfl, hwaiting, htask⟩⟩
      · cases hnone
      · refine ⟨board.loadTask task, ?_, hwaiting, htask, rfl, rfl⟩
        rw [Option.some.inj hid, board.tasks.find?_of_mem (k := task.id) hmem rfl, Option.map_some]

/-- The machine of the list that can produce the orders. -/
def Accepting (machines : List Machine) (machineId : Id) (orders : List Order) : Prop :=
  ∃ machine, machines.find? (·.id = machineId) = some machine ∧
    ∃ total, validateMachineBatch machine orders = .ok total

/-- The target of a move is a waiting task that can take the order, or no task, a machine named in
its place being able to produce the order. -/
theorem targetOf_eq_ok {board board' : Board} {move : OrderMove} {machines : List Machine}
    {order : Order} {target : Option LoadedTask} :
    targetOf board move machines order board = .ok target board' ↔
      board = board' ∧
      ((truthy move.targetTaskId = none ∧ target = none ∧
          ∀ machineId, move.targetMachineId = some machineId →
            Accepting machines machineId [order]) ∨
        ∃ task ∈ board.tasks.rows, truthy move.targetTaskId = some task.id ∧
          target = some (board.loadTask task) ∧ task.status = .waiting ∧
          Accepting machines task.machineId (board.ordersOf task.id ++ [order])) := by
  unfold targetOf Accepting
  cases htarget : truthy move.targetTaskId with
  | none =>
    cases hmachine : move.targetMachineId with
    | none =>
      simp only [pure_eq_ok]
      grind
    | some machineId =>
      unfold lockedMachine
      simp only [orRaise_bind_eq_ok, checked_bind_eq_ok, pure_eq_ok]
      grind
  | some targetId =>
    unfold lockTask requireWaiting lockedMachine
    simp only [orRaise_bind_eq_ok, require_bind_eq_ok, checked_bind_eq_ok, pure_eq_ok]
    constructor
    · rintro ⟨loaded, hloaded, hwaiting, machine, hmachine, total, hvalid, rfl, rfl⟩
      obtain ⟨task, hfind, rfl⟩ := Option.map_eq_some_iff.mp hloaded
      obtain ⟨hmem, hid⟩ := (Table.find?_eq_some_iff _).mp hfind
      exact ⟨rfl, Or.inr ⟨task, hmem, by rw [← hid]; rfl, rfl, hwaiting, machine, hmachine, total,
        hvalid⟩⟩
    · rintro ⟨rfl, ⟨hnone, -⟩ | ⟨task, hmem, hid, rfl, hwaiting, machine, hmachine, total, hvalid⟩⟩
      · cases hnone
      · refine ⟨board.loadTask task, ?_, hwaiting, machine, hmachine, total, hvalid, rfl, rfl⟩
        rw [Option.some.inj hid, board.tasks.find?_of_mem (k := task.id) hmem rfl, Option.map_some]

/-- The checks on what remains of the source only read. -/
theorem requireRemaining_ok {machines : List Machine} {order : Order} {source : Option LoadedTask}
    {board board' : Board} {u : Unit}
    (h : requireRemaining machines order source board = .ok u board') : board' = board := by
  unfold requireRemaining at h
  cases source with
  | none => exact (pure_eq_ok.mp h).2.symm
  | some source =>
    dsimp only at h
    split_ifs at h
    · exact (pure_eq_ok.mp h).2.symm
    · unfold lockedMachine at h
      simp only [orRaise_bind_eq_ok, checked_bind_eq_ok, pure_eq_ok] at h
      obtain ⟨machine, -, total, -, -, rfl⟩ := h
      rfl

/-- A move that returns does nothing, or passes its checks and places its order, removes a source
that held nothing else, and renumbers the queues. -/
theorem moveOrder_eq_ok {call : Call} {move : OrderMove} {board board' : Board} {u : Unit} :
    moveOrder call move board = .ok u board' ↔
      ((truthy move.targetTaskId).isNone ∨ (truthy move.targetMachineId).isNone) ∧
      if (truthy move.sourceTaskId).isSome ∧ move.sourceTaskId = move.targetTaskId then
        board = board'
      else
        (∀ id ∈ move.taskIds, id ∈ board.tasks.keys) ∧
        (∀ id ∈ move.machineIds board, id ∈ board.machines.keys) ∧
        ∃ order source target middle,
          board.orders.find? move.orderId = some order ∧
          sourceOf board move order board = .ok source board ∧
          targetOf board move (board.machines.rows.filter (·.id ∈ move.machineIds board)) order
            board = .ok target board ∧
          requireRemaining (board.machines.rows.filter (·.id ∈ move.machineIds board)) order source
            board = .ok () board ∧
          placeOrder call move target board = .ok () middle ∧
          normalizeQueues call move source (removeSource call source middle) = board' := by
  unfold moveOrder lockMachines
  rw [require_bind_eq_ok]
  refine and_congr_right fun _ ↦ ?_
  split_ifs with hsame
  · rw [pure_eq_ok]
    exact and_iff_right rfl
  · simp only [get_bind_eq_ok, require_bind_eq_ok, orRaise_bind_eq_ok, bind_assoc, pure_bind]
    refine and_congr_right fun _ ↦ and_congr_right fun _ ↦ exists_congr fun order ↦ ?_
    constructor
    · rintro ⟨horder, h⟩
      obtain ⟨source, s₁, hsource, h₁⟩ := bind_eq_ok.mp h
      have hs₁ := (sourceOf_eq_ok.mp hsource).1
      rw [← hs₁] at hsource h₁
      obtain ⟨target, s₂, htarget, h₂⟩ := bind_eq_ok.mp h₁
      have hs₂ := (targetOf_eq_ok.mp htarget).1
      rw [← hs₂] at htarget h₂
      obtain ⟨u₁, s₃, hremaining, h₃⟩ := bind_eq_ok.mp h₂
      have hs₃ := requireRemaining_ok hremaining
      rw [hs₃] at hremaining h₃
      obtain ⟨u₂, middle, hplace, h₄⟩ := bind_eq_ok.mp h₃
      exact ⟨source, target, middle, horder, hsource, htarget, hremaining, hplace,
        modify_eq_ok.mp (modify_bind_eq_ok.mp h₄)⟩
    · rintro ⟨source, target, middle, horder, hsource, htarget, hremaining, hplace, rfl⟩
      refine ⟨horder, bind_eq_ok.mpr ⟨source, board, hsource, ?_⟩⟩
      refine bind_eq_ok.mpr ⟨target, board, htarget, bind_eq_ok.mpr ⟨(), board, hremaining, ?_⟩⟩
      exact bind_eq_ok.mpr ⟨(), middle, hplace, rfl⟩

end FilmOS.ProductionService
