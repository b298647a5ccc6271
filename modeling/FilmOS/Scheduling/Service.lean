import FilmOS.Board.State

/-!
# The scheduling service

A plan is a draft computed from the pending orders and the active machines, and remembers the
fingerprint of what it was computed from. `PlanIsStale` compares that fingerprint with the current
one. `applySchedulePlan` makes its own checks of the same facts, validates every task again, and
only then writes: one waiting task for each task of the plan, holding its orders.

The body is split where the source stops reading and starts writing: `checkedPlan` makes all checks
and `writePlan` all writes.
-/

set_option autoImplicit false
set_option relaxedAutoImplicit false

namespace FilmOS.Scheduling

open Transaction Production

/-! ### Drafts -/

/-- `plan_is_stale`. -/
def PlanIsStale (board : Board) (plan : SchedulePlan) : Prop :=
  let selected := plan.selected
  let orders :=
    if selected then board.loadOrders.filter (·.id ∈ plan.inputOrderIds) else board.loadOrders
  ¬ Dict.Same plan.fingerprint (withScope selected (inputFingerprint orders board.loadMachines))

instance (board : Board) (plan : SchedulePlan) : Decidable (PlanIsStale board plan) :=
  inferInstanceAs (Decidable (¬ _))

/-- The orders a plan is asked for: all that wait, or the selected ones, which must all wait. -/
def plannedOrders (board : Board) : Option (List Id) → Except Failure (List Order)
  | none => .ok board.loadOrders
  | some ids => do
    ensure (ids ≠ [] ∧ ids.Nodup ∧ ∀ id ∈ ids, id ∈ board.loadOrders.map Order.id)
      (.http 409 "选中的订单已变化，请刷新后重新选择")
    return board.loadOrders.filter (·.id ∈ ids)

/-- `create_schedule_plan`. -/
def createSchedulePlan (call : Call) (sessionId userId : Id) (orderIds : Option (List Id)) :
    Txn Failure Board SchedulePlan := do
  let board ← get
  let orders ← checked (plannedOrders board orderIds)
  let machines := board.loadMachines
  let proposal ← checked (buildTasks orders machines)
  let fingerprint := withScope orderIds.isSome (inputFingerprint orders machines)
  let id ← Board.generateId call
  let plan : SchedulePlan :=
    { id, sessionId, createdById := userId, createdByRunId := none, status := .draft
      inputOrderIds := orders.map Order.id, fingerprint
      tasks := proposal.tasks, unassigned := proposal.unassigned, appliedAt := none
      revision := 1, appliedResult := none, supersededById := none, updatedAt := call.now
      closedAt := none }
  let board ← get
  let plans ← orRaise (board.plans.insert? plan) (.integrityError "schedule_plans_pkey")
  set { board with plans }
  return plan

/-! ### Checks before a plan is applied -/

/-- The active machines, as the application of a plan loads them. -/
def activeMachines (board : Board) : List LoadedMachine :=
  ((orderBy Machine.id board.machines.rows).filter (·.isActive)).map board.loadMachine

/-- The rule version of a plan is the current one. -/
def checkRules (plan : SchedulePlan) : Except Failure Unit :=
  ensure (plan.fingerprint.get? rulesKey = some (.number schedulingRuleVersion))
    (.http 409 "排单规则已更新，请重新生成草稿")

/-- The set of active machines is the one the plan expects. -/
def checkMachineSet (board : Board) (plan : SchedulePlan) : Except Failure Unit :=
  ensure (∀ expected ∈ expected? plan.fingerprint activeMachineSetKey,
      expected = hashIds ((activeMachines board).map (·.machine.id)))
    (.http 409 "排产方案已过期：可用机器集合已发生变化，请重新生成方案")

/-- Every active machine is as the plan expects it. -/
def checkMachines (board : Board) (plan : SchedulePlan) : Except Failure Unit :=
  match (activeMachines board).find? (fun machine : LoadedMachine ↦
    ¬ ∀ expected ∈ expected? plan.fingerprint (machineKey machine.machine.id),
      expected = machineFingerprint machine) with
  | some machine =>
    .error (.http 409 s!"排产方案已过期：机器“{machine.machine.name}”的能力或任务队列已变化")
  | none => .ok ()

/-- The pending set is the one the plan expects. -/
def checkPendingSet (board : Board) (plan : SchedulePlan) : Except Failure Unit :=
  let pending := (board.orders.rows.filter (fun order ↦ order.IsPlannable)).map Order.id
  let current :=
    if plan.selected then pending.filter (· ∈ plan.inputOrderIds) else pending
  ensure (∀ expected ∈ expected? plan.fingerprint pendingSetKey, expected = hashIds current)
    (.http 409 "排产方案已过期：待排订单集合已发生变化，请重新生成方案")

/-- The input orders of a plan that exist, whatever their status. -/
def inputOrders (board : Board) (plan : SchedulePlan) : List Order :=
  board.orders.rows.filter (·.id ∈ plan.inputOrderIds)

/-- The contents of the input orders are those the plan expects. -/
def checkContents (board : Board) (plan : SchedulePlan) : Except Failure Unit :=
  let current := (inputFingerprint (inputOrders board plan) (activeMachines board)).get? contentsKey
  ensure (∀ expected ∈ expected? plan.fingerprint contentsKey, current = some expected)
    (.http 409 "排产方案已过期：订单内容已变化")

/-- Every input order of a plan exists. -/
def checkExistence (board : Board) (plan : SchedulePlan) : Except Failure Unit :=
  ensure (∀ id ∈ plan.inputOrderIds, id ∈ (inputOrders board plan).map Order.id)
    (.http 409 "排产方案已过期：部分订单已不存在")

/-- No input order was changed since the plan was computed. -/
def checkTimes (board : Board) (plan : SchedulePlan) : Except Failure Unit :=
  match (inputOrders board plan).find? (fun order ↦
    plan.fingerprint.get? order.id ≠ some (.time order.updatedAt)) with
  | some order => .error (.http 409 s!"排产方案已过期：订单 {order.orderNo} 已被修改")
  | none => .ok ()

/-! ### Validation of the tasks -/

/-- `_validate_task`: the orders of a task, when it is valid on its machine. -/
def validateTask (machine : Machine) (orders : List Order) (task : ProposedTask) :
    Except Failure (List Order) := do
  ensure machine.isActive (.http 409 s!"排产方案已过期：机器“{machine.name}”已停用")
  ensure (task.orderIds ≠ []) (.http 409 "排产方案中的任务没有订单")
  let found := task.orderIds.map (fun id ↦ orders.find? (·.id = id))
  ensure (none ∉ found) (.http 409 "排产方案引用了不存在的订单")
  let taskOrders := found.reduceOption
  let _ ← validateMachineBatch machine taskOrders
  return taskOrders

/-- A task of a plan together with its machine and its orders. -/
structure ValidatedTask where
  task : ProposedTask
  machine : Machine
  orders : List Order

/-- A task with its machine and orders, validated. -/
def validated (board : Board) (plan : SchedulePlan) (task : ProposedTask) :
    Except Failure ValidatedTask := do
  match board.machines.find? task.machineId with
  | none => .error (.keyError task.machineId)
  | some machine =>
    let orders ← validateTask machine (inputOrders board plan) task
    return ⟨task, machine, orders⟩

/-- The plan that a user may apply and that is not stale. -/
def currentPlan (planId userId : Id) (allowV2 : Bool) : Txn Failure Board SchedulePlan := do
  let board ← get
  let plan ← orRaise
    ((board.plans.find? planId).filter (fun plan ↦
      plan.createdById = userId ∧ (plan.createdByRunId = none ∨ allowV2)))
    (.http 404 "排产方案不存在")
  require (plan.status = .draft) (.http 409 "排产方案已执行，不能重复确认")
  checked (checkRules plan)
  require (plan.tasks ≠ []) (.http 409 "排产方案没有可执行任务")
  require (∀ task ∈ plan.tasks, task.machineId ∈ board.machines.keys)
    (.http 409 "排产方案中的机器已不存在")
  checked (checkMachineSet board plan)
  checked (checkMachines board plan)
  checked (checkPendingSet board plan)
  checked (checkContents board plan)
  checked (checkExistence board plan)
  checked (checkTimes board plan)
  return plan

/-- A plan that passed all checks, with its tasks. -/
structure CheckedPlan where
  plan : SchedulePlan
  tasks : List ValidatedTask

/-- The orders that a checked plan assigns, in the order of its tasks. -/
def CheckedPlan.assigned (checkedPlan : CheckedPlan) : List Order :=
  checkedPlan.tasks.flatMap ValidatedTask.orders

/-- The checks of `apply_schedule_plan`. -/
def checkedPlan (planId userId : Id) (allowV2 : Bool) : Txn Failure Board CheckedPlan := do
  let plan ← currentPlan planId userId allowV2
  let board ← get
  let tasks ← checked (plan.tasks.mapM (validated board plan))
  let assigned := tasks.flatMap ValidatedTask.orders
  require (assigned.map Order.id).Nodup (.http 409 "排产方案中存在重复订单")
  refuse (assigned.find? (fun order ↦ ¬ order.IsPlannable)) fun order ↦
    .http 409 s!"排产方案已过期：订单 {order.orderNo} 已被占用"
  return ⟨plan, tasks⟩

/-! ### Writes -/

/-- The position after the last task that a machine has, done or not. -/
def nextPosition (board : Board) (machineId : Id) : ℤ :=
  Board.nextPosition (board.tasks.rows.filter (·.machineId = machineId))

/-- Creates the tasks of a plan one after another, each taking its orders, and returns their
identifiers. `positions` gives the next position on each machine. -/
def writeTasks (call : Call) (planId : Id) :
    List ValidatedTask → (Id → ℤ) → Txn Failure Board (List Id)
  | [], _ => return []
  | task :: rest, positions => do
    let position := positions task.machine.id
    let taskId ← Board.addTask call task.machine.id position (some s!"智能排产方案 {planId}")
    modify (Board.assignOrders call (task.orders.map Order.id) .producing (some taskId))
    let taskIds ← writeTasks call planId rest
      (Function.update positions task.machine.id (position + 1))
    return taskId :: taskIds

/-- The plan as it is after its application. -/
def markApplied (call : Call) (plan : SchedulePlan) : SchedulePlan :=
  { plan with status := .applied, appliedAt := some call.now }

/-- The writes of `apply_schedule_plan`. -/
def writePlan (call : Call) (checkedPlan : CheckedPlan) : Txn Failure Board AppliedResult := do
  let board ← get
  let planId := checkedPlan.plan.id
  let taskIds ← writeTasks call planId checkedPlan.tasks (nextPosition board)
  modify (fun board ↦ { board with plans := board.plans.update planId (markApplied call) })
  return ⟨planId, taskIds, taskIds.length, checkedPlan.assigned.length⟩

/-- `apply_schedule_plan`. -/
def applySchedulePlan (call : Call) (planId userId : Id) (allowV2 : Bool) :
    Txn Failure Board AppliedResult := do
  let checkedPlan ← checkedPlan planId userId allowV2
  writePlan call checkedPlan

/-! ### What the operations do -/

/-- A plan passes the checks up to staleness exactly when it is an applicable draft on existing
machines and the fingerprint checks pass; the checks only read. -/
theorem currentPlan_eq_ok {planId userId : Id} {allowV2 : Bool} {board board' : Board}
    {plan : SchedulePlan} :
    currentPlan planId userId allowV2 board = .ok plan board' ↔
      board.plans.find? planId = some plan ∧ plan.createdById = userId ∧
      (plan.createdByRunId = none ∨ allowV2) ∧ plan.status = .draft ∧ plan.tasks ≠ [] ∧
      (∀ task ∈ plan.tasks, task.machineId ∈ board.machines.keys) ∧
      checkRules plan = .ok () ∧ checkMachineSet board plan = .ok () ∧
      checkMachines board plan = .ok () ∧ checkPendingSet board plan = .ok () ∧
      checkContents board plan = .ok () ∧ checkExistence board plan = .ok () ∧
      checkTimes board plan = .ok () ∧ board = board' := by
  unfold currentPlan
  simp only [get_bind_eq_ok, require_bind_eq_ok, orRaise_bind_eq_ok, checked_bind_eq_ok,
    pure_eq_ok, Option.filter_eq_some_iff, decide_eq_true_eq]
  constructor
  · rintro ⟨found, ⟨hfind, huser, hallow⟩, hdraft, _, hrules, hne, hmachines, _, hset, _, hmachine,
      _, hpending, _, hcontents, _, hexist, _, htimes, rfl, rfl⟩
    exact ⟨hfind, huser, hallow, hdraft, hne, hmachines, hrules, hset, hmachine, hpending,
      hcontents, hexist, htimes, rfl⟩
  · rintro ⟨hfind, huser, hallow, hdraft, hne, hmachines, hrules, hset, hmachine, hpending,
      hcontents, hexist, htimes, rfl⟩
    exact ⟨plan, ⟨hfind, huser, hallow⟩, hdraft, (), hrules, hne, hmachines, (), hset, (), hmachine,
      (), hpending, (), hcontents, (), hexist, (), htimes, rfl, rfl⟩

/-- What a created draft was computed from: the planner's proposal for some orders of the board on
its active machines. -/
theorem createSchedulePlan_ok {call : Call} {sessionId userId : Id} {orderIds : Option (List Id)}
    {board board' : Board} {plan : SchedulePlan}
    (h : createSchedulePlan call sessionId userId orderIds board = .ok plan board') :
    ∃ orders proposal plans issued,
      plannedOrders board orderIds = .ok orders ∧
      buildTasks orders board.loadMachines = .ok proposal ∧
      plan.status = .draft ∧ plan.createdById = userId ∧ plan.createdByRunId = none ∧
      plan.inputOrderIds = orders.map Order.id ∧ plan.tasks = proposal.tasks ∧
      plan.fingerprint =
        withScope orderIds.isSome (inputFingerprint orders board.loadMachines) ∧
      board.plans.insert? plan = some plans ∧ board' = { board with plans, issued } := by
  unfold createSchedulePlan Board.generateId at h
  simp only [get_bind_eq_ok, set_bind_eq_ok, orRaise_bind_eq_ok, checked_bind_eq_ok, pure_eq_ok,
    bind_assoc, pure_bind] at h
  obtain ⟨orders, horders, proposal, hproposal, plans, hinsert, rfl, rfl⟩ := h
  exact ⟨orders, proposal, plans, _, horders, hproposal, rfl, rfl, rfl, rfl, rfl, rfl, hinsert, rfl⟩

end FilmOS.Scheduling
