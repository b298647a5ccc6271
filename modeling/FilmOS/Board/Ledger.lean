import FilmOS.Board.State
import FilmOS.Board.Tasks

/-!
# The ledger of orders and tasks

What the board says about who works on what, without machines, positions and contents: each order
with its status and its task, and each task with its status. `Ledger.Linked` is the agreement that
the production flow is meant to keep: an order outside every task is pending, an order in a task has
the status that the task's status calls for, and no task is empty.

The operations on ledgers are the elementary changes of the board, and each has a law for the two
halves of `Linked`, `Placed` and `Inhabited`. `Board.ledger` forgets the rest of a board, and the
lemmas `ledger_…` say that the writes of the board are these changes.
-/

set_option autoImplicit false
set_option relaxedAutoImplicit false

namespace FilmOS

open Transaction Scheduling ProductionService

/-! ### Ledgers -/

/-- An order with its status and its task. -/
structure Entry where
  orderId : Id
  status : OrderStatus
  taskId : Option Id
deriving DecidableEq

/-- Orders with their tasks, and tasks with their statuses. -/
structure Ledger where
  entries : List Entry
  tasks : List (Id × TaskStatus)
deriving DecidableEq

namespace Ledger

/-- Every order is pending outside the tasks, or has the status that its task calls for. -/
def Placed (ledger : Ledger) : Prop :=
  ∀ entry ∈ ledger.entries, (entry.taskId = none ∧ entry.status = .pending) ∨
    ∃ task ∈ ledger.tasks, entry.taskId = some task.1 ∧ entry.status = orderStatusFor task.2

/-- Every task has an order. -/
def Inhabited (ledger : Ledger) : Prop :=
  ∀ task ∈ ledger.tasks, ∃ entry ∈ ledger.entries, entry.taskId = some task.1

/-- Orders and tasks agree. -/
def Linked (ledger : Ledger) : Prop := ledger.Placed ∧ ledger.Inhabited

/-- Changes the entries of the listed orders. -/
def change (ids : List Id) (f : Entry → Entry) (ledger : Ledger) : Ledger :=
  { ledger with
    entries := ledger.entries.map (fun entry ↦ if entry.orderId ∈ ids then f entry else entry) }

/-- Gives the listed orders a status and a task. -/
def assign (ids : List Id) (status : OrderStatus) (taskId : Option Id) : Ledger → Ledger :=
  change ids (fun entry ↦ { entry with status, taskId })

/-- Gives the listed orders a status. -/
def setStatus (ids : List Id) (status : OrderStatus) : Ledger → Ledger :=
  change ids (fun entry ↦ { entry with status })

/-- Takes the listed orders out of their tasks, leaving their statuses. -/
def detach (ids : List Id) : Ledger → Ledger :=
  change ids (fun entry ↦ { entry with taskId := none })

/-- Adds a waiting task. -/
def openTask (taskId : Id) (ledger : Ledger) : Ledger :=
  { ledger with tasks := ledger.tasks ++ [(taskId, .waiting)] }

/-- Removes a task. -/
def dropTask (taskId : Id) (ledger : Ledger) : Ledger :=
  { ledger with tasks := ledger.tasks.filter (fun task ↦ task.1 ≠ taskId) }

/-- Gives a task a status. -/
def setTask (taskId : Id) (status : TaskStatus) (ledger : Ledger) : Ledger :=
  { ledger with
    tasks := ledger.tasks.map (fun task ↦ if task.1 = taskId then (task.1, status) else task) }

/-- Adds a pending order. -/
def addOrder (orderId : Id) (ledger : Ledger) : Ledger :=
  { ledger with entries := ledger.entries ++ [⟨orderId, .pending, none⟩] }

/-- Removes an order. -/
def removeOrder (orderId : Id) (ledger : Ledger) : Ledger :=
  { ledger with entries := ledger.entries.filter (fun entry ↦ entry.orderId ≠ orderId) }

variable {ledger : Ledger}

theorem mem_change {ids : List Id} {f : Entry → Entry} {entry : Entry} :
    entry ∈ (ledger.change ids f).entries ↔
      ∃ old ∈ ledger.entries, (if old.orderId ∈ ids then f old else old) = entry := by
  simp [change]

/-- A change without effect on the listed orders has no effect. -/
theorem change_eq_self {ids : List Id} {f : Entry → Entry}
    (h : ∀ entry ∈ ledger.entries, entry.orderId ∈ ids → f entry = entry) :
    ledger.change ids f = ledger := by
  unfold change
  rw [List.map_congr_left (g := id)]
  · rw [List.map_id]
  · intro entry hentry
    split_ifs with hmem
    · exact h entry hentry hmem
    · rfl

/-! ### Laws of placement -/

/-- Orders sent to an existing task with its status are placed. -/
theorem Placed.assign_task (h : ledger.Placed) {ids : List Id} {task : Id × TaskStatus}
    (htask : task ∈ ledger.tasks) :
    (ledger.assign ids (orderStatusFor task.2) (some task.1)).Placed := by
  intro entry hentry
  obtain ⟨old, hold, rfl⟩ := mem_change.mp hentry
  split_ifs
  · exact Or.inr ⟨task, htask, rfl, rfl⟩
  · exact h old hold

/-- Orders sent back to the pending ones are placed. -/
theorem Placed.assign_pending (h : ledger.Placed) (ids : List Id) :
    (ledger.assign ids .pending none).Placed := by
  intro entry hentry
  obtain ⟨old, hold, rfl⟩ := mem_change.mp hentry
  split_ifs
  · exact Or.inl ⟨rfl, rfl⟩
  · exact h old hold

theorem Placed.openTask (h : ledger.Placed) (taskId : Id) : (ledger.openTask taskId).Placed := by
  intro entry hentry
  rcases h entry hentry with hpending | ⟨task, htask, hlink⟩
  · exact Or.inl hpending
  · exact Or.inr ⟨task, List.mem_append_left _ htask, hlink⟩

/-- A task without orders can be removed. -/
theorem Placed.dropTask (h : ledger.Placed) {taskId : Id}
    (hempty : ∀ entry ∈ ledger.entries, entry.taskId ≠ some taskId) :
    (ledger.dropTask taskId).Placed := by
  intro entry hentry
  rcases h entry hentry with hpending | ⟨task, htask, hid, hstatus⟩
  · exact Or.inl hpending
  · refine Or.inr ⟨task, List.mem_filter.mpr ⟨htask, ?_⟩, hid, hstatus⟩
    rw [decide_eq_true_eq]
    rintro rfl
    exact hempty entry hentry hid

/-- A change of a task's status places its orders when exactly they change with it. -/
theorem Placed.setTask (h : ledger.Placed) {taskId : Id} {ids : List Id}
    (hids : ∀ entry ∈ ledger.entries, entry.orderId ∈ ids ↔ entry.taskId = some taskId)
    {status : TaskStatus} :
    ((ledger.setStatus ids (orderStatusFor status)).setTask taskId status).Placed := by
  intro entry hentry
  obtain ⟨old, hold, rfl⟩ := mem_change.mp hentry
  rcases h old hold with ⟨hnone, hpending⟩ | ⟨task, htask, hid, hstatus⟩
  · have hnot : old.orderId ∉ ids := fun hmem ↦ by
      rw [(hids old hold).mp hmem] at hnone
      cases hnone
    rw [if_neg hnot]
    exact Or.inl ⟨hnone, hpending⟩
  · refine Or.inr ⟨if task.1 = taskId then (task.1, status) else task,
      List.mem_map_of_mem htask, ?_⟩
    by_cases htaskId : task.1 = taskId
    · have hmem : old.orderId ∈ ids := (hids old hold).mpr (htaskId ▸ hid)
      rw [if_pos htaskId, if_pos hmem]
      exact ⟨hid, rfl⟩
    · have hnot : old.orderId ∉ ids := fun hmem ↦ by
        exact htaskId (Option.some.inj (hid.symm.trans ((hids old hold).mp hmem)))
      rw [if_neg htaskId, if_neg hnot]
      exact ⟨hid, hstatus⟩

theorem Placed.addOrder (h : ledger.Placed) (orderId : Id) : (ledger.addOrder orderId).Placed := by
  intro entry hentry
  rcases List.mem_append.mp hentry with hentry | hentry
  · exact h entry hentry
  · obtain rfl := List.mem_singleton.mp hentry
    exact Or.inl ⟨rfl, rfl⟩

theorem Placed.removeOrder (h : ledger.Placed) (orderId : Id) :
    (ledger.removeOrder orderId).Placed :=
  fun entry hentry ↦ h entry (List.mem_filter.mp hentry).1

/-! ### Laws of inhabitation -/

/-- Tasks stay inhabited by the orders that a change leaves alone. -/
theorem Inhabited.change {ids : List Id} {f : Entry → Entry}
    (h : ∀ task ∈ ledger.tasks, ∃ entry ∈ ledger.entries,
      (if entry.orderId ∈ ids then f entry else entry).taskId = some task.1) :
    (ledger.change ids f).Inhabited := by
  intro task htask
  obtain ⟨entry, hentry, hid⟩ := h task htask
  exact ⟨_, mem_change.mpr ⟨entry, hentry, rfl⟩, hid⟩

/-- A change of statuses alone keeps every task inhabited. -/
theorem Inhabited.setStatus (h : ledger.Inhabited) (ids : List Id) (status : OrderStatus) :
    (ledger.setStatus ids status).Inhabited := by
  refine Inhabited.change fun task htask ↦ ?_
  obtain ⟨entry, hentry, hid⟩ := h task htask
  exact ⟨entry, hentry, by split_ifs <;> exact hid⟩

theorem Inhabited.setTask (h : ledger.Inhabited) (taskId : Id) (status : TaskStatus) :
    (ledger.setTask taskId status).Inhabited := by
  intro task htask
  obtain ⟨old, hold, rfl⟩ := List.mem_map.mp htask
  obtain ⟨entry, hentry, hid⟩ := h old hold
  refine ⟨entry, hentry, ?_⟩
  split_ifs <;> exact hid

theorem Inhabited.addOrder (h : ledger.Inhabited) (orderId : Id) :
    (ledger.addOrder orderId).Inhabited := by
  intro task htask
  obtain ⟨entry, hentry, hid⟩ := h task htask
  exact ⟨entry, List.mem_append_left _ hentry, hid⟩

/-- An order outside the tasks can be removed. -/
theorem Inhabited.removeOrder (h : ledger.Inhabited) {orderId : Id}
    (hnone : ∀ entry ∈ ledger.entries, entry.orderId = orderId → entry.taskId = none) :
    (ledger.removeOrder orderId).Inhabited := by
  intro task htask
  obtain ⟨entry, hentry, hid⟩ := h task htask
  refine ⟨entry, List.mem_filter.mpr ⟨hentry, ?_⟩, hid⟩
  rw [decide_eq_true_eq]
  intro heq
  rw [hnone entry hentry heq] at hid
  cases hid

/-! ### Whole moves -/

/-- Taking the listed orders away leaves every task an order. -/
def Spares (ids : List Id) (ledger : Ledger) : Prop :=
  ∀ task ∈ ledger.tasks, ∃ entry ∈ ledger.entries,
    entry.orderId ∉ ids ∧ entry.taskId = some task.1

/-- No task loses an order when orders outside the tasks are taken. -/
theorem Inhabited.spares (h : ledger.Inhabited) {ids : List Id}
    (hids : ∀ entry ∈ ledger.entries, entry.orderId ∈ ids → entry.taskId = none) :
    ledger.Spares ids := by
  intro task htask
  obtain ⟨entry, hentry, hid⟩ := h task htask
  refine ⟨entry, hentry, fun hmem ↦ ?_, hid⟩
  rw [hids entry hentry hmem] at hid
  cases hid

theorem Spares.inhabited_change {ids : List Id} (h : ledger.Spares ids) (f : Entry → Entry) :
    (ledger.change ids f).Inhabited := by
  refine Inhabited.change fun task htask ↦ ?_
  obtain ⟨entry, hentry, hnot, hid⟩ := h task htask
  exact ⟨entry, hentry, by rw [if_neg hnot]; exact hid⟩

/-- Orders that no task needs can form a new task. -/
theorem Linked.openTask (h : ledger.Linked) {ids : List Id} {taskId : Id}
    (hspares : ledger.Spares ids) (hne : ∃ entry ∈ ledger.entries, entry.orderId ∈ ids) :
    ((ledger.openTask taskId).assign ids .producing (some taskId)).Linked := by
  have hplaced := h.1.openTask taskId
  have hmem : (taskId, TaskStatus.waiting) ∈ (ledger.openTask taskId).tasks :=
    List.mem_append_right _ List.mem_cons_self
  refine ⟨hplaced.assign_task hmem, Inhabited.change fun task htask ↦ ?_⟩
  rcases List.mem_append.mp htask with htask | htask
  · obtain ⟨entry, hentry, hnot, hid⟩ := hspares task htask
    exact ⟨entry, hentry, by rw [if_neg hnot]; exact hid⟩
  · obtain rfl := List.mem_singleton.mp htask
    obtain ⟨entry, hentry, hin⟩ := hne
    exact ⟨entry, hentry, by rw [if_pos hin]⟩

/-- Orders that no task needs can join a task. -/
theorem Linked.assign_task (h : ledger.Linked) {ids : List Id} (hspares : ledger.Spares ids)
    {task : Id × TaskStatus} (htask : task ∈ ledger.tasks) :
    (ledger.assign ids (orderStatusFor task.2) (some task.1)).Linked :=
  ⟨h.1.assign_task htask, hspares.inhabited_change _⟩

/-- Orders that no task needs can go back to the pending ones. -/
theorem Linked.assign_pending (h : ledger.Linked) {ids : List Id} (hspares : ledger.Spares ids) :
    (ledger.assign ids .pending none).Linked :=
  ⟨h.1.assign_pending ids, hspares.inhabited_change _⟩

/-- A task whose orders go back to the pending ones can be removed. -/
theorem Linked.dissolve (h : ledger.Linked) {taskId : Id} {ids : List Id}
    (hids : ∀ entry ∈ ledger.entries, entry.orderId ∈ ids ↔ entry.taskId = some taskId) :
    (((ledger.assign ids .pending none).detach ids).dropTask taskId).Linked := by
  have hdetach : (ledger.assign ids .pending none).detach ids =
      ledger.assign ids .pending none := by
    unfold detach assign change
    rw [Ledger.mk.injEq]
    refine ⟨?_, rfl⟩
    rw [List.map_map]
    refine List.map_congr_left fun entry _ ↦ ?_
    by_cases hmem : entry.orderId ∈ ids <;> simp [hmem]
  rw [hdetach]
  refine ⟨(h.1.assign_pending ids).dropTask ?_, ?_⟩
  · intro entry hentry hid
    obtain ⟨old, hold, rfl⟩ := mem_change.mp hentry
    by_cases hmem : old.orderId ∈ ids
    · rw [if_pos hmem] at hid
      cases hid
    · rw [if_neg hmem] at hid
      exact hmem ((hids old hold).mpr hid)
  · intro task htask
    obtain ⟨htask, hne⟩ := List.mem_filter.mp htask
    rw [decide_eq_true_eq] at hne
    obtain ⟨entry, hentry, hid⟩ := h.2 task htask
    have hnot : entry.orderId ∉ ids := fun hmem ↦
      hne (Option.some.inj (hid.symm.trans ((hids entry hentry).mp hmem)))
    exact ⟨entry, mem_change.mpr ⟨entry, hentry, if_neg hnot⟩, hid⟩

/-- An order that lost its task without becoming pending is not placed. -/
theorem not_placed_of_detached {e : Entry} (hentry : e ∈ ledger.entries)
    (hnone : e.taskId = none) (hstatus : e.status ≠ .pending) : ¬ ledger.Placed := by
  intro h
  rcases h e hentry with ⟨-, hpending⟩ | ⟨task, -, hid, -⟩
  · exact hstatus hpending
  · rw [hnone] at hid
    cases hid

/-- A task changes its status together with its orders. -/
theorem Linked.setTask (h : ledger.Linked) {taskId : Id} {ids : List Id}
    (hids : ∀ entry ∈ ledger.entries, entry.orderId ∈ ids ↔ entry.taskId = some taskId)
    {status : TaskStatus} :
    ((ledger.setStatus ids (orderStatusFor status)).setTask taskId status).Linked :=
  ⟨h.1.setTask hids, (h.2.setStatus ids _).setTask taskId status⟩

end Ledger

/-! ### The ledger of a board -/

/-- The entry of an order. -/
def Order.entry (order : Order) : Entry := ⟨order.id, order.status, order.taskId⟩

@[simp] theorem Order.orderId_entry (order : Order) : order.entry.orderId = order.id := rfl

@[simp] theorem Order.status_entry (order : Order) : order.entry.status = order.status := rfl

@[simp] theorem Order.taskId_entry (order : Order) : order.entry.taskId = order.taskId := rfl

namespace Board

/-- What a board says about who works on what. -/
def ledger (board : Board) : Ledger where
  entries := board.orders.rows.map Order.entry
  tasks := board.tasks.rows.map (fun task ↦ (task.id, task.status))

theorem mem_ledger_entries {board : Board} {entry : Entry} :
    entry ∈ board.ledger.entries ↔ ∃ order ∈ board.orders.rows, order.entry = entry := by
  simp [ledger]

theorem mem_ledger_tasks {board : Board} {task : Id × TaskStatus} :
    task ∈ board.ledger.tasks ↔ ∃ row ∈ board.tasks.rows, (row.id, row.status) = task := by
  simp [ledger]

/-- Changing orders changes their entries, whatever happens to their update times. -/
theorem ledger_changeOrders (call : Call) (ids : List Id) {change : Order → Order}
    (hid : ∀ order, (change order).id = order.id) {f : Entry → Entry}
    (hf : ∀ order, (change order).entry = f order.entry) (board : Board) :
    (board.changeOrders call ids change hid).ledger = board.ledger.change ids f := by
  unfold changeOrders ledger Ledger.change
  rw [Ledger.mk.injEq]
  refine ⟨?_, rfl⟩
  rw [Table.rows_mapRows, List.map_map, List.map_map]
  refine List.map_congr_left fun order _ ↦ ?_
  have hstamped : (stamped (fun o : Order ↦ { o with updatedAt := call.now }) change order).entry =
      f order.entry := by
    unfold stamped
    split_ifs with hsame
    · rw [← hf, hsame]
    · exact hf order
  change (if order.id ∈ ids then _ else order).entry = if order.entry.orderId ∈ ids then _ else _
  by_cases hmem : order.id ∈ ids
  · rw [if_pos hmem, hstamped]
    exact (if_pos hmem).symm
  · rw [if_neg hmem]
    exact (if_neg hmem).symm

@[simp] theorem ledger_assignOrders (call : Call) (ids : List Id) (status : OrderStatus)
    (taskId : Option Id) (board : Board) :
    (board.assignOrders call ids status taskId).ledger = board.ledger.assign ids status taskId :=
  ledger_changeOrders call ids _ (fun _ ↦ rfl) board

@[simp] theorem ledger_setOrderStatus (call : Call) (ids : List Id) (status : OrderStatus)
    (board : Board) :
    (board.setOrderStatus call ids status).ledger = board.ledger.setStatus ids status :=
  ledger_changeOrders call ids _ (fun _ ↦ rfl) board

@[simp] theorem ledger_deleteTask (call : Call) (loaded : LoadedTask) (board : Board) :
    (board.deleteTask call loaded).ledger =
      (board.ledger.detach (loaded.orders.map Order.id)).dropTask loaded.task.id := by
  have hdetach : (board.changeOrders call (loaded.orders.map Order.id)
      (fun order ↦ { order with taskId := none }) (fun _ ↦ rfl)).ledger =
      board.ledger.change (loaded.orders.map Order.id)
        (fun entry ↦ { entry with taskId := none }) :=
    ledger_changeOrders call _ _ (fun _ ↦ rfl) board
  unfold Ledger.detach
  rw [← hdetach]
  unfold deleteTask Ledger.dropTask ledger
  rw [Ledger.mk.injEq]
  refine ⟨rfl, ?_⟩
  rw [List.filter_map]
  rfl

/-- Changing tasks without their statuses leaves the ledger alone. -/
theorem ledger_changeTasks (call : Call) (ids : List Id) {change : ProductionTask → ProductionTask}
    (hid : ∀ task, (change task).id = task.id)
    (hstatus : ∀ task, (change task).status = task.status)
    (board : Board) : (board.changeTasks call ids change hid).ledger = board.ledger := by
  unfold changeTasks ledger
  rw [Ledger.mk.injEq]
  refine ⟨rfl, ?_⟩
  rw [Table.rows_mapRows, List.map_map]
  refine List.map_congr_left fun task _ ↦ ?_
  unfold stamped
  dsimp only [Function.comp_apply]
  split_ifs
  · rfl
  · rw [hid, hstatus]
  · rfl

/-- Giving a task a status changes the ledger so. -/
theorem ledger_changeTasks_status (call : Call) (taskId : Id) (status : TaskStatus)
    {change : ProductionTask → ProductionTask} (hid : ∀ task, (change task).id = task.id)
    (hstatus : ∀ task, (change task).status = status) (board : Board) :
    (board.changeTasks call [taskId] change hid).ledger = board.ledger.setTask taskId status := by
  unfold changeTasks ledger Ledger.setTask
  rw [Ledger.mk.injEq]
  refine ⟨rfl, ?_⟩
  rw [Table.rows_mapRows, List.map_map, List.map_map]
  refine List.map_congr_left fun task _ ↦ ?_
  unfold stamped
  dsimp only [Function.comp_apply]
  simp only [List.mem_singleton]
  split_ifs with htask hsame
  · rw [← hstatus task, hsame]
  · rw [hid, hstatus]
  · rfl

@[simp] theorem ledger_renumber (call : Call) (ids : List Id) (board : Board) :
    (board.renumber call ids).ledger = board.ledger := by
  refine ledger_changeTasks call ids (fun _ ↦ ?_) (fun _ ↦ ?_) board
  · rfl
  · rfl

@[simp] theorem ledger_normalizeQueue (call : Call) (machineId : Id) (board : Board) :
    (board.normalizeQueue call machineId).ledger = board.ledger :=
  ledger_renumber call _ board

theorem ledger_addTask {call : Call} {machineId : Id} {position : ℤ} {notes : Option String}
    {board board' : Board} {id : Id} (h : addTask call machineId position notes board =
    .ok id board') : board'.ledger = board.ledger.openTask id := by
  obtain ⟨id', board'', hadd, -, tasks, hrows, rfl⟩ :=
    exists_addTask call machineId position notes board
  rw [h] at hadd
  cases hadd
  unfold ledger Ledger.openTask
  rw [Ledger.mk.injEq]
  refine ⟨rfl, ?_⟩
  rw [hrows, List.map_append, List.map_singleton]

end Board

end FilmOS
