import FilmOS.Scheduling.PlannerLaws
import FilmOS.Scheduling.Apply

/-!
# Plans are accepted

What the laws of the planner mean for its callers. `buildTasks_accounts`: the planner returns, loses
no order, duplicates none, and leaves out only orders that no machine can produce alone.
`buildTasks_accepted`: the validator of the manual board accepts each task with the width the task
states, and the validation that the application of a plan makes accepts every task of a draft that
was just created.
-/

set_option autoImplicit false
set_option relaxedAutoImplicit false

namespace FilmOS.Scheduling

open Production Transaction

/-! ### The planner accounts for every order -/

/-- The planner returns; its tasks and its unassigned rows hold each order exactly once; and no
machine accepts an unassigned order alone. -/
theorem buildTasks_accounts (orders : List Order) (machines : List LoadedMachine)
    (hnodup : (orders.map Order.id).Nodup) :
    ∃ proposal, buildTasks orders machines = .ok proposal ∧
      (proposal.tasks.flatMap ProposedTask.orderIds ++
        proposal.unassigned.map UnassignedOrder.orderId).Perm (orders.map Order.id) ∧
      ∀ row ∈ proposal.unassigned, ∀ order ∈ orders, order.id = row.orderId →
        ∀ machine ∈ machines, ∃ failure,
          validateMachineBatch machine.machine [order] = .error failure := by
  obtain ⟨proposal, hproposal, hplanned⟩ := buildTasks_planned orders machines hnodup
  refine ⟨proposal, hproposal, hplanned.perm, ?_⟩
  intro row hrow order horder hid machine hmachine
  obtain ⟨stranded, hmem, hstrandedId, hnone⟩ := hplanned.stranded row hrow
  obtain rfl := List.inj_on_of_nodup_map hnodup hmem horder (hstrandedId.trans hid.symm)
  cases hvalid : validateMachineBatch machine.machine [stranded] with
  | error failure => exact ⟨failure, rfl⟩
  | ok total =>
    refine absurd ((validateMachineBatch_eq_ok_iff _ _ _).mp hvalid) ?_
    exact hnone machine.machine (List.mem_map_of_mem hmachine) total

/-- A film of half a metre, which may share a task with its like. -/
def sampleOrder (id : Id) : Order where
  id := id
  orderNo := id
  customerId := "customer"
  product := ⟨"product", "product", ⟨"film", "film"⟩⟩
  specParams := Dict.ofList [("宽幅", "500mm"), ("厚度", "20μm")]
  quantity := 10
  unit := "m"
  formulaId := some "formula"
  formulaSnapshot := none
  extraNotes := none
  status := .pending
  taskId := none
  createdAt := 0
  updatedAt := 0

/-- A machine for films of any width up to a metre. -/
def sampleMachine (id : Id) : Machine := ⟨id, id, true, 0, 1000, ["film"], []⟩

/-- Two orders on an idle machine. -/
theorem buildTasks_accounts_sample :
    ([sampleOrder "a", sampleOrder "b"].map Order.id).Nodup ∧
    ∃ proposal, buildTasks [sampleOrder "a", sampleOrder "b"] [⟨sampleMachine "m", []⟩] =
        .ok proposal ∧
      (proposal.tasks.flatMap ProposedTask.orderIds ++
        proposal.unassigned.map UnassignedOrder.orderId).Perm
          ([sampleOrder "a", sampleOrder "b"].map Order.id) ∧
      ∀ row ∈ proposal.unassigned, ∀ order ∈ [sampleOrder "a", sampleOrder "b"],
        order.id = row.orderId →
        ∀ machine ∈ [(⟨sampleMachine "m", []⟩ : LoadedMachine)], ∃ failure,
          validateMachineBatch machine.machine [order] = .error failure :=
  ⟨by decide, buildTasks_accounts [sampleOrder "a", sampleOrder "b"] [⟨sampleMachine "m", []⟩]
    (by decide)⟩

/-! ### The validators accept what was planned -/

/-- The orders a plan is asked for are distinct orders of the board. -/
theorem plannedOrders_ok {board : Board} {orderIds : Option (List Id)} {orders : List Order}
    (h : plannedOrders board orderIds = .ok orders) :
    (orders.map Order.id).Nodup ∧ ∀ order ∈ orders, order ∈ board.orders.rows := by
  have hloaded : (board.loadOrders.map Order.id).Nodup := by
    refine ((orderBy_perm _ _).map Order.id).nodup_iff.mpr ?_
    exact board.orders.nodup.sublist (List.filter_sublist.map _)
  have hrows : ∀ order ∈ board.loadOrders, order ∈ board.orders.rows := by
    intro order horder
    exact (List.mem_filter.mp ((mem_orderBy _ _ _).mp horder)).1
  unfold plannedOrders at h
  cases orderIds with
  | none =>
    obtain rfl := Except.ok.inj h
    exact ⟨hloaded, hrows⟩
  | some ids =>
    simp only [except_bind_eq_ok, except_pure_eq_ok] at h
    obtain ⟨-, -, rfl⟩ := h
    exact ⟨hloaded.sublist (List.filter_sublist.map _),
      fun order horder ↦ hrows order (List.mem_filter.mp horder).1⟩

/-- Orders with distinct identifiers are found by their identifiers. -/
theorem map_find?_ids {orders batch : List Order} (hnodup : (orders.map Order.id).Nodup)
    (hbatch : ∀ order ∈ batch, order ∈ orders) :
    (batch.map Order.id).map (fun id ↦ orders.find? (·.id = id)) = batch.map some := by
  rw [List.map_map]
  refine List.map_congr_left fun order horder ↦ ?_
  exact Table.find?_of_mem ⟨orders, hnodup⟩ (k := order.id) (hbatch order horder) rfl

/-- A task whose machine and orders are on the board is validated, when the machine can produce
them. -/
theorem validated_of_producible {board : Board} {plan : SchedulePlan} {task : ProposedTask}
    {machine : Machine} {batch : List Order} {total : ℚ} (hmachine : machine ∈ board.machines.rows)
    (hbatch : ∀ order ∈ batch, order ∈ inputOrders board plan)
    (hmachineId : task.machineId = machine.id) (horderIds : task.orderIds = batch.map Order.id)
    (hproducible : Producible machine batch total) :
    validated board plan task = .ok ⟨task, machine, batch⟩ := by
  have hfind : board.machines.find? task.machineId = some machine :=
    board.machines.find?_of_mem (k := task.machineId) hmachine hmachineId.symm
  have hnodup : ((inputOrders board plan).map Order.id).Nodup :=
    board.orders.nodup.sublist (List.filter_sublist.map _)
  have hne : task.orderIds ≠ [] := by
    rw [horderIds]
    simpa using hproducible.nonempty
  have hfound : task.orderIds.map (fun id ↦ (inputOrders board plan).find? (·.id = id)) =
      batch.map some := by
    rw [horderIds]
    exact map_find?_ids hnodup hbatch
  have hreduce : (batch.map some).reduceOption = batch := by
    simp [List.reduceOption]
  have hvalid : validateTask machine (inputOrders board plan) task = .ok batch := by
    unfold validateTask
    simp only [except_bind_eq_ok, ensure_eq_ok, exists_const, except_pure_eq_ok]
    refine ⟨hproducible.active, hne, ?_, total, ?_, ?_⟩
    · rw [hfound]
      simp
    · rw [hfound, hreduce]
      exact (validateMachineBatch_eq_ok_iff _ _ _).mpr hproducible
    · rw [hfound, hreduce]
  unfold validated
  rw [hfind]
  simp only [except_bind_eq_ok, except_pure_eq_ok]
  exact ⟨batch, hvalid, rfl⟩

/-- The validator of the manual board accepts each task that the planner proposes, with the width
the task states; and on the board that the creation of a draft leaves behind, the validation of
`applySchedulePlan` accepts every task of the draft. -/
theorem buildTasks_accepted :
    (∀ (orders : List Order) (machines : List LoadedMachine), (orders.map Order.id).Nodup →
      ∃ proposal, buildTasks orders machines = .ok proposal ∧
        ∀ task ∈ proposal.tasks, ∃ machine ∈ machines, machine.machine.id = task.machineId ∧
          ∃ batch, (∀ order ∈ batch, order ∈ orders) ∧ batch.map Order.id = task.orderIds ∧
            validateMachineBatch machine.machine batch = .ok task.totalWidth) ∧
    ∀ (call : Call) (sessionId userId : Id) (orderIds : Option (List Id)) (board board' : Board)
      (plan : SchedulePlan),
      createSchedulePlan call sessionId userId orderIds board = .ok plan board' →
        ∃ results, plan.tasks.mapM (validated board' plan) = .ok results := by
  constructor
  · intro orders machines hnodup
    obtain ⟨proposal, hproposal, hplanned⟩ := buildTasks_planned orders machines hnodup
    refine ⟨proposal, hproposal, fun task htask ↦ ?_⟩
    obtain ⟨machine, hmachine, batch, hbatch, hfor⟩ := hplanned.taskFor task htask
    obtain ⟨loaded, hloaded, rfl⟩ := List.mem_map.mp hmachine
    exact ⟨loaded, hloaded, hfor.machineId_eq.symm, batch, hbatch, hfor.orderIds_eq.symm,
      (validateMachineBatch_eq_ok_iff _ _ _).mpr hfor.producible⟩
  · intro call sessionId userId orderIds board board' plan h
    obtain ⟨orders, proposal, plans, issued, horders, hproposal, -, -, -, hinput, htasks, -, -,
      rfl⟩ := createSchedulePlan_ok h
    obtain ⟨hnodup, hrows⟩ := plannedOrders_ok horders
    obtain ⟨other, hother, hplanned⟩ := buildTasks_planned orders board.loadMachines hnodup
    obtain rfl := Except.ok.inj (hproposal.symm.trans hother)
    have hall : ∀ task ∈ plan.tasks, ∃ result,
        validated { board with plans, issued } plan task = .ok result := by
      intro task htask
      rw [htasks] at htask
      obtain ⟨machine, hmachine, batch, hbatch, hfor⟩ := hplanned.taskFor task htask
      refine ⟨_, validated_of_producible ?_ ?_ hfor.machineId_eq hfor.orderIds_eq hfor.producible⟩
      · obtain ⟨loaded, hloaded, rfl⟩ := List.mem_map.mp hmachine
        obtain ⟨row, hrow, rfl⟩ := List.mem_map.mp hloaded
        exact (List.mem_filter.mp ((mem_orderBy _ _ _).mp hrow)).1
      · intro order horder
        refine List.mem_filter.mpr ⟨hrows order (hbatch order horder), ?_⟩
        rw [decide_eq_true_eq, hinput]
        exact List.mem_map_of_mem (hbatch order horder)
    obtain ⟨results, hresults, -⟩ := exists_mapM_eq_ok hall
    exact ⟨results, hresults⟩

/-- The board with one machine and two waiting orders. -/
def sampleBoard : Board where
  customers := Table.empty
  products := Table.empty
  formulas := Table.empty
  machines := Table.empty.put (sampleMachine "m")
  orders := (Table.empty.put (sampleOrder "a")).put (sampleOrder "b")
  tasks := Table.empty
  plans := Table.empty
  orderNumber := 0
  issued := []

/-- A draft for the two orders has one task, on the machine of the board. -/
theorem exists_sampleDraft : ∃ plan created,
    createSchedulePlan ⟨0, "20260101", IdSource.longer⟩ "session" "user" none sampleBoard =
      .ok plan created ∧ plan.tasks.length = 1 ∧
    ∀ task ∈ plan.tasks, task.machineId ∈ created.machines.keys := by
  have hdraft : (match createSchedulePlan ⟨0, "20260101", IdSource.longer⟩ "session" "user" none
      sampleBoard with
    | .ok plan created => decide (plan.tasks.length = 1 ∧
        ∀ task ∈ plan.tasks, task.machineId ∈ created.machines.keys)
    | .error _ _ => false) = true := by
    decide +kernel
  cases h : createSchedulePlan ⟨0, "20260101", IdSource.longer⟩ "session" "user" none
      sampleBoard with
  | error failure created =>
    rw [h] at hdraft
    cases hdraft
  | ok plan created =>
    rw [h] at hdraft
    exact ⟨plan, created, rfl, of_decide_eq_true hdraft⟩

/-- Two orders that share one task, in a proposal and in a draft. -/
theorem buildTasks_accepted_sample :
    (∃ proposal, buildTasks [sampleOrder "a", sampleOrder "b"] [⟨sampleMachine "m", []⟩] =
        .ok proposal ∧
      ∀ task ∈ proposal.tasks, ∃ machine ∈ [(⟨sampleMachine "m", []⟩ : LoadedMachine)],
        machine.machine.id = task.machineId ∧
        ∃ batch, (∀ order ∈ batch, order ∈ [sampleOrder "a", sampleOrder "b"]) ∧
          batch.map Order.id = task.orderIds ∧
          validateMachineBatch machine.machine batch = .ok task.totalWidth) ∧
    ∃ plan created results,
      createSchedulePlan ⟨0, "20260101", IdSource.longer⟩ "session" "user" none sampleBoard =
        .ok plan created ∧ plan.tasks.length = 1 ∧
      plan.tasks.mapM (validated created plan) = .ok results := by
  refine ⟨buildTasks_accepted.1 [sampleOrder "a", sampleOrder "b"] [⟨sampleMachine "m", []⟩]
    (by decide), ?_⟩
  obtain ⟨plan, created, hcreated, hlength, -⟩ := exists_sampleDraft
  obtain ⟨results, hresults⟩ := buildTasks_accepted.2 _ _ _ _ _ _ _ hcreated
  exact ⟨plan, created, results, hcreated, hlength, hresults⟩

end FilmOS.Scheduling
