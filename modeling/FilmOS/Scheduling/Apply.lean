import FilmOS.Scheduling.Service
import Mathlib.Data.List.ReduceOption

/-!
# Applying a plan is all or nothing

`applySchedulePlan` either raises before its first write, so that even the state inside its
transaction is untouched, or returns. The first half rests on the split of its body:
`readOnly_checkedPlan` says that the checks never write, and `writePlan_ok` that the writes never
raise, since every identifier they draw is fresh. When it returns, `AppliedExactly` describes the
board: one new waiting task for each task of the plan, in plan order behind everything its machine
had, holding exactly the orders of that task, and nothing else changed.
-/

set_option autoImplicit false
set_option relaxedAutoImplicit false

namespace FilmOS.Scheduling

open Transaction Production

/-! ### The checks -/

/-- The checks up to staleness never write. -/
theorem readOnly_currentPlan (planId userId : Id) (allowV2 : Bool) :
    ReadOnly (currentPlan planId userId allowV2) := by
  unfold currentPlan
  refine readOnly_get.bind fun board ↦ (readOnly_orRaise _ _).bind fun plan ↦
    (readOnly_require _ _).bind fun _ ↦ (readOnly_checked _).bind fun _ ↦
    (readOnly_require _ _).bind fun _ ↦ (readOnly_require _ _).bind fun _ ↦
    (readOnly_checked _).bind fun _ ↦ (readOnly_checked _).bind fun _ ↦
    (readOnly_checked _).bind fun _ ↦ (readOnly_checked _).bind fun _ ↦
    (readOnly_checked _).bind fun _ ↦ (readOnly_checked _).bind fun _ ↦ readOnly_pure _

/-- The checks of a plan never write. -/
theorem readOnly_checkedPlan (planId userId : Id) (allowV2 : Bool) :
    ReadOnly (checkedPlan planId userId allowV2) := by
  unfold checkedPlan
  exact (readOnly_currentPlan planId userId allowV2).bind fun plan ↦ readOnly_get.bind fun board ↦
    (readOnly_checked _).bind fun tasks ↦ (readOnly_require _ _).bind fun _ ↦
    (readOnly_refuse _ _).bind fun _ ↦ readOnly_pure _

/-- Orders found one by one for identifiers have these identifiers. -/
theorem map_id_found {orders : List Order} {ids : List Id}
    (h : none ∉ ids.map (fun id ↦ orders.find? (·.id = id))) :
    (ids.map (fun id ↦ orders.find? (·.id = id))).reduceOption.map Order.id = ids := by
  induction ids with
  | nil => rfl
  | cons id ids ih =>
    rw [List.map_cons, List.mem_cons, not_or] at h
    obtain ⟨order, horder⟩ := Option.ne_none_iff_exists'.mp (Ne.symm h.1)
    have hid : order.id = id := by simpa using List.find?_some horder
    rw [List.map_cons, horder, List.reduceOption_cons_of_some, List.map_cons, ih h.2, hid]

/-- The orders of a task that the board has, one for each identifier of the task. -/
theorem validateTask_ok {machine : Machine} {orders taskOrders : List Order} {task : ProposedTask}
    (h : validateTask machine orders task = .ok taskOrders) :
    machine.isActive ∧ task.orderIds ≠ [] ∧ taskOrders.map Order.id = task.orderIds ∧
      (∀ order ∈ taskOrders, order ∈ orders) ∧
      ∃ total, validateMachineBatch machine taskOrders = .ok total := by
  unfold validateTask at h
  simp only [except_bind_eq_ok, ensure_eq_ok, exists_const, except_pure_eq_ok] at h
  obtain ⟨hactive, hne, hfound, total, hvalid, rfl⟩ := h
  refine ⟨hactive, hne, map_id_found hfound, ?_, total, hvalid⟩
  intro order horder
  rw [List.reduceOption_mem_iff, List.mem_map] at horder
  obtain ⟨id, -, hfind⟩ := horder
  exact List.mem_of_find?_eq_some hfind

/-- A validated task of a plan: its machine is that of the board, active, and its orders are the
board's for the identifiers of the task. -/
structure IsValidated (board : Board) (task : ProposedTask) (validated : ValidatedTask) :
    Prop where
  task_eq : validated.task = task
  machine_eq : board.machines.find? task.machineId = some validated.machine
  active : validated.machine.isActive = true
  nonempty : task.orderIds ≠ []
  ids_eq : validated.orders.map Order.id = task.orderIds
  orders_mem : ∀ order ∈ validated.orders, order ∈ board.orders.rows
  valid : ∃ total, validateMachineBatch validated.machine validated.orders = .ok total

theorem validated_ok {board : Board} {plan : SchedulePlan} {task : ProposedTask}
    {result : ValidatedTask} (h : validated board plan task = .ok result) :
    IsValidated board task result := by
  unfold validated at h
  split at h
  · cases h
  · next machine hmachine =>
    simp only [except_bind_eq_ok, except_pure_eq_ok] at h
    obtain ⟨orders, hvalid, rfl⟩ := h
    obtain ⟨hactive, hne, hids, hmem, htotal⟩ := validateTask_ok hvalid
    exact ⟨rfl, hmachine, hactive, hne, hids,
      fun order horder ↦ (List.mem_filter.mp (hmem order horder)).1, htotal⟩

/-- A plan that passes the checks is a draft of the user, and its tasks are validated, hold
pairwise distinct orders, and all of these wait to be planned. -/
theorem checkedPlan_ok {planId userId : Id} {allowV2 : Bool} {board board' : Board}
    {result : CheckedPlan} (h : checkedPlan planId userId allowV2 board = .ok result board') :
    board.plans.find? planId = some result.plan ∧ result.plan.createdById = userId ∧
      result.plan.status = .draft ∧ result.plan.tasks ≠ [] ∧
      List.Forall₂ (IsValidated board) result.plan.tasks result.tasks ∧
      (result.assigned.map Order.id).Nodup ∧ ∀ order ∈ result.assigned, order.IsPlannable := by
  unfold checkedPlan at h
  obtain ⟨plan, same, hcurrent, hrest⟩ := bind_eq_ok.mp h
  obtain ⟨hplan, huser, -, hdraft, hne, -, -, -, -, -, -, -, -, hsame⟩ :=
    currentPlan_eq_ok.mp hcurrent
  rw [← hsame] at hrest
  simp only [get_bind_eq_ok, require_bind_eq_ok, checked_bind_eq_ok, refuse_bind_eq_ok,
    pure_eq_ok] at hrest
  obtain ⟨tasks, htasks, hnodup, hfree, rfl, -⟩ := hrest
  refine ⟨hplan, huser, hdraft, hne, ?_, hnodup, ?_⟩
  · exact (forall₂_of_mapM_eq_ok htasks).imp fun _ _ ↦ validated_ok
  · intro order horder
    simpa using List.find?_eq_none.mp hfree order horder

/-! ### The writes -/

/-- The position after the last task of a machine is behind every task it has. -/
theorem lt_machinePosition (board : Board) {task : ProductionTask}
    (htask : task ∈ board.tasks.rows) : task.position < nextPosition board task.machineId :=
  Board.lt_nextPosition (List.mem_filter.mpr ⟨htask, decide_eq_true rfl⟩)

/-- The orders of validated tasks, by their identifiers, with the identifiers of the new tasks. -/
def placements (tasks : List ValidatedTask) (newTasks : List ProductionTask) :
    List (List Id × Id) :=
  (tasks.map (fun task ↦ task.orders.map Order.id)).zip (newTasks.map ProductionTask.id)

/-- An order after placements: in the task of the first placement that has it. -/
def place (call : Call) (pairs : List (List Id × Id)) (order : Order) : Order :=
  match pairs.find? (fun pair ↦ order.id ∈ pair.1) with
  | some pair =>
    stamped (fun o ↦ { o with updatedAt := call.now })
      (fun o ↦ { o with status := .producing, taskId := some pair.2 }) order
  | none => order

/-- What the creation of tasks for validated tasks does: `newTasks` are appended to the tasks, and
the orders of each validated task go to its new task. -/
structure Written (call : Call) (planId : Id) (positions : Id → ℤ) (tasks : List ValidatedTask)
    (newTasks : List ProductionTask) (board board' : Board) : Prop where
  tasks_eq : board'.tasks.rows = board.tasks.rows ++ newTasks
  orders_eq : board'.orders.rows = board.orders.rows.map (place call (placements tasks newTasks))
  frame : board' =
    { board with tasks := board'.tasks, orders := board'.orders, issued := board'.issued }
  created : List.Forall₂ (fun task new ↦ new.machineId = task.machine.id ∧ new.status = .waiting ∧
    new.notes = some s!"智能排产方案 {planId}") tasks newTasks
  bounded : ∀ new ∈ newTasks, positions new.machineId ≤ new.position
  ordered : newTasks.Pairwise (fun first second ↦
    first.machineId = second.machineId → first.position < second.position)
  fresh : ∀ new ∈ newTasks, ∀ order ∈ board.orders.rows,
    order.id ∉ (tasks.flatMap ValidatedTask.orders).map Order.id → order.taskId ≠ some new.id

/-- Placing the orders of the first task and then those of the others places them all, when no
order belongs to two tasks. -/
theorem place_cons (call : Call) {ids : List Id} {taskId : Id} {pairs : List (List Id × Id)}
    (hdisjoint : ∀ pair ∈ pairs, ∀ id ∈ ids, id ∉ pair.1) (order : Order) :
    place call pairs (if order.id ∈ ids then
        stamped (fun o ↦ { o with updatedAt := call.now })
          (fun o ↦ { o with status := .producing, taskId := some taskId }) order
      else order) = place call ((ids, taskId) :: pairs) order := by
  by_cases hmem : order.id ∈ ids
  · have hid : (stamped (fun o : Order ↦ { o with updatedAt := call.now })
        (fun o ↦ { o with status := .producing, taskId := some taskId }) order).id = order.id := by
      unfold stamped
      split_ifs <;> rfl
    have hnone : pairs.find? (fun pair ↦ order.id ∈ pair.1) = none := by
      rw [List.find?_eq_none]
      intro pair hpair
      simpa using hdisjoint pair hpair order.id hmem
    unfold place
    rw [if_pos hmem, hid, hnone, List.find?_cons_of_pos (by simpa using hmem)]
  · unfold place
    rw [if_neg hmem, List.find?_cons_of_neg (by simpa using hmem)]

/-- Creating the tasks never fails, and does what `Written` says. -/
theorem writeTasks_ok (call : Call) (planId : Id) (tasks : List ValidatedTask) :
    ∀ (positions : Id → ℤ) (board : Board),
      ((tasks.flatMap ValidatedTask.orders).map Order.id).Nodup →
      ∃ newTasks board', writeTasks call planId tasks positions board =
          .ok (newTasks.map ProductionTask.id) board' ∧
        Written call planId positions tasks newTasks board board' := by
  induction tasks with
  | nil =>
    intro positions board _
    refine ⟨[], board, rfl, ?_⟩
    refine ⟨(List.append_nil _).symm, ?_, rfl, List.Forall₂.nil, by simp,
      List.Pairwise.nil, by simp⟩
    exact (List.map_id _).symm
  | cons task rest ih =>
    intro positions board hnodup
    rw [List.flatMap_cons, List.map_append] at hnodup
    obtain ⟨hfirst, hrest, hdisjoint⟩ := List.nodup_append.mp hnodup
    obtain ⟨taskId, middle, hadd, hused, tasks', htasks, hmiddle⟩ :=
      Board.exists_addTask call task.machine.id (positions task.machine.id)
        (some s!"智能排产方案 {planId}") board
    set next := middle.assignOrders call (task.orders.map Order.id) .producing (some taskId)
      with hnext
    obtain ⟨newTasks, board', hwrite, hwritten⟩ := ih
      (Function.update positions task.machine.id (positions task.machine.id + 1)) next hrest
    have hnextTasks : next.tasks.rows = board.tasks.rows ++
        [⟨taskId, task.machine.id, positions task.machine.id, .waiting,
          some s!"智能排产方案 {planId}", call.now⟩] := by
      rw [hnext, hmiddle]
      exact htasks
    have hnextOrders : next.orders.rows = board.orders.rows.map (fun order ↦
        if order.id ∈ task.orders.map Order.id then
          stamped (fun o ↦ { o with updatedAt := call.now })
            (fun o ↦ { o with status := .producing, taskId := some taskId }) order
        else order) := by
      rw [hnext, hmiddle]
      rfl
    set first : ProductionTask := ⟨taskId, task.machine.id, positions task.machine.id, .waiting,
      some s!"智能排产方案 {planId}", call.now⟩
    refine ⟨first :: newTasks, board', ?_, ?_⟩
    · unfold writeTasks
      refine bind_eq_ok.mpr ⟨taskId, middle, hadd, ?_⟩
      rw [modify_bind_eq_ok]
      exact bind_eq_ok.mpr ⟨_, board', hwrite, rfl⟩
    · constructor
      · rw [hwritten.tasks_eq, hnextTasks, List.append_assoc, List.singleton_append]
      · rw [hwritten.orders_eq, hnextOrders, List.map_map]
        refine List.map_congr_left fun order _ ↦ place_cons call ?_ order
        intro pair hpair id hid hin
        obtain ⟨other, hother, hids⟩ := List.mem_map.mp (List.of_mem_zip hpair).1
        refine hdisjoint id hid id ?_ rfl
        rw [← hids] at hin
        obtain ⟨row, hrow, rfl⟩ := List.mem_map.mp hin
        exact List.mem_map_of_mem (List.mem_flatMap.mpr ⟨other, hother, hrow⟩)
      · rw [hwritten.frame, hnext, hmiddle]
        rfl
      · exact List.Forall₂.cons ⟨rfl, rfl, rfl⟩ hwritten.created
      · intro new hnew
        rcases List.mem_cons.mp hnew with rfl | hnew
        · exact le_refl _
        · have hle := hwritten.bounded new hnew
          by_cases hmachine : new.machineId = task.machine.id
          · rw [hmachine, Function.update_self] at hle
            rw [hmachine]
            omega
          · rwa [Function.update_of_ne hmachine] at hle
      · refine List.pairwise_cons.mpr ⟨?_, hwritten.ordered⟩
        intro new hnew hmachine
        have hle := hwritten.bounded new hnew
        rw [← hmachine, Function.update_self] at hle
        exact Int.lt_of_add_one_le hle
      · intro new hnew order horder hnotMem htaskId
        rw [List.flatMap_cons, List.map_append, List.mem_append, not_or] at hnotMem
        rcases List.mem_cons.mp hnew with rfl | hnew
        · exact hused (Board.mem_usedIds_of_taskId horder htaskId)
        · refine hwritten.fresh new hnew order ?_ hnotMem.2 htaskId
          rw [hnextOrders]
          exact List.mem_map.mpr ⟨order, horder, if_neg hnotMem.1⟩

/-! ### Where the orders are afterwards -/

/-- An order of a placement goes to its task, when no order belongs to two placements. -/
theorem place_of_mem (call : Call) {pairs : List (List Id × Id)}
    (hdisjoint : pairs.Pairwise (fun p q ↦ p.1.Disjoint q.1)) {ids : List Id} {taskId : Id}
    (hmem : (ids, taskId) ∈ pairs) {order : Order} (hid : order.id ∈ ids) :
    place call pairs order = stamped (fun o ↦ { o with updatedAt := call.now })
      (fun o ↦ { o with status := .producing, taskId := some taskId }) order := by
  unfold place
  cases hfind : pairs.find? (fun pair ↦ order.id ∈ pair.1) with
  | none =>
    have hnone := List.find?_eq_none.mp hfind _ hmem
    simp [hid] at hnone
  | some pair =>
    have hpair : order.id ∈ pair.1 := by simpa using List.find?_some hfind
    have heq : pair = (ids, taskId) := by
      by_contra hne
      have : Std.Symm fun p q : List Id × Id ↦ p.1.Disjoint q.1 := ⟨fun _ _ h ↦ h.symm⟩
      exact hdisjoint.forall (List.mem_of_find?_eq_some hfind) hmem hne hpair hid
    rw [heq]

/-- An order of no placement stays as it was. -/
theorem place_of_notMem (call : Call) {pairs : List (List Id × Id)} {order : Order}
    (h : ∀ pair ∈ pairs, order.id ∉ pair.1) : place call pairs order = order := by
  unfold place
  rw [List.find?_eq_none.mpr fun pair hpair ↦ by simpa using h pair hpair]

@[simp] theorem id_place (call : Call) (pairs : List (List Id × Id)) (order : Order) :
    (place call pairs order).id = order.id := by
  unfold place stamped
  split
  · split_ifs <;> rfl
  · rfl

/-- An order of another placement does not come to a task in which it was not. -/
theorem taskId_place_ne (call : Call) {pairs : List (List Id × Id)}
    (hnodup : (pairs.map Prod.snd).Nodup) {ids : List Id} {taskId : Id}
    (hmem : (ids, taskId) ∈ pairs) {order : Order} (hid : order.id ∉ ids)
    (hne : order.taskId ≠ some taskId) : (place call pairs order).taskId ≠ some taskId := by
  unfold place
  cases hfind : pairs.find? (fun pair ↦ order.id ∈ pair.1) with
  | none => exact hne
  | some pair =>
    have hpair : order.id ∈ pair.1 := by simpa using List.find?_some hfind
    have hother : pair.2 ≠ taskId := by
      intro heq
      have := List.inj_on_of_nodup_map hnodup (List.mem_of_find?_eq_some hfind) hmem heq
      rw [this] at hpair
      exact hid hpair
    dsimp only
    unfold stamped
    split_ifs with hsame
    · exact hne
    · exact fun heq ↦ hother (Option.some.inj heq)

/-- The placements of validated tasks with distinct orders are disjoint. -/
theorem placements_disjoint {tasks : List ValidatedTask} {newTasks : List ProductionTask}
    (hlength : tasks.length = newTasks.length)
    (hnodup : ((tasks.flatMap ValidatedTask.orders).map Order.id).Nodup) :
    (placements tasks newTasks).Pairwise (fun p q ↦ p.1.Disjoint q.1) := by
  rw [List.map_flatMap, List.nodup_flatMap] at hnodup
  have hfst : (placements tasks newTasks).map Prod.fst =
      tasks.map (fun task ↦ task.orders.map Order.id) :=
    List.map_fst_zip (by simp [hlength])
  have hpairwise : (tasks.map (fun task ↦ task.orders.map Order.id)).Pairwise List.Disjoint :=
    List.pairwise_map.mpr hnodup.2
  rw [← hfst] at hpairwise
  exact List.pairwise_map.mp hpairwise

theorem mem_placements {tasks : List ValidatedTask} {newTasks : List ProductionTask}
    {task : ValidatedTask} {new : ProductionTask} (h : (task, new) ∈ tasks.zip newTasks) :
    (task.orders.map Order.id, new.id) ∈ placements tasks newTasks := by
  unfold placements
  rw [List.zip_map]
  exact List.mem_map_of_mem (f := Prod.map (fun t : ValidatedTask ↦ t.orders.map Order.id)
    ProductionTask.id) h

/-! ### The effect of an application -/

/-- The task `new` was created for the task `task` of a plan, `later` being the orders since. -/
structure CreatedFor (call : Call) (board : Board) (later : Table Order) (task : ProposedTask)
    (new : ProductionTask) : Prop where
  isNew : new.id ∉ board.tasks.keys
  onMachine : new.machineId = task.machineId ∧ new.machineId ∈ board.machines.keys
  waiting : new.status = .waiting
  behind : ∀ old ∈ board.tasks.rows, old.machineId = task.machineId → old.position < new.position
  holds : ∀ order ∈ later.rows, order.taskId = some new.id ↔ order.id ∈ task.orderIds
  takes : ∀ id ∈ task.orderIds, ∃ order, board.orders.find? id = some order ∧ order.IsPlannable ∧
    later.find? id = some
      { order with status := .producing, taskId := some new.id, updatedAt := call.now }

/-- The later board is the earlier one with a plan applied: `newTasks` are the tasks created for
the tasks of the plan, in their order, and nothing else changed. -/
structure AppliedExactly (call : Call) (plan : SchedulePlan) (newTasks : List ProductionTask)
    (board board' : Board) : Prop where
  tasks_eq : board'.tasks.rows = board.tasks.rows ++ newTasks
  created : List.Forall₂ (CreatedFor call board board'.orders) plan.tasks newTasks
  ordered : newTasks.Pairwise (fun first second ↦
    first.machineId = second.machineId → first.position < second.position)
  others : ∀ id, id ∉ plan.tasks.flatMap ProposedTask.orderIds →
    board'.orders.find? id = board.orders.find? id
  applied : board'.plans = board.plans.update plan.id (markApplied call)
  frame : board' = { board with
    tasks := board'.tasks, orders := board'.orders, plans := board'.plans, issued := board'.issued }

/-- The identifiers of the orders of validated tasks are those of the tasks of the plan. -/
theorem assigned_ids {board : Board} {tasks : List ProposedTask} {results : List ValidatedTask}
    (h : List.Forall₂ (IsValidated board) tasks results) :
    (results.flatMap ValidatedTask.orders).map Order.id = tasks.flatMap ProposedTask.orderIds := by
  rw [List.map_flatMap]
  induction h with
  | nil => rfl
  | cons hvalid _ ih => rw [List.flatMap_cons, List.flatMap_cons, hvalid.ids_eq, ih]

/-- The orders of validated tasks are rows of the board. -/
theorem orders_mem_of_validated {board : Board} {tasks : List ProposedTask}
    {results : List ValidatedTask} (h : List.Forall₂ (IsValidated board) tasks results) :
    ∀ owner ∈ results, ∀ order ∈ owner.orders, order ∈ board.orders.rows := by
  induction h with
  | nil => simp
  | cons hvalid _ ih =>
    intro owner howner
    rcases List.mem_cons.mp howner with rfl | howner
    · exact hvalid.orders_mem
    · exact ih owner howner

/-- Validated tasks have orders. -/
theorem nonempty_of_validated {board : Board} {tasks : List ProposedTask}
    {results : List ValidatedTask} (h : List.Forall₂ (IsValidated board) tasks results)
    {owner : ValidatedTask} (howner : owner ∈ results) : ∃ order, order ∈ owner.orders := by
  induction h with
  | nil => cases howner
  | cons hvalid _ ih =>
    rcases List.mem_cons.mp howner with rfl | howner
    · refine List.exists_mem_of_ne_nil _ fun hnil ↦ hvalid.nonempty ?_
      rw [← hvalid.ids_eq, hnil]
      rfl
    · exact ih howner

/-- A relation composed along two lists of the same elements in between. -/
theorem forall₂_trans {α β γ : Type} {R : α → β → Prop} {S : α → γ → Prop} {as : List α}
    {bs : List β} {cs : List γ} (h : List.Forall₂ R as bs)
    (hstep : ∀ a b c, R a b → (b, c) ∈ bs.zip cs → S a c) (hlength : bs.length = cs.length) :
    List.Forall₂ S as cs := by
  induction h generalizing cs with
  | nil =>
    rw [List.length_nil, eq_comm, List.length_eq_zero_iff] at hlength
    rw [hlength]
    exact List.Forall₂.nil
  | cons hab _ ih =>
    cases cs with
    | nil => cases hlength
    | cons c cs =>
      refine List.Forall₂.cons (hstep _ _ c hab List.mem_cons_self) (ih ?_ (by simpa using hlength))
      intro a b c hR hmem
      exact hstep a b c hR (List.mem_cons_of_mem _ hmem)

/-- A row of the later board for an order of the earlier one. -/
theorem find?_placed {call : Call} {pairs : List (List Id × Id)} {board board' : Board}
    (h : board'.orders.rows = board.orders.rows.map (place call pairs)) (id : Id) :
    board'.orders.find? id = (board.orders.find? id).map (place call pairs) := by
  have heq : board'.orders = board.orders.mapRows (place call pairs) (id_place call pairs) :=
    Table.ext h
  rw [heq, Table.find?_mapRows]

/-- A task written for a validated task is created for the task of the plan. -/
theorem createdFor_of_written {call : Call} {planId : Id} {tasks : List ValidatedTask}
    {newTasks : List ProductionTask} {board board' : Board}
    (hwritten : Written call planId (nextPosition board) tasks newTasks board board')
    (hnodup : ((tasks.flatMap ValidatedTask.orders).map Order.id).Nodup)
    (hplannable : ∀ order ∈ tasks.flatMap ValidatedTask.orders, order.IsPlannable)
    (horders : ∀ owner ∈ tasks, ∀ order ∈ owner.orders, order ∈ board.orders.rows)
    {task : ProposedTask} {validated : ValidatedTask} {new : ProductionTask}
    (hvalid : IsValidated board task validated) (hzip : (validated, new) ∈ tasks.zip newTasks) :
    CreatedFor call board board'.orders task new := by
  obtain ⟨hlength, hcreated⟩ := List.forall₂_iff_zip.mp hwritten.created
  obtain ⟨hvalidatedMem, hnewMem⟩ := List.of_mem_zip hzip
  obtain ⟨hmachine, hwaiting, -⟩ := hcreated hzip
  have hdisjoint := placements_disjoint hlength hnodup
  have hpair := mem_placements hzip
  rw [hvalid.ids_eq] at hpair
  have hids := hwritten.tasks_eq ▸ board'.tasks.nodup
  rw [List.map_append] at hids
  obtain ⟨-, hnewNodup, hapart⟩ := List.nodup_append.mp hids
  have hmachineId : validated.machine.id = task.machineId :=
    ((board.machines.find?_eq_some_iff).mp hvalid.machine_eq).2
  have hmachineMem : validated.machine ∈ board.machines.rows :=
    ((board.machines.find?_eq_some_iff).mp hvalid.machine_eq).1
  constructor
  · intro hold
    exact hapart new.id hold new.id (List.mem_map_of_mem (f := Keyed.key) hnewMem) rfl
  · exact ⟨hmachine.trans hmachineId,
      (board.machines.mem_keys).mpr ⟨validated.machine, hmachineMem, hmachine.symm⟩⟩
  · exact hwaiting
  · intro old hold hsame
    refine lt_of_lt_of_le (lt_machinePosition board hold) ?_
    rw [hsame, ← hmachineId, ← hmachine]
    exact hwritten.bounded new hnewMem
  · intro order' horder'
    rw [hwritten.orders_eq] at horder'
    obtain ⟨order, horder, rfl⟩ := List.mem_map.mp horder'
    rw [id_place]
    constructor
    · intro htaskId
      by_contra hnotMem
      have hsnd : (placements tasks newTasks).map Prod.snd = newTasks.map ProductionTask.id :=
        List.map_snd_zip (by simp [hlength])
      refine taskId_place_ne call (by rw [hsnd]; exact hnewNodup) hpair hnotMem ?_ htaskId
      by_cases hassigned : order.id ∈ (tasks.flatMap ValidatedTask.orders).map Order.id
      · obtain ⟨other, hother, heq⟩ := List.mem_map.mp hassigned
        obtain ⟨owner, howner, hmem⟩ := List.mem_flatMap.mp hother
        rw [← board.orders.eq_of_key_eq (horders owner howner other hmem) horder heq,
          (hplannable other hother).2]
        simp
      · exact hwritten.fresh new hnewMem order horder hassigned
    · intro hmem
      rw [place_of_mem call hdisjoint hpair hmem]
      unfold stamped
      split_ifs with hsame
      · rw [← hsame]
      · rfl
  · intro id hid
    rw [← hvalid.ids_eq] at hid
    obtain ⟨order, horder, rfl⟩ := List.mem_map.mp hid
    have hplan := hplannable order (List.mem_flatMap.mpr ⟨validated, hvalidatedMem, horder⟩)
    have hfind : board.orders.find? order.id = some order :=
      (board.orders.find?_eq_some_iff).mpr ⟨hvalid.orders_mem order horder, rfl⟩
    refine ⟨order, hfind, hplan, ?_⟩
    rw [find?_placed hwritten.orders_eq, hfind, Option.map_some,
      place_of_mem call hdisjoint hpair (hvalid.ids_eq ▸ hid)]
    have hchanged : ({ order with status := .producing, taskId := some new.id } : Order) ≠ order :=
      fun heq ↦ by
        have := congrArg Order.status heq
        rw [hplan.1] at this
        cases this
    unfold stamped
    rw [if_neg hchanged]

/-- Writing a checked plan never fails, and applies it exactly. -/
theorem writePlan_ok (call : Call) {planId userId : Id} {allowV2 : Bool} {board : Board}
    {result : CheckedPlan} (hchecked : checkedPlan planId userId allowV2 board = .ok result board) :
    ∃ newTasks board', writePlan call result board =
        .ok ⟨planId, newTasks.map ProductionTask.id, newTasks.length,
          (result.plan.tasks.flatMap ProposedTask.orderIds).length⟩ board' ∧
      AppliedExactly call result.plan newTasks board board' := by
  obtain ⟨hplan, -, hdraft, -, hvalid, hnodup, hplannable⟩ := checkedPlan_ok hchecked
  obtain ⟨newTasks, middle, hwrite, hwritten⟩ :=
    writeTasks_ok call result.plan.id result.tasks (nextPosition board) board hnodup
  have hid : result.plan.id = planId := ((board.plans.find?_eq_some_iff).mp hplan).2
  refine ⟨newTasks, { middle with plans := middle.plans.update result.plan.id (markApplied call) },
    ?_, ?_⟩
  · unfold writePlan
    rw [get_bind_eq_ok]
    refine bind_eq_ok.mpr ⟨_, middle, hwrite, ?_⟩
    rw [modify_bind_eq_ok, pure_eq_ok, hid, List.length_map, ← assigned_ids hvalid, List.length_map]
    exact ⟨rfl, rfl⟩
  · have hplans : middle.plans = board.plans := by rw [hwritten.frame]
    constructor
    · exact hwritten.tasks_eq
    · refine forall₂_trans hvalid ?_ hwritten.created.length_eq
      intro task validated new hisValid hzip
      exact createdFor_of_written hwritten hnodup hplannable (orders_mem_of_validated hvalid)
        hisValid hzip
    · exact hwritten.ordered
    · intro id hid
      change middle.orders.find? id = _
      rw [find?_placed hwritten.orders_eq]
      cases hfind : board.orders.find? id with
      | none => rfl
      | some order =>
        obtain ⟨-, horderId⟩ := (board.orders.find?_eq_some_iff).mp hfind
        rw [Option.map_some, place_of_notMem call]
        intro pair hpair hin
        obtain ⟨owner, howner, hids⟩ := List.mem_map.mp (List.of_mem_zip hpair).1
        refine hid ?_
        rw [← assigned_ids hvalid, ← horderId]
        rw [← hids] at hin
        obtain ⟨row, hrow, heq⟩ := List.mem_map.mp hin
        exact List.mem_map.mpr ⟨row, List.mem_flatMap.mpr ⟨owner, howner, hrow⟩, heq⟩
    · rw [hplans]
    · rw [hwritten.frame]

/-! ### All or nothing -/

/-- The checks either pass or raise, with the board as it was. -/
theorem applySchedulePlan_of_checks_fail {call : Call} {planId userId : Id} {allowV2 : Bool}
    {board : Board} {failure : Failure}
    (h : checkedPlan planId userId allowV2 board = .error failure board) :
    applySchedulePlan call planId userId allowV2 board = .error failure board := by
  change EStateM.bind _ _ board = _
  unfold EStateM.bind
  rw [h]

/-- A plan that is no draft cannot be applied, whoever calls. -/
theorem applySchedulePlan_of_not_draft {call : Call} {planId userId : Id} {allowV2 : Bool}
    {board : Board} (hplan : ∀ plan, board.plans.find? planId = some plan → plan.status ≠ .draft) :
    ∃ failure, applySchedulePlan call planId userId allowV2 board = .error failure board := by
  rcases readOnly_checkedPlan planId userId allowV2 board with ⟨result, hok⟩ | ⟨failure, herror⟩
  · obtain ⟨hfind, -, hdraft, -⟩ := checkedPlan_ok hok
    exact absurd hdraft (hplan result.plan hfind)
  · exact ⟨failure, applySchedulePlan_of_checks_fail herror⟩

/-- The application of a plan raises before its first write, leaving the state inside its
transaction untouched, or applies the plan exactly and returns the new tasks. -/
theorem applySchedulePlan_cases (call : Call) (planId userId : Id) (allowV2 : Bool)
    (board : Board) :
    (∃ failure, applySchedulePlan call planId userId allowV2 board = .error failure board) ∨
    ∃ plan newTasks board',
      board.plans.find? planId = some plan ∧ plan.status = .draft ∧
      applySchedulePlan call planId userId allowV2 board =
        .ok ⟨planId, newTasks.map ProductionTask.id, newTasks.length,
          (plan.tasks.flatMap ProposedTask.orderIds).length⟩ board' ∧
      AppliedExactly call plan newTasks board board' := by
  rcases readOnly_checkedPlan planId userId allowV2 board with ⟨result, hok⟩ | ⟨failure, herror⟩
  · obtain ⟨newTasks, board', hwrite, hexact⟩ := writePlan_ok call hok
    obtain ⟨hplan, -, hdraft, -⟩ := checkedPlan_ok hok
    exact Or.inr ⟨result.plan, newTasks, board', hplan, hdraft,
      bind_eq_ok.mpr ⟨result, board, hok, hwrite⟩, hexact⟩
  · exact Or.inl ⟨failure, applySchedulePlan_of_checks_fail herror⟩

/-- After its application a plan is found applied. -/
theorem AppliedExactly.find?_plan {call : Call} {plan : SchedulePlan}
    {newTasks : List ProductionTask} {board board' : Board}
    (h : AppliedExactly call plan newTasks board board')
    (hplan : board.plans.find? plan.id = some plan) :
    board'.plans.find? plan.id = some (markApplied call plan) := by
  rw [h.applied]
  refine (Table.find?_update_self board.plans plan.id _ _).trans ?_
  rw [hplan]
  rfl

end FilmOS.Scheduling
