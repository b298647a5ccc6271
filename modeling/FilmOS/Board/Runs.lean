import FilmOS.Board.Moves
import FilmOS.Scheduling.Acceptance
import FilmOS.Library.Run

/-!
# Runs of the board

The operations of the order, production and scheduling services as one system: a step runs one
operation as a transaction, a failing one leaving the board as it was. Master data is maintained
elsewhere and may change between any two operations; plans are closed, superseded and edited
elsewhere, which never makes a draft of a plan that is none (`PlanChange`).

`agreement_run_iff` is the fate of the agreement over runs: orders and tasks agree in every state
that a run from the empty board reaches exactly when none of its moves strands an order.
`applySchedulePlan_all_or_nothing` is the effect of an application, together with its finality over
every later run.
-/

set_option autoImplicit false
set_option relaxedAutoImplicit false

namespace FilmOS

open Transaction Production Scheduling ProductionService OrderService

/-- The board before anything was entered. -/
def Board.empty : Board where
  customers := Table.empty
  products := Table.empty
  formulas := Table.empty
  machines := Table.empty
  orders := Table.empty
  tasks := Table.empty
  plans := Table.empty
  orderNumber := 0
  issued := []

/-- What other services do to a plan: anything that does not make it a draft again. -/
structure PlanChange where
  change : SchedulePlan → SchedulePlan
  id_eq : ∀ plan, (change plan).id = plan.id
  of_draft : ∀ plan, (change plan).status = .draft → plan.status = .draft

/-- The operations on the board. -/
inductive BoardOp
  | createOrder (request : OrderRequest)
  | updateOrder (orderId : Id) (fields : OrderFields)
  | deleteOrder (orderId : Id)
  | createTask (machineId : Id) (orderIds : List Id)
  | updateTask (taskId : Id) (fields : TaskFields)
  | deleteTask (taskId : Id)
  | moveOrder (move : OrderMove)
  | moveTask (taskId targetMachineId : Id) (targetIndex : ℕ)
  | reorderTasks (machineId : Id) (orderedTaskIds : List Id)
  | createPlan (sessionId userId : Id) (orderIds : Option (List Id))
  | applyPlan (planId userId : Id) (allowV2 : Bool)
  | changePlan (planChange : PlanChange)
  | maintain (customers : Table Customer) (products : Table Product) (formulas : Table Formula)
      (machines : Table Machine)

namespace Board

/-- A change of the plans by another service. -/
def changePlans (planChange : PlanChange) (board : Board) : Board :=
  { board with plans := board.plans.mapRows planChange.change planChange.id_eq }

/-- Master data as another service left it; an order refers to its product. -/
def maintain (customers : Table Customer) (products : Table Product) (formulas : Table Formula)
    (machines : Table Machine) (board : Board) : Board :=
  { board with
    customers, products, formulas, machines
    orders := board.orders.mapRows
      (fun order ↦ { order with product := (products.find? order.product.id).getD order.product })
      (fun _ ↦ rfl) }

/-- One operation on the board, as a transaction. -/
def step (board : Board) (input : Call × BoardOp) : Board :=
  let call := input.1
  match input.2 with
  | .createOrder request => commit (createOrderRecord call request) board
  | .updateOrder orderId fields => commit (OrderService.updateOrder call orderId fields) board
  | .deleteOrder orderId => commit (OrderService.deleteOrder orderId) board
  | .createTask machineId orderIds =>
    commit (ProductionService.createTask call machineId orderIds) board
  | .updateTask taskId fields => commit (ProductionService.updateTask call taskId fields) board
  | .deleteTask taskId => commit (ProductionService.deleteTask call taskId) board
  | .moveOrder move => commit (ProductionService.moveOrder call move) board
  | .moveTask taskId targetMachineId targetIndex =>
    commit (ProductionService.moveTask call taskId targetMachineId targetIndex) board
  | .reorderTasks machineId orderedTaskIds =>
    commit (ProductionService.reorderTasks call machineId orderedTaskIds) board
  | .createPlan sessionId userId orderIds =>
    commit (createSchedulePlan call sessionId userId orderIds) board
  | .applyPlan planId userId allowV2 =>
    commit (applySchedulePlan call planId userId allowV2) board
  | .changePlan planChange => board.changePlans planChange
  | .maintain customers products formulas machines =>
    board.maintain customers products formulas machines

end Board

/-! ### Plans and the ledger -/

/-- The orders that a task of an applied plan takes belong to no task before. -/
theorem linked_writeTasks {call : Call} {planId : Id} (tasks : List ValidatedTask) :
    ∀ {positions : Id → ℤ} {board board' : Board} {taskIds : List Id},
      writeTasks call planId tasks positions board = .ok taskIds board' →
      ((tasks.flatMap ValidatedTask.orders).map Order.id).Nodup →
      (∀ task ∈ tasks, ∃ entry ∈ board.ledger.entries, entry.orderId ∈ task.orders.map Order.id) →
      (∀ entry ∈ board.ledger.entries,
        entry.orderId ∈ (tasks.flatMap ValidatedTask.orders).map Order.id → entry.taskId = none) →
      board.ledger.Linked → board'.ledger.Linked := by
  induction tasks with
  | nil =>
    intro positions board board' taskIds h _ _ _ hlinked
    obtain ⟨-, rfl⟩ := pure_eq_ok.mp h
    exact hlinked
  | cons task rest ih =>
    intro positions board board' taskIds h hnodup hne hfree hlinked
    rw [List.flatMap_cons, List.map_append] at hnodup hfree
    obtain ⟨-, hrest, hdisjoint⟩ := List.nodup_append.mp hnodup
    unfold writeTasks at h
    obtain ⟨taskId, middle, hadd, h⟩ := bind_eq_ok.mp h
    rw [modify_bind_eq_ok] at h
    obtain ⟨rests, last, hwrite, h⟩ := bind_eq_ok.mp h
    obtain ⟨-, rfl⟩ := pure_eq_ok.mp h
    have hledger : (middle.assignOrders call (task.orders.map Order.id) .producing
        (some taskId)).ledger =
        (board.ledger.openTask taskId).assign (task.orders.map Order.id) .producing
          (some taskId) := by
      rw [Board.ledger_assignOrders, Board.ledger_addTask hadd]
    refine ih hwrite hrest ?_ ?_ ?_
    · intro other hother
      obtain ⟨entry, hentry, hmem⟩ := hne other (List.mem_cons_of_mem _ hother)
      rw [hledger]
      refine ⟨_, Ledger.mem_change.mpr ⟨entry, hentry, rfl⟩, ?_⟩
      split_ifs <;> exact hmem
    · intro entry hentry hmem
      rw [hledger] at hentry
      obtain ⟨old, hold, rfl⟩ := Ledger.mem_change.mp hentry
      by_cases hin : old.orderId ∈ task.orders.map Order.id
      · rw [if_pos hin] at hmem
        exact absurd rfl (hdisjoint _ hin _ hmem)
      · rw [if_neg hin] at hmem ⊢
        exact hfree old hold (List.mem_append_right _ hmem)
    · rw [hledger]
      refine hlinked.openTask (hlinked.2.spares ?_) (hne task List.mem_cons_self)
      intro entry hentry hmem
      exact hfree entry hentry (List.mem_append_left _ hmem)

/-- The application of a plan keeps the agreement. -/
theorem linked_applySchedulePlan {call : Call} {planId userId : Id} {allowV2 : Bool}
    {board board' : Board} {result : AppliedResult}
    (h : applySchedulePlan call planId userId allowV2 board = .ok result board')
    (hlinked : board.ledger.Linked) : board'.ledger.Linked := by
  unfold applySchedulePlan at h
  obtain ⟨checked, same, hchecked, hplan⟩ := bind_eq_ok.mp h
  obtain rfl := (readOnly_checkedPlan planId userId allowV2).state_eq hchecked
  obtain ⟨-, -, -, -, hvalid, hnodup, hplannable⟩ := checkedPlan_ok hchecked
  unfold writePlan at hplan
  rw [get_bind_eq_ok] at hplan
  obtain ⟨taskIds, middle, hwrite, hmark⟩ := bind_eq_ok.mp hplan
  rw [modify_bind_eq_ok] at hmark
  obtain ⟨-, rfl⟩ := pure_eq_ok.mp hmark
  have horders := orders_mem_of_validated hvalid
  have hledger : middle.ledger.Linked := by
    refine linked_writeTasks checked.tasks hwrite hnodup ?_ ?_ hlinked
    · intro task htask
      obtain ⟨order, horder⟩ := nonempty_of_validated hvalid htask
      exact ⟨order.entry, Board.mem_ledger_entries.mpr
        ⟨order, horders task htask order horder, rfl⟩, List.mem_map_of_mem horder⟩
    · intro entry hentry hmem
      obtain ⟨order, horder, hid⟩ := List.mem_map.mp hmem
      obtain ⟨task, htask, hin⟩ := List.mem_flatMap.mp horder
      rw [entry_eq_of_orderId (horders task htask order hin) hentry hid.symm]
      exact (hplannable order horder).2
  exact hledger

/-! ### The agreement over runs -/

/-- The operation is a move that strands its order. -/
def BoardOp.Strands (board : Board) : BoardOp → Prop
  | .moveOrder move => StrandsOrder board move
  | _ => False

theorem linked_commit {α : Type} {body : Txn Failure Board α} {board : Board}
    (hbody : ∀ a board', body board = .ok a board' → board'.ledger.Linked)
    (hlinked : board.ledger.Linked) : (commit body board).ledger.Linked := by
  rcases commit_cases body board with heq | ⟨a, board', hok, heq⟩
  · rwa [heq]
  · rw [heq]
    exact hbody a board' hok

/-- Where orders and tasks agree, they agree after a step exactly when it strands no order. -/
theorem linked_step_iff {board : Board} (input : Call × BoardOp) (hlinked : board.ledger.Linked) :
    (board.step input).ledger.Linked ↔ ¬ input.2.Strands board := by
  obtain ⟨call, op⟩ := input
  cases op with
  | moveOrder move => exact linked_moveOrder_iff call move hlinked
  | createOrder request =>
    exact iff_of_true (linked_commit (fun _ _ h ↦ linked_createOrderRecord h hlinked) hlinked) id
  | updateOrder orderId fields =>
    exact iff_of_true (linked_commit (fun _ _ h ↦ linked_updateOrder h hlinked) hlinked) id
  | deleteOrder orderId =>
    exact iff_of_true (linked_commit (fun _ _ h ↦ linked_deleteOrder h hlinked) hlinked) id
  | createTask machineId orderIds =>
    exact iff_of_true (linked_commit (fun _ _ h ↦ linked_createTask h hlinked) hlinked) id
  | updateTask taskId fields =>
    exact iff_of_true (linked_commit (fun _ _ h ↦ linked_updateTask h hlinked) hlinked) id
  | deleteTask taskId =>
    exact iff_of_true (linked_commit (fun _ _ h ↦ linked_deleteTask h hlinked) hlinked) id
  | moveTask taskId targetMachineId targetIndex =>
    refine iff_of_true (linked_commit (fun _ _ h ↦ ?_) hlinked) id
    rwa [ledger_moveTask h]
  | reorderTasks machineId orderedTaskIds =>
    refine iff_of_true (linked_commit (fun _ _ h ↦ ?_) hlinked) id
    rwa [ledger_reorderTasks h]
  | createPlan sessionId userId orderIds =>
    refine iff_of_true (linked_commit (fun _ _ h ↦ ?_) hlinked) id
    obtain ⟨-, -, plans, issued, -, -, -, -, -, -, -, -, -, rfl⟩ := createSchedulePlan_ok h
    exact hlinked
  | applyPlan planId userId allowV2 =>
    exact iff_of_true (linked_commit (fun _ _ h ↦ linked_applySchedulePlan h hlinked) hlinked) id
  | changePlan planChange => exact iff_of_true hlinked id
  | maintain customers products formulas machines =>
    refine iff_of_true ?_ id
    have hledger : (board.maintain customers products formulas machines).ledger = board.ledger := by
      unfold Board.ledger Board.maintain
      rw [Ledger.mk.injEq]
      refine ⟨?_, rfl⟩
      rw [Table.rows_mapRows, List.map_map]
      rfl
    exact hledger.symm ▸ hlinked

/-- Orders and tasks agree in every state that a run from the empty board reaches exactly when no
move of the run strands an order. -/
theorem agreement_run_iff (inputs : List (Call × BoardOp)) :
    (∀ reached, reached <+: inputs → Agreement (System.run Board.step Board.empty reached)) ↔
      System.Meets Board.step (fun board input ↦ ¬ input.2.Strands board) Board.empty inputs := by
  simp only [agreement_iff_linked]
  have hstep : ∀ (board : Board) (input : Call × BoardOp), board.ledger.Linked →
      ((board.step input).ledger.Linked ↔ ¬ input.2.Strands board) :=
    fun _ input hlinked ↦ linked_step_iff input hlinked
  have hempty : Board.empty.ledger.Linked :=
    ⟨fun _ h ↦ (List.not_mem_nil h).elim, fun _ h ↦ (List.not_mem_nil h).elim⟩
  exact System.prefix_invariant_iff hstep inputs hempty

/-! ### A move that strands its order -/

/-- An order is entered, becomes the only one of a task, and is moved to another machine. -/
def strandingRun : List (Call × BoardOp) :=
  [.maintain (Table.empty.put ⟨"customer", "customer"⟩)
      (Table.empty.put ⟨"product", "product", ⟨"film", "film"⟩⟩) Table.empty
      ((Table.empty.put (sampleMachine "m1")).put (sampleMachine "m2")),
    .createOrder ⟨"customer", "product", Dict.ofList [("宽幅", "500mm"), ("厚度", "20μm")], 10, "m",
      none, none⟩,
    .createTask "m1" ["f"],
    .moveOrder ⟨"f", some "ff", none, some "m2"⟩].map
      (fun op ↦ (⟨0, "20260101", IdSource.longer⟩, op))

theorem not_agreement_strandingRun :
    ¬ Agreement (System.run Board.step Board.empty strandingRun) := by
  have hstranded : ∃ order ∈ (System.run Board.step Board.empty strandingRun).orders.rows,
      order.taskId = none ∧ order.status = .producing := by
    decide +kernel
  intro h
  obtain ⟨order, horder, hnone, hproducing⟩ := hstranded
  rw [(h.pending_iff order horder).mp hnone] at hproducing
  cases hproducing

/-! ### The finality of an application -/

/-- A plan is no draft, or not a draft any more. -/
def Settled (planId : Id) (board : Board) : Prop :=
  ∃ plan, board.plans.find? planId = some plan ∧ plan.status ≠ .draft

theorem plans_addTask {call : Call} {machineId : Id} {position : ℤ} {notes : Option String}
    {board board' : Board} {id : Id}
    (h : Board.addTask call machineId position notes board = .ok id board') :
    board'.plans = board.plans := by
  obtain ⟨id', board'', hadd, -, tasks, -, rfl⟩ :=
    Board.exists_addTask call machineId position notes board
  rw [h] at hadd
  cases hadd
  rfl

theorem plans_placeOrder {call : Call} {move : OrderMove} {target : Option LoadedTask}
    {board middle : Board} {u : Unit} (h : placeOrder call move target board = .ok u middle) :
    middle.plans = board.plans := by
  unfold placeOrder at h
  cases target with
  | some loaded =>
    rw [modify_eq_ok] at h
    rw [← h]
    rfl
  | none =>
    cases hmachine : move.targetMachineId with
    | some machineId =>
      simp only [hmachine, get_bind_eq_ok] at h
      obtain ⟨taskId, opened, hadd, h⟩ := bind_eq_ok.mp h
      rw [modify_eq_ok] at h
      rw [← h]
      exact (plans_addTask hadd : opened.plans = board.plans)
    | none =>
      simp only [hmachine, modify_eq_ok] at h
      rw [← h]
      rfl

theorem plans_normalizeQueues (call : Call) (move : OrderMove) (source : Option LoadedTask)
    (board : Board) : (normalizeQueues call move source board).plans = board.plans := by
  unfold normalizeQueues
  dsimp only
  generalize (source.map (·.task.machineId)).toList ++ _ = machineIds
  induction machineIds generalizing board with
  | nil => rfl
  | cons machineId machineIds ih => exact ih _

/-- A move of an order leaves the plans alone. -/
theorem plans_moveOrder {call : Call} {move : OrderMove} {board board' : Board} {u : Unit}
    (h : moveOrder call move board = .ok u board') : board'.plans = board.plans := by
  obtain ⟨-, h⟩ := moveOrder_eq_ok.mp h
  split_ifs at h
  · rw [← h]
  · obtain ⟨-, -, order, source, target, middle, -, -, -, -, hplace, rfl⟩ := h
    rw [plans_normalizeQueues, ← plans_placeOrder hplace]
    unfold removeSource
    split
    · rfl
    · split_ifs <;> rfl

theorem settled_commit {α : Type} {body : Txn Failure Board α} {board : Board} {planId : Id}
    (hbody : ∀ a board', body board = .ok a board' → board'.plans = board.plans)
    (hsettled : Settled planId board) : Settled planId (commit body board) := by
  rcases commit_cases body board with heq | ⟨a, board', hok, heq⟩
  · rwa [heq]
  · rw [heq]
    unfold Settled
    rwa [hbody a board' hok]

/-- No operation makes a draft of a plan that is none. -/
theorem settled_step (planId : Id) (board : Board) (input : Call × BoardOp)
    (hsettled : Settled planId board) : Settled planId (board.step input) := by
  obtain ⟨call, op⟩ := input
  cases op with
  | createOrder request =>
    exact settled_commit (fun _ _ h ↦ (createOrderRecord_ok h).2.2.2.2.2) hsettled
  | updateOrder orderId fields =>
    refine settled_commit (fun _ _ h ↦ ?_) hsettled
    obtain ⟨order, -, -, change, hid, -, -, rfl⟩ := updateOrder_ok h
    rfl
  | deleteOrder orderId =>
    refine settled_commit (fun _ _ h ↦ ?_) hsettled
    obtain ⟨order, -, -, rfl⟩ := deleteOrder_ok h
    rfl
  | createTask machineId orderIds =>
    refine settled_commit (fun _ _ h ↦ ?_) hsettled
    obtain ⟨-, -, -, -, -, -, -, -, middle, hadd, rfl⟩ := createTask_ok h
    exact (plans_addTask hadd : middle.plans = board.plans)
  | updateTask taskId fields =>
    refine settled_commit (fun _ _ h ↦ ?_) hsettled
    rcases updateTask_ok h with rfl | ⟨task, machine, status, -, -, -, -, rfl⟩ <;> rfl
  | deleteTask taskId =>
    refine settled_commit (fun _ _ h ↦ ?_) hsettled
    obtain ⟨task, -, -, rfl⟩ := deleteTask_ok h
    rfl
  | moveOrder move => exact settled_commit (fun _ _ h ↦ plans_moveOrder h) hsettled
  | moveTask taskId targetMachineId targetIndex =>
    refine settled_commit (fun _ _ h ↦ ?_) hsettled
    obtain ⟨task, machine, total, -, -, -, -, -, hboard⟩ := moveTask_ok h
    rw [hboard]
    split_ifs <;> rfl
  | reorderTasks machineId orderedTaskIds =>
    refine settled_commit (fun _ _ h ↦ ?_) hsettled
    rw [reorderTasks_ok h]
    rfl
  | createPlan sessionId userId orderIds =>
    change Settled planId (commit (createSchedulePlan call sessionId userId orderIds) board)
    rcases commit_cases (createSchedulePlan call sessionId userId orderIds) board with
      heq | ⟨plan, board', hok, heq⟩
    · rwa [heq]
    · rw [heq]
      obtain ⟨-, -, plans, issued, -, -, -, -, -, -, -, -, hinsert, rfl⟩ :=
        createSchedulePlan_ok hok
      obtain ⟨old, hold, hstatus⟩ := hsettled
      obtain ⟨hmem, hid⟩ := (board.plans.find?_eq_some_iff).mp hold
      have hne : plan.id ≠ planId := fun hsame ↦
        ((Table.insert?_eq_some_iff _ _ _).mp hinsert).1
          ((board.plans.mem_keys).mpr ⟨old, hmem, hid.trans hsame.symm⟩)
      refine ⟨old, ?_, hstatus⟩
      rw [Table.find?_insert? hinsert, key_schedulePlan, if_neg hne]
      exact hold
  | applyPlan appliedId userId allowV2 =>
    change Settled planId (commit (applySchedulePlan call appliedId userId allowV2) board)
    rcases applySchedulePlan_cases call appliedId userId allowV2 board with
      ⟨failure, herror⟩ | ⟨plan, newTasks, board', -, -, hok, hexact⟩
    · rwa [commit_of_error herror]
    · rw [commit_of_ok hok]
      obtain ⟨old, hold, hstatus⟩ := hsettled
      refine ⟨if old.id = plan.id then markApplied call old else old, ?_, ?_⟩
      · rw [hexact.applied]
        refine (Table.find?_update board.plans plan.id _ _ planId).trans ?_
        rw [hold]
        rfl
      · split_ifs
        · simp [markApplied]
        · exact hstatus
  | changePlan planChange =>
    obtain ⟨old, hold, hstatus⟩ := hsettled
    refine ⟨planChange.change old, ?_, fun hdraft ↦ hstatus (planChange.of_draft old hdraft)⟩
    change (board.plans.mapRows planChange.change planChange.id_eq).find? planId = _
    rw [Table.find?_mapRows, hold]
    rfl
  | maintain customers products formulas machines => exact hsettled

/-- `applySchedulePlan` raises before its first write, leaving the state inside its transaction
untouched, or applies the plan exactly; from then on, in every run, each call on the plan raises
before its first write. -/
theorem applySchedulePlan_all_or_nothing (call : Call) (planId userId : Id) (allowV2 : Bool)
    (board : Board) :
    (∃ failure, applySchedulePlan call planId userId allowV2 board = .error failure board) ∨
    ∃ plan newTasks board',
      board.plans.find? planId = some plan ∧ plan.status = .draft ∧
      applySchedulePlan call planId userId allowV2 board =
        .ok ⟨planId, newTasks.map ProductionTask.id, newTasks.length,
          (plan.tasks.flatMap ProposedTask.orderIds).length⟩ board' ∧
      AppliedExactly call plan newTasks board board' ∧
      board'.plans.find? planId = some (markApplied call plan) ∧
      ∀ (inputs : List (Call × BoardOp)) (later : Call) (laterUser : Id) (laterAllows : Bool),
        ∃ failure, applySchedulePlan later planId laterUser laterAllows
            (System.run Board.step board' inputs) =
          .error failure (System.run Board.step board' inputs) := by
  rcases applySchedulePlan_cases call planId userId allowV2 board with
    herror | ⟨plan, newTasks, board', hplan, hdraft, hok, hexact⟩
  · exact Or.inl herror
  · obtain ⟨-, rfl⟩ := (board.plans.find?_eq_some_iff).mp hplan
    have happlied := hexact.find?_plan hplan
    refine Or.inr ⟨plan, newTasks, board', hplan, hdraft, hok, hexact, happlied, ?_⟩
    intro inputs later laterUser laterAllows
    have hsettled : Settled plan.id board' := ⟨_, happlied, by simp [markApplied]⟩
    obtain ⟨last, hlast, hstatus⟩ :=
      System.invariant_run_all (settled_step plan.id) inputs board' hsettled
    refine applySchedulePlan_of_not_draft fun row hrow ↦ ?_
    obtain rfl := Option.some.inj (hlast.symm.trans hrow)
    exact hstatus

end FilmOS
