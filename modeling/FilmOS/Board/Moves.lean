import FilmOS.Board.Agreement

/-!
# Moves of an order

`moveOrder` is the operation that can break the agreement of orders and tasks. When the moved order
is the only one of its task, the task is deleted after the order was sent to its new place, and the
deletion takes the task from every order loaded with it, the moved one included. An order sent back
to the pending ones loses nothing by that; an order sent to another task or to a machine is left in
production without a task. `StrandsOrder` is this case, read off the board before the move, and
`linked_moveOrder_iff` says that the agreement survives a move exactly outside it.
-/

set_option autoImplicit false
set_option relaxedAutoImplicit false

namespace FilmOS

open Transaction Production Scheduling ProductionService

/-- The machines that a move locks. -/
def lockedFor (board : Board) (move : OrderMove) : List Machine :=
  board.machines.rows.filter (·.id ∈ move.machineIds board)

/-- The move is accepted, takes the only order of a task, and brings it to another task or to a
machine. -/
def StrandsOrder (board : Board) (move : OrderMove) : Prop :=
  (∀ id ∈ move.taskIds, id ∈ board.tasks.keys) ∧
  (∀ id ∈ move.machineIds board, id ∈ board.machines.keys) ∧
  ∃ order ∈ board.orders.rows, order.id = move.orderId ∧
  ∃ source ∈ board.tasks.rows, truthy move.sourceTaskId = some source.id ∧
    source.status = .waiting ∧ board.ordersOf source.id = [order] ∧
    ((truthy move.targetMachineId = none ∧ ∃ target ∈ board.tasks.rows,
        truthy move.targetTaskId = some target.id ∧ target.id ≠ source.id ∧
        target.status = .waiting ∧
        Accepting (lockedFor board move) target.machineId (board.ordersOf target.id ++ [order])) ∨
      (truthy move.targetTaskId = none ∧ ∃ machineId, move.targetMachineId = some machineId ∧
        Accepting (lockedFor board move) machineId [order]))

/-! ### The writes of a move -/

/-- Where a move brings its order, in terms of the ledger. -/
theorem ledger_placeOrder {call : Call} {move : OrderMove} {target : Option LoadedTask}
    {board middle : Board} {u : Unit} (h : placeOrder call move target board = .ok u middle) :
    (∃ loaded, target = some loaded ∧
      middle.ledger = board.ledger.assign [move.orderId] .producing (some loaded.task.id)) ∨
    (target = none ∧ move.targetMachineId.isSome ∧ ∃ taskId,
      middle.ledger =
        (board.ledger.openTask taskId).assign [move.orderId] .producing (some taskId)) ∨
    (target = none ∧ move.targetMachineId = none ∧
      middle.ledger = board.ledger.assign [move.orderId] .pending none) := by
  unfold placeOrder at h
  cases target with
  | some loaded =>
    rw [modify_eq_ok] at h
    rw [← h]
    exact Or.inl ⟨loaded, rfl, Board.ledger_assignOrders ..⟩
  | none =>
    cases hmachine : move.targetMachineId with
    | some machineId =>
      simp only [hmachine, get_bind_eq_ok] at h
      obtain ⟨taskId, opened, hadd, h⟩ := bind_eq_ok.mp h
      rw [modify_eq_ok] at h
      rw [← h]
      refine Or.inr (Or.inl ⟨rfl, rfl, taskId, ?_⟩)
      rw [Board.ledger_assignOrders, Board.ledger_addTask hadd]
    | none =>
      simp only [hmachine, modify_eq_ok] at h
      rw [← h]
      exact Or.inr (Or.inr ⟨rfl, rfl, Board.ledger_assignOrders ..⟩)

/-- Placing an order never fails. -/
theorem exists_placeOrder (call : Call) (move : OrderMove) (target : Option LoadedTask)
    (board : Board) : ∃ middle, placeOrder call move target board = .ok () middle := by
  unfold placeOrder
  cases target with
  | some loaded => exact ⟨_, rfl⟩
  | none =>
    cases move.targetMachineId with
    | some machineId =>
      obtain ⟨taskId, opened, hadd, -⟩ := Board.exists_addTask call machineId
        (Board.nextPosition (board.activeTasks machineId)) none board
      exact ⟨_, bind_eq_ok.mpr ⟨board, board, rfl, bind_eq_ok.mpr ⟨taskId, opened, hadd, rfl⟩⟩⟩
    | none => exact ⟨_, rfl⟩

@[simp] theorem ledger_normalizeQueues (call : Call) (move : OrderMove)
    (source : Option LoadedTask) (board : Board) :
    (normalizeQueues call move source board).ledger = board.ledger := by
  unfold normalizeQueues
  dsimp only
  generalize (source.map (·.task.machineId)).toList ++ _ = machineIds
  induction machineIds generalizing board with
  | nil => rfl
  | cons machineId machineIds ih =>
    rw [List.foldl_cons, ih, Board.ledger_normalizeQueue]

/-- Among the orders of a task there is another one than a given one, unless it is the only one. -/
theorem exists_other_order {board : Board} {taskId : Id} {order : Order}
    (horder : order ∈ board.ordersOf taskId) (hlength : (board.ordersOf taskId).length ≠ 1) :
    ∃ other ∈ board.ordersOf taskId, other.id ≠ order.id := by
  have hnodup : ((board.ordersOf taskId).map Order.id).Nodup :=
    board.orders.nodup.sublist (List.filter_sublist.map _)
  match hrows : board.ordersOf taskId with
  | [] =>
    rw [hrows] at horder
    cases horder
  | [_] =>
    rw [hrows] at hlength
    exact absurd rfl hlength
  | first :: second :: rest =>
    rw [hrows, List.map_cons, List.nodup_cons] at hnodup
    by_cases hfirst : first.id = order.id
    · refine ⟨second, List.mem_cons_of_mem _ List.mem_cons_self, fun hsecond ↦ hnodup.1 ?_⟩
      rw [hfirst, ← hsecond]
      exact List.mem_map_of_mem List.mem_cons_self
    · exact ⟨first, List.mem_cons_self, hfirst⟩

/-- The only order of a task that holds a given order is that order. -/
theorem ordersOf_eq_singleton {board : Board} {taskId : Id} {order : Order}
    (horder : order ∈ board.ordersOf taskId) (hlength : (board.ordersOf taskId).length = 1) :
    board.ordersOf taskId = [order] := by
  obtain ⟨only, honly⟩ := List.length_eq_one_iff.mp hlength
  rw [honly] at horder
  rw [honly, List.mem_singleton.mp horder]

theorem mem_ordersOf {board : Board} {taskId : Id} {order : Order} :
    order ∈ board.ordersOf taskId ↔ order ∈ board.orders.rows ∧ order.taskId = some taskId := by
  unfold Board.ordersOf
  rw [List.mem_filter, decide_eq_true_eq]

/-! ### Agreement after a move -/

/-- A move that takes no task its last order keeps the agreement. -/
theorem linked_placeOrder {call : Call} {move : OrderMove} {target : Option LoadedTask}
    {board middle : Board} {order : Order} (h : placeOrder call move target board = .ok () middle)
    (hlinked : board.ledger.Linked) (horder : order ∈ board.orders.rows)
    (hid : order.id = move.orderId) (hspares : board.ledger.Spares [move.orderId])
    (htarget : ∀ loaded, target = some loaded →
      loaded.task ∈ board.tasks.rows ∧ loaded.task.status = .waiting) :
    middle.ledger.Linked := by
  rcases ledger_placeOrder h with ⟨loaded, hloaded, hledger⟩ | ⟨-, -, taskId, hledger⟩ |
    ⟨-, -, hledger⟩
  · obtain ⟨hmem, hwaiting⟩ := htarget loaded hloaded
    have htask : (loaded.task.id, TaskStatus.waiting) ∈ board.ledger.tasks :=
      Board.mem_ledger_tasks.mpr ⟨loaded.task, hmem, by rw [hwaiting]⟩
    rw [hledger]
    exact hlinked.assign_task hspares htask
  · rw [hledger]
    refine hlinked.openTask hspares ⟨order.entry, ?_, ?_⟩
    · exact Board.mem_ledger_entries.mpr ⟨order, horder, rfl⟩
    · rw [Order.orderId_entry, hid]
      exact List.mem_cons_self
  · rw [hledger]
    exact hlinked.assign_pending hspares

/-- A move of an order out of a task that keeps others, or from outside the tasks, takes no task
its last order. -/
theorem spares_of_other {board : Board} {order : Order} (hlinked : board.ledger.Linked)
    (horder : order ∈ board.orders.rows)
    (hother : ∀ taskId, order.taskId = some taskId →
      ∃ other ∈ board.ordersOf taskId, other.id ≠ order.id) :
    board.ledger.Spares [order.id] := by
  intro task htask
  obtain ⟨entry, hentry, hid⟩ := hlinked.2 task htask
  by_cases hsame : entry.orderId = order.id
  · obtain rfl := entry_eq_of_orderId horder hentry hsame
    obtain ⟨other, hmem, hne⟩ := hother task.1 hid
    obtain ⟨hrow, htaskId⟩ := mem_ordersOf.mp hmem
    exact ⟨other.entry, Board.mem_ledger_entries.mpr ⟨other, hrow, rfl⟩, by simpa using hne,
      htaskId⟩
  · exact ⟨entry, hentry, by simpa using hsame, hid⟩

/-- A move that strands no order keeps the agreement. -/
theorem linked_moveOrder {call : Call} {move : OrderMove} {board board' : Board} {u : Unit}
    (h : moveOrder call move board = .ok u board') (hlinked : board.ledger.Linked)
    (hstrands : ¬ StrandsOrder board move) : board'.ledger.Linked := by
  obtain ⟨hone, h⟩ := moveOrder_eq_ok.mp h
  split_ifs at h with hsame
  · rwa [← h]
  obtain ⟨htasks, hmachines, order, source, target, middle, hfind, hsource, htarget, -, hplace,
    rfl⟩ := h
  obtain ⟨horder, hid⟩ := (board.orders.find?_eq_some_iff).mp hfind
  rw [ledger_normalizeQueues]
  have hwaiting : ∀ loaded, target = some loaded →
      loaded.task ∈ board.tasks.rows ∧ loaded.task.status = .waiting := by
    rintro loaded rfl
    rcases (targetOf_eq_ok.mp htarget).2 with ⟨-, hnone, -⟩ | ⟨task, hmem, -, heq, hwaiting, -⟩
    · cases hnone
    · rw [Option.some.inj heq]
      exact ⟨hmem, hwaiting⟩
  rcases (sourceOf_eq_ok.mp hsource).2 with ⟨-, rfl, hplannable⟩ |
    ⟨task, htaskMem, hsourceId, rfl, htaskWaiting, htaskId⟩
  · refine linked_placeOrder hplace hlinked horder hid ?_ hwaiting
    rw [← hid]
    refine spares_of_other hlinked horder fun taskId htaskId ↦ ?_
    rw [hplannable.2] at htaskId
    cases htaskId
  · have hmem : order ∈ board.ordersOf task.id := mem_ordersOf.mpr ⟨horder, htaskId⟩
    unfold removeSource
    dsimp only
    by_cases hlength : (board.loadTask task).orders.length = 1
    · rw [if_pos hlength, Board.ledger_deleteTask]
      have honly : board.ordersOf task.id = [order] := ordersOf_eq_singleton hmem hlength
      rcases ledger_placeOrder hplace with ⟨loaded, rfl, -⟩ | ⟨rfl, hsome, -⟩ | ⟨-, -, hledger⟩
      · exfalso
        refine hstrands ⟨htasks, hmachines, order, horder, hid, task, htaskMem, hsourceId,
          htaskWaiting, honly, Or.inl ?_⟩
        rcases (targetOf_eq_ok.mp htarget).2 with ⟨-, hnone, -⟩ |
          ⟨goal, hgoal, hgoalId, -, hgoalWaiting, haccepting⟩
        · cases hnone
        · refine ⟨?_, goal, hgoal, hgoalId, ?_, hgoalWaiting, haccepting⟩
          · rw [hgoalId] at hone
            simpa using hone
          · intro heq
            rw [heq] at hgoalId
            refine hsame ⟨by rw [hsourceId]; rfl, ?_⟩
            rw [(truthy_eq_some_iff.mp hsourceId).1, (truthy_eq_some_iff.mp hgoalId).1]
      · exfalso
        refine hstrands ⟨htasks, hmachines, order, horder, hid, task, htaskMem, hsourceId,
          htaskWaiting, honly, Or.inr ?_⟩
        obtain ⟨machineId, hmachineId⟩ := Option.isSome_iff_exists.mp hsome
        rcases (targetOf_eq_ok.mp htarget).2 with ⟨hnone, -, haccepting⟩ | ⟨_, -, -, heq, -⟩
        · exact ⟨hnone, machineId, hmachineId, haccepting machineId hmachineId⟩
        · cases heq
      · rw [hledger]
        have hids : (board.loadTask task).orders.map Order.id = [move.orderId] := by
          change (board.ordersOf task.id).map Order.id = _
          rw [honly, ← hid]
          rfl
        rw [hids]
        refine hlinked.dissolve fun entry hentry ↦ ?_
        rw [← hids]
        exact mem_ordersOf_iff task.id hentry
    · rw [if_neg hlength]
      refine linked_placeOrder hplace hlinked horder hid ?_ hwaiting
      rw [← hid]
      refine spares_of_other hlinked horder fun taskId hother ↦ ?_
      obtain rfl := Option.some.inj (htaskId.symm.trans hother)
      exact exists_other_order hmem hlength

/-- A move that strands its order is accepted, and leaves the order in production without a
task. -/
theorem not_placed_moveOrder (call : Call) {move : OrderMove} {board : Board}
    (hstrands : StrandsOrder board move) :
    ∃ board', moveOrder call move board = .ok () board' ∧ ¬ board'.ledger.Placed := by
  obtain ⟨htasks, hmachines, order, horder, hid, source, hsource, hsourceId, hwaiting, honly,
    hdestination⟩ := hstrands
  have htaskId : order.taskId = some source.id :=
    (mem_ordersOf.mp (honly ▸ List.mem_cons_self)).2
  have hfind : board.orders.find? move.orderId = some order :=
    board.orders.find?_of_mem (k := move.orderId) horder hid
  have hsourceOf : sourceOf board move order board = .ok (some (board.loadTask source)) board :=
    sourceOf_eq_ok.mpr ⟨rfl, Or.inr ⟨source, hsource, hsourceId, rfl, hwaiting, htaskId⟩⟩
  have hremaining (machines : List Machine) :
      requireRemaining machines order (some (board.loadTask source)) board = .ok () board := by
    have hnil : remainingOrders (board.loadTask source) order = [] := by
      change (board.ordersOf source.id).filter _ = []
      rw [honly]
      simp
    unfold requireRemaining
    dsimp only
    rw [if_pos hnil]
    rfl
  obtain ⟨target, htarget, hplaces, hone, hdifferent⟩ : ∃ target,
      targetOf board move (lockedFor board move) order board = .ok target board ∧
      (target.isSome ∨ move.targetMachineId.isSome) ∧
      ((truthy move.targetTaskId).isNone ∨ (truthy move.targetMachineId).isNone) ∧
      move.sourceTaskId ≠ move.targetTaskId := by
    rcases hdestination with
      ⟨hmachine, goal, hgoal, hgoalId, hne, hgoalWaiting, haccepting⟩ |
      ⟨htaskNone, machineId, hmachineId, haccepting⟩
    · refine ⟨some (board.loadTask goal), targetOf_eq_ok.mpr ⟨rfl, Or.inr
        ⟨goal, hgoal, hgoalId, rfl, hgoalWaiting, haccepting⟩⟩, Or.inl rfl, Or.inr ?_, ?_⟩
      · rw [hmachine]
        rfl
      · rw [(truthy_eq_some_iff.mp hsourceId).1, (truthy_eq_some_iff.mp hgoalId).1]
        exact fun heq ↦ hne (Option.some.inj heq).symm
    · refine ⟨none, targetOf_eq_ok.mpr ⟨rfl, Or.inl ⟨htaskNone, rfl, ?_⟩⟩, Or.inr ?_, Or.inl ?_, ?_⟩
      · intro machineId' hmachineId'
        obtain rfl := Option.some.inj (hmachineId.symm.trans hmachineId')
        exact haccepting
      · rw [hmachineId]
        rfl
      · rw [htaskNone]
        rfl
      · intro heq
        rw [heq, htaskNone] at hsourceId
        cases hsourceId
  obtain ⟨middle, hplace⟩ := exists_placeOrder call move target board
  refine ⟨normalizeQueues call move (some (board.loadTask source))
    (removeSource call (some (board.loadTask source)) middle),
    moveOrder_eq_ok.mpr ⟨hone, ?_⟩, ?_⟩
  · rw [if_neg fun h ↦ hdifferent h.2]
    exact ⟨htasks, hmachines, order, some (board.loadTask source), target, middle, hfind, hsourceOf,
      htarget, hremaining _, hplace, rfl⟩
  · rw [ledger_normalizeQueues]
    unfold removeSource
    dsimp only
    have hlength : (board.loadTask source).orders.length = 1 := congrArg List.length honly
    rw [if_pos hlength, Board.ledger_deleteTask]
    obtain ⟨taskId, hentries⟩ : ∃ taskId, middle.ledger.entries =
        (board.ledger.assign [move.orderId] .producing taskId).entries := by
      rcases ledger_placeOrder hplace with ⟨loaded, rfl, hledger⟩ | ⟨-, -, taskId, hledger⟩ |
        ⟨rfl, hnone, -⟩
      · exact ⟨some loaded.task.id, by rw [hledger]⟩
      · exact ⟨some taskId, by rw [hledger]; rfl⟩
      · rw [hnone] at hplaces
        cases hplaces <;> contradiction
    have hmem : (⟨order.id, .producing, taskId⟩ : Entry) ∈ middle.ledger.entries := by
      rw [hentries]
      refine Ledger.mem_change.mpr ⟨order.entry, Board.mem_ledger_entries.mpr ⟨order, horder, rfl⟩,
        ?_⟩
      rw [if_pos (by rw [Order.orderId_entry, hid]; exact List.mem_cons_self)]
      rfl
    refine Ledger.not_placed_of_detached (e := ⟨order.id, .producing, none⟩) ?_ rfl (by simp)
    refine Ledger.mem_change.mpr ⟨_, hmem, if_pos ?_⟩
    change order.id ∈ (board.ordersOf source.id).map Order.id
    rw [honly]
    exact List.mem_cons_self

/-- Where orders and tasks agree, they agree after a move exactly when it strands no order. -/
theorem linked_moveOrder_iff (call : Call) (move : OrderMove) {board : Board}
    (hlinked : board.ledger.Linked) :
    (commit (moveOrder call move) board).ledger.Linked ↔ ¬ StrandsOrder board move := by
  constructor
  · intro h hstrands
    obtain ⟨board', hmove, hnot⟩ := not_placed_moveOrder call hstrands
    rw [commit_of_ok hmove] at h
    exact hnot h.1
  · intro hstrands
    rcases commit_cases (moveOrder call move) board with heq | ⟨u, board', hmove, heq⟩
    · rwa [heq]
    · rw [heq]
      exact linked_moveOrder hmove hlinked hstrands

end FilmOS
