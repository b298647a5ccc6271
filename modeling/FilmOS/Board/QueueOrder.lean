import FilmOS.Board.Queues

/-!
# The order of a machine's queue

What the operations do to the order of a queue, as lists of task identifiers. A renumbering of the
whole queue of a machine makes its list the queue (`queue_renumber`) and leaves the queues of other
machines alone (`activeQueue_renumber`); a normalisation therefore changes no order at all
(`queue_normalizeQueue`). `moveTask_keepsOrder`, `deleteTask_keepsOrder` and
`moveOrder_keepsOrder` assemble these steps for the operations of the production service, and
`queues_keep_order` joins them.
-/

set_option autoImplicit false
set_option relaxedAutoImplicit false

namespace FilmOS

open Transaction Production Scheduling ProductionService

namespace Board

/-- The tasks of a machine that are not done, in the order of the queue. -/
def queue (board : Board) (machineId : Id) : List Id :=
  (board.activeQueue machineId).map ProductionTask.id

/-- The queue of a machine is numbered from one without gaps. -/
def Numbered (board : Board) (machineId : Id) : Prop :=
  (board.activeQueue machineId).map ProductionTask.position =
    (List.range (board.queue machineId).length).map (fun index : ℕ ↦ (index : ℤ) + 1)

/-- The key that orders a queue. -/
def queuePlace (task : ProductionTask) : ℤ ×ₗ Id := toLex (task.position, task.id)

variable {board board' : Board} {machineId id : Id} {call : Call} {ids : List Id}

/-! ### Queues -/

theorem nodup_queuePlace (board : Board) (machineId : Id) :
    ((board.activeTasks machineId).map queuePlace).Nodup := by
  refine List.Nodup.map_on (fun first hfirst second hsecond hplace ↦ ?_)
    (board.tasks.nodup.of_map.filter _)
  refine board.tasks.eq_of_key_eq (List.mem_filter.mp hfirst).1 (List.mem_filter.mp hsecond).1 ?_
  exact congrArg Prod.snd (toLex.injective hplace)

theorem mem_queue : id ∈ board.queue machineId ↔
    ∃ task ∈ board.tasks.rows, task.machineId = machineId ∧ task.status ≠ .done ∧ task.id = id := by
  unfold queue activeQueue activeTasks
  simp only [List.mem_map, mem_orderBy, List.mem_filter, decide_eq_true_eq, and_assoc]

theorem nodup_queue (board : Board) (machineId : Id) : (board.queue machineId).Nodup := by
  have hperm := (orderBy_perm queuePlace (board.activeTasks machineId)).map ProductionTask.id
  refine (hperm.nodup_iff).mpr ?_
  exact board.tasks.nodup.sublist (List.filter_sublist.map _)

/-- Queues depend on the tasks only. -/
theorem activeQueue_congr (h : board'.tasks = board.tasks) (machineId : Id) :
    board'.activeQueue machineId = board.activeQueue machineId := by
  unfold activeQueue activeTasks
  rw [h]

theorem queue_congr (h : board'.tasks = board.tasks) (machineId : Id) :
    board'.queue machineId = board.queue machineId := by
  unfold queue
  rw [activeQueue_congr h]

/-- A task that belongs to one queue belongs to no other. -/
theorem notMem_queue {other : Id} (hne : other ≠ machineId) (hmem : id ∈ board.queue machineId) :
    id ∉ board.queue other := by
  intro hother
  obtain ⟨first, hfirst, hon, -, hid⟩ := mem_queue.mp hmem
  obtain ⟨second, hsecond, hon', -, hid'⟩ := mem_queue.mp hother
  have hsame := board.tasks.eq_of_key_eq hfirst hsecond (hid.trans hid'.symm)
  exact hne (by rw [← hon', ← hsame, hon])

/-! ### Renumbering -/

/-- A task after a renumbering. -/
def renumbered (call : Call) (ids : List Id) (task : ProductionTask) : ProductionTask :=
  if task.id ∈ ids then
    stamped (fun t ↦ { t with updatedAt := call.now })
      (fun task ↦ { task with position := ids.idxOf task.id + 1 }) task
  else task

theorem rows_renumber (call : Call) (ids : List Id) (board : Board) :
    (board.renumber call ids).tasks.rows = board.tasks.rows.map (renumbered call ids) := rfl

@[simp] theorem keys_renumber (call : Call) (ids : List Id) (board : Board) :
    (board.renumber call ids).tasks.keys = board.tasks.keys := by
  unfold renumber changeTasks
  simp only [Table.keys_mapRows]

theorem renumbered_of_notMem {task : ProductionTask} (h : task.id ∉ ids) :
    renumbered call ids task = task := if_neg h

theorem position_renumbered {task : ProductionTask} (h : task.id ∈ ids) :
    (renumbered call ids task).position = ids.idxOf task.id + 1 := by
  unfold renumbered stamped
  rw [if_pos h]
  split_ifs with hsame
  · exact (congrArg ProductionTask.position hsame).symm
  · rfl

/-- A renumbering keeps a task where it is and what it is. -/
theorem renumbered_frame (call : Call) (ids : List Id) (task : ProductionTask) :
    (renumbered call ids task).id = task.id ∧
      (renumbered call ids task).machineId = task.machineId ∧
        (renumbered call ids task).status = task.status := by
  unfold renumbered stamped
  split_ifs
  · exact ⟨rfl, rfl, rfl⟩
  · exact ⟨rfl, rfl, rfl⟩
  · exact ⟨rfl, rfl, rfl⟩

theorem activeTasks_renumber (call : Call) (ids : List Id) (board : Board) (machineId : Id) :
    (board.renumber call ids).activeTasks machineId =
      (board.activeTasks machineId).map (renumbered call ids) := by
  unfold activeTasks
  rw [rows_renumber, List.filter_map]
  congr 1
  refine List.filter_congr fun task _ ↦ ?_
  obtain ⟨-, hmachine, hstatus⟩ := renumbered_frame call ids task
  simp only [Function.comp_apply, hmachine, hstatus]

/-- A renumbering of tasks that are not in the queue of a machine leaves that queue alone. -/
theorem activeQueue_renumber (h : ∀ id ∈ board.queue machineId, id ∉ ids) :
    (board.renumber call ids).activeQueue machineId = board.activeQueue machineId := by
  unfold activeQueue
  rw [activeTasks_renumber, List.map_congr_left (g := id), List.map_id]
  intro task htask
  refine renumbered_of_notMem (h task.id ?_)
  exact List.mem_map_of_mem ((mem_orderBy _ _ _).mpr htask)

/-- The queue after a renumbering of exactly its tasks. -/
theorem queue_renumber (hnodup : ids.Nodup) (hids : ∀ id, id ∈ ids ↔ id ∈ board.queue machineId) :
    (board.renumber call ids).queue machineId = ids := by
  have hmem : ∀ id, id ∈ (board.renumber call ids).queue machineId ↔ id ∈ ids := by
    intro id
    rw [hids, mem_queue, mem_queue]
    constructor
    · rintro ⟨task, htask, hon, hactive, rfl⟩
      obtain ⟨old, hold, rfl⟩ := List.mem_map.mp htask
      obtain ⟨hid, hmachine, hstatus⟩ := renumbered_frame call ids old
      exact ⟨old, hold, hmachine ▸ hon, hstatus ▸ hactive, hid.symm⟩
    · rintro ⟨task, htask, hon, hactive, rfl⟩
      obtain ⟨hid, hmachine, hstatus⟩ := renumbered_frame call ids task
      exact ⟨renumbered call ids task, List.mem_map_of_mem htask, hmachine.trans hon,
        fun hdone ↦ hactive (hstatus.symm.trans hdone), hid⟩
  have hperm : ((board.renumber call ids).queue machineId).Perm ids :=
    (List.perm_ext_iff_of_nodup (nodup_queue _ machineId) hnodup).mpr hmem
  -- both lists are ordered by the place in the list of the renumbering
  refine @List.Perm.eq_of_pairwise Id (fun a b ↦ ids.idxOf a ≤ ids.idxOf b) _ _ ?_ ?_ ?_ hperm
  · intro a b ha hb hab hba
    exact (List.idxOf_inj ((hmem a).mp ha)).mp (le_antisymm hab hba)
  · refine List.pairwise_map.mpr ((pairwise_orderBy queuePlace _).imp_of_mem ?_)
    intro first second hfirst hsecond hle
    have hplace : ∀ task ∈ (board.renumber call ids).activeTasks machineId,
        task.position = ids.idxOf task.id + 1 := by
      intro task htask
      rw [activeTasks_renumber] at htask
      obtain ⟨old, hold, rfl⟩ := List.mem_map.mp htask
      rw [(renumbered_frame call ids old).1]
      refine position_renumbered ((hids old.id).mpr ?_)
      exact List.mem_map_of_mem ((mem_orderBy _ _ _).mpr hold)
    have hposition : first.position ≤ second.position := (Prod.Lex.le_iff'.mp hle).1
    rw [hplace first ((mem_orderBy _ _ _).mp hfirst),
      hplace second ((mem_orderBy _ _ _).mp hsecond)] at hposition
    omega
  · refine List.pairwise_iff_getElem.mpr fun i j hi hj hij ↦ ?_
    rw [hnodup.idxOf_getElem i hi, hnodup.idxOf_getElem j hj]
    exact hij.le

/-- A queue is numbered after a renumbering of exactly its tasks. -/
theorem numbered_renumber (hnodup : ids.Nodup)
    (hids : ∀ id, id ∈ ids ↔ id ∈ board.queue machineId) :
    (board.renumber call ids).Numbered machineId := by
  have hqueue : (board.renumber call ids).queue machineId = ids := queue_renumber hnodup hids
  have hplace : ∀ task ∈ (board.renumber call ids).activeQueue machineId,
      task.position = ids.idxOf task.id + 1 := by
    intro task htask
    have htask := (mem_orderBy _ _ _).mp htask
    rw [activeTasks_renumber] at htask
    obtain ⟨old, hold, rfl⟩ := List.mem_map.mp htask
    rw [(renumbered_frame call ids old).1]
    refine position_renumbered ((hids old.id).mpr ?_)
    exact List.mem_map_of_mem ((mem_orderBy _ _ _).mpr hold)
  have hpositions : ((board.renumber call ids).activeQueue machineId).map ProductionTask.position =
      ((board.renumber call ids).queue machineId).map (fun id ↦ (ids.idxOf id : ℤ) + 1) := by
    unfold queue
    rw [List.map_map]
    exact List.map_congr_left hplace
  unfold Numbered
  rw [hpositions, hqueue]
  refine List.ext_getElem (by simp) fun i hi hi' ↦ ?_
  rw [List.getElem_map, List.getElem_map, List.getElem_range, hnodup.idxOf_getElem]

/-- A queue that a renumbering does not touch stays numbered. -/
theorem Numbered.renumber_of_notMem (hnumbered : board.Numbered machineId)
    (h : ∀ id ∈ board.queue machineId, id ∉ ids) :
    (board.renumber call ids).Numbered machineId := by
  unfold Numbered queue at *
  rwa [activeQueue_renumber h]

/-- A normalisation keeps every queue as it is ordered. -/
theorem queue_normalizeQueue (call : Call) (normalized : Id) (board : Board) (machineId : Id) :
    (board.normalizeQueue call normalized).queue machineId = board.queue machineId := by
  by_cases hsame : machineId = normalized
  · rw [hsame]
    exact queue_renumber (nodup_queue board normalized) (fun _ ↦ Iff.rfl)
  · have huntouched : ∀ id ∈ board.queue machineId, id ∉ board.queue normalized :=
      fun id hid ↦ notMem_queue (Ne.symm hsame) hid
    exact congrArg (List.map ProductionTask.id) (activeQueue_renumber huntouched)

/-- A normalisation numbers its queue. -/
theorem numbered_normalizeQueue (call : Call) (board : Board) (machineId : Id) :
    (board.normalizeQueue call machineId).Numbered machineId :=
  numbered_renumber (nodup_queue board machineId) (fun _ ↦ Iff.rfl)

/-- A normalisation keeps the numbering of the other queues. -/
theorem Numbered.normalizeQueue (h : board.Numbered machineId) (call : Call) (normalized : Id) :
    (board.normalizeQueue call normalized).Numbered machineId := by
  by_cases hsame : machineId = normalized
  · rw [hsame]
    exact numbered_normalizeQueue call board normalized
  · exact h.renumber_of_notMem fun id hid ↦ notMem_queue (Ne.symm hsame) hid

/-- A renumbering keeps the tasks that are not in its list. -/
theorem mem_renumber_of_notMem {task : ProductionTask} (htask : task ∈ board.tasks.rows)
    (h : task.id ∉ ids) : task ∈ (board.renumber call ids).tasks.rows := by
  rw [rows_renumber]
  exact List.mem_map.mpr ⟨task, htask, renumbered_of_notMem h⟩

/-- A task that is done, or of another machine, is in no list of a queue. -/
theorem notMem_queue_of_task {task : ProductionTask} (htask : task ∈ board.tasks.rows)
    (h : task.status = .done ∨ task.machineId ≠ machineId) : task.id ∉ board.queue machineId := by
  intro hmem
  obtain ⟨other, hother, hon, hactive, hid⟩ := mem_queue.mp hmem
  have hsame := board.tasks.eq_of_key_eq hother htask hid
  rw [hsame] at hon hactive
  exact h.elim hactive (fun hne ↦ hne hon)

/-! ### Tasks that come and go -/

/-- A deleted task leaves its queue. -/
theorem queue_deleteTask (call : Call) (loaded : LoadedTask) (board : Board) (machineId : Id) :
    (board.deleteTask call loaded).queue machineId =
      (board.queue machineId).filter (· ≠ loaded.task.id) := by
  have htasks : (board.deleteTask call loaded).activeTasks machineId =
      (board.activeTasks machineId).filter (fun task ↦ task.id ≠ loaded.task.id) := by
    change (board.tasks.rows.filter _).filter _ = _
    rw [List.filter_comm]
    rfl
  unfold queue activeQueue
  rw [htasks, List.filter_map]
  exact congrArg (List.map ProductionTask.id) (orderBy_filter (nodup_queuePlace board machineId) _)

/-- A task that is added behind a queue becomes its last. -/
theorem queue_addTask {target : Id} {notes : Option String}
    (hadd : addTask call target (nextPosition (board.activeTasks target)) notes board =
      .ok id board') (machineId : Id) :
    board'.queue machineId =
      board.queue machineId ++ (if machineId = target then [id] else []) := by
  obtain ⟨id', board'', hadd', -, tasks, hrows, rfl⟩ :=
    exists_addTask call target (nextPosition (board.activeTasks target)) notes board
  rw [hadd] at hadd'
  cases hadd'
  by_cases hsame : machineId = target
  · have htasks : ({ board with tasks, issued := id :: board.issued } : Board).activeTasks
        machineId = board.activeTasks machineId ++
          [⟨id, target, nextPosition (board.activeTasks target), .waiting, notes, call.now⟩] := by
      change tasks.rows.filter _ = _
      rw [hrows, List.filter_append, hsame]
      congr 1
      simp
    unfold queue activeQueue
    rw [htasks, if_pos hsame, hsame]
    refine (congrArg (List.map ProductionTask.id) (orderBy_concat
      (nodup_queuePlace board target) fun other hother ↦ ?_)).trans (List.map_append ..)
    exact Prod.Lex.toLex_lt_toLex.mpr (.inl (lt_nextPosition hother))
  · have htasks : ({ board with tasks, issued := id :: board.issued } : Board).activeTasks
        machineId = board.activeTasks machineId := by
      change tasks.rows.filter _ = _
      rw [hrows, List.filter_append]
      simp [Ne.symm hsame, activeTasks]
    unfold queue activeQueue
    rw [htasks, if_neg hsame, List.append_nil]

/-- What an operation keeps that takes the listed tasks out of the queues or puts them in, and
renumbers the queues of the listed machines: the order of all other tasks in every queue. -/
structure KeepsOrder (changed machines : List Id) (board board' : Board) : Prop where
  order : ∀ machineId, (board'.queue machineId).filter (· ∉ changed) =
    (board.queue machineId).filter (· ∉ changed)
  numbered : ∀ machineId ∈ machines, board'.Numbered machineId
  untouched : ∀ task ∈ board.tasks.rows, task.id ∉ changed →
    task.status = .done ∨ task.machineId ∉ machines → task ∈ board'.tasks.rows

/-! ### A task that changes its machine -/

/-- Moving a task to another machine does not rename it. -/
theorem id_reassigned (targetId : Id) (row : ProductionTask) :
    { row with machineId := targetId }.id = row.id :=
  rfl

/-- The task on another machine. -/
def reassign (call : Call) (taskId targetId : Id) (board : Board) : Board :=
  board.changeTasks call [taskId] (fun row ↦ { row with machineId := targetId })
    (id_reassigned targetId)

@[simp] theorem keys_reassign (call : Call) (taskId targetId : Id) (board : Board) :
    (board.reassign call taskId targetId).tasks.keys = board.tasks.keys := by
  unfold reassign changeTasks
  simp only [Table.keys_mapRows]

theorem rows_reassign_of_ne {taskId targetId : Id} {task : ProductionTask}
    (htask : task ∈ board.tasks.rows) (hne : task.id ≠ taskId) :
    task ∈ (board.reassign call taskId targetId).tasks.rows :=
  List.mem_map.mpr ⟨task, htask, if_neg (fun hmem ↦ hne (List.mem_singleton.mp hmem))⟩

/-- The tasks after the change: the others as they were, and the one on its new machine. -/
theorem rows_reassign {taskId targetId : Id} {row : ProductionTask}
    (hrow : row ∈ (board.reassign call taskId targetId).tasks.rows) :
    (row ∈ board.tasks.rows ∧ row.id ≠ taskId) ∨
      ∃ old ∈ board.tasks.rows, old.id = taskId ∧ row.id = taskId ∧ row.machineId = targetId ∧
        row.status = old.status := by
  obtain ⟨old, hold, rfl⟩ := List.mem_map.mp hrow
  by_cases hid : old.id = taskId
  · refine .inr ⟨old, hold, hid, ?_⟩
    rw [if_pos (List.mem_singleton.mpr hid)]
    unfold stamped
    split_ifs with hsame
    · exact ⟨hid, (congrArg ProductionTask.machineId hsame).symm, rfl⟩
    · exact ⟨hid, rfl, rfl⟩
  · rw [if_neg (fun hmem ↦ hid (List.mem_singleton.mp hmem))]
    exact .inl ⟨hold, hid⟩

/-- The members of a queue after the change. -/
theorem mem_queue_reassign {targetId : Id} {task : ProductionTask}
    (htask : task ∈ board.tasks.rows) (hactive : task.status ≠ .done) :
    id ∈ (board.reassign call task.id targetId).queue machineId ↔
      (id = task.id ∧ machineId = targetId) ∨ (id ≠ task.id ∧ id ∈ board.queue machineId) := by
  constructor
  · intro hmem
    obtain ⟨row, hrow, hon, hrowActive, rfl⟩ := mem_queue.mp hmem
    rcases rows_reassign hrow with ⟨hold, hne⟩ | ⟨old, -, -, hid, hmachine, -⟩
    · exact .inr ⟨hne, mem_queue.mpr ⟨row, hold, hon, hrowActive, rfl⟩⟩
    · exact .inl ⟨hid, hon.symm.trans hmachine⟩
  · rintro (⟨rfl, rfl⟩ | ⟨hne, hmem⟩)
    · have hrow := List.mem_map_of_mem (f := fun row : ProductionTask ↦
        if row.id ∈ [task.id] then
          stamped (fun t ↦ { t with updatedAt := call.now })
            (fun row ↦ { row with machineId }) row
        else row) htask
      rw [if_pos (List.mem_singleton.mpr rfl)] at hrow
      refine mem_queue.mpr ⟨_, hrow, ?_⟩
      unfold stamped
      split_ifs with hsame
      · exact ⟨(congrArg ProductionTask.machineId hsame).symm, hactive, rfl⟩
      · exact ⟨rfl, hactive, rfl⟩
    · obtain ⟨row, hrow, hon, hrowActive, rfl⟩ := mem_queue.mp hmem
      exact mem_queue.mpr ⟨row, rows_reassign_of_ne hrow hne, hon, hrowActive, rfl⟩

/-- The queue of a third machine does not change. -/
theorem queue_reassign {targetId : Id} {task : ProductionTask} (htask : task ∈ board.tasks.rows)
    (hsource : machineId ≠ task.machineId) (htarget : machineId ≠ targetId) :
    (board.reassign call task.id targetId).queue machineId = board.queue machineId := by
  have htasks : (board.reassign call task.id targetId).activeTasks machineId =
      board.activeTasks machineId := by
    unfold activeTasks reassign changeTasks
    rw [Table.rows_mapRows, List.filter_map]
    have hother : ∀ row ∈ board.tasks.rows, row.machineId = machineId → row.id ∉ [task.id] := by
      intro row hrow hon hmem
      have hsame := board.tasks.eq_of_key_eq hrow htask (List.mem_singleton.mp hmem)
      exact hsource (hon ▸ congrArg ProductionTask.machineId hsame)
    rw [List.filter_congr (q := fun row ↦
      decide (row.machineId = machineId ∧ row.status ≠ .done))]
    · refine (List.map_congr_left fun row hrow ↦ ?_).trans (List.map_id _)
      obtain ⟨hrow, hon⟩ := List.mem_filter.mp hrow
      exact if_neg (hother row hrow (of_decide_eq_true hon).1)
    · intro row hrow
      rw [Function.comp_apply]
      by_cases hid : row.id ∈ [task.id]
      · have hsame := board.tasks.eq_of_key_eq hrow htask (List.mem_singleton.mp hid)
        have hmoved : (stamped (fun t : ProductionTask ↦ { t with updatedAt := call.now })
            (fun row ↦ { row with machineId := targetId }) row).machineId = targetId := by
          unfold stamped
          split_ifs with heq
          · exact (congrArg ProductionTask.machineId heq).symm
          · rfl
        rw [if_pos hid, hmoved, hsame]
        simp [Ne.symm htarget, Ne.symm hsource]
      · rw [if_neg hid]
  unfold queue activeQueue
  rw [htasks]

end Board

open Board

variable {board board' : Board} {call : Call}

/-! ### Moves of tasks -/

/-- A list with one more element at an index, and without it again. -/
theorem filter_insertIdx {ids : List Id} {taskId : Id} {index : ℕ} (h : taskId ∉ ids)
    (hindex : index ≤ ids.length) :
    (ids.insertIdx index taskId).filter (· ∉ [taskId]) = ids := by
  have hkeep : ids.filter (· ∉ [taskId]) = ids := by
    refine List.filter_eq_self.mpr fun id hid ↦ decide_eq_true ?_
    intro hmem
    exact h (List.mem_singleton.mp hmem ▸ hid)
  have hsub := (List.sublist_insertIdx ids index taskId).filter (fun id ↦ id ∉ [taskId])
  have hperm := (List.perm_insertIdx taskId ids hindex).filter (fun id ↦ id ∉ [taskId])
  rw [List.filter_cons_of_neg (by simp), hkeep] at hperm
  rw [hkeep] at hsub
  exact (hsub.eq_of_length hperm.length_eq.symm).symm

/-- A waiting task is inserted into a queue: what a move within a machine and a move across
machines share. -/
structure Inserted (taskId machineId : Id) (targetIndex : ℕ) (board board' : Board) : Prop where
  index : (board'.queue machineId)[min targetIndex
    ((board.queue machineId).filter (· ∉ [taskId])).length]? = some taskId
  others : (board'.queue machineId).filter (· ∉ [taskId]) =
    (board.queue machineId).filter (· ∉ [taskId])

/-- The queue after an insertion. -/
theorem inserted_of_queue {taskId machineId : Id} {targetIndex : ℕ}
    (h : board'.queue machineId = ((board.queue machineId).filter (· ∉ [taskId])).insertIdx
      (min targetIndex ((board.queue machineId).filter (· ∉ [taskId])).length) taskId) :
    Inserted taskId machineId targetIndex board board' := by
  have hout : taskId ∉ (board.queue machineId).filter (· ∉ [taskId]) := by
    intro hmem
    exact of_decide_eq_true (List.mem_filter.mp hmem).2 (List.mem_singleton.mpr rfl)
  constructor
  · rw [h, List.getElem?_insertIdx_self, if_pos (min_le_right _ _)]
  · rw [h, filter_insertIdx hout (min_le_right _ _)]

/-- A move within a machine. -/
theorem keepsOrder_moveWithin (call : Call) {task : ProductionTask} (targetIndex : ℕ)
    (htask : task ∈ board.tasks.rows) (hactive : task.status ≠ .done) :
    let others := (board.queue task.machineId).filter (· ∉ [task.id])
    let moved := board.renumber call (others.insertIdx (min targetIndex others.length) task.id)
    Inserted task.id task.machineId targetIndex board moved ∧
      KeepsOrder [task.id] [task.machineId, task.machineId] board moved := by
  intro others moved
  have hin : task.id ∈ board.queue task.machineId := mem_queue.mpr ⟨task, htask, rfl, hactive, rfl⟩
  have hids : ∀ id, id ∈ others.insertIdx (min targetIndex others.length) task.id ↔
      id ∈ board.queue task.machineId := by
    intro id
    rw [mem_insertIdx_min, List.mem_filter, decide_eq_true_eq, List.mem_singleton]
    by_cases hid : id = task.id
    · exact iff_of_true (.inl hid) (hid ▸ hin)
    · exact ⟨fun h ↦ (h.resolve_left hid).1, fun h ↦ .inr ⟨h, hid⟩⟩
  have hout : task.id ∉ others := fun hmem ↦
    of_decide_eq_true (List.mem_filter.mp hmem).2 (List.mem_singleton.mpr rfl)
  have hnodup : (others.insertIdx (min targetIndex others.length) task.id).Nodup := by
    refine (List.perm_insertIdx task.id others (min_le_right _ _)).nodup_iff.mpr ?_
    exact List.nodup_cons.mpr ⟨hout, (nodup_queue board task.machineId).filter _⟩
  have hqueue : moved.queue task.machineId = _ := queue_renumber hnodup hids
  have hnumbered : moved.Numbered task.machineId := numbered_renumber hnodup hids
  have hinserted : Inserted task.id task.machineId targetIndex board moved :=
    inserted_of_queue hqueue
  refine ⟨hinserted, ⟨fun machineId ↦ ?_, ?_, ?_⟩⟩
  · by_cases hsame : machineId = task.machineId
    · rw [hsame]
      exact hinserted.others
    · have huntouched : ∀ id ∈ board.queue machineId,
          id ∉ others.insertIdx (min targetIndex others.length) task.id :=
        fun id hid hmem ↦ notMem_queue (Ne.symm hsame) hid ((hids id).mp hmem)
      exact congrArg (fun rows ↦ (rows.map ProductionTask.id).filter (· ∉ [task.id]))
        (activeQueue_renumber huntouched)
  · intro machineId hmachine
    have hsame : machineId = task.machineId := by simpa using hmachine
    rwa [hsame]
  · intro other hother _ hapart
    refine mem_renumber_of_notMem hother fun hmem ↦ ?_
    have hne : other.status = .done ∨ other.machineId ≠ task.machineId :=
      hapart.imp id (fun hnot hsame ↦ hnot (hsame ▸ List.mem_cons_self))
    exact notMem_queue_of_task hother hne ((hids other.id).mp hmem)

/-- A move to another machine. -/
theorem keepsOrder_moveAcross (call : Call) {task : ProductionTask} {targetId : Id}
    (targetIndex : ℕ) (htask : task ∈ board.tasks.rows) (hactive : task.status ≠ .done)
    (hne : targetId ≠ task.machineId) :
    let others := (board.queue task.machineId).filter (· ∉ [task.id])
    let target := (board.queue targetId).filter (· ∉ [task.id])
    let moved := ((board.reassign call task.id targetId).renumber call others).renumber call
      (target.insertIdx (min targetIndex target.length) task.id)
    Inserted task.id targetId targetIndex board moved ∧
      KeepsOrder [task.id] [task.machineId, targetId] board moved := by
  intro others target moved
  set middle := (board.reassign call task.id targetId).renumber call others with hmiddle
  have hothers : ∀ id, id ∈ others ↔ id ≠ task.id ∧ id ∈ board.queue task.machineId := by
    intro id
    rw [List.mem_filter, decide_eq_true_eq, List.mem_singleton, and_comm]
  have hin : task.id ∈ board.queue task.machineId := mem_queue.mpr ⟨task, htask, rfl, hactive, rfl⟩
  -- the queue that the task leaves
  have hsourceIds : ∀ id, id ∈ others ↔
      id ∈ (board.reassign call task.id targetId).queue task.machineId := by
    intro id
    rw [hothers, mem_queue_reassign htask hactive]
    exact ⟨.inr, fun h ↦ h.resolve_left fun h ↦ hne h.2.symm⟩
  have hsourceNodup : others.Nodup := (nodup_queue board task.machineId).filter _
  have hsource : middle.queue task.machineId = others := queue_renumber hsourceNodup hsourceIds
  have hsourceNumbered : middle.Numbered task.machineId :=
    numbered_renumber hsourceNodup hsourceIds
  -- the queue that it joins
  have htargetQueue : target = board.queue targetId := by
    refine List.filter_eq_self.mpr fun id hid ↦ decide_eq_true fun hmem ↦ ?_
    rw [List.mem_singleton.mp hmem] at hid
    exact notMem_queue hne hin hid
  have hout : task.id ∉ target := fun hmem ↦
    of_decide_eq_true (List.mem_filter.mp hmem).2 (List.mem_singleton.mpr rfl)
  have hmiddleTarget : middle.activeQueue targetId =
      (board.reassign call task.id targetId).activeQueue targetId := by
    refine activeQueue_renumber fun id hid hmem ↦ ?_
    obtain ⟨hidNe, hidIn⟩ := (hothers id).mp hmem
    rcases (mem_queue_reassign htask hactive).mp hid with ⟨heq, -⟩ | ⟨-, hidTarget⟩
    · exact hidNe heq
    · exact notMem_queue hne hidIn hidTarget
  have htargetIds : ∀ id, id ∈ target.insertIdx (min targetIndex target.length) task.id ↔
      id ∈ middle.queue targetId := by
    intro id
    have hqueue : middle.queue targetId = (board.reassign call task.id targetId).queue targetId :=
      congrArg (List.map ProductionTask.id) hmiddleTarget
    rw [hqueue, mem_queue_reassign htask hactive, mem_insertIdx_min, ← htargetQueue]
    by_cases hid : id = task.id
    · exact iff_of_true (.inl hid) (.inl ⟨hid, rfl⟩)
    · exact ⟨fun h ↦ .inr ⟨hid, h.resolve_left hid⟩, fun h ↦ .inr (h.elim (absurd ·.1 hid) (·.2))⟩
  have htargetNodup : (target.insertIdx (min targetIndex target.length) task.id).Nodup := by
    refine (List.perm_insertIdx task.id target (min_le_right _ _)).nodup_iff.mpr ?_
    exact List.nodup_cons.mpr ⟨hout, (nodup_queue board targetId).filter _⟩
  have hqueue : moved.queue targetId = _ := queue_renumber htargetNodup htargetIds
  have hinserted : Inserted task.id targetId targetIndex board moved := inserted_of_queue hqueue
  -- the other machines
  have hlast : ∀ machineId, machineId ≠ targetId → ∀ id ∈ middle.queue machineId,
      id ∉ target.insertIdx (min targetIndex target.length) task.id :=
    fun machineId hmachine id hid hmem ↦
      notMem_queue (Ne.symm hmachine) hid ((htargetIds id).mp hmem)
  refine ⟨hinserted, ⟨fun machineId ↦ ?_, ?_, ?_⟩⟩
  · by_cases hsameTarget : machineId = targetId
    · rw [hsameTarget]
      exact hinserted.others
    · have hmoved : moved.queue machineId = middle.queue machineId :=
        congrArg (List.map ProductionTask.id) (activeQueue_renumber (hlast machineId hsameTarget))
      rw [hmoved]
      by_cases hsameSource : machineId = task.machineId
      · rw [hsameSource, hsource, List.filter_filter]
        exact List.filter_congr fun id _ ↦ Bool.and_self _
      · have hthird : middle.queue machineId =
            (board.reassign call task.id targetId).queue machineId := by
          refine congrArg (List.map ProductionTask.id) (activeQueue_renumber fun id hid hmem ↦ ?_)
          rw [queue_reassign htask hsameSource hsameTarget] at hid
          exact notMem_queue hsameSource ((hothers id).mp hmem).2 hid
        rw [hthird, queue_reassign htask hsameSource hsameTarget]
  · intro machineId hmachine
    rcases List.mem_cons.mp hmachine with hsame | hsame
    · rw [hsame]
      exact hsourceNumbered.renumber_of_notMem (hlast task.machineId (Ne.symm hne))
    · rw [List.mem_singleton.mp hsame]
      exact numbered_renumber htargetNodup htargetIds
  · intro other hother hnot hapart
    have hid : other.id ≠ task.id := fun heq ↦ hnot (List.mem_singleton.mpr heq)
    have hapartFrom : ∀ machineId ∈ [task.machineId, targetId],
        other.status = .done ∨ other.machineId ≠ machineId :=
      fun machineId hmem ↦ hapart.imp id (fun hnot hsame ↦ hnot (hsame ▸ hmem))
    refine mem_renumber_of_notMem (mem_renumber_of_notMem (rows_reassign_of_ne hother hid) ?_) ?_
    · intro hmem
      exact notMem_queue_of_task hother (hapartFrom _ List.mem_cons_self) ((hothers _).mp hmem).2
    · intro hmem
      rcases mem_insertIdx_min.mp hmem with heq | hmem
      · exact hid heq
      · rw [htargetQueue] at hmem
        exact notMem_queue_of_task hother
          (hapartFrom _ (List.mem_cons_of_mem _ List.mem_cons_self)) hmem

/-- An accepted move of a task puts it at its index among the other unfinished tasks of the target
machine and keeps everything else in order. -/
theorem moveTask_keepsOrder {taskId targetMachineId : Id} {targetIndex : ℕ}
    (h : moveTask call taskId targetMachineId targetIndex board = .ok () board') :
    ∃ task, board.tasks.find? taskId = some task ∧
      Inserted taskId targetMachineId targetIndex board board' ∧
        KeepsOrder [taskId] [task.machineId, targetMachineId] board board' ∧
          board'.tasks.keys = board.tasks.keys ∧ board'.orders = board.orders := by
  obtain ⟨task, machine, total, hfind, hwaiting, -, -, -, hboard⟩ := moveTask_ok h
  obtain ⟨htask, hid⟩ := (board.tasks.find?_eq_some_iff).mp hfind
  obtain rfl : task.id = taskId := hid
  have hactive : task.status ≠ .done := by
    rw [hwaiting]
    decide
  have hfilter : ∀ ids : List Id, ids.filter (· ≠ task.id) = ids.filter (· ∉ [task.id]) :=
    fun ids ↦ List.filter_congr fun id _ ↦ by simp
  refine ⟨task, hfind, ?_⟩
  by_cases hsame : targetMachineId = task.machineId
  · have hmoved : board' = board.renumber call
        (((board.queue task.machineId).filter (· ≠ task.id)).insertIdx
          (min targetIndex ((board.queue task.machineId).filter (· ≠ task.id)).length) task.id) :=
      hboard.trans (if_pos hsame)
    obtain ⟨hinserted, hkeeps⟩ := keepsOrder_moveWithin call targetIndex htask hactive
    rw [hsame, hmoved, hfilter]
    exact ⟨hinserted, hkeeps, keys_renumber call _ board, rfl⟩
  · have hmoved : board' = ((board.reassign call task.id targetMachineId).renumber call
        ((board.queue task.machineId).filter (· ≠ task.id))).renumber call
          ((board.queue targetMachineId).insertIdx
            (min targetIndex (board.queue targetMachineId).length) task.id) :=
      hboard.trans (if_neg hsame)
    obtain ⟨hinserted, hkeeps⟩ := keepsOrder_moveAcross call targetIndex htask hactive
      hsame
    have hin : task.id ∈ board.queue task.machineId :=
      mem_queue.mpr ⟨task, htask, rfl, hactive, rfl⟩
    have htarget : (board.queue targetMachineId).filter (· ∉ [task.id]) =
        board.queue targetMachineId := by
      refine List.filter_eq_self.mpr fun id hid ↦ decide_eq_true fun hmem ↦ ?_
      rw [List.mem_singleton.mp hmem] at hid
      exact notMem_queue hsame hin hid
    rw [htarget] at hinserted hkeeps
    rw [hmoved, hfilter]
    refine ⟨hinserted, hkeeps, ?_, rfl⟩
    rw [keys_renumber, keys_renumber, keys_reassign]

/-! ### Normalisations -/

/-- An accepted deletion takes the task out of its queue. -/
theorem deleteTask_keepsOrder {taskId : Id} (h : deleteTask call taskId board = .ok () board') :
    ∃ task, board.tasks.find? taskId = some task ∧ taskId ∉ board'.tasks.keys ∧
      KeepsOrder [taskId] [task.machineId] board board' := by
  obtain ⟨task, hfind, hwaiting, rfl⟩ := deleteTask_ok h
  obtain ⟨htask, hid⟩ := (board.tasks.find?_eq_some_iff).mp hfind
  obtain rfl : task.id = taskId := hid
  set freed := board.assignOrders call ((board.ordersOf task.id).map Order.id) .pending none
  have hremoved : ∀ row ∈ board.tasks.rows, row.id ∉ [task.id] →
      row ∈ (freed.deleteTask call (board.loadTask task)).tasks.rows := by
    intro row hrow hnot
    refine List.mem_filter.mpr ⟨hrow, decide_eq_true fun heq ↦ hnot ?_⟩
    exact List.mem_singleton.mpr heq
  refine ⟨task, hfind, ?_, ⟨fun machineId ↦ ?_, ?_, ?_⟩⟩
  · intro hmem
    unfold normalizeQueue at hmem
    rw [keys_renumber] at hmem
    obtain ⟨row, hrow, hkey⟩ := (Table.mem_keys _).mp hmem
    exact of_decide_eq_true (List.mem_filter.mp hrow).2 hkey
  · rw [queue_normalizeQueue, queue_deleteTask, List.filter_filter]
    refine List.filter_congr fun id _ ↦ ?_
    by_cases hid : id = task.id
    · simp [hid]
    · simp [hid, Board.loadTask]
  · intro machineId hmachine
    rw [List.mem_singleton.mp hmachine]
    exact numbered_normalizeQueue call _ _
  · intro row hrow hnot hapart
    have hrow' := hremoved row hrow hnot
    refine mem_renumber_of_notMem hrow' (notMem_queue_of_task hrow' ?_)
    exact hapart.imp id (fun hmachine hsame ↦ hmachine (List.mem_singleton.mpr hsame))

/-- The queues of the listed machines are normalised one after another. -/
theorem normalizeAll_keeps (call : Call) (machineIds : List Id) :
    ∀ board : Board,
      let normalized := machineIds.foldl (fun board machineId ↦ board.normalizeQueue call machineId)
        board
      (∀ machineId, normalized.queue machineId = board.queue machineId) ∧
        (∀ machineId, machineId ∈ machineIds ∨ board.Numbered machineId →
          normalized.Numbered machineId) ∧
        ∀ task ∈ board.tasks.rows, task.status = .done ∨ task.machineId ∉ machineIds →
          task ∈ normalized.tasks.rows := by
  induction machineIds with
  | nil =>
    intro board
    exact ⟨fun _ ↦ rfl, fun machineId h ↦ h.resolve_left List.not_mem_nil, fun _ h _ ↦ h⟩
  | cons first rest ih =>
    intro board
    obtain ⟨hqueue, hnumbered, htasks⟩ := ih (board.normalizeQueue call first)
    refine ⟨fun machineId ↦ ?_, fun machineId h ↦ hnumbered machineId ?_, ?_⟩
    · exact (hqueue machineId).trans (queue_normalizeQueue call first board machineId)
    · rcases h with hmem | hold
      · rcases List.mem_cons.mp hmem with hsame | hmem
        · rw [hsame]
          exact .inr (numbered_normalizeQueue call board first)
        · exact .inl hmem
      · exact .inr (hold.normalizeQueue call first)
    · intro task htask hapart
      refine htasks task (mem_renumber_of_notMem htask (notMem_queue_of_task htask ?_)) ?_
      · exact hapart.imp id (fun hnot hsame ↦ hnot (hsame ▸ List.mem_cons_self))
      · exact hapart.imp id (fun hnot hmem ↦ hnot (List.mem_cons_of_mem _ hmem))

/-! ### Moves of orders -/

/-- The machines whose queues a move of an order renumbers: that of the source, and the one that the
move names. -/
def ProductionService.OrderMove.renumberedMachines (board : Board) (move : OrderMove) : List Id :=
  (((truthy move.sourceTaskId).bind board.tasks.find?).map ProductionTask.machineId).toList ++
    move.targetMachineId.toList

/-- Placing an order adds at most a task behind the queue of the machine that the move names. -/
theorem placeOrder_queues {move : OrderMove} {target : Option LoadedTask} {middle : Board}
    (h : placeOrder call move target board = .ok () middle) :
    ∃ added : List Id, (∀ id ∈ added, id ∉ board.tasks.keys) ∧
      (∀ machineId, middle.queue machineId =
        board.queue machineId ++ if move.targetMachineId = some machineId then added else []) ∧
      ∀ task ∈ board.tasks.rows, task ∈ middle.tasks.rows := by
  have hsame : ∀ {middle : Board}, middle.tasks = board.tasks →
      ∃ added : List Id, (∀ id ∈ added, id ∉ board.tasks.keys) ∧
        (∀ machineId, middle.queue machineId =
          board.queue machineId ++ if move.targetMachineId = some machineId then added else []) ∧
        ∀ task ∈ board.tasks.rows, task ∈ middle.tasks.rows := by
    intro middle htasks
    refine ⟨[], fun _ hid ↦ absurd hid List.not_mem_nil, fun machineId ↦ ?_, fun _ htask ↦ ?_⟩
    · rw [ite_self, List.append_nil]
      exact queue_congr htasks machineId
    · rwa [htasks]
  unfold placeOrder at h
  cases target with
  | some loaded =>
    rw [modify_eq_ok] at h
    rw [← h]
    exact hsame rfl
  | none =>
    cases hmachine : move.targetMachineId with
    | some target =>
      simp only [hmachine, get_bind_eq_ok] at h
      obtain ⟨taskId, opened, hadd, h⟩ := bind_eq_ok.mp h
      rw [modify_eq_ok] at h
      obtain ⟨id', opened', hadd', hfresh, tasks, hrows, hopened⟩ := exists_addTask call target
        (nextPosition (board.activeTasks target)) none board
      rw [hadd] at hadd'
      cases hadd'
      rw [← h]
      refine ⟨[taskId], fun id hid ↦ ?_, fun machineId ↦ ?_, fun task htask ↦ ?_⟩
      · rw [List.mem_singleton.mp hid]
        intro hmem
        refine hfresh ?_
        unfold usedIds
        simp only [List.mem_append]
        exact .inl (.inr hmem)
      · have hqueue : (opened.assignOrders call [move.orderId] .producing (some taskId)).queue
            machineId = opened.queue machineId := queue_congr rfl machineId
        rw [hqueue, queue_addTask hadd machineId]
        simp only [Option.some.injEq, eq_comm]
      · change task ∈ opened.tasks.rows
        rw [hopened]
        change task ∈ tasks.rows
        rw [hrows]
        exact List.mem_append_left _ htask
    | none =>
      simp only [hmachine, modify_eq_ok] at h
      rw [← h, ← hmachine]
      exact hsame rfl

/-- Removing an emptied source takes at most its task out of the queues. -/
theorem removeSource_queues (call : Call) (source : Option LoadedTask) (board : Board) :
    ∃ removed : List Id, (∀ id ∈ removed, ∃ loaded, source = some loaded ∧ id = loaded.task.id) ∧
      (∀ machineId, (removeSource call source board).queue machineId =
        (board.queue machineId).filter (· ∉ removed)) ∧
      ∀ task ∈ board.tasks.rows, task.id ∉ removed →
        task ∈ (removeSource call source board).tasks.rows := by
  have hnothing : ∃ removed : List Id,
      (∀ id ∈ removed, ∃ loaded, source = some loaded ∧ id = loaded.task.id) ∧
      (∀ machineId, board.queue machineId = (board.queue machineId).filter (· ∉ removed)) ∧
      ∀ task ∈ board.tasks.rows, task.id ∉ removed → task ∈ board.tasks.rows :=
    ⟨[], fun _ hid ↦ absurd hid List.not_mem_nil, fun machineId ↦ by simp, fun _ h _ ↦ h⟩
  unfold removeSource
  cases source with
  | none => exact hnothing
  | some loaded =>
    dsimp only
    split_ifs with hone
    · refine ⟨[loaded.task.id], fun id hid ↦ ⟨loaded, rfl, List.mem_singleton.mp hid⟩, ?_, ?_⟩
      · intro machineId
        rw [queue_deleteTask]
        exact List.filter_congr fun id _ ↦ by simp
      · intro task htask hnot
        refine List.mem_filter.mpr ⟨htask, decide_eq_true fun heq ↦ hnot ?_⟩
        exact List.mem_singleton.mpr heq
    · exact hnothing

/-- An accepted move of an order from a task to another place takes the emptied source out of its
queue, adds the new task behind that of its machine, and keeps everything else in order. -/
theorem moveOrder_keepsOrder {move : OrderMove} (h : moveOrder call move board = .ok () board') :
    (move.sourceTaskId = move.targetTaskId ∧ board' = board) ∨
      ∃ removed added : List Id, (∀ id ∈ removed, truthy move.sourceTaskId = some id) ∧
        (∀ id ∈ added, id ∉ board.tasks.keys) ∧
        (∀ machineId, board'.queue machineId = (board.queue machineId).filter (· ∉ removed) ++
          if move.targetMachineId = some machineId then added else []) ∧
        KeepsOrder (removed ++ added) (move.renumberedMachines board) board board' := by
  obtain ⟨-, h⟩ := moveOrder_eq_ok.mp h
  split_ifs at h with hnoop
  · exact .inl ⟨hnoop.2, h.symm⟩
  refine .inr ?_
  obtain ⟨-, -, order, source, target, middle, -, hsource, -, -, hplace, rfl⟩ := h
  have hsourceTask : ∀ loaded, source = some loaded → ∃ task ∈ board.tasks.rows,
      truthy move.sourceTaskId = some task.id ∧ loaded = board.loadTask task := by
    intro loaded hloaded
    rcases (sourceOf_eq_ok.mp hsource).2 with ⟨-, hnone, -⟩ | ⟨task, htask, hid, hsome, -⟩
    · rw [hnone] at hloaded
      cases hloaded
    · rw [hsome] at hloaded
      exact ⟨task, htask, hid, (Option.some.inj hloaded).symm⟩
  obtain ⟨added, hadded, hplaced, hplacedRows⟩ := placeOrder_queues hplace
  obtain ⟨removed, hremoved, hleft, hleftRows⟩ := removeSource_queues call source middle
  have hremovedIds : ∀ id ∈ removed, truthy move.sourceTaskId = some id ∧
    id ∈ board.tasks.keys := by
    intro id hid
    obtain ⟨loaded, hloaded, rfl⟩ := hremoved id hid
    obtain ⟨task, htask, htruthy, rfl⟩ := hsourceTask loaded hloaded
    exact ⟨htruthy, (Table.mem_keys _).mpr ⟨task, htask, rfl⟩⟩
  have hstays : ∀ id ∈ added, id ∉ removed := fun id hid hmem ↦
    hadded id hid (hremovedIds id hmem).2
  set machineIds := (source.map (·.task.machineId)).toList ++ (move.targetMachineId.filter
    (fun id ↦ some id ≠ source.map (·.task.machineId))).toList with hmachineIds
  obtain ⟨hqueue, hnumbered, hrows⟩ := normalizeAll_keeps call machineIds
    (removeSource call source middle)
  have hfinal : ∀ machineId,
      (normalizeQueues call move source (removeSource call source middle)).queue machineId =
        (board.queue machineId).filter (· ∉ removed) ++
          if move.targetMachineId = some machineId then added else [] := by
    intro machineId
    refine (hqueue machineId).trans ?_
    rw [hleft, hplaced, List.filter_append]
    congr 1
    refine List.filter_eq_self.mpr fun id hid ↦ decide_eq_true ?_
    split_ifs at hid
    · exact hstays id hid
    · exact absurd hid List.not_mem_nil
  have hsourceMachine : source.map (·.task.machineId) =
      ((truthy move.sourceTaskId).bind board.tasks.find?).map ProductionTask.machineId := by
    rcases (sourceOf_eq_ok.mp hsource).2 with ⟨hnone, hsource, -⟩ | ⟨task, htask, hid, hsource, -⟩
    · rw [hsource, hnone]
      rfl
    · rw [hsource, hid, Option.bind_some, board.tasks.find?_of_mem (k := task.id) htask rfl]
      rfl
  have hmachines : ∀ machineId, machineId ∈ move.renumberedMachines board ↔
      machineId ∈ machineIds := by
    intro machineId
    rw [hmachineIds, hsourceMachine]
    unfold OrderMove.renumberedMachines
    simp only [List.mem_append, Option.mem_toList]
    by_cases hsame : machineId ∈
        ((truthy move.sourceTaskId).bind board.tasks.find?).map ProductionTask.machineId
    · exact iff_of_true (.inl hsame) (.inl hsame)
    · refine or_congr_right ?_
      simp only [Option.filter_eq_some_iff, decide_eq_true_eq]
      exact ⟨fun hmachine ↦ ⟨hmachine, fun heq ↦ hsame heq.symm⟩, And.left⟩
  refine ⟨removed, added, fun id hid ↦ (hremovedIds id hid).1, hadded, hfinal, ⟨?_, ?_, ?_⟩⟩
  · intro machineId
    rw [hfinal, List.filter_append, List.filter_filter]
    have hnone : (if move.targetMachineId = some machineId then added else []).filter
        (· ∉ removed ++ added) = [] := by
      refine List.filter_eq_nil_iff.mpr fun id hid ↦ ?_
      split_ifs at hid
      · simp [hid]
      · exact absurd hid List.not_mem_nil
    rw [hnone, List.append_nil]
    refine List.filter_congr fun id _ ↦ ?_
    by_cases hid : id ∈ removed
    · simp [hid]
    · simp [hid]
  · exact fun machineId hmachine ↦ hnumbered machineId (.inl ((hmachines machineId).mp hmachine))
  · intro task htask hnot hapart
    have hmem := hleftRows task (hplacedRows task htask)
      (fun hmem ↦ hnot (List.mem_append_left _ hmem))
    exact hrows task hmem (hapart.imp id (fun hne hin ↦ hne ((hmachines _).mpr hin)))

/-! ### All operations -/

/-- The order of the queues under the operations that move a task, delete one and move an order. -/
theorem queues_keep_order (call : Call) (board board' : Board) :
    (∀ taskId targetMachineId targetIndex,
      moveTask call taskId targetMachineId targetIndex board = .ok () board' →
        ∃ task, board.tasks.find? taskId = some task ∧
          Inserted taskId targetMachineId targetIndex board board' ∧
            KeepsOrder [taskId] [task.machineId, targetMachineId] board board' ∧
              board'.tasks.keys = board.tasks.keys ∧ board'.orders = board.orders) ∧
      (∀ taskId, ProductionService.deleteTask call taskId board = .ok () board' →
        ∃ task, board.tasks.find? taskId = some task ∧ taskId ∉ board'.tasks.keys ∧
          KeepsOrder [taskId] [task.machineId] board board') ∧
      ∀ move, moveOrder call move board = .ok () board' →
        (move.sourceTaskId = move.targetTaskId ∧ board' = board) ∨
          ∃ removed added : List Id, (∀ id ∈ removed, truthy move.sourceTaskId = some id) ∧
            (∀ id ∈ added, id ∉ board.tasks.keys) ∧
            (∀ machineId, board'.queue machineId =
              (board.queue machineId).filter (· ∉ removed) ++
                if move.targetMachineId = some machineId then added else []) ∧
            KeepsOrder (removed ++ added) (move.renumberedMachines board) board board' :=
  ⟨fun _ _ _ h ↦ moveTask_keepsOrder h, fun _ h ↦ deleteTask_keepsOrder h,
    fun _ h ↦ moveOrder_keepsOrder h⟩

/-- A machine with a task for each of two orders. -/
def queuedBoard : Board :=
  [BoardOp.createTask "m" ["a"], .createTask "m" ["b"]].foldl
    (fun board op ↦ board.step (⟨0, "20260101", IdSource.longer⟩, op)) sampleBoard

/-- The first of two tasks is moved behind the second, by an index beyond the end of the queue. -/
theorem queues_keep_order_sample :
    let moved := commit (moveTask ⟨0, "20260101", IdSource.longer⟩ "ff" "m" 9) queuedBoard
    queuedBoard.queue "m" = ["ff", "fff"] ∧ moved.queue "m" = ["fff", "ff"] ∧
      ∃ task, queuedBoard.tasks.find? "ff" = some task ∧
        Inserted "ff" "m" 9 queuedBoard moved ∧
          KeepsOrder ["ff"] [task.machineId, "m"] queuedBoard moved ∧
            moved.tasks.keys = queuedBoard.tasks.keys ∧ moved.orders = queuedBoard.orders := by
  intro moved
  refine ⟨by decide +kernel, by decide +kernel, ?_⟩
  rcases commit_cases (moveTask ⟨0, "20260101", IdSource.longer⟩ "ff" "m" 9) queuedBoard with
    hsame | ⟨u, board', hok, hmoved⟩
  · exact absurd hsame (by decide +kernel)
  · have hok' : moveTask ⟨0, "20260101", IdSource.longer⟩ "ff" "m" 9 queuedBoard =
        .ok () moved := by
      rw [hok]
      exact congrArg _ hmoved.symm
    exact (queues_keep_order _ queuedBoard moved).1 "ff" "m" 9 hok'

end FilmOS
