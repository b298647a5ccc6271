import FilmOS.Board.Runs

/-!
# Machine queues

The queue of a machine consists of its tasks that are not done, in the order of their positions.
`Queued` is what makes it a queue: positions start at one, two tasks of one machine that are not
done have different positions, and one task of a machine at most is in production. It is a property
of the slots of the board (`Board.slots`), which keep of a task its machine, its position and its
status.

A slot is filled behind the last one (`Queued.add`, `Queued.update`), emptied (`Queued.drop`), or
renumbered with the whole queue of its machine (`DistinctOn.renumber`, `queued_normalizeQueue`).
Done tasks keep their old positions, which nothing excludes from being taken again; a task that
resumes does not get its old position back but goes behind the others. `queues_run` says that every
run from the empty board keeps the queues.
-/

set_option autoImplicit false
set_option relaxedAutoImplicit false

namespace FilmOS

open Transaction Production Scheduling ProductionService OrderService

/-! ### Slots -/

/-- What a task says about the queue of its machine. -/
structure Slot where
  taskId : Id
  machineId : Id
  position : ℤ
  status : TaskStatus
deriving DecidableEq

namespace Slot

/-- A slot counts in the queue while its task is not done. -/
def IsActive (slot : Slot) : Prop := slot.status ≠ .done

/-- Changes the slots of the listed tasks. -/
def change (ids : List Id) (f : Slot → Slot) (slots : List Slot) : List Slot :=
  slots.map (fun slot ↦ if slot.taskId ∈ ids then f slot else slot)

/-- Numbers the slots of the listed tasks from one, in the order of the list. -/
def renumber (ids : List Id) : List Slot → List Slot :=
  change ids (fun slot ↦ { slot with position := ids.idxOf slot.taskId + 1 })

/-- Active slots of a machine with one position belong to one task. -/
def DistinctOn (machineId : Id) (slots : List Slot) : Prop :=
  ∀ first ∈ slots, ∀ second ∈ slots, first.machineId = machineId → second.machineId = machineId →
    first.IsActive → second.IsActive → first.position = second.position →
      first.taskId = second.taskId

/-- The slots form queues. -/
structure Queued (slots : List Slot) : Prop where
  positive : ∀ slot ∈ slots, 1 ≤ slot.position
  distinct : ∀ machineId, DistinctOn machineId slots
  single : ∀ first ∈ slots, ∀ second ∈ slots, first.machineId = second.machineId →
    first.status = .producing → second.status = .producing → first.taskId = second.taskId

variable {slots : List Slot}

theorem mem_change {ids : List Id} {f : Slot → Slot} {slot : Slot} :
    slot ∈ change ids f slots ↔ ∃ old ∈ slots, (if old.taskId ∈ ids then f old else old) = slot :=
  List.mem_map

theorem mem_renumber {ids : List Id} {slot : Slot} (h : slot ∈ renumber ids slots) :
    ∃ old ∈ slots, slot.taskId = old.taskId ∧ slot.machineId = old.machineId ∧
      slot.status = old.status ∧
        (old.taskId ∈ ids ∧ slot.position = ids.idxOf old.taskId + 1 ∨
          old.taskId ∉ ids ∧ slot.position = old.position) := by
  obtain ⟨old, hold, rfl⟩ := mem_change.mp h
  refine ⟨old, hold, ?_⟩
  by_cases hmem : old.taskId ∈ ids
  · rw [if_pos hmem]
    exact ⟨rfl, rfl, rfl, .inl ⟨hmem, rfl⟩⟩
  · rw [if_neg hmem]
    exact ⟨rfl, rfl, rfl, .inr ⟨hmem, rfl⟩⟩

/-- A machine has distinct positions after a renumbering of its whole queue, whatever they were
before, and after one that leaves its queue alone. -/
theorem DistinctOn.renumber {machineId : Id} {ids : List Id}
    (h : (∀ slot ∈ slots, slot.machineId = machineId → slot.IsActive → slot.taskId ∈ ids) ∨
      DistinctOn machineId slots ∧
        ∀ slot ∈ slots, slot.machineId = machineId → slot.IsActive → slot.taskId ∉ ids) :
    DistinctOn machineId (renumber ids slots) := by
  intro first hfirst second hsecond hfirstOn hsecondOn hfirstActive hsecondActive hposition
  obtain ⟨a, ha, hid, hmachine, hstatus, hplace⟩ := mem_renumber hfirst
  obtain ⟨b, hb, hid', hmachine', hstatus', hplace'⟩ := mem_renumber hsecond
  have haActive : a.IsActive := fun hdone ↦ hfirstActive (hstatus.trans hdone)
  have hbActive : b.IsActive := fun hdone ↦ hsecondActive (hstatus'.trans hdone)
  have haOn : a.machineId = machineId := hmachine ▸ hfirstOn
  have hbOn : b.machineId = machineId := hmachine' ▸ hsecondOn
  rw [hid, hid']
  rcases h with hall | ⟨hdistinct, hnone⟩
  · have haMem := hall a ha haOn haActive
    have hbMem := hall b hb hbOn hbActive
    rcases hplace with ⟨-, hplace⟩ | ⟨hnot, -⟩
    · rcases hplace' with ⟨-, hplace'⟩ | ⟨hnot, -⟩
      · refine (List.idxOf_inj haMem).mp ?_
        rw [hplace, hplace'] at hposition
        omega
      · exact absurd hbMem hnot
    · exact absurd haMem hnot
  · rcases hplace with ⟨hmem, -⟩ | ⟨-, hplace⟩
    · exact absurd hmem (hnone a ha haOn haActive)
    · rcases hplace' with ⟨hmem, -⟩ | ⟨-, hplace'⟩
      · exact absurd hmem (hnone b hb hbOn hbActive)
      · exact hdistinct a ha b hb haOn hbOn haActive hbActive (by rw [← hplace, hposition, hplace'])

/-- Queues stay queues when positions are renumbered so that they stay distinct. -/
theorem positive_renumber (h : ∀ slot ∈ slots, 1 ≤ slot.position) (ids : List Id) :
    ∀ slot ∈ renumber ids slots, 1 ≤ slot.position := by
  intro slot hslot
  obtain ⟨old, hold, -, -, -, ⟨-, hplace⟩ | ⟨-, hplace⟩⟩ := mem_renumber hslot
  · rw [hplace]
    omega
  · rw [hplace]
    exact h old hold

theorem single_renumber
    (h : ∀ first ∈ slots, ∀ second ∈ slots, first.machineId = second.machineId →
      first.status = .producing → second.status = .producing → first.taskId = second.taskId)
    (ids : List Id) :
    ∀ first ∈ renumber ids slots, ∀ second ∈ renumber ids slots,
      first.machineId = second.machineId → first.status = .producing →
        second.status = .producing → first.taskId = second.taskId := by
  intro first hfirst second hsecond hmachines hfirstOn hsecondOn
  obtain ⟨a, ha, hid, hmachine, hstatus, -⟩ := mem_renumber hfirst
  obtain ⟨b, hb, hid', hmachine', hstatus', -⟩ := mem_renumber hsecond
  rw [hid, hid']
  exact h a ha b hb (by rw [← hmachine, hmachines, hmachine']) (hstatus ▸ hfirstOn)
    (hstatus' ▸ hsecondOn)

/-- Renumbering whole queues, or parts of no queue, keeps the queues. -/
theorem Queued.renumber (h : Queued slots) {ids : List Id}
    (hids : ∀ machineId,
      (∀ slot ∈ slots, slot.machineId = machineId → slot.IsActive → slot.taskId ∈ ids) ∨
        ∀ slot ∈ slots, slot.machineId = machineId → slot.IsActive → slot.taskId ∉ ids) :
    Queued (renumber ids slots) where
  positive := positive_renumber h.positive ids
  distinct machineId :=
    DistinctOn.renumber ((hids machineId).imp id (fun hnone ↦ ⟨h.distinct machineId, hnone⟩))
  single := single_renumber h.single ids

/-- A waiting task joins the queue at a position that is not taken. -/
theorem Queued.add (h : Queued slots) {slot : Slot} (hpositive : 1 ≤ slot.position)
    (hwaiting : slot.status = .waiting)
    (hfree : ∀ other ∈ slots, other.machineId = slot.machineId → other.IsActive →
      other.position ≠ slot.position) : Queued (slots ++ [slot]) where
  positive other hother := by
    rcases List.mem_append.mp hother with hother | hother
    · exact h.positive other hother
    · rwa [List.mem_singleton.mp hother]
  distinct machineId first hfirst second hsecond hfirstOn hsecondOn hfirstActive hsecondActive
      hposition := by
    rcases List.mem_append.mp hfirst with hfirst | hfirst
    · rcases List.mem_append.mp hsecond with hsecond | hsecond
      · exact h.distinct machineId first hfirst second hsecond hfirstOn hsecondOn hfirstActive
          hsecondActive hposition
      · rw [List.mem_singleton.mp hsecond] at hsecondOn hposition
        exact absurd hposition (hfree first hfirst (hfirstOn.trans hsecondOn.symm) hfirstActive)
    · rw [List.mem_singleton.mp hfirst] at hfirstOn hposition ⊢
      rcases List.mem_append.mp hsecond with hsecond | hsecond
      · exact absurd hposition.symm
          (hfree second hsecond (hsecondOn.trans hfirstOn.symm) hsecondActive)
      · rw [List.mem_singleton.mp hsecond]
  single first hfirst second hsecond hmachine hfirstOn hsecondOn := by
    rcases List.mem_append.mp hfirst with hfirst | hfirst
    · rcases List.mem_append.mp hsecond with hsecond | hsecond
      · exact h.single first hfirst second hsecond hmachine hfirstOn hsecondOn
      · rw [List.mem_singleton.mp hsecond, hwaiting] at hsecondOn
        cases hsecondOn
    · rw [List.mem_singleton.mp hfirst, hwaiting] at hfirstOn
      cases hfirstOn

/-- Fewer slots are queues still. -/
theorem Queued.drop (h : Queued slots) (taskId : Id) :
    Queued (slots.filter (fun slot ↦ slot.taskId ≠ taskId)) where
  positive slot hslot := h.positive slot (List.mem_filter.mp hslot).1
  distinct machineId first hfirst second hsecond :=
    h.distinct machineId first (List.mem_filter.mp hfirst).1 second (List.mem_filter.mp hsecond).1
  single first hfirst second hsecond :=
    h.single first (List.mem_filter.mp hfirst).1 second (List.mem_filter.mp hsecond).1

/-- A task changes its status and its position: to a position that is not taken, when it stays in
the queue, and to production only when no other task of the machine is. -/
theorem Queued.update (h : Queued slots) {taskId : Id} (machineId : Id) {position : ℤ}
    {status : TaskStatus}
    (hmachine : ∀ slot ∈ slots, slot.taskId = taskId → slot.machineId = machineId)
    (hpositive : 1 ≤ position)
    (hfree : status ≠ .done → ∀ other ∈ slots, other.machineId = machineId → other.IsActive →
      other.position = position → other.taskId = taskId)
    (hsingle : status = .producing → ∀ other ∈ slots, other.machineId = machineId →
      other.status = .producing → other.taskId = taskId) :
    Queued (change [taskId] (fun slot ↦ { slot with position, status }) slots) := by
  have hcases : ∀ slot ∈ change [taskId] (fun slot ↦ { slot with position, status }) slots,
      (slot.taskId = taskId ∧ slot.machineId = machineId ∧ slot.position = position ∧
        slot.status = status) ∨ (slot ∈ slots ∧ slot.taskId ≠ taskId) := by
    intro slot hslot
    obtain ⟨old, hold, rfl⟩ := mem_change.mp hslot
    by_cases hid : old.taskId = taskId
    · rw [if_pos (List.mem_singleton.mpr hid)]
      exact .inl ⟨hid, hmachine old hold hid, rfl, rfl⟩
    · rw [if_neg (fun hmem ↦ hid (List.mem_singleton.mp hmem))]
      exact .inr ⟨hold, hid⟩
  constructor
  · intro slot hslot
    rcases hcases slot hslot with ⟨-, -, hposition, -⟩ | ⟨hold, -⟩
    · rwa [hposition]
    · exact h.positive slot hold
  · intro other first hfirst second hsecond hfirstOn hsecondOn hfirstActive hsecondActive hposition
    rcases hcases first hfirst with ⟨hid, hon, hplace, hstatus⟩ | ⟨hold, hid⟩
    · rcases hcases second hsecond with ⟨hid', -⟩ | ⟨hold', hid'⟩
      · rw [hid, hid']
      · have hactive : status ≠ .done := fun hdone ↦ hfirstActive (hstatus.trans hdone)
        exact absurd (hfree hactive second hold' (by rw [hsecondOn, ← hfirstOn, hon]) hsecondActive
          (by rw [← hposition, hplace])) hid'
    · rcases hcases second hsecond with ⟨hid', hon', hplace', hstatus'⟩ | ⟨hold', hid'⟩
      · have hactive : status ≠ .done := fun hdone ↦ hsecondActive (hstatus'.trans hdone)
        exact absurd (hfree hactive first hold (by rw [hfirstOn, ← hsecondOn, hon']) hfirstActive
          (by rw [hposition, hplace'])) hid
      · exact h.distinct other first hold second hold' hfirstOn hsecondOn hfirstActive hsecondActive
          hposition
  · intro first hfirst second hsecond hmachines hfirstOn hsecondOn
    rcases hcases first hfirst with ⟨hid, hon, -, hstatus⟩ | ⟨hold, hid⟩
    · rcases hcases second hsecond with ⟨hid', -⟩ | ⟨hold', hid'⟩
      · rw [hid, hid']
      · exact absurd (hsingle (hstatus ▸ hfirstOn) second hold' (by rw [← hmachines, hon])
          hsecondOn) hid'
    · rcases hcases second hsecond with ⟨hid', hon', -, hstatus'⟩ | ⟨hold', hid'⟩
      · exact absurd (hsingle (hstatus' ▸ hsecondOn) first hold (by rw [hmachines, hon']) hfirstOn)
          hid
      · exact h.single first hold second hold' hmachines hfirstOn hsecondOn

end Slot

open Slot

/-- The slot of a task. -/
def ProductionTask.slot (task : ProductionTask) : Slot :=
  ⟨task.id, task.machineId, task.position, task.status⟩

namespace Board

/-- The slots of the tasks of a board. -/
def slots (board : Board) : List Slot := board.tasks.rows.map ProductionTask.slot

theorem mem_slots {board : Board} {slot : Slot} :
    slot ∈ board.slots ↔ ∃ task ∈ board.tasks.rows, task.slot = slot :=
  List.mem_map

/-- The slot of a task is one. -/
theorem slot_eq_of_taskId {board : Board} {first second : Slot} (hfirst : first ∈ board.slots)
    (hsecond : second ∈ board.slots) (h : first.taskId = second.taskId) : first = second := by
  obtain ⟨a, ha, rfl⟩ := mem_slots.mp hfirst
  obtain ⟨b, hb, rfl⟩ := mem_slots.mp hsecond
  rw [board.tasks.eq_of_key_eq ha hb h]

/-- Changing tasks changes their slots, whatever happens to their update times. -/
theorem slots_changeTasks (call : Call) (ids : List Id) {change : ProductionTask → ProductionTask}
    (hid : ∀ task, (change task).id = task.id) {f : Slot → Slot}
    (hf : ∀ task, (change task).slot = f task.slot) (board : Board) :
    (board.changeTasks call ids change hid).slots = Slot.change ids f board.slots := by
  unfold changeTasks slots Slot.change
  rw [Table.rows_mapRows, List.map_map, List.map_map]
  refine List.map_congr_left fun task _ ↦ ?_
  have hstamped : (stamped (fun t : ProductionTask ↦ { t with updatedAt := call.now }) change
      task).slot = f task.slot := by
    unfold stamped
    split_ifs with hsame
    · rw [← hf, hsame]
    · exact hf task
  change (if task.id ∈ ids then _ else task).slot = if task.slot.taskId ∈ ids then _ else _
  by_cases hmem : task.id ∈ ids
  · rw [if_pos hmem, hstamped]
    exact (if_pos hmem).symm
  · rw [if_neg hmem]
    exact (if_neg hmem).symm

theorem slots_renumber (call : Call) (ids : List Id) (board : Board) :
    (board.renumber call ids).slots = Slot.renumber ids board.slots := by
  unfold renumber Slot.renumber
  refine slots_changeTasks call ids (fun _ ↦ ?_) (fun _ ↦ ?_) board
  · rfl
  · rfl

theorem slots_deleteTask (call : Call) (loaded : LoadedTask) (board : Board) :
    (board.deleteTask call loaded).slots =
      board.slots.filter (fun slot ↦ slot.taskId ≠ loaded.task.id) := by
  unfold deleteTask slots
  rw [List.filter_map]
  rfl

theorem slots_addTask {call : Call} {machineId : Id} {position : ℤ} {notes : Option String}
    {board board' : Board} {id : Id}
    (h : addTask call machineId position notes board = .ok id board') :
    board'.slots = board.slots ++ [⟨id, machineId, position, .waiting⟩] := by
  obtain ⟨id', board'', hadd, -, tasks, hrows, rfl⟩ :=
    exists_addTask call machineId position notes board
  rw [h] at hadd
  cases hadd
  unfold slots
  rw [hrows, List.map_append]
  rfl

/-- The queue of a machine lists the tasks of its active slots. -/
theorem mem_activeQueue {board : Board} {machineId id : Id} :
    id ∈ (board.activeQueue machineId).map ProductionTask.id ↔
      ∃ slot ∈ board.slots, slot.machineId = machineId ∧ slot.IsActive ∧ slot.taskId = id := by
  unfold activeQueue activeTasks
  simp only [List.mem_map, mem_orderBy, List.mem_filter, decide_eq_true_eq]
  constructor
  · rintro ⟨task, ⟨htask, hmachine, hactive⟩, rfl⟩
    exact ⟨task.slot, mem_slots.mpr ⟨task, htask, rfl⟩, hmachine, hactive, rfl⟩
  · rintro ⟨slot, hslot, hmachine, hactive, rfl⟩
    obtain ⟨task, htask, rfl⟩ := mem_slots.mp hslot
    exact ⟨task, ⟨htask, hmachine, hactive⟩, rfl⟩

theorem one_le_nextPosition {tasks : List ProductionTask}
    (h : ∀ task ∈ tasks, 1 ≤ task.position) : 1 ≤ nextPosition tasks := by
  unfold nextPosition
  cases hmax : maxOf (tasks.map ProductionTask.position) with
  | none => decide
  | some m =>
    obtain ⟨task, htask, hposition⟩ := List.mem_map.mp (List.max?_mem hmax)
    have := h task htask
    rw [Option.getD_some]
    omega

/-- The position behind the queue of a machine is free, and is a position. -/
theorem nextPosition_free {board : Board} (h : Queued board.slots) {machineId : Id}
    {tasks : List ProductionTask} (htasks : tasks.Perm (board.activeTasks machineId)) :
    1 ≤ nextPosition tasks ∧ ∀ slot ∈ board.slots, slot.machineId = machineId → slot.IsActive →
      slot.position < nextPosition tasks := by
  constructor
  · refine one_le_nextPosition fun task htask ↦ ?_
    have hmem := (List.mem_filter.mp (htasks.mem_iff.mp htask)).1
    exact h.positive task.slot (mem_slots.mpr ⟨task, hmem, rfl⟩)
  · intro slot hslot hmachine hactive
    obtain ⟨task, htask, rfl⟩ := mem_slots.mp hslot
    have hmem : task ∈ board.activeTasks machineId :=
      List.mem_filter.mpr ⟨htask, decide_eq_true ⟨hmachine, hactive⟩⟩
    exact lt_nextPosition (htasks.mem_iff.mpr hmem)

/-- A task is added behind the queue of its machine. -/
theorem queued_addTask {call : Call} {machineId : Id} {notes : Option String} {board board' : Board}
    {id : Id} (h : Queued board.slots)
    (hadd : addTask call machineId (nextPosition (board.activeTasks machineId)) notes board =
      .ok id board') : Queued board'.slots := by
  obtain ⟨hpositive, hbehind⟩ := nextPosition_free h (List.Perm.refl (board.activeTasks machineId))
  rw [slots_addTask hadd]
  exact h.add hpositive rfl fun other hother hmachine hactive ↦
    (hbehind other hother hmachine hactive).ne

/-- Renumbering the queue of a machine keeps the queues. -/
theorem queued_normalizeQueue {board : Board} (h : Queued board.slots) (call : Call)
    (machineId : Id) : Queued (board.normalizeQueue call machineId).slots := by
  unfold normalizeQueue
  rw [slots_renumber]
  refine h.renumber fun other ↦ ?_
  by_cases hsame : other = machineId
  · refine .inl fun slot hslot hmachine hactive ↦ ?_
    exact mem_activeQueue.mpr ⟨slot, hslot, hmachine.trans hsame, hactive, rfl⟩
  · refine .inr fun slot hslot hmachine _ hmem ↦ ?_
    obtain ⟨queued, hqueued, hon, -, hid⟩ := mem_activeQueue.mp hmem
    rw [slot_eq_of_taskId hqueued hslot hid] at hon
    exact hsame (hmachine.symm.trans hon)

end Board

/-! ### The production service -/

theorem queued_createTask {call : Call} {machineId : Id} {orderIds : List Id}
    {board board' : Board} {taskId : Id} (h : Queued board.slots)
    (hop : createTask call machineId orderIds board = .ok taskId board') : Queued board'.slots := by
  obtain ⟨-, -, -, -, -, -, -, -, middle, hadd, rfl⟩ := createTask_ok hop
  exact (Board.queued_addTask h hadd : Queued middle.slots)

/-- A task that starts or resumes is the only one in production; one that resumes goes behind the
queue. -/
theorem queued_updateTask {call : Call} {taskId : Id} {fields : TaskFields} {board board' : Board}
    {u : Unit} (h : Queued board.slots) (hop : updateTask call taskId fields board = .ok u board') :
    Queued board'.slots := by
  rcases updateTask_ok hop with rfl | ⟨task, machine, status, hfind, -, hallowed, hstart, rfl⟩
  · exact h
  obtain ⟨htask, rfl⟩ := (board.tasks.find?_eq_some_iff).mp hfind
  have hslot : task.slot ∈ board.slots := Board.mem_slots.mpr ⟨task, htask, rfl⟩
  have hown : ∀ slot ∈ board.slots, slot.taskId = task.id → slot = task.slot :=
    fun slot hmem hid ↦ Board.slot_eq_of_taskId hmem hslot hid
  have hslots : ((board.setOrderStatus call ((board.ordersOf task.id).map Order.id)
      (orderStatusFor status)).changeTasks call [task.id]
        (fun row ↦ { row with position := resumedPosition board task status, status,
                              updatedAt := call.now }) (fun _ ↦ rfl)).slots =
      Slot.change [task.id]
        (fun slot ↦ { slot with position := resumedPosition board task status, status })
        board.slots := by
    refine Board.slots_changeTasks call [task.id] (fun _ ↦ ?_) (fun _ ↦ ?_)
      (board.setOrderStatus call ((board.ordersOf task.id).map Order.id) (orderStatusFor status))
    · rfl
    · rfl
  change Queued (Board.slots (Board.changeTasks call [task.id] _ _ _))
  rw [hslots]
  obtain ⟨hpositive, hbehind⟩ :=
    Board.nextPosition_free h (orderBy_perm (fun row ↦ toLex (row.position, row.id))
      (board.activeTasks task.machineId))
  refine h.update task.machineId (fun slot hmem hid ↦ by rw [hown slot hmem hid]; rfl) ?_ ?_ ?_
  · unfold resumedPosition
    split_ifs
    · exact hpositive
    · exact h.positive task.slot hslot
  · intro hactive other hother hmachine hotherActive hposition
    unfold resumedPosition at hposition
    split_ifs at hposition with hresumes
    · exact absurd hposition (hbehind other hother hmachine hotherActive).ne
    · have htaskActive : task.slot.IsActive := by
        intro hdone
        have hdone : task.status = .done := hdone
        rw [hdone, allowed, List.mem_singleton] at hallowed
        exact hresumes ⟨hallowed, hdone⟩
      exact h.distinct task.machineId other hother task.slot hslot hmachine rfl hotherActive
        htaskActive hposition
  · intro hproducing other hother hmachine hotherProducing
    obtain ⟨row, hrow, rfl⟩ := Board.mem_slots.mp hother
    exact (requireStartable_eq_ok hstart hproducing).2 row hrow hmachine hotherProducing

theorem queued_deleteTask {call : Call} {taskId : Id} {board board' : Board} {u : Unit}
    (h : Queued board.slots) (hop : deleteTask call taskId board = .ok u board') :
    Queued board'.slots := by
  obtain ⟨task, -, -, rfl⟩ := deleteTask_ok hop
  refine Board.queued_normalizeQueue ?_ call task.machineId
  rw [Board.slots_deleteTask]
  exact (h.drop task.id : Queued _)

theorem queued_normalizeQueues {board : Board} (h : Queued board.slots) (call : Call)
    (move : OrderMove) (source : Option LoadedTask) :
    Queued (normalizeQueues call move source board).slots := by
  unfold normalizeQueues
  dsimp only
  generalize (source.map (·.task.machineId)).toList ++ _ = machineIds
  induction machineIds generalizing board with
  | nil => exact h
  | cons machineId machineIds ih => exact ih (Board.queued_normalizeQueue h call machineId)

theorem queued_placeOrder {call : Call} {move : OrderMove} {target : Option LoadedTask}
    {board middle : Board} {u : Unit} (h : Queued board.slots)
    (hop : placeOrder call move target board = .ok u middle) : Queued middle.slots := by
  unfold placeOrder at hop
  cases target with
  | some loaded =>
    rw [modify_eq_ok] at hop
    rw [← hop]
    exact h
  | none =>
    cases hmachine : move.targetMachineId with
    | some machineId =>
      simp only [hmachine, get_bind_eq_ok] at hop
      obtain ⟨taskId, opened, hadd, hop⟩ := bind_eq_ok.mp hop
      rw [modify_eq_ok] at hop
      rw [← hop]
      exact (Board.queued_addTask h hadd : Queued opened.slots)
    | none =>
      simp only [hmachine, modify_eq_ok] at hop
      rw [← hop]
      exact h

theorem queued_moveOrder {call : Call} {move : OrderMove} {board board' : Board} {u : Unit}
    (h : Queued board.slots) (hop : moveOrder call move board = .ok u board') :
    Queued board'.slots := by
  obtain ⟨-, hop⟩ := moveOrder_eq_ok.mp hop
  split_ifs at hop
  · rwa [← hop]
  · obtain ⟨-, -, order, source, target, middle, -, -, -, -, hplace, rfl⟩ := hop
    refine queued_normalizeQueues ?_ call move source
    have hmiddle := queued_placeOrder h hplace
    unfold removeSource
    split
    · exact hmiddle
    · split_ifs
      · rw [Board.slots_deleteTask]
        exact hmiddle.drop _
      · exact hmiddle

theorem queued_reorderTasks {call : Call} {machineId : Id} {orderedTaskIds : List Id}
    {board board' : Board} {u : Unit} (h : Queued board.slots)
    (hop : reorderTasks call machineId orderedTaskIds board = .ok u board') :
    Queued board'.slots := by
  unfold reorderTasks lockMachine at hop
  simp only [get_bind_eq_ok, require_bind_eq_ok, orRaise_bind_eq_ok, modify_eq_ok] at hop
  obtain ⟨-, machine, -, ⟨hall, hcover, -⟩, rfl⟩ := hop
  rw [Board.slots_renumber]
  refine h.renumber fun other ↦ ?_
  by_cases hsame : other = machineId
  · refine .inl fun slot hslot hmachine hactive ↦ hcover slot.taskId ?_
    exact Board.mem_activeQueue.mpr ⟨slot, hslot, hmachine.trans hsame, hactive, rfl⟩
  · refine .inr fun slot hslot hmachine _ hmem ↦ ?_
    obtain ⟨queued, hqueued, hon, -, hid⟩ := Board.mem_activeQueue.mp (hall slot.taskId hmem)
    rw [Board.slot_eq_of_taskId hqueued hslot hid] at hon
    exact hsame (hmachine.symm.trans hon)

/-- What is in a queue after a task was inserted. -/
theorem mem_insertIdx_min {ids : List Id} {index : ℕ} {taskId id : Id} :
    id ∈ ids.insertIdx (min index ids.length) taskId ↔ id = taskId ∨ id ∈ ids :=
  List.mem_insertIdx (min_le_right _ _)

/-- A task that moves within its machine is put back into the queue, which is renumbered. -/
theorem queued_moveWithin {call : Call} {board : Board} {task : ProductionTask} {index : ℕ}
    (h : Queued board.slots) (htask : task ∈ board.tasks.rows) :
    let rest := ((board.activeQueue task.machineId).map ProductionTask.id).filter (· ≠ task.id)
    Queued (board.renumber call (rest.insertIdx (min index rest.length) task.id)).slots := by
  intro rest
  rw [Board.slots_renumber]
  refine h.renumber fun other ↦ ?_
  by_cases hsame : other = task.machineId
  · refine .inl fun slot hslot hmachine hactive ↦ mem_insertIdx_min.mpr ?_
    by_cases hid : slot.taskId = task.id
    · exact .inl hid
    · refine .inr (List.mem_filter.mpr ⟨?_, decide_eq_true hid⟩)
      exact Board.mem_activeQueue.mpr ⟨slot, hslot, hmachine.trans hsame, hactive, rfl⟩
  · refine .inr fun slot hslot hmachine _ hmem ↦ hsame ?_
    rw [← hmachine]
    rcases mem_insertIdx_min.mp hmem with hid | hmem
    · rw [Board.slot_eq_of_taskId hslot (Board.mem_slots.mpr ⟨task, htask, rfl⟩) hid]
      rfl
    · obtain ⟨queued, hqueued, hon, -, hid⟩ :=
        Board.mem_activeQueue.mp (List.mem_filter.mp hmem).1
      rwa [Board.slot_eq_of_taskId hqueued hslot hid] at hon

/-- A task that moves to another machine leaves one queue and is inserted into the other; both are
renumbered, and between the two steps only the target has no queue. -/
theorem queued_moveAcross {call : Call} {board : Board} {task : ProductionTask} {targetId : Id}
    {index : ℕ} (h : Queued board.slots) (htask : task ∈ board.tasks.rows)
    (hwaiting : task.status = .waiting) :
    let rest := ((board.activeQueue task.machineId).map ProductionTask.id).filter (· ≠ task.id)
    let target := (board.activeQueue targetId).map ProductionTask.id
    Queued (((board.changeTasks call [task.id] (fun row ↦ { row with machineId := targetId })
      (fun _ ↦ rfl)).renumber call rest).renumber call
        (target.insertIdx (min index target.length) task.id)).slots := by
  intro rest target
  have hmoved : (board.changeTasks call [task.id] (fun row ↦ { row with machineId := targetId })
      (fun _ ↦ rfl)).slots =
        Slot.change [task.id] (fun slot ↦ { slot with machineId := targetId }) board.slots := by
    refine Board.slots_changeTasks call [task.id] (fun _ ↦ ?_) (fun _ ↦ ?_) board
    · rfl
    · rfl
  rw [Board.slots_renumber, Board.slots_renumber, hmoved]
  set moved := Slot.change [task.id] (fun slot ↦ { slot with machineId := targetId }) board.slots
    with hdef
  have hslot : task.slot ∈ board.slots := Board.mem_slots.mpr ⟨task, htask, rfl⟩
  have hcases : ∀ slot ∈ moved, (slot.taskId = task.id ∧ slot.machineId = targetId ∧
      slot.status = .waiting ∧ slot.position = task.position) ∨
        (slot ∈ board.slots ∧ slot.taskId ≠ task.id) := by
    intro slot hmem
    obtain ⟨old, hold, rfl⟩ := Slot.mem_change.mp hmem
    by_cases hid : old.taskId = task.id
    · rw [if_pos (List.mem_singleton.mpr hid), Board.slot_eq_of_taskId hold hslot hid]
      exact .inl ⟨rfl, rfl, hwaiting, rfl⟩
    · rw [if_neg (fun hmem ↦ hid (List.mem_singleton.mp hmem))]
      exact .inr ⟨hold, hid⟩
  have hpositive : ∀ slot ∈ moved, 1 ≤ slot.position := by
    intro slot hmem
    rcases hcases slot hmem with ⟨-, -, -, hposition⟩ | ⟨hold, -⟩
    · rw [hposition]
      exact h.positive task.slot hslot
    · exact h.positive slot hold
  have hsingle : ∀ first ∈ moved, ∀ second ∈ moved, first.machineId = second.machineId →
      first.status = .producing → second.status = .producing → first.taskId = second.taskId := by
    intro first hfirst second hsecond hmachine hfirstOn hsecondOn
    rcases hcases first hfirst with ⟨-, -, hstatus, -⟩ | ⟨hold, -⟩
    · rw [hstatus] at hfirstOn
      cases hfirstOn
    · rcases hcases second hsecond with ⟨-, -, hstatus, -⟩ | ⟨hold', -⟩
      · rw [hstatus] at hsecondOn
        cases hsecondOn
      · exact h.single first hold second hold' hmachine hfirstOn hsecondOn
  -- the tasks of another machine's queue are not touched by a renumbering
  have hapart : ∀ machineId other, machineId ≠ other → ∀ slot ∈ board.slots,
      slot.machineId = machineId →
        slot.taskId ∉ (board.activeQueue other).map ProductionTask.id := by
    intro machineId other hne slot hmem hmachine hqueue
    obtain ⟨queued, hqueued, hon, -, hid⟩ := Board.mem_activeQueue.mp hqueue
    rw [Board.slot_eq_of_taskId hqueued hmem hid] at hon
    exact hne (hmachine.symm.trans hon)
  have hdistinct : ∀ machineId, machineId ≠ targetId →
      Slot.DistinctOn machineId (Slot.renumber rest moved) := by
    intro machineId hne
    by_cases hsource : machineId = task.machineId
    · refine Slot.DistinctOn.renumber (.inl fun slot hmem hmachine hactive ↦ ?_)
      rcases hcases slot hmem with ⟨-, hon, -⟩ | ⟨hold, hid⟩
      · exact absurd (hmachine.symm.trans hon) hne
      · refine List.mem_filter.mpr ⟨?_, decide_eq_true hid⟩
        exact Board.mem_activeQueue.mpr ⟨slot, hold, hmachine.trans hsource, hactive, rfl⟩
    · refine Slot.DistinctOn.renumber (.inr ⟨?_, ?_⟩)
      · intro first hfirst second hsecond hfirstOn hsecondOn
        rcases hcases first hfirst with ⟨-, hon, -⟩ | ⟨hold, -⟩
        · exact absurd (hfirstOn.symm.trans hon) hne
        · rcases hcases second hsecond with ⟨-, hon, -⟩ | ⟨hold', -⟩
          · exact absurd (hsecondOn.symm.trans hon) hne
          · exact h.distinct machineId first hold second hold' hfirstOn hsecondOn
      · intro slot hmem hmachine _ hrest
        rcases hcases slot hmem with ⟨-, hon, -⟩ | ⟨hold, -⟩
        · exact hne (hmachine.symm.trans hon)
        · exact hapart machineId task.machineId hsource slot hold hmachine
            (List.mem_filter.mp hrest).1
  refine ⟨Slot.positive_renumber (Slot.positive_renumber hpositive rest) _, fun machineId ↦ ?_,
    Slot.single_renumber (Slot.single_renumber hsingle rest) _⟩
  by_cases hne : machineId = targetId
  · refine Slot.DistinctOn.renumber (.inl fun slot hmem hmachine hactive ↦ ?_)
    obtain ⟨old, hold, hid, hon, hstatus, -⟩ := Slot.mem_renumber hmem
    rw [hid]
    refine mem_insertIdx_min.mpr ?_
    rcases hcases old hold with ⟨hold, -⟩ | ⟨hold, -⟩
    · exact .inl hold
    · refine .inr (Board.mem_activeQueue.mpr ⟨old, hold, ?_, ?_, rfl⟩)
      · rw [← hon, hmachine, hne]
      · exact fun hdone ↦ hactive (hstatus.trans hdone)
  · refine Slot.DistinctOn.renumber (.inr ⟨hdistinct machineId hne, fun slot hmem hmachine _ ↦ ?_⟩)
    obtain ⟨old, hold, hid, hon, -⟩ := Slot.mem_renumber hmem
    rw [hid]
    intro hqueue
    rcases hcases old hold with ⟨-, hmovedOn, -⟩ | ⟨hkept, hkeptId⟩
    · exact hne (by rw [← hmachine, hon, hmovedOn])
    · rcases mem_insertIdx_min.mp hqueue with heq | hqueue
      · exact hkeptId heq
      · exact hapart machineId targetId hne old hkept (by rw [← hon, hmachine]) hqueue

theorem queued_moveTask {call : Call} {taskId targetMachineId : Id} {targetIndex : ℕ}
    {board board' : Board} {u : Unit} (h : Queued board.slots)
    (hop : moveTask call taskId targetMachineId targetIndex board = .ok u board') :
    Queued board'.slots := by
  obtain ⟨task, machine, total, hfind, hwaiting, -, -, -, hboard⟩ := moveTask_ok hop
  obtain ⟨htask, rfl⟩ := (board.tasks.find?_eq_some_iff).mp hfind
  rw [hboard]
  split_ifs with hsame
  · exact queued_moveWithin h htask
  · exact queued_moveAcross h htask hwaiting

/-! ### Plans -/

/-- The tasks of a plan are added one by one, each behind everything that its machine had. -/
theorem queued_writeTasks {call : Call} {planId : Id} (tasks : List ValidatedTask) :
    ∀ {positions : Id → ℤ} {board board' : Board} {taskIds : List Id},
      writeTasks call planId tasks positions board = .ok taskIds board' →
      (∀ machineId, 1 ≤ positions machineId ∧ ∀ slot ∈ board.slots, slot.machineId = machineId →
        slot.position < positions machineId) →
      Queued board.slots → Queued board'.slots := by
  induction tasks with
  | nil =>
    intro positions board board' taskIds hop _ h
    obtain ⟨-, rfl⟩ := pure_eq_ok.mp hop
    exact h
  | cons task rest ih =>
    intro positions board board' taskIds hop hpositions h
    unfold writeTasks at hop
    obtain ⟨taskId, middle, hadd, hop⟩ := bind_eq_ok.mp hop
    rw [modify_bind_eq_ok] at hop
    obtain ⟨rests, last, hwrite, hop⟩ := bind_eq_ok.mp hop
    obtain ⟨-, rfl⟩ := pure_eq_ok.mp hop
    obtain ⟨hpositive, hbehind⟩ := hpositions task.machine.id
    have hslots : (middle.assignOrders call (task.orders.map Order.id) .producing
        (some taskId)).slots =
          board.slots ++ [⟨taskId, task.machine.id, positions task.machine.id, .waiting⟩] :=
      (Board.slots_addTask hadd : middle.slots = _)
    refine ih hwrite ?_ ?_
    · intro machineId
      by_cases hsame : machineId = task.machine.id
      · rw [hsame, Function.update_self]
        refine ⟨by omega, fun slot hslot hmachine ↦ ?_⟩
        rw [hslots] at hslot
        rcases List.mem_append.mp hslot with hslot | hslot
        · have := hbehind slot hslot hmachine
          omega
        · rw [List.mem_singleton.mp hslot]
          exact lt_add_one _
      · rw [Function.update_of_ne hsame]
        obtain ⟨hpositive', hbehind'⟩ := hpositions machineId
        refine ⟨hpositive', fun slot hslot hmachine ↦ ?_⟩
        rw [hslots] at hslot
        rcases List.mem_append.mp hslot with hslot | hslot
        · exact hbehind' slot hslot hmachine
        · rw [List.mem_singleton.mp hslot] at hmachine
          exact absurd hmachine.symm hsame
    · rw [hslots]
      exact h.add hpositive rfl fun other hother hmachine _ ↦
        (hbehind other hother hmachine).ne

theorem queued_applySchedulePlan {call : Call} {planId userId : Id} {allowV2 : Bool}
    {board board' : Board} {result : AppliedResult} (h : Queued board.slots)
    (hop : applySchedulePlan call planId userId allowV2 board = .ok result board') :
    Queued board'.slots := by
  unfold applySchedulePlan at hop
  obtain ⟨checked, same, hchecked, hplan⟩ := bind_eq_ok.mp hop
  obtain rfl := (readOnly_checkedPlan planId userId allowV2).state_eq hchecked
  unfold writePlan at hplan
  rw [get_bind_eq_ok] at hplan
  obtain ⟨taskIds, middle, hwrite, hmark⟩ := bind_eq_ok.mp hplan
  rw [modify_bind_eq_ok] at hmark
  obtain ⟨-, rfl⟩ := pure_eq_ok.mp hmark
  refine (queued_writeTasks checked.tasks hwrite (fun machineId ↦ ⟨?_, ?_⟩) h : Queued middle.slots)
  · refine Board.one_le_nextPosition fun task htask ↦ ?_
    exact h.positive task.slot (Board.mem_slots.mpr ⟨task, (List.mem_filter.mp htask).1, rfl⟩)
  · intro slot hslot hmachine
    obtain ⟨task, htask, rfl⟩ := Board.mem_slots.mp hslot
    exact Board.lt_nextPosition (List.mem_filter.mpr ⟨htask, decide_eq_true hmachine⟩)

/-! ### Runs -/

theorem queued_commit {α : Type} {body : Txn Failure Board α} {board : Board}
    (h : Queued board.slots)
    (hbody : ∀ a board', body board = .ok a board' → Queued board'.slots) :
    Queued (commit body board).slots := by
  rcases commit_cases body board with heq | ⟨a, board', hok, heq⟩
  · rwa [heq]
  · rw [heq]
    exact hbody a board' hok

/-- Every step keeps the queues. -/
theorem queued_step (board : Board) (input : Call × BoardOp) (h : Queued board.slots) :
    Queued (board.step input).slots := by
  obtain ⟨call, op⟩ := input
  cases op with
  | createOrder request =>
    refine queued_commit h fun _ board' hop ↦ ?_
    unfold Board.slots
    rwa [(createOrderRecord_ok hop).2.2.2.1]
  | updateOrder orderId fields =>
    refine queued_commit h fun _ board' hop ↦ ?_
    obtain ⟨order, -, -, change, hid, -, -, rfl⟩ := updateOrder_ok hop
    exact h
  | deleteOrder orderId =>
    refine queued_commit h fun _ board' hop ↦ ?_
    obtain ⟨order, -, -, rfl⟩ := deleteOrder_ok hop
    exact h
  | createTask machineId orderIds => exact queued_commit h fun _ _ ↦ queued_createTask h
  | updateTask taskId fields => exact queued_commit h fun _ _ ↦ queued_updateTask h
  | deleteTask taskId => exact queued_commit h fun _ _ ↦ queued_deleteTask h
  | moveOrder move => exact queued_commit h fun _ _ ↦ queued_moveOrder h
  | moveTask taskId targetMachineId targetIndex => exact queued_commit h fun _ _ ↦ queued_moveTask h
  | reorderTasks machineId orderedTaskIds => exact queued_commit h fun _ _ ↦ queued_reorderTasks h
  | createPlan sessionId userId orderIds =>
    refine queued_commit h fun _ board' hop ↦ ?_
    obtain ⟨-, -, plans, issued, -, -, -, -, -, -, -, -, -, rfl⟩ := createSchedulePlan_ok hop
    exact h
  | applyPlan planId userId allowV2 => exact queued_commit h fun _ _ ↦ queued_applySchedulePlan h
  | changePlan planChange => exact h
  | maintain customers products formulas machines => exact h

/-- A list of one value at most, without repetitions, has one element at most. -/
theorem length_le_one {α : Type} {l : List α} (hnodup : l.Nodup)
    (h : ∀ first ∈ l, ∀ second ∈ l, first = second) : l.length ≤ 1 := by
  match l with
  | [] => exact Nat.zero_le 1
  | [_] => exact le_refl 1
  | first :: second :: rest =>
    rw [h first List.mem_cons_self second (List.mem_cons_of_mem _ List.mem_cons_self),
      List.nodup_cons] at hnodup
    exact absurd List.mem_cons_self hnodup.1

/-- In every state that a run from the empty board reaches, the tasks of a machine that are not done
have pairwise distinct positions from one on, and at most one task of it is in production. -/
theorem queues_run (inputs : List (Call × BoardOp)) (machineId : Id) :
    let board := System.run Board.step Board.empty inputs
    ((board.activeTasks machineId).map ProductionTask.position).Nodup ∧
      (∀ task ∈ board.activeTasks machineId, 1 ≤ task.position) ∧
      (board.tasks.rows.filter
        (fun task ↦ task.machineId = machineId ∧ task.status = .producing)).length ≤ 1 := by
  intro board
  have hempty : Queued Board.empty.slots := by
    refine ⟨?_, ?_, ?_⟩ <;> intro <;> simp [Board.slots, Board.empty, Slot.DistinctOn]
  have h : Queued board.slots := System.invariant_run_all queued_step inputs Board.empty hempty
  have hnodup : board.tasks.rows.Nodup := board.tasks.nodup.of_map
  have hslot : ∀ task ∈ board.tasks.rows, task.slot ∈ board.slots := fun task htask ↦
    Board.mem_slots.mpr ⟨task, htask, rfl⟩
  refine ⟨?_, ?_, ?_⟩
  · refine List.Nodup.map_on (fun first hfirst second hsecond hposition ↦ ?_) (hnodup.filter _)
    obtain ⟨hfirst, hfirstOn⟩ := List.mem_filter.mp hfirst
    obtain ⟨hsecond, hsecondOn⟩ := List.mem_filter.mp hsecond
    rw [decide_eq_true_eq] at hfirstOn hsecondOn
    refine board.tasks.eq_of_key_eq hfirst hsecond ?_
    exact h.distinct machineId first.slot (hslot first hfirst) second.slot (hslot second hsecond)
      hfirstOn.1 hsecondOn.1 hfirstOn.2 hsecondOn.2 hposition
  · exact fun task htask ↦ h.positive task.slot (hslot task (List.mem_filter.mp htask).1)
  · have hone : ∀ first ∈ board.tasks.rows, ∀ second ∈ board.tasks.rows,
        first.machineId = machineId ∧ first.status = .producing →
          second.machineId = machineId ∧ second.status = .producing → first = second := by
      intro first hfirst second hsecond hfirstOn hsecondOn
      refine board.tasks.eq_of_key_eq hfirst hsecond ?_
      exact h.single first.slot (hslot first hfirst) second.slot (hslot second hsecond)
        (hfirstOn.1.trans hsecondOn.1.symm) hfirstOn.2 hsecondOn.2
    refine length_le_one (hnodup.filter _) fun first hfirst second hsecond ↦ ?_
    obtain ⟨hfirst, hfirstOn⟩ := List.mem_filter.mp hfirst
    obtain ⟨hsecond, hsecondOn⟩ := List.mem_filter.mp hsecond
    exact hone first hfirst second hsecond (of_decide_eq_true hfirstOn)
      (of_decide_eq_true hsecondOn)

end FilmOS
