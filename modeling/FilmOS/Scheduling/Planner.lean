import FilmOS.Production.Rules
import FilmOS.Library.Batching
import Mathlib.Data.Prod.Lex
import Mathlib.Data.List.MinMax

/-!
# The planner

`buildTasks` proposes production tasks for a list of orders on a list of machines loaded with their
queues. Orders are grouped by signature, and from each group batches are assigned one after another,
each to the machine where its changeover costs least, until no machine can take a batch of what
remains.

The planner changes the states of the machines while it assigns, so its loop carries them in
`Planning`. An order enters the loop with its width (`SizedOrder`), which is what the assertions of
the source on widths say. The assertion on loads and the division by a machine's width stay as
failures, and the loop runs on fuel; `FilmOS.Scheduling.PlannerLaws` shows that none of these ever
happens.
-/

set_option autoImplicit false
set_option relaxedAutoImplicit false

namespace FilmOS.Scheduling

open Production PythonText Numeral Transaction

/-! ### Loaded machines -/

/-- A task loaded with its orders. -/
structure LoadedTask where
  task : ProductionTask
  orders : List Order
deriving DecidableEq

/-- A machine loaded with its tasks and their orders. -/
structure LoadedMachine where
  machine : Machine
  tasks : List LoadedTask
deriving DecidableEq

/-- The tasks of a machine that are not done. -/
def LoadedMachine.activeTasks (machine : LoadedMachine) : List LoadedTask :=
  machine.tasks.filter (fun task ↦ task.task.status ≠ .done)

/-- The orders in the active tasks of a machine. -/
def LoadedMachine.queuedOrders (machine : LoadedMachine) : List Order :=
  machine.activeTasks.flatMap LoadedTask.orders

/-- What the planner keeps of a machine while it assigns batches to it. -/
structure MachineState where
  machine : Machine
  loadKg : Option ℚ
  taskCount : ℕ
  lastSignature : Option ProductionSignature
  lastWidth : Option ℚ

def MachineState.categoryIds (state : MachineState) : List Id := state.machine.categoryLinks

def MachineState.patternNames (state : MachineState) : List String :=
  Production.patternNames state.machine

/-- An order whose width is recognised. -/
structure SizedOrder where
  order : Order
  width : ℚ
  width_eq : (orderProfile order).width = some width

def SizedOrder.info (sized : SizedOrder) : OrderProductionProfile := orderProfile sized.order

/-- `_machine_compatible`. -/
def MachineCompatible (state : MachineState) (signature : ProductionSignature) : Prop :=
  state.machine.isActive ∧ signature.categoryId ∈ state.categoryIds ∧
    (casefold signature.pattern = "" ∨ casefold signature.pattern ∈ state.patternNames)

instance (state : MachineState) (signature : ProductionSignature) :
    Decidable (MachineCompatible state signature) :=
  inferInstanceAs (Decidable (_ ∧ _ ∧ (_ ∨ _)))

/-! ### Loads -/

/-- `quantity_kg`. -/
def quantityKg (order : Order) : Option ℚ :=
  ([("t", 1000), ("kg", 1), ("g", 1 / 1000)].lookup order.unit).map (order.quantity * ·)

/-- `batch_quantity_kg`: the weight of all orders, when each has one. -/
def batchQuantityKg (orders : List Order) : Option ℚ := (orders.mapM quantityKg).map List.sum

/-- The comparison used between the loads of machines. -/
inductive LoadBasis
  | taskCount
  | weightKg
deriving DecidableEq

/-- `load_basis`. -/
def loadBasis (orders : List Order) (machines : List LoadedMachine) : LoadBasis :=
  let queued := machines.flatMap LoadedMachine.queuedOrders
  if (orders ++ queued).any (fun order ↦ (quantityKg order).isNone) then .taskCount else .weightKg

/-! ### Changeover costs -/

/-- The costs of a batch on a machine, most important first: changes of material, category,
thickness, pattern and width, the unused share of the width, the load, and the machine's name and
identifier. -/
abbrev ChangeoverKey := ℕ ×ₗ ℕ ×ₗ ℕ ×ₗ ℕ ×ₗ ℕ ×ₗ ℚ ×ₗ ℚ ×ₗ String ×ₗ Id

/-- One when there is a previous value and it differs, else zero. -/
def changes {α : Type} (previous : Option α) (differs : α → Prop) [DecidablePred differs] : ℕ :=
  match previous with
  | some value => if differs value then 1 else 0
  | none => 0

/-- The load of a machine after one more batch. -/
def loadAfter (state : MachineState) (batchLoadKg : Option ℚ) : LoadBasis → Except Failure ℚ
  | .taskCount => .ok (state.taskCount + 1)
  | .weightKg =>
    match state.loadKg, batchLoadKg with
    | some load, some batchLoad => .ok (load + batchLoad)
    | _, _ => .error .assertionError

/-- `_changeover_key`. -/
def changeoverKey (state : MachineState) (signature : ProductionSignature) (totalWidth : ℚ)
    (batchLoadKg : Option ℚ) (basis : LoadBasis) : Except Failure ChangeoverKey := do
  ensure (state.machine.maxWidth ≠ 0) .zeroDivisionError
  let unusedRatio := (state.machine.maxWidth - totalWidth) / state.machine.maxWidth
  let load ← loadAfter state batchLoadKg basis
  let previous := state.lastSignature
  return toLex (changes previous (·.material ≠ signature.material),
    toLex (changes previous (·.categoryId ≠ signature.categoryId),
    toLex (changes previous (·.thickness ≠ signature.thickness),
    toLex (changes previous (fun last ↦ casefold last.pattern ≠ casefold signature.pattern),
    toLex (changes state.lastWidth (· ≠ totalWidth),
    toLex (roundTo 6 unusedRatio,
    toLex (load, toLex (state.machine.name, state.machine.id))))))))

/-- What stays unchanged from the last batch of a machine, for the reason of a task. -/
def unchangedParts (previous signature : ProductionSignature) : List String :=
  (if (truthy signature.material).isSome ∧ previous.material = signature.material
    then ["配方/材料"] else []) ++
  (if previous.categoryId = signature.categoryId then ["产品大类"] else []) ++
  (if (truthy signature.thickness).isSome ∧ previous.thickness = signature.thickness
    then ["厚度"] else []) ++
  (if signature.pattern ≠ "" ∧ casefold previous.pattern = casefold signature.pattern
    then ["花纹"] else [])

/-- `_reason`. -/
def reason (state : MachineState) (signature : ProductionSignature) (orderCount : ℕ)
    (totalWidth : ℚ) : String :=
  let beginning :=
    match state.lastSignature with
    | none => "机器当前无待生产任务"
    | some previous =>
      let unchanged := unchangedParts previous signature
      if unchanged = [] then "在可用机器中换产代价最低"
      else "优先保持" ++ join "、" unchanged ++ "不变"
  let detail :=
    if 1 < orderCount then s!"{orderCount} 张订单生产签名一致，合并生产以减少换产"
    else "机器类别、宽度和花纹能力均匹配"
  let utilization := formatFixed 1 (totalWidth / state.machine.maxWidth * 100)
  s!"{beginning}；{detail}；幅宽利用率 {utilization}%"

/-! ### Machine states -/

/-- `_last_task_signature`: the signature and the width of the last active task of a machine. -/
def lastTaskSignature (machine : LoadedMachine) : Option ProductionSignature × Option ℚ :=
  let last := maxBy (fun task ↦ toLex (task.task.position, task.task.id)) machine.activeTasks
  match last.map LoadedTask.orders with
  | none => (none, none)
  | some [] => (none, none)
  | some (first :: rest) =>
    let widths := (first :: rest).mapM (fun order ↦ (orderProfile order).width)
    (some (orderProfile first).signature, widths.map List.sum)

/-- The state of a machine before any batch is assigned. -/
def machineState (machine : LoadedMachine) : MachineState where
  machine := machine.machine
  loadKg := batchQuantityKg machine.queuedOrders
  taskCount := machine.activeTasks.length
  lastSignature := (lastTaskSignature machine).1
  lastWidth := (lastTaskSignature machine).2

/-! ### Orders that stay unassigned -/

structure UnassignedOrder where
  orderId : Id
  orderNo : String
  reason : String
deriving DecidableEq

/-- `_unassigned_reason`. -/
def unassignedReason (states : List MachineState) (info : OrderProductionProfile) : String :=
  match info.width with
  | none => "订单缺少可识别的宽度"
  | some width =>
    let categoryStates := states.filter (fun state ↦ info.signature.categoryId ∈ state.categoryIds)
    if categoryStates = [] then s!"没有启用且支持“{info.signature.categoryName}”的机器"
    else
      let pattern := info.signature.pattern
      let compatibleStates :=
        if pattern = "" then categoryStates
        else categoryStates.filter (fun state ↦ casefold pattern ∈ state.patternNames)
      match compatibleStates.map (·.machine.maxWidth) with
      | [] => s!"没有机器具备“{pattern}”花纹能力"
      | first :: rest =>
        let maxWidth := rest.foldl max first
        if maxWidth < width then
          s!"订单宽度 {formatG width}mm 超过可用机器最大宽度 {formatG maxWidth}mm"
        else "订单宽度未达到任何匹配机器的最小生产宽度，且无法与同签名订单合并"

/-- The row of an order that stays unassigned. -/
def unassignedRow (states : List MachineState) (info : OrderProductionProfile) :
    UnassignedOrder where
  orderId := info.order.id
  orderNo := info.order.orderNo
  reason := unassignedReason states info

/-! ### Selecting a batch -/

/-- The best batch so far: its orders, their width, and their indexes among the remaining orders. -/
structure Selection where
  batch : List SizedOrder
  totalWidth : ℚ
  indexes : List ℕ

/-- The orders among `remaining` with the identifiers of a batch. -/
def membersOf (batch remaining : List SizedOrder) : List SizedOrder :=
  remaining.filter (fun sized ↦ sized.order.id ∈ batch.map (·.order.id))

/-- The orders among `remaining` without the identifiers of a batch. -/
def withoutBatch (batch remaining : List SizedOrder) : List SizedOrder :=
  remaining.filter (fun sized ↦ sized.order.id ∉ batch.map (·.order.id))

/-- The batch that starts with an anchor and takes every other remaining order that does not
overflow the machine. -/
def scanFrom (remaining : List SizedOrder) (machine : Machine) (anchor : SizedOrder × ℕ) :
    List SizedOrder × ℚ :=
  Batching.fill SizedOrder.width machine.maxWidth (anchor.1 :: remaining.eraseIdx anchor.2)

/-- One anchor of `_select_batch`: its batch is kept when it reaches the minimum width and improves
on the best one. -/
def tryAnchor (remaining : List SizedOrder) (machine : Machine) (best : Selection)
    (anchor : SizedOrder × ℕ) : Selection :=
  if machine.maxWidth < anchor.1.width then best
  else
    let (batch, totalWidth) := scanFrom remaining machine anchor
    if batch ≠ [] ∧ machine.minWidth ≤ totalWidth then
      let indexes := (remaining.zipIdx.filter
        (fun entry ↦ entry.1.order.id ∈ batch.map (·.order.id))).map Prod.snd
      if best.totalWidth < totalWidth ∨
          (totalWidth = best.totalWidth ∧ (best.indexes = [] ∨ indexes < best.indexes)) then
        ⟨membersOf batch remaining, totalWidth, indexes⟩
      else best
    else best

/-- `_select_batch`. -/
def selectBatch (remaining : List SizedOrder) (state : MachineState) : Selection :=
  remaining.zipIdx.foldl (tryAnchor remaining state.machine) ⟨[], 0, []⟩

/-! ### Assigning batches -/

/-- A task of a schedule plan. It gets a draft identifier when the plan becomes the draft of an
agent session. -/
structure ProposedTask where
  draftTaskId : Option Id
  machineId : Id
  machineName : String
  orderIds : List Id
  orderNos : List String
  totalWidth : ℚ
  widthUtilization : ℚ
  totalQuantityKg : Option ℚ
  totalQuantityM : ℚ
  reason : String
deriving DecidableEq

/-- A batch that a machine could take next, with its costs and the place of the machine. -/
structure Candidate where
  key : ChangeoverKey
  index : ℕ
  state : MachineState
  selection : Selection

/-- The orders of a candidate's batch. -/
def Candidate.orders (candidate : Candidate) : List Order :=
  candidate.selection.batch.map SizedOrder.order

/-- The candidate of one machine, if it is compatible and can take a batch. -/
def candidate? (basis : LoadBasis) (signature first : ProductionSignature)
    (remaining : List SizedOrder) (entry : MachineState × ℕ) :
    Except Failure (Option Candidate) :=
  if MachineCompatible entry.1 first then
    let selection := selectBatch remaining entry.1
    if selection.batch = [] then .ok none
    else do
      let batchLoadKg := batchQuantityKg (selection.batch.map SizedOrder.order)
      let key ← changeoverKey entry.1 signature selection.totalWidth batchLoadKg basis
      return some ⟨key, entry.2, entry.1, selection⟩
  else .ok none

/-- The candidates of all machines, in the order of the machines. -/
def candidates (basis : LoadBasis) (signature first : ProductionSignature)
    (remaining : List SizedOrder) (states : List MachineState) :
    Except Failure (List Candidate) := do
  let found ← states.zipIdx.mapM (candidate? basis signature first remaining)
  return found.reduceOption

/-- The quantity of the orders counted in metres. -/
def totalQuantityM (orders : List Order) : ℚ :=
  ((orders.filter (·.unit = "m")).map Order.quantity).sum

/-- The note on the load comparison, which a task carries when loads are task counts. -/
def basisNote : LoadBasis → String
  | .taskCount => "；同等条件下按未完成任务数粗略比较负载，不代表预计工时"
  | .weightKg => ""

/-- The task for a candidate. The width of its machine is not zero: its key was computed. -/
def proposedTask (basis : LoadBasis) (signature : ProductionSignature) (candidate : Candidate) :
    ProposedTask where
  draftTaskId := none
  machineId := candidate.state.machine.id
  machineName := candidate.state.machine.name
  orderIds := candidate.orders.map Order.id
  orderNos := candidate.orders.map Order.orderNo
  totalWidth := candidate.selection.totalWidth
  widthUtilization := roundTo 4 (candidate.selection.totalWidth / candidate.state.machine.maxWidth)
  totalQuantityKg := batchQuantityKg candidate.orders
  totalQuantityM := totalQuantityM candidate.orders
  reason := reason candidate.state signature candidate.orders.length candidate.selection.totalWidth
    ++ basisNote basis

/-- The state of a candidate's machine after its batch. -/
def stateAfter (signature : ProductionSignature) (candidate : Candidate) : MachineState where
  machine := candidate.state.machine
  loadKg := (candidate.state.loadKg).bind fun load ↦
    (batchQuantityKg candidate.orders).map (load + ·)
  taskCount := candidate.state.taskCount + 1
  lastSignature := some signature
  lastWidth := some candidate.selection.totalWidth

/-- The states of the machines, and the tasks and unassigned orders so far. -/
structure Planning where
  states : List MachineState
  tasks : List ProposedTask
  unassigned : List UnassignedOrder

/-- The planning after a candidate's batch is assigned. -/
def Planning.assign (basis : LoadBasis) (signature : ProductionSignature) (candidate : Candidate)
    (planning : Planning) : Planning where
  states := planning.states.set candidate.index (stateAfter signature candidate)
  tasks := planning.tasks ++ [proposedTask basis signature candidate]
  unassigned := planning.unassigned

/-- The planning after the remaining orders of a group are given up. -/
def Planning.giveUp (remaining : List SizedOrder) (planning : Planning) : Planning where
  states := planning.states
  tasks := planning.tasks
  unassigned := planning.unassigned ++
    remaining.map (fun sized ↦ unassignedRow planning.states sized.info)

/-- The loop over one group. Each round assigns one batch of what remains, or gives it up. -/
def planGroup (basis : LoadBasis) (signature : ProductionSignature) :
    ℕ → List SizedOrder → Planning → Except Failure Planning
  | _, [], planning => .ok planning
  | 0, _ :: _, _ => .error .diverged
  | fuel + 1, first :: rest, planning => do
    let found ← candidates basis signature first.info.signature (first :: rest) planning.states
    match minBy Candidate.key found with
    | none => return planning.giveUp (first :: rest)
    | some candidate =>
      planGroup basis signature fuel (withoutBatch candidate.selection.batch (first :: rest))
        (planning.assign basis signature candidate)

/-- What the orders of one group share: the signature, whether they are counted in metres, and for
an order that may not be merged its identifier. -/
structure GroupKey where
  signature : ProductionSignature
  meter : Bool
  discriminator : Option Id

instance : DecidableEq GroupKey := fun left right ↦
  decidable_of_iff
    (left.signature = right.signature ∧ left.meter = right.meter ∧
      left.discriminator = right.discriminator)
    (by cases left; cases right; simp)

def groupKey (sized : SizedOrder) : GroupKey where
  signature := sized.info.signature
  meter := decide (sized.order.unit = "m")
  discriminator := if sized.info.signature.CompleteForMerge then none else some sized.order.id

/-- The order with its width, if it has one. -/
def sized? (order : Order) : Option SizedOrder :=
  match h : (orderProfile order).width with
  | some width => some ⟨order, width, h⟩
  | none => none

/-- What the planner proposes: tasks, and the orders it could not assign. -/
structure Proposal where
  tasks : List ProposedTask
  unassigned : List UnassignedOrder
deriving DecidableEq

/-- `build_tasks`. -/
def buildTasks (orders : List Order) (machines : List LoadedMachine) : Except Failure Proposal := do
  let states := machines.map machineState
  let basis := loadBasis orders machines
  let unsized := ((orders.map orderProfile).filter (·.width.isNone)).map (unassignedRow states)
  let groups := Batching.groupBy groupKey (orders.filterMap sized?)
  let planning ← groups.foldlM
    (fun planning group ↦ planGroup basis group.1.signature group.2.length group.2 planning)
    ⟨states, [], unsized⟩
  return ⟨planning.tasks, planning.unassigned⟩

end FilmOS.Scheduling
