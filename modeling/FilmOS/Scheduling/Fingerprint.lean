import FilmOS.Scheduling.Planner

/-!
# Fingerprints of scheduling inputs

A plan remembers the state it was computed from: `inputFingerprint` is a dictionary with the update
time of each order, digests of the order contents, of the pending set and of the active machine set,
and one digest for each machine. The hash is taken to be free of collisions: a `Digest` is the
content that was hashed.
-/

set_option autoImplicit false
set_option relaxedAutoImplicit false

namespace FilmOS.Scheduling

/-- What enters the digest of an order's content. -/
structure OrderContent where
  id : Id
  quantity : ℚ
  unit : String
  spec : List (String × String)
  formula : Option (String × List (String × String) × String)
  product : Id
  category : Id
  customer : Id
  formulaId : Option Id
deriving DecidableEq

/-- What enters the digest of a machine for each of its active tasks. -/
structure TaskContent where
  id : Id
  position : ℤ
  status : TaskStatus
  updatedAt : Time
  orders : List (Id × Time)
deriving DecidableEq

/-- What enters the digest of a machine. -/
structure MachineContent where
  active : Bool
  minWidth : ℚ
  maxWidth : ℚ
  categories : List Id
  patterns : List Id
  queue : List TaskContent
deriving DecidableEq

/-- The digest of a content: without collisions, so the content itself. -/
inductive Digest
  | orderContents (contents : List OrderContent)
  | identifiers (ids : List Id)
  | machine (content : MachineContent)
deriving DecidableEq

/-- A value of a fingerprint. -/
inductive FingerprintValue
  | number (n : ℕ)
  | flag (value : Bool)
  | basis (value : LoadBasis)
  | time (value : Time)
  | digest (value : Digest)
deriving DecidableEq

/-- A value that Python counts as true. -/
def FingerprintValue.Truthy : FingerprintValue → Prop
  | .number n => n ≠ 0
  | .flag value => value = true
  | .basis _ => True
  | .time _ => True
  | .digest _ => True

instance (value : FingerprintValue) : Decidable value.Truthy := by
  cases value <;> unfold FingerprintValue.Truthy <;> infer_instance

abbrev Fingerprint := Dict FingerprintValue

/-- `stable_hash`, of lists of identifiers. -/
def hashIds (ids : List Id) : FingerprintValue := .digest (.identifiers (orderBy id ids))

def schedulingRuleVersion : ℕ := 3

def rulesKey : String := "__scheduling_rules__"

def schemaKey : String := "schema_version"

def basisKey : String := "__load_basis__"

def contentsKey : String := "__order_contents__"

def pendingSetKey : String := "__pending_order_set__"

def activeMachineSetKey : String := "__active_machine_set__"

def scopeKey : String := "__selection_scope__"

def machineKey (id : Id) : String := "machine:" ++ id

/-- The keys of a fingerprint that do not depend on the state. -/
def fixedKeys : List String :=
  [schemaKey, rulesKey, basisKey, contentsKey, pendingSetKey, activeMachineSetKey, scopeKey]

/-- The entries of a dictionary as they are hashed, in the order of their keys. -/
def sortedItems (d : Dict String) : List (String × String) := orderBy Prod.fst d.rows

/-- The content of an order for its digest. -/
def orderContent (order : Order) : OrderContent where
  id := order.id
  quantity := order.quantity
  unit := order.unit
  spec := sortedItems order.specParams
  formula := order.formulaSnapshot.map fun snapshot ↦
    (snapshot.name, sortedItems snapshot.specParams, snapshot.materials)
  product := order.product.id
  category := order.product.category.id
  customer := order.customerId
  formulaId := order.formulaId

/-- The content of an active task for the digest of its machine. -/
def taskContent (task : LoadedTask) : TaskContent where
  id := task.task.id
  position := task.task.position
  status := task.task.status
  updatedAt := task.task.updatedAt
  orders := orderBy toLex (task.orders.map (fun order ↦ (order.id, order.updatedAt)))

/-- The active tasks of a machine in queue order. -/
def LoadedMachine.queue (machine : LoadedMachine) : List LoadedTask :=
  orderBy (fun task ↦ toLex (task.task.position, task.task.id)) machine.activeTasks

/-- `machine_fingerprint`. -/
def machineFingerprint (machine : LoadedMachine) : FingerprintValue :=
  .digest <| .machine
    { active := machine.machine.isActive
      minWidth := machine.machine.minWidth
      maxWidth := machine.machine.maxWidth
      categories := orderBy id machine.machine.categoryLinks
      patterns := orderBy id (machine.machine.patternLinks.map Pattern.id)
      queue := machine.queue.map taskContent }

/-- The digest of the contents of orders. -/
def orderContents (orders : List Order) : FingerprintValue :=
  .digest (.orderContents ((orderBy Order.id orders).map orderContent))

/-- `input_fingerprint`. -/
def inputFingerprint (orders : List Order) (machines : List LoadedMachine) : Fingerprint :=
  let times := orders.map (fun order ↦ (order.id, FingerprintValue.time order.updatedAt))
  let fixed :=
    [(schemaKey, FingerprintValue.number 1),
      (rulesKey, .number schedulingRuleVersion),
      (basisKey, .basis (loadBasis orders machines)),
      (contentsKey, orderContents orders),
      (pendingSetKey, hashIds (orders.map Order.id)),
      (activeMachineSetKey, hashIds (machines.map (·.machine.id)))]
  let perMachine := machines.map (fun machine ↦
    (machineKey machine.machine.id, machineFingerprint machine))
  ((Dict.ofList times).update fixed).update perMachine

/-- The fingerprint with the mark of a plan for selected orders. -/
def withScope (selected : Bool) (fingerprint : Fingerprint) : Fingerprint :=
  if selected then fingerprint.set scopeKey (.flag true) else fingerprint

/-- The value under a key, if there is one and Python counts it as true. -/
def expected? (fingerprint : Fingerprint) (key : String) : Option FingerprintValue :=
  (fingerprint.get? key).filter (fun value ↦ decide value.Truthy)

end FilmOS.Scheduling
