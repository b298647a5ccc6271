import FilmOS.Board.State

/-!
# The order service

Creation, update and deletion of orders. Creation validates the specification form, converts the
quantity to metres or kilograms and takes a snapshot of the formula; an order that belongs to a task
can be neither updated nor deleted.

An update names the fields of the request that were given, a given field possibly being null. The
columns that may not be null and the foreign keys are checked by the database when the order is
flushed, after the checks of the service.
-/

set_option autoImplicit false
set_option relaxedAutoImplicit false

namespace FilmOS.OrderService

open Transaction PythonText Numeral Specification

/-- The next order number, `ORD-<date>-<serial>`. -/
def generateOrderNo (call : Call) : Txn Failure Board String := do
  let board ← get
  let serial := board.orderNumber + 1
  set { board with orderNumber := serial }
  return s!"ORD-{call.today}-{String.ofList (padZeros 3 (Nat.repr serial).toList)}"

/-- `_build_formula_snapshot`: the formula must exist, and belong to the product when one is
given. -/
def buildFormulaSnapshot (board : Board) (formulaId productId : Option Id) :
    Except Failure (Option FormulaSnapshot) := do
  match truthy formulaId with
  | none => return none
  | some id =>
    match board.formulas.find? id with
    | none => .error (.http 400 "配方不存在")
    | some formula =>
      ensure (∀ product ∈ productId, formula.productId = product) (.http 400 "配方与订单产品不匹配")
      return some ⟨formula.name, formula.specParams, formula.materials⟩

/-- The body of an order creation request. -/
structure OrderRequest where
  customerId : Id
  productId : Id
  specParams : Dict String
  quantity : ℚ
  unit : String
  formulaId : Option Id
  extraNotes : Option String

/-- The notes of a created order: a quantity in another unit than the standard ones is kept. -/
def creationNotes (request : OrderRequest) : Option String :=
  if request.unit = "m" ∨ request.unit = "kg" then request.extraNotes
  else
    some <| join "；" <|
      [request.extraNotes.getD "", s!"原始数量：{formatG request.quantity}{request.unit}"].filter
        (· ≠ "")

/-- `create_order_record`. -/
def createOrderRecord (call : Call) (request : OrderRequest) : Txn Failure Board Order := do
  require (request.customerId ≠ "" ∧ request.productId ≠ "" ∧ request.unit ≠ "")
    (.http 400 "客户、产品、数量和单位为必填项")
  require (0 < request.quantity) (.http 400 "订单数量必须大于零")
  require (request.unit ∈ ["m", "g", "kg", "t", "cm", "mm"])
    (.http 400 "订单单位仅支持 m、g、kg 或历史单位 t")
  let specParams ← checked (validateSpecification request.specParams)
  let (quantity, unit) ← checked (standardQuantity request.quantity request.unit)
  let board ← get
  let _ ← orRaise (board.customers.find? request.customerId) (.http 400 "客户不存在")
  let product ← orRaise (board.products.find? request.productId) (.http 400 "产品不存在")
  let orderNo ← generateOrderNo call
  let formulaSnapshot ← checked
    (buildFormulaSnapshot board request.formulaId (some request.productId))
  let id ← Board.generateId call
  let order : Order :=
    { id, orderNo, customerId := request.customerId, product, specParams, quantity, unit,
      formulaId := truthy request.formulaId, formulaSnapshot,
      extraNotes := (truthy (creationNotes request)).map strip,
      status := .pending, taskId := none, createdAt := call.now, updatedAt := call.now }
  let board ← get
  require (∀ other ∈ board.orders.rows, other.orderNo ≠ orderNo)
    (.integrityError "orders_order_no_key")
  let orders ← orRaise (board.orders.insert? order) (.integrityError "orders_pkey")
  set { board with orders }
  return order

/-- The fields of an order update: `none` for a field that is not given, `some none` for null. -/
structure OrderFields where
  customerId : Option (Option Id)
  productId : Option (Option Id)
  specParams : Option (Option (Dict String))
  quantity : Option (Option ℚ)
  unit : Option (Option String)
  formulaId : Option (Option Id)
  extraNotes : Option (Option String)
  status : Option (Option OrderStatus)
deriving DecidableEq

/-- The update without any field. -/
def OrderFields.none : OrderFields :=
  ⟨.none, .none, .none, .none, .none, .none, .none, .none⟩

/-- The formula and its snapshot after an update. -/
def updatedFormula (board : Board) (order : Order) (fields : OrderFields) :
    Except Failure (Option Id × Option FormulaSnapshot) := do
  match fields.formulaId with
  | some formulaId =>
    let target := fields.productId.getD (some order.product.id)
    let snapshot ← buildFormulaSnapshot board formulaId target
    return (truthy formulaId, snapshot)
  | none =>
    match fields.productId, truthy order.formulaId with
    | some productId, some formulaId =>
      let _ ← buildFormulaSnapshot board (some formulaId) productId
      return (order.formulaId, order.formulaSnapshot)
    | _, _ => return (order.formulaId, order.formulaSnapshot)

/-- The quantity and unit after an update: standardised when either is given. -/
def updatedQuantity (order : Order) (fields : OrderFields) : Except Failure (ℚ × String) :=
  if fields.unit = none ∧ fields.quantity = none then .ok (order.quantity, order.unit)
  else
    let unit := (fields.unit.getD (some order.unit)).getD ""
    match fields.quantity.getD (some order.quantity) with
    | some quantity => standardQuantity quantity unit
    | none =>
      if (quantityFactors.lookup unit).isNone then .error (.http 400 "数量或单位无效")
      else .error (.typeError "must be real number, not NoneType")

/-- The row a changed reference points to, as the flush accepts it: not null, and an existing row.
`none` when the reference is not changed. -/
def flushReference {ρ : Type} [Keyed Id ρ] (table : Table ρ) (constraint : String) :
    Option (Option Id) → Except Failure (Option ρ)
  | none => .ok none
  | some id =>
    match id.bind table.find? with
    | some row => .ok (some row)
    | none => .error (.integrityError constraint)

/-- `update_order`. -/
def updateOrder (call : Call) (orderId : Id) (fields : OrderFields) : Txn Failure Board Unit := do
  let board ← get
  let order ← orRaise (board.orders.find? orderId) (.http 404 "订单不存在")
  require (order.taskId = none ∨ fields = .none)
    (.http 409 "订单已进入排产，请先通过生产看板将订单退回待排单")
  require (fields.status = none ∨ fields.status = some (some .pending))
    (.http 400 "订单生产状态只能由生产任务流转更新")
  let (formulaId, formulaSnapshot) ← checked (updatedFormula board order fields)
  let specParams ← match fields.specParams with
    | none => pure order.specParams
    | some specs => checked (validateSpecification (specs.getD Table.empty))
  let (quantity, unit) ← checked (updatedQuantity order fields)
  let extraNotes := match fields.extraNotes with
    | none => order.extraNotes
    | some notes => (truthy notes).map strip
  -- what follows is checked when the order is flushed
  let customer ← checked
    (flushReference board.customers "orders_customer_id_fkey" fields.customerId)
  let product ← checked
    (flushReference board.products "orders_product_id_fkey" fields.productId)
  let change (row : Order) : Order :=
    { row with
      customerId := (customer.map Customer.id).getD row.customerId
      product := product.getD row.product
      specParams, quantity, unit, formulaId, formulaSnapshot, extraNotes
      status := if fields.status = none then row.status else .pending
      taskId := if fields.status = none then row.taskId else none }
  set (board.changeOrders call [orderId] change (fun _ ↦ rfl))

/-- `delete_order`. -/
def deleteOrder (orderId : Id) : Txn Failure Board Unit := do
  let board ← get
  let order ← orRaise (board.orders.find? orderId) (.http 404 "订单不存在")
  require (order.taskId = none) (.http 409 "订单已进入排产，请先通过生产看板将订单退回待排单")
  set { board with orders := board.orders.erase orderId }

/-! ### What the operations do -/

/-- A created order is a new pending row. -/
theorem createOrderRecord_ok {call : Call} {request : OrderRequest} {board board' : Board}
    {order : Order} (h : createOrderRecord call request board = .ok order board') :
    order.status = .pending ∧ order.taskId = none ∧
      board'.orders.rows = board.orders.rows ++ [order] ∧ board'.tasks = board.tasks ∧
      board'.machines = board.machines ∧ board'.plans = board.plans := by
  unfold createOrderRecord generateOrderNo Board.generateId at h
  simp only [get_bind_eq_ok, set_bind_eq_ok, require_bind_eq_ok, orRaise_bind_eq_ok,
    checked_bind_eq_ok, pure_eq_ok, bind_assoc, pure_bind] at h
  obtain ⟨-, -, -, specParams, -, quantity, -, customer, -, product, -, snapshot, -, -, orders,
    hinsert, rfl, rfl⟩ := h
  exact ⟨rfl, rfl, ((Table.insert?_eq_some_iff _ _ _).mp hinsert).2, rfl, rfl, rfl⟩

/-- An update changes the content of one order, which is outside every task unless no field was
given; a given status sends it back to the pending orders. -/
theorem updateOrder_ok {call : Call} {orderId : Id} {fields : OrderFields} {board board' : Board}
    {u : Unit} (h : updateOrder call orderId fields board = .ok u board') :
    ∃ order, board.orders.find? orderId = some order ∧ (order.taskId = none ∨ fields = .none) ∧
      ∃ change : Order → Order, ∃ hid : ∀ row, (change row).id = row.id,
        (∀ row, (change row).status = if fields.status = none then row.status else .pending) ∧
        (∀ row, (change row).taskId = if fields.status = none then row.taskId else none) ∧
        board' = board.changeOrders call [orderId] change hid := by
  unfold updateOrder at h
  simp only [get_bind_eq_ok, require_bind_eq_ok, orRaise_bind_eq_ok, checked_bind_eq_ok] at h
  obtain ⟨order, hfind, hfree, -, formula, -, h⟩ := h
  cases hspecs : fields.specParams with
  | none =>
    simp only [hspecs, pure_bind, checked_bind_eq_ok, set_eq_ok] at h
    obtain ⟨quantity, -, customer, -, product, -, rfl⟩ := h
    refine ⟨order, hfind, hfree, _, _, ?_, ?_, rfl⟩
    · exact fun _ ↦ rfl
    · exact fun _ ↦ rfl
  | some specs =>
    simp only [hspecs, checked_bind_eq_ok, set_eq_ok] at h
    obtain ⟨specParams, -, quantity, -, customer, -, product, -, rfl⟩ := h
    refine ⟨order, hfind, hfree, _, _, ?_, ?_, rfl⟩
    · exact fun _ ↦ rfl
    · exact fun _ ↦ rfl

/-- A deleted order was outside every task. -/
theorem deleteOrder_ok {orderId : Id} {board board' : Board} {u : Unit}
    (h : deleteOrder orderId board = .ok u board') :
    ∃ order, board.orders.find? orderId = some order ∧ order.taskId = none ∧
      board' = { board with orders := board.orders.erase orderId } := by
  unfold deleteOrder at h
  simp only [get_bind_eq_ok, require_bind_eq_ok, orRaise_bind_eq_ok, set_eq_ok] at h
  obtain ⟨order, hfind, hnone, rfl⟩ := h
  exact ⟨order, hfind, hnone, rfl⟩

end FilmOS.OrderService
