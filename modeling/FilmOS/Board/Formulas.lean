import FilmOS.Board.Orders

/-!
# The formula service and the submission of drafts

Creation, update and deletion of formulas, and the creation of an order from a draft of the
workspace, which may bring a new formula along. A formula names its product and, when it was derived
from another one, that source; both are foreign keys, which the database checks at the flush. A
deleted formula is referenced by no order, and the formulas derived from it lose their source.
-/

set_option autoImplicit false
set_option relaxedAutoImplicit false

namespace FilmOS

open Transaction PythonText Numeral OrderService

@[simp] theorem key_formula (formula : Formula) : Keyed.key formula = formula.id := rfl

/-- What a snapshot keeps of a formula. -/
def Formula.content (formula : Formula) : FormulaSnapshot :=
  ⟨formula.name, formula.specParams, formula.materials⟩

/-- An order without a formula, or with one of the board that belongs to its product and is kept by
the snapshot as it is. -/
def Board.Chooses (board : Board) (order : Order) : Prop :=
  ∀ formulaId ∈ order.formulaId, formulaId ≠ "" ∧
    ∃ formula, board.formulas.find? formulaId = some formula ∧
      formula.productId = order.product.id ∧ order.formulaSnapshot = some formula.content

namespace OrderService

/-- A snapshot is of the formula that is given, which exists and belongs to the product given. -/
theorem buildFormulaSnapshot_ok {board : Board} {formulaId productId : Option Id}
    {snapshot : Option FormulaSnapshot}
    (h : buildFormulaSnapshot board formulaId productId = .ok snapshot) :
    ∀ id ∈ truthy formulaId, ∃ formula, board.formulas.find? id = some formula ∧
      (∀ product ∈ productId, formula.productId = product) ∧ snapshot = some formula.content := by
  intro id hid
  unfold buildFormulaSnapshot at h
  rw [Option.mem_def] at hid
  simp only [hid] at h
  cases hfind : board.formulas.find? id with
  | none =>
    simp only [hfind] at h
    cases h
  | some formula =>
    simp only [hfind] at h
    obtain ⟨_, hproduct, hcontent⟩ := except_bind_eq_ok.mp h
    exact ⟨formula, rfl, ensure_eq_ok.mp hproduct, (except_pure_eq_ok.mp hcontent).symm⟩

/-- A reference that the flush accepts is not changed, or is the key of an existing row. -/
theorem flushReference_ok {ρ : Type} [Keyed Id ρ] {table : Table ρ} {constraint : String}
    {field : Option (Option Id)} {row : Option ρ}
    (h : flushReference table constraint field = .ok row) :
    field = none ∧ row = none ∨ ∃ found, row = some found ∧
      field = some (some (Keyed.key found)) := by
  cases field with
  | none => exact Or.inl ⟨rfl, (Except.ok.inj h).symm⟩
  | some id =>
    unfold flushReference at h
    cases hfind : id.bind table.find? with
    | none =>
      simp only [hfind] at h
      cases h
    | some found =>
      simp only [hfind] at h
      obtain ⟨key, rfl, hkey⟩ := Option.bind_eq_some_iff.mp hfind
      exact Or.inr ⟨found, (Except.ok.inj h).symm, by rw [((table.find?_eq_some_iff).mp hkey).2]⟩

/-- A created order chooses its formula. -/
theorem chooses_createOrderRecord {call : Call} {request : OrderRequest} {board board' : Board}
    {order : Order} (h : createOrderRecord call request board = .ok order board') :
    board'.formulas = board.formulas ∧ board'.Chooses order := by
  unfold createOrderRecord generateOrderNo Board.generateId at h
  simp only [get_bind_eq_ok, set_bind_eq_ok, require_bind_eq_ok, orRaise_bind_eq_ok,
    checked_bind_eq_ok, pure_eq_ok, bind_assoc, pure_bind] at h
  obtain ⟨-, -, -, specParams, -, quantity, -, customer, -, product, hproduct, snapshot, hsnapshot,
    -, orders, -, rfl, rfl⟩ := h
  refine ⟨rfl, fun formulaId hformulaId ↦ ⟨(truthy_eq_some_iff.mp hformulaId).2, ?_⟩⟩
  obtain ⟨formula, hfind, hmatches, hcontent⟩ :=
    buildFormulaSnapshot_ok hsnapshot formulaId hformulaId
  refine ⟨formula, hfind, ?_, hcontent⟩
  rw [hmatches _ rfl]
  exact ((board.products.find?_eq_some_iff).mp hproduct).2.symm

/-- An updated order chooses its formula when one is given. Else it keeps its formula and snapshot,
and the formula belongs to the product of the order unless that was not given either. -/
theorem updatedFormula_ok {board : Board} {order : Order} {fields : OrderFields}
    {formulaId : Option Id} {snapshot : Option FormulaSnapshot} {product : Option Product}
    (hformula : updatedFormula board order fields = .ok (formulaId, snapshot))
    (hproduct : flushReference board.products "orders_product_id_fkey" fields.productId =
      .ok product) :
    (fields.formulaId ≠ none ∧ ∀ id ∈ formulaId, id ≠ "" ∧
      ∃ formula, board.formulas.find? id = some formula ∧
        formula.productId = (product.getD order.product).id ∧
        snapshot = some formula.content) ∨
    (fields.formulaId = none ∧ formulaId = order.formulaId ∧ snapshot = order.formulaSnapshot ∧
      (product = none ∨ ∀ id ∈ order.formulaId, id ≠ "" →
        ∃ formula, board.formulas.find? id = some formula ∧
          formula.productId = (product.getD order.product).id)) := by
  unfold updatedFormula at hformula
  cases hgiven : fields.formulaId with
  | some given =>
    simp only [hgiven] at hformula
    obtain ⟨built, hbuilt, hpair⟩ := except_bind_eq_ok.mp hformula
    obtain ⟨rfl, rfl⟩ := Prod.mk.inj (except_pure_eq_ok.mp hpair)
    refine Or.inl ⟨Option.some_ne_none given, fun id hid ↦ ⟨(truthy_eq_some_iff.mp hid).2, ?_⟩⟩
    obtain ⟨formula, hfind, hmatches, hcontent⟩ := buildFormulaSnapshot_ok hbuilt id hid
    refine ⟨formula, hfind, hmatches _ ?_, hcontent⟩
    rcases flushReference_ok hproduct with ⟨hnone, rfl⟩ | ⟨found, rfl, hsome⟩
    · rw [hnone]
      rfl
    · rw [hsome]
      rfl
  | none =>
    refine Or.inr ⟨rfl, ?_⟩
    rcases flushReference_ok hproduct with ⟨hnone, rfl⟩ | ⟨found, rfl, hsome⟩
    · simp only [hgiven, hnone] at hformula
      obtain ⟨rfl, rfl⟩ := Prod.mk.inj (except_pure_eq_ok.mp hformula)
      exact ⟨rfl, rfl, Or.inl rfl⟩
    · simp only [hgiven, hsome] at hformula
      cases hold : truthy order.formulaId with
      | none =>
        simp only [hold] at hformula
        obtain ⟨rfl, rfl⟩ := Prod.mk.inj (except_pure_eq_ok.mp hformula)
        refine ⟨rfl, rfl, Or.inr fun id hid hne ↦ ?_⟩
        rw [truthy_eq_some_iff.mpr ⟨hid, hne⟩] at hold
        cases hold
      | some old =>
        simp only [hold] at hformula
        obtain ⟨built, hbuilt, hpair⟩ := except_bind_eq_ok.mp hformula
        obtain ⟨rfl, rfl⟩ := Prod.mk.inj (except_pure_eq_ok.mp hpair)
        refine ⟨rfl, rfl, Or.inr fun id hid hne ↦ ?_⟩
        rw [truthy_eq_some_iff.mpr ⟨hid, hne⟩] at hold
        obtain ⟨formula, hfind, hmatches, -⟩ := buildFormulaSnapshot_ok hbuilt id
          (truthy_eq_some_iff.mpr ⟨hold.symm, hne⟩)
        exact ⟨formula, hfind, hmatches _ rfl⟩

/-- An update changes one order, which keeps its formula and its snapshot or chooses a formula. -/
theorem updateOrder_formula {call : Call} {orderId : Id} {fields : OrderFields}
    {board board' : Board} {u : Unit} (h : updateOrder call orderId fields board = .ok u board') :
    ∃ order, board.orders.find? orderId = some order ∧
      ∃ change : Order → Order, ∃ hid : ∀ row, (change row).id = row.id,
        board' = board.changeOrders call [orderId] change hid ∧
        ((fields.formulaId ≠ none ∧ board.Chooses (change order)) ∨
          (fields.formulaId = none ∧ (change order).formulaId = order.formulaId ∧
            (change order).formulaSnapshot = order.formulaSnapshot ∧
            ((change order).product = order.product ∨
              ∀ id ∈ order.formulaId, id ≠ "" →
                ∃ formula, board.formulas.find? id = some formula ∧
                  formula.productId = (change order).product.id))) := by
  unfold updateOrder at h
  simp only [get_bind_eq_ok, require_bind_eq_ok, orRaise_bind_eq_ok, checked_bind_eq_ok] at h
  obtain ⟨order, hfind, -, -, ⟨formulaId, snapshot⟩, hformula, h⟩ := h
  refine ⟨order, hfind, ?_⟩
  have hflushed : ∃ product, flushReference board.products "orders_product_id_fkey"
      fields.productId = .ok product ∧
      ∃ change : Order → Order, ∃ hid : ∀ row, (change row).id = row.id,
        board' = board.changeOrders call [orderId] change hid ∧
        ∀ row, (change row).formulaId = formulaId ∧ (change row).formulaSnapshot = snapshot ∧
          (change row).product = product.getD row.product := by
    cases hspecs : fields.specParams with
    | none =>
      simp only [hspecs, pure_bind, checked_bind_eq_ok, set_eq_ok] at h
      obtain ⟨quantity, -, customer, -, product, hproduct, rfl⟩ := h
      exact ⟨product, hproduct, _, _, rfl, fun _ ↦ ⟨rfl, rfl, rfl⟩⟩
    | some specs =>
      simp only [hspecs, checked_bind_eq_ok, set_eq_ok] at h
      obtain ⟨specParams, -, quantity, -, customer, -, product, hproduct, rfl⟩ := h
      exact ⟨product, hproduct, _, _, rfl, fun _ ↦ ⟨rfl, rfl, rfl⟩⟩
  obtain ⟨product, hproduct, change, hid, hboard, hchange⟩ := hflushed
  obtain ⟨hformulaId, hsnapshot, hproductOf⟩ := hchange order
  refine ⟨change, hid, hboard, ?_⟩
  unfold Board.Chooses
  rw [hformulaId, hsnapshot, hproductOf]
  rcases updatedFormula_ok hformula hproduct with hchosen | ⟨hnone, rfl, rfl, hkept⟩
  · exact Or.inl hchosen
  · refine Or.inr ⟨hnone, rfl, rfl, hkept.imp ?_ id⟩
    rintro rfl
    rfl

end OrderService

namespace FormulaService

/-! ### The formula service -/

/-- The body of a request to create or update a formula. -/
structure FormulaRequest where
  name : String
  productId : Id
  specParams : Dict String
  materials : String
  sourceId : Option Id
  notes : Option String

/-- The row that a request describes. -/
def FormulaRequest.row (request : FormulaRequest) (id : Id) : Formula where
  id := id
  name := strip request.name
  productId := request.productId
  specParams := request.specParams
  materials := request.materials
  sourceId := truthy request.sourceId
  notes := (truthy request.notes).map strip

/-- A formula after an update by a request. -/
def FormulaRequest.replace (request : FormulaRequest) (formula : Formula) : Formula :=
  request.row formula.id

theorem FormulaRequest.key_replace (request : FormulaRequest) (formula : Formula) :
    Keyed.key (request.replace formula) = Keyed.key formula := rfl

/-- What the service asks of a request before it looks at the formula. -/
def FormulaRequest.Filled (request : FormulaRequest) : Prop :=
  strip request.name ≠ "" ∧ request.productId ≠ ""

instance (request : FormulaRequest) : Decidable request.Filled :=
  inferInstanceAs (Decidable (_ ∧ _))

/-- The foreign keys of a formula, as the flush checks them. -/
def flushFormula (board : Board) (formula : Formula) : Except Failure Unit := do
  ensure (formula.productId ∈ board.products.keys) (.integrityError "formulas_product_id_fkey")
  ensure (∀ sourceId ∈ formula.sourceId, sourceId ∈ board.formulas.keys)
    (.integrityError "formulas_source_id_fkey")

/-- Adds a formula and flushes it. Its source is among the formulas there are: the identifier of the
new one is drawn in the call. -/
def addFormula (call : Call) (row : Id → Formula) : Txn Failure Board Id := do
  let board ← get
  let id := call.source.pick (board.usedIds ++ board.formulas.keys)
  let _ ← checked (flushFormula board (row id))
  let formulas ← orRaise (board.formulas.insert? (row id)) (.integrityError "formulas_pkey")
  set { board with formulas, issued := id :: board.issued }
  return id

/-- `create_formula`. -/
def createFormula (call : Call) (request : FormulaRequest) : Txn Failure Board Id := do
  require request.Filled (.http 400 "配方名称和关联产品为必填项")
  addFormula call request.row

/-- `update_formula`. -/
def updateFormula (formulaId : Id) (request : FormulaRequest) : Txn Failure Board Unit := do
  require request.Filled (.http 400 "配方名称和关联产品为必填项")
  let board ← get
  let _ ← orRaise (board.formulas.find? formulaId) (.http 404 "配方不存在")
  let _ ← checked (flushFormula board (request.row formulaId))
  let formulas := board.formulas.update formulaId request.replace request.key_replace
  set { board with formulas }

/-- A formula that was derived from a deleted one has no source. -/
def freed (deletedId : Id) (formula : Formula) : Formula :=
  { formula with sourceId := if formula.sourceId = some deletedId then none else formula.sourceId }

theorem key_freed (deletedId : Id) (formula : Formula) :
    Keyed.key (freed deletedId formula) = Keyed.key formula := rfl

/-- `delete_formula`. -/
def deleteFormula (formulaId : Id) : Txn Failure Board Unit := do
  let board ← get
  require (∀ order ∈ board.orders.rows, order.formulaId ≠ some formulaId)
    (.http 409 "该配方已被订单引用，无法删除")
  let _ ← orRaise (board.formulas.find? formulaId) (.http 404 "配方不存在")
  let formulas := board.formulas.mapRows (freed formulaId) (key_freed formulaId)
  set { board with formulas := formulas.erase formulaId }

/-! ### What the operations do -/

theorem flushFormula_eq_ok {board : Board} {formula : Formula} {u : Unit} :
    flushFormula board formula = .ok u ↔ formula.productId ∈ board.products.keys ∧
      ∀ sourceId ∈ formula.sourceId, sourceId ∈ board.formulas.keys := by
  unfold flushFormula
  rw [except_bind_eq_ok]
  simp only [ensure_eq_ok, exists_const]

/-- An added formula is a new row whose product and source exist. -/
theorem addFormula_ok {call : Call} {row : Id → Formula} {board board' : Board} {id : Id}
    (h : addFormula call row board = .ok id board') :
    (row id).id ∉ board.formulas.keys ∧
      (∀ sourceId ∈ (row id).sourceId, sourceId ∈ board.formulas.keys) ∧
      ∃ formulas : Table Formula, formulas.rows = board.formulas.rows ++ [row id] ∧
        board' = { board with formulas, issued := id :: board.issued } := by
  unfold addFormula at h
  simp only [get_bind_eq_ok, set_bind_eq_ok, orRaise_bind_eq_ok, checked_bind_eq_ok,
    pure_eq_ok] at h
  obtain ⟨_, hflush, formulas, hinsert, rfl, rfl⟩ := h
  obtain ⟨hfresh, hrows⟩ := (Table.insert?_eq_some_iff _ _ _).mp hinsert
  exact ⟨hfresh, (flushFormula_eq_ok.mp hflush).2, formulas, hrows, rfl⟩

/-- A created formula is a new row. -/
theorem createFormula_ok {call : Call} {request : FormulaRequest} {board board' : Board} {id : Id}
    (h : createFormula call request board = .ok id board') :
    id ∉ board.formulas.keys ∧
      (∀ sourceId ∈ truthy request.sourceId, sourceId ∈ board.formulas.keys) ∧
      ∃ formulas : Table Formula, formulas.rows = board.formulas.rows ++ [request.row id] ∧
        board' = { board with formulas, issued := id :: board.issued } := by
  unfold createFormula at h
  exact addFormula_ok (require_bind_eq_ok.mp h).2

/-- What an update asks for: the request is filled in, and the formula, the product and the source
exist. -/
def Accepts (board : Board) (formulaId : Id) (request : FormulaRequest) : Prop :=
  request.Filled ∧ formulaId ∈ board.formulas.keys ∧ request.productId ∈ board.products.keys ∧
    ∀ sourceId ∈ truthy request.sourceId, sourceId ∈ board.formulas.keys

/-- An update is accepted exactly when what it asks for is there; it replaces the row. -/
theorem updateFormula_ok_iff {formulaId : Id} {request : FormulaRequest} {board board' : Board}
    {u : Unit} :
    updateFormula formulaId request board = .ok u board' ↔ Accepts board formulaId request ∧
      board' = { board with
        formulas := board.formulas.update formulaId request.replace request.key_replace } := by
  unfold updateFormula
  simp only [get_bind_eq_ok, require_bind_eq_ok, orRaise_bind_eq_ok, checked_bind_eq_ok, set_eq_ok]
  constructor
  · rintro ⟨hfilled, formula, hfind, _, hflush, rfl⟩
    obtain ⟨hproduct, hsource⟩ := flushFormula_eq_ok.mp hflush
    obtain ⟨hmem, hid⟩ := (board.formulas.find?_eq_some_iff).mp hfind
    exact ⟨⟨hfilled, (board.formulas.mem_keys).mpr ⟨formula, hmem, hid⟩, hproduct, hsource⟩, rfl⟩
  · rintro ⟨⟨hfilled, hkey, hproduct, hsource⟩, rfl⟩
    obtain ⟨formula, hmem, hid⟩ := (board.formulas.mem_keys).mp hkey
    exact ⟨hfilled, formula, board.formulas.find?_of_mem hmem hid, (),
      flushFormula_eq_ok.mpr ⟨hproduct, hsource⟩, rfl⟩

/-- A deleted formula is referenced by no order. -/
theorem deleteFormula_ok {formulaId : Id} {board board' : Board} {u : Unit}
    (h : deleteFormula formulaId board = .ok u board') :
    (∀ order ∈ board.orders.rows, order.formulaId ≠ some formulaId) ∧
      board' = { board with
        formulas := (board.formulas.mapRows (freed formulaId) (key_freed formulaId)).erase
          formulaId } := by
  unfold deleteFormula at h
  simp only [get_bind_eq_ok, require_bind_eq_ok, orRaise_bind_eq_ok, set_eq_ok] at h
  obtain ⟨hfree, -, -, rfl⟩ := h
  exact ⟨hfree, rfl⟩

end FormulaService

/-! ### Submission -/

namespace OrderSubmission

open FormulaService

/-- A draft of the workspace: the texts it has under the names the submission reads, and the finite
number `float` reads from its quantity. -/
structure WorkspaceDraft where
  customerId : Option String
  productId : Option String
  specParams : Dict String
  unit : Option String
  formulaId : Option String
  formulaMode : Option String
  newFormulaName : Option String
  newFormulaMaterials : Option String
  quantity : Option ℚ
  extraNotes : Option String

/-- The mode of the formula: a formula that is given without a mode is an existing one. -/
def WorkspaceDraft.mode (draft : WorkspaceDraft) : String :=
  let mode := (truthy draft.formulaMode).getD "none"
  if mode = "none" ∧ truthy draft.formulaId ≠ none then "existing" else mode

/-- The formula that the draft brings along. -/
def WorkspaceDraft.newFormula (draft : WorkspaceDraft) (productId id : Id) : Formula where
  id := id
  name := strip (draft.newFormulaName.getD "")
  productId := productId
  specParams := draft.specParams
  materials := draft.newFormulaMaterials.getD ""
  sourceId := none
  notes := none

/-- The formula that a draft chose, which must exist and belong to the product. -/
def existingFormula (board : Board) (formulaId : Option Id) (productId : Id) :
    Except Failure Id :=
  match formulaId with
  | none => .error (.http 409 "请选择已有配方，或切换为不选配方")
  | some id =>
    match board.formulas.find? id with
    | none => .error (.http 409 "所选配方已不存在，请重新选择")
    | some formula =>
      if formula.productId = productId then .ok id
      else .error (.http 409 "所选配方与订单产品不匹配，请重新选择")

/-- `_quantity`. -/
def quantity (value : Option ℚ) : Except Failure ℚ :=
  match value with
  | none => .error (.http 409 "订单草稿缺少有效数量，请在右侧表单补充")
  | some quantity =>
    if 0 < quantity then .ok quantity
    else .error (.http 409 "订单草稿缺少有效数量，请在右侧表单补充")

/-- The formula of the order, added first when it is new. -/
def submittedFormula (call : Call) (draft : WorkspaceDraft) (productId : Id) :
    Txn Failure Board (Option Id) := do
  if draft.mode = "new" then
    require (strip (draft.newFormulaName.getD "") ≠ "") (.http 409 "新配方缺少名称，请在右侧表单补充")
    let id ← addFormula call (draft.newFormula productId)
    return some id
  else if draft.mode = "existing" then
    let board ← get
    let id ← checked (existingFormula board (truthy draft.formulaId) productId)
    return some id
  else return none

/-- `create_from_workspace_draft`. -/
def createFromWorkspaceDraft (call : Call) (draft : WorkspaceDraft) : Txn Failure Board Order := do
  let board ← get
  let customerId := draft.customerId.getD ""
  let productId := draft.productId.getD ""
  require (customerId ≠ "" ∧ customerId ∈ board.customers.keys)
    (.http 409 "订单草稿缺少有效客户，请在右侧表单补充")
  require (productId ≠ "" ∧ productId ∈ board.products.keys)
    (.http 409 "订单草稿缺少有效产品，请在右侧表单补充")
  let unit := (truthy draft.unit).getD "kg"
  require (unit ∈ ["m", "g", "kg", "t", "cm", "mm"]) (.http 409 "订单单位仅支持 m、g、kg 或历史单位 t")
  let formulaId ← submittedFormula call draft productId
  let quantity ← checked (quantity draft.quantity)
  createOrderRecord call
    { customerId, productId, specParams := draft.specParams, quantity, unit, formulaId
      extraNotes := truthy (some (strip (draft.extraNotes.getD ""))) }

/-- The formulas are as before, or the new one was added to them. -/
theorem submittedFormula_ok {call : Call} {draft : WorkspaceDraft} {productId : Id}
    {board board' : Board} {formulaId : Option Id}
    (h : submittedFormula call draft productId board = .ok formulaId board') :
    board' = board ∨ ∃ id, addFormula call (draft.newFormula productId) board = .ok id board' := by
  unfold submittedFormula at h
  split_ifs at h
  · obtain ⟨id, middle, hadd, hid⟩ := bind_eq_ok.mp (require_bind_eq_ok.mp h).2
    obtain ⟨-, rfl⟩ := pure_eq_ok.mp hid
    exact Or.inr ⟨id, hadd⟩
  · simp only [get_bind_eq_ok, checked_bind_eq_ok, pure_eq_ok] at h
    obtain ⟨-, -, -, rfl⟩ := h
    exact Or.inl rfl
  · exact Or.inl (pure_eq_ok.mp h).2.symm

/-- A submitted draft is a created order, after its new formula if it brings one along. -/
theorem createFromWorkspaceDraft_ok {call : Call} {draft : WorkspaceDraft} {board board' : Board}
    {order : Order} (h : createFromWorkspaceDraft call draft board = .ok order board') :
    ∃ middle request, createOrderRecord call request middle = .ok order board' ∧
      (middle = board ∨
        ∃ id, addFormula call (draft.newFormula (draft.productId.getD "")) board =
          .ok id middle) := by
  unfold createFromWorkspaceDraft at h
  simp only [get_bind_eq_ok, require_bind_eq_ok] at h
  obtain ⟨-, -, -, h⟩ := h
  obtain ⟨formulaId, middle, hformula, h⟩ := bind_eq_ok.mp h
  obtain ⟨quantity, -, h⟩ := checked_bind_eq_ok.mp h
  exact ⟨middle, _, h, submittedFormula_ok hformula⟩

end OrderSubmission

end FilmOS
