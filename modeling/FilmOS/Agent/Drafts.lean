import FilmOS.Board.Orders
import FilmOS.Library.PythonText

/-!
# Order drafts

A work item carries a draft of an order. A draft may be incomplete but is always well formed, which
is a field of `OrderDraft`; a patch changes some fields and is refused when the result is not well
formed. `validateDraft` lists what still keeps a draft from becoming an order, and
`createFromWorkspaceDraft` makes the order. Quantities are exact decimals.
-/

set_option autoImplicit false
set_option relaxedAutoImplicit false

namespace FilmOS.Agent

open Transaction PythonText Numeral

/-- The fields of a draft, well formed or not. -/
structure DraftFields where
  customerId : Option Id
  productId : Option Id
  specParams : Dict String
  quantity : Option Decimal
  unit : Option String
  formulaMode : String
  formulaId : Option Id
  extraNotes : String
deriving DecidableEq

namespace DraftFields

/-- The fields of the empty draft. -/
def blank : DraftFields := ⟨none, none, Table.empty, none, none, "none", none, ""⟩

/-- `OpaqueId`, when it is given. -/
def OpaqueId (value : Option Id) : Prop := ∀ id ∈ value, 1 ≤ id.length ∧ id.length ≤ 128

instance (value : Option Id) : Decidable (OpaqueId value) :=
  inferInstanceAs (Decidable (∀ _ ∈ _, _))

/-- `positive_decimal`: positive, at most 10^12, and with at most twelve places. -/
def PositiveDecimal (quantity : Decimal) : Prop :=
  0 < quantity.value ∧ quantity.value ≤ 10 ^ 12 ∧ -12 ≤ quantity.exponent

instance (quantity : Decimal) : Decidable (PositiveDecimal quantity) :=
  inferInstanceAs (Decidable (_ ∧ _))

/-- `valid_spec_keys`, with the lengths of keys and values. -/
def ValidSpecs (specs : Dict String) : Prop :=
  specs.rows.length ≤ 30 ∧
    ∀ entry ∈ specs.rows, strip entry.1 ≠ "" ∧ entry.1.length ≤ 128 ∧ entry.2.length ≤ 2000

instance (specs : Dict String) : Decidable (ValidSpecs specs) :=
  inferInstanceAs (Decidable (_ ∧ _))

/-- What `OrderDraft` validates. -/
def Valid (fields : DraftFields) : Prop :=
  OpaqueId fields.customerId ∧ OpaqueId fields.productId ∧ OpaqueId fields.formulaId ∧
    ValidSpecs fields.specParams ∧ (∀ quantity ∈ fields.quantity, PositiveDecimal quantity) ∧
    (∀ unit ∈ fields.unit, unit = "m" ∨ unit = "kg") ∧
    (fields.formulaMode = "none" ∨ fields.formulaMode = "existing") ∧
    (fields.formulaMode = "none" → fields.formulaId = none) ∧ fields.extraNotes.length ≤ 2000

instance (fields : DraftFields) : Decidable fields.Valid :=
  inferInstanceAs (Decidable (_ ∧ _))

/-- White space around texts is dropped before they are validated. -/
def stripped (fields : DraftFields) : DraftFields where
  customerId := fields.customerId.map trim
  productId := fields.productId.map trim
  specParams := Dict.ofList (fields.specParams.rows.map (fun entry ↦ (trim entry.1, trim entry.2)))
  quantity := fields.quantity
  unit := fields.unit
  formulaMode := fields.formulaMode
  formulaId := fields.formulaId.map trim
  extraNotes := trim fields.extraNotes

/-- Whether two drafts have the same value in the named field; a name that is no field is the same
in both. -/
def SameIn (field : String) (fields other : DraftFields) : Prop :=
  match field with
  | "customer_id" => fields.customerId = other.customerId
  | "product_id" => fields.productId = other.productId
  | "spec_params" => Dict.Same fields.specParams other.specParams
  | "quantity" => fields.quantity = other.quantity
  | "unit" => fields.unit = other.unit
  | "formula_mode" => fields.formulaMode = other.formulaMode
  | "formula_id" => fields.formulaId = other.formulaId
  | "extra_notes" => fields.extraNotes = other.extraNotes
  | _ => True

instance (field : String) (fields other : DraftFields) : Decidable (SameIn field fields other) := by
  unfold SameIn
  split <;> infer_instance

end DraftFields

/-- A well-formed draft. -/
structure OrderDraft where
  fields : DraftFields
  valid : fields.Valid
deriving DecidableEq

/-- `OrderDraft.model_validate`. -/
def OrderDraft.modelValidate (candidate : DraftFields) : Option OrderDraft :=
  if h : candidate.stripped.Valid then some ⟨candidate.stripped, h⟩ else none

/-- The draft of a new work item. -/
def OrderDraft.blank : OrderDraft := ⟨.blank, by decide⟩

/-! ### Patches -/

/-- A patch: `none` for a field that it does not name, `some none` for null. Specification entries
are set, or removed by null. `others` are the names that are not fields of a draft. -/
structure DraftPatch where
  customerId : Option (Option Id)
  productId : Option (Option Id)
  specParams : Option (Dict (Option String))
  quantity : Option (Option Decimal)
  unit : Option (Option String)
  formulaMode : Option String
  formulaId : Option (Option Id)
  extraNotes : Option String
  others : List String
deriving DecidableEq

/-- The patch without any field. -/
def DraftPatch.none : DraftPatch :=
  ⟨.none, .none, .none, .none, .none, .none, .none, .none, []⟩

/-- The specification after the entries of a patch are set or removed one after another. -/
def patchSpecs (specs : Dict String) (patch : Dict (Option String)) : Dict String :=
  patch.rows.foldl (fun specs entry ↦
    match entry.2 with
    | some content => specs.set entry.1 content
    | none => specs.without [entry.1]) specs

/-- The fields of a draft with those of a patch put in. -/
def DraftPatch.applyTo (patch : DraftPatch) (draft : OrderDraft) : DraftFields where
  customerId := patch.customerId.getD draft.fields.customerId
  productId := patch.productId.getD draft.fields.productId
  specParams := (patch.specParams.map (patchSpecs draft.fields.specParams)).getD
    draft.fields.specParams
  quantity := patch.quantity.getD draft.fields.quantity
  unit := patch.unit.getD draft.fields.unit
  formulaMode := patch.formulaMode.getD draft.fields.formulaMode
  formulaId :=
    if patch.formulaMode = some "none" then Option.none
    else patch.formulaId.getD draft.fields.formulaId
  extraNotes := patch.extraNotes.getD draft.fields.extraNotes

/-- `merge_patch`. -/
def mergePatch (draft : OrderDraft) (patch : DraftPatch) : Except Failure OrderDraft :=
  if patch.others ≠ [] then .error (.refused "INPUT_INVALID" "补丁包含不可修改的字段" 422)
  else
    match OrderDraft.modelValidate (patch.applyTo draft) with
    | some merged => .ok merged
    | none => .error (.refused "INPUT_INVALID" "草稿字段格式无效，请核对数量、单位或配方" 422)

/-- The paths that a patch writes, for which the provenance is recorded. -/
def DraftPatch.paths (patch : DraftPatch) : List String :=
  (patch.customerId.map (fun _ ↦ "customer_id")).toList ++
    (patch.productId.map (fun _ ↦ "product_id")).toList ++
    (patch.specParams.map (·.keys.map ("spec_params." ++ ·))).toList.flatten ++
    (patch.quantity.map (fun _ ↦ "quantity")).toList ++
    (patch.unit.map (fun _ ↦ "unit")).toList ++
    (patch.formulaMode.map (fun _ ↦ "formula_mode")).toList ++
    (patch.formulaId.map (fun _ ↦ "formula_id")).toList ++
    (patch.extraNotes.map (fun _ ↦ "extra_notes")).toList

/-! ### Issues -/

inductive Severity
  | blocking
  | warning
deriving DecidableEq, Repr

/-- What is wrong, or to be checked, in a field of a draft. -/
structure Issue where
  field : String
  code : String
  message : String
  severity : Severity
deriving DecidableEq

/-- The message of a refused specification. -/
def specificationIssue (specs : Dict String) : List Issue :=
  match Specification.validateSpecification specs with
  | .error (.http _ detail) => [⟨"spec_params", "SPEC_INCOMPLETE", detail, .blocking⟩]
  | _ => []

/-- `validate_draft`. -/
def validateDraft (board : Board) (draft : OrderDraft) : List Issue :=
  let fields := draft.fields
  (if (fields.customerId.bind board.customers.find?).isNone then
    [⟨"customer_id", "ENTITY_REQUIRED", "请选择系统内已有的客户", .blocking⟩] else []) ++
  (if (fields.productId.bind board.products.find?).isNone then
    [⟨"product_id", "ENTITY_REQUIRED", "请选择系统内已有的产品", .blocking⟩] else []) ++
  (if fields.quantity = none then
    [⟨"quantity", "QUANTITY_REQUIRED", "请填写数量", .blocking⟩] else []) ++
  (if fields.unit = none then
    [⟨"unit", "UNIT_REQUIRED", "请选择数量单位", .blocking⟩] else []) ++
  specificationIssue fields.specParams ++
  (if fields.formulaMode = "existing" ∧
      ((truthy fields.formulaId).bind board.formulas.find?).map (some ·.productId) ≠
        some fields.productId then
    [⟨"formula_id", "FORMULA_INCOMPATIBLE", "请选择与产品对应的已有配方", .blocking⟩] else [])

/-- Every issue of a draft is a blocking one, about something that the draft lacks. -/
theorem issue_of_mem_validateDraft {board : Board} {draft : OrderDraft} {issue : Issue}
    (h : issue ∈ validateDraft board draft) :
    issue.severity = .blocking ∧
      issue.code ∈ ["ENTITY_REQUIRED", "QUANTITY_REQUIRED", "UNIT_REQUIRED", "SPEC_INCOMPLETE",
        "FORMULA_INCOMPATIBLE"] := by
  unfold validateDraft at h
  simp only [List.mem_append, List.mem_ite_nil_right, List.mem_singleton] at h
  rcases h with ((((⟨-, rfl⟩ | ⟨-, rfl⟩) | ⟨-, rfl⟩) | ⟨-, rfl⟩) | h) | ⟨-, rfl⟩
  · decide
  · decide
  · decide
  · decide
  · unfold specificationIssue at h
    split at h
    · rw [List.mem_singleton.mp h]
      exact ⟨rfl, (by decide : "SPEC_INCOMPLETE" ∈ ["ENTITY_REQUIRED", "QUANTITY_REQUIRED",
        "UNIT_REQUIRED", "SPEC_INCOMPLETE", "FORMULA_INCOMPATIBLE"])⟩
    · cases h
  · decide

/-! ### Creation of the order -/

/-- `_quantity`: the number a draft gives, which must be positive. -/
def draftQuantity (quantity : Option Decimal) : Except Failure ℚ :=
  match quantity with
  | none => .error (.http 409 "订单草稿缺少有效数量，请在右侧表单补充")
  | some quantity =>
    if 0 < quantity.value then .ok quantity.value
    else .error (.http 409 "订单草稿缺少有效数量，请在右侧表单补充")

/-- The formula an order is created with: the one chosen, which must exist and belong to the
product. -/
def draftFormula (board : Board) (fields : DraftFields) (productId : Id) :
    Except Failure (Option Id) :=
  let formulaId := truthy fields.formulaId
  if fields.formulaMode = "existing" ∨ formulaId ≠ none then
    match formulaId with
    | none => .error (.http 409 "请选择已有配方，或切换为不选配方")
    | some id =>
      match board.formulas.find? id with
      | none => .error (.http 409 "所选配方已不存在，请重新选择")
      | some formula =>
        if formula.productId = productId then .ok (some id)
        else .error (.http 409 "所选配方与订单产品不匹配，请重新选择")
  else .ok none

/-- `create_from_workspace_draft`. -/
def createFromWorkspaceDraft (call : Call) (draft : OrderDraft) : Txn Failure Board Order := do
  let fields := draft.fields
  let board ← get
  let customerId := fields.customerId.getD ""
  let productId := fields.productId.getD ""
  require (customerId ≠ "" ∧ customerId ∈ board.customers.keys)
    (.http 409 "订单草稿缺少有效客户，请在右侧表单补充")
  require (productId ≠ "" ∧ productId ∈ board.products.keys)
    (.http 409 "订单草稿缺少有效产品，请在右侧表单补充")
  let unit := (truthy fields.unit).getD "kg"
  require (unit ∈ ["m", "g", "kg", "t", "cm", "mm"]) (.http 409 "订单单位仅支持 m、g、kg 或历史单位 t")
  let formulaId ← checked (draftFormula board fields productId)
  let quantity ← checked (draftQuantity fields.quantity)
  OrderService.createOrderRecord call
    { customerId, productId, specParams := fields.specParams, quantity, unit, formulaId
      extraNotes := truthy (some (strip fields.extraNotes)) }

/-- A draft becomes one new order, and nothing else changes but the numbers drawn. -/
theorem createFromWorkspaceDraft_ok {call : Call} {draft : OrderDraft} {board board' : Board}
    {order : Order} (h : createFromWorkspaceDraft call draft board = .ok order board') :
    board'.orders.rows = board.orders.rows ++ [order] ∧ board'.plans = board.plans ∧
      ∃ id, board'.issued = id :: board.issued := by
  unfold createFromWorkspaceDraft at h
  simp only [get_bind_eq_ok, require_bind_eq_ok, checked_bind_eq_ok] at h
  obtain ⟨-, -, -, formulaId, -, quantity, -, h⟩ := h
  refine ⟨(OrderService.createOrderRecord_ok h).2.2.1, ?_⟩
  unfold OrderService.createOrderRecord OrderService.generateOrderNo Board.generateId at h
  simp only [get_bind_eq_ok, set_bind_eq_ok, require_bind_eq_ok, orRaise_bind_eq_ok,
    checked_bind_eq_ok, pure_eq_ok, bind_assoc, pure_bind] at h
  obtain ⟨-, -, -, specParams, -, amount, -, customer, -, product, -, snapshot, -, -, orders,
    -, rfl, rfl⟩ := h
  exact ⟨rfl, _, rfl⟩

end FilmOS.Agent
