import FilmOS.Agent.Drafts
import FilmOS.Board.Formulas
import FilmOS.Library.NumeralLaws

/-!
# Validation and submission agree

A draft is checked by `validateDraft` when the user looks at it, and by `createFromWorkspaceDraft`
and `createOrderRecord` once more when it is submitted. The submission reads the dump of the draft;
`createFromWorkspaceDraft_dump` connects it to the creation that the work items use.

A draft without a blocking issue has everything that creation asks for, and the order is the one
that was checked; creation depends on nothing else but that the number it draws is free
(`createsChecked_iff`). Numbers that were all drawn from the sequence leave the next one free
(`NumbersAhead.numberFree`), and creation keeps it so (`NumbersAhead.createOrderRecord`); orders
that were numbered by hand, as the demo data are, do not (`not_createsChecked_seeded`).
-/

set_option autoImplicit false
set_option relaxedAutoImplicit false

namespace FilmOS

open Transaction PythonText Numeral Specification

/-! ### Order numbers -/

namespace OrderService

/-- The order number of a day and a serial. -/
def orderNoText (today : String) (serial : ℕ) : String :=
  s!"ORD-{today}-{String.ofList (padZeros 3 (Nat.repr serial).toList)}"

/-- The sequence of order numbers is ahead of the serials in use. -/
def NumbersAhead (board : Board) : Prop :=
  ∀ order ∈ board.orders.rows, ∀ today serial, order.orderNo = orderNoText today serial →
    serial ≤ board.orderNumber

/-- No order has the number that the next creation draws. -/
def NumberFree (call : Call) (board : Board) : Prop :=
  ∀ order ∈ board.orders.rows, order.orderNo ≠ orderNoText call.today (board.orderNumber + 1)

instance (call : Call) (board : Board) : Decidable (NumberFree call board) :=
  inferInstanceAs (Decidable (∀ order ∈ board.orders.rows, _))

/-- A number that is drawn ahead of all in use is free. -/
theorem NumbersAhead.numberFree {board : Board} (h : NumbersAhead board) (call : Call) :
    NumberFree call board := fun order horder heq ↦
  absurd (h order horder call.today (board.orderNumber + 1) heq) (by omega)

/-- The characters before the first occurrence of one are those taken while it does not occur. -/
theorem takeWhile_append_cons {c : Char} {before after : List Char} (h : c ∉ before) :
    (before ++ c :: after).takeWhile (· ≠ c) = before := by
  have hall : ∀ d ∈ before, decide (d ≠ c) = true :=
    fun d hd ↦ decide_eq_true fun heq ↦ h (heq ▸ hd)
  rw [List.takeWhile_append_of_pos hall, List.takeWhile_cons_of_neg (by simp), List.append_nil]

/-- Numbers with different serials are different: the serial is what follows the last hyphen. -/
theorem serial_eq_of_orderNoText_eq {today today' : String} {serial serial' : ℕ}
    (h : orderNoText today serial = orderNoText today' serial') : serial = serial' := by
  have hlist : ∀ (text : String) (n : ℕ), (orderNoText text n).toList.reverse =
      (padZeros 3 (Nat.toDigits 10 n)).reverse ++ '-' :: ("ORD-" ++ text).toList.reverse := by
    intro text n
    change ("ORD-" ++ text ++ "-" ++ String.ofList (padZeros 3 (Nat.repr n).toList)).toList.reverse
      = _
    simp [Nat.toList_repr, String.toList_append]
  have hserial : ∀ (text : String) (n : ℕ),
      ((orderNoText text n).toList.reverse.takeWhile (· ≠ '-')).reverse =
        padZeros 3 (Nat.toDigits 10 n) := by
    intro text n
    rw [hlist, takeWhile_append_cons, List.reverse_reverse]
    rw [List.mem_reverse]
    exact fun hmem ↦ absurd (isDigit_of_mem_padZeros hmem) (by decide)
  have hpadded := hserial today serial
  rw [h, hserial today' serial'] at hpadded
  calc serial = Nat.ofDigitChars 10 (padZeros 3 (Nat.toDigits 10 serial)) 0 :=
        (ofDigitChars_padZeros 3 serial).symm
    _ = Nat.ofDigitChars 10 (padZeros 3 (Nat.toDigits 10 serial')) 0 := by rw [hpadded]
    _ = serial' := ofDigitChars_padZeros 3 serial'

theorem generateOrderNo_eq_ok {call : Call} {board board' : Board} {orderNo : String} :
    generateOrderNo call board = .ok orderNo board' ↔
      orderNo = orderNoText call.today (board.orderNumber + 1) ∧
        board' = { board with orderNumber := board.orderNumber + 1 } := by
  unfold generateOrderNo
  simp only [get_bind_eq_ok, set_bind_eq_ok, pure_eq_ok]
  constructor
  · rintro ⟨rfl, rfl⟩
    exact ⟨rfl, rfl⟩
  · rintro ⟨rfl, rfl⟩
    exact ⟨rfl, rfl⟩

/-- Creation keeps the sequence of order numbers ahead. -/
theorem NumbersAhead.createOrderRecord {call : Call} {request : OrderRequest}
    {board board' : Board} {order : Order} (h : NumbersAhead board)
    (hok : OrderService.createOrderRecord call request board = .ok order board') :
    NumbersAhead board' := by
  unfold OrderService.createOrderRecord Board.generateId at hok
  simp only [get_bind_eq_ok, require_bind_eq_ok, orRaise_bind_eq_ok, checked_bind_eq_ok] at hok
  obtain ⟨-, -, -, specParams, -, quantity, -, customer, -, product, -, hok⟩ := hok
  obtain ⟨orderNo, middle, hnumber, hok⟩ := bind_eq_ok.mp hok
  obtain ⟨rfl, rfl⟩ := generateOrderNo_eq_ok.mp hnumber
  simp only [get_bind_eq_ok, set_bind_eq_ok, require_bind_eq_ok, orRaise_bind_eq_ok,
    checked_bind_eq_ok, pure_eq_ok, bind_assoc, pure_bind] at hok
  obtain ⟨snapshot, -, -, orders, hinsert, rfl, rfl⟩ := hok
  intro row hrow today serial hrowNo
  have hrows := ((Table.insert?_eq_some_iff _ _ _).mp hinsert).2
  rw [hrows] at hrow
  rcases List.mem_append.mp hrow with hold | hnew
  · exact Nat.le_succ_of_le (h row hold today serial hrowNo)
  · rw [List.mem_singleton.mp hnew] at hrowNo
    exact (serial_eq_of_orderNoText_eq hrowNo).ge

/-- An order was created under a number that was free. -/
theorem numberFree_of_createOrderRecord {call : Call} {request : OrderRequest}
    {board board' : Board} {order : Order}
    (hok : createOrderRecord call request board = .ok order board') : NumberFree call board := by
  unfold createOrderRecord Board.generateId at hok
  simp only [get_bind_eq_ok, require_bind_eq_ok, orRaise_bind_eq_ok, checked_bind_eq_ok] at hok
  obtain ⟨-, -, -, specParams, -, quantity, -, customer, -, product, -, hok⟩ := hok
  obtain ⟨orderNo, middle, hnumber, hok⟩ := bind_eq_ok.mp hok
  obtain ⟨rfl, rfl⟩ := generateOrderNo_eq_ok.mp hnumber
  simp only [get_bind_eq_ok, set_bind_eq_ok, require_bind_eq_ok, checked_bind_eq_ok, bind_assoc,
    pure_bind] at hok
  obtain ⟨snapshot, -, hfree, -⟩ := hok
  exact hfree

/-- Creation succeeds when everything it asks for is there. -/
theorem exists_createOrderRecord (call : Call) (request : OrderRequest) {board : Board}
    (hnumber : NumberFree call board) {product : Product} {specParams : Dict String} {quantity : ℚ}
    {unit : String} {snapshot : Option FormulaSnapshot}
    (hfilled : request.customerId ≠ "" ∧ request.productId ≠ "" ∧ request.unit ≠ "")
    (hpositive : 0 < request.quantity) (hunit : request.unit ∈ ["m", "g", "kg", "t", "cm", "mm"])
    (hspecs : validateSpecification request.specParams = .ok specParams)
    (hquantity : standardQuantity request.quantity request.unit = .ok (quantity, unit))
    (hcustomer : request.customerId ∈ board.customers.keys)
    (hproduct : board.products.find? request.productId = some product)
    (hsnapshot : buildFormulaSnapshot board request.formulaId (some request.productId) =
      .ok snapshot) :
    ∃ order board', createOrderRecord call request board = .ok order board' ∧
      order.customerId = request.customerId ∧ order.product = product ∧
      order.specParams = specParams ∧ order.quantity = quantity ∧ order.unit = unit ∧
      order.formulaId = truthy request.formulaId ∧ order.formulaSnapshot = snapshot ∧
      order.status = .pending ∧ order.taskId = none := by
  obtain ⟨customer, hcustomerMem, hcustomerId⟩ := (board.customers.mem_keys).mp hcustomer
  have hcustomerFind := board.customers.find?_of_mem hcustomerMem hcustomerId
  have hfresh : call.source.pick board.usedIds ∉ board.orders.keys :=
    fun hmem ↦ call.source.fresh board.usedIds (board.orders_subset_usedIds hmem)
  let order : Order :=
    { id := call.source.pick board.usedIds
      orderNo := orderNoText call.today (board.orderNumber + 1)
      customerId := request.customerId, product, specParams, quantity, unit
      formulaId := truthy request.formulaId, formulaSnapshot := snapshot
      extraNotes := (truthy (creationNotes request)).map strip
      status := .pending, taskId := none, createdAt := call.now, updatedAt := call.now }
  obtain ⟨orders, hinsert, -⟩ := Table.exists_insert?_of_notMem (r := order) hfresh
  let board' : Board :=
    { board with
      orders, orderNumber := board.orderNumber + 1
      issued := call.source.pick board.usedIds :: board.issued }
  refine ⟨order, board', ?_, rfl, rfl, rfl, rfl, rfl, rfl, rfl, rfl, rfl⟩
  unfold createOrderRecord generateOrderNo Board.generateId
  simp only [get_bind_eq_ok, set_bind_eq_ok, require_bind_eq_ok, orRaise_bind_eq_ok,
    checked_bind_eq_ok, pure_eq_ok, bind_assoc, pure_bind]
  exact ⟨hfilled, hpositive, hunit, specParams, hspecs, (quantity, unit), hquantity, customer,
    hcustomerFind, product, hproduct, snapshot, hsnapshot, hnumber, orders, hinsert, rfl, rfl⟩

end OrderService

/-! ### Submitted drafts -/

namespace Agent

open OrderSubmission OrderService

/-- `draft.model_dump()`, as far as the submission reads it. -/
def OrderDraft.dump (draft : OrderDraft) : WorkspaceDraft where
  customerId := draft.fields.customerId
  productId := draft.fields.productId
  specParams := draft.fields.specParams
  unit := draft.fields.unit
  formulaId := draft.fields.formulaId
  formulaMode := some draft.fields.formulaMode
  newFormulaName := none
  newFormulaMaterials := none
  quantity := draft.fields.quantity.map Decimal.value
  extraNotes := some draft.fields.extraNotes

theorem mode_dump (draft : OrderDraft) : draft.dump.mode = draft.fields.formulaMode := by
  have hmode := draft.valid.2.2.2.2.2.2.1
  have hnone := draft.valid.2.2.2.2.2.2.2.1
  unfold WorkspaceDraft.mode OrderDraft.dump
  dsimp only
  rcases hmode with h | h
  · rw [h, hnone h]
    rfl
  · rw [h]
    rfl

theorem draftFormula_of_none {board : Board} {fields : DraftFields} {productId : Id}
    (hmode : fields.formulaMode = "none") (hnone : fields.formulaId = none) :
    draftFormula board fields productId = .ok none := by
  unfold draftFormula
  rw [hnone]
  exact if_neg (by simp [hmode, truthy])

theorem draftFormula_of_existing {board : Board} {fields : DraftFields} {productId : Id}
    (hmode : fields.formulaMode = "existing") :
    draftFormula board fields productId =
      (existingFormula board (truthy fields.formulaId) productId).map some := by
  unfold draftFormula existingFormula
  dsimp only
  rw [if_pos (Or.inl hmode)]
  cases truthy fields.formulaId with
  | none => rfl
  | some id =>
    dsimp only
    cases board.formulas.find? id with
    | none => rfl
    | some formula =>
      dsimp only
      split_ifs <;> rfl

/-- The dump of a draft brings no new formula along: it has no formula, or the one that the draft
chose. -/
theorem submittedFormula_dump (call : Call) (draft : OrderDraft) (productId : Id) (board : Board) :
    submittedFormula call draft.dump productId board =
      (checked (draftFormula board draft.fields productId) : Txn Failure Board (Option Id))
        board := by
  unfold submittedFormula
  rw [mode_dump]
  rcases draft.valid.2.2.2.2.2.2.1 with hmode | hmode
  · rw [draftFormula_of_none hmode (draft.valid.2.2.2.2.2.2.2.1 hmode), hmode,
      if_neg (by decide), if_neg (by decide)]
    rfl
  · rw [draftFormula_of_existing hmode, hmode, if_neg (by decide), if_pos rfl]
    change ((checked (existingFormula board (truthy draft.fields.formulaId) productId) :
      Txn Failure Board Id) >>= fun id ↦ pure (some id)) board = _
    cases existingFormula board (truthy draft.fields.formulaId) productId <;> rfl

theorem quantity_dump (draft : OrderDraft) :
    OrderSubmission.quantity draft.dump.quantity = draftQuantity draft.fields.quantity := by
  unfold OrderSubmission.quantity draftQuantity OrderDraft.dump
  dsimp only
  cases draft.fields.quantity <;> rfl

/-- The submission of a dump is the creation that the work items use. -/
theorem createFromWorkspaceDraft_dump (call : Call) (draft : OrderDraft) :
    OrderSubmission.createFromWorkspaceDraft call draft.dump =
      createFromWorkspaceDraft call draft := by
  funext board
  unfold OrderSubmission.createFromWorkspaceDraft createFromWorkspaceDraft
  refine bind_congr_at fun _ _ hget ↦ ?_
  obtain ⟨rfl, rfl⟩ := get_eq_ok.mp hget
  refine bind_congr_at fun _ _ hcustomer ↦ ?_
  obtain ⟨-, rfl⟩ := require_eq_ok.mp hcustomer
  refine bind_congr_at fun _ _ hproduct ↦ ?_
  obtain ⟨-, rfl⟩ := require_eq_ok.mp hproduct
  refine bind_congr_at fun _ _ hunit ↦ ?_
  obtain ⟨-, rfl⟩ := require_eq_ok.mp hunit
  rw [quantity_dump]
  exact bind_congr_left (submittedFormula_dump call draft _ _) _

/-! ### Validated drafts -/

theorem canonicalValue_error {dimension : Dimension} {value : String} {failure : Failure}
    (h : canonicalValue dimension value = .error failure) :
    ∃ status detail, failure = .http status detail := by
  unfold canonicalValue at h
  split at h
  · exact ⟨_, _, (Except.error.inj h).symm⟩
  · split at h
    · exact ⟨_, _, (Except.error.inj h).symm⟩
    · split_ifs at h
      exact ⟨_, _, (Except.error.inj h).symm⟩

theorem readDimension_error {dimension : Dimension} {specs : Dict String} {failure : Failure}
    (h : readDimension dimension specs = .error failure) :
    ∃ status detail, failure = .http status detail := by
  unfold readDimension at h
  split at h
  · rename_i value _
    cases hvalue : canonicalValue dimension value with
    | ok canonical =>
      rw [hvalue] at h
      cases h
    | error failure' =>
      rw [hvalue] at h
      rw [← Except.error.inj h]
      exact canonicalValue_error hvalue
  · exact ⟨_, _, (Except.error.inj h).symm⟩

/-- A refused specification is refused with a message. -/
theorem validateSpecification_error {specs : Dict String} {failure : Failure}
    (h : validateSpecification specs = .error failure) :
    ∃ status detail, failure = .http status detail := by
  unfold validateSpecification at h
  cases hwidth : readDimension width specs with
  | error failure' =>
    rw [hwidth] at h
    rw [← Except.error.inj h]
    exact readDimension_error hwidth
  | ok forWidth =>
    rw [hwidth] at h
    cases hthickness : readDimension thickness specs with
    | error failure' =>
      rw [hthickness] at h
      rw [← Except.error.inj h]
      exact readDimension_error hthickness
    | ok forThickness =>
      rw [hthickness] at h
      simp only [bind, Except.bind] at h
      split_ifs at h <;> cases h

/-- A draft without a blocking issue has everything an order needs. -/
theorem complete_of_validateDraft {board : Board} {draft : OrderDraft}
    (h : ∀ issue ∈ validateDraft board draft, issue.severity ≠ .blocking) :
    (∃ customerId, draft.fields.customerId = some customerId ∧
      customerId ∈ board.customers.keys) ∧
    (∃ productId product, draft.fields.productId = some productId ∧
      board.products.find? productId = some product) ∧
    (∃ quantity, draft.fields.quantity = some quantity) ∧
    (∃ unit, draft.fields.unit = some unit) ∧
    (∃ specParams, validateSpecification draft.fields.specParams = .ok specParams) ∧
    (draft.fields.formulaMode = "existing" → ∃ formulaId formula,
      draft.fields.formulaId = some formulaId ∧ board.formulas.find? formulaId = some formula ∧
      some formula.productId = draft.fields.productId) := by
  have hnil : validateDraft board draft = [] := List.eq_nil_iff_forall_not_mem.mpr
    fun issue hissue ↦ h issue hissue (issue_of_mem_validateDraft hissue).1
  unfold validateDraft at hnil
  simp only [List.append_eq_nil_iff, ite_eq_right_iff, List.cons_ne_nil, imp_false,
    Option.isNone_iff_eq_none] at hnil
  obtain ⟨⟨⟨⟨⟨hcustomers, hproducts⟩, hquantity⟩, hunit⟩, hspecs⟩, hformula⟩ := hnil
  obtain ⟨customer, hcustomers⟩ := Option.ne_none_iff_exists'.mp hcustomers
  obtain ⟨customerId, hcustomerId, hcustomer⟩ := Option.bind_eq_some_iff.mp hcustomers
  obtain ⟨product, hproducts⟩ := Option.ne_none_iff_exists'.mp hproducts
  obtain ⟨productId, hproductId, hproduct⟩ := Option.bind_eq_some_iff.mp hproducts
  refine ⟨⟨customerId, hcustomerId, ?_⟩, ⟨productId, product, hproductId, hproduct⟩,
    Option.ne_none_iff_exists'.mp hquantity, Option.ne_none_iff_exists'.mp hunit, ?_, ?_⟩
  · obtain ⟨hmem, hid⟩ := (board.customers.find?_eq_some_iff).mp hcustomer
    exact (board.customers.mem_keys).mpr ⟨customer, hmem, hid⟩
  · unfold specificationIssue at hspecs
    cases hvalid : validateSpecification draft.fields.specParams with
    | ok specParams => exact ⟨specParams, rfl⟩
    | error failure =>
      obtain ⟨status, detail, rfl⟩ := validateSpecification_error hvalid
      simp only [hvalid] at hspecs
      cases hspecs
  · intro hmode
    rw [not_and, not_not] at hformula
    obtain ⟨formula, hfound, hmatches⟩ := Option.map_eq_some_iff.mp (hformula hmode)
    obtain ⟨formulaId, hformulaId, hfind⟩ := Option.bind_eq_some_iff.mp hfound
    exact ⟨formulaId, formula, (truthy_eq_some_iff.mp hformulaId).1, hfind, hmatches⟩

theorem ne_empty_of_opaqueId {id : Id} (h : DraftFields.OpaqueId (some id)) : id ≠ "" := by
  rintro rfl
  exact absurd (h "" rfl).1 (by decide)

theorem standardQuantity_of_standard {quantity : ℚ} (hpositive : 0 < quantity) {unit : String}
    (hunit : unit = "m" ∨ unit = "kg") : standardQuantity quantity unit = .ok (quantity, unit) := by
  unfold standardQuantity
  rcases hunit with rfl | rfl
  · change (if quantity ≤ 0 then _ else Except.ok (quantity * 1, "m")) = _
    rw [if_neg (not_le.mpr hpositive), mul_one]
  · change (if quantity ≤ 0 then _ else Except.ok (quantity * 1, "kg")) = _
    rw [if_neg (not_le.mpr hpositive), mul_one]

/-- The formula that a checked draft has, if any, is found, belongs to the product, and is kept by
the snapshot. -/
theorem exists_draftFormula {board : Board} (draft : OrderDraft) (productId : Id)
    (hexisting : draft.fields.formulaMode = "existing" → ∃ formulaId formula,
      draft.fields.formulaId = some formulaId ∧ board.formulas.find? formulaId = some formula ∧
      formula.productId = productId) :
    ∃ formulaId snapshot, draftFormula board draft.fields productId = .ok formulaId ∧
      buildFormulaSnapshot board formulaId (some productId) = .ok snapshot ∧
      (draft.fields.formulaMode = "none" → formulaId = none ∧ snapshot = none) ∧
      (draft.fields.formulaMode = "existing" → ∃ formula,
        draft.fields.formulaId = some formula.id ∧
        board.formulas.find? formula.id = some formula ∧ truthy formulaId = some formula.id ∧
        snapshot = some formula.content) := by
  rcases draft.valid.2.2.2.2.2.2.1 with hmode | hmode
  · refine ⟨none, none, draftFormula_of_none hmode (draft.valid.2.2.2.2.2.2.2.1 hmode), rfl,
      fun _ ↦ ⟨rfl, rfl⟩, fun hother ↦ ?_⟩
    rw [hmode] at hother
    exact absurd hother (by decide)
  · obtain ⟨formulaId, formula, hformulaId, hfind, hproduct⟩ := hexisting hmode
    obtain rfl : formula.id = formulaId := ((board.formulas.find?_eq_some_iff).mp hfind).2
    have hopaque := draft.valid.2.2.1
    rw [hformulaId] at hopaque
    have htruthy : truthy (some formula.id) = some formula.id :=
      truthy_eq_some_iff.mpr ⟨rfl, ne_empty_of_opaqueId hopaque⟩
    refine ⟨some formula.id, some formula.content, ?_, ?_, fun hother ↦ ?_,
      fun _ ↦ ⟨formula, hformulaId, hfind, htruthy, rfl⟩⟩
    · rw [draftFormula_of_existing hmode, hformulaId, htruthy]
      unfold existingFormula
      simp only [hfind]
      rw [if_pos hproduct]
      rfl
    · unfold buildFormulaSnapshot
      simp only [htruthy, hfind]
      rw [except_bind_eq_ok]
      exact ⟨(), ensure_eq_ok.mpr fun _ hmem ↦ hproduct.trans (Option.some.inj hmem), rfl⟩
    · rw [hmode] at hother
      exact absurd hother (by decide)

theorem unit_of_standard {unit : String} (h : unit = "m" ∨ unit = "kg") :
    unit ≠ "" ∧ unit ∈ ["m", "g", "kg", "t", "cm", "mm"] ∧ truthy (some unit) = some unit := by
  rcases h with rfl | rfl
  · exact ⟨by decide, by decide, rfl⟩
  · exact ⟨by decide, by decide, rfl⟩

/-- A complete draft is submitted as the request for its order. -/
theorem createFromWorkspaceDraft_of_complete {call : Call} {draft : OrderDraft}
    {board board' : Board} {order : Order} {customerId productId : Id} {quantity : Decimal}
    {unit : String} {formulaId : Option Id}
    (hcustomerId : draft.fields.customerId = some customerId)
    (hcustomer : customerId ≠ "" ∧ customerId ∈ board.customers.keys)
    (hproductId : draft.fields.productId = some productId)
    (hproduct : productId ≠ "" ∧ productId ∈ board.products.keys)
    (hquantity : draft.fields.quantity = some quantity) (hpositive : 0 < quantity.value)
    (hunit : draft.fields.unit = some unit) (hstandard : unit = "m" ∨ unit = "kg")
    (hformula : draftFormula board draft.fields productId = .ok formulaId)
    (h : createOrderRecord call
      { customerId, productId, specParams := draft.fields.specParams, quantity := quantity.value
        unit, formulaId, extraNotes := truthy (some (strip draft.fields.extraNotes)) } board =
      .ok order board') : createFromWorkspaceDraft call draft board = .ok order board' := by
  obtain ⟨-, hunitMem, hunitTruthy⟩ := unit_of_standard hstandard
  unfold createFromWorkspaceDraft
  simp only [get_bind_eq_ok, require_bind_eq_ok, checked_bind_eq_ok, hcustomerId, hproductId, hunit,
    hunitTruthy, Option.getD_some]
  refine ⟨hcustomer, hproduct, hunitMem, formulaId, hformula, quantity.value, ?_, h⟩
  unfold draftQuantity
  rw [hquantity]
  exact if_pos hpositive

/-- The submission of a draft adds one order, which is the one that was checked. -/
def CreatesChecked (call : Call) (draft : OrderDraft) (board : Board) : Prop :=
  ∃ order board',
    OrderSubmission.createFromWorkspaceDraft call draft.dump board = .ok order board' ∧
    board'.orders.rows = board.orders.rows ++ [order] ∧
    draft.fields.customerId = some order.customerId ∧
    draft.fields.productId = some order.product.id ∧
    board.products.find? order.product.id = some order.product ∧
    draft.fields.quantity.map Decimal.value = some order.quantity ∧
    draft.fields.unit = some order.unit ∧
    validateSpecification draft.fields.specParams = .ok order.specParams ∧
    (draft.fields.formulaMode = "none" → order.formulaId = none ∧ order.formulaSnapshot = none) ∧
    (draft.fields.formulaMode = "existing" → ∃ formula,
      draft.fields.formulaId = some formula.id ∧
      board.formulas.find? formula.id = some formula ∧ order.formulaId = some formula.id ∧
      order.formulaSnapshot = some formula.content) ∧
    order.status = .pending ∧ order.taskId = none

/-- A draft without a blocking issue becomes an order, and the one that was checked, if the next
number is free. -/
theorem createsChecked_of_numberFree {call : Call} {draft : OrderDraft} {board : Board}
    (hnumber : NumberFree call board)
    (h : ∀ issue ∈ validateDraft board draft, issue.severity ≠ .blocking) :
    CreatesChecked call draft board := by
  obtain ⟨⟨customerId, hcustomerId, hcustomer⟩, ⟨productId, product, hproductId, hproduct⟩,
    ⟨quantity, hquantity⟩, ⟨unit, hunit⟩, ⟨specParams, hspecs⟩, hexisting⟩ :=
    complete_of_validateDraft h
  obtain ⟨formulaId, snapshot, hformula, hsnapshot, hnone, hchosen⟩ :=
    exists_draftFormula draft productId fun hmode ↦ by
      obtain ⟨formulaId, formula, hformulaId, hfind, hmatches⟩ := hexisting hmode
      rw [hproductId] at hmatches
      exact ⟨formulaId, formula, hformulaId, hfind, Option.some.inj hmatches⟩
  obtain ⟨hopaqueCustomer, hopaqueProduct, -, -, hpositive, hunits, -⟩ := draft.valid
  rw [hcustomerId] at hopaqueCustomer
  rw [hproductId] at hopaqueProduct
  have hstandard : unit = "m" ∨ unit = "kg" := hunits unit hunit
  obtain ⟨hunitNe, hunitMem, -⟩ := unit_of_standard hstandard
  have hquantityPos : 0 < quantity.value := (hpositive quantity hquantity).1
  have hcustomerNe := ne_empty_of_opaqueId hopaqueCustomer
  have hproductNe := ne_empty_of_opaqueId hopaqueProduct
  have hproductKey : productId ∈ board.products.keys := by
    obtain ⟨hmem, hid⟩ := (board.products.find?_eq_some_iff).mp hproduct
    exact (board.products.mem_keys).mpr ⟨product, hmem, hid⟩
  obtain ⟨order, board', hok, hcustomerOf, hproductOf, hspecsOf, hquantityOf, hunitOf, hformulaOf,
    hsnapshotOf, hstatus, htask⟩ := exists_createOrderRecord call
      { customerId, productId, specParams := draft.fields.specParams, quantity := quantity.value
        unit, formulaId, extraNotes := truthy (some (strip draft.fields.extraNotes)) }
      hnumber ⟨hcustomerNe, hproductNe, hunitNe⟩ hquantityPos hunitMem hspecs
      (standardQuantity_of_standard hquantityPos hstandard) hcustomer hproduct hsnapshot
  obtain rfl : product.id = productId := ((board.products.find?_eq_some_iff).mp hproduct).2
  have hcreated := createFromWorkspaceDraft_of_complete hcustomerId ⟨hcustomerNe, hcustomer⟩
    hproductId ⟨hproductNe, hproductKey⟩ hquantity hquantityPos hunit hstandard hformula hok
  refine ⟨order, board', ?_, (createFromWorkspaceDraft_ok hcreated).1,
    hcustomerId.trans (congrArg some hcustomerOf.symm), ?_, ?_, ?_, ?_, ?_, fun hmode ↦ ?_,
    fun hmode ↦ ?_, hstatus, htask⟩
  · rw [createFromWorkspaceDraft_dump, hcreated]
  · rw [hproductOf, hproductId]
  · rw [hproductOf, hproduct]
  · rw [hquantity, hquantityOf, Option.map_some]
  · rw [hunit, hunitOf]
  · rw [hspecs, hspecsOf]
  · obtain ⟨rfl, rfl⟩ := hnone hmode
    exact ⟨hformulaOf, hsnapshotOf⟩
  · obtain ⟨formula, hformulaId, hfind, htruthy, hcontent⟩ := hchosen hmode
    exact ⟨formula, hformulaId, hfind, hformulaOf.trans htruthy, hsnapshotOf.trans hcontent⟩

/-- A created order was created under a number that was free. -/
theorem numberFree_of_createsChecked {call : Call} {draft : OrderDraft} {board : Board}
    (h : CreatesChecked call draft board) : NumberFree call board := by
  obtain ⟨order, board', hok, -⟩ := h
  rw [createFromWorkspaceDraft_dump] at hok
  unfold createFromWorkspaceDraft at hok
  simp only [get_bind_eq_ok, require_bind_eq_ok, checked_bind_eq_ok] at hok
  obtain ⟨-, -, -, formulaId, -, quantity, -, hok⟩ := hok
  exact numberFree_of_createOrderRecord hok

/-- A draft without a blocking issue becomes the order that was checked, exactly when the next
number of the sequence is free. -/
theorem createsChecked_iff (call : Call) {draft : OrderDraft} {board : Board}
    (h : ∀ issue ∈ validateDraft board draft, issue.severity ≠ .blocking) :
    CreatesChecked call draft board ↔ NumberFree call board :=
  ⟨numberFree_of_createsChecked, fun hnumber ↦ createsChecked_of_numberFree hnumber h⟩

/-- A board with a customer, a product and a formula for it. -/
def formulaBoard : Board where
  customers := Table.empty.put ⟨"customer", "customer"⟩
  products := Table.empty.put ⟨"product", "product", ⟨"film", "film"⟩⟩
  formulas := Table.empty.put ⟨"formula", "formula", "product", Table.empty, "PE", none, none⟩
  machines := Table.empty
  orders := Table.empty
  tasks := Table.empty
  plans := Table.empty
  orderNumber := 0
  issued := []

/-- A complete draft with the formula. -/
def checkedDraft : OrderDraft :=
  ⟨⟨some "customer", some "product", Dict.ofList [("宽幅", "500mm"), ("厚度", "20μm")],
    some ⟨105, -1⟩, some "m", "existing", some "formula", ""⟩, by decide +kernel⟩

/-- An order of the demo data, numbered by hand. -/
def seededOrder (id : Id) (serial : ℕ) : Order where
  id
  orderNo := orderNoText "20260101" serial
  customerId := "customer"
  product := ⟨"product", "product", ⟨"film", "film"⟩⟩
  specParams := Dict.ofList [("厚度", "50μm"), ("宽度", "600mm")]
  quantity := 500
  unit := "kg"
  formulaId := none
  formulaSnapshot := none
  extraNotes := none
  status := .pending
  taskId := none
  createdAt := 0
  updatedAt := 0

/-- The board after the demo data were loaded: five orders of the day, and no number drawn. -/
def seededBoard : Board :=
  { formulaBoard with
    orders := ((((Table.empty.put (seededOrder "a" 1)).put (seededOrder "b" 2)).put
      (seededOrder "c" 3)).put (seededOrder "d" 4)).put (seededOrder "e" 5) }

/-- Where the demo data were loaded, a complete draft is not made an order on that day: the first
number of the sequence is taken. -/
theorem not_createsChecked_seeded :
    validateDraft seededBoard checkedDraft = [] ∧
      ¬ CreatesChecked ⟨0, "20260101", IdSource.longer⟩ checkedDraft seededBoard :=
  ⟨by decide +kernel, fun h ↦
    absurd (numberFree_of_createsChecked h) (by decide +kernel)⟩

theorem createsChecked_iff_sample :
    CreatesChecked ⟨0, "20260101", IdSource.longer⟩ checkedDraft formulaBoard ∧
      ¬ CreatesChecked ⟨0, "20260101", IdSource.longer⟩ checkedDraft seededBoard := by
  have hformula : validateDraft formulaBoard checkedDraft = [] := by
    decide +kernel
  have hseeded : validateDraft seededBoard checkedDraft = [] := by
    decide +kernel
  rw [createsChecked_iff _ fun issue hissue ↦ absurd (hformula ▸ hissue) List.not_mem_nil,
    createsChecked_iff _ fun issue hissue ↦ absurd (hseeded ▸ hissue) List.not_mem_nil]
  decide +kernel

end Agent

end FilmOS
