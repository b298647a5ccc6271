import FilmOS.Board.Formulas
import FilmOS.Library.Derivation
import FilmOS.Library.Run

/-!
# Runs of orders and formulas

The operations that write orders with their formulas and formulas with their sources, as one step
function, and two properties of the states its runs reach.

`WellDerived` says that no formula is derived from itself and that every source exists. It holds in
every state of a run exactly when no step closes a cycle (`wellDerived_run_iff`): an update may name
as source any formula there is, also one that is derived from the updated formula, or that formula
itself.

`Matched` says that the formula of an order exists and belongs to the product of the order, and that
the snapshot is the content the formula had when it was last chosen for the order. It holds in every
state of a run exactly when no update gives a formula that some order refers to another product
(`matched_run_iff`): the service looks at the orders of a formula when it is deleted, not when its
product changes.
-/

set_option autoImplicit false
set_option relaxedAutoImplicit false

namespace FilmOS

open Transaction OrderService FormulaService OrderSubmission Relation

/-- An operation on orders and formulas. -/
inductive FormulaOp
  | createOrderRecord (request : OrderRequest)
  | createFromWorkspaceDraft (draft : WorkspaceDraft)
  | updateOrder (orderId : Id) (fields : OrderFields)
  | createFormula (request : FormulaRequest)
  | updateFormula (formulaId : Id) (request : FormulaRequest)
  | deleteFormula (formulaId : Id)

/-- One operation, as a transaction. -/
def Board.formulaStep (board : Board) (input : Call × FormulaOp) : Board :=
  match input.2 with
  | .createOrderRecord request => commit (createOrderRecord input.1 request) board
  | .createFromWorkspaceDraft draft => commit (createFromWorkspaceDraft input.1 draft) board
  | .updateOrder orderId fields => commit (updateOrder input.1 orderId fields) board
  | .createFormula request => commit (createFormula input.1 request) board
  | .updateFormula formulaId request => commit (updateFormula formulaId request) board
  | .deleteFormula formulaId => commit (deleteFormula formulaId) board

/-! ### Changes of the formulas -/

/-- A new formula was added, with a source that exists. -/
structure AddsFormula (formulas formulas' : Table Formula) (formula : Formula) : Prop where
  fresh : formula.id ∉ formulas.keys
  source : ∀ sourceId ∈ formula.sourceId, sourceId ∈ formulas.keys
  rows_eq : formulas'.rows = formulas.rows ++ [formula]

/-- The formulas are as before, or one was added. -/
def Grows (formulas formulas' : Table Formula) : Prop :=
  formulas' = formulas ∨ ∃ formula, AddsFormula formulas formulas' formula

theorem AddsFormula.find? {formulas formulas' : Table Formula} {formula : Formula}
    (h : AddsFormula formulas formulas' formula) {id : Id} {old : Formula}
    (hold : formulas.find? id = some old) : formulas'.find? id = some old := by
  obtain ⟨hmem, hid⟩ := (formulas.find?_eq_some_iff).mp hold
  refine formulas'.find?_of_mem ?_ hid
  rw [h.rows_eq]
  exact List.mem_append_left _ hmem

theorem Grows.find? {formulas formulas' : Table Formula} (h : Grows formulas formulas') {id : Id}
    {old : Formula} (hold : formulas.find? id = some old) : formulas'.find? id = some old := by
  rcases h with rfl | ⟨formula, hadds⟩
  · exact hold
  · exact hadds.find? hold

theorem AddsFormula.mem_keys {formulas formulas' : Table Formula} {formula : Formula}
    (h : AddsFormula formulas formulas' formula) {id : Id} :
    id ∈ formulas'.keys ↔ id ∈ formulas.keys ∨ id = formula.id := by
  unfold Table.keys
  rw [h.rows_eq, List.map_append, List.mem_append, List.map_singleton, List.mem_singleton,
    key_formula]

theorem addsFormula_of_addFormula {call : Call} {row : Id → Formula} {board board' : Board}
    {id : Id} (h : addFormula call row board = .ok id board') :
    AddsFormula board.formulas board'.formulas (row id) ∧ board'.orders = board.orders := by
  obtain ⟨hfresh, hsource, formulas, hrows, rfl⟩ := addFormula_ok h
  exact ⟨⟨hfresh, hsource, hrows⟩, rfl⟩

/-- The formulas grow when a draft is submitted. -/
theorem grows_createFromWorkspaceDraft {call : Call} {draft : WorkspaceDraft}
    {board board' : Board} {order : Order}
    (h : createFromWorkspaceDraft call draft board = .ok order board') :
    Grows board.formulas board'.formulas := by
  obtain ⟨middle, request, hcreate, hmiddle⟩ := createFromWorkspaceDraft_ok h
  rw [(chooses_createOrderRecord hcreate).1]
  rcases hmiddle with rfl | ⟨id, hadd⟩
  · exact Or.inl rfl
  · exact Or.inr ⟨_, (addsFormula_of_addFormula hadd).1⟩

/-- A step is an accepted update of a formula. -/
def Updates (board : Board) (input : Call × FormulaOp) (formulaId : Id)
    (request : FormulaRequest) : Prop :=
  input.2 = .updateFormula formulaId request ∧ Accepts board formulaId request

/-- An accepted update replaces the formula. -/
theorem Updates.formulaStep_eq {board : Board} {input : Call × FormulaOp} {formulaId : Id}
    {request : FormulaRequest} (h : Updates board input formulaId request) :
    board.formulaStep input = { board with
      formulas := board.formulas.update formulaId request.replace request.key_replace } := by
  obtain ⟨call, op⟩ := input
  obtain ⟨rfl, haccepts⟩ := h
  exact commit_of_ok (a := ()) (updateFormula_ok_iff.mpr ⟨haccepts, rfl⟩)

/-- Every other step lets the formulas grow, or removes one that no order refers to. -/
theorem formulas_formulaStep {board : Board} {input : Call × FormulaOp}
    (h : ∀ formulaId request, ¬ Updates board input formulaId request) :
    Grows board.formulas (board.formulaStep input).formulas ∨
    ∃ formulaId, (∀ order ∈ board.orders.rows, order.formulaId ≠ some formulaId) ∧
      board.formulaStep input = { board with
        formulas := (board.formulas.mapRows (freed formulaId) (key_freed formulaId)).erase
          formulaId } := by
  obtain ⟨call, op⟩ := input
  cases op with
  | createOrderRecord request =>
    refine Or.inl (Or.inl ?_)
    rcases commit_cases (createOrderRecord call request) board with heq | ⟨order, board', hok, heq⟩
    · exact congrArg Board.formulas heq
    · exact (congrArg Board.formulas heq).trans (chooses_createOrderRecord hok).1
  | createFromWorkspaceDraft draft =>
    refine Or.inl ?_
    rcases commit_cases (createFromWorkspaceDraft call draft) board with
      heq | ⟨order, board', hok, heq⟩
    · exact Or.inl (congrArg Board.formulas heq)
    · have hgrows := grows_createFromWorkspaceDraft hok
      rwa [← heq] at hgrows
  | updateOrder orderId fields =>
    refine Or.inl (Or.inl ?_)
    rcases commit_cases (updateOrder call orderId fields) board with heq | ⟨u, board', hok, heq⟩
    · exact congrArg Board.formulas heq
    · obtain ⟨order, -, change, hid, rfl, -⟩ := updateOrder_formula hok
      have hformulas := congrArg Board.formulas heq
      exact hformulas
  | createFormula request =>
    refine Or.inl ?_
    rcases commit_cases (createFormula call request) board with heq | ⟨id, board', hok, heq⟩
    · exact Or.inl (congrArg Board.formulas heq)
    · obtain ⟨hfresh, hsource, formulas, hrows, rfl⟩ := createFormula_ok hok
      refine Or.inr ⟨request.row id, hfresh, hsource, ?_⟩
      exact (congrArg (fun board : Board ↦ board.formulas.rows) heq).trans hrows
  | updateFormula formulaId request =>
    rcases commit_cases (updateFormula formulaId request) board with heq | ⟨u, board', hok, heq⟩
    · exact Or.inl (Or.inl (congrArg Board.formulas heq))
    · exact absurd ⟨rfl, (updateFormula_ok_iff.mp hok).1⟩ (h formulaId request)
  | deleteFormula formulaId =>
    rcases commit_cases (deleteFormula formulaId) board with heq | ⟨u, board', hok, heq⟩
    · exact Or.inl (Or.inl (congrArg Board.formulas heq))
    · obtain ⟨hfree, rfl⟩ := deleteFormula_ok hok
      exact Or.inr ⟨formulaId, hfree, heq⟩

/-! ### Derivation -/

/-- A formula names another as its source. -/
def Derives (formulas : Table Formula) (id sourceId : Id) : Prop :=
  ∃ formula ∈ formulas.rows, formula.id = id ∧ formula.sourceId = some sourceId

/-- No formula is derived from itself, and every source exists. -/
structure WellDerived (formulas : Table Formula) : Prop where
  acyclic : Derivation.Acyclic (Derives formulas)
  sources : ∀ formula ∈ formulas.rows, ∀ sourceId ∈ formula.sourceId, sourceId ∈ formulas.keys

/-- An accepted update closes a cycle: the source it names is the formula itself or derived from
it. -/
def ClosesCycle (board : Board) (input : Call × FormulaOp) : Prop :=
  ∃ formulaId request, Updates board input formulaId request ∧
    ∃ sourceId ∈ truthy request.sourceId, ReflTransGen (Derives board.formulas) sourceId formulaId

/-- A formula with at most one pair of its own: the pairs of the others are kept. -/
theorem acyclic_of_pairs {formulas formulas' : Table Formula} {id : Id} {source : Option Id}
    (hpairs : ∀ x y, Derives formulas' x y ↔
      (x = id ∧ source = some y) ∨ (x ≠ id ∧ Derives formulas x y))
    (h : Derivation.Acyclic (Derives formulas)) :
    Derivation.Acyclic (Derives formulas') ↔
      ∀ sourceId ∈ source, ¬ ReflTransGen (Derives formulas) sourceId id := by
  cases source with
  | none =>
    refine iff_of_true (h.mono fun x y hxy ↦ ?_) (by simp)
    rcases (hpairs x y).mp hxy with ⟨-, hnone⟩ | ⟨-, hold⟩
    · cases hnone
    · exact hold
  | some sourceId =>
    have hrelink : Derives formulas' = Derivation.relink (Derives formulas) id sourceId := by
      funext x y
      rw [eq_iff_iff, hpairs]
      unfold Derivation.relink
      rw [Option.some_inj, eq_comm (a := sourceId)]
    rw [hrelink, Derivation.acyclic_relink_iff h]
    simp

/-- An added formula keeps the formulas well derived: none is derived from it yet. -/
theorem WellDerived.add {formulas formulas' : Table Formula} {formula : Formula}
    (h : WellDerived formulas) (hadds : AddsFormula formulas formulas' formula) :
    WellDerived formulas' := by
  have hpairs : ∀ x y, Derives formulas' x y ↔
      (x = formula.id ∧ formula.sourceId = some y) ∨ (x ≠ formula.id ∧ Derives formulas x y) := by
    intro x y
    unfold Derives
    rw [hadds.rows_eq]
    constructor
    · rintro ⟨row, hrow, rfl, hsource⟩
      rcases List.mem_append.mp hrow with hold | hnew
      · refine Or.inr ⟨fun heq ↦ hadds.fresh ?_, row, hold, rfl, hsource⟩
        exact (formulas.mem_keys).mpr ⟨row, hold, heq⟩
      · rw [List.mem_singleton.mp hnew] at hsource ⊢
        exact Or.inl ⟨rfl, hsource⟩
    · rintro (⟨rfl, hsource⟩ | ⟨-, row, hrow, hid, hsource⟩)
      · exact ⟨formula, List.mem_append_right _ (List.mem_singleton_self _), rfl, hsource⟩
      · exact ⟨row, List.mem_append_left _ hrow, hid, hsource⟩
  refine ⟨(acyclic_of_pairs hpairs h.acyclic).mpr fun sourceId hsource hpath ↦ ?_, ?_⟩
  · rcases hpath.cases_tail with heq | ⟨last, -, row, hrow, -, hlast⟩
    · exact hadds.fresh (heq ▸ hadds.source sourceId hsource)
    · exact hadds.fresh (h.sources row hrow _ hlast)
  · intro row hrow sourceId hsource
    rw [hadds.rows_eq] at hrow
    refine hadds.mem_keys.mpr (Or.inl ?_)
    rcases List.mem_append.mp hrow with hold | hnew
    · exact h.sources row hold sourceId hsource
    · rw [List.mem_singleton.mp hnew] at hsource
      exact hadds.source sourceId hsource

/-- A removed formula keeps the formulas well derived: those derived from it lose their source. -/
theorem WellDerived.delete {formulas : Table Formula} (h : WellDerived formulas) (formulaId : Id) :
    WellDerived ((formulas.mapRows (freed formulaId) (key_freed formulaId)).erase formulaId) := by
  have hrows : ∀ row ∈ ((formulas.mapRows (freed formulaId) (key_freed formulaId)).erase
      formulaId).rows, ∃ old ∈ formulas.rows, row.id = old.id ∧
        ∀ sourceId ∈ row.sourceId, old.sourceId = some sourceId ∧ sourceId ≠ formulaId := by
    intro row hrow
    obtain ⟨old, hold, rfl⟩ := List.mem_map.mp (List.mem_filter.mp hrow).1
    refine ⟨old, hold, rfl, fun sourceId hsource ↦ ?_⟩
    unfold freed at hsource
    dsimp only at hsource
    split_ifs at hsource with hdeleted
    · cases hsource
    · refine ⟨hsource, ?_⟩
      rintro rfl
      exact hdeleted hsource
  refine ⟨h.acyclic.mono ?_, ?_⟩
  · rintro x y ⟨row, hrow, rfl, hsource⟩
    obtain ⟨old, hold, hid, hsources⟩ := hrows row hrow
    exact ⟨old, hold, hid.symm, (hsources y hsource).1⟩
  · intro row hrow sourceId hsource
    obtain ⟨old, hold, hid, hsources⟩ := hrows row hrow
    obtain ⟨holdSource, hne⟩ := hsources sourceId hsource
    obtain ⟨found, hfound, hkey⟩ := (formulas.mem_keys).mp (h.sources old hold sourceId holdSource)
    refine ((formulas.mapRows (freed formulaId) (key_freed formulaId)).erase formulaId).mem_keys.mpr
      ⟨freed formulaId found, ?_, hkey⟩
    refine List.mem_filter.mpr ⟨List.mem_map_of_mem hfound, ?_⟩
    rw [decide_eq_true_eq]
    exact fun heq ↦ hne (hkey.symm.trans heq)

/-- A replaced formula keeps the formulas well derived exactly when it was not reachable from its
new source. -/
theorem wellDerived_update_iff {board : Board} (h : WellDerived board.formulas) {formulaId : Id}
    {request : FormulaRequest} (haccepts : Accepts board formulaId request) :
    WellDerived (board.formulas.update formulaId request.replace request.key_replace) ↔
      ∀ sourceId ∈ truthy request.sourceId,
        ¬ ReflTransGen (Derives board.formulas) sourceId formulaId := by
  obtain ⟨-, hkey, -, hsources⟩ := haccepts
  have hpairs : ∀ x y,
      Derives (board.formulas.update formulaId request.replace request.key_replace) x y ↔
      (x = formulaId ∧ truthy request.sourceId = some y) ∨
        (x ≠ formulaId ∧ Derives board.formulas x y) := by
    intro x y
    unfold Derives
    constructor
    · rintro ⟨row, hrow, rfl, hsource⟩
      obtain ⟨old, hold, rfl⟩ := (board.formulas.mem_update).mp hrow
      split_ifs at hsource ⊢ with hid
      · exact Or.inl ⟨hid, hsource⟩
      · exact Or.inr ⟨hid, old, hold, rfl, hsource⟩
    · rintro (⟨rfl, hsource⟩ | ⟨hne, row, hrow, hid, hsource⟩)
      · obtain ⟨old, hold, hid⟩ := (board.formulas.mem_keys).mp hkey
        refine ⟨request.replace old, (board.formulas.mem_update).mpr ⟨old, hold, ?_⟩, hid, hsource⟩
        rw [if_pos hid]
      · refine ⟨row, (board.formulas.mem_update).mpr ⟨row, hrow, ?_⟩, hid, hsource⟩
        rw [if_neg]
        exact fun heq ↦ hne (hid.symm.trans heq)
  rw [← acyclic_of_pairs hpairs h.acyclic]
  refine ⟨fun hafter ↦ hafter.acyclic, fun hacyclic ↦ ⟨hacyclic, ?_⟩⟩
  intro row hrow sourceId hsource
  rw [Table.keys_update]
  obtain ⟨old, hold, rfl⟩ := (board.formulas.mem_update).mp hrow
  split_ifs at hsource with hid
  · exact hsources sourceId hsource
  · exact h.sources old hold sourceId hsource

/-- A step keeps the formulas well derived exactly when it closes no cycle. -/
theorem wellDerived_formulaStep_iff (board : Board) (input : Call × FormulaOp)
    (h : WellDerived board.formulas) :
    WellDerived (board.formulaStep input).formulas ↔ ¬ ClosesCycle board input := by
  by_cases hupdates : ∃ formulaId request, Updates board input formulaId request
  · obtain ⟨formulaId, request, hupdate⟩ := hupdates
    rw [hupdate.formulaStep_eq, wellDerived_update_iff h hupdate.2]
    constructor
    · rintro hopen ⟨formulaId', request', hupdate', sourceId, hsource, hpath⟩
      obtain ⟨rfl, rfl⟩ := FormulaOp.updateFormula.inj (hupdate.1.symm.trans hupdate'.1)
      exact hopen sourceId hsource hpath
    · intro hcloses sourceId hsource hpath
      exact hcloses ⟨formulaId, request, hupdate, sourceId, hsource, hpath⟩
  · simp only [not_exists] at hupdates
    refine iff_of_true ?_ fun ⟨formulaId, request, hupdate, _⟩ ↦
      hupdates formulaId request hupdate
    rcases formulas_formulaStep hupdates with (hsame | ⟨formula, hadds⟩) | ⟨formulaId, -, hafter⟩
    · rwa [hsame]
    · exact h.add hadds
    · rw [hafter]
      exact h.delete formulaId

/-- In every run the formulas stay well derived exactly when no step closes a cycle. -/
theorem wellDerived_run_iff {board : Board} (h : WellDerived board.formulas)
    (inputs : List (Call × FormulaOp)) :
    (∀ reached, reached <+: inputs →
      WellDerived (System.run Board.formulaStep board reached).formulas) ↔
      System.Meets Board.formulaStep (fun board input ↦ ¬ ClosesCycle board input) board inputs :=
  System.prefix_invariant_iff wellDerived_formulaStep_iff inputs h

/-- Two products and a customer, without formulas or orders. -/
def masterBoard : Board where
  customers := Table.empty.put ⟨"customer", "customer"⟩
  products := (Table.empty.put ⟨"product", "product", ⟨"film", "film"⟩⟩).put
    ⟨"other", "other", ⟨"film", "film"⟩⟩
  formulas := Table.empty
  machines := Table.empty
  orders := Table.empty
  tasks := Table.empty
  plans := Table.empty
  orderNumber := 0
  issued := []

/-- A request for a formula of a product, derived from another one. -/
def sampleFormula (productId : Id) (sourceId : Option Id) : FormulaRequest :=
  ⟨"formula", productId, Table.empty, "PE", sourceId, none⟩

/-- A formula, one derived from it, and an update that makes the second the source of the first. -/
def derivingRun : List (Call × FormulaOp) :=
  [.createFormula (sampleFormula "product" none),
    .createFormula (sampleFormula "product" (some "f")),
    .updateFormula "f" (sampleFormula "product" (some "ff"))].map
      (fun op ↦ (⟨0, "20260101", IdSource.longer⟩, op))

theorem wellDerived_masterBoard : WellDerived masterBoard.formulas where
  acyclic := fun x hcycle ↦ by
    obtain ⟨-, -, row, hrow, -⟩ := TransGen.tail'_iff.mp hcycle
    exact List.not_mem_nil hrow
  sources := fun row hrow ↦ absurd hrow List.not_mem_nil

theorem wellDerived_derivingRun_iff :
    WellDerived masterBoard.formulas ∧
    ((∀ reached, reached <+: derivingRun →
      WellDerived (System.run Board.formulaStep masterBoard reached).formulas) ↔
      System.Meets Board.formulaStep (fun board input ↦ ¬ ClosesCycle board input) masterBoard
        derivingRun) :=
  ⟨wellDerived_masterBoard, wellDerived_run_iff wellDerived_masterBoard derivingRun⟩

theorem not_wellDerived_derivingRun :
    WellDerived masterBoard.formulas ∧
    ¬ WellDerived (System.run Board.formulaStep masterBoard derivingRun).formulas := by
  have hforth : ∃ formula ∈ (System.run Board.formulaStep masterBoard derivingRun).formulas.rows,
      formula.id = "f" ∧ formula.sourceId = some "ff" := by
    decide +kernel
  have hback : ∃ formula ∈ (System.run Board.formulaStep masterBoard derivingRun).formulas.rows,
      formula.id = "ff" ∧ formula.sourceId = some "f" := by
    decide +kernel
  exact ⟨wellDerived_masterBoard, fun h ↦
    h.acyclic "f" ((TransGen.single hforth).tail hback)⟩

/-! ### Chosen formulas -/

/-- A formula was chosen for an order, with the content it had then. -/
structure Choice where
  orderId : Id
  formulaId : Id
  content : FormulaSnapshot
deriving DecidableEq

/-- The choice of the formula of an order, if it has one. -/
def Board.choiceOf (board : Board) (order : Order) : List Choice :=
  ((order.formulaId.bind board.formulas.find?).map fun formula ↦
    ⟨order.id, formula.id, formula.content⟩).toList

/-- The choice that a step makes: a created order chooses its formula, and so does an updated one
when a formula is given. -/
def Board.choices (board : Board) (input : Call × FormulaOp) : List Choice :=
  match input.2 with
  | .createOrderRecord request =>
    match createOrderRecord input.1 request board with
    | .ok order board' => board'.choiceOf order
    | .error _ _ => []
  | .createFromWorkspaceDraft draft =>
    match createFromWorkspaceDraft input.1 draft board with
    | .ok order board' => board'.choiceOf order
    | .error _ _ => []
  | .updateOrder orderId fields =>
    match updateOrder input.1 orderId fields board with
    | .ok _ board' =>
      if fields.formulaId = none then []
      else (board'.orders.find? orderId).toList.flatMap board'.choiceOf
    | .error _ _ => []
  | _ => []

/-- The last choice for an order. -/
def lastChoice (past : List Choice) (orderId : Id) : Option Choice :=
  (past.filter (·.orderId = orderId)).getLast?

/-- The formula of every order exists and belongs to the product of the order. -/
def Compatible (board : Board) : Prop :=
  ∀ order ∈ board.orders.rows, ∀ formulaId ∈ order.formulaId, formulaId ≠ "" ∧
    ∃ formula, board.formulas.find? formulaId = some formula ∧
      formula.productId = order.product.id

/-- The snapshot of every order is the content that its formula had when it was last chosen. -/
def Recorded (board : Board) (past : List Choice) : Prop :=
  ∀ order ∈ board.orders.rows, ∀ formulaId ∈ order.formulaId,
    ∃ content, lastChoice past order.id = some ⟨order.id, formulaId, content⟩ ∧
      order.formulaSnapshot = some content

/-- An accepted update gives a formula another product than an order with that formula has. -/
def Rebinds (board : Board) (input : Call × FormulaOp) : Prop :=
  ∃ formulaId request, Updates board input formulaId request ∧
    ∃ order ∈ board.orders.rows, order.formulaId = some formulaId ∧
      order.product.id ≠ request.productId

theorem Board.Chooses.choiceOf_eq {board : Board} {order : Order} (h : board.Chooses order)
    {formulaId : Id} (hformula : order.formulaId = some formulaId) :
    ∃ content, board.choiceOf order = [⟨order.id, formulaId, content⟩] ∧
      order.formulaSnapshot = some content := by
  obtain ⟨-, formula, hfind, -, hsnapshot⟩ := h formulaId hformula
  refine ⟨formula.content, ?_, hsnapshot⟩
  unfold Board.choiceOf
  rw [hformula, Option.bind_some, hfind]
  have hid : formula.id = formulaId := ((board.formulas.find?_eq_some_iff).mp hfind).2
  rw [Option.map_some, hid]
  rfl

theorem orderId_of_mem_choiceOf {board : Board} {order : Order} {choice : Choice}
    (h : choice ∈ board.choiceOf order) : choice.orderId = order.id := by
  unfold Board.choiceOf at h
  rw [Option.mem_toList] at h
  obtain ⟨formula, -, rfl⟩ := Option.map_eq_some_iff.mp h
  rfl

/-- Choices for another order leave the last choice for an order. -/
theorem lastChoice_append_of_ne {past new : List Choice} {orderId : Id}
    (h : ∀ choice ∈ new, choice.orderId ≠ orderId) :
    lastChoice (past ++ new) orderId = lastChoice past orderId := by
  have hnil : new.filter (·.orderId = orderId) = [] :=
    List.filter_eq_nil_iff.mpr fun choice hchoice ↦ by simpa using h choice hchoice
  unfold lastChoice
  rw [List.filter_append, hnil, List.append_nil]

/-- A choice that is made last is the last one for its order. -/
theorem lastChoice_append_singleton (past : List Choice) (choice : Choice) :
    lastChoice (past ++ [choice]) choice.orderId = some choice := by
  unfold lastChoice
  rw [List.filter_append, List.filter_cons_of_pos (by simp), List.filter_nil, List.getLast?_concat]

/-- A change of one order replaces its row, and renews nothing but the update time. -/
theorem exists_changed (call : Call) {board : Board} {order : Order} {orderId : Id}
    (hfind : board.orders.find? orderId = some order) {change : Order → Order}
    (hid : ∀ row, (change row).id = row.id) :
    ∃ changed, changed.id = orderId ∧ changed.formulaId = (change order).formulaId ∧
      changed.formulaSnapshot = (change order).formulaSnapshot ∧
      changed.product = (change order).product ∧
      (board.changeOrders call [orderId] change hid).orders.rows =
        board.orders.rows.map (fun row ↦ if row.id = orderId then changed else row) := by
  obtain ⟨hmem, hkey⟩ := (board.orders.find?_eq_some_iff).mp hfind
  have hchanged : ∀ row, row ∈ board.orders.rows → row.id = orderId → row = order :=
    fun row hrow hrowId ↦ board.orders.eq_of_key_eq hrow hmem (hrowId.trans hkey.symm)
  refine ⟨stamped (fun o ↦ { o with updatedAt := call.now }) change order, ?_, ?_, ?_, ?_, ?_⟩
  · rw [← hkey]
    unfold stamped
    split_ifs
    · rfl
    · exact hid order
  · unfold stamped
    split_ifs with hsame
    · rw [hsame]
    · rfl
  · unfold stamped
    split_ifs with hsame
    · rw [hsame]
    · rfl
  · unfold stamped
    split_ifs with hsame
    · rw [hsame]
    · rfl
  · refine List.map_congr_left fun row hrow ↦ ?_
    simp only [List.mem_singleton]
    by_cases hrowId : row.id = orderId
    · rw [if_pos hrowId, if_pos hrowId, hchanged row hrow hrowId]
    · rw [if_neg hrowId, if_neg hrowId]

theorem Board.Chooses.of_eq {board board' : Board} {order order' : Order} (h : board.Chooses order)
    (hformulas : board'.formulas = board.formulas) (hformula : order'.formulaId = order.formulaId)
    (hsnapshot : order'.formulaSnapshot = order.formulaSnapshot)
    (hproduct : order'.product = order.product) : board'.Chooses order' := by
  unfold Board.Chooses
  rw [hformulas, hformula, hsnapshot, hproduct]
  exact h

theorem orders_commit {α : Type} {body : Txn Failure Board α} {board : Board}
    (h : ∀ a board', body board = .ok a board' → board'.orders = board.orders) :
    (commit body board).orders = board.orders := by
  rcases commit_cases body board with heq | ⟨a, board', hok, heq⟩
  · rw [heq]
  · rw [heq]
    exact h a board' hok

/-- What a step does to the orders and which choice it makes: nothing, a new order that chooses its
formula, or an order that changes and chooses a formula or keeps the one it has. -/
theorem orders_formulaStep (board : Board) (input : Call × FormulaOp) :
    ((board.formulaStep input).orders = board.orders ∧ board.choices input = []) ∨
    (∃ order, (board.formulaStep input).orders.rows = board.orders.rows ++ [order] ∧
      (board.formulaStep input).Chooses order ∧
      board.choices input = (board.formulaStep input).choiceOf order) ∨
    ∃ order changed, board.orders.find? order.id = some order ∧ changed.id = order.id ∧
      (board.formulaStep input).orders.rows =
        board.orders.rows.map (fun row ↦ if row.id = order.id then changed else row) ∧
      ((board.formulaStep input).Chooses changed ∧
          board.choices input = (board.formulaStep input).choiceOf changed ∨
        board.choices input = [] ∧ changed.formulaId = order.formulaId ∧
          changed.formulaSnapshot = order.formulaSnapshot ∧
          (changed.product = order.product ∨ ∀ id ∈ order.formulaId, id ≠ "" →
            ∃ formula, (board.formulaStep input).formulas.find? id = some formula ∧
              formula.productId = changed.product.id)) := by
  obtain ⟨call, op⟩ := input
  cases op with
  | createOrderRecord request =>
    unfold Board.formulaStep Board.choices
    cases hok : createOrderRecord call request board with
    | error failure middle =>
      simp only [hok, commit_of_error hok]
      exact Or.inl ⟨trivial, trivial⟩
    | ok order board' =>
      simp only [hok, commit_of_ok hok]
      exact Or.inr (Or.inl ⟨order, (createOrderRecord_ok hok).2.2.1,
        (chooses_createOrderRecord hok).2, rfl⟩)
  | createFromWorkspaceDraft draft =>
    unfold Board.formulaStep Board.choices
    cases hok : createFromWorkspaceDraft call draft board with
    | error failure middle =>
      simp only [hok, commit_of_error hok]
      exact Or.inl ⟨trivial, trivial⟩
    | ok order board' =>
      simp only [hok, commit_of_ok hok]
      obtain ⟨middle, request, hcreate, hmiddle⟩ := createFromWorkspaceDraft_ok hok
      have horders : middle.orders = board.orders := by
        rcases hmiddle with rfl | ⟨id, hadd⟩
        · rfl
        · exact (addsFormula_of_addFormula hadd).2
      refine Or.inr (Or.inl ⟨order, ?_, (chooses_createOrderRecord hcreate).2, rfl⟩)
      rw [(createOrderRecord_ok hcreate).2.2.1, horders]
  | updateOrder orderId fields =>
    unfold Board.formulaStep Board.choices
    cases hok : updateOrder call orderId fields board with
    | error failure middle =>
      simp only [hok, commit_of_error hok]
      exact Or.inl ⟨trivial, trivial⟩
    | ok u board' =>
      simp only [hok, commit_of_ok hok]
      obtain ⟨order, hfind, change, hid, hboard, hformula⟩ := updateOrder_formula hok
      obtain ⟨changed, hchangedId, hformulaId, hsnapshot, hproduct, hrows⟩ :=
        exists_changed call hfind hid
      obtain ⟨hmem, rfl⟩ := (board.orders.find?_eq_some_iff).mp hfind
      rw [← hboard] at hrows
      have hformulas : board'.formulas = board.formulas := by rw [hboard]; rfl
      have hfound : board'.orders.find? order.id = some changed := by
        refine board'.orders.find?_of_mem ?_ hchangedId
        rw [hrows]
        exact List.mem_map.mpr ⟨order, hmem, if_pos rfl⟩
      refine Or.inr (Or.inr ⟨order, changed, hfind, hchangedId, hrows, ?_⟩)
      rcases hformula with ⟨hgiven, hchooses⟩ | ⟨hnone, hkeptId, hkeptSnapshot, hkeptProduct⟩
      · refine Or.inl ⟨hchooses.of_eq hformulas hformulaId hsnapshot hproduct, ?_⟩
        rw [if_neg hgiven]
        simp only [key_order] at hfound ⊢
        rw [hfound]
        simp
      · refine Or.inr ⟨if_pos hnone, hformulaId.trans hkeptId, hsnapshot.trans hkeptSnapshot, ?_⟩
        rw [hproduct, hformulas]
        exact hkeptProduct
  | createFormula request =>
    refine Or.inl ⟨orders_commit fun id board' hok ↦ ?_, rfl⟩
    obtain ⟨-, -, formulas, -, rfl⟩ := createFormula_ok hok
    rfl
  | updateFormula formulaId request =>
    refine Or.inl ⟨orders_commit fun u board' hok ↦ ?_, rfl⟩
    obtain ⟨-, rfl⟩ := updateFormula_ok_iff.mp hok
    rfl
  | deleteFormula formulaId =>
    refine Or.inl ⟨orders_commit fun u board' hok ↦ ?_, rfl⟩
    obtain ⟨-, rfl⟩ := deleteFormula_ok hok
    rfl

/-- Snapshots stay the content of the formulas last chosen. -/
theorem recorded_formulaStep (board : Board) (input : Call × FormulaOp) (past : List Choice)
    (h : Recorded board past) :
    Recorded (board.formulaStep input) (past ++ board.choices input) := by
  intro row hrow formulaId hformula
  rcases orders_formulaStep board input with
    ⟨horders, hchoices⟩ | ⟨order, hrows, hchooses, hchoices⟩ |
      ⟨order, changed, hfind, hid, hrows, hchange⟩
  · rw [horders] at hrow
    rw [hchoices, List.append_nil]
    exact h row hrow formulaId hformula
  · have hnodup := (board.formulaStep input).orders.nodup
    rw [hrows, List.map_append] at hnodup
    rw [hrows] at hrow
    rw [hchoices]
    rcases List.mem_append.mp hrow with hold | hnew
    · rw [lastChoice_append_of_ne]
      · exact h row hold formulaId hformula
      · intro choice hchoice heq
        rw [orderId_of_mem_choiceOf hchoice] at heq
        refine (List.nodup_append'.mp hnodup).2.2 (List.mem_map_of_mem hold) ?_
        rw [List.map_singleton, List.mem_singleton]
        exact heq.symm
    · obtain rfl := List.mem_singleton.mp hnew
      obtain ⟨content, hchoice, hsnapshot⟩ := hchooses.choiceOf_eq hformula
      rw [hchoice]
      exact ⟨content, lastChoice_append_singleton past _, hsnapshot⟩
  · rw [hrows] at hrow
    obtain ⟨old, hold, hrow⟩ := List.mem_map.mp hrow
    have hmem := ((board.orders.find?_eq_some_iff).mp hfind).1
    split_ifs at hrow with hsame
    · subst hrow
      rcases hchange with ⟨hchooses, hchoices⟩ | ⟨hchoices, hkeptId, hkeptSnapshot, -⟩
      · obtain ⟨content, hchoice, hsnapshot⟩ := hchooses.choiceOf_eq hformula
        rw [hchoices, hchoice]
        exact ⟨content, lastChoice_append_singleton past _, hsnapshot⟩
      · rw [hchoices, List.append_nil, hid, hkeptSnapshot]
        exact h order hmem formulaId (hkeptId.symm.trans hformula)
    · subst hrow
      rw [lastChoice_append_of_ne]
      · exact h old hold formulaId hformula
      · intro choice hchoice heq
        rcases hchange with ⟨-, hchoices⟩ | ⟨hchoices, -⟩
        · rw [hchoices] at hchoice
          exact hsame (heq.symm.trans ((orderId_of_mem_choiceOf hchoice).trans hid))
        · rw [hchoices] at hchoice
          cases hchoice

/-- A step that is no accepted update keeps the formulas of the orders, with their products. -/
theorem exists_formula_formulaStep {board : Board} {input : Call × FormulaOp}
    (hupdates : ∀ formulaId request, ¬ Updates board input formulaId request) {order : Order}
    (horder : order ∈ board.orders.rows) {formulaId : Id}
    (hformulaId : order.formulaId = some formulaId) {formula : Formula}
    (hfind : board.formulas.find? formulaId = some formula) :
    ∃ formula', (board.formulaStep input).formulas.find? formulaId = some formula' ∧
      formula'.productId = formula.productId := by
  rcases formulas_formulaStep hupdates with hgrows | ⟨deletedId, hfree, hafter⟩
  · exact ⟨formula, hgrows.find? hfind, rfl⟩
  · have hne : formulaId ≠ deletedId := fun heq ↦ hfree order horder (heq ▸ hformulaId)
    obtain ⟨hmem, hid⟩ := (board.formulas.find?_eq_some_iff).mp hfind
    refine ⟨freed deletedId formula, ?_, rfl⟩
    rw [hafter]
    refine Table.find?_of_mem _ (List.mem_filter.mpr ⟨List.mem_map_of_mem hmem, ?_⟩) hid
    rw [decide_eq_true_eq]
    exact fun heq ↦ hne (hid.symm.trans heq)

/-- A step that is no accepted update keeps orders and formulas compatible. -/
theorem compatible_formulaStep {board : Board} {input : Call × FormulaOp}
    (hupdates : ∀ formulaId request, ¬ Updates board input formulaId request)
    (h : Compatible board) : Compatible (board.formulaStep input) := by
  have hkept : ∀ order ∈ board.orders.rows, ∀ formulaId ∈ order.formulaId, formulaId ≠ "" ∧
      ∃ formula, (board.formulaStep input).formulas.find? formulaId = some formula ∧
        formula.productId = order.product.id := by
    intro order horder formulaId hformulaId
    obtain ⟨hne, formula, hfind, hproduct⟩ := h order horder formulaId hformulaId
    obtain ⟨formula', hfind', hproduct'⟩ :=
      exists_formula_formulaStep hupdates horder hformulaId hfind
    exact ⟨hne, formula', hfind', hproduct'.trans hproduct⟩
  have hchosen : ∀ order, (board.formulaStep input).Chooses order →
      ∀ formulaId ∈ order.formulaId, formulaId ≠ "" ∧
        ∃ formula, (board.formulaStep input).formulas.find? formulaId = some formula ∧
          formula.productId = order.product.id := by
    intro order hchooses formulaId hformulaId
    obtain ⟨hne, formula, hfind, hproduct, -⟩ := hchooses formulaId hformulaId
    exact ⟨hne, formula, hfind, hproduct⟩
  intro row hrow formulaId hformula
  rcases orders_formulaStep board input with
    ⟨horders, -⟩ | ⟨order, hrows, hchooses, -⟩ | ⟨order, changed, hfind, -, hrows, hchange⟩
  · rw [horders] at hrow
    exact hkept row hrow formulaId hformula
  · rw [hrows] at hrow
    rcases List.mem_append.mp hrow with hold | hnew
    · exact hkept row hold formulaId hformula
    · obtain rfl := List.mem_singleton.mp hnew
      exact hchosen row hchooses formulaId hformula
  · rw [hrows] at hrow
    obtain ⟨old, hold, hrow⟩ := List.mem_map.mp hrow
    have hmem := ((board.orders.find?_eq_some_iff).mp hfind).1
    split_ifs at hrow with hsame
    · subst hrow
      rcases hchange with ⟨hchooses, -⟩ | ⟨-, hkeptId, -, hproduct⟩
      · exact hchosen _ hchooses formulaId hformula
      · have hold' : order.formulaId = some formulaId := hkeptId.symm.trans hformula
        have hcompatible := hkept order hmem formulaId hold'
        rcases hproduct with hproduct | hproduct
        · rw [hproduct]
          exact hcompatible
        · exact ⟨hcompatible.1, hproduct formulaId hold' hcompatible.1⟩
    · subst hrow
      exact hkept old hold formulaId hformula

/-- A step keeps orders and formulas compatible exactly when it rebinds no formula. -/
theorem compatible_formulaStep_iff (board : Board) (input : Call × FormulaOp)
    (h : Compatible board) : Compatible (board.formulaStep input) ↔ ¬ Rebinds board input := by
  by_cases hupdates : ∃ formulaId request, Updates board input formulaId request
  · obtain ⟨updatedId, request, hupdate⟩ := hupdates
    have hfind : ∀ formulaId, (board.formulaStep input).formulas.find? formulaId =
        (board.formulas.find? formulaId).map
          (fun formula ↦ if formula.id = updatedId then request.replace formula else formula) := by
      intro formulaId
      rw [hupdate.formulaStep_eq]
      exact Table.find?_update _ _ request.replace request.key_replace _
    constructor
    · rintro hafter ⟨formulaId, request', hupdate', order, horder, hformulaId, hne⟩
      obtain ⟨rfl, rfl⟩ := FormulaOp.updateFormula.inj (hupdate.1.symm.trans hupdate'.1)
      have horder' : order ∈ (board.formulaStep input).orders.rows := by
        rw [hupdate.formulaStep_eq]
        exact horder
      obtain ⟨-, formula, hformula, hproduct⟩ := hafter order horder' updatedId hformulaId
      rw [hfind] at hformula
      obtain ⟨old, hold, rfl⟩ := Option.map_eq_some_iff.mp hformula
      have hid : old.id = updatedId := ((board.formulas.find?_eq_some_iff).mp hold).2
      rw [if_pos hid] at hproduct
      exact hne hproduct.symm
    · intro hrebinds order horder formulaId hformulaId
      rw [hupdate.formulaStep_eq] at horder
      obtain ⟨hne, formula, hformula, hproduct⟩ := h order horder formulaId hformulaId
      refine ⟨hne, _, by rw [hfind, hformula]; rfl, ?_⟩
      dsimp only
      split_ifs with hid
      · have hsame : formulaId = updatedId :=
          ((board.formulas.find?_eq_some_iff).mp hformula).2.symm.trans hid
        by_contra hother
        exact hrebinds ⟨updatedId, request, hupdate, order, horder, hsame ▸ hformulaId,
          fun heq ↦ hother heq.symm⟩
      · exact hproduct
  · simp only [not_exists] at hupdates
    refine iff_of_true (compatible_formulaStep hupdates h) ?_
    rintro ⟨formulaId, request, hupdate, -⟩
    exact hupdates formulaId request hupdate

/-- No order keeps the empty text as its formula. -/
def Named (board : Board) : Prop :=
  ∀ order ∈ board.orders.rows, ∀ formulaId ∈ order.formulaId, formulaId ≠ ""

theorem named_formulaStep (board : Board) (input : Call × FormulaOp) (h : Named board) :
    Named (board.formulaStep input) := by
  intro row hrow formulaId hformula
  rcases orders_formulaStep board input with
    ⟨horders, -⟩ | ⟨order, hrows, hchooses, -⟩ | ⟨order, changed, hfind, -, hrows, hchange⟩
  · rw [horders] at hrow
    exact h row hrow formulaId hformula
  · rw [hrows] at hrow
    rcases List.mem_append.mp hrow with hold | hnew
    · exact h row hold formulaId hformula
    · obtain rfl := List.mem_singleton.mp hnew
      exact (hchooses formulaId hformula).1
  · rw [hrows] at hrow
    obtain ⟨old, hold, hrow⟩ := List.mem_map.mp hrow
    split_ifs at hrow with hsame
    · subst hrow
      rcases hchange with ⟨hchooses, -⟩ | ⟨-, hkeptId, -⟩
      · exact (hchooses formulaId hformula).1
      · exact h order ((board.orders.find?_eq_some_iff).mp hfind).1 formulaId
          (hkeptId.symm.trans hformula)
    · subst hrow
      exact h old hold formulaId hformula

/-- The formula of every order exists and belongs to the product of the order, and the snapshot is
the content that it had when it was last chosen for the order. -/
def Matched (board : Board) (past : List Choice) : Prop :=
  ∀ order ∈ board.orders.rows, ∀ formulaId, order.formulaId = some formulaId →
    (∃ formula ∈ board.formulas.rows, formula.id = formulaId ∧
      formula.productId = order.product.id) ∧
    ∃ content, lastChoice past order.id = some ⟨order.id, formulaId, content⟩ ∧
      order.formulaSnapshot = some content

/-- In every run from a board without orders, each state matches orders and formulas exactly when no
step rebinds a formula. -/
theorem matched_run_iff {board : Board} (h : board.orders.rows = [])
    (inputs : List (Call × FormulaOp)) :
    (∀ reached, reached <+: inputs → Matched (System.run Board.formulaStep board reached)
      (System.outputs Board.formulaStep Board.choices board reached)) ↔
      System.Meets Board.formulaStep (fun board input ↦ ¬ Rebinds board input) board inputs := by
  have hnone : ∀ order, order ∉ board.orders.rows := fun order ↦ by simp [h]
  have hcompatible : Compatible board := fun order horder ↦ absurd horder (hnone order)
  rw [← System.prefix_invariant_iff compatible_formulaStep_iff inputs hcompatible]
  refine forall₂_congr fun reached _ ↦ ?_
  have hnamed : Named (System.run Board.formulaStep board reached) :=
    System.invariant_run_all named_formulaStep reached board
      fun order horder ↦ absurd horder (hnone order)
  have hrecorded : Recorded (System.run Board.formulaStep board reached)
      (System.outputs Board.formulaStep Board.choices board reached) := by
    have hhistory := System.history_run recorded_formulaStep reached board []
      fun order horder ↦ absurd horder (hnone order)
    rwa [List.nil_append] at hhistory
  generalize System.run Board.formulaStep board reached = last at hnamed hrecorded ⊢
  constructor
  · intro hmatched order horder formulaId hformulaId
    obtain ⟨⟨formula, hmem, hid, hproduct⟩, -⟩ := hmatched order horder formulaId hformulaId
    exact ⟨hnamed order horder formulaId hformulaId, formula, last.formulas.find?_of_mem hmem hid,
      hproduct⟩
  · intro hafter order horder formulaId hformulaId
    obtain ⟨-, formula, hfind, hproduct⟩ := hafter order horder formulaId hformulaId
    obtain ⟨hmem, hid⟩ := (last.formulas.find?_eq_some_iff).mp hfind
    exact ⟨⟨formula, hmem, hid, hproduct⟩, hrecorded order horder formulaId hformulaId⟩

/-- An order is entered with a formula, which then moves to another product. -/
def rebindingRun : List (Call × FormulaOp) :=
  [.createFormula (sampleFormula "product" none),
    .createOrderRecord ⟨"customer", "product", Dict.ofList [("宽幅", "500mm"), ("厚度", "20μm")], 10,
      "m", some "f", none⟩,
    .updateFormula "f" (sampleFormula "other" none)].map
      (fun op ↦ (⟨0, "20260101", IdSource.longer⟩, op))

theorem matched_rebindingRun_iff :
    masterBoard.orders.rows = [] ∧
    ((∀ reached, reached <+: rebindingRun →
      Matched (System.run Board.formulaStep masterBoard reached)
        (System.outputs Board.formulaStep Board.choices masterBoard reached)) ↔
      System.Meets Board.formulaStep (fun board input ↦ ¬ Rebinds board input) masterBoard
        rebindingRun) :=
  ⟨rfl, matched_run_iff rfl rebindingRun⟩

theorem not_matched_rebindingRun :
    masterBoard.orders.rows = [] ∧
    ¬ Matched (System.run Board.formulaStep masterBoard rebindingRun)
      (System.outputs Board.formulaStep Board.choices masterBoard rebindingRun) := by
  have hmoved : ∃ order ∈ (System.run Board.formulaStep masterBoard rebindingRun).orders.rows,
      order.formulaId = some "f" ∧
        ∀ formula ∈ (System.run Board.formulaStep masterBoard rebindingRun).formulas.rows,
          formula.productId ≠ order.product.id := by
    decide +kernel
  refine ⟨rfl, fun h ↦ ?_⟩
  obtain ⟨order, horder, hformula, hmoved⟩ := hmoved
  obtain ⟨⟨formula, hmem, -, hproduct⟩, -⟩ := h order horder "f" hformula
  exact hmoved formula hmem hproduct

end FilmOS
