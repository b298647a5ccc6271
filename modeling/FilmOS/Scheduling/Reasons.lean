import FilmOS.Scheduling.Acceptance

/-!
# The reasons of unassigned orders

Every order that the planner leaves behind gets a reason. `buildTasks_rows` says what is known of
such an order, for any orders and machines, also when identifiers repeat: its row was made with the
machines of the call, and no active machine that supports it has a range that its width is in.

`Truthful` says what the reasons state. The first four are always true. The last one, that the width
does not reach the minimum of any matching machine, is the answer to everything else, and is wrong
for a width that lies above the range of one matching machine and below that of another
(`Straddles`): `reason_truthful_iff` says that a row is truthful exactly when its order does not
straddle, and `not_truthful_gap` is such an order.
-/

set_option autoImplicit false
set_option relaxedAutoImplicit false

namespace FilmOS.Scheduling

open Production PythonText Numeral Transaction

/-! ### Orders that are left behind -/

/-- The row of an order that the planner leaves behind. -/
structure LeftOver (machines : List Machine) (order : Order) (row : UnassignedOrder) : Prop where
  row_eq : ∃ states : List MachineState, states.map MachineState.machine = machines ∧
    row = unassignedRow states (orderProfile order)
  outside : ∀ width, (orderProfile order).width = some width → ∀ machine ∈ machines,
    machine.isActive → Supports machine (productionSignature order) →
      width < machine.minWidth ∨ machine.maxWidth < width

/-- What a row says, for any profile. -/
theorem unassignedRow_fields (states : List MachineState) (info : OrderProductionProfile) :
    (unassignedRow states info).orderId = info.order.id ∧
      (unassignedRow states info).orderNo = info.order.orderNo ∧
        (unassignedRow states info).reason = unassignedReason states info :=
  ⟨rfl, rfl, rfl⟩

/-- When no machine has a candidate, the width of a remaining order is in no range. -/
theorem leftOver_of_no_candidate {machines : List Machine} {basis : LoadBasis}
    {states : List MachineState} (htracks : Tracks machines basis states)
    {signature : ProductionSignature} {remaining : List SizedOrder}
    (hnone : ∀ state ∈ states, MachineCompatible state signature →
      (selectBatch remaining state).batch = [])
    {sized : SizedOrder} (hsized : sized ∈ remaining)
    (hsignature : sized.info.signature = signature) :
    LeftOver machines sized.order (unassignedRow states sized.info) where
  row_eq := ⟨states, htracks.machines_eq, rfl⟩
  outside width hwidth machine hmachine hactive hsupports := by
    obtain rfl : width = sized.width := Option.some.inj (hwidth.symm.trans sized.width_eq)
    rw [← htracks.machines_eq] at hmachine
    obtain ⟨state, hstate, rfl⟩ := List.mem_map.mp hmachine
    by_contra hinside
    obtain ⟨hmin, hmax⟩ := not_or.mp hinside
    refine batch_selectBatch_ne_nil hsized (not_lt.mp hmin) (not_lt.mp hmax)
      (hnone state hstate ((machineCompatible_iff state signature).mpr ⟨hactive, ?_⟩))
    rw [← hsignature]
    exact hsupports

/-- The rows that the planner makes up are of orders left behind. -/
theorem accounting_leftOver (machines : List Machine) (basis : LoadBasis) :
    Accounting machines basis
      (fun signature remaining ↦ ∀ sized ∈ remaining, sized.info.signature = signature)
      (fun sized _ rows ↦ ∀ row ∈ rows, ∃ member ∈ sized, LeftOver machines member.order row) where
  sublist h hsub sized hsized := h sized (hsub.subset hsized)
  signature_eq h := h
  nil row hrow := absurd hrow List.not_mem_nil
  append h h' row hrow := by
    rcases List.mem_append.mp hrow with hrow | hrow
    · obtain ⟨member, hmember, hleft⟩ := h row hrow
      exact ⟨member, List.mem_append_left _ hmember, hleft⟩
    · obtain ⟨member, hmember, hleft⟩ := h' row hrow
      exact ⟨member, List.mem_append_right _ hmember, hleft⟩
  giveUp hsignature htracks hnone := by
    rw [List.forall_mem_map]
    exact fun sized hsized ↦ ⟨sized, hsized,
      leftOver_of_no_candidate htracks hnone hsized (hsignature sized hsized)⟩
  assign _ _ _ h row hrow := by
    obtain ⟨member, hmember, hleft⟩ := h row hrow
    exact ⟨member, List.filter_sublist.subset hmember, hleft⟩

/-- The planner returns, whatever the orders and the machines, and its unassigned rows are of orders
left behind. -/
theorem buildTasks_rows (orders : List Order) (machines : List LoadedMachine) :
    ∃ proposal, buildTasks orders machines = .ok proposal ∧
      ∀ row ∈ proposal.unassigned, ∃ order ∈ orders,
        LeftOver (machines.map LoadedMachine.machine) order row := by
  obtain ⟨tasks, rows, hbuild, hleft⟩ :=
    (accounting_leftOver _ (loadBasis orders machines)).buildTasks
      fun group hgroup member hmember ↦ congrArg GroupKey.signature
        (Batching.key_of_mem_groupBy hgroup hmember)
  refine ⟨_, hbuild, fun row hrow ↦ ?_⟩
  rcases List.mem_append.mp hrow with hrow | hrow
  · obtain ⟨info, hinfo, rfl⟩ := List.mem_map.mp hrow
    obtain ⟨hinfo, hnone⟩ := List.mem_filter.mp hinfo
    obtain ⟨order, horder, rfl⟩ := List.mem_map.mp hinfo
    refine ⟨order, horder, ⟨_, (tracks_machineState orders machines).machines_eq, rfl⟩,
      fun width hwidth ↦ ?_⟩
    rw [hwidth] at hnone
    cases hnone
  · obtain ⟨member, hmember, hrow⟩ := hleft row hrow
    exact ⟨member.order, mem_orders_of_mem_sized (mem_sized_iff.mp hmember), hrow⟩

/-! ### The texts -/

def missingWidthReason : String := "订单缺少可识别的宽度"

def noCategoryReason (categoryName : String) : String := s!"没有启用且支持“{categoryName}”的机器"

def noPatternReason (pattern : String) : String := s!"没有机器具备“{pattern}”花纹能力"

def tooWideReason (width maxWidth : ℚ) : String :=
  s!"订单宽度 {formatG width}mm 超过可用机器最大宽度 {formatG maxWidth}mm"

def belowMinimumReason : String := "订单宽度未达到任何匹配机器的最小生产宽度，且无法与同签名订单合并"

/-- The beginning of a text, by which the reasons are told apart. -/
def beginning (text : String) : List Char := text.toList.take 5

theorem beginning_append {text : String} (h : 5 ≤ text.toList.length) (rest : String) :
    beginning (text ++ rest) = beginning text := by
  unfold beginning
  rw [String.toList_append, List.take_append_of_le_length h]

theorem beginning_missingWidth : beginning missingWidthReason = ['订', '单', '缺', '少', '可'] := by
  decide

theorem beginning_noCategory (categoryName : String) :
    beginning (noCategoryReason categoryName) = ['没', '有', '启', '用', '且'] := by
  change beginning ("没有启用且支持“" ++ categoryName ++ "”的机器") = _
  rw [String.append_assoc, beginning_append (by decide)]
  decide

theorem beginning_noPattern (pattern : String) :
    beginning (noPatternReason pattern) = ['没', '有', '机', '器', '具'] := by
  change beginning ("没有机器具备“" ++ pattern ++ "”花纹能力") = _
  rw [String.append_assoc, beginning_append (by decide)]
  decide

theorem beginning_tooWide (width maxWidth : ℚ) :
    beginning (tooWideReason width maxWidth) = ['订', '单', '宽', '度', ' '] := by
  change beginning ("订单宽度 " ++ formatG width ++ "mm 超过可用机器最大宽度 " ++ formatG maxWidth ++ "mm")
    = _
  rw [String.append_assoc, String.append_assoc, String.append_assoc, beginning_append (by decide)]
  decide

theorem beginning_belowMinimum : beginning belowMinimumReason = ['订', '单', '宽', '度', '未'] := by
  decide

/-- Texts with different beginnings are different. -/
theorem ne_of_beginning {text text' : String} {start start' : List Char}
    (h : beginning text = start) (h' : beginning text' = start') (hne : start ≠ start') :
    text ≠ text' := by
  rintro rfl
  exact hne (h.symm.trans h')

/-! ### What the reasons state -/

/-- The reason of an order is true of the machines. -/
structure Truthful (machines : List Machine) (order : Order) (reason : String) : Prop where
  missingWidth : reason = missingWidthReason → (orderProfile order).width = none
  noCategory : (orderProfile order).width ≠ none →
    reason = noCategoryReason (productionSignature order).categoryName →
      ∀ machine ∈ machines, (productionSignature order).categoryId ∉ machine.categoryLinks
  noPattern : (orderProfile order).width ≠ none →
    reason = noPatternReason (productionSignature order).pattern →
      ∀ machine ∈ machines, (productionSignature order).categoryId ∈ machine.categoryLinks →
        casefold (productionSignature order).pattern ∉ patternNames machine
  tooWide : ∀ width, (orderProfile order).width = some width →
    (∃ maxWidth, reason = tooWideReason width maxWidth) →
      ∀ machine ∈ machines, Supports machine (productionSignature order) →
        machine.maxWidth < width
  belowMinimum : ∀ width, (orderProfile order).width = some width → reason = belowMinimumReason →
    ∀ machine ∈ machines, Supports machine (productionSignature order) → width < machine.minWidth

/-- The width of an order lies above the range of one machine that supports it and not above that of
another. -/
def Straddles (machines : List Machine) (order : Order) : Prop :=
  ∃ width, (orderProfile order).width = some width ∧
    (∃ machine ∈ machines, Supports machine (productionSignature order) ∧
      machine.minWidth ≤ width ∧ machine.maxWidth < width) ∧
    ∃ machine ∈ machines, Supports machine (productionSignature order) ∧ width ≤ machine.maxWidth

/-- How the reason of an order with a width comes about. -/
theorem unassignedReason_cases (states : List MachineState) (order : Order) {width : ℚ}
    (hwidth : (orderProfile order).width = some width) :
    let machines := states.map MachineState.machine
    let signature := productionSignature order
    let reason := unassignedReason states (orderProfile order)
    (reason = noCategoryReason signature.categoryName ∧
      ∀ machine ∈ machines, signature.categoryId ∉ machine.categoryLinks) ∨
    (reason = noPatternReason signature.pattern ∧
      ∀ machine ∈ machines, ¬ Supports machine signature) ∨
    (∃ maxWidth, reason = tooWideReason width maxWidth ∧
      ∀ machine ∈ machines, Supports machine signature → machine.maxWidth < width) ∨
    (reason = belowMinimumReason ∧
      ∃ machine ∈ machines, Supports machine signature ∧ width ≤ machine.maxWidth) := by
  intro machines signature reason
  set categoryStates := states.filter (fun state ↦ signature.categoryId ∈ state.categoryIds)
    with hcategoryStates
  set compatibleStates := if signature.pattern = "" then categoryStates
    else categoryStates.filter (fun state ↦ casefold signature.pattern ∈ state.patternNames)
    with hcompatibleStates
  have hcompatible : ∀ state, state ∈ compatibleStates ↔
      state ∈ states ∧ Supports state.machine signature := by
    intro state
    rw [hcompatibleStates, hcategoryStates]
    unfold Supports MachineState.categoryIds MachineState.patternNames
    by_cases hpattern : signature.pattern = ""
    · simp [hpattern]
    · simp only [hpattern, if_false, List.mem_filter, decide_eq_true_eq, ne_eq, not_false_eq_true,
        true_implies, and_assoc]
  have hnoCategory : categoryStates = [] → reason = noCategoryReason signature.categoryName := by
    intro hnone
    change unassignedReason states (orderProfile order) = _
    unfold unassignedReason
    rw [hwidth]
    exact if_pos hnone
  have hnoPattern : categoryStates ≠ [] → compatibleStates.map (·.machine.maxWidth) = [] →
      reason = noPatternReason signature.pattern := by
    intro hsome hwidths
    change unassignedReason states (orderProfile order) = _
    unfold unassignedReason
    rw [hwidth]
    refine (if_neg hsome).trans ?_
    dsimp only
    split
    · rfl
    · next first rest hcons => exact absurd (hwidths.symm.trans hcons) (List.cons_ne_nil _ _).symm
  have hwidest : ∀ first rest, categoryStates ≠ [] →
      compatibleStates.map (·.machine.maxWidth) = first :: rest →
      reason = if rest.foldl max first < width then tooWideReason width (rest.foldl max first)
        else belowMinimumReason := by
    intro first rest hsome hwidths
    change unassignedReason states (orderProfile order) = _
    unfold unassignedReason
    rw [hwidth]
    refine (if_neg hsome).trans ?_
    dsimp only
    split
    · next hnil => exact absurd (hwidths.symm.trans hnil) (List.cons_ne_nil _ _)
    · next first' rest' hcons =>
      obtain ⟨rfl, rfl⟩ := List.cons.inj (hwidths.symm.trans hcons)
      rfl
  by_cases hnone : categoryStates = []
  · refine .inl ⟨hnoCategory hnone, List.forall_mem_map.mpr fun state hstate hcategory ↦ ?_⟩
    have hmem : state ∈ categoryStates :=
      List.mem_filter.mpr ⟨hstate, decide_eq_true hcategory⟩
    rw [hnone] at hmem
    cases hmem
  · refine .inr ?_
    cases hwidths : compatibleStates.map (·.machine.maxWidth) with
    | nil =>
      refine .inl ⟨hnoPattern hnone hwidths,
        List.forall_mem_map.mpr fun state hstate hsupports ↦ ?_⟩
      have hmem := (hcompatible state).mpr ⟨hstate, hsupports⟩
      rw [List.map_eq_nil_iff.mp hwidths] at hmem
      cases hmem
    | cons first rest =>
      have hreason := hwidest first rest hnone hwidths
      obtain ⟨hattained, hgreatest⟩ := List.max?_eq_some_iff.mp
        (List.max?_cons' : (first :: rest).max? = some (rest.foldl max first))
      have hmax : ∀ state ∈ compatibleStates, state.machine.maxWidth ≤ rest.foldl max first := by
        intro state hstate
        exact hgreatest _ (hwidths ▸ List.mem_map_of_mem hstate)
      refine .inr ?_
      by_cases hwide : rest.foldl max first < width
      · refine .inl ⟨_, hreason.trans (if_pos hwide), List.forall_mem_map.mpr ?_⟩
        intro state hstate hsupports
        exact (hmax state ((hcompatible state).mpr ⟨hstate, hsupports⟩)).trans_lt hwide
      · refine .inr ⟨hreason.trans (if_neg hwide), ?_⟩
        rw [← hwidths] at hattained
        obtain ⟨state, hstate, heq⟩ := List.mem_map.mp hattained
        obtain ⟨hmem, hsupports⟩ := (hcompatible state).mp hstate
        exact ⟨state.machine, List.mem_map_of_mem hmem, hsupports, heq ▸ not_lt.mp hwide⟩

variable {machines : List Machine} {order : Order}

/-- The reason of an order without a width is true. -/
theorem truthful_missingWidth (hwidth : (orderProfile order).width = none) :
    Truthful machines order missingWidthReason where
  missingWidth _ := hwidth
  noCategory hne := absurd hwidth hne
  noPattern hne := absurd hwidth hne
  tooWide width hsome := absurd (hsome.symm.trans hwidth) (Option.some_ne_none width)
  belowMinimum width hsome := absurd (hsome.symm.trans hwidth) (Option.some_ne_none width)

/-- The reason of an order whose category no machine supports is true. -/
theorem truthful_noCategory
    (hnone : ∀ machine ∈ machines, (productionSignature order).categoryId ∉ machine.categoryLinks) :
    Truthful machines order (noCategoryReason (productionSignature order).categoryName) where
  missingWidth heq := absurd heq
    (ne_of_beginning (beginning_noCategory _) beginning_missingWidth (by decide))
  noCategory _ _ := hnone
  noPattern _ heq := absurd heq
    (ne_of_beginning (beginning_noCategory _) (beginning_noPattern _) (by decide))
  tooWide _ _ := fun ⟨_, heq⟩ ↦ absurd heq
    (ne_of_beginning (beginning_noCategory _) (beginning_tooWide _ _) (by decide))
  belowMinimum _ _ heq := absurd heq
    (ne_of_beginning (beginning_noCategory _) beginning_belowMinimum (by decide))

/-- The reason of an order whose pattern no machine of its category has is true. -/
theorem truthful_noPattern
    (hnone : ∀ machine ∈ machines, ¬ Supports machine (productionSignature order)) :
    Truthful machines order (noPatternReason (productionSignature order).pattern) where
  missingWidth heq := absurd heq
    (ne_of_beginning (beginning_noPattern _) beginning_missingWidth (by decide))
  noCategory _ heq := absurd heq
    (ne_of_beginning (beginning_noPattern _) (beginning_noCategory _) (by decide))
  noPattern _ _ machine hmachine hcategory hpattern :=
    hnone machine hmachine ⟨hcategory, fun _ ↦ hpattern⟩
  tooWide _ _ := fun ⟨_, heq⟩ ↦ absurd heq
    (ne_of_beginning (beginning_noPattern _) (beginning_tooWide _ _) (by decide))
  belowMinimum _ _ heq := absurd heq
    (ne_of_beginning (beginning_noPattern _) beginning_belowMinimum (by decide))

/-- The reason of an order that is wider than every machine that supports it is true. -/
theorem truthful_tooWide {width maxWidth : ℚ} (hwidth : (orderProfile order).width = some width)
    (hwide : ∀ machine ∈ machines, Supports machine (productionSignature order) →
      machine.maxWidth < width) :
    Truthful machines order (tooWideReason width maxWidth) where
  missingWidth heq := absurd heq
    (ne_of_beginning (beginning_tooWide _ _) beginning_missingWidth (by decide))
  noCategory _ heq := absurd heq
    (ne_of_beginning (beginning_tooWide _ _) (beginning_noCategory _) (by decide))
  noPattern _ heq := absurd heq
    (ne_of_beginning (beginning_tooWide _ _) (beginning_noPattern _) (by decide))
  tooWide other hother _ := by
    rw [Option.some.inj (hother.symm.trans hwidth)]
    exact hwide
  belowMinimum _ _ heq := absurd heq
    (ne_of_beginning (beginning_tooWide _ _) beginning_belowMinimum (by decide))

/-- The last reason is true exactly when the width is below the minimum of every machine that
supports the order. -/
theorem truthful_belowMinimum_iff {width : ℚ} (hwidth : (orderProfile order).width = some width) :
    Truthful machines order belowMinimumReason ↔
      ∀ machine ∈ machines, Supports machine (productionSignature order) →
        width < machine.minWidth := by
  constructor
  · exact fun h ↦ h.belowMinimum width hwidth rfl
  · intro hbelow
    refine ⟨?_, ?_, ?_, ?_, ?_⟩
    · exact fun heq ↦ absurd heq
        (ne_of_beginning beginning_belowMinimum beginning_missingWidth (by decide))
    · exact fun _ heq ↦ absurd heq
        (ne_of_beginning beginning_belowMinimum (beginning_noCategory _) (by decide))
    · exact fun _ heq ↦ absurd heq
        (ne_of_beginning beginning_belowMinimum (beginning_noPattern _) (by decide))
    · rintro other - ⟨maxWidth, heq⟩
      exact absurd heq
        (ne_of_beginning beginning_belowMinimum (beginning_tooWide _ _) (by decide))
    · intro other hother _
      rw [Option.some.inj (hother.symm.trans hwidth)]
      exact hbelow

/-- The row of an order that is left behind is truthful exactly when its order does not straddle. -/
theorem LeftOver.truthful_iff {row : UnassignedOrder} (h : LeftOver machines order row)
    (hactive : ∀ machine ∈ machines, machine.isActive) :
    Truthful machines order row.reason ↔ ¬ Straddles machines order := by
  obtain ⟨⟨states, hstates, hrow⟩, houtside⟩ := h
  rw [hrow, (unassignedRow_fields states (orderProfile order)).2.2]
  subst hstates
  cases hwidth : (orderProfile order).width with
  | none =>
    have hreason : unassignedReason states (orderProfile order) = missingWidthReason := by
      unfold unassignedReason
      rw [hwidth]
      rfl
    rw [hreason]
    refine iff_of_true (truthful_missingWidth hwidth) ?_
    rintro ⟨width, hsome, -⟩
    exact absurd (hsome.symm.trans hwidth) (Option.some_ne_none width)
  | some width =>
    have hself : ∀ other, (orderProfile order).width = some other → other = width :=
      fun other hother ↦ Option.some.inj (hother.symm.trans hwidth)
    rcases unassignedReason_cases states order hwidth with ⟨hreason, hnone⟩ | ⟨hreason, hnone⟩ |
      ⟨maxWidth, hreason, hwide⟩ | ⟨hreason, fitting, hfitting, hsupported, hle⟩
    · rw [hreason]
      refine iff_of_true (truthful_noCategory hnone) ?_
      rintro ⟨-, -, -, machine, hmachine, hsupports, -⟩
      exact hnone machine hmachine hsupports.1
    · rw [hreason]
      refine iff_of_true (truthful_noPattern hnone) ?_
      rintro ⟨-, -, -, machine, hmachine, hsupports, -⟩
      exact hnone machine hmachine hsupports
    · rw [hreason]
      refine iff_of_true (truthful_tooWide hwidth hwide) ?_
      rintro ⟨other, hother, -, machine, hmachine, hsupports, hle⟩
      rw [hself other hother] at hle
      exact (hwide machine hmachine hsupports).not_ge hle
    · rw [hreason, truthful_belowMinimum_iff hwidth]
      constructor
      · rintro hbelow ⟨other, hother, ⟨machine, hmachine, hsupports, hmin, -⟩, -⟩
        rw [hself other hother] at hmin
        exact (hbelow machine hmachine hsupports).not_ge hmin
      · intro hstraddles machine hmachine hsupports
        rcases houtside width hwidth machine hmachine (hactive machine hmachine) hsupports with
          hbelow | habove
        · exact hbelow
        · by_contra hmin
          exact hstraddles ⟨width, hwidth, ⟨machine, hmachine, hsupports, not_lt.mp hmin, habove⟩,
            fitting, hfitting, hsupported, hle⟩

/-- A row of a proposal on active machines is of one of the orders, and its reason is true exactly
when the width of this order does not lie above the range of one machine that supports it and not
above that of another. -/
theorem reason_truthful_iff (orders : List Order) (machines : List LoadedMachine)
    (hactive : ∀ machine ∈ machines, machine.machine.isActive) :
    ∃ proposal, buildTasks orders machines = .ok proposal ∧
      ∀ row ∈ proposal.unassigned, ∃ order ∈ orders,
        row.orderId = order.id ∧ row.orderNo = order.orderNo ∧
          (Truthful (machines.map LoadedMachine.machine) order row.reason ↔
            ¬ Straddles (machines.map LoadedMachine.machine) order) := by
  obtain ⟨proposal, hproposal, hrows⟩ := buildTasks_rows orders machines
  refine ⟨proposal, hproposal, fun row hrow ↦ ?_⟩
  obtain ⟨order, horder, hleft⟩ := hrows row hrow
  obtain ⟨states, -, hmade⟩ := hleft.row_eq
  obtain ⟨hid, hno, -⟩ := unassignedRow_fields states (orderProfile order)
  refine ⟨order, horder, ?_, ?_, hleft.truthful_iff (List.forall_mem_map.mpr hactive)⟩
  · rw [hmade, hid, order_orderProfile]
  · rw [hmade, hno, order_orderProfile]

/-! ### A width between two ranges -/

/-- Two machines for films, up to 200 mm and from 600 mm on. -/
def gapMachines : List LoadedMachine :=
  [⟨⟨"narrow", "narrow", true, 100, 200, ["film"], []⟩, []⟩,
    ⟨⟨"wide", "wide", true, 600, 1000, ["film"], []⟩, []⟩]

/-- A film of 500 mm is said to be below the minimum width of the machine that starts at 100 mm. -/
theorem not_truthful_gap : ∃ proposal, buildTasks [sampleOrder "a"] gapMachines = .ok proposal ∧
    ∃ row ∈ proposal.unassigned, row.orderId = "a" ∧
      ¬ Truthful (gapMachines.map LoadedMachine.machine) (sampleOrder "a") row.reason := by
  have hresult : (match buildTasks [sampleOrder "a"] gapMachines with
    | .ok proposal => decide (proposal.unassigned =
        [⟨"a", (sampleOrder "a").orderNo, belowMinimumReason⟩])
    | .error _ => false) = true := by
    decide +kernel
  have hwidth : (orderProfile (sampleOrder "a")).width = some 500 := by decide +kernel
  cases hproposal : buildTasks [sampleOrder "a"] gapMachines with
  | error failure =>
    rw [hproposal] at hresult
    cases hresult
  | ok proposal =>
    rw [hproposal] at hresult
    refine ⟨proposal, rfl, ⟨"a", (sampleOrder "a").orderNo, belowMinimumReason⟩, ?_, rfl, ?_⟩
    · rw [of_decide_eq_true hresult]
      exact List.mem_cons_self
    · intro htruthful
      have hbelow := (truthful_belowMinimum_iff hwidth).mp htruthful
        ⟨"narrow", "narrow", true, 100, 200, ["film"], []⟩ List.mem_cons_self
        ⟨by decide +kernel, fun hpattern ↦ absurd (by decide +kernel) hpattern⟩
      exact absurd hbelow (by decide +kernel)

theorem reason_truthful_iff_gap :
    ∃ proposal, buildTasks [sampleOrder "a"] gapMachines = .ok proposal ∧
      ∀ row ∈ proposal.unassigned, ∃ order ∈ [sampleOrder "a"],
        row.orderId = order.id ∧ row.orderNo = order.orderNo ∧
          (Truthful (gapMachines.map LoadedMachine.machine) order row.reason ↔
            ¬ Straddles (gapMachines.map LoadedMachine.machine) order) :=
  reason_truthful_iff [sampleOrder "a"] gapMachines (by decide)

end FilmOS.Scheduling
