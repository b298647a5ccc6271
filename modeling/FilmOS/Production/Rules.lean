import FilmOS.Orders.Specification
import Mathlib.Algebra.BigOperators.Group.List.Basic
import Mathlib.Data.String.Basic

/-!
# Production compatibility rules

The rules shared by the manual board and the planner. `orderProfile` reads off an order what
production depends on: its width in millimetres, when one can be recognised, and its signature.
`validateMachineBatch` decides whether one machine may produce a list of orders as one task, and
returns their combined width.

`Producible` says the same without messages or evaluation order, and
`validateMachineBatch_eq_ok_iff` is the specification the callers use: validation succeeds with a
width exactly when the batch is producible with that width. `producible_singleton_iff` is the case
of one order, where nothing has to be merged.
-/

set_option autoImplicit false
set_option relaxedAutoImplicit false

namespace FilmOS.Production

open PythonText Numeral Transaction

/-! ### Reading an order -/

def widthKeys : List String := ["宽度", "width", "幅宽", "宽幅"]

def thicknessKeys : List String := ["厚度", "thickness", "厚"]

def patternKeys : List String := ["花纹", "pattern", "纹路"]

/-- `normalized_key`. -/
def normalizedKey (value : String) : String := removeChar ' ' (casefold (strip value))

/-- `spec_value`: the first entry whose key is one of the aliases. -/
def specValue (specParams : Dict String) (aliases : List String) : String :=
  let normalizedAliases := aliases.map normalizedKey
  match specParams.rows.find? (fun entry ↦ normalizedKey entry.1 ∈ normalizedAliases) with
  | some (_, value) => strip value
  | none => ""

/-- The leftmost match of `[-+]?\d+(?:\.\d+)?`: whether its sign is a minus, and its numeral. -/
def searchNumber : List Char → Option (Bool × Decimal)
  | [] => none
  | c :: rest =>
    if c = '-' ∨ c = '+' then
      match scanNumeral rest with
      | some (number, _) => some (c = '-', number)
      | none => searchNumber rest
    else
      match scanNumeral (c :: rest) with
      | some (number, _) => some (false, number)
      | none => searchNumber rest

/-- `positive_number`. -/
def positiveNumber (value : String) : Option ℚ :=
  match searchNumber (removeChar ',' value).toList with
  | none => none
  | some (negative, number) =>
    let parsed := if negative then -number.value else number.value
    if 0 < parsed then some parsed else none

structure ProductionSignature where
  material : Option String
  categoryId : Id
  categoryName : String
  thickness : Option String
  pattern : String

-- a derived instance casts along the equality of the fields, which does not evaluate
instance : DecidableEq ProductionSignature := fun left right ↦
  decidable_of_iff
    (left.material = right.material ∧ left.categoryId = right.categoryId ∧
      left.categoryName = right.categoryName ∧ left.thickness = right.thickness ∧
      left.pattern = right.pattern)
    (by cases left; cases right; simp)

/-- Material and thickness are known, so the order may share a task with others. -/
def ProductionSignature.CompleteForMerge (signature : ProductionSignature) : Prop :=
  (truthy signature.material).isSome ∧ (truthy signature.thickness).isSome

instance (signature : ProductionSignature) : Decidable signature.CompleteForMerge :=
  inferInstanceAs (Decidable (_ ∧ _))

structure OrderProductionProfile where
  order : Order
  width : Option ℚ
  signature : ProductionSignature
deriving DecidableEq

/-- The material of an order: its formula, else the materials of its formula snapshot. -/
def rawMaterial (order : Order) : String :=
  strip <| ((truthy order.formulaId).or
    (truthy (order.formulaSnapshot.map FormulaSnapshot.materials))).getD ""

/-- The thickness of an order in the canonical unit, or as it is written where the unit is not
recognised. -/
def rawThickness (order : Order) : String :=
  let raw := specValue order.specParams thicknessKeys
  if raw = "" then ""
  else
    match Specification.validateSpecification (Dict.ofList [("宽幅", "1mm"), ("厚度", raw)]) with
    | .ok result => (result.get? "厚度").getD ""
    | .error _ => raw

/-- `production_signature`. -/
def productionSignature (order : Order) : ProductionSignature where
  material := truthy (some (rawMaterial order))
  categoryId := order.product.category.id
  categoryName := order.product.category.name
  thickness := truthy (some (rawThickness order))
  pattern := specValue order.specParams patternKeys

/-- `order_profile`. -/
def orderProfile (order : Order) : OrderProductionProfile :=
  let raw := specValue order.specParams widthKeys
  let width := positiveNumber raw
  { order := order
    width := if endsWith (lower raw) "cm" then width.map (· * 10) else width
    signature := productionSignature order }

/-- What `same_signature` compares: everything but the name of the category, the pattern up to
case. -/
def ProductionSignature.mergeKey (signature : ProductionSignature) :
    Option String × Id × Option String × String :=
  (signature.material, signature.categoryId, signature.thickness, casefold signature.pattern)

/-- `same_signature`. -/
def SameSignature (left right : ProductionSignature) : Prop := left.mergeKey = right.mergeKey

instance (left right : ProductionSignature) : Decidable (SameSignature left right) :=
  inferInstanceAs (Decidable (_ = _))

theorem pos_of_positiveNumber {value : String} {x : ℚ} (h : positiveNumber value = some x) :
    0 < x := by
  unfold positiveNumber at h
  split at h
  · cases h
  · simp only [Option.ite_none_right_eq_some, Option.some.injEq] at h
    exact h.2 ▸ h.1

/-- A width that an order's profile gives is positive. -/
theorem width_pos {order : Order} {x : ℚ} (h : (orderProfile order).width = some x) : 0 < x := by
  unfold orderProfile at h
  dsimp only at h
  split_ifs at h
  · obtain ⟨y, hy, rfl⟩ := Option.map_eq_some_iff.mp h
    have hpos := pos_of_positiveNumber hy
    positivity
  · exact pos_of_positiveNumber h

@[simp] theorem order_orderProfile (order : Order) : (orderProfile order).order = order := rfl

@[simp] theorem signature_orderProfile (order : Order) :
    (orderProfile order).signature = productionSignature order := rfl

/-! ### What a machine can produce -/

/-- The patterns a machine can produce, as the rules compare them. -/
def patternNames (machine : Machine) : List String :=
  machine.patternLinks.map (fun pattern ↦ casefold (strip pattern.name))

/-- The machine supports the category and the pattern of a signature. -/
def Supports (machine : Machine) (signature : ProductionSignature) : Prop :=
  signature.categoryId ∈ machine.categoryLinks ∧
    (signature.pattern ≠ "" → casefold signature.pattern ∈ patternNames machine)

/-- Distinct names in the order of Python's `sorted`, joined for a message. -/
def sortedNames (names : List String) : String := join "、" (orderBy id names.dedup)

/-- The combined width of orders, those without a recognisable width counting zero. -/
def totalWidth (orders : List Order) : ℚ :=
  (orders.map (fun order ↦ (orderProfile order).width.getD 0)).sum

/-- The checks on merging several orders: each signature complete, and all the same. -/
def validateMerge (profiles : List OrderProductionProfile) : Except Failure Unit :=
  match profiles with
  | [] => .ok ()
  | [_] => .ok ()
  | first :: rest =>
    match profiles.find? (fun profile ↦ ¬ profile.signature.CompleteForMerge) with
    | some profile =>
      .error (.http 409 s!"订单 {profile.order.orderNo} 缺少配方/材料或厚度，不能与其他订单合并生产")
    | none =>
      ensure (∀ profile ∈ rest, SameSignature first.signature profile.signature)
        (.http 409 "合并订单的配方/材料、产品大类、厚度或花纹不一致")

/-- `validate_machine_batch`. -/
def validateMachineBatch (machine : Machine) (orders : List Order) : Except Failure ℚ := do
  ensure machine.isActive (.http 409 s!"机器“{machine.name}”已停用，不能接收新任务")
  ensure (orders ≠ []) (.http 400 "生产任务至少需要一张订单")
  ensure (¬ ((∃ order ∈ orders, order.unit = "m") ∧ ∃ order ∈ orders, order.unit ≠ "m"))
    (.http 409 "米数与重量订单不能合并生产，请分别安排")
  let profiles := orders.map orderProfile
  let unsupportedCategories :=
    (profiles.filter (·.signature.categoryId ∉ machine.categoryLinks)).map
      (·.signature.categoryName)
  ensure (unsupportedCategories = [])
    (.http 409 s!"机器“{machine.name}”不支持产品大类：{sortedNames unsupportedCategories}")
  let unsupportedPatterns :=
    (profiles.filter (fun profile ↦ profile.signature.pattern ≠ "" ∧
      casefold profile.signature.pattern ∉ patternNames machine)).map (·.signature.pattern)
  ensure (unsupportedPatterns = [])
    (.http 409 s!"机器“{machine.name}”不具备花纹能力：{sortedNames unsupportedPatterns}")
  match profiles.find? (·.width.isNone) with
  | some profile => .error (.http 409 s!"订单 {profile.order.orderNo} 缺少可识别的宽度")
  | none =>
    validateMerge profiles
    let total := totalWidth orders
    ensure (machine.minWidth ≤ total ∧ total ≤ machine.maxWidth)
      (.http 409 (s!"合并宽度 {formatG total}mm 不在机器“{machine.name}”" ++
        s!"允许范围 {formatG machine.minWidth}–{formatG machine.maxWidth}mm 内"))
    return total

/-! ### When validation succeeds -/

/-- Two orders may share a task: both signatures are complete and they are the same. -/
def Mergeable (first second : Order) : Prop :=
  (productionSignature first).CompleteForMerge ∧ (productionSignature second).CompleteForMerge ∧
    SameSignature (productionSignature first) (productionSignature second)

/-- A machine can produce a list of orders as one task of the given width. -/
structure Producible (machine : Machine) (orders : List Order) (total : ℚ) : Prop where
  active : machine.isActive = true
  nonempty : orders ≠ []
  sameUnit : ∀ first ∈ orders, ∀ second ∈ orders, (first.unit = "m" ↔ second.unit = "m")
  supported : ∀ order ∈ orders, Supports machine (productionSignature order)
  sized : ∀ order ∈ orders, (orderProfile order).width.isSome
  mergeable : 1 < orders.length → ∀ first ∈ orders, ∀ second ∈ orders, Mergeable first second
  total_eq : total = totalWidth orders
  minWidth_le : machine.minWidth ≤ total
  le_maxWidth : total ≤ machine.maxWidth

/-- The merge checks pass exactly when at most one order is given or all orders are mergeable. -/
theorem validateMerge_eq_ok_iff (orders : List Order) (u : Unit) :
    validateMerge (orders.map orderProfile) = .ok u ↔
      (1 < orders.length → ∀ first ∈ orders, ∀ second ∈ orders, Mergeable first second) := by
  match orders with
  | [] => simp [validateMerge]
  | [order] => simp [validateMerge]
  | first :: second :: rest =>
    have hlength : 1 < (first :: second :: rest).length := by simp
    have hunfold : validateMerge ((first :: second :: rest).map orderProfile) = .ok u ↔
        (∀ order ∈ first :: second :: rest, (productionSignature order).CompleteForMerge) ∧
          ∀ order ∈ second :: rest,
            SameSignature (productionSignature first) (productionSignature order) := by
      simp only [List.map_cons, validateMerge]
      split
      · next profile hfind =>
        obtain ⟨order, horder, rfl⟩ : ∃ order ∈ first :: second :: rest,
            orderProfile order = profile := by
          have hmem := List.mem_of_find?_eq_some hfind
          rwa [← List.map_cons, ← List.map_cons, List.mem_map] at hmem
        have hincomplete := List.find?_some hfind
        simp only [decide_eq_true_eq] at hincomplete
        constructor
        · intro h
          cases h
        · intro h
          exact absurd (h.1 order horder) hincomplete
      · next hnone =>
        rw [← List.map_cons, ← List.map_cons, List.find?_eq_none] at hnone
        have hcomplete : ∀ order ∈ first :: second :: rest,
            (productionSignature order).CompleteForMerge := by
          intro order horder
          have hcomplete := hnone (orderProfile order) (List.mem_map_of_mem horder)
          rwa [decide_eq_true_eq, not_not] at hcomplete
        rw [ensure_eq_ok, ← List.map_cons, List.forall_mem_map]
        exact ⟨fun h ↦ ⟨hcomplete, h⟩, fun h ↦ h.2⟩
    rw [hunfold]
    constructor
    · rintro ⟨hcomplete, hsame⟩ -
      have hfirst : ∀ order ∈ first :: second :: rest,
          SameSignature (productionSignature first) (productionSignature order) := by
        intro order horder
        rcases List.mem_cons.mp horder with rfl | horder
        · exact rfl
        · exact hsame order horder
      intro left hleft right hright
      exact ⟨hcomplete left hleft, hcomplete right hright,
        (hfirst left hleft).symm.trans (hfirst right hright)⟩
    · intro h
      have hmergeable := h hlength
      exact ⟨fun order horder ↦ (hmergeable order horder order horder).1,
        fun order horder ↦
          (hmergeable first List.mem_cons_self order (List.mem_cons_of_mem _ horder)).2.2⟩

theorem sameUnit_iff (orders : List Order) :
    (¬ ((∃ order ∈ orders, order.unit = "m") ∧ ∃ order ∈ orders, order.unit ≠ "m")) ↔
      ∀ first ∈ orders, ∀ second ∈ orders, (first.unit = "m" ↔ second.unit = "m") := by
  constructor
  · intro h first hfirst second hsecond
    constructor
    · intro hm
      by_contra hne
      exact h ⟨⟨first, hfirst, hm⟩, second, hsecond, hne⟩
    · intro hm
      by_contra hne
      exact h ⟨⟨second, hsecond, hm⟩, first, hfirst, hne⟩
  · rintro h ⟨⟨first, hfirst, hm⟩, second, hsecond, hne⟩
    exact hne ((h first hfirst second hsecond).mp hm)

theorem unsupportedCategories_eq_nil_iff (machine : Machine) (orders : List Order) :
    ((orders.map orderProfile).filter (·.signature.categoryId ∉ machine.categoryLinks)).map
        (·.signature.categoryName) = [] ↔
      ∀ order ∈ orders, (productionSignature order).categoryId ∈ machine.categoryLinks := by
  rw [List.map_eq_nil_iff, List.filter_eq_nil_iff, List.forall_mem_map]
  simp only [decide_eq_true_eq, not_not]
  exact Iff.rfl

theorem unsupportedPatterns_eq_nil_iff (machine : Machine) (orders : List Order) :
    ((orders.map orderProfile).filter (fun profile ↦ profile.signature.pattern ≠ "" ∧
        casefold profile.signature.pattern ∉ patternNames machine)).map
        (·.signature.pattern) = [] ↔
      ∀ order ∈ orders, (productionSignature order).pattern ≠ "" →
        casefold (productionSignature order).pattern ∈ patternNames machine := by
  rw [List.map_eq_nil_iff, List.filter_eq_nil_iff, List.forall_mem_map]
  simp only [decide_eq_true_eq, not_and_not_right]
  exact Iff.rfl

theorem unsized_eq_none_iff (orders : List Order) :
    (orders.map orderProfile).find? (·.width.isNone) = none ↔
      ∀ order ∈ orders, (orderProfile order).width.isSome := by
  rw [List.find?_eq_none, List.forall_mem_map]
  simp [Option.isSome_iff_ne_none]

/-- Validation returns a width exactly when the machine can produce the orders as one task of that
width. -/
theorem validateMachineBatch_eq_ok_iff (machine : Machine) (orders : List Order) (total : ℚ) :
    validateMachineBatch machine orders = .ok total ↔ Producible machine orders total := by
  unfold validateMachineBatch
  simp only [except_bind_eq_ok, ensure_eq_ok, exists_const, sameUnit_iff,
    unsupportedCategories_eq_nil_iff, unsupportedPatterns_eq_nil_iff]
  constructor
  · rintro ⟨hactive, hnonempty, hunit, hcategories, hpatterns, hrest⟩
    split at hrest
    · cases hrest
    · next hsized =>
      simp only [except_bind_eq_ok, exists_const, validateMerge_eq_ok_iff, ensure_eq_ok,
        except_pure_eq_ok] at hrest
      obtain ⟨hmerge, ⟨hmin, hmax⟩, rfl⟩ := hrest
      exact ⟨hactive, hnonempty, hunit, fun order h ↦ ⟨hcategories order h, hpatterns order h⟩,
        (unsized_eq_none_iff orders).mp hsized, hmerge, rfl, hmin, hmax⟩
  · rintro ⟨hactive, hnonempty, hunit, hsupported, hsized, hmerge, rfl, hmin, hmax⟩
    refine ⟨hactive, hnonempty, hunit, fun order h ↦ (hsupported order h).1,
      fun order h ↦ (hsupported order h).2, ?_⟩
    rw [(unsized_eq_none_iff orders).mpr hsized]
    simp only [except_bind_eq_ok, exists_const, validateMerge_eq_ok_iff, ensure_eq_ok,
      except_pure_eq_ok]
    exact ⟨hmerge, ⟨hmin, hmax⟩, trivial⟩

/-- One order is producible alone exactly when the machine supports it and its width fits. -/
theorem producible_singleton_iff (machine : Machine) (order : Order) (total : ℚ) :
    Producible machine [order] total ↔
      machine.isActive ∧ Supports machine (productionSignature order) ∧
        (orderProfile order).width = some total ∧
          machine.minWidth ≤ total ∧ total ≤ machine.maxWidth := by
  constructor
  · rintro ⟨hactive, -, -, hsupported, hsized, -, rfl, hmin, hmax⟩
    refine ⟨hactive, hsupported order List.mem_cons_self, ?_, hmin, hmax⟩
    obtain ⟨width, hwidth⟩ := Option.isSome_iff_exists.mp (hsized order List.mem_cons_self)
    simp [totalWidth, hwidth]
  · rintro ⟨hactive, hsupported, hwidth, hmin, hmax⟩
    refine ⟨hactive, by simp, by simp, by simpa using hsupported, by simp [hwidth], by simp,
      by simp [totalWidth, hwidth], hmin, hmax⟩

end FilmOS.Production
