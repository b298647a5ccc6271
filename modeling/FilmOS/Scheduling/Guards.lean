import FilmOS.Scheduling.Reasons

/-!
# The assertions of the planner

`buildTasks` takes orders with their widths and reads the greatest width of a list that it has
split, so that two ways for the source to fail do not occur in it: an assertion on a missing width,
and the maximum of nothing. `Guarded` is the planner again with every point of failure of the
source: the widths stay optional and are asserted where the source asserts them, the loads likewise,
each division by the width of a machine fails at zero, `max` fails on no machine, and the loop fails
when its fuel is used up.

Each guarded function returns what its counterpart computes (`Guarded.selectBatch_eq`,
`Guarded.unassignedReason_eq`, `Guarded.planGroup_eq`); `buildTasks_never_fails` concludes that on
no orders and machines any of these points is reached.
-/

set_option autoImplicit false
set_option relaxedAutoImplicit false

namespace FilmOS.Scheduling

open Production PythonText Numeral Transaction

namespace Guarded

/-! ### Points of failure -/

/-- `assert info.width is not None`. -/
def assertedWidth (info : OrderProductionProfile) : Except Failure ℚ :=
  match info.width with
  | some width => .ok width
  | none => .error .assertionError

/-- `max` of some widths. -/
def maxOf : List ℚ → Except Failure ℚ
  | [] => .error (.valueError "max() iterable argument is empty")
  | first :: rest => .ok (rest.foldl max first)

/-- Division by the width of a machine. -/
def dividedByWidth (machine : Machine) (dividend : ℚ) : Except Failure ℚ := do
  ensure (machine.maxWidth ≠ 0) .zeroDivisionError
  return dividend / machine.maxWidth

/-! ### Selecting a batch -/

/-- The best batch so far, of orders whose widths are not known to be there. -/
structure ProfileSelection where
  batch : List OrderProductionProfile
  totalWidth : ℚ
  indexes : List ℕ

/-- One order of a scan. -/
def scanStep (machine : Machine) (filled : List OrderProductionProfile × ℚ)
    (info : OrderProductionProfile) : Except Failure (List OrderProductionProfile × ℚ) := do
  let width ← assertedWidth info
  if machine.maxWidth < filled.2 + width then return filled
  else return (filled.1 ++ [info], filled.2 + width)

/-- One anchor of `_select_batch`. -/
def tryAnchor (remaining : List OrderProductionProfile) (machine : Machine)
    (best : ProfileSelection) (anchor : OrderProductionProfile × ℕ) :
    Except Failure ProfileSelection := do
  let width ← assertedWidth anchor.1
  if machine.maxWidth < width then return best
  else
    let (batch, totalWidth) ←
      (anchor.1 :: remaining.eraseIdx anchor.2).foldlM (scanStep machine) ([], 0)
    if batch ≠ [] ∧ machine.minWidth ≤ totalWidth then
      let selectedIds := batch.map (·.order.id)
      let orderedBatch := remaining.filter (fun info ↦ info.order.id ∈ selectedIds)
      let indexes :=
        (remaining.zipIdx.filter (fun entry ↦ entry.1.order.id ∈ selectedIds)).map Prod.snd
      if best.totalWidth < totalWidth ∨
          (totalWidth = best.totalWidth ∧ (best.indexes = [] ∨ indexes < best.indexes)) then
        return ⟨orderedBatch, totalWidth, indexes⟩
      else return best
    else return best

/-- `_select_batch`. -/
def selectBatch (remaining : List OrderProductionProfile) (state : MachineState) :
    Except Failure ProfileSelection :=
  remaining.zipIdx.foldlM (tryAnchor remaining state.machine) ⟨[], 0, []⟩

/-! ### Candidates and tasks -/

/-- A batch that a machine could take next. -/
structure ProfileCandidate where
  key : ChangeoverKey
  index : ℕ
  state : MachineState
  selection : ProfileSelection

def ProfileCandidate.orders (candidate : ProfileCandidate) : List Order :=
  candidate.selection.batch.map OrderProductionProfile.order

/-- The candidate of one machine, if it is compatible and can take a batch. -/
def candidate? (basis : LoadBasis) (signature first : ProductionSignature)
    (remaining : List OrderProductionProfile) (entry : MachineState × ℕ) :
    Except Failure (Option ProfileCandidate) :=
  if MachineCompatible entry.1 first then do
    let selection ← selectBatch remaining entry.1
    if selection.batch = [] then return none
    else
      let batchLoadKg := batchQuantityKg (selection.batch.map OrderProductionProfile.order)
      let key ← changeoverKey entry.1 signature selection.totalWidth batchLoadKg basis
      return some ⟨key, entry.2, entry.1, selection⟩
  else return none

/-- `_reason`, which divides by the width of the machine. -/
def reason (state : MachineState) (signature : ProductionSignature) (orderCount : ℕ)
    (totalWidth : ℚ) : Except Failure String := do
  let _ ← dividedByWidth state.machine totalWidth
  return Scheduling.reason state signature orderCount totalWidth

/-- The task for a candidate. -/
def proposedTask (basis : LoadBasis) (signature : ProductionSignature)
    (candidate : ProfileCandidate) : Except Failure ProposedTask := do
  let reason ← reason candidate.state signature candidate.orders.length
    candidate.selection.totalWidth
  let utilization ← dividedByWidth candidate.state.machine candidate.selection.totalWidth
  return {
    draftTaskId := none
    machineId := candidate.state.machine.id
    machineName := candidate.state.machine.name
    orderIds := candidate.orders.map Order.id
    orderNos := candidate.orders.map Order.orderNo
    totalWidth := candidate.selection.totalWidth
    widthUtilization := roundTo 4 utilization
    totalQuantityKg := batchQuantityKg candidate.orders
    totalQuantityM := totalQuantityM candidate.orders
    reason := reason ++ basisNote basis }

/-- The state of a candidate's machine after its batch. -/
def stateAfter (signature : ProductionSignature) (candidate : ProfileCandidate) : MachineState where
  machine := candidate.state.machine
  loadKg := (candidate.state.loadKg).bind fun load ↦
    (batchQuantityKg candidate.orders).map (load + ·)
  taskCount := candidate.state.taskCount + 1
  lastSignature := some signature
  lastWidth := some candidate.selection.totalWidth

/-! ### Orders that stay unassigned -/

/-- `_unassigned_reason`. -/
def unassignedReason (states : List MachineState) (info : OrderProductionProfile) :
    Except Failure String :=
  match info.width with
  | none => .ok missingWidthReason
  | some width =>
    let categoryStates := states.filter (fun state ↦ info.signature.categoryId ∈ state.categoryIds)
    if categoryStates = [] then .ok (noCategoryReason info.signature.categoryName)
    else
      let pattern := info.signature.pattern
      let compatibleStates :=
        if pattern = "" then categoryStates
        else categoryStates.filter (fun state ↦ casefold pattern ∈ state.patternNames)
      if pattern ≠ "" ∧ compatibleStates = [] then .ok (noPatternReason pattern)
      else do
        let maxWidth ← maxOf (compatibleStates.map (·.machine.maxWidth))
        return if maxWidth < width then tooWideReason width maxWidth else belowMinimumReason

/-- The row of an order that stays unassigned. -/
def unassignedRow (states : List MachineState) (info : OrderProductionProfile) :
    Except Failure UnassignedOrder := do
  let reason ← unassignedReason states info
  return ⟨info.order.id, info.order.orderNo, reason⟩

/-! ### Assigning batches -/

/-- The loop over one group. -/
def planGroup (basis : LoadBasis) (signature : ProductionSignature) :
    ℕ → List OrderProductionProfile → Planning → Except Failure Planning
  | _, [], planning => .ok planning
  | 0, _ :: _, _ => .error .diverged
  | fuel + 1, first :: rest, planning => do
    let found ← planning.states.zipIdx.mapM (candidate? basis signature first.signature
      (first :: rest))
    match minBy ProfileCandidate.key found.reduceOption with
    | none =>
      let rows ← (first :: rest).mapM (unassignedRow planning.states)
      return { planning with unassigned := planning.unassigned ++ rows }
    | some candidate =>
      let task ← proposedTask basis signature candidate
      let selectedIds := candidate.selection.batch.map (·.order.id)
      planGroup basis signature fuel
        ((first :: rest).filter (fun info ↦ info.order.id ∉ selectedIds))
        { planning with
          states := planning.states.set candidate.index (stateAfter signature candidate)
          tasks := planning.tasks ++ [task] }

/-- The group of an order. -/
def groupKey (info : OrderProductionProfile) : GroupKey where
  signature := info.signature
  meter := decide (info.order.unit = "m")
  discriminator := if info.signature.CompleteForMerge then none else some info.order.id

/-- `build_tasks`. -/
def buildTasks (orders : List Order) (machines : List LoadedMachine) : Except Failure Proposal := do
  let states := machines.map machineState
  let basis := loadBasis orders machines
  let infos := orders.map orderProfile
  let unsized ← (infos.filter (·.width.isNone)).mapM (unassignedRow states)
  let groups := Batching.groupBy groupKey (infos.filter (fun info ↦ ¬ info.width.isNone))
  let planning ← groups.foldlM
    (fun planning group ↦ planGroup basis group.1.signature group.2.length group.2 planning)
    ⟨states, [], unsized⟩
  return ⟨planning.tasks, planning.unassigned⟩

/-! ### Folds that do not fail -/

section Folds

variable {ε α α' β β' : Type}

/-- A guarded fold returns what the plain one computes, when each of its steps does. -/
theorem foldlM_map_eq_ok {f : β' → α' → Except ε β'} {g : β → α → β} {φ : β → β'} {ψ : α → α'}
    (as : List α) (b : β) (h : ∀ b, ∀ a ∈ as, f (φ b) (ψ a) = .ok (φ (g b a))) :
    (as.map ψ).foldlM f (φ b) = .ok (φ (as.foldl g b)) := by
  induction as generalizing b with
  | nil => rfl
  | cons a as ih =>
    rw [List.map_cons, List.foldlM_cons, h b a List.mem_cons_self, List.foldl_cons]
    exact ih (g b a) fun b' a' ha' ↦ h b' a' (List.mem_cons_of_mem _ ha')

/-- A guarded map returns what another returns, up to a function, when each of its steps does. -/
theorem mapM_eq_ok_of_mapM {f : α → Except ε β} {g : α → Except ε β'} {φ : β → β'} {as : List α}
    (h : ∀ a ∈ as, ∀ b, f a = .ok b → g a = .ok (φ b)) {bs : List β} (hbs : as.mapM f = .ok bs) :
    as.mapM g = .ok (bs.map φ) := by
  induction as generalizing bs with
  | nil =>
    rw [List.mapM_nil] at hbs ⊢
    obtain rfl := Except.ok.inj hbs
    rfl
  | cons a as ih =>
    rw [List.mapM_cons] at hbs ⊢
    simp only [except_bind_eq_ok, except_pure_eq_ok] at hbs ⊢
    obtain ⟨b, hb, rest, hrest, rfl⟩ := hbs
    exact ⟨φ b, h a List.mem_cons_self b hb, rest.map φ,
      ih (fun a' ha' ↦ h a' (List.mem_cons_of_mem _ ha')) hrest, rfl⟩

/-- What a map returns is returned for one of its elements. -/
theorem exists_of_mem_mapM {f : α → Except ε β} {as : List α} {bs : List β}
    (h : as.mapM f = .ok bs) {b : β} (hb : b ∈ bs) : ∃ a ∈ as, f a = .ok b := by
  have hall := forall₂_of_mapM_eq_ok h
  clear h
  induction hall with
  | nil => cases hb
  | @cons a c as bs hac _ ih =>
    rcases List.mem_cons.mp hb with rfl | hb
    · exact ⟨a, List.mem_cons_self, hac⟩
    · obtain ⟨a', ha', heq⟩ := ih hb
      exact ⟨a', List.mem_cons_of_mem _ ha', heq⟩

/-- A guarded map whose steps all return is the plain map. -/
theorem mapM_eq_ok_map {g : α → Except ε β} {φ : α → β} (as : List α)
    (h : ∀ a ∈ as, g a = .ok (φ a)) : as.mapM g = .ok (as.map φ) := by
  induction as with
  | nil => rfl
  | cons a as ih =>
    rw [List.mapM_cons]
    simp only [except_bind_eq_ok, except_pure_eq_ok]
    exact ⟨φ a, h a List.mem_cons_self, as.map φ,
      ih (fun a' ha' ↦ h a' (List.mem_cons_of_mem _ ha')), rfl⟩

/-- The least element of a mapped list. -/
theorem minBy_map {γ : Type} [LinearOrder γ] {key : β → γ} {key' : β' → γ} {φ : β → β'}
    (hkey : ∀ b, key' (φ b) = key b) (bs : List β) :
    minBy key' (bs.map φ) = (minBy key bs).map φ := by
  unfold minBy
  induction bs with
  | nil => rfl
  | cons b bs ih =>
    rw [List.map_cons, List.argmin_cons, List.argmin_cons, ih]
    cases List.argmin key bs with
    | none => rfl
    | some least =>
      change (if key' (φ least) < key' (φ b) then _ else _) = Option.map φ (if _ then _ else _)
      rw [hkey, hkey]
      split_ifs
      · rfl
      · rfl

end Folds

/-! ### Simulation -/

/-- A selection without what is known of the widths. -/
def profiles (selection : Selection) : ProfileSelection :=
  ⟨selection.batch.map SizedOrder.info, selection.totalWidth, selection.indexes⟩

@[simp] theorem totalWidth_profiles (selection : Selection) :
    (profiles selection).totalWidth = selection.totalWidth := rfl

@[simp] theorem indexes_profiles (selection : Selection) :
    (profiles selection).indexes = selection.indexes := rfl

theorem assertedWidth_info (sized : SizedOrder) : assertedWidth sized.info = .ok sized.width := by
  unfold assertedWidth SizedOrder.info
  rw [sized.width_eq]

/-- A scan over orders with widths. -/
theorem scan_eq (machine : Machine) (scanned : List SizedOrder) :
    (scanned.map SizedOrder.info).foldlM (scanStep machine) ([], 0) =
      .ok ((Batching.fill SizedOrder.width machine.maxWidth scanned).1.map SizedOrder.info,
        (Batching.fill SizedOrder.width machine.maxWidth scanned).2) := by
  refine foldlM_map_eq_ok (φ := fun filled : List SizedOrder × ℚ ↦
    (filled.1.map SizedOrder.info, filled.2)) scanned ([], 0) fun filled sized _ ↦ ?_
  unfold scanStep Batching.fillStep
  rw [assertedWidth_info]
  change (if machine.maxWidth < filled.2 + sized.width then _ else _) = _
  by_cases hwide : machine.maxWidth < filled.2 + sized.width
  · rw [if_pos hwide, if_pos hwide]
    rfl
  · rw [if_neg hwide, if_neg hwide, List.map_append]
    rfl

/-- The identifiers of a batch, with or without the widths. -/
theorem ids_info (batch : List SizedOrder) :
    (batch.map SizedOrder.info).map (·.order.id) = batch.map (·.order.id) := by
  rw [List.map_map]
  rfl

theorem membersOf_info (batch remaining : List SizedOrder) :
    (remaining.map SizedOrder.info).filter
        (fun info ↦ info.order.id ∈ (batch.map SizedOrder.info).map (·.order.id)) =
      (membersOf batch remaining).map SizedOrder.info := by
  rw [ids_info, List.filter_map]
  rfl

theorem withoutBatch_info (batch remaining : List SizedOrder) :
    (remaining.map SizedOrder.info).filter
        (fun info ↦ info.order.id ∉ (batch.map SizedOrder.info).map (·.order.id)) =
      (withoutBatch batch remaining).map SizedOrder.info := by
  rw [ids_info, List.filter_map]
  rfl

theorem indexes_info (batch remaining : List SizedOrder) :
    ((remaining.map SizedOrder.info).zipIdx.filter
        (fun entry ↦ entry.1.order.id ∈ (batch.map SizedOrder.info).map (·.order.id))).map
          Prod.snd =
      (remaining.zipIdx.filter
        (fun entry ↦ entry.1.order.id ∈ batch.map (·.order.id))).map Prod.snd := by
  rw [ids_info, List.zipIdx_map, List.filter_map, List.map_map]
  rfl

/-- Trying an anchor, with the widths asserted. -/
theorem tryAnchor_eq (remaining : List SizedOrder) (machine : Machine) (best : Selection)
    (anchor : SizedOrder × ℕ) :
    tryAnchor (remaining.map SizedOrder.info) machine (profiles best)
        (Prod.map SizedOrder.info id anchor) =
      .ok (profiles (Scheduling.tryAnchor remaining machine best anchor)) := by
  have hscan : (anchor.1.info :: (remaining.map SizedOrder.info).eraseIdx anchor.2).foldlM
      (scanStep machine) ([], 0) = .ok ((scanFrom remaining machine anchor).1.map SizedOrder.info,
        (scanFrom remaining machine anchor).2) := by
    rw [List.eraseIdx_map, ← List.map_cons]
    exact scan_eq machine (anchor.1 :: remaining.eraseIdx anchor.2)
  unfold tryAnchor Scheduling.tryAnchor
  simp only [Prod.map_fst, Prod.map_snd, id_eq, assertedWidth_info, hscan, bind, Except.bind, pure,
    Except.pure, membersOf_info, indexes_info, ne_eq, List.map_eq_nil_iff,
    totalWidth_profiles, indexes_profiles]
  split_ifs
  · rfl
  · rfl
  · rfl
  · rfl

/-- Selecting a batch, with the widths asserted. -/
theorem selectBatch_eq (remaining : List SizedOrder) (state : MachineState) :
    selectBatch (remaining.map SizedOrder.info) state =
      .ok (profiles (Scheduling.selectBatch remaining state)) := by
  unfold selectBatch Scheduling.selectBatch
  rw [List.zipIdx_map]
  exact foldlM_map_eq_ok (φ := profiles) remaining.zipIdx ⟨[], 0, []⟩ fun best anchor _ ↦
    tryAnchor_eq remaining state.machine best anchor

/-- A candidate without what is known of the widths. -/
def profileCandidate (candidate : Candidate) : ProfileCandidate :=
  ⟨candidate.key, candidate.index, candidate.state, profiles candidate.selection⟩

theorem orders_profileCandidate (candidate : Candidate) :
    (profileCandidate candidate).orders = candidate.orders := by
  unfold ProfileCandidate.orders Candidate.orders profileCandidate profiles
  rw [List.map_map]
  rfl

/-- The candidate of a machine, with the widths asserted. -/
theorem candidate?_eq {basis : LoadBasis} {signature first : ProductionSignature}
    {remaining : List SizedOrder} {entry : MachineState × ℕ} {found : Option Candidate}
    (h : Scheduling.candidate? basis signature first remaining entry = .ok found) :
    candidate? basis signature first (remaining.map SizedOrder.info) entry =
      .ok (found.map profileCandidate) := by
  unfold Scheduling.candidate? at h
  unfold candidate?
  dsimp only at h
  by_cases hcompatible : MachineCompatible entry.1 first
  · rw [if_pos hcompatible] at h ⊢
    rw [selectBatch_eq]
    have hnil : (profiles (Scheduling.selectBatch remaining entry.1)).batch = [] ↔
        (Scheduling.selectBatch remaining entry.1).batch = [] := List.map_eq_nil_iff
    have horders : (profiles (Scheduling.selectBatch remaining entry.1)).batch.map
        OrderProductionProfile.order =
          (Scheduling.selectBatch remaining entry.1).batch.map SizedOrder.order := by
      unfold profiles
      rw [List.map_map]
      rfl
    by_cases hbatch : (Scheduling.selectBatch remaining entry.1).batch = []
    · rw [if_pos hbatch] at h
      obtain rfl := Except.ok.inj h
      exact if_pos (hnil.mpr hbatch)
    · rw [if_neg hbatch] at h
      simp only [except_bind_eq_ok, except_pure_eq_ok] at h
      obtain ⟨key, hkey, rfl⟩ := h
      refine (if_neg (fun h ↦ hbatch (hnil.mp h))).trans ?_
      rw [horders]
      simp only [except_bind_eq_ok, except_pure_eq_ok]
      exact ⟨key, hkey, rfl⟩
  · rw [if_neg hcompatible] at h ⊢
    obtain rfl := Except.ok.inj h
    rfl

/-- A candidate's machine has a width: its key was computed. -/
theorem maxWidth_ne_zero {basis : LoadBasis} {signature first : ProductionSignature}
    {remaining : List SizedOrder} {entry : MachineState × ℕ} {candidate : Candidate}
    (h : Scheduling.candidate? basis signature first remaining entry = .ok (some candidate)) :
    candidate.state.machine.maxWidth ≠ 0 := by
  unfold Scheduling.candidate? at h
  dsimp only at h
  split_ifs at h
  · cases h
  · simp only [except_bind_eq_ok, except_pure_eq_ok, Option.some.injEq] at h
    obtain ⟨key, hkey, rfl⟩ := h
    unfold changeoverKey at hkey
    simp only [except_bind_eq_ok, ensure_eq_ok, exists_const] at hkey
    exact hkey.1
  · cases h

/-- The task for a candidate whose machine has a width. -/
theorem proposedTask_eq (basis : LoadBasis) (signature : ProductionSignature)
    {candidate : Candidate} (hwidth : candidate.state.machine.maxWidth ≠ 0) :
    proposedTask basis signature (profileCandidate candidate) =
      .ok (Scheduling.proposedTask basis signature candidate) := by
  have hdivided : ∀ dividend, dividedByWidth candidate.state.machine dividend =
      .ok (dividend / candidate.state.machine.maxWidth) := by
    intro dividend
    unfold dividedByWidth
    simp only [except_bind_eq_ok, ensure_eq_ok, exists_const, except_pure_eq_ok, and_true]
    exact hwidth
  unfold proposedTask reason
  simp only [orders_profileCandidate, except_bind_eq_ok, except_pure_eq_ok]
  exact ⟨_, ⟨_, hdivided _, rfl⟩, _, hdivided _, rfl⟩

theorem stateAfter_eq (signature : ProductionSignature) (candidate : Candidate) :
    stateAfter signature (profileCandidate candidate) =
      Scheduling.stateAfter signature candidate := by
  unfold stateAfter Scheduling.stateAfter
  rw [orders_profileCandidate]
  rfl

/-- The reason of an unassigned order: the maximum is over the machine of a nonempty list. -/
theorem unassignedReason_eq (states : List MachineState) (info : OrderProductionProfile) :
    unassignedReason states info = .ok (Scheduling.unassignedReason states info) := by
  unfold unassignedReason Scheduling.unassignedReason
  cases info.width with
  | none => rfl
  | some width =>
    dsimp only
    set categoryStates :=
      states.filter (fun state ↦ info.signature.categoryId ∈ state.categoryIds)
    by_cases hcategory : categoryStates = []
    · rw [if_pos hcategory, if_pos hcategory]
      rfl
    · rw [if_neg hcategory, if_neg hcategory]
      by_cases hpattern : info.signature.pattern = ""
      · -- without a pattern the list is that of the category
        rw [if_pos hpattern, if_neg (fun h ↦ h.1 hpattern)]
        cases hwidths : categoryStates.map (·.machine.maxWidth) with
        | nil => exact absurd (List.map_eq_nil_iff.mp hwidths) hcategory
        | cons first rest => rfl
      · rw [if_neg hpattern]
        cases hwidths : (categoryStates.filter
            (fun state ↦ casefold info.signature.pattern ∈ state.patternNames)).map
              (·.machine.maxWidth) with
        | nil =>
          rw [if_pos ⟨hpattern, List.map_eq_nil_iff.mp hwidths⟩]
          rfl
        | cons first rest =>
          have hne : categoryStates.filter
              (fun state ↦ casefold info.signature.pattern ∈ state.patternNames) ≠ [] := by
            intro hnil
            rw [hnil] at hwidths
            cases hwidths
          rw [if_neg (fun h ↦ hne h.2)]
          rfl

theorem unassignedRow_eq (states : List MachineState) (info : OrderProductionProfile) :
    unassignedRow states info = .ok (Scheduling.unassignedRow states info) := by
  unfold unassignedRow
  rw [unassignedReason_eq]
  rfl

/-- The loop over a group returns what its counterpart returns. -/
theorem planGroup_eq {basis : LoadBasis} {signature : ProductionSignature} (fuel : ℕ) :
    ∀ (remaining : List SizedOrder) (planning planning' : Planning),
      Scheduling.planGroup basis signature fuel remaining planning = .ok planning' →
        planGroup basis signature fuel (remaining.map SizedOrder.info)
          planning = .ok planning' := by
  induction fuel with
  | zero =>
    intro remaining planning planning' h
    cases remaining with
    | nil =>
      rw [Scheduling.planGroup] at h
      rw [List.map_nil, planGroup]
      exact h
    | cons first rest =>
      rw [Scheduling.planGroup] at h
      cases h
  | succ fuel ih =>
    intro remaining planning planning' h
    cases remaining with
    | nil =>
      rw [Scheduling.planGroup] at h
      rw [List.map_nil, planGroup]
      exact h
    | cons first rest =>
      rw [Scheduling.planGroup] at h
      simp only [except_bind_eq_ok] at h
      obtain ⟨found, hfound, h⟩ := h
      unfold candidates at hfound
      simp only [except_bind_eq_ok, except_pure_eq_ok] at hfound
      obtain ⟨results, hresults, rfl⟩ := hfound
      have hguarded := mapM_eq_ok_of_mapM (φ := Option.map profileCandidate)
        (g := candidate? basis signature first.info.signature
          ((first :: rest).map SizedOrder.info))
        (fun entry _ _ hentry ↦ candidate?_eq hentry) hresults
      have hbest : minBy ProfileCandidate.key
          (results.map (Option.map profileCandidate)).reduceOption
          = (minBy Candidate.key results.reduceOption).map profileCandidate := by
        rw [List.reduceOption_map]
        exact minBy_map (fun _ ↦ rfl) _
      rw [List.map_cons, planGroup, ← List.map_cons]
      simp only [except_bind_eq_ok]
      refine ⟨_, hguarded, ?_⟩
      rw [hbest]
      cases hleast : minBy Candidate.key results.reduceOption with
      | none =>
        rw [hleast] at h
        obtain rfl := Except.ok.inj h
        simp only [Option.map_none, except_bind_eq_ok]
        refine ⟨_, mapM_eq_ok_map _ fun info _ ↦ unassignedRow_eq planning.states info, ?_⟩
        rw [List.map_map]
        rfl
      | some candidate =>
        rw [hleast] at h
        have hmem := List.reduceOption_mem_iff.mp (mem_of_minBy_eq_some hleast)
        have hwidth : candidate.state.machine.maxWidth ≠ 0 := by
          obtain ⟨entry, -, hentry⟩ := exists_of_mem_mapM hresults hmem
          exact maxWidth_ne_zero hentry
        simp only [Option.map_some, except_bind_eq_ok]
        refine ⟨_, proposedTask_eq basis signature hwidth, ?_⟩
        rw [stateAfter_eq]
        have hrest : ((first :: rest).map SizedOrder.info).filter (fun info ↦ info.order.id ∉
            (profileCandidate candidate).selection.batch.map (·.order.id)) =
              (withoutBatch candidate.selection.batch (first :: rest)).map SizedOrder.info :=
          withoutBatch_info candidate.selection.batch (first :: rest)
        rw [hrest]
        exact ih _ _ planning' h

/-! ### Groups -/

/-- An element added to groups whose elements are mapped. -/
theorem addToGroup_map {κ α β : Type} [DecidableEq κ] (f : α → β) (k : κ) (a : α)
    (groups : List (κ × List α)) :
    Batching.addToGroup k (f a) (groups.map (Prod.map id (List.map f))) =
      (Batching.addToGroup k a groups).map (Prod.map id (List.map f)) := by
  induction groups with
  | nil => rfl
  | cons group groups ih =>
    rw [List.map_cons, Batching.addToGroup, Batching.addToGroup]
    by_cases hkey : group.1 = k
    · rw [if_pos hkey, if_pos (show (Prod.map id (List.map f) group).1 = k from hkey),
        List.map_cons]
      simp
    · rw [if_neg hkey, if_neg (show ¬ (Prod.map id (List.map f) group).1 = k from hkey),
        List.map_cons, ih]

/-- The groups of a mapped list. -/
theorem groupBy_map {κ α β : Type} [DecidableEq κ] (f : α → β) (key : α → κ) (key' : β → κ)
    (hkey : ∀ a, key' (f a) = key a) (as : List α) :
    Batching.groupBy key' (as.map f) =
      (Batching.groupBy key as).map (Prod.map id (List.map f)) := by
  unfold Batching.groupBy
  suffices h : ∀ groups : List (κ × List α),
      (as.map f).foldl (fun groups b ↦ Batching.addToGroup (key' b) b groups)
          (groups.map (Prod.map id (List.map f))) =
        (as.foldl (fun groups a ↦ Batching.addToGroup (key a) a groups) groups).map
          (Prod.map id (List.map f)) from h []
  induction as with
  | nil => exact fun _ ↦ rfl
  | cons a as ih =>
    intro groups
    rw [List.map_cons, List.foldl_cons, List.foldl_cons, hkey, addToGroup_map]
    exact ih _

/-- The infos with a width are those of the sized orders. -/
theorem infos_eq (orders : List Order) :
    (orders.map orderProfile).filter (fun info ↦ ¬ info.width.isNone) =
      (orders.filterMap sized?).map SizedOrder.info := by
  have hinfo : (orders.filterMap sized?).map SizedOrder.info =
      ((orders.filterMap sized?).map SizedOrder.order).map orderProfile := by
    rw [List.map_map]
    rfl
  rw [hinfo, map_order_filterMap_sized?, List.filter_map]
  refine congrArg (List.map orderProfile) (List.filter_congr fun order _ ↦ ?_)
  cases h : (orderProfile order).width with
  | none => simp [h]
  | some width => simp [h]

/-- The loop over the groups returns what its counterpart returns. -/
theorem planGroups_eq {basis : LoadBasis} (groups : List (GroupKey × List SizedOrder)) :
    ∀ planning planning' : Planning,
      groups.foldlM (fun planning group ↦
        Scheduling.planGroup basis group.1.signature group.2.length group.2 planning) planning =
          .ok planning' →
      (groups.map (Prod.map id (List.map SizedOrder.info))).foldlM (fun planning group ↦
        planGroup basis group.1.signature group.2.length group.2 planning) planning =
          .ok planning' := by
  induction groups with
  | nil => exact fun _ _ h ↦ h
  | cons group groups ih =>
    intro planning planning' h
    rw [List.foldlM_cons, except_bind_eq_ok] at h
    obtain ⟨middle, hgroup, hrest⟩ := h
    rw [List.map_cons, List.foldlM_cons, except_bind_eq_ok]
    refine ⟨middle, ?_, ih middle planning' hrest⟩
    have hguarded := planGroup_eq _ _ _ _ hgroup
    rw [← List.length_map SizedOrder.info] at hguarded
    exact hguarded

/-- The planner with its points of failure returns what the planner returns. -/
theorem buildTasks_eq {orders : List Order} {machines : List LoadedMachine} {proposal : Proposal}
    (h : Scheduling.buildTasks orders machines = .ok proposal) :
    buildTasks orders machines = .ok proposal := by
  unfold Scheduling.buildTasks at h
  simp only [except_bind_eq_ok, except_pure_eq_ok] at h
  obtain ⟨planning, hplan, rfl⟩ := h
  unfold buildTasks
  simp only [except_bind_eq_ok, except_pure_eq_ok]
  refine ⟨_, mapM_eq_ok_map _ fun info _ ↦ unassignedRow_eq _ info, planning, ?_, rfl⟩
  have hgroups := groupBy_map SizedOrder.info Scheduling.groupKey groupKey (fun _ ↦ rfl)
    (orders.filterMap sized?)
  rw [infos_eq, hgroups]
  exact planGroups_eq _ _ _ hplan

end Guarded

/-- On any orders and machines the planner reaches none of its points of failure: no assertion on a
width or a load, no division by a width of zero, no maximum over no machine, no endless loop. -/
theorem buildTasks_never_fails (orders : List Order) (machines : List LoadedMachine) :
    ∃ proposal, Guarded.buildTasks orders machines = .ok proposal ∧
      buildTasks orders machines = .ok proposal := by
  obtain ⟨proposal, hproposal, -⟩ := buildTasks_rows orders machines
  exact ⟨proposal, Guarded.buildTasks_eq hproposal, hproposal⟩

end FilmOS.Scheduling
