import FilmOS.Scheduling.Planner
import Mathlib.Data.List.ReduceOption

/-!
# What the planner guarantees

`Planned` says that tasks and unassigned orders account for a list of orders on given machines:
together they hold each order once, every task is producible on its machine with the width it
states, and no unassigned order could be produced alone. `buildTasks_planned` proves it of every
proposal, and that the planner always returns one.

The argument follows the loops. A filled batch keeps within the machine, so `selectBatch` returns
either nothing or a batch the machine can produce (`Fits`); an order that alone fits a machine makes
some anchor succeed (`batch_selectBatch_ne_nil`). The members of a group are interchangeable for
compatibility (`Uniform`), so the round of `planGroup` that gives a group up gives up only orders no
machine can produce alone. Accounts of disjoint lists of orders add up (`Planned.append`). The loops
themselves are followed once, for any account that their rounds keep (`Accounting`).
-/

set_option autoImplicit false
set_option relaxedAutoImplicit false

namespace FilmOS.Scheduling

open Production PythonText Transaction

/-! ### Loads -/

theorem isSome_mapM_iff {α β : Type} (f : α → Option β) (as : List α) :
    (as.mapM f).isSome ↔ ∀ a ∈ as, (f a).isSome := by
  induction as with
  | nil => simp
  | cons a as ih =>
    rw [List.mapM_cons, List.forall_mem_cons, ← ih]
    cases f a <;> cases as.mapM f <;> simp

theorem isSome_batchQuantityKg_iff (orders : List Order) :
    (batchQuantityKg orders).isSome ↔ ∀ order ∈ orders, (quantityKg order).isSome := by
  rw [batchQuantityKg, Option.isSome_map, isSome_mapM_iff]

/-- When loads are weights, every order to plan and every queued order has a weight. -/
theorem isSome_quantityKg_of_loadBasis {orders : List Order} {machines : List LoadedMachine}
    (h : loadBasis orders machines = .weightKg) :
    (∀ order ∈ orders, (quantityKg order).isSome) ∧
      ∀ machine ∈ machines, ∀ order ∈ machine.queuedOrders, (quantityKg order).isSome := by
  unfold loadBasis at h
  dsimp only at h
  split_ifs at h with hany
  simp only [List.any_eq_true, Option.isNone_iff_eq_none, not_exists, not_and] at hany
  have hall : ∀ order ∈ orders ++ machines.flatMap LoadedMachine.queuedOrders,
      (quantityKg order).isSome :=
    fun order horder ↦ Option.isSome_iff_ne_none.mpr (hany order horder)
  exact ⟨fun order horder ↦ hall order (List.mem_append_left _ horder),
    fun machine hmachine order horder ↦
      hall order (List.mem_append_right _ (List.mem_flatMap.mpr ⟨machine, hmachine, horder⟩))⟩

/-! ### Selected batches -/

theorem SizedOrder.width_pos (sized : SizedOrder) : 0 < sized.width :=
  Production.width_pos sized.width_eq

theorem totalWidth_map_order (batch : List SizedOrder) :
    totalWidth (batch.map SizedOrder.order) = (batch.map SizedOrder.width).sum := by
  unfold totalWidth
  rw [List.map_map]
  refine congrArg List.sum (List.map_congr_left fun sized _ ↦ ?_)
  simp only [Function.comp_apply, sized.width_eq, Option.getD_some]

/-- The identifiers of sized orders. -/
def idsOf (sized : List SizedOrder) : List Id := sized.map (·.order.id)

/-- The members of a batch among the remaining orders are the batch again, when the remaining
identifiers are distinct. -/
theorem membersOf_perm {batch remaining : List SizedOrder} (hnodup : (idsOf remaining).Nodup)
    (hsub : batch.Subperm remaining) : (membersOf batch remaining).Perm batch := by
  have hremaining : remaining.Nodup := hnodup.of_map _
  have hbatch : batch.Nodup := by
    obtain ⟨taken, hperm, hsublist⟩ := hsub
    exact hperm.nodup_iff.mp (hremaining.sublist hsublist)
  refine (List.perm_ext_iff_of_nodup (hremaining.filter _) hbatch).mpr fun sized ↦ ?_
  rw [List.mem_filter, decide_eq_true_eq, List.mem_map]
  constructor
  · rintro ⟨hmem, other, hother, hid⟩
    have heq := List.inj_on_of_nodup_map hnodup (hsub.subset hother) hmem hid
    rwa [heq] at hother
  · intro hmem
    exact ⟨hsub.subset hmem, sized, hmem, rfl⟩

/-- A selection is within a machine: an ordered part of the remaining orders whose width is between
the bounds, or nothing. -/
structure Fits (remaining : List SizedOrder) (machine : Machine) (selection : Selection) :
    Prop where
  sublist : selection.batch.Sublist remaining
  totalWidth_eq : selection.totalWidth = (selection.batch.map SizedOrder.width).sum
  minWidth_le : selection.batch ≠ [] → machine.minWidth ≤ selection.totalWidth
  le_maxWidth : selection.batch ≠ [] → selection.totalWidth ≤ machine.maxWidth

/-- The batch scanned from an anchor is a part of the remaining orders. -/
theorem scanFrom_subperm {remaining : List SizedOrder} (machine : Machine)
    {anchor : SizedOrder × ℕ} (h : anchor ∈ remaining.zipIdx) :
    (scanFrom remaining machine anchor).1.Subperm remaining := by
  obtain ⟨hlt, hget⟩ := List.getElem?_eq_some_iff.mp (List.mem_zipIdx_iff_getElem?.mp h)
  have hperm : (anchor.1 :: remaining.eraseIdx anchor.2).Perm remaining := by
    rw [← hget]
    exact List.getElem_cons_eraseIdx_perm hlt
  exact (Batching.fill_sublist _ _ _).subperm.trans hperm.subperm

/-- An anchor that fits the machine is in the batch scanned from it. -/
theorem anchor_mem_scanFrom {remaining : List SizedOrder} {machine : Machine}
    {anchor : SizedOrder × ℕ} (hmax : anchor.1.width ≤ machine.maxWidth) :
    anchor.1 ∈ (scanFrom remaining machine anchor).1 ∧
      anchor.1.width ≤ (scanFrom remaining machine anchor).2 :=
  Batching.le_total_fill_cons hmax fun sized _ ↦ sized.width_pos.le

/-- Trying an anchor keeps the best selection within the machine. -/
theorem fits_tryAnchor {remaining : List SizedOrder} (hnodup : (idsOf remaining).Nodup)
    {machine : Machine} {best : Selection} (hbest : Fits remaining machine best)
    {anchor : SizedOrder × ℕ} (hanchor : anchor ∈ remaining.zipIdx) :
    Fits remaining machine (tryAnchor remaining machine best anchor) := by
  unfold tryAnchor
  dsimp only
  split_ifs with hwide hbatch himproves
  · exact hbest
  · have hperm := membersOf_perm hnodup (scanFrom_subperm machine hanchor)
    refine ⟨List.filter_sublist, ?_, fun _ ↦ hbatch.2, fun _ ↦ Batching.total_fill_le hbatch.1⟩
    exact (Batching.total_fill _ _ _).trans (hperm.map SizedOrder.width).sum_eq.symm
  · exact hbest
  · exact hbest

/-- A nonempty batch has members among the remaining orders it comes from. -/
theorem membersOf_ne_nil {batch remaining : List SizedOrder} (hsub : batch ⊆ remaining)
    (hne : batch ≠ []) : membersOf batch remaining ≠ [] := by
  obtain ⟨sized, hsized⟩ := List.exists_mem_of_ne_nil batch hne
  refine List.ne_nil_of_mem (a := sized) (List.mem_filter.mpr ⟨hsub hsized, ?_⟩)
  exact decide_eq_true (List.mem_map_of_mem hsized)

/-- What a selection is among any orders, also when identifiers repeat: a part of the remaining
orders, taken by a machine that has a width. -/
structure Chosen (remaining : List SizedOrder) (machine : Machine) (selection : Selection) :
    Prop where
  sublist : selection.batch.Sublist remaining
  totalWidth_eq : selection.batch = [] → selection.totalWidth = 0
  maxWidth_pos : selection.batch ≠ [] → 0 < machine.maxWidth

theorem chosen_nil (remaining : List SizedOrder) (machine : Machine) :
    Chosen remaining machine ⟨[], 0, []⟩ :=
  ⟨List.nil_sublist _, fun _ ↦ rfl, fun h ↦ absurd rfl h⟩

/-- Trying an anchor never loses a selection. -/
theorem batch_tryAnchor_ne_nil {remaining : List SizedOrder} {machine : Machine} {best : Selection}
    (hbest : best.batch ≠ []) {anchor : SizedOrder × ℕ} (hanchor : anchor ∈ remaining.zipIdx) :
    (tryAnchor remaining machine best anchor).batch ≠ [] := by
  unfold tryAnchor
  dsimp only
  split_ifs with hwide hbatch himproves
  · exact hbest
  · exact membersOf_ne_nil (scanFrom_subperm machine hanchor).subset hbatch.1
  · exact hbest
  · exact hbest

/-- Trying an anchor keeps the best selection a chosen one. -/
theorem chosen_tryAnchor {remaining : List SizedOrder} {machine : Machine} {best : Selection}
    (hbest : Chosen remaining machine best) {anchor : SizedOrder × ℕ}
    (hanchor : anchor ∈ remaining.zipIdx) :
    Chosen remaining machine (tryAnchor remaining machine best anchor) := by
  unfold tryAnchor
  dsimp only
  split_ifs with hwide hbatch himproves
  · exact hbest
  · have hne := membersOf_ne_nil (scanFrom_subperm machine hanchor).subset hbatch.1
    exact ⟨List.filter_sublist, fun hnil ↦ absurd hnil hne,
      fun _ ↦ anchor.1.width_pos.trans_le (not_lt.mp hwide)⟩
  · exact hbest
  · exact hbest

/-- An anchor that fits the machine and whose scan reaches the minimum width leaves a selection
behind. -/
theorem batch_tryAnchor_ne_nil_of_fits {remaining : List SizedOrder} {machine : Machine}
    {best : Selection} (hbest : Chosen remaining machine best) {anchor : SizedOrder × ℕ}
    (hanchor : anchor ∈ remaining.zipIdx) (hmax : anchor.1.width ≤ machine.maxWidth)
    (hmin : machine.minWidth ≤ (scanFrom remaining machine anchor).2) :
    (tryAnchor remaining machine best anchor).batch ≠ [] := by
  by_cases hne : best.batch ≠ []
  · exact batch_tryAnchor_ne_nil hne hanchor
  · have hzero : best.totalWidth = 0 := hbest.totalWidth_eq (not_not.mp hne)
    obtain ⟨hmem, hle⟩ := anchor_mem_scanFrom hmax
    unfold tryAnchor
    dsimp only
    rw [if_neg (not_lt.mpr hmax), if_pos ⟨List.ne_nil_of_mem hmem, hmin⟩,
      if_pos (Or.inl (by rw [hzero]; exact anchor.1.width_pos.trans_le hle))]
    exact membersOf_ne_nil (scanFrom_subperm machine hanchor).subset (List.ne_nil_of_mem hmem)

/-- What `selectBatch` returns is chosen. -/
theorem chosen_selectBatch (remaining : List SizedOrder) (state : MachineState) :
    Chosen remaining state.machine (selectBatch remaining state) := by
  unfold selectBatch
  exact List.foldlRecOn _ _ (chosen_nil _ _) fun best hbest anchor hanchor ↦
    chosen_tryAnchor hbest hanchor

/-- What `selectBatch` returns is within the machine. -/
theorem fits_selectBatch {remaining : List SizedOrder} (hnodup : (idsOf remaining).Nodup)
    (state : MachineState) : Fits remaining state.machine (selectBatch remaining state) := by
  unfold selectBatch
  refine List.foldlRecOn _ _ ?_ fun best hbest anchor hanchor ↦ fits_tryAnchor hnodup hbest hanchor
  exact ⟨List.nil_sublist _, rfl, fun h ↦ absurd rfl h, fun h ↦ absurd rfl h⟩

/-- When the scan from a remaining order that fits reaches the minimum width, `selectBatch` returns
a batch. -/
theorem batch_selectBatch_ne_nil_of_scan {remaining : List SizedOrder} {state : MachineState}
    {anchor : SizedOrder × ℕ} (hanchor : anchor ∈ remaining.zipIdx)
    (hmax : anchor.1.width ≤ state.machine.maxWidth)
    (hmin : state.machine.minWidth ≤ (scanFrom remaining state.machine anchor).2) :
    (selectBatch remaining state).batch ≠ [] := by
  obtain ⟨before, after, hsplit⟩ := List.append_of_mem hanchor
  unfold selectBatch
  rw [hsplit, List.foldl_append, List.foldl_cons]
  have hbest : Chosen remaining state.machine
      (before.foldl (tryAnchor remaining state.machine) ⟨[], 0, []⟩) := by
    refine List.foldlRecOn _ _ (chosen_nil _ _) fun best hbest anchor hmem ↦
      chosen_tryAnchor hbest ?_
    rw [hsplit]
    exact List.mem_append_left _ hmem
  refine List.foldlRecOn (motive := fun best : Selection ↦ best.batch ≠ []) _ _
    (batch_tryAnchor_ne_nil_of_fits hbest hanchor hmax hmin)
    fun best hne anchor hmem ↦ batch_tryAnchor_ne_nil hne ?_
  rw [hsplit]
  exact List.mem_append_right _ (List.mem_cons_of_mem _ hmem)

/-- When a remaining order alone fits the machine, `selectBatch` returns a batch. -/
theorem batch_selectBatch_ne_nil {remaining : List SizedOrder} {state : MachineState}
    {sized : SizedOrder} (hsized : sized ∈ remaining) (hmin : state.machine.minWidth ≤ sized.width)
    (hmax : sized.width ≤ state.machine.maxWidth) : (selectBatch remaining state).batch ≠ [] := by
  obtain ⟨index, hindex⟩ := List.mem_iff_getElem?.mp hsized
  have hanchor : (sized, index) ∈ remaining.zipIdx := List.mk_mem_zipIdx_iff_getElem?.mpr hindex
  exact batch_selectBatch_ne_nil_of_scan hanchor hmax (hmin.trans (anchor_mem_scanFrom hmax).2)

/-! ### Candidates -/

/-- A compatible machine is active and supports the signature, and conversely. -/
theorem machineCompatible_iff (state : MachineState) (signature : ProductionSignature) :
    MachineCompatible state signature ↔
      state.machine.isActive ∧ Supports state.machine signature := by
  unfold MachineCompatible Supports MachineState.categoryIds MachineState.patternNames
  rw [casefold_eq_empty_iff]
  tauto

/-- The members of a group: distinct orders with one signature, all counted in metres or none, and
complete whenever there are several. -/
structure Uniform (signature : ProductionSignature) (remaining : List SizedOrder) : Prop where
  nodup : (idsOf remaining).Nodup
  signature_eq : ∀ sized ∈ remaining, productionSignature sized.order = signature
  sameUnit : ∀ first ∈ remaining, ∀ second ∈ remaining,
    (first.order.unit = "m" ↔ second.order.unit = "m")
  complete : 1 < remaining.length → signature.CompleteForMerge

theorem Uniform.sublist {signature : ProductionSignature} {remaining rest : List SizedOrder}
    (h : Uniform signature remaining) (hsub : rest.Sublist remaining) : Uniform signature rest where
  nodup := h.nodup.sublist (hsub.map _)
  signature_eq sized hsized := h.signature_eq sized (hsub.subset hsized)
  sameUnit first hfirst second hsecond :=
    h.sameUnit first (hsub.subset hfirst) second (hsub.subset hsecond)
  complete hlength := h.complete (hlength.trans_le hsub.length_le)

/-- A nonempty selection of a uniform group is producible on a compatible machine. -/
theorem producible_selection {signature : ProductionSignature} {remaining : List SizedOrder}
    (huniform : Uniform signature remaining) {machine : Machine} {selection : Selection}
    (hfits : Fits remaining machine selection) (hne : selection.batch ≠ [])
    (hactive : machine.isActive) (hsupports : Supports machine signature) :
    Producible machine (selection.batch.map SizedOrder.order) selection.totalWidth := by
  have hbatch := huniform.sublist hfits.sublist
  refine ⟨hactive, by simpa using hne, ?_, ?_, ?_, ?_, ?_, hfits.minWidth_le hne,
    hfits.le_maxWidth hne⟩
  · simp only [List.forall_mem_map]
    exact hbatch.sameUnit
  · simp only [List.forall_mem_map]
    intro sized hsized
    rw [hbatch.signature_eq sized hsized]
    exact hsupports
  · simp only [List.forall_mem_map]
    intro sized _
    rw [sized.width_eq]
    rfl
  · rw [List.length_map]
    simp only [List.forall_mem_map]
    intro hlength first hfirst second hsecond
    unfold Mergeable
    rw [hbatch.signature_eq first hfirst, hbatch.signature_eq second hsecond]
    exact ⟨hbatch.complete hlength, hbatch.complete hlength, rfl⟩
  · rw [totalWidth_map_order, hfits.totalWidth_eq]

/-- What the loop keeps about the states: they belong to the machines in order, and when loads are
weights each has one. -/
structure Tracks (machines : List Machine) (basis : LoadBasis) (states : List MachineState) :
    Prop where
  machines_eq : states.map MachineState.machine = machines
  weighed : basis = .weightKg → ∀ state ∈ states, state.loadKg.isSome

/-- When loads are weights, the orders of a group have one. -/
def Weighed (basis : LoadBasis) (remaining : List SizedOrder) : Prop :=
  basis = .weightKg → ∀ sized ∈ remaining, (quantityKg sized.order).isSome

theorem isSome_batchQuantityKg {basis : LoadBasis} {remaining batch : List SizedOrder}
    (hweighed : Weighed basis remaining) (hsub : batch.Sublist remaining)
    (hbasis : basis = .weightKg) : (batchQuantityKg (batch.map SizedOrder.order)).isSome := by
  rw [isSome_batchQuantityKg_iff, List.forall_mem_map]
  exact fun sized hsized ↦ hweighed hbasis sized (hsub.subset hsized)

/-- The costs of a nonempty batch within a machine can be computed: the machine has a width, and
both loads are known when loads are weights. -/
theorem exists_changeoverKey {state : MachineState} {remaining : List SizedOrder}
    {selection : Selection} (hchosen : Chosen remaining state.machine selection)
    (hne : selection.batch ≠ []) {basis : LoadBasis}
    (hload : basis = .weightKg → state.loadKg.isSome) (hweighed : Weighed basis remaining)
    (signature : ProductionSignature) :
    ∃ key, changeoverKey state signature selection.totalWidth
      (batchQuantityKg (selection.batch.map SizedOrder.order)) basis = .ok key := by
  have hwidth : state.machine.maxWidth ≠ 0 := (hchosen.maxWidth_pos hne).ne'
  have hafter : ∃ load, loadAfter state
      (batchQuantityKg (selection.batch.map SizedOrder.order)) basis = .ok load := by
    cases basis with
    | taskCount => exact ⟨_, rfl⟩
    | weightKg =>
      obtain ⟨load, hload⟩ := Option.isSome_iff_exists.mp (hload rfl)
      obtain ⟨batchLoad, hbatch⟩ := Option.isSome_iff_exists.mp
        (isSome_batchQuantityKg hweighed hchosen.sublist rfl)
      rw [hbatch]
      unfold loadAfter
      rw [hload]
      exact ⟨_, rfl⟩
  obtain ⟨load, hafter⟩ := hafter
  unfold changeoverKey
  simp only [except_bind_eq_ok, ensure_eq_ok, exists_const, except_pure_eq_ok]
  exact ⟨_, hwidth, load, hafter, rfl⟩

/-- A candidate for a place among the states: the machine there is compatible, and the candidate
holds what `selectBatch` found for it. -/
structure IsCandidate (first : ProductionSignature) (remaining : List SizedOrder)
    (states : List MachineState) (candidate : Candidate) : Prop where
  state_eq : states[candidate.index]? = some candidate.state
  compatible : MachineCompatible candidate.state first
  selection_eq : candidate.selection = selectBatch remaining candidate.state
  nonempty : candidate.selection.batch ≠ []

/-- Looking for the candidate of one machine succeeds, and finds one exactly when the machine is
compatible and can take a batch. -/
theorem candidate?_spec {machines : List Machine} {basis : LoadBasis} {states : List MachineState}
    (htracks : Tracks machines basis states) {remaining : List SizedOrder}
    (hweighed : Weighed basis remaining)
    (signature first : ProductionSignature) {entry : MachineState × ℕ}
    (hentry : entry ∈ states.zipIdx) :
    ∃ result, candidate? basis signature first remaining entry = .ok result ∧
      (∀ candidate, result = some candidate → IsCandidate first remaining states candidate) ∧
      (MachineCompatible entry.1 first → (selectBatch remaining entry.1).batch ≠ [] →
        result ≠ none) := by
  have hget := List.mem_zipIdx_iff_getElem?.mp hentry
  have hstate : entry.1 ∈ states := List.mem_of_getElem? hget
  unfold candidate?
  dsimp only
  split_ifs with hcompatible hbatch
  · exact ⟨none, rfl, by simp, fun _ hne ↦ absurd hbatch hne⟩
  · obtain ⟨key, hkey⟩ := exists_changeoverKey (chosen_selectBatch remaining entry.1) hbatch
      (fun h ↦ htracks.weighed h entry.1 hstate) hweighed signature
    refine ⟨some ⟨key, entry.2, entry.1, selectBatch remaining entry.1⟩, ?_, ?_,
      fun _ _ ↦ Option.some_ne_none _⟩
    · simp only [except_bind_eq_ok, except_pure_eq_ok]
      exact ⟨key, hkey, rfl⟩
    · intro candidate hcandidate
      obtain rfl := Option.some.inj hcandidate
      exact ⟨hget, hcompatible, rfl, hbatch⟩
  · exact ⟨none, rfl, by simp, fun h ↦ absurd h hcompatible⟩

/-- Collecting the candidates succeeds. Each is a candidate of its machine, and every compatible
machine that can take a batch has one. -/
theorem candidates_spec {machines : List Machine} {basis : LoadBasis} {states : List MachineState}
    (htracks : Tracks machines basis states) {remaining : List SizedOrder}
    (hweighed : Weighed basis remaining)
    (signature first : ProductionSignature) :
    ∃ found, candidates basis signature first remaining states = .ok found ∧
      (∀ candidate ∈ found, IsCandidate first remaining states candidate) ∧
      (found = [] → ∀ state ∈ states, MachineCompatible state first →
        (selectBatch remaining state).batch = []) := by
  have hspec := fun entry (hentry : entry ∈ states.zipIdx) ↦
    candidate?_spec htracks hweighed signature first hentry
  obtain ⟨results, hresults, hfrom, hto⟩ := exists_mapM_eq_ok fun entry hentry ↦
    (hspec entry hentry).imp fun _ h ↦ h.1
  refine ⟨results.reduceOption, ?_, ?_, ?_⟩
  · unfold candidates
    simp only [except_bind_eq_ok, except_pure_eq_ok]
    exact ⟨results, hresults, rfl⟩
  · intro candidate hcandidate
    obtain ⟨entry, hentry, heq⟩ := hfrom _ (List.reduceOption_mem_iff.mp hcandidate)
    obtain ⟨result, hresult, hcandidates, -⟩ := hspec entry hentry
    exact hcandidates candidate (Except.ok.inj (hresult.symm.trans heq))
  · intro hnil state hstate hcompatible
    by_contra hne
    obtain ⟨index, hindex⟩ := List.mem_iff_getElem?.mp hstate
    have hentry : (state, index) ∈ states.zipIdx := List.mk_mem_zipIdx_iff_getElem?.mpr hindex
    obtain ⟨result, hresult, -, hfound⟩ := hspec _ hentry
    obtain ⟨found, hmem, heq⟩ := hto _ hentry
    obtain ⟨candidate, rfl⟩ := Option.ne_none_iff_exists'.mp (hfound hcompatible hne)
    obtain rfl := Except.ok.inj (hresult.symm.trans heq)
    have hcandidate := List.reduceOption_mem_iff.mpr hmem
    rw [hnil] at hcandidate
    cases hcandidate

/-! ### Accounts of orders -/

/-- A task of a plan is for a batch on a machine: it names them, without a draft identifier yet, and
the machine can produce the batch with the width the task states. -/
structure TaskFor (machine : Machine) (batch : List Order) (task : ProposedTask) : Prop where
  draftTaskId_eq : task.draftTaskId = none
  machineId_eq : task.machineId = machine.id
  orderIds_eq : task.orderIds = batch.map Order.id
  producible : Producible machine batch task.totalWidth

/-- Tasks and unassigned orders account for orders on machines: together they hold each order once,
every task is for a batch of the orders on one of the machines, and no machine can produce an
unassigned order alone. -/
structure Planned (machines : List Machine) (orders : List Order) (tasks : List ProposedTask)
    (unassigned : List UnassignedOrder) : Prop where
  perm : (tasks.flatMap ProposedTask.orderIds ++ unassigned.map UnassignedOrder.orderId).Perm
    (orders.map Order.id)
  taskFor : ∀ task ∈ tasks, ∃ machine ∈ machines, ∃ batch, (∀ order ∈ batch, order ∈ orders) ∧
    TaskFor machine batch task
  stranded : ∀ row ∈ unassigned, ∃ order ∈ orders, order.id = row.orderId ∧
    ∀ machine ∈ machines, ∀ total, ¬ Producible machine [order] total

theorem planned_nil (machines : List Machine) : Planned machines [] [] [] :=
  ⟨List.Perm.refl _, by simp, by simp⟩

/-- Accounts of two lists of orders add up. -/
theorem Planned.append {machines : List Machine} {orders orders' : List Order}
    {tasks tasks' : List ProposedTask} {unassigned unassigned' : List UnassignedOrder}
    (h : Planned machines orders tasks unassigned)
    (h' : Planned machines orders' tasks' unassigned') :
    Planned machines (orders ++ orders') (tasks ++ tasks') (unassigned ++ unassigned') where
  perm := by
    rw [List.flatMap_append, List.map_append, List.map_append]
    refine List.Perm.trans ?_ (h.perm.append h'.perm)
    simp only [List.append_assoc]
    refine List.Perm.append_left _ ?_
    simp only [← List.append_assoc]
    exact List.Perm.append_right _ List.perm_append_comm
  taskFor := by
    intro task htask
    rcases List.mem_append.mp htask with htask | htask
    · obtain ⟨machine, hmachine, batch, hbatch, hfor⟩ := h.taskFor task htask
      exact ⟨machine, hmachine, batch, fun o ho ↦ List.mem_append_left _ (hbatch o ho), hfor⟩
    · obtain ⟨machine, hmachine, batch, hbatch, hfor⟩ := h'.taskFor task htask
      exact ⟨machine, hmachine, batch, fun o ho ↦ List.mem_append_right _ (hbatch o ho), hfor⟩
  stranded := by
    intro row hrow
    rcases List.mem_append.mp hrow with hrow | hrow
    · obtain ⟨order, horder, hstranded⟩ := h.stranded row hrow
      exact ⟨order, List.mem_append_left _ horder, hstranded⟩
    · obtain ⟨order, horder, hstranded⟩ := h'.stranded row hrow
      exact ⟨order, List.mem_append_right _ horder, hstranded⟩

theorem Planned.of_perm {machines : List Machine} {orders orders' : List Order}
    {tasks : List ProposedTask} {unassigned : List UnassignedOrder}
    (h : Planned machines orders tasks unassigned) (hperm : orders.Perm orders') :
    Planned machines orders' tasks unassigned where
  perm := h.perm.trans (hperm.map _)
  taskFor := by
    intro task htask
    obtain ⟨machine, hmachine, batch, hbatch, hfor⟩ := h.taskFor task htask
    exact ⟨machine, hmachine, batch, fun o ho ↦ hperm.mem_iff.mp (hbatch o ho), hfor⟩
  stranded := by
    intro row hrow
    obtain ⟨order, horder, hstranded⟩ := h.stranded row hrow
    exact ⟨order, hperm.mem_iff.mp horder, hstranded⟩

/-- One task accounts for its batch. -/
theorem planned_task {machines : List Machine} {machine : Machine} (hmachine : machine ∈ machines)
    {batch : List Order} {task : ProposedTask} (h : TaskFor machine batch task) :
    Planned machines batch [task] [] where
  perm := by simp [h.orderIds_eq]
  taskFor := by
    intro t ht
    obtain rfl := List.mem_singleton.mp ht
    exact ⟨machine, hmachine, batch, fun _ ho ↦ ho, h⟩
  stranded := by simp

/-- Unassigned rows account for orders that no machine can produce alone. -/
theorem planned_unassigned (machines : List Machine) (orders : List Order)
    (states : List MachineState)
    (h : ∀ order ∈ orders, ∀ machine ∈ machines, ∀ total, ¬ Producible machine [order] total) :
    Planned machines orders []
      (orders.map (fun order ↦ unassignedRow states (orderProfile order))) where
  perm := by
    rw [List.map_map]
    exact List.Perm.refl _
  taskFor := by simp
  stranded := by
    rw [List.forall_mem_map]
    exact fun order horder ↦ ⟨order, horder, rfl, h order horder⟩

/-! ### The loop over a group -/

theorem Tracks.assign {machines : List Machine} {basis : LoadBasis} {planning : Planning}
    (htracks : Tracks machines basis planning.states) {first signature : ProductionSignature}
    {remaining : List SizedOrder} {candidate : Candidate} (hweighed : Weighed basis remaining)
    (hcandidate : IsCandidate first remaining planning.states candidate)
    (hsub : candidate.selection.batch.Sublist remaining) :
    Tracks machines basis (planning.assign basis signature candidate).states where
  machines_eq := by
    obtain ⟨hlt, hget⟩ := List.getElem?_eq_some_iff.mp hcandidate.state_eq
    change (planning.states.set candidate.index (stateAfter signature candidate)).map
      MachineState.machine = machines
    rw [List.map_set, ← htracks.machines_eq]
    change (planning.states.map MachineState.machine).set candidate.index
      candidate.state.machine = _
    rw [← hget, ← List.getElem_map MachineState.machine, List.set_getElem_self]
    rwa [List.length_map]
  weighed := by
    intro hbasis state hstate
    rcases List.mem_or_eq_of_mem_set hstate with hstate | rfl
    · exact htracks.weighed hbasis state hstate
    · obtain ⟨load, hload⟩ := Option.isSome_iff_exists.mp
        (htracks.weighed hbasis candidate.state (List.mem_of_getElem? hcandidate.state_eq))
      obtain ⟨batchLoad, hbatch⟩ := Option.isSome_iff_exists.mp
        (isSome_batchQuantityKg hweighed hsub hbasis)
      change ((candidate.state.loadKg).bind fun load ↦
        (batchQuantityKg (candidate.selection.batch.map SizedOrder.order)).map (load + ·)).isSome
      rw [hload, hbatch]
      rfl

/-- The remaining orders are a batch of them and those without it. -/
theorem batch_append_withoutBatch_perm {batch remaining : List SizedOrder}
    (hnodup : (idsOf remaining).Nodup) (hsub : batch.Sublist remaining) :
    (batch ++ withoutBatch batch remaining).Perm remaining := by
  have hperm := (membersOf_perm hnodup hsub.subperm).symm
  refine (hperm.append_right _).trans ?_
  unfold membersOf withoutBatch
  simp only [decide_not]
  exact List.filter_append_perm _ _

/-- When no machine has a candidate, no machine can produce a remaining order alone. -/
theorem not_producible_of_no_candidate {signature : ProductionSignature}
    {remaining : List SizedOrder} (huniform : Uniform signature remaining)
    {states : List MachineState}
    (hnone : ∀ state ∈ states, MachineCompatible state signature →
      (selectBatch remaining state).batch = [])
    {sized : SizedOrder} (hsized : sized ∈ remaining) {state : MachineState}
    (hstate : state ∈ states) (total : ℚ) :
    ¬ Producible state.machine [sized.order] total := by
  rw [producible_singleton_iff, sized.width_eq, huniform.signature_eq sized hsized]
  rintro ⟨hactive, hsupports, hwidth, hmin, hmax⟩
  obtain rfl := Option.some.inj hwidth
  exact batch_selectBatch_ne_nil hsized hmin hmax
    (hnone state hstate ((machineCompatible_iff state signature).mpr ⟨hactive, hsupports⟩))

/-- A batch that is taken leaves fewer orders. -/
theorem length_withoutBatch_lt {batch remaining : List SizedOrder} (hsub : batch.Sublist remaining)
    (hne : batch ≠ []) : (withoutBatch batch remaining).length < remaining.length := by
  obtain ⟨sized, hsized⟩ := List.exists_mem_of_ne_nil batch hne
  refine List.length_filter_lt_length_iff_exists.mpr ⟨sized, hsub.subset hsized, ?_⟩
  rw [decide_eq_true_eq, not_not]
  exact List.mem_map_of_mem hsized

/-- One round of the loop over a group: what remains is given up, when no machine has a batch of it,
or the batch of a candidate becomes a task. -/
theorem planGroup_round {machines : List Machine} {basis : LoadBasis}
    {signature : ProductionSignature} {remaining : List SizedOrder} {planning : Planning}
    (fuel : ℕ) (hne : remaining ≠ [])
    (hsignature : ∀ sized ∈ remaining, sized.info.signature = signature)
    (hweighed : Weighed basis remaining) (htracks : Tracks machines basis planning.states) :
    (Scheduling.planGroup basis signature (fuel + 1) remaining planning =
        .ok (planning.giveUp remaining) ∧
      ∀ state ∈ planning.states, MachineCompatible state signature →
        (selectBatch remaining state).batch = []) ∨
    ∃ candidate, IsCandidate signature remaining planning.states candidate ∧
      Scheduling.planGroup basis signature (fuel + 1) remaining planning =
        Scheduling.planGroup basis signature fuel
          (withoutBatch candidate.selection.batch remaining)
          (planning.assign basis signature candidate) := by
  obtain ⟨first, rest, rfl⟩ := List.exists_cons_of_ne_nil hne
  obtain ⟨found, hfound, hcandidates, hnone⟩ := candidates_spec htracks hweighed
    signature first.info.signature
  rw [hsignature first List.mem_cons_self] at hcandidates hnone
  cases hbest : minBy Candidate.key found with
  | none =>
    refine .inl ⟨?_, hnone (minBy_eq_none_iff.mp hbest)⟩
    rw [Scheduling.planGroup, hfound]
    simp only [bind, Except.bind, hbest]
    rfl
  | some candidate =>
    refine .inr ⟨candidate, hcandidates candidate (mem_of_minBy_eq_some hbest), ?_⟩
    rw [Scheduling.planGroup, hfound]
    simp only [bind, Except.bind, hbest]

/-- An account of orders by tasks and rows that the loops of the planner keep. What is left of a
group, which has its `shape`, is given up when no machine has a candidate, or loses the batch of a
candidate to a task; and the accounts of two groups make one. -/
structure Accounting (machines : List Machine) (basis : LoadBasis)
    (shape : ProductionSignature → List SizedOrder → Prop)
    (account : List SizedOrder → List ProposedTask → List UnassignedOrder → Prop) : Prop where
  sublist : ∀ {signature remaining rest}, shape signature remaining → rest.Sublist remaining →
    shape signature rest
  signature_eq : ∀ {signature remaining}, shape signature remaining → ∀ sized ∈ remaining,
    sized.info.signature = signature
  nil : account [] [] []
  append : ∀ {orders orders' tasks tasks' rows rows'}, account orders tasks rows →
    account orders' tasks' rows' → account (orders ++ orders') (tasks ++ tasks') (rows ++ rows')
  giveUp : ∀ {signature remaining states}, shape signature remaining →
    Tracks machines basis states →
    (∀ state ∈ states, MachineCompatible state signature →
      (selectBatch remaining state).batch = []) →
    account remaining [] (remaining.map (fun sized ↦ unassignedRow states sized.info))
  assign : ∀ {signature remaining states candidate tasks rows}, shape signature remaining →
    Tracks machines basis states → IsCandidate signature remaining states candidate →
    account (withoutBatch candidate.selection.batch remaining) tasks rows →
    account remaining (proposedTask basis signature candidate :: tasks) rows

section Accounting

variable {machines : List Machine} {basis : LoadBasis} {signature : ProductionSignature}
  {shape : ProductionSignature → List SizedOrder → Prop}
  {account : List SizedOrder → List ProposedTask → List UnassignedOrder → Prop}

/-- The loop over a group returns whenever its fuel is at least the number of orders, and adds an
account of the orders to the tasks and the unassigned orders. -/
theorem Accounting.planGroup (h : Accounting machines basis shape account) (fuel : ℕ) :
    ∀ (remaining : List SizedOrder) (planning : Planning), remaining.length ≤ fuel →
      shape signature remaining → Weighed basis remaining →
      Tracks machines basis planning.states →
      ∃ planning' tasks rows,
        Scheduling.planGroup basis signature fuel remaining planning = .ok planning' ∧
          Tracks machines basis planning'.states ∧
          planning'.tasks = planning.tasks ++ tasks ∧
          planning'.unassigned = planning.unassigned ++ rows ∧
          account remaining tasks rows := by
  induction fuel with
  | zero =>
    intro remaining planning hfuel _ _ htracks
    obtain rfl := List.eq_nil_of_length_eq_zero (Nat.le_zero.mp hfuel)
    exact ⟨planning, [], [], by simp [Scheduling.planGroup], htracks, by simp, by simp, h.nil⟩
  | succ fuel ih =>
    intro remaining planning hfuel hshape hweighed htracks
    by_cases hne : remaining = []
    · subst hne
      exact ⟨planning, [], [], by simp [Scheduling.planGroup], htracks, by simp, by simp, h.nil⟩
    · rcases planGroup_round fuel hne (h.signature_eq hshape) hweighed htracks with
        ⟨hround, hnone⟩ | ⟨candidate, hcandidate, hround⟩
      · exact ⟨_, [], remaining.map (fun sized ↦ unassignedRow planning.states sized.info), hround,
          htracks, (List.append_nil _).symm, rfl, h.giveUp hshape htracks hnone⟩
      · have hsub : candidate.selection.batch.Sublist remaining := by
          rw [hcandidate.selection_eq]
          exact (chosen_selectBatch remaining candidate.state).sublist
        have hrest : (withoutBatch candidate.selection.batch remaining).Sublist remaining :=
          List.filter_sublist
        have hlength := length_withoutBatch_lt hsub hcandidate.nonempty
        obtain ⟨planning', tasks, rows, hplan, htracks', htasks, hrows, haccount⟩ :=
          ih (withoutBatch candidate.selection.batch remaining)
            (planning.assign basis signature candidate) (by omega) (h.sublist hshape hrest)
            (fun hbasis sized hsized ↦ hweighed hbasis sized (hrest.subset hsized))
            (htracks.assign hweighed hcandidate hsub)
        refine ⟨planning', proposedTask basis signature candidate :: tasks, rows,
          hround.trans hplan, htracks', ?_, hrows, h.assign hshape htracks hcandidate haccount⟩
        rw [htasks]
        change (planning.tasks ++ [_]) ++ tasks = _
        rw [List.append_assoc, List.singleton_append]

/-- The loop over the groups adds an account of all their orders. -/
theorem Accounting.planGroups (h : Accounting machines basis shape account)
    (groups : List (GroupKey × List SizedOrder)) :
    ∀ planning : Planning,
      (∀ group ∈ groups, shape group.1.signature group.2 ∧ Weighed basis group.2) →
      Tracks machines basis planning.states →
      ∃ planning' tasks rows,
        groups.foldlM (fun planning group ↦
          Scheduling.planGroup basis group.1.signature group.2.length group.2 planning) planning
            = .ok planning' ∧
          planning'.tasks = planning.tasks ++ tasks ∧
          planning'.unassigned = planning.unassigned ++ rows ∧
          account (groups.flatMap Prod.snd) tasks rows := by
  induction groups with
  | nil =>
    intro planning _ _
    exact ⟨planning, [], [], rfl, by simp, by simp, h.nil⟩
  | cons group groups ih =>
    intro planning hgroups htracks
    obtain ⟨hshape, hweighed⟩ := hgroups group List.mem_cons_self
    obtain ⟨middle, tasks, rows, hplan, htracks', htasks, hrows, haccount⟩ :=
      h.planGroup group.2.length group.2 planning le_rfl hshape hweighed htracks
    obtain ⟨planning', tasks', rows', hplan', htasks', hrows', haccount'⟩ :=
      ih middle (fun g hg ↦ hgroups g (List.mem_cons_of_mem _ hg)) htracks'
    refine ⟨planning', tasks ++ tasks', rows ++ rows', ?_, ?_, ?_, ?_⟩
    · rw [List.foldlM_cons, hplan]
      exact hplan'
    · rw [htasks', htasks, List.append_assoc]
    · rw [hrows', hrows, List.append_assoc]
    · rw [List.flatMap_cons]
      exact h.append haccount haccount'

end Accounting

/-! ### The whole proposal -/

theorem order_of_sized? {order : Order} {sized : SizedOrder} (h : sized? order = some sized) :
    sized.order = order := by
  unfold sized? at h
  split at h
  · obtain rfl := Option.some.inj h
    rfl
  · cases h

theorem sized?_eq_none_iff (order : Order) :
    sized? order = none ↔ (orderProfile order).width = none := by
  unfold sized?
  split
  · next width hwidth => simp [hwidth]
  · next hwidth => simp [hwidth]

/-- The orders with a recognised width, in order. -/
theorem map_order_filterMap_sized? (orders : List Order) :
    (orders.filterMap sized?).map SizedOrder.order =
      orders.filter (fun order ↦ (orderProfile order).width.isSome) := by
  induction orders with
  | nil => rfl
  | cons order orders ih =>
    cases h : sized? order with
    | none =>
      have hwidth := (sized?_eq_none_iff order).mp h
      rw [List.filterMap_cons_none h, List.filter_cons_of_neg (by simp [hwidth]), ih]
    | some sized =>
      have hwidth := mt (sized?_eq_none_iff order).mpr (h ▸ Option.some_ne_none sized)
      rw [List.filterMap_cons_some h, List.map_cons, order_of_sized? h, ih,
        List.filter_cons_of_pos (by simpa [Option.isSome_iff_ne_none] using hwidth)]

/-- A group of distinct orders by key is uniform: an order that may not be merged is alone with its
identifier in the key. -/
theorem uniform_group {sized : List SizedOrder} (hnodup : (idsOf sized).Nodup)
    {group : GroupKey × List SizedOrder} (hgroup : group ∈ Batching.groupBy groupKey sized) :
    Uniform group.1.signature group.2 := by
  have hkey : ∀ member ∈ group.2, groupKey member = group.1 :=
    fun member hmember ↦ Batching.key_of_mem_groupBy hgroup hmember
  have hids : (idsOf group.2).Nodup := by
    have hsub : group.2.Subperm sized := by
      have hsublist : group.2.Sublist ((Batching.groupBy groupKey sized).flatMap Prod.snd) :=
        List.sublist_flatten_of_mem (List.mem_map_of_mem hgroup)
      exact hsublist.subperm.trans (Batching.groupBy_perm groupKey sized).subperm
    obtain ⟨members, hperm, hsublist⟩ := hsub
    exact (hperm.map _).nodup_iff.mp (hnodup.sublist (hsublist.map _))
  refine ⟨hids, ?_, ?_, ?_⟩
  · intro member hmember
    rw [← hkey member hmember]
    rfl
  · intro first hfirst second hsecond
    have hmeter := congrArg GroupKey.meter ((hkey first hfirst).trans (hkey second hsecond).symm)
    exact decide_eq_decide.mp hmeter
  · intro hlength
    match hmembers : group.2 with
    | [] => simp [hmembers] at hlength
    | [_] => simp [hmembers] at hlength
    | first :: second :: rest =>
      by_contra hincomplete
      rw [hmembers] at hkey hids
      have hdiscriminator : ∀ member ∈ first :: second :: rest,
          group.1.discriminator = some member.order.id := by
        intro member hmember
        have hsignature : ¬ member.info.signature.CompleteForMerge := by
          have heq := congrArg GroupKey.signature (hkey member hmember)
          change member.info.signature = _ at heq
          rwa [heq]
        rw [← hkey member hmember]
        simp only [groupKey, if_neg hsignature]
      have hfirst := hdiscriminator first List.mem_cons_self
      have hsecond := hdiscriminator second (List.mem_cons_of_mem _ List.mem_cons_self)
      have hid : first.order.id = second.order.id := Option.some.inj (hfirst.symm.trans hsecond)
      have hne := (List.nodup_cons.mp hids).1
      exact hne (List.mem_map.mpr ⟨second, List.mem_cons_self, hid.symm⟩)

/-- The machines as they are at the start of the planning. -/
theorem tracks_machineState (orders : List Order) (machines : List LoadedMachine) :
    Tracks (machines.map LoadedMachine.machine) (loadBasis orders machines)
      (machines.map machineState) := by
  refine ⟨by rw [List.map_map]; rfl, fun hweight state hstate ↦ ?_⟩
  obtain ⟨machine, hmachine, rfl⟩ := List.mem_map.mp hstate
  exact (isSome_batchQuantityKg_iff _).mpr
    ((isSome_quantityKg_of_loadBasis hweight).2 machine hmachine)

theorem mem_sized_iff {orders : List Order} {member : SizedOrder} :
    member ∈ (Batching.groupBy groupKey (orders.filterMap sized?)).flatMap Prod.snd ↔
      member ∈ orders.filterMap sized? :=
  (Batching.groupBy_perm groupKey _).mem_iff

theorem mem_orders_of_mem_sized {orders : List Order} {member : SizedOrder}
    (h : member ∈ orders.filterMap sized?) : member.order ∈ orders := by
  obtain ⟨order, horder, hsized⟩ := List.mem_filterMap.mp h
  exact order_of_sized? hsized ▸ horder

/-- The planner returns, whatever the orders and the machines, and adds an account of the orders
with a width to the rows of those without. -/
theorem Accounting.buildTasks {orders : List Order} {machines : List LoadedMachine}
    {shape : ProductionSignature → List SizedOrder → Prop}
    {account : List SizedOrder → List ProposedTask → List UnassignedOrder → Prop}
    (h : Accounting (machines.map LoadedMachine.machine) (loadBasis orders machines) shape account)
    (hshape : ∀ group ∈ Batching.groupBy groupKey (orders.filterMap sized?),
      shape group.1.signature group.2) :
    ∃ tasks rows, Scheduling.buildTasks orders machines =
        .ok ⟨tasks, ((orders.map orderProfile).filter (·.width.isNone)).map
          (unassignedRow (machines.map machineState)) ++ rows⟩ ∧
      account ((Batching.groupBy groupKey (orders.filterMap sized?)).flatMap Prod.snd) tasks
        rows := by
  have hgroups : ∀ group ∈ Batching.groupBy groupKey (orders.filterMap sized?),
      shape group.1.signature group.2 ∧ Weighed (loadBasis orders machines) group.2 := by
    refine fun group hgroup ↦ ⟨hshape group hgroup, fun hweight member hmember ↦ ?_⟩
    refine (isSome_quantityKg_of_loadBasis hweight).1 member.order (mem_orders_of_mem_sized ?_)
    exact mem_sized_iff.mp (List.mem_flatMap.mpr ⟨group, hgroup, hmember⟩)
  obtain ⟨⟨states, planned, unassigned⟩, tasks, rows, hplan, htasks, hrows, haccount⟩ :=
    h.planGroups (Batching.groupBy groupKey (orders.filterMap sized?))
      ⟨machines.map machineState, [], ((orders.map orderProfile).filter (·.width.isNone)).map
        (unassignedRow (machines.map machineState))⟩ hgroups (tracks_machineState orders machines)
  obtain rfl : planned = tasks := htasks
  obtain rfl := hrows
  refine ⟨planned, rows, ?_, haccount⟩
  unfold Scheduling.buildTasks
  simp only [except_bind_eq_ok, except_pure_eq_ok]
  exact ⟨_, hplan, rfl⟩

/-- The planner makes up a plan of the orders of a uniform group. -/
theorem accounting_planned (machines : List Machine) (basis : LoadBasis) :
    Accounting machines basis Uniform
      (fun sized tasks rows ↦ Planned machines (sized.map SizedOrder.order) tasks rows) where
  sublist := Uniform.sublist
  signature_eq := Uniform.signature_eq
  nil := planned_nil machines
  append h h' := by
    rw [List.map_append]
    exact h.append h'
  giveUp {signature remaining states} huniform htracks hnone := by
    have hplanned := planned_unassigned machines (remaining.map SizedOrder.order) states ?_
    · rwa [List.map_map] at hplanned
    · rw [List.forall_mem_map]
      intro sized hsized machine hmachine total
      rw [← htracks.machines_eq] at hmachine
      obtain ⟨state, hstate, rfl⟩ := List.mem_map.mp hmachine
      exact not_producible_of_no_candidate huniform hnone hsized hstate total
  assign {signature remaining states candidate tasks rows}
    huniform htracks hcandidate hplanned := by
    have hfits : Fits remaining candidate.state.machine candidate.selection := by
      rw [hcandidate.selection_eq]
      exact fits_selectBatch huniform.nodup candidate.state
    have hmachine : candidate.state.machine ∈ machines := by
      rw [← htracks.machines_eq]
      exact List.mem_map_of_mem (List.mem_of_getElem? hcandidate.state_eq)
    obtain ⟨hactive, hsupports⟩ := (machineCompatible_iff candidate.state _).mp
      hcandidate.compatible
    have htask : TaskFor candidate.state.machine (candidate.selection.batch.map SizedOrder.order)
        (proposedTask basis signature candidate) :=
      ⟨rfl, rfl, rfl, producible_selection huniform hfits hcandidate.nonempty hactive hsupports⟩
    refine ((planned_task hmachine htask).append hplanned).of_perm ?_
    rw [← List.map_append]
    exact (batch_append_withoutBatch_perm huniform.nodup hfits.sublist).map _

/-- The planner returns a proposal that accounts for the orders, whatever the machines. -/
theorem buildTasks_planned (orders : List Order) (machines : List LoadedMachine)
    (hnodup : (orders.map Order.id).Nodup) :
    ∃ proposal, buildTasks orders machines = .ok proposal ∧
      Planned (machines.map LoadedMachine.machine) orders proposal.tasks
        proposal.unassigned := by
  set sized := orders.filterMap sized? with hsized
  have hsizedOrders := map_order_filterMap_sized? orders
  rw [← hsized] at hsizedOrders
  have hids : (idsOf sized).Nodup := by
    have heq : idsOf sized = (sized.map SizedOrder.order).map Order.id := by
      rw [List.map_map]
      rfl
    rw [heq, hsizedOrders]
    exact hnodup.sublist (List.filter_sublist.map _)
  set unsized := orders.filter (fun order ↦ (orderProfile order).width.isNone) with hunsized
  have hrows : ((orders.map orderProfile).filter (·.width.isNone)).map
      (unassignedRow (machines.map machineState)) =
      unsized.map (fun order ↦ unassignedRow (machines.map machineState) (orderProfile order)) := by
    rw [List.filter_map, List.map_map, hunsized]
    simp only [Function.comp_def]
  have hstranded : ∀ order ∈ unsized, ∀ machine ∈ machines.map LoadedMachine.machine,
      ∀ total, ¬ Producible machine [order] total := by
    intro order horder machine _ total hproducible
    have hsome := hproducible.sized order List.mem_cons_self
    have hnone := (List.mem_filter.mp horder).2
    rw [Option.isSome_iff_ne_none] at hsome
    exact hsome (Option.isNone_iff_eq_none.mp hnone)
  obtain ⟨tasks, rows, hbuild, hplanned⟩ :=
    (accounting_planned _ (loadBasis orders machines)).buildTasks
      fun group hgroup ↦ uniform_group hids hgroup
  refine ⟨_, hbuild, ?_⟩
  have hall := (planned_unassigned _ unsized (machines.map machineState) hstranded).append hplanned
  rw [hrows]
  refine hall.of_perm ?_
  refine (List.Perm.append_left unsized
    ((Batching.groupBy_perm groupKey sized).map SizedOrder.order)).trans ?_
  rw [hsizedOrders]
  have hsplit := List.filter_append_perm (fun order ↦ (orderProfile order).width.isNone) orders
  simpa only [Option.not_isNone] using hsplit

end FilmOS.Scheduling
