import FilmOS.Scheduling.PlannerLaws

/-!
# Feasible combinations

A combination is a nonempty part of the remaining orders whose total width a machine can take.
`selectBatch` searches for one greedily: it fills the machine from every remaining order in turn.

The batch it returns is always a combination (`combination_selectBatch`). It finds one exactly when
some combination can be filled from one of its members (`selectBatch_ne_nil_iff`): every order left
out overflows the machine together with the members scanned before it. So it loses nothing exactly
when a feasible combination entails one that can be filled (`losesNothing_iff`), and it does lose
some: of three orders of width 100, 500 and 500 on a machine for widths from 950 to 1000, each of
the two wide orders is filled up with the narrow one first (`not_losesNothing_strips`).
-/

set_option autoImplicit false
set_option relaxedAutoImplicit false

namespace FilmOS.Scheduling

open Production PythonText Numeral Transaction

/-! ### Combinations -/

instance : DecidableEq SizedOrder := fun left right ↦
  decidable_of_iff (left.order = right.order ∧ left.width = right.width)
    (by cases left; cases right; simp)

/-- A nonempty part of the remaining orders whose total width is between the bounds of a machine. -/
structure Combination (remaining : List SizedOrder) (machine : Machine) (batch : List SizedOrder) :
    Prop where
  ne_nil : batch ≠ []
  sublist : batch.Sublist remaining
  minWidth_le : machine.minWidth ≤ (batch.map SizedOrder.width).sum
  le_maxWidth : (batch.map SizedOrder.width).sum ≤ machine.maxWidth

/-- An anchor and then every other remaining order. -/
def scanOrder (remaining : List SizedOrder) (anchor : SizedOrder) : List SizedOrder :=
  anchor :: remaining.filter (·.order.id ≠ anchor.order.id)

/-- A batch can be filled from one of its members: every order left out overflows the machine
together with the members that are scanned before it. -/
structure Fillable (remaining : List SizedOrder) (machine : Machine) (anchor : SizedOrder)
    (batch : List SizedOrder) : Prop where
  mem : anchor ∈ batch
  overflows : ∀ before sized after, scanOrder remaining anchor = before ++ sized :: after →
    sized ∉ batch →
      machine.maxWidth < ((before.filter (· ∈ batch)).map SizedOrder.width).sum + sized.width

/-- What `selectBatch` is to do: it returns no batch only when no combination is feasible, and a
batch it returns is an ordered part of the remaining orders whose width is the returned one and
between the bounds of the machine. -/
structure LosesNothing (remaining : List SizedOrder) (state : MachineState) : Prop where
  complete : (selectBatch remaining state).batch = [] →
    ¬ ∃ batch, Combination remaining state.machine batch
  sound : (selectBatch remaining state).batch ≠ [] →
    (selectBatch remaining state).batch.Sublist remaining ∧
    (selectBatch remaining state).totalWidth =
      ((selectBatch remaining state).batch.map SizedOrder.width).sum ∧
    state.machine.minWidth ≤ (selectBatch remaining state).totalWidth ∧
    (selectBatch remaining state).totalWidth ≤ state.machine.maxWidth

/-! ### Scans -/

/-- The remaining orders apart from the one at an index are those with other identifiers. -/
theorem eraseIdx_eq_filter {remaining : List SizedOrder} (hnodup : (idsOf remaining).Nodup)
    {anchor : SizedOrder} {index : ℕ} (h : remaining[index]? = some anchor) :
    remaining.eraseIdx index = remaining.filter (·.order.id ≠ anchor.order.id) := by
  obtain ⟨hlt, hget⟩ := List.getElem?_eq_some_iff.mp h
  have hsplit : remaining = remaining.take index ++ anchor :: remaining.drop (index + 1) := by
    rw [← hget, ← List.drop_eq_getElem_cons hlt, List.take_append_drop]
  rw [List.eraseIdx_eq_take_drop_succ]
  generalize remaining.take index = before at hsplit ⊢
  generalize remaining.drop (index + 1) = after at hsplit ⊢
  subst hsplit
  have hperm : (before ++ anchor :: after).Perm (anchor :: (before ++ after)) := List.perm_middle
  unfold idsOf at hnodup
  rw [(hperm.map _).nodup_iff, List.map_cons, List.nodup_cons] at hnodup
  have hne : ∀ sized ∈ before ++ after, sized.order.id ≠ anchor.order.id :=
    fun sized hsized heq ↦ hnodup.1 (heq ▸ List.mem_map_of_mem hsized)
  rw [List.filter_append, List.filter_cons_of_neg (by simp), ← List.filter_append]
  exact (List.filter_eq_self.mpr fun sized hsized ↦ by simpa using hne sized hsized).symm

/-- The scan from an anchor fills the machine in the scan order. -/
theorem scanFrom_eq_fill {remaining : List SizedOrder} (hnodup : (idsOf remaining).Nodup)
    {anchor : SizedOrder × ℕ} (hanchor : anchor ∈ remaining.zipIdx) (machine : Machine) :
    scanFrom remaining machine anchor =
      Batching.fill SizedOrder.width machine.maxWidth (scanOrder remaining anchor.1) := by
  unfold scanFrom scanOrder
  rw [eraseIdx_eq_filter hnodup (List.mem_zipIdx_iff_getElem?.mp hanchor)]

/-- The scan order is a permutation of the remaining orders. -/
theorem scanOrder_perm {remaining : List SizedOrder} (hnodup : (idsOf remaining).Nodup)
    {anchor : SizedOrder} (h : anchor ∈ remaining) :
    (scanOrder remaining anchor).Perm remaining := by
  obtain ⟨index, hindex⟩ := List.mem_iff_getElem?.mp h
  obtain ⟨hlt, hget⟩ := List.getElem?_eq_some_iff.mp hindex
  unfold scanOrder
  rw [← eraseIdx_eq_filter hnodup hindex, ← hget]
  exact List.getElem_cons_eraseIdx_perm hlt

/-- A combination that can be filled from a member is what the scan from that member takes. -/
theorem fill_of_fillable {remaining batch : List SizedOrder} (hnodup : (idsOf remaining).Nodup)
    {machine : Machine} {anchor : SizedOrder} (hbatch : Combination remaining machine batch)
    (hfillable : Fillable remaining machine anchor batch) :
    Batching.fill SizedOrder.width machine.maxWidth (scanOrder remaining anchor) =
      ((scanOrder remaining anchor).filter (· ∈ batch), (batch.map SizedOrder.width).sum) := by
  have hremaining : remaining.Nodup := hnodup.of_map _
  have hscan := scanOrder_perm hnodup (hbatch.sublist.subset hfillable.mem)
  have hperm : ((scanOrder remaining anchor).filter (· ∈ batch)).Perm batch := by
    have hfilter := hscan.filter (· ∈ batch)
    rwa [Batching.filter_mem_of_sublist hbatch.sublist hremaining] at hfilter
  have hsum := (hperm.map SizedOrder.width).sum_eq
  rw [← hsum]
  refine Batching.fill_eq_filter fun before sized after hsplit ↦ ?_
  rw [decide_eq_true_eq]
  refine ⟨fun hmem ↦ ?_, fun hfits ↦ ?_⟩
  · -- the members up to this one are among all members, which fit together
    refine le_trans ?_ (hsum.le.trans hbatch.le_maxWidth)
    rw [hsplit, List.filter_append, List.filter_cons_of_pos (by simpa using hmem), List.map_append,
      List.sum_append, List.map_cons, List.sum_cons, ← add_assoc]
    refine le_add_of_nonneg_right (List.sum_nonneg ?_)
    intro width hwidth
    obtain ⟨other, -, rfl⟩ := List.mem_map.mp hwidth
    exact other.width_pos.le
  · by_contra hout
    exact absurd hfits (not_le.mpr (hfillable.overflows before sized after hsplit hout))

/-! ### Selections -/

/-- A batch that `selectBatch` returns was scanned from one of the remaining orders. -/
theorem exists_scan_of_selectBatch_ne_nil {remaining : List SizedOrder} {state : MachineState}
    (h : (selectBatch remaining state).batch ≠ []) :
    ∃ anchor ∈ remaining.zipIdx, anchor.1.width ≤ state.machine.maxWidth ∧
      state.machine.minWidth ≤ (scanFrom remaining state.machine anchor).2 := by
  revert h
  unfold selectBatch
  refine List.foldlRecOn (motive := fun best : Selection ↦ best.batch ≠ [] → _) _ _
    (fun h ↦ absurd rfl h) fun best hbest anchor hanchor ↦ ?_
  unfold tryAnchor
  dsimp only
  split_ifs with hwide hbatch himproves
  · exact hbest
  · exact fun _ ↦ ⟨anchor, hanchor, not_lt.mp hwide, hbatch.2⟩
  · exact hbest
  · exact hbest

/-- A batch that `selectBatch` returns is a combination. -/
theorem combination_selectBatch {remaining : List SizedOrder} (hnodup : (idsOf remaining).Nodup)
    {state : MachineState} (h : (selectBatch remaining state).batch ≠ []) :
    Combination remaining state.machine (selectBatch remaining state).batch := by
  have hfits := fits_selectBatch hnodup state
  refine ⟨h, hfits.sublist, ?_, ?_⟩
  · rw [← hfits.totalWidth_eq]
    exact hfits.minWidth_le h
  · rw [← hfits.totalWidth_eq]
    exact hfits.le_maxWidth h

/-- What a scan takes, in the order of the remaining orders, can be filled from its anchor. -/
theorem fillable_of_scan {remaining : List SizedOrder} (hnodup : (idsOf remaining).Nodup)
    {machine : Machine} {anchor : SizedOrder × ℕ} (hanchor : anchor ∈ remaining.zipIdx)
    (hmax : anchor.1.width ≤ machine.maxWidth)
    (hmin : machine.minWidth ≤ (scanFrom remaining machine anchor).2) :
    ∃ batch, Combination remaining machine batch ∧ Fillable remaining machine anchor.1 batch := by
  have hscan := scanFrom_eq_fill hnodup hanchor machine
  have hperm := membersOf_perm hnodup (scanFrom_subperm machine hanchor)
  have htotal : ((membersOf (scanFrom remaining machine anchor).1 remaining).map
      SizedOrder.width).sum = (scanFrom remaining machine anchor).2 :=
    (hperm.map SizedOrder.width).sum_eq.trans (Batching.total_fill _ _ _).symm
  have hmem : anchor.1 ∈ (scanFrom remaining machine anchor).1 := (anchor_mem_scanFrom hmax).1
  refine ⟨membersOf (scanFrom remaining machine anchor).1 remaining, ⟨?_, ?_, ?_, ?_⟩, ?_, ?_⟩
  · exact List.ne_nil_of_mem (hperm.mem_iff.mpr hmem)
  · exact List.filter_sublist
  · rw [htotal]
    exact hmin
  · rw [htotal]
    exact Batching.total_fill_le (List.ne_nil_of_mem hmem)
  · exact hperm.mem_iff.mpr hmem
  · intro before sized after hsplit hout
    have hremaining : anchor.1 ∈ remaining := List.fst_mem_of_mem_zipIdx hanchor
    have hscanNodup : (before ++ sized :: after).Nodup := by
      rw [← hsplit]
      exact (scanOrder_perm hnodup hremaining).nodup_iff.mpr (hnodup.of_map _)
    have hiff := Batching.mem_fill_iff SizedOrder.width machine.maxWidth hscanNodup
    rw [← hsplit, ← hscan] at hiff
    have hfilter : before.filter
        (· ∈ membersOf (scanFrom remaining machine anchor).1 remaining) =
        before.filter (· ∈ (scanFrom remaining machine anchor).1) :=
      List.filter_congr fun other _ ↦ decide_eq_decide.mpr hperm.mem_iff
    rw [hfilter]
    exact not_le.mp fun hle ↦ hout (hperm.mem_iff.mpr (hiff.mpr hle))

/-- `selectBatch` returns a batch exactly when some combination can be filled from a member. -/
theorem selectBatch_ne_nil_iff {remaining : List SizedOrder} (hnodup : (idsOf remaining).Nodup)
    (state : MachineState) :
    (selectBatch remaining state).batch ≠ [] ↔
      ∃ batch, Combination remaining state.machine batch ∧
        ∃ anchor, Fillable remaining state.machine anchor batch := by
  constructor
  · intro h
    obtain ⟨anchor, hanchor, hmax, hmin⟩ := exists_scan_of_selectBatch_ne_nil h
    obtain ⟨batch, hbatch, hfillable⟩ := fillable_of_scan hnodup hanchor hmax hmin
    exact ⟨batch, hbatch, anchor.1, hfillable⟩
  · rintro ⟨batch, hbatch, anchor, hfillable⟩
    obtain ⟨index, hindex⟩ := List.mem_iff_getElem?.mp (hbatch.sublist.subset hfillable.mem)
    have hanchor : (anchor, index) ∈ remaining.zipIdx :=
      List.mk_mem_zipIdx_iff_getElem?.mpr hindex
    refine batch_selectBatch_ne_nil_of_scan hanchor ?_ ?_
    · -- the anchor is one of the members
      refine le_trans (List.single_le_sum ?_ _ (List.mem_map_of_mem hfillable.mem))
        hbatch.le_maxWidth
      intro width hwidth
      obtain ⟨other, -, rfl⟩ := List.mem_map.mp hwidth
      exact other.width_pos.le
    · rw [scanFrom_eq_fill hnodup hanchor, fill_of_fillable hnodup hbatch hfillable]
      exact hbatch.minWidth_le

/-! ### What is lost -/

/-- `selectBatch` loses nothing exactly when a feasible combination entails one that can be filled
from one of its members. -/
theorem losesNothing_iff {remaining : List SizedOrder} (hnodup : (idsOf remaining).Nodup)
    (state : MachineState) :
    LosesNothing remaining state ↔
      ((∃ batch, Combination remaining state.machine batch) →
        ∃ batch, Combination remaining state.machine batch ∧
          ∃ anchor, Fillable remaining state.machine anchor batch) := by
  constructor
  · intro h hfeasible
    exact (selectBatch_ne_nil_iff hnodup state).mp fun hnil ↦ h.complete hnil hfeasible
  · intro h
    refine ⟨fun hnil hfeasible ↦ ?_, fun hne ↦ ?_⟩
    · exact (selectBatch_ne_nil_iff hnodup state).mpr (h hfeasible) hnil
    · have hbatch := combination_selectBatch hnodup hne
      have htotal := (fits_selectBatch hnodup state).totalWidth_eq
      exact ⟨hbatch.sublist, htotal, htotal ▸ hbatch.minWidth_le, htotal ▸ hbatch.le_maxWidth⟩

/-- An order of a width. -/
def stripOrder (id : Id) (width : String) : Order where
  id := id
  orderNo := id
  customerId := "customer"
  product := ⟨"product", "product", ⟨"film", "film"⟩⟩
  specParams := Dict.ofList [("宽幅", width), ("厚度", "20μm")]
  quantity := 10
  unit := "m"
  formulaId := some "formula"
  formulaSnapshot := none
  extraNotes := none
  status := .pending
  taskId := none
  createdAt := 0
  updatedAt := 0

/-- Three orders: a narrow one and two that together have a width of a metre. -/
def strips : List SizedOrder :=
  [stripOrder "a" "100mm", stripOrder "b" "500mm", stripOrder "c" "500mm"].filterMap sized?

/-- A machine with bounds, idle. -/
def stripState (minWidth maxWidth : ℚ) : MachineState :=
  machineState ⟨⟨"m", "m", true, minWidth, maxWidth, ["film"], []⟩, []⟩

/-- On a machine for widths from half a metre to a metre nothing is lost: a batch is filled from the
narrow order. -/
theorem losesNothing_iff_strips :
    (idsOf strips).Nodup ∧ (selectBatch strips (stripState 500 1000)).batch = strips.take 2 ∧
      LosesNothing strips (stripState 500 1000) := by
  have hnodup : (idsOf strips).Nodup := by decide +kernel
  have hbatch : (selectBatch strips (stripState 500 1000)).batch = strips.take 2 := by
    decide +kernel
  have hne : (selectBatch strips (stripState 500 1000)).batch ≠ [] := by
    rw [hbatch]
    decide +kernel
  exact ⟨hnodup, hbatch, (losesNothing_iff hnodup (stripState 500 1000)).mpr fun _ ↦
    (selectBatch_ne_nil_iff hnodup (stripState 500 1000)).mp hne⟩

/-- On a machine for widths from 950 to 1000 the combination of the two wide orders is lost. -/
theorem not_losesNothing_strips :
    (idsOf strips).Nodup ∧ strips.map SizedOrder.width = [100, 500, 500] ∧
    (stripState 950 1000).machine.minWidth = 950 ∧
    (stripState 950 1000).machine.maxWidth = 1000 ∧
    ¬ LosesNothing strips (stripState 950 1000) := by
  have hnil : (selectBatch strips (stripState 950 1000)).batch = [] := by
    decide +kernel
  refine ⟨by decide +kernel, by decide +kernel, rfl, rfl, fun h ↦ h.complete hnil ?_⟩
  refine ⟨strips.drop 1, ?_, List.drop_sublist 1 strips, ?_, ?_⟩ <;> decide +kernel

end FilmOS.Scheduling
