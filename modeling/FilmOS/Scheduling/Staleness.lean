import FilmOS.Scheduling.Acceptance

/-!
# Staleness

A draft is checked for staleness twice. `PlanIsStale` computes a whole new fingerprint from the
pending orders and the active machines and compares; the application makes partial checks against
differently loaded rows. `currentPlan_iff_not_stale` says that they agree.

A fingerprint holds three families of keys: order identifiers, machine keys and fixed keys. They do
not meet when order identifiers are hexadecimal, as `generate_id` draws them (`IsHex`), and then
`get?_inputFingerprint` reads each of them off the input. What neither check compares is the unit of
the orders in the machines' queues, on which the load basis depends; an order that was not updated
has the unit it had.
-/

set_option autoImplicit false
set_option relaxedAutoImplicit false

namespace FilmOS.Scheduling

open Transaction Production

/-! ### Keys -/

def hexDigits : List Char := "0123456789abcdef".toList

/-- The text consists of hexadecimal digits. -/
def IsHex (id : Id) : Prop := id.toList.all (· ∈ hexDigits) = true

instance (id : Id) : Decidable (IsHex id) := inferInstanceAs (Decidable (_ = true))

theorem toList_machineKey (id : Id) : (machineKey id).toList = "machine:".toList ++ id.toList :=
  String.toList_append

theorem machineKey_injective {id id' : Id} (h : machineKey id = machineKey id') : id = id' := by
  have hlist := congrArg String.toList h
  rw [toList_machineKey, toList_machineKey] at hlist
  exact String.toList_injective (List.append_cancel_left hlist)

theorem not_isHex_machineKey (id : Id) : ¬ IsHex (machineKey id) := by
  intro h
  unfold IsHex at h
  rw [toList_machineKey, List.all_append, Bool.and_eq_true] at h
  exact absurd h.1 (by decide)

theorem not_isHex_of_mem_fixedKeys {key : String} (h : key ∈ fixedKeys) : ¬ IsHex key := by
  revert key
  decide

theorem machineKey_notMem_fixedKeys (id : Id) : machineKey id ∉ fixedKeys := by
  have hfirst : ∀ key ∈ fixedKeys, key.toList.head? ≠ some 'm' := by decide
  intro h
  refine hfirst _ h ?_
  rw [toList_machineKey]
  rfl

/-! ### Reading a fingerprint -/

/-- The update time of an order among others. -/
def timeOf (orders : List Order) (id : Id) : Option FingerprintValue :=
  (orders.find? (·.id = id)).map (fun order ↦ .time order.updatedAt)

/-- The digest of a machine among others. -/
def digestOf (machines : List LoadedMachine) (id : Id) : Option FingerprintValue :=
  (machines.find? (·.machine.id = id)).map machineFingerprint

/-- The entries of a fingerprint under the fixed keys. -/
def fixedEntries (orders : List Order) (machines : List LoadedMachine) :
    List (String × FingerprintValue) :=
  [(schemaKey, FingerprintValue.number 1),
    (rulesKey, .number schedulingRuleVersion),
    (basisKey, .basis (loadBasis orders machines)),
    (contentsKey, orderContents orders),
    (pendingSetKey, hashIds (orders.map Order.id)),
    (activeMachineSetKey, hashIds (machines.map (·.machine.id)))]

/-- The entries of a fingerprint under the machine keys. -/
def machineEntries (machines : List LoadedMachine) : List (String × FingerprintValue) :=
  machines.map (fun machine ↦ (machineKey machine.machine.id, machineFingerprint machine))

/-- Orders and machines whose identifiers make the keys of a fingerprint distinct. -/
structure DistinctKeys (orders : List Order) (machines : List LoadedMachine) : Prop where
  orders_nodup : (orders.map Order.id).Nodup
  machines_nodup : (machines.map (·.machine.id)).Nodup
  hex : ∀ order ∈ orders, IsHex order.id

section Reading

variable {orders : List Order} {machines : List LoadedMachine}

/-- Every key of a fingerprint, in the order in which a later family would hide an earlier one. -/
theorem get?_inputFingerprint (h : DistinctKeys orders machines) (key : String) :
    (inputFingerprint orders machines).get? key =
      ((machineEntries machines).lookup key).or
        (((fixedEntries orders machines).lookup key).or (timeOf orders key)) := by
  have htimes : ((orders.map (fun order ↦
      (order.id, FingerprintValue.time order.updatedAt))).map Prod.fst).Nodup := by
    rw [List.map_map]
    exact h.orders_nodup
  have hfixed : ((fixedEntries orders machines).map Prod.fst).Nodup := by
    change [schemaKey, rulesKey, basisKey, contentsKey, pendingSetKey, activeMachineSetKey].Nodup
    decide
  have hmachines : ((machineEntries machines).map Prod.fst).Nodup := by
    have heq : (machineEntries machines).map Prod.fst =
        (machines.map (·.machine.id)).map machineKey := by
      unfold machineEntries
      rw [List.map_map, List.map_map]
      rfl
    rw [heq]
    exact h.machines_nodup.map fun _ _ ↦ machineKey_injective
  change (((Dict.ofList _).update (fixedEntries orders machines)).update
    (machineEntries machines)).get? key = _
  rw [Dict.get?_update hmachines, Dict.get?_update hfixed, Dict.ofList, Dict.get?_update htimes,
    Dict.lookup_map]
  unfold timeOf
  cases orders.find? (fun order ↦ order.id = key) <;> rfl

theorem lookup_machineEntries_of_ne {key : String} (h : ∀ id, key ≠ machineKey id) :
    (machineEntries machines).lookup key = none := by
  unfold machineEntries
  rw [Dict.lookup_map, Option.map_eq_none_iff, List.find?_eq_none]
  intro machine _ heq
  rw [decide_eq_true_eq] at heq
  exact h _ heq.symm

theorem lookup_fixedEntries_of_notMem {key : String} (h : key ∉ fixedKeys) :
    (fixedEntries orders machines).lookup key = none := by
  rw [List.lookup_eq_none_iff]
  intro entry hentry
  rw [bne_iff_ne]
  rintro rfl
  have hmem : entry.1 ∈ (fixedEntries orders machines).map Prod.fst := List.mem_map_of_mem hentry
  change entry.1 ∈ [schemaKey, rulesKey, basisKey, contentsKey, pendingSetKey,
    activeMachineSetKey] at hmem
  unfold fixedKeys at h
  grind

theorem timeOf_of_not_isHex (h : DistinctKeys orders machines) {key : String}
    (hkey : ¬ IsHex key) : timeOf orders key = none := by
  unfold timeOf
  rw [Option.map_eq_none_iff, List.find?_eq_none]
  intro order horder heq
  rw [decide_eq_true_eq] at heq
  exact hkey (heq ▸ h.hex order horder)

/-- Under an order's identifier stands its update time. -/
theorem get?_of_isHex (h : DistinctKeys orders machines) {id : Id} (hid : IsHex id) :
    (inputFingerprint orders machines).get? id = timeOf orders id := by
  have hmachine : ∀ machineId, id ≠ machineKey machineId := by
    rintro machineId rfl
    exact not_isHex_machineKey machineId hid
  have hfixed : id ∉ fixedKeys := fun hmem ↦ not_isHex_of_mem_fixedKeys hmem hid
  rw [get?_inputFingerprint h, lookup_machineEntries_of_ne hmachine,
    lookup_fixedEntries_of_notMem hfixed, Option.none_or, Option.none_or]

/-- Under a machine key stands the digest of the machine. -/
theorem get?_machineKey (h : DistinctKeys orders machines) (id : Id) :
    (inputFingerprint orders machines).get? (machineKey id) = digestOf machines id := by
  have hkey : (fun machine : LoadedMachine ↦
      decide (machineKey machine.machine.id = machineKey id)) =
      fun machine ↦ decide (machine.machine.id = id) := by
    funext machine
    refine decide_eq_decide.mpr ⟨machineKey_injective, fun heq ↦ by rw [heq]⟩
  rw [get?_inputFingerprint h, lookup_fixedEntries_of_notMem (machineKey_notMem_fixedKeys id),
    timeOf_of_not_isHex h (not_isHex_machineKey id), Option.or_none, Option.or_none]
  unfold machineEntries digestOf
  rw [Dict.lookup_map, hkey]

/-- Under a fixed key stands the entry of that key. -/
theorem get?_of_mem_fixedKeys (h : DistinctKeys orders machines) {key : String}
    (hkey : key ∈ fixedKeys) :
    (inputFingerprint orders machines).get? key = (fixedEntries orders machines).lookup key := by
  have hmachine : ∀ id, key ≠ machineKey id := by
    rintro id rfl
    exact machineKey_notMem_fixedKeys id hkey
  rw [get?_inputFingerprint h, lookup_machineEntries_of_ne hmachine,
    timeOf_of_not_isHex h (not_isHex_of_mem_fixedKeys hkey), Option.none_or, Option.or_none]

/-- Under another key stands nothing. -/
theorem get?_of_other (h : DistinctKeys orders machines) {key : String} (hhex : ¬ IsHex key)
    (hfixed : key ∉ fixedKeys) (hmachine : ∀ id, key ≠ machineKey id) :
    (inputFingerprint orders machines).get? key = none := by
  rw [get?_inputFingerprint h, lookup_machineEntries_of_ne hmachine,
    lookup_fixedEntries_of_notMem hfixed, timeOf_of_not_isHex h hhex, Option.none_or,
    Option.none_or]

end Reading

/-! ### Comparing two fingerprints -/

theorem get?_withScope (selected : Bool) (fingerprint : Fingerprint) (key : String) :
    (withScope selected fingerprint).get? key =
      if selected = true ∧ scopeKey = key then some (.flag true) else fingerprint.get? key := by
  unfold withScope
  cases selected with
  | false => simp
  | true => simp [Dict.get?_set]

/-- Two inputs agree in everything that a fingerprint holds. -/
structure SameInput (orders orders' : List Order) (machines machines' : List LoadedMachine) :
    Prop where
  times : ∀ id, timeOf orders id = timeOf orders' id
  digests : ∀ id, digestOf machines id = digestOf machines' id
  basis : loadBasis orders machines = loadBasis orders' machines'
  contents : orderContents orders = orderContents orders'
  pending : (orders.map Order.id).Perm (orders'.map Order.id)
  active : (machines.map (·.machine.id)).Perm (machines'.map (·.machine.id))

theorem hashIds_eq_iff {ids ids' : List Id} : hashIds ids = hashIds ids' ↔ ids.Perm ids' := by
  unfold hashIds
  rw [FingerprintValue.digest.injEq, Digest.identifiers.injEq]
  exact orderBy_id_eq_iff

/-- Two fingerprints are the same dictionary exactly when their inputs agree. -/
theorem same_iff {orders orders' : List Order} {machines machines' : List LoadedMachine}
    (h : DistinctKeys orders machines) (h' : DistinctKeys orders' machines') (selected : Bool) :
    Dict.Same (withScope selected (inputFingerprint orders machines))
      (withScope selected (inputFingerprint orders' machines')) ↔
      SameInput orders orders' machines machines' := by
  constructor
  · intro hsame
    have hget : ∀ key, key ≠ scopeKey → (inputFingerprint orders machines).get? key =
        (inputFingerprint orders' machines').get? key := by
      intro key hkey
      have heq := hsame key
      rwa [get?_withScope, get?_withScope, if_neg fun hand ↦ hkey hand.2.symm,
        if_neg fun hand ↦ hkey hand.2.symm] at heq
    have hfixed : ∀ key ∈ fixedKeys, key ≠ scopeKey →
        (fixedEntries orders machines).lookup key =
          (fixedEntries orders' machines').lookup key := by
      intro key hmem hkey
      rw [← get?_of_mem_fixedKeys h hmem, ← get?_of_mem_fixedKeys h' hmem]
      exact hget key hkey
    refine ⟨?_, ?_, ?_, ?_, ?_, ?_⟩
    · intro id
      by_cases hid : IsHex id
      · rw [← get?_of_isHex h hid, ← get?_of_isHex h' hid]
        refine hget id ?_
        rintro rfl
        exact not_isHex_of_mem_fixedKeys (by decide) hid
      · rw [timeOf_of_not_isHex h hid, timeOf_of_not_isHex h' hid]
    · intro id
      rw [← get?_machineKey h, ← get?_machineKey h']
      refine hget _ fun heq ↦ machineKey_notMem_fixedKeys id ?_
      rw [heq]
      decide
    · exact FingerprintValue.basis.inj
        (Option.some.inj (hfixed basisKey (by decide) (by decide)))
    · exact Option.some.inj (hfixed contentsKey (by decide) (by decide))
    · exact hashIds_eq_iff.mp (Option.some.inj (hfixed pendingSetKey (by decide) (by decide)))
    · exact hashIds_eq_iff.mp
        (Option.some.inj (hfixed activeMachineSetKey (by decide) (by decide)))
  · rintro ⟨htimes, hdigests, hbasis, hcontents, hpending, hactive⟩ key
    have hentries : fixedEntries orders machines = fixedEntries orders' machines' := by
      unfold fixedEntries
      rw [hbasis, hcontents, hashIds_eq_iff.mpr hpending, hashIds_eq_iff.mpr hactive]
    have hget : (inputFingerprint orders machines).get? key =
        (inputFingerprint orders' machines').get? key := by
      by_cases hfixed : key ∈ fixedKeys
      · rw [get?_of_mem_fixedKeys h hfixed, get?_of_mem_fixedKeys h' hfixed, hentries]
      by_cases hhex : IsHex key
      · rw [get?_of_isHex h hhex, get?_of_isHex h' hhex, htimes]
      by_cases hmachine : ∃ id, key = machineKey id
      · obtain ⟨id, rfl⟩ := hmachine
        rw [get?_machineKey h, get?_machineKey h', hdigests]
      · rw [not_exists] at hmachine
        rw [get?_of_other h hhex hfixed hmachine, get?_of_other h' hhex hfixed hmachine]
    rw [get?_withScope, get?_withScope, hget]

/-! ### The checks of an application -/

section Checks

variable {board : Board} {row : SchedulePlan} {orders : List Order} {machines : List LoadedMachine}
  {selected : Bool}

/-- A digest expected under a key of a plan's fingerprint is the one that stands there. -/
theorem expected?_of_digest {fingerprint : Fingerprint} {key : String} {value : FingerprintValue}
    (hkey : key ≠ scopeKey) (hget : fingerprint.get? key = some value) (htruthy : value.Truthy) :
    expected? (withScope selected fingerprint) key = some value := by
  unfold expected?
  rw [get?_withScope, if_neg fun hand ↦ hkey hand.2.symm, hget]
  simp [htruthy]

theorem expected?_of_none {fingerprint : Fingerprint} {key : String} (hkey : key ≠ scopeKey)
    (hget : fingerprint.get? key = none) :
    expected? (withScope selected fingerprint) key = none := by
  unfold expected?
  rw [get?_withScope, if_neg fun hand ↦ hkey hand.2.symm, hget]
  rfl

/-- The plan was computed from the given orders and machines. -/
structure ComputedFrom (row : SchedulePlan) (selected : Bool) (orders : List Order)
    (machines : List LoadedMachine) : Prop where
  keys : DistinctKeys orders machines
  fingerprint_eq : row.fingerprint = withScope selected (inputFingerprint orders machines)
  input_eq : row.inputOrderIds = orders.map Order.id

theorem ComputedFrom.selected_eq (h : ComputedFrom row selected orders machines) :
    row.selected = selected := by
  unfold SchedulePlan.selected expected?
  rw [h.fingerprint_eq, get?_withScope]
  cases selected with
  | true => rfl
  | false =>
    rw [if_neg (by simp), get?_of_mem_fixedKeys h.keys (by decide)]
    rfl

theorem ComputedFrom.checkRules (h : ComputedFrom row selected orders machines) :
    checkRules row = .ok () := by
  unfold Scheduling.checkRules
  rw [ensure_eq_ok, h.fingerprint_eq, get?_withScope,
    if_neg fun hand ↦ absurd hand.2 (by decide), get?_of_mem_fixedKeys h.keys (by decide)]
  rfl

theorem ComputedFrom.checkMachineSet_iff (h : ComputedFrom row selected orders machines) :
    checkMachineSet board row = .ok () ↔
      (machines.map (·.machine.id)).Perm ((activeMachines board).map (·.machine.id)) := by
  unfold checkMachineSet
  have hget : (inputFingerprint orders machines).get? activeMachineSetKey =
      some (hashIds (machines.map (·.machine.id))) := by
    rw [get?_of_mem_fixedKeys h.keys (by decide)]
    rfl
  rw [ensure_eq_ok, h.fingerprint_eq, expected?_of_digest (by decide) hget trivial]
  simp only [Option.mem_some_iff, forall_eq']
  exact hashIds_eq_iff

theorem ComputedFrom.checkPendingSet_iff (h : ComputedFrom row selected orders machines) :
    checkPendingSet board row = .ok () ↔
      (orders.map Order.id).Perm
        (if selected then
          ((board.orders.rows.filter (fun order ↦ order.IsPlannable)).map Order.id).filter
            (· ∈ orders.map Order.id)
        else (board.orders.rows.filter (fun order ↦ order.IsPlannable)).map Order.id) := by
  unfold checkPendingSet
  have hget : (inputFingerprint orders machines).get? pendingSetKey =
      some (hashIds (orders.map Order.id)) := by
    rw [get?_of_mem_fixedKeys h.keys (by decide)]
    rfl
  rw [ensure_eq_ok, h.selected_eq, h.input_eq, h.fingerprint_eq,
    expected?_of_digest (by decide) hget trivial]
  simp only [Option.mem_some_iff, forall_eq']
  exact hashIds_eq_iff

theorem ComputedFrom.checkContents_iff (h : ComputedFrom row selected orders machines)
    (hkeys : DistinctKeys (inputOrders board row) (activeMachines board)) :
    checkContents board row = .ok () ↔
      orderContents (inputOrders board row) = orderContents orders := by
  unfold checkContents
  have hget : (inputFingerprint orders machines).get? contentsKey = some
    (orderContents orders) := by
    rw [get?_of_mem_fixedKeys h.keys (by decide)]
    rfl
  have hcurrent : (inputFingerprint (inputOrders board row) (activeMachines board)).get?
      contentsKey = some (orderContents (inputOrders board row)) := by
    rw [get?_of_mem_fixedKeys hkeys (by decide)]
    rfl
  rw [ensure_eq_ok, h.fingerprint_eq, expected?_of_digest (by decide) hget trivial, hcurrent]
  simp only [Option.mem_some_iff, forall_eq', Option.some.injEq]

theorem ComputedFrom.checkExistence_iff (h : ComputedFrom row selected orders machines) :
    checkExistence board row = .ok () ↔
      ∀ id ∈ orders.map Order.id, id ∈ (inputOrders board row).map Order.id := by
  unfold checkExistence
  rw [ensure_eq_ok, h.input_eq]

theorem ComputedFrom.checkTimes_iff (h : ComputedFrom row selected orders machines)
    (hhex : ∀ order ∈ inputOrders board row, IsHex order.id) :
    checkTimes board row = .ok () ↔
      ∀ order ∈ inputOrders board row, timeOf orders order.id = some (.time order.updatedAt) := by
  have hget : ∀ order ∈ inputOrders board row,
      row.fingerprint.get? order.id = timeOf orders order.id := by
    intro order horder
    have hid := hhex order horder
    rw [h.fingerprint_eq, get?_withScope, if_neg, get?_of_isHex h.keys hid]
    rintro ⟨-, hscope⟩
    have hmem : scopeKey ∈ fixedKeys := by decide
    exact not_isHex_of_mem_fixedKeys hmem (hscope ▸ hid)
  unfold checkTimes
  split
  · next order hfind =>
    refine iff_of_false (by simp) fun hall ↦ ?_
    have hmem := List.mem_of_find?_eq_some hfind
    have hne := List.find?_some hfind
    rw [decide_eq_true_eq, hget order hmem] at hne
    exact hne (hall order hmem)
  · next hfind =>
    refine iff_of_true rfl fun order horder ↦ ?_
    have heq := List.find?_eq_none.mp hfind order horder
    rw [decide_eq_true_eq, not_not, hget order horder] at heq
    exact heq

theorem ComputedFrom.checkMachines_iff (h : ComputedFrom row selected orders machines) :
    checkMachines board row = .ok () ↔
      ∀ machine ∈ activeMachines board,
        ∀ expected ∈ digestOf machines machine.machine.id,
          expected = machineFingerprint machine := by
  have hget : ∀ id, expected? row.fingerprint (machineKey id) = digestOf machines id := by
    intro id
    have hkey : machineKey id ≠ scopeKey := fun heq ↦
      machineKey_notMem_fixedKeys id (by rw [heq]; decide)
    rw [h.fingerprint_eq]
    have hdigest := get?_machineKey h.keys id
    unfold digestOf at hdigest ⊢
    cases hfind : machines.find? (·.machine.id = id) with
    | none =>
      rw [hfind] at hdigest
      exact expected?_of_none hkey hdigest
    | some machine =>
      rw [hfind] at hdigest
      exact expected?_of_digest hkey hdigest trivial
  unfold checkMachines
  simp only [hget]
  split
  · next machine hfind =>
    refine iff_of_false (by simp) fun hall ↦ ?_
    have hne := List.find?_some hfind
    rw [decide_eq_true_eq] at hne
    exact hne (hall machine (List.mem_of_find?_eq_some hfind))
  · next hfind =>
    refine iff_of_true rfl fun machine hmachine ↦ ?_
    have heq := List.find?_eq_none.mp hfind machine hmachine
    rw [decide_eq_true_eq, not_not] at heq
    exact heq

end Checks

/-! ### The load basis -/

/-- Whether an order has a weight depends on its unit alone. -/
theorem isNone_quantityKg_congr {order order' : Order} (h : order.unit = order'.unit) :
    (quantityKg order).isNone = (quantityKg order').isNone := by
  unfold quantityKg
  rw [Option.isNone_map, Option.isNone_map, h]

/-- Orders with the same contents have the same units. -/
theorem exists_weightless_of_contents {orders orders' : List Order}
    (h : orderContents orders = orderContents orders')
    (hbad : ∃ order ∈ orders, (quantityKg order).isNone = true) :
    ∃ order ∈ orders', (quantityKg order).isNone = true := by
  obtain ⟨order, horder, hnone⟩ := hbad
  have hcontents := Digest.orderContents.inj (FingerprintValue.digest.inj h)
  have hmem : orderContent order ∈ (orderBy Order.id orders).map orderContent :=
    List.mem_map_of_mem ((mem_orderBy _ _ _).mpr horder)
  rw [hcontents] at hmem
  obtain ⟨other, hother, heq⟩ := List.mem_map.mp hmem
  refine ⟨other, (mem_orderBy _ _ _).mp hother, ?_⟩
  rw [isNone_quantityKg_congr (congrArg OrderContent.unit heq)]
  exact hnone

/-- A machine with the digest of another has orders with the same identifiers and times queued. -/
theorem exists_queued_of_fingerprint {machine machine' : LoadedMachine}
    (h : machineFingerprint machine = machineFingerprint machine') {order : Order}
    (horder : order ∈ machine.queuedOrders) :
    ∃ order' ∈ machine'.queuedOrders, order'.id = order.id ∧
      order'.updatedAt = order.updatedAt := by
  have hqueue := congrArg MachineContent.queue
    (Digest.machine.inj (FingerprintValue.digest.inj h))
  obtain ⟨task, htask, hin⟩ := List.mem_flatMap.mp horder
  have hmem : taskContent task ∈ machine.queue.map taskContent :=
    List.mem_map_of_mem ((mem_orderBy _ _ _).mpr htask)
  rw [show machine.queue.map taskContent = machine'.queue.map taskContent from hqueue] at hmem
  obtain ⟨task', htask', heq⟩ := List.mem_map.mp hmem
  have hpair : (order.id, order.updatedAt) ∈ (taskContent task).orders :=
    (mem_orderBy _ _ _).mpr (List.mem_map_of_mem hin)
  rw [← heq] at hpair
  obtain ⟨order', horder', hkeys⟩ := List.mem_map.mp ((mem_orderBy _ _ _).mp hpair)
  rw [Prod.mk.injEq] at hkeys
  exact ⟨order', List.mem_flatMap.mpr ⟨task', (mem_orderBy _ _ _).mp htask', horder'⟩, hkeys⟩

/-- Among machines with distinct identifiers the digest of a machine is found. -/
theorem digestOf_of_mem {machines : List LoadedMachine}
    (hnodup : (machines.map (·.machine.id)).Nodup) {machine : LoadedMachine}
    (hmachine : machine ∈ machines) :
    digestOf machines machine.machine.id = some (machineFingerprint machine) := by
  unfold digestOf
  cases hfind : machines.find? (·.machine.id = machine.machine.id) with
  | none =>
    have hnone := List.find?_eq_none.mp hfind machine hmachine
    simp at hnone
  | some found =>
    have hid : found.machine.id = machine.machine.id := by simpa using List.find?_some hfind
    rw [List.inj_on_of_nodup_map hnodup (List.mem_of_find?_eq_some hfind) hmachine hid]
    rfl

theorem mem_of_digestOf_eq_some {machines : List LoadedMachine} {id : Id} {value : FingerprintValue}
    (h : digestOf machines id = some value) :
    ∃ machine ∈ machines, machine.machine.id = id ∧ machineFingerprint machine = value := by
  obtain ⟨machine, hfind, hvalue⟩ := Option.map_eq_some_iff.mp h
  exact ⟨machine, List.mem_of_find?_eq_some hfind, by simpa using List.find?_some hfind, hvalue⟩

theorem digestOf_of_notMem {machines : List LoadedMachine} {id : Id}
    (hid : id ∉ machines.map (·.machine.id)) : digestOf machines id = none := by
  unfold digestOf
  rw [Option.map_eq_none_iff, List.find?_eq_none]
  intro machine hmachine heq
  rw [decide_eq_true_eq] at heq
  exact hid (heq ▸ List.mem_map_of_mem hmachine)

/-- An order without weight queued on one of the machines is queued, unchanged, on the others. -/
theorem exists_weightless_of_digests {machines machines' : List LoadedMachine}
    (hnodup : (machines.map (·.machine.id)).Nodup)
    (hdigests : ∀ id, digestOf machines id = digestOf machines' id)
    (hunits : ∀ machine ∈ machines, ∀ order ∈ machine.queuedOrders, ∀ machine' ∈ machines',
      ∀ order' ∈ machine'.queuedOrders, order.id = order'.id → order.updatedAt = order'.updatedAt →
        order.unit = order'.unit)
    (hbad : ∃ order ∈ machines.flatMap LoadedMachine.queuedOrders,
      (quantityKg order).isNone = true) :
    ∃ order ∈ machines'.flatMap LoadedMachine.queuedOrders, (quantityKg order).isNone = true := by
  obtain ⟨order, hqueued, hnone⟩ := hbad
  obtain ⟨machine, hmachine, horder⟩ := List.mem_flatMap.mp hqueued
  have hdigest := digestOf_of_mem hnodup hmachine
  rw [hdigests] at hdigest
  obtain ⟨machine', hmachine', -, hfingerprint⟩ := mem_of_digestOf_eq_some hdigest
  obtain ⟨order', horder', hid, htime⟩ := exists_queued_of_fingerprint hfingerprint.symm horder
  refine ⟨order', List.mem_flatMap.mpr ⟨machine', hmachine', horder'⟩, ?_⟩
  rw [← isNone_quantityKg_congr
    (hunits machine hmachine order horder machine' hmachine' order' horder' hid.symm htime.symm)]
  exact hnone

/-- The load basis is weight exactly when every order to plan and every queued one has a weight. -/
theorem loadBasis_eq_taskCount_iff (orders : List Order) (machines : List LoadedMachine) :
    loadBasis orders machines = .taskCount ↔
      (∃ order ∈ orders, (quantityKg order).isNone = true) ∨
        ∃ order ∈ machines.flatMap LoadedMachine.queuedOrders,
          (quantityKg order).isNone = true := by
  unfold loadBasis
  dsimp only
  rw [List.any_append]
  split_ifs with h
  · refine iff_of_true rfl ?_
    rwa [Bool.or_eq_true, List.any_eq_true, List.any_eq_true] at h
  · refine iff_of_false (by simp) ?_
    rwa [Bool.or_eq_true, List.any_eq_true, List.any_eq_true] at h

/-! ### The two checks agree -/

/-- The orders that `PlanIsStale` takes into account. -/
def staleOrders (board : Board) (plan : SchedulePlan) : List Order :=
  if plan.selected then board.loadOrders.filter (·.id ∈ plan.inputOrderIds) else board.loadOrders

section Boards

variable {board : Board} {row : SchedulePlan}

theorem loadMachines_perm (board : Board) :
    (board.loadMachines).Perm (activeMachines board) := by
  unfold Board.loadMachines activeMachines
  refine List.Perm.map _ ?_
  exact (orderBy_perm _ _).trans ((orderBy_perm Machine.id board.machines.rows).symm.filter _)

theorem loadMachines_nodup (board : Board) :
    ((board.loadMachines).map (·.machine.id)).Nodup := by
  unfold Board.loadMachines
  rw [List.map_map]
  refine ((orderBy_perm _ _).map _).nodup_iff.mpr ?_
  exact board.machines.nodup.sublist (List.filter_sublist.map Machine.id)

theorem mem_rows_of_queued {machine : LoadedMachine} (hmachine : machine ∈ board.loadMachines)
    {order : Order} (horder : order ∈ machine.queuedOrders) : order ∈ board.orders.rows := by
  obtain ⟨row, -, rfl⟩ := List.mem_map.mp hmachine
  obtain ⟨task, htask, hin⟩ := List.mem_flatMap.mp horder
  obtain ⟨loaded, -, rfl⟩ := List.mem_map.mp (List.mem_filter.mp htask).1
  exact (List.mem_filter.mp hin).1

theorem mem_rows_of_staleOrders {order : Order} (h : order ∈ staleOrders board row) :
    order ∈ board.orders.rows := by
  have hload : ∀ o ∈ board.loadOrders, o ∈ board.orders.rows := fun o ho ↦
    (List.mem_filter.mp ((mem_orderBy _ _ _).mp ho)).1
  unfold staleOrders at h
  split_ifs at h
  · exact hload order (List.mem_filter.mp h).1
  · exact hload order h

theorem loadOrders_perm (board : Board) :
    (board.loadOrders).Perm (board.orders.rows.filter (fun order ↦ order.IsPlannable)) :=
  orderBy_perm _ _

theorem staleOrders_nodup (board : Board) (row : SchedulePlan) :
    ((staleOrders board row).map Order.id).Nodup := by
  have hload : ((board.loadOrders).map Order.id).Nodup :=
    ((loadOrders_perm board).map Order.id).nodup_iff.mpr
      (board.orders.nodup.sublist (List.filter_sublist.map Order.id))
  unfold staleOrders
  split_ifs
  · exact hload.sublist (List.filter_sublist.map Order.id)
  · exact hload

/-- The pending identifiers that the application reads are those of the stale orders. -/
theorem staleOrders_perm (board : Board) (row : SchedulePlan) :
    ((staleOrders board row).map Order.id).Perm
      (if row.selected then
        ((board.orders.rows.filter (fun order ↦ order.IsPlannable)).map Order.id).filter
          (· ∈ row.inputOrderIds)
      else (board.orders.rows.filter (fun order ↦ order.IsPlannable)).map Order.id) := by
  unfold staleOrders
  split_ifs
  · rw [List.filter_map]
    exact ((loadOrders_perm board).filter _).map Order.id
  · exact (loadOrders_perm board).map Order.id

/-- The input orders that exist are the stale orders, when these have the input identifiers. -/
theorem inputOrders_perm (h : row.inputOrderIds.Perm ((staleOrders board row).map Order.id)) :
    (inputOrders board row).Perm (staleOrders board row) := by
  have hnodup : ((inputOrders board row).map Order.id).Nodup :=
    board.orders.nodup.sublist (List.filter_sublist.map Order.id)
  refine (List.perm_ext_iff_of_nodup hnodup.of_map (staleOrders_nodup board row).of_map).mpr ?_
  intro order
  constructor
  · intro horder
    obtain ⟨hrow, hid⟩ := List.mem_filter.mp horder
    rw [decide_eq_true_eq, h.mem_iff] at hid
    obtain ⟨other, hother, heq⟩ := List.mem_map.mp hid
    rwa [← board.orders.eq_of_key_eq (mem_rows_of_staleOrders hother) hrow heq]
  · intro horder
    refine List.mem_filter.mpr ⟨mem_rows_of_staleOrders horder, ?_⟩
    rw [decide_eq_true_eq, h.mem_iff]
    exact List.mem_map_of_mem horder

theorem timeOf_of_mem {orders : List Order} (hnodup : (orders.map Order.id).Nodup) {order : Order}
    (horder : order ∈ orders) : timeOf orders order.id = some (.time order.updatedAt) := by
  unfold timeOf
  rw [show orders.find? (fun o ↦ o.id = order.id) = some order from
    Table.find?_of_mem ⟨orders, hnodup⟩ (k := order.id) horder rfl]
  rfl

theorem timeOf_of_notMem {orders : List Order} {id : Id} (hid : id ∉ orders.map Order.id) :
    timeOf orders id = none := by
  unfold timeOf
  rw [Option.map_eq_none_iff, List.find?_eq_none]
  intro order horder heq
  rw [decide_eq_true_eq] at heq
  exact hid (heq ▸ List.mem_map_of_mem horder)

/-- The order contents do not depend on the order of the rows. -/
theorem orderContents_perm {orders orders' : List Order} (h : orders.Perm orders')
    (hnodup : (orders.map Order.id).Nodup) : orderContents orders = orderContents orders' := by
  unfold orderContents
  rw [orderBy_eq_of_perm h hnodup]

/-- The identifiers of the orders are drawn by `generate_id`. -/
def HexOrders (board : Board) : Prop := ∀ order ∈ board.orders.rows, IsHex order.id

/-- The content of an order that two boards show with one update time is the same, as far as its
unit is concerned. -/
def KeepsUnits (board board' : Board) : Prop :=
  ∀ order ∈ board.orders.rows, ∀ order' ∈ board'.orders.rows,
    order.id = order'.id → order.updatedAt = order'.updatedAt → order.unit = order'.unit

theorem KeepsUnits.symm {board' : Board} (h : KeepsUnits board board') : KeepsUnits board' board :=
  fun order horder order' horder' hid htime ↦
    (h order' horder' order horder hid.symm htime.symm).symm

/-- Inputs with the same contents and machine digests have the same load basis. -/
theorem loadBasis_eq {origin : Board} {orders orders' : List Order}
    (hcontents : orderContents orders = orderContents orders')
    (hdigests : ∀ id, digestOf origin.loadMachines id = digestOf board.loadMachines id)
    (hunits : KeepsUnits origin board) :
    loadBasis orders origin.loadMachines = loadBasis orders' board.loadMachines := by
  have hiff : loadBasis orders origin.loadMachines = .taskCount ↔
      loadBasis orders' board.loadMachines = .taskCount := by
    rw [loadBasis_eq_taskCount_iff, loadBasis_eq_taskCount_iff]
    refine or_congr ⟨exists_weightless_of_contents hcontents,
      exists_weightless_of_contents hcontents.symm⟩ ⟨?_, ?_⟩
    · refine exists_weightless_of_digests (loadMachines_nodup origin) hdigests ?_
      intro machine hmachine order horder machine' hmachine' order' horder'
      exact hunits order (mem_rows_of_queued hmachine horder) order'
        (mem_rows_of_queued hmachine' horder')
    · refine exists_weightless_of_digests (loadMachines_nodup board)
        (fun id ↦ (hdigests id).symm) ?_
      intro machine hmachine order horder machine' hmachine' order' horder'
      exact hunits.symm order (mem_rows_of_queued hmachine horder) order'
        (mem_rows_of_queued hmachine' horder')
  cases h : loadBasis orders origin.loadMachines with
  | taskCount => exact (hiff.mp h).symm
  | weightKg =>
    cases h' : loadBasis orders' board.loadMachines with
    | taskCount => rw [hiff.mpr h'] at h; cases h
    | weightKg => rfl

/-- The fingerprint checks of an application pass exactly when the board shows the input that the
plan was computed from. -/
theorem checks_iff_sameInput {origin : Board} {orders : List Order} {selected : Bool}
    (h : ComputedFrom row selected orders origin.loadMachines) (hhex : HexOrders board)
    (hunits : KeepsUnits origin board) :
    (checkMachineSet board row = .ok () ∧ checkMachines board row = .ok () ∧
      checkPendingSet board row = .ok () ∧ checkContents board row = .ok () ∧
      checkExistence board row = .ok () ∧ checkTimes board row = .ok ()) ↔
      SameInput orders (staleOrders board row) origin.loadMachines board.loadMachines := by
  have hinputHex : ∀ order ∈ inputOrders board row, IsHex order.id := fun order horder ↦
    hhex order (List.mem_filter.mp horder).1
  have hactiveNodup : ((activeMachines board).map (·.machine.id)).Nodup :=
    ((loadMachines_perm board).map _).nodup_iff.mp (loadMachines_nodup board)
  have hinputNodup : ((inputOrders board row).map Order.id).Nodup :=
    board.orders.nodup.sublist (List.filter_sublist.map Order.id)
  have hpendingPerm := staleOrders_perm board row
  rw [h.selected_eq, h.input_eq] at hpendingPerm
  rw [h.checkMachineSet_iff, h.checkMachines_iff, h.checkPendingSet_iff,
    h.checkContents_iff ⟨hinputNodup, hactiveNodup, hinputHex⟩, h.checkExistence_iff,
    h.checkTimes_iff hinputHex]
  constructor
  · rintro ⟨hset, hmachines, hpending, hcontents, -, htimes⟩
    have hids := hpending.trans hpendingPerm.symm
    have hperm : (inputOrders board row).Perm (staleOrders board row) :=
      inputOrders_perm (h.input_eq ▸ hids)
    have hdigests : ∀ id, digestOf origin.loadMachines id = digestOf board.loadMachines id := by
      intro id
      by_cases hid : id ∈ (board.loadMachines).map (·.machine.id)
      · obtain ⟨machine, hmachine, rfl⟩ := List.mem_map.mp hid
        have horigin := hset.mem_iff.mpr (((loadMachines_perm board).map _).mem_iff.mp hid)
        obtain ⟨old, hold, heq⟩ := List.mem_map.mp horigin
        have hdigest := digestOf_of_mem (loadMachines_nodup origin) hold
        rw [digestOf_of_mem (loadMachines_nodup board) hmachine]
        rw [heq] at hdigest
        rw [hdigest, hmachines machine ((loadMachines_perm board).mem_iff.mp hmachine) _ hdigest]
      · have hnot : id ∉ (origin.loadMachines).map (·.machine.id) := fun hmem ↦
          hid (((loadMachines_perm board).map _).mem_iff.mpr (hset.mem_iff.mp hmem))
        rw [digestOf_of_notMem hid, digestOf_of_notMem hnot]
    have hall : orderContents orders = orderContents (staleOrders board row) :=
      hcontents.symm.trans (orderContents_perm hperm hinputNodup)
    refine ⟨fun id ↦ ?_, hdigests, loadBasis_eq hall hdigests hunits, hall, hids,
      hset.trans ((loadMachines_perm board).map _).symm⟩
    by_cases hid : id ∈ (staleOrders board row).map Order.id
    · obtain ⟨order, horder, rfl⟩ := List.mem_map.mp hid
      rw [timeOf_of_mem (staleOrders_nodup board row) horder]
      exact htimes order (hperm.mem_iff.mpr horder)
    · rw [timeOf_of_notMem hid, timeOf_of_notMem fun hmem ↦ hid (hids.mem_iff.mp hmem)]
  · rintro ⟨htimes, hdigests, -, hcontents, hids, hactive⟩
    have hperm : (inputOrders board row).Perm (staleOrders board row) :=
      inputOrders_perm (h.input_eq ▸ hids)
    refine ⟨hactive.trans ((loadMachines_perm board).map _), ?_, hids.trans hpendingPerm,
      (orderContents_perm hperm hinputNodup).trans hcontents.symm, ?_, ?_⟩
    · intro machine hmachine expected hexpected
      rw [hdigests, digestOf_of_mem (loadMachines_nodup board)
        ((loadMachines_perm board).mem_iff.mpr hmachine)] at hexpected
      exact (Option.some.inj hexpected).symm
    · intro id hid
      exact (hperm.map Order.id).mem_iff.mpr (hids.mem_iff.mp hid)
    · intro order horder
      rw [htimes]
      exact timeOf_of_mem (staleOrders_nodup board row) (hperm.mem_iff.mp horder)

end Boards

/-- A draft created on one board passes the checks up to staleness on a later one, where it is still
an applicable draft with tasks on existing machines, exactly when `PlanIsStale` does not hold. -/
theorem currentPlan_iff_not_stale {origin created board : Board} {call : Call}
    {sessionId userId : Id} {orderIds : Option (List Id)} {plan row : SchedulePlan} {allowV2 : Bool}
    (hcreated : createSchedulePlan call sessionId userId orderIds origin = .ok plan created)
    (hrow : board.plans.find? plan.id = some row)
    (hfingerprint : row.fingerprint = plan.fingerprint)
    (hinput : row.inputOrderIds = plan.inputOrderIds) (huser : row.createdById = userId)
    (hallowed : row.createdByRunId = none ∨ allowV2) (hdraft : row.status = .draft)
    (htasks : row.tasks ≠ []) (hmachines : ∀ task ∈ row.tasks, task.machineId ∈ board.machines.keys)
    (hhex : HexOrders origin) (hhexLater : HexOrders board) (hunits : KeepsUnits origin board) :
    (∃ current, currentPlan plan.id userId allowV2 board = .ok current board) ↔
      ¬ PlanIsStale board row := by
  obtain ⟨orders, proposal, plans, issued, horders, -, -, -, -, hids, -, hprint, -, -⟩ :=
    createSchedulePlan_ok hcreated
  obtain ⟨hnodup, hrows⟩ := plannedOrders_ok horders
  have hkeys : DistinctKeys orders origin.loadMachines :=
    ⟨hnodup, loadMachines_nodup origin, fun order horder ↦ hhex order (hrows order horder)⟩
  have hcomputed : ComputedFrom row orderIds.isSome orders origin.loadMachines :=
    ⟨hkeys, hfingerprint.trans hprint, hinput.trans hids⟩
  have hlaterKeys : DistinctKeys (staleOrders board row) board.loadMachines :=
    ⟨staleOrders_nodup board row, loadMachines_nodup board,
      fun order horder ↦ hhexLater order (mem_rows_of_staleOrders horder)⟩
  have hstale : PlanIsStale board row ↔
      ¬ SameInput orders (staleOrders board row) origin.loadMachines board.loadMachines := by
    rw [← same_iff hkeys hlaterKeys orderIds.isSome, ← hcomputed.fingerprint_eq,
      ← hcomputed.selected_eq]
    exact Iff.rfl
  rw [hstale, not_not, ← checks_iff_sameInput hcomputed hhexLater hunits]
  constructor
  · rintro ⟨current, hcurrent⟩
    obtain ⟨hfind, -, -, -, -, -, -, hset, hmachine, hpending, hcontents, hexist, htimes, -⟩ :=
      currentPlan_eq_ok.mp hcurrent
    obtain rfl := Option.some.inj (hrow.symm.trans hfind)
    exact ⟨hset, hmachine, hpending, hcontents, hexist, htimes⟩
  · rintro ⟨hset, hmachine, hpending, hcontents, hexist, htimes⟩
    exact ⟨row, currentPlan_eq_ok.mpr ⟨hrow, huser, hallowed, hdraft, htasks, hmachines,
      hcomputed.checkRules, hset, hmachine, hpending, hcontents, hexist, htimes, rfl⟩⟩

/-- A draft on the board on which it was created. -/
theorem currentPlan_iff_not_stale_sample : ∃ plan created,
    createSchedulePlan ⟨0, "20260101", IdSource.longer⟩ "session" "user" none sampleBoard =
      .ok plan created ∧
    ((∃ current, currentPlan plan.id "user" false created = .ok current created) ↔
      ¬ PlanIsStale created plan) := by
  obtain ⟨plan, created, hcreated, hlength, hmachines⟩ := exists_sampleDraft
  obtain ⟨orders, proposal, plans, issued, -, -, hdraft, huser, hrun, -, -, -, hinsert, hboard⟩ :=
    createSchedulePlan_ok hcreated
  have hrow : created.plans.find? plan.id = some plan := by
    rw [hboard, Table.find?_insert? hinsert, key_schedulePlan, if_pos rfl]
  have htasks : plan.tasks ≠ [] := by
    intro hnil
    rw [hnil] at hlength
    cases hlength
  have horders : created.orders = sampleBoard.orders := by rw [hboard]
  have hhex : HexOrders sampleBoard := by
    unfold HexOrders
    decide
  have hunits : KeepsUnits sampleBoard created := by
    unfold KeepsUnits
    rw [horders]
    decide
  refine ⟨plan, created, hcreated, ?_⟩
  exact currentPlan_iff_not_stale hcreated hrow rfl rfl huser (Or.inl hrun) hdraft htasks hmachines
    hhex (by unfold HexOrders; rw [horders]; exact hhex) hunits

end FilmOS.Scheduling
