import FilmOS.Agent.Receipts

/-!
# Tool calls between the transactions

`perform_tool` commits three times: it enters a receipt, it carries out the operation together with
the success of the receipt, and where that raises it marks the receipt as failed. Between these
commits anything may happen: other invocations with the same key, other services, the watchdog, the
loss of the process. A `ToolHost` is the database with the invocations that are between two commits,
and the effects that were committed, in order.

`tools_exactly_once` says that an effect is committed at most once for a run and a call key, and
that the committed effects are exactly the receipts that show a success, with their results; a
repeated call changes nothing. `receipts_settle` says that a receipt that reached its end stays as
it is.
-/

set_option autoImplicit false
set_option relaxedAutoImplicit false

namespace FilmOS.Agent

open Transaction AgentDb

/-! ### Invocations -/

/-- An invocation of `perform_tool` whose receipt was entered. It is to carry out its operation, or,
when that failed, to mark its receipt. -/
structure Invocation where
  context : RunContext
  request : ToolRequest
  operation : ToolOperation
  callId : Id
  failing : Bool

instance : Keyed Id Invocation where
  key := Invocation.callId

/-- An effect that was committed, with what it returned. -/
structure ToolEffect where
  runId : Id
  callId : Id
  request : ToolRequest
  operation : ToolOperation
  result : ToolResult

/-- The database with the invocations between two commits and the effects so far. -/
structure ToolHost where
  db : AgentDb
  invocations : Table Invocation
  effects : List ToolEffect

/-- The transactions of `perform_tool`. -/
def AgentOp.CallsTool : AgentOp → Prop
  | .startTool .. | .runTool .. | .failTool .. => True
  | _ => False

/-- What may happen: a call of another service; an invocation is made, carries out its operation, is
interrupted by a failure of its second transaction, or marks its receipt. An invocation that is lost
does not come up again. -/
inductive ToolInput
  | other (input : AgentInput) (houtside : ¬ input.op.CallsTool)
  | perform (call : Call) (context : RunContext) (request : ToolRequest) (operation : ToolOperation)
  | carryOut (call : Call) (later : Time) (callId : Id)
  | interrupt (callId : Id)
  | markFailed (call : Call) (callId : Id)

namespace ToolHost

/-- No invocation was made. -/
def start (board : Board) : ToolHost := ⟨.start board, Table.empty, []⟩

/-- The invocation failed in its second transaction. -/
def fail (s : ToolHost) (callId : Id) : ToolHost :=
  { s with
    invocations := s.invocations.update callId (fun i ↦ { i with failing := true }) fun _ ↦ rfl }

/-- The invocations without one. -/
def without (s : ToolHost) (callId : Id) : Table Invocation :=
  s.invocations.filter (fun i ↦ decide (i.callId ≠ callId))

/-- An invocation is made: it is answered from a receipt, refused, or enters its receipt. -/
def perform (s : ToolHost) (call : Call) (context : RunContext) (request : ToolRequest)
    (operation : ToolOperation) : ToolHost :=
  match startTool call context request s.db with
  | .ok (.started callId) db =>
    { s with db, invocations := s.invocations.put ⟨context, request, operation, callId, false⟩ }
  | .ok (.finished _) db => { s with db }
  | .error _ _ => s

/-- An invocation goes on to its second transaction. -/
def carryOut (s : ToolHost) (call : Call) (later : Time) (callId : Id) : ToolHost :=
  match s.invocations.find? callId with
  | none => s
  | some i =>
    if i.failing then s
    else match runTool call later i.context callId i.request i.operation s.db with
      | .ok result db =>
        { db
          invocations := s.without callId
          effects := s.effects ++ [⟨i.context.runId, callId, i.request, i.operation, result⟩] }
      | .error _ _ => s.fail callId

/-- An invocation whose second transaction failed goes on to its third, and is over. -/
def markFailed (s : ToolHost) (call : Call) (callId : Id) : ToolHost :=
  match s.invocations.find? callId with
  | none => s
  | some i =>
    if i.failing then
      { s with
        db := commit (failTool call i.context callId i.request) s.db
        invocations := s.without callId }
    else s

/-- One step. -/
def step (s : ToolHost) : ToolInput → ToolHost
  | .other input _ => { s with db := Agent.step s.db input }
  | .perform call context request operation => s.perform call context request operation
  | .carryOut call later callId => s.carryOut call later callId
  | .interrupt callId => s.fail callId
  | .markFailed call callId => s.markFailed call callId

end ToolHost

/-- The receipt shows that the effect was committed. -/
structure ToolEffect.Records (effect : ToolEffect) (receipt : AgentToolCall) : Prop where
  id : receipt.id = effect.callId
  runId : receipt.runId = effect.runId
  callKey : receipt.callKey = effect.request.callKey
  toolName : receipt.toolName = effect.request.toolName
  argsHash : receipt.argsHash = effect.request.argsHash
  status : receipt.status = .succeeded
  result : receipt.result = some effect.result

/-- The receipt is the one that the invocation entered, and shows no end of its operation. -/
structure Invocation.Entered (i : Invocation) (receipt : AgentToolCall) : Prop where
  runId : receipt.runId = i.context.runId
  callKey : receipt.callKey = i.request.callKey
  toolName : receipt.toolName = i.request.toolName
  argsHash : receipt.argsHash = i.request.argsHash
  unsettled : receipt.status = .started ∨ receipt.status = .abandoned

/-- The invariant: the receipts of the invocations show no end, the effects are the receipts that
show a success, and no two effects have one run and one call key. -/
structure ToolHost.Sound (s : ToolHost) : Prop where
  db : s.db.Sound
  issued : ∀ i ∈ s.invocations.rows, i.callId ∈ s.db.board.issued
  entered : ∀ i ∈ s.invocations.rows, ∀ receipt, s.db.HasReceipt receipt → receipt.id = i.callId →
    i.Entered receipt
  effect_issued : ∀ effect ∈ s.effects, effect.runId ∈ s.db.board.issued
  recorded : ∀ effect ∈ s.effects, ∀ run, s.db.HasRun run → run.id = effect.runId →
    ∃ receipt, s.db.HasReceipt receipt ∧ effect.Records receipt
  committed : ∀ receipt, s.db.HasReceipt receipt → receipt.status = .succeeded →
    ∃ effect ∈ s.effects, effect.Records receipt
  once : (s.effects.map (fun effect ↦ (effect.runId, effect.request.callKey))).Nodup

variable {call : Call} {later : Time} {s : ToolHost} {db' : AgentDb} {permit : Permit}
  {receipt : AgentToolCall}

theorem ToolEffect.Records.settled {effect : ToolEffect} (h : effect.Records receipt) :
    receipt.Settled := by
  unfold AgentToolCall.Settled
  rw [h.status]
  exact fun h ↦ nomatch h

/-- What stays a receipt is still the one that the invocation entered. -/
theorem Invocation.Entered.stays {i : Invocation} {latest : AgentToolCall} (h : i.Entered receipt)
    (hstays : receipt.Stays latest) : i.Entered latest where
  runId := hstays.same.runId.trans h.runId
  callKey := hstays.same.callKey.trans h.callKey
  toolName := hstays.same.toolName.trans h.toolName
  argsHash := hstays.same.argsHash.trans h.argsHash
  unsettled := by
    rcases hstays.kept with rfl | ⟨-, habandoned⟩
    · exact h.unsettled
    · exact Or.inr habandoned

theorem ToolHost.Sound.start (board : Board) : (ToolHost.start board).Sound where
  db := .start board
  issued _ h := absurd h List.not_mem_nil
  entered _ h := absurd h List.not_mem_nil
  effect_issued _ h := absurd h List.not_mem_nil
  recorded _ h := absurd h List.not_mem_nil
  committed := by
    rintro receipt ⟨w, hw, -⟩
    exact absurd hw List.not_mem_nil
  once := List.nodup_nil

/-! ### What a transaction keeps -/

namespace ToolHost.Sound

/-- The receipts of invocations without a permit show no end afterwards. -/
theorem entered_kept (hs : s.Sound) (h : Progress permit s.db db') {i : Invocation}
    (hi : i ∈ s.invocations.rows) (hcall : ¬ permit.call i.callId)
    (hreceipt : db'.HasReceipt receipt) (hid : receipt.id = i.callId) : i.Entered receipt := by
  rcases h.receipt_origin hreceipt (hid ▸ hcall) with ⟨hfresh, -⟩ | ⟨earlier, hearlier, hstays⟩
  · exact absurd (hid ▸ hs.issued i hi) hfresh.1
  · exact (hs.entered i hi earlier hearlier (hstays.same.id.symm.trans hid)).stays hstays

/-- The committed effects are recorded afterwards, when only invocations have a permit. -/
theorem recorded_kept (hs : s.Sound) (h : Progress permit s.db db')
    (hopen : ∀ id, permit.call id → ∃ i ∈ s.invocations.rows, i.callId = id) {effect : ToolEffect}
    (heffect : effect ∈ s.effects) {run : AgentRun} (hrun : db'.HasRun run)
    (hid : run.id = effect.runId) : ∃ receipt, db'.HasReceipt receipt ∧ effect.Records receipt := by
  obtain ⟨earlier, hearlier, hearlierId, -⟩ := h.follows.origin run hrun
    (hid ▸ hs.effect_issued effect heffect)
  obtain ⟨receipt, hreceipt, hrecords⟩ :=
    hs.recorded effect heffect earlier hearlier (hearlierId.trans hid)
  have hcall : ¬ permit.call receipt.id := by
    intro hpermit
    obtain ⟨i, hi, hcallId⟩ := hopen receipt.id hpermit
    rcases (hs.entered i hi receipt hreceipt hcallId.symm).unsettled with hstatus | hstatus
    · rw [hrecords.status] at hstatus
      cases hstatus
    · rw [hrecords.status] at hstatus
      cases hstatus
  obtain ⟨latest, hlatest, hstays⟩ := h.receipt_kept hs.db hreceipt hcall hrun
    (hid.trans hrecords.runId.symm)
  rw [hstays.eq_of_settled hrecords.settled] at hlatest
  exact ⟨receipt, hlatest, hrecords⟩

/-- A success that a transaction did not settle was committed before. -/
theorem committed_kept (hs : s.Sound) (h : Progress permit s.db db')
    (hreceipt : db'.HasReceipt receipt) (hcall : ¬ permit.call receipt.id)
    (hstatus : receipt.status = .succeeded) : ∃ effect ∈ s.effects, effect.Records receipt := by
  rcases h.receipt_origin hreceipt hcall with ⟨-, hstarted | habandoned⟩ |
    ⟨earlier, hearlier, hstays⟩
  · rw [hstatus] at hstarted
    cases hstarted
  · rw [hstatus] at habandoned
    cases habandoned
  · obtain rfl := hstays.eq_of_succeeded hstatus
    exact hs.committed receipt hearlier hstatus

/-- A transaction that commits no effect keeps the invariant, when it settles receipts of
invocations that end with it. -/
theorem advance (hs : s.Sound) (h : Progress permit s.db db') {invocations : Table Invocation}
    (hkept : ∀ i' ∈ invocations.rows, ∃ i ∈ s.invocations.rows, i'.context = i.context ∧
      i'.request = i.request ∧ i'.callId = i.callId ∧ ¬ permit.call i.callId)
    (hopen : ∀ id, permit.call id → ∃ i ∈ s.invocations.rows, i.callId = id)
    (hnone : ∀ receipt, db'.HasReceipt receipt → permit.call receipt.id →
      receipt.status ≠ .succeeded) : ToolHost.Sound { s with db := db', invocations } where
  db := hs.db.progress h
  issued i' hi' := by
    obtain ⟨i, hi, -, -, hcallId, -⟩ := hkept i' hi'
    rw [hcallId]
    exact h.issued (hs.issued i hi)
  entered i' hi' receipt hreceipt hid := by
    obtain ⟨i, hi, hcontext, hrequest, hcallId, hcall⟩ := hkept i' hi'
    obtain ⟨hrunId, hcallKey, htoolName, hargsHash, hunsettled⟩ :=
      hs.entered_kept h hi hcall hreceipt (hid.trans hcallId)
    refine ⟨?_, ?_, ?_, ?_, hunsettled⟩
    · rw [hcontext, hrunId]
    · rw [hrequest, hcallKey]
    · rw [hrequest, htoolName]
    · rw [hrequest, hargsHash]
  effect_issued effect heffect := h.issued (hs.effect_issued effect heffect)
  recorded effect heffect run hrun hid := hs.recorded_kept h hopen heffect hrun hid
  committed receipt hreceipt hstatus := by
    by_cases hcall : permit.call receipt.id
    · exact absurd hstatus (hnone receipt hreceipt hcall)
    · exact hs.committed_kept h hreceipt hcall hstatus
  once := hs.once

/-- An invocation is made whose receipt was entered. -/
theorem enter (hs : s.Sound) {i : Invocation} (hissued : i.callId ∈ s.db.board.issued)
    (hentered : ∀ receipt, s.db.HasReceipt receipt → receipt.id = i.callId → i.Entered receipt) :
    ToolHost.Sound { s with invocations := s.invocations.put i } where
  db := hs.db
  issued i' hi' := by
    rcases (Table.mem_put _).mp hi' with rfl | ⟨hold, -⟩
    · exact hissued
    · exact hs.issued i' hold
  entered i' hi' := by
    rcases (Table.mem_put _).mp hi' with rfl | ⟨hold, -⟩
    · exact hentered
    · exact hs.entered i' hold
  effect_issued := hs.effect_issued
  recorded := hs.recorded
  committed := hs.committed
  once := hs.once

theorem fail (hs : s.Sound) (callId : Id) : (s.fail callId).Sound := by
  refine hs.advance (.refl s.db : Progress {} s.db s.db) ?_ (fun _ h ↦ h.elim) fun _ _ h ↦ h.elim
  intro i' hi'
  obtain ⟨i, hi, rfl⟩ := (Table.mem_update _).mp hi'
  refine ⟨i, hi, ?_⟩
  split_ifs
  · exact ⟨rfl, rfl, rfl, id⟩
  · exact ⟨rfl, rfl, rfl, id⟩

end ToolHost.Sound

/-! ### The second transaction -/

/-- An invocation that holds the lease has its receipt in the session of the run, and it is
started. -/
theorem ToolHost.Sound.started (hs : s.Sound) {i : Invocation} (hi : i ∈ s.invocations.rows)
    (hreceipt : s.db.HasReceipt receipt) (hid : receipt.id = i.callId) {w : Workspace}
    {run : AgentRun} (hw : w ∈ s.db.workspaces.rows) (hrun : run ∈ w.runs.rows)
    (hrunId : run.id = i.context.runId) (hrunning : run.status = .running) :
    receipt ∈ w.toolCalls.rows ∧ receipt.status = .started := by
  have hentered := hs.entered i hi receipt hreceipt hid
  have hsame : run.id = receipt.runId := hrunId.trans hentered.runId.symm
  have hmem := hs.db.receipt_mem hreceipt hw hrun hsame
  refine ⟨hmem, hentered.unsettled.resolve_right fun habandoned ↦ ?_⟩
  exact (hs.db.workspace w hw).receipts.abandoned receipt hmem habandoned run hrun hsame
    (Or.inr hrunning)

/-- What the second transaction of an invocation leaves: the receipt that the invocation entered,
which was started, shows the success with the result. -/
theorem ToolHost.Sound.runTool_receipt (hs : s.Sound) {i : Invocation}
    (hi : i ∈ s.invocations.rows) {result : ToolResult}
    (h : runTool call later i.context i.callId i.request i.operation s.db = .ok result db') :
    ∃ receipt latest, s.db.HasReceipt receipt ∧ receipt.id = i.callId ∧ receipt.status = .started ∧
      db'.HasReceipt latest ∧ receipt.Same latest ∧ latest.status = .succeeded ∧
      latest.result = some result ∧ ∃ run, s.db.HasRun run ∧ run.id = i.context.runId := by
  obtain ⟨w, run, w₁, w', db₁, ⟨hw, -⟩, ⟨hrun, hrunId⟩, hholds, -, -, hperform, hkey, rfl, rfl⟩ :=
    runTool_ok h
  obtain ⟨middle, hmiddle, hmiddleId⟩ := (Table.mem_keys _).mp hkey
  have hmakes : Makes (fun _ ↦ False) { plan := i.operation.Generates } s.db db₁ w w₁ :=
    perform_makes (fun h ↦ h) hperform
  rcases hmakes.changes.receipt_origin hmiddle (fun h ↦ h) with
    ⟨hfresh, -⟩ | ⟨receipt, hreceipt, hstays⟩
  · refine absurd (hs.issued i hi) ?_
    rw [← show middle.id = i.callId from hmiddleId]
    exact hfresh.1
  · have hid : receipt.id = i.callId := hstays.same.id.symm.trans hmiddleId
    obtain ⟨-, hstarted⟩ := hs.started hi ⟨w, hw, hreceipt⟩ hid hw hrun hrunId hholds.running
    refine ⟨receipt, { middle with status := .succeeded, result := some result }, ⟨w, hw, hreceipt⟩,
      hid, hstarted, ⟨_, (Table.mem_put _).mpr (Or.inl rfl), ?_⟩, ?_, rfl, rfl, run, ⟨w, hw, hrun⟩,
      hrunId⟩
    · exact List.mem_map.mpr ⟨middle, hmiddle, if_pos hmiddleId⟩
    · exact hstays.same.trans ⟨rfl, rfl, rfl, rfl, rfl⟩

/-- An invocation that carries out its operation commits an effect that no invocation committed
before for its run and call key. -/
theorem ToolHost.Sound.commits (hs : s.Sound) {i : Invocation} (hi : i ∈ s.invocations.rows)
    {result : ToolResult}
    (h : runTool call later i.context i.callId i.request i.operation s.db = .ok result db') :
    ToolHost.Sound
      { db := db'
        invocations := s.without i.callId
        effects := s.effects ++ [⟨i.context.runId, i.callId, i.request, i.operation,
          result⟩] } := by
  have hprogress : Progress (.tool i.callId i.operation) s.db db' := progress_runTool hs.db h
  have hsound := hs.db.progress hprogress
  obtain ⟨receipt, latest, hreceipt, hid, hstarted, hlatest, hsame, hstatus, hresult, run, hrun,
    hrunId⟩ := hs.runTool_receipt hi h
  have hentered := hs.entered i hi receipt hreceipt hid
  have hrecords : ToolEffect.Records ⟨i.context.runId, i.callId, i.request, i.operation, result⟩
      latest :=
    ⟨hsame.id.trans hid, hsame.runId.trans hentered.runId, hsame.callKey.trans hentered.callKey,
      hsame.toolName.trans hentered.toolName, hsame.argsHash.trans hentered.argsHash, hstatus,
        hresult⟩
  have hopen : ∀ id, (Permit.tool i.callId i.operation).call id →
      ∃ j ∈ s.invocations.rows, j.callId = id := fun id hid ↦ ⟨i, hi, hid.symm⟩
  constructor
  · exact hsound
  · intro j hj
    exact hprogress.issued (hs.issued j (List.mem_filter.mp hj).1)
  · intro j hj other hother hotherId
    obtain ⟨hj, hne⟩ := List.mem_filter.mp hj
    have hne : j.callId ≠ i.callId := of_decide_eq_true hne
    exact hs.entered_kept hprogress hj hne hother hotherId
  · intro effect heffect
    rcases List.mem_append.mp heffect with hold | hlast
    · exact hprogress.issued (hs.effect_issued effect hold)
    · rw [List.mem_singleton.mp hlast, ← hrunId]
      exact hprogress.issued (hs.db.run_issued hrun)
  · intro effect heffect other hother hotherId
    rcases List.mem_append.mp heffect with hold | hlast
    · exact hs.recorded_kept hprogress hopen hold hother hotherId
    · rw [List.mem_singleton.mp hlast]
      exact ⟨latest, hlatest, hrecords⟩
  · intro other hother hsucceeded
    by_cases hcall : other.id = i.callId
    · obtain rfl := hsound.receipt_eq hother hlatest (hcall.trans hrecords.id.symm)
      exact ⟨_, List.mem_append_right _ (List.mem_singleton.mpr rfl), hrecords⟩
    · obtain ⟨effect, heffect, hrecords'⟩ := hs.committed_kept hprogress hother hcall hsucceeded
      exact ⟨effect, List.mem_append_left _ heffect, hrecords'⟩
  · rw [List.map_append]
    refine hs.once.append (List.nodup_singleton _) (List.disjoint_singleton.mpr fun hmem ↦ ?_)
    obtain ⟨effect, heffect, heq⟩ := List.mem_map.mp hmem
    obtain ⟨hsameRun, hsameKey⟩ := Prod.mk.inj heq
    -- The earlier effect has a receipt with the same run and call key, so it is this one.
    obtain ⟨other, hother, hrecords'⟩ := hs.recorded effect heffect run hrun
      (hrunId.trans hsameRun.symm)
    have hreceipts : receipt = other := by
      refine hs.db.receipt_unique hreceipt hother ?_ ?_
      · rw [hentered.runId, hrecords'.runId, hsameRun]
      · rw [hentered.callKey, hrecords'.callKey, hsameKey]
    rw [hreceipts, hrecords'.status] at hstarted
    cases hstarted

/-! ### The first and the third transaction -/

/-- The receipt that the first transaction entered is the only one with its identifier. -/
theorem ToolHost.Sound.startTool_receipt (hs : s.Sound) {context : RunContext}
    {request : ToolRequest} {callId : Id} (operation : ToolOperation)
    (h : startTool call context request s.db = .ok (.started callId) db') :
    callId ∈ db'.board.issued ∧ ∀ receipt, db'.HasReceipt receipt → receipt.id = callId →
      (Invocation.mk context request operation callId false).Entered receipt := by
  have hsound := hs.db.progress (progress_startTool hs.db h)
  obtain ⟨w, run, -, ⟨-, hrunId⟩, -, hfinished | hstarted⟩ := startTool_ok h
  · obtain ⟨_, -, -, -, -, -, -, heq, -⟩ := hfinished
    cases heq
  · obtain ⟨_, w', db₁, heq, hcallId, -, hstarts, rfl⟩ := hstarted
    obtain rfl := ToolStart.started.inj heq
    have hmem : AgentDb.HasReceipt { db₁ with workspaces := db₁.workspaces.put w' }
        { id := callId, runId := run.id, callKey := request.callKey, toolName := request.toolName
          argsHash := request.argsHash, status := .started, result := none
          errorCode := none } := by
      refine ⟨w', (Table.mem_put _).mpr (Or.inl rfl), ?_⟩
      rw [hstarts.receipts]
      exact List.mem_append_right _ (List.mem_singleton.mpr rfl)
    refine ⟨hsound.receipt_issued hmem, fun receipt hreceipt hid ↦ ?_⟩
    rw [hsound.receipt_eq hreceipt hmem hid]
    exact ⟨hrunId, rfl, rfl, rfl, Or.inl rfl⟩

/-- The third transaction leaves the receipt of the invocation failed. -/
theorem ToolHost.Sound.failTool_receipt (hs : s.Sound) {i : Invocation}
    (hi : i ∈ s.invocations.rows) {u : Unit}
    (h : failTool call i.context i.callId i.request s.db = .ok u db')
    (hreceipt : db'.HasReceipt receipt) (hid : receipt.id = i.callId) :
    receipt.status = .failed := by
  obtain ⟨w, run, w', ⟨hw, -⟩, ⟨hrun, hrunId⟩, hholds, rfl, rfl⟩ := failTool_ok h
  obtain ⟨v, hv, hmem⟩ := hreceipt
  rcases (Table.mem_put _).mp hv with rfl | ⟨hold, hkey⟩
  · obtain ⟨earlier, -, rfl⟩ := List.mem_map.mp hmem
    by_cases hcallId : earlier.id = i.callId
    · exact congrArg AgentToolCall.status (if_pos hcallId)
    · refine absurd ?_ hcallId
      rw [← hid]
      exact (congrArg AgentToolCall.id (if_neg hcallId)).symm
  · -- The session of the run has the receipt, so no other session has it.
    obtain ⟨hmem', -⟩ := hs.started hi ⟨v, hold, hmem⟩ hid hw hrun hrunId hholds.running
    have heq : v = w := hs.db.apart v hold w hw receipt.id (Workspace.uses_of_receipt hmem)
      (Workspace.uses_of_receipt hmem')
    exact absurd (congrArg Keyed.key heq) hkey

/-! ### One step -/

/-- What a step does to the database: progress that settles receipts of invocations only, and these
are started. -/
structure ToolHost.Advances (s s' : ToolHost) (permit : Permit) : Prop where
  progress : Progress permit s.db s'.db
  open_calls : ∀ id, permit.call id → ∃ i ∈ s.invocations.rows, i.callId = id
  started : ∀ receipt, s.db.HasReceipt receipt → permit.call receipt.id → receipt.status = .started

theorem ToolHost.Advances.refl {s' : ToolHost} (h : s'.db = s.db) : s.Advances s' {} where
  progress := by
    rw [h]
    exact .refl s.db
  open_calls _ hcall := hcall.elim
  started _ _ hcall := hcall.elim

theorem AgentOp.not_call_of_not_callsTool {op : AgentOp} (h : ¬ op.CallsTool) (id : Id) :
    ¬ op.permit.call id := by
  cases op with
  | startTool => exact absurd trivial h
  | runTool => exact absurd trivial h
  | failTool => exact absurd trivial h
  | _ => exact fun hcall ↦ hcall

namespace ToolHost.Sound

theorem other (hs : s.Sound) (input : AgentInput) (houtside : ¬ input.op.CallsTool) :
    ToolHost.Sound { s with db := Agent.step s.db input } ∧
      s.Advances { s with db := Agent.step s.db input } input.op.permit := by
  have hprogress := progress_step hs.db input
  have hcall := AgentOp.not_call_of_not_callsTool houtside
  refine ⟨hs.advance hprogress ?_ (fun id h ↦ absurd h (hcall id)) fun _ _ h ↦ absurd h (hcall _),
    hprogress, fun id h ↦ absurd h (hcall id), fun _ _ h ↦ absurd h (hcall _)⟩
  exact fun i hi ↦ ⟨i, hi, rfl, rfl, rfl, hcall i.callId⟩

theorem perform (hs : s.Sound) (call : Call) (context : RunContext) (request : ToolRequest)
    (operation : ToolOperation) : (s.perform call context request operation).Sound ∧
      s.Advances (s.perform call context request operation) {} := by
  unfold ToolHost.perform
  cases hstart : startTool call context request s.db with
  | error failure db' => exact ⟨hs, .refl rfl⟩
  | ok start db' =>
    have hprogress := progress_startTool hs.db hstart
    have hadvance : ToolHost.Sound { s with db := db' } :=
      hs.advance hprogress (fun i hi ↦ ⟨i, hi, rfl, rfl, rfl, id⟩) (fun _ h ↦ h.elim)
        fun _ _ h ↦ h.elim
    cases start with
    | finished result => exact ⟨hadvance, hprogress, fun _ h ↦ h.elim, fun _ _ h ↦ h.elim⟩
    | started callId =>
      obtain ⟨hissued, hentered⟩ := hs.startTool_receipt operation hstart
      exact ⟨hadvance.enter hissued hentered, hprogress, fun _ h ↦ h.elim, fun _ _ h ↦ h.elim⟩

theorem carryOut (hs : s.Sound) (call : Call) (later : Time) (callId : Id) :
    (s.carryOut call later callId).Sound ∧
      ∃ permit, s.Advances (s.carryOut call later callId) permit := by
  unfold ToolHost.carryOut
  cases hfind : s.invocations.find? callId with
  | none => exact ⟨hs, _, .refl rfl⟩
  | some i =>
    obtain ⟨hi, hcallId⟩ := (Table.find?_eq_some_iff _).mp hfind
    obtain rfl : i.callId = callId := hcallId
    by_cases hfailing : i.failing = true
    · simp only [hfailing, if_true]
      exact ⟨hs, _, .refl rfl⟩
    · simp only [hfailing]
      cases hrun : runTool call later i.context i.callId i.request i.operation s.db with
      | error failure db' => exact ⟨hs.fail _, _, .refl rfl⟩
      | ok result db' =>
        refine ⟨hs.commits hi hrun, .tool i.callId i.operation, progress_runTool hs.db hrun,
          fun id h ↦ ⟨i, hi, h.symm⟩, fun receipt hreceipt hid ↦ ?_⟩
        obtain ⟨earlier, _, hearlier, hearlierId, hstarted, -⟩ := hs.runTool_receipt hi hrun
        rw [hs.db.receipt_eq hreceipt hearlier (Eq.trans hid hearlierId.symm)]
        exact hstarted

theorem markFailed (hs : s.Sound) (call : Call) (callId : Id) :
    (s.markFailed call callId).Sound ∧ ∃ permit, s.Advances (s.markFailed call callId) permit := by
  unfold ToolHost.markFailed
  cases hfind : s.invocations.find? callId with
  | none => exact ⟨hs, _, .refl rfl⟩
  | some i =>
    obtain ⟨hi, hcallId⟩ := (Table.find?_eq_some_iff _).mp hfind
    obtain rfl : i.callId = callId := hcallId
    by_cases hfailing : i.failing = true
    · simp only [hfailing, if_true]
      have hkept : ∀ j ∈ (s.without i.callId).rows, ∃ k ∈ s.invocations.rows,
          j.context = k.context ∧ j.request = k.request ∧ j.callId = k.callId ∧
            k.callId ≠ i.callId := by
        intro j hj
        obtain ⟨hj, hne⟩ := List.mem_filter.mp hj
        exact ⟨j, hj, rfl, rfl, rfl, of_decide_eq_true hne⟩
      rcases commit_cases (failTool call i.context i.callId i.request) s.db with
        heq | ⟨_, db', hok, heq⟩
      · rw [heq]
        refine ⟨hs.advance (.refl s.db : Progress {} s.db s.db) ?_ (fun _ h ↦ h.elim)
          fun _ _ h ↦ h.elim, _, .refl rfl⟩
        intro j hj
        obtain ⟨k, hk, hcontext, hrequest, hsame, -⟩ := hkept j hj
        exact ⟨k, hk, hcontext, hrequest, hsame, id⟩
      · rw [heq]
        have hprogress := progress_failTool hs.db hok
        refine ⟨hs.advance hprogress hkept (fun id h ↦ ⟨i, hi, h.symm⟩) ?_, _, hprogress,
          fun id h ↦ ⟨i, hi, h.symm⟩, ?_⟩
        · intro receipt hreceipt hid hsucceeded
          rw [hs.failTool_receipt hi hok hreceipt hid] at hsucceeded
          cases hsucceeded
        · intro receipt hreceipt hid
          obtain ⟨w, run, -, ⟨hw, -⟩, ⟨hrun, hrunId⟩, hholds, -, -⟩ := failTool_ok hok
          exact (hs.started hi hreceipt hid hw hrun hrunId hholds.running).2
    · simp only [hfailing]
      exact ⟨hs, _, .refl rfl⟩

/-- Every step keeps the invariant. -/
theorem step (hs : s.Sound) (input : ToolInput) :
    (s.step input).Sound ∧ ∃ permit, s.Advances (s.step input) permit := by
  cases input with
  | other input houtside => exact ⟨(hs.other input houtside).1, _, (hs.other input houtside).2⟩
  | perform call context request operation =>
    exact ⟨(hs.perform call context request operation).1, _,
      (hs.perform call context request operation).2⟩
  | carryOut call later callId => exact hs.carryOut call later callId
  | interrupt callId => exact ⟨hs.fail callId, _, .refl rfl⟩
  | markFailed call callId => exact hs.markFailed call callId

end ToolHost.Sound

/-- The invariant holds in every state that a run reaches. -/
theorem ToolHost.sound_run (board : Board) (inputs : List ToolInput) :
    (System.run ToolHost.step (ToolHost.start board) inputs).Sound :=
  System.invariant_run_all (fun _ input hs ↦ (hs.step input).1) inputs _ (.start board)

/-! ### Repeated calls -/

/-- The arguments that every invocation must have. -/
def ToolRequest.Allowed (request : ToolRequest) : Prop :=
  request.toolName ∈ request.allowedTools ∧ request.callKey ≠ "" ∧ request.callKey.length ≤ 128

/-- The receipt answers the request: the same tool succeeded with the same arguments. -/
structure AgentToolCall.Answers (receipt : AgentToolCall) (request : ToolRequest) : Prop where
  status : receipt.status = .succeeded
  argsHash : receipt.argsHash = request.argsHash
  toolName : receipt.toolName = request.toolName

variable {db : AgentDb} {context : RunContext} {request : ToolRequest}

/-- A repeated call that is not refused is answered from the receipt. -/
theorem startTool_repeated (hsound : db.Sound) (hreceipt : db.HasReceipt receipt)
    (hrunId : receipt.runId = context.runId) (hkey : receipt.callKey = request.callKey)
    {start : ToolStart} (h : startTool call context request db = .ok start db') :
    start = .finished receipt.result ∧ receipt.Answers request ∧ db' = db := by
  obtain ⟨w, run, ⟨hw, -⟩, ⟨hrun, hid⟩, -, hfinished | hstarted⟩ := startTool_ok h
  · obtain ⟨found, hfound, hfoundRun, hfoundKey, hargs, htool, hstatus, rfl, rfl⟩ := hfinished
    obtain rfl : receipt = found := by
      refine hsound.receipt_unique hreceipt ⟨w, hw, hfound⟩ ?_ ?_
      · rw [hrunId, hfoundRun, hid]
      · rw [hkey, hfoundKey]
    exact ⟨rfl, ⟨hstatus, hargs, htool⟩, rfl⟩
  · obtain ⟨callId, w', db₁, -, -, hnew, -⟩ := hstarted
    have hmem := hsound.receipt_mem hreceipt hw hrun (hid.trans hrunId.symm)
    exact absurd ⟨hrunId.trans hid.symm, hkey⟩ (hnew receipt hmem)

/-- A repeated call under the lease with the same arguments is answered from a success. -/
theorem startTool_answers (hsound : db.Sound) (hreceipt : db.HasReceipt receipt)
    (hrunId : receipt.runId = context.runId) (hkey : receipt.callKey = request.callKey)
    (hanswers : receipt.Answers request) (hallowed : request.Allowed)
    (hlock : ∃ found, lockRun call context db = .ok found db) :
    startTool call context request db = .ok (.finished receipt.result) db := by
  obtain ⟨⟨w, run⟩, hlock⟩ := hlock
  obtain ⟨⟨hw, -⟩, ⟨hrun, hid⟩, -, -⟩ := lockRun_eq_ok.mp hlock
  have hmem := hsound.receipt_mem hreceipt hw hrun (hid.trans hrunId.symm)
  have hfind : w.toolCalls.rows.find?
      (fun row ↦ row.runId = run.id ∧ row.callKey = request.callKey) = some receipt := by
    cases hfound : w.toolCalls.rows.find?
        (fun row ↦ row.runId = run.id ∧ row.callKey = request.callKey) with
    | none =>
      refine absurd ?_ (List.find?_eq_none.mp hfound receipt hmem)
      exact decide_eq_true ⟨hrunId.trans hid.symm, hkey⟩
    | some found =>
      have hsame := List.find?_some hfound
      rw [decide_eq_true_eq] at hsame
      refine congrArg some (hsound.receipt_unique ⟨w, hw, List.mem_of_find?_eq_some hfound⟩ hreceipt
        ?_ ?_)
      · rw [hsame.1, hid, hrunId]
      · rw [hsame.2, hkey]
  unfold startTool
  refine require_bind_eq_ok.mpr ⟨hallowed, bind_eq_ok.mpr ⟨(w, run), db, hlock, ?_⟩⟩
  simp only [hfind]
  exact require_bind_eq_ok.mpr ⟨⟨hanswers.argsHash, hanswers.toolName⟩,
    require_bind_eq_ok.mpr ⟨hanswers.status, rfl⟩⟩

/-- A repeated call changes nothing. -/
theorem ToolHost.Sound.perform_repeated (hs : s.Sound) (hreceipt : s.db.HasReceipt receipt)
    (hrunId : receipt.runId = context.runId) (hkey : receipt.callKey = request.callKey)
    (operation : ToolOperation) : s.perform call context request operation = s := by
  unfold ToolHost.perform
  cases hstart : startTool call context request s.db with
  | error failure db' => rfl
  | ok start db' =>
    obtain ⟨rfl, -, rfl⟩ := startTool_repeated hs.db hreceipt hrunId hkey hstart
    rfl

/-! ### Every run of the tool calls -/

/-- The committed effects are, once each, the receipts that show a success, and a repeated call is
answered from its receipt or refused. -/
structure ToolHost.ExactlyOnce (s : ToolHost) : Prop where
  once : (s.effects.map (fun effect ↦ (effect.runId, effect.request.callKey))).Nodup
  committed : ∀ receipt, s.db.HasReceipt receipt → receipt.status = .succeeded →
    ∃ effect ∈ s.effects, effect.Records receipt
  recorded : ∀ effect ∈ s.effects, ∀ run, s.db.HasRun run → run.id = effect.runId →
    ∃ receipt, s.db.HasReceipt receipt ∧ effect.Records receipt
  repeated : ∀ receipt, s.db.HasReceipt receipt → ∀ (call : Call) (context : RunContext)
    (request : ToolRequest) (operation : ToolOperation), receipt.runId = context.runId →
    receipt.callKey = request.callKey → s.perform call context request operation = s
  answered : ∀ receipt, s.db.HasReceipt receipt → ∀ (call : Call) (context : RunContext)
    (request : ToolRequest), receipt.runId = context.runId → receipt.callKey = request.callKey →
    (∀ start db', startTool call context request s.db = .ok start db' →
      start = .finished receipt.result ∧ receipt.Answers request) ∧
    (receipt.Answers request → request.Allowed →
      (∃ found, lockRun call context s.db = .ok found s.db) →
        startTool call context request s.db = .ok (.finished receipt.result) s.db)

/-- In every state that the invocations reach, in any order with each other and with all other
services, an effect was committed at most once for a run and a call key, exactly where the receipt
shows a success with its result; and a repeated call runs nothing: under the lease it is answered
from a success with the same arguments, and otherwise refused. -/
theorem tools_exactly_once (board : Board) (inputs : List ToolInput) :
    (System.run ToolHost.step (ToolHost.start board) inputs).ExactlyOnce where
  once := (ToolHost.sound_run board inputs).once
  committed := (ToolHost.sound_run board inputs).committed
  recorded := (ToolHost.sound_run board inputs).recorded
  repeated _ hreceipt _ _ _ operation hrunId hkey :=
    (ToolHost.sound_run board inputs).perform_repeated hreceipt hrunId hkey operation
  answered receipt hreceipt call context request hrunId hkey := by
    have hsound := (ToolHost.sound_run board inputs).db
    refine ⟨fun start db' hstart ↦ ?_, fun hanswers hallowed hlock ↦ ?_⟩
    · obtain ⟨hfinished, hanswers, -⟩ := startTool_repeated hsound hreceipt hrunId hkey hstart
      exact ⟨hfinished, hanswers⟩
    · exact startTool_answers hsound hreceipt hrunId hkey hanswers hallowed hlock

/-- What a later state keeps of the receipts that reached their end. -/
structure ToolHost.Keeps (s s' : ToolHost) : Prop where
  follows : s.db.Follows s'.db
  kept : ∀ receipt, s.db.HasReceipt receipt → receipt.Settled → ∀ run, s'.db.HasRun run →
    run.id = receipt.runId → s'.db.HasReceipt receipt
  same : ∀ other, s'.db.HasReceipt other → other.id ∈ s.db.board.issued →
    ∃ receipt, s.db.HasReceipt receipt ∧ receipt.Same other

theorem ToolHost.Keeps.refl (s : ToolHost) : s.Keeps s where
  follows := .refl s.db
  kept _ hreceipt _ _ _ _ := hreceipt
  same other hother _ := ⟨other, hother, .refl other⟩

/-- One step leaves the receipts that reached their end. -/
theorem ToolHost.Keeps.step {s' : ToolHost} (hs : s.Sound) (hs' : s'.Sound) (h : s.Keeps s')
    (input : ToolInput) : s.Keeps (s'.step input) := by
  obtain ⟨-, permit, hprogress, -, hstarted⟩ := hs'.step input
  refine ⟨h.follows.trans hprogress.follows, ?_, ?_⟩
  · intro receipt hreceipt hsettled run hrun hid
    obtain ⟨w, hw, hmem⟩ := hreceipt
    obtain ⟨earlier, hearlier, hearlierId⟩ := hs.db.run_of_receipt hw hmem
    have hissued : run.id ∈ s.db.board.issued := by
      rw [hid, ← hearlierId]
      exact hs.db.run_issued ⟨w, hw, hearlier⟩
    obtain ⟨middle, hmiddle, hmiddleId, -⟩ := hprogress.follows.origin run hrun
      (h.follows.issued hissued)
    have hreceipt := h.kept receipt ⟨w, hw, hmem⟩ hsettled middle hmiddle (hmiddleId.trans hid)
    have hcall : ¬ permit.call receipt.id := fun hpermit ↦
      hsettled (hstarted receipt hreceipt hpermit)
    obtain ⟨latest, hlatest, hstays⟩ := hprogress.receipt_kept hs'.db hreceipt hcall hrun hid
    rw [hstays.eq_of_settled hsettled] at hlatest
    exact hlatest
  · intro other hother hissued
    obtain ⟨middle, hmiddle, hsame⟩ := hprogress.receipt_same hother (h.follows.issued hissued)
    obtain ⟨receipt, hreceipt, hsame'⟩ := h.same middle hmiddle (hsame.id ▸ hissued)
    exact ⟨receipt, hreceipt, hsame'.trans hsame⟩

/-- A receipt that reached its end is stored as it is as long as its run is stored, and nothing else
is stored under its identifier. -/
structure ToolHost.Settles (s s' : ToolHost) : Prop where
  kept : ∀ receipt, s.db.HasReceipt receipt → receipt.Settled → ∀ run, s'.db.HasRun run →
    run.id = receipt.runId → s'.db.HasReceipt receipt
  unchanged : ∀ receipt, s.db.HasReceipt receipt → receipt.Settled → ∀ other,
    s'.db.HasReceipt other → other.id = receipt.id → other = receipt

/-- From every state that the invocations reach to every later one, the receipts that succeeded,
failed or were abandoned stay as they are. -/
theorem receipts_settle (board : Board) (inputs further : List ToolInput) :
    (System.run ToolHost.step (ToolHost.start board) inputs).Settles
      (System.run ToolHost.step (ToolHost.start board) (inputs ++ further)) := by
  have hs := ToolHost.sound_run board inputs
  rw [System.run_append]
  generalize System.run ToolHost.step (ToolHost.start board) inputs = s at hs ⊢
  have hstep : ∀ (s' : ToolHost) (input : ToolInput), s'.Sound ∧ s.Keeps s' →
      (s'.step input).Sound ∧ s.Keeps (s'.step input) :=
    fun s' input h ↦ ⟨(h.1.step input).1, h.2.step hs h.1 input⟩
  obtain ⟨hs', hkeeps⟩ := System.invariant_run_all hstep further s ⟨hs, .refl s⟩
  refine ⟨hkeeps.kept, fun receipt hreceipt hsettled other hother hid ↦ ?_⟩
  obtain ⟨earlier, hearlier, hsame⟩ := hkeeps.same other hother
    (hid ▸ hs.db.receipt_issued hreceipt)
  obtain rfl := hs.db.receipt_eq hearlier hreceipt (hsame.id.symm.trans hid)
  obtain ⟨w, hw, hmem⟩ := hother
  obtain ⟨run, hrun, hrunId⟩ := hs'.db.run_of_receipt hw hmem
  have hstored := hkeeps.kept earlier hreceipt hsettled run ⟨w, hw, hrun⟩ (hrunId.trans hsame.runId)
  exact hs'.db.receipt_eq ⟨w, hw, hmem⟩ hstored hid

end FilmOS.Agent
