import FilmOS.Agent.RunLife

/-!
# Receipts of tool calls

What a transaction leaves of the receipts. A receipt that is stored belongs to a run that is stored,
it is known by its identifier, and by its run and call key (`receipt_eq`, `receipt_unique`). A
transaction without a permit for a receipt leaves it as it is, or gives it up while it is started
(`AgentToolCall.Stays`); this holds forwards, as long as the run of the receipt is stored
(`AgentDb.Progress.receipt_kept`), and backwards, where the only other receipts are new ones
(`AgentDb.Progress.receipt_origin`).
-/

set_option autoImplicit false
set_option relaxedAutoImplicit false

namespace FilmOS.Agent

open Transaction AgentDb

/-! ### Receipts in one session -/

/-- The receipt reached its end. -/
def AgentToolCall.Settled (receipt : AgentToolCall) : Prop := receipt.status ≠ .started

/-- What can become of a receipt that nobody may settle: it stays as it is, or is given up while it
is started. -/
structure AgentToolCall.Stays (receipt later : AgentToolCall) : Prop where
  same : receipt.Same later
  kept : later = receipt ∨ receipt.status = .started ∧ later.status = .abandoned

namespace AgentToolCall

variable {receipt later latest : AgentToolCall}

theorem Same.trans (h : receipt.Same later) (h' : later.Same latest) : receipt.Same latest :=
  ⟨h'.id.trans h.id, h'.runId.trans h.runId, h'.callKey.trans h.callKey,
    h'.toolName.trans h.toolName, h'.argsHash.trans h.argsHash⟩

theorem Stays.refl (receipt : AgentToolCall) : receipt.Stays receipt := ⟨.refl receipt, Or.inl rfl⟩

theorem Stays.trans (h : receipt.Stays later) (h' : later.Stays latest) : receipt.Stays latest where
  same := h.same.trans h'.same
  kept := by
    rcases h'.kept with rfl | ⟨hstarted, habandoned⟩
    · exact h.kept
    · rcases h.kept with rfl | ⟨-, hsettled⟩
      · exact Or.inr ⟨hstarted, habandoned⟩
      · rw [hsettled] at hstarted
        cases hstarted

theorem Stays.eq_of_settled (h : receipt.Stays later) (hsettled : receipt.Settled) :
    later = receipt := by
  rcases h.kept with heq | ⟨hstarted, -⟩
  · exact heq
  · exact absurd hstarted hsettled

/-- A receipt that shows a success showed it before. -/
theorem Stays.eq_of_succeeded (h : receipt.Stays later) (hstatus : later.status = .succeeded) :
    later = receipt := by
  rcases h.kept with heq | ⟨-, habandoned⟩
  · exact heq
  · rw [hstatus] at habandoned
    cases habandoned

end AgentToolCall

namespace Workspace

variable {permit : Permit} {fresh : Id → Prop} {w w' : Workspace} {receipt later : AgentToolCall}

theorem Change.receipt_kept (h : Change permit fresh w w') (hreceipt : receipt ∈ w.toolCalls.rows)
    (hcall : ¬ permit.call receipt.id) : ∃ later ∈ w'.toolCalls.rows, receipt.Stays later := by
  cases h with
  | addToolCall toolCall toolCalls hinsert =>
    refine ⟨receipt, ?_, .refl receipt⟩
    change receipt ∈ toolCalls.rows
    rw [((Table.insert?_eq_some_iff _ _ _).mp hinsert).2]
    exact List.mem_append_left _ hreceipt
  | setToolCall id change hid hsame hstarted habandoned =>
    by_cases hkey : receipt.id = id
    · refine ⟨change receipt, mem_setToolCall.mpr ⟨receipt, hreceipt, if_pos hkey⟩,
        hsame receipt, Or.inr ?_⟩
      rcases hstarted receipt hreceipt hkey with hgiven | hpermit
      · exact hgiven
      · exact absurd (hkey ▸ hpermit) hcall
    · exact ⟨receipt, mem_setToolCall.mpr ⟨receipt, hreceipt, if_neg hkey⟩, .refl receipt⟩
  | _ => exact ⟨receipt, hreceipt, .refl receipt⟩

/-- Changes without a permit for a receipt leave it, or give it up. -/
theorem Changes.receipt_kept (h : Changes permit fresh w w') (hreceipt : receipt ∈ w.toolCalls.rows)
    (hcall : ¬ permit.call receipt.id) : ∃ later ∈ w'.toolCalls.rows, receipt.Stays later := by
  induction h with
  | refl => exact ⟨receipt, hreceipt, .refl receipt⟩
  | tail _ hchange ih =>
    obtain ⟨later, hlater, hstays⟩ := ih
    have hcall' : ¬ permit.call later.id := hstays.same.id ▸ hcall
    obtain ⟨latest, hlatest, hstays'⟩ := hchange.receipt_kept hlater hcall'
    exact ⟨latest, hlatest, hstays.trans hstays'⟩

/-- A receipt that was there neither before nor with a permit is new, and shows no success. -/
theorem Changes.receipt_origin (h : Changes permit fresh w w') (hlater : later ∈ w'.toolCalls.rows)
    (hcall : ¬ permit.call later.id) :
    (fresh later.id ∧ (later.status = .started ∨ later.status = .abandoned)) ∨
      ∃ receipt ∈ w.toolCalls.rows, receipt.Stays later := by
  induction h generalizing later with
  | refl => exact Or.inr ⟨later, hlater, .refl later⟩
  | tail _ hchange ih =>
    rcases hchange.toolCall_origin later hlater with
      ⟨hfresh, hstarted, -⟩ | ⟨earlier, hearlier, hsame, hkept⟩
    · exact Or.inl ⟨hfresh, Or.inl hstarted⟩
    · have hcall' : ¬ permit.call earlier.id := hsame.id ▸ hcall
      have hstays : earlier.Stays later := by
        refine ⟨hsame, ?_⟩
        rcases hkept with heq | ⟨hgiven | hpermit, -⟩
        · exact Or.inl heq
        · exact Or.inr hgiven
        · exact absurd hpermit hcall'
      rcases ih hearlier hcall' with ⟨hfresh, hopen⟩ | ⟨receipt, hreceipt, hstays'⟩
      · refine Or.inl ⟨hsame.id ▸ hfresh, ?_⟩
        rcases hstays.kept with rfl | ⟨-, habandoned⟩
        · exact hopen
        · exact Or.inr habandoned
      · exact Or.inr ⟨receipt, hreceipt, hstays'.trans hstays⟩

/-- A receipt that is not new is the receipt of a tool call that was there before. -/
theorem Changes.receipt_same (h : Changes permit fresh w w') (hlater : later ∈ w'.toolCalls.rows) :
    fresh later.id ∨ ∃ receipt ∈ w.toolCalls.rows, receipt.Same later := by
  induction h generalizing later with
  | refl => exact Or.inr ⟨later, hlater, .refl later⟩
  | tail _ hchange ih =>
    rcases hchange.toolCall_origin later hlater with ⟨hfresh, -⟩ | ⟨earlier, hearlier, hsame, -⟩
    · exact Or.inl hfresh
    · rcases ih hearlier with hfresh | ⟨receipt, hreceipt, hsame'⟩
      · exact Or.inl (hsame.id ▸ hfresh)
      · exact Or.inr ⟨receipt, hreceipt, hsame'.trans hsame⟩

end Workspace

/-! ### Receipts in the database -/

/-- The receipt is stored. -/
def AgentDb.HasReceipt (db : AgentDb) (receipt : AgentToolCall) : Prop :=
  ∃ w ∈ db.workspaces.rows, receipt ∈ w.toolCalls.rows

variable {call : Call} {later : Time} {db db' : AgentDb} {permit : Permit}
  {receipt other : AgentToolCall}

theorem Workspace.uses_of_receipt {w : Workspace} (hreceipt : receipt ∈ w.toolCalls.rows) :
    w.Uses receipt.id :=
  Or.inr (Or.inr (Or.inr ((Table.mem_keys _).mpr ⟨receipt, hreceipt, rfl⟩)))

namespace AgentDb.Sound

theorem receipt_issued (hsound : db.Sound) (hreceipt : db.HasReceipt receipt) :
    receipt.id ∈ db.board.issued := by
  obtain ⟨w, hw, hmem⟩ := hreceipt
  exact hsound.issued w hw receipt.id (Workspace.uses_of_receipt hmem)

/-- The run of a receipt is stored, in the session of the receipt. -/
theorem run_of_receipt (hsound : db.Sound) {w : Workspace} (hw : w ∈ db.workspaces.rows)
    (hmem : receipt ∈ w.toolCalls.rows) : ∃ run ∈ w.runs.rows, run.id = receipt.runId :=
  (Table.mem_keys _).mp ((hsound.workspace w hw).receipts.runs receipt hmem)

/-- A run that a receipt is for is stored in the session of the receipt alone. -/
theorem receipt_mem (hsound : db.Sound) (hreceipt : db.HasReceipt receipt) {w : Workspace}
    (hw : w ∈ db.workspaces.rows) {run : AgentRun} (hrun : run ∈ w.runs.rows)
    (hid : run.id = receipt.runId) : receipt ∈ w.toolCalls.rows := by
  obtain ⟨v, hv, hmem⟩ := hreceipt
  obtain ⟨run', hrun', hid'⟩ := hsound.run_of_receipt hv hmem
  have huses : v.Uses run.id := hid.trans hid'.symm ▸ Workspace.uses_of_run hrun'
  rw [hsound.apart w hw v hv run.id (Workspace.uses_of_run hrun) huses]
  exact hmem

/-- A receipt is known by its identifier. -/
theorem receipt_eq (hsound : db.Sound) (hreceipt : db.HasReceipt receipt)
    (hother : db.HasReceipt other) (hid : receipt.id = other.id) : receipt = other := by
  obtain ⟨w, hw, hmem⟩ := hreceipt
  obtain ⟨v, hv, hmem'⟩ := hother
  obtain rfl := hsound.apart w hw v hv receipt.id (Workspace.uses_of_receipt hmem)
    (hid ▸ Workspace.uses_of_receipt hmem')
  exact w.toolCalls.eq_of_key_eq hmem hmem' hid

/-- A receipt is known by its run and its call key. -/
theorem receipt_unique (hsound : db.Sound) (hreceipt : db.HasReceipt receipt)
    (hother : db.HasReceipt other) (hrun : receipt.runId = other.runId)
    (hkey : receipt.callKey = other.callKey) : receipt = other := by
  obtain ⟨w, hw, hmem⟩ := hreceipt
  obtain ⟨run, hrow, hid⟩ := hsound.run_of_receipt hw hmem
  have hmem' := hsound.receipt_mem hother hw hrow (hid.trans hrun)
  exact (hsound.workspace w hw).receipts.unique receipt hmem other hmem' hrun hkey

end AgentDb.Sound

namespace AgentDb.Progress

/-- A transaction without a permit for a receipt leaves it or gives it up, as long as its run is
stored. -/
theorem receipt_kept (h : Progress permit db db') (hsound : db.Sound)
    (hreceipt : db.HasReceipt receipt) (hcall : ¬ permit.call receipt.id) {run : AgentRun}
    (hrun : db'.HasRun run) (hid : run.id = receipt.runId) :
    ∃ later, db'.HasReceipt later ∧ receipt.Stays later := by
  obtain ⟨w', hw', hrow'⟩ := hrun
  obtain ⟨v, hv, hmem⟩ := hreceipt
  obtain ⟨earlier, hearlier, hearlierId⟩ := hsound.run_of_receipt hv hmem
  have hissued : run.id ∈ db.board.issued := by
    rw [hid, ← hearlierId]
    exact hsound.run_issued ⟨v, hv, hearlier⟩
  obtain ⟨w, hw, hevolves⟩ : ∃ w ∈ db.workspaces.rows, w.Evolves permit (Fresh db db') w' := by
    rcases h.evolves w' hw' with hold | ⟨session, -, -, hevolves⟩
    · exact hold
    · rcases hevolves.changes.uses (Workspace.uses_of_run hrow') with hfresh | huses
      · exact absurd hissued hfresh.1
      · exact absurd huses (Workspace.not_uses_blank session run.id)
  rcases hevolves.changes.uses (Workspace.uses_of_run hrow') with hfresh | huses
  · exact absurd hissued hfresh.1
  · have heq : w = v := hsound.apart w hw v hv run.id huses
      (hid.trans hearlierId.symm ▸ Workspace.uses_of_run hearlier)
    obtain ⟨later, hlater, hstays⟩ := hevolves.changes.receipt_kept (heq ▸ hmem) hcall
    exact ⟨later, ⟨w', hw', hlater⟩, hstays⟩

/-- Where a receipt comes from: it was there before, or it is new and shows no success. -/
theorem receipt_origin (h : Progress permit db db') {later : AgentToolCall}
    (hlater : db'.HasReceipt later) (hcall : ¬ permit.call later.id) :
    (Fresh db db' later.id ∧ (later.status = .started ∨ later.status = .abandoned)) ∨
      ∃ receipt, db.HasReceipt receipt ∧ receipt.Stays later := by
  obtain ⟨w', hw', hmem⟩ := hlater
  rcases h.evolves w' hw' with ⟨w, hw, hevolves⟩ | ⟨session, -, -, hevolves⟩
  · rcases hevolves.changes.receipt_origin hmem hcall with hnew | ⟨receipt, hreceipt, hstays⟩
    · exact Or.inl hnew
    · exact Or.inr ⟨receipt, ⟨w, hw, hreceipt⟩, hstays⟩
  · rcases hevolves.changes.receipt_origin hmem hcall with hnew | ⟨receipt, hreceipt, -⟩
    · exact Or.inl hnew
    · cases hreceipt

/-- A receipt that is not new is the receipt of a tool call that was stored before. -/
theorem receipt_same (h : Progress permit db db') {later : AgentToolCall}
    (hlater : db'.HasReceipt later) (hissued : later.id ∈ db.board.issued) :
    ∃ receipt, db.HasReceipt receipt ∧ receipt.Same later := by
  obtain ⟨w', hw', hmem⟩ := hlater
  rcases h.evolves w' hw' with ⟨w, hw, hevolves⟩ | ⟨session, -, -, hevolves⟩
  · rcases hevolves.changes.receipt_same hmem with hfresh | ⟨receipt, hreceipt, hsame⟩
    · exact absurd hissued hfresh.1
    · exact ⟨receipt, ⟨w, hw, hreceipt⟩, hsame⟩
  · rcases hevolves.changes.receipt_same hmem with hfresh | ⟨receipt, hreceipt, -⟩
    · exact absurd hissued hfresh.1
    · cases hreceipt

end AgentDb.Progress

end FilmOS.Agent
