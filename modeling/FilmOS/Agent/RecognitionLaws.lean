import FilmOS.Agent.Matching
import FilmOS.Agent.Normalization
import FilmOS.Agent.Updates
import FilmOS.Board.Runs

/-!
# When an accepted recognition can be saved

`RECOGNIZE_ITEM` is accepted for every item that is neither finished nor recognised. What its run
reads is saved by `saveScreenshot`, which looks at the item once more: it must be open for edits,
the screenshot must not have further orders yet, and the draft with the new entries must be one that
is accepted. `recognition_saved_iff` compares the two in every run: when nobody changes the item in
between, a reading is saved exactly when the item is not deferred and the new entries and texts find
room. `recognition_not_saved` is the deferred item for which the command is accepted all the same.

What is proposed for an order is always well formed (`exists_proposed`), and merging it into a
stored draft fails for the number of specification entries only (`mergePatch_extraction_iff`).
-/

set_option autoImplicit false
set_option relaxedAutoImplicit false

namespace FilmOS.Agent

open Transaction PythonText Numeral Specification DraftFields

/-! ### Proposals -/

/-- The identifiers of the master data are such that a draft can hold them. -/
def HoldsIdentifiers (board : Board) : Prop :=
  ∀ id ∈ board.customers.keys ++ board.products.keys ++ board.formulas.keys,
    OpaqueId (some (trim id))

instance (board : Board) : Decidable (HoldsIdentifiers board) :=
  inferInstanceAs (Decidable (∀ _ ∈ _, _))

/-- What is proposed for an order that was read: everything in it is well formed, and the
specification is the measured one. -/
structure Proposal (raw : OrderExtraction) (dump : DraftDump) : Prop where
  customer : OpaqueId (dump.customerId.map trim)
  product : OpaqueId (dump.productId.map trim)
  formula : OpaqueId (dump.formulaId.map trim)
  mode : dump.formulaMode = "none" ∧ dump.formulaId = none ∨ dump.formulaMode = "existing"
  specParams : dump.specParams = (measureDimensions raw).specParams
  quantity : ∃ read, readQuantity dump.quantity = some read ∧ ∀ number ∈ read,
    PositiveDecimal number
  unit : ∀ unit ∈ dump.unit, unit = "m" ∨ unit = "kg"
  notes : dump.extraNotes.length ≤ 2000

/-- The quantity that normalisation writes is read back by a draft. -/
theorem normalizeExtraction_reads (raw : OrderExtraction) :
    ∃ quantity notes read, normalizeExtraction raw =
        .ok (normalizedDraft raw quantity notes, (measureDimensions raw).issues) ∧
      readQuantity quantity = some read ∧ ∀ number ∈ read, PositiveDecimal number := by
  cases hvalue : raw.quantity.value with
  | none =>
    have hquantity : normalizeQuantity raw.quantity (raw.notes.getD "") =
        .ok (none, raw.notes.getD "") := by
      unfold normalizeQuantity
      rw [hvalue]
      rfl
    exact ⟨none, _, none, normalizeExtraction_of_quantity hquantity, rfl, by simp⟩
  | some value =>
    have hbounded := raw.quantity.bounded value hvalue
    obtain ⟨converted, hconverted, hexponent, -, hquantity⟩ :=
      normalizeQuantity_some hvalue (raw.notes.getD "")
    have hfactor : 0 < (quantityFactor raw.quantity.unit).value := by
      rw [Decimal.value_pos_iff]
      rcases raw.quantity.unit with - | (- | - | - | -) <;> decide
    have hpos : 0 < converted.value := hconverted ▸ mul_pos hbounded.1 hfactor
    by_cases hfits : converted.value ≤ 10 ^ 12 ∧ -12 ≤ converted.exponent
    · rw [if_pos hfits] at hquantity
      obtain ⟨hread, hpositive⟩ := readQuantity_format hpos hexponent hfits.1 hfits.2
      exact ⟨_, _, _, normalizeExtraction_of_quantity hquantity, hread, by simpa using hpositive⟩
    · rw [if_neg hfits] at hquantity
      exact ⟨none, _, none, normalizeExtraction_of_quantity hquantity, rfl, by simp⟩

/-- The only row under a name is one of the rows. -/
theorem mem_of_onlyMatch {lowerTrimmed : String → String} {rows : List (Id × String)}
    {name : String} {id : Id} (h : onlyMatch lowerTrimmed rows name = some id) :
    id ∈ rows.map Prod.fst := by
  unfold onlyMatch at h
  split at h
  · rename_i row hrow
    have hmem : row ∈ rows := List.mem_of_mem_filter (hrow ▸ List.mem_singleton_self row)
    exact Option.some.inj h ▸ List.mem_map_of_mem hmem
  · cases h

section Board

variable {lowerTrimmed : String → String} {board : Board}

theorem opaqueId_of_customer (hids : HoldsIdentifiers board) {id : Id}
    (h : id ∈ (customerNames board).map Prod.fst) : OpaqueId (some (trim id)) := by
  refine hids id (List.mem_append_left _ (List.mem_append_left _ ?_))
  unfold customerNames at h
  rwa [List.map_map] at h

theorem opaqueId_of_product (hids : HoldsIdentifiers board) {id : Id}
    (h : id ∈ (productNames board).map Prod.fst) : OpaqueId (some (trim id)) := by
  refine hids id (List.mem_append_left _ (List.mem_append_right _ ?_))
  unfold productNames at h
  rwa [List.map_map] at h

theorem opaqueId_of_formula (hids : HoldsIdentifiers board) {id productId : Id}
    (h : id ∈ (formulaNames board productId).map Prod.fst) : OpaqueId (some (trim id)) := by
  unfold formulaNames at h
  rw [List.map_map] at h
  obtain ⟨row, hrow, rfl⟩ := List.mem_map.mp h
  exact hids _ (List.mem_append_right _ (List.mem_map_of_mem (List.mem_of_mem_filter hrow)))

/-- An identifier found under a name can be held by a draft. -/
theorem opaqueId_of_bind {names : Option String} {find : String → Option Id}
    (hfind : ∀ name id, find name = some id → OpaqueId (some (trim id))) :
    OpaqueId ((names.bind find).map trim) := by
  intro stripped hstripped
  obtain ⟨id, hid, rfl⟩ := Option.map_eq_some_iff.mp hstripped
  obtain ⟨name, -, hname⟩ := Option.bind_eq_some_iff.mp hid
  exact hfind name id hname _ rfl

/-- An identifier that stands, or is taken from an accepted choice, can be held by a draft. -/
theorem opaqueId_of_guess {rows : List (Id × String)}
    (hrows : ∀ id ∈ rows.map Prod.fst, OpaqueId (some (trim id))) {value : Option Id}
    (hvalue : OpaqueId (value.map trim)) (guess : Option EntityGuess) :
    OpaqueId ((((acceptedGuess lowerTrimmed rows value guess).map
      (some ·.candidateId)).getD value).map trim) := by
  cases hguess : acceptedGuess lowerTrimmed rows value guess with
  | none => exact hvalue
  | some accepted =>
    unfold acceptedGuess at hguess
    split_ifs at hguess
    obtain ⟨-, hmatch⟩ := Option.filter_eq_some_iff.mp hguess
    exact hrows _ (mem_of_onlyMatch (of_decide_eq_true hmatch))

theorem length_describedNotes_le (description : Option String) {notes : String}
    (hnotes : notes.length ≤ 2000) : (describedNotes description notes).length ≤ 2000 := by
  unfold describedNotes
  split
  · exact hnotes
  · rw [String.length_ofList, List.length_take]
    exact min_le_left _ _

/-- Normalisation proposes a draft without names. -/
theorem proposal_normalizedDraft (raw : OrderExtraction) :
    ∃ dump issues, normalizeExtraction raw = .ok (dump, issues) ∧ Proposal raw dump := by
  obtain ⟨quantity, notes, read, hnormalized, hread, hpositive⟩ := normalizeExtraction_reads raw
  have hnone : OpaqueId (Option.map trim none) := by
    intro _ h
    cases h
  have hunit : ∀ unit ∈ raw.quantity.unit.map quantityTarget, unit = "m" ∨ unit = "kg" := by
    rcases raw.quantity.unit with - | (- | - | - | -) <;> decide
  have hnotes : (String.ofList (notes.toList.take 2000)).length ≤ 2000 := by
    rw [String.length_ofList, List.length_take]
    exact min_le_left _ _
  exact ⟨_, _, hnormalized,
    ⟨hnone, hnone, hnone, Or.inl ⟨rfl, rfl⟩, rfl, ⟨read, hread, hpositive⟩, hunit, hnotes⟩⟩

/-- The normalised draft with the names looked up. -/
theorem extractedDraft_proposal (hids : HoldsIdentifiers board) (raw : OrderExtraction) :
    ∃ dump, extractedDraft lowerTrimmed board raw = .ok dump ∧ Proposal raw dump := by
  obtain ⟨dump, issues, hnormalized, hproposal⟩ := proposal_normalizedDraft raw
  have hcustomer : OpaqueId (((truthy raw.customerName).bind
      (onlyMatch lowerTrimmed (customerNames board))).map trim) :=
    opaqueId_of_bind fun _ _ h ↦ opaqueId_of_customer hids (mem_of_onlyMatch h)
  have hproduct : OpaqueId (((truthy raw.productDescription).bind
      (onlyMatch lowerTrimmed (productNames board))).map trim) :=
    opaqueId_of_bind fun _ _ h ↦ opaqueId_of_product hids (mem_of_onlyMatch h)
  have hformula : ∀ productId : Option Id, OpaqueId (((truthy raw.formulaRaw).bind (fun name ↦
      (truthy productId).bind (fun productId ↦
        onlyMatch lowerTrimmed (formulaNames board productId) name))).map trim) := by
    refine fun productId ↦ opaqueId_of_bind fun name id h ↦ ?_
    obtain ⟨productId, -, hmatch⟩ := Option.bind_eq_some_iff.mp h
    exact opaqueId_of_formula hids (mem_of_onlyMatch hmatch)
  unfold extractedDraft
  rw [hnormalized]
  refine ⟨_, rfl, ?_⟩
  dsimp only
  split_ifs
  · exact ⟨hcustomer, hproduct, hformula _, Or.inr rfl, hproposal.specParams, hproposal.quantity,
      hproposal.unit, hproposal.notes⟩
  · exact ⟨hcustomer, hproduct, hproposal.formula, hproposal.mode, hproposal.specParams,
      hproposal.quantity, hproposal.unit, hproposal.notes⟩

/-- The draft with the accepted choices. -/
theorem suggestedDraft_proposal (hids : HoldsIdentifiers board) (raw : OrderExtraction)
    (suggestions : Suggestions) :
    ∃ dump issues, suggestedDraft lowerTrimmed board raw suggestions = .ok (dump, issues) ∧
      Proposal raw dump := by
  obtain ⟨dump, hextracted, hproposal⟩ :=
    @extractedDraft_proposal lowerTrimmed board hids raw
  unfold suggestedDraft
  rw [hextracted]
  refine ⟨_, _, rfl, ?_⟩
  exact
    { customer := opaqueId_of_guess (fun _ ↦ opaqueId_of_customer hids) hproposal.customer _
      product := opaqueId_of_guess (fun _ ↦ opaqueId_of_product hids) hproposal.product _
      formula := hproposal.formula
      mode := hproposal.mode
      specParams := hproposal.specParams
      quantity := hproposal.quantity
      unit := hproposal.unit
      notes := by
        dsimp only
        split_ifs
        · exact length_describedNotes_le _ hproposal.notes
        · exact hproposal.notes }

/-- Whatever was read for an order, something well formed is proposed for it. -/
theorem exists_proposed (hids : HoldsIdentifiers board) (reading : OrderReading)
    (suggestions : Suggestions) :
    ∃ order dump, recognizedOrder lowerTrimmed board reading suggestions = .ok order ∧
      Proposal reading.extraction dump ∧ dump.fields = some order.proposed := by
  obtain ⟨dump, matchIssues, hsuggested, hproposal⟩ :=
    @suggestedDraft_proposal lowerTrimmed board hids reading.extraction suggestions
  obtain ⟨normalized, issues, hnormalized, -⟩ := proposal_normalizedDraft reading.extraction
  obtain ⟨read, hread, -⟩ := hproposal.quantity
  have hfields : dump.fields = some _ := congrArg (Option.map _) hread
  unfold recognizedOrder
  rw [hsuggested, hnormalized]
  simp only [bind, Except.bind, hfields]
  exact ⟨_, dump, rfl, hproposal, hfields⟩

end Board

/-! ### Merging a proposal into a stored draft -/

/-- The specification entries that a reading adds to the draft of an item: those that the
draft does not have and that the user did not write. -/
def OrderIntakeItem.addedEntries (item : OrderIntakeItem) (raw : OrderExtraction) : List String :=
  (measureDimensions raw).specParams.keys.filter (fun key ↦
    key ∉ item.draft.fields.specParams.keys && !item.userWrote ("spec_params." ++ key))

/-- The draft of an item has room for the entries that a reading adds. -/
def OrderIntakeItem.HasRoom (item : OrderIntakeItem) (raw : OrderExtraction) : Prop :=
  item.draft.fields.specParams.rows.length + (item.addedEntries raw).length ≤ 30

instance (item : OrderIntakeItem) (raw : OrderExtraction) : Decidable (item.HasRoom raw) :=
  inferInstanceAs (Decidable (_ ≤ _))

/-- The entries of a proposal that the user did not write. -/
def unwrittenEntries (item : OrderIntakeItem) (proposed : DraftFields) : List (String × String) :=
  proposed.specParams.rows.filter (fun entry ↦ !item.userWrote ("spec_params." ++ entry.1))

/-- The identifiers and the keys of a draft that was validated have no white space around them. -/
structure IsStripped (fields : DraftFields) : Prop where
  customer : fields.customerId.map trim = fields.customerId
  product : fields.productId.map trim = fields.productId
  formula : fields.formulaId.map trim = fields.formulaId
  keys : ∀ entry ∈ fields.specParams.rows, trim entry.1 = entry.1

theorem OrderDraft.Validated.isStripped {draft : OrderDraft} (h : draft.Validated) :
    IsStripped draft.fields := by
  obtain ⟨candidate, hcandidate⟩ := h
  unfold OrderDraft.modelValidate at hcandidate
  split_ifs at hcandidate with hvalid
  obtain rfl := Option.some.inj hcandidate
  have hmap : ∀ value : Option Id, (value.map trim).map trim = value.map trim := by
    intro value
    rw [Option.map_map]
    exact congrArg (Option.map · value) (funext trim_trim)
  refine ⟨hmap _, hmap _, hmap _, fun entry hentry ↦ ?_⟩
  obtain ⟨given, -, rfl⟩ := List.mem_map.mp (Dict.mem_of_mem_ofList hentry)
  exact trim_trim given.1

/-- Setting entries one after another is an update. -/
theorem patchSpecs_some (specs : Dict String) (items : List (String × String))
    (hnodup : (items.map Prod.fst).Nodup) :
    patchSpecs specs (Dict.ofList (items.map (fun entry ↦ (entry.1, some entry.2)))) =
      specs.update items := by
  have hkeys : ((items.map (fun entry ↦ (entry.1, some entry.2))).map Prod.fst).Nodup := by
    rwa [List.map_map]
  unfold patchSpecs
  rw [Dict.rows_ofList hkeys, List.foldl_map]
  rfl

section Merge

variable {item : OrderIntakeItem} {raw : OrderExtraction} {dump : DraftDump}
  {proposed : DraftFields}

theorem nodup_unwrittenEntries (item : OrderIntakeItem) (proposed : DraftFields) :
    ((unwrittenEntries item proposed).map Prod.fst).Nodup :=
  proposed.specParams.nodup.sublist (List.filter_sublist.map Prod.fst)

/-- The specification of the merged draft. -/
theorem specParams_applyTo_extraction (item : OrderIntakeItem) (proposed : DraftFields) :
    ((extractionPatch item proposed).applyTo item.draft).specParams =
      item.draft.fields.specParams.update (unwrittenEntries item proposed) :=
  patchSpecs_some _ _ (nodup_unwrittenEntries item proposed)

/-- The number of specification entries of the merged draft. -/
theorem length_applyTo_extraction
    (hspecs : proposed.specParams = (measureDimensions raw).specParams) :
    ((extractionPatch item proposed).applyTo item.draft).specParams.rows.length =
      item.draft.fields.specParams.rows.length + (item.addedEntries raw).length := by
  have hkeys : (unwrittenEntries item proposed).map Prod.fst =
      (measureDimensions raw).specParams.keys.filter (fun key ↦
        !item.userWrote ("spec_params." ++ key)) := by
    unfold unwrittenEntries Table.keys
    rw [hspecs, List.filter_map]
    rfl
  rw [specParams_applyTo_extraction, Dict.length_update (nodup_unwrittenEntries item proposed),
    hkeys, List.filter_filter]
  rfl

theorem trim_keys_specParams (raw : OrderExtraction) :
    ∀ entry ∈ (measureDimensions raw).specParams.rows, trim entry.1 = entry.1 := by
  have hround : ∀ {υ : Type} {scale : Scale υ} (hsmall : scale.IsSmall)
      (hlabel : trim scale.dimension.label = scale.dimension.label)
      (measurement : SpecificationMeasurement υ) (measured : Measured),
      (∀ entry ∈ measured.specs.rows, trim entry.1 = entry.1) →
        ∀ entry ∈ (addMeasurement scale measurement measured).specs.rows,
          trim entry.1 = entry.1 := by
    intro υ scale hsmall hlabel measurement measured h entry hentry
    rcases addMeasurement_cases hsmall measurement measured with heq | ⟨content, hspecs, -⟩
    · exact h entry (heq ▸ hentry)
    · rw [hspecs] at hentry
      rcases Dict.mem_set.mp hentry with rfl | ⟨hentry, -⟩
      · exact hlabel
      · exact h entry hentry
  have hspecs : ∀ entry ∈ (measureDimensions raw).specs.rows, trim entry.1 = entry.1 :=
    hround isSmall_thicknessScale (by decide) _ _
      (hround isSmall_widthScale (by decide) _ _ fun _ h ↦ absurd h List.not_mem_nil)
  intro entry hentry
  unfold Measured.specParams at hentry
  split_ifs at hentry
  · exact hspecs entry hentry
  · rcases Dict.mem_set.mp hentry with rfl | ⟨hentry, -⟩
    · exact (by decide : trim originalKey = originalKey)
    · exact hspecs entry hentry

/-- An entry of the merged specification was proposed or stored. -/
theorem mem_applyTo_extraction (hspecs : proposed.specParams = (measureDimensions raw).specParams)
    {entry : String × String}
    (h : entry ∈ ((extractionPatch item proposed).applyTo item.draft).specParams.rows) :
    entry ∈ (measureDimensions raw).specParams.rows ∨
      entry ∈ item.draft.fields.specParams.rows := by
  rw [specParams_applyTo_extraction] at h
  refine (Dict.mem_update_items h).imp_left fun hentry ↦ ?_
  rw [← hspecs]
  exact List.mem_of_mem_filter hentry

/-- Dropping white space leaves the entries of the merged specification apart. -/
theorem length_stripped_applyTo (hvalidated : item.draft.Validated)
    (hspecs : proposed.specParams = (measureDimensions raw).specParams) :
    ((extractionPatch item proposed).applyTo item.draft).stripped.specParams.rows.length =
      ((extractionPatch item proposed).applyTo item.draft).specParams.rows.length := by
  generalize hmerged : (extractionPatch item proposed).applyTo item.draft = merged
  have hkeys : (merged.specParams.rows.map (fun entry ↦ (trim entry.1, trim entry.2))).map
      Prod.fst = merged.specParams.rows.map Prod.fst := by
    rw [List.map_map]
    refine List.map_congr_left fun entry hentry ↦ ?_
    subst hmerged
    rcases mem_applyTo_extraction hspecs hentry with h | h
    · exact trim_keys_specParams raw entry h
    · exact hvalidated.isStripped.keys entry h
  have hnodup : ((merged.specParams.rows.map (fun entry ↦ (trim entry.1, trim entry.2))).map
      Prod.fst).Nodup := hkeys ▸ merged.specParams.nodup
  have hrows := Dict.rows_ofList hnodup
  exact (congrArg List.length hrows).trans (List.length_map _)

/-- An identifier of the merged draft is the one stored or the one proposed. -/
theorem opaqueId_getD {path : String} {stored value : Option Id} (hstored : OpaqueId stored)
    (htrim : stored.map trim = stored) (hvalue : OpaqueId (value.map trim)) :
    OpaqueId (((if item.userWrote path then none else some value).getD stored).map trim) := by
  split_ifs
  · rw [Option.getD_none, htrim]
    exact hstored
  · exact hvalue

/-- The entries of the merged specification are well formed once white space is dropped. -/
theorem validSpecs_applyTo_extraction
    (hspecs : proposed.specParams = (measureDimensions raw).specParams) (hroom : item.HasRoom raw) :
    ValidSpecs ((extractionPatch item proposed).applyTo item.draft).stripped.specParams := by
  have hmerged : ValidSpecs ((extractionPatch item proposed).applyTo item.draft).specParams := by
    refine ⟨?_, fun entry hentry ↦ ?_⟩
    · rw [length_applyTo_extraction hspecs]
      exact hroom
    · rcases mem_applyTo_extraction hspecs hentry with h | h
      · exact (validSpecs_specParams raw).2 entry h
      · exact item.draft.valid.2.2.2.1.2 entry h
  exact validSpecs_stripped hmerged

/-- A formula is only named where the mode of the merged draft says so. -/
theorem formulaId_applyTo_extraction (item : OrderIntakeItem) (hproposal : Proposal raw dump)
    (hmode : proposed.formulaMode = dump.formulaMode) :
    let merged := (extractionPatch item proposed).applyTo item.draft
    (merged.formulaMode = "none" ∨ merged.formulaMode = "existing") ∧
      (merged.formulaMode = "none" → merged.formulaId = none) ∧
      (merged.formulaId = item.draft.fields.formulaId ∨ merged.formulaId = none ∨
        merged.formulaId = proposed.formulaId) := by
  obtain ⟨-, -, -, -, -, -, hmodes, hnone, -⟩ := item.draft.valid
  by_cases hwritten : item.userWrote "formula_id" || item.userWrote "formula_mode"
  · have hpatch : (extractionPatch item proposed).formulaMode = none ∧
        (extractionPatch item proposed).formulaId = none := ⟨if_pos hwritten, if_pos hwritten⟩
    have hmerged : ((extractionPatch item proposed).applyTo item.draft).formulaMode =
          item.draft.fields.formulaMode ∧
        ((extractionPatch item proposed).applyTo item.draft).formulaId =
          item.draft.fields.formulaId := by
      unfold DraftPatch.applyTo
      rw [hpatch.1, hpatch.2]
      exact ⟨rfl, rfl⟩
    dsimp only
    rw [hmerged.1, hmerged.2]
    exact ⟨hmodes, hnone, Or.inl rfl⟩
  · have hpatch : (extractionPatch item proposed).formulaMode = some proposed.formulaMode ∧
        (extractionPatch item proposed).formulaId = some proposed.formulaId :=
      ⟨if_neg hwritten, if_neg hwritten⟩
    have hmerged : ((extractionPatch item proposed).applyTo item.draft).formulaMode =
          proposed.formulaMode ∧
        ((extractionPatch item proposed).applyTo item.draft).formulaId =
          if proposed.formulaMode = "none" then none else proposed.formulaId := by
      unfold DraftPatch.applyTo
      rw [hpatch.1, hpatch.2]
      simp
    dsimp only
    rw [hmerged.1, hmerged.2]
    refine ⟨?_, fun h ↦ if_pos h, ?_⟩
    · rw [hmode]
      exact hproposal.mode.imp And.left id
    · split_ifs
      · exact Or.inr (Or.inl rfl)
      · exact Or.inr (Or.inr rfl)

theorem mergePatch_ok_iff {draft : OrderDraft} {patch : DraftPatch} (hothers : patch.others = []) :
    (∃ merged, mergePatch draft patch = .ok merged) ↔ (patch.applyTo draft).stripped.Valid := by
  unfold mergePatch OrderDraft.modelValidate
  rw [if_neg (fun h ↦ h hothers)]
  by_cases h : (patch.applyTo draft).stripped.Valid
  · simp [h]
  · simp [h]

/-- A field of the merged draft is the one stored or the one proposed. -/
theorem getD_unlessWritten {α : Type} (holds : α → Prop) {stored value : α} {path : String}
    (hstored : holds stored) (hvalue : holds value) :
    holds ((if item.userWrote path then none else some value).getD stored) := by
  split_ifs
  · exact hstored
  · exact hvalue

/-- Merging a proposal into a stored draft fails for want of room only. -/
theorem mergePatch_extraction_iff (hvalidated : item.draft.Validated)
    (hproposal : Proposal raw dump) (hfields : dump.fields = some proposed) :
    (∃ merged, mergePatch item.draft (extractionPatch item proposed) = .ok merged) ↔
      item.HasRoom raw := by
  obtain ⟨read, hread, hproposed⟩ := Option.map_eq_some_iff.mp hfields
  obtain ⟨read', hread', hpositive⟩ := hproposal.quantity
  obtain rfl := Option.some.inj (hread.symm.trans hread')
  have hspecs : proposed.specParams = (measureDimensions raw).specParams := by
    subst hproposed
    exact hproposal.specParams
  rw [mergePatch_ok_iff rfl]
  constructor
  · intro h
    have hcount := h.2.2.2.1.1
    have hlength := length_stripped_applyTo hvalidated hspecs
    rw [length_applyTo_extraction hspecs] at hlength
    change List.length _ ≤ 30 at hcount
    rw [hlength] at hcount
    exact hcount
  · intro hroom
    obtain ⟨hcustomer, hproduct, hformula, -, hquantity, hunit, -, -, hnotes⟩ := item.draft.valid
    have hstripped := hvalidated.isStripped
    have hvalid := validSpecs_applyTo_extraction hspecs hroom
    have hproposedMode : proposed.formulaMode = dump.formulaMode := hproposed ▸ rfl
    obtain ⟨hmodes, hnone, hformulaId⟩ := formulaId_applyTo_extraction item hproposal hproposedMode
    subst hproposed
    refine ⟨?_, ?_, ?_, hvalid, ?_, ?_, hmodes, ?_, (length_trim_le _).trans ?_⟩
    · exact opaqueId_getD hcustomer hstripped.customer hproposal.customer
    · exact opaqueId_getD hproduct hstripped.product hproposal.product
    · change OpaqueId (Option.map trim _)
      rcases hformulaId with h | h | h
      · rw [h, hstripped.formula]
        exact hformula
      · rw [h]
        intro _ hmem
        cases hmem
      · rw [h]
        exact hproposal.formula
    · exact getD_unlessWritten (fun value ↦ ∀ quantity ∈ value, PositiveDecimal quantity) hquantity
        hpositive
    · exact getD_unlessWritten (fun value ↦ ∀ unit ∈ value, unit = "m" ∨ unit = "kg") hunit
        hproposal.unit
    · intro hmode
      change Option.map trim _ = none
      rw [hnone hmode, Option.map_none]
    · exact getD_unlessWritten (fun notes : String ↦ notes.length ≤ 2000) hnotes hproposal.notes

end Merge

/-! ### The accepted command -/

section Command

variable {call : Call} {db db' : AgentDb} {w w' : Workspace}

/-- A command to recognise an item that is not a repeated one: the item is neither finished nor
recognised, and only its revision changes. -/
theorem recognizeCommand_ok {itemId userId : Id} {key : String} {payload : ActionPayload}
    {result : CommandResult} (hfree : db.commands.find? (userId, key) = none)
    (h : itemCommand call itemId userId key .recognizeItem payload db = .ok result db') :
    ∃ w item w', (w ∈ db.workspaces.rows ∧ item ∈ w.items.rows ∧ item.id = itemId) ∧
      (item.status ≠ .created ∧ item.status ≠ .closed) ∧ item.recognitionStatus ≠ .succeeded ∧
      w' ∈ db'.workspaces.rows ∧ w'.items = (w.reviseItem item.id).items := by
  unfold itemCommand at h
  rcases replaying_ok h with ⟨row, hrow, -⟩ | ⟨-, hbody⟩
  · rw [hfree] at hrow
    cases hrow
  clear h
  obtain ⟨⟨w, item⟩, db₁, hfound, hrest⟩ := bind_eq_ok.mp hbody
  clear hbody
  obtain ⟨⟨hw, -⟩, hitem, hid, -, rfl⟩ := requireItem_ok hfound
  obtain ⟨_, db₂, hcheck, h⟩ := bind_eq_ok.mp hrest
  obtain ⟨-, rfl⟩ := requireIdle_eq_ok.mp hcheck
  obtain ⟨commandId, db₃, -, h⟩ := bind_eq_ok.mp h
  rw [if_neg (by rintro ⟨h, -⟩; cases h)] at h
  obtain ⟨effect, db₄, hchange, h⟩ := bind_eq_ok.mp h
  obtain ⟨_, db₅, hsave, h⟩ := bind_eq_ok.mp h
  obtain rfl := save_eq_ok.mp hsave
  have hsaved : effect.workspace ∈ db'.workspaces.rows := by
    rw [(prepared_recordItemCommand h).workspaces]
    exact (Table.mem_put _).mpr (Or.inl rfl)
  unfold changeItem at hchange
  obtain ⟨_, -, hchange⟩ := checked_bind_eq_ok.mp hchange
  obtain ⟨hopen, hchange⟩ := require_bind_eq_ok.mp hchange
  obtain ⟨recognition, db₆, hrecognize, hchange⟩ := bind_eq_ok.mp hchange
  have hadvances : ¬ Advances .recognizeItem payload := by
    rintro ⟨-, h | h | h⟩ <;> cases h
  rw [if_neg hadvances] at hchange
  obtain ⟨w₁, db₇, hw₁, hchange⟩ := bind_eq_ok.mp hchange
  obtain ⟨rfl, rfl⟩ := pure_eq_ok.mp hw₁
  obtain ⟨w₂, db₈, hconfirm, hchange⟩ := bind_eq_ok.mp hchange
  obtain ⟨rfl, rfl⟩ := pure_eq_ok.mp hchange
  change recognizeItem call commandId item w db₃ = .ok recognition db₆ at hrecognize
  unfold recognizeItem at hrecognize
  obtain ⟨hunrecognised, hrecognize⟩ := require_bind_eq_ok.mp hrecognize
  obtain ⟨runId, db₉, -, hrecognize⟩ := bind_eq_ok.mp hrecognize
  obtain ⟨w₃, hrun, hrecognize⟩ := checked_bind_eq_ok.mp hrecognize
  obtain ⟨rfl, rfl⟩ := pure_eq_ok.mp hrecognize
  obtain ⟨rfl, rfl⟩ := pure_eq_ok.mp hconfirm
  have hitems : w₃.items = w.items := (items_addRun hrun).trans rfl
  refine ⟨w, item, _, ⟨hw, hitem, hid⟩, hopen, hunrecognised, hsaved, ?_⟩
  exact congrArg (fun items : Table OrderIntakeItem ↦
    items.update item.id (fun row ↦ { row with revision := row.revision + 1 }) (fun _ ↦ rfl)) hitems

/-- The item that a run loads after its command was accepted. -/
theorem loaded_of_accepted (hsound : db.Sound) {later : Time} {itemId userId : Id} {key : String}
    {payload : ActionPayload} {item : OrderIntakeItem}
    (haccepted : AgentInput.Accepted
      ⟨call, later, .itemCommand itemId userId key .recognizeItem payload⟩ db)
    (hloaded : (step db ⟨call, later, .itemCommand itemId userId key .recognizeItem payload⟩).Shows
      item) (hid : item.id = itemId) :
    (item.status ≠ .created ∧ item.status ≠ .closed) ∧ item.recognitionStatus ≠ .succeeded := by
  have hsound' := hsound.step ⟨call, later, .itemCommand itemId userId key .recognizeItem payload⟩
  obtain ⟨hfree, result, db', hok, -⟩ := haccepted
  obtain ⟨w, before, w', ⟨-, hbefore, hidBefore⟩, hopen, hunrecognised, hw', hitems⟩ :=
    recognizeCommand_ok hfree hok
  have hrow : { before with revision := before.revision + 1 } ∈ w'.items.rows := by
    rw [hitems]
    exact List.mem_map.mpr ⟨before, hbefore, if_pos rfl⟩
  have hstate : step db ⟨call, later, .itemCommand itemId userId key .recognizeItem payload⟩ =
    db' :=
    commit_of_ok hok
  rw [hstate] at hloaded hsound'
  obtain rfl := hsound'.shows_eq ⟨w', hw', hrow⟩ hloaded (hid.trans hidBefore.symm)
  exact ⟨hopen, hunrecognised⟩

end Command

/-! ### Saving -/

section Saving

variable {call : Call} {db db' : AgentDb} {w w' : Workspace} {item : OrderIntakeItem}

/-- The first order of a screenshot is saved exactly when its item is open for edits and the merged
draft is accepted. -/
theorem saveExtraction_ok_iff (board : Board) (order : RecognizedOrder) (runId : Id)
    (hopen : item.status ≠ .created ∧ item.status ≠ .closed) :
    (∃ w', saveExtraction call board item order item.revision runId w = .ok w') ↔
      item.status ≠ .deferred ∧
        ∃ draft, mergePatch item.draft (extractionPatch item order.proposed) = .ok draft := by
  have hstatus : item.status ≠ .deferred ↔ item.status = .pending ∨ item.status = .active := by
    obtain ⟨hcreated, hclosed⟩ := hopen
    cases hstatus : item.status <;> simp_all
  unfold saveExtraction patchDraft requireItemRevision
  simp only [except_bind_eq_ok, except_pure_eq_ok, ensure_eq_ok]
  rw [hstatus]
  constructor
  · rintro ⟨w', _, -, w₁, ⟨_, -, _, hedits, draft, hmerge, -⟩, -⟩
    refine ⟨?_, draft, hmerge⟩
    rcases hedits with ⟨-, h⟩ | ⟨h, -⟩
    · exact h
    · exact Or.inr h
  · rintro ⟨hedits, draft, hmerge⟩
    exact ⟨_, (), trivial, _, ⟨(), trivial, (), Or.inl ⟨trivial, hedits⟩, draft, hmerge, rfl⟩, rfl⟩

theorem keys_setItem (w : Workspace) (id : Id) (change : OrderIntakeItem → OrderIntakeItem)
    (hid : ∀ item, (change item).id = item.id) :
    (w.setItem id change hid).items.keys = w.items.keys :=
  Table.keys_update w.items id change hid

theorem find?_setItem (w : Workspace) (id : Id) (change : OrderIntakeItem → OrderIntakeItem)
    (hid : ∀ item, (change item).id = item.id) :
    (w.setItem id change hid).items.find? id = (w.items.find? id).map change :=
  Table.find?_update_self w.items id change hid

/-- What saving the first order makes of its item. -/
theorem saveExtraction_spec {board : Board} {order : RecognizedOrder} {expected : ℕ} {runId : Id}
    (hitem : item ∈ w.items.rows)
    (h : saveExtraction call board item order expected runId w = .ok w') :
    w'.items.keys = w.items.keys ∧ ∃ row, w'.items.find? item.id = some row ∧
      row.recognitionStatus = .succeeded ∧
      mergePatch item.draft (extractionPatch item order.proposed) = .ok row.draft := by
  unfold saveExtraction at h
  simp only [except_bind_eq_ok, except_pure_eq_ok] at h
  obtain ⟨_, -, w₁, hpatch, rfl⟩ := h
  obtain ⟨-, draft, hmerge, hitems⟩ := patchDraft_ok hpatch
  have hfound : w.items.find? item.id = some item := w.items.find?_of_mem hitem rfl
  constructor
  · refine (keys_setItem w₁ item.id (withRecognitionIssues order) fun _ ↦ rfl).trans ?_
    rw [hitems]
    exact (keys_setItem _ _ _ _).trans (keys_setItem _ _ _ _)
  · have hpatched : ∃ row, w₁.items.find? item.id = some row ∧
        row.recognitionStatus = .succeeded ∧ row.draft = draft := by
      rw [hitems]
      exact ⟨_, (find?_setItem _ _ _ _).trans (congrArg (Option.map _)
        ((find?_setItem _ _ _ _).trans (congrArg (Option.map _) hfound))), rfl, rfl⟩
    obtain ⟨row, hrow, hstatus, rfl⟩ := hpatched
    exact ⟨withRecognitionIssues order row,
      (find?_setItem w₁ item.id (withRecognitionIssues order) fun _ ↦ rfl).trans
        (congrArg (Option.map _) hrow), hstatus, hmerge⟩

/-- The sibling items: every accepted order has one. -/
structure AddsSiblings (orders : List RecognizedOrder) (w w' : Workspace) : Prop where
  kept : ∀ key ∈ w.items.keys, w'.items.find? key = w.items.find? key
  origin : ∀ row ∈ w'.items.rows, row.id ∉ w.items.keys →
    ∃ order ∈ orders, OrderDraft.modelValidate order.proposed = some row.draft
  made : ∀ order ∈ orders, ∃ row ∈ w'.items.rows, row.id ∉ w.items.keys ∧
    OrderDraft.modelValidate order.proposed = some row.draft

/-- The further orders of a screenshot are saved whenever their drafts are accepted. -/
theorem exists_addSiblings (item : OrderIntakeItem) (runId : Id) (orders : List RecognizedOrder)
    (haccepted : ∀ order ∈ orders, ∃ draft, OrderDraft.modelValidate order.proposed = some draft) :
    ∀ (index : ℕ) (db : AgentDb) (w : Workspace), w.items.keys ⊆ db.board.issued →
      ∃ w' db', addSiblings call item runId orders index w db = .ok w' db' ∧
        AddsSiblings orders w w' := by
  induction orders with
  | nil =>
    refine fun index db w _ ↦ ⟨w, db, rfl, fun _ _ ↦ rfl, fun row hrow hnew ↦ ?_, fun _ h ↦ ?_⟩
    · exact absurd ((Table.mem_keys _).mpr ⟨row, hrow, rfl⟩) hnew
    · exact absurd h List.not_mem_nil
  | cons order orders ih =>
    intro index db w hissued
    obtain ⟨draft, hdraft⟩ := haccepted order List.mem_cons_self
    obtain ⟨siblingId, db₁, hdrawn⟩ : ∃ id db₁, generateId call db = .ok id db₁ :=
      ⟨_, _, generateId_eq_ok.mpr ⟨rfl, rfl⟩⟩
    obtain ⟨hfresh, hissued₁⟩ := fresh_generateId hdrawn
    have hprepared : AgentDb.Prepared db db₁ := prepares_generateId hdrawn
    let sibling := siblingItem call db₁.board item index siblingId runId draft order
    have hnew : siblingId ∉ w.items.keys := fun h ↦ hfresh (hissued h)
    obtain ⟨items, hinsert, hrows⟩ :=
      Table.exists_insert?_of_notMem (t := w.items) (r := sibling) hnew
    have hadded : w.addItem sibling = .ok { w with items } :=
      Workspace.addItem_eq_ok.mpr ⟨items, hinsert, rfl⟩
    have hkeys : items.keys = w.items.keys ++ [siblingId] := by
      unfold Table.keys
      rw [hrows, List.map_append]
      rfl
    have hsubset : items.keys ⊆ db₁.board.issued := by
      intro key hkey
      rw [hkeys, List.mem_append, List.mem_singleton] at hkey
      rcases hkey with hkey | rfl
      · exact hprepared.issued (hissued hkey)
      · exact hissued₁
    obtain ⟨w', db', hrest, hsiblings⟩ := ih
      (fun order horder ↦ haccepted order (List.mem_cons_of_mem _ horder)) (index + 1) db₁
      ((({ w with items }.append call .workItemQueued
        [("position", .number item.queuePosition), ("source_order_index", .number index)]
        { runId := some runId, workItemId := some siblingId }).append call .recognitionCompleted
        [("revision", .number 1)] { runId := some runId, workItemId := some siblingId })) hsubset
    have hsibling : w'.items.find? siblingId = some sibling := by
      refine (hsiblings.kept siblingId ?_).trans ?_
      · exact hkeys ▸ List.mem_append_right _ (List.mem_singleton_self _)
      · exact (Table.find?_insert? hinsert siblingId).trans (if_pos rfl)
    refine ⟨w', db', ?_, ?_, ?_, ?_⟩
    · unfold addSiblings
      refine orRaise_bind_eq_ok.mpr ⟨draft, hdraft, bind_eq_ok.mpr ⟨siblingId, db₁, hdrawn, ?_⟩⟩
      rw [get_bind_eq_ok]
      exact checked_bind_eq_ok.mpr ⟨_, hadded, hrest⟩
    · intro key hkey
      refine (hsiblings.kept key (hkeys ▸ List.mem_append_left _ hkey)).trans ?_
      exact (Table.find?_insert? hinsert key).trans
        (if_neg fun h : siblingId = key ↦ hnew (h ▸ hkey))
    · intro row hrow hother
      by_cases hid : row.id = siblingId
      · have hfound := w'.items.find?_of_mem hrow hid
        rw [hsibling] at hfound
        obtain rfl := Option.some.inj hfound
        exact ⟨order, List.mem_cons_self, hdraft⟩
      · have hfurther : row.id ∉ items.keys := by
          rw [hkeys, List.mem_append, List.mem_singleton, not_or]
          exact ⟨hother, hid⟩
        obtain ⟨order', horder', hrowDraft⟩ := hsiblings.origin row hrow hfurther
        exact ⟨order', List.mem_cons_of_mem _ horder', hrowDraft⟩
    · intro order' horder'
      rcases List.mem_cons.mp horder' with rfl | horder'
      · exact ⟨sibling, (w'.items.find?_eq_some_iff.mp hsibling).1, hnew, hdraft⟩
      · obtain ⟨row, hrow, hfurther, hrowDraft⟩ := hsiblings.made order' horder'
        exact ⟨row, hrow, fun h ↦ hfurther (hkeys ▸ List.mem_append_left _ h), hrowDraft⟩

/-- The proposal for an order is accepted as the draft of an item of its own. -/
theorem exists_modelValidate_of_proposal {raw : OrderExtraction} {dump : DraftDump}
    {proposed : DraftFields} (hproposal : Proposal raw dump)
    (hfields : dump.fields = some proposed) :
    ∃ draft, OrderDraft.modelValidate proposed = some draft := by
  obtain ⟨read, hread, rfl⟩ := Option.map_eq_some_iff.mp hfields
  obtain ⟨read', hread', hpositive⟩ := hproposal.quantity
  obtain rfl := Option.some.inj (hread.symm.trans hread')
  have hspecs : ValidSpecs (Dict.ofList (dump.specParams.rows.map
      (fun entry ↦ (trim entry.1, trim entry.2)))) := by
    rw [hproposal.specParams]
    exact validSpecs_stripped (validSpecs_specParams raw)
  have hmode : dump.formulaMode = "none" → dump.formulaId.map trim = none := by
    intro hnone
    rcases hproposal.mode with ⟨-, hid⟩ | hexisting
    · rw [hid, Option.map_none]
    · rw [hnone] at hexisting
      exact absurd hexisting (by decide)
  unfold OrderDraft.modelValidate
  rw [dif_pos ⟨hproposal.customer, hproposal.product, hproposal.formula, hspecs, hpositive,
    hproposal.unit, hproposal.mode.imp And.left id, hmode,
    (length_trim_le _).trans hproposal.notes⟩]
  exact ⟨_, rfl⟩

/-- Something acceptable is proposed for every further order. -/
theorem exists_furtherOrders {lowerTrimmed : String → String} {board : Board}
    (hids : HoldsIdentifiers board) (suggestions : ℕ → Suggestions) (readings : List OrderReading) :
    ∀ index, ∃ orders,
      furtherOrders lowerTrimmed board suggestions readings index = .ok orders ∧
        ∀ order ∈ orders, ∃ draft, OrderDraft.modelValidate order.proposed = some draft := by
  induction readings with
  | nil => exact fun _ ↦ ⟨[], rfl, fun _ h ↦ absurd h List.not_mem_nil⟩
  | cons reading readings ih =>
    intro index
    obtain ⟨order, dump, horder, hproposal, hfields⟩ :=
      @exists_proposed lowerTrimmed board hids reading (suggestions index)
    obtain ⟨orders, horders, haccepted⟩ := ih (index + 1)
    refine ⟨order :: orders, ?_, fun other hother ↦ ?_⟩
    · unfold furtherOrders
      rw [horder, horders]
      rfl
    · rcases List.mem_cons.mp hother with rfl | hother
      · exact exists_modelValidate_of_proposal hproposal hfields
      · exact haccepted other hother

/-- A draft that saving a screenshot writes: the proposal for the first order merged into the draft
of the item, or the proposal for a further one. -/
def WritesDraft (lowerTrimmed : String → String) (board : Board) (item : OrderIntakeItem)
    (reading : ScreenshotReading) (suggestions : ℕ → Suggestions) (draft : OrderDraft) : Prop :=
  (∃ order, recognizedOrder lowerTrimmed board reading.first (suggestions 1) = .ok order ∧
      mergePatch item.draft (extractionPatch item order.proposed) = .ok draft) ∨
    ∃ orders, furtherOrders lowerTrimmed board suggestions reading.further 2 = .ok orders ∧
      ∃ order ∈ orders, OrderDraft.modelValidate order.proposed = some draft

/-- No order of the screenshot of an item was saved yet. -/
def Unsplit (item : OrderIntakeItem) (w : Workspace) : Prop :=
  item.sourceOrderIndex = 1 ∧ ∀ other ∈ w.items.rows,
    ¬ (other.sourceAttachmentId = item.sourceAttachmentId ∧ 1 < other.sourceOrderIndex)

/-- When a reading can be saved: its item is not deferred and has no siblings, the draft has room
for the new entries, and everything that is written fits its column. -/
structure Savable (lowerTrimmed : String → String) (column : JsonColumn) (board : Board)
    (item : OrderIntakeItem) (reading : ScreenshotReading) (suggestions : ℕ → Suggestions)
    (w : Workspace) : Prop where
  notDeferred : item.status ≠ .deferred
  unsplit : Unsplit item w
  room : item.HasRoom reading.first.extraction
  readings : ∀ order ∈ reading.first :: reading.further, FitsColumn order.json
  drafts : ∀ draft, WritesDraft lowerTrimmed board item reading suggestions draft →
    FitsColumn (column draft)

/-- The reading is saved under the revision that was loaded, and its item is recognised. -/
def IsSaved (lowerTrimmed : String → String) (column : JsonColumn) (call : Call)
    (item : OrderIntakeItem) (reading : ScreenshotReading) (suggestions : ℕ → Suggestions)
    (runId : Id) (w : Workspace) (db : AgentDb) : Prop :=
  ∃ w' db', saveScreenshot lowerTrimmed column call item reading suggestions item.revision runId w
      db = .ok w' db' ∧
    ∃ row ∈ w'.items.rows, row.id = item.id ∧ row.recognitionStatus = .succeeded

/-- What saving a screenshot makes: its item is recognised and has the merged draft, and every
further order has an item. -/
structure RecordsOrders (item : OrderIntakeItem) (first : RecognizedOrder)
    (further : List RecognizedOrder) (w w' : Workspace) : Prop where
  first : ∃ row ∈ w'.items.rows, row.id = item.id ∧ row.recognitionStatus = .succeeded ∧
    mergePatch item.draft (extractionPatch item first.proposed) = .ok row.draft
  origin : ∀ row ∈ w'.items.rows, row.id ∉ w.items.keys →
    ∃ order ∈ further, OrderDraft.modelValidate order.proposed = some row.draft
  made : ∀ order ∈ further, ∃ row ∈ w'.items.rows, row.id ∉ w.items.keys ∧
    OrderDraft.modelValidate order.proposed = some row.draft

section Screenshot

variable {first : RecognizedOrder} {further : List RecognizedOrder} {runId : Id}

theorem saveScreenshotExtraction_spec (hissued : w.items.keys ⊆ db.board.issued)
    (hitem : item ∈ w.items.rows) {expected : ℕ}
    (haccepted : ∀ order ∈ further, ∃ draft, OrderDraft.modelValidate order.proposed = some draft)
    (h : saveScreenshotExtraction call item first further expected runId w db = .ok w' db') :
    Unsplit item w ∧ expected = item.revision ∧
      (∃ w₁, saveExtraction call db.board item first expected runId w = .ok w₁) ∧
      RecordsOrders item first further w w' := by
  unfold saveScreenshotExtraction at h
  obtain ⟨_, hrevision, h⟩ := checked_bind_eq_ok.mp h
  obtain ⟨hindex, h⟩ := require_bind_eq_ok.mp h
  obtain ⟨hothers, h⟩ := require_bind_eq_ok.mp h
  rw [get_bind_eq_ok] at h
  obtain ⟨w₁, hfirst, h⟩ := checked_bind_eq_ok.mp h
  obtain ⟨w₂, db₁, hsiblings, h⟩ := bind_eq_ok.mp h
  obtain ⟨rfl, rfl⟩ := pure_eq_ok.mp h
  obtain ⟨hkeys, row, hrow, hstatus, hmerge⟩ := saveExtraction_spec hitem hfirst
  obtain ⟨w₃, db₂, hsiblings', hadds⟩ :=
    @exists_addSiblings call item runId further haccepted 2 db w₁ (hkeys ▸ hissued)
  obtain ⟨rfl, rfl⟩ := EStateM.Result.ok.inj (hsiblings.symm.trans hsiblings')
  have hmem : item.id ∈ w₁.items.keys := hkeys ▸ (Table.mem_keys _).mpr ⟨item, hitem, rfl⟩
  have hfound := w₂.items.find?_eq_some_iff.mp ((hadds.kept _ hmem).trans hrow)
  refine ⟨⟨hindex.1, hothers⟩, (ensure_eq_ok.mp hrevision).symm, ⟨w₁, hfirst⟩,
    ⟨row, hfound.1, hfound.2, hstatus, hmerge⟩, ?_, ?_⟩
  · exact hkeys ▸ hadds.origin
  · exact hkeys ▸ hadds.made

theorem exists_saveScreenshotExtraction (hissued : w.items.keys ⊆ db.board.issued)
    (hitem : item ∈ w.items.rows) (hunrecognised : item.recognitionStatus ≠ .succeeded)
    (haccepted : ∀ order ∈ further, ∃ draft, OrderDraft.modelValidate order.proposed = some draft)
    (hunsplit : Unsplit item w)
    (hsaved : ∃ w₁, saveExtraction call db.board item first item.revision runId w = .ok w₁) :
    ∃ w' db', saveScreenshotExtraction call item first further item.revision runId w db =
      .ok w' db' := by
  obtain ⟨w₁, hfirst⟩ := hsaved
  obtain ⟨hkeys, -⟩ := saveExtraction_spec hitem hfirst
  obtain ⟨w₂, db₂, hsiblings, -⟩ :=
    @exists_addSiblings call item runId further haccepted 2 db w₁ (hkeys ▸ hissued)
  exact ⟨_, db₂, checked_bind_eq_ok.mpr ⟨(), ensure_eq_ok.mpr rfl, require_bind_eq_ok.mpr
    ⟨⟨hunsplit.1, hunrecognised⟩, require_bind_eq_ok.mpr ⟨hunsplit.2, get_bind_eq_ok.mpr
      (checked_bind_eq_ok.mpr ⟨w₁, hfirst, bind_eq_ok.mpr ⟨w₂, db₂, hsiblings, rfl⟩⟩)⟩⟩⟩⟩

end Screenshot

/-- What saving a screenshot asks of an item that is neither finished nor recognised. -/
theorem isSaved_iff {lowerTrimmed : String → String} {column : JsonColumn}
    {reading : ScreenshotReading} {suggestions : ℕ → Suggestions} {runId : Id}
    (hids : HoldsIdentifiers db.board)
    (hissued : w.items.keys ⊆ db.board.issued) (hitem : item ∈ w.items.rows)
    (hvalidated : item.draft.Validated)
    (hopen : item.status ≠ .created ∧ item.status ≠ .closed)
    (hunrecognised : item.recognitionStatus ≠ .succeeded) :
    IsSaved lowerTrimmed column call item reading suggestions runId w db ↔
      Savable lowerTrimmed column db.board item reading suggestions w := by
  obtain ⟨first, dump, hfirst, hproposal, hfields⟩ :=
    @exists_proposed lowerTrimmed db.board hids reading.first (suggestions 1)
  obtain ⟨further, hfurther, haccepted⟩ :=
    @exists_furtherOrders lowerTrimmed db.board hids suggestions reading.further 2
  have hroom := mergePatch_extraction_iff hvalidated hproposal hfields
  have hextraction := @saveExtraction_ok_iff call w item db.board first runId hopen
  rw [hroom] at hextraction
  constructor
  · rintro ⟨w', db', h, -⟩
    unfold saveScreenshot at h
    rw [get_bind_eq_ok] at h
    obtain ⟨first', hfirst', h⟩ := checked_bind_eq_ok.mp h
    obtain rfl := Except.ok.inj (hfirst.symm.trans hfirst')
    obtain ⟨further', hfurther', h⟩ := checked_bind_eq_ok.mp h
    obtain rfl := Except.ok.inj (hfurther.symm.trans hfurther')
    obtain ⟨w₁, db₁, hsave, h⟩ := bind_eq_ok.mp h
    obtain ⟨hreadings, h⟩ := require_bind_eq_ok.mp h
    obtain ⟨hdrafts, h⟩ := require_bind_eq_ok.mp h
    obtain ⟨rfl, rfl⟩ := pure_eq_ok.mp h
    obtain ⟨hunsplit, -, hsaved, hrecords⟩ :=
      saveScreenshotExtraction_spec hissued hitem haccepted hsave
    obtain ⟨hstatus, hroom⟩ := hextraction.mp hsaved
    refine ⟨hstatus, hunsplit, hroom, hreadings, ?_⟩
    rintro draft (⟨order, horder, hmerge⟩ | ⟨orders, horders, order, horder, hdraft⟩)
    · obtain rfl := Except.ok.inj (hfirst.symm.trans horder)
      obtain ⟨row, hrow, hid, -, hmerged⟩ := hrecords.first
      obtain rfl := Except.ok.inj (hmerge.symm.trans hmerged)
      exact hdrafts row (List.mem_filter.mpr ⟨hrow, decide_eq_true (Or.inl hid)⟩)
    · obtain rfl := Except.ok.inj (hfurther.symm.trans horders)
      obtain ⟨row, hrow, hnew, hmade⟩ := hrecords.made order horder
      obtain rfl := Option.some.inj (hdraft.symm.trans hmade)
      exact hdrafts row (List.mem_filter.mpr ⟨hrow, decide_eq_true (Or.inr hnew)⟩)
  · rintro ⟨hstatus, hunsplit, hroom, hreadings, hdrafts⟩
    obtain ⟨w₁, db₁, hsave⟩ := exists_saveScreenshotExtraction hissued hitem hunrecognised haccepted
      hunsplit (hextraction.mpr ⟨hstatus, hroom⟩)
    obtain ⟨-, -, -, hrecords⟩ := saveScreenshotExtraction_spec hissued hitem haccepted hsave
    obtain ⟨row, hrow, hid, hsucceeded, hmerged⟩ := hrecords.first
    have hwritten : ∀ row ∈ writtenItems item.id w w₁, FitsColumn (column row.draft) := by
      intro other hother
      obtain ⟨hother, hkey⟩ := List.mem_filter.mp hother
      rcases of_decide_eq_true hkey with hkey | hkey
      · obtain rfl := w₁.items.eq_of_key_eq hother hrow (hkey.trans hid.symm)
        exact hdrafts _ (Or.inl ⟨first, hfirst, hmerged⟩)
      · exact hdrafts _ (Or.inr ⟨further, hfurther, hrecords.origin other hother hkey⟩)
    refine ⟨w₁, db₁, ?_, row, hrow, hid, hsucceeded⟩
    unfold saveScreenshot
    rw [get_bind_eq_ok]
    exact checked_bind_eq_ok.mpr ⟨first, hfirst, checked_bind_eq_ok.mpr ⟨further, hfurther,
      bind_eq_ok.mpr ⟨w₁, db₁, hsave, require_bind_eq_ok.mpr ⟨hreadings,
        require_bind_eq_ok.mpr ⟨hwritten, rfl⟩⟩⟩⟩⟩

end Saving

/-! ### Runs -/

/-- The drafts of all items that a run reaches were validated. -/
theorem validated_run (board : Board) (inputs : List AgentInput) {item : OrderIntakeItem}
    (hitem : (System.run step (AgentDb.start board) inputs).Shows item) : item.draft.Validated := by
  rcases tells_run (.start board) inputs item hitem with ⟨-, hvalidated⟩ | ⟨before, hbefore, -⟩
  · exact hvalidated
  · obtain ⟨w, hw, -⟩ := hbefore
    exact absurd hw List.not_mem_nil

/-- The command by which a user has an item recognised. -/
def recognizeInput (call : Call) (later : Time) (itemId userId : Id) (key : String)
    (payload : ActionPayload) : AgentInput :=
  ⟨call, later, .itemCommand itemId userId key .recognizeItem payload⟩

/-- In every run: after a command to recognise an item was accepted, and while nobody changes the
item that its run has loaded, a reading of the screenshot is saved under the loaded revision exactly
when the item is not deferred, its screenshot has no further orders yet, its draft has room for the
new entries, and what is written fits its column. -/
theorem recognition_saved_iff (lowerTrimmed : String → String) (column : JsonColumn) (board : Board)
    (before after : List AgentInput) {call : Call} {later : Time} {itemId userId : Id}
    {key : String} {payload : ActionPayload}
    (haccepted : (recognizeInput call later itemId userId key payload).Accepted
      (System.run step (AgentDb.start board) before))
    {item : OrderIntakeItem} (hid : item.id = itemId)
    (hloaded : (step (System.run step (AgentDb.start board) before)
      (recognizeInput call later itemId userId key payload)).Shows item)
    {reached : AgentDb} (hreached : reached = System.run step (AgentDb.start board)
      (before ++ recognizeInput call later itemId userId key payload :: after))
    (hids : HoldsIdentifiers reached.board) {w : Workspace} (hw : w ∈ reached.workspaces.rows)
    (hunchanged : item ∈ w.items.rows) (saving : Call) (runId : Id) (reading : ScreenshotReading)
    (suggestions : ℕ → Suggestions) :
    IsSaved lowerTrimmed column saving item reading suggestions runId w reached ↔
      Savable lowerTrimmed column reached.board item reading suggestions w := by
  subst hreached
  obtain ⟨hopen, hunrecognised⟩ := loaded_of_accepted (sound_run board before) haccepted hloaded hid
  have hsound := sound_run board
    (before ++ recognizeInput call later itemId userId key payload :: after)
  refine isSaved_iff hids (fun id hmem ↦ ?_) hunchanged
    (validated_run board _ ⟨w, hw, hunchanged⟩) hopen hunrecognised
  obtain ⟨row, hrow, rfl⟩ := (Table.mem_keys _).mp hmem
  exact hsound.shows_issued ⟨w, hw, hrow⟩

/-- A command that changes a session, under a key that is free, is accepted. -/
theorem accepted_of_changed {call : Call} {later : Time} {itemId userId : Id} {key : String}
    {payload : ActionPayload} {db : AgentDb} (hsound : db.Sound)
    (hfree : db.commands.find? (userId, key) = none)
    (hchanged : (step db (recognizeInput call later itemId userId key payload)).workspaces ≠
      db.workspaces) :
    (recognizeInput call later itemId userId key payload).Accepted db := by
  rcases commit_cases (itemCommand call itemId userId key .recognizeItem payload) db with
    hsame | ⟨result, db', hok, hstate⟩
  · exact absurd (congrArg AgentDb.workspaces hsame) hchanged
  · obtain ⟨w, item, db₁, -, ⟨-, hprepared⟩ | ⟨w', hnew, -⟩⟩ := itemCommand_ok hsound hfree hok
    · exact absurd ((congrArg AgentDb.workspaces hstate).trans hprepared.workspaces) hchanged
    · exact ⟨hfree, result, db', hok, hnew⟩

/-- A screenshot with one order, of which nothing could be read. -/
def blankReading : ScreenshotReading where
  first :=
    { extraction :=
        { customerName := none, productDescription := none, formulaRaw := none, notes := none
          width := ⟨⟨none, none, none, by decide, by decide⟩, .unknown, none, by decide, by decide⟩
          thickness :=
            ⟨⟨none, none, none, by decide, by decide⟩, .unknown, none, by decide, by decide⟩
          quantity := ⟨none, none, none, by decide, by decide⟩
          warnings := [], short := by decide, warnings_short := by decide }
      addedWarnings := []
      json := some "" }
  further := []
  atMostTwenty := by decide

/-- A screenshot is sent, and its run waits too long for a worker and fails. -/
def failedRecognition : List AgentInput :=
  [⟨⟨0, "20260101", IdSource.longer⟩, 0,
      .createSession "user" "session" ⟨.orderIntake, none⟩⟩,
    ⟨⟨1, "20260101", IdSource.longer⟩, 1,
      .upload "f" "user" "upload" "sha" (.ok ⟨"sha", "image/png", 1, 1, 1⟩)⟩,
    ⟨⟨2, "20260101", IdSource.longer⟩, 2,
      .acceptMessage "f" "user" ⟨"message", "", ["fff"], 1, none, by decide, by decide⟩ .chat⟩,
    ⟨⟨seconds 200, "20260101", IdSource.longer⟩, seconds 200, .claim "worker" ["f"] []⟩]

/-- The item of the screenshot is put aside. -/
def deferredRecognition : List AgentInput :=
  failedRecognition ++ [⟨⟨seconds 201, "20260101", IdSource.longer⟩, seconds 201,
    .itemCommand "fffff" "user" "defer" .deferItem ⟨2, false, false, none⟩⟩]

/-- The command to recognise the item again, with the revision that the item has. -/
def recognizeAgain (revision : ℕ) : AgentInput :=
  recognizeInput ⟨seconds 202, "20260101", IdSource.longer⟩ (seconds 202) "fffff" "user" "recognize"
    ⟨revision, false, false, none⟩

/-- The item of a run that waited too long, recognised again, has its reading saved. -/
theorem recognition_saved_sample :
    ∃ w item, IsSaved lower (fun _ ↦ some "") ⟨seconds 203, "20260101", IdSource.longer⟩ item
      blankReading (fun _ ↦ ⟨none, none⟩) "ffffffff" w
      (System.run step (AgentDb.start Board.empty) (failedRecognition ++ [recognizeAgain 2])) := by
  have haccepted : (recognizeAgain 2).Accepted
      (System.run step (AgentDb.start Board.empty) failedRecognition) := by
    refine accepted_of_changed (sound_run _ _) (by decide +kernel) fun h ↦ ?_
    have hrevisions := congrArg (fun workspaces : Table Workspace ↦
      workspaces.rows.map (fun w ↦ w.session.stateRevision)) h
    exact absurd hrevisions (by decide +kernel)
  have hshown : ∃ w ∈ (System.run step (AgentDb.start Board.empty)
      (failedRecognition ++ [recognizeAgain 2])).workspaces.rows, ∃ item ∈ w.items.rows,
        item.id = "fffff" ∧ item.status ≠ .deferred ∧ Unsplit item w ∧
          item.HasRoom blankReading.first.extraction := by
    unfold Unsplit
    decide +kernel
  obtain ⟨w, hw, item, hitem, hid, hstatus, hunsplit, hroom⟩ := hshown
  exact ⟨w, item, (recognition_saved_iff lower (fun _ ↦ some "") Board.empty failedRecognition []
    haccepted hid ⟨w, hw, hitem⟩ rfl (by decide +kernel) hw hitem _ _ blankReading _).mpr
    ⟨hstatus, hunsplit, hroom, by decide, fun _ _ ↦ by decide⟩⟩

/-- The item was put aside before: the command is accepted, and its reading is not saved. -/
theorem recognition_not_saved :
    (recognizeAgain 3).Accepted (System.run step (AgentDb.start Board.empty) deferredRecognition) ∧
    ∃ w item, w ∈ (System.run step (AgentDb.start Board.empty)
        (deferredRecognition ++ [recognizeAgain 3])).workspaces.rows ∧
      item ∈ w.items.rows ∧ item.id = "fffff" ∧
      ¬ IsSaved lower (fun _ ↦ some "") ⟨seconds 203, "20260101", IdSource.longer⟩ item
        blankReading (fun _ ↦ ⟨none, none⟩) "fffffffff" w
        (System.run step (AgentDb.start Board.empty)
          (deferredRecognition ++ [recognizeAgain 3])) := by
  have haccepted : (recognizeAgain 3).Accepted
      (System.run step (AgentDb.start Board.empty) deferredRecognition) := by
    refine accepted_of_changed (sound_run _ _) (by decide +kernel) fun h ↦ ?_
    have hrevisions := congrArg (fun workspaces : Table Workspace ↦
      workspaces.rows.map (fun w ↦ w.session.stateRevision)) h
    exact absurd hrevisions (by decide +kernel)
  have hshown : ∃ w ∈ (System.run step (AgentDb.start Board.empty)
      (deferredRecognition ++ [recognizeAgain 3])).workspaces.rows, ∃ item ∈ w.items.rows,
        item.id = "fffff" ∧ item.status = .deferred := by
    decide +kernel
  obtain ⟨w, hw, item, hitem, hid, hstatus⟩ := hshown
  refine ⟨haccepted, w, item, hw, hitem, hid, fun hsaved ↦ ?_⟩
  obtain ⟨hopen, hunrecognised⟩ :=
    loaded_of_accepted (sound_run _ _) haccepted ⟨w, hw, hitem⟩ hid
  have hissued : w.items.keys ⊆ (System.run step (AgentDb.start Board.empty)
      (deferredRecognition ++ [recognizeAgain 3])).board.issued := by
    intro id hmem
    obtain ⟨row, hrow, rfl⟩ := (Table.mem_keys _).mp hmem
    exact (sound_run _ _).shows_issued ⟨w, hw, hrow⟩
  have hsavable := (isSaved_iff (by decide +kernel) hissued hitem
    (validated_run _ _ ⟨w, hw, hitem⟩) hopen hunrecognised).mp hsaved
  exact hsavable.notDeferred hstatus

end FilmOS.Agent
