import FilmOS.Agent.RecognitionLaws

/-!
# Recognition keeps what the user wrote

The provenance of an item says of every path of its draft who wrote it last. What was recognised is
merged into the draft as a patch that leaves out the paths of the user, so that a value the user
set, an entry the user removed and a field the user cleared all stay (`get?_mergePatch`,
`sameIn_mergePatch`), together with their provenance (`get?_provenance_recognised`), and a formula
that the user chose in part stays whole.

The merged draft is validated again, which drops white space around its texts; a draft that was
validated before has none left (`OrderDraft.Validated.isTidy`). The specification has a path for
every entry, and none of its own.
-/

set_option autoImplicit false
set_option relaxedAutoImplicit false

namespace FilmOS.Agent

open Transaction PythonText

/-! ### Validated drafts -/

/-- The texts of a draft that was validated have no white space around them. -/
structure IsTidy (fields : DraftFields) : Prop extends IsStripped fields where
  values : ∀ entry ∈ fields.specParams.rows, trim entry.2 = entry.2
  notes : trim fields.extraNotes = fields.extraNotes

theorem OrderDraft.Validated.isTidy {draft : OrderDraft} (h : draft.Validated) :
    IsTidy draft.fields := by
  have hstripped := h.isStripped
  obtain ⟨candidate, hcandidate⟩ := h
  unfold OrderDraft.modelValidate at hcandidate
  split_ifs at hcandidate with hvalid
  obtain rfl := Option.some.inj hcandidate
  refine ⟨hstripped, fun entry hentry ↦ ?_, trim_trim _⟩
  obtain ⟨given, -, rfl⟩ := List.mem_map.mp (Dict.mem_of_mem_ofList hentry)
  exact trim_trim given.2

/-- The fields of a merged draft. -/
theorem mergePatch_fields {draft merged : OrderDraft} {patch : DraftPatch}
    (h : mergePatch draft patch = .ok merged) : merged.fields = (patch.applyTo draft).stripped := by
  unfold mergePatch OrderDraft.modelValidate at h
  split_ifs at h with hothers hvalid
  · exact congrArg OrderDraft.fields (Except.ok.inj h).symm

/-! ### Entries of the specification -/

/-- An entry without white space around its key is found after white space was dropped everywhere,
when the other keys have none either. -/
theorem get?_stripped {specs : Dict String} (hkeys : ∀ entry ∈ specs.rows, trim entry.1 = entry.1)
    (key : String) :
    Dict.get? (Dict.ofList (specs.rows.map (fun entry ↦ (trim entry.1, trim entry.2)))) key =
      (specs.get? key).map trim := by
  have hrows : specs.rows.map (fun entry ↦ (trim entry.1, trim entry.2)) =
      specs.rows.map (fun entry ↦ (entry.1, trim entry.2)) :=
    List.map_congr_left fun entry hentry ↦ congrArg (·, trim entry.2) (hkeys entry hentry)
  have hnodup : ((specs.rows.map (fun entry ↦ (entry.1, trim entry.2))).map Prod.fst).Nodup := by
    rw [List.map_map]
    exact specs.nodup
  unfold Dict.ofList
  rw [hrows, Dict.get?_update hnodup, Dict.lookup_map]
  unfold Dict.get? Table.find?
  rw [Option.map_map]
  exact Option.or_none

section Merge

variable {item : OrderIntakeItem} {raw : OrderExtraction} {proposed : DraftFields}
  {draft : OrderDraft}

/-- An entry that the user set or removed is in the merged draft as it was. -/
theorem get?_mergePatch (hvalidated : item.draft.Validated)
    (hspecs : proposed.specParams = (measureDimensions raw).specParams)
    (h : mergePatch item.draft (extractionPatch item proposed) = .ok draft) {key : String}
    (huser : item.userWrote ("spec_params." ++ key)) :
    draft.fields.specParams.get? key = item.draft.fields.specParams.get? key := by
  have hnone : (unwrittenEntries item proposed).lookup key = none := by
    refine List.lookup_eq_none_iff.mpr fun entry hentry ↦ bne_iff_ne.mpr fun hkey ↦ ?_
    have hunwritten := (List.mem_filter.mp hentry).2
    rw [← hkey, huser] at hunwritten
    cases hunwritten
  have hstripped : ∀ entry ∈ ((extractionPatch item proposed).applyTo item.draft).specParams.rows,
      trim entry.1 = entry.1 := by
    intro entry hentry
    rcases mem_applyTo_extraction hspecs hentry with hmem | hmem
    · exact trim_keys_specParams raw entry hmem
    · exact hvalidated.isStripped.keys entry hmem
  have hvalue : (item.draft.fields.specParams.get? key).map trim =
      item.draft.fields.specParams.get? key := by
    cases hfound : item.draft.fields.specParams.find? key with
    | none =>
      unfold Dict.get?
      rw [hfound]
      rfl
    | some entry =>
      unfold Dict.get?
      rw [hfound]
      exact congrArg some
        (hvalidated.isTidy.values entry ((Table.find?_eq_some_iff _).mp hfound).1)
  rw [mergePatch_fields h]
  refine (get?_stripped hstripped key).trans ?_
  rw [specParams_applyTo_extraction, Dict.get?_update (nodup_unwrittenEntries item proposed), hnone,
    Option.none_or, hvalue]

/-- A formula that the user chose in part is in the merged draft as it was. -/
theorem formula_mergePatch (hvalidated : item.draft.Validated)
    (h : mergePatch item.draft (extractionPatch item proposed) = .ok draft)
    (huser : item.userWrote "formula_mode" ∨ item.userWrote "formula_id") :
    draft.fields.formulaMode = item.draft.fields.formulaMode ∧
      draft.fields.formulaId = item.draft.fields.formulaId := by
  have hwritten : (item.userWrote "formula_id" || item.userWrote "formula_mode") = true := by
    rcases huser with huser | huser
    · rw [huser, Bool.or_true]
    · rw [huser, Bool.true_or]
  have hmode : (extractionPatch item proposed).formulaMode = none := if_pos hwritten
  have hid : (extractionPatch item proposed).formulaId = none := if_pos hwritten
  rw [mergePatch_fields h]
  unfold DraftFields.stripped DraftPatch.applyTo
  rw [hmode, hid]
  exact ⟨rfl, hvalidated.isStripped.formula⟩

/-- A field that the user set or cleared is in the merged draft as it was. -/
theorem sameIn_mergePatch (hvalidated : item.draft.Validated)
    (h : mergePatch item.draft (extractionPatch item proposed) = .ok draft) {path : String}
    (hpath : path ≠ "spec_params") (huser : item.userWrote path) :
    item.draft.fields.SameIn path draft.fields := by
  have htidy := hvalidated.isTidy
  have hfields := mergePatch_fields h
  have hformula := formula_mergePatch hvalidated h
  unfold DraftFields.stripped DraftPatch.applyTo at hfields
  have hnone : ∀ {α : Type} (value : α),
      (if item.userWrote path then none else some value) = none := fun _ ↦ if_pos huser
  unfold DraftFields.SameIn
  split
  · rw [hfields, show (extractionPatch item proposed).customerId = none from hnone _]
    exact htidy.customer.symm
  · rw [hfields, show (extractionPatch item proposed).productId = none from hnone _]
    exact htidy.product.symm
  · exact absurd rfl hpath
  · rw [hfields, show (extractionPatch item proposed).quantity = none from hnone _]
    rfl
  · rw [hfields, show (extractionPatch item proposed).unit = none from hnone _]
    rfl
  · exact (hformula (Or.inl huser)).1.symm
  · exact (hformula (Or.inr huser)).2.symm
  · rw [hfields, show (extractionPatch item proposed).extraNotes = none from hnone _]
    exact htidy.notes.symm
  · trivial

/-- The patch of a recognised order names no path that the user wrote. -/
theorem not_userWrote_of_mem_paths {path : String}
    (h : path ∈ (extractionPatch item proposed).paths) : item.userWrote path = false := by
  have hoption : ∀ {α : Type} {name other : String} {value : α}, other ∈
      ((if item.userWrote name then none else some value).map fun _ ↦ name).toList →
        item.userWrote other = false := by
    intro α name other value hmem
    cases hwrote : item.userWrote name with
    | true =>
      rw [hwrote] at hmem
      cases hmem
    | false =>
      rw [hwrote] at hmem
      rw [List.mem_singleton.mp hmem, hwrote]
  have hformula : ∀ {α : Type} {name : String} {value : α}, path ∈
      ((if item.userWrote "formula_id" || item.userWrote "formula_mode" then none
        else some value).map fun _ ↦ name).toList → path = name ∧
          item.userWrote "formula_id" = false ∧ item.userWrote "formula_mode" = false := by
    intro α name value hmem
    cases hwrote : item.userWrote "formula_id" || item.userWrote "formula_mode" with
    | true =>
      rw [hwrote] at hmem
      cases hmem
    | false =>
      rw [hwrote] at hmem
      exact ⟨List.mem_singleton.mp hmem, Bool.or_eq_false_iff.mp hwrote⟩
  unfold DraftPatch.paths at h
  simp only [List.mem_append] at h
  rcases h with ((((((h | h) | h) | h) | h) | h) | h) | h
  · exact hoption h
  · exact hoption h
  · change path ∈ List.flatten [_] at h
    rw [List.flatten_singleton] at h
    obtain ⟨key, hkey, rfl⟩ := List.mem_map.mp h
    obtain ⟨entry, hentry, rfl⟩ := (Table.mem_keys _).mp hkey
    obtain ⟨given, hgiven, rfl⟩ := List.mem_map.mp (Dict.mem_of_mem_ofList hentry)
    exact Bool.not_eq_true' _ |>.mp (List.mem_filter.mp hgiven).2
  · exact hoption h
  · exact hoption h
  · obtain ⟨rfl, -, hmode⟩ := hformula h
    exact hmode
  · obtain ⟨rfl, hid, -⟩ := hformula h
    exact hid
  · exact hoption h

end Merge

/-! ### The saved item -/

/-- The item as it is once a recognised order was saved into it. -/
def recognisedRow (board : Board) (item : OrderIntakeItem) (order : RecognizedOrder)
    (draft : OrderDraft) (runId : Id) : OrderIntakeItem :=
  withRecognitionIssues order (patchedItem board draft (extractionPatch item order.proposed)
    .extraction (some runId) { item with recognitionStatus := .succeeded, lastErrorCode := none })

/-- What saving a recognised order leaves in the place of its item. -/
theorem saveExtraction_row {call : Call} {board : Board} {item : OrderIntakeItem}
    {order : RecognizedOrder} {expected : ℕ} {runId : Id} {w w' : Workspace}
    (hitem : item ∈ w.items.rows)
    (h : saveExtraction call board item order expected runId w = .ok w') :
    ∃ draft, mergePatch item.draft (extractionPatch item order.proposed) = .ok draft ∧
      w'.items.find? item.id = some (recognisedRow board item order draft runId) := by
  unfold saveExtraction at h
  simp only [except_bind_eq_ok, except_pure_eq_ok] at h
  obtain ⟨_, -, w₁, hpatch, rfl⟩ := h
  obtain ⟨-, draft, hmerge, hitems⟩ := patchDraft_ok hpatch
  have hfound : w.items.find? item.id = some item := w.items.find?_of_mem hitem rfl
  have hpatched : w₁.items.find? item.id = some (patchedItem board draft
      (extractionPatch item order.proposed) .extraction (some runId)
        { item with recognitionStatus := .succeeded, lastErrorCode := none }) := by
    rw [hitems]
    exact (find?_setItem _ _ _ _).trans (congrArg (Option.map _)
      ((find?_setItem _ _ _ _).trans (congrArg (Option.map _) hfound)))
  exact ⟨draft, hmerge, (find?_setItem w₁ item.id (withRecognitionIssues order) fun _ ↦ rfl).trans
    (congrArg (Option.map _) hpatched)⟩

/-- Recognition records its provenance under the paths that it writes, none of them the user's. -/
theorem get?_provenance_recognised {board : Board} {item : OrderIntakeItem}
    {order : RecognizedOrder}
    {draft : OrderDraft} {runId : Id} {path : String} (huser : item.userWrote path) :
    (recognisedRow board item order draft runId).provenance.get? path =
      item.provenance.get? path := by
  refine Dict.get?_update_of_notMem (fun hmem ↦ ?_) item.provenance
  rw [List.map_map] at hmem
  obtain ⟨other, hother, rfl⟩ := List.mem_map.mp hmem
  have hunwritten := not_userWrote_of_mem_paths hother
  rw [Function.comp_apply, hunwritten] at huser
  cases huser

/-- What a draft lacks is no inference. -/
theorem code_of_mem_validateDraft {board : Board} {draft : OrderDraft} {issue : Issue}
    (h : issue ∈ validateDraft board draft) :
    issue.code ≠ "UNIT_INFERRED" ∧ issue.code ≠ "ENTITY_INFERRED" := by
  obtain ⟨-, hcode⟩ := issue_of_mem_validateDraft h
  constructor
  · rintro hinferred
    rw [hinferred] at hcode
    exact absurd hcode (by decide)
  · rintro hinferred
    rw [hinferred] at hcode
    exact absurd hcode (by decide)

/-- An inference about a path of the user is in the saved item only when it was there before. -/
theorem mem_issues_of_inferred {board : Board} {item : OrderIntakeItem} {order : RecognizedOrder}
    {draft : OrderDraft} {runId : Id} {issue : Issue} (huser : item.userWrote issue.field)
    (hcode : issue.code = "UNIT_INFERRED" ∨ issue.code = "ENTITY_INFERRED")
    (h : issue ∈ (recognisedRow board item order draft runId).issues) : issue ∈ item.issues := by
  unfold recognisedRow withRecognitionIssues at h
  dsimp only at h
  rw [List.append_assoc] at h
  rcases List.mem_append.mp h with h | h
  · rcases List.mem_append.mp h with h | h
    · obtain ⟨hunit, hentity⟩ := code_of_mem_validateDraft h
      exact absurd hcode (not_or.mpr ⟨hunit, hentity⟩)
    · exact List.mem_of_mem_filter h
  · rcases List.mem_append.mp h with h | h
    · have hunwritten : (!(recognisedRow board item order draft runId).userWrote issue.field) =
        true :=
        (List.mem_filter.mp h).2
      have huser' : (recognisedRow board item order draft runId).userWrote issue.field = true := by
        unfold OrderIntakeItem.userWrote
        rw [get?_provenance_recognised huser]
        exact huser
      rw [huser'] at hunwritten
      cases hunwritten
    · obtain ⟨warning, -, rfl⟩ := List.mem_map.mp h
      rcases hcode with hcode | hcode
      · exact absurd hcode (by decide : "RECOGNITION_WARNING" ≠ "UNIT_INFERRED")
      · exact absurd hcode (by decide : "RECOGNITION_WARNING" ≠ "ENTITY_INFERRED")

/-- What the user wrote into the draft of an item is in it later on: the fields, the entries of the
specification, the formula as a whole and the provenance, and there is no new inference about it. -/
structure KeepsUser (item later : OrderIntakeItem) : Prop where
  fields : ∀ path, path ≠ "spec_params" → item.userWrote path →
    item.draft.fields.SameIn path later.draft.fields
  entries : ∀ key, item.userWrote ("spec_params." ++ key) →
    later.draft.fields.specParams.get? key = item.draft.fields.specParams.get? key
  formula : item.userWrote "formula_mode" ∨ item.userWrote "formula_id" →
    later.draft.fields.formulaMode = item.draft.fields.formulaMode ∧
      later.draft.fields.formulaId = item.draft.fields.formulaId
  provenance : ∀ path, item.userWrote path → later.provenance.get? path = item.provenance.get? path
  inferences : ∀ issue ∈ later.issues, item.userWrote issue.field →
    issue.code = "UNIT_INFERRED" ∨ issue.code = "ENTITY_INFERRED" → issue ∈ item.issues

/-- What is proposed for an order that was read has the measured specification. -/
theorem specParams_recognizedOrder {lowerTrimmed : String → String} {board : Board}
    {reading : OrderReading} {suggestions : Suggestions} {order : RecognizedOrder}
    (h : recognizedOrder lowerTrimmed board reading suggestions = .ok order) :
    order.proposed.specParams = (measureDimensions reading.extraction).specParams := by
  obtain ⟨quantity, notes, read, hnormalized, -, -⟩ := normalizeExtraction_reads reading.extraction
  have hextracted : ∀ dump, extractedDraft lowerTrimmed board reading.extraction = .ok dump →
      dump.specParams = (measureDimensions reading.extraction).specParams := by
    intro dump hdump
    unfold extractedDraft at hdump
    rw [hnormalized] at hdump
    obtain ⟨⟨normalized, issues⟩, hpair, hdump⟩ := except_bind_eq_ok.mp hdump
    obtain ⟨rfl, -⟩ := Prod.mk.inj (Except.ok.inj hpair)
    rw [← except_pure_eq_ok.mp hdump]
    split_ifs
    · rfl
    · rfl
  have hsuggested : ∀ dump issues,
      suggestedDraft lowerTrimmed board reading.extraction suggestions = .ok (dump, issues) →
        dump.specParams = (measureDimensions reading.extraction).specParams := by
    intro dump issues hdump
    unfold suggestedDraft at hdump
    obtain ⟨extracted, hfirst, hdump⟩ := except_bind_eq_ok.mp hdump
    refine (congrArg DraftDump.specParams (Prod.mk.inj (except_pure_eq_ok.mp hdump)).1.symm).trans
      ?_
    exact hextracted extracted hfirst
  unfold recognizedOrder at h
  obtain ⟨⟨dump, matchIssues⟩, hdump, h⟩ := except_bind_eq_ok.mp h
  obtain ⟨⟨normalized, issues⟩, -, h⟩ := except_bind_eq_ok.mp h
  cases hfields : dump.fields with
  | none =>
    simp only [hfields] at h
    cases h
  | some proposed =>
    simp only [hfields] at h
    rw [← except_pure_eq_ok.mp h, ← hsuggested dump matchIssues hdump]
    obtain ⟨read, -, rfl⟩ := Option.map_eq_some_iff.mp hfields
    rfl

/-- Recognition never overrides the user. Whatever the provenance of an item says, whatever was read
from its screenshot and whatever was suggested, an accepted reading leaves in the item all that the
user wrote. -/
theorem recognition_keeps_user {lowerTrimmed : String → String} {call : Call} {board : Board}
    {item : OrderIntakeItem} {reading : OrderReading} {suggestions : Suggestions}
    {order : RecognizedOrder} {expected : ℕ} {runId : Id} {w w' : Workspace}
    (hitem : item ∈ w.items.rows) (hvalidated : item.draft.Validated)
    (horder : recognizedOrder lowerTrimmed board reading suggestions = .ok order)
    (h : saveExtraction call board item order expected runId w = .ok w') :
    ∃ later, w'.items.find? item.id = some later ∧ KeepsUser item later := by
  obtain ⟨draft, hmerge, hlater⟩ := saveExtraction_row hitem h
  have hspecs := specParams_recognizedOrder horder
  refine ⟨_, hlater, ?_⟩
  constructor
  · exact fun path hpath huser ↦ sameIn_mergePatch hvalidated hmerge hpath huser
  · exact fun key huser ↦ get?_mergePatch hvalidated hspecs hmerge huser
  · exact fun huser ↦ formula_mergePatch hvalidated hmerge huser
  · exact fun path huser ↦ get?_provenance_recognised huser
  · exact fun issue hissue huser hcode ↦ mem_issues_of_inferred huser hcode hissue

/-! ### A width that was removed -/

theorem boundedNumber_none : ∀ number ∈ (none : Option Numeral.Decimal), BoundedNumber number :=
  fun _ h ↦ nomatch h

theorem shortText_none : ShortText none := fun _ h ↦ nomatch h

/-- What was not read of a quantity or a dimension. -/
def unread (υ : Type) : Measurement υ := ⟨none, none, none, boundedNumber_none, shortText_none⟩

theorem boundedNumber_fifty : ∀ number ∈ some (⟨50, 0⟩ : Numeral.Decimal),
    BoundedNumber number := by
  decide +kernel

theorem shortText_fifty : ShortText (some "50cm") := by decide +kernel

/-- A width of fifty centimetres. -/
def fiftyCentimetres : Measurement WidthUnit :=
  ⟨some ⟨50, 0⟩, some "50cm", some .cm, boundedNumber_fifty, shortText_fifty⟩

theorem basis_length_none :
    ∀ basis ∈ (none : Option String), 1 ≤ basis.length ∧ basis.length ≤ 300 :=
  fun _ h ↦ nomatch h

theorem consistentSource_fifty : ConsistentSource fiftyCentimetres .explicit none := rfl

theorem consistentSource_unread (υ : Type) : ConsistentSource (unread υ) .unknown none := rfl

theorem shortText_of_nothing :
    ∀ text ∈ ([none, none, none, none] : List (Option String)), ShortText text := by decide

theorem warnings_short_nil :
    ([] : List String).length ≤ 20 ∧ ∀ warning ∈ ([] : List String), warning.length ≤ 2000 := by
  decide

/-- An order of which the width was read. -/
def widthReading : OrderReading where
  extraction :=
    { customerName := none, productDescription := none, formulaRaw := none, notes := none
      width := ⟨fiftyCentimetres, .explicit, none, basis_length_none, consistentSource_fifty⟩
      thickness :=
        ⟨unread ThicknessUnit, .unknown, none, basis_length_none, consistentSource_unread _⟩
      quantity := unread QuantityUnit
      warnings := [], short := shortText_of_nothing, warnings_short := warnings_short_nil }
  addedWarnings := []
  json := some ""

/-- An item of which the user has removed the width. -/
def manualItem : OrderIntakeItem where
  id := "i"
  sourceMessageId := "m"
  sourceAttachmentId := "a"
  sourceOrderIndex := 1
  queuePosition := 1
  status := .active
  revision := 2
  recognitionStatus := .notStarted
  draft := .blank
  issues := []
  provenance := Dict.ofList [("spec_params.宽幅", ⟨.user, "m", "a", none⟩)]
  orderId := none
  lastErrorCode := none
  createdAt := 0

/-- The session of the item. -/
def manualSession : Workspace :=
  { Workspace.blank ⟨"s", "u", .orderIntake, .active, "", 1, ⟨none, none⟩, some "i", none, 0, 0, 0,
      none, none⟩ with items := Table.empty.put manualItem }

/-- A result that is there is the result. -/
theorem eq_ok_of_toOption {ε α : Type} {result : Except ε α} {value : α}
    (h : result.toOption = some value) : result = .ok value := by
  cases result with
  | error e => cases h
  | ok found => exact congrArg Except.ok (Option.some.inj h)

/-- The width is read, and not put back. -/
theorem recognition_keeps_user_sample : ∃ order w' later,
    saveExtraction ⟨0, "20260101", IdSource.longer⟩ Board.empty manualItem order 2 "r"
        manualSession =
        .ok w' ∧ w'.items.find? manualItem.id = some later ∧ KeepsUser manualItem later := by
  have hruns : ((recognizedOrder lower Board.empty widthReading ⟨none, none⟩).toOption.bind
      fun order ↦ (saveExtraction ⟨0, "20260101", IdSource.longer⟩
        Board.empty manualItem order 2 "r"
        manualSession).toOption).isSome = true := by decide +kernel
  obtain ⟨w', hw'⟩ := Option.isSome_iff_exists.mp hruns
  obtain ⟨order, horder, hsaved⟩ := Option.bind_eq_some_iff.mp hw'
  have hitem : manualItem ∈ manualSession.items.rows := by decide +kernel
  obtain ⟨later, hlater, hkeeps⟩ := recognition_keeps_user hitem OrderDraft.validated_blank
    (eq_ok_of_toOption horder) (eq_ok_of_toOption hsaved)
  exact ⟨order, w', later, eq_ok_of_toOption hsaved, hlater, hkeeps⟩

end FilmOS.Agent
