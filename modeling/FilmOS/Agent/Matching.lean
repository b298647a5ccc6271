import FilmOS.Agent.Extraction
import FilmOS.Agent.Recognition

/-!
# From what was read to what is saved

`suggestedDraft` turns what was read for one order into the draft that is proposed for it: the
normalised fields, with the customer, the product and the formula that carry the names read. Where
no name fits, a choice among the candidates of the catalogue is taken, if the master data still has
exactly that candidate under its name. `saveScreenshot` saves a whole screenshot so read.

Two things are parameters. `lowerTrimmed` is `lower(trim(…))` as the database computes it, and a
`JsonColumn` gives the text that the database keeps for a JSON value, or nothing where it refuses
the value; the constraint on the size of the two JSON columns of a work item reads these texts.
-/

set_option autoImplicit false
set_option relaxedAutoImplicit false

namespace FilmOS.Agent

open Transaction PythonText

/-! ### Matching -/

/-- A choice among the candidates of the catalogue, with the label that the candidate had there. -/
structure EntityGuess where
  candidateId : Id
  label : String
  reason : String

/-- The accepted choices for one order. -/
structure Suggestions where
  customer : Option EntityGuess
  product : Option EntityGuess

/-- The only row under a name. -/
def onlyMatch (lowerTrimmed : String → String) (rows : List (Id × String)) (name : String) :
    Option Id :=
  match rows.filter (fun row ↦ lowerTrimmed row.2 = lower (strip name)) with
  | [row] => some row.1
  | _ => none

def customerNames (board : Board) : List (Id × String) :=
  board.customers.rows.map (fun row ↦ (row.id, row.company))

def productNames (board : Board) : List (Id × String) :=
  board.products.rows.map (fun row ↦ (row.id, row.name))

def formulaNames (board : Board) (productId : Id) : List (Id × String) :=
  (board.formulas.rows.filter (·.productId = productId)).map (fun row ↦ (row.id, row.name))

/-- `extracted_draft`. -/
def extractedDraft (lowerTrimmed : String → String) (board : Board) (raw : OrderExtraction) :
    Except Failure DraftDump := do
  let (draft, _) ← normalizeExtraction raw
  let draft := { draft with
    customerId := (truthy raw.customerName).bind (onlyMatch lowerTrimmed (customerNames board))
    productId := (truthy raw.productDescription).bind
      (onlyMatch lowerTrimmed (productNames board)) }
  let formulaId := (truthy raw.formulaRaw).bind (fun name ↦
    (truthy draft.productId).bind (fun productId ↦
      onlyMatch lowerTrimmed (formulaNames board productId) name))
  return if formulaId.isSome then { draft with formulaMode := "existing", formulaId } else draft

/-- A choice is taken for a field that is still empty, when its candidate is the only row under its
label. -/
def acceptedGuess (lowerTrimmed : String → String) (rows : List (Id × String)) (value : Option Id)
    (guess : Option EntityGuess) : Option EntityGuess :=
  if (truthy value).isSome then none
  else guess.filter (fun guess ↦ onlyMatch lowerTrimmed rows guess.label = some guess.candidateId)

/-- The issue of a choice that was taken. -/
def entityInferred (field : String) (guess : EntityGuess) : Issue where
  field
  code := "ENTITY_INFERRED"
  message := s!"已根据截图匹配为「{guess.label}」，请核对。依据：{guess.reason}"
  severity := .warning

/-- The product as the screenshot names it, before the notes. -/
def describedNotes (description : Option String) (notes : String) : String :=
  match truthy description with
  | none => notes
  | some description =>
    String.ofList ((join "；" (["截图产品原文：" ++ description, notes].filter (· ≠ ""))).toList.take
      2000)

/-- `suggested_draft`. -/
def suggestedDraft (lowerTrimmed : String → String) (board : Board) (raw : OrderExtraction)
    (suggestions : Suggestions) : Except Failure (DraftDump × List Issue) := do
  let draft ← extractedDraft lowerTrimmed board raw
  let customer :=
    acceptedGuess lowerTrimmed (customerNames board) draft.customerId suggestions.customer
  let product := acceptedGuess lowerTrimmed (productNames board) draft.productId suggestions.product
  let issues := (customer.map (entityInferred "customer_id")).toList ++
    (product.map (entityInferred "product_id")).toList
  return ({ draft with
      customerId := (customer.map (some ·.candidateId)).getD draft.customerId
      productId := (product.map (some ·.candidateId)).getD draft.productId
      extraNotes :=
        if product.isSome then describedNotes raw.productDescription draft.extraNotes
        else draft.extraNotes },
    issues)

/-! ### Screenshots -/

/-- What was read for one order of a screenshot: the values that the schema accepted, the warnings
that were added to them afterwards, and the text that the database keeps for their JSON. -/
structure OrderReading where
  extraction : OrderExtraction
  addedWarnings : List String
  json : Option String

/-- What was read from a screenshot, from one to twenty orders. -/
structure ScreenshotReading where
  first : OrderReading
  further : List OrderReading
  atMostTwenty : further.length ≤ 19

/-- What is made of one order that was read. -/
def recognizedOrder (lowerTrimmed : String → String) (board : Board) (reading : OrderReading)
    (suggestions : Suggestions) : Except Failure RecognizedOrder := do
  let (dump, matchIssues) ← suggestedDraft lowerTrimmed board reading.extraction suggestions
  let (_, inferenceIssues) ← normalizeExtraction reading.extraction
  match dump.fields with
  | none => throw (.valueError "OrderDraft")
  | some proposed =>
    return { proposed, inferenceIssues, matchIssues
             warnings := reading.extraction.warnings ++ reading.addedWarnings }

/-- What is made of the further orders of a screenshot, numbered from `index`. -/
def furtherOrders (lowerTrimmed : String → String) (board : Board) (suggestions : ℕ → Suggestions) :
    List OrderReading → ℕ → Except Failure (List RecognizedOrder)
  | [], _ => return []
  | reading :: rest, index => do
    let order ← recognizedOrder lowerTrimmed board reading (suggestions index)
    let orders ← furtherOrders lowerTrimmed board suggestions rest (index + 1)
    return order :: orders

/-- The text that the database keeps for a draft, or nothing where it refuses its JSON. -/
abbrev JsonColumn := OrderDraft → Option String

/-- `ck_order_intake_items_size`, for one of the two columns. -/
def FitsColumn (json : Option String) : Prop := json.any (fun text ↦ text.utf8ByteSize ≤ 65536)

instance (json : Option String) : Decidable (FitsColumn json) :=
  inferInstanceAs (Decidable (_ = _))

/-- The items that were written: the one that was there, and those that are new. -/
def writtenItems (itemId : Id) (w w' : Workspace) : List OrderIntakeItem :=
  w'.items.rows.filter (fun row ↦ row.id = itemId ∨ row.id ∉ w.items.keys)

/-- `save_screenshot_extraction` for what was read from a screenshot, with the constraint on the
rows that it writes. -/
def saveScreenshot (lowerTrimmed : String → String) (column : JsonColumn) (call : Call)
    (item : OrderIntakeItem) (reading : ScreenshotReading) (suggestions : ℕ → Suggestions)
    (expected : ℕ) (runId : Id) (w : Workspace) : Txn Failure AgentDb Workspace := do
  let db ← get
  let first ← checked (recognizedOrder lowerTrimmed db.board reading.first (suggestions 1))
  let further ← checked (furtherOrders lowerTrimmed db.board suggestions reading.further 2)
  let w' ← saveScreenshotExtraction call item first further expected runId w
  require (∀ order ∈ reading.first :: reading.further, FitsColumn order.json)
    (.integrityError "ck_order_intake_items_size")
  require (∀ row ∈ writtenItems item.id w w', FitsColumn (column row.draft))
    (.integrityError "ck_order_intake_items_size")
  return w'

end FilmOS.Agent
