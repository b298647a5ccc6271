import FilmOS.Agent.Drafts

/-!
# What recognition reads from a screenshot

An `OrderExtraction` holds what the vision model read for one order: measured numbers with units
from closed lists, and texts. Its bounds are those of the schema and are fields of the structures,
so a value here is one that the schema accepts. `normalizeExtraction` turns it into a draft: lengths
in the standard units, a quantity in metres or kilograms, and a note where the converted quantity
leaves the bounds of a draft.

The measured numbers are floats in the source and reach the conversion as the `Decimal` of their
shortest text; here they are such decimals.
-/

set_option autoImplicit false
set_option relaxedAutoImplicit false

namespace FilmOS.Agent

open PythonText Numeral Specification

/-! ### The schema -/

inductive WidthUnit
  | mm
  | cm
deriving DecidableEq, Repr

inductive ThicknessUnit
  | micrometre
  | silk
deriving DecidableEq, Repr

inductive QuantityUnit
  | m
  | kg
  | g
  | t
deriving DecidableEq, Repr

def WidthUnit.text : WidthUnit → String
  | .mm => "mm"
  | .cm => "cm"

def ThicknessUnit.text : ThicknessUnit → String
  | .micrometre => "μm"
  | .silk => "丝"

def QuantityUnit.text : QuantityUnit → String
  | .m => "m"
  | .kg => "kg"
  | .g => "g"
  | .t => "t"

inductive UnitSource
  | explicit
  | inferred
  | unknown
deriving DecidableEq, Repr

/-- `Number`, with at most twelve decimal places. -/
def BoundedNumber (value : Decimal) : Prop :=
  0 < value.value ∧ value.value ≤ 10 ^ 12 ∧ -12 ≤ value.exponent

instance (value : Decimal) : Decidable (BoundedNumber value) :=
  inferInstanceAs (Decidable (_ ∧ _))

/-- A text that is given has at most 2000 characters. -/
def ShortText (text : Option String) : Prop := ∀ content ∈ text, content.length ≤ 2000

instance (text : Option String) : Decidable (ShortText text) :=
  inferInstanceAs (Decidable (∀ _ ∈ _, _))

/-- `Measurement` in units `υ`. -/
structure Measurement (υ : Type) where
  value : Option Decimal
  sourceText : Option String
  unit : Option υ
  bounded : ∀ number ∈ value, BoundedNumber number
  short : ShortText sourceText

/-- The number that fills a text, without a sign or an exponent. -/
def plainDecimal (text : String) : Option Decimal :=
  match scanNumeral text.toList with
  | some (number, []) => some number
  | _ => none

/-- `consistent_source`: where the unit of a measurement comes from. -/
def ConsistentSource {υ : Type} (measurement : Measurement υ) (unitSource : UnitSource)
    (basis : Option String) : Prop :=
  match measurement.unit, unitSource with
  | none, .unknown => basis = none
  | none, _ => False
  | some _, .unknown => False
  | some _, .explicit => basis = none
  | some _, .inferred =>
    (basis.map strip).any (· ≠ "") ∧
      ∃ number ∈ measurement.value,
        (plainDecimal (strip (measurement.sourceText.getD ""))).map Decimal.value =
          some number.value

instance {υ : Type} (measurement : Measurement υ) (unitSource : UnitSource)
    (basis : Option String) : Decidable (ConsistentSource measurement unitSource basis) := by
  unfold ConsistentSource
  split <;> infer_instance

/-- `Specification`: a measurement of a dimension, and how its unit is known. -/
structure SpecificationMeasurement (υ : Type) extends Measurement υ where
  unitSource : UnitSource
  inferenceBasis : Option String
  basis_length : ∀ basis ∈ inferenceBasis, 1 ≤ basis.length ∧ basis.length ≤ 300
  consistent : ConsistentSource toMeasurement unitSource inferenceBasis

/-- `OrderExtraction`, with what becomes of it: the texts and numbers read for one order. -/
structure OrderExtraction where
  customerName : Option String
  productDescription : Option String
  width : SpecificationMeasurement WidthUnit
  thickness : SpecificationMeasurement ThicknessUnit
  quantity : Measurement QuantityUnit
  formulaRaw : Option String
  notes : Option String
  warnings : List String
  short : ∀ text ∈ [customerName, productDescription, formulaRaw, notes], ShortText text
  warnings_short : warnings.length ≤ 20 ∧ ∀ warning ∈ warnings, warning.length ≤ 2000

/-! ### Normalisation -/

/-- `decimal_text`. -/
def decimalText (value : Decimal) : String := String.ofList (canonicalNumeral value)

/-- A dimension as normalisation knows it: the units it reads, with their factors. -/
structure Scale (υ : Type) where
  dimension : Dimension
  text : υ → String
  factor : υ → ℕ

def widthScale : Scale WidthUnit where
  dimension := Specification.width
  text := WidthUnit.text
  factor
    | .cm => 10
    | .mm => 1

def thicknessScale : Scale ThicknessUnit where
  dimension := Specification.thickness
  text := ThicknessUnit.text
  factor
    | .silk => 10
    | .micrometre => 1

/-- What the dimensions have become so far: their entries, the texts that were rewritten, and the
issues of inferred units. -/
structure Measured where
  specs : Dict String
  originals : List String
  issues : List Issue

/-- The message of a unit that was inferred. -/
def inferredMessage (label unit source basis : String) : String :=
  s!"{label}原文 {source} 未标单位；AI 推测为 {unit}，已按此填入草稿，请核对。依据：{basis}"

/-- The issue of a unit that was inferred. -/
def unitInferred {υ : Type} (scale : Scale υ) (measurement : SpecificationMeasurement υ)
    (unit : υ) : Issue where
  field := "spec_params." ++ scale.dimension.label
  code := "UNIT_INFERRED"
  message := inferredMessage scale.dimension.label (scale.text unit)
    (measurement.sourceText.getD "None") (measurement.inferenceBasis.getD "None")
  severity := .warning

/-- One round of the loop over the dimensions. -/
def addMeasurement {υ : Type} (scale : Scale υ) (measurement : SpecificationMeasurement υ)
    (measured : Measured) : Measured :=
  match measurement.value with
  | none => measured
  | some value =>
    let number := decimalText value
    match measurement.unit with
    | none => { measured with specs := measured.specs.set scale.dimension.label number }
    | some unit =>
      let canonical := decimalText (value.mulNat (scale.factor unit)) ++ scale.dimension.target
      let original := number ++ scale.text unit
      { specs := measured.specs.set scale.dimension.label canonical
        originals :=
          if original = canonical then measured.originals
          else measured.originals ++ [s!"{scale.dimension.label}：{original}"]
        issues :=
          if measurement.unitSource = .inferred then
            measured.issues ++ [unitInferred scale measurement unit]
          else measured.issues }

/-- The factor to the standard unit of a quantity; a number without a unit is kept. -/
def quantityFactor : Option QuantityUnit → Decimal
  | some .g => ⟨1, -3⟩
  | some .t => ⟨1000, 0⟩
  | _ => ⟨1, 0⟩

/-- The standard unit. -/
def quantityTarget : QuantityUnit → String
  | .m => "m"
  | _ => "kg"

/-- `Decimal(text)`, for a text that `format` writes. -/
def decimalOf (text : String) : Except Failure Decimal :=
  match plainDecimal text with
  | some number => .ok number
  | none => .error (.valueError "InvalidOperation")

/-- The note for a quantity that a draft cannot hold. -/
def quantityNote (quantity : Measurement QuantityUnit) (value : Decimal) : String :=
  "原始数量：" ++ decimalText value ++ (quantity.unit.map QuantityUnit.text).getD ""

/-- The converted quantity, or a note of it before the others. -/
def normalizeQuantity (quantity : Measurement QuantityUnit) (notes : String) :
    Except Failure (Option String × String) :=
  match quantity.value with
  | none => return (none, notes)
  | some value => do
    let number ← decimalOf (decimalText value)
    let converted := number.mul (quantityFactor quantity.unit)
    let normalized := String.ofList converted.format
    let written ← decimalOf normalized
    -- a valid measurement can leave the bounds of a draft by its conversion
    if converted.value ≤ 10 ^ 12 ∧ -12 ≤ written.exponent then return (some normalized, notes)
    else return (none, join "；" ([quantityNote quantity value, notes].filter (· ≠ "")))

/-- A draft as `model_dump` writes it, with its quantity as text. -/
structure DraftDump where
  customerId : Option Id
  productId : Option Id
  specParams : Dict String
  quantity : Option String
  unit : Option String
  formulaMode : String
  formulaId : Option Id
  extraNotes : String

/-- `OrderDraft().model_dump()`. -/
def DraftDump.blank : DraftDump := ⟨none, none, Table.empty, none, none, "none", none, ""⟩

/-- The loop over the dimensions. -/
def measureDimensions (raw : OrderExtraction) : Measured :=
  addMeasurement thicknessScale raw.thickness
    (addMeasurement widthScale raw.width ⟨Table.empty, [], []⟩)

/-- The specification, with the texts that were rewritten. -/
def Measured.specParams (measured : Measured) : Dict String :=
  if measured.originals = [] then measured.specs
  else measured.specs.set originalKey (join "；" measured.originals)

/-- The draft with the fields that normalisation fills. -/
def normalizedDraft (raw : OrderExtraction) (quantity : Option String) (notes : String) :
    DraftDump :=
  { DraftDump.blank with
    specParams := (measureDimensions raw).specParams
    quantity
    unit := raw.quantity.unit.map quantityTarget
    extraNotes := String.ofList (notes.toList.take 2000) }

/-- `normalize_extraction`. -/
def normalizeExtraction (raw : OrderExtraction) : Except Failure (DraftDump × List Issue) := do
  let (quantity, notes) ← normalizeQuantity raw.quantity (raw.notes.getD "")
  return (normalizedDraft raw quantity notes, (measureDimensions raw).issues)

/-- The quantity of a draft: a numeral of at most 64 characters. Texts in another notation, which
normalisation does not write, are left out. -/
def readQuantity (quantity : Option String) : Option (Option Decimal) :=
  match quantity with
  | none => some none
  | some text =>
    if (trim text).length ≤ 64 then (plainDecimal (strip (trim text))).map some else none

/-- The fields of a draft, read from its dump. -/
def DraftDump.fields (dump : DraftDump) : Option DraftFields :=
  (readQuantity dump.quantity).map fun quantity ↦
    { customerId := dump.customerId, productId := dump.productId, specParams := dump.specParams
      quantity, unit := dump.unit, formulaMode := dump.formulaMode, formulaId := dump.formulaId
      extraNotes := dump.extraNotes }

/-- `OrderDraft.model_validate` of a dump. -/
def DraftDump.modelValidate (dump : DraftDump) : Option OrderDraft :=
  dump.fields.bind OrderDraft.modelValidate

end FilmOS.Agent
