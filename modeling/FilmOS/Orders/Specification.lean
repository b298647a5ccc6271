import FilmOS.Orders.Records
import FilmOS.Library.Numeral

/-!
# The order specification form

`validateSpecification` requires exactly one width and one thickness entry among their alias keys,
each a positive number with a unit, and replaces them by one canonical entry in millimetres and in
micrometres. `standardQuantity` converts a quantity to metres or kilograms.

The regular expression of the source, `(\d+(?:\.\d+)?)\s*(\S+)` on the whole value, is read greedily
by `splitMeasure`. Where only a shorter numeral would let the expression match, the unit it finds
begins with a digit or a point, which no factor table has, so the value is refused either way.
-/

set_option autoImplicit false
set_option relaxedAutoImplicit false

namespace FilmOS.Specification

open PythonText Numeral

/-- One dimension of the form: its label, the keys accepted for it, the factor of each unit, and the
unit of the canonical entry. -/
structure Dimension where
  label : String
  aliases : List String
  factors : List (String × ℕ)
  target : String

def width : Dimension where
  label := "宽幅"
  aliases := ["宽幅", "宽度", "幅宽", "width"]
  factors := [("cm", 10), ("mm", 1)]
  target := "mm"

def thickness : Dimension where
  label := "厚度"
  aliases := ["厚度", "厚", "thickness"]
  factors := [("丝", 10), ("c", 10), ("μm", 1), ("um", 1)]
  target := "μm"

/-- The key under which the values that were rewritten are kept. -/
def originalKey : String := "原始规格"

/-- A numeral, optional white space and a unit without white space, filling the whole text. -/
def splitMeasure (value : String) : Option (Decimal × String) :=
  match scanNumeral value.toList with
  | none => none
  | some (number, rest) =>
    let unit := rest.dropWhile isSpace
    if unit ≠ [] ∧ unit.any isSpace = false then some (number, String.ofList unit) else none

/-- The canonical text of a measured number: without exponent, and without trailing zeros after the
point. -/
def canonicalNumeral (number : Decimal) : List Char :=
  let text := number.format
  if '.' ∈ text then stripFraction text else text

/-- The values given for a dimension, in the order of its alias keys. -/
def givenValues (dimension : Dimension) (specs : Dict String) : List String :=
  dimension.aliases.filterMap (fun key ↦ (specs.get? key).map strip)

/-- The canonical entry for one value of a dimension. -/
def canonicalValue (dimension : Dimension) (value : String) : Except Failure String :=
  match splitMeasure value with
  | none => .error (.http 400 s!"{dimension.label}必须为正数并包含有效单位")
  | some (number, unit) =>
    match dimension.factors.lookup (lower unit) with
    | none => .error (.http 400 s!"{dimension.label}必须为正数并包含有效单位")
    | some factor =>
      if floatIsFinite number.value ∧ floatIsPositive number.value then
        .ok (String.ofList (canonicalNumeral (number.mulNat factor)) ++ dimension.target)
      else .error (.http 400 s!"{dimension.label}必须为正数并包含有效单位")

/-- The single value given for a dimension, and its canonical entry. -/
def readDimension (dimension : Dimension) (specs : Dict String) :
    Except Failure (String × String) :=
  match givenValues dimension specs with
  | [value] => (canonicalValue dimension value).map (value, ·)
  | _ => .error (.http 400 s!"请填写唯一的{dimension.label}及单位")

/-- The dictionary with the alias keys of a dimension replaced by its canonical entry. -/
def putDimension (dimension : Dimension) (canonical : String) (specs : Dict String) :
    Dict String :=
  (specs.without dimension.aliases).set dimension.label canonical

/-- The note kept for a value that was rewritten. -/
def originalNote (dimension : Dimension) (value canonical : String) : List String :=
  if value = canonical then [] else [s!"{dimension.label}：{value}"]

/-- `validate_specification`. -/
def validateSpecification (specs : Dict String) : Except Failure (Dict String) := do
  let (widthValue, widthCanonical) ← readDimension width specs
  let (thicknessValue, thicknessCanonical) ← readDimension thickness specs
  let result := putDimension thickness thicknessCanonical (putDimension width widthCanonical specs)
  let originals :=
    originalNote width widthValue widthCanonical ++
      originalNote thickness thicknessValue thicknessCanonical
  if originals = [] then return result
  else
    let kept := ((specs.get? originalKey).getD "" :: originals).filter (· ≠ "")
    return result.set originalKey (join "；" kept)

/-- The factor and the standard unit of each unit a quantity may have. -/
def quantityFactors : List (String × ℚ × String) :=
  [("m", 1, "m"), ("cm", 1 / 100, "m"), ("mm", 1 / 1000, "m"),
    ("kg", 1, "kg"), ("g", 1 / 1000, "kg"), ("t", 1000, "kg")]

/-- `standard_quantity`, on exact quantities. -/
def standardQuantity (quantity : ℚ) (unit : String) : Except Failure (ℚ × String) :=
  match quantityFactors.lookup unit with
  | none => .error (.http 400 "数量或单位无效")
  | some (factor, target) =>
    if quantity ≤ 0 then .error (.http 400 "数量或单位无效")
    else .ok (quantity * factor, target)

end FilmOS.Specification
