import FilmOS.Library.PythonText
import Mathlib.Algebra.Order.Field.Rat
import Mathlib.Data.Rat.Floor
import Mathlib.Tactic.Positivity

/-!
# Numerals

Unsigned decimal numerals as Python's `\d+(?:\.\d+)?` reads them, the arithmetic of `Decimal` under
the default context (28 significant digits, half to even), and the renderings that messages use:
`format(d, "f")` of a `Decimal`, and `round`, `:.nf` and `:g` of a number.

Floating-point numbers are the rationals they denote. A rendering rounds the exact rational, half to
even, which is how the interpreter renders a double; `floatIsFinite` and `floatIsPositive` say when
the double nearest to a rational is finite and when it is positive.
-/

set_option autoImplicit false
set_option relaxedAutoImplicit false

namespace FilmOS.Numeral

open PythonText

/-! ### Reading numerals -/

/-- A finite nonnegative `Decimal`: `coefficient * 10 ^ exponent`. -/
structure Decimal where
  coefficient : ℕ
  exponent : ℤ
deriving DecidableEq, Repr

/-- A power of ten with an integer exponent. -/
def tenPow (k : ℤ) : ℚ :=
  if 0 ≤ k then (10 : ℚ) ^ k.toNat else 1 / (10 : ℚ) ^ (-k).toNat

/-- The number a `Decimal` denotes. -/
def Decimal.value (d : Decimal) : ℚ := d.coefficient * tenPow d.exponent

/-- The longest prefix of decimal digits, and the rest. -/
def spanDigits : List Char → List ℕ × List Char
  | [] => ([], [])
  | c :: rest =>
    match digitValue? c with
    | some d => (d :: (spanDigits rest).1, (spanDigits rest).2)
    | none => ([], c :: rest)

/-- The number a list of digits denotes. -/
def digitsValue (digits : List ℕ) : ℕ := digits.foldl (fun n d ↦ 10 * n + d) 0

/-- `Decimal` of a numeral with the given digits before and after the point. -/
def Decimal.ofDigits (whole fraction : List ℕ) : Decimal :=
  ⟨digitsValue (whole ++ fraction), -(fraction.length : ℤ)⟩

/-- The numeral `\d+(?:\.\d+)?` at the start of a text, as long as possible, and the rest. -/
def scanNumeral (text : List Char) : Option (Decimal × List Char) :=
  match spanDigits text with
  | ([], _) => none
  | (whole, '.' :: rest) =>
    match spanDigits rest with
    | ([], _) => some (Decimal.ofDigits whole [], '.' :: rest)
    | (fraction, rest') => some (Decimal.ofDigits whole fraction, rest')
  | (whole, rest) => some (Decimal.ofDigits whole [], rest)

/-! ### Rounding -/

/-- The nearest integer, half to even. -/
def roundHalfEven (x : ℚ) : ℤ :=
  let below := ⌊x⌋
  if x - below < 1 / 2 then below
  else if 1 / 2 < x - below then below + 1
  else if below % 2 = 0 then below
  else below + 1

/-- `round(x, digits)`. -/
def roundTo (digits : ℕ) (x : ℚ) : ℚ := roundHalfEven (x * 10 ^ digits) / 10 ^ digits

/-- The number of decimal digits of a natural number. -/
def digitCount (n : ℕ) : ℕ := (Nat.repr n).length

/-- The precision of the default `Decimal` context. -/
def precision : ℕ := 28

/-- A `Decimal` rounded to the precision of the context, half to even. -/
def Decimal.round (d : Decimal) : Decimal :=
  if digitCount d.coefficient ≤ precision then d
  else
    let drop := digitCount d.coefficient - precision
    let coefficient := (roundHalfEven ((d.coefficient : ℚ) / 10 ^ drop)).toNat
    if coefficient = 10 ^ precision then ⟨10 ^ (precision - 1), d.exponent + drop + 1⟩
    else ⟨coefficient, d.exponent + drop⟩

/-- The product of a `Decimal` and an integer. -/
def Decimal.mulNat (d : Decimal) (n : ℕ) : Decimal := Decimal.round ⟨d.coefficient * n, d.exponent⟩

/-- The product of two `Decimal`s. -/
def Decimal.mul (d d' : Decimal) : Decimal :=
  Decimal.round ⟨d.coefficient * d'.coefficient, d.exponent + d'.exponent⟩

/-- Whether the double nearest to a nonnegative rational is finite. -/
def floatIsFinite (x : ℚ) : Bool := x < 2 ^ 1024 - 2 ^ 970

/-- Whether the double nearest to a rational is positive. -/
def floatIsPositive (x : ℚ) : Bool := 1 / 2 ^ 1075 < x

/-! ### Rendering -/

/-- A text padded on the left with zeros. -/
def padZeros (width : ℕ) (text : List Char) : List Char :=
  List.replicate (width - text.length) '0' ++ text

/-- Digits with a decimal point before the last `places` of them. -/
def placePoint (places : ℕ) (digits : List Char) : List Char :=
  let padded := padZeros (places + 1) digits
  padded.take (padded.length - places) ++ '.' :: padded.drop (padded.length - places)

/-- `format(d, "f")`. -/
def Decimal.format (d : Decimal) : List Char :=
  let digits := (Nat.repr d.coefficient).toList
  if 0 ≤ d.exponent then digits ++ List.replicate d.exponent.toNat '0'
  else placePoint (-d.exponent).toNat digits

/-- `text.rstrip("0").rstrip(".")` for a text with a point. -/
def stripFraction (text : List Char) : List Char :=
  let shortened := (text.reverse.dropWhile (· = '0')).reverse
  (shortened.reverse.dropWhile (· = '.')).reverse

/-- `f"{x:.nf}"` with `places` for `n`, at least one. -/
def formatFixed (places : ℕ) (x : ℚ) : String :=
  let digits := (Nat.repr (roundHalfEven (|x| * 10 ^ places)).toNat).toList
  String.ofList ((if x < 0 then ['-'] else []) ++ placePoint places digits)

/-- The exponent of the first significant digit of a positive rational. -/
def leadingExponent (x : ℚ) : ℤ :=
  let guess : ℤ := (digitCount x.num.toNat : ℤ) - digitCount x.den
  if tenPow guess ≤ x then guess else guess - 1

/-- `f"{x:g}"`: six significant digits, without trailing zeros, in scientific notation outside
`1e-4 ≤ |x| < 1e6`. -/
def formatG (x : ℚ) : String :=
  if x = 0 then "0"
  else
    let exponent := leadingExponent |x|
    let scaled := (roundHalfEven (|x| * tenPow (5 - exponent))).toNat
    let (digits, exponent) :=
      if scaled = 10 ^ 6 then (10 ^ 5, exponent + 1) else (scaled, exponent)
    let text := (Nat.repr digits).toList
    let body :=
      if -4 ≤ exponent ∧ exponent < 6 then stripFraction (placePoint (5 - exponent).toNat text)
      else
        stripFraction (placePoint 5 text) ++ 'e' :: (if exponent < 0 then '-' else '+') ::
          padZeros 2 (Nat.repr exponent.natAbs).toList
    String.ofList ((if x < 0 then ['-'] else []) ++ body)

example : formatG (2001 / 2) = "1000.5" ∧ formatG 1234567 = "1.23457e+06" := by decide +kernel

end FilmOS.Numeral
