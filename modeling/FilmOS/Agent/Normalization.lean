import FilmOS.Agent.Extraction
import FilmOS.Production.CanonicalForm

/-!
# Normalisation of recognised orders

`normalizeExtraction_normalizes`: whatever the schema accepts becomes a draft that `OrderDraft`
accepts. Its quantity is the measured one times the factor of its unit, exactly, unless the product
leaves the bounds of a draft, and then the measured value stands in the notes. Where both dimensions
have a value and a unit, the specification is already in canonical form.

The bounds of the schema leave room: a number up to `10 ^ 12` with twelve places has a coefficient
up to `10 ^ 24`, and no factor takes it beyond the 28 digits of the decimal context.
-/

set_option autoImplicit false
set_option relaxedAutoImplicit false

namespace FilmOS

open PythonText Numeral

/-! ### Numerals that are read back -/

namespace Specification

/-- A canonical numeral is read as a number without zeros at the end of its fraction. -/
theorem scanNumeral_canonicalNumeral_reduced {d : Decimal} (hpos : 0 < d.value) :
    ∃ number, scanNumeral (canonicalNumeral d) = some (number, []) ∧ number.value = d.value ∧
      number.exponent ≤ 0 ∧ (number.exponent = 0 ∨ ¬ 10 ∣ number.coefficient) := by
  obtain ⟨m, f, hm, hvalue, hcase⟩ := exists_reduced ((Decimal.value_pos_iff d).mp hpos) d.exponent
  rw [← canonicalNumeral_congr (hvalue ▸ hpos) hvalue, ← hvalue]
  by_cases hf : 0 ≤ f
  · rw [canonicalNumeral_of_nonneg hf]
    have hdigits : ∀ c ∈ Nat.toDigits 10 m ++ List.replicate f.toNat '0', c.isDigit = true := by
      intro c hc
      exact isDigit_of_mem_format hf (format_of_nonneg hf ▸ hc)
    have hscan := @scanNumeral_whole _ [] (by simp) hdigits (by intro c hc; cases hc)
      (by simp)
    rw [List.append_nil] at hscan
    refine ⟨_, hscan, ?_, le_rfl, .inl rfl⟩
    rw [Nat.ofDigitChars_append, Nat.ofDigitChars_ten_toDigits, Nat.ofDigitChars_replicate_zero,
      mul_comm, Decimal.value_shift]
    congr 2
    omega
  · have hten : ¬ 10 ∣ m := hcase.resolve_left hf
    have hf := not_le.mp hf
    obtain ⟨digits, last, hdigits, hlast⟩ := getLast?_toDigits hten
    have hlastPoint : last ≠ '.' := by
      rintro rfl
      have : ('.' : Char).isDigit = true :=
        Nat.isDigit_of_mem_toDigits (b := 10) (n := m) (by decide) (by decide) (by simp [hdigits])
      exact absurd this (by decide)
    have htext : canonicalNumeral ⟨m, f⟩ = Decimal.format ⟨m, f⟩ := by
      rw [canonicalNumeral_of_neg hf, format_of_neg hf,
        show (-f).toNat = ((-f).toNat - 1) + 1 by omega, hdigits, placePoint_append,
        stripFraction_append hlast hlastPoint]
    rw [htext]
    exact ⟨_, scanNumeral_format hf.le, rfl, hf.le, .inr hten⟩

/-- The length of a canonical numeral. -/
theorem length_canonicalNumeral_le {d : Decimal} (hpos : 0 < d.value) {places bound : ℕ}
    (hplaces : -(places : ℤ) ≤ d.exponent) (hvalue : d.value ≤ 10 ^ bound) :
    (canonicalNumeral d).length ≤ bound + places + 2 := by
  obtain ⟨n, e⟩ := d
  obtain ⟨k, rfl⟩ : ∃ k : ℕ, e = -(places : ℤ) + k :=
    ⟨(e + places).toNat, by dsimp only at hplaces; omega⟩
  have hshift := Decimal.value_shift n k (-(places : ℤ))
  rw [← hshift] at hpos hvalue
  rw [← canonicalNumeral_congr hpos hshift]
  have hcoefficient :=
    @Decimal.coefficient_le ⟨n * 10 ^ k, -(places : ℤ)⟩ places bound le_rfl hvalue
  have hdigits : digitCount (n * 10 ^ k) ≤ bound + places + 1 :=
    (digitCount_le_iff (by omega)).mpr
      (hcoefficient.trans_lt (Nat.pow_lt_pow_right (by decide) (by omega)))
  have hformat := @length_format_le ⟨n * 10 ^ k, -(places : ℤ)⟩ (by dsimp only; omega) places _
    le_rfl hdigits
  have hle : (canonicalNumeral ⟨n * 10 ^ k, -(places : ℤ)⟩).length ≤
      (Decimal.format ⟨n * 10 ^ k, -(places : ℤ)⟩).length := by
    unfold canonicalNumeral
    dsimp only
    split_ifs
    · exact length_stripFraction_le _
    · exact le_rfl
  omega

end Specification

namespace Agent

open Specification

/-! ### The quantity -/

theorem plainDecimal_ofList {text : List Char} {number : Decimal}
    (h : scanNumeral text = some (number, [])) :
    plainDecimal (String.ofList text) = some number := by
  unfold plainDecimal
  rw [String.toList_ofList, h]

theorem plainDecimal_format {d : Decimal} (h : d.exponent ≤ 0) :
    plainDecimal (String.ofList d.format) = some d :=
  plainDecimal_ofList (scanNumeral_format h)

/-- A number is reduced when its fraction does not end in zero. -/
def Reduced (number : Decimal) : Prop :=
  number.exponent ≤ 0 ∧ (number.exponent = 0 ∨ ¬ 10 ∣ number.coefficient)

/-- A reduced number has the places that it needs. -/
theorem Reduced.exponent_ge_iff {number : Decimal} (h : Reduced number) (places : ℕ) :
    -(places : ℤ) ≤ number.exponent ↔ ∃ n : ℕ, number.value * 10 ^ places = n := by
  constructor
  · intro hle
    obtain ⟨k, hk⟩ : ∃ k : ℕ, number.exponent + places = k :=
      ⟨(number.exponent + places).toNat, by omega⟩
    refine ⟨number.coefficient * 10 ^ k, ?_⟩
    rw [Decimal.value_eq, mul_assoc, ← zpow_natCast (10 : ℚ) places, ← zpow_add₀ (by norm_num), hk,
      zpow_natCast]
    push_cast
    rfl
  · rintro ⟨n, hn⟩
    by_contra hlt
    obtain ⟨k, hk⟩ : ∃ k : ℕ, -(places : ℤ) = number.exponent + (k + 1 : ℕ) :=
      ⟨(-(places : ℤ) - number.exponent).toNat - 1, by omega⟩
    have hvalue : number.value = Decimal.value ⟨n, number.exponent + (k + 1 : ℕ)⟩ := by
      rw [← hk, Decimal.value_eq ⟨n, _⟩]
      dsimp only
      rw [zpow_neg, zpow_natCast, ← hn, mul_inv_cancel_right₀ (by positivity)]
    have hcoefficient := Decimal.coefficient_eq (e := number.exponent) hvalue
    refine h.2.resolve_left (by omega) ?_
    rw [hcoefficient, pow_succ]
    exact Dvd.intro_left _ (Nat.mul_assoc _ _ _)

/-- The text of a measured number is read as the same number, reduced. -/
theorem decimalOf_decimalText {value : Decimal} (hpos : 0 < value.value) :
    ∃ number, decimalOf (decimalText value) = .ok number ∧ number.value = value.value ∧
      Reduced number := by
  obtain ⟨number, hscan, hvalue, hexponent, hreduced⟩ := scanNumeral_canonicalNumeral_reduced hpos
  refine ⟨number, ?_, hvalue, hexponent, hreduced⟩
  unfold decimalOf decimalText
  rw [plainDecimal_ofList hscan]

/-- What the conversion of a number needs of the factor: it fits, and shifts the point or adds
none. -/
theorem quantityFactor_cases (unit : Option QuantityUnit) :
    (quantityFactor unit).exponent = 0 ∧ (quantityFactor unit).coefficient ≤ 1000 ∨
      quantityFactor unit = ⟨1, -3⟩ := by
  rcases unit with - | (- | - | - | -) <;> decide

/-- The product of a measured number and the factor of its unit is exact, and has the decimal places
that it needs. -/
theorem converted_eq {number value : Decimal} (hbounded : BoundedNumber value)
    (hvalue : number.value = value.value) (hreduced : Reduced number) (unit : Option QuantityUnit) :
    (number.mul (quantityFactor unit)).value = value.value * (quantityFactor unit).value ∧
      (number.mul (quantityFactor unit)).exponent ≤ 0 ∧
      (-12 ≤ (number.mul (quantityFactor unit)).exponent ↔
        ∃ n : ℕ, value.value * (quantityFactor unit).value * 10 ^ 12 = n) := by
  obtain ⟨-, hle, hplaces⟩ := hbounded
  have hvaluePlaces : ∃ n : ℕ, value.value * 10 ^ 12 = n := by
    obtain ⟨k, hk⟩ : ∃ k : ℕ, value.exponent + 12 = k := ⟨(value.exponent + 12).toNat, by omega⟩
    refine ⟨value.coefficient * 10 ^ k, ?_⟩
    rw [Decimal.value_eq, mul_assoc, ← zpow_natCast (10 : ℚ) 12, ← zpow_add₀ (by norm_num)]
    push_cast
    rw [hk, zpow_natCast]
  have hnumberPlaces : -((12 : ℕ) : ℤ) ≤ number.exponent :=
    (hreduced.exponent_ge_iff 12).mpr (hvalue ▸ hvaluePlaces)
  have hcoefficient : number.coefficient ≤ 10 ^ 24 :=
    @Decimal.coefficient_le number 12 12 hnumberPlaces (hvalue ▸ hle)
  have hexact : number.mul (quantityFactor unit) =
      ⟨number.coefficient * (quantityFactor unit).coefficient,
        number.exponent + (quantityFactor unit).exponent⟩ := by
    refine Decimal.mul_of_lt ?_
    have hfactor : (quantityFactor unit).coefficient ≤ 1000 := by
      rcases quantityFactor_cases unit with h | h
      · exact h.2
      · rw [h]
        decide
    calc number.coefficient * (quantityFactor unit).coefficient ≤ 10 ^ 24 * 1000 :=
          Nat.mul_le_mul hcoefficient hfactor
      _ < 10 ^ precision := by decide
  have hproduct : (number.mul (quantityFactor unit)).value =
      value.value * (quantityFactor unit).value := by
    rw [hexact, ← hvalue, Decimal.value_eq, Decimal.value_eq number, Decimal.value_eq,
      zpow_add₀ (by norm_num)]
    push_cast
    ring
  refine ⟨hproduct, ?_, ?_⟩
  · rw [hexact]
    dsimp only
    rcases quantityFactor_cases unit with ⟨h, -⟩ | h
    · rw [h, add_zero]
      exact hreduced.1
    · rw [h]
      dsimp only
      have := hreduced.1
      omega
  · rw [hexact]
    dsimp only
    rcases quantityFactor_cases unit with ⟨h, -⟩ | h
    · rw [h, add_zero]
      refine iff_of_true hnumberPlaces ?_
      obtain ⟨n, hn⟩ := hvaluePlaces
      refine ⟨n * (quantityFactor unit).coefficient, ?_⟩
      rw [Decimal.value_eq (quantityFactor unit), h, zpow_zero, mul_one, Nat.cast_mul, ← hn]
      ring
    · have hnine := hreduced.exponent_ge_iff 9
      have hshift : value.value * (quantityFactor unit).value * 10 ^ 12 =
          number.value * 10 ^ 9 := by
        rw [h, hvalue, Decimal.value_eq ⟨1, -3⟩]
        norm_num
        ring
      rw [hshift, ← hnine, h]
      dsimp only
      omega

/-- A quantity that is measured is converted exactly, and written or noted. -/
theorem normalizeQuantity_some {quantity : Measurement QuantityUnit} {value : Decimal}
    (h : quantity.value = some value) (notes : String) :
    ∃ converted : Decimal,
      converted.value = value.value * (quantityFactor quantity.unit).value ∧
      converted.exponent ≤ 0 ∧
      (-12 ≤ converted.exponent ↔
        ∃ n : ℕ, value.value * (quantityFactor quantity.unit).value * 10 ^ 12 = n) ∧
      normalizeQuantity quantity notes =
        .ok (if converted.value ≤ 10 ^ 12 ∧ -12 ≤ converted.exponent then
            (some (String.ofList converted.format), notes)
          else (none, join "；" ([quantityNote quantity value, notes].filter (· ≠ "")))) := by
  have hbounded := quantity.bounded value h
  obtain ⟨number, hnumber, hvalue, hreduced⟩ := decimalOf_decimalText hbounded.1
  obtain ⟨hproduct, hexponent, hplaces⟩ := converted_eq hbounded hvalue hreduced quantity.unit
  generalize hconverted : number.mul (quantityFactor quantity.unit) = converted at *
  have hwritten : decimalOf (String.ofList converted.format) = .ok converted := by
    unfold decimalOf
    rw [plainDecimal_format hexponent]
  refine ⟨converted, hproduct, hexponent, hplaces, ?_⟩
  unfold normalizeQuantity
  simp only [h, hnumber, hconverted, hwritten, bind, Except.bind]
  split_ifs
  · rfl
  · rfl

/-! ### The dimensions -/

/-- What normalisation asks of a scale. -/
structure Scale.IsSmall {υ : Type} (scale : Scale υ) : Prop where
  canonical : scale.dimension.IsCanonical
  factor : ∀ unit, 0 < scale.factor unit ∧ scale.factor unit ≤ 10
  text : ∀ unit, (scale.text unit).length ≤ 2
  target : scale.dimension.target.length ≤ 2
  label : strip scale.dimension.label ≠ "" ∧ scale.dimension.label.length ≤ 2

theorem isSmall_widthScale : widthScale.IsSmall := by
  refine ⟨isCanonical_width, fun unit ↦ ?_, fun unit ↦ ?_, by decide, by decide⟩ <;>
    cases unit <;> decide

theorem isSmall_thicknessScale : thicknessScale.IsSmall := by
  refine ⟨isCanonical_thickness, fun unit ↦ ?_, fun unit ↦ ?_, by decide, by decide⟩ <;>
    cases unit <;> decide

/-- The product of a measured number and the factor of a length is exact. -/
theorem mulNat_of_bounded {value : Decimal} (hbounded : BoundedNumber value) {factor : ℕ}
    (hfactor : factor ≤ 10) :
    (value.mulNat factor).exponent = value.exponent ∧
      (value.mulNat factor).value = value.value * factor := by
  have hcoefficient : value.coefficient ≤ 10 ^ 24 :=
    @Decimal.coefficient_le _ 12 12 hbounded.2.2 hbounded.2.1
  have hexact : value.mulNat factor = ⟨value.coefficient * factor, value.exponent⟩ := by
    refine Decimal.mulNat_of_lt ?_
    calc value.coefficient * factor ≤ 10 ^ 24 * 10 := Nat.mul_le_mul hcoefficient hfactor
      _ < 10 ^ precision := by decide
  rw [hexact]
  refine ⟨rfl, ?_⟩
  rw [Decimal.value_eq, Decimal.value_eq value]
  push_cast
  ring

/-- A measured number is positive as a float, too. -/
theorem floatIsPositive_of_bounded {value : Decimal} (hbounded : BoundedNumber value) :
    floatIsPositive value.value := by
  have hone : (1 : ℚ) ≤ value.coefficient := by
    exact_mod_cast (Decimal.value_pos_iff value).mp hbounded.1
  have hunit : (10 : ℚ) ^ (-12 : ℤ) ≤ 10 ^ value.exponent :=
    zpow_le_zpow_right₀ (by norm_num) hbounded.2.2
  have hpow : (10 : ℚ) ^ 12 < 2 ^ 1075 :=
    calc (10 : ℚ) ^ 12 < 2 ^ 40 := by norm_num
      _ ≤ 2 ^ 1075 := pow_le_pow_right₀ (by norm_num) (by decide)
  unfold floatIsPositive
  rw [decide_eq_true_eq, Decimal.value_eq]
  calc (1 : ℚ) / 2 ^ 1075 < 1 / 10 ^ 12 := one_div_lt_one_div_of_lt (by positivity) hpow
    _ = 1 * 10 ^ (-12 : ℤ) := by norm_num
    _ ≤ value.coefficient * 10 ^ value.exponent :=
      mul_le_mul hone hunit (by positivity) (Nat.cast_nonneg _)

section Scales

variable {υ : Type} {scale : Scale υ} (hsmall : scale.IsSmall) {value : Decimal}
  (hbounded : BoundedNumber value)

include hsmall hbounded

/-- The entry for a measured length is accepted by the form, and kept. -/
theorem canonicalValue_measured (unit : υ) :
    canonicalValue scale.dimension (entry scale.dimension (value.mulNat (scale.factor unit))) =
      .ok (entry scale.dimension (value.mulNat (scale.factor unit))) := by
  obtain ⟨hfactorPos, hfactor⟩ := hsmall.factor unit
  obtain ⟨-, hproduct⟩ := mulNat_of_bounded hbounded hfactor
  have hpos := mulNat_pos (floatIsPositive_of_bounded hbounded) hfactorPos
  obtain ⟨read, hread, hvalue⟩ := splitMeasure_entry hsmall.canonical.readable hpos
  have hfinite : floatIsFinite read.value ∧ floatIsPositive read.value := by
    rw [hvalue, hproduct]
    refine ⟨floatIsFinite_of_le ?_,
      floatIsPositive_mul (floatIsPositive_of_bounded hbounded) hfactorPos⟩
    have hvalueLe : value.value ≤ 10 ^ 27 := hbounded.2.1.trans (by norm_num)
    exact mul_le_mul hvalueLe (by exact_mod_cast hfactor) (Nat.cast_nonneg _) (by norm_num)
  have hagain := canonicalValue_eq_ok_iff.mpr
    ⟨read, scale.dimension.target, 1, hread, hsmall.canonical.readable.target, hfinite, rfl⟩
  rw [hagain, canonicalValue_entry hsmall.canonical.readable hpos hagain]

theorem length_entry_le (unit : υ) :
    (entry scale.dimension (value.mulNat (scale.factor unit))).length ≤ 30 := by
  obtain ⟨hfactorPos, hfactor⟩ := hsmall.factor unit
  obtain ⟨hexponent, hproduct⟩ := mulNat_of_bounded hbounded hfactor
  have hpos := mulNat_pos (floatIsPositive_of_bounded hbounded) hfactorPos
  have hle : (value.mulNat (scale.factor unit)).value ≤ 10 ^ 13 := by
    rw [hproduct]
    calc value.value * (scale.factor unit : ℚ) ≤ 10 ^ 12 * 10 :=
          mul_le_mul hbounded.2.1 (by exact_mod_cast hfactor) (Nat.cast_nonneg _) (by norm_num)
      _ = 10 ^ 13 := by norm_num
  have hlength := @length_canonicalNumeral_le _ hpos 12 _
    (by rw [hexponent]; exact hbounded.2.2) hle
  unfold entry
  rw [String.length_append, String.length_ofList]
  have := hsmall.target
  omega

omit hsmall in
theorem length_decimalText_le : (decimalText value).length ≤ 26 := by
  unfold decimalText
  rw [String.length_ofList]
  exact @length_canonicalNumeral_le _ hbounded.1 12 12 hbounded.2.2
    hbounded.2.1

end Scales

/-- What a round of the loop over the dimensions adds: nothing, or one short entry and at most one
short text. -/
theorem addMeasurement_cases {υ : Type} {scale : Scale υ} (hsmall : scale.IsSmall)
    (measurement : SpecificationMeasurement υ) (measured : Measured) :
    addMeasurement scale measurement measured = measured ∨
    ∃ content, (addMeasurement scale measurement measured).specs =
        measured.specs.set scale.dimension.label content ∧ content.length ≤ 30 ∧
      ((addMeasurement scale measurement measured).originals = measured.originals ∨
        ∃ original, (addMeasurement scale measurement measured).originals =
          measured.originals ++ [original] ∧ original.length ≤ 31) := by
  unfold addMeasurement
  cases hvalue : measurement.value with
  | none => exact .inl rfl
  | some value =>
    have hbounded := measurement.bounded value hvalue
    have hnumber := length_decimalText_le hbounded
    right
    cases hunit : measurement.unit with
    | none => exact ⟨_, rfl, hnumber.trans (by decide), .inl rfl⟩
    | some unit =>
      refine ⟨_, rfl, length_entry_le hsmall hbounded unit, ?_⟩
      dsimp only
      split_ifs
      · exact .inl rfl
      · refine .inr ⟨_, rfl, ?_⟩
        have hlabel := hsmall.label.2
        have htext := hsmall.text unit
        simp only [String.length_append, toString]
        change _ + 1 + _ ≤ 31
        omega

/-- With a value and a unit, the entry is the canonical one. -/
theorem addMeasurement_specs {υ : Type} {scale : Scale υ}
    {measurement : SpecificationMeasurement υ} {value : Decimal} {unit : υ}
    (hvalue : measurement.value = some value) (hunit : measurement.unit = some unit)
    (measured : Measured) :
    (addMeasurement scale measurement measured).specs =
      measured.specs.set scale.dimension.label
        (entry scale.dimension (value.mulNat (scale.factor unit))) := by
  unfold addMeasurement
  simp only [hvalue, hunit]
  rfl

/-! ### Drafts that are accepted -/

theorem opaqueId_trim {value : Option Id} (h : DraftFields.OpaqueId value)
    (hne : ∀ id ∈ value, trim id ≠ "") : DraftFields.OpaqueId (value.map trim) := by
  intro id hid
  obtain ⟨id, hmem, rfl⟩ := Option.map_eq_some_iff.mp hid
  refine ⟨?_, (length_trim_le id).trans (h id hmem).2⟩
  rw [Nat.one_le_iff_ne_zero, ne_eq, String.length_eq_zero_iff]
  exact hne id hmem

theorem validSpecs_stripped {specs : Dict String} (h : DraftFields.ValidSpecs specs) :
    DraftFields.ValidSpecs
      (Dict.ofList (specs.rows.map (fun entry ↦ (trim entry.1, trim entry.2)))) := by
  refine ⟨(Dict.length_ofList_le _).trans ?_, fun entry hentry ↦ ?_⟩
  · rw [List.length_map]
    exact h.1
  · obtain ⟨entry, hmem, rfl⟩ := List.mem_map.mp (Dict.mem_of_mem_ofList hentry)
    obtain ⟨hkey, hlength, hvalue⟩ := h.2 entry hmem
    exact ⟨strip_trim_ne_empty hkey, (length_trim_le _).trans hlength,
      (length_trim_le _).trans hvalue⟩

/-- A well-formed draft stays so when white space around its texts is dropped. -/
theorem DraftFields.Valid.stripped {fields : DraftFields} (h : fields.Valid)
    (hids : ∀ value ∈ [fields.customerId, fields.productId, fields.formulaId],
      ∀ id ∈ value, trim id ≠ "") : fields.stripped.Valid := by
  obtain ⟨hcustomer, hproduct, hformula, hspecs, hquantity, hunit, hmode, hnone, hnotes⟩ := h
  refine ⟨opaqueId_trim hcustomer (hids _ (by simp)), opaqueId_trim hproduct (hids _ (by simp)),
    opaqueId_trim hformula (hids _ (by simp)), validSpecs_stripped hspecs, hquantity, hunit, hmode,
    fun h ↦ ?_, (length_trim_le _).trans hnotes⟩
  change fields.formulaId.map trim = none
  rw [hnone h, Option.map_none]

theorem OrderDraft.exists_modelValidate {fields : DraftFields} (h : fields.Valid)
    (hids : ∀ value ∈ [fields.customerId, fields.productId, fields.formulaId],
      ∀ id ∈ value, trim id ≠ "") : ∃ draft, OrderDraft.modelValidate fields = some draft := by
  unfold OrderDraft.modelValidate
  rw [dif_pos (h.stripped hids)]
  exact ⟨_, rfl⟩

/-! ### The specification -/

/-- What the dimensions have become after `rounds` rounds of the loop. -/
structure Measured.IsShort (rounds : ℕ) (measured : Measured) : Prop where
  count : measured.specs.rows.length ≤ rounds
  entries : ∀ entry ∈ measured.specs.rows,
    strip entry.1 ≠ "" ∧ entry.1.length ≤ 2 ∧ entry.2.length ≤ 30
  originals_count : measured.originals.length ≤ rounds
  originals : ∀ original ∈ measured.originals, original.length ≤ 31

theorem Measured.IsShort.addMeasurement {υ : Type} {scale : Scale υ} (hsmall : scale.IsSmall)
    (measurement : SpecificationMeasurement υ) {rounds : ℕ} {measured : Measured}
    (h : measured.IsShort rounds) :
    (addMeasurement scale measurement measured).IsShort (rounds + 1) := by
  rcases addMeasurement_cases hsmall measurement measured with
    heq | ⟨content, hspecs, hcontent, horiginals⟩
  · rw [heq]
    exact ⟨h.count.trans (Nat.le_succ _), h.entries, h.originals_count.trans (Nat.le_succ _),
      h.originals⟩
  · have hcount : (Agent.addMeasurement scale measurement measured).specs.rows.length ≤
        rounds + 1 := by
      rw [hspecs]
      exact (Dict.length_set_le _ _ _).trans (Nat.add_le_add_right h.count 1)
    have hentries : ∀ entry ∈ (Agent.addMeasurement scale measurement measured).specs.rows,
        strip entry.1 ≠ "" ∧ entry.1.length ≤ 2 ∧ entry.2.length ≤ 30 := by
      intro entry hentry
      rw [hspecs] at hentry
      rcases Dict.mem_set.mp hentry with rfl | ⟨hentry, -⟩
      · exact ⟨hsmall.label.1, hsmall.label.2, hcontent⟩
      · exact h.entries entry hentry
    refine ⟨hcount, hentries, ?_, ?_⟩
    · rcases horiginals with heq | ⟨original, heq, -⟩
      · rw [heq]
        exact h.originals_count.trans (Nat.le_succ _)
      · rw [heq, List.length_append]
        exact Nat.add_le_add_right h.originals_count 1
    · intro text htext
      rcases horiginals with heq | ⟨original, heq, hlength⟩
      · exact h.originals text (heq ▸ htext)
      · rw [heq, List.mem_append, List.mem_singleton] at htext
        rcases htext with htext | rfl
        · exact h.originals text htext
        · exact hlength

theorem isShort_measureDimensions (raw : OrderExtraction) :
    (measureDimensions raw).IsShort 2 := by
  have hstart : (⟨Table.empty, [], []⟩ : Measured).IsShort 0 :=
    ⟨le_rfl, fun _ h ↦ absurd h List.not_mem_nil, le_rfl, fun _ h ↦ absurd h List.not_mem_nil⟩
  exact (hstart.addMeasurement isSmall_widthScale raw.width).addMeasurement
    isSmall_thicknessScale raw.thickness

/-- The entries of a normalised specification are well formed. -/
theorem validSpecs_specParams (raw : OrderExtraction) :
    DraftFields.ValidSpecs (measureDimensions raw).specParams := by
  have hshort := isShort_measureDimensions raw
  have hentries : ∀ entry ∈ (measureDimensions raw).specs.rows,
      strip entry.1 ≠ "" ∧ entry.1.length ≤ 128 ∧ entry.2.length ≤ 2000 := by
    intro entry hentry
    obtain ⟨hkey, hlength, hvalue⟩ := hshort.entries entry hentry
    exact ⟨hkey, hlength.trans (by decide), hvalue.trans (by decide)⟩
  unfold Measured.specParams
  split_ifs
  · exact ⟨hshort.count.trans (by decide), hentries⟩
  · refine ⟨(Dict.length_set_le _ _ _).trans ?_, fun entry hentry ↦ ?_⟩
    · have := hshort.count
      omega
    · rcases Dict.mem_set.mp hentry with rfl | ⟨hentry, -⟩
      · have hjoin := @length_join_le "；" _ _ hshort.originals
        have hcount := hshort.originals_count
        have hkey : strip originalKey ≠ "" ∧ originalKey.length ≤ 128 := by decide
        refine ⟨hkey.1, hkey.2, hjoin.trans ?_⟩
        calc (measureDimensions raw).originals.length * (31 + "；".length) ≤
              2 * (31 + "；".length) := Nat.mul_le_mul_right _ hcount
          _ ≤ 2000 := by decide
      · exact hentries entry hentry

/-- With values and units for both dimensions, the specification holds their canonical entries. -/
theorem get?_specParams {raw : OrderExtraction} {width thickness : Decimal} {widthUnit : WidthUnit}
    {thicknessUnit : ThicknessUnit} (hwidth : raw.width.value = some width)
    (hwidthUnit : raw.width.unit = some widthUnit)
    (hthickness : raw.thickness.value = some thickness)
    (hthicknessUnit : raw.thickness.unit = some thicknessUnit) {key : String}
    (hkey : key ≠ originalKey) :
    (measureDimensions raw).specParams.get? key =
      if Specification.thickness.label = key then
        some (entry Specification.thickness
          (thickness.mulNat (thicknessScale.factor thicknessUnit)))
      else if Specification.width.label = key then
        some (entry Specification.width (width.mulNat (widthScale.factor widthUnit)))
      else none := by
  have hspecs : (measureDimensions raw).specParams.get? key =
      (measureDimensions raw).specs.get? key := by
    unfold Measured.specParams
    split_ifs
    · rfl
    · rw [Dict.get?_set, if_neg (Ne.symm hkey)]
  rw [hspecs, measureDimensions, addMeasurement_specs hthickness hthicknessUnit,
    addMeasurement_specs hwidth hwidthUnit, Dict.get?_set, Dict.get?_set]
  rfl

/-- A specification with canonical entries for both dimensions is accepted and unchanged. -/
theorem validateSpecification_of_entries {specs : Dict String} {forWidth forThickness : String}
    (hwidthKept : canonicalValue Specification.width forWidth = .ok forWidth)
    (hthicknessKept : canonicalValue Specification.thickness forThickness = .ok forThickness)
    (hwidthStrip : strip forWidth = forWidth) (hthicknessStrip : strip forThickness = forThickness)
    (hget : ∀ key, key ≠ originalKey → specs.get? key =
      if Specification.thickness.label = key then some forThickness
      else if Specification.width.label = key then some forWidth
      else none) :
    ∃ result, validateSpecification specs = .ok result ∧ Dict.Same result specs := by
  have hnote : ∀ key ∈ Specification.width.aliases ++ Specification.thickness.aliases,
      key ≠ originalKey := by decide
  have hwidthGet : specs.get? Specification.width.label = some forWidth := by
    rw [hget _ (by decide), if_neg (by decide), if_pos rfl]
  have hthicknessGet : specs.get? Specification.thickness.label = some forThickness := by
    rw [hget _ (by decide), if_pos rfl]
  have hothers : ∀ key ∈ Specification.width.aliases ++ Specification.thickness.aliases,
      key ≠ Specification.width.label → key ≠ Specification.thickness.label →
      specs.get? key = none := by
    intro key hkey hwidth hthickness
    rw [hget key (hnote key hkey), if_neg (Ne.symm hthickness), if_neg (Ne.symm hwidth)]
  have hreadWidth : readDimension Specification.width specs = .ok (forWidth, forWidth) := by
    refine readDimension_eq_ok_iff.mpr ⟨?_, hwidthKept⟩
    rw [givenValues_of_label (by simp) hwidthGet, hwidthStrip]
    intro key hkey hne
    refine hothers key (List.mem_append_left _ hkey) hne ?_
    have hdisjoint : ∀ key ∈ Specification.width.aliases, key ≠ Specification.thickness.label := by
      decide
    exact hdisjoint key hkey
  have hreadThickness :
      readDimension Specification.thickness specs = .ok (forThickness, forThickness) := by
    refine readDimension_eq_ok_iff.mpr ⟨?_, hthicknessKept⟩
    rw [givenValues_of_label (by simp) hthicknessGet, hthicknessStrip]
    intro key hkey hne
    refine hothers key (List.mem_append_right _ hkey) ?_ hne
    have hdisjoint : ∀ key ∈ Specification.thickness.aliases, key ≠ Specification.width.label := by
      decide
    exact hdisjoint key hkey
  refine ⟨_, validateSpecification_of_kept hreadWidth hreadThickness, fun key ↦ ?_⟩
  rw [get?_putDimension, get?_putDimension]
  by_cases hthickness : Specification.thickness.label = key
  · rw [if_pos hthickness, ← hthickness, hthicknessGet]
  · rw [if_neg hthickness]
    by_cases hwidth : Specification.width.label = key
    · rw [if_pos hwidth, ← hwidth, if_neg (by decide), hwidthGet]
    · rw [if_neg hwidth]
      split_ifs with h h'
      · exact (hothers key (List.mem_append_right _ h) (Ne.symm hwidth) (Ne.symm hthickness)).symm
      · exact (hothers key (List.mem_append_left _ h') (Ne.symm hwidth) (Ne.symm hthickness)).symm
      · rfl

/-! ### The draft -/

/-- A converted quantity leaves the bounds of a draft. -/
def LeavesBounds (converted : ℚ) : Prop :=
  10 ^ 12 < converted ∨ ¬ ∃ n : ℕ, converted * 10 ^ 12 = n

/-- What the draft made of an extraction is, for all fields that normalisation fills. -/
structure Normalizes (raw : OrderExtraction) (dump : DraftDump) : Prop where
  accepted : ∃ draft, dump.modelValidate = some draft
  quantity_null : dump.quantity = none ↔ raw.quantity.value = none ∨
    ∃ value ∈ raw.quantity.value,
      LeavesBounds (value.value * (quantityFactor raw.quantity.unit).value)
  noted : dump.quantity = none → ∀ value ∈ raw.quantity.value,
    (quantityNote raw.quantity value).toList <+: dump.extraNotes.toList
  quantity_exact : ∀ text ∈ dump.quantity, ∃ value ∈ raw.quantity.value,
    (plainDecimal text).map Decimal.value =
      some (value.value * (quantityFactor raw.quantity.unit).value)
  specification : raw.width.value.isSome → raw.width.unit.isSome → raw.thickness.value.isSome →
    raw.thickness.unit.isSome →
      ∃ result, validateSpecification dump.specParams = .ok result ∧
        Dict.Same result dump.specParams

/-- A quantity that was normalised is one that a draft accepts. -/
theorem readQuantity_format {converted : Decimal} (hpos : 0 < converted.value)
    (hexponent : converted.exponent ≤ 0) (hle : converted.value ≤ 10 ^ 12)
    (hplaces : -12 ≤ converted.exponent) :
    readQuantity (some (String.ofList converted.format)) = some (some converted) ∧
      DraftFields.PositiveDecimal converted := by
  have hcoefficient : converted.coefficient ≤ 10 ^ 24 :=
    @Decimal.coefficient_le _ 12 12 hplaces hle
  have hdigits : digitCount converted.coefficient ≤ 25 :=
    (digitCount_le_iff (by decide)).mpr (hcoefficient.trans_lt (by decide))
  have hlength := @length_format_le _ hexponent 12 _ hplaces hdigits
  have hspace : ∀ c ∈ converted.format, isSpace c = false := by
    intro c hc
    have hchar : c.isDigit = true ∨ c = '.' := by
      obtain ⟨n, e⟩ := converted
      by_cases he : 0 ≤ e
      · exact .inl (isDigit_of_mem_format he hc)
      · rw [format_of_neg (not_le.mp he)] at hc
        exact mem_placePoint hc
    rcases hchar with h | rfl
    · exact isSpace_of_isDigit h
    · decide
  refine ⟨?_, hpos, hle, hplaces⟩
  unfold readQuantity
  dsimp only
  rw [trim_of_noSpace hspace, strip_of_noSpace hspace, String.length_ofList, if_pos (by omega),
    plainDecimal_format hexponent]
  rfl

theorem length_quantityNote_le {quantity : Measurement QuantityUnit} {value : Decimal}
    (hbounded : BoundedNumber value) : (quantityNote quantity value).length ≤ 2000 := by
  have hunit : ((quantity.unit.map QuantityUnit.text).getD "").length ≤ 2 := by
    rcases quantity.unit with - | (- | - | - | -) <;> decide
  have hlabel : "原始数量：".length = 5 := by decide
  have hnumber := length_decimalText_le hbounded
  unfold quantityNote
  rw [String.length_append, String.length_append]
  omega

/-- The note stands at the start of the notes, before the cut. -/
theorem quantityNote_prefix {quantity : Measurement QuantityUnit} {value : Decimal}
    (hbounded : BoundedNumber value) (notes : String) :
    (quantityNote quantity value).toList <+:
      (join "；" ([quantityNote quantity value, notes].filter (· ≠ ""))).toList.take 2000 := by
  have hne : quantityNote quantity value ≠ "" := by
    unfold quantityNote
    intro h
    have := congrArg String.length h
    rw [String.length_append, String.length_append] at this
    have hlabel : "原始数量：".length = 5 := by decide
    have hempty : "".length = 0 := by decide
    omega
  have hlength := @length_quantityNote_le quantity _ hbounded
  rw [← String.length_toList] at hlength
  rw [List.prefix_take_iff]
  refine ⟨?_, hlength⟩
  rw [List.filter_cons_of_pos (by simpa using hne)]
  unfold join
  by_cases hnotes : notes = ""
  · rw [List.filter_cons_of_neg (by simpa using hnotes), List.filter_nil,
      String.intercalate_singleton]
  · rw [List.filter_cons_of_pos (by simpa using hnotes), List.filter_nil,
      String.intercalate_cons_cons, String.toList_append, String.toList_append, List.append_assoc]
    exact List.prefix_append _ _

/-- A normalised draft is accepted when its quantity is. -/
theorem accepted_normalizedDraft (raw : OrderExtraction) {quantity : Option String}
    {read : Option Decimal} (hread : readQuantity quantity = some read)
    (hpositive : ∀ number ∈ read, DraftFields.PositiveDecimal number) (notes : String) :
    ∃ draft, (normalizedDraft raw quantity notes).modelValidate = some draft := by
  have hunit : ∀ unit ∈ raw.quantity.unit.map quantityTarget, unit = "m" ∨ unit = "kg" := by
    rcases raw.quantity.unit with - | (- | - | - | -) <;> decide
  have hnotes : (String.ofList (notes.toList.take 2000)).length ≤ 2000 := by
    rw [String.length_ofList, List.length_take]
    exact min_le_left _ _
  have hnone : ∀ value : Option Id, value = none → DraftFields.OpaqueId value := by
    rintro _ rfl _ ⟨⟩
  unfold DraftDump.modelValidate DraftDump.fields
  have hquantity : (normalizedDraft raw quantity notes).quantity = quantity := rfl
  rw [hquantity, hread, Option.map_some, Option.bind_some]
  refine OrderDraft.exists_modelValidate
    ⟨hnone _ rfl, hnone _ rfl, hnone _ rfl, validSpecs_specParams raw, hpositive, hunit,
      .inl rfl, fun _ ↦ rfl, hnotes⟩ ?_
  intro value hvalue id hid
  have hvalueNone : value = none := by
    simpa [normalizedDraft, DraftDump.blank] using hvalue
  rw [hvalueNone] at hid
  cases hid

/-- With values and units for both dimensions, the specification is in canonical form. -/
theorem specification_normalizedDraft (raw : OrderExtraction) (quantity : Option String)
    (notes : String) (hwidth : raw.width.value.isSome) (hwidthUnit : raw.width.unit.isSome)
    (hthickness : raw.thickness.value.isSome) (hthicknessUnit : raw.thickness.unit.isSome) :
    ∃ result, validateSpecification (normalizedDraft raw quantity notes).specParams = .ok result ∧
      Dict.Same result (normalizedDraft raw quantity notes).specParams := by
  obtain ⟨width, hwidth⟩ := Option.isSome_iff_exists.mp hwidth
  obtain ⟨widthUnit, hwidthUnit⟩ := Option.isSome_iff_exists.mp hwidthUnit
  obtain ⟨thickness, hthickness⟩ := Option.isSome_iff_exists.mp hthickness
  obtain ⟨thicknessUnit, hthicknessUnit⟩ := Option.isSome_iff_exists.mp hthicknessUnit
  have hwidthBounded := raw.width.bounded width hwidth
  have hthicknessBounded := raw.thickness.bounded thickness hthickness
  refine validateSpecification_of_entries
    (canonicalValue_measured isSmall_widthScale hwidthBounded widthUnit)
    (canonicalValue_measured isSmall_thicknessScale hthicknessBounded thicknessUnit)
    (strip_entry isReadable_width ?_) (strip_entry isReadable_thickness ?_)
    (fun key hkey ↦ get?_specParams hwidth hwidthUnit hthickness hthicknessUnit hkey)
  · exact mulNat_pos (floatIsPositive_of_bounded hwidthBounded)
      (isSmall_widthScale.factor widthUnit).1
  · exact mulNat_pos (floatIsPositive_of_bounded hthicknessBounded)
      (isSmall_thicknessScale.factor thicknessUnit).1

theorem normalizeExtraction_of_quantity {raw : OrderExtraction} {quantity : Option String}
    {notes : String} (h : normalizeQuantity raw.quantity (raw.notes.getD "") = .ok
    (quantity, notes)) : normalizeExtraction raw =
      .ok (normalizedDraft raw quantity notes, (measureDimensions raw).issues) := by
  unfold normalizeExtraction
  rw [h]
  rfl

/-- Whatever the schema accepts is normalised to a draft that `OrderDraft` accepts, with the
quantity and the specification that the measured values stand for. -/
theorem normalizeExtraction_normalizes (raw : OrderExtraction) :
    ∃ dump issues, normalizeExtraction raw = .ok (dump, issues) ∧ Normalizes raw dump := by
  cases hvalue : raw.quantity.value with
  | none =>
    have hquantity : normalizeQuantity raw.quantity (raw.notes.getD "") =
        .ok (none, raw.notes.getD "") := by
      unfold normalizeQuantity
      rw [hvalue]
      rfl
    refine ⟨_, _, normalizeExtraction_of_quantity hquantity,
      @accepted_normalizedDraft raw _ none rfl (by simp) _, ?_, ?_, ?_,
      specification_normalizedDraft raw _ _⟩
    · exact iff_of_true rfl (.inl hvalue)
    · intro _ value hmem
      rw [hvalue] at hmem
      cases hmem
    · intro text hmem
      cases hmem
  | some value =>
    have hbounded := raw.quantity.bounded value hvalue
    obtain ⟨converted, hconverted, hexponent, hplaces, hquantity⟩ :=
      normalizeQuantity_some hvalue (raw.notes.getD "")
    have hfactor : 0 < (quantityFactor raw.quantity.unit).value := by
      rw [Decimal.value_pos_iff]
      rcases raw.quantity.unit with - | (- | - | - | -) <;> decide
    have hpos : 0 < converted.value := hconverted ▸ mul_pos hbounded.1 hfactor
    by_cases hfits : converted.value ≤ 10 ^ 12 ∧ -12 ≤ converted.exponent
    · rw [if_pos hfits] at hquantity
      obtain ⟨hread, hpositive⟩ := readQuantity_format hpos hexponent hfits.1 hfits.2
      refine ⟨_, _, normalizeExtraction_of_quantity hquantity,
        accepted_normalizedDraft raw hread (by simpa using hpositive) _, ?_, ?_, ?_,
        specification_normalizedDraft raw _ _⟩
      · refine iff_of_false (by simp [normalizedDraft]) ?_
        rintro (hnone | ⟨value', hmem, hleaves⟩)
        · rw [hvalue] at hnone
          cases hnone
        · rw [hvalue] at hmem
          cases hmem
          rw [LeavesBounds, ← hplaces, ← hconverted] at hleaves
          exact hleaves.elim (not_lt.mpr hfits.1) (fun h ↦ h hfits.2)
      · intro hnone
        cases hnone
      · intro text hmem
        cases hmem
        refine ⟨value, hvalue, ?_⟩
        rw [plainDecimal_format hexponent, Option.map_some, hconverted]
    · rw [if_neg hfits] at hquantity
      refine ⟨_, _, normalizeExtraction_of_quantity hquantity,
        @accepted_normalizedDraft raw _ none rfl (by simp) _, ?_, ?_, ?_,
        specification_normalizedDraft raw _ _⟩
      · refine iff_of_true rfl (.inr ⟨value, hvalue, ?_⟩)
        rw [LeavesBounds, ← hplaces, ← hconverted]
        by_cases hle : converted.value ≤ 10 ^ 12
        · exact .inr fun h ↦ hfits ⟨hle, h⟩
        · exact .inl (not_le.mp hle)
      · intro _ value' hmem
        rw [hvalue] at hmem
        cases hmem
        change _ <+: (String.ofList _).toList
        rw [String.toList_ofList]
        exact quantityNote_prefix hbounded _
      · intro text hmem
        cases hmem

end Agent

end FilmOS
