import FilmOS.Production.Dimensions

/-!
# The canonical form of a specification

`validateSpecification` rewrites the value given for each dimension in the standard unit, without
trailing zeros. For numerals whose products are exact this is a canonical form
(`validateSpecification_canonical`): it is accepted and unchanged by a second application, holds one
key and the same length for each dimension, equal lengths have equal entries, and the entries of
other keys are kept.

That products are exact is `ShortNumerals`: at most 27 digits leave room for the factor of a unit in
the precision of the decimal context, and keep a length far from the largest float.
-/

set_option autoImplicit false
set_option relaxedAutoImplicit false

namespace FilmOS.Specification

open PythonText Numeral

/-! ### Lengths -/

/-- The length that a value of a dimension denotes, in the standard unit. -/
def lengthOf (dimension : Dimension) (value : String) : Option ℚ :=
  (splitMeasure value).bind fun measure ↦
    (dimension.factors.lookup (lower measure.2)).map fun factor : ℕ ↦
      measure.1.value * (factor : ℚ)

/-- The length that the single value given for a dimension denotes. -/
def givenLength (dimension : Dimension) (specs : Dict String) : Option ℚ :=
  match givenValues dimension specs with
  | [value] => lengthOf dimension value
  | _ => none

/-- The numerals of the dimensions have at most 27 digits. -/
def ShortNumerals (specs : Dict String) : Prop :=
  ∀ dimension ∈ [width, thickness], ∀ value ∈ givenValues dimension specs,
    ∀ measure ∈ splitMeasure value, digitCount measure.1.coefficient ≤ 27

/-- A numeral that is read has no positive exponent. -/
theorem exponent_scanNumeral {text rest : List Char} {number : Decimal}
    (h : scanNumeral text = some (number, rest)) : number.exponent ≤ 0 := by
  unfold scanNumeral at h
  split at h
  · cases h
  · split at h
    · obtain ⟨rfl, -⟩ := Prod.mk.inj (Option.some.inj h)
      simp [Decimal.ofDigits]
    · obtain ⟨rfl, -⟩ := Prod.mk.inj (Option.some.inj h)
      simp [Decimal.ofDigits]
  · obtain ⟨rfl, -⟩ := Prod.mk.inj (Option.some.inj h)
    simp [Decimal.ofDigits]

theorem exponent_splitMeasure {value unit : String} {number : Decimal}
    (h : splitMeasure value = some (number, unit)) : number.exponent ≤ 0 := by
  unfold splitMeasure at h
  cases hscan : scanNumeral value.toList with
  | none =>
    simp only [hscan] at h
    cases h
  | some read =>
    obtain ⟨number', rest⟩ := read
    simp only [hscan] at h
    split_ifs at h
    obtain ⟨rfl, -⟩ := Prod.mk.inj (Option.some.inj h)
    exact exponent_scanNumeral hscan

/-- The product of a short numeral and the factor of a unit is exact. -/
theorem value_mulNat {number : Decimal} (hshort : digitCount number.coefficient ≤ 27) {factor : ℕ}
    (hfactor : factor ≤ 10) : (number.mulNat factor).value = number.value * factor := by
  have hlt : number.coefficient < 10 ^ 27 := (digitCount_le_iff (by decide)).mp hshort
  have hproduct : number.coefficient * factor < 10 ^ precision :=
    calc number.coefficient * factor ≤ number.coefficient * 10 := Nat.mul_le_mul_left _ hfactor
      _ < 10 ^ 27 * 10 := by omega
      _ = 10 ^ precision := by rfl
  have hcount : digitCount (number.coefficient * factor) ≤ precision :=
    (digitCount_le_iff (by decide)).mpr hproduct
  unfold Decimal.mulNat Decimal.round
  rw [if_pos hcount]
  unfold Decimal.value
  push_cast
  ring

/-- A number with 28 digits before the point is finite as a float. -/
theorem floatIsFinite_of_le {x : ℚ} (h : x ≤ 10 ^ 27 * 10) : floatIsFinite x := by
  unfold floatIsFinite
  rw [decide_eq_true_eq]
  have hsplit : (2 : ℚ) ^ 1024 - 2 ^ 970 = 2 ^ 970 * (2 ^ 54 - 1) := by
    rw [mul_sub, ← pow_add, mul_one]
  have hlarge : (2 : ℚ) ^ 94 ≤ 2 ^ 970 := pow_le_pow_right₀ (by norm_num) (by decide)
  rw [hsplit]
  calc x ≤ 10 ^ 27 * 10 := h
    _ < 2 ^ 94 * (2 ^ 54 - 1) := by norm_num
    _ ≤ 2 ^ 970 * (2 ^ 54 - 1) := mul_le_mul_of_nonneg_right hlarge (by norm_num)

/-- The length of a short numeral is finite as a float. -/
theorem floatIsFinite_short {number : Decimal} (hshort : digitCount number.coefficient ≤ 27)
    (hexponent : number.exponent ≤ 0) {factor : ℕ} (hfactor : factor ≤ 10) :
    floatIsFinite (number.value * factor) := by
  have hlt : number.coefficient < 10 ^ 27 := (digitCount_le_iff (by decide)).mp hshort
  have hpow : (10 : ℚ) ^ number.exponent ≤ 1 := zpow_le_one_of_nonpos₀ (by norm_num) hexponent
  have hvalue : number.value ≤ 10 ^ 27 := by
    rw [Decimal.value_eq]
    calc (number.coefficient : ℚ) * 10 ^ number.exponent ≤ number.coefficient * 1 :=
          mul_le_mul_of_nonneg_left hpow (Nat.cast_nonneg _)
      _ = number.coefficient := mul_one _
      _ ≤ 10 ^ 27 := by exact_mod_cast hlt.le
  exact floatIsFinite_of_le
    (mul_le_mul hvalue (by exact_mod_cast hfactor) (Nat.cast_nonneg _) (by norm_num))

theorem floatIsPositive_mul {number : Decimal} (h : floatIsPositive number.value) {factor : ℕ}
    (hfactor : 0 < factor) : floatIsPositive (number.value * factor) := by
  unfold floatIsPositive at h ⊢
  rw [decide_eq_true_eq] at h ⊢
  have hpos : 0 < number.value := lt_trans (by positivity) h
  have hone : (1 : ℚ) ≤ factor := by exact_mod_cast hfactor
  exact h.trans_le (le_mul_of_one_le_right hpos.le hone)

/-! ### One dimension -/

/-- What canonicalisation asks of a dimension. -/
structure Dimension.IsCanonical (dimension : Dimension) : Prop where
  readable : dimension.IsReadable
  small : ∀ unit ∈ dimension.factors, unit.2 ≤ 10
  label_mem : dimension.label ∈ dimension.aliases

theorem isCanonical_width : width.IsCanonical :=
  ⟨isReadable_width, by decide, by decide⟩

theorem isCanonical_thickness : thickness.IsCanonical :=
  ⟨isReadable_thickness, by decide, by decide⟩

theorem isCanonical_of_mem {dimension : Dimension} (h : dimension ∈ [width, thickness]) :
    dimension.IsCanonical := by
  rcases List.mem_cons.mp h with rfl | h
  · exact isCanonical_width
  · rw [List.mem_singleton.mp h]
    exact isCanonical_thickness

section Canonical

variable {dimension : Dimension} (hcanonical : dimension.IsCanonical)

include hcanonical

/-- A short accepted value is replaced by the entry for its length, which is accepted and kept. -/
theorem canonicalValue_short {value canonical : String}
    (hshort : ∀ measure ∈ splitMeasure value, digitCount measure.1.coefficient ≤ 27)
    (h : canonicalValue dimension value = .ok canonical) :
    ∃ d, 0 < d.value ∧ canonical = entry dimension d ∧
      lengthOf dimension value = some d.value ∧ lengthOf dimension canonical = some d.value ∧
      canonicalValue dimension canonical = .ok canonical := by
  obtain ⟨number, unit, factor, hsplit, hfactor, hnumber, rfl⟩ := canonicalValue_eq_ok_iff.mp h
  obtain ⟨before, after, hfactors, -⟩ := List.lookup_eq_some_iff.mp hfactor
  have hmem : (lower unit, factor) ∈ dimension.factors := by simp [hfactors]
  have hsmall : factor ≤ 10 := hcanonical.small _ hmem
  have hcount : digitCount number.coefficient ≤ 27 := hshort (number, unit) hsplit
  have hexact := value_mulNat hcount hsmall
  have hpos := mulNat_pos hnumber.2 (hcanonical.readable.positive _ hmem)
  obtain ⟨read, hread, hvalue⟩ := splitMeasure_entry hcanonical.readable hpos
  have hlength : lengthOf dimension value = some (number.mulNat factor).value := by
    unfold lengthOf
    rw [hsplit, Option.bind_some, hfactor, Option.map_some, hexact]
  have hagainLength : lengthOf dimension (entry dimension (number.mulNat factor)) =
      some (number.mulNat factor).value := by
    unfold lengthOf
    rw [hread, Option.bind_some, hcanonical.readable.target, Option.map_some, hvalue, Nat.cast_one,
      mul_one]
  refine ⟨number.mulNat factor, hpos, rfl, hlength, hagainLength, ?_⟩
  have hfinite : floatIsFinite read.value ∧ floatIsPositive read.value := by
    rw [hvalue, hexact]
    exact ⟨floatIsFinite_short hcount (exponent_splitMeasure hsplit) hsmall,
      floatIsPositive_mul hnumber.2 (hcanonical.readable.positive _ hmem)⟩
  have hagain := canonicalValue_eq_ok_iff.mpr
    ⟨read, dimension.target, 1, hread, hcanonical.readable.target, hfinite, rfl⟩
  rw [hagain, canonicalValue_entry hcanonical.readable hpos hagain]

/-- Two entries are equal exactly when the lengths are. -/
theorem entry_eq_iff {d d' : Decimal} (hpos : 0 < d.value) (hpos' : 0 < d'.value) :
    entry dimension d = entry dimension d' ↔ d.value = d'.value := by
  constructor
  · intro h
    obtain ⟨read, hread, hvalue⟩ := splitMeasure_entry hcanonical.readable hpos
    obtain ⟨read', hread', hvalue'⟩ := splitMeasure_entry hcanonical.readable hpos'
    rw [h, hread', Option.some.injEq, Prod.mk.injEq] at hread
    rw [← hvalue, ← hvalue', hread.1]
  · intro h
    unfold entry
    rw [canonicalNumeral_congr hpos h]

end Canonical

/-! ### Dictionaries -/

theorem get?_without (specs : Dict String) (keys : List String) (key : String) :
    (specs.without keys).get? key = if key ∈ keys then none else specs.get? key := by
  unfold Dict.get? Dict.without
  rw [Table.find?_filter]
  cases hfind : specs.find? key with
  | none => simp
  | some entry =>
    obtain ⟨entryKey, value⟩ := entry
    obtain rfl : entryKey = key := ((specs.find?_eq_some_iff).mp hfind).2
    by_cases hmem : entryKey ∈ keys
    · simp [hmem]
    · simp [hmem]

theorem get?_putDimension (dimension : Dimension) (canonical : String) (specs : Dict String)
    (key : String) :
    (putDimension dimension canonical specs).get? key =
      if dimension.label = key then some canonical
      else if key ∈ dimension.aliases then none
      else specs.get? key := by
  unfold putDimension
  rw [Dict.get?_set, get?_without]

/-- The single value given is that of the label when no other alias has one. -/
theorem givenValues_of_label {specs : Dict String} {canonical : String}
    {dimension : Dimension} (hmem : dimension ∈ [width, thickness])
    (hlabel : specs.get? dimension.label = some canonical)
    (hothers : ∀ key ∈ dimension.aliases, key ≠ dimension.label → specs.get? key = none) :
    givenValues dimension specs = [strip canonical] := by
  unfold givenValues
  rcases List.mem_cons.mp hmem with rfl | hmem
  · have h1 := hothers "宽度" (by decide) (by decide)
    have h2 := hothers "幅宽" (by decide) (by decide)
    have h3 := hothers "width" (by decide) (by decide)
    change specs.get? "宽幅" = _ at hlabel
    simp [width, hlabel, h1, h2, h3]
  · obtain rfl := List.mem_singleton.mp hmem
    have h1 := hothers "厚" (by decide) (by decide)
    have h2 := hothers "thickness" (by decide) (by decide)
    change specs.get? "厚度" = _ at hlabel
    simp [thickness, hlabel, h1, h2]

/-- The entries of an accepted specification: those of the dimensions put in, and the note of the
original texts when some value was rewritten. -/
theorem validateSpecification_form {specs result : Dict String}
    (h : validateSpecification specs = .ok result) :
    ∃ forWidth forThickness : String × String,
      readDimension width specs = .ok forWidth ∧
      readDimension thickness specs = .ok forThickness ∧
      (∀ key, key ≠ originalKey → result.get? key =
        (putDimension thickness forThickness.2 (putDimension width forWidth.2 specs)).get?
          key) := by
  unfold validateSpecification at h
  obtain ⟨forWidth, hwidth, h⟩ := Transaction.except_bind_eq_ok.mp h
  obtain ⟨forThickness, hthickness, h⟩ := Transaction.except_bind_eq_ok.mp h
  refine ⟨forWidth, forThickness, hwidth, hthickness, fun key hkey ↦ ?_⟩
  dsimp only at h
  split_ifs at h
  · rw [← Except.ok.inj h]
  · rw [← Except.ok.inj h, Dict.get?_set, if_neg (Ne.symm hkey)]

/-- A specification whose values are the entries for them is accepted without a note. -/
theorem validateSpecification_of_kept {specs : Dict String}
    {canonicalWidth canonicalThickness : String}
    (hwidth : readDimension width specs = .ok (canonicalWidth, canonicalWidth))
    (hthickness : readDimension thickness specs = .ok (canonicalThickness, canonicalThickness)) :
    validateSpecification specs =
      .ok (putDimension thickness canonicalThickness
        (putDimension width canonicalWidth specs)) := by
  unfold validateSpecification
  rw [hwidth, hthickness]
  simp only [bind, Except.bind, originalNote, if_true, List.append_nil]
  rfl

/-- What the form of a dimension in an accepted specification is. -/
structure HoldsDimension (dimension : Dimension) (specs result : Dict String)
    (given canonical : String) (d : Decimal) : Prop where
  given_eq : givenValues dimension specs = [given]
  keys_iff : ∀ key ∈ dimension.aliases, result.get? key =
    if key = dimension.label then some canonical else none
  positive : 0 < d.value
  canonical_eq : canonical = entry dimension d
  length_given : lengthOf dimension given = some d.value
  length_canonical : lengthOf dimension canonical = some d.value
  kept : canonicalValue dimension canonical = .ok canonical

/-- An accepted specification holds the canonical entry of each dimension. -/
theorem exists_holdsDimension {specs result : Dict String} (hshort : ShortNumerals specs)
    (h : validateSpecification specs = .ok result) {dimension : Dimension}
    (hmem : dimension ∈ [width, thickness]) :
    ∃ given canonical d, HoldsDimension dimension specs result given canonical d := by
  obtain ⟨⟨givenWidth, canonicalWidth⟩, ⟨givenThickness, canonicalThickness⟩, hwidth, hthickness,
    hget⟩ := validateSpecification_form h
  have hdimension : ∀ given canonical, readDimension dimension specs = .ok (given, canonical) →
      (∀ key ∈ dimension.aliases, result.get? key =
        if key = dimension.label then some canonical else none) →
      ∃ given canonical d, HoldsDimension dimension specs result given canonical d := by
    intro given canonical hread hkeys
    obtain ⟨hgiven, hcanonical⟩ := readDimension_eq_ok_iff.mp hread
    obtain ⟨d, hpos, hentry, hlength, hagain, hkept⟩ :=
      canonicalValue_short (isCanonical_of_mem hmem)
        (hshort dimension hmem given (by simp [hgiven])) hcanonical
    exact ⟨given, canonical, d, hgiven, hkeys, hpos, hentry, hlength, hagain, hkept⟩
  rcases List.mem_cons.mp hmem with rfl | hmem
  · refine hdimension givenWidth canonicalWidth hwidth ?_
    have hdisjoint : ∀ key ∈ width.aliases, key ≠ originalKey ∧ key ∉ thickness.aliases ∧
        thickness.label ≠ key := by decide
    intro key hkey
    obtain ⟨hnote, hthick, hlabel⟩ := hdisjoint key hkey
    rw [hget key hnote, get?_putDimension, if_neg hlabel, if_neg hthick, get?_putDimension,
      if_pos hkey]
    simp only [eq_comm]
  · obtain rfl := List.mem_singleton.mp hmem
    refine hdimension givenThickness canonicalThickness hthickness ?_
    have hdisjoint : ∀ key ∈ thickness.aliases, key ≠ originalKey := by decide
    intro key hkey
    rw [hget key (hdisjoint key hkey), get?_putDimension, if_pos hkey]
    simp only [eq_comm]

theorem HoldsDimension.readDimension_result {dimension : Dimension} {specs result : Dict String}
    {given canonical : String} {d : Decimal} (hmem : dimension ∈ [width, thickness])
    (h : HoldsDimension dimension specs result given canonical d) :
    readDimension dimension result = .ok (canonical, canonical) := by
  have hcanonical := isCanonical_of_mem hmem
  refine readDimension_eq_ok_iff.mpr ⟨?_, h.kept⟩
  have hstrip : strip canonical = canonical := by
    rw [h.canonical_eq]
    exact strip_entry hcanonical.readable h.positive
  have hlabel : result.get? dimension.label = some canonical := by
    rw [h.keys_iff _ hcanonical.label_mem, if_pos rfl]
  rw [givenValues_of_label hmem hlabel, hstrip]
  intro key hkey hne
  rw [h.keys_iff key hkey, if_neg hne]

theorem HoldsDimension.givenLength_eq {dimension : Dimension} {specs result : Dict String}
    {given canonical : String} {d : Decimal}
    (h : HoldsDimension dimension specs result given canonical d) :
    givenLength dimension specs = some d.value := by
  unfold givenLength
  rw [h.given_eq]
  exact h.length_given

/-- Putting in the entry that a specification holds changes nothing. -/
theorem HoldsDimension.same_putDimension {dimension : Dimension} {specs result : Dict String}
    {given canonical : String} {d : Decimal}
    (h : HoldsDimension dimension specs result given canonical d)
    (hlabel : dimension.label ∈ dimension.aliases) {again : Dict String}
    (hagain : Dict.Same again result) :
    Dict.Same (putDimension dimension canonical again) result := by
  intro key
  rw [get?_putDimension]
  by_cases hkey : key ∈ dimension.aliases
  · rw [h.keys_iff key hkey, if_pos hkey]
    simp only [eq_comm]
  · have hne : dimension.label ≠ key := fun heq ↦ hkey (heq ▸ hlabel)
    rw [if_neg hne, if_neg hkey, hagain key]

/-- For short numerals, what `validateSpecification` returns is a canonical form. -/
theorem validateSpecification_canonical :
    (∀ specs result : Dict String, ShortNumerals specs → validateSpecification specs = .ok result →
      (∃ again, validateSpecification result = .ok again ∧ Dict.Same again result) ∧
      (∀ dimension ∈ [width, thickness],
        (∀ key ∈ dimension.aliases, key ∈ result.keys ↔ key = dimension.label) ∧
        ∃ length, givenLength dimension specs = some length ∧
          (result.get? dimension.label).bind (lengthOf dimension) = some length) ∧
      ∀ key, key ∉ width.aliases → key ∉ thickness.aliases → key ≠ originalKey →
        result.get? key = specs.get? key) ∧
    ∀ specs specs' result result' : Dict String, ShortNumerals specs → ShortNumerals specs' →
      validateSpecification specs = .ok result → validateSpecification specs' = .ok result' →
      ∀ dimension ∈ [width, thickness],
        (result.get? dimension.label = result'.get? dimension.label ↔
          givenLength dimension specs = givenLength dimension specs') := by
  constructor
  · intro specs result hshort h
    refine ⟨?_, fun dimension hmem ↦ ?_, fun key hwidth hthickness hnote ↦ ?_⟩
    · have hwidthMem : width ∈ [width, thickness] := List.mem_cons_self
      have hthicknessMem : thickness ∈ [width, thickness] :=
        List.mem_cons_of_mem _ List.mem_cons_self
      obtain ⟨_, canonicalWidth, _, hwidth⟩ := exists_holdsDimension hshort h hwidthMem
      obtain ⟨_, canonicalThickness, _, hthickness⟩ := exists_holdsDimension hshort h hthicknessMem
      refine ⟨_, validateSpecification_of_kept (hwidth.readDimension_result hwidthMem)
        (hthickness.readDimension_result hthicknessMem), ?_⟩
      exact hthickness.same_putDimension isCanonical_thickness.label_mem
        (hwidth.same_putDimension isCanonical_width.label_mem fun _ ↦ rfl)
    · obtain ⟨given, canonical, d, hholds⟩ := exists_holdsDimension hshort h hmem
      refine ⟨fun key hkey ↦ ?_, d.value, hholds.givenLength_eq, ?_⟩
      · have hget := hholds.keys_iff key hkey
        rw [← not_iff_not, ← Dict.get?_eq_none_iff, hget]
        split_ifs with hlabel
        · simp [hlabel]
        · simp [hlabel]
      · rw [hholds.keys_iff _ (isCanonical_of_mem hmem).label_mem, if_pos rfl, Option.bind_some]
        exact hholds.length_canonical
    · obtain ⟨forWidth, forThickness, -, -, hget⟩ := validateSpecification_form h
      have hwidthLabel : width.label ≠ key := fun heq ↦ hwidth (heq ▸ isCanonical_width.label_mem)
      have hthicknessLabel : thickness.label ≠ key :=
        fun heq ↦ hthickness (heq ▸ isCanonical_thickness.label_mem)
      rw [hget key hnote, get?_putDimension, if_neg hthicknessLabel, if_neg hthickness,
        get?_putDimension, if_neg hwidthLabel, if_neg hwidth]
  · intro specs specs' result result' hshort hshort' h h' dimension hmem
    have hcanonical := isCanonical_of_mem hmem
    obtain ⟨_, canonical, d, hholds⟩ := exists_holdsDimension hshort h hmem
    obtain ⟨_, canonical', d', hholds'⟩ := exists_holdsDimension hshort' h' hmem
    rw [hholds.keys_iff _ hcanonical.label_mem, hholds'.keys_iff _ hcanonical.label_mem, if_pos rfl,
      if_pos rfl, hholds.givenLength_eq, hholds'.givenLength_eq, Option.some.injEq,
      Option.some.injEq, hholds.canonical_eq, hholds'.canonical_eq]
    exact entry_eq_iff hcanonical hholds.positive hholds'.positive

/-- A width in centimetres and a thickness in hundredths of a millimetre. -/
def sampleSpecs : Dict String :=
  Dict.ofList [("width", "60.50cm"), ("厚", "12丝"), ("颜色", "白")]

/-- What it becomes. -/
def sampleResult : Dict String :=
  Dict.ofList [("颜色", "白"), ("宽幅", "605mm"), ("厚度", "120μm"),
    ("原始规格", "宽幅：60.50cm；厚度：12丝")]

theorem shortNumerals_sampleSpecs : ShortNumerals sampleSpecs := by
  unfold ShortNumerals
  decide +kernel

theorem validateSpecification_canonical_sample :
    ∃ result again, validateSpecification sampleSpecs = .ok result ∧
      validateSpecification result = .ok again ∧ Dict.Same again result ∧
      result.get? "颜色" = some "白" := by
  have hresult : validateSpecification sampleSpecs = .ok sampleResult := by
    decide +kernel
  obtain ⟨⟨again, hagain, hsame⟩, -, hkept⟩ :=
    validateSpecification_canonical.1 sampleSpecs sampleResult shortNumerals_sampleSpecs hresult
  exact ⟨sampleResult, again, hresult, hagain, hsame,
    hkept "颜色" (by decide) (by decide) (by decide)⟩

end FilmOS.Specification
