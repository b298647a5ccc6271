import FilmOS.Production.Rules
import FilmOS.Library.Double
import Mathlib.Data.Prod.Lex

/-!
# The dimensions the planner reads

An order is created with the specification that `validateSpecification` returns, which holds one
canonical entry for the width and one for the thickness. The specification is stored in a JSONB
column, which keeps the entries by the lengths of their keys in bytes, then byte by byte (`jsonb`).
The planner does not look the canonical entries up: it takes the first entry whose key is an alias
of the dimension once white space and case are disregarded. So an entry that the client adds under
such a key, which validation passes through, is read instead when JSONB has it before the canonical
one. What is read of a width is a double, and one more where centimetres are converted.

`canonicalNumeral_cases` is what a canonical numeral looks like, and gives that reading it returns
the number it was written for (`scanNumeral_canonicalNumeral`). `readsDimensions_iff` says exactly
when the planner reads the canonical entries: when the first stray entry before each of them, if
there is one, reads as the same measure as the entry that was validated, and the width is a double.
For numerals whose doubles are exact the width is that of the profile that the planner's model works
with (`profileWidth_eq`).
-/

set_option autoImplicit false
set_option relaxedAutoImplicit false

namespace FilmOS

open PythonText Numeral

/-! ### Canonical numerals -/

namespace Specification

theorem format_of_nonneg {n : ℕ} {e : ℤ} (he : 0 ≤ e) :
    Decimal.format ⟨n, e⟩ = Nat.toDigits 10 n ++ List.replicate e.toNat '0' := by
  unfold Decimal.format
  rw [if_pos he, Nat.toList_repr]

theorem format_of_neg {n : ℕ} {e : ℤ} (he : e < 0) :
    Decimal.format ⟨n, e⟩ = placePoint (-e).toNat (Nat.toDigits 10 n) := by
  unfold Decimal.format
  rw [if_neg (not_le.mpr he), Nat.toList_repr]

theorem isDigit_of_mem_format {n : ℕ} {e : ℤ} (he : 0 ≤ e) {c : Char}
    (h : c ∈ Decimal.format ⟨n, e⟩) : c.isDigit = true := by
  rw [format_of_nonneg he] at h
  rcases List.mem_append.mp h with h | h
  · exact Nat.isDigit_of_mem_toDigits (by decide) (by decide) h
  · rw [List.eq_of_mem_replicate h]
    decide

/-- An integer is rendered without a point. -/
theorem canonicalNumeral_of_nonneg {n : ℕ} {e : ℤ} (he : 0 ≤ e) :
    canonicalNumeral ⟨n, e⟩ = Nat.toDigits 10 n ++ List.replicate e.toNat '0' := by
  have hpoint : '.' ∉ Decimal.format ⟨n, e⟩ := by
    intro hmem
    exact absurd (isDigit_of_mem_format he hmem) (by decide)
  unfold canonicalNumeral
  dsimp only
  rw [if_neg hpoint, format_of_nonneg he]

theorem canonicalNumeral_of_neg {n : ℕ} {e : ℤ} (he : e < 0) :
    canonicalNumeral ⟨n, e⟩ = stripFraction (placePoint (-e).toNat (Nat.toDigits 10 n)) := by
  unfold canonicalNumeral
  dsimp only
  rw [format_of_neg he, if_pos (point_mem_placePoint _ _)]

/-- A zero at the end of the coefficient is not seen in the canonical numeral. -/
theorem canonicalNumeral_mul_ten {n : ℕ} (hn : 0 < n) (e : ℤ) :
    canonicalNumeral ⟨n * 10, e⟩ = canonicalNumeral ⟨n, e + 1⟩ := by
  rcases lt_trichotomy e (-1) with he | rfl | he
  · rw [canonicalNumeral_of_neg (by omega), canonicalNumeral_of_neg (by omega),
      toDigits_mul_ten hn, show (-e).toNat = (-(e + 1)).toNat + 1 by omega, placePoint_append,
      stripFraction_append_zero]
  · have hplace : placePoint 1 (Nat.toDigits 10 n ++ ['0']) = Nat.toDigits 10 n ++ ['.'] ++
      ['0'] := by
      obtain ⟨c, digits, hdigits⟩ := List.exists_cons_of_ne_nil
        (Nat.toDigits_ne_nil (n := n) (b := 10))
      have hpad : padZeros 2 (Nat.toDigits 10 n ++ ['0']) = Nat.toDigits 10 n ++ ['0'] := by
        unfold padZeros
        rw [hdigits]
        simp
      unfold placePoint
      dsimp only
      rw [hpad, List.length_append, List.length_singleton, Nat.add_sub_cancel, List.take_left,
        List.drop_left, List.append_assoc]
      rfl
    rw [canonicalNumeral_of_neg (by decide), canonicalNumeral_of_nonneg (by decide),
      toDigits_mul_ten hn]
    change stripFraction (placePoint 1 (Nat.toDigits 10 n ++ ['0'])) = Nat.toDigits 10 n ++ []
    rw [hplace, stripFraction_append_zero, List.append_nil]
    exact stripFraction_point fun c ↦ Nat.isDigit_of_mem_toDigits (by decide) (by decide)
  · rw [canonicalNumeral_of_nonneg (by omega), canonicalNumeral_of_nonneg (by omega),
      toDigits_mul_ten hn, List.append_assoc, List.singleton_append, ← List.replicate_succ]
    congr 2
    omega

theorem canonicalNumeral_mul_pow {n : ℕ} (hn : 0 < n) (k : ℕ) (e : ℤ) :
    canonicalNumeral ⟨n * 10 ^ k, e⟩ = canonicalNumeral ⟨n, e + k⟩ := by
  induction k generalizing e with
  | zero => simp
  | succ k ih =>
    rw [pow_succ, ← mul_assoc, canonicalNumeral_mul_ten (Nat.mul_pos hn (Nat.pow_pos (by decide))),
      ih]
    congr 2
    push_cast
    ring

/-- The canonical numeral depends on the number alone, not on how it is written. -/
theorem canonicalNumeral_congr {d d' : Decimal} (hpos : 0 < d.value) (h : d.value = d'.value) :
    canonicalNumeral d = canonicalNumeral d' := by
  obtain ⟨n, e⟩ := d
  obtain ⟨n', e'⟩ := d'
  have hn : 0 < n := (Decimal.value_pos_iff _).mp hpos
  have hn' : 0 < n' := (Decimal.value_pos_iff _).mp (h ▸ hpos)
  rcases le_total e e' with hle | hle
  · obtain ⟨k, rfl⟩ : ∃ k : ℕ, e' = e + k := ⟨(e' - e).toNat, by omega⟩
    rw [Decimal.coefficient_eq h, canonicalNumeral_mul_pow hn']
  · obtain ⟨k, rfl⟩ : ∃ k : ℕ, e = e' + k := ⟨(e - e').toNat, by omega⟩
    rw [Decimal.coefficient_eq h.symm, canonicalNumeral_mul_pow hn]

/-- A positive number is an integer, or can be written so that its fraction does not end in zero. -/
theorem exists_reduced {n : ℕ} (hn : 0 < n) (e : ℤ) :
    ∃ (m : ℕ) (f : ℤ), 0 < m ∧ Decimal.value ⟨m, f⟩ = Decimal.value ⟨n, e⟩ ∧
      (0 ≤ f ∨ ¬ 10 ∣ m) := by
  by_cases hreduced : 0 ≤ e ∨ ¬ 10 ∣ n
  · exact ⟨n, e, hn, rfl, hreduced⟩
  · rw [not_or, not_not, not_le] at hreduced
    obtain ⟨hneg, m, rfl⟩ := hreduced
    have hshift := Decimal.value_shift m 1 e
    have hm : 0 < m := by omega
    obtain ⟨m', f, hm', hvalue, hcase⟩ := exists_reduced hm (e + 1)
    refine ⟨m', f, hm', hvalue.trans ?_, hcase⟩
    rw [mul_comm, ← pow_one 10, hshift]
    rfl
termination_by (-e).toNat

/-- A canonical numeral consists of digits, or of digits, a point and digits; read as such it is the
number it was written for. -/
theorem canonicalNumeral_cases {d : Decimal} (hpos : 0 < d.value) :
    (∃ digits, canonicalNumeral d = digits ∧ digits ≠ [] ∧ (∀ c ∈ digits, c.isDigit = true) ∧
      Decimal.value ⟨Nat.ofDigitChars 10 digits 0, 0⟩ = d.value) ∨
    ∃ whole fraction, canonicalNumeral d = whole ++ '.' :: fraction ∧ whole ≠ [] ∧ fraction ≠ [] ∧
      (∀ c ∈ whole, c.isDigit = true) ∧ (∀ c ∈ fraction, c.isDigit = true) ∧
        Decimal.value ⟨Nat.ofDigitChars 10 (whole ++ fraction) 0, -(fraction.length : ℤ)⟩ =
          d.value := by
  obtain ⟨m, f, hm, hvalue, hcase⟩ := exists_reduced ((Decimal.value_pos_iff d).mp hpos) d.exponent
  rw [← canonicalNumeral_congr (hvalue ▸ hpos) hvalue, ← hvalue]
  by_cases hf : 0 ≤ f
  · refine .inl ⟨_, canonicalNumeral_of_nonneg hf, by simp, ?_, ?_⟩
    · intro c hc
      exact isDigit_of_mem_format hf (format_of_nonneg hf ▸ hc)
    · rw [Nat.ofDigitChars_append, Nat.ofDigitChars_ten_toDigits,
        Nat.ofDigitChars_replicate_zero, mul_comm, Decimal.value_shift]
      congr 2
      omega
  · have hten : ¬ 10 ∣ m := hcase.resolve_left hf
    have hf := not_le.mp hf
    obtain ⟨digits, last, hdigits, hlast⟩ := getLast?_toDigits hten
    obtain ⟨places, hplaces⟩ : ∃ places : ℕ, (-f).toNat = places + 1 :=
      ⟨(-f).toNat - 1, by omega⟩
    have hlastDigit : last.isDigit = true :=
      Nat.isDigit_of_mem_toDigits (b := 10) (n := m) (by decide) (by decide) (by simp [hdigits])
    have hlastPoint : last ≠ '.' := by
      rintro rfl
      exact absurd hlastDigit (by decide)
    have htext : canonicalNumeral ⟨m, f⟩ = placePoint places digits ++ [last] := by
      rw [canonicalNumeral_of_neg hf, hplaces, hdigits, placePoint_append,
        stripFraction_append hlast hlastPoint]
    set padded := padZeros (places + 1) digits with hpadded
    have hlength : places + 1 ≤ padded.length := length_padZeros _ _
    have hdigitsPadded : ∀ c ∈ padded, c.isDigit = true := by
      intro c hc
      rcases List.mem_append.mp hc with hc | hc
      · rw [List.eq_of_mem_replicate hc]
        decide
      · exact Nat.isDigit_of_mem_toDigits (b := 10) (n := m) (by decide) (by decide)
          (by simp [hdigits, hc])
    refine .inr ⟨padded.take (padded.length - places), padded.drop (padded.length - places) ++
      [last], ?_, ?_, by simp, ?_, ?_, ?_⟩
    · rw [htext, placePoint]
      simp [hpadded]
    · intro hnil
      have := congrArg List.length hnil
      rw [List.length_take, List.length_nil] at this
      omega
    · exact fun c hc ↦ hdigitsPadded c (List.mem_of_mem_take hc)
    · intro c hc
      rcases List.mem_append.mp hc with hc | hc
      · exact hdigitsPadded c (List.mem_of_mem_drop hc)
      · rw [List.mem_singleton.mp hc]
        exact hlastDigit
    · have hvalueDigits : Nat.ofDigitChars 10 (padded ++ [last]) 0 = m := by
        rw [hpadded, padZeros, List.append_assoc, ← hdigits, Nat.ofDigitChars_append,
          Nat.ofDigitChars_replicate_zero, Nat.mul_zero]
        exact Nat.ofDigitChars_ten_toDigits
      rw [← List.append_assoc, List.take_append_drop, hvalueDigits, List.length_append,
        List.length_drop, List.length_singleton]
      congr 2
      omega

/-- A text goes on with neither a digit nor a point, so a numeral before it ends there. -/
def EndsNumeral (text : List Char) : Prop := EndsDigits text ∧ '.' ∉ text.head?

/-- Reading a canonical numeral gives the number it was written for. -/
theorem scanNumeral_canonicalNumeral {d : Decimal} (hpos : 0 < d.value) {rest : List Char}
    (hrest : EndsNumeral rest) :
    ∃ read, scanNumeral (canonicalNumeral d ++ rest) = some (read, rest) ∧
      read.value = d.value := by
  obtain ⟨digits, htext, hne, hdigits, hvalue⟩ |
      ⟨whole, fraction, htext, hwhole, hfraction, hwholeDigits, hfractionDigits, hvalue⟩ :=
    canonicalNumeral_cases hpos
  · refine ⟨_, ?_, hvalue⟩
    rw [htext]
    exact scanNumeral_whole hne hdigits hrest.1 hrest.2
  · refine ⟨_, ?_, hvalue⟩
    rw [htext, List.append_assoc, List.cons_append]
    exact scanNumeral_point hwhole hfraction hwholeDigits hfractionDigits hrest.1

theorem mem_canonicalNumeral {d : Decimal} (hpos : 0 < d.value) {c : Char}
    (h : c ∈ canonicalNumeral d) : c.isDigit = true ∨ c = '.' := by
  obtain ⟨digits, htext, -, hdigits, -⟩ |
      ⟨whole, fraction, htext, -, -, hwholeDigits, hfractionDigits, -⟩ :=
    canonicalNumeral_cases hpos
  · exact .inl (hdigits c (htext ▸ h))
  · rw [htext, List.mem_append, List.mem_cons] at h
    rcases h with h | h | h
    · exact .inl (hwholeDigits c h)
    · exact .inr h
    · exact .inl (hfractionDigits c h)

theorem head_canonicalNumeral {d : Decimal} (hpos : 0 < d.value) :
    ∃ c rest, canonicalNumeral d = c :: rest ∧ c.isDigit = true := by
  obtain ⟨digits, htext, hne, hdigits, -⟩ | ⟨whole, fraction, htext, hne, -, hdigits, -, -⟩ :=
    canonicalNumeral_cases hpos
  · obtain ⟨c, rest, rfl⟩ := List.exists_cons_of_ne_nil hne
    exact ⟨c, rest, htext, hdigits c List.mem_cons_self⟩
  · obtain ⟨c, rest, rfl⟩ := List.exists_cons_of_ne_nil hne
    exact ⟨c, _, htext, hdigits c List.mem_cons_self⟩

/-! ### Canonical entries -/

/-- The entry for a number in the unit of a dimension. -/
def entry (dimension : Dimension) (d : Decimal) : String :=
  String.ofList (canonicalNumeral d) ++ dimension.target

/-- What the unit of the canonical entry is made of, for the entry to be read back. -/
structure Dimension.IsReadable (dimension : Dimension) : Prop where
  ends : EndsNumeral dimension.target.toList
  nonempty : dimension.target.toList ≠ []
  noSpace : ∀ c ∈ dimension.target.toList, isSpace c = false
  positive : ∀ unit ∈ dimension.factors, 0 < unit.2
  target : dimension.factors.lookup (lower dimension.target) = some 1

theorem noSpace_of_all {text : List Char} (h : text.all (fun c ↦ !isSpace c) = true) :
    ∀ c ∈ text, isSpace c = false := by
  simpa using h

theorem isReadable_width : width.IsReadable := by
  refine ⟨⟨?_, ?_⟩, ?_, noSpace_of_all ?_, ?_, ?_⟩ <;> decide

theorem isReadable_thickness : thickness.IsReadable := by
  refine ⟨⟨?_, ?_⟩, ?_, noSpace_of_all ?_, ?_, ?_⟩ <;> decide

theorem isSpace_of_isDigit {c : Char} (h : c.isDigit = true) : isSpace c = false := by
  have hrange : 48 ≤ c.toNat ∧ c.toNat ≤ 57 := Char.isDigit_iff_toNat.mp h
  have hcodes : ∀ code ∈ spaceCodes, code < 48 ∨ 57 < code := by decide
  rw [isSpace, ← Bool.not_eq_true, List.contains_iff_mem]
  intro hmem
  have := hcodes _ hmem
  omega

section Readable

variable {dimension : Dimension} (hreadable : dimension.IsReadable) {d : Decimal}
  (hpos : 0 < d.value)

include hreadable hpos

/-- A canonical entry is made of a numeral and the unit. -/
theorem splitMeasure_entry :
    ∃ read, splitMeasure (entry dimension d) = some (read, dimension.target) ∧
      read.value = d.value := by
  obtain ⟨read, hread, hvalue⟩ := scanNumeral_canonicalNumeral hpos hreadable.ends
  refine ⟨read, ?_, hvalue⟩
  have hspace : dimension.target.toList.dropWhile isSpace = dimension.target.toList := by
    cases htarget : dimension.target.toList with
    | nil => rfl
    | cons c rest =>
      have hc := hreadable.noSpace c (htarget ▸ List.mem_cons_self)
      simp [hc]
  have hunit : dimension.target.toList ≠ [] ∧ dimension.target.toList.any isSpace = false :=
    ⟨hreadable.nonempty, List.any_eq_false.mpr fun c hc ↦ by simp [hreadable.noSpace c hc]⟩
  unfold splitMeasure entry
  rw [String.toList_append, String.toList_ofList, hread]
  dsimp only
  rw [hspace, if_pos hunit, String.ofList_toList]

/-- A canonical entry has no white space at its ends. -/
theorem strip_entry : strip (entry dimension d) = entry dimension d := by
  obtain ⟨c, rest, htext, hc⟩ := head_canonicalNumeral hpos
  obtain ⟨unit, last, hunit⟩ := List.eq_nil_or_concat _ |>.resolve_left hreadable.nonempty
  have hlast : isSpace last = false := hreadable.noSpace last (by simp [hunit])
  have hentry : entry dimension d =
      String.ofList (canonicalNumeral d ++ dimension.target.toList) := by
    rw [entry, String.ofList_append, String.ofList_toList]
  have hfirst : canonicalNumeral d ++ dimension.target.toList =
      c :: (rest ++ dimension.target.toList) := by
    rw [htext, List.cons_append]
  have hend : canonicalNumeral d ++ dimension.target.toList =
      canonicalNumeral d ++ unit ++ [last] := by
    rw [hunit, List.concat_eq_append, List.append_assoc]
  rw [hentry]
  exact stripBy_ofList hfirst hend (isSpace_of_isDigit hc) hlast

end Readable

/-- What a value has to be for the form to accept it, and the entry that replaces it. -/
theorem canonicalValue_eq_ok_iff {dimension : Dimension} {value canonical : String} :
    canonicalValue dimension value = .ok canonical ↔
      ∃ number unit factor, splitMeasure value = some (number, unit) ∧
        dimension.factors.lookup (lower unit) = some factor ∧
          (floatIsFinite number.value ∧ floatIsPositive number.value) ∧
            canonical = entry dimension (number.mulNat factor) := by
  unfold canonicalValue entry
  constructor
  · intro h
    split at h
    · cases h
    · next number unit hsplit =>
      split at h
      · cases h
      · next factor hfactor =>
        split_ifs at h with hnumber
        exact ⟨number, unit, factor, hsplit, hfactor, hnumber, (Except.ok.inj h).symm⟩
  · rintro ⟨number, unit, factor, hsplit, hfactor, hnumber, rfl⟩
    rw [hsplit]
    dsimp only
    rw [hfactor]
    dsimp only
    rw [if_pos hnumber]

theorem mulNat_pos {number : Decimal} {factor : ℕ} (hnumber : floatIsPositive number.value)
    (hfactor : 0 < factor) : 0 < (number.mulNat factor).value := by
  have hpos : 0 < number.value := by
    unfold floatIsPositive at hnumber
    exact lt_trans (by positivity) (of_decide_eq_true hnumber)
  rw [Decimal.value_pos_iff] at hpos ⊢
  exact Decimal.coefficient_round_pos (Nat.mul_pos hpos hfactor)

/-- A canonical entry that is accepted again is kept. -/
theorem canonicalValue_entry {dimension : Dimension} (hreadable : dimension.IsReadable)
    {number : Decimal} {factor : ℕ} (hpos : 0 < (number.mulNat factor).value) {canonical : String}
    (h : canonicalValue dimension (entry dimension (number.mulNat factor)) = .ok canonical) :
    canonical = entry dimension (number.mulNat factor) := by
  obtain ⟨read, unit, factor', hsplit, hfactor, -, rfl⟩ := canonicalValue_eq_ok_iff.mp h
  obtain ⟨read', hsplit', hvalue⟩ := splitMeasure_entry hreadable hpos
  rw [hsplit', Option.some.injEq, Prod.mk.injEq] at hsplit
  rw [← hsplit.2, hreadable.target, Option.some.injEq] at hfactor
  rw [← hsplit.1, ← hfactor]
  have hround : (read'.mulNat 1).value = (number.mulNat factor).value := by
    rw [Decimal.mulNat, Nat.mul_one, ← hvalue]
    exact Decimal.value_round (Decimal.coefficient_round_lt _) hvalue
  unfold entry
  rw [canonicalNumeral_congr (hround ▸ hpos) hround]

/-- The measure of a given value in the unit of the canonical entry. -/
def measure (dimension : Dimension) (value : String) : Option Decimal :=
  match splitMeasure value with
  | none => none
  | some (number, unit) => (dimension.factors.lookup (lower unit)).map number.mulNat

/-- An accepted value is measured by a positive number, and replaced by the entry for it. -/
theorem measure_of_canonicalValue {dimension : Dimension} (hreadable : dimension.IsReadable)
    {value canonical : String} (h : canonicalValue dimension value = .ok canonical) :
    ∃ d, measure dimension value = some d ∧ 0 < d.value ∧ canonical = entry dimension d ∧
      ∀ again, canonicalValue dimension canonical = .ok again → again = canonical := by
  obtain ⟨number, unit, factor, hsplit, hfactor, hnumber, rfl⟩ := canonicalValue_eq_ok_iff.mp h
  obtain ⟨before, after, hfactors, -⟩ := List.lookup_eq_some_iff.mp hfactor
  have hpos := mulNat_pos hnumber.2 (hreadable.positive (lower unit, factor) (by simp [hfactors]))
  refine ⟨_, ?_, hpos, rfl, fun again hagain ↦ canonicalValue_entry hreadable hpos hagain⟩
  unfold measure
  rw [hsplit]
  dsimp only
  rw [hfactor]
  rfl

theorem readDimension_eq_ok_iff {dimension : Dimension} {specs : Dict String}
    {value canonical : String} :
    readDimension dimension specs = .ok (value, canonical) ↔
      givenValues dimension specs = [value] ∧ canonicalValue dimension value = .ok canonical := by
  unfold readDimension
  constructor
  · intro h
    split at h
    · next given hgiven =>
      cases hcanonical : canonicalValue dimension given with
      | error failure =>
        rw [hcanonical] at h
        cases h
      | ok entry =>
        rw [hcanonical] at h
        obtain ⟨rfl, rfl⟩ := Prod.mk.inj (Except.ok.inj h)
        exact ⟨hgiven, hcanonical⟩
    · cases h
  · rintro ⟨hgiven, hcanonical⟩
    rw [hgiven]
    dsimp only
    rw [hcanonical]
    rfl

theorem mem_putDimension {dimension : Dimension} (hlabel : dimension.label ∈ dimension.aliases)
    {canonical : String} {specs : Dict String} {entry : String × String} :
    entry ∈ (putDimension dimension canonical specs).rows ↔
      entry = (dimension.label, canonical) ∨ entry ∈ specs.rows ∧ entry.1 ∉ dimension.aliases := by
  unfold putDimension Dict.without
  rw [Dict.mem_set, Table.rows_filter, List.mem_filter, decide_eq_true_eq]
  refine or_congr_right ⟨fun h ↦ h.1, fun h ↦ ⟨h, fun heq ↦ h.2 (heq ▸ hlabel)⟩⟩

/-- An accepted specification has the canonical entries, and those that belong to no dimension,
whatever is under the key of the original texts. -/
def HoldsEntries (specs result : Dict String) (canonicalWidth canonicalThickness : String) : Prop :=
  ∀ entry, entry.1 ≠ originalKey → (entry ∈ result.rows ↔
    entry = ("宽幅", canonicalWidth) ∨ entry = ("厚度", canonicalThickness) ∨
      entry ∈ specs.rows ∧ entry.1 ∉ width.aliases ∧ entry.1 ∉ thickness.aliases)

/-- An accepted specification: the one value given for each dimension, and the entries that replace
them. -/
theorem validateSpecification_eq_ok {specs result : Dict String}
    (h : validateSpecification specs = .ok result) :
    ∃ givenWidth canonicalWidth givenThickness canonicalThickness,
      (givenValues width specs = [givenWidth] ∧
        canonicalValue width givenWidth = .ok canonicalWidth) ∧
      (givenValues thickness specs = [givenThickness] ∧
        canonicalValue thickness givenThickness = .ok canonicalThickness) ∧
      HoldsEntries specs result canonicalWidth canonicalThickness := by
  unfold validateSpecification at h
  obtain ⟨⟨givenWidth, canonicalWidth⟩, hwidth, h⟩ := Transaction.except_bind_eq_ok.mp h
  obtain ⟨⟨givenThickness, canonicalThickness⟩, hthickness, h⟩ :=
    Transaction.except_bind_eq_ok.mp h
  refine ⟨givenWidth, canonicalWidth, givenThickness, canonicalThickness,
    readDimension_eq_ok_iff.mp hwidth, readDimension_eq_ok_iff.mp hthickness, fun entry hentry ↦ ?_⟩
  have hput : entry ∈ (putDimension thickness canonicalThickness
      (putDimension width canonicalWidth specs)).rows ↔
        entry = ("宽幅", canonicalWidth) ∨ entry = ("厚度", canonicalThickness) ∨
          entry ∈ specs.rows ∧ entry.1 ∉ width.aliases ∧ entry.1 ∉ thickness.aliases := by
    have hlabel : "宽幅" ∉ thickness.aliases := by decide
    rw [mem_putDimension (by decide), mem_putDimension (by decide)]
    constructor
    · rintro (rfl | ⟨rfl | ⟨hmem, hwidth⟩, hthickness⟩)
      · exact Or.inr (Or.inl rfl)
      · exact Or.inl rfl
      · exact Or.inr (Or.inr ⟨hmem, hwidth, hthickness⟩)
    · rintro (rfl | rfl | ⟨hmem, hwidth, hthickness⟩)
      · exact Or.inr ⟨Or.inl rfl, hlabel⟩
      · exact Or.inl rfl
      · exact Or.inr ⟨Or.inr ⟨hmem, hwidth⟩, hthickness⟩
  dsimp only at h
  split_ifs at h
  · rw [← Except.ok.inj h, hput]
  · rw [← Except.ok.inj h, Dict.mem_set, hput]
    constructor
    · rintro (rfl | ⟨hmem, -⟩)
      · exact absurd rfl hentry
      · exact hmem
    · exact fun hmem ↦ Or.inr ⟨hmem, hentry⟩

/-- A specification with one valid value for each dimension is accepted. -/
theorem exists_validated {specs : Dict String} {forWidth forThickness : String × String}
    (hwidth : readDimension width specs = .ok forWidth)
    (hthickness : readDimension thickness specs = .ok forThickness) :
    ∃ result, validateSpecification specs = .ok result := by
  unfold validateSpecification
  simp only [Transaction.except_bind_eq_ok, Prod.exists]
  by_cases horiginals : originalNote width forWidth.1 forWidth.2 ++
      originalNote thickness forThickness.1 forThickness.2 = []
  · exact ⟨_, _, _, hwidth, _, _, hthickness, if_pos horiginals⟩
  · exact ⟨_, _, _, hwidth, _, _, hthickness, if_neg horiginals⟩

/-- An accepted specification holds the canonical entries. -/
theorem get?_validated {specs result : Dict String} {canonicalWidth canonicalThickness : String}
    (h : HoldsEntries specs result canonicalWidth canonicalThickness) :
    result.get? "宽幅" = some canonicalWidth ∧ result.get? "厚度" = some canonicalThickness := by
  have hwidth : result.find? "宽幅" = some ("宽幅", canonicalWidth) :=
    result.find?_of_mem ((h _ (by decide : "宽幅" ≠ originalKey)).mpr (Or.inl rfl)) rfl
  have hthickness : result.find? "厚度" = some ("厚度", canonicalThickness) :=
    result.find?_of_mem ((h _ (by decide : "厚度" ≠ originalKey)).mpr (Or.inr (Or.inl rfl))) rfl
  exact ⟨congrArg (Option.map Prod.snd) hwidth, congrArg (Option.map Prod.snd) hthickness⟩

/-! ### Stored specifications -/

/-- The place of a key in a JSONB object: shorter keys first, in bytes, then byte by byte. -/
def jsonbPlace (key : String) : ℕ ×ₗ String := toLex (key.utf8ByteSize, key)

theorem jsonbPlace_injective : Function.Injective jsonbPlace := fun _ _ h ↦
  (Prod.mk.inj (toLex.injective h)).2

theorem nodup_jsonbPlace (specs : Dict String) :
    (specs.rows.map (fun entry ↦ jsonbPlace entry.1)).Nodup := by
  have hkeys : (specs.rows.map Prod.fst).Nodup := specs.nodup
  have hplaces := hkeys.map jsonbPlace_injective
  rwa [List.map_map] at hplaces

/-- A dictionary as it is read back from a JSONB column. -/
def jsonb (specs : Dict String) : Dict String where
  rows := orderBy (fun entry ↦ jsonbPlace entry.1) specs.rows
  nodup := ((orderBy_perm _ specs.rows).map _).nodup_iff.mpr specs.nodup

theorem mem_jsonb {specs : Dict String} {entry : String × String} :
    entry ∈ (jsonb specs).rows ↔ entry ∈ specs.rows := mem_orderBy _ _ _

/-- The values are kept. -/
theorem get?_jsonb (specs : Dict String) (key : String) :
    (jsonb specs).get? key = specs.get? key := by
  unfold Dict.get?
  congr 1
  refine Option.ext fun entry ↦ ?_
  rw [(jsonb specs).find?_eq_some_iff, specs.find?_eq_some_iff, mem_jsonb]

end Specification

/-! ### What the planner reads -/

namespace Production

open Specification

/-- A key is not one of the alias keys of a dimension, but becomes one when white space and case are
disregarded. -/
def IsStray (keys : List String) (key : String) : Prop :=
  key ∉ keys ∧ normalizedKey key ∈ keys.map normalizedKey

instance (keys : List String) (key : String) : Decidable (IsStray keys key) :=
  inferInstanceAs (Decidable (_ ∧ _))

/-- The value of the first entry under a stray key that JSONB has before a label. -/
def strayValue (keys : List String) (label : String) (specs : Dict String) : Option String :=
  ((jsonb specs).rows.find? (fun entry ↦
    IsStray keys entry.1 ∧ jsonbPlace entry.1 < jsonbPlace label)).map (fun entry ↦ strip entry.2)

/-- `positive_number`, as the double it returns. -/
def positiveDouble (value : String) : Option Double :=
  match searchNumber (removeChar ',' value).toList with
  | none => none
  | some (negative, number) =>
    let parsed := Double.ofRat number.value
    if negative ∨ parsed = .finite 0 then none else some parsed

/-- The width in millimetres that is read off a text. -/
def readWidth (raw : String) : Option Double :=
  if endsWith (lower raw) "cm" then (positiveDouble raw).map (·.mulNat 10) else positiveDouble raw

/-- The width of `order_profile`, as the double it is. -/
def profileWidth (order : Order) : Option Double := readWidth (specValue order.specParams widthKeys)

/-- The thickness that is read off a text: in micrometres where the unit is recognised. -/
def readThickness (raw : String) : String :=
  match canonicalValue thickness raw with
  | .ok canonical => canonical
  | .error _ => raw

/-- The planner reads the canonical entries of a specification: the width of the order is the number
of millimetres of the one, and its thickness is the other. -/
structure ReadsDimensions (order : Order) : Prop where
  width : ∃ entry number, order.specParams.get? "宽幅" = some entry ∧
    splitMeasure entry = some (number, "mm") ∧ profileWidth order = some (.finite number.value)
  thickness : ∃ entry, order.specParams.get? "厚度" = some entry ∧
    (productionSignature order).thickness = some entry

/-- The stray entries of a specification do not matter: the first one before the canonical width, if
any, reads as exactly the width that was given, and the first one before the canonical thickness as
the thickness that was given. Without a stray one the width is a double. -/
structure StraysAgree (specs : Dict String) : Prop where
  width : ∀ stray, strayValue widthKeys "宽幅" specs = some stray →
    ∀ given ∈ givenValues Specification.width specs, ∀ number ∈ measure Specification.width given,
      readWidth stray = some (.finite number.value)
  exact : strayValue widthKeys "宽幅" specs = none →
    ∀ given ∈ givenValues Specification.width specs, ∀ number ∈ measure Specification.width given,
      Double.ofRat number.value = .finite number.value
  thickness : ∀ stray, strayValue thicknessKeys "厚度" specs = some stray →
    ∀ given ∈ givenValues Specification.thickness specs, readThickness stray = readThickness given

/-- A numeral that is a double is read as it is. -/
theorem positiveDouble_eq {raw : String}
    (h : ∀ x, positiveNumber raw = some x → Double.ofRat x = .finite x) :
    positiveDouble raw = (positiveNumber raw).map Double.finite := by
  unfold positiveDouble
  unfold positiveNumber at h ⊢
  cases hsearch : searchNumber (removeChar ',' raw).toList with
  | none => rfl
  | some found =>
    obtain ⟨negative, number⟩ := found
    simp only [hsearch] at h
    have hnonneg : 0 ≤ number.value := by
      rw [Decimal.value_eq]
      positivity
    cases negative with
    | true => simp [hnonneg]
    | false =>
      rcases hnonneg.eq_or_lt with hzero | hpos
      · have hdouble := Double.ofRat_natCast (show 0 < 2 ^ 53 by decide)
        rw [Nat.cast_zero] at hdouble
        simp [← hzero, hdouble]
      · have hdouble := h number.value (by simp [hpos])
        simp [hdouble, hpos, hpos.ne']

/-- Where the numeral that is read and ten times it are doubles, the width is that of the profile.
-/
theorem profileWidth_eq {order : Order}
    (h : ∀ x, positiveNumber (specValue order.specParams widthKeys) = some x →
      Double.ofRat x = .finite x ∧ Double.ofRat (x * 10) = .finite (x * 10)) :
    profileWidth order = (orderProfile order).width.map Double.finite := by
  unfold profileWidth readWidth orderProfile
  dsimp only
  rw [positiveDouble_eq fun x hx ↦ (h x hx).1]
  split_ifs
  · rw [Option.map_map, Option.map_map]
    refine Option.map_congr fun x hx ↦ ?_
    change Double.ofRat (x * (10 : ℕ)) = _
    rw [Nat.cast_ofNat]
    exact (h x hx).2
  · rfl

theorem specValue_eq (specParams : Dict String) (keys : List String) :
    specValue specParams keys =
      ((specParams.rows.find? (fun entry ↦ normalizedKey entry.1 ∈ keys.map normalizedKey)).map
        (fun entry ↦ strip entry.2)).getD "" := by
  unfold specValue
  dsimp only
  split
  · next entry hfind =>
    rw [hfind]
    rfl
  · next hfind =>
    rw [hfind]
    rfl

theorem isAlias_width (key : String) (h : normalizedKey key ∈ widthKeys.map normalizedKey) :
    key ∉ Specification.width.aliases ∧ key ∉ Specification.thickness.aliases ↔
      key ∉ widthKeys := by
  have hforeign : ∀ key ∈ Specification.thickness.aliases,
      normalizedKey key ∉ widthKeys.map normalizedKey := by decide +kernel
  have hsame : key ∈ Specification.width.aliases ↔ key ∈ widthKeys :=
    List.Perm.mem_iff (by decide)
  rw [hsame]
  exact and_iff_left fun hmem ↦ hforeign key hmem h

theorem isAlias_thickness (key : String)
    (h : normalizedKey key ∈ thicknessKeys.map normalizedKey) :
    key ∉ Specification.width.aliases ∧ key ∉ Specification.thickness.aliases ↔
      key ∉ thicknessKeys := by
  have hforeign : ∀ key ∈ Specification.width.aliases,
      normalizedKey key ∉ thicknessKeys.map normalizedKey := by decide +kernel
  have hsame : key ∈ Specification.thickness.aliases ↔ key ∈ thicknessKeys :=
    List.Perm.mem_iff (by decide)
  rw [hsame]
  exact and_iff_right fun hmem ↦ hforeign key hmem h

/-- A number after a sign or a text is found where it starts. -/
theorem searchNumber_of_scanNumeral {c : Char} {text rest : List Char} {number : Decimal}
    (hc : c.isDigit = true) (h : scanNumeral (c :: text) = some (number, rest)) :
    searchNumber (c :: text) = some (false, number) := by
  have hsign : ¬ (c = '-' ∨ c = '+') := by
    rintro (rfl | rfl)
    · exact absurd hc (by decide)
    · exact absurd hc (by decide)
  unfold searchNumber
  rw [if_neg hsign, h]

theorem toList_entry_width (d : Decimal) :
    (entry Specification.width d).toList = canonicalNumeral d ++ ['m', 'm'] := by
  rw [entry, String.toList_append, String.toList_ofList]
  rfl

/-- There is no comma in a canonical width entry. -/
theorem removeChar_entry_width {d : Decimal} (hpos : 0 < d.value) :
    removeChar ',' (entry Specification.width d) = entry Specification.width d := by
  have hkeep : (canonicalNumeral d ++ ['m', 'm']).filter (· ≠ ',') =
      canonicalNumeral d ++ ['m', 'm'] := by
    refine List.filter_eq_self.mpr fun c hc ↦ decide_eq_true ?_
    rintro rfl
    rcases List.mem_append.mp hc with hc | hc
    · rcases mem_canonicalNumeral hpos hc with h | h
      · exact absurd h (by decide)
      · exact absurd h (by decide)
    · exact absurd hc (by decide)
  rw [removeChar, toList_entry_width, hkeep, ← toList_entry_width, String.ofList_toList]

/-- A canonical width entry is not in centimetres. -/
theorem endsWith_lower_entry_width (d : Decimal) :
    endsWith (lower (entry Specification.width d)) "cm" = false := by
  have hlower : ['m', 'm'].flatMap lowerChar = ['m', 'm'] := by decide
  rw [endsWith, lower, String.toList_ofList, toList_entry_width, List.flatMap_append, hlower,
    ← Bool.not_eq_true, List.isSuffixOf_iff_suffix]
  rintro ⟨before, hbefore⟩
  rw [String.toList_ofList] at hbefore
  have hend : ['c', 'm'] = ['m', 'm'] := (List.append_inj' hbefore rfl).2
  exact absurd hend (by decide)

/-- What a canonical width entry reads as: the double nearest to its number, unless this is zero. -/
theorem readWidth_entry {d : Decimal} (hpos : 0 < d.value) :
    readWidth (entry Specification.width d) =
      if Double.ofRat d.value = .finite 0 then none else some (Double.ofRat d.value) := by
  obtain ⟨read, hread, hvalue⟩ := scanNumeral_canonicalNumeral hpos isReadable_width.ends
  obtain ⟨c, rest, hhead, hc⟩ := head_canonicalNumeral hpos
  have hsearch : searchNumber (canonicalNumeral d ++ ['m', 'm']) = some (false, read) := by
    rw [hhead] at hread ⊢
    exact searchNumber_of_scanNumeral hc hread
  unfold readWidth positiveDouble
  rw [endsWith_lower_entry_width, if_neg Bool.false_ne_true, removeChar_entry_width hpos,
    toList_entry_width, hsearch]
  dsimp only
  rw [hvalue]
  simp only [Bool.false_eq_true, false_or]

/-- A canonical width entry reads as the number of millimetres it was written for exactly when this
is a double. -/
theorem readWidth_entry_iff {d : Decimal} (hpos : 0 < d.value) :
    readWidth (entry Specification.width d) = some (.finite d.value) ↔
      Double.ofRat d.value = .finite d.value := by
  rw [readWidth_entry hpos]
  constructor
  · intro h
    split_ifs at h
    exact Option.some.inj h
  · intro h
    rw [h, if_neg fun hzero ↦ hpos.ne' (Double.finite.inj hzero)]

/-- A canonical thickness entry reads as itself. -/
theorem readThickness_entry {canonical : String}
    (h : ∀ again, canonicalValue Specification.thickness canonical = .ok again →
      again = canonical) : readThickness canonical = canonical := by
  unfold readThickness
  split
  · next again hagain => exact h again hagain
  · rfl

theorem get?_form (raw key : String) :
    (Dict.ofList [("宽幅", "1mm"), ("厚度", raw)]).get? key =
      if "厚度" = key then some raw else if "宽幅" = key then some "1mm" else none := by
  change ((Dict.set Table.empty "宽幅" "1mm").set "厚度" raw).get? key = _
  rw [Dict.get?_set, Dict.get?_set]
  rfl

/-- Validation of a made-up specification brings its thickness into canonical form, or refuses
it. -/
theorem validateSpecification_form (raw : String) (hraw : strip raw = raw) :
    (match validateSpecification (Dict.ofList [("宽幅", "1mm"), ("厚度", raw)]) with
      | .ok result => (result.get? "厚度").getD ""
      | .error _ => raw) = readThickness raw := by
  have hwidth : readDimension Specification.width (Dict.ofList [("宽幅", "1mm"), ("厚度", raw)]) =
      .ok ("1mm", "1mm") := by
    refine readDimension_eq_ok_iff.mpr ⟨?_, by decide +kernel⟩
    have hstrip : strip "1mm" = "1mm" := by decide
    simp [givenValues, get?_form, Specification.width, hstrip]
  have hgiven : givenValues Specification.thickness
      (Dict.ofList [("宽幅", "1mm"), ("厚度", raw)]) = [raw] := by
    simp [givenValues, get?_form, Specification.thickness, hraw]
  unfold readThickness
  cases hcanonical : canonicalValue Specification.thickness raw with
  | error failure =>
    cases hresult : validateSpecification (Dict.ofList [("宽幅", "1mm"), ("厚度", raw)]) with
    | error failure => rfl
    | ok result =>
      obtain ⟨_, _, given, canonical, -, ⟨hgiven', hcanonical'⟩, -⟩ :=
        validateSpecification_eq_ok hresult
      rw [hgiven, List.cons.injEq] at hgiven'
      rw [← hgiven'.1, hcanonical] at hcanonical'
      cases hcanonical'
  | ok canonical =>
    have hthickness := readDimension_eq_ok_iff.mpr ⟨hgiven, hcanonical⟩
    cases hresult : validateSpecification (Dict.ofList [("宽幅", "1mm"), ("厚度", raw)]) with
    | error failure =>
      obtain ⟨result, hok⟩ := exists_validated hwidth hthickness
      rw [hok] at hresult
      cases hresult
    | ok result =>
      obtain ⟨_, _, given, canonical', -, ⟨hgiven', hcanonical'⟩, hfind⟩ :=
        validateSpecification_eq_ok hresult
      rw [hgiven, List.cons.injEq] at hgiven'
      rw [← hgiven'.1, hcanonical] at hcanonical'
      dsimp only
      rw [(get?_validated hfind).2, Except.ok.inj hcanonical']
      rfl

theorem thickness_productionSignature (order : Order) :
    (productionSignature order).thickness = truthy (some (rawThickness order)) := rfl

/-- The thickness of an order is what is read off its first thickness entry. -/
theorem rawThickness_eq (order : Order) :
    rawThickness order = readThickness (specValue order.specParams thicknessKeys) := by
  have hstrip : strip (specValue order.specParams thicknessKeys) =
      specValue order.specParams thicknessKeys := by
    rw [specValue_eq]
    cases List.find? _ order.specParams.rows with
    | none => decide
    | some entry => exact strip_strip entry.2
  unfold rawThickness
  dsimp only
  split_ifs with hempty
  · rw [hempty]
    decide
  · exact validateSpecification_form _ hstrip

/-- What the planner reads of a stored specification for a dimension: the first stray entry before
the canonical one, else the canonical one. -/
theorem specValue_jsonb {keys : List String} {label canonical : String} {specs result : Dict String}
    (hlabel : label ∈ keys) (h : ∀ entry, normalizedKey entry.1 ∈ keys.map normalizedKey →
      (entry ∈ result.rows ↔
        entry = (label, canonical) ∨ entry ∈ specs.rows ∧ entry.1 ∉ keys)) :
    specValue (jsonb result) keys = (strayValue keys label specs).getD (strip canonical) := by
  have hlabelKey : normalizedKey label ∈ keys.map normalizedKey := List.mem_map_of_mem hlabel
  rw [specValue_eq]
  unfold strayValue
  cases hfind : (jsonb specs).rows.find? (fun entry ↦
      IsStray keys entry.1 ∧ jsonbPlace entry.1 < jsonbPlace label) with
  | some stray =>
    obtain ⟨hmem, hstray, hleast⟩ :=
      (find?_orderBy_eq_some_iff (nodup_jsonbPlace specs)).mp hfind
    obtain ⟨⟨hnot, hkey⟩, hbefore⟩ := of_decide_eq_true hstray
    have hread : (jsonb result).rows.find? (fun entry ↦
        normalizedKey entry.1 ∈ keys.map normalizedKey) = some stray := by
      refine (find?_orderBy_eq_some_iff (nodup_jsonbPlace result)).mpr
        ⟨(h stray hkey).mpr (Or.inr ⟨hmem, hnot⟩), decide_eq_true hkey, fun other hother hp ↦ ?_⟩
      have hotherKey := of_decide_eq_true hp
      rcases (h other hotherKey).mp hother with rfl | ⟨hother, hforeign⟩
      · exact hbefore.le
      · rcases lt_or_ge (jsonbPlace other.1) (jsonbPlace label) with hlt | hge
        · exact hleast other hother (decide_eq_true ⟨⟨hforeign, hotherKey⟩, hlt⟩)
        · exact hbefore.le.trans hge
    rw [hread]
    rfl
  | none =>
    have hnone := List.find?_eq_none.mp hfind
    have hread : (jsonb result).rows.find? (fun entry ↦
        normalizedKey entry.1 ∈ keys.map normalizedKey) = some (label, canonical) := by
      refine (find?_orderBy_eq_some_iff (nodup_jsonbPlace result)).mpr
        ⟨(h (label, canonical) hlabelKey).mpr (Or.inl rfl), decide_eq_true hlabelKey,
          fun other hother hp ↦ ?_⟩
      have hotherKey := of_decide_eq_true hp
      rcases (h other hotherKey).mp hother with rfl | ⟨hother, hforeign⟩
      · exact le_rfl
      · by_contra hlt
        exact hnone other (mem_jsonb.mpr hother)
          (decide_eq_true ⟨⟨hforeign, hotherKey⟩, not_le.mp hlt⟩)
    rw [hread]
    rfl

theorem specValue_widthKeys {specs result : Dict String}
    {canonicalWidth canonicalThickness : String}
    (h : HoldsEntries specs result canonicalWidth canonicalThickness) :
    specValue (jsonb result) widthKeys =
      (strayValue widthKeys "宽幅" specs).getD (strip canonicalWidth) := by
  have hothers : ∀ key ∈ [originalKey, "厚度"],
      normalizedKey key ∉ widthKeys.map normalizedKey := by decide +kernel
  refine specValue_jsonb (by decide) fun entry hkey ↦ ?_
  rw [h entry fun heq ↦ hothers originalKey (by decide) (heq ▸ hkey), isAlias_width entry.1 hkey]
  refine or_congr_right (or_iff_right ?_)
  rintro rfl
  exact hothers "厚度" (by decide) hkey

theorem specValue_thicknessKeys {specs result : Dict String}
    {canonicalWidth canonicalThickness : String}
    (h : HoldsEntries specs result canonicalWidth canonicalThickness) :
    specValue (jsonb result) thicknessKeys =
      (strayValue thicknessKeys "厚度" specs).getD (strip canonicalThickness) := by
  have hothers : ∀ key ∈ [originalKey, "宽幅"],
      normalizedKey key ∉ thicknessKeys.map normalizedKey := by decide +kernel
  refine specValue_jsonb (by decide) fun entry hkey ↦ ?_
  rw [h entry fun heq ↦ hothers originalKey (by decide) (heq ▸ hkey),
    isAlias_thickness entry.1 hkey]
  refine or_iff_right ?_
  rintro rfl
  exact hothers "宽幅" (by decide) hkey

section Stored

variable {specs result : Dict String} {order : Order} {d e : Decimal}

/-- The planner reads the canonical entries exactly when it gets the number of the one and the text
of the other. -/
theorem readsDimensions_iff_read (hpos : 0 < d.value) (hposThickness : 0 < e.value)
    (h : HoldsEntries specs result (entry Specification.width d) (entry Specification.thickness e))
    (hstored : order.specParams = jsonb result) :
    ReadsDimensions order ↔ profileWidth order = some (.finite d.value) ∧
      rawThickness order = entry Specification.thickness e := by
  obtain ⟨hgetWidth, hgetThickness⟩ := get?_validated h
  rw [← get?_jsonb, ← hstored] at hgetWidth hgetThickness
  obtain ⟨read, hsplit, hread⟩ := splitMeasure_entry isReadable_width hpos
  constructor
  · intro hreads
    obtain ⟨text, number, htext, hnumber, hvalue⟩ := hreads.width
    obtain ⟨text', htext', hvalue'⟩ := hreads.thickness
    rw [hgetWidth, Option.some.injEq] at htext
    rw [← htext, hsplit, Option.some.injEq, Prod.mk.injEq] at hnumber
    rw [hgetThickness, Option.some.injEq] at htext'
    rw [thickness_productionSignature, truthy_eq_some_iff, Option.some.injEq] at hvalue'
    exact ⟨by rw [hvalue, ← hnumber.1, hread], hvalue'.1.trans htext'.symm⟩
  · rintro ⟨hwidth, hthickness⟩
    refine ⟨⟨_, read, hgetWidth, hsplit, hwidth.trans (by rw [hread])⟩, _, hgetThickness, ?_⟩
    rw [thickness_productionSignature, truthy_eq_some_iff, hthickness]
    refine ⟨rfl, fun hempty ↦ ?_⟩
    obtain ⟨read, hsplit', -⟩ := splitMeasure_entry isReadable_thickness hposThickness
    rw [hempty] at hsplit'
    cases hsplit'

/-- The stray entries of a specification agree exactly when the first ones read as the number and
the text that its own entries give. -/
theorem straysAgree_iff {givenWidth givenThickness : String}
    (hgivenWidth : givenValues Specification.width specs = [givenWidth])
    (hmeasure : measure Specification.width givenWidth = some d)
    (hgivenThickness : givenValues Specification.thickness specs = [givenThickness]) :
    StraysAgree specs ↔
      ((∀ stray, strayValue widthKeys "宽幅" specs = some stray →
          readWidth stray = some (.finite d.value)) ∧
        (strayValue widthKeys "宽幅" specs = none → Double.ofRat d.value = .finite d.value)) ∧
      ∀ stray, strayValue thicknessKeys "厚度" specs = some stray →
        readThickness stray = readThickness givenThickness := by
  have hwidth : ∀ property : Decimal → Prop, (∀ given ∈ givenValues Specification.width specs,
      ∀ number ∈ measure Specification.width given, property number) ↔ property d := by
    intro property
    simp [hgivenWidth, hmeasure]
  have hthickness : ∀ property : String → Prop,
      (∀ given ∈ givenValues Specification.thickness specs, property given) ↔
        property givenThickness := by
    intro property
    simp [hgivenThickness]
  constructor
  · intro h
    exact ⟨⟨fun stray hstray ↦ (hwidth _).mp (h.width stray hstray),
      fun hnone ↦ (hwidth _).mp (h.exact hnone)⟩,
      fun stray hstray ↦ (hthickness _).mp (h.thickness stray hstray)⟩
  · rintro ⟨⟨hstray, hnone⟩, hstrayThickness⟩
    exact ⟨fun stray h ↦ (hwidth _).mpr (hstray stray h), fun h ↦ (hwidth _).mpr (hnone h),
      fun stray h ↦ (hthickness _).mpr (hstrayThickness stray h)⟩

/-- What is read of the width is the number of the canonical entry. -/
theorem readWidth_getD_iff (stray : Option String) (hpos : 0 < d.value) :
    readWidth (stray.getD (entry Specification.width d)) = some (.finite d.value) ↔
      (∀ text, stray = some text → readWidth text = some (.finite d.value)) ∧
        (stray = none → Double.ofRat d.value = .finite d.value) := by
  cases stray with
  | none => simp [readWidth_entry_iff hpos]
  | some text => simp

/-- What is read of the thickness is the canonical entry. -/
theorem readThickness_getD_iff (stray : Option String) {canonical : String}
    (h : readThickness canonical = canonical) :
    readThickness (stray.getD canonical) = canonical ↔
      ∀ text, stray = some text → readThickness text = canonical := by
  cases stray with
  | none => simp [h]
  | some text => simp

end Stored

/-- An order stored with a validated specification is planned with the dimensions that were
validated exactly when the stray entries of the specification read as the same ones. -/
theorem readsDimensions_iff (specs result : Dict String) (order : Order)
    (hvalid : validateSpecification specs = .ok result)
    (hstored : order.specParams = jsonb result) : ReadsDimensions order ↔ StraysAgree specs := by
  obtain ⟨givenWidth, canonicalWidth, givenThickness, canonicalThickness, ⟨hgivenWidth, hwidth⟩,
    ⟨hgivenThickness, hthickness⟩, hentries⟩ := validateSpecification_eq_ok hvalid
  obtain ⟨d, hmeasure, hpos, rfl, -⟩ := measure_of_canonicalValue isReadable_width hwidth
  obtain ⟨e, -, hposThickness, rfl, hagain⟩ :=
    measure_of_canonicalValue isReadable_thickness hthickness
  have hgivenRead : readThickness givenThickness = entry Specification.thickness e := by
    unfold readThickness
    rw [hthickness]
  have hprofile : profileWidth order = readWidth ((strayValue widthKeys "宽幅" specs).getD
      (entry Specification.width d)) := by
    unfold profileWidth
    rw [hstored, specValue_widthKeys hentries, strip_entry isReadable_width hpos]
  have hraw : rawThickness order = readThickness ((strayValue thicknessKeys "厚度" specs).getD
      (entry Specification.thickness e)) := by
    rw [rawThickness_eq, hstored, specValue_thicknessKeys hentries,
      strip_entry isReadable_thickness hposThickness]
  rw [readsDimensions_iff_read hpos hposThickness hentries hstored,
    straysAgree_iff hgivenWidth hmeasure hgivenThickness, hprofile, hraw,
    readWidth_getD_iff _ hpos, readThickness_getD_iff _ (readThickness_entry hagain), hgivenRead]

/-- An order with a given specification; nothing else of it matters here. -/
def orderWith (specParams : Dict String) : Order where
  id := "o"
  orderNo := "1"
  customerId := "c"
  product := ⟨"p", "膜", ⟨"k", "膜"⟩⟩
  specParams := specParams
  quantity := 1
  unit := "kg"
  formulaId := none
  formulaSnapshot := none
  extraNotes := none
  status := .pending
  taskId := none
  createdAt := 0
  updatedAt := 0

/-- A client may add a stray entry that agrees: it is read, and reads the same. -/
theorem readsDimensions_iff_sample :
    ReadsDimensions (orderWith (jsonb (Dict.ofList [("Width", "60cm"), ("宽幅", "600mm"),
      ("厚度", "50μm")]))) ↔
        StraysAgree (Dict.ofList [("Width", "60cm"), ("宽幅", "600mm"), ("厚度", "50μm")]) :=
  readsDimensions_iff (Dict.ofList [("Width", "60cm"), ("宽幅", "600mm"), ("厚度", "50μm")])
    (Dict.ofList [("Width", "60cm"), ("宽幅", "600mm"), ("厚度", "50μm")])
    (orderWith (jsonb (Dict.ofList [("Width", "60cm"), ("宽幅", "600mm"), ("厚度", "50μm")])))
    (by decide +kernel) rfl

/-- An order whose specification was accepted with a width of 605 mm and is planned as 5 mm wide,
since JSONB has the entry that the client added under `Width` before the canonical one. -/
theorem not_readsDimensions_stray :
    ∃ (specs result : Dict String), validateSpecification specs = .ok result ∧
      result.get? "宽幅" = some "605mm" ∧
      profileWidth (orderWith (jsonb result)) = some (.finite 5) ∧
      ¬ ReadsDimensions (orderWith (jsonb result)) := by
  have hentry : (Dict.ofList [("Width", "5mm"), ("宽幅", "605mm"), ("厚度", "118μm")]).get? "宽幅" =
      some "605mm" := by decide +kernel
  have hwidth : profileWidth (orderWith (jsonb (Dict.ofList
      [("Width", "5mm"), ("宽幅", "605mm"), ("厚度", "118μm")]))) = some (.finite 5) := by
    decide +kernel
  have hsplit : splitMeasure "605mm" = some (⟨605, 0⟩, "mm") := by decide +kernel
  have hvalue : (5 : ℚ) ≠ Decimal.value ⟨605, 0⟩ := by decide +kernel
  refine ⟨Dict.ofList [("宽幅", "605mm"), ("Width", "5mm"), ("厚度", "118μm")], _,
    by decide +kernel, hentry, hwidth, fun h ↦ ?_⟩
  obtain ⟨text, number, htext, hnumber, hread⟩ := h.width
  change (jsonb _).get? "宽幅" = _ at htext
  rw [get?_jsonb] at htext
  rw [show text = "605mm" from Option.some.inj (htext.symm.trans hentry), hsplit,
    Option.some.injEq, Prod.mk.injEq] at hnumber
  rw [hwidth, Option.some.injEq, ← hnumber.1] at hread
  exact hvalue (Double.finite.inj hread)

end Production

end FilmOS
