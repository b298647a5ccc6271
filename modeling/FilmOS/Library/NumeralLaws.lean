import FilmOS.Library.Numeral
import Mathlib.Algebra.Order.Field.Power
import Mathlib.Tactic.FieldSimp
import Mathlib.Tactic.LinearCombination

/-!
# Reading a rendered number

A numeral that is scanned is determined by the digits before and after the point
(`scanNumeral_whole`, `scanNumeral_point`), and the digits that a rendering writes denote the number
they were made from, whatever zeros surround them (`ofDigitChars_padZeros`). `stripFraction` removes
the zeros at the end of a fraction one by one (`stripFraction_append_zero`) and stops at another
digit (`stripFraction_point`).

Rounding to the precision of the context keeps a number that has so few significant digits
(`Decimal.value_round`), whatever coefficient it is written with.
-/

set_option autoImplicit false
set_option relaxedAutoImplicit false

namespace FilmOS.Numeral

open PythonText

/-! ### Scanning digits -/

/-- The characters that `str` renders a natural number with are digits with their usual value. -/
theorem digitValue?_of_isDigit {c : Char} (h : c.isDigit = true) :
    digitValue? c = some (c.toNat - '0'.toNat) := by
  have hrange : 48 ≤ c.toNat ∧ c.toNat ≤ 57 := Char.isDigit_iff_toNat.mp h
  have hfind : zeroDigits.find? (fun first ↦ first ≤ c.toNat ∧ c.toNat < first + 10) =
      some 0x30 := by
    unfold zeroDigits
    rw [List.find?_cons_of_pos]
    simp only [decide_eq_true_eq]
    omega
  unfold digitValue?
  rw [hfind]
  rfl

theorem digitValue?_point : digitValue? '.' = none := by decide

/-- A text does not go on with a digit. -/
def EndsDigits (text : List Char) : Prop := ∀ c ∈ text.head?, digitValue? c = none

instance (text : List Char) : Decidable (EndsDigits text) :=
  decidable_of_iff (text.head?.all (fun c ↦ (digitValue? c).isNone) = true) (by
    cases h : text.head? <;> simp [EndsDigits, h])

theorem spanDigits_of_endsDigits {text : List Char} (h : EndsDigits text) :
    spanDigits text = ([], text) := by
  cases text with
  | nil => rfl
  | cons c rest =>
    unfold spanDigits
    rw [h c rfl]

theorem spanDigits_append {digits rest : List Char} (hdigits : ∀ c ∈ digits, c.isDigit = true)
    (hrest : EndsDigits rest) :
    spanDigits (digits ++ rest) = (digits.map (fun c ↦ c.toNat - '0'.toNat), rest) := by
  induction digits with
  | nil => exact spanDigits_of_endsDigits hrest
  | cons c digits ih =>
    have hc := digitValue?_of_isDigit (hdigits c List.mem_cons_self)
    have ih := ih (fun d hd ↦ hdigits d (List.mem_cons_of_mem _ hd))
    rw [List.cons_append, spanDigits, hc]
    simp only [ih, List.map_cons]

theorem digitsValue_map (digits : List Char) :
    digitsValue (digits.map (fun c ↦ c.toNat - '0'.toNat)) = Nat.ofDigitChars 10 digits 0 := by
  unfold digitsValue
  rw [List.foldl_map, Nat.ofDigitChars_eq_foldl]

/-- Digits that are followed by neither a digit nor a point are an integer. -/
theorem scanNumeral_whole {digits rest : List Char} (hne : digits ≠ [])
    (hdigits : ∀ c ∈ digits, c.isDigit = true) (hrest : EndsDigits rest)
    (hpoint : '.' ∉ rest.head?) :
    scanNumeral (digits ++ rest) = some (⟨Nat.ofDigitChars 10 digits 0, 0⟩, rest) := by
  obtain ⟨c, digits, rfl⟩ := List.exists_cons_of_ne_nil hne
  have hspan := spanDigits_append hdigits hrest
  have hvalue := digitsValue_map (c :: digits)
  simp only [List.map_cons] at hspan hvalue
  unfold scanNumeral
  rw [hspan]
  rcases rest with - | ⟨d, rest⟩
  · change some (Decimal.ofDigits _ [], []) = _
    rw [Decimal.ofDigits, List.append_nil, hvalue]
    rfl
  · have hd : d ≠ '.' := by
      rintro rfl
      exact hpoint rfl
    split
    · next heq => cases heq
    · next heq =>
      cases heq
      exact absurd rfl hd
    · next heq =>
      cases heq
      rw [Decimal.ofDigits, List.append_nil, hvalue]
      rfl

/-- Digits, a point and digits are a number with a fraction. -/
theorem scanNumeral_point {whole fraction rest : List Char} (hwhole : whole ≠ [])
    (hfraction : fraction ≠ []) (hwholeDigits : ∀ c ∈ whole, c.isDigit = true)
    (hfractionDigits : ∀ c ∈ fraction, c.isDigit = true) (hrest : EndsDigits rest) :
    scanNumeral (whole ++ '.' :: (fraction ++ rest)) =
      some (⟨Nat.ofDigitChars 10 (whole ++ fraction) 0, -(fraction.length : ℤ)⟩, rest) := by
  obtain ⟨c, whole, rfl⟩ := List.exists_cons_of_ne_nil hwhole
  obtain ⟨d, fraction, rfl⟩ := List.exists_cons_of_ne_nil hfraction
  have hpoint : EndsDigits ('.' :: (d :: fraction ++ rest)) := by
    intro e he
    cases he
    exact digitValue?_point
  have hspanWhole := spanDigits_append hwholeDigits hpoint
  have hspanFraction := spanDigits_append hfractionDigits hrest
  have hvalue := digitsValue_map (c :: whole ++ d :: fraction)
  simp only [List.map_cons, List.map_append, List.cons_append] at hspanWhole hspanFraction hvalue
  unfold scanNumeral
  rw [List.cons_append, List.cons_append, hspanWhole]
  simp only [List.cons_append, hspanFraction, Decimal.ofDigits, hvalue, List.length_cons,
    List.length_map]

/-! ### Rendering digits -/

theorem isDigit_of_mem_padZeros {width n : ℕ} {c : Char}
    (h : c ∈ padZeros width (Nat.toDigits 10 n)) : c.isDigit = true := by
  rcases List.mem_append.mp h with h | h
  · rw [List.eq_of_mem_replicate h]
    decide
  · exact Nat.isDigit_of_mem_toDigits (by decide) (by decide) h

theorem ofDigitChars_padZeros (width n : ℕ) :
    Nat.ofDigitChars 10 (padZeros width (Nat.toDigits 10 n)) 0 = n := by
  unfold padZeros
  rw [Nat.ofDigitChars_append, Nat.ofDigitChars_replicate_zero, Nat.mul_zero]
  exact Nat.ofDigitChars_ten_toDigits

theorem length_padZeros (width : ℕ) (text : List Char) :
    width ≤ (padZeros width text).length := by
  unfold padZeros
  rw [List.length_append, List.length_replicate]
  omega

/-- The digits of ten times a positive number. -/
theorem toDigits_mul_ten {n : ℕ} (hn : 0 < n) :
    Nat.toDigits 10 (n * 10) = Nat.toDigits 10 n ++ ['0'] := by
  have happend := Nat.toDigits_append_toDigits (b := 10) (d := 0) (by decide) hn (by decide)
  rw [show n * 10 = 10 * n + 0 by omega, ← happend]
  rfl

/-- The last digit of a number that ten does not divide is not zero. -/
theorem getLast?_toDigits {n : ℕ} (hn : ¬ 10 ∣ n) :
    ∃ digits last, Nat.toDigits 10 n = digits ++ [last] ∧ last ≠ '0' := by
  have hmod : n % 10 ≠ 0 := fun h ↦ hn (Nat.dvd_of_mod_eq_zero h)
  have hchars : ∀ d < 10, d ≠ 0 → Nat.digitChar d ≠ '0' := by decide
  have hlast := hchars (n % 10) (Nat.mod_lt _ (by decide)) hmod
  rw [Nat.toDigits_eq_if (by decide)]
  split_ifs with hlt
  · refine ⟨[], n.digitChar, rfl, ?_⟩
    rwa [Nat.mod_eq_of_lt hlt] at hlast
  · exact ⟨_, _, rfl, hlast⟩

theorem stripFraction_append_zero (text : List Char) :
    stripFraction (text ++ ['0']) = stripFraction text := by
  unfold stripFraction
  simp

/-- A fraction that ends in another digit than zero is kept. -/
theorem stripFraction_append {text : List Char} {last : Char} (hzero : last ≠ '0')
    (hpoint : last ≠ '.') : stripFraction (text ++ [last]) = text ++ [last] := by
  unfold stripFraction
  simp [hzero, hpoint]

/-- An empty fraction goes with its point. -/
theorem stripFraction_point {text : List Char} (h : ∀ c ∈ text, c.isDigit = true) :
    stripFraction (text ++ ['.']) = text := by
  unfold stripFraction
  have hpoint : text.reverse.dropWhile (· = '.') = text.reverse := by
    cases hreverse : text.reverse with
    | nil => rfl
    | cons c rest =>
      have hc := h c (List.mem_reverse.mp (hreverse ▸ List.mem_cons_self))
      have hne : c ≠ '.' := by
        rintro rfl
        exact absurd hc (by decide)
      simp [hne]
  simp [hpoint]

/-- A digit more is a decimal place more. -/
theorem placePoint_append (places : ℕ) (text : List Char) (c : Char) :
    placePoint (places + 1) (text ++ [c]) = placePoint places text ++ [c] := by
  have hpad : padZeros (places + 2) (text ++ [c]) = padZeros (places + 1) text ++ [c] := by
    unfold padZeros
    rw [List.length_append, List.length_singleton, List.append_assoc,
      show places + 2 - (text.length + 1) = places + 1 - text.length by omega]
  unfold placePoint
  dsimp only
  rw [hpad, List.length_append, List.length_singleton, Nat.add_sub_add_right,
    List.take_append_of_le_length (Nat.sub_le _ _), List.drop_append_of_le_length (Nat.sub_le _ _),
    List.append_assoc, List.cons_append]

theorem point_mem_placePoint (places : ℕ) (text : List Char) : '.' ∈ placePoint places text :=
  List.mem_append_right _ List.mem_cons_self

theorem length_placePoint (places : ℕ) (text : List Char) :
    (placePoint places text).length = max (places + 1) text.length + 1 := by
  have hpad : (padZeros (places + 1) text).length = max (places + 1) text.length := by
    unfold padZeros
    rw [List.length_append, List.length_replicate]
    omega
  unfold placePoint
  dsimp only
  rw [List.length_append, List.length_cons, List.length_take, List.length_drop, hpad]
  omega

theorem mem_placePoint {places n : ℕ} {c : Char} (h : c ∈ placePoint places (Nat.toDigits 10 n)) :
    c.isDigit = true ∨ c = '.' := by
  unfold placePoint at h
  dsimp only at h
  rw [List.mem_append, List.mem_cons] at h
  rcases h with h | h | h
  · exact .inl (isDigit_of_mem_padZeros (List.mem_of_mem_take h))
  · exact .inr h
  · exact .inl (isDigit_of_mem_padZeros (List.mem_of_mem_drop h))

theorem length_stripFraction_le (text : List Char) : (stripFraction text).length ≤ text.length := by
  unfold stripFraction
  dsimp only
  rw [List.reverse_reverse, List.length_reverse]
  calc _ ≤ (text.reverse.dropWhile (· = '0')).length := (List.dropWhile_suffix _).length_le
    _ ≤ text.reverse.length := (List.dropWhile_suffix _).length_le
    _ = text.length := List.length_reverse

/-- A number without a positive exponent is read back from its text as it was written. -/
theorem scanNumeral_format {d : Decimal} (h : d.exponent ≤ 0) :
    scanNumeral d.format = some (d, []) := by
  obtain ⟨n, e⟩ := d
  have hdigits : ∀ c ∈ Nat.toDigits 10 n, c.isDigit = true := fun c ↦
    Nat.isDigit_of_mem_toDigits (by decide) (by decide)
  unfold Decimal.format
  dsimp only at h ⊢
  rw [Nat.toList_repr]
  by_cases he : e = 0
  · subst he
    rw [if_pos le_rfl, Int.toNat_zero, List.replicate_zero,
      scanNumeral_whole (by simp) hdigits (by intro c hc; cases hc) (by simp),
      Nat.ofDigitChars_ten_toDigits]
  · set places := (-e).toNat with hplaces
    set padded := padZeros (places + 1) (Nat.toDigits 10 n) with hpadded
    have hlength : places + 1 ≤ padded.length := length_padZeros _ _
    have hscan := @scanNumeral_point (padded.take (padded.length - places))
      (padded.drop (padded.length - places)) []
      (by rw [ne_eq, ← List.length_eq_zero_iff, List.length_take]; omega)
      (by rw [ne_eq, ← List.length_eq_zero_iff, List.length_drop]; omega)
      (fun c hc ↦ isDigit_of_mem_padZeros (List.mem_of_mem_take hc))
      (fun c hc ↦ isDigit_of_mem_padZeros (List.mem_of_mem_drop hc)) (by intro c hc; cases hc)
    rw [List.append_nil, List.take_append_drop, hpadded, ofDigitChars_padZeros, ← hpadded,
      List.length_drop] at hscan
    have hexponent : -((padded.length - (padded.length - places) : ℕ) : ℤ) = e := by omega
    rw [if_neg (by omega), placePoint]
    rw [hscan, hexponent]

/-- The length of a rendered number without a positive exponent. -/
theorem length_format_le {d : Decimal} (h : d.exponent ≤ 0) {places digits : ℕ}
    (hplaces : -(places : ℤ) ≤ d.exponent) (hdigits : digitCount d.coefficient ≤ digits) :
    d.format.length ≤ max (places + 1) digits + 1 := by
  unfold digitCount at hdigits
  rw [← String.length_toList, Nat.toList_repr] at hdigits
  unfold Decimal.format
  dsimp only
  rw [Nat.toList_repr]
  split_ifs with he
  · rw [show d.exponent.toNat = 0 by omega, List.replicate_zero, List.append_nil]
    omega
  · rw [length_placePoint]
    omega

/-! ### Values -/

theorem tenPow_eq_zpow (k : ℤ) : tenPow k = (10 : ℚ) ^ k := by
  unfold tenPow
  split_ifs with h
  · conv_rhs => rw [← Int.toNat_of_nonneg h]
    exact (zpow_natCast _ _).symm
  · have hk : k = -((-k).toNat : ℤ) := by omega
    conv_rhs => rw [hk]
    rw [zpow_neg, zpow_natCast, one_div]

theorem Decimal.value_eq (d : Decimal) : d.value = d.coefficient * (10 : ℚ) ^ d.exponent := by
  rw [Decimal.value, tenPow_eq_zpow]

theorem Decimal.value_pos_iff (d : Decimal) : 0 < d.value ↔ 0 < d.coefficient := by
  rw [Decimal.value_eq, mul_pos_iff_of_pos_right (zpow_pos (by norm_num) _), Nat.cast_pos]

/-- Powers of ten in the coefficient may be moved to the exponent. -/
theorem Decimal.value_shift (n k : ℕ) (e : ℤ) :
    Decimal.value ⟨n * 10 ^ k, e⟩ = Decimal.value ⟨n, e + k⟩ := by
  rw [Decimal.value_eq, Decimal.value_eq, zpow_add₀ (by norm_num), zpow_natCast]
  push_cast
  ring

/-- Equal numbers written with different exponents differ by zeros at the end of a coefficient. -/
theorem Decimal.coefficient_eq {n m k : ℕ} {e : ℤ}
    (h : Decimal.value ⟨n, e⟩ = Decimal.value ⟨m, e + k⟩) : n = m * 10 ^ k := by
  rw [← Decimal.value_shift, Decimal.value_eq, Decimal.value_eq] at h
  exact_mod_cast mul_right_cancel₀ (zpow_ne_zero e (by norm_num)) h

theorem roundHalfEven_natCast (n : ℕ) : roundHalfEven (n : ℚ) = n := by
  unfold roundHalfEven
  simp

theorem digitCount_le_iff {n k : ℕ} (hk : 0 < k) : digitCount n ≤ k ↔ n < 10 ^ k := by
  unfold digitCount
  rw [← Nat.length_toDigits_le_iff (by decide) hk, ← Nat.toList_repr, String.length_toList]

theorem le_roundHalfEven {x : ℚ} {n : ℤ} (h : (n : ℚ) ≤ x) : n ≤ roundHalfEven x := by
  have hfloor : n ≤ ⌊x⌋ := Int.le_floor.mpr h
  unfold roundHalfEven
  dsimp only
  split_ifs <;> omega

theorem roundHalfEven_le {x : ℚ} {n : ℤ} (h : x ≤ n) : roundHalfEven x ≤ n := by
  have hfloor : ⌊x⌋ ≤ n := Int.floor_le_iff.mpr (h.trans_lt (lt_add_one _))
  have hexact : ⌊x⌋ = n → x - ⌊x⌋ < 1 / 2 := by
    intro heq
    have hle := Int.floor_le x
    have hge : x = n := le_antisymm h (heq ▸ hle)
    rw [heq, hge, sub_self]
    norm_num
  unfold roundHalfEven
  dsimp only
  by_cases heq : ⌊x⌋ = n
  · rw [if_pos (hexact heq), heq]
  · have hlt : ⌊x⌋ + 1 ≤ n := Int.add_one_le_iff.mpr (lt_of_le_of_ne hfloor heq)
    split_ifs <;> omega

/-- Where rounding half to even stays below an even number. -/
theorem roundHalfEven_lt_iff {x : ℚ} {n : ℤ} (hn : n % 2 = 0) :
    roundHalfEven x < n ↔ x < n - 1 / 2 := by
  have hbelow := Int.floor_le x
  have habove := Int.lt_floor_add_one x
  rcases lt_trichotomy (⌊x⌋ + 1) n with hlt | heq | hgt
  · have hcast : (⌊x⌋ : ℚ) + 2 ≤ n := by exact_mod_cast (by omega : ⌊x⌋ + 2 ≤ n)
    refine iff_of_true ?_ (by linarith)
    unfold roundHalfEven
    dsimp only
    split_ifs <;> omega
  · have hcast : (n : ℚ) = ⌊x⌋ + 1 := by exact_mod_cast heq.symm
    have hodd : ¬ ⌊x⌋ % 2 = 0 := by omega
    unfold roundHalfEven
    dsimp only
    rw [if_neg hodd, hcast]
    split_ifs with hsmall hlarge
    · exact iff_of_true (by omega) (by linarith)
    · exact iff_of_false (by omega) (by linarith)
    · exact iff_of_false (by omega) (by linarith)
  · have hcast : (n : ℚ) ≤ ⌊x⌋ := by exact_mod_cast (by omega : n ≤ ⌊x⌋)
    refine iff_of_false ?_ (by linarith)
    unfold roundHalfEven
    dsimp only
    split_ifs <;> omega

theorem roundHalfEven_eq_zero_iff {x : ℚ} (h : 0 ≤ x) : roundHalfEven x = 0 ↔ x ≤ 1 / 2 := by
  have hbelow := Int.floor_le x
  have habove := Int.lt_floor_add_one x
  have hfloor : 0 ≤ ⌊x⌋ := Int.floor_nonneg.mpr h
  rcases hfloor.eq_or_lt with hzero | hpos
  · rw [← hzero, Int.cast_zero] at hbelow
    unfold roundHalfEven
    rw [← hzero]
    simp only [Int.cast_zero, sub_zero]
    split_ifs with hsmall hlarge
    · exact iff_of_true rfl hsmall.le
    · exact iff_of_false (by decide) (not_le.mpr hlarge)
    · exact iff_of_true rfl (not_lt.mp hlarge)
    · exact absurd rfl ‹¬ (0 : ℤ) % 2 = 0›
  · have hcast : (1 : ℚ) ≤ ⌊x⌋ := by exact_mod_cast hpos
    refine iff_of_false ?_ (by linarith)
    unfold roundHalfEven
    dsimp only
    split_ifs <;> omega

/-- A number written with more digits than the context has, cut after those it keeps. -/
theorem Decimal.round_of_lt {d : Decimal} (h : precision < digitCount d.coefficient) :
    ∃ drop : ℕ, 0 < drop ∧ d.coefficient < 10 ^ (precision + drop) ∧
      10 ^ (precision + drop) ≤ d.coefficient * 10 ∧
        ((roundHalfEven ((d.coefficient : ℚ) / 10 ^ drop)).toNat = 10 ^ precision ∧
            d.round = ⟨10 ^ (precision - 1), d.exponent + drop + 1⟩ ∨
          (roundHalfEven ((d.coefficient : ℚ) / 10 ^ drop)).toNat ≠ 10 ^ precision ∧
            d.round = ⟨(roundHalfEven ((d.coefficient : ℚ) / 10 ^ drop)).toNat,
              d.exponent + drop⟩) := by
  refine ⟨digitCount d.coefficient - precision, by omega, ?_, ?_, ?_⟩
  · refine (digitCount_le_iff (by unfold precision; omega)).mp ?_
    omega
  · have hge : ¬ d.coefficient < 10 ^ (digitCount d.coefficient - 1) := by
      rw [← digitCount_le_iff (by unfold precision at h; omega)]
      omega
    have hpow : 10 ^ (precision + (digitCount d.coefficient - precision)) =
        10 ^ (digitCount d.coefficient - 1) * 10 := by
      rw [← pow_succ]
      congr 1
      omega
    rw [hpow]
    exact Nat.mul_le_mul_right 10 (not_lt.mp hge)
  · unfold Decimal.round
    rw [if_neg (by omega)]
    dsimp only
    by_cases hcarry : (roundHalfEven ((d.coefficient : ℚ) /
        10 ^ (digitCount d.coefficient - precision))).toNat = 10 ^ precision
    · exact .inl ⟨hcarry, if_pos hcarry⟩
    · exact .inr ⟨hcarry, if_neg hcarry⟩

/-- Rounding leaves no more significant digits than the context has. -/
theorem Decimal.coefficient_round_lt (d : Decimal) : d.round.coefficient < 10 ^ precision := by
  by_cases hcount : digitCount d.coefficient ≤ precision
  · rw [Decimal.round, if_pos hcount]
    exact (digitCount_le_iff (by decide)).mp hcount
  · obtain ⟨drop, -, hlt, -, ⟨-, hround⟩ | ⟨hcarry, hround⟩⟩ :=
      Decimal.round_of_lt (not_le.mp hcount)
    · rw [hround]
      exact Nat.pow_lt_pow_right (by decide) (by decide)
    · rw [hround]
      dsimp only
      refine lt_of_le_of_ne ?_ hcarry
      have hle : (d.coefficient : ℚ) / 10 ^ drop ≤ ((10 ^ precision : ℕ) : ℤ) := by
        rw [div_le_iff₀ (by positivity)]
        rw [pow_add] at hlt
        exact_mod_cast hlt.le
      exact Int.toNat_le.mpr (roundHalfEven_le hle)

/-- Rounding a positive number leaves a positive number. -/
theorem Decimal.coefficient_round_pos {d : Decimal} (h : 0 < d.coefficient) :
    0 < d.round.coefficient := by
  by_cases hcount : digitCount d.coefficient ≤ precision
  · rwa [Decimal.round, if_pos hcount]
  · obtain ⟨drop, hdrop, -, hle, ⟨-, hround⟩ | ⟨-, hround⟩⟩ :=
      Decimal.round_of_lt (not_le.mp hcount)
    · rw [hround]
      exact Nat.pow_pos (by decide)
    · rw [hround]
      dsimp only
      have hge : ((1 : ℤ) : ℚ) ≤ (d.coefficient : ℚ) / 10 ^ drop := by
        rw [le_div_iff₀ (by positivity), Int.cast_one, one_mul]
        have hpow : 10 ^ drop * 10 ≤ d.coefficient * 10 := by
          rw [← pow_succ]
          exact (Nat.pow_le_pow_right (by decide) (by unfold precision; omega)).trans hle
        exact_mod_cast Nat.le_of_mul_le_mul_right hpow (by decide)
      have := le_roundHalfEven hge
      omega

/-- A product that the precision has room for is exact. -/
theorem Decimal.mul_of_lt {d d' : Decimal} (h : d.coefficient * d'.coefficient < 10 ^ precision) :
    d.mul d' = ⟨d.coefficient * d'.coefficient, d.exponent + d'.exponent⟩ := by
  unfold Decimal.mul Decimal.round
  exact if_pos ((digitCount_le_iff (by decide)).mpr h)

theorem Decimal.mulNat_of_lt {d : Decimal} {n : ℕ} (h : d.coefficient * n < 10 ^ precision) :
    d.mulNat n = ⟨d.coefficient * n, d.exponent⟩ := by
  unfold Decimal.mulNat Decimal.round
  exact if_pos ((digitCount_le_iff (by decide)).mpr h)

/-- A number with at most `places` decimal places is a natural number of units of the last one. -/
theorem Decimal.coefficient_le {d : Decimal} {places bound : ℕ}
    (hplaces : -(places : ℤ) ≤ d.exponent)
    (hvalue : d.value ≤ 10 ^ bound) : d.coefficient ≤ 10 ^ (bound + places) := by
  rw [Decimal.value_eq] at hvalue
  have hunit : (10 : ℚ) ^ (-(places : ℤ)) ≤ 10 ^ d.exponent :=
    zpow_le_zpow_right₀ (by norm_num) hplaces
  have hle : (d.coefficient : ℚ) * 10 ^ (-(places : ℤ)) ≤ 10 ^ bound :=
    (mul_le_mul_of_nonneg_left hunit (Nat.cast_nonneg _)).trans hvalue
  rw [zpow_neg, zpow_natCast, ← div_eq_mul_inv, div_le_iff₀ (by positivity), ← pow_add] at hle
  exact_mod_cast hle

/-- A number with no more significant digits than the context has is not changed by rounding. -/
theorem Decimal.value_round {d : Decimal} {n : ℕ} {e : ℤ} (hn : n < 10 ^ precision)
    (hvalue : d.value = Decimal.value ⟨n, e⟩) : d.round.value = d.value := by
  by_cases hcount : digitCount d.coefficient ≤ precision
  · rw [Decimal.round, if_pos hcount]
  · obtain ⟨drop, -, hlt, hle, hround⟩ := Decimal.round_of_lt (not_le.mp hcount)
    have hpos : 0 < d.coefficient := by
      have := Nat.pow_pos (n := precision + drop) (show 0 < 10 by decide)
      omega
    -- the digits cut off are zeros, since the number has none at those places
    obtain ⟨m, hm⟩ : ∃ m, d.coefficient = m * 10 ^ drop := by
      obtain ⟨k, hk⟩ | ⟨k, hk⟩ : (∃ k : ℕ, e = d.exponent + k) ∨ ∃ k : ℕ, d.exponent = e + k := by
        rcases le_total d.exponent e with h | h
        · exact .inl ⟨(e - d.exponent).toNat, by omega⟩
        · exact .inr ⟨(d.exponent - e).toNat, by omega⟩
      · have hcoefficient : d.coefficient = n * 10 ^ k :=
          Decimal.coefficient_eq (e := d.exponent) (hk ▸ hvalue)
        have hdrop : drop ≤ k := by
          by_contra hlt'
          have hpow : 10 ^ (precision + k) * 10 ≤ 10 ^ (precision + drop) := by
            rw [← pow_succ]
            exact Nat.pow_le_pow_right (by decide) (by omega)
          have hsmall : d.coefficient < 10 ^ (precision + k) := by
            rw [hcoefficient, pow_add]
            exact Nat.mul_lt_mul_of_pos_right hn (by positivity)
          omega
        exact ⟨n * 10 ^ (k - drop), by
          rw [hcoefficient, mul_assoc, ← pow_add, Nat.sub_add_cancel hdrop]⟩
      · have hcoefficient : n = d.coefficient * 10 ^ k :=
          Decimal.coefficient_eq (e := e) (hk ▸ hvalue.symm)
        have hone : 1 ≤ 10 ^ k := Nat.one_le_pow _ _ (by decide)
        have hge : 10 ^ precision ≤ d.coefficient := by
          refine not_lt.mp fun h ↦ hcount ?_
          exact (digitCount_le_iff (by decide)).mpr h
        have := Nat.le_mul_of_pos_right d.coefficient hone
        omega
    have hexact : (roundHalfEven ((d.coefficient : ℚ) / 10 ^ drop)).toNat = m := by
      have hdiv : (d.coefficient : ℚ) / 10 ^ drop = (m : ℚ) := by
        rw [hm, div_eq_iff (by positivity)]
        push_cast
        rfl
      rw [hdiv, roundHalfEven_natCast, Int.toNat_natCast]
    have hd : d.value = Decimal.value ⟨m, d.exponent + drop⟩ := by
      rw [← Decimal.value_shift, ← hm]
    rw [hexact] at hround
    obtain ⟨hcarry, hround⟩ | ⟨-, hround⟩ := hround
    · rw [hround, hd, hcarry]
      have hshift := Decimal.value_shift (10 ^ (precision - 1)) 1 (d.exponent + drop)
      exact hshift.symm
    · rw [hround, hd]

end FilmOS.Numeral
