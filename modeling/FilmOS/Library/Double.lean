import FilmOS.Library.NumeralLaws
import Mathlib.Data.Int.Log

/-!
# Doubles

The nonnegative numbers of binary64, as a program gets them: the double nearest to a number, half to
even, where the bits behind the fifty-third, or behind the smallest place there is, are rounded
away, and infinity where the result is too large.

A number that is made of few enough bits is its own nearest double (`ofRat_mul_zpow`), a natural
number below 2 ^ 53 among them (`ofRat_natCast`). The nearest double is zero up to half of the
smallest one and infinite from the middle behind the largest one on, which is what
`floatIsPositive` and `floatIsFinite` test (`floatIsPositive_iff`, `floatIsFinite_iff`).
-/

set_option autoImplicit false
set_option relaxedAutoImplicit false

namespace FilmOS.Numeral

/-- A nonnegative double. -/
inductive Double
  | finite (value : ℚ)
  | infinite
deriving DecidableEq

namespace Double

/-- The exponent of the last place of the double nearest to a positive number. -/
def lastPlace (x : ℚ) : ℤ := max (Int.log 2 x - 52) (-1074)

/-- The number rounded to its last place. -/
def nearest (x : ℚ) : ℚ := roundHalfEven (x / 2 ^ lastPlace x) * 2 ^ lastPlace x

/-- The double nearest to a nonnegative number. -/
def ofRat (x : ℚ) : Double := if nearest x < 2 ^ 1024 then finite (nearest x) else infinite

/-- The product with a natural number. -/
def mulNat (x : Double) (n : ℕ) : Double :=
  match x with
  | finite value => ofRat (value * n)
  | infinite => infinite

/-- A number of at most fifty-three bits that is not too small has no bits behind its last place. -/
theorem lastPlace_le {m : ℕ} {e : ℤ} (hpos : 0 < m) (hm : m < 2 ^ 53) (he : -1074 ≤ e) :
    lastPlace (m * 2 ^ e) ≤ e := by
  have hx : (0 : ℚ) < m * 2 ^ e := mul_pos (Nat.cast_pos.mpr hpos) (zpow_pos (by norm_num) _)
  have hbits : (m : ℚ) * 2 ^ e < (2 : ℕ) ^ (53 + e) := by
    rw [Nat.cast_ofNat, zpow_add₀ (by norm_num)]
    exact mul_lt_mul_of_pos_right (by exact_mod_cast hm) (zpow_pos (by norm_num) _)
  have hlog := (Int.lt_zpow_iff_log_lt (by decide) hx).mp hbits
  exact max_le (by omega) he

/-- A number of at most fifty-three bits is its own nearest double, if it is neither too small nor
too large. -/
theorem ofRat_mul_zpow {m : ℕ} {e : ℤ} (hm : m < 2 ^ 53) (he : -1074 ≤ e)
    (hlarge : (m : ℚ) * 2 ^ e < 2 ^ 1024) : ofRat (m * 2 ^ e) = finite (m * 2 ^ e) := by
  have hnearest : nearest (m * 2 ^ e) = m * 2 ^ e := by
    rcases Nat.eq_zero_or_pos m with rfl | hpos
    · unfold nearest
      rw [Nat.cast_zero, zero_mul, zero_div]
      have hround := roundHalfEven_natCast 0
      rw [Nat.cast_zero] at hround
      rw [hround, Nat.cast_zero, Int.cast_zero, zero_mul]
    · obtain ⟨k, hk⟩ := Int.eq_ofNat_of_zero_le (sub_nonneg.mpr (lastPlace_le hpos hm he))
      have hquotient : (m : ℚ) * 2 ^ e / 2 ^ lastPlace (m * 2 ^ e) = (m * 2 ^ k : ℕ) := by
        rw [mul_div_assoc, ← zpow_sub₀ (by norm_num), hk, zpow_natCast, Nat.cast_mul, Nat.cast_pow,
          Nat.cast_ofNat]
      unfold nearest
      rw [hquotient, roundHalfEven_natCast, Int.cast_natCast, ← hquotient,
        div_mul_cancel₀ _ (zpow_ne_zero _ (by norm_num))]
  unfold ofRat
  rw [hnearest, if_pos hlarge]

/-- A natural number below 2 ^ 53 is a double. -/
theorem ofRat_natCast {n : ℕ} (h : n < 2 ^ 53) : ofRat n = finite n := by
  have hlarge : (n : ℚ) * 2 ^ (0 : ℤ) < 2 ^ 1024 := by
    rw [zpow_zero, mul_one]
    exact_mod_cast h.trans (Nat.pow_lt_pow_right (by decide) (by decide))
  have hdouble := ofRat_mul_zpow h (by decide) hlarge
  rwa [zpow_zero, mul_one] at hdouble

example : ofRat (1 / 10) = finite (3602879701896397 / 2 ^ 55) ∧ ofRat (10 ^ 309) = infinite := by
  decide +kernel

/-! ### Zero and infinity -/

theorem zpow_lastPlace_pos (x : ℚ) : (0 : ℚ) < 2 ^ lastPlace x := zpow_pos (by norm_num) _

/-- The nearest double is zero exactly up to half of the smallest one. -/
theorem nearest_eq_zero_iff {x : ℚ} (h : 0 ≤ x) : nearest x = 0 ↔ x ≤ 1 / 2 ^ 1075 := by
  have hplace := zpow_lastPlace_pos x
  unfold nearest
  rw [mul_eq_zero, or_iff_left hplace.ne', Int.cast_eq_zero,
    roundHalfEven_eq_zero_iff (div_nonneg h hplace.le), div_le_iff₀ hplace]
  rcases h.eq_or_lt with rfl | hpos
  · exact iff_of_true (by positivity) (by positivity)
  have hlog := Int.zpow_log_le_self (b := 2) (by decide) hpos
  rw [Nat.cast_ofNat] at hlog
  have hhalf : (1 : ℚ) / 2 * 2 ^ lastPlace x = 2 ^ (lastPlace x - 1) := by
    rw [zpow_sub_one₀ (by norm_num)]
    ring
  have hsmallest : (1 : ℚ) / 2 ^ 1075 = 2 ^ (-1075 : ℤ) := by
    rw [zpow_neg, one_div]
    rfl
  rw [hhalf, hsmallest]
  constructor
  · intro hle
    have hexp : Int.log 2 x ≤ lastPlace x - 1 :=
      (zpow_le_zpow_iff_right₀ (by norm_num : (1 : ℚ) < 2)).mp (hlog.trans hle)
    have hplace : lastPlace x = -1074 := by
      unfold lastPlace at hexp ⊢
      omega
    rwa [hplace] at hle
  · intro hle
    refine hle.trans (zpow_le_zpow_right₀ (by norm_num) ?_)
    unfold lastPlace
    omega

theorem zpow_eq_mul_lastPlace {x : ℚ} {e : ℤ} (h : lastPlace x ≤ e) :
    ∃ n : ℤ, (2 : ℚ) ^ e = n * 2 ^ lastPlace x := by
  obtain ⟨k, hk⟩ := Int.eq_ofNat_of_zero_le (sub_nonneg.mpr h)
  refine ⟨2 ^ k, ?_⟩
  rw [Int.cast_pow, Int.cast_ofNat, ← zpow_natCast, ← hk, ← zpow_add₀ (by norm_num),
    sub_add_cancel]

theorem nearest_le_zpow {x : ℚ} {e : ℤ} (hplace : lastPlace x ≤ e) (h : x ≤ 2 ^ e) :
    nearest x ≤ 2 ^ e := by
  obtain ⟨n, hn⟩ := zpow_eq_mul_lastPlace hplace
  rw [hn] at h ⊢
  have hround := roundHalfEven_le ((div_le_iff₀ (zpow_lastPlace_pos x)).mpr h)
  exact mul_le_mul_of_nonneg_right (Int.cast_le.mpr hround) (zpow_lastPlace_pos x).le

theorem zpow_le_nearest {x : ℚ} {e : ℤ} (hplace : lastPlace x ≤ e) (h : 2 ^ e ≤ x) :
    2 ^ e ≤ nearest x := by
  obtain ⟨n, hn⟩ := zpow_eq_mul_lastPlace hplace
  rw [hn] at h ⊢
  have hround := le_roundHalfEven ((le_div_iff₀ (zpow_lastPlace_pos x)).mpr h)
  exact mul_le_mul_of_nonneg_right (Int.cast_le.mpr hround) (zpow_lastPlace_pos x).le

/-- The nearest double is finite exactly below the middle between the largest one and the place
behind it. -/
theorem nearest_lt_iff {x : ℚ} (h : 0 < x) : nearest x < 2 ^ 1024 ↔ x < 2 ^ 1024 - 2 ^ 970 := by
  have hlog := Int.zpow_log_le_self (b := 2) (by decide) h
  have hsucc := Int.lt_zpow_succ_log_self (b := 2) (by decide) x
  rw [Nat.cast_ofNat] at hlog hsucc
  have hmono : ∀ {e e' : ℤ}, e ≤ e' → (2 : ℚ) ^ e ≤ 2 ^ e' := fun hle ↦
    zpow_le_zpow_right₀ (by norm_num) hle
  have htop : (2 : ℚ) ^ 1024 = 2 ^ 54 * 2 ^ 970 := pow_add 2 54 970
  have hbelow : (2 : ℚ) ^ (1023 : ℤ) = 2 ^ 53 * 2 ^ 970 :=
    (zpow_ofNat 2 1023).trans (pow_add 2 53 970)
  have hbits : (2 : ℚ) ^ (971 : ℤ) = 2 * 2 ^ 970 := (zpow_ofNat 2 971).trans (pow_succ' 2 970)
  have hunit : (0 : ℚ) < 2 ^ 970 := pow_pos (by norm_num) _
  have hlarge : 1024 ≤ Int.log 2 x → (2 : ℚ) ^ 1024 ≤ 2 ^ Int.log 2 x := fun hle ↦
    (zpow_ofNat 2 1024).symm.le.trans (hmono hle)
  rw [htop] at hlarge ⊢
  -- the powers themselves are too large to be computed with
  generalize (2 : ℚ) ^ 970 = unit at htop hbelow hbits hunit hlarge ⊢
  rcases lt_trichotomy (Int.log 2 x) 1023 with hlt | heq | hgt
  · have hx : x ≤ 2 ^ (1023 : ℤ) := hsucc.le.trans (hmono (by omega))
    have hnearest := nearest_le_zpow (max_le (by omega) (by decide)) hx
    rw [hbelow] at hx hnearest
    exact iff_of_true (by linarith only [hnearest, hunit]) (by linarith only [hx, hunit])
  · have hplace : lastPlace x = 971 := by
      unfold lastPlace
      omega
    have hend : 2 ^ 54 * unit = ((2 ^ 53 : ℤ) : ℚ) * (2 * unit) := by
      push_cast
      ring
    have hmiddle : 2 ^ 54 * unit - unit = (((2 ^ 53 : ℤ) : ℚ) - 1 / 2) * (2 * unit) := by
      push_cast
      ring
    have hpos : 0 < 2 * unit := mul_pos two_pos hunit
    unfold nearest
    rw [hplace, hbits, hmiddle, hend, mul_lt_mul_iff_left₀ hpos, Int.cast_lt,
      roundHalfEven_lt_iff (by decide), div_lt_iff₀ hpos]
  · have hnearest := zpow_le_nearest (max_le (by omega) (by omega)) hlog
    have hbound := hlarge (by omega)
    exact iff_of_false (by linarith only [hnearest, hbound])
      (by linarith only [hlog, hbound, hunit])

/-- The tests of a number are those of its nearest double. -/
theorem floatIsPositive_iff {x : ℚ} (h : 0 ≤ x) :
    floatIsPositive x = true ↔ ofRat x ≠ finite 0 := by
  unfold floatIsPositive ofRat
  rw [decide_eq_true_eq, ← not_le, not_iff_not, ← nearest_eq_zero_iff h]
  constructor
  · intro hzero
    rw [hzero, if_pos (by norm_num)]
  · intro hzero
    split_ifs at hzero
    exact finite.inj hzero

theorem floatIsFinite_iff {x : ℚ} (h : 0 < x) :
    floatIsFinite x = true ↔ ofRat x ≠ infinite := by
  unfold floatIsFinite ofRat
  rw [decide_eq_true_eq, ← nearest_lt_iff h]
  split_ifs with hfinite
  · exact iff_of_true hfinite (by rintro ⟨⟩)
  · exact iff_of_false hfinite (absurd rfl)

end Double

end FilmOS.Numeral
