import Mathlib.Data.Nat.Basic

/-!
# Contents under a version

A writer reads contents with their version, and its write is carried out only when the version is
still the one that it read. `Versioned.Tells` is what a history must keep for this to be safe: the
contents change only together with the version, which never goes back. Then a write is applied to
the contents that the writer read (`Swaps.applied`), and of two writes under one version the second
is refused (`Swaps.excludes`).
-/

set_option autoImplicit false
set_option relaxedAutoImplicit false

namespace FilmOS

/-- Contents and their version. -/
@[ext] structure Versioned (α : Type) where
  version : ℕ
  content : α

namespace Versioned

variable {α : Type} {u v w x : Versioned α} {expected : ℕ}

/-- Nothing changes unless the version grows. -/
def Tells (v w : Versioned α) : Prop := v.version < w.version ∨ v = w

theorem Tells.refl (v : Versioned α) : v.Tells v := Or.inr rfl

theorem Tells.version_le (h : v.Tells w) : v.version ≤ w.version := by
  rcases h with hlt | rfl
  · exact le_of_lt hlt
  · exact le_rfl

theorem Tells.trans (huv : u.Tells v) (hvw : v.Tells w) : u.Tells w := by
  rcases huv with hlt | rfl
  · exact Or.inl (lt_of_lt_of_le hlt hvw.version_le)
  · exact hvw

/-- The version stands for the contents. -/
theorem Tells.eq_of_version_eq (h : v.Tells w) (hversion : w.version = v.version) : v = w := by
  rcases h with hlt | heq
  · exact absurd hversion (ne_of_gt hlt)
  · exact heq

/-- A write under an expected version. -/
structure Swaps (expected : ℕ) (v w : Versioned α) : Prop where
  read : v.version = expected
  told : expected < w.version

/-- A write is applied to what its writer read. -/
theorem Swaps.applied (h : Swaps expected v w) (hread : u.Tells v)
    (hversion : u.version = expected) : u = v := by
  apply hread.eq_of_version_eq
  rw [h.read, hversion]

/-- After a write no other one under the same version is carried out. -/
theorem Swaps.excludes (h : Swaps expected u v) (hlater : v.Tells w) : ¬ Swaps expected w x := by
  intro hsecond
  have hle := hlater.version_le
  rw [hsecond.read] at hle
  exact absurd h.told (not_lt.mpr hle)

end Versioned

end FilmOS
