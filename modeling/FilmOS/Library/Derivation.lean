import Mathlib.Logic.Relation

/-!
# Derivation relations

A relation is acyclic when nothing is reachable from itself. Removing pairs keeps a relation acyclic
(`Acyclic.mono`). Where everything has at most one source, an edit gives one element another source;
`relink` is the relation after it. A relinked relation is acyclic exactly when the new source was
not reachable to the element before (`acyclic_relink_iff`): a cycle through the new pair closes a
path that did not need the element's old source.
-/

set_option autoImplicit false
set_option relaxedAutoImplicit false

namespace FilmOS.Derivation

open Relation

variable {α : Type*}

/-- Nothing is reachable from itself. -/
def Acyclic (r : α → α → Prop) : Prop := ∀ a, ¬ TransGen r a a

/-- The relation with the pairs of one element replaced by a single pair. -/
def relink (r : α → α → Prop) (a b : α) (x y : α) : Prop :=
  (x = a ∧ y = b) ∨ (x ≠ a ∧ r x y)

/-- Fewer pairs keep a relation acyclic. -/
theorem Acyclic.mono {r s : α → α → Prop} (h : Acyclic s) (hsub : ∀ a b, r a b → s a b) :
    Acyclic r :=
  fun a hcycle ↦ h a (TransGen.mono hsub _ _ hcycle)

/-- A path to an element stays a path when that element is relinked: it can stop at the first
arrival. -/
theorem reflTransGen_relink {r : α → α → Prop} {a b c : α} (h : ReflTransGen r c a) :
    ReflTransGen (relink r a b) c a := by
  induction h using ReflTransGen.head_induction_on with
  | refl => exact ReflTransGen.refl
  | @head x y hstep _ ih =>
    by_cases hx : x = a
    · rw [hx]
    · exact ReflTransGen.head (Or.inr ⟨hx, hstep⟩) ih

/-- A path of the relinked relation is an old path, or it passes the new pair. -/
theorem transGen_relink {r : α → α → Prop} {a b x y : α} (hback : ¬ ReflTransGen r b a)
    (h : TransGen (relink r a b) x y) :
    TransGen r x y ∨ ReflTransGen r x a ∧ ReflTransGen r b y := by
  induction h with
  | single hstep =>
    rcases hstep with ⟨rfl, rfl⟩ | ⟨-, hstep⟩
    · exact Or.inr ⟨ReflTransGen.refl, ReflTransGen.refl⟩
    · exact Or.inl (TransGen.single hstep)
  | tail _ hstep ih =>
    rcases hstep with ⟨rfl, rfl⟩ | ⟨-, hstep⟩
    · rcases ih with hold | ⟨-, hnew⟩
      · exact Or.inr ⟨hold.to_reflTransGen, ReflTransGen.refl⟩
      · exact absurd hnew hback
    · rcases ih with hold | ⟨hto, hnew⟩
      · exact Or.inl (hold.tail hstep)
      · exact Or.inr ⟨hto, hnew.tail hstep⟩

/-- Relinking an element keeps a relation acyclic exactly when the element was not reachable from
its new source. -/
theorem acyclic_relink_iff {r : α → α → Prop} (h : Acyclic r) (a b : α) :
    Acyclic (relink r a b) ↔ ¬ ReflTransGen r b a := by
  constructor
  · intro hrelinked hback
    exact hrelinked a (TransGen.head' (Or.inl ⟨rfl, rfl⟩) (reflTransGen_relink hback))
  · intro hback x hcycle
    rcases transGen_relink hback hcycle with hold | ⟨hto, hnew⟩
    · exact h x hold
    · exact hback (hnew.trans hto)

end FilmOS.Derivation
