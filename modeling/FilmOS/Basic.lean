import FilmOS.Library.Transaction
import FilmOS.Library.Table
import Mathlib.Data.List.MinMax
import Mathlib.Data.List.Sort

/-!
# Identifiers, failures and calls

What every service shares. Identifiers are the text that `generate_id` draws (`uuid4().hex`); a
client may send any text in their place, and the empty text counts as absent where the source tests
truth. `IdSource` is one source of fresh identifiers: given the identifiers seen so far it picks
another one, in no particular order. Times are integers, counted in microseconds. `Failure` lists
what a service call can raise: an `HTTPException`, a lost lease, a violated database constraint, or
one of Python's own errors where the source can reach it.

`stamped` is the `onupdate=func.now()` of a row: the update time changes exactly when the row does.
`orderBy` and `firstBy` are `ORDER BY` with and without `LIMIT 1`, `maxBy` and `minBy` are Python's
`max` and `min` with a key, and `maxOf` is `func.max`.
-/

set_option autoImplicit false
set_option relaxedAutoImplicit false

namespace FilmOS

open Transaction

/-- An identifier: the text of a uuid, or whatever text a client sends for one. -/
abbrev Id := String

/-- A point in time, in microseconds. -/
abbrev Time := ℤ

/-- A duration of whole seconds. -/
def seconds (n : ℤ) : Time := 1000000 * n

/-- A text or an identifier that a request leaves out, the empty text counting as left out. -/
def truthy (value : Option String) : Option String := value.filter (· ≠ "")

theorem truthy_eq_some_iff {value : Option String} {text : String} :
    truthy value = some text ↔ value = some text ∧ text ≠ "" := by
  unfold truthy
  rw [Option.filter_eq_some_iff, decide_eq_true_eq]

/-- What a service call can raise. `http` is an `HTTPException` with a plain detail, and `refused`
the one that `fail` builds, whose detail carries a code and a message. -/
inductive Failure
  | http (status : ℕ) (detail : String)
  | refused (code : String) (message : String) (status : ℕ)
  | leaseLost
  | integrityError (constraint : String)
  | noResultFound
  | keyError (key : String)
  | valueError (message : String)
  | typeError (message : String)
  | attributeError
  | assertionError
  | zeroDivisionError
  | runtimeError (message : String)
  | diverged
deriving DecidableEq, Repr

/-- A source of fresh identifiers: it picks an identifier that is not among those seen so far. -/
structure IdSource where
  pick : List Id → Id
  fresh : ∀ seen, pick seen ∉ seen

theorem length_le_of_mem_maximum {seen : List Id} {s : Id} (h : s ∈ seen) :
    s.length ≤ (seen.map String.length).foldr max 0 := by
  induction seen with
  | nil => cases h
  | cons t seen ih =>
    rw [List.map_cons, List.foldr_cons]
    rcases List.mem_cons.mp h with rfl | h
    · exact le_max_left _ _
    · exact le_trans (ih h) (le_max_right _ _)

/-- The source that picks a text longer than every identifier seen. -/
def IdSource.longer : IdSource where
  pick seen := String.ofList (List.replicate ((seen.map String.length).foldr max 0 + 1) 'f')
  fresh seen h := by
    have hle := length_le_of_mem_maximum h
    rw [String.length_ofList, List.length_replicate] at hle
    omega

/-- The environment of one call: the transaction time, the current UTC date as `%Y%m%d`, and the
identifiers that `generate_id` will draw. -/
structure Call where
  now : Time
  today : String
  source : IdSource

/-- A row after a change, its update time renewed exactly when the change changed it. -/
def stamped {ρ : Type} [DecidableEq ρ] (renew : ρ → ρ) (change : ρ → ρ) (row : ρ) : ρ :=
  if change row = row then row else renew (change row)

section Ordering

variable {ρ β : Type} [LinearOrder β]

/-- `ORDER BY key`, rows with equal keys in table order. -/
def orderBy (key : ρ → β) (rows : List ρ) : List ρ :=
  rows.insertionSort (fun a b ↦ key a ≤ key b)

/-- `ORDER BY key LIMIT 1`. -/
def firstBy (key : ρ → β) (rows : List ρ) : Option ρ := (orderBy key rows).head?

/-- `max(rows, key=key)`: the first row with the greatest key. -/
def maxBy (key : ρ → β) (rows : List ρ) : Option ρ := rows.argmax key

/-- `min(rows, key=key)`: the first row with the least key. -/
def minBy (key : ρ → β) (rows : List ρ) : Option ρ := rows.argmin key

theorem mem_of_minBy_eq_some {key : ρ → β} {rows : List ρ} {r : ρ}
    (h : minBy key rows = some r) : r ∈ rows :=
  List.argmin_mem h

theorem minBy_eq_none_iff {key : ρ → β} {rows : List ρ} : minBy key rows = none ↔ rows = [] :=
  List.argmin_eq_none

theorem orderBy_perm (key : ρ → β) (rows : List ρ) : (orderBy key rows).Perm rows :=
  List.perm_insertionSort _ _

@[simp] theorem mem_orderBy (key : ρ → β) (rows : List ρ) (r : ρ) :
    r ∈ orderBy key rows ↔ r ∈ rows := (orderBy_perm key rows).mem_iff

theorem pairwise_orderBy (key : ρ → β) (rows : List ρ) :
    (orderBy key rows).Pairwise (fun a b ↦ key a ≤ key b) := by
  have : Std.Total (fun a b : ρ ↦ key a ≤ key b) := ⟨fun a b ↦ le_total (key a) (key b)⟩
  have : IsTrans ρ (fun a b ↦ key a ≤ key b) := ⟨fun _ _ _ hab hbc ↦ le_trans hab hbc⟩
  exact List.pairwise_insertionSort _ rows

/-- The order of rows with distinct keys does not depend on the table order. -/
theorem orderBy_eq_of_perm {key : ρ → β} {rows rows' : List ρ} (h : rows.Perm rows')
    (hnodup : (rows.map key).Nodup) : orderBy key rows = orderBy key rows' := by
  refine List.Perm.eq_of_pairwise ?_ (pairwise_orderBy key rows) (pairwise_orderBy key rows')
    ((orderBy_perm key rows).trans (h.trans (orderBy_perm key rows').symm))
  intro a b ha hb hab hba
  refine List.inj_on_of_nodup_map hnodup ((mem_orderBy key rows a).mp ha) ?_ (le_antisymm hab hba)
  exact h.mem_iff.mpr ((mem_orderBy key rows' b).mp hb)

/-- Rows in strictly increasing order are what any order of them sorts to. -/
theorem orderBy_eq_of_pairwise_lt {key : ρ → β} {rows sorted : List ρ} (hperm : sorted.Perm rows)
    (hsorted : sorted.Pairwise (fun a b ↦ key a < key b)) : orderBy key rows = sorted := by
  have hnodup : (sorted.map key).Nodup :=
    List.pairwise_map.mpr (hsorted.imp (fun hlt ↦ ne_of_lt hlt))
  rw [← orderBy_eq_of_perm hperm hnodup]
  exact (hsorted.imp (fun hlt ↦ le_of_lt hlt)).insertionSort_eq

/-- Rows with distinct keys are strictly increasing once ordered. -/
theorem pairwise_lt_orderBy {key : ρ → β} {rows : List ρ} (hnodup : (rows.map key).Nodup) :
    (orderBy key rows).Pairwise (fun a b ↦ key a < key b) := by
  have hdistinct : ((orderBy key rows).map key).Nodup :=
    ((orderBy_perm key rows).map key).nodup_iff.mpr hnodup
  exact ((pairwise_orderBy key rows).and (List.pairwise_map.mp hdistinct)).imp
    (fun h ↦ lt_of_le_of_ne h.1 h.2)

/-- Rows with distinct keys may be selected before or after they are ordered. -/
theorem orderBy_filter {key : ρ → β} {rows : List ρ} (hnodup : (rows.map key).Nodup)
    (p : ρ → Bool) : orderBy key (rows.filter p) = (orderBy key rows).filter p :=
  orderBy_eq_of_pairwise_lt ((orderBy_perm key rows).filter p)
    ((pairwise_lt_orderBy hnodup).filter p)

/-- The first of the ordered rows with a property is the one with the least key. -/
theorem find?_orderBy_eq_some_iff {key : ρ → β} {rows : List ρ} (hnodup : (rows.map key).Nodup)
    {p : ρ → Bool} {r : ρ} : (orderBy key rows).find? p = some r ↔
      r ∈ rows ∧ p r = true ∧ ∀ other ∈ rows, p other = true → key r ≤ key other := by
  have hfirst : ∀ r, (orderBy key rows).find? p = some r →
      ∀ other ∈ rows, p other = true → key r ≤ key other := by
    intro r hr other hother hp
    obtain ⟨-, before, behind, hrows, hbefore⟩ := List.find?_eq_some_iff_append.mp hr
    have hsorted := pairwise_orderBy key rows
    rw [← mem_orderBy key rows, hrows] at hother
    rw [hrows] at hsorted
    rcases List.mem_append.mp hother with hother | hother
    · have hnot := hbefore other hother
      rw [hp] at hnot
      cases hnot
    · rcases List.mem_cons.mp hother with rfl | hother
      · exact le_rfl
      · exact List.rel_of_pairwise_cons (List.pairwise_append.mp hsorted).2.1 hother
  constructor
  · intro h
    exact ⟨(mem_orderBy key rows r).mp (List.mem_of_find?_eq_some h), List.find?_some h, hfirst r h⟩
  · rintro ⟨hr, hp, hleast⟩
    obtain ⟨found, hfound⟩ := Option.isSome_iff_exists.mp
      (List.find?_isSome.mpr ⟨r, (mem_orderBy key rows r).mpr hr, hp⟩)
    have hmem := (mem_orderBy key rows found).mp (List.mem_of_find?_eq_some hfound)
    have heq := List.inj_on_of_nodup_map hnodup hmem hr
      (le_antisymm (hfirst found hfound r hr hp) (hleast found hmem (List.find?_some hfound)))
    rw [hfound, heq]

/-- A row behind all others stays behind them. -/
theorem orderBy_concat {key : ρ → β} {rows : List ρ} {r : ρ} (hnodup : (rows.map key).Nodup)
    (hbehind : ∀ other ∈ rows, key other < key r) :
    orderBy key (rows ++ [r]) = orderBy key rows ++ [r] := by
  refine orderBy_eq_of_pairwise_lt ((orderBy_perm key rows).append_right [r]) ?_
  rw [List.pairwise_append]
  refine ⟨pairwise_lt_orderBy hnodup, List.pairwise_singleton _ r, fun other hother last hlast ↦ ?_⟩
  rw [List.mem_singleton.mp hlast]
  exact hbehind other ((mem_orderBy key rows other).mp hother)

/-- Values are ordered alike exactly when they are the same up to their order. -/
theorem orderBy_id_eq_iff {values values' : List β} :
    orderBy id values = orderBy id values' ↔ values.Perm values' := by
  constructor
  · intro h
    exact (orderBy_perm id values).symm.trans (h ▸ orderBy_perm id values')
  · intro h
    refine List.Perm.eq_of_pairwise (fun a b _ _ hab hba ↦ le_antisymm hab hba)
      (pairwise_orderBy id values) (pairwise_orderBy id values') ?_
    exact (orderBy_perm id values).trans (h.trans (orderBy_perm id values').symm)

theorem mem_of_firstBy_eq_some {key : ρ → β} {rows : List ρ} {r : ρ}
    (h : firstBy key rows = some r) : r ∈ rows :=
  (mem_orderBy key rows r).mp (List.mem_of_mem_head? h)

theorem firstBy_eq_none_iff {key : ρ → β} {rows : List ρ} :
    firstBy key rows = none ↔ rows = [] := by
  unfold firstBy
  rw [List.head?_eq_none_iff]
  constructor
  · intro h
    have hperm := orderBy_perm key rows
    rw [h] at hperm
    exact hperm.nil_eq.symm
  · rintro rfl
    rfl

end Ordering

/-- `func.max` over a column: `none` over no rows. -/
def maxOf (values : List ℤ) : Option ℤ := values.max?

theorem le_of_maxOf {values : List ℤ} {m v : ℤ} (hmax : maxOf values = some m) (hv : v ∈ values) :
    v ≤ m :=
  (List.max?_eq_some_iff.mp hmax).2 v hv

end FilmOS
