import Mathlib.Algebra.BigOperators.Group.List.Basic
import Mathlib.Algebra.GroupWithZero.Nat
import Mathlib.Algebra.Order.Monoid.Canonical.Defs
import Mathlib.Data.List.Induction
import Mathlib.Data.Nat.Basic
import Mathlib.Order.Basic
import Mathlib.Tactic.Common

/-!
# Runs, ends and pieces of a list

A list falls into runs: an element starts a run, and the elements that continue it follow. `runs`
splits a list from the front, joining an element to the last run when it continues one, and
`Split` says what this gives (`split_runs`).

`keepEnd` keeps as many whole runs from the end as a budget allows, going backwards until a run does
not fit. What it keeps is the longest such end (`keepEnd_spec`), and it keeps nothing of a nonempty
list exactly when the last run does not fit (`keepEnd_eq_nil_iff`).

`pieces` cuts a list into pieces of a length, which make it up again (`flatten_pieces`).
-/

set_option autoImplicit false
set_option relaxedAutoImplicit false

namespace FilmOS.Trimming

variable {α : Type*}

/-! ### Runs -/

/-- The runs after one more element, which joins the last one when it continues it. -/
def addToRuns (continues : α → Bool) (groups : List (List α)) (a : α) : List (List α) :=
  match groups.getLast? with
  | some last => if continues a then groups.dropLast ++ [last ++ [a]] else groups ++ [[a]]
  | none => groups ++ [[a]]

/-- The runs of a list. -/
def runs (continues : α → Bool) (as : List α) : List (List α) :=
  as.foldl (addToRuns continues) []

/-- A list is split into runs: no run is empty, within a run all elements but the first continue,
and the first of every run but the first one does not. -/
structure Split (continues : α → Bool) (as : List α) (groups : List (List α)) : Prop where
  flatten : groups.flatten = as
  ne_nil : ∀ group ∈ groups, group ≠ []
  continued : ∀ group ∈ groups, ∀ a ∈ group.tail, continues a = true
  started : ∀ group ∈ groups.tail, ∀ a ∈ group.head?, continues a = false

variable {continues : α → Bool} {as : List α} {groups : List (List α)}

theorem addToRuns_concat (last : List α) (a : α) :
    addToRuns continues (groups ++ [last]) a =
      if continues a then groups ++ [last ++ [a]] else groups ++ [last] ++ [[a]] := by
  unfold addToRuns
  rw [List.getLast?_concat, List.dropLast_concat]

/-- One more element keeps a split. -/
theorem Split.add (h : Split continues as groups) (a : α) :
    Split continues (as ++ [a]) (addToRuns continues groups a) := by
  rcases List.eq_nil_or_concat groups with rfl | ⟨before, last, rfl⟩
  · have has : as = [] := h.flatten.symm
    rw [has]
    constructor
    · rfl
    · simp [addToRuns]
    · simp [addToRuns]
    · simp [addToRuns]
  · rw [List.concat_eq_append] at h ⊢
    rw [addToRuns_concat]
    by_cases ha : continues a = true
    · rw [if_pos ha]
      have hlast : last ≠ [] := h.ne_nil last (by simp)
      constructor
      · rw [← h.flatten]
        simp
      · intro group hgroup
        rcases List.mem_append.mp hgroup with hgroup | hgroup
        · exact h.ne_nil group (List.mem_append_left _ hgroup)
        · rw [List.mem_singleton.mp hgroup]
          simp
      · intro group hgroup b hb
        rcases List.mem_append.mp hgroup with hgroup | hgroup
        · exact h.continued group (List.mem_append_left _ hgroup) b hb
        · rw [List.mem_singleton.mp hgroup, List.tail_append_of_ne_nil hlast] at hb
          rcases List.mem_append.mp hb with hb | hb
          · exact h.continued last (by simp) b hb
          · rwa [List.mem_singleton.mp hb]
      · intro group hgroup b hb
        cases before with
        | nil => simp at hgroup
        | cons first rest =>
          rw [List.cons_append, List.tail_cons] at hgroup
          rcases List.mem_append.mp hgroup with hgroup | hgroup
          · exact h.started group (List.mem_append_left _ hgroup) b hb
          · rw [List.mem_singleton.mp hgroup, List.head?_append_of_ne_nil _ hlast] at hb
            exact h.started last (by simp) b hb
    · rw [if_neg ha]
      constructor
      · rw [List.flatten_append, h.flatten]
        rfl
      · intro group hgroup
        rcases List.mem_append.mp hgroup with hgroup | hgroup
        · exact h.ne_nil group hgroup
        · rw [List.mem_singleton.mp hgroup]
          simp
      · intro group hgroup b hb
        rcases List.mem_append.mp hgroup with hgroup | hgroup
        · exact h.continued group hgroup b hb
        · rw [List.mem_singleton.mp hgroup] at hb
          cases hb
      · intro group hgroup b hb
        rw [List.tail_append_of_ne_nil (by simp)] at hgroup
        rcases List.mem_append.mp hgroup with hgroup | hgroup
        · exact h.started group hgroup b hb
        · rw [List.mem_singleton.mp hgroup, List.head?_cons, Option.mem_some_iff] at hb
          rw [← hb]
          exact Bool.eq_false_iff.mpr ha

/-- The runs of a list split it. -/
theorem split_runs (continues : α → Bool) (as : List α) :
    Split continues as (runs continues as) := by
  induction as using List.reverseRecOn with
  | nil => exact ⟨rfl, by simp [runs], by simp [runs], by simp [runs]⟩
  | append_singleton as a ih =>
    unfold runs
    rw [List.foldl_append]
    exact ih.add a

/-! ### Keeping an end -/

section Budget

variable (size : List α → ℕ)

/-- Going backwards through the runs, each is put in front of what is kept, until one does not
fit. -/
def takeBack : List (List α) → ℕ → List α → List α
  | [], _, selected => selected
  | group :: rest, remaining, selected =>
    if remaining < size group then selected
    else takeBack rest (remaining - size group) (group ++ selected)

/-- The end of a list of runs within a budget. -/
def keepEnd (groups : List (List α)) (budget : ℕ) : List α :=
  takeBack size groups.reverse budget []

/-- Going backwards takes the most runs that fit. -/
theorem takeBack_spec (reversed : List (List α)) (remaining : ℕ) (selected : List α) :
    ∃ count ≤ reversed.length,
      takeBack size reversed remaining selected =
          (reversed.take count).reverse.flatten ++ selected ∧
        ((reversed.take count).map size).sum ≤ remaining ∧
        ∀ more ≤ reversed.length, ((reversed.take more).map size).sum ≤ remaining →
          more ≤ count := by
  induction reversed generalizing remaining selected with
  | nil => exact ⟨0, le_rfl, rfl, by simp, fun more hmore _ ↦ hmore⟩
  | cons group rest ih =>
    unfold takeBack
    by_cases hfits : remaining < size group
    · refine ⟨0, Nat.zero_le _, if_pos hfits, by simp, fun more _ hsum ↦ ?_⟩
      cases more with
      | zero => exact le_rfl
      | succ more =>
        rw [List.take_succ_cons, List.map_cons, List.sum_cons] at hsum
        omega
    · rw [if_neg hfits]
      obtain ⟨count, hcount, htaken, hsum, hmost⟩ := ih (remaining - size group) (group ++ selected)
      refine ⟨count + 1, Nat.succ_le_succ hcount, ?_, ?_, fun more hmore hmoreSum ↦ ?_⟩
      · rw [htaken, List.take_succ_cons, List.reverse_cons, List.flatten_append,
          List.flatten_singleton, List.append_assoc]
      · rw [List.take_succ_cons, List.map_cons, List.sum_cons]
        omega
      · cases more with
        | zero => exact Nat.zero_le _
        | succ more =>
          rw [List.take_succ_cons, List.map_cons, List.sum_cons] at hmoreSum
          refine Nat.succ_le_succ (hmost more (Nat.succ_le_succ_iff.mp hmore) ?_)
          omega

/-- What is kept is an end of the runs within the budget, and no longer end is. -/
theorem keepEnd_spec (groups : List (List α)) (budget : ℕ) :
    ∃ dropped kept, groups = dropped ++ kept ∧ keepEnd size groups budget = kept.flatten ∧
      (kept.map size).sum ≤ budget ∧
      ∀ dropped' kept', groups = dropped' ++ kept' → (kept'.map size).sum ≤ budget →
        kept'.length ≤ kept.length := by
  obtain ⟨count, hcount, htaken, hsum, hmost⟩ := takeBack_spec size groups.reverse budget []
  have hlength : (groups.reverse.take count).reverse.length = count := by
    rw [List.length_reverse, List.length_take, min_eq_left hcount]
  have hreversed : ∀ kept : List (List α), (kept.reverse.map size).sum = (kept.map size).sum := by
    intro kept
    rw [List.map_reverse, List.sum_reverse]
  refine ⟨(groups.reverse.drop count).reverse, (groups.reverse.take count).reverse, ?_, ?_, ?_, ?_⟩
  · rw [← List.reverse_append, List.take_append_drop, List.reverse_reverse]
  · unfold keepEnd
    rw [htaken, List.append_nil]
  · rwa [hreversed]
  · rintro dropped' kept' rfl hfits
    rw [hlength]
    refine hmost kept'.length ?_ ?_
    · simp
    · rw [List.reverse_append, List.take_left' (List.length_reverse), hreversed]
      exact hfits

/-- Nothing of a nonempty list of runs is kept exactly when the last one does not fit. -/
theorem keepEnd_eq_nil_iff {groups : List (List α)} (hne : ∀ group ∈ groups, group ≠ [])
    (budget : ℕ) : keepEnd size groups budget = [] ↔
      ∀ last ∈ groups.getLast?, budget < size last := by
  obtain ⟨dropped, kept, hgroups, hkept, hsum, hmost⟩ := keepEnd_spec size groups budget
  rw [hkept]
  constructor
  · intro hnil last hlast
    by_contra hfits
    obtain ⟨before, hbefore⟩ := List.getLast?_eq_some_iff.mp hlast
    have hone := hmost before [last] hbefore (by simpa using not_lt.mp hfits)
    obtain ⟨group, hgroup⟩ := List.exists_mem_of_length_pos (l := kept) hone
    have hmem : group ∈ groups := by
      rw [hgroups]
      exact List.mem_append_right _ hgroup
    exact hne group hmem (List.flatten_eq_nil_iff.mp hnil group hgroup)
  · intro hlast
    rcases List.eq_nil_or_concat kept with rfl | ⟨before, last, rfl⟩
    · rfl
    · have htoo := hlast last (by rw [hgroups, List.concat_eq_append]; simp)
      rw [List.concat_eq_append, List.map_append, List.sum_append] at hsum
      simp only [List.map_cons, List.map_nil, List.sum_singleton] at hsum
      omega

end Budget

/-! ### Pieces of a length -/

/-- A list cut into pieces of a length, the last one shorter when it must be. -/
def pieces (size : ℕ) (as : List α) : List (List α) :=
  (List.range ((as.length + size - 1) / size)).map fun i ↦ (as.drop (size * i)).take size

theorem flatten_map_range_take (size : ℕ) (as : List α) (count : ℕ) :
    ((List.range count).map fun i ↦ (as.drop (size * i)).take size).flatten =
      as.take (size * count) := by
  induction count with
  | zero => rw [Nat.mul_zero, List.take_zero, List.range_zero, List.map_nil, List.flatten_nil]
  | succ count ih =>
    rw [List.range_succ, List.map_append, List.flatten_append, ih, List.map_singleton,
      List.flatten_singleton, Nat.mul_succ, List.take_add]

/-- The pieces make up the list. -/
theorem flatten_pieces {size : ℕ} (hsize : 0 < size) (as : List α) :
    (pieces size as).flatten = as := by
  unfold pieces
  rw [flatten_map_range_take]
  refine List.take_of_length_le ?_
  have hdivision := Nat.div_add_mod (as.length + size - 1) size
  have hrest := Nat.mod_lt (as.length + size - 1) hsize
  omega

/-- No piece is empty or too long. -/
theorem mem_pieces {size : ℕ} {as piece : List α} (h : piece ∈ pieces size as) :
    piece ≠ [] ∧ piece.length ≤ size := by
  obtain ⟨i, hi, rfl⟩ := List.mem_map.mp h
  have hcount : i + 1 ≤ (as.length + size - 1) / size := List.mem_range.mp hi
  have hsize : 0 < size := by
    by_contra hzero
    rw [Nat.eq_zero_of_not_pos hzero, Nat.div_zero] at hcount
    exact Nat.not_succ_le_zero i hcount
  have hwithin : size * (i + 1) ≤ as.length + size - 1 :=
    (Nat.mul_le_mul_left size hcount).trans (Nat.mul_div_le _ _)
  rw [Nat.mul_succ] at hwithin
  constructor
  · rw [← List.length_pos_iff, List.length_take, List.length_drop]
    omega
  · exact List.length_take_le _ _

end FilmOS.Trimming
