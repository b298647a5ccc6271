import Mathlib.Algebra.Order.BigOperators.Group.List
import Mathlib.Data.List.Induction
import Mathlib.Data.List.Nodup

/-!
# Forming batches

Two ways of dividing a list into batches. `groupBy` collects the elements with one key into one
group, groups standing in the order of their first elements, as a Python dictionary of lists does.
`fill` is the greedy choice under a capacity: it takes the elements in order and skips those that
would overflow.

The groups together are a permutation of the list (`groupBy_perm`) and every member of a group has
its key (`key_of_mem_groupBy`). A filling is a sublist (`fill_sublist`) whose total is the sum of
its sizes (`total_fill`) and stays within the capacity (`total_fill_le`); it takes the first
element whenever that alone fits (`le_total_fill_cons`). Which elements it takes is decided from the
front: exactly those that fit together with the ones taken before (`fill_eq_filter`,
`mem_fill_iff`).
-/

set_option autoImplicit false
set_option relaxedAutoImplicit false

namespace FilmOS.Batching

/-! ### Groups -/

section Groups

variable {κ α : Type*} [DecidableEq κ]

/-- The groups after one more element with the given key. -/
def addToGroup (k : κ) (a : α) : List (κ × List α) → List (κ × List α)
  | [] => [(k, [a])]
  | group :: rest =>
    if group.1 = k then (k, group.2 ++ [a]) :: rest else group :: addToGroup k a rest

/-- The groups of a list by a key, in the order of their first elements. -/
def groupBy (key : α → κ) (as : List α) : List (κ × List α) :=
  as.foldl (fun groups a ↦ addToGroup (key a) a groups) []

theorem addToGroup_perm (k : κ) (a : α) (groups : List (κ × List α)) :
    ((addToGroup k a groups).flatMap Prod.snd).Perm (groups.flatMap Prod.snd ++ [a]) := by
  induction groups with
  | nil => exact List.Perm.refl _
  | cons group rest ih =>
    unfold addToGroup
    split_ifs
    · rw [List.flatMap_cons, List.flatMap_cons, List.append_assoc, List.append_assoc]
      exact List.Perm.append_left _ List.perm_append_comm
    · rw [List.flatMap_cons, List.flatMap_cons, List.append_assoc]
      exact List.Perm.append_left _ ih

theorem mem_addToGroup {k : κ} {a : α} {groups : List (κ × List α)} {group : κ × List α}
    (h : group ∈ addToGroup k a groups) :
    group ∈ groups ∨ group.1 = k ∧ (group.2 = [a] ∨ ∃ old ∈ groups, old.1 = k ∧
      group.2 = old.2 ++ [a]) := by
  induction groups with
  | nil =>
    rw [addToGroup, List.mem_singleton] at h
    subst h
    exact Or.inr ⟨rfl, Or.inl rfl⟩
  | cons head rest ih =>
    unfold addToGroup at h
    split_ifs at h with hkey
    · rcases List.mem_cons.mp h with rfl | h
      · exact Or.inr ⟨rfl, Or.inr ⟨head, List.mem_cons_self, hkey, rfl⟩⟩
      · exact Or.inl (List.mem_cons_of_mem _ h)
    · rcases List.mem_cons.mp h with rfl | h
      · exact Or.inl List.mem_cons_self
      · rcases ih h with h | ⟨hk, h⟩
        · exact Or.inl (List.mem_cons_of_mem _ h)
        · refine Or.inr ⟨hk, h.imp_right ?_⟩
          rintro ⟨old, hold, heq⟩
          exact ⟨old, List.mem_cons_of_mem _ hold, heq⟩

/-- Folding elements into groups only permutes them. -/
theorem foldl_addToGroup_perm (key : α → κ) (as : List α) (groups : List (κ × List α)) :
    ((as.foldl (fun groups a ↦ addToGroup (key a) a groups) groups).flatMap Prod.snd).Perm
      (groups.flatMap Prod.snd ++ as) := by
  induction as generalizing groups with
  | nil => simp
  | cons a as ih =>
    refine (ih (addToGroup (key a) a groups)).trans ?_
    rw [← List.singleton_append, ← List.append_assoc]
    exact List.Perm.append_right _ (addToGroup_perm (key a) a groups)

/-- The groups together are a permutation of the list. -/
theorem groupBy_perm (key : α → κ) (as : List α) :
    ((groupBy key as).flatMap Prod.snd).Perm as :=
  foldl_addToGroup_perm key as []

/-- Every member of a group has the key of the group. -/
theorem key_of_mem_groupBy {key : α → κ} {as : List α} {group : κ × List α}
    (hgroup : group ∈ groupBy key as) {a : α} (ha : a ∈ group.2) : key a = group.1 := by
  suffices h : ∀ (as : List α) (groups : List (κ × List α)),
      (∀ group ∈ groups, ∀ a ∈ group.2, key a = group.1) →
        ∀ group ∈ as.foldl (fun groups a ↦ addToGroup (key a) a groups) groups,
          ∀ a ∈ group.2, key a = group.1 by
    exact h as [] (by simp) group hgroup a ha
  intro as
  induction as with
  | nil => intro groups hgroups; exact hgroups
  | cons b as ih =>
    intro groups hgroups
    refine ih (addToGroup (key b) b groups) ?_
    intro group hmem a ha
    rcases mem_addToGroup hmem with hold | ⟨hkey, hmembers | ⟨old, hold, hk, hmembers⟩⟩
    · exact hgroups group hold a ha
    · rw [hmembers, List.mem_singleton] at ha
      rw [ha, hkey]
    · rw [hmembers, List.mem_append, List.mem_singleton] at ha
      rcases ha with ha | rfl
      · rw [hgroups old hold a ha, hk, hkey]
      · exact hkey.symm

end Groups

/-! ### Greedy filling -/

section Filling

variable {α β : Type*} [AddCommMonoid β] [LinearOrder β]

/-- One element of a greedy filling: skipped when it would overflow the capacity. -/
def fillStep (size : α → β) (capacity : β) (filled : List α × β) (a : α) : List α × β :=
  if capacity < filled.2 + size a then filled else (filled.1 ++ [a], filled.2 + size a)

/-- The greedy filling of a capacity: the elements taken and their total size. -/
def fill (size : α → β) (capacity : β) (as : List α) : List α × β :=
  as.foldl (fillStep size capacity) ([], 0)

/-- Folding elements into a filling appends a sublist of them and adds its sizes to the total,
which only grows within the capacity. -/
theorem foldl_fillStep (size : α → β) (capacity : β) (as : List α) (filled : List α × β) :
    ∃ taken : List α, taken.Sublist as ∧
      (as.foldl (fillStep size capacity) filled).1 = filled.1 ++ taken ∧
      (as.foldl (fillStep size capacity) filled).2 = filled.2 + (taken.map size).sum ∧
      (taken ≠ [] → (as.foldl (fillStep size capacity) filled).2 ≤ capacity) := by
  induction as generalizing filled with
  | nil => exact ⟨[], List.Sublist.slnil, by simp, by simp, by simp⟩
  | cons a as ih =>
    obtain ⟨taken, hsub, hlist, htotal, hle⟩ := ih (fillStep size capacity filled a)
    by_cases h : capacity < filled.2 + size a
    · have hskip : fillStep size capacity filled a = filled := if_pos h
      rw [hskip] at hlist htotal hle
      rw [List.foldl_cons, hskip]
      exact ⟨taken, hsub.cons a, hlist, htotal, hle⟩
    · have htake : fillStep size capacity filled a = (filled.1 ++ [a], filled.2 + size a) :=
        if_neg h
      rw [htake] at hlist htotal hle
      rw [List.foldl_cons, htake]
      refine ⟨a :: taken, hsub.cons_cons a, ?_, ?_, fun _ ↦ ?_⟩
      · rw [hlist, List.append_assoc, List.singleton_append]
      · rw [htotal, List.map_cons, List.sum_cons, add_assoc]
      · by_cases htaken : taken = []
        · rw [htotal, htaken]
          simpa using not_lt.mp h
        · exact hle htaken

/-- The elements taken by a filling form a sublist. -/
theorem fill_sublist (size : α → β) (capacity : β) (as : List α) :
    (fill size capacity as).1.Sublist as := by
  obtain ⟨taken, hsub, hlist, -, -⟩ := foldl_fillStep size capacity as ([], 0)
  unfold fill
  rw [hlist]
  exact hsub

/-- The total of a filling is the sum of the sizes taken. -/
theorem total_fill (size : α → β) (capacity : β) (as : List α) :
    (fill size capacity as).2 = ((fill size capacity as).1.map size).sum := by
  obtain ⟨taken, -, hlist, htotal, -⟩ := foldl_fillStep size capacity as ([], 0)
  unfold fill
  rw [hlist, htotal, zero_add, List.nil_append]

/-- The total of a filling that takes anything stays within the capacity. -/
theorem total_fill_le {size : α → β} {capacity : β} {as : List α}
    (h : (fill size capacity as).1 ≠ []) : (fill size capacity as).2 ≤ capacity := by
  obtain ⟨taken, -, hlist, -, hle⟩ := foldl_fillStep size capacity as ([], 0)
  unfold fill at h ⊢
  rw [hlist, List.nil_append] at h
  exact hle h

/-- A filling takes the first element whenever that alone fits, so with nonnegative sizes its total
is at least the size of that element. -/
theorem le_total_fill_cons [IsOrderedAddMonoid β] {size : α → β} {capacity : β} {a : α}
    {as : List α} (hfit : size a ≤ capacity) (hsize : ∀ b ∈ as, 0 ≤ size b) :
    a ∈ (fill size capacity (a :: as)).1 ∧ size a ≤ (fill size capacity (a :: as)).2 := by
  have hfirst : fillStep size capacity ([], 0) a = ([a], size a) := by
    unfold fillStep
    rw [zero_add, if_neg (not_lt.mpr hfit), List.nil_append]
  obtain ⟨taken, hsub, hlist, htotal, -⟩ := foldl_fillStep size capacity as ([a], size a)
  have hfill : fill size capacity (a :: as) =
      as.foldl (fillStep size capacity) ([a], size a) := by
    rw [fill, List.foldl_cons, hfirst]
  rw [hfill, hlist, htotal]
  refine ⟨by simp, le_add_of_nonneg_right (List.sum_nonneg ?_)⟩
  intro x hx
  obtain ⟨b, hb, rfl⟩ := List.mem_map.mp hx
  exact hsize b (hsub.subset hb)

theorem fill_append_singleton (size : α → β) (capacity : β) (as : List α) (a : α) :
    fill size capacity (as ++ [a]) = fillStep size capacity (fill size capacity as) a :=
  List.foldl_append

/-- A filling takes the elements of a kind, when these are the ones that fit together with those of
their kind before them. -/
theorem fill_eq_filter {size : α → β} {capacity : β} {as : List α} {p : α → Bool}
    (h : ∀ before a after, as = before ++ a :: after →
      (p a ↔ ((before.filter p).map size).sum + size a ≤ capacity)) :
    fill size capacity as = (as.filter p, ((as.filter p).map size).sum) := by
  induction as using List.reverseRecOn with
  | nil => rfl
  | append_singleton as a ih =>
    have hfill : fill size capacity as = (as.filter p, ((as.filter p).map size).sum) := by
      refine ih fun before b after has ↦ h before b (after ++ [a]) ?_
      rw [has, List.append_assoc, List.cons_append]
    have hlast := h as a [] rfl
    rw [fill_append_singleton, hfill, List.filter_append]
    unfold fillStep
    by_cases hp : p a
    · rw [if_neg (not_lt.mpr (hlast.mp hp)), List.filter_cons_of_pos hp]
      simp
    · rw [if_pos (not_le.mp fun hle ↦ hp (hlast.mpr hle)), List.filter_cons_of_neg hp]
      simp

/-- The members of a sublist, in a list without repetition, are the sublist. -/
theorem filter_mem_of_sublist [DecidableEq α] {taken as : List α} (hsub : taken.Sublist as)
    (hnodup : as.Nodup) : as.filter (· ∈ taken) = taken := by
  have hself : taken.filter (· ∈ taken) = taken := List.filter_eq_self.mpr (by simp)
  have hsub' : taken.Sublist (as.filter (· ∈ taken)) := by
    have hfilter := hsub.filter (· ∈ taken)
    rwa [hself] at hfilter
  refine (hsub'.eq_of_length ?_).symm
  have hperm := List.perm_ext_iff_of_nodup (hnodup.sublist hsub) (hnodup.filter (· ∈ taken))
  refine (hperm.mpr fun a ↦ ?_).length_eq
  rw [List.mem_filter, decide_eq_true_eq]
  exact ⟨fun ha ↦ ⟨hsub.subset ha, ha⟩, And.right⟩

/-- An element is taken exactly when it fits together with those taken before it. -/
theorem mem_fill_iff [DecidableEq α] (size : α → β) (capacity : β) {before after : List α} {a : α}
    (hnodup : (before ++ a :: after).Nodup) :
    a ∈ (fill size capacity (before ++ a :: after)).1 ↔
      ((before.filter (· ∈ (fill size capacity (before ++ a :: after)).1)).map size).sum + size a ≤
        capacity := by
  have hsplit : fill size capacity (before ++ a :: after) =
      after.foldl (fillStep size capacity)
        (fillStep size capacity (fill size capacity before) a) := by
    unfold fill
    rw [List.foldl_append, List.foldl_cons]
  obtain ⟨taken, hsub, hlist, -, -⟩ := foldl_fillStep size capacity after
    (fillStep size capacity (fill size capacity before) a)
  rw [← hsplit] at hlist
  have hbefore := fill_sublist size capacity before
  obtain ⟨hnodupBefore, hnodupRest, hdisjoint⟩ := List.nodup_append'.mp hnodup
  have htaken : ∀ b, b ∈ a :: taken → b ∉ before := by
    intro b hb hmem
    refine hdisjoint hmem ?_
    rcases List.mem_cons.mp hb with rfl | hb
    · exact List.mem_cons_self
    · exact List.mem_cons_of_mem _ (hsub.subset hb)
  have hnotTaken : a ∉ taken := fun ha ↦ (List.nodup_cons.mp hnodupRest).1 (hsub.subset ha)
  have hnotBefore : a ∉ (fill size capacity before).1 := fun ha ↦
    htaken a List.mem_cons_self (hbefore.subset ha)
  have hmem : ∀ b ∈ before, b ∈ (fill size capacity (before ++ a :: after)).1 ↔
      b ∈ (fill size capacity before).1 := by
    intro b hb
    have hne : b ≠ a := fun heq ↦ htaken a List.mem_cons_self (heq ▸ hb)
    have hout : b ∉ taken := fun hmem ↦ htaken b (List.mem_cons_of_mem _ hmem) hb
    rw [hlist]
    unfold fillStep
    split_ifs
    · simp [hout]
    · simp [hout, hne]
  have hfilter : before.filter (· ∈ (fill size capacity (before ++ a :: after)).1) =
      (fill size capacity before).1 := by
    refine Eq.trans ?_ (filter_mem_of_sublist hbefore hnodupBefore)
    exact List.filter_congr fun b hb ↦ decide_eq_decide.mpr (hmem b hb)
  rw [hfilter, ← total_fill, hlist]
  unfold fillStep
  split_ifs with hover
  · simp [hnotTaken, hnotBefore, hover]
  · simp [not_lt.mp hover]

end Filling

end FilmOS.Batching
