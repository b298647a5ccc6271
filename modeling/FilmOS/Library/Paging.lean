import Mathlib.Data.List.Basic
import Mathlib.Data.Nat.Basic
import Mathlib.Order.Lattice
import Mathlib.Tactic.Common

/-!
# Paging

A reader gets an ordered list page by page: each page says where the next one begins, and the last
one says nothing. `Followed` is the walk from one cursor to the last page. When every cursor stands
for a rest of the list, its page shows the beginning of that rest, and the cursor it gives stands
for what remains, then the walk ends and the pages put together are the list (`exists_followed`).

With keyset paging the cursor holds the key of the last row shown, and `filter_after_take` says that
the rows behind that key are what remains, provided that the keys are strictly increasing.

A log grows while it is read. Its rows are numbered without gaps (`Consecutive`), so the rows behind
a number are the log without its beginning (`Consecutive.filter_after`), whatever was appended in
between.
-/

set_option autoImplicit false
set_option relaxedAutoImplicit false

namespace FilmOS.Paging

variable {ρ κ γ π : Type*}

/-! ### Walking through the pages -/

/-- The pages fetched from a cursor on, each from the cursor that the one before it gives. -/
inductive Followed (fetch : Option γ → π → Prop) (next : π → Option γ) : Option γ → List π → Prop
  | last {cursor : Option γ} {page : π} (hfetch : fetch cursor page) (hnext : next page = none) :
    Followed fetch next cursor [page]
  | step {cursor : Option γ} {page : π} {after : γ} {pages : List π} (hfetch : fetch cursor page)
    (hnext : next page = some after) (hrest : Followed fetch next (some after) pages) :
    Followed fetch next cursor (page :: pages)

variable {fetch : Option γ → π → Prop} {next : π → Option γ}

/-- What a cursor gives decides the walk from it. -/
theorem Followed.unique (hfetch : ∀ cursor page page', fetch cursor page → fetch cursor page' →
    page = page') {cursor : Option γ} {pages pages' : List π}
    (h : Followed fetch next cursor pages) (h' : Followed fetch next cursor pages') :
    pages = pages' := by
  induction h generalizing pages' with
  | @last cursor page hpage hnext =>
    cases h' with
    | @last _ page' hpage' hnext' => rw [hfetch cursor page page' hpage hpage']
    | @step _ page' after _ hpage' hnext' _ =>
      rw [hfetch cursor page page' hpage hpage', hnext'] at hnext
      cases hnext
  | @step cursor page after pages hpage hnext hrest ih =>
    cases h' with
    | @last _ page' hpage' hnext' =>
      rw [hfetch cursor page page' hpage hpage', hnext'] at hnext
      cases hnext
    | @step _ page' after' pages' hpage' hnext' hrest' =>
      have hsame := hfetch cursor page page' hpage hpage'
      rw [hsame, hnext'] at hnext
      obtain rfl : after' = after := Option.some.inj hnext
      rw [hsame, ih hrest']

/-- Every page of a walk was fetched with some cursor. -/
theorem Followed.exists_fetch {cursor : Option γ} {pages : List π}
    (h : Followed fetch next cursor pages) : ∀ page ∈ pages, ∃ cursor, fetch cursor page := by
  induction h with
  | @last cursor page hfetch hnext =>
    intro other hother
    rw [List.mem_singleton.mp hother]
    exact ⟨cursor, hfetch⟩
  | @step cursor page after pages hfetch hnext hrest ih =>
    intro other hother
    rcases List.mem_cons.mp hother with rfl | hother
    · exact ⟨cursor, hfetch⟩
    · exact ih other hother

/-- A page shows the beginning of a rest, and gives a cursor for what remains of it if there is
any. -/
structure Shows (Denotes : Option γ → List ρ → Prop) (rowsOf : π → List ρ) (next : π → Option γ)
    (limit : ℕ) (rest : List ρ) (page : π) : Prop where
  rows : rowsOf page = rest.take limit
  ends : rest.length ≤ limit → next page = none
  continues : limit < rest.length → ∃ after, next page = some after ∧
    Denotes (some after) (rest.drop limit)

/-- When every page shows the beginning of the rest that its cursor stands for, the walk through the
pages ends, and it shows the whole rest. -/
theorem exists_followed {Denotes : Option γ → List ρ → Prop} {rowsOf : π → List ρ} {limit : ℕ}
    (hlimit : 0 < limit) (hshows : ∀ cursor rest, Denotes cursor rest →
      ∃ page, fetch cursor page ∧ Shows Denotes rowsOf next limit rest page)
    {cursor : Option γ} {rest : List ρ} (h : Denotes cursor rest) :
    ∃ pages, Followed fetch next cursor pages ∧ pages.flatMap rowsOf = rest ∧
      ∀ page ∈ pages, (rowsOf page).length ≤ limit := by
  -- A page that is not the last one shows at least one row, so the rest becomes shorter.
  induction hlength : rest.length using Nat.strong_induction_on generalizing cursor rest with
  | _ length ih =>
    obtain ⟨page, hpage, hshown⟩ := hshows cursor rest h
    have hshort : (rowsOf page).length ≤ limit := by
      rw [hshown.rows]
      exact List.length_take_le _ _
    rcases Nat.lt_or_ge limit rest.length with hmore | hfits
    · obtain ⟨after, hafter, hdenotes⟩ := hshown.continues hmore
      have hdrop : (rest.drop limit).length < length := by
        rw [List.length_drop]
        omega
      obtain ⟨pages, hfollowed, hrows, hpages⟩ := ih _ hdrop hdenotes rfl
      refine ⟨page :: pages, .step hpage hafter hfollowed, ?_, ?_⟩
      · rw [List.flatMap_cons, hshown.rows, hrows, List.take_append_drop]
      · intro other hother
        rcases List.mem_cons.mp hother with rfl | hother
        · exact hshort
        · exact hpages other hother
    · refine ⟨[page], .last hpage (hshown.ends hfits), ?_, ?_⟩
      · rw [List.flatMap_cons, List.flatMap_nil, List.append_nil, hshown.rows,
          List.take_of_length_le hfits]
      · intro other hother
        rw [List.mem_singleton.mp hother]
        exact hshort

/-! ### Keyset cursors -/

section Keyset

variable [LinearOrder κ] {key : ρ → κ}

/-- The rows behind a row of a strictly increasing list. -/
theorem filter_after {before after : List ρ} {row : ρ}
    (h : (before ++ row :: after).Pairwise (fun a b ↦ key a < key b)) :
    (before ++ row :: after).filter (fun other ↦ key row < key other) = after := by
  obtain ⟨-, hafter, hbefore⟩ := List.pairwise_append.mp h
  have hrow := (List.pairwise_cons.mp hafter).1
  rw [List.filter_append, List.filter_cons_of_neg (by simp), List.filter_eq_nil_iff.mpr,
    List.filter_eq_self.mpr, List.nil_append]
  · intro other hother
    exact decide_eq_true (hrow other hother)
  · intro other hother
    rw [decide_eq_true_eq, not_lt]
    exact (hbefore other hother row List.mem_cons_self).le

/-- The rows behind the last row that a page shows of a rest are what remains of the rest. -/
theorem filter_after_take {sorted before rest : List ρ} (hsorted : sorted = before ++ rest)
    (h : sorted.Pairwise (fun a b ↦ key a < key b)) {limit : ℕ} {row : ρ}
    (hrow : (rest.take limit).getLast? = some row) :
    sorted.filter (fun other ↦ key row < key other) = rest.drop limit := by
  obtain ⟨shown, hshown⟩ := List.getLast?_eq_some_iff.mp hrow
  have hsplit : sorted = (before ++ shown) ++ row :: rest.drop limit := by
    calc
      sorted = before ++ (rest.take limit ++ rest.drop limit) := by
        rw [List.take_append_drop, hsorted]
      _ = (before ++ shown) ++ row :: rest.drop limit := by
        rw [hshown, List.append_assoc, List.append_assoc, List.singleton_append]
  rw [hsplit] at h ⊢
  exact filter_after h

end Keyset

/-! ### Logs -/

section Log

variable {key : ρ → ℕ} {rows more : List ρ} {after : ℕ}

/-- The rows are numbered without gaps behind a number. -/
def Consecutive (key : ρ → ℕ) (after : ℕ) (rows : List ρ) : Prop :=
  rows.map key = List.range' (after + 1) rows.length

theorem Consecutive.nil (key : ρ → ℕ) (after : ℕ) : Consecutive key after [] := rfl

theorem Consecutive.append (h : Consecutive key after rows)
    (hmore : Consecutive key (after + rows.length) more) :
    Consecutive key after (rows ++ more) := by
  show (rows ++ more).map key = _
  rw [List.map_append, h, hmore, List.length_append, ← List.range'_append_1]
  congr 2
  omega

theorem Consecutive.take (h : Consecutive key after rows) (count : ℕ) :
    Consecutive key after (rows.take count) := by
  show (rows.take count).map key = _
  rw [List.map_take, h, List.length_take]
  rcases Nat.le_total rows.length count with hle | hle
  · rw [List.take_range'_of_length_le hle, Nat.min_eq_right hle]
  · rw [List.take_range'_of_length_ge hle, Nat.min_eq_left hle]

theorem Consecutive.drop (h : Consecutive key after rows) (count : ℕ) :
    Consecutive key (after + count) (rows.drop count) := by
  show (rows.drop count).map key = _
  rw [List.map_drop, h, List.drop_range', List.length_drop, Nat.mul_one]
  congr 1
  omega

/-- The number that the last row leaves the reader at. -/
theorem Consecutive.last (h : Consecutive key after rows) :
    (rows.getLast?.map key).getD after = after + rows.length := by
  rw [← List.getLast?_map, h]
  cases rows.length with
  | zero => rfl
  | succ count =>
    rw [List.range'_concat, List.getLast?_concat, Option.getD_some]
    omega

theorem Consecutive.pairwise (h : Consecutive key after rows) :
    rows.Pairwise (fun a b ↦ key a < key b) := by
  rw [← List.pairwise_map (R := (· < ·)), h]
  exact List.pairwise_lt_range'

theorem Consecutive.mem (h : Consecutive key after rows) {row : ρ} (hrow : row ∈ rows) :
    after < key row ∧ key row ≤ after + rows.length := by
  have hkey : key row ∈ rows.map key := List.mem_map_of_mem hrow
  rw [h, List.mem_range'_1] at hkey
  omega

/-- The rows of a log behind a number are the log without its beginning. -/
theorem Consecutive.filter_after (h : Consecutive key 0 rows) (cursor : ℕ) :
    rows.filter (fun row ↦ cursor < key row) = rows.drop cursor := by
  have hfirst : ∀ row ∈ rows.take cursor, ¬ cursor < key row := by
    intro row hrow
    have hle := ((h.take cursor).mem hrow).2
    rw [List.length_take] at hle
    omega
  have hrest : ∀ row ∈ rows.drop cursor, cursor < key row := by
    intro row hrow
    have hlt := ((h.drop cursor).mem hrow).1
    omega
  calc
    rows.filter (fun row ↦ cursor < key row)
        = (rows.take cursor ++ rows.drop cursor).filter (fun row ↦ cursor < key row) := by
      rw [List.take_append_drop]
    _ = rows.drop cursor := by
      rw [List.filter_append, List.filter_eq_nil_iff.mpr, List.filter_eq_self.mpr, List.nil_append]
      · exact fun row hrow ↦ decide_eq_true (hrest row hrow)
      · exact fun row hrow ↦ by simpa using hfirst row hrow

end Log

end FilmOS.Paging
