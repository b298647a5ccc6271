import Mathlib.Data.List.Nodup
import Mathlib.Data.List.Pairwise

/-!
# Tables with a primary key

A table is a list of rows whose primary keys are pairwise distinct; the order of the list is the
insertion order, on which nothing but the tie-breaking of unordered queries depends. Distinctness is
a field of the structure, so no operation can produce two rows with one key: `insert?` refuses a
duplicate as the database does, and `mapRows` and `update` take a change of rows that keeps every
key. `find?_eq_some_iff` is the reading lemma, `insert?_eq_some_iff` and `mem_update` the
writing lemmas.
-/

set_option autoImplicit false
set_option relaxedAutoImplicit false

namespace FilmOS

/-- Rows that carry their primary key. -/
class Keyed (κ : outParam Type) (ρ : Type) where
  key : ρ → κ

/-- A list of rows with pairwise distinct primary keys. -/
structure Table (ρ : Type) {κ : Type} [Keyed κ ρ] where
  rows : List ρ
  nodup : (rows.map Keyed.key).Nodup

namespace Table

variable {κ ρ : Type} [DecidableEq κ] [Keyed κ ρ]

open Keyed

/-- The table without rows. -/
def empty : Table ρ := ⟨[], List.nodup_nil⟩

/-- The primary keys in use. -/
def keys (t : Table ρ) : List κ := t.rows.map key

/-- The row with a given primary key. -/
def find? (t : Table ρ) (k : κ) : Option ρ := t.rows.find? (fun r ↦ key r = k)

/-- Insertion at the end, refused when the key is in use. -/
def insert? (t : Table ρ) (r : ρ) : Option (Table ρ) :=
  if h : key r ∈ t.keys then none
  else some ⟨t.rows ++ [r], by
    rw [List.map_append, List.map_singleton]
    exact t.nodup.append (List.nodup_singleton _) (by simpa [keys] using h)⟩

/-- A change of every row that keeps the keys. -/
def mapRows (t : Table ρ) (f : ρ → ρ) (hf : ∀ r, key (f r) = key r) : Table ρ :=
  ⟨t.rows.map f, by
    rw [List.map_map]
    have hkey : key ∘ f = (key : ρ → κ) := funext hf
    rw [hkey]
    exact t.nodup⟩

/-- A change of the row with a given key, which keeps the key. -/
def update (t : Table ρ) (k : κ) (f : ρ → ρ) (hf : ∀ r, key (f r) = key r := by intro _; rfl) :
    Table ρ :=
  t.mapRows (fun r ↦ if key r = k then f r else r) (fun r ↦ by
    by_cases h : key r = k
    · simp only [h, if_true, hf]
    · simp only [h, if_false])

/-- The rows that satisfy a condition. -/
def filter (t : Table ρ) (p : ρ → Bool) : Table ρ :=
  ⟨t.rows.filter p, t.nodup.sublist (List.filter_sublist.map key)⟩

/-- Insertion, or replacement of the row with the same key in its place. -/
def put (t : Table ρ) (r : ρ) : Table ρ :=
  match t.insert? r with
  | some t' => t'
  | none => t.mapRows (fun s ↦ if key s = key r then r else s) (fun s ↦ by
      by_cases h : key s = key r
      · simp only [h, if_true]
      · simp only [h, if_false])

/-- Removal of the row with a given key, if any. -/
def erase (t : Table ρ) (k : κ) : Table ρ := t.filter (fun r ↦ key r ≠ k)

/-! ### Reading -/

omit [DecidableEq κ] in
theorem eq_of_key_eq (t : Table ρ) {r r' : ρ} (hr : r ∈ t.rows) (hr' : r' ∈ t.rows)
    (h : key r = key r') : r = r' :=
  List.inj_on_of_nodup_map t.nodup hr hr' h

theorem find?_eq_some_iff (t : Table ρ) {k : κ} {r : ρ} :
    t.find? k = some r ↔ r ∈ t.rows ∧ key r = k := by
  constructor
  · intro h
    exact ⟨List.mem_of_find?_eq_some h, by simpa using List.find?_some h⟩
  · rintro ⟨hmem, hkey⟩
    cases h : t.find? k with
    | none =>
      have hnone := List.find?_eq_none.mp h r hmem
      simp [hkey] at hnone
    | some r' =>
      have hmem' := List.mem_of_find?_eq_some h
      have hkey' : key r' = k := by simpa using List.find?_some h
      rw [t.eq_of_key_eq hmem' hmem (hkey'.trans hkey.symm)]

theorem find?_of_mem (t : Table ρ) {k : κ} {r : ρ} (hmem : r ∈ t.rows) (hkey : key r = k) :
    t.find? k = some r :=
  (t.find?_eq_some_iff).mpr ⟨hmem, hkey⟩

theorem find?_eq_none_iff (t : Table ρ) {k : κ} :
    t.find? k = none ↔ ∀ r ∈ t.rows, key r ≠ k := by
  simp [find?, List.find?_eq_none]

omit [DecidableEq κ] in
theorem mem_keys (t : Table ρ) {k : κ} : k ∈ t.keys ↔ ∃ r ∈ t.rows, key r = k := by
  simp [keys]

/-! ### Writing -/

omit [DecidableEq κ] in
@[simp] theorem rows_mapRows (t : Table ρ) (f : ρ → ρ) (hf : ∀ r, key (f r) = key r) :
    (t.mapRows f hf).rows = t.rows.map f := rfl

omit [DecidableEq κ] in
@[simp] theorem rows_filter (t : Table ρ) (p : ρ → Bool) :
    (t.filter p).rows = t.rows.filter p := rfl

omit [DecidableEq κ] in
@[simp] theorem rows_empty : (empty : Table ρ).rows = [] := rfl

theorem rows_update (t : Table ρ) (k : κ) (f : ρ → ρ) (hf : ∀ r, key (f r) = key r) :
    (t.update k f hf).rows = t.rows.map (fun r ↦ if key r = k then f r else r) := rfl

theorem insert?_eq_some_iff (t t' : Table ρ) (r : ρ) :
    t.insert? r = some t' ↔ key r ∉ t.keys ∧ t'.rows = t.rows ++ [r] := by
  unfold insert?
  split_ifs with h
  · simp [h]
  · constructor
    · rintro ⟨⟩
      exact ⟨h, rfl⟩
    · rintro ⟨-, hrows⟩
      obtain ⟨rows, hnodup⟩ := t'
      subst hrows
      rfl

theorem exists_insert?_of_notMem {t : Table ρ} {r : ρ} (h : key r ∉ t.keys) :
    ∃ t', t.insert? r = some t' ∧ t'.rows = t.rows ++ [r] := by
  unfold insert?
  rw [dif_neg h]
  exact ⟨_, rfl, rfl⟩

theorem find?_mapRows (t : Table ρ) (f : ρ → ρ) (hf : ∀ r, key (f r) = key r) (k : κ) :
    (t.mapRows f hf).find? k = (t.find? k).map f := by
  unfold find?
  rw [rows_mapRows, List.find?_map]
  congr 2
  funext r
  simp [hf]

theorem find?_insert? {t t' : Table ρ} {r : ρ} (h : t.insert? r = some t') (k : κ) :
    t'.find? k = if key r = k then some r else t.find? k := by
  obtain ⟨hkey, hrows⟩ := (insert?_eq_some_iff t t' r).mp h
  unfold find?
  rw [hrows, List.find?_append]
  split_ifs with hk
  · have hnone : t.rows.find? (fun r ↦ key r = k) = none := by
      rw [List.find?_eq_none]
      intro r' hr'
      rw [decide_eq_true_eq, ← hk]
      exact fun heq ↦ hkey ((t.mem_keys).mpr ⟨r', hr', heq⟩)
    rw [hnone]
    simp [hk]
  · simp [hk]

theorem find?_put (t : Table ρ) (r : ρ) (k : κ) :
    (t.put r).find? k = if key r = k then some r else t.find? k := by
  unfold put
  split
  · next t' h => exact find?_insert? h k
  · next h =>
    have hmem : key r ∈ t.keys := by
      by_contra hkey
      unfold insert? at h
      rw [dif_neg hkey] at h
      cases h
    obtain ⟨old, hold, hkey⟩ := (t.mem_keys).mp hmem
    rw [find?_mapRows]
    split_ifs with hk
    · have hfind : t.find? k = some old := (t.find?_eq_some_iff).mpr ⟨hold, hkey.trans hk⟩
      rw [hfind]
      simp [hkey]
    · cases hfind : t.find? k with
      | none => rfl
      | some r' =>
        have hne : key r' ≠ key r := by
          rw [((t.find?_eq_some_iff).mp hfind).2]
          exact fun heq ↦ hk heq.symm
        simp [hne]

/-- The rows after a put: the row itself, and the others as they were. -/
theorem mem_put (t : Table ρ) {r r' : ρ} :
    r' ∈ (t.put r).rows ↔ r' = r ∨ (r' ∈ t.rows ∧ key r' ≠ key r) := by
  rw [← and_iff_left (a := r' ∈ (t.put r).rows) (rfl : key r' = key r'), ← find?_eq_some_iff,
    find?_put]
  split_ifs with h
  · constructor
    · rintro ⟨⟩
      exact Or.inl rfl
    · rintro (rfl | ⟨-, hne⟩)
      · rfl
      · exact absurd h.symm hne
  · rw [find?_eq_some_iff]
    constructor
    · rintro ⟨hmem, -⟩
      exact Or.inr ⟨hmem, fun heq ↦ h heq.symm⟩
    · rintro (rfl | ⟨hmem, -⟩)
      · exact absurd rfl h
      · exact ⟨hmem, rfl⟩

theorem find?_filter (t : Table ρ) (p : ρ → Bool) (k : κ) :
    (t.filter p).find? k = (t.find? k).filter p := by
  cases h : t.find? k with
  | none =>
    rw [find?_eq_none_iff] at h
    rw [Option.filter_none, find?_eq_none_iff]
    intro r hr
    exact h r (List.mem_filter.mp hr).1
  | some r =>
    obtain ⟨hmem, hkey⟩ := (t.find?_eq_some_iff).mp h
    cases hp : p r with
    | true =>
      rw [Option.filter_some_pos hp, find?_eq_some_iff]
      exact ⟨List.mem_filter.mpr ⟨hmem, hp⟩, hkey⟩
    | false =>
      rw [Option.filter_some_neg hp, find?_eq_none_iff]
      intro r' hr' hkey'
      obtain ⟨hmem', hp'⟩ := List.mem_filter.mp hr'
      rw [t.eq_of_key_eq hmem' hmem (hkey'.trans hkey.symm), hp] at hp'
      cases hp'

theorem mem_update (t : Table ρ) {k : κ} {f : ρ → ρ} {hf : ∀ r, key (f r) = key r} {r' : ρ} :
    r' ∈ (t.update k f hf).rows ↔ ∃ r ∈ t.rows, (if key r = k then f r else r) = r' := by
  simp [rows_update]

theorem find?_update (t : Table ρ) (k : κ) (f : ρ → ρ) (hf : ∀ r, key (f r) = key r) (k' : κ) :
    (t.update k f hf).find? k' = (t.find? k').map (fun r ↦ if key r = k then f r else r) :=
  find?_mapRows t _ _ k'

theorem find?_update_self (t : Table ρ) (k : κ) (f : ρ → ρ) (hf : ∀ r, key (f r) = key r) :
    (t.update k f hf).find? k = (t.find? k).map f := by
  rw [find?_update]
  cases h : t.find? k with
  | none => rfl
  | some r => simp [((t.find?_eq_some_iff).mp h).2]

@[simp] theorem keys_update (t : Table ρ) (k : κ) (f : ρ → ρ) (hf : ∀ r, key (f r) = key r) :
    (t.update k f hf).keys = t.keys := by
  unfold keys
  rw [rows_update, List.map_map]
  refine List.map_congr_left fun r _ ↦ ?_
  by_cases h : key r = k <;> simp [h, hf]

omit [DecidableEq κ] in
@[simp] theorem keys_mapRows (t : Table ρ) (f : ρ → ρ) (hf : ∀ r, key (f r) = key r) :
    (t.mapRows f hf).keys = t.keys := by
  unfold keys
  rw [rows_mapRows, List.map_map]
  exact List.map_congr_left fun r _ ↦ hf r

/-- A column that an update keeps. -/
theorem map_update {α : Type} (g : ρ → α) (t : Table ρ) (k : κ) {f : ρ → ρ}
    (hf : ∀ r, key (f r) = key r) (hg : ∀ r, g (f r) = g r) :
    (t.update k f hf).rows.map g = t.rows.map g := by
  rw [rows_update, List.map_map]
  refine List.map_congr_left fun r _ ↦ ?_
  by_cases h : key r = k <;> simp [h, hg]

/-- What is listed about the rows, when an update keeps it. -/
theorem filterMap_update {α : Type} (g : ρ → Option α) (t : Table ρ) (k : κ) {f : ρ → ρ}
    (hf : ∀ r, key (f r) = key r) (hg : ∀ r, g (f r) = g r) :
    (t.update k f hf).rows.filterMap g = t.rows.filterMap g := by
  rw [rows_update, List.filterMap_map]
  refine List.filterMap_congr fun r _ ↦ ?_
  by_cases h : key r = k <;> simp [h, hg]

omit [DecidableEq κ] in
@[ext] theorem ext {t t' : Table ρ} (h : t.rows = t'.rows) : t = t' := by
  obtain ⟨rows, hnodup⟩ := t
  obtain ⟨rows', hnodup'⟩ := t'
  subst h
  rfl

instance [DecidableEq ρ] : DecidableEq (Table ρ) := fun t t' ↦
  decidable_of_iff (t.rows = t'.rows) ⟨Table.ext, congrArg Table.rows⟩

end Table

instance {ν : Type} : Keyed String (String × ν) := ⟨Prod.fst⟩

/-- A Python dictionary with text keys: a table of key-value pairs in insertion order. -/
abbrev Dict (ν : Type) := Table (String × ν)

namespace Dict

variable {ν : Type}

/-- `dict.get(key)`. -/
def get? (d : Dict ν) (k : String) : Option ν := (d.find? k).map Prod.snd

/-- `dict[key] = value`: in place when the key exists, at the end otherwise. -/
def set (d : Dict ν) (k : String) (v : ν) : Dict ν := d.put (k, v)

/-- The dictionary without the given keys. -/
def without (d : Dict ν) (keys : List String) : Dict ν := d.filter (fun entry ↦ entry.1 ∉ keys)

/-- `d.update(items)`: the items set one after another. -/
def update (d : Dict ν) (items : List (String × ν)) : Dict ν :=
  items.foldl (fun d item ↦ d.set item.1 item.2) d

/-- The dictionary literal with the given items, a later item replacing an earlier one. -/
def ofList (items : List (String × ν)) : Dict ν := Dict.update Table.empty items

/-- Equality of dictionaries: the same value under every key, in whatever order. -/
def Same (d d' : Dict ν) : Prop := ∀ k, d.get? k = d'.get? k

theorem get?_eq_none_iff (d : Dict ν) (k : String) : d.get? k = none ↔ k ∉ d.keys := by
  unfold get?
  rw [Option.map_eq_none_iff, Table.find?_eq_none_iff, Table.mem_keys]
  simp only [not_exists, not_and]

instance [DecidableEq ν] (d d' : Dict ν) : Decidable (Same d d') :=
  decidable_of_iff (∀ k ∈ d.keys ++ d'.keys, d.get? k = d'.get? k) (by
    refine ⟨fun h k ↦ ?_, fun h k _ ↦ h k⟩
    by_cases hk : k ∈ d.keys ++ d'.keys
    · exact h k hk
    · rw [List.mem_append, not_or] at hk
      rw [(get?_eq_none_iff d k).mpr hk.1, (get?_eq_none_iff d' k).mpr hk.2])

theorem rows_set_of_notMem {d : Dict ν} {k : String} (v : ν) (h : k ∉ d.keys) :
    (d.set k v).rows = d.rows ++ [(k, v)] := by
  have hnew : Keyed.key (k, v) ∉ d.keys := h
  obtain ⟨d', hd', hrows⟩ := Table.exists_insert?_of_notMem hnew
  unfold set Table.put
  rw [hd']
  exact hrows

theorem get?_set (d : Dict ν) (k k' : String) (v : ν) :
    (d.set k v).get? k' = if k = k' then some v else d.get? k' := by
  unfold get? set
  rw [Table.find?_put]
  change Option.map Prod.snd (if k = k' then _ else _) = _
  split_ifs <;> rfl

theorem mem_set {d : Dict ν} {k : String} {v : ν} {entry : String × ν} :
    entry ∈ (d.set k v).rows ↔ entry = (k, v) ∨ entry ∈ d.rows ∧ entry.1 ≠ k :=
  Table.mem_put d

theorem length_set_le (d : Dict ν) (k : String) (v : ν) :
    (d.set k v).rows.length ≤ d.rows.length + 1 := by
  by_cases hmem : k ∈ d.keys
  · have hinsert : d.insert? (k, v) = none := by
      unfold Table.insert?
      exact dif_pos hmem
    unfold set Table.put
    rw [hinsert]
    change (d.rows.map _).length ≤ _
    rw [List.length_map]
    exact Nat.le_succ _
  · have hrows := congrArg List.length (rows_set_of_notMem v hmem)
    rw [List.length_append, List.length_singleton] at hrows
    exact Nat.le_of_eq hrows

theorem mem_update_items {items : List (String × ν)} {d : Dict ν} {entry : String × ν}
    (h : entry ∈ (d.update items).rows) : entry ∈ items ∨ entry ∈ d.rows := by
  induction items generalizing d with
  | nil => exact .inr h
  | cons item items ih =>
    rcases ih (d := d.set item.1 item.2) h with h | h
    · exact .inl (List.mem_cons_of_mem _ h)
    · rcases mem_set.mp h with rfl | ⟨h, -⟩
      · exact .inl List.mem_cons_self
      · exact .inr h

/-- The entries of a dictionary literal are among its items. -/
theorem mem_of_mem_ofList {items : List (String × ν)} {entry : String × ν}
    (h : entry ∈ (ofList items).rows) : entry ∈ items :=
  (mem_update_items h).resolve_right List.not_mem_nil

theorem length_update_le (items : List (String × ν)) (d : Dict ν) :
    (d.update items).rows.length ≤ d.rows.length + items.length := by
  induction items generalizing d with
  | nil => exact Nat.le_refl _
  | cons item items ih =>
    have hset := length_set_le d item.1 item.2
    have hrest := ih (d.set item.1 item.2)
    rw [List.length_cons]
    change ((d.set item.1 item.2).update items).rows.length ≤ _
    omega

theorem length_ofList_le (items : List (String × ν)) :
    (ofList items).rows.length ≤ items.length := by
  have h := length_update_le items (Table.empty : Dict ν)
  rwa [Table.rows_empty, List.length_nil, Nat.zero_add] at h

/-- Setting a key keeps the order of the keys; a new one comes last. -/
theorem keys_set (d : Dict ν) (k : String) (v : ν) :
    (d.set k v).keys = if k ∈ d.keys then d.keys else d.keys ++ [k] := by
  by_cases hmem : k ∈ d.keys
  · have hinsert : d.insert? (k, v) = none := dif_pos hmem
    rw [if_pos hmem]
    unfold set Table.put
    rw [hinsert]
    exact Table.keys_mapRows d _ _
  · rw [if_neg hmem]
    unfold Table.keys
    rw [rows_set_of_notMem v hmem, List.map_append]
    rfl

/-- Items with distinct keys add an entry for every key that is new. -/
theorem length_update {items : List (String × ν)} (hnodup : (items.map Prod.fst).Nodup)
    (d : Dict ν) : (d.update items).rows.length =
      d.rows.length + ((items.map Prod.fst).filter (fun k ↦ k ∉ d.keys)).length := by
  induction items generalizing d with
  | nil => rfl
  | cons item items ih =>
    obtain ⟨key, value⟩ := item
    rw [List.map_cons, List.nodup_cons] at hnodup
    change ((d.set key value).update items).rows.length = _
    have hlength : ∀ d' : Dict ν, d'.rows.length = d'.keys.length :=
      fun _ ↦ (List.length_map _).symm
    rw [ih hnodup.2, hlength (d.set key value), keys_set, List.map_cons, hlength d]
    by_cases hmem : key ∈ d.keys
    · rw [if_pos hmem, List.filter_cons_of_neg (by simpa using hmem)]
    · have hothers : (items.map Prod.fst).filter (fun k ↦ k ∉ d.keys ++ [key]) =
          (items.map Prod.fst).filter (fun k ↦ k ∉ d.keys) := by
        refine List.filter_congr fun k hk ↦ ?_
        have hne : k ≠ key := fun h ↦ hnodup.1 (h ▸ hk)
        simp [hne]
      rw [if_neg hmem, hothers, List.filter_cons_of_pos (by simpa using hmem), List.length_append,
        List.length_singleton, List.length_cons]
      omega

/-- Items with distinct keys, none of them in use, come after the entries that are there. -/
theorem rows_update_of_disjoint {items : List (String × ν)} (hnodup : (items.map Prod.fst).Nodup)
    {d : Dict ν} (hdisjoint : ∀ k ∈ items.map Prod.fst, k ∉ d.keys) :
    (d.update items).rows = d.rows ++ items := by
  induction items generalizing d with
  | nil => exact (List.append_nil _).symm
  | cons item items ih =>
    obtain ⟨key, value⟩ := item
    rw [List.map_cons, List.nodup_cons] at hnodup
    have hkey : key ∉ d.keys := hdisjoint key List.mem_cons_self
    change ((d.set key value).update items).rows = _
    rw [ih hnodup.2, rows_set_of_notMem value hkey, List.append_assoc]
    · rfl
    · intro k hk
      rw [keys_set, if_neg hkey, List.mem_append, List.mem_singleton, not_or]
      exact ⟨hdisjoint k (List.mem_cons_of_mem _ hk), fun h ↦ hnodup.1 (h ▸ hk)⟩

/-- A literal with distinct keys is its items. -/
theorem rows_ofList {items : List (String × ν)} (hnodup : (items.map Prod.fst).Nodup) :
    (ofList items).rows = items :=
  rows_update_of_disjoint hnodup fun _ _ ↦ List.not_mem_nil

/-- Items with distinct keys, once set, are found under their keys, and the rest is as before. -/
theorem get?_update {items : List (String × ν)} (hnodup : (items.map Prod.fst).Nodup)
    (d : Dict ν) (k : String) : (d.update items).get? k = (items.lookup k).or (d.get? k) := by
  induction items generalizing d with
  | nil => rfl
  | cons item items ih =>
    obtain ⟨key, value⟩ := item
    rw [List.map_cons, List.nodup_cons] at hnodup
    change ((d.set key value).update items).get? k = _
    rw [ih hnodup.2, get?_set, List.lookup_cons]
    by_cases hkey : k = key
    · subst hkey
      have hnone : items.lookup k = none := by
        rw [List.lookup_eq_none_iff]
        intro item hitem
        rw [bne_iff_ne]
        intro heq
        have hmem : item.1 ∈ items.map Prod.fst := List.mem_map_of_mem hitem
        rw [← heq] at hmem
        exact hnodup.1 hmem
      simp [hnone]
    · have hbeq : (k == key) = false := by simpa using hkey
      rw [hbeq, if_neg (Ne.symm hkey)]

/-- A key that no item names is found as before. -/
theorem get?_update_of_notMem {items : List (String × ν)} {k : String}
    (h : k ∉ items.map Prod.fst) (d : Dict ν) : (d.update items).get? k = d.get? k := by
  induction items generalizing d with
  | nil => rfl
  | cons item items ih =>
    rw [List.map_cons, List.mem_cons, not_or] at h
    change ((d.set item.1 item.2).update items).get? k = _
    rw [ih h.2, get?_set, if_neg (Ne.symm h.1)]

/-- Looking up in items made from a list is finding in the list. -/
theorem lookup_map {α : Type} (f : α → String) (g : α → ν) (l : List α) (k : String) :
    (l.map (fun a ↦ (f a, g a))).lookup k = (l.find? (fun a ↦ f a = k)).map g := by
  induction l with
  | nil => rfl
  | cons a l ih =>
    rw [List.map_cons, List.lookup_cons, List.find?_cons]
    by_cases hkey : f a = k
    · simp [hkey]
    · have hbeq : (k == f a) = false := by simpa using Ne.symm hkey
      rw [hbeq, ih]
      simp [hkey]

end Dict

end FilmOS
