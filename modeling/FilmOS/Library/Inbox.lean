import Mathlib.Data.List.Nodup
import Mathlib.Logic.Relation

/-!
# An inbox of accepted requests

Every accepted request is kept as a letter under the key that its sender gave it and an identifier
of its own, together with one reply. Nothing is ever taken out. So a request that is found under its
key is found again after any number of further acceptances, and so is its reply:
`Moves.find?_letter` and `Moves.filter_replies`.
-/

set_option autoImplicit false
set_option relaxedAutoImplicit false

namespace FilmOS

/-- An accepted request: the key of its sender, its identifier, and what it says. -/
structure Letter (κ ι α : Type) where
  key : κ
  id : ι
  body : α
deriving DecidableEq

/-- The letters, and the replies with the identifiers of the letters they answer. -/
structure Inbox (κ ι α β : Type) where
  letters : List (Letter κ ι α)
  replies : List (ι × β)

variable {κ ι α β : Type}

namespace Inbox

/-- A further letter and its reply. -/
def accept (letter : Letter κ ι α) (reply : β) (inbox : Inbox κ ι α β) : Inbox κ ι α β where
  letters := inbox.letters ++ [letter]
  replies := inbox.replies ++ [(letter.id, reply)]

/-- What may happen to an inbox: a letter with a new key and a fresh identifier is accepted. -/
inductive Move (fresh : ι → Prop) : Inbox κ ι α β → Inbox κ ι α β → Prop
  | accept (inbox : Inbox κ ι α β) (letter : Letter κ ι α) (reply : β)
      (hkey : letter.key ∉ inbox.letters.map Letter.key) (hfresh : fresh letter.id)
      (hid : letter.id ∉ inbox.letters.map Letter.id) : Move fresh inbox (inbox.accept letter reply)

/-- Any number of moves. -/
abbrev Moves (fresh : ι → Prop) : Inbox κ ι α β → Inbox κ ι α β → Prop :=
  Relation.ReflTransGen (Move fresh)

/-- Keys and identifiers are distinct, and every letter has one reply. -/
structure Sound (inbox : Inbox κ ι α β) : Prop where
  keys_nodup : (inbox.letters.map Letter.key).Nodup
  ids_nodup : (inbox.letters.map Letter.id).Nodup
  replies_ids : inbox.replies.map Prod.fst = inbox.letters.map Letter.id

variable {fresh fresh' : ι → Prop} {inbox inbox' : Inbox κ ι α β}

theorem Moves.mono (hfresh : ∀ id, fresh id → fresh' id) (h : Moves fresh inbox inbox') :
    Moves fresh' inbox inbox' := by
  refine Relation.ReflTransGen.mono ?_ _ _ h
  intro a b hmove
  cases hmove with
  | accept letter reply hkey hid hnew => exact .accept a letter reply hkey (hfresh _ hid) hnew

theorem Sound.empty : Sound (⟨[], []⟩ : Inbox κ ι α β) := by
  constructor <;> simp

/-- Every move keeps the invariant. -/
theorem Sound.move (hmove : Move fresh inbox inbox') (h : inbox.Sound) : inbox'.Sound := by
  cases hmove with
  | accept letter reply hkey hfresh hid =>
    unfold Inbox.accept
    constructor
    · rw [List.map_append]
      exact h.keys_nodup.append (List.nodup_singleton _) (by simpa using hkey)
    · rw [List.map_append]
      exact h.ids_nodup.append (List.nodup_singleton _) (by simpa using hid)
    · rw [List.map_append, List.map_append, h.replies_ids]
      rfl

/-- Any number of moves keeps the invariant. -/
theorem Sound.moves (hmoves : Moves fresh inbox inbox') (h : inbox.Sound) : inbox'.Sound := by
  induction hmoves with
  | refl => exact h
  | tail _ hmove ih => exact ih.move hmove

/-- A letter that was just accepted is found under its key. -/
theorem Sound.find?_accept [DecidableEq κ] {letter : Letter κ ι α} {reply : β}
    (h : (inbox.accept letter reply).Sound) :
    (inbox.accept letter reply).letters.find? (·.key = letter.key) = some letter := by
  have hnodup : ((inbox.letters ++ [letter]).map Letter.key).Nodup := h.keys_nodup
  rw [List.map_append] at hnodup
  have hnone : inbox.letters.find? (·.key = letter.key) = none := by
    rw [List.find?_eq_none]
    intro other hother hkey
    rw [decide_eq_true_eq] at hkey
    exact List.disjoint_of_nodup_append hnodup (List.mem_map_of_mem hother) (by simp [hkey])
  unfold Inbox.accept
  rw [List.find?_append, hnone, Option.none_or]
  simp

/-- The reply to a letter that was just accepted is its only one. -/
theorem Sound.filter_accept [DecidableEq ι] {letter : Letter κ ι α} {reply : β}
    (h : (inbox.accept letter reply).Sound) :
    (inbox.accept letter reply).replies.filter (·.1 = letter.id) = [(letter.id, reply)] := by
  have hnodup : ((inbox.replies ++ [(letter.id, reply)]).map Prod.fst).Nodup := by
    rw [show (inbox.replies ++ [(letter.id, reply)]).map Prod.fst = _ from h.replies_ids]
    exact h.ids_nodup
  rw [List.map_append] at hnodup
  have hnone : inbox.replies.filter (·.1 = letter.id) = [] := by
    rw [List.filter_eq_nil_iff]
    intro other hother hid
    rw [decide_eq_true_eq] at hid
    exact List.disjoint_of_nodup_append hnodup (List.mem_map_of_mem hother) (by simp [hid])
  unfold Inbox.accept
  rw [List.filter_append, hnone]
  simp

/-! ### Nothing is taken out -/

theorem Moves.letters_prefix (hmoves : Moves fresh inbox inbox') :
    inbox.letters <+: inbox'.letters := by
  induction hmoves with
  | refl => exact List.prefix_refl _
  | tail _ hmove ih =>
    cases hmove with
    | accept letter reply hkey hfresh hid => exact ih.trans (List.prefix_append _ _)

theorem Moves.replies_prefix (hmoves : Moves fresh inbox inbox') :
    inbox.replies <+: inbox'.replies := by
  induction hmoves with
  | refl => exact List.prefix_refl _
  | tail _ hmove ih =>
    cases hmove with
    | accept letter reply hkey hfresh hid => exact ih.trans (List.prefix_append _ _)

/-- A letter that is found under its key is found again later. -/
theorem Moves.find?_letter [DecidableEq κ] (hmoves : Moves fresh inbox inbox') {key : κ}
    {letter : Letter κ ι α} (hfind : inbox.letters.find? (·.key = key) = some letter) :
    inbox'.letters.find? (·.key = key) = some letter := by
  obtain ⟨later, hlater⟩ := hmoves.letters_prefix
  rw [← hlater, List.find?_append, hfind]
  rfl

/-- The reply to a letter is found again later, and is still the only one. -/
theorem Moves.filter_replies [DecidableEq ι] (hmoves : Moves fresh inbox inbox')
    (hsound : inbox.Sound) {id : ι} {entry : ι × β}
    (hfilter : inbox.replies.filter (·.1 = id) = [entry]) :
    inbox'.replies.filter (·.1 = id) = [entry] := by
  obtain ⟨later, hlater⟩ := hmoves.replies_prefix
  have hentry : entry ∈ inbox.replies ∧ entry.1 = id := by
    have hmem : entry ∈ inbox.replies.filter (·.1 = id) := by simp [hfilter]
    simpa using hmem
  have hnodup : (inbox'.replies.map Prod.fst).Nodup := by
    rw [(hsound.moves hmoves).replies_ids]
    exact (hsound.moves hmoves).ids_nodup
  rw [← hlater, List.map_append] at hnodup
  have hnone : later.filter (·.1 = id) = [] := by
    rw [List.filter_eq_nil_iff]
    intro other hother heq
    rw [decide_eq_true_eq] at heq
    refine List.disjoint_of_nodup_append hnodup (List.mem_map_of_mem hentry.1) ?_
    rw [hentry.2, ← heq]
    exact List.mem_map_of_mem hother
  rw [← hlater, List.filter_append, hfilter, hnone, List.append_nil]

end Inbox

end FilmOS
