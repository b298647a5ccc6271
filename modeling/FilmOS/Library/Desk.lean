import Mathlib.Data.List.Nodup
import Mathlib.Logic.Relation

/-!
# A desk with one case in hand

A desk holds cases that wait, one case at most that is in hand, and cases that are settled with an
outcome. Which case is in hand is written down twice: as the phase of the case, and as a pointer of
the desk. Every case has an origin, and origins can be shelved; a case of a shelved origin may wait
but is not taken in hand.

`Move` lists what may happen, `Sound` says that the two records agree and that the case in hand does
not come from a shelved origin, and `Case.Precedes` that a case keeps its origin and stays settled.
The identifiers, origins and outcomes are of arbitrary types.
-/

set_option autoImplicit false
set_option relaxedAutoImplicit false

namespace FilmOS

/-- The phase of a case. -/
inductive Phase (ω : Type)
  | waiting
  | inHand
  | settled (outcome : ω)
deriving DecidableEq

/-- A case: its identifier, its phase and where it comes from. -/
@[ext] structure Case (ι σ ω : Type) where
  id : ι
  phase : Phase ω
  origin : σ
deriving DecidableEq

variable {ι σ ω : Type}

namespace Case

/-- The order in which a case may evolve: it keeps its origin, and stays settled. -/
def Precedes (case later : Case ι σ ω) : Prop :=
  later.origin = case.origin ∧
    ∀ outcome, case.phase = .settled outcome → later.phase = .settled outcome

theorem Precedes.refl (case : Case ι σ ω) : case.Precedes case := ⟨rfl, fun _ h ↦ h⟩

theorem Precedes.trans {a b c : Case ι σ ω} (hab : a.Precedes b) (hbc : b.Precedes c) :
    a.Precedes c :=
  ⟨hbc.1.trans hab.1, fun outcome h ↦ hbc.2 outcome (hab.2 outcome h)⟩

end Case

/-- The cases, the pointer to the one in hand, and the shelved origins. -/
@[ext] structure Desk (ι σ ω : Type) where
  cases : List (Case ι σ ω)
  current : Option ι
  shelved : σ → Prop

namespace Desk

section Moves

variable [DecidableEq ι]

/-- A further case, which waits. -/
def add (id : ι) (origin : σ) (d : Desk ι σ ω) : Desk ι σ ω :=
  { d with cases := d.cases ++ [⟨id, .waiting, origin⟩] }

/-- The case with the identifier gets another phase. -/
def setPhase (id : ι) (phase : Phase ω) (d : Desk ι σ ω) : Desk ι σ ω :=
  { d with cases := d.cases.map (fun case ↦ if case.id = id then { case with phase } else case) }

/-- The case is taken in hand. -/
def take (id : ι) (d : Desk ι σ ω) : Desk ι σ ω :=
  { d.setPhase id .inHand with current := some id }

/-- The case in hand is put aside, or settled. -/
def release (id : ι) (phase : Phase ω) (d : Desk ι σ ω) : Desk ι σ ω :=
  { d.setPhase id phase with current := none }

/-- Other origins are shelved. -/
def shelve (shelved : σ → Prop) (d : Desk ι σ ω) : Desk ι σ ω := { d with shelved }

/-- Some cases are removed; the one in hand is in hand no more when it is among them. -/
def discard (removed : Case ι σ ω → Bool) (d : Desk ι σ ω) : Desk ι σ ω :=
  { d with
    cases := d.cases.filter (fun case ↦ !removed case)
    current := if d.cases.any (fun case ↦ d.current = some case.id ∧ removed case) then none
      else d.current }

/-- What may happen to a desk. -/
inductive Move (fresh : ι → Prop) : Desk ι σ ω → Desk ι σ ω → Prop
  | add (d : Desk ι σ ω) (id : ι) (origin : σ) (hfresh : fresh id)
      (hnew : id ∉ d.cases.map Case.id) : Move fresh d (d.add id origin)
  | take (d : Desk ι σ ω) (case : Case ι σ ω) (hcase : case ∈ d.cases)
      (hphase : case.phase = .waiting) (hfree : d.current = none)
      (horigin : ¬ d.shelved case.origin) : Move fresh d (d.take case.id)
  | release (d : Desk ι σ ω) (id : ι) (phase : Phase ω) (hcurrent : d.current = some id)
      (hphase : phase ≠ .inHand) : Move fresh d (d.release id phase)
  | settle (d : Desk ι σ ω) (case : Case ι σ ω) (outcome : ω) (hcase : case ∈ d.cases)
      (hphase : case.phase = .waiting) : Move fresh d (d.setPhase case.id (.settled outcome))
  | shelve (d : Desk ι σ ω) (shelved : σ → Prop)
      (hopen : ∀ case ∈ d.cases, case.phase = .inHand → ¬ shelved case.origin) :
      Move fresh d (d.shelve shelved)
  | discard (d : Desk ι σ ω) (removed : Case ι σ ω → Bool) : Move fresh d (d.discard removed)

/-- Any number of moves. -/
abbrev Moves (fresh : ι → Prop) : Desk ι σ ω → Desk ι σ ω → Prop :=
  Relation.ReflTransGen (Move fresh)

variable {fresh fresh' : ι → Prop} {d d' : Desk ι σ ω}

theorem Moves.mono (hfresh : ∀ id, fresh id → fresh' id) (h : Moves fresh d d') :
    Moves fresh' d d' := by
  refine Relation.ReflTransGen.mono ?_ _ _ h
  intro a b hmove
  cases hmove with
  | add id origin hid hnew => exact .add a id origin (hfresh id hid) hnew
  | take case hcase hphase hfree horigin => exact .take a case hcase hphase hfree horigin
  | release id phase hcurrent hphase => exact .release a id phase hcurrent hphase
  | settle case outcome hcase hphase => exact .settle a case outcome hcase hphase
  | shelve shelved hopen => exact .shelve a shelved hopen
  | discard removed => exact .discard a removed

/-- A case that is added and taken in hand at once. -/
theorem Moves.begin (hmoves : Moves fresh d d') {id : ι} {origin : σ} (hfresh : fresh id)
    (hnew : id ∉ d'.cases.map Case.id) (hfree : d'.current = none)
    (horigin : ¬ d'.shelved origin) :
    Moves fresh d ⟨d'.cases ++ [⟨id, .inHand, origin⟩], some id, d'.shelved⟩ := by
  have hadd : Moves fresh d (d'.add id origin) := hmoves.tail (.add d' id origin hfresh hnew)
  have hcase : (⟨id, .waiting, origin⟩ : Case ι σ ω) ∈ (d'.add id origin).cases :=
    List.mem_append_right _ List.mem_cons_self
  have htake := hadd.tail (.take _ _ hcase rfl hfree horigin)
  have hcases : ((d'.add id origin).take id).cases = d'.cases ++ [⟨id, .inHand, origin⟩] := by
    change (d'.cases ++ [_]).map _ = _
    rw [List.map_append]
    congr 1
    · refine (List.map_congr_left fun case hmem ↦ ?_).trans (List.map_id _)
      exact if_neg fun (hid : case.id = id) ↦ hnew (hid ▸ List.mem_map_of_mem hmem)
    · simp
  exact hcases ▸ htake

/-! ### The invariant -/

/-- The phases and the pointer agree on the case in hand, whose origin is not shelved. -/
structure Sound (d : Desk ι σ ω) : Prop where
  ids_nodup : (d.cases.map Case.id).Nodup
  inHand_iff : ∀ case ∈ d.cases, case.phase = .inHand ↔ d.current = some case.id
  current_mem : ∀ id, d.current = some id → ∃ case ∈ d.cases, case.id = id
  not_shelved : ∀ case ∈ d.cases, case.phase = .inHand → ¬ d.shelved case.origin

theorem mem_setPhase {id : ι} {phase : Phase ω} {later : Case ι σ ω} :
    later ∈ (d.setPhase id phase).cases ↔
      ∃ case ∈ d.cases, (if case.id = id then { case with phase } else case) = later := by
  unfold setPhase
  rw [List.mem_map]

theorem ids_setPhase (id : ι) (phase : Phase ω) (d : Desk ι σ ω) :
    (d.setPhase id phase).cases.map Case.id = d.cases.map Case.id := by
  unfold setPhase
  rw [List.map_map]
  refine List.map_congr_left fun case _ ↦ ?_
  by_cases hid : case.id = id
  · simp [hid]
  · simp [hid]

omit [DecidableEq ι] in
theorem Sound.empty (shelved : σ → Prop) : Sound (⟨[], none, shelved⟩ : Desk ι σ ω) := by
  constructor <;> simp

omit [DecidableEq ι] in
theorem Sound.add (h : d.Sound) {id : ι} (origin : σ) (hnew : id ∉ d.cases.map Case.id) :
    (d.add id origin).Sound := by
  have hmem : ∀ case : Case ι σ ω,
      case ∈ (d.add id origin).cases ↔ case ∈ d.cases ∨ case = ⟨id, .waiting, origin⟩ := by
    intro case
    simp [Desk.add]
  have hother : d.current ≠ some id := by
    intro heq
    obtain ⟨case, hcase, rfl⟩ := h.current_mem id heq
    exact hnew (List.mem_map_of_mem hcase)
  constructor
  · have hids : (d.add id origin).cases.map Case.id = d.cases.map Case.id ++ [id] := by
      simp [Desk.add]
    rw [hids]
    exact h.ids_nodup.append (List.nodup_singleton id) (by simpa using hnew)
  · intro case hcase
    rcases (hmem case).mp hcase with hcase | rfl
    · exact h.inHand_iff case hcase
    · exact iff_of_false (by simp) hother
  · intro id' hid'
    obtain ⟨case, hcase, heq⟩ := h.current_mem id' hid'
    exact ⟨case, (hmem case).mpr (Or.inl hcase), heq⟩
  · intro case hcase hphase
    rcases (hmem case).mp hcase with hcase | rfl
    · exact h.not_shelved case hcase hphase
    · cases hphase

theorem Sound.take (h : d.Sound) {case : Case ι σ ω} (hcase : case ∈ d.cases)
    (hfree : d.current = none) (horigin : ¬ d.shelved case.origin) : (d.take case.id).Sound := by
  have hphase : ∀ other ∈ d.cases, other.phase ≠ .inHand := by
    intro other hother hphase
    rw [(h.inHand_iff other hother).mp hphase] at hfree
    cases hfree
  constructor
  · exact (ids_setPhase case.id .inHand d).symm ▸ h.ids_nodup
  · intro later hlater
    obtain ⟨other, hother, rfl⟩ := mem_setPhase.mp hlater
    by_cases hid : other.id = case.id
    · rw [if_pos hid]
      exact iff_of_true rfl (congrArg some hid.symm)
    · rw [if_neg hid]
      refine iff_of_false (hphase other hother) fun heq ↦ hid ?_
      exact (Option.some.inj heq).symm
  · intro id hid
    obtain rfl := Option.some.inj hid
    exact ⟨{ case with phase := .inHand },
      mem_setPhase.mpr ⟨case, hcase, if_pos rfl⟩, rfl⟩
  · intro later hlater hinHand
    obtain ⟨other, hother, rfl⟩ := mem_setPhase.mp hlater
    by_cases hid : other.id = case.id
    · rw [List.inj_on_of_nodup_map h.ids_nodup hother hcase hid, if_pos rfl]
      exact horigin
    · rw [if_neg hid] at hinHand
      exact absurd hinHand (hphase other hother)

theorem Sound.release (h : d.Sound) {id : ι} {phase : Phase ω} (hcurrent : d.current = some id)
    (hphase : phase ≠ .inHand) : (d.release id phase).Sound := by
  have hnone : ∀ later ∈ (d.release id phase).cases, later.phase ≠ .inHand := by
    intro later hlater
    obtain ⟨other, hother, rfl⟩ := mem_setPhase.mp hlater
    by_cases hid : other.id = id
    · rw [if_pos hid]
      exact hphase
    · rw [if_neg hid]
      intro hinHand
      rw [(h.inHand_iff other hother).mp hinHand] at hcurrent
      exact hid (Option.some.inj hcurrent)
  constructor
  · exact (ids_setPhase id phase d).symm ▸ h.ids_nodup
  · intro later hlater
    exact iff_of_false (hnone later hlater) (by simp [Desk.release])
  · intro id' hid'
    cases hid'
  · intro later hlater hinHand
    exact absurd hinHand (hnone later hlater)

theorem Sound.settle (h : d.Sound) {case : Case ι σ ω} (hcase : case ∈ d.cases)
    (hphase : case.phase = .waiting) (outcome : ω) :
    (d.setPhase case.id (.settled outcome)).Sound := by
  have hother : d.current ≠ some case.id := by
    intro heq
    rw [(h.inHand_iff case hcase).mpr heq] at hphase
    cases hphase
  constructor
  · rw [ids_setPhase]
    exact h.ids_nodup
  · intro later hlater
    obtain ⟨other, hmem, rfl⟩ := mem_setPhase.mp hlater
    by_cases hid : other.id = case.id
    · rw [if_pos hid]
      refine iff_of_false (by simp) fun heq ↦ hother ?_
      rw [← hid]
      exact heq
    · rw [if_neg hid]
      exact h.inHand_iff other hmem
  · intro id hid
    obtain ⟨other, hmem, rfl⟩ := h.current_mem id hid
    refine ⟨_, mem_setPhase.mpr ⟨other, hmem, rfl⟩, ?_⟩
    split_ifs <;> rfl
  · intro later hlater hinHand
    obtain ⟨other, hmem, rfl⟩ := mem_setPhase.mp hlater
    by_cases hid : other.id = case.id
    · rw [if_pos hid] at hinHand
      cases hinHand
    · rw [if_neg hid] at hinHand ⊢
      exact h.not_shelved other hmem hinHand

omit [DecidableEq ι] in
theorem Sound.shelve (h : d.Sound) {shelved : σ → Prop}
    (hopen : ∀ case ∈ d.cases, case.phase = .inHand → ¬ shelved case.origin) :
    (d.shelve shelved).Sound :=
  ⟨h.ids_nodup, h.inHand_iff, h.current_mem, hopen⟩

theorem Sound.discard (h : d.Sound) (removed : Case ι σ ω → Bool) : (d.discard removed).Sound := by
  have hmem : ∀ case : Case ι σ ω,
      case ∈ (d.discard removed).cases ↔ case ∈ d.cases ∧ removed case = false := by
    intro case
    simp [Desk.discard]
  have hcurrent : ∀ id, (d.discard removed).current = some id ↔
      d.current = some id ∧ ∀ case ∈ d.cases, case.id = id → removed case = false := by
    intro id
    change (if _ then none else d.current) = some id ↔ _
    by_cases hany : d.cases.any (fun case ↦ d.current = some case.id ∧ removed case)
    · rw [if_pos hany]
      obtain ⟨case, hcase, heq⟩ := List.any_eq_true.mp hany
      rw [decide_eq_true_eq] at heq
      refine iff_of_false (by simp) ?_
      rintro ⟨hid, hkept⟩
      rw [heq.1] at hid
      rw [hkept case hcase (Option.some.inj hid)] at heq
      exact absurd heq.2 (by simp)
    · rw [if_neg hany]
      refine ⟨fun hid ↦ ⟨hid, fun case hcase heq ↦ ?_⟩, And.left⟩
      by_contra hremoved
      refine hany (List.any_eq_true.mpr ⟨case, hcase, ?_⟩)
      rw [decide_eq_true_eq, heq]
      exact ⟨hid, by simpa using hremoved⟩
  constructor
  · exact h.ids_nodup.sublist (List.filter_sublist.map Case.id)
  · intro case hcase
    obtain ⟨hcase, hkept⟩ := (hmem case).mp hcase
    rw [hcurrent, h.inHand_iff case hcase]
    refine ⟨fun heq ↦ ⟨heq, fun other hother hid ↦ ?_⟩, And.left⟩
    rw [List.inj_on_of_nodup_map h.ids_nodup hother hcase hid]
    exact hkept
  · intro id hid
    obtain ⟨heq, hkept⟩ := (hcurrent id).mp hid
    obtain ⟨case, hcase, rfl⟩ := h.current_mem id heq
    exact ⟨case, (hmem case).mpr ⟨hcase, hkept case hcase rfl⟩, rfl⟩
  · intro case hcase hinHand
    exact h.not_shelved case ((hmem case).mp hcase).1 hinHand

/-- Every move keeps the invariant. -/
theorem Sound.move (hmove : Move fresh d d') (h : d.Sound) : d'.Sound := by
  cases hmove with
  | add id origin hfresh hnew => exact h.add origin hnew
  | take case hcase hphase hfree horigin => exact h.take hcase hfree horigin
  | release id phase hcurrent hphase => exact h.release hcurrent hphase
  | settle case outcome hcase hphase => exact h.settle hcase hphase outcome
  | shelve shelved hopen => exact h.shelve hopen
  | discard removed => exact h.discard removed

/-- Any number of moves keeps the invariant. -/
theorem Sound.moves (hmoves : Moves fresh d d') (h : d.Sound) : d'.Sound := by
  induction hmoves with
  | refl => exact h
  | tail _ hmove ih => exact ih.move hmove

/-! ### The evolution of one case -/

theorem precedes_setPhase {case : Case ι σ ω} {id : ι} {phase : Phase ω}
    (h : case.id = id → ∀ outcome, case.phase ≠ .settled outcome) :
    case.Precedes (if case.id = id then { case with phase } else case) := by
  by_cases hid : case.id = id
  · rw [if_pos hid]
    exact ⟨rfl, fun outcome hsettled ↦ absurd hsettled (h hid outcome)⟩
  · rw [if_neg hid]
    exact .refl case

/-- Where a case comes from in a move: it is fresh, or follows a case with its identifier. -/
theorem Move.origin (hmove : Move fresh d d') (h : d.Sound) :
    ∀ later ∈ d'.cases,
      fresh later.id ∨ ∃ case ∈ d.cases, case.id = later.id ∧ case.Precedes later := by
  have hset : ∀ (id : ι) (phase : Phase ω),
      (∀ case ∈ d.cases, case.id = id → ∀ outcome, case.phase ≠ .settled outcome) →
      ∀ later ∈ (d.setPhase id phase).cases,
        fresh later.id ∨ ∃ case ∈ d.cases, case.id = later.id ∧ case.Precedes later := by
    intro id phase hopen later hlater
    obtain ⟨case, hcase, rfl⟩ := mem_setPhase.mp hlater
    refine Or.inr ⟨case, hcase, ?_, precedes_setPhase (hopen case hcase)⟩
    split_ifs <;> rfl
  cases hmove with
  | add id origin hfresh hnew =>
    intro later hlater
    rcases List.mem_append.mp hlater with hlater | hadded
    · exact Or.inr ⟨later, hlater, rfl, .refl later⟩
    · rw [List.mem_singleton.mp hadded]
      exact Or.inl hfresh
  | take case hcase hphase hfree horigin =>
    refine hset case.id .inHand fun other hother hid outcome ↦ ?_
    rw [List.inj_on_of_nodup_map h.ids_nodup hother hcase hid, hphase]
    simp
  | release id phase hcurrent hphase =>
    refine hset id phase fun other hother hid outcome ↦ ?_
    rw [(h.inHand_iff other hother).mpr (hid ▸ hcurrent)]
    simp
  | settle case outcome hcase hphase =>
    refine hset case.id _ fun other hother hid outcome' ↦ ?_
    rw [List.inj_on_of_nodup_map h.ids_nodup hother hcase hid, hphase]
    simp
  | shelve shelved hopen => exact fun later hlater ↦ Or.inr ⟨later, hlater, rfl, .refl later⟩
  | discard removed =>
    intro later hlater
    exact Or.inr ⟨later, (List.mem_filter.mp hlater).1, rfl, .refl later⟩

/-- The same for any number of moves. -/
theorem Moves.origin (hmoves : Moves fresh d d') (h : d.Sound) :
    ∀ later ∈ d'.cases,
      fresh later.id ∨ ∃ case ∈ d.cases, case.id = later.id ∧ case.Precedes later := by
  induction hmoves with
  | refl => exact fun later hlater ↦ Or.inr ⟨later, hlater, rfl, .refl later⟩
  | tail hmoves hmove ih =>
    intro later hlater
    rcases hmove.origin (h.moves hmoves) later hlater with hfresh | ⟨middle, hmiddle, hid, hnext⟩
    · exact Or.inl hfresh
    · rcases ih middle hmiddle with hfresh | ⟨case, hcase, hid', hprevious⟩
      · exact Or.inl (hid ▸ hfresh)
      · exact Or.inr ⟨case, hcase, hid'.trans hid, hprevious.trans hnext⟩

end Moves

end Desk

end FilmOS
