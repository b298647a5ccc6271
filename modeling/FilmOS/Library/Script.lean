import Mathlib.Data.List.Basic
import Mathlib.Logic.Basic

/-!
# Scripts

A script is a program that works through its surroundings only: it asks one query after the other,
and every query is answered by a value or by a failure (`Script.ask`). `run` lets it run in
surroundings that may answer each query by all that was asked before; what it leaves is the history
of the events, each a query with its answer, and the value returned or the failure raised.

`Holds` is the weakest precondition of a script over every answer that `answers` admits: each query
is asked where `asks` allows it, a return meets `returns`, and a raise meets `raises`, each of them
a property of the history so far. The rules for `bind`, `query`, `attempt` and for a loop over a
list follow the script, and `holds_run` turns the result into a statement about every run. `handle`
answers the queries of one script by scripts of a lower interface; `holds_handle` carries what holds
of the upper script down, by a relation between the two histories that every handled query keeps.
-/

set_option autoImplicit false
set_option relaxedAutoImplicit false

namespace FilmOS

/-- A program that asks queries, each answered by a value of the type `A query` or by a failure. -/
inductive Script (ε : Type) {ι : Type} (A : ι → Type) (α : Type) : Type
  | done (value : α)
  | raise (failure : ε)
  | ask (query : ι) (next : Except ε (A query) → Script ε A α)

/-- A query together with what came back. -/
structure Event (ε : Type) {ι : Type} (A : ι → Type) where
  query : ι
  answer : Except ε (A query)

namespace Script

variable {ε ι κ σ α β : Type} {A : ι → Type} {B : κ → Type}

/-- One script after the other. -/
def bind (f : α → Script ε A β) : Script ε A α → Script ε A β
  | done a => f a
  | raise failure => raise failure
  | ask q next => ask q fun answer ↦ (next answer).bind f

instance : Monad (Script ε A) where
  pure := done
  bind script f := script.bind f

/-- A value, or a raise. -/
def ofExcept : Except ε α → Script ε A α
  | .ok a => done a
  | .error failure => raise failure

/-- Ask, and raise the failure that comes back. -/
def query (q : ι) : Script ε A (A q) := ask q ofExcept

/-- A script whose raise is caught. -/
def attempt : Script ε A α → Script ε A (Except ε α)
  | done a => done (.ok a)
  | raise failure => done (.error failure)
  | ask q next => ask q fun answer ↦ (next answer).attempt

/-- A script for each entry of a list, in order, with the values that they return. -/
def forEach (f : α → Script ε A β) : List α → Script ε A (List β)
  | [] => done []
  | a :: rest => (f a).bind fun b ↦ (forEach f rest).bind fun others ↦ done (b :: others)

/-- The script with its queries answered by scripts of a lower interface, which may keep a state. A
query whose script raises ends the run: the upper script raises what its queries raise. -/
def handle (handler : σ → (q : ι) → Script ε B (A q × σ)) : Script ε A α → σ → Script ε B (α × σ)
  | done a, s => done (a, s)
  | raise failure, _ => raise failure
  | ask q next, s => (handler s q).bind fun answer ↦ (next (.ok answer.1)).handle handler answer.2

/-- The history and the end of a script that goes on after `past`. -/
def run (surroundings : List (Event ε A) → (q : ι) → Except ε (A q)) :
    Script ε A α → List (Event ε A) → List (Event ε A) × Except ε α
  | done a, past => (past, .ok a)
  | raise failure, past => (past, .error failure)
  | ask q next, past =>
    (next (surroundings past q)).run surroundings (past ++ [⟨q, surroundings past q⟩])

/-! ### What holds of every run -/

/-- Surroundings that may answer anything. -/
def anything : List (Event ε A) → (q : ι) → Except ε (A q) → Prop := fun _ _ _ ↦ True

/-- Whatever is answered of what `answers` admits: the queries are asked where `asks` allows it, and
the end is as `returns` and `raises` say. -/
def Holds (answers : List (Event ε A) → (q : ι) → Except ε (A q) → Prop)
    (asks : List (Event ε A) → ι → Prop) :
    Script ε A α → List (Event ε A) → (List (Event ε A) → α → Prop) →
      (List (Event ε A) → ε → Prop) → Prop
  | done a, past, returns, _ => returns past a
  | raise failure, past, _, raises => raises past failure
  | ask q next, past, returns, raises => asks past q ∧ ∀ answer, answers past q answer →
      Holds answers asks (next answer) (past ++ [⟨q, answer⟩]) returns raises

/-- Every query of the history was asked where `asks` allows it. -/
def Lawful (asks : List (Event ε A) → ι → Prop) (history : List (Event ε A)) : Prop :=
  ∀ before event after, history = before ++ event :: after → asks before event.query

variable {answers : List (Event ε A) → (q : ι) → Except ε (A q) → Prop}
  {asks : List (Event ε A) → ι → Prop} {past : List (Event ε A)}
  {returns : List (Event ε A) → α → Prop} {raises : List (Event ε A) → ε → Prop}

theorem lawful_nil : Lawful asks [] := by
  intro before event after h
  cases before <;> cases h

theorem lawful_snoc {event : Event ε A} (hpast : Lawful asks past)
    (hevent : asks past event.query) : Lawful asks (past ++ [event]) := by
  intro before other after h
  rcases List.eq_nil_or_concat after with rfl | ⟨rest, last, rfl⟩
  · obtain ⟨rfl, hsame⟩ := List.append_inj' h rfl
    cases hsame
    exact hevent
  · rw [List.concat_eq_append, ← List.cons_append, ← List.append_assoc] at h
    exact hpast before other rest (List.append_inj' h rfl).1

theorem Lawful.left {after : List (Event ε A)} (h : Lawful asks (past ++ after)) :
    Lawful asks past := by
  intro before event rest hpast
  exact h before event (rest ++ after) (by rw [hpast, List.append_assoc]; rfl)

theorem Holds.mono {returns' : List (Event ε A) → α → Prop} {raises' : List (Event ε A) → ε → Prop}
    (hreturns : ∀ past a, returns past a → returns' past a)
    (hraises : ∀ past failure, raises past failure → raises' past failure) {script : Script ε A α} :
    ∀ {past}, script.Holds answers asks past returns raises →
      script.Holds answers asks past returns' raises' := by
  induction script with
  | done a => exact fun h ↦ hreturns _ a h
  | raise failure => exact fun h ↦ hraises _ failure h
  | ask q next ih => exact fun h ↦ ⟨h.1, fun answer hanswer ↦ ih answer (h.2 answer hanswer)⟩

/-- An end is as `returns` and `raises` say. -/
def EndsAs (returns : List (Event ε A) → α → Prop) (raises : List (Event ε A) → ε → Prop)
    (history : List (Event ε A)) : Except ε α → Prop
  | .ok a => returns history a
  | .error failure => raises history failure

/-- A run of a script is lawful, and ends as the script does on every answer. -/
theorem holds_run (surroundings : List (Event ε A) → (q : ι) → Except ε (A q))
    (hanswers : ∀ past q, answers past q (surroundings past q)) {script : Script ε A α} :
    ∀ {past}, script.Holds answers asks past returns raises → Lawful asks past →
      Lawful asks (script.run surroundings past).1 ∧
        EndsAs returns raises (script.run surroundings past).1
          (script.run surroundings past).2 := by
  induction script with
  | done a => exact fun h hpast ↦ ⟨hpast, h⟩
  | raise failure => exact fun h hpast ↦ ⟨hpast, h⟩
  | ask q next ih => exact fun h hpast ↦ ih _ (h.2 _ (hanswers _ q)) (lawful_snoc hpast h.1)

/-! ### The rules -/

theorem holds_pure {a : α} :
    (pure a : Script ε A α).Holds answers asks past returns raises ↔ returns past a :=
  Iff.rfl

theorem holds_bind {f : α → Script ε A β} {returns : List (Event ε A) → β → Prop}
    {script : Script ε A α} :
    ∀ {past}, (script >>= f).Holds answers asks past returns raises ↔
      script.Holds answers asks past
        (fun past a ↦ (f a).Holds answers asks past returns raises) raises := by
  induction script with
  | done a => exact Iff.rfl
  | raise failure => exact Iff.rfl
  | ask q next ih =>
    intro past
    exact and_congr_right fun _ ↦ forall_congr' fun answer ↦ imp_congr_right fun _ ↦ ih answer

theorem holds_ofExcept {value : Except ε α} :
    (ofExcept value : Script ε A α).Holds answers asks past returns raises ↔
      EndsAs returns raises past value := by
  cases value with
  | ok a => exact Iff.rfl
  | error failure => exact Iff.rfl

theorem holds_query {q : ι} {returns : List (Event ε A) → A q → Prop} :
    (query q : Script ε A (A q)).Holds answers asks past returns raises ↔
      asks past q ∧ (∀ a, answers past q (.ok a) → returns (past ++ [⟨q, .ok a⟩]) a) ∧
        ∀ failure, answers past q (.error failure) →
          raises (past ++ [⟨q, .error failure⟩]) failure := by
  refine and_congr_right fun _ ↦ ⟨fun h ↦ ⟨fun a ↦ h (.ok a), fun failure ↦ h (.error failure)⟩,
    fun h answer ↦ ?_⟩
  cases answer with
  | ok a => exact h.1 a
  | error failure => exact h.2 failure

theorem holds_attempt {returns : List (Event ε A) → Except ε α → Prop} {script : Script ε A α} :
    ∀ {past}, script.attempt.Holds answers asks past returns raises ↔
      script.Holds answers asks past (fun past a ↦ returns past (.ok a))
        fun past failure ↦ returns past (.error failure) := by
  induction script with
  | done a => exact Iff.rfl
  | raise failure => exact Iff.rfl
  | ask q next ih =>
    intro past
    exact and_congr_right fun _ ↦ forall_congr' fun answer ↦ imp_congr_right fun _ ↦ ih answer

/-- The rule of a loop: an invariant of the entries still to come, the values returned so far and
the history. -/
theorem holds_forEach {f : α → Script ε A β}
    (invariant : List α → List β → List (Event ε A) → Prop)
    (hstep : ∀ a rest bs past, invariant (a :: rest) bs past →
      (f a).Holds answers asks past (fun past b ↦ invariant rest (bs ++ [b]) past) raises) :
    ∀ {as : List α} {bs : List β} {past}, invariant as bs past →
      (forEach f as).Holds answers asks past
        (fun past others ↦ invariant [] (bs ++ others) past) raises := by
  intro as
  induction as with
  | nil =>
    intro bs past h
    show invariant [] (bs ++ []) past
    rw [List.append_nil]
    exact h
  | cons a rest ih =>
    intro bs past h
    refine holds_bind.mpr ((hstep a rest bs past h).mono (fun past b hb ↦ ?_) fun _ _ h ↦ h)
    refine holds_bind.mpr ((ih hb).mono (fun past others hothers ↦ ?_) fun _ _ h ↦ h)
    show invariant [] (bs ++ b :: others) past
    rw [List.append_assoc] at hothers
    exact hothers

/-- What holds of a script holds of it with its queries handled, through a relation between the two
histories that every query keeps. -/
theorem holds_handle {handler : σ → (q : ι) → Script ε B (A q × σ)}
    {answers' : List (Event ε B) → (q : κ) → Except ε (B q) → Prop}
    {asks' : List (Event ε B) → κ → Prop} {raises' : List (Event ε B) → ε → Prop}
    (relation : List (Event ε A) → σ → List (Event ε B) → Prop)
    (hquery : ∀ past s deeds q, relation past s deeds → asks past q →
      (handler s q).Holds answers' asks' deeds
        (fun deeds answer ↦ relation (past ++ [⟨q, .ok answer.1⟩]) answer.2 deeds) raises')
    (hraises : ∀ past s deeds failure, relation past s deeds → raises past failure →
      raises' deeds failure) {script : Script ε A α} :
    ∀ {past s deeds}, script.Holds anything asks past returns raises → relation past s deeds →
      (script.handle handler s).Holds answers' asks' deeds
        (fun deeds result ↦ ∃ past, relation past result.2 deeds ∧ returns past result.1)
        raises' := by
  induction script with
  | done a => exact fun h hrelation ↦ ⟨_, hrelation, h⟩
  | raise failure => exact fun h hrelation ↦ hraises _ _ _ failure hrelation h
  | ask q next ih =>
    intro past s deeds h hrelation
    refine holds_bind.mpr ((hquery past s deeds q hrelation h.1).mono ?_ fun _ _ h ↦ h)
    exact fun deeds answer hnext ↦ ih (.ok answer.1) (h.2 (.ok answer.1) trivial) hnext

end Script

end FilmOS
