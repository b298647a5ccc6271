import Mathlib.Tactic.SplitIfs
import Mathlib.Logic.Basic
import Mathlib.Data.List.Forall2

/-!
# Transaction bodies

A transaction body reads and writes a state and may raise. A raise does not undo what was written
before it: the state left behind is the one inside the transaction at that moment, and it is
`commit` that decides what becomes durable. This separates two facts that a state function with
rollback confuses, that a body raises before its first write, and that its caller discards the
writes of a body that raised.

`Txn` is `EStateM` under the words of a database. The rules turn a returning body into the list of
facts its steps established: `bind_eq_ok` peels one step off a sequence, `require_eq_ok` and
`orRaise_eq_ok` read a guard, and the rules for `get`, `set` and `modify` read the state. Pure
checks are computations in `Except` guarded by `ensure`, with the same rules. A body
that never writes is `ReadOnly`; the property is closed under sequencing, so it is established step
by step along the code. `Ends` says how a body ends either way, and `ends_foldlM` is the rule of a
loop.
-/

set_option autoImplicit false
set_option relaxedAutoImplicit false

namespace FilmOS.Transaction

variable {ε σ α β : Type}

/-- The body of a transaction over the state `σ`, raising failures of type `ε`. -/
abbrev Txn (ε σ α : Type) := EStateM ε σ α

/-- A guard: raise `failure` unless the condition holds. -/
def require (condition : Prop) [Decidable condition] (failure : ε) : Txn ε σ Unit :=
  if condition then pure () else throw failure

/-- The value of an option, or a raise when there is none. -/
def orRaise (value : Option α) (failure : ε) : Txn ε σ α :=
  match value with
  | some a => pure a
  | none => throw failure

/-- A raise when something was found that must not be there. -/
def refuse (found : Option α) (failure : α → ε) : Txn ε σ Unit :=
  match found with
  | some a => throw (failure a)
  | none => pure ()

/-- The value of a pure computation that may fail, its failure raised. -/
def checked (value : Except ε α) : Txn ε σ α :=
  match value with
  | .ok a => pure a
  | .error e => throw e

/-- The body with its failures put in other words. -/
def rephrase (words : ε → ε) (body : Txn ε σ α) : Txn ε σ α := fun s ↦
  match body s with
  | .ok a s' => .ok a s'
  | .error e s' => .error (words e) s'

/-- The durable state after the body ran as one transaction: its final state when it returned, the
state before it when it raised. -/
def commit (body : Txn ε σ α) (s : σ) : σ :=
  match body s with
  | .ok _ s' => s'
  | .error _ _ => s

theorem commit_of_ok {body : Txn ε σ α} {s s' : σ} {a : α} (h : body s = .ok a s') :
    commit body s = s' := by
  simp [commit, h]

theorem commit_of_error {body : Txn ε σ α} {s s' : σ} {e : ε} (h : body s = .error e s') :
    commit body s = s := by
  simp [commit, h]

/-- What is durable after a transaction is the state before it or the final state of a body that
returned. -/
theorem commit_cases (body : Txn ε σ α) (s : σ) :
    commit body s = s ∨ ∃ a s', body s = .ok a s' ∧ commit body s = s' := by
  cases h : body s with
  | ok a s' => exact Or.inr ⟨a, s', rfl, commit_of_ok h⟩
  | error e s' => exact Or.inl (commit_of_error h)

/-- Bodies that go on alike from every result of their first part do the same. -/
theorem bind_congr_at {x : Txn ε σ α} {f g : α → Txn ε σ β} {s : σ}
    (h : ∀ a s', x s = .ok a s' → f a s' = g a s') : (x >>= f) s = (x >>= g) s := by
  change EStateM.bind x f s = EStateM.bind x g s
  unfold EStateM.bind
  cases hx : x s with
  | ok a s' => exact h a s' hx
  | error e s' => rfl

/-- Bodies whose first parts do the same from a state do the same from it. -/
theorem bind_congr_left {x y : Txn ε σ α} {s : σ} (h : x s = y s) (f : α → Txn ε σ β) :
    (x >>= f) s = (y >>= f) s := by
  change EStateM.bind x f s = EStateM.bind y f s
  unfold EStateM.bind
  rw [h]

/-- A body that reads its state first goes on with it. -/
theorem get_bind_apply {f : σ → Txn ε σ α} {s : σ} : ((get : Txn ε σ σ) >>= f) s = f s s := rfl

/-! ### Pure checks -/

/-- A guard of a pure computation: its failure unless the condition holds. -/
def ensure (condition : Prop) [Decidable condition] (failure : ε) : Except ε Unit :=
  if condition then .ok () else .error failure

@[simp] theorem except_bind_eq_ok {x : Except ε α} {f : α → Except ε β} {b : β} :
    (x >>= f) = .ok b ↔ ∃ a, x = .ok a ∧ f a = .ok b := by
  cases x with
  | error e => simp [bind, Except.bind]
  | ok a => simp [bind, Except.bind]

@[simp] theorem except_pure_eq_ok {a b : α} : (pure a : Except ε α) = .ok b ↔ a = b := by
  simp [pure, Except.pure]

@[simp] theorem ensure_eq_ok {condition : Prop} [Decidable condition] {failure : ε} {u : Unit} :
    ensure condition failure = .ok u ↔ condition := by
  unfold ensure
  split_ifs with h <;> simp [h]

/-- A computation mapped over a list on which it always succeeds succeeds, with exactly the results
of the elements. -/
theorem exists_mapM_eq_ok {f : α → Except ε β} {as : List α} (h : ∀ a ∈ as, ∃ b, f a = .ok b) :
    ∃ bs, as.mapM f = .ok bs ∧ (∀ b ∈ bs, ∃ a ∈ as, f a = .ok b) ∧
      ∀ a ∈ as, ∃ b ∈ bs, f a = .ok b := by
  induction as with
  | nil => exact ⟨[], rfl, by simp, by simp⟩
  | cons a as ih =>
    obtain ⟨b, hb⟩ := h a List.mem_cons_self
    obtain ⟨bs, hbs, hfrom, hto⟩ := ih fun a ha ↦ h a (List.mem_cons_of_mem _ ha)
    refine ⟨b :: bs, ?_, ?_, ?_⟩
    · rw [List.mapM_cons, hb, hbs]
      rfl
    · intro c hc
      rcases List.mem_cons.mp hc with rfl | hc
      · exact ⟨a, List.mem_cons_self, hb⟩
      · obtain ⟨a', ha', hc⟩ := hfrom c hc
        exact ⟨a', List.mem_cons_of_mem _ ha', hc⟩
    · intro a' ha'
      rcases List.mem_cons.mp ha' with rfl | ha'
      · exact ⟨b, List.mem_cons_self, hb⟩
      · obtain ⟨c, hc, hf⟩ := hto a' ha'
        exact ⟨c, List.mem_cons_of_mem _ hc, hf⟩

/-- The results of a computation mapped over a list, element by element. -/
theorem forall₂_of_mapM_eq_ok {f : α → Except ε β} {as : List α} {bs : List β}
    (h : as.mapM f = .ok bs) : List.Forall₂ (fun a b ↦ f a = .ok b) as bs := by
  induction as generalizing bs with
  | nil =>
    obtain rfl := Except.ok.inj h
    exact List.Forall₂.nil
  | cons a as ih =>
    rw [List.mapM_cons] at h
    simp only [except_bind_eq_ok, except_pure_eq_ok] at h
    obtain ⟨b, hb, bs', hbs, rfl⟩ := h
    exact List.Forall₂.cons hb (ih hbs)

/-! ### Reading a returning body -/

@[simp] theorem bind_eq_ok {x : Txn ε σ α} {f : α → Txn ε σ β} {s s' : σ} {b : β} :
    (x >>= f) s = .ok b s' ↔ ∃ a t, x s = .ok a t ∧ f a t = .ok b s' := by
  change EStateM.bind x f s = _ ↔ _
  unfold EStateM.bind
  cases h : x s with
  | ok a t => simp [and_assoc]
  | error e t => simp

@[simp] theorem pure_eq_ok {a b : α} {s s' : σ} :
    (pure a : Txn ε σ α) s = .ok b s' ↔ a = b ∧ s = s' := by
  change EStateM.Result.ok a s = _ ↔ _
  simp

@[simp] theorem throw_eq_ok {e : ε} {a : α} {s s' : σ} :
    (throw e : Txn ε σ α) s = .ok a s' ↔ False := by
  change EStateM.Result.error e s = _ ↔ _
  simp

@[simp] theorem get_eq_ok {s s' t : σ} :
    (get : Txn ε σ σ) s = .ok t s' ↔ s = t ∧ s = s' := by
  change EStateM.Result.ok s s = _ ↔ _
  simp

@[simp] theorem set_eq_ok {s s' t : σ} {u : PUnit} :
    (set t : Txn ε σ PUnit) s = .ok u s' ↔ t = s' := by
  change EStateM.Result.ok PUnit.unit t = _ ↔ _
  simp

@[simp] theorem modify_eq_ok {s s' : σ} {f : σ → σ} {u : PUnit} :
    (modify f : Txn ε σ PUnit) s = .ok u s' ↔ f s = s' := by
  change EStateM.Result.ok PUnit.unit (f s) = _ ↔ _
  simp

@[simp] theorem require_eq_ok {condition : Prop} [Decidable condition] {failure : ε} {s s' : σ}
    {u : Unit} :
    (require condition failure : Txn ε σ Unit) s = .ok u s' ↔ condition ∧ s = s' := by
  unfold require
  split_ifs with h <;> simp [h]

@[simp] theorem orRaise_eq_ok {value : Option α} {failure : ε} {s s' : σ} {a : α} :
    (orRaise value failure : Txn ε σ α) s = .ok a s' ↔ value = some a ∧ s = s' := by
  cases value <;> simp [orRaise]

@[simp] theorem refuse_eq_ok {found : Option α} {failure : α → ε} {s s' : σ} {u : Unit} :
    (refuse found failure : Txn ε σ Unit) s = .ok u s' ↔ found = none ∧ s = s' := by
  cases found <;> simp [refuse]

@[simp] theorem checked_eq_ok {value : Except ε α} {s s' : σ} {a : α} :
    (checked value : Txn ε σ α) s = .ok a s' ↔ value = .ok a ∧ s = s' := by
  cases value <;> simp [checked]

@[simp] theorem rephrase_eq_ok {words : ε → ε} {body : Txn ε σ α} {s s' : σ} {a : α} :
    rephrase words body s = .ok a s' ↔ body s = .ok a s' := by
  unfold rephrase
  cases body s <;> simp

/-! ### Reading a sequence -/

@[simp] theorem get_bind_eq_ok {f : σ → Txn ε σ β} {s s' : σ} {b : β} :
    ((get : Txn ε σ σ) >>= f) s = .ok b s' ↔ f s s = .ok b s' :=
  Iff.rfl

@[simp] theorem set_bind_eq_ok {t : σ} {f : PUnit → Txn ε σ β} {s s' : σ} {b : β} :
    ((set t : Txn ε σ PUnit) >>= f) s = .ok b s' ↔ f ⟨⟩ t = .ok b s' :=
  Iff.rfl

@[simp] theorem modify_bind_eq_ok {change : σ → σ} {f : PUnit → Txn ε σ β} {s s' : σ} {b : β} :
    ((modify change : Txn ε σ PUnit) >>= f) s = .ok b s' ↔ f ⟨⟩ (change s) = .ok b s' :=
  Iff.rfl

@[simp] theorem require_bind_eq_ok {condition : Prop} [Decidable condition] {failure : ε}
    {f : Unit → Txn ε σ β} {s s' : σ} {b : β} :
    ((require condition failure : Txn ε σ Unit) >>= f) s = .ok b s' ↔
      condition ∧ f () s = .ok b s' := by
  rw [bind_eq_ok]
  constructor
  · rintro ⟨_, t, hrequire, hf⟩
    obtain ⟨hcondition, rfl⟩ := require_eq_ok.mp hrequire
    exact ⟨hcondition, hf⟩
  · rintro ⟨hcondition, hf⟩
    exact ⟨(), s, require_eq_ok.mpr ⟨hcondition, rfl⟩, hf⟩

@[simp] theorem orRaise_bind_eq_ok {value : Option α} {failure : ε} {f : α → Txn ε σ β} {s s' : σ}
    {b : β} :
    ((orRaise value failure : Txn ε σ α) >>= f) s = .ok b s' ↔
      ∃ a, value = some a ∧ f a s = .ok b s' := by
  simp [and_assoc]

@[simp] theorem refuse_bind_eq_ok {found : Option α} {failure : α → ε} {f : Unit → Txn ε σ β}
    {s s' : σ} {b : β} :
    ((refuse found failure : Txn ε σ Unit) >>= f) s = .ok b s' ↔
      found = none ∧ f () s = .ok b s' := by
  cases found with
  | none => exact ⟨fun h ↦ ⟨rfl, h⟩, fun h ↦ h.2⟩
  | some a => simp

@[simp] theorem checked_bind_eq_ok {value : Except ε α} {f : α → Txn ε σ β} {s s' : σ} {b : β} :
    ((checked value : Txn ε σ α) >>= f) s = .ok b s' ↔
      ∃ a, value = .ok a ∧ f a s = .ok b s' := by
  simp [and_assoc]

/-- A sequence returns when what follows a value that is there does. -/
theorem returns_orRaise_bind {value : Option α} {failure : ε} {f : α → Txn ε σ β} {s : σ} {a : α}
    (h : value = some a) :
    (∃ b s', ((orRaise value failure : Txn ε σ α) >>= f) s = .ok b s') ↔
      ∃ b s', f a s = .ok b s' := by
  rw [h]
  exact Iff.rfl

/-- A sequence returns when what follows a pure computation that succeeds does. -/
theorem returns_checked_bind {value : Except ε α} {f : α → Txn ε σ β} {s : σ} {a : α}
    (h : value = .ok a) :
    (∃ b s', ((checked value : Txn ε σ α) >>= f) s = .ok b s') ↔ ∃ b s', f a s = .ok b s' := by
  rw [h]
  exact Iff.rfl

/-! ### Bodies that never write -/

/-- Whatever the body does, it leaves the state as it was. -/
def ReadOnly (body : Txn ε σ α) : Prop :=
  ∀ s, (∃ a, body s = .ok a s) ∨ ∃ e, body s = .error e s

theorem ReadOnly.state_eq {body : Txn ε σ α} (hbody : ReadOnly body) {s s' : σ} {a : α}
    (h : body s = .ok a s') : s' = s := by
  rcases hbody s with ⟨b, hb⟩ | ⟨e, he⟩
  · rw [hb] at h
    injection h with _ hs
    exact hs.symm
  · rw [he] at h
    cases h

theorem ReadOnly.bind {x : Txn ε σ α} {f : α → Txn ε σ β} (hx : ReadOnly x)
    (hf : ∀ a, ReadOnly (f a)) : ReadOnly (x >>= f) := by
  intro s
  change (∃ b, EStateM.bind x f s = _) ∨ ∃ e, EStateM.bind x f s = _
  unfold EStateM.bind
  rcases hx s with ⟨a, ha⟩ | ⟨e, he⟩
  · rw [ha]
    exact hf a s
  · rw [he]
    exact Or.inr ⟨e, rfl⟩

theorem readOnly_pure (a : α) : ReadOnly (pure a : Txn ε σ α) :=
  fun _ ↦ Or.inl ⟨a, rfl⟩

theorem readOnly_throw (e : ε) : ReadOnly (throw e : Txn ε σ α) :=
  fun _ ↦ Or.inr ⟨e, rfl⟩

theorem readOnly_get : ReadOnly (get : Txn ε σ σ) :=
  fun s ↦ Or.inl ⟨s, rfl⟩

theorem readOnly_require (condition : Prop) [Decidable condition] (failure : ε) :
    ReadOnly (require condition failure : Txn ε σ Unit) := by
  unfold require
  split_ifs
  · exact readOnly_pure ()
  · exact readOnly_throw failure

theorem readOnly_orRaise (value : Option α) (failure : ε) :
    ReadOnly (orRaise value failure : Txn ε σ α) := by
  cases value with
  | none => exact readOnly_throw failure
  | some a => exact readOnly_pure a

theorem readOnly_refuse (found : Option α) (failure : α → ε) :
    ReadOnly (refuse found failure : Txn ε σ Unit) := by
  cases found with
  | none => exact readOnly_pure ()
  | some a => exact readOnly_throw (failure a)

theorem readOnly_checked (value : Except ε α) : ReadOnly (checked value : Txn ε σ α) := by
  cases value with
  | error e => exact readOnly_throw e
  | ok a => exact readOnly_pure a

/-! ### How a body ends -/

/-- From a state, a body ends as said: a value it returns and the state it leaves satisfy `returns`,
and a failure it raises and the state at that moment satisfy `raises`. -/
def Ends (body : Txn ε σ α) (s : σ) (returns : α → σ → Prop) (raises : ε → σ → Prop) : Prop :=
  match body s with
  | .ok a s' => returns a s'
  | .error e s' => raises e s'

section Ends

variable {returns : α → σ → Prop} {raises : ε → σ → Prop} {s : σ}

theorem Ends.of_ok {body : Txn ε σ α} (h : Ends body s returns raises) {a : α} {s' : σ}
    (hok : body s = .ok a s') : returns a s' := by
  unfold Ends at h
  rwa [hok] at h

theorem Ends.of_error {body : Txn ε σ α} (h : Ends body s returns raises) {e : ε} {s' : σ}
    (herror : body s = .error e s') : raises e s' := by
  unfold Ends at h
  rwa [herror] at h

theorem ends_of_ok {body : Txn ε σ α} {a : α} {s' : σ} (hok : body s = .ok a s')
    (h : returns a s') : Ends body s returns raises := by
  unfold Ends
  rwa [hok]

theorem ends_of_error {body : Txn ε σ α} {e : ε} {s' : σ} (herror : body s = .error e s')
    (h : raises e s') : Ends body s returns raises := by
  unfold Ends
  rwa [herror]

theorem ends_of_results {body : Txn ε σ α} (hok : ∀ a s', body s = .ok a s' → returns a s')
    (herror : ∀ e s', body s = .error e s' → raises e s') : Ends body s returns raises := by
  cases hbody : body s with
  | ok a s' => exact ends_of_ok hbody (hok a s' hbody)
  | error e s' => exact ends_of_error hbody (herror e s' hbody)

theorem Ends.mono {body : Txn ε σ α} (h : Ends body s returns raises) {returns' : α → σ → Prop}
    {raises' : ε → σ → Prop} (hok : ∀ a s', returns a s' → returns' a s')
    (herror : ∀ e s', raises e s' → raises' e s') : Ends body s returns' raises' := by
  cases hbody : body s with
  | ok a s' => exact ends_of_ok hbody (hok a s' (h.of_ok hbody))
  | error e s' => exact ends_of_error hbody (herror e s' (h.of_error hbody))

theorem ends_pure {a : α} (h : returns a s) : Ends (pure a : Txn ε σ α) s returns raises := h

theorem ends_require {condition : Prop} [Decidable condition] {failure : ε}
    {returns : Unit → σ → Prop} (hpasses : condition → returns () s)
    (hfails : ¬ condition → raises failure s) :
    Ends (require condition failure : Txn ε σ Unit) s returns raises := by
  unfold require
  by_cases hcondition : condition
  · rw [if_pos hcondition]
    exact hpasses hcondition
  · rw [if_neg hcondition]
    exact hfails hcondition

theorem ends_checked {value : Except ε α} (hok : ∀ a, value = .ok a → returns a s)
    (herror : ∀ e, value = .error e → raises e s) :
    Ends (checked value : Txn ε σ α) s returns raises := by
  cases value with
  | ok a => exact hok a rfl
  | error e => exact herror e rfl

theorem ends_orRaise {value : Option α} {failure : ε} (hsome : ∀ a, value = some a → returns a s)
    (hnone : value = none → raises failure s) :
    Ends (orRaise value failure : Txn ε σ α) s returns raises := by
  cases value with
  | some a => exact hsome a rfl
  | none => exact hnone rfl

/-- A sequence ends as said when its first part leaves a state and a value from which the rest
does. -/
theorem Ends.bind {x : Txn ε σ α} {f : α → Txn ε σ β} {between : α → σ → Prop}
    {returns : β → σ → Prop} (hx : Ends x s between raises)
    (hf : ∀ a s', between a s' → Ends (f a) s' returns raises) :
    Ends (x >>= f) s returns raises := by
  cases h : x s with
  | ok a s' =>
    have hbind : (x >>= f) s = f a s' := by
      change EStateM.bind x f s = _
      unfold EStateM.bind
      rw [h]
    have hrest := hf a s' (hx.of_ok h)
    unfold Ends at hrest ⊢
    rwa [hbind]
  | error e s' =>
    have hbind : (x >>= f) s = .error e s' := by
      change EStateM.bind x f s = _
      unfold EStateM.bind
      rw [h]
    exact ends_of_error hbind (hx.of_error h)

/-- A loop over a list keeps an invariant of what is still to come and of what it carries along. -/
theorem ends_foldlM {f : β → α → Txn ε σ β} (invariant : List α → β → σ → Prop)
    (hstep : ∀ a as b s, invariant (a :: as) b s → Ends (f b a) s (invariant as) raises)
    {as : List α} {b : β} (h : invariant as b s) :
    Ends (as.foldlM f b) s (invariant []) raises := by
  induction as generalizing b s with
  | nil => exact h
  | cons a as ih =>
    rw [List.foldlM_cons]
    exact (hstep a as b s h).bind fun b' s' h' ↦ ih h'

end Ends

end FilmOS.Transaction
