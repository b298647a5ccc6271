import FilmOS.Library.Script

/-!
# State graphs

A state graph is a machine whose nodes are scripts over one state: a node works on the state, and
what the state has become chooses the next node, or the end. `invoke` runs the graph from a node,
for at most so many nodes. `holds_invoke` is its rule: a condition on entering each node, which
every node establishes for the next one, together with a rank that every step lowers, so that the
graph ends before the limit whatever is answered on the way.
-/

set_option autoImplicit false
set_option relaxedAutoImplicit false

namespace FilmOS

/-- What every node does, and where it leads. -/
structure StateGraph (ε : Type) {ι : Type} (A : ι → Type) (ν σ : Type) where
  work : ν → σ → Script ε A σ
  next : ν → σ → Except ε (Option ν)

namespace StateGraph

variable {ε ι ν σ : Type} {A : ι → Type}

/-- The graph from a node on, raising `exceeded` when it has not ended within the limit. -/
def invoke (graph : StateGraph ε A ν σ) (exceeded : ε) : ℕ → ν → σ → Script ε A σ
  | 0, _, _ => .raise exceeded
  | limit + 1, node, s => do
    let s ← graph.work node s
    match ← Script.ofExcept (graph.next node s) with
    | none => pure s
    | some following => graph.invoke exceeded limit following s

/-- What has to hold after the work of a node: the condition on entering the next one, of a lower
rank, or what is claimed of the end. -/
def Leads (entering : ν → σ → List (Event ε A) → Prop) (rank : ν → σ → ℕ)
    (returns : List (Event ε A) → σ → Prop) (raises : List (Event ε A) → ε → Prop) (bound : ℕ)
    (past : List (Event ε A)) (s : σ) : Except ε (Option ν) → Prop
  | .ok none => returns past s
  | .ok (some node) => entering node s past ∧ rank node s < bound
  | .error failure => raises past failure

/-- The work of a node establishes that for the next one. -/
def Establishes (graph : StateGraph ε A ν σ)
    (answers : List (Event ε A) → (q : ι) → Except ε (A q) → Prop)
    (asks : List (Event ε A) → ι → Prop)
    (entering : ν → σ → List (Event ε A) → Prop) (rank : ν → σ → ℕ)
    (returns : List (Event ε A) → σ → Prop) (raises : List (Event ε A) → ε → Prop)
    (node : ν) (s : σ) (past : List (Event ε A)) : Prop :=
  (graph.work node s).Holds answers asks past
    (fun past s' ↦ Leads entering rank returns raises (rank node s) past s' (graph.next node s'))
    raises

variable {graph : StateGraph ε A ν σ}
  {answers : List (Event ε A) → (q : ι) → Except ε (A q) → Prop}
  {asks : List (Event ε A) → ι → Prop}
  {entering : ν → σ → List (Event ε A) → Prop} {rank : ν → σ → ℕ}
  {returns : List (Event ε A) → σ → Prop} {raises : List (Event ε A) → ε → Prop}

/-- A graph whose nodes establish the condition on entering the next one, of a lower rank, ends
within every limit above the rank. -/
theorem holds_invoke (exceeded : ε)
    (hwork : ∀ node s past, entering node s past →
      graph.Establishes answers asks entering rank returns raises node s past) :
    ∀ (limit : ℕ) {node s past}, entering node s past → rank node s < limit →
      (graph.invoke exceeded limit node s).Holds answers asks past returns raises := by
  intro limit
  induction limit with
  | zero => exact fun _ hrank ↦ absurd hrank (Nat.not_lt_zero _)
  | succ limit ih =>
    intro node s past hentering hrank
    refine Script.holds_bind.mpr ((hwork node s past hentering).mono (fun past s' h ↦ ?_)
      fun _ _ h ↦ h)
    refine Script.holds_bind.mpr (Script.holds_ofExcept.mpr ?_)
    cases hnext : graph.next node s' with
    | error failure =>
      rw [hnext] at h
      exact h
    | ok following =>
      rw [hnext] at h
      cases following with
      | none => exact h
      | some node' => exact ih h.1 (Nat.lt_of_lt_of_le h.2 (Nat.lt_succ_iff.mp hrank))

end StateGraph

end FilmOS
