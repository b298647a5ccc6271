import FilmOS.Agent.Capabilities

/-!
# What a run does

Both executors are their graph with its queries carried out by its capabilities, and what they do is
one history of effects, each with what came back (`Deed`). `WorkAsks` says what may be done after
such a history: a model is asked only for a call that was counted before, and no more than
`maxModelCalls` are counted; the work of a tool call is done once, right after the call was entered,
and marked as failed right after it failed; a plan is generated only where the run is one of the
workbench or its input was admitted as asking for it; and nothing at all is done once the lease is
lost, but for the attempt to mark the tool call that lost it.

`order_work` and `scheduling_work` are the laws of every run of the two executors. They are carried
down from the laws of the graphs: a history of queries costs so many model calls (`cost`), and what
a graph may ask never costs more than the limit.
-/

set_option autoImplicit false
set_option relaxedAutoImplicit false

namespace FilmOS.Agent

open Script Transaction

variable {F C : Type}

/-! ### What may be done -/

def isCount : Deed F → Bool
  | ⟨.countModel _, .ok _⟩ => true
  | _ => false

/-- The effect is a call of a model. -/
def Effect.asksModel : Effect F → Bool
  | .askAdmission _ => true
  | .vision _ _ _ _ => true
  | .askMain _ => true
  | .explain _ => true
  | .stream _ => true
  | _ => false

/-- How often a model call was counted. -/
def counted (deeds : List (Deed F)) : ℕ := deeds.countP isCount

/-- How often a model was asked. -/
def modelCalls (deeds : List (Deed F)) : ℕ := deeds.countP fun deed ↦ deed.query.asksModel

/-- Whether a plan may be generated, after a deed. -/
def authorizing (granted : Option Bool) : Deed F → Option Bool
  | ⟨.load, .ok loaded⟩ => some loaded.workbench
  | ⟨.decide admission, .ok _⟩ => some admission.allowsGeneration
  | _ => granted

/-- Whether a plan may be generated, by what was loaded or decided last. -/
def authority (deeds : List (Deed F)) : Option Bool := deeds.foldl authorizing none

/-- The effect marks a tool call as failed. -/
def Effect.marksFailure : Effect F → Bool
  | .failTool _ _ => true
  | _ => false

/-- No deed found the lease lost, but for the mark of a tool call that had failed before. -/
def Leased (deeds : List (Deed F)) : Prop :=
  ∀ deed ∈ deeds, deed.answer = .error .leaseLost → deed.query.marksFailure = true

/-- What may be done after a history of deeds. -/
def WorkAsks (deeds : List (Deed F)) : Effect F → Prop
  | .countModel _ => Leased deeds ∧ counted deeds < maxModelCalls
  | .runTool callId request work => Leased deeds ∧
      (∃ before, deeds = before ++ [⟨.startTool request, .ok (.started callId)⟩]) ∧
        (work = .generate → authority deeds = some true)
  | .failTool callId request => ∃ before work failure,
      deeds = before ++ [⟨.runTool callId request work, .error failure⟩] ∧ Leased before
  | effect => Leased deeds ∧ (effect.asksModel = true → modelCalls deeds < counted deeds)

/-- The history after which a run goes on: `spare` model calls may still be counted and `credit`
ones are counted and not made. -/
structure Orderly (budget spare credit : ℕ) (granted : Option Bool) (deeds : List (Deed F)) :
    Prop where
  leased : Leased deeds
  counted : counted deeds + spare ≤ budget
  paid : modelCalls deeds + credit ≤ FilmOS.Agent.counted deeds
  granted : authority deeds = granted

/-- The failure is an `HTTPException`, which a capability may report instead of raising it. -/
def IsHttp (failure : Failure) : Prop := (toolErrorCode "" failure).isSome

/-- How the work of a run breaks off in a step: in order, or with the lease lost. -/
inductive Halted (budget : ℕ) (granted : Option Bool) : List (Deed F) → Failure → Prop
  | orderly {deeds : List (Deed F)} (failure : Failure) (h : Orderly budget 0 0 granted deeds) :
      Halted budget granted deeds failure
  | lost {deeds : List (Deed F)} (effect : Effect F) (h : Orderly budget 0 0 granted deeds) :
      Halted budget granted (deeds ++ [⟨effect, .error .leaseLost⟩]) .leaseLost

/-- How the work of a run breaks off: in a step, or in a tool call that lost the lease and could be
marked as failed or not. -/
inductive Ended (budget : ℕ) (granted : Option Bool) : List (Deed F) → Failure → Prop
  | halted {deeds : List (Deed F)} {failure : Failure} (h : Halted budget granted deeds failure) :
      Ended budget granted deeds failure
  | lostTool {deeds : List (Deed F)} (callId : Id) (request : ToolRequest) (work : ToolWork)
      (marked : Except Failure Unit) (failure : Failure) (h : Orderly budget 0 0 granted deeds)
      (hfailure : failure = .leaseLost ∨ marked = .error failure ∧ ¬ IsHttp failure) :
      Ended budget granted (deeds ++ [⟨.runTool callId request work, .error .leaseLost⟩,
        ⟨.failTool callId request, marked⟩]) failure

/-- A call that cannot be marked as failed is no `HTTPException` (`not_isHttp_failTool`). -/
def WorkAnswers (_ : List (Deed F)) : (effect : Effect F) → Except Failure (Reply effect) → Prop
  | .failTool _ _, .error failure => ¬ IsHttp failure
  | _, _ => True

/-! ### One deed more -/

variable {deeds : List (Deed F)} {deed : Deed F} {effect : Effect F} {granted : Option Bool}
  {budget spare credit : ℕ} {failure : Failure}

@[simp] theorem counted_snoc :
    counted (deeds ++ [deed]) = counted deeds + if isCount deed then 1 else 0 := by
  unfold counted
  rw [List.countP_append, List.countP_singleton]

@[simp] theorem modelCalls_snoc :
    modelCalls (deeds ++ [deed]) = modelCalls deeds + if deed.query.asksModel then 1 else 0 := by
  unfold modelCalls
  rw [List.countP_append, List.countP_singleton]

@[simp] theorem authority_snoc :
    authority (deeds ++ [deed]) = authorizing (authority deeds) deed := by
  unfold authority
  rw [List.foldl_append]
  rfl

theorem Leased.snoc (h : Leased deeds)
    (hanswer : deed.answer = .error .leaseLost → deed.query.marksFailure = true) :
    Leased (deeds ++ [deed]) := by
  intro other hother
  rcases List.mem_append.mp hother with hother | hother
  · exact h other hother
  · obtain rfl := List.mem_singleton.mp hother
    exact hanswer

theorem Orderly.mono {budget' spare' credit' : ℕ} (h : Orderly budget spare credit granted deeds)
    (hbudget : budget + spare' ≤ budget' + spare) (hcredit : credit' ≤ credit) :
    Orderly budget' spare' credit' granted deeds where
  leased := h.leased
  counted := by
    have hcounted := h.counted
    omega
  paid := (Nat.add_le_add_left hcredit _).trans h.paid
  granted := h.granted

/-- An effect that neither concerns a model nor decides what the run may do. -/
def Effect.Plain (effect : Effect F) : Prop :=
  effect.asksModel = false ∧ (∀ answer, isCount ⟨effect, answer⟩ = false) ∧
    ∀ granted answer, authorizing granted ⟨effect, answer⟩ = granted

/-- A deed that neither asks a model nor counts a call of one. -/
theorem Orderly.uncounted (h : Orderly budget spare credit granted deeds)
    (hmodel : effect.asksModel = false) {answer : Except Failure (Reply effect)}
    (hcount : isCount ⟨effect, answer⟩ = false)
    (hanswer : answer = .error .leaseLost → effect.marksFailure = true) :
    Orderly budget spare credit (authorizing granted ⟨effect, answer⟩)
      (deeds ++ [⟨effect, answer⟩]) where
  leased := h.leased.snoc hanswer
  counted := by
    rw [counted_snoc, hcount]
    exact h.counted
  paid := by
    rw [counted_snoc, modelCalls_snoc, hcount, hmodel]
    exact h.paid
  granted := by rw [authority_snoc, h.granted]

theorem Orderly.plain (h : Orderly budget spare credit granted deeds) (heffect : effect.Plain)
    {answer : Except Failure (Reply effect)}
    (hanswer : answer = .error .leaseLost → effect.marksFailure = true) :
    Orderly budget spare credit granted (deeds ++ [⟨effect, answer⟩]) := by
  have hdeed := h.uncounted heffect.1 (heffect.2.1 answer) hanswer
  rwa [heffect.2.2] at hdeed

theorem Orderly.asked (h : Orderly budget spare (credit + 1) granted deeds)
    (heffect : effect.asksModel = true) {answer : Except Failure (Reply effect)}
    (hanswer : answer = .error .leaseLost → effect.marksFailure = true) :
    Orderly budget spare credit granted (deeds ++ [⟨effect, answer⟩]) := by
  have hcount : isCount ⟨effect, answer⟩ = false := by
    cases effect <;> first | rfl | cases heffect
  have hgranted : authorizing (authority deeds) ⟨effect, answer⟩ = authority deeds := by
    cases effect <;> first | rfl | cases heffect
  refine ⟨h.leased.snoc hanswer, ?_, ?_, ?_⟩
  · rw [counted_snoc, hcount]
    exact h.counted
  · rw [counted_snoc, modelCalls_snoc, hcount, heffect]
    have hpaid := h.paid
    show modelCalls deeds + 1 + credit ≤ FilmOS.Agent.counted deeds + 0
    omega
  · rw [authority_snoc, hgranted]
    exact h.granted

/-- A failure after a deed that changed nothing for the run. -/
theorem Halted.of_failed (h : Orderly budget spare credit granted deeds)
    (hfailed : failure ≠ .leaseLost →
      Orderly budget 0 0 granted (deeds ++ [⟨effect, .error failure⟩])) :
    Halted budget granted (deeds ++ [⟨effect, .error failure⟩]) failure := by
  by_cases hlost : failure = .leaseLost
  · subst hlost
    exact .lost effect (h.mono (by omega) (Nat.zero_le _))
  · exact .orderly failure (hfailed hlost)

/-! ### The laws of the effects -/

variable {raises : List (Deed F) → Failure → Prop}

theorem holds_perform {returns : List (Deed F) → Reply effect → Prop}
    (hasks : WorkAsks deeds effect) (hreturns : ∀ a, returns (deeds ++ [⟨effect, .ok a⟩]) a)
    (hraises : ∀ failure, WorkAnswers deeds effect (.error failure) →
      raises (deeds ++ [⟨effect, .error failure⟩]) failure) :
    (perform effect).Holds WorkAnswers WorkAsks deeds returns raises :=
  holds_query.mpr ⟨hasks, fun a _ ↦ hreturns a, hraises⟩

/-- An effect that neither asks a model nor counts a call of one, and whose failure decides
nothing. -/
theorem holds_uncounted {returns : List (Deed F) → Reply effect → Prop}
    (hraises : ∀ deeds failure, Halted budget granted deeds failure → raises deeds failure)
    (h : Orderly budget spare credit granted deeds) (hasks : WorkAsks deeds effect)
    (hmodel : effect.asksModel = false) (hcount : ∀ answer, isCount ⟨effect, answer⟩ = false)
    (hfailed : ∀ failure, authorizing granted ⟨effect, .error failure⟩ = granted)
    (hreturns : ∀ a deeds, Orderly budget spare credit (authorizing granted ⟨effect, .ok a⟩) deeds →
      returns deeds a) :
    (perform effect).Holds WorkAnswers WorkAsks deeds returns raises := by
  refine holds_perform hasks (fun a ↦ hreturns a _ (h.uncounted hmodel (hcount _) nofun))
    fun failure _ ↦ hraises _ _ (.of_failed h fun hne ↦ ?_)
  have hdeed : Orderly budget spare credit (authorizing granted ⟨effect, .error failure⟩)
      (deeds ++ [⟨effect, .error failure⟩]) :=
    h.uncounted hmodel (hcount _) fun heq ↦ absurd (Except.error.inj heq) hne
  rw [hfailed] at hdeed
  exact hdeed.mono (by omega) (Nat.zero_le _)

/-- A transaction or a file of the run, other than those that the laws below are about. -/
def Effect.isQuiet : Effect F → Bool
  | .modelSettings => true
  | .usage => true
  | .report _ => true
  | .recognitionFailed _ => true
  | .currentItem => true
  | .currentPlan => true
  | .source _ => true
  | .readFile _ => true
  | _ => false

theorem holds_quiet {returns : List (Deed F) → Reply effect → Prop}
    (hraises : ∀ deeds failure, Halted budget granted deeds failure → raises deeds failure)
    (h : Orderly budget spare credit granted deeds) (hquiet : effect.isQuiet = true)
    (hreturns : ∀ a deeds, Orderly budget spare credit granted deeds → returns deeds a) :
    (perform effect).Holds WorkAnswers WorkAsks deeds returns raises := by
  have heffect : effect.Plain := by
    cases effect <;> first | exact ⟨rfl, fun _ ↦ rfl, fun _ _ ↦ rfl⟩ | cases hquiet
  have hasks : WorkAsks deeds effect := by
    have hleased : Leased deeds ∧ (effect.asksModel = true → modelCalls deeds < counted deeds) :=
      ⟨h.leased, fun hasks ↦ absurd (heffect.1.symm.trans hasks) Bool.false_ne_true⟩
    cases effect <;> first | exact hleased | cases hquiet
  refine holds_uncounted hraises h hasks heffect.1 heffect.2.1 (fun _ ↦ heffect.2.2 _ _)
    fun a deeds hdeed ↦ hreturns a deeds ?_
  rwa [heffect.2.2] at hdeed

/-- A model call is counted. -/
theorem holds_countModel {stage : String} {returns : List (Deed F) → Unit → Prop}
    (hbudget : budget ≤ maxModelCalls)
    (hraises : ∀ deeds failure, Halted budget granted deeds failure → raises deeds failure)
    (h : Orderly budget (spare + 1) credit granted deeds)
    (hreturns : ∀ deeds, Orderly budget spare (credit + 1) granted deeds → returns deeds ()) :
    (perform (.countModel stage)).Holds WorkAnswers WorkAsks deeds returns raises := by
  have hcounted := h.counted
  have hpaid := h.paid
  refine holds_perform ⟨h.leased, by omega⟩ (fun _ ↦ hreturns _ ⟨h.leased.snoc nofun, ?_, ?_, ?_⟩)
    fun failure _ ↦ hraises _ _ (.of_failed h fun hne ↦ ⟨h.leased.snoc ?_, ?_, ?_, ?_⟩)
  · rw [counted_snoc]
    show counted deeds + 1 + spare ≤ budget
    omega
  · rw [counted_snoc, modelCalls_snoc]
    show modelCalls deeds + 0 + (credit + 1) ≤ counted deeds + 1
    omega
  · rw [authority_snoc]
    exact h.granted
  · exact fun heq ↦ absurd (Except.error.inj heq) hne
  · rw [counted_snoc]
    show counted deeds + 0 + 0 ≤ budget
    omega
  · rw [counted_snoc, modelCalls_snoc]
    show modelCalls deeds + 0 + 0 ≤ counted deeds + 0
    omega
  · rw [authority_snoc]
    exact h.granted

/-- A model is asked for a call that was counted. -/
theorem holds_model {returns : List (Deed F) → Reply effect → Prop}
    (hraises : ∀ deeds failure, Halted budget granted deeds failure → raises deeds failure)
    (h : Orderly budget spare (credit + 1) granted deeds) (heffect : effect.asksModel = true)
    (hreturns : ∀ a deeds, Orderly budget spare credit granted deeds → returns deeds a) :
    (perform effect).Holds WorkAnswers WorkAsks deeds returns raises := by
  have hpaid := h.paid
  have hasks : WorkAsks deeds effect := by
    have hlt : Leased deeds ∧ (effect.asksModel = true → modelCalls deeds < counted deeds) :=
      ⟨h.leased, fun _ ↦ by omega⟩
    cases effect <;> first | exact hlt | cases heffect
  exact holds_perform hasks (fun a ↦ hreturns a _ (h.asked heffect nofun)) fun failure _ ↦
    hraises _ _ (.of_failed h fun hne ↦
      (h.asked heffect fun heq ↦ absurd (Except.error.inj heq) hne).mono (by omega) (Nat.zero_le _))

/-- A plan may be generated as the context that was loaded says. -/
theorem holds_load {returns : List (Deed F) → Loaded F → Prop}
    (hraises : ∀ deeds failure, Halted budget granted deeds failure → raises deeds failure)
    (h : Orderly budget spare credit granted deeds)
    (hreturns : ∀ loaded deeds, Orderly budget spare credit (some loaded.workbench) deeds →
      returns deeds loaded) :
    (perform .load).Holds WorkAnswers WorkAsks deeds returns raises :=
  holds_uncounted hraises h ⟨h.leased, fun hasks ↦ absurd hasks Bool.false_ne_true⟩ rfl
    (fun _ ↦ rfl) (fun _ ↦ rfl) hreturns

/-- A plan may be generated as the decision on the input says. -/
theorem holds_decide {admission : Admission} {returns : List (Deed F) → Unit → Prop}
    (hraises : ∀ deeds failure, Halted budget granted deeds failure → raises deeds failure)
    (h : Orderly budget spare credit granted deeds)
    (hreturns : ∀ deeds, Orderly budget spare credit (some admission.allowsGeneration) deeds →
      returns deeds ()) :
    (perform (.decide admission)).Holds WorkAnswers WorkAsks deeds returns raises :=
  holds_uncounted hraises h ⟨h.leased, fun hasks ↦ absurd hasks Bool.false_ne_true⟩ rfl
    (fun _ ↦ rfl) (fun _ ↦ rfl) fun _ ↦ hreturns

/-! ### Tools -/

theorem not_isHttp_leaseLost : ¬ IsHttp .leaseLost := Bool.false_ne_true

/-- The mark of a tool call fails with a lost lease, or at the attribute of a missing row. -/
theorem not_isHttp_failTool {call : Call} {context : RunContext} {callId : Id}
    {request : ToolRequest} {db db' : AgentDb}
    (h : failTool call context callId request db = .error failure db') : ¬ IsHttp failure := by
  have hlock : Ends (lockRun call context) db (fun _ _ ↦ True) (fun failure _ ↦ ¬ IsHttp failure) :=
    ends_lockRun.mono (fun _ _ _ ↦ trivial) fun failure _ hlost ↦ hlost ▸ not_isHttp_leaseLost
  have hends : Ends (failTool call context callId request) db (fun _ _ ↦ True)
      (fun failure _ ↦ ¬ IsHttp failure) := by
    refine hlock.bind fun found db₁ _ ↦ ?_
    have hcall : Ends (require (callId ∈ found.1.toolCalls.keys) .attributeError :
        Txn Failure AgentDb Unit) db₁ (fun _ _ ↦ True) (fun failure _ ↦ ¬ IsHttp failure) :=
      ends_require (fun _ ↦ trivial) fun _ ↦ Bool.false_ne_true
    exact hcall.bind fun _ _ _ ↦ trivial
  unfold Ends at hends
  rw [h] at hends
  exact hends

theorem isHttp_of_toolErrorCode {plain code : String}
    (h : toolErrorCode plain failure = some code) : IsHttp failure := by
  cases failure with
  | http status detail => rfl
  | refused code message status => rfl
  | _ => cases h

/-- A failure that a capability may report leaves the run in order. -/
theorem Ended.orderly (h : Ended budget granted deeds failure) (hhttp : IsHttp failure) :
    Orderly budget 0 0 granted deeds := by
  cases h with
  | halted h =>
    cases h with
    | orderly _ h => exact h
    | lost _ _ => exact absurd hhttp not_isHttp_leaseLost
  | lostTool _ _ _ _ _ _ hfailure =>
    rcases hfailure with rfl | ⟨-, hne⟩
    · exact absurd hhttp not_isHttp_leaseLost
    · exact absurd hhttp hne

theorem plain_runTool (callId : Id) (request : ToolRequest) (work : ToolWork) :
    (Effect.runTool (F := F) callId request work).Plain :=
  ⟨rfl, fun _ ↦ rfl, fun _ _ ↦ rfl⟩

theorem holds_reportFailure {callId : Id} {request : ToolRequest} {work : ToolWork}
    {returns : List (Deed F) → ToolResult → Prop}
    (hraises : ∀ deeds failure, Ended budget granted deeds failure → raises deeds failure)
    (h : Orderly budget 0 0 granted deeds) :
    (reportFailure callId request failure).Holds WorkAnswers WorkAsks
      (deeds ++ [⟨.runTool callId request work, .error failure⟩]) returns raises := by
  have hfail : (Effect.failTool (F := F) callId request).Plain := ⟨rfl, fun _ ↦ rfl, fun _ _ ↦ rfl⟩
  -- The call failed in order, or it lost the lease.
  have hended (marked : Except Failure Unit) (other : Failure)
      (hother : other = failure ∨ marked = .error other ∧ ¬ IsHttp other) :
      Ended budget granted (deeds ++ [⟨.runTool callId request work, .error failure⟩] ++
        [⟨.failTool callId request, marked⟩]) other := by
    by_cases hlost : failure = .leaseLost
    · subst hlost
      rw [List.append_assoc]
      exact .lostTool callId request work marked other h hother
    · have hran : Orderly budget 0 0 granted
          (deeds ++ [⟨.runTool callId request work, .error failure⟩]) :=
        h.plain (plain_runTool ..) fun heq ↦ absurd (Except.error.inj heq) hlost
      exact .halted (.orderly other (hran.plain hfail fun _ ↦ rfl))
  refine holds_bind.mpr (holds_attempt.mpr (holds_perform ⟨deeds, work, failure, rfl, h.leased⟩
    (fun _ ↦ hraises _ _ (hended (.ok ()) failure (Or.inl rfl))) fun other hanswer ↦ ?_))
  cases other with
  | leaseLost => exact hraises _ _ (hended _ failure (Or.inl rfl))
  | _ => exact hraises _ _ (hended _ _ (Or.inr ⟨rfl, hanswer⟩))

/-- A tool call is entered, carried out, and marked where it failed. -/
theorem holds_performTool {request : ToolRequest} {work : ToolWork}
    {returns : List (Deed F) → ToolResult → Prop}
    (hraises : ∀ deeds failure, Ended budget granted deeds failure → raises deeds failure)
    (h : Orderly budget 0 0 granted deeds) (hwork : work = .generate → granted = some true)
    (hreturns : ∀ result deeds, Orderly budget 0 0 granted deeds → returns deeds result) :
    (performTool request work).Holds WorkAnswers WorkAsks deeds returns raises := by
  have hstart : (Effect.startTool (F := F) request).Plain := ⟨rfl, fun _ ↦ rfl, fun _ _ ↦ rfl⟩
  refine holds_bind.mpr (holds_perform ⟨h.leased, fun hasks ↦ absurd hasks Bool.false_ne_true⟩
    (fun start ↦ ?_) fun failure _ ↦ hraises _ _ (.halted (.of_failed h fun hne ↦
      h.plain hstart fun heq ↦ absurd (Except.error.inj heq) hne)))
  have hentered : Orderly budget 0 0 granted (deeds ++ [⟨.startTool request, .ok start⟩]) :=
    h.plain hstart nofun
  cases start with
  | finished result =>
    cases result with
    | none => exact hraises _ _ (.halted (.orderly _ hentered))
    | some result => exact hreturns result _ hentered
  | started callId =>
    refine holds_bind.mpr (holds_attempt.mpr (holds_perform
      ⟨hentered.leased, ⟨deeds, rfl⟩, fun heq ↦ hentered.granted.trans (hwork heq)⟩
      (fun result ↦ ?_) fun failure _ ↦ holds_reportFailure hraises hentered))
    exact hreturns result _ (hentered.plain (plain_runTool ..) nofun)

/-- The refusal of a tool call is told to the model, and the run goes on. -/
theorem holds_answerTool {wording : Wording F C} {plain : String} {script : Work F ToolResult}
    {returns : List (Deed F) → String → Prop}
    (hraises : ∀ deeds failure, Ended budget granted deeds failure → raises deeds failure)
    (hscript : script.Holds WorkAnswers WorkAsks deeds
      (fun deeds _ ↦ Orderly budget 0 0 granted deeds) (Ended budget granted))
    (hreturns : ∀ text deeds, Orderly budget 0 0 granted deeds → returns deeds text) :
    (answerTool wording plain script).Holds WorkAnswers WorkAsks deeds returns raises := by
  refine holds_bind.mpr (holds_attempt.mpr (hscript.mono (fun deeds result h ↦ hreturns _ _ h) ?_))
  intro deeds failure hended
  cases hcode : toolErrorCode plain failure with
  | none =>
    simp only [hcode]
    exact hraises _ _ hended
  | some code =>
    simp only [hcode]
    exact hreturns _ _ (hended.orderly (isHttp_of_toolErrorCode hcode))

/-! ### What both executors do -/

/-- The run broke off, whatever it was allowed to do. -/
def Broken (deeds : List (Deed F)) (failure : Failure) : Prop :=
  ∃ granted, Ended maxModelCalls granted deeds failure

theorem Ended.broken (h : Ended budget granted deeds failure) (hbudget : budget ≤ maxModelCalls) :
    Broken deeds failure := by
  have hmono {deeds : List (Deed F)} (h : Orderly budget 0 0 granted deeds) :
      Orderly maxModelCalls 0 0 granted deeds := h.mono hbudget (Nat.zero_le _)
  refine ⟨granted, ?_⟩
  cases h with
  | halted h =>
    cases h with
    | orderly _ h => exact .halted (.orderly _ (hmono h))
    | lost effect h => exact .halted (.lost effect (hmono h))
  | lostTool callId request work marked _ h hfailure =>
    exact .lostTool callId request work marked failure (hmono h) hfailure

theorem Halted.broken (h : Halted budget granted deeds failure) (hbudget : budget ≤ maxModelCalls) :
    Broken deeds failure :=
  (Ended.halted h).broken hbudget

theorem holds_checked {α : Type} {value : Except Failure α} {returns : List (Deed F) → α → Prop}
    (hraises : ∀ deeds failure, Halted budget granted deeds failure → raises deeds failure)
    (h : Orderly budget spare credit granted deeds) (hreturns : ∀ a, returns deeds a) :
    (ofExcept value : Work F α).Holds WorkAnswers WorkAsks deeds returns raises := by
  refine holds_ofExcept.mpr ?_
  cases value with
  | ok a => exact hreturns a
  | error failure =>
    exact hraises _ _ (.orderly failure (h.mono (by omega) (Nat.zero_le _)))

theorem holds_getClient {memory : Memory} {returns : List (Deed F) → Memory → Prop}
    (hraises : ∀ deeds failure, Halted budget granted deeds failure → raises deeds failure)
    (h : Orderly budget spare credit granted deeds)
    (hreturns : ∀ (memory' : Memory) deeds, memory'.generationAllowed = memory.generationAllowed →
      Orderly budget spare credit granted deeds → returns deeds memory') :
    (getClient memory).Holds WorkAnswers WorkAsks deeds returns raises := by
  unfold getClient
  by_cases hmodel : memory.model = true
  · rw [if_pos hmodel]
    exact hreturns memory deeds rfl h
  · rw [if_neg hmodel]
    exact holds_bind.mpr (holds_quiet hraises h rfl fun _ deeds h ↦
      hreturns _ deeds rfl h)

theorem holds_admitInput {loaded : Loaded F} {memory : Memory}
    {returns : List (Deed F) → Admission × Memory → Prop} (hbudget : budget ≤ maxModelCalls)
    (h : Orderly budget 1 0 granted deeds)
    (hreturns : ∀ admission (memory' : Memory) deeds,
      memory'.generationAllowed = memory.generationAllowed →
      Orderly budget 0 0 granted deeds → returns deeds (admission, memory')) :
    (admitInput loaded memory).Holds WorkAnswers WorkAsks deeds returns Broken := by
  have hraises (deeds : List (Deed F)) (failure : Failure)
      (h : Halted budget granted deeds failure) : Broken deeds failure := h.broken hbudget
  refine holds_bind.mpr (holds_countModel hbudget hraises h fun deeds h ↦ ?_)
  refine holds_bind.mpr (holds_getClient hraises h fun memory' deeds hmemory h ↦ ?_)
  refine holds_bind.mpr (holds_model hraises h rfl fun reply deeds h ↦ ?_)
  refine holds_bind.mpr (holds_quiet hraises h rfl fun _ deeds h ↦ ?_)
  exact holds_bind.mpr (holds_checked hraises h fun admission ↦
    hreturns admission memory' deeds hmemory h)

theorem holds_askMain {wording : Wording F C} {current : C} {messages : List GraphMessage}
    {loaded : Loaded F} {memory : Memory} {returns : List (Deed F) → ModelReply → Prop}
    (hbudget : budget ≤ maxModelCalls) (h : Orderly budget 0 1 granted deeds)
    (hreturns : ∀ reply deeds, Orderly budget 0 0 granted deeds → returns deeds reply) :
    (askMain wording current messages loaded memory).Holds WorkAnswers WorkAsks deeds returns
      Broken := by
  have hraises (deeds : List (Deed F)) (failure : Failure)
      (h : Halted budget granted deeds failure) : Broken deeds failure := h.broken hbudget
  refine holds_bind.mpr (holds_checked hraises h fun input ↦ ?_)
  refine holds_bind.mpr (holds_model hraises h rfl fun reply deeds h ↦ ?_)
  exact holds_bind.mpr (holds_quiet hraises h rfl fun _ deeds h ↦ hreturns reply deeds h)

theorem holds_composeText {wording : Wording F C} {current : C} {messages : List GraphMessage}
    {loaded : Loaded F} {memory : Memory} {returns : List (Deed F) → String × Memory → Prop}
    (hbudget : budget ≤ maxModelCalls) (h : Orderly budget 0 1 granted deeds)
    (hreturns : ∀ text (memory' : Memory) deeds,
      memory'.generationAllowed = memory.generationAllowed →
      Orderly budget 0 0 granted deeds → returns deeds (text, memory')) :
    (composeText wording current messages loaded memory).Holds WorkAnswers WorkAsks deeds returns
      Broken := by
  have hraises (deeds : List (Deed F)) (failure : Failure)
      (h : Halted budget granted deeds failure) : Broken deeds failure := h.broken hbudget
  refine holds_bind.mpr (holds_getClient hraises h fun memory' deeds hmemory h ↦ ?_)
  refine holds_bind.mpr (holds_checked hraises h fun input ↦ ?_)
  exact holds_bind.mpr (holds_model hraises h rfl fun text deeds h ↦
    hreturns text memory' deeds hmemory h)

/-! ### Whole runs -/

/-- The law of the work of a run. The model calls that were counted stay within the limit, and no
model was asked for one that was not; after the lease was found lost nothing more was done, and the
run broke off, but for the mark of a tool call whose work had lost it. -/
structure WorkLaw {α : Type} (history : List (Deed F)) (outcome : Except Failure α) : Prop where
  lawful : Lawful WorkAsks history
  counted : counted history ≤ maxModelCalls
  paid : modelCalls history ≤ FilmOS.Agent.counted history
  fenced : ∀ before effect after, history = before ++ ⟨effect, .error .leaseLost⟩ :: after →
    effect.marksFailure = false →
      after = [] ∧ outcome = .error .leaseLost ∨
        ∃ callId request work marked failure, effect = .runTool callId request work ∧
          after = [⟨.failTool callId request, marked⟩] ∧ outcome = .error failure

theorem Orderly.not_lost {before after : List (Deed F)}
    (h : Orderly budget spare credit granted deeds)
    (hdeeds : deeds = before ++ ⟨effect, .error .leaseLost⟩ :: after)
    (hmark : effect.marksFailure = false) : False := by
  have hmem : (⟨effect, .error .leaseLost⟩ : Deed F) ∈ deeds := by
    rw [hdeeds]
    exact List.mem_append_right _ (List.mem_cons_self ..)
  have hmarks : effect.marksFailure = true := h.leased _ hmem rfl
  rw [hmark] at hmarks
  cases hmarks

/-- A deed of a list with a tail is one of the list, or of the tail. -/
theorem mem_or_tail {before after tail : List (Deed F)}
    (h : deeds ++ tail = before ++ deed :: after) :
    (∃ rest, deeds = before ++ deed :: rest) ∨ ∃ rest, before = deeds ++ rest ∧
      tail = rest ++ deed :: after := by
  rcases List.append_eq_append_iff.mp h with ⟨rest, hbefore, htail⟩ | ⟨rest, hdeeds, htail⟩
  · exact Or.inr ⟨rest, hbefore, htail⟩
  · cases rest with
    | nil =>
      rw [List.append_nil] at hdeeds
      exact Or.inr ⟨[], (hdeeds ▸ (List.append_nil _).symm), htail.symm⟩
    | cons first rest =>
      obtain ⟨rfl, -⟩ := List.cons.inj htail
      exact Or.inl ⟨rest, hdeeds⟩

/-- The counts of a lawful history. -/
theorem counts_of_lawful (hlawful : Lawful WorkAsks deeds) :
    counted deeds ≤ maxModelCalls ∧ modelCalls deeds ≤ counted deeds := by
  induction deeds using List.reverseRecOn with
  | nil => exact ⟨Nat.zero_le _, le_rfl⟩
  | append_singleton past deed ih =>
    obtain ⟨hcounted, hpaid⟩ := ih hlawful.left
    have hasks : WorkAsks past deed.query := hlawful past deed [] rfl
    rw [counted_snoc, modelCalls_snoc]
    obtain ⟨effect, answer⟩ := deed
    cases effect with
    | countModel stage =>
      have hlt : counted past < maxModelCalls := hasks.2
      cases answer with
      | ok _ => exact ⟨hlt, hpaid.trans (Nat.le_succ _)⟩
      | error _ => exact ⟨hcounted, hpaid⟩
    | askAdmission _ => exact ⟨hcounted, hasks.2 rfl⟩
    | vision _ _ _ _ => exact ⟨hcounted, hasks.2 rfl⟩
    | askMain _ => exact ⟨hcounted, hasks.2 rfl⟩
    | explain _ => exact ⟨hcounted, hasks.2 rfl⟩
    | stream _ => exact ⟨hcounted, hasks.2 rfl⟩
    | _ => exact ⟨hcounted, hpaid⟩

theorem fenced {α : Type} {outcome : Except Failure α}
    (hends : EndsAs (fun deeds _ ↦ ∃ granted, Orderly maxModelCalls 0 0 granted deeds) Broken deeds
      outcome) {before after : List (Deed F)}
    (hdeeds : deeds = before ++ ⟨effect, .error .leaseLost⟩ :: after)
    (hmark : effect.marksFailure = false) :
    after = [] ∧ outcome = .error .leaseLost ∨
      ∃ callId request work marked failure, effect = .runTool callId request work ∧
        after = [⟨.failTool callId request, marked⟩] ∧ outcome = .error failure := by
  cases outcome with
  | ok _ =>
    obtain ⟨granted, h⟩ := hends
    exact (h.not_lost hdeeds hmark).elim
  | error failure =>
    obtain ⟨granted, h⟩ := hends
    cases h with
    | halted h =>
      cases h with
      | orderly _ h => exact (h.not_lost hdeeds hmark).elim
      | lost other h =>
        rcases mem_or_tail hdeeds with ⟨rest, hrest⟩ | ⟨rest, -, htail⟩
        · exact (h.not_lost hrest hmark).elim
        · cases rest with
          | nil => exact Or.inl ⟨(List.cons.inj htail).2.symm, rfl⟩
          | cons first rest => cases rest <;> cases (List.cons.inj htail).2
    | lostTool callId request work marked _ h _ =>
      rcases mem_or_tail hdeeds with ⟨rest, hrest⟩ | ⟨rest, -, htail⟩
      · exact (h.not_lost hrest hmark).elim
      · cases rest with
        | nil =>
          obtain ⟨hrun, hafter⟩ := List.cons.inj htail
          cases hrun
          exact Or.inr ⟨callId, request, work, marked, failure, rfl, hafter.symm, rfl⟩
        | cons first rest =>
          have htail := (List.cons.inj htail).2
          cases rest with
          | nil =>
            cases (List.cons.inj htail).1
            cases hmark
          | cons second rest =>
            cases rest <;> cases (List.cons.inj htail).2

theorem workLaw {α : Type} {outcome : Except Failure α} (hlawful : Lawful WorkAsks deeds)
    (hends : EndsAs (fun deeds _ ↦ ∃ granted, Orderly maxModelCalls 0 0 granted deeds) Broken deeds
      outcome) : WorkLaw deeds outcome where
  lawful := hlawful
  counted := (counts_of_lawful hlawful).1
  paid := (counts_of_lawful hlawful).2
  fenced _ _ _ := fenced hends

end FilmOS.Agent
