import FilmOS.Agent.CapabilityLaws

/-!
# The executors

An executor is a graph with its queries carried out by its capabilities (`runOrder`,
`runScheduling`). What a graph has asked costs so many model calls, at most (`cost`): an order run
decides, reads a screenshot twice, asks the main model six times and composes, which are all the
`maxModelCalls` that a run may count. So the limit of `count_model` never stops a run that is the
only one to count its calls, and nothing that `WorkAsks` forbids is ever done (`order_work`,
`scheduling_work`).
-/

set_option autoImplicit false
set_option relaxedAutoImplicit false

namespace FilmOS.Agent

open Script

/-- How many model calls a query takes, at most. -/
def Query.cost {F : Type} : Query F → ℕ
  | .admittance _ => 1
  | .recognize _ => 2
  | .explainWorkbench => 1
  | .main _ _ => 1
  | .compose _ _ => 1
  | _ => 0

/-- How many model calls the queries of a history took, at most. -/
def cost {F : Type} (past : List (GraphEvent F)) : ℕ := (past.map fun event ↦ event.query.cost).sum

/-- `execute_order`, down to its effects. -/
def runOrder (wording : Wording OrderFacts OrderIntakeItem) (tools : OrderTools)
    (reader : ImageReader) : OrderWork (RunResult × Memory) :=
  executeOrder.handle (orderCapability wording tools reader) {}

/-- `execute_scheduling`, down to its effects. -/
def runScheduling (wording : PlanWording) : SchedulingWork (RunResult × Memory) :=
  executeScheduling.handle (schedulingCapability wording) {}

/-! ### The order capabilities -/

section Order

variable {budget : ℕ} {granted : Option Bool} {memory : Memory}
  {deeds : List (Deed OrderFacts)} {loaded : Loaded OrderFacts}
  {wording : Wording OrderFacts OrderIntakeItem} {tools : OrderTools} {reader : ImageReader}

/-- A run that goes on after a query, with all that it counted for it. -/
def Continues (budget : ℕ) (deeds : List (Deed OrderFacts)) : Prop :=
  ∃ granted, Orderly budget 0 0 granted deeds

theorem holds_admitOrder (hbudget : budget ≤ maxModelCalls) (h : Orderly budget 1 0 granted deeds) :
    (admitOrder loaded memory).Holds WorkAnswers WorkAsks deeds
      (fun deeds _ ↦ Continues budget deeds) Broken := by
  have hdecided (decided : Admission × Memory) (deeds : List (Deed OrderFacts))
      (h : Orderly budget 0 0 granted deeds) :
      (do let _ ← perform (.decide decided.1); return decided :
        OrderWork (Admission × Memory)).Holds WorkAnswers WorkAsks deeds
          (fun deeds _ ↦ Continues budget deeds) Broken :=
    holds_bind.mpr (holds_decide (fun _ _ h ↦ h.broken hbudget) h fun deeds h ↦ ⟨_, h⟩)
  refine holds_bind.mpr ?_
  unfold orderAdmission
  by_cases htrigger : loaded.triggerKind = .nextItem ∨ loaded.triggerKind = .resumeItem
  · rw [if_pos htrigger]
    exact hdecided _ _ (h.mono (by omega) le_rfl)
  · rw [if_neg htrigger]
    exact holds_admitInput hbudget h fun admission memory' deeds _ h ↦ hdecided _ _ h

theorem holds_giveUp {code message : String} (hbudget : budget ≤ maxModelCalls)
    {returns : List (Deed OrderFacts) → Recognized ⊕ Correction → Prop}
    (h : Orderly budget 0 0 granted deeds) :
    (giveUp code message).Holds WorkAnswers WorkAsks deeds returns Broken :=
  holds_bind.mpr (holds_quiet (fun _ _ h ↦ h.broken hbudget) h rfl fun _ _ h ↦
    (Halted.orderly _ h).broken hbudget)

/-- One attempt at a screenshot takes one model call. -/
theorem holds_attemptImage {spare attempt : ℕ} {source : ImageSource} {image modelId : String}
    {correction : Correction} (hbudget : budget ≤ maxModelCalls)
    (h : Orderly budget (spare + 1) 0 granted deeds) :
    (attemptImage reader source image modelId attempt correction).Holds WorkAnswers WorkAsks deeds
      (fun deeds _ ↦ Orderly budget spare 0 granted deeds) Broken := by
  have hraises (deeds : List (Deed OrderFacts)) (failure : Failure)
      (h : Halted budget granted deeds failure) : Broken deeds failure := h.broken hbudget
  have hgiveUp (code message : String) {deeds : List (Deed OrderFacts)}
      (h : Orderly budget spare 0 granted deeds) :
      (giveUp code message).Holds WorkAnswers WorkAsks deeds
        (fun deeds _ ↦ Orderly budget spare 0 granted deeds) Broken :=
    holds_giveUp hbudget (h.mono (by omega) le_rfl)
  refine holds_bind.mpr (holds_countModel hbudget hraises h fun deeds h ↦ ?_)
  refine holds_bind.mpr (holds_model hraises h rfl fun answer deeds h ↦ ?_)
  cases answer with
  | error code =>
    refine holds_bind.mpr (holds_quiet hraises h rfl fun _ deeds h ↦ ?_)
    split_ifs
    · exact hgiveUp _ _ h
    · exact h
  | refused =>
    refine holds_bind.mpr (holds_quiet hraises h rfl fun _ deeds h ↦ ?_)
    split_ifs
    · exact hgiveUp _ _ h
    · exact h
  | response json =>
    cases hread : reader.read source json with
    | ok recognized =>
      simp only [hread]
      exact h
    | error errors =>
      simp only [hread]
      refine holds_bind.mpr (holds_quiet hraises h rfl fun _ deeds h ↦ ?_)
      split_ifs
      · exact holds_bind.mpr (holds_checked hraises h fun _ ↦ h)
      · exact hgiveUp _ _ h
      · exact h

theorem holds_readImage {source : ImageSource} {image modelId : String}
    (hbudget : budget ≤ maxModelCalls) (h : Orderly budget 2 0 granted deeds) :
    (readImage reader source image modelId).Holds WorkAnswers WorkAsks deeds
      (fun deeds _ ↦ Orderly budget 0 0 granted deeds) Broken := by
  refine holds_bind.mpr ((holds_attemptImage hbudget h).mono (fun deeds first h ↦ ?_) fun _ _ h ↦ h)
  cases first with
  | inl recognized => exact h.mono (by omega) le_rfl
  | inr correction =>
    refine holds_bind.mpr ((holds_attemptImage hbudget h).mono (fun deeds second h ↦ ?_)
      fun _ _ h ↦ h)
    cases second with
    | inl recognized => exact h
    | inr correction => exact (Halted.orderly _ h).broken hbudget

theorem holds_saveRecognized {recognized : Recognized} {item : OrderIntakeItem} {workbench : Bool}
    (hbudget : budget ≤ maxModelCalls) (h : Orderly budget 0 0 granted deeds) :
    (saveRecognized tools recognized item workbench).Holds WorkAnswers WorkAsks deeds
      (fun deeds _ ↦ Orderly budget 0 0 granted deeds) Broken := by
  refine holds_bind.mpr (holds_attempt.mpr (holds_performTool ?_ h nofun fun result deeds h ↦ ?_))
  · intro deeds failure hended
    show Script.Holds _ _ (if ¬ workbench ∧ _ then _ else _) _ _ _
    split_ifs with hconflict
    · have horder := hended.orderly (isHttp_of_toolErrorCode hconflict.2)
      exact holds_bind.mpr (holds_quiet (fun _ _ h ↦ h.broken hbudget) horder rfl fun _ _ h ↦ h)
    · exact hended.broken hbudget
  · exact holds_checked (fun _ _ h ↦ h.broken hbudget) h fun _ ↦ h

theorem holds_recognize (hbudget : budget ≤ maxModelCalls) (h : Orderly budget 2 0 granted deeds) :
    (recognize reader tools loaded).Holds WorkAnswers WorkAsks deeds
      (fun deeds _ ↦ Orderly budget 0 0 granted deeds) Broken := by
  have hraises (deeds : List (Deed OrderFacts)) (failure : Failure)
      (h : Halted budget granted deeds failure) : Broken deeds failure := h.broken hbudget
  refine holds_bind.mpr (holds_checked hraises h fun facts ↦ ?_)
  refine holds_bind.mpr (holds_quiet hraises h rfl fun source deeds h ↦ ?_)
  refine holds_bind.mpr (holds_quiet hraises h rfl fun image deeds h ↦ ?_)
  refine holds_bind.mpr
    ((holds_readImage hbudget h).mono (fun deeds recognized h ↦ ?_) fun _ _ h ↦ h)
  refine holds_bind.mpr (holds_quiet hraises h rfl fun _ deeds h ↦ ?_)
  refine holds_bind.mpr (holds_quiet hraises h rfl fun _ deeds h ↦ ?_)
  exact holds_saveRecognized hbudget h

theorem holds_mainOrder {messages : List GraphMessage} (hbudget : budget ≤ maxModelCalls)
    (h : Orderly budget 1 0 granted deeds) :
    (mainOrder wording messages loaded memory).Holds WorkAnswers WorkAsks deeds
      (fun deeds _ ↦ Continues budget deeds) Broken := by
  have hraises (deeds : List (Deed OrderFacts)) (failure : Failure)
      (h : Halted budget granted deeds failure) : Broken deeds failure := h.broken hbudget
  refine holds_bind.mpr (holds_countModel hbudget hraises h fun deeds h ↦ ?_)
  refine holds_bind.mpr (holds_getClient hraises h fun memory' deeds _ h ↦ ?_)
  refine holds_bind.mpr (holds_quiet hraises h rfl fun current deeds h ↦ ?_)
  refine holds_bind.mpr (holds_checked hraises h fun _ ↦ ?_)
  exact holds_bind.mpr (holds_askMain hbudget h fun reply deeds h ↦ ⟨_, h⟩)

theorem orderWork_ne_generate {name args : String} {validate : String → Option ToolWork}
    {work : ToolWork} (hvalidate : orderWork tools name = some validate)
    (hwork : validate args = some work) : work ≠ .generate := by
  rintro rfl
  unfold orderWork at hvalidate
  split at hvalidate <;> cases hvalidate
  · dsimp only at hwork
    split_ifs at hwork
    cases hwork
  all_goals
    try unfold searchWork at hwork
    obtain ⟨value, -, heq⟩ := Option.map_eq_some_iff.mp hwork
    cases heq

theorem holds_toolOrder {call : ToolCall} (hbudget : budget ≤ maxModelCalls)
    (h : Orderly budget 0 0 granted deeds) :
    (toolOrder wording tools call).Holds WorkAnswers WorkAsks deeds
      (fun deeds _ ↦ Orderly budget 0 0 granted deeds) Broken := by
  unfold toolOrder
  cases hvalidate : orderWork tools call.name with
  | none => exact h
  | some validate =>
    cases hwork : validate call.args with
    | none =>
      simp only [hwork]
      exact h
    | some work =>
      simp only [hwork]
      have hgenerate : work ≠ .generate := orderWork_ne_generate hvalidate hwork
      exact holds_answerTool (fun _ _ h ↦ h.broken hbudget)
        (holds_performTool (fun _ _ h ↦ h) h (fun heq ↦ absurd heq hgenerate) fun _ _ h ↦ h)
        fun _ _ h ↦ h

theorem holds_composeOrder {messages : List GraphMessage} (hbudget : budget ≤ maxModelCalls)
    (h : Orderly budget 1 0 granted deeds) :
    (composeOrder wording messages loaded memory).Holds WorkAnswers WorkAsks deeds
      (fun deeds _ ↦ Continues budget deeds) Broken := by
  have hraises (deeds : List (Deed OrderFacts)) (failure : Failure)
      (h : Halted budget granted deeds failure) : Broken deeds failure := h.broken hbudget
  refine holds_bind.mpr (holds_countModel hbudget hraises h fun deeds h ↦ ?_)
  refine holds_bind.mpr (holds_quiet hraises h rfl fun current deeds h ↦ ?_)
  refine holds_bind.mpr (holds_checked hraises h fun _ ↦ ?_)
  exact holds_composeText hbudget h fun _ _ deeds _ h ↦ ⟨_, h⟩

/-- A query of the order graph takes no more model calls than it costs. -/
theorem holds_orderCapability {q : Query OrderFacts} (hbudget : budget + q.cost ≤ maxModelCalls)
    (h : Orderly budget 0 0 granted deeds) :
    (orderCapability wording tools reader memory q).Holds WorkAnswers WorkAsks deeds
      (fun deeds _ ↦ Continues (budget + q.cost) deeds) Broken := by
  have hspare : Orderly (budget + q.cost) q.cost 0 granted deeds := h.mono (by omega) le_rfl
  cases q with
  | load =>
    exact holds_bind.mpr (holds_load (fun _ _ h ↦ h.broken hbudget) hspare fun _ _ h ↦ ⟨_, h⟩)
  | admittance loaded => exact holds_admitOrder hbudget hspare
  | recognize loaded =>
    exact holds_bind.mpr ((holds_recognize hbudget hspare).mono (fun _ _ h ↦ ⟨_, h⟩) fun _ _ h ↦ h)
  | main messages loaded => exact holds_mainOrder hbudget hspare
  | tool call =>
    exact holds_bind.mpr ((holds_toolOrder hbudget hspare).mono (fun _ _ h ↦ ⟨_, h⟩) fun _ _ h ↦ h)
  | compose messages loaded => exact holds_composeOrder hbudget hspare
  | generate => exact (Halted.orderly _ hspare).broken hbudget
  | explainWorkbench => exact (Halted.orderly _ (hspare.mono (by omega) le_rfl)).broken hbudget

end Order

/-! ### The cost of an order run -/

theorem cost_append {F : Type} (first second : List (GraphEvent F)) :
    cost (first ++ second) = cost first + cost second := by
  unfold cost
  rw [List.map_append, List.sum_append]

/-- In a conversation only the replies cost. -/
theorem cost_turns {F : Type} {turns : List (GraphEvent F)}
    (h : ∀ event ∈ turns, isMain event = true ∨ IsCall event) : cost turns = mainCount turns := by
  induction turns with
  | nil => rfl
  | cons event turns ih =>
    have hrest := ih fun other hother ↦ h other (List.mem_cons_of_mem _ hother)
    have hsplit : event :: turns = [event] ++ turns := rfl
    rw [hsplit, cost_append, mainCount_append, hrest, Nat.add_right_cancel_iff]
    rcases h event (List.mem_cons_self ..) with hmain | ⟨call, result, rfl⟩
    · obtain ⟨q, answer⟩ := event
      cases q with
      | main messages loaded => rfl
      | _ => cases hmain
    · rfl

theorem Opened.cost_le {past : List OrderEvent} {loaded : Loaded OrderFacts}
    (h : Opened past loaded) : cost past ≤ 3 ∧ mainCount past = 0 := by
  cases h with
  | recognized _ hadmitted _ _ =>
    cases hadmitted
    exact ⟨Nat.le_of_ble_eq_true rfl, rfl⟩
  | tried _ _ hadmitted _ _ =>
    cases hadmitted
    exact ⟨le_rfl, rfl⟩

theorem Discusses.cost_le {past : List OrderEvent} {loaded : Loaded OrderFacts}
    (h : Discusses past loaded) : cost past ≤ 3 + mainCount past := by
  obtain ⟨opening, turns, rfl, hopened, hturns⟩ := h
  obtain ⟨hcost, hmain⟩ := hopened.cost_le
  rw [cost_append, mainCount_append, cost_turns hturns, hmain]
  omega

/-- What the order graph may ask stays within the limit of the model calls. -/
theorem OrderAsks.cost_le {past : List OrderEvent} {q : Query OrderFacts} (h : OrderAsks past q)
    (hmains : mainCount past ≤ maxMainCalls) : cost past + q.cost ≤ maxModelCalls := by
  unfold maxMainCalls at hmains
  unfold maxModelCalls
  cases h with
  | load => exact Nat.zero_le _
  | admittance => exact Nat.le_of_ble_eq_true rfl
  | extract => exact Nat.le_of_ble_eq_true rfl
  | recognize _ hadmitted _ _ =>
    cases hadmitted
    exact Nat.le_of_ble_eq_true rfl
  | main hdiscusses _ _ _ hcount =>
    have hcost := hdiscusses.cost_le
    unfold maxMainCalls at hcount
    show cost past + 1 ≤ 10
    omega
  | tool _ _ hdiscusses _ _ _ =>
    have hcost := hdiscusses.cost_le
    show cost past + 0 ≤ 10
    omega
  | compose hdiscusses _ _ _ =>
    have hcost := hdiscusses.cost_le
    show cost past + 1 ≤ 10
    omega

/-- The deeds of an order run follow its queries. -/
def OrderRelation (past : List OrderEvent) (_ : Memory) (deeds : List (Deed OrderFacts)) : Prop :=
  Continues (cost past) deeds ∧ cost past ≤ maxModelCalls ∧ mainCount past ≤ maxMainCalls

theorem mainCount_le_of_asks {F : Type} {asks : List (GraphEvent F) → Query F → Prop}
    {past : List (GraphEvent F)} {q : Query F} {answer : Except Failure (Answer q)}
    (hcounted : ∀ messages loaded, asks past (.main messages loaded) →
      mainCount past < maxMainCalls)
    (hasks : asks past q) (hmains : mainCount past ≤ maxMainCalls) :
    mainCount (past ++ [⟨q, answer⟩]) ≤ maxMainCalls := by
  rw [mainCount_snoc]
  cases q with
  | main messages loaded => exact hcounted messages loaded hasks
  | _ => exact hmains

theorem cost_snoc {F : Type} {past : List (GraphEvent F)} {event : GraphEvent F} :
    cost (past ++ [event]) = cost past + event.query.cost := by
  rw [cost_append]
  rfl

theorem runOrder_holds (wording : Wording OrderFacts OrderIntakeItem) (tools : OrderTools)
    (reader : ImageReader) :
    (runOrder wording tools reader).Holds WorkAnswers WorkAsks []
      (fun deeds _ ↦ ∃ granted, Orderly maxModelCalls 0 0 granted deeds) Broken := by
  have hhandled : (runOrder wording tools reader).Holds WorkAnswers WorkAsks []
      (fun deeds result ↦ ∃ past, OrderRelation past result.2 deeds ∧
        OrderEnds past result.1.outcome) Broken := by
    refine holds_handle OrderRelation ?_ ?_ executeOrder_holds ?_
    · rintro past memory deeds q ⟨⟨granted, h⟩, hbudget, hmains⟩ hasks
      have hcost := hasks.cost_le hmains
      refine (holds_orderCapability hcost h).mono (fun deeds answer h ↦ ⟨?_, ?_, ?_⟩) fun _ _ h ↦ h
      · rw [cost_snoc]
        exact h
      · rw [cost_snoc]
        exact hcost
      · exact mainCount_le_of_asks (fun _ _ h ↦ h.counted) hasks hmains
    · rintro past memory deeds failure ⟨⟨granted, h⟩, hbudget, -⟩ -
      exact (Halted.orderly failure h).broken hbudget
    · exact ⟨⟨none, fun _ hdeed ↦ (List.not_mem_nil hdeed).elim, le_rfl, le_rfl, rfl⟩,
        Nat.zero_le _, Nat.zero_le _⟩
  refine hhandled.mono ?_ fun _ _ h ↦ h
  rintro deeds result ⟨past, ⟨⟨granted, h⟩, hbudget, -⟩, -⟩
  exact ⟨granted, h.mono (by omega) le_rfl⟩

/-- Whatever comes back, an order run counts at most as many model calls as it may, asks no model
for one that was not counted, does the work of a tool call once, right after it was entered, and
does nothing after its lease was found lost. -/
theorem order_work (wording : Wording OrderFacts OrderIntakeItem) (tools : OrderTools)
    (reader : ImageReader)
    (surroundings : List (Deed OrderFacts) → (effect : Effect OrderFacts) →
      Except Failure (Reply effect))
    (hsurroundings : ∀ deeds effect, WorkAnswers deeds effect (surroundings deeds effect)) :
    WorkLaw ((runOrder wording tools reader).run surroundings []).1
      ((runOrder wording tools reader).run surroundings []).2 := by
  obtain ⟨hlawful, hends⟩ :=
    holds_run surroundings hsurroundings (runOrder_holds wording tools reader) lawful_nil
  exact workLaw hlawful hends

/-- Texts that say nothing. -/
def plainWording {F C : Type} : Wording F C where
  message _ := ⟨"human", ""⟩
  system _ _ _ := ""
  composing := ""
  facts _ _ _ := ⟨"human", ""⟩
  result _ := "{}"
  refusal code := code

/-- Tools that accept all arguments. -/
def anyTools : OrderTools where
  noArgs _ := true
  searchArgs query := some (query, 1)
  draftPatch _ := none
  digest _ := ""

/-- A reader that nothing is read by. -/
def noReader : ImageReader where
  read _ _ := .error []
  sanitize _ _ _ := .error .attributeError

/-- An item whose screenshot was recognised. -/
def recognizedItem : OrderIntakeItem where
  id := "i"
  sourceMessageId := "m"
  sourceAttachmentId := "a"
  sourceOrderIndex := 1
  queuePosition := 1
  status := .active
  revision := 2
  recognitionStatus := .succeeded
  draft := .blank
  issues := []
  provenance := Table.empty
  orderId := none
  lastErrorCode := none
  createdAt := 0

/-- The message of a run is admitted, and its model reads the draft and searches for a customer. The
search is refused, and the next reply calls no tools. -/
def searching (deeds : List (Deed OrderFacts)) :
    (effect : Effect OrderFacts) → Except Failure (Reply effect)
  | .load => .ok ⟨[⟨false, "开始录单"⟩], "开始录单", .message, false,
      ⟨some ⟨recognizedItem, none⟩, false, "vision", false⟩⟩
  | .countModel _ => .ok ()
  | .modelSettings => .ok ()
  | .askAdmission _ => .ok ⟨some "stop", false, some ⟨.allow, .inScope, .query⟩⟩
  | .usage => .ok ()
  | .decide _ => .ok ()
  | .currentItem => .ok recognizedItem
  | .askMain _ =>
    if deeds.any (·.query.marksFailure) then .ok ⟨some "second", "", []⟩
    else .ok ⟨some "first", "",
      [⟨some "read", "read_current_draft", "{}"⟩, ⟨some "search", "search_customers", "{}"⟩]⟩
  | .startTool request => .ok (.started request.callKey)
  | .runTool _ _ .readDraft => .ok (.item recognizedItem none)
  | .runTool _ _ _ => .error (.http 422 "query")
  | .failTool _ _ => .ok ()
  | .stream _ => .ok "请核对订单。"
  | _ => .error .leaseLost

/-- The step of a tool call that is done, with the identifier of the call. -/
def toolStep {F : Type} : Effect F → Option (String × Id)
  | .startTool request => some ("start", request.callKey)
  | .runTool callId _ _ => some ("run", callId)
  | .failTool callId _ => some ("fail", callId)
  | _ => none

theorem workAnswers_searching (deeds : List (Deed OrderFacts)) (effect : Effect OrderFacts) :
    WorkAnswers deeds effect (searching deeds effect) := by
  cases effect <;> exact trivial

theorem order_work_admitted :
    WorkLaw ((runOrder plainWording anyTools noReader).run searching []).1
      ((runOrder plainWording anyTools noReader).run searching []).2 ∧
    counted ((runOrder plainWording anyTools noReader).run searching []).1 = 4 ∧
    ((runOrder plainWording anyTools noReader).run searching []).1.filterMap
      (fun deed ↦ toolStep deed.query) =
        [("start", "read"), ("run", "read"),
          ("start", "search"), ("run", "search"), ("fail", "search")] :=
  ⟨order_work plainWording anyTools noReader searching workAnswers_searching,
    by decide +kernel, by decide +kernel⟩

/-! ### The scheduling capabilities -/

section Scheduling

variable {budget : ℕ} {granted : Option Bool} {memory : Memory}
  {deeds : List (Deed SchedulingFacts)} {loaded : Loaded SchedulingFacts}
  {wording : PlanWording}

/-- A run that goes on after a query, and remembers whether it may generate a plan. -/
abbrev Remembers {α : Type} (budget : ℕ) (deeds : List (Deed SchedulingFacts))
    (answer : α × Memory) : Prop :=
  Orderly budget 0 0 answer.2.generationAllowed deeds

theorem remembers_of_eq {α : Type} {a : α} {memory' : Memory}
    (hmemory : memory'.generationAllowed = granted)
    (h : Orderly budget 0 0 granted deeds) : Remembers budget deeds (a, memory') := by
  subst hmemory
  exact h

theorem holds_loadScheduling (hbudget : budget ≤ maxModelCalls)
    (h : Orderly budget 0 0 granted deeds) :
    (loadScheduling memory).Holds WorkAnswers WorkAsks deeds (fun deeds ↦ Remembers budget deeds)
      Broken :=
  holds_bind.mpr (holds_load (fun _ _ h ↦ h.broken hbudget) h fun _ _ h ↦ h)

theorem holds_admitScheduling (hbudget : budget ≤ maxModelCalls)
    (h : Orderly budget 1 0 granted deeds) :
    (admitScheduling loaded memory).Holds WorkAnswers WorkAsks deeds
      (fun deeds ↦ Remembers budget deeds) Broken := by
  have hraises (deeds : List (Deed SchedulingFacts)) (failure : Failure)
      (h : Halted budget granted deeds failure) : Broken deeds failure := h.broken hbudget
  have hadmission : (schedulingAdmission loaded memory).Holds WorkAnswers WorkAsks deeds
      (fun deeds _ ↦ Orderly budget 0 0 granted deeds) Broken := by
    unfold schedulingAdmission
    by_cases htrigger : loaded.triggerKind = .replacePlan ∨ loaded.facts.retryIntent.isSome
    · rw [if_pos htrigger]
      exact h.mono (by omega) le_rfl
    · rw [if_neg htrigger]
      exact holds_admitInput hbudget h fun _ _ _ _ h ↦ h
  refine holds_bind.mpr (hadmission.mono (fun deeds decided h ↦ ?_) fun _ _ h ↦ h)
  exact holds_bind.mpr (holds_decide hraises h fun deeds h ↦ h)

theorem schedulingWork_generate {name : String} {work : ToolWork}
    (h : schedulingWork name = some work) (hwork : work = .generate) : name = "generate_draft" := by
  subst hwork
  unfold schedulingWork at h
  split at h <;> first | rfl | cases h

theorem holds_attemptTool {request : ToolRequest} {work : ToolWork}
    (hbudget : budget ≤ maxModelCalls) (h : Orderly budget 0 0 granted deeds)
    (hwork : work = .generate → granted = some true) :
    (attemptTool request work).Holds WorkAnswers WorkAsks deeds
      (fun deeds _ ↦ Orderly budget 0 0 granted deeds) Broken := by
  refine holds_bind.mpr (holds_attempt.mpr
    (holds_performTool (fun deeds failure hended ↦ ?_) h hwork fun result deeds h ↦ h))
  cases hcode : toolErrorCode "TOOL_FAILED" failure with
  | none =>
    simp only [hcode]
    exact hended.broken hbudget
  | some code =>
    simp only [hcode]
    exact hended.orderly (isHttp_of_toolErrorCode hcode)

/-- A plan is generated only where the run may generate one. -/
theorem holds_scheduleTool {call : ToolCall} (hbudget : budget ≤ maxModelCalls)
    (h : Orderly budget 0 0 memory.generationAllowed deeds) :
    (scheduleTool call memory).Holds WorkAnswers WorkAsks deeds
      (fun deeds _ ↦ Orderly budget 0 0 memory.generationAllowed deeds) Broken := by
  unfold scheduleTool
  cases hwork : schedulingWork call.name with
  | none => exact h
  | some work =>
    by_cases hargs : call.args ≠ "{}"
    · simp only [if_pos hargs]
      exact h
    simp only [if_neg hargs]
    refine holds_bind.mpr ?_
    cases hgate : generationGate call.name memory with
    | error failure => exact (Halted.orderly failure h).broken hbudget
    | ok allowed =>
      show Script.Holds _ _ (if allowed = true then _ else _) _ _ _
      split_ifs with hallowed
      · refine holds_attemptTool hbudget h fun hgenerate ↦ ?_
        have hname := schedulingWork_generate hwork hgenerate
        unfold generationGate at hgate
        rw [if_pos hname, hallowed] at hgate
        cases hgranted : memory.generationAllowed with
        | none =>
          rw [hgranted] at hgate
          cases hgate
        | some granted =>
          rw [hgranted] at hgate
          exact congrArg some (Except.ok.inj hgate)
      · exact h

theorem holds_mainScheduling {messages : List GraphMessage} (hbudget : budget ≤ maxModelCalls)
    (h : Orderly budget 1 0 memory.generationAllowed deeds) :
    (mainScheduling wording.toWording messages loaded memory).Holds WorkAnswers WorkAsks deeds
      (fun deeds ↦ Remembers budget deeds) Broken := by
  have hraises (deeds : List (Deed SchedulingFacts)) (failure : Failure)
      (h : Halted budget memory.generationAllowed deeds failure) : Broken deeds failure :=
    h.broken hbudget
  refine holds_bind.mpr (holds_countModel hbudget hraises h fun deeds h ↦ ?_)
  refine holds_bind.mpr (holds_getClient hraises h fun memory' deeds hmemory h ↦ ?_)
  refine holds_bind.mpr (holds_quiet hraises h rfl fun current deeds h ↦ ?_)
  exact holds_bind.mpr (holds_askMain hbudget h fun reply deeds h ↦ remembers_of_eq hmemory h)

theorem holds_composeScheduling {messages : List GraphMessage} (hbudget : budget ≤ maxModelCalls)
    (h : Orderly budget 1 0 memory.generationAllowed deeds) :
    (composeScheduling wording.toWording messages loaded memory).Holds WorkAnswers WorkAsks deeds
      (fun deeds ↦ Remembers budget deeds) Broken := by
  have hraises (deeds : List (Deed SchedulingFacts)) (failure : Failure)
      (h : Halted budget memory.generationAllowed deeds failure) : Broken deeds failure :=
    h.broken hbudget
  refine holds_bind.mpr (holds_countModel hbudget hraises h fun deeds h ↦ ?_)
  refine holds_bind.mpr (holds_quiet hraises h rfl fun current deeds h ↦ ?_)
  exact holds_composeText hbudget h fun _ _ deeds hmemory h ↦ remembers_of_eq hmemory h

/-- The explanation may fail without the run, unless the lease is lost. -/
theorem holds_explainWorkbenchPlan (hbudget : budget ≤ maxModelCalls)
    (h : Orderly budget 1 0 memory.generationAllowed deeds) :
    (explainWorkbenchPlan wording memory).Holds WorkAnswers WorkAsks deeds
      (fun deeds ↦ Remembers budget deeds) Broken := by
  refine holds_bind.mpr (holds_quiet (fun _ _ h ↦ h.broken hbudget) h rfl fun plan deeds h ↦ ?_)
  have hexplain : (explainPlan wording plan memory).Holds WorkAnswers WorkAsks deeds
      (fun deeds ↦ Remembers budget deeds) (Halted budget memory.generationAllowed) := by
    refine holds_bind.mpr (holds_countModel hbudget (fun _ _ h ↦ h) h fun deeds h ↦ ?_)
    refine holds_bind.mpr (holds_getClient (fun _ _ h ↦ h) h fun memory' deeds hmemory h ↦ ?_)
    refine holds_bind.mpr (holds_checked (fun _ _ h ↦ h) h fun input ↦ ?_)
    refine holds_bind.mpr (holds_model (fun _ _ h ↦ h) h rfl fun text deeds h ↦ ?_)
    exact holds_bind.mpr (holds_quiet (fun _ _ h ↦ h) h rfl fun _ deeds h ↦
      remembers_of_eq hmemory h)
  refine holds_bind.mpr (holds_attempt.mpr (hexplain.mono ?_ ?_))
  · rintro deeds ⟨text, memory'⟩ h
    exact h
  · intro deeds failure hhalted
    cases hhalted with
    | lost effect h => exact (Halted.lost effect h).broken hbudget
    | orderly _ h =>
      cases failure with
      | leaseLost => exact (Halted.orderly _ h).broken hbudget
      | _ => exact h

/-- A query of the scheduling graph takes no more model calls than it costs. -/
theorem holds_schedulingCapability {q : Query SchedulingFacts}
    (hbudget : budget + q.cost ≤ maxModelCalls)
    (h : Orderly budget 0 0 memory.generationAllowed deeds) :
    (schedulingCapability wording memory q).Holds WorkAnswers WorkAsks deeds
      (fun deeds ↦ Remembers (budget + q.cost) deeds) Broken := by
  have hspare : Orderly (budget + q.cost) q.cost 0 memory.generationAllowed deeds :=
    h.mono (by omega) le_rfl
  cases q with
  | load => exact holds_loadScheduling hbudget hspare
  | admittance loaded => exact holds_admitScheduling hbudget hspare
  | generate =>
    refine holds_bind.mpr (holds_bind.mpr ((holds_scheduleTool hbudget hspare).mono
      (fun deeds answer h ↦ ?_) fun _ _ h ↦ h))
    cases answer <;> exact h
  | explainWorkbench => exact holds_explainWorkbenchPlan hbudget hspare
  | main messages loaded => exact holds_mainScheduling hbudget hspare
  | tool call =>
    refine holds_bind.mpr (holds_bind.mpr ((holds_scheduleTool hbudget hspare).mono
      (fun deeds answer h ↦ ?_) fun _ _ h ↦ h))
    cases answer <;> exact h
  | compose messages loaded => exact holds_composeScheduling hbudget hspare
  | recognize loaded =>
    exact (Halted.orderly _ (hspare.mono (by omega) le_rfl)).broken hbudget

end Scheduling

/-! ### The cost of a scheduling run -/

theorem Authorized.cost_le {past : List SchedulingEvent} {loaded : Loaded SchedulingFacts}
    (h : Authorized past loaded) : cost past ≤ 1 ∧ mainCount past = 0 := by
  cases h with
  | workbench => exact ⟨Nat.zero_le _, rfl⟩
  | admitted => exact ⟨le_rfl, rfl⟩

theorem SchedulingOpened.cost_le {past : List SchedulingEvent} {loaded : Loaded SchedulingFacts}
    {outcome : RunOutcome} (h : SchedulingOpened past loaded outcome) :
    cost past ≤ 1 ∧ mainCount past = 0 := by
  cases h with
  | question => exact ⟨le_rfl, rfl⟩
  | plan answer hauthorized =>
    rw [cost_append, mainCount_append]
    exact hauthorized.cost_le

theorem SchedulingTalk.cost_le {past : List SchedulingEvent} {loaded : Loaded SchedulingFacts}
    {outcome : RunOutcome} (h : SchedulingTalk past loaded outcome) :
    cost past ≤ 1 + mainCount past := by
  obtain ⟨opening, turns, rfl, hopened, hturns⟩ := h
  obtain ⟨hcost, hmain⟩ := hopened.cost_le
  rw [cost_append, mainCount_append, cost_turns hturns, hmain]
  omega

/-- What the scheduling graph may ask stays within the limit of the model calls. -/
theorem SchedulingAsks.cost_le {past : List SchedulingEvent} {q : Query SchedulingFacts}
    (h : SchedulingAsks past q) (hmains : mainCount past ≤ maxMainCalls) :
    cost past + q.cost ≤ maxModelCalls := by
  unfold maxMainCalls at hmains
  unfold maxModelCalls
  cases h with
  | load => exact Nat.zero_le _
  | admittance => exact Nat.le_of_ble_eq_true rfl
  | generate hauthorized =>
    have hcost := hauthorized.cost_le.1
    show cost past + 0 ≤ 10
    omega
  | explain => exact Nat.le_of_ble_eq_true rfl
  | main htalk _ _ _ hcount =>
    have hcost := htalk.cost_le
    show cost past + 1 ≤ 10
    omega
  | tool _ _ htalk _ _ _ =>
    have hcost := htalk.cost_le
    show cost past + 0 ≤ 10
    omega
  | compose htalk _ _ _ =>
    have hcost := htalk.cost_le
    show cost past + 1 ≤ 10
    omega

/-- The deeds of a scheduling run follow its queries. -/
def SchedulingRelation (past : List SchedulingEvent) (memory : Memory)
    (deeds : List (Deed SchedulingFacts)) : Prop :=
  Orderly (cost past) 0 0 memory.generationAllowed deeds ∧ cost past ≤ maxModelCalls ∧
    mainCount past ≤ maxMainCalls

theorem runScheduling_holds (wording : PlanWording) :
    (runScheduling wording).Holds WorkAnswers WorkAsks []
      (fun deeds _ ↦ ∃ granted, Orderly maxModelCalls 0 0 granted deeds) Broken := by
  have hhandled : (runScheduling wording).Holds WorkAnswers WorkAsks []
      (fun deeds result ↦ ∃ past, SchedulingRelation past result.2 deeds ∧
        SchedulingEnds past result.1.outcome) Broken := by
    refine holds_handle SchedulingRelation ?_ ?_ executeScheduling_holds ?_
    · rintro past memory deeds q ⟨h, hbudget, hmains⟩ hasks
      have hcost := hasks.cost_le hmains
      refine (holds_schedulingCapability hcost h).mono (fun deeds answer h ↦ ⟨?_, ?_, ?_⟩)
        fun _ _ h ↦ h
      · rw [cost_snoc]
        exact h
      · rw [cost_snoc]
        exact hcost
      · exact mainCount_le_of_asks (fun _ _ h ↦ h.counted) hasks hmains
    · rintro past memory deeds failure ⟨h, hbudget, -⟩ -
      exact (Halted.orderly failure h).broken hbudget
    · exact ⟨⟨fun _ hdeed ↦ (List.not_mem_nil hdeed).elim, le_rfl, le_rfl, rfl⟩,
        Nat.zero_le _, Nat.zero_le _⟩
  refine hhandled.mono ?_ fun _ _ h ↦ h
  rintro deeds result ⟨past, ⟨h, hbudget, -⟩, -⟩
  exact ⟨_, h.mono (by omega) le_rfl⟩

/-- Whatever comes back, a scheduling run keeps the law of the work of a run; in particular it
generates a plan only where the run is one of the workbench or its input was admitted as asking for
one. -/
theorem scheduling_work (wording : PlanWording)
    (surroundings : List (Deed SchedulingFacts) → (effect : Effect SchedulingFacts) →
      Except Failure (Reply effect))
    (hsurroundings : ∀ deeds effect, WorkAnswers deeds effect (surroundings deeds effect)) :
    WorkLaw ((runScheduling wording).run surroundings []).1
      ((runScheduling wording).run surroundings []).2 := by
  obtain ⟨hlawful, hends⟩ :=
    holds_run surroundings hsurroundings (runScheduling_holds wording) lawful_nil
  exact workLaw hlawful hends

/-- A run of the workbench whose lease is lost while its plan is generated. -/
def losing (_ : List (Deed SchedulingFacts)) :
    (effect : Effect SchedulingFacts) → Except Failure (Reply effect)
  | .load => .ok ⟨[], "", .message, true, ⟨none, none⟩⟩
  | .startTool _ => .ok (.started "call-1")
  | _ => .error .leaseLost

theorem scheduling_work_lost :
    WorkLaw ((runScheduling ⟨plainWording, fun _ ↦ "", fun _ ↦ ""⟩).run losing []).1
      ((runScheduling ⟨plainWording, fun _ ↦ "", fun _ ↦ ""⟩).run losing []).2 ∧
    ((runScheduling ⟨plainWording, fun _ ↦ "", fun _ ↦ ""⟩).run losing []).1.length = 4 :=
  ⟨scheduling_work ⟨plainWording, fun _ ↦ "", fun _ ↦ ""⟩ losing
    fun _ effect ↦ by cases effect <;> first | exact trivial | exact not_isHttp_leaseLost, rfl⟩

end FilmOS.Agent
