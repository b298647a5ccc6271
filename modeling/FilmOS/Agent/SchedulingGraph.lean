import FilmOS.Agent.OrderGraph

/-!
# The graph of a scheduling run

A scheduling run answers questions or prepares one plan. A run of the workbench generates and
explains; any other run generates only where the input was admitted as asking for it, before it
converses with the main model, and an input that asks to execute or adjust a plan is answered by a
fixed text (`schedulingGraph`). `SchedulingAsks` says in terms of the history alone what may be
asked, and `SchedulingEnds` which outcome a run has; a generation that found nothing to do, was
refused, or would replace a draft ends the run (`Generated.IsReady`). `scheduling_run` is the law of
every run, whatever the capabilities answer.
-/

set_option autoImplicit false
set_option relaxedAutoImplicit false

namespace FilmOS.Agent

open Script

/-- What a scheduling run loads besides what every run loads: the authorised replacement, and the
active plan. -/
structure SchedulingFacts where
  retryIntent : Option RetryIntent
  plan : Option SchedulePlan

/-- The texts that `outcome` may have in the state of the graph. -/
inductive PlanOutcome
  | run (outcome : RunOutcome)
  | replacementRequired
deriving DecidableEq, Repr

structure SchedulingState extends GraphState SchedulingFacts where
  outcome : Option PlanOutcome := none

inductive SchedulingNode
  | loadContext
  | admittance
  | explainScope
  | generatePlan
  | mainAgent
  | explainWorkbench
  | tools
  | composeResponse
deriving DecidableEq, Repr

/-! ### The nodes -/

/-- The work of a node that both graphs have. -/
def onGraphState
    (work : GraphState SchedulingFacts → Capable SchedulingFacts (GraphState SchedulingFacts))
    (s : SchedulingState) : Capable SchedulingFacts SchedulingState := do
  let worked ← work s.toGraphState
  return { s with toGraphState := worked }

/-- `load_context`. -/
def loadSchedulingContext (s : SchedulingState) : Capable SchedulingFacts SchedulingState := do
  let loaded ← loadContext s.toGraphState
  return { toGraphState := loaded, outcome := some (.run .answered) }

def SchedulingState.answered (s : SchedulingState) (text : String) (outcome : RunOutcome) :
    SchedulingState :=
  { s with toGraphState := s.toGraphState.finish text outcome }

/-- `explain_scope`. -/
def explainSchedulingScope (s : SchedulingState) : Except Failure SchedulingState := do
  let admission ← readKey s.admission "admission"
  return if admission.decision = .outOfScope then
    s.answered "本会话只协助排单。录入订单请进入录单助手；维护基础数据请前往对应页面。" .outOfScope
  else if admission.requestedOperation = .executeRequest then
    s.answered "请先核对右侧最新草案，再点击确认排单。对话不会直接下发生产。" .needsInput
  else if admission.requestedOperation = .adjustRequest then
    s.answered "请在右侧草案中调整机器、订单分组和顺序，保存后再确认排单。" .needsInput
  else
    s.answered "请说明需要查询当前生产情况，还是生成新的排单建议。" .needsInput

def SchedulingState.withOutcome (s : SchedulingState) (outcome : PlanOutcome) : SchedulingState :=
  { s with outcome := some outcome }

/-- The state after a generation. -/
def SchedulingState.generated (s : SchedulingState) (answer : Generated) : SchedulingState :=
  if (truthy answer.errorCode).isSome then
    (s.answered "草案生成未完成，请核对当前版本后重试。" .needsInput).withOutcome .replacementRequired
  else if answer.outcome = some .noPending then
    (s.answered "当前没有待排单的订单，暂时无法生成排单建议。" .noPending).withOutcome (.run .noPending)
  else if answer.replacementRequired then
    (s.answered "已有一份待核对草案。如需重新生成，请先在右侧确认替换当前草案。"
      .needsInput).withOutcome .replacementRequired
  else
    s.withOutcome (.run (answer.outcome.getD .draftReady))

/-- `generate_plan`. -/
def generatePlan (s : SchedulingState) : Capable SchedulingFacts SchedulingState := do
  let answer : Generated ← request .generate
  return s.generated answer

/-- `RunOutcome(state["outcome"])`. -/
def SchedulingState.runOutcome (s : SchedulingState) : Except Failure RunOutcome := do
  match ← readKey s.outcome "outcome" with
  | .run outcome => return outcome
  | .replacementRequired => .error (.valueError "'REPLACEMENT_REQUIRED' is not a valid RunOutcome")

/-- `explain_workbench`. -/
def explainWorkbench (s : SchedulingState) : Capable SchedulingFacts SchedulingState := do
  let text : String ← request .explainWorkbench
  let outcome ← ofExcept s.runOutcome
  return s.answered text outcome

/-- The edge from `load_context`. -/
def afterSchedulingLoad (s : SchedulingState) : Except Failure SchedulingNode := do
  let loaded ← readKey s.loaded "loaded"
  return if loaded.workbench then .generatePlan else .admittance

/-- The input asks for what the graph leaves to the user. -/
def Admission.leavesToUser (admission : Admission) : Bool :=
  admission.decision ≠ .allow ∨ admission.requestedOperation = .executeRequest ∨
    admission.requestedOperation = .adjustRequest

/-- `route`. -/
def schedulingRoute (s : SchedulingState) : Except Failure SchedulingNode := do
  let admission ← readKey s.admission "admission"
  return if admission.leavesToUser then .explainScope
  else if admission.requestedOperation = .generate then .generatePlan
  else .mainAgent

/-- The edge from `generate_plan`. -/
def afterGeneration (s : SchedulingState) : Except Failure (Option SchedulingNode) := do
  let outcome ← readKey s.outcome "outcome"
  if outcome = .run .noPending ∨ outcome = .replacementRequired then return none
  let loaded ← readKey s.loaded "loaded"
  return some (if loaded.workbench then .explainWorkbench else .mainAgent)

/-- The edge from `main_agent`. -/
def afterSchedulingReply (s : SchedulingState) : Except Failure SchedulingNode := do
  let calls ← callsTools s.toGraphState
  return if calls then .tools else .composeResponse

/-- `build_scheduling_graph`. -/
def schedulingGraph :
    StateGraph Failure (Answer (F := SchedulingFacts)) SchedulingNode SchedulingState where
  work
    | .loadContext => loadSchedulingContext
    | .admittance => onGraphState admittance
    | .explainScope => fun s ↦ ofExcept (explainSchedulingScope s)
    | .generatePlan => generatePlan
    | .mainAgent => onGraphState mainAgent
    | .explainWorkbench => explainWorkbench
    | .tools => onGraphState tools
    | .composeResponse => fun s ↦ onGraphState (composeResponse s.runOutcome) s
  next
    | .loadContext => fun s ↦ some <$> afterSchedulingLoad s
    | .admittance => fun s ↦ some <$> schedulingRoute s
    | .generatePlan => afterGeneration
    | .mainAgent => fun s ↦ some <$> afterSchedulingReply s
    | .tools => fun _ ↦ .ok (some .mainAgent)
    | _ => fun _ ↦ .ok none

/-- `execute_scheduling`. -/
def executeScheduling : Capable SchedulingFacts RunResult := do
  let final ← schedulingGraph.invoke recursionError recursionLimit .loadContext {}
  ofExcept (readKey final.result "result")

/-! ### What a scheduling run may ask -/

abbrev SchedulingEvent := GraphEvent SchedulingFacts

/-- The generation left a plan that the run goes on with. -/
structure Generated.IsReady (answer : Generated) : Prop where
  accepted : truthy answer.errorCode = none
  pending : answer.outcome ≠ some .noPending
  free : answer.replacementRequired = false

/-- The outcome of a plan that the run goes on with. -/
def Generated.planOutcome (answer : Generated) : RunOutcome := answer.outcome.getD .draftReady

/-- The outcome of a run whose generation left no plan to go on with. -/
def Generated.endOutcome (answer : Generated) : RunOutcome :=
  if truthy answer.errorCode = none ∧ answer.outcome = some .noPending then .noPending
  else .needsInput

/-- The history of a run that may generate a plan: one of the workbench, or one whose input was
admitted as asking for it. -/
inductive Authorized : List SchedulingEvent → Loaded SchedulingFacts → Prop
  | workbench (loaded : Loaded SchedulingFacts) (hworkbench : loaded.workbench = true) :
      Authorized [⟨.load, .ok loaded⟩] loaded
  | admitted (loaded : Loaded SchedulingFacts) (admission : Admission)
      (hworkbench : loaded.workbench = false) (hallow : admission.decision = .allow)
      (hoperation : admission.requestedOperation = .generate) :
      Authorized [⟨.load, .ok loaded⟩, ⟨.admittance loaded, .ok admission⟩] loaded

/-- The history before the conversation, and the outcome that it will have. -/
inductive SchedulingOpened : List SchedulingEvent → Loaded SchedulingFacts → RunOutcome → Prop
  | question (loaded : Loaded SchedulingFacts) (admission : Admission)
      (hworkbench : loaded.workbench = false) (hallow : admission.decision = .allow)
      (hoperation : admission.requestedOperation = .query ∨
        admission.requestedOperation = .explainDraft) :
      SchedulingOpened [⟨.load, .ok loaded⟩, ⟨.admittance loaded, .ok admission⟩] loaded .answered
  | plan {past : List SchedulingEvent} {loaded : Loaded SchedulingFacts} (answer : Generated)
      (hauthorized : Authorized past loaded) (hworkbench : loaded.workbench = false)
      (hready : answer.IsReady) :
      SchedulingOpened (past ++ [⟨.generate, .ok answer⟩]) loaded answer.planOutcome

/-- A history that converses about what was loaded, to answer with the outcome. -/
def SchedulingTalk (past : List SchedulingEvent) (loaded : Loaded SchedulingFacts)
    (outcome : RunOutcome) : Prop :=
  Conversing (fun opening ↦ SchedulingOpened opening loaded outcome) past

/-- What a scheduling run may ask after a history. -/
inductive SchedulingAsks : List SchedulingEvent → Query SchedulingFacts → Prop
  | load : SchedulingAsks [] .load
  | admittance (loaded : Loaded SchedulingFacts) (hworkbench : loaded.workbench = false) :
      SchedulingAsks [⟨.load, .ok loaded⟩] (.admittance loaded)
  | generate {past : List SchedulingEvent} {loaded : Loaded SchedulingFacts}
      (hauthorized : Authorized past loaded) : SchedulingAsks past .generate
  | explain (loaded : Loaded SchedulingFacts) (answer : Generated)
      (hworkbench : loaded.workbench = true) (hready : answer.IsReady) :
      SchedulingAsks [⟨.load, .ok loaded⟩, ⟨.generate, .ok answer⟩] .explainWorkbench
  | main {past : List SchedulingEvent} {loaded : Loaded SchedulingFacts} {outcome : RunOutcome}
      (htalk : SchedulingTalk past loaded outcome) (hanswered : Answered past)
      (hpending : pending past = []) (hreplied : ¬ Replied past)
      (hcount : mainCount past < maxMainCalls) :
      SchedulingAsks past (.main (transcript past) loaded)
  | tool {past : List SchedulingEvent} {loaded : Loaded SchedulingFacts} {outcome : RunOutcome}
      (call : ToolCall) (rest : List ToolCall) (htalk : SchedulingTalk past loaded outcome)
      (hanswered : Answered past) (hpending : pending past = call :: rest)
      (hcount : mainCount past < maxMainCalls) : SchedulingAsks past (.tool call)
  | compose {past : List SchedulingEvent} {loaded : Loaded SchedulingFacts} {outcome : RunOutcome}
      (htalk : SchedulingTalk past loaded outcome) (hanswered : Answered past)
      (hreplied : Replied past) (hdone : pending past = [] ∨ mainCount past = maxMainCalls) :
      SchedulingAsks past (.compose (transcript past) loaded)

/-- How a scheduling run ends that does not break off: its history and the outcome of its result. -/
inductive SchedulingEnds : List SchedulingEvent → RunOutcome → Prop
  | leftToUser (loaded : Loaded SchedulingFacts) (admission : Admission)
      (hworkbench : loaded.workbench = false) (hleaves : admission.leavesToUser = true) :
      SchedulingEnds [⟨.load, .ok loaded⟩, ⟨.admittance loaded, .ok admission⟩]
        (if admission.decision = .outOfScope then .outOfScope else .needsInput)
  | unplanned {past : List SchedulingEvent} {loaded : Loaded SchedulingFacts} (answer : Generated)
      (hauthorized : Authorized past loaded) (hready : ¬ answer.IsReady) :
      SchedulingEnds (past ++ [⟨.generate, .ok answer⟩]) answer.endOutcome
  | explained (loaded : Loaded SchedulingFacts) (answer : Generated) (text : String)
      (hworkbench : loaded.workbench = true) (hready : answer.IsReady) :
      SchedulingEnds [⟨.load, .ok loaded⟩, ⟨.generate, .ok answer⟩, ⟨.explainWorkbench, .ok text⟩]
        answer.planOutcome
  | composed {past : List SchedulingEvent} {loaded : Loaded SchedulingFacts} {outcome : RunOutcome}
      (text : String) (htalk : SchedulingTalk past loaded outcome) (hreplied : Replied past)
      (hdone : pending past = [] ∨ mainCount past = maxMainCalls) :
      SchedulingEnds (past ++ [⟨.compose (transcript past) loaded, .ok text⟩])
        (if pending past = [] then outcome else .limitReached)

/-! ### What holds on entering a node -/

variable {past : List SchedulingEvent} {s : SchedulingState} {loaded : Loaded SchedulingFacts}
  {outcome : RunOutcome}

/-- What holds on entering a node. -/
def SchedulingEntering (node : SchedulingNode) (s : SchedulingState) (past : List SchedulingEvent) :
    Prop :=
  match node with
  | .loadContext => s = {} ∧ past = []
  | .admittance => ∃ loaded, past = [⟨.load, .ok loaded⟩] ∧ loaded.workbench = false ∧
      Follows s.toGraphState past ∧ s.loaded = some loaded ∧ s.outcome = some (.run .answered)
  | .explainScope => ∃ loaded admission,
      past = [⟨.load, .ok loaded⟩, ⟨.admittance loaded, .ok admission⟩] ∧
      loaded.workbench = false ∧ admission.leavesToUser = true ∧ s.admission = some admission
  | .generatePlan => ∃ loaded, Authorized past loaded ∧ Follows s.toGraphState past ∧
      s.loaded = some loaded
  | .explainWorkbench => ∃ loaded answer, loaded.workbench = true ∧ answer.IsReady ∧
      past = [⟨.load, .ok loaded⟩, ⟨.generate, .ok answer⟩] ∧
      s.outcome = some (.run answer.planOutcome)
  | .mainAgent => ∃ loaded outcome, s.outcome = some (.run outcome) ∧
      ToAsk (fun opening ↦ SchedulingOpened opening loaded outcome) s.toGraphState past loaded
  | .tools => ∃ loaded outcome calls, s.outcome = some (.run outcome) ∧
      ToCall (fun opening ↦ SchedulingOpened opening loaded outcome) calls s.toGraphState
        past loaded
  | .composeResponse => ∃ loaded outcome calls, s.outcome = some (.run outcome) ∧
      ToCompose (fun opening ↦ SchedulingOpened opening loaded outcome) calls s.toGraphState
        past loaded

/-- How many nodes may still follow. -/
def schedulingRank (node : SchedulingNode) (s : SchedulingState) : ℕ :=
  match node with
  | .loadContext => 21
  | .admittance => 20
  | .generatePlan => 19
  | .mainAgent => 17 - 2 * s.steps
  | .tools => 18 - 2 * s.steps
  | _ => 0

def SchedulingFinished (past : List SchedulingEvent) (s : SchedulingState) : Prop :=
  ∃ result, s.result = some result ∧ SchedulingEnds past result.outcome

/-- What the work of a node has to establish. -/
abbrev SchedulingNodeHolds (node : SchedulingNode) (s : SchedulingState)
    (past : List SchedulingEvent) : Prop :=
  schedulingGraph.Establishes anything SchedulingAsks SchedulingEntering schedulingRank
    SchedulingFinished BreaksOff node s past

theorem holds_onGraphState {work : GraphState SchedulingFacts →
      Capable SchedulingFacts (GraphState SchedulingFacts)}
    {returns : List SchedulingEvent → SchedulingState → Prop}
    (h : (work s.toGraphState).Holds anything SchedulingAsks past
      (fun past worked ↦ returns past { s with toGraphState := worked }) BreaksOff) :
    (onGraphState work s).Holds anything SchedulingAsks past returns BreaksOff :=
  holds_bind.mpr h

/-! ### The opening of a run -/

theorem next_schedulingLoad (hloaded : s.loaded = some loaded) :
    schedulingGraph.next .loadContext s =
      .ok (some (if loaded.workbench then .generatePlan else .admittance)) := by
  show some <$> afterSchedulingLoad s = _
  unfold afterSchedulingLoad
  rw [hloaded]
  rfl

theorem schedulingNode_loadContext : SchedulingNodeHolds .loadContext {} [] := by
  refine holds_bind.mpr (holds_bind.mpr (holds_request (fun _ _ h ↦ h) .load fun loaded ↦ ?_))
  have hfollows := follows_loaded loaded
  refine holds_pure.mpr (holds_pure.mpr ?_)
  rw [next_schedulingLoad rfl]
  cases hworkbench : loaded.workbench with
  | true =>
    exact ⟨⟨loaded, .workbench loaded hworkbench, hfollows, rfl⟩, Nat.lt_of_sub_pos Nat.two_pos⟩
  | false => exact ⟨⟨loaded, rfl, hworkbench, hfollows, rfl, rfl⟩, Nat.lt_succ_self _⟩

theorem Admission.not_leavesToUser_iff {admission : Admission} :
    admission.leavesToUser = false ↔ admission.decision = .allow ∧
      admission.requestedOperation ≠ .executeRequest ∧
      admission.requestedOperation ≠ .adjustRequest := by
  unfold Admission.leavesToUser
  rw [decide_eq_false_iff_not, not_or, not_or, not_not]

theorem next_schedulingAdmittance (admission : Admission)
    (hadmission : s.admission = some admission) : schedulingGraph.next .admittance s =
      .ok (some (if admission.leavesToUser then .explainScope
        else if admission.requestedOperation = .generate then .generatePlan else .mainAgent)) := by
  show some <$> schedulingRoute s = _
  unfold schedulingRoute
  rw [hadmission]
  rfl

theorem schedulingNode_admittance (h : SchedulingEntering .admittance s past) :
    SchedulingNodeHolds .admittance s past := by
  obtain ⟨loaded, rfl, hworkbench, hfollows, hloaded, houtcome⟩ := h
  refine holds_onGraphState (holds_bind.mpr (holds_readKey hloaded (holds_bind.mpr
    (holds_request (fun _ _ h ↦ h) (.admittance loaded hworkbench) fun admission ↦
      holds_pure.mpr ?_))))
  have hfollows' := hfollows.decided admission
  rw [next_schedulingAdmittance admission rfl]
  cases hleaves : admission.leavesToUser with
  | true => exact ⟨⟨loaded, admission, rfl, hworkbench, hleaves, rfl⟩, Nat.succ_pos _⟩
  | false =>
    obtain ⟨hallow, hexecute, hadjust⟩ := Admission.not_leavesToUser_iff.mp hleaves
    by_cases hgenerate : admission.requestedOperation = .generate
    · rw [if_neg Bool.false_ne_true, if_pos hgenerate]
      exact ⟨⟨loaded, .admitted loaded admission hworkbench hallow hgenerate, hfollows', hloaded⟩,
        Nat.lt_succ_self _⟩
    · rw [if_neg Bool.false_ne_true, if_neg hgenerate]
      have hoperation : admission.requestedOperation = .query ∨
          admission.requestedOperation = .explainDraft := by
        cases hcase : admission.requestedOperation with
        | query => exact Or.inl rfl
        | explainDraft => exact Or.inr rfl
        | generate => exact absurd hcase hgenerate
        | executeRequest => exact absurd hcase hexecute
        | adjustRequest => exact absurd hcase hadjust
      have hopened : SchedulingOpened _ loaded .answered :=
        .question loaded admission hworkbench hallow hoperation
      refine ⟨⟨loaded, .answered, houtcome, .start hopened hfollows' hloaded rfl
        (not_replied_snoc [_] rfl) rfl rfl⟩, ?_⟩
      show 17 - 2 * s.steps < 20
      omega

theorem schedulingNode_explainScope (h : SchedulingEntering .explainScope s past) :
    SchedulingNodeHolds .explainScope s past := by
  obtain ⟨loaded, admission, rfl, hworkbench, hleaves, hadmission⟩ := h
  have hends := SchedulingEnds.leftToUser loaded admission hworkbench hleaves
  refine holds_ofExcept.mpr ?_
  unfold explainSchedulingScope
  rw [hadmission]
  show SchedulingFinished _ (if admission.decision = .outOfScope then _ else _)
  by_cases hscope : admission.decision = .outOfScope
  · rw [if_pos hscope] at hends ⊢
    exact ⟨_, rfl, hends⟩
  · rw [if_neg hscope] at hends ⊢
    split_ifs <;> exact ⟨_, rfl, hends⟩

/-! ### The generation -/

theorem Generated.ready_or (answer : Generated) :
    answer.IsReady ∧ (∀ s : SchedulingState, s.generated answer =
        s.withOutcome (.run answer.planOutcome)) ∧ answer.planOutcome ≠ .noPending ∨
      ¬ answer.IsReady ∧ ∀ s : SchedulingState, ∃ text outcome,
        s.generated answer = (s.answered text answer.endOutcome).withOutcome outcome ∧
          (outcome = .run .noPending ∨ outcome = .replacementRequired) := by
  unfold SchedulingState.generated Generated.endOutcome
  by_cases herror : truthy answer.errorCode = none
  · rw [herror]
    simp only [Option.isSome_none, Bool.false_eq_true, if_false, true_and]
    by_cases hpending : answer.outcome = some .noPending
    · simp only [hpending, if_true]
      exact Or.inr ⟨fun h ↦ h.pending hpending, fun s ↦ ⟨_, _, rfl, Or.inl rfl⟩⟩
    · simp only [hpending, if_false]
      cases hreplace : answer.replacementRequired with
      | true =>
        exact Or.inr ⟨fun h ↦ Bool.false_ne_true (h.free.symm.trans hreplace),
          fun s ↦ ⟨_, _, rfl, Or.inr rfl⟩⟩
      | false =>
        refine Or.inl ⟨⟨herror, hpending, hreplace⟩, fun s ↦ rfl, ?_⟩
        unfold Generated.planOutcome
        cases houtcome : answer.outcome with
        | none => exact nofun
        | some outcome => exact fun heq ↦ hpending (houtcome.trans (congrArg some heq))
  · have hsome : (truthy answer.errorCode).isSome = true := Option.isSome_iff_ne_none.mpr herror
    simp only [hsome, herror, if_true, false_and, if_false]
    exact Or.inr ⟨fun h ↦ herror h.accepted, fun s ↦ ⟨_, _, rfl, Or.inr rfl⟩⟩

theorem next_generatePlan_none (h : s.outcome = some (.run .noPending) ∨
    s.outcome = some .replacementRequired) : schedulingGraph.next .generatePlan s = .ok none := by
  show afterGeneration s = _
  unfold afterGeneration
  rcases h with h | h <;> rw [h] <;> rfl

theorem next_generatePlan_some (h : s.outcome = some (.run outcome)) (hne : outcome ≠ .noPending)
    (hloaded : s.loaded = some loaded) : schedulingGraph.next .generatePlan s =
      .ok (some (if loaded.workbench then .explainWorkbench else .mainAgent)) := by
  show afterGeneration s = _
  unfold afterGeneration
  rw [h, hloaded]
  have hgoes : ¬ (PlanOutcome.run outcome = .run .noPending ∨
      PlanOutcome.run outcome = .replacementRequired) := by
    rintro (heq | heq)
    · exact hne (PlanOutcome.run.inj heq)
    · cases heq
  show (if _ then _ else _ : Except Failure (Option SchedulingNode)) = _
  rw [if_neg hgoes]
  rfl

theorem schedulingNode_generatePlan (h : SchedulingEntering .generatePlan s past) :
    SchedulingNodeHolds .generatePlan s past := by
  obtain ⟨loaded, hauthorized, hfollows, hloaded⟩ := h
  refine holds_bind.mpr (holds_request (fun _ _ h ↦ h) (.generate hauthorized) fun answer ↦
    holds_pure.mpr ?_)
  rcases answer.ready_or with ⟨hready, hgenerated, hne⟩ | ⟨hready, hgenerated⟩
  · rw [hgenerated s, next_generatePlan_some (s := s.withOutcome (.run answer.planOutcome)) rfl hne
      hloaded]
    cases hauthorized with
    | workbench _ hworkbench =>
      rw [if_pos hworkbench]
      exact ⟨⟨loaded, answer, hworkbench, hready, rfl, rfl⟩, Nat.succ_pos _⟩
    | admitted _ admission hworkbench hallow hoperation =>
      rw [if_neg (by rw [hworkbench]; exact Bool.false_ne_true)]
      have hopened : SchedulingOpened _ loaded answer.planOutcome :=
        .plan answer (.admitted loaded admission hworkbench hallow hoperation) hworkbench hready
      refine ⟨⟨loaded, answer.planOutcome, rfl, .start hopened ?_ hloaded rfl
        (not_replied_snoc [_, _] rfl) rfl rfl⟩, ?_⟩
      · exact ⟨hfollows.answered.snoc .generate answer, hfollows.messages, hfollows.steps⟩
      · show 17 - 2 * s.steps < 19
        omega
  · obtain ⟨text, stop, hstate, hstop⟩ := hgenerated s
    rw [hstate, next_generatePlan_none (s := (s.answered text answer.endOutcome).withOutcome stop)
      (hstop.imp (congrArg some) (congrArg some))]
    exact ⟨_, rfl, .unplanned answer hauthorized hready⟩

theorem runOutcome_eq (houtcome : s.outcome = some (.run outcome)) :
    s.runOutcome = .ok outcome := by
  unfold SchedulingState.runOutcome
  rw [houtcome]
  rfl

theorem schedulingNode_explainWorkbench (h : SchedulingEntering .explainWorkbench s past) :
    SchedulingNodeHolds .explainWorkbench s past := by
  obtain ⟨loaded, answer, hworkbench, hready, rfl, houtcome⟩ := h
  refine holds_bind.mpr (holds_request (fun _ _ h ↦ h) (.explain loaded answer hworkbench hready)
    fun text ↦ holds_bind.mpr (holds_ofExcept.mpr ?_))
  rw [runOutcome_eq houtcome]
  exact ⟨_, rfl, .explained loaded answer text hworkbench hready⟩

/-! ### The conversation -/

theorem next_schedulingReply {calls : Except Failure Bool} (h : callsTools s.toGraphState = calls) :
    schedulingGraph.next .mainAgent s =
      calls.map fun calls ↦ some (if calls then .tools else .composeResponse) := by
  show some <$> afterSchedulingReply s = _
  unfold afterSchedulingReply
  rw [h]
  cases calls <;> rfl

theorem schedulingNode_mainAgent (h : SchedulingEntering .mainAgent s past) :
    SchedulingNodeHolds .mainAgent s past := by
  obtain ⟨loaded, outcome, houtcome, hask⟩ := h
  have hlimit : s.steps < 6 := hask.steps
  refine holds_onGraphState (hask.holds (fun _ _ h ↦ h) ?_ ?_ ?_ ?_)
  · exact .main hask.conversing hask.follows.answered hask.remaining hask.replied
      (hask.follows.steps ▸ hask.steps)
  · intro past worked hbreaks hedge
    rw [next_schedulingReply (s := { s with toGraphState := worked }) hedge]
    exact hbreaks
  · intro past worked calls hcall hsteps hedge
    rw [next_schedulingReply (s := { s with toGraphState := worked }) hedge]
    refine ⟨⟨loaded, outcome, calls, houtcome, hcall⟩, ?_⟩
    show 18 - 2 * worked.steps < 17 - 2 * s.steps
    omega
  · intro past worked calls hcompose hedge
    rw [next_schedulingReply (s := { s with toGraphState := worked }) hedge]
    refine ⟨⟨loaded, outcome, calls, houtcome, hcompose⟩, ?_⟩
    show 0 < 17 - 2 * s.steps
    omega

theorem schedulingNode_tools (h : SchedulingEntering .tools s past) :
    SchedulingNodeHolds .tools s past := by
  obtain ⟨loaded, outcome, calls, houtcome, hcall⟩ := h
  refine holds_onGraphState (hcall.holds (fun _ _ h ↦ h) ?_ fun past worked hask hsteps ↦
    ⟨⟨loaded, outcome, houtcome, hask⟩, ?_⟩)
  · exact fun past call rest htalk hanswered hdue hcount ↦
      .tool call rest htalk hanswered hdue hcount
  · have hlimit : s.steps < 6 := hcall.steps
    show 17 - 2 * worked.steps < 18 - 2 * s.steps
    omega

theorem schedulingNode_composeResponse (h : SchedulingEntering .composeResponse s past) :
    SchedulingNodeHolds .composeResponse s past := by
  obtain ⟨loaded, outcome, calls, houtcome, hcompose⟩ := h
  refine holds_onGraphState ?_
  rw [runOutcome_eq houtcome]
  refine hcompose.holds (fun _ _ h ↦ h) (fun hdone ↦ ?_) fun text hdone ↦ ?_
  · exact .compose hcompose.conversing hcompose.follows.answered hcompose.replied hdone
  · exact ⟨_, rfl, .composed text hcompose.conversing hcompose.replied hdone⟩

theorem schedulingNodeHolds (node : SchedulingNode) (s : SchedulingState)
    (past : List SchedulingEvent) (h : SchedulingEntering node s past) :
    SchedulingNodeHolds node s past := by
  cases node with
  | loadContext =>
    obtain ⟨rfl, rfl⟩ := h
    exact schedulingNode_loadContext
  | admittance => exact schedulingNode_admittance h
  | explainScope => exact schedulingNode_explainScope h
  | generatePlan => exact schedulingNode_generatePlan h
  | mainAgent => exact schedulingNode_mainAgent h
  | explainWorkbench => exact schedulingNode_explainWorkbench h
  | tools => exact schedulingNode_tools h
  | composeResponse => exact schedulingNode_composeResponse h

/-! ### Every run -/

theorem Authorized.answered (h : Authorized past loaded) : Answered past := by
  cases h with
  | workbench _ _ => exact answered_load loaded
  | admitted _ admission _ _ _ => exact (answered_load loaded).snoc (.admittance loaded) admission

theorem SchedulingAsks.answered {q : Query SchedulingFacts} (h : SchedulingAsks past q) :
    Answered past := by
  cases h with
  | load => exact fun event hevent ↦ (List.not_mem_nil hevent).elim
  | admittance loaded _ => exact answered_load loaded
  | generate hauthorized => exact hauthorized.answered
  | explain loaded answer _ _ => exact (answered_load loaded).snoc .generate answer
  | main _ hanswered _ _ _ => exact hanswered
  | tool _ _ _ hanswered _ _ => exact hanswered
  | compose _ hanswered _ _ => exact hanswered

theorem SchedulingAsks.counted {messages : List GraphMessage}
    (h : SchedulingAsks past (.main messages loaded)) : mainCount past < maxMainCalls := by
  cases h with
  | main _ _ _ _ hcount => exact hcount

theorem SchedulingEnds.last (h : SchedulingEnds past outcome) :
    ∃ before q a, past = before ++ [⟨q, .ok a⟩] := by
  cases h with
  | leftToUser loaded admission _ _ => exact ⟨[_], .admittance loaded, admission, rfl⟩
  | unplanned answer _ _ => exact ⟨_, .generate, answer, rfl⟩
  | explained loaded answer text _ _ => exact ⟨[_, _], .explainWorkbench, text, rfl⟩
  | composed text _ _ _ => exact ⟨_, .compose _ _, text, rfl⟩

theorem executeScheduling_holds : executeScheduling.Holds anything SchedulingAsks []
    (fun past result ↦ SchedulingEnds past result.outcome) BreaksOff := by
  have hgraph : (schedulingGraph.invoke recursionError recursionLimit .loadContext {}).Holds
      anything SchedulingAsks [] SchedulingFinished BreaksOff :=
    StateGraph.holds_invoke recursionError schedulingNodeHolds recursionLimit ⟨rfl, rfl⟩ (by decide)
  refine holds_bind.mpr (hgraph.mono ?_ fun _ _ h ↦ h)
  rintro past s ⟨result, hresult, hends⟩
  exact holds_readKey hresult hends

/-- Whatever the capabilities answer, a scheduling run asks only what `SchedulingAsks` allows, the
main model at most six times, and ends as `SchedulingEnds` or `BreaksOff` say, without ever reaching
the recursion limit; a capability that fails is the last one asked, and its failure is the failure
of the run. -/
theorem scheduling_run
    (surroundings : List SchedulingEvent → (q : Query SchedulingFacts) →
      Except Failure (Answer q)) :
    Lawful SchedulingAsks (executeScheduling.run surroundings []).1 ∧
      EndsAs (fun past result ↦ SchedulingEnds past result.outcome) BreaksOff
        (executeScheduling.run surroundings []).1 (executeScheduling.run surroundings []).2 ∧
      mainCount (executeScheduling.run surroundings []).1 ≤ maxMainCalls ∧
      ∀ before q failure after,
        (executeScheduling.run surroundings []).1 = before ++ ⟨q, .error failure⟩ :: after →
          after = [] ∧ (executeScheduling.run surroundings []).2 = .error failure := by
  obtain ⟨hlawful, hends⟩ :=
    holds_run surroundings (fun _ _ ↦ trivial) executeScheduling_holds lawful_nil
  refine ⟨hlawful, hends, mainCount_le hlawful fun _ _ _ h ↦ h.counted, ?_⟩
  intro before q failure after hhistory
  exact fails_last hlawful (fun _ _ h ↦ h.answered) (fun _ _ h ↦ h.last) hends hhistory

end FilmOS.Agent
