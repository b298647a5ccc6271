import FilmOS.Agent.Conversation

/-!
# The graph of an order run

An order run loads its context, decides on the admittance of the input, recognises the screenshot
where that is still to be done, and converses with the main model until it composes a response; a
run of the workbench only recognises (`orderGraph`). What may be asked at a moment is written down a
second time in terms of the history alone (`OrderAsks`): an input that was not admitted leads to no
further query, the main model is given all that was said so far and nothing else, and every tool
call of a reply is carried out once, in order, before the model is asked again.

`order_run` says that the graph asks nothing else whatever its capabilities answer, that it ends far
below its recursion limit, and which result an end has (`OrderEnds`); it raises only what a
capability raised, or where a reply repeats the identifier of a message or a tool call has none
(`BreaksOff`).
-/

set_option autoImplicit false
set_option relaxedAutoImplicit false

namespace FilmOS.Agent

open Script

/-- What an order run loads besides what every run loads. -/
structure OrderFacts where
  item : Option ItemFacts
  queuedOnly : Bool
  visionModelId : String
  justRecognized : Bool := false

abbrev OrderState := GraphState OrderFacts

inductive OrderNode
  | loadContext
  | admittance
  | explainScope
  | queueAck
  | requestImage
  | extractOrder
  | mainAgent
  | tools
  | composeResponse
  | draftReady
deriving DecidableEq, Repr

/-! ### The nodes -/

def GraphState.finish {F : Type} (s : GraphState F) (text : String) (outcome : RunOutcome) :
    GraphState F :=
  { s with result := some ⟨text, outcome⟩ }

/-- `explain_scope`. -/
def explainOrderScope (s : OrderState) : Except Failure OrderState := do
  let admission ← readKey s.admission "admission"
  if admission.decision = .clarify then
    return s.finish "请说明需要补充或核对当前订单的哪些信息。" .needsInput
  return s.finish "本会话只协助录入订单。排单请进入智能排单助手；维护客户、产品或配方请前往对应页面。"
    .outOfScope

/-- `queue_ack`. -/
def queueAck (s : OrderState) : OrderState :=
  s.finish "新截图已加入待处理队列。我们一个一个来，先核对当前订单。" .queuedOnly

/-- `request_image`. -/
def requestImage (s : OrderState) : OrderState :=
  s.finish "请上传订单聊天截图，同图多笔订单会分别生成草稿；也可以从列表恢复暂放的订单。" .needsInput

/-- What was loaded, with the item as it was recognised. -/
def Loaded.recognized (loaded : Loaded OrderFacts) (item : ItemFacts) : Loaded OrderFacts :=
  { loaded with facts := { loaded.facts with item := some item, justRecognized := true } }

/-- `extract_order`. -/
def extractOrder (s : OrderState) : Capable OrderFacts OrderState := do
  let loaded ← ofExcept (readKey s.loaded "loaded")
  let item : ItemFacts ← request (.recognize loaded)
  return { s with loaded := some (loaded.recognized item) }

/-- `draft_ready`. -/
def draftReady (s : OrderState) : OrderState :=
  s.finish "截图识别完成，请对照原图核对订单。" .draftReady

/-- An item that is there and was not recognised. -/
def Loaded.unrecognized (loaded : Loaded OrderFacts) : Bool :=
  loaded.facts.item.any (·.item.recognitionStatus ≠ .succeeded)

/-- The edge from `load_context`. -/
def afterLoad (s : OrderState) : Except Failure OrderNode := do
  let loaded ← readKey s.loaded "loaded"
  return if loaded.workbench then
    if loaded.unrecognized then .extractOrder else .draftReady
  else .admittance

/-- `route`. -/
def route (s : OrderState) : Except Failure OrderNode := do
  let admission ← readKey s.admission "admission"
  if admission.decision ≠ .allow then return .explainScope
  let loaded ← readKey s.loaded "loaded"
  return if loaded.facts.queuedOnly then .queueAck
  else if loaded.facts.item.isNone then .requestImage
  else if loaded.unrecognized then .extractOrder else .mainAgent

/-- The edge from `extract_order`. -/
def afterExtraction (s : OrderState) : Except Failure OrderNode := do
  let loaded ← readKey s.loaded "loaded"
  return if loaded.workbench then .draftReady else .mainAgent

/-- The edge from `main_agent`. -/
def afterReply (s : OrderState) : Except Failure OrderNode := do
  let calls ← callsTools s
  return if calls then .tools else .composeResponse

/-- `build_order_graph`. -/
def orderGraph : StateGraph Failure (Answer (F := OrderFacts)) OrderNode OrderState where
  work
    | .loadContext => loadContext
    | .admittance => admittance
    | .explainScope => fun s ↦ ofExcept (explainOrderScope s)
    | .queueAck => fun s ↦ pure (queueAck s)
    | .requestImage => fun s ↦ pure (requestImage s)
    | .extractOrder => extractOrder
    | .mainAgent => mainAgent
    | .tools => tools
    | .composeResponse => composeResponse (.ok .draftReady)
    | .draftReady => fun s ↦ pure (draftReady s)
  next
    | .loadContext => fun s ↦ some <$> afterLoad s
    | .admittance => fun s ↦ some <$> route s
    | .extractOrder => fun s ↦ some <$> afterExtraction s
    | .mainAgent => fun s ↦ some <$> afterReply s
    | .tools => fun _ ↦ .ok (some .mainAgent)
    | _ => fun _ ↦ .ok none

def recursionLimit : ℕ := 40

def recursionError : Failure :=
  .runtimeError "Recursion limit of 40 reached without hitting a stop condition."

/-- `execute_order`. -/
def executeOrder : Capable OrderFacts RunResult := do
  let final ← orderGraph.invoke recursionError recursionLimit .loadContext {}
  ofExcept (readKey final.result "result")

/-! ### What an order run may ask -/

abbrev OrderEvent := GraphEvent OrderFacts

/-- The history of a run that was admitted to work on an item. -/
inductive Admitted : List OrderEvent → Loaded OrderFacts → Prop
  | intro (loaded : Loaded OrderFacts) (admission : Admission)
      (hworkbench : loaded.workbench = false)
      (hallow : admission.decision = .allow) (hqueued : loaded.facts.queuedOnly = false) :
      Admitted [⟨.load, .ok loaded⟩, ⟨.admittance loaded, .ok admission⟩] loaded

/-- The history before the conversation: the run was admitted, and its item is recognised or was
just tried. -/
inductive Opened : List OrderEvent → Loaded OrderFacts → Prop
  | recognized {past : List OrderEvent} {loaded : Loaded OrderFacts} (item : ItemFacts)
      (hadmitted : Admitted past loaded) (hitem : loaded.facts.item = some item)
      (hrecognized : item.item.recognitionStatus = .succeeded) : Opened past loaded
  | tried {past : List OrderEvent} {loaded : Loaded OrderFacts} (item found : ItemFacts)
      (hadmitted : Admitted past loaded) (hitem : loaded.facts.item = some item)
      (hunrecognized : item.item.recognitionStatus ≠ .succeeded) :
      Opened (past ++ [⟨.recognize loaded, .ok found⟩]) (loaded.recognized found)

/-- A history that converses about what was loaded. -/
def Discusses (past : List OrderEvent) (loaded : Loaded OrderFacts) : Prop :=
  Conversing (fun opening ↦ Opened opening loaded) past

/-- What an order run may ask after a history. -/
inductive OrderAsks : List OrderEvent → Query OrderFacts → Prop
  | load : OrderAsks [] .load
  | admittance (loaded : Loaded OrderFacts) (hworkbench : loaded.workbench = false) :
      OrderAsks [⟨.load, .ok loaded⟩] (.admittance loaded)
  | extract (loaded : Loaded OrderFacts) (item : ItemFacts) (hworkbench : loaded.workbench = true)
      (hitem : loaded.facts.item = some item)
      (hunrecognized : item.item.recognitionStatus ≠ .succeeded) :
      OrderAsks [⟨.load, .ok loaded⟩] (.recognize loaded)
  | recognize {past : List OrderEvent} {loaded : Loaded OrderFacts} (item : ItemFacts)
      (hadmitted : Admitted past loaded) (hitem : loaded.facts.item = some item)
      (hunrecognized : item.item.recognitionStatus ≠ .succeeded) :
      OrderAsks past (.recognize loaded)
  | main {past : List OrderEvent} {loaded : Loaded OrderFacts} (hdiscusses : Discusses past loaded)
      (hanswered : Answered past) (hpending : pending past = []) (hreplied : ¬ Replied past)
      (hcount : mainCount past < maxMainCalls) :
      OrderAsks past (.main (transcript past) loaded)
  | tool {past : List OrderEvent} {loaded : Loaded OrderFacts} (call : ToolCall)
      (rest : List ToolCall) (hdiscusses : Discusses past loaded) (hanswered : Answered past)
      (hpending : pending past = call :: rest) (hcount : mainCount past < maxMainCalls) :
      OrderAsks past (.tool call)
  | compose {past : List OrderEvent} {loaded : Loaded OrderFacts}
      (hdiscusses : Discusses past loaded) (hanswered : Answered past) (hreplied : Replied past)
      (hdone : pending past = [] ∨ mainCount past = maxMainCalls) :
      OrderAsks past (.compose (transcript past) loaded)

/-- How an order run ends that does not break off: its history and the outcome of its result. -/
inductive OrderEnds : List OrderEvent → RunOutcome → Prop
  | unclear (loaded : Loaded OrderFacts) (admission : Admission)
      (hworkbench : loaded.workbench = false) (hdecision : admission.decision = .clarify) :
      OrderEnds [⟨.load, .ok loaded⟩, ⟨.admittance loaded, .ok admission⟩] .needsInput
  | refused (loaded : Loaded OrderFacts) (admission : Admission)
      (hworkbench : loaded.workbench = false) (hdecision : admission.decision = .outOfScope) :
      OrderEnds [⟨.load, .ok loaded⟩, ⟨.admittance loaded, .ok admission⟩] .outOfScope
  | queued (loaded : Loaded OrderFacts) (admission : Admission)
      (hworkbench : loaded.workbench = false)
      (hallow : admission.decision = .allow) (hqueued : loaded.facts.queuedOnly = true) :
      OrderEnds [⟨.load, .ok loaded⟩, ⟨.admittance loaded, .ok admission⟩] .queuedOnly
  | noImage {past : List OrderEvent} {loaded : Loaded OrderFacts} (hadmitted : Admitted past loaded)
      (hitem : loaded.facts.item = none) : OrderEnds past .needsInput
  | ready (loaded : Loaded OrderFacts) (hworkbench : loaded.workbench = true)
      (hitem : ∀ item ∈ loaded.facts.item, item.item.recognitionStatus = .succeeded) :
      OrderEnds [⟨.load, .ok loaded⟩] .draftReady
  | extracted (loaded : Loaded OrderFacts) (item found : ItemFacts)
      (hworkbench : loaded.workbench = true) (hitem : loaded.facts.item = some item)
      (hunrecognized : item.item.recognitionStatus ≠ .succeeded) :
      OrderEnds [⟨.load, .ok loaded⟩, ⟨.recognize loaded, .ok found⟩] .draftReady
  | composed {past : List OrderEvent} {loaded : Loaded OrderFacts} (text : String)
      (hdiscusses : Discusses past loaded) (hreplied : Replied past)
      (hdone : pending past = [] ∨ mainCount past = maxMainCalls) :
      OrderEnds (past ++ [⟨.compose (transcript past) loaded, .ok text⟩])
        (if pending past = [] then .draftReady else .limitReached)

/-! ### What holds on entering a node -/

variable {past : List OrderEvent} {s : OrderState} {loaded : Loaded OrderFacts}

/-- What holds on entering a node. -/
def Entering (node : OrderNode) (s : OrderState) (past : List OrderEvent) : Prop :=
  match node with
  | .loadContext => s = {} ∧ past = []
  | .admittance => ∃ loaded, past = [⟨.load, .ok loaded⟩] ∧ loaded.workbench = false ∧
      Follows s past ∧ s.loaded = some loaded
  | .explainScope => ∃ loaded admission,
      past = [⟨.load, .ok loaded⟩, ⟨.admittance loaded, .ok admission⟩] ∧
      loaded.workbench = false ∧ admission.decision ≠ .allow ∧ s.admission = some admission
  | .queueAck => OrderEnds past .queuedOnly
  | .requestImage => OrderEnds past .needsInput
  | .extractOrder => ∃ loaded item, loaded.facts.item = some item ∧
      item.item.recognitionStatus ≠ .succeeded ∧ Follows s past ∧ s.loaded = some loaded ∧
      (Admitted past loaded ∨ loaded.workbench = true ∧ past = [⟨.load, .ok loaded⟩])
  | .mainAgent => ∃ loaded, ToAsk (fun opening ↦ Opened opening loaded) s past loaded
  | .tools => ∃ loaded calls, ToCall (fun opening ↦ Opened opening loaded) calls s past loaded
  | .composeResponse =>
    ∃ loaded calls, ToCompose (fun opening ↦ Opened opening loaded) calls s past loaded
  | .draftReady => OrderEnds past .draftReady

/-- How many nodes may still follow. -/
def orderRank (node : OrderNode) (s : OrderState) : ℕ :=
  match node with
  | .loadContext => 21
  | .admittance => 20
  | .extractOrder => 19
  | .mainAgent => 17 - 2 * s.steps
  | .tools => 18 - 2 * s.steps
  | _ => 0

/-- The graph ended with a result, as its history says. -/
def Finished (past : List OrderEvent) (s : OrderState) : Prop :=
  ∃ result, s.result = some result ∧ OrderEnds past result.outcome

/-- What the work of a node has to establish. -/
abbrev NodeHolds (node : OrderNode) (s : OrderState) (past : List OrderEvent) : Prop :=
  orderGraph.Establishes anything OrderAsks Entering orderRank Finished BreaksOff node s past

theorem Loaded.unrecognized_iff :
    loaded.unrecognized = true ↔
      ∃ item, loaded.facts.item = some item ∧ item.item.recognitionStatus ≠ .succeeded := by
  unfold Loaded.unrecognized
  rw [Option.any_eq_true]
  simp only [ne_eq, decide_not, Bool.not_eq_true', decide_eq_false_iff_not]

theorem Loaded.not_unrecognized_iff :
    loaded.unrecognized = false ↔
      ∀ item ∈ loaded.facts.item, item.item.recognitionStatus = .succeeded := by
  rw [← Bool.not_eq_true, Loaded.unrecognized_iff]
  exact ⟨fun h item hitem ↦ by_contra fun hne ↦ h ⟨item, hitem, hne⟩,
    fun h ⟨item, hitem, hne⟩ ↦ hne (h item hitem)⟩

/-! ### The opening of a run -/

theorem next_loadContext (hloaded : s.loaded = some loaded) : orderGraph.next .loadContext s =
    .ok (some (if loaded.workbench then
      if loaded.unrecognized then .extractOrder else .draftReady else .admittance)) := by
  show some <$> afterLoad s = _
  unfold afterLoad
  rw [hloaded]
  rfl

theorem nodeHolds_loadContext : NodeHolds .loadContext {} [] := by
  refine holds_bind.mpr (holds_request (fun _ _ h ↦ h) .load fun loaded ↦ ?_)
  have hfollows := follows_loaded loaded
  refine holds_pure.mpr ?_
  rw [next_loadContext rfl]
  cases hworkbench : loaded.workbench with
  | false => exact ⟨⟨loaded, rfl, hworkbench, hfollows, rfl⟩, Nat.lt_succ_self _⟩
  | true =>
    cases hrecognized : loaded.unrecognized with
    | false =>
      exact ⟨.ready loaded hworkbench (Loaded.not_unrecognized_iff.mp hrecognized), Nat.succ_pos _⟩
    | true =>
      obtain ⟨item, hitem, hstatus⟩ := Loaded.unrecognized_iff.mp hrecognized
      exact ⟨⟨loaded, item, hitem, hstatus, hfollows, rfl, Or.inr ⟨hworkbench, rfl⟩⟩,
        Nat.lt_of_sub_pos Nat.two_pos⟩

theorem next_admittance {admission : Admission} (hadmission : s.admission = some admission)
    (hloaded : s.loaded = some loaded) : orderGraph.next .admittance s =
      .ok (some (if admission.decision ≠ .allow then .explainScope
        else if loaded.facts.queuedOnly then .queueAck
        else if loaded.facts.item.isNone then .requestImage
        else if loaded.unrecognized then .extractOrder else .mainAgent)) := by
  show some <$> route s = _
  unfold route
  rw [hadmission, hloaded]
  by_cases hallow : admission.decision ≠ .allow
  · rw [if_pos hallow]
    show some <$> (if admission.decision ≠ .allow then _ else _ : Except Failure OrderNode) = _
    rw [if_pos hallow]
    rfl
  · rw [if_neg hallow]
    show some <$> (if admission.decision ≠ .allow then _ else _ : Except Failure OrderNode) = _
    rw [if_neg hallow]
    rfl

/-- Before the conversation the history says nothing of it. -/
theorem Admitted.opening (h : Admitted past loaded) :
    mainCount past = 0 ∧ pending past = [] ∧ ¬ Replied past ∧
      transcript past = loaded.messages.map HistoryMessage.message := by
  cases h with
  | intro =>
    exact ⟨rfl, rfl, not_replied_snoc [_] rfl, rfl⟩

theorem nodeHolds_admittance {past : List OrderEvent} (h : Entering .admittance s past) :
    NodeHolds .admittance s past := by
  obtain ⟨loaded, rfl, hworkbench, hfollows, hloaded⟩ := h
  refine holds_bind.mpr (holds_readKey hloaded (holds_bind.mpr
    (holds_request (fun _ _ h ↦ h) (.admittance loaded hworkbench) fun admission ↦
      holds_pure.mpr ?_)))
  have hfollows' := hfollows.decided admission
  rw [next_admittance (s := { s with admission := some admission }) rfl hloaded]
  by_cases hallow : admission.decision ≠ .allow
  · rw [if_pos hallow]
    exact ⟨⟨loaded, admission, rfl, hworkbench, hallow, rfl⟩, Nat.succ_pos _⟩
  rw [if_neg hallow]
  have hallow : admission.decision = .allow := not_not.mp hallow
  cases hqueued : loaded.facts.queuedOnly with
  | true => exact ⟨.queued loaded admission hworkbench hallow hqueued, Nat.succ_pos _⟩
  | false =>
    have hadmitted := Admitted.intro loaded admission hworkbench hallow hqueued
    cases hitem : loaded.facts.item with
    | none => exact ⟨.noImage hadmitted hitem, Nat.succ_pos _⟩
    | some item =>
      cases hrecognized : loaded.unrecognized with
      | true =>
        obtain ⟨found, hfound, hstatus⟩ := Loaded.unrecognized_iff.mp hrecognized
        exact ⟨⟨loaded, found, hfound, hstatus, hfollows', hloaded, Or.inl hadmitted⟩,
          Nat.lt_succ_self _⟩
      | false =>
        have hstatus := Loaded.not_unrecognized_iff.mp hrecognized item hitem
        obtain ⟨hcount, hpending, hreplied, htranscript⟩ := hadmitted.opening
        have hopened : Opened _ loaded := .recognized item hadmitted hitem hstatus
        refine ⟨⟨loaded, .start hopened hfollows' hloaded hpending hreplied hcount htranscript⟩, ?_⟩
        show 17 - 2 * s.steps < 20
        omega

theorem nodeHolds_explainScope (h : Entering .explainScope s past) :
    NodeHolds .explainScope s past := by
  obtain ⟨loaded, admission, rfl, hworkbench, hdecision, hadmission⟩ := h
  refine holds_ofExcept.mpr ?_
  unfold explainOrderScope
  rw [hadmission]
  cases hcase : admission.decision with
  | allow => exact absurd hcase hdecision
  | clarify =>
    show EndsAs _ _ _ (if admission.decision = .clarify then _ else _)
    rw [if_pos hcase]
    exact ⟨_, rfl, .unclear loaded admission hworkbench hcase⟩
  | outOfScope =>
    show EndsAs _ _ _ (if admission.decision = .clarify then _ else _)
    rw [if_neg (by rw [hcase]; decide)]
    exact ⟨_, rfl, .refused loaded admission hworkbench hcase⟩

theorem next_extractOrder (hloaded : s.loaded = some loaded) : orderGraph.next .extractOrder s =
    .ok (some (if loaded.workbench then .draftReady else .mainAgent)) := by
  show some <$> afterExtraction s = _
  unfold afterExtraction
  rw [hloaded]
  rfl

theorem Admitted.workbench (h : Admitted past loaded) : loaded.workbench = false := by
  cases h
  assumption

theorem nodeHolds_extractOrder (h : Entering .extractOrder s past) :
    NodeHolds .extractOrder s past := by
  obtain ⟨loaded, item, hitem, hstatus, hfollows, hloaded, hopening⟩ := h
  have hasks : OrderAsks past (.recognize loaded) := by
    rcases hopening with hadmitted | ⟨hworkbench, rfl⟩
    · exact .recognize item hadmitted hitem hstatus
    · exact .extract loaded item hworkbench hitem hstatus
  refine holds_bind.mpr (holds_readKey hloaded (holds_bind.mpr
    (holds_request (fun _ _ h ↦ h) hasks fun found ↦ holds_pure.mpr ?_)))
  rw [next_extractOrder (s := { s with loaded := some (loaded.recognized found) }) rfl]
  have hworkbench : (loaded.recognized found).workbench = loaded.workbench := rfl
  rw [hworkbench]
  rcases hopening with hadmitted | ⟨hworkbench, rfl⟩
  · rw [if_neg (by rw [hadmitted.workbench]; decide)]
    obtain ⟨hcount, hpending, -, htranscript⟩ := hadmitted.opening
    have hopened : Opened _ (loaded.recognized found) := .tried item found hadmitted hitem hstatus
    have hfollows' : Follows { s with loaded := some (loaded.recognized found) }
        (past ++ [⟨.recognize loaded, .ok found⟩]) := by
      refine ⟨hfollows.answered.snoc (.recognize loaded) found, ?_, ?_⟩
      · rw [transcript_snoc]
        exact hfollows.messages
      · rw [mainCount_snoc]
        exact hfollows.steps
    have hcount' : mainCount (past ++ [(⟨.recognize loaded, .ok found⟩ : OrderEvent)]) = 0 := by
      rw [mainCount_snoc]
      exact hcount
    have hpending' : pending (past ++ [(⟨.recognize loaded, .ok found⟩ : OrderEvent)]) = [] := by
      rw [pending_snoc]
      exact hpending
    refine ⟨⟨_, .start hopened hfollows' rfl hpending' (not_replied_snoc _ rfl) hcount'
      (transcript_snoc.trans htranscript)⟩, ?_⟩
    show 17 - 2 * s.steps < 19
    omega
  · rw [if_pos hworkbench]
    exact ⟨.extracted loaded item found hworkbench hitem hstatus, Nat.succ_pos _⟩

/-! ### The conversation -/

theorem next_mainAgent {calls : Except Failure Bool} (h : callsTools s = calls) :
    orderGraph.next .mainAgent s =
      calls.map fun calls ↦ some (if calls then .tools else .composeResponse) := by
  show some <$> afterReply s = _
  unfold afterReply
  rw [h]
  cases calls <;> rfl

theorem nodeHolds_mainAgent (h : Entering .mainAgent s past) : NodeHolds .mainAgent s past := by
  obtain ⟨loaded, hask⟩ := h
  have hlimit : s.steps < 6 := hask.steps
  refine hask.holds (fun _ _ h ↦ h) ?_ ?_ ?_ ?_
  · exact .main hask.conversing hask.follows.answered hask.remaining hask.replied
      (hask.follows.steps ▸ hask.steps)
  · intro past s' hbreaks hedge
    rw [next_mainAgent hedge]
    exact hbreaks
  · intro past s' calls hcall hsteps hedge
    rw [next_mainAgent hedge]
    refine ⟨⟨loaded, calls, hcall⟩, ?_⟩
    show 18 - 2 * s'.steps < 17 - 2 * s.steps
    omega
  · intro past s' calls hcompose hedge
    rw [next_mainAgent hedge]
    refine ⟨⟨loaded, calls, hcompose⟩, ?_⟩
    show 0 < 17 - 2 * s.steps
    omega

theorem nodeHolds_tools (h : Entering .tools s past) : NodeHolds .tools s past := by
  obtain ⟨loaded, calls, hcall⟩ := h
  refine hcall.holds (fun _ _ h ↦ h) ?_ fun past s' hask hsteps ↦ ⟨⟨loaded, hask⟩, ?_⟩
  · exact fun past call rest hdiscusses hanswered hdue hcount ↦
      .tool call rest hdiscusses hanswered hdue hcount
  · have hlimit : s.steps < 6 := hcall.steps
    show 17 - 2 * s'.steps < 18 - 2 * s.steps
    omega

theorem nodeHolds_composeResponse (h : Entering .composeResponse s past) :
    NodeHolds .composeResponse s past := by
  obtain ⟨loaded, calls, hcompose⟩ := h
  refine hcompose.holds (fun _ _ h ↦ h) (fun hdone ↦ ?_) fun text hdone ↦ ?_
  · exact .compose hcompose.conversing hcompose.follows.answered hcompose.replied hdone
  · exact ⟨_, rfl, .composed text hcompose.conversing hcompose.replied hdone⟩

theorem nodeHolds (node : OrderNode) (s : OrderState) (past : List OrderEvent)
    (h : Entering node s past) : NodeHolds node s past := by
  cases node with
  | loadContext =>
    obtain ⟨rfl, rfl⟩ := h
    exact nodeHolds_loadContext
  | admittance => exact nodeHolds_admittance h
  | explainScope => exact nodeHolds_explainScope h
  | queueAck => exact ⟨_, rfl, h⟩
  | requestImage => exact ⟨_, rfl, h⟩
  | extractOrder => exact nodeHolds_extractOrder h
  | mainAgent => exact nodeHolds_mainAgent h
  | tools => exact nodeHolds_tools h
  | composeResponse => exact nodeHolds_composeResponse h
  | draftReady => exact ⟨_, rfl, h⟩

/-! ### Every run -/

theorem Admitted.answered (h : Admitted past loaded) : Answered past := by
  cases h with
  | intro _ admission _ _ _ => exact (answered_load loaded).snoc (.admittance loaded) admission

theorem OrderAsks.answered {q : Query OrderFacts} (h : OrderAsks past q) : Answered past := by
  cases h with
  | load => exact fun event hevent ↦ (List.not_mem_nil hevent).elim
  | admittance loaded _ => exact answered_load loaded
  | extract loaded _ _ _ _ => exact answered_load loaded
  | recognize item hadmitted _ _ => exact hadmitted.answered
  | main _ hanswered _ _ _ => exact hanswered
  | tool _ _ _ hanswered _ _ => exact hanswered
  | compose _ hanswered _ _ => exact hanswered

theorem OrderAsks.counted {messages : List GraphMessage}
    (h : OrderAsks past (.main messages loaded)) : mainCount past < maxMainCalls := by
  cases h with
  | main _ _ _ _ hcount => exact hcount

theorem Admitted.last (h : Admitted past loaded) : ∃ before q a, past = before ++ [⟨q, .ok a⟩] := by
  cases h with
  | intro _ admission _ _ _ => exact ⟨[_], .admittance loaded, admission, rfl⟩

theorem OrderEnds.last {outcome : RunOutcome} (h : OrderEnds past outcome) :
    ∃ before q a, past = before ++ [⟨q, .ok a⟩] := by
  cases h with
  | unclear loaded admission _ _ => exact ⟨[_], .admittance loaded, admission, rfl⟩
  | refused loaded admission _ _ => exact ⟨[_], .admittance loaded, admission, rfl⟩
  | queued loaded admission _ _ _ => exact ⟨[_], .admittance loaded, admission, rfl⟩
  | noImage hadmitted _ => exact hadmitted.last
  | ready loaded _ _ => exact ⟨[], .load, loaded, rfl⟩
  | extracted loaded item found _ _ _ => exact ⟨[_], .recognize loaded, found, rfl⟩
  | composed text _ _ _ => exact ⟨_, .compose _ _, text, rfl⟩

theorem executeOrder_holds :
    executeOrder.Holds anything OrderAsks []
      (fun past result ↦ OrderEnds past result.outcome) BreaksOff := by
  have hgraph : (orderGraph.invoke recursionError recursionLimit .loadContext {}).Holds
      anything OrderAsks [] Finished BreaksOff :=
    StateGraph.holds_invoke recursionError nodeHolds recursionLimit ⟨rfl, rfl⟩ (by decide)
  refine holds_bind.mpr (hgraph.mono ?_ fun _ _ h ↦ h)
  rintro past s ⟨result, hresult, hends⟩
  exact holds_readKey hresult hends

/-- Whatever the capabilities answer, an order run asks only what `OrderAsks` allows, the main model
at most six times, and ends as `OrderEnds` or `BreaksOff` say, without ever reaching the recursion
limit; a capability that fails is the last one asked, and its failure is the failure of the run. -/
theorem order_run
    (surroundings : List OrderEvent → (q : Query OrderFacts) → Except Failure (Answer q)) :
    Lawful OrderAsks (executeOrder.run surroundings []).1 ∧
      EndsAs (fun past result ↦ OrderEnds past result.outcome) BreaksOff
        (executeOrder.run surroundings []).1 (executeOrder.run surroundings []).2 ∧
      mainCount (executeOrder.run surroundings []).1 ≤ maxMainCalls ∧
      ∀ before q failure after,
        (executeOrder.run surroundings []).1 = before ++ ⟨q, .error failure⟩ :: after →
          after = [] ∧ (executeOrder.run surroundings []).2 = .error failure := by
  obtain ⟨hlawful, hends⟩ :=
    holds_run surroundings (fun _ _ ↦ trivial) executeOrder_holds lawful_nil
  refine ⟨hlawful, hends, mainCount_le hlawful fun _ _ _ h ↦ h.counted, ?_⟩
  intro before q failure after hhistory
  exact fails_last hlawful (fun _ _ h ↦ h.answered) (fun _ _ h ↦ h.last) hends hhistory

end FilmOS.Agent
