import FilmOS.Agent.Tools
import FilmOS.Library.StateGraph

/-!
# The conversation of a run with its model

Both graphs work through capabilities only, which load the context, ask the models and carry out
tool calls (`Query`), and both hold the same conversation: the main model replies, the tools that
the reply calls for are carried out one after the other, and the model is asked again, at most
`maxMainCalls` times, before a text is composed. The nodes that the graphs share are here, with the
messages as LangGraph keeps them: a reply whose identifier an earlier message has takes the place of
that message (`addMessage`), and only a reply has tool calls to read.

What a graph has done so far is read off the history of its queries: the messages that the answers
amount to (`transcript`), the replies asked for (`mainCount`), and the tool calls still to be
carried out (`pending`). `Follows` says that the state of the graph is what the history says, and
the laws of the nodes keep it.
-/

set_option autoImplicit false
set_option relaxedAutoImplicit false

namespace FilmOS.Agent

open Script

def maxMainCalls : ℕ := 6

/-! ### Messages -/

/-- A tool call in a reply, with its arguments as JSON text. -/
structure ToolCall where
  id : Option String
  name : String
  args : String
deriving DecidableEq

/-- A reply of the main model. -/
structure ModelReply where
  id : Option String
  content : String
  toolCalls : List ToolCall
deriving DecidableEq

/-- A message in the state of a graph. One without an identifier is given a fresh one, that no other
message has. -/
inductive GraphMessage
  | human (content : String)
  | ai (id : Option String) (content : String) (toolCalls : List ToolCall)
  | tool (callId name content : String)
deriving DecidableEq

namespace GraphMessage

/-- The identifier that a message came with. -/
def id : GraphMessage → Option String
  | ai id _ _ => id
  | _ => none

/-- The attribute `tool_calls`, which only a message of the model has. -/
def toolCalls : GraphMessage → Except Failure (List ToolCall)
  | ai _ _ calls => .ok calls
  | _ => .error .attributeError

def IsTool : GraphMessage → Prop
  | tool _ _ _ => True
  | _ => False

end GraphMessage

def ModelReply.message (reply : ModelReply) : GraphMessage :=
  .ai reply.id reply.content reply.toolCalls

/-- The reply has the identifier of a message that is there already. -/
def ModelReply.Repeats (reply : ModelReply) (messages : List GraphMessage) : Prop :=
  reply.id.isSome ∧ reply.id ∈ messages.map GraphMessage.id

instance (reply : ModelReply) (messages : List GraphMessage) : Decidable (reply.Repeats messages) :=
  inferInstanceAs (Decidable (_ ∧ _))

/-- `add_messages` for a reply: it takes the place of the message with its identifier. -/
def addMessage (messages : List GraphMessage) (reply : ModelReply) : List GraphMessage :=
  if reply.Repeats messages then
    messages.map fun message ↦ if message.id = reply.id then reply.message else message
  else messages ++ [reply.message]

/-- `state["messages"][-1].tool_calls`. Without any message it is an `IndexError`. -/
def lastToolCalls (messages : List GraphMessage) : Except Failure (List ToolCall) :=
  match messages.getLast? with
  | some message => message.toolCalls
  | none => .error (.keyError "-1")

/-! ### Capabilities -/

inductive Decision
  | allow
  | clarify
  | outOfScope
deriving DecidableEq, Repr

inductive ReasonCode
  | inScope
  | needsTarget
  | missingInput
  | wrongAgent
  | unsupportedOperation
deriving DecidableEq, Repr

inductive RequestedOperation
  | query
  | explainDraft
  | generate
  | executeRequest
  | adjustRequest
deriving DecidableEq, Repr

structure Admission where
  decision : Decision
  reasonCode : ReasonCode
  requestedOperation : RequestedOperation := .query
deriving DecidableEq

/-- A message of the session, as `load` hands it to the graph. -/
structure HistoryMessage where
  fromAssistant : Bool
  content : String
deriving DecidableEq

def HistoryMessage.message (message : HistoryMessage) : GraphMessage :=
  if message.fromAssistant then .ai none message.content [] else .human message.content

theorem HistoryMessage.message_id (message : HistoryMessage) : message.message.id = none := by
  unfold HistoryMessage.message
  by_cases h : message.fromAssistant = true
  · rw [if_pos h]
    rfl
  · rw [if_neg h]
    rfl

/-- What `load` returns: what both graphs have, and the facts of the one graph. -/
structure Loaded (F : Type) where
  messages : List HistoryMessage
  inputText : String
  triggerKind : TriggerKind
  workbench : Bool
  facts : F

/-- The snapshot of an item, with the number of orders where it was just recognised. -/
structure ItemFacts where
  item : OrderIntakeItem
  recognizedOrderCount : Option ℕ

/-- What `generate` returns, as far as the graph reads it. -/
structure Generated where
  errorCode : Option String
  outcome : Option RunOutcome
  replacementRequired : Bool

/-- What a graph asks its capabilities. -/
inductive Query (F : Type)
  | load
  | admittance (loaded : Loaded F)
  | recognize (loaded : Loaded F)
  | generate
  | explainWorkbench
  | main (messages : List GraphMessage) (loaded : Loaded F)
  | tool (call : ToolCall)
  | compose (messages : List GraphMessage) (loaded : Loaded F)

/-- What they return; a tool returns a dictionary, here its JSON text. -/
abbrev Answer {F : Type} : Query F → Type
  | .load => Loaded F
  | .admittance _ => Admission
  | .recognize _ => ItemFacts
  | .generate => Generated
  | .explainWorkbench => String
  | .main _ _ => ModelReply
  | .tool _ => String
  | .compose _ _ => String

abbrev Capable (F α : Type) := Script Failure (Answer (F := F)) α

/-- Ask a capability; what it raises is raised. -/
def request {F : Type} (q : Query F) : Capable F (Answer q) := Script.query q

abbrev GraphEvent (F : Type) := Event Failure (Answer (F := F))

/-! ### The nodes that both graphs have -/

/-- The state of a graph; a key that no node has set is `none`. -/
structure GraphState (F : Type) where
  loaded : Option (Loaded F) := none
  admission : Option Admission := none
  messages : List GraphMessage := []
  steps : ℕ := 0
  result : Option RunResult := none

section Nodes

variable {F : Type}

/-- A key of the state, which is a `KeyError` while it is not set. -/
def readKey {α : Type} (value : Option α) (key : String) : Except Failure α :=
  value.elim (.error (.keyError key)) .ok

/-- `load_context`. -/
def loadContext (s : GraphState F) : Capable F (GraphState F) := do
  let loaded : Loaded F ← request .load
  return { s with
    loaded := some loaded
    messages := s.messages ++ loaded.messages.map HistoryMessage.message
    steps := 0 }

/-- `admittance`. -/
def admittance (s : GraphState F) : Capable F (GraphState F) := do
  let loaded ← ofExcept (readKey s.loaded "loaded")
  let admission : Admission ← request (.admittance loaded)
  return { s with admission := some admission }

/-- `main_agent`. -/
def mainAgent (s : GraphState F) : Capable F (GraphState F) := do
  let loaded ← ofExcept (readKey s.loaded "loaded")
  let reply : ModelReply ← request (.main s.messages loaded)
  return { s with messages := addMessage s.messages reply, steps := s.steps + 1 }

/-- The message for the result of a tool call; its `tool_call_id` is validated to be a text. -/
def toolMessage (call : ToolCall) (result : String) : Except Failure GraphMessage :=
  match call.id with
  | some id => .ok (.tool id call.name result)
  | none => .error (.valueError "tool_call_id")

def carryOut (call : ToolCall) : Capable F GraphMessage := do
  let result : String ← request (.tool call)
  ofExcept (toolMessage call result)

/-- `tools`. -/
def tools (s : GraphState F) : Capable F (GraphState F) := do
  let calls ← ofExcept (lastToolCalls s.messages)
  let results ← forEach carryOut calls
  return { s with messages := s.messages ++ results }

/-- The last reply still calls for tools. -/
def wantsTools (s : GraphState F) : Except Failure Bool := do
  let calls ← lastToolCalls s.messages
  return !calls.isEmpty

/-- The edge from `main_agent`: whether the tools come next. -/
def callsTools (s : GraphState F) : Except Failure Bool := do
  let wanted ← wantsTools s
  return wanted && s.steps < maxMainCalls

/-- `compose_response`, with the outcome of a conversation that ended within the limit. -/
def composeResponse (outcome : Except Failure RunOutcome) (s : GraphState F) :
    Capable F (GraphState F) := do
  let loaded ← ofExcept (readKey s.loaded "loaded")
  let text : String ← request (.compose s.messages loaded)
  let limited ← if s.steps ≥ maxMainCalls then ofExcept (wantsTools s) else pure false
  let outcome ← if limited then pure .limitReached else ofExcept outcome
  return { s with result := some ⟨text, outcome⟩ }

end Nodes

/-! ### What the history says -/

variable {F : Type}

/-- The messages after an answer. -/
def record (messages : List GraphMessage) : GraphEvent F → List GraphMessage
  | ⟨.load, .ok loaded⟩ => messages ++ loaded.messages.map HistoryMessage.message
  | ⟨.main _ _, .ok reply⟩ => addMessage messages reply
  | ⟨.tool call, .ok result⟩ => messages ++ (toolMessage call result).toOption.toList
  | _ => messages

/-- The messages that the answers so far amount to. -/
def transcript (past : List (GraphEvent F)) : List GraphMessage := past.foldl record []

def isMain : GraphEvent F → Bool
  | ⟨.main _ _, _⟩ => true
  | _ => false

/-- How often the main model was asked. -/
def mainCount (past : List (GraphEvent F)) : ℕ := past.countP isMain

/-- The tool calls still to be carried out after an answer. -/
def due (calls : List ToolCall) : GraphEvent F → List ToolCall
  | ⟨.main _ _, .ok reply⟩ => reply.toolCalls
  | ⟨.tool _, .ok _⟩ => calls.tail
  | _ => calls

/-- The tool calls of the last reply that are still to be carried out. -/
def pending (past : List (GraphEvent F)) : List ToolCall := past.foldl due []

/-- Every query of the history was answered. -/
def Answered (past : List (GraphEvent F)) : Prop := ∀ event ∈ past, ∃ a, event.answer = .ok a

/-- How a run breaks off: by the failure of its last query, or in the graph, where the last reply
has the identifier of an earlier message, or the last tool call has none. -/
inductive BreaksOff : List (GraphEvent F) → Failure → Prop
  | failed (before : List (GraphEvent F)) (q : Query F) (failure : Failure) :
      BreaksOff (before ++ [⟨q, .error failure⟩]) failure
  | repeated (before : List (GraphEvent F)) (messages : List GraphMessage) (loaded : Loaded F)
      (reply : ModelReply) (h : reply.Repeats messages) :
      BreaksOff (before ++ [⟨.main messages loaded, .ok reply⟩]) .attributeError
  | unnamed (before : List (GraphEvent F)) (call : ToolCall) (result : String)
      (h : call.id = none) :
      BreaksOff (before ++ [⟨.tool call, .ok result⟩]) (.valueError "tool_call_id")

/-- A tool call that was carried out. -/
def IsCall (event : GraphEvent F) : Prop := ∃ call result, event = ⟨.tool call, .ok result⟩

/-- The main model replied last. -/
def Replied (past : List (GraphEvent F)) : Prop :=
  ∃ before event, past = before ++ [event] ∧ isMain event = true

/-- The state of a graph is what the history says. -/
structure Follows (s : GraphState F) (past : List (GraphEvent F)) : Prop where
  answered : Answered past
  messages : s.messages = transcript past
  steps : s.steps = mainCount past

variable {past events : List (GraphEvent F)} {event : GraphEvent F} {s : GraphState F}
  {messages : List GraphMessage}

@[simp] theorem transcript_snoc :
    transcript (past ++ [event]) = record (transcript past) event := by
  unfold transcript
  rw [List.foldl_append]
  rfl

@[simp] theorem pending_snoc : pending (past ++ [event]) = due (pending past) event := by
  unfold pending
  rw [List.foldl_append]
  rfl

theorem mainCount_append (first second : List (GraphEvent F)) :
    mainCount (first ++ second) = mainCount first + mainCount second :=
  List.countP_append

@[simp] theorem mainCount_snoc :
    mainCount (past ++ [event]) = mainCount past + if isMain event then 1 else 0 := by
  unfold mainCount
  rw [List.countP_append, List.countP_singleton]

theorem Answered.snoc (h : Answered past) (q : Query F) (a : Answer q) :
    Answered (past ++ [⟨q, .ok a⟩]) := by
  intro event hevent
  rcases List.mem_append.mp hevent with hevent | hevent
  · exact h event hevent
  · obtain rfl := List.mem_singleton.mp hevent
    exact ⟨a, rfl⟩

theorem not_replied_snoc (past : List (GraphEvent F)) (hevent : isMain event = false) :
    ¬ Replied (past ++ [event]) := by
  rintro ⟨before, last, heq, hlast⟩
  cases (List.append_inj' heq rfl).2
  rw [hevent] at hlast
  cases hlast

theorem answered_load (loaded : Loaded F) :
    Answered ([⟨.load, .ok loaded⟩] : List (GraphEvent F)) := by
  intro event hevent
  obtain rfl := List.mem_singleton.mp hevent
  exact ⟨loaded, rfl⟩

theorem mainCount_append_calls (hevents : ∀ event ∈ events, IsCall event) :
    mainCount (past ++ events) = mainCount past := by
  rw [mainCount_append, Nat.add_eq_left]
  refine List.countP_eq_zero.mpr ?_
  intro event hevent
  obtain ⟨call, result, rfl⟩ := hevents event hevent
  exact Bool.false_ne_true

/-! ### Histories of whole runs -/

variable {asks : List (GraphEvent F) → Query F → Prop}

/-- The main model is asked no more often than a limit that is checked before it is asked. -/
theorem mainCount_le {limit : ℕ} {history : List (GraphEvent F)} (hlawful : Lawful asks history)
    (hasks : ∀ past messages loaded, asks past (.main messages loaded) → mainCount past < limit) :
    mainCount history ≤ limit := by
  induction history using List.reverseRecOn with
  | nil => exact Nat.zero_le _
  | append_singleton past event ih =>
    rw [mainCount_snoc]
    have hquery := hlawful past event [] rfl
    rcases event with ⟨q, answer⟩
    cases q with
    | main messages loaded => exact hasks past messages loaded hquery
    | load => exact ih hlawful.left
    | admittance _ => exact ih hlawful.left
    | recognize _ => exact ih hlawful.left
    | generate => exact ih hlawful.left
    | explainWorkbench => exact ih hlawful.left
    | tool _ => exact ih hlawful.left
    | compose _ _ => exact ih hlawful.left

theorem BreaksOff.eq_of_failed {before : List (GraphEvent F)} {q : Query F}
    {failure other : Failure} (h : BreaksOff (before ++ [⟨q, .error failure⟩]) other) :
    other = failure := by
  generalize hpast : before ++ [(⟨q, .error failure⟩ : GraphEvent F)] = past at h
  cases h with
  | failed before' q' =>
    cases (List.append_inj' hpast rfl).2
    rfl
  | repeated before' messages loaded reply _ => cases (List.append_inj' hpast rfl).2
  | unnamed before' call result _ => cases (List.append_inj' hpast rfl).2

/-- The state of a graph that has loaded its context. -/
theorem follows_loaded (loaded : Loaded F) :
    Follows
      { loaded := some loaded, messages := loaded.messages.map HistoryMessage.message :
        GraphState F } [⟨.load, .ok loaded⟩] :=
  ⟨answered_load loaded, rfl, rfl⟩

/-- The state of a graph that has decided on the admittance of the input. -/
theorem Follows.decided {loaded : Loaded F} (h : Follows s [⟨.load, .ok loaded⟩])
    (admission : Admission) :
    Follows { s with admission := some admission }
      [⟨.load, .ok loaded⟩, ⟨.admittance loaded, .ok admission⟩] :=
  ⟨h.answered.snoc (.admittance loaded) admission, h.messages, h.steps⟩

/-- Where queries follow answers only, a query that fails is the last one, and fails the run. -/
theorem fails_last {α : Type} {returns : List (GraphEvent F) → α → Prop}
    {outcome : Except Failure α} {history before after : List (GraphEvent F)} {q : Query F}
    {failure : Failure}
    (hlawful : Lawful asks history) (hanswered : ∀ past q, asks past q → Answered past)
    (hlast : ∀ past a, returns past a → ∃ before q value, past = before ++ [⟨q, .ok value⟩])
    (hends : EndsAs returns BreaksOff history outcome)
    (hhistory : history = before ++ ⟨q, .error failure⟩ :: after) :
    after = [] ∧ outcome = .error failure := by
  cases after with
  | cons event rest =>
    rw [List.append_cons] at hhistory
    obtain ⟨a, ha⟩ := hanswered _ _ (hlawful _ event rest hhistory) ⟨q, .error failure⟩
      (List.mem_append_right _ (List.mem_singleton_self _))
    cases ha
  | nil =>
    subst hhistory
    refine ⟨rfl, ?_⟩
    cases outcome with
    | ok a =>
      obtain ⟨before', q', value, heq⟩ := hlast _ a hends
      cases (List.append_inj' heq rfl).2
    | error other => rw [BreaksOff.eq_of_failed hends]

/-! ### The last message -/

/-- Before the main model is asked, a reply that takes the place of an earlier message does not
become the last one: no message has an identifier, or the last one is of a tool. -/
def Settled (messages : List GraphMessage) : Prop :=
  (∀ message ∈ messages, message.id = none) ∨
    ∃ before last, messages = before ++ [last] ∧ last.IsTool

theorem lastToolCalls_snoc (message : GraphMessage) :
    lastToolCalls (messages ++ [message]) = message.toolCalls := by
  unfold lastToolCalls
  rw [List.getLast?_concat]

/-- The tool calls read after a reply are those of the reply, unless it repeats an identifier. -/
theorem lastToolCalls_addMessage (hsettled : Settled messages) (reply : ModelReply) :
    lastToolCalls (addMessage messages reply) =
      if reply.Repeats messages then .error .attributeError else .ok reply.toolCalls := by
  unfold addMessage
  by_cases hrepeats : reply.Repeats messages
  · rw [if_pos hrepeats, if_pos hrepeats]
    obtain ⟨hsome, hmem⟩ := hrepeats
    rcases hsettled with hnone | ⟨before, last, rfl, hlast⟩
    · obtain ⟨message, hmessage, hid⟩ := List.mem_map.mp hmem
      rw [← hid, hnone message hmessage] at hsome
      cases hsome
    · cases last with
      | tool callId name content =>
        have hne : ¬ GraphMessage.id (.tool callId name content) = reply.id := by
          intro heq
          rw [← heq] at hsome
          cases hsome
        rw [List.map_append, List.map_singleton, if_neg hne, lastToolCalls_snoc]
        rfl
      | human content => exact hlast.elim
      | ai id content calls => exact hlast.elim
  · rw [if_neg hrepeats, if_neg hrepeats, lastToolCalls_snoc]
    rfl

/-! ### The laws of the nodes -/

variable {loaded : Loaded F}
  {raises : List (GraphEvent F) → Failure → Prop}

theorem holds_request {q : Query F} {returns : List (GraphEvent F) → Answer q → Prop}
    (hraises : ∀ past failure, BreaksOff past failure → raises past failure) (hasks : asks past q)
    (hreturns : ∀ a, returns (past ++ [⟨q, .ok a⟩]) a) :
    (request q).Holds anything asks past returns raises :=
  Script.holds_query.mpr
    ⟨hasks, fun a _ ↦ hreturns a, fun failure _ ↦ hraises _ _ (.failed past q failure)⟩

theorem holds_readKey {α : Type} {value : Option α} {a : α} {key : String}
    {returns : List (GraphEvent F) → α → Prop} (hvalue : value = some a)
    (hreturns : returns past a) :
    (ofExcept (readKey value key)).Holds anything asks past returns raises := by
  rw [hvalue]
  exact hreturns

theorem Follows.main (h : Follows s past) (reply : ModelReply) :
    Follows { s with messages := addMessage s.messages reply, steps := s.steps + 1 }
      (past ++ [⟨.main s.messages loaded, .ok reply⟩]) where
  answered := h.answered.snoc (.main s.messages loaded) reply
  messages := by
    rw [transcript_snoc, ← h.messages]
    rfl
  steps := by
    rw [mainCount_snoc, ← h.steps]
    rfl

theorem holds_mainAgent {returns : List (GraphEvent F) → GraphState F → Prop}
    (hraises : ∀ past failure, BreaksOff past failure → raises past failure)
    (hloaded : s.loaded = some loaded) (hasks : asks past (.main s.messages loaded))
    (hreturns : ∀ reply, returns (past ++ [⟨.main s.messages loaded, .ok reply⟩])
      { s with messages := addMessage s.messages reply, steps := s.steps + 1 }) :
    (mainAgent s).Holds anything asks past returns raises := by
  refine holds_bind.mpr (holds_readKey hloaded ?_)
  exact holds_bind.mpr (holds_request hraises hasks hreturns)

/-- The calls of the last reply are carried out in order. -/
theorem holds_tools {calls : List ToolCall} {returns : List (GraphEvent F) → GraphState F → Prop}
    (hraises : ∀ past failure, BreaksOff past failure → raises past failure)
    (hfollows : Follows s past) (hcalls : lastToolCalls s.messages = .ok calls)
    (hpending : pending past = calls) (hne : calls ≠ [])
    (hasks : ∀ events, (∀ event ∈ events, IsCall event) → Answered (past ++ events) →
      ∀ call rest, pending (past ++ events) = call :: rest → asks (past ++ events) (.tool call))
    (hreturns : ∀ events results, (∀ event ∈ events, IsCall event) →
      Follows { s with messages := s.messages ++ results } (past ++ events) →
      pending (past ++ events) = [] → Settled (s.messages ++ results) →
      returns (past ++ events) { s with messages := s.messages ++ results }) :
    (tools s).Holds anything asks past returns raises := by
  refine holds_bind.mpr ?_
  rw [hcalls]
  -- What is still to be carried out is what the history says is due.
  let invariant := fun (rest : List ToolCall) (results : List GraphMessage)
      (past' : List (GraphEvent F)) ↦ ∃ events, past' = past ++ events ∧
        (∀ event ∈ events, IsCall event) ∧
        Follows { s with messages := s.messages ++ results } past' ∧ pending past' = rest ∧
        (∀ message ∈ results, message.IsTool) ∧ (results = [] → rest = calls)
  have hstart : invariant calls [] past := by
    refine ⟨[], (List.append_nil _).symm, fun _ h ↦ (List.not_mem_nil h).elim, ?_, hpending,
      fun _ h ↦ (List.not_mem_nil h).elim, fun _ ↦ rfl⟩
    rw [List.append_nil]
    exact hfollows
  refine holds_bind.mpr ((holds_forEach invariant ?_ hstart).mono ?_ fun _ _ h ↦ h)
  · rintro call rest results past' ⟨events, rfl, hevents, hfollows, hdue, htools, -⟩
    refine holds_bind.mpr
      (holds_request hraises (hasks events hevents hfollows.answered call rest hdue) fun result ↦
        holds_ofExcept.mpr ?_)
    cases hid : call.id with
    | none =>
      unfold toolMessage
      rw [hid]
      exact hraises _ _ (.unnamed _ call result hid)
    | some id =>
      have hmessage : toolMessage call result = .ok (.tool id call.name result) := by
        unfold toolMessage
        rw [hid]
      rw [hmessage]
      refine ⟨events ++ [⟨.tool call, .ok result⟩], List.append_assoc _ _ _, ?_,
        ⟨?_, ?_, ?_⟩, ?_, ?_, ?_⟩
      · intro event hevent
        rcases List.mem_append.mp hevent with hevent | hevent
        · exact hevents event hevent
        · exact ⟨call, result, List.mem_singleton.mp hevent⟩
      · exact hfollows.answered.snoc _ result
      · rw [transcript_snoc, ← hfollows.messages]
        show s.messages ++ (results ++ [.tool id call.name result]) =
          (s.messages ++ results) ++ (toolMessage call result).toOption.toList
        rw [hmessage, List.append_assoc]
        rfl
      · rw [mainCount_snoc, ← hfollows.steps]
        rfl
      · rw [pending_snoc, hdue]
        rfl
      · intro message hresult
        rcases List.mem_append.mp hresult with hresult | hresult
        · exact htools message hresult
        · rw [List.mem_singleton.mp hresult]
          trivial
      · intro hnil
        cases (List.append_eq_nil_iff.mp hnil).2
  · rintro past' results ⟨events, rfl, hevents, hfollows, hdue, htools, hstarted⟩
    refine hreturns events results hevents hfollows hdue (Or.inr ?_)
    rcases List.eq_nil_or_concat results with rfl | ⟨before, last, rfl⟩
    · exact absurd (hstarted rfl).symm hne
    · refine ⟨s.messages ++ before, last, ?_, htools last ?_⟩
      · rw [List.concat_eq_append, List.append_assoc]
      · rw [List.nil_append, List.concat_eq_append]
        exact List.mem_append_right _ (List.mem_singleton_self _)

/-- The response is composed once, and its outcome tells whether the limit was reached. -/
theorem holds_composeResponse {calls : List ToolCall} {outcome : Except Failure RunOutcome}
    {returns : List (GraphEvent F) → GraphState F → Prop}
    (hraises : ∀ past failure, BreaksOff past failure → raises past failure)
    (hloaded : s.loaded = some loaded) (hcalls : lastToolCalls s.messages = .ok calls)
    (hasks : asks past (.compose s.messages loaded))
    (hreturns : ∀ text, EndsAs
      (fun past reached ↦ returns past { s with result := some ⟨text, reached⟩ })
      raises (past ++ [⟨.compose s.messages loaded, .ok text⟩])
      (if maxMainCalls ≤ s.steps ∧ calls ≠ [] then .ok .limitReached else outcome)) :
    (composeResponse outcome s).Holds anything asks past returns raises := by
  refine holds_bind.mpr
    (holds_readKey hloaded (holds_bind.mpr (holds_request hraises hasks fun text ↦ ?_)))
  have hwants : wantsTools s = .ok (!calls.isEmpty) := by
    unfold wantsTools
    rw [hcalls]
    rfl
  specialize hreturns text
  by_cases hsteps : maxMainCalls ≤ s.steps
  · rw [if_pos hsteps, hwants]
    cases calls with
    | nil =>
      rw [if_neg (fun h ↦ h.2 rfl)] at hreturns
      refine holds_bind.mpr (holds_bind.mpr (holds_ofExcept.mpr ?_))
      exact hreturns
    | cons call rest =>
      rw [if_pos ⟨hsteps, List.cons_ne_nil call rest⟩] at hreturns
      exact hreturns
  · rw [if_neg hsteps]
    rw [if_neg (fun h ↦ hsteps h.1)] at hreturns
    exact holds_bind.mpr (holds_bind.mpr (holds_ofExcept.mpr hreturns))

/-! ### The stages of a conversation -/

variable {opened : List (GraphEvent F) → Prop} {calls : List ToolCall}

/-- A history that opened a conversation and went on with replies and tool calls. -/
def Conversing (opened : List (GraphEvent F) → Prop) (past : List (GraphEvent F)) : Prop :=
  ∃ opening turns, past = opening ++ turns ∧ opened opening ∧
    ∀ event ∈ turns, isMain event = true ∨ IsCall event

theorem Conversing.append (h : Conversing opened past)
    (hevents : ∀ event ∈ events, isMain event = true ∨ IsCall event) :
    Conversing opened (past ++ events) := by
  obtain ⟨opening, before, rfl, hopened, hbefore⟩ := h
  refine ⟨opening, before ++ events, List.append_assoc _ _ _, hopened, fun event hevent ↦ ?_⟩
  exact (List.mem_append.mp hevent).elim (hbefore event) (hevents event)

/-- The conversation is held in the state of the graph. -/
structure Talking (opened : List (GraphEvent F) → Prop) (s : GraphState F)
    (past : List (GraphEvent F)) (loaded : Loaded F) : Prop where
  conversing : Conversing opened past
  follows : Follows s past
  loaded : s.loaded = some loaded

/-- The main model is to be asked. -/
structure ToAsk (opened : List (GraphEvent F) → Prop) (s : GraphState F)
    (past : List (GraphEvent F)) (loaded : Loaded F) : Prop
    extends Talking opened s past loaded where
  remaining : pending past = []
  replied : ¬ Replied past
  steps : s.steps < maxMainCalls
  settled : Settled s.messages

/-- The calls of the last reply are to be carried out. -/
structure ToCall (opened : List (GraphEvent F) → Prop) (calls : List ToolCall) (s : GraphState F)
    (past : List (GraphEvent F)) (loaded : Loaded F) : Prop
    extends Talking opened s past loaded where
  read : lastToolCalls s.messages = .ok calls
  remaining : pending past = calls
  nonempty : calls ≠ []
  steps : s.steps < maxMainCalls

/-- The response is to be composed. -/
structure ToCompose (opened : List (GraphEvent F) → Prop) (calls : List ToolCall) (s : GraphState F)
    (past : List (GraphEvent F)) (loaded : Loaded F) : Prop
    extends Talking opened s past loaded where
  read : lastToolCalls s.messages = .ok calls
  remaining : pending past = calls
  replied : Replied past
  done : calls = [] ∨ s.steps = maxMainCalls

/-- A history whose conversation was just opened. -/
theorem ToAsk.start {history : List HistoryMessage} (hopened : opened past)
    (hfollows : Follows s past) (hloaded : s.loaded = some loaded) (hpending : pending past = [])
    (hreplied : ¬ Replied past) (hcount : mainCount past = 0)
    (htranscript : transcript past = history.map HistoryMessage.message) :
    ToAsk opened s past loaded where
  conversing := ⟨past, [], (List.append_nil _).symm, hopened, fun _ h ↦ (List.not_mem_nil h).elim⟩
  follows := hfollows
  loaded := hloaded
  remaining := hpending
  replied := hreplied
  steps := by
    rw [hfollows.steps, hcount]
    exact Nat.succ_pos _
  settled := by
    rw [hfollows.messages, htranscript]
    refine Or.inl fun message hmessage ↦ ?_
    obtain ⟨original, -, rfl⟩ := List.mem_map.mp hmessage
    exact original.message_id

theorem callsTools_ok (h : lastToolCalls s.messages = .ok calls) :
    callsTools s = .ok (decide (calls ≠ [] ∧ s.steps < maxMainCalls)) := by
  unfold callsTools wantsTools
  rw [h]
  cases calls with
  | nil => rfl
  | cons call rest =>
    show Except.ok (true && decide (s.steps < maxMainCalls)) = _
    simp only [Bool.true_and, ne_eq, reduceCtorEq, not_false_eq_true, true_and]

theorem callsTools_error {failure : Failure} (h : lastToolCalls s.messages = .error failure) :
    callsTools s = .error failure := by
  unfold callsTools wantsTools
  rw [h]
  rfl

/-- The main model is asked, and the edge that follows finds tool calls, or none left, or the
message of a reply that repeated an identifier. -/
theorem ToAsk.holds {returns : List (GraphEvent F) → GraphState F → Prop}
    (hraises : ∀ past failure, BreaksOff past failure → raises past failure)
    (h : ToAsk opened s past loaded)
    (hasks : asks past (.main (transcript past) loaded))
    (hrepeated : ∀ past s', BreaksOff past .attributeError →
      callsTools s' = .error .attributeError → returns past s')
    (hcalls : ∀ past s' calls, ToCall opened calls s' past loaded → s'.steps = s.steps + 1 →
      callsTools s' = .ok true → returns past s')
    (hdone : ∀ past s' calls, ToCompose opened calls s' past loaded → callsTools s' = .ok false →
      returns past s') :
    (mainAgent s).Holds anything asks past returns raises := by
  rw [← h.follows.messages] at hasks
  refine holds_mainAgent hraises h.loaded hasks fun reply ↦ ?_
  have hread := lastToolCalls_addMessage h.settled reply
  by_cases hrepeats : reply.Repeats s.messages
  · rw [if_pos hrepeats] at hread
    exact hrepeated _ _ (.repeated past s.messages loaded reply hrepeats) (callsTools_error hread)
  · rw [if_neg hrepeats] at hread
    have htalking : Talking opened
        { s with messages := addMessage s.messages reply, steps := s.steps + 1 }
        (past ++ [⟨.main s.messages loaded, .ok reply⟩]) loaded := by
      refine ⟨h.conversing.append fun event hevent ↦ ?_, h.follows.main reply, h.loaded⟩
      rw [List.mem_singleton.mp hevent]
      exact Or.inl rfl
    have hdue : pending (past ++ [⟨.main s.messages loaded, .ok reply⟩]) =
        reply.toolCalls := by
      rw [pending_snoc]
      rfl
    have hedge := callsTools_ok (s := { s with
      messages := addMessage s.messages reply, steps := s.steps + 1 }) hread
    by_cases htools : reply.toolCalls ≠ [] ∧ s.steps + 1 < maxMainCalls
    · rw [decide_eq_true htools] at hedge
      exact hcalls _ _ _ ⟨htalking, hread, hdue, htools.1, htools.2⟩ rfl hedge
    · rw [decide_eq_false htools] at hedge
      refine hdone _ _ _ ⟨htalking, hread, hdue, ⟨past, _, rfl, rfl⟩, ?_⟩ hedge
      by_cases hnil : reply.toolCalls = []
      · exact Or.inl hnil
      · exact Or.inr (Nat.le_antisymm h.steps (not_lt.mp fun hlt ↦ htools ⟨hnil, hlt⟩))

/-- The calls of the last reply are carried out, and the main model is to be asked again. -/
theorem ToCall.holds {returns : List (GraphEvent F) → GraphState F → Prop}
    (hraises : ∀ past failure, BreaksOff past failure → raises past failure)
    (h : ToCall opened calls s past loaded)
    (hasks : ∀ past call rest, Conversing opened past → Answered past →
      pending past = call :: rest → mainCount past < maxMainCalls →
      asks past (.tool call))
    (hreturns : ∀ past s', ToAsk opened s' past loaded → s'.steps = s.steps → returns past s') :
    (tools s).Holds anything asks past returns raises := by
  have hconversing (events : List (GraphEvent F)) (hevents : ∀ event ∈ events, IsCall event) :
      Conversing opened (past ++ events) :=
    h.conversing.append fun event hevent ↦ Or.inr (hevents event hevent)
  refine holds_tools hraises h.follows h.read h.remaining h.nonempty ?_ ?_
  · intro events hevents hanswered call rest hdue
    refine hasks _ call rest (hconversing events hevents) hanswered hdue ?_
    rw [mainCount_append_calls hevents, ← h.follows.steps]
    exact h.steps
  · intro events results hevents hfollows hdue hsettled
    refine hreturns _ _ ⟨⟨hconversing events hevents, hfollows, h.loaded⟩, hdue, ?_, h.steps,
      hsettled⟩ rfl
    rcases List.eq_nil_or_concat events with rfl | ⟨before, last, rfl⟩
    · rw [List.append_nil] at hdue
      exact absurd (h.remaining.symm.trans hdue) h.nonempty
    · rw [List.concat_eq_append, ← List.append_assoc]
      obtain ⟨call, result, heq⟩ := hevents last (by simp)
      exact not_replied_snoc _ (heq ▸ rfl)

/-- The response is composed. -/
theorem ToCompose.holds {outcome : RunOutcome} {returns : List (GraphEvent F) → GraphState F → Prop}
    (hraises : ∀ past failure, BreaksOff past failure → raises past failure)
    (h : ToCompose opened calls s past loaded)
    (hasks : pending past = [] ∨ mainCount past = maxMainCalls →
      asks past (.compose (transcript past) loaded))
    (hreturns : ∀ text,
      pending past = [] ∨ mainCount past = maxMainCalls →
      returns (past ++ [⟨.compose (transcript past) loaded, .ok text⟩])
        { s with result := some ⟨text,
          if pending past = [] then outcome else .limitReached⟩ }) :
    (composeResponse (.ok outcome) s).Holds anything asks past returns raises := by
  have hdone : pending past = [] ∨ mainCount past = maxMainCalls := by
    rw [h.remaining, ← h.follows.steps]
    exact h.done
  rw [← h.follows.messages, h.remaining] at hreturns
  rw [← h.follows.messages] at hasks
  refine holds_composeResponse hraises h.loaded h.read (hasks hdone) fun text ↦ ?_
  specialize hreturns text (h.remaining ▸ hdone)
  by_cases hnil : calls = []
  · rw [if_pos hnil] at hreturns
    rw [if_neg fun h ↦ h.2 hnil]
    exact hreturns
  · rw [if_neg hnil] at hreturns
    rw [if_pos ⟨(h.done.resolve_left hnil).ge, hnil⟩]
    exact hreturns

end FilmOS.Agent
