import FilmOS.Library.Trimming
import FilmOS.Agent.WorkerLaws

/-!
# Reading and writing of the text models

What goes to a model is bounded: of the messages as many whole exchanges are kept, from the end, as
fit beside the system text. An exchange is a message together with the results of the tools it asked
for, so that no result is ever shown without the request (`boundedMessages_keeps_exchanges`).

What comes from a model arrives in chunks of any length and is persisted in deltas while it arrives.
Everything that `streamResponse` persists, it persists in transactions of its own, between which
others run; `Streaming.appended` is what these transactions added to the log of the session.
The invariant of the loop, `Streamed`, says that the deltas so far and the buffer are the text so
far, and `streamResponse_persists` that the deltas of a finished stream are the text, which is that
of all chunks.
-/

set_option autoImplicit false
set_option relaxedAutoImplicit false

namespace FilmOS.Agent

open Transaction Trimming

/-! ### Bounded messages -/

def maxContextTextBytes : ℕ := 18000

/-- A message as far as its length and its role matter: its type, and the JSON text of
`model_dump`. -/
structure ModelMessage where
  type : String
  json : String
deriving DecidableEq

/-- `getattr(message, "type", "") == "tool"`. -/
def ModelMessage.isTool (message : ModelMessage) : Bool := message.type = "tool"

/-- The bytes of the JSON text of a group of messages. -/
def serializedSize (group : List ModelMessage) : ℕ :=
  ("[" ++ PythonText.join ", " (group.map ModelMessage.json) ++ "]").utf8ByteSize

/-- What a model is given: the system message and the selected messages. -/
structure ModelInput where
  system : String
  selected : List ModelMessage
deriving DecidableEq

/-- `bounded_messages`. -/
def boundedMessages (system : String) (messages : List ModelMessage) :
    Except Failure ModelInput := do
  ensure (system.utf8ByteSize ≤ maxContextTextBytes) (.runtimeError "context limit")
  let groups := runs ModelMessage.isTool messages
  let selected := keepEnd serializedSize groups (maxContextTextBytes - system.utf8ByteSize)
  ensure (messages = [] ∨ selected ≠ []) (.runtimeError "context limit")
  return { system, selected }

/-- The system text and the groups of messages stay within the bytes that a model may be given. -/
def Fits (system : String) (kept : List (List ModelMessage)) : Prop :=
  system.utf8ByteSize + (kept.map serializedSize).sum ≤ maxContextTextBytes

variable {system : String} {messages : List ModelMessage} {input : ModelInput}

theorem boundedMessages_eq_ok : boundedMessages system messages = .ok input ↔
    system.utf8ByteSize ≤ maxContextTextBytes ∧
      (messages = [] ∨ input.selected ≠ []) ∧
        input = ⟨system, keepEnd serializedSize (runs ModelMessage.isTool messages)
          (maxContextTextBytes - system.utf8ByteSize)⟩ := by
  unfold boundedMessages
  simp only [except_bind_eq_ok, ensure_eq_ok, except_pure_eq_ok]
  constructor
  · rintro ⟨_, hsystem, _, hselected, rfl⟩
    exact ⟨hsystem, hselected, rfl⟩
  · rintro ⟨hsystem, hselected, rfl⟩
    exact ⟨(), hsystem, (), hselected, rfl⟩

/-- The text of the system is too large, or the last exchange does not fit beside it. -/
theorem boundedMessages_fails_iff : (∃ failure, boundedMessages system messages = .error failure) ↔
    maxContextTextBytes < system.utf8ByteSize ∨
      ∃ last ∈ (runs ModelMessage.isTool messages).getLast?, ¬ Fits system [last] := by
  have hsplit := split_runs ModelMessage.isTool messages
  have hfits : ∀ last, ¬ Fits system [last] ↔
      maxContextTextBytes < system.utf8ByteSize + serializedSize last := by
    intro last
    unfold Fits
    rw [List.map_singleton, List.sum_singleton, not_le]
  have hfails : (∃ failure, boundedMessages system messages = .error failure) ↔
      ¬ ∃ input, boundedMessages system messages = .ok input := by
    cases boundedMessages system messages with
    | ok input => simp
    | error failure => simp
  rw [hfails]
  by_cases hsystem : system.utf8ByteSize ≤ maxContextTextBytes
  · have hnil := keepEnd_eq_nil_iff serializedSize hsplit.ne_nil
      (maxContextTextBytes - system.utf8ByteSize)
    constructor
    · intro hnone
      have hboth : messages ≠ [] ∧ keepEnd serializedSize (runs ModelMessage.isTool messages)
          (maxContextTextBytes - system.utf8ByteSize) = [] := by
        by_contra hnot
        refine hnone ⟨_, boundedMessages_eq_ok.mpr ⟨hsystem, ?_, rfl⟩⟩
        by_contra hneither
        rw [not_or, not_not] at hneither
        exact hnot hneither
      obtain ⟨hmessages, hkept⟩ := hboth
      have hgroups : runs ModelMessage.isTool messages ≠ [] := by
        intro hgroups
        rw [← hsplit.flatten, hgroups] at hmessages
        exact hmessages rfl
      have hlast := List.getLast?_eq_some_getLast hgroups
      refine Or.inr ⟨_, hlast, (hfits _).mpr ?_⟩
      have := hnil.mp hkept _ hlast
      omega
    · rintro (hlarge | ⟨last, hlast, hlarge⟩) ⟨input, hok⟩
      · exact absurd hsystem (not_le.mpr hlarge)
      · obtain ⟨-, hselected, rfl⟩ := boundedMessages_eq_ok.mp hok
        rw [hfits] at hlarge
        have hkept : keepEnd serializedSize (runs ModelMessage.isTool messages)
            (maxContextTextBytes - system.utf8ByteSize) = [] := by
          refine hnil.mpr fun other hother ↦ ?_
          rw [Option.mem_unique hother hlast]
          omega
        rcases hselected with hmessages | hselected
        · rw [hmessages] at hlast
          cases hlast
        · exact hselected hkept
  · refine ⟨fun _ ↦ Or.inl (not_le.mp hsystem), ?_⟩
    rintro - ⟨input, hok⟩
    exact hsystem (boundedMessages_eq_ok.mp hok).1

theorem boundedMessages_ne_valueError {message : String} :
    boundedMessages system messages ≠ .error (.valueError message) := by
  unfold boundedMessages ensure
  by_cases hsystem : system.utf8ByteSize ≤ maxContextTextBytes
  · rw [if_pos hsystem]
    by_cases hselected : messages = [] ∨ keepEnd serializedSize (runs ModelMessage.isTool messages)
        (maxContextTextBytes - system.utf8ByteSize) ≠ []
    · simp only [if_pos hselected]
      exact fun h ↦ by cases h
    · simp only [if_neg hselected]
      exact fun h ↦ by cases h
  · rw [if_neg hsystem]
    exact fun h ↦ by cases h

/-- A model is given the system text and an end of the messages that begins where an exchange
begins, unless the messages themselves begin with results of tools. The end fits and is the longest
that does. -/
theorem boundedMessages_keeps_exchanges (system : String) (messages : List ModelMessage) :
    ∃ groups, Split ModelMessage.isTool messages groups ∧
      (∀ input, boundedMessages system messages = .ok input → input.system = system ∧
        ∃ dropped kept, groups = dropped ++ kept ∧ input.selected = kept.flatten ∧
          messages = dropped.flatten ++ input.selected ∧ Fits system kept ∧
          (∀ dropped' kept', groups = dropped' ++ kept' → Fits system kept' → kept' <:+ kept) ∧
          ∀ first ∈ input.selected.head?, first.isTool → input.selected = messages) ∧
      ((∃ failure, boundedMessages system messages = .error failure) ↔
        maxContextTextBytes < system.utf8ByteSize ∨
          ∃ last ∈ groups.getLast?, ¬ Fits system [last]) := by
  have hsplit := split_runs ModelMessage.isTool messages
  refine ⟨_, hsplit, fun input hok ↦ ?_, boundedMessages_fails_iff⟩
  obtain ⟨hsystem, -, rfl⟩ := boundedMessages_eq_ok.mp hok
  obtain ⟨dropped, kept, hgroups, hselected, hsum, hmost⟩ := keepEnd_spec serializedSize
    (runs ModelMessage.isTool messages) (maxContextTextBytes - system.utf8ByteSize)
  have hmessages : messages = dropped.flatten ++ kept.flatten := by
    rw [← List.flatten_append, ← hgroups, hsplit.flatten]
  refine ⟨rfl, dropped, kept, hgroups, hselected, ?_, ?_,
    fun dropped' kept' hgroups' hfits ↦ ?_, ?_⟩
  · rwa [hselected]
  · unfold Fits
    omega
  · have hlength : kept'.length ≤ kept.length := by
      refine hmost dropped' kept' hgroups' ?_
      unfold Fits at hfits
      omega
    exact List.suffix_of_suffix_length_le ⟨dropped', hgroups'.symm⟩ ⟨dropped, hgroups.symm⟩ hlength
  · intro first hfirst htool
    rw [hselected] at hfirst ⊢
    cases hdropped : dropped with
    | nil =>
      rw [hdropped] at hmessages
      exact hmessages.symm
    | cons group rest =>
      -- A kept group that is not the first of all begins with a message that is no tool result.
      exfalso
      cases hkept : kept with
      | nil =>
        rw [hkept] at hfirst
        cases hfirst
      | cons next others =>
        have hmem : next ∈ (runs ModelMessage.isTool messages).tail := by
          rw [hgroups, hdropped, hkept, List.cons_append, List.tail_cons]
          exact List.mem_append_right _ List.mem_cons_self
        have hne : next ≠ [] := hsplit.ne_nil next (List.mem_of_mem_tail hmem)
        rw [hkept, List.flatten_cons, List.head?_append_of_ne_nil _ hne] at hfirst
        have hstarted := hsplit.started next hmem first hfirst
        rw [htool] at hstarted
        cases hstarted

/-! ### Streamed responses -/

/-- The content of a chunk: a text, parts, each the text of an object or no object, or something
else. -/
inductive Content
  | text (value : String)
  | parts (items : List (Option String))
  | other

/-- `content_text`. -/
def contentText : Content → String
  | .text value => value
  | .parts items => String.join (items.filterMap id)
  | .other => ""

/-- A chunk of a response, with what the clock reads when the buffer is looked at and after it was
flushed, and whether the chunk reports the usage. -/
structure ModelChunk where
  content : Content
  checkedAt : ℚ
  flushedAt : ℚ
  usage : Bool

/-- `ModelIO`: the claimed run, whether a model was passed in, and whether there is a key for
one. -/
structure ModelIO where
  context : RunContext
  model : Bool
  apiKey : Bool

/-- What surrounds the transactions of a stream: the call of each, and what others have done to the
database before it. -/
structure Surroundings where
  calls : ℕ → Call
  others : ℕ → AgentDb → AgentDb

/-- The database with the number of transactions so far and the events that these have appended to
the log of the session. -/
structure Streaming where
  db : AgentDb
  transactions : ℕ
  appended : List SessionEvent

/-- A stream that has not begun. -/
def Streaming.start (db : AgentDb) : Streaming := ⟨db, 0, []⟩

/-- The log of a session. -/
def AgentDb.eventsOf (db : AgentDb) (sessionId : Id) : List SessionEvent :=
  match db.workspaces.find? sessionId with
  | some w => w.events
  | none => []

/-- A body as a transaction of its own. -/
def transaction {α : Type} (around : Surroundings) (sessionId : Id)
    (body : Call → Txn Failure AgentDb α) : Txn Failure Streaming α := fun s ↦
  let before := around.others s.transactions s.db
  match body (around.calls s.transactions) before with
  | .ok a after =>
    .ok a
      { db := after, transactions := s.transactions + 1
        appended := s.appended ++
          (after.eventsOf sessionId).drop (before.eventsOf sessionId).length }
  | .error failure _ =>
    .error failure
      { db := before, transactions := s.transactions + 1, appended := s.appended }

/-- `_model`. -/
def getModel (around : Surroundings) (io : ModelIO) : Txn Failure Streaming Unit :=
  if io.model then return ()
  else do
    let _ ← transaction around io.context.sessionId (fun call ↦ lockRun call io.context)
    require io.apiKey (.runtimeError "model unavailable")

/-- `usage`: the counts of tokens are left out. -/
def recordUsage (around : Surroundings) (io : ModelIO) : Txn Failure Streaming Unit := do
  let _ ← transaction around io.context.sessionId (fun call ↦ lockRun call io.context)
  return ()

/-- One delta, persisted, and the index of the next. -/
def persistDelta (around : Surroundings) (io : ModelIO) (chunkIndex : ℤ) (text : String) :
    Txn Failure Streaming ℤ := do
  transaction around io.context.sessionId
    (fun call ↦ appendDelta call io.context text chunkIndex)
  return chunkIndex + 1

/-- `buffer[offset : offset + 4096] for offset in range(0, len(buffer), 4096)`. -/
def slices (buffer : String) : List String := (pieces 4096 buffer.toList).map String.ofList

/-- The variables of the loop over the chunks. -/
structure Received where
  text : String
  buffer : String
  chunkIndex : ℤ
  lastFlush : ℚ
  usageSeen : Bool

/-- The buffer is persisted when it is long enough or was not for a while. -/
def flushIfDue (around : Surroundings) (io : ModelIO) (chunk : ModelChunk) (received : Received) :
    Txn Failure Streaming Received :=
  if 256 ≤ received.buffer.length ∨ 1 / 10 ≤ chunk.checkedAt - received.lastFlush then do
    let chunkIndex ← (slices received.buffer).foldlM (persistDelta around io) received.chunkIndex
    return { received with buffer := "", chunkIndex, lastFlush := chunk.flushedAt }
  else return received

/-- The usage that a chunk reports is recorded. -/
def recordIfReported (around : Surroundings) (io : ModelIO) (chunk : ModelChunk)
    (received : Received) : Txn Failure Streaming Received :=
  if chunk.usage then do
    recordUsage around io
    return { received with usageSeen := true }
  else return received

/-- The body of the loop over the chunks. -/
def takeChunk (around : Surroundings) (io : ModelIO) (received : Received) (chunk : ModelChunk) :
    Txn Failure Streaming Received := do
  let content := contentText chunk.content
  require (received.text.length + content.length ≤ 20000) (.runtimeError "response limit")
  let received ← flushIfDue around io chunk
    { received with text := received.text ++ content, buffer := received.buffer ++ content }
  recordIfReported around io chunk received

/-- What is left in the buffer after the loop is persisted as one more delta. -/
def persistRest (around : Surroundings) (io : ModelIO) (received : Received) :
    Txn Failure Streaming Unit :=
  if received.buffer = "" then return ()
  else do
    let _ ← persistDelta around io received.chunkIndex received.buffer
    return ()

/-- When no chunk reported the usage, that is recorded. -/
def recordUnseen (around : Surroundings) (io : ModelIO) (received : Received) :
    Txn Failure Streaming Unit :=
  if received.usageSeen then return () else recordUsage around io

/-- `stream_response`, on the message with the facts, the reading of the clock before the first
chunk, and the chunks with which the model answers. -/
def streamResponse (around : Surroundings) (io : ModelIO) (system : String) (facts : ModelMessage)
    (startedAt : ℚ) (chunks : List ModelChunk) : Txn Failure Streaming String := do
  getModel around io
  let inputs ← checked (boundedMessages system [facts])
  require (inputs.selected.length = 1) (.runtimeError "context limit")
  let received ← chunks.foldlM (takeChunk around io)
    { text := "", buffer := "", chunkIndex := 0, lastFlush := startedAt, usageSeen := false }
  persistRest around io received
  recordUnseen around io received
  return received.text

/-! ### What the transactions append -/

/-- What an event says: all of it but its number. -/
def SessionEvent.content (event : SessionEvent) : EventKind × Payload × Actor × References :=
  (event.kind, event.payload, event.actor, event.refs)

/-- What the event of a delta says. -/
def deltaContent (context : RunContext) (delta : String × ℕ) :
    EventKind × Payload × Actor × References :=
  (.assistantDelta, [("text", .text delta.1), ("chunk_index", .number delta.2)], .agent,
    { runId := some context.runId })

variable {around : Surroundings} {io : ModelIO} {context : RunContext} {call : Call} {db : AgentDb}
  {s : Streaming}

theorem eventsOf_of_find? {sessionId : Id} {w : Workspace}
    (h : db.workspaces.find? sessionId = some w) : db.eventsOf sessionId = w.events := by
  unfold AgentDb.eventsOf
  rw [h]

/-- A delta that has a text, is not too long and has a place is persisted, as one event, unless the
run is lost. -/
theorem ends_appendDelta {text : String} {index : ℕ} (hne : text ≠ "")
    (hlength : text.length ≤ 4096) : Ends (appendDelta call context text index) db
      (fun _ db' ↦ ∃ event : SessionEvent, event.content = deltaContent context (text, index) ∧
        db'.eventsOf context.sessionId = db.eventsOf context.sessionId ++ [event])
      (fun failure _ ↦ failure = .leaseLost) := by
  unfold appendDelta
  have hvalid : Ends (require (text ≠ "" ∧ text.length ≤ 4096 ∧ (0 : ℤ) ≤ index)
      (.valueError "invalid delta") : Txn Failure AgentDb Unit) db (fun _ db' ↦ db' = db)
      (fun failure _ ↦ failure = .leaseLost) :=
    ends_require (fun _ ↦ rfl) fun hnot ↦ absurd ⟨hne, hlength, Int.natCast_nonneg index⟩ hnot
  refine hvalid.bind ?_
  rintro _ t ht
  rw [ht]
  refine ends_lockRun.bind ?_
  rintro ⟨w, run⟩ t ⟨ht, hw⟩
  rw [ht]
  have hid : w.session.id = context.sessionId := (Table.find?_eq_some_iff _).mp hw |>.2
  have hafter : ∀ w' : Workspace, w'.session.id = w.session.id →
      ({ db with workspaces := db.workspaces.put w' } : AgentDb).eventsOf context.sessionId =
        w'.events := by
    intro w' hw'
    refine eventsOf_of_find? ?_
    rw [Table.find?_put, key_workspace, if_pos (hw'.trans hid)]
  refine ⟨⟨w.session.lastEventSeq + 1, _, _, _, _⟩, rfl, ?_⟩
  rw [eventsOf_of_find? hw]
  exact hafter _ rfl

theorem transaction_of_ok {α : Type} {sessionId : Id} {body : Call → Txn Failure AgentDb α} {a : α}
    {after : AgentDb} (h : body (around.calls s.transactions)
      (around.others s.transactions s.db) = .ok a after) :
    transaction around sessionId body s = .ok a
      ⟨after, s.transactions + 1, s.appended ++ (after.eventsOf sessionId).drop
        ((around.others s.transactions s.db).eventsOf sessionId).length⟩ := by
  unfold transaction
  simp only [h]

theorem transaction_of_error {α : Type} {sessionId : Id} {body : Call → Txn Failure AgentDb α}
    {failure : Failure} {after : AgentDb} (h : body (around.calls s.transactions)
      (around.others s.transactions s.db) = .error failure after) :
    transaction around sessionId body s = .error failure
      ⟨around.others s.transactions s.db, s.transactions + 1, s.appended⟩ := by
  unfold transaction
  simp only [h]

/-- A transaction ends as its body does from whatever the others have left. -/
theorem ends_transaction {α : Type} {sessionId : Id} {body : Call → Txn Failure AgentDb α}
    {returns : α → List SessionEvent → Prop} {raises : Failure → Prop}
    (h : ∀ call db, Ends (body call) db
      (fun a db' ↦ returns a ((db'.eventsOf sessionId).drop (db.eventsOf sessionId).length))
      (fun failure _ ↦ raises failure)) :
    Ends (transaction around sessionId body) s
      (fun a s' ↦ ∃ added, returns a added ∧ s'.appended = s.appended ++ added)
      (fun failure s' ↦ raises failure ∧ s'.appended = s.appended) := by
  have hbody := h (around.calls s.transactions) (around.others s.transactions s.db)
  cases hresult : body (around.calls s.transactions) (around.others s.transactions s.db) with
  | ok a after => exact ends_of_ok (transaction_of_ok hresult) ⟨_, hbody.of_ok hresult, rfl⟩
  | error failure after =>
    exact ends_of_error (transaction_of_error hresult) ⟨hbody.of_error hresult, rfl⟩

/-- A transaction that only locks the run appends nothing. -/
theorem ends_lock : Ends (transaction around io.context.sessionId
      (fun call ↦ lockRun call io.context)) s
    (fun _ s' ↦ s'.appended = s.appended)
    (fun failure s' ↦ failure = .leaseLost ∧ s'.appended = s.appended) := by
  have h : Ends (transaction around io.context.sessionId (fun call ↦ lockRun call io.context)) s
      (fun _ s' ↦ ∃ added, added = [] ∧ s'.appended = s.appended ++ added)
      (fun failure s' ↦ failure = .leaseLost ∧ s'.appended = s.appended) := by
    refine ends_transaction fun call db ↦ ends_lockRun.mono ?_ fun _ _ h ↦ h
    rintro found t ⟨ht, -⟩
    rw [ht]
    exact List.drop_length
  refine h.mono ?_ fun _ _ h ↦ h
  rintro _ s' ⟨added, rfl, happended⟩
  rwa [List.append_nil] at happended

/-! ### The loop over the chunks -/

/-- The transactions have appended deltas with these texts, numbered from zero, and nothing else. -/
structure Persisted (context : RunContext) (texts : List String) (s : Streaming) : Prop where
  appended : s.appended.map SessionEvent.content = texts.zipIdx.map (deltaContent context)
  sized : ∀ text ∈ texts, text ≠ "" ∧ text.length ≤ 4096

/-- A stream that stopped has persisted deltas, and it was not for one that was refused. -/
def Stopped (context : RunContext) (failure : Failure) (s : Streaming) : Prop :=
  failure ≠ .valueError "invalid delta" ∧ ∃ texts, Persisted context texts s

variable {texts : List String} {received : Received} {text : String}

theorem Persisted.of_appended (h : Persisted context texts s) {s' : Streaming}
    (happended : s'.appended = s.appended) : Persisted context texts s' := by
  constructor
  · rw [happended]
    exact h.appended
  · exact h.sized

theorem Persisted.runtimeError (h : Persisted context texts s) (message : String) :
    Stopped context (.runtimeError message) s := by
  refine ⟨fun hne ↦ ?_, texts, h⟩
  cases hne

theorem Persisted.leaseLost (h : Persisted context texts s) : Stopped context .leaseLost s := by
  refine ⟨fun hne ↦ ?_, texts, h⟩
  cases hne

theorem Persisted.ends_lock (h : Persisted io.context texts s) :
    Ends (transaction around io.context.sessionId (fun call ↦ lockRun call io.context)) s
      (fun _ s' ↦ Persisted io.context texts s') (Stopped io.context) := by
  refine FilmOS.Agent.ends_lock.mono (fun _ s' happended ↦ h.of_appended happended) ?_
  rintro failure s' ⟨hlost, happended⟩
  rw [hlost]
  exact (h.of_appended happended).leaseLost

/-- One more delta, numbered after those before it. -/
theorem Persisted.persistDelta (h : Persisted io.context texts s) {text : String} (hne : text ≠ "")
    (hlength : text.length ≤ 4096) : Ends (persistDelta around io texts.length text) s
      (fun next s' ↦ next = ((texts ++ [text]).length : ℕ) ∧
        Persisted io.context (texts ++ [text]) s') (Stopped io.context) := by
  unfold Agent.persistDelta
  have htransaction : Ends (transaction around io.context.sessionId
      (fun call ↦ appendDelta call io.context text texts.length)) s
      (fun _ s' ↦ ∃ added, (∃ event : SessionEvent,
        event.content = deltaContent io.context (text, texts.length) ∧ added = [event]) ∧
          s'.appended = s.appended ++ added)
      (fun failure s' ↦ failure = .leaseLost ∧ s'.appended = s.appended) := by
    refine ends_transaction fun call db ↦ (ends_appendDelta hne hlength).mono ?_ fun _ _ h ↦ h
    rintro _ db' ⟨event, hevent, hevents⟩
    refine ⟨event, hevent, ?_⟩
    rw [hevents, List.drop_left]
  refine (htransaction.mono (fun _ _ h ↦ h) ?_).bind ?_
  · rintro failure s' ⟨hlost, happended⟩
    rw [hlost]
    exact (h.of_appended happended).leaseLost
  · rintro _ s' ⟨_, ⟨event, hevent, rfl⟩, happended⟩
    refine ends_pure ⟨?_, ?_, ?_⟩
    · rw [List.length_append, List.length_singleton, Nat.cast_add, Nat.cast_one]
    · rw [happended, List.map_append, h.appended, List.zipIdx_append, List.map_append,
        List.map_singleton, hevent, Nat.zero_add]
      rfl
    · intro other hother
      rcases List.mem_append.mp hother with hother | hother
      · exact h.sized other hother
      · rw [List.mem_singleton.mp hother]
        exact ⟨hne, hlength⟩

theorem join_slices (buffer : String) : String.join (slices buffer) = buffer := by
  refine String.toList_inj.mp ?_
  have hpieces := flatten_pieces (by decide : 0 < 4096) buffer.toList
  rw [String.toList_join, slices, List.flatMap_map]
  simp only [String.toList_ofList]
  rw [List.flatMap_id']
  exact hpieces

theorem mem_slices {buffer slice : String} (h : slice ∈ slices buffer) :
    slice ≠ "" ∧ slice.length ≤ 4096 := by
  obtain ⟨piece, hpiece, rfl⟩ := List.mem_map.mp h
  obtain ⟨hne, hlength⟩ := mem_pieces hpiece
  constructor
  · intro hempty
    refine hne ?_
    rw [← String.toList_ofList (l := piece), hempty]
    rfl
  · rwa [String.length_ofList]

/-- In the middle of a flush, what was persisted and the slices still to come make up a text. -/
def Flushing (context : RunContext) (text : String) (rest : List String) (next : ℤ)
    (s : Streaming) : Prop :=
  ∃ texts, Persisted context texts s ∧ next = (texts.length : ℕ) ∧
    String.join (texts ++ rest) = text ∧ ∀ slice ∈ rest, slice ≠ "" ∧ slice.length ≤ 4096

theorem flushing_step {text slice : String} {rest : List String} {next : ℤ}
    (h : Flushing io.context text (slice :: rest) next s) :
    Ends (persistDelta around io next slice) s (Flushing io.context text rest)
      (Stopped io.context) := by
  obtain ⟨texts, hpersisted, rfl, hjoin, hsized⟩ := h
  obtain ⟨hne, hlength⟩ := hsized slice List.mem_cons_self
  refine (hpersisted.persistDelta hne hlength).mono ?_ fun _ _ h ↦ h
  rintro next s' ⟨hnext, hmore⟩
  refine ⟨texts ++ [slice], hmore, hnext, ?_, fun other hother ↦
    hsized other (List.mem_cons_of_mem _ hother)⟩
  rw [List.append_assoc, List.singleton_append]
  exact hjoin

/-- A flush persists the buffer after what was persisted before. -/
theorem Persisted.flush (h : Persisted io.context texts s) (buffer : String) :
    Ends ((slices buffer).foldlM (Agent.persistDelta around io) (texts.length : ℤ)) s
      (fun next s' ↦ ∃ texts', Persisted io.context texts' s' ∧ next = (texts'.length : ℕ) ∧
        String.join texts' = String.join texts ++ buffer) (Stopped io.context) := by
  have hstart : Flushing io.context (String.join texts ++ buffer) (slices buffer)
    texts.length s := by
    refine ⟨texts, h, rfl, ?_, fun slice hslice ↦ mem_slices hslice⟩
    rw [String.join_append, join_slices]
  refine (ends_foldlM (Flushing io.context _) (fun _ _ _ _ hstep ↦ flushing_step hstep)
    hstart).mono ?_ fun _ _ h ↦ h
  rintro next s' ⟨texts', hpersisted, hnext, hjoin, -⟩
  rw [List.append_nil] at hjoin
  exact ⟨texts', hpersisted, hnext, hjoin⟩

/-- Between two chunks, the deltas persisted and the buffer, which is short, make up the text of the
chunks so far. -/
def Streamed (context : RunContext) (text : String) (received : Received) (s : Streaming) : Prop :=
  ∃ texts, Persisted context texts s ∧ received.chunkIndex = (texts.length : ℕ) ∧
    String.join texts ++ received.buffer = text ∧ received.text = text ∧
      received.buffer.length < 256

theorem empty_short : "".length < 256 := by decide

/-- Whenever the buffer is flushed, and whether or not it is. -/
theorem ends_flushIfDue {chunk : ModelChunk} (h : Persisted io.context texts s)
    (hindex : received.chunkIndex = (texts.length : ℕ))
    (htext : String.join texts ++ received.buffer = text) (hreceived : received.text = text) :
    Ends (flushIfDue around io chunk received) s (Streamed io.context text)
      (Stopped io.context) := by
  unfold flushIfDue
  by_cases hdue : 256 ≤ received.buffer.length ∨
      1 / 10 ≤ chunk.checkedAt - received.lastFlush
  · rw [if_pos hdue, hindex]
    refine (h.flush received.buffer).bind ?_
    rintro next s' ⟨texts', hpersisted, hnext, hjoin⟩
    refine ends_pure ⟨texts', hpersisted, hnext, ?_, hreceived, empty_short⟩
    rw [hjoin, htext, String.append_empty]
  · rw [if_neg hdue]
    exact ends_pure ⟨texts, h, hindex, htext, hreceived,
      not_le.mp fun hlong ↦ hdue (Or.inl hlong)⟩

theorem ends_recordUsage (h : Persisted io.context texts s) :
    Ends (recordUsage around io) s (fun _ s' ↦ Persisted io.context texts s')
      (Stopped io.context) := by
  unfold recordUsage
  exact h.ends_lock.bind fun _ _ h' ↦ ends_pure h'

theorem ends_recordIfReported {chunk : ModelChunk} (h : Streamed io.context text received s) :
    Ends (recordIfReported around io chunk received) s (Streamed io.context text)
      (Stopped io.context) := by
  unfold recordIfReported
  obtain ⟨texts, hpersisted, hrest⟩ := h
  by_cases husage : chunk.usage
  · rw [if_pos husage]
    exact (ends_recordUsage hpersisted).bind fun _ _ h' ↦ ends_pure ⟨texts, h', hrest⟩
  · rw [if_neg husage]
    exact ends_pure ⟨texts, hpersisted, hrest⟩

/-- A chunk is added to the text and to the buffer, and the buffer is flushed when it is due. -/
theorem ends_takeChunk {chunk : ModelChunk} (h : Streamed io.context text received s) :
    Ends (takeChunk around io received chunk) s
      (Streamed io.context (text ++ contentText chunk.content)) (Stopped io.context) := by
  obtain ⟨texts, hpersisted, hindex, htext, hreceived, -⟩ := h
  unfold takeChunk
  have hlimit : Ends (require (received.text.length + (contentText chunk.content).length ≤ 20000)
      (.runtimeError "response limit") : Txn Failure Streaming Unit) s (fun _ s' ↦ s' = s)
      (Stopped io.context) :=
    ends_require (fun _ ↦ rfl) fun _ ↦ hpersisted.runtimeError _
  refine hlimit.bind ?_
  rintro _ s' hs'
  rw [hs']
  refine Ends.bind (ends_flushIfDue hpersisted hindex ?_ ?_) fun _ _ h' ↦ ends_recordIfReported h'
  · change String.join texts ++ (received.buffer ++ contentText chunk.content) = _
    rw [← String.append_assoc, htext]
  · change received.text ++ contentText chunk.content = _
    rw [hreceived]

/-! ### The stream -/

/-- The text of some chunks. -/
def chunksText (chunks : List ModelChunk) : String :=
  String.join (chunks.map (contentText ·.content))

theorem chunksText_cons (chunk : ModelChunk) (chunks : List ModelChunk) :
    chunksText (chunk :: chunks) = contentText chunk.content ++ chunksText chunks := by
  unfold chunksText
  rw [List.map_cons, String.join_cons]

theorem ends_getModel (h : Persisted io.context texts s) :
    Ends (getModel around io) s (fun _ s' ↦ Persisted io.context texts s')
      (Stopped io.context) := by
  unfold getModel
  by_cases hmodel : io.model
  · rw [if_pos hmodel]
    exact ends_pure h
  · rw [if_neg hmodel]
    exact h.ends_lock.bind fun _ s' h' ↦ ends_require (fun _ ↦ h') fun _ ↦ h'.runtimeError _

/-- The rest of the buffer is persisted, so that the deltas make up the text. -/
theorem ends_persistRest (h : Persisted io.context texts s)
    (hindex : received.chunkIndex = (texts.length : ℕ))
    (htext : String.join texts ++ received.buffer = received.text)
    (hshort : received.buffer.length < 256) : Ends (persistRest around io received) s
      (fun _ s' ↦ ∃ texts', Persisted io.context texts' s' ∧ String.join texts' = received.text)
      (Stopped io.context) := by
  unfold persistRest
  by_cases hbuffer : received.buffer = ""
  · rw [if_pos hbuffer]
    rw [hbuffer, String.append_empty] at htext
    exact ends_pure ⟨texts, h, htext⟩
  · rw [if_neg hbuffer, hindex]
    refine (h.persistDelta hbuffer (by omega)).bind ?_
    rintro next s' ⟨-, hpersisted⟩
    refine ends_pure ⟨_, hpersisted, ?_⟩
    rw [String.join_append, ← htext, String.join_cons, String.join_nil, String.append_empty]

theorem ends_recordUnseen (received : Received) (h : Persisted io.context texts s) :
    Ends (recordUnseen around io received) s (fun _ s' ↦ Persisted io.context texts s')
      (Stopped io.context) := by
  unfold recordUnseen
  by_cases husage : received.usageSeen
  · rw [if_pos husage]
    exact ends_pure h
  · rw [if_neg husage]
    exact ends_recordUsage h

/-- For every answer of the model and every reading of the clock, a stream that returns has appended
to the log deltas numbered from zero without gaps, none empty or too long, which put together are
the text it returns, and that is the text of all chunks; and a stream that fails does not fail
because a delta was refused. -/
theorem streamResponse_persists (around : Surroundings) (io : ModelIO) (system : String)
    (facts : ModelMessage) (startedAt : ℚ) (chunks : List ModelChunk) (db : AgentDb) :
    Ends (streamResponse around io system facts startedAt chunks) (Streaming.start db)
      (fun text s' ↦ (∃ texts, Persisted io.context texts s' ∧ String.join texts = text) ∧
        text = chunksText chunks)
      (Stopped io.context) := by
  have hempty : Persisted io.context [] (Streaming.start db) := ⟨rfl, fun text h ↦ by cases h⟩
  unfold streamResponse
  refine (ends_getModel hempty).bind fun _ s₁ h₁ ↦ ?_
  have hinputs : Ends (checked (boundedMessages system [facts]) : Txn Failure Streaming ModelInput)
      s₁ (fun _ s' ↦ s' = s₁) (Stopped io.context) := by
    refine ends_checked (fun _ _ ↦ rfl) fun failure hfailure ↦ ⟨fun hne ↦ ?_, [], h₁⟩
    rw [hne] at hfailure
    exact boundedMessages_ne_valueError hfailure
  refine hinputs.bind ?_
  rintro inputs s₂ hs₂
  rw [hs₂]
  have hone : Ends (require (inputs.selected.length = 1) (.runtimeError "context limit") :
      Txn Failure Streaming Unit) s₁ (fun _ s' ↦ s' = s₁) (Stopped io.context) :=
    ends_require (fun _ ↦ rfl) fun _ ↦ h₁.runtimeError _
  refine hone.bind ?_
  rintro _ s₃ hs₃
  rw [hs₃]
  have hloop : Ends (chunks.foldlM (takeChunk around io) ⟨"", "", 0, startedAt, false⟩) s₁
      (fun received s' ↦ ∃ text, Streamed io.context text received s' ∧
        text ++ chunksText [] = chunksText chunks) (Stopped io.context) := by
    refine ends_foldlM (fun rest received s' ↦ ∃ text, Streamed io.context text received s' ∧
      text ++ chunksText rest = chunksText chunks) ?_ ⟨"", ⟨[], h₁, rfl, rfl, rfl, empty_short⟩, ?_⟩
    · rintro chunk rest received s' ⟨text, hstreamed, hrest⟩
      refine (ends_takeChunk hstreamed).mono (fun _ _ h ↦ ⟨_, h, ?_⟩) fun _ _ h ↦ h
      rw [String.append_assoc, ← chunksText_cons, hrest]
    · exact String.empty_append
  refine hloop.bind ?_
  rintro received s₄ ⟨text, ⟨texts, hpersisted, hindex, htext, hreceived, hshort⟩, hall⟩
  have hanswer : received.text = chunksText chunks := by
    rw [hreceived, ← hall]
    exact String.append_empty.symm
  refine (ends_persistRest hpersisted hindex (htext.trans hreceived.symm) hshort).bind ?_
  rintro _ s₅ ⟨texts', hpersisted', hjoin⟩
  refine (ends_recordUnseen received hpersisted').bind fun _ s₆ h₆ ↦ ?_
  exact ends_pure ⟨⟨texts', h₆, hjoin⟩, hanswer⟩

end FilmOS.Agent
