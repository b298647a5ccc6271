import FilmOS.Agent.System
import FilmOS.Library.Paging

/-!
# Readers of the event log

A client follows the events of a session page by page: every page begins behind the cursor, and
gives the next one. The connection may break while a page arrives, and then the client comes back
with the number of the last event that it received. Meanwhile the services go on.

Nothing is ever inserted into the log before its end (`Changes.events`), and its events are numbered
without gaps. So a client has received, at any time, the first events behind the number it began
with, each of them once and in order (`Follower.Reads`), and enough pages bring all of them
(`events_read_once`).
-/

set_option autoImplicit false
set_option relaxedAutoImplicit false

namespace FilmOS.Agent

open Transaction AgentDb Paging

/-! ### Pages of the log -/

structure EventPage where
  events : List SessionEvent
  cursor : ℕ

/-- `events_after`. -/
def eventsAfter (sessionId userId : Id) (after limit : ℕ) : Txn Failure AgentDb EventPage := do
  let w ← requireSession sessionId userId false
  let events :=
    (orderBy SessionEvent.seq (w.events.filter (fun event ↦ after < event.seq))).take limit
  return ⟨events, (events.getLast?.map SessionEvent.seq).getD after⟩

/-- `events`: where a connection begins that names the last event received. -/
def resumeAfter (after : ℕ) : Option ℕ → ℕ
  | none => after
  | some lastEventId => max after lastEventId

/-! ### Following a session -/

/-- What a client asks for: the events of a session behind a number. -/
structure Subscription where
  sessionId : Id
  userId : Id
  after : ℕ

/-- Where a client is. -/
structure Reader where
  cursor : ℕ
  received : List SessionEvent

namespace Reader

variable (subscription : Subscription)

/-- The number of the last event received. -/
def lastEventId (reader : Reader) : Option ℕ := reader.received.getLast?.map SessionEvent.seq

/-- The connection is made again. -/
def reconnect (reader : Reader) : Reader :=
  { reader with cursor := resumeAfter subscription.after reader.lastEventId }

/-- A page arrives as far as it is delivered. When an event is missing, the connection was lost. -/
def receive (page : EventPage) (delivered : ℕ) (reader : Reader) : Reader :=
  if page.events.length ≤ delivered then
    ⟨page.cursor, reader.received ++ page.events⟩
  else
    { reader with received := reader.received ++ page.events.take delivered }.reconnect subscription

end Reader

/-- The services and one client. -/
structure Follower where
  db : AgentDb
  reader : Reader

/-- What happens next: a call of a service, a page for the client, or a new connection. -/
inductive FollowerInput
  | call (input : AgentInput)
  | read (limit delivered : ℕ)
  | reconnect

namespace Follower

variable (subscription : Subscription)

/-- One step of `stream_events`: without access to the session the stream ends. -/
def read (limit delivered : ℕ) (f : Follower) : Follower :=
  match eventsAfter subscription.sessionId subscription.userId f.reader.cursor limit f.db with
  | .ok page _ => { f with reader := f.reader.receive subscription page delivered }
  | .error _ _ => f

def step (f : Follower) : FollowerInput → Follower
  | .call input => { f with db := Agent.step f.db input }
  | .read limit delivered => f.read subscription limit delivered
  | .reconnect => { f with reader := f.reader.reconnect subscription }

/-- The client has received nothing yet. -/
def start (board : Board) : Follower := ⟨.start board, subscription.after, []⟩

end Follower

/-- What the services and a client reach together. -/
def follow (board : Board) (subscription : Subscription) (inputs : List FollowerInput) : Follower :=
  System.run (Follower.step subscription) (.start subscription board) inputs

/-- An event without the reference to its work item, which goes when the screenshot of the item is
deleted. -/
def SessionEvent.withoutItem (event : SessionEvent) : SessionEvent :=
  { event with refs := { event.refs with workItemId := none } }

variable {permit : Permit} {fresh : Id → Prop} {w w' : Workspace} {db db' : AgentDb}

/-! ### The log while it grows -/

/-- A change leaves the events there and appends at most. -/
theorem Workspace.Change.events (h : Change permit fresh w w') :
    w.events.map SessionEvent.withoutItem <+: w'.events.map SessionEvent.withoutItem := by
  cases h with
  | append actor call kind payload refs hmessage =>
    show _ <+: (w.events ++ [_]).map _
    rw [List.map_append]
    exact List.prefix_append _ _
  | post message actor call kind payload refs hfresh =>
    show _ <+: (w.events ++ [_]).map _
    rw [List.map_append]
    exact List.prefix_append _ _
  | removeScreenshot attachmentId =>
    show _ <+: (w.events.map _).map _
    rw [List.map_map]
    exact List.prefix_rfl
  | _ => exact List.prefix_rfl

theorem Workspace.Changes.events (h : Changes permit fresh w w') :
    w.events.map SessionEvent.withoutItem <+: w'.events.map SessionEvent.withoutItem := by
  induction h with
  | refl => exact List.prefix_rfl
  | tail _ hchange ih => exact ih.trans hchange.events

theorem Workspace.Logged.length_events (h : w.Logged) :
    w.events.length = w.session.lastEventSeq := by
  have hlength := congrArg List.length h.seqs
  rwa [List.length_map, List.length_range'] at hlength

theorem Workspace.Logged.consecutive (h : w.Logged) :
    Consecutive SessionEvent.seq 0 w.events := by
  unfold Consecutive
  rw [h.length_events]
  exact h.seqs

/-- A page is the log behind the cursor, up to the limit. -/
theorem eventsAfter_eq_ok (hsound : db.Sound) {sessionId userId : Id} {after limit : ℕ}
    {page : EventPage} :
    eventsAfter sessionId userId after limit db = .ok page db' ↔
      ∃ w ∈ db.workspaces.rows, w.session.id = sessionId ∧ w.session.userId = userId ∧
        w.session.status ≠ .deleting ∧ page.events = (w.events.drop after).take limit ∧
        page.cursor = (page.events.getLast?.map SessionEvent.seq).getD after ∧ db = db' := by
  have hpage : ∀ w ∈ db.workspaces.rows,
      (orderBy SessionEvent.seq (w.events.filter (fun event ↦ after < event.seq))).take limit =
        (w.events.drop after).take limit := by
    intro w hw
    have hlog := (hsound.workspace w hw).logged.consecutive
    rw [hlog.filter_after, orderBy_eq_of_pairwise_lt (List.Perm.refl _) (hlog.drop after).pairwise]
  unfold eventsAfter
  simp only [bind_eq_ok, requireSession_eq_ok, pure_eq_ok]
  constructor
  · rintro ⟨w, _, ⟨⟨hw, hid⟩, huser, hdeleting, -, rfl⟩, rfl, rfl⟩
    exact ⟨w, hw, hid, huser, hdeleting, hpage w hw, rfl, rfl⟩
  · rintro ⟨w, hw, hid, huser, hdeleting, hevents, hcursor, rfl⟩
    have hsession : (w ∈ db.workspaces.rows ∧ w.session.id = sessionId) ∧
        w.session.userId = userId ∧ w.session.status ≠ .deleting ∧
        (false = true → w.session.status = .active) ∧ db = db :=
      ⟨⟨hw, hid⟩, huser, hdeleting, fun h ↦ absurd h Bool.false_ne_true, rfl⟩
    refine ⟨w, db, hsession, ?_, rfl⟩
    rw [hpage w hw, ← hevents, ← hcursor]

/-! ### What a reader has received -/

namespace Follower

variable {subscription : Subscription} {f : Follower}

/-- The events received are the first ones behind the number that the client began with. -/
structure Reads (subscription : Subscription) (f : Follower) : Prop where
  sound : f.db.Sound
  cursor : f.reader.cursor = subscription.after + f.reader.received.length
  seqs : Consecutive SessionEvent.seq subscription.after f.reader.received
  fresh : subscription.sessionId ∉ f.db.board.issued → f.reader.received = []
  log : ∀ w ∈ f.db.workspaces.rows, w.session.id = subscription.sessionId →
    f.reader.received.map SessionEvent.withoutItem <+:
      (w.events.drop subscription.after).map SessionEvent.withoutItem

theorem Reads.start (board : Board) (subscription : Subscription) :
    (start subscription board).Reads subscription where
  sound := .start board
  cursor := rfl
  seqs := .nil _ _
  fresh _ := rfl
  log _ _ _ := List.nil_prefix

theorem resumeAfter_eq {after count : ℕ} {last : Option ℕ}
    (h : last.getD after = after + count) : resumeAfter after last = after + count := by
  cases last with
  | none => exact h
  | some lastEventId =>
    rw [Option.getD_some] at h
    show max after lastEventId = _
    omega

/-- The next events of a page that begins at the cursor: as many of them as arrive. -/
theorem Reads.receive (h : f.Reads subscription) {w : Workspace} (hw : w ∈ f.db.workspaces.rows)
    {page : EventPage} {limit : ℕ}
    (hevents : page.events = (w.events.drop f.reader.cursor).take limit)
    (hcursor : page.cursor = (page.events.getLast?.map SessionEvent.seq).getD f.reader.cursor)
    (delivered : ℕ) :
    f.reader.receive subscription page delivered =
        ⟨f.reader.cursor + (page.events.take delivered).length,
          f.reader.received ++ page.events.take delivered⟩ ∧
      Consecutive SessionEvent.seq subscription.after
        (f.reader.received ++ page.events.take delivered) := by
  have hpage : Consecutive SessionEvent.seq f.reader.cursor page.events := by
    have hlog := ((h.sound.workspace w hw).logged.consecutive.drop f.reader.cursor).take limit
    rwa [Nat.zero_add, ← hevents] at hlog
  have hreceived : Consecutive SessionEvent.seq subscription.after
      (f.reader.received ++ page.events.take delivered) :=
    h.seqs.append (h.cursor ▸ hpage.take delivered)
  refine ⟨?_, hreceived⟩
  unfold Reader.receive
  by_cases hall : page.events.length ≤ delivered
  · rw [if_pos hall, List.take_of_length_le hall, hcursor, hpage.last]
  · have hresume := resumeAfter_eq hreceived.last
    rw [List.length_append, ← Nat.add_assoc, ← h.cursor] at hresume
    rw [if_neg hall]
    unfold Reader.reconnect Reader.lastEventId
    rw [hresume]

/-- A client that connects again goes on where it was. -/
theorem Reads.reconnect_eq (h : f.Reads subscription) :
    f.reader.reconnect subscription = f.reader := by
  have hcursor : resumeAfter subscription.after f.reader.lastEventId = f.reader.cursor := by
    rw [h.cursor]
    exact resumeAfter_eq h.seqs.last
  unfold Reader.reconnect
  rw [hcursor]

/-- The beginning of a log, and the next page of it. -/
theorem append_page {events log : List SessionEvent} (count : ℕ)
    (h : events.map SessionEvent.withoutItem <+: log.map SessionEvent.withoutItem) :
    (events ++ (log.drop events.length).take count).map SessionEvent.withoutItem <+:
      log.map SessionEvent.withoutItem := by
  have hevents : events.map SessionEvent.withoutItem =
      (log.take events.length).map SessionEvent.withoutItem := by
    have htake := List.prefix_iff_eq_take.mp h
    rwa [List.length_map, ← List.map_take] at htake
  rw [List.map_append, hevents, ← List.map_append, ← List.take_add]
  exact (List.take_prefix _ log).map _

/-- The client is the user of the session, which is not being deleted. -/
def Readable (subscription : Subscription) (w : Workspace) : Prop :=
  w.session.id = subscription.sessionId ∧ w.session.userId = subscription.userId ∧
    w.session.status ≠ .deleting

/-- A read of a session brings the next events. -/
theorem Reads.read_eq (h : f.Reads subscription) {w : Workspace} (hw : w ∈ f.db.workspaces.rows)
    (hreadable : Readable subscription w) (limit delivered : ℕ) :
    ∃ events,
      events = ((w.events.drop subscription.after).drop f.reader.received.length).take
        (min delivered limit) ∧
      Consecutive SessionEvent.seq subscription.after (f.reader.received ++ events) ∧
      f.read subscription limit delivered =
        { f with
          reader := ⟨f.reader.cursor + events.length, f.reader.received ++ events⟩ } := by
  obtain ⟨hid, huser, hdeleting⟩ := hreadable
  let page : EventPage :=
    ⟨(w.events.drop f.reader.cursor).take limit,
      (((w.events.drop f.reader.cursor).take limit).getLast?.map SessionEvent.seq).getD
        f.reader.cursor⟩
  have hpage : eventsAfter subscription.sessionId subscription.userId f.reader.cursor limit f.db =
      .ok page f.db :=
    (eventsAfter_eq_ok h.sound).mpr ⟨w, hw, hid, huser, hdeleting, rfl, rfl, rfl⟩
  have hevents : page.events = (w.events.drop f.reader.cursor).take limit := rfl
  obtain ⟨hreceive, hseqs⟩ := h.receive hw hevents rfl delivered
  refine ⟨page.events.take delivered, ?_, hseqs, ?_⟩
  · rw [List.take_take, List.drop_drop, ← h.cursor]
  · unfold Follower.read
    rw [hpage]
    show ({ f with reader := f.reader.receive subscription page delivered } : Follower) = _
    rw [hreceive]

/-- Without a session to read, nothing is read. -/
theorem Reads.read_cases (h : f.Reads subscription) (limit delivered : ℕ) :
    f.read subscription limit delivered = f ∨
      ∃ w ∈ f.db.workspaces.rows, Readable subscription w := by
  unfold Follower.read
  cases hpage : eventsAfter subscription.sessionId subscription.userId f.reader.cursor limit
    f.db with
  | error => exact Or.inl rfl
  | ok page db' =>
    obtain ⟨w, hw, hid, huser, hdeleting, -⟩ := (eventsAfter_eq_ok h.sound).mp hpage
    exact Or.inr ⟨w, hw, hid, huser, hdeleting⟩

theorem Reads.read (h : f.Reads subscription) (limit delivered : ℕ) :
    (f.read subscription limit delivered).Reads subscription := by
  rcases h.read_cases limit delivered with hsame | ⟨w, hw, hreadable⟩
  · rw [hsame]
    exact h
  · obtain ⟨events, hevents, hseqs, hread⟩ := h.read_eq hw hreadable limit delivered
    rw [hread]
    refine ⟨h.sound, ?_, hseqs, ?_, ?_⟩
    · show f.reader.cursor + events.length =
        subscription.after + (f.reader.received ++ events).length
      rw [h.cursor, List.length_append, Nat.add_assoc]
    · intro hfresh
      exact absurd (hreadable.1 ▸ h.sound.session_issued w hw) hfresh
    · intro w' hw' hid'
      obtain rfl := AgentDb.workspace_eq hw hw' (hreadable.1.trans hid'.symm)
      show (f.reader.received ++ events).map _ <+: _
      rw [hevents]
      exact append_page _ (h.log w hw hid')

/-- The services append to the log of the session, or create it before anything was received. -/
theorem Reads.call (h : f.Reads subscription) (input : AgentInput) :
    (f.step subscription (.call input)).Reads subscription := by
  have hprogress := progress_step h.sound input
  refine ⟨h.sound.step input, h.cursor, h.seqs, fun hfresh ↦ h.fresh fun hissued ↦ ?_, ?_⟩
  · exact hfresh (hprogress.issued hissued)
  · intro w' hw' hid
    rcases hprogress.evolves w' hw' with ⟨w, hw, hevolves⟩ | ⟨session, hnew, -, hevolves⟩
    · have hold := h.log w hw (hevolves.session_id.symm.trans hid)
      rw [List.map_drop] at hold ⊢
      exact hold.trans (hevolves.changes.events.drop _)
    · have hsession : session.id = subscription.sessionId := hevolves.session_id.symm.trans hid
      have hnone : f.reader.received = [] := h.fresh (hsession ▸ hnew.1)
      show f.reader.received.map _ <+: _
      rw [hnone]
      exact List.nil_prefix

theorem Reads.step (h : f.Reads subscription) (input : FollowerInput) :
    (f.step subscription input).Reads subscription := by
  cases input with
  | call input => exact h.call input
  | read limit delivered => exact h.read limit delivered
  | reconnect =>
    show ({ f with reader := f.reader.reconnect subscription } : Follower).Reads subscription
    rw [h.reconnect_eq]
    exact h

/-! ### Catching up -/

/-- After enough pages, which arrive whole, the client has received all events. -/
theorem Reads.catch_up (h : f.Reads subscription) {w : Workspace} (hw : w ∈ f.db.workspaces.rows)
    (hreadable : Readable subscription w) {limit : ℕ} (hlimit : 0 < limit) (count : ℕ) :
    (System.run (Follower.step subscription) f
        (List.replicate count (.read limit limit))).db = f.db ∧
      min (w.events.drop subscription.after).length (f.reader.received.length + count) ≤
        (System.run (Follower.step subscription) f
          (List.replicate count (.read limit limit))).reader.received.length := by
  induction count generalizing f with
  | zero => exact ⟨rfl, Nat.min_le_right _ _⟩
  | succ count ih =>
    obtain ⟨events, hevents, -, hread⟩ := h.read_eq hw hreadable limit limit
    have hnext : (f.read subscription limit limit).Reads subscription := h.read limit limit
    have hdb : (f.read subscription limit limit).db = f.db := by
      rw [hread]
    have hlength : (f.read subscription limit limit).reader.received.length =
        f.reader.received.length + events.length := by
      rw [hread]
      exact List.length_append
    obtain ⟨hsame, hle⟩ := ih hnext (hdb ▸ hw)
    rw [List.replicate_succ, System.run_cons]
    refine ⟨hsame.trans hdb, le_trans ?_ hle⟩
    have hevents_length := congrArg List.length hevents
    rw [List.length_take, List.length_drop, Nat.min_self] at hevents_length
    rw [hlength, hevents_length]
    omega

end Follower

theorem reads_follow (board : Board) (subscription : Subscription) (inputs : List FollowerInput) :
    (follow board subscription inputs).Reads subscription :=
  System.invariant_run_all (fun _ input h ↦ h.step input) inputs _ (.start board subscription)

/-- In every state that the services and a client reach, the events of every session are numbered
from one on and carry its messages; the client has received events without gaps behind the number
that it began with, and they are the first ones there in the log of its session; and pages that
arrive whole bring all of them. -/
theorem events_read_once (board : Board) (subscription : Subscription)
    (inputs : List FollowerInput) :
    (∀ w ∈ (follow board subscription inputs).db.workspaces.rows, w.Logged) ∧
    Consecutive SessionEvent.seq subscription.after
      (follow board subscription inputs).reader.received ∧
    ∀ w ∈ (follow board subscription inputs).db.workspaces.rows,
      w.session.id = subscription.sessionId →
        (follow board subscription inputs).reader.received.map SessionEvent.withoutItem <+:
          (w.events.filter (fun event ↦ subscription.after < event.seq)).map
            SessionEvent.withoutItem ∧
        (w.session.userId = subscription.userId → w.session.status ≠ .deleting →
          ∀ limit count, 0 < limit → w.session.lastEventSeq ≤ count →
            (follow board subscription
              (inputs ++ List.replicate count (.read limit limit))).reader.received.map
                SessionEvent.withoutItem =
              (w.events.filter (fun event ↦ subscription.after < event.seq)).map
                SessionEvent.withoutItem) := by
  have hreads := reads_follow board subscription inputs
  refine ⟨fun w hw ↦ (hreads.sound.workspace w hw).logged, hreads.seqs, fun w hw hid ↦ ?_⟩
  have hlogged := (hreads.sound.workspace w hw).logged
  rw [hlogged.consecutive.filter_after]
  refine ⟨hreads.log w hw hid, fun huser hdeleting limit count hlimit hcount ↦ ?_⟩
  have hlater :=
    reads_follow board subscription (inputs ++ List.replicate count (.read limit limit))
  have hsplit : follow board subscription (inputs ++ List.replicate count (.read limit limit)) =
      System.run (Follower.step subscription) (follow board subscription inputs)
        (List.replicate count (.read limit limit)) := System.run_append _ _ _ _
  rw [hsplit] at hlater ⊢
  obtain ⟨hdb, hle⟩ := hreads.catch_up hw ⟨hid, huser, hdeleting⟩ hlimit count
  refine (hlater.log w (hdb ▸ hw) hid).eq_of_length_le ?_
  rw [List.length_map, List.length_map]
  refine le_trans (le_min le_rfl ?_) hle
  rw [List.length_drop, hlogged.length_events]
  omega

end FilmOS.Agent
