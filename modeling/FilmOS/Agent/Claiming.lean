import FilmOS.Agent.Continuation

/-!
# Claims of a queued run

A worker locks the session that was updated first among those with a queued run, and takes the run.
Which sessions have one, and in which order they were updated, is read off the snapshot of the
statement (`queuedSessions` of the state that it shows), and the session is locked later: another
worker may have taken its run by then, and the statement that reads the run finds none and raises
(`claim_misses_run`). `expire_runs`, which locks its sessions in the same way, goes on with the next
one.

`Claimable` is the condition on the state under which a claim returns: the session that is locked
still has a queued run, and if that has waited too long, it can be failed. In every state that is
reached a claim returns exactly then, and what it returns is a run that it leased
(`claim_answers_iff`).
-/

set_option autoImplicit false
set_option relaxedAutoImplicit false

namespace FilmOS.Agent

open Transaction AgentDb

variable {call : Call} {later : Time} {db db' : AgentDb} {workerId : String}
  {candidates skipped : List Id}

/-- The active sessions with a queued run, the one that was updated first at the head: the rows of
the statement of `claim` on the snapshot that shows the given state. -/
def queuedSessions (db : AgentDb) : List Id :=
  (orderBy (fun w : Workspace ↦ toLex (w.session.updatedAt, w.session.id))
    (db.workspaces.rows.filter (fun w ↦
      w.session.status = .active ∧ w.runs.rows.any (·.status = .queued)))).map (·.session.id)

/-- A claim returns, and a context that it returns is of a run that was queued and is leased now. -/
def ClaimAnswers (call : Call) (later : Time) (workerId : String) (candidates skipped : List Id)
    (db : AgentDb) : Prop :=
  ∃ claimed db', claim call later workerId candidates skipped db = .ok claimed db' ∧
    ∀ context ∈ claimed,
      (∃ run, db.HasRun run ∧ run.id = context.runId ∧ run.status = .queued) ∧
      ∃ run', db'.HasRun run' ∧ run'.id = context.runId ∧ run'.status = .running ∧
        run'.leaseToken = some context.leaseToken

/-- The session that is locked has a queued run, and nothing is in the way of the end of the run if
it has waited too long. -/
def Claimable (now : Time) (candidates skipped : List Id) (db : AgentDb) : Prop :=
  ∀ w, claimable db candidates skipped = some w → ∃ run ∈ w.runs.rows, run.status = .queued ∧
    (run.queuedAt + seconds run.config.queueTimeoutSeconds ≤ now → ¬ db.FollowUpTaken w run)

/-- A claim that returns has leased the run that it returns. -/
theorem claimAnswers_iff_returns :
    ClaimAnswers call later workerId candidates skipped db ↔
      ∃ claimed db', claim call later workerId candidates skipped db = .ok claimed db' := by
  constructor
  · rintro ⟨claimed, db', hclaim, -⟩
    exact ⟨claimed, db', hclaim⟩
  · rintro ⟨claimed, db', hclaim⟩
    refine ⟨claimed, db', hclaim, fun context hcontext ↦ ?_⟩
    have hsome : claimed = some context := hcontext
    rw [hsome] at hclaim
    exact claim_some hclaim

/-- The queued run of a session is the only one. -/
theorem find_queued_iff (hsound : db.Sound) {w : Workspace} (hw : w ∈ db.workspaces.rows)
    {run : AgentRun} :
    w.runs.rows.find? (·.status = .queued) = some run ↔
      run ∈ w.runs.rows ∧ run.status = .queued := by
  constructor
  · intro hfind
    exact ⟨List.mem_of_find?_eq_some hfind, by simpa using List.find?_some hfind⟩
  · rintro ⟨hrun, hqueued⟩
    cases hfind : w.runs.rows.find? (·.status = .queued) with
    | none =>
      have hnone := List.find?_eq_none.mp hfind run hrun
      exact absurd (decide_eq_true hqueued) hnone
    | some found =>
      have hfound : found.status = .queued := by simpa using List.find?_some hfind
      exact congrArg some ((hsound.workspace w hw).runsSound.one_open found
        (List.mem_of_find?_eq_some hfind) run hrun (Or.inl hfound) (Or.inl hqueued))

/-- A claim returns exactly when the session that it locks can be served. -/
theorem claim_returns_iff (hsound : db.Sound) :
    (∃ claimed db', claim call later workerId candidates skipped db = .ok claimed db') ↔
      Claimable call.now candidates skipped db := by
  unfold claim Claimable
  simp only [get_bind_eq_ok]
  cases hclaimable : claimable db candidates skipped with
  | none =>
    simp only [pure_eq_ok]
    exact iff_of_true ⟨none, db, rfl, rfl⟩ fun w h ↦ by cases h
  | some w =>
    obtain ⟨hw, hactive, -⟩ := mem_claimable hclaimable
    have hfind : ∀ run, w.runs.rows.find? (·.status = .queued) = some run ↔
        run ∈ w.runs.rows ∧ run.status = .queued := fun _ ↦ find_queued_iff hsound hw
    constructor
    · rintro ⟨claimed, db', h⟩ w' hw'
      obtain rfl := Option.some.inj hw'
      obtain ⟨run, hrun, h⟩ := orRaise_bind_eq_ok.mp h
      obtain ⟨hmem, hqueued⟩ := (hfind run).mp hrun
      refine ⟨run, hmem, hqueued, fun hlate ↦ ?_⟩
      rw [if_pos hlate] at h
      obtain ⟨v, db₁, hfail, -⟩ := bind_eq_ok.mp h
      exact (failLocked_returns_iff call later hsound hw hmem (Or.inl hqueued) hactive _ _).mp
        ⟨v, db₁, hfail⟩
    · intro h
      obtain ⟨run, hmem, hqueued, htaken⟩ := h w rfl
      rw [returns_orRaise_bind ((hfind run).mpr ⟨hmem, hqueued⟩)]
      by_cases hlate : run.queuedAt + seconds run.config.queueTimeoutSeconds ≤ call.now
      · obtain ⟨v, db₁, hfail⟩ := (failLocked_returns_iff call later hsound hw hmem
          (Or.inl hqueued) hactive "QUEUE_TIMEOUT" "等待执行超时，请重试").mpr (htaken hlate)
        rw [if_pos hlate]
        exact ⟨none, _, bind_eq_ok.mpr ⟨v, db₁, hfail, bind_eq_ok.mpr ⟨(), _, rfl, rfl⟩⟩⟩
      · rw [if_neg hlate]
        exact ⟨_, _, rfl⟩

/-- In every state that a run of the system reaches, a claim returns, with a run that it leased or
with none, exactly when the session that it locks still has a queued run, which can be failed if it
has waited too long. -/
theorem claim_answers_iff (board : Board) (inputs : List AgentInput) (call : Call) (later : Time)
    (workerId : String) (candidates skipped : List Id) :
    ClaimAnswers call later workerId candidates skipped
        (System.run step (.start board) inputs) ↔
      Claimable call.now candidates skipped (System.run step (.start board) inputs) :=
  claimAnswers_iff_returns.trans (claim_returns_iff (sound_run board inputs))

/-- With a snapshot of the same state the locked session has a queued run. -/
theorem exists_queued_of_claimable {w : Workspace}
    (h : claimable db (queuedSessions db) skipped = some w) :
    ∃ run ∈ w.runs.rows, run.status = .queued := by
  obtain ⟨hw, -, hcandidate, -⟩ := mem_claimable h
  obtain ⟨v, hv, hid⟩ := List.mem_map.mp hcandidate
  obtain ⟨hv, hqueued⟩ := List.mem_filter.mp ((mem_orderBy _ _ v).mp hv)
  obtain rfl := AgentDb.workspace_eq hv hw hid
  obtain ⟨run, hrun, hstatus⟩ := List.any_eq_true.mp (of_decide_eq_true hqueued).2
  exact ⟨run, hrun, of_decide_eq_true hstatus⟩

/-- A second worker reads the candidates before the first one claims the run, and locks the session
afterwards. -/
theorem claim_misses_run :
    ¬ ClaimAnswers ⟨5, "20260101", IdSource.longer⟩ 5 "second"
      (queuedSessions (System.run step (.start Board.empty) (twoScreenshots.take 4))) []
      (System.run step (.start Board.empty) twoScreenshots) := by
  have hraised : raised (claim ⟨5, "20260101", IdSource.longer⟩ 5 "second"
      (queuedSessions (System.run step (.start Board.empty) (twoScreenshots.take 4))) []
      (System.run step (.start Board.empty) twoScreenshots)) = some .noResultFound := by
    decide +kernel
  rintro ⟨claimed, db', hclaim, -⟩
  rw [hclaim] at hraised
  cases hraised

end FilmOS.Agent
