import Mathlib.Data.List.Nodup
import Mathlib.Logic.Relation

/-!
# Jobs that are leased once and ended once

A dispatcher keeps jobs, each queued, leased under a token, or ended with an outcome. It records the
end of every job, and an answer for the outcomes that come with one. `Move` lists what may happen:
a fresh job is queued when no other job is open, a queued job is leased, and an open job ends.

`Sound` is the invariant of a dispatcher with a single open slot, and `Precedes` the order in which
one job may evolve: a lease is never renewed under another token, and an end is final. Both are
established for one move and then for any sequence of moves. The jobs, tokens and outcomes are of
arbitrary types; which identifiers count as fresh and which outcomes are answered are parameters.
-/

set_option autoImplicit false
set_option relaxedAutoImplicit false

namespace FilmOS

/-- The stage of a job. -/
inductive Stage (ω : Type)
  | queued
  | leased
  | ended (outcome : ω)
deriving DecidableEq

/-- A job: its identifier, its stage, and the token it is leased under. -/
@[ext] structure Job (ι τ ω : Type) where
  id : ι
  stage : Stage ω
  token : Option τ
deriving DecidableEq

variable {ι τ ω : Type}

namespace Job

/-- The job has ended. -/
def Ended (job : Job ι τ ω) : Prop := ∃ outcome, job.stage = .ended outcome

/-- The order in which a job may evolve: anything may follow a queued job, a leased job stays as it
is until it ends, and an end is final. -/
def Precedes (job later : Job ι τ ω) : Prop :=
  match job.stage with
  | .queued => True
  | .leased => later = job ∨ later.Ended
  | .ended outcome => later.stage = .ended outcome

theorem Precedes.refl (job : Job ι τ ω) : job.Precedes job := by
  unfold Precedes
  split
  · trivial
  · exact Or.inl rfl
  · assumption

theorem Precedes.trans {a b c : Job ι τ ω} (hab : a.Precedes b) (hbc : b.Precedes c) :
    a.Precedes c := by
  unfold Precedes at hab ⊢
  split at hab
  · trivial
  · rcases hab with rfl | ⟨outcome, hended⟩
    · unfold Precedes at hbc
      next hstage => rwa [hstage] at hbc
    · unfold Precedes at hbc
      rw [hended] at hbc
      exact Or.inr ⟨outcome, hbc⟩
  · unfold Precedes at hbc
    rwa [hab] at hbc

end Job

/-- The jobs, the recorded ends and the recorded answers. -/
@[ext] structure Dispatch (ι τ ω : Type) where
  jobs : List (Job ι τ ω)
  endings : List (ι × ω)
  answers : List ι

namespace Dispatch

section Moves

variable [DecidableEq ι]

/-- A fresh job at the end of the queue. -/
def queue (id : ι) (d : Dispatch ι τ ω) : Dispatch ι τ ω :=
  { d with jobs := d.jobs ++ [⟨id, .queued, none⟩] }

/-- The job with the identifier gets another stage and token. -/
def setJob (id : ι) (stage : Stage ω) (token : Option τ) (d : Dispatch ι τ ω) : Dispatch ι τ ω :=
  { d with jobs := d.jobs.map (fun job ↦ if job.id = id then ⟨id, stage, token⟩ else job) }

/-- A job leased under a token. -/
def lease (id : ι) (token : τ) (d : Dispatch ι τ ω) : Dispatch ι τ ω :=
  d.setJob id .leased (some token)

/-- A job ended with an outcome: its token is gone, its end is recorded, and so is its answer when
the outcome comes with one. -/
def finish (answered : ω → Bool) (id : ι) (outcome : ω) (d : Dispatch ι τ ω) : Dispatch ι τ ω :=
  { d.setJob id (.ended outcome) none with
    endings := d.endings ++ [(id, outcome)]
    answers := d.answers ++ if answered outcome then [id] else [] }

/-- What may happen to a dispatcher. -/
inductive Move (fresh : ι → Prop) (answered : ω → Bool) :
    Dispatch ι τ ω → Dispatch ι τ ω → Prop
  | queue (d : Dispatch ι τ ω) (id : ι) (hfresh : fresh id) (hnew : id ∉ d.jobs.map Job.id)
      (hidle : ∀ job ∈ d.jobs, job.Ended) : Move fresh answered d (d.queue id)
  | lease (d : Dispatch ι τ ω) (job : Job ι τ ω) (token : τ) (hjob : job ∈ d.jobs)
      (hstage : job.stage = .queued) : Move fresh answered d (d.lease job.id token)
  | finish (d : Dispatch ι τ ω) (job : Job ι τ ω) (outcome : ω) (hjob : job ∈ d.jobs)
      (hopen : ¬ job.Ended) : Move fresh answered d (d.finish answered job.id outcome)

/-- Any number of moves. -/
abbrev Moves (fresh : ι → Prop) (answered : ω → Bool) :
    Dispatch ι τ ω → Dispatch ι τ ω → Prop :=
  Relation.ReflTransGen (Move fresh answered)

variable {fresh fresh' : ι → Prop} {answered : ω → Bool} {d d' : Dispatch ι τ ω}

theorem Moves.mono (hfresh : ∀ id, fresh id → fresh' id) (h : Moves fresh answered d d') :
    Moves fresh' answered d d' := by
  refine Relation.ReflTransGen.mono ?_ _ _ h
  intro a b hmove
  cases hmove with
  | queue id hid hnew hidle => exact .queue a id (hfresh id hid) hnew hidle
  | lease job token hjob hstage => exact .lease a job token hjob hstage
  | finish job outcome hjob hopen => exact .finish a job outcome hjob hopen

/-! ### The invariant -/

/-- One open job at most, tokens for leased jobs only, one recorded end for every ended job and none
for any other, and one answer exactly for the answered ones. -/
structure Sound (answered : ω → Bool) (d : Dispatch ι τ ω) : Prop where
  ids_nodup : (d.jobs.map Job.id).Nodup
  one_open : ∀ a ∈ d.jobs, ∀ b ∈ d.jobs, ¬ a.Ended → ¬ b.Ended → a = b
  token_iff : ∀ job ∈ d.jobs, job.token.isSome ↔ job.stage = .leased
  endings_nodup : (d.endings.map Prod.fst).Nodup
  mem_endings : ∀ id outcome,
    (id, outcome) ∈ d.endings ↔ ∃ job ∈ d.jobs, job.id = id ∧ job.stage = .ended outcome
  answers_nodup : d.answers.Nodup
  mem_answers : ∀ id, id ∈ d.answers ↔
    ∃ outcome, answered outcome ∧ ∃ job ∈ d.jobs, job.id = id ∧ job.stage = .ended outcome

theorem mem_setJob {job b : Job ι τ ω} {stage : Stage ω} {token : Option τ} (hjob : job ∈ d.jobs) :
    b ∈ (d.setJob job.id stage token).jobs ↔
      b = ⟨job.id, stage, token⟩ ∨ b ∈ d.jobs ∧ b.id ≠ job.id := by
  unfold setJob
  rw [List.mem_map]
  constructor
  · rintro ⟨a, ha, rfl⟩
    by_cases hid : a.id = job.id
    · rw [if_pos hid]
      exact Or.inl rfl
    · rw [if_neg hid]
      exact Or.inr ⟨ha, hid⟩
  · rintro (rfl | ⟨hb, hne⟩)
    · exact ⟨job, hjob, if_pos rfl⟩
    · exact ⟨b, hb, if_neg hne⟩

theorem ids_setJob (id : ι) (stage : Stage ω) (token : Option τ) (d : Dispatch ι τ ω) :
    (d.setJob id stage token).jobs.map Job.id = d.jobs.map Job.id := by
  unfold setJob
  rw [List.map_map]
  refine List.map_congr_left fun job _ ↦ ?_
  by_cases hid : job.id = id
  · simp [hid]
  · simp [hid]

omit [DecidableEq ι] in
theorem Sound.empty : Sound answered (⟨[], [], []⟩ : Dispatch ι τ ω) := by
  constructor <;> simp

omit [DecidableEq ι] in
theorem Sound.queue (h : d.Sound answered) {id : ι} (hfresh : id ∉ d.jobs.map Job.id)
    (hidle : ∀ job ∈ d.jobs, job.Ended) : (d.queue id).Sound answered := by
  have hmem : ∀ b : Job ι τ ω, b ∈ (d.queue id).jobs ↔ b ∈ d.jobs ∨ b = ⟨id, .queued, none⟩ := by
    intro b
    simp [Dispatch.queue]
  have hended : ∀ (id' : ι) (outcome : ω),
      (∃ job ∈ (d.queue id).jobs, job.id = id' ∧ job.stage = .ended outcome) ↔
        ∃ job ∈ d.jobs, job.id = id' ∧ job.stage = .ended outcome := by
    intro id' outcome
    constructor
    · rintro ⟨job, hjob, hid, hstage⟩
      rcases (hmem job).mp hjob with hjob | rfl
      · exact ⟨job, hjob, hid, hstage⟩
      · cases hstage
    · rintro ⟨job, hjob, hid, hstage⟩
      exact ⟨job, (hmem job).mpr (Or.inl hjob), hid, hstage⟩
  constructor
  · have hids : (d.queue id).jobs.map Job.id = d.jobs.map Job.id ++ [id] := by
      simp [Dispatch.queue]
    rw [hids]
    refine h.ids_nodup.append (List.nodup_singleton id) ?_
    simpa using hfresh
  · intro a ha b hb hopena hopenb
    rcases (hmem a).mp ha with ha | rfl
    · exact absurd (hidle a ha) hopena
    · rcases (hmem b).mp hb with hb | rfl
      · exact absurd (hidle b hb) hopenb
      · rfl
  · intro job hjob
    rcases (hmem job).mp hjob with hjob | rfl
    · exact h.token_iff job hjob
    · simp
  · exact h.endings_nodup
  · intro id' outcome
    rw [hended]
    exact h.mem_endings id' outcome
  · exact h.answers_nodup
  · intro id'
    simp only [hended]
    exact h.mem_answers id'

/-- A change of an open job to a stage that is not an end keeps the invariant, provided that it
carries a token exactly when it is leased. -/
theorem Sound.setJob (h : d.Sound answered) {job : Job ι τ ω} (hjob : job ∈ d.jobs)
    (hopen : ¬ job.Ended) {stage : Stage ω} {token : Option τ}
    (hstage : ∀ outcome, stage ≠ .ended outcome) (htoken : token.isSome ↔ stage = .leased) :
    (d.setJob job.id stage token).Sound answered := by
  have hended : ∀ (id : ι) (outcome : ω),
      (∃ b ∈ (d.setJob job.id stage token).jobs, b.id = id ∧ b.stage = .ended outcome) ↔
        ∃ b ∈ d.jobs, b.id = id ∧ b.stage = .ended outcome := by
    intro id outcome
    constructor
    · rintro ⟨b, hb, hid, hb'⟩
      rcases (mem_setJob hjob).mp hb with rfl | ⟨hb, -⟩
      · exact absurd hb' (hstage outcome)
      · exact ⟨b, hb, hid, hb'⟩
    · rintro ⟨b, hb, hid, hb'⟩
      refine ⟨b, (mem_setJob hjob).mpr (Or.inr ⟨hb, fun heq ↦ hopen ⟨outcome, ?_⟩⟩), hid, hb'⟩
      rw [← List.inj_on_of_nodup_map h.ids_nodup hb hjob heq]
      exact hb'
  constructor
  · rw [ids_setJob]
    exact h.ids_nodup
  · intro a ha b hb hopena hopenb
    rcases (mem_setJob hjob).mp ha with rfl | ⟨ha, hnea⟩
    · rcases (mem_setJob hjob).mp hb with rfl | ⟨hb, hneb⟩
      · rfl
      · exact absurd (congrArg Job.id (h.one_open b hb job hjob hopenb hopen)) hneb
    · exact absurd (congrArg Job.id (h.one_open a ha job hjob hopena hopen)) hnea
  · intro b hb
    rcases (mem_setJob hjob).mp hb with rfl | ⟨hb, -⟩
    · exact htoken
    · exact h.token_iff b hb
  · exact h.endings_nodup
  · intro id outcome
    rw [hended]
    exact h.mem_endings id outcome
  · exact h.answers_nodup
  · intro id
    simp only [hended]
    exact h.mem_answers id

theorem Sound.finish (h : d.Sound answered) {job : Job ι τ ω} (hjob : job ∈ d.jobs)
    (hopen : ¬ job.Ended) (outcome : ω) : (d.finish answered job.id outcome).Sound answered := by
  have hunrecorded : job.id ∉ d.endings.map Prod.fst := by
    intro hmem
    obtain ⟨⟨id, outcome'⟩, hending, hid⟩ := List.mem_map.mp hmem
    obtain ⟨b, hb, hid', hstage⟩ := (h.mem_endings id outcome').mp hending
    have heq := List.inj_on_of_nodup_map h.ids_nodup hb hjob (hid'.trans hid)
    exact hopen ⟨outcome', heq ▸ hstage⟩
  have hended : ∀ (id : ι) (outcome' : ω),
      (∃ b ∈ (d.finish answered job.id outcome).jobs, b.id = id ∧ b.stage = .ended outcome') ↔
        (id, outcome') = (job.id, outcome) ∨
          ∃ b ∈ d.jobs, b.id = id ∧ b.stage = .ended outcome' := by
    intro id outcome'
    constructor
    · rintro ⟨b, hb, rfl, hstage⟩
      rcases (mem_setJob hjob).mp hb with rfl | ⟨hb, -⟩
      · injection hstage with hstage
        exact Or.inl (by rw [hstage])
      · exact Or.inr ⟨b, hb, rfl, hstage⟩
    · rintro (heq | ⟨b, hb, rfl, hstage⟩)
      · injection heq with hid houtcome
        subst hid houtcome
        exact ⟨_, (mem_setJob hjob).mpr (Or.inl rfl), rfl, rfl⟩
      · refine ⟨b, (mem_setJob hjob).mpr (Or.inr ⟨hb, fun heq ↦ hopen ⟨outcome', ?_⟩⟩), rfl, hstage⟩
        rw [← List.inj_on_of_nodup_map h.ids_nodup hb hjob heq]
        exact hstage
  constructor
  · exact (ids_setJob job.id _ _ d).symm ▸ h.ids_nodup
  · intro a ha b hb hopena hopenb
    rcases (mem_setJob hjob).mp ha with rfl | ⟨ha, hnea⟩
    · exact absurd ⟨outcome, rfl⟩ hopena
    · exact absurd (congrArg Job.id (h.one_open a ha job hjob hopena hopen)) hnea
  · intro b hb
    rcases (mem_setJob hjob).mp hb with rfl | ⟨hb, -⟩
    · simp
    · exact h.token_iff b hb
  · change ((d.endings ++ [(job.id, outcome)]).map Prod.fst).Nodup
    rw [List.map_append]
    exact h.endings_nodup.append (List.nodup_singleton _) (by simpa using hunrecorded)
  · intro id outcome'
    rw [hended]
    change (id, outcome') ∈ d.endings ++ [(job.id, outcome)] ↔ _
    rw [List.mem_append, List.mem_singleton, h.mem_endings id outcome', or_comm]
  · change (d.answers ++ if answered outcome then [job.id] else []).Nodup
    refine h.answers_nodup.append (by split <;> simp) ?_
    intro id hid hnew
    obtain ⟨outcome', -, b, hb, hbid, hstage⟩ := (h.mem_answers id).mp hid
    have hnew' : id = job.id := by
      split at hnew
      · exact List.mem_singleton.mp hnew
      · cases hnew
    have heq := List.inj_on_of_nodup_map h.ids_nodup hb hjob (hbid.trans hnew')
    exact hopen ⟨outcome', heq ▸ hstage⟩
  · intro id
    simp only [hended]
    change id ∈ d.answers ++ (if answered outcome then [job.id] else []) ↔ _
    rw [List.mem_append, h.mem_answers id]
    constructor
    · rintro (⟨outcome', hanswered, hexists⟩ | hnew)
      · exact ⟨outcome', hanswered, Or.inr hexists⟩
      · split at hnew
        · next hanswered =>
          exact ⟨outcome, hanswered, Or.inl (by rw [List.mem_singleton.mp hnew])⟩
        · cases hnew
    · rintro ⟨outcome', hanswered, heq | hexists⟩
      · injection heq with hid houtcome
        subst hid houtcome
        rw [if_pos hanswered]
        exact Or.inr (List.mem_singleton_self _)
      · exact Or.inl ⟨outcome', hanswered, hexists⟩

/-- Once the open job has ended, all jobs have. -/
theorem Sound.idle_finish (h : d.Sound answered) {job : Job ι τ ω} (hjob : job ∈ d.jobs)
    (hopen : ¬ job.Ended) (outcome : ω) :
    ∀ later ∈ (d.finish answered job.id outcome).jobs, later.Ended := by
  intro later hlater
  rcases (mem_setJob hjob).mp hlater with rfl | ⟨hlater, hne⟩
  · exact ⟨outcome, rfl⟩
  · by_contra hlaterOpen
    exact hne (congrArg Job.id (h.one_open later hlater job hjob hlaterOpen hopen))

/-- Every move keeps the invariant. -/
theorem Sound.move (hmove : Move fresh answered d d') (h : d.Sound answered) :
    d'.Sound answered := by
  cases hmove with
  | queue id hfresh hnew hidle => exact h.queue hnew hidle
  | lease job token hjob hstage =>
    refine h.setJob hjob ?_ (by simp) (by simp)
    rintro ⟨outcome, hended⟩
    rw [hstage] at hended
    cases hended
  | finish job outcome hjob hopen => exact h.finish hjob hopen outcome

/-- Any number of moves keeps the invariant. -/
theorem Sound.moves (hmoves : Moves fresh answered d d') (h : d.Sound answered) :
    d'.Sound answered := by
  induction hmoves with
  | refl => exact h
  | tail _ hmove ih => exact ih.move hmove

/-! ### The evolution of one job -/

/-- Where a job comes from in a move: it is fresh, or follows a job with its identifier. -/
theorem Move.origin (hmove : Move fresh answered d d') :
    ∀ later ∈ d'.jobs, fresh later.id ∨ ∃ job ∈ d.jobs, job.id = later.id ∧ job.Precedes later := by
  intro later hlater
  cases hmove with
  | queue id hfresh hnew hidle =>
    rcases List.mem_append.mp hlater with hlater | hnew
    · exact Or.inr ⟨later, hlater, rfl, .refl later⟩
    · rw [List.mem_singleton.mp hnew]
      exact Or.inl hfresh
  | lease job token hjob hstage =>
    rcases (mem_setJob hjob).mp hlater with rfl | ⟨hlater, -⟩
    · refine Or.inr ⟨job, hjob, rfl, ?_⟩
      unfold Job.Precedes
      rw [hstage]
      trivial
    · exact Or.inr ⟨later, hlater, rfl, .refl later⟩
  | finish job outcome hjob hopen =>
    rcases (mem_setJob hjob).mp hlater with rfl | ⟨hlater, -⟩
    · refine Or.inr ⟨job, hjob, rfl, ?_⟩
      unfold Job.Precedes
      split
      · trivial
      · exact Or.inr ⟨outcome, rfl⟩
      · next outcome' hstage => exact absurd ⟨outcome', hstage⟩ hopen
    · exact Or.inr ⟨later, hlater, rfl, .refl later⟩

/-- The same for any number of moves. -/
theorem Moves.origin (hmoves : Moves fresh answered d d') :
    ∀ later ∈ d'.jobs, fresh later.id ∨ ∃ job ∈ d.jobs, job.id = later.id ∧ job.Precedes later := by
  induction hmoves with
  | refl => exact fun later hlater ↦ Or.inr ⟨later, hlater, rfl, .refl later⟩
  | tail _ hmove ih =>
    intro later hlater
    rcases hmove.origin later hlater with hfresh | ⟨middle, hmiddle, hid, hmiddleLater⟩
    · exact Or.inl hfresh
    · rcases ih middle hmiddle with hfresh | ⟨job, hjob, hid', hjobMiddle⟩
      · exact Or.inl (hid ▸ hfresh)
      · exact Or.inr ⟨job, hjob, hid'.trans hid, hjobMiddle.trans hmiddleLater⟩

/-! ### Queueing alone -/

/-- One more job is queued, when no job is open. -/
inductive Queue (fresh : ι → Prop) : List (Job ι τ ω) → List (Job ι τ ω) → Prop
  | queue (jobs : List (Job ι τ ω)) (id : ι) (hfresh : fresh id) (hnew : id ∉ jobs.map Job.id)
      (hidle : ∀ job ∈ jobs, job.Ended) : Queue fresh jobs (jobs ++ [⟨id, .queued, none⟩])

/-- Any number of jobs is queued. -/
abbrev Queues (fresh : ι → Prop) : List (Job ι τ ω) → List (Job ι τ ω) → Prop :=
  Relation.ReflTransGen (Queue fresh)

variable {jobs jobs' : List (Job ι τ ω)}

omit [DecidableEq ι] in
theorem Queues.mono (hfresh : ∀ id, fresh id → fresh' id) (h : Queues fresh jobs jobs') :
    Queues fresh' jobs jobs' := by
  refine Relation.ReflTransGen.mono ?_ _ _ h
  intro a b hqueue
  cases hqueue with
  | queue id hid hnew hidle => exact .queue a id (hfresh id hid) hnew hidle

/-- Queueing is moving, whatever ends and answers are recorded. -/
theorem Queues.moves (h : Queues fresh d.jobs jobs) : Moves fresh answered d { d with jobs } := by
  induction h with
  | refl => exact .refl
  | tail _ hqueue ih =>
    cases hqueue with
    | queue id hfresh hnew hidle => exact ih.tail (.queue _ id hfresh hnew hidle)

omit [DecidableEq ι] in
theorem Queues.isPrefix (h : Queues fresh jobs jobs') : jobs <+: jobs' := by
  induction h with
  | refl => exact List.prefix_refl _
  | tail _ hqueue ih =>
    cases hqueue with
    | queue id hfresh hnew hidle => exact ih.trans (List.prefix_append _ _)

omit [DecidableEq ι] in
/-- A job whose identifier was there before is there as it was. -/
theorem Queues.mem (h : Queues fresh jobs jobs') {job : Job ι τ ω} (hjob : job ∈ jobs')
    (hid : job.id ∈ jobs.map Job.id) : job ∈ jobs := by
  induction h with
  | refl => exact hjob
  | tail hqueues hqueue ih =>
    cases hqueue with
    | queue id hfresh hnew hidle =>
      rcases List.mem_append.mp hjob with hold | hlast
      · exact ih hold
      · rw [List.mem_singleton.mp hlast] at hid
        exact absurd ((Queues.isPrefix hqueues).map Job.id |>.subset hid) hnew

/-- The open job ends, and further ones are queued after it. -/
theorem Queues.finish {job : Job ι τ ω} {outcome : ω} (hjob : job ∈ d.jobs) (hopen : ¬ job.Ended)
    (h : Queues fresh (d.setJob job.id (.ended outcome) none).jobs jobs) :
    Moves fresh answered d { d.finish answered job.id outcome with jobs } :=
  .trans (.single (.finish d job outcome hjob hopen))
    (Queues.moves (d := d.finish answered job.id outcome) h)

/-- The job that ended before others were queued is still ended. -/
theorem Queues.ended {job later : Job ι τ ω} {outcome : ω} (hjob : job ∈ d.jobs)
    (h : Queues fresh (d.setJob job.id (.ended outcome) none).jobs jobs) (hlater : later ∈ jobs)
    (hid : later.id = job.id) : later.Ended := by
  have hmem : later ∈ (d.setJob job.id (.ended outcome) none).jobs := by
    refine h.mem hlater ?_
    rw [ids_setJob, hid]
    exact List.mem_map_of_mem hjob
  rcases (mem_setJob hjob).mp hmem with rfl | ⟨-, hne⟩
  · exact ⟨outcome, rfl⟩
  · exact absurd hid hne

end Moves

end Dispatch

end FilmOS
