import FilmOS.Identity.Users
import FilmOS.Library.Run

/-!
# Subjects are resolved once and for all

`resolutions_stable` says what holds in any interleaving of calls of `resolve_external_user`, from
any users: calls for one subject end with one user and calls for different subjects with different
ones, a subject stays with its user, and a call that fails has written nothing.

The invariant is `Sound`: what a call has read and still relies on is so. A user it has found has
its subject, and a row it is about to link is as it was loaded, held by no other call. The second
part is what the row lock gives, since a commit changes no row that another call holds.
-/

set_option autoImplicit false
set_option relaxedAutoImplicit false

namespace FilmOS.Identity

open PythonText

variable {sqlLower : String → String}

/-! ### Users with a subject -/

/-- Members with one value under a partial function, whose values in a list are distinct, are
equal. -/
theorem eq_of_nodup_filterMap {α β : Type} {f : α → Option β} {as : List α}
    (h : (as.filterMap f).Nodup) {a a' : α} (ha : a ∈ as) (ha' : a' ∈ as) {b : β}
    (hb : f a = some b) (hb' : f a' = some b) : a = a' := by
  induction as with
  | nil => cases ha
  | cons first rest ih =>
    have hrest : (rest.filterMap f).Nodup :=
      h.sublist ((List.sublist_cons_self first rest).filterMap f)
    have hfirst : ∀ other ∈ rest, f first = some b → f other ≠ some b := by
      intro other hother hvalue hsame
      rw [List.filterMap_cons_some hvalue, List.nodup_cons] at h
      exact h.1 (List.mem_filterMap.mpr ⟨other, hother, hsame⟩)
    rcases List.mem_cons.mp ha with rfl | hmem
    · rcases List.mem_cons.mp ha' with rfl | hmem'
      · rfl
      · exact absurd hb' (hfirst a' hmem' hb)
    · rcases List.mem_cons.mp ha' with rfl | hmem'
      · exact absurd hb (hfirst a hmem hb')
      · exact ih hrest hmem hmem'

/-- A user has a subject. -/
def HasSubject (users : Users) (userId : Id) (subject : String) : Prop :=
  ∃ user ∈ users.table.rows, user.id = userId ∧ user.externalSubject = some subject

/-- Every user that has a subject keeps it. -/
def Keeps (users users' : Users) : Prop :=
  ∀ userId subject, HasSubject users userId subject → HasSubject users' userId subject

theorem Keeps.refl (users : Users) : Keeps users users := fun _ _ h ↦ h

theorem Keeps.trans {first second third : Users} (h : Keeps first second)
    (h' : Keeps second third) : Keeps first third := fun userId subject hsubject ↦
  h' userId subject (h userId subject hsubject)

/-- A user has at most one subject. -/
theorem HasSubject.subject_eq {users : Users} {userId : Id} {subject subject' : String}
    (h : HasSubject users userId subject) (h' : HasSubject users userId subject') :
    subject = subject' := by
  obtain ⟨user, hmem, hid, hsubject⟩ := h
  obtain ⟨user', hmem', hid', hsubject'⟩ := h'
  rw [users.table.eq_of_key_eq hmem hmem' (hid.trans hid'.symm), hsubject'] at hsubject
  exact (Option.some.inj hsubject).symm

/-- A subject belongs to at most one user. -/
theorem HasSubject.userId_eq {users : Users} {userId userId' : Id} {subject : String}
    (h : HasSubject users userId subject) (h' : HasSubject users userId' subject) :
    userId = userId' := by
  obtain ⟨user, hmem, rfl, hsubject⟩ := h
  obtain ⟨user', hmem', rfl, hsubject'⟩ := h'
  rw [eq_of_nodup_filterMap users.subjects hmem hmem' hsubject hsubject']

/-! ### Commits -/

theorem commit?_eq_some {table : Table User} {users : Users}
    (h : Users.commit? table = some users) : users.table = table := by
  unfold Users.commit? at h
  split_ifs at h
  rw [← Option.some.inj h]

/-- What a commit of a call does to the users: those with a subject keep it, the returned user has
the subject of the call, and no other row changes. -/
structure Commits (users users' : Users) (userId : Id) (subject : String) : Prop where
  keeps : Keeps users users'
  hasSubject : HasSubject users' userId subject
  others : ∀ user ∈ users.table.rows, user.id ≠ userId → user ∈ users'.table.rows

/-- A commit that updates one row, keeping a subject it has. -/
theorem commits_update {users users' : Users} {userId : Id} {subject : String} {f : User → User}
    {hf : ∀ user, Keyed.key (f user) = Keyed.key user}
    (h : Users.commit? (users.table.update userId f hf) = some users')
    (hsubject : ∀ user ∈ users.table.rows, user.id = userId →
      (f user).externalSubject = some subject ∧
        ∀ s, user.externalSubject = some s → s = subject)
    (hmem : userId ∈ users.table.keys) : Commits users users' userId subject := by
  have htable := commit?_eq_some h
  have hid : ∀ user, (f user).id = user.id := hf
  refine ⟨?_, ?_, ?_⟩
  · rintro id s ⟨user, huser, rfl, hs⟩
    refine ⟨if user.id = userId then f user else user, ?_, ?_, ?_⟩
    · rw [htable]
      exact (users.table.mem_update).mpr ⟨user, huser, rfl⟩
    · split_ifs
      · exact hid user
      · rfl
    · split_ifs with hsame
      · obtain ⟨hafter, hbefore⟩ := hsubject user huser hsame
        rw [hafter, hbefore s hs]
      · exact hs
  · obtain ⟨user, huser, hkey⟩ := (users.table.mem_keys).mp hmem
    refine ⟨f user, ?_, (hid user).trans hkey, (hsubject user huser hkey).1⟩
    rw [htable]
    exact (users.table.mem_update).mpr ⟨user, huser, if_pos hkey⟩
  · intro user huser hne
    rw [htable]
    exact (users.table.mem_update).mpr ⟨user, huser, if_neg hne⟩

/-- A commit that adds a row. -/
theorem commits_put {users users' : Users} {identity : ExternalIdentity} {id : Id}
    (h : Users.commit? (users.table.put (newUser identity id)) = some users')
    (hfresh : id ∉ users.table.keys) : Commits users users' id identity.subject := by
  have htable := commit?_eq_some h
  have hold : ∀ user ∈ users.table.rows, user ∈ users'.table.rows := by
    intro user huser
    rw [htable]
    refine (users.table.mem_put).mpr (Or.inr ⟨huser, fun heq ↦ hfresh ?_⟩)
    exact (users.table.mem_keys).mpr ⟨user, huser, heq⟩
  refine ⟨?_, ⟨newUser identity id, ?_, rfl, rfl⟩, fun user huser _ ↦ hold user huser⟩
  · rintro userId s ⟨user, huser, hid, hs⟩
    exact ⟨user, hold user huser, hid, hs⟩
  · rw [htable]
    exact (users.table.mem_put).mpr (Or.inl rfl)

/-! ### What calls rely on -/

/-- What a call in some phase relies on: the user it has found or returned has its subject, and the
row it holds is as it was loaded, may be linked to its subject, and is held by no other call. -/
def Justified (directory : Directory) (i : ℕ) (identity : ExternalIdentity) : Phase → Prop
  | .found loaded => HasSubject directory.users loaded.id identity.subject
  | .linking loaded => loaded ∈ directory.users.table.rows ∧
      (loaded.externalSubject = none ∨ loaded.externalSubject = some identity.subject) ∧
      ∀ j call, j ≠ i → directory.calls[j]? = some call → call.holds ≠ some loaded.id
  | .done result => ∀ userId, result = some userId →
      HasSubject directory.users userId identity.subject
  | _ => True

/-- Every call is justified in what it relies on. -/
def Sound (directory : Directory) : Prop :=
  ∀ i call, directory.calls[i]? = some call → Justified directory i call.identity call.phase

theorem calls_move {directory : Directory} {i j : ℕ} {identity : ExternalIdentity} {phase : Phase}
    {call : Resolving} (h : (directory.move i identity phase).calls[j]? = some call) :
    (j = i ∧ call = ⟨identity, phase⟩) ∨ (j ≠ i ∧ directory.calls[j]? = some call) := by
  change (directory.calls.set i _)[j]? = some call at h
  rw [List.getElem?_set] at h
  split_ifs at h with hij hlt
  · exact Or.inl ⟨hij.symm, (Option.some.inj h).symm⟩
  · exact Or.inr ⟨fun heq ↦ hij heq.symm, h⟩

/-- A call moves to a phase in which it is justified. -/
theorem Sound.move {directory : Directory} (h : Sound directory) {i : ℕ}
    {identity : ExternalIdentity} {phase : Phase}
    (hphase : Justified directory i identity phase) : Sound (directory.move i identity phase) := by
  have hother : ∀ j call, (directory.move i identity phase).calls[j]? = some call → j ≠ i →
      directory.calls[j]? = some call := by
    intro j call hcall hne
    rcases calls_move hcall with ⟨heq, -⟩ | ⟨-, hold⟩
    · exact absurd heq hne
    · exact hold
  intro j call hcall
  rcases calls_move hcall with ⟨rfl, rfl⟩ | ⟨hne, hold⟩
  · cases phase with
    | linking loaded =>
      obtain ⟨hmem, hsubject, hfree⟩ := hphase
      exact ⟨hmem, hsubject, fun k other hk hother' ↦ hfree k other hk (hother k other hother' hk)⟩
    | _ => exact hphase
  · have hjustified := h j call hold
    obtain ⟨identity', phase'⟩ := call
    cases phase' with
    | linking loaded =>
      obtain ⟨hmem, hsubject, hfree⟩ := hjustified
      refine ⟨hmem, hsubject, fun k other hk hcallk ↦ ?_⟩
      rcases calls_move hcallk with ⟨rfl, rfl⟩ | ⟨-, hold'⟩
      · -- the moved call holds no row that this one holds
        cases phase with
        | linking loaded' =>
          intro hsame
          refine hphase.2.2 j _ hne hold ?_
          exact hsame.symm
        | _ =>
          intro hsame
          cases hsame
      · exact hfree k other hk hold'
    | _ => exact hjustified

/-- A call commits a change of the users, which leaves the rows that other calls hold. -/
theorem Sound.commit {directory : Directory} (h : Sound directory) {i : ℕ}
    {identity : ExternalIdentity} {users : Users} {userId : Id}
    (hcommits : Commits directory.users users userId identity.subject)
    (hfree : ∀ j call, j ≠ i → directory.calls[j]? = some call → call.holds ≠ some userId) :
    Sound ({ directory with users }.move i identity (.done (some userId))) := by
  intro j call hcall
  rcases calls_move hcall with ⟨rfl, rfl⟩ | ⟨hne, hold⟩
  · intro userId' hresult
    obtain rfl := Option.some.inj hresult
    exact hcommits.hasSubject
  · have hjustified := h j call hold
    obtain ⟨identity', phase'⟩ := call
    cases phase' with
    | found loaded => exact hcommits.keeps _ _ hjustified
    | done result => exact fun userId' hresult ↦ hcommits.keeps _ _ (hjustified userId' hresult)
    | linking loaded =>
      obtain ⟨hmem, hsubject, hothers⟩ := hjustified
      have hloaded : loaded.id ≠ userId := by
        intro heq
        exact hfree j _ hne hold (congrArg some heq)
      refine ⟨hcommits.others loaded hmem hloaded, hsubject, fun k other hk hcallk ↦ ?_⟩
      rcases calls_move hcallk with ⟨rfl, rfl⟩ | ⟨-, hold'⟩
      · intro hsame
        cases hsame
      · exact hothers k other hk hold'
    | _ => exact hjustified

theorem not_holds_of_not_blocked {directory : Directory} {i : ℕ} {ids : List Id}
    (h : ¬ directory.Blocked i ids) {j : ℕ} {call : Resolving} (hj : j ≠ i)
    (hcall : directory.calls[j]? = some call) {id : Id} (hid : id ∈ ids) :
    call.holds ≠ some id := fun hholds ↦
  h ⟨(call, j), List.mk_mem_zipIdx_iff_getElem?.mpr hcall, hj, id, hid, hholds⟩

/-- After the selection a call is justified: a row that it holds was returned. -/
theorem justified_selected {directory : Directory} {i : ℕ} {identity : ExternalIdentity}
    {rows : List User} (h : ∀ user ∈ rows, user ∈ directory.users.table.rows ∧
      ∀ j call, j ≠ i → directory.calls[j]? = some call → call.holds ≠ some user.id) :
    Justified directory i identity (Directory.selected identity rows) := by
  have hfailed : Justified directory i identity (.done none) := by
    intro userId hnone
    cases hnone
  cases rows with
  | nil => trivial
  | cons user rest =>
    cases rest with
    | cons other rest => exact hfailed
    | nil =>
      unfold Directory.selected
      dsimp only
      split_ifs with hsubject
      · obtain ⟨hmem, hfree⟩ := h user List.mem_cons_self
        exact ⟨hmem, hsubject, hfree⟩
      · exact hfailed

/-- What an advance does: nothing, a move to a phase in which the call is justified, or a commit
that ends the call with a user. -/
theorem advance_cases {directory : Directory} (h : Sound directory) {i : ℕ} {source : IdSource}
    {call : Resolving} (hcall : directory.calls[i]? = some call) :
    directory.advance sqlLower i source call = directory ∨
    (∃ phase, Justified directory i call.identity phase ∧
      directory.advance sqlLower i source call = directory.move i call.identity phase) ∨
    ∃ users userId, Commits directory.users users userId call.identity.subject ∧
      (∀ j other, j ≠ i → directory.calls[j]? = some other → other.holds ≠ some userId) ∧
      directory.advance sqlLower i source call =
        { directory with users }.move i call.identity (.done (some userId)) := by
  have hjustified := h i call hcall
  obtain ⟨identity, phase⟩ := call
  have hfound : ∀ user, directory.findBySubject identity.subject = some user →
      HasSubject directory.users user.id identity.subject := by
    intro user huser
    have hsubject := List.find?_some huser
    exact ⟨user, List.mem_of_find?_eq_some huser, rfl, of_decide_eq_true hsubject⟩
  have hfailed : Justified directory i identity (.done none) := by
    intro userId hnone
    cases hnone
  have hcommit : ∀ (table : Table User) (userId : Id) (rejected : Phase),
      Justified directory i identity rejected →
      (∀ users, Users.commit? table = some users →
        Commits directory.users users userId identity.subject) →
      (∀ j other, j ≠ i → directory.calls[j]? = some other → other.holds ≠ some userId) →
      (∃ phase, Justified directory i identity phase ∧
        directory.commit i identity table userId rejected = directory.move i identity phase) ∨
      ∃ users userId', Commits directory.users users userId' identity.subject ∧
        (∀ j other, j ≠ i → directory.calls[j]? = some other → other.holds ≠ some userId') ∧
        directory.commit i identity table userId rejected =
          { directory with users }.move i identity (.done (some userId')) := by
    intro table userId rejected hrejected hcommits hfree
    unfold Directory.commit
    cases hunique : Users.commit? table with
    | none => exact Or.inl ⟨rejected, hrejected, rfl⟩
    | some users => exact Or.inr ⟨users, userId, hcommits users hunique, hfree, rfl⟩
  unfold Directory.advance
  cases phase with
  | start =>
    cases hfind : directory.findBySubject identity.subject with
    | none =>
      simp only [hfind]
      exact Or.inr (Or.inl ⟨.absent, trivial, rfl⟩)
    | some existing =>
      simp only [hfind]
      exact Or.inr (Or.inl ⟨.found existing, hfound existing hfind, rfl⟩)
  | found existing =>
    dsimp only
    split_ifs with hsame hblocked
    · refine Or.inr (Or.inl ⟨.done (some existing.id), ?_, rfl⟩)
      intro userId hresult
      rw [← Option.some.inj hresult]
      exact hjustified
    · exact Or.inl rfl
    · have hkey : existing.id ∈ directory.users.table.keys := by
        obtain ⟨user, hmem, hid, -⟩ := hjustified
        exact (directory.users.table.mem_keys).mpr ⟨user, hmem, hid⟩
      refine Or.inr (hcommit _ _ _ hfailed (fun users hunique ↦ ?_) fun j other hj hother ↦
        not_holds_of_not_blocked hblocked hj hother List.mem_cons_self)
      refine commits_update hunique (fun user huser hid ↦ ?_) hkey
      obtain ⟨row, hrow, hrowId, hsubject⟩ := hjustified
      rw [← directory.users.table.eq_of_key_eq huser hrow (hid.trans hrowId.symm)] at hsubject
      exact ⟨hsubject, fun s hs ↦ Option.some.inj (hs.symm.trans hsubject)⟩
  | absent => exact Or.inr (Or.inl ⟨.selecting _, trivial, rfl⟩)
  | selecting ids =>
    dsimp only
    split_ifs with hblocked
    · exact Or.inl rfl
    · refine Or.inr (Or.inl ⟨_, justified_selected fun user huser ↦ ?_, rfl⟩)
      obtain ⟨hmem, hselected⟩ := List.mem_filter.mp huser
      have hid : user.id ∈ ids := (of_decide_eq_true hselected).1
      exact ⟨hmem, fun j other hj hother ↦ not_holds_of_not_blocked hblocked hj hother hid⟩
  | linking user =>
    refine Or.inr (hcommit _ _ .lost trivial ?_ ?_)
    · intro users hunique
      obtain ⟨hmem, hsubject, -⟩ := hjustified
      refine commits_update hunique (fun row hrow hid ↦ ?_)
        ((directory.users.table.mem_keys).mpr ⟨user, hmem, rfl⟩)
      rw [directory.users.table.eq_of_key_eq hrow hmem hid]
      constructor
      · unfold link
        split_ifs with hlinked
        · exact hlinked
        · rfl
      · intro s hs
        rcases hsubject with hnone | hsome
        · rw [hnone] at hs
          cases hs
        · exact Option.some.inj (hs.symm.trans hsome)
    · exact hjustified.2.2
  | creating =>
    dsimp only
    have hfresh := source.fresh directory.users.table.keys
    refine Or.inr (hcommit _ _ .lost trivial (fun users hunique ↦ commits_put hunique hfresh) ?_)
    intro j other _ hother hholds
    have hjustifiedOther := h j other hother
    obtain ⟨identity', phase'⟩ := other
    cases phase' with
    | linking loaded =>
      refine hfresh ((directory.users.table.mem_keys).mpr ⟨loaded, hjustifiedOther.1, ?_⟩)
      exact Option.some.inj hholds
    | _ => cases hholds
  | lost =>
    cases hfind : directory.findBySubject identity.subject with
    | none =>
      simp only [hfind]
      exact Or.inr (Or.inl ⟨.done none, hfailed, rfl⟩)
    | some winner =>
      simp only [hfind]
      refine Or.inr (Or.inl ⟨_, ?_, rfl⟩)
      intro userId hresult
      split_ifs at hresult
      rw [← Option.some.inj hresult]
      exact hfound winner hfind
  | done result => exact Or.inl rfl

/-! ### Steps and runs -/

/-- How the directory evolves: subjects stay with their users, and a call that is done stays as it
ended. -/
structure Evolves (directory directory' : Directory) : Prop where
  keeps : Keeps directory.users directory'.users
  ended : ∀ (i : ℕ) (call : Resolving) (result : Option Id), directory.calls[i]? = some call →
    call.phase = .done result → directory'.calls[i]? = some call

theorem Evolves.refl (directory : Directory) : Evolves directory directory :=
  ⟨Keeps.refl _, fun _ _ _ h _ ↦ h⟩

theorem Evolves.trans {first second third : Directory} (h : Evolves first second)
    (h' : Evolves second third) : Evolves first third :=
  ⟨h.keeps.trans h'.keeps, fun i call result hcall hdone ↦
    h'.ended i call result (h.ended i call result hcall hdone) hdone⟩

/-- A step of one call: the other calls stay, and so does this one if it is done. -/
theorem getElem?_move {directory : Directory} {i j : ℕ} {identity : ExternalIdentity}
    {phase : Phase} {call : Resolving} (hj : directory.calls[j]? = some call) (hne : j ≠ i) :
    (directory.move i identity phase).calls[j]? = some call := by
  change (directory.calls.set i _)[j]? = some call
  rw [List.getElem?_set_ne hne.symm]
  exact hj

theorem advance_done {directory : Directory} {i : ℕ} {source : IdSource} {call : Resolving}
    {result : Option Id} (h : call.phase = .done result) :
    directory.advance sqlLower i source call = directory := by
  unfold Directory.advance
  simp only [h]

theorem step_advance {directory : Directory} {i : ℕ} {source : IdSource} {call : Resolving}
    (h : directory.calls[i]? = some call) :
    directory.step sqlLower (.advance i source) = directory.advance sqlLower i source call := by
  unfold Directory.step
  simp only [h]

theorem step_advance_of_none {directory : Directory} {i : ℕ} {source : IdSource}
    (h : directory.calls[i]? = none) :
    directory.step sqlLower (.advance i source) = directory := by
  unfold Directory.step
  simp only [h]

/-- A step keeps calls justified and evolves the directory. -/
theorem Sound.step {directory : Directory} (h : Sound directory) (event : Directory.Event) :
    Sound (directory.step sqlLower event) ∧ Evolves directory (directory.step sqlLower event) := by
  cases event with
  | begin identity =>
    have hcalls : ∀ (j : ℕ) (call : Resolving),
        (directory.step sqlLower (.begin identity)).calls[j]? = some call →
        directory.calls[j]? = some call ∨ call = ⟨identity, .start⟩ := by
      intro j call hcall
      change (directory.calls ++ [⟨identity, .start⟩])[j]? = some call at hcall
      rw [List.getElem?_append] at hcall
      split_ifs at hcall
      · exact Or.inl hcall
      · exact Or.inr (List.mem_singleton.mp (List.mem_of_getElem? hcall))
    refine ⟨fun j call hcall ↦ ?_, Keeps.refl _, fun j call result hj _ ↦ ?_⟩
    · rcases hcalls j call hcall with hold | rfl
      · have hjustified := h j call hold
        obtain ⟨identity', phase'⟩ := call
        cases phase' with
        | linking loaded =>
          refine ⟨hjustified.1, hjustified.2.1, fun k other hk hother ↦ ?_⟩
          rcases hcalls k other hother with hold' | rfl
          · exact hjustified.2.2 k other hk hold'
          · intro hholds
            cases hholds
        | _ => exact hjustified
      · trivial
    · change (directory.calls ++ [⟨identity, .start⟩])[j]? = some call
      rw [List.getElem?_append_left (List.getElem?_eq_some_iff.mp hj).1]
      exact hj
  | advance i source =>
    cases hcall : directory.calls[i]? with
    | none =>
      rw [step_advance_of_none hcall]
      exact ⟨h, Evolves.refl directory⟩
    | some call =>
      rw [step_advance hcall]
      by_cases hdone : ∃ result, call.phase = .done result
      · obtain ⟨result, hresult⟩ := hdone
        rw [advance_done hresult]
        exact ⟨h, Evolves.refl directory⟩
      · have hended : ∀ (j : ℕ) (other : Resolving) (result : Option Id),
            directory.calls[j]? = some other → other.phase = .done result → j ≠ i := by
          rintro j other result hj hresult rfl
          rw [hcall] at hj
          exact hdone ⟨result, by rw [Option.some.inj hj, hresult]⟩
        rcases advance_cases h hcall with hsame | ⟨phase, hphase, hmove⟩ |
          ⟨users, userId, hcommits, hfree, hcommit⟩
        · rw [hsame]
          exact ⟨h, Evolves.refl directory⟩
        · rw [hmove]
          exact ⟨h.move hphase, Keeps.refl _, fun j other result hj hresult ↦
            getElem?_move hj (hended j other result hj hresult)⟩
        · rw [hcommit]
          exact ⟨h.commit hcommits hfree, hcommits.keeps, fun j other result hj hresult ↦
            getElem?_move hj (hended j other result hj hresult)⟩
  | abort i =>
    cases hcall : directory.calls[i]? with
    | none =>
      unfold Directory.step
      simp only [hcall]
      exact ⟨h, Evolves.refl directory⟩
    | some call =>
      have hmove : ∀ identity, Sound (directory.move i identity (.done none)) := fun identity ↦
        h.move fun userId hnone ↦ by cases hnone
      obtain ⟨identity, phase⟩ := call
      have hended : (∀ result, phase ≠ .done result) →
          Evolves directory (directory.move i identity (.done none)) := by
        refine fun hphase ↦ ⟨Keeps.refl _, fun j other result hj hresult ↦ getElem?_move hj ?_⟩
        rintro rfl
        rw [hcall] at hj
        rw [← Option.some.inj hj] at hresult
        exact hphase result hresult
      unfold Directory.step
      simp only [hcall]
      cases phase with
      | done result => exact ⟨h, Evolves.refl directory⟩
      | _ => exact ⟨hmove identity, hended fun result hdone ↦ by cases hdone⟩

/-- A step of a call that writes ends the call with a user. -/
theorem exists_done_of_users_ne {directory : Directory} (h : Sound directory)
    {event : Directory.Event} {i : ℕ} (hindex : event.index = some i)
    (hne : (directory.step sqlLower event).users ≠ directory.users) :
    ∃ call userId, (directory.step sqlLower event).calls[i]? = some call ∧
      call.phase = .done (some userId) := by
  cases event with
  | begin identity => cases hindex
  | abort j =>
    refine absurd ?_ hne
    unfold Directory.step
    cases hcall : directory.calls[j]? with
    | none => simp only [hcall]
    | some call =>
      obtain ⟨identity, phase⟩ := call
      simp only [hcall]
      cases phase <;> rfl
  | advance j source =>
    obtain rfl := Option.some.inj hindex
    cases hcall : directory.calls[j]? with
    | none =>
      rw [step_advance_of_none hcall] at hne
      exact absurd rfl hne
    | some call =>
      rw [step_advance hcall] at hne ⊢
      rcases advance_cases h hcall with hsame | ⟨phase, -, hmove⟩ |
        ⟨users, userId, -, -, hcommit⟩
      · rw [hsame] at hne
        exact absurd rfl hne
      · rw [hmove] at hne
        exact absurd rfl hne
      · refine ⟨⟨call.identity, .done (some userId)⟩, userId, ?_, rfl⟩
        rw [hcommit]
        change (directory.calls.set j _)[j]? = _
        exact List.getElem?_set_self (List.getElem?_eq_some_iff.mp hcall).1

theorem sound_run (directory : Directory) (h : Sound directory) (events : List Directory.Event) :
    Sound (System.run (Directory.step sqlLower) directory events) :=
  System.invariant_run_all (fun _ event hsound ↦ (hsound.step event).1) events directory h

theorem evolves_run (directory : Directory) (h : Sound directory)
    (events : List Directory.Event) :
    Evolves directory (System.run (Directory.step sqlLower) directory events) :=
  System.related_run Evolves.refl (fun _ _ _ ↦ Evolves.trans)
    (fun _ event hsound ↦ (hsound.step event).1) (fun _ event hsound ↦ (hsound.step event).2)
    events directory h

/-- In any interleaving of calls, from any users: calls that end with a user end with the same one
exactly when their subjects are the same; a subject stays with its user, and a call stays as it
ended; and no step of a call that fails changes a row. -/
theorem resolutions_stable (sqlLower : String → String) (users : Users)
    (events : List Directory.Event) :
    let reached := fun events ↦ System.run (Directory.step sqlLower) ⟨users, []⟩ events
    (∀ first ∈ (reached events).calls, ∀ second ∈ (reached events).calls, ∀ userId userId',
      first.phase = .done (some userId) → second.phase = .done (some userId') →
        (first.identity.subject = second.identity.subject ↔ userId = userId')) ∧
    (∀ before after, events = before ++ after →
      (∀ user ∈ (reached before).users.table.rows, ∀ subject,
        user.externalSubject = some subject →
          ∃ user' ∈ (reached events).users.table.rows, user'.id = user.id ∧
            user'.externalSubject = some subject) ∧
      ∀ (i : ℕ) (call : Resolving) (result : Option Id), (reached before).calls[i]? = some call →
        call.phase = .done result → (reached events).calls[i]? = some call) ∧
    ∀ before event after i call, events = before ++ event :: after → event.index = some i →
      (reached events).calls[i]? = some call → call.phase = .done none →
        (reached (before ++ [event])).users = (reached before).users := by
  intro reached
  have hstart : Sound ⟨users, []⟩ := fun i call hcall ↦ by cases hcall
  have hsound : ∀ events, Sound (reached events) := fun events ↦ sound_run _ hstart events
  have hevolves : ∀ before after, Evolves (reached before) (reached (before ++ after)) := by
    intro before after
    change Evolves (System.run _ _ before) (System.run _ _ (before ++ after))
    rw [System.run_append]
    exact evolves_run _ (hsound before) after
  refine ⟨?_, ?_, ?_⟩
  · intro first hfirst second hsecond userId userId' hphase hphase'
    obtain ⟨i, hi⟩ := List.mem_iff_getElem?.mp hfirst
    obtain ⟨j, hj⟩ := List.mem_iff_getElem?.mp hsecond
    have hsubject : HasSubject (reached events).users userId first.identity.subject := by
      have hjustified := hsound events i first hi
      rw [hphase] at hjustified
      exact hjustified userId rfl
    have hsubject' : HasSubject (reached events).users userId' second.identity.subject := by
      have hjustified := hsound events j second hj
      rw [hphase'] at hjustified
      exact hjustified userId' rfl
    constructor
    · intro heq
      rw [heq] at hsubject
      exact hsubject.userId_eq hsubject'
    · rintro rfl
      exact hsubject.subject_eq hsubject'
  · rintro before after rfl
    refine ⟨fun user huser subject hsubject ↦ ?_, (hevolves before after).ended⟩
    exact (hevolves before after).keeps user.id subject ⟨user, huser, rfl, hsubject⟩
  · rintro before event after i call rfl hindex hcall hfailed
    by_contra hne
    have hstep : reached (before ++ [event]) =
        (reached before).step sqlLower event := System.run_append _ _ _ _
    rw [hstep] at hne
    obtain ⟨ended, userId, hended, hdone⟩ := exists_done_of_users_ne (hsound before) hindex hne
    rw [← hstep] at hended
    have hlast := (hevolves (before ++ [event]) after).ended i ended _ hended hdone
    rw [List.append_assoc, List.singleton_append, hcall] at hlast
    rw [Option.some.inj hlast, hdone] at hfailed
    cases hfailed

end FilmOS.Identity
