import FilmOS.Library.PythonText
import FilmOS.Basic

/-!
# External identities

`resolve_external_user` maps the subject of a verified external identity to a local user: the user
with that subject, else the one user with the email of the identity, which is linked once, else a
new user. It reads and writes in several database statements between which other calls run, so a
call is a `Resolving` with the phase it has reached, and `Directory.step` advances one call by one
statement.

Two mechanisms of the database are part of the model. `Users` carries the unique constraints on
emails and subjects, and a commit that would break one is rejected. The selection by email locks the
rows it returns: from `selecting` on a call waits while another call holds one of the rows, and a
call in phase `linking` holds its row until it commits or is rolled back. The selection returns the
rows that matched when the statement began and match still once no lock is in its way.

After a lost race the row of the winner is returned, and its projection is left to whatever the
session does next; no row is written by the call.
-/

set_option autoImplicit false
set_option relaxedAutoImplicit false

namespace FilmOS.Identity

open PythonText

inductive UserRole
  | owner
  | operator
deriving DecidableEq, Repr

structure User where
  id : Id
  email : String
  externalSubject : Option String
  passwordHash : Option String
  role : UserRole
deriving DecidableEq

instance : Keyed Id User := ⟨User.id⟩

@[simp] theorem key_user (user : User) : Keyed.key user = user.id := rfl

/-- The users, with unique emails and unique subjects. -/
structure Users where
  table : Table User
  emails : (table.rows.map User.email).Nodup
  subjects : (table.rows.filterMap User.externalSubject).Nodup

/-- The users after a commit, unless a unique constraint rejects it. -/
def Users.commit? (table : Table User) : Option Users :=
  if h : (table.rows.map User.email).Nodup ∧ (table.rows.filterMap User.externalSubject).Nodup then
    some ⟨table, h.1, h.2⟩
  else none

/-- A verified identity; its email is in lower case. -/
structure ExternalIdentity where
  subject : String
  email : String
  role : UserRole
deriving DecidableEq

/-- `_synchronize_projection`, as the flush writes it: the columns that differ from the row as it
was loaded. -/
def synchronizeProjection (identity : ExternalIdentity) (loaded user : User) : User :=
  { user with
    email := if loaded.email = identity.email then user.email else identity.email
    role := if loaded.role = identity.role then user.role else identity.role }

/-- The user linked to the subject of an identity. -/
def link (identity : ExternalIdentity) (loaded user : User) : User :=
  { synchronizeProjection identity loaded user with
    externalSubject :=
      if loaded.externalSubject = some identity.subject then user.externalSubject
      else some identity.subject }

theorem key_synchronizeProjection (identity : ExternalIdentity) (loaded user : User) :
    Keyed.key (synchronizeProjection identity loaded user) = Keyed.key user := rfl

theorem key_link (identity : ExternalIdentity) (loaded user : User) :
    Keyed.key (link identity loaded user) = Keyed.key user := rfl

/-- The user created for an identity. -/
def newUser (identity : ExternalIdentity) (id : Id) : User where
  id := id
  email := identity.email
  externalSubject := some identity.subject
  passwordHash := none
  role := identity.role

/-- How far a call has got: `found` has read the row of its subject, `selecting` has begun the
selection by email, `linking` holds the row that it returned, and `lost` was rejected at its commit.
A call is `done` with a user, or with a failure. -/
inductive Phase
  | start
  | found (loaded : User)
  | absent
  | selecting (ids : List Id)
  | linking (loaded : User)
  | creating
  | lost
  | done (userId : Option Id)
deriving DecidableEq

/-- A call of `resolve_external_user`. -/
structure Resolving where
  identity : ExternalIdentity
  phase : Phase

/-- The row that a call has locked. -/
def Resolving.holds (call : Resolving) : Option Id :=
  match call.phase with
  | .linking loaded => some loaded.id
  | _ => none

/-- The committed users and all calls so far. -/
structure Directory where
  users : Users
  calls : List Resolving

namespace Directory

/-- Another call holds one of the rows. -/
def Blocked (directory : Directory) (i : ℕ) (ids : List Id) : Prop :=
  ∃ entry ∈ directory.calls.zipIdx, entry.2 ≠ i ∧ ∃ id ∈ ids, entry.1.holds = some id

instance (directory : Directory) (i : ℕ) (ids : List Id) : Decidable (directory.Blocked i ids) :=
  inferInstanceAs (Decidable (∃ entry ∈ directory.calls.zipIdx, _ ∧ ∃ id ∈ ids, _))

/-- `_find_by_subject`. -/
def findBySubject (directory : Directory) (subject : String) : Option User :=
  directory.users.table.rows.find? (·.externalSubject = some subject)

/-- A call in its next phase. -/
def move (directory : Directory) (i : ℕ) (identity : ExternalIdentity) (phase : Phase) :
    Directory :=
  { directory with calls := directory.calls.set i ⟨identity, phase⟩ }

/-- The commit of a call, which ends with a user or in the phase for a rejected commit. -/
def commit (directory : Directory) (i : ℕ) (identity : ExternalIdentity) (table : Table User)
    (userId : Id) (rejected : Phase) : Directory :=
  match Users.commit? table with
  | some users => { directory with users }.move i identity (.done (some userId))
  | none => directory.move i identity rejected

/-- The phase after the selection by email returned some rows. -/
def selected (identity : ExternalIdentity) : List User → Phase
  | [] => .creating
  | [user] =>
    if user.externalSubject = none ∨ user.externalSubject = some identity.subject then .linking user
    else .done none
  | _ => .done none

/-- One statement of a call; `sqlLower` is the function `lower` of the database. -/
def advance (sqlLower : String → String) (directory : Directory) (i : ℕ) (source : IdSource)
    (call : Resolving) : Directory :=
  let identity := call.identity
  let table := directory.users.table
  match call.phase with
  | .start =>
    match directory.findBySubject identity.subject with
    | some existing => directory.move i identity (.found existing)
    | none => directory.move i identity .absent
  | .found existing =>
    if synchronizeProjection identity existing existing = existing then
      directory.move i identity (.done (some existing.id))
    else if directory.Blocked i [existing.id] then directory
    else
      directory.commit i identity
        (table.update existing.id (synchronizeProjection identity existing)
          (key_synchronizeProjection identity existing))
        existing.id (.done none)
  | .absent =>
    directory.move i identity
      (.selecting ((table.rows.filter (sqlLower ·.email = identity.email)).map User.id))
  | .selecting ids =>
    if directory.Blocked i ids then directory
    else
      directory.move i identity (selected identity
        (table.rows.filter (fun user ↦ user.id ∈ ids ∧ sqlLower user.email = identity.email)))
  | .linking user =>
    directory.commit i identity
      (table.update user.id (link identity user) (key_link identity user)) user.id .lost
  | .creating =>
    let id := source.pick table.keys
    directory.commit i identity (table.put (newUser identity id)) id .lost
  | .lost =>
    match directory.findBySubject identity.subject with
    | some winner =>
      directory.move i identity
        (.done (if lower winner.email = identity.email then some winner.id else none))
    | none => directory.move i identity (.done none)
  | .done _ => directory

/-- What happens next: a call begins, a call executes a statement, or a call is cut off and rolled
back. -/
inductive Event
  | begin (identity : ExternalIdentity)
  | advance (i : ℕ) (source : IdSource)
  | abort (i : ℕ)

/-- The call that an event is about, when it has begun before. -/
def Event.index : Event → Option ℕ
  | .begin _ => none
  | .advance i _ => some i
  | .abort i => some i

def step (sqlLower : String → String) (directory : Directory) : Event → Directory
  | .begin identity => { directory with calls := directory.calls ++ [⟨identity, .start⟩] }
  | .advance i source =>
    match directory.calls[i]? with
    | some call => directory.advance sqlLower i source call
    | none => directory
  | .abort i =>
    match directory.calls[i]? with
    | some ⟨_, .done _⟩ => directory
    | some call => directory.move i call.identity (.done none)
    | none => directory

end Directory

end FilmOS.Identity
