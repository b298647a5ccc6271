import FilmOS.Agent.System
import Mathlib.Data.String.Basic

/-!
# The files of the screenshots

A `Storage` is the database together with the attachment directory. An upload writes its file before
its row is committed and takes it back when the commit fails; a process that is lost in between
leaves the file, or the temporary file under which it is written. A clean-up job is done once its
file was unlinked, and an attempt can be lost between the two. The orphan sweep reads the directory
first and the tables afterwards, in a transaction of its own.

All other calls leave the directory alone. Between any two steps any other step may come. The file
of an upload may be written here also when its transaction is refused later, and a commit that
raises is a commit that was rolled back.
-/

set_option autoImplicit false
set_option relaxedAutoImplicit false

namespace FilmOS.Agent

open Transaction

/-! ### The directory -/

/-- A file of the attachment directory. -/
structure StoredFile where
  name : String
  modifiedAt : Time

instance : Keyed String StoredFile := ⟨StoredFile.name⟩

/-- Thirty-two hexadecimal digits. -/
def isHexId (name : List Char) : Bool :=
  decide (name.length = 32) && name.all (fun c ↦ c.isDigit || decide ('a' ≤ c ∧ c ≤ 'f'))

/-- The name of a stored image: `[a-f0-9]{32}\.(png|jpg)`. -/
def isImageName (name : List Char) : Bool :=
  isHexId (name.take 32) && [['.', 'p', 'n', 'g'], ['.', 'j', 'p', 'g']].contains (name.drop 32)

/-- The name under which an image is written: `\.[a-f0-9]{32}\.(png|jpg)\.[a-f0-9]{32}\.tmp`. -/
def isTemporaryName (name : List Char) : Bool :=
  decide (name.head? = some '.') && isImageName ((name.drop 1).take 36) &&
    decide (name[37]? = some '.') && isHexId ((name.drop 38).take 32) &&
    decide (name.drop 70 = ['.', 't', 'm', 'p'])

/-- `old_keys`: the names of attachment files that were not modified within a day. -/
def oldKeys (now : Time) (files : Table StoredFile) : List String :=
  (files.rows.filter (fun file ↦
    (isImageName file.name.toList || isTemporaryName file.name.toList) ∧
      file.modifiedAt < now - seconds 86400)).map StoredFile.name

/-! ### Orphans -/

/-- The storage keys of the attachments. -/
def AgentDb.storageKeys (db : AgentDb) : List String :=
  db.workspaces.rows.flatMap (fun w ↦ w.attachments.rows.map ChatAttachment.storageKey)

/-- A job for a file, unless the file has one. -/
def sweepOrphan (call : Call) (storageKey : String) : Txn Failure AgentDb ℕ := do
  let id ← generateId call
  let db ← get
  if storageKey ∈ db.gcJobs.rows.map AgentFileGcJob.storageKey then return 0
  else do
    let gcJobs ← orRaise
      (db.gcJobs.insert? ⟨id, none, none, storageKey, .pending, 0, call.now, none⟩)
      (.integrityError "agent_file_gc_jobs_pkey")
    set { db with gcJobs }
    return 1

/-- Jobs for the files of a list, and how many are new. -/
def sweepKeys (call : Call) : List String → Txn Failure AgentDb ℕ
  | [] => return 0
  | storageKey :: rest => do
    let count ← sweepOrphan call storageKey
    let counts ← sweepKeys call rest
    return count + counts

/-- `sweep_orphans`, on the old names that were read from the directory. -/
def sweepOrphans (call : Call) (keys : List String) : Txn Failure AgentDb ℕ := do
  let db ← get
  sweepKeys call (keys.filter (fun key ↦ key ∉ db.storageKeys))

/-! ### Reading -/

/-- `owned_file`: where the image of a user's screenshot is, and its type. -/
def ownedFile (files : Table StoredFile) (attachmentId userId : Id) :
    Txn Failure AgentDb (String × String) := do
  let db ← get
  let found ← orRaise (workspaceOfAttachment db attachmentId)
    (.refused "RESOURCE_NOT_FOUND" "附件不存在" 404)
  let w ← requireSession found.session.id userId false
  let attachment ← orRaise (w.attachments.find? attachmentId) .noResultFound
  require (attachment.available ∧ attachment.storageKey ∈ files.keys)
    (.refused "ATTACHMENT_UNAVAILABLE" "附件不可用" 404)
  return (attachment.storageKey, attachment.file.mimeType)

/-! ### The system with its directory -/

/-- The database and the directory, with the uploads whose file is written but not committed, the
lists of old names that sweeps have read, and all names that were ever written or unlinked. -/
structure Storage where
  db : AgentDb
  files : Table StoredFile
  uploads : List String
  sweeps : List (List String)
  written : List String
  unlinked : List String

/-- The calls that work on the directory. -/
def AgentOp.TouchesDisk : AgentOp → Prop
  | .upload .. | .collectOnce .. => True
  | _ => False

/-- What may happen. -/
inductive StorageInput
  /-- A call that leaves the directory alone. -/
  | other (input : AgentInput) (houtside : ¬ input.op.TouchesDisk)
  /-- An upload writes its file. -/
  | write (name : String) (now : Time)
  /-- A temporary file is left behind. -/
  | leave (name : String) (now : Time)
  /-- An upload commits. -/
  | commitUpload (call : Call) (sessionId userId : Id) (clientUploadId sha256 : String)
      (inspected : Except Failure ImageFile)
  /-- The commit of an upload fails, and its file is taken back. -/
  | failUpload (name : String)
  /-- An upload is lost after it wrote its file. -/
  | loseUpload (name : String)
  /-- A sweep reads the directory. -/
  | findOld (now : Time)
  /-- A sweep that read the directory enters its jobs. -/
  | sweepOrphans (call : Call) (keys : List String)
  /-- One job is attempted; unlinking its file succeeds or not. -/
  | collectOnce (call : Call) (skipped : List Id) (unlinked : Bool)
  /-- An attempt is lost after it unlinked the file. -/
  | loseAttempt (call : Call) (skipped : List Id)

/-- The job that `collect_once` picks. -/
def dueJob (call : Call) (skipped : List Id) (db : AgentDb) : Option AgentFileGcJob :=
  firstBy (fun job : AgentFileGcJob ↦ toLex (job.nextAttemptAt, job.id))
    (db.gcJobs.rows.filter (fun job ↦
      job.status ≠ .succeeded ∧ job.nextAttemptAt ≤ call.now ∧ job.id ∉ skipped))

namespace Storage

/-- No session was created and no file was written. -/
def start (board : Board) : Storage := ⟨.start board, Table.empty, [], [], [], []⟩

/-- A file is written. Every name contains an identifier of its own, so none is written twice. -/
def writeFile (name : String) (now : Time) (s : Storage) : Storage :=
  { s with files := s.files.put ⟨name, now⟩, written := name :: s.written }

/-- `_delete_file`. -/
def deleteFile (name : String) (s : Storage) : Storage :=
  { s with files := s.files.erase name, unlinked := name :: s.unlinked }

/-- The upload of a name is over. -/
def endUpload (name : String) (s : Storage) : Storage :=
  { s with uploads := s.uploads.filter (· ≠ name) }

/-- One step. -/
def step (s : Storage) : StorageInput → Storage
  | .other input _ => { s with db := Agent.step s.db input }
  | .write name now =>
    if name ∈ s.written then s
    else { s.writeFile name now with uploads := name :: s.uploads }
  | .leave name now => if name ∈ s.written then s else s.writeFile name now
  | .commitUpload call sessionId userId clientUploadId sha256 inspected =>
    match upload call sessionId userId clientUploadId sha256 inspected s.db with
    | .ok attachment db =>
      if attachment.storageKey ∈ s.uploads then { s.endUpload attachment.storageKey with db } else s
    | .error _ _ => s
  | .failUpload name => if name ∈ s.uploads then (s.deleteFile name).endUpload name else s
  | .loseUpload name => s.endUpload name
  | .findOld now => { s with sweeps := s.sweeps ++ [oldKeys now s.files] }
  | .sweepOrphans call keys =>
    if keys ∈ s.sweeps then
      { s with db := commit (Agent.sweepOrphans call keys) s.db, sweeps := s.sweeps.erase keys }
    else s
  | .collectOnce call skipped unlinked =>
    match dueJob call skipped s.db with
    | none => s
    | some job =>
      let s := if unlinked then s.deleteFile job.storageKey else s
      { s with db := Agent.collectOnce call skipped unlinked s.db }
  | .loseAttempt call skipped =>
    match dueJob call skipped s.db with
    | none => s
    | some job => s.deleteFile job.storageKey

/-- No upload under way has a file that was written more than a day ago, when a sweep reads the
directory. -/
def Timely (s : Storage) : StorageInput → Prop
  | .findOld now => ∀ file ∈ s.files.rows, file.name ∈ s.uploads →
    now - seconds 86400 ≤ file.modifiedAt
  | _ => True

end Storage

end FilmOS.Agent
