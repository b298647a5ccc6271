import Mathlib.Data.List.Nodup
import Mathlib.Data.Set.Insert
import Mathlib.Logic.Function.Basic
import Mathlib.Logic.Relation
import Mathlib.Tactic.SplitIfs

/-!
# Files that folders own

A vault has folders that own files, and jobs that remove files. A file is written before its folder
gets it, as a draft; the writer can fail on the way and leave the file behind. What a folder gives
up becomes a job, all of it when the folder closes; files that nobody owns are looked for, listed,
and become jobs as well. A job is done once its file was unlinked, and a closing folder goes when
all its jobs are done.

`Move` lists what may happen, one atomic event at a time: between the listing and the job, between
the writing and the ownership, and between the unlinking and the end of the job, anything else may
come. `Sound` is the invariant (`Sound.moves`). From it, the files of a folder that is not closing
were never unlinked (`Sound.kept`), and what a folder ever owned was unlinked when the folder is
gone (`Sound.unlinked_of_gone`, with `Tracks` as what is known of an owned file from then on).
-/

set_option autoImplicit false
set_option relaxedAutoImplicit false
set_option linter.unusedSectionVars false

namespace FilmOS

/-- An owner of files. -/
structure Folder (φ : Type) where
  closing : Bool
  files : List φ

/-- The removal of one file, for the folder that owned it as long as the folder exists. -/
structure RemovalJob (κ ι φ : Type) where
  id : ι
  file : φ
  owner : Option κ
  done : Bool

/-- The folders and jobs, and what is on the disk. The names that were ever written or unlinked,
that belong to uploads under way and that were ever found old are kept. -/
structure Vault (κ ι φ : Type) where
  folders : κ → Option (Folder φ)
  jobs : List (RemovalJob κ ι φ)
  disk : Set φ
  written : Set φ
  drafts : Set φ
  listed : Set φ
  unlinked : Set φ

namespace RemovalJob

variable {κ ι φ : Type} [DecidableEq κ] [DecidableEq ι]

/-- The job is done. -/
def finish (id : ι) (job : RemovalJob κ ι φ) : RemovalJob κ ι φ :=
  if job.id = id then { job with done := true } else job

/-- The job without a folder that goes. -/
def orphan (id : κ) (job : RemovalJob κ ι φ) : RemovalJob κ ι φ :=
  { job with owner := job.owner.filter (fun owner ↦ decide (owner ≠ id)) }

theorem file_finish (id : ι) (job : RemovalJob κ ι φ) : (job.finish id).file = job.file := by
  unfold finish
  split_ifs <;> rfl

theorem owner_finish (id : ι) (job : RemovalJob κ ι φ) : (job.finish id).owner = job.owner := by
  unfold finish
  split_ifs <;> rfl

theorem owner_orphan {id id' : κ} {job : RemovalJob κ ι φ} :
    (job.orphan id).owner = some id' ↔ job.owner = some id' ∧ id' ≠ id := by
  unfold orphan
  rw [Option.filter_eq_some_iff, decide_eq_true_eq]

end RemovalJob

namespace Vault

variable {κ ι φ : Type} [DecidableEq κ] [DecidableEq ι] [DecidableEq φ]
  {v v' : Vault κ ι φ} {folder other : Folder φ} {file : φ} {id : κ}

/-! ### Events -/

/-- Further jobs, one for each of the files, for the folder that owned them. -/
structure Orders (owner : Option κ) (files : List φ) (jobs : List (RemovalJob κ ι φ)) : Prop where
  files : jobs.map RemovalJob.file = files
  owner : ∀ job ∈ jobs, job.owner = owner
  undone : ∀ job ∈ jobs, job.done = false

/-- The folder is replaced. -/
def setFolder (id : κ) (folder : Folder φ) (v : Vault κ ι φ) : Vault κ ι φ :=
  { v with folders := Function.update v.folders id (some folder) }

/-- What may happen to a vault. -/
inductive Move : Vault κ ι φ → Vault κ ι φ → Prop
  /-- Folders without files. -/
  | create (v : Vault κ ι φ) (folders : κ → Option (Folder φ))
      (hfolders : ∀ id, folders id = v.folders id ∨
        v.folders id = none ∧ folders id = some ⟨false, []⟩) : Move v { v with folders }
  /-- An upload has written its file. -/
  | write (v : Vault κ ι φ) (file : φ) (hnew : file ∉ v.written) :
      Move v { v with
        disk := insert file v.disk, written := insert file v.written
        drafts := insert file v.drafts }
  /-- Something else was written, which no folder will own. -/
  | leave (v : Vault κ ι φ) (file : φ) (hnew : file ∉ v.written) :
      Move v { v with disk := insert file v.disk, written := insert file v.written }
  /-- An upload has died after it wrote its file. -/
  | abandon (v : Vault κ ι φ) (file : φ) : Move v { v with drafts := v.drafts \ {file} }
  /-- An upload takes its file back. -/
  | discard (v : Vault κ ι φ) (file : φ) (hdraft : file ∈ v.drafts) :
      Move v { v with
        disk := v.disk \ {file}, unlinked := insert file v.unlinked, drafts := v.drafts \ {file} }
  /-- A folder gets the file of an upload. -/
  | attach (v : Vault κ ι φ) (id : κ) (folder : Folder φ) (hfolder : v.folders id = some folder)
      (hopen : folder.closing = false) (file : φ) (hdraft : file ∈ v.drafts) :
      Move v { v.setFolder id { folder with files := folder.files ++ [file] } with
        drafts := v.drafts \ {file} }
  /-- A folder gives files up. -/
  | detach (v : Vault κ ι φ) (id : κ) (folder : Folder φ) (hfolder : v.folders id = some folder)
      (hopen : folder.closing = false) (gone : List φ) (hgone : gone ⊆ folder.files)
      (honce : gone.Nodup)
      (jobs : List (RemovalJob κ ι φ)) (hjobs : Orders (some id) gone jobs) :
      Move v { v.setFolder id { folder with files := folder.files.filter (· ∉ gone) } with
        jobs := v.jobs ++ jobs }
  /-- A folder closes, and gives all its files up. -/
  | close (v : Vault κ ι φ) (id : κ) (folder : Folder φ) (hfolder : v.folders id = some folder)
      (hopen : folder.closing = false) (jobs : List (RemovalJob κ ι φ))
      (hjobs : Orders (some id) folder.files jobs) :
      Move v { v.setFolder id { folder with closing := true } with jobs := v.jobs ++ jobs }
  /-- Files are found old, none of them of an upload under way. -/
  | list (v : Vault κ ι φ) (found : Set φ) (hfound : found ⊆ v.disk)
      (hdrafts : ∀ file ∈ found, file ∉ v.drafts) :
      Move v { v with listed := v.listed ∪ found }
  /-- What was found old is forgotten. -/
  | forget (v : Vault κ ι φ) (listed : Set φ) (hlisted : listed ⊆ v.listed) :
      Move v { v with listed }
  /-- Files that were found old, that no folder owns and that no job is for get jobs. -/
  | sweep (v : Vault κ ι φ) (files : List φ) (hlisted : ∀ file ∈ files, file ∈ v.listed)
      (hunowned : ∀ file ∈ files, ∀ id folder, v.folders id = some folder → file ∉ folder.files)
      (hjobless : ∀ file ∈ files, ∀ job ∈ v.jobs, job.file ≠ file) (honce : files.Nodup)
      (jobs : List (RemovalJob κ ι φ)) (hjobs : Orders none files jobs) :
      Move v { v with jobs := v.jobs ++ jobs }
  /-- The file of a job is unlinked. -/
  | unlink (v : Vault κ ι φ) (job : RemovalJob κ ι φ) (hjob : job ∈ v.jobs) :
      Move v { v with disk := v.disk \ {job.file}, unlinked := insert job.file v.unlinked }
  /-- A job is done, its file being unlinked. -/
  | settle (v : Vault κ ι φ) (id : ι)
      (hunlinked : ∀ job ∈ v.jobs, job.id = id → job.file ∈ v.unlinked) :
      Move v { v with jobs := v.jobs.map (RemovalJob.finish id) }
  /-- A closing folder goes, when all its jobs are done. -/
  | remove (v : Vault κ ι φ) (id : κ) (folder : Folder φ) (hfolder : v.folders id = some folder)
      (hclosing : folder.closing = true)
      (hdone : ∀ job ∈ v.jobs, job.owner = some id → job.done = true) :
      Move v { v with
        folders := Function.update v.folders id none, jobs := v.jobs.map (RemovalJob.orphan id) }

/-- Any number of events. -/
abbrev Moves : Vault κ ι φ → Vault κ ι φ → Prop := Relation.ReflTransGen Move

/-! ### The invariant -/

/-- A file of an upload under way: it is there, and nothing knows of it yet. -/
structure IsDraft (v : Vault κ ι φ) (file : φ) : Prop where
  there : file ∈ v.disk
  written : file ∈ v.written
  notUnlinked : file ∉ v.unlinked
  notListed : file ∉ v.listed
  unowned : ∀ id folder, v.folders id = some folder → file ∉ folder.files
  jobless : ∀ job ∈ v.jobs, job.file ≠ file

/-- The file is known: it is or was somewhere. -/
def Known (v : Vault κ ι φ) (file : φ) : Prop :=
  file ∈ v.disk ∨ file ∈ v.unlinked ∨ file ∈ v.listed ∨
    (∃ id folder, v.folders id = some folder ∧ file ∈ folder.files) ∨ ∃ job ∈ v.jobs,
      job.file = file

/-- The invariant of a vault. -/
structure Sound (v : Vault κ ι φ) : Prop where
  nodup : ∀ id folder, v.folders id = some folder → folder.files.Nodup
  apart : ∀ id folder, v.folders id = some folder → ∀ id' other, v.folders id' = some other →
    ∀ file ∈ folder.files, file ∈ other.files → id = id'
  kept : ∀ id folder, v.folders id = some folder → folder.closing = false →
    ∀ file ∈ folder.files, file ∈ v.disk ∧ file ∉ v.unlinked ∧ ∀ job ∈ v.jobs, job.file ≠ file
  owed : ∀ id folder, v.folders id = some folder → folder.closing = true →
    ∀ file ∈ folder.files, ∃ job ∈ v.jobs, job.file = file ∧ job.owner = some id
  single : (v.jobs.map RemovalJob.file).Nodup
  done : ∀ job ∈ v.jobs, job.done = true → job.file ∈ v.unlinked
  owner : ∀ job ∈ v.jobs, ∀ id, job.owner = some id → ∃ folder, v.folders id = some folder
  drafts : ∀ file ∈ v.drafts, v.IsDraft file
  known : ∀ file, v.Known file → file ∈ v.written
  gone : ∀ file ∈ v.unlinked, file ∉ v.disk

/-- What is known of a file that a folder owned: it owns it still, or has a job for it, or the file
was unlinked. -/
def Tracks (id : κ) (file : φ) (v : Vault κ ι φ) : Prop :=
  (∃ folder, v.folders id = some folder ∧ file ∈ folder.files) ∨
    (∃ job ∈ v.jobs, job.file = file ∧ job.owner = some id) ∨ file ∈ v.unlinked

theorem Sound.empty : Sound (⟨fun _ ↦ none, [], ∅, ∅, ∅, ∅, ∅⟩ : Vault κ ι φ) := by
  constructor <;> simp [Known]

/-! ### What one event does -/

theorem folders_setFolder {id' : κ} : (v.setFolder id folder).folders id' = some other ↔
    id' = id ∧ other = folder ∨ id' ≠ id ∧ v.folders id' = some other := by
  change Function.update v.folders id (some folder) id' = some other ↔ _
  rw [Function.update_apply]
  split_ifs with hid
  · rw [Option.some.injEq]
    exact ⟨fun h ↦ Or.inl ⟨hid, h.symm⟩, fun h ↦ (h.resolve_right fun h' ↦ h'.1 hid).2.symm⟩
  · exact ⟨fun h ↦ Or.inr ⟨hid, h⟩, fun h ↦ (h.resolve_left fun h' ↦ hid h'.1).2⟩

theorem folders_remove {id' : κ} :
    Function.update v.folders id none id' = some other ↔ id' ≠ id ∧ v.folders id' = some other := by
  rw [Function.update_apply]
  by_cases hid : id' = id
  · rw [if_pos hid]
    exact ⟨fun h ↦ (nomatch h), fun h ↦ absurd hid h.1⟩
  · rw [if_neg hid]
    exact ⟨fun h ↦ ⟨hid, h⟩, fun h ↦ h.2⟩

theorem Orders.mem {owner : Option κ} {files : List φ} {jobs : List (RemovalJob κ ι φ)}
    (h : Orders owner files jobs) {job : RemovalJob κ ι φ} (hjob : job ∈ jobs) :
    job.file ∈ files :=
  h.files ▸ List.mem_map_of_mem hjob

theorem Orders.append {owner : Option κ} {files files' : List φ}
    {jobs jobs' : List (RemovalJob κ ι φ)}
    (h : Orders owner files jobs) (h' : Orders owner files' jobs') :
    Orders owner (files ++ files') (jobs ++ jobs') where
  files := by rw [List.map_append, h.files, h'.files]
  owner job hjob := (List.mem_append.mp hjob).elim (h.owner job) (h'.owner job)
  undone job hjob := (List.mem_append.mp hjob).elim (h.undone job) (h'.undone job)

theorem Orders.exists_job {owner : Option κ} {files : List φ} {jobs : List (RemovalJob κ ι φ)}
    (h : Orders owner files jobs) (hfile : file ∈ files) :
    ∃ job ∈ jobs, job.file = file ∧ job.owner = owner := by
  rw [← h.files] at hfile
  obtain ⟨job, hjob, rfl⟩ := List.mem_map.mp hfile
  exact ⟨job, hjob, rfl, h.owner job hjob⟩

/-- Where the file of a folder comes from: the folder had it before and closes at most, or it is the
draft that this folder gets. -/
theorem Sound.file_origin (hs : v.Sound) (h : Move v v') {id' : κ}
    (hother : v'.folders id' = some other) (hfile : file ∈ other.files) :
    (∃ folder, v.folders id' = some folder ∧ file ∈ folder.files ∧
      (folder.closing = true → other.closing = true)) ∨
      file ∈ v.drafts ∧ other.closing = false ∧ v'.disk = v.disk ∧ v'.unlinked = v.unlinked ∧
        v'.jobs = v.jobs ∧ ∀ id₂ folder₂, v'.folders id₂ = some folder₂ → file ∈ folder₂.files →
          id₂ = id' := by
  cases h with
  | create folders hfolders =>
    rcases hfolders id' with hsame | ⟨-, hnew⟩
    · exact Or.inl ⟨other, hsame.symm.trans hother, hfile, id⟩
    · obtain rfl := Option.some.inj (hnew.symm.trans hother)
      exact absurd hfile List.not_mem_nil
  | attach id folder hfolder hopen draft hdraft =>
    rcases folders_setFolder.mp hother with ⟨rfl, rfl⟩ | ⟨-, hold⟩
    · rcases List.mem_append.mp hfile with hold | hlast
      · exact Or.inl ⟨folder, hfolder, hold, fun h ↦ h⟩
      · obtain rfl := List.mem_singleton.mp hlast
        refine Or.inr ⟨hdraft, hopen, rfl, rfl, rfl, fun id₂ folder₂ hfolder₂ hfile₂ ↦ ?_⟩
        rcases folders_setFolder.mp hfolder₂ with ⟨hid, -⟩ | ⟨-, hold⟩
        · exact hid
        · exact absurd hfile₂ ((hs.drafts file hdraft).unowned id₂ folder₂ hold)
    · exact Or.inl ⟨other, hold, hfile, fun h ↦ h⟩
  | detach id folder hfolder hopen gone =>
    rcases folders_setFolder.mp hother with ⟨rfl, rfl⟩ | ⟨-, hold⟩
    · exact Or.inl ⟨folder, hfolder, (List.mem_filter.mp hfile).1, fun h ↦ h⟩
    · exact Or.inl ⟨other, hold, hfile, fun h ↦ h⟩
  | close id folder hfolder =>
    rcases folders_setFolder.mp hother with ⟨rfl, rfl⟩ | ⟨-, hold⟩
    · exact Or.inl ⟨folder, hfolder, hfile, fun _ ↦ rfl⟩
    · exact Or.inl ⟨other, hold, hfile, fun h ↦ h⟩
  | remove => exact Or.inl ⟨other, (folders_remove.mp hother).2, hfile, fun h ↦ h⟩
  | _ => exact Or.inl ⟨other, hother, hfile, fun h ↦ h⟩

theorem Sound.nodup_move (hs : v.Sound) (h : Move v v') :
    ∀ id folder, v'.folders id = some folder → folder.files.Nodup := by
  intro id' other hother
  cases h with
  | create folders hfolders =>
    rcases hfolders id' with hsame | ⟨-, hnew⟩
    · exact hs.nodup id' other (hsame.symm.trans hother)
    · obtain rfl := Option.some.inj (hnew.symm.trans hother)
      exact List.nodup_nil
  | attach id folder hfolder hopen draft hdraft =>
    rcases folders_setFolder.mp hother with ⟨rfl, rfl⟩ | ⟨-, hold⟩
    · refine (hs.nodup id' folder hfolder).append (List.nodup_singleton _) ?_
      exact List.disjoint_singleton.mpr ((hs.drafts draft hdraft).unowned id' folder hfolder)
    · exact hs.nodup id' other hold
  | detach id folder hfolder hopen gone =>
    rcases folders_setFolder.mp hother with ⟨rfl, rfl⟩ | ⟨-, hold⟩
    · exact (hs.nodup id' folder hfolder).filter _
    · exact hs.nodup id' other hold
  | close id folder hfolder =>
    rcases folders_setFolder.mp hother with ⟨rfl, rfl⟩ | ⟨-, hold⟩
    · exact hs.nodup id' folder hfolder
    · exact hs.nodup id' other hold
  | remove => exact hs.nodup id' other (folders_remove.mp hother).2
  | _ => exact hs.nodup id' other hother

theorem Sound.apart_move (hs : v.Sound) (h : Move v v') :
    ∀ id folder, v'.folders id = some folder → ∀ id' other, v'.folders id' = some other →
      ∀ file ∈ folder.files, file ∈ other.files → id = id' := by
  intro id folder hfolder id' other hother file hfile hfile'
  rcases hs.file_origin h hfolder hfile with ⟨before, hbefore, hmem, -⟩ | ⟨-, -, -, -, -, honly⟩
  · rcases hs.file_origin h hother hfile' with
      ⟨before', hbefore', hmem', -⟩ | ⟨-, -, -, -, -, honly⟩
    · exact hs.apart id before hbefore id' before' hbefore' file hmem hmem'
    · exact honly id folder hfolder hfile
  · exact (honly id' other hother hfile').symm

/-- The files of open folders keep their place, and no job is for them. -/
theorem Sound.kept_move (hs : v.Sound) (h : Move v v') :
    ∀ id folder, v'.folders id = some folder → folder.closing = false →
      ∀ file ∈ folder.files, file ∈ v'.disk ∧ file ∉ v'.unlinked ∧ ∀ job ∈ v'.jobs, job.file ≠
        file := by
  intro id' other hother hclosing file hfile
  rcases hs.file_origin h hother hfile with ⟨folder, hfolder, hmem, hclose⟩ | hnew
  · have hopen : folder.closing = false := by
      cases hbefore : folder.closing with
      | false => rfl
      | true => exact (hclose hbefore).symm.trans hclosing
    obtain ⟨hdisk, hunlinked, hjobs⟩ := hs.kept id' folder hfolder hopen file hmem
    cases h with
    | write => exact ⟨Set.mem_insert_of_mem _ hdisk, hunlinked, hjobs⟩
    | leave => exact ⟨Set.mem_insert_of_mem _ hdisk, hunlinked, hjobs⟩
    | discard draft hdraft =>
      have hne : file ≠ draft := by
        rintro rfl
        exact (hs.drafts file hdraft).unowned id' folder hfolder hmem
      exact ⟨⟨hdisk, hne⟩, fun h ↦ h.elim hne hunlinked, hjobs⟩
    | detach id owner howner _ gone hgone honce jobs horders =>
      refine ⟨hdisk, hunlinked, fun job hjob ↦ ?_⟩
      rcases List.mem_append.mp hjob with hold | hnew
      · exact hjobs job hold
      · rintro rfl
        have hgiven := horders.mem hnew
        obtain rfl := hs.apart id' folder hfolder id owner howner _ hmem (hgone hgiven)
        rcases folders_setFolder.mp hother with ⟨-, rfl⟩ | ⟨hne, -⟩
        · exact of_decide_eq_true (List.mem_filter.mp hfile).2 hgiven
        · exact hne rfl
    | close id owner howner _ jobs horders =>
      refine ⟨hdisk, hunlinked, fun job hjob ↦ ?_⟩
      rcases List.mem_append.mp hjob with hold | hnew
      · exact hjobs job hold
      · rintro rfl
        obtain rfl := hs.apart id' folder hfolder id owner howner _ hmem (horders.mem hnew)
        rcases folders_setFolder.mp hother with ⟨-, rfl⟩ | ⟨hne, -⟩
        · cases hclosing
        · exact hne rfl
    | sweep files hlisted hunowned hjobless honce jobs horders =>
      refine ⟨hdisk, hunlinked, fun job hjob ↦ ?_⟩
      rcases List.mem_append.mp hjob with hold | hnew
      · exact hjobs job hold
      · rintro rfl
        exact hunowned _ (horders.mem hnew) id' folder hfolder hmem
    | unlink job hjob =>
      have hne : file ≠ job.file := (hjobs job hjob).symm
      exact ⟨⟨hdisk, hne⟩, fun h ↦ h.elim hne hunlinked, hjobs⟩
    | settle id =>
      refine ⟨hdisk, hunlinked, fun job hjob ↦ ?_⟩
      obtain ⟨earlier, hearlier, rfl⟩ := List.mem_map.mp hjob
      rw [earlier.file_finish]
      exact hjobs earlier hearlier
    | remove =>
      refine ⟨hdisk, hunlinked, fun job hjob ↦ ?_⟩
      obtain ⟨earlier, hearlier, rfl⟩ := List.mem_map.mp hjob
      exact hjobs earlier hearlier
    | _ => exact ⟨hdisk, hunlinked, hjobs⟩
  · obtain ⟨hdraft, -, hdisk, hunlinked, hjobs, -⟩ := hnew
    obtain ⟨hthere, -, hnot, -, -, hjobless⟩ := hs.drafts file hdraft
    rw [hdisk, hunlinked, hjobs]
    exact ⟨hthere, hnot, hjobless⟩

/-- What a folder owes a job for has one, until the folder is gone. -/
theorem Move.job_kept (h : Move v v') {job : RemovalJob κ ι φ} (hjob : job ∈ v.jobs)
    (howner : job.owner = some id) :
    (∃ later ∈ v'.jobs, later.file = job.file ∧ later.owner = some id) ∨
      v'.folders id = none ∧ job.done = true := by
  cases h with
  | detach => exact Or.inl ⟨job, List.mem_append_left _ hjob, rfl, howner⟩
  | close => exact Or.inl ⟨job, List.mem_append_left _ hjob, rfl, howner⟩
  | sweep => exact Or.inl ⟨job, List.mem_append_left _ hjob, rfl, howner⟩
  | settle jobId =>
    exact Or.inl ⟨job.finish jobId, List.mem_map_of_mem hjob, job.file_finish jobId,
      (job.owner_finish jobId).trans howner⟩
  | remove id' folder hfolder hclosing hdone =>
    by_cases hid : id = id'
    · refine Or.inr ⟨?_, hdone job hjob (hid ▸ howner)⟩
      rw [hid]
      exact Function.update_self id' none v.folders
    · exact Or.inl ⟨job.orphan id', List.mem_map_of_mem hjob, rfl,
        RemovalJob.owner_orphan.mpr ⟨howner, hid⟩⟩
  | _ => exact Or.inl ⟨job, hjob, rfl, howner⟩

theorem Sound.owed_move (hs : v.Sound) (h : Move v v') :
    ∀ id folder, v'.folders id = some folder → folder.closing = true →
      ∀ file ∈ folder.files, ∃ job ∈ v'.jobs, job.file = file ∧ job.owner = some id := by
  intro id' other hother hclosing file hfile
  rcases hs.file_origin h hother hfile with ⟨folder, hfolder, hmem, -⟩ | ⟨-, hopen, -⟩
  · by_cases hbefore : folder.closing = true
    · obtain ⟨job, hjob, rfl, howner⟩ := hs.owed id' folder hfolder hbefore file hmem
      rcases h.job_kept hjob howner with hlater | ⟨hgone, -⟩
      · exact hlater
      · rw [hother] at hgone
        cases hgone
    · -- Only closing makes an open folder a closing one.
      cases h with
      | create folders hfolders =>
        rcases hfolders id' with hsame | ⟨hnone, -⟩
        · have hold := hsame.symm.trans hother
          rw [hfolder] at hold
          exact absurd (Option.some.inj hold ▸ hclosing) hbefore
        · rw [hfolder] at hnone
          cases hnone
      | attach id owner howner hopen =>
        rcases folders_setFolder.mp hother with ⟨rfl, rfl⟩ | ⟨-, hold⟩
        · rw [show owner.closing = true from hclosing] at hopen
          cases hopen
        · rw [hfolder] at hold
          exact absurd (Option.some.inj hold ▸ hclosing) hbefore
      | detach id owner howner hopen =>
        rcases folders_setFolder.mp hother with ⟨rfl, rfl⟩ | ⟨-, hold⟩
        · rw [show owner.closing = true from hclosing] at hopen
          cases hopen
        · rw [hfolder] at hold
          exact absurd (Option.some.inj hold ▸ hclosing) hbefore
      | close id owner howner _ jobs horders =>
        rcases folders_setFolder.mp hother with ⟨rfl, rfl⟩ | ⟨-, hold⟩
        · obtain ⟨job, hjob, hsame, hown⟩ := horders.exists_job hfile
          exact ⟨job, List.mem_append_right _ hjob, hsame, hown⟩
        · rw [hfolder] at hold
          exact absurd (Option.some.inj hold ▸ hclosing) hbefore
      | remove =>
        obtain ⟨-, hold⟩ := folders_remove.mp hother
        rw [hfolder] at hold
        exact absurd (Option.some.inj hold ▸ hclosing) hbefore
      | _ =>
        rw [hfolder] at hother
        exact absurd (Option.some.inj hother ▸ hclosing) hbefore
  · rw [hopen] at hclosing
    cases hclosing

/-- Files that get jobs have none before: there is one job for a file at most. -/
theorem Sound.single_move (hs : v.Sound) (h : Move v v') :
    (v'.jobs.map RemovalJob.file).Nodup := by
  have hmore : ∀ (owner : Option κ) (files : List φ) (jobs : List (RemovalJob κ ι φ)),
      Orders owner files jobs → files.Nodup → (∀ file ∈ files, ∀ job ∈ v.jobs, job.file ≠ file) →
      ((v.jobs ++ jobs).map RemovalJob.file).Nodup := by
    intro owner files jobs horders honce hjobless
    rw [List.map_append, horders.files]
    refine hs.single.append honce fun file hold hnew ↦ ?_
    obtain ⟨job, hjob, hsame⟩ := List.mem_map.mp hold
    exact hjobless file hnew job hjob hsame
  have hkept : ∀ id folder, v.folders id = some folder → folder.closing = false →
      ∀ file ∈ folder.files, ∀ job ∈ v.jobs, job.file ≠ file :=
    fun id folder hfolder hopen file hfile ↦ (hs.kept id folder hfolder hopen file hfile).2.2
  cases h with
  | detach id folder hfolder hopen gone hgone honce jobs horders =>
    exact hmore (some id) gone jobs horders honce
      fun file hfile ↦ hkept id folder hfolder hopen file (hgone hfile)
  | close id folder hfolder hopen jobs horders =>
    exact hmore (some id) folder.files jobs horders (hs.nodup id folder hfolder)
      (hkept id folder hfolder hopen)
  | sweep files _ _ hjobless honce jobs horders =>
    exact hmore none files jobs horders honce hjobless
  | settle id =>
    have hfiles : RemovalJob.file ∘ RemovalJob.finish id =
        (RemovalJob.file : RemovalJob κ ι φ → φ) :=
      funext fun job ↦ job.file_finish id
    rw [List.map_map, hfiles]
    exact hs.single
  | remove id =>
    rw [List.map_map]
    exact hs.single
  | _ => exact hs.single

theorem Sound.done_move (hs : v.Sound) (h : Move v v') :
    ∀ job ∈ v'.jobs, job.done = true → job.file ∈ v'.unlinked := by
  intro job hjob hdone
  cases h with
  | discard => exact Set.mem_insert_of_mem _ (hs.done job hjob hdone)
  | detach id owner howner _ gone hgone honce jobs horders =>
    rcases List.mem_append.mp hjob with hold | hnew
    · exact hs.done job hold hdone
    · rw [horders.undone job hnew] at hdone
      cases hdone
  | close id owner howner _ jobs horders =>
    rcases List.mem_append.mp hjob with hold | hnew
    · exact hs.done job hold hdone
    · rw [horders.undone job hnew] at hdone
      cases hdone
  | sweep files hlisted hunowned hjobless honce jobs horders =>
    rcases List.mem_append.mp hjob with hold | hnew
    · exact hs.done job hold hdone
    · rw [horders.undone job hnew] at hdone
      cases hdone
  | unlink => exact Set.mem_insert_of_mem _ (hs.done job hjob hdone)
  | settle id hunlinked =>
    obtain ⟨earlier, hearlier, rfl⟩ := List.mem_map.mp hjob
    rw [earlier.file_finish]
    by_cases hid : earlier.id = id
    · exact hunlinked earlier hearlier hid
    · unfold RemovalJob.finish at hdone
      rw [if_neg hid] at hdone
      exact hs.done earlier hearlier hdone
  | remove =>
    obtain ⟨earlier, hearlier, rfl⟩ := List.mem_map.mp hjob
    exact hs.done earlier hearlier hdone
  | _ => exact hs.done job hjob hdone

/-- A folder that is there stays, until it is removed, and then no job names it. -/
theorem Sound.owner_move (hs : v.Sound) (h : Move v v') :
    ∀ job ∈ v'.jobs, ∀ id, job.owner = some id → ∃ folder, v'.folders id = some folder := by
  intro job hjob id' howner
  have hset : ∀ (id : κ) (folder : Folder φ), (∃ other, v.folders id' = some other) →
      ∃ other, (v.setFolder id folder).folders id' = some other := by
    rintro id folder ⟨other, hother⟩
    by_cases hid : id' = id
    · exact ⟨folder, folders_setFolder.mpr (Or.inl ⟨hid, rfl⟩)⟩
    · exact ⟨other, folders_setFolder.mpr (Or.inr ⟨hid, hother⟩)⟩
  cases h with
  | create folders hfolders =>
    obtain ⟨folder, hfolder⟩ := hs.owner job hjob id' howner
    rcases hfolders id' with hsame | ⟨hnone, -⟩
    · exact ⟨folder, hsame.trans hfolder⟩
    · rw [hfolder] at hnone
      cases hnone
  | attach id folder => exact hset id _ (hs.owner job hjob id' howner)
  | detach id folder hfolder _ gone hgone honce jobs horders =>
    rcases List.mem_append.mp hjob with hold | hnew
    · exact hset id _ (hs.owner job hold id' howner)
    · obtain rfl := Option.some.inj ((horders.owner job hnew).symm.trans howner)
      exact hset id _ ⟨folder, hfolder⟩
  | close id folder hfolder _ jobs horders =>
    rcases List.mem_append.mp hjob with hold | hnew
    · exact hset id _ (hs.owner job hold id' howner)
    · obtain rfl := Option.some.inj ((horders.owner job hnew).symm.trans howner)
      exact hset id _ ⟨folder, hfolder⟩
  | sweep files hlisted hunowned hjobless honce jobs horders =>
    rcases List.mem_append.mp hjob with hold | hnew
    · exact hs.owner job hold id' howner
    · cases (horders.owner job hnew).symm.trans howner
  | settle id =>
    obtain ⟨earlier, hearlier, rfl⟩ := List.mem_map.mp hjob
    exact hs.owner earlier hearlier id' ((earlier.owner_finish id).symm.trans howner)
  | remove id =>
    obtain ⟨earlier, hearlier, rfl⟩ := List.mem_map.mp hjob
    obtain ⟨howner, hne⟩ := RemovalJob.owner_orphan.mp howner
    obtain ⟨folder, hfolder⟩ := hs.owner earlier hearlier id' howner
    exact ⟨folder, folders_remove.mpr ⟨hne, hfolder⟩⟩
  | _ => exact hs.owner job hjob id' howner

theorem Move.written_mono (h : Move v v') : v.written ⊆ v'.written := by
  cases h with
  | write => exact Set.subset_insert _ _
  | leave => exact Set.subset_insert _ _
  | _ => exact subset_rfl

/-- What is known of afterwards was written before, or is written now. -/
theorem Sound.known_move (hs : v.Sound) (h : Move v v') :
    ∀ file, v'.Known file → file ∈ v'.written := by
  have howned : ∀ id folder, v.folders id = some folder → ∀ file ∈ folder.files, file ∈ v.written :=
    fun id folder hfolder file hfile ↦
      hs.known file (Or.inr (Or.inr (Or.inr (Or.inl ⟨id, folder, hfolder, hfile⟩))))
  have hdisk : ∀ file ∈ v.disk, file ∈ v.written := fun file hfile ↦ hs.known file (Or.inl hfile)
  have hunlinked : ∀ file ∈ v.unlinked, file ∈ v.written :=
    fun file hfile ↦ hs.known file (Or.inr (Or.inl hfile))
  have hlisted : ∀ file ∈ v.listed, file ∈ v.written :=
    fun file hfile ↦ hs.known file (Or.inr (Or.inr (Or.inl hfile)))
  have hjobs : ∀ job ∈ v.jobs, job.file ∈ v.written :=
    fun job hjob ↦ hs.known job.file (Or.inr (Or.inr (Or.inr (Or.inr ⟨job, hjob, rfl⟩))))
  rintro file (hfile | hfile | hfile | ⟨id, folder, hfolder, hfile⟩ | ⟨job, hjob, rfl⟩)
  · cases h with
    | write => exact Set.insert_subset_insert hdisk hfile
    | leave => exact Set.insert_subset_insert hdisk hfile
    | discard => exact hdisk file hfile.1
    | unlink => exact hdisk file hfile.1
    | _ => exact hdisk file hfile
  · refine h.written_mono ?_
    cases h with
    | discard draft hdraft =>
      rcases hfile with rfl | hfile
      · exact (hs.drafts file hdraft).written
      · exact hunlinked file hfile
    | unlink job hjob =>
      rcases hfile with rfl | hfile
      · exact hjobs job hjob
      · exact hunlinked file hfile
    | _ => exact hunlinked file hfile
  · refine h.written_mono ?_
    cases h with
    | list found hfound =>
      rcases hfile with hfile | hfile
      · exact hlisted file hfile
      · exact hdisk file (hfound hfile)
    | forget listed hsubset => exact hlisted file (hsubset hfile)
    | _ => exact hlisted file hfile
  · refine h.written_mono ?_
    rcases hs.file_origin h hfolder hfile with ⟨before, hbefore, hmem, -⟩ | ⟨hdraft, -⟩
    · exact howned id before hbefore file hmem
    · exact (hs.drafts file hdraft).written
  · refine h.written_mono ?_
    cases h with
    | detach id folder hfolder _ gone hgone honce jobs horders =>
      rcases List.mem_append.mp hjob with hold | hnew
      · exact hjobs job hold
      · exact howned id folder hfolder _ (hgone (horders.mem hnew))
    | close id folder hfolder _ jobs horders =>
      rcases List.mem_append.mp hjob with hold | hnew
      · exact hjobs job hold
      · exact howned id folder hfolder _ (horders.mem hnew)
    | sweep files hfound hunowned hjobless honce jobs horders =>
      rcases List.mem_append.mp hjob with hold | hnew
      · exact hjobs job hold
      · exact hlisted _ (hfound _ (horders.mem hnew))
    | settle id =>
      obtain ⟨earlier, hearlier, rfl⟩ := List.mem_map.mp hjob
      rw [earlier.file_finish]
      exact hjobs earlier hearlier
    | remove =>
      obtain ⟨earlier, hearlier, rfl⟩ := List.mem_map.mp hjob
      exact hjobs earlier hearlier
    | _ => exact hjobs job hjob

/-- A draft was a draft before, or is written now; and it is still unknown. -/
theorem Sound.drafts_move (hs : v.Sound) (h : Move v v') : ∀ file ∈ v'.drafts, v'.IsDraft file := by
  intro file hfile
  have howned : ∀ id folder, v.folders id = some folder → ∀ other ∈ folder.files,
      file ∈ v.drafts → other ≠ file := by
    rintro id folder hfolder other hother hdraft rfl
    exact (hs.drafts other hdraft).unowned id folder hfolder hother
  cases h with
  | create folders hfolders =>
    obtain ⟨hthere, hwritten, hunlinked, hlisted, hunowned, hjobless⟩ := hs.drafts file hfile
    refine ⟨hthere, hwritten, hunlinked, hlisted, fun id folder hfolder ↦ ?_, hjobless⟩
    rcases hfolders id with hsame | ⟨-, hnew⟩
    · exact hunowned id folder (hsame.symm.trans hfolder)
    · obtain rfl := Option.some.inj (hnew.symm.trans hfolder)
      exact List.not_mem_nil
  | write new hnew =>
    rcases hfile with rfl | hfile
    · refine ⟨Set.mem_insert _ _, Set.mem_insert _ _,
        fun h ↦ hnew (hs.known file (Or.inr (Or.inl h))),
        fun h ↦ hnew (hs.known file (Or.inr (Or.inr (Or.inl h)))), fun id folder hfolder h ↦ ?_,
        fun job hjob h ↦ ?_⟩
      · exact hnew (hs.known file (Or.inr (Or.inr (Or.inr (Or.inl ⟨id, folder, hfolder, h⟩)))))
      · exact hnew (hs.known file (Or.inr (Or.inr (Or.inr (Or.inr ⟨job, hjob, h⟩)))))
    · obtain ⟨hthere, hwritten, hunlinked, hlisted, hunowned, hjobless⟩ := hs.drafts file hfile
      exact ⟨Set.mem_insert_of_mem _ hthere, Set.mem_insert_of_mem _ hwritten, hunlinked, hlisted,
        hunowned, hjobless⟩
  | leave new hnew =>
    obtain ⟨hthere, hwritten, hunlinked, hlisted, hunowned, hjobless⟩ := hs.drafts file hfile
    exact ⟨Set.mem_insert_of_mem _ hthere, Set.mem_insert_of_mem _ hwritten, hunlinked, hlisted,
      hunowned, hjobless⟩
  | abandon =>
    obtain ⟨hthere, hwritten, hunlinked, hlisted, hunowned, hjobless⟩ := hs.drafts file hfile.1
    exact ⟨hthere, hwritten, hunlinked, hlisted, hunowned, hjobless⟩
  | discard draft =>
    obtain ⟨hdraft, hne⟩ := hfile
    obtain ⟨hthere, hwritten, hunlinked, hlisted, hunowned, hjobless⟩ := hs.drafts file hdraft
    exact ⟨⟨hthere, hne⟩, hwritten, fun h ↦ h.elim hne hunlinked, hlisted, hunowned, hjobless⟩
  | attach id folder hfolder hopen draft hdraft =>
    obtain ⟨hfile, hne⟩ := hfile
    obtain ⟨hthere, hwritten, hunlinked, hlisted, hunowned, hjobless⟩ := hs.drafts file hfile
    refine ⟨hthere, hwritten, hunlinked, hlisted, fun id' other hother hmem ↦ ?_, hjobless⟩
    rcases folders_setFolder.mp hother with ⟨-, rfl⟩ | ⟨-, hold⟩
    · rcases List.mem_append.mp hmem with hold | hlast
      · exact hunowned id folder hfolder hold
      · exact hne (List.mem_singleton.mp hlast)
    · exact hunowned id' other hold hmem
  | detach id folder hfolder _ gone hgone honce jobs horders =>
    obtain ⟨hthere, hwritten, hunlinked, hlisted, hunowned, hjobless⟩ := hs.drafts file hfile
    refine ⟨hthere, hwritten, hunlinked, hlisted, fun id' other hother hmem ↦ ?_, fun job hjob ↦ ?_⟩
    · rcases folders_setFolder.mp hother with ⟨-, rfl⟩ | ⟨-, hold⟩
      · exact hunowned id folder hfolder (List.mem_filter.mp hmem).1
      · exact hunowned id' other hold hmem
    · rcases List.mem_append.mp hjob with hold | hnew
      · exact hjobless job hold
      · exact howned id folder hfolder _ (hgone (horders.mem hnew)) hfile
  | close id folder hfolder _ jobs horders =>
    obtain ⟨hthere, hwritten, hunlinked, hlisted, hunowned, hjobless⟩ := hs.drafts file hfile
    refine ⟨hthere, hwritten, hunlinked, hlisted, fun id' other hother hmem ↦ ?_, fun job hjob ↦ ?_⟩
    · rcases folders_setFolder.mp hother with ⟨-, rfl⟩ | ⟨-, hold⟩
      · exact hunowned id folder hfolder hmem
      · exact hunowned id' other hold hmem
    · rcases List.mem_append.mp hjob with hold | hnew
      · exact hjobless job hold
      · exact howned id folder hfolder _ (horders.mem hnew) hfile
  | list found hfound hdrafts =>
    obtain ⟨hthere, hwritten, hunlinked, hlisted, hunowned, hjobless⟩ := hs.drafts file hfile
    exact ⟨hthere, hwritten, hunlinked, fun h ↦ h.elim hlisted fun h ↦ hdrafts file h hfile,
      hunowned, hjobless⟩
  | forget listed hsubset =>
    obtain ⟨hthere, hwritten, hunlinked, hlisted, hunowned, hjobless⟩ := hs.drafts file hfile
    exact ⟨hthere, hwritten, hunlinked, fun h ↦ hlisted (hsubset h), hunowned, hjobless⟩
  | sweep files hlisted _ _ _ jobs horders =>
    obtain ⟨hthere, hwritten, hunlinked, hnot, hunowned, hjobless⟩ := hs.drafts file hfile
    refine ⟨hthere, hwritten, hunlinked, hnot, hunowned, fun job hjob ↦ ?_⟩
    rcases List.mem_append.mp hjob with hold | hnew
    · exact hjobless job hold
    · rintro rfl
      exact hnot (hlisted _ (horders.mem hnew))
  | unlink job hjob =>
    obtain ⟨hthere, hwritten, hunlinked, hlisted, hunowned, hjobless⟩ := hs.drafts file hfile
    have hne : file ≠ job.file := (hjobless job hjob).symm
    exact ⟨⟨hthere, hne⟩, hwritten, fun h ↦ h.elim hne hunlinked, hlisted, hunowned, hjobless⟩
  | settle id =>
    obtain ⟨hthere, hwritten, hunlinked, hlisted, hunowned, hjobless⟩ := hs.drafts file hfile
    refine ⟨hthere, hwritten, hunlinked, hlisted, hunowned, fun job hjob ↦ ?_⟩
    obtain ⟨earlier, hearlier, rfl⟩ := List.mem_map.mp hjob
    rw [earlier.file_finish]
    exact hjobless earlier hearlier
  | remove id =>
    obtain ⟨hthere, hwritten, hunlinked, hlisted, hunowned, hjobless⟩ := hs.drafts file hfile
    refine ⟨hthere, hwritten, hunlinked, hlisted, fun id' other hother ↦ ?_, fun job hjob ↦ ?_⟩
    · exact hunowned id' other (folders_remove.mp hother).2
    · obtain ⟨earlier, hearlier, rfl⟩ := List.mem_map.mp hjob
      exact hjobless earlier hearlier

/-- A name is written once, so a file that was unlinked does not come back. -/
theorem Sound.gone_move (hs : v.Sound) (h : Move v v') : ∀ file ∈ v'.unlinked, file ∉ v'.disk := by
  have hnew : ∀ new ∉ v.written, ∀ file ∈ v.unlinked, file ∉ insert new v.disk := by
    rintro new hnew file hfile (rfl | hdisk)
    · exact hnew (hs.known file (Or.inr (Or.inl hfile)))
    · exact hs.gone file hfile hdisk
  intro file hfile
  cases h with
  | write new hwritten => exact hnew new hwritten file hfile
  | leave new hwritten => exact hnew new hwritten file hfile
  | discard => exact fun hdisk ↦ hfile.elim hdisk.2 fun hold ↦ hs.gone file hold hdisk.1
  | unlink => exact fun hdisk ↦ hfile.elim hdisk.2 fun hold ↦ hs.gone file hold hdisk.1
  | _ => exact hs.gone file hfile

/-! ### Every run of events -/

/-- Every event keeps the invariant. -/
theorem Sound.move (hs : v.Sound) (h : Move v v') : v'.Sound :=
  ⟨hs.nodup_move h, hs.apart_move h, hs.kept_move h, hs.owed_move h, hs.single_move h,
    hs.done_move h, hs.owner_move h, hs.drafts_move h, hs.known_move h, hs.gone_move h⟩

theorem Move.unlinked_mono (h : Move v v') : v.unlinked ⊆ v'.unlinked := by
  cases h with
  | discard => exact Set.subset_insert _ _
  | unlink => exact Set.subset_insert _ _
  | _ => exact subset_rfl

/-- An event loses no file that a folder owned. -/
theorem Tracks.move (h : Tracks id file v) (hs : v.Sound) (hmove : Move v v') :
    Tracks id file v' := by
  have hjob : ∀ job ∈ v.jobs, job.file = file → job.owner = some id → Tracks id file v' := by
    rintro job hjob rfl howner
    rcases hmove.job_kept hjob howner with hlater | ⟨-, hdone⟩
    · exact Or.inr (Or.inl hlater)
    · exact Or.inr (Or.inr (hmove.unlinked_mono (hs.done job hjob hdone)))
  rcases h with ⟨folder, hfolder, hfile⟩ | ⟨job, hmem, hsame, howner⟩ | hunlinked
  · have hset : ∀ (id' : κ) (other : Folder φ), (id = id' → file ∈ other.files) →
        ∃ later, (v.setFolder id' other).folders id = some later ∧ file ∈ later.files := by
      intro id' other hother
      by_cases hid : id = id'
      · exact ⟨other, folders_setFolder.mpr (Or.inl ⟨hid, rfl⟩), hother hid⟩
      · exact ⟨folder, folders_setFolder.mpr (Or.inr ⟨hid, hfolder⟩), hfile⟩
    cases hmove with
    | create folders hfolders =>
      rcases hfolders id with hsame | ⟨hnone, -⟩
      · exact Or.inl ⟨folder, hsame.trans hfolder, hfile⟩
      · rw [hfolder] at hnone
        cases hnone
    | attach id' owner howner =>
      refine Or.inl (hset id' _ fun hid ↦ List.mem_append_left _ ?_)
      rw [hid, howner] at hfolder
      exact Option.some.inj hfolder ▸ hfile
    | detach id' owner howner hopen gone hgone honce jobs horders =>
      by_cases hgiven : id = id' ∧ file ∈ gone
      · obtain ⟨rfl, hgiven⟩ := hgiven
        obtain ⟨job, hmem, hsame, hown⟩ := horders.exists_job hgiven
        exact Or.inr (Or.inl ⟨job, List.mem_append_right _ hmem, hsame, hown⟩)
      · refine Or.inl (hset id' _ fun hid ↦ List.mem_filter.mpr ⟨?_, ?_⟩)
        · rw [hid, howner] at hfolder
          exact Option.some.inj hfolder ▸ hfile
        · exact decide_eq_true fun hmem ↦ hgiven ⟨hid, hmem⟩
    | close id' owner howner =>
      refine Or.inl (hset id' _ fun hid ↦ ?_)
      rw [hid, howner] at hfolder
      exact Option.some.inj hfolder ▸ hfile
    | remove id' owner howner hclosing hdone =>
      by_cases hid : id = id'
      · obtain rfl := hid
        rw [howner] at hfolder
        obtain rfl := Option.some.inj hfolder
        obtain ⟨job, hmem, rfl, hown⟩ := hs.owed id owner howner hclosing file hfile
        exact Or.inr (Or.inr (hs.done job hmem (hdone job hmem hown)))
      · exact Or.inl ⟨folder, folders_remove.mpr ⟨hid, hfolder⟩, hfile⟩
    | _ => exact Or.inl ⟨folder, hfolder, hfile⟩
  · exact hjob job hmem hsame howner
  · exact Or.inr (Or.inr (hmove.unlinked_mono hunlinked))

theorem Sound.moves (hs : v.Sound) (h : Moves v v') : v'.Sound := by
  induction h with
  | refl => exact hs
  | tail _ hmove ih => exact ih.move hmove

theorem Tracks.moves (h : Tracks id file v) (hs : v.Sound) (hmoves : Moves v v') :
    Tracks id file v' := by
  induction hmoves with
  | refl => exact h
  | tail hbefore hmove ih => exact ih.move (hs.moves hbefore) hmove

/-- A folder is gone only when all that it ever owned was unlinked. -/
theorem Sound.unlinked_of_gone (hs : v.Sound) (h : Tracks id file v) (hgone : v.folders id = none) :
    file ∈ v.unlinked := by
  rcases h with ⟨folder, hfolder, -⟩ | ⟨job, hjob, -, howner⟩ | hunlinked
  · rw [hgone] at hfolder
    cases hfolder
  · obtain ⟨folder, hfolder⟩ := hs.owner job hjob id howner
    rw [hgone] at hfolder
    cases hfolder
  · exact hunlinked

end Vault

end FilmOS
