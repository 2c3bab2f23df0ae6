import ManifestCV.Foundation.Text
import Mathlib.Data.List.Nodup

namespace ManifestCV.Workspace

open Foundation

inductive WorkspaceStatus where
  | draft
  | approved
  deriving DecidableEq

inductive ChangeKind where
  | manualEdit
  | templateChange
  | layoutChange
  | restored
  | generated
  | aiRefinement
  deriving DecidableEq

inductive JobKind where
  | generate
  | render
  deriving DecidableEq

inductive JobStatus where
  | queued
  | running
  | succeeded
  | failed
  deriving DecidableEq

inductive ApplicationStatus where
  | applied
  | interviewing
  | offered
  | rejected
  deriving DecidableEq

structure ResumeWorkspace where
  id : Nat
  userId : Nat
  templateKey : Str
  status : WorkspaceStatus
  currentRevisionId : Option Nat
  deriving DecidableEq

structure ResumeRevision where
  id : Nat
  workspaceId : Nat
  revisionNumber : Nat
  documentJson : Str
  contentHash : Str
  changeKind : ChangeKind
  deriving DecidableEq

structure ResumeJob where
  id : Nat
  userId : Nat
  workspaceId : Nat
  kind : JobKind
  status : JobStatus
  resultRevisionId : Option Nat
  /-- `error_code` and `error_message`. -/
  error : Option (Str × Str)
  deriving DecidableEq

structure ResumeRenderArtifact where
  id : Nat
  revisionId : Nat
  storageKey : Str
  byteSize : Nat
  sha256 : Str
  deriving DecidableEq

structure ApplicationFields where
  companyName : Str
  role : Option Str
  applicationDate : Nat
  applicationTime : Option Nat
  status : ApplicationStatus
  deriving DecidableEq

structure ApplicationSnapshot where
  resumeContentSnapshot : Str
  templateIdSnapshot : Str
  templateVersionSnapshot : Str
  pdfSnapshot : List UInt8
  documentSnapshot : Str
  pdfStorageKeySnapshot : Str
  pdfSha256Snapshot : Str
  deriving DecidableEq

structure ApplicationRecord extends ApplicationFields, ApplicationSnapshot where
  id : Nat
  userId : Nat
  resumeWorkspaceId : Option Nat
  resumeRevisionId : Option Nat
  deriving DecidableEq

/-- One entry of `update_data`: a field of `ApplicationUpdate` with the value it was given, `none` for
    null. -/
inductive Attribute where
  | companyName (value : Option Str)
  | applicationDate (value : Option Nat)
  | applicationTime (value : Option Nat)
  | status (value : Option ApplicationStatus)
  deriving DecidableEq

/-- A null in a column that admits none fails the statement before it is applied. -/
def ApplicationRecord.setattr (row : ApplicationRecord) : Attribute → ApplicationRecord
  | .companyName value => { row with companyName := value.getD row.companyName }
  | .applicationDate value => { row with applicationDate := value.getD row.applicationDate }
  | .applicationTime value => { row with applicationTime := value }
  | .status value => { row with status := value.getD row.status }

/-- The value fits the column, `nullable=False` but for the time. -/
def Attribute.storable : Attribute → Bool
  | .companyName value => value.isSome
  | .applicationDate value => value.isSome
  | .applicationTime _ => true
  | .status value => value.isSome

structure Database where
  workspaces : List ResumeWorkspace
  revisions : List ResumeRevision
  jobs : List ResumeJob
  artifacts : List ResumeRenderArtifact
  applications : List ApplicationRecord

def Database.empty : Database := ⟨[], [], [], [], []⟩

/-- The columns an UPDATE of a job sets; `none` is a column it leaves alone. -/
structure JobUpdate where
  status : JobStatus
  resultRevisionId : Option Nat
  error : Option (Str × Str)
  deriving DecidableEq

/-- One INSERT, UPDATE or DELETE. The DELETE of a workspace is two steps: it locks the row, and then follows
    the foreign keys to the rows below. A row that belongs to a workspace through another row names that
    workspace too, since the second step reaches it. -/
inductive Write where
  | insertWorkspace (row : ResumeWorkspace)
  | insertRevision (row : ResumeRevision)
  | insertJob (row : ResumeJob)
  | insertArtifact (workspaceId : Nat) (row : ResumeRenderArtifact)
  | insertApplication (row : ApplicationRecord)
  | setCurrentRevision (workspaceId revisionId : Nat)
  | setStatus (workspaceId : Nat) (status : WorkspaceStatus)
  | lockWorkspace (workspaceId : Nat)
  | deleteWorkspace (workspaceId : Nat)
  | updateJob (workspaceId jobId : Nat) (update : JobUpdate)
  | updateApplication (applicationId : Nat) (changes : List Attribute)
  | deleteApplication (applicationId : Nat)
  deriving DecidableEq

def lastBy {α : Type} (key : α → Nat) (rows : List α) : Option α :=
  rows.foldl (fun best row =>
    match best with
    | none => some row
    | some other => if key other < key row then some row else best) none

namespace Database

variable (db : Database)

def workspace? (id : Nat) : Option ResumeWorkspace := db.workspaces.find? (·.id = id)

def revision? (id : Nat) : Option ResumeRevision := db.revisions.find? (·.id = id)

def job? (id : Nat) : Option ResumeJob := db.jobs.find? (·.id = id)

def application? (applicationId userId : Nat) : Option ApplicationRecord :=
  db.applications.find? fun row => row.id = applicationId ∧ row.userId = userId

def owned? (workspaceId userId : Nat) : Option ResumeWorkspace :=
  db.workspaces.find? fun row => row.id = workspaceId ∧ row.userId = userId

def history (workspaceId : Nat) : List ResumeRevision := db.revisions.filter (·.workspaceId = workspaceId)

def latestRevision? (workspaceId : Nat) : Option ResumeRevision :=
  lastBy (·.revisionNumber) (db.history workspaceId)

def artifact? (revisionId : Nat) : Option ResumeRenderArtifact :=
  lastBy (·.id) (db.artifacts.filter (·.revisionId = revisionId))

end Database

def ResumeJob.set (job : ResumeJob) (update : JobUpdate) : ResumeJob :=
  { job with
    status := update.status
    resultRevisionId := update.resultRevisionId.or job.resultRevisionId
    error := update.error.or job.error }

def keepReference (gone : Nat → Bool) (reference : Option Nat) : Option Nat := reference.filter (!gone ·)

/-- DELETE of a workspace with what its foreign keys cascade to. -/
def Database.delete (db : Database) (workspaceId : Nat) : Database :=
  let gone : Nat → Bool := fun id => (db.history workspaceId).any (·.id = id)
  { workspaces := db.workspaces.filter (·.id ≠ workspaceId)
    revisions := db.revisions.filter (·.workspaceId ≠ workspaceId)
    jobs := (db.jobs.filter (·.workspaceId ≠ workspaceId)).map fun job =>
      { job with resultRevisionId := keepReference gone job.resultRevisionId }
    artifacts := db.artifacts.filter fun artifact => !gone artifact.revisionId
    applications := db.applications.map fun application =>
      { application with
        resumeWorkspaceId := keepReference (· = workspaceId) application.resumeWorkspaceId
        resumeRevisionId := keepReference gone application.resumeRevisionId } }

def Database.setWorkspace (db : Database) (workspaceId : Nat) (set : ResumeWorkspace → ResumeWorkspace) :
    Database :=
  { db with workspaces := db.workspaces.map fun row => if row.id = workspaceId then set row else row }

def applyWrite (db : Database) : Write → Database
  | .insertWorkspace row => { db with workspaces := db.workspaces ++ [row] }
  | .insertRevision row => { db with revisions := db.revisions ++ [row] }
  | .insertJob row => { db with jobs := db.jobs ++ [row] }
  | .insertArtifact _ row => { db with artifacts := db.artifacts ++ [row] }
  | .insertApplication row => { db with applications := db.applications ++ [row] }
  | .setCurrentRevision workspaceId revisionId =>
    db.setWorkspace workspaceId fun row => { row with currentRevisionId := some revisionId }
  | .setStatus workspaceId status => db.setWorkspace workspaceId fun row => { row with status }
  | .lockWorkspace _ => db
  | .deleteWorkspace workspaceId => db.delete workspaceId
  | .updateJob _ jobId update =>
    { db with jobs := db.jobs.map fun row => if row.id = jobId then row.set update else row }
  | .updateApplication applicationId changes =>
    { db with applications := db.applications.map fun row =>
        if row.id = applicationId then changes.foldl ApplicationRecord.setattr row else row }
  | .deleteApplication applicationId =>
      { db with applications := db.applications.filter (·.id ≠ applicationId) }

def admitsWrite (db : Database) : Write → Bool
  | .insertWorkspace row => db.workspaces.all (·.id ≠ row.id)
  | .insertRevision row =>
    db.revisions.all (fun other => other.id ≠ row.id) && (db.workspace? row.workspaceId).isSome &&
      (db.history row.workspaceId).all (·.revisionNumber ≠ row.revisionNumber)
  | .insertJob row => db.jobs.all (·.id ≠ row.id) && (db.workspace? row.workspaceId).isSome
  | .insertArtifact _ row =>
    db.artifacts.all (fun other => other.id ≠ row.id && other.storageKey ≠ row.storageKey) &&
      (db.revision? row.revisionId).isSome
  | .insertApplication row =>
    db.applications.all (·.id ≠ row.id) && row.resumeWorkspaceId.all (fun id => (db.workspace? id).isSome) &&
      row.resumeRevisionId.all fun id => (db.revision? id).isSome
  | .setCurrentRevision workspaceId _ => (db.workspace? workspaceId).isSome
  | .setStatus workspaceId _ => (db.workspace? workspaceId).isSome
  | .lockWorkspace _ => true
  | .deleteWorkspace _ => true
  | .updateJob _ jobId update =>
    (db.job? jobId).isSome && update.resultRevisionId.all fun id => (db.revision? id).isSome
  | .updateApplication applicationId changes => db.applications.any (·.id = applicationId) &&
      changes.all Attribute.storable
  | .deleteApplication _ => true

def Write.parent : Write → Option Nat
  | .insertWorkspace row => some row.id
  | .insertRevision row => some row.workspaceId
  | .insertJob row => some row.workspaceId
  | .insertArtifact _ _ => none
  | .insertApplication row => row.resumeWorkspaceId
  | .setCurrentRevision workspaceId _ => some workspaceId
  | .setStatus workspaceId _ => some workspaceId
  | .lockWorkspace workspaceId => some workspaceId
  | .deleteWorkspace workspaceId => some workspaceId
  | .updateJob _ _ _ => none
  | .updateApplication _ _ => none
  | .deleteApplication _ => none

/-- The workspace of which a write locks the row or a row below: an artifact's foreign key locks its
    revision. -/
def Write.within : Write → Option Nat
  | .insertArtifact workspaceId _ => some workspaceId
  | .updateJob workspaceId _ _ => some workspaceId
  | w => w.parent

def Write.updated : Write → Option Nat
  | .setCurrentRevision workspaceId _ => some workspaceId
  | .setStatus workspaceId _ => some workspaceId
  | _ => none

def locks : Write → Write → Bool
  | .lockWorkspace id, other => other.parent = some id
  | .deleteWorkspace id, other => other.within = some id
  | .insertWorkspace row, .insertWorkspace other => row.id = other.id
  | .insertRevision row, .insertRevision other =>
    row.id = other.id || (row.workspaceId = other.workspaceId && row.revisionNumber = other.revisionNumber)
  | .insertJob row, .insertJob other => row.id = other.id
  | .insertArtifact _ row, .insertArtifact _ other => row.id = other.id || row.storageKey = other.storageKey
  | .insertApplication row, .insertApplication other => row.id = other.id
  | .updateJob _ job _, .updateJob _ other _ => job = other
  | .updateApplication id _, .updateApplication other _ => id = other
  | .deleteApplication id, .updateApplication other _ => id = other
  | .deleteApplication id, .deleteApplication other => id = other
  | mine, other => mine.updated.isSome && mine.updated = other.updated

def conflicts (mine other : Write) : Bool := locks mine other || locks other mine

theorem setattr_kept (row : ApplicationRecord) (changes : List Attribute) :
    ∃ fields, changes.foldl ApplicationRecord.setattr row = { row with toApplicationFields := fields } := by
  induction changes generalizing row with
  | nil => exact ⟨row.toApplicationFields, rfl⟩
  | cons change changes ih =>
    obtain ⟨fields, same⟩ := ih (row.setattr change)
    refine ⟨fields, same.trans ?_⟩
    cases change <;> rfl

@[simp] theorem mem_history {db : Database} {workspaceId : Nat} {row : ResumeRevision} :
    row ∈ db.history workspaceId ↔ row ∈ db.revisions ∧ row.workspaceId = workspaceId := by
  simp [Database.history]

theorem workspace?_some {db : Database} {id : Nat} {row : ResumeWorkspace}
    (found : db.workspace? id = some row) :
    row ∈ db.workspaces ∧ row.id = id := by
  have matched := List.find?_some found
  exact ⟨List.mem_of_find?_eq_some found, of_decide_eq_true matched⟩

theorem workspace?_none {db : Database} {id : Nat} :
    db.workspace? id = none ↔ ∀ row ∈ db.workspaces, row.id ≠ id := by
  simp [Database.workspace?]

theorem revision?_some {db : Database} {id : Nat} {row : ResumeRevision}
    (found : db.revision? id = some row) :
    row ∈ db.revisions ∧ row.id = id := by
  have matched := List.find?_some found
  exact ⟨List.mem_of_find?_eq_some found, of_decide_eq_true matched⟩

theorem pointed_some {db : Database} {pointer : Option Nat} {source : ResumeRevision}
    (found : pointer.bind db.revision? = some source) : source ∈ db.revisions ∧ pointer = some source.id := by
  obtain ⟨id, same, found⟩ := Option.bind_eq_some_iff.mp found
  obtain ⟨member, named⟩ := revision?_some found
  exact ⟨member, same.trans (congrArg some named.symm)⟩

theorem owned?_some {db : Database} {workspaceId userId : Nat} {row : ResumeWorkspace}
    (found : db.owned? workspaceId userId = some row) :
    row ∈ db.workspaces ∧ row.id = workspaceId ∧ row.userId = userId := by
  have matched := List.find?_some found
  simp only [decide_eq_true_eq] at matched
  exact ⟨List.mem_of_find?_eq_some found, matched⟩

theorem application?_some {db : Database} {applicationId userId : Nat} {row : ApplicationRecord}
    (found : db.application? applicationId userId = some row) :
    row ∈ db.applications ∧ row.id = applicationId ∧ row.userId = userId := by
  have matched := List.find?_some found
  simp only [decide_eq_true_eq] at matched
  exact ⟨List.mem_of_find?_eq_some found, matched⟩

theorem workspace?_of_mem {db : Database} (unique : (db.workspaces.map (·.id)).Nodup) {row : ResumeWorkspace}
    (member : row ∈ db.workspaces) : db.workspace? row.id = some row := by
  cases found : db.workspace? row.id with
  | none => exact absurd rfl (workspace?_none.mp found row member)
  | some other =>
    obtain ⟨inside, same⟩ := workspace?_some found
    rw [List.inj_on_of_nodup_map unique inside member same]

theorem revision?_of_mem {db : Database} (unique : (db.revisions.map (·.id)).Nodup) {row : ResumeRevision}
    (member : row ∈ db.revisions) : db.revision? row.id = some row := by
  cases found : db.revision? row.id with
  | none => simp [Database.revision?, List.find?_eq_none] at found; exact absurd rfl (found row member)
  | some other =>
    obtain ⟨inside, same⟩ := revision?_some found
    rw [List.inj_on_of_nodup_map unique inside member same]

theorem lastBy_mem {α : Type} {key : α → Nat} {rows : List α} {row : α} (found : lastBy key rows = some row) :
    row ∈ rows := by
  induction rows using List.reverseRecOn generalizing row with
  | nil => cases found
  | append_singleton rows new ih =>
    rw [lastBy, List.foldl_append] at found
    change (match lastBy key rows with
      | none => some new
      | some other => if key other < key new then some new else lastBy key rows) = some row at found
    cases before : lastBy key rows with
    | none =>
      rw [before] at found
      cases found
      exact List.mem_append_right _ List.mem_cons_self
    | some other =>
      simp only [before] at found
      split at found
      · cases found
        exact List.mem_append_right _ List.mem_cons_self
      · cases found
        exact List.mem_append_left _ (ih before)

theorem lastBy_none {α : Type} {key : α → Nat} {rows : List α} (missing : lastBy key rows = none) :
    rows = [] := by
  induction rows using List.reverseRecOn with
  | nil => rfl
  | append_singleton rows new _ =>
    rw [lastBy, List.foldl_append] at missing
    change (match lastBy key rows with
      | none => some new
      | some other => if key other < key new then some new else lastBy key rows) = none at missing
    cases before : lastBy key rows with
    | none =>
      rw [before] at missing
      cases missing
    | some other =>
      simp only [before] at missing
      split at missing <;> cases missing

theorem lastBy_append {α : Type} {key : α → Nat} {rows : List α} {new : α}
    (below : ∀ row ∈ rows, key row < key new) :
    lastBy key (rows ++ [new]) = some new := by
  rw [lastBy, List.foldl_append]
  change (match lastBy key rows with
    | none => some new
    | some other => if key other < key new then some new else lastBy key rows) = some new
  cases before : lastBy key rows with
  | none => rfl
  | some other => exact if_pos (below other (lastBy_mem before))

theorem conflicts_symm (mine other : Write) : conflicts mine other = conflicts other mine := Bool.or_comm _ _

end ManifestCV.Workspace
