import ManifestCV.Workspace.Invariant

namespace ManifestCV.Workspace

open Foundation Document

inductive Refusal where
  | http (status : Nat) (detail : Str)
  | raised

abbrev Reply (α : Type) := Except Refusal α

def httpError {α : Type} (status : Nat) (detail : String) : Reply α := .error (.http status detail.toList)

def orElse {α β : Type} (found : Option α) (refusal : Reply β) (answer : α → Reply β) : Reply β :=
  match found with
  | none => refusal
  | some row => answer row

/-- A row the database returned, or an object made from it; the client sees both. -/
structure RevisionRead where
  row : ResumeRevision
  document : Json

structure Download where
  content : List UInt8
  filename : Str
  sha256 : Option Str

structure DocumentProposal where
  document : Json
  sourceRevisionId : Nat

def raised {α β : Type} (value : Option α) (answer : α → Reply β) : Reply β :=
  orElse value (.error .raised) answer

def readRevision (rt : Runtime) (revision : ResumeRevision) : Reply RevisionRead :=
  raised (loads rt.floats revision.documentJson) fun document => .ok ⟨revision, document⟩

/-- `ORDER BY … LIMIT … OFFSET …` in the order the database gives the rows. -/
def page {α : Type} (ordered : List α → List α) (limit offset : Nat) (rows : List α) : List α :=
  ((ordered rows).drop offset).take limit

section Workspaces

variable (rt : Runtime) (first second : Database) (userId workspaceId : Nat)

def listWorkspaces (ordered : List ResumeWorkspace → List ResumeWorkspace) (limit offset : Nat) :
    Reply (List ResumeWorkspace) :=
  .ok (page ordered limit offset (first.workspaces.filter (·.userId = userId)))

def owned : Reply ResumeWorkspace :=
  orElse (first.owned? workspaceId userId) (httpError 404 "Resume workspace not found") .ok

def getWorkspace : Reply (ResumeWorkspace × Option RevisionRead) := do
  let workspace ← owned first userId workspaceId
  -- the id 0 counts as none
  match (workspace.currentRevisionId.filter (· ≠ 0)).bind second.revision? with
  | none => .ok (workspace, none)
  | some revision =>
    let read ← readRevision rt revision
    .ok (workspace, some read)

def revisions : Reply (List RevisionRead) := do
  let workspace ← owned first userId workspaceId
  ((second.history workspace.id).mergeSort fun row other =>
    decide (other.revisionNumber ≤ row.revisionNumber)).mapM (readRevision rt)

def previewRefinement (input : Input) : Reply DocumentProposal := do
  let workspace ← owned first userId workspaceId
  if workspace.status = .approved then httpError 409 "Approved resumes are immutable"
  else
    orElse (workspace.currentRevisionId.bind second.revision?) (httpError 404 "Resume revision not found")
        fun revision =>
      match input with
      | .generated text =>
        orElse (loads rt.floats revision.documentJson) (httpError 502 "Resume refinement preview failed")
            fun current =>
          raised (structuredDocument rt text current) fun document =>
            match validateDocument rt document with
            | .error _ => httpError 502 "Resume refinement preview failed"
            | .ok document => .ok ⟨modelDump document, revision.id⟩
      | _ => httpError 502 "Resume refinement preview failed"

end Workspaces

section Jobs

variable (first second : Database) (userId jobId : Nat)

def jobOf? (db : Database) : Option ResumeJob := db.jobs.find? fun row => row.id = jobId ∧ row.userId = userId

def getGenerationJob : Reply ResumeJob :=
  orElse (jobOf? userId jobId first) (httpError 404 "Resume job not found") .ok

def downloadRenderJob (storage : List (Str × List UInt8)) (input : Input) : Reply Download :=
  orElse ((first.jobs.find? fun row => row.id = jobId ∧ row.userId = userId ∧ row.kind = .render))
    (httpError 404 "Resume export job not found") fun job =>
      match job.status, job.resultRevisionId with
      | .succeeded, some revisionId =>
        orElse (second.artifact? revisionId) (httpError 404 "Resume export artifact not found")
            fun artifact =>
          raised (getVerifiedBytes storage artifact.storageKey artifact.sha256 input) fun content =>
            .ok ⟨content, "resume-".toList ++ decimal job.workspaceId ++ ".pdf".toList, some artifact.sha256⟩
      | _, _ => httpError 409 "Resume export is not ready"

end Jobs

section Applications

variable (db : Database) (userId applicationId : Nat)

def listMyApplications (ordered : List ApplicationRecord → List ApplicationRecord) (limit offset : Nat) :
    Reply (List ApplicationRecord) :=
  .ok (page ordered limit offset (db.applications.filter (·.userId = userId)))

def getMyApplication : Reply ApplicationRecord :=
  orElse (db.application? applicationId userId) (httpError 404 "Application not found") .ok

def downloadMyApplicationPdf (storage : List (Str × List UInt8)) (input : Input) : Reply Download := do
  let application ← getMyApplication db userId applicationId
  let filename := "application-".toList ++ decimal applicationId ++ ".pdf".toList
  if application.pdfStorageKeySnapshot ≠ [] ∧ application.pdfSha256Snapshot ≠ [] then
    raised (getVerifiedBytes storage application.pdfStorageKeySnapshot application.pdfSha256Snapshot input)
        fun pdf =>
      .ok ⟨pdf, filename, none⟩
  else .ok ⟨application.pdfSnapshot, filename, none⟩

end Applications

end ManifestCV.Workspace
