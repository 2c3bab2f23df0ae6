import ManifestCV.Document.Generated
import ManifestCV.Document.Templates
import ManifestCV.Foundation.Sha256
import ManifestCV.Foundation.Transactions
import ManifestCV.Render.PdfDocument
import ManifestCV.Workspace.Tables

namespace ManifestCV.Workspace

open Foundation Foundation.Transactions Document Render

/-- The body of a save request as JSON gives it: no key twice in an object. A lone surrogate in a content
    string, which the schema lets through and no text encoding takes, is left out, as from every `Str`. -/
abbrev Payload := { document : Json // document.WellKeyed }

structure DocumentSave where
  document : Json
  expectedRevisionId : Option Nat
  changeKind : ChangeKind

inductive Call where
  | saveDocument (document : Payload) (expectedRevisionId : Option Nat) (changeKind : ChangeKind)
  | generateWorkspaceDocument
  | refineWorkspaceDocument
  | restoreRevision (revisionId : Nat)
  | approveWorkspace
  | deleteWorkspace
  | previewWorkspace
  | queueGenerationJob
  | queueExportJob
  | exportWorkspace
  | createApplication (fields : ApplicationFields)

structure ApplicationUpdate where
  companyName : Option (Option Str)
  applicationDate : Option (Option Nat)
  applicationTime : Option (Option Nat)
  status : Option (Option ApplicationStatus)

inductive ApplicationCall where
  | updateMyApplication (updateData : ApplicationUpdate)
  | deleteMyApplication

inductive Request where
  | createWorkspace (userId : Nat) (templateKey : Str)
  | owned (userId workspaceId : Nat) (call : Call)
  | application (userId applicationId : Nat) (call : ApplicationCall)
  | runGenerationJob (jobId : Nat)
  | runRenderJob (jobId : Nat)

inductive Caller where
  | client
  | generate (source : ResumeRevision)
  | refine (source : ResumeRevision)
  | restore (source : ResumeRevision)

inductive Writer where
  | create (workspace : ResumeWorkspace)
  | save (held : ResumeWorkspace) (caller : Caller) (payload : DocumentSave) (number : Nat)
  | worker (job : ResumeJob) (held : ResumeWorkspace) (source : ResumeRevision)

inductive Reader where
  | exportWorkspace
  | createApplication (fields : ApplicationFields)
  | renderJob (job : ResumeJob)

structure Rendering where
  artifact : ResumeRenderArtifact
  inserted : Bool
  pdf : List UInt8

/-- The writes of one transaction, for its last part: what was inserted, then the UPDATEs that
    the flush before the commit sends. -/
inductive Batch where
  | revision (writer : Writer) (revisionId : Nat) (text : Str)
  | approve (held : ResumeWorkspace)
  | delete (held : ResumeWorkspace)
  | queueJob (row : ResumeJob)
  | startJob (function : JobKind) (job : ResumeJob)
  | failJob (job : ResumeJob) (code message : Str)
  | exported (held : ResumeWorkspace) (revision : ResumeRevision) (rendering : Rendering)
  | rendered (job : ResumeJob) (held : ResumeWorkspace) (revision : ResumeRevision) (rendering : Rendering)
  | applied (held : ResumeWorkspace) (revision : ResumeRevision) (fields : ApplicationFields)
      (rendering : Rendering)
      (applicationId : Nat)
  | tracked (row : ApplicationRecord) (fields : List Attribute)
  | removed (row : ApplicationRecord)

inductive Outcome where
  /-- The batch was committed: the job function returns, and a route answers once it has refreshed the
      committed row, which may still fail. -/
  | committed (batch : Batch)
  | previewed (document : ResumeDocument)
  /-- An HTTPException. -/
  | refused (status : Nat) (detail : Str)
  /-- A stored text that `json.loads` or the schema does not accept raised an exception. -/
  | unreadable (source : ResumeRevision)
  /-- Any other exception. -/
  | failed
  /-- The job function found no job. -/
  | ended

/-- Where a session is: the statement it sends or the service it calls next, with the local variables it
    has read. `held` is the workspace object of its identity map. -/
inductive Phase where
  | create (userId : Nat) (templateKey : Str)
  | owned (userId workspaceId : Nat) (call : Call)
  | source (held : ResumeWorkspace) (call : Call)
  | thinking (held : ResumeWorkspace) (refining : Bool) (source : ResumeRevision)
  | saving (held : ResumeWorkspace) (caller : Caller) (payload : DocumentSave)
  | latest (held : ResumeWorkspace) (caller : Caller) (payload : DocumentSave) (document : ResumeDocument)
  | insertRevision (writer : Writer) (text : Str)
  | insertJob (held : ResumeWorkspace) (kind : JobKind)
  | artifact (held : ResumeWorkspace) (revision : ResumeRevision) (reader : Reader)
  | readStored (held : ResumeWorkspace) (revision : ResumeRevision) (reader : Reader)
      (row : ResumeRenderArtifact)
  | store (held : ResumeWorkspace) (revision : ResumeRevision) (reader : Reader) (pdf : List UInt8)
  | insertArtifact (held : ResumeWorkspace) (revision : ResumeRevision) (reader : Reader) (key : Str)
      (pdf : List UInt8)
  | insertApplication (held : ResumeWorkspace) (revision : ResumeRevision) (fields : ApplicationFields)
      (rendering : Rendering)
  | application (userId applicationId : Nat) (call : ApplicationCall)
  | flush (batch : Batch) (sent : Nat)
  | deferring (job : ResumeJob)
  | job (function : JobKind) (jobId : Nat)
  | jobWorkspace (function : JobKind) (job : ResumeJob)
  | jobRevision (function : JobKind) (job : ResumeJob) (held : ResumeWorkspace)
  | jobThinking (job : ResumeJob) (held : ResumeWorkspace) (source : ResumeRevision)
  | finished (outcome : Outcome)

/-- What a step takes from outside the database: nothing, a text of the language model, an empty search
    result, or an error of the service it calls. -/
inductive Input where
  | answer
  | generated (text : Str)
  | noKnowledge
  | unavailable

structure Task where
  kind : JobKind
  arguments : List (Str × Nat)
  deriving DecidableEq

/-- What no transaction protects: the sequences behind the ids, the task queue and the artifact store. -/
structure Outside where
  nextWorkspaceId : Nat
  nextRevisionId : Nat
  nextJobId : Nat
  nextArtifactId : Nat
  nextApplicationId : Nat
  tasks : List Task
  storage : List (Str × List UInt8)

def Outside.initial : Outside := ⟨1, 1, 1, 1, 1, [], []⟩

def Writer.workspaceId : Writer → Nat
  | .create workspace => workspace.id
  | .save held _ _ _ => held.id
  | .worker _ held _ => held.id

def Writer.number : Writer → Nat
  | .create _ => 1
  | .save _ _ _ number => number
  | .worker _ _ source => source.revisionNumber + 1

def Writer.changeKind : Writer → ChangeKind
  | .save _ _ payload _ => payload.changeKind
  | _ => .generated

def revisionRow (writer : Writer) (id : Nat) (text : Str) : ResumeRevision where
  id := id
  workspaceId := writer.workspaceId
  revisionNumber := writer.number
  documentJson := text
  contentHash := sha256 (encode text)
  changeKind := writer.changeKind

def Writer.before : Writer → List Write
  | .create workspace => [.insertWorkspace workspace]
  | _ => []

def Writer.reports : Writer → Nat → List Write
  | .worker job _ _, revisionId => [.updateJob job.workspaceId job.id ⟨.succeeded, some revisionId, none⟩]
  | _, _ => []

def Rendering.writes (held : ResumeWorkspace) (rendering : Rendering) : List Write :=
  if rendering.inserted then [.insertArtifact held.id rendering.artifact] else []

def applicationRow (held : ResumeWorkspace) (revision : ResumeRevision) (fields : ApplicationFields)
    (rendering : Rendering) (id : Nat) : ApplicationRecord where
  toApplicationFields := fields
  resumeContentSnapshot := revision.documentJson
  templateIdSnapshot := held.templateKey
  templateVersionSnapshot := "1".toList
  pdfSnapshot := rendering.pdf
  documentSnapshot := revision.documentJson
  pdfStorageKeySnapshot := rendering.artifact.storageKey
  pdfSha256Snapshot := rendering.artifact.sha256
  id := id
  userId := held.userId
  resumeWorkspaceId := some held.id
  resumeRevisionId := some revision.id

def ApplicationUpdate.modelDump (updateData : ApplicationUpdate) : List Attribute :=
  updateData.companyName.toList.map .companyName ++ updateData.applicationDate.toList.map .applicationDate ++
    updateData.applicationTime.toList.map .applicationTime ++ updateData.status.toList.map .status

def ApplicationRecord.has (row : ApplicationRecord) : Attribute → Bool
  | .companyName value => value = some row.companyName
  | .applicationDate value => value = some row.applicationDate
  | .applicationTime value => value = row.applicationTime
  | .status value => value = some row.status

def ApplicationRecord.changes (row : ApplicationRecord) (fields : List Attribute) : List Attribute :=
  fields.filter (!row.has ·)

def Batch.writes : Batch → List Write
  | .revision writer revisionId text =>
    writer.before ++ [.insertRevision (revisionRow writer revisionId text),
      .setCurrentRevision writer.workspaceId revisionId] ++ writer.reports revisionId
  | .approve held => if held.status = .approved then [] else [.setStatus held.id .approved]
  | .delete held => [.lockWorkspace held.id, .deleteWorkspace held.id]
  | .queueJob row => [.insertJob row]
  | .startJob _ job => if job.status = .running then [] else
      [.updateJob job.workspaceId job.id ⟨.running, none, none⟩]
  | .failJob job code message => [.updateJob job.workspaceId job.id ⟨.failed, none, some (code, message)⟩]
  | .exported held _ rendering => rendering.writes held
  | .rendered job held source rendering =>
    rendering.writes held ++ [.updateJob job.workspaceId job.id ⟨.succeeded, some source.id, none⟩]
  | .applied held source fields rendering applicationId =>
    rendering.writes held ++ [.insertApplication (applicationRow held source fields rendering applicationId)]
  | .tracked row fields => if row.changes fields = [] then [] else
      [.updateApplication row.id (row.changes fields)]
  | .removed row => [.deleteApplication row.id]

def ApplicationCall.batch (row : ApplicationRecord) : ApplicationCall → Batch
  | .updateMyApplication updateData => .tracked row updateData.modelDump
  | .deleteMyApplication => .removed row

def Batch.after : Batch → Phase
  | .queueJob row => .deferring row
  | .startJob function job => .jobWorkspace function { job with status := .running }
  | batch => .finished (.committed batch)

abbrev Answer := Option (Effect Outside Phase Write)

def refuse (status : Nat) (detail : String) : Answer :=
  some (.fail (.finished (.refused status detail.toList)))

def approvedError : Answer := refuse 409 "Approved resumes are immutable"

def checkSave (rt : Runtime) (outside : Outside) (held : ResumeWorkspace) (caller : Caller)
    (payload : DocumentSave) :
    Answer :=
  if held.status = .approved then approvedError
  else if payload.expectedRevisionId.isSome ∧ payload.expectedRevisionId ≠ held.currentRevisionId then
    refuse 409 "Resume changed elsewhere; reload before saving"
  else
    match validateDocument rt payload.document with
    | .error _ => refuse 422 "Invalid resume layout or content"
    | .ok document => some (.read (.latest held caller payload document) outside)

def afterOwned (rt : Runtime) (outside : Outside) (held : ResumeWorkspace) : Call → Answer
  | .saveDocument document expectedRevisionId changeKind =>
    checkSave rt outside held .client ⟨document.val, expectedRevisionId, changeKind⟩
  | .generateWorkspaceDocument =>
    if held.status = .approved then approvedError else
      some (.read (.source held .generateWorkspaceDocument) outside)
  | .refineWorkspaceDocument =>
    if held.status = .approved then approvedError else
      some (.read (.source held .refineWorkspaceDocument) outside)
  | .restoreRevision revisionId =>
    if held.status = .approved then approvedError else
      some (.read (.source held (.restoreRevision revisionId)) outside)
  | .approveWorkspace => some (.read (.flush (.approve held) 0) outside)
  | .deleteWorkspace => some (.read (.flush (.delete held) 0) outside)
  | .previewWorkspace => some (.read (.source held .previewWorkspace) outside)
  | .queueGenerationJob =>
    if held.status = .approved then approvedError else some (.read (.insertJob held .generate) outside)
  | .queueExportJob =>
    if held.status = .approved then some (.read (.insertJob held .render) outside)
    else refuse 409 "Approve the resume before exporting"
  | .exportWorkspace =>
    if held.status = .approved then some (.read (.source held .exportWorkspace) outside)
    else refuse 409 "Approve the resume before exporting"
  | .createApplication fields =>
    if held.status = .approved then some (.read (.source held (.createApplication fields)) outside)
    else refuse 400 "Approve the resume before creating an application"

def unreadable (source : ResumeRevision) : Answer := some (.fail (.finished (.unreadable source)))

def afterSource (rt : Runtime) (db : Database) (outside : Outside) (held : ResumeWorkspace) : Call → Answer
  | .generateWorkspaceDocument =>
    match held.currentRevisionId.bind db.revision? with
    | none => refuse 404 "Resume revision not found"
    | some source => some (.read (.thinking held false source) outside)
  | .refineWorkspaceDocument =>
    match held.currentRevisionId.bind db.revision? with
    | none => refuse 404 "Resume revision not found"
    | some source => some (.read (.thinking held true source) outside)
  | .restoreRevision revisionId =>
    match db.revision? revisionId with
    | none => refuse 404 "Revision not found"
    | some source =>
      if source.workspaceId ≠ held.id then refuse 404 "Revision not found"
      else
        match loads rt.floats source.documentJson with
        | some (.obj fields) =>
          some (.read (.saving held (.restore source) ⟨.obj fields, held.currentRevisionId, .restored⟩)
            outside)
        | _ => unreadable source
  | .previewWorkspace =>
    match held.currentRevisionId.bind db.revision? with
    | none => refuse 404 "Resume revision not found"
    | some source =>
      match readDocument rt source.documentJson with
      | none => unreadable source
      | some document => some (.fail (.finished (.previewed document)))
  | .exportWorkspace =>
    match held.currentRevisionId.bind db.revision? with
    | none => refuse 404 "Resume revision not found"
    | some source => some (.read (.artifact held source .exportWorkspace) outside)
  | .createApplication fields =>
    match held.currentRevisionId.bind db.revision? with
    | none => refuse 400 "Resume revision not found"
    | some source =>
      match readDocument rt source.documentJson with
      | none => unreadable source
      | some _ => some (.read (.artifact held source (.createApplication fields)) outside)
  | _ => none

/-- The language model's text for `generate_workspace_document` or `refine_workspace_document`. -/
def afterThinking (rt : Runtime) (outside : Outside) (held : ResumeWorkspace) (refining : Bool)
    (source : ResumeRevision) :
    Input → Answer
  | .generated text =>
    match loads rt.floats source.documentJson with
    | none => unreadable source
    | some payload =>
      match structuredDocument rt text payload with
      | none => some (.fail (.finished .failed))
      | some document =>
        some (.read (.saving held (if refining then .refine source else .generate source)
          ⟨document, held.currentRevisionId, if refining then .aiRefinement else .generated⟩) outside)
  | .unavailable => refuse 502 (if refining then "Resume refinement failed" else "Resume generation failed")
  | .noKnowledge => if refining then none else refuse 400 "Add career knowledge before generating a resume"
  | .answer => none

def failJob (job : ResumeJob) (code message : String) : Phase :=
  .flush (.failJob job code.toList message.toList) 0

def generationFailed (job : ResumeJob) : Phase := failJob job "GENERATION_FAILED" "Resume generation failed"

def renderFailed (job : ResumeJob) : Phase :=
  failJob job "RENDER_FAILED" "Resume export failed; retry the export"

/-- The language model's text for `_run_generation_job`, whose result is stored as it is. -/
def afterJobThinking (rt : Runtime) (outside : Outside) (job : ResumeJob) (held : ResumeWorkspace)
    (source : ResumeRevision) :
    Input → Answer
  | .generated text =>
    match loads rt.floats source.documentJson with
    | none => some (.read (generationFailed job) outside)
    | some payload =>
      match structuredDocument rt text payload with
      | none => some (.fail (.finished .failed))
      | some document =>
        some (.read (.insertRevision (.worker job held source) (dumps rt.floats document)) outside)
  | .unavailable => some (.read (generationFailed job) outside)
  | .noKnowledge => some (.read (generationFailed job) outside)
  | .answer => none

def storageKey (held : ResumeWorkspace) (revision : ResumeRevision) : Str :=
  "users/".toList ++ decimal held.userId ++ "/workspaces/".toList ++ decimal held.id ++
    "/revisions/".toList ++
    decimal revision.id ++ "/resume.pdf".toList

/-- `max_bytes` of `put_bytes`. -/
def maxArtifactBytes : Nat := 10 * 1024 * 1024

def getVerifiedBytes (storage : List (Str × List UInt8)) (key expectedSha256 : Str) :
    Input → Option (List UInt8)
  | .answer => (storage.lookup key).filter (sha256 · = expectedSha256)
  | _ => none

def renderingFailed (outside : Outside) (otherwise : Outcome) : Reader → Answer
  | .renderJob job => some (.read (renderFailed job) outside)
  | _ => some (.fail (.finished otherwise))

/-- What each reader does with the artifact `_render_artifact` gave it. -/
def afterRendering (held : ResumeWorkspace) (revision : ResumeRevision) (rendering : Rendering) :
    Reader → Phase
  | .exportWorkspace => .flush (.exported held revision rendering) (rendering.writes held).length
  | .createApplication fields => .insertApplication held revision fields rendering
  | .renderJob job => .flush (.rendered job held revision rendering) (rendering.writes held).length

def next (rt : Runtime) (db : Database) (outside : Outside) (phase : Phase) (input : Input) : Answer :=
  match phase with
  | .create userId templateKey =>
    match templateDocument rt templateKey with
    | none => refuse 422 "Unsupported template"
    | some (.error _) => some (.fail (.finished .failed))
    | some (.ok document) =>
      let workspace : ResumeWorkspace := ⟨outside.nextWorkspaceId, userId, templateKey, .draft, none⟩
      some (.write (.insertWorkspace workspace)
        (.insertRevision (.create workspace) (storedText rt document))
        { outside with nextWorkspaceId := outside.nextWorkspaceId + 1 })
  | .owned userId workspaceId call =>
    match db.owned? workspaceId userId with
    | none => refuse 404 "Resume workspace not found"
    | some held => afterOwned rt outside held call
  | .source held call => afterSource rt db outside held call
  | .thinking held refining source => afterThinking rt outside held refining source input
  | .saving held caller payload =>
    -- the row is found again, but the object keeps the values it was loaded with
    match db.owned? held.id held.userId with
    | none => refuse 404 "Resume workspace not found"
    | some _ => checkSave rt outside held caller payload
  | .latest held caller payload document =>
    let number := ((db.latestRevision? held.id).map (·.revisionNumber)).getD 0 + 1
    some (.read (.insertRevision (.save held caller payload number) (storedText rt document)) outside)
  | .insertRevision writer text =>
    let revisionId := outside.nextRevisionId
    some (.write (.insertRevision (revisionRow writer revisionId text))
      (.flush (.revision writer revisionId text) (writer.before.length + 1))
        { outside with nextRevisionId := revisionId + 1 })
  | .insertJob held kind =>
    let row : ResumeJob := ⟨outside.nextJobId, held.userId, held.id, kind, .queued, none, none⟩
    some (.write (.insertJob row) (.flush (.queueJob row) 1)
      { outside with nextJobId := outside.nextJobId + 1 })
  | .artifact held revision reader =>
    match db.artifact? revision.id with
    | some row => some (.read (.readStored held revision reader row) outside)
    | none =>
      match readDocument rt revision.documentJson with
      | none => renderingFailed outside (.unreadable revision) reader
      | some document =>
        match renderDocumentPdf rt document with
        | none => some (.fail (.finished .failed))
        | some pdf => some (.read (.store held revision reader pdf) outside)
  | .readStored held revision reader row =>
    match getVerifiedBytes outside.storage row.storageKey row.sha256 input with
    | none => renderingFailed outside .failed reader
    | some pdf => some (.read (afterRendering held revision ⟨row, false, pdf⟩ reader) outside)
  | .store held revision reader pdf =>
    if maxArtifactBytes < pdf.length then renderingFailed outside .failed reader
    else
      match input with
      | .answer =>
        some (.read (.insertArtifact held revision reader (storageKey held revision) pdf)
          { outside with storage := (storageKey held revision, pdf) :: outside.storage })
      | _ => renderingFailed outside .failed reader
  | .insertArtifact held revision reader key pdf =>
    let row : ResumeRenderArtifact := ⟨outside.nextArtifactId, revision.id, key, pdf.length, sha256 pdf⟩
    some (.write (.insertArtifact held.id row) (afterRendering held revision ⟨row, true, pdf⟩ reader)
      { outside with nextArtifactId := outside.nextArtifactId + 1 })
  | .insertApplication held revision fields rendering =>
    let applicationId := outside.nextApplicationId
    some (.write (.insertApplication (applicationRow held revision fields rendering applicationId))
      (.flush (.applied held revision fields rendering applicationId) ((rendering.writes held).length + 1))
      { outside with nextApplicationId := applicationId + 1 })
  | .application userId applicationId call =>
    match db.application? applicationId userId with
    | none => refuse 404 "Application not found"
    | some row => some (.read (.flush (call.batch row) 0) outside)
  | .flush batch sent =>
    match batch.writes[sent]? with
    | some w => some (.write w (.flush batch (sent + 1)) outside)
    | none => some (.commit batch.after outside)
  | .deferring job =>
    match input with
    | .answer =>
      -- the id is passed by position, and a task receives keyword arguments only
      some (.read (.finished (.committed (.queueJob job)))
        { outside with tasks := outside.tasks ++ [⟨job.kind, []⟩] })
    | _ => some (.fail (.finished .failed))
  | .job function jobId =>
    match db.job? jobId with
    | none => some (.fail (.finished .ended))
    | some job => some (.read (.flush (.startJob function job) 0) outside)
  | .jobWorkspace function job =>
    match db.workspace? job.workspaceId with
    | some held => some (.read (.jobRevision function job held) outside)
    | none =>
      match function with
      | .generate => some (.read (generationFailed job) outside)
      | .render => some (.read (renderFailed job) outside)
  | .jobRevision function job held =>
    match held.currentRevisionId.bind db.revision?, function with
    | some source, .generate => some (.read (.jobThinking job held source) outside)
    | none, .generate => some (.read (generationFailed job) outside)
    | some source, .render =>
      if held.status = .approved then some (.read (.artifact held source (.renderJob job)) outside)
      else some (.read (renderFailed job) outside)
    | none, .render => some (.read (renderFailed job) outside)
  | .jobThinking job held source => afterJobThinking rt outside job held source input
  | .finished _ => none

def begin : Request → Phase
  | .createWorkspace userId templateKey => .create userId templateKey
  | .owned userId workspaceId call => .owned userId workspaceId call
  | .application userId applicationId call => .application userId applicationId call
  | .runGenerationJob jobId => .job .generate jobId
  | .runRenderJob jobId => .job .render jobId

def failedPhase : Phase → Phase
  | .finished outcome => .finished outcome
  | _ => .finished .failed

def resumeSystem (rt : Runtime) : System Database Outside Phase Write Input Request where
  apply := applyWrite
  admits := admitsWrite
  conflicts := conflicts
  failed := failedPhase
  start outside request := some (begin request, outside)
  next := next rt

def initialState : State Database Outside Phase Write := ⟨.empty, .initial, []⟩

end ManifestCV.Workspace
