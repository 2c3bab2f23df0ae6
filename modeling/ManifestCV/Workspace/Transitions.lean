import ManifestCV.Workspace.Handlers

namespace ManifestCV.Workspace

open Foundation Foundation.Transactions Document Render

def Readable (rt : Runtime) (text : Str) : Prop :=
  ∃ fields document, loads rt.floats text = some (.obj fields) ∧ validateDocument rt (.obj fields) =
    .ok document

structure SaveChecked (rt : Runtime) (held : ResumeWorkspace) (payload : DocumentSave)
    (document : ResumeDocument) :
    Prop where
  draft : held.status = .draft
  expected : ∀ revisionId, payload.expectedRevisionId = some revisionId →
    held.currentRevisionId = some revisionId
  accepted : validateDocument rt payload.document = .ok document

def Call.edits : Call → Bool
  | .generateWorkspaceDocument | .refineWorkspaceDocument | .restoreRevision _ => true
  | _ => false

def Call.publishes : Call → Option Reader
  | .exportWorkspace => some .exportWorkspace
  | .createApplication fields => some (.createApplication fields)
  | _ => none

def Phase.job? : Phase → Option ResumeJob
  | .jobWorkspace _ row | .jobRevision _ row _ | .jobThinking row _ _ => some row
  | .artifact _ _ (.renderJob row) | .readStored _ _ (.renderJob row) _ | .store _ _ (.renderJob row) _ =>
      some row
  | _ => none

def Outcome.plain : Outcome → Bool
  | .previewed _ | .refused _ _ | .failed | .ended => true
  | _ => false

def Caller.source? : Caller → Option ResumeRevision
  | .client => none
  | .generate source | .refine source | .restore source => some source

def Writer.source? : Writer → Option ResumeRevision
  | .create _ => none
  | .save _ caller _ _ => caller.source?
  | .worker _ _ source => some source

def Batch.source? : Batch → Option ResumeRevision
  | .revision writer _ _ => writer.source?
  | .exported _ source _ | .rendered _ _ source _ | .applied _ source _ _ _ => some source
  | _ => none

def Phase.source? : Phase → Option ResumeRevision
  | .thinking _ _ row | .jobThinking _ _ row => some row
  | .saving _ caller _ | .latest _ caller _ _ => caller.source?
  | .artifact _ row _ | .readStored _ row _ _ | .store _ row _ _ | .insertArtifact _ row _ _ _ => some row
  | .insertApplication _ row _ _ => some row
  | .insertRevision writer _ => writer.source?
  | .flush batch _ | .finished (.committed batch) => batch.source?
  | _ => none

inductive Next (rt : Runtime) (db : Database) (outside : Outside) :
    Phase → Input → Effect Outside Phase Write → Prop
  | created {userId key document input} (template : templateDocument rt key = some (.ok document)) :
      Next rt db outside (.create userId key) input
        (.write (.insertWorkspace ⟨outside.nextWorkspaceId, userId, key, .draft, none⟩)
          (.insertRevision (.create ⟨outside.nextWorkspaceId, userId, key, .draft, none⟩)
            (storedText rt document))
          { outside with nextWorkspaceId := outside.nextWorkspaceId + 1 })
  | checked {userId workspaceId payload expected kind held document input}
      (found : db.owned? workspaceId userId = some held)
      (passed : SaveChecked rt held ⟨payload.val, expected, kind⟩ document) :
      Next rt db outside (.owned userId workspaceId (.saveDocument payload expected kind)) input
        (.read (.latest held .client ⟨payload.val, expected, kind⟩ document) outside)
  | checkedAgain {held caller payload document input} (found : (db.owned? held.id held.userId).isSome)
      (passed : SaveChecked rt held payload document) :
      Next rt db outside (.saving held caller payload) input
        (.read (.latest held caller payload document) outside)
  | reading {userId workspaceId call held input} (found : db.owned? workspaceId userId = some held)
      (editing : call.edits = true → held.status = .draft)
      (publishing : call.publishes.isSome = true → held.status = .approved) :
      Next rt db outside (.owned userId workspaceId call) input (.read (.source held call) outside)
  | approving {userId workspaceId held input} (found : db.owned? workspaceId userId = some held) :
      Next rt db outside (.owned userId workspaceId .approveWorkspace) input
        (.read (.flush (.approve held) 0) outside)
  | deleting {userId workspaceId held input} (found : db.owned? workspaceId userId = some held) :
      Next rt db outside (.owned userId workspaceId .deleteWorkspace) input
        (.read (.flush (.delete held) 0) outside)
  | queueing {userId workspaceId call held kind input} (found : db.owned? workspaceId userId = some held)
      (status : held.status = if kind = .generate then .draft else .approved) :
      Next rt db outside (.owned userId workspaceId call) input (.read (.insertJob held kind) outside)
  | loaded {held call refining source input} (editing : call.edits = true)
      (found : held.currentRevisionId.bind db.revision? = some source) :
      Next rt db outside (.source held call) input (.read (.thinking held refining source) outside)
  | restoring {held revisionId source fields input} (found : db.revision? revisionId = some source)
      (home : source.workspaceId = held.id) (text : loads rt.floats source.documentJson =
        some (.obj fields)) :
      Next rt db outside (.source held (.restoreRevision revisionId)) input
        (.read (.saving held (.restore source) ⟨.obj fields, held.currentRevisionId, .restored⟩) outside)
  | publishing {held call reader source input} (publishes : call.publishes = some reader)
      (found : held.currentRevisionId.bind db.revision? = some source) :
      Next rt db outside (.source held call) input (.read (.artifact held source reader) outside)
  | written {held refining source text payload document}
      (readable : loads rt.floats source.documentJson = some payload)
      (structured : structuredDocument rt text payload = some document) :
      Next rt db outside (.thinking held refining source) (.generated text)
        (.read (.saving held (if refining then .refine source else .generate source)
          ⟨document, held.currentRevisionId, if refining then .aiRefinement else .generated⟩) outside)
  | numbered {held caller payload document input} :
      Next rt db outside (.latest held caller payload document) input
        (.read (.insertRevision (.save held caller payload
          (((db.latestRevision? held.id).map (·.revisionNumber)).getD 0 + 1)) (storedText rt document))
            outside)
  | inserted {writer text input} :
      Next rt db outside (.insertRevision writer text) input
        (.write (.insertRevision (revisionRow writer outside.nextRevisionId text))
          (.flush (.revision writer outside.nextRevisionId text) (writer.before.length + 1))
          { outside with nextRevisionId := outside.nextRevisionId + 1 })
  | queued {held kind input} :
      Next rt db outside (.insertJob held kind) input
        (.write (.insertJob ⟨outside.nextJobId, held.userId, held.id, kind, .queued, none, none⟩)
          (.flush (.queueJob ⟨outside.nextJobId, held.userId, held.id, kind, .queued, none, none⟩) 1)
          { outside with nextJobId := outside.nextJobId + 1 })
  | rendered {held revision reader row input} (found : db.artifact? revision.id = some row) :
      Next rt db outside (.artifact held revision reader) input
        (.read (.readStored held revision reader row) outside)
  | rendering {held revision reader document pdf input} (absent : db.artifact? revision.id = none)
      (read : readDocument rt revision.documentJson = some document)
        (drawn : renderDocumentPdf rt document = some pdf) :
      Next rt db outside (.artifact held revision reader) input
        (.read (.store held revision reader pdf) outside)
  | verified {held revision reader row pdf input} (kept : outside.storage.lookup row.storageKey = some pdf)
      (digest : sha256 pdf = row.sha256) :
      Next rt db outside (.readStored held revision reader row) input
        (.read (afterRendering held revision ⟨row, false, pdf⟩ reader) outside)
  | put {held revision reader pdf input} (small : pdf.length ≤ maxArtifactBytes) :
      Next rt db outside (.store held revision reader pdf) input
        (.read (.insertArtifact held revision reader (storageKey held revision) pdf)
          { outside with storage := (storageKey held revision, pdf) :: outside.storage })
  | catalogued {held revision reader key pdf input} :
      Next rt db outside (.insertArtifact held revision reader key pdf) input
        (.write (.insertArtifact held.id ⟨outside.nextArtifactId, revision.id, key, pdf.length, sha256 pdf⟩)
          (afterRendering held revision
            ⟨⟨outside.nextArtifactId, revision.id, key, pdf.length, sha256 pdf⟩, true, pdf⟩ reader)
          { outside with nextArtifactId := outside.nextArtifactId + 1 })
  | applied {held revision fields rendering input} :
      Next rt db outside (.insertApplication held revision fields rendering) input
        (.write (.insertApplication (applicationRow held revision fields rendering outside.nextApplicationId))
          (.flush (.applied held revision fields rendering outside.nextApplicationId)
            ((rendering.writes held).length + 1))
          { outside with nextApplicationId := outside.nextApplicationId + 1 })
  | tracking {userId applicationId updateData row input}
      (found : db.application? applicationId userId = some row) :
      Next rt db outside (.application userId applicationId (.updateMyApplication updateData)) input
        (.read (.flush (.tracked row updateData.modelDump) 0) outside)
  | removing {userId applicationId row input} (found : db.application? applicationId userId = some row) :
      Next rt db outside (.application userId applicationId .deleteMyApplication) input
        (.read (.flush (.removed row) 0) outside)
  | sent {batch sent w input} (more : batch.writes[sent]? = some w) :
      Next rt db outside (.flush batch sent) input (.write w (.flush batch (sent + 1)) outside)
  | committed {batch sent input} (all : batch.writes[sent]? = none) :
      Next rt db outside (.flush batch sent) input (.commit batch.after outside)
  | deferred {job input} :
      Next rt db outside (.deferring job) input
        (.read (.finished (.committed (.queueJob job)))
          { outside with tasks := outside.tasks ++ [⟨job.kind, []⟩] })
  | started {function jobId job input} (found : db.job? jobId = some job) :
      Next rt db outside (.job function jobId) input (.read (.flush (.startJob function job) 0) outside)
  | jobOwner {function job held input} (found : db.workspace? job.workspaceId = some held) :
      Next rt db outside (.jobWorkspace function job) input (.read (.jobRevision function job held) outside)
  | jobLoaded {job held source input} (found : held.currentRevisionId.bind db.revision? = some source) :
      Next rt db outside (.jobRevision .generate job held) input
        (.read (.jobThinking job held source) outside)
  | jobRendering {job held source input} (found : held.currentRevisionId.bind db.revision? = some source)
      (approved : held.status = .approved) :
      Next rt db outside (.jobRevision .render job held) input
        (.read (.artifact held source (.renderJob job)) outside)
  | jobWritten {job held source text payload document} (readable : loads rt.floats source.documentJson =
      some payload)
      (structured : structuredDocument rt text payload = some document) :
      Next rt db outside (.jobThinking job held source) (.generated text)
        (.read (.insertRevision (.worker job held source) (dumps rt.floats document)) outside)
  | jobFailed {phase job code message input} (running : phase.job? = some job) :
      Next rt db outside phase input (.read (.flush (.failJob job code message) 0) outside)
  | failed {phase outcome input} (plain : outcome.plain = true) : Next rt db outside phase input
      (.fail (.finished outcome))
  | blamed {phase source input} (bad : ¬ Readable rt source.documentJson)
      (known : phase.source? = some source ∨ (∃ held call, phase = .source held call) ∧
        source ∈ db.revisions) :
      Next rt db outside phase input (.fail (.finished (.unreadable source)))

section Cases

variable {rt : Runtime} {db : Database} {outside : Outside} {input : Input}
  {effect : Effect Outside Phase Write}

theorem Next.refused {status : Nat} {detail : String} {phase : Phase}
    (answer : refuse status detail = some effect) :
    Next rt db outside phase input effect := by
  cases answer
  exact .failed rfl

theorem Next.unreadable {source : ResumeRevision} {phase : Phase} (bad : ¬ Readable rt source.documentJson)
    (known : phase.source? = some source ∨ (∃ held call, phase = .source held call) ∧ source ∈ db.revisions)
    (answer : Workspace.unreadable source = some effect) : Next rt db outside phase input effect := by
  cases answer
  exact .blamed bad known

theorem getVerifiedBytes_some {storage : List (Str × List UInt8)} {key sha : Str} {pdf : List UInt8}
    (verified : getVerifiedBytes storage key sha input = some pdf) :
    storage.lookup key = some pdf ∧ sha256 pdf = sha := by
  cases input with
  | answer =>
    obtain ⟨kept, digest⟩ := Option.filter_eq_some_iff.mp verified
    exact ⟨kept, of_decide_eq_true digest⟩
  | _ => cases verified

theorem not_readable {text : Str} (bad : readDocument rt text = none) : ¬ Readable rt text := by
  rintro ⟨fields, document, loaded, accepted⟩
  simp [readDocument, loaded, accepted] at bad

theorem not_readable_loads {text : Str} (bad : ∀ fields, loads rt.floats text ≠ some (.obj fields)) :
    ¬ Readable rt text :=
  fun ⟨fields, _, loaded, _⟩ => bad fields loaded

theorem draft_of_not_approved {status : WorkspaceStatus} (other : status ≠ .approved) : status = .draft := by
  cases status with
  | draft => rfl
  | approved => exact absurd rfl other

theorem checkSave_cases {held : ResumeWorkspace} {caller : Caller} {payload : DocumentSave}
    (answer : checkSave rt outside held caller payload = some effect) :
    (∃ outcome, outcome.plain = true ∧ effect = .fail (.finished outcome)) ∨
      ∃ document, SaveChecked rt held payload document ∧
        effect = .read (.latest held caller payload document) outside := by
  unfold checkSave at answer
  split at answer
  · cases answer
    exact .inl ⟨_, rfl, rfl⟩
  · rename_i status
    split at answer
    · cases answer
      exact .inl ⟨_, rfl, rfl⟩
    · rename_i expected
      split at answer
      · cases answer
        exact .inl ⟨_, rfl, rfl⟩
      · rename_i document accepted
        cases answer
        refine .inr ⟨document, ⟨draft_of_not_approved status, ?_, accepted⟩, rfl⟩
        intro revisionId given
        rw [given] at expected
        simpa [eq_comm] using expected

theorem afterOwned_cases {userId workspaceId : Nat} {held : ResumeWorkspace} {call : Call}
    (found : db.owned? workspaceId userId = some held)
    (answer : afterOwned rt outside held call = some effect) :
    Next rt db outside (.owned userId workspaceId call) input effect := by
  have reading : ∀ call : Call, held.status = .draft → call.publishes = none →
      Next rt db outside (.owned userId workspaceId call) input (.read (.source held call) outside) :=
    fun call draft hidden => .reading found (fun _ => draft) (by simp [hidden])
  cases call with
  | saveDocument document expected kind =>
    rcases checkSave_cases answer with ⟨outcome, plain, rfl⟩ | ⟨checked, passed, rfl⟩
    · exact .failed plain
    · exact .checked found passed
  | generateWorkspaceDocument =>
    simp only [afterOwned] at answer
    split at answer
    · exact .refused answer
    · rename_i status
      cases answer
      exact reading _ (draft_of_not_approved status) rfl
  | refineWorkspaceDocument =>
    simp only [afterOwned] at answer
    split at answer
    · exact .refused answer
    · rename_i status
      cases answer
      exact reading _ (draft_of_not_approved status) rfl
  | restoreRevision revisionId =>
    simp only [afterOwned] at answer
    split at answer
    · exact .refused answer
    · rename_i status
      cases answer
      exact reading _ (draft_of_not_approved status) rfl
  | approveWorkspace =>
    cases answer
    exact .approving found
  | deleteWorkspace =>
    cases answer
    exact .deleting found
  | previewWorkspace =>
    cases answer
    exact .reading found (fun edits => nomatch edits) (fun publishes => nomatch publishes)
  | queueGenerationJob =>
    simp only [afterOwned] at answer
    split at answer
    · exact .refused answer
    · rename_i status
      cases answer
      exact .queueing found (draft_of_not_approved status)
  | queueExportJob =>
    simp only [afterOwned] at answer
    split at answer
    · rename_i status
      cases answer
      exact .queueing found status
    · exact .refused answer
  | exportWorkspace =>
    simp only [afterOwned] at answer
    split at answer
    · rename_i status
      cases answer
      exact .reading found (fun edits => nomatch edits) (fun _ => status)
    · exact .refused answer
  | createApplication fields =>
    simp only [afterOwned] at answer
    split at answer
    · rename_i status
      cases answer
      exact .reading found (fun edits => nomatch edits) (fun _ => status)
    · exact .refused answer

theorem afterSource_cases {held : ResumeWorkspace} {call : Call}
    (answer : afterSource rt db outside held call = some effect) :
    Next rt db outside (.source held call) input effect := by
  unfold afterSource at answer
  split at answer
  · split at answer
    · exact .refused answer
    · rename_i source found
      cases answer
      exact .loaded rfl found
  · split at answer
    · exact .refused answer
    · rename_i source found
      cases answer
      exact .loaded rfl found
  · split at answer
    · exact .refused answer
    · rename_i source found
      split at answer
      · exact .refused answer
      · rename_i home
        split at answer
        · rename_i fields text
          cases answer
          exact .restoring found (not_not.mp home) text
        · rename_i bad
          exact .unreadable (not_readable_loads bad) (.inr ⟨⟨_, _, rfl⟩, (revision?_some found).1⟩) answer
  · split at answer
    · exact .refused answer
    · rename_i source found
      split at answer
      · rename_i bad
        exact .unreadable (not_readable bad) (.inr ⟨⟨_, _, rfl⟩, (pointed_some found).1⟩) answer
      · cases answer
        exact .failed rfl
  · split at answer
    · exact .refused answer
    · rename_i source found
      cases answer
      exact .publishing rfl found
  · split at answer
    · exact .refused answer
    · rename_i source found
      split at answer
      · rename_i bad
        exact .unreadable (not_readable bad) (.inr ⟨⟨_, _, rfl⟩, (pointed_some found).1⟩) answer
      · cases answer
        exact .publishing rfl found
  · cases answer

theorem afterThinking_cases {held : ResumeWorkspace} {refining : Bool} {source : ResumeRevision}
    (answer : afterThinking rt outside held refining source input = some effect) :
    Next rt db outside (.thinking held refining source) input effect := by
  unfold afterThinking at answer
  split at answer
  · split at answer
    · rename_i bad
      exact .unreadable (not_readable_loads fun fields => by simp [bad]) (.inl rfl) answer
    · rename_i payload loaded
      split at answer
      · cases answer
        exact .failed rfl
      · rename_i document structured
        cases answer
        exact .written loaded structured
  · exact .refused answer
  · split at answer
    · cases answer
    · exact .refused answer
  · cases answer

theorem afterJobThinking_cases {job : ResumeJob} {held : ResumeWorkspace} {source : ResumeRevision}
    (answer : afterJobThinking rt outside job held source input = some effect) :
    Next rt db outside (.jobThinking job held source) input effect := by
  unfold afterJobThinking at answer
  split at answer
  · split at answer
    · cases answer
      exact .jobFailed rfl
    · rename_i payload loaded
      split at answer
      · cases answer
        exact .failed rfl
      · rename_i document structured
        cases answer
        exact .jobWritten loaded structured
  · cases answer
    exact .jobFailed rfl
  · cases answer
    exact .jobFailed rfl
  · cases answer

theorem renderingFailed_cases {otherwise : Outcome} {reader : Reader} {phase : Phase}
    (running : ∀ job, reader = .renderJob job → phase.job? = some job)
    (failed : Next rt db outside phase input (.fail (.finished otherwise)))
    (answer : renderingFailed outside otherwise reader = some effect) :
    Next rt db outside phase input effect := by
  cases reader with
  | renderJob job =>
    cases answer
    exact .jobFailed (running job rfl)
  | exportWorkspace =>
    cases answer
    exact failed
  | createApplication fields =>
    cases answer
    exact failed

theorem next_cases {phase : Phase} (answer : next rt db outside phase input = some effect) :
    Next rt db outside phase input effect := by
  cases phase with
  | create userId key =>
    simp only [next] at answer
    split at answer
    · exact .refused answer
    · cases answer
      exact .failed rfl
    · rename_i template
      cases answer
      exact .created template
  | owned userId workspaceId call =>
    simp only [next] at answer
    split at answer
    · exact .refused answer
    · rename_i found
      exact afterOwned_cases found answer
  | source held call => exact afterSource_cases answer
  | thinking held refining source => exact afterThinking_cases answer
  | saving held caller payload =>
    simp only [next] at answer
    split at answer
    · exact .refused answer
    · rename_i found
      rcases checkSave_cases answer with ⟨outcome, plain, rfl⟩ | ⟨document, passed, rfl⟩
      · exact .failed plain
      · exact .checkedAgain (by rw [found]; rfl) passed
  | latest held caller payload document =>
    cases answer
    exact .numbered
  | insertRevision writer text =>
    cases answer
    exact .inserted
  | insertJob held kind =>
    cases answer
    exact .queued
  | artifact held revision reader =>
    simp only [next] at answer
    split at answer
    · rename_i found
      cases answer
      exact .rendered found
    · rename_i absent
      split at answer
      · rename_i bad
        exact renderingFailed_cases (fun job same => by rw [same]; rfl)
          (.blamed (not_readable bad) (.inl rfl)) answer
      · rename_i document read
        split at answer
        · cases answer
          exact .failed rfl
        · rename_i pdf drawn
          cases answer
          exact .rendering absent read drawn
  | readStored held revision reader row =>
    simp only [next] at answer
    split at answer
    · exact renderingFailed_cases (fun job same => by rw [same]; rfl) (.failed rfl) answer
    · rename_i pdf verified
      obtain ⟨kept, digest⟩ := getVerifiedBytes_some verified
      cases answer
      exact .verified kept digest
  | store held revision reader pdf =>
    simp only [next] at answer
    split at answer
    · exact renderingFailed_cases (fun job same => by rw [same]; rfl) (.failed rfl) answer
    · rename_i small
      split at answer
      · cases answer
        exact .put (Nat.not_lt.mp small)
      · exact renderingFailed_cases (fun job same => by rw [same]; rfl) (.failed rfl) answer
  | insertArtifact held revision reader key pdf =>
    cases answer
    exact .catalogued
  | insertApplication held revision fields rendering =>
    cases answer
    exact .applied
  | application userId applicationId call =>
    simp only [next] at answer
    split at answer
    · exact .refused answer
    · rename_i found
      cases answer
      cases call with
      | updateMyApplication updateData => exact .tracking found
      | deleteMyApplication => exact .removing found
  | flush batch sent =>
    simp only [next] at answer
    split at answer
    · rename_i more
      cases answer
      exact .sent more
    · rename_i all
      cases answer
      exact .committed all
  | deferring job =>
    simp only [next] at answer
    split at answer
    · cases answer
      exact .deferred
    · cases answer
      exact .failed rfl
  | job function jobId =>
    simp only [next] at answer
    split at answer
    · cases answer
      exact .failed rfl
    · rename_i found
      cases answer
      exact .started found
  | jobWorkspace function job =>
    simp only [next] at answer
    split at answer
    · rename_i found
      cases answer
      exact .jobOwner found
    · split at answer
      · cases answer
        exact .jobFailed rfl
      · cases answer
        exact .jobFailed rfl
  | jobRevision function job held =>
    simp only [next] at answer
    split at answer
    · rename_i found
      cases answer
      exact .jobLoaded found
    · cases answer
      exact .jobFailed rfl
    · rename_i found
      split at answer
      · rename_i approved
        cases answer
        exact .jobRendering found approved
      · cases answer
        exact .jobFailed rfl
    · cases answer
      exact .jobFailed rfl
  | jobThinking job held source => exact afterJobThinking_cases answer
  | finished outcome => cases answer

end Cases

end ManifestCV.Workspace
