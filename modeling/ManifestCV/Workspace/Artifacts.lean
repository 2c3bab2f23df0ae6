import ManifestCV.Workspace.Approval
import ManifestCV.Workspace.Catalogue
import ManifestCV.Workspace.Queries

namespace ManifestCV.Workspace

open Foundation Foundation.Transactions Document Render

/-- A worker runs each job with the function of its kind. -/
def taskGuard : Guard Database Outside Phase Input where
  alone db _ phase _ :=
    match phase with
    | .job function jobId => (db.job? jobId).all (·.kind = function)
    | _ => true
  beside _ _ _ := true

def ResumeJob.Delivers (job : ResumeJob) (artifacts : List ResumeRenderArtifact) : Prop :=
  job.kind = .render → job.status = .succeeded → ∃ artifact ∈ artifacts, job.resultRevisionId =
    some artifact.revisionId

def Phase.runs? : Phase → Option (JobKind × ResumeJob)
  | .jobWorkspace function row | .jobRevision function row _ | .flush (.startJob function row) _ =>
      some (function, row)
  | .jobThinking row _ _ | .insertRevision (.worker row _ _) _ | .flush (.revision (.worker row _ _) _ _) _ =>
      some (.generate, row)
  | _ => none

def deliveryAssertion : Assertion Database Outside Phase Write where
  common db _ := ∀ job ∈ db.jobs, job.Delivers db.artifacts
  own _ _ phase _ := ∀ function job, phase.runs? = some (function, job) → job.kind = function
  pair _ _ _ _ := True

section Steps

variable {rt : Runtime} {db db' : Database} {outside outside' : Outside} {phase phase' : Phase}
  {input : Input}
  {pending pending' : List Write} {effect : Effect Outside Phase Write} {batch : Batch}

theorem afterRendering_runs (held : ResumeWorkspace) (source : ResumeRevision) (rendering : Rendering)
    (reader : Reader) :
    (afterRendering held source rendering reader).runs? = none := by
  cases reader <;> rfl

theorem next_runs (step : Next rt db outside phase input effect) {function : JobKind} {job : ResumeJob}
    (runs : effect.phase.runs? = some (function, job)) :
    (∃ old, phase.runs? = some (function, old) ∧ old.kind = job.kind) ∨
      ∃ jobId, phase = .job function jobId ∧ db.job? jobId = some job := by
  cases step with
  | started found =>
    cases runs
    exact .inr ⟨_, rfl, found⟩
  | jobOwner =>
    cases runs
    exact .inl ⟨_, rfl, rfl⟩
  | jobLoaded =>
    cases runs
    exact .inl ⟨_, rfl, rfl⟩
  | jobWritten =>
    cases runs
    exact .inl ⟨_, rfl, rfl⟩
  | inserted => exact .inl ⟨job, by cases ‹Writer› <;> exact runs, rfl⟩
  | verified => exact nomatch (afterRendering_runs _ _ _ _).symm.trans runs
  | catalogued => exact nomatch (afterRendering_runs _ _ _ _).symm.trans runs
  | sent =>
    rename_i batch sent w more
    refine .inl ⟨job, ?_, rfl⟩
    cases batch with
    | revision writer revisionId text => cases writer <;> exact runs
    | _ => exact runs
  | committed =>
    rename_i batch sent all
    cases batch with
    | startJob started row =>
      cases runs
      exact .inl ⟨_, rfl, rfl⟩
    | _ => cases runs
  | _ => cases runs

theorem deleted_delivers {base : Fact → Prop} {target : Nat}
    (delivered : ∀ job ∈ db.jobs, job.Delivers db.artifacts) (sound : (resumeFacts rt).Sound outside base)
    (stored : ∀ f ∈ db.facts, base f) :
    ∀ job ∈ (replay db [.deleteWorkspace target]).jobs,
      job.Delivers (replay db [.deleteWorkspace target]).artifacts := by
  intro job member render succeeded
  obtain ⟨old, inside, rfl⟩ := List.mem_map.mp member
  obtain ⟨listed, apart⟩ := List.mem_filter.mp inside
  obtain ⟨artifact, drawn, result⟩ := delivered old listed render succeeded
  have home : base (.home artifact.revisionId old.workspaceId) := by
    refine stored _ (Database.mem_facts.mpr (.inr (.inr (.inl ⟨old, listed, List.mem_append_right _ ?_⟩))))
    exact List.mem_map.mpr ⟨artifact.revisionId, Option.mem_toList.mpr result, rfl⟩
  have elsewhere : ∀ revision ∈ db.revisions, revision.id = artifact.revisionId →
      revision.workspaceId ≠ target := by
    intro revision member named
    have source : base (.revision revision) :=
      stored _ (Database.mem_facts.mpr (.inr (.inl ⟨revision, member, rfl⟩)))
    rw [pointed_home sound source (named ▸ home)]
    exact of_decide_eq_true apart
  exact ⟨artifact, deleted_artifact drawn elsewhere,
    Option.filter_eq_some_iff.mpr ⟨result, not_gone elsewhere⟩⟩

theorem replay_delivers {sent : Nat} (delivered : ∀ job ∈ db.jobs, job.Delivers db.artifacts)
    (runs : ∀ function job, (Phase.flush batch sent).runs? = some (function, job) → job.kind = function)
    (kept : Kept db outside (.flush batch sent) batch.writes)
    (sound : (resumeFacts rt).Sound outside
      ((resumeFacts rt).seen db outside (.flush batch sent) batch.writes))
    (ok : Placed (.flush batch sent)) (keeps : ∀ id, .deleteWorkspace id ∉ batch.writes) :
    ∀ job ∈ (replay db batch.writes).jobs, job.Delivers (replay db batch.writes).artifacts := by
  obtain ⟨artifacts, _, _⟩ := @replay_keeps db _ keeps
  have each : ∀ job ∈ (replay db batch.writes).jobs, job.Delivers (replay db batch.writes).artifacts ∧
      ((∃ origin ∈ db.jobs, origin.id = job.id ∧ origin.kind = job.kind) ∨
          .insertJob job ∈ batch.writes) := by
    refine replay_jobs ?_ ?_ ?_ keeps
    · intro job member
      refine ⟨fun render succeeded => ?_, .inl ⟨job, member, rfl, rfl⟩⟩
      obtain ⟨artifact, inside, result⟩ := delivered job member render succeeded
      exact ⟨artifact, artifacts artifact inside, result⟩
    · intro row member
      refine ⟨fun _ succeeded => ?_, .inr member⟩
      rw [(kept.rooted _ member).1] at succeeded
      cases succeeded
    · intro workspaceId jobId update member row delivers named
      obtain ⟨job, employs, rfl, rfl, results⟩ := updates_job member
      have stored : ∃ origin ∈ db.jobs, origin.id = row.id ∧ origin.kind = row.kind :=
        delivers.2.resolve_right ((updates_alone member).1 row)
      refine ⟨fun render succeeded => ?_, .inl stored⟩
      rcases results succeeded with ⟨held, source, revisionId, text, rfl⟩ | ⟨held, source,
        rendering, rfl, rfl⟩
      · cases employs
        obtain ⟨origin, listed, id, kind⟩ := stored
        have one : Fact.jobKind origin.id origin.kind ∈ origin.facts := by simp [ResumeJob.facts]
        have two : Fact.jobKind job.id job.kind ∈ job.facts := by simp [ResumeJob.facts]
        have mine : (Phase.flush (.revision (.worker job held source) revisionId text) sent).jobObject? =
          some job := rfl
        have agree : origin.kind = job.kind :=
          (sound.agreed _ _ (job_fact listed one) (object_fact mine two)).1 (id.trans named)
        have renders : row.kind = .render := render
        rw [← kind, agree, runs .generate job rfl] at renders
        cases renders
      · cases employs
        have drawn : rendering.artifact.revisionId = source.id := ok.drawn _ _ rfl
        refine ⟨rendering.artifact, ?_, congrArg some drawn.symm⟩
        by_cases inserted : rendering.inserted = true
        · have written : .insertArtifact held.id rendering.artifact ∈ rendering.writes held := by
            rw [Rendering.writes, if_pos inserted]
            exact List.mem_cons_self
          exact replay_inserted keeps (List.mem_append_left _ written)
        · have present : db.workspace? held.id ≠ none := ok.house held job rfl rfl ▸ kept.rooted _ member
          refine artifacts _ (kept.found held rendering.artifact ?_ present)
          exact if_neg inserted
  exact fun job member => (each job member).1

theorem dropped_runs : (failedPhase phase).runs? = none := by
  cases phase <;> rfl

theorem after_runs {function : JobKind} {job : ResumeJob} (runs : batch.after.runs? = some (function, job)) :
    ∃ old, batch = .startJob function old ∧ old.kind = job.kind := by
  cases batch <;> cases runs
  exact ⟨_, rfl, rfl⟩

theorem delivery_own {label : Option Input} (known : (knownAssertion rt).own db outside phase pending)
    (kept : Kept db outside phase pending) (delivered : ∀ job ∈ db.jobs, job.Delivers db.artifacts)
    (ran : ∀ function job, phase.runs? = some (function, job) → job.kind = function)
    (allowed : ∀ input, label = some input → taskGuard.alone db outside phase input = true)
    (moves : (resumeSystem rt).Moves db outside phase pending label db' outside' phase' pending') :
    (∀ job ∈ db'.jobs, job.Delivers db'.artifacts) ∧ ∀ function job, phase'.runs? = some (function, job) →
    job.kind = function := by
  obtain ⟨history, sound, ok⟩ := known
  have stepped : ∀ {input effect}, Next rt (replay db pending) outside phase input effect →
    label = some input →
      ∀ function job, effect.phase.runs? = some (function, job) → job.kind = function := by
    intro input effect step same function job runs
    rcases next_runs step runs with ⟨old, before, kind⟩ | ⟨jobId, rfl, found⟩
    · exact kind ▸ ran function old before
    · have allows := allowed input same
      rw [clean_view history rfl] at found
      simp only [taskGuard, found, Option.all_some, decide_eq_true_eq] at allows
      exact allows
  cases moves with
  | read next => exact ⟨delivered, stepped (next_cases next) rfl⟩
  | write next admitted => exact ⟨delivered, stepped (next_cases next) rfl⟩
  | refused next refused => exact ⟨delivered, fun _ _ runs => (nomatch dropped_runs.symm.trans runs)⟩
  | abort => exact ⟨delivered, fun _ _ runs => (nomatch dropped_runs.symm.trans runs)⟩
  | fail next => exact ⟨delivered, stepped (next_cases next) rfl⟩
  | commit next =>
    obtain ⟨batch, sent, rfl, _, rfl, rfl, rfl, _⟩ := commit_change history (next_cases next)
    refine ⟨?_, ?_⟩
    · by_cases deletes : ∃ held, batch = .delete held
      · obtain ⟨held, rfl⟩ := deletes
        exact deleted_delivers delivered sound fun f here => .inr (.inl here)
      · exact replay_delivers delivered ran kept sound ok fun id member => deletes (Batch.deletes member)
    · intro function job runs
      obtain ⟨old, rfl, kind⟩ := after_runs runs
      exact kind ▸ ran function old rfl

end Steps

theorem delivery_stable (rt : Runtime) :
    Stable (resumeSystem rt) taskGuard ((knownAssertion rt).and catalogueAssertion) deliveryAssertion where
  start {db outside request phase outside'} _ delivered started := by
    cases started
    refine ⟨delivered, fun function job runs => ?_⟩
    cases request <;> cases runs
  startOther _ _ ran started := by
    cases started
    exact ⟨ran, trivial, trivial⟩
  own _ known delivered ran allowed moves := delivery_own known.1 known.2 delivered ran allowed moves
  other _ _ _ _ _ _ _ ran _ _ _ _ _ := ⟨ran, trivial, trivial⟩

theorem delivery_holds {rt : Runtime} {s : State Database Outside Phase Write}
    (reached : Runs (resumeSystem rt) taskGuard initialState s) :
    ∀ job ∈ s.db.jobs, job.Delivers s.db.artifacts :=
  (holds_idle_runs conflicts_symm (delivery_stable rt) (fun _ run =>
    (known_holds run.free).and (catalogue_holds run.free)) rfl
    (by intro _ member; cases member) reached).2.common

/-- The file behind an artifact is the rendering of its revision, and the row says so. -/
def Rendered (rt : Runtime) (s : State Database Outside Phase Write) (artifact : ResumeRenderArtifact) :
    Prop :=
  ∃ revision ∈ s.db.revisions, ∃ pdf, revision.id = artifact.revisionId ∧ rendered rt revision.documentJson =
    some pdf ∧
    s.outside.storage.lookup artifact.storageKey = some pdf ∧ artifact.byteSize = pdf.length ∧
      artifact.sha256 = sha256 pdf

theorem artifact_rendered {rt : Runtime} {s : State Database Outside Phase Write}
    (catalogued : Catalogued s.db s.outside)
    (sound : (resumeFacts rt).Sound s.outside ((resumeFacts rt).common s.db s.outside))
    {artifact : ResumeRenderArtifact} (member : artifact ∈ s.db.artifacts) : Rendered rt s artifact := by
  obtain ⟨revision, listed, named⟩ := catalogued.drawn artifact member
  obtain ⟨pdf, kept⟩ := Option.isSome_iff_exists.mp (catalogued.stored artifact member)
  have digest : (resumeFacts rt).common s.db s.outside artifact.fact :=
    .inl (Database.mem_facts.mpr (.inr (.inr (.inr (.inl ⟨artifact, member, rfl⟩)))))
  have source : (resumeFacts rt).common s.db s.outside (.revision revision) :=
    .inl (Database.mem_facts.mpr (.inr (.inl ⟨revision, listed, rfl⟩)))
  have stored : (resumeFacts rt).common s.db s.outside (.stored artifact.storageKey pdf) :=
    .inr ⟨_, lookup_entry kept, rfl⟩
  obtain ⟨⟨userId, workspaceId, key⟩, _⟩ := sound.known _ digest
  have drawn := (sound.agreed _ _ source stored).1 userId workspaceId (named ▸ key)
  obtain ⟨size, sha⟩ := (sound.agreed _ _ digest stored).1 rfl
  exact ⟨revision, listed, pdf, named, drawn, kept, size, sha⟩

/-- The owner of a finished export gets the file of its artifact, unless the store fails. -/
theorem download_found {db : Database} {outside : Outside} (catalogued : Catalogued db outside)
    {job : ResumeJob} (member : job ∈ db.jobs) {artifact : ResumeRenderArtifact}
    (listed : artifact ∈ db.artifacts) (render : job.kind = .render) (succeeded : job.status = .succeeded)
    (result : job.resultRevisionId = some artifact.revisionId) (storage : List (Str × List UInt8))
    (input : Input) :
    ∃ made ∈ db.artifacts, made.revisionId = artifact.revisionId ∧
      downloadRenderJob db db job.userId job.id storage input =
      raised (getVerifiedBytes storage made.storageKey made.sha256 input) fun content =>
        .ok ⟨content, "resume-".toList ++ decimal job.workspaceId ++ ".pdf".toList, some made.sha256⟩ := by
  have queried : (db.jobs.find? fun row => row.id = job.id ∧ row.userId = job.userId ∧ row.kind = .render) =
      some job := by
    cases found : db.jobs.find? fun row => row.id = job.id ∧ row.userId = job.userId ∧ row.kind = .render with
    | none =>
      have missing := List.find?_eq_none.mp found job member
      simp [render] at missing
    | some row =>
      have matched := List.find?_some found
      simp only [decide_eq_true_eq] at matched
      rw [List.inj_on_of_nodup_map catalogued.uniqueJobs (List.mem_of_find?_eq_some found) member matched.1]
  have made : db.artifact? artifact.revisionId ≠ none := by
    intro missing
    have rows := lastBy_none missing
    exact absurd (List.mem_filter.mpr ⟨listed, decide_eq_true rfl⟩) (by rw [rows]; exact List.not_mem_nil)
  obtain ⟨row, found⟩ := Option.ne_none_iff_exists'.mp made
  obtain ⟨inside, same⟩ := artifact?_some found
  refine ⟨row, inside, same, ?_⟩
  simp only [downloadRenderJob, queried, orElse, succeeded, result, found]

/-- Artifacts, finished exports and applications all hold the rendering of the document they are of. -/
theorem artifacts_agree {rt : Runtime} {s : State Database Outside Phase Write}
    (reached : Runs (resumeSystem rt) taskGuard initialState s) :
    (∀ artifact ∈ s.db.artifacts, Rendered rt s artifact) ∧
    (∀ job ∈ s.db.jobs, job.kind = .render → job.status = .succeeded →
      (∃ artifact ∈ s.db.artifacts, job.resultRevisionId = some artifact.revisionId ∧
        Rendered rt s artifact) ∧
      (∃ answer, downloadRenderJob s.db s.db job.userId job.id s.outside.storage .answer = .ok answer) ∧
      ∀ input detail, downloadRenderJob s.db s.db job.userId job.id s.outside.storage input ≠
        .error (.http 404 detail)) ∧
    ∀ application ∈ s.db.applications, Faithful rt application.toApplicationSnapshot := by
  have catalogued := (catalogue_holds reached.free).common
  have sound := (facts_hold reached.free).common
  refine ⟨fun artifact member => artifact_rendered catalogued sound member, ?_, ?_⟩
  · intro job member render succeeded
    obtain ⟨artifact, listed, result⟩ := delivery_holds reached job member render succeeded
    refine ⟨⟨artifact, listed, result, artifact_rendered catalogued sound listed⟩, ?_, ?_⟩
    · obtain ⟨made, inside, _, answer⟩ :=
        download_found catalogued member listed render succeeded result s.outside.storage .answer
      obtain ⟨_, _, pdf, _, _, kept, _, sha⟩ := artifact_rendered catalogued sound inside
      have verified : getVerifiedBytes s.outside.storage made.storageKey made.sha256 .answer = some pdf :=
        Option.filter_eq_some_iff.mpr ⟨kept, decide_eq_true sha.symm⟩
      rw [answer, verified]
      exact ⟨_, rfl⟩
    · intro input detail
      obtain ⟨made, _, _, answer⟩ :=
        download_found catalogued member listed render succeeded result s.outside.storage input
      rw [answer]
      cases getVerifiedBytes s.outside.storage made.storageKey made.sha256 input <;> exact fun same =>
        nomatch same
  · intro application member
    have copied : (resumeFacts rt).common s.db s.outside
        (.application application.id application.userId application.toApplicationSnapshot) :=
      .inl (Database.mem_facts.mpr (.inr (.inr (.inr (.inr ⟨application, member, List.mem_cons_self⟩)))))
    exact (sound.known _ copied).2

def exporting : List (Action Input Request) :=
  creating ++ approving :: stepping 1 3 ++ .start (.owned 7 1 .queueExportJob) :: stepping 2 4 ++
    .start (.runRenderJob 1) :: stepping 3 10 ++ applying :: stepping 4 6

theorem artifacts_agree_exported : ∃ s, Runs (resumeSystem plainRuntime) taskGuard initialState s ∧
    s.db.jobs = [⟨1, 7, 1, .render, .succeeded, some 1, none⟩] ∧ s.db.applications ≠ [] ∧
    (∃ artifact ∈ s.db.artifacts, Rendered plainRuntime s artifact) ∧
    ∀ application ∈ s.db.applications, Faithful plainRuntime application.toApplicationSnapshot := by
  have ran : ((resumeSystem plainRuntime).perform taskGuard initialState exporting).any
      (fun s => s.db.jobs = [⟨1, 7, 1, .render, .succeeded, some 1, none⟩] ∧ s.db.applications ≠ []) = true :=
        by decide +kernel
  obtain ⟨s, reached, check⟩ := runs_of_performed ran
  obtain ⟨jobs, applications⟩ := of_decide_eq_true check
  obtain ⟨_, delivered, faithful⟩ := artifacts_agree reached
  obtain ⟨⟨artifact, listed, _, rendered⟩, _⟩ := delivered ⟨1, 7, 1, .render, .succeeded, some 1, none⟩
    (by rw [jobs]; exact List.mem_cons_self) rfl rfl
  exact ⟨s, reached, jobs, applications, ⟨artifact, listed, rendered⟩, faithful⟩

end ManifestCV.Workspace
