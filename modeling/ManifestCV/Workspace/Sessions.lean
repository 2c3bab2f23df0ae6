import ManifestCV.Workspace.Transitions

namespace ManifestCV.Workspace

open Foundation Foundation.Transactions Document Render

def Writer.held? : Writer → Option ResumeWorkspace
  | .create _ => none
  | .save held _ _ _ => some held
  | .worker _ held _ => some held

def Batch.held? : Batch → Option ResumeWorkspace
  | .revision writer _ _ => writer.held?
  | .approve held | .delete held | .exported held _ _ | .rendered _ held _ _ | .applied held _ _ _ _ =>
      some held
  | _ => none

def Phase.held? : Phase → Option ResumeWorkspace
  | .source held _ | .thinking held _ _ | .saving held _ _ | .latest held _ _ _ | .insertJob held _ =>
      some held
  | .artifact held _ _ | .readStored held _ _ _ | .store held _ _ _ | .insertArtifact held _ _ _ _ =>
      some held
  | .insertApplication held _ _ _ | .jobRevision _ _ held | .jobThinking _ held _ => some held
  | .insertRevision writer _ => writer.held?
  | .flush batch _ | .finished (.committed batch) => batch.held?
  | _ => none

def Batch.published? : Batch → Option (ResumeWorkspace × ResumeRevision)
  | .exported held source _ | .rendered _ held source _ | .applied held source _ _ _ => some (held, source)
  | _ => none

def Phase.published? : Phase → Option (ResumeWorkspace × ResumeRevision)
  | .artifact held row _ | .readStored held row _ _ | .store held row _ _ | .insertArtifact held row _ _ _ =>
      some (held, row)
  | .insertApplication held row _ _ => some (held, row)
  | .flush batch _ | .finished (.committed batch) => batch.published?
  | _ => none

def Phase.writer? : Phase → Option Writer
  | .insertRevision writer _ | .flush (.revision writer _ _) _ => some writer
  | _ => none

def Phase.pending : Phase → List Write
  | .insertRevision writer _ => writer.before
  | .insertApplication held _ _ rendering => rendering.writes held
  | .flush batch sent => batch.writes.take sent
  | _ => []

def Phase.Inserted : Phase → Prop
  | .flush (.revision writer _ _) sent => writer.before.length < sent
  | _ => True

def Follows (phase : Phase) : Effect Outside Phase Write → Prop
  | .read phase' _ => phase'.pending = phase.pending
  | .write w phase' _ => phase'.pending = phase.pending ++ [w]
  | .commit phase' _ => phase'.pending = []
  | .fail phase' => phase'.pending = []

def Outside.Grows (outside outside' : Outside) : Prop :=
  outside.nextWorkspaceId ≤ outside'.nextWorkspaceId ∧ outside.nextRevisionId ≤ outside'.nextRevisionId

def Write.createsNothing : Write → Prop
  | .insertWorkspace _ | .insertRevision _ => False
  | _ => True

theorem Outside.Grows.refl (outside : Outside) : outside.Grows outside := ⟨Nat.le_refl _, Nat.le_refl _⟩

section Pending

variable (held : ResumeWorkspace) (revision : ResumeRevision) (rendering : Rendering) (reader : Reader)

theorem afterRendering_pending :
    (afterRendering held revision rendering reader).pending = rendering.writes held := by
  cases reader with
  | exportWorkspace => simp [afterRendering, Phase.pending, Batch.writes]
  | createApplication fields => rfl
  | renderJob job => simp [afterRendering, Phase.pending, Batch.writes]

theorem afterRendering_held : (afterRendering held revision rendering reader).held? = some held := by
  cases reader <;> rfl

theorem afterRendering_source : (afterRendering held revision rendering reader).source? = some revision := by
  cases reader <;> rfl

theorem afterRendering_inserted : (afterRendering held revision rendering reader).Inserted := by
  cases reader <;> trivial

end Pending

theorem job_pending {phase : Phase} {job : ResumeJob} (running : phase.job? = some job) :
    phase.pending = [] := by
  cases phase <;> first | rfl | cases running

theorem Batch.after_pending (batch : Batch) : batch.after.pending = [] := by
  cases batch <;> rfl

inductive Writes : Batch → Write → Prop
  | opens {workspace revisionId text} :
      Writes (.revision (.create workspace) revisionId text) (.insertWorkspace workspace)
  | inserts {writer revisionId text} :
      Writes (.revision writer revisionId text) (.insertRevision (revisionRow writer revisionId text))
  | points {writer revisionId text} :
      Writes (.revision writer revisionId text) (.setCurrentRevision writer.workspaceId revisionId)
  | reports {job held source revisionId text} : Writes (.revision (.worker job held source) revisionId text)
      (.updateJob job.workspaceId job.id ⟨.succeeded, some revisionId, none⟩)
  | approves {held} (draft : held.status ≠ .approved) : Writes (.approve held) (.setStatus held.id .approved)
  | locks {held} : Writes (.delete held) (.lockWorkspace held.id)
  | deletes {held} : Writes (.delete held) (.deleteWorkspace held.id)
  | queues {row} : Writes (.queueJob row) (.insertJob row)
  | starts {function job} :
      Writes (.startJob function job) (.updateJob job.workspaceId job.id ⟨.running, none, none⟩)
  | fails {job code message} :
      Writes (.failJob job code message)
        (.updateJob job.workspaceId job.id ⟨.failed, none, some (code, message)⟩)
  | draws {batch : Batch} {held : ResumeWorkspace} {source : ResumeRevision} {rendering : Rendering}
      (published : batch.published? = some (held, source)) (inserted : rendering.inserted = true) :
      Writes batch (.insertArtifact held.id rendering.artifact)
  | renders {job held source rendering} : Writes (.rendered job held source rendering)
      (.updateJob job.workspaceId job.id ⟨.succeeded, some source.id, none⟩)
  | applies {held source fields rendering applicationId} :
      Writes (.applied held source fields rendering applicationId)
      (.insertApplication (applicationRow held source fields rendering applicationId))
  | tracks {row fields} : Writes (.tracked row fields) (.updateApplication row.id (row.changes fields))
  | removes {row} : Writes (.removed row) (.deleteApplication row.id)

theorem Batch.mem_writes {batch : Batch} {w : Write} (member : w ∈ batch.writes) : Writes batch w := by
  have drawn : ∀ {held : ResumeWorkspace} {source : ResumeRevision} {rendering : Rendering},
      batch.published? = some (held, source) → w ∈ rendering.writes held → Writes batch w := by
    intro held source rendering published member
    unfold Rendering.writes at member
    split at member
    · rename_i inserted
      rw [List.mem_singleton.mp member]
      exact .draws published inserted
    · cases member
  cases batch with
  | revision writer revisionId text =>
    simp only [Batch.writes, List.mem_append, List.mem_cons, List.not_mem_nil, or_false] at member
    rcases member with (before | rfl | rfl) | reported
    · cases writer with
      | create workspace =>
        rw [List.mem_singleton.mp before]
        exact .opens
      | save held caller payload number => cases before
      | worker job held source => cases before
    · exact .inserts
    · exact .points
    · cases writer with
      | worker job held source =>
        rw [List.mem_singleton.mp reported]
        exact .reports
      | create workspace => cases reported
      | save held caller payload number => cases reported
  | approve held =>
    simp only [Batch.writes] at member
    split at member
    · cases member
    · rename_i draft
      rw [List.mem_singleton.mp member]
      exact .approves draft
  | startJob function job =>
    simp only [Batch.writes] at member
    split at member
    · cases member
    · rw [List.mem_singleton.mp member]
      exact .starts
  | delete held =>
    rcases List.mem_cons.mp member with rfl | member
    · exact .locks
    · rw [List.mem_singleton.mp member]
      exact .deletes
  | queueJob row =>
    rw [List.mem_singleton.mp member]
    exact .queues
  | failJob job code message =>
    rw [List.mem_singleton.mp member]
    exact .fails
  | exported held source rendering => exact drawn rfl member
  | rendered job held source rendering =>
    rcases List.mem_append.mp member with member | member
    · exact drawn rfl member
    · rw [List.mem_singleton.mp member]
      exact .renders
  | applied held source fields rendering applicationId =>
    rcases List.mem_append.mp member with member | member
    · exact drawn rfl member
    · rw [List.mem_singleton.mp member]
      exact .applies
  | tracked row fields =>
    rw [Batch.writes] at member
    split at member
    · cases member
    · rw [List.mem_singleton.mp member]
      exact .tracks
  | removed row =>
    rw [List.mem_singleton.mp member]
    exact .removes

theorem Batch.deletes {batch : Batch} {id : Nat} (member : .deleteWorkspace id ∈ batch.writes) :
    ∃ held, batch = .delete held := by
  generalize written : Write.deleteWorkspace id = w at member
  cases Batch.mem_writes member <;> cases written
  exact ⟨_, rfl⟩

theorem Batch.mem_delete (held : ResumeWorkspace) : .deleteWorkspace held.id ∈ (Batch.delete held).writes :=
  List.mem_cons_of_mem _ List.mem_cons_self

theorem Batch.sent_createsNothing {batch : Batch} {sent : Nat} {w : Write}
    (inserted : (Phase.flush batch sent).Inserted) (more : batch.writes[sent]? = some w) :
    w.createsNothing := by
  cases batch with
  | revision writer revisionId text =>
    have rest : writer.before ++ [.insertRevision (revisionRow writer revisionId text),
        .setCurrentRevision writer.workspaceId revisionId] ++ writer.reports revisionId =
        (writer.before ++ [.insertRevision (revisionRow writer revisionId text)]) ++
          .setCurrentRevision writer.workspaceId revisionId :: writer.reports revisionId := by simp
    rw [Batch.writes, rest, List.getElem?_append_right (by simpa using Nat.succ_le_of_lt inserted)] at more
    rcases List.mem_cons.mp (List.mem_of_getElem? more) with rfl | reported
    · trivial
    · cases writer with
      | worker job held source =>
        rw [List.mem_singleton.mp reported]
        trivial
      | create workspace => cases reported
      | save held caller payload number => cases reported
  | _ => cases Batch.mem_writes (List.mem_of_getElem? more) <;> trivial

theorem Batch.after_inserted (batch : Batch) : batch.after.Inserted := by
  cases batch <;> trivial

theorem Batch.after_held (batch : Batch) : batch.after.held? = batch.held? := by
  cases batch <;> rfl

theorem Batch.after_source (batch : Batch) : batch.after.source? = batch.source? := by
  cases batch <;> rfl

section Steps

variable {rt : Runtime} {db : Database} {outside : Outside} {phase : Phase} {input : Input}
  {effect : Effect Outside Phase Write}

theorem next_pending (step : Next rt db outside phase input effect) : Follows phase effect := by
  cases step with
  | inserted =>
    rename_i writer text
    cases writer <;> rfl
  | verified => exact afterRendering_pending _ _ _ _
  | catalogued => exact afterRendering_pending _ _ _ _
  | applied =>
    rename_i held revision fields rendering
    simp [Follows, Phase.pending, Batch.writes, List.take_append]
  | sent more =>
    rename_i batch sent w
    simp only [Follows, Phase.pending]
    rw [List.take_add_one, more]
    rfl
  | committed all => exact Batch.after_pending _
  | jobFailed running => exact (job_pending running).symm
  | approving => rfl
  | deleting => rfl
  | started => rfl
  | _ => rfl

theorem next_inserted (step : Next rt db outside phase input effect) (inserted : phase.Inserted) :
    effect.phase.Inserted := by
  cases step with
  | inserted => exact Nat.lt_succ_self _
  | verified => exact afterRendering_inserted _ _ _ _
  | catalogued => exact afterRendering_inserted _ _ _ _
  | sent more =>
    rename_i batch sent w
    cases batch <;> first | trivial | exact Nat.lt_succ_of_lt inserted
  | committed all => exact Batch.after_inserted _
  | failed plain => trivial
  | _ => trivial

theorem next_held (step : Next rt db outside phase input effect) :
    effect.phase.held? = none ∨ effect.phase.held? = phase.held? ∨
      phase.pending = [] ∧ ∃ held ∈ db.workspaces, effect.phase.held? = some held := by
  cases step with
  | checked found passed => exact .inr (.inr ⟨rfl, _, (owned?_some found).1, rfl⟩)
  | reading found => exact .inr (.inr ⟨rfl, _, (owned?_some found).1, rfl⟩)
  | approving found => exact .inr (.inr ⟨rfl, _, (owned?_some found).1, rfl⟩)
  | deleting found => exact .inr (.inr ⟨rfl, _, (owned?_some found).1, rfl⟩)
  | queueing found => exact .inr (.inr ⟨rfl, _, (owned?_some found).1, rfl⟩)
  | jobOwner found => exact .inr (.inr ⟨rfl, _, (workspace?_some found).1, rfl⟩)
  | verified => exact .inr (.inl (afterRendering_held _ _ _ _))
  | catalogued => exact .inr (.inl (afterRendering_held _ _ _ _))
  | committed all => exact .inr (.inl (Batch.after_held _))
  | failed plain =>
    rename_i outcome
    cases outcome <;> first | exact .inl rfl | cases plain
  | _ => first | exact .inl rfl | exact .inr (.inl rfl)

/-- A loaded revision is kept with its workspace or was just found, by the workspace's pointer or in its
    history. -/
theorem next_source (step : Next rt db outside phase input effect) :
    effect.phase.source? = none ∨
      (effect.phase.source? = phase.source? ∧ effect.phase.held? = phase.held?) ∨
      phase.pending = [] ∧ ∃ held source, phase.held? = some held ∧ effect.phase.held? = some held ∧
        effect.phase.source? = some source ∧ source ∈ db.revisions ∧
        (held.currentRevisionId = some source.id ∨ source.workspaceId = held.id) := by
  have pointed : ∀ {held : ResumeWorkspace} {source}, held.currentRevisionId.bind db.revision? = some source →
      source ∈ db.revisions ∧ (held.currentRevisionId = some source.id ∨ source.workspaceId = held.id) :=
    fun found => ⟨(pointed_some found).1, .inl (pointed_some found).2⟩
  cases step with
  | loaded editing found => exact .inr (.inr ⟨rfl, _, _, rfl, rfl, rfl, pointed found⟩)
  | restoring found home =>
    exact .inr (.inr ⟨rfl, _, _, rfl, rfl, rfl, (revision?_some found).1, .inr home⟩)
  | publishing publishes found => exact .inr (.inr ⟨rfl, _, _, rfl, rfl, rfl, pointed found⟩)
  | jobLoaded found => exact .inr (.inr ⟨rfl, _, _, rfl, rfl, rfl, pointed found⟩)
  | jobRendering found => exact .inr (.inr ⟨rfl, _, _, rfl, rfl, rfl, pointed found⟩)
  | written =>
    rename_i held refining source text payload document loaded structured
    cases refining <;> exact .inr (.inl ⟨rfl, rfl⟩)
  | verified => exact .inr (.inl ⟨afterRendering_source _ _ _ _, afterRendering_held _ _ _ _⟩)
  | catalogued => exact .inr (.inl ⟨afterRendering_source _ _ _ _, afterRendering_held _ _ _ _⟩)
  | committed all => exact .inr (.inl ⟨Batch.after_source _, Batch.after_held _⟩)
  | failed plain =>
    rename_i outcome
    cases outcome <;> first | exact .inl rfl | cases plain
  | _ => first | exact .inl rfl | exact .inr (.inl ⟨rfl, rfl⟩)

structure PublishOk (phase : Phase) : Prop where
  reading : ∀ held call, phase = .source held call → call.publishes.isSome = true → held.status = .approved
  published : ∀ held source, phase.published? = some (held, source) →
    phase.held? = some held ∧ held.status = .approved ∧ held.currentRevisionId = some source.id

theorem PublishOk.none {phase : Phase} (reading : ∀ held call, phase ≠ .source held call)
    (nothing : phase.published? = none) :
    PublishOk phase where
  reading held call same := absurd same (reading held call)
  published _ _ same := absurd (nothing.symm.trans same) (fun same => nomatch same)

theorem afterRendering_published (held : ResumeWorkspace) (revision : ResumeRevision) (rendering : Rendering)
    (reader : Reader) :
    (afterRendering held revision rendering reader).published? = some (held, revision) := by
  cases reader <;> rfl

theorem next_publishOk (step : Next rt db outside phase input effect) (ok : PublishOk phase) :
    PublishOk effect.phase := by
  have drawn : ∀ {held : ResumeWorkspace} {source : ResumeRevision} {rendering : Rendering} {reader : Reader},
      phase.published? = some (held, source) → PublishOk (afterRendering held source rendering reader) := by
    intro held source rendering reader same
    obtain ⟨_, status, pointer⟩ := ok.published _ _ same
    refine ⟨?_, ?_⟩
    · intro held' call reached
      cases reader <;> cases reached
    · intro held' source' reached
      rw [afterRendering_published] at reached
      cases reached
      exact ⟨afterRendering_held _ _ _ _, status, pointer⟩
  cases step with
  | reading found editing publishing =>
    refine ⟨?_, fun _ _ same => (nomatch same)⟩
    intro held call same publishes
    cases same
    exact publishing publishes
  | publishing publishes found =>
    refine ⟨fun _ _ same => (nomatch same), ?_⟩
    intro held source same
    cases same
    exact ⟨rfl, ok.reading _ _ rfl (by rw [publishes]; rfl), (pointed_some found).2⟩
  | jobRendering found approved =>
    refine ⟨fun _ _ same => (nomatch same), ?_⟩
    intro held source same
    cases same
    exact ⟨rfl, approved, (pointed_some found).2⟩
  | rendered => exact ⟨fun _ _ same => (nomatch same), fun held source same => ok.published held source same⟩
  | rendering => exact ⟨fun _ _ same => (nomatch same), fun held source same => ok.published held source same⟩
  | put => exact ⟨fun _ _ same => (nomatch same), fun held source same => ok.published held source same⟩
  | applied => exact ⟨fun _ _ same => (nomatch same), fun held source same => ok.published held source same⟩
  | sent => exact ⟨fun _ _ same => (nomatch same), fun held source same => ok.published held source same⟩
  | verified => exact drawn rfl
  | catalogued => exact drawn rfl
  | committed all =>
    rename_i batch sent
    cases batch <;> first
      | exact .none (fun _ _ same => nomatch same) rfl
      | exact ⟨fun _ _ same => (nomatch same), fun held source same => ok.published held source same⟩
  | failed plain =>
    rename_i outcome
    cases outcome <;> first | exact .none (fun _ _ same => nomatch same) rfl | cases plain
  | _ => exact .none (fun _ _ same => nomatch same) rfl

theorem next_outside (step : Next rt db outside phase input effect) :
    match effect with
    | .read _ outside' => outside.Grows outside'
    | .write _ _ outside' => outside.Grows outside'
    | .commit _ outside' => outside' = outside
    | .fail _ => True := by
  cases step <;> first | exact ⟨Nat.le_refl _, Nat.le_refl _⟩ | exact ⟨Nat.le_succ _, Nat.le_refl _⟩ |
    exact ⟨Nat.le_refl _, Nat.le_succ _⟩ | trivial

theorem next_write {w : Write} {phase' : Phase} {outside' : Outside} (inserted : phase.Inserted)
    (step : Next rt db outside phase input (.write w phase' outside')) :
    (∃ userId key text, phase = .create userId key ∧
      w = .insertWorkspace ⟨outside.nextWorkspaceId, userId, key, .draft, none⟩ ∧
      phase' = .insertRevision (.create ⟨outside.nextWorkspaceId, userId, key, .draft, none⟩) text ∧
      outside'.nextWorkspaceId = outside.nextWorkspaceId + 1 ∧ outside'.nextRevisionId =
        outside.nextRevisionId) ∨
    (∃ writer text, phase = .insertRevision writer text ∧
      w = .insertRevision (revisionRow writer outside.nextRevisionId text) ∧
      phase' = .flush (.revision writer outside.nextRevisionId text) (writer.before.length + 1) ∧
      outside'.nextRevisionId = outside.nextRevisionId + 1 ∧ outside'.nextWorkspaceId =
        outside.nextWorkspaceId) ∨
    (w.createsNothing ∧ (∀ writer text, phase' ≠ .insertRevision writer text) ∧
      outside'.nextWorkspaceId = outside.nextWorkspaceId ∧ outside'.nextRevisionId =
        outside.nextRevisionId) := by
  cases step with
  | created template => exact .inl ⟨_, _, _, rfl, rfl, rfl, rfl, rfl⟩
  | inserted => exact .inr (.inl ⟨_, _, rfl, rfl, rfl, rfl, rfl⟩)
  | sent more =>
    rename_i batch sent
    exact .inr (.inr ⟨Batch.sent_createsNothing inserted more, fun _ _ same => (nomatch same), rfl, rfl⟩)
  | catalogued =>
    rename_i held revision reader key pdf
    refine .inr (.inr ⟨trivial, ?_, rfl, rfl⟩)
    intro writer text same
    cases reader <;> cases same
  | queued => exact .inr (.inr ⟨trivial, fun _ _ same => (nomatch same), rfl, rfl⟩)
  | applied => exact .inr (.inr ⟨trivial, fun _ _ same => (nomatch same), rfl, rfl⟩)

theorem next_numbered {writer : Writer} {text : Str} {outside' : Outside}
    (step : Next rt db outside phase input (.read (.insertRevision writer text) outside')) :
    phase.pending = [] ∧
      ((∃ held caller payload, phase.held? = some held ∧ writer = .save held caller payload
        (((db.latestRevision? held.id).map (·.revisionNumber)).getD 0 + 1)) ∨
      ∃ job held source, phase = .jobThinking job held source ∧ writer = .worker job held source) := by
  generalize reached : Effect.read (Phase.insertRevision writer text) outside' = effect at step
  cases step with
  | numbered =>
    cases reached
    exact ⟨rfl, .inl ⟨_, _, _, rfl, rfl⟩⟩
  | jobWritten =>
    cases reached
    exact ⟨rfl, .inr ⟨_, _, _, rfl, rfl⟩⟩
  | verified kept digest =>
    rename_i held revision reader row pdf
    cases reader <;> cases reached
  | _ => cases reached

theorem next_writer {writer : Writer} (step : Next rt db outside phase input effect)
    (writing : effect.phase.writer? = some writer) :
    phase.writer? = some writer ∨ phase.pending = [] ∧ ((∃ workspace, writer = .create workspace) ∨
      (∃ held caller payload document, phase = .latest held caller payload document ∧
        writer = .save held caller payload
          (((db.latestRevision? held.id).map (·.revisionNumber)).getD 0 + 1)) ∨
      ∃ job held source, phase = .jobThinking job held source ∧ writer = .worker job held source) := by
  cases step with
  | created template => exact .inr ⟨rfl, .inl ⟨_, (Option.some.inj writing).symm⟩⟩
  | numbered => exact .inr ⟨rfl, .inr (.inl ⟨_, _, _, _, rfl, (Option.some.inj writing).symm⟩)⟩
  | jobWritten => exact .inr ⟨rfl, .inr (.inr ⟨_, _, _, rfl, (Option.some.inj writing).symm⟩)⟩
  | inserted => exact .inl writing
  | sent more =>
    rename_i batch sent w
    cases batch <;> exact .inl writing
  | verified kept digest =>
    rename_i held revision reader row pdf
    cases reader <;> cases writing
  | catalogued =>
    rename_i held revision reader key pdf
    cases reader <;> cases writing
  | committed all =>
    rename_i batch sent
    cases batch <;> cases writing
  | _ => cases writing

theorem writer_held {writer : Writer} (writing : phase.writer? = some writer) :
    phase.held? = writer.held? := by
  cases phase with
  | insertRevision other text => cases writing; rfl
  | flush batch sent => cases batch <;> cases writing; rfl
  | _ => cases writing

theorem flush_pending {writer : Writer} {revisionId : Nat} {text : Str} {sent : Nat}
    (inserted : (Phase.flush (.revision writer revisionId text) sent).Inserted) :
    .insertRevision (revisionRow writer revisionId text) ∈
      (Phase.flush (.revision writer revisionId text) sent).pending := by
  have here : (Batch.revision writer revisionId text).writes[writer.before.length]? =
      some (.insertRevision (revisionRow writer revisionId text)) := by simp [Batch.writes]
  refine List.mem_iff_getElem?.mpr ⟨writer.before.length, ?_⟩
  rw [Phase.pending, List.getElem?_take_of_lt inserted, here]

theorem pending_revision {row : ResumeRevision} (member : .insertRevision row ∈ phase.pending) :
    ∃ writer revisionId text sent, phase = .flush (.revision writer revisionId text) sent ∧
      row = revisionRow writer revisionId text := by
  cases phase with
  | insertRevision writer text => cases writer <;> simp [Phase.pending, Writer.before] at member
  | insertApplication held source fields rendering =>
    simp only [Phase.pending, Rendering.writes] at member
    split at member <;> simp at member
  | flush batch sent =>
    generalize written : Write.insertRevision row = w at member
    cases Batch.mem_writes (List.mem_of_mem_take member) <;> cases written
    exact ⟨_, _, _, sent, rfl, rfl⟩
  | _ => cases member

theorem next_commit {phase' : Phase} {outside' : Outside}
    (step : Next rt db outside phase input (.commit phase' outside')) :
    ∃ batch sent, phase = .flush batch sent ∧ batch.writes[sent]? = none ∧ phase' = batch.after ∧
      outside' = outside := by
  cases step with
  | committed all => exact ⟨_, _, rfl, all, rfl, rfl⟩

end Steps

end ManifestCV.Workspace
