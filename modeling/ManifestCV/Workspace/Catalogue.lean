import ManifestCV.Workspace.Facts

namespace ManifestCV.Workspace

open Foundation Foundation.Transactions Document Render

def ApplicationRecord.Anchored (row : ApplicationRecord) (revisions : List ResumeRevision) : Prop :=
  ∀ revisionId, row.resumeRevisionId = some revisionId →
    ∃ revision ∈ revisions, revision.id = revisionId ∧ row.resumeWorkspaceId = some revision.workspaceId

structure Catalogued (db : Database) (outside : Outside) : Prop where
  stored : ∀ artifact ∈ db.artifacts, (outside.storage.lookup artifact.storageKey).isSome
  drawn : ∀ artifact ∈ db.artifacts, ∃ revision ∈ db.revisions, revision.id = artifact.revisionId
  placed : ∀ job ∈ db.jobs, db.workspace? job.workspaceId ≠ none
  uniqueJobs : (db.jobs.map (·.id)).Nodup
  anchored : ∀ application ∈ db.applications, application.Anchored db.revisions

def Write.Rooted (db : Database) (outside : Outside) : Write → Prop
  | .insertArtifact workspaceId row => (outside.storage.lookup row.storageKey).isSome ∧
      db.workspace? workspaceId ≠ none ∧
      ∃ revision ∈ db.revisions, revision.id = row.revisionId ∧ revision.workspaceId = workspaceId
  | .insertJob row => row.status = .queued ∧ db.workspace? row.workspaceId ≠ none ∧ ∀ job ∈ db.jobs,
      job.id ≠ row.id
  | .updateJob workspaceId _ _ => db.workspace? workspaceId ≠ none
  | .insertApplication row => row.Anchored db.revisions
  | _ => True

def Rendering.found? (held : ResumeWorkspace) (rendering : Rendering) :
    Option (ResumeWorkspace × ResumeRenderArtifact) :=
  if rendering.inserted then none else some (held, rendering.artifact)

def Phase.found? : Phase → Option (ResumeWorkspace × ResumeRenderArtifact)
  | .readStored held _ _ row => some (held, row)
  | .insertApplication held _ _ rendering => rendering.found? held
  | .flush (.exported held _ rendering) _ | .flush (.rendered _ held _ rendering) _ => rendering.found? held
  | .flush (.applied held _ _ rendering _) _ => rendering.found? held
  | _ => none

def Phase.key? : Phase → Option Str
  | .insertArtifact _ _ _ key _ => some key
  | _ => none

def Write.inserts : Write → Bool
  | .insertArtifact _ _ | .insertJob _ | .insertApplication _ => true
  | _ => false

def Phase.Left : Phase → Prop
  | .flush batch sent => ∀ w ∈ batch.writes.drop sent, w.inserts = false
  | _ => True

structure Kept (db : Database) (outside : Outside) (phase : Phase) (pending : List Write) : Prop where
  rooted : ∀ w ∈ pending, w.Rooted db outside
  found : ∀ held artifact, phase.found? = some (held, artifact) → db.workspace? held.id ≠ none →
    artifact ∈ db.artifacts
  keyed : ∀ key, phase.key? = some key → (outside.storage.lookup key).isSome
  left : phase.Left

def catalogueAssertion : Assertion Database Outside Phase Write where
  common := Catalogued
  own := Kept
  pair _ _ _ _ := True

def knownAssertion (rt : Runtime) : Assertion Database Outside Phase Write :=
  historyAssertion.and ((resumeFacts rt).assertion.and (Assertion.phase Placed))

section Replay

variable {db : Database} {writes : List Write}

theorem replay_keeps (keeps : ∀ id, .deleteWorkspace id ∉ writes) :
    (∀ row ∈ db.artifacts, row ∈ (replay db writes).artifacts) ∧
    (∀ row ∈ db.revisions, row ∈ (replay db writes).revisions) ∧
      ∀ id, db.workspace? id ≠ none → (replay db writes).workspace? id ≠ none := by
  induction writes generalizing db with
  | nil => exact ⟨fun _ member => member, fun _ member => member, fun _ present => present⟩
  | cons w writes ih =>
    obtain ⟨artifacts, revisions, workspaces⟩ := @ih (applyWrite db w) fun id inside =>
      keeps id (List.mem_cons_of_mem _ inside)
    have set : ∀ (target : Nat) (change : ResumeWorkspace → ResumeWorkspace),
      (∀ row, (change row).id = row.id) →
        ∀ id, db.workspace? id ≠ none → (db.setWorkspace target change).workspace? id ≠ none := by
      intro target change same id present
      rwa [workspace?_set rfl same, ne_eq, Option.map_eq_none_iff]
    have first : (∀ row ∈ db.artifacts, row ∈ (applyWrite db w).artifacts) ∧
        (∀ row ∈ db.revisions, row ∈ (applyWrite db w).revisions) ∧
          ∀ id, db.workspace? id ≠ none → (applyWrite db w).workspace? id ≠ none := by
      cases w with
      | insertWorkspace row =>
        refine ⟨fun _ member => member, fun _ member => member, fun id present missing => ?_⟩
        rw [workspace?_none] at missing
        exact present (workspace?_none.mpr fun other member => missing other (List.mem_append_left _ member))
      | insertRevision row =>
          exact ⟨fun _ member => member, fun _ member => List.mem_append_left _ member, fun _ present =>
            present⟩
      | insertArtifact workspaceId row =>
        exact ⟨fun _ member => List.mem_append_left _ member, fun _ member => member, fun _ present =>
          present⟩
      | setCurrentRevision workspaceId revisionId =>
        exact ⟨fun _ member => member, fun _ member => member, set workspaceId _ fun _ => rfl⟩
      | setStatus workspaceId status =>
          exact ⟨fun _ member => member, fun _ member => member, set workspaceId _ fun _ => rfl⟩
      | deleteWorkspace id => exact absurd List.mem_cons_self (keeps id)
      | _ => exact ⟨fun _ member => member, fun _ member => member, fun _ present => present⟩
    exact ⟨fun row member => artifacts row (first.1 row member), fun row member =>
      revisions row (first.2.1 row member), fun id present => workspaces id (first.2.2 id present)⟩

theorem replay_artifacts {row : ResumeRenderArtifact} (member : row ∈ (replay db writes).artifacts) :
    row ∈ db.artifacts ∨ ∃ workspaceId, .insertArtifact workspaceId row ∈ writes := by
  induction writes generalizing db with
  | nil => exact .inl member
  | cons w writes ih =>
    rcases ih member with first | ⟨workspaceId, later⟩
    · cases w with
      | insertArtifact workspaceId new =>
        rcases List.mem_append.mp first with old | added
        · exact .inl old
        · rw [List.mem_singleton.mp added]
          exact .inr ⟨workspaceId, List.mem_cons_self⟩
      | deleteWorkspace id => exact .inl (List.mem_filter.mp first).1
      | _ => exact .inl first
    · exact .inr ⟨workspaceId, List.mem_cons_of_mem _ later⟩

theorem replay_inserted {workspaceId : Nat} {row : ResumeRenderArtifact}
    (keeps : ∀ id, .deleteWorkspace id ∉ writes) (inserted : .insertArtifact workspaceId row ∈ writes) :
    row ∈ (replay db writes).artifacts := by
  obtain ⟨before, after, rfl⟩ := List.append_of_mem inserted
  rw [replay_append]
  have later : ∀ id, .deleteWorkspace id ∉ after := fun id member =>
    keeps id (List.mem_append_right _ (List.mem_cons_of_mem _ member))
  have first : row ∈ (applyWrite (replay db before) (.insertArtifact workspaceId row)).artifacts :=
    List.mem_append_right _ List.mem_cons_self
  exact (replay_keeps later).1 row first

theorem replay_jobs {P : ResumeJob → Prop} (old : ∀ job ∈ db.jobs, P job)
    (inserted : ∀ row, .insertJob row ∈ writes → P row)
    (updated : ∀ workspaceId jobId update, .updateJob workspaceId jobId update ∈ writes → ∀ row, P row →
      row.id = jobId →
      P (row.set update))
    (keeps : ∀ id, .deleteWorkspace id ∉ writes) : ∀ job ∈ (replay db writes).jobs, P job := by
  induction writes generalizing db with
  | nil => exact old
  | cons w writes ih =>
    refine ih ?_ (fun row member => inserted row (List.mem_cons_of_mem _ member))
      (fun workspaceId jobId update member =>
        updated workspaceId jobId update (List.mem_cons_of_mem _ member))
      fun id member => keeps id (List.mem_cons_of_mem _ member)
    cases w with
    | insertJob row =>
      intro job member
      rcases List.mem_append.mp member with before | new
      · exact old job before
      · rw [List.mem_singleton.mp new]
        exact inserted row List.mem_cons_self
    | updateJob workspaceId jobId update =>
      intro job member
      obtain ⟨row, before, rfl⟩ := List.mem_map.mp member
      split
      · exact updated workspaceId jobId update List.mem_cons_self row (old row before) ‹_›
      · exact old row before
    | deleteWorkspace id => exact absurd List.mem_cons_self (keeps id)
    | _ => exact old

theorem replay_jobIds (noJobs : ∀ row, .insertJob row ∉ writes) (keeps : ∀ id, .deleteWorkspace id ∉ writes) :
    (replay db writes).jobs.map (·.id) = db.jobs.map (·.id) := by
  induction writes generalizing db with
  | nil => rfl
  | cons w writes ih =>
    refine (ih (fun row member => noJobs row (List.mem_cons_of_mem _ member)) fun id member =>
      keeps id (List.mem_cons_of_mem _ member)).trans ?_
    cases w with
    | insertJob row => exact absurd List.mem_cons_self (noJobs row)
    | deleteWorkspace id => exact absurd List.mem_cons_self (keeps id)
    | updateJob workspaceId jobId update =>
      rw [applyWrite, List.map_map]
      refine List.map_congr_left fun row _ => ?_
      rw [Function.comp_apply]
      split <;> rfl
    | _ => rfl

theorem job?_some {id : Nat} {row : ResumeJob} (found : db.job? id = some row) :
    row ∈ db.jobs ∧ row.id = id := by
  have matched := List.find?_some found
  exact ⟨List.mem_of_find?_eq_some found, of_decide_eq_true matched⟩

theorem deleted_artifact {id : Nat} {artifact : ResumeRenderArtifact} (member : artifact ∈ db.artifacts)
    (elsewhere : ∀ revision ∈ db.revisions, revision.id = artifact.revisionId → revision.workspaceId ≠ id) :
    artifact ∈ (db.delete id).artifacts := by
  refine List.mem_filter.mpr ⟨member, ?_⟩
  rw [Bool.not_eq_true', List.any_eq_false]
  intro revision inside
  obtain ⟨listed, home⟩ := mem_history.mp inside
  rw [decide_eq_true_eq]
  exact fun same => elsewhere revision listed same home

end Replay

section Steps

variable {rt : Runtime} {db db' : Database} {outside outside' : Outside} {phase phase' other : Phase}
  {input : Input}
  {pending pending' otherPending : List Write} {effect : Effect Outside Phase Write} {batch : Batch}

theorem afterRendering_found (held : ResumeWorkspace) (source : ResumeRevision) (rendering : Rendering)
    (reader : Reader) :
    (afterRendering held source rendering reader).found? = rendering.found? held := by
  cases reader <;> rfl

theorem afterRendering_key (held : ResumeWorkspace) (source : ResumeRevision) (rendering : Rendering)
    (reader : Reader) :
    (afterRendering held source rendering reader).key? = none := by
  cases reader <;> rfl

theorem next_found (step : Next rt db outside phase input effect) {held : ResumeWorkspace}
    {artifact : ResumeRenderArtifact} (found : effect.phase.found? = some (held, artifact)) :
    phase.found? = some (held, artifact) ∨ phase.pending = [] ∧ artifact ∈ db.artifacts := by
  cases step with
  | rendered listed =>
    cases found
    exact .inr ⟨rfl, (artifact?_some listed).1⟩
  | verified => exact .inl ((afterRendering_found _ _ _ _).symm.trans found)
  | catalogued => exact nomatch (afterRendering_found _ _ _ _).symm.trans found
  | applied => exact .inl found
  | sent =>
    rename_i batch sent w more
    cases batch <;> exact .inl found
  | committed =>
    rename_i batch sent all
    cases batch <;> cases found
  | _ => cases found

theorem afterRendering_left (held : ResumeWorkspace) (source : ResumeRevision) (rendering : Rendering)
    (reader : Reader) :
    (afterRendering held source rendering reader).Left := by
  cases reader with
  | exportWorkspace =>
    intro w member
    rw [Batch.writes, List.drop_length] at member
    cases member
  | createApplication fields => trivial
  | renderJob job =>
    intro w member
    rw [Batch.writes, List.drop_left] at member
    rw [List.mem_singleton.mp member]
    rfl

theorem inserts_written {w : Write} (member : w ∈ batch.writes) (hidden : batch.published? = none)
    (other : ∀ row, batch ≠ .queueJob row) : w.inserts = false := by
  cases Batch.mem_writes member with
  | draws published => exact nomatch published.symm.trans hidden
  | applies => exact nomatch hidden
  | queues => exact absurd rfl (other _)
  | _ => rfl

theorem next_left (step : Next rt db outside phase input effect) (left : phase.Left) : effect.phase.Left := by
  have plain : ∀ {batch : Batch} {sent : Nat}, batch.published? = none → (∀ row, batch ≠ .queueJob row) →
      (Phase.flush batch sent).Left := fun hidden other w member =>
        inserts_written (List.mem_of_mem_drop member) hidden other
  cases step with
  | inserted => exact plain rfl (by intro row same; cases same)
  | queued =>
    intro w member
    cases member
  | approving => exact plain rfl (by intro row same; cases same)
  | deleting => exact plain rfl (by intro row same; cases same)
  | verified => exact afterRendering_left _ _ _ _
  | catalogued => exact afterRendering_left _ _ _ _
  | applied =>
    rename_i held revision fields rendering
    intro w member
    have all : (Batch.applied held revision fields rendering outside.nextApplicationId).writes.length ≤
        (rendering.writes held).length + 1 := by
      rw [Batch.writes, List.length_append, List.length_singleton]
    rw [List.drop_of_length_le all] at member
    cases member
  | sent =>
    rename_i batch sent w more
    intro v member
    rw [← List.drop_drop] at member
    exact left v (List.mem_of_mem_drop member)
  | started => exact plain rfl (by intro row same; cases same)
  | jobFailed => exact plain rfl (by intro row same; cases same)
  | tracking => exact plain rfl (by intro row same; cases same)
  | removing => exact plain rfl (by intro row same; cases same)
  | committed =>
    rename_i batch sent all
    cases batch <;> trivial
  | _ => trivial

theorem next_lookup (step : Next rt db outside phase input effect) {key : Str}
    (kept : (outside.storage.lookup key).isSome) :
    ((effect.outside outside).storage.lookup key).isSome := by
  cases step with
  | put =>
    change (List.lookup key ((_, _) :: outside.storage)).isSome
    rw [List.lookup_cons]
    split
    · rfl
    · exact kept
  | _ => exact kept

theorem next_key (step : Next rt db outside phase input effect) {key : Str}
    (keyed : effect.phase.key? = some key) :
    ((effect.outside outside).storage.lookup key).isSome := by
  cases step with
  | put =>
    cases keyed
    change (List.lookup _ ((_, _) :: outside.storage)).isSome
    rw [List.lookup_cons_self]
    rfl
  | verified => exact nomatch (afterRendering_key _ _ _ _).symm.trans keyed
  | catalogued => exact nomatch (afterRendering_key _ _ _ _).symm.trans keyed
  | committed =>
    rename_i batch sent all
    cases batch <;> cases keyed
  | _ => cases keyed

theorem Write.Rooted.grows {w : Write} (rooted : w.Rooted db outside)
    (grows : ∀ key, (outside.storage.lookup key).isSome → (outside'.storage.lookup key).isSome) :
    w.Rooted db outside' := by
  cases w with
  | insertArtifact workspaceId row => exact ⟨grows _ rooted.1, rooted.2⟩
  | _ => exact rooted

theorem Catalogued.grows (catalogued : Catalogued db outside)
    (grows : ∀ key, (outside.storage.lookup key).isSome → (outside'.storage.lookup key).isSome) :
    Catalogued db outside' :=
  { catalogued with stored := fun artifact member => grows _ (catalogued.stored artifact member) }

theorem Kept.grows (kept : Kept db outside phase pending)
    (grows : ∀ key, (outside.storage.lookup key).isSome → (outside'.storage.lookup key).isSome) :
    Kept db outside' phase pending :=
  { kept with
    rooted := fun w member => (kept.rooted w member).grows grows
    keyed := fun key same => grows key (kept.keyed key same) }

theorem Kept.finished (outcome : Outcome) : Kept db outside (.finished outcome) [] :=
  ⟨fun _ member => (nomatch member), fun _ _ found => (nomatch found), fun _ keyed =>
    (nomatch keyed), trivial⟩

theorem Kept.dropped : Kept db outside (failedPhase phase) [] := by
  cases phase <;> exact .finished _

theorem updates_job {workspaceId jobId : Nat} {update : JobUpdate}
    (member : .updateJob workspaceId jobId update ∈ batch.writes) :
    ∃ job, batch.job? = some job ∧ workspaceId = job.workspaceId ∧ jobId = job.id ∧
      (update.status = .succeeded →
        (∃ held source revisionId text, batch = .revision (.worker job held source) revisionId text) ∨
        ∃ held source rendering, batch = .rendered job held source rendering ∧
          update = ⟨.succeeded, some source.id, none⟩) := by
  generalize written : Write.updateJob workspaceId jobId update = w at member
  cases Batch.mem_writes member <;> cases written
  · exact ⟨_, rfl, rfl, rfl, fun _ => .inl ⟨_, _, _, _, rfl⟩⟩
  · exact ⟨_, rfl, rfl, rfl, fun done => (nomatch done)⟩
  · exact ⟨_, rfl, rfl, rfl, fun done => (nomatch done)⟩
  · exact ⟨_, rfl, rfl, rfl, fun _ => .inr ⟨_, _, _, rfl, rfl⟩⟩

theorem pointed_home {base : Fact → Prop} (sound : (resumeFacts rt).Sound outside base)
    {revision : ResumeRevision} {workspaceId : Nat} (listed : base (.revision revision))
    (home : base (.home revision.id workspaceId)) : revision.workspaceId = workspaceId :=
  (sound.agreed _ _ listed home).1 rfl

theorem revision_fact {revision : ResumeRevision} (member : revision ∈ db.revisions) :
    (resumeFacts rt).seen db outside phase pending (.revision revision) :=
  .inr (.inl (Database.mem_facts.mpr (.inr (.inl ⟨revision, member, rfl⟩))))

theorem job_fact {job : ResumeJob} (member : job ∈ db.jobs) {f : Fact} (here : f ∈ job.facts) :
    (resumeFacts rt).seen db outside phase pending f :=
  .inr (.inl (Database.mem_facts.mpr (.inr (.inr (.inl ⟨job, member, here⟩)))))

theorem object_fact {job : ResumeJob} (employs : phase.jobObject? = some job) {f : Fact}
    (here : f ∈ job.facts) :
    (resumeFacts rt).seen db outside phase pending f :=
  .inl (.inl (Phase.mem_facts.mpr (.inr (.inr (.inl ⟨job, employs, here⟩)))))

theorem published_home {held : ResumeWorkspace} {source : ResumeRevision} (ok : Placed phase)
    (published : phase.published? = some (held, source)) :
    (resumeFacts rt).seen db outside phase pending (.home source.id held.id) := by
  obtain ⟨holds, _, pointer⟩ := ok.publish.published held source published
  refine .inl (.inl (Phase.mem_facts.mpr (.inl ⟨held, holds, List.mem_cons_of_mem _ ?_⟩)))
  exact List.mem_map.mpr ⟨source.id, Option.mem_toList.mpr pointer, rfl⟩

theorem drawn_home {held : ResumeWorkspace} {artifact : ResumeRenderArtifact} {source : ResumeRevision}
    (ok : Placed phase) (published : phase.published? = some (held, source))
    (drawn : phase.drawn? = some (source, artifact)) :
    (resumeFacts rt).seen db outside phase pending (.home artifact.revisionId held.id) :=
  (ok.drawn source artifact drawn).symm ▸ published_home ok published

theorem Rendering.found?_some {held owner : ResumeWorkspace} {rendering : Rendering}
    {artifact : ResumeRenderArtifact} (found : rendering.found? held = some (owner, artifact)) :
    owner = held ∧ artifact = rendering.artifact := by
  rw [Rendering.found?] at found
  split at found
  · cases found
  · cases found
    exact ⟨rfl, rfl⟩

theorem found_drawn {held : ResumeWorkspace} {artifact : ResumeRenderArtifact}
    (found : phase.found? = some (held, artifact)) :
    ∃ source, phase.published? = some (held, source) ∧ phase.drawn? = some (source, artifact) := by
  cases phase with
  | readStored owner source reader row =>
    cases found
    exact ⟨source, rfl, rfl⟩
  | insertApplication owner source fields rendering =>
    obtain ⟨rfl, rfl⟩ := Rendering.found?_some found
    exact ⟨source, rfl, rfl⟩
  | flush batch sent =>
    cases batch with
    | exported owner source rendering =>
      obtain ⟨rfl, rfl⟩ := Rendering.found?_some found
      exact ⟨source, rfl, rfl⟩
    | rendered job owner source rendering =>
      obtain ⟨rfl, rfl⟩ := Rendering.found?_some found
      exact ⟨source, rfl, rfl⟩
    | applied owner source fields rendering applicationId =>
      obtain ⟨rfl, rfl⟩ := Rendering.found?_some found
      exact ⟨source, rfl, rfl⟩
    | _ => cases found
  | _ => cases found

theorem clean_view (history : Sound db outside phase pending) (empty : phase.pending = []) :
    replay db pending = db := by
  rw [history.shape, empty]
  rfl

theorem Batch.queues {row : ResumeJob} (member : .insertJob row ∈ batch.writes) :
    ∃ row, batch = .queueJob row := by
  generalize written : Write.insertJob row = w at member
  cases Batch.mem_writes member <;> cases written
  exact ⟨_, rfl⟩

theorem updates_alone {workspaceId jobId : Nat} {update : JobUpdate}
    (member : .updateJob workspaceId jobId update ∈ batch.writes) :
    (∀ row, .insertJob row ∉ batch.writes) ∧ ∀ id, .deleteWorkspace id ∉ batch.writes := by
  refine ⟨?_, ?_⟩
  · intro row queued
    obtain ⟨other, rfl⟩ := Batch.queues queued
    cases List.mem_singleton.mp member
  · intro id deletes
    obtain ⟨held, rfl⟩ := Batch.deletes deletes
    cases Batch.mem_writes member

theorem rooted_write {w : Write} (history : Sound db outside phase pending)
    (sound : (resumeFacts rt).Sound outside ((resumeFacts rt).seen db outside phase pending))
    (ok : Placed phase) (consistent : Consistent db outside) (catalogued : Catalogued db outside)
    (kept : Kept db outside phase pending)
    (step : Next rt (replay db pending) outside phase input (.write w phase' outside'))
    (admitted : admitsWrite (replay db pending) w = true) : w.Rooted db outside := by
  cases step with
  | created => trivial
  | inserted => trivial
  | applied =>
    rename_i held source fields rendering
    intro revisionId named
    cases named
    have quiet : ∀ w ∈ pending, w.quiet = true := by
      rw [history.shape]
      intro w member
      rw [Phase.pending, Rendering.writes] at member
      split at member
      · rw [List.mem_singleton.mp member]
        rfl
      · cases member
    simp only [admitsWrite, Bool.and_eq_true] at admitted
    obtain ⟨revision, found⟩ := Option.isSome_iff_exists.mp admitted.2
    obtain ⟨member, named⟩ := revision?_some found
    rw [(replay_quiet db quiet).2] at member
    have inside := pointed_home sound (revision_fact member) (named ▸ published_home ok rfl)
    exact ⟨revision, member, named, congrArg some inside.symm⟩
  | queued =>
    rw [clean_view history rfl] at admitted
    simp only [admitsWrite, Bool.and_eq_true, List.all_eq_true, decide_eq_true_eq] at admitted
    exact ⟨rfl, Option.isSome_iff_ne_none.mp admitted.2, admitted.1⟩
  | catalogued =>
    rename_i held source reader key pdf
    rw [clean_view history rfl] at admitted
    simp only [admitsWrite, Bool.and_eq_true] at admitted
    obtain ⟨revision, found⟩ := Option.isSome_iff_exists.mp admitted.2
    obtain ⟨member, named⟩ := revision?_some found
    have inside : revision.workspaceId = held.id :=
      pointed_home sound (revision_fact member) (named ▸ published_home ok rfl)
    exact ⟨kept.keyed key rfl, inside ▸ consistent.owned revision member, revision, member, named, inside⟩
  | sent more =>
    rename_i batch sent
    have rest := kept.left w
      (List.mem_of_getElem?
      (by rwa [List.getElem?_drop, Nat.add_zero] : (batch.writes.drop sent)[0]? = some w))
    cases w with
    | updateJob workspaceId jobId update =>
      have member := List.mem_of_getElem? more
      obtain ⟨job, employs, rfl, rfl, _⟩ := updates_job member
      obtain ⟨noJobs, keeps⟩ := updates_alone member
      simp only [admitsWrite, Bool.and_eq_true] at admitted
      obtain ⟨row, found⟩ := Option.isSome_iff_exists.mp admitted.1
      obtain ⟨listed, same⟩ := job?_some found
      have issued : ∀ v ∈ pending, v ∈ batch.writes := by
        rw [history.shape]
        exact fun v inside => List.mem_of_mem_take inside
      obtain ⟨origin, stored, id, home⟩ :=
        replay_jobs (P := fun row : ResumeJob => ∃ origin ∈ db.jobs, origin.id = row.id ∧
        origin.workspaceId = row.workspaceId) (fun job member => ⟨job, member, rfl, rfl⟩)
        (fun row inside => absurd (issued _ inside) (noJobs row)) (fun _ _ _ _ row origin _ => origin)
        (fun id inside => keeps id (issued _ inside)) row listed
      have mine : (Phase.flush batch sent).jobObject? = some job := employs
      have agree := sound.agreed _ _ (job_fact stored (jobHome_mem origin))
        (object_fact mine (jobHome_mem job))
      have place : origin.workspaceId = job.workspaceId := agree.1 (id.trans same)
      exact place ▸ catalogued.placed origin stored
    | insertArtifact workspaceId row => cases rest
    | insertJob row => cases rest
    | insertApplication row => cases rest
    | _ => trivial

theorem deleted_present {id target : Nat} : (replay db [.deleteWorkspace target]).workspace? id =
    if id = target then none else db.workspace? id := workspace?_filter rfl id

theorem not_gone {target revisionId : Nat} (elsewhere : ∀ revision ∈ db.revisions, revision.id = revisionId →
      revision.workspaceId ≠ target) :
    (!(db.history target).any (·.id = revisionId)) = true := by
  rw [Bool.not_eq_true', List.any_eq_false]
  intro revision member
  obtain ⟨inside, home⟩ := mem_history.mp member
  rw [decide_eq_true_eq]
  exact fun same => elsewhere revision inside same home

theorem gone_elsewhere {target revisionId : Nat}
    (kept : (!(db.history target).any (·.id = revisionId)) = true) :
    ∀ revision ∈ db.revisions, revision.id = revisionId → revision.workspaceId ≠ target := by
  intro revision member named home
  rw [Bool.not_eq_true', List.any_eq_false] at kept
  exact kept revision (mem_history.mpr ⟨member, home⟩) (decide_eq_true named)

theorem Catalogued.delete {target : Nat} (catalogued : Catalogued db outside) :
    Catalogued (replay db [.deleteWorkspace target]) outside := by
  refine ⟨?_, ?_, ?_, ?_, ?_⟩
  · exact fun artifact member => catalogued.stored artifact (List.mem_filter.mp member).1
  · intro artifact member
    obtain ⟨inside, spared⟩ := List.mem_filter.mp member
    obtain ⟨revision, listed, named⟩ := catalogued.drawn artifact inside
    exact ⟨revision, List.mem_filter.mpr
      ⟨listed, decide_eq_true (gone_elsewhere spared revision listed named)⟩, named⟩
  · intro job member
    obtain ⟨old, inside, rfl⟩ := List.mem_map.mp member
    obtain ⟨listed, apart⟩ := List.mem_filter.mp inside
    rw [deleted_present, if_neg (of_decide_eq_true apart)]
    exact catalogued.placed old listed
  · have same : (replay db [.deleteWorkspace target]).jobs.map (·.id) =
        (db.jobs.filter (·.workspaceId ≠ target)).map (·.id) := by
      exact List.map_map
    rw [same]
    exact (List.filter_sublist.map _).nodup catalogued.uniqueJobs
  · intro application member revisionId named
    obtain ⟨old, inside, rfl⟩ := List.mem_map.mp member
    obtain ⟨kept, spared⟩ := Option.filter_eq_some_iff.mp named
    obtain ⟨revision, listed, same, home⟩ := catalogued.anchored old inside revisionId kept
    have apart := gone_elsewhere spared revision listed same
    refine ⟨revision, List.mem_filter.mpr ⟨listed, decide_eq_true apart⟩, same, ?_⟩
    exact Option.filter_eq_some_iff.mpr ⟨home, by simpa using apart⟩

theorem Kept.delete {target : Nat} (kept : Kept db outside other otherPending)
    (sound : (resumeFacts rt).Sound outside ((resumeFacts rt).seen db outside other otherPending))
    (ok : Placed other) (free : ∀ w ∈ otherPending, w.within ≠ some target) :
    Kept (replay db [.deleteWorkspace target]) outside other otherPending := by
  refine { kept with rooted := ?_, found := ?_ }
  · intro w member
    have rooted := kept.rooted w member
    have apart := free w member
    have stays : ∀ id, some id ≠ some target → db.workspace? id ≠ none →
        (replay db [.deleteWorkspace target]).workspace? id ≠ none := by
      intro id different present
      rwa [deleted_present, if_neg fun same => different (congrArg some same)]
    cases w with
    | insertArtifact workspaceId row =>
      obtain ⟨key, present, revision, listed, named, home⟩ := rooted
      refine ⟨key, stays workspaceId apart present, revision, List.mem_filter.mpr ⟨listed, decide_eq_true ?_⟩,
        named, home⟩
      exact fun same => apart (congrArg some (home.symm.trans same))
    | insertJob row =>
      refine ⟨rooted.1, stays _ apart rooted.2.1, fun job member => ?_⟩
      obtain ⟨old, inside, rfl⟩ := List.mem_map.mp member
      exact rooted.2.2 old (List.mem_filter.mp inside).1
    | updateJob workspaceId jobId update => exact stays _ apart rooted
    | insertApplication row =>
      intro revisionId named
      obtain ⟨revision, listed, same, home⟩ := rooted revisionId named
      refine ⟨revision, List.mem_filter.mpr ⟨listed, decide_eq_true fun gone => ?_⟩, same, home⟩
      exact apart (home.trans (congrArg some gone))
    | _ => trivial
  · intro held artifact found present
    rw [deleted_present] at present
    split at present
    · exact absurd rfl present
    · rename_i apart
      obtain ⟨source, published, drawn⟩ := found_drawn found
      refine deleted_artifact (kept.found held artifact found present) ?_
      intro revision listed named
      have home : (resumeFacts rt).seen db outside other otherPending (.home artifact.revisionId held.id) :=
        drawn_home ok published drawn
      rw [pointed_home sound (revision_fact listed) (named ▸ home)]
      exact apart

theorem Kept.replay {writes : List Write} (kept : Kept db outside other otherPending)
    (keeps : ∀ id, .deleteWorkspace id ∉ writes)
    (old : ∀ held, other.held? = some held → (replay db writes).workspace? held.id ≠ none →
      db.workspace? held.id ≠ none)
    (free : ∀ w ∈ writes, ∀ v ∈ otherPending, conflicts w v = false) (ok : Placed other) :
    Kept (Workspace.replay db writes) outside other otherPending := by
  obtain ⟨artifacts, revisions, workspaces⟩ := @replay_keeps db _ keeps
  refine { kept with rooted := ?_, found := ?_ }
  · intro w member
    have rooted := kept.rooted w member
    cases w with
    | insertArtifact workspaceId row =>
      obtain ⟨key, present, revision, listed, named⟩ := rooted
      exact ⟨key, workspaces _ present, revision, revisions revision listed, named⟩
    | insertJob row =>
      refine ⟨rooted.1, workspaces _ rooted.2.1, ?_⟩
      refine replay_jobs rooted.2.2 (fun new inside => ?_) (fun _ _ _ _ _ apart _ => apart) keeps
      have apart := free _ inside _ member
      simp only [conflicts, locks, Bool.or_eq_false_iff, decide_eq_false_iff_not] at apart
      exact apart.1
    | updateJob workspaceId jobId update => exact workspaces _ rooted
    | insertApplication row =>
      intro revisionId named
      obtain ⟨revision, listed, same⟩ := rooted revisionId named
      exact ⟨revision, revisions revision listed, same⟩
    | _ => trivial
  · intro held artifact found present
    obtain ⟨source, published, _⟩ := found_drawn found
    exact artifacts artifact
      (kept.found held artifact found (old held (ok.publish.published held source published).1 present))

theorem Catalogued.replay {sent : Nat} (catalogued : Catalogued db outside)
    (kept : Kept db outside (.flush batch sent) batch.writes)
    (keeps : ∀ id, .deleteWorkspace id ∉ batch.writes) :
    Catalogued (replay db batch.writes) outside := by
  obtain ⟨artifacts, revisions, workspaces⟩ := @replay_keeps db _ keeps
  refine ⟨?_, ?_, ?_, ?_, ?_⟩
  · intro artifact member
    rcases replay_artifacts member with old | ⟨workspaceId, new⟩
    · exact catalogued.stored artifact old
    · exact (kept.rooted _ new).1
  · intro artifact member
    rcases replay_artifacts member with old | ⟨workspaceId, new⟩
    · obtain ⟨revision, listed, named⟩ := catalogued.drawn artifact old
      exact ⟨revision, revisions revision listed, named⟩
    · obtain ⟨_, _, revision, listed, named, _⟩ := kept.rooted _ new
      exact ⟨revision, revisions revision listed, named⟩
  · refine replay_jobs (fun job member => workspaces _ (catalogued.placed job member))
      (fun row member => workspaces _ (kept.rooted _ member).2.1) (fun _ _ _ _ row present _ => present) keeps
  · by_cases queues : ∃ row, batch = .queueJob row
    · obtain ⟨row, rfl⟩ := queues
      have fresh := (kept.rooted _ List.mem_cons_self).2.2
      change ((db.jobs ++ [row]).map (·.id)).Nodup
      rw [List.map_append, List.nodup_append]
      refine ⟨catalogued.uniqueJobs, List.nodup_singleton _, ?_⟩
      rintro id member other single rfl
      obtain ⟨job, listed, same⟩ := List.mem_map.mp member
      exact fresh job listed (same.trans (List.mem_singleton.mp single))
    · rw [replay_jobIds (fun row member => queues (Batch.queues member)) keeps]
      exact catalogued.uniqueJobs
  · intro application member
    obtain ⟨source, ⟨workspace, revision⟩, origin⟩ := replay_applications keeps member
    have anchored : source.Anchored (Workspace.replay db batch.writes).revisions := by
      intro revisionId named
      rcases origin with old | new
      · obtain ⟨row, listed, same⟩ := catalogued.anchored source old revisionId named
        exact ⟨row, revisions row listed, same⟩
      · obtain ⟨row, listed, same⟩ := kept.rooted _ new revisionId named
        exact ⟨row, revisions row listed, same⟩
    intro revisionId named
    rw [workspace]
    exact anchored revisionId (revision.symm.trans named)

theorem Kept.step (kept : Kept db outside phase pending) (history : Sound db outside phase pending)
    (step : Next rt (Workspace.replay db pending) outside phase input effect)
    (shape : ∀ w ∈ pending', w.Rooted db (effect.outside outside)) :
    Kept db (effect.outside outside) effect.phase pending' := by
  refine ⟨shape, ?_, fun key keyed => next_key step keyed, next_left step kept.left⟩
  intro held artifact found present
  rcases next_found step found with old | ⟨empty, listed⟩
  · exact kept.found held artifact old present
  · rwa [clean_view history empty] at listed

theorem Kept.committed (batch : Batch) : Kept db outside batch.after [] := by
  cases batch with
  | startJob function job =>
    exact ⟨fun _ member => (nomatch member), fun _ _ found => (nomatch found), fun _ keyed =>
      (nomatch keyed), trivial⟩
  | queueJob row =>
    exact ⟨fun _ member => (nomatch member), fun _ _ found => (nomatch found), fun _ keyed =>
      (nomatch keyed), trivial⟩
  | _ => exact .finished _

theorem finished_failed (phase : Phase) : ∃ outcome, failedPhase phase = .finished outcome := by
  cases phase <;> exact ⟨_, rfl⟩

theorem finished_fail {phase' : Phase} (step : Next rt db outside phase input (.fail phase')) :
    ∃ outcome, phase' = .finished outcome := by
  cases step <;> exact ⟨_, rfl⟩

theorem catalogue_own {label : Option Input} (known : (knownAssertion rt).own db outside phase pending)
    (consistent : Consistent db outside) (catalogued : Catalogued db outside)
    (kept : Kept db outside phase pending)
    (moves : (resumeSystem rt).Moves db outside phase pending label db' outside' phase' pending') :
    Catalogued db' outside' ∧ Kept db' outside' phase' pending' := by
  obtain ⟨history, sound, ok⟩ := known
  cases moves with
  | read next =>
    have step := next_cases next
    refine ⟨catalogued.grows fun key => next_lookup step, ?_⟩
    exact kept.step history step fun w member => (kept.rooted w member).grows fun key => next_lookup step
  | write next admitted =>
    have step := next_cases next
    refine ⟨catalogued.grows fun key => next_lookup step, kept.step history step ?_⟩
    intro v member
    rcases List.mem_append.mp member with old | new
    · exact (kept.rooted v old).grows fun key => next_lookup step
    · rw [List.mem_singleton.mp new]
      exact (rooted_write history sound ok consistent catalogued kept step admitted).grows fun key =>
        next_lookup step
  | refused next refused => exact ⟨catalogued, .dropped⟩
  | abort => exact ⟨catalogued, .dropped⟩
  | fail next =>
    obtain ⟨outcome, rfl⟩ := finished_fail (next_cases next)
    exact ⟨catalogued, .finished outcome⟩
  | commit next =>
    obtain ⟨batch, sent, rfl, _, rfl, rfl, rfl, _⟩ := commit_change history (next_cases next)
    refine ⟨?_, .committed batch⟩
    by_cases deletes : ∃ held, batch = .delete held
    · obtain ⟨held, rfl⟩ := deletes
      exact catalogued.delete
    · exact catalogued.replay kept fun id member => deletes (Batch.deletes member)

theorem catalogue_other {label : Option Input} (known : (knownAssertion rt).own db outside phase pending)
    (beside : (knownAssertion rt).own db outside other otherPending)
    (fresh : ∀ held, other.held? = some held → ∀ w ∈ pending, w.Fresh held)
    (kept : Kept db outside other otherPending) (free : (resumeSystem rt).Compatible pending otherPending)
    (moves : (resumeSystem rt).Moves db outside phase pending label db' outside' phase' pending') :
    Kept db' outside' other otherPending := by
  cases moves with
  | read next =>
    have step := next_cases next
    exact kept.grows fun key => next_lookup step
  | write next admitted =>
    have step := next_cases next
    exact kept.grows fun key => next_lookup step
  | refused next refused => exact kept
  | abort => exact kept
  | fail next => exact kept
  | commit next =>
    obtain ⟨batch, sent, rfl, _, rfl, rfl, rfl, change⟩ := commit_change known.1 (next_cases next)
    by_cases deletes : ∃ held, batch = .delete held
    · obtain ⟨held, rfl⟩ := deletes
      exact kept.delete beside.2.1 beside.2.2 fun w member =>
        delete_apart (free _ (Batch.mem_delete held) w member)
    · refine kept.replay (fun id member => deletes (Batch.deletes member)) ?_ free beside.2.2
      intro held holds present
      refine (change.kept ?_ (opens_fresh known.1.writes) present).1
      rintro workspace revisionId text rfl
      exact fresh held holds _ (inserts_workspace workspace revisionId text)

end Steps

theorem catalogue_stable (rt : Runtime) (g : Guard Database Outside Phase Input) :
    Stable (resumeSystem rt) g (knownAssertion rt) catalogueAssertion where
  start {db outside request phase outside'} _ catalogued started := by
    cases started
    refine ⟨catalogued, fun _ member => (nomatch member), ?_, ?_, ?_⟩ <;> cases request <;>
      first | exact fun _ _ found => (nomatch found) | exact fun _ keyed => (nomatch keyed) | trivial
  startOther _ _ kept started := by
    cases started
    exact ⟨kept, trivial, trivial⟩
  own common known catalogued kept _ moves := catalogue_own known common.1 catalogued kept moves
  other _ known beside between _ _ _ kept _ _ _ free moves :=
    ⟨catalogue_other known beside between.1 kept free moves, trivial, trivial⟩

theorem known_holds {rt : Runtime} {s : State Database Outside Phase Write} (reachable : Reachable rt s) :
    (knownAssertion rt).Holds s := (history_holds reachable).2.and
    ((facts_hold reachable).and (placed_holds reachable))

theorem catalogue_holds {rt : Runtime} {s : State Database Outside Phase Write} (reachable : Reachable rt s) :
    catalogueAssertion.Holds s := by
  refine (holds_idle_runs conflicts_symm (catalogue_stable rt Guard.free) (fun t run =>
    known_holds run) rfl ?_
    reachable).2
  exact ⟨fun _ member => (nomatch member), fun _ member => (nomatch member), fun _ member =>
    (nomatch member), List.nodup_nil, fun _ member => (nomatch member)⟩

end ManifestCV.Workspace
