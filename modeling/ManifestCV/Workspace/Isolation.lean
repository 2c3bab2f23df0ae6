import ManifestCV.Workspace.Catalogue
import ManifestCV.Workspace.History
import ManifestCV.Workspace.Queries

namespace ManifestCV.Workspace

open Foundation Foundation.Transactions Document Render

section Views

variable (db : Database) (userId : Nat)

def Database.workspacesOf : List ResumeWorkspace := db.workspaces.filter (·.userId = userId)

/-- Revisions and artifacts carry no `user_id`: they are the user's through the workspace. -/
def Database.revisionsOf : List ResumeRevision :=
  db.revisions.filter fun row => (db.workspacesOf userId).any (·.id = row.workspaceId)

def Database.artifactsOf : List ResumeRenderArtifact :=
  db.artifacts.filter fun row => (db.revisionsOf userId).any (·.id = row.revisionId)

def Database.of : Database where
  workspaces := db.workspacesOf userId
  revisions := db.revisionsOf userId
  jobs := db.jobs.filter (·.userId = userId)
  artifacts := db.artifactsOf userId
  applications := db.applications.filter (·.userId = userId)

end Views

def Database.Only (db : Database) (userId workspaceId : Nat) : Prop :=
  ∀ row ∈ db.workspaces, row.id = workspaceId → row.userId = userId

section Selecting

variable {α : Type} {p q : α → Bool} {rows : List α}

theorem find?_kept (keeps : ∀ row ∈ rows, p row = true → q row = true) :
    (rows.filter q).find? p = rows.find? p := by
  induction rows with
  | nil => rfl
  | cons row rows ih =>
    have rest := ih fun other member => keeps other (List.mem_cons_of_mem _ member)
    cases matched : p row with
    | true =>
        rw [List.filter_cons_of_pos (keeps row List.mem_cons_self matched), List.find?_cons_of_pos matched,
          List.find?_cons_of_pos matched]
    | false =>
      have passed : ¬ p row = true := Bool.eq_false_iff.mp matched
      rw [List.find?_cons_of_neg passed, ← rest, List.filter_cons]
      split
      · exact List.find?_cons_of_neg passed
      · rfl

theorem filter_kept (keeps : ∀ row ∈ rows, p row = true → q row = true) :
    (rows.filter q).filter p = rows.filter p := by
  rw [List.filter_filter]
  refine List.filter_congr fun row member => ?_
  cases matched : p row with
  | true => rw [keeps row member matched]; rfl
  | false => rfl

theorem filter_map_outside {f : α → α} (outside : ∀ row ∈ rows, q row = true → f row = row)
    (stays : ∀ row ∈ rows, q (f row) = q row) : (rows.map f).filter q = rows.filter q := by
  induction rows with
  | nil => rfl
  | cons row rows ih =>
    have rest := ih (fun other member => outside other (List.mem_cons_of_mem _ member))
      fun other member => stays other (List.mem_cons_of_mem _ member)
    rw [List.map_cons, List.filter_cons, List.filter_cons, rest, stays row List.mem_cons_self]
    split
    · rw [outside row List.mem_cons_self ‹_›]
    · rfl

theorem filter_append_outside {new : α} (outside : q new = false) :
    (rows ++ [new]).filter q = rows.filter q := by
  rw [List.filter_append, List.filter_cons_of_neg (Bool.eq_false_iff.mp outside), List.filter_nil,
    List.append_nil]

end Selecting

section Reading

variable {db : Database} {outside : Outside} {userId : Nat}

theorem mem_workspacesOf {row : ResumeWorkspace} :
    row ∈ db.workspacesOf userId ↔ row ∈ db.workspaces ∧ row.userId = userId := by
  simp [Database.workspacesOf]

theorem mem_revisionsOf {row : ResumeRevision} : row ∈ db.revisionsOf userId ↔
    row ∈ db.revisions ∧ ∃ workspace ∈ db.workspacesOf userId, workspace.id = row.workspaceId := by
  simp [Database.revisionsOf]

theorem of_owned? (workspaceId : Nat) :
    (db.of userId).owned? workspaceId userId = db.owned? workspaceId userId := by
  refine find?_kept fun row _ matched => ?_
  simp only [decide_eq_true_eq] at matched ⊢
  exact matched.2

theorem of_application? (applicationId : Nat) :
    (db.of userId).application? applicationId userId = db.application? applicationId userId := by
  refine find?_kept fun row _ matched => ?_
  simp only [decide_eq_true_eq] at matched ⊢
  exact matched.2

theorem of_jobOf? (jobId : Nat) : jobOf? userId jobId (db.of userId) = jobOf? userId jobId db := by
  refine find?_kept fun row _ matched => ?_
  simp only [decide_eq_true_eq] at matched ⊢
  exact matched.2

theorem of_workspace? {workspaceId : Nat} (only : db.Only userId workspaceId) :
    (db.of userId).workspace? workspaceId = db.workspace? workspaceId := by
  refine find?_kept fun row member matched => ?_
  exact decide_eq_true (only row member (of_decide_eq_true matched))

theorem Consistent.mine (consistent : Consistent db outside) {row : ResumeRevision}
    (member : row ∈ db.revisions) (only : db.Only userId row.workspaceId) : row ∈ db.revisionsOf userId := by
  obtain ⟨workspace, found⟩ := Option.ne_none_iff_exists'.mp (consistent.owned row member)
  obtain ⟨inside, named⟩ := workspace?_some found
  exact mem_revisionsOf.mpr ⟨member, workspace, mem_workspacesOf.mpr ⟨inside, only workspace inside named⟩,
    named⟩

theorem Consistent.of_history (consistent : Consistent db outside) {workspaceId : Nat}
    (only : db.Only userId workspaceId) :
    (db.of userId).history workspaceId = db.history workspaceId := by
  refine filter_kept fun row member matched => ?_
  have home : row.workspaceId = workspaceId := of_decide_eq_true matched
  exact (List.mem_filter.mp (consistent.mine member (home ▸ only))).2

theorem Consistent.of_revision? (consistent : Consistent db outside) {revisionId : Nat}
    (only : ∀ row ∈ db.revisions, row.id = revisionId → db.Only userId row.workspaceId) :
    (db.of userId).revision? revisionId = db.revision? revisionId := by
  refine find?_kept fun row member matched => ?_
  exact (List.mem_filter.mp (consistent.mine member (only row member (of_decide_eq_true matched)))).2

theorem Catalogued.of_artifact? (catalogued : Catalogued db outside) (consistent : Consistent db outside)
    {revisionId : Nat} (only : ∀ row ∈ db.revisions, row.id = revisionId → db.Only userId row.workspaceId) :
    (db.of userId).artifact? revisionId = db.artifact? revisionId := by
  refine congrArg (lastBy ResumeRenderArtifact.id) (filter_kept fun row member matched => ?_)
  have drawn : row.revisionId = revisionId := of_decide_eq_true matched
  obtain ⟨source, listed, named⟩ := catalogued.drawn row member
  have mine := consistent.mine listed (only source listed (named.trans drawn))
  exact List.any_eq_true.mpr ⟨source, mine, decide_eq_true named⟩

end Reading

section Users

def Phase.caller? : Phase → Option Nat
  | .create userId _ | .owned userId _ _ | .application userId _ _ => some userId
  | .insertRevision (.create workspace) _ | .flush (.revision (.create workspace) _ _) _ =>
      some workspace.userId
  | .flush (.tracked row _) _ | .flush (.removed row) _ => some row.userId
  | _ => none

def Phase.user? (phase : Phase) : Option Nat :=
  phase.caller?.or ((phase.jobObject?.map (·.userId)).or (phase.held?.map (·.userId)))

def Request.userId? : Request → Option Nat
  | .createWorkspace userId _ | .owned userId _ _ | .application userId _ _ => some userId
  | .runGenerationJob _ | .runRenderJob _ => none

variable {rt : Runtime} {db : Database} {outside : Outside} {phase : Phase} {input : Input}
  {effect : Effect Outside Phase Write} {userId : Nat}

theorem begin_user (request : Request) : (begin request).user? = request.userId? := by
  cases request <;> rfl

theorem afterRendering_user {held : ResumeWorkspace} {source : ResumeRevision} {rendering : Rendering}
    {reader : Reader} :
    (afterRendering held source rendering reader).user? = (Phase.artifact held source reader).user? := by
  cases reader <;> rfl

theorem running_user {job : ResumeJob} (running : phase.job? = some job) : phase.user? = some job.userId := by
  have object := job?_object running
  have nobody : phase.caller? = none := by
    cases phase <;> first | rfl | cases running
  rw [Phase.user?, nobody, object]
  rfl

theorem next_user (step : Next rt db outside phase input effect) (user : phase.user? = some userId) :
    effect.phase.user? = some userId ∨ ∃ outcome, effect.phase = .finished outcome := by
  have loaded : ∀ {workspaceId user : Nat} {held : ResumeWorkspace}, db.owned? workspaceId user = some held →
      some user = some userId → some held.userId = some userId := fun found same =>
        (congrArg some (owned?_some found).2.2).trans same
  cases step with
  | checked found => exact .inl (loaded found user)
  | reading found => exact .inl (loaded found user)
  | approving found => exact .inl (loaded found user)
  | deleting found => exact .inl (loaded found user)
  | queueing found => exact .inl (loaded found user)
  | tracking found =>
    cases user
    exact .inl (congrArg some (application?_some found).2.2)
  | removing found =>
    cases user
    exact .inl (congrArg some (application?_some found).2.2)
  | publishing publishes found =>
    rename_i held call reader source
    cases call <;> cases publishes <;> exact .inl user
  | written =>
    rename_i held refining source text payload document
    cases refining <;> exact .inl user
  | verified => exact .inl (afterRendering_user.trans user)
  | catalogued => exact .inl (afterRendering_user.trans user)
  | inserted =>
    rename_i writer text
    cases writer <;> exact .inl user
  | committed =>
    rename_i batch sent all
    cases batch with
    | startJob function row => exact .inl user
    | queueJob row => exact .inl user
    | _ => exact .inr ⟨_, rfl⟩
  | sent =>
    rename_i batch sent w more
    cases batch with
    | revision writer revisionId text => cases writer <;> exact .inl user
    | _ => exact .inl user
  | started => cases user
  | jobFailed running => exact .inl ((running_user running).symm.trans user)
  | deferred => exact .inr ⟨_, rfl⟩
  | failed => exact .inr ⟨_, rfl⟩
  | blamed => exact .inr ⟨_, rfl⟩
  | _ => exact .inl user

theorem caller_alone (known : phase.caller?.isSome) : phase.jobObject? = none ∧ phase.held? = none := by
  cases phase with
  | insertRevision writer text =>
    cases writer with
    | create workspace => exact ⟨rfl, rfl⟩
    | _ => cases known
  | flush batch sent =>
    cases batch with
    | revision writer revisionId text =>
      cases writer with
      | create workspace => exact ⟨rfl, rfl⟩
      | _ => cases known
    | tracked row fields => exact ⟨rfl, rfl⟩
    | removed row => exact ⟨rfl, rfl⟩
    | _ => cases known
  | create user key => exact ⟨rfl, rfl⟩
  | owned user workspaceId call => exact ⟨rfl, rfl⟩
  | application user applicationId call => exact ⟨rfl, rfl⟩
  | _ => cases known

theorem user_job {job : ResumeJob} (user : phase.user? = some userId)
    (employs : phase.jobObject? = some job) :
    job.userId = userId := by
  cases known : phase.caller? with
  | none =>
    rw [Phase.user?, known, employs] at user
    exact Option.some.inj user
  | some other => exact nomatch (caller_alone (by rw [known]; rfl)).1.symm.trans employs

theorem user_held {held : ResumeWorkspace} (user : phase.user? = some userId)
    (holds : phase.held? = some held) :
    held.userId = userId ∨ ∃ job, phase.jobObject? = some job := by
  cases employs : phase.jobObject? with
  | some job => exact .inr ⟨job, rfl⟩
  | none =>
    cases known : phase.caller? with
    | none =>
      rw [Phase.user?, known, employs, holds] at user
      exact .inl (Option.some.inj user)
    | some other => exact nomatch (caller_alone (by rw [known]; rfl)).2.symm.trans holds

end Users

section Sparing

variable {rt : Runtime} {db : Database} {outside : Outside} {phase : Phase} {pending : List Write}
  {batch : Batch} {userId other : Nat}

def Write.Spares (userId : Nat) (rows : Database) : Write → Prop
  | .insertWorkspace row => row.userId ≠ userId
  | .insertRevision row => ∀ workspace ∈ rows.workspaces, workspace.id ≠ row.workspaceId
  | .insertJob row => row.userId ≠ userId
  | .insertArtifact _ row => ∀ source ∈ rows.revisions, source.id ≠ row.revisionId
  | .insertApplication row => row.userId ≠ userId
  | .setCurrentRevision workspaceId _ | .setStatus workspaceId _ => ∀ workspace ∈ rows.workspaces,
      workspace.id ≠ workspaceId
  | .lockWorkspace _ => True
  | .deleteWorkspace _ => False
  | .updateJob _ jobId _ => ∀ job ∈ rows.jobs, job.id ≠ jobId
  | .updateApplication applicationId _ | .deleteApplication applicationId =>
    ∀ application ∈ rows.applications, application.id ≠ applicationId

theorem of_eq {db' : Database} (workspaces : db'.workspacesOf userId = db.workspacesOf userId)
    (revisions : db'.revisions.filter (fun row => (db.workspacesOf userId).any (·.id = row.workspaceId)) =
      db.revisionsOf userId)
    (artifacts : db'.artifacts.filter (fun row => (db.revisionsOf userId).any (·.id = row.revisionId)) =
      db.artifactsOf userId)
    (jobs : db'.jobs.filter (·.userId = userId) = db.jobs.filter (·.userId = userId))
    (applications : db'.applications.filter (·.userId = userId) = db.applications.filter
      (·.userId = userId)) :
    db'.of userId = db.of userId := by
  have second : db'.revisionsOf userId = db.revisionsOf userId :=
    by rw [Database.revisionsOf, workspaces, revisions]
  have third : db'.artifactsOf userId = db.artifactsOf userId :=
    by rw [Database.artifactsOf, second, artifacts]
  rw [Database.of, Database.of, workspaces, second, third, jobs, applications]

theorem set_workspacesOf {target : Nat} {set : ResumeWorkspace → ResumeWorkspace}
    (spares : ∀ row ∈ db.workspacesOf userId, row.id ≠ target) (same : ∀ row, (set row).userId = row.userId) :
    (db.setWorkspace target set).workspacesOf userId = db.workspacesOf userId := by
  refine filter_map_outside (fun row member mine => if_neg ?_) fun row _ => ?_
  · exact spares row (List.mem_filter.mpr ⟨member, mine⟩)
  · split
    · rw [same]
    · rfl

theorem of_applyWrite {w : Write} (spares : w.Spares userId (db.of userId)) :
    (applyWrite db w).of userId = db.of userId := by
  cases w with
  | insertWorkspace row => exact of_eq (filter_append_outside (decide_eq_false spares)) rfl rfl rfl rfl
  | insertRevision row =>
    refine of_eq rfl (filter_append_outside ?_) rfl rfl rfl
    rw [List.any_eq_false]
    exact fun workspace member same => spares workspace member (of_decide_eq_true same)
  | insertJob row => exact of_eq rfl rfl rfl (filter_append_outside (decide_eq_false spares)) rfl
  | insertArtifact workspaceId row =>
    refine of_eq rfl rfl (filter_append_outside ?_) rfl rfl
    rw [List.any_eq_false]
    exact fun source member same => spares source member (of_decide_eq_true same)
  | insertApplication row => exact of_eq rfl rfl rfl rfl (filter_append_outside (decide_eq_false spares))
  | setCurrentRevision workspaceId revisionId =>
      exact of_eq (set_workspacesOf spares fun _ => rfl) rfl rfl rfl rfl
  | setStatus workspaceId status => exact of_eq (set_workspacesOf spares fun _ => rfl) rfl rfl rfl rfl
  | lockWorkspace workspaceId => rfl
  | deleteWorkspace workspaceId => exact spares.elim
  | updateJob workspaceId jobId update =>
    refine of_eq rfl rfl rfl (filter_map_outside (fun row member mine => if_neg ?_) fun row _ => ?_) rfl
    · exact spares row (List.mem_filter.mpr ⟨member, mine⟩)
    · split <;> rfl
  | updateApplication applicationId changes =>
    refine of_eq rfl rfl rfl rfl (filter_map_outside (fun row member mine => if_neg ?_) fun row _ => ?_)
    · exact spares row (List.mem_filter.mpr ⟨member, mine⟩)
    · split
      · obtain ⟨fields, same⟩ := setattr_kept row changes
        rw [same]
      · rfl
  | deleteApplication applicationId =>
    refine of_eq rfl rfl rfl rfl (filter_kept fun row member mine => decide_eq_true ?_)
    exact spares row (List.mem_filter.mpr ⟨member, mine⟩)

theorem of_replay {writes : List Write} (spares : ∀ w ∈ writes, w.Spares userId (db.of userId)) :
    (replay db writes).of userId = db.of userId := by
  induction writes generalizing db with
  | nil => rfl
  | cons w writes ih =>
    have first := of_applyWrite (spares w List.mem_cons_self)
    refine (ih fun v member => ?_).trans first
    rw [first]
    exact spares v (List.mem_cons_of_mem _ member)

theorem owner_only (sound : (resumeFacts rt).Sound outside ((resumeFacts rt).seen db outside phase pending))
    {workspaceId : Nat} (owner : (resumeFacts rt).seen db outside phase pending (.owner workspaceId userId)) :
    db.Only userId workspaceId := by
  intro row member named
  have stored : Fact.owner row.id row.userId ∈ db.facts :=
    Database.mem_facts.mpr (.inl ⟨row, member, List.mem_cons_self⟩)
  exact (sound.agreed _ _ (.inr (.inl stored)) owner).1 named

theorem held_owner (ok : Placed phase) (user : phase.user? = some userId) {held : ResumeWorkspace}
    (holds : phase.held? = some held) :
    (resumeFacts rt).seen db outside phase pending (.owner held.id userId) := by
  rcases user_held user holds with same | ⟨job, employs⟩
  · rw [← same]
    exact .inl (.inl (Phase.mem_facts.mpr (.inl ⟨held, holds, List.mem_cons_self⟩)))
  · rw [ok.house held job holds employs, ← user_job user employs]
    exact object_fact employs List.mem_cons_self

theorem writer_owner {writer : Writer} {revisionId sent : Nat} {text : Str}
    (ok : Placed (.flush (.revision writer revisionId text) sent))
    (user : (Phase.flush (.revision writer revisionId text) sent).user? = some userId) :
    (resumeFacts rt).seen db outside (.flush (.revision writer revisionId text) sent) pending
    (.owner writer.workspaceId userId) := by
  cases writer with
  | create workspace =>
    cases user
    exact .inl (.inl (Phase.mem_facts.mpr (.inr (.inr (.inr List.mem_cons_self)))))
  | save held caller payload number => exact held_owner ok user rfl
  | worker job held source => exact held_owner ok user rfl

theorem job_only (sound : (resumeFacts rt).Sound outside ((resumeFacts rt).seen db outside phase pending))
    (user : phase.user? = some userId) {job : ResumeJob} (employs : phase.jobObject? = some job)
    (apart : other ≠ userId) :
    ∀ row ∈ (db.of other).jobs, row.id ≠ job.id := by
  intro row member same
  obtain ⟨listed, theirs⟩ := List.mem_filter.mp member
  have place : row.workspaceId = job.workspaceId :=
    (sound.agreed _ _ (job_fact listed (jobHome_mem row)) (object_fact employs (jobHome_mem job))).1 same
  have owner : row.userId = job.userId :=
    (sound.agreed _ _ (job_fact listed List.mem_cons_self) (object_fact employs List.mem_cons_self)).1 place
  exact apart ((of_decide_eq_true theirs).symm.trans (owner.trans (user_job user employs)))

theorem workspace_only {workspaceId : Nat} (only : db.Only userId workspaceId) (apart : other ≠ userId) :
    ∀ workspace ∈ (db.of other).workspaces, workspace.id ≠ workspaceId := by
  intro workspace member same
  obtain ⟨listed, theirs⟩ := mem_workspacesOf.mp member
  exact apart (theirs.symm.trans (only workspace listed same))

theorem application_only {row : ApplicationRecord} {sent : Nat}
    (sound : (resumeFacts rt).Sound outside ((resumeFacts rt).seen db outside (.flush batch sent) pending))
    (member : ∀ f ∈ row.facts, f ∈ batch.facts) (apart : other ≠ row.userId) :
    ∀ application ∈ (db.of other).applications, application.id ≠ row.id := by
  intro application inside same
  obtain ⟨listed, theirs⟩ := List.mem_filter.mp inside
  have stored : Fact.application application.id application.userId application.toApplicationSnapshot ∈
      db.facts :=
    Database.mem_facts.mpr (.inr (.inr (.inr (.inr ⟨application, listed, List.mem_cons_self⟩))))
  have mine : Fact.application row.id row.userId row.toApplicationSnapshot ∈ (Phase.flush batch sent).facts :=
    Phase.mem_facts.mpr (.inr (.inr (.inr (member _ List.mem_cons_self))))
  have agree := (sound.agreed _ _ (.inr (.inl stored)) (.inl (.inl mine))).1 same
  exact apart ((of_decide_eq_true theirs).symm.trans agree.1)

theorem spares_others {sent : Nat} {w : Write} (consistent : Consistent db outside)
    (sound : (resumeFacts rt).Sound outside ((resumeFacts rt).seen db outside (.flush batch sent) pending))
    (ok : Placed (.flush batch sent)) (user : (Phase.flush batch sent).user? = some userId)
    (apart : other ≠ userId) (written : Writes batch w) (rooted : w.Rooted db outside)
    (keeps : ∀ held, batch ≠ .delete held) :
    w.Spares other (db.of other) := by
  have holds : ∀ {held : ResumeWorkspace}, batch.held? = some held → db.Only userId held.id :=
    fun here => owner_only sound (held_owner ok user here)
  cases written with
  | opens =>
    cases user
    exact apart.symm
  | inserts => exact workspace_only (owner_only sound (writer_owner ok user)) apart
  | points => exact workspace_only (owner_only sound (writer_owner ok user)) apart
  | reports => exact job_only sound user rfl apart
  | approves => exact workspace_only (holds rfl) apart
  | locks => exact absurd rfl (keeps _)
  | deletes => exact absurd rfl (keeps _)
  | queues =>
    rw [← user_job user rfl] at apart
    exact apart.symm
  | starts => exact job_only sound user rfl apart
  | fails => exact job_only sound user rfl apart
  | draws published =>
    obtain ⟨_, _, revision, listed, named, home⟩ := rooted
    intro source member same
    obtain ⟨inside, workspace, theirs, here⟩ := mem_revisionsOf.mp member
    rw [List.inj_on_of_nodup_map consistent.uniqueRevisions inside listed (same.trans named.symm),
      home] at here
    exact workspace_only (holds (ok.publish.published _ _ published).1) apart workspace theirs here
  | renders => exact job_only sound user rfl apart
  | applies =>
    cases user
    exact apart.symm
  | tracks =>
    cases user
    exact application_only sound (fun _ here => here) apart
  | removes =>
    cases user
    exact application_only sound (fun _ here => here) apart

theorem keepReference_kept {gone : Nat → Bool} {reference : Option Nat}
    (spared : ∀ id, reference = some id → (!gone id) = true) :
    keepReference gone reference = reference := by
  cases reference with
  | none => rfl
  | some id => exact Option.filter_eq_some_iff.mpr ⟨rfl, spared id rfl⟩

theorem of_delete {target : Nat} (consistent : Consistent db outside) (catalogued : Catalogued db outside)
    (sound : (resumeFacts rt).Sound outside ((resumeFacts rt).seen db outside phase pending))
    (owner : (resumeFacts rt).seen db outside phase pending (.owner target userId)) (apart : other ≠ userId) :
    (db.delete target).of other = db.of other := by
  have elsewhere : ∀ workspace ∈ db.workspacesOf other, workspace.id ≠ target :=
    workspace_only (owner_only sound owner) apart
  have once : ∀ {revision source : ResumeRevision}, revision ∈ db.revisions → source ∈ db.revisions →
    revision.id = source.id →
      revision = source := fun listed inside same =>
        List.inj_on_of_nodup_map consistent.uniqueRevisions listed inside same
  refine of_eq ?_ ?_ ?_ ?_ ?_
  · exact filter_kept fun row member mine =>
      decide_eq_true (elsewhere row (List.mem_filter.mpr ⟨member, mine⟩))
  · refine filter_kept fun row member mine => decide_eq_true ?_
    obtain ⟨workspace, theirs, here⟩ := List.any_eq_true.mp mine
    exact of_decide_eq_true here ▸ elsewhere workspace theirs
  · refine filter_kept fun row member mine => not_gone ?_
    obtain ⟨source, theirs, drawn⟩ := List.any_eq_true.mp mine
    obtain ⟨inside, workspace, owned, here⟩ := mem_revisionsOf.mp theirs
    intro revision listed named
    rw [once listed inside (named.trans (of_decide_eq_true drawn).symm), ← here]
    exact elsewhere workspace owned
  · have apartJob : ∀ job ∈ db.jobs, job.userId = other → job.workspaceId ≠ target := by
      intro job listed theirs home
      exact apart (theirs.symm.trans ((sound.agreed _ _ (job_fact listed List.mem_cons_self) owner).1 home))
    have left : (db.jobs.filter (·.workspaceId ≠ target)).filter (·.userId = other) =
        db.jobs.filter (·.userId = other) :=
      filter_kept fun job member mine => decide_eq_true (apartJob job member (of_decide_eq_true mine))
    refine Eq.trans (filter_map_outside (fun job member mine => ?_) fun job _ => rfl) left
    have listed := (List.mem_filter.mp member).1
    have kept : keepReference (fun id => (db.history target).any (·.id = id)) job.resultRevisionId =
        job.resultRevisionId := by
      refine keepReference_kept fun id named => not_gone fun revision inside same => ?_
      have home : Fact.home id job.workspaceId ∈ job.facts := by simp [ResumeJob.facts, named]
      rw [pointed_home sound (revision_fact inside) (same ▸ job_fact listed home)]
      exact apartJob job listed (of_decide_eq_true mine)
    rw [kept]
  · refine filter_map_outside (fun application member mine => ?_) fun application _ => rfl
    have place : ∀ id, application.resumeWorkspaceId = some id → id ≠ target := by
      intro id named home
      have mineFact : Fact.owner id application.userId ∈ application.facts :=
        by simp [ApplicationRecord.facts, named]
      have stored := Database.mem_facts.mpr (.inr (.inr (.inr (.inr ⟨application, member, mineFact⟩))))
      exact apart ((of_decide_eq_true mine).symm.trans ((sound.agreed _ _ (.inr (.inl stored)) owner).1 home))
    have workspace : keepReference (· = target) application.resumeWorkspaceId =
        application.resumeWorkspaceId :=
      keepReference_kept fun id named => by simpa using place id named
    have revision : keepReference (fun id => (db.history target).any (·.id = id))
      application.resumeRevisionId =
        application.resumeRevisionId := by
      refine keepReference_kept fun id named => not_gone fun revision inside same => ?_
      obtain ⟨anchor, listed, here, home⟩ := catalogued.anchored application member id named
      rw [once inside listed (same.trans here.symm)]
      exact place _ home
    rw [workspace, revision]

theorem moves_of {label : Option Input} {db' : Database} {outside' : Outside} {phase' : Phase}
    {pending' : List Write} (known : (knownAssertion rt).own db outside phase pending)
    (consistent : Consistent db outside) (catalogued : Catalogued db outside)
    (kept : Kept db outside phase pending) (user : phase.user? = some userId) (apart : other ≠ userId)
    (moves : (resumeSystem rt).Moves db outside phase pending label db' outside' phase' pending') :
    db'.of other = db.of other := by
  obtain ⟨history, sound, ok⟩ := known
  cases moves with
  | commit next =>
    obtain ⟨batch, sent, rfl, _, rfl, rfl, rfl, _⟩ := commit_change history (next_cases next)
    by_cases deletes : ∃ held, batch = .delete held
    · obtain ⟨held, rfl⟩ := deletes
      exact of_delete consistent catalogued sound (held_owner ok user rfl) apart
    · refine of_replay fun w member => ?_
      exact spares_others consistent sound ok user apart (Batch.mem_writes member) (kept.rooted w member)
        fun held same => deletes ⟨held, same⟩
  | _ => rfl

end Sparing

section Answering

variable {rt : Runtime} {db : Database} {outside : Outside} {phase : Phase} {pending : List Write}
  {input : Input} {userId : Nat}

theorem home_only (sound : (resumeFacts rt).Sound outside ((resumeFacts rt).seen db outside phase pending))
    {revisionId workspaceId : Nat}
    (home : (resumeFacts rt).seen db outside phase pending (.home revisionId workspaceId))
    (only : db.Only userId workspaceId) :
    ∀ row ∈ db.revisions, row.id = revisionId → db.Only userId row.workspaceId := by
  intro row member named
  rw [pointed_home sound (revision_fact member) (named ▸ home)]
  exact only

theorem of_pointer (sound : (resumeFacts rt).Sound outside ((resumeFacts rt).seen db outside phase pending))
    (consistent : Consistent db outside) {held : ResumeWorkspace} (holds : phase.held? = some held)
    (only : db.Only userId held.id) :
    held.currentRevisionId.bind (db.of userId).revision? = held.currentRevisionId.bind db.revision? := by
  cases pointer : held.currentRevisionId with
  | none => rfl
  | some id =>
    refine consistent.of_revision? (home_only sound ?_ only)
    refine .inl (.inl (Phase.mem_facts.mpr (.inl ⟨held, holds, ?_⟩)))
    simp [ResumeWorkspace.facts, pointer]

theorem of_restored (consistent : Consistent db outside) {held : ResumeWorkspace}
    (only : db.Only userId held.id) (revisionId : Nat) :
    afterSource rt (db.of userId) outside held (.restoreRevision revisionId) = afterSource rt db outside held
      (.restoreRevision revisionId) := by
  by_cases here : ∀ row ∈ db.revisions, row.id = revisionId → row.workspaceId = held.id
  · have same : (db.of userId).revision? revisionId = db.revision? revisionId :=
      consistent.of_revision? fun row member named => (here row member named).symm ▸ only
    simp only [afterSource, same]
  · have elsewhere : ∀ base : Database, (∀ row ∈ base.revisions, row ∈ db.revisions) →
        afterSource rt base outside held (.restoreRevision revisionId) = refuse 404 "Revision not found" := by
      intro base part
      obtain ⟨row, member, named, away⟩ : ∃ row ∈ db.revisions, row.id = revisionId ∧
          row.workspaceId ≠ held.id := by
        simpa using here
      cases found : base.revision? revisionId with
      | none => simp only [afterSource, found]
      | some source =>
        obtain ⟨inside, same⟩ := revision?_some found
        have twin := List.inj_on_of_nodup_map consistent.uniqueRevisions (part source inside) member
          (same.trans named.symm)
        simp only [afterSource, found]
        exact if_pos (twin ▸ away)
    rw [elsewhere db fun _ member => member, elsewhere (db.of userId) fun _ member =>
      (List.mem_filter.mp member).1]

theorem next_of (known : (knownAssertion rt).own db outside phase pending)
    (consistent : Consistent db outside) (catalogued : Catalogued db outside)
    (user : phase.user? = some userId) :
    next rt ((replay db pending).of userId) outside phase input = next rt (replay db pending) outside
      phase input := by
  obtain ⟨history, sound, ok⟩ := known
  have holds : ∀ {held : ResumeWorkspace}, phase.held? = some held → db.Only userId held.id :=
    fun here => owner_only sound (held_owner ok user here)
  cases phase with
  | owned caller workspaceId call =>
    cases user
    simp only [next, of_owned?]
  | application caller applicationId call =>
    cases user
    simp only [next, of_application?]
  | source held call =>
    have pointer := of_pointer sound consistent rfl (holds rfl)
    rw [clean_view history rfl]
    cases call with
    | restoreRevision revisionId => exact of_restored consistent (holds rfl) revisionId
    | _ => simp only [next, afterSource, pointer]
  | saving held caller payload =>
    cases user
    simp only [next, of_owned?]
  | latest held caller payload document =>
    rw [clean_view history rfl]
    simp only [next, Database.latestRevision?, consistent.of_history (holds rfl)]
  | artifact held revision reader =>
    have same := catalogued.of_artifact? consistent (home_only sound (published_home ok rfl) (holds rfl))
    rw [clean_view history rfl]
    simp only [next, same]
  | jobWorkspace function job =>
    have owner := owner_only sound (object_fact rfl List.mem_cons_self)
    rw [user_job user rfl] at owner
    rw [clean_view history rfl]
    simp only [next, of_workspace? owner]
  | jobRevision function job held =>
    have pointer := of_pointer sound consistent rfl (holds rfl)
    rw [clean_view history rfl]
    simp only [next, pointer]
  | job function jobId => cases user
  | _ => rfl

end Answering

structure Linked (db : Database) : Prop where
  revisions : ∀ row ∈ db.revisions, ∃ workspace ∈ db.workspaces, workspace.id = row.workspaceId
  artifacts : ∀ row ∈ db.artifacts, ∃ revision ∈ db.revisions, revision.id = row.revisionId
  current : ∀ workspace ∈ db.workspaces, ∃ revision ∈ db.revisions,
    workspace.currentRevisionId = some revision.id ∧ revision.workspaceId = workspace.id
  jobs : ∀ job ∈ db.jobs, ∃ workspace ∈ db.workspaces, workspace.id = job.workspaceId ∧
    workspace.userId = job.userId
  results : ∀ job ∈ db.jobs, ∀ revision ∈ db.revisions, job.resultRevisionId = some revision.id →
    revision.workspaceId = job.workspaceId

structure AnswersOwn (rt : Runtime) (userId : Nat) (first second : Database) : Prop where
  listWorkspaces : ∀ ordered limit offset,
    listWorkspaces (first.of userId) userId ordered limit offset =
      listWorkspaces first userId ordered limit offset
  getWorkspace : ∀ workspaceId, getWorkspace rt (first.of userId) (second.of userId) userId workspaceId =
    getWorkspace rt first second userId workspaceId
  revisions : ∀ workspaceId, revisions rt (first.of userId) (second.of userId) userId workspaceId =
    revisions rt first second userId workspaceId
  previewRefinement : ∀ workspaceId input, previewRefinement rt (first.of userId) (second.of userId) userId
    workspaceId input =
    previewRefinement rt first second userId workspaceId input
  getGenerationJob : ∀ jobId, getGenerationJob (first.of userId) userId jobId =
    getGenerationJob first userId jobId
  downloadRenderJob : ∀ jobId storage input, downloadRenderJob (first.of userId) (second.of userId) userId
    jobId storage input =
    downloadRenderJob first second userId jobId storage input
  listMyApplications : ∀ ordered limit offset,
    listMyApplications (first.of userId) userId ordered limit offset = listMyApplications first userId
      ordered limit offset
  getMyApplication : ∀ applicationId,
    getMyApplication (first.of userId) userId applicationId = getMyApplication first userId applicationId
  downloadMyApplicationPdf : ∀ applicationId storage input,
    downloadMyApplicationPdf (first.of userId) userId applicationId storage input =
      downloadMyApplicationPdf first userId applicationId storage input

section Runs

variable {rt : Runtime} {s s' : State Database Outside Phase Write} {userId : Nat}

theorem linked (reachable : Reachable rt s) : Linked s.db := by
  have consistent := (history_holds reachable).2.common
  have catalogued := (catalogue_holds reachable).common
  have sound := (facts_hold reachable).common
  have stored : ∀ {f}, f ∈ s.db.facts → (resumeFacts rt).common s.db s.outside f := fun here => .inl here
  have jobFact : ∀ {job}, job ∈ s.db.jobs → ∀ f ∈ job.facts, f ∈ s.db.facts :=
    fun listed f here => Database.mem_facts.mpr (.inr (.inr (.inl ⟨_, listed, here⟩)))
  refine ⟨?_, catalogued.drawn, ?_, ?_, ?_⟩
  · intro row member
    obtain ⟨workspace, found⟩ := Option.ne_none_iff_exists'.mp (consistent.owned row member)
    exact ⟨workspace, workspace?_some found⟩
  · intro workspace member
    obtain ⟨last, found, pointer⟩ :=
      (consistent.linear _ _ (workspace?_of_mem consistent.uniqueWorkspaces member)).pointer
    obtain ⟨listed, home⟩ := mem_history.mp (List.mem_of_getLast? found)
    exact ⟨last, listed, pointer, home⟩
  · intro job member
    obtain ⟨workspace, found⟩ := Option.ne_none_iff_exists'.mp (catalogued.placed job member)
    obtain ⟨listed, named⟩ := workspace?_some found
    have mine : Fact.owner workspace.id workspace.userId ∈ s.db.facts :=
      Database.mem_facts.mpr (.inl ⟨workspace, listed, List.mem_cons_self⟩)
    exact ⟨workspace, listed, named,
      (sound.agreed _ _ (stored mine) (stored (jobFact member _ List.mem_cons_self))).1 named⟩
  · intro job member revision listed result
    have home : Fact.home revision.id job.workspaceId ∈ job.facts := by simp [ResumeJob.facts, result]
    have row : Fact.revision revision ∈ s.db.facts :=
      Database.mem_facts.mpr (.inr (.inl ⟨revision, listed, rfl⟩))
    exact pointed_home sound (stored row) (stored (jobFact member _ home))

theorem remembered_only (reachable : Reachable rt s) (run : Runs (resumeSystem rt) Guard.free s s')
    {workspaceId : Nat} (owner : Fact.owner workspaceId userId ∈ s.db.facts) :
    s'.db.Only userId workspaceId := by
  intro row member named
  have later : Fact.owner row.id row.userId ∈ s'.db.facts :=
    Database.mem_facts.mpr (.inl ⟨row, member, List.mem_cons_self⟩)
  exact (fact_remembered reachable run (.inl owner) (.inl later)).1 named

theorem remembered_home (reachable : Reachable rt s) (run : Runs (resumeSystem rt) Guard.free s s')
    {revisionId workspaceId : Nat} (owner : Fact.owner workspaceId userId ∈ s.db.facts)
    (home : Fact.home revisionId workspaceId ∈ s.db.facts) :
    ∀ row ∈ s'.db.revisions, row.id = revisionId → s'.db.Only userId row.workspaceId := by
  intro row member named
  have later : Fact.revision row ∈ s'.db.facts := Database.mem_facts.mpr (.inr (.inl ⟨row, member, rfl⟩))
  have place : row.workspaceId = workspaceId :=
    (fact_remembered reachable run (.inl home) (.inl later)).1 named
  exact place ▸ remembered_only reachable run owner

theorem of_page {α : Type} {rows : List α} {q : α → Bool} (ordered : List α → List α) (limit offset : Nat) :
    page ordered limit offset ((rows.filter q).filter q) = page ordered limit offset (rows.filter q) :=
  congrArg (page ordered limit offset) (filter_kept fun _ _ mine => mine)

theorem answers_own (reachable : Reachable rt s) (run : Runs (resumeSystem rt) Guard.free s s')
    (userId : Nat) :
    AnswersOwn rt userId s.db s'.db := by
  have consistent := (history_holds (reachable.trans run)).2.common
  have catalogued := (catalogue_holds (reachable.trans run)).common
  have facts : ∀ {workspaceId workspace}, s.db.owned? workspaceId userId = some workspace →
      ∀ f ∈ workspace.facts, f ∈ s.db.facts :=
    fun found f here => Database.mem_facts.mpr (.inl ⟨_, (owned?_some found).1, here⟩)
  have owner : ∀ {workspaceId workspace}, s.db.owned? workspaceId userId = some workspace →
      Fact.owner workspace.id userId ∈ s.db.facts := by
    intro workspaceId workspace found
    rw [← (owned?_some found).2.2]
    exact facts found _ List.mem_cons_self
  have pointed : ∀ {workspaceId workspace revisionId}, s.db.owned? workspaceId userId = some workspace →
      workspace.currentRevisionId = some revisionId → (s'.db.of userId).revision? revisionId =
          s'.db.revision? revisionId := by
    intro workspaceId workspace revisionId found pointer
    refine consistent.of_revision? (remembered_home reachable run (owner found) (facts found _ ?_))
    simp [ResumeWorkspace.facts, pointer]
  refine ⟨?_, ?_, ?_, ?_, ?_, ?_, ?_, ?_, ?_⟩
  · exact fun ordered limit offset => congrArg Except.ok (of_page ordered limit offset)
  · intro workspaceId
    simp only [getWorkspace, owned, of_owned?]
    cases found : s.db.owned? workspaceId userId with
    | none => rfl
    | some workspace =>
      have same : (workspace.currentRevisionId.filter (· ≠ 0)).bind (s'.db.of userId).revision? =
          (workspace.currentRevisionId.filter (· ≠ 0)).bind s'.db.revision? := by
        cases pointer : workspace.currentRevisionId.filter (· ≠ 0) with
        | none => rfl
        | some revisionId => exact pointed found (Option.filter_eq_some_iff.mp pointer).1
      simp only [orElse, bind, Except.bind, same]
  · intro workspaceId
    simp only [revisions, owned, of_owned?]
    cases found : s.db.owned? workspaceId userId with
    | none => rfl
    | some workspace =>
      simp only [orElse, bind, Except.bind,
        consistent.of_history (remembered_only reachable run (owner found))]
  · intro workspaceId input
    simp only [previewRefinement, owned, of_owned?]
    cases found : s.db.owned? workspaceId userId with
    | none => rfl
    | some workspace =>
      have same : workspace.currentRevisionId.bind (s'.db.of userId).revision? =
          workspace.currentRevisionId.bind s'.db.revision? := by
        cases pointer : workspace.currentRevisionId with
        | none => rfl
        | some revisionId => exact pointed found pointer
      simp only [orElse, bind, Except.bind, same]
  · intro jobId
    simp only [getGenerationJob, of_jobOf?]
  · intro jobId storage input
    have same : (s.db.of userId).jobs.find? (fun row => row.id = jobId ∧ row.userId = userId ∧
      row.kind = .render) =
        s.db.jobs.find? fun row => row.id = jobId ∧ row.userId = userId ∧ row.kind = .render := by
      refine find?_kept fun row _ matched => ?_
      simp only [decide_eq_true_eq] at matched ⊢
      exact matched.2.1
    simp only [downloadRenderJob, same]
    cases found : s.db.jobs.find? fun row => row.id = jobId ∧ row.userId = userId ∧ row.kind = .render with
    | none => rfl
    | some job =>
      have matched := List.find?_some found
      simp only [decide_eq_true_eq] at matched
      have fact : ∀ f ∈ job.facts, f ∈ s.db.facts :=
        fun f here => Database.mem_facts.mpr (.inr (.inr (.inl ⟨job, List.mem_of_find?_eq_some found, here⟩)))
      have mine : Fact.owner job.workspaceId userId ∈ s.db.facts := matched.2.1 ▸ fact _ List.mem_cons_self
      have drawn : ∀ revisionId, job.resultRevisionId = some revisionId →
          (s'.db.of userId).artifact? revisionId = s'.db.artifact? revisionId := by
        intro revisionId result
        have home : Fact.home revisionId job.workspaceId ∈ job.facts := by simp [ResumeJob.facts, result]
        exact catalogued.of_artifact? consistent (remembered_home reachable run mine (fact _ home))
      cases result : job.resultRevisionId with
      | none => cases status : job.status <;> simp only [orElse, status, result]
      | some revisionId =>
          cases status : job.status <;> simp only [orElse, status, result, drawn revisionId result]
  · exact fun ordered limit offset => congrArg Except.ok (of_page ordered limit offset)
  · intro applicationId
    simp only [getMyApplication, of_application?]
  · intro applicationId storage input
    simp only [downloadMyApplicationPdf, getMyApplication, of_application?]

/-- Session `i` works for the user, unless it has finished. -/
def Serves (userId i : Nat) (s : State Database Outside Phase Write) : Prop :=
  i < s.sessions.length ∧ ∀ session, s.sessions[i]? = some session →
    session.phase.user? = some userId ∨ ∃ outcome, session.phase = .finished outcome

theorem finished_moves {db db' : Database} {outside outside' : Outside} {phase' : Phase}
    {pending pending' : List Write} {outcome : Outcome} {label : Option Input}
    (moves : (resumeSystem rt).Moves db outside (.finished outcome) pending label db' outside' phase'
      pending') : db' = db := by
  cases moves with
  | commit answer => cases answer
  | _ => rfl

theorem moves_user {db db' : Database} {outside outside' : Outside} {phase phase' : Phase}
    {pending pending' : List Write} {label : Option Input}
    (moves : (resumeSystem rt).Moves db outside phase pending label db' outside' phase' pending')
    (user : phase.user? = some userId ∨ ∃ outcome, phase = .finished outcome) :
    phase'.user? = some userId ∨ ∃ outcome, phase' = .finished outcome := by
  have stepped : ∀ {base input effect}, next rt base outside phase input = some effect →
      effect.phase.user? = some userId ∨ ∃ outcome, effect.phase = .finished outcome := by
    intro base input effect answer
    rcases user with known | ⟨outcome, rfl⟩
    · exact next_user (next_cases answer) known
    · cases answer
  cases moves with
  | read next => exact stepped next
  | write next _ => exact stepped next
  | refused _ _ => exact .inr (finished_failed phase)
  | commit next => exact stepped next
  | fail next => exact stepped next
  | abort => exact .inr (finished_failed phase)

theorem serves_runs {i : Nat} (serves : Serves userId i s) (run : Runs (resumeSystem rt) Guard.free s s') :
    Serves userId i s' := by
  induction run with
  | refl => exact serves
  | tail _ step ih =>
    rename_i t t' _
    obtain ⟨inside, user⟩ := ih
    obtain ⟨action, _, stepped⟩ := step
    rcases step_moves stepped with ⟨request, phase, outside, _, _, rfl⟩ | ⟨j, acting, label, phase, pending,
      found, _, moves, _, placed⟩
    · refine ⟨by simp only [List.length_append]; omega, fun session here => ?_⟩
      rcases append_session here with before | ⟨last, _⟩
      · exact user session before
      · omega
    · refine ⟨by rw [placed, List.length_set]; exact inside, fun session here => ?_⟩
      rw [placed] at here
      rcases set_session here with ⟨rfl, rfl⟩ | ⟨_, before⟩
      · exact moves_user moves (user acting found)
      · exact user session before

/-- Users are isolated: rows lead to one owner; whatever ids a request names, each of its steps would be the
    same if only its user's rows were there, and leaves the rows of everybody else; and so do the routes that
    only read. -/
theorem users_isolated (reachable : Reachable rt s) : Linked s.db ∧
    (∀ request userId s₀, request.userId? = some userId →
      (resumeSystem rt).step s (.start request) = some s₀ →
      ∀ s₁, Runs (resumeSystem rt) Guard.free s₀ s₁ →
        (∀ session input, s₁.sessions[s.sessions.length]? = some session →
          next rt (((resumeSystem rt).view s₁.db session.pending).of userId) s₁.outside session.phase input =
            next rt ((resumeSystem rt).view s₁.db session.pending) s₁.outside session.phase input) ∧
        ∀ action s₂, action = .abort s.sessions.length ∨ (∃ input, action = .run s.sessions.length input) →
          (resumeSystem rt).step s₁ action = some s₂ → ∀ other ≠ userId, s₂.db.of other = s₁.db.of other) ∧
    ∀ s', Runs (resumeSystem rt) Guard.free s s' → ∀ userId, AnswersOwn rt userId s.db s'.db := by
  refine ⟨linked reachable, ?_, fun s' run userId => answers_own reachable run userId⟩
  intro request userId s₀ user start s₁ run
  have serves : Serves userId s.sessions.length s₁ := by
    refine serves_runs ?_ run
    cases start
    refine ⟨by simp, fun session placed => .inl ?_⟩
    rw [List.getElem?_append_right (Nat.le_refl _), Nat.sub_self] at placed
    cases placed
    exact (begin_user request).trans user
  have reached : Reachable rt s₁ := (reachable.tail ⟨_, Guard.free_allows _ _, start⟩).trans run
  have history := (history_holds reached).2
  have catalogue := catalogue_holds reached
  have known := known_holds reached
  constructor
  · intro session input placed
    rcases serves.2 session placed with mine | ⟨outcome, done⟩
    · exact next_of (known.own _ _ placed) history.common catalogue.common mine
    · rw [done]
      rfl
  · intro action s₂ acts step other apart
    rcases step_moves step with ⟨request, _, _, rfl, _, _⟩ | ⟨i, session, label, phase, pending, placed,
      acting, moves, _, _⟩
    · rcases acts with same | ⟨_, same⟩ <;> cases same
    · have here : i = s.sessions.length := by
        rcases acts with rfl | ⟨_, rfl⟩ <;> rcases acting with ⟨same, _⟩ | ⟨_, same, _⟩ <;> cases same <;> rfl
      rw [here] at placed
      rcases serves.2 session placed with mine | ⟨outcome, done⟩
      · exact moves_of (known.own _ _ placed) history.common catalogue.common (catalogue.own _ _ placed)
          mine apart moves
      · rw [done] at moves
        rw [finished_moves moves]

end Runs

theorem users_isolated_deleting : ∃ s s₀ s₁ s₂, Reachable plainRuntime s ∧
    (resumeSystem plainRuntime).step s (.start (.owned 8 2 .deleteWorkspace)) = some s₀ ∧
    Runs (resumeSystem plainRuntime) Guard.free s₀ s₁ ∧ (resumeSystem plainRuntime).step s₁
      (.run s.sessions.length .answer) = some s₂ ∧
    s₁.db.revisions.map (·.workspaceId) = [1, 2] ∧ s₂.db.revisions.map (·.workspaceId) = [1] ∧
    s₂.db.of 7 = s₁.db.of 7 ∧ AnswersOwn plainRuntime 8 s.db s₂.db := by
  have ran : ((resumeSystem plainRuntime).perform Guard.free initialState
      (creating ++ .start (.createWorkspace 8 "classic_single_column".toList) :: stepping 1 4)).any (fun s =>
        s.sessions.length = 2 ∧
        (((resumeSystem plainRuntime).perform Guard.free s [.start (.owned 8 2 .deleteWorkspace)]).any
            fun s₀ =>
          ((resumeSystem plainRuntime).perform Guard.free s₀ (stepping 2 3)).any fun s₁ =>
            ((resumeSystem plainRuntime).perform Guard.free s₁ [.run 2 .answer]).any fun s₂ =>
              s₁.db.revisions.map (·.workspaceId) = [1, 2] ∧ s₂.db.revisions.map (·.workspaceId) = [1]) =
                  true) = true := by
    with_unfolding_all decide
  obtain ⟨s, reachable, check⟩ := runs_of_performed ran
  obtain ⟨two, check⟩ := of_decide_eq_true check
  obtain ⟨s₀, _, start, check⟩ := step_of_performed check
  obtain ⟨s₁, run, check⟩ := runs_of_performed check
  obtain ⟨s₂, allowed, commit, check⟩ := step_of_performed check
  obtain ⟨before, after⟩ := of_decide_eq_true check
  rw [← two] at commit
  obtain ⟨_, requests, queries⟩ := users_isolated reachable
  have reached : Runs (resumeSystem plainRuntime) Guard.free s s₂ :=
    (Relation.ReflTransGen.single ⟨_, Guard.free_allows _ _, start⟩).trans (run.tail allowed)
  exact ⟨s, s₀, s₁, s₂, reachable, start, run, commit, before, after,
    (requests _ 8 s₀ rfl start s₁ run).2 _ s₂ (.inr ⟨_, rfl⟩) commit 7 (by decide), queries s₂ reached 8⟩

end ManifestCV.Workspace
