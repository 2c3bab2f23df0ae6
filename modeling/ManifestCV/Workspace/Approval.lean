import ManifestCV.Workspace.History

namespace ManifestCV.Workspace

open Foundation Foundation.Transactions Document

/-- No revision with a free number is inserted for a workspace that is approved by then, and no approval
    commits while another session has inserted a revision for its workspace. -/
def approvalGuard : Guard Database Outside Phase Input where
  alone db _ phase _ :=
    match phase with
    | .insertRevision writer _ => (db.workspace? writer.workspaceId).all (·.status = .draft) ||
        (db.history writer.workspaceId).any (·.revisionNumber = writer.number)
    | _ => true
  beside phase _ other :=
    match phase, other with
    | .flush (.approve held) sent, .flush (.revision writer _ _) _ => sent = 0 || writer.workspaceId ≠ held.id
    | _, _ => true

/-- While it exists, workspace `id` is approved and points to `pointer`. -/
def Pinned (db : Database) (id : Nat) (pointer : Option Nat) : Prop :=
  ∀ row, db.workspace? id = some row → row.status = .approved ∧ row.currentRevisionId = pointer

def Applied (db : Database) (outside : Outside) (application : ApplicationRecord) : Prop :=
  ∀ id, application.resumeWorkspaceId = some id →
    id < outside.nextWorkspaceId ∧ Pinned db id application.resumeRevisionId

/-- What a session knows of approvals: an object it read as approved still points where the row points, and
    its pending revision is for a draft. -/
structure Settled (db : Database) (phase : Phase) (pending : List Write) : Prop where
  publishes : PublishOk phase
  held : ∀ held, phase.held? = some held → held.status = .approved → Pinned db held.id held.currentRevisionId
  draft : ∀ row, .insertRevision row ∈ pending → ∀ workspace, db.workspace? row.workspaceId = some workspace →
    workspace.status = .draft
  opens : ∀ workspace, .insertWorkspace workspace ∈ pending → ∀ row ∈ db.applications,
    row.resumeWorkspaceId ≠ some workspace.id

def approvalAssertion : Assertion Database Outside Phase Write where
  common db outside := ∀ row ∈ db.applications, Applied db outside row
  own db _ phase pending := Settled db phase pending
  pair _ _ _ _ := True

section Applications

variable {db : Database} {batch : Batch} {row : ApplicationRecord}

theorem Batch.applies (member : .insertApplication row ∈ batch.writes) :
    ∃ held source, batch.published? = some (held, source) ∧ row.resumeWorkspaceId = some held.id ∧
      row.resumeRevisionId = some source.id := by
  generalize written : Write.insertApplication row = w at member
  cases Batch.mem_writes member <;> cases written
  exact ⟨_, _, rfl, rfl, rfl⟩

theorem commit_applications (member : row ∈ (replay db batch.writes).applications) {id : Nat}
    (named : row.resumeWorkspaceId = some id) :
    (∃ application ∈ db.applications, application.resumeWorkspaceId = some id ∧
      (row.resumeRevisionId = application.resumeRevisionId ∨ ∃ held, batch = .delete held ∧ held.id ≠ id ∧
        row.resumeRevisionId = keepReference (fun gone => (db.history held.id).any (·.id = gone))
          application.resumeRevisionId)) ∨
    ∃ held source, batch.published? = some (held, source) ∧ held.id = id ∧ row.resumeRevisionId =
        some source.id := by
  by_cases deletes : ∃ held, batch = .delete held
  · obtain ⟨held, rfl⟩ := deletes
    obtain ⟨application, inside, rfl⟩ := List.mem_map.mp member
    obtain ⟨kept, apart⟩ := Option.filter_eq_some_iff.mp named
    exact .inl ⟨application, inside, kept,
      .inr ⟨held, rfl, by simpa using Ne.symm (by simpa using apart), rfl⟩⟩
  · obtain ⟨copy, ⟨workspace, revision⟩, origin⟩ :=
      replay_applications (fun id inside => deletes (Batch.deletes inside)) member
    rcases origin with old | new
    · exact .inl ⟨copy, old, workspace.symm.trans named, .inl revision⟩
    · obtain ⟨held, source, published, home, pointer⟩ := Batch.applies new
      exact .inr ⟨held, source, published, Option.some.inj (home.symm.trans (workspace.symm.trans named)),
        revision.trans pointer⟩

end Applications

section Settled

variable {rt : Runtime} {db db' : Database} {outside outside' : Outside} {phase phase' : Phase}
  {pending pending' : List Write} {batch : Batch}

theorem approved_unmoved {id : Nat} {row : ResumeWorkspace}
    (drafts : ∀ revision, .insertRevision revision ∈ batch.writes → ∀ workspace,
      db.workspace? revision.workspaceId = some workspace → workspace.status = .draft)
    (found : db.workspace? id = some row) (status : row.status = .approved) :
    ∀ writer revisionId text, batch = .revision writer revisionId text → writer.workspaceId ≠ id := by
  rintro writer revisionId text rfl rfl
  have draft := drafts _ (inserts_revision writer revisionId text) row found
  rw [status] at draft
  cases draft

theorem Pinned.commits {id : Nat} {pointer : Option Nat} (change : Commits db batch db')
    (writes : ∀ w ∈ batch.writes, WriteOk db outside w)
    (drafts : ∀ revision, .insertRevision revision ∈ batch.writes → ∀ workspace,
      db.workspace? revision.workspaceId = some workspace → workspace.status = .draft)
    (old : ∀ workspace, .insertWorkspace workspace ∈ batch.writes → workspace.id ≠ id)
    (pinned : Pinned db id pointer) : Pinned db' id pointer := by
  intro row' found
  have opened : ∀ workspace revisionId text, batch = .revision (.create workspace) revisionId text →
      workspace.id ≠ id := by
    rintro workspace revisionId text rfl
    exact old workspace (inserts_workspace workspace revisionId text)
  obtain ⟨row, before, stays, moved, _⟩ := change.row opened (opens_fresh writes) found
  obtain ⟨approved, current⟩ := pinned row before
  exact ⟨stays approved, (moved (approved_unmoved drafts before approved)).trans current⟩

theorem dropped_publishOk (ok : PublishOk phase) : PublishOk (failedPhase phase) := by
  cases phase <;> first
    | exact ok
    | exact .none (fun _ _ same => nomatch same) rfl

theorem Consistent.taken {id number : Nat} {row : ResumeWorkspace} (consistent : Consistent db outside)
    (found : db.workspace? id = some row) (taken : (db.history id).any (·.revisionNumber = number) = true) :
    number ≠ (db.history id).length + 1 := by
  obtain ⟨revision, member, same⟩ := List.any_eq_true.mp taken
  have inside : number ∈ (db.history id).map (·.revisionNumber) :=
    of_decide_eq_true same ▸ List.mem_map_of_mem member
  rw [(consistent.linear id row found).numbers, List.mem_range'_1] at inside
  omega

theorem reads_pinned {input : Input} {effect : Effect Outside Phase Write}
    (consistent : Consistent db outside) (sound : Sound db outside phase pending)
    (settled : Settled db phase pending) (step : Next rt (replay db pending) outside phase input effect) :
    ∀ held, effect.phase.held? = some held → held.status = .approved →
      Pinned db held.id held.currentRevisionId := by
  intro held holds status row found
  rcases next_held step with nothing | kept | ⟨empty, read, member, loaded⟩
  · exact absurd (nothing.symm.trans holds) (fun same => nomatch same)
  · exact settled.held held (kept ▸ holds) status row found
  · have clean : replay db pending = db := by
      rw [sound.shape, empty]
      rfl
    rw [clean] at member
    cases Option.some.inj (loaded.symm.trans holds)
    rw [workspace?_of_mem consistent.uniqueWorkspaces member] at found
    cases found
    exact ⟨status, rfl⟩

theorem applied_commits {sent : Nat} (consistent : Consistent db outside)
    (sound : Sound db outside (.flush batch sent) batch.writes)
    (settled : Settled db (.flush batch sent) batch.writes)
    (applied : ∀ row ∈ db.applications, Applied db outside row)
    (change : Commits db batch (replay db batch.writes)) :
    ∀ row ∈ (replay db batch.writes).applications, Applied (replay db batch.writes) outside row := by
  intro row member id named
  rcases commit_applications member named with ⟨application, inside, home, origin⟩ | ⟨held, source,
    published, rfl, revision⟩
  · obtain ⟨known, pinned⟩ := applied application inside id home
    have opened : ∀ workspace, .insertWorkspace workspace ∈ batch.writes → workspace.id ≠ id := by
      rintro workspace opens rfl
      exact settled.opens workspace opens application inside home
    have later := pinned.commits change sound.writes settled.draft opened
    refine ⟨known, ?_⟩
    rcases origin with same | ⟨held, rfl, apart, same⟩
    · rwa [same]
    · intro workspace found
      obtain ⟨status, pointer⟩ := later workspace found
      refine ⟨status, ?_⟩
      rw [same, ← pointer]
      have before : db.workspace? id = some workspace := by
        have left : (replay db (Batch.delete held).writes).workspace? id = if id = held.id then none else
            db.workspace? id :=
          workspace?_filter rfl id
        rw [found, if_neg (Ne.symm apart)] at left
        exact left.symm
      obtain ⟨last, _, inside, home, current⟩ := consistent.current (workspace?_some before).1
      rw [(workspace?_some before).2] at home
      have kept : (db.history held.id).any (·.id = last.id) = false := by
        rw [List.any_eq_false]
        intro other member
        obtain ⟨listed, owner⟩ := mem_history.mp member
        rw [decide_eq_true_eq]
        intro same
        rw [List.inj_on_of_nodup_map consistent.uniqueRevisions listed inside same] at owner
        exact apart (owner.symm.trans home)
      rw [current, keepReference, Option.filter_some, kept]
      rfl
  · obtain ⟨holds, status, pointer⟩ := settled.publishes.published held source published
    obtain ⟨ok, fresh⟩ := sound.held held holds
    refine ⟨ok.known, ?_⟩
    rw [revision, ← pointer]
    exact (settled.held held holds status).commits change sound.writes settled.draft fun workspace opens =>
      fresh _ opens

theorem settled_own {label : Option Input} (consistent : Consistent db outside)
    (sound : Sound db outside phase pending) (applied : ∀ row ∈ db.applications, Applied db outside row)
    (settled : Settled db phase pending)
    (allowed : ∀ input, label = some input → approvalGuard.alone db outside phase input = true)
    (moves : (resumeSystem rt).Moves db outside phase pending label db' outside' phase' pending') :
    (∀ row ∈ db'.applications, Applied db' outside' row) ∧ Settled db' phase' pending' := by
  have dropped : Settled db (failedPhase phase) [] :=
    ⟨dropped_publishOk settled.publishes, fun held holds => settled.held held (dropped_held holds),
      fun _ member => (nomatch member), fun _ member => (nomatch member)⟩
  have later : outside.Grows outside' → ∀ row ∈ db.applications, Applied db outside' row := by
    intro grows row member id named
    obtain ⟨known, pinned⟩ := applied row member id named
    exact ⟨Nat.lt_of_lt_of_le known grows.1, pinned⟩
  cases moves with
  | read next =>
    have step := next_cases next
    exact ⟨later (next_outside step), next_publishOk step settled.publishes,
      reads_pinned consistent sound settled step, settled.draft, settled.opens⟩
  | write next admitted =>
    have step := next_cases next
    refine ⟨later (next_outside step), next_publishOk step settled.publishes,
      reads_pinned consistent sound settled step, ?_, ?_⟩
    · intro row member workspace found
      rcases List.mem_append.mp member with old | new
      · exact settled.draft row old workspace found
      · have made := List.mem_singleton.mp new
        rcases next_write sound.inserted step with ⟨_, _, _, _, rfl, _⟩ | ⟨writer, text, rfl,
          rfl, _⟩ | ⟨other, _⟩
        · cases made
        · cases made
          change db.workspace? writer.workspaceId = some workspace at found
          have granted := allowed _ rfl
          simp only [approvalGuard, Bool.or_eq_true, found, Option.all_some, decide_eq_true_eq] at granted
          rcases granted with draft | taken
          · exact draft
          · exact absurd (next_number consistent sound admitted).1 (consistent.taken found taken)
        · subst made
          exact absurd other not_false
    · intro workspace member row listed named
      rcases List.mem_append.mp member with old | new
      · exact settled.opens workspace old row listed named
      · have made := List.mem_singleton.mp new
        rcases next_write sound.inserted step with ⟨_, _, _, _, rfl, _⟩ | ⟨_, _, _, rfl, _⟩ | ⟨other, _⟩
        · cases made
          exact Nat.lt_irrefl _ (applied row listed _ named).1
        · cases made
        · subst made
          exact absurd other not_false
  | refused next refused => exact ⟨applied, dropped⟩
  | commit next =>
    have step := next_cases next
    obtain ⟨batch, sent, rfl, _, rfl, rfl, rfl, change⟩ := commit_change sound step
    refine ⟨applied_commits consistent sound settled applied change, next_publishOk step settled.publishes,
      ?_, fun _ member => (nomatch member), fun _ member => (nomatch member)⟩
    intro held holds status
    rw [Batch.after_held] at holds
    exact (settled.held held holds status).commits change sound.writes settled.draft fun workspace opens =>
      (sound.held held holds).2 _ opens
  | fail next =>
    have step := next_cases next
    exact ⟨applied, next_publishOk step settled.publishes, reads_pinned consistent sound settled step,
      fun _ member => (nomatch member), fun _ member => (nomatch member)⟩
  | abort => exact ⟨applied, dropped⟩

theorem settled_other {label : Option Input} {other : Phase} {otherPending : List Write}
    (sound : Sound db outside phase pending) (beside : Sound db outside other otherPending)
    (mine : ∀ held, other.held? = some held → ∀ w ∈ pending, w.Fresh held)
    (theirs : ∀ held, phase.held? = some held → ∀ w ∈ otherPending, w.Fresh held)
    (acting : Settled db phase pending) (settled : Settled db other otherPending)
    (allowed : ∀ input, label = some input → approvalGuard.beside phase input other = true)
    (free : (resumeSystem rt).Compatible pending otherPending)
    (moves : (resumeSystem rt).Moves db outside phase pending label db' outside' phase' pending') :
    Settled db' other otherPending := by
  cases moves with
  | read next => exact settled
  | write next admitted => exact settled
  | refused next refused => exact settled
  | fail next => exact settled
  | abort => exact settled
  | commit next =>
    obtain ⟨batch, sent, rfl, all, rfl, rfl, rfl, change⟩ := commit_change sound (next_cases next)
    refine ⟨settled.publishes, ?_, ?_, ?_⟩
    · intro held holds status
      exact (settled.held held holds status).commits change sound.writes acting.draft fun workspace opens =>
        mine held holds _ opens
    · intro row member workspace found
      have old : ∀ made revisionId text, batch = .revision (.create made) revisionId text →
          made.id ≠ row.workspaceId := by
        rintro made revisionId text rfl same
        have opens := inserts_workspace made revisionId text
        rcases beside.parents row member with present | ⟨workspace, inside, named⟩
        · exact present (same ▸ (sound.writes _ opens).2)
        · exact workspaces_apart (free _ opens _ inside) (same.trans named.symm)
      obtain ⟨before, was, _, _, same⟩ := change.row old (opens_fresh sound.writes) found
      rw [same, settled.draft row member before was]
      rintro held rfl draft named
      -- the approval would commit beside this revision
      obtain ⟨writer, revisionId, text, position, rfl, rfl⟩ := pending_revision (beside.shape ▸ member)
      have apart := allowed _ rfl
      simp only [approvalGuard, Bool.or_eq_true, decide_eq_true_eq] at apart
      rcases apart with start | apart
      · subst start
        simp [Batch.writes, draft] at all
      · exact apart named.symm
    · intro workspace opens row listed named
      rcases commit_applications listed named with ⟨application, inside, home, _⟩ | ⟨held, source,
        published, same, _⟩
      · exact settled.opens workspace opens application inside home
      · obtain ⟨holds, _, _⟩ := acting.publishes.published held source published
        exact theirs held holds _ opens same.symm

end Settled

theorem approval_stable (rt : Runtime) :
    Stable (resumeSystem rt) approvalGuard historyAssertion approvalAssertion where
  start {db outside request phase outside'} _ applied started := by
    cases started
    have publishes : PublishOk (begin request) :=
      by cases request <;> exact .none (fun _ _ same => nomatch same) rfl
    have nothing : (begin request).held? = none := by cases request <;> rfl
    refine ⟨applied, publishes, ?_, fun _ member => (nomatch member), fun _ member => (nomatch member)⟩
    intro held same
    exact absurd (nothing.symm.trans same) (fun same => nomatch same)
  startOther _ _ settled started := by
    cases started
    exact ⟨settled, trivial, trivial⟩
  own consistent sound applied settled allowed moves :=
    settled_own consistent sound applied settled allowed moves
  other _ sound beside mine theirs _ acting settled _ _ allowed free moves :=
    ⟨settled_other sound beside mine theirs acting settled (fun input given => (allowed input given).2) free
      moves, trivial, trivial⟩

/-- Workspace `id` stays approved with the pointer it has, also in what the sessions have read. -/
def pinnedAssertion (id : Nat) (pointer : Option Nat) : Assertion Database Outside Phase Write where
  common db outside := id < outside.nextWorkspaceId ∧ Pinned db id pointer
  own _ _ phase pending := (∀ workspace, .insertWorkspace workspace ∈ pending → workspace.id ≠ id) ∧
    ∀ held, phase.held? = some held → held.id = id → held.status = .approved →
      held.currentRevisionId = pointer
  pair _ _ _ _ := True

section Pinned

variable {rt : Runtime} {db db' : Database} {outside outside' : Outside} {phase phase' : Phase}
  {pending pending' : List Write} {id : Nat} {pointer : Option Nat}

theorem pinned_own {label : Option Input} (consistent : Consistent db outside)
    (sound : Sound db outside phase pending) (settled : Settled db phase pending)
    (pinned : (pinnedAssertion id pointer).common db outside)
    (own : (pinnedAssertion id pointer).own db outside phase pending)
    (moves : (resumeSystem rt).Moves db outside phase pending label db' outside' phase' pending') :
    (pinnedAssertion id pointer).common db' outside' ∧
    (pinnedAssertion id pointer).own db' outside' phase' pending' := by
  obtain ⟨known, pinned⟩ := pinned
  obtain ⟨opened, holding⟩ := own
  have nothing : ∀ workspace, Write.insertWorkspace workspace ∈ [] → workspace.id ≠ id :=
    fun _ member => nomatch member
  have reads : ∀ {input effect}, Next rt (replay db pending) outside phase input effect → ∀ held,
      effect.phase.held? = some held → held.id = id → held.status = .approved →
          held.currentRevisionId = pointer := by
    rintro input effect step held holds rfl status
    rcases next_held step with missing | kept | ⟨empty, read, member, loaded⟩
    · exact absurd (missing.symm.trans holds) (fun same => nomatch same)
    · exact holding held (kept ▸ holds) rfl status
    · have clean : replay db pending = db := by
        rw [sound.shape, empty]
        rfl
      rw [clean] at member
      cases Option.some.inj (loaded.symm.trans holds)
      exact (pinned held (workspace?_of_mem consistent.uniqueWorkspaces member)).2
  cases moves with
  | read next =>
    have step := next_cases next
    have grows : outside.Grows outside' := next_outside step
    exact ⟨⟨Nat.lt_of_lt_of_le known grows.1, pinned⟩, opened, reads step⟩
  | write next admitted =>
    have step := next_cases next
    have grows : outside.Grows outside' := next_outside step
    refine ⟨⟨Nat.lt_of_lt_of_le known grows.1, pinned⟩, ?_, reads step⟩
    intro workspace member
    rcases List.mem_append.mp member with old | new
    · exact opened workspace old
    · have made := List.mem_singleton.mp new
      rcases next_write sound.inserted step with ⟨_, _, _, _, rfl, _⟩ | ⟨_, _, _, rfl, _⟩ | ⟨other, _⟩
      · cases made
        exact Nat.ne_of_gt known
      · cases made
      · subst made
        exact absurd other not_false
  | refused next refused =>
      exact ⟨⟨known, pinned⟩, nothing, fun held holds => holding held (dropped_held holds)⟩
  | commit next =>
    have step := next_cases next
    obtain ⟨batch, sent, rfl, _, rfl, rfl, rfl, change⟩ := commit_change sound step
    exact ⟨⟨known, pinned.commits change sound.writes settled.draft opened⟩, nothing, reads step⟩
  | fail next => exact ⟨⟨known, pinned⟩, nothing, reads (next_cases next)⟩
  | abort => exact ⟨⟨known, pinned⟩, nothing, fun held holds => holding held (dropped_held holds)⟩

end Pinned

theorem pinned_stable (rt : Runtime) (id : Nat) (pointer : Option Nat) :
    Stable (resumeSystem rt) approvalGuard (historyAssertion.and approvalAssertion)
      (pinnedAssertion id pointer) where
  start {db outside request phase outside'} _ pinned started := by
    cases started
    have nothing : (begin request).held? = none := by cases request <;> rfl
    refine ⟨pinned, fun _ member => (nomatch member), ?_⟩
    intro held same
    exact absurd (nothing.symm.trans same) (fun same => nomatch same)
  startOther _ _ own started := by
    cases started
    exact ⟨own, trivial, trivial⟩
  own known session pinned own _ moves := pinned_own known.1 session.1 session.2 pinned own moves
  other _ _ _ _ _ _ _ own _ _ _ _ _ := ⟨own, trivial, trivial⟩

theorem approval_holds {rt : Runtime} {s : State Database Outside Phase Write}
    (reached : Runs (resumeSystem rt) approvalGuard initialState s) :
    (resumeSystem rt).Separate s ∧ (historyAssertion.and approvalAssertion).Holds s := by
  obtain ⟨separate, holds⟩ := holds_idle_runs conflicts_symm (approval_stable rt) (fun t run =>
    (history_holds run.free).2)
    rfl (by intro _ member; cases member) reached
  exact ⟨separate, (history_holds reached.free).2.and holds⟩

theorem pinned_holds {rt : Runtime} {s : State Database Outside Phase Write}
    (reached : Runs (resumeSystem rt) approvalGuard initialState s) {workspace : ResumeWorkspace}
    (member : workspace ∈ s.db.workspaces) (approved : workspace.status = .approved) :
    (pinnedAssertion workspace.id workspace.currentRevisionId).Holds s := by
  obtain ⟨_, holds⟩ := approval_holds reached
  have found := workspace?_of_mem holds.common.1.uniqueWorkspaces member
  refine ⟨⟨holds.common.1.workspaceIds workspace member, ?_⟩, ?_, fun _ _ _ _ _ _ _ => trivial⟩
  · intro row same
    cases found.symm.trans same
    exact ⟨approved, rfl⟩
  · intro i session here
    obtain ⟨sound, settled⟩ := holds.own i session here
    refine ⟨?_, ?_⟩
    · intro other opens same
      have absent := (sound.writes _ opens).2
      rw [same, found] at absent
      cases absent
    · intro held holds same status
      rw [← same] at found
      exact ((settled.held held holds status) workspace found).2.symm

/-- While approvals and inserts of revisions do not cross, an approved workspace keeps its revision, every
    later export and application uses that one, and so does every application row. -/
theorem approved_immutable {rt : Runtime} {s s' : State Database Outside Phase Write}
    (reached : Runs (resumeSystem rt) approvalGuard initialState s) {workspace : ResumeWorkspace}
    (member : workspace ∈ s.db.workspaces) (approved : workspace.status = .approved)
    (run : Runs (resumeSystem rt) approvalGuard s s') :
    (∀ row, s'.db.workspace? workspace.id = some row → row.status = .approved ∧ row.currentRevisionId =
      workspace.currentRevisionId) ∧
      (∀ session ∈ s'.sessions, ∀ held source, session.phase.published? = some (held, source) →
        held.id = workspace.id →
        workspace.currentRevisionId = some source.id) ∧
      ∀ application ∈ s'.db.applications, application.resumeWorkspaceId = some workspace.id →
        s'.db.workspace? workspace.id ≠ none → application.resumeRevisionId =
          workspace.currentRevisionId := by
  obtain ⟨separate, _⟩ := approval_holds reached
  obtain ⟨_, later⟩ := holds_runs conflicts_symm (pinned_stable rt workspace.id workspace.currentRevisionId)
    (fun t more => (approval_holds (reached.trans more)).2) separate
      (pinned_holds reached member approved) run
  obtain ⟨_, holds⟩ := approval_holds (reached.trans run)
  refine ⟨later.common.2, ?_, ?_⟩
  · intro session inside held source published same
    obtain ⟨i, here⟩ := List.mem_iff_getElem?.mp inside
    obtain ⟨holding, status, pointer⟩ :=
      (holds.own i session here).2.publishes.published held source published
    rw [← (later.own i session here).2 held holding same status, pointer]
  · intro application inside named present
    obtain ⟨row, found⟩ := Option.ne_none_iff_exists'.mp present
    rw [← ((holds.common.2 application inside workspace.id named).2 row found).2]
    exact (later.common.2 row found).2

def approving : Action Input Request := .start (.owned 7 1 .approveWorkspace)

def applying : Action Input Request :=
  .start (.owned 7 1 (.createApplication ⟨"Acme".toList, none, 739000, none, .applied⟩))

theorem approved_immutable_application :
    ∃ s s', Runs (resumeSystem plainRuntime) approvalGuard initialState s ∧
    Runs (resumeSystem plainRuntime) approvalGuard s s' ∧ s'.db.applications ≠ [] ∧
    ∀ application ∈ s'.db.applications, application.resumeWorkspaceId = some 1 → s'.db.workspace? 1 ≠ none →
      application.resumeRevisionId = some 1 := by
  let approved : ResumeWorkspace := ⟨1, 7, "classic_single_column".toList, .approved, some 1⟩
  let later := applying :: stepping 2 7
  have ran : ((resumeSystem plainRuntime).perform approvalGuard initialState
    (creating ++ approving :: stepping 1 3)).any
      (fun s => s.db.workspaces = [approved] ∧
        (((resumeSystem plainRuntime).perform approvalGuard s later).any
        fun s' => s'.db.applications ≠ []) = true) = true := by decide +kernel
  obtain ⟨s, reached, check⟩ := runs_of_performed ran
  obtain ⟨rows, applied⟩ := of_decide_eq_true check
  obtain ⟨s', run, given⟩ := runs_of_performed applied
  have member : approved ∈ s.db.workspaces := by rw [rows]; exact List.mem_cons_self
  exact ⟨s, s', reached, run, of_decide_eq_true given, (approved_immutable reached member rfl run).2.2⟩

/-- A save that passed its check before the approval replaces the approved revision after it. -/
theorem approval_crossed : ∃ s s' workspace row, Reachable plainRuntime s ∧ workspace ∈ s.db.workspaces ∧
    workspace.status = .approved ∧ Runs (resumeSystem plainRuntime) Guard.free s s' ∧
    s'.db.workspace? workspace.id = some row ∧ row.currentRevisionId ≠ workspace.currentRevisionId := by
  let approved : ResumeWorkspace := ⟨1, 7, "classic_single_column".toList, .approved, some 1⟩
  let actions := creating ++ saving (some 1) :: stepping 1 1 ++ approving :: stepping 2 3
  have ran : ((resumeSystem plainRuntime).perform Guard.free initialState actions).any
      (fun s => s.db.workspaces = [approved] ∧
        (((resumeSystem plainRuntime).perform Guard.free s (stepping 1 4)).any
        fun s' => s'.db.workspace? 1 = some { approved with currentRevisionId := some 2 }) = true) =
            true := by
    with_unfolding_all decide
  obtain ⟨s, reached, check⟩ := runs_of_performed ran
  obtain ⟨rows, saved⟩ := of_decide_eq_true check
  obtain ⟨s', run, found⟩ := runs_of_performed saved
  refine ⟨s, s', approved, _, reached, ?_, rfl, run, of_decide_eq_true found, by decide⟩
  rw [rows]
  exact List.mem_cons_self

end ManifestCV.Workspace
