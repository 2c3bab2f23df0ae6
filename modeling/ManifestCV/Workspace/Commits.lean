import ManifestCV.Workspace.Sessions

namespace ManifestCV.Workspace

open Foundation Foundation.Transactions

def replay (db : Database) (writes : List Write) : Database := writes.foldl applyWrite db

def Write.quiet : Write → Bool
  | .insertJob _ | .insertArtifact _ _ | .insertApplication _ | .updateJob _ _ _ | .updateApplication _
      _ | .deleteApplication _ => true
  | _ => false

def Batch.quiet : Batch → Bool
  | .revision _ _ _ | .delete _ => false
  | .approve held => held.status = .approved
  | _ => true

inductive Commits (db : Database) : Batch → Database → Prop
  | opened {workspace revisionId text db'}
      (workspaces : db'.workspaces =
        db.workspaces ++ [{ workspace with currentRevisionId := some revisionId }])
      (revisions : db'.revisions = db.revisions ++ [revisionRow (.create workspace) revisionId text]) :
      Commits db (.revision (.create workspace) revisionId text) db'
  | appended {writer revisionId text db'} (existing : writer.before = [])
      (workspaces : db'.workspaces = (db.setWorkspace writer.workspaceId fun row =>
        { row with currentRevisionId := some revisionId }).workspaces)
      (revisions : db'.revisions = db.revisions ++ [revisionRow writer revisionId text]) :
      Commits db (.revision writer revisionId text) db'
  | approved {held db'} (draft : held.status = .draft)
      (workspaces : db'.workspaces = (db.setWorkspace held.id fun row =>
        { row with status := .approved }).workspaces)
      (revisions : db'.revisions = db.revisions) : Commits db (.approve held) db'
  | deleted {held db'} (workspaces : db'.workspaces = db.workspaces.filter (·.id ≠ held.id))
      (revisions : db'.revisions = db.revisions.filter (·.workspaceId ≠ held.id)) : Commits db
        (.delete held) db'
  | quiet {batch db'} (quiet : batch.quiet = true) (workspaces : db'.workspaces = db.workspaces)
      (revisions : db'.revisions = db.revisions) : Commits db batch db'

theorem replay_quiet (db : Database) {writes : List Write} (quiet : ∀ w ∈ writes, w.quiet = true) :
    (replay db writes).workspaces = db.workspaces ∧ (replay db writes).revisions = db.revisions := by
  induction writes generalizing db with
  | nil => exact ⟨rfl, rfl⟩
  | cons w writes ih =>
    obtain ⟨workspaces, revisions⟩ := ih (applyWrite db w) fun other member =>
      quiet other (List.mem_cons_of_mem _ member)
    have first := quiet w List.mem_cons_self
    have same : (applyWrite db w).workspaces = db.workspaces ∧ (applyWrite db w).revisions =
        db.revisions := by
      cases w <;> first | exact ⟨rfl, rfl⟩ | cases first
    exact ⟨workspaces.trans same.1, revisions.trans same.2⟩

theorem batch_quiet {batch : Batch} (quiet : batch.quiet = true) : ∀ w ∈ batch.writes, w.quiet = true := by
  intro w member
  cases Batch.mem_writes member with
  | approves draft => exact absurd (of_decide_eq_true quiet) draft
  | _ => first | rfl | cases quiet

theorem reports_quiet {writer : Writer} {revisionId : Nat} :
    ∀ w ∈ writer.reports revisionId, w.quiet = true := by
  intro w member
  cases writer with
  | worker job held source =>
    rw [List.mem_singleton.mp member]
    rfl
  | create workspace => cases member
  | save held caller payload number => cases member

theorem replay_append (db : Database) (first second : List Write) :
    replay db (first ++ second) = replay (replay db first) second := List.foldl_append

def ApplicationRecord.sameSource (row other : ApplicationRecord) : Prop :=
  row.resumeWorkspaceId = other.resumeWorkspaceId ∧ row.resumeRevisionId = other.resumeRevisionId

theorem replay_applications {db : Database} {row : ApplicationRecord} {writes : List Write}
    (keeps : ∀ id, .deleteWorkspace id ∉ writes) (member : row ∈ (replay db writes).applications) :
    ∃ source, row.sameSource source ∧ (source ∈ db.applications ∨ .insertApplication source ∈ writes) := by
  induction writes generalizing db with
  | nil => exact ⟨row, ⟨rfl, rfl⟩, .inl member⟩
  | cons w writes ih =>
    obtain ⟨source, same, origin⟩ := ih (fun id inside => keeps id (List.mem_cons_of_mem _ inside)) member
    rcases origin with first | later
    · cases w with
      | insertApplication new =>
        rcases List.mem_append.mp first with old | added
        · exact ⟨source, same, .inl old⟩
        · rw [List.mem_singleton.mp added] at same
          exact ⟨new, same, .inr List.mem_cons_self⟩
      | deleteWorkspace id => exact absurd List.mem_cons_self (keeps id)
      | updateApplication applicationId changes =>
        obtain ⟨old, stored, rfl⟩ := List.mem_map.mp first
        refine ⟨old, ?_, .inl stored⟩
        split at same
        · obtain ⟨fields, updated⟩ := setattr_kept old changes
          rw [updated] at same
          exact same
        · exact same
      | deleteApplication applicationId => exact ⟨source, same, .inl (List.mem_filter.mp first).1⟩
      | _ => exact ⟨source, same, .inl first⟩
    · exact ⟨source, same, .inr (List.mem_cons_of_mem _ later)⟩

theorem replay_commits {db : Database} (batch : Batch)
    (fresh : ∀ workspace revisionId text, batch = .revision (.create workspace) revisionId text →
      ∀ row ∈ db.workspaces, row.id ≠ workspace.id) : Commits db batch (replay db batch.writes) := by
  by_cases quiet : batch.quiet = true
  · obtain ⟨workspaces, revisions⟩ := replay_quiet db (batch_quiet quiet)
    exact .quiet quiet workspaces revisions
  cases batch with
  | revision writer revisionId text =>
    rw [Batch.writes, replay_append]
    have reports : ∀ w ∈ writer.reports revisionId, w.quiet = true := reports_quiet
    obtain ⟨workspaces, revisions⟩ := replay_quiet (replay db (writer.before ++
      [.insertRevision (revisionRow writer revisionId text),
        .setCurrentRevision writer.workspaceId revisionId])) reports
    cases writer with
    | create workspace =>
      refine .opened (workspaces.trans ?_) revisions
      have unchanged : (db.workspaces.map fun row => if row.id = workspace.id then
          { row with currentRevisionId := some revisionId } else row) = db.workspaces := by
        rw [List.map_congr_left fun row member => if_neg (fresh workspace revisionId text rfl row member),
          List.map_id']
      simp [replay, Writer.before, Writer.workspaceId, applyWrite, Database.setWorkspace, unchanged]
    | save held caller payload number => exact .appended rfl workspaces revisions
    | worker job held source => exact .appended rfl workspaces revisions
  | delete held => exact .deleted rfl rfl
  | approve held =>
    have draft : held.status ≠ .approved := fun status => quiet (decide_eq_true status)
    have writes : (Batch.approve held).writes = [.setStatus held.id .approved] :=
      by rw [Batch.writes, if_neg draft]
    rw [writes]
    exact .approved (draft_of_not_approved draft) rfl rfl
  | _ => exact absurd rfl quiet

section Lookups

variable {db db' : Database}

theorem workspace?_append {row : ResumeWorkspace} (workspaces : db'.workspaces = db.workspaces ++ [row])
    (fresh : ∀ other ∈ db.workspaces, other.id ≠ row.id) (id : Nat) :
    db'.workspace? id = if id = row.id then some row else db.workspace? id := by
  unfold Database.workspace?
  rw [workspaces, List.find?_append]
  split
  · rename_i same
    have missing : db.workspaces.find? (·.id = id) = none := by
      simpa [same] using fresh
    rw [missing]
    simp [same]
  · rename_i apart
    simp [Ne.symm apart]

theorem workspace?_set {target : Nat} {set : ResumeWorkspace → ResumeWorkspace}
    (workspaces : db'.workspaces = (db.setWorkspace target set).workspaces)
    (keeps : ∀ row, (set row).id = row.id) (id : Nat) :
    db'.workspace? id = (db.workspace? id).map fun row => if row.id = target then set row else row := by
  unfold Database.workspace?
  rw [workspaces, Database.setWorkspace, List.find?_map]
  congr 2
  funext row
  simp only [Function.comp_apply]
  split
  · rw [keeps]
  · rfl

theorem workspace?_filter {target : Nat} (workspaces : db'.workspaces = db.workspaces.filter (·.id ≠ target))
    (id : Nat) :
    db'.workspace? id = if id = target then none else db.workspace? id := by
  unfold Database.workspace?
  rw [workspaces, List.find?_filter]
  split
  · rename_i same
    simp [same]
  · rename_i apart
    congr 1
    funext row
    by_cases here : row.id = id
    · simp [here, apart]
    · simp [here]

theorem history_append {row : ResumeRevision} (revisions : db'.revisions = db.revisions ++ [row]) (id : Nat) :
    db'.history id = if row.workspaceId = id then db.history id ++ [row] else db.history id := by
  unfold Database.history
  rw [revisions, List.filter_append]
  split
  · rename_i same
    simp [same]
  · rename_i apart
    simp [apart]

theorem history_filter {target : Nat}
    (revisions : db'.revisions = db.revisions.filter (·.workspaceId ≠ target)) (id : Nat) :
    db'.history id = if id = target then [] else db.history id := by
  unfold Database.history
  rw [revisions, List.filter_filter]
  split
  · rename_i same
    rw [List.filter_eq_nil_iff]
    simp [same]
  · rename_i apart
    apply List.filter_congr
    intro row _
    by_cases here : row.workspaceId = id
    · simp [here, apart]
    · simp [here]

theorem history_same (revisions : db'.revisions = db.revisions) (id : Nat) :
    db'.history id = db.history id := by
  rw [Database.history, revisions, Database.history]

theorem workspace?_same (workspaces : db'.workspaces = db.workspaces) (id : Nat) :
    db'.workspace? id = db.workspace? id := by
  rw [Database.workspace?, workspaces, Database.workspace?]

end Lookups

end ManifestCV.Workspace
