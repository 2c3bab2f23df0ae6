import ManifestCV.Document.Plain
import ManifestCV.Workspace.Invariant

namespace ManifestCV.Workspace

open Foundation Foundation.Transactions Document

def keptAssertion (row : ResumeRevision) : Assertion Database Outside Phase Write where
  common db outside := row.workspaceId < outside.nextWorkspaceId ∧
    (db.workspace? row.workspaceId ≠ none → row ∈ db.revisions)
  own _ _ _ pending := ∀ workspace, .insertWorkspace workspace ∈ pending → workspace.id ≠ row.workspaceId
  pair _ _ _ _ := True

theorem kept_own {rt : Runtime} {row : ResumeRevision} {db db' : Database} {outside outside' : Outside}
    {phase phase' : Phase} {pending pending' : List Write} {label : Option Input}
    (sound : Sound db outside phase pending) (kept : (keptAssertion row).common db outside)
    (apart : (keptAssertion row).own db outside phase pending)
    (moves : (resumeSystem rt).Moves db outside phase pending label db' outside' phase' pending') :
    (keptAssertion row).common db' outside' ∧ (keptAssertion row).own db' outside' phase' pending' := by
  obtain ⟨known, kept⟩ := kept
  have nothing : ∀ workspace, Write.insertWorkspace workspace ∈ [] → workspace.id ≠ row.workspaceId :=
    fun _ member => nomatch member
  cases moves with
  | read next =>
    have grows : outside.Grows outside' := next_outside (next_cases next)
    exact ⟨⟨Nat.lt_of_lt_of_le known grows.1, kept⟩, apart⟩
  | write next admitted =>
    have step := next_cases next
    have grows : outside.Grows outside' := next_outside step
    refine ⟨⟨Nat.lt_of_lt_of_le known grows.1, kept⟩, ?_⟩
    intro workspace member
    rcases List.mem_append.mp member with old | new
    · exact apart workspace old
    · have made := List.mem_singleton.mp new
      rcases next_write sound.inserted step with ⟨_, _, _, _, rfl, _⟩ | ⟨_, _, _, rfl, _⟩ | ⟨other, _⟩
      · cases made
        exact Nat.ne_of_gt known
      · cases made
      · subst made
        exact absurd other not_false
  | refused next refused => exact ⟨⟨known, kept⟩, nothing⟩
  | commit next =>
    obtain ⟨batch, sent, rfl, _, rfl, rfl, rfl, change⟩ := commit_change sound (next_cases next)
    have fresh := opens_fresh sound.writes
    refine ⟨⟨known, ?_⟩, nothing⟩
    intro present
    have old : ∀ workspace revisionId text, batch = .revision (.create workspace) revisionId text →
        workspace.id ≠ row.workspaceId := by
      rintro workspace revisionId text rfl
      exact apart workspace (inserts_workspace workspace revisionId text)
    obtain ⟨before, _, keeps⟩ := change.kept old fresh present
    exact keeps row (kept before) rfl
  | fail next => exact ⟨⟨known, kept⟩, nothing⟩
  | abort => exact ⟨⟨known, kept⟩, nothing⟩

theorem kept_stable (rt : Runtime) (row : ResumeRevision) :
    Stable (resumeSystem rt) Guard.free historyAssertion (keptAssertion row) where
  start _ kept started := by
    cases started
    exact ⟨kept, fun _ member => (nomatch member)⟩
  startOther _ _ apart started := by
    cases started
    exact ⟨apart, trivial, trivial⟩
  own _ sound kept apart _ moves := kept_own sound kept apart moves
  other _ _ _ _ _ _ _ apart _ _ _ _ _ := ⟨apart, trivial, trivial⟩

theorem kept_holds {rt : Runtime} {s : State Database Outside Phase Write} (reachable : Reachable rt s)
    {row : ResumeRevision} (member : row ∈ s.db.revisions) : (keptAssertion row).Holds s := by
  obtain ⟨_, holds⟩ := history_holds reachable
  have present := holds.common.owned row member
  obtain ⟨workspace, found⟩ := Option.ne_none_iff_exists'.mp present
  obtain ⟨inside, named⟩ := workspace?_some found
  refine ⟨⟨?_, fun _ => member⟩, ?_, fun _ _ _ _ _ _ _ => trivial⟩
  · rw [← named]
    exact holds.common.workspaceIds workspace inside
  · intro i session here other pending same
    have absent := ((holds.own i session here).writes _ pending).2
    exact present (same ▸ absent)

theorem revision_kept {rt : Runtime} {s s' : State Database Outside Phase Write} (reachable : Reachable rt s)
    {row : ResumeRevision} (member : row ∈ s.db.revisions) (run : Runs (resumeSystem rt) Guard.free s s')
    (present : s'.db.workspace? row.workspaceId ≠ none) : row ∈ s'.db.revisions := by
  have separate := (history_holds reachable).1
  have later := holds_runs conflicts_symm (kept_stable rt row) (fun t more =>
    (history_holds (reachable.trans more)).2)
    separate (kept_holds reachable member) run
  exact later.2.common.2 present

/-- Revision history is linear: numbers run from 1 without gap or repetition, the workspace points to the last
    revision, hashes are right, and no committed revision changes while its workspace exists. -/
theorem revision_history_linear {rt : Runtime} {s : State Database Outside Phase Write}
    (reachable : Reachable rt s) :
    (∀ workspace ∈ s.db.workspaces, Linear workspace (s.db.history workspace.id)) ∧
      (∀ row ∈ s.db.revisions, row.contentHash = sha256 (encode row.documentJson)) ∧
      ∀ row ∈ s.db.revisions, ∀ s', Runs (resumeSystem rt) Guard.free s s' →
        s'.db.workspace? row.workspaceId ≠ none → s'.db.revision? row.id = some row := by
  obtain ⟨_, holds⟩ := history_holds reachable
  refine ⟨?_, holds.common.hashed, ?_⟩
  · intro workspace member
    exact holds.common.linear _ _ (workspace?_of_mem holds.common.uniqueWorkspaces member)
  · intro row member s' run present
    have consistent := (history_holds (reachable.trans run)).2.common
    exact revision?_of_mem consistent.uniqueRevisions (revision_kept reachable member run present)

def onePage : Payload := ⟨modelDump (onePager "Engineer".toList), modelDump_wellKeyed (onePager_wellKeyed _)⟩

def stepping (i n : Nat) : List (Action Input Request) := List.replicate n (.run i .answer)

def creating : List (Action Input Request) :=
  .start (.createWorkspace 7 "classic_single_column".toList) :: stepping 0 4

def saving (expectedRevisionId : Option Nat) : Action Input Request :=
  .start (.owned 7 1 (.saveDocument onePage expectedRevisionId .manualEdit))

/-- Two saves of revision 1 that overlap: the second is refused by the unique constraint. -/
theorem revision_history_linear_overlap :
    ∃ s, Reachable plainRuntime s ∧ s.db.revisions.map (·.revisionNumber) = [1, 2] ∧
    ∀ workspace ∈ s.db.workspaces, Linear workspace (s.db.history workspace.id) := by
  let actions := creating ++ [saving (some 1), saving (some 1)] ++ stepping 1 2 ++ stepping 2 2 ++
    stepping 1 3 ++ stepping 2 1
  have ran : ((resumeSystem plainRuntime).perform Guard.free initialState actions).any
      (fun s => s.db.revisions.map (·.revisionNumber) = [1, 2]) = true := by with_unfolding_all decide
  obtain ⟨s, reachable, numbers⟩ := runs_of_performed ran
  exact ⟨s, reachable, of_decide_eq_true numbers, (revision_history_linear reachable).1⟩

end ManifestCV.Workspace
