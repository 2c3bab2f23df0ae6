import ManifestCV.Workspace.Approval
import ManifestCV.Workspace.Facts
import ManifestCV.Workspace.Queries

namespace ManifestCV.Workspace

open Foundation Foundation.Transactions Document Render

def keepsApplication (id : Nat) : Guard Database Outside Phase Input where
  alone _ _ phase _ :=
    match phase with
    | .flush (.removed row) _ => row.id ≠ id
    | _ => true
  beside _ _ _ := true

def presentAssertion (id : Nat) : Assertion Database Outside Phase Write where
  common db _ := ∃ row ∈ db.applications, row.id = id
  own _ _ _ _ := True
  pair _ _ _ _ := True

theorem replay_present {db : Database} {writes : List Write} {id : Nat}
    (keeps : .deleteApplication id ∉ writes) (present : ∃ row ∈ db.applications, row.id = id) :
    ∃ row ∈ (replay db writes).applications, row.id = id := by
  induction writes generalizing db with
  | nil => exact present
  | cons w writes ih =>
    refine ih (fun member => keeps (List.mem_cons_of_mem _ member)) ?_
    obtain ⟨row, member, named⟩ := present
    cases w with
    | insertApplication new => exact ⟨row, List.mem_append_left _ member, named⟩
    | deleteWorkspace workspaceId => exact ⟨_, List.mem_map_of_mem member, named⟩
    | updateApplication applicationId changes =>
      refine ⟨_, List.mem_map_of_mem member, ?_⟩
      split
      · obtain ⟨fields, same⟩ := setattr_kept row changes
        rw [same]
        exact named
      · exact named
    | deleteApplication applicationId =>
      have apart : applicationId ≠ id := fun same => keeps (same ▸ List.mem_cons_self)
      exact ⟨row, List.mem_filter.mpr ⟨member, decide_eq_true (by rw [named]; exact Ne.symm apart)⟩, named⟩
    | _ => exact ⟨row, member, named⟩

theorem present_stable (rt : Runtime) (id : Nat) :
    Stable (resumeSystem rt) (keepsApplication id) historyAssertion (presentAssertion id) where
  start _ present _ := ⟨present, trivial⟩
  startOther _ _ _ _ := ⟨trivial, trivial, trivial⟩
  own _ history present _ allowed moves := by
    refine ⟨?_, trivial⟩
    cases moves with
    | commit next =>
      obtain ⟨batch, sent, rfl, _, rfl, rfl, rfl, _⟩ := commit_change history (next_cases next)
      refine replay_present (fun member => ?_) present
      generalize written : Write.deleteApplication id = w at member
      cases Batch.mem_writes member <;> cases written
      exact absurd rfl (of_decide_eq_true (allowed _ rfl))
    | _ => exact present
  other _ _ _ _ _ _ _ _ _ _ _ _ _ := ⟨trivial, trivial, trivial⟩

/-- Whatever else happens, an application keeps its copies, and a download gives those bytes or an error. -/
theorem snapshots_immutable {rt : Runtime} {s s' s'' : State Database Outside Phase Write}
    (reachable : Reachable rt s) {row : ApplicationRecord} (member : row ∈ s.db.applications)
    (run : Runs (resumeSystem rt) (keepsApplication row.id) s s')
    (reading : Runs (resumeSystem rt) Guard.free s' s'') :
    (∃ row' ∈ s'.db.applications, row'.id = row.id) ∧
    (∀ row' ∈ s'.db.applications, row'.id = row.id →
      row'.userId = row.userId ∧ row'.toApplicationSnapshot = row.toApplicationSnapshot) ∧
    ∀ userId input answer, downloadMyApplicationPdf s'.db userId row.id s''.outside.storage input =
      .ok answer →
      answer.content = row.pdfSnapshot := by
  have fact : ∀ {t : State Database Outside Phase Write} {application : ApplicationRecord},
    application ∈ t.db.applications →
      ∀ f ∈ application.facts, (resumeFacts rt).common t.db t.outside f := fun listed f here =>
    .inl (Database.mem_facts.mpr (.inr (.inr (.inr (.inr ⟨_, listed, here⟩)))))
  have kept : ∀ row' ∈ s'.db.applications, row'.id = row.id →
      row'.userId = row.userId ∧ row'.toApplicationSnapshot = row.toApplicationSnapshot := by
    intro row' listed named
    have agree := fact_remembered reachable run (fact member _ List.mem_cons_self)
      (fact listed _ List.mem_cons_self)
    exact agree.1 named
  refine ⟨?_, kept, ?_⟩
  · exact (holds_runs conflicts_symm (present_stable rt row.id)
      (fun t reached => (history_holds (reachable.trans reached.free)).2) (history_holds reachable).1
      ⟨⟨row, member, rfl⟩, fun _ _ _ => trivial, fun _ _ _ _ _ _ _ => trivial⟩ run).2.common
  · intro userId input answer downloaded
    have stored : Fact.stored row.pdfStorageKeySnapshot row.pdfSnapshot ∈ row.facts :=
      List.mem_cons_of_mem _ List.mem_cons_self
    simp only [downloadMyApplicationPdf, getMyApplication] at downloaded
    cases found : s'.db.application? row.id userId with
    | none =>
      rw [found] at downloaded
      cases downloaded
    | some row' =>
      have matched := List.find?_some found
      simp only [decide_eq_true_eq] at matched
      obtain ⟨_, same⟩ := kept row' (List.mem_of_find?_eq_some found) matched.1
      have key : row'.pdfStorageKeySnapshot = row.pdfStorageKeySnapshot :=
        congrArg (·.pdfStorageKeySnapshot) same
      have pdf : row'.pdfSnapshot = row.pdfSnapshot := congrArg (·.pdfSnapshot) same
      simp only [found, orElse, bind, Except.bind] at downloaded
      split at downloaded
      · cases verified : getVerifiedBytes s''.outside.storage row'.pdfStorageKeySnapshot
          row'.pdfSha256Snapshot input with
        | none =>
          rw [verified] at downloaded
          cases downloaded
        | some bytes =>
          rw [verified] at downloaded
          cases downloaded
          obtain ⟨entry, _⟩ := getVerifiedBytes_some verified
          have there : (resumeFacts rt).common s''.db s''.outside
              (.stored row'.pdfStorageKeySnapshot bytes) :=
            .inr ⟨_, lookup_entry entry, rfl⟩
          exact (fact_remembered reachable (run.free.trans reading) (fact member _ stored) there).1 key
      · cases downloaded
        exact pdf

def outliving : List (Action Input Request) :=
  .start (.application 7 1 (.updateMyApplication ⟨none, none, none, some (some .offered)⟩)) :: stepping 3 3 ++
    .start (.owned 7 1 .deleteWorkspace) :: stepping 4 4

theorem snapshots_immutable_offered : ∃ s s' row, Reachable plainRuntime s ∧ row ∈ s.db.applications ∧
    Runs (resumeSystem plainRuntime) (keepsApplication row.id) s s' ∧
    s'.db.applications.map (fun row' => (row'.status, row'.resumeWorkspaceId)) = [(.offered, none)] ∧
    (∀ row' ∈ s'.db.applications, row'.id = row.id → row'.toApplicationSnapshot = row.toApplicationSnapshot) ∧
    ∃ answer, downloadMyApplicationPdf s'.db 7 row.id s'.outside.storage .answer = .ok answer ∧
        answer.content = row.pdfSnapshot := by
  have ran : ((resumeSystem plainRuntime).perform Guard.free initialState
      (creating ++ approving :: stepping 1 3 ++ applying :: stepping 2 7)).any (fun s =>
        s.db.applications.map (·.id) = [1] ∧
        (((resumeSystem plainRuntime).perform (keepsApplication 1) s outliving).any fun s' =>
          s'.db.applications.map (fun row' => (row'.status, row'.resumeWorkspaceId)) = [(.offered, none)] ∧
            (downloadMyApplicationPdf s'.db 7 1 s'.outside.storage .answer).isOk) = true) = true := by
    decide +kernel
  obtain ⟨s, reachable, check⟩ := runs_of_performed ran
  obtain ⟨ids, later⟩ := of_decide_eq_true check
  obtain ⟨s', run, check'⟩ := runs_of_performed later
  obtain ⟨tracked, downloads⟩ := of_decide_eq_true check'
  obtain ⟨row, rows, named⟩ := List.map_eq_singleton_iff.mp ids
  have member : row ∈ s.db.applications := by rw [rows]; exact List.mem_cons_self
  rw [← named] at run downloads
  obtain ⟨_, kept, precise⟩ := snapshots_immutable reachable member run .refl
  refine ⟨s, s', row, reachable, member, run, tracked, fun row' listed same => (kept row' listed same).2, ?_⟩
  cases downloaded : downloadMyApplicationPdf s'.db 7 row.id s'.outside.storage .answer with
  | ok answer => exact ⟨answer, rfl, precise 7 .answer answer downloaded⟩
  | error refusal =>
    rw [downloaded] at downloads
    cases downloads

end ManifestCV.Workspace
