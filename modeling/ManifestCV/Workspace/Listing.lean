import ManifestCV.Foundation.Paging
import ManifestCV.Workspace.Tables
import Mathlib.Data.Prod.Lex

namespace ManifestCV.Workspace

open Foundation Foundation.Paging

structure ListedWorkspace extends ResumeWorkspace where
  updatedAt : Nat
  deriving DecidableEq

structure ListedApplication extends ApplicationRecord where
  createdAt : Nat
  deriving DecidableEq

def workspacesOf (table : List ListedWorkspace) (userId : Nat) : List ListedWorkspace :=
  table.filter (·.userId = userId)

def applicationsOf (table : List ListedApplication) (userId : Nat) : List ListedApplication :=
  table.filter (·.userId = userId)

/-- `order_by(ResumeWorkspace.updated_at.desc())`. -/
def workspaceKey (row : ListedWorkspace) : Nat := row.updatedAt

/-- `order_by(application_date.desc(), created_at.desc(), id.desc())`. -/
def applicationKey (row : ListedApplication) : Nat ×ₗ Nat ×ₗ Nat :=
  toLex (row.applicationDate, toLex (row.createdAt, row.id))

theorem applicationKey_id {first second : ListedApplication}
    (same : applicationKey first = applicationKey second) :
    first.id = second.id := by
  have inner := congrArg (fun key => (ofLex (ofLex key).2).2) same
  exact inner

/-- A user's applications are listed once by any paging; the workspaces just where no boundary between two
    pages falls between two of them that were updated at the same time. -/
theorem paging_lists_once_iff {workspaces : List ListedWorkspace} {applications : List ListedApplication}
    (userId : Nat) (workspaceIds : (workspaces.map (·.id)).Nodup)
    (applicationIds : (applications.map (·.id)).Nodup) {limit : Nat} (positive : 1 ≤ limit) :
    (ListsOnce workspaceKey (workspacesOf workspaces userId) limit ↔
      ∀ i, ∀ row ∈ workspacesOf workspaces userId, ¬ Splits (·.updatedAt) (workspacesOf workspaces userId)
        (i * limit) row.updatedAt) ∧
    ListsOnce applicationKey (applicationsOf applications userId) limit := by
  constructor
  · exact listsOnce_iff positive ((List.Nodup.of_map _ workspaceIds).filter _)
  · apply listsOnce_of_injective positive ((List.Nodup.of_map _ applicationIds).filter _)
    intro first firstMember second secondMember same
    have stored := fun row (member : row ∈ applicationsOf applications userId) =>
      (List.mem_filter.mp member).1
    exact List.inj_on_of_nodup_map applicationIds (stored first firstMember) (stored second secondMember)
      (applicationKey_id same)

def untitled (id updatedAt : Nat) : ListedWorkspace :=
  ⟨⟨id, 7, "classic_single_column".toList, .draft, none⟩, updatedAt⟩

/-- Three workspaces of which two were updated at one time, on pages of two. -/
theorem paging_lists_once_iff_pair :
    ListsOnce workspaceKey (workspacesOf [untitled 1 5, untitled 2 5, untitled 3 4] 7) 2 := by
  have nothing : ((List.nil : List ListedApplication).map (·.id)).Nodup := List.nodup_nil
  have listed : ∀ i, ∀ row ∈ [untitled 1 5, untitled 2 5, untitled 3 4],
      ¬ Splits (·.updatedAt) [untitled 1 5, untitled 2 5, untitled 3 4] (i * 2) row.updatedAt := by
    intro i row member split
    obtain ⟨low, high⟩ := split
    simp only [List.mem_cons, List.not_mem_nil, or_false] at member
    rcases member with rfl | rfl | rfl <;> simp [untitled] at low high <;> omega
  exact (paging_lists_once_iff 7 (by decide) nothing (by decide)).1.mpr listed

/-- Two workspaces updated at one time, on pages of one: the second query may put the first one last. -/
theorem tied_workspaces_repeat : ¬ ∀ workspaces : List ListedWorkspace, (workspaces.map (·.id)).Nodup →
    ∀ userId, ∀ limit ≥ 1,
    ListsOnce workspaceKey (workspacesOf workspaces userId) limit := by
  intro claim
  have once := claim [untitled 1 5, untitled 2 5] (by decide) 7 1 (by decide)
  have either : ∀ i, Arranges workspaceKey (workspacesOf [untitled 1 5, untitled 2 5] 7)
      (switching 1 [untitled 1 5, untitled 2 5] [untitled 2 5, untitled 1 5] i) := by
    intro i
    unfold switching
    split
    · exact ⟨List.Perm.refl _, by simp [untitled, workspaceKey]⟩
    · exact ⟨List.Perm.swap _ _ _, by simp [untitled, workspaceKey]⟩
  obtain ⟨all, fetched, perm⟩ := once _ either 3 (by decide)
  have twice : all = [untitled 1 5, untitled 1 5] := (Option.some_inj.mp fetched).symm
  rw [twice] at perm
  exact absurd perm (by decide)

end ManifestCV.Workspace
