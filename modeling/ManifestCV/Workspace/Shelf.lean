import ManifestCV.Foundation.Serial
import ManifestCV.Workspace.History
import Mathlib.Logic.Function.Basic

namespace ManifestCV.Workspace

open Foundation Foundation.Transactions Document

/-- What a workspace is for: the texts saved in it, in the order in which they were saved. -/
structure Volume where
  owner : Nat
  template : Str
  status : WorkspaceStatus
  texts : List (ChangeKind × Str)

abbrev Shelf := Nat → Option Volume

inductive Operation where
  | opened (id : Nat) (volume : Volume)
  | saved (id : Nat) (kind : ChangeKind) (text : Str)
  | approved (id : Nat)
  | deleted (id : Nat)

def Operation.perform (shelf : Shelf) : Operation → Shelf
  | .opened id volume => Function.update shelf id (some volume)
  | .saved id kind text =>
    Function.update shelf id ((shelf id).map fun volume =>
      { volume with texts := volume.texts ++ [(kind, text)] })
  | .approved id => Function.update shelf id ((shelf id).map fun volume =>
      { volume with status := .approved })
  | .deleted id => Function.update shelf id none

def Database.shelf (db : Database) : Shelf := fun id =>
  (db.workspace? id).map fun row =>
    ⟨row.userId, row.templateKey, row.status, (db.history id).map fun revision =>
      (revision.changeKind, revision.documentJson)⟩

def Batch.operation? : Batch → Option Operation
  | .revision (.create workspace) _ text =>
    some (.opened workspace.id ⟨workspace.userId, workspace.templateKey, workspace.status,
      [(.generated, text)]⟩)
  | .revision writer _ text => some (.saved writer.workspaceId writer.changeKind text)
  | .approve held => if held.status = .approved then none else some (.approved held.id)
  | .delete held => some (.deleted held.id)
  | _ => none

def Phase.operation? : Phase → Option Operation
  | .finished (.committed batch) => batch.operation?
  | _ => none

theorem quiet_operation {batch : Batch} (quiet : batch.quiet = true) : batch.operation? = none := by
  cases batch with
  | revision writer revisionId text => cases quiet
  | delete held => cases quiet
  | approve held => exact if_pos (of_decide_eq_true quiet)
  | _ => rfl

theorem after_operation (batch : Batch) : batch.after.operation? = batch.operation? := by
  cases batch <;> rfl

theorem failed_operation (phase : Phase) : (failedPhase phase).operation? = phase.operation? := by
  cases phase <;> rfl

section Commit

variable {db db' : Database} {outside : Outside} {batch : Batch}

theorem shelf_apply (db : Database) (id : Nat) : db.shelf id = (db.workspace? id).map fun row =>
    ⟨row.userId, row.templateKey, row.status, (db.history id).map fun revision =>
      (revision.changeKind, revision.documentJson)⟩ := rfl

theorem Commits.shelf (change : Commits db batch db') (consistent : Consistent db outside)
    (fresh : ∀ workspace revisionId text, batch = .revision (.create workspace) revisionId text →
      db.workspace? workspace.id = none) :
    db'.shelf = batch.operation?.toList.foldl Operation.perform db.shelf := by
  cases change with
  | opened workspaces revisions =>
    rename_i workspace revisionId text
    have absent := fresh workspace revisionId text rfl
    funext id
    simp only [Batch.operation?, Option.toList_some, List.foldl_cons, List.foldl_nil, Operation.perform,
      shelf_apply, workspace?_append workspaces (workspace?_none.mp absent), history_append revisions]
    by_cases here : id = workspace.id
    · subst here
      rw [if_pos rfl, Function.update_self]
      simp [revisionRow, Writer.workspaceId, Writer.changeKind, consistent.no_history absent]
    · have away : ¬(revisionRow (.create workspace) revisionId text).workspaceId = id :=
        fun same => here same.symm
      rw [if_neg here, Function.update_of_ne here, if_neg away, shelf_apply]
  | appended existing workspaces revisions =>
    rename_i writer revisionId text
    have meant : (Batch.revision writer revisionId text).operation? =
        some (.saved writer.workspaceId writer.changeKind text) := by
      cases writer with
      | create workspace => cases existing
      | save held caller payload number => rfl
      | worker job held source => rfl
    funext id
    rw [meant]
    simp only [Option.toList_some, List.foldl_cons, List.foldl_nil, Operation.perform, shelf_apply,
      workspace?_set workspaces (fun _ => rfl), history_append revisions]
    by_cases here : id = writer.workspaceId
    · subst here
      rw [Function.update_self]
      cases found : db.workspace? writer.workspaceId with
      | none => simp
      | some row => simp [(workspace?_some found).2, revisionRow]
    · rw [Function.update_of_ne here, shelf_apply]
      cases found : db.workspace? id with
      | none => simp
      | some row => simp [(workspace?_some found).2, revisionRow, here, Ne.symm here]
  | approved draft workspaces revisions =>
    rename_i held
    funext id
    have meant : (Batch.approve held).operation? = some (.approved held.id) := if_neg (draft ▸ by decide)
    rw [meant]
    simp only [Option.toList_some, List.foldl_cons, List.foldl_nil, Operation.perform, shelf_apply,
      workspace?_set workspaces (fun _ => rfl), history_same revisions]
    by_cases here : id = held.id
    · subst here
      rw [Function.update_self]
      cases found : db.workspace? held.id with
      | none => simp
      | some row => simp [(workspace?_some found).2]
    · rw [Function.update_of_ne here, shelf_apply]
      cases found : db.workspace? id with
      | none => simp
      | some row => simp [(workspace?_some found).2, here]
  | deleted workspaces revisions =>
    rename_i held
    funext id
    simp only [Batch.operation?, Option.toList_some, List.foldl_cons, List.foldl_nil, Operation.perform,
      shelf_apply, workspace?_filter workspaces, history_filter revisions]
    by_cases here : id = held.id
    · subst here
      rw [Function.update_self, if_pos rfl, if_pos rfl]
      rfl
    · rw [Function.update_of_ne here, if_neg here, if_neg here, shelf_apply]
  | quiet quiet workspaces revisions =>
    rw [quiet_operation quiet]
    funext id
    show db'.shelf id = db.shelf id
    rw [Database.shelf, Database.shelf, workspace?_same workspaces, history_same revisions]

end Commit

section Steps

variable {rt : Runtime} {db : Database} {outside : Outside} {phase : Phase} {input : Input}
  {effect : Effect Outside Phase Write}

theorem next_started (answer : next rt db outside phase input = some effect) : phase.operation? = none := by
  cases phase with
  | finished outcome => cases answer
  | _ => rfl

theorem next_operation (step : Next rt db outside phase input effect)
    (uncommitted : ∀ phase' outside', effect ≠ .commit phase' outside') :
    effect.phase.operation? = none := by
  cases step with
  | committed all => exact absurd rfl (uncommitted _ _)
  | failed plain =>
    rename_i outcome
    cases outcome with
    | committed batch => cases plain
    | _ => rfl
  | verified kept digest =>
    rename_i held revision reader row pdf
    cases reader <;> rfl
  | catalogued =>
    rename_i held revision reader key pdf
    cases reader <;> rfl
  | _ => rfl

end Steps

theorem shelf_atomic (rt : Runtime) :
    Atomic (resumeSystem rt) historyAssertion Database.shelf Phase.operation? Operation.perform where
  start started := by
    cases started
    rename_i request
    cases request <;> rfl
  moves consistent sound moves := by
    cases moves with
    | read next =>
      left
      apply And.intro rfl
      rw [next_started next]
      exact next_operation (next_cases next) (fun _ _ same => by cases same)
    | write next admitted =>
      left
      apply And.intro rfl
      rw [next_started next]
      exact next_operation (next_cases next) (fun _ _ same => by cases same)
    | fail next =>
      left
      apply And.intro rfl
      rw [next_started next]
      exact next_operation (next_cases next) (fun _ _ same => by cases same)
    | refused next refused => exact .inl ⟨rfl, failed_operation _⟩
    | abort => exact .inl ⟨rfl, failed_operation _⟩
    | commit next =>
      right
      apply And.intro (next_started next)
      obtain ⟨batch, sent, rfl, _, rfl, rfl, rfl, change⟩ := commit_change sound (next_cases next)
      rw [after_operation]
      exact change.shelf consistent (opens_fresh sound.writes)

/-- Whatever the interleaving, the workspaces are what the requests that have committed make one after the
    other, each once and no others, and a request that had committed before another one began comes before
    it. -/
theorem requests_serialize {rt : Runtime} {s : State Database Outside Phase Write}
    (reachable : Reachable rt s) :
    ∃ ops, Serial Database.shelf Phase.operation? Operation.perform (fun _ => none) s ops ∧
      ∀ s', Runs (resumeSystem rt) Guard.free s s' →
        ∃ later, Serial Database.shelf Phase.operation? Operation.perform (fun _ => none) s'
            (ops ++ later) := by
  have known : ∀ {t}, Reachable rt t → historyAssertion.Holds t := fun reached => (history_holds reached).2
  have nothing : Serial Database.shelf Phase.operation? Operation.perform (fun _ => none) initialState [] :=
    ⟨.refl _, rfl⟩
  obtain ⟨ops, serial⟩ := serial_runs (shelf_atomic rt) (fun t run => known run) nothing reachable
  rw [List.nil_append] at serial
  apply Exists.intro ops
  apply And.intro serial
  intro s' run
  exact serial_runs (shelf_atomic rt) (fun t further => known (reachable.trans further)) serial run

/-- Two saves of revision 1 that overlap: the one that was refused has no part in it. -/
theorem requests_serialize_overlap :
    ∃ s ops, Reachable plainRuntime s ∧ s.sessions.length = 3 ∧ ops.length = 2 ∧
    Serial Database.shelf Phase.operation? Operation.perform (fun _ => none) s ops := by
  let actions := creating ++ [saving (some 1), saving (some 1)] ++ stepping 1 2 ++ stepping 2 2 ++
    stepping 1 3 ++ stepping 2 1
  have ran : ((resumeSystem plainRuntime).perform Guard.free initialState actions).any (fun s =>
      decide (s.sessions.length = 3 ∧ (s.sessions.filterMap fun session => session.phase.operation?).length =
          2)) = true := by
    decide +kernel
  obtain ⟨s, reachable, counted⟩ := runs_of_performed ran
  obtain ⟨sessions, counts⟩ := of_decide_eq_true counted
  obtain ⟨ops, serial, _⟩ := requests_serialize reachable
  exact ⟨s, ops, reachable, sessions, serial.once.length_eq.trans counts, serial⟩

end ManifestCV.Workspace
