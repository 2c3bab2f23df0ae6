import ManifestCV.Workspace.History

namespace ManifestCV.Workspace

open Foundation Foundation.Transactions Document

def Writer.base (claim : Caller → DocumentSave → Option Nat) : Writer → Option Nat
  | .create _ => none
  | .save _ caller payload _ => claim caller payload
  | .worker _ _ source => some source.id

/-- When `save_document` looks for the latest revision, it finds the one that its caller claims to replace. -/
def baseGuard (claim : Caller → DocumentSave → Option Nat) : Guard Database Outside Phase Input where
  alone db _ phase _ :=
    match phase with
    | .latest held caller payload _ => (claim caller payload).all fun id =>
        (db.latestRevision? held.id).all (·.id = id)
    | _ => true
  beside _ _ _ := true

def UpToDate (claim : Caller → DocumentSave → Option Nat) (db : Database) (phase : Phase) : Prop :=
  ∀ writer id, phase.writer? = some writer → writer.base claim = some id →
    writer.number = (db.history writer.workspaceId).length + 1 →
    ∀ row, db.workspace? writer.workspaceId = some row → row.currentRevisionId = some id

def baseAssertion (claim : Caller → DocumentSave → Option Nat) : Assertion Database Outside Phase Write where
  common _ _ := True
  own db _ phase _ := UpToDate claim db phase
  pair _ _ _ _ := True

section Numbering

variable {rt : Runtime} {db db' : Database} {outside outside' : Outside} {phase phase' : Phase}
  {pending pending' : List Write} {batch : Batch} {claim : Caller → DocumentSave → Option Nat}

theorem base_held {writer : Writer} {id : Nat} (base : writer.base claim = some id) :
    ∃ held, writer.held? = some held ∧ held.id = writer.workspaceId := by
  cases writer with
  | create workspace => cases base
  | save held caller payload number => exact ⟨held, rfl, rfl⟩
  | worker job held given => exact ⟨held, rfl, rfl⟩

theorem Sound.number_le {writer : Writer} (sound : Sound db outside phase pending)
    (writing : phase.writer? = some writer) (present : db.workspace? writer.workspaceId ≠ none) :
    writer.number ≤ (db.history writer.workspaceId).length + 1 := by
  cases phase with
  | insertRevision other text =>
    cases writing
    exact (sound.numbered writer text rfl).2 present
  | flush batch sent =>
    cases batch with
    | revision other revisionId text =>
      cases writing
      have inside := flush_pending sound.inserted
      rw [← sound.shape] at inside
      exact Nat.le_of_eq (sound.writes _ inside).2.2
    | _ => cases writing
  | _ => cases writing

theorem worker_upToDate {held : ResumeWorkspace} {source : ResumeRevision}
    (consistent : Consistent db outside) (known : SourceOk db held source)
    (number : source.revisionNumber = (db.history held.id).length) {row : ResumeWorkspace}
    (found : db.workspace? held.id = some row) : row.currentRevisionId = some source.id := by
  obtain ⟨member, home⟩ := known (by rw [found]; exact Option.some_ne_none _)
  obtain ⟨last, latest, same, pointer⟩ := consistent.latest found
  have inside := lastBy_mem latest
  have unique : ((db.history held.id).map (·.revisionNumber)).Nodup := by
    rw [(consistent.linear _ row found).numbers]
    exact List.nodup_range'
  rw [pointer, List.inj_on_of_nodup_map unique inside (mem_history.mpr ⟨member, home⟩)
    (same.trans number.symm)]

theorem UpToDate.next {input : Input} {effect : Effect Outside Phase Write}
    (consistent : Consistent db outside) (sound : Sound db outside phase pending)
    (current : UpToDate claim db phase) (allowed : (baseGuard claim).alone db outside phase input = true)
    (step : Next rt (replay db pending) outside phase input effect) : UpToDate claim db effect.phase := by
  intro writer id writing base number row found
  rcases next_writer step writing with before | ⟨empty,
    ⟨workspace, rfl⟩ | ⟨held, caller, payload, document, rfl, rfl⟩ |
    ⟨job, held, source, rfl, rfl⟩⟩
  · exact current writer id before base number row found
  · cases base
  · change db.workspace? held.id = some row at found
    change claim caller payload = some id at base
    obtain ⟨last, latest, _, pointer⟩ := consistent.latest found
    simp only [baseGuard, base, Option.all_some, latest, decide_eq_true_eq] at allowed
    rw [pointer, allowed]
  · cases base
    exact worker_upToDate consistent (sound.source held source rfl rfl) (Nat.succ.inj number) found

theorem UpToDate.commits (change : Commits db batch db') (writes : ∀ w ∈ batch.writes, WriteOk db outside w)
    (sound : Sound db outside phase pending)
    (fresh : ∀ held, phase.held? = some held → ∀ w ∈ batch.writes, w.Fresh held)
    (current : UpToDate claim db phase) : UpToDate claim db' phase := by
  intro writer id writing base number row found
  obtain ⟨held, holds, home⟩ := base_held base
  have old : ∀ workspace revisionId text, batch = .revision (.create workspace) revisionId text →
      workspace.id ≠ writer.workspaceId := by
    rintro workspace revisionId text rfl same
    exact fresh held ((writer_held writing).trans holds) _ (inserts_workspace workspace revisionId text)
      (same.trans home.symm)
  obtain ⟨present, grown, _⟩ :=
    change.kept old (opens_fresh writes) (by rw [found]; exact Option.some_ne_none _)
  have bound := sound.number_le writing present
  have longer := grown.length_le
  rcases change.pointer (opens_fresh writes) found with ⟨other, revisionId, text, rfl, same, _⟩ | ⟨_,
    before, was, pointer⟩
  · have taken : (revisionRow other revisionId text).workspaceId = writer.workspaceId := same
    rw [history_append change.adds, if_pos taken, List.length_append, List.length_singleton] at number
    omega
  · rw [pointer]
    exact current writer id writing base (by omega) before was

theorem UpToDate.none (nobody : phase.writer? = none) : UpToDate claim db phase :=
  fun _ _ writing => absurd (nobody.symm.trans writing) (fun same => nomatch same)

end Numbering

theorem base_stable (rt : Runtime) (claim : Caller → DocumentSave → Option Nat) :
    Stable (resumeSystem rt) (baseGuard claim) historyAssertion (baseAssertion claim) where
  start {db outside request phase outside'} _ _ started := by
    cases started
    exact ⟨trivial, .none (by cases request <;> rfl)⟩
  startOther _ _ current started := by
    cases started
    exact ⟨current, trivial, trivial⟩
  own {db outside phase pending label db' outside' phase' pending'} consistent sound _ current
      allowed moves := by
    refine ⟨trivial, ?_⟩
    have dropped : UpToDate claim db (failedPhase phase) := .none (by cases phase <;> rfl)
    cases moves with
    | read next => exact UpToDate.next consistent sound current (allowed _ rfl) (next_cases next)
    | write next admitted => exact UpToDate.next consistent sound current (allowed _ rfl) (next_cases next)
    | refused next refused => exact dropped
    | fail next => exact UpToDate.next consistent sound current (allowed _ rfl) (next_cases next)
    | abort => exact dropped
    | commit next =>
      obtain ⟨batch, sent, _, _, rfl, _⟩ := next_commit (next_cases next)
      exact .none (by cases batch <;> rfl)
  other {db outside phase pending label db' outside' phase' pending' other otherPending} _ sound beside
    mine _ _ _ current
      _ _ _ _ moves := by
    refine ⟨?_, trivial, trivial⟩
    cases moves with
    | commit next =>
      obtain ⟨batch, sent, rfl, _, rfl, rfl, rfl, change⟩ := commit_change sound (next_cases next)
      exact current.commits change sound.writes beside mine
    | _ => exact current

theorem base_holds {rt : Runtime} {claim : Caller → DocumentSave → Option Nat}
    {s : State Database Outside Phase Write}
    (reached : Runs (resumeSystem rt) (baseGuard claim) initialState s) : (baseAssertion claim).Holds s :=
  (holds_idle_runs conflicts_symm (base_stable rt claim) (fun _ run => (history_holds run.free).2) rfl trivial
    reached).2

/-- Where the pointer of an existing workspace moves: its new revision is committed by a session that inserted
    it. -/
theorem pointer_moved {rt : Runtime} {s s' : State Database Outside Phase Write} (reachable : Reachable rt s)
    (step : Step (resumeSystem rt) Guard.free s s') {id : Nat} {before after : ResumeWorkspace}
    (found : s.db.workspace? id = some before) (found' : s'.db.workspace? id = some after)
    (moved : after.currentRevisionId ≠ before.currentRevisionId) :
    ∃ (i : Nat) (session : Session Phase Write) (writer : Writer) (revisionId : Nat)
      (text : Str) (sent : Nat),
      s.sessions[i]? = some session ∧ session.phase = .flush (.revision writer revisionId text) sent ∧
      writer.workspaceId = id ∧ after.currentRevisionId = some revisionId := by
  obtain ⟨_, holds⟩ := history_holds reachable
  obtain ⟨action, _, step⟩ := step
  have unmoved : s'.db ≠ s.db := by
    intro same
    rw [same, found] at found'
    cases found'
    exact moved rfl
  rcases step_moves step with ⟨request, phase, outside, _, _, rfl⟩ | ⟨i, session, label, phase, pending,
    placed, _, moves, _, _⟩
  · exact absurd rfl unmoved
  have sound := holds.own i session placed
  generalize s'.db = db' at found' moves unmoved
  generalize s'.outside = outside' at moves
  cases moves with
  | commit next =>
    obtain ⟨batch, sent, here, _, same, _, _, change⟩ := commit_change sound (next_cases next)
    rw [same] at found'
    rcases change.pointer (opens_fresh (same ▸ sound.writes)) found' with ⟨writer, revisionId, text,
      rfl, home, pointer⟩ |
      ⟨_, row, was, pointer⟩
    · exact ⟨i, session, writer, revisionId, text, sent, placed, here, home, pointer⟩
    · rw [found] at was
      cases was
      exact absurd pointer moved
  | _ => exact absurd rfl unmoved

end ManifestCV.Workspace
