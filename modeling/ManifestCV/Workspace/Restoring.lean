import ManifestCV.Document.FixedPoint
import ManifestCV.Foundation.Solo
import ManifestCV.Workspace.History

namespace ManifestCV.Workspace

open Foundation Foundation.Transactions Document

def Writer.saves : Writer → Bool
  | .create _ | .save _ _ _ _ => true
  | .worker _ _ _ => false

def Writer.restored? : Writer → Option ResumeRevision
  | .save _ (.restore source) _ _ => some source
  | _ => none

structure Written (rt : Runtime) (writer : Writer) (text : Str) : Prop where
  saved : writer.saves = true → Canonical rt text
  restored : ∀ source, writer.restored? = some source → RestoredFrom rt source.documentJson text

structure Loaded (rt : Runtime) (caller : Caller) (payload : DocumentSave) : Prop where
  keyed : payload.document.WellKeyed
  restored : ∀ source, caller = .restore source → loads rt.floats source.documentJson = some payload.document

def Phase.Restoring (rt : Runtime) : Phase → Prop
  | .saving _ caller payload => Loaded rt caller payload
  | .latest _ caller payload document => Loaded rt caller payload ∧ validateDocument rt payload.document =
      .ok document
  | .insertRevision writer text | .flush (.revision writer _ text) _ | .finished
      (.committed (.revision writer _ text)) =>
    Written rt writer text
  | _ => True

section Steps

variable {rt : Runtime} {db : Database} {outside : Outside} {phase : Phase} {input : Input}
  {effect : Effect Outside Phase Write}

theorem next_restoring (step : Next rt db outside phase input effect) (ok : phase.Restoring rt) :
    effect.phase.Restoring rt := by
  cases step with
  | created template =>
    obtain ⟨entry, found, accepted⟩ := Option.map_eq_some_iff.mp template
    exact ⟨fun _ => ⟨_, _, templates_wellKeyed _ (lookup_mem found), accepted, rfl⟩, fun _ same =>
      (nomatch same)⟩
  | checked found passed =>
    rename_i userId workspaceId payload expected kind held document
    exact ⟨⟨payload.property, fun _ same => (nomatch same)⟩, passed.accepted⟩
  | checkedAgain found passed => exact ⟨ok, passed.accepted⟩
  | restoring found home text =>
    refine ⟨loads_wellKeyed text, ?_⟩
    intro other same
    cases same
    exact text
  | written loaded structured =>
    rename_i held refining source text payload document
    refine ⟨structuredDocument_wellKeyed (loads_wellKeyed loaded) structured, ?_⟩
    intro other same
    cases refining <;> cases same
  | numbered =>
    rename_i held caller payload document
    obtain ⟨loaded, accepted⟩ := ok
    refine ⟨fun _ => ⟨_, _, loaded.keyed, accepted, rfl⟩, ?_⟩
    intro source same
    cases caller with
    | restore other =>
      cases same
      exact ⟨_, _, loaded.restored source rfl, accepted, rfl⟩
    | _ => cases same
  | jobWritten => exact ⟨fun saved => (nomatch saved), fun _ same => (nomatch same)⟩
  | inserted => exact ok
  | sent more =>
    rename_i batch sent w
    cases batch <;> exact ok
  | verified kept digest =>
    rename_i held revision reader row pdf
    cases reader <;> trivial
  | catalogued =>
    rename_i held revision reader key pdf
    cases reader <;> trivial
  | committed all =>
    rename_i batch sent
    cases batch <;> exact ok
  | failed plain =>
    rename_i outcome
    cases outcome <;> trivial
  | _ => trivial

theorem restoring_stable (rt : Runtime) (g : Guard Database Outside Phase Input)
    (known : Assertion Database Outside Phase Write) :
    Stable (resumeSystem rt) g known (Assertion.phase (Phase.Restoring rt)) := by
  apply phase_stable
  · intro outside request phase outside' started
    cases started
    cases request <;> trivial
  · exact fun next ok => next_restoring (next_cases next) ok
  · intro phase ok
    change (failedPhase phase).Restoring rt
    cases phase <;> first | exact ok | trivial

end Steps

theorem restoring_holds {rt : Runtime} {s : State Database Outside Phase Write} (reachable : Reachable rt s) :
    ∀ session ∈ s.sessions, session.phase.Restoring rt := by
  obtain ⟨_, holds⟩ := holds_idle_runs conflicts_symm (restoring_stable rt Guard.free Assertion.trivial)
    (fun t _ => Assertion.trivial_holds t) rfl trivial reachable
  intro session inside
  obtain ⟨i, here⟩ := List.mem_iff_getElem?.mp inside
  exact holds.own i session here

/-- The revision was stored by `create_workspace` or `save_document`. -/
def StoredBySave (s : State Database Outside Phase Write) (row : ResumeRevision) : Prop :=
  ∃ session ∈ s.sessions, ∃ writer revisionId text,
    session.phase = .finished (.committed (.revision writer revisionId text)) ∧
    writer.saves = true ∧ row = revisionRow writer revisionId text

theorem StoredBySave.canonical {rt : Runtime} {s : State Database Outside Phase Write} {row : ResumeRevision}
    (reachable : Reachable rt s) (stored : StoredBySave s row) : Canonical rt row.documentJson := by
  obtain ⟨session, inside, writer, revisionId, text, finished, saved, rfl⟩ := stored
  have written := restoring_holds reachable session inside
  rw [finished] at written
  exact written.saved saved

def Quiet (workspaceId : Nat) (sessions : List (Session Phase Write)) : Prop :=
  ∀ session ∈ sessions, ∀ w ∈ session.pending, w.within ≠ some workspaceId

/-- A revision of a draft, and what `restore_revision` reads of it. -/
structure Restorable (rt : Runtime) (db : Database) (held : ResumeWorkspace) (source : ResumeRevision)
    (fields : Dict) (document : ResumeDocument) : Prop where
  found : db.owned? held.id held.userId = some held
  draft : held.status = .draft
  revision : db.revision? source.id = some source
  home : source.workspaceId = held.id
  loaded : loads rt.floats source.documentJson = some (.obj fields)
  accepted : validateDocument rt (.obj fields) = .ok document

def nextNumber (db : Database) (workspaceId : Nat) : Nat :=
  ((db.latestRevision? workspaceId).map (·.revisionNumber)).getD 0 + 1

def restoringWriter (db : Database) (held : ResumeWorkspace) (source : ResumeRevision) (fields : Dict) :
    Writer :=
  .save held (.restore source) ⟨.obj fields, held.currentRevisionId, .restored⟩ (nextNumber db held.id)

section Course

variable {rt : Runtime} {db : Database} {outside : Outside} {held : ResumeWorkspace} {source : ResumeRevision}
  {fields : Dict}
  {document : ResumeDocument}

theorem owned_next (ready : Restorable rt db held source fields document) :
    next rt db outside (.owned held.userId held.id (.restoreRevision source.id)) .answer =
      some (.read (.source held (.restoreRevision source.id)) outside) := by
  simp only [next, ready.found, afterOwned, ready.draft]
  rfl

theorem source_next (ready : Restorable rt db held source fields document) :
    next rt db outside (.source held (.restoreRevision source.id)) .answer =
      some (.read (.saving held (.restore source) ⟨.obj fields, held.currentRevisionId, .restored⟩)
        outside) := by
  simp only [next, afterSource, ready.revision, ready.home, ready.loaded]
  exact if_neg fun other => other rfl

theorem saving_next (ready : Restorable rt db held source fields document) :
    next rt db outside (.saving held (.restore source) ⟨.obj fields, held.currentRevisionId, .restored⟩)
      .answer =
      some (.read (.latest held (.restore source) ⟨.obj fields, held.currentRevisionId, .restored⟩ document)
        outside) := by
  simp only [next, ready.found, checkSave, ready.draft, ready.accepted]
  rw [if_neg (by decide : ¬ WorkspaceStatus.draft = .approved), if_neg (fun both => both.2 rfl)]

theorem owned?_of_mem (consistent : Consistent db outside) (member : held ∈ db.workspaces) :
    db.owned? held.id held.userId = some held := by
  cases found : db.owned? held.id held.userId with
  | none =>
    have missing := List.find?_eq_none.mp found held member
    simp at missing
  | some other =>
    obtain ⟨inside, same, _⟩ := owned?_some found
    rw [List.inj_on_of_nodup_map consistent.uniqueWorkspaces inside member same]

theorem nextNumber_new (consistent : Consistent db outside) (found : db.workspace? held.id = some held) :
    ∀ row ∈ db.history held.id, row.revisionNumber ≠ nextNumber db held.id := by
  intro row member same
  obtain ⟨last, latest, number, _⟩ := consistent.latest found
  have inside : row.revisionNumber ∈ (db.history held.id).map (·.revisionNumber) := List.mem_map_of_mem member
  rw [(consistent.linear held.id held found).numbers, List.mem_range'_1] at inside
  rw [nextNumber, latest, Option.map_some, Option.getD_some, number] at same
  omega

theorem revision_admitted (consistent : Consistent db outside) (found : db.workspace? held.id = some held)
    {writer : Writer} (home : writer.workspaceId = held.id) (number : writer.number = nextNumber db held.id)
    (text : Str) :
    admitsWrite db (.insertRevision (revisionRow writer outside.nextRevisionId text)) = true := by
  simp only [admitsWrite, revisionRow, home, number, found, Option.isSome_some, Bool.and_true,
    Bool.and_eq_true, List.all_eq_true, decide_eq_true_eq]
  constructor
  · intro other member
    exact Nat.ne_of_lt (consistent.revisionIds other member)
  · exact nextNumber_new consistent found

theorem revision_unlocked {rt : Runtime} {sessions : List (Session Phase Write)} {row : ResumeRevision}
    (quiet : Quiet row.workspaceId sessions)
    (fresh : ∀ session ∈ sessions, ∀ other, .insertRevision other ∈ session.pending → other.id ≠ row.id) :
    Unlocked (resumeSystem rt) sessions (.insertRevision row) := by
  intro session inside v held
  have apart := quiet session inside v held
  show conflicts (.insertRevision row) v = false
  cases v with
  | insertRevision other =>
    have differ := fresh session inside other held
    have elsewhere : other.workspaceId ≠ row.workspaceId := fun same => apart (congrArg some same)
    simp [conflicts, locks, differ, Ne.symm differ, elsewhere, Ne.symm elsewhere]
  | lockWorkspace id | deleteWorkspace id =>
    have elsewhere : row.workspaceId ≠ id := fun same => apart (congrArg some same.symm)
    simp [conflicts, locks, Write.within, Write.parent, Write.updated, elsewhere]
  | _ => simp [conflicts, locks, Write.updated]

theorem pointer_unlocked {rt : Runtime} {sessions : List (Session Phase Write)} {workspaceId revisionId : Nat}
    (quiet : Quiet workspaceId sessions) :
    Unlocked (resumeSystem rt) sessions (.setCurrentRevision workspaceId revisionId) := by
  intro session inside v held
  have apart := quiet session inside v held
  show conflicts (.setCurrentRevision workspaceId revisionId) v = false
  cases v with
  | lockWorkspace id | deleteWorkspace id =>
    have elsewhere : workspaceId ≠ id := fun same => apart (congrArg some same.symm)
    simp [conflicts, locks, Write.within, Write.parent, Write.updated, elsewhere]
  | setCurrentRevision id _ | setStatus id _ =>
    have elsewhere : id ≠ workspaceId := fun same => apart (congrArg some same)
    simp [conflicts, locks, Write.updated, elsewhere, Ne.symm elsewhere]
  | _ => simp [conflicts, locks, Write.updated]

theorem restore_performs {s : State Database Outside Phase Write}
    (ready : Restorable rt s.db held source fields document) (found : s.db.workspace? held.id = some held)
    (history : historyAssertion.Holds s) (quiet : Quiet held.id s.sessions) :
    let writer := restoringWriter s.db held source fields
    let row := revisionRow writer s.outside.nextRevisionId (storedText rt document)
    (resumeSystem rt).perform Guard.free s
        (.start (.owned held.userId held.id (.restoreRevision source.id)) :: stepping s.sessions.length 7) =
      some (beside s.sessions (replay s.db [.insertRevision row, .setCurrentRevision held.id row.id])
        { s.outside with nextRevisionId := s.outside.nextRevisionId + 1 }
        (.finished (.committed (.revision writer row.id (storedText rt document)))) []) := by
  intro writer row
  have admitted : admitsWrite s.db (.insertRevision row) = true :=
    revision_admitted history.common found rfl rfl _
  have fresh : ∀ session ∈ s.sessions, ∀ other, .insertRevision other ∈ session.pending →
      other.id ≠ row.id := by
    intro session inside other held
    obtain ⟨i, here⟩ := List.mem_iff_getElem?.mp inside
    exact Nat.ne_of_lt ((history.own i session here).writes _ held).1
  have pointed : admitsWrite (replay s.db [.insertRevision row]) (.setCurrentRevision held.id row.id) =
      true := by
    show (s.db.workspace? held.id).isSome = true
    rw [found, Option.isSome_some]
  let n := s.sessions.length
  let payload : DocumentSave := ⟨.obj fields, held.currentRevisionId, .restored⟩
  calc
    (resumeSystem rt).perform Guard.free s
        (.start (.owned held.userId held.id (.restoreRevision source.id)) :: stepping n 7)
    _ = (resumeSystem rt).perform Guard.free
        (beside s.sessions s.db s.outside (.owned held.userId held.id (.restoreRevision source.id)) [])
          (stepping n 7) := perform_start rfl
    _ = (resumeSystem rt).perform Guard.free
        (beside s.sessions s.db s.outside (.source held (.restoreRevision source.id)) []) (stepping n 6) :=
          perform_read (owned_next ready)
    _ = (resumeSystem rt).perform Guard.free
        (beside s.sessions s.db s.outside (.saving held (.restore source) payload) []) (stepping n 5) :=
          perform_read (source_next ready)
    _ = (resumeSystem rt).perform Guard.free
        (beside s.sessions s.db s.outside (.latest held (.restore source) payload document) [])
            (stepping n 4) :=
      perform_read (saving_next ready)
    _ = (resumeSystem rt).perform Guard.free
        (beside s.sessions s.db s.outside (.insertRevision writer (storedText rt document)) [])
          (stepping n 3) := perform_read rfl
    _ = (resumeSystem rt).perform Guard.free
        (beside s.sessions s.db { s.outside with nextRevisionId := s.outside.nextRevisionId + 1 }
          (.flush (.revision writer row.id (storedText rt document)) 1) [.insertRevision row])
              (stepping n 2) :=
      perform_write rfl (revision_unlocked quiet fresh) admitted
    _ = (resumeSystem rt).perform Guard.free
        (beside s.sessions s.db { s.outside with nextRevisionId := s.outside.nextRevisionId + 1 }
          (.flush (.revision writer row.id (storedText rt document)) 2) [.insertRevision row,
            .setCurrentRevision held.id row.id])
          (stepping n 1) := perform_write rfl (pointer_unlocked quiet) pointed
    _ = _ := perform_commit rfl

end Course

/-- What `restore_revision` stores for a text that was saved is that text, however the requests cross, and it
    does store it when nobody else writes to the draft: parsing, validating and dumping a stored text changes
    nothing. -/
theorem restore_faithful (rt : Runtime) :
    (∀ payload document, payload.WellKeyed → validateDocument rt payload = .ok document →
      ∃ fields restored, loads rt.floats (storedText rt document) = some (.obj fields) ∧
        validateDocument rt (.obj fields) = .ok restored ∧ storedText rt restored = storedText rt document) ∧
    ∀ s, Reachable rt s → ∀ source, StoredBySave s source →
      (∀ session ∈ s.sessions, ∀ writer revisionId text,
        session.phase = .finished (.committed (.revision writer revisionId text)) →
          writer.restored? = some source →
        (revisionRow writer revisionId text).documentJson = source.documentJson ∧
          (revisionRow writer revisionId text).contentHash = source.contentHash) ∧
      (source ∈ s.db.revisions → ∀ s', Runs (resumeSystem rt) Guard.free s s' → ∀ held,
        s'.db.workspace? source.workspaceId = some held → held.status = .draft → Quiet held.id s'.sessions →
        ∃ s'' row, (resumeSystem rt).perform Guard.free s'
            (.start (.owned held.userId held.id (.restoreRevision source.id)) :: stepping s'.sessions.length
              7) = some s'' ∧
          s''.db.revisions = s'.db.revisions ++ [row] ∧ row.workspaceId = held.id ∧
            row.changeKind = .restored ∧
          row.documentJson = source.documentJson ∧ row.contentHash = source.contentHash) := by
  refine ⟨fun payload document keyed accepted => storedText_fixed keyed accepted, ?_⟩
  intro s reachable source stored
  have canonical := stored.canonical reachable
  have hashed : source.contentHash = sha256 (encode source.documentJson) := by
    obtain ⟨_, _, writer, revisionId, text, _, _, rfl⟩ := stored
    rfl
  constructor
  · intro session inside writer revisionId text finished restores
    have written := restoring_holds reachable session inside
    rw [finished] at written
    have same : text = source.documentJson := canonical.restored (written.restored source restores)
    exact ⟨same, by rw [hashed, ← same]; rfl⟩
  · intro listed s' run held found draft quiet
    obtain ⟨_, history⟩ := history_holds (reachable.trans run)
    obtain ⟨member, named⟩ := workspace?_some found
    have kept : source ∈ s'.db.revisions :=
      revision_kept reachable listed run (by rw [found]; exact Option.some_ne_none _)
    obtain ⟨fields, document, loaded, accepted, same⟩ := canonical.fixed
    have ready : Restorable rt s'.db held source fields document :=
      ⟨owned?_of_mem history.common member, draft, revision?_of_mem history.common.uniqueRevisions kept,
        named.symm, loaded, accepted⟩
    refine ⟨_, _, restore_performs ready (named ▸ found) history quiet, rfl, rfl, rfl, same, ?_⟩
    rw [hashed, ← same]
    rfl

def committedRow (row : ResumeRevision) (session : Session Phase Write) : Bool :=
  match session.phase with
  | .finished (.committed (.revision writer id text)) => writer.saves && row.id = id &&
      row.workspaceId = writer.workspaceId &&
      row.revisionNumber = writer.number && row.documentJson = text && row.changeKind = writer.changeKind
  | _ => false

theorem storedBySave_of {s : State Database Outside Phase Write} {row : ResumeRevision}
    (hashed : row.contentHash = sha256 (encode row.documentJson))
    (committed : s.sessions.any (committedRow row) = true) :
    StoredBySave s row := by
  obtain ⟨session, inside, committed⟩ := List.any_eq_true.mp committed
  unfold committedRow at committed
  split at committed
  · rename_i writer id text finished
    simp only [Bool.and_eq_true, decide_eq_true_eq] at committed
    obtain ⟨⟨⟨⟨⟨saves, same⟩, home⟩, number⟩, document⟩, kind⟩ := committed
    refine ⟨session, inside, writer, id, text, finished, saves, ?_⟩
    rw [revisionRow, ← same, ← home, ← number, ← document, ← kind, ← hashed]
  · cases committed

theorem restore_faithful_template : ∃ s source s' row, Reachable plainRuntime s ∧ source ∈ s.db.revisions ∧
    source.id = 1 ∧
    s.db.revisions.length = 2 ∧ Runs (resumeSystem plainRuntime) Guard.free s s' ∧ s'.db.revisions =
      s.db.revisions ++ [row] ∧
    row.documentJson = source.documentJson ∧ row.contentHash = source.contentHash := by
  have ran : ((resumeSystem plainRuntime).perform Guard.free initialState
    (creating ++ saving (some 1) :: stepping 1 5)).any
      (fun s => s.db.revisions.length = 2 ∧ s.sessions.all (·.pending.isEmpty) = true ∧
        (s.db.revisions.any fun row => row.id = 1 && s.sessions.any (committedRow row) &&
          (s.db.workspace? row.workspaceId).any (·.status = .draft)) = true) = true := by decide +kernel
  obtain ⟨s, reachable, check⟩ := runs_of_performed ran
  obtain ⟨two, idle, check⟩ := of_decide_eq_true check
  obtain ⟨source, listed, check⟩ := List.any_eq_true.mp check
  simp only [Bool.and_eq_true, decide_eq_true_eq] at check
  obtain ⟨⟨first, committed⟩, opens⟩ := check
  obtain ⟨held, found, draft⟩ := (Option.any_eq_true _ _).mp opens
  have stored := storedBySave_of ((history_holds reachable).2.common.hashed source listed) committed
  have quiet : Quiet held.id s.sessions := by
    intro session inside w pending
    have empty := List.isEmpty_iff.mp (List.all_eq_true.mp idle session inside)
    rw [empty] at pending
    cases pending
  obtain ⟨s', row, performed, appended, _, _, document, hash⟩ :=
    ((restore_faithful plainRuntime).2 s reachable source stored).2 listed s .refl held found
      (of_decide_eq_true draft) quiet
  exact ⟨s, source, s', row, reachable, listed, first, two, runs_perform performed, appended, document, hash⟩

end ManifestCV.Workspace
