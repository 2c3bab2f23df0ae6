import ManifestCV.Workspace.Commits

namespace ManifestCV.Workspace

open Foundation Foundation.Transactions Document

/-- Revisions numbered from 1 in the order of the table, the last of them current. -/
structure Linear (row : ResumeWorkspace) (history : List ResumeRevision) : Prop where
  numbers : history.map (·.revisionNumber) = List.range' 1 history.length
  pointer : ∃ last, history.getLast? = some last ∧ row.currentRevisionId = some last.id

structure Consistent (db : Database) (outside : Outside) : Prop where
  workspaceIds : ∀ row ∈ db.workspaces, row.id < outside.nextWorkspaceId
  uniqueWorkspaces : (db.workspaces.map (·.id)).Nodup
  revisionIds : ∀ row ∈ db.revisions, row.id < outside.nextRevisionId
  uniqueRevisions : (db.revisions.map (·.id)).Nodup
  owned : ∀ row ∈ db.revisions, db.workspace? row.workspaceId ≠ none
  hashed : ∀ row ∈ db.revisions, row.contentHash = sha256 (encode row.documentJson)
  linear : ∀ id row, db.workspace? id = some row → Linear row (db.history id)

structure HeldOk (db : Database) (outside : Outside) (held : ResumeWorkspace) : Prop where
  known : held.id < outside.nextWorkspaceId
  pointer : ∀ revisionId, held.currentRevisionId = some revisionId → revisionId < outside.nextRevisionId ∧
    ∀ row ∈ db.revisions, row.id = revisionId → row.workspaceId = held.id

def SourceOk (db : Database) (held : ResumeWorkspace) (source : ResumeRevision) : Prop :=
  db.workspace? held.id ≠ none → source ∈ db.revisions ∧ source.workspaceId = held.id

def Write.Fresh (held : ResumeWorkspace) : Write → Prop
  | .insertWorkspace row => row.id ≠ held.id
  | .insertRevision row => held.currentRevisionId ≠ some row.id
  | _ => True

def WriteOk (db : Database) (outside : Outside) : Write → Prop
  | .insertWorkspace row => row.id < outside.nextWorkspaceId ∧ db.workspace? row.id = none
  | .insertRevision row => row.id < outside.nextRevisionId ∧ (∀ other ∈ db.revisions, other.id ≠ row.id) ∧
      row.revisionNumber = (db.history row.workspaceId).length + 1
  | _ => True

structure Sound (db : Database) (outside : Outside) (phase : Phase) (pending : List Write) : Prop where
  shape : pending = phase.pending
  inserted : phase.Inserted
  held : ∀ held, phase.held? = some held → HeldOk db outside held ∧ ∀ w ∈ pending, w.Fresh held
  source : ∀ held source, phase.held? = some held → phase.source? = some source → SourceOk db held source
  writes : ∀ w ∈ pending, WriteOk db outside w
  numbered : ∀ writer text, phase = .insertRevision writer text → 0 < writer.number ∧
    (db.workspace? writer.workspaceId ≠ none → writer.number ≤ (db.history writer.workspaceId).length + 1)
  parents : ∀ row, .insertRevision row ∈ pending → db.workspace? row.workspaceId ≠ none ∨
    ∃ workspace, .insertWorkspace workspace ∈ pending ∧ workspace.id = row.workspaceId

def historyAssertion : Assertion Database Outside Phase Write where
  common := Consistent
  own := Sound
  pair _ pending other _ := ∀ held, other.held? = some held → ∀ w ∈ pending, w.Fresh held

section Commit

variable {db db' : Database} {outside : Outside} {batch : Batch}

theorem inserts_revision (writer : Writer) (revisionId : Nat) (text : Str) :
    Write.insertRevision (revisionRow writer revisionId text) ∈
      (Batch.revision writer revisionId text).writes := by
  simp [Batch.writes]

theorem inserts_workspace (workspace : ResumeWorkspace) (revisionId : Nat) (text : Str) :
    Write.insertWorkspace workspace ∈ (Batch.revision (.create workspace) revisionId text).writes := by
  simp [Batch.writes, Writer.before]

theorem Commits.revisions (commits : Commits db batch db') {row : ResumeRevision}
    (member : row ∈ db'.revisions) :
    row ∈ db.revisions ∨ ∃ writer revisionId text,
      batch = .revision writer revisionId text ∧ row = revisionRow writer revisionId text := by
  cases commits with
  | opened _ revisions =>
    rw [revisions, List.mem_append, List.mem_singleton] at member
    exact member.imp id fun same => ⟨_, _, _, rfl, same⟩
  | appended _ _ revisions =>
    rw [revisions, List.mem_append, List.mem_singleton] at member
    exact member.imp id fun same => ⟨_, _, _, rfl, same⟩
  | approved _ _ revisions => exact .inl (revisions ▸ member)
  | deleted _ revisions =>
    rw [revisions] at member
    exact .inl (List.mem_filter.mp member).1
  | quiet _ _ revisions => exact .inl (revisions ▸ member)

theorem Commits.adds {writer : Writer} {revisionId : Nat} {text : Str}
    (commits : Commits db (.revision writer revisionId text) db') :
    db'.revisions = db.revisions ++ [revisionRow writer revisionId text] := by
  cases commits with
  | opened _ revisions => exact revisions
  | appended _ _ revisions => exact revisions
  | quiet quiet => cases quiet

/-- What a workspace that the commit did not create looks like afterwards: it was there, nothing of its
    history is lost, and only a revision for it adds to the history. -/
theorem Commits.kept (commits : Commits db batch db') {id : Nat}
    (old : ∀ workspace revisionId text, batch = .revision (.create workspace) revisionId text →
      workspace.id ≠ id)
    (fresh : ∀ workspace revisionId text, batch = .revision (.create workspace) revisionId text →
      db.workspace? workspace.id = none)
    (present : db'.workspace? id ≠ none) :
    db.workspace? id ≠ none ∧ db.history id <+: db'.history id ∧ ∀ row ∈ db.revisions, row.workspaceId = id →
      row ∈ db'.revisions := by
  cases commits with
  | opened workspaces revisions =>
    rename_i workspace revisionId text
    have apart := old workspace revisionId text rfl
    rw [workspace?_append workspaces (workspace?_none.mp (fresh workspace revisionId text rfl)),
      if_neg (Ne.symm apart)] at present
    refine ⟨present, ?_, ?_⟩
    · rw [history_append revisions]
      split
      · exact List.prefix_append _ _
      · exact List.prefix_rfl
    · intro row member _
      rw [revisions]
      exact List.mem_append_left _ member
  | appended _ workspaces revisions =>
    rename_i writer revisionId text existing
    rw [workspace?_set workspaces fun _ => rfl, ne_eq, Option.map_eq_none_iff] at present
    refine ⟨present, ?_, ?_⟩
    · rw [history_append revisions]
      split
      · exact List.prefix_append _ _
      · exact List.prefix_rfl
    · intro row member _
      rw [revisions]
      exact List.mem_append_left _ member
  | approved _ workspaces revisions =>
    rw [workspace?_set workspaces fun _ => rfl, ne_eq, Option.map_eq_none_iff] at present
    rw [history_same revisions, revisions]
    exact ⟨present, List.prefix_rfl, fun _ member _ => member⟩
  | deleted workspaces revisions =>
    rename_i held
    rw [workspace?_filter workspaces] at present
    split at present
    · exact absurd rfl present
    · rename_i apart
      refine ⟨present, ?_, ?_⟩
      · rw [history_filter revisions, if_neg apart]
      · intro row member home
        rw [revisions]
        exact List.mem_filter.mpr ⟨member, by simpa [home] using apart⟩
  | quiet _ workspaces revisions =>
    rw [workspace?_same workspaces] at present
    rw [history_same revisions, revisions]
    exact ⟨present, List.prefix_rfl, fun _ member _ => member⟩

theorem opens_fresh (writes : ∀ w ∈ batch.writes, WriteOk db outside w) : ∀ workspace revisionId text,
    batch = .revision (.create workspace) revisionId text → db.workspace? workspace.id = none := by
  rintro workspace revisionId text rfl
  exact (writes _ (inserts_workspace workspace revisionId text)).2

theorem Commits.stays (change : Commits db batch db') {id : Nat}
    (kept : ∀ held, batch = .delete held → held.id ≠ id)
    (fresh : ∀ workspace revisionId text, batch = .revision (.create workspace) revisionId text →
      db.workspace? workspace.id = none)
    (present : db.workspace? id ≠ none) : db'.workspace? id ≠ none := by
  cases change with
  | opened workspaces revisions =>
    rename_i workspace revisionId text
    rw [workspace?_append workspaces (workspace?_none.mp (fresh workspace revisionId text rfl))]
    split
    · exact Option.some_ne_none _
    · exact present
  | appended _ workspaces revisions =>
      rwa [workspace?_set workspaces fun _ => rfl, ne_eq, Option.map_eq_none_iff]
  | approved _ workspaces revisions =>
      rwa [workspace?_set workspaces fun _ => rfl, ne_eq, Option.map_eq_none_iff]
  | deleted workspaces revisions =>
    rename_i held
    rwa [workspace?_filter workspaces, if_neg (Ne.symm (kept held rfl))]
  | quiet _ workspaces revisions => rwa [workspace?_same workspaces]

/-- A commit changes the pointer of a workspace by a revision for it, and its status by its approval. -/
theorem Commits.row {row' : ResumeWorkspace} (change : Commits db batch db') {id : Nat}
    (old : ∀ workspace revisionId text, batch = .revision (.create workspace) revisionId text →
      workspace.id ≠ id)
    (fresh : ∀ workspace revisionId text, batch = .revision (.create workspace) revisionId text →
      db.workspace? workspace.id = none)
    (found : db'.workspace? id = some row') : ∃ row, db.workspace? id = some row ∧
      (row.status = .approved → row'.status = .approved) ∧
      ((∀ writer revisionId text, batch = .revision writer revisionId text → writer.workspaceId ≠ id) →
        row'.currentRevisionId = row.currentRevisionId) ∧
      ((∀ held, batch = .approve held → held.status = .draft → held.id ≠ id) → row'.status = row.status) := by
  cases change with
  | opened workspaces revisions =>
    rename_i workspace revisionId text
    rw [workspace?_append workspaces (workspace?_none.mp (fresh workspace revisionId text rfl)),
      if_neg (Ne.symm (old workspace revisionId text rfl))] at found
    exact ⟨row', found, fun status => status, fun _ => rfl, fun _ => rfl⟩
  | appended _ workspaces revisions =>
    rename_i writer revisionId text existing
    rw [workspace?_set workspaces fun _ => rfl] at found
    obtain ⟨row, before, rfl⟩ := Option.map_eq_some_iff.mp found
    refine ⟨row, before, ?_, ?_, ?_⟩
    · split <;> exact fun status => status
    · intro elsewhere
      rw [if_neg]
      rw [(workspace?_some before).2]
      exact Ne.symm (elsewhere writer revisionId text rfl)
    · split <;> exact fun _ => rfl
  | approved draft workspaces revisions =>
    rename_i held
    rw [workspace?_set workspaces fun _ => rfl] at found
    obtain ⟨row, before, rfl⟩ := Option.map_eq_some_iff.mp found
    refine ⟨row, before, ?_, ?_, ?_⟩
    · split
      · exact fun _ => rfl
      · exact fun status => status
    · split <;> exact fun _ => rfl
    · intro elsewhere
      rw [if_neg]
      rw [(workspace?_some before).2]
      exact Ne.symm (elsewhere held rfl draft)
  | deleted workspaces revisions =>
    rw [workspace?_filter workspaces] at found
    split at found
    · cases found
    · exact ⟨row', found, fun status => status, fun _ => rfl, fun _ => rfl⟩
  | quiet _ workspaces revisions =>
    rw [workspace?_same workspaces] at found
    exact ⟨row', found, fun status => status, fun _ => rfl, fun _ => rfl⟩

/-- A workspace points to the revision just committed for it, or where it pointed before. -/
theorem Commits.pointer {row' : ResumeWorkspace} (change : Commits db batch db') {id : Nat}
    (fresh : ∀ workspace revisionId text, batch = .revision (.create workspace) revisionId text →
      db.workspace? workspace.id = none)
    (found : db'.workspace? id = some row') :
    (∃ writer revisionId text, batch = .revision writer revisionId text ∧ writer.workspaceId = id ∧
      row'.currentRevisionId = some revisionId) ∨
    (∀ writer revisionId text, batch = .revision writer revisionId text → writer.workspaceId ≠ id) ∧
      ∃ row, db.workspace? id = some row ∧ row'.currentRevisionId = row.currentRevisionId := by
  by_cases elsewhere : ∀ writer revisionId text, batch = .revision writer revisionId text →
    writer.workspaceId ≠ id
  · obtain ⟨row, before, _, pointer, _⟩ :=
      change.row (fun workspace => elsewhere (.create workspace)) fresh found
    exact .inr ⟨elsewhere, row, before, pointer elsewhere⟩
  · left
    push Not at elsewhere
    obtain ⟨writer, revisionId, text, rfl, home⟩ := elsewhere
    refine ⟨writer, revisionId, text, rfl, home, ?_⟩
    cases change with
    | opened workspaces revisions =>
      rename_i workspace
      change workspace.id = id at home
      rw [workspace?_append workspaces (workspace?_none.mp (fresh workspace revisionId text rfl)),
        if_pos home.symm] at found
      cases found
      rfl
    | appended existing workspaces revisions =>
      rw [workspace?_set workspaces fun _ => rfl] at found
      obtain ⟨row, before, rfl⟩ := Option.map_eq_some_iff.mp found
      rw [if_pos ((workspace?_some before).2.trans home.symm)]
    | quiet quiet => cases quiet

theorem HeldOk.commits {held : ResumeWorkspace} (change : Commits db batch db') (ok : HeldOk db outside held)
    (fresh : ∀ w ∈ batch.writes, w.Fresh held) : HeldOk db' outside held := by
  refine ⟨ok.known, ?_⟩
  intro revisionId pointer
  obtain ⟨known, home⟩ := ok.pointer revisionId pointer
  refine ⟨known, ?_⟩
  intro row member same
  rcases change.revisions member with old | ⟨writer, newId, text, rfl, rfl⟩
  · exact home row old same
  · have apart := fresh _ (inserts_revision writer newId text)
    rw [← same] at pointer
    exact absurd pointer apart

theorem SourceOk.commits {held : ResumeWorkspace} {source : ResumeRevision} (change : Commits db batch db')
    (writes : ∀ w ∈ batch.writes, WriteOk db outside w) (ok : SourceOk db held source)
    (fresh : ∀ w ∈ batch.writes, w.Fresh held) : SourceOk db' held source := by
  have old : ∀ workspace revisionId text, batch = .revision (.create workspace) revisionId text →
      workspace.id ≠ held.id := by
    rintro workspace revisionId text rfl
    exact fresh _ (inserts_workspace workspace revisionId text)
  intro present
  obtain ⟨before, _, kept⟩ := change.kept old (opens_fresh writes) present
  obtain ⟨member, home⟩ := ok before
  exact ⟨kept source member home, home⟩

theorem revisions_apart {mine other : ResumeRevision}
    (free : conflicts (.insertRevision mine) (.insertRevision other) = false) :
    mine.id ≠ other.id ∧
      ¬ (mine.workspaceId = other.workspaceId ∧ mine.revisionNumber = other.revisionNumber) := by
  simp only [conflicts, locks, Bool.or_eq_false_iff, Bool.and_eq_false_iff, decide_eq_false_iff_not] at free
  refine ⟨free.1.1, ?_⟩
  rintro ⟨home, number⟩
  rcases free.1.2 with apart | apart
  · exact apart home
  · exact apart number

theorem workspaces_apart {mine other : ResumeWorkspace}
    (free : conflicts (.insertWorkspace mine) (.insertWorkspace other) = false) : mine.id ≠ other.id := by
  simp only [conflicts, locks, Bool.or_eq_false_iff, decide_eq_false_iff_not] at free
  exact free.1

theorem delete_apart {id : Nat} {other : Write} (free : conflicts (.deleteWorkspace id) other = false) :
    other.within ≠ some id := by
  simp only [conflicts, locks, Bool.or_eq_false_iff, decide_eq_false_iff_not] at free
  exact free.1

/-- Pending rows stay fresh, and their numbers the next ones, when another session commits. -/
theorem WriteOk.commits {w : Write} (change : Commits db batch db')
    (writes : ∀ v ∈ batch.writes, WriteOk db outside v) (free : ∀ v ∈ batch.writes, conflicts v w = false)
    (ok : WriteOk db outside w) : WriteOk db' outside w := by
  cases w with
  | insertWorkspace row =>
    refine ⟨ok.1, ?_⟩
    by_contra present
    have old : ∀ workspace revisionId text, batch = .revision (.create workspace) revisionId text →
        workspace.id ≠ row.id := by
      rintro workspace revisionId text rfl
      exact workspaces_apart (free _ (inserts_workspace workspace revisionId text))
    exact (change.kept old (opens_fresh writes) present).1 ok.2
  | insertRevision row =>
    obtain ⟨known, unused, number⟩ := ok
    refine ⟨known, ?_, ?_⟩
    · intro other member
      rcases change.revisions member with old | ⟨writer, revisionId, text, rfl, rfl⟩
      · exact unused other old
      · exact (revisions_apart (free _ (inserts_revision writer revisionId text))).1
    · have elsewhere : ∀ writer revisionId text, batch = .revision writer revisionId text →
          (revisionRow writer revisionId text).workspaceId ≠ row.workspaceId := by
        rintro writer revisionId text rfl home
        have next := (writes _ (inserts_revision writer revisionId text)).2.2
        refine (revisions_apart (free _ (inserts_revision writer revisionId text))).2 ⟨home, ?_⟩
        rw [next, home, number]
      cases change with
      | opened workspaces revisions => rw [history_append revisions, if_neg (elsewhere _ _ _ rfl), number]
      | appended _ workspaces revisions => rw [history_append revisions, if_neg (elsewhere _ _ _ rfl), number]
      | approved _ workspaces revisions => rw [history_same revisions, number]
      | deleted workspaces revisions =>
        rename_i held
        have apart := delete_apart (free _ (Batch.mem_delete held))
        rw [history_filter revisions, if_neg, number]
        intro same
        exact apart (congrArg some same)
      | quiet _ workspaces revisions => rw [history_same revisions, number]
  | _ => trivial

theorem Linear.append {row : ResumeWorkspace} {history : List ResumeRevision} (linear : Linear row history)
    (new : ResumeRevision) (number : new.revisionNumber = history.length + 1) :
    Linear { row with currentRevisionId := some new.id } (history ++ [new]) := by
  refine ⟨?_, new, by simp, rfl⟩
  rw [List.map_append, linear.numbers, List.length_append, List.length_singleton, List.range'_1_concat]
  simp [number, Nat.add_comm]

theorem Consistent.no_history {id : Nat} (consistent : Consistent db outside)
    (absent : db.workspace? id = none) :
    db.history id = [] := by
  apply List.eq_nil_iff_forall_not_mem.mpr
  intro row member
  obtain ⟨inside, home⟩ := mem_history.mp member
  exact consistent.owned row inside (home ▸ absent)

theorem set_ids (target : Nat) (set : ResumeWorkspace → ResumeWorkspace)
    (keeps : ∀ row, (set row).id = row.id) :
    (db.setWorkspace target set).workspaces.map (·.id) = db.workspaces.map (·.id) := by
  rw [Database.setWorkspace, List.map_map]
  apply List.map_congr_left
  intro row _
  simp only [Function.comp_apply]
  split
  · rw [keeps]
  · rfl

theorem workspaces_below {bound : Nat} (ids : db'.workspaces.map (·.id) = db.workspaces.map (·.id))
    (below : ∀ row ∈ db.workspaces, row.id < bound) : ∀ row ∈ db'.workspaces, row.id < bound := by
  intro row member
  have inside : row.id ∈ db.workspaces.map (·.id) := ids ▸ List.mem_map_of_mem member
  obtain ⟨other, old, same⟩ := List.mem_map.mp inside
  exact same ▸ below other old

theorem Consistent.commits (consistent : Consistent db outside) (change : Commits db batch db')
    (writes : ∀ w ∈ batch.writes, WriteOk db outside w)
    (parents : ∀ row, .insertRevision row ∈ batch.writes → db.workspace? row.workspaceId ≠ none ∨
      ∃ workspace, .insertWorkspace workspace ∈ batch.writes ∧ workspace.id = row.workspaceId) :
    Consistent db' outside := by
  have fresh := opens_fresh writes
  have hashed : ∀ row ∈ db'.revisions, row.contentHash = sha256 (encode row.documentJson) := by
    intro row member
    rcases change.revisions member with old | ⟨writer, revisionId, text, _, rfl⟩
    · exact consistent.hashed row old
    · rfl
  have revisionIds : ∀ row ∈ db'.revisions, row.id < outside.nextRevisionId := by
    intro row member
    rcases change.revisions member with old | ⟨writer, revisionId, text, rfl, rfl⟩
    · exact consistent.revisionIds row old
    · exact (writes _ (inserts_revision writer revisionId text)).1
  have appendUnique : ∀ writer revisionId text, batch = .revision writer revisionId text →
      ((db.revisions ++ [revisionRow writer revisionId text]).map (·.id)).Nodup := by
    rintro writer revisionId text rfl
    have unused := (writes _ (inserts_revision writer revisionId text)).2.1
    rw [List.map_append, List.nodup_append]
    refine ⟨consistent.uniqueRevisions, List.nodup_singleton _, ?_⟩
    rintro id member other single rfl
    obtain ⟨row, inside, same⟩ := List.mem_map.mp member
    exact unused row inside (same.trans (List.mem_singleton.mp single))
  cases change with
  | opened workspaces revisions =>
    rename_i workspace revisionId text
    have absent := fresh workspace revisionId text rfl
    have unused := workspace?_none.mp absent
    have found : ∀ id, db'.workspace? id = if id = workspace.id then
        some { workspace with currentRevisionId := some revisionId } else db.workspace? id :=
      workspace?_append workspaces unused
    have home : (revisionRow (.create workspace) revisionId text).workspaceId = workspace.id := rfl
    constructor
    · intro row member
      rw [workspaces, List.mem_append, List.mem_singleton] at member
      rcases member with old | rfl
      · exact consistent.workspaceIds row old
      · exact (writes _ (inserts_workspace workspace revisionId text)).1
    · rw [workspaces, List.map_append, List.nodup_append]
      refine ⟨consistent.uniqueWorkspaces, List.nodup_singleton _, ?_⟩
      rintro id member other single rfl
      obtain ⟨row, inside, same⟩ := List.mem_map.mp member
      exact unused row inside (same.trans (List.mem_singleton.mp single))
    · exact revisionIds
    · rw [revisions]
      exact appendUnique _ _ _ rfl
    · intro row member
      rw [found]
      split
      · exact Option.some_ne_none _
      · rename_i apart
        rw [revisions, List.mem_append, List.mem_singleton] at member
        rcases member with old | rfl
        · exact consistent.owned row old
        · exact absurd rfl apart
    · exact hashed
    · intro id row present
      rw [found] at present
      split at present
      · rename_i same
        cases present
        subst same
        rw [history_append revisions, home, if_pos rfl, consistent.no_history absent]
        exact ⟨rfl, _, rfl, rfl⟩
      · rename_i apart
        rw [history_append revisions, home, if_neg (Ne.symm apart)]
        exact consistent.linear id row present
  | appended existing workspaces revisions =>
    rename_i writer revisionId text
    have found := workspace?_set workspaces fun _ => rfl
    have ids : db'.workspaces.map (·.id) = db.workspaces.map (·.id) := by
      rw [workspaces]
      exact set_ids _ _ fun _ => rfl
    have parent : db.workspace? writer.workspaceId ≠ none := by
      rcases parents _ (inserts_revision writer revisionId text) with present | ⟨workspace, member, _⟩
      · exact present
      · simp only [Batch.writes, existing, List.nil_append, List.mem_append, List.mem_cons, reduceCtorEq,
          List.not_mem_nil, or_false, false_or] at member
        cases writer with
        | worker job held source => cases List.mem_singleton.mp member
        | create other => cases existing
        | save held caller payload number => cases member
    constructor
    · exact workspaces_below ids consistent.workspaceIds
    · rw [ids]
      exact consistent.uniqueWorkspaces
    · exact revisionIds
    · rw [revisions]
      exact appendUnique _ _ _ rfl
    · intro row member
      rw [found, ne_eq, Option.map_eq_none_iff]
      rw [revisions, List.mem_append, List.mem_singleton] at member
      rcases member with old | rfl
      · exact consistent.owned row old
      · exact parent
    · exact hashed
    · intro id row present
      rw [found] at present
      obtain ⟨before, old, rfl⟩ := Option.map_eq_some_iff.mp present
      have linear := consistent.linear id before old
      have named := (workspace?_some old).2
      have home : (revisionRow writer revisionId text).workspaceId = writer.workspaceId := rfl
      rw [history_append revisions, home]
      by_cases here : writer.workspaceId = id
      · have number := (writes _ (inserts_revision writer revisionId text)).2.2
        rw [if_pos here, if_pos (named.trans here.symm)]
        refine linear.append (revisionRow writer revisionId text) ?_
        rw [number]
        exact congrArg (fun id => (db.history id).length + 1) here
      · rw [if_neg here, if_neg (fun same => here (same.symm.trans named))]
        exact linear
  | approved _ workspaces revisions =>
    rename_i held
    have found := workspace?_set workspaces fun _ => rfl
    have ids : db'.workspaces.map (·.id) = db.workspaces.map (·.id) := by
      rw [workspaces]
      exact set_ids _ _ fun _ => rfl
    constructor
    · exact workspaces_below ids consistent.workspaceIds
    · rw [ids]
      exact consistent.uniqueWorkspaces
    · exact revisionIds
    · rw [revisions]
      exact consistent.uniqueRevisions
    · intro row member
      rw [found, ne_eq, Option.map_eq_none_iff]
      exact consistent.owned row (revisions ▸ member)
    · exact hashed
    · intro id row present
      rw [found] at present
      obtain ⟨before, old, rfl⟩ := Option.map_eq_some_iff.mp present
      obtain ⟨numbers, pointer⟩ := consistent.linear id before old
      rw [history_same revisions]
      refine ⟨numbers, ?_⟩
      split
      · exact pointer
      · exact pointer
  | deleted workspaces revisions =>
    rename_i held
    have found := workspace?_filter workspaces
    constructor
    · intro row member
      rw [workspaces] at member
      exact consistent.workspaceIds row (List.mem_filter.mp member).1
    · rw [workspaces]
      exact (List.filter_sublist.map _).nodup consistent.uniqueWorkspaces
    · exact revisionIds
    · rw [revisions]
      exact (List.filter_sublist.map _).nodup consistent.uniqueRevisions
    · intro row member
      rw [revisions, List.mem_filter, decide_eq_true_eq] at member
      rw [found, if_neg member.2]
      exact consistent.owned row member.1
    · exact hashed
    · intro id row present
      rw [found] at present
      split at present
      · cases present
      · rename_i apart
        rw [history_filter revisions, if_neg apart]
        exact consistent.linear id row present
  | quiet _ workspaces revisions =>
    constructor
    · rw [workspaces]
      exact consistent.workspaceIds
    · rw [workspaces]
      exact consistent.uniqueWorkspaces
    · exact revisionIds
    · rw [revisions]
      exact consistent.uniqueRevisions
    · intro row member
      rw [workspace?_same workspaces]
      exact consistent.owned row (revisions ▸ member)
    · exact hashed
    · intro id row present
      rw [workspace?_same workspaces] at present
      rw [history_same revisions]
      exact consistent.linear id row present

theorem Sound.commits {phase : Phase} {pending : List Write} (change : Commits db batch db')
    (writes : ∀ w ∈ batch.writes, WriteOk db outside w)
    (free : ∀ v ∈ batch.writes, ∀ w ∈ pending, conflicts v w = false)
    (fresh : ∀ held, phase.held? = some held → ∀ w ∈ batch.writes, w.Fresh held)
    (sound : Sound db outside phase pending) : Sound db' outside phase pending := by
  refine ⟨sound.shape, sound.inserted, ?_, ?_, ?_, ?_, ?_⟩
  · intro held same
    obtain ⟨ok, mine⟩ := sound.held held same
    exact ⟨ok.commits change (fresh held same), mine⟩
  · intro held source same loaded
    exact (sound.source held source same loaded).commits change writes (fresh held same)
  · intro w member
    exact (sound.writes w member).commits change writes fun v inside => free v inside w member
  · intro writer text here
    refine ⟨(sound.numbered writer text here).1, ?_⟩
    intro present
    have old : ∀ workspace revisionId text, batch = .revision (.create workspace) revisionId text →
        workspace.id ≠ writer.workspaceId := by
      rintro workspace revisionId text' rfl
      have opens := inserts_workspace workspace revisionId text'
      cases writer with
      | create other =>
        have held : Write.insertWorkspace other ∈ pending := by
          rw [sound.shape, here]
          exact List.mem_singleton.mpr rfl
        exact workspaces_apart (free _ opens _ held)
      | save held caller payload number => exact fresh held (by rw [here]; rfl) _ opens
      | worker job held source => exact fresh held (by rw [here]; rfl) _ opens
    obtain ⟨before, grown, _⟩ := change.kept old (opens_fresh writes) present
    have bound := (sound.numbered writer text here).2 before
    have longer := grown.length_le
    omega
  · intro row member
    rcases sound.parents row member with present | created
    · left
      refine change.stays ?_ (opens_fresh writes) present
      rintro held rfl same
      have apart := delete_apart (free _ (Batch.mem_delete held) _ member)
      exact apart (congrArg some same.symm)
    · exact .inr created

theorem Sound.committed {sent : Nat} (change : Commits db batch db')
    (writes : ∀ w ∈ batch.writes, WriteOk db outside w)
    (sound : Sound db outside (.flush batch sent) batch.writes) : Sound db' outside batch.after [] := by
  have held : ∀ held, batch.after.held? = some held → (Phase.flush batch sent).held? = some held := by
    intro held same
    rw [← same, Batch.after_held]
    rfl
  have source : ∀ source, batch.after.source? = some source →
      (Phase.flush batch sent).source? = some source := by
    intro source same
    rw [← same, Batch.after_source]
    rfl
  refine ⟨(Batch.after_pending batch).symm, Batch.after_inserted batch, ?_, ?_, fun _ member =>
    (nomatch member), ?_, fun _ member => (nomatch member)⟩
  · intro object same
    obtain ⟨ok, fresh⟩ := sound.held object (held object same)
    exact ⟨ok.commits change fresh, fun _ member => (nomatch member)⟩
  · intro object row same loaded
    exact (sound.source object row (held object same) (source row loaded)).commits change writes
      (sound.held object (held object same)).2
  · intro writer text here
    cases batch <;> cases here

end Commit

end ManifestCV.Workspace
